import Sflow.DataList
import Sflow.Protocol.Structs
import Sflow.Source

/-!
# Packing and flattening

`sflow_protocol_branches.c` with the flattening half of the leaves.  Packing
builds a tree bottom up: records, a sample around them, a datagram around the
samples, each node holding its length and pointers to its children.  Flattening
walks the tree and writes it into one buffer.  A structure keeps its words in
network order, as the code does.

Every structure carries a pointer to its `flat` function.  The packers set it
to one fixed function each, so it is left out; where the code reaches a payload
through a cast chosen by the format word, `callFlat` checks that the payload is
of that type.

Inside a sample the offsets are of type `int`, in a datagram of type `uint32_t`.
A packet reference is of any type `R`: the code copies it around and reads
through it only in `sflow_fr_raw_pkt_flat`.
-/

namespace Sflow

open C

/-! ## Format words -/

/-- `SFLOW_SET_DATAFORMAT`. -/
def sflowSetDataformat (sdf ent fmt : UInt32) : UInt32 :=
  sdf ||| (ent <<< 20) ||| (fmt &&& 0x000FFFFF)

/-- `SFLOW_GET_DATA_ENT`. -/
def sflowGetDataEnt (sdf : UInt32) : UInt32 := sdf >>> 20

/-- `SFLOW_GET_DATA_FMT`. -/
def sflowGetDataFmt (sdf : UInt32) : UInt32 := sdf &&& 0x000FFFFF

/-- `SFLOW_SET_DATASOURCE`. -/
def sflowSetDatasource (sds typ val : UInt32) : UInt32 :=
  sds ||| (typ <<< 24) ||| (val &&& 0x00FFFFFF)

/-! ## Structures -/

structure SflowFrRawPktHeader (R : Type) where
  frHeaderProtocol : UInt32
  frFrameLength : UInt32
  frStripped : UInt32
  frHeaderSize : UInt32
  frHeader : R

structure SflowFr (R : Type) where
  sfrDfmt : UInt32
  sfrLen : UInt32
  sfrData : SflowFrRawPktHeader R

structure SflowCrHostAdapter where
  haIfIndex : UInt32
  haMacCount : UInt32
  /-- The `sflow_cr_host_adapter_mac_t` behind the structure. -/
  haMac : Vector UInt8 8
deriving DecidableEq

/-- The adapters follow the structure in memory. -/
structure SflowCrHostAdapters where
  hasLen : UInt32
  hasCount : UInt32
  adapters : List SflowCrHostAdapter
deriving DecidableEq

/-- What `scr_data` points to. -/
inductive CrPayload (p : Platform) where
  /-- A structure of fixed size, as it lies in memory. -/
  | leaf (k : CrKind) (image : List UInt8) (hk : k ≠ .hostAdapters)
      (hlen : image.length = k.sizeof p)
  /-- The record of variable size, at its address. -/
  | adapters (addr : Nat) (a : SflowCrHostAdapters)

structure SflowCr (p : Platform) where
  scrDfmt : UInt32
  scrLen : UInt32
  scrData : Option (CrPayload p)

structure SflowFs (R : Type) where
  sfsSeqNo : UInt32
  sfsDsrc : UInt32
  sfsRate : UInt32
  sfsPool : UInt32
  sfsDrops : UInt32
  inputIf : UInt32
  outputIf : UInt32
  sfsCount : UInt32
  /-- The pointers behind the structure. -/
  records : List (SflowFr R)

structure SflowCs (p : Platform) where
  scsSeqNo : UInt32
  scsDsrc : UInt32
  scsCount : UInt32
  /-- The pointers behind the structure. -/
  records : List (SflowCr p)

/-- What the `data` of a sample points to. -/
inductive SampleData (p : Platform) (R : Type) where
  | flow (fs : SflowFs R)
  | counter (cs : SflowCs p)

structure SflowSp (p : Platform) (R : Type) where
  sspDfmt : UInt32
  len : UInt32
  data : SampleData p R

structure SflowDg (p : Platform) (R : Type) where
  sflowVer : UInt32
  ipVer : UInt32
  ipAddr : Vector UInt8 16
  subAgentId : UInt32
  dgSeq : UInt32
  upTime : UInt32
  sampleNum : UInt32
  /-- The pointers behind the structure. -/
  samples : List (SflowSp p R)

variable {R : Type} {p : Platform}

/-! ## Flattening the leaves -/

def sflowFrRawPktFlat (p : Platform) (m : Memory R) (r : SflowFrRawPktHeader R) : Flat :=
  fun buf start => do
    let n := sflowFrRawPktHeaderT.sizeof p.toAbi - 2 * p.psize
    let size := (ntohl p.endian r.frHeaderSize).toNat
    let buf ← buf.memcpy start
      (wordBytes p.endian r.frHeaderProtocol ++ wordBytes p.endian r.frFrameLength ++
        wordBytes p.endian r.frStripped ++ wordBytes p.endian r.frHeaderSize)
    let header ← m.read r.frHeader size
    let buf ← buf.memcpy (start + n) header
    return (buf, n + size)

/-- The body the leaves of fixed size share: copy all but a pointer's worth. -/
def leafFlat (p : Platform) (sizeof : Nat) (image : List UInt8) : Flat :=
  copyOut (image.take (sizeof - p.psize)) (sizeof - p.psize)

def sflowCounterGenericFlat (p : Platform) : List UInt8 → Flat :=
  leafFlat p (sflowCrIfGenericT.sizeof p.toAbi)

def sflowCrHostDescrFlat (p : Platform) : List UInt8 → Flat :=
  leafFlat p (sflowCrHostDescrT.sizeof p.toAbi)

def sflowCrHostParentFlat (p : Platform) : List UInt8 → Flat :=
  leafFlat p (sflowCrHostParentT.sizeof p.toAbi)

def sflowCrHostCpuFlat (p : Platform) : List UInt8 → Flat :=
  leafFlat p (sflowCrHostCpuT.sizeof p.toAbi)

def sflowCrHostMemoryFlat (p : Platform) : List UInt8 → Flat :=
  leafFlat p (sflowCrHostMemoryT.sizeof p.toAbi)

def sflowCrHostDiskIoFlat (p : Platform) : List UInt8 → Flat :=
  leafFlat p (sflowCrHostDiskIoT.sizeof p.toAbi)

def sflowCrHostNetIoFlat (p : Platform) : List UInt8 → Flat :=
  leafFlat p (sflowCrHostNetIoT.sizeof p.toAbi)

def sflowCrVirtLeafFlat (p : Platform) : List UInt8 → Flat :=
  leafFlat p (sflowCrVirtLeafT.sizeof p.toAbi)

def sflowCrVirtCpuFlat (p : Platform) : List UInt8 → Flat :=
  leafFlat p (sflowCrVirtCpuT.sizeof p.toAbi)

def sflowCrVirtMemoryFlat (p : Platform) : List UInt8 → Flat :=
  leafFlat p (sflowCrVirtMemoryT.sizeof p.toAbi)

def sflowCrVirtNetIoFlat (p : Platform) : List UInt8 → Flat :=
  leafFlat p (sflowCrVirtNetIoT.sizeof p.toAbi)

/-- Assumed of the leaf that is not in the repository. -/
def sflowCrFlowStatFlat (p : Platform) : List UInt8 → Flat :=
  leafFlat p p.flowStatSize

/-- The image of an adapter and the address behind it. -/
def SflowCrHostAdapter.image (p : Platform) (ad : SflowCrHostAdapter) : List UInt8 :=
  wordBytes p.endian ad.haIfIndex ++ wordBytes p.endian ad.haMacCount ++ ad.haMac.toList

/-- The memory from `has_count` on. -/
def SflowCrHostAdapters.body (p : Platform) (ads : SflowCrHostAdapters) : List UInt8 :=
  wordBytes p.endian ads.hasCount ++ ads.adapters.flatMap (·.image p)

/-- The record is freed before `has_len` is read out of it for the return value. -/
def sflowCrHostAdaptersFlat (p : Platform) (m : Memory R) (addr : Nat)
    (ads : SflowCrHostAdapters) : Flat :=
  fun buf start =>
    if ads.hasLen.toNat ≤ (ads.body p).length then do
      let buf ← buf.memcpy start ((ads.body p).take ads.hasLen.toNat)
      let n ← m.hasLenAfterFree addr ads.hasLen
      return (buf, n.toNat)
    else .error .outOfBounds

/-- The type of the structure a payload really is. -/
def CrPayload.kind : CrPayload p → CrKind
  | leaf k _ _ _ => k
  | adapters .. => .hostAdapters

/-- The function that the `flat` pointer of a payload of fixed size holds. -/
def leafFlatOf (p : Platform) : CrKind → List UInt8 → Flat
  | .ifGeneric => sflowCounterGenericFlat p
  | .hostDescr => sflowCrHostDescrFlat p
  | .hostAdapters => fun _ _ _ => .error .badCast
  | .hostParent => sflowCrHostParentFlat p
  | .hostCpu => sflowCrHostCpuFlat p
  | .hostMemory => sflowCrHostMemoryFlat p
  | .hostDiskIo => sflowCrHostDiskIoFlat p
  | .hostNetIo => sflowCrHostNetIoFlat p
  | .virtLeaf => sflowCrVirtLeafFlat p
  | .virtCpu => sflowCrVirtCpuFlat p
  | .virtMemory => sflowCrVirtMemoryFlat p
  | .virtNetIo => sflowCrVirtNetIoFlat p
  | .flowStat => sflowCrFlowStatFlat p

/-- The function that the `flat` pointer of a payload holds. -/
def CrPayload.flat (m : Memory R) : CrPayload p → Flat
  | leaf k image _ _ => leafFlatOf p k image
  | adapters addr ads => sflowCrHostAdaptersFlat p m addr ads

/-- `((T *)(cr->scr_data))->flat(&start_point, cr->scr_data)` for the type `T` of `k`. -/
def callFlat (m : Memory R) (k : CrKind) : Option (CrPayload p) → Flat
  | none => fun _ _ => .error .nullDeref
  | some payload => if payload.kind = k then payload.flat m else fun _ _ => .error .badCast

/-! ## Flattening the branches -/

def sflowFlowRecordFlat (p : Platform) (m : Memory R) (fr : SflowFr R) : Flat :=
  fun buf start => do
    let n := sflowFrT.sizeof p.toAbi - 2 * p.psize
    let buf ← buf.memcpy start (wordBytes p.endian fr.sfrDfmt ++ wordBytes p.endian fr.sfrLen)
    let dfmt := ntohl p.endian fr.sfrDfmt
    let (buf, k) ←
      if sflowGetDataEnt dfmt = 0 ∧ sflowGetDataFmt dfmt = 1 then
        sflowFrRawPktFlat p m fr.sfrData buf (start + n)
      else .ok (buf, 0)
    return (buf, n + k)

def sflowFlowSampleFlat (p : Platform) (m : Memory R) (fs : SflowFs R) : Flat :=
  fun buf start => do
    let n := sflowFsT.sizeof p.toAbi - p.psize
    let buf ← buf.memcpy start
      (wordBytes p.endian fs.sfsSeqNo ++ wordBytes p.endian fs.sfsDsrc ++
        wordBytes p.endian fs.sfsRate ++ wordBytes p.endian fs.sfsPool ++
        wordBytes p.endian fs.sfsDrops ++ wordBytes p.endian fs.inputIf ++
        wordBytes p.endian fs.outputIf ++ wordBytes p.endian fs.sfsCount)
    flatSlots (2 ^ 31) (sflowFlowRecordFlat p m) (ntohl p.endian fs.sfsCount).toNat fs.records n
      buf start

/-- The payload that the format words of a record select. -/
def counterPayloadFlat (m : Memory R) (ent fmt : UInt32) (data : Option (CrPayload p)) : Flat :=
  if ent = 0 ∧ fmt = 1 then callFlat m .ifGeneric data
  else if ent = 0 ∧ fmt = 2000 then callFlat m .hostDescr data
  else if ent = 0 ∧ fmt = 2001 then callFlat m .hostAdapters data
  else if ent = 0 ∧ fmt = 2002 then callFlat m .hostParent data
  else if ent = 0 ∧ fmt = 2003 then callFlat m .hostCpu data
  else if ent = 0 ∧ fmt = 2004 then callFlat m .hostMemory data
  else if ent = 0 ∧ fmt = 2005 then callFlat m .hostDiskIo data
  else if ent = 0 ∧ fmt = 2006 then callFlat m .hostNetIo data
  else if ent = 0 ∧ fmt = 2100 then callFlat m .virtLeaf data
  else if ent = 0 ∧ fmt = 2101 then callFlat m .virtCpu data
  else if ent = 0 ∧ fmt = 2102 then callFlat m .virtMemory data
  else if ent = 0 ∧ fmt = 2104 then callFlat m .virtNetIo data
  else if ent = 52 ∧ fmt = 52 then callFlat m .flowStat data
  else fun buf _ => .ok (buf, 0)

def sflowCounterRecordFlat (m : Memory R) (cr : SflowCr p) : Flat :=
  fun buf start => do
    let buf ← buf.memcpy start (wordBytes p.endian cr.scrDfmt ++ wordBytes p.endian cr.scrLen)
    let dfmt := ntohl p.endian cr.scrDfmt
    let (buf, k) ←
      counterPayloadFlat m (sflowGetDataEnt dfmt) (sflowGetDataFmt dfmt) cr.scrData buf (start + 8)
    return (buf, 8 + k)

def sflowCounterSampleFlat (m : Memory R) (cs : SflowCs p) : Flat :=
  fun buf start => do
    let buf ← buf.memcpy start
      (wordBytes p.endian cs.scsSeqNo ++ wordBytes p.endian cs.scsDsrc ++
        wordBytes p.endian cs.scsCount)
    flatSlots (2 ^ 31) (sflowCounterRecordFlat m) (ntohl p.endian cs.scsCount).toNat cs.records 12
      buf start

def sflowSampleFlat (m : Memory R) (sp : SflowSp p R) : Flat :=
  fun buf start => do
    let buf ← buf.memcpy start (wordBytes p.endian sp.sspDfmt ++ wordBytes p.endian sp.len)
    let dfmt := ntohl p.endian sp.sspDfmt
    let (buf, k) ←
      if sflowGetDataEnt dfmt = 0 ∧ sflowGetDataFmt dfmt = 1 then
        match sp.data with
        | .flow fs => sflowFlowSampleFlat p m fs buf (start + 8)
        | .counter _ => .error .badCast
      else if sflowGetDataEnt dfmt = 0 ∧ sflowGetDataFmt dfmt = 2 then
        match sp.data with
        | .counter cs => sflowCounterSampleFlat m cs buf (start + 8)
        | .flow _ => .error .badCast
      else .ok (buf, 0)
    return (buf, 8 + k)

/-- The loop that adds up `f` over the first `count` pointer slots. -/
def sumSlots {α : Type} (f : α → UInt32) : Nat → List α → UInt32 → Except Fault UInt32
  | 0, _, acc => .ok acc
  | _ + 1, [], _ => .error .outOfBounds
  | count + 1, x :: slots, acc => sumSlots f count slots (acc + f x)

/-- The first loop of `sflow_datagram_flat`: the size of the datagram. -/
def sflowDatagramSize (dg : SflowDg p R) : Except Fault UInt32 :=
  sumSlots
    (fun sp => UInt32.ofNat (sflowSpT.sizeof p.toAbi - p.psize * 2) + ntohl p.endian sp.len)
    (ntohl p.endian dg.sampleNum).toNat dg.samples
    (UInt32.ofNat (sflowDgT.sizeof p.toAbi - p.psize) - if sflowIpver = 4 then 12 else 0)

/-- `sflow_datagram_flat` up to its loop over the samples: the buffer with the header in it,
`off_buf` behind that, and the size that it allocated. -/
def sflowDatagramStart (dg : SflowDg p R) : Except Fault (Buf × Nat × UInt32) := do
  let size ← sflowDatagramSize dg
  let buf := Buf.calloc size.toNat
  let buf ← buf.memcpy 0 (wordBytes p.endian dg.sflowVer ++ wordBytes p.endian dg.ipVer)
  let ip := if sflowIpver = 4 then dg.ipAddr.toList.take 4 else dg.ipAddr.toList
  let buf ← buf.memcpy 8 ip
  let buf ← buf.memcpy (8 + ip.length)
    (wordBytes p.endian dg.subAgentId ++ wordBytes p.endian dg.dgSeq ++
      wordBytes p.endian dg.upTime ++ wordBytes p.endian dg.sampleNum)
  return (buf, 8 + ip.length + 16, size)

/-- Returns the buffer, the final `off_buf` and the size that it allocated. -/
def sflowDatagramFlat (m : Memory R) (dg : SflowDg p R) : Except Fault (Buf × Nat × UInt32) := do
  let (buf, offBuf, size) ← sflowDatagramStart dg
  let (buf, offBuf) ← flatSlots (2 ^ 32) (sflowSampleFlat m) (ntohl p.endian dg.sampleNum).toNat
    dg.samples offBuf buf 0
  return (buf, offBuf, size)

/-! ## Packing -/

/-- The length of a packet is what `read` returned, so it is not negative. -/
def sflowFrRawPktPack (p : Platform) (rawHeader : R) (len : Nat) : SflowFrRawPktHeader R :=
  let crop := if len > 128 then 128 else len
  let crop := crop - crop % 4
  { frHeader := rawHeader
    frFrameLength := htonl p.endian (UInt32.ofNat len)
    frHeaderProtocol := htonl p.endian 1
    frHeaderSize := htonl p.endian (UInt32.ofNat crop)
    frStripped := htonl p.endian (UInt32.ofNat (len - crop)) }

def sflowFlowRecordPack (p : Platform) (flowData : SflowFrRawPktHeader R) (source : SflowSource) :
    SflowFr R where
  sfrDfmt := htonl p.endian (sflowSetDataformat 0 source.ssEnt source.ssFmt)
  sfrLen := htonl p.endian <|
    if source.ssEnt = 0 ∧ source.ssFmt = 1 then
      UInt32.ofNat (sflowFrRawPktHeaderT.sizeof p.toAbi - p.psize * 2) +
        ntohl p.endian flowData.frHeaderSize
    else 0
  sfrData := flowData

def sflowFlowSamplePack (p : Platform) (recordList : SflowDataList (SflowFr R))
    (source : SflowSource) : Except Fault (SflowFs R) := do
  let (records, rest) ← drainLive recordList.sdlCount 0 recordList
  sflowDataListFree rest
  return {
    sfsSeqNo := htonl p.endian (UInt32.ofNat source.ssCount)
    sfsDsrc := htonl p.endian
      (sflowSetDatasource 0 (UInt32.ofNat source.ssIdType) (UInt32.ofInt source.ssId))
    sfsRate := htonl p.endian (UInt32.ofInt source.ssRate)
    sfsPool := htonl p.endian source.fspPool
    sfsDrops := htonl p.endian source.fspDrops
    inputIf := sflowUnkown p
    outputIf := sflowUnkown p
    sfsCount := htonl p.endian (UInt32.ofNat recordList.sdlCount)
    records := records }

/-- The length that `sflow_counter_record_pack` notes for a payload. -/
def counterRecordLen (data : Option (CrPayload p)) (ent fmt : UInt32) : Except Fault UInt32 :=
  let len (sizeof : Nat) : Except Fault UInt32 := .ok (UInt32.ofNat (sizeof - p.psize))
  if ent = 0 ∧ fmt = 1 then len (sflowCrIfGenericT.sizeof p.toAbi)
  else if ent = 0 ∧ fmt = 2000 then len (sflowCrHostDescrT.sizeof p.toAbi)
  else if ent = 0 ∧ fmt = 2001 then
    match data with
    | some (.adapters _ ads) => .ok ads.hasLen
    | some (.leaf ..) => .error .badCast
    | none => .error .nullDeref
  else if ent = 0 ∧ fmt = 2002 then len (sflowCrHostParentT.sizeof p.toAbi)
  else if ent = 0 ∧ fmt = 2003 then len (sflowCrHostCpuT.sizeof p.toAbi)
  else if ent = 0 ∧ fmt = 2004 then len (sflowCrHostMemoryT.sizeof p.toAbi)
  else if ent = 0 ∧ fmt = 2005 then len (sflowCrHostDiskIoT.sizeof p.toAbi)
  else if ent = 0 ∧ fmt = 2006 then len (sflowCrHostNetIoT.sizeof p.toAbi)
  else if ent = 0 ∧ fmt = 2100 then len (sflowCrVirtLeafT.sizeof p.toAbi)
  else if ent = 0 ∧ fmt = 2101 then len (sflowCrVirtCpuT.sizeof p.toAbi)
  else if ent = 0 ∧ fmt = 2102 then len (sflowCrVirtMemoryT.sizeof p.toAbi)
  else if ent = 0 ∧ fmt = 2104 then len (sflowCrVirtNetIoT.sizeof p.toAbi)
  else if ent = 52 ∧ fmt = 52 then len p.flowStatSize
  else .ok 0

def sflowCounterRecordPack (counterData : Option (CrPayload p)) (ent fmt : UInt32) :
    Except Fault (SflowCr p) := do
  let scrLen ← counterRecordLen counterData ent fmt
  return {
    scrDfmt := htonl p.endian (sflowSetDataformat 0 ent fmt)
    scrLen := htonl p.endian scrLen
    scrData := counterData }

/-- Returns the source as well: its count goes up. -/
def sflowCounterSamplePack (recordList : SflowDataList (SflowCr p)) (src : SflowSource) :
    Except Fault (SflowCs p × SflowSource) := do
  let (records, rest) ← drain recordList.sdlCount recordList
  sflowDataListFree rest
  return (
    { scsSeqNo := htonl p.endian (UInt32.ofNat src.ssCount)
      scsDsrc := htonl p.endian
        (sflowSetDatasource 0 (UInt32.ofNat src.ssIdType) (UInt32.ofInt src.ssId))
      scsCount := htonl p.endian (UInt32.ofNat recordList.sdlCount)
      records := records },
    { src with ssCount := src.ssCount + 1 })

def sflowSamplePack (sampleData : SampleData p R) (ent fmt : UInt32) :
    Except Fault (SflowSp p R) := do
  let len ←
    if ent = 0 ∧ fmt = 1 then
      match sampleData with
      | .flow fs =>
          sumSlots
            (fun fr => ntohl p.endian fr.sfrLen +
              UInt32.ofNat (sflowFrT.sizeof p.toAbi - p.psize * 2))
            (ntohl p.endian fs.sfsCount).toNat fs.records
            (UInt32.ofNat (sflowFsT.sizeof p.toAbi - p.psize))
      | .counter _ => .error .badCast
    else if ent = 0 ∧ fmt = 2 then
      match sampleData with
      | .counter cs =>
          sumSlots
            (fun cr => ntohl p.endian cr.scrLen +
              UInt32.ofNat (sflowCrT.sizeof p.toAbi - p.psize * 2))
            (ntohl p.endian cs.scsCount).toNat cs.records
            (UInt32.ofNat (sflowCsT.sizeof p.toAbi - p.psize))
      | .flow _ => .error .badCast
    else .ok 0
  return {
    data := sampleData
    sspDfmt := htonl p.endian (sflowSetDataformat 0 ent fmt)
    len := htonl p.endian len }

/-- `datagramCount` is the static counter of the file and `upTime` what
`get_up_time_sec` returns. -/
def sflowDatagramPack (datagramCount : Nat) (upTime : UInt32)
    (sampleList : SflowDataList (SflowSp p R)) : Except Fault (SflowDg p R) := do
  let (samples, rest) ← drain sampleList.sdlCount sampleList
  sflowDataListFree rest
  return {
    dgSeq := htonl p.endian (UInt32.ofNat datagramCount)
    ipVer := htonl p.endian (if sflowIpver = 4 then 1 else 2)
    sflowVer := htonl p.endian sflowVer
    ipAddr := p.agentIp ++ Vector.replicate 12 (0 : UInt8)
    sampleNum := htonl p.endian (UInt32.ofNat sampleList.sdlCount)
    subAgentId := sflowDummy p
    upTime := htonl p.endian upTime
    samples := samples }

/-! ## Whole samples -/

/-- Returns the source as well: its pool is brought up to date. -/
def getSampleFlowsample (p : Platform) (source : SflowSource) (pkt : R) (len : Nat) :
    Except Fault (SflowSp p R × SflowSource) := do
  let source := { source with
    fspPool := UInt32.ofNat source.ssCount * UInt32.ofInt source.ssRate }
  let f := sflowFrRawPktPack p pkt len
  let fr := sflowFlowRecordPack p f source
  let fs ← sflowFlowSamplePack p (SflowDataList.ofRecords [fr]) source
  let sp ← sflowSamplePack (.flow fs) 0 1
  return (sp, source)

/-- What the sampling functions of the polled sources share: records of these
payloads, in a list, in a counter sample. -/
def counterSample (source : SflowSource) (payloads : List (Option (CrPayload p) × CrKind)) :
    Except Fault (SflowSp p R × SflowSource) := do
  let crs ← payloads.mapM fun (data, k) => sflowCounterRecordPack data k.ent k.fmt
  let (cs, source) ← sflowCounterSamplePack (SflowDataList.ofRecords crs) source
  let sp ← sflowSamplePack (.counter cs) 0 2
  return (sp, source)

end Sflow

import Sflow.C.Cursor
import Sflow.C.Tables
import Sflow.Protocol.Padding
import Sflow.Protocol.RoundTrip

/-!
# The example collector

`flow_stat_collector.py` keeps what it is told about flows and skips the rest, or so it
prints.  It reads a record or a sample that it does not support up to its length, and
takes what follows for the next one.

So the collector is in step with the encoder exactly while there is nothing to skip.
The words it reads as little-endian and swaps with `ntohl`, which is right on a
little-endian host only.

The layout of flow statistics is that of the collector: a name of 32 bytes and six
words.  The time of arrival and the window are left out.
-/

namespace Sflow.Collector

open C C.Scan

/-! ## What is kept -/

/-- The exceptions that `unpack` and `inet_ntoa` raise. -/
inductive PyError where
  | structError
  | socketError
deriving DecidableEq, Repr

structure FlowStat where
  name : List UInt8
  ipkts : UInt32
  rbytes : UInt32
  ierrs : UInt32
  opkts : UInt32
  obytes : UInt32
  oerrs : UInt32
deriving DecidableEq, Repr

/-- The statistics of one interface by the names of their flows. -/
abbrev FlowDict := List (List UInt8 × List FlowStat)

/-- A key is the text of an agent's address with the index of an interface.  The source
makes one text of the two, which tells them apart. -/
abbrev InterfaceDict := List ((String × UInt32) × FlowDict)

/-- `interfaceDict[key][stat.name].append(stat)`, made where it is missing. -/
def record (d : InterfaceDict) (key : String × UInt32) (stat : FlowStat) : InterfaceDict :=
  Dict.alter [] (Dict.alter [] (· ++ [stat]) stat.name) key d

/-- The number of statistics in a dictionary. -/
def total (d : InterfaceDict) : Nat := (d.map fun e => (e.2.map (·.2.length)).sum).sum

theorem total_record (d : InterfaceDict) (key : String × UInt32) (stat : FlowStat) :
    total (record d key stat) = total d + 1 := by
  have hflows : ∀ fd : FlowDict, ((Dict.alter [] (· ++ [stat]) stat.name fd).map (·.2.length)).sum =
      (fd.map (·.2.length)).sum + 1 :=
    Dict.sum_alter List.length (fun _ ↦ List.length_append) rfl stat.name
  have hempty : (([] : FlowDict).map (·.2.length)).sum = 0 := rfl
  exact Dict.sum_alter (fun fd : FlowDict ↦ (fd.map (·.2.length)).sum) hflows hempty key d

/-- The statistics that are kept under a key and a name. -/
def statsOf (d : InterfaceDict) (key : String × UInt32) (name : List UInt8) : List FlowStat :=
  (((d.lookup key).getD []).lookup name).getD []

theorem statsOf_record (d : InterfaceDict) (key key' : String × UInt32) (name : List UInt8)
    (stat : FlowStat) :
    statsOf (record d key stat) key' name =
      statsOf d key' name ++ if key = key' ∧ stat.name = name then [stat] else [] := by
  rw [statsOf, record, Dict.lookup_alter]
  by_cases hkey : key = key'
  · subst hkey
    rw [if_pos rfl, Option.getD_some, Dict.lookup_alter]
    by_cases hname : stat.name = name
    · subst hname
      simp [statsOf]
    · simp [statsOf, hname, Ne.symm hname]
  · simp [statsOf, hkey, Ne.symm hkey]

/-- The global values. -/
structure Globals where
  currentIp : String
  currentIf : UInt32
  interfaceDict : InterfaceDict
deriving DecidableEq, Repr

/-- A statistic is kept for the current address and interface. -/
def Globals.record (g : Globals) (stat : FlowStat) : Globals :=
  { g with interfaceDict := Collector.record g.interfaceDict (g.currentIp, g.currentIf) stat }

/-! ## The methods of `SflowData` -/

abbrev Collect := Scan PyError Globals

/-- `unpack('<I', bs)[0]`. -/
def unpackI (bs : List UInt8) : Collect UInt32 :=
  if bs.length = 4 then pure (UInt32.ofNat (ofLeBytes bs)) else throw .structError

/-- `socket.inet_ntoa`. -/
def inetNtoa (bs : List UInt8) : Collect String :=
  if bs.length = 4 then pure (".".intercalate (bs.map fun b => toString b.toNat))
  else throw .socketError

def readInt4B (host : Endian) : Collect UInt32 := do
  let ret ← unpackI (← slice 4)
  move 4
  return ntohl host ret

def readIPv (ver : Nat) : Collect String := do
  let n := if ver = 4 then 4 else 16
  let addr ← inetNtoa (← slice n)
  move n
  update fun g => { g with currentIp := addr }
  return addr

def readStr (slen : Nat) : Collect (List UInt8) := do
  let s ← slice slen
  move slen
  return s

/-! ## Reading a datagram -/

def readFlowStat (host : Endian) : Collect Unit := do
  let name ← readStr 32
  let ipkts ← readInt4B host
  let rbytes ← readInt4B host
  let ierrs ← readInt4B host
  let opkts ← readInt4B host
  let obytes ← readInt4B host
  let oerrs ← readInt4B host
  update (·.record ⟨name, ipkts, rbytes, ierrs, opkts, obytes, oerrs⟩)

/-- The format and the length that records and samples begin with.  The length is
printed. -/
def readFormat (host : Endian) : Collect (UInt32 × UInt32) := do
  let ef ← readInt4B host
  let _ ← readInt4B host
  return (ef >>> 20, ef &&& 0x000FFFFF)

def readRecord (host : Endian) : Collect Unit := do
  let (ent, fmt) ← readFormat host
  if ent = 52 ∧ fmt = 52 then readFlowStat host

/-- What precedes the records of a counter sample: their number. -/
def readCounterHeader (host : Endian) : Collect UInt32 := do
  let _ ← readInt4B host
  let iffi ← readInt4B host
  update fun g => { g with currentIf := iffi &&& 0x00FFFFFF }
  readInt4B host

def readCounterSample (host : Endian) : Collect Unit := do
  let numcr ← readCounterHeader host
  times (readRecord host) numcr.toNat

def readSample (host : Endian) : Collect Unit := do
  let (ent, fmt) ← readFormat host
  if ent = 0 ∧ fmt = 2 then readCounterSample host

/-- What precedes the samples of a datagram: their number. -/
def readHeader (host : Endian) : Collect UInt32 := do
  let _ ← readInt4B host
  let ipVer ← readInt4B host
  let _ ← readIPv ((ipVer.toNat + 1) * 2)
  let _ ← readInt4B host
  let _ ← readInt4B host
  let _ ← readInt4B host
  readInt4B host

def readDatagram (host : Endian) : Collect Unit := do
  let numSp ← readHeader host
  times (readSample host) numSp.toNat

/-- The header and the first `k` samples. -/
def readSamples (host : Endian) (k : Nat) : Collect Unit := do
  let _ ← readHeader host
  times (readSample host) k

/-! ## What is to be kept -/

variable {R : Type} {p : Platform}

/-- The word at an offset, in network order. -/
def wordAt (bs : List UInt8) (i : Nat) : UInt32 := UInt32.ofNat (ofBeBytes ((bs.drop i).take 4))

/-- The statistics in the payload of a record. -/
def flowStatOf (bs : List UInt8) : FlowStat where
  name := bs.take 32
  ipkts := wordAt bs 32
  rbytes := wordAt bs 36
  ierrs := wordAt bs 40
  opkts := wordAt bs 44
  obytes := wordAt bs 48
  oerrs := wordAt bs 52

def FlowStat.wire (stat : FlowStat) : List UInt8 :=
  stat.name ++ (beBytes 4 stat.ipkts.toNat ++ (beBytes 4 stat.rbytes.toNat ++
    (beBytes 4 stat.ierrs.toNat ++ (beBytes 4 stat.opkts.toNat ++
      (beBytes 4 stat.obytes.toNat ++ beBytes 4 stat.oerrs.toNat)))))

theorem beBytes_wordAt {bs : List UInt8} {i : Nat} (h : i + 4 ≤ bs.length) :
    beBytes 4 (wordAt bs i).toNat = (bs.drop i).take 4 := by
  have hlen : ((bs.drop i).take 4).length = 4 := by
    rw [List.length_take, List.length_drop]
    omega
  have hlt : ofBeBytes ((bs.drop i).take 4) < 2 ^ 32 := by
    have h := ofLeBytes_lt ((bs.drop i).take 4).reverse
    rwa [List.length_reverse, hlen] at h
  have hword := beBytes_ofBeBytes ((bs.drop i).take 4)
  rw [hlen] at hword
  rw [wordAt, toNat_ofNat_of_lt hlt, hword]

/-- A payload is its statistics. -/
theorem wire_flowStatOf {bs : List UInt8} (h : bs.length = 56) : (flowStatOf bs).wire = bs := by
  have hlast : (bs.drop 52).take 4 = bs.drop 52 :=
    List.take_of_length_le (by rw [List.length_drop]; omega)
  have hstep (i : Nat) : (bs.drop i).take 4 ++ bs.drop (i + 4) = bs.drop i := by
    rw [← List.drop_drop, List.take_append_drop]
  simp only [FlowStat.wire, flowStatOf]
  rw [beBytes_wordAt (by omega), beBytes_wordAt (by omega), beBytes_wordAt (by omega),
    beBytes_wordAt (by omega), beBytes_wordAt (by omega), beBytes_wordAt (by omega), hlast, hstep,
    hstep, hstep, hstep, hstep, List.take_append_drop]

/-- The address of the agent as `inet_ntoa` writes it. -/
def agentText (p : Platform) : String :=
  ".".intercalate (p.agentIp.toList.map fun b => toString b.toNat)

/-- The flow statistics in a sample, each with the key it belongs under. -/
def flowStats : SampleInput p R → List ((String × UInt32) × FlowStat)
  | .flow .. => []
  | .counter source payloads =>
      (payloads.filter fun i => i.kind = .flowStat).map fun i =>
        ((agentText p, UInt32.ofInt source.ssId &&& 0x00FFFFFF), flowStatOf i.bytes)

/-- A dictionary with the flow statistics of some samples, in order. -/
def recorded (l : List (SampleInput p R)) (d : InterfaceDict) : InterfaceDict :=
  (l.flatMap flowStats).foldl (fun d e => record d e.1 e.2) d

/-- Under each key and name the statistics of the samples follow those there were, in order. -/
theorem statsOf_recorded (l : List (SampleInput p R)) (d : InterfaceDict)
    (key : String × UInt32) (name : List UInt8) :
    statsOf (recorded l d) key name = statsOf d key name ++
      ((l.flatMap flowStats).filter fun e => e.1 = key ∧ e.2.name = name).map (·.2) := by
  rw [recorded]
  induction l.flatMap flowStats generalizing d with
  | nil => simp
  | cons e es ih =>
      rw [List.foldl_cons, ih, statsOf_record, List.filter_cons, List.append_assoc]
      by_cases h : e.1 = key ∧ e.2.name = name
      · simp [h]
      · simp [h]

/-- The datagram is read to its end, and its flow statistics are what has been added. -/
def Consumed (host : Endian) (l : List (SampleInput p R)) (bs : List UInt8) (g : Globals) : Prop :=
  ∃ g', readDatagram host ⟨bs, 0, g⟩ = .ok () ⟨bs, bs.length, g'⟩ ∧
    g'.interfaceDict = recorded l g.interfaceDict

/-- The collector has come to where the encoder put each sample by the time it is to read it,
and has kept what the samples before it hold. -/
structure InStep (host : Endian) (l : List (SampleInput p R)) (bs : List UInt8) (g : Globals) :
    Prop where
  samples : ∀ k ≤ l.length, SampleInput.totalSize (l.take k) ≤ bs.length ∧
    ∃ g', readSamples host k ⟨bs, 0, g⟩ = .ok () ⟨bs, SampleInput.totalSize (l.take k), g'⟩ ∧
      g'.interfaceDict = recorded (l.take k) g.interfaceDict
  consumed : Consumed host l bs g

/-- A sample that the collector supports, and with all that is in it. -/
def Supported : SampleInput p R → Prop
  | .flow .. => False
  | .counter _ payloads => ∀ i ∈ payloads, i.kind = .flowStat

/-! ## Reading what is supported -/

theorem takes_readInt4B (host : Endian) {bs : List UInt8} (h : bs.length = 4) (g : Globals) :
    Takes (readInt4B host) bs g (ntohl host (UInt32.ofNat (ofLeBytes bs))) g := by
  refine takes_slice h fun c hc ↦ ?_
  subst hc
  rw [unpackI, if_pos h]
  rfl

/-- On a little-endian host the word that was sent is the word that is read. -/
theorem takes_word (x : UInt32) (g : Globals) :
    Takes (readInt4B .little) (beBytes 4 x.toNat) g x g := by
  have h := takes_readInt4B .little (beBytes_length 4 x.toNat) g
  have hswap : UInt32.ofNat (ofLeBytes (beBytes 4 x.toNat)) = htonl .little x := rfl
  rwa [hswap, ntohl_htonl] at h

theorem takes_readStr {bs : List UInt8} {n : Nat} (h : bs.length = n) (g : Globals) :
    Takes (readStr n) bs g bs g := by
  refine takes_slice h fun c hc ↦ ?_
  subst hc
  rfl

theorem takes_readIPv {bs : List UInt8} (h : bs.length = 4) (g : Globals) :
    Takes (readIPv 4) bs g (".".intercalate (bs.map fun b => toString b.toNat))
      { g with currentIp := ".".intercalate (bs.map fun b => toString b.toNat) } := by
  refine takes_slice (n := 4) h fun c hc ↦ ?_
  subst hc
  rw [inetNtoa, if_pos h]
  rfl

theorem readIPv_raises {ver : Nat} (hver : ver ≠ 4) {bs : List UInt8} (h : bs.length = 16)
    (pre rest : List UInt8) (g : Globals) :
    readIPv ver ⟨pre ++ (bs ++ rest), pre.length, g⟩ =
      .error .socketError ⟨pre ++ (bs ++ rest), pre.length, g⟩ := by
  have hslice := slice_front (ε := PyError) pre bs rest g
  have hne : bs.length ≠ 4 := by omega
  rw [h] at hslice
  rw [readIPv, if_neg hver, bind_of_ok hslice, inetNtoa, if_neg hne]
  rfl

theorem takes_readFlowStat {stat : FlowStat} (h : stat.name.length = 32) (g : Globals) :
    Takes (readFlowStat .little) stat.wire g () (g.record stat) := by
  refine (takes_readStr h g).bind <| (takes_word _ g).bind <| (takes_word _ g).bind <|
    (takes_word _ g).bind <| (takes_word _ g).bind <| (takes_word _ g).bind <|
    (takes_word _ g).bind_nil ?_
  exact takes_update _ g

/-- The two words in front of a record or a sample. -/
def formatBytes (ent fmt len : UInt32) : List UInt8 :=
  beBytes 4 (sflowSetDataformat 0 ent fmt).toNat ++ beBytes 4 len.toNat

@[simp] theorem length_formatBytes (ent fmt len : UInt32) :
    (formatBytes ent fmt len).length = 8 := by
  simp [formatBytes]

theorem takes_readFormat (ent fmt len : UInt32) (hent : ent.toNat < 2 ^ 12)
    (hfmt : fmt.toNat < 2 ^ 20) (g : Globals) :
    Takes (readFormat .little) (formatBytes ent fmt len) g (ent, fmt) g := by
  refine (takes_word _ g).bind <| (takes_word _ g).bind_nil ?_
  have hent' : sflowSetDataformat 0 ent fmt >>> 20 = ent := sflowGetDataEnt_set hent hfmt
  have hfmt' : sflowSetDataformat 0 ent fmt &&& 0x000FFFFF = fmt := sflowGetDataFmt_set hent hfmt
  rw [hent', hfmt']
  exact takes_pure _ g

theorem wire_record {i : PayloadInput p} (h : i.size < 2 ^ 32) :
    i.record.wire = formatBytes i.kind.ent i.kind.fmt (UInt32.ofNat i.size) ++ i.bytes := by
  simp only [SflowCr.wire, PayloadInput.record, wordBytes_htonl, Option.map_some,
    Option.getD_some, PayloadInput.wire_toPayload h, formatBytes]

theorem size_of_flowStat (hstat : p.flowStatSize = 56 + p.psize) {i : PayloadInput p}
    (hkind : i.kind = .flowStat) : i.size = 56 := by
  cases i with
  | leaf k image hk hlen =>
      obtain rfl : k = .flowStat := hkind
      rw [PayloadInput.size, CrKind.sizeof, hstat, Nat.add_sub_cancel]
  | adapters addr links => cases hkind

theorem takes_readRecord (hstat : p.flowStatSize = 56 + p.psize) {i : PayloadInput p}
    (hkind : i.kind = .flowStat) (g : Globals) :
    Takes (readRecord .little) i.record.wire g () (g.record (flowStatOf i.bytes)) := by
  have hsize := size_of_flowStat hstat hkind
  have hbytes : i.bytes.length = 56 := by rw [PayloadInput.length_bytes, hsize]
  have hname : (flowStatOf i.bytes).name.length = 32 := by
    rw [flowStatOf, List.length_take]
    omega
  have hstats := takes_readFlowStat hname g
  rw [wire_flowStatOf hbytes] at hstats
  rw [wire_record (by omega)]
  refine (takes_readFormat _ _ _ i.kind.ent_lt i.kind.fmt_lt g).bind ?_
  rw [hkind]
  exact hstats

/-! ## Samples -/

section Samples

variable {m : Memory R}

/-- The words in front of the records of a counter sample. -/
def counterHead (source : SflowSource) (n : UInt32) : List UInt8 :=
  beBytes 4 (UInt32.ofNat source.ssCount).toNat ++ (beBytes 4 source.dsrc.toNat ++
    beBytes 4 n.toNat)

theorem wire_counter (source : SflowSource) (payloads : List (PayloadInput p)) :
    (SampleInput.counter source payloads : SampleInput p R).packed.wire m =
      formatBytes 0 2
          (UInt32.ofNat (SampleInput.counter source payloads : SampleInput p R).size) ++
        (counterHead source (UInt32.ofNat payloads.length) ++
          payloads.flatMap (·.record.wire)) := by
  simp only [SampleInput.packed, SflowSp.wire, SampleInput.counterSamp, SflowCs.around,
    SflowCs.wire, wordBytes_htonl, List.length_map, List.flatMap_map, formatBytes, counterHead,
    List.append_assoc]

theorem takes_readCounterHeader (source : SflowSource) (n : UInt32) (g : Globals) :
    Takes (readCounterHeader .little) (counterHead source n) g n
      { g with currentIf := UInt32.ofInt source.ssId &&& 0x00FFFFFF } := by
  rw [← idOf_sflowSetDatasource]
  exact (takes_word _ g).bind <| (takes_word _ g).bind <| (takes_update _ g).bind <|
    takes_word n _

/-- A flow sample is read up to its length. -/
theorem takes_readSample_flow (len : UInt32) (g : Globals) :
    Takes (readSample .little) (formatBytes 0 1 len) g () g := by
  refine (takes_readFormat 0 1 len (by decide) (by decide) g).bind_nil ?_
  exact takes_pure () g

/-- A counter sample is read by its records. -/
theorem readSample_counter {source : SflowSource} {payloads : List (PayloadInput p)}
    (h : payloads.length < 2 ^ 32) (pre rest : List UInt8) (g : Globals) :
    let bs := pre ++ ((SampleInput.counter source payloads : SampleInput p R).packed.wire m ++ rest)
    readSample .little ⟨bs, pre.length, g⟩ =
      times (readRecord .little) payloads.length
        ⟨bs, pre.length + 20, { g with currentIf := UInt32.ofInt source.ssId &&& 0x00FFFFFF }⟩ := by
  intro bs
  let size := UInt32.ofNat (SampleInput.counter source payloads : SampleInput p R).size
  let head := counterHead source (UInt32.ofNat payloads.length)
  let records := payloads.flatMap (·.record.wire)
  have hformat := takes_readFormat 0 2 size (by decide) (by decide) g pre
    (head ++ (records ++ rest))
  have hhead := takes_readCounterHeader source (UInt32.ofNat payloads.length) g
    (pre ++ formatBytes 0 2 size) (records ++ rest)
  have hbs : pre ++ (formatBytes 0 2 size ++ (head ++ (records ++ rest))) = bs := by
    simp only [bs, wire_counter, size, head, records, List.append_assoc]
  have hlen : head.length = 12 := by simp [head, counterHead]
  rw [hbs, length_formatBytes] at hformat
  rw [List.append_assoc, hbs, List.length_append, length_formatBytes, hlen] at hhead
  rw [readSample, bind_of_ok hformat]
  change readCounterSample .little _ = _
  rw [readCounterSample, bind_of_ok hhead, toNat_ofNat_of_lt h]

/-- What is remembered behind a sample that is supported. -/
def Globals.after (g : Globals) : SampleInput p R → Globals
  | .flow .. => g
  | .counter source payloads =>
      payloads.foldl (fun g i => g.record (flowStatOf i.bytes))
        { g with currentIf := UInt32.ofInt source.ssId &&& 0x00FFFFFF }

theorem takes_readSample (hstat : p.flowStatSize = 56 + p.psize) {i : SampleInput p R}
    (h : i.size < 2 ^ 32) (hi : Supported i) (g : Globals) :
    Takes (readSample .little) (i.packed.wire m) g () (g.after i) := by
  cases i with
  | flow => exact hi.elim
  | counter source payloads =>
      have hrecords := takes_times (fun (g : Globals) i ↦ g.record (flowStatOf i.bytes))
        (fun i hmem g ↦ takes_readRecord hstat (hi i hmem) g)
        { g with currentIf := UInt32.ofInt source.ssId &&& 0x00FFFFFF }
      have hcount := toNat_ofNat_of_lt (SampleInput.length_lt_of_size_lt h)
      rw [wire_counter]
      refine (takes_readFormat 0 2 _ (by decide) (by decide) g).bind ?_
      refine (takes_readCounterHeader source _ g).bind ?_
      rw [hcount]
      exact hrecords

/-! ## Datagrams -/

/-- The words of a datagram in front of its samples. -/
def headerBytes (p : Platform) (datagramCount : Nat) (upTime n : UInt32) : List UInt8 :=
  beBytes 4 (5 : UInt32).toNat ++ (beBytes 4 (1 : UInt32).toNat ++ (p.agentIp.toList ++
    (beBytes 4 (52 : UInt32).toNat ++ (beBytes 4 (UInt32.ofNat datagramCount).toNat ++
      (beBytes 4 upTime.toNat ++ beBytes 4 n.toNat)))))

theorem wire_around (l : List (SampleInput p R)) (datagramCount : Nat) (upTime : UInt32) :
    (SflowDg.around p datagramCount upTime (l.map SampleInput.packed)).wire m =
      headerBytes p datagramCount upTime (UInt32.ofNat l.length) ++
        l.flatMap (·.packed.wire m) := by
  simp only [SampleInput.wire_around, headerBytes, List.append_assoc]

theorem length_headerBytes (datagramCount : Nat) (upTime n : UInt32) :
    (headerBytes p datagramCount upTime n).length = 28 := by
  simp [headerBytes]

theorem takes_readHeader (datagramCount : Nat) (upTime n : UInt32) (g : Globals) :
    Takes (readHeader .little) (headerBytes p datagramCount upTime n) g n
      { g with currentIp := agentText p } := by
  have hagent : p.agentIp.toList.length = 4 := by simp
  refine (takes_word _ g).bind <| (takes_word _ g).bind ?_
  refine (takes_readIPv hagent g).bind <| (takes_word _ _).bind <| (takes_word _ _).bind <|
    (takes_word _ _).bind <| takes_word n _

/-- A datagram whose agent has an address of another version is not read. -/
theorem readHeader_raises (host : Endian) {ver ipVer addr : List UInt8} (hver : ver.length = 4)
    (hipVer : ipVer.length = 4) (haddr : addr.length = 16)
    (hne : ((ntohl host (UInt32.ofNat (ofLeBytes ipVer))).toNat + 1) * 2 ≠ 4) (rest : List UInt8)
    (g : Globals) :
    ∃ c, readHeader host ⟨ver ++ (ipVer ++ (addr ++ rest)), 0, g⟩ = .error .socketError c := by
  have hfirst := takes_readInt4B host hver g [] (ipVer ++ (addr ++ rest))
  have hsecond := takes_readInt4B host hipVer g ver (addr ++ rest)
  have hraise := readIPv_raises hne haddr (ver ++ ipVer) rest g
  rw [List.nil_append, hver] at hfirst
  rw [hver, hipVer] at hsecond
  rw [List.append_assoc, List.length_append, hver, hipVer] at hraise
  exact ⟨_, (bind_of_ok hfirst).trans ((bind_of_ok hsecond).trans (bind_of_error hraise))⟩

/-- A big-endian host takes the address for one of another version. -/
theorem readHeader_big (datagramCount : Nat) (upTime n : UInt32) (rest : List UInt8) (g : Globals) :
    ∃ c, readHeader .big ⟨headerBytes p datagramCount upTime n ++ rest, 0, g⟩ =
      .error .socketError c := by
  have haddr : (p.agentIp.toList ++ (beBytes 4 (52 : UInt32).toNat ++
      (beBytes 4 (UInt32.ofNat datagramCount).toNat ++ beBytes 4 upTime.toNat))).length = 16 := by
    simp
  have h := readHeader_raises .big (beBytes_length 4 (5 : UInt32).toNat)
    (beBytes_length 4 (1 : UInt32).toNat) haddr (by decide)
    (beBytes 4 n.toNat ++ rest) g
  simpa only [headerBytes, List.append_assoc] using h

/-! ## In step -/

/-- Records are kept under one key. -/
theorem foldl_record (g : Globals) (stats : List FlowStat) :
    stats.foldl Globals.record g = { g with
      interfaceDict := (stats.map fun stat => ((g.currentIp, g.currentIf), stat)).foldl
        (fun d e => record d e.1 e.2) g.interfaceDict } := by
  induction stats generalizing g with
  | nil => rfl
  | cons stat stats ih =>
      rw [List.foldl_cons, ih]
      rfl

theorem after_counter (g : Globals) (source : SflowSource) (payloads : List (PayloadInput p)) :
    g.after (.counter source payloads : SampleInput p R) =
      { g with
        currentIf := UInt32.ofInt source.ssId &&& 0x00FFFFFF
        interfaceDict := (payloads.map fun i =>
            ((g.currentIp, UInt32.ofInt source.ssId &&& 0x00FFFFFF), flowStatOf i.bytes)).foldl
          (fun d e => record d e.1 e.2) g.interfaceDict } := by
  rw [Globals.after, ← List.foldl_map, foldl_record, List.map_map]
  rfl

theorem currentIp_after (g : Globals) (i : SampleInput p R) :
    (g.after i).currentIp = g.currentIp := by
  cases i with
  | flow => rfl
  | counter source payloads => rw [after_counter]

theorem flowStats_counter {source : SflowSource} {payloads : List (PayloadInput p)}
    (h : ∀ i ∈ payloads, i.kind = .flowStat) :
    flowStats (.counter source payloads : SampleInput p R) = payloads.map fun i =>
      ((agentText p, UInt32.ofInt source.ssId &&& 0x00FFFFFF), flowStatOf i.bytes) := by
  have hall : (payloads.filter fun i => i.kind = .flowStat) = payloads :=
    List.filter_eq_self.mpr fun i hi ↦ decide_eq_true (h i hi)
  rw [flowStats, hall]

theorem recorded_append (l l' : List (SampleInput p R)) (d : InterfaceDict) :
    recorded (l ++ l') d = recorded l' (recorded l d) := by
  rw [recorded, List.flatMap_append, List.foldl_append]
  rfl

theorem interfaceDict_after {i : SampleInput p R} (hi : Supported i) {g : Globals}
    (hip : g.currentIp = agentText p) :
    (g.after i).interfaceDict = recorded [i] g.interfaceDict := by
  cases i with
  | flow => exact hi.elim
  | counter source payloads =>
      rw [after_counter, recorded, List.flatMap_singleton, flowStats_counter hi, hip]

theorem interfaceDict_foldl_after {l : List (SampleInput p R)} (hl : ∀ i ∈ l, Supported i)
    {g : Globals} (hip : g.currentIp = agentText p) :
    (l.foldl Globals.after g).interfaceDict = recorded l g.interfaceDict := by
  induction l generalizing g with
  | nil => rfl
  | cons i l ih =>
      have hrest := ih (fun j hj ↦ hl j (List.mem_cons_of_mem _ hj))
        ((currentIp_after g i).trans hip)
      rw [List.foldl_cons, hrest, interfaceDict_after (hl i List.mem_cons_self) hip]
      exact (recorded_append [i] l _).symm

/-- The number of statistics that samples add. -/
theorem total_recorded (l : List (SampleInput p R)) (d : InterfaceDict) :
    total (recorded l d) = total d + (l.flatMap flowStats).length := by
  rw [recorded]
  induction l.flatMap flowStats generalizing d with
  | nil => rfl
  | cons e es ih =>
      rw [List.foldl_cons, ih, total_record, List.length_cons]
      omega

/-- Samples that are supported are read one after the other. -/
theorem takes_readSamples (hstat : p.flowStatSize = 56 + p.psize) {l : List (SampleInput p R)}
    (hsize : ∀ i ∈ l, i.size < 2 ^ 32) (hl : ∀ i ∈ l, Supported i) (datagramCount : Nat)
    (upTime n : UInt32) (g : Globals) :
    Takes (readSamples .little l.length)
      (headerBytes p datagramCount upTime n ++ l.flatMap (·.packed.wire m)) g ()
      (l.foldl Globals.after { g with currentIp := agentText p }) := by
  refine (takes_readHeader datagramCount upTime n g).bind ?_
  exact takes_times Globals.after (fun i hi g ↦ takes_readSample hstat (hsize i hi) (hl i hi) g) _

theorem length_wire_samples {l : List (SampleInput p R)} (hsize : ∀ i ∈ l, i.size < 2 ^ 32)
    (hmem : ∀ i ∈ l, i.InMemory m) (datagramCount : Nat) (upTime n : UInt32) :
    (headerBytes p datagramCount upTime n ++ l.flatMap (·.packed.wire m)).length =
      SampleInput.totalSize l := by
  rw [List.length_append, length_headerBytes, SampleInput.length_flatMap_wire hsize hmem,
    SampleInput.totalSize]

/-- The number of samples is read as it was sent. -/
theorem readDatagram_eq (datagramCount : Nat) (upTime n : UInt32) (rest : List UInt8)
    (g : Globals) :
    let bs := headerBytes p datagramCount upTime n ++ rest
    readDatagram .little ⟨bs, 0, g⟩ = readSamples .little n.toNat ⟨bs, 0, g⟩ := by
  intro bs
  have hheader : readHeader .little ⟨bs, 0, g⟩ = _ :=
    takes_readHeader datagramCount upTime n g [] rest
  rw [readDatagram, readSamples, bind_of_ok hheader, bind_of_ok hheader]

/-- A run over some samples, whatever follows them. -/
theorem readSamples_eq (l' : List (SampleInput p R)) (hstat : p.flowStatSize = 56 + p.psize)
    {l : List (SampleInput p R)} (hsize : ∀ i ∈ l, i.size < 2 ^ 32)
    (hmem : ∀ i ∈ l, i.InMemory m) (hl : ∀ i ∈ l, Supported i) (datagramCount : Nat)
    (upTime n : UInt32) (g : Globals) :
    let bs := headerBytes p datagramCount upTime n ++ (l ++ l').flatMap (·.packed.wire m)
    SampleInput.totalSize l ≤ bs.length ∧
      ∃ g', readSamples .little l.length ⟨bs, 0, g⟩ =
          .ok () ⟨bs, SampleInput.totalSize l, g'⟩ ∧
        g'.interfaceDict = recorded l g.interfaceDict := by
  intro bs
  have hlen := length_wire_samples hsize hmem datagramCount upTime n
  have hrun := takes_readSamples (m := m) hstat hsize hl datagramCount upTime n g []
    (l'.flatMap (·.packed.wire m))
  have hbs : bs = [] ++ (headerBytes p datagramCount upTime n ++ l.flatMap (·.packed.wire m) ++
      l'.flatMap (·.packed.wire m)) := by
    simp only [bs, List.flatMap_append, List.append_assoc, List.nil_append]
  rw [← hbs, hlen, List.length_nil, Nat.zero_add] at hrun
  refine ⟨?_, _, hrun, interfaceDict_foldl_after hl rfl⟩
  rw [hbs, List.nil_append, List.length_append, hlen]
  exact Nat.le_add_right _ _

/-- Where everything is supported the collector is in step. -/
theorem inStep_of_supported (hstat : p.flowStatSize = 56 + p.psize) {l : List (SampleInput p R)}
    (h : SampleInput.totalSize l < 2 ^ 32) (hmem : ∀ i ∈ l, i.InMemory m)
    (hl : ∀ i ∈ l, Supported i) (datagramCount : Nat) (upTime : UInt32) (g : Globals) :
    InStep .little l ((SflowDg.around p datagramCount upTime (l.map SampleInput.packed)).wire m)
      g := by
  have hsize := SampleInput.size_lt_of_totalSize_lt h
  have hcount : (UInt32.ofNat l.length).toNat = l.length :=
    toNat_ofNat_of_lt (Nat.lt_trans (SampleInput.length_lt_totalSize l) h)
  rw [wire_around]
  constructor
  · intro k hk
    have hin : ∀ i ∈ l.take k, i ∈ l := fun i hi ↦ List.mem_of_mem_take hi
    have hrun := readSamples_eq (l.drop k) hstat (fun i hi ↦ hsize i (hin i hi))
      (fun i hi ↦ hmem i (hin i hi)) (fun i hi ↦ hl i (hin i hi)) datagramCount upTime
      (UInt32.ofNat l.length) g
    rwa [List.take_append_drop, List.length_take_of_le hk] at hrun
  · obtain ⟨-, g', hread, hdict⟩ := readSamples_eq [] hstat hsize hmem hl datagramCount
      upTime (UInt32.ofNat l.length) g
    have hlen := length_wire_samples hsize hmem datagramCount upTime (UInt32.ofNat l.length)
    rw [List.append_nil] at hread
    refine ⟨g', ?_, hdict⟩
    rw [readDatagram_eq, hcount, hread, hlen]

/-! ## Out of step -/

theorem eq_of_readInt4B {host : Endian} {c c' : Cursor Globals} {x : UInt32}
    (h : readInt4B host c = .ok x c') : c' = { c with pos := c.pos + 4 } := by
  obtain ⟨bs, c₁, hslice, h⟩ := bind_ok_iff.mp h
  obtain ⟨w, c₂, hunpack, h⟩ := bind_ok_iff.mp h
  cases hslice
  rw [unpackI] at hunpack
  split at hunpack
  · cases hunpack
    cases h
    rfl
  · cases hunpack

theorem eq_of_readFormat {host : Endian} {c c' : Cursor Globals} {x : UInt32 × UInt32}
    (h : readFormat host c = .ok x c') : c' = { c with pos := c.pos + 8 } := by
  obtain ⟨ef, c₁, hfirst, h⟩ := bind_ok_iff.mp h
  obtain ⟨len, c₂, hsecond, h⟩ := bind_ok_iff.mp h
  cases h
  rw [eq_of_readInt4B hsecond, eq_of_readInt4B hfirst]

theorem exists_of_readFlowStat {host : Endian} {c c' : Cursor Globals}
    (h : readFlowStat host c = .ok () c') :
    ∃ stat, c' = ⟨c.data, c.pos + 56, c.mem.record stat⟩ := by
  obtain ⟨name, c₀, hname, h⟩ := bind_ok_iff.mp h
  cases hname
  obtain ⟨ipkts, c₁, h₁, h⟩ := bind_ok_iff.mp h
  obtain ⟨rbytes, c₂, h₂, h⟩ := bind_ok_iff.mp h
  obtain ⟨ierrs, c₃, h₃, h⟩ := bind_ok_iff.mp h
  obtain ⟨opkts, c₄, h₄, h⟩ := bind_ok_iff.mp h
  obtain ⟨obytes, c₅, h₅, h⟩ := bind_ok_iff.mp h
  obtain ⟨oerrs, c₆, h₆, h⟩ := bind_ok_iff.mp h
  cases h
  refine ⟨⟨(c.data.drop c.pos).take 32, ipkts, rbytes, ierrs, opkts, obytes, oerrs⟩, ?_⟩
  rw [eq_of_readInt4B h₆, eq_of_readInt4B h₅, eq_of_readInt4B h₄, eq_of_readInt4B h₃,
    eq_of_readInt4B h₂, eq_of_readInt4B h₁]

/-- A record is read by its two words, or by its statistics as well, whatever its length. -/
theorem readRecord_cases {host : Endian} {c c' : Cursor Globals}
    (h : readRecord host c = .ok () c') :
    c' = { c with pos := c.pos + 8 } ∨
      ∃ stat, c' = ⟨c.data, c.pos + 64, c.mem.record stat⟩ := by
  obtain ⟨x, c₁, hformat, h⟩ := bind_ok_iff.mp h
  obtain rfl := eq_of_readFormat hformat
  change (if x.1 = 52 ∧ x.2 = 52 then readFlowStat host else pure ()) _ = _ at h
  split at h
  · exact .inr (exists_of_readFlowStat h)
  · cases h
    exact .inl rfl

/-- The bytes that records take are told by the statistics that they add. -/
theorem pos_of_times_readRecord {host : Endian} {n : Nat} {c c' : Cursor Globals}
    (h : times (readRecord host) n c = .ok () c') :
    c'.pos + 56 * total c.mem.interfaceDict =
      c.pos + 8 * n + 56 * total c'.mem.interfaceDict := by
  have hstep : ∀ c c', readRecord host c = .ok () c' →
      (c'.pos - 56 * total c'.mem.interfaceDict : Int) =
        (c.pos - 56 * total c.mem.interfaceDict : Int) + 8 := by
    intro c c' h
    obtain rfl | ⟨stat, rfl⟩ := readRecord_cases h
    · push_cast
      omega
    · simp only [Globals.record, total_record]
      push_cast
      omega
  have hall := add_of_times hstep h
  omega

theorem size_pos (hstat : p.flowStatSize = 56 + p.psize) (i : PayloadInput p) : 0 < i.size := by
  cases i with
  | leaf k image hk hlen =>
      by_cases hkind : k = .flowStat
      · rw [size_of_flowStat hstat (i := .leaf k image hk hlen) hkind]
        decide
      · obtain ⟨d, hd⟩ : ∃ d, k.decl = some d := by
          cases k <;> first | exact ⟨_, rfl⟩ | contradiction
        have hlt : p.psize < d.sizeof p.toAbi := CrKind.psize_lt_sizeof hd
        rw [PayloadInput.size, CrKind.sizeof_of_decl hd]
        exact Nat.sub_pos_of_lt hlt
  | adapters addr links => exact Nat.add_pos_left (by decide) _

theorem le_sum_size (hstat : p.flowStatSize = 56 + p.psize) (payloads : List (PayloadInput p)) :
    56 * (payloads.filter fun i => i.kind = .flowStat).length ≤ (payloads.map (·.size)).sum := by
  induction payloads with
  | nil => exact Nat.le_refl 0
  | cons i payloads ih =>
      rw [List.filter_cons, List.map_cons, List.sum_cons]
      split
      · rename_i hkind
        rw [List.length_cons, size_of_flowStat hstat (of_decide_eq_true hkind)]
        omega
      · omega

/-- Payloads take no more than their statistics only where there is nothing else. -/
theorem kind_of_sum_size (hstat : p.flowStatSize = 56 + p.psize) {payloads : List (PayloadInput p)}
    (h : (payloads.map (·.size)).sum =
      56 * (payloads.filter fun i => i.kind = .flowStat).length) :
    ∀ i ∈ payloads, i.kind = .flowStat := by
  induction payloads with
  | nil => exact fun _ hi ↦ absurd hi List.not_mem_nil
  | cons i payloads ih =>
      rw [List.filter_cons, List.map_cons, List.sum_cons] at h
      split at h
      · rename_i hkind
        have hi := of_decide_eq_true hkind
        rw [List.length_cons, size_of_flowStat hstat hi] at h
        refine List.forall_mem_cons.mpr ⟨hi, ih ?_⟩
        omega
      · have hpos := size_pos hstat i
        have hle := le_sum_size hstat payloads
        omega

/-- A sample that leaves the collector where the next one starts, and with the statistics it
holds, is supported. -/
theorem supported_of_readSample (hstat : p.flowStatSize = 56 + p.psize) {i : SampleInput p R}
    (h : i.size < 2 ^ 32) {pre rest bs : List UInt8} {g g' : Globals}
    (hread : readSample .little ⟨pre ++ (i.packed.wire m ++ rest), pre.length, g⟩ =
      .ok () ⟨bs, pre.length + (8 + i.size), g'⟩)
    (htotal : total g'.interfaceDict = total g.interfaceDict + (flowStats i).length) :
    Supported i := by
  cases i with
  | flow source hent hfmt pkt len =>
      let sample : SampleInput p R := .flow source hent hfmt pkt len
      have hwire : sample.packed.wire m = formatBytes 0 1 (UInt32.ofNat sample.size) ++
          (SampleInput.flowSample p source pkt len).wire p m := by
        simp only [sample, SampleInput.packed, SflowSp.wire, wordBytes_htonl, formatBytes]
      have htaken := takes_readSample_flow (UInt32.ofNat sample.size) g pre
        ((SampleInput.flowSample p source pkt len).wire p m ++ rest)
      rw [← List.append_assoc (formatBytes _ _ _), ← hwire, hread] at htaken
      injection htaken with _ hcursor
      have hpos := congrArg Cursor.pos hcursor
      simp only [length_formatBytes, SampleInput.size] at hpos
      omega
  | counter source payloads =>
      rw [readSample_counter (SampleInput.length_lt_of_size_lt h)] at hread
      have hpos := pos_of_times_readRecord hread
      have hsum : (payloads.map fun i => 8 + i.size).sum =
          8 * payloads.length + (payloads.map (·.size)).sum := by
        rw [List.sum_map_add, List.map_const', List.sum_replicate_nat, Nat.mul_comm]
      rw [flowStats, List.length_map] at htotal
      simp only [SampleInput.size, hsum, htotal] at hpos
      exact kind_of_sum_size hstat (by omega)

theorem readSamples_succ (host : Endian) (k : Nat) :
    readSamples host (k + 1) = readSamples host k >>= fun _ => readSample host := by
  rw [readSamples, readSamples, bind_assoc]
  simp only [times_succ]

/-- A collector that is in step reads each sample from where it starts to where the next one
does, and adds the statistics it holds. -/
theorem InStep.readSample {host : Endian} {l₁ l₂ : List (SampleInput p R)} {i : SampleInput p R}
    {bs : List UInt8} {g : Globals} (h : InStep host (l₁ ++ i :: l₂) bs g) :
    ∃ g₁ g₂, Collector.readSample host ⟨bs, SampleInput.totalSize l₁, g₁⟩ =
        .ok () ⟨bs, SampleInput.totalSize l₁ + (8 + i.size), g₂⟩ ∧
      total g₂.interfaceDict = total g₁.interfaceDict + (flowStats i).length := by
  obtain ⟨-, g₁, hread₁, hdict₁⟩ := h.samples l₁.length (by simp)
  obtain ⟨-, g₂, hread₂, hdict₂⟩ := h.samples (l₁.length + 1) (by simp)
  have htake : (l₁ ++ i :: l₂).take (l₁.length + 1) = l₁ ++ [i] := by
    rw [List.take_append, List.take_of_length_le (Nat.le_succ _), Nat.add_sub_cancel_left]
    rfl
  have htotal : SampleInput.totalSize (l₁ ++ [i]) = SampleInput.totalSize l₁ + (8 + i.size) := by
    simp [SampleInput.totalSize, Nat.add_assoc]
  rw [List.take_left] at hread₁ hdict₁
  rw [htake] at hread₂ hdict₂
  rw [htotal, readSamples_succ, bind_of_ok hread₁] at hread₂
  refine ⟨g₁, g₂, hread₂, ?_⟩
  rw [hdict₁, hdict₂, recorded_append, total_recorded, total_recorded, List.flatMap_singleton]

/-- A collector that is in step supports every sample. -/
theorem supported_of_inStep (hstat : p.flowStatSize = 56 + p.psize) {l : List (SampleInput p R)}
    (h : SampleInput.totalSize l < 2 ^ 32) (hmem : ∀ i ∈ l, i.InMemory m) (datagramCount : Nat)
    (upTime : UInt32) {g : Globals}
    (hstep : InStep .little l
      ((SflowDg.around p datagramCount upTime (l.map SampleInput.packed)).wire m) g) :
    ∀ i ∈ l, Supported i := by
  intro i hi
  obtain ⟨l₁, l₂, rfl⟩ := List.append_of_mem hi
  have hsize := SampleInput.size_lt_of_totalSize_lt h
  have hmem₁ : ∀ j ∈ l₁, j ∈ l₁ ++ i :: l₂ := fun j hj ↦ List.mem_append_left _ hj
  let pre := headerBytes p datagramCount upTime (UInt32.ofNat (l₁ ++ i :: l₂).length) ++
    l₁.flatMap (·.packed.wire m)
  have hpre : pre.length = SampleInput.totalSize l₁ :=
    length_wire_samples (fun j hj ↦ hsize j (hmem₁ j hj)) (fun j hj ↦ hmem j (hmem₁ j hj)) _ _ _
  have hbs : (SflowDg.around p datagramCount upTime
      ((l₁ ++ i :: l₂).map SampleInput.packed)).wire m =
        pre ++ (i.packed.wire m ++ l₂.flatMap (·.packed.wire m)) := by
    simp only [wire_around, pre, List.flatMap_append, List.flatMap_cons, List.append_assoc]
  obtain ⟨g₁, g₂, hread, htotal⟩ := hstep.readSample
  rw [hbs, ← hpre] at hread
  exact supported_of_readSample hstat (hsize i hi) hread htotal

/-- Only a little-endian host comes to the first sample. -/
theorem little_of_inStep {host : Endian} {l : List (SampleInput p R)} {datagramCount : Nat}
    {upTime : UInt32} {g : Globals}
    (hstep : InStep host l
      ((SflowDg.around p datagramCount upTime (l.map SampleInput.packed)).wire m) g) :
    host = .little := by
  cases host with
  | little => rfl
  | big =>
      obtain ⟨-, g', hread, -⟩ := hstep.samples 0 (Nat.zero_le _)
      rw [wire_around] at hread
      obtain ⟨c, hraise⟩ := readHeader_big (p := p) datagramCount upTime (UInt32.ofNat l.length)
        (l.flatMap (·.packed.wire m)) g
      rw [readSamples, bind_of_error hraise] at hread
      cases hread

end Samples

/-! ## What is produced -/

theorem readableAfterFree_of_supported {m : Memory R} {i : SampleInput p R} (h : Supported i) :
    i.ReadableAfterFree m := by
  cases i with
  | flow => trivial
  | counter source payloads =>
      refine fun j hj ↦ PayloadInput.readableAfterFree_of_kind ?_
      rw [h j hj]
      decide

theorem readableAfterFree_of_ok (m : Memory R) (i : SampleInput p R) :
    i.ReadableAfterFree { m with hasLenAfterFree := fun _ => .ok } := by
  cases i with
  | flow => trivial
  | counter => exact fun j _ ↦ j.readableAfterFree_of_intact fun _ _ ↦ rfl

/-- What is produced of samples whose records survive being freed is their bytes. -/
theorem produced_eq {m : Memory R} {l : List (SampleInput p R)}
    (h : SampleInput.totalSize l < 2 ^ 32) (hmem : ∀ i ∈ l, i.InMemory m)
    (hfree : ∀ i ∈ l, i.ReadableAfterFree m) {datagramCount : Nat} {upTime : UInt32} {buf : Buf}
    {offBuf : Nat} {size : UInt32}
    (hflat : sflowDatagramFlat m (.around p datagramCount upTime (l.map SampleInput.packed)) =
      .ok (buf, offBuf, size)) :
    buf.data.take size.toNat =
      (SflowDg.around p datagramCount upTime (l.map SampleInput.packed)).wire m := by
  have hoff := SampleInput.offsetsFit_of_flat_around h hfree hflat
  obtain ⟨ws, -, heq⟩ := SampleInput.flat_around h hoff hmem hfree datagramCount upTime
  rw [heq] at hflat
  cases hflat
  rw [toNat_ofNat_of_lt h, ← SampleInput.length_wire_around h hmem datagramCount upTime,
    List.take_length]

/-- A 64-bit machine that knows the layout of flow statistics, for examples. -/
def amd64 : Platform :=
  { Platform.amd64 with flowStatSize := 64, psize_le_flowStatSize := by decide }

/-- Short lists are packed and flattened. -/
theorem exists_produced {m : Memory R} {l : List (SampleInput p R)}
    (h : SampleInput.totalSize l < 2 ^ 31) (hmem : ∀ i ∈ l, i.InMemory m) (datagramCount : Nat)
    (upTime : UInt32) :
    let dg := SflowDg.around p datagramCount upTime (l.map SampleInput.packed)
    sflowDatagramPack datagramCount upTime (SflowDataList.ofRecords (l.map SampleInput.packed)) =
        .ok dg ∧
      ∃ r, sflowDatagramFlat { m with hasLenAfterFree := fun _ => .ok } dg = .ok r := by
  intro dg
  have hoff : ∀ i ∈ l, i.OffsetsFit := fun i hi ↦
    SampleInput.offsetsFit_of_size_lt (SampleInput.size_lt_of_totalSize_lt h i hi)
  obtain ⟨ws, -, hflat⟩ := SampleInput.flat_around (Nat.lt_trans h (by decide)) hoff
    (fun i hi ↦ (hmem i hi).withHasLen fun _ ↦ .ok) (fun i _ ↦ readableAfterFree_of_ok m i)
    datagramCount upTime
  refine ⟨?_, _, hflat⟩
  rw [sflowDatagramPack_eq (SflowDataList.wellFormed_ofRecords _), SflowDataList.data_ofRecords]

/-- The place at which a run over a datagram ends. -/
def endOf (host : Endian) (bs : List UInt8) (g : Globals) : Option Nat :=
  match readDatagram host ⟨bs, 0, g⟩ with
  | .ok _ c => some c.pos
  | .error .. => none

theorem Consumed.endOf_eq {host : Endian} {l : List (SampleInput p R)} {bs : List UInt8}
    {g : Globals} (h : Consumed host l bs g) : endOf host bs g = some bs.length := by
  obtain ⟨g', hread, -⟩ := h
  rw [endOf, hread]

/-- For every datagram that can be produced at all: whatever the allocator leaves in the memory it
is given back, the collector is in step with what is produced exactly if its host is
little-endian, there is nothing in the datagram that it does not support, and the size of the
datagram fits the word that counts it. -/
theorem inStep_iff {m : Memory R} {l : List (SampleInput p R)}
    {list : SflowDataList (SflowSp p R)} (hlist : list.WellFormed)
    (hpack : l.mapM SampleInput.pack = .ok list.data) (hmem : ∀ i ∈ l, i.InMemory m)
    (hstat : p.flowStatSize = 56 + p.psize) {datagramCount : Nat} {upTime : UInt32}
    {dg : SflowDg p R} (hdg : sflowDatagramPack datagramCount upTime list = .ok dg)
    {r : Buf × Nat × UInt32}
    (hflat : sflowDatagramFlat { m with hasLenAfterFree := fun _ => .ok } dg = .ok r)
    (host : Endian) (g : Globals) :
    (∀ hasLen buf offBuf size,
        sflowDatagramFlat { m with hasLenAfterFree := hasLen } dg = .ok (buf, offBuf, size) →
        InStep host l (buf.data.take size.toNat) g) ↔
      host = .little ∧ (∀ i ∈ l, Supported i) ∧ SampleInput.totalSize l < 2 ^ 32 := by
  rw [sflowDatagramPack_eq hlist, Except.ok.injEq] at hdg
  subst hdg
  have hmem' := fun hasLen i hi ↦ (hmem i hi).withHasLen hasLen
  constructor
  · intro h
    obtain ⟨buf, offBuf, size⟩ := r
    have hstep := h (fun _ ↦ .ok) buf offBuf size hflat
    have hsize : SampleInput.totalSize l < 2 ^ 32 := by
      have hle := (hstep.samples l.length (Nat.le_refl _)).1
      rw [List.take_length, List.length_take] at hle
      have hlt := size.toNat_lt
      omega
    rw [SampleInput.mapM_pack_eq hsize, Except.ok.injEq] at hpack
    rw [← hpack] at hflat
    have hmem := hmem' fun _ ↦ .ok
    rw [produced_eq hsize hmem (fun i _ ↦ readableAfterFree_of_ok m i) hflat] at hstep
    obtain rfl := little_of_inStep hstep
    exact ⟨rfl, supported_of_inStep hstat hsize hmem datagramCount upTime hstep, hsize⟩
  · rintro ⟨rfl, hl, hsize⟩ hasLen buf offBuf size hflat'
    rw [SampleInput.mapM_pack_eq hsize, Except.ok.injEq] at hpack
    rw [← hpack] at hflat'
    rw [produced_eq hsize (hmem' hasLen) (fun i hi ↦ readableAfterFree_of_supported (hl i hi))
      hflat']
    exact inStep_of_supported hstat hsize (hmem' hasLen) hl datagramCount upTime g

/-- Two records of one flow, in a sample of their own. -/
theorem inStep_iff_stats :
    let stat : PayloadInput amd64 := .leaf .flowStat (List.replicate 64 7) (by decide) (by decide)
    let l : List (SampleInput amd64 (List UInt8)) := [.counter .phyhost [stat, stat]]
    let m : Memory (List UInt8) := ⟨id, fun _ ↦ .ok⟩
    let dg := SflowDg.around amd64 0 0 (l.map SampleInput.packed)
    (∀ hasLen buf offBuf size,
        sflowDatagramFlat { m with hasLenAfterFree := hasLen } dg = .ok (buf, offBuf, size) →
        InStep .little l (buf.data.take size.toNat) ⟨"", 0, []⟩) ↔
      Endian.little = .little ∧ (∀ i ∈ l, Supported i) ∧ SampleInput.totalSize l < 2 ^ 32 := by
  intro stat l m dg
  have hmem : ∀ i ∈ l, i.InMemory m := by simp [l, SampleInput.InMemory]
  obtain ⟨hdg, r, hflat⟩ := exists_produced (l := l) (by decide) hmem 0 0
  have hpack : l.mapM SampleInput.pack =
      .ok (SflowDataList.ofRecords (l.map SampleInput.packed)).data := by
    rw [SflowDataList.data_ofRecords]
    exact SampleInput.mapM_pack_eq (by decide)
  exact inStep_iff (SflowDataList.wellFormed_ofRecords _) hpack hmem rfl hdg hflat .little
    ⟨"", 0, []⟩

/-- The parent of a host in front of statistics: its two words are taken for those of the record
behind it, and the statistics are lost with half of the datagram. -/
theorem not_consumed_hostParent :
    let parent : PayloadInput amd64 :=
      .leaf .hostParent (List.replicate 16 0) (by decide) (by decide)
    let stat : PayloadInput amd64 := .leaf .flowStat (List.replicate 64 7) (by decide) (by decide)
    let l : List (SampleInput amd64 (List UInt8)) := [.counter .phyhost [parent, stat]]
    let m : Memory (List UInt8) := ⟨id, fun _ ↦ .ok⟩
    let list := SflowDataList.ofRecords (l.map SampleInput.packed)
    l.mapM SampleInput.pack = .ok (l.map SampleInput.packed) ∧
      ∃ dg buf offBuf size, sflowDatagramPack 0 0 list = .ok dg ∧
        sflowDatagramFlat m dg = .ok (buf, offBuf, size) ∧
        ¬ Consumed .little l (buf.data.take size.toNat) ⟨"", 0, []⟩ := by
  intro parent stat l m list
  have hsize : SampleInput.totalSize l < 2 ^ 32 := by decide
  have hmem : ∀ i ∈ l, i.InMemory m := by simp [l, SampleInput.InMemory]
  obtain ⟨hpack, ⟨buf, offBuf, size⟩, hflat⟩ := exists_produced (l := l) (by decide) hmem 0 0
  refine ⟨SampleInput.mapM_pack_eq hsize, _, _, _, _, hpack, hflat, ?_⟩
  rw [produced_eq hsize hmem (fun i _ ↦ readableAfterFree_of_ok m i) hflat]
  have hend : endOf .little ((SflowDg.around amd64 0 0 (l.map SampleInput.packed)).wire m)
      ⟨"", 0, []⟩ = some 64 := by decide +kernel
  have htotal : SampleInput.totalSize l = 128 := by decide
  intro h
  rw [h.endOf_eq, SampleInput.length_wire_around hsize hmem 0 0, htotal] at hend
  exact absurd hend (by decide)

-- Out of step, a datagram can still be read to its end: the sample of an empty packet is taken for
-- a counter sample of seven records, and the sample behind it for the last of them.
example :
    let source : SflowSource := { SflowSource.net0 with ssCount := 2, fspDrops := 7 }
    let l : List (SampleInput amd64 (List UInt8)) :=
      [.flow source rfl rfl [] 0, .counter .phyhost []]
    endOf .little ((SflowDg.around amd64 0 0 (l.map SampleInput.packed)).wire ⟨id, fun _ ↦ .ok⟩)
      ⟨"", 0, []⟩ = some (SampleInput.totalSize l) := by
  decide +kernel

end Sflow.Collector

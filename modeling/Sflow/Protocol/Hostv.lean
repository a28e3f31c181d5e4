import Sflow.C.Field
import Sflow.Protocol.Packed
import Sflow.Util

/-!
# Sampling a zone

`sflow_protocol_leaf_hostv.c`: six records about one zone, made from what the
system answers to a number of queries.  Two of the records are given up with
`NULL` when a query fails.  `get_sample_hostv` does not look: it puts the record
around whatever it was handed, and flattening the datagram calls through it.

`sflow_cr_host_cpu_pack` and `sflow_cr_host_memory_pack` belong to the physical
host and always return a structure; only the four fields read here are kept of
them.
-/

namespace Sflow

open C

/-- The attributes of a zone that are asked for. -/
inductive ZoneAttr where
  | status
  | vcpus
  | physMcap
deriving DecidableEq, Repr

/-- A zone in the list that `sflow_update_zone_stat` keeps. -/
structure ZoneUsage where
  name : List Char
  /-- `ZS_RESOURCE_CPU`. -/
  cpu : UInt32
  /-- `ZS_RESOURCE_RAM_RSS`. -/
  ramRss : UInt64
deriving DecidableEq, Repr

/-- The counters of one datalink of a zone. -/
structure LinkStat where
  rbytes : UInt64
  obytes : UInt64
  ierrors : UInt32
  oerrors : UInt32
  ipackets : UInt32
  opackets : UInt32
deriving DecidableEq, Repr

/-- What the system answers while one sample is taken. -/
structure ZoneSystem where
  /-- `zone_getattr` of a zone; `none` where it returns -1.  The number of virtual
  cpus comes as a text that is only logged. -/
  zoneGetattr : Int → ZoneAttr → Option UInt64
  /-- The zone list as it is cached. -/
  zoneList : List ZoneUsage
  /-- What the buffer for the cpu usage holds when no usage is found. -/
  cpuBuf : UInt32
  upTime : UInt32
  /-- `get_host_phys_mem_bytes`. -/
  physMem : UInt64
  /-- `hc_cpu_num` and `hc_cpu_speed`. -/
  cpuNum : UInt32
  cpuSpeed : UInt32
  /-- `hm_free`, in host order. -/
  memFree : UInt64
  /-- The number that `zone_list` counts. -/
  numZones : UInt32
  /-- The links of a zone, as they are walked. -/
  links : Int → List LinkStat
  /-- `SI_HW_SERIAL` and `SI_RELEASE`, in buffers filled up with zeros. -/
  serial : Vector UInt8 16
  release : Vector UInt8 28
  /-- `get_host_phys_machine_type`. -/
  machineType : UInt32

variable {p : Platform}

/-- `htonH`. -/
def htonH (e : Endian) (x : UInt64) : UInt64 := UInt64.ofNat (toNet e 8 x.toNat)

/-- The bytes of a text without its end. -/
def charBytes (s : List Char) : List UInt8 := s.map fun c => UInt8.ofNat c.toNat

/-- A zone matches if its whole name is at the front of the name asked for. -/
def sflowGetZoneStat (sys : ZoneSystem) (zname : List Char) : Option ZoneUsage :=
  sys.zoneList.find? fun z => z.name.isPrefixOf zname

/-- The address of a `flat` function, as it lies in a structure. -/
abbrev FlatAddr (p : Platform) := Vector UInt8 p.psize

/-- The memory of a structure of kind `k`. -/
def LeafImage (p : Platform) (k : CrKind) : Type :=
  { image : List UInt8 // image.length = k.sizeof p }

namespace LeafImage

variable {k : CrKind}

/-- A structure whose fields have been set to `vals`. -/
def ofFields (d : StructDecl) (hd : d.sizeof p.toAbi = k.sizeof p) (vals : List (List UInt8))
    (h : vals.map List.length = d.fields.map (·.2.size p.toAbi)) : LeafImage p k :=
  ⟨d.image p.toAbi vals, (d.length_image p.toAbi (StructDecl.fits_of_lengths p.toAbi h)).trans hd⟩

/-- A field has been set to its value. -/
theorem field_of_image {image : LeafImage p k} {d : StructDecl} {vals : List (List UInt8)}
    (himage : image.1 = d.image p.toAbi vals)
    (hlen : vals.map List.length = d.fields.map (·.2.size p.toAbi))
    (hnames : (d.fields.map Prod.fst).Nodup) {i : Nat} {name : String} {t : CType}
    {v : List UInt8} (hf : d.fields[i]? = some (name, t)) (hv : vals[i]? = some v) :
    d.field p.toAbi image.1 name = v := by
  rw [himage]
  exact StructDecl.field_image p.toAbi (StructDecl.fits_of_lengths p.toAbi hlen) hnames hf hv

/-- Write `src` into the structure, from its byte `off` on. -/
def write (image : LeafImage p k) (off : Nat) (src : List UInt8) : Except Fault (LeafImage p k) :=
  if h : off + src.length ≤ image.1.length then
    .ok ⟨splice image.1 off src, (length_splice h).trans image.2⟩
  else .error .outOfBounds

def toInput (image : LeafImage p k) (hk : k ≠ .hostAdapters) : PayloadInput p :=
  .leaf k image.1 hk image.2

end LeafImage

/-! ## The records -/

section Records

variable (p) (sys : ZoneSystem) (addr : CrKind → FlatAddr p) (source : SflowSource)

/-- The description of the host, with the name of the zone copied over the host
name and its number written behind as much of the serial number as the name is long. -/
def sflowCrHostDescrPackV : Except Fault (LeafImage p .hostDescr) := do
  let h : LeafImage p .hostDescr := .ofFields sflowCrHostDescrT rfl
    [wordBytes p.endian (htonl p.endian 60), List.replicate 60 0, sys.serial.toList,
      wordBytes p.endian (htonl p.endian sys.machineType),
      wordBytes p.endian (htonl p.endian 12), wordBytes p.endian (htonl p.endian 28),
      sys.release.toList, (addr .hostDescr).toList]
    (by simp [sflowCrHostDescrT, CType.size])
  let h ← h.write 4 (charBytes source.ssName)
  let h ← h.write (64 + source.ssName.length) (charBytes (itoa source.zoneId) ++ [0])
  h.write 120 (addr .hostDescr).toList

/-- The parent is the global zone. -/
def sflowCrHostParentPackV : LeafImage p .hostParent :=
  .ofFields sflowCrHostParentT rfl
    [wordBytes p.endian (htonl p.endian 2), wordBytes p.endian (htonl p.endian 0),
      (addr .hostParent).toList]
    (by simp [sflowCrHostParentT, CType.size])

def sflowCrVirtNodePack : LeafImage p .virtLeaf :=
  .ofFields sflowCrVirtLeafT rfl
    [wordBytes p.endian (htonl p.endian (sys.cpuSpeed / 1000000)),
      wordBytes p.endian (htonl p.endian sys.cpuNum),
      hyperBytes p.endian (htonH p.endian sys.physMem),
      hyperBytes p.endian (htonH p.endian sys.memFree),
      wordBytes p.endian (htonl p.endian (sys.numZones - 1)), (addr .virtLeaf).toList]
    (by simp [sflowCrVirtLeafT, CType.size])

/-- The number of virtual cpus is asked for and not filled in. -/
def sflowCrVirtCpuPack : Option (LeafImage p .virtCpu) := do
  let vcState ← sys.zoneGetattr source.zoneId .status
  let _ ← sys.zoneGetattr source.zoneId .vcpus
  let bufInt := ((sflowGetZoneStat sys source.ssName).map (·.cpu)).getD sys.cpuBuf
  return .ofFields sflowCrVirtCpuT rfl
    [wordBytes p.endian (ntohl p.endian vcState.toUInt32),
      wordBytes p.endian (ntohl p.endian (sys.upTime * bufInt / 10000)),
      wordBytes p.endian (ntohl p.endian 0), (addr .virtCpu).toList]
    (by simp [sflowCrVirtCpuT, CType.size])

def sflowCrVirtMemoryPack : Option (LeafImage p .virtMemory) := do
  let cap ← sys.zoneGetattr source.zoneId .physMcap
  let vmMaxMemory := if cap = 0 then sys.physMem else cap
  let vmMemory := ((sflowGetZoneStat sys source.ssName).map (·.ramRss)).getD 0
  return .ofFields sflowCrVirtMemoryT rfl
    [hyperBytes p.endian (htonH p.endian vmMemory),
      hyperBytes p.endian (htonH p.endian vmMaxMemory), (addr .virtMemory).toList]
    (by simp [sflowCrVirtMemoryT, CType.size])

/-- The counters of all links of the zone added up. -/
def gatherZoneLinkTotal (links : List LinkStat) : LinkStat :=
  links.foldl (fun n di =>
    { rbytes := n.rbytes + di.rbytes
      obytes := n.obytes + di.obytes
      ierrors := n.ierrors + di.ierrors
      oerrors := n.oerrors + di.oerrors
      ipackets := n.ipackets + di.ipackets
      opackets := n.opackets + di.opackets }) ⟨0, 0, 0, 0, 0, 0⟩

def sflowCrVirtNetIoPack : LeafImage p .virtNetIo :=
  let n := gatherZoneLinkTotal (sys.links source.zoneId)
  .ofFields sflowCrVirtNetIoT rfl
    [hyperBytes p.endian (htonH p.endian n.rbytes), wordBytes p.endian (htonl p.endian n.ipackets),
      wordBytes p.endian (htonl p.endian n.ierrors), wordBytes p.endian 0,
      hyperBytes p.endian (htonH p.endian n.obytes), wordBytes p.endian (htonl p.endian n.opackets),
      wordBytes p.endian (htonl p.endian n.oerrors), wordBytes p.endian 0,
      (addr .virtNetIo).toList]
    (by simp [sflowCrVirtNetIoT, CType.size])

/-- Every payload goes into a record, whether there is one or not.  A fault is a description that
is written beyond its record: what the code then goes on with is undefined. -/
def getSampleHostv {R : Type} : Except Fault (SflowSp p R × SflowSource) := do
  let vd ← sflowCrHostDescrPackV p sys addr source
  let pt := sflowCrHostParentPackV p addr
  let vn := sflowCrVirtNodePack p sys addr
  let vc := sflowCrVirtCpuPack p sys addr source
  let vm := sflowCrVirtMemoryPack p sys addr source
  let vt := sflowCrVirtNetIoPack p sys addr source
  counterSample source
    [(some (vd.toInput (by decide)).toPayload, .hostDescr),
      (some (pt.toInput (by decide)).toPayload, .hostParent),
      (some (vn.toInput (by decide)).toPayload, .virtLeaf),
      (vc.map fun vc => (vc.toInput (by decide)).toPayload, .virtCpu),
      (vm.map fun vm => (vm.toInput (by decide)).toPayload, .virtMemory),
      (some (vt.toInput (by decide)).toPayload, .virtNetIo)]

end Records

/-! ## Records without payload -/

/-- Where the length of a record does not depend on its payload, the record is made
around whatever there is. -/
theorem sflowCounterRecordPack_fixed {k : CrKind} (hk : k ≠ .hostAdapters)
    (data : Option (CrPayload p)) :
    sflowCounterRecordPack data k.ent k.fmt =
      .ok ⟨htonl p.endian (sflowSetDataformat 0 k.ent k.fmt),
        htonl p.endian (UInt32.ofNat (k.sizeof p - p.psize)), data⟩ := by
  have hlen : counterRecordLen data k.ent k.fmt = .ok (UInt32.ofNat (k.sizeof p - p.psize)) := by
    cases k <;> first | rfl | exact absurd rfl hk
  rw [sflowCounterRecordPack, hlen]
  rfl

theorem sumSlots_ok {α : Type} (f : α → UInt32) (xs : List α) (acc : UInt32) :
    ∃ n, sumSlots f xs.length xs acc = .ok n := by
  induction xs generalizing acc with
  | nil => exact ⟨acc, rfl⟩
  | cons x xs ih => exact ih (acc + f x)

/-- The record around a payload of fixed length, or around none. -/
def recordAround (x : Option (CrPayload p) × CrKind) : SflowCr p :=
  ⟨htonl p.endian (sflowSetDataformat 0 x.2.ent x.2.fmt),
    htonl p.endian (UInt32.ofNat (x.2.sizeof p - p.psize)), x.1⟩

theorem counterSample_fixed_eq {R : Type} (source : SflowSource)
    {payloads : List (Option (CrPayload p) × CrKind)}
    (hk : ∀ x ∈ payloads, x.2 ≠ .hostAdapters) (hlen : payloads.length < 2 ^ 32) :
    ∃ len, counterSample (R := R) source payloads =
      .ok (⟨htonl p.endian (sflowSetDataformat 0 0 2), len,
        .counter (.around source (payloads.map recordAround))⟩,
          { source with ssCount := source.ssCount + 1 }) := by
  obtain ⟨n, hn⟩ := sumSlots_ok (fun cr : SflowCr p => ntohl p.endian cr.scrLen + UInt32.ofNat 8)
    (payloads.map recordAround) (UInt32.ofNat 12)
  rw [List.length_map] at hn
  have hsample := counterSample_of_records (R := R) source
    (fun x hx ↦ sflowCounterRecordPack_fixed (hk x hx) x.1) hlen hn
  rw [List.map_id'] at hsample
  exact ⟨_, hsample⟩

/-- A record without payload is not flattened. -/
theorem sflowCounterRecordFlat_none {R : Type} {m : Memory R} {k : CrKind} {buf : Buf}
    {start : Nat} {r : Buf × Nat} :
    sflowCounterRecordFlat m (recordAround (p := p) (none, k)) buf start ≠ .ok r := by
  intro h
  obtain ⟨buf', -, h⟩ := bind_eq_ok.mp h
  simp only [recordAround, ntohl_htonl, sflowGetDataEnt_set k.ent_lt k.fmt_lt,
    sflowGetDataFmt_set k.ent_lt k.fmt_lt, CrPayload.counterPayloadFlat_kind] at h
  obtain ⟨_, hcall, -⟩ := bind_eq_ok.mp h
  cases hcall

/-- Flattening a record without payload calls through `NULL`. -/
theorem stops_recordAround_none {R : Type} (m : Memory R) (k : CrKind) :
    Stops (sflowCounterRecordFlat m (recordAround (p := p) (none, k))) .nullDeref := by
  let r : SflowCr p := recordAround (none, k)
  refine ((stops_error .nullDeref).shifted 8).copied
    (wordBytes p.endian r.scrDfmt ++ wordBytes p.endian r.scrLen) |>.congr fun buf start ↦ ?_
  simp only [sflowCounterRecordFlat, recordAround, r, ntohl_htonl,
    sflowGetDataEnt_set k.ent_lt k.fmt_lt, sflowGetDataFmt_set k.ent_lt k.fmt_lt,
    CrPayload.counterPayloadFlat_kind, callFlat]

theorem PayloadInput.recordAround_eq {i : PayloadInput p} (h : i.kind ≠ .hostAdapters) :
    recordAround (some i.toPayload, i.kind) = i.record := by
  cases i with
  | leaf => rfl
  | adapters => exact absurd rfl h

/-! ## What is put into a sample -/

/-- The description of a zone has room for its name and number from the start of the
serial number on. -/
def DescrFits (p : Platform) (source : SflowSource) : Prop :=
  source.ssName.length + (itoa source.zoneId).length + 1 ≤ 56 + p.psize

theorem LeafImage.write_eq_ok {k : CrKind} (image : LeafImage p k) {off : Nat}
    {src : List UInt8} :
    (∃ image', image.write off src = .ok image') ↔ off + src.length ≤ k.sizeof p := by
  rw [← image.2]
  unfold LeafImage.write
  split
  · rename_i h
    exact ⟨fun _ ↦ h, fun _ ↦ ⟨_, rfl⟩⟩
  · rename_i h
    refine ⟨?_, fun h' ↦ absurd h' h⟩
    rintro ⟨image', himage⟩
    cases himage

theorem sizeof_hostDescr : CrKind.hostDescr.sizeof p = 120 + p.psize := by
  change sflowCrHostDescrT.sizeof p.toAbi = _
  rw [StructDecl.sizeof_of_packed _ rfl]
  simp [sflowCrHostDescrT, CType.size]
  omega

theorem sflowCrHostDescrPackV_eq_ok {sys : ZoneSystem} {addr : CrKind → FlatAddr p}
    {source : SflowSource} :
    (∃ vd, sflowCrHostDescrPackV p sys addr source = .ok vd) ↔ DescrFits p source := by
  have hname : (charBytes source.ssName).length = source.ssName.length := by simp [charBytes]
  have hid : (charBytes (itoa source.zoneId) ++ [0]).length =
      (itoa source.zoneId).length + 1 := by simp [charBytes]
  have haddr : (addr .hostDescr).toList.length = p.psize := by simp
  have hsize := sizeof_hostDescr (p := p)
  constructor
  · rintro ⟨vd, h⟩
    obtain ⟨h₁, -, h⟩ := bind_eq_ok.mp h
    obtain ⟨h₂, hwrite, -⟩ := bind_eq_ok.mp h
    have hfits := (LeafImage.write_eq_ok _).mp ⟨h₂, hwrite⟩
    rw [hid, hsize] at hfits
    unfold DescrFits
    omega
  · intro h
    unfold DescrFits at h
    obtain ⟨h₁, hwrite₁⟩ := (LeafImage.write_eq_ok _).mpr
      (show 4 + (charBytes source.ssName).length ≤ CrKind.hostDescr.sizeof p by omega)
    obtain ⟨h₂, hwrite₂⟩ := (LeafImage.write_eq_ok h₁).mpr
      (show 64 + source.ssName.length + (charBytes (itoa source.zoneId) ++ [0]).length ≤
        CrKind.hostDescr.sizeof p by omega)
    obtain ⟨h₃, hwrite₃⟩ := (LeafImage.write_eq_ok h₂).mpr
      (show 120 + (addr .hostDescr).toList.length ≤ CrKind.hostDescr.sizeof p by omega)
    exact ⟨h₃, bind_eq_ok.mpr ⟨h₁, hwrite₁, bind_eq_ok.mpr ⟨h₂, hwrite₂, hwrite₃⟩⟩⟩

/-- The three attributes that are asked for are answered. -/
structure Answers (sys : ZoneSystem) (source : SflowSource) : Prop where
  status : (sys.zoneGetattr source.zoneId .status).isSome
  vcpus : (sys.zoneGetattr source.zoneId .vcpus).isSome
  physMcap : (sys.zoneGetattr source.zoneId .physMcap).isSome

theorem Answers.forall {sys : ZoneSystem} {source : SflowSource} (h : Answers sys source)
    (attr : ZoneAttr) : (sys.zoneGetattr source.zoneId attr).isSome := by
  cases attr with
  | status => exact h.status
  | vcpus => exact h.vcpus
  | physMcap => exact h.physMcap

section Payloads

variable {sys : ZoneSystem} {addr : CrKind → FlatAddr p} {source : SflowSource}

theorem sflowCrVirtCpuPack_isSome :
    (sflowCrVirtCpuPack p sys addr source).isSome ↔
      (sys.zoneGetattr source.zoneId .status).isSome ∧
        (sys.zoneGetattr source.zoneId .vcpus).isSome := by
  unfold sflowCrVirtCpuPack
  cases sys.zoneGetattr source.zoneId .status with
  | none => simp
  | some state => cases sys.zoneGetattr source.zoneId .vcpus <;> simp

theorem sflowCrVirtMemoryPack_isSome :
    (sflowCrVirtMemoryPack p sys addr source).isSome ↔
      (sys.zoneGetattr source.zoneId .physMcap).isSome := by
  unfold sflowCrVirtMemoryPack
  cases sys.zoneGetattr source.zoneId .physMcap <;> simp

theorem answers_iff (addr : CrKind → FlatAddr p) :
    Answers sys source ↔ (sflowCrVirtCpuPack p sys addr source).isSome ∧
      (sflowCrVirtMemoryPack p sys addr source).isSome := by
  rw [sflowCrVirtCpuPack_isSome, sflowCrVirtMemoryPack_isSome]
  exact ⟨fun h ↦ ⟨⟨h.status, h.vcpus⟩, h.physMcap⟩, fun h ↦ ⟨h.1.1, h.1.2, h.2⟩⟩

end Payloads

/-- Every record of a sample has a payload, and flattening goes through all of them. -/
structure SflowSp.Flattenable {R : Type} (sp : SflowSp p R) : Prop where
  payloads : ∀ cs, sp.data = .counter cs → ∀ cr ∈ cs.records, cr.scrData ≠ none
  flat : ∀ m : Memory R, ∃ bytes, Emits (sflowSampleFlat m sp) bytes

/-- Some record of a sample has no payload. -/
def SflowSp.LacksPayload {R : Type} (sp : SflowSp p R) : Prop :=
  ∃ cs, sp.data = .counter cs ∧ ∃ cr ∈ cs.records, cr.scrData = none

theorem SflowSp.LacksPayload.not_flattenable {R : Type} {sp : SflowSp p R} (h : sp.LacksPayload) :
    ¬ sp.Flattenable := by
  obtain ⟨cs, hdata, cr, hcr, hnone⟩ := h
  exact fun hflat ↦ hflat.payloads cs hdata cr hcr hnone

/-- The kinds of the records of a zone. -/
def zoneKinds : List CrKind :=
  [.hostDescr, .hostParent, .virtLeaf, .virtCpu, .virtMemory, .virtNetIo]

/-- The structures that describe a zone are small. -/
theorem sizeof_le_of_mem {k : CrKind} (hk : k ∈ zoneKinds) : k.sizeof p ≤ 208 := by
  have hp := p.psize_eq
  simp only [zoneKinds, List.mem_cons, List.not_mem_nil, or_false] at hk
  rcases hk with rfl | rfl | rfl | rfl | rfl | rfl <;>
    refine Nat.le_trans (StructDecl.sizeof_le p.toAbi _) ?_ <;>
    simp [sflowCrHostDescrT, sflowCrHostParentT, sflowCrVirtLeafT, sflowCrVirtCpuT,
      sflowCrVirtMemoryT, sflowCrVirtNetIoT, CType.size] <;>
    omega

/-- The payloads of a zone are of these kinds, and there are no more of them than kinds. -/
structure AreZonePayloads (payloads : List (PayloadInput p)) : Prop where
  kind : ∀ i ∈ payloads, i.kind ∈ zoneKinds
  length : payloads.length ≤ 6

namespace AreZonePayloads

variable {payloads : List (PayloadInput p)}

theorem kind_ne (h : AreZonePayloads payloads) : ∀ i ∈ payloads, i.kind ≠ .hostAdapters := by
  intro i hi hkind
  have hmem := h.kind i hi
  rw [hkind] at hmem
  revert hmem
  decide

theorem size_lt {R : Type} (h : AreZonePayloads payloads) (source : SflowSource) :
    (SampleInput.counter source payloads : SampleInput p R).size < 2 ^ 31 := by
  have hle : ∀ n ∈ payloads.map (fun i => 8 + i.size), n ≤ 216 := by
    intro n hn
    obtain ⟨i, hi, rfl⟩ := List.mem_map.mp hn
    have hsize := sizeof_le_of_mem (p := p) (h.kind i hi)
    cases i with
    | leaf k image hk hlen =>
        have hsizeof : k.sizeof p ≤ 208 := hsize
        rw [PayloadInput.size]
        omega
    | adapters addr links => exact absurd rfl (h.kind_ne _ hi)
  have hlength := h.length
  have hsum := List.sum_le_card_nsmul _ _ hle
  rw [List.length_map] at hsum
  change _ ≤ payloads.length * 216 at hsum
  rw [SampleInput.size]
  omega

end AreZonePayloads

/-- Flattening a sample gets to the first record without payload, and no further. -/
theorem SflowSp.stops_of_none {R : Type} (m : Memory R) (source : SflowSource) (len : UInt32)
    {payloads : List (PayloadInput p)} (h : AreZonePayloads payloads) (k : CrKind)
    {rest : List (Option (CrPayload p) × CrKind)} (hrest : rest.length ≤ 6) :
    Stops (sflowSampleFlat m ⟨htonl p.endian (sflowSetDataformat 0 0 2), len,
      .counter (.around source ((payloads.map (fun i => (some i.toPayload, i.kind)) ++
        (none, k) :: rest).map recordAround))⟩) .nullDeref := by
  have hkind := h.kind_ne
  have hsize := h.size_lt (R := R) source
  have hlength := h.length
  let records := payloads.map (·.record)
  have hrecords : (payloads.map (fun i => (some i.toPayload, i.kind)) ++
      (none, k) :: rest).map recordAround =
      records ++ recordAround (none, k) :: rest.map recordAround := by
    rw [List.map_append, List.map_map, List.map_cons]
    congr 1
    exact List.map_congr_left fun i hi ↦ PayloadInput.recordAround_eq (hkind i hi)
  have hpayload : ∀ i ∈ payloads, i.size < 2 ^ 32 := fun i hi ↦
    SampleInput.payload_size_lt (Nat.lt_trans hsize (by decide)) hi
  have hemits : ∀ cr ∈ records, Emits (sflowCounterRecordFlat m cr) cr.wire := by
    intro cr hcr
    obtain ⟨i, hi, rfl⟩ := List.mem_map.mp hcr
    exact SflowCr.emits (PayloadInput.flattens_record (hpayload i hi)
      (PayloadInput.readableAfterFree_of_kind (hkind i hi)))
  have hlens : 12 + (records.flatMap SflowCr.wire).length < 2 ^ 31 := by
    rw [List.flatMap_map, List.length_flatMap,
      List.map_congr_left fun i hi ↦ PayloadInput.length_wire_record (hpayload i hi)]
    exact hsize
  have hslots := Stops.slots hemits (stops_recordAround_none m k) (rest.map recordAround) hlens
  let cs : SflowCs p := .around source (records ++ recordAround (none, k) :: rest.map recordAround)
  have hcount : (ntohl p.endian cs.scsCount).toNat =
      (records ++ recordAround (none, k) :: rest.map recordAround).length := by
    simp only [cs, SflowCs.around, ntohl_htonl, records]
    apply toNat_ofNat_of_lt
    simp only [List.length_append, List.length_cons, List.length_map]
    omega
  have hcs : Stops (sflowCounterSampleFlat m cs) .nullDeref := by
    refine (hslots.copied (wordBytes p.endian cs.scsSeqNo ++ wordBytes p.endian cs.scsDsrc ++
      wordBytes p.endian cs.scsCount)).congr fun buf start ↦ ?_
    rw [sflowCounterSampleFlat, hcount]
    rfl
  have hne : ¬ (2 : UInt32) = 1 := by decide
  rw [hrecords]
  refine ((hcs.shifted 8).copied (wordBytes p.endian (htonl p.endian (sflowSetDataformat 0 0 2)) ++
    wordBytes p.endian len)).congr fun buf start ↦ ?_
  simp only [sflowSampleFlat, ntohl_htonl, sflowGetDataEnt_two, sflowGetDataFmt_two, hne, and_false,
    if_false, and_self, if_true, cs]

section Sample

variable {R : Type} {sys : ZoneSystem} {addr : CrKind → FlatAddr p} {source : SflowSource}

theorem LeafImage.kind_toInput {k : CrKind} (image : LeafImage p k) (hk : k ≠ .hostAdapters) :
    (image.toInput hk).kind = k := rfl

/-- A sample is made inside its memory only with a description that fits. -/
theorem descrFits_of_getSampleHostv {r : SflowSp p R × SflowSource}
    (h : getSampleHostv p sys addr source = .ok r) : DescrFits p source := by
  obtain ⟨vd, hvd, -⟩ := bind_eq_ok.mp h
  exact sflowCrHostDescrPackV_eq_ok.mp ⟨vd, hvd⟩

/-- With every query answered, a sample is one that the packers make of six payloads. -/
theorem getSampleHostv_of_answers (h : Answers sys source) {r : SflowSp p R × SflowSource}
    (hr : getSampleHostv p sys addr source = .ok r) :
    ∃ payloads : List (PayloadInput p), r.1 = (SampleInput.counter source payloads).packed ∧
      AreZonePayloads payloads := by
  obtain ⟨hcpu, hmem⟩ := (answers_iff addr).mp h
  obtain ⟨vc, hvc⟩ := Option.isSome_iff_exists.mp hcpu
  obtain ⟨vm, hvm⟩ := Option.isSome_iff_exists.mp hmem
  obtain ⟨vd, hvd, hr⟩ := bind_eq_ok.mp hr
  let payloads : List (PayloadInput p) :=
    [vd.toInput (by decide), (sflowCrHostParentPackV p addr).toInput (by decide),
      (sflowCrVirtNodePack p sys addr).toInput (by decide), vc.toInput (by decide),
      vm.toInput (by decide), (sflowCrVirtNetIoPack p sys addr source).toInput (by decide)]
  have hsample : counterSample (R := R) source
      (payloads.map fun i => (some i.toPayload, i.kind)) = .ok r := by
    rw [hvc, hvm] at hr
    exact hr
  rw [SampleInput.counterSample_eq source (show payloads.length < 2 ^ 32 by simp [payloads]),
    Except.ok.injEq] at hsample
  refine ⟨payloads, by rw [← hsample], ?_, Nat.le_refl 6⟩
  simp [payloads, LeafImage.kind_toInput, zoneKinds]

/-- A sample of these payloads is flattened. -/
theorem AreZonePayloads.flattenable {payloads : List (PayloadInput p)}
    (h : AreZonePayloads payloads) :
    (SampleInput.counter source payloads : SampleInput p R).packed.Flattenable where
  payloads cs hcs cr hcr := by
    cases hcs
    obtain ⟨i, -, rfl⟩ := List.mem_map.mp hcr
    exact Option.some_ne_none _
  flat m :=
    have hflattens : (SampleInput.counter source payloads : SampleInput p R).packed.Flattens m :=
      SampleInput.flattens_packed (Nat.lt_trans (h.size_lt source) (by decide))
        (SampleInput.offsetsFit_of_size_lt (h.size_lt source)) trivial
        fun i hi ↦ PayloadInput.readableAfterFree_of_kind (h.kind_ne i hi)
    ⟨_, SflowSp.emits hflattens⟩

/-- What the records of a sample are put around. -/
def recordContents (p : Platform) (sys : ZoneSystem) (addr : CrKind → FlatAddr p)
    (source : SflowSource) (vd : LeafImage p .hostDescr) :
    List (Option (CrPayload p) × CrKind) :=
  [(some (vd.toInput (by decide)).toPayload, .hostDescr),
    (some ((sflowCrHostParentPackV p addr).toInput (by decide)).toPayload, .hostParent),
    (some ((sflowCrVirtNodePack p sys addr).toInput (by decide)).toPayload, .virtLeaf),
    ((sflowCrVirtCpuPack p sys addr source).map fun vc =>
      (vc.toInput (by decide)).toPayload, .virtCpu),
    ((sflowCrVirtMemoryPack p sys addr source).map fun vm =>
      (vm.toInput (by decide)).toPayload, .virtMemory),
    (some ((sflowCrVirtNetIoPack p sys addr source).toInput (by decide)).toPayload, .virtNetIo)]

/-- A sample is made of records around all there is and is not. -/
theorem getSampleHostv_eq {vd : LeafImage p .hostDescr}
    (hvd : sflowCrHostDescrPackV p sys addr source = .ok vd) :
    ∃ len, getSampleHostv (R := R) p sys addr source =
      .ok (⟨htonl p.endian (sflowSetDataformat 0 0 2), len,
        .counter (.around source ((recordContents p sys addr source vd).map recordAround))⟩,
          { source with ssCount := source.ssCount + 1 }) := by
  have hkinds : ∀ x ∈ recordContents p sys addr source vd, x.2 ≠ .hostAdapters := by
    intro x hx
    simp only [recordContents, List.mem_cons, List.not_mem_nil, or_false] at hx
    rcases hx with rfl | rfl | rfl | rfl | rfl | rfl <;> simp
  obtain ⟨len, hsample⟩ :=
    counterSample_fixed_eq (R := R) source hkinds (by simp [recordContents])
  exact ⟨len, bind_eq_ok.mpr ⟨vd, hvd, hsample⟩⟩

/-- Without an answer there is a record without payload, the first of them behind three or four that
have theirs. -/
theorem exists_recordContents_eq (addr : CrKind → FlatAddr p) (h : ¬ Answers sys source)
    (vd : LeafImage p .hostDescr) :
    ∃ (payloads : List (PayloadInput p)) (k : CrKind) (rest : List (Option (CrPayload p) × CrKind)),
      recordContents p sys addr source vd =
        payloads.map (fun i => (some i.toPayload, i.kind)) ++ (none, k) :: rest ∧
      AreZonePayloads payloads ∧ rest.length ≤ 6 := by
  rw [answers_iff addr, not_and_or, Option.not_isSome_iff_eq_none,
    Option.not_isSome_iff_eq_none] at h
  let front : List (PayloadInput p) :=
    [vd.toInput (by decide), (sflowCrHostParentPackV p addr).toInput (by decide),
      (sflowCrVirtNodePack p sys addr).toInput (by decide)]
  cases hvc : sflowCrVirtCpuPack p sys addr source with
  | none =>
      refine ⟨front, .virtCpu, (recordContents p sys addr source vd).drop 4, ?_,
        ⟨?_, Nat.le_add_right 3 3⟩, by simp [recordContents]⟩
      · rw [recordContents, hvc]
        rfl
      · simp [front, LeafImage.kind_toInput, zoneKinds]
  | some vc =>
      have hvm := h.resolve_left fun hvc' ↦ by simp [hvc] at hvc'
      refine ⟨front ++ [vc.toInput (by decide)], .virtMemory,
        (recordContents p sys addr source vd).drop 5, ?_, ⟨?_, Nat.le_add_right 4 2⟩,
        by simp [recordContents]⟩
      · rw [recordContents, hvc, hvm]
        rfl
      · simp [front, LeafImage.kind_toInput, zoneKinds]

/-- Without an answer a sample is made all the same, and flattening it calls through `NULL`. -/
theorem exists_null_of_not_answers (addr : CrKind → FlatAddr p) (hfits : DescrFits p source)
    (h : ¬ Answers sys source) :
    ∃ (sp : SflowSp p R) (source' : SflowSource),
      getSampleHostv p sys addr source = .ok (sp, source') ∧ sp.LacksPayload ∧
        ∀ m, Stops (sflowSampleFlat m sp) .nullDeref := by
  obtain ⟨vd, hvd⟩ := sflowCrHostDescrPackV_eq_ok.mpr hfits
  obtain ⟨len, hsample⟩ := getSampleHostv_eq (R := R) hvd
  obtain ⟨payloads, k, rest, hcontents, hpayloads, hrest⟩ := exists_recordContents_eq addr h vd
  rw [hcontents] at hsample
  refine ⟨_, _, hsample, ⟨_, rfl, recordAround (none, k), ?_, rfl⟩,
    fun m ↦ SflowSp.stops_of_none m source len hpayloads k hrest⟩
  exact List.mem_map_of_mem (List.mem_append_right _ List.mem_cons_self)

end Sample

/-- Whatever the system answers: a sample of a zone is made inside its memory and can be flattened
later exactly if the description has room for the name and the number of the zone, and the three
queries for its attributes succeed. -/
theorem getSampleHostv_flattenable_iff {R : Type} (p : Platform) (sys : ZoneSystem)
    (addr : CrKind → FlatAddr p) (source : SflowSource) :
    (∃ (sp : SflowSp p R) (source' : SflowSource),
      getSampleHostv p sys addr source = .ok (sp, source') ∧ sp.Flattenable) ↔
      DescrFits p source ∧ Answers sys source := by
  constructor
  · rintro ⟨sp, source', hsample, hflat⟩
    have hfits := descrFits_of_getSampleHostv hsample
    refine ⟨hfits, ?_⟩
    by_contra hanswers
    obtain ⟨sp', source'', hsample', hlacks, -⟩ :=
      exists_null_of_not_answers (R := R) addr hfits hanswers
    rw [hsample, Except.ok.injEq, Prod.mk.injEq] at hsample'
    rw [← hsample'.1] at hlacks
    exact hlacks.not_flattenable hflat
  · rintro ⟨hfits, hanswers⟩
    obtain ⟨vd, hvd⟩ := sflowCrHostDescrPackV_eq_ok.mpr hfits
    obtain ⟨len, hsample⟩ := getSampleHostv_eq (R := R) hvd
    obtain ⟨payloads, hpacked, hpayloads⟩ := getSampleHostv_of_answers hanswers hsample
    refine ⟨_, _, hsample, ?_⟩
    dsimp only at hpacked
    rw [hpacked]
    exact hpayloads.flattenable

/-- A zone that has been halted: no attribute is answered. -/
def ZoneSystem.halted : ZoneSystem where
  zoneGetattr _ _ := none
  zoneList := []
  cpuBuf := 0
  upTime := 1000
  physMem := 4096
  cpuNum := 2
  cpuSpeed := 2000000000
  memFree := 1024
  numZones := 1
  links _ := []
  serial := Vector.replicate 16 0
  release := Vector.replicate 28 0
  machineType := 2

/-- The sample of a halted zone is made, and the datagram with it is not flattened. -/
theorem getSampleHostv_halted :
    let addr : CrKind → FlatAddr .amd64 := fun _ ↦ Vector.replicate 8 1
    let m : Memory (List UInt8) := ⟨id, fun _ ↦ .ok⟩
    ∃ sp source', getSampleHostv .amd64 .halted addr .web = .ok (sp, source') ∧
      sflowDatagramFlat m (.around .amd64 0 0 [sp]) = .error .nullDeref ∧ ¬ sp.Flattenable := by
  intro addr m
  have hfits : DescrFits .amd64 .web := by
    unfold DescrFits
    decide
  have hnot : ¬ Answers .halted .web := fun h ↦ absurd h.status (by decide)
  obtain ⟨sp, source', hsample, hlacks, -⟩ :=
    exists_null_of_not_answers (R := List UInt8) addr hfits hnot
  have hfault : (do
      let r ← getSampleHostv .amd64 .halted addr .web
      sflowDatagramFlat m (.around .amd64 0 0 [r.1])) = .error .nullDeref := by decide +kernel
  rw [hsample, ok_bind] at hfault
  exact ⟨sp, source', hsample, hfault, hlacks.not_flattenable⟩

end Sflow

import Mathlib.Algebra.Order.BigOperators.Group.List
import Mathlib.Algebra.Order.Ring.Nat
import Sflow.Protocol.Adapters

/-!
# What packing builds

A sample is made either from a packet and its source or from a source and the
payloads that were measured for it: a `SampleInput`.  This file computes the
structure that the packers build from each, with its lengths as natural numbers.
-/

namespace Sflow

open C

variable {R : Type} {p : Platform}

/-! ## Loops over the pointer slots -/

/-- Adding up words is adding up natural numbers. -/
theorem sumSlots_eq {α β : Type} {f : β → UInt32} {r : α → β} {g : α → Nat} (xs : List α)
    (h : ∀ x ∈ xs, f (r x) = UInt32.ofNat (g x)) (acc : Nat) :
    sumSlots f xs.length (xs.map r) (UInt32.ofNat acc) =
      .ok (UInt32.ofNat (acc + (xs.map g).sum)) := by
  induction xs generalizing acc with
  | nil => rfl
  | cons x xs ih =>
      rw [List.length_cons, List.map_cons, sumSlots, h x List.mem_cons_self, ← UInt32.ofNat_add,
        ih (fun y hy ↦ h y (List.mem_cons_of_mem _ hy)), List.map_cons, List.sum_cons,
        Nat.add_assoc]

theorem mapM_eq_ok {α β : Type} {f : α → Except Fault β} {g : α → β} {xs : List α}
    (h : ∀ x ∈ xs, f x = .ok (g x)) : xs.mapM f = .ok (xs.map g) := by
  induction xs with
  | nil => rfl
  | cons x xs ih =>
      rw [List.mapM_cons, h x List.mem_cons_self, ok_bind,
        ih fun y hy ↦ h y (List.mem_cons_of_mem _ hy)]
      rfl

theorem exists_of_mapM_eq_ok {α β : Type} {f : α → Except Fault β} {xs : List α} {ys : List β}
    (h : xs.mapM f = .ok ys) : ∀ y ∈ ys, ∃ x ∈ xs, f x = .ok y := by
  induction xs generalizing ys with
  | nil =>
      cases h
      simp
  | cons x xs ih =>
      rw [List.mapM_cons] at h
      obtain ⟨y, hy, h⟩ := bind_eq_ok.mp h
      obtain ⟨ys, hys, hret⟩ := bind_eq_ok.mp h
      cases hret
      rw [List.forall_mem_cons]
      refine ⟨⟨x, List.mem_cons_self, hy⟩, fun y' hy' ↦ ?_⟩
      obtain ⟨x', hx', hfx'⟩ := ih hys y' hy'
      exact ⟨x', List.mem_cons_of_mem _ hx', hfx'⟩

theorem toNat_ofNat_of_lt {n : Nat} (h : n < 2 ^ 32) : (UInt32.ofNat n).toNat = n := by
  rw [UInt32.toNat_ofNat', Nat.mod_eq_of_lt h]

theorem add_eight_mul_le_sum {α : Type} (g : α → Nat) (xs : List α) (h : ∀ x ∈ xs, 8 ≤ g x) :
    8 * xs.length ≤ (xs.map g).sum := by
  induction xs with
  | nil => simp
  | cons x xs ih =>
      have hx := h x List.mem_cons_self
      have hxs := ih fun y hy ↦ h y (List.mem_cons_of_mem _ hy)
      simp only [List.length_cons, List.map_cons, List.sum_cons]
      omega

/-! ## Payloads -/

/-- A payload as the sampling functions make it. -/
inductive PayloadInput (p : Platform) where
  | leaf (k : CrKind) (image : List UInt8) (hk : k ≠ .hostAdapters)
      (hlen : image.length = k.sizeof p)
  | adapters (addr : Nat) (links : List AdapterLink)

namespace PayloadInput

def toPayload : PayloadInput p → CrPayload p
  | leaf k image hk hlen => .leaf k image hk hlen
  | adapters addr links => .adapters addr (sflowCrHostAdaptersPack p links)

def kind (i : PayloadInput p) : CrKind := i.toPayload.kind

/-- The number of bytes a payload takes in a datagram. -/
def size : PayloadInput p → Nat
  | leaf k _ _ _ => k.sizeof p - p.psize
  | adapters _ links => 4 + 16 * links.length

theorem counterRecordLen_eq (i : PayloadInput p) :
    counterRecordLen (some i.toPayload) i.kind.ent i.kind.fmt = .ok (UInt32.ofNat i.size) := by
  cases i with
  | leaf k image hk hlen =>
      cases k <;> first | rfl | exact absurd rfl hk
  | adapters addr links =>
      have hlen : (sflowCrHostAdaptersPack p links).hasLen =
          UInt32.ofNat (4 + 16 * links.length) := by
        rw [sflowCrHostAdaptersPack_eq]
      change Except.ok (sflowCrHostAdaptersPack p links).hasLen = _
      rw [hlen, size]

/-- The record around a payload. -/
def record (i : PayloadInput p) : SflowCr p where
  scrDfmt := htonl p.endian (sflowSetDataformat 0 i.kind.ent i.kind.fmt)
  scrLen := htonl p.endian (UInt32.ofNat i.size)
  scrData := some i.toPayload

theorem sflowCounterRecordPack_eq (i : PayloadInput p) :
    sflowCounterRecordPack (some i.toPayload) i.kind.ent i.kind.fmt = .ok i.record := by
  rw [sflowCounterRecordPack, counterRecordLen_eq]
  rfl

theorem length_wire_toPayload {i : PayloadInput p} (h : i.size < 2 ^ 32) :
    i.toPayload.wire.length = i.size := by
  cases i with
  | leaf k image hk hlen =>
      simp only [toPayload, CrPayload.wire, List.length_take, hlen, size]
      omega
  | adapters addr links =>
      have hbody := length_body_sflowCrHostAdaptersPack (p := p) links
      have hlen : (sflowCrHostAdaptersPack p links).hasLen.toNat = 4 + 16 * links.length := by
        rw [sflowCrHostAdaptersPack_eq]
        exact toNat_ofNat_of_lt h
      simp only [toPayload, CrPayload.wire, List.length_take, hlen, hbody, size, Nat.min_self]

theorem length_wire_record {i : PayloadInput p} (h : i.size < 2 ^ 32) :
    i.record.wire.length = 8 + i.size := by
  simp only [SflowCr.wire, record, Option.map_some, Option.getD_some, List.length_append,
    wordBytes_length, length_wire_toPayload h]

/-- What the allocator has to leave alone for the payload to be flattened: the
length word of a record of adapters. -/
def ReadableAfterFree (m : Memory R) : PayloadInput p → Prop
  | leaf .. => True
  | adapters addr links =>
      m.hasLenAfterFree addr (UInt32.ofNat (4 + 16 * links.length)) =
        .ok (UInt32.ofNat (4 + 16 * links.length))

theorem readableAfterFree_of_kind {m : Memory R} {i : PayloadInput p}
    (h : i.kind ≠ .hostAdapters) : i.ReadableAfterFree m := by
  cases i with
  | leaf => trivial
  | adapters addr links => exact absurd rfl h

/-- An allocator that leaves freed memory alone leaves every length word alone. -/
theorem readableAfterFree_of_intact {m : Memory R} (hm : ∀ addr n, m.hasLenAfterFree addr n = .ok n)
    (i : PayloadInput p) : i.ReadableAfterFree m := by
  cases i with
  | leaf => trivial
  | adapters => exact hm _ _

theorem flattens_record {m : Memory R} {i : PayloadInput p} (h : i.size < 2 ^ 32)
    (hfree : i.ReadableAfterFree m) : i.record.Flattens m := by
  refine ⟨i.toPayload, rfl, ?_, by rw [record, ntohl_htonl]; rfl⟩
  cases i with
  | leaf => trivial
  | adapters addr links =>
      have hbody := length_body_sflowCrHostAdaptersPack (p := p) links
      refine ⟨?_, ?_⟩
      · rw [hbody, sflowCrHostAdaptersPack_eq]
        exact Nat.le_of_eq (toNat_ofNat_of_lt h)
      · rw [sflowCrHostAdaptersPack_eq]
        exact hfree

/-- A record that is flattened at all has its payload flattened. -/
theorem flat_of_record_flat {m : Memory R} {i : PayloadInput p} {buf buf' : Buf} {start n : Nat}
    (h : sflowCounterRecordFlat m i.record buf start = .ok (buf', n)) :
    ∃ buf₁ k, i.toPayload.flat m buf₁ (start + 8) = .ok (buf', k) ∧ n = 8 + k := by
  have hdfmt : ntohl p.endian i.record.scrDfmt = sflowSetDataformat 0 i.kind.ent i.kind.fmt :=
    ntohl_htonl _ _
  have hcall : callFlat m i.kind i.record.scrData = i.toPayload.flat m := if_pos rfl
  obtain ⟨buf₁, -, h⟩ := bind_eq_ok.mp h
  simp only [hdfmt, sflowGetDataEnt_set i.kind.ent_lt i.kind.fmt_lt,
    sflowGetDataFmt_set i.kind.ent_lt i.kind.fmt_lt, CrPayload.counterPayloadFlat_kind,
    hcall] at h
  obtain ⟨⟨buf₂, k⟩, hflat, hret⟩ := bind_eq_ok.mp h
  cases hret
  exact ⟨buf₁, k, hflat, rfl⟩

end PayloadInput

/-- What a record of adapters returns is what is left in the freed memory. -/
theorem hasLenAfterFree_of_flat {m : Memory R} {addr : Nat} {ads : SflowCrHostAdapters}
    {buf buf' : Buf} {start n : Nat}
    (h : sflowCrHostAdaptersFlat p m addr ads buf start = .ok (buf', n)) :
    ∃ w, m.hasLenAfterFree addr ads.hasLen = .ok w ∧ w.toNat = n := by
  rw [sflowCrHostAdaptersFlat] at h
  split at h
  · obtain ⟨buf₁, -, h⟩ := bind_eq_ok.mp h
    obtain ⟨w, hw, hret⟩ := bind_eq_ok.mp h
    cases hret
    exact ⟨w, hw, rfl⟩
  · cases h

/-! ## Samples -/

/-- The number of header bytes of a packet that a sample carries. -/
def frCrop (len : Nat) : Nat := min len 128 - min len 128 % 4

/-- What a sample is made from. -/
inductive SampleInput (p : Platform) (R : Type) where
  /-- A packet of `len` bytes behind the reference `pkt`, read from a flow source. -/
  | flow (source : SflowSource) (hent : source.ssEnt = 0) (hfmt : source.ssFmt = 1) (pkt : R)
      (len : Nat)
  | counter (source : SflowSource) (payloads : List (PayloadInput p))

/-- The data source word of a source. -/
def SflowSource.dsrc (source : SflowSource) : UInt32 :=
  sflowSetDatasource 0 (UInt32.ofNat source.ssIdType) (UInt32.ofInt source.ssId)

/-- The counter sample around a list of records. -/
def SflowCs.around (source : SflowSource) (records : List (SflowCr p)) : SflowCs p where
  scsSeqNo := htonl p.endian (UInt32.ofNat source.ssCount)
  scsDsrc := htonl p.endian source.dsrc
  scsCount := htonl p.endian (UInt32.ofNat records.length)
  records := records

/-- The counted loop takes all records out of the list that was made of them. -/
theorem sflowCounterSamplePack_ofRecords (crs : List (SflowCr p)) (source : SflowSource) :
    sflowCounterSamplePack (SflowDataList.ofRecords crs) source =
      .ok (.around source crs, { source with ssCount := source.ssCount + 1 }) := by
  have hwf := SflowDataList.wellFormed_ofRecords crs
  obtain ⟨size, hdrain⟩ := hwf.drain
  have hcount : (SflowDataList.ofRecords crs).sdlCount = crs.length := by
    rw [hwf.count_eq, SflowDataList.data_ofRecords]
  rw [sflowCounterSamplePack, hdrain, ok_bind, SflowDataList.data_ofRecords, hcount]
  rfl

/-- What the polled sources make of records that can be packed.  The lengths are added up as far
as the count of the records goes, which is a word. -/
theorem counterSample_of_sum {ι : Type} (source : SflowSource) {xs : List ι}
    {payload : ι → Option (CrPayload p) × CrKind} {record : ι → SflowCr p}
    (hrecord : ∀ x ∈ xs, sflowCounterRecordPack (payload x).1 (payload x).2.ent (payload x).2.fmt =
      .ok (record x))
    {n : UInt32}
    (hsum : sumSlots (fun cr : SflowCr p => ntohl p.endian cr.scrLen + UInt32.ofNat 8)
      (UInt32.ofNat xs.length).toNat (xs.map record) (UInt32.ofNat 12) = .ok n) :
    counterSample (R := R) source (xs.map payload) =
      .ok (⟨htonl p.endian (sflowSetDataformat 0 0 2), htonl p.endian n,
          .counter (.around source (xs.map record))⟩,
        { source with ssCount := source.ssCount + 1 }) := by
  have hrecords : (xs.map payload).mapM
      (fun x : Option (CrPayload p) × CrKind => sflowCounterRecordPack x.1 x.2.ent x.2.fmt) =
      .ok (xs.map record) := by
    rw [List.mapM_map]
    exact mapM_eq_ok hrecord
  have hcs := sflowCounterSamplePack_ofRecords (xs.map record) source
  have hpack : sflowSamplePack (p := p) (R := R) (.counter (.around source (xs.map record))) 0 2 =
      .ok ⟨htonl p.endian (sflowSetDataformat 0 0 2), htonl p.endian n,
        .counter (.around source (xs.map record))⟩ := by
    have hne : ¬ (2 : UInt32) = 1 := by decide
    have hscs : (ntohl p.endian (SflowCs.around source (xs.map record)).scsCount).toNat =
        (UInt32.ofNat xs.length).toNat := by
      rw [SflowCs.around, ntohl_htonl, List.length_map]
    rw [← sizeof_sflowCsT p.toAbi, ← sizeof_sflowCrT p.toAbi] at hsum
    simp only [sflowSamplePack, hne, and_false, if_false, and_self, if_true, hscs]
    change (do
      let n ← sumSlots (fun cr : SflowCr p => ntohl p.endian cr.scrLen +
        UInt32.ofNat (sflowCrT.sizeof p.toAbi - p.psize * 2)) (UInt32.ofNat xs.length).toNat
        (xs.map record) (UInt32.ofNat (sflowCsT.sizeof p.toAbi - p.psize))
      pure (⟨htonl p.endian (sflowSetDataformat 0 0 2), htonl p.endian n, _⟩ : SflowSp p R)) = _
    rw [hsum]
    rfl
  rw [counterSample, hrecords, ok_bind, hcs, ok_bind]
  change (do
    let sp ← sflowSamplePack (p := p) (R := R) (.counter (.around source (xs.map record))) 0 2
    pure (sp, { source with ssCount := source.ssCount + 1 })) = _
  rw [hpack]
  rfl

/-- The same where the count is that of all records. -/
theorem counterSample_of_records {ι : Type} (source : SflowSource) {xs : List ι}
    {payload : ι → Option (CrPayload p) × CrKind} {record : ι → SflowCr p}
    (hrecord : ∀ x ∈ xs, sflowCounterRecordPack (payload x).1 (payload x).2.ent (payload x).2.fmt =
      .ok (record x))
    (hlen : xs.length < 2 ^ 32) {n : UInt32}
    (hsum : sumSlots (fun cr : SflowCr p => ntohl p.endian cr.scrLen + UInt32.ofNat 8) xs.length
      (xs.map record) (UInt32.ofNat 12) = .ok n) :
    counterSample (R := R) source (xs.map payload) =
      .ok (⟨htonl p.endian (sflowSetDataformat 0 0 2), htonl p.endian n,
          .counter (.around source (xs.map record))⟩,
        { source with ssCount := source.ssCount + 1 }) := by
  refine counterSample_of_sum source hrecord ?_
  rw [toNat_ofNat_of_lt hlen]
  exact hsum

namespace SampleInput

def source : SampleInput p R → SflowSource
  | flow source .. => source
  | counter source _ => source

/-- The number of bytes a sample takes in a datagram behind its format and length. -/
def size : SampleInput p R → Nat
  | flow _ _ _ _ len => 32 + (8 + (16 + frCrop len))
  | counter _ payloads => 12 + (payloads.map fun i => 8 + i.size).sum

/-- The sample that the packers make. -/
def pack : SampleInput p R → Except Fault (SflowSp p R)
  | flow source _ _ pkt len => return (← getSampleFlowsample p source pkt len).1
  | counter source payloads =>
      return (← counterSample source (payloads.map fun i => (some i.toPayload, i.kind))).1

/-- The raw packet record of a flow sample. -/
def flowRecord (p : Platform) (pkt : R) (len : Nat) : SflowFr R where
  sfrDfmt := htonl p.endian (sflowSetDataformat 0 0 1)
  sfrLen := htonl p.endian (UInt32.ofNat (16 + frCrop len))
  sfrData :=
    { frHeader := pkt
      frFrameLength := htonl p.endian (UInt32.ofNat len)
      frHeaderProtocol := htonl p.endian 1
      frHeaderSize := htonl p.endian (UInt32.ofNat (frCrop len))
      frStripped := htonl p.endian (UInt32.ofNat (len - frCrop len)) }

def flowSample (p : Platform) (source : SflowSource) (pkt : R) (len : Nat) : SflowFs R where
  sfsSeqNo := htonl p.endian (UInt32.ofNat source.ssCount)
  sfsDsrc := htonl p.endian source.dsrc
  sfsRate := htonl p.endian (UInt32.ofInt source.ssRate)
  sfsPool := htonl p.endian (UInt32.ofNat source.ssCount * UInt32.ofInt source.ssRate)
  sfsDrops := htonl p.endian source.fspDrops
  inputIf := sflowUnkown p
  outputIf := sflowUnkown p
  sfsCount := htonl p.endian 1
  records := [flowRecord p pkt len]

def counterSamp (source : SflowSource) (payloads : List (PayloadInput p)) : SflowCs p :=
  .around source (payloads.map (·.record))

/-- The structure that `pack` builds. -/
def packed : SampleInput p R → SflowSp p R
  | i@(flow source _ _ pkt len) =>
      ⟨htonl p.endian (sflowSetDataformat 0 0 1), htonl p.endian (UInt32.ofNat i.size),
        .flow (flowSample p source pkt len)⟩
  | i@(counter source payloads) =>
      ⟨htonl p.endian (sflowSetDataformat 0 0 2), htonl p.endian (UInt32.ofNat i.size),
        .counter (counterSamp source payloads)⟩

theorem frCrop_eq (len : Nat) :
    (if len > 128 then 128 else len) - (if len > 128 then 128 else len) % 4 = frCrop len := by
  have hmin : (if len > 128 then 128 else len) = min len 128 := by
    split <;> omega
  rw [hmin, frCrop]

theorem getSampleFlowsample_eq {source : SflowSource} (hent : source.ssEnt = 0)
    (hfmt : source.ssFmt = 1) (pkt : R) (len : Nat) :
    getSampleFlowsample p source pkt len =
      .ok ((flow source hent hfmt pkt len : SampleInput p R).packed,
        { source with fspPool := UInt32.ofNat source.ssCount * UInt32.ofInt source.ssRate }) := by
  let source' := { source with
    fspPool := UInt32.ofNat source.ssCount * UInt32.ofInt source.ssRate }
  have hlen : UInt32.ofNat (sflowFrRawPktHeaderT.sizeof p.toAbi - p.psize * 2) +
      UInt32.ofNat (frCrop len) = UInt32.ofNat (16 + frCrop len) := by
    rw [Nat.mul_comm, sizeof_sflowFrRawPktHeaderT, ← UInt32.ofNat_add]
  have hrecord : sflowFlowRecordPack p (sflowFrRawPktPack p pkt len) source' =
      flowRecord p pkt len := by
    simp only [sflowFlowRecordPack, sflowFrRawPktPack, frCrop_eq, source', hent, hfmt, and_self,
      if_true, ntohl_htonl, hlen, flowRecord]
  have hsample : sflowFlowSamplePack p (SflowDataList.ofRecords [flowRecord p pkt len]) source' =
      .ok (flowSample p source pkt len) := rfl
  have hsum : sumSlots (fun fr : SflowFr R => ntohl p.endian fr.sfrLen +
        UInt32.ofNat (sflowFrT.sizeof p.toAbi - p.psize * 2)) 1 [flowRecord p pkt len]
        (UInt32.ofNat (sflowFsT.sizeof p.toAbi - p.psize)) =
      .ok (UInt32.ofNat (flow source hent hfmt pkt len : SampleInput p R).size) := by
    simp only [sumSlots, flowRecord, ntohl_htonl, sizeof_sflowFsT]
    rw [Nat.mul_comm, sizeof_sflowFrT, ← UInt32.ofNat_add, ← UInt32.ofNat_add, size,
      Nat.add_comm 8]
  have hpack : sflowSamplePack (p := p) (.flow (flowSample p source pkt len)) 0 1 =
      .ok (flow source hent hfmt pkt len : SampleInput p R).packed := by
    have hone : (ntohl p.endian (flowSample p source pkt len).sfsCount).toNat = 1 := by
      rw [flowSample, ntohl_htonl]
      rfl
    simp only [sflowSamplePack, and_self, if_true, hone]
    change (do
      let n ← sumSlots (fun fr : SflowFr R => ntohl p.endian fr.sfrLen +
        UInt32.ofNat (sflowFrT.sizeof p.toAbi - p.psize * 2)) 1 [flowRecord p pkt len]
        (UInt32.ofNat (sflowFsT.sizeof p.toAbi - p.psize))
      pure (⟨htonl p.endian (sflowSetDataformat 0 0 1), htonl p.endian n, _⟩ : SflowSp p R)) = _
    rw [hsum]
    rfl
  change (do
    let fs ← sflowFlowSamplePack p (SflowDataList.ofRecords
      [sflowFlowRecordPack p (sflowFrRawPktPack p pkt len) source']) source'
    let sp ← sflowSamplePack (p := p) (.flow fs) 0 1
    pure (sp, source')) = _
  rw [hrecord, hsample, ok_bind, hpack]
  rfl

theorem counterSample_eq (source : SflowSource) {payloads : List (PayloadInput p)}
    (h : payloads.length < 2 ^ 32) :
    counterSample source (payloads.map fun i => (some i.toPayload, i.kind)) =
      .ok ((counter source payloads : SampleInput p R).packed,
        { source with ssCount := source.ssCount + 1 }) := by
  refine counterSample_of_records source (fun i _ ↦ i.sflowCounterRecordPack_eq) h ?_
  refine sumSlots_eq payloads (fun i _ ↦ ?_) 12
  rw [PayloadInput.record, ntohl_htonl, ← UInt32.ofNat_add, Nat.add_comm]

/-- A sample that fits a datagram holds no more payloads than a word counts. -/
theorem length_lt_of_size_lt {source : SflowSource} {payloads : List (PayloadInput p)}
    (h : (counter source payloads : SampleInput p R).size < 2 ^ 32) :
    payloads.length < 2 ^ 32 := by
  have hsum := add_eight_mul_le_sum (fun i : PayloadInput p ↦ 8 + i.size) payloads
    fun i _ ↦ Nat.le_add_right 8 _
  rw [size] at h
  omega

theorem payload_size_lt {source : SflowSource} {payloads : List (PayloadInput p)}
    (h : (counter source payloads : SampleInput p R).size < 2 ^ 32) {i : PayloadInput p}
    (hi : i ∈ payloads) : i.size < 2 ^ 32 := by
  have hle : 8 + i.size ≤ (payloads.map fun i => 8 + i.size).sum :=
    List.le_sum_of_mem (List.mem_map.mpr ⟨i, hi, rfl⟩)
  rw [size] at h
  omega

/-- The packers succeed on every input of a size that a word can hold. -/
theorem pack_eq {i : SampleInput p R} (h : i.size < 2 ^ 32) : i.pack = .ok i.packed := by
  cases i with
  | flow source hent hfmt pkt len =>
      rw [pack, getSampleFlowsample_eq hent hfmt]
      rfl
  | counter source payloads =>
      rw [pack, counterSample_eq source (length_lt_of_size_lt h)]
      rfl

/-- The packet that a sample refers to is where the sample expects it. -/
def InMemory (m : Memory R) : SampleInput p R → Prop
  | flow _ _ _ pkt len => len ≤ (m.deref pkt).length
  | counter .. => True

/-- Where packets are does not depend on the allocator. -/
theorem InMemory.withHasLen {m : Memory R} {i : SampleInput p R} (h : i.InMemory m)
    (hasLen : Nat → UInt32 → Except Fault UInt32) :
    i.InMemory { m with hasLenAfterFree := hasLen } := by
  cases i with
  | flow => exact h
  | counter => trivial

/-- The payloads that are not of fixed size survive being freed. -/
def ReadableAfterFree (m : Memory R) : SampleInput p R → Prop
  | flow .. => True
  | counter _ payloads => ∀ i ∈ payloads, i.ReadableAfterFree m

/-- No record of a sample starts where the `int` that counts its bytes cannot reach. -/
def OffsetsFit : SampleInput p R → Prop
  | flow .. => True
  | counter _ payloads => StartsBelow (2 ^ 31) (payloads.map fun i => 8 + i.size) 12

theorem offsetsFit_of_size_lt {i : SampleInput p R} (h : i.size < 2 ^ 31) : i.OffsetsFit := by
  cases i with
  | flow => trivial
  | counter source payloads => exact StartsBelow.of_sum_lt h

theorem frCrop_le (len : Nat) : frCrop len ≤ len := by
  rw [frCrop]
  omega

theorem frCrop_lt (len : Nat) : frCrop len < 2 ^ 32 := by
  rw [frCrop]
  omega

theorem flattens_packed {m : Memory R} {i : SampleInput p R} (h : i.size < 2 ^ 32)
    (hoff : i.OffsetsFit) (hmem : i.InMemory m) (hfree : i.ReadableAfterFree m) :
    i.packed.Flattens m := by
  cases i with
  | flow source hent hfmt pkt len =>
      refine ⟨ntohl_htonl _ _, ?_, ⟨by decide, trivial⟩, fun fr hfr ↦ ?_⟩
      · simp only [flowSample, ntohl_htonl]
        rfl
      · obtain rfl := List.mem_singleton.mp hfr
        refine ⟨ntohl_htonl _ _, ?_⟩
        simp only [SflowFrRawPktHeader.Flattens, flowRecord, ntohl_htonl,
          toNat_ofNat_of_lt (frCrop_lt len)]
        exact Nat.le_trans (frCrop_le len) hmem
  | counter source payloads =>
      refine ⟨ntohl_htonl _ _, ?_, ?_, fun cr hcr ↦ ?_⟩
      · simp only [counterSamp, SflowCs.around, ntohl_htonl, List.length_map,
          toNat_ofNat_of_lt (length_lt_of_size_lt h)]
      · have hlens : (payloads.map (·.record)).map (fun cr => cr.wire.length) =
            payloads.map fun i => 8 + i.size := by
          rw [List.map_map]
          exact List.map_congr_left fun i hi ↦
            PayloadInput.length_wire_record (payload_size_lt h hi)
        rw [counterSamp, SflowCs.around, hlens]
        exact hoff
      · obtain ⟨i, hi, rfl⟩ := List.mem_map.mp hcr
        exact PayloadInput.flattens_record (payload_size_lt h hi) (hfree i hi)

theorem length_wire_packed {m : Memory R} {i : SampleInput p R} (h : i.size < 2 ^ 32)
    (hmem : i.InMemory m) : (i.packed.wire m).length = 8 + i.size := by
  cases i with
  | flow source hent hfmt pkt len =>
      have hcrop : frCrop len ≤ (m.deref pkt).length := Nat.le_trans (frCrop_le len) hmem
      simp only [packed, SflowSp.wire, flowSample, SflowFs.wire, flowRecord, SflowFr.wire,
        SflowFrRawPktHeader.wire, ntohl_htonl, toNat_ofNat_of_lt (frCrop_lt len),
        List.length_append, wordBytes_length, List.flatMap_cons, List.flatMap_nil,
        List.length_nil, List.length_take_of_le hcrop, size]
      omega
  | counter source payloads =>
      have hrecords : (payloads.map (·.record)).flatMap (·.wire) =
          payloads.flatMap (·.record.wire) := by rw [List.flatMap_map]
      have hlen : (payloads.flatMap (·.record.wire)).length =
          (payloads.map fun i => 8 + i.size).sum := by
        rw [List.length_flatMap]
        congr 1
        exact List.map_congr_left fun i hi ↦
          PayloadInput.length_wire_record (payload_size_lt h hi)
      simp only [packed, SflowSp.wire, counterSamp, SflowCs.around, SflowCs.wire,
        List.length_append, wordBytes_length, hrecords, hlen, size]

end SampleInput

/-! ## Datagrams -/

namespace SflowDg

/-- The datagram around a list of samples. -/
def around (p : Platform) (datagramCount : Nat) (upTime : UInt32) (samples : List (SflowSp p R)) :
    SflowDg p R where
  dgSeq := htonl p.endian (UInt32.ofNat datagramCount)
  ipVer := htonl p.endian 1
  sflowVer := htonl p.endian Sflow.sflowVer
  ipAddr := p.agentIp ++ Vector.replicate 12 (0 : UInt8)
  sampleNum := htonl p.endian (UInt32.ofNat samples.length)
  subAgentId := sflowDummy p
  upTime := htonl p.endian upTime
  samples := samples

theorem sampleNum_around {samples : List (SflowSp p R)} (h : samples.length < 2 ^ 32)
    (datagramCount : Nat) (upTime : UInt32) :
    (ntohl p.endian (around p datagramCount upTime samples).sampleNum).toNat = samples.length := by
  rw [around, ntohl_htonl, toNat_ofNat_of_lt h]

end SflowDg

/-- The counted loop takes all samples out of a well-formed list. -/
theorem sflowDatagramPack_eq {list : SflowDataList (SflowSp p R)} (h : list.WellFormed)
    (datagramCount : Nat) (upTime : UInt32) :
    sflowDatagramPack datagramCount upTime list =
      .ok (.around p datagramCount upTime list.data) := by
  obtain ⟨size, hdrain⟩ := h.drain
  rw [sflowDatagramPack, hdrain, ok_bind, SflowDg.around, ← h.count_eq]
  rfl

/-- The size of a datagram is that of its header and of its samples. -/
theorem sflowDatagramSize_eq {dg : SflowDg p R}
    (h : (ntohl p.endian dg.sampleNum).toNat = dg.samples.length) :
    sflowDatagramSize dg =
      .ok (UInt32.ofNat
        (28 + (dg.samples.map fun sp => 8 + (ntohl p.endian sp.len).toNat).sum)) := by
  have hslots := sumSlots_eq (f := fun sp : SflowSp p R ↦ UInt32.ofNat 8 + ntohl p.endian sp.len)
    (r := id) (g := fun sp ↦ 8 + (ntohl p.endian sp.len).toNat) dg.samples
    (fun sp _ ↦ by rw [UInt32.ofNat_add, UInt32.ofNat_toNat, id]) 28
  rw [sflowDatagramSize, h, sizeof_sflowSpT, sizeof_sflowDgT]
  rwa [List.map_id] at hslots

namespace SampleInput

/-- The number of bytes that a datagram of samples takes. -/
def totalSize (l : List (SampleInput p R)) : Nat := 28 + (l.map fun i => 8 + i.size).sum

theorem size_lt_totalSize {l : List (SampleInput p R)} {i : SampleInput p R} (h : i ∈ l) :
    i.size < totalSize l := by
  have hle : 8 + i.size ≤ (l.map fun i => 8 + i.size).sum :=
    List.le_sum_of_mem (List.mem_map.mpr ⟨i, h, rfl⟩)
  rw [totalSize]
  omega

/-- A bound on a datagram of samples bounds each of them. -/
theorem size_lt_of_totalSize_lt {l : List (SampleInput p R)} {b : Nat} (h : totalSize l < b) :
    ∀ i ∈ l, i.size < b :=
  fun _ hi ↦ Nat.lt_trans (size_lt_totalSize hi) h

theorem length_lt_totalSize (l : List (SampleInput p R)) : l.length < totalSize l := by
  have hle := add_eight_mul_le_sum (fun i : SampleInput p R ↦ 8 + i.size) l
    fun i _ ↦ Nat.le_add_right 8 _
  rw [totalSize]
  omega

theorem mapM_pack_eq {l : List (SampleInput p R)} (h : totalSize l < 2 ^ 32) :
    l.mapM pack = .ok (l.map packed) :=
  mapM_eq_ok fun i hi ↦ pack_eq (size_lt_of_totalSize_lt h i hi)

theorem len_packed {i : SampleInput p R} (h : i.size < 2 ^ 32) :
    (ntohl p.endian i.packed.len).toNat = i.size := by
  have hlen : i.packed.len = htonl p.endian (UInt32.ofNat i.size) := by cases i <;> rfl
  rw [hlen, ntohl_htonl, toNat_ofNat_of_lt h]

theorem length_flatMap_wire {m : Memory R} {l : List (SampleInput p R)}
    (h : ∀ i ∈ l, i.size < 2 ^ 32) (hmem : ∀ i ∈ l, i.InMemory m) :
    (l.flatMap (·.packed.wire m)).length = (l.map fun i => 8 + i.size).sum := by
  rw [List.length_flatMap]
  congr 1
  exact List.map_congr_left fun i hi ↦ length_wire_packed (h i hi) (hmem i hi)

theorem length_wire_around {m : Memory R} {l : List (SampleInput p R)} (h : totalSize l < 2 ^ 32)
    (hmem : ∀ i ∈ l, i.InMemory m) (datagramCount : Nat) (upTime : UInt32) :
    ((SflowDg.around p datagramCount upTime (l.map packed)).wire m).length = totalSize l := by
  have hwires := length_flatMap_wire (size_lt_of_totalSize_lt h) hmem
  rw [← List.flatMap_map] at hwires
  rw [SflowDg.wire, List.length_append, SflowDg.header_length, totalSize]
  exact congrArg (28 + ·) hwires

/-- A datagram of packed samples is flattened to their bytes behind its header. -/
theorem flat_around {m : Memory R} {l : List (SampleInput p R)} (h : totalSize l < 2 ^ 32)
    (hoff : ∀ i ∈ l, i.OffsetsFit) (hmem : ∀ i ∈ l, i.InMemory m)
    (hfree : ∀ i ∈ l, i.ReadableAfterFree m) (datagramCount : Nat) (upTime : UInt32) :
    ∃ ws, Chain 0 ws (totalSize l) ∧
      sflowDatagramFlat m (.around p datagramCount upTime (l.map packed)) =
        .ok (⟨(SflowDg.around p datagramCount upTime (l.map packed)).wire m, ws⟩, totalSize l,
          UInt32.ofNat (totalSize l)) := by
  have hsize := size_lt_of_totalSize_lt h
  have hcount : (l.map packed).length < 2 ^ 32 := by
    rw [List.length_map]
    exact Nat.lt_trans (length_lt_totalSize l) h
  have hnum := SflowDg.sampleNum_around hcount datagramCount upTime
  have hlens : ((l.map packed).map fun sp => 8 + (ntohl p.endian sp.len).toNat) =
      l.map fun i => 8 + i.size := by
    rw [List.map_map]
    exact List.map_congr_left fun i hi ↦ congrArg (8 + ·) (len_packed (hsize i hi))
  have hdgsize := sflowDatagramSize_eq hnum
  rw [SflowDg.around, hlens, ← SflowDg.around, ← totalSize] at hdgsize
  have hwire := length_wire_around h hmem datagramCount upTime
  rw [← toNat_ofNat_of_lt h] at hwire
  have hflat := SflowDg.flat_eq hdgsize hwire.symm hnum fun sp hsp ↦ by
    obtain ⟨i, hi, rfl⟩ := List.mem_map.mp hsp
    exact flattens_packed (hsize i hi) (hoff i hi) (hmem i hi) (hfree i hi)
  rwa [toNat_ofNat_of_lt h] at hflat

end SampleInput

end Sflow

import Sflow.Protocol.Packed

/-!
# Lengths noted and bytes written

Packing notes a length in every record and sample, and the buffer of a datagram
is allocated for their sum; flattening counts anew what it writes.  The two agree
at every level for every datagram, but for one record: that of the host
adapters, which `sflow_cr_host_adapters_flat` frees before it reads the length to
return out of it.
-/

namespace Sflow

open C

variable {R : Type} {p : Platform}

/-- The lengths noted in a datagram are those that flattening comes to: each
record and each sample writes what its length says behind the two words in front,
and all of them fill the buffer in one chain of writes. -/
structure LengthsAgree (m : Memory R) (dg : SflowDg p R) : Prop where
  datagram : ∃ buf size, sflowDatagramFlat m dg = .ok (buf, size.toNat, size) ∧
    buf.data.length = size.toNat ∧ Chain 0 buf.writes size.toNat
  samples : ∀ sp ∈ dg.samples, Writes (sflowSampleFlat m sp) (8 + (ntohl p.endian sp.len).toNat)
  flowRecords : ∀ sp ∈ dg.samples, ∀ fs, sp.data = .flow fs → ∀ fr ∈ fs.records,
    Writes (sflowFlowRecordFlat p m fr) (8 + (ntohl p.endian fr.sfrLen).toNat)
  counterRecords : ∀ sp ∈ dg.samples, ∀ cs, sp.data = .counter cs → ∀ cr ∈ cs.records,
    Writes (sflowCounterRecordFlat m cr) (8 + (ntohl p.endian cr.scrLen).toNat)

namespace PayloadInput

theorem len_record {i : PayloadInput p} (h : i.size < 2 ^ 32) :
    (ntohl p.endian i.record.scrLen).toNat = i.size := by
  rw [record, ntohl_htonl, toNat_ofNat_of_lt h]

theorem writes_record {m : Memory R} {i : PayloadInput p} (h : i.size < 2 ^ 32)
    (hfree : i.ReadableAfterFree m) : Writes (sflowCounterRecordFlat m i.record) (8 + i.size) := by
  have hemits := (SflowCr.emits (flattens_record h hfree)).writes
  rwa [length_wire_record h] at hemits

/-- The count that a record returns passes through the word read after the free. -/
theorem readableAfterFree_of_writes {m : Memory R} {i : PayloadInput p} (h : i.size < 2 ^ 32)
    (hwrites : Writes (sflowCounterRecordFlat m i.record) (8 + i.size)) :
    i.ReadableAfterFree m := by
  cases i with
  | leaf => trivial
  | adapters addr links =>
      let i : PayloadInput p := .adapters addr links
      obtain ⟨buf, ws, hflat, -⟩ := hwrites (Buf.calloc (8 + i.size)) 0 (by simp [Buf.calloc, i])
      obtain ⟨buf₁, k, hads, hk⟩ := flat_of_record_flat hflat
      obtain ⟨w, hw, hwk⟩ := hasLenAfterFree_of_flat hads
      have hwlen : w = UInt32.ofNat (4 + 16 * links.length) := by
        apply UInt32.toNat_inj.mp
        exact (hwk.trans (Nat.add_left_cancel hk).symm).trans (toNat_ofNat_of_lt h).symm
      rw [sflowCrHostAdaptersPack_eq, hwlen] at hw
      exact hw

end PayloadInput

namespace SampleInput

theorem writes_packed {m : Memory R} {i : SampleInput p R} (h : i.size < 2 ^ 32)
    (hoff : i.OffsetsFit) (hmem : i.InMemory m) (hfree : i.ReadableAfterFree m) :
    Writes (sflowSampleFlat m i.packed) (8 + (ntohl p.endian i.packed.len).toNat) := by
  have hemits := (SflowSp.emits (flattens_packed h hoff hmem hfree)).writes
  rwa [length_wire_packed h hmem, ← len_packed h] at hemits

theorem writes_flowRecord {m : Memory R} {pkt : R} {len : Nat} (h : len ≤ (m.deref pkt).length) :
    Writes (sflowFlowRecordFlat p m (flowRecord p pkt len))
      (8 + (ntohl p.endian (flowRecord p pkt len).sfrLen).toNat) := by
  have hcrop : frCrop len ≤ (m.deref pkt).length := Nat.le_trans (frCrop_le len) h
  have hlt : 16 + frCrop len < 2 ^ 32 := by
    rw [frCrop]
    omega
  have hflattens : (flowRecord p pkt len).Flattens p m := by
    refine ⟨ntohl_htonl _ _, ?_⟩
    simpa only [SflowFrRawPktHeader.Flattens, flowRecord, ntohl_htonl,
      toNat_ofNat_of_lt (frCrop_lt len)] using hcrop
  have hlen : ((flowRecord p pkt len).wire p m).length =
      8 + (ntohl p.endian (flowRecord p pkt len).sfrLen).toNat := by
    simp only [flowRecord, SflowFr.wire, SflowFrRawPktHeader.wire, ntohl_htonl,
      toNat_ofNat_of_lt (frCrop_lt len), toNat_ofNat_of_lt hlt, List.length_append,
      wordBytes_length, List.length_take_of_le hcrop]
  have hemits := (SflowFr.emits hflattens).writes
  rwa [hlen] at hemits

/-- Records that survive being freed leave nothing for the lengths to differ in. -/
theorem lengthsAgree_around {m : Memory R} {l : List (SampleInput p R)} (h : totalSize l < 2 ^ 32)
    (hoff : ∀ i ∈ l, i.OffsetsFit) (hmem : ∀ i ∈ l, i.InMemory m)
    (hfree : ∀ i ∈ l, i.ReadableAfterFree m) (datagramCount : Nat) (upTime : UInt32) :
    LengthsAgree m (.around p datagramCount upTime (l.map packed)) := by
  have hsize := size_lt_of_totalSize_lt h
  constructor
  · obtain ⟨ws, hws, hflat⟩ := flat_around h hoff hmem hfree datagramCount upTime
    have htotal := toNat_ofNat_of_lt h
    refine ⟨⟨(SflowDg.around p datagramCount upTime (l.map packed)).wire m, ws⟩,
      UInt32.ofNat (totalSize l), ?_, ?_, ?_⟩
    · rw [htotal]
      exact hflat
    · rw [htotal]
      exact length_wire_around h hmem datagramCount upTime
    · rwa [htotal]
  · intro sp hsp
    obtain ⟨i, hi, rfl⟩ := List.mem_map.mp hsp
    exact writes_packed (hsize i hi) (hoff i hi) (hmem i hi) (hfree i hi)
  · intro sp hsp fs hfs fr hfr
    obtain ⟨i, hi, rfl⟩ := List.mem_map.mp hsp
    cases i with
    | flow source hent hfmt pkt len =>
        cases hfs
        obtain rfl := List.mem_singleton.mp hfr
        exact writes_flowRecord (hmem _ hi)
    | counter => cases hfs
  · intro sp hsp cs hcs cr hcr
    obtain ⟨i, hi, rfl⟩ := List.mem_map.mp hsp
    cases i with
    | flow => cases hcs
    | counter source payloads =>
        cases hcs
        obtain ⟨j, hj, rfl⟩ := List.mem_map.mp hcr
        have hj' := payload_size_lt (hsize _ hi) hj
        rw [PayloadInput.len_record hj']
        exact PayloadInput.writes_record hj' (hfree _ hi j hj)

theorem readableAfterFree_of_lengthsAgree {m : Memory R} {l : List (SampleInput p R)}
    (h : totalSize l < 2 ^ 32) {datagramCount : Nat} {upTime : UInt32}
    (hagree : LengthsAgree m (.around p datagramCount upTime (l.map packed)))
    {i : SampleInput p R} (hi : i ∈ l) : i.ReadableAfterFree m := by
  cases i with
  | flow => trivial
  | counter source payloads =>
      intro j hj
      have hj' := payload_size_lt (size_lt_of_totalSize_lt h _ hi) hj
      have hwrites := hagree.counterRecords _ (List.mem_map.mpr ⟨_, hi, rfl⟩) _ rfl _
        (List.mem_map.mpr ⟨j, hj, rfl⟩)
      rw [PayloadInput.len_record hj'] at hwrites
      exact PayloadInput.readableAfterFree_of_writes hj' hwrites

end SampleInput

/-- For every list of samples that the packers made, the lengths in the datagram
around it agree with what flattening writes exactly if every record of host
adapters in it can still be read after it has been freed. -/
theorem lengthsAgree_iff {m : Memory R} {l : List (SampleInput p R)}
    {list : SflowDataList (SflowSp p R)} (hlist : list.WellFormed)
    (hpack : l.mapM SampleInput.pack = .ok list.data) (hmem : ∀ i ∈ l, i.InMemory m)
    (hsize : SampleInput.totalSize l < 2 ^ 31) (datagramCount : Nat) (upTime : UInt32) :
    ∃ dg, sflowDatagramPack datagramCount upTime list = .ok dg ∧
      (LengthsAgree m dg ↔ ∀ i ∈ l, i.ReadableAfterFree m) := by
  have h : SampleInput.totalSize l < 2 ^ 32 := Nat.lt_trans hsize (by decide)
  have hoff : ∀ i ∈ l, i.OffsetsFit := fun i hi ↦
    SampleInput.offsetsFit_of_size_lt (SampleInput.size_lt_of_totalSize_lt hsize i hi)
  rw [SampleInput.mapM_pack_eq h, Except.ok.injEq] at hpack
  refine ⟨_, sflowDatagramPack_eq hlist datagramCount upTime, ?_⟩
  rw [← hpack]
  exact ⟨fun hagree i hi ↦ SampleInput.readableAfterFree_of_lengthsAgree h hagree hi,
    fun hfree ↦ SampleInput.lengthsAgree_around h hoff hmem hfree datagramCount upTime⟩

/-- A packet and a host with one adapter, in memory that a free leaves alone. -/
theorem lengthsAgree_iff_mixed :
    let m : Memory (List UInt8) := ⟨id, fun _ ↦ .ok⟩
    let l : List (SampleInput .amd64 (List UInt8)) :=
      [.flow .net0 rfl rfl [1, 2, 3, 4, 5, 6] 6,
        .counter .phyhost [.adapters 0 [⟨1, 1, Vector.replicate 8 0⟩]]]
    ∃ dg, sflowDatagramPack 0 0 (SflowDataList.ofRecords (l.map SampleInput.packed)) = .ok dg ∧
      (LengthsAgree m dg ↔ ∀ i ∈ l, i.ReadableAfterFree m) := by
  intro m l
  have hmem : ∀ i ∈ l, i.InMemory m := by simp [l, m, SampleInput.InMemory]
  refine lengthsAgree_iff (SflowDataList.wellFormed_ofRecords _) ?_ hmem (by decide) 0 0
  rw [SflowDataList.data_ofRecords]
  exact SampleInput.mapM_pack_eq (by decide)

/-- A host without adapters, in memory that a free fills with a pattern. -/
theorem not_lengthsAgree_adapters :
    let m : Memory (List UInt8) := ⟨id, fun _ _ ↦ .ok 0xDEADBEEF⟩
    let l : List (SampleInput .amd64 (List UInt8)) := [.counter .phyhost [.adapters 0 []]]
    l.mapM SampleInput.pack = .ok (l.map SampleInput.packed) ∧ (∀ i ∈ l, i.InMemory m) ∧
      SampleInput.totalSize l < 2 ^ 31 ∧
      ∃ dg, sflowDatagramPack 0 0 (SflowDataList.ofRecords (l.map SampleInput.packed)) = .ok dg ∧
        ¬ LengthsAgree m dg := by
  intro m l
  refine ⟨SampleInput.mapM_pack_eq (by decide), by simp [l, SampleInput.InMemory], by decide, _,
    sflowDatagramPack_eq (SflowDataList.wellFormed_ofRecords _) 0 0, fun hagree ↦ ?_⟩
  rw [SflowDataList.data_ofRecords] at hagree
  have hread := SampleInput.readableAfterFree_of_lengthsAgree (by decide) hagree
    List.mem_cons_self (.adapters 0 []) List.mem_cons_self
  have hword : (0xDEADBEEF : UInt32) = UInt32.ofNat 4 := Except.ok.inj hread
  exact absurd hword (by decide)

end Sflow

import Sflow.Protocol.Wire

/-!
# The records of a sample

Both packers of samples empty a list of records, and keep the pointers behind
the structure of the sample.  `sflow_counter_sample_pack` notes the length of the
list before its loop.  The loop of `sflow_flow_sample_pack` compares with the count
that it lowers itself, so it stops half way, and the rest of the list is in the
way of `sflow_data_list_free`.
-/

namespace Sflow

open C

variable {α : Type}

/-! ## Emptying a list -/

namespace SflowDataList

/-- A read takes the first node away. -/
theorem WellFormed.read {list : SflowDataList α} (h : list.WellFormed) (hpos : 0 < list.sdlCount) :
    ∃ node rest, sflowDataListRead list = .ok (node, rest) ∧ rest.WellFormed ∧
      list.data = node.sdlnData :: rest.data ∧ rest.sdlCount = list.sdlCount - 1 := by
  obtain ⟨count, size, nodes⟩ := list
  obtain rfl : count = nodes.length := h
  cases nodes with
  | nil => exact absurd hpos (Nat.lt_irrefl 0)
  | cons node nodes => exact ⟨node, _, rfl, rfl, rfl, rfl⟩

/-- The loop against the live count reads the first half of a list. -/
theorem WellFormed.drainLive {list : SflowDataList α} (h : list.WellFormed) (fuel i : Nat)
    (hfuel : list.sdlCount - i ≤ 2 * fuel) :
    ∃ rest, Sflow.drainLive fuel i list =
        .ok (list.data.take ((list.sdlCount - i + 1) / 2), rest) ∧
      rest.WellFormed ∧ rest.data = list.data.drop ((list.sdlCount - i + 1) / 2) := by
  induction fuel generalizing i list with
  | zero =>
      have hnone : (list.sdlCount - i + 1) / 2 = 0 := by omega
      rw [hnone]
      exact ⟨list, rfl, h, rfl⟩
  | succ fuel ih =>
      rw [Sflow.drainLive]
      by_cases hi : i < list.sdlCount
      · obtain ⟨node, list', hread, hwf, hdata, hcount⟩ := h.read (Nat.zero_lt_of_lt hi)
        obtain ⟨rest, hrest, hwfRest, hdataRest⟩ := ih hwf (i := i + 1) (by omega)
        -- each round brings the bounds closer by two
        have hhalf : (list.sdlCount - i + 1) / 2 = (list'.sdlCount - (i + 1) + 1) / 2 + 1 := by
          omega
        refine ⟨rest, ?_, hwfRest, ?_⟩
        · rw [if_pos hi, hread, hhalf, hdata, List.take_succ_cons]
          simp only [ok_bind, hrest, pure_eq_ok]
        · rw [hhalf, hdata, List.drop_succ_cons, hdataRest]
      · have hnone : (list.sdlCount - i + 1) / 2 = 0 := by omega
        rw [if_neg hi, hnone]
        exact ⟨list, rfl, h, rfl⟩

/-- A list holds no data exactly if it has no nodes. -/
theorem data_eq_nil {list : SflowDataList α} : list.data = [] ↔ list.sdlList = [] :=
  List.map_eq_nil_iff

theorem WellFormed.free_eq_ok {list : SflowDataList α} (h : list.WellFormed) :
    sflowDataListFree list = .ok () ↔ list.data = [] := by
  rw [← List.length_eq_zero_iff, ← h.count_eq, sflowDataListFree]
  split
  · next hcount => exact ⟨fun _ ↦ hcount, fun _ ↦ rfl⟩
  · next hcount => exact ⟨nofun, fun h ↦ absurd h hcount⟩

/-- A loop takes all records of a list in order and leaves an empty list, which can be freed. -/
def EmptiedBy (list : SflowDataList α) (loop : Except Fault (List α × SflowDataList α)) : Prop :=
  ∃ rest, loop = .ok (list.data, rest) ∧ rest.sdlList = [] ∧ sflowDataListFree rest = .ok ()

/-- The loop that counts up to the length of the list does so. -/
theorem WellFormed.emptiedBy_drain {list : SflowDataList α} (h : list.WellFormed) :
    list.EmptiedBy (Sflow.drain list.sdlCount list) := by
  obtain ⟨size, hdrain⟩ := h.drain
  exact ⟨_, hdrain, rfl, rfl⟩

/-- The other one does so if there is only one record. -/
theorem WellFormed.emptiedBy_drainLive {list : SflowDataList α} (h : list.WellFormed) :
    list.EmptiedBy (Sflow.drainLive list.sdlCount 0 list) ↔ list.data.length ≤ 1 := by
  obtain ⟨rest, hdrain, hwf, hdata⟩ := h.drainLive list.sdlCount 0 (by omega)
  rw [Nat.sub_zero, h.count_eq] at hdrain hdata
  rw [h.count_eq] at *
  constructor
  · rintro ⟨rest', hdrain', hnil, -⟩
    rw [hdrain, Except.ok.injEq, Prod.mk.injEq] at hdrain'
    rw [← hdrain'.2, ← data_eq_nil, hdata, List.drop_eq_nil_iff] at hnil
    omega
  · intro hone
    have hall : list.data.length ≤ (list.data.length + 1) / 2 := by omega
    rw [List.take_of_length_le hall] at hdrain
    rw [List.drop_eq_nil_of_le hall] at hdata
    exact ⟨rest, hdrain, data_eq_nil.mp hdata, hwf.free_eq_ok.mpr hdata⟩

end SflowDataList

/-! ## Packing the records -/

variable {R : Type} {p : Platform}

/-- The records lie behind the structure of a counter sample, in the order of the list. -/
structure PacksCounter (src : SflowSource) (recordList : SflowDataList (SflowCr p)) : Prop where
  emptied : recordList.EmptiedBy (drain recordList.sdlCount recordList)
  slots : ∃ cs, sflowCounterSamplePack recordList src =
      .ok (cs, { src with ssCount := src.ssCount + 1 }) ∧
    cs.records = recordList.data ∧
      (ntohl p.endian cs.scsCount).toNat = recordList.data.length

/-- What `sflow_flow_sample_flat` copies out of the structure itself. -/
def SflowFs.header (p : Platform) (fs : SflowFs R) : List UInt8 :=
  wordBytes p.endian fs.sfsSeqNo ++ wordBytes p.endian fs.sfsDsrc ++
    wordBytes p.endian fs.sfsRate ++ wordBytes p.endian fs.sfsPool ++
    wordBytes p.endian fs.sfsDrops ++ wordBytes p.endian fs.inputIf ++
    wordBytes p.endian fs.outputIf ++ wordBytes p.endian fs.sfsCount

/-- Flattening a flow sample is flattening these records, in this order. -/
def SflowFs.Visits (p : Platform) (m : Memory R) (fs : SflowFs R) (records : List (SflowFr R)) :
    Prop :=
  ∀ wire : SflowFr R → List UInt8,
    (∀ fr ∈ records, Emits (sflowFlowRecordFlat p m fr) (wire fr)) →
      StartsBelow (2 ^ 31) (records.map fun fr => (wire fr).length) 32 →
        Emits (sflowFlowSampleFlat p m fs) (fs.header p ++ records.flatMap wire)

/-- The records lie behind the structure of a flow sample, in the order of the list. -/
structure PacksFlow (p : Platform) (m : Memory R) (source : SflowSource)
    (recordList : SflowDataList (SflowFr R)) : Prop where
  emptied : recordList.EmptiedBy (drainLive recordList.sdlCount 0 recordList)
  slots : ∃ fs, sflowFlowSamplePack p recordList source = .ok fs ∧
    fs.records = recordList.data ∧
      (ntohl p.endian fs.sfsCount).toNat = recordList.data.length ∧
        fs.Visits p m recordList.data

theorem packsCounter_of_lt {recordList : SflowDataList (SflowCr p)} (h : recordList.WellFormed)
    (hlen : recordList.data.length < 2 ^ 32) (src : SflowSource) :
    PacksCounter src recordList where
  emptied := h.emptiedBy_drain
  slots := by
    obtain ⟨rest, hdrain, -, hfree⟩ := h.emptiedBy_drain
    have hcount : (ntohl p.endian (htonl p.endian (UInt32.ofNat recordList.sdlCount))).toNat =
        recordList.data.length := by
      rw [ntohl_htonl, h.count_eq, UInt32.toNat_ofNat']
      exact Nat.mod_eq_of_lt hlen
    rw [sflowCounterSamplePack, hdrain]
    simp only [ok_bind, hfree, pure_eq_ok]
    exact ⟨_, rfl, rfl, hcount⟩

/-- A flow sample is flattened record by record. -/
theorem SflowFs.visits {fs : SflowFs R}
    (hcount : (ntohl p.endian fs.sfsCount).toNat = fs.records.length) (m : Memory R) :
    fs.Visits p m fs.records := by
  intro wire hwire hstarts
  have hlen : 32 = (fs.header p).length := by simp [header]
  refine (Emits.headerSlots (fs.header p) hlen hcount hstarts hwire).congr fun buf start ↦ ?_
  simp only [sflowFlowSampleFlat, sizeof_sflowFsT, header]

theorem packsFlow_iff {recordList : SflowDataList (SflowFr R)} (h : recordList.WellFormed)
    (m : Memory R) (source : SflowSource) :
    PacksFlow p m source recordList ↔ recordList.data.length ≤ 1 := by
  rw [← h.emptiedBy_drainLive]
  refine ⟨fun hpacks ↦ hpacks.emptied, fun hempties ↦ ⟨hempties, ?_⟩⟩
  have hone := h.emptiedBy_drainLive.mp hempties
  obtain ⟨rest, hdrain, -, hfree⟩ := hempties
  have hcount : (ntohl p.endian (htonl p.endian (UInt32.ofNat recordList.sdlCount))).toNat =
      recordList.data.length := by
    rw [ntohl_htonl, h.count_eq, UInt32.toNat_ofNat']
    exact Nat.mod_eq_of_lt (Nat.lt_of_le_of_lt hone (by decide))
  rw [sflowFlowSamplePack, hdrain]
  simp only [ok_bind, hfree, pure_eq_ok]
  refine ⟨_, rfl, rfl, hcount, ?_⟩
  apply SflowFs.visits
  exact hcount

/-- For two lists with as many records, both packers keep them all, and in order, exactly if there
is one record at most. -/
theorem packsAlike_iff {flowList : SflowDataList (SflowFr R)}
    {counterList : SflowDataList (SflowCr p)} (hflow : flowList.WellFormed)
    (hcounter : counterList.WellFormed) (hlen : flowList.data.length = counterList.data.length)
    (m : Memory R) (source : SflowSource) :
    PacksFlow p m source flowList ∧ PacksCounter source counterList ↔
      flowList.data.length ≤ 1 := by
  rw [packsFlow_iff hflow]
  refine ⟨fun h ↦ h.1, fun hone ↦ ⟨hone, packsCounter_of_lt hcounter ?_ source⟩⟩
  omega

/-- A record of a packet of four bytes, for examples. -/
def SflowFr.short : SflowFr Unit :=
  ⟨htonl .little (sflowSetDataformat 0 0 1), htonl .little 20,
    ⟨htonl .little 1, htonl .little 4, 0, htonl .little 4, ()⟩⟩

/-- The list with the sample's only record. -/
theorem packsAlike_iff_one :
    let flowList := SflowDataList.ofRecords [SflowFr.short]
    let counterList := SflowDataList.ofRecords [(⟨0, 0, none⟩ : SflowCr .amd64)]
    PacksFlow .amd64 ⟨fun _ => [1, 2, 3, 4], fun _ => .ok⟩ .net0 flowList ∧
      PacksCounter .net0 counterList := by
  intro flowList counterList
  have hlen : flowList.data.length = counterList.data.length := by simp [flowList, counterList]
  refine (packsAlike_iff (SflowDataList.wellFormed_ofRecords _)
    (SflowDataList.wellFormed_ofRecords _) hlen _ _).mpr ?_
  simp

/-- Of two records the first is put into a sample, and the second one stops the daemon. -/
theorem not_packsFlow_two :
    let recordList := SflowDataList.ofRecords [SflowFr.short, .short]
    sflowFlowSamplePack .amd64 recordList .net0 = .error .assertFailed ∧
      ¬ PacksFlow .amd64 ⟨fun _ => [1, 2, 3, 4], fun _ => .ok⟩ .net0 recordList := by
  intro recordList
  refine ⟨rfl, fun h ↦ ?_⟩
  obtain ⟨fs, hfs, -⟩ := h.slots
  cases hfs

end Sflow

import Mathlib.Algebra.Ring.Int.Defs
import Sflow.DataList
import Sflow.Run.Basic

/-!
# The size that a counted list carries

`sdl_data_size` is one `int` with two uses: it is the sum of the sizes of the
nodes present, and, once a node has come whose data knows its own size, it is the
marker `CHECK_DATA`.  `sflow_data_list_read` leaves the marker alone.
`sflow_data_list_append` does not look for it and adds to it, so a list keeps its
marker only as long as no node with a size comes after the marked one.

Here the count is the `uint32_t` and the size the `int` of the code, where `Sflow.DataList`
counts in numbers.
-/

namespace Sflow.Sized

open C

variable {α : Type}

/-- What an `int` keeps of a sum: the low 32 bits in two's complement. -/
def asInt (x : Int) : Int := x.bmod 4294967296

theorem asInt_eq {x : Int} (hlow : -2147483648 ≤ x) (hhigh : x < 2147483648) : asInt x = x := by
  apply Int.bmod_eq_of_le <;> omega

theorem asInt_lt (x : Int) : asInt x < 2147483648 := Int.bmod_lt (x := x) (by decide)

/-- `sflow_data_list_t` with the widths of its fields. -/
structure SflowDataList (α : Type) where
  sdlCount : UInt32
  sdlDataSize : Int
  sdlList : List (SflowDataListNode α)
deriving DecidableEq, Repr

def sflowDataListCreate : SflowDataList α := ⟨0, 0, []⟩

def sflowDataListAppend (list : SflowDataList α) (node : SflowDataListNode α) :
    SflowDataList α where
  sdlCount := list.sdlCount + 1
  sdlDataSize :=
    if node.sdlnDataSize = checkData then checkData
    else asInt (list.sdlDataSize + node.sdlnDataSize)
  sdlList := list.sdlList ++ [node]

def sflowDataListRead (list : SflowDataList α) :
    Except Fault (SflowDataListNode α × SflowDataList α) :=
  if 0 < list.sdlCount then
    match list.sdlList with
    | [] => .error .nullDeref
    | node :: rest => .ok (node,
        { sdlCount := list.sdlCount - 1
          sdlDataSize :=
            if list.sdlDataSize = checkData then list.sdlDataSize
            else asInt (list.sdlDataSize - node.sdlnDataSize)
          sdlList := rest })
  else .error .assertFailed

theorem toNat_add_one {count : UInt32} (h : count.toNat + 1 < 4294967296) :
    (count + 1).toNat = count.toNat + 1 := by
  rw [UInt32.toNat_add]
  exact Nat.mod_eq_of_lt h

theorem toNat_sub_one {count : UInt32} (h : 0 < count) :
    (count - 1).toNat = count.toNat - 1 :=
  UInt32.toNat_sub_of_le count 1 (UInt32.le_iff_toNat_le.mpr (UInt32.lt_iff_toNat_lt.mp h))

/-! ## A list and its history -/

/-- A node as the list gets it: its size is left to the data, or a size that an `int` holds. -/
structure Node (α : Type) extends SflowDataListNode α where
  size_ok : sdlnDataSize = checkData ∨ 0 ≤ sdlnDataSize ∧ sdlnDataSize < 2147483648

/-- A list with all the nodes that were ever appended to it and all that were read. -/
structure History (α : Type) where
  list : SflowDataList α
  appended : List (SflowDataListNode α)
  readOut : List (SflowDataListNode α)

inductive Op (α : Type) where
  | append (node : Node α)
  | read

/-- The list just made. -/
def start : History α := ⟨sflowDataListCreate, [], []⟩

/-- One operation; a read is made only where `sdl_count` is not zero. -/
def step (s : History α) : Op α → Option (History α)
  | .append node =>
      some ⟨sflowDataListAppend s.list node.toSflowDataListNode,
        s.appended ++ [node.toSflowDataListNode], s.readOut⟩
  | .read =>
      match sflowDataListRead s.list with
      | .ok (node, list) => some ⟨list, s.appended, s.readOut ++ [node]⟩
      | .error _ => none

/-- A node whose size is left to its data is among them. -/
def Marked (nodes : List (SflowDataListNode α)) : Prop :=
  checkData ∈ nodes.map (·.sdlnDataSize)

instance (nodes : List (SflowDataListNode α)) : Decidable (Marked nodes) :=
  inferInstanceAs (Decidable (checkData ∈ nodes.map (·.sdlnDataSize)))

/-- The sum of the sizes. -/
def sizes (nodes : List (SflowDataListNode α)) : Int := (nodes.map (·.sdlnDataSize)).sum

/-- What the count and the size are for: the nodes come out in the order they went in, the count
is the number of nodes present, the size the marker or their sum. -/
structure Counted (s : History α) : Prop where
  fifo : s.readOut ++ s.list.sdlList = s.appended
  count : s.list.sdlCount.toNat = s.list.sdlList.length
  marked : Marked s.appended → s.list.sdlDataSize = checkData
  sum : ¬ Marked s.appended → s.list.sdlDataSize = sizes s.list.sdlList

/-- The operation keeps within the list: the count has room for one more node, and a node with a
size comes to a list without a marker whose sum has room for it, or else its size is zero. -/
def Fits (s : History α) : Op α → Prop
  | .append node =>
      s.list.sdlList.length + 1 < 4294967296 ∧
        (node.sdlnDataSize = checkData ∨
          Marked s.appended ∧ node.sdlnDataSize = 0 ∨
          ¬ Marked s.appended ∧ sizes s.list.sdlList + node.sdlnDataSize < 2147483648)
  | .read => True

instance (s : History α) : (op : Op α) → Decidable (Fits s op)
  | .append node =>
      inferInstanceAs (Decidable (s.list.sdlList.length + 1 < 4294967296 ∧
        (node.sdlnDataSize = checkData ∨
          Marked s.appended ∧ node.sdlnDataSize = 0 ∨
          ¬ Marked s.appended ∧ sizes s.list.sdlList + node.sdlnDataSize < 2147483648)))
  | .read => inferInstanceAs (Decidable True)

theorem marked_append {nodes : List (SflowDataListNode α)} {node : SflowDataListNode α} :
    Marked (nodes ++ [node]) ↔ Marked nodes ∨ node.sdlnDataSize = checkData := by
  rw [Marked, Marked, List.map_append, List.mem_append, List.map_singleton,
    List.mem_singleton, eq_comm (a := checkData)]

theorem not_marked_append {nodes : List (SflowDataListNode α)} {node : SflowDataListNode α}
    (hnodes : ¬ Marked nodes) (hnode : node.sdlnDataSize ≠ checkData) :
    ¬ Marked (nodes ++ [node]) := by
  rw [marked_append]
  rintro (h | h)
  · exact hnodes h
  · exact hnode h

theorem sizes_append (nodes : List (SflowDataListNode α)) (node : SflowDataListNode α) :
    sizes (nodes ++ [node]) = sizes nodes + node.sdlnDataSize := by
  simp [sizes]

theorem sizes_cons (node : SflowDataListNode α) (nodes : List (SflowDataListNode α)) :
    sizes (node :: nodes) = node.sdlnDataSize + sizes nodes := rfl

theorem sizes_nonneg {nodes : List (SflowDataListNode α)}
    (h : ∀ node ∈ nodes, 0 ≤ node.sdlnDataSize) : 0 ≤ sizes nodes := by
  induction nodes with
  | nil => exact Int.le_refl 0
  | cons node nodes ih =>
      rw [sizes_cons]
      have hnode := h node List.mem_cons_self
      have hnodes := ih fun m hm ↦ h m (List.mem_cons_of_mem _ hm)
      omega

/-! ## What one operation keeps -/

/-- A counted list whose sum an `int` holds, made of nodes with the sizes they may have. -/
structure Kept (s : History α) : Prop extends Counted s where
  nonneg : ¬ Marked s.appended → ∀ node ∈ s.appended, 0 ≤ node.sdlnDataSize
  bound : ¬ Marked s.appended → sizes s.list.sdlList < 2147483648

theorem Counted.mem_appended {s : History α} (h : Counted s) {node : SflowDataListNode α}
    (hnode : node ∈ s.list.sdlList) : node ∈ s.appended := by
  rw [← h.fifo]
  exact List.mem_append_right _ hnode

theorem Kept.sizes_nonneg {s : History α} (h : Kept s) (hmarked : ¬ Marked s.appended) :
    0 ≤ sizes s.list.sdlList :=
  Sized.sizes_nonneg fun node hnode ↦ h.nonneg hmarked node (h.mem_appended hnode)

theorem kept_start : Kept (start : History α) where
  fifo := rfl
  count := rfl
  marked h := absurd h List.not_mem_nil
  sum _ := rfl
  nonneg _ node hnode := absurd hnode List.not_mem_nil
  bound _ := show (0 : Int) < 2147483648 by decide

/-- The size after a node with a size has been appended. -/
theorem sdlDataSize_append {list : SflowDataList α} {node : SflowDataListNode α}
    (h : node.sdlnDataSize ≠ checkData) :
    (sflowDataListAppend list node).sdlDataSize =
      asInt (list.sdlDataSize + node.sdlnDataSize) :=
  if_neg h

theorem Node.nonneg (node : Node α) (h : node.sdlnDataSize ≠ checkData) :
    0 ≤ node.sdlnDataSize := (node.size_ok.resolve_left h).1

theorem Node.lt (node : Node α) : node.sdlnDataSize < 2147483648 := by
  rcases node.size_ok with h | h
  · rw [h]
    decide
  · exact h.2

/-- What fits and leaves the list without a marker is a size that its sum has room for. -/
theorem Fits.of_not_marked {s : History α} {node : Node α} (h : Fits s (.append node))
    (hmarked : ¬ Marked (s.appended ++ [node.toSflowDataListNode])) :
    ¬ Marked s.appended ∧ node.sdlnDataSize ≠ checkData ∧
      sizes s.list.sdlList + node.sdlnDataSize < 2147483648 := by
  rw [marked_append, not_or] at hmarked
  obtain ⟨hold, hne⟩ := hmarked
  rcases h.2 with hmark | ⟨hold', -⟩ | ⟨-, hroom⟩
  · exact absurd hmark hne
  · exact absurd hold' hold
  · exact ⟨hold, hne, hroom⟩

/-- What fits and leaves a list with a marker leaves it in its place. -/
theorem Kept.sdlDataSize_of_marked {s : History α} (h : Kept s) {node : Node α}
    (hfits : Fits s (.append node))
    (hmarked : Marked (s.appended ++ [node.toSflowDataListNode])) :
    (sflowDataListAppend s.list node.toSflowDataListNode).sdlDataSize = checkData := by
  rcases hfits.2 with hnode | ⟨hold, hnode⟩ | ⟨hold, -⟩
  · exact if_pos hnode
  · have hne : node.sdlnDataSize ≠ checkData := by
      rw [hnode]
      decide
    rw [sdlDataSize_append hne, h.marked hold, hnode]
    rfl
  · rcases marked_append.mp hmarked with hold' | hnode
    · exact absurd hold' hold
    · exact if_pos hnode

/-- Where an append fits, it keeps the size what it is for. -/
theorem Kept.append {s : History α} (h : Kept s) (node : Node α) (hfits : Fits s (.append node)) :
    Kept ⟨sflowDataListAppend s.list node.toSflowDataListNode,
      s.appended ++ [node.toSflowDataListNode], s.readOut⟩ := by
  refine ⟨⟨?_, ?_, h.sdlDataSize_of_marked hfits, ?_⟩, ?_, ?_⟩
  · rw [← h.fifo, List.append_assoc]
    rfl
  · rw [show (sflowDataListAppend s.list node.toSflowDataListNode).sdlCount =
      s.list.sdlCount + 1 from rfl, toNat_add_one (by rw [h.count]; exact hfits.1), h.count]
    exact (List.length_append : (s.list.sdlList ++ [node.toSflowDataListNode]).length = _).symm
  · intro hmarked
    obtain ⟨hold, hne, hroom⟩ := hfits.of_not_marked hmarked
    have hnonneg := h.sizes_nonneg hold
    have hnode := node.nonneg hne
    rw [sdlDataSize_append hne, h.sum hold, asInt_eq (by omega) hroom]
    exact (sizes_append _ _).symm
  · intro hmarked m hm
    obtain ⟨hold, hne, -⟩ := hfits.of_not_marked hmarked
    rcases List.mem_append.mp hm with hm | hm
    · exact h.nonneg hold m hm
    · rw [List.mem_singleton.mp hm]
      exact node.nonneg hne
  · intro hmarked
    obtain ⟨-, -, hroom⟩ := hfits.of_not_marked hmarked
    exact lt_of_eq_of_lt (sizes_append _ _) hroom

/-- Where an append does not fit, the count or the size is no longer what it is for. -/
theorem Kept.not_counted_append {s : History α} (h : Kept s) (node : Node α)
    (hfits : ¬ Fits s (.append node)) :
    ¬ Counted ⟨sflowDataListAppend s.list node.toSflowDataListNode,
      s.appended ++ [node.toSflowDataListNode], s.readOut⟩ := by
  intro hcounted
  apply hfits
  constructor
  · have hlen : s.list.sdlList.length + 1 = (s.list.sdlCount + 1).toNat :=
      (List.length_append : (s.list.sdlList ++ [node.toSflowDataListNode]).length = _).symm.trans
        hcounted.count.symm
    rw [hlen]
    exact UInt32.toNat_lt _
  · by_cases hne : node.sdlnDataSize = checkData
    · exact Or.inl hne
    have hnode := node.nonneg hne
    have hlt := node.lt
    by_cases hold : Marked s.appended
    · -- the marker plus a size is the marker only for size zero
      have hmark := hcounted.marked (marked_append.mpr (Or.inl hold))
      rw [sdlDataSize_append hne, h.marked hold, checkData, asInt_eq (by omega) (by omega)]
        at hmark
      exact Or.inr (Or.inl ⟨hold, by omega⟩)
    · have hsum := hcounted.sum (not_marked_append hold hne)
      rw [sdlDataSize_append hne, h.sum hold] at hsum
      have hint := asInt_lt (sizes s.list.sdlList + node.sdlnDataSize)
      rw [hsum] at hint
      exact Or.inr (Or.inr ⟨hold, lt_of_eq_of_lt (sizes_append _ _).symm hint⟩)

/-- A read of a counted list that holds a node does not fault. -/
theorem Counted.read {s : History α} (h : Counted s) (hpos : 0 < s.list.sdlCount) :
    ∃ node list, sflowDataListRead s.list = .ok (node, list) := by
  obtain ⟨⟨count, size, nodes⟩, appended, readOut⟩ := s
  cases nodes with
  | nil => exact absurd h.count (Nat.ne_of_gt (UInt32.lt_iff_toNat_lt.mp hpos))
  | cons node rest => exact ⟨node, _, if_pos hpos⟩

/-- What a read that does not fault gives. -/
theorem sflowDataListRead_eq_ok {list list' : SflowDataList α} {node : SflowDataListNode α}
    (h : sflowDataListRead list = .ok (node, list')) :
    0 < list.sdlCount ∧ list.sdlList = node :: list'.sdlList ∧
      list'.sdlCount = list.sdlCount - 1 ∧
      list'.sdlDataSize = if list.sdlDataSize = checkData then list.sdlDataSize
        else asInt (list.sdlDataSize - node.sdlnDataSize) := by
  obtain ⟨count, size, nodes⟩ := list
  rw [sflowDataListRead] at h
  split at h
  next hpos =>
    cases nodes with
    | nil => cases h
    | cons head rest =>
        cases h
        exact ⟨hpos, rfl, rfl, rfl⟩
  next => cases h

/-- Every read keeps the size what it is for. -/
theorem Kept.read {s : History α} (h : Kept s) {node : SflowDataListNode α}
    {list : SflowDataList α} (hread : sflowDataListRead s.list = .ok (node, list)) :
    Kept ⟨list, s.appended, s.readOut ++ [node]⟩ := by
  obtain ⟨hpos, hlist, hcount, hsize⟩ := sflowDataListRead_eq_ok hread
  have hmem : node ∈ s.appended := h.mem_appended (by rw [hlist]; exact List.mem_cons_self)
  have hsizes : sizes s.list.sdlList = node.sdlnDataSize + sizes list.sdlList := by
    rw [hlist, sizes_cons]
  refine ⟨⟨?_, ?_, ?_, ?_⟩, h.nonneg, ?_⟩
  · rw [← h.fifo, hlist, List.append_assoc]
    rfl
  · rw [hcount, toNat_sub_one hpos, h.count, hlist]
    rfl
  · intro hmarked
    rw [hsize, h.marked hmarked, if_pos rfl]
  · intro hmarked
    have hnonneg := h.sizes_nonneg hmarked
    have hnode := h.nonneg hmarked node hmem
    have hbound := h.bound hmarked
    have hrest : 0 ≤ sizes list.sdlList := Sized.sizes_nonneg fun m hm ↦
      h.nonneg hmarked m (h.mem_appended (by rw [hlist]; exact List.mem_cons_of_mem _ hm))
    have hne : sizes s.list.sdlList ≠ checkData := by
      rw [checkData]
      omega
    rw [hsize, h.sum hmarked, if_neg hne, asInt_eq (by omega) (by omega), hsizes,
      Int.add_comm, Int.add_sub_cancel]
  · intro hmarked
    have hbound := h.bound hmarked
    have hnode := h.nonneg hmarked node hmem
    show sizes list.sdlList < 2147483648
    omega

/-- The operations that fit keep it. -/
theorem Kept.step {s s' : History α} {op : Op α} (h : Kept s) (hfits : Fits s op)
    (hstep : step s op = some s') : Kept s' := by
  cases op with
  | append node =>
      cases hstep
      exact h.append node hfits
  | read =>
      rw [Sized.step] at hstep
      split at hstep
      next node list hread =>
        cases hstep
        exact h.read hread
      next => cases hstep

/-! ## Whole runs -/

/-- A list is counted after every operation exactly if every operation fits. -/
theorem counted_iff_meets_fits (ops : List (Op α)) :
    (∀ pre, pre <+: ops → ∀ s, Run.run step start pre = some s → Counted s) ↔
      Run.Meets step Fits start ops := by
  refine Run.meets_iff_forall_prefix (fun s (hs : Kept s) ↦ hs.toCounted)
    (fun s op s' hs hfits hstep ↦ hs.step hfits hstep) (fun s op hs hfits ↦ ?_) kept_start
  cases op with
  | append node => exact ⟨_, rfl, hs.not_counted_append node hfits⟩
  | read => exact absurd trivial hfits

/-- The append adds to the marker: a node of size five after a marked one leaves a size of four. -/
theorem not_counted_sized_after_marked :
    ∃ s : History Unit, Run.run step start
        [.append ⟨⟨(), checkData⟩, Or.inl rfl⟩, .append ⟨⟨(), 5⟩, Or.inr ⟨by decide, by decide⟩⟩] =
      some s ∧ s.list.sdlDataSize = 4 ∧ ¬ Counted s := by
  refine ⟨_, rfl, by decide, fun h ↦ ?_⟩
  have hmark := h.marked (by decide)
  revert hmark
  decide

end Sflow.Sized

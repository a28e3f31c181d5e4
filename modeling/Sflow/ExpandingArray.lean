import Sflow.C.Buffer

/-!
# Expanding arrays

`expanding_array.c`: an array of pointers that doubles its capacity until an index
fits.  The capacity is the number of slots.
-/

namespace Sflow

open C

variable {α : Type}

structure ExpandingArray (α : Type) where
  eaArray : List (Option α)
deriving DecidableEq, Repr

def initSize : Nat := 8

def expandingArrayCreate : ExpandingArray α := ⟨List.replicate initSize none⟩

/-- `while (index >= arr->ea_capacity) arr->ea_capacity *= 2;`, for a number of rounds. -/
def doubled : Nat → Nat → Nat → Nat
  | 0, _, eaCapacity => eaCapacity
  | rounds + 1, index, eaCapacity =>
      if eaCapacity ≤ index then doubled rounds index (eaCapacity * 2) else eaCapacity

/-- Grows the array by empty slots if it has to, and stores the pointer. -/
def expandingArraySet (arr : ExpandingArray α) (index : Nat) (pdata : Option α) :
    ExpandingArray α :=
  let eaCapacity := doubled (index + 1) index arr.eaArray.length
  ⟨(arr.eaArray ++ List.replicate (eaCapacity - arr.eaArray.length) none).set index pdata⟩

def expandingArrayGet (arr : ExpandingArray α) (index : Nat) : Except Fault (Option α) :=
  match arr.eaArray[index]? with
  | none => .error .assertFailed
  | some pdata => .ok pdata

/-- The pointer stored at an index, and `NULL` beyond the capacity. -/
def ExpandingArray.slot (arr : ExpandingArray α) (index : Nat) : Option α :=
  arr.eaArray[index]?.join

theorem le_doubled (rounds index eaCapacity : Nat) :
    eaCapacity ≤ doubled rounds index eaCapacity := by
  induction rounds generalizing eaCapacity with
  | zero => exact Nat.le_refl _
  | succ rounds ih =>
      rw [doubled]
      split
      · exact Nat.le_trans (Nat.le_mul_of_pos_right _ Nat.two_pos) (ih _)
      · exact Nat.le_refl _

/-- Every round adds a slot at least. -/
theorem lt_doubled {rounds index eaCapacity : Nat} (hpos : 0 < eaCapacity)
    (h : index < eaCapacity + rounds) : index < doubled rounds index eaCapacity := by
  induction rounds generalizing eaCapacity with
  | zero => exact h
  | succ rounds ih =>
      rw [doubled]
      split
      · exact ih (by omega) (by omega)
      · rename_i hlt
        exact Nat.lt_of_not_le hlt

/-- Growing fills no slot. -/
theorem slot_append_replicate (arr : ExpandingArray α) (n i : Nat) :
    (arr.eaArray ++ List.replicate n none)[i]?.join = arr.slot i := by
  rw [ExpandingArray.slot, List.getElem?_append, List.getElem?_replicate]
  split
  · rfl
  · rename_i h
    rw [List.getElem?_eq_none (Nat.le_of_not_lt h)]
    split <;> rfl

theorem length_expandingArraySet (arr : ExpandingArray α) (index : Nat) (pdata : Option α) :
    (expandingArraySet arr index pdata).eaArray.length =
      doubled (index + 1) index arr.eaArray.length := by
  have hle := le_doubled (index + 1) index arr.eaArray.length
  rw [expandingArraySet, List.length_set, List.length_append, List.length_replicate]
  omega

/-- The capacity is never zero, and never goes down. -/
theorem length_expandingArraySet_pos {arr : ExpandingArray α} (hpos : 0 < arr.eaArray.length)
    (index : Nat) (pdata : Option α) : 0 < (expandingArraySet arr index pdata).eaArray.length := by
  rw [length_expandingArraySet]
  exact Nat.lt_of_lt_of_le hpos (le_doubled _ _ _)

/-- Storing `NULL` empties one slot, and growing fills none. -/
theorem slot_expandingArraySet_none (arr : ExpandingArray α) (index i : Nat) :
    (expandingArraySet arr index none).slot i = if i = index then none else arr.slot i := by
  rw [expandingArraySet, ExpandingArray.slot]
  by_cases h : i = index
  · rw [if_pos h, ← h, List.getElem?_set_self']
    cases (arr.eaArray ++ List.replicate _ none)[i]? <;> rfl
  · rw [if_neg h, List.getElem?_set_ne (Ne.symm h), slot_append_replicate]

/-- Storing a pointer changes one slot. -/
theorem slot_expandingArraySet {arr : ExpandingArray α} (hpos : 0 < arr.eaArray.length)
    (index : Nat) (pdata : Option α) (i : Nat) :
    (expandingArraySet arr index pdata).slot i = if i = index then pdata else arr.slot i := by
  by_cases h : i = index
  · have hlt : index < (expandingArraySet arr index pdata).eaArray.length := by
      rw [length_expandingArraySet]
      exact lt_doubled hpos (by omega)
    rw [if_pos h, h, ExpandingArray.slot, List.getElem?_eq_getElem hlt]
    simp [expandingArraySet]
  · rw [if_neg h, expandingArraySet, ExpandingArray.slot, List.getElem?_set_ne (Ne.symm h),
      slot_append_replicate]

/-- A slot in use is within the capacity. -/
theorem ExpandingArray.lt_length_of_slot {arr : ExpandingArray α} {i : Nat} {a : α}
    (h : arr.slot i = some a) : i < arr.eaArray.length := by
  by_contra hle
  rw [slot, List.getElem?_eq_none (Nat.le_of_not_lt hle)] at h
  cases h

theorem expandingArrayGet_eq_ok {arr : ExpandingArray α} {i : Nat} (h : i < arr.eaArray.length) :
    expandingArrayGet arr i = .ok (arr.slot i) := by
  rw [expandingArrayGet, ExpandingArray.slot, List.getElem?_eq_getElem h]
  rfl

@[simp] theorem slot_expandingArrayCreate (i : Nat) :
    (expandingArrayCreate : ExpandingArray α).slot i = none := by
  rw [ExpandingArray.slot, expandingArrayCreate, List.getElem?_replicate]
  split <;> rfl

end Sflow

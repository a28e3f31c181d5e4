import Mathlib.Data.List.Induction
import Sflow.C.Heap
import Sflow.ExpandingArray

/-!
# The memory of an expanding array

`expanding_array.c` at the level of its memory: a capacity that is an `int`, and a
block of `ea_capacity` pointers, of which `realloc` leaves the new ones holding
anything at all until `memset` clears them.  Sizes are computed as `size_t`.  As long
as the indices stay below 2²⁸ no computation leaves its type, and the block is the
row of the slots of `Sflow.ExpandingArray` (`Represents`).
-/

namespace Sflow

open C

/-- What can go wrong in `expanding_array_set`. -/
inductive SetFault where
  /-- `ea_capacity *= 2` leaves the range of an `int`. -/
  | overflow
  /-- The loop does not end. -/
  | endless
  | memory (fault : Fault)
deriving DecidableEq, Repr

section Code

variable (abi : Abi)

/-- A pointer as it lies in memory. -/
abbrev Pointer := Vector UInt8 abi.psize

def null : Pointer abi := Vector.replicate abi.psize 0

/-- A number as a `size_t` holds it. -/
def sizeT (x : Int) : Nat := (x % (2 ^ (8 * abi.psize) : Nat)).toNat

/-- `expanding_array_t` without its two methods. -/
structure ExpandingArrayBuf where
  eaCapacity : Int
  eaArray : Buf
deriving DecidableEq, Repr

/-- `memset(b + off, 0, n)`. -/
def clear (b : Buf) (off n : Nat) : Except Fault Buf := b.memcpy off (List.replicate n 0)

/-- What `malloc` returns holds `fresh`. -/
def expandingArrayCreateBuf (fresh : Nat → UInt8) : Except Fault ExpandingArrayBuf := do
  let eaCapacity : Int := initSize
  let eaArray : Buf := ⟨(List.range (sizeT abi (abi.psize * eaCapacity))).map fresh, []⟩
  let eaArray ← clear eaArray 0 (sizeT abi (eaCapacity * abi.psize))
  return ⟨eaCapacity, eaArray⟩

/-- `while (index >= arr->ea_capacity) arr->ea_capacity *= 2;`.  A capacity that is not zero leaves
the range of an `int` in fewer rounds than it has bits, so 32 rounds tell whether the loop ends. -/
def growCapacity : Nat → Int → Int → Except SetFault Int
  | 0, _, _ => .error .endless
  | rounds + 1, index, eaCapacity =>
      if eaCapacity ≤ index then
        if -2147483648 ≤ eaCapacity * 2 ∧ eaCapacity * 2 < 2147483648 then
          growCapacity rounds index (eaCapacity * 2)
        else .error .overflow
      else .ok eaCapacity

/-- Behind what `realloc` keeps lies `fresh`. -/
def expandingArraySetBuf (arr : ExpandingArrayBuf) (index : Int) (pdata : Pointer abi)
    (fresh : Nat → UInt8) : Except SetFault ExpandingArrayBuf := do
  let oldCap : Int := sizeT abi arr.eaCapacity
  let eaCapacity ← growCapacity 32 index arr.eaCapacity
  let eaArray :=
    if arr.eaCapacity ≤ index then arr.eaArray.realloc (sizeT abi (eaCapacity * abi.psize)) fresh
    else arr.eaArray
  let eaArray ← (clear eaArray (sizeT abi (oldCap * abi.psize))
    (sizeT abi ((eaCapacity - oldCap) * abi.psize))).mapError .memory
  let eaArray ← (eaArray.memcpy (sizeT abi (index * abi.psize)) pdata.toList).mapError .memory
  return ⟨eaCapacity, eaArray⟩

def expandingArrayGetBuf (arr : ExpandingArrayBuf) (index : Int) : Except Fault (List UInt8) :=
  if index < arr.eaCapacity then arr.eaArray.readAt ⟨sizeT abi (index * abi.psize), abi.psize⟩
  else .error .assertFailed

/-- A call of `expanding_array_set`, with what `realloc` leaves behind the block in it. -/
structure SetCall where
  index : Nat
  pdata : Pointer abi
  fresh : Nat → UInt8
  index_lt : index < 268435456

/-- The calls one after the other on a fresh array. -/
def expandingArrayRun (fresh : Nat → UInt8) (calls : List (SetCall abi)) :
    Except SetFault ExpandingArrayBuf := do
  let arr ← (expandingArrayCreateBuf abi fresh).mapError .memory
  calls.foldlM (fun arr c => expandingArraySetBuf abi arr c.index c.pdata c.fresh) arr

/-- What the array is for: the pointer of the last call at an index, `NULL` if there was none. -/
def stored (calls : List (SetCall abi)) (i : Nat) : Pointer abi :=
  match calls.reverse.find? (fun c => c.index = i) with
  | some c => c.pdata
  | none => null abi

/-- The array is a total map after these calls: nothing has left its type, the capacity is eight
times a power of two above every index, and below it every pointer is the one last stored. -/
structure TotalMap (calls : List (SetCall abi)) (arr : ExpandingArrayBuf) : Prop where
  capacity : ∃ k, arr.eaCapacity = (8 * 2 ^ k : Nat)
  fitsInt : arr.eaCapacity < 2147483648
  fitsSize : arr.eaCapacity * abi.psize < (2 ^ (8 * abi.psize) : Nat)
  covers : ∀ c ∈ calls, (c.index : Int) < arr.eaCapacity
  get : ∀ i : Nat, (i : Int) < arr.eaCapacity →
    expandingArrayGetBuf abi arr i = .ok (stored abi calls i).toList

/-- The bytes of a slot; an empty one holds `NULL`. -/
def slotBytes (pdata : Option (Pointer abi)) : List UInt8 := (pdata.getD (null abi)).toList

/-- The capacity counts the slots, and the block is the row of them. -/
structure Represents (arr : ExpandingArrayBuf) (a : ExpandingArray (Pointer abi)) : Prop where
  capacity : arr.eaCapacity = a.eaArray.length
  data : arr.eaArray.data = (a.eaArray.map (slotBytes abi)).flatten

end Code

/-! ## Sizes -/

section Sizes

variable {abi : Abi}

theorem sizeT_natCast {n : Nat} (h : n < 2 ^ (8 * abi.psize)) : sizeT abi n = n := by
  rw [sizeT, ← Int.natCast_emod, Int.toNat_natCast, Nat.mod_eq_of_lt h]

/-- 2²⁸ pointers fit in a `size_t`. -/
theorem mul_psize_lt {n : Nat} (h : n ≤ 268435456) : n * abi.psize < 2 ^ (8 * abi.psize) := by
  rcases abi.psize_eq with hp | hp <;> rw [hp] <;> omega

theorem sizeT_mul {n : Nat} (h : n ≤ 268435456) :
    sizeT abi (n * abi.psize : Int) = n * abi.psize := by
  rw [← Int.natCast_mul]
  exact sizeT_natCast (mul_psize_lt h)

theorem sizeT_capacity {n : Nat} (h : n ≤ 268435456) : sizeT abi n = n := by
  have hpos : 0 < abi.psize := by
    rcases abi.psize_eq with hp | hp <;> rw [hp] <;> decide
  exact sizeT_natCast (Nat.lt_of_le_of_lt (Nat.le_mul_of_pos_right n hpos) (mul_psize_lt h))

@[simp] theorem length_slotBytes (pdata : Option (Pointer abi)) :
    (slotBytes abi pdata).length = abi.psize := Vector.length_toList

@[simp] theorem slotBytes_none : slotBytes abi none = List.replicate abi.psize 0 :=
  Vector.toList_replicate

theorem length_flatten_slots (slots : List (Option (Pointer abi))) :
    (slots.map (slotBytes abi)).flatten.length = slots.length * abi.psize := by
  induction slots with
  | nil => rw [List.map_nil, List.flatten_nil, List.length_nil, List.length_nil, Nat.zero_mul]
  | cons slot slots ih =>
      rw [List.map_cons, List.flatten_cons, List.length_append, ih, length_slotBytes,
        List.length_cons, Nat.succ_mul, Nat.add_comm]

/-- A slot begins where the slots in front of it end. -/
theorem partOff_slots {slots : List (Option (Pointer abi))} {i : Nat} (h : i ≤ slots.length) :
    partOff (slots.map (slotBytes abi)) i = i * abi.psize := by
  rw [partOff, ← List.map_take, length_flatten_slots, List.length_take, Nat.min_eq_left h]

theorem flatten_replicate_none (n : Nat) :
    ((List.replicate n none).map (slotBytes abi)).flatten = List.replicate (n * abi.psize) 0 := by
  rw [List.map_replicate, slotBytes_none, List.flatten_replicate_replicate]

end Sizes

/-! ## The capacity -/

/-- Doubling a power of two below 2²⁸ while an index below 2²⁸ does not fit ends in such a power. -/
theorem exists_doubled (rounds : Nat) {index k : Nat} (hindex : index < 268435456) (hk : k ≤ 28) :
    ∃ j, k ≤ j ∧ j ≤ 28 ∧ doubled rounds index (2 ^ k) = 2 ^ j := by
  induction rounds generalizing k with
  | zero => exact ⟨k, Nat.le_refl k, hk, rfl⟩
  | succ rounds ih =>
      rw [doubled]
      split
      next hle =>
        have hlt : 2 ^ k < 2 ^ 28 := Nat.lt_of_le_of_lt hle hindex
        have hk' : k < 28 := (Nat.pow_lt_pow_iff_right (by decide)).mp hlt
        obtain ⟨j, hj, hj', heq⟩ := ih (Nat.succ_le_of_lt hk')
        exact ⟨j, Nat.le_of_succ_le hj, hj', heq⟩
      next => exact ⟨k, Nat.le_refl k, hk, rfl⟩

/-- With rounds enough for both, the loop over an `int` computes what the one over numbers does. -/
theorem growCapacity_eq {rounds rounds' index eaCapacity : Nat} (hindex : index < 268435456)
    (hpos : 0 < eaCapacity) (henough : index < eaCapacity * 2 ^ rounds)
    (henough' : index < eaCapacity + rounds') :
    growCapacity (rounds + 1) index eaCapacity = .ok (doubled rounds' index eaCapacity : Nat) := by
  induction rounds generalizing rounds' eaCapacity with
  | zero =>
      rw [Nat.pow_zero, Nat.mul_one] at henough
      rw [growCapacity, if_neg (by omega)]
      cases rounds' with
      | zero => rfl
      | succ rounds' => rw [doubled, if_neg (Nat.not_le_of_lt henough)]
  | succ rounds ih =>
      by_cases hle : eaCapacity ≤ index
      · have hdouble : ((eaCapacity : Int) * 2) = ((eaCapacity * 2 : Nat) : Int) := by omega
        cases rounds' with
        | zero => omega
        | succ rounds' =>
            rw [growCapacity, if_pos (by omega), if_pos (by omega), hdouble, doubled, if_pos hle]
            refine ih (by omega) ?_ (by omega)
            rwa [Nat.mul_assoc, ← Nat.pow_succ']
      · rw [growCapacity, if_neg (by omega)]
        cases rounds' with
        | zero => rfl
        | succ rounds' => rw [doubled, if_neg hle]

/-! ## One call -/

section Set

variable {abi : Abi} {arr : ExpandingArrayBuf} {a : ExpandingArray (Pointer abi)}

/-- Clearing the end of a block. -/
theorem clear_back {b : Buf} {front back : List UInt8} (h : b.data = front ++ back) :
    ∃ b', clear b front.length back.length = .ok b' ∧
      b'.data = front ++ List.replicate back.length 0 := by
  refine ⟨_, Buf.memcpy_eq_ok.mpr ⟨?_, rfl⟩, ?_⟩
  · exact Nat.le_of_eq (by rw [h, List.length_append, List.length_replicate])
  · have hlen : (List.replicate back.length (0 : UInt8)).length = back.length :=
      List.length_replicate
    have hsplice : splice (front ++ (back ++ [])) front.length (List.replicate back.length 0) =
        front ++ (List.replicate back.length 0 ++ []) := splice_append hlen
    rw [List.append_nil, List.append_nil] at hsplice
    rw [h]
    exact hsplice

/-- A fresh array holds eight times `NULL`. -/
theorem represents_create (abi : Abi) (fresh : Nat → UInt8) :
    ∃ arr, expandingArrayCreateBuf abi fresh = .ok arr ∧
      Represents abi arr expandingArrayCreate := by
  have hsize : sizeT abi ((initSize : Int) * abi.psize) = initSize * abi.psize :=
    sizeT_mul (by decide)
  have hdata : ((List.range (initSize * abi.psize)).map fresh).length = initSize * abi.psize := by
    rw [List.length_map, List.length_range]
  obtain ⟨b, hb, hdata'⟩ := clear_back (b := ⟨(List.range (initSize * abi.psize)).map fresh, []⟩)
    (List.nil_append _).symm
  rw [List.length_nil, hdata] at hb
  refine ⟨⟨initSize, b⟩, ?_, ⟨rfl, ?_⟩⟩
  · simp only [expandingArrayCreateBuf, Int.mul_comm (abi.psize : Int), hsize, hb, ok_bind,
      pure_eq_ok]
  · rw [hdata', hdata, expandingArrayCreate, flatten_replicate_none, List.nil_append]

/-- The block before it is cleared: the slots, and as many bytes as the new slots take. -/
theorem exists_grown (h : Represents abi arr a) {index n : Nat} (fresh : Nat → UInt8)
    (hgrow : a.eaArray.length ≤ n) (hn : n ≤ 268435456)
    (hsame : ¬ a.eaArray.length ≤ index → n = a.eaArray.length) :
    ∃ back, back.length = (n - a.eaArray.length) * abi.psize ∧
      (if arr.eaCapacity ≤ (index : Int) then
          arr.eaArray.realloc (sizeT abi ((n : Int) * abi.psize)) fresh
        else arr.eaArray).data = (a.eaArray.map (slotBytes abi)).flatten ++ back := by
  have hlen : arr.eaArray.data.length = a.eaArray.length * abi.psize := by
    rw [h.data, length_flatten_slots]
  by_cases hle : a.eaArray.length ≤ index
  · have hmul := Nat.mul_le_mul_right abi.psize hgrow
    rw [if_pos (by rw [h.capacity]; omega), sizeT_mul hn, Buf.data_realloc (by rwa [hlen]), h.data]
    refine ⟨_, ?_, rfl⟩
    rw [List.length_map, List.length_range, length_flatten_slots, Nat.sub_mul]
  · rw [if_neg (by rw [h.capacity]; omega), h.data, hsame hle, Nat.sub_self, Nat.zero_mul]
    exact ⟨[], rfl, (List.append_nil _).symm⟩

theorem doubled_of_lt {rounds index eaCapacity : Nat} (h : ¬ eaCapacity ≤ index) :
    doubled rounds index eaCapacity = eaCapacity := by
  cases rounds with
  | zero => rfl
  | succ rounds => rw [doubled, if_neg h]

/-- The new slots are cleared and the pointer is stored in one of the row. -/
theorem exists_put {b : Buf} {slots : List (Option (Pointer abi))} {back : List UInt8} {n : Nat}
    (hdata : b.data = (slots.map (slotBytes abi)).flatten ++ back)
    (hback : back.length = n * abi.psize) {index : Nat} (hlt : index < slots.length + n)
    (pdata : Pointer abi) :
    ∃ b' b'', clear b (slots.length * abi.psize) (n * abi.psize) = .ok b' ∧
      b'.memcpy (index * abi.psize) pdata.toList = .ok b'' ∧
      b''.data =
        (((slots ++ List.replicate n none).set index (some pdata)).map
          (slotBytes abi)).flatten := by
  obtain ⟨b', hclear, hdata'⟩ := clear_back hdata
  rw [length_flatten_slots, hback] at hclear
  have hslots : b'.data = ((slots ++ List.replicate n none).map (slotBytes abi)).flatten := by
    rw [hdata', hback, List.map_append, List.flatten_append, flatten_replicate_none]
  have hlength : (slots ++ List.replicate n none).length = slots.length + n := by
    rw [List.length_append, List.length_replicate]
  have hslot : (slots ++ List.replicate n none)[index]? =
      some (slots ++ List.replicate n none)[index] := List.getElem?_eq_getElem (by omega)
  obtain ⟨b'', hcopy, hdata''⟩ := Buf.memcpy_part (index * abi.psize) pdata.toList hslots
    (by rw [List.getElem?_map, hslot]; rfl) (partOff_slots (by omega)).symm
    (by rw [length_slotBytes, Vector.length_toList])
  refine ⟨b', b'', hclear, hcopy, ?_⟩
  rw [hdata'', List.map_set]
  rfl

/-- A call ends well and does to the block what storing into the slots does. -/
theorem Represents.set (h : Represents abi arr a) {k : Nat} (hk : k ≤ 28)
    (hcap : a.eaArray.length = 2 ^ k) (c : SetCall abi) :
    ∃ arr', expandingArraySetBuf abi arr c.index c.pdata c.fresh = .ok arr' ∧
      Represents abi arr' (expandingArraySet a c.index (some c.pdata)) := by
  have hpos : 0 < a.eaArray.length := by
    rw [hcap]
    exact Nat.two_pow_pos k
  have hold : a.eaArray.length ≤ 268435456 := by
    rw [hcap]
    exact Nat.pow_le_pow_right (by decide) hk
  obtain ⟨j, -, hj, hdoubled⟩ := exists_doubled (c.index + 1) c.index_lt hk
  rw [← hcap] at hdoubled
  have hbound : 2 ^ j ≤ 268435456 := Nat.pow_le_pow_right (by decide) hj
  have hle : a.eaArray.length ≤ 2 ^ j := by
    rw [← hdoubled]
    exact le_doubled _ _ _
  have hlt : c.index < 2 ^ j := by
    rw [← hdoubled]
    exact lt_doubled hpos (by omega)
  have hgrow : growCapacity 32 c.index arr.eaCapacity = .ok (2 ^ j : Nat) := by
    rw [h.capacity, ← hdoubled]
    exact growCapacity_eq c.index_lt hpos (Nat.lt_of_lt_of_le c.index_lt (by omega)) (by omega)
  have holdCap : sizeT abi arr.eaCapacity = a.eaArray.length := by
    rw [h.capacity]
    exact sizeT_capacity hold
  have hnew : ((2 ^ j : Nat) : Int) - a.eaArray.length = (2 ^ j - a.eaArray.length : Nat) := by
    omega
  obtain ⟨back, hback, hdata⟩ := exists_grown h c.fresh hle hbound fun hne ↦
    hdoubled.symm.trans (doubled_of_lt hne)
  have hindex : c.index < a.eaArray.length + (2 ^ j - a.eaArray.length) := by omega
  obtain ⟨b, b', hclear, hcopy, hdata'⟩ := exists_put hdata hback hindex c.pdata
  refine ⟨⟨(2 ^ j : Nat), b'⟩, ?_, ⟨?_, ?_⟩⟩
  · simp only [expandingArraySetBuf, hgrow, holdCap, bind, Except.bind, hnew,
      sizeT_mul hold, sizeT_mul (Nat.sub_le_of_le_add (Nat.le_add_right_of_le hbound)), hclear,
      sizeT_mul (Nat.le_of_lt c.index_lt), hcopy, Except.mapError]
    rfl
  · rw [length_expandingArraySet, hdoubled]
  · rw [hdata', expandingArraySet, hdoubled]

/-- A call within the capacity reads the slot. -/
theorem Represents.get (h : Represents abi arr a) {i : Nat} (hcap : a.eaArray.length ≤ 268435456)
    (hi : (i : Int) < arr.eaCapacity) :
    expandingArrayGetBuf abi arr i = .ok ((a.slot i).getD (null abi)).toList := by
  have hlt : i < a.eaArray.length := by
    rw [h.capacity] at hi
    omega
  have hslot : (a.eaArray.map (slotBytes abi))[i]? = some (slotBytes abi (a.slot i)) := by
    rw [List.getElem?_map, ExpandingArray.slot, List.getElem?_eq_getElem hlt]
    rfl
  have hread := Buf.readAt_part h.data hslot (partOff_slots (Nat.le_of_lt hlt)).symm
  rw [length_slotBytes] at hread
  rw [expandingArrayGetBuf, if_pos hi, sizeT_mul (by omega), hread]
  rfl

end Set

/-! ## Whole runs -/

section Run

variable {abi : Abi}

/-- The slots after the calls. -/
def slotsOf (calls : List (SetCall abi)) : ExpandingArray (Pointer abi) :=
  calls.foldl (fun a c => expandingArraySet a c.index (some c.pdata)) expandingArrayCreate

theorem slotsOf_append (calls : List (SetCall abi)) (c : SetCall abi) :
    slotsOf (calls ++ [c]) = expandingArraySet (slotsOf calls) c.index (some c.pdata) := by
  rw [slotsOf, List.foldl_append]
  rfl

theorem stored_append (calls : List (SetCall abi)) (c : SetCall abi) (i : Nat) :
    stored abi (calls ++ [c]) i = if c.index = i then c.pdata else stored abi calls i := by
  rw [stored, List.reverse_append, List.reverse_singleton, List.singleton_append, List.find?_cons]
  by_cases h : c.index = i
  · rw [if_pos h, decide_eq_true h]
  · rw [if_neg h, decide_eq_false h]
    rfl

/-- The capacity stays a power of two between the first one and 2²⁸. -/
theorem exists_length_slotsOf (calls : List (SetCall abi)) :
    ∃ k, 3 ≤ k ∧ k ≤ 28 ∧ (slotsOf calls).eaArray.length = 2 ^ k := by
  induction calls using List.reverseRecOn with
  | nil => exact ⟨3, Nat.le_refl 3, by omega, rfl⟩
  | append_singleton calls c ih =>
      obtain ⟨k, hk, hk', hlen⟩ := ih
      obtain ⟨j, hj, hj', hdoubled⟩ := exists_doubled (c.index + 1) c.index_lt hk'
      refine ⟨j, Nat.le_trans hk hj, hj', ?_⟩
      rw [slotsOf_append, length_expandingArraySet, hlen, hdoubled]

theorem length_slotsOf_pos (calls : List (SetCall abi)) : 0 < (slotsOf calls).eaArray.length := by
  obtain ⟨k, -, -, hlen⟩ := exists_length_slotsOf calls
  rw [hlen]
  exact Nat.two_pow_pos k

theorem length_slotsOf_le (calls : List (SetCall abi)) :
    (slotsOf calls).eaArray.length ≤ 268435456 := by
  obtain ⟨k, -, hk, hlen⟩ := exists_length_slotsOf calls
  rw [hlen]
  exact Nat.pow_le_pow_right (by decide) hk

/-- The capacity never shrinks. -/
theorem length_slotsOf_mono {pre calls : List (SetCall abi)} (h : pre <+: calls) :
    (slotsOf pre).eaArray.length ≤ (slotsOf calls).eaArray.length := by
  induction calls using List.reverseRecOn with
  | nil =>
      obtain rfl := List.prefix_nil.mp h
      exact Nat.le_refl _
  | append_singleton calls c ih =>
      rcases List.prefix_concat_iff.mp h with rfl | h
      · exact Nat.le_refl _
      · rw [slotsOf_append, length_expandingArraySet]
        exact Nat.le_trans (ih h) (le_doubled _ _ _)

theorem lt_length_slotsOf {calls : List (SetCall abi)} {c : SetCall abi} (h : c ∈ calls) :
    c.index < (slotsOf calls).eaArray.length := by
  obtain ⟨before, behind, rfl⟩ := List.append_of_mem h
  have hset : c.index < (slotsOf (before ++ [c])).eaArray.length := by
    rw [slotsOf_append, length_expandingArraySet]
    exact lt_doubled (length_slotsOf_pos before) (by omega)
  refine Nat.lt_of_lt_of_le hset (length_slotsOf_mono ⟨behind, ?_⟩)
  rw [List.append_assoc, List.singleton_append]

theorem slot_slotsOf (calls : List (SetCall abi)) (i : Nat) :
    ((slotsOf calls).slot i).getD (null abi) = stored abi calls i := by
  induction calls using List.reverseRecOn with
  | nil =>
      rw [slotsOf, List.foldl_nil, slot_expandingArrayCreate]
      rfl
  | append_singleton calls c ih =>
      rw [slotsOf_append, slot_expandingArraySet (length_slotsOf_pos calls), stored_append]
      by_cases h : c.index = i
      · rw [if_pos h, if_pos h.symm]
        rfl
      · rw [if_neg h, if_neg (Ne.symm h), ih]

/-- The run ends well in a block that is the row of the slots. -/
theorem exists_run (fresh : Nat → UInt8) (calls : List (SetCall abi)) :
    ∃ arr, expandingArrayRun abi fresh calls = .ok arr ∧ Represents abi arr (slotsOf calls) := by
  induction calls using List.reverseRecOn with
  | nil =>
      obtain ⟨arr, hcreate, hrep⟩ := represents_create abi fresh
      refine ⟨arr, ?_, hrep⟩
      rw [expandingArrayRun, hcreate]
      rfl
  | append_singleton calls c ih =>
      obtain ⟨arr, hrun, hrep⟩ := ih
      obtain ⟨k, -, hk, hlen⟩ := exists_length_slotsOf calls
      obtain ⟨arr', hset, hrep'⟩ := hrep.set hk hlen c
      refine ⟨arr', ?_, slotsOf_append calls c ▸ hrep'⟩
      rw [expandingArrayRun] at hrun ⊢
      simp only [List.foldlM_append, List.foldlM_cons, List.foldlM_nil, bind_pure]
      rw [← bind_assoc, hrun]
      exact hset

theorem Represents.totalMap {arr : ExpandingArrayBuf} {calls : List (SetCall abi)}
    (h : Represents abi arr (slotsOf calls)) : TotalMap abi calls arr := by
  have hle := length_slotsOf_le calls
  refine ⟨?_, ?_, ?_, fun c hc ↦ ?_, fun i hi ↦ ?_⟩
  · obtain ⟨k, hk, -, hlen⟩ := exists_length_slotsOf calls
    obtain ⟨m, rfl⟩ := Nat.exists_eq_add_of_le hk
    exact ⟨m, by rw [h.capacity, hlen, Nat.pow_add]⟩
  · rw [h.capacity]
    omega
  · rw [h.capacity, ← Int.natCast_mul]
    exact Int.ofNat_lt.mpr (mul_psize_lt hle)
  · rw [h.capacity]
    exact Int.ofNat_lt.mpr (lt_length_slotsOf hc)
  · rw [h.get hle hi, slot_slotsOf]

/-- Whatever is stored where, and whatever the memory holds that `malloc` and `realloc` return, the
array is a total map after every call, and its capacity never shrinks. -/
theorem expandingArrayRun_totalMap (abi : Abi) (fresh : Nat → UInt8)
    (calls : List (SetCall abi)) :
    ∃ arr, expandingArrayRun abi fresh calls = .ok arr ∧ TotalMap abi calls arr ∧
      ∀ pre, pre <+: calls → ∃ arr', expandingArrayRun abi fresh pre = .ok arr' ∧
        TotalMap abi pre arr' ∧ arr'.eaCapacity ≤ arr.eaCapacity := by
  obtain ⟨arr, hrun, hrep⟩ := exists_run fresh calls
  refine ⟨arr, hrun, hrep.totalMap, fun pre hpre ↦ ?_⟩
  obtain ⟨arr', hrun', hrep'⟩ := exists_run fresh pre
  refine ⟨arr', hrun', hrep'.totalMap, ?_⟩
  rw [hrep.capacity, hrep'.capacity]
  exact Int.ofNat_le.mpr (length_slotsOf_mono hpre)

end Run

end Sflow

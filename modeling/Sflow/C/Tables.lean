import Mathlib.Algebra.GroupWithZero.Nat
import Mathlib.Data.List.Basic
import Mathlib.Logic.Function.Basic

/-!
# Tables

A dictionary is a list of pairs with one pair for each key.  `alter` is how an entry is
made where it is missing and changed where it is not: what is looked up afterwards is
known (`lookup_alter`), and so is what the change adds to a measure of the values
(`sum_alter`).

Two tables of partial entries may refer to each other, as that of the open handles and
that of their owners.  An entry is made in both, and taken out of both.
-/

namespace Sflow.C

/-! ## Dictionaries -/

namespace Dict

variable {κ α : Type} [DecidableEq κ]

/-- Change the value of `k` by `f`, which is `init` where there is none. -/
def alter (init : α) (f : α → α) (k : κ) : List (κ × α) → List (κ × α)
  | [] => [(k, f init)]
  | (k', a) :: d => if k' = k then (k', f a) :: d else (k', a) :: alter init f k d

/-- What `f` adds to the measure of a value it adds to that of the dictionary. -/
theorem sum_alter (size : α → Nat) {init : α} {f : α → α} {n : Nat}
    (h : ∀ a, size (f a) = size a + n) (hinit : size init = 0) (k : κ) (d : List (κ × α)) :
    ((alter init f k d).map (size ·.2)).sum = (d.map (size ·.2)).sum + n := by
  induction d with
  | nil => simp [alter, h, hinit]
  | cons e d ih =>
      rw [alter]
      split <;> simp only [List.map_cons, List.sum_cons, h, ih] <;> omega

variable [BEq κ] [LawfulBEq κ]

theorem lookup_cons_if (k k' : κ) (a : α) (d : List (κ × α)) :
    ((k, a) :: d).lookup k' = if k' = k then some a else d.lookup k' := by
  rw [List.lookup_cons]
  by_cases h : k' = k
  · rw [if_pos h, beq_iff_eq.mpr h]
  · rw [if_neg h, beq_eq_false_iff_ne.mpr h]

/-- The value of `k` is changed, and no other. -/
theorem lookup_alter (init : α) (f : α → α) (k k' : κ) (d : List (κ × α)) :
    (alter init f k d).lookup k' =
      if k' = k then some (f ((d.lookup k).getD init)) else d.lookup k' := by
  induction d with
  | nil => exact lookup_cons_if k k' (f init) []
  | cons e d ih =>
      obtain ⟨k'', a⟩ := e
      rw [alter]
      by_cases hk : k'' = k
      · rw [hk, if_pos rfl, lookup_cons_if, lookup_cons_if, lookup_cons_if, if_pos rfl,
          Option.getD_some]
        split <;> rfl
      · rw [if_neg hk, lookup_cons_if, ih, lookup_cons_if, lookup_cons_if, if_neg (Ne.symm hk)]
        by_cases hk' : k' = k''
        · rw [if_pos hk', if_pos hk', if_neg (hk' ▸ hk)]
        · rw [if_neg hk', if_neg hk']

end Dict

/-! ## Matching tables -/

variable {α β : Type*} [DecidableEq α] [DecidableEq β]

/-- Two tables that refer to each other. -/
def Matched (f : α → Option β) (g : β → Option α) : Prop := ∀ a b, f a = some b ↔ g b = some a

variable {f : α → Option β} {g : β → Option α} {a : α} {b : β}

/-- An entry in both. -/
theorem Matched.add (h : Matched f g) (ha : f a = none) (hb : g b = none) :
    Matched (Function.update f a (some b)) (Function.update g b (some a)) := by
  intro x y
  by_cases hx : x = a <;> by_cases hy : y = b
  · rw [hx, hy, Function.update_self, Function.update_self]
    exact iff_of_true rfl rfl
  · rw [hx, Function.update_self, Function.update_of_ne hy, ← h]
    refine iff_of_false (fun heq ↦ hy (Option.some.inj heq).symm) ?_
    rw [ha]
    exact (Option.some_ne_none y).symm
  · rw [hy, Function.update_self, Function.update_of_ne hx, h]
    refine iff_of_false ?_ fun heq ↦ hx (Option.some.inj heq).symm
    rw [hb]
    exact (Option.some_ne_none x).symm
  · rw [Function.update_of_ne hx, Function.update_of_ne hy]
    exact h x y

/-- An entry taken out of both. -/
theorem Matched.delete (h : Matched f g) (hab : f a = some b) :
    Matched (Function.update f a none) (Function.update g b none) := by
  intro x y
  by_cases hx : x = a <;> by_cases hy : y = b
  · rw [hx, hy, Function.update_self, Function.update_self]
    exact iff_of_false (Option.some_ne_none b).symm (Option.some_ne_none a).symm
  · rw [hx, Function.update_self, Function.update_of_ne hy, ← h, hab]
    exact iff_of_false (Option.some_ne_none y).symm fun heq ↦ hy (Option.some.inj heq).symm
  · rw [hy, Function.update_self, Function.update_of_ne hx]
    refine iff_of_false (fun hxb ↦ hx ?_) (Option.some_ne_none x).symm
    have hback := (h x b).mp hxb
    rw [(h a b).mp hab] at hback
    exact (Option.some.inj hback).symm
  · rw [Function.update_of_ne hx, Function.update_of_ne hy]
    exact h x y

end Sflow.C

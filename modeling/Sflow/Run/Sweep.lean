import Mathlib.Data.List.Basic

/-!
# Walking a list while it loses items

A walk goes over a list by an index, and items that meet a condition are removed on the
way.  What stood behind a removed item moves to its place and is passed over.  Where the
items that meet the condition stand in front, a walk to the end leaves at most half of
them, whoever else removes items (`AtMostHalf`), and at least half of them where nobody
else does (`AtLeastHalf`).
-/

namespace Sflow.Run

variable {α : Type*} {P : α → Prop} [DecidablePred P] {l l' : List α} {a : α} {i n : Nat}

/-- The items that meet the condition stand in front of those that do not. -/
def Front (P : α → Prop) (l : List α) : Prop := l.Pairwise fun a b => P b → P a

omit [DecidablePred P] in
theorem Front.sublist (h : Front P l) (hsub : l'.Sublist l) : Front P l' :=
  List.Pairwise.sublist hsub h

omit [DecidablePred P] in
theorem Front.concat (h : Front P l) (ha : ¬ P a) : Front P (l ++ [a]) := by
  refine List.pairwise_append.mpr ⟨h, List.pairwise_singleton _ _, fun b _ c hc hP ↦ ?_⟩
  rw [List.mem_singleton] at hc
  exact absurd (hc ▸ hP) ha

theorem Front.filter_append (h : Front P l) : l.filter (P ·) ++ l.filter (¬ P ·) = l := by
  induction l with
  | nil => rfl
  | cons b l ih =>
      obtain ⟨hb, hl⟩ := List.pairwise_cons.mp h
      by_cases hP : P b
      · simpa [hP] using ih hl
      · have hnone : ∀ c ∈ l, ¬ P c := fun c hc hPc ↦ hP (hb c hc hPc)
        have hfilter : l.filter (P ·) = [] := by simpa [List.filter_eq_nil_iff] using hnone
        have hrest : l.filter (¬ P ·) = l := by simpa [List.filter_eq_self] using hnone
        simpa [hP, hfilter] using hrest

/-- How many meet the condition tells which ones do. -/
theorem Front.getElem_iff (h : Front P l) (ha : l[i]? = some a) : P a ↔ i < l.countP (P ·) := by
  rw [List.countP_eq_length_filter]
  rw [← h.filter_append, List.getElem?_append] at ha
  split at ha
  · rename_i hi
    exact iff_of_true (of_decide_eq_true (List.mem_filter.mp (List.mem_of_getElem? ha)).2) hi
  · rename_i hi
    exact iff_of_false (of_decide_eq_true (List.mem_filter.mp (List.mem_of_getElem? ha)).2) hi

variable [DecidableEq α]

theorem countP_erase_add_one (ha : a ∈ l) (hP : P a) :
    (l.erase a).countP (P ·) + 1 = l.countP (P ·) := by
  rw [(List.perm_cons_erase ha).countP_eq, List.countP_cons, if_pos (decide_eq_true hP)]

theorem countP_erase_of_not (hP : ¬ P a) : (l.erase a).countP (P ·) = l.countP (P ·) := by
  by_cases ha : a ∈ l
  · rw [(List.perm_cons_erase ha).countP_eq, List.countP_cons, if_neg (by simpa using hP),
      Nat.add_zero]
  · rw [List.erase_of_not_mem ha]

/-! ## From above -/

/-- A walk that began with `n` items or fewer to remove, and is at `i`. -/
def AtMostHalf (P : α → Prop) [DecidablePred P] (n : Nat) (l : List α) (i : Nat) : Prop :=
  l.countP (P ·) ≤ n / 2 ∨ l.countP (P ·) + i ≤ n

omit [DecidableEq α] in
theorem AtMostHalf.start (h : l.countP (P ·) ≤ n) : AtMostHalf P n l 0 := .inr h

omit [DecidableEq α] in
/-- Others may remove items, and append some that do not meet the condition. -/
theorem AtMostHalf.mono (h : AtMostHalf P n l i) (hle : l'.countP (P ·) ≤ l.countP (P ·)) :
    AtMostHalf P n l' i := by
  unfold AtMostHalf at h ⊢
  omega

omit [DecidableEq α] in
/-- The walk has come past the items to remove. -/
theorem AtMostHalf.past (h : AtMostHalf P n l i) (hi : l.countP (P ·) ≤ i) :
    l.countP (P ·) ≤ n / 2 := by
  unfold AtMostHalf at h
  omega

theorem AtMostHalf.erase (h : AtMostHalf P n l i) (ha : a ∈ l) (hP : P a) :
    AtMostHalf P n (l.erase a) (i + 1) := by
  have hcount := countP_erase_add_one ha hP
  unfold AtMostHalf at h ⊢
  omega

/-! ## From below -/

/-- A walk that began with `n` items or more to remove, and is at `i`. -/
def AtLeastHalf (P : α → Prop) [DecidablePred P] (n : Nat) (l : List α) (i : Nat) : Prop :=
  n ≤ 2 * l.countP (P ·) + 1 ∧ (i < l.countP (P ·) → n ≤ l.countP (P ·) + i)

omit [DecidableEq α] in
theorem AtLeastHalf.start (h : n ≤ l.countP (P ·)) : AtLeastHalf P n l 0 := by
  unfold AtLeastHalf
  omega

omit [DecidableEq α] in
theorem AtLeastHalf.half_le (h : AtLeastHalf P n l i) : n / 2 ≤ l.countP (P ·) := by
  unfold AtLeastHalf at h
  omega

omit [DecidableEq α] in
theorem AtLeastHalf.congr (h : AtLeastHalf P n l i) (heq : l'.countP (P ·) = l.countP (P ·)) :
    AtLeastHalf P n l' i := by
  rwa [AtLeastHalf, heq]

omit [DecidableEq α] in
theorem AtLeastHalf.skip (h : AtLeastHalf P n l i) : AtLeastHalf P n l (i + 1) := by
  unfold AtLeastHalf at h ⊢
  omega

/-- The item at `i` is removed, which is one that meets the condition. -/
theorem AtLeastHalf.erase (h : AtLeastHalf P n l i) (ha : a ∈ l) (hP : P a)
    (hi : i < l.countP (P ·)) : AtLeastHalf P n (l.erase a) (i + 1) := by
  have hcount := countP_erase_add_one ha hP
  unfold AtLeastHalf at h ⊢
  omega

end Sflow.Run

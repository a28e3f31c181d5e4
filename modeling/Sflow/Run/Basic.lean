import Mathlib.Data.Option.Basic

/-!
# Runs of a labelled system

A system is a partial step function: `step s l` is the state after the action
`l`, or `none` where `l` is not possible in `s`.  A run is a list of actions.
Two induction rules carry every result about runs: an invariant that all steps
keep holds along every run, and one that only the steps meeting a condition keep
holds along the runs all of whose steps meet it.

A loop that is not seen to end is a function of its fuel, which is `none` where the
fuel does not last.  It returns if it comes to one and the same result from some
fuel on.  What is made of loops that return returns as well.
-/

namespace Sflow.Run

variable {S L : Type*} (step : S → L → Option S)

/-- The state that a run ends in, or `none` if some action of it is not possible. -/
def run (s : S) : List L → Option S
  | [] => some s
  | l :: ls => (step s l).bind fun s' => run s' ls

theorem run_cons (s : S) (l : L) (ls : List L) :
    run step s (l :: ls) = (step s l).bind fun s' => run step s' ls := rfl

variable {step}

/-- What every step keeps, every run keeps. -/
theorem run_induction {Inv : S → Prop}
    (hstep : ∀ s l s', Inv s → step s l = some s' → Inv s') {s s' : S} {ls : List L}
    (h : Inv s) (hrun : run step s ls = some s') : Inv s' := by
  induction ls generalizing s with
  | nil =>
      cases hrun
      exact h
  | cons l ls ih =>
      rw [run_cons, Option.bind_eq_some_iff] at hrun
      obtain ⟨t, ht, hrun⟩ := hrun
      exact ih (hstep s l t h ht) hrun

variable (step)

/-- Every step of the run is taken in a state, and with an action, that meet `C`. -/
def Meets (C : S → L → Prop) (s : S) : List L → Prop
  | [] => True
  | l :: ls => C s l ∧ ∀ s', step s l = some s' → Meets C s' ls

instance decidableMeets {C : S → L → Prop} [∀ s l, Decidable (C s l)] (s : S) :
    (ls : List L) → Decidable (Meets step C s ls)
  | [] => inferInstanceAs (Decidable True)
  | l :: ls =>
      have : DecidablePred fun s' => Meets step C s' ls := fun s' => decidableMeets s' ls
      inferInstanceAs (Decidable (C s l ∧ ∀ s' ∈ step s l, Meets step C s' ls))

variable {step}

/-- What the steps that meet a condition keep, the runs made of them keep. -/
theorem run_induction_of_meets {Inv : S → Prop} {C : S → L → Prop}
    (hstep : ∀ s l s', Inv s → C s l → step s l = some s' → Inv s') {s s' : S} {ls : List L}
    (h : Inv s) (hmeets : Meets step C s ls) (hrun : run step s ls = some s') : Inv s' := by
  induction ls generalizing s with
  | nil =>
      cases hrun
      exact h
  | cons l ls ih =>
      rw [run_cons, Option.bind_eq_some_iff] at hrun
      obtain ⟨t, ht, hrun⟩ := hrun
      exact ih (hstep s l t h hmeets.1 ht) (hmeets.2 t ht) hrun

/-- What an invariant and a condition say of each step holds of all steps of a run that meets
the condition. -/
theorem meets_of_meets {Inv : S → Prop} {C C' : S → L → Prop}
    (hstep : ∀ s l s', Inv s → C s l → step s l = some s' → Inv s')
    (hmeets : ∀ s l, Inv s → C s l → C' s l) {s : S} {ls : List L} (h : Inv s)
    (hC : Meets step C s ls) : Meets step C' s ls := by
  induction ls generalizing s with
  | nil => trivial
  | cons l ls ih =>
      obtain ⟨hl, hrest⟩ := hC
      exact ⟨hmeets s l h hl, fun s' hs' ↦ ih (hstep s l s' h hl hs') (hrest s' hs')⟩

/-- If every step that does not meet a condition spoils what is good, the runs in which all is
good are those whose steps meet it. -/
theorem meets_iff_forall_prefix {Inv Good : S → Prop} {C : S → L → Prop}
    (hgood : ∀ s, Inv s → Good s)
    (hstep : ∀ s l s', Inv s → C s l → step s l = some s' → Inv s')
    (hbad : ∀ s l, Inv s → ¬ C s l → ∃ s', step s l = some s' ∧ ¬ Good s') {s : S}
    {ls : List L} (h : Inv s) :
    (∀ pre, pre <+: ls → ∀ s', run step s pre = some s' → Good s') ↔ Meets step C s ls := by
  induction ls generalizing s with
  | nil =>
      refine iff_of_true (fun pre hpre s' hrun ↦ ?_) trivial
      rw [List.prefix_nil.mp hpre] at hrun
      cases hrun
      exact hgood s h
  | cons l ls ih =>
      constructor
      · intro hall
        have hC : C s l := by
          by_contra hC
          obtain ⟨s', hs', hnot⟩ := hbad s l h hC
          refine hnot (hall [l] (List.prefix_append [l] ls) s' ?_)
          rw [run_cons, hs']
          rfl
        refine ⟨hC, fun s' hs' ↦ (ih (hstep s l s' h hC hs')).mp fun pre hpre t hrun ↦ ?_⟩
        refine hall (l :: pre) (List.cons_prefix_cons.mpr ⟨rfl, hpre⟩) t ?_
        rw [run_cons, hs']
        exact hrun
      · rintro ⟨hC, hmeets⟩ pre hpre t hrun
        cases pre with
        | nil =>
            cases hrun
            exact hgood s h
        | cons k pre =>
            obtain ⟨rfl, hrest⟩ := List.cons_prefix_cons.mp hpre
            rw [run_cons, Option.bind_eq_some_iff] at hrun
            obtain ⟨s', hs', hrun⟩ := hrun
            exact (ih (hstep s k s' h hC hs')).mpr (hmeets s' hs') pre hrest t hrun

/-- Where the condition is on the actions alone, it is a condition on the run. -/
theorem meets_of_forall {C : L → Prop} {s : S} {ls : List L} (h : ∀ l ∈ ls, C l) :
    Meets step (fun _ l => C l) s ls := by
  induction ls generalizing s with
  | nil => trivial
  | cons l ls ih =>
      exact ⟨h l List.mem_cons_self, fun s' _ ↦ ih fun k hk ↦ h k (List.mem_cons_of_mem _ hk)⟩

/-- Where some actions make a rank smaller and the others do not make it larger, a run has no
more of the former than the rank it starts with. -/
theorem countP_add_le {rank : S → Nat} {progress : L → Bool}
    (hstep : ∀ s l s', step s l = some s' → (if progress l then 1 else 0) + rank s' ≤ rank s)
    {s s' : S} {ls : List L} (hrun : run step s ls = some s') :
    ls.countP progress + rank s' ≤ rank s := by
  induction ls generalizing s with
  | nil =>
      cases hrun
      exact Nat.le_of_eq (Nat.zero_add _)
  | cons l ls ih =>
      rw [run_cons, Option.bind_eq_some_iff] at hrun
      obtain ⟨t, ht, hrun⟩ := hrun
      have hfirst := hstep s l t ht
      have hrest := ih hrun
      rw [List.countP_cons]
      omega

/-- What the actions that meet `C` keep with a number that one of them raises, a run of them
keeps with the number of times that one is taken. -/
theorem run_induction_count [DecidableEq L] {Inv : Nat → S → Prop} {C : L → Prop} {counted : L}
    (hstep : ∀ n s l s', Inv n s → C l → step s l = some s' →
      Inv (n + if l = counted then 1 else 0) s') {n : Nat} {s s' : S} {ls : List L} (h : Inv n s)
    (hC : ∀ l ∈ ls, C l) (hrun : run step s ls = some s') : Inv (n + ls.count counted) s' := by
  induction ls generalizing n s with
  | nil =>
      cases hrun
      exact h
  | cons l ls ih =>
      rw [run_cons, Option.bind_eq_some_iff] at hrun
      obtain ⟨t, ht, hrun⟩ := hrun
      rw [List.forall_mem_cons] at hC
      have hrest := ih (hstep n s l t h hC.1 ht) hC.2 hrun
      rw [List.count_cons]
      simp only [beq_iff_eq]
      rwa [Nat.add_assoc, Nat.add_comm (if l = counted then 1 else 0)] at hrest

/-! ## Loops with fuel -/

section Fuel

variable {α β : Type*} {f : Nat → Option α} {a : α}

/-- From some fuel on, the loop comes to this result. -/
def Returns (f : Nat → Option α) (a : α) : Prop := ∃ fuel₀, ∀ fuel ≥ fuel₀, f fuel = some a

theorem returns_some (a : α) : Returns (fun _ => some a) a := ⟨0, fun _ _ ↦ rfl⟩

theorem returns_of_lt {n : Nat} (h : ∀ fuel, n < fuel → f fuel = some a) : Returns f a :=
  ⟨n + 1, h⟩

theorem Returns.congr {g : Nat → Option α} (h : Returns f a) (heq : ∀ fuel, g fuel = f fuel) :
    Returns g a := by
  obtain ⟨fuel₀, h⟩ := h
  exact ⟨fuel₀, fun fuel hfuel ↦ (heq fuel).trans (h fuel hfuel)⟩

/-- Some fuel is enough for two loops. -/
theorem Returns.both {g : Nat → Option β} {b : β} (hf : Returns f a) (hg : Returns g b) :
    ∃ fuel₀, ∀ fuel ≥ fuel₀, f fuel = some a ∧ g fuel = some b := by
  obtain ⟨m, hf⟩ := hf
  obtain ⟨n, hg⟩ := hg
  exact ⟨max m n, fun fuel hfuel ↦
    ⟨hf fuel (Nat.le_trans (Nat.le_max_left _ _) hfuel),
      hg fuel (Nat.le_trans (Nat.le_max_right _ _) hfuel)⟩⟩

/-- One loop behind the other. -/
theorem Returns.bind {k : Nat → α → Option β} {b : β} (hf : Returns f a)
    (hk : Returns (fun fuel => k fuel a) b) :
    Returns (fun fuel => (f fuel).bind (k fuel)) b := by
  obtain ⟨fuel₀, h⟩ := hf.both hk
  refine ⟨fuel₀, fun fuel hfuel ↦ ?_⟩
  obtain ⟨hfirst, hnext⟩ := h fuel hfuel
  dsimp only
  rw [hfirst, Option.bind_some, hnext]

theorem Returns.map (h : Returns f a) (φ : α → β) :
    Returns (fun fuel => (f fuel).map φ) (φ a) := by
  obtain ⟨fuel₀, h⟩ := h
  exact ⟨fuel₀, fun fuel hfuel ↦ congrArg (Option.map φ) (h fuel hfuel)⟩

end Fuel

end Sflow.Run

import Mathlib.Logic.Function.Basic

/-!
# Interleaved agents and a lock

A configuration is a shared state and a control point for each of any number of
agents.  One agent moves at a time; the control points of the others stay.

The lock discipline of one step (`Disciplined`) is local to the agent that
moves: it enters its critical points only by taking the free lock and leaves
them only by releasing it.  Discipline of every step gives mutual exclusion of
every configuration (`Exclusive`).
-/

namespace Sflow.Run

variable {A Sh Pc : Type*}

/-- A shared state and the control point of every agent. -/
structure Cfg (A Sh Pc : Type*) where
  sh : Sh
  pc : A → Pc

namespace Cfg

variable [DecidableEq A]

/-- Agent `a` moves to `pc`, leaving the shared state `sh`. -/
def move (c : Cfg A Sh Pc) (a : A) (sh : Sh) (pc : Pc) : Cfg A Sh Pc :=
  ⟨sh, Function.update c.pc a pc⟩

variable (c : Cfg A Sh Pc) (a : A) (sh : Sh) (pc : Pc)

@[simp] theorem move_sh : (c.move a sh pc).sh = sh := rfl

@[simp] theorem move_pc_self : (c.move a sh pc).pc a = pc := by simp [move]

theorem move_pc_of_ne {b : A} (h : b ≠ a) : (c.move a sh pc).pc b = c.pc b := by
  simp [move, h]

@[simp] theorem move_move (sh' : Sh) (pc' : Pc) :
    (c.move a sh pc).move a sh' pc' = c.move a sh' pc' := by
  rw [move, move, move, Function.update_idem]

@[simp] theorem move_self : c.move a c.sh (c.pc a) = c := by
  rw [move, Function.update_eq_self]

variable {c a sh pc}

/-- A property of all agents after a move: of the one that moved, and of the rest. -/
theorem forall_move {P : A → Pc → Prop} :
    (∀ b, P b ((c.move a sh pc).pc b)) ↔ P a pc ∧ ∀ b, b ≠ a → P b (c.pc b) := by
  constructor
  · intro h
    refine ⟨by simpa using h a, fun b hb ↦ ?_⟩
    simpa only [move_pc_of_ne c a sh pc hb] using h b
  · rintro ⟨ha, hrest⟩ b
    by_cases hb : b = a
    · subst hb
      rwa [move_pc_self]
    · rw [move_pc_of_ne c a sh pc hb]
      exact hrest b hb

/-- A property of every agent and the shared state: the one that moves brings it
about, and the others keep it. -/
theorem forall_move_of_frame {Q : Sh → Pc → Prop} (h : ∀ b, Q c.sh (c.pc b)) (ha : Q sh pc)
    (hframe : ∀ b, b ≠ a → Q c.sh (c.pc b) → Q sh (c.pc b)) (b : A) :
    Q (c.move a sh pc).sh ((c.move a sh pc).pc b) :=
  (forall_move (P := fun _ ↦ Q sh)).mpr ⟨ha, fun b hb ↦ hframe b hb (h b)⟩ b

/-- A property of some agent after a move. -/
theorem exists_move {P : A → Pc → Prop} :
    (∃ b, P b ((c.move a sh pc).pc b)) ↔ P a pc ∨ ∃ b, b ≠ a ∧ P b (c.pc b) := by
  constructor
  · rintro ⟨b, h⟩
    by_cases hb : b = a
    · subst hb
      exact .inl (by simpa using h)
    · exact .inr ⟨b, hb, by simpa only [move_pc_of_ne c a sh pc hb] using h⟩
  · rintro (h | ⟨b, hb, h⟩)
    · exact ⟨a, by simpa using h⟩
    · exact ⟨b, by simpa only [move_pc_of_ne c a sh pc hb] using h⟩

end Cfg

section Lock

variable (locked : Sh → Bool) (crit : Pc → Bool)

/-- A step of one agent respects the lock. -/
def Disciplined (sh : Sh) (pc : Pc) (sh' : Sh) (pc' : Pc) : Prop :=
  match crit pc, crit pc' with
  | false, false => locked sh' = locked sh
  | false, true => locked sh = false ∧ locked sh' = true
  | true, true => locked sh' = locked sh
  | true, false => True

/-- Whoever is at a critical point holds the lock, and at most one agent is. -/
structure Exclusive (c : Cfg A Sh Pc) : Prop where
  held : ∀ a, crit (c.pc a) = true → locked c.sh = true
  alone : ∀ a b, crit (c.pc a) = true → crit (c.pc b) = true → a = b

variable {locked crit}

/-- While one agent is at a critical point, no other is. -/
theorem Exclusive.eq_false_of_ne {c : Cfg A Sh Pc} (h : Exclusive locked crit c) {a b : A}
    (ha : crit (c.pc a) = true) (hb : b ≠ a) : crit (c.pc b) = false := by
  by_contra hcrit
  exact hb (h.alone b a (by simpa using hcrit) ha)

/-- A disciplined step keeps mutual exclusion. -/
theorem Exclusive.move [DecidableEq A] {c : Cfg A Sh Pc} (h : Exclusive locked crit c) {a : A}
    {sh : Sh} {pc : Pc} (hd : Disciplined locked crit c.sh (c.pc a) sh pc) :
    Exclusive locked crit (c.move a sh pc) := by
  have hfree : crit (c.pc a) = false → crit pc = true → ∀ b, crit (c.pc b) = false := by
    intro hout hin b
    simp only [Disciplined, hout, hin] at hd
    by_contra hb
    have hheld := h.held b (by simpa using hb)
    simp [hd.1] at hheld
  have hothers : crit (c.pc a) = true → ∀ b, b ≠ a → crit (c.pc b) = false :=
    fun hin b hb ↦ h.eq_false_of_ne hin hb
  refine ⟨?_, ?_⟩
  · rw [Cfg.forall_move (P := fun _ pc ↦ crit pc = true → locked (c.move a sh _).sh = true)]
    refine ⟨fun hin ↦ ?_, fun b hb hcrit ↦ ?_⟩
    · cases hout : crit (c.pc a) with
      | false => simp only [Disciplined, hout, hin] at hd; exact hd.2
      | true =>
          simp only [Disciplined, hout, hin] at hd
          exact hd.trans (h.held a hout)
    · cases hout : crit (c.pc a) with
      | true => rw [hothers hout b hb] at hcrit; cases hcrit
      | false =>
          cases hin : crit pc with
          | true => rw [hfree hout hin b] at hcrit; cases hcrit
          | false =>
              simp only [Disciplined, hout, hin] at hd
              exact hd.trans (h.held b hcrit)
  · intro b b' hb hb'
    by_cases ha : b = a <;> by_cases ha' : b' = a
    · rw [ha, ha']
    · rw [Cfg.move_pc_of_ne _ _ _ _ ha'] at hb'
      rw [ha, Cfg.move_pc_self] at hb
      cases hout : crit (c.pc a) with
      | true => rw [hothers hout b' ha'] at hb'; cases hb'
      | false => rw [hfree hout hb b'] at hb'; cases hb'
    · rw [Cfg.move_pc_of_ne _ _ _ _ ha] at hb
      rw [ha', Cfg.move_pc_self] at hb'
      cases hout : crit (c.pc a) with
      | true => rw [hothers hout b ha] at hb; cases hb
      | false => rw [hfree hout hb' b] at hb; cases hb
    · rw [Cfg.move_pc_of_ne _ _ _ _ ha] at hb
      rw [Cfg.move_pc_of_ne _ _ _ _ ha'] at hb'
      exact h.alone b b' hb hb'

end Lock

end Sflow.Run

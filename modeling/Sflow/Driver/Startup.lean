import Sflow.Driver.Watch

/-!
# Start-up

The master thread clears `to_watch` as the first thing it does, without the lock, and the
door is opened without waiting for that.  A source that is added before is forgotten again.
-/

namespace Sflow

open C

/-- The descriptor that is to be watched for a source: from the section that adds it until it
is about to be stopped. -/
def SourceAt.watchFd (pt : SourceAt) : Option Nat :=
  if pt.flow && (pt.phase = .watched || pt.phase = .listed) then some pt.src.ssFd else none

namespace WatchState

variable {s s' : WatchState} {addr : Nat} {src : SflowSource}

def watchTable (s : WatchState) (addr : Nat) : Option Nat := (s.sources addr).bind SourceAt.watchFd

/-- When `to_watch` is cleared, nothing is to be watched yet. -/
def ClearsNothing (s : WatchState) : WatchAct → Prop
  | .master .zero => ∀ addr, s.watchTable addr = none
  | _ => True

/-- What is to be watched is watched. -/
def Watches (s : WatchState) : Prop :=
  ∀ addr fd, s.watchTable addr = some fd → s.registry.toWatch fd = true

theorem watchTable_moved (s : WatchState) (addr : Nat) (pt : Option SourceAt) :
    (s.moved addr pt).watchTable =
      Function.update s.watchTable addr (pt.bind SourceAt.watchFd) := by
  funext i
  by_cases hi : i = addr <;> simp [watchTable, moved, hi]

/-- Whatever is to be watched has a slot. -/
theorem slotTable_of_watchTable {fd : Nat} (h : s.watchTable addr = some fd) :
    s.slotTable addr = some fd := by
  unfold watchTable at h
  unfold slotTable
  cases hpt : s.sources addr with
  | none =>
      rw [hpt] at h
      cases h
  | some pt =>
      obtain ⟨phase, src⟩ := pt
      rw [hpt, Option.bind_some, SourceAt.watchFd, Option.ite_none_right_eq_some] at h
      rw [Option.bind_some, SourceAt.slotFd, Option.ite_none_right_eq_some]
      refine ⟨?_, h.2⟩
      rw [Bool.and_eq_true] at h ⊢
      refine ⟨h.1.1, ?_⟩
      have hphase := h.1.2
      cases phase <;> first | rfl | cases hphase

/-- A phase in which nothing new is to be watched. -/
theorem Watches.moved (h : s.Watches) {pt : Option SourceAt}
    (hpt : pt.bind SourceAt.watchFd = none ∨ pt.bind SourceAt.watchFd = s.watchTable addr) :
    (s.moved addr pt).Watches := by
  intro addr' fd hfd
  rw [watchTable_moved] at hfd
  by_cases haddr : addr' = addr
  · rw [haddr, Function.update_self] at hfd
    rcases hpt with hnone | hsame
    · rw [hnone] at hfd
      cases hfd
    · exact h addr fd (hsame.symm.trans hfd)
  · rw [Function.update_of_ne haddr] at hfd
    exact h addr' fd hfd

/-- More descriptors are watched. -/
theorem Watches.watch (h : s.Watches) (hflow : src.ssType = .flowsample) :
    { s.moved addr (some ⟨.watched, src⟩) with
      registry := s.registry.watch src.ssFd addr }.Watches := by
  intro addr' fd hfd
  change (s.moved addr _).watchTable addr' = some fd at hfd
  change Function.update s.registry.toWatch src.ssFd true fd = true
  rw [watchTable_moved] at hfd
  by_cases haddr : addr' = addr
  · have hwatched : (some (SourceAt.mk .watched src)).bind SourceAt.watchFd = some src.ssFd := by
      simp [SourceAt.watchFd, SourceAt.flow, hflow]
    rw [haddr, Function.update_self, hwatched] at hfd
    cases hfd
    exact Function.update_self _ _ _
  · rw [Function.update_of_ne haddr] at hfd
    rw [Function.update_apply]
    split
    · rfl
    · exact h addr' fd hfd

/-- The descriptor that is no longer watched is that of no other source. -/
theorem Watches.unwatch (h : s.Watches) (hinv : s.Inv)
    (hpt : s.sources addr = some ⟨.stopping, src⟩) (hflow : src.ssType = .flowsample) :
    { s.moved addr (some ⟨.unwatched, src⟩) with
      registry := s.registry.unwatch src.ssFd }.Watches := by
  intro addr' fd hfd
  change (s.moved addr _).watchTable addr' = some fd at hfd
  change Function.update s.registry.toWatch src.ssFd false fd = true
  have hslot : s.slotTable addr = some src.ssFd := by
    simp [slotTable, hpt, SourceAt.slotFd, SourceAt.flow, hflow, Phase.slotted]
  rw [watchTable_moved] at hfd
  by_cases haddr : addr' = addr
  · have hgone : (some (SourceAt.mk .unwatched src)).bind SourceAt.watchFd = none := by
      simp [SourceAt.watchFd]
    rw [haddr, Function.update_self, hgone] at hfd
    cases hfd
  · rw [Function.update_of_ne haddr] at hfd
    have hne : fd ≠ src.ssFd := by
      rintro rfl
      have hslot' := (hinv.slots _ _).mpr (slotTable_of_watchTable hfd)
      rw [(hinv.slots _ _).mpr hslot] at hslot'
      exact haddr (Option.some.inj hslot').symm
    rw [Function.update_of_ne hne]
    exact h addr' fd hfd

theorem Watches.doorMoves (h : s.Watches) (hinv : s.Inv) (hm : DoorMoves s addr s') :
    s'.Watches := by
  have hnone : ∀ {phase : Phase} {src : SflowSource}, phase ≠ .watched → phase ≠ .listed →
      (s.moved addr (some ⟨phase, src⟩)).Watches := by
    intro phase src hwatched hlisted
    refine h.moved (.inl ?_)
    simp [SourceAt.watchFd, hwatched, hlisted]
  cases hm with
  | make | makePolled | stop | unwatchPolled | close | free => exact hnone (by simp) (by simp)
  | watch _ hflow => exact h.watch hflow
  | watchPolled _ hflow =>
      exact h.moved (.inl (by simp [SourceAt.watchFd, SourceAt.flow, hflow]))
  | insert hpt =>
      exact h.moved (.inr (by simp [watchTable, hpt, SourceAt.watchFd, SourceAt.flow]))
  | unwatch hpt hflow => exact h.unwatch hinv hpt hflow
  | @closePolled src _ hflow =>
      have hclosed : (s.moved addr (some ⟨.closed, src⟩)).Watches := hnone (by simp) (by simp)
      rw [sflowStopSource_of_ne hflow]
      exact hclosed
  | unlink => exact h.moved (.inl rfl)

/-- The master thread clears `to_watch` once, and leaves it alone from then on. -/
theorem Watches.masterStep {act : MasterAct} (h : s.Watches)
    (hclears : s.ClearsNothing (.master act)) (hstep : s.masterStep act = some s') :
    s'.Watches := by
  unfold WatchState.masterStep at hstep
  split at hstep
  case h_1 =>
    cases hstep
    intro addr fd hfd
    change s.watchTable addr = some fd at hfd
    rw [hclears addr] at hfd
    cases hfd
  case h_6 => cases hstep
  all_goals
    cases hstep
    exact h

theorem Watches.step {act : WatchAct} (h : s.Watches) (hinv : s.Inv) (hclears : s.ClearsNothing act)
    (hstep : s.step act = some s') : s'.Watches := by
  cases act with
  | door addr act => exact h.doorMoves hinv (doorMoves_of_doorStep hstep)
  | master act => exact h.masterStep hclears hstep

end WatchState

end Sflow

import Sflow.Run.Basic

/-!
# Polling threads

Every polled source has a thread of its own,
`sflow_polling_source_instance_container_thread`, and `sflow_stop_source` cancels the
thread and frees the source.  Cancellation is deferred: the thread takes notice of it
only at a cancellation point and while cancellation is enabled, and nobody waits
until it has.
-/

namespace Sflow

open Run

/-- Where a polling thread stands: the operation it does next. -/
inductive PollPc where
  /-- Logs the time, with cancellation still enabled. -/
  | start
  | disable
  | setspecific
  | loadSrc
  /-- `assert(src->ss_type > SF_SRC_FLOWSAMPLE)`. -/
  | checkType
  | enable
  /-- Evaluates `src->ss_src.ss_p.ss_interval` for the call of `sleep`. -/
  | readInterval
  | sleep
  | disableAgain
  | showTime
  /-- Logs `data->src->ss_name`. -/
  | readName
  /-- In the sampling function of the source. -/
  | getSample
  | append
  | exited
deriving DecidableEq, Repr

namespace PollPc

/-- The operation after this one, if the thread is not cancelled. -/
def next : PollPc → PollPc
  | start => disable
  | disable => setspecific
  | setspecific => loadSrc
  | loadSrc => checkType
  | checkType => enable
  | enable => readInterval
  | readInterval => sleep
  | sleep => disableAgain
  | disableAgain => showTime
  | showTime => readName
  | readName => getSample
  | getSample => append
  | append => enable
  | exited => exited

/-- `sleep` is a cancellation point, and the output functions may be. -/
def isCancellationPoint : PollPc → Bool
  | start | sleep => true
  | _ => false

/-- The operation reads the source. -/
def readsSrc : PollPc → Bool
  | checkType | readInterval | readName | getSample => true
  | _ => false

/-- The operation reads the data specific to the type of the source. -/
def readsSpecific : PollPc → Bool
  | getSample => true
  | _ => false

/-- In `sleep`, or gone.  A sleep whose time is over has been left. -/
def isAsleep : PollPc → Bool
  | sleep | exited => true
  | _ => false

/-- What the operation does to the cancellation state of the thread. -/
def cancelState (enabled : Bool) : PollPc → Bool
  | disable | disableAgain => false
  | enable => true
  | _ => enabled

end PollPc

/-- Where `sflow_stop_source` stands. -/
inductive StopPc where
  | cancelThread
  | freeSpecific
  | freeSrc
  | returned
deriving DecidableEq, Repr

/-- A polling thread, its source, and a request to remove the source. -/
structure Polling where
  pc : PollPc := .start
  stop : StopPc := .cancelThread
  cancelEnabled : Bool := true
  cancelPending : Bool := false
  specificFreed : Bool := false
  srcFreed : Bool := false
deriving DecidableEq, Repr

/-- What can happen next. -/
inductive PollingAction where
  /-- The thread does its next operation. -/
  | poll
  /-- The sampling function reads on. -/
  | again
  /-- The thread acts on its cancellation. -/
  | cancelled
  /-- `sflow_stop_source` does its next operation. -/
  | stop
deriving DecidableEq, Repr

namespace Polling

/-- The thread is to exit at its next cancellation point. -/
def mustExit (s : Polling) : Bool := s.cancelEnabled && s.cancelPending

def step (s : Polling) : PollingAction → Option Polling
  | .poll =>
      match s.pc with
      | .exited => none
      | .sleep => if s.mustExit then none else some { s with pc := .disableAgain }
      | pc => some { s with pc := pc.next, cancelEnabled := pc.cancelState s.cancelEnabled }
  | .again => if s.pc = .getSample then some s else none
  | .cancelled =>
      if s.pc.isCancellationPoint && s.mustExit then some { s with pc := .exited } else none
  | .stop =>
      match s.stop with
      | .cancelThread =>
          -- `pthread_cancel` fails on a thread that is gone, and then nothing is freed.
          if s.pc = .exited then some { s with stop := .returned }
          else some { s with stop := .freeSpecific, cancelPending := true }
      | .freeSpecific => some { s with stop := .freeSrc, specificFreed := true }
      | .freeSrc => some { s with stop := .returned, srcFreed := true }
      | .returned => none

/-- The next operation of the thread reads what has been freed. -/
def UsesFreed (s : Polling) : Prop :=
  s.srcFreed = true ∧ s.pc.readsSrc = true ∨ s.specificFreed = true ∧ s.pc.readsSpecific = true

instance (s : Polling) : Decidable s.UsesFreed :=
  inferInstanceAs (Decidable (_ ∨ _))

/-- The request goes on to free the source only while the thread is asleep or gone. -/
def StopsAsleep (s : Polling) : PollingAction → Prop
  | .stop => s.stop = .freeSpecific → s.pc.isAsleep = true
  | _ => True

instance (s : Polling) : (l : PollingAction) → Decidable (s.StopsAsleep l)
  | .stop => inferInstanceAs (Decidable (s.stop = .freeSpecific → s.pc.isAsleep = true))
  | .poll | .again | .cancelled => inferInstanceAs (Decidable True)

/-- The source is about to be freed, or part of it is. -/
def Freeing (s : Polling) : Prop :=
  s.stop = .freeSrc ∨ s.specificFreed = true ∨ s.srcFreed = true

/-- Once the source is being freed, the thread does nothing but exit. -/
structure Safe (s : Polling) : Prop where
  enabled : s.pc = .readInterval ∨ s.pc = .sleep → s.cancelEnabled = true
  pending : s.stop ≠ .cancelThread → s.pc ≠ .exited → s.cancelPending = true
  freeing : s.Freeing → s.stop ≠ .cancelThread ∧ s.pc.isAsleep = true

namespace Safe

variable {s s' : Polling}

theorem init : Safe {} := by constructor <;> simp [Freeing]

/-- A thread that goes on is not one whose source is being freed. -/
theorem not_freeing_of_poll (h : Safe s) (hs : s.step .poll = some s') : ¬ s.Freeing := by
  intro hfreeing
  obtain ⟨hstop, hasleep⟩ := h.freeing hfreeing
  cases hpc : s.pc with
  | sleep =>
      have hexit : s.mustExit = true := by
        rw [mustExit, h.enabled (.inr hpc), h.pending hstop (by simp [hpc])]
        rfl
      simp [step, hpc, hexit] at hs
  | exited => simp [step, hpc] at hs
  | _ => simp [hpc, PollPc.isAsleep] at hasleep

theorem poll (h : Safe s) (hs : s.step .poll = some s') : Safe s' := by
  have hnot := h.not_freeing_of_poll hs
  have henabled := h.enabled
  have hpending := h.pending
  cases hpc : s.pc with
  | exited => simp [step, hpc] at hs
  | sleep =>
      rw [step, hpc] at hs
      dsimp only at hs
      split at hs
      · cases hs
      · cases hs
        exact ⟨by simp, fun hstop _ ↦ hpending hstop (by simp [hpc]), fun hf ↦ absurd hf hnot⟩
  | _ =>
      simp only [step, hpc, Option.some.injEq] at hs
      subst hs
      refine ⟨?_, fun hstop _ ↦ hpending hstop (by simp [hpc]), fun hf ↦ absurd hf hnot⟩
      simp_all [PollPc.next, PollPc.cancelState]

theorem step (h : Safe s) {l : PollingAction} (hl : s.StopsAsleep l)
    (hs : s.step l = some s') : Safe s' := by
  cases l with
  | poll => exact h.poll hs
  | again =>
      rw [Polling.step] at hs
      split at hs <;> cases hs
      exact h
  | cancelled =>
      rw [Polling.step] at hs
      split at hs <;> cases hs
      exact ⟨by simp, by simp, fun hf ↦ ⟨(h.freeing hf).1, rfl⟩⟩
  | stop =>
      rw [Polling.step] at hs
      split at hs
      · rename_i hstop
        have hnot : ¬ s.Freeing := fun hf ↦ (h.freeing hf).1 hstop
        split at hs <;> cases hs
        · rename_i hpc
          refine ⟨h.enabled, fun _ hne ↦ absurd hpc hne, fun hf ↦ absurd ?_ hnot⟩
          simpa [Freeing, hstop] using hf
        · refine ⟨h.enabled, fun _ _ ↦ rfl, fun hf ↦ absurd ?_ hnot⟩
          simpa [Freeing, hstop] using hf
      · rename_i hstop
        cases hs
        exact ⟨h.enabled, fun _ ↦ h.pending (by simp [hstop]), fun _ ↦ ⟨by simp, hl hstop⟩⟩
      · rename_i hstop
        cases hs
        exact ⟨h.enabled, fun _ ↦ h.pending (by simp [hstop]),
          fun _ ↦ ⟨by simp, (h.freeing (.inl hstop)).2⟩⟩
      · cases hs

theorem not_usesFreed (h : Safe s) : ¬ s.UsesFreed := by
  have hasleep : s.Freeing → s.pc.readsSrc = false ∧ s.pc.readsSpecific = false := by
    intro hf
    have hpc := (h.freeing hf).2
    cases hs : s.pc <;> simp_all [PollPc.isAsleep, PollPc.readsSrc, PollPc.readsSpecific]
  rintro (⟨hfreed, hreads⟩ | ⟨hfreed, hreads⟩)
  · rw [(hasleep (.inr (.inr hfreed))).1] at hreads
    cases hreads
  · rw [(hasleep (.inr (.inl hfreed))).2] at hreads
    cases hreads

end Safe

end Polling

/-- In every interleaving of a polling thread with a request to remove its source in
which the request frees the source only while the thread is in `sleep` or gone: the
thread never reads from a source that has been freed.  A sleep whose time is over counts
as left, also before the thread goes on. -/
theorem not_usesFreed_of_stopsAsleep {ls : List PollingAction} {s : Polling}
    (h : run Polling.step {} ls = some s)
    (hasleep : Meets Polling.step Polling.StopsAsleep {} ls) : ¬ s.UsesFreed :=
  (run_induction_of_meets (fun _ _ _ h hl hs ↦ Polling.Safe.step h hl hs) Polling.Safe.init hasleep
    h).not_usesFreed

/-- A thread that is removed in its sleep. -/
theorem not_usesFreed_asleep :
    let ls : List PollingAction :=
      List.replicate 7 .poll ++ [.stop, .stop, .stop, .cancelled]
    ∃ s, run Polling.step {} ls = some s ∧ s.srcFreed = true ∧ ¬ s.UsesFreed := by
  intro ls
  have hrun : (run Polling.step {} ls).any (·.srcFreed) = true := by decide
  obtain ⟨s, hs, hfreed⟩ := (Option.any_eq_true _ _).mp hrun
  exact ⟨s, hs, hfreed, not_usesFreed_of_stopsAsleep hs (by decide)⟩

/-- How many operations there are before the next that reads the source. -/
def PollPc.untilRead : PollPc → Nat
  | start => 4
  | disable => 3
  | setspecific | disableAgain | append => 2
  | loadSrc | enable | showTime => 1
  | checkType | readInterval | sleep | readName | getSample | exited => 0

/-- Freed at any other time, the source is read again unless the thread is cancelled before. -/
theorem exists_usesFreed_of_not_asleep {s : Polling} (hstop : s.stop = .freeSpecific)
    (hpc : s.pc.isAsleep = false) :
    ∃ s', run Polling.step s (.stop :: .stop :: List.replicate s.pc.untilRead .poll) = some s' ∧
      s'.UsesFreed := by
  obtain ⟨pc, stop, enabled, pending, specificFreed, srcFreed⟩ := s
  cases hstop
  cases pc with
  | sleep | exited => cases hpc
  | _ => exact ⟨_, rfl, .inl ⟨rfl, rfl⟩⟩

/-- The source is removed while its thread is starting up. -/
def PollingAction.stopAtStart : List PollingAction :=
  [.stop, .stop, .stop] ++ List.replicate 4 .poll

/-- The source is removed while its thread is sampling. -/
def PollingAction.stopInSample : List PollingAction :=
  List.replicate 11 .poll ++ [.stop, .stop, .again]

/-- The source is removed before its thread goes to sleep again. -/
def PollingAction.stopBeforeSleep : List PollingAction :=
  List.replicate 12 .poll ++ [.stop, .stop, .stop] ++ List.replicate 2 .poll

/-- In each of the three runs the thread is about to read what has been freed. -/
theorem exists_usesFreed :
    (∃ s, run Polling.step {} PollingAction.stopAtStart = some s ∧ s.UsesFreed) ∧
    (∃ s, run Polling.step {} PollingAction.stopInSample = some s ∧ s.UsesFreed) ∧
    ∃ s, run Polling.step {} PollingAction.stopBeforeSleep = some s ∧ s.UsesFreed := by
  refine ⟨⟨_, rfl, ?_⟩, ⟨_, rfl, ?_⟩, _, rfl, ?_⟩
  · exact .inl ⟨rfl, rfl⟩
  · exact .inr ⟨rfl, rfl⟩
  · exact .inl ⟨rfl, rfl⟩

end Sflow

import Sflow.Sender.Buffering

/-!
# When the timer is there

`sflow_alarm_indicator` stands for a timer that runs: whoever takes it starts one,
and a flush gives it back.  A thread decides before its section whether a timer
is needed, and appends its sample in the section.  A flush that the handler makes
in between gives the indicator back and does not start a timer again, and then
the sample waits for the next call.
-/

namespace Sflow

open C Run

variable {T R : Type} {p : Platform}

namespace Pc

/-- About to start the timer for a sample. -/
def starts : Pc p R → Bool
  | alarm _ => true
  | _ => false

/-- With a sample and waiting for the mutex. -/
def waits : Pc p R → Bool
  | lock _ => true
  | _ => false

/-- Outside of `sflow_append_sample_to_send`, or waiting for a signal. -/
def atRest : Pc p R → Bool
  | idle | sigwait => true
  | _ => false

/-- The handler, about to give the indicator back. -/
def releases : Pc p R → Bool
  | send none .unlockIndicator => true
  | _ => false

end Pc

/-- If the agent gives the indicator back from the handler while a thread waits with a
sample, another flush is on its way. -/
def Sender.Covers (s : Sender T p R) (a : Agent T) : Prop :=
  (s.pc a).releases = true → (∃ b, (s.pc b).waits = true) →
    s.sh.alarm = true ∨ s.sh.sigalrm = true ∨ ∃ b, (s.pc b).starts = true

/-- The handler gives the indicator back only if it leaves no sample behind. -/
def HandsOver (s : Sender T p R) : Action T p R → Prop
  | .run a _ => s.Covers a
  | _ => True

instance [Fintype T] (s : Sender T p R) : (l : Action T p R) → Decidable (HandsOver s l)
  | .run a _ => inferInstanceAs (Decidable
      ((s.pc a).releases = true → (∃ b, (s.pc b).waits = true) →
        s.sh.alarm = true ∨ s.sh.sigalrm = true ∨ ∃ b, (s.pc b).starts = true))
  | .call _ _ | .expire => inferInstanceAs (Decidable True)

/-- No thread is in `sflow_append_sample_to_send`, and the handler waits for a signal. -/
def Sender.Quiescent (s : Sender T p R) : Prop := ∀ a, (s.pc a).atRest = true

instance [Fintype T] (s : Sender T p R) : Decidable s.Quiescent :=
  inferInstanceAs (Decidable (∀ a, (s.pc a).atRest = true))

/-! ## Who relies on the timer -/

namespace Pc

/-- About to start the timer, or with its signal up to where the indicator is given back. -/
def awaited : Pc p R → Bool
  | alarm _ | realarm _ | sigLock | send none .unlockIndicator => true
  | _ => false

/-- With a sample to append, and done with the question whether there is a timer. -/
def decided : Pc p R → Bool
  | lock _ | check _ | append _ => true
  | _ => false

/-- In a flush for a sample that does not fit: the timer off, the indicator still taken. -/
def cancelled : Pc p R → Bool
  | send (some _) .unlockIndicator => true
  | _ => false

/-- In such a flush, with the indicator given back and the timer to be started again. -/
def rearms : Pc p R → Bool
  | send (some _) .unlockIndicator => false
  | send (some _) _ | retrylock _ => true
  | _ => false

/-- The handler, about to take all samples out of the buffer. -/
def packs : Pc p R → Bool
  | send none .pack => true
  | _ => false

/-- A flush will come by itself, or by what the agent does. -/
def Arms (sh : Shared p R) (pc : Pc p R) : Prop :=
  sh.alarm = true ∨ sh.sigalrm = true ∨ pc.awaited = true

end Pc

/-- A flush will come by itself: the timer runs, or its signal is pending or not yet
handled, or an agent is about to start the timer. -/
def Sender.Armed (s : Sender T p R) : Prop :=
  s.sh.alarm = true ∨ s.sh.sigalrm = true ∨ ∃ a, (s.pc a).awaited = true

/-- There are samples that a flush has to come for. -/
def Sender.Demands (s : Sender T p R) : Prop :=
  (∃ a, (s.pc a).decided = true) ∨ s.sh.waiting ≠ [] ∧ ∀ a, (s.pc a).packs = false

/-! ## The effect of a step -/

/-- What a step does to the timer and to those who rely on it. -/
inductive Timing (sh : Shared p R) (pc : Pc p R) (sh' : Shared p R) (pc' : Pc p R) : Prop
  | cancel (hcancelled : pc'.cancelled = true)
  | release (hrearms : pc'.rearms = true) (hind : sh'.sflowAlarmIndicator = false)
  | handle (hpc : pc = .send none .unlockIndicator)
      (hsh : sh' = { sh with sflowAlarmIndicator := false }) (hpc' : pc' = .send none .pack)
  | keep (hcancelled : pc.cancelled = false) (harms : pc.Arms sh → pc'.Arms sh')
      (hind : sh'.sflowAlarmIndicator = true → sh.sflowAlarmIndicator = true ∨ pc'.Arms sh')
      (hrearms : pc.rearms = true →
        pc'.rearms = true ∨ sh.sflowAlarmIndicator = true ∨ pc'.Arms sh')
      (hdecided : pc'.decided = true → pc.decided = true ∨ pc.rearms = true ∨
        sh.sflowAlarmIndicator = true ∨ pc'.Arms sh')
      (hwaiting : sh'.waiting ≠ [] → pc'.packs = false →
        pc.decided = true ∨ sh.waiting ≠ [] ∧ pc.packs = false)

theorem Moves.timing {env : Env R} {sh sh' : Shared p R} {pc pc' : Pc p R}
    (h : Moves env sh pc sh' pc') : Timing sh pc sh' pc' := by
  cases h with
  | cancel => exact .cancel rfl
  | @unlockIndicator caller =>
      cases caller with
      | none => exact .handle rfl rfl rfl
      | some node => exact .release rfl rfl
  | @packAborts caller | @startFaults caller | @pack caller | @flatFaults caller | @flat caller
  | @send caller | @create caller =>
      cases caller <;> refine .keep rfl ?_ ?_ ?_ ?_ ?_ <;>
        simp_all [Pc.Arms, Pc.awaited, Pc.decided, Pc.rearms, Pc.packs, Shared.waiting, returnPc]
  | _ =>
      refine .keep rfl ?_ ?_ ?_ ?_ ?_ <;>
        simp_all [Pc.Arms, Pc.awaited, Pc.decided, Pc.rearms, Pc.packs, Shared.waiting]

section Moves

variable [DecidableEq T] {s : Sender T p R} {a : Agent T} {sh : Shared p R} {pc : Pc p R}

theorem Pc.Arms.move (h : pc.Arms sh) : Sender.Armed (s.move a sh pc) := by
  rcases h with h | h | h
  · exact .inl h
  · exact .inr (.inl h)
  · exact .inr (.inr ⟨a, by rwa [Cfg.move_pc_self]⟩)

/-- Where the agent keeps a flush on its way, one stays on its way. -/
theorem Sender.Armed.move (h : s.Armed) (harms : (s.pc a).Arms s.sh → pc.Arms sh) :
    Sender.Armed (s.move a sh pc) := by
  rcases h with h | h | ⟨b, hb⟩
  · exact (harms (.inl h)).move
  · exact (harms (.inr (.inl h))).move
  · by_cases hba : b = a
    · exact (harms (.inr (.inr (hba ▸ hb)))).move
    · exact .inr (.inr ⟨b, by rwa [Cfg.move_pc_of_ne _ _ _ _ hba]⟩)

end Moves

/-! ## Along a run -/

/-- What holds of the timer, but for the part of a flush that has turned it off. -/
structure Settled (s : Sender T p R) : Prop where
  indicator : s.sh.sflowAlarmIndicator = true → s.Armed
  demands : s.Demands → s.Armed ∨ ∃ a, (s.pc a).rearms = true

structure Timed (s : Sender T p R) : Prop where
  buffered : Buffered s
  settled : (∀ a, (s.pc a).cancelled = false) → Settled s

namespace Timed

theorem init : Timed (Sender.init : Sender T p R) where
  buffered := Buffered.init
  settled _ := by
    refine ⟨fun h ↦ (by cases h), ?_⟩
    rintro (⟨_ | _, h⟩ | ⟨h, -⟩)
    · cases h
    · cases h
    · exact absurd rfl h

/-- At rest nobody but the timer is left to come for the samples. -/
theorem armed_of_quiescent {s : Sender T p R} (h : Timed s) (hq : s.Quiescent)
    (hwaiting : s.sh.waiting ≠ []) : s.sh.alarm = true ∨ s.sh.sigalrm = true := by
  have hrest : ∀ P : Pc p R → Bool, (∀ pc, pc.atRest = true → P pc = false) →
      ∀ a, P (s.pc a) = false := fun P hP a ↦ hP _ (hq a)
  have hcancelled := hrest Pc.cancelled fun pc hpc ↦ by cases pc <;> first | rfl | cases hpc
  have hpacks := hrest Pc.packs fun pc hpc ↦ by cases pc <;> first | rfl | cases hpc
  have hrearms := hrest Pc.rearms fun pc hpc ↦ by cases pc <;> first | rfl | cases hpc
  have hawaited := hrest Pc.awaited fun pc hpc ↦ by cases pc <;> first | rfl | cases hpc
  rcases (h.settled hcancelled).demands (.inr ⟨hwaiting, hpacks⟩) with
    (halarm | hsigalrm | ⟨a, ha⟩) | ⟨a, ha⟩
  · exact .inl halarm
  · exact .inr hsigalrm
  · simp [hawaited a] at ha
  · simp [hrearms a] at ha

variable [DecidableEq T] {s s' : Sender T p R}

/-- The step of the handler that the condition is about. -/
theorem settled_of_handle (h : Timed s) {a : Agent T}
    (hpc : s.pc a = .send none .unlockIndicator) (hcovers : s.Covers a) :
    Settled (s.move a { s.sh with sflowAlarmIndicator := false } (.send none .pack)) := by
  refine ⟨fun hind ↦ (by cases hind), ?_⟩
  rintro (hdecided | ⟨-, hpacks⟩)
  · rw [Cfg.exists_move (P := fun _ (pc : Pc p R) ↦ pc.decided = true)] at hdecided
    obtain ⟨b, hb, hdecided⟩ := hdecided.resolve_left (by simp [Pc.decided])
    -- Whoever else has decided is outside of the section, and so it waits for the mutex.
    have hout := h.buffered.exclusive.eq_false_of_ne (a := a) (by rw [hpc]; rfl) hb
    have hwaits : (s.pc b).waits = true := by
      cases hpcb : s.pc b <;> simp_all [Pc.decided, Pc.inSection, Pc.waits]
    left
    rcases hcovers (by rw [hpc]; rfl) ⟨b, hwaits⟩ with harmed | harmed | ⟨c, hc⟩
    · exact .inl harmed
    · exact .inr (.inl harmed)
    · have hca : c ≠ a := by
        rintro rfl
        rw [hpc] at hc
        cases hc
      refine .inr (.inr ⟨c, ?_⟩)
      rw [Cfg.move_pc_of_ne _ _ _ _ hca]
      cases hpcc : s.pc c <;> simp_all [Pc.starts, Pc.awaited]
  · have hpacked := hpacks a
    rw [Cfg.move_pc_self] at hpacked
    cases hpacked

theorem settled_move (h : Timed s) {a : Agent T} {sh : Shared p R} {pc : Pc p R}
    (hcovers : s.Covers a) (htiming : Timing s.sh (s.pc a) sh pc)
    (hnone : ∀ b, ((s.move a sh pc).pc b).cancelled = false) : Settled (s.move a sh pc) := by
  obtain ⟨hself, hothers⟩ :=
    Cfg.forall_move (P := fun _ (pc : Pc p R) ↦ pc.cancelled = false) |>.mp hnone
  cases htiming with
  | cancel hcancelled =>
      rw [hself] at hcancelled
      cases hcancelled
  | release hrearms hind =>
      refine ⟨fun hind' ↦ ?_, fun _ ↦ .inr ⟨a, by rwa [Cfg.move_pc_self]⟩⟩
      rw [Cfg.move_sh, hind] at hind'
      cases hind'
  | handle hpc hsh hpc' =>
      rw [hsh, hpc']
      exact h.settled_of_handle hpc hcovers
  | keep hcancelled harms hind hrearms hdecided hwaiting =>
      have hsettled := h.settled fun b ↦ by
        by_cases hb : b = a
        · rw [hb, hcancelled]
        · exact hothers b hb
      have harmed : s.sh.sflowAlarmIndicator = true → Sender.Armed (s.move a sh pc) :=
        fun hlocked ↦ (hsettled.indicator hlocked).move harms
      have hkeep : s.Armed ∨ (∃ b, (s.pc b).rearms = true) →
          Sender.Armed (s.move a sh pc) ∨ ∃ b, ((s.move a sh pc).pc b).rearms = true := by
        rintro (hs | ⟨b, hb⟩)
        · exact .inl (hs.move harms)
        · by_cases hba : b = a
          · rcases hrearms (hba ▸ hb) with hpc | hlocked | hpc
            · exact .inr ⟨a, by rwa [Cfg.move_pc_self]⟩
            · exact .inl (harmed hlocked)
            · exact .inl hpc.move
          · exact .inr ⟨b, by rwa [Cfg.move_pc_of_ne _ _ _ _ hba]⟩
      refine ⟨fun hlocked ↦ ?_, ?_⟩
      · rcases hind hlocked with hlocked | hpc
        · exact harmed hlocked
        · exact hpc.move
      · rintro (hex | ⟨hne, hpacks⟩)
        · rw [Cfg.exists_move (P := fun _ (pc : Pc p R) ↦ pc.decided = true)] at hex
          rcases hex with hpc | ⟨b, -, hb⟩
          · rcases hdecided hpc with hdec | hre | hlocked | hpc
            · exact hkeep (hsettled.demands (.inl ⟨a, hdec⟩))
            · exact hkeep (.inr ⟨a, hre⟩)
            · exact .inl (harmed hlocked)
            · exact .inl hpc.move
          · exact hkeep (hsettled.demands (.inl ⟨b, hb⟩))
        · obtain ⟨hpacka, hpackb⟩ :=
            Cfg.forall_move (P := fun _ (pc : Pc p R) ↦ pc.packs = false) |>.mp hpacks
          rcases hwaiting hne hpacka with hdec | ⟨hne', hpack⟩
          · exact hkeep (hsettled.demands (.inl ⟨a, hdec⟩))
          · refine hkeep (hsettled.demands (.inr ⟨hne', fun b ↦ ?_⟩))
            by_cases hb : b = a
            · rw [hb, hpack]
            · exact hpackb b hb

theorem step (h : Timed s) {l : Action T p R} (hl : HandsOver s l) (hs : s.step l = some s') :
    Timed s' := by
  refine ⟨h.buffered.step hs, fun hnone ↦ ?_⟩
  rcases Sender.step_cases hs with ⟨t, sample, rfl, hidle, rfl⟩ |
    ⟨a, env, sh, pc, rfl, -, hm, rfl⟩ | ⟨rfl, halarm, rfl⟩
  · refine h.settled_move (fun hreleases ↦ ?_) ?_ hnone
    · rw [hidle] at hreleases
      cases hreleases
    · rw [hidle]
      refine .keep rfl ?_ .inl ?_ ?_ ?_ <;>
        simp [Pc.Arms, Pc.awaited, Pc.rearms, Pc.decided, Pc.packs]
  · exact h.settled_move hl hm.timing hnone
  · exact ⟨fun _ ↦ .inr (.inl rfl), fun _ ↦ .inl (.inr (.inl rfl))⟩

theorem run {ls : List (Action T p R)} {s : Sender T p R}
    (h : Run.run Sender.step Sender.init ls = some s)
    (hover : Meets Sender.step HandsOver Sender.init ls) : Timed s :=
  run_induction_of_meets (fun _ _ _ h hl hs ↦ h.step hl hs) init hover h

end Timed

/-- In every run in which the handler gives the indicator back only if it leaves no
sample behind: whenever all threads and the handler are at rest and there are samples
in the buffer, the timer runs or its signal is pending. -/
theorem alarm_or_sigalrm_of_waiting [DecidableEq T] {ls : List (Action T p R)} {s : Sender T p R}
    (h : run Sender.step Sender.init ls = some s)
    (hover : Meets Sender.step HandsOver Sender.init ls) (hq : s.Quiescent)
    (hwaiting : s.sh.waiting ≠ []) : s.sh.alarm = true ∨ s.sh.sigalrm = true :=
  (Timed.run h hover).armed_of_quiescent hq hwaiting

/-- Another sample after a flush, with the timer started for it. -/
theorem alarm_or_sigalrm_of_waiting_again :
    let ls : List (Action Unit .amd64 (List UInt8)) :=
      Action.appendAndFlush ++ .call () .six :: Action.go (.thread ()) .still 6
    ∃ s, run Sender.step Sender.init ls = some s ∧ s.Quiescent ∧ s.sh.waiting ≠ [] ∧
      (s.sh.alarm = true ∨ s.sh.sigalrm = true) := by
  intro ls
  have hrun : (run Sender.step Sender.init ls).any
      (fun s => decide (s.Quiescent ∧ s.sh.waiting.length ≠ 0)) = true := by decide +kernel
  obtain ⟨s, hs, hrest⟩ := (Option.any_eq_true _ _).mp hrun
  obtain ⟨hq, hlen⟩ := of_decide_eq_true hrest
  have hwaiting : s.sh.waiting ≠ [] := fun hnil ↦ hlen (by rw [hnil]; rfl)
  exact ⟨s, hs, hq, hwaiting,
    alarm_or_sigalrm_of_waiting hs (by decide +kernel) hq hwaiting⟩

/-- The timer of a sample expires before its section: the handler sends what there is
and gives the indicator back, and then the sample comes. -/
def Action.expireEarly : List (Action Unit .amd64 (List UInt8)) :=
  .call () .six :: go (.thread ()) .still 2 ++ .expire :: go .handler .still 7 ++
    go (.thread ()) .still 4

/-- All are at rest with a sample in the buffer, and nothing will send it. -/
theorem exists_waiting_without_alarm :
    ∃ s, run Sender.step Sender.init Action.expireEarly = some s ∧ s.Quiescent ∧
      s.sh.waiting ≠ [] ∧ ¬ (s.sh.alarm = true ∨ s.sh.sigalrm = true) := by
  have hrun : (run Sender.step Sender.init Action.expireEarly).any
      (fun s => decide (s.Quiescent ∧ s.sh.waiting.length ≠ 0 ∧
        ¬ (s.sh.alarm = true ∨ s.sh.sigalrm = true))) = true := by decide +kernel
  obtain ⟨s, hs, hrest⟩ := (Option.any_eq_true _ _).mp hrun
  obtain ⟨hq, hlen, halarm⟩ := of_decide_eq_true hrest
  exact ⟨s, hs, hq, fun hnil ↦ hlen (by rw [hnil]; rfl), halarm⟩

end Sflow

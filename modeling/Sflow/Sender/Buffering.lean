import Sflow.Run.Logs
import Sflow.Sender.Machine

/-!
# Nothing is lost in the buffer

The buffer and the datagrams packed from it are an outbox: a thread pushes a
sample in its critical section, and a flush packs all of them.  The list is
freed while it is flushed, and the mutex keeps all others away from it until
there is a new one.
-/

namespace Sflow

open C Run

variable {T R : Type} {p : Platform}

namespace Pc

/-- The section under `sflow_buffered_samples_mtx`. -/
def inSection : Pc p R → Bool
  | check _ | cancel _ | send _ _ | retrylock _ | realarm _ | append _ | unlock | sigUnlock => true
  | _ => false

/-- The part of a flush in which there is no buffer. -/
def freed : Pc p R → Bool
  | send _ (.flat ..) | send _ .create => true
  | _ => false

@[simp] theorem freed_returnPc (caller : Option (SflowDataListNode (SflowSp p R))) :
    (returnPc caller).freed = false := by cases caller <;> rfl

theorem inSection_of_freed {pc : Pc p R} (h : pc.freed = true) : pc.inSection = true := by
  cases pc <;> first | rfl | cases h

end Pc

/-- The section is entered with the mutex and left by giving it back. -/
theorem Moves.disciplined {env : Env R} {sh sh' : Shared p R} {pc pc' : Pc p R}
    (h : Moves env sh pc sh' pc') :
    Disciplined (·.sflowBufferedSamplesMtx) Pc.inSection sh pc sh' pc' := by
  cases h with
  | @create caller => cases caller <;> exact rfl
  | _ => simp_all [Disciplined, Pc.inSection]

/-- What a step does to the buffer. -/
inductive Effect (sh : Shared p R) (pc : Pc p R) (sh' : Shared p R) (pc' : Pc p R) : Prop
  | stay (hbuf : sh'.sflowBufferedSamples = sh.sflowBufferedSamples)
      (happ : sh'.appended = sh.appended) (hpacked : sh'.packed = sh.packed)
      (hab : sh'.aborted = sh.aborted) (hfreed : pc'.freed = pc.freed)
  | push (list : SflowDataList (SflowSp p R)) (node : SflowDataListNode (SflowSp p R))
      (hin : pc.inSection = true) (hlist : sh.sflowBufferedSamples = some list)
      (hbuf : sh'.sflowBufferedSamples = some (sflowDataListAppend list node))
      (happ : sh'.appended = sh.appended ++ [node.sdlnData]) (hpacked : sh'.packed = sh.packed)
      (hab : sh'.aborted = sh.aborted) (hfreed : pc'.freed = pc.freed)
  | flush (list : SflowDataList (SflowSp p R)) (dg : SflowDg p R) (count : Nat) (upTime : UInt32)
      (hin : pc.inSection = true) (hlist : sh.sflowBufferedSamples = some list)
      (hdg : sflowDatagramPack count upTime list = .ok dg)
      (hbuf : sh'.sflowBufferedSamples = none) (happ : sh'.appended = sh.appended)
      (hpacked : sh'.packed = sh.packed ++ [dg.samples]) (hab : sh'.aborted = sh.aborted)
      (hfreed : pc'.freed = true)
  | create (hpc : pc.freed = true) (hbuf : sh'.sflowBufferedSamples = some sflowDataListCreate)
      (happ : sh'.appended = sh.appended) (hpacked : sh'.packed = sh.packed)
      (hab : sh'.aborted = sh.aborted) (hfreed : pc'.freed = false)
  | abort (hin : pc.inSection = true) (hpc : pc.freed = false) (count : Nat) (upTime : UInt32)
      (h : ∀ list dg, sh.sflowBufferedSamples = some list →
        sflowDatagramPack count upTime list ≠ .ok dg)

theorem Moves.effect {env : Env R} {sh sh' : Shared p R} {pc pc' : Pc p R}
    (h : Moves env sh pc sh' pc') : Effect sh pc sh' pc' := by
  cases h with
  | pack hlist hdg => exact .flush _ _ _ _ rfl hlist hdg rfl rfl rfl rfl rfl
  | create => exact .create rfl rfl rfl rfl rfl (Pc.freed_returnPc _)
  | append hlist => exact .push _ _ rfl hlist rfl rfl rfl rfl rfl
  | packAborts h => exact .abort rfl rfl _ _ h
  | checkFreed h => exact .abort rfl rfl 0 0 fun list dg hlist ↦ by simp [h] at hlist
  | appendFreed h => exact .abort rfl rfl 0 0 fun list dg hlist ↦ by simp [h] at hlist
  | _ => exact .stay rfl rfl rfl rfl rfl

/-- Only an agent in the section does anything to the buffer. -/
theorem Effect.frame {sh sh' : Shared p R} {pc pc' : Pc p R} (h : Effect sh pc sh' pc')
    (hout : pc.inSection = false) : sh'.sflowBufferedSamples = sh.sflowBufferedSamples := by
  cases h with
  | stay hbuf => exact hbuf
  | push list node hin => simp [hout] at hin
  | flush list dg count upTime hin => simp [hout] at hin
  | create hpc => simp [Pc.inSection_of_freed hpc] at hout
  | abort hin => simp [hout] at hin

/-- The buffer and the datagrams as an outbox. -/
def Shared.outbox (sh : Shared p R) : Outbox (SflowSp p R) := ⟨sh.packed, sh.waiting⟩

/-- The state of the buffer in every run. -/
structure Buffered (s : Sender T p R) : Prop where
  exclusive : Exclusive (·.sflowBufferedSamplesMtx) Pc.inSection s
  wellFormed : ∀ list, s.sh.sflowBufferedSamples = some list → list.WellFormed
  freed : s.sh.sflowBufferedSamples = none ↔ ∃ a, (s.pc a).freed = true
  log : s.sh.outbox.log = s.sh.appended
  alive : s.sh.aborted = false

namespace Buffered

theorem init : Buffered (Sender.init : Sender T p R) where
  exclusive := by
    have hout : ∀ a, ((Sender.init : Sender T p R).pc a).inSection = false := by
      rintro (_ | _) <;> rfl
    exact ⟨fun a ha ↦ by simp [hout] at ha, fun a b ha ↦ by simp [hout] at ha⟩
  wellFormed list h := by
    cases h
    exact SflowDataList.wellFormed_create
  freed := by
    have hout : ∀ a, ((Sender.init : Sender T p R).pc a).freed = false := by
      rintro (_ | _) <;> rfl
    refine ⟨fun h ↦ (by cases h), ?_⟩
    rintro ⟨a, ha⟩
    rw [hout] at ha
    cases ha
  log := rfl
  alive := rfl

variable {s : Sender T p R}

/-- Whoever is in the section has a buffer, but for the part of a flush that has freed it. -/
theorem exists_list (h : Buffered s) {a : Agent T} (hin : (s.pc a).inSection = true)
    (hpc : (s.pc a).freed = false) :
    ∃ list, s.sh.sflowBufferedSamples = some list ∧ list.WellFormed := by
  cases hbuf : s.sh.sflowBufferedSamples with
  | some list => exact ⟨list, rfl, h.wellFormed list hbuf⟩
  | none =>
      obtain ⟨b, hb⟩ := h.freed.mp hbuf
      obtain rfl := h.exclusive.alone a b hin (Pc.inSection_of_freed hb)
      simp [hpc] at hb

/-- In the section nobody else has freed the buffer. -/
theorem not_freed_of_ne (h : Buffered s) {a : Agent T} (hin : (s.pc a).inSection = true)
    {b : Agent T} (hb : b ≠ a) : (s.pc b).freed = false := by
  by_contra hfreed
  have hout := h.exclusive.eq_false_of_ne hin hb
  rw [Pc.inSection_of_freed (by simpa using hfreed)] at hout
  cases hout

/-- An agent in the section finds the buffer as it left it. -/
theorem frame (h : Buffered s) {env : Env R} {a : Agent T} {sh : Shared p R} {pc : Pc p R}
    (hm : Moves env s.sh (s.pc a) sh pc) {b : Agent T} (hb : b ≠ a)
    (hin : (s.pc b).inSection = true) : sh.sflowBufferedSamples = s.sh.sflowBufferedSamples :=
  hm.effect.frame (h.exclusive.eq_false_of_ne hin hb.symm)

/-- The step of an agent on the outbox. -/
theorem outbox_step (h : Buffered s) {a : Agent T} {sh : Shared p R} {pc : Pc p R}
    (he : Effect s.sh (s.pc a) sh pc) :
    ∃ xs, Outbox.Step s.sh.outbox xs sh.outbox ∧ sh.appended = s.sh.appended ++ xs := by
  cases he with
  | stay hbuf happ hpacked =>
      refine ⟨[], ?_, by rw [happ, List.append_nil]⟩
      rw [show sh.outbox = s.sh.outbox by simp [Shared.outbox, Shared.waiting, hbuf, hpacked]]
      exact .stay
  | push list node hin hlist hbuf happ hpacked =>
      refine ⟨[node.sdlnData], ?_, happ⟩
      rw [show sh.outbox = s.sh.outbox.push node.sdlnData by
        simp [Shared.outbox, Shared.waiting, Outbox.push, hbuf, hlist, hpacked]]
      exact .push
  | flush list dg count upTime hin hlist hdg hbuf happ hpacked =>
      refine ⟨[], ?_, by rw [happ, List.append_nil]⟩
      rw [sflowDatagramPack_eq (h.wellFormed list hlist), Except.ok.injEq] at hdg
      rw [show sh.outbox = s.sh.outbox.flush by
        simp [Shared.outbox, Shared.waiting, Outbox.flush, hbuf, hlist, hpacked, ← hdg,
          SflowDg.around]]
      exact .flush
  | create hpc hbuf happ hpacked =>
      refine ⟨[], ?_, by rw [happ, List.append_nil]⟩
      have hnone := h.freed.mpr ⟨a, hpc⟩
      rw [show sh.outbox = s.sh.outbox by
        simp [Shared.outbox, Shared.waiting, hbuf, hnone, hpacked]]
      exact .stay
  | abort hin hpc count upTime hfail =>
      obtain ⟨list, hlist, hwf⟩ := h.exists_list hin hpc
      exact absurd (sflowDatagramPack_eq hwf count upTime) (hfail list _ hlist)

variable [DecidableEq T]

theorem exists_freed_move {a : Agent T} {sh : Shared p R} {pc : Pc p R} :
    (∃ b, ((s.move a sh pc).pc b).freed = true) ↔
      pc.freed = true ∨ ∃ b, b ≠ a ∧ (s.pc b).freed = true :=
  Cfg.exists_move (P := fun (_ : Agent T) (pc : Pc p R) ↦ pc.freed = true)

theorem move (h : Buffered s) {env : Env R} {a : Agent T} {sh : Shared p R} {pc : Pc p R}
    (hm : Moves env s.sh (s.pc a) sh pc) : Buffered (s.move a sh pc) := by
  have hlog : sh.outbox.log = sh.appended := by
    obtain ⟨xs, hstep, happ⟩ := h.outbox_step hm.effect
    rw [hstep.log_eq, h.log, happ]
  have hexcl := h.exclusive.move hm.disciplined
  have hfreed : ∀ b, b ≠ a → (s.pc a).inSection = true → (s.pc b).freed = false :=
    fun b hb hin ↦ h.not_freed_of_ne hin hb
  cases hm.effect with
  | stay hbuf happ hpacked hab hpc =>
      refine ⟨hexcl, ?_, ?_, hlog, hab.trans h.alive⟩
      · intro list hlist
        exact h.wellFormed list (hbuf.symm.trans hlist)
      · rw [exists_freed_move, Cfg.move_sh, hbuf, h.freed, hpc]
        constructor
        · rintro ⟨b, hb⟩
          by_cases hba : b = a
          · exact .inl (hba ▸ hb)
          · exact .inr ⟨b, hba, hb⟩
        · rintro (ha | ⟨b, -, hb⟩)
          · exact ⟨a, ha⟩
          · exact ⟨b, hb⟩
  | push list node hin hlist hbuf happ hpacked hab hpc =>
      have hno : (s.pc a).freed = false := by
        by_contra hf
        rw [h.freed.mpr ⟨a, by simpa using hf⟩] at hlist
        cases hlist
      refine ⟨hexcl, ?_, ?_, hlog, hab.trans h.alive⟩
      · intro list' hlist'
        rw [Cfg.move_sh, hbuf] at hlist'
        cases hlist'
        exact (h.wellFormed list hlist).append node
      · rw [exists_freed_move, Cfg.move_sh, hbuf, hpc, hno]
        simp only [reduceCtorEq, false_iff, Bool.false_eq_true, false_or, not_exists, not_and]
        exact fun b hb ↦ by simp [hfreed b hb hin]
  | flush list dg count upTime hin hlist hdg hbuf happ hpacked hab hpc =>
      refine ⟨hexcl, ?_, ?_, hlog, hab.trans h.alive⟩
      · intro list' hlist'
        rw [Cfg.move_sh, hbuf] at hlist'
        cases hlist'
      · rw [exists_freed_move, Cfg.move_sh, hbuf]
        exact ⟨fun _ ↦ .inl hpc, fun _ ↦ rfl⟩
  | create hpc hbuf happ hpacked hab hpc' =>
      refine ⟨hexcl, ?_, ?_, hlog, hab.trans h.alive⟩
      · intro list' hlist'
        rw [Cfg.move_sh, hbuf] at hlist'
        cases hlist'
        exact SflowDataList.wellFormed_create
      · rw [exists_freed_move, Cfg.move_sh, hbuf, hpc']
        simp only [reduceCtorEq, false_iff, Bool.false_eq_true, false_or, not_exists, not_and]
        exact fun b hb ↦ by simp [hfreed b hb (Pc.inSection_of_freed hpc)]
  | abort hin hpc count upTime hfail =>
      obtain ⟨list, hlist, hwf⟩ := h.exists_list hin hpc
      exact absurd (sflowDatagramPack_eq hwf count upTime) (hfail list _ hlist)

/-- A step that leaves the buffer alone and stays out of the section. -/
theorem step (h : Buffered s) {l : Action T p R} {s' : Sender T p R} (hs : s.step l = some s') :
    Buffered s' := by
  rcases Sender.step_cases hs with ⟨t, sample, rfl, hidle, rfl⟩ |
    ⟨a, env, sh, pc, rfl, -, hm, rfl⟩ | ⟨rfl, -, rfl⟩
  · refine ⟨h.exclusive.move ?_, h.wellFormed, ?_, h.log, h.alive⟩
    · simp [Disciplined, hidle, Pc.inSection]
    · rw [exists_freed_move, Cfg.move_sh, h.freed]
      constructor
      · rintro ⟨b, hb⟩
        refine .inr ⟨b, fun hbt ↦ ?_, hb⟩
        rw [hbt, hidle] at hb
        cases hb
      · rintro (ha | ⟨b, -, hb⟩)
        · cases ha
        · exact ⟨b, hb⟩
  · exact h.move hm
  · exact ⟨⟨h.exclusive.held, h.exclusive.alone⟩, h.wellFormed, h.freed, h.log, h.alive⟩

theorem run {ls : List (Action T p R)} {s : Sender T p R}
    (h : Run.run Sender.step Sender.init ls = some s) : Buffered s :=
  run_induction (fun _ _ _ h hs ↦ h.step hs) init h

end Buffered

/-- In every state that any number of threads, the handler and the timer can reach:
the samples of the datagrams packed so far, followed by those in the buffer, are
the appended samples in the order of their critical sections.  No list is freed
that is not empty, and no freed list is used. -/
theorem no_sample_lost [DecidableEq T] {ls : List (Action T p R)} {s : Sender T p R}
    (h : run Sender.step Sender.init ls = some s) :
    s.sh.packed.flatten ++ s.sh.waiting = s.sh.appended ∧ s.sh.aborted = false :=
  ⟨(Buffered.run h).log, (Buffered.run h).alive⟩

/-- One sample, through the buffer into a datagram. -/
theorem no_sample_lost_appendAndFlush :
    ∃ s : Sender Unit .amd64 (List UInt8),
      run Sender.step Sender.init Action.appendAndFlush = some s ∧
        s.sh.packed.flatten ++ s.sh.waiting = s.sh.appended ∧ s.sh.aborted = false := by
  have hrun : (run Sender.step (Sender.init : Sender Unit .amd64 (List UInt8))
      Action.appendAndFlush).isSome := by decide +kernel
  obtain ⟨s, hs⟩ := Option.isSome_iff_exists.mp hrun
  exact ⟨s, hs, no_sample_lost hs⟩

end Sflow

import Sflow.Run.Logs
import Sflow.Sender.Buffering

/-!
# The numbers of datagrams

Packing a datagram numbers it, and `send_samples` goes on to send it before the mutex is
given back.  So the datagrams leave in the order of their numbers.  What a thread
carries on its way to the buffer goes there in one step.
-/

namespace Sflow

open C Run

variable {T R : Type} {p : Platform}

namespace Pc

/-- The sample that a thread has still to put into the buffer. -/
def carried : Pc p R → List (SflowSp p R)
  | trylock sample | alarm sample => [sample]
  | lock node | check node | cancel node | retrylock node | realarm node | append node
  | send (some node) _ => [node.sdlnData]
  | send none _ | idle | unlock | sigwait | sigLock | sigUnlock => []

/-- The datagram that is being flattened. -/
def inFlight : Pc p R → Option (SflowDg p R)
  | send _ (.flat dg ..) => some dg
  | _ => none

theorem inFlight_of_freed {pc : Pc p R} (h : pc.freed = false) : pc.inFlight = none := by
  cases pc with
  | send caller pc => cases pc <;> first | rfl | cases h
  | _ => rfl

@[simp] theorem inFlight_returnPc (caller : Option (SflowDataListNode (SflowSp p R))) :
    (returnPc caller).inFlight = none := by cases caller <;> rfl

end Pc

/-- A step of an agent puts what the agent carries into the buffer, or nothing. -/
theorem Moves.carried {env : Env R} {sh sh' : Shared p R} {pc pc' : Pc p R}
    (hm : Moves env sh pc sh' pc') :
    sh'.appended = sh.appended ∧ pc'.carried = pc.carried ∨
      ∃ sp, sh'.appended = sh.appended ++ [sp] ∧ pc.carried = [sp] ∧ pc'.carried = [] := by
  cases hm with
  | @append node => exact .inr ⟨node.sdlnData, rfl, rfl, rfl⟩
  | @create caller => cases caller <;> exact .inl ⟨rfl, rfl⟩
  | @unlockIndicator caller => cases caller <;> exact .inl ⟨rfl, rfl⟩
  | @packAborts caller => cases caller <;> exact .inl ⟨rfl, rfl⟩
  | @startFaults caller => cases caller <;> exact .inl ⟨rfl, rfl⟩
  | @pack caller => cases caller <;> exact .inl ⟨rfl, rfl⟩
  | @flatFaults caller => cases caller <;> exact .inl ⟨rfl, rfl⟩
  | @flat caller => cases caller <;> exact .inl ⟨rfl, rfl⟩
  | @send caller => cases caller <;> exact .inl ⟨rfl, rfl⟩
  | _ => exact .inl ⟨rfl, rfl⟩

/-- The number of a datagram, as a collector reads it. -/
def SflowDg.seqNo (dg : SflowDg p R) : UInt32 := ntohl p.endian dg.dgSeq

/-- `dgs` are the datagrams packed so far.  They are numbered from 0 on, and have been sent but
for the last of them, while that is being flattened. -/
structure DatagramsNumbered (s : Sender T p R) (dgs : List (SflowDg p R)) : Prop where
  numbered : Numbered SflowDg.seqNo UInt32.ofNat dgs
  count : s.sh.datagramCount = dgs.length
  packed : s.sh.packed = dgs.map (·.samples)
  flattening : ∀ a dg, (s.pc a).inFlight = some dg → dgs = s.sh.sent.map (·.dg) ++ [dg]
  done : (∀ a, (s.pc a).inFlight = none) → dgs = s.sh.sent.map (·.dg)

namespace DatagramsNumbered

theorem init : DatagramsNumbered (Sender.init : Sender T p R) [] where
  numbered := numbered_nil _ _
  count := rfl
  packed := rfl
  flattening := by rintro (_ | _) dg h <;> cases h
  done _ := rfl

variable {s : Sender T p R} {dgs : List (SflowDg p R)}

/-- What has been sent is numbered, too. -/
theorem sent_numbered (h : DatagramsNumbered s dgs) :
    Numbered SflowDg.seqNo UInt32.ofNat (s.sh.sent.map (·.dg)) ∧
      s.sh.sent.map (·.dg.samples) <+: s.sh.packed := by
  have hprefix : s.sh.sent.map (·.dg) <+: dgs := by
    by_cases hflight : ∃ a dg, (s.pc a).inFlight = some dg
    · obtain ⟨a, dg, ha⟩ := hflight
      exact ⟨[dg], (h.flattening a dg ha).symm⟩
    · simp only [not_exists, ← Option.eq_none_iff_forall_ne_some] at hflight
      rw [← h.done hflight]
  obtain ⟨rest, hrest⟩ := hprefix
  have hnumbered : Numbered SflowDg.seqNo UInt32.ofNat (s.sh.sent.map (·.dg) ++ rest) := by
    rw [hrest]
    exact h.numbered
  constructor
  · exact hnumbered.of_append
  · rw [h.packed, ← hrest, List.map_append, List.map_map]
    exact List.prefix_append _ _

variable [DecidableEq T] {a : Agent T} {sh : Shared p R} {pc : Pc p R}

/-- A step that neither packs nor sends. -/
theorem frame (h : DatagramsNumbered s dgs) (hcount : sh.datagramCount = s.sh.datagramCount)
    (hpacked : sh.packed = s.sh.packed) (hsent : sh.sent = s.sh.sent)
    (hflight : pc.inFlight = (s.pc a).inFlight) : DatagramsNumbered (s.move a sh pc) dgs := by
  have hall : ∀ b, ((s.move a sh pc).pc b).inFlight = (s.pc b).inFlight := by
    intro b
    by_cases hb : b = a
    · rw [hb, Cfg.move_pc_self, hflight]
    · rw [Cfg.move_pc_of_ne _ _ _ _ hb]
  constructor
  · exact h.numbered
  · exact hcount.trans h.count
  · exact hpacked.trans h.packed
  · intro b dg hb
    rw [hall] at hb
    rw [Cfg.move_sh, hsent]
    exact h.flattening b dg hb
  · intro hnone
    rw [Cfg.move_sh, hsent]
    refine h.done fun b ↦ ?_
    rw [← hall b]
    exact hnone b

theorem move (h : DatagramsNumbered s dgs) (hbuffered : Buffered s) {env : Env R}
    (hm : Moves env s.sh (s.pc a) sh pc) : ∃ dgs', DatagramsNumbered (s.move a sh pc) dgs' := by
  have hothers : (s.pc a).inSection = true → ∀ b, b ≠ a → (s.pc b).inFlight = none :=
    fun hin b hb ↦ Pc.inFlight_of_freed (hbuffered.not_freed_of_ne hin hb)
  generalize hpc : s.pc a = pc₀ at hm
  have hflight := (congrArg Pc.inFlight hpc).symm
  cases hm with
  | @pack caller list dg buf offBuf size hlist hdg =>
      have hin : (s.pc a).inSection = true := by rw [hpc]; rfl
      have hnone : ∀ b, (s.pc b).inFlight = none := by
        intro b
        by_cases hb : b = a
        · rw [hb, ← hflight]
          rfl
        · exact hothers hin b hb
      have hsent := h.done hnone
      have hseq : dg.seqNo = UInt32.ofNat dgs.length := by
        rw [sflowDatagramPack_eq (hbuffered.wellFormed list hlist), Except.ok.injEq] at hdg
        rw [← hdg, SflowDg.seqNo, SflowDg.around, ntohl_htonl, h.count]
      refine ⟨dgs ++ [dg], h.numbered.concat hseq, ?_, ?_, ?_, ?_⟩
      · rw [Cfg.move_sh, List.length_append, ← h.count]
        rfl
      · rw [Cfg.move_sh, List.map_append, ← h.packed]
        rfl
      · refine (Cfg.forall_move (P := fun _ (pc : Pc p R) ↦ ∀ dg', pc.inFlight = some dg' →
          dgs ++ [dg] = s.sh.sent.map (·.dg) ++ [dg'])).mpr ⟨?_, ?_⟩
        · rintro _ ⟨⟩
          rw [← hsent]
        · intro b hb dg' hdg'
          rw [hothers hin b hb] at hdg'
          cases hdg'
      · intro hnone
        have ha := hnone a
        rw [Cfg.move_pc_self] at ha
        cases ha
  | @send caller dg todo buf offBuf =>
      have hin : (s.pc a).inSection = true := by rw [hpc]; rfl
      have hdgs := h.flattening a dg hflight.symm
      let s' := s.move a { s.sh with sent := s.sh.sent ++ [⟨dg, buf.data⟩] } (.send caller .create)
      have hnone : ∀ b, (s'.pc b).inFlight = none :=
        (Cfg.forall_move (P := fun _ (pc : Pc p R) ↦ pc.inFlight = none)).mpr ⟨rfl, hothers hin⟩
      refine ⟨dgs, h.numbered, h.count, h.packed, fun b dg' hdg' ↦ ?_, fun _ ↦ ?_⟩
      · rw [hnone b] at hdg'
        cases hdg'
      · rw [hdgs, Cfg.move_sh, List.map_append]
        rfl
  | create => exact ⟨dgs, h.frame rfl rfl rfl ((Pc.inFlight_returnPc _).trans hflight)⟩
  | _ => exact ⟨dgs, h.frame rfl rfl rfl hflight⟩

theorem step (h : DatagramsNumbered s dgs) (hbuffered : Buffered s) {l : Action T p R}
    {s' : Sender T p R} (hs : s.step l = some s') : ∃ dgs', DatagramsNumbered s' dgs' := by
  rcases Sender.step_cases hs with ⟨t, sample, rfl, hidle, rfl⟩ |
    ⟨a, env, sh, pc, rfl, -, hm, rfl⟩ | ⟨rfl, -, rfl⟩
  · refine ⟨dgs, h.frame rfl rfl rfl ?_⟩
    rw [hidle]
    rfl
  · exact h.move hbuffered hm
  · exact ⟨dgs, h.numbered, h.count, h.packed, h.flattening, h.done⟩

end DatagramsNumbered

end Sflow

import Sflow.Sender.Buffering

/-!
# Datagrams without samples

A flush sends what is in the buffer, and nothing keeps it from sending nothing.
There are two ways to get there.  A sample that does not fit flushes the buffer
first, even if there is nothing in it.  And the handler flushes for every signal
that it takes: `alarm(0)` stops the timer but not a signal that is already
pending, so the timer that is started after a flush can expire on a buffer that
the earlier signal has flushed in the meantime.
-/

namespace Sflow

open C Run

variable {T R : Type} {p : Platform}

/-- The buffer does not count as empty in a datagram. -/
def Shared.HasData (sh : Shared p R) : Prop :=
  ∀ list ∈ sh.sflowBufferedSamples, UInt32.ofNat list.sdlCount ≠ 0

instance (sh : Shared p R) : Decidable sh.HasData :=
  inferInstanceAs (Decidable (∀ list ∈ sh.sflowBufferedSamples, _))

/-- If an agent enters a flush next, there are samples in the buffer. -/
def Pc.FlushesData (sh : Shared p R) : Pc p R → Prop
  | check node => (∀ list ∈ sh.sflowBufferedSamples, overflows list node = true) → sh.HasData
  | sigLock => sh.HasData
  | _ => True

instance (sh : Shared p R) : (pc : Pc p R) → Decidable (pc.FlushesData sh)
  | .check node => inferInstanceAs (Decidable
      ((∀ list ∈ sh.sflowBufferedSamples, overflows list node = true) → sh.HasData))
  | .sigLock => inferInstanceAs (Decidable sh.HasData)
  | .idle | .trylock _ | .alarm _ | .lock _ | .cancel _ | .send _ _ | .retrylock _ | .realarm _
  | .append _ | .unlock | .sigwait | .sigUnlock => inferInstanceAs (Decidable True)

/-- A step that enters a flush enters it with samples in the buffer. -/
def FlushesData (s : Sender T p R) : Action T p R → Prop
  | .run a _ => (s.pc a).FlushesData s.sh
  | _ => True

instance (s : Sender T p R) : (l : Action T p R) → Decidable (FlushesData s l)
  | .run a _ => inferInstanceAs (Decidable ((s.pc a).FlushesData s.sh))
  | .call _ _ | .expire => inferInstanceAs (Decidable True)

/-- What the operation that an agent does next knows about the samples to send. -/
def Pc.Carries (sh : Shared p R) : Pc p R → Prop
  | cancel _ | send _ .unlockIndicator | send _ .pack => sh.HasData
  | send _ (.flat dg ..) => ntohl p.endian dg.sampleNum ≠ 0
  | _ => True

/-- Outside of the section an agent knows nothing about the buffer. -/
theorem Pc.Carries.frame {sh sh' : Shared p R} {pc : Pc p R} (h : pc.Carries sh)
    (hframe : pc.inSection = true → sh'.sflowBufferedSamples = sh.sflowBufferedSamples) :
    pc.Carries sh' := by
  have hdata : pc.inSection = true → sh.HasData → sh'.HasData := by
    intro hin hdata list hlist
    exact hdata list ((hframe hin).symm.trans hlist)
  cases pc with
  | cancel node => exact hdata rfl h
  | send caller pc =>
      cases pc with
      | unlockIndicator => exact hdata rfl h
      | pack => exact hdata rfl h
      | flat dg => exact h
      | create => trivial
  | _ => trivial

/-- Packing a buffer with samples makes a datagram that carries them. -/
theorem sampleNum_of_sflowDatagramPack {list : SflowDataList (SflowSp p R)} {dg : SflowDg p R}
    {datagramCount : Nat} {upTime : UInt32}
    (h : sflowDatagramPack datagramCount upTime list = .ok dg) :
    ntohl p.endian dg.sampleNum = UInt32.ofNat list.sdlCount := by
  obtain ⟨r, -, hdg⟩ := bind_eq_ok.mp h
  obtain ⟨u, -, hdg⟩ := bind_eq_ok.mp hdg
  cases hdg
  rw [ntohl_htonl]

theorem Moves.carries {env : Env R} {sh sh' : Shared p R} {pc pc' : Pc p R}
    (hm : Moves env sh pc sh' pc')
    (hflush : pc.FlushesData sh)
    (hsent : ∀ x ∈ sh.sent, ntohl p.endian x.dg.sampleNum ≠ 0) (hpc : pc.Carries sh) :
    (∀ x ∈ sh'.sent, ntohl p.endian x.dg.sampleNum ≠ 0) ∧ pc'.Carries sh' := by
  cases hm with
  | @full node list hlist hfull =>
      refine ⟨hsent, hflush fun list' hlist' ↦ ?_⟩
      rw [hlist, Option.mem_some_iff] at hlist'
      rwa [← hlist']
  | cancel => exact ⟨hsent, hpc⟩
  | unlockIndicator => exact ⟨hsent, hpc⟩
  | packAborts => exact ⟨hsent, hpc⟩
  | startFaults => exact ⟨hsent, hpc⟩
  | @pack caller list dg buf offBuf size hlist hdg =>
      refine ⟨hsent, ?_⟩
      change ntohl p.endian dg.sampleNum ≠ 0
      rw [sampleNum_of_sflowDatagramPack hdg]
      exact hpc list hlist
  | flatFaults => exact ⟨hsent, hpc⟩
  | flat => exact ⟨hsent, hpc⟩
  | @send caller dg todo buf offBuf =>
      refine ⟨fun x hx ↦ ?_, trivial⟩
      rcases List.mem_append.mp hx with hx | hx
      · exact hsent x hx
      · rw [List.mem_singleton.mp hx]
        exact hpc
  | @create caller =>
      refine ⟨hsent, ?_⟩
      cases caller <;> trivial
  | sigLock => exact ⟨hsent, hflush⟩
  | _ => exact ⟨hsent, trivial⟩

/-- What every run has that enters no flush with an empty buffer. -/
structure Carrying (s : Sender T p R) : Prop where
  buffered : Buffered s
  sent : ∀ x ∈ s.sh.sent, ntohl p.endian x.dg.sampleNum ≠ 0
  agents : ∀ a, (s.pc a).Carries s.sh

namespace Carrying

theorem init : Carrying (Sender.init : Sender T p R) where
  buffered := Buffered.init
  sent := by simp [Sender.init]
  agents := by rintro (_ | _) <;> trivial

variable [DecidableEq T] {s s' : Sender T p R}

theorem step (h : Carrying s) {l : Action T p R} (hl : FlushesData s l)
    (hs : s.step l = some s') : Carrying s' := by
  have hbuffered := h.buffered.step hs
  rcases Sender.step_cases hs with ⟨t, sample, rfl, -, rfl⟩ | ⟨a, env, sh, pc, rfl, -, hm, rfl⟩ |
    ⟨rfl, -, rfl⟩
  · exact ⟨hbuffered, h.sent, Cfg.forall_move_of_frame h.agents trivial fun _ _ hb ↦ hb⟩
  · obtain ⟨hsent, hpc⟩ := hm.carries hl h.sent (h.agents a)
    exact ⟨hbuffered, hsent, Cfg.forall_move_of_frame h.agents hpc fun b hb hpcb ↦
      hpcb.frame (h.buffered.frame hm hb)⟩
  · exact ⟨hbuffered, h.sent, fun a ↦ (h.agents a).frame fun _ ↦ rfl⟩

end Carrying

/-- In every run that enters no flush with an empty buffer, whatever the lengths of
the samples and the order of the steps: no datagram is sent without samples. -/
theorem sent_sampleNum_ne_zero [DecidableEq T] {ls : List (Action T p R)} {s : Sender T p R}
    (h : run Sender.step Sender.init ls = some s)
    (hdata : Meets Sender.step FlushesData Sender.init ls) :
    ∀ x ∈ s.sh.sent, ntohl p.endian x.dg.sampleNum ≠ 0 :=
  (run_induction_of_meets (fun _ _ _ h hl hs ↦ Carrying.step h hl hs) Carrying.init hdata h).sent

/-- A sample sent at the end of the timer, in a datagram that carries it. -/
theorem sent_sampleNum_ne_zero_appendAndFlush :
    ∃ s : Sender Unit .amd64 (List UInt8),
      run Sender.step Sender.init Action.appendAndFlush = some s ∧
        ∀ x ∈ s.sh.sent, ntohl Platform.amd64.endian x.dg.sampleNum ≠ 0 := by
  have hrun : (run Sender.step (Sender.init : Sender Unit .amd64 (List UInt8))
      Action.appendAndFlush).isSome := by decide +kernel
  obtain ⟨s, hs⟩ := Option.isSome_iff_exists.mp hrun
  exact ⟨s, hs, sent_sampleNum_ne_zero hs (by decide +kernel)⟩

/-! ## Both ways to an empty datagram -/

/-- The sample of a host with so many adapters that it fits into no datagram. -/
def SflowSp.large : SflowSp .amd64 (List UInt8) :=
  (SampleInput.counter .phyhost
    [.adapters 0 (List.replicate 90 ⟨1, 1, Vector.replicate 8 0⟩)]).packed

/-- A sample that is too large comes first. -/
def Action.startLarge : List (Action Unit .amd64 (List UInt8)) :=
  .call () .large :: go (.thread ()) .still 8

/-- The handler has taken a signal when a sample comes that does not fit.  It sends
that sample after the flush, and the timer started for it expires on nothing. -/
def Action.expireLate : List (Action Unit .amd64 (List UInt8)) :=
  .call () .six :: go (.thread ()) .still 6 ++ .expire :: go .handler .still 1 ++
    .call () .large :: go (.thread ()) .still 13 ++ go .handler .still 7 ++
      .expire :: go .handler .still 5

/-- Each of the two runs ends with a datagram that carries no samples. -/
theorem exists_sent_sampleNum_eq_zero :
    (∃ s, run Sender.step Sender.init Action.startLarge = some s ∧
      ∃ x ∈ s.sh.sent, ntohl Platform.amd64.endian x.dg.sampleNum = 0) ∧
    ∃ s, run Sender.step Sender.init Action.expireLate = some s ∧
      ∃ x ∈ s.sh.sent, ntohl Platform.amd64.endian x.dg.sampleNum = 0 := by
  have h : ∀ ls ∈ [Action.startLarge, Action.expireLate],
      (run Sender.step Sender.init ls).any (fun s => decide (∃ x ∈ s.sh.sent,
        ntohl Platform.amd64.endian x.dg.sampleNum = 0)) = true := by decide +kernel
  have hsent : ∀ ls ∈ [Action.startLarge, Action.expireLate],
      ∃ s, run Sender.step Sender.init ls = some s ∧
        ∃ x ∈ s.sh.sent, ntohl Platform.amd64.endian x.dg.sampleNum = 0 := by
    intro ls hls
    obtain ⟨s, hs, hzero⟩ := (Option.any_eq_true _ _).mp (h ls hls)
    exact ⟨s, hs, of_decide_eq_true hzero⟩
  exact ⟨hsent _ (by simp), hsent _ (by simp)⟩

end Sflow

import Mathlib.Data.Fintype.Option
import Sflow.Protocol.Packed
import Sflow.Run.Basic
import Sflow.Run.Interleave

/-!
# The sender

`sflow_sender.c` and the signal handler of `sflow_driver.c`, as a system of
agents: any number of threads that append samples, and the handler.  One step of
an agent is one operation on what they share: a mutex, the process timer, the
buffer.  In between, the timer may expire.

A flush flattens one sample at a step, since other code may write to the memory
that samples refer to in the meantime.  All samples go into the one buffer of the
datagram, each where the count that the last one returned leads to.  What a flatten
does that faults is not defined, and no agent takes a step after it.
-/

namespace Sflow

open C Run

variable {T R : Type} {p : Platform}

/-! ## The parts of the source -/

def sflowMtu : Nat := 1400

/-- The value of a number as an `int`. -/
@[irreducible] def toInt32 (n : Nat) : Int := Int.bmod n (2 ^ 32)

theorem toInt32_eq {n : Nat} (h : n < 2 ^ 31) : toInt32 n = n := by
  have hmod : (n : Int) % (2 ^ 32 : Nat) = n := by omega
  unfold toInt32 Int.bmod
  rw [hmod, if_pos (by omega)]

/-- The node that `sflow_append_sample_to_send` makes of a sample. -/
def sampleNode (sample : SflowSp p R) : SflowDataListNode (SflowSp p R) :=
  sflowDataListNodeCreate sample
    (toInt32 ((ntohl p.endian sample.len).toNat + p.psize * 2))

theorem sdlnDataSize_sampleNode (sample : SflowSp p R) :
    (sampleNode sample).sdlnDataSize =
      toInt32 ((ntohl p.endian sample.len).toNat + p.psize * 2) := rfl

/-- The test for a full buffer.  It adds up two `int`s, and to their sum two `size_t`. -/
def overflows (list : SflowDataList (SflowSp p R)) (node : SflowDataListNode (SflowSp p R)) :
    Bool :=
  (sflowMtu : Int) <
    (list.sdlDataSize + node.sdlnDataSize + sflowDgT.sizeof p.toAbi - p.psize) % 2 ^ (8 * p.psize)

/-- A round of the loop of `sflow_datagram_flat`: what is in the next slot goes to `offBuf`. -/
def flatNext (m : Memory R) (todo : List (SflowSp p R)) (buf : Buf) (offBuf : Nat) :
    Except Fault (List (SflowSp p R) × Buf × Nat) :=
  match todo with
  | [] => .error .outOfBounds
  | sp :: todo =>
      if offBuf < 2 ^ 32 then do
        let (buf, n) ← sflowSampleFlat m sp buf offBuf
        return (todo, buf, offBuf + n)
      else .error .outOfBounds

theorem flatSlots_flatNext (m : Memory R) (count : Nat) (todo : List (SflowSp p R)) (buf : Buf)
    (offBuf : Nat) :
    flatSlots (2 ^ 32) (sflowSampleFlat m) (count + 1) todo offBuf buf 0 = (do
      let (todo, buf, offBuf) ← flatNext m todo buf offBuf
      flatSlots (2 ^ 32) (sflowSampleFlat m) count todo offBuf buf 0) := by
  cases todo with
  | nil => rfl
  | cons sp todo =>
      rw [flatSlots, flatNext]
      dsimp only
      rw [Nat.zero_add]
      split
      · cases sflowSampleFlat m sp buf offBuf <;> rfl
      · rfl

/-- A round that ends well has flattened the next sample. -/
theorem flatNext_cases {m : Memory R} {todo todo' : List (SflowSp p R)} {buf buf' : Buf}
    {offBuf offBuf' : Nat} (h : flatNext m todo buf offBuf = .ok (todo', buf', offBuf')) :
    ∃ sp n, todo = sp :: todo' ∧ sflowSampleFlat m sp buf offBuf = .ok (buf', n) ∧
      offBuf' = offBuf + n := by
  cases todo with
  | nil => cases h
  | cons sp todo =>
      rw [flatNext] at h
      split at h
      · obtain ⟨⟨buf₁, n⟩, hflat, hret⟩ := bind_eq_ok.mp h
        cases hret
        exact ⟨sp, n, rfl, hflat, rfl⟩
      · cases h

/-- A datagram, and the bytes that are handed to `sendto` for it. -/
structure Sent (p : Platform) (R : Type) where
  dg : SflowDg p R
  bytes : List UInt8

/-- The number that `sflow_datagram_flat` returns. -/
def Sent.size (s : Sent p R) : Except Fault UInt32 := sflowDatagramSize s.dg

/-! ## States -/

/-- What all agents share, and the history of the run. -/
structure Shared (p : Platform) (R : Type) where
  /-- Freed by packing and not there again before the end of the flush. -/
  sflowBufferedSamples : Option (SflowDataList (SflowSp p R))
  /-- The two mutexes, `true` while locked. -/
  sflowAlarmIndicator : Bool
  sflowBufferedSamplesMtx : Bool
  /-- The timer is running. -/
  alarm : Bool
  /-- `SIGALRM` is pending. -/
  sigalrm : Bool
  datagramCount : Nat
  /-- The samples in the order in which they were put into the buffer. -/
  appended : List (SflowSp p R)
  /-- The samples of each datagram. -/
  packed : List (List (SflowSp p R))
  sent : List (Sent p R)
  /-- An assertion has failed or a freed list has been used. -/
  aborted : Bool
  /-- Flattening has faulted. -/
  faulted : Bool

/-- The samples in the buffer. -/
def Shared.waiting (sh : Shared p R) : List (SflowSp p R) :=
  (sh.sflowBufferedSamples.map (·.data)).getD []

/-- Where `send_samples` stands. -/
inductive SendPc (p : Platform) (R : Type) where
  | unlockIndicator
  | pack
  /-- Flattening `dg`: `count` of the samples are to do, into the buffer from `offBuf` on. -/
  | flat (dg : SflowDg p R) (count : Nat) (todo : List (SflowSp p R)) (buf : Buf) (offBuf : Nat)
  | create

/-- Where an agent stands: the operation it does next. -/
inductive Pc (p : Platform) (R : Type) where
  /-- A thread outside of `sflow_append_sample_to_send`. -/
  | idle
  | trylock (sample : SflowSp p R)
  | alarm (sample : SflowSp p R)
  | lock (node : SflowDataListNode (SflowSp p R))
  | check (node : SflowDataListNode (SflowSp p R))
  | cancel (node : SflowDataListNode (SflowSp p R))
  /-- In `send_samples`, called by a thread with a node to append or by the handler. -/
  | send (caller : Option (SflowDataListNode (SflowSp p R))) (pc : SendPc p R)
  | retrylock (node : SflowDataListNode (SflowSp p R))
  | realarm (node : SflowDataListNode (SflowSp p R))
  | append (node : SflowDataListNode (SflowSp p R))
  | unlock
  /-- The handler between signals. -/
  | sigwait
  | sigLock
  | sigUnlock

/-- The agents: the handler, and one for every thread. -/
inductive Agent (T : Type) where
  | handler
  | thread (t : T)
deriving DecidableEq

/-- The agents are the handler and the threads. -/
def Agent.equivOption : Option T ≃ Agent T where
  toFun
    | none => .handler
    | some t => .thread t
  invFun
    | .handler => none
    | .thread t => some t
  left_inv := by rintro (_ | _) <;> rfl
  right_inv := by rintro (_ | _) <;> rfl

instance [Fintype T] : Fintype (Agent T) := .ofEquiv (Option T) Agent.equivOption

/-- What a step finds outside of the sender. -/
structure Env (R : Type) where
  mem : Memory R
  upTime : UInt32

/-- What can happen next. -/
inductive Action (T : Type) (p : Platform) (R : Type) where
  /-- A thread calls `sflow_append_sample_to_send`. -/
  | call (t : T) (sample : SflowSp p R)
  | run (a : Agent T) (env : Env R)
  /-- The timer expires. -/
  | expire

/-! ## Steps -/

/-- Where a flush returns to. -/
def returnPc : Option (SflowDataListNode (SflowSp p R)) → Pc p R
  | none => .sigUnlock
  | some node => .retrylock node

/-- A step of `send_samples`.  What `sflow_datagram_flat` does up to its loop depends on nothing
that is shared, and goes with the packing. -/
def stepSend (env : Env R) (sh : Shared p R) (caller : Option (SflowDataListNode (SflowSp p R))) :
    SendPc p R → Shared p R × Pc p R
  | .unlockIndicator => ({ sh with sflowAlarmIndicator := false }, .send caller .pack)
  | .pack =>
      match sh.sflowBufferedSamples.map (sflowDatagramPack sh.datagramCount env.upTime) with
      | some (.ok dg) =>
          match sflowDatagramStart dg with
          | .ok (buf, offBuf, _) =>
              ({ sh with
                  sflowBufferedSamples := none
                  datagramCount := sh.datagramCount + 1
                  packed := sh.packed ++ [dg.samples] },
                .send caller (.flat dg (ntohl p.endian dg.sampleNum).toNat dg.samples buf offBuf))
          | .error _ => ({ sh with faulted := true }, .send caller .pack)
      | _ => ({ sh with aborted := true }, .send caller .pack)
  | .flat dg (count + 1) todo buf offBuf =>
      match flatNext env.mem todo buf offBuf with
      | .ok (todo, buf, offBuf) => (sh, .send caller (.flat dg count todo buf offBuf))
      | .error _ =>
          ({ sh with faulted := true }, .send caller (.flat dg (count + 1) todo buf offBuf))
  | .flat dg 0 _ buf _ =>
      ({ sh with sent := sh.sent ++ [⟨dg, buf.data⟩] }, .send caller .create)
  | .create => ({ sh with sflowBufferedSamples := some sflowDataListCreate }, returnPc caller)

/-- A step of an agent, or `none` while it waits. -/
def stepPc (env : Env R) (sh : Shared p R) : Pc p R → Option (Shared p R × Pc p R)
  | .idle => none
  | .trylock sample =>
      if sh.sflowAlarmIndicator then some (sh, .lock (sampleNode sample))
      else some ({ sh with sflowAlarmIndicator := true }, .alarm sample)
  | .alarm sample => some ({ sh with alarm := true }, .lock (sampleNode sample))
  | .lock node =>
      if sh.sflowBufferedSamplesMtx then none
      else some ({ sh with sflowBufferedSamplesMtx := true }, .check node)
  | .check node =>
      match sh.sflowBufferedSamples with
      | none => some ({ sh with aborted := true }, .check node)
      | some list => some (sh, if overflows list node then .cancel node else .append node)
  | .cancel node => some ({ sh with alarm := false }, .send (some node) .unlockIndicator)
  | .send caller pc => some (stepSend env sh caller pc)
  | .retrylock node =>
      if sh.sflowAlarmIndicator then some (sh, .append node)
      else some ({ sh with sflowAlarmIndicator := true }, .realarm node)
  | .realarm node => some ({ sh with alarm := true }, .append node)
  | .append node =>
      match sh.sflowBufferedSamples with
      | none => some ({ sh with aborted := true }, .append node)
      | some list =>
          some ({ sh with
            sflowBufferedSamples := some (sflowDataListAppend list node)
            appended := sh.appended ++ [node.sdlnData] }, .unlock)
  | .unlock => some ({ sh with sflowBufferedSamplesMtx := false }, .idle)
  | .sigwait => if sh.sigalrm then some ({ sh with sigalrm := false }, .sigLock) else none
  | .sigLock =>
      if sh.sflowBufferedSamplesMtx then none
      else some ({ sh with sflowBufferedSamplesMtx := true }, .send none .unlockIndicator)
  | .sigUnlock => some ({ sh with sflowBufferedSamplesMtx := false }, .sigwait)

/-- The state of the sender. -/
abbrev Sender (T : Type) (p : Platform) (R : Type) := Cfg (Agent T) (Shared p R) (Pc p R)

/-- The sender as `sflowd_init` leaves it. -/
def Sender.init : Sender T p R where
  sh :=
    { sflowBufferedSamples := some sflowDataListCreate
      sflowAlarmIndicator := false
      sflowBufferedSamplesMtx := false
      alarm := false
      sigalrm := false
      datagramCount := 0
      appended := []
      packed := []
      sent := []
      aborted := false
      faulted := false }
  pc
    | .handler => .sigwait
    | .thread _ => .idle

/-- A step of the sender. -/
def Sender.step [DecidableEq T] (s : Sender T p R) : Action T p R → Option (Sender T p R)
  | .call t sample =>
      match s.pc (.thread t) with
      | .idle => some (s.move (.thread t) s.sh (.trylock sample))
      | _ => none
  | .run a env =>
      if s.sh.aborted || s.sh.faulted then none
      else (stepPc env s.sh (s.pc a)).map fun (sh, pc) => s.move a sh pc
  | .expire =>
      if s.sh.alarm then some ⟨{ s.sh with alarm := false, sigalrm := true }, s.pc⟩ else none

/-! ## What a step can do -/

/-- The steps of an agent, one by one. -/
inductive Moves (env : Env R) (sh : Shared p R) : Pc p R → Shared p R → Pc p R → Prop
  | trylockFails {sample} (h : sh.sflowAlarmIndicator = true) :
      Moves env sh (.trylock sample) sh (.lock (sampleNode sample))
  | trylock {sample} (h : sh.sflowAlarmIndicator = false) :
      Moves env sh (.trylock sample) { sh with sflowAlarmIndicator := true } (.alarm sample)
  | alarm {sample} :
      Moves env sh (.alarm sample) { sh with alarm := true } (.lock (sampleNode sample))
  | lock {node} (h : sh.sflowBufferedSamplesMtx = false) :
      Moves env sh (.lock node) { sh with sflowBufferedSamplesMtx := true } (.check node)
  | checkFreed {node} (h : sh.sflowBufferedSamples = none) :
      Moves env sh (.check node) { sh with aborted := true } (.check node)
  | full {node list} (h : sh.sflowBufferedSamples = some list)
      (hfull : overflows list node = true) : Moves env sh (.check node) sh (.cancel node)
  | fits {node list} (h : sh.sflowBufferedSamples = some list)
      (hfits : overflows list node = false) : Moves env sh (.check node) sh (.append node)
  | cancel {node} :
      Moves env sh (.cancel node) { sh with alarm := false } (.send (some node) .unlockIndicator)
  | unlockIndicator {caller} :
      Moves env sh (.send caller .unlockIndicator) { sh with sflowAlarmIndicator := false }
        (.send caller .pack)
  | packAborts {caller}
      (h : ∀ list dg, sh.sflowBufferedSamples = some list →
        sflowDatagramPack sh.datagramCount env.upTime list ≠ .ok dg) :
      Moves env sh (.send caller .pack) { sh with aborted := true } (.send caller .pack)
  | startFaults {caller list dg e} (h : sh.sflowBufferedSamples = some list)
      (hdg : sflowDatagramPack sh.datagramCount env.upTime list = .ok dg)
      (hstart : sflowDatagramStart dg = .error e) :
      Moves env sh (.send caller .pack) { sh with faulted := true } (.send caller .pack)
  | pack {caller list dg buf offBuf size} (h : sh.sflowBufferedSamples = some list)
      (hdg : sflowDatagramPack sh.datagramCount env.upTime list = .ok dg)
      (hstart : sflowDatagramStart dg = .ok (buf, offBuf, size)) :
      Moves env sh (.send caller .pack)
        { sh with
          sflowBufferedSamples := none
          datagramCount := sh.datagramCount + 1
          packed := sh.packed ++ [dg.samples] }
        (.send caller (.flat dg (ntohl p.endian dg.sampleNum).toNat dg.samples buf offBuf))
  | flatFaults {caller dg count todo buf offBuf e}
      (h : flatNext env.mem todo buf offBuf = .error e) :
      Moves env sh (.send caller (.flat dg (count + 1) todo buf offBuf))
        { sh with faulted := true } (.send caller (.flat dg (count + 1) todo buf offBuf))
  | flat {caller dg count todo buf offBuf todo' buf' offBuf'}
      (h : flatNext env.mem todo buf offBuf = .ok (todo', buf', offBuf')) :
      Moves env sh (.send caller (.flat dg (count + 1) todo buf offBuf)) sh
        (.send caller (.flat dg count todo' buf' offBuf'))
  | send {caller dg todo buf offBuf} :
      Moves env sh (.send caller (.flat dg 0 todo buf offBuf))
        { sh with sent := sh.sent ++ [⟨dg, buf.data⟩] } (.send caller .create)
  | create {caller} :
      Moves env sh (.send caller .create)
        { sh with sflowBufferedSamples := some sflowDataListCreate } (returnPc caller)
  | retrylockFails {node} (h : sh.sflowAlarmIndicator = true) :
      Moves env sh (.retrylock node) sh (.append node)
  | retrylock {node} (h : sh.sflowAlarmIndicator = false) :
      Moves env sh (.retrylock node) { sh with sflowAlarmIndicator := true } (.realarm node)
  | realarm {node} : Moves env sh (.realarm node) { sh with alarm := true } (.append node)
  | appendFreed {node} (h : sh.sflowBufferedSamples = none) :
      Moves env sh (.append node) { sh with aborted := true } (.append node)
  | append {node list} (h : sh.sflowBufferedSamples = some list) :
      Moves env sh (.append node)
        { sh with
          sflowBufferedSamples := some (sflowDataListAppend list node)
          appended := sh.appended ++ [node.sdlnData] } .unlock
  | unlock : Moves env sh .unlock { sh with sflowBufferedSamplesMtx := false } .idle
  | sigwait (h : sh.sigalrm = true) : Moves env sh .sigwait { sh with sigalrm := false } .sigLock
  | sigLock (h : sh.sflowBufferedSamplesMtx = false) :
      Moves env sh .sigLock { sh with sflowBufferedSamplesMtx := true }
        (.send none .unlockIndicator)
  | sigUnlock : Moves env sh .sigUnlock { sh with sflowBufferedSamplesMtx := false } .sigwait

theorem moves_of_stepSend (env : Env R) (sh : Shared p R)
    (caller : Option (SflowDataListNode (SflowSp p R))) (pc : SendPc p R) :
    Moves env sh (.send caller pc) (stepSend env sh caller pc).1 (stepSend env sh caller pc).2 := by
  cases pc with
  | unlockIndicator => exact .unlockIndicator
  | pack =>
      rw [stepSend]
      split
      · rename_i dg hdg
        obtain ⟨list, hlist, hdg⟩ := Option.map_eq_some_iff.mp hdg
        split
        · rename_i hstart
          exact .pack hlist hdg hstart
        · rename_i hstart
          exact .startFaults hlist hdg hstart
      · rename_i hnone
        refine .packAborts fun list dg hlist hdg ↦ hnone dg ?_
        rw [hlist, Option.map_some, hdg]
  | flat dg count todo buf offBuf =>
      cases count with
      | zero => exact .send
      | succ count =>
          rw [stepSend]
          split
          · rename_i hnext
            exact .flat hnext
          · rename_i hnext
            exact .flatFaults hnext
  | create => exact .create

theorem moves_of_stepPc {env : Env R} {sh sh' : Shared p R} {pc pc' : Pc p R}
    (h : stepPc env sh pc = some (sh', pc')) : Moves env sh pc sh' pc' := by
  cases pc with
  | idle => cases h
  | trylock sample =>
      rw [stepPc] at h
      split at h <;> rename_i hi <;> cases h
      · exact .trylockFails hi
      · exact .trylock (by simpa using hi)
  | alarm sample => cases h; exact .alarm
  | lock node =>
      rw [stepPc] at h
      split at h <;> rename_i hm <;> cases h
      exact .lock (by simpa using hm)
  | check node =>
      rw [stepPc] at h
      split at h
      · rename_i hnone
        cases h
        exact .checkFreed hnone
      · rename_i list hlist
        cases hover : overflows list node with
        | true => simp only [hover, if_true] at h; cases h; exact .full hlist hover
        | false => simp only [hover] at h; cases h; exact .fits hlist hover
  | cancel node => cases h; exact .cancel
  | send caller pc =>
      have hmoves := moves_of_stepSend env sh caller pc
      rw [stepPc, Option.some.injEq] at h
      rwa [h] at hmoves
  | retrylock node =>
      rw [stepPc] at h
      split at h <;> rename_i hi <;> cases h
      · exact .retrylockFails hi
      · exact .retrylock (by simpa using hi)
  | realarm node => cases h; exact .realarm
  | append node =>
      rw [stepPc] at h
      split at h
      · rename_i hnone
        cases h
        exact .appendFreed hnone
      · rename_i list hlist
        cases h
        exact .append hlist
  | unlock => cases h; exact .unlock
  | sigwait =>
      rw [stepPc] at h
      split at h <;> rename_i hs <;> cases h
      exact .sigwait hs
  | sigLock =>
      rw [stepPc] at h
      split at h <;> rename_i hm <;> cases h
      exact .sigLock (by simpa using hm)
  | sigUnlock => cases h; exact .sigUnlock

/-- A step of the sender is a call, a step of one agent, or the end of the timer. -/
theorem Sender.step_cases [DecidableEq T] {s s' : Sender T p R} {l : Action T p R}
    (h : s.step l = some s') :
    (∃ t sample, l = .call t sample ∧ s.pc (.thread t) = .idle ∧
      s' = s.move (.thread t) s.sh (.trylock sample)) ∨
    (∃ a env sh pc, l = .run a env ∧ (s.sh.aborted || s.sh.faulted) = false ∧
      Moves env s.sh (s.pc a) sh pc ∧
      s' = s.move a sh pc) ∨
    (l = .expire ∧ s.sh.alarm = true ∧
      s' = ⟨{ s.sh with alarm := false, sigalrm := true }, s.pc⟩) := by
  cases l with
  | call t sample =>
      rw [Sender.step] at h
      split at h
      · rename_i hidle
        cases h
        exact .inl ⟨t, sample, rfl, hidle, rfl⟩
      · cases h
  | run a env =>
      rw [Sender.step] at h
      split at h
      · cases h
      · rename_i hab
        obtain ⟨⟨sh, pc⟩, hpc, rfl⟩ := Option.map_eq_some_iff.mp h
        exact .inr (.inl ⟨a, env, sh, pc, rfl, by simpa using hab, moves_of_stepPc hpc, rfl⟩)
  | expire =>
      rw [Sender.step] at h
      split at h
      · rename_i ha
        cases h
        exact .inr (.inr ⟨rfl, ha, rfl⟩)
      · cases h

/-! ## Runs for examples -/

/-- An agent goes on for `n` steps. -/
def Action.go (a : Agent T) (env : Env R) (n : Nat) : List (Action T p R) :=
  List.replicate n (.run a env)

/-- Memory in which packets stay as they were read, on a host that is up for no time. -/
def Env.still : Env (List UInt8) := ⟨⟨id, fun _ ↦ .ok⟩, 0⟩

/-- The sample of a packet of six bytes. -/
def SflowSp.six : SflowSp .amd64 (List UInt8) :=
  (SampleInput.flow .net0 rfl rfl [1, 2, 3, 4, 5, 6] 6).packed

/-- A thread appends a sample, and the handler sends it when the timer has expired. -/
def Action.appendAndFlush : List (Action Unit .amd64 (List UInt8)) :=
  .call () .six :: go (.thread ()) .still 6 ++ .expire :: go .handler .still 8

end Sflow

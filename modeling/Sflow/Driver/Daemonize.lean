import Sflow.Run.Basic
import Sflow.Sender.Agent

/-!
# Start-up of the daemon

`sflowd` runs in a child process.  The parent waits at a pipe until it is told how the child
got on, and exits with what it is told, because a parent that exits early gives a false notion
of the daemon being up.  Signals reach a thread of the child at any time, and either process
can be killed.
-/

namespace Sflow

open C

/-! ## Initialisation -/

def exitSuccess : Int := 0

def exitFailure : Int := 1

/-- `errno` after a call that failed. -/
abbrev Errno := { errno : Nat // 0 < errno }

/-- The answers to the calls that `sflow_open_door` makes. -/
structure DoorAnswers where
  openFile : Except Errno Unit
  doorCreate : Except Errno Nat
  fattach : Except Errno Unit

/-- What is returned, and the descriptor of the door. -/
def sflowOpenDoor (ans : DoorAnswers) : Int × Int :=
  match ans.openFile with
  | .error errno => (errno.1, -1)
  | .ok () =>
      match ans.doorCreate with
      | .error errno => (errno.1, -1)
      | .ok sflowdDoorFd =>
          match ans.fattach with
          | .error errno => (errno.1, -1)
          | .ok () => (0, sflowdDoorFd)

theorem sflowOpenDoor_eq_zero_iff {ans : DoorAnswers} :
    (sflowOpenDoor ans).1 = 0 ↔ ∃ fd, ans = ⟨.ok (), .ok fd, .ok ()⟩ := by
  have hne (errno : Errno) : ((errno.1 : Nat) : Int) ≠ 0 :=
    Int.natCast_ne_zero.mpr (Nat.pos_iff_ne_zero.mp errno.2)
  obtain ⟨openFile, doorCreate, fattach⟩ := ans
  cases openFile with
  | error errno => exact iff_of_false (hne errno) (by simp)
  | ok =>
      cases doorCreate with
      | error errno => exact iff_of_false (hne errno) (by simp)
      | ok fd =>
          cases fattach with
          | error errno => exact iff_of_false (hne errno) (by simp)
          | ok => exact iff_of_true rfl ⟨fd, rfl⟩

/-- What the system answers to the child. -/
structure InitAnswers where
  /-- `pthread_create` of the thread for signals: zero, or the number of an error. -/
  handlerThread : Nat
  sigfillset : Int
  pthreadSigmask : Nat
  /-- `getifaddrs`. -/
  ifaddrs : List (Option IfaAddr)
  socket : Int
  pthreadKeyCreate : Nat
  /-- `pthread_create` of the master thread. -/
  masterThread : Nat
  door : DoorAnswers

def sflowInitData : Int := 0

namespace InitAnswers

variable (ans : InitAnswers)

def sflowdInitSignalHandling : Int := ans.handlerThread

def sflowInitSig : Int :=
  if ans.sigfillset < 0 then ans.sigfillset else ans.pthreadSigmask

/-- Without an address for the agent the program ends. -/
def sflowInitSender : Option Int :=
  match sflowGetAgentIp ans.ifaddrs with
  | .ok (some _) => some ans.socket
  | _ => none

def sflowInitThreads : Int :=
  if (ans.pthreadKeyCreate : Int) < 0 then ans.pthreadKeyCreate else ans.masterThread

def sflowInitDoor : Int := (sflowOpenDoor ans.door).1

/-- What is returned, unless the program ends. -/
def sflowdInit : Option Int :=
  if ans.sflowInitSig < 0 then some ans.sflowInitSig
  else if sflowInitData < 0 then some sflowInitData
  else
    ans.sflowInitSender.bind fun err =>
      if err < 0 then some err
      else if ans.sflowInitThreads < 0 then some ans.sflowInitThreads
      else some ans.sflowInitDoor

end InitAnswers

/-- How a process goes on. -/
inductive Outcome where
  | pausing
  | exits (rv : Int)
  | ends
deriving DecidableEq

/-- What `main` makes of the answer of `sflowd_init`. -/
def InitAnswers.afterInit : Option Int → Outcome
  | none => .ends
  | some err => if err ≠ 0 then .exits exitFailure else .pausing

/-- `main` in the foreground, behind its options. -/
def InitAnswers.foreground (ans : InitAnswers) : Outcome :=
  if ans.sflowdInitSignalHandling ≠ 0 then .exits exitFailure else afterInit ans.sflowdInit

/-- A thread that could not be made is missed only if it is the one for signals: the number of
an error is positive, and only the last step is asked whether it returned zero. -/
theorem InitAnswers.foreground_eq_pausing_iff {ans : InitAnswers} :
    ans.foreground = .pausing ↔ ans.handlerThread = 0 ∧ 0 ≤ ans.sigfillset ∧
      (∃ text, sflowGetAgentIp ans.ifaddrs = .ok (some text)) ∧ 0 ≤ ans.socket ∧
      (sflowOpenDoor ans.door).1 = 0 := by
  have hthreads : ¬ ans.sflowInitThreads < 0 := by
    rw [sflowInitThreads]
    split <;> omega
  have hdata : ¬ sflowInitData < 0 := by decide
  have hsig : ans.sflowInitSig < 0 ↔ ¬ 0 ≤ ans.sigfillset := by
    rw [sflowInitSig]
    split <;> omega
  rw [foreground, afterInit.eq_def, sflowdInit]
  by_cases hhandler : ans.handlerThread = 0
  · rw [if_neg (by simp [sflowdInitSignalHandling, hhandler]), and_iff_right hhandler]
    by_cases hfill : 0 ≤ ans.sigfillset
    · rw [if_neg (mt hsig.mp (not_not.mpr hfill)), if_neg hdata, and_iff_right hfill,
        sflowInitSender]
      rcases hagent : sflowGetAgentIp ans.ifaddrs with e | _ | text
      · simp
      · simp
      · dsimp only [Option.bind_some]
        by_cases hsocket : 0 ≤ ans.socket
        · rw [if_neg (Int.not_lt.mpr hsocket), if_neg hthreads, sflowInitDoor]
          by_cases hdoor : (sflowOpenDoor ans.door).1 = 0
          · simp [hdoor, hsocket]
          · simp [hdoor]
        · have hne : ans.socket ≠ 0 := by omega
          rw [if_pos (Int.not_le.mp hsocket)]
          simp [hne, hsocket]
    · have hneg : ans.sigfillset < 0 := Int.not_le.mp hfill
      have hne : ans.sigfillset ≠ 0 := by omega
      rw [if_pos (hsig.mpr hfill), sflowInitSig, if_pos hneg]
      simp [hne, hfill]
  · rw [if_pos (by simpa [sflowdInitSignalHandling] using hhandler)]
    simp [hhandler]

/-! ## The two processes -/

namespace Daemonize

/-- The steps of `sflowd_init`. -/
inductive Stage where
  | sig
  | data
  | sender
  | threads
  | door
deriving DecidableEq, Repr

/-- The parent: `forked` has not closed its end for writing yet, and `killing` has not been told
anything. -/
inductive Parent where
  | forked
  | reading
  | killing
  | exited (rv : Int)
  | killed
deriving DecidableEq, Repr

/-- The main thread of the child. -/
inductive Main where
  | signalHandling
  | init (stage : Stage)
  | inform (rv : Int)
  /-- `write` did not write an `int`. -/
  | failing
  | closing (rv : Int)
  | returning
  | pausing
deriving DecidableEq, Repr

/-- The thread for signals. -/
inductive Handler where
  | absent
  | waiting
  | closing
  | exiting
deriving DecidableEq, Repr

structure Child where
  main : Main
  handler : Handler
  /-- `sflow_pfds[1]` is open. -/
  pfd : Bool
deriving DecidableEq, Repr

structure State where
  parent : Parent
  child : Option Child
  /-- What has been written to the pipe. -/
  pipe : List Int
deriving DecidableEq, Repr

/-- Behind `fork`, when the child has closed all that it does not need. -/
def forked : State := ⟨.forked, some ⟨.signalHandling, .absent, true⟩, []⟩

inductive Act where
  /-- A step of the parent.  If it waits, `read` may fail. -/
  | parent (fails : Bool)
  /-- A step of the main thread.  A number that was closed may have been given out again. -/
  | main (reused : Bool)
  | handler
  | signal (terminates : Bool)
  /-- The child is killed, or it crashes. -/
  | crash
  | killParent
deriving DecidableEq, Repr

section Step

variable (ans : InitAnswers)

/-- What a step returns, unless the program ends. -/
def Stage.err : Stage → Option Int
  | .sig => some ans.sflowInitSig
  | .data => some sflowInitData
  | .sender => ans.sflowInitSender
  | .threads => some ans.sflowInitThreads
  | .door => some ans.sflowInitDoor

/-- The main thread behind a step.  The last step is held to more than the others. -/
def Stage.after (err : Int) (stage : Stage) : Main :=
  if err < 0 then .inform exitFailure
  else
    match stage with
    | .sig => .init .data
    | .data => .init .sender
    | .sender => .init .threads
    | .threads => .init .door
    | .door => if err ≠ 0 then .inform exitFailure else .inform exitSuccess

/-- The parent still has its end of the pipe for reading. -/
def Parent.reads : Parent → Bool
  | .forked | .reading | .killing => true
  | .exited _ | .killed => false

/-- `read` waits as long as there is nothing in the pipe and someone can write into it. -/
def parentStep (s : State) (fails : Bool) : Option State :=
  match s.parent with
  | .forked => some { s with parent := .reading }
  | .reading =>
      if fails then some { s with parent := .killing }
      else
        match s.pipe with
        | rv :: _ => some { s with parent := .exited rv }
        | [] => if s.child.any Child.pfd then none else some { s with parent := .killing }
  | .killing => some { s with parent := .exited exitFailure, child := none }
  | .exited _ | .killed => none

def mainStep (s : State) (c : Child) (reused : Bool) : Option State :=
  match c.main with
  | .signalHandling =>
      if ans.sflowdInitSignalHandling ≠ 0 then
        some { s with child := some { c with main := .inform exitFailure } }
      else some { s with child := some { c with main := .init .sig, handler := .waiting } }
  | .init stage =>
      match stage.err ans with
      | none => some { s with child := none }
      | some err => some { s with child := some { c with main := stage.after err } }
  | .inform rv =>
      if c.pfd = true ∧ s.parent.reads = true then
        some { s with pipe := s.pipe ++ [rv], child := some { c with main := .closing rv } }
      else if c.pfd = false ∧ reused = true then
        some { s with child := some { c with main := .closing rv } }
      else some { s with child := some { c with main := .failing } }
  | .closing rv =>
      let main := if rv = exitSuccess then Main.pausing else Main.returning
      some { s with child := some { c with main := main, pfd := false } }
  | .failing | .returning => some { s with child := none }
  | .pausing => none

/-- A signal that does not end the daemon is dealt with at once. -/
def handlerStep (s : State) (c : Child) : Option State :=
  match c.handler with
  | .closing => some { s with child := some { c with handler := .exiting, pfd := false } }
  | .exiting => some { s with child := none }
  | .absent | .waiting => none

def step (s : State) : Act → Option State
  | .parent fails => parentStep s fails
  | .main reused => s.child.bind fun c => mainStep ans s c reused
  | .handler => s.child.bind fun c => handlerStep s c
  | .signal terminates =>
      s.child.bind fun c =>
        if c.handler = .waiting then
          some (if terminates then { s with child := some { c with handler := .closing } } else s)
        else none
  | .crash => s.child.bind fun _ => some { s with child := none }
  | .killParent => if s.parent.reads = true then some { s with parent := .killed } else none

end Step

/-! ## What a step can do -/

/-- The steps, one by one. -/
inductive Moved (ans : InitAnswers) : State → Act → State → Prop where
  | closes {child pipe fails} :
      Moved ans ⟨.forked, child, pipe⟩ (.parent fails) ⟨.reading, child, pipe⟩
  | toldNothing {child pipe fails}
      (h : fails = true ∨ pipe = [] ∧ ∀ c ∈ child, Child.pfd c = false) :
      Moved ans ⟨.reading, child, pipe⟩ (.parent fails) ⟨.killing, child, pipe⟩
  | told {child rv pipe} :
      Moved ans ⟨.reading, child, rv :: pipe⟩ (.parent false) ⟨.exited rv, child, rv :: pipe⟩
  | kills {child pipe fails} :
      Moved ans ⟨.killing, child, pipe⟩ (.parent fails) ⟨.exited exitFailure, none, pipe⟩
  | noHandler {parent handler pfd pipe reused} (h : ans.sflowdInitSignalHandling ≠ 0) :
      Moved ans ⟨parent, some ⟨.signalHandling, handler, pfd⟩, pipe⟩ (.main reused)
        ⟨parent, some ⟨.inform exitFailure, handler, pfd⟩, pipe⟩
  | handlerMade {parent handler pfd pipe reused} (h : ans.sflowdInitSignalHandling = 0) :
      Moved ans ⟨parent, some ⟨.signalHandling, handler, pfd⟩, pipe⟩ (.main reused)
        ⟨parent, some ⟨.init .sig, .waiting, pfd⟩, pipe⟩
  | initEnds {parent stage handler pfd pipe reused} (h : stage.err ans = none) :
      Moved ans ⟨parent, some ⟨.init stage, handler, pfd⟩, pipe⟩ (.main reused)
        ⟨parent, none, pipe⟩
  | inits {parent stage handler pfd pipe reused err} (h : stage.err ans = some err) :
      Moved ans ⟨parent, some ⟨.init stage, handler, pfd⟩, pipe⟩ (.main reused)
        ⟨parent, some ⟨stage.after err, handler, pfd⟩, pipe⟩
  | writes {parent rv handler pipe reused} (h : Parent.reads parent = true) :
      Moved ans ⟨parent, some ⟨.inform rv, handler, true⟩, pipe⟩ (.main reused)
        ⟨parent, some ⟨.closing rv, handler, true⟩, pipe ++ [rv]⟩
  | writesElsewhere {parent rv handler pipe} :
      Moved ans ⟨parent, some ⟨.inform rv, handler, false⟩, pipe⟩ (.main true)
        ⟨parent, some ⟨.closing rv, handler, false⟩, pipe⟩
  | writeFails {parent rv handler pfd pipe reused} (h : pfd = true → Parent.reads parent = false) :
      Moved ans ⟨parent, some ⟨.inform rv, handler, pfd⟩, pipe⟩ (.main reused)
        ⟨parent, some ⟨.failing, handler, pfd⟩, pipe⟩
  | informed {parent rv handler pfd pipe reused} :
      Moved ans ⟨parent, some ⟨.closing rv, handler, pfd⟩, pipe⟩ (.main reused)
        ⟨parent, some ⟨if rv = exitSuccess then .pausing else .returning, handler, false⟩, pipe⟩
  | returns {parent main handler pfd pipe reused} (h : main = .failing ∨ main = .returning) :
      Moved ans ⟨parent, some ⟨main, handler, pfd⟩, pipe⟩ (.main reused) ⟨parent, none, pipe⟩
  | hangsUp {parent main pfd pipe} :
      Moved ans ⟨parent, some ⟨main, .closing, pfd⟩, pipe⟩ .handler
        ⟨parent, some ⟨main, .exiting, false⟩, pipe⟩
  | exits {parent main pfd pipe} :
      Moved ans ⟨parent, some ⟨main, .exiting, pfd⟩, pipe⟩ .handler ⟨parent, none, pipe⟩
  | handled {parent main pfd pipe} :
      Moved ans ⟨parent, some ⟨main, .waiting, pfd⟩, pipe⟩ (.signal false)
        ⟨parent, some ⟨main, .waiting, pfd⟩, pipe⟩
  | terminated {parent main pfd pipe} :
      Moved ans ⟨parent, some ⟨main, .waiting, pfd⟩, pipe⟩ (.signal true)
        ⟨parent, some ⟨main, .closing, pfd⟩, pipe⟩
  | crashes {parent c pipe} : Moved ans ⟨parent, some c, pipe⟩ .crash ⟨parent, none, pipe⟩
  | parentKilled {parent child pipe} (h : Parent.reads parent = true) :
      Moved ans ⟨parent, child, pipe⟩ .killParent ⟨.killed, child, pipe⟩

variable {ans : InitAnswers} {s s' : State} {act : Act}

theorem moved_of_parentStep {fails : Bool} (h : parentStep s fails = some s') :
    Moved ans s (.parent fails) s' := by
  obtain ⟨parent, child, pipe⟩ := s
  cases parent with
  | forked =>
      cases h
      exact .closes
  | reading =>
      rw [parentStep] at h
      dsimp only at h
      cases fails with
      | true =>
          cases h
          exact .toldNothing (.inl rfl)
      | false =>
          rw [if_neg Bool.false_ne_true] at h
          cases pipe with
          | cons rv pipe =>
              cases h
              exact .told
          | nil =>
              dsimp only at h
              split at h
              case isTrue => cases h
              case isFalse hpfd =>
                cases h
                refine .toldNothing (.inr ⟨rfl, fun c hc ↦ ?_⟩)
                rw [Option.mem_def.mp hc] at hpfd
                exact Bool.eq_false_iff.mpr hpfd
  | killing =>
      cases h
      exact .kills
  | exited | killed => cases h

theorem moved_of_mainStep {c : Child} (hc : s.child = some c) {reused : Bool}
    (h : mainStep ans s c reused = some s') : Moved ans s (.main reused) s' := by
  obtain ⟨parent, child, pipe⟩ := s
  obtain ⟨main, handler, pfd⟩ := c
  obtain rfl : child = _ := hc
  cases main with
  | signalHandling =>
      rw [mainStep] at h
      dsimp only at h
      split at h
      case isTrue hne =>
        cases h
        exact .noHandler hne
      case isFalse heq =>
        cases h
        exact .handlerMade (not_not.mp heq)
  | init stage =>
      rw [mainStep] at h
      dsimp only at h
      cases herr : stage.err ans with
      | none =>
          rw [herr] at h
          cases h
          exact .initEnds herr
      | some err =>
          rw [herr] at h
          cases h
          exact .inits herr
  | inform rv =>
      rw [mainStep] at h
      dsimp only at h
      split at h
      case isTrue hreads =>
        obtain ⟨rfl, hreads⟩ := hreads
        cases h
        exact .writes hreads
      case isFalse hreads =>
        split at h
        case isTrue hreused =>
          obtain ⟨rfl, rfl⟩ := hreused
          cases h
          exact .writesElsewhere
        case isFalse =>
          cases h
          exact .writeFails fun hpfd ↦ Bool.eq_false_iff.mpr fun hr ↦ hreads ⟨hpfd, hr⟩
  | closing rv =>
      cases h
      exact .informed
  | failing =>
      cases h
      exact .returns (.inl rfl)
  | returning =>
      cases h
      exact .returns (.inr rfl)
  | pausing => cases h

/-- There are no other steps. -/
theorem moved_of_step (h : step ans s act = some s') : Moved ans s act s' := by
  cases act with
  | parent fails => exact moved_of_parentStep h
  | main reused =>
      obtain ⟨c, hc, h⟩ := Option.bind_eq_some_iff.mp h
      exact moved_of_mainStep hc h
  | handler =>
      obtain ⟨⟨main, handler, pfd⟩, hc, h⟩ := Option.bind_eq_some_iff.mp h
      obtain ⟨parent, child, pipe⟩ := s
      obtain rfl : child = _ := hc
      cases handler with
      | closing =>
          cases h
          exact .hangsUp
      | exiting =>
          cases h
          exact .exits
      | absent | waiting => cases h
  | signal terminates =>
      obtain ⟨⟨main, handler, pfd⟩, hc, h⟩ := Option.bind_eq_some_iff.mp h
      obtain ⟨parent, child, pipe⟩ := s
      obtain rfl : child = _ := hc
      obtain ⟨rfl : handler = .waiting, h⟩ := Option.ite_none_right_eq_some.mp h
      cases terminates with
      | false =>
          cases h
          exact .handled
      | true =>
          cases h
          exact .terminated
  | crash =>
      obtain ⟨c, hc, h⟩ := Option.bind_eq_some_iff.mp h
      obtain ⟨parent, child, pipe⟩ := s
      obtain rfl : child = _ := hc
      cases h
      exact .crashes
  | killParent =>
      obtain ⟨parent, child, pipe⟩ := s
      obtain ⟨hreads, h⟩ := Option.ite_none_right_eq_some.mp h
      cases h
      exact .parentKilled hreads

/-! ## Progress -/

/-- The steps that the two programs take by themselves. -/
def Act.progress : Act → Bool
  | .parent _ | .main _ | .handler => true
  | .signal _ | .crash | .killParent => false

def Parent.rank : Parent → Nat
  | .forked => 3
  | .reading => 2
  | .killing => 1
  | .exited _ | .killed => 0

def Main.rank : Main → Nat
  | .signalHandling => 10
  | .init .sig => 8
  | .init .data => 7
  | .init .sender => 6
  | .init .threads => 5
  | .init .door => 4
  | .inform _ => 3
  | .closing _ => 2
  | .failing | .returning => 1
  | .pausing => 0

def Handler.rank : Handler → Nat
  | .absent | .waiting | .closing => 2
  | .exiting => 1

def Child.rank (c : Child) : Nat := c.main.rank + c.handler.rank

/-- How many steps are left at most. -/
def State.rank (s : State) : Nat :=
  s.parent.rank + (s.child.map Child.rank).getD 0

theorem rank_after_lt (err : Int) (stage : Stage) :
    (stage.after err).rank < (Main.init stage).rank := by
  unfold Stage.after
  split
  · cases stage <;> decide
  · cases stage
    case door => dsimp only; split <;> exact Nat.lt_succ_self 3
    all_goals exact Nat.lt_succ_self _

theorem rank_pos_of_reads {parent : Parent} (h : parent.reads = true) : 0 < parent.rank := by
  cases parent <;> first | exact Nat.succ_pos _ | cases h

theorem rank_init_pos (stage : Stage) : 0 < (Main.init stage).rank := by
  cases stage <;> decide

theorem Handler.rank_pos (handler : Handler) : 0 < handler.rank := by
  cases handler <;> decide

/-- Each step of the programs is one of those that were left. -/
theorem rank_step (h : step ans s act = some s') :
    (if act.progress then 1 else 0) + s'.rank ≤ s.rank := by
  cases moved_of_step h with
  | @inits parent stage handler pfd pipe reused err =>
      have hlt := rank_after_lt err stage
      simp only [State.rank, Act.progress, Child.rank, Option.map_some, Option.getD_some, if_true]
      omega
  | @handlerMade parent handler =>
      have hpos := handler.rank_pos
      have hwaiting : Handler.waiting.rank = 2 := rfl
      simp only [State.rank, Act.progress, Child.rank, Option.map_some, Option.getD_some, if_true,
        Main.rank]
      omega
  | @initEnds parent stage =>
      have hpos := rank_init_pos stage
      simp [State.rank, Act.progress, Child.rank]
      omega
  | @returns parent main handler pfd pipe reused hmain =>
      have hrank : 0 < main.rank := by
        rcases hmain with rfl | rfl <;> exact Nat.one_pos
      simp [State.rank, Act.progress, Child.rank]
      omega
  | @informed parent rv handler =>
      have hrank : (if rv = exitSuccess then Main.pausing else Main.returning).rank ≤ 1 := by
        split <;> decide
      have hclosing : (Main.closing rv).rank = 2 := rfl
      simp only [State.rank, Act.progress, Child.rank, Option.map_some, Option.getD_some, if_true]
      omega
  | parentKilled hreads =>
      have hpos := rank_pos_of_reads hreads
      simp [State.rank, Act.progress, Parent.rank]
  | crashes => simp [State.rank, Act.progress]
  | handled => simp [State.rank, Act.progress]
  | terminated => simp [State.rank, Act.progress, Child.rank, Handler.rank]
  | _ =>
      simp [State.rank, Act.progress, Child.rank, Main.rank, Handler.rank, Parent.rank]
      try omega

/-! ## What the parent is told -/

/-- Where the main thread gets to in the foreground. -/
inductive Leads (ans : InitAnswers) : Main → Outcome → Prop where
  | ends {stage} (h : stage.err ans = none) : Leads ans (.init stage) .ends
  | next {stage err o} (h : stage.err ans = some err) (hnext : Leads ans (stage.after err) o) :
      Leads ans (.init stage) o
  | success : Leads ans (.inform exitSuccess) .pausing
  | failure : Leads ans (.inform exitFailure) (.exits exitFailure)

theorem Leads.after {stage : Stage} {err : Int} {o : Outcome} (h : Leads ans (.init stage) o)
    (herr : stage.err ans = some err) : Leads ans (stage.after err) o := by
  cases h with
  | ends hnone =>
      rw [hnone] at herr
      cases herr
  | next hsome hnext =>
      rw [hsome, Option.some.injEq] at herr
      rwa [← herr]

theorem leads_door : Leads ans (.init .door) (InitAnswers.afterInit (some ans.sflowInitDoor)) := by
  refine .next rfl ?_
  rw [InitAnswers.afterInit, Stage.after]
  by_cases hzero : ans.sflowInitDoor = 0
  · rw [hzero]
    exact .success
  · have hfail : Leads ans (.inform exitFailure) (.exits exitFailure) := .failure
    simpa [hzero] using hfail

theorem leads_of_next {stage stage' : Stage} {rest : Option Int}
    (hafter : ∀ err : Int, 0 ≤ err → stage.after err = .init stage')
    (h : Leads ans (.init stage') (InitAnswers.afterInit rest)) :
    Leads ans (.init stage)
      (InitAnswers.afterInit
        ((stage.err ans).bind fun err => if err < 0 then some err else rest)) := by
  cases herr : stage.err ans with
  | none => exact .ends herr
  | some err =>
      refine .next herr ?_
      rw [Option.bind_some]
      by_cases hneg : err < 0
      · have hafter : stage.after err = .inform exitFailure := if_pos hneg
        have hne : err ≠ 0 := Int.ne_of_lt hneg
        rw [if_pos hneg, hafter, InitAnswers.afterInit, if_pos hne]
        exact .failure
      · rw [if_neg hneg, hafter err (Int.not_lt.mp hneg)]
        exact h

/-- The steps of the child are those of the foreground. -/
theorem leads_foreground (h : ans.sflowdInitSignalHandling = 0) :
    Leads ans (.init .sig) ans.foreground := by
  have hnext (stage stage' : Stage) (hstage : stage.after 0 = .init stage') :
      ∀ err : Int, 0 ≤ err → stage.after err = .init stage' := by
    intro err herr
    rw [Stage.after.eq_def, if_neg (Int.not_lt.mpr herr)]
    cases stage <;> first | exact hstage | cases hstage
  rw [InitAnswers.foreground, if_neg (not_not.mpr h)]
  refine leads_of_next (hnext .sig .data rfl) (leads_of_next (hnext .data .sender rfl) ?_)
  refine leads_of_next (hnext .sender .threads rfl) (leads_of_next (hnext .threads .door rfl) ?_)
  exact leads_door

/-- What the child tells the parent is how it would go on in the foreground. -/
def Tells (ans : InitAnswers) (rv : Int) : Prop :=
  rv = exitSuccess ∧ ans.foreground = .pausing ∨
    rv = exitFailure ∧ ans.foreground = .exits exitFailure

theorem Leads.tells {rv : Int} (h : Leads ans (.inform rv) ans.foreground) : Tells ans rv := by
  generalize ho : ans.foreground = o at h
  cases h with
  | success => exact .inl ⟨rfl, ho⟩
  | failure => exact .inr ⟨rfl, ho⟩

/-- The child is about to exit. -/
def Child.Ending (c : Child) : Prop := c.main = .closing exitFailure ∨ c.main = .returning

/-- The main thread has not told anything yet. -/
def Main.Busy : Main → Prop
  | .init _ | .inform _ => True
  | _ => False

/-- What holds in every state. -/
structure Inv (ans : InitAnswers) (s : State) : Prop where
  leads : ∀ c ∈ s.child, c.main.Busy → Leads ans c.main ans.foreground
  closing : ∀ c ∈ s.child, ∀ rv, c.main = .closing rv → Tells ans rv
  told : ∀ rv ∈ s.pipe, Tells ans rv ∧ (rv = exitFailure → ∀ c ∈ s.child, c.Ending)
  exited : ∀ rv, s.parent = .exited rv →
    (Tells ans rv ∨ rv = exitFailure ∧ s.child = none) ∧
      (rv ≠ exitSuccess → ∀ c ∈ s.child, c.Ending)
  /-- A child whose end of the pipe is open has more to do, or has told something. -/
  holds : ∀ c ∈ s.child, c.pfd = true →
    (∀ rv, c.main = .closing rv → s.pipe ≠ []) ∧ c.main ≠ .pausing ∧ c.main ≠ .returning

theorem inv_forked : Inv ans forked where
  leads c hc hbusy := by
    cases hc
    exact hbusy.elim
  closing c hc rv hrv := by
    cases hc
    cases hrv
  told rv hrv := absurd hrv List.not_mem_nil
  exited rv hrv := by cases hrv
  holds c hc _ := by
    cases hc
    simp

section Keep

variable {parent : Parent} {child : Option Child} {c c' : Child} {pipe : List Int}

/-- The child goes away. -/
theorem Inv.gone (h : Inv ans ⟨parent, child, pipe⟩) : Inv ans ⟨parent, none, pipe⟩ where
  leads c hc := by cases hc
  closing c hc := by cases hc
  told rv hrv := ⟨(h.told rv hrv).1, fun _ c hc ↦ by cases hc⟩
  exited rv hrv := by
    refine ⟨(h.exited rv hrv).1.imp_right fun hkilled ↦ ⟨hkilled.1, rfl⟩, fun _ c hc ↦ ?_⟩
    cases hc
  holds c hc := by cases hc

/-- The parent goes on without exiting. -/
theorem Inv.goesOn (h : Inv ans ⟨parent, child, pipe⟩) {parent' : Parent}
    (hexited : ∀ rv, parent' ≠ .exited rv) : Inv ans ⟨parent', child, pipe⟩ where
  leads := h.leads
  closing := h.closing
  told := h.told
  exited rv hrv := absurd hrv (hexited rv)
  holds := h.holds

/-- The child goes on without telling anything. -/
theorem Inv.silent (h : Inv ans ⟨parent, some c, pipe⟩)
    (hleads : c'.main.Busy → Leads ans c'.main ans.foreground)
    (hclosing : ∀ rv, c'.main = .closing rv → Tells ans rv) (hending : c.Ending → c'.Ending)
    (hholds : c'.pfd = true → (∀ rv, c'.main = .closing rv → pipe ≠ []) ∧ c'.main ≠ .pausing ∧
      c'.main ≠ .returning) :
    Inv ans ⟨parent, some c', pipe⟩ where
  leads := by
    rintro _ ⟨⟩
    exact hleads
  closing := by
    rintro _ ⟨⟩
    exact hclosing
  told rv hrv := by
    refine ⟨(h.told rv hrv).1, fun hfail ↦ ?_⟩
    rintro _ ⟨⟩
    exact hending ((h.told rv hrv).2 hfail c rfl)
  exited rv hrv := by
    obtain ⟨htells | ⟨-, hnone⟩, hfail⟩ := h.exited rv hrv
    · refine ⟨.inl htells, fun hne ↦ ?_⟩
      rintro _ ⟨⟩
      exact hending (hfail hne c rfl)
    · cases hnone
  holds := by
    rintro _ ⟨⟩
    exact hholds

/-- The main thread stays where it is. -/
theorem Inv.still (h : Inv ans ⟨parent, some c, pipe⟩) (handler : Handler) (pfd : Bool)
    (hpfd : pfd = true → c.pfd = true) : Inv ans ⟨parent, some ⟨c.main, handler, pfd⟩, pipe⟩ :=
  h.silent (h.leads c rfl) (h.closing c rfl) id fun hopen ↦ h.holds c rfl (hpfd hopen)

end Keep

theorem Stage.after_busy (err : Int) (stage : Stage) : (stage.after err).Busy := by
  rw [Stage.after.eq_def]
  split
  · trivial
  · cases stage
    case door => dsimp only; split <;> trivial
    all_goals trivial

/-- Being busy is neither of the others. -/
theorem Main.Busy.ne {main : Main} (h : main.Busy) :
    (∀ rv, main ≠ .closing rv) ∧ main ≠ .pausing ∧ main ≠ .failing ∧ main ≠ .returning := by
  cases main with
  | init | inform => simp
  | _ => exact h.elim

theorem inv_step (hinv : Inv ans s) (h : step ans s act = some s') : Inv ans s' := by
  cases moved_of_step h with
  | closes | toldNothing | parentKilled => exact hinv.goesOn nofun
  | @told child rv pipe =>
      obtain ⟨htells, hfail⟩ := hinv.told rv List.mem_cons_self
      refine ⟨hinv.leads, hinv.closing, hinv.told, ?_, hinv.holds⟩
      rintro _ ⟨⟩
      refine ⟨.inl htells, fun hne ↦ hfail ?_⟩
      exact htells.elim (fun hsuccess ↦ absurd hsuccess.1 hne) (·.1)
  | kills =>
      have hgone := hinv.gone
      refine ⟨hgone.leads, hgone.closing, hgone.told, ?_, hgone.holds⟩
      rintro _ ⟨⟩
      exact ⟨.inr ⟨rfl, rfl⟩, fun _ ↦ nofun⟩
  | @noHandler parent handler pfd pipe reused hne =>
      refine hinv.silent (fun _ ↦ ?_) nofun (by simp [Child.Ending]) fun _ ↦ ⟨nofun, nofun, nofun⟩
      rw [InitAnswers.foreground, if_pos hne]
      exact .failure
  | handlerMade heq =>
      exact hinv.silent (fun _ ↦ leads_foreground heq) nofun (by simp [Child.Ending])
        fun _ ↦ ⟨nofun, nofun, nofun⟩
  | initEnds | returns | exits | crashes => exact hinv.gone
  | @inits parent stage handler pfd pipe reused err herr =>
      have hleads := (hinv.leads _ rfl trivial).after herr
      obtain ⟨hclosing, hpausing, -, hreturning⟩ := (stage.after_busy err).ne
      refine hinv.silent (fun _ ↦ hleads) (fun rv hrv ↦ absurd hrv (hclosing rv))
        (by simp [Child.Ending]) fun _ ↦ ⟨fun rv hrv ↦ absurd hrv (hclosing rv), ?_⟩
      exact ⟨hpausing, hreturning⟩
  | @writes parent rv handler pipe reused hreads =>
      have htells := (hinv.leads _ rfl trivial).tells
      refine ⟨by rintro _ ⟨⟩; exact False.elim, ?_, fun rv' hrv' ↦ ?_, ?_, ?_⟩
      · rintro _ ⟨⟩ _ ⟨⟩
        exact htells
      · rcases List.mem_append.mp hrv' with hold | hnew
        · refine ⟨(hinv.told rv' hold).1, fun hfail ↦ ?_⟩
          rcases (hinv.told rv' hold).2 hfail _ rfl with hmain | hmain <;> cases hmain
        · obtain rfl := List.mem_singleton.mp hnew
          refine ⟨htells, fun hfail ↦ ?_⟩
          rintro _ ⟨⟩
          exact .inl (congrArg Main.closing hfail)
      · rintro _ rfl
        cases hreads
      · rintro _ ⟨⟩ -
        exact ⟨fun _ _ ↦ List.append_ne_nil_of_right_ne_nil _ (List.cons_ne_nil _ _), nofun, nofun⟩
  | writesElsewhere =>
      have htells := (hinv.leads _ rfl trivial).tells
      refine hinv.silent nofun ?_ (by simp [Child.Ending]) nofun
      rintro _ ⟨⟩
      exact htells
  | writeFails =>
      exact hinv.silent nofun nofun (by simp [Child.Ending]) fun _ ↦ ⟨nofun, nofun, nofun⟩
  | @informed parent rv handler pfd pipe =>
      refine hinv.silent (fun hbusy ↦ ?_) (fun rv' hrv' ↦ ?_) ?_ nofun
      · by_cases hrv : rv = exitSuccess <;> simp [hrv, Main.Busy] at hbusy
      · by_cases hrv : rv = exitSuccess <;> simp [hrv] at hrv'
      · rintro (hmain | hmain) <;> cases hmain
        exact .inr rfl
  | hangsUp => exact hinv.still .exiting false nofun
  | handled => exact hinv
  | terminated => exact hinv.still .closing _ id

/-! ## Nobody waits for ever -/

theorem isSome_mainStep {c : Child} (h : c.main ≠ .pausing) (reused : Bool) :
    (mainStep ans s c reused).isSome := by
  obtain ⟨main, handler, pfd⟩ := c
  cases main with
  | signalHandling =>
      rw [mainStep]
      dsimp only
      split <;> rfl
  | init stage =>
      rw [mainStep]
      dsimp only
      split <;> rfl
  | inform rv =>
      rw [mainStep]
      dsimp only
      split
      · rfl
      · split <;> rfl
  | failing | closing | returning => rfl
  | pausing => exact absurd rfl h

/-- While the parent waits, one of the programs can take a step. -/
theorem exists_step_of_reads (hinv : Inv ans s) (h : s.parent.reads = true) :
    ∃ act, act.progress = true ∧ (step ans s act).isSome := by
  obtain ⟨parent, child, pipe⟩ := s
  cases parent with
  | forked | killing => exact ⟨.parent false, rfl, rfl⟩
  | exited | killed => cases h
  | reading =>
      cases pipe with
      | cons rv pipe => exact ⟨.parent false, rfl, rfl⟩
      | nil =>
          cases child with
          | none => exact ⟨.parent false, rfl, rfl⟩
          | some c =>
              by_cases hpfd : c.pfd = true
              · exact ⟨.main false, rfl, isSome_mainStep (hinv.holds c rfl hpfd).2.1 false⟩
              · refine ⟨.parent false, rfl, ?_⟩
                simp [step, parentStep, hpfd]

/-- A child that is about to exit can take the next step to it. -/
theorem isSome_of_ending {c : Child} (hc : s.child = some c) (h : c.Ending) :
    (step ans s (.main false)).isSome := by
  have hne : c.main ≠ .pausing := by
    rcases h with hmain | hmain <;> rw [hmain] <;> nofun
  rw [step, hc]
  exact isSome_mainStep hne false

/-! ## Without interference -/

/-- No process is killed, no call fails that has no reason to, and no signal ends the daemon. -/
def Act.Calm : Act → Prop
  | .parent fails => fails = false
  | .main _ | .handler => True
  | .signal terminates => terminates = false
  | .crash | .killParent => False

/-- The main thread has told that the child is up. -/
def Main.Told : Main → Prop
  | .closing _ | .pausing => True
  | _ => False

/-- A child that comes up is not given up. -/
structure Up (s : State) (c : Child) : Prop where
  child : s.child = some c
  parent : s.parent ≠ .killing ∧ s.parent ≠ .killed
  exited : ∀ rv, s.parent = .exited rv → rv = exitSuccess ∧ s.pipe ≠ []
  handler : c.handler = .absent ∨ c.handler = .waiting
  main : c.main ≠ .failing ∧ c.main ≠ .returning
  pfd : c.pfd = true ∨ c.main = .pausing
  told : s.pipe ≠ [] ↔ c.main.Told

theorem Main.Busy.not_told {main : Main} (h : main.Busy) : ¬ main.Told := by
  cases main with
  | init | inform => exact id
  | _ => exact h.elim

/-- The main thread is behind a step that does not write. -/
theorem Up.child_step {parent : Parent} {c c' : Child} {pipe : List Int}
    (h : Up ⟨parent, some c, pipe⟩ c) (hhandler : c'.handler = .absent ∨ c'.handler = .waiting)
    (hmain : c'.main ≠ .failing ∧ c'.main ≠ .returning) (hpfd : c'.pfd = true ∨ c'.main = .pausing)
    (htold : c'.main.Told ↔ c.main.Told) : Up ⟨parent, some c', pipe⟩ c' where
  child := rfl
  parent := h.parent
  exited := h.exited
  handler := hhandler
  main := hmain
  pfd := hpfd
  told := h.told.trans htold.symm

theorem up_step (hup : ans.foreground = .pausing) (hinv : Inv ans s) (h : ∃ c, Up s c)
    (hcalm : act.Calm) (hstep : step ans s act = some s') : ∃ c, Up s' c := by
  have hsuccess : ∀ {rv}, Tells ans rv → rv = exitSuccess := by
    rintro rv (htold | ⟨-, hfail⟩)
    · exact htold.1
    · rw [hup] at hfail
      cases hfail
  obtain ⟨c, hc⟩ := h
  cases moved_of_step hstep with
  | closes => exact ⟨c, hc.child, by simp, nofun, hc.handler, hc.main, hc.pfd, hc.told⟩
  | toldNothing hnothing =>
      rcases hnothing with rfl | ⟨rfl, hpfd⟩
      · cases hcalm
      · rcases hc.pfd with hopen | hpausing
        · rw [hpfd c hc.child] at hopen
          cases hopen
        · exact absurd rfl (hc.told.mpr (hpausing ▸ trivial))
  | told =>
      refine ⟨c, hc.child, by simp, ?_, hc.handler, hc.main, hc.pfd, hc.told⟩
      rintro _ ⟨⟩
      exact ⟨hsuccess (hinv.told _ List.mem_cons_self).1, List.cons_ne_nil _ _⟩
  | kills => exact absurd rfl hc.parent.1
  | noHandler hne =>
      rw [InitAnswers.foreground, if_pos hne] at hup
      cases hup
  | handlerMade =>
      cases hc.child
      exact ⟨_, hc.child_step (.inr rfl) ⟨nofun, nofun⟩ (hc.pfd.imp_right nofun) Iff.rfl⟩
  | initEnds hnone =>
      cases hc.child
      have hleads := hinv.leads _ rfl trivial
      rw [hup] at hleads
      cases hleads with
      | next hsome => rw [hnone] at hsome; cases hsome
  | @inits parent stage handler pfd pipe reused err =>
      cases hc.child
      have hbusy := stage.after_busy err
      refine ⟨_, hc.child_step hc.handler hbusy.ne.2.2 (hc.pfd.imp_right nofun) ?_⟩
      exact iff_of_false hbusy.not_told id
  | writes hreads =>
      cases hc.child
      refine ⟨_, rfl, hc.parent, ?_, hc.handler, ⟨nofun, nofun⟩, .inl rfl, ?_⟩
      · rintro _ rfl
        cases hreads
      · exact iff_of_true (List.append_ne_nil_of_right_ne_nil _ (List.cons_ne_nil _ _)) trivial
  | writesElsewhere =>
      cases hc.child
      rcases hc.pfd with hopen | hpausing
      · cases hopen
      · cases hpausing
  | @writeFails parent rv handler pfd pipe reused hreads =>
      cases hc.child
      have hopen : pfd = true := hc.pfd.resolve_right nofun
      have hnot := hreads hopen
      cases parent with
      | exited rv' => exact absurd (hc.exited rv' rfl).2 (mt hc.told.mp id)
      | killed => exact absurd rfl hc.parent.2
      | _ => cases hnot
  | @informed parent rv handler pfd pipe =>
      cases hc.child
      obtain rfl := hsuccess (hinv.closing _ rfl rv rfl)
      exact ⟨_, hc.child_step hc.handler ⟨nofun, nofun⟩ (.inr rfl) Iff.rfl⟩
  | returns hmain =>
      cases hc.child
      exact absurd hmain (not_or.mpr hc.main)
  | hangsUp | exits =>
      cases hc.child
      rcases hc.handler with hhandler | hhandler <;> cases hhandler
  | handled => exact ⟨c, hc⟩
  | terminated => cases hcalm
  | crashes | parentKilled => exact hcalm.elim

/-! ## The start of the daemon -/

theorem inv_of_run {ls : List Act} (h : Run.run (step ans) forked ls = some s) : Inv ans s :=
  Run.run_induction (fun _ _ _ hinv hstep ↦ inv_step hinv hstep) inv_forked h

theorem up_of_run {ls : List Act} (h : Run.run (step ans) forked ls = some s)
    (hup : ans.foreground = .pausing) (hcalm : ∀ act ∈ ls, act.Calm) : ∃ c, Up s c := by
  have hnothing : ¬ forked.pipe ≠ [] := by simp [forked]
  have hinit : ∃ c, Up forked c :=
    ⟨_, rfl, ⟨nofun, nofun⟩, nofun, .inl rfl, ⟨nofun, nofun⟩, .inl rfl, iff_of_false hnothing id⟩
  have hboth := Run.run_induction_of_meets
    (fun s act s' (hinv : Inv ans s ∧ ∃ c, Up s c) (hcalm : act.Calm) hstep ↦
      ⟨inv_step hinv.1 hstep, up_step hup hinv.1 hinv.2 hcalm hstep⟩)
    ⟨inv_forked, hinit⟩ (Run.meets_of_forall hcalm) h
  exact hboth.2

/-- In every interleaving of the two processes with signals and with anything that ends one of
them: the parent exits with success only if the daemon would run in the foreground, with its door
attached, and if it exits with anything else, what is left of the child can only exit.  The parent
is never stuck, and the two take 15 steps at most.  Where nothing interferes, the parent exits
with success exactly if the daemon would run in the foreground. -/
theorem daemonize_correct {ls : List Act} (h : Run.run (step ans) forked ls = some s) :
    (s.parent = .exited exitSuccess →
        ans.foreground = .pausing ∧ ∃ fd, ans.door = ⟨.ok (), .ok fd, .ok ()⟩) ∧
      (∀ rv, s.parent = .exited rv → rv ≠ exitSuccess → ∀ c ∈ s.child,
        c.Ending ∧ (step ans s (.main false)).isSome) ∧
      (s.parent.reads = true → ∃ act, act.progress = true ∧ (step ans s act).isSome) ∧
      ls.countP Act.progress ≤ 15 ∧
      ((∀ act ∈ ls, act.Calm) → ∀ rv, s.parent = .exited rv →
        (rv = exitSuccess ↔ ans.foreground = .pausing)) := by
  have hinv := inv_of_run h
  have hsuccess (hexited : s.parent = .exited exitSuccess) : ans.foreground = .pausing := by
    rcases (hinv.exited _ hexited).1 with (⟨-, hup⟩ | ⟨hfail, -⟩) | ⟨hfail, -⟩
    · exact hup
    · cases hfail
    · cases hfail
  refine ⟨fun hexited ↦ ⟨hsuccess hexited, ?_⟩, fun rv hexited hne c hc ↦ ?_,
    exists_step_of_reads hinv, ?_, ?_⟩
  · obtain ⟨-, -, -, -, hdoor⟩ := InitAnswers.foreground_eq_pausing_iff.mp (hsuccess hexited)
    exact sflowOpenDoor_eq_zero_iff.mp hdoor
  · have hending := (hinv.exited rv hexited).2 hne c hc
    exact ⟨hending, isSome_of_ending hc hending⟩
  · have hcount := Run.countP_add_le (fun _ _ _ hstep ↦ rank_step hstep) h
    exact Nat.le_trans (Nat.le_add_right _ _) hcount
  · intro hcalm rv hexited
    constructor
    · rintro rfl
      exact hsuccess hexited
    · intro hup
      obtain ⟨c, hc⟩ := up_of_run h hup hcalm
      exact (hc.exited rv hexited).1

/-- All goes well. -/
def fine : InitAnswers where
  handlerThread := 0
  sigfillset := 0
  pthreadSigmask := 0
  ifaddrs := threeIfs
  socket := 3
  pthreadKeyCreate := 0
  masterThread := 0
  door := ⟨.ok (), .ok 4, .ok ()⟩

/-- The child initialises while the parent waits, and a signal is dealt with in between. -/
def startUp : List Act :=
  .parent false :: List.replicate 6 (.main false) ++ [.signal false, .main false, .parent false]

theorem daemonize_correct_startUp :
    ∃ s, Run.run (step fine) forked startUp = some s ∧ s.parent = .exited exitSuccess ∧
      fine.foreground = .pausing ∧ startUp.countP Act.progress ≤ 15 := by
  have hrun : (Run.run (step fine) forked startUp).isSome := by decide +kernel
  obtain ⟨s, hs⟩ := Option.isSome_iff_exists.mp hrun
  have hexited : s.parent = .exited exitSuccess := by
    have hall : ∀ s ∈ Run.run (step fine) forked startUp, s.parent = .exited exitSuccess := by
      decide +kernel
    exact hall s hs
  obtain ⟨hsuccess, -, -, hcount, -⟩ := daemonize_correct hs
  exact ⟨s, hs, hexited, (hsuccess hexited).1, hcount⟩

end Daemonize

end Sflow

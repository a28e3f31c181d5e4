import Sflow.C.Tables
import Sflow.Source.Maxfd

/-!
# The master thread and the requests

`sflow_interrupt_sources_master_thread` beside requests that add and remove sources.  A
source goes through phases, from `calloc` to the `free` of its list node, and each phase is
a place in the code of the request that works on it.  The two sections under
`sflow_inter_src_mod_mtx` that requests have are single steps, and the one of the master
thread is a loop with a step for every descriptor.

Requests may overlap as long as no two of them work on the same source, so that requests
that come one after the other are covered.
-/

namespace Sflow

open C

/-! ## The system -/

/-- How far the request has got that works on a source. -/
inductive Phase where
  /-- The structure is filled in, and the socket is open. -/
  | made
  /-- The section that watches the socket is over. -/
  | watched
  /-- The source is in the list, and `sflow_add_source_type` has returned. -/
  | listed
  /-- `sflow_stop_source` has been called. -/
  | stopping
  /-- Its section is over. -/
  | unwatched
  /-- The socket is closed. -/
  | closed
  /-- The source is freed, and its node still in the list. -/
  | freed
deriving DecidableEq, Repr

namespace Phase

/-- There is a slot for the source. -/
def slotted : Phase → Bool
  | watched | listed | stopping => true
  | made | unwatched | closed | freed => false

/-- The socket of the source is open. -/
def opened : Phase → Bool
  | made | watched | listed | stopping | unwatched => true
  | closed | freed => false

def linked : Phase → Bool
  | listed | stopping | unwatched | closed | freed => true
  | made | watched => false

def live : Phase → Bool
  | made | watched | listed | stopping | unwatched | closed => true
  | freed => false

end Phase

/-- A source in memory, or what is left of it. -/
structure SourceAt where
  phase : Phase
  src : SflowSource

namespace SourceAt

def flow (pt : SourceAt) : Bool := pt.src.ssType = .flowsample

/-- The slot that the source is in. -/
def slotFd (pt : SourceAt) : Option Nat :=
  if pt.flow && pt.phase.slotted then some pt.src.ssFd else none

/-- The descriptor that is open for the source. -/
def openFd (pt : SourceAt) : Option Nat :=
  if pt.flow && pt.phase.opened then some pt.src.ssFd else none

/-- The source that a node of the list is for. -/
def linkedSrc (pt : SourceAt) : Option SflowSource :=
  if pt.phase.linked then some pt.src else none

/-- What a pointer to the source leads to. -/
def liveSrc (pt : SourceAt) : Option SflowSource := if pt.phase.live then some pt.src else none

end SourceAt

/-- Where the master thread is. -/
inductive MasterPc where
  /-- `to_watch` has not been cleared yet. -/
  | boot
  | idle
  /-- It has found `maxfd` not to be negative. -/
  | checked
  /-- It holds the lock, `select` has found these descriptors, and it looks at this one. -/
  | scan (toRead : Nat → Bool) (i : Nat)

structure WatchState where
  registry : Registry
  /-- The sources, by address. -/
  sources : Nat → Option SourceAt
  /-- The sockets that are open, each with the source that it is for. -/
  fds : Nat → Option Nat
  master : MasterPc

/-- What a request does for a source. -/
inductive DoorAct where
  /-- The source is what it will be in the list: it has its thread, if it is going to get one. -/
  | make (src : SflowSource)
  | watch
  | insert
  | stop
  | unwatch
  | close
  | free
  | unlink

inductive MasterAct where
  | zero
  | check
  /-- `select` fails or finds nothing, or finds these among the descriptors watched. -/
  | select (ready : Option (Nat → Bool))
  | look

inductive WatchAct where
  | door (addr : Nat) (act : DoorAct)
  | master (act : MasterAct)

namespace WatchState

/-- `sflow_init_data` is over and the threads are being created. -/
def init : WatchState where
  registry := .init
  sources _ := none
  fds _ := none
  master := .boot

/-- The master thread holds `sflow_inter_src_mod_mtx`. -/
def locked (s : WatchState) : Bool :=
  match s.master with
  | .scan _ _ => true
  | .boot | .idle | .checked => false

/-- The source at an address comes into another phase. -/
def moved (s : WatchState) (addr : Nat) (pt : Option SourceAt) : WatchState :=
  { s with sources := Function.update s.sources addr pt }

/-- One step of a request.  The steps about sockets are there for sources that have one. -/
def doorStep (s : WatchState) (addr : Nat) (act : DoorAct) : Option WatchState :=
  match s.sources addr, act with
  | none, .make src =>
      if src.ssType = .flowsample then
        -- A descriptor that is not open.
        if s.fds src.ssFd = none then
          some { s.moved addr (some ⟨.made, src⟩) with
            fds := Function.update s.fds src.ssFd (some addr) }
        else none
      else some (s.moved addr (some ⟨.made, src⟩))
  | some ⟨.made, src⟩, .watch =>
      if s.locked then none
      else if src.ssType = .flowsample then
        some { s.moved addr (some ⟨.watched, src⟩) with
          registry := s.registry.watch src.ssFd addr }
      else some (s.moved addr (some ⟨.watched, src⟩))
  | some ⟨.watched, src⟩, .insert =>
      if h : ⟨addr, src⟩ ∉ s.registry.sflowAllSources.nodes then
        some { s.moved addr (some ⟨.listed, src⟩) with
          registry := s.registry.insertTail ⟨addr, src⟩ h }
      else none
  | some ⟨.listed, src⟩, .stop => some (s.moved addr (some ⟨.stopping, src⟩))
  | some ⟨.stopping, src⟩, .unwatch =>
      if s.locked then none
      else if src.ssType = .flowsample then
        some { s.moved addr (some ⟨.unwatched, src⟩) with
          registry := s.registry.unwatch src.ssFd }
      else some (s.moved addr (some ⟨.unwatched, src⟩))
  | some ⟨.unwatched, src⟩, .close =>
      if src.ssType = .flowsample then
        some { s.moved addr (some ⟨.closed, src⟩) with
          registry := { s.registry with closed := s.registry.closed ++ [src.ssFd] }
          fds := Function.update s.fds src.ssFd none }
      else
        some { s.moved addr (some ⟨.closed, src⟩) with
          registry := sflowStopSource s.registry ⟨addr, src⟩ }
  | some ⟨.closed, src⟩, .free => some (s.moved addr (some ⟨.freed, src⟩))
  | some ⟨.freed, src⟩, .unlink =>
      some { s.moved addr none with registry := s.registry.unlink ⟨addr, src⟩ }
  | _, _ => none

/-- One step of the master thread. -/
def masterStep (s : WatchState) (act : MasterAct) : Option WatchState :=
  match s.master, act with
  | .boot, .zero =>
      some { s with registry := { s.registry with toWatch := fun _ => false }, master := .idle }
  | .idle, .check =>
      some { s with master := if s.registry.maxfd < 0 then .idle else .checked }
  | .checked, .select none => some { s with master := .idle }
  | .checked, .select (some ready) =>
      some { s with master := .scan (fun i => s.registry.toWatch i && ready i) 0 }
  | .scan toRead i, .look =>
      some { s with master := if i ≤ s.registry.maxfd then .scan toRead (i + 1) else .idle }
  | _, _ => none

def step (s : WatchState) : WatchAct → Option WatchState
  | .door addr act => s.doorStep addr act
  | .master act => s.masterStep act

/-- What the master thread does for a descriptor with data: it gets the source, reads it, and
asserts its type. -/
def lookup (s : WatchState) (i : Nat) : Except Fault SflowSource := do
  let slot ← expandingArrayGet s.registry.sflowFdSources i
  match slot with
  | none => .error .nullDeref
  | some addr =>
      match (s.sources addr).bind SourceAt.liveSrc with
      | none => .error .useAfterFree
      | some src => if src.ssType = .flowsample then .ok src else .error .assertFailed

end WatchState

/-! ## The steps together -/

section Together

variable {s : WatchState} {addr : Nat} {src : SflowSource}

/-- The steps that add a source do together what `sflow_add_source_type` does. -/
theorem registry_watch_insert {calls : SourceCalls} (hunlocked : s.locked = false)
    (hpt : s.sources addr = some ⟨.made, src⟩)
    (hnode : calls.node (calls.listed src) s.registry = ⟨addr, src⟩) :
    (Run.run WatchState.step s [.door addr .watch, .door addr .insert]).map
      WatchState.registry = some (sflowAddSourceType calls src s.registry).2 := by
  have hlisted : calls.listed src = src := congrArg SourceNode.sslnSrc hnode
  rw [hlisted] at hnode
  have hnew : ⟨addr, src⟩ ∉ s.registry.sflowAllSources.nodes := by
    rw [← hnode]
    exact calls.node_notMem src s.registry
  have hspawn : ¬ (calls.pthreadCreate : Int) < 0 := Int.not_lt.mpr (Int.natCast_nonneg _)
  by_cases hflow : src.ssType = .flowsample
  · have hnew' : ⟨addr, src⟩ ∉ (s.registry.watch src.ssFd addr).sflowAllSources.nodes := hnew
    simp [Run.run, WatchState.step, WatchState.doorStep, WatchState.moved, hpt, hunlocked, hflow,
      hnew', sflowAddSourceType, hnode]
  · have hadd : (sflowAddSourceType calls src s.registry).2 =
        s.registry.insertTail ⟨addr, src⟩ hnew := by
      unfold sflowAddSourceType
      rw [sflowSpawnPollThread_eq calls hflow, hlisted]
      cases htype : src.ssType with
      | flowsample => exact absurd htype hflow
      | interPollSeperation => simp [hnode]
      | ifgeneric | phyhost | vhost | flowstat => simp [hnode, hspawn]
    simp [Run.run, WatchState.step, WatchState.doorStep, WatchState.moved, hpt, hunlocked, hflow,
      hnew, hadd]

/-- The steps that remove a source do together what `sflow_stop_source` and `list_remove` do. -/
theorem registry_unwatch_unlink (hunlocked : s.locked = false)
    (hpt : s.sources addr = some ⟨.stopping, src⟩) :
    (Run.run WatchState.step s [.door addr .unwatch, .door addr .close, .door addr .free,
      .door addr .unlink]).map WatchState.registry =
        some ((sflowStopSource s.registry ⟨addr, src⟩).unlink ⟨addr, src⟩) := by
  by_cases hflow : src.ssType = .flowsample
  · rw [Registry.sflowStopSource_flowsample hflow]
    simp [Run.run, WatchState.step, WatchState.doorStep, WatchState.moved, hpt, hunlocked, hflow,
      Registry.unwatch]
  · simp [Run.run, WatchState.step, WatchState.doorStep, WatchState.moved, hpt, hunlocked, hflow]

end Together

/-! ## What a step can do -/

namespace WatchState

/-- The steps of a request, one by one. -/
inductive DoorMoves (s : WatchState) (addr : Nat) : WatchState → Prop
  | make {src} (hpt : s.sources addr = none) (hflow : src.ssType = .flowsample)
      (hfree : s.fds src.ssFd = none) :
      DoorMoves s addr
        { s.moved addr (some ⟨.made, src⟩) with
          fds := Function.update s.fds src.ssFd (some addr) }
  | makePolled {src} (hpt : s.sources addr = none) (hflow : src.ssType ≠ .flowsample) :
      DoorMoves s addr (s.moved addr (some ⟨.made, src⟩))
  | watch {src} (hpt : s.sources addr = some ⟨.made, src⟩) (hflow : src.ssType = .flowsample)
      (hlocked : s.locked = false) :
      DoorMoves s addr
        { s.moved addr (some ⟨.watched, src⟩) with
          registry := s.registry.watch src.ssFd addr }
  | watchPolled {src} (hpt : s.sources addr = some ⟨.made, src⟩)
      (hflow : src.ssType ≠ .flowsample) :
      DoorMoves s addr (s.moved addr (some ⟨.watched, src⟩))
  | insert {src} (hpt : s.sources addr = some ⟨.watched, src⟩)
      (hnew : ⟨addr, src⟩ ∉ s.registry.sflowAllSources.nodes) :
      DoorMoves s addr
        { s.moved addr (some ⟨.listed, src⟩) with
          registry := s.registry.insertTail ⟨addr, src⟩ hnew }
  | stop {src} (hpt : s.sources addr = some ⟨.listed, src⟩) :
      DoorMoves s addr (s.moved addr (some ⟨.stopping, src⟩))
  | unwatch {src} (hpt : s.sources addr = some ⟨.stopping, src⟩)
      (hflow : src.ssType = .flowsample) (hlocked : s.locked = false) :
      DoorMoves s addr
        { s.moved addr (some ⟨.unwatched, src⟩) with
          registry := s.registry.unwatch src.ssFd }
  | unwatchPolled {src} (hpt : s.sources addr = some ⟨.stopping, src⟩)
      (hflow : src.ssType ≠ .flowsample) :
      DoorMoves s addr (s.moved addr (some ⟨.unwatched, src⟩))
  | close {src} (hpt : s.sources addr = some ⟨.unwatched, src⟩)
      (hflow : src.ssType = .flowsample) :
      DoorMoves s addr
        { s.moved addr (some ⟨.closed, src⟩) with
          registry := { s.registry with closed := s.registry.closed ++ [src.ssFd] }
          fds := Function.update s.fds src.ssFd none }
  | closePolled {src} (hpt : s.sources addr = some ⟨.unwatched, src⟩)
      (hflow : src.ssType ≠ .flowsample) :
      DoorMoves s addr
        { s.moved addr (some ⟨.closed, src⟩) with
          registry := sflowStopSource s.registry ⟨addr, src⟩ }
  | free {src} (hpt : s.sources addr = some ⟨.closed, src⟩) :
      DoorMoves s addr (s.moved addr (some ⟨.freed, src⟩))
  | unlink {src} (hpt : s.sources addr = some ⟨.freed, src⟩) :
      DoorMoves s addr
        { s.moved addr none with registry := s.registry.unlink ⟨addr, src⟩ }

theorem doorMoves_of_doorStep {s s' : WatchState} {addr : Nat} {act : DoorAct}
    (hstep : s.doorStep addr act = some s') : DoorMoves s addr s' := by
  unfold doorStep at hstep
  split at hstep
  case h_1 src hpt =>
    split at hstep
    case isTrue hflow =>
      split at hstep
      case isTrue hfree =>
        cases hstep
        exact .make hpt hflow hfree
      case isFalse => cases hstep
    case isFalse hflow =>
      cases hstep
      exact .makePolled hpt hflow
  case h_2 src hpt =>
    split at hstep
    case isTrue => cases hstep
    case isFalse hlocked =>
      rw [Bool.not_eq_true] at hlocked
      split at hstep
      case isTrue hflow =>
        cases hstep
        exact .watch hpt hflow hlocked
      case isFalse hflow =>
        cases hstep
        exact .watchPolled hpt hflow
  case h_3 src hpt =>
    split at hstep
    case isTrue hnew =>
      cases hstep
      exact .insert hpt hnew
    case isFalse => cases hstep
  case h_4 src hpt =>
    cases hstep
    exact .stop hpt
  case h_5 src hpt =>
    split at hstep
    case isTrue => cases hstep
    case isFalse hlocked =>
      rw [Bool.not_eq_true] at hlocked
      split at hstep
      case isTrue hflow =>
        cases hstep
        exact .unwatch hpt hflow hlocked
      case isFalse hflow =>
        cases hstep
        exact .unwatchPolled hpt hflow
  case h_6 src hpt =>
    split at hstep
    case isTrue hflow =>
      cases hstep
      exact .close hpt hflow
    case isFalse hflow =>
      cases hstep
      exact .closePolled hpt hflow
  case h_7 src hpt =>
    cases hstep
    exact .free hpt
  case h_8 src hpt =>
    cases hstep
    exact .unlink hpt
  case h_9 => cases hstep

end WatchState

/-! ## The registry and its table -/

namespace Registry

/-- What is watched has a slot, and the slots in use are below `maxfd` and the capacity. -/
structure Watching (d : Registry) : Prop where
  watched : ∀ fd, d.toWatch fd = true → d.sflowFdSources.slot fd ≠ none
  upper : ∀ fd : Nat, d.sflowFdSources.slot fd ≠ none → fd ≤ d.maxfd
  capacity : d.maxfd < d.sflowFdSources.eaArray.length
  positive : 0 < d.sflowFdSources.eaArray.length

variable {d : Registry}

theorem watching_init : init.Watching where
  watched _ h := absurd h Bool.false_ne_true
  upper fd h := absurd (slot_expandingArrayCreate fd) h
  capacity := by decide
  positive := by decide

/-- The slots after a source has been added. -/
theorem slot_watch (h : 0 < d.sflowFdSources.eaArray.length) (fd addr : Nat) :
    (d.watch fd addr).sflowFdSources.slot =
      Function.update d.sflowFdSources.slot fd (some addr) := by
  funext i
  change (expandingArraySet _ _ _).slot i = _
  rw [slot_expandingArraySet h, Function.update_apply]

theorem slot_unwatch_eq (d : Registry) (fd : Nat) :
    (d.unwatch fd).sflowFdSources.slot = Function.update d.sflowFdSources.slot fd none := by
  funext i
  rw [slot_unwatch, Function.update_apply]

theorem Watching.watch (h : d.Watching) (fd addr : Nat) : (d.watch fd addr).Watching := by
  have hslot := slot_watch h.positive fd addr
  have hmaxfd : (d.watch fd addr).maxfd = if d.maxfd < fd then (fd : Int) else d.maxfd := rfl
  have hlength : (d.watch fd addr).sflowFdSources.eaArray.length =
      doubled (fd + 1) fd d.sflowFdSources.eaArray.length := length_expandingArraySet _ _ _
  constructor
  · intro i hwatch
    change Function.update d.toWatch fd true i = true at hwatch
    rw [hslot]
    by_cases hi : i = fd
    · rw [hi, Function.update_self]
      exact Option.some_ne_none addr
    · rw [Function.update_of_ne hi] at hwatch ⊢
      exact h.watched i hwatch
  · intro i hused
    rw [hslot] at hused
    rw [hmaxfd]
    by_cases hi : i = fd
    · split <;> omega
    · rw [Function.update_of_ne hi] at hused
      have hle := h.upper i hused
      split <;> omega
  · have hfd : fd < doubled (fd + 1) fd d.sflowFdSources.eaArray.length :=
      lt_doubled h.positive (by omega)
    have hle := le_doubled (fd + 1) fd d.sflowFdSources.eaArray.length
    have hcapacity := h.capacity
    rw [hmaxfd, hlength]
    split <;> omega
  · exact length_expandingArraySet_pos h.positive fd (some addr)

theorem Watching.unwatch (h : d.Watching) (fd : Nat) : (d.unwatch fd).Watching := by
  have hslot := slot_unwatch_eq d fd
  have hlength : (d.unwatch fd).sflowFdSources.eaArray.length =
      doubled (fd + 1) fd d.sflowFdSources.eaArray.length := length_expandingArraySet _ _ _
  have hle := le_doubled (fd + 1) fd d.sflowFdSources.eaArray.length
  have hupper : ∀ i : Nat, (d.unwatch fd).sflowFdSources.slot i ≠ none → i ≤ d.maxfd := by
    intro i hused
    rw [slot_unwatch] at hused
    split at hused
    · exact absurd rfl hused
    · exact h.upper i hused
  constructor
  · intro i hwatch
    change Function.update d.toWatch fd false i = true at hwatch
    by_cases hi : i = fd
    · rw [hi, Function.update_self] at hwatch
      cases hwatch
    · rw [Function.update_of_ne hi] at hwatch
      rw [hslot, Function.update_of_ne hi]
      exact h.watched i hwatch
  · intro i hused
    by_cases hmax : d.maxfd = fd
    · rcases maxfd_unwatch_of_eq hmax with ⟨-, hempty⟩ | ⟨k, hk, -, hlast⟩
      · exact absurd (hempty i) hused
      · rw [hk]
        exact Int.ofNat_le.mpr (hlast i hused)
    · rw [maxfd_unwatch_of_ne hmax]
      exact hupper i hused
  · have hcapacity := h.capacity
    by_cases hmax : d.maxfd = fd
    · rcases maxfd_unwatch_of_eq hmax with ⟨heq, -⟩ | ⟨k, hk, hused, -⟩
      · omega
      · have hk' := hupper k hused
        omega
    · rw [maxfd_unwatch_of_ne hmax]
      omega
  · exact length_expandingArraySet_pos h.positive fd none

end Registry

/-! ## The invariant -/

namespace WatchState

/-- The slot of the source at an address, the descriptor that is open for it, and the source of
the node there. -/
def slotTable (s : WatchState) (addr : Nat) : Option Nat := (s.sources addr).bind SourceAt.slotFd

def fdTable (s : WatchState) (addr : Nat) : Option Nat := (s.sources addr).bind SourceAt.openFd

def linkTable (s : WatchState) (addr : Nat) : Option SflowSource :=
  (s.sources addr).bind SourceAt.linkedSrc

/-- Slots, sockets and nodes are those of the sources in the right phases, and the master thread
goes by what is watched. -/
structure Inv (s : WatchState) : Prop where
  watching : s.registry.Watching
  slots : Matched s.registry.sflowFdSources.slot s.slotTable
  fds : Matched s.fds s.fdTable
  linked : ∀ node, node ∈ s.registry.sflowAllSources.nodes ↔
    s.linkTable node.addr = some node.sslnSrc
  scan : ∀ toRead i, s.master = .scan toRead i → ∀ fd, toRead fd = true →
    s.registry.toWatch fd = true

theorem inv_init : init.Inv where
  watching := Registry.watching_init
  slots fd addr := by
    rw [show init.registry.sflowFdSources.slot fd = none from slot_expandingArrayCreate fd]
    exact iff_of_false (Option.some_ne_none _).symm (Option.some_ne_none _).symm
  fds fd addr := iff_of_false (Option.some_ne_none _).symm (Option.some_ne_none _).symm
  linked node := iff_of_false List.not_mem_nil (Option.some_ne_none _).symm
  scan toRead i h := by cases h

section Moved

variable (s : WatchState) (addr : Nat) (pt : Option SourceAt)

theorem slotTable_moved :
    (s.moved addr pt).slotTable = Function.update s.slotTable addr (pt.bind SourceAt.slotFd) := by
  funext i
  by_cases hi : i = addr <;> simp [slotTable, moved, hi]

theorem fdTable_moved :
    (s.moved addr pt).fdTable = Function.update s.fdTable addr (pt.bind SourceAt.openFd) := by
  funext i
  by_cases hi : i = addr <;> simp [fdTable, moved, hi]

theorem linkTable_moved : (s.moved addr pt).linkTable =
    Function.update s.linkTable addr (pt.bind SourceAt.linkedSrc) := by
  funext i
  by_cases hi : i = addr <;> simp [linkTable, moved, hi]

end Moved

/-! ## Steps of requests -/

variable {s s' : WatchState} {addr : Nat} {src : SflowSource}

theorem slotTable_moved_of_eq {pt : Option SourceAt}
    (h : pt.bind SourceAt.slotFd = s.slotTable addr) :
    (s.moved addr pt).slotTable = s.slotTable := by
  rw [slotTable_moved, h, Function.update_eq_self]

theorem fdTable_moved_of_eq {pt : Option SourceAt}
    (h : pt.bind SourceAt.openFd = s.fdTable addr) : (s.moved addr pt).fdTable = s.fdTable := by
  rw [fdTable_moved, h, Function.update_eq_self]

theorem linkTable_moved_of_eq {pt : Option SourceAt}
    (h : pt.bind SourceAt.linkedSrc = s.linkTable addr) :
    (s.moved addr pt).linkTable = s.linkTable := by
  rw [linkTable_moved, h, Function.update_eq_self]

section Rephase

variable {phase : Phase}

theorem slotTable_rephase (hpt : s.sources addr = some ⟨phase, src⟩) (phase' : Phase)
    (h : src.ssType = .flowsample → phase'.slotted = phase.slotted) :
    (s.moved addr (some ⟨phase', src⟩)).slotTable = s.slotTable := by
  apply slotTable_moved_of_eq
  rw [slotTable, hpt]
  by_cases hflow : src.ssType = .flowsample
  · rw [Option.bind_some, Option.bind_some, SourceAt.slotFd, SourceAt.slotFd, h hflow]
    rfl
  · simp [SourceAt.slotFd, SourceAt.flow, hflow]

theorem fdTable_rephase (hpt : s.sources addr = some ⟨phase, src⟩) (phase' : Phase)
    (h : src.ssType = .flowsample → phase'.opened = phase.opened) :
    (s.moved addr (some ⟨phase', src⟩)).fdTable = s.fdTable := by
  apply fdTable_moved_of_eq
  rw [fdTable, hpt]
  by_cases hflow : src.ssType = .flowsample
  · rw [Option.bind_some, Option.bind_some, SourceAt.openFd, SourceAt.openFd, h hflow]
    rfl
  · simp [SourceAt.openFd, SourceAt.flow, hflow]

theorem linkTable_rephase (hpt : s.sources addr = some ⟨phase, src⟩) (phase' : Phase)
    (h : phase'.linked = phase.linked) :
    (s.moved addr (some ⟨phase', src⟩)).linkTable = s.linkTable := by
  apply linkTable_moved_of_eq
  rw [linkTable, hpt]
  simp only [Option.bind_some, SourceAt.linkedSrc, h]

end Rephase

/-- The next phase of a source, where nothing is done that shows in a table. -/
theorem Inv.rephase (h : s.Inv) {phase : Phase} (hpt : s.sources addr = some ⟨phase, src⟩)
    (phase' : Phase) (hslotted : src.ssType = .flowsample → phase'.slotted = phase.slotted)
    (hopened : src.ssType = .flowsample → phase'.opened = phase.opened)
    (hlinked : phase'.linked = phase.linked) : (s.moved addr (some ⟨phase', src⟩)).Inv where
  watching := h.watching
  slots := by
    rw [slotTable_rephase hpt phase' hslotted]
    exact h.slots
  fds := by
    rw [fdTable_rephase hpt phase' hopened]
    exact h.fds
  linked := by
    rw [linkTable_rephase hpt phase' hlinked]
    exact h.linked
  scan := h.scan

/-- Whoever has a slot has its descriptor open. -/
theorem fdTable_of_slotTable {fd : Nat} (h : s.slotTable addr = some fd) :
    s.fdTable addr = some fd := by
  unfold slotTable at h
  unfold fdTable
  cases hpt : s.sources addr with
  | none =>
      rw [hpt] at h
      cases h
  | some pt =>
      obtain ⟨phase, src⟩ := pt
      rw [hpt, Option.bind_some, SourceAt.slotFd, Option.ite_none_right_eq_some] at h
      rw [Option.bind_some, SourceAt.openFd, Option.ite_none_right_eq_some]
      refine ⟨?_, h.2⟩
      rw [Bool.and_eq_true] at h ⊢
      refine ⟨h.1.1, ?_⟩
      have hslotted := h.1.2
      cases phase <;> first | rfl | cases hslotted

/-- A descriptor that is open for a source without a slot is in no slot. -/
theorem Inv.slot_eq_none (h : s.Inv) {fd : Nat} (hfd : s.fdTable addr = some fd)
    (hslot : s.slotTable addr = none) : s.registry.sflowFdSources.slot fd = none := by
  by_contra hused
  obtain ⟨addr', haddr'⟩ := Option.ne_none_iff_exists'.mp hused
  have hslot' := (h.slots fd addr').mp haddr'
  have howner := (h.fds fd addr').mpr (fdTable_of_slotTable hslot')
  rw [(h.fds fd addr).mpr hfd] at howner
  cases howner
  rw [hslot] at hslot'
  cases hslot'

theorem scan_of_not_locked (h : s.locked = false) (toRead : Nat → Bool) (i : Nat) :
    s.master ≠ .scan toRead i := by
  intro hscan
  rw [locked, hscan] at h
  cases h

/-- A socket is opened for a new source. -/
theorem Inv.make (h : s.Inv) (hpt : s.sources addr = none) (hflow : src.ssType = .flowsample)
    (hfree : s.fds src.ssFd = none) :
    { s.moved addr (some ⟨.made, src⟩) with
      fds := Function.update s.fds src.ssFd (some addr) }.Inv where
  watching := h.watching
  slots := by
    change Matched s.registry.sflowFdSources.slot (s.moved addr _).slotTable
    rw [slotTable_moved_of_eq]
    · exact h.slots
    · simp [slotTable, hpt, SourceAt.slotFd, Phase.slotted]
  fds := by
    change Matched _ (s.moved addr _).fdTable
    have hmade : (some (SourceAt.mk .made src)).bind SourceAt.openFd = some src.ssFd := by
      simp [SourceAt.openFd, SourceAt.flow, hflow, Phase.opened]
    rw [fdTable_moved, hmade]
    exact h.fds.add hfree (by simp [fdTable, hpt])
  linked := by
    change ∀ node : SourceNode, _ ↔ (s.moved addr _).linkTable node.addr = _
    rw [linkTable_moved_of_eq]
    · exact h.linked
    · simp [linkTable, hpt, SourceAt.linkedSrc, Phase.linked]
  scan := h.scan

/-- A new source without a socket. -/
theorem Inv.makePolled (h : s.Inv) (hpt : s.sources addr = none)
    (hflow : src.ssType ≠ .flowsample) : (s.moved addr (some ⟨.made, src⟩)).Inv where
  watching := h.watching
  slots := by
    rw [slotTable_moved_of_eq]
    · exact h.slots
    · simp [slotTable, hpt, SourceAt.slotFd, Phase.slotted]
  fds := by
    rw [fdTable_moved_of_eq]
    · exact h.fds
    · simp [fdTable, hpt, SourceAt.openFd, SourceAt.flow, hflow]
  linked := by
    rw [linkTable_moved_of_eq]
    · exact h.linked
    · simp [linkTable, hpt, SourceAt.linkedSrc, Phase.linked]
  scan := h.scan

/-- The section that watches a socket. -/
theorem Inv.watch (h : s.Inv) (hpt : s.sources addr = some ⟨.made, src⟩)
    (hflow : src.ssType = .flowsample) (hlocked : s.locked = false) :
    { s.moved addr (some ⟨.watched, src⟩) with
      registry := s.registry.watch src.ssFd addr }.Inv where
  watching := h.watching.watch src.ssFd addr
  slots := by
    change Matched (s.registry.watch src.ssFd addr).sflowFdSources.slot
      (s.moved addr _).slotTable
    have hnone : s.slotTable addr = none := by simp [slotTable, hpt, SourceAt.slotFd, Phase.slotted]
    have hfd : s.fdTable addr = some src.ssFd := by
      simp [fdTable, hpt, SourceAt.openFd, SourceAt.flow, hflow, Phase.opened]
    have hwatched : (some (SourceAt.mk .watched src)).bind SourceAt.slotFd = some src.ssFd := by
      simp [SourceAt.slotFd, SourceAt.flow, hflow, Phase.slotted]
    rw [slotTable_moved, hwatched, Registry.slot_watch h.watching.positive]
    exact h.slots.add (h.slot_eq_none hfd hnone) hnone
  fds := by
    change Matched s.fds (s.moved addr _).fdTable
    rw [fdTable_rephase hpt .watched fun _ ↦ rfl]
    exact h.fds
  linked := by
    change ∀ node, node ∈ s.registry.sflowAllSources.nodes ↔
      (s.moved addr _).linkTable node.addr = _
    rw [linkTable_rephase hpt .watched rfl]
    exact h.linked
  scan toRead i hscan := absurd hscan (scan_of_not_locked hlocked toRead i)

/-- A node comes into the list. -/
theorem Inv.insert (h : s.Inv) (hpt : s.sources addr = some ⟨.watched, src⟩)
    (hnew : ⟨addr, src⟩ ∉ s.registry.sflowAllSources.nodes) :
    { s.moved addr (some ⟨.listed, src⟩) with
      registry := s.registry.insertTail ⟨addr, src⟩ hnew }.Inv where
  watching := ⟨h.watching.watched, h.watching.upper, h.watching.capacity, h.watching.positive⟩
  slots := by
    change Matched s.registry.sflowFdSources.slot (s.moved addr _).slotTable
    rw [slotTable_rephase hpt .listed fun _ ↦ rfl]
    exact h.slots
  fds := by
    change Matched s.fds (s.moved addr _).fdTable
    rw [fdTable_rephase hpt .listed fun _ ↦ rfl]
    exact h.fds
  linked node := by
    change node ∈ s.registry.sflowAllSources.nodes ++ [⟨addr, src⟩] ↔
      (s.moved addr _).linkTable node.addr = _
    have hbefore : s.linkTable addr = none := by
      simp [linkTable, hpt, SourceAt.linkedSrc, Phase.linked]
    rw [linkTable_moved, List.mem_append, List.mem_singleton, h.linked]
    obtain ⟨addr', src'⟩ := node
    by_cases haddr : addr' = addr
    · have hlisted : (some (SourceAt.mk .listed src)).bind SourceAt.linkedSrc = some src := rfl
      simp [haddr, hbefore, hlisted, eq_comm]
    · simp [haddr]
  scan := h.scan

/-- The section that stops watching a socket. -/
theorem Inv.unwatch (h : s.Inv) (hpt : s.sources addr = some ⟨.stopping, src⟩)
    (hflow : src.ssType = .flowsample) (hlocked : s.locked = false) :
    { s.moved addr (some ⟨.unwatched, src⟩) with
      registry := s.registry.unwatch src.ssFd }.Inv where
  watching := h.watching.unwatch src.ssFd
  slots := by
    change Matched (s.registry.unwatch src.ssFd).sflowFdSources.slot
      (s.moved addr _).slotTable
    have hslot : s.slotTable addr = some src.ssFd := by
      simp [slotTable, hpt, SourceAt.slotFd, SourceAt.flow, hflow, Phase.slotted]
    have hgone : (some (SourceAt.mk .unwatched src)).bind SourceAt.slotFd = none := by
      simp [SourceAt.slotFd, Phase.slotted]
    rw [slotTable_moved, hgone, Registry.slot_unwatch_eq]
    exact h.slots.delete ((h.slots _ _).mpr hslot)
  fds := by
    change Matched s.fds (s.moved addr _).fdTable
    rw [fdTable_rephase hpt .unwatched fun _ ↦ rfl]
    exact h.fds
  linked := by
    change ∀ node, node ∈ s.registry.sflowAllSources.nodes ↔
      (s.moved addr _).linkTable node.addr = _
    rw [linkTable_rephase hpt .unwatched rfl]
    exact h.linked
  scan toRead i hscan := absurd hscan (scan_of_not_locked hlocked toRead i)

/-- A socket is closed. -/
theorem Inv.close (h : s.Inv) (hpt : s.sources addr = some ⟨.unwatched, src⟩)
    (hflow : src.ssType = .flowsample) :
    { s.moved addr (some ⟨.closed, src⟩) with
      registry := { s.registry with closed := s.registry.closed ++ [src.ssFd] }
      fds := Function.update s.fds src.ssFd none }.Inv where
  watching := ⟨h.watching.watched, h.watching.upper, h.watching.capacity, h.watching.positive⟩
  slots := by
    change Matched s.registry.sflowFdSources.slot (s.moved addr _).slotTable
    rw [slotTable_rephase hpt .closed fun _ ↦ rfl]
    exact h.slots
  fds := by
    change Matched _ (s.moved addr _).fdTable
    have hfd : s.fdTable addr = some src.ssFd := by
      simp [fdTable, hpt, SourceAt.openFd, SourceAt.flow, hflow, Phase.opened]
    have hgone : (some (SourceAt.mk .closed src)).bind SourceAt.openFd = none := by
      simp [SourceAt.openFd, Phase.opened]
    rw [fdTable_moved, hgone]
    exact h.fds.delete ((h.fds _ _).mpr hfd)
  linked := by
    change ∀ node, node ∈ s.registry.sflowAllSources.nodes ↔
      (s.moved addr _).linkTable node.addr = _
    rw [linkTable_rephase hpt .closed rfl]
    exact h.linked
  scan := h.scan

/-- A node leaves the list. -/
theorem Inv.unlink (h : s.Inv) (hpt : s.sources addr = some ⟨.freed, src⟩) :
    { s.moved addr none with registry := s.registry.unlink ⟨addr, src⟩ }.Inv where
  watching := ⟨h.watching.watched, h.watching.upper, h.watching.capacity, h.watching.positive⟩
  slots := by
    change Matched s.registry.sflowFdSources.slot (s.moved addr _).slotTable
    rw [slotTable_moved_of_eq]
    · exact h.slots
    · simp [slotTable, hpt, SourceAt.slotFd, Phase.slotted]
  fds := by
    change Matched s.fds (s.moved addr _).fdTable
    rw [fdTable_moved_of_eq]
    · exact h.fds
    · simp [fdTable, hpt, SourceAt.openFd, Phase.opened]
  linked node := by
    change node ∈ s.registry.sflowAllSources.nodes.erase ⟨addr, src⟩ ↔
      (s.moved addr _).linkTable node.addr = _
    have hbefore : s.linkTable addr = some src := by
      simp [linkTable, hpt, SourceAt.linkedSrc, Phase.linked]
    rw [linkTable_moved, s.registry.sflowAllSources.nodup.mem_erase_iff, h.linked]
    obtain ⟨addr', src'⟩ := node
    by_cases haddr : addr' = addr
    · simp [haddr, hbefore, eq_comm]
    · simp [haddr]
  scan := h.scan

/-- The logs of the registry do not matter. -/
theorem Inv.relog (h : s.Inv) (closed cancelled : List Nat) :
    { s with registry := { s.registry with closed := closed, cancelled := cancelled } }.Inv where
  watching := ⟨h.watching.watched, h.watching.upper, h.watching.capacity, h.watching.positive⟩
  slots := h.slots
  fds := h.fds
  linked := h.linked
  scan := h.scan

/-- Stopping a source without a socket is but logged. -/
theorem sflowStopSource_of_ne {d : Registry} {node : SourceNode}
    (h : node.sslnSrc.ssType ≠ .flowsample) :
    sflowStopSource d node =
      { d with closed := d.closed, cancelled := (sflowStopSource d node).cancelled } := by
  unfold sflowStopSource
  split
  case h_1 hflow => exact absurd hflow h
  case h_6 => rfl
  all_goals split <;> rfl

theorem Inv.doorMoves (h : s.Inv) (hm : DoorMoves s addr s') : s'.Inv := by
  cases hm with
  | make hpt hflow hfree => exact h.make hpt hflow hfree
  | makePolled hpt hflow => exact h.makePolled hpt hflow
  | watch hpt hflow hlocked => exact h.watch hpt hflow hlocked
  | watchPolled hpt hflow => exact h.rephase hpt .watched (absurd · hflow) (absurd · hflow) rfl
  | insert hpt hnew => exact h.insert hpt hnew
  | stop hpt => exact h.rephase hpt .stopping (fun _ ↦ rfl) (fun _ ↦ rfl) rfl
  | unwatch hpt hflow hlocked => exact h.unwatch hpt hflow hlocked
  | unwatchPolled hpt hflow =>
      exact h.rephase hpt .unwatched (absurd · hflow) (absurd · hflow) rfl
  | close hpt hflow => exact h.close hpt hflow
  | @closePolled src hpt hflow =>
      have hclosed : (s.moved addr (some ⟨.closed, src⟩)).Inv :=
        h.rephase hpt .closed (absurd · hflow) (absurd · hflow) rfl
      rw [sflowStopSource_of_ne hflow]
      exact hclosed.relog _ _
  | free hpt => exact h.rephase hpt .freed (fun _ ↦ rfl) (fun _ ↦ rfl) rfl
  | unlink hpt => exact h.unlink hpt

/-! ## Steps of the master thread -/

theorem Inv.masterStep {act : MasterAct} (h : s.Inv) (hstep : s.masterStep act = some s') :
    s'.Inv := by
  unfold WatchState.masterStep at hstep
  split at hstep
  case h_1 =>
    cases hstep
    exact
      { watching :=
          ⟨fun fd hwatch ↦ absurd hwatch Bool.false_ne_true, h.watching.upper,
            h.watching.capacity, h.watching.positive⟩
        slots := h.slots
        fds := h.fds
        linked := h.linked
        scan := fun toRead i hscan ↦ by cases hscan }
  case h_2 =>
    cases hstep
    refine ⟨h.watching, h.slots, h.fds, h.linked, fun toRead i hscan ↦ ?_⟩
    dsimp only at hscan
    split at hscan <;> cases hscan
  case h_3 =>
    cases hstep
    exact ⟨h.watching, h.slots, h.fds, h.linked, fun toRead i hscan ↦ by cases hscan⟩
  case h_4 ready hmaster =>
    cases hstep
    refine ⟨h.watching, h.slots, h.fds, h.linked, fun toRead i hscan fd hfd ↦ ?_⟩
    cases hscan
    exact (Bool.and_eq_true_iff.mp hfd).1
  case h_5 toRead i hmaster =>
    cases hstep
    refine ⟨h.watching, h.slots, h.fds, h.linked, fun toRead' i' hscan ↦ ?_⟩
    dsimp only at hscan
    split at hscan
    · cases hscan
      exact h.scan toRead i hmaster
    · cases hscan
  case h_6 => cases hstep

theorem Inv.step {act : WatchAct} (h : s.Inv) (hstep : s.step act = some s') : s'.Inv := by
  cases act with
  | door addr act => exact h.doorMoves (doorMoves_of_doorStep hstep)
  | master act => exact h.masterStep hstep

/-- Of every run. -/
theorem Inv.run {acts : List WatchAct} (hrun : Run.run WatchState.step init acts = some s) :
    s.Inv :=
  Run.run_induction (fun _ _ _ h hstep ↦ h.step hstep) inv_init hrun

/-- A slot in use is that of a live source of the right type and descriptor. -/
theorem Inv.source_of_slot (h : s.Inv) {fd : Nat}
    (hslot : s.registry.sflowFdSources.slot fd = some addr) :
    ∃ src, (s.sources addr).bind SourceAt.liveSrc = some src ∧ src.ssType = .flowsample ∧
      src.ssFd = fd := by
  have htable := (h.slots fd addr).mp hslot
  unfold slotTable at htable
  cases hpt : s.sources addr with
  | none =>
      rw [hpt] at htable
      cases htable
  | some pt =>
      obtain ⟨phase, src⟩ := pt
      rw [hpt, Option.bind_some, SourceAt.slotFd, Option.ite_none_right_eq_some] at htable
      obtain ⟨hphase, hfd⟩ := htable
      rw [Bool.and_eq_true] at hphase
      refine ⟨src, ?_, of_decide_eq_true hphase.1, Option.some.inj hfd⟩
      have hslotted := hphase.2
      rw [Option.bind_some, SourceAt.liveSrc, if_pos]
      cases phase <;> first | rfl | cases hslotted

/-- What the master thread finds when it looks at descriptor `i`. -/
structure MeetsLive (s : WatchState) (i : Nat) : Prop where
  capacity : s.registry.maxfd < s.registry.sflowFdSources.eaArray.length
  source : ∃ addr src, s.registry.sflowFdSources.slot i = some addr ∧
    (s.sources addr).bind SourceAt.liveSrc = some src ∧ src.ssType = .flowsample ∧
      src.ssFd = i ∧ s.lookup i = .ok src

theorem Inv.meetsLive (h : s.Inv) {i : Nat} (hi : i ≤ s.registry.maxfd)
    (hwatch : s.registry.toWatch i = true) : s.MeetsLive i := by
  have hcapacity := h.watching.capacity
  obtain ⟨addr, hslot⟩ := Option.ne_none_iff_exists'.mp (h.watching.watched i hwatch)
  obtain ⟨src, hlive, hflow, hfd⟩ := h.source_of_slot hslot
  refine ⟨hcapacity, addr, src, hslot, hlive, hflow, hfd, ?_⟩
  have hlt : i < s.registry.sflowFdSources.eaArray.length := by omega
  rw [lookup, expandingArrayGet_eq_ok hlt, hslot]
  simp only [ok_bind, hlive, if_pos hflow]

/-- In every run, whatever descriptor the master thread finds with data belongs to a live source,
and no descriptor that is watched is larger than `maxfd`. -/
theorem meetsLive_of_run {acts : List WatchAct}
    (hrun : Run.run WatchState.step init acts = some s) :
    (∀ toRead i, s.master = .scan toRead i → i ≤ s.registry.maxfd → toRead i = true →
      s.MeetsLive i) ∧
    ∀ fd : Nat, s.registry.toWatch fd = true → fd ≤ s.registry.maxfd := by
  have h := Inv.run hrun
  constructor
  · intro toRead i hscan hi hread
    exact h.meetsLive hi (h.scan toRead i hscan i hread)
  · intro fd hwatch
    exact h.watching.upper fd (h.watching.watched fd hwatch)

/-- An interface is added before the master thread finds it with data. -/
def addedAndRead : List WatchAct :=
  [.master .zero, .door 1 (.make SflowSource.net0), .door 1 .watch, .door 1 .insert,
    .master .check, .master (.select (some fun _ => true)), .master .look, .master .look,
    .master .look, .master .look, .master .look]

/-- There the master thread meets the interface. -/
theorem meetsLive_addedAndRead :
    ∃ s toRead, Run.run WatchState.step init addedAndRead = some s ∧
      s.master = .scan toRead 5 ∧ toRead 5 = true ∧ s.MeetsLive 5 ∧
      ∀ fd : Nat, s.registry.toWatch fd = true → fd ≤ s.registry.maxfd := by
  obtain ⟨s, toRead, hrun, hscan, hread, hmaxfd⟩ : ∃ s toRead,
      Run.run WatchState.step init addedAndRead = some s ∧ s.master = .scan toRead 5 ∧
        toRead 5 = true ∧ s.registry.maxfd = 5 := ⟨_, _, rfl, rfl, rfl, rfl⟩
  have h := meetsLive_of_run hrun
  exact ⟨s, toRead, hrun, hscan, hread, h.1 toRead 5 hscan (by rw [hmaxfd]; decide) hread, h.2⟩

end WatchState

end Sflow

import Mathlib.Data.List.Perm.Basic
import Sflow.Door
import Sflow.Source.Maxfd

/-!
# What the registry holds

A source that is read through a descriptor owns it from the time that it is made until it
is stopped, and one that is polled owns its thread, if that could be created.  A ledger of
the registry accounts for all descriptors that there ever were: each is held by one source
in the list, or has been given back once.  Threads it counts.  Every request keeps the
ledger, as long as the system hands out no descriptor that is open.
-/

namespace Sflow

open C

namespace Registry

/-! ## The ledger -/

/-- The nodes whose sources are read through a descriptor. -/
def flowNodes (nodes : List SourceNode) : List SourceNode :=
  nodes.filter fun node => node.sslnSrc.ssType = .flowsample

/-- The descriptors of these sources. -/
def fds (nodes : List SourceNode) : List Nat := (flowNodes nodes).map (·.sslnSrc.ssFd)

/-- The nodes whose sources have a thread. -/
def threadNodes (nodes : List SourceNode) : List SourceNode :=
  nodes.filter fun node => node.sslnSrc.ssType ≠ .flowsample && node.sslnSrc.ssThread

/-- With `nodes` in the list, `opened` are the descriptors that were opened for sources, and
`polled` is the number of threads that were created. -/
structure Ledger (opened : List Nat) (polled : Nat) (nodes : List SourceNode) (d : Registry) :
    Prop where
  capacity : 0 < d.sflowFdSources.eaArray.length
  types : ∀ node ∈ nodes, node.sslnSrc.ssType ≠ .interPollSeperation
  addrs : (nodes.map SourceNode.addr).Nodup
  nodup : (fds nodes).Nodup
  /-- What is watched are the descriptors of the sources in the list. -/
  watched : ∀ fd, d.toWatch fd = true ↔ fd ∈ fds nodes
  /-- Each slot in use leads to the source that owns the descriptor. -/
  slots : ∀ fd addr, d.sflowFdSources.slot fd = some addr ↔
    ∃ node ∈ flowNodes nodes, node.sslnSrc.ssFd = fd ∧ node.addr = addr
  maxfd : ∀ fd ∈ fds nodes, (fd : Int) ≤ d.maxfd
  /-- Each descriptor has been closed once, or is that of one source. -/
  descriptors : opened.Perm (d.closed ++ fds nodes)
  /-- There are as many threads as have been cancelled, and as sources in the list have one. -/
  threads : polled = d.cancelled.length + (threadNodes nodes).length

theorem fds_append (l l' : List SourceNode) : fds (l ++ l') = fds l ++ fds l' := by
  rw [fds, flowNodes, List.filter_append, List.map_append]
  rfl

theorem fds_cons_flow {node : SourceNode} (h : node.sslnSrc.ssType = .flowsample)
    (l : List SourceNode) : fds (node :: l) = node.sslnSrc.ssFd :: fds l := by
  rw [fds, flowNodes, List.filter_cons_of_pos (by simpa using h)]
  rfl

theorem fds_cons_polled {node : SourceNode} (h : node.sslnSrc.ssType ≠ .flowsample)
    (l : List SourceNode) : fds (node :: l) = fds l := by
  rw [fds, flowNodes, List.filter_cons_of_neg (by simpa using h)]
  rfl

theorem threadNodes_nil : threadNodes [] = [] := rfl

theorem threadNodes_append (l l' : List SourceNode) :
    threadNodes (l ++ l') = threadNodes l ++ threadNodes l' := List.filter_append l l'

theorem threadNodes_cons_of_not {node : SourceNode}
    (h : ¬(node.sslnSrc.ssType ≠ .flowsample && node.sslnSrc.ssThread) = true)
    (l : List SourceNode) : threadNodes (node :: l) = threadNodes l := List.filter_cons_of_neg h

theorem length_threadNodes_cons {node : SourceNode} (h : node.sslnSrc.ssType ≠ .flowsample)
    (l : List SourceNode) : (threadNodes (node :: l)).length =
      (threadNodes l).length + if node.sslnSrc.ssThread then 1 else 0 := by
  rw [threadNodes, List.filter_cons]
  cases node.sslnSrc.ssThread <;> simp [h, threadNodes]

theorem mem_flowNodes {node : SourceNode} {nodes : List SourceNode} :
    node ∈ flowNodes nodes ↔ node ∈ nodes ∧ node.sslnSrc.ssType = .flowsample := by
  rw [flowNodes, List.mem_filter, decide_eq_true_eq]

theorem mem_fds {fd : Nat} {nodes : List SourceNode} :
    fd ∈ fds nodes ↔ ∃ node ∈ flowNodes nodes, node.sslnSrc.ssFd = fd := List.mem_map

theorem ledger_init : Ledger [] 0 [] init where
  capacity := by decide
  types := by simp
  addrs := List.nodup_nil
  nodup := List.nodup_nil
  watched fd := by simp [init, fds, flowNodes]
  slots fd addr := by simp [init, flowNodes]
  maxfd := by simp [fds, flowNodes]
  descriptors := .nil
  threads := rfl

namespace Ledger

variable {opened : List Nat} {polled : Nat} {nodes kept rest : List SourceNode} {d : Registry}
variable {node : SourceNode}

/-! ## Adding -/

/-- A source with a new descriptor is watched. -/
theorem watch (h : Ledger opened polled nodes d) (hflow : node.sslnSrc.ssType = .flowsample)
    (haddr : node.addr ∉ nodes.map SourceNode.addr) (hfd : node.sslnSrc.ssFd ∉ fds nodes) :
    Ledger (opened ++ [node.sslnSrc.ssFd]) polled (nodes ++ [node])
      (d.watch node.sslnSrc.ssFd node.addr) := by
  have hfds : fds (nodes ++ [node]) = fds nodes ++ [node.sslnSrc.ssFd] := by
    rw [fds_append, fds_cons_flow hflow]
    rfl
  have hslot := slot_expandingArraySet h.capacity node.sslnSrc.ssFd (some node.addr)
  constructor
  · exact length_expandingArraySet_pos h.capacity _ _
  · rw [List.forall_mem_append, List.forall_mem_singleton, hflow]
    exact ⟨h.types, by decide⟩
  · rw [List.map_append]
    exact h.addrs.append (List.nodup_singleton _) (List.disjoint_singleton.mpr haddr)
  · rw [hfds]
    exact h.nodup.append (List.nodup_singleton _) (List.disjoint_singleton.mpr hfd)
  · intro fd
    rw [hfds, List.mem_append, List.mem_singleton]
    change Function.update d.toWatch _ true fd = true ↔ _
    by_cases heq : fd = node.sslnSrc.ssFd
    · rw [heq, Function.update_self]
      exact iff_of_true rfl (.inr rfl)
    · rw [Function.update_of_ne heq, h.watched, or_iff_left heq]
  · intro fd addr
    change (expandingArraySet _ _ _).slot fd = _ ↔ _
    rw [hslot]
    have hmem : (∃ other ∈ flowNodes (nodes ++ [node]), other.sslnSrc.ssFd = fd ∧
        other.addr = addr) ↔
        (∃ other ∈ flowNodes nodes, other.sslnSrc.ssFd = fd ∧ other.addr = addr) ∨
          node.sslnSrc.ssFd = fd ∧ node.addr = addr := by
      simp only [mem_flowNodes, List.mem_append, List.mem_singleton]
      constructor
      · rintro ⟨other, ⟨hother | rfl, htype⟩, hother'⟩
        · exact .inl ⟨other, ⟨hother, htype⟩, hother'⟩
        · exact .inr hother'
      · rintro (⟨other, ⟨hother, htype⟩, hother'⟩ | hnode)
        · exact ⟨other, ⟨.inl hother, htype⟩, hother'⟩
        · exact ⟨node, ⟨.inr rfl, hflow⟩, hnode⟩
    rw [hmem]
    by_cases heq : fd = node.sslnSrc.ssFd
    · rw [if_pos heq, Option.some.injEq]
      have hnone : ¬∃ other ∈ flowNodes nodes, other.sslnSrc.ssFd = fd ∧ other.addr = addr := by
        rintro ⟨other, hother, hother', -⟩
        exact hfd (mem_fds.mpr ⟨other, hother, hother'.trans heq⟩)
      rw [or_iff_right hnone, and_iff_right heq.symm]
    · rw [if_neg heq, h.slots, or_iff_left fun hnode ↦ heq hnode.1.symm]
  · rw [hfds]
    intro fd hfd'
    change _ ≤ if d.maxfd < node.sslnSrc.ssFd then (node.sslnSrc.ssFd : Int) else d.maxfd
    rw [List.mem_append, List.mem_singleton] at hfd'
    rcases hfd' with hfd' | rfl
    · have hle := h.maxfd fd hfd'
      split <;> omega
    · split <;> omega
  · rw [hfds, ← List.append_assoc]
    exact h.descriptors.append_right _
  · rw [threadNodes_append, threadNodes_cons_of_not (by simp [hflow]), threadNodes_nil,
      List.append_nil]
    exact h.threads

/-- A source that is polled may get its thread. -/
theorem spawn (h : Ledger opened polled nodes d) (hflow : node.sslnSrc.ssType ≠ .flowsample)
    (htype : node.sslnSrc.ssType ≠ .interPollSeperation)
    (haddr : node.addr ∉ nodes.map SourceNode.addr) :
    Ledger opened (polled + if node.sslnSrc.ssThread then 1 else 0) (nodes ++ [node]) d := by
  have hfds : fds (nodes ++ [node]) = fds nodes := by
    rw [fds_append, fds_cons_polled hflow]
    exact List.append_nil _
  have hflowNodes : flowNodes (nodes ++ [node]) = flowNodes nodes := by
    rw [flowNodes, List.filter_append, List.filter_cons_of_neg (by simpa using hflow)]
    exact List.append_nil _
  constructor
  · exact h.capacity
  · rw [List.forall_mem_append, List.forall_mem_singleton]
    exact ⟨h.types, htype⟩
  · rw [List.map_append]
    exact h.addrs.append (List.nodup_singleton _) (List.disjoint_singleton.mpr haddr)
  · rw [hfds]
    exact h.nodup
  · rw [hfds]
    exact h.watched
  · rw [hflowNodes]
    exact h.slots
  · rw [hfds]
    exact h.maxfd
  · rw [hfds]
    exact h.descriptors
  · rw [h.threads, threadNodes_append, List.length_append, length_threadNodes_cons hflow,
      threadNodes_nil, List.length_nil, Nat.zero_add, Nat.add_assoc]

/-- The list itself is no part of the ledger. -/
theorem relink (h : Ledger opened polled nodes d) (l : LinkedList SourceNode) :
    Ledger opened polled nodes { d with sflowAllSources := l } :=
  ⟨h.capacity, h.types, h.addrs, h.nodup, h.watched, h.slots, h.maxfd, h.descriptors, h.threads⟩

/-! ## Removing -/

/-- A source that is stopped gives back its descriptor. -/
theorem unwatch (h : Ledger opened polled (kept ++ node :: rest) d)
    (hflow : node.sslnSrc.ssType = .flowsample) :
    Ledger opened polled (kept ++ rest) (sflowStopSource d node) := by
  have hold : fds (kept ++ node :: rest) = fds kept ++ node.sslnSrc.ssFd :: fds rest := by
    rw [fds_append, fds_cons_flow hflow]
  have hnew : fds (kept ++ rest) = fds kept ++ fds rest := fds_append kept rest
  have hnodup := h.nodup
  rw [hold, List.nodup_middle, List.nodup_cons, ← hnew] at hnodup
  have hmem : ∀ fd, fd ∈ fds (kept ++ rest) ↔
      fd ∈ fds (kept ++ node :: rest) ∧ fd ≠ node.sslnSrc.ssFd := by
    intro fd
    rw [hold, List.mem_append, List.mem_cons, or_left_comm, ← List.mem_append, ← hnew]
    constructor
    · intro hfd
      refine ⟨.inr hfd, ?_⟩
      rintro rfl
      exact hnodup.1 hfd
    · rintro ⟨rfl | hfd, hne⟩
      · exact absurd rfl hne
      · exact hfd
  have hsub : ∀ other, other ∈ kept ++ rest → other ∈ kept ++ node :: rest := by
    intro other hother
    rw [List.mem_append] at hother ⊢
    exact hother.imp_right (List.mem_cons_of_mem _)
  rw [sflowStopSource_flowsample hflow]
  constructor
  · exact length_expandingArraySet_pos h.capacity _ _
  · exact fun other hother ↦ h.types other (hsub other hother)
  · exact h.addrs.sublist (((List.sublist_cons_self node rest).append_left kept).map _)
  · exact hnodup.2
  · intro fd
    rw [hmem]
    change Function.update d.toWatch _ false fd = true ↔ _
    by_cases heq : fd = node.sslnSrc.ssFd
    · rw [heq, Function.update_self]
      exact iff_of_false Bool.false_ne_true fun hfd ↦ hfd.2 rfl
    · rw [Function.update_of_ne heq, h.watched, and_iff_left heq]
  · intro fd addr
    change (d.unwatch _).sflowFdSources.slot fd = _ ↔ _
    rw [slot_unwatch]
    by_cases heq : fd = node.sslnSrc.ssFd
    · rw [if_pos heq]
      refine iff_of_false (by simp) ?_
      rintro ⟨other, hother, hother', -⟩
      exact ((hmem fd).mp (mem_fds.mpr ⟨other, hother, hother'⟩)).2 heq
    · rw [if_neg heq, h.slots]
      simp only [mem_flowNodes]
      constructor
      · rintro ⟨other, ⟨hother, htype⟩, hother', haddr⟩
        refine ⟨other, ⟨?_, htype⟩, hother', haddr⟩
        rw [List.mem_append, List.mem_cons] at hother
        rcases hother with hother | rfl | hother
        · exact List.mem_append_left _ hother
        · exact absurd hother'.symm heq
        · exact List.mem_append_right _ hother
      · rintro ⟨other, ⟨hother, htype⟩, hother'⟩
        exact ⟨other, ⟨hsub other hother, htype⟩, hother'⟩
  · intro fd hfd
    obtain ⟨hfd, hne⟩ := (hmem fd).mp hfd
    have hle := h.maxfd fd hfd
    change _ ≤ (d.unwatch node.sslnSrc.ssFd).maxfd
    by_cases hmax : d.maxfd = node.sslnSrc.ssFd
    · have hused : (d.unwatch node.sslnSrc.ssFd).sflowFdSources.slot fd ≠ none := by
        obtain ⟨other, hother, hother'⟩ := mem_fds.mp hfd
        rw [slot_unwatch, if_neg hne, (h.slots fd other.addr).mpr ⟨other, hother, hother', rfl⟩]
        exact Option.some_ne_none _
      rcases maxfd_unwatch_of_eq hmax with ⟨-, hall⟩ | ⟨i, hi, -, hlast⟩
      · exact absurd (hall fd) hused
      · rw [hi]
        exact Int.ofNat_le.mpr (hlast fd hused)
    · rw [maxfd_unwatch_of_ne hmax]
      exact hle
  · have hperm := h.descriptors
    rw [hold] at hperm
    refine hperm.trans ?_
    change List.Perm _ (d.closed ++ [node.sslnSrc.ssFd] ++ fds (kept ++ rest))
    rw [hnew, List.append_assoc, List.singleton_append]
    exact List.perm_middle.append_left _
  · rw [h.threads, threadNodes_append, threadNodes_cons_of_not (by simp [hflow]),
      ← threadNodes_append]
    rfl

/-- A source that is stopped gives back its thread, if it has one. -/
theorem cancel (h : Ledger opened polled (kept ++ node :: rest) d)
    (hflow : node.sslnSrc.ssType ≠ .flowsample) :
    Ledger opened polled (kept ++ rest) (sflowStopSource d node) := by
  have htype := h.types node (List.mem_append_right _ List.mem_cons_self)
  have hstop : sflowStopSource d node = { d with
      cancelled := d.cancelled ++ if node.sslnSrc.ssThread then [node.addr] else [] } := by
    unfold sflowStopSource
    split
    case h_1 heq => exact absurd heq hflow
    case h_6 heq => exact absurd heq htype
    all_goals cases node.sslnSrc.ssThread <;> simp
  have hfds : fds (kept ++ node :: rest) = fds (kept ++ rest) := by
    rw [fds_append, fds_cons_polled hflow, fds_append]
  have hflowNodes : flowNodes (kept ++ node :: rest) = flowNodes (kept ++ rest) := by
    rw [flowNodes, List.filter_append, List.filter_cons_of_neg (by simpa using hflow),
      ← List.filter_append]
    rfl
  rw [hstop]
  constructor
  · exact h.capacity
  · intro other hother
    refine h.types other ?_
    rw [List.mem_append] at hother ⊢
    exact hother.imp_right (List.mem_cons_of_mem _)
  · exact h.addrs.sublist (((List.sublist_cons_self node rest).append_left kept).map _)
  · rw [← hfds]
    exact h.nodup
  · rw [← hfds]
    exact h.watched
  · rw [← hflowNodes]
    exact h.slots
  · rw [← hfds]
    exact h.maxfd
  · rw [← hfds]
    exact h.descriptors
  · rw [h.threads, threadNodes_append, threadNodes_append, List.length_append, List.length_append,
      List.length_append, length_threadNodes_cons hflow]
    cases node.sslnSrc.ssThread
    · simp
    · simp
      omega

theorem stop (h : Ledger opened polled (kept ++ node :: rest) d) :
    Ledger opened polled (kept ++ rest) (sflowStopSource d node) := by
  by_cases hflow : node.sslnSrc.ssType = .flowsample
  · exact h.unwatch hflow
  · exact h.cancel hflow

/-- The sources that are selected are stopped one after the other. -/
theorem stopSelected {sel : SourceNode → Bool} (h : Ledger opened polled (kept ++ rest) d) :
    Ledger opened polled (kept ++ rest.filter fun node => !sel node)
      ((rest.filter sel).foldl sflowStopSource d) := by
  induction rest generalizing kept d with
  | nil => exact h
  | cons node rest ih =>
      by_cases hsel : sel node = true
      · rw [List.filter_cons_of_pos hsel, List.foldl_cons,
          List.filter_cons_of_neg (by simpa using hsel)]
        exact ih h.stop
      · rw [List.filter_cons_of_neg hsel, List.filter_cons_of_pos (by simpa using hsel)]
        rw [← List.singleton_append, ← List.append_assoc] at h ⊢
        exact ih h

end Ledger

end Registry

/-! ## One source -/

/-- The descriptors that are opened in some steps. -/
def openedIn (steps : List SourceStep) : List Nat :=
  (steps.filter fun step => step.found && step.type = .flowsample).map (·.calls.fd.toNat)

/-- The number of threads that are created in some steps. -/
def spawnedIn (steps : List SourceStep) : Nat :=
  (steps.filter fun step =>
    step.found && (step.type ≠ .flowsample && step.calls.pthreadCreate = 0)).length

theorem openedIn_append (steps steps' : List SourceStep) :
    openedIn (steps ++ steps') = openedIn steps ++ openedIn steps' := by
  rw [openedIn, List.filter_append, List.map_append]
  rfl

theorem spawnedIn_append (steps steps' : List SourceStep) :
    spawnedIn (steps ++ steps') = spawnedIn steps + spawnedIn steps' := by
  rw [spawnedIn, List.filter_append, List.length_append]
  rfl

/-- The descriptor of a source is the one that was opened for it. -/
theorem ssFd_of_makeSource {fuel : Nat} {calls : SourceCalls} {srcname prop rest : List Char}
    {src : SflowSource}
    (h : makeSource fuel calls srcname prop .flowsample = some (.ok src, rest)) :
    src.ssFd = calls.fd.toNat := by
  rw [makeSource] at h
  split at h
  case isTrue => cases h
  case isFalse =>
    rw [Option.bind_eq_bind, Option.bind_eq_some_iff] at h
    obtain ⟨⟨rate, rest'⟩, -, h⟩ := h
    dsimp only at h
    split at h
    case isTrue => cases h
    case isFalse =>
      cases h
      rfl

section Stage

variable {calls : SourceCalls} {src : SflowSource} {d : Registry}

theorem sflowAddSourceType_flowsample (h : src.ssType = .flowsample) :
    (sflowAddSourceType calls src d).2 =
      (d.watch src.ssFd (calls.node src d).addr).insertTail (calls.node src d)
        (calls.node_notMem src d) := by
  unfold sflowAddSourceType
  split
  case h_1 => rfl
  all_goals
    rename_i heq
    rw [heq] at h
    cases h

theorem sflowAddSourceType_polled (h : src.ssType ≠ .flowsample)
    (hsep : src.ssType ≠ .interPollSeperation) :
    (sflowAddSourceType calls src d).2 =
      d.insertTail (calls.node (calls.listed src) d) (calls.node_notMem _ d) := by
  have hspawn : ¬ (calls.pthreadCreate : Int) < 0 := Int.not_lt.mpr (Int.natCast_nonneg _)
  unfold sflowAddSourceType
  rw [sflowSpawnPollThread_eq calls h]
  split
  case h_1 heq => exact absurd heq h
  case h_6 heq => exact absurd heq hsep
  all_goals
    dsimp only
    rw [if_neg hspawn]

end Stage

namespace Registry.Ledger

variable {opened : List Nat} {polled fuel : Nat} {d d' : Registry} {status : Int}

/-- What the registry holds. -/
abbrev Holds (opened : List Nat) (polled : Nat) (d : Registry) : Prop :=
  Ledger opened polled d.sflowAllSources.nodes d

/-- One source. -/
theorem one {calls : SourceCalls} {srcname prop rest : List Char} {t : SflowSourceType}
    (h : Holds opened polled d)
    (hfresh : ∀ fd ∈ openedIn [⟨t, calls⟩], fd ∉ fds d.sflowAllSources.nodes)
    (hmake : sflowMakeAddOneSourceType fuel calls srcname prop t d = some (status, rest, d')) :
    Holds (opened ++ openedIn [⟨t, calls⟩]) (polled + spawnedIn [⟨t, calls⟩]) d' := by
  rw [sflowMakeAddOneSourceType, Option.bind_eq_bind, Option.bind_eq_some_iff] at hmake
  obtain ⟨⟨r, rest'⟩, hmade, hmake⟩ := hmake
  rcases makeSource_eq_some hmade with
    ⟨err, rfl, -, hfound⟩ | ⟨src, rfl, hfound, rfl, -, -, hthread⟩
  · cases hmake
    have hnone : openedIn [⟨t, calls⟩] = [] ∧ spawnedIn [⟨t, calls⟩] = 0 := by
      simp [openedIn, spawnedIn, hfound]
    rw [hnone.1, hnone.2, List.append_nil]
    exact h
  · obtain rfl : (sflowAddSourceType calls src d).2 = d' := congrArg (·.2.2) (Option.some.inj hmake)
    have haddr (src : SflowSource) :
        (calls.node src d).addr ∉ d.sflowAllSources.nodes.map SourceNode.addr :=
      calls.calloc.fresh (d.sflowAllSources.nodes.map SourceNode.addr)
    by_cases hflow : src.ssType = .flowsample
    · have hopened : openedIn [⟨src.ssType, calls⟩] = [src.ssFd] := by
        rw [hflow] at hmade hfound ⊢
        rw [ssFd_of_makeSource hmade]
        simp [openedIn, hfound]
      have hspawned : spawnedIn [⟨src.ssType, calls⟩] = 0 := by
        simp [spawnedIn, hflow]
      rw [hopened, List.forall_mem_singleton] at hfresh
      rw [hopened, hspawned, sflowAddSourceType_flowsample hflow]
      exact (h.watch hflow (haddr src) hfresh).relink _
    · have hopened : openedIn [⟨src.ssType, calls⟩] = [] := by
        simp [openedIn, hflow]
      have hspawned : spawnedIn [⟨src.ssType, calls⟩] =
          if (calls.listed src).ssThread then 1 else 0 := by
        rw [spawnedIn, SourceCalls.listed, hthread]
        by_cases hcreate : calls.pthreadCreate = 0 <;> simp [hfound, hflow, hcreate]
      have htype : src.ssType ≠ .interPollSeperation := by
        intro heq
        rw [heq] at hfound
        cases hfound
      rw [hopened, hspawned, List.append_nil, sflowAddSourceType_polled hflow htype]
      have hlisted : Ledger opened (polled + if (calls.listed src).ssThread then 1 else 0)
          (d.sflowAllSources.nodes ++ [calls.node (calls.listed src) d]) d :=
        h.spawn hflow htype (haddr (calls.listed src))
      exact hlisted.relink _

/-- The steps for some zones. -/
def zoneSteps (calls : Nat → SourceCalls) (i n : Nat) : List SourceStep :=
  (List.range' i n).map fun k => ⟨.vhost, calls k⟩

theorem openedIn_zoneSteps (calls : Nat → SourceCalls) (i n : Nat) :
    openedIn (zoneSteps calls i n) = [] := by
  rw [openedIn, List.map_eq_nil_iff, List.filter_eq_nil_iff]
  intro step hstep
  obtain ⟨k, -, rfl⟩ := List.mem_map.mp hstep
  simp

/-- The sources of some zones, which have no descriptors. -/
theorem zones {calls : Nat → SourceCalls} {zoneIds : List Int} {i : Nat} {status₀ : Int}
    {prop : List Char} (h : Holds opened polled d)
    (hadd : addZones fuel calls zoneIds i status₀ prop d = some (status, d')) :
    Holds opened (polled + spawnedIn (zoneSteps calls i zoneIds.length)) d' := by
  induction zoneIds generalizing i status₀ prop d polled with
  | nil =>
      cases hadd
      exact h
  | cons zoneId zoneIds ih =>
      rw [addZones, Option.bind_eq_bind, Option.bind_eq_some_iff] at hadd
      obtain ⟨⟨status₁, rest, d₁⟩, hone, hrest⟩ := hadd
      have hnone : openedIn [⟨.vhost, calls i⟩] = [] := openedIn_zoneSteps calls i 1
      have hnext := h.one (by simp [hnone]) hone
      rw [hnone, List.append_nil] at hnext
      have hsteps : zoneSteps calls i (zoneId :: zoneIds).length =
          [⟨.vhost, calls i⟩] ++ zoneSteps calls (i + 1) zoneIds.length := rfl
      rw [hsteps, spawnedIn_append, ← Nat.add_assoc]
      exact ih hnext hrest

/-- The sources of a request of a known type. -/
theorem makeAddSourceType {env : AddCalls} {srcname prop : List Char} {t : SflowSourceType}
    (h : Holds opened polled d)
    (hfresh : ∀ fd ∈ openedIn (env.steps srcname t), fd ∉ fds d.sflowAllSources.nodes)
    (hadd : sflowMakeAddSourceType fuel env srcname prop t d = some (status, d')) :
    Holds (opened ++ openedIn (env.steps srcname t))
      (polled + spawnedIn (env.steps srcname t)) d' := by
  by_cases hvhost : t = .vhost
  · subst hvhost
    rw [sflowMakeAddSourceType] at hadd
    rw [AddCalls.steps]
    split at hadd
    case isTrue hall =>
      rw [if_pos hall]
      split at hadd
      case h_1 => cases hadd
      case h_2 hzones =>
        cases hadd
        rw [hzones]
        simpa [openedIn, spawnedIn] using h
      case h_3 zoneIds hzones =>
        rw [hzones]
        dsimp only
        have hsteps := h.zones hadd
        rw [List.range_eq_range']
        change Holds (opened ++ openedIn (zoneSteps env.source 0 (zoneIds.drop 1).length))
          (polled + spawnedIn (zoneSteps env.source 0 (zoneIds.drop 1).length)) d'
        rw [openedIn_zoneSteps, List.append_nil]
        exact hsteps
    case isFalse hall =>
      rw [if_neg hall]
      cases hadd
      simpa [openedIn, spawnedIn] using h
  · rw [steps_of_ne hvhost] at hfresh ⊢
    rw [sflowMakeAddSourceType.eq_2 _ _ _ _ _ _ hvhost, Option.bind_eq_bind,
      Option.bind_eq_some_iff] at hadd
    obtain ⟨⟨status₁, rest, d₁⟩, hone, hadd⟩ := hadd
    cases hadd
    exact h.one hfresh hone

/-- The sources of a request. -/
theorem addSource {env : AddCalls} {asrc : SflowdDoorAsrc} (h : Holds opened polled d)
    (hfresh : ∀ fd ∈ openedIn (env.requestSteps asrc), fd ∉ fds d.sflowAllSources.nodes)
    (hadd : sflowAddSource fuel env asrc d = some (status, d')) :
    Holds (opened ++ openedIn (env.requestSteps asrc))
      (polled + spawnedIn (env.requestSteps asrc)) d' := by
  simp only [sflowAddSource, removeSpace_eq, Option.bind_eq_bind, Option.bind_eq_some_iff,
    Option.ite_none_right_eq_some, Option.some.injEq] at hadd
  obtain ⟨srcname, ⟨-, rfl⟩, propstr, -, typestr, ⟨-, rfl⟩, hadd⟩ := hadd
  rw [AddCalls.requestSteps] at hfresh ⊢
  generalize typeOfStr (stripped asrc.sdTypestr.chars) = sel at hadd hfresh ⊢
  rcases sel with _ | _ | t
  case some.only => exact h.makeAddSourceType hfresh hadd
  all_goals
    cases hadd
    simpa [openedIn, spawnedIn] using h

/-- Whatever a request to remove asks for, what it does is to stop some sources. -/
theorem exists_stopSelected {srcToRmType : SflowSourceType} {rsrc : SflowdDoorRsrc}
    (h : sflowRemoveSource fuel srcToRmType rsrc d = some d') :
    ∃ sel : SourceNode → Bool, d' = d.stopSelected sel := by
  simp only [sflowRemoveSource, Option.bind_eq_bind, Option.bind_eq_some_iff] at h
  obtain ⟨srcname, -, typestr, -, h⟩ := h
  have hloop (sel : SflowSource → Bool) : removeLoop sel fuel d none =
      if d.sflowAllSources.nodes.length < fuel then
        some (d.stopSelected fun node => sel node.sslnSrc)
      else none := removeLoop_eq fuel (List.nil_append _).symm (by simp)
  rw [hloop, Option.ite_none_right_eq_some, Option.some.injEq] at h
  exact ⟨_, h.2.symm⟩

/-- The sources that a request removes. -/
theorem removeSource {srcToRmType : SflowSourceType} {rsrc : SflowdDoorRsrc}
    (h : Holds opened polled d) (hremove : sflowRemoveSource fuel srcToRmType rsrc d = some d') :
    Holds opened polled d' := by
  obtain ⟨sel, rfl⟩ := exists_stopSelected hremove
  have hstopped : Ledger opened polled ([] ++ d.sflowAllSources.nodes.filter fun node => !sel node)
      ((d.sflowAllSources.nodes.filter sel).foldl sflowStopSource d) := Ledger.stopSelected h
  exact hstopped.relink _

end Registry.Ledger

/-! ## Requests -/

/-- The registry after a request that returns. -/
def serve (fuel : Nat) (d : Registry) (req : DoorCalls × DoorData) : Option Registry :=
  match sflowdDoorHandler fuel req.1 req.2 d with
  | .ok (some (d', _)) => some d'
  | _ => none

/-- Requests one after the other are a run. -/
theorem run_serve {fuel : Nat} {reqs : List (DoorCalls × DoorData)} {d d' : Registry}
    {replies : List (List DoorReply)} (h : handleRequests fuel reqs d = .ok (some (d', replies))) :
    Run.run (serve fuel) d reqs = some d' := by
  induction reqs generalizing d replies with
  | nil =>
      cases h
      rfl
  | cons req reqs ih =>
      obtain ⟨env, data⟩ := req
      rw [handleRequests] at h
      cases hhandler : sflowdDoorHandler fuel env data d with
      | error e =>
          rw [hhandler] at h
          cases h
      | ok out =>
          cases out with
          | none =>
              rw [hhandler] at h
              cases h
          | some r =>
              obtain ⟨d₁, reply⟩ := r
              rw [hhandler, ok_bind] at h
              dsimp only at h
              cases hrest : handleRequests fuel reqs d₁ with
              | error e =>
                  rw [hrest] at h
                  cases h
              | ok rest =>
                  cases rest with
                  | none =>
                      rw [hrest] at h
                      cases h
                  | some r =>
                      rw [hrest] at h
                      cases h
                      rw [Run.run_cons, serve, hhandler]
                      exact ih hrest

/-- The steps of a request, if it is one to add sources. -/
def stepsOf (req : DoorCalls × DoorData) : List SourceStep :=
  if req.2.sdCmd = sflowdCmdAddSource then req.1.add.requestSteps req.2.asrc else []

/-- The system opens no descriptor that is open. -/
def OpensFresh (d : Registry) (req : DoorCalls × DoorData) : Prop :=
  ∀ fd ∈ openedIn (stepsOf req), fd ∉ Registry.fds d.sflowAllSources.nodes

instance (d : Registry) (req : DoorCalls × DoorData) : Decidable (OpensFresh d req) :=
  inferInstanceAs (Decidable (∀ fd ∈ openedIn (stepsOf req), _))

namespace Registry.Ledger

variable {opened : List Nat} {polled fuel : Nat} {d d' : Registry}

theorem serve {req : DoorCalls × DoorData} (h : Holds opened polled d) (hfresh : OpensFresh d req)
    (hserve : Sflow.serve fuel d req = some d') :
    Holds (opened ++ openedIn (stepsOf req)) (polled + spawnedIn (stepsOf req)) d' := by
  obtain ⟨env, data⟩ := req
  rw [OpensFresh] at hfresh
  rw [Sflow.serve, sflowdDoorHandler] at hserve
  rw [stepsOf] at hfresh ⊢
  by_cases hadd : data.sdCmd = sflowdCmdAddSource
  · rw [if_pos hadd] at hserve hfresh ⊢
    cases hadded : sflowAddSource fuel env.add data.asrc d with
    | none =>
        rw [hadded] at hserve
        cases hserve
    | some r =>
        rw [hadded] at hserve
        cases hserve
        exact h.addSource hfresh hadded
  · rw [if_neg hadd] at hserve ⊢
    have hsame : openedIn [] = [] ∧ spawnedIn [] = 0 := ⟨rfl, rfl⟩
    rw [hsame.1, hsame.2, List.append_nil, Nat.add_zero]
    by_cases hremove : data.sdCmd = sflowdCmdRemoveSource
    · rw [if_pos hremove] at hserve
      cases hasrc : env.asrc with
      | none =>
          rw [hasrc] at hserve
          cases hserve
      | some asrc =>
          rw [hasrc] at hserve
          dsimp only at hserve
          cases hremoved : sflowRemoveSource fuel env.srcToRmType asrc d with
          | none =>
              rw [hremoved] at hserve
              cases hserve
          | some d₁ =>
              rw [hremoved] at hserve
              cases hserve
              exact h.removeSource hremoved
    · rw [if_neg hremove] at hserve
      by_cases hshow : data.sdCmd = sflowdCmdShowSource
      · rw [if_pos hshow] at hserve
        cases hshown : sflowShowSrc fuel env.srcToShowType data.ssrc d with
        | none =>
            rw [hshown] at hserve
            cases hserve
        | some slr =>
            rw [hshown] at hserve
            cases hserve
            exact h
      · rw [if_neg hshow] at hserve
        cases hserve
        exact h

/-- Requests one after the other keep the ledger. -/
theorem run {reqs : List (DoorCalls × DoorData)} (h : Holds opened polled d)
    (hfresh : Run.Meets (Sflow.serve fuel) OpensFresh d reqs)
    (hrun : Run.run (Sflow.serve fuel) d reqs = some d') :
    Holds (opened ++ openedIn (reqs.flatMap stepsOf))
      (polled + spawnedIn (reqs.flatMap stepsOf)) d' := by
  induction reqs generalizing opened polled d with
  | nil =>
      cases hrun
      simpa [openedIn, spawnedIn] using h
  | cons req reqs ih =>
      rw [Run.run_cons, Option.bind_eq_some_iff] at hrun
      obtain ⟨d₁, hserve, hrun⟩ := hrun
      have hnext := ih (h.serve hfresh.1 hserve) (hfresh.2 d₁ hserve) hrun
      rwa [List.append_assoc, ← openedIn_append, Nat.add_assoc, ← spawnedIn_append] at hnext

end Registry.Ledger

/-! ## Sockets -/

/-- What the system answers to `fd_provider_flowsample`. -/
structure SocketAnswers where
  /-- The descriptor of the socket, if one can be made. -/
  socket : Option Nat
  bind : Int
  setsockopt : Int

/-- What is returned, and the descriptors that are closed. -/
def fdProviderFlowsample (ans : SocketAnswers) : Int × List Nat :=
  match ans.socket with
  | none => (-1, [])
  | some sockfd =>
      if ans.bind = -1 then (-1, [sockfd])
      else if ans.setsockopt ≠ 0 then (-1, [sockfd])
      else (sockfd, [])

namespace SocketAnswers

/-- A socket is closed at once or returned. -/
theorem socket_perm (ans : SocketAnswers) :
    ans.socket.toList.Perm
      ((fdProviderFlowsample ans).2 ++
        ([(fdProviderFlowsample ans).1].filter (0 ≤ ·)).map Int.toNat) := by
  obtain ⟨socket, bind, setsockopt⟩ := ans
  cases socket with
  | none => exact .nil
  | some sockfd =>
      by_cases hbind : bind = -1
      · simp [fdProviderFlowsample, hbind]
      · by_cases hset : setsockopt = 0
        · simp [fdProviderFlowsample, hbind, hset]
        · simp [fdProviderFlowsample, hbind, hset]

/-- So are those of some calls. -/
theorem sockets_perm (answers : List SocketAnswers) :
    (answers.flatMap fun ans => ans.socket.toList).Perm
      ((answers.flatMap fun ans => (fdProviderFlowsample ans).2) ++
        ((answers.map fun ans => (fdProviderFlowsample ans).1).filter (0 ≤ ·)).map Int.toNat) := by
  induction answers with
  | nil => exact .nil
  | cons ans answers ih =>
      rw [List.flatMap_cons, List.flatMap_cons, List.map_cons, ← List.singleton_append,
        List.filter_append, List.map_append]
      refine (ans.socket_perm.append ih).trans ?_
      rw [List.append_assoc, List.append_assoc]
      refine .append_left _ ?_
      rw [← List.append_assoc, ← List.append_assoc]
      exact List.perm_append_comm.append_right _

end SocketAnswers

/-- The steps that ask for a socket: the interface is known. -/
def socketSteps (steps : List SourceStep) : List SourceStep :=
  steps.filter fun step => step.type = .flowsample && 0 ≤ step.calls.linkId

theorem openedIn_eq (steps : List SourceStep) :
    openedIn steps = (((socketSteps steps).map (·.calls.fd)).filter (0 ≤ ·)).map Int.toNat := by
  rw [List.filter_map, List.map_map, socketSteps, List.filter_filter]
  refine congrArg _ (List.filter_congr fun step _ ↦ ?_)
  by_cases htype : step.type = .flowsample
  · simp [SourceStep.found, htype, Bool.and_comm]
  · simp [htype]

/-- After any requests, whatever the system answered to them, each socket that was made for
them is closed once or belongs to one source in the list, which is then watched. -/
theorem handleRequests_ledger {fuel : Nat} {reqs : List (DoorCalls × DoorData)} {d : Registry}
    {replies : List (List DoorReply)} {answers : List SocketAnswers}
    (h : handleRequests fuel reqs .init = .ok (some (d, replies)))
    (hfresh : Run.Meets (serve fuel) OpensFresh .init reqs)
    (hanswers : (socketSteps (reqs.flatMap stepsOf)).map (·.calls.fd) =
      answers.map fun ans => (fdProviderFlowsample ans).1) :
    Registry.Ledger (openedIn (reqs.flatMap stepsOf)) (spawnedIn (reqs.flatMap stepsOf))
        d.sflowAllSources.nodes d ∧
      (answers.flatMap fun ans => ans.socket.toList).Perm
        ((answers.flatMap fun ans => (fdProviderFlowsample ans).2) ++
          (d.closed ++ Registry.fds d.sflowAllSources.nodes)) := by
  have hinit : Registry.Ledger.Holds [] 0 .init := Registry.ledger_init
  have hledger := hinit.run hfresh (run_serve h)
  rw [List.nil_append, Nat.zero_add] at hledger
  refine ⟨hledger, (SocketAnswers.sockets_perm answers).trans (.append_left _ ?_)⟩
  rw [← hanswers, ← openedIn_eq]
  exact hledger.descriptors

/-- A socket that cannot be bound. -/
def SourceCalls.unbound : SourceCalls := { fine with fd := -1 }

def addNet10 : DoorData := { removeNet10 with sdCmd := sflowdCmdAddSource }

/-- One interface is added, and another one whose socket cannot be bound; then all sources are
removed. -/
def netRequests : List (DoorCalls × DoorData) :=
  [(⟨.oneSource .fine, none, .flowsample, .flowsample⟩, addNet10),
    (⟨.oneSource .unbound, none, .flowsample, .flowsample⟩, addNet10),
    (.leftover, removeNet10)]

theorem handleRequests_ledger_net :
    ∃ d replies, handleRequests 40 netRequests .init = .ok (some (d, replies)) ∧
      Registry.Ledger [5] 0 d.sflowAllSources.nodes d ∧
      [5, 6].Perm ([6] ++ (d.closed ++ Registry.fds d.sflowAllSources.nodes)) := by
  obtain ⟨d, replies, h⟩ : ∃ d replies,
      handleRequests 40 netRequests .init = .ok (some (d, replies)) := ⟨_, _, rfl⟩
  have hfresh : Run.Meets (serve 40) OpensFresh .init netRequests := by decide +kernel
  have hanswers : (socketSteps (netRequests.flatMap stepsOf)).map (·.calls.fd) =
      [⟨some 5, 0, 0⟩, ⟨some 6, -1, 0⟩].map fun ans => (fdProviderFlowsample ans).1 := by
    decide +kernel
  exact ⟨d, replies, h, handleRequests_ledger h hfresh hanswers⟩

end Sflow

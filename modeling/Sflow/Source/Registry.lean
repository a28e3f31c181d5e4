import Sflow.C.LinkedList
import Sflow.ExpandingArray
import Sflow.Source

/-!
# The registry

What the daemon knows of its sources, and `sflow_stop_source`: the list of all of
them, and what the master thread watches.  A source that is stopped is no longer
watched and its descriptor is closed, or its thread is cancelled.
-/

namespace Sflow

open C

/-- A node of the list of sources, with its source. -/
structure SourceNode where
  /-- Its address, which also stands for its source and the thread of that. -/
  addr : Nat
  sslnSrc : SflowSource
deriving DecidableEq, Repr

structure Registry where
  sflowAllSources : LinkedList SourceNode
  toWatch : Nat → Bool
  sflowFdSources : ExpandingArray Nat
  maxfd : Int
  /-- The descriptors closed and the threads cancelled so far. -/
  closed : List Nat
  cancelled : List Nat

namespace Registry

/-- As `sflow_init_data` leaves it. -/
def init : Registry where
  sflowAllSources := ⟨[], List.nodup_nil⟩
  toWatch := fun _ => false
  sflowFdSources := expandingArrayCreate
  maxfd := -1
  closed := []
  cancelled := []

/-- The loop that looks for the new `maxfd`: the last slot in use below `i`, if there is one. -/
def rescan (arr : ExpandingArray Nat) (maxfd : Int) : Nat → Int
  | 0 => maxfd
  | i + 1 =>
      match expandingArrayGet arr i with
      | .ok (some _) => i
      | _ => rescan arr maxfd i

end Registry

/-- What `sflow_add_source_type` does for a source that is interrupt driven. -/
def Registry.watch (d : Registry) (fd : Nat) (addr : Nat) : Registry :=
  { d with
    toWatch := Function.update d.toWatch fd true
    maxfd := if d.maxfd < fd then fd else d.maxfd
    sflowFdSources := expandingArraySet d.sflowFdSources fd (some addr) }

/-- A source that was added although its thread could not be created is in the list as well.
`pthread_cancel` finds no thread for it, and the error that is returned then is not looked at. -/
def sflowStopSource (d : Registry) (node : SourceNode) : Registry :=
  match node.sslnSrc.ssType with
  | .flowsample =>
      let fd := node.sslnSrc.ssFd
      let arr := expandingArraySet d.sflowFdSources fd none
      { d with
        toWatch := Function.update d.toWatch fd false
        sflowFdSources := arr
        maxfd := if d.maxfd = fd then Registry.rescan arr d.maxfd arr.eaArray.length else d.maxfd
        closed := d.closed ++ [fd] }
  | .ifgeneric | .phyhost | .vhost | .flowstat =>
      if node.sslnSrc.ssThread then { d with cancelled := d.cancelled ++ [node.addr] } else d
  | .interPollSeperation => d

namespace Registry

/-- The source of the node no longer runs: its thread, if it has one, is cancelled. -/
def Stopped (d : Registry) (node : SourceNode) : Prop :=
  match node.sslnSrc.ssType with
  | .flowsample =>
      d.toWatch node.sslnSrc.ssFd = false ∧ d.sflowFdSources.slot node.sslnSrc.ssFd = none ∧
        node.sslnSrc.ssFd ∈ d.closed
  | .ifgeneric | .phyhost | .vhost | .flowstat =>
      node.sslnSrc.ssThread = true → node.addr ∈ d.cancelled
  | .interPollSeperation => True

/-- `list_remove` on the list of all sources. -/
def unlink (d : Registry) (node : SourceNode) : Registry :=
  { d with sflowAllSources := d.sflowAllSources.remove node }

/-- Stops the sources that are selected, in order, and leaves the others in the list. -/
def stopSelected (d : Registry) (sel : SourceNode → Bool) : Registry :=
  { (d.sflowAllSources.nodes.filter sel).foldl sflowStopSource d with
    sflowAllSources := d.sflowAllSources.filter fun node => !sel node }

variable {d : Registry} {node : SourceNode}

/-- Stopping a source leaves the list alone, whatever is in it. -/
theorem sflowStopSource_relink (d : Registry) (l : LinkedList SourceNode) (node : SourceNode) :
    sflowStopSource { d with sflowAllSources := l } node =
      { sflowStopSource d node with sflowAllSources := l } := by
  unfold sflowStopSource
  split <;> first | rfl | (split <;> rfl)

@[simp] theorem sflowAllSources_sflowStopSource (d : Registry) (node : SourceNode) :
    (sflowStopSource d node).sflowAllSources = d.sflowAllSources := by
  unfold sflowStopSource
  split <;> first | rfl | (split <;> rfl)

theorem foldl_sflowStopSource_relink (d : Registry) (l : LinkedList SourceNode)
    (nodes : List SourceNode) :
    nodes.foldl sflowStopSource { d with sflowAllSources := l } =
      { nodes.foldl sflowStopSource d with sflowAllSources := l } := by
  induction nodes generalizing d with
  | nil => rfl
  | cons node nodes ih => rw [List.foldl_cons, List.foldl_cons, sflowStopSource_relink, ih]

/-- Where no source is selected, nothing happens. -/
theorem stopSelected_of_forall {sel : SourceNode → Bool}
    (h : ∀ node ∈ d.sflowAllSources.nodes, sel node = false) : d.stopSelected sel = d := by
  have hnone : d.sflowAllSources.nodes.filter sel = [] := by
    refine List.filter_eq_nil_iff.mpr fun node hnode ↦ ?_
    rw [h node hnode]
    exact Bool.false_ne_true
  have hall : d.sflowAllSources.filter (fun node => !sel node) = d.sflowAllSources := by
    apply LinkedList.ext
    refine List.filter_eq_self.mpr fun node hnode ↦ ?_
    rw [h node hnode]
    rfl
  rw [stopSelected, hnone, hall]
  rfl

theorem stopSelected_congr {sel sel' : SourceNode → Bool}
    (h : ∀ node ∈ d.sflowAllSources.nodes, sel node = sel' node) :
    d.stopSelected sel = d.stopSelected sel' := by
  have hsel : d.sflowAllSources.nodes.filter sel = d.sflowAllSources.nodes.filter sel' :=
    List.filter_congr h
  have hrest : d.sflowAllSources.filter (fun node => !sel node) =
      d.sflowAllSources.filter fun node => !sel' node := by
    apply LinkedList.ext
    refine List.filter_congr fun node hnode ↦ ?_
    rw [h node hnode]
  rw [stopSelected, stopSelected, hsel, hrest]

/-- The first selected source may be stopped and taken out before the others. -/
theorem stopSelected_unlink {sel : SourceNode → Bool} {kept rest : List SourceNode}
    (hnodes : d.sflowAllSources.nodes = kept ++ node :: rest)
    (hkept : ∀ other ∈ kept, sel other = false) (hsel : sel node = true) :
    ((sflowStopSource d node).unlink node).stopSelected sel = d.stopSelected sel := by
  have hremove := LinkedList.nodes_remove hnodes
  have hnone : kept.filter sel = [] := by
    refine List.filter_eq_nil_iff.mpr fun other hother ↦ ?_
    rw [hkept other hother]
    exact Bool.false_ne_true
  have hlist : (d.sflowAllSources.remove node).filter (fun node => !sel node) =
      d.sflowAllSources.filter fun node => !sel node := by
    apply LinkedList.ext
    change List.filter _ (d.sflowAllSources.remove node).nodes =
      List.filter _ d.sflowAllSources.nodes
    rw [hremove, hnodes, List.filter_append, List.filter_append, List.filter_cons_of_neg]
    rw [hsel]
    exact Bool.false_ne_true
  have hfold : (d.sflowAllSources.nodes.filter sel).foldl sflowStopSource d =
      (rest.filter sel).foldl sflowStopSource (sflowStopSource d node) := by
    rw [hnodes, List.filter_append, hnone, List.filter_cons_of_pos hsel, List.nil_append,
      List.foldl_cons]
  have hrest : (d.sflowAllSources.remove node).nodes.filter sel = rest.filter sel := by
    rw [hremove, List.filter_append, hnone, List.nil_append]
  simp only [stopSelected, unlink, sflowAllSources_sflowStopSource, hfold, hrest, hlist,
    foldl_sflowStopSource_relink]

theorem stopped_sflowStopSource (d : Registry) (node : SourceNode) :
    (sflowStopSource d node).Stopped node := by
  unfold sflowStopSource Stopped
  split <;> simp +contextual [slot_expandingArraySet_none]

/-- Less is running in `d'` than in `d`. -/
structure Quieter (d d' : Registry) : Prop where
  toWatch : ∀ fd, d.toWatch fd = false → d'.toWatch fd = false
  slots : ∀ fd, d.sflowFdSources.slot fd = none → d'.sflowFdSources.slot fd = none
  closed : d.closed ⊆ d'.closed
  cancelled : d.cancelled ⊆ d'.cancelled

theorem quieter_sflowStopSource (d : Registry) (node : SourceNode) :
    Quieter d (sflowStopSource d node) := by
  unfold sflowStopSource
  split
  case h_1 =>
    constructor
    · intro fd hfd
      dsimp only
      by_cases h : fd = node.sslnSrc.ssFd
      · rw [h, Function.update_self]
      · rw [Function.update_of_ne h, hfd]
    · intro fd hfd
      rw [slot_expandingArraySet_none, hfd, ite_self]
    · exact List.subset_append_left _ _
    · exact List.Subset.refl _
  case h_6 => exact ⟨fun _ h ↦ h, fun _ h ↦ h, List.Subset.refl _, List.Subset.refl _⟩
  all_goals
    split
    · exact ⟨fun _ h ↦ h, fun _ h ↦ h, List.Subset.refl _, List.subset_append_left _ _⟩
    · exact ⟨fun _ h ↦ h, fun _ h ↦ h, List.Subset.refl _, List.Subset.refl _⟩

theorem Stopped.mono {d' : Registry} (h : d.Stopped node) (hd : Quieter d d') :
    d'.Stopped node := by
  unfold Stopped at h ⊢
  split at h
  · obtain ⟨hwatch, hslot, hclosed⟩ := h
    exact ⟨hd.toWatch _ hwatch, hd.slots _ hslot, hd.closed hclosed⟩
  · exact fun hthread ↦ hd.cancelled (h hthread)
  · exact fun hthread ↦ hd.cancelled (h hthread)
  · exact fun hthread ↦ hd.cancelled (h hthread)
  · exact fun hthread ↦ hd.cancelled (h hthread)
  · trivial

theorem stopped_foldl {nodes : List SourceNode} (d : Registry)
    (h : d.Stopped node ∨ node ∈ nodes) : (nodes.foldl sflowStopSource d).Stopped node := by
  induction nodes generalizing d with
  | nil =>
      rcases h with h | h
      · exact h
      · cases h
  | cons other nodes ih =>
      apply ih
      rcases h with h | h
      · exact .inl (h.mono (quieter_sflowStopSource d other))
      · rcases List.mem_cons.mp h with rfl | h
        · exact .inl (stopped_sflowStopSource d node)
        · exact .inr h

/-- In `d'` nothing has been stopped since `d` but some of the given sources. -/
structure StoppedOnly (nodes : List SourceNode) (d d' : Registry) : Prop where
  watched : ∀ fd, (∀ node ∈ nodes, node.sslnSrc.ssType = .flowsample →
    node.sslnSrc.ssFd ≠ fd) → d'.toWatch fd = d.toWatch fd ∧
      d'.sflowFdSources.slot fd = d.sflowFdSources.slot fd ∧ (fd ∈ d'.closed → fd ∈ d.closed)
  cancelled : ∀ addr, (∀ node ∈ nodes, node.addr ≠ addr) →
    addr ∈ d'.cancelled → addr ∈ d.cancelled

namespace StoppedOnly

variable {nodes nodes' : List SourceNode} {d₁ d₂ : Registry}

theorem refl (nodes : List SourceNode) (d : Registry) : StoppedOnly nodes d d :=
  ⟨fun _ _ ↦ ⟨rfl, rfl, id⟩, fun _ _ ↦ id⟩

theorem mono (h : StoppedOnly nodes d d₁) (hnodes : nodes ⊆ nodes') : StoppedOnly nodes' d d₁ := by
  constructor
  · intro fd hfd
    exact h.watched fd fun node hnode ↦ hfd node (hnodes hnode)
  · intro addr haddr
    exact h.cancelled addr fun node hnode ↦ haddr node (hnodes hnode)

theorem trans (h : StoppedOnly nodes d d₁) (h' : StoppedOnly nodes d₁ d₂) :
    StoppedOnly nodes d d₂ := by
  constructor
  · intro fd hfd
    obtain ⟨hwatch, hslot, hclosed⟩ := h.watched fd hfd
    obtain ⟨hwatch', hslot', hclosed'⟩ := h'.watched fd hfd
    exact ⟨hwatch'.trans hwatch, hslot'.trans hslot, hclosed ∘ hclosed'⟩
  · intro addr haddr
    exact h.cancelled addr haddr ∘ h'.cancelled addr haddr

theorem sflowStopSource (d : Registry) (node : SourceNode) :
    StoppedOnly [node] d (sflowStopSource d node) := by
  unfold Sflow.sflowStopSource
  split
  case h_1 htype =>
    constructor
    · intro fd hfd
      have hne : fd ≠ node.sslnSrc.ssFd := (hfd node List.mem_cons_self htype).symm
      refine ⟨Function.update_of_ne hne _ _, ?_, ?_⟩
      · rw [slot_expandingArraySet_none, if_neg hne]
      · intro hclosed
        rcases List.mem_append.mp hclosed with hclosed | hclosed
        · exact hclosed
        · exact absurd (List.mem_singleton.mp hclosed) hne
    · exact fun _ _ ↦ id
  case h_6 => exact refl _ d
  all_goals
    split
    case isFalse => exact refl _ d
    case isTrue =>
      refine ⟨fun _ _ ↦ ⟨rfl, rfl, id⟩, fun addr haddr hmem ↦ ?_⟩
      rcases List.mem_append.mp hmem with hmem | hmem
      · exact hmem
      · exact absurd (List.mem_singleton.mp hmem).symm (haddr node List.mem_cons_self)

theorem foldl (d : Registry) (nodes : List SourceNode) :
    StoppedOnly nodes d (nodes.foldl Sflow.sflowStopSource d) := by
  induction nodes generalizing d with
  | nil => exact refl [] d
  | cons node nodes ih =>
      rw [List.foldl_cons]
      have hfirst := (sflowStopSource d node).mono (List.cons_subset_cons node nodes.nil_subset)
      exact hfirst.trans ((ih _).mono (List.subset_cons_self node nodes))

end StoppedOnly

/-- The selected sources are stopped and gone, and the others are left running, in order. -/
structure RemovesExactly (d d' : Registry) (sel : SourceNode → Bool) : Prop where
  nodes : d'.sflowAllSources.nodes = d.sflowAllSources.nodes.filter fun node => !sel node
  stopped : ∀ node ∈ d.sflowAllSources.nodes, sel node = true → d'.Stopped node
  only : StoppedOnly (d.sflowAllSources.nodes.filter sel) d d'

/-- That is what stopping the selected sources does. -/
theorem removesExactly_stopSelected (d : Registry) (sel : SourceNode → Bool) :
    d.RemovesExactly (d.stopSelected sel) sel := by
  constructor
  · rfl
  · intro node hnode hsel
    have hstopped : ((d.sflowAllSources.nodes.filter sel).foldl sflowStopSource d).Stopped node :=
      stopped_foldl d (.inr (List.mem_filter.mpr ⟨hnode, hsel⟩))
    exact hstopped.mono ⟨fun _ h ↦ h, fun _ h ↦ h, List.Subset.refl _, List.Subset.refl _⟩
  · have honly := StoppedOnly.foldl d (d.sflowAllSources.nodes.filter sel)
    exact ⟨honly.watched, honly.cancelled⟩

/-- The list alone tells what has been removed. -/
theorem removesExactly_stopSelected_iff {sel sel' : SourceNode → Bool} :
    d.RemovesExactly (d.stopSelected sel) sel' ↔
      ∀ node ∈ d.sflowAllSources.nodes, sel' node = sel node := by
  constructor
  · intro h node hnode
    have hnodes : d.sflowAllSources.nodes.filter (fun node => !sel node) =
        d.sflowAllSources.nodes.filter fun node => !sel' node := h.nodes
    have hmem : node ∈ d.sflowAllSources.nodes.filter (fun node => !sel node) ↔
        node ∈ d.sflowAllSources.nodes.filter fun node => !sel' node := by rw [hnodes]
    rw [List.mem_filter, List.mem_filter, and_iff_right hnode, and_iff_right hnode] at hmem
    cases hsel : sel node <;> cases hsel' : sel' node <;> simp [hsel, hsel'] at hmem ⊢
  · intro h
    rw [← stopSelected_congr h]
    exact removesExactly_stopSelected d sel'

end Registry

end Sflow

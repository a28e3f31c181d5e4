import Mathlib.Data.Fintype.Basic
import Sflow.Run.Basic
import Sflow.Run.Interleave
import Sflow.Source.Remove

/-!
# Concurrent removal

The door has a thread for every call, so several of them may walk over the list of all
sources in `sflow_remove_source` at a time.  Adding a source locks the list, but removing
does not: the threads take turns at any point of their walks.

What they do to the nodes is written down as it happens, and is safe if nothing is
used after it has been freed and nothing is stopped or freed twice.
-/

namespace Sflow

open C Run

/-! ## What happens to nodes -/

/-- What a thread does with a node.  Stopping its source frees the source. -/
inductive NodeUse where
  | follow (node : SourceNode)
  | compare (node : SourceNode)
  | stop (node : SourceNode)
  | unlink (node : SourceNode)
  | free (node : SourceNode)
deriving DecidableEq

/-- A node is followed, compared through and unlinked before it is freed, its source is compared
and stopped before that is freed, and all but the looks happen once. -/
def NodeUse.Allowed (before : List NodeUse) : NodeUse → Prop
  | follow node => free node ∉ before
  | compare node => stop node ∉ before ∧ free node ∉ before
  | stop node => stop node ∉ before ∧ free node ∉ before
  | unlink node => unlink node ∉ before ∧ free node ∉ before
  | free node => free node ∉ before

/-- The uses that only look at a node. -/
def NodeUse.Looks (u : NodeUse) : Prop := ∀ node, u ≠ stop node ∧ u ≠ unlink node ∧ u ≠ free node

/-- Everything that has happened was allowed then. -/
def SafeUses (uses : List NodeUse) : Prop :=
  ∀ before use, before ++ [use] <+: uses → use.Allowed before

theorem SafeUses.concat {uses : List NodeUse} {use : NodeUse} (h : SafeUses uses)
    (huse : use.Allowed uses) : SafeUses (uses ++ [use]) := by
  intro before use' hprefix
  rcases List.prefix_concat_iff.mp hprefix with heq | hprefix
  · obtain ⟨rfl, hlast⟩ := List.append_inj' heq rfl
    rwa [List.singleton_inj.mp hlast]
  · exact h before use' hprefix

/-- What is not allowed is never made up for. -/
theorem not_safeUses_concat {uses : List NodeUse} {use : NodeUse} (h : ¬ use.Allowed uses) :
    ¬ SafeUses (uses ++ [use]) := fun hsafe ↦ h (hsafe uses use (List.prefix_refl _))

/-! ## The walks -/

/-- The memory that the threads share. -/
structure RemoveMemory where
  registry : Registry
  uses : List NodeUse

namespace RemoveMemory

def use (m : RemoveMemory) (u : NodeUse) : RemoveMemory := { m with uses := m.uses ++ [u] }

/-- Only the use that happens is new. -/
theorem notMem_use {m : RemoveMemory} {u v : NodeUse} (hv : v ∉ m.uses) (hne : v ≠ u) :
    v ∉ (m.use u).uses := by
  rw [use, List.mem_append, List.mem_singleton, not_or]
  exact ⟨hv, hne⟩

/-- The list of all sources. -/
def nodes (m : RemoveMemory) : List SourceNode := m.registry.sflowAllSources.nodes

end RemoveMemory

/-- Where a thread is in the loop of `sflow_remove_source`, with the test for its request. -/
inductive RemovePc where
  | idle
  | fetch (sel : SflowSource → Bool) (nodePre : Option SourceNode)
  | test (sel : SflowSource → Bool) (nodePre : Option SourceNode) (nodeCur : SourceNode)
  | stop (sel : SflowSource → Bool) (nodePre : Option SourceNode) (nodeCur : SourceNode)
  | unlink (sel : SflowSource → Bool) (nodePre : Option SourceNode) (nodeCur : SourceNode)
  | free (sel : SflowSource → Bool) (nodePre : Option SourceNode) (nodeCur : SourceNode)
  /-- It has followed a link that `list_remove` has cleared, to nowhere. -/
  | lost

namespace RemovePc

/-- With the node behind `nodePre` in hand, or none. -/
def fetched (sel : SflowSource → Bool) (nodePre : Option SourceNode) :
    Option SourceNode → RemovePc
  | none => idle
  | some nodeCur => test sel nodePre nodeCur

/-- One step of a thread.  What is read in memory that has been freed is what was there. -/
def step (m : RemoveMemory) : RemovePc → Option (RemoveMemory × RemovePc)
  | idle => none
  | fetch sel none => some (m, fetched sel none m.registry.sflowAllSources.head)
  | fetch sel (some pre) =>
      some (m.use (.follow pre),
        if pre ∈ m.nodes then fetched sel (some pre) (m.registry.sflowAllSources.next pre)
        else lost)
  | test sel nodePre nodeCur =>
      some (m.use (.compare nodeCur),
        if sel nodeCur.sslnSrc then stop sel nodePre nodeCur else fetch sel (some nodeCur))
  | stop sel nodePre nodeCur =>
      some ({ m.use (.stop nodeCur) with registry := sflowStopSource m.registry nodeCur },
        unlink sel nodePre nodeCur)
  | unlink sel nodePre nodeCur =>
      some ({ m.use (.unlink nodeCur) with registry := m.registry.unlink nodeCur },
        free sel nodePre nodeCur)
  | free sel nodePre nodeCur => some (m.use (.free nodeCur), fetch sel nodePre)
  | lost => none

/-- A walk that goes on from the list itself, or from a node in it, gets what is next. -/
theorem step_fetch {m : RemoveMemory} (sel : SflowSource → Bool) {nodePre : Option SourceNode}
    (hpre : ∀ pre, nodePre = some pre → pre ∈ m.nodes) :
    ∃ m', m'.registry = m.registry ∧ m.uses ⊆ m'.uses ∧ step m (fetch sel nodePre) =
      some (m', fetched sel nodePre (m.registry.sflowAllSources.cursor nodePre)) := by
  cases nodePre with
  | none => exact ⟨m, rfl, List.Subset.refl _, rfl⟩
  | some pre =>
      refine ⟨m.use (.follow pre), rfl, List.subset_append_left _ _, ?_⟩
      rw [step, if_pos (hpre pre rfl)]
      rfl

theorem step_test_of_pos {m : RemoveMemory} {sel : SflowSource → Bool}
    {nodePre : Option SourceNode} {nodeCur : SourceNode} (hsel : sel nodeCur.sslnSrc = true) :
    step m (test sel nodePre nodeCur) =
      some (m.use (.compare nodeCur), stop sel nodePre nodeCur) := by
  rw [step, if_pos hsel]

/-- The node that a thread has in hand. -/
def cur : RemovePc → Option SourceNode
  | test _ _ nodeCur | stop _ _ nodeCur | unlink _ _ nodeCur | free _ _ nodeCur => some nodeCur
  | idle | fetch _ _ | lost => none

/-- The node that a thread will go on behind: not that in front of one that it is about
to keep. -/
def resume : RemovePc → Option SourceNode
  | test sel nodePre nodeCur => if sel nodeCur.sslnSrc then nodePre else none
  | fetch _ nodePre | stop _ nodePre _ | unlink _ nodePre _ | free _ nodePre _ => nodePre
  | idle | lost => none

/-- The node whose source a thread has stopped, and which is still in the list. -/
def stopped : RemovePc → Option SourceNode
  | unlink _ _ nodeCur => some nodeCur
  | _ => none

/-- The node in hand, once its source has been stopped. -/
def past : RemovePc → Option SourceNode
  | unlink _ _ nodeCur | free _ _ nodeCur => some nodeCur
  | _ => none

theorem stopped_or_free {pc : RemovePc} {node : SourceNode} (h : pc.past = some node) :
    pc.stopped = some node ∨ ∃ sel nodePre, pc = free sel nodePre node := by
  cases pc <;> cases h
  case unlink => exact .inl rfl
  case free => exact .inr ⟨_, _, rfl⟩

theorem cur_of_past {pc : RemovePc} {node : SourceNode} (h : pc.past = some node) :
    pc.cur = some node := by
  cases pc <;> cases h <;> rfl

end RemovePc

/-- Any number of door threads over one memory. -/
abbrev Removers (A : Type*) := Cfg A RemoveMemory RemovePc

/-- The test of a request, once its strings are taken apart. -/
def removeTest (fuel : Nat) (srcToRmType : SflowSourceType) (rsrc : SflowdDoorRsrc) :
    Option (SflowSource → Bool) := do
  let srcname ← removeSpace fuel rsrc.sdSrcname.chars
  let typestr ← removeSpace fuel rsrc.sdTypestr.chars
  some (removes srcname ((typeOfStr typestr).getD (.only srcToRmType)))

/-- What happens next. -/
inductive RemoveAction (A : Type*) where
  /-- A thread is called with a request. -/
  | call (a : A) (fuel : Nat) (srcToRmType : SflowSourceType) (rsrc : SflowdDoorRsrc)
  | go (a : A)

namespace Removers

variable {A : Type*}

/-- No thread is in a call. -/
def init (d : Registry) : Removers A := ⟨⟨d, []⟩, fun _ => .idle⟩

variable [DecidableEq A]

/-- One step of the threads. -/
def step (c : Removers A) : RemoveAction A → Option (Removers A)
  | .call a fuel srcToRmType rsrc =>
      match c.pc a with
      | .idle =>
          (removeTest fuel srcToRmType rsrc).map fun sel => c.move a c.sh (.fetch sel none)
      | _ => none
  | .go a => (RemovePc.step c.sh (c.pc a)).map fun next => c.move a next.1 next.2

/-- The other threads are out of the way of the next step of `a`, which is at `pc`: none is at
the node whose source it stops, none has stopped the source of the node it fetches and not yet
unlinked that, and none will go on behind the node it frees. -/
def ApartAt (c : Removers A) (a : A) : RemovePc → Prop
  | .fetch _ nodePre =>
      ∀ node ∈ c.sh.registry.sflowAllSources.cursor nodePre, ∀ b, (c.pc b).stopped ≠ some node
  | .stop _ _ nodeCur => ∀ b, b ≠ a → (c.pc b).cur ≠ some nodeCur
  | .free _ _ nodeCur => ∀ b, b ≠ a → (c.pc b).resume ≠ some nodeCur
  | .idle | .test .. | .unlink .. | .lost => True

def Apart (c : Removers A) (a : A) : Prop := c.ApartAt a (c.pc a)

/-- The condition on the steps of a run; a call is always possible. -/
def Undisturbed (c : Removers A) : RemoveAction A → Prop
  | .call .. => True
  | .go a => c.Apart a

end Removers

/-! ## What the threads rely on -/

/-- A node that nothing has happened to yet but looks. -/
structure Untouched (m : RemoveMemory) (node : SourceNode) : Prop where
  stop : .stop node ∉ m.uses
  unlink : .unlink node ∉ m.uses
  free : .free node ∉ m.uses

namespace RemovePc

/-- What the node in hand has been through. -/
def Held (m : RemoveMemory) : RemovePc → Prop
  | test _ _ nodeCur | stop _ _ nodeCur => Untouched m nodeCur
  | unlink _ _ nodeCur =>
      .stop nodeCur ∈ m.uses ∧ .unlink nodeCur ∉ m.uses ∧ .free nodeCur ∉ m.uses
  | free _ _ nodeCur => .free nodeCur ∉ m.uses ∧ nodeCur ∉ m.nodes
  | idle | fetch _ _ | lost => True

/-- What a thread relies on. -/
structure Sound (m : RemoveMemory) (pc : RemovePc) : Prop where
  resume : ∀ node, pc.resume = some node → .free node ∉ m.uses ∧ pc.cur ≠ some node
  held : pc.Held m

theorem sound_idle (m : RemoveMemory) : Sound m idle := ⟨fun _ h ↦ (by cases h), trivial⟩

theorem sound_lost (m : RemoveMemory) : Sound m lost := ⟨fun _ h ↦ (by cases h), trivial⟩

theorem sound_fetch {m : RemoveMemory} {sel : SflowSource → Bool} {nodePre : Option SourceNode}
    (h : ∀ node, nodePre = some node → .free node ∉ m.uses) : Sound m (fetch sel nodePre) :=
  ⟨fun node hnode ↦ ⟨h node hnode, fun hcur ↦ by cases hcur⟩, trivial⟩

/-- A thread that is not in the way of a use of a node goes on relying on what it did. -/
theorem Sound.frame {m m' : RemoveMemory} {pc : RemovePc} {u : NodeUse} (h : Sound m pc)
    (huses : m'.uses = (m.use u).uses) (hnodes : m'.nodes ⊆ m.nodes)
    (hcur : ∀ node, pc.cur = some node → u ≠ .stop node ∧ u ≠ .unlink node ∧ u ≠ .free node)
    (hresume : ∀ node, pc.resume = some node → u ≠ .free node) : Sound m' pc := by
  have hmem : ∀ {v : NodeUse}, v ∉ m.uses → u ≠ v → v ∉ m'.uses := by
    intro v hv hne
    rw [huses]
    exact RemoveMemory.notMem_use hv hne.symm
  refine ⟨fun node hnode ↦ ⟨hmem (h.resume node hnode).1 (hresume node hnode),
    (h.resume node hnode).2⟩, ?_⟩
  have hheld := h.held
  cases pc with
  | idle | fetch | lost => trivial
  | test sel nodePre nodeCur | stop sel nodePre nodeCur =>
      obtain ⟨hstop, hunlink, hfree⟩ := hcur nodeCur rfl
      exact ⟨hmem hheld.stop hstop, hmem hheld.unlink hunlink, hmem hheld.free hfree⟩
  | unlink sel nodePre nodeCur =>
      obtain ⟨-, hunlink, hfree⟩ := hcur nodeCur rfl
      refine ⟨?_, hmem hheld.2.1 hunlink, hmem hheld.2.2 hfree⟩
      rw [huses]
      exact List.mem_append_left _ hheld.1
  | free sel nodePre nodeCur =>
      obtain ⟨-, -, hfree⟩ := hcur nodeCur rfl
      exact ⟨hmem hheld.1 hfree, fun hin ↦ hheld.2 (hnodes hin)⟩

end RemovePc

namespace Removers

variable {A : Type*}

/-- While no thread gets in the way of another. -/
structure Inv (c : Removers A) : Prop where
  safe : SafeUses c.sh.uses
  listed : ∀ node ∈ c.sh.nodes, .unlink node ∉ c.sh.uses ∧ .free node ∉ c.sh.uses ∧
    (.stop node ∈ c.sh.uses → ∃ a, (c.pc a).stopped = some node)
  sound : ∀ a, (c.pc a).Sound c.sh
  alone : ∀ a b node, a ≠ b → (c.pc a).past = some node → (c.pc b).cur ≠ some node

theorem inv_init (d : Registry) : (init d : Removers A).Inv where
  safe := by
    intro before use hprefix
    exact absurd (List.prefix_nil.mp hprefix) (List.append_ne_nil_of_right_ne_nil _ (by simp))
  listed node _ := by simp [init]
  sound _ := RemovePc.sound_idle _
  alone _ _ _ _ h := by cases h

variable {c : Removers A} {a : A}

/-- A source that has been stopped in the list has been stopped by another thread. -/
theorem Inv.exists_stopped (h : c.Inv) (ha : (c.pc a).stopped = none) {node : SourceNode}
    (hnode : node ∈ c.sh.nodes) (hstop : .stop node ∈ c.sh.uses) :
    ∃ b, b ≠ a ∧ (c.pc b).stopped = some node := by
  obtain ⟨b, hb⟩ := (h.listed node hnode).2.2 hstop
  refine ⟨b, ?_, hb⟩
  rintro rfl
  rw [ha] at hb
  cases hb

section Fetch

variable {sel : SflowSource → Bool} {nodePre : Option SourceNode}

/-- What is fetched from the list is as good as new. -/
theorem Inv.sound_fetched (h : c.Inv) (ha : c.pc a = .fetch sel nodePre) (hapart : c.Apart a) :
    (RemovePc.fetched sel nodePre (c.sh.registry.sflowAllSources.cursor nodePre)).Sound c.sh := by
  have hresume := (h.sound a).resume
  simp only [Apart, ha, ApartAt] at hapart hresume
  cases hcur : c.sh.registry.sflowAllSources.cursor nodePre with
  | none => exact RemovePc.sound_idle _
  | some nodeCur =>
      have hnode : nodeCur ∈ c.sh.nodes := LinkedList.mem_of_cursor hcur
      obtain ⟨hunlink, hfree, -⟩ := h.listed nodeCur hnode
      refine ⟨fun node hpre ↦ ?_, ⟨fun hstop ↦ ?_, hunlink, hfree⟩⟩
      · simp only [RemovePc.fetched, RemovePc.resume, Option.ite_none_right_eq_some] at hpre
        refine ⟨(hresume node hpre.2).1, fun hsame ↦ LinkedList.ne_of_cursor hcur ?_⟩
        exact hpre.2.trans hsame.symm
      · have hstopped : (c.pc a).stopped = none := by rw [ha]; rfl
        obtain ⟨b, -, hb⟩ := h.exists_stopped hstopped hnode hstop
        exact hapart nodeCur hcur b hb

theorem Inv.past_ne_fetched (h : c.Inv) (ha : c.pc a = .fetch sel nodePre) (hapart : c.Apart a) :
    ∀ node, (RemovePc.fetched sel nodePre
      (c.sh.registry.sflowAllSources.cursor nodePre)).cur = some node →
        ∀ b, b ≠ a → (c.pc b).past ≠ some node := by
  intro node hnode b _
  simp only [Apart, ha, ApartAt] at hapart
  cases hcur : c.sh.registry.sflowAllSources.cursor nodePre with
  | none =>
      rw [hcur] at hnode
      cases hnode
  | some nodeCur =>
      rw [hcur] at hnode
      cases hnode
      intro hpast
      rcases RemovePc.stopped_or_free hpast with hstopped | ⟨sel', nodePre', hb⟩
      · exact hapart node hcur b hstopped
      · have hheld := (h.sound b).held
        rw [hb] at hheld
        exact hheld.2 (LinkedList.mem_of_cursor hcur)

end Fetch

/-- A thread that is not at a node does not notice what happens to it, unless it goes on behind
it. -/
theorem Inv.sound_of_alone {m : RemoveMemory} {u : NodeUse} {nodeCur : SourceNode} (h : c.Inv)
    (huses : m.uses = (c.sh.use u).uses) (hnodes : m.nodes ⊆ c.sh.nodes)
    (hu : u = .stop nodeCur ∨ u = .unlink nodeCur ∨ u = .free nodeCur)
    (hcur : ∀ b, b ≠ a → (c.pc b).cur ≠ some nodeCur)
    (hresume : ∀ b, b ≠ a → u = .free nodeCur → (c.pc b).resume ≠ some nodeCur) :
    ∀ b, b ≠ a → (c.pc b).Sound m := by
  intro b hb
  refine (h.sound b).frame huses hnodes (fun node hnode ↦ ?_) (fun node hnode heq ↦ ?_)
  · have hne : node ≠ nodeCur := by
      rintro rfl
      exact hcur b hb hnode
    rcases hu with rfl | rfl | rfl <;> simpa using hne.symm
  · subst heq
    rcases hu with heq | heq | heq <;> cases heq
    exact hresume b hb rfl hnode

variable [DecidableEq A]

/-- What one thread has to leave behind, and leave alone. -/
theorem Inv.moved {m : RemoveMemory} {pc : RemovePc} (h : c.Inv) (hsafe : SafeUses m.uses)
    (hlisted : ∀ node ∈ m.nodes, .unlink node ∉ m.uses ∧ .free node ∉ m.uses ∧
      (.stop node ∈ m.uses →
        pc.stopped = some node ∨ ∃ b, b ≠ a ∧ (c.pc b).stopped = some node))
    (hsound : pc.Sound m) (hframe : ∀ b, b ≠ a → (c.pc b).Sound m)
    (hpast : ∀ node, pc.past = some node → ∀ b, b ≠ a → (c.pc b).cur ≠ some node)
    (hcur : ∀ node, pc.cur = some node → ∀ b, b ≠ a → (c.pc b).past ≠ some node) :
    Inv (c.move a m pc) := by
  constructor
  · exact hsafe
  · intro node hnode
    obtain ⟨hunlink, hfree, hstop⟩ := hlisted node hnode
    exact ⟨hunlink, hfree, fun hin ↦
      (Cfg.exists_move (P := fun _ pc ↦ RemovePc.stopped pc = some node)).mpr (hstop hin)⟩
  · exact (Cfg.forall_move (P := fun _ pc ↦ RemovePc.Sound m pc)).mpr ⟨hsound, hframe⟩
  · intro b b' node hne hb hb'
    by_cases hba : b = a
    · subst hba
      rw [Cfg.move_pc_self] at hb
      rw [Cfg.move_pc_of_ne _ _ _ _ hne.symm] at hb'
      exact hpast node hb b' hne.symm hb'
    · rw [Cfg.move_pc_of_ne _ _ _ _ hba] at hb
      by_cases hba' : b' = a
      · subst hba'
        rw [Cfg.move_pc_self] at hb'
        exact hcur node hb' b hba hb
      · rw [Cfg.move_pc_of_ne _ _ _ _ hba'] at hb'
        exact h.alone b b' node hne hb hb'

/-- What is left to show when a thread does something to the node in hand, at which it is
alone. -/
theorem Inv.moved_alone {m : RemoveMemory} {pc : RemovePc} {u : NodeUse} {nodeCur : SourceNode}
    (h : c.Inv) (huses : m.uses = (c.sh.use u).uses) (hnodes : m.nodes ⊆ c.sh.nodes)
    (hu : u = .stop nodeCur ∨ u = .unlink nodeCur ∨ u = .free nodeCur)
    (hallowed : u.Allowed c.sh.uses) (halone : ∀ b, b ≠ a → (c.pc b).cur ≠ some nodeCur)
    (hresume : ∀ b, b ≠ a → u = .free nodeCur → (c.pc b).resume ≠ some nodeCur)
    (hcur : ∀ node, pc.cur = some node → node = nodeCur) (hsound : pc.Sound m)
    (hlisted : ∀ node ∈ m.nodes, .unlink node ∉ m.uses ∧ .free node ∉ m.uses ∧
      (.stop node ∈ m.uses →
        pc.stopped = some node ∨ ∃ b, b ≠ a ∧ (c.pc b).stopped = some node)) :
    Inv (c.move a m pc) := by
  have hsafe : SafeUses m.uses := by
    rw [huses]
    exact h.safe.concat hallowed
  refine h.moved hsafe hlisted hsound (h.sound_of_alone huses hnodes hu halone hresume) ?_ ?_
  · intro node hnode
    rw [hcur node (RemovePc.cur_of_past hnode)]
    exact halone
  · intro node hnode b hb hpast
    rw [hcur node hnode] at hpast
    exact halone b hb (RemovePc.cur_of_past hpast)

/-- A thread goes on to another point and leaves the memory alone. -/
theorem Inv.goes (h : c.Inv) (ha : (c.pc a).stopped = none) {pc : RemovePc}
    (hsound : pc.Sound c.sh) (hpast : pc.past = none)
    (hcur : ∀ node, pc.cur = some node → ∀ b, b ≠ a → (c.pc b).past ≠ some node) :
    Inv (c.move a c.sh pc) := by
  refine h.moved h.safe (fun node hnode ↦ ?_) hsound (fun b _ ↦ h.sound b) ?_ hcur
  · obtain ⟨hunlink, hfree, -⟩ := h.listed node hnode
    exact ⟨hunlink, hfree, fun hstop ↦ .inr (h.exists_stopped ha hnode hstop)⟩
  · intro node hnode
    rw [hpast] at hnode
    cases hnode

/-- A thread looks at a node. -/
theorem Inv.looks (h : c.Inv) (ha : (c.pc a).stopped = none) {pc : RemovePc} {u : NodeUse}
    (hu : u.Looks) (hallowed : u.Allowed c.sh.uses) (hsound : pc.Sound c.sh)
    (hpast : pc.past = none)
    (hcur : ∀ node, pc.cur = some node → ∀ b, b ≠ a → (c.pc b).past ≠ some node) :
    Inv (c.move a (c.sh.use u) pc) := by
  have hmem : ∀ {v : NodeUse}, v ∈ (c.sh.use u).uses → v ∈ c.sh.uses ∨ v = u := by
    intro v hv
    rwa [RemoveMemory.use, List.mem_append, List.mem_singleton] at hv
  have hframe : ∀ {pc : RemovePc}, pc.Sound c.sh → pc.Sound (c.sh.use u) := fun hpc ↦
    hpc.frame rfl (List.Subset.refl _) (fun node _ ↦ hu node) fun node _ ↦ (hu node).2.2
  refine h.moved (h.safe.concat hallowed) (fun node hnode ↦ ?_) (hframe hsound)
    (fun b _ ↦ hframe (h.sound b)) ?_ hcur
  · obtain ⟨hunlink, hfree, -⟩ := h.listed node hnode
    obtain ⟨hneStop, hneUnlink, hneFree⟩ := hu node
    refine ⟨fun hin ↦ ?_, fun hin ↦ ?_, fun hin ↦ .inr ?_⟩
    · exact (hmem hin).elim hunlink fun heq ↦ hneUnlink heq.symm
    · exact (hmem hin).elim hfree fun heq ↦ hneFree heq.symm
    · exact (hmem hin).elim (h.exists_stopped ha hnode) fun heq ↦ absurd heq.symm hneStop
  · intro node hnode
    rw [hpast] at hnode
    cases hnode

theorem Inv.step_fetch {sel : SflowSource → Bool} {nodePre : Option SourceNode} (h : c.Inv)
    (ha : c.pc a = .fetch sel nodePre) (hapart : c.Apart a) {m : RemoveMemory} {pc : RemovePc}
    (hstep : RemovePc.step c.sh (c.pc a) = some (m, pc)) : Inv (c.move a m pc) := by
  have hstopped : (c.pc a).stopped = none := by rw [ha]; rfl
  have hsound := h.sound_fetched ha hapart
  have hcur := h.past_ne_fetched ha hapart
  have hpast : (RemovePc.fetched sel nodePre
      (c.sh.registry.sflowAllSources.cursor nodePre)).past = none := by
    cases c.sh.registry.sflowAllSources.cursor nodePre <;> rfl
  rw [ha] at hstep
  cases nodePre with
  | none =>
      cases hstep
      exact h.goes hstopped hsound hpast hcur
  | some pre =>
      have hfree : .free pre ∉ c.sh.uses := ((h.sound a).resume pre (by rw [ha]; rfl)).1
      have hlooks : (NodeUse.follow pre).Looks := fun node ↦ ⟨by simp, by simp, by simp⟩
      cases hstep
      split
      · exact h.looks hstopped hlooks hfree hsound hpast hcur
      · exact h.looks hstopped hlooks hfree (RemovePc.sound_lost _) rfl fun _ hnode ↦ by cases hnode

/-- The source of a node in hand is compared, and the node is kept or its source stopped next. -/
theorem Inv.step_test {sel : SflowSource → Bool} {nodePre : Option SourceNode}
    {nodeCur : SourceNode} (h : c.Inv) (ha : c.pc a = .test sel nodePre nodeCur)
    {m : RemoveMemory} {pc : RemovePc}
    (hstep : RemovePc.step c.sh (c.pc a) = some (m, pc)) : Inv (c.move a m pc) := by
  have hstopped : (c.pc a).stopped = none := by rw [ha]; rfl
  have hlooks : (NodeUse.compare nodeCur).Looks := fun node ↦ ⟨by simp, by simp, by simp⟩
  have hheld : Untouched c.sh nodeCur := by
    have hheld := (h.sound a).held
    rwa [ha] at hheld
  have hresume := (h.sound a).resume
  have halone : ∀ b, b ≠ a → (c.pc b).past ≠ some nodeCur := by
    intro b hb hpast
    exact h.alone b a nodeCur hb hpast (by rw [ha]; rfl)
  rw [ha] at hstep hresume
  cases hstep
  split
  case isTrue hsel =>
    simp only [RemovePc.resume, if_pos hsel] at hresume
    refine h.looks hstopped hlooks ⟨hheld.stop, hheld.free⟩ ⟨hresume, hheld⟩ rfl ?_
    rintro _ ⟨⟩
    exact halone
  case isFalse =>
    refine h.looks hstopped hlooks ⟨hheld.stop, hheld.free⟩ (RemovePc.sound_fetch ?_) rfl ?_
    · rintro _ ⟨⟩
      exact hheld.free
    · rintro _ ⟨⟩

/-- A thread stops the source of the node in hand, at which it is alone. -/
theorem Inv.step_stop {sel : SflowSource → Bool} {nodePre : Option SourceNode}
    {nodeCur : SourceNode} (h : c.Inv) (ha : c.pc a = .stop sel nodePre nodeCur)
    (hapart : c.Apart a) {m : RemoveMemory} {pc : RemovePc}
    (hstep : RemovePc.step c.sh (c.pc a) = some (m, pc)) : Inv (c.move a m pc) := by
  have hstopped : (c.pc a).stopped = none := by rw [ha]; rfl
  have hheld : Untouched c.sh nodeCur := by
    have hheld := (h.sound a).held
    rwa [ha] at hheld
  have hresume := (h.sound a).resume
  simp only [Apart, ha, ApartAt] at hapart
  rw [ha] at hstep hresume
  cases hstep
  have hnodes : RemoveMemory.nodes
      { c.sh.use (.stop nodeCur) with registry := sflowStopSource c.sh.registry nodeCur } =
        c.sh.nodes := by
    rw [RemoveMemory.nodes, Registry.sflowAllSources_sflowStopSource]
    rfl
  have hsub : RemoveMemory.nodes
      { c.sh.use (.stop nodeCur) with registry := sflowStopSource c.sh.registry nodeCur } ⊆
        c.sh.nodes := by
    rw [hnodes]
    exact List.Subset.refl _
  refine h.moved_alone rfl hsub (.inl rfl) ⟨hheld.stop, hheld.free⟩ hapart ?_ ?_ ⟨?_, ?_⟩ ?_
  · rintro b - ⟨⟩
  · rintro node ⟨⟩
    rfl
  · intro node hnode
    obtain ⟨hfree, hne⟩ := hresume node hnode
    exact ⟨RemoveMemory.notMem_use hfree (by simp), hne⟩
  · exact ⟨List.mem_append_right _ List.mem_cons_self,
      RemoveMemory.notMem_use hheld.unlink (by simp),
      RemoveMemory.notMem_use hheld.free (by simp)⟩
  · intro node hnode
    rw [hnodes] at hnode
    obtain ⟨hunlink, hfree, -⟩ := h.listed node hnode
    refine ⟨RemoveMemory.notMem_use hunlink (by simp), RemoveMemory.notMem_use hfree (by simp),
      fun hstop ↦ ?_⟩
    rcases List.mem_append.mp hstop with hstop | hstop
    · exact .inr (h.exists_stopped hstopped hnode hstop)
    · cases List.mem_singleton.mp hstop
      exact .inl rfl

/-- A thread takes the node in hand out of the list. -/
theorem Inv.step_unlink {sel : SflowSource → Bool} {nodePre : Option SourceNode}
    {nodeCur : SourceNode} (h : c.Inv) (ha : c.pc a = .unlink sel nodePre nodeCur)
    {m : RemoveMemory} {pc : RemovePc}
    (hstep : RemovePc.step c.sh (c.pc a) = some (m, pc)) : Inv (c.move a m pc) := by
  have halone : ∀ b, b ≠ a → (c.pc b).cur ≠ some nodeCur := by
    intro b hb
    exact h.alone a b nodeCur hb.symm (by rw [ha]; rfl)
  have hheld := (h.sound a).held
  have hresume := (h.sound a).resume
  rw [ha] at hstep hheld hresume
  cases hstep
  have hsub : ∀ {node}, node ∈ (c.sh.registry.sflowAllSources.remove nodeCur).nodes →
      node ∈ c.sh.nodes := fun hnode ↦ List.mem_of_mem_erase hnode
  have hgone : nodeCur ∉ (c.sh.registry.sflowAllSources.remove nodeCur).nodes :=
    c.sh.registry.sflowAllSources.nodup.not_mem_erase
  refine h.moved_alone rfl (fun _ ↦ hsub) (.inr (.inl rfl)) hheld.2 halone ?_ ?_ ⟨?_, ?_⟩ ?_
  · rintro b - ⟨⟩
  · rintro node ⟨⟩
    rfl
  · intro node hnode
    obtain ⟨hfree, hne⟩ := hresume node hnode
    exact ⟨RemoveMemory.notMem_use hfree (by simp), hne⟩
  · exact ⟨RemoveMemory.notMem_use hheld.2.2 (by simp), hgone⟩
  · intro node hnode
    obtain ⟨hunlink, hfree, hstop⟩ := h.listed node (hsub hnode)
    have hne : node ≠ nodeCur := by
      rintro rfl
      exact hgone hnode
    refine ⟨RemoveMemory.notMem_use hunlink (by simpa using hne),
      RemoveMemory.notMem_use hfree (by simp), fun hin ↦ .inr ?_⟩
    rcases List.mem_append.mp hin with hin | hin
    · obtain ⟨b, hb⟩ := hstop hin
      refine ⟨b, ?_, hb⟩
      rintro rfl
      rw [ha] at hb
      exact hne (Option.some.inj hb).symm
    · cases List.mem_singleton.mp hin

/-- A thread frees the node in hand, behind which no other will go on. -/
theorem Inv.step_free {sel : SflowSource → Bool} {nodePre : Option SourceNode}
    {nodeCur : SourceNode} (h : c.Inv) (ha : c.pc a = .free sel nodePre nodeCur)
    (hapart : c.Apart a) {m : RemoveMemory} {pc : RemovePc}
    (hstep : RemovePc.step c.sh (c.pc a) = some (m, pc)) : Inv (c.move a m pc) := by
  have hstopped : (c.pc a).stopped = none := by rw [ha]; rfl
  have halone : ∀ b, b ≠ a → (c.pc b).cur ≠ some nodeCur := by
    intro b hb
    exact h.alone a b nodeCur hb.symm (by rw [ha]; rfl)
  have hheld := (h.sound a).held
  have hresume := (h.sound a).resume
  simp only [Apart, ha, ApartAt] at hapart
  rw [ha] at hstep hheld hresume
  cases hstep
  refine h.moved_alone rfl (List.Subset.refl _) (.inr (.inr rfl)) hheld.1 halone
    (fun b hb _ ↦ hapart b hb) ?_ (RemovePc.sound_fetch ?_) ?_
  · rintro node ⟨⟩
  · intro node hnode
    obtain ⟨hfree, hne⟩ := hresume node hnode
    refine RemoveMemory.notMem_use hfree fun heq ↦ hne ?_
    cases heq
    rfl
  · intro node hnode
    obtain ⟨hunlink, hfree, -⟩ := h.listed node hnode
    have hne : node ≠ nodeCur := by
      rintro rfl
      exact hheld.2 hnode
    refine ⟨RemoveMemory.notMem_use hunlink (by simp),
      RemoveMemory.notMem_use hfree (by simpa using hne), fun hin ↦ .inr ?_⟩
    rcases List.mem_append.mp hin with hin | hin
    · exact h.exists_stopped hstopped hnode hin
    · cases List.mem_singleton.mp hin

/-- Threads that keep apart keep what they rely on. -/
theorem Inv.step (h : c.Inv) {act : RemoveAction A} (hact : c.Undisturbed act) {c' : Removers A}
    (hstep : c.step act = some c') : c'.Inv := by
  cases act with
  | call a fuel srcToRmType rsrc =>
      rw [Removers.step] at hstep
      split at hstep
      case h_1 ha =>
        obtain ⟨sel, -, rfl⟩ := Option.map_eq_some_iff.mp hstep
        refine h.goes (by rw [ha]; rfl) (RemovePc.sound_fetch ?_) rfl ?_
        · rintro _ ⟨⟩
        · rintro _ ⟨⟩
      case h_2 => cases hstep
  | go a =>
      obtain ⟨⟨m, pc⟩, hpc, rfl⟩ := Option.map_eq_some_iff.mp hstep
      cases ha : c.pc a with
      | idle | lost =>
          rw [ha] at hpc
          cases hpc
      | fetch => exact h.step_fetch ha hact hpc
      | test => exact h.step_test ha hpc
      | stop => exact h.step_stop ha hact hpc
      | unlink => exact h.step_unlink ha hpc
      | free => exact h.step_free ha hact hpc

/-! ## One thread that goes on alone -/

/-- From `c` to `c'` only `a` takes steps of its walk. -/
def Goes (a : A) (c c' : Removers A) : Prop :=
  ∃ n, run Removers.step c (List.replicate n (.go a)) = some c'

theorem Goes.refl (a : A) (c : Removers A) : Goes a c c := ⟨0, rfl⟩

theorem Goes.head {m : RemoveMemory} {pc : RemovePc} {c' : Removers A}
    (hstep : RemovePc.step c.sh (c.pc a) = some (m, pc)) (h : Goes a (c.move a m pc) c') :
    Goes a c c' := by
  obtain ⟨n, hrun⟩ := h
  refine ⟨n + 1, ?_⟩
  rw [List.replicate_succ, run_cons, Removers.step, hstep]
  exact hrun

theorem Goes.head_move {m m' : RemoveMemory} {pc pc' : RemovePc} {c' : Removers A}
    (hstep : RemovePc.step m pc = some (m', pc')) (h : Goes a (c.move a m' pc') c') :
    Goes a (c.move a m pc) c' := by
  have hmove : RemovePc.step (c.move a m pc).sh ((c.move a m pc).pc a) = some (m', pc') := by
    rwa [Cfg.move_sh, Cfg.move_pc_self]
  refine .head hmove ?_
  rwa [Cfg.move_move]

/-- A walk that nothing comes in between is the loop of `sflow_remove_source`. -/
theorem goes_removeLoop {sel : SflowSource → Bool} (fuel : Nat) {d' : Registry}
    {kept rest : List SourceNode} (hnodes : c.sh.nodes = kept ++ rest)
    (ha : c.pc a = .fetch sel kept.getLast?)
    (hloop : removeLoop sel fuel c.sh.registry kept.getLast? = some d') :
    ∃ c', Goes a c c' ∧ c'.sh.registry = d' ∧ c'.pc = Function.update c.pc a .idle := by
  induction fuel generalizing c kept rest with
  | zero => cases hloop
  | succ fuel ih =>
      have hpre : ∀ pre, kept.getLast? = some pre → pre ∈ c.sh.nodes := by
        intro pre hlast
        rw [hnodes]
        exact List.mem_append_left rest (List.mem_of_getLast? hlast)
      obtain ⟨m, hm, -, hfetch⟩ := RemovePc.step_fetch sel hpre
      rw [← ha] at hfetch
      rw [LinkedList.cursor_eq hnodes] at hfetch
      rw [removeLoop, LinkedList.cursor_eq hnodes] at hloop
      cases rest with
      | nil =>
          cases hloop
          exact ⟨_, .head hfetch (.refl a _), hm, rfl⟩
      | cons nodeCur rest =>
          dsimp only [List.head?_cons] at hloop
          change _ = some (m, RemovePc.test sel kept.getLast? nodeCur) at hfetch
          by_cases hsel : sel nodeCur.sslnSrc = true
          · let m₁ : RemoveMemory :=
              { m.use (.compare nodeCur) |>.use (.stop nodeCur) with
                registry := sflowStopSource m.registry nodeCur }
            let m₂ : RemoveMemory :=
              { m₁.use (.unlink nodeCur) with registry := m₁.registry.unlink nodeCur }
            let c₂ := c.move a (m₂.use (.free nodeCur)) (.fetch sel kept.getLast?)
            have hgoes : ∀ {c'}, Goes a c₂ c' → Goes a c c' := by
              intro c' h
              refine .head hfetch (.head_move (RemovePc.step_test_of_pos hsel) ?_)
              exact .head_move rfl (.head_move rfl (.head_move rfl h))
            rw [if_pos hsel, ← hm] at hloop
            have hnodes₂ : c₂.sh.nodes = kept ++ rest := by
              refine nodes_unlink (d := m.registry) ?_
              rwa [hm]
            obtain ⟨c', hc', hreg, hpc⟩ := ih (c := c₂) hnodes₂ (Cfg.move_pc_self _ _ _ _) hloop
            refine ⟨c', hgoes hc', hreg, ?_⟩
            rw [hpc]
            exact Function.update_idem _ _ _
          · let c₂ := c.move a (m.use (.compare nodeCur)) (.fetch sel (some nodeCur))
            have hlast : (kept ++ [nodeCur]).getLast? = some nodeCur := List.getLast?_concat
            have hgoes : ∀ {c'}, Goes a c₂ c' → Goes a c c' := by
              intro c' h
              refine .head hfetch (.head_move ?_ h)
              rw [RemovePc.step, if_neg hsel]
            have hnodes₂ : c₂.sh.nodes = (kept ++ [nodeCur]) ++ rest := by
              rw [List.append_assoc, List.singleton_append, ← hnodes]
              exact congrArg (fun d : Registry => d.sflowAllSources.nodes) hm
            rw [if_neg hsel, ← hm, ← hlast] at hloop
            have ha₂ : c₂.pc a = .fetch sel (kept ++ [nodeCur]).getLast? := by
              rw [hlast]
              exact Cfg.move_pc_self _ _ _ _
            obtain ⟨c', hc', hreg, hpc⟩ := ih hnodes₂ ha₂ hloop
            refine ⟨c', hgoes hc', hreg, ?_⟩
            rw [hpc]
            exact Function.update_idem _ _ _

/-- A call that no other comes in between does what `sflow_remove_source` does. -/
theorem goes_sflowRemoveSource {fuel : Nat} {srcToRmType : SflowSourceType}
    {rsrc : SflowdDoorRsrc} {d' : Registry} (ha : c.pc a = .idle)
    (h : sflowRemoveSource fuel srcToRmType rsrc c.sh.registry = some d') :
    ∃ c₁ c', c.step (.call a fuel srcToRmType rsrc) = some c₁ ∧ Goes a c₁ c' ∧
      c'.sh.registry = d' ∧ c'.pc = c.pc := by
  have hbind : sflowRemoveSource fuel srcToRmType rsrc c.sh.registry =
      (removeTest fuel srcToRmType rsrc).bind fun sel =>
        removeLoop sel fuel c.sh.registry none := by
    simp only [sflowRemoveSource, removeTest, Option.bind_eq_bind, Option.bind_assoc,
      Option.bind_some]
  rw [hbind, Option.bind_eq_some_iff] at h
  obtain ⟨sel, hsel, hloop⟩ := h
  let c₁ := c.move a c.sh (.fetch sel none)
  have hfetch : c₁.pc a = .fetch sel ([] : List SourceNode).getLast? := Cfg.move_pc_self _ _ _ _
  obtain ⟨c', hgoes, hreg, hpc⟩ := goes_removeLoop fuel (List.nil_append _).symm hfetch hloop
  refine ⟨c₁, c', ?_, hgoes, hreg, ?_⟩
  · rw [Removers.step, ha, hsel]
    rfl
  · rw [hpc]
    change Function.update (Function.update c.pc a _) a .idle = c.pc
    rw [Function.update_idem, ← ha, Function.update_eq_self]

/-! ## Steps that get in the way -/

/-- A thread that is about to go on behind a node that has been freed will follow it. -/
theorem exists_goes_of_resume {node : SourceNode} (hresume : (c.pc a).resume = some node)
    (hfree : .free node ∈ c.sh.uses) : ∃ c', Goes a c c' ∧ ¬ SafeUses c'.sh.uses := by
  let Fatal (m : RemoveMemory) (pc : RemovePc) : Prop :=
    .free node ∈ m.uses → ∃ c', Goes a (c.move a m pc) c' ∧ ¬ SafeUses c'.sh.uses
  have next : ∀ {m m' pc pc'}, RemovePc.step m pc = some (m', pc') → m.uses ⊆ m'.uses →
      Fatal m' pc' → Fatal m pc := by
    intro m m' pc pc' hstep huses hfatal hin
    obtain ⟨c', hgoes, hc'⟩ := hfatal (huses hin)
    exact ⟨c', hgoes.head_move hstep, hc'⟩
  have later : ∀ (m : RemoveMemory) (u : NodeUse), m.uses ⊆ (m.use u).uses :=
    fun _ _ ↦ List.subset_append_left _ _
  -- from the point where the node is followed back to the test
  have atFetch : ∀ m sel, Fatal m (.fetch sel (some node)) := fun m sel h ↦
    ⟨_, .head_move rfl (.refl a _), not_safeUses_concat fun hnot ↦ hnot h⟩
  have atFree : ∀ m sel nodeCur, Fatal m (.free sel (some node) nodeCur) :=
    fun m sel nodeCur ↦ next rfl (later _ _) (atFetch _ sel)
  have atUnlink : ∀ m sel nodeCur, Fatal m (.unlink sel (some node) nodeCur) :=
    fun m sel nodeCur ↦ next rfl (later _ _) (atFree _ sel nodeCur)
  have atStop : ∀ m sel nodeCur, Fatal m (.stop sel (some node) nodeCur) :=
    fun m sel nodeCur ↦ next rfl (later _ _) (atUnlink _ sel nodeCur)
  have atTest : ∀ m sel nodeCur, sel nodeCur.sslnSrc = true →
      Fatal m (.test sel (some node) nodeCur) := by
    intro m sel nodeCur hsel
    exact next (RemovePc.step_test_of_pos hsel) (later _ _) (atStop _ sel nodeCur)
  rw [← c.move_self a]
  cases hpc : c.pc a with
  | idle | lost =>
      rw [hpc] at hresume
      cases hresume
  | fetch sel nodePre =>
      rw [hpc] at hresume
      cases hresume
      exact atFetch _ sel hfree
  | test sel nodePre nodeCur =>
      rw [hpc, RemovePc.resume, Option.ite_none_right_eq_some] at hresume
      obtain ⟨hsel, rfl⟩ := hresume
      exact atTest _ sel nodeCur hsel hfree
  | stop sel nodePre nodeCur =>
      rw [hpc] at hresume
      cases hresume
      exact atStop _ sel nodeCur hfree
  | unlink sel nodePre nodeCur =>
      rw [hpc] at hresume
      cases hresume
      exact atUnlink _ sel nodeCur hfree
  | free sel nodePre nodeCur =>
      rw [hpc] at hresume
      cases hresume
      exact atFree _ sel nodeCur hfree

/-- A thread that has a node in hand, and has not stopped its source, will use the source. -/
theorem exists_goes_of_cur {node : SourceNode} (hcur : (c.pc a).cur = some node)
    (hpast : (c.pc a).past ≠ some node) (hstop : .stop node ∈ c.sh.uses) :
    ∃ c', Goes a c c' ∧ ¬ SafeUses c'.sh.uses := by
  rw [← c.move_self a]
  cases hpc : c.pc a <;> rw [hpc] at hcur hpast <;> cases hcur
  case test | stop =>
    exact ⟨_, .head_move rfl (.refl a _), not_safeUses_concat fun hnot ↦ hnot.1 hstop⟩
  case unlink | free => exact absurd rfl hpast

/-- The condition on the steps is none too strong: where all has been well, a step that gets in
the way of another thread leaves one that has only to go on. -/
theorem exists_goes_of_not_apart (h : c.Inv) (hapart : ¬ c.Apart a) {c' : Removers A}
    (hstep : c.step (.go a) = some c') :
    ∃ b c'', Goes b c' c'' ∧ ¬ SafeUses c''.sh.uses := by
  obtain ⟨⟨m, pc⟩, hpc, rfl⟩ := Option.map_eq_some_iff.mp hstep
  cases ha : c.pc a with
  | idle | test | unlink | lost =>
      refine absurd ?_ hapart
      rw [Apart, ha]
      trivial
  | fetch sel nodePre =>
      simp only [Apart, ha, ApartAt, not_forall, not_not, exists_prop] at hapart
      obtain ⟨node, hnode, b, hb⟩ := hapart
      have hstop : .stop node ∈ c.sh.uses := by
        have hheld := (h.sound b).held
        cases hpcb : c.pc b <;> rw [hpcb] at hb hheld <;> cases hb
        exact hheld.1
      have hpre : ∀ pre, nodePre = some pre → pre ∈ c.sh.nodes := by
        rintro pre rfl
        exact LinkedList.mem_of_nextIn_self hnode
      obtain ⟨m', -, huses, hfetch⟩ := RemovePc.step_fetch sel hpre
      rw [Option.mem_def.mp hnode, ← ha, hpc] at hfetch
      cases hfetch
      refine ⟨a, exists_goes_of_cur ?_ ?_ (huses hstop)⟩
      · rw [Cfg.move_pc_self]
        rfl
      · rw [Cfg.move_pc_self]
        exact (Option.some_ne_none node).symm
  | stop sel nodePre nodeCur =>
      simp only [Apart, ha, ApartAt, not_forall, not_not] at hapart
      obtain ⟨b, hb, hcur⟩ := hapart
      rw [ha] at hpc
      cases hpc
      refine ⟨b, exists_goes_of_cur ?_ ?_ (List.mem_append_right _ List.mem_cons_self)⟩
      · rwa [Cfg.move_pc_of_ne _ _ _ _ hb]
      · rw [Cfg.move_pc_of_ne _ _ _ _ hb]
        intro hpast
        exact h.alone b a nodeCur hb hpast (by rw [ha]; rfl)
  | free sel nodePre nodeCur =>
      simp only [Apart, ha, ApartAt, not_forall, not_not] at hapart
      obtain ⟨b, hb, hresume⟩ := hapart
      rw [ha] at hpc
      cases hpc
      refine ⟨b, exists_goes_of_resume ?_ (List.mem_append_right _ List.mem_cons_self)⟩
      rwa [Cfg.move_pc_of_ne _ _ _ _ hb]

/-! ## Runs -/

/-- However many threads remove sources at a time, for whatever requests and in whatever order
they take their steps: as long as they keep apart, every source is stopped and freed at most
once, and nothing is followed or compared through that has been freed. -/
theorem safeUses_of_undisturbed {d : Registry} {acts : List (RemoveAction A)} {c : Removers A}
    (hmeets : Meets Removers.step Undisturbed (init d) acts)
    (hrun : run Removers.step (init d) acts = some c) : SafeUses c.sh.uses :=
  (run_induction_of_meets (fun _ _ _ h hact hstep ↦ h.step hact hstep) (inv_init d) hmeets
    hrun).safe

section Fintype

variable [Fintype A]

instance (c : Removers A) (a : A) : (pc : RemovePc) → Decidable (c.ApartAt a pc)
  | .fetch _ nodePre => inferInstanceAs (Decidable
      (∀ node ∈ c.sh.registry.sflowAllSources.cursor nodePre, ∀ b, (c.pc b).stopped ≠ some node))
  | .stop _ _ nodeCur =>
      inferInstanceAs (Decidable (∀ b, b ≠ a → (c.pc b).cur ≠ some nodeCur))
  | .free _ _ nodeCur =>
      inferInstanceAs (Decidable (∀ b, b ≠ a → (c.pc b).resume ≠ some nodeCur))
  | .idle | .test .. | .unlink .. | .lost => inferInstanceAs (Decidable True)

instance (c : Removers A) : (act : RemoveAction A) → Decidable (c.Undisturbed act)
  | .call .. => inferInstanceAs (Decidable True)
  | .go a => inferInstanceAs (Decidable (c.ApartAt a (c.pc a)))

end Fintype

/-- Two threads that are both to remove everything, and where they go from there. -/
def bothAll (goes : List (Fin 2)) : List (RemoveAction (Fin 2)) :=
  let all : SflowdDoorRsrc := ⟨TypeWord.all.str, TypeWord.all.str⟩
  .call 0 4 .flowsample all :: .call 1 4 .flowsample all :: goes.map .go

/-- The one removes the first of two sources while the other removes the second. -/
theorem safeUses_of_undisturbed_net1 :
    ∃ c, Meets Removers.step Undisturbed (init net1AndNet10)
        (bothAll [0, 0, 0, 0, 1, 0, 1, 1, 1, 0, 1, 1]) ∧
      run Removers.step (init net1AndNet10) (bothAll [0, 0, 0, 0, 1, 0, 1, 1, 1, 0, 1, 1]) =
        some c ∧
      SafeUses c.sh.uses := by
  have hmeets : Meets Removers.step Undisturbed (init net1AndNet10)
      (bothAll [0, 0, 0, 0, 1, 0, 1, 1, 1, 0, 1, 1]) := by decide +kernel
  have hsome : (run Removers.step (init net1AndNet10)
      (bothAll [0, 0, 0, 0, 1, 0, 1, 1, 1, 0, 1, 1])).isSome = true := by decide +kernel
  obtain ⟨c, hrun⟩ := Option.isSome_iff_exists.mp hsome
  exact ⟨c, hmeets, hrun, safeUses_of_undisturbed hmeets hrun⟩

/-- Both fetch the first source, and both stop it. -/
theorem exists_not_safeUses :
    ∃ c, run Removers.step (init net1AndNet10) (bothAll [0, 1, 0, 1, 0, 1]) = some c ∧
      ¬ SafeUses c.sh.uses := by
  have huses : (run Removers.step (init net1AndNet10) (bothAll [0, 1, 0, 1, 0, 1])).map
      (fun c => c.sh.uses) =
        net1AndNet10.sflowAllSources.head.map fun node =>
          [.compare node, .compare node, .stop node, .stop node] := by decide +kernel
  obtain ⟨c, hrun, huses⟩ := Option.map_eq_some_iff.mp huses
  refine ⟨c, hrun, fun hsafe ↦ ?_⟩
  rw [huses] at hsafe
  exact (hsafe [.compare _, .compare _, .stop _] (.stop _) (List.prefix_refl _)).1 (by simp)

end Removers

end Sflow

import Mathlib.Logic.Function.Basic
import Mathlib.Logic.Relation
import Sflow.Run.Basic

/-!
# Threads that take locks

The code of a thread is taken for what it does to locks.  What it computes in between is
left out: of a test both outcomes are possible, and of a loop any number of rounds.

Code that takes locks only in increasing order, and ends each section that it has begun
(`KeepsOrder`), can be put together from pieces that do.  Any number of threads that run
such code, in any order, do not lead to a deadlock (`DeadlockFree`).
-/

namespace Sflow.Run

variable {M T : Type*}

/-! ## Code and threads -/

/-- What a piece of code does to locks. -/
inductive LockCode (M : Type*) where
  /-- Code that touches no lock, and returns. -/
  | skip
  | lock (m : M)
  | unlock (m : M)
  | seq (p q : LockCode M)
  | either (p q : LockCode M)
  | loop (p : LockCode M)
  /-- A point at which the thread may be cancelled. -/
  | pause
  /-- The process ends, and all its threads with it. -/
  | halt
deriving DecidableEq

/-- One piece after the other. -/
def LockCode.block : List (LockCode M) → LockCode M
  | [] => skip
  | p :: ps => seq p (block ps)

/-- The code that is left to every thread, as a stack, and the owner of every lock. -/
structure Threads (M T : Type*) where
  rest : T → List (LockCode M)
  owner : M → Option T

namespace Threads

def init (code : T → LockCode M) : Threads M T := ⟨fun t => [code t], fun _ => none⟩

variable [DecidableEq M] [DecidableEq T]

/-- Thread `t` goes on with the given code. -/
def goOn (s : Threads M T) (t : T) (k : List (LockCode M)) : Threads M T :=
  { s with rest := Function.update s.rest t k }

/-- Lock `m` gets another owner, or none. -/
def pass (s : Threads M T) (m : M) (o : Option T) : Threads M T :=
  { s with owner := Function.update s.owner m o }

/-- A thread takes its next step.  The label tells which of two ways it goes, where there are
two: into a branch, into another round, or on from where it may be cancelled. -/
def step (s : Threads M T) : T × Bool → Option (Threads M T)
  | (t, way) =>
      match s.rest t with
      | [] => none
      | .skip :: k => some (s.goOn t k)
      | .lock m :: k => if s.owner m = none then some ((s.goOn t k).pass m (some t)) else none
      | .unlock m :: k => some ((s.goOn t k).pass m none)
      | .seq p q :: k => some (s.goOn t (p :: q :: k))
      | .either p q :: k => some (s.goOn t ((if way then p else q) :: k))
      | .loop p :: k => some (s.goOn t (if way then p :: .loop p :: k else k))
      | .pause :: k => some (s.goOn t (if way then k else []))
      | .halt :: _ => some ⟨fun _ => [], fun _ => none⟩

end Threads

/-! ## Keeping an order -/

/-- Begun with the locks `held`, the last one taken first, the code takes a lock only if it comes
behind all that are held, gives back the last one taken, and leaves `held'` when it returns. -/
inductive KeepsOrder (rank : M → Nat) : List M → LockCode M → List M → Prop
  | skip {held} : KeepsOrder rank held .skip held
  | lock {held m} : (∀ h ∈ held, rank h < rank m) → KeepsOrder rank held (.lock m) (m :: held)
  | unlock {held m} : KeepsOrder rank (m :: held) (.unlock m) held
  | seq {held held' held'' p q} : KeepsOrder rank held p held' → KeepsOrder rank held' q held'' →
      KeepsOrder rank held (.seq p q) held''
  | either {held held' p q} : KeepsOrder rank held p held' → KeepsOrder rank held q held' →
      KeepsOrder rank held (.either p q) held'
  | loop {held p} : KeepsOrder rank held p held → KeepsOrder rank held (.loop p) held
  | pause : KeepsOrder rank [] .pause []
  | halt {held held'} : KeepsOrder rank held .halt held'

namespace KeepsOrder

variable {rank : M → Nat} {held held' held'' : List M} {m : M}

theorem block_nil : KeepsOrder rank held (.block []) held := .skip

theorem block_cons {p : LockCode M} {ps : List (LockCode M)} (hp : KeepsOrder rank held p held')
    (hps : KeepsOrder rank held' (.block ps) held'') :
    KeepsOrder rank held (.block (p :: ps)) held'' := .seq hp hps

/-- Code that leaves the locks as they are, piece by piece. -/
theorem block {ps : List (LockCode M)} (h : ∀ p ∈ ps, KeepsOrder rank held p held) :
    KeepsOrder rank held (.block ps) held := by
  induction ps with
  | nil => exact block_nil
  | cons p ps ih =>
      have hp := h p List.mem_cons_self
      exact block_cons hp (ih fun q hq ↦ h q (List.mem_cons_of_mem p hq))

/-- A section that a lock guards. -/
theorem guarded {p : LockCode M} (hm : ∀ h ∈ held, rank h < rank m)
    (hp : KeepsOrder rank (m :: held) p (m :: held)) :
    KeepsOrder rank held (.block [.lock m, p, .unlock m]) held :=
  block_cons (.lock hm) (block_cons hp (block_cons .unlock block_nil))

end KeepsOrder

/-- All that is left to a thread keeps the order, and in the end no lock is held. -/
inductive RestKeepsOrder (rank : M → Nat) : List M → List (LockCode M) → Prop
  | nil : RestKeepsOrder rank [] []
  | cons {held held' p k} : KeepsOrder rank held p held' → RestKeepsOrder rank held' k →
      RestKeepsOrder rank held (p :: k)

namespace RestKeepsOrder

variable {rank : M → Nat} {held : List M} {m : M} {p q : LockCode M} {k : List (LockCode M)}

theorem of_skip (h : RestKeepsOrder rank held (.skip :: k)) : RestKeepsOrder rank held k := by
  cases h with
  | cons hp hk =>
      cases hp
      exact hk

theorem of_lock (h : RestKeepsOrder rank held (.lock m :: k)) :
    (∀ h ∈ held, rank h < rank m) ∧ RestKeepsOrder rank (m :: held) k := by
  cases h with
  | cons hp hk =>
      cases hp with
      | lock hm => exact ⟨hm, hk⟩

theorem of_unlock (h : RestKeepsOrder rank held (.unlock m :: k)) :
    ∃ held', held = m :: held' ∧ RestKeepsOrder rank held' k := by
  cases h with
  | cons hp hk =>
      cases hp
      exact ⟨_, rfl, hk⟩

theorem of_seq (h : RestKeepsOrder rank held (.seq p q :: k)) :
    RestKeepsOrder rank held (p :: q :: k) := by
  cases h with
  | cons hp hk =>
      cases hp with
      | seq hp hq => exact .cons hp (.cons hq hk)

theorem of_either (h : RestKeepsOrder rank held (.either p q :: k)) :
    RestKeepsOrder rank held (p :: k) ∧ RestKeepsOrder rank held (q :: k) := by
  cases h with
  | cons hp hk =>
      cases hp with
      | either hp hq => exact ⟨.cons hp hk, .cons hq hk⟩

theorem of_loop (h : RestKeepsOrder rank held (.loop p :: k)) :
    RestKeepsOrder rank held (p :: .loop p :: k) ∧ RestKeepsOrder rank held k := by
  cases h with
  | cons hp hk =>
      cases hp with
      | loop hp => exact ⟨.cons hp (.cons (.loop hp) hk), hk⟩

theorem of_pause (h : RestKeepsOrder rank held (.pause :: k)) :
    held = [] ∧ RestKeepsOrder rank held k := by
  cases h with
  | cons hp hk =>
      cases hp
      exact ⟨rfl, hk⟩

end RestKeepsOrder

/-! ## The ways on -/

/-- What is seen of a thread on its way. -/
inductive LockEvent (M : Type*) where
  | lock (m : M)
  | unlock (m : M)
  | halt
deriving DecidableEq

/-- The code that is left can end with these events. -/
inductive Ends : List (LockCode M) → List (LockEvent M) → Prop
  | nil : Ends [] []
  | skip {k es} : Ends k es → Ends (.skip :: k) es
  | lock {m k es} : Ends k es → Ends (.lock m :: k) (.lock m :: es)
  | unlock {m k es} : Ends k es → Ends (.unlock m :: k) (.unlock m :: es)
  | seq {p q k es} : Ends (p :: q :: k) es → Ends (.seq p q :: k) es
  | left {p q k es} : Ends (p :: k) es → Ends (.either p q :: k) es
  | right {p q k es} : Ends (q :: k) es → Ends (.either p q :: k) es
  | again {p k es} : Ends (p :: .loop p :: k) es → Ends (.loop p :: k) es
  | enough {p k es} : Ends k es → Ends (.loop p :: k) es
  | resume {k es} : Ends k es → Ends (.pause :: k) es
  | cancel {k} : Ends (.pause :: k) []
  | halt {k} : Ends (.halt :: k) [.halt]

/-- Lock `m` is given back on this way, or the process ends. -/
def GivesBack (m : M) (es : List (LockEvent M)) : Prop := .unlock m ∈ es ∨ .halt ∈ es

theorem GivesBack.cons {m : M} {es : List (LockEvent M)} (h : GivesBack m es) (e : LockEvent M) :
    GivesBack m (e :: es) := h.imp (List.mem_cons_of_mem e) (List.mem_cons_of_mem e)

section Ends

variable {rank : M → Nat} {held : List M} {k : List (LockCode M)} {es : List (LockEvent M)}

/-- What is held is given back on every way. -/
theorem RestKeepsOrder.givesBack (h : RestKeepsOrder rank held k) (hes : Ends k es) {m : M}
    (hm : m ∈ held) : GivesBack m es := by
  induction hes generalizing held with
  | nil =>
      cases h
      cases hm
  | skip _ ih => exact ih h.of_skip hm
  | @lock n _ _ _ ih => exact (ih h.of_lock.2 (List.mem_cons_of_mem n hm)).cons _
  | unlock _ ih =>
      obtain ⟨held', rfl, hk⟩ := h.of_unlock
      rcases List.mem_cons.mp hm with rfl | hm
      · exact .inl List.mem_cons_self
      · exact (ih hk hm).cons _
  | seq _ ih => exact ih h.of_seq hm
  | left _ ih => exact ih h.of_either.1 hm
  | right _ ih => exact ih h.of_either.2 hm
  | again _ ih => exact ih h.of_loop.1 hm
  | enough _ ih => exact ih h.of_loop.2 hm
  | resume _ ih => exact ih h.of_pause.2 hm
  | cancel =>
      rw [h.of_pause.1] at hm
      cases hm
  | halt => exact .inr List.mem_cons_self

/-- Every lock that is taken on a way is given back on the rest of it. -/
def TakesBack (es : List (LockEvent M)) : Prop :=
  ∀ pre m post, es = pre ++ .lock m :: post → GivesBack m post

theorem takesBack_nil : TakesBack ([] : List (LockEvent M)) := by
  intro pre m post hes
  cases pre <;> cases hes

theorem TakesBack.cons {e : LockEvent M} (h : TakesBack es)
    (he : ∀ m, e = .lock m → GivesBack m es) : TakesBack (e :: es) := by
  intro pre m post hes
  cases pre with
  | nil =>
      obtain ⟨hhead, rfl⟩ := List.cons.inj hes
      exact he m hhead
  | cons e' pre => exact h pre m post (List.cons.inj hes).2

theorem RestKeepsOrder.takesBack (h : RestKeepsOrder rank held k) (hes : Ends k es) :
    TakesBack es := by
  induction hes generalizing held with
  | nil => exact takesBack_nil
  | skip _ ih => exact ih h.of_skip
  | lock hes ih =>
      refine (ih h.of_lock.2).cons fun m hm ↦ ?_
      cases hm
      exact h.of_lock.2.givesBack hes List.mem_cons_self
  | unlock _ ih =>
      obtain ⟨held', rfl, hk⟩ := h.of_unlock
      refine (ih hk).cons fun m hm ↦ ?_
      cases hm
  | seq _ ih => exact ih h.of_seq
  | left _ ih => exact ih h.of_either.1
  | right _ ih => exact ih h.of_either.2
  | again _ ih => exact ih h.of_loop.1
  | enough _ ih => exact ih h.of_loop.2
  | resume _ ih => exact ih h.of_pause.2
  | cancel => exact takesBack_nil
  | halt =>
      refine takesBack_nil.cons fun m hm ↦ ?_
      cases hm

end Ends

/-! ## Any number of threads -/

namespace Threads

section Deadlock

variable (s : Threads M T)

/-- The thread can go on only with the lock. -/
def Wants (t : T) (m : M) : Prop := ∃ k, s.rest t = .lock m :: k

/-- The thread can go on only when the other one has given back a lock. -/
def WaitsFor (t t' : T) : Prop := ∃ m, s.Wants t m ∧ s.owner m = some t'

variable [DecidableEq M] [DecidableEq T]

/-- No thread waits for itself, directly or by way of others, and what is taken is given back. -/
structure DeadlockFree : Prop where
  not_wants : ∀ t m, s.owner m = some t → ¬s.Wants t m
  acyclic : ∀ t, ¬Relation.TransGen s.WaitsFor t t
  /-- A thread that waits does so, in the end, for one that can go on. -/
  progress : ∀ t t', s.WaitsFor t t' →
    ∃ u, Relation.TransGen s.WaitsFor t u ∧ ∀ way, s.step (u, way) ≠ none
  unlocks_own : ∀ t m k, s.rest t = .unlock m :: k → s.owner m = some t
  givesBack : ∀ t m es, s.owner m = some t → Ends (s.rest t) es → GivesBack m es
  takesBack : ∀ t es, Ends (s.rest t) es → TakesBack es

end Deadlock

/-- What each thread holds, the last lock taken first. -/
structure Holds (rank : M → Nat) (s : Threads M T) (held : T → List M) : Prop where
  keeps : ∀ t, RestKeepsOrder rank (held t) (s.rest t)
  mem_iff : ∀ t m, m ∈ held t ↔ s.owner m = some t
  sorted : ∀ t, (held t).Pairwise fun m m' => rank m' < rank m

section Step

variable {rank : M → Nat} {s : Threads M T} {held : T → List M} {t : T} {m : M}
  {k : List (LockCode M)}

theorem holds_init {code : T → LockCode M} (h : ∀ t, KeepsOrder rank [] (code t) []) :
    Holds rank (init code) fun _ => [] where
  keeps t := .cons (h t) .nil
  mem_iff t m := iff_of_false List.not_mem_nil fun howner ↦ by cases howner
  sorted _ := .nil

namespace Holds

variable [DecidableEq T]

/-- A thread that holds other locks than before. -/
theorem update (h : Holds rank s held) {l : List M} (hk : RestKeepsOrder rank l k)
    (hl : l.Pairwise fun m m' => rank m' < rank m) {owner : M → Option T}
    (hself : ∀ m, m ∈ l ↔ owner m = some t)
    (hother : ∀ u m, u ≠ t → (owner m = some u ↔ s.owner m = some u)) :
    Holds rank ⟨Function.update s.rest t k, owner⟩ (Function.update held t l) where
  keeps u := by
    dsimp only
    by_cases hu : u = t
    · subst hu
      rwa [Function.update_self, Function.update_self]
    · rw [Function.update_of_ne hu, Function.update_of_ne hu]
      exact h.keeps u
  mem_iff u m := by
    by_cases hu : u = t
    · subst hu
      rw [Function.update_self]
      exact hself m
    · rw [Function.update_of_ne hu, h.mem_iff, hother u m hu]
  sorted u := by
    by_cases hu : u = t
    · subst hu
      rwa [Function.update_self]
    · rw [Function.update_of_ne hu]
      exact h.sorted u

/-- A thread that goes on with the locks that it holds. -/
theorem goOn (h : Holds rank s held) (hk : RestKeepsOrder rank (held t) k) :
    Holds rank (s.goOn t k) held := by
  have hupdate := h.update hk (h.sorted t) (h.mem_iff t) fun _ _ _ ↦ Iff.rfl
  rwa [Function.update_eq_self] at hupdate

variable [DecidableEq M]

/-- A thread takes a lock that is free. -/
theorem lock (h : Holds rank s held) (hrest : s.rest t = .lock m :: k) (hfree : s.owner m = none) :
    Holds rank ((s.goOn t k).pass m (some t)) (Function.update held t (m :: held t)) := by
  have hkeeps := h.keeps t
  rw [hrest] at hkeeps
  obtain ⟨hm, hk⟩ := hkeeps.of_lock
  refine h.update hk (List.pairwise_cons.mpr ⟨hm, h.sorted t⟩) (fun n ↦ ?_) fun u n hu ↦ ?_
  · rw [List.mem_cons]
    by_cases hn : n = m
    · subst hn
      simp
    · simp only [hn, false_or, Threads.goOn, Function.update_of_ne hn, h.mem_iff]
  · by_cases hn : n = m
    · subst hn
      simp [hfree, Ne.symm hu]
    · simp [Threads.goOn, hn]

/-- A thread gives back the lock that it has taken last. -/
theorem unlock (h : Holds rank s held) (hrest : s.rest t = .unlock m :: k) :
    ∃ l, held t = m :: l ∧
      Holds rank ((s.goOn t k).pass m none) (Function.update held t l) := by
  have hkeeps := h.keeps t
  rw [hrest] at hkeeps
  obtain ⟨l, hl, hk⟩ := hkeeps.of_unlock
  have hsorted := h.sorted t
  rw [hl] at hsorted
  obtain ⟨hbelow, hsorted⟩ := List.pairwise_cons.mp hsorted
  have hown : s.owner m = some t := (h.mem_iff t m).mp (hl ▸ List.mem_cons_self)
  have hnot : m ∉ l := fun hm ↦ Nat.lt_irrefl _ (hbelow m hm)
  refine ⟨l, hl, h.update hk hsorted (fun n ↦ ?_) fun u n hu ↦ ?_⟩
  · by_cases hn : n = m
    · subst hn
      simp [hnot]
    · have hmem := h.mem_iff t n
      rw [hl, List.mem_cons, or_iff_right hn] at hmem
      simp [Threads.goOn, hn, hmem]
  · by_cases hn : n = m
    · subst hn
      simp [hown, Ne.symm hu]
    · simp [Threads.goOn, hn]

/-- The order is kept with every step of any thread. -/
theorem step (h : Holds rank s held) {l : T × Bool} {s' : Threads M T}
    (hstep : s.step l = some s') : ∃ held', Holds rank s' held' := by
  obtain ⟨t, way⟩ := l
  have hkeeps := h.keeps t
  rw [Threads.step] at hstep
  split at hstep
  · cases hstep
  · next hrest =>
      rw [hrest] at hkeeps
      cases hstep
      exact ⟨held, h.goOn hkeeps.of_skip⟩
  · next hrest =>
      split at hstep
      · next hfree =>
          cases hstep
          exact ⟨_, h.lock hrest hfree⟩
      · cases hstep
  · next hrest =>
      cases hstep
      obtain ⟨l, -, hl⟩ := h.unlock hrest
      exact ⟨_, hl⟩
  · next hrest =>
      rw [hrest] at hkeeps
      cases hstep
      exact ⟨held, h.goOn hkeeps.of_seq⟩
  · next hrest =>
      rw [hrest] at hkeeps
      cases hstep
      refine ⟨held, h.goOn ?_⟩
      cases way
      · exact hkeeps.of_either.2
      · exact hkeeps.of_either.1
  · next hrest =>
      rw [hrest] at hkeeps
      cases hstep
      refine ⟨held, h.goOn ?_⟩
      cases way
      · exact hkeeps.of_loop.2
      · exact hkeeps.of_loop.1
  · next hrest =>
      rw [hrest] at hkeeps
      cases hstep
      obtain ⟨hnone, hk⟩ := hkeeps.of_pause
      refine ⟨held, h.goOn ?_⟩
      cases way
      · rw [hnone]
        exact .nil
      · exact hk
  · cases hstep
    exact ⟨fun _ => [], fun _ ↦ .nil, fun _ _ ↦ iff_of_false List.not_mem_nil (by simp),
      fun _ ↦ .nil⟩

end Holds

end Step

section Waits

variable {rank : M → Nat} {s : Threads M T} {held : T → List M} {t t' : T} {m m' : M}

theorem Wants.eq (h : s.Wants t m) (h' : s.Wants t m') : m = m' := by
  obtain ⟨k, hk⟩ := h
  obtain ⟨k', hk'⟩ := h'
  rw [hk] at hk'
  cases hk'
  rfl

/-- A thread wants only what comes behind all that it holds. -/
theorem Holds.lt_of_wants (h : Holds rank s held) (howner : s.owner m = some t)
    (hwants : s.Wants t m') : rank m < rank m' := by
  obtain ⟨k, hk⟩ := hwants
  have hkeeps := h.keeps t
  rw [hk] at hkeeps
  exact hkeeps.of_lock.1 m ((h.mem_iff t m).mpr howner)

/-- So what is wanted grows from each thread to the one that it waits for. -/
theorem Holds.lt_of_transGen (h : Holds rank s held) (hwaits : Relation.TransGen s.WaitsFor t t')
    (hwants : s.Wants t m) (hwants' : s.Wants t' m') : rank m < rank m' := by
  induction hwaits generalizing m' with
  | single hwaits =>
      obtain ⟨n, hn, howner⟩ := hwaits
      rw [hwants.eq hn]
      exact h.lt_of_wants howner hwants'
  | tail _ hwaits ih =>
      obtain ⟨n, hn, howner⟩ := hwaits
      exact Nat.lt_trans (ih hn) (h.lt_of_wants howner hwants')

theorem Holds.acyclic (h : Holds rank s held) (t : T) : ¬Relation.TransGen s.WaitsFor t t := by
  intro hcycle
  obtain ⟨_, ⟨m, hm, _⟩, _⟩ := Relation.TransGen.head'_iff.mp hcycle
  exact Nat.lt_irrefl _ (h.lt_of_transGen hcycle hm hm)

/-- The owner of a lock has code left. -/
theorem Holds.rest_ne_nil (h : Holds rank s held) (howner : s.owner m = some t) :
    s.rest t ≠ [] := by
  intro hnil
  have hkeeps := h.keeps t
  rw [hnil] at hkeeps
  have hm := (h.mem_iff t m).mpr howner
  cases hheld : held t with
  | nil =>
      rw [hheld] at hm
      cases hm
  | cons n l =>
      rw [hheld] at hkeeps
      cases hkeeps

variable [DecidableEq M] [DecidableEq T]

/-- A thread that has code left and wants no lock of another one can take a step. -/
theorem step_ne_none (hrest : s.rest t ≠ []) (hfree : ∀ m, s.Wants t m → s.owner m = none)
    (way : Bool) : s.step (t, way) ≠ none := by
  rw [step]
  split
  · next hnil => exact absurd hnil hrest
  · exact Option.some_ne_none _
  · next hlock =>
      rw [if_pos (hfree _ ⟨_, hlock⟩)]
      exact Option.some_ne_none _
  all_goals exact Option.some_ne_none _

/-- Following those who wait, one comes to a thread that can go on. -/
theorem Holds.progress (h : Holds rank s held) {n : Nat} (hrank : ∀ m, rank m ≤ n) {t t' : T}
    {m : M} (hwants : s.Wants t m) (howner : s.owner m = some t') :
    ∃ u, Relation.TransGen s.WaitsFor t u ∧ ∀ way, s.step (u, way) ≠ none := by
  have hwaits : s.WaitsFor t t' := ⟨m, hwants, howner⟩
  by_cases hblocked : ∃ m' u, s.Wants t' m' ∧ s.owner m' = some u
  · obtain ⟨m', u, hwants', howner'⟩ := hblocked
    have hlt : rank m < rank m' := h.lt_of_wants howner hwants'
    obtain ⟨v, hv, hstep⟩ := h.progress hrank hwants' howner'
    exact ⟨v, .head hwaits hv, hstep⟩
  · refine ⟨t', .single hwaits, step_ne_none (h.rest_ne_nil howner) fun m' hwants' ↦ ?_⟩
    cases howner' : s.owner m' with
    | none => rfl
    | some u => exact absurd ⟨m', u, hwants', howner'⟩ hblocked
termination_by n - rank m
decreasing_by
  have hle := hrank m'
  omega

theorem Holds.deadlockFree (h : Holds rank s held) {n : Nat} (hrank : ∀ m, rank m ≤ n) :
    s.DeadlockFree where
  not_wants t m howner hwants := Nat.lt_irrefl _ (h.lt_of_wants howner hwants)
  acyclic := h.acyclic
  progress t t' hwaits := by
    obtain ⟨m, hwants, howner⟩ := hwaits
    exact h.progress hrank hwants howner
  unlocks_own t m k hrest := by
    have hkeeps := h.keeps t
    rw [hrest] at hkeeps
    obtain ⟨l, hl, -⟩ := hkeeps.of_unlock
    exact (h.mem_iff t m).mp (hl ▸ List.mem_cons_self)
  givesBack t m es howner hes := (h.keeps t).givesBack hes ((h.mem_iff t m).mpr howner)
  takesBack t es hes := (h.keeps t).takesBack hes

/-- Threads whose code keeps an order never lead to a deadlock. -/
theorem deadlockFree_of_keepsOrder {code : T → LockCode M}
    (hcode : ∀ t, KeepsOrder rank [] (code t) []) {n : Nat} (hrank : ∀ m, rank m ≤ n)
    {ls : List (T × Bool)} (hrun : run step (init code) ls = some s) : s.DeadlockFree := by
  obtain ⟨held, hheld⟩ : ∃ held, Holds rank s held := by
    have hstep (s : Threads M T) (l : T × Bool) (s' : Threads M T)
        (hs : ∃ held, Holds rank s held) (hstep : s.step l = some s') :
        ∃ held, Holds rank s' held := by
      obtain ⟨held, hheld⟩ := hs
      exact hheld.step hstep
    exact run_induction hstep ⟨_, holds_init hcode⟩ hrun
  exact hheld.deadlockFree hrank

end Waits

end Threads

end Sflow.Run

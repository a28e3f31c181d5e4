import Sflow.Run.Basic
import Sflow.Source.Add

/-!
# The largest descriptor

`maxfd` goes up when a source is added, and is looked for again when the source with the
largest descriptor is stopped.  Nothing is found, and `maxfd` stays, when that source was
the last one.
-/

namespace Sflow

open C

namespace Registry

variable {d : Registry}

/-! ## Looking for a slot in use -/

/-- What the search ends with: the last slot in use below `n`, if there is one. -/
theorem rescan_spec {arr : ExpandingArray Nat} {maxfd : Int} {n : Nat}
    (h : n ≤ arr.eaArray.length) :
    (rescan arr maxfd n = maxfd ∧ ∀ i < n, arr.slot i = none) ∨
      ∃ i < n, rescan arr maxfd n = i ∧ arr.slot i ≠ none ∧
        ∀ j < n, arr.slot j ≠ none → j ≤ i := by
  induction n with
  | zero => exact .inl ⟨rfl, fun i hi ↦ absurd hi (Nat.not_lt_zero i)⟩
  | succ n ih =>
      rw [rescan, expandingArrayGet_eq_ok h]
      cases hslot : arr.slot n with
      | some addr =>
          refine .inr ⟨n, Nat.lt_succ_self n, rfl, ?_, fun j hj _ ↦ Nat.le_of_lt_succ hj⟩
          rw [hslot]
          exact Option.some_ne_none addr
      | none =>
          rcases ih (Nat.le_of_succ_le h) with ⟨heq, hall⟩ | ⟨i, hi, heq, hused, hlast⟩
          · refine .inl ⟨heq, fun i hi ↦ ?_⟩
            rcases Nat.lt_succ_iff_lt_or_eq.mp hi with hi | rfl
            · exact hall i hi
            · exact hslot
          · refine .inr ⟨i, Nat.lt_succ_of_lt hi, heq, hused, fun j hj hne ↦ ?_⟩
            rcases Nat.lt_succ_iff_lt_or_eq.mp hj with hj | rfl
            · exact hlast j hj hne
            · exact absurd hslot hne

/-! ## Exactness -/

/-- `maxfd` is the largest slot in use, or -1 if there is none, and so it is negative exactly
if nothing is watched. -/
structure MaxfdExact (d : Registry) : Prop where
  largest : ∀ i : Nat, d.sflowFdSources.slot i ≠ none →
    (∀ j, d.sflowFdSources.slot j ≠ none → j ≤ i) → d.maxfd = i
  none : (∀ i, d.sflowFdSources.slot i = none) → d.maxfd = -1
  idle : d.maxfd < 0 ↔ ∀ fd, d.toWatch fd = false

/-- What keeps it so. -/
structure MaxfdInv (d : Registry) : Prop where
  capacity : 0 < d.sflowFdSources.eaArray.length
  upper : ∀ i : Nat, d.sflowFdSources.slot i ≠ none → (i : Int) ≤ d.maxfd
  attained : d.maxfd = -1 ∨ ∃ i : Nat, d.maxfd = i ∧ d.sflowFdSources.slot i ≠ none
  watched : ∀ i, d.toWatch i = true ↔ d.sflowFdSources.slot i ≠ none

theorem MaxfdInv.exact (h : d.MaxfdInv) : d.MaxfdExact := by
  constructor
  · intro i hused hlast
    rcases h.attained with hnone | ⟨j, hj, hslot⟩
    · have hle := h.upper i hused
      omega
    · have hle := h.upper i hused
      have hji := hlast j hslot
      omega
  · intro hempty
    rcases h.attained with hnone | ⟨j, -, hslot⟩
    · exact hnone
    · exact absurd (hempty j) hslot
  · constructor
    · intro hneg fd
      by_contra hwatch
      have hle := h.upper fd ((h.watched fd).mp (by simpa using hwatch))
      omega
    · intro hidle
      rcases h.attained with hnone | ⟨j, -, hslot⟩
      · rw [hnone]
        decide
      · have hwatch := (h.watched j).mpr hslot
        rw [hidle j] at hwatch
        cases hwatch

theorem maxfdInv_init : init.MaxfdInv where
  capacity := by decide
  upper i h := absurd (slot_expandingArrayCreate i) h
  attained := .inl rfl
  watched i := by simp [init]

/-- Watching a descriptor. -/
theorem MaxfdInv.watch (h : d.MaxfdInv) (fd addr : Nat) : (d.watch fd addr).MaxfdInv := by
  have hslot := slot_expandingArraySet h.capacity fd (some addr)
  constructor
  · exact length_expandingArraySet_pos h.capacity fd (some addr)
  · intro i hused
    change _ ≤ if d.maxfd < fd then (fd : Int) else d.maxfd
    change (expandingArraySet _ _ _).slot i ≠ Option.none at hused
    rw [hslot] at hused
    by_cases hi : i = fd
    · split <;> omega
    · rw [if_neg hi] at hused
      have hle := h.upper i hused
      split <;> omega
  · change (if d.maxfd < fd then (fd : Int) else d.maxfd) = -1 ∨
      ∃ i : Nat, (if d.maxfd < fd then (fd : Int) else d.maxfd) = i ∧
        (expandingArraySet _ _ _).slot i ≠ Option.none
    right
    by_cases hlt : d.maxfd < fd
    · refine ⟨fd, if_pos hlt, ?_⟩
      rw [hslot, if_pos rfl]
      exact Option.some_ne_none addr
    · rcases h.attained with hnone | ⟨i, hi, hused⟩
      · omega
      · refine ⟨i, (if_neg hlt).trans hi, ?_⟩
        rw [hslot]
        split
        · exact Option.some_ne_none addr
        · exact hused
  · intro i
    change Function.update d.toWatch fd true i = true ↔
      (expandingArraySet _ _ _).slot i ≠ Option.none
    rw [hslot]
    by_cases hi : i = fd
    · rw [hi, Function.update_self, if_pos rfl]
      exact iff_of_true rfl (Option.some_ne_none addr)
    · rw [Function.update_of_ne hi, if_neg hi]
      exact h.watched i

/-! ## Stopping -/

/-- The section of `sflow_stop_source` under the lock, for a source that is interrupt driven. -/
def unwatch (d : Registry) (fd : Nat) : Registry :=
  let arr := expandingArraySet d.sflowFdSources fd none
  { d with
    toWatch := Function.update d.toWatch fd false
    sflowFdSources := arr
    maxfd := if d.maxfd = fd then rescan arr d.maxfd arr.eaArray.length else d.maxfd }

/-- Then the descriptor is closed. -/
theorem sflowStopSource_flowsample {node : SourceNode} (h : node.sslnSrc.ssType = .flowsample) :
    sflowStopSource d node =
      { d.unwatch node.sslnSrc.ssFd with closed := d.closed ++ [node.sslnSrc.ssFd] } := by
  rw [sflowStopSource, h]
  rfl

/-- Another slot than that of the largest descriptor is in use. -/
def UsesAnother (d : Registry) (fd : Nat) : Prop :=
  d.maxfd = fd → ∃ i ≠ fd, d.sflowFdSources.slot i ≠ none

theorem slot_unwatch (d : Registry) (fd i : Nat) :
    (d.unwatch fd).sflowFdSources.slot i = if i = fd then none else d.sflowFdSources.slot i :=
  slot_expandingArraySet_none d.sflowFdSources fd i

theorem maxfd_unwatch_of_ne {fd : Nat} (h : d.maxfd ≠ fd) : (d.unwatch fd).maxfd = d.maxfd :=
  if_neg h

/-- The largest slot in use is found again, if there is one. -/
theorem maxfd_unwatch_of_eq {fd : Nat} (h : d.maxfd = fd) :
    ((d.unwatch fd).maxfd = fd ∧ ∀ i, (d.unwatch fd).sflowFdSources.slot i = none) ∨
      ∃ i : Nat, (d.unwatch fd).maxfd = i ∧ (d.unwatch fd).sflowFdSources.slot i ≠ none ∧
        ∀ j, (d.unwatch fd).sflowFdSources.slot j ≠ none → j ≤ i := by
  have hmaxfd : (d.unwatch fd).maxfd = rescan (d.unwatch fd).sflowFdSources d.maxfd
      (d.unwatch fd).sflowFdSources.eaArray.length := if_pos h
  have hused : ∀ j, (d.unwatch fd).sflowFdSources.slot j ≠ none →
      j < (d.unwatch fd).sflowFdSources.eaArray.length := by
    intro j hj
    obtain ⟨addr, haddr⟩ := Option.ne_none_iff_exists'.mp hj
    exact ExpandingArray.lt_length_of_slot haddr
  rw [hmaxfd]
  rcases @rescan_spec (d.unwatch fd).sflowFdSources d.maxfd _ (Nat.le_refl _)
    with ⟨heq, hall⟩ | ⟨i, -, heq, hslot, hlast⟩
  · refine .inl ⟨heq.trans h, fun i ↦ ?_⟩
    by_contra hne
    exact hne (hall i (hused i hne))
  · exact .inr ⟨i, heq, hslot, fun j hj ↦ hlast j (hused j hj) hj⟩

/-- Stopping a source that is not the last one. -/
theorem MaxfdInv.unwatch (h : d.MaxfdInv) {fd : Nat} (hfd : d.UsesAnother fd) :
    (d.unwatch fd).MaxfdInv := by
  have hslot := slot_unwatch d fd
  have hcapacity : 0 < (d.unwatch fd).sflowFdSources.eaArray.length :=
    length_expandingArraySet_pos h.capacity fd Option.none
  have hwatched : ∀ i, (d.unwatch fd).toWatch i = true ↔
      (d.unwatch fd).sflowFdSources.slot i ≠ Option.none := by
    intro i
    rw [hslot]
    change Function.update d.toWatch fd false i = true ↔ _
    by_cases hi : i = fd
    · rw [hi, Function.update_self, if_pos rfl]
      exact iff_of_false Bool.false_ne_true fun hnot ↦ hnot rfl
    · rw [Function.update_of_ne hi, if_neg hi]
      exact h.watched i
  by_cases hmax : d.maxfd = fd
  · obtain ⟨k, hk, hkused⟩ := hfd hmax
    rcases maxfd_unwatch_of_eq hmax with ⟨-, hall⟩ | ⟨i, hi, hused, hlast⟩
    · have hempty := hall k
      rw [hslot, if_neg hk] at hempty
      exact absurd hempty hkused
    · constructor
      · exact hcapacity
      · intro j hj
        have hle := hlast j hj
        omega
      · exact .inr ⟨i, hi, hused⟩
      · exact hwatched
  · have hsame := maxfd_unwatch_of_ne hmax
    constructor
    · exact hcapacity
    · intro i hused
      rw [hslot] at hused
      split at hused
      · exact absurd rfl hused
      · rw [hsame]
        exact h.upper i hused
    · rw [hsame]
      rcases h.attained with hnone | ⟨i, hi, hused⟩
      · exact .inl hnone
      · refine .inr ⟨i, hi, ?_⟩
        rw [hslot, if_neg]
        · exact hused
        · rintro rfl
          exact hmax hi
    · exact hwatched

/-- Stopping the last source. -/
theorem not_maxfdExact_unwatch {fd : Nat} (hfd : ¬ d.UsesAnother fd) :
    ¬ (d.unwatch fd).MaxfdExact := by
  intro hexact
  obtain ⟨hmax, hnone⟩ := Classical.not_imp.mp hfd
  have hempty : ∀ i, (d.unwatch fd).sflowFdSources.slot i = none := by
    intro i
    rw [slot_unwatch]
    split
    · rfl
    · rename_i hi
      by_contra hused
      exact hnone ⟨i, hi, hused⟩
  have hminus := hexact.none hempty
  rcases maxfd_unwatch_of_eq hmax with ⟨heq, -⟩ | ⟨i, -, hused, -⟩
  · omega
  · exact hused (hempty i)

end Registry

/-! ## Sequences -/

/-- What is done to sources that are interrupt driven. -/
inductive FlowOp where
  /-- A source is added, with these answers of the system. -/
  | add (calls : SourceCalls) (src : SflowSource) (h : src.ssType = .flowsample)
  /-- A source is stopped. -/
  | stop (node : SourceNode) (h : node.sslnSrc.ssType = .flowsample)

namespace FlowOp

def step (d : Registry) : FlowOp → Option Registry
  | add calls src _ => some (sflowAddSourceType calls src d).2
  | stop node _ => some (sflowStopSource d node)

/-- If the source with the largest descriptor is stopped, another one is watched. -/
def KeepsOne (d : Registry) : FlowOp → Prop
  | add _ _ _ => True
  | stop node _ => d.UsesAnother node.sslnSrc.ssFd

end FlowOp

/-- In a sequence of additions and removals `maxfd` is exact all along exactly if no removal is
that of the last source. -/
theorem maxfdExact_iff_keepsOne (ops : List FlowOp) :
    (∀ pre, pre <+: ops → ∀ d, Run.run FlowOp.step .init pre = some d → d.MaxfdExact) ↔
      Run.Meets FlowOp.step FlowOp.KeepsOne .init ops := by
  have hexact : ∀ d : Registry, d.MaxfdInv → d.MaxfdExact := fun d h ↦ h.exact
  refine Run.meets_iff_forall_prefix hexact ?_ ?_ Registry.maxfdInv_init
  · intro d op d' h hkeeps hstep
    cases op with
    | add calls src hsrc =>
        cases hstep
        have hwatch := h.watch src.ssFd (calls.node src d).addr
        rw [sflowAddSourceType, hsrc]
        exact ⟨hwatch.capacity, hwatch.upper, hwatch.attained, hwatch.watched⟩
    | stop node hnode =>
        cases hstep
        have hunwatch := h.unwatch hkeeps
        rw [Registry.sflowStopSource_flowsample hnode]
        exact ⟨hunwatch.capacity, hunwatch.upper, hunwatch.attained, hunwatch.watched⟩
  · intro d op _ hkeeps
    cases op with
    | add calls src hsrc => cases hkeeps trivial
    | stop node hnode =>
        refine ⟨_, rfl, fun hexact ↦ Registry.not_maxfdExact_unwatch hkeeps ?_⟩
        rw [Registry.sflowStopSource_flowsample hnode] at hexact
        exact ⟨hexact.largest, hexact.none, hexact.idle⟩

/-- One source is added and removed again, and then `maxfd` is still its descriptor. -/
theorem exists_not_maxfdExact :
    ∃ calls ops d, ops = [.add calls SflowSource.net0 rfl, .stop ⟨1, SflowSource.net0⟩ rfl] ∧
      Run.run FlowOp.step .init ops = some d ∧ ¬ d.MaxfdExact := by
  refine ⟨.fine, _, _, rfl, rfl, fun h ↦ ?_⟩
  have hidle : (5 : Int) < 0 := by
    refine h.idle.mpr fun fd ↦ ?_
    change Function.update (Function.update (fun _ => false) 5 true) 5 false fd = false
    rw [Function.update_idem]
    by_cases hfd : fd = 5
    · rw [hfd, Function.update_self]
    · rw [Function.update_of_ne hfd]
  omega

end Sflow

import Mathlib.Algebra.Order.Ring.Rat
import Mathlib.Data.List.Nodup
import Sflow.Protocol.Collector
import Sflow.Run.Basic
import Sflow.Run.Sweep

/-!
# The window of the example collector

The receiver appends statistics to the lists of `interfaceDict`, and whoever paints the
canvas removes those that are too old: the thread that refreshes it, and the main thread
when something is clicked.  A painter removes from the very list it walks.  Nothing is
locked, so a list changes while it is walked, and the interface that is chosen changes
between the choice of a list and the removal from it.

The clock is taken to be exact and not to go back.
-/

namespace Sflow.Collector

open Run

/-! ## Statistics as objects -/

/-- The seconds that a statistic is shown. -/
def interval : Rat := 60

/-- What tells an object from the others, and when it was made. -/
structure Stamp where
  id : Nat
  time : Rat
deriving DecidableEq, Repr

/-- Objects are made one after the other. -/
def Stamp.Before (a b : Stamp) : Prop := a.id < b.id ∧ a.time ≤ b.time

/-- An object of class `FlowStat`. -/
structure Dot extends Stamp where
  stat : FlowStat
deriving DecidableEq, Repr

/-- The keys of a list in `interfaceDict`: an interface, and the name of a flow. -/
abbrev FlowKey := (String × UInt32) × List UInt8

/-! ## Threads -/

/-- Where a painter is in the loops of `paintCanvas`. -/
inductive Painter where
  | idle
  /-- At an index of the list it goes over. -/
  | walking (fl : FlowKey) (i : Nat)
  /-- Has taken an item out of the list, and then evaluated the argument `lst` of `makeDot`,
  the list of the interface that is chosen by then. -/
  | holding (fl : FlowKey) (i : Nat) (stat : Dot) (lst : Option FlowKey)
deriving DecidableEq, Repr

structure Window where
  now : Rat
  /-- The number of objects that have been made. -/
  made : Nat
  /-- The object that `read_flow_stat` fills in. -/
  newFlowStat : Option Stamp
  curIf : Option (String × UInt32)
  /-- A list that is missing counts as empty. -/
  interfaceDict : FlowKey → List Dot
  painters : Nat → Painter
  /-- What has been appended, with the interface it came from.  Nothing reads it. -/
  log : List ((String × UInt32) × Dot)

namespace Window

inductive Action where
  | tick (now : Rat)
  /-- `FlowStat(flow_name)` in `read_flow_stat`. -/
  | create
  /-- The end of `read_flow_stat`. -/
  | append (key : String × UInt32) (stat : FlowStat)
  /-- `hostSelect`. -/
  | select (key : String × UInt32)
  /-- The loop of `paintCanvas` over a list of the interface that is chosen begins. -/
  | iter (j : Nat) (name : List UInt8)
  /-- It has a next item. -/
  | next (j : Nat)
  /-- The arguments of `makeDot` are evaluated. -/
  | call (j : Nat)
  | makeDot (j : Nat)
  /-- The loop over a list has come to its end. -/
  | stop (j : Nat) (fl : FlowKey)
  /-- An exception. -/
  | abort (j : Nat)
deriving DecidableEq, Repr

/-- The painter `j` is the only one, no interface is chosen and no exception comes. -/
def Action.Solo (j : Nat) : Action → Prop
  | .tick _ | .create | .append _ _ => True
  | .iter j' _ | .next j' | .call j' | .makeDot j' | .stop j' _ => j' = j
  | .select _ | .abort _ => False

/-- Too old to be shown. -/
def Expired (w : Window) (stat : Dot) : Prop := interval < w.now - stat.time

instance (w : Window) : DecidablePred w.Expired :=
  fun stat => inferInstanceAs (Decidable (interval < w.now - stat.time))

def start (now : Rat) : Window := ⟨now, 0, none, none, fun _ => [], fun _ => .idle, []⟩

def setPainter (w : Window) (j : Nat) (q : Painter) : Window :=
  { w with painters := Function.update w.painters j q }

/-- `lst.remove(stat)`. -/
def remove (w : Window) (lst : FlowKey) (stat : Dot) : Window :=
  { w with interfaceDict := Function.update w.interfaceDict lst ((w.interfaceDict lst).erase stat) }

/-- `flowDict[new_flow_stat.name].append(new_flow_stat)`. -/
def append (w : Window) (key : String × UInt32) (stat : Dot) : Window :=
  { w with
    newFlowStat := none
    interfaceDict := Function.update w.interfaceDict (key, stat.stat.name)
      (w.interfaceDict (key, stat.stat.name) ++ [stat])
    log := w.log ++ [(key, stat)] }

/-- Any number of painters besides the receiver.  An exception ends what a painter does, and
may come at any time: a dictionary that grows while it is walked raises one, and so does
a seventh flow, for which there is no colour. -/
def step (w : Window) : Action → Option Window
  | .tick now => if w.now ≤ now then some { w with now } else none
  | .create =>
      match w.newFlowStat with
      | none => some { w with made := w.made + 1, newFlowStat := some ⟨w.made, w.now⟩ }
      | some _ => none
  | .append key stat => w.newFlowStat.map fun stamp => w.append key ⟨stamp, stat⟩
  | .select key => some { w with curIf := some key }
  | .iter j name =>
      match w.painters j, w.curIf with
      | .idle, some key => some (w.setPainter j (.walking (key, name) 0))
      | _, _ => none
  | .next j =>
      match w.painters j with
      | .walking fl i => (w.interfaceDict fl)[i]?.map fun stat =>
          w.setPainter j (.holding fl i stat none)
      | _ => none
  | .call j =>
      match w.painters j, w.curIf with
      | .holding fl i stat none, some key =>
          some (w.setPainter j (.holding fl i stat (some (key, fl.2))))
      | _, _ => none
  | .makeDot j =>
      match w.painters j with
      | .holding fl i stat (some lst) =>
          -- The test and the removal are one step, as what is too old stays so.
          if w.Expired stat then
            if stat ∈ w.interfaceDict lst then
              some ((w.remove lst stat).setPainter j (.walking fl (i + 1)))
            else some (w.setPainter j .idle) -- `ValueError`
          else some (w.setPainter j (.walking fl (i + 1)))
      | _ => none
  | .stop j fl =>
      match w.painters j with
      | .walking fl' i =>
          if fl' = fl ∧ (w.interfaceDict fl).length ≤ i then some (w.setPainter j .idle) else none
      | _ => none
  | .abort j => some (w.setPainter j .idle)

/-- What each action can do. -/
inductive Moves (w : Window) : Action → Window → Prop
  | tick {now} (hnow : w.now ≤ now) : Moves w (.tick now) { w with now }
  | create (hnew : w.newFlowStat = none) :
      Moves w .create { w with made := w.made + 1, newFlowStat := some ⟨w.made, w.now⟩ }
  | append {key stamp stat} (hnew : w.newFlowStat = some stamp) :
      Moves w (.append key stat) (w.append key ⟨stamp, stat⟩)
  | select {key} : Moves w (.select key) { w with curIf := some key }
  | iter {j name key} (hj : w.painters j = .idle) (hcur : w.curIf = some key) :
      Moves w (.iter j name) (w.setPainter j (.walking (key, name) 0))
  | next {j fl i stat} (hj : w.painters j = .walking fl i)
      (hstat : (w.interfaceDict fl)[i]? = some stat) :
      Moves w (.next j) (w.setPainter j (.holding fl i stat none))
  | call {j fl i stat key} (hj : w.painters j = .holding fl i stat none)
      (hcur : w.curIf = some key) :
      Moves w (.call j) (w.setPainter j (.holding fl i stat (some (key, fl.2))))
  | keep {j fl i stat lst} (hj : w.painters j = .holding fl i stat (some lst))
      (hfresh : ¬ w.Expired stat) : Moves w (.makeDot j) (w.setPainter j (.walking fl (i + 1)))
  | remove {j fl i stat lst} (hj : w.painters j = .holding fl i stat (some lst))
      (hold : w.Expired stat) (hmem : stat ∈ w.interfaceDict lst) :
      Moves w (.makeDot j) ((w.remove lst stat).setPainter j (.walking fl (i + 1)))
  | raise {j fl i stat lst} (hj : w.painters j = .holding fl i stat (some lst))
      (hold : w.Expired stat) (hmem : stat ∉ w.interfaceDict lst) :
      Moves w (.makeDot j) (w.setPainter j .idle)
  | stop {j fl i} (hj : w.painters j = .walking fl i) (hi : (w.interfaceDict fl).length ≤ i) :
      Moves w (.stop j fl) (w.setPainter j .idle)
  | abort {j} : Moves w (.abort j) (w.setPainter j .idle)

theorem moves_of_step {w w' : Window} {a : Action} (h : w.step a = some w') : Moves w a w' := by
  cases a with
  | tick now =>
      rw [step] at h
      split at h
      · cases h
        exact .tick ‹_›
      · cases h
  | create =>
      rw [step] at h
      split at h
      · cases h
        exact .create ‹_›
      · cases h
  | append key stat =>
      obtain ⟨stamp, hstamp, rfl⟩ := Option.map_eq_some_iff.mp h
      exact .append hstamp
  | select key =>
      cases h
      exact .select
  | iter j name =>
      rw [step] at h
      split at h
      · cases h
        exact .iter ‹_› ‹_›
      · cases h
  | next j =>
      rw [step] at h
      split at h
      · obtain ⟨stat, hstat, rfl⟩ := Option.map_eq_some_iff.mp h
        exact .next ‹_› hstat
      · cases h
  | call j =>
      rw [step] at h
      split at h
      · cases h
        exact .call ‹_› ‹_›
      · cases h
  | makeDot j =>
      rw [step] at h
      split at h
      · split at h
        · split at h
          · cases h
            exact .remove ‹_› ‹_› ‹_›
          · cases h
            exact .raise ‹_› ‹_› ‹_›
        · cases h
          exact .keep ‹_› ‹_›
      · cases h
  | stop j fl =>
      rw [step] at h
      split at h
      · split at h
        · rename_i hj hstop
          obtain ⟨rfl, hi⟩ := hstop
          cases h
          exact .stop hj hi
        · cases h
      · cases h
  | abort j =>
      cases h
      exact .abort

/-! ## What is kept -/

/-- What is in a list and too old. -/
def outdated (w : Window) (fl : FlowKey) : List Dot := (w.interfaceDict fl).filter (w.Expired ·)

/-- What has been appended to a list. -/
def arrivals (w : Window) (fl : FlowKey) : List Dot :=
  (w.log.filter fun e => (e.1, e.2.stat.name) = fl).map (·.2)

/-- What the receiver would hold if nothing were removed. -/
def recorded (w : Window) : InterfaceDict := w.log.foldl (fun d e => record d e.1 e.2.stat) []

/-- The stamps that have been given, and the next one. -/
def stamps (w : Window) : List Stamp :=
  w.log.map (·.2.toStamp) ++ w.newFlowStat.toList ++ [⟨w.made, w.now⟩]

theorem painters_setPainter (w : Window) (j j' : Nat) (q : Painter) :
    (w.setPainter j q).painters j' = if j' = j then q else w.painters j' :=
  Function.update_apply _ _ _ _

theorem arrivals_append (w : Window) (key : String × UInt32) (stat : Dot) (fl : FlowKey) :
    (w.append key stat).arrivals fl =
      w.arrivals fl ++ if (key, stat.stat.name) = fl then [stat] else [] := by
  rw [arrivals, append, List.filter_append, List.map_append, arrivals]
  by_cases h : (key, stat.stat.name) = fl <;> simp [h]

theorem interfaceDict_append (w : Window) (key : String × UInt32) (stat : Dot) (fl : FlowKey) :
    (w.append key stat).interfaceDict fl =
      w.interfaceDict fl ++ if (key, stat.stat.name) = fl then [stat] else [] := by
  by_cases h : (key, stat.stat.name) = fl
  · subst h
    simp [append]
  · simp [append, h, Function.update_of_ne (Ne.symm h)]

theorem interfaceDict_remove (w : Window) (lst : FlowKey) (stat : Dot) (fl : FlowKey) :
    (w.remove lst stat).interfaceDict fl =
      if fl = lst then (w.interfaceDict fl).erase stat else w.interfaceDict fl := by
  by_cases h : fl = lst
  · subst h
    simp [remove]
  · simp [remove, h]

theorem interfaceDict_remove_sublist (w : Window) (lst : FlowKey) (stat : Dot) (fl : FlowKey) :
    ((w.remove lst stat).interfaceDict fl).Sublist (w.interfaceDict fl) := by
  rw [interfaceDict_remove]
  split
  · exact List.erase_sublist
  · exact List.Sublist.refl _

theorem mem_arrivals {w : Window} {fl : FlowKey} {stat : Dot} :
    stat ∈ w.arrivals fl ↔ (fl.1, stat) ∈ w.log ∧ stat.stat.name = fl.2 := by
  obtain ⟨key, name⟩ := fl
  constructor
  · intro h
    obtain ⟨⟨key', stat'⟩, he, rfl⟩ := List.mem_map.mp h
    obtain ⟨hlog, hkey⟩ := List.mem_filter.mp he
    obtain ⟨rfl, rfl⟩ := Prod.mk.inj (of_decide_eq_true hkey)
    exact ⟨hlog, rfl⟩
  · rintro ⟨hlog, hname⟩
    exact List.mem_map.mpr ⟨_, List.mem_filter.mpr ⟨hlog, decide_eq_true (hname ▸ rfl)⟩, rfl⟩

/-- Under each key and name the receiver records what arrives there, in order. -/
theorem map_stat_arrivals (w : Window) (key : String × UInt32) (name : List UInt8) :
    (w.arrivals (key, name)).map (·.stat) = statsOf w.recorded key name := by
  have hfold : ∀ (log : List ((String × UInt32) × Dot)) (d : InterfaceDict),
      statsOf (log.foldl (fun d e => record d e.1 e.2.stat) d) key name = statsOf d key name ++
        ((log.filter fun e => (e.1, e.2.stat.name) = (key, name)).map (·.2)).map (·.stat) := by
    intro log
    induction log with
    | nil => simp
    | cons e log ih =>
        intro d
        rw [List.foldl_cons, ih, statsOf_record, List.filter_cons, List.append_assoc]
        by_cases h : e.1 = key ∧ e.2.stat.name = name
        · simp [h]
        · rw [if_neg h, if_neg (by simpa using h), List.nil_append]
  exact (hfold w.log []).symm

/-- The invariant of the window: nothing is lost but what is too old. -/
structure Kept (w : Window) : Prop where
  ordered : w.stamps.Pairwise Stamp.Before
  sublist : ∀ fl, (w.interfaceDict fl).Sublist (w.arrivals fl)
  fresh : ∀ fl, (w.interfaceDict fl).filter (¬ w.Expired ·) =
    (w.arrivals fl).filter (¬ w.Expired ·)
  held : ∀ j fl i stat lst, w.painters j = .holding fl i stat lst → stat ∈ w.arrivals fl

theorem Stamp.Before.trans {a b c : Stamp} (h : a.Before b) (h' : b.Before c) : a.Before c :=
  ⟨Nat.lt_trans h.1 h'.1, le_trans h.2 h'.2⟩

theorem Expired.mono {w : Window} {stat : Dot} (h : w.Expired stat) {now : Rat}
    (hnow : w.now ≤ now) : Expired { w with now } stat :=
  lt_of_lt_of_le h (sub_le_sub_right hnow _)

theorem kept_start (now : Rat) : (start now).Kept where
  ordered := List.pairwise_singleton _ _
  sublist _ := List.Sublist.refl _
  fresh _ := rfl
  held _ _ _ _ _ h := nomatch h

namespace Kept

variable {w : Window} (h : w.Kept)
include h

theorem log_before : w.log.Pairwise fun e e' => e.2.toStamp.Before e'.2.toStamp := by
  have hlog := (List.pairwise_append.mp (List.pairwise_append.mp h.ordered).1).1
  exact List.pairwise_map.mp hlog

theorem before_next {a : Stamp} (ha : a ∈ w.log.map (·.2.toStamp) ++ w.newFlowStat.toList) :
    a.Before ⟨w.made, w.now⟩ :=
  (List.pairwise_append.mp h.ordered).2.2 a ha _ (List.mem_singleton.mpr rfl)

/-- An object that has been appended is known by its stamp. -/
theorem eq_of_mem_log {e e' : (String × UInt32) × Dot} (he : e ∈ w.log) (he' : e' ∈ w.log)
    (hid : e.2.id = e'.2.id) : e = e' := by
  have hnodup : (w.log.map (·.2.id)).Nodup :=
    List.pairwise_map.mpr (h.log_before.imp fun hab => Nat.ne_of_lt hab.1)
  exact List.inj_on_of_nodup_map hnodup he he' hid

theorem setPainter {j : Nat} {q : Painter}
    (hq : ∀ fl i stat lst, q = .holding fl i stat lst → stat ∈ w.arrivals fl) :
    (w.setPainter j q).Kept where
  ordered := h.ordered
  sublist := h.sublist
  fresh := h.fresh
  held j' fl i stat lst hj' := by
    rw [painters_setPainter] at hj'
    split at hj'
    · exact hq fl i stat lst hj'
    · exact h.held j' fl i stat lst hj'

theorem tick {now : Rat} (hnow : w.now ≤ now) : Kept { w with now } where
  ordered := by
    obtain ⟨hgiven, -, hnext⟩ := List.pairwise_append.mp h.ordered
    refine List.pairwise_append.mpr ⟨hgiven, List.pairwise_singleton _ _, fun a ha b hb ↦ ?_⟩
    obtain rfl := List.mem_singleton.mp hb
    exact ⟨(h.before_next ha).1, le_trans (h.before_next ha).2 hnow⟩
  sublist := h.sublist
  fresh fl := by
    have hstill (stats : List Dot) : stats.filter (¬ Expired { w with now } ·) =
        (stats.filter (¬ w.Expired ·)).filter (¬ Expired { w with now } ·) := by
      rw [List.filter_filter]
      refine List.filter_congr fun stat _ ↦ ?_
      by_cases hold : w.Expired stat
      · simp [hold, hold.mono hnow]
      · simp [hold]
    rw [hstill, h.fresh, ← hstill]
    rfl
  held := h.held

theorem create (hnew : w.newFlowStat = none) :
    Kept { w with made := w.made + 1, newFlowStat := some ⟨w.made, w.now⟩ } where
  ordered := by
    obtain ⟨hgiven, -, -⟩ := List.pairwise_append.mp h.ordered
    have hlog : w.log.map (·.2.toStamp) ++ w.newFlowStat.toList = w.log.map (·.2.toStamp) := by
      rw [hnew, Option.toList_none, List.append_nil]
    have hnext : Stamp.Before ⟨w.made, w.now⟩ ⟨w.made + 1, w.now⟩ := ⟨Nat.lt_succ_self _, le_rfl⟩
    have hbefore := fun a ha ↦ h.before_next (a := a) ha
    rw [hlog] at hgiven hbefore
    refine List.pairwise_append.mpr ⟨List.pairwise_append.mpr
      ⟨hgiven, List.pairwise_singleton _ _, fun a ha b hb ↦ ?_⟩, List.pairwise_singleton _ _,
      fun a ha b hb ↦ ?_⟩
    · obtain rfl := List.mem_singleton.mp hb
      exact hbefore a ha
    · obtain rfl := List.mem_singleton.mp hb
      rcases List.mem_append.mp ha with ha | ha
      · exact Stamp.Before.trans (hbefore a ha) hnext
      · obtain rfl := List.mem_singleton.mp ha
        exact hnext
  sublist := h.sublist
  fresh := h.fresh
  held := h.held

theorem append {stamp : Stamp} (hnew : w.newFlowStat = some stamp) (key : String × UInt32)
    (stat : FlowStat) : (w.append key ⟨stamp, stat⟩).Kept where
  ordered := by
    have hstamps : (w.append key ⟨stamp, stat⟩).stamps = w.stamps := by
      simp [stamps, Window.append, hnew]
    rw [hstamps]
    exact h.ordered
  sublist fl := by
    rw [arrivals_append, interfaceDict_append]
    exact (h.sublist fl).append_right _
  fresh fl := by
    rw [arrivals_append, interfaceDict_append, List.filter_append, List.filter_append]
    exact congrArg (· ++ _) (h.fresh fl)
  held j fl i stat' lst hj := by
    rw [arrivals_append]
    exact List.mem_append_left _ (h.held j fl i stat' lst hj)

theorem remove {stat : Dot} (hold : w.Expired stat) (lst : FlowKey) : (w.remove lst stat).Kept where
  ordered := h.ordered
  sublist fl := (w.interfaceDict_remove_sublist lst stat fl).trans (h.sublist fl)
  fresh fl := by
    rw [interfaceDict_remove]
    split
    · have hnot : stat ∉ (w.interfaceDict fl).filter (¬ w.Expired ·) := fun hmem ↦
        of_decide_eq_true (List.mem_filter.mp hmem).2 hold
      have hsame : ((w.interfaceDict fl).erase stat).filter (¬ w.Expired ·) =
          (w.interfaceDict fl).filter (¬ w.Expired ·) := by
        rw [← List.erase_filter, List.erase_of_not_mem hnot]
      exact hsame.trans (h.fresh fl)
    · exact h.fresh fl
  held := h.held

theorem moves {a : Action} {w' : Window} (hmoves : Moves w a w') : w'.Kept := by
  cases hmoves with
  | tick hnow => exact h.tick hnow
  | create hnew => exact h.create hnew
  | append hnew => exact h.append hnew _ _
  | select => exact ⟨h.ordered, h.sublist, h.fresh, h.held⟩
  | iter => exact h.setPainter nofun
  | @next j fl i stat hj hstat =>
      refine h.setPainter fun fl' i' stat' lst hq ↦ ?_
      cases hq
      exact (h.sublist fl).subset (List.mem_of_getElem? hstat)
  | call hj =>
      refine h.setPainter fun fl' i' stat' lst hq ↦ ?_
      cases hq
      exact h.held _ _ _ _ _ hj
  | keep => exact h.setPainter nofun
  | remove hj hold => exact (h.remove hold _).setPainter nofun
  | raise => exact h.setPainter nofun
  | stop => exact h.setPainter nofun
  | abort => exact h.setPainter nofun

/-- What arrived at a list arrived in order. -/
theorem arrivals_sorted (fl : FlowKey) : (w.arrivals fl).Pairwise fun a b => a.time ≤ b.time :=
  List.pairwise_map.mpr ((h.log_before.sublist List.filter_sublist).imp fun hab => hab.2)

theorem front_expired (fl : FlowKey) : Front w.Expired (w.interfaceDict fl) :=
  ((h.arrivals_sorted fl).sublist (h.sublist fl)).imp fun hab hold =>
    lt_of_lt_of_le hold (sub_le_sub_left hab _)

end Kept

theorem kept_of_run {now : Rat} {ls : List Action} {w : Window}
    (hrun : run step (start now) ls = some w) : w.Kept :=
  run_induction (fun _ _ _ h hstep ↦ h.moves (moves_of_step hstep)) (kept_start now) hrun

/-- A list shows all that is not too old, behind some of what is, in the order of arrival. -/
theorem interfaceDict_eq {now : Rat} {ls : List Action} {w : Window}
    (hrun : run step (start now) ls = some w) (key : String × UInt32) (name : List UInt8) :
    ∃ old, old.Sublist ((w.arrivals (key, name)).filter (w.Expired ·)) ∧
      w.interfaceDict (key, name) = old ++ (w.arrivals (key, name)).filter (¬ w.Expired ·) ∧
      (w.arrivals (key, name)).map (·.stat) = statsOf w.recorded key name := by
  have h := kept_of_run hrun
  refine ⟨(w.interfaceDict (key, name)).filter (w.Expired ·), (h.sublist _).filter _, ?_,
    w.map_stat_arrivals key name⟩
  rw [← h.fresh]
  exact (h.front_expired _).filter_append.symm

/-- The first of two statistics is removed, and the one that came later is shown. -/
theorem interfaceDict_eq_shown : ∃ w,
    run step (start 0) [.create, .append ("10.0.0.1", 3) ⟨[97], 1, 2, 3, 4, 5, 6⟩, .tick 61,
      .create, .append ("10.0.0.1", 3) ⟨[97], 7, 8, 9, 10, 11, 12⟩, .select ("10.0.0.1", 3),
      .iter 0 [97], .next 0, .call 0, .makeDot 0] = some w ∧
    ∃ old, old.Sublist ((w.arrivals (("10.0.0.1", 3), [97])).filter (w.Expired ·)) ∧
      w.interfaceDict (("10.0.0.1", 3), [97]) =
        old ++ (w.arrivals (("10.0.0.1", 3), [97])).filter (¬ w.Expired ·) ∧
      (w.arrivals (("10.0.0.1", 3), [97])).map (·.stat) =
        statsOf w.recorded ("10.0.0.1", 3) [97] :=
  Exists.imp (fun _ hrun ↦ ⟨hrun, interfaceDict_eq hrun ("10.0.0.1", 3) [97]⟩)
    (Option.isSome_iff_exists.mp (by decide +kernel))

/-! ## How many are removed -/

theorem Kept.not_logged {w : Window} (h : w.Kept) {stamp : Stamp}
    (hnew : w.newFlowStat = some stamp) (stat : FlowStat) : ⟨stamp, stat⟩ ∉ w.log.map (·.2) := by
  intro hmem
  obtain ⟨e, he, heq⟩ := List.mem_map.mp hmem
  have hgiven := (List.pairwise_append.mp h.ordered).1
  have hbefore := (List.pairwise_append.mp hgiven).2.2 _ (List.mem_map_of_mem he) stamp
    (by rw [hnew]; exact List.mem_singleton.mpr rfl)
  rw [heq] at hbefore
  exact Nat.lt_irrefl _ hbefore.1

theorem mem_outdated {w : Window} {fl : FlowKey} {stat : Dot} :
    stat ∈ w.outdated fl ↔ stat ∈ w.interfaceDict fl ∧ w.Expired stat := by
  rw [outdated, List.mem_filter, decide_eq_true_iff]

section Sweep

variable (P : Dot → Prop) (fl : FlowKey) (j : Nat)

/-- Some of the statistics that have come too old to be shown. -/
structure Outdated (w : Window) : Prop where
  logged : ∀ stat, P stat → stat ∈ w.log.map (·.2)
  expired : ∀ stat, P stat → w.Expired stat
  front : Front P (w.interfaceDict fl)

/-- What is too old stays in front of what is not, and of what arrives. -/
theorem Kept.outdated {w : Window} (h : w.Kept) : w.Outdated (· ∈ w.outdated fl) fl where
  logged stat hP := by
    have hlog := (mem_arrivals.mp ((h.sublist fl).subset (mem_outdated.mp hP).1)).1
    exact List.mem_map_of_mem hlog
  expired stat hP := (mem_outdated.mp hP).2
  front := (h.front_expired fl).imp_of_mem fun hstat _ hab hP ↦
    mem_outdated.mpr ⟨hstat, hab (mem_outdated.mp hP).2⟩

variable {P fl j} {w w' : Window} {a : Action} {n : Nat}

theorem Outdated.moves (h : w.Outdated P fl) (hkept : w.Kept) (hmoves : Moves w a w') :
    w'.Outdated P fl := by
  cases hmoves with
  | tick hnow => exact ⟨h.logged, fun stat hP ↦ (h.expired stat hP).mono hnow, h.front⟩
  | @append key stamp stat hnew =>
      have hnot : ¬ P ⟨stamp, stat⟩ := fun hP ↦ hkept.not_logged hnew stat (h.logged _ hP)
      refine ⟨fun stat' hP ↦ ?_, h.expired, ?_⟩
      · rw [append, List.map_append]
        exact List.mem_append_left _ (h.logged stat' hP)
      · rw [interfaceDict_append]
        split
        · exact h.front.concat hnot
        · rw [List.append_nil]
          exact h.front
  | remove =>
      exact ⟨h.logged, h.expired, h.front.sublist (w.interfaceDict_remove_sublist _ _ fl)⟩
  | create | select | iter | next | call | keep | raise | stop | abort =>
      exact ⟨h.logged, h.expired, h.front⟩

variable [DecidablePred P]

theorem Outdated.countP_append (h : w.Outdated P fl) (hkept : w.Kept) {stamp : Stamp}
    (hnew : w.newFlowStat = some stamp) (key : String × UInt32) (stat : FlowStat) :
    ((w.append key ⟨stamp, stat⟩).interfaceDict fl).countP (P ·) =
      (w.interfaceDict fl).countP (P ·) := by
  have hnot : ¬ P ⟨stamp, stat⟩ := fun hP ↦ hkept.not_logged hnew stat (h.logged _ hP)
  rw [interfaceDict_append, List.countP_append]
  split <;> simp [hnot]

theorem Outdated.countP_moves (h : w.Outdated P fl) (hkept : w.Kept) (hmoves : Moves w a w') :
    (w'.interfaceDict fl).countP (P ·) ≤ (w.interfaceDict fl).countP (P ·) := by
  cases hmoves with
  | append hnew => exact Nat.le_of_eq (h.countP_append hkept hnew _ _)
  | remove => exact (w.interfaceDict_remove_sublist _ _ fl).countP_le
  | tick | create | select | iter | next | call | keep | raise | stop | abort => exact Nat.le_refl _

variable (P fl j) in
/-- How far a painter has come that began with `n` of them in the list. -/
def Sweeping (n : Nat) (stats : List Dot) : Painter → Prop
  | .idle => True
  | .walking fl' i => fl' = fl → AtMostHalf P n stats i
  | .holding fl' i stat _ =>
      fl' = fl → AtMostHalf P n stats i ∧ (P stat ∨ stats.countP (P ·) ≤ n / 2)

theorem Sweeping.mono {stats stats' : List Dot} {q : Painter} (h : Sweeping P fl n stats q)
    (hle : stats'.countP (P ·) ≤ stats.countP (P ·)) : Sweeping P fl n stats' q := by
  cases q with
  | idle => trivial
  | walking fl' i => exact fun hfl ↦ (h hfl).mono hle
  | holding fl' i stat lst =>
      exact fun hfl ↦ ⟨(h hfl).1.mono hle, (h hfl).2.imp_right (Nat.le_trans hle)⟩

variable (P fl j) in
/-- At most `n` of them are left in the list, and what the painter does leaves half of that. -/
structure Reduced (n : Nat) (w : Window) : Prop extends w.Outdated P fl where
  count_le : (w.interfaceDict fl).countP (P ·) ≤ n
  painter : Sweeping P fl n (w.interfaceDict fl) (w.painters j)

theorem Reduced.setPainter {j' : Nat} {q : Painter} (h : w.Reduced P fl j n)
    (hq : j' = j → Sweeping P fl n (w.interfaceDict fl) q) :
    (w.setPainter j' q).Reduced P fl j n := by
  refine ⟨⟨h.logged, h.expired, h.front⟩, h.count_le, ?_⟩
  rw [painters_setPainter]
  split
  · exact hq (Eq.symm ‹_›)
  · exact h.painter

theorem Reduced.remove (h : w.Reduced P fl j n) (lst : FlowKey) (stat : Dot) :
    (w.remove lst stat).Reduced P fl j n := by
  have hsub := w.interfaceDict_remove_sublist lst stat fl
  exact ⟨⟨h.logged, h.expired, h.front.sublist hsub⟩, Nat.le_trans hsub.countP_le h.count_le,
    h.painter.mono hsub.countP_le⟩

/-- Whose list an item is in. -/
theorem Kept.eq_of_mem (h : w.Kept) {fl fl' : FlowKey} {stat : Dot} (hmem : stat ∈ w.arrivals fl)
    (hmem' : stat ∈ w.arrivals fl') : fl = fl' := by
  obtain ⟨hlog, hname⟩ := mem_arrivals.mp hmem
  obtain ⟨hlog', hname'⟩ := mem_arrivals.mp hmem'
  exact Prod.ext (Prod.mk.inj (h.eq_of_mem_log hlog hlog' rfl)).1 (hname.symm.trans hname')

theorem Reduced.moves (h : w.Reduced P fl j n) (hkept : w.Kept) (hmoves : Moves w a w') :
    w'.Reduced P fl j (if a = .stop j fl then n / 2 else n) := by
  have hout := h.toOutdated.moves hkept hmoves
  have hcount := h.toOutdated.countP_moves hkept hmoves
  cases hmoves with
  | tick | create | append | select =>
      exact ⟨hout, Nat.le_trans hcount h.count_le, h.painter.mono hcount⟩
  | iter => exact h.setPainter fun _ _ ↦ .start h.count_le
  | @next j' fl' i stat hj hstat =>
      refine h.setPainter fun hj' hfl ↦ ?_
      subst hj' hfl
      have hpainter := h.painter
      rw [hj] at hpainter
      refine ⟨hpainter rfl, ?_⟩
      by_cases hi : i < (w.interfaceDict fl').countP (P ·)
      · exact .inl ((h.front.getElem_iff hstat).mpr hi)
      · exact .inr ((hpainter rfl).past (Nat.le_of_not_lt hi))
  | @call j' fl' i stat key hj =>
      refine h.setPainter fun hj' hfl ↦ ?_
      have hpainter := h.painter
      rw [← hj', hj] at hpainter
      exact hpainter hfl
  | @keep j' fl' i stat lst hj hfresh =>
      refine h.setPainter fun hj' hfl ↦ ?_
      have hpainter := h.painter
      rw [← hj', hj] at hpainter
      have hP : ¬ P stat := fun hP ↦ hfresh (h.expired stat hP)
      exact .inl ((hpainter hfl).2.resolve_left hP)
  | @remove j' fl' i stat lst hj hold hmem =>
      refine (h.remove lst stat).setPainter fun hj' hfl ↦ ?_
      have hpainter := h.painter
      rw [← hj', hj] at hpainter
      obtain ⟨hmost, hstat⟩ := hpainter hfl
      obtain rfl : fl' = lst :=
        hkept.eq_of_mem (hkept.held _ _ _ _ _ hj) ((hkept.sublist lst).subset hmem)
      subst hfl
      rcases hstat with hP | hle
      · rw [interfaceDict_remove, if_pos rfl]
        exact hmost.erase hmem hP
      · exact .inl (Nat.le_trans hcount hle)
  | raise => exact h.setPainter fun _ ↦ trivial
  | @stop j' fl' i hj hi =>
      split
      · rename_i hstop
        obtain ⟨rfl, rfl⟩ := Action.stop.inj hstop
        have hpainter := h.painter
        rw [hj] at hpainter
        refine ⟨hout, (hpainter rfl).past (Nat.le_trans List.countP_le_length hi), ?_⟩
        rw [painters_setPainter, if_pos rfl]
        trivial
      · exact h.setPainter fun _ ↦ trivial
  | abort => exact h.setPainter fun _ ↦ trivial

/-! ## A painter by itself -/

variable (P fl) in
/-- How far a painter has come by itself that began with `n` of them in the list. -/
def Sparing (n : Nat) (w : Window) : Painter → Prop
  | .idle => n ≤ (w.interfaceDict fl).countP (P ·)
  | .walking fl' i => w.curIf = some fl'.1 ∧
      if fl' = fl then AtLeastHalf P n (w.interfaceDict fl) i
      else n ≤ (w.interfaceDict fl).countP (P ·)
  | .holding fl' i stat lst => w.curIf = some fl'.1 ∧ (∀ lst' ∈ lst, lst' = fl') ∧
      stat ∈ w.interfaceDict fl' ∧
      if fl' = fl then AtLeastHalf P n (w.interfaceDict fl) i ∧
        (P stat → i < (w.interfaceDict fl).countP (P ·))
      else n ≤ (w.interfaceDict fl).countP (P ·)

/-- What goes on besides the painter changes none of it. -/
theorem Sparing.congr {q : Painter} (h : Sparing P fl n w q) (hcur : w'.curIf = w.curIf)
    (hsub : ∀ fl', (w.interfaceDict fl').Sublist (w'.interfaceDict fl'))
    (hcount : (w'.interfaceDict fl).countP (P ·) = (w.interfaceDict fl).countP (P ·)) :
    Sparing P fl n w' q := by
  cases q with
  | idle => exact Nat.le_trans h (Nat.le_of_eq hcount.symm)
  | walking fl' i =>
      refine ⟨hcur.trans h.1, ?_⟩
      have hhalf := h.2
      split at hhalf
      · exact (if_pos ‹_›).mpr (hhalf.congr hcount)
      · exact (if_neg ‹_›).mpr (hcount ▸ hhalf)
  | holding fl' i stat lst =>
      obtain ⟨hcurIf, hlst, hmem, hhalf⟩ := h
      refine ⟨hcur.trans hcurIf, hlst, (hsub fl').subset hmem, ?_⟩
      split at hhalf
      · exact (if_pos ‹_›).mpr ⟨hhalf.1.congr hcount, fun hP ↦ hcount ▸ hhalf.2 hP⟩
      · exact (if_neg ‹_›).mpr (hcount ▸ hhalf)

variable (P fl j) in
structure Spared (n : Nat) (w : Window) : Prop extends w.Outdated P fl where
  painter : Sparing P fl n w (w.painters j)

theorem Spared.moves (h : w.Spared P fl j n) (hkept : w.Kept) (hsolo : a.Solo j)
    (hmoves : Moves w a w') : w'.Spared P fl j (if a = .stop j fl then n / 2 else n) := by
  have hout := h.toOutdated.moves hkept hmoves
  have hpainter := h.painter
  refine ⟨hout, ?_⟩
  cases hmoves with
  | tick | create => exact h.painter.congr rfl (fun _ ↦ List.Sublist.refl _) rfl
  | append hnew =>
      refine h.painter.congr rfl (fun fl' ↦ ?_) (h.countP_append hkept hnew _ _)
      rw [interfaceDict_append]
      exact List.sublist_append_left _ _
  | select => exact hsolo.elim
  | @iter j' name key hj hcur =>
      obtain rfl : j' = j := hsolo
      rw [hj] at hpainter
      rw [painters_setPainter, if_pos rfl, if_neg nofun]
      refine ⟨hcur, ?_⟩
      split
      · exact .start hpainter
      · exact hpainter
  | @next j' fl' i stat hj hstat =>
      obtain rfl : j' = j := hsolo
      rw [hj] at hpainter
      obtain ⟨hcur, hhalf⟩ := hpainter
      rw [painters_setPainter, if_pos rfl, if_neg nofun]
      refine ⟨hcur, nofun, List.mem_of_getElem? hstat, ?_⟩
      split at hhalf
      · subst fl'
        exact (if_pos rfl).mpr ⟨hhalf, (h.front.getElem_iff hstat).mp⟩
      · exact (if_neg ‹_›).mpr hhalf
  | @call j' fl' i stat key hj hcur =>
      obtain rfl : j' = j := hsolo
      rw [hj] at hpainter
      rw [painters_setPainter, if_pos rfl, if_neg nofun]
      have hkey : key = fl'.1 := Option.some.inj (hcur.symm.trans hpainter.1)
      refine ⟨hpainter.1, fun lst' hlst' ↦ ?_, hpainter.2.2⟩
      rw [← Option.some.inj hlst', hkey]
  | @keep j' fl' i stat lst hj hfresh =>
      obtain rfl : j' = j := hsolo
      rw [hj] at hpainter
      obtain ⟨hcur, -, -, hhalf⟩ := hpainter
      rw [painters_setPainter, if_pos rfl, if_neg nofun]
      refine ⟨hcur, ?_⟩
      split at hhalf
      · exact (if_pos ‹_›).mpr hhalf.1.skip
      · exact (if_neg ‹_›).mpr hhalf
  | @remove j' fl' i stat lst hj hold hmem =>
      obtain rfl : j' = j := hsolo
      rw [hj] at hpainter
      obtain ⟨hcur, hlst, -, hhalf⟩ := hpainter
      have hsame : lst = fl' := hlst lst rfl
      subst hsame
      rw [painters_setPainter, if_pos rfl, if_neg nofun]
      refine ⟨hcur, ?_⟩
      split at hhalf
      · subst lst
        rw [if_pos rfl]
        change AtLeastHalf P n ((w.remove fl stat).interfaceDict fl) (i + 1)
        rw [interfaceDict_remove, if_pos rfl]
        by_cases hP : P stat
        · exact hhalf.1.erase hmem hP (hhalf.2 hP)
        · exact hhalf.1.skip.congr (countP_erase_of_not hP)
      · rename_i hne
        rw [if_neg hne]
        change n ≤ ((w.remove lst stat).interfaceDict fl).countP (P ·)
        rw [interfaceDict_remove, if_neg (Ne.symm hne)]
        exact hhalf
  | @raise j' fl' i stat lst hj hold hmem =>
      obtain rfl : j' = j := hsolo
      rw [hj] at hpainter
      exact absurd (hpainter.2.1 lst rfl ▸ hpainter.2.2.1) hmem
  | @stop j' fl' i hj hi =>
      obtain rfl : j' = j := hsolo
      rw [hj] at hpainter
      rw [painters_setPainter, if_pos rfl]
      have hhalf := hpainter.2
      split at hhalf
      · subst fl'
        rw [if_pos rfl]
        exact hhalf.half_le
      · rename_i hne
        rw [if_neg fun heq ↦ hne (Action.stop.inj heq).2]
        exact hhalf
  | abort => exact hsolo.elim

/-! ## Walk after walk -/

theorem half_div_two_pow (n k : Nat) (c : Prop) [Decidable c] :
    (if c then n / 2 ^ k / 2 else n / 2 ^ k) = n / 2 ^ (k + if c then 1 else 0) := by
  split
  · rw [Nat.div_div_eq_div_mul, Nat.pow_succ]
  · rfl

theorem Reduced.run {ls : List Action} (h : w.Reduced P fl j n) (hkept : w.Kept)
    (hrun : run step w ls = some w') : w'.Reduced P fl j (n / 2 ^ ls.count (.stop j fl)) := by
  have hstep (k : Nat) (v : Window) (a : Action) (v' : Window)
      (hv : v.Kept ∧ v.Reduced P fl j (n / 2 ^ k)) (_ : True) (hstep : v.step a = some v') :
      v'.Kept ∧ v'.Reduced P fl j (n / 2 ^ (k + if a = .stop j fl then 1 else 0)) := by
    rw [← half_div_two_pow]
    exact ⟨hv.1.moves (moves_of_step hstep), hv.2.moves hv.1 (moves_of_step hstep)⟩
  have hstart : w.Kept ∧ w.Reduced P fl j (n / 2 ^ 0) := by
    rw [Nat.pow_zero, Nat.div_one]
    exact ⟨hkept, h⟩
  have hend := run_induction_count hstep hstart (fun _ _ ↦ trivial) hrun
  rw [Nat.zero_add] at hend
  exact hend.2

theorem Spared.run {ls : List Action} (h : w.Spared P fl j n) (hkept : w.Kept)
    (hsolo : ∀ a ∈ ls, a.Solo j) (hrun : run step w ls = some w') :
    w'.Spared P fl j (n / 2 ^ ls.count (.stop j fl)) := by
  have hstep (k : Nat) (v : Window) (a : Action) (v' : Window)
      (hv : v.Kept ∧ v.Spared P fl j (n / 2 ^ k)) (ha : a.Solo j) (hstep : v.step a = some v') :
      v'.Kept ∧ v'.Spared P fl j (n / 2 ^ (k + if a = .stop j fl then 1 else 0)) := by
    rw [← half_div_two_pow]
    exact ⟨hv.1.moves (moves_of_step hstep), hv.2.moves hv.1 ha (moves_of_step hstep)⟩
  have hstart : w.Kept ∧ w.Spared P fl j (n / 2 ^ 0) := by
    rw [Nat.pow_zero, Nat.div_one]
    exact ⟨hkept, h⟩
  have hend := run_induction_count hstep hstart hsolo hrun
  rw [Nat.zero_add] at hend
  exact hend.2

end Sweep

/-- Of what is too old in a list, each walk that a painter finishes leaves at most half there,
whatever goes on besides, and just half where the painter is by itself. -/
theorem countP_outdated {now : Rat} {pre ls : List Action} {w w' : Window}
    (hpre : run step (start now) pre = some w) (hrun : run step w ls = some w') {j : Nat}
    (hidle : w.painters j = .idle) (fl : FlowKey) :
    (w'.interfaceDict fl).countP (· ∈ w.outdated fl) ≤
        (w.outdated fl).length / 2 ^ ls.count (.stop j fl) ∧
      ((∀ a ∈ ls, a.Solo j) → w'.painters j = .idle →
        (w'.interfaceDict fl).countP (· ∈ w.outdated fl) =
          (w.outdated fl).length / 2 ^ ls.count (.stop j fl)) := by
  have hkept := kept_of_run hpre
  have hout := hkept.outdated fl
  have hcount : (w.interfaceDict fl).countP (· ∈ w.outdated fl) = (w.outdated fl).length := by
    rw [List.countP_eq_length_filter]
    refine congrArg List.length (List.filter_congr fun stat hstat ↦ decide_eq_decide.mpr ?_)
    exact mem_outdated.trans (and_iff_right hstat)
  have hmost : w.Reduced (· ∈ w.outdated fl) fl j (w.outdated fl).length := by
    refine ⟨hout, Nat.le_of_eq hcount, ?_⟩
    rw [hidle]
    trivial
  have hleast : w.Spared (· ∈ w.outdated fl) fl j (w.outdated fl).length := by
    refine ⟨hout, ?_⟩
    rw [hidle]
    exact Nat.le_of_eq hcount.symm
  have hle := (hmost.run hkept hrun).count_le
  refine ⟨hle, fun hsolo hidle' ↦ Nat.le_antisymm hle ?_⟩
  have hpainter := (hleast.run hkept hsolo hrun).painter
  rwa [hidle'] at hpainter

/-- A flow with three statistics, which come to be too old. -/
def threeOutdated : List Action :=
  [.create, .append ("10.0.0.1", 3) ⟨[97], 1, 2, 3, 4, 5, 6⟩,
    .create, .append ("10.0.0.1", 3) ⟨[97], 7, 8, 9, 10, 11, 12⟩,
    .create, .append ("10.0.0.1", 3) ⟨[97], 7, 8, 9, 10, 11, 13⟩,
    .select ("10.0.0.1", 3), .tick 61]

/-- A walk over them. -/
def walkOfThree : List Action :=
  [.iter 0 [97], .next 0, .call 0, .makeDot 0, .next 0, .call 0, .makeDot 0,
    .stop 0 (("10.0.0.1", 3), [97])]

/-- Of three that are too old, a painter by itself leaves the second. -/
theorem countP_outdated_three : ∃ w w', run step (start 0) threeOutdated = some w ∧
    run step w walkOfThree = some w' ∧
    (w'.interfaceDict (("10.0.0.1", 3), [97])).countP
      (· ∈ w.outdated (("10.0.0.1", 3), [97])) = 1 := by
  have hruns : (run step (start 0) threeOutdated).any fun w =>
      w.painters 0 = .idle ∧ (w.outdated (("10.0.0.1", 3), [97])).length = 3 ∧
        (run step w walkOfThree).any fun w' => w'.painters 0 = .idle := by decide +kernel
  obtain ⟨w, hpre, hw⟩ := (Option.any_eq_true _ _).mp hruns
  obtain ⟨hidle, hlen, hwalk⟩ := of_decide_eq_true hw
  obtain ⟨w', hrun, hidle'⟩ := (Option.any_eq_true _ _).mp hwalk
  have hsolo : ∀ a ∈ walkOfThree, a.Solo 0 := by simp [walkOfThree, Action.Solo]
  have hhalf := (countP_outdated hpre hrun hidle (("10.0.0.1", 3), [97])).2 hsolo
    (of_decide_eq_true hidle')
  rw [hlen] at hhalf
  exact ⟨w, w', hpre, hrun, hhalf⟩

end Window

end Sflow.Collector

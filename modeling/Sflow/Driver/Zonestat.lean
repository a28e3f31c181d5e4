import Mathlib.Data.Fintype.Defs
import Sflow.C.Str
import Sflow.Run.Basic
import Sflow.Run.Interleave

/-!
# Zone statistics

`sflow_get_zone_stat` looks a zone up in an array that all polling threads share, and asks for
what the zone has used.  The array holds handles into a snapshot, and goes with it: when the
snapshot is freed, all its handles are void.

The mutex `sflow_zlock` guards each update of the array and each search in it, but not the time
between them, and not the use of a handle that has been found.
-/

namespace Sflow.Zonestat

open C Run

variable {T : Type*}

/-! ## The snapshot -/

/-- A `zs_zone_t`: the snapshot that it belongs to, by number, and the name that it is for. -/
structure ZsZone where
  usage : Nat
  name : List Char
deriving DecidableEq, Repr

/-- The variables that the threads share. -/
structure Cache where
  /-- The snapshot that has not been freed. -/
  usage : Option Nat
  /-- The array, in which `none` is what `malloc` leaves. -/
  gZoneList : Option (List (Option ZsZone))
  gZoneNum : Nat
  timeStamp : Int
  /-- The number of snapshots so far. -/
  reads : Nat
deriving DecidableEq, Repr

def Cache.init : Cache := ⟨none, none, 0, 0, 0⟩

/-- What the system answers during an update. -/
structure ZoneSys where
  now : Int
  /-- `zs_open` does not fail. -/
  opens : Bool
  /-- The zones that `zs_usage_read` finds, if it does not fail. -/
  zones : Option (List (List Char))
  /-- The time when the update is done. -/
  done : Int
deriving DecidableEq, Repr

def cacheOk : Int := 3

/-- `zs_zone_list`: fills as many entries as there are zones and room. -/
def zsZoneList (zones : List ZsZone) (list : List (Option ZsZone)) (num : Nat) :
    List (Option ZsZone) := (zones.map some).take num ++ list.drop zones.length

/-- The loop of `sflow_update_zone_stat`. -/
def zoneListLoop (zones : List ZsZone) :
    Nat → Option (List (Option ZsZone)) → Nat → Option (Option (List (Option ZsZone)) × Nat)
  | 0, _, _ => none
  | fuel + 1, gZoneList, gZoneNum =>
      let num := zones.length
      let gZoneList := gZoneList.map fun list => zsZoneList zones list gZoneNum
      if gZoneNum < num then zoneListLoop zones fuel (some (List.replicate num none)) num
      else some (gZoneList, gZoneNum)

/-- The array is there, and not too old. -/
def Cache.Fresh (c : Cache) (force : Bool) (now : Int) : Prop :=
  c.gZoneList ≠ none ∧ force = false ∧ now - c.timeStamp < cacheOk

instance (c : Cache) (force : Bool) (now : Int) : Decidable (c.Fresh force now) :=
  inferInstanceAs (Decidable (_ ∧ _ ∧ _))

/-- Two rounds of the loop are enough, as `zoneListLoop_eq` shows. -/
def sflowUpdateZoneStat (force : Bool) (sys : ZoneSys) (c : Cache) : Option Cache :=
  if c.Fresh force sys.now then some c
  else if sys.opens = false then some c
  else
    -- `zs_usage_free`, and then `zs_usage_read`
    match sys.zones with
    | none => some { c with usage := none }
    | some names =>
        let zones : List ZsZone := names.map fun name => ⟨c.reads, name⟩
        (zoneListLoop zones 2 c.gZoneList c.gZoneNum).map fun (gZoneList, gZoneNum) =>
          { usage := some c.reads
            gZoneList := gZoneList
            gZoneNum := gZoneNum
            timeStamp := sys.done
            reads := c.reads + 1 }

namespace Cache

/-- The entries that a search may come to. -/
def entries (c : Cache) : List (Option ZsZone) := (c.gZoneList.getD []).take c.gZoneNum

/-- The handle belongs to the snapshot that is there. -/
def Live (c : Cache) : Option ZsZone → Prop
  | none => False
  | some z => c.usage = some z.usage

instance (c : Cache) : (e : Option ZsZone) → Decidable (c.Live e)
  | none => inferInstanceAs (Decidable False)
  | some z => inferInstanceAs (Decidable (c.usage = some z.usage))

end Cache

/-! ## The search -/

/-- `strncmp` of the zone's name with the one looked for, over the length of the zone's name. -/
def ZsZone.isFor (z : ZsZone) (zname : List Char) : Bool :=
  strncmp z.name zname z.name.length == 0

/-- The entries that are looked at, and the handle that is found.  What a void handle says of its
name is what it said before. -/
def search (zname : List Char) : List (Option ZsZone) → List (Option ZsZone) × Option ZsZone
  | [] => ([], none)
  | none :: es => (none :: (search zname es).1, (search zname es).2)
  | some z :: es =>
      if z.isFor zname then ([some z], some z)
      else (some z :: (search zname es).1, (search zname es).2)

/-! ## The threads -/

/-- Where a thread stands in `sflow_get_zone_stat`. -/
inductive Pc where
  | idle
  /-- The array has been brought up to date, as far as that went. -/
  | updated (zname : List Char)
  /-- A handle has been found, and the mutex given back. -/
  | found (z : ZsZone)
  | missed
deriving DecidableEq, Repr

/-- The thread has a handle to use. -/
def Pc.holds : Pc → Bool
  | found _ => true
  | idle | updated _ | missed => false

/-- What a thread does next: the sections under the mutex, and the use of a handle. -/
inductive Act (T : Type*) where
  | update (t : T) (zname : List Char) (sys : ZoneSys)
  | search (t : T)
  | use (t : T)
  /-- The forced update after a zone has not been found. -/
  | updateAgain (t : T) (sys : ZoneSys)

abbrev State (T : Type*) := Cfg T Cache Pc

def State.init : State T := ⟨.init, fun _ => .idle⟩

namespace State

variable [DecidableEq T]

def step (s : State T) : Act T → Option (State T)
  | .update t zname sys =>
      if s.pc t = .idle then
        (sflowUpdateZoneStat false sys s.sh).map fun c => s.move t c (.updated zname)
      else none
  | .search t =>
      match s.pc t with
      | .updated zname =>
          match (Zonestat.search zname s.sh.entries).2 with
          | some z => some (s.move t s.sh (.found z))
          | none => some (s.move t s.sh .missed)
      | _ => none
  | .use t =>
      match s.pc t with
      | .found _ => some (s.move t s.sh .idle)
      | _ => none
  | .updateAgain t sys =>
      if s.pc t = .missed then
        (sflowUpdateZoneStat true sys s.sh).map fun c => s.move t c .idle
      else none

/-- The handles that a step looks into. -/
def looksInto (s : State T) : Act T → List (Option ZsZone)
  | .search t =>
      match s.pc t with
      | .updated zname => (Zonestat.search zname s.sh.entries).1
      | _ => []
  | .use t =>
      match s.pc t with
      | .found z => [some z]
      | _ => []
  | .update .. | .updateAgain .. => []

/-- They all are of the snapshot that is there. -/
def Safe (s : State T) (act : Act T) : Prop := ∀ e ∈ s.looksInto act, s.sh.Live e

instance (s : State T) (act : Act T) : Decidable (s.Safe act) :=
  inferInstanceAs (Decidable (∀ e ∈ s.looksInto act, s.sh.Live e))

end State

/-! ## What an update does -/

namespace Cache

/-- The array has as many entries as `g_zone_num` says. -/
def Sized (c : Cache) : Prop := (c.gZoneList.getD []).length = c.gZoneNum

theorem Sized.entries_eq {c : Cache} (h : c.Sized) : c.entries = c.gZoneList.getD [] :=
  List.take_of_length_le (Nat.le_of_eq h)

/-- The handles of a snapshot. -/
def handles (usage : Nat) (names : List (List Char)) : List (Option ZsZone) :=
  names.map fun name => some ⟨usage, name⟩

/-- A snapshot has been read: its handles are at the front of the array, and behind them what
was there before. -/
structure Refreshed (c : Cache) (names : List (List Char)) (c' : Cache) : Prop where
  sized : c'.Sized
  usage : c'.usage = some c.reads
  reads : c'.reads = c.reads + 1
  gZoneNum : c'.gZoneNum = max c.gZoneNum names.length
  entries : c'.entries = handles c.reads names ++ c.entries.drop names.length

end Cache

section Update

variable {c c' : Cache} {force : Bool} {sys : ZoneSys}

/-- The loop comes to an end: the second time, there is room for all zones. -/
theorem zoneListLoop_eq (zones : List ZsZone) (fuel : Nat)
    {gZoneList : Option (List (Option ZsZone))} {gZoneNum : Nat}
    (hlen : (gZoneList.getD []).length = gZoneNum) :
    ∃ gZoneList', zoneListLoop zones (fuel + 2) gZoneList gZoneNum =
        some (gZoneList', max gZoneNum zones.length) ∧
      gZoneList'.getD [] = zones.map some ++ (gZoneList.getD []).drop zones.length := by
  rw [zoneListLoop]
  by_cases hroom : gZoneNum < zones.length
  · have hlist : (gZoneList.getD []).drop zones.length = [] :=
      List.drop_eq_nil_of_le (hlen ▸ Nat.le_of_lt hroom)
    rw [if_pos hroom, zoneListLoop, if_neg (Nat.lt_irrefl _), Nat.max_eq_right (Nat.le_of_lt hroom),
      hlist, List.append_nil]
    refine ⟨_, rfl, ?_⟩
    rw [Option.map_some, Option.getD_some, zsZoneList, List.drop_eq_nil_of_le, List.append_nil,
      List.take_of_length_le]
    · exact Nat.le_of_eq (List.length_map _)
    · exact Nat.le_of_eq List.length_replicate
  · have hle := Nat.le_of_not_lt hroom
    rw [if_neg hroom, Nat.max_eq_left hle]
    refine ⟨_, rfl, ?_⟩
    cases gZoneList with
    | none =>
        have hnil : zones = [] := by
          rw [Option.getD_none, List.length_nil] at hlen
          exact List.eq_nil_of_length_eq_zero (by omega)
        rw [hnil]
        rfl
    | some list =>
        have htake : (zones.map some).take gZoneNum = zones.map some :=
          List.take_of_length_le (Nat.le_trans (Nat.le_of_eq (List.length_map _)) hle)
        rw [Option.map_some, Option.getD_some, Option.getD_some, zsZoneList, htake]

theorem sflowUpdateZoneStat_of_fresh (h : c.Fresh force sys.now) :
    sflowUpdateZoneStat force sys c = some c := if_pos h

theorem sflowUpdateZoneStat_of_not_opens (h : sys.opens = false) :
    sflowUpdateZoneStat force sys c = some c := by
  rw [sflowUpdateZoneStat, if_pos h, ite_self]

theorem sflowUpdateZoneStat_of_none (hfresh : ¬c.Fresh force sys.now) (hopens : sys.opens = true)
    (hzones : sys.zones = none) :
    sflowUpdateZoneStat force sys c = some { c with usage := none } := by
  rw [sflowUpdateZoneStat, if_neg hfresh, hopens, if_neg Bool.noConfusion, hzones]

theorem sflowUpdateZoneStat_of_some (hc : c.Sized) (hfresh : ¬c.Fresh force sys.now)
    (hopens : sys.opens = true) {names : List (List Char)} (hzones : sys.zones = some names) :
    ∃ c', sflowUpdateZoneStat force sys c = some c' ∧ c.Refreshed names c' := by
  let zones : List ZsZone := names.map fun name => ⟨c.reads, name⟩
  obtain ⟨gZoneList, hloop, hlist⟩ := zoneListLoop_eq zones 0 hc
  have hzone : zones.map some = Cache.handles c.reads names := List.map_map
  have hlen : zones.length = names.length := List.length_map _
  rw [hlen] at hloop hlist
  rw [hzone, ← hc.entries_eq] at hlist
  have hsized : (gZoneList.getD []).length = max c.gZoneNum names.length := by
    rw [hlist, Cache.handles, List.length_append, List.length_map, List.length_drop,
      hc.entries_eq, hc]
    omega
  let c' : Cache := ⟨some c.reads, gZoneList, max c.gZoneNum names.length, sys.done, c.reads + 1⟩
  have hsized : c'.Sized := hsized
  have hentries := hsized.entries_eq.trans hlist
  refine ⟨c', ?_, hsized, rfl, rfl, rfl, hentries⟩
  rw [sflowUpdateZoneStat, if_neg hfresh, hopens, if_neg Bool.noConfusion, hzones]
  dsimp only
  rw [hloop]
  rfl

/-- An update always ends, in one of three ways. -/
theorem exists_sflowUpdateZoneStat (hc : c.Sized) (force : Bool) (sys : ZoneSys) :
    ∃ c', sflowUpdateZoneStat force sys c = some c' ∧
      ((c' = c ∧ (c.Fresh force sys.now ∨ sys.opens = false)) ∨
        (¬c.Fresh force sys.now ∧ sys.opens = true ∧
          ((sys.zones = none ∧ c' = { c with usage := none }) ∨
            ∃ names, sys.zones = some names ∧ c.Refreshed names c'))) := by
  by_cases hfresh : c.Fresh force sys.now
  · exact ⟨c, sflowUpdateZoneStat_of_fresh hfresh, .inl ⟨rfl, .inl hfresh⟩⟩
  · cases hopens : sys.opens with
    | false => exact ⟨c, sflowUpdateZoneStat_of_not_opens hopens, .inl ⟨rfl, .inr rfl⟩⟩
    | true =>
        cases hzones : sys.zones with
        | none =>
            have hupdate := sflowUpdateZoneStat_of_none hfresh hopens hzones
            exact ⟨_, hupdate, .inr ⟨hfresh, rfl, .inl ⟨rfl, rfl⟩⟩⟩
        | some names =>
            obtain ⟨c', hupdate, hrefreshed⟩ :=
              sflowUpdateZoneStat_of_some hc hfresh hopens hzones
            exact ⟨c', hupdate, .inr ⟨hfresh, rfl, .inr ⟨names, rfl, hrefreshed⟩⟩⟩

end Update

/-! ## Handles that are void -/

namespace Cache

/-- All that the array holds is of the snapshot that is there. -/
structure Current (c : Cache) : Prop where
  sized : c.Sized
  live : ∀ e ∈ c.entries, c.Live e
  lt_reads : ∀ n, c.usage = some n → n < c.reads

/-- A snapshot may be taken: if there are not fewer zones than ever before, or, where it fails,
if nothing has been listed yet. -/
def MayRefresh (c : Cache) (sys : ZoneSys) : Prop :=
  (∀ names ∈ sys.zones, c.gZoneNum ≤ names.length) ∧ (sys.zones = none → c.gZoneNum = 0)

instance (c : Cache) (sys : ZoneSys) : Decidable (c.MayRefresh sys) :=
  inferInstanceAs (Decidable (_ ∧ _))

theorem current_init : Cache.init.Current where
  sized := rfl
  live e he := by cases he
  lt_reads n hn := by cases hn

theorem Sized.length_entries {c : Cache} (h : c.Sized) : c.entries.length = c.gZoneNum := by
  rw [h.entries_eq, h]

section Refresh

variable {c c' : Cache} {names : List (List Char)}

/-- What was there before is void. -/
theorem Refreshed.not_live (h : c.Refreshed names c') (hc : c.Current) {e : Option ZsZone}
    (he : c.Live e) : ¬c'.Live e := by
  cases e with
  | none => exact id
  | some z =>
      intro hlive
      have hlt := hc.lt_reads z.usage he
      have heq : some c.reads = some z.usage := h.usage.symm.trans hlive
      rw [Option.some.injEq] at heq
      omega

theorem Refreshed.live_handles (h : c.Refreshed names c') :
    ∀ e ∈ handles c.reads names, c'.Live e := by
  intro e he
  obtain ⟨name, -, rfl⟩ := List.mem_map.mp he
  exact h.usage

theorem Refreshed.lt_reads (h : c.Refreshed names c') : ∀ n, c'.usage = some n → n < c'.reads := by
  intro n hn
  rw [h.usage, Option.some.injEq] at hn
  rw [h.reads, ← hn]
  exact Nat.lt_succ_self _

/-- As many zones as ever before fill the array. -/
theorem Refreshed.current (h : c.Refreshed names c') (hc : c.Current)
    (hnum : c.gZoneNum ≤ names.length) : c'.Current where
  sized := h.sized
  live := by
    have hrest : c.entries.drop names.length = [] :=
      List.drop_eq_nil_of_le (hc.sized.length_entries ▸ hnum)
    rw [h.entries, hrest, List.append_nil]
    exact h.live_handles
  lt_reads := h.lt_reads

/-- Fewer zones leave an entry from before. -/
theorem Refreshed.exists_not_live (h : c.Refreshed names c') (hc : c.Current)
    (hnum : names.length < c.gZoneNum) : ∃ e ∈ c'.entries, ¬c'.Live e := by
  have hlen : names.length < c.entries.length := hc.sized.length_entries.symm ▸ hnum
  have hmem : c.entries[names.length] ∈ c.entries := List.getElem_mem hlen
  refine ⟨c.entries[names.length], ?_, h.not_live hc (hc.live _ hmem)⟩
  rw [h.entries, List.drop_eq_getElem_cons hlen]
  exact List.mem_append_right _ List.mem_cons_self

/-- A new snapshot makes all handles void, and one that may not be taken leaves some of them in
the array. -/
theorem Current.exists_void (hc : c.Current) {force : Bool} {sys : ZoneSys}
    (hfresh : ¬c.Fresh force sys.now) (hopens : sys.opens = true) :
    ∃ c', sflowUpdateZoneStat force sys c = some c' ∧ (∀ e, c.Live e → ¬c'.Live e) ∧
      (¬c.MayRefresh sys → ∃ e ∈ c'.entries, ¬c'.Live e) := by
  cases hzones : sys.zones with
  | none =>
      have hvoid : ∀ e, ¬Live { c with usage := none } e := by
        rintro (_ | z) hlive
        · exact hlive
        · cases hlive
      refine ⟨_, sflowUpdateZoneStat_of_none hfresh hopens hzones, fun e _ ↦ hvoid e,
        fun hmay ↦ ?_⟩
      have hnum : 0 < c.entries.length := by
        rw [hc.sized.length_entries, Nat.pos_iff_ne_zero]
        refine fun hzero ↦ hmay ⟨fun names hnames ↦ ?_, fun _ ↦ hzero⟩
        rw [hzones] at hnames
        cases hnames
      exact ⟨_, List.getElem_mem hnum, hvoid _⟩
  | some names =>
      obtain ⟨c', hupdate, hrefreshed⟩ := sflowUpdateZoneStat_of_some hc.sized hfresh hopens hzones
      refine ⟨c', hupdate, fun e ↦ hrefreshed.not_live hc, fun hmay ↦ ?_⟩
      refine hrefreshed.exists_not_live hc (Nat.lt_of_not_le fun hnum ↦ hmay ⟨?_, ?_⟩)
      · intro names' hnames
        rw [hzones] at hnames
        cases hnames
        exact hnum
      · intro hnames
        rw [hzones] at hnames
        cases hnames

end Refresh

end Cache

/-! ## The search stays in the array -/

section Search

variable {zname : List Char} {es : List (Option ZsZone)} {e : Option ZsZone} {z : ZsZone}

theorem mem_of_mem_search (h : e ∈ (search zname es).1) : e ∈ es := by
  induction es with
  | nil => exact h
  | cons e' es ih =>
      cases e' with
      | none =>
          rcases List.mem_cons.mp h with rfl | h
          · exact List.mem_cons_self
          · exact List.mem_cons_of_mem _ (ih h)
      | some z =>
          rw [search] at h
          split at h
          · exact List.mem_cons.mpr (.inl (List.mem_singleton.mp h))
          · rcases List.mem_cons.mp h with rfl | h
            · exact List.mem_cons_self
            · exact List.mem_cons_of_mem _ (ih h)

theorem mem_of_search_eq (h : (search zname es).2 = some z) : some z ∈ es := by
  induction es with
  | nil => cases h
  | cons e' es ih =>
      cases e' with
      | none => exact List.mem_cons_of_mem _ (ih h)
      | some z' =>
          rw [search] at h
          split at h
          · rw [← h]
            exact List.mem_cons_self
          · exact List.mem_cons_of_mem _ (ih h)

/-- A search for a name that no zone has comes to the end of the array. -/
theorem search_of_forall (h : ∀ z, some z ∈ es → z.isFor zname = false) :
    search zname es = (es, none) := by
  induction es with
  | nil => rfl
  | cons e' es ih =>
      have hrest := ih fun z hz ↦ h z (List.mem_cons_of_mem _ hz)
      cases e' with
      | none => rw [search, hrest]
      | some z =>
          have hz : ¬z.isFor zname = true := Bool.eq_false_iff.mp (h z List.mem_cons_self)
          rw [search, if_neg hz, hrest]

end Search

/-! ## All runs -/

namespace State

section Orderly

variable (s : State T)

/-- No thread has found a handle and not yet used it. -/
def NoneHeld : Prop := ∀ t, (s.pc t).holds = false

/-- An update that takes a new snapshot does so when no handle of the old one is held, and lists
as many zones as ever before. -/
def OrderlyUpdate (force : Bool) (sys : ZoneSys) : Prop :=
  ¬s.sh.Fresh force sys.now → sys.opens = true → s.NoneHeld ∧ s.sh.MayRefresh sys

/-- So do the updates among the steps. -/
def Orderly (s : State T) : Act T → Prop
  | .update t _ sys => s.pc t = .idle → s.OrderlyUpdate false sys
  | .updateAgain t sys => s.pc t = .missed → s.OrderlyUpdate true sys
  | .search _ | .use _ => True

instance [Fintype T] (force : Bool) (sys : ZoneSys) : Decidable (s.OrderlyUpdate force sys) :=
  have : Decidable s.NoneHeld := inferInstanceAs (Decidable (∀ t, (s.pc t).holds = false))
  inferInstanceAs (Decidable (_ → _ → _ ∧ _))

instance [Fintype T] : (act : Act T) → Decidable (s.Orderly act)
  | .update _ _ _ | .updateAgain _ _ => inferInstanceAs (Decidable (_ → _))
  | .search _ | .use _ => inferInstanceAs (Decidable True)

/-- There is a void handle, in the array or in the hands of a thread. -/
def Exposed : Prop :=
  (∃ e ∈ s.sh.entries, ¬s.sh.Live e) ∨ ∃ t z, s.pc t = .found z ∧ ¬s.sh.Live (some z)

/-- There is none, and the array is as it should be. -/
structure Sound : Prop where
  current : s.sh.Current
  held : ∀ t z, s.pc t = .found z → s.sh.Live (some z)

end Orderly

variable {s s' : State T} {t : T}

theorem sound_init : (init : State T).Sound where
  current := Cache.current_init
  held t z h := by cases h

theorem Sound.not_exposed (h : s.Sound) : ¬s.Exposed := by
  rintro (⟨e, he, hlive⟩ | ⟨t, z, hz, hlive⟩)
  · exact hlive (h.current.live e he)
  · exact hlive (h.held t z hz)

/-- Then no step looks into a void handle. -/
theorem Sound.safe (h : s.Sound) (act : Act T) : s.Safe act := by
  intro e he
  cases act with
  | search t =>
      rw [looksInto] at he
      split at he
      · exact h.current.live e (mem_of_mem_search he)
      · cases he
  | use t =>
      rw [looksInto] at he
      split at he
      · next hfound =>
          rw [List.mem_singleton.mp he]
          exact h.held t _ hfound
      · cases he
  | update => cases he
  | updateAgain => cases he

theorem exists_found_of_not_noneHeld (h : ¬s.NoneHeld) : ∃ u z, s.pc u = .found z := by
  simp only [NoneHeld, not_forall, Bool.not_eq_false] at h
  obtain ⟨u, hu⟩ := h
  cases hpc : s.pc u with
  | found z => exact ⟨u, z, hpc⟩
  | _ =>
      rw [hpc] at hu
      cases hu

variable [DecidableEq T]

/-- A thread that moves on with a sound array, and with a valid handle if with any. -/
theorem Sound.move {c : Cache} {pc : Pc} (hc : c.Current)
    (hpc : ∀ z, pc = .found z → c.Live (some z))
    (hheld : ∀ u z, s.pc u = .found z → c.Live (some z)) :
    State.Sound (s.move t c pc) where
  current := hc
  held u z hu := by
    by_cases hut : u = t
    · subst hut
      rw [Cfg.move_pc_self] at hu
      exact hpc z hu
    · rw [Cfg.move_pc_of_ne _ _ _ _ hut] at hu
      exact hheld u z hu

/-- An orderly update keeps all handles valid. -/
theorem Sound.update (h : s.Sound) {force : Bool} {sys : ZoneSys}
    (horder : s.OrderlyUpdate force sys) {pc : Pc} (hpc : ∀ z, pc ≠ .found z)
    (hupdate : (sflowUpdateZoneStat force sys s.sh).map (fun c => s.move t c pc) = some s') :
    s'.Sound := by
  obtain ⟨c, hc, rfl⟩ := Option.map_eq_some_iff.mp hupdate
  obtain ⟨c', hc', hways⟩ := exists_sflowUpdateZoneStat h.current.sized force sys
  obtain rfl := Option.some.inj (hc.symm.trans hc')
  have hnew : ∀ z, pc = .found z → c.Live (some z) := fun z hz ↦ absurd hz (hpc z)
  rcases hways with ⟨rfl, -⟩ | ⟨hfresh, hopens, hways⟩
  · exact .move h.current hnew h.held
  · obtain ⟨hnone, hmany, hempty⟩ := horder hfresh hopens
    have hheld : ∀ u z, s.pc u = .found z → c.Live (some z) := by
      intro u z hu
      have hno := hnone u
      rw [hu] at hno
      cases hno
    rcases hways with ⟨hzones, rfl⟩ | ⟨names, hzones, hrefreshed⟩
    · have hentries : s.sh.entries = [] :=
        List.eq_nil_of_length_eq_zero (h.current.sized.length_entries.trans (hempty hzones))
      refine .move ⟨h.current.sized, fun e he ↦ ?_, fun n hn ↦ by cases hn⟩ hnew hheld
      have he : e ∈ s.sh.entries := he
      rw [hentries] at he
      cases he
    · exact .move (hrefreshed.current h.current (hmany names hzones)) hnew hheld

/-- A disorderly one leaves a void handle. -/
theorem Sound.exposed (h : s.Sound) {force : Bool} {sys : ZoneSys}
    (horder : ¬s.OrderlyUpdate force sys) (ht : ∀ z, s.pc t ≠ .found z) (pc : Pc) :
    ∃ s' : State T, (sflowUpdateZoneStat force sys s.sh).map (fun c => s.move t c pc) = some s' ∧
      s'.Exposed := by
  have hnot : ¬s.sh.Fresh force sys.now ∧ sys.opens = true ∧
      ¬(s.NoneHeld ∧ s.sh.MayRefresh sys) := by
    simpa only [OrderlyUpdate, Classical.not_imp] using horder
  obtain ⟨hfresh, hopens, hnot⟩ := hnot
  obtain ⟨c, hupdate, hvoid, hleft⟩ := h.current.exists_void hfresh hopens
  refine ⟨s.move t c pc, by rw [hupdate]; rfl, ?_⟩
  by_cases hnone : s.NoneHeld
  · left
    exact hleft fun hmay ↦ hnot ⟨hnone, hmay⟩
  · right
    obtain ⟨u, z, hu⟩ := exists_found_of_not_noneHeld hnone
    have hut : u ≠ t := by
      rintro rfl
      exact ht z hu
    refine ⟨u, z, ?_, hvoid _ (h.held u z hu)⟩
    rw [Cfg.move_pc_of_ne _ _ _ _ hut, hu]

/-- What each step keeps. -/
theorem Sound.step (h : s.Sound) {act : Act T} (horder : s.Orderly act)
    (hstep : s.step act = some s') : s'.Sound := by
  cases act with
  | update t zname sys =>
      rw [State.step] at hstep
      split at hstep
      · next hpc => exact h.update (horder hpc) (fun z hz ↦ by cases hz) hstep
      · cases hstep
  | search t =>
      rw [State.step] at hstep
      split at hstep
      · split at hstep
        · next z hfound =>
            cases hstep
            have hz := h.current.live _ (mem_of_search_eq hfound)
            refine .move h.current (fun z' hz' ↦ ?_) h.held
            cases hz'
            exact hz
        · cases hstep
          exact .move h.current (fun z hz ↦ by cases hz) h.held
      · cases hstep
  | use t =>
      rw [State.step] at hstep
      split at hstep
      · cases hstep
        exact .move h.current (fun z hz ↦ by cases hz) h.held
      · cases hstep
  | updateAgain t sys =>
      rw [State.step] at hstep
      split at hstep
      · next hpc => exact h.update (horder hpc) (fun z hz ↦ by cases hz) hstep
      · cases hstep

/-- In every run whose updates are orderly, all handles that are looked into are of the snapshot
that is there. -/
theorem safe_of_orderly {acts : List (Act T)} (h : Meets step Orderly init acts) :
    Meets step Safe (init : State T) acts :=
  meets_of_meets (fun _ _ _ hs ho hstep ↦ hs.step ho hstep) (fun _ act hs _ ↦ hs.safe act)
    sound_init h

/-- The runs with orderly updates are those in which there never is a void handle. -/
theorem orderly_iff_not_exposed {acts : List (Act T)} :
    (∀ pre, pre <+: acts → ∀ s, run step (init : State T) pre = some s → ¬s.Exposed) ↔
      Meets step Orderly (init : State T) acts := by
  refine meets_iff_forall_prefix (fun _ hs ↦ hs.not_exposed)
    (fun _ _ _ hs ho hstep ↦ hs.step ho hstep) (fun s act hs hnot ↦ ?_) sound_init
  cases act with
  | update t zname sys =>
      rw [Orderly, Classical.not_imp] at hnot
      obtain ⟨hpc, hnot⟩ := hnot
      have ht : ∀ z, s.pc t ≠ .found z := fun z hz ↦ by simp [hpc] at hz
      obtain ⟨s', hs', hexposed⟩ := hs.exposed hnot ht (.updated zname)
      refine ⟨s', ?_, not_not.mpr hexposed⟩
      rw [State.step, if_pos hpc, hs']
  | search t => exact absurd trivial hnot
  | use t => exact absurd trivial hnot
  | updateAgain t sys =>
      rw [Orderly, Classical.not_imp] at hnot
      obtain ⟨hpc, hnot⟩ := hnot
      have ht : ∀ z, s.pc t ≠ .found z := fun z hz ↦ by simp [hpc] at hz
      obtain ⟨s', hs', hexposed⟩ := hs.exposed hnot ht .idle
      refine ⟨s', ?_, not_not.mpr hexposed⟩
      rw [State.step, if_pos hpc, hs']

/-- Where there is a void handle, a thread need only go on, or look for a zone that is not
there. -/
theorem exists_not_safe_of_exposed (h : s.Exposed) {t : T} (ht : s.pc t = .idle) {zname : List Char}
    (hname : ∀ z, some z ∈ s.sh.entries → z.isFor zname = false) :
    ∃ acts, ¬Meets step Safe s acts := by
  rcases h with ⟨e, he, hvoid⟩ | ⟨u, z, hu, hvoid⟩
  · let sys : ZoneSys := ⟨0, false, none, 0⟩
    refine ⟨[.update t zname sys, .search t], fun hmeets ↦ hvoid ?_⟩
    have hstep : s.step (.update t zname sys) = some (s.move t s.sh (.updated zname)) := by
      rw [State.step, if_pos ht, sflowUpdateZoneStat_of_not_opens rfl]
      rfl
    have hsafe := (hmeets.2 _ hstep).1 e
    rw [looksInto, Cfg.move_pc_self] at hsafe
    dsimp only at hsafe
    rw [Cfg.move_sh, search_of_forall hname] at hsafe
    exact hsafe he
  · refine ⟨[.use u], fun hmeets ↦ hvoid (hmeets.1 (some z) ?_)⟩
    rw [looksInto, hu]
    exact List.mem_cons_self

/-! ## Examples -/

/-- What the system says if these are the zones. -/
def zonesAt (now : Int) (names : List String) : ZoneSys :=
  ⟨now, true, some (names.map String.toList), now⟩

/-- The zone `db` is gone when the array is filled again, and then `web` is looked for. -/
def shrinking : List (Act Bool) :=
  [.update true "web".toList (zonesAt 0 ["global", "db"]), .search true,
    .updateAgain true (zonesAt 0 ["global"]), .update true "web".toList (zonesAt 1 ["global"]),
    .search true]

/-- No snapshot can be read any more. -/
def failing : List (Act Bool) :=
  [.update true "db".toList (zonesAt 0 ["global", "db"]), .search true, .use true,
    .update true "db".toList ⟨5, true, none, 5⟩, .search true]

/-- One thread updates the array while another one has a handle out of it. -/
def overtaken : List (Act Bool) :=
  [.update true "db".toList (zonesAt 0 ["global", "db"]), .search true,
    .update false "db".toList (zonesAt 5 ["global", "db"]), .use true]

/-- In all three a void handle is looked into. -/
theorem exists_not_safe : ¬Meets step Safe init shrinking ∧ ¬Meets step Safe init failing ∧
    ¬Meets step Safe init overtaken := by
  decide +kernel

/-- Two threads that look for a zone one after the other, while another zone is booted. -/
def growing : List (Act Bool) :=
  [.update true "db".toList (zonesAt 0 ["global", "db"]), .search true, .use true,
    .update false "db".toList (zonesAt 5 ["global", "db", "web"]), .search false, .use false]

/-- There all handles are good. -/
theorem safe_of_orderly_growing :
    Meets step Orderly init growing ∧ Meets step Safe init growing := by
  have horder : Meets step Orderly init growing := by decide +kernel
  exact ⟨horder, safe_of_orderly horder⟩

end State

end Sflow.Zonestat

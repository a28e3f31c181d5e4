import Sflow.Driver.Zonestat

/-!
# Looking up a zone

All of `sflow_get_zone_stat`, as one thread runs it.  The zone that it asks for its
usage is the first one whose name the name looked for begins with, so a zone whose
name begins with that of another one may be taken for it.
-/

namespace Sflow.Zonestat

open C Run

/-! ## The function -/

/-- The `zs_resource_t` that are told apart. -/
inductive ZsResource where
  | ramRss
  | cpu
  | other
deriving DecidableEq, Repr

/-- What is copied out. -/
inductive ZoneStat where
  | ramRss (buf : UInt64)
  | cpu (buf : UInt32)
deriving DecidableEq, Repr

/-- What the snapshot has on a zone. -/
structure ZsUsage where
  zsResourceUsedZoneUint64 : ZsZone → UInt64
  zsResourceUsedZonePct : ZsZone → UInt32

/-- `none` stands for -1. -/
def ZsUsage.stat (u : ZsUsage) (z : ZsZone) : ZsResource → Option ZoneStat
  | .ramRss => some (.ramRss (u.zsResourceUsedZoneUint64 z))
  | .cpu => some (.cpu (u.zsResourceUsedZonePct z))
  | .other => none

/-- The cache behind the call, and the statistic.  The system answers once before the search and
once when nothing has been found. -/
def sflowGetZoneStat (u : ZsUsage) (zname : List Char) (stat : ZsResource) (sys sys' : ZoneSys)
    (c : Cache) : Option (Cache × Option ZoneStat) := do
  let c ← sflowUpdateZoneStat false sys c
  match (search zname c.entries).2 with
  | none =>
      let c ← sflowUpdateZoneStat true sys' c
      return (c, none)
  | some z => return (c, u.stat z stat)

/-- A thread that is left alone runs the function. -/
theorem exists_run_of_sflowGetZoneStat {T : Type*} [DecidableEq T] {s : State T} {t : T}
    (ht : s.pc t = .idle) {u : ZsUsage} {zname : List Char} {stat : ZsResource}
    {sys sys' : ZoneSys} {c : Cache} {r : Option ZoneStat}
    (h : sflowGetZoneStat u zname stat sys sys' s.sh = some (c, r)) :
    ∃ acts s', run State.step s acts = some s' ∧ s'.sh = c ∧ s'.pc t = .idle := by
  obtain ⟨c₁, hupdate, hrest⟩ := Option.bind_eq_some_iff.mp h
  let s₁ : State T := s.move t c₁ (.updated zname)
  have hstep₁ : s.step (.update t zname sys) = some s₁ := by
    rw [State.step, if_pos ht, hupdate]
    rfl
  have hpc₁ : s₁.pc t = .updated zname := Cfg.move_pc_self _ _ _ _
  have hsh₁ : s₁.sh = c₁ := Cfg.move_sh _ _ _ _
  cases hsearch : (search zname c₁.entries).2 with
  | none =>
      rw [hsearch] at hrest
      obtain ⟨c₂, hagain, hrest⟩ := Option.bind_eq_some_iff.mp hrest
      cases hrest
      let s₂ : State T := s₁.move t c₁ .missed
      have hstep₂ : s₁.step (.search t) = some s₂ := by
        simp only [State.step, hpc₁, hsh₁, hsearch]
        rfl
      have hpc₂ : s₂.pc t = .missed := Cfg.move_pc_self _ _ _ _
      have hsh₂ : s₂.sh = c₁ := Cfg.move_sh _ _ _ _
      have hstep₃ : s₂.step (.updateAgain t sys') = some (s₂.move t c .idle) := by
        rw [State.step, if_pos hpc₂, hsh₂, hagain]
        rfl
      refine ⟨[.update t zname sys, .search t, .updateAgain t sys'], s₂.move t c .idle, ?_,
        Cfg.move_sh _ _ _ _, Cfg.move_pc_self _ _ _ _⟩
      simp only [run, hstep₁, hstep₂, hstep₃, Option.bind_some]
  | some z =>
      rw [hsearch] at hrest
      cases hrest
      let s₂ : State T := s₁.move t c (.found z)
      have hstep₂ : s₁.step (.search t) = some s₂ := by
        simp only [State.step, hpc₁, hsh₁, hsearch]
        rfl
      have hpc₂ : s₂.pc t = .found z := Cfg.move_pc_self _ _ _ _
      have hsh₂ : s₂.sh = c := Cfg.move_sh _ _ _ _
      have hstep₃ : s₂.step (.use t) = some (s₂.move t c .idle) := by
        simp only [State.step, hpc₂, hsh₂]
      refine ⟨[.update t zname sys, .search t, .use t], s₂.move t c .idle, ?_,
        Cfg.move_sh _ _ _ _, Cfg.move_pc_self _ _ _ _⟩
      simp only [run, hstep₁, hstep₂, hstep₃, Option.bind_some]

/-! ## The search -/

section Search

variable {n : Nat} {names : List (List Char)} {zname : List Char}

/-- The zone is taken for the one looked for if the name of that begins with its own. -/
theorem isFor_iff {z : ZsZone} (hz : '\x00' ∉ z.name) :
    z.isFor zname = true ↔ z.name <+: zname := by
  rw [ZsZone.isFor, beq_iff_eq, strncmp_length_eq_zero_left hz]

/-- The search finds the first one. -/
theorem search_handles (hnames : ∀ name ∈ names, '\x00' ∉ name) :
    (search zname (Cache.handles n names)).2 =
      (names.find? fun name => name.isPrefixOf zname).map fun name => ⟨n, name⟩ := by
  induction names with
  | nil => rfl
  | cons name names ih =>
      have hrest := ih fun name hname ↦ hnames name (List.mem_cons_of_mem _ hname)
      have hfor : (⟨n, name⟩ : ZsZone).isFor zname = true ↔ name <+: zname :=
        isFor_iff (hnames name List.mem_cons_self)
      rw [← List.isPrefixOf_iff_prefix] at hfor
      rw [Cache.handles, List.map_cons, search]
      by_cases hprefix : name.isPrefixOf zname = true
      · rw [if_pos (hfor.mpr hprefix), List.find?_cons, hprefix]
        rfl
      · rw [if_neg (mt hfor.mp hprefix), List.find?_cons, eq_false_of_ne_true hprefix]
        exact hrest

/-- The zone with the name looked for, if there is one. -/
def exactZone (n : Nat) (names : List (List Char)) (zname : List Char) : Option ZsZone :=
  if zname ∈ names then some ⟨n, zname⟩ else none

/-- No listed name is one that the name looked for begins with, but for that name itself. -/
def NoProperPrefix (names : List (List Char)) (zname : List Char) : Prop :=
  ∀ name ∈ names, name <+: zname → name = zname

instance (names : List (List Char)) (zname : List Char) : Decidable (NoProperPrefix names zname) :=
  inferInstanceAs (Decidable (∀ _ ∈ _, _))

theorem search_of_noProperPrefix (hnames : ∀ name ∈ names, '\x00' ∉ name)
    (h : NoProperPrefix names zname) :
    (search zname (Cache.handles n names)).2 = exactZone n names zname := by
  rw [search_handles hnames, exactZone]
  cases hfind : names.find? fun name => name.isPrefixOf zname with
  | some name =>
      have hmem := List.mem_of_find?_eq_some hfind
      have hfound : name.isPrefixOf zname = true := by
        rw [List.find?_eq_some_iff_append] at hfind
        exact hfind.1
      have hprefix := List.isPrefixOf_iff_prefix.mp hfound
      obtain rfl := h name hmem hprefix
      rw [if_pos hmem]
      rfl
  | none =>
      have hnot : zname ∉ names := by
        intro hmem
        have hself := List.find?_eq_none.mp hfind zname hmem
        exact hself (List.isPrefixOf_iff_prefix.mpr List.prefix_rfl)
      rw [if_neg hnot]
      rfl

/-- A zone with such a name is found if it is listed first. -/
theorem search_cons_of_prefix {name : List Char} (hname : '\x00' ∉ name) (h : name <+: zname)
    (names : List (List Char)) :
    (search zname (Cache.handles n (name :: names))).2 = some ⟨n, name⟩ := by
  have hfor : ZsZone.isFor ⟨n, name⟩ zname = true := (isFor_iff hname).mpr h
  rw [Cache.handles, List.map_cons, search, if_pos hfor]

end Search

/-! ## Which zone is read -/

/-- The cache is up to date and lists these zones. -/
structure Cache.Lists (c : Cache) (n : Nat) (names : List (List Char)) (sys : ZoneSys) : Prop where
  fresh : c.Fresh false sys.now
  sized : c.Sized
  usage : c.usage = some n
  entries : c.entries = handles n names

/-- In whatever order these zones are listed, the statistic is the one of the zone with the name
looked for, or there is none, and it is always the same zone that is found. -/
structure ReadsZone (n : Nat) (names : List (List Char)) (zname : List Char) : Prop where
  stat : ∀ names', names'.Perm names → ∀ (c : Cache) (sys sys' : ZoneSys),
    c.Lists n names' sys → ∀ (u : ZsUsage) (stat : ZsResource),
      (sflowGetZoneStat u zname stat sys sys' c).map Prod.snd =
        some ((exactZone n names zname).bind fun z => u.stat z stat)
  selected : ∀ names', names'.Perm names →
    (search zname (Cache.handles n names')).2 = (search zname (Cache.handles n names)).2

section Reads

variable {n : Nat} {names : List (List Char)} {zname : List Char}

/-- With an up to date cache the statistic is that of the zone that the search finds. -/
theorem sflowGetZoneStat_snd {c : Cache} {sys : ZoneSys} (h : c.Lists n names sys) (sys' : ZoneSys)
    (u : ZsUsage) (stat : ZsResource) :
    (sflowGetZoneStat u zname stat sys sys' c).map Prod.snd =
      some ((search zname (Cache.handles n names)).2.bind fun z => u.stat z stat) := by
  obtain ⟨c', hagain, -⟩ := exists_sflowUpdateZoneStat h.sized true sys'
  rw [sflowGetZoneStat, sflowUpdateZoneStat_of_fresh h.fresh, ← h.entries]
  simp only [Option.bind_eq_bind, Option.bind_some]
  cases (search zname c.entries).2 with
  | none =>
      simp only [hagain]
      rfl
  | some z => rfl

/-- An up to date cache with these zones. -/
def listing (n : Nat) (names : List (List Char)) (now : Int) : Cache :=
  ⟨some n, some (Cache.handles n names), names.length, now, n + 1⟩

theorem lists_listing (n : Nat) (names : List (List Char)) (sys : ZoneSys) :
    (listing n names sys.now).Lists n names sys := by
  have hsized : (listing n names sys.now).Sized := List.length_map _
  refine ⟨⟨Option.some_ne_none _, rfl, ?_⟩, hsized, rfl, hsized.entries_eq⟩
  rw [listing, Int.sub_self]
  decide

/-- The right zone is read exactly if no other one has a name that the name looked for begins
with. -/
theorem readsZone_iff (hnames : ∀ name ∈ names, '\x00' ∉ name) (n : Nat) (zname : List Char) :
    ReadsZone n names zname ↔ NoProperPrefix names zname := by
  constructor
  · intro h name hname hprefix
    have hperm : (name :: names.erase name).Perm names := (List.perm_cons_erase hname).symm
    let sys : ZoneSys := ⟨0, false, none, 0⟩
    -- a snapshot in which the zone can be told from all others
    let u : ZsUsage := ⟨fun _ ↦ 0, fun z ↦ if z.name = name then 1 else 0⟩
    have hstat := h.stat _ hperm _ sys sys (lists_listing n _ sys) u .cpu
    rw [sflowGetZoneStat_snd (lists_listing n _ sys) sys u .cpu,
      search_cons_of_prefix (hnames name hname) hprefix, exactZone] at hstat
    by_contra hne
    split at hstat
    · simp [ZsUsage.stat, u, Ne.symm hne] at hstat
    · simp [ZsUsage.stat] at hstat
  · intro h
    have hsearch : ∀ names', names'.Perm names →
        (search zname (Cache.handles n names')).2 = exactZone n names zname := by
      intro names' hperm
      have hexact : (search zname (Cache.handles n names')).2 = exactZone n names' zname :=
        search_of_noProperPrefix (fun name hname ↦ hnames name (hperm.subset hname))
          fun name hname ↦ h name (hperm.subset hname)
      simp only [hexact, exactZone, hperm.mem_iff]
    refine ⟨fun names' hperm c sys sys' hlists u stat ↦ ?_, fun names' hperm ↦ ?_⟩
    · rw [sflowGetZoneStat_snd hlists, hsearch names' hperm]
    · rw [hsearch names' hperm, hsearch names (List.Perm.refl names)]

end Reads

/-- Names none of which another one begins with. -/
theorem readsZone_iff_apart :
    ReadsZone 0 ["global".toList, "web".toList, "db".toList] "web".toList :=
  (readsZone_iff (by decide) 0 _).mpr (by decide)

/-- A zone's backup is taken for the zone. -/
theorem not_readsZone_backup :
    let names := ["db".toList, "db-backup".toList]
    (search "db-backup".toList (Cache.handles 0 names)).2 = some ⟨0, "db".toList⟩ ∧
      ¬ ReadsZone 0 names "db-backup".toList := by
  intro names
  have hsearch : (search "db-backup".toList (Cache.handles 0 names)).2 = some ⟨0, "db".toList⟩ := by
    decide
  refine ⟨hsearch, fun h ↦ ?_⟩
  have hswapped := h.selected ["db-backup".toList, "db".toList] (List.Perm.swap _ _ _)
  revert hswapped
  decide

end Sflow.Zonestat

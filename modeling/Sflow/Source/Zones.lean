import Sflow.Source.Added
import Sflow.Source.Items

/-!
# Adding all zones

One request adds a source for every zone that runs.  All of them are made from the one
string of properties, out of which the first one cuts the value of its interval.
-/

namespace Sflow

open C

/-! ## Numbers in properties -/

/-- The number that the items give for a target. -/
def numberOf (target : List Char) (its : List (List Char)) (dft : Int) : Int :=
  if valueOf target its = [] then dft else atoi (valueOf target its)

theorem numberAttribute_eq {prop target : List Char} (hcomma : ',' ∉ target)
    (hnul : '\x00' ∉ target) (hblank : BlankFree prop) {fuel : Nat} (hfuel : prop.length < fuel)
    (dft : Int) :
    numberAttribute fuel prop target dft =
      if (valueOf target (items prop)).length < sfAttrLen then
        some (numberOf target (items prop) dft, joined (cutValue target (items prop)))
      else none := by
  rw [numberAttribute, sflowFindAttribute_eq hcomma hnul hblank hfuel]
  by_cases hfits : (valueOf target (items prop)).length < sfAttrLen
  · rw [if_pos hfits]
    exact if_neg (Nat.not_le_of_lt hfits)
  · rw [if_neg hfits]
    exact if_pos (Nat.le_of_not_lt hfits)

/-- Where the value has been cut out, there is none. -/
theorem valueOf_cutValue_self (target : List Char) (its : List (List Char)) :
    valueOf target (cutValue target its) = [] := by
  induction its with
  | nil => rfl
  | cons item its ih =>
      rw [cutValue]
      by_cases hpre : target <+: item
      · rw [if_pos hpre, valueOf, if_pos (List.prefix_refl _), List.drop_length]
      · rw [if_neg hpre, valueOf, if_neg hpre, ih]

/-! ## One zone -/

def intervalKey : List Char := "interval=".toList

theorem comma_notMem_intervalKey : ',' ∉ intervalKey := by decide +kernel

theorem nul_notMem_intervalKey : '\x00' ∉ intervalKey := by decide +kernel

/-- The interval that the properties give. -/
def intervalOf (prop : List Char) : Int := numberOf intervalKey (items prop) dftIntervalCt

/-- The properties without the interval. -/
def withoutInterval (prop : List Char) : List Char := joined (cutValue intervalKey (items prop))

/-- There is room for the value of the interval. -/
def IntervalFits (prop : List Char) : Prop :=
  (valueOf intervalKey (items prop)).length < sfAttrLen

instance (prop : List Char) : Decidable (IntervalFits prop) := inferInstanceAs (Decidable (_ < _))

theorem valueOf_withoutInterval (prop : List Char) :
    valueOf intervalKey (items (withoutInterval prop)) = [] := by
  rw [withoutInterval, items_joined_cutValue comma_notMem_intervalKey, valueOf_cutValue_self]

theorem intervalOf_withoutInterval (prop : List Char) :
    intervalOf (withoutInterval prop) = dftIntervalCt :=
  if_pos (valueOf_withoutInterval prop)

theorem intervalFits_withoutInterval (prop : List Char) : IntervalFits (withoutInterval prop) := by
  rw [IntervalFits, valueOf_withoutInterval]
  decide

theorem withoutInterval_sublist (prop : List Char) : (withoutInterval prop).Sublist prop :=
  joined_cutValue_sublist intervalKey prop

/-- The number of a zone is an `int`, and not negative. -/
def IsZoneId (zoneId : Int) : Prop := 0 ≤ zoneId ∧ zoneId < 2 ^ 31

theorem IsZoneId.isInt {zoneId : Int} (h : IsZoneId zoneId) : IsInt zoneId := by
  obtain ⟨hlow, hhigh⟩ := h
  constructor <;> omega

/-- All goes well on the way to the source of a zone. -/
structure SourceCalls.ZoneWorks (calls : SourceCalls) : Prop where
  named : calls.zoneName.isSome = true
  started : calls.pthreadCreate = 0

/-- The source that is made for a zone. -/
def zoneSource (name : List Char) (zoneId interval : Int) : SflowSource where
  ssName := name
  ssType := .vhost
  ssIdType := 3
  ssId := zoneId
  ssEnt := 0
  ssFmt := 2
  zoneId := zoneId
  ssInterval := interval
  ssIdType_lt := SflowSource.zoneIdType_lt

/-- The source is that of the zone. -/
structure SflowSource.IsZone (src : SflowSource) (zoneId : Int) : Prop where
  type : src.ssType = .vhost
  id : src.ssId = zoneId
  zone : src.zoneId = zoneId

/-- The sources in the list. -/
def Registry.sources (d : Registry) : List SflowSource :=
  d.sflowAllSources.nodes.map SourceNode.sslnSrc

section Step

variable {prop : List Char} {fuel : Nat}

theorem polledSource_eq (hblank : BlankFree prop) (hfuel : prop.length < fuel)
    (src : SflowSource) :
    polledSource fuel prop src =
      if IntervalFits prop then
        some (.ok { src with ssInterval := intervalOf prop }, withoutInterval prop)
      else none := by
  rw [polledSource]
  change ((numberAttribute fuel prop intervalKey dftIntervalCt).bind fun _ ↦ _) = _
  rw [numberAttribute_eq comma_notMem_intervalKey nul_notMem_intervalKey hblank hfuel]
  by_cases hfits : IntervalFits prop
  · rw [if_pos hfits]
    exact congrArg (Option.bind · _) (if_pos hfits)
  · rw [if_neg hfits]
    exact congrArg (Option.bind · _) (if_neg hfits)

theorem makeSource_zone {calls : SourceCalls} {name : List Char}
    (hname : calls.zoneName = some name) (hblank : BlankFree prop) (hfuel : prop.length < fuel)
    {zoneId : Int} (hid : IsZoneId zoneId) :
    makeSource fuel calls (itoa zoneId) prop .vhost =
      if IntervalFits prop then
        some (.ok (zoneSource name zoneId (intervalOf prop)), withoutInterval prop)
      else none := by
  rw [makeSource, hname]
  simp only [polledSource_eq hblank hfuel, atoi_itoa hid.isInt]
  rfl

/-- One zone is added with the interval of the properties, and that is cut out. -/
theorem sflowMakeAddOneSourceType_zone {calls : SourceCalls} (hcalls : calls.ZoneWorks)
    (hblank : BlankFree prop) (hfuel : prop.length < fuel) (hfits : IntervalFits prop)
    {zoneId : Int} (hid : IsZoneId zoneId) (d : Registry) :
    ∃ d' src, sflowMakeAddOneSourceType fuel calls (itoa zoneId) prop .vhost d =
        some (0, withoutInterval prop, d') ∧
      d'.sources = d.sources ++ [src] ∧ src.IsZone zoneId ∧ src.ssInterval = intervalOf prop := by
  obtain ⟨name, hname⟩ := Option.isSome_iff_exists.mp hcalls.named
  let src := zoneSource name zoneId (intervalOf prop)
  have hstep : (SourceStep.mk src.ssType calls).fails = false := by
    rw [SourceStep.fails, SourceStep.found, SourceStep.started, hcalls.started]
    simp [src, zoneSource, hname]
  obtain ⟨hnodes, hstatus⟩ := sflowAddSourceType_spec calls d (found_of_fails_eq_false hstep)
  refine ⟨(sflowAddSourceType calls src d).2, calls.listed src, ?_, ?_, ⟨rfl, rfl, rfl⟩, rfl⟩
  · rw [sflowMakeAddOneSourceType, makeSource_zone hname hblank hfuel hid, if_pos hfits,
      ← hstatus.mpr hstep]
    rfl
  · rw [Registry.sources, hnodes, List.map_append]
    rfl

theorem sflowMakeAddOneSourceType_none {calls : SourceCalls} (hcalls : calls.ZoneWorks)
    (hblank : BlankFree prop) (hfuel : prop.length < fuel) (hfits : ¬IntervalFits prop)
    {zoneId : Int} (hid : IsZoneId zoneId) (d : Registry) :
    sflowMakeAddOneSourceType fuel calls (itoa zoneId) prop .vhost d = none := by
  obtain ⟨name, hname⟩ := Option.isSome_iff_exists.mp hcalls.named
  rw [sflowMakeAddOneSourceType, makeSource_zone hname hblank hfuel hid, if_neg hfits]
  rfl

end Step

/-! ## All zones -/

/-- The intervals of that many sources made from one string of properties, in turn. -/
def intervalsOf (prop : List Char) : Nat → List Int
  | 0 => []
  | n + 1 => intervalOf prop :: intervalsOf (withoutInterval prop) n

/-- From the second source on it is the default. -/
theorem intervalsOf_withoutInterval (prop : List Char) (n : Nat) :
    intervalsOf (withoutInterval prop) n = List.replicate n dftIntervalCt := by
  induction n generalizing prop with
  | zero => rfl
  | succ n ih => rw [intervalsOf, intervalOf_withoutInterval, ih, List.replicate_succ]

/-- A second source sees whether the interval is the default. -/
theorem forall_mem_intervalsOf (prop : List Char) (n : Nat) :
    (∀ interval ∈ intervalsOf prop n, interval = intervalOf prop) ↔
      (1 < n → intervalOf prop = dftIntervalCt) := by
  match n with
  | 0 => simp [intervalsOf]
  | 1 => simp [intervalsOf]
  | n + 2 =>
      have hlt : 1 < n + 2 := by omega
      rw [intervalsOf, intervalsOf_withoutInterval, forall_prop_of_true hlt]
      constructor
      · intro h
        exact (h dftIntervalCt (by simp)).symm
      · intro h interval hmem
        obtain rfl | hmem := List.mem_cons.mp hmem
        · rfl
        · rw [List.eq_of_mem_replicate hmem, h]

/-- The sources are those of the zones, in order. -/
def AreZones (zoneIds : List Int) (srcs : List SflowSource) : Prop :=
  List.Forall₂ (fun zoneId src ↦ src.IsZone zoneId) zoneIds srcs

theorem addZones_eq {calls : Nat → SourceCalls} {fuel : Nat} (zoneIds : List Int)
    (hids : ∀ zoneId ∈ zoneIds, IsZoneId zoneId) {prop : List Char} (hblank : BlankFree prop)
    (hfuel : prop.length < fuel)
    (hfits : zoneIds ≠ [] → IntervalFits prop) (i : Nat)
    (hcalls : ∀ k < zoneIds.length, (calls (i + k)).ZoneWorks) (d : Registry) :
    ∃ d' srcs, addZones fuel calls zoneIds i 0 prop d = some (0, d') ∧
      d'.sources = d.sources ++ srcs ∧ AreZones zoneIds srcs ∧
      srcs.map SflowSource.ssInterval = intervalsOf prop zoneIds.length := by
  induction zoneIds generalizing prop i d with
  | nil => exact ⟨d, [], rfl, (List.append_nil _).symm, .nil, rfl⟩
  | cons zoneId zoneIds ih =>
      obtain ⟨d₁, src, hadd, hsources, hzone, hinterval⟩ :=
        sflowMakeAddOneSourceType_zone (hcalls 0 (Nat.zero_lt_succ _)) hblank hfuel
          (hfits (List.cons_ne_nil _ _)) (hids zoneId List.mem_cons_self) d
      have hsub := withoutInterval_sublist prop
      have hnext : ∀ k < zoneIds.length, (calls (i + 1 + k)).ZoneWorks := by
        intro k hk
        rw [Nat.add_assoc, Nat.add_comm 1 k]
        exact hcalls (k + 1) (Nat.succ_lt_succ hk)
      obtain ⟨d', srcs, hrest, hsources', hzones, hintervals⟩ :=
        ih (List.forall_mem_cons.mp hids).2 (hblank.subset hsub.subset)
          (Nat.lt_of_le_of_lt hsub.length_le hfuel)
          (fun _ ↦ intervalFits_withoutInterval prop) (i + 1) hnext d₁
      refine ⟨d', src :: srcs, ?_, ?_, .cons hzone hzones, ?_⟩
      · rw [addZones]
        rw [Nat.add_zero] at hadd
        rw [hadd]
        exact hrest
      · rw [hsources', hsources, List.append_assoc, List.singleton_append]
      · rw [List.map_cons, hinterval, hintervals, List.length_cons, intervalsOf]

/-- The request to add all zones. -/
def addAllZones (prop : CStr) : SflowdDoorAsrc where
  sdSrcname := TypeWord.all.str
  sdTypestr := TypeWord.hostVirt.str
  sdPropstr := prop

/-- The request adds a source for every zone, each with the interval that the properties gave
before. -/
def AddsAllZones (env : AddCalls) (zoneIds : List Int) (prop : CStr) (d : Registry) : Prop :=
  ∃ fuel₀, ∀ fuel ≥ fuel₀, ∃ d' srcs, sflowAddSource fuel env (addAllZones prop) d = some (0, d') ∧
    d'.sources = d.sources ++ srcs ∧ AreZones zoneIds srcs ∧
    ∀ src ∈ srcs, src.ssInterval = intervalOf (stripped prop.chars)

/-- The interval is the same however often it is looked up. -/
structure OneInterval (zoneIds : List Int) (prop : CStr) : Prop where
  tab : '\t' ∉ prop.chars
  fits : zoneIds ≠ [] → IntervalFits (stripped prop.chars)
  same : 1 < zoneIds.length → intervalOf (stripped prop.chars) = dftIntervalCt

section Request

variable {env : AddCalls} {globalId : Int} {zoneIds : List Int} {prop : CStr} {fuel : Nat}

theorem blankFree_stripped (h : '\t' ∉ prop.chars) : BlankFree (stripped prop.chars) := by
  rw [stripped_eq_filter h]
  intro c hc
  have hkept := List.of_mem_filter hc
  rwa [Bool.not_eq_true'] at hkept

theorem length_stripped_lt {prop : List Char} {n : Nat} (h : prop.length + n < fuel) :
    (stripped prop).length < fuel :=
  Nat.lt_of_le_of_lt (Nat.le_trans (List.length_filter_le _ _) (Nat.le_add_right _ n)) h

/-- A value that does not fit its buffer stops the first zone. -/
theorem intervalFits_of_addZones {calls : Nat → SourceCalls} {propstr : List Char}
    {d : Registry} {r : Int × Registry} (hcalls : (calls 0).ZoneWorks)
    (hids : ∀ zoneId ∈ zoneIds, IsZoneId zoneId) (hblank : BlankFree propstr)
    (hfuel : propstr.length < fuel) (hne : zoneIds ≠ [])
    (h : addZones fuel calls zoneIds 0 0 propstr d = some r) : IntervalFits propstr := by
  obtain ⟨zoneId, rest, rfl⟩ := List.exists_cons_of_ne_nil hne
  by_contra hfits
  have hid := hids zoneId List.mem_cons_self
  rw [addZones, sflowMakeAddOneSourceType_none hcalls hblank hfuel hfits hid] at h
  cases h

theorem sflowAddSource_addAllZones
    (hzones : listZones env.rounds zoneIdsInit = some (some (globalId :: zoneIds)))
    (hfuel : prop.chars.length + 11 < fuel) (d : Registry) :
    sflowAddSource fuel env (addAllZones prop) d =
      if '\t' ∉ prop.chars then addZones fuel env.source zoneIds 0 0 (stripped prop.chars) d
      else none := by
  have hword : 11 < fuel := Nat.lt_of_le_of_lt (Nat.le_add_left _ _) hfuel
  have hlen : prop.chars.length < fuel := Nat.lt_of_le_of_lt (Nat.le_add_right _ _) hfuel
  have hname := TypeWord.removeSpace_chars .all hword
  have htype := TypeWord.removeSpace_chars .hostVirt hword
  have hall : startsWith TypeWord.all.chars sflowCmdAll = true := by decide +kernel
  change (removeSpace fuel TypeWord.all.chars).bind (fun srcname ↦
    (removeSpace fuel prop.chars).bind fun propstr ↦
      (removeSpace fuel TypeWord.hostVirt.chars).bind fun typestr ↦ _) = _
  rw [hname, htype, Option.bind_some, removeSpace_eq]
  by_cases htab : '\t' ∉ prop.chars
  · rw [if_pos ⟨htab, hlen⟩, if_pos htab, Option.bind_some, Option.bind_some,
      TypeWord.typeOfStr_chars]
    dsimp only [TypeWord.types]
    rw [sflowMakeAddSourceType, if_pos hall, hzones]
    rfl
  · rw [if_neg fun h ↦ htab h.1, if_neg htab, Option.bind_none]

/-- The steps of the request all go well, and then every zone has its source, with the interval
that the properties give, exactly if there is one interval for all of them. -/
theorem addsAllZones_iff
    (hzones : listZones env.rounds zoneIdsInit = some (some (globalId :: zoneIds)))
    (hids : ∀ zoneId ∈ zoneIds, IsZoneId zoneId)
    (hcalls : ∀ k < zoneIds.length, (env.source k).ZoneWorks) (d : Registry) :
    AddsAllZones env zoneIds prop d ↔ OneInterval zoneIds prop := by
  have hcalls' : ∀ k < zoneIds.length, (env.source (0 + k)).ZoneWorks := by
    intro k hk
    rw [Nat.zero_add]
    exact hcalls k hk
  have hrun := fun fuel (hfuel : prop.chars.length + 11 < fuel) (htab : '\t' ∉ prop.chars)
      (hfits : zoneIds ≠ [] → IntervalFits (stripped prop.chars)) ↦
    addZones_eq zoneIds hids (blankFree_stripped htab) (length_stripped_lt hfuel) hfits 0 hcalls' d
  constructor
  · rintro ⟨fuel₀, h⟩
    have hfuel : prop.chars.length + 11 < max fuel₀ (prop.chars.length + 12) :=
      Nat.lt_of_lt_of_le (Nat.lt_succ_self _) (Nat.le_max_right _ _)
    obtain ⟨d', srcs, hadd, hsources, -, hintervals⟩ := h _ (Nat.le_max_left _ _)
    rw [sflowAddSource_addAllZones hzones hfuel] at hadd
    have htab : '\t' ∉ prop.chars := by
      intro htab
      rw [if_neg (not_not.mpr htab)] at hadd
      cases hadd
    rw [if_pos htab] at hadd
    have hfits : zoneIds ≠ [] → IntervalFits (stripped prop.chars) := fun hne ↦
      intervalFits_of_addZones (hcalls 0 (List.length_pos_iff.mpr hne)) hids
        (blankFree_stripped htab) (length_stripped_lt hfuel) hne hadd
    obtain ⟨d₁, srcs₁, hadd₁, hsources₁, -, hintervals₁⟩ := hrun _ hfuel htab hfits
    rw [hadd₁] at hadd
    cases hadd
    obtain rfl := List.append_cancel_left (hsources₁.symm.trans hsources)
    refine ⟨htab, hfits, (forall_mem_intervalsOf _ _).mp ?_⟩
    rw [← hintervals₁]
    exact List.forall_mem_map.mpr hintervals
  · intro h
    refine ⟨prop.chars.length + 12, fun fuel hfuel ↦ ?_⟩
    obtain ⟨d', srcs, hadd, hsources, hzone, hintervals⟩ := hrun fuel hfuel h.tab h.fits
    refine ⟨d', srcs, ?_, hsources, hzone, ?_⟩
    · rw [sflowAddSource_addAllZones hzones hfuel, if_pos h.tab, hadd]
    · have hall := (forall_mem_intervalsOf _ _).mpr h.same
      rw [← hintervals] at hall
      exact List.forall_mem_map.mp hall

end Request

/-- Two zones besides the global one, and no trouble on the way. -/
def twoFineZones : AddCalls := .twoZones .fine .fine

theorem zoneWorks_fine : SourceCalls.ZoneWorks .fine := ⟨rfl, rfl⟩

theorem zoneWorks_twoFineZones (k : Nat) : (twoFineZones.source k).ZoneWorks := by
  rw [twoFineZones, AddCalls.twoZones]
  dsimp only
  rw [ite_self]
  exact zoneWorks_fine

theorem isZoneId_twoFineZones : ∀ zoneId ∈ [3, 7], IsZoneId zoneId := by
  intro zoneId hmem
  rcases List.mem_pair.mp hmem with rfl | rfl
  · exact ⟨by decide, by decide⟩
  · exact ⟨by decide, by decide⟩

theorem listZones_twoFineZones :
    listZones twoFineZones.rounds zoneIdsInit = some (some [0, 3, 7]) := by
  decide +kernel

theorem addsAllZones_iff_twoFineZones :
    AddsAllZones twoFineZones [3, 7] host.sdPropstr .init ↔ OneInterval [3, 7] host.sdPropstr :=
  addsAllZones_iff listZones_twoFineZones isZoneId_twoFineZones
    (fun k _ ↦ zoneWorks_twoFineZones k) .init

/-- Of two zones the second has the default, whatever the properties say. -/
theorem not_addsAllZones_twoFineZones :
    listZones twoFineZones.rounds zoneIdsInit = some (some [0, 3, 7]) ∧
      (∀ k < 2, (twoFineZones.source k).ZoneWorks) ∧
      ¬AddsAllZones twoFineZones [3, 7] host.sdPropstr .init := by
  refine ⟨listZones_twoFineZones, fun k _ ↦ zoneWorks_twoFineZones k, ?_⟩
  rintro ⟨fuel₀, h⟩
  have htab : '\t' ∉ host.sdPropstr.chars := by decide +kernel
  have hfuel : host.sdPropstr.chars.length + 11 < fuel₀ + 40 :=
    Nat.lt_of_lt_of_le (by decide +kernel) (Nat.le_add_left 40 fuel₀)
  obtain ⟨d', srcs, hadd, hsources, -, hintervals⟩ := h (fuel₀ + 40) (Nat.le_add_right _ _)
  rw [sflowAddSource_addAllZones listZones_twoFineZones hfuel, if_pos htab] at hadd
  obtain ⟨d₁, srcs₁, hadd₁, hsources₁, -, hintervals₁⟩ :=
    addZones_eq [3, 7] isZoneId_twoFineZones (blankFree_stripped htab) (length_stripped_lt hfuel)
      (fun _ ↦ by decide +kernel) 0 (fun k _ ↦ zoneWorks_twoFineZones (0 + k)) .init
  rw [hadd₁] at hadd
  cases hadd
  obtain rfl := List.append_cancel_left (hsources₁.symm.trans hsources)
  have hall : ∀ interval ∈ srcs₁.map SflowSource.ssInterval,
      interval = intervalOf (stripped host.sdPropstr.chars) := List.forall_mem_map.mpr hintervals
  rw [hintervals₁] at hall
  revert hall
  decide +kernel

end Sflow

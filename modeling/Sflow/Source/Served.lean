import Sflow.Run.Basic
import Sflow.Source.Words
import Sflow.Source.Zones

/-!
# Requests that are served

A request to add or to show sources returns, whatever it finds, if its strings have no tabs
in them and the value that is looked up for it leaves room for a NUL.
-/

namespace Sflow

open C Run

/-! ## The attribute of a source -/

def rateKey : List Char := "rate=".toList

theorem comma_notMem_rateKey : ',' ∉ rateKey := by decide +kernel

theorem nul_notMem_rateKey : '\x00' ∉ rateKey := by decide +kernel

/-- The attribute that is looked up for a source of a type. -/
def attributeKey (t : SflowSourceType) : List Char :=
  if t = .flowsample then rateKey else intervalKey

def attributeDft (t : SflowSourceType) : Int :=
  if t = .flowsample then dftRateFs else dftIntervalCt

theorem attributeKey_ne_nil (t : SflowSourceType) : attributeKey t ≠ [] := by
  cases t <;> decide +kernel

/-- The rate of a source that is interrupt driven, and the interval of one that is polled. -/
def rateOrInterval (src : SflowSource) : Int :=
  if src.ssType = .flowsample then src.ssRate else src.ssInterval

/-- There is room for the value that is looked up for a source of a type. -/
def AttributeFits (t : SflowSourceType) (prop : List Char) : Prop :=
  (valueOf (attributeKey t) (items prop)).length < sfAttrLen

section Made

variable (calls : SourceCalls) (srcname : List Char) {prop : List Char} {t : SflowSourceType}

theorem polledSource_of_intervalFits {fuel : Nat} (hblank : BlankFree prop)
    (hfuel : prop.length < fuel) (hfits : IntervalFits prop) (src : SflowSource) :
    polledSource fuel prop src =
      some (.ok { src with ssInterval := intervalOf prop }, withoutInterval prop) :=
  (polledSource_eq hblank hfuel src).trans (if_pos hfits)

/-- Making a source comes to an end, and a source that is made has the number that the items
give. -/
theorem makeSource_attribute (hblank : BlankFree prop) (hfits : AttributeFits t prop) :
    ∃ r rest, (∀ fuel, prop.length < fuel →
        makeSource fuel calls srcname prop t = some (r, rest)) ∧
      (t = .vhost → rest = prop ∨ rest = withoutInterval prop) ∧
      ∀ src, r = .ok src →
        rateOrInterval src = numberOf (attributeKey t) (items prop) (attributeDft t) := by
  cases t with
  | flowsample =>
      by_cases hlink : calls.linkId < 0
      · exact ⟨_, _, fun fuel _ ↦ if_pos hlink, by simp, by simp⟩
      · have hmade : ∀ fuel, prop.length < fuel →
            makeSource fuel calls srcname prop .flowsample = _ :=
          fun fuel hfuel ↦ (if_neg hlink).trans <| congrArg (Option.bind · _) <|
            (numberAttribute_eq comma_notMem_rateKey nul_notMem_rateKey hblank hfuel
              dftRateFs).trans (if_pos hfits)
        by_cases hfd : calls.fd < 0
        · refine ⟨_, _, fun fuel hfuel ↦ (hmade fuel hfuel).trans (if_pos hfd), by simp, ?_⟩
          simp
        · refine ⟨_, _, fun fuel hfuel ↦ (hmade fuel hfuel).trans (if_neg hfd), by simp, ?_⟩
          rintro _ ⟨⟩
          rfl
  | ifgeneric | flowstat =>
      by_cases hlink : calls.linkId < 0
      · exact ⟨_, _, fun fuel _ ↦ if_pos hlink, by simp, by simp⟩
      · refine ⟨_, _, fun fuel hfuel ↦ (if_neg hlink).trans
          (polledSource_of_intervalFits hblank hfuel hfits _), by simp, ?_⟩
        rintro _ ⟨⟩
        rfl
  | phyhost =>
      refine ⟨_, _, fun fuel hfuel ↦ polledSource_of_intervalFits hblank hfuel hfits _, by simp, ?_⟩
      rintro _ ⟨⟩
      rfl
  | vhost =>
      cases hname : calls.zoneName with
      | none =>
          refine ⟨.error (-1), prop, fun fuel _ ↦ ?_, fun _ ↦ .inl rfl, by simp⟩
          rw [makeSource, hname]
      | some name =>
          refine ⟨.ok (zoneSource name (atoi srcname) (intervalOf prop)), _, fun fuel hfuel ↦ ?_,
            fun _ ↦ .inr rfl, ?_⟩
          · rw [makeSource, hname]
            exact polledSource_of_intervalFits hblank hfuel hfits _
          · rintro _ ⟨⟩
            rfl
  | interPollSeperation => exact ⟨_, _, fun fuel _ ↦ rfl, by simp, by simp⟩

/-- Where the value does not fit, a source is not made. -/
theorem makeSource_fine_eq_none {fuel : Nat} (hblank : BlankFree prop) (hfuel : prop.length < fuel)
    (ht : t ≠ .interPollSeperation) (hfits : ¬AttributeFits t prop) :
    makeSource fuel .fine srcname prop t = none := by
  cases t with
  | interPollSeperation => exact absurd rfl ht
  | flowsample =>
      exact congrArg (Option.bind · _) <|
        (numberAttribute_eq comma_notMem_rateKey nul_notMem_rateKey hblank hfuel dftRateFs).trans
          (if_neg hfits)
  | _ => exact (polledSource_eq hblank hfuel _).trans (if_neg hfits)

theorem exists_returns_sflowMakeAddOneSourceType (hblank : BlankFree prop)
    (hfits : AttributeFits t prop) (d : Registry) :
    ∃ status rest d', Returns (fun fuel => sflowMakeAddOneSourceType fuel calls srcname prop t d)
        (status, rest, d') ∧ (t = .vhost → rest = prop ∨ rest = withoutInterval prop) := by
  obtain ⟨r, rest, hmake, hrest, -⟩ := makeSource_attribute calls srcname hblank hfits
  have hmake := returns_of_lt hmake
  cases r with
  | error err => exact ⟨err, rest, d, hmake.bind (returns_some _), hrest⟩
  | ok src =>
      let added := sflowAddSourceType calls src d
      exact ⟨added.1, rest, added.2, hmake.bind (returns_some (added.1, rest, added.2)), hrest⟩

end Made

/-! ## Requests to add -/

/-- The loop over the zones comes to an end: from the second zone on there is no value. -/
theorem exists_returns_addZones (calls : Nat → SourceCalls) (zoneIds : List Int) (i : Nat)
    (status : Int) {prop : List Char} (hblank : BlankFree prop) (hfits : IntervalFits prop)
    (d : Registry) :
    ∃ r, Returns (fun fuel => addZones fuel calls zoneIds i status prop d) r := by
  induction zoneIds generalizing i status prop d with
  | nil => exact ⟨_, returns_some (status, d)⟩
  | cons zoneId zoneIds ih =>
      obtain ⟨status₁, rest, d₁, hone, hrest⟩ :=
        exists_returns_sflowMakeAddOneSourceType (calls i) (itoa zoneId) hblank (t := .vhost)
          hfits d
      have hleft : BlankFree rest ∧ IntervalFits rest := by
        rcases hrest rfl with rfl | rfl
        · exact ⟨hblank, hfits⟩
        · exact ⟨hblank.subset (withoutInterval_sublist prop).subset,
            intervalFits_withoutInterval prop⟩
      obtain ⟨r, hr⟩ := ih (i + 1) status₁ hleft.1 hleft.2 d₁
      exact ⟨r, hone.bind hr⟩

/-- The number of zones settles while they are asked for. -/
def AddCalls.Settles (env : AddCalls) : Prop :=
  (listZones env.rounds zoneIdsInit).isSome = true

/-- A value is looked up for the type: for zones only where all of them are asked for. -/
def LooksUp (srcname : List Char) (t : SflowSourceType) : Prop :=
  t = .vhost → startsWith srcname sflowCmdAll = true

theorem exists_returns_sflowMakeAddSourceType {env : AddCalls} (henv : env.Settles)
    (srcname : List Char) {prop : List Char} (hblank : BlankFree prop) {t : SflowSourceType}
    (hfits : LooksUp srcname t → AttributeFits t prop) (d : Registry) :
    ∃ r, Returns (fun fuel => sflowMakeAddSourceType fuel env srcname prop t d) r := by
  by_cases ht : t = .vhost
  · subst ht
    by_cases hall : startsWith srcname sflowCmdAll = true
    · obtain ⟨zones, hzones⟩ := Option.isSome_iff_exists.mp henv
      cases zones with
      | none =>
          refine ⟨(-1, d), returns_of_lt fun fuel (_ : 0 < fuel) ↦ ?_⟩
          rw [sflowMakeAddSourceType, if_pos hall, hzones]
      | some zoneIds =>
          obtain ⟨r, hr⟩ := exists_returns_addZones env.source (zoneIds.drop 1) 0 0 hblank
            (hfits fun _ ↦ hall) d
          refine ⟨r, hr.congr fun fuel ↦ ?_⟩
          rw [sflowMakeAddSourceType, if_pos hall, hzones]
    · exact ⟨(0, d), returns_of_lt fun fuel (_ : 0 < fuel) ↦ if_neg hall⟩
  · obtain ⟨status, rest, d', hone, -⟩ := exists_returns_sflowMakeAddOneSourceType (env.source 0)
      srcname hblank (hfits fun h ↦ absurd h ht) d
    have hrun := hone.map fun r => (r.1, r.2.2)
    refine ⟨(status, d'), hrun.congr fun fuel ↦ ?_⟩
    rw [sflowMakeAddSourceType, Option.map_eq_bind]
    · rfl
    · exact ht

/-- The strings of the request have no tabs in them, and if a value is looked up for it, there
is room for that. -/
structure SflowdDoorAsrc.Served (asrc : SflowdDoorAsrc) : Prop where
  srcname : '\t' ∉ asrc.sdSrcname.chars
  propstr : '\t' ∉ asrc.sdPropstr.chars
  typestr : '\t' ∉ asrc.sdTypestr.chars
  fits : ∀ t, typeOfStr (stripped asrc.sdTypestr.chars) = some (.only t) →
    LooksUp (stripped asrc.sdSrcname.chars) t → AttributeFits t (stripped asrc.sdPropstr.chars)

theorem returns_removeSpace {s : CStr} (h : '\t' ∉ s.chars) :
    Returns (fun fuel => removeSpace fuel s.chars) (stripped s.chars) :=
  returns_of_lt fun fuel hfuel ↦ (removeSpace_eq fuel s.chars).trans (if_pos ⟨h, hfuel⟩)

/-- Such a request returns, whatever the system answers. -/
theorem SflowdDoorAsrc.Served.exists_returns {asrc : SflowdDoorAsrc} (h : asrc.Served)
    {env : AddCalls} (henv : env.Settles) (d : Registry) :
    ∃ r, Returns (fun fuel => sflowAddSource fuel env asrc d) r := by
  have hreads : ∀ r, Returns _ r → Returns (fun fuel => sflowAddSource fuel env asrc d) r :=
    fun r hr ↦ (returns_removeSpace h.srcname).bind <| (returns_removeSpace h.propstr).bind <|
      (returns_removeSpace h.typestr).bind hr
  have hfits := h.fits
  revert hreads hfits
  cases typeOfStr (stripped asrc.sdTypestr.chars) with
  | none => exact fun hreads _ ↦ ⟨_, hreads _ (returns_some (env.err, d))⟩
  | some types =>
      cases types with
      | all => exact fun hreads _ ↦ ⟨_, hreads _ (returns_some (env.err, d))⟩
      | only t =>
          intro hreads hfits
          obtain ⟨r, hr⟩ := exists_returns_sflowMakeAddSourceType henv _
            (blankFree_stripped h.propstr) (hfits t rfl) d
          exact ⟨r, hreads r hr⟩

theorem sflowMakeAddOneSourceType_fine_eq_none {fuel : Nat} {prop : List Char}
    {t : SflowSourceType} (hblank : BlankFree prop) (hfuel : prop.length < fuel)
    (ht : t ≠ .interPollSeperation) (hfits : ¬AttributeFits t prop) (srcname : List Char)
    (d : Registry) :
    sflowMakeAddOneSourceType fuel .fine srcname prop t d = none := by
  rw [sflowMakeAddOneSourceType, makeSource_fine_eq_none srcname hblank hfuel ht hfits]
  rfl

/-- Where there are zones and all goes well, the value is looked up. -/
theorem attributeFits_of_sflowMakeAddSourceType {fuel : Nat} {srcname prop : List Char}
    {t : SflowSourceType} {r : Int × Registry} {d : Registry} (hblank : BlankFree prop)
    (hfuel : prop.length < fuel) (ht : t ≠ .interPollSeperation) (hlook : LooksUp srcname t)
    (h : sflowMakeAddSourceType fuel twoFineZones srcname prop t d = some r) :
    AttributeFits t prop := by
  by_contra hfits
  have hnone := fun srcname ↦
    sflowMakeAddOneSourceType_fine_eq_none hblank hfuel ht hfits srcname d
  by_cases hvhost : t = .vhost
  · subst hvhost
    rw [sflowMakeAddSourceType, if_pos (hlook rfl), listZones_twoFineZones] at h
    change (sflowMakeAddOneSourceType fuel .fine _ prop .vhost d).bind _ = _ at h
    rw [hnone] at h
    cases h
  · rw [sflowMakeAddSourceType] at h
    · change (sflowMakeAddOneSourceType fuel .fine _ prop t d).bind _ = _ at h
      rw [hnone] at h
      cases h
    · exact hvhost

/-- A request that returns there is such a request. -/
theorem served_of_sflowAddSource {fuel : Nat} {asrc : SflowdDoorAsrc} {d : Registry}
    {r : Int × Registry} (hfuel : asrc.sdPropstr.chars.length < fuel)
    (h : sflowAddSource fuel twoFineZones asrc d = some r) : asrc.Served := by
  obtain ⟨srcname, hsrcname, h⟩ := Option.bind_eq_some_iff.mp h
  obtain ⟨propstr, hpropstr, h⟩ := Option.bind_eq_some_iff.mp h
  obtain ⟨typestr, htypestr, h⟩ := Option.bind_eq_some_iff.mp h
  rw [removeSpace_eq, Option.ite_none_right_eq_some] at hsrcname hpropstr htypestr
  obtain ⟨⟨hname, -⟩, ⟨⟩⟩ := hsrcname
  obtain ⟨⟨hprop, -⟩, ⟨⟩⟩ := hpropstr
  obtain ⟨⟨htype, -⟩, ⟨⟩⟩ := htypestr
  refine ⟨hname, hprop, htype, fun t ht hlook ↦ ?_⟩
  rw [ht] at h
  have hsep : t ≠ .interPollSeperation := by
    rintro rfl
    exact typeOfStr_ne_interPollSeperation _ ht
  exact attributeFits_of_sflowMakeAddSourceType (blankFree_stripped hprop)
    (length_stripped_lt (n := 0) hfuel) hsep hlook h

/-! ## Requests to show -/

/-- The strings of the request have no tabs in them. -/
structure SflowdDoorSsrc.Served (ssrc : SflowdDoorSsrc) : Prop where
  srcname : '\t' ∉ ssrc.sdSrcname.chars
  typestr : '\t' ∉ ssrc.sdTypestr.chars

theorem SflowdDoorSsrc.Served.exists_returns {ssrc : SflowdDoorSsrc} (h : ssrc.Served)
    (srcToShowType : SflowSourceType) (d : Registry) :
    ∃ slr, Returns (fun fuel => sflowShowSrc fuel srcToShowType ssrc d) slr := by
  have hwalk : ∀ sel, Returns (fun fuel => showLoop sel fuel d none .empty) _ := fun sel ↦
    returns_of_lt fun fuel hfuel ↦ (@showLoop_eq sel fuel d [] _ rfl).trans (if_pos hfuel)
  exact ⟨_, (returns_removeSpace h.srcname).bind <|
    (returns_removeSpace h.typestr).bind (hwalk _)⟩

theorem served_of_sflowShowSrc {fuel : Nat} {ssrc : SflowdDoorSsrc}
    {srcToShowType : SflowSourceType} {d : Registry} {slr : SflowdSsr}
    (h : sflowShowSrc fuel srcToShowType ssrc d = some slr) : ssrc.Served := by
  obtain ⟨srcname, hsrcname, h⟩ := Option.bind_eq_some_iff.mp h
  obtain ⟨typestr, htypestr, -⟩ := Option.bind_eq_some_iff.mp h
  rw [removeSpace_eq, Option.ite_none_right_eq_some] at hsrcname htypestr
  exact ⟨hsrcname.1.1, htypestr.1.1⟩

end Sflow

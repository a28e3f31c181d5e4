import Sflow.Source.Add
import Sflow.Source.Show

/-!
# Type words

Adding, removing and showing sources each turn the type string of a request into a type by
a chain of comparisons of their own.  What a type string should lead to is the same for all
three: it is a word for a type, or the request fails.
-/

namespace Sflow

open C

/-! ## Words and other strings -/

namespace TypeWord

def list : List TypeWord := [flowSample, ifGeneric, flowStat, hostPhys, hostVirt, all]

theorem mem_list (w : TypeWord) : w ∈ list := by
  cases w <;> decide +kernel

theorem tab_notMem_str (w : TypeWord) : '\t' ∉ w.str.chars := w.tab_notMem_chars

theorem chars_injective {w w' : TypeWord} (h : w.chars = w'.chars) : w = w' := by
  revert h
  cases w <;> cases w' <;> decide +kernel

end TypeWord

/-- The word that a string is, if it is one. -/
def wordOf (typestr : List Char) : Option TypeWord :=
  TypeWord.list.find? fun w ↦ w.chars = typestr

theorem wordOf_eq_some {typestr : List Char} {w : TypeWord} :
    wordOf typestr = some w ↔ typestr = w.chars := by
  constructor
  · intro h
    rw [wordOf] at h
    have hchars := List.find?_some h
    rw [decide_eq_true_eq] at hchars
    exact hchars.symm
  · rintro rfl
    rw [wordOf]
    cases hfind : TypeWord.list.find? (fun w' ↦ w'.chars = w.chars) with
    | none =>
        have hno := List.find?_eq_none.mp hfind w w.mem_list
        exact absurd (decide_eq_true rfl) hno
    | some w' =>
        have hchars := List.find?_some hfind
        rw [decide_eq_true_eq] at hchars
        rw [TypeWord.chars_injective hchars]

/-! ## What a type string should lead to -/

/-- Given that much fuel, a request does what there is to do for the type that its word stands
for, or else fails and has no effect. -/
def ResolvesTo {β : Type} (word : Option TypeWord) (request : Nat → Option (Int × β))
    (selected : Nat → TypeSel → Option (Int × β)) (unchanged : β) : Prop :=
  ∃ fuel₀, ∀ fuel ≥ fuel₀,
    match word with
    | some w => request fuel = selected fuel w.types
    | none => ∃ err, err ≠ 0 ∧ request fuel = some (err, unchanged)

/-- Adding the source of a request, once its type is known. -/
def addSelected (env : AddCalls) (name prop : CStr) (d : Registry) (fuel : Nat) :
    TypeSel → Option (Int × Registry)
  | .only t =>
      sflowMakeAddSourceType fuel env (stripped name.chars) (stripped prop.chars) t d
  | .all => none

/-- `sflow_add_source` knows the words for one type. -/
def AddResolves (typestr : CStr) : Prop :=
  ∀ (env : AddCalls) (name prop : CStr) (d : Registry), '\t' ∉ name.chars → '\t' ∉ prop.chars →
    ResolvesTo ((wordOf (stripped typestr.chars)).filter (· ≠ .all))
      (fun fuel ↦ sflowAddSource fuel env ⟨name, typestr, prop⟩ d)
      (addSelected env name prop d) d

/-- `sflow_remove_source` knows all words. -/
def RemoveResolves (typestr : CStr) : Prop :=
  ∀ (srcToRmType : SflowSourceType) (name : CStr) (d : Registry), '\t' ∉ name.chars →
    ResolvesTo (wordOf (stripped typestr.chars))
      (fun fuel ↦ (sflowRemoveSource fuel srcToRmType ⟨name, typestr⟩ d).map fun d' ↦ (0, d'))
      (fun _ types ↦
        some (0, d.stopSelected fun node ↦ removes (stripped name.chars) types node.sslnSrc)) d

/-- So does `sflow_show_src`. -/
def ShowResolves (typestr : CStr) : Prop :=
  ∀ (srcToShowType : SflowSourceType) (name : CStr) (d : Registry), '\t' ∉ name.chars →
    ResolvesTo (wordOf (stripped typestr.chars))
      (fun fuel ↦ (sflowShowSrc fuel srcToShowType ⟨name, typestr⟩ d).map fun slr ↦ (0, slr))
      (fun _ types ↦
        some (0, .of (d.sflowAllSources.nodes.filter fun node ↦
          shows (stripped name.chars) types node.sslnSrc)))
      .empty

/-- The three requests resolve a type string exactly, and alike. -/
structure ResolvesAlike (typestr : CStr) : Prop where
  add : AddResolves typestr
  remove : RemoveResolves typestr
  shown : ShowResolves typestr

/-! ## What it leads to -/

section Words

variable {typestr : CStr} {w : TypeWord} {fuel : Nat}

/-- Blanks in the string make no difference. -/
theorem removeSpace_typestr (htab : '\t' ∉ typestr.chars) (hword : stripped typestr.chars = w.chars)
    (hfuel : typestr.chars.length < fuel) : removeSpace fuel typestr.chars = some w.chars := by
  rw [removeSpace_eq, if_pos ⟨htab, hfuel⟩, hword]

theorem sflowRemoveSource_typestr (htab : '\t' ∉ typestr.chars)
    (hword : stripped typestr.chars = w.chars) (hfuel : typestr.chars.length + 11 < fuel)
    (unset : SflowSourceType) (name : CStr) (d : Registry) :
    sflowRemoveSource fuel unset ⟨name, typestr⟩ d =
      sflowRemoveSource fuel unset ⟨name, w.str⟩ d := by
  have htype := removeSpace_typestr htab hword (Nat.lt_of_le_of_lt (Nat.le_add_right _ 11) hfuel)
  have hstr : removeSpace fuel w.str.chars = some w.chars :=
    w.removeSpace_chars (Nat.lt_of_le_of_lt (Nat.le_add_left _ _) hfuel)
  rw [sflowRemoveSource, sflowRemoveSource, htype, hstr]

theorem sflowShowSrc_typestr (htab : '\t' ∉ typestr.chars)
    (hword : stripped typestr.chars = w.chars) (hfuel : typestr.chars.length + 11 < fuel)
    (unset : SflowSourceType) (name : CStr) (d : Registry) :
    sflowShowSrc fuel unset ⟨name, typestr⟩ d = sflowShowSrc fuel unset ⟨name, w.str⟩ d := by
  have htype := removeSpace_typestr htab hword (Nat.lt_of_le_of_lt (Nat.le_add_right _ 11) hfuel)
  have hstr : removeSpace fuel w.str.chars = some w.chars :=
    w.removeSpace_chars (Nat.lt_of_le_of_lt (Nat.le_add_left _ _) hfuel)
  rw [sflowShowSrc, sflowShowSrc, htype, hstr]

/-- A word for one type is resolved when a source is added. -/
theorem addResolves_of_word (htab : '\t' ∉ typestr.chars)
    (hword : stripped typestr.chars = w.chars) (hw : w ≠ .all) : AddResolves typestr := by
  intro env name prop d hname hprop
  have hfound : (wordOf (stripped typestr.chars)).filter (· ≠ .all) = some w := by
    rw [wordOf_eq_some.mpr hword]
    exact Option.filter_some_pos (decide_eq_true hw)
  rw [hfound]
  refine ⟨typestr.chars.length + name.chars.length + prop.chars.length + 1, fun fuel hfuel ↦ ?_⟩
  have htypes : ∃ t, w.types = .only t := by
    cases w with
    | all => exact absurd rfl hw
    | _ => exact ⟨_, rfl⟩
  obtain ⟨t, ht⟩ := htypes
  dsimp only
  change (removeSpace fuel name.chars).bind (fun srcname ↦
    (removeSpace fuel prop.chars).bind fun propstr ↦
      (removeSpace fuel typestr.chars).bind fun typestr ↦ _) = _
  rw [removeSpace_typestr htab hword (by omega), removeSpace_eq, removeSpace_eq,
    if_pos ⟨hname, by omega⟩, if_pos ⟨hprop, by omega⟩]
  simp only [Option.bind_some, w.typeOfStr_chars, ht]
  rfl

/-- Every word is resolved when sources are removed. -/
theorem removeResolves_of_word (htab : '\t' ∉ typestr.chars)
    (hword : stripped typestr.chars = w.chars) : RemoveResolves typestr := by
  intro unset name d hname
  rw [wordOf_eq_some.mpr hword]
  refine ⟨typestr.chars.length + 12 + requestFuel name w d, fun fuel hfuel ↦ ?_⟩
  dsimp only
  rw [sflowRemoveSource_typestr htab hword (by omega),
    sflowRemoveSource_of_le hname (by omega)]
  rfl

/-- Every word is resolved when sources are shown. -/
theorem showResolves_of_word (htab : '\t' ∉ typestr.chars)
    (hword : stripped typestr.chars = w.chars) : ShowResolves typestr := by
  intro unset name d hname
  rw [wordOf_eq_some.mpr hword]
  refine ⟨typestr.chars.length + 12 + requestFuel name w d, fun fuel hfuel ↦ ?_⟩
  dsimp only
  rw [sflowShowSrc_typestr htab hword (by omega), sflowShowSrc_of_le hname (by omega)]
  rfl

end Words

/-! ## What other strings lead to -/

/-- Where nothing but zero is reported, a string that is no word does not fail. -/
theorem not_resolvesTo_zero {β : Type} {request : Nat → Option (Int × β)}
    {selected : Nat → TypeSel → Option (Int × β)} {unchanged : β}
    (hzero : ∀ fuel₀, ∃ fuel ≥ fuel₀, ∀ err out, request fuel = some (err, out) → err = 0) :
    ¬ResolvesTo none request selected unchanged := by
  rintro ⟨fuel₀, h⟩
  obtain ⟨fuel, hfuel, hreq⟩ := hzero fuel₀
  obtain ⟨err, hne, heq⟩ := h fuel hfuel
  exact hne (hreq err unchanged heq)

theorem map_zero_eq_some {β : Type} {x : Option β} {err : Int} {out : β}
    (h : (x.map fun b ↦ ((0 : Int), b)) = some (err, out)) : err = 0 := by
  obtain ⟨b, -, heq⟩ := Option.map_eq_some_iff.mp h
  cases heq
  rfl

/-- A word that is found is there, without a tab. -/
theorem exists_word_of_isSome {typestr : CStr} (h : wordOf (stripped typestr.chars) ≠ none) :
    '\t' ∉ typestr.chars ∧ ∃ w : TypeWord, stripped typestr.chars = w.chars := by
  obtain ⟨w, hw⟩ := Option.ne_none_iff_exists'.mp h
  have hword := wordOf_eq_some.mp hw
  refine ⟨fun htab ↦ w.tab_notMem_chars ?_, w, hword⟩
  rw [← hword]
  exact List.mem_filter.mpr ⟨htab, by decide⟩

/-- A request that always reports success resolves no string that is not a word. -/
theorem exists_word_of_resolvesTo {β : Type} {typestr : CStr} {request : Nat → Option β}
    {selected : Nat → TypeSel → Option (Int × β)} {unchanged : β}
    (h : ResolvesTo (wordOf (stripped typestr.chars))
      (fun fuel ↦ (request fuel).map fun b ↦ (0, b)) selected unchanged) :
    '\t' ∉ typestr.chars ∧ ∃ w : TypeWord, stripped typestr.chars = w.chars := by
  apply exists_word_of_isSome
  intro hnone
  rw [hnone] at h
  exact not_resolvesTo_zero (fun fuel₀ ↦ ⟨fuel₀, Nat.le_refl _, fun _ _ ↦ map_zero_eq_some⟩) h

theorem removeResolves_iff (typestr : CStr) :
    RemoveResolves typestr ↔
      '\t' ∉ typestr.chars ∧ ∃ w : TypeWord, stripped typestr.chars = w.chars := by
  constructor
  · intro h
    exact exists_word_of_resolvesTo
      (h .flowsample TypeWord.all.str .init (TypeWord.tab_notMem_str _))
  · rintro ⟨htab, w, hword⟩
    exact removeResolves_of_word htab hword

theorem showResolves_iff (typestr : CStr) :
    ShowResolves typestr ↔
      '\t' ∉ typestr.chars ∧ ∃ w : TypeWord, stripped typestr.chars = w.chars := by
  constructor
  · intro h
    exact exists_word_of_resolvesTo
      (h .flowsample TypeWord.all.str .init (TypeWord.tab_notMem_str _))
  · rintro ⟨htab, w, hword⟩
    exact showResolves_of_word htab hword

/-- All goes well, and what is not set is zero. -/
def AddCalls.fine : AddCalls where
  rounds := []
  source _ := .fine
  err := 0

/-- Whatever the type, adding succeeds, if only as nothing is done. -/
theorem sflowMakeAddSourceType_fine (fuel : Nat) {t : SflowSourceType}
    (ht : t ≠ .interPollSeperation) :
    ∃ d', sflowMakeAddSourceType (fuel + 1) .fine "x".toList [] t .init = some (0, d') := by
  cases t with
  | interPollSeperation => exact absurd rfl ht
  | _ => exact ⟨_, rfl⟩

/-- No word stands for the line between the types. -/
theorem typeOfStr_ne_interPollSeperation (typestr : List Char) :
    typeOfStr typestr ≠ some (.only .interPollSeperation) := by
  unfold typeOfStr
  repeat' split
  all_goals exact fun h ↦ nomatch h

theorem sflowAddSource_fine {typestr : CStr} {fuel : Nat} {err : Int} {d' : Registry}
    (h : sflowAddSource (fuel + 2) .fine ⟨⟨"x".toList, by decide +kernel⟩, typestr, ⟨[], by simp⟩⟩
      .init = some (err, d')) : err = 0 := by
  change (removeSpace (fuel + 2) typestr.chars).bind (fun typestr ↦ _) = _ at h
  obtain ⟨chars, -, h⟩ := Option.bind_eq_some_iff.mp h
  have hsep := typeOfStr_ne_interPollSeperation chars
  revert h hsep
  generalize typeOfStr chars = types
  intro h hsep
  rcases types with _ | _ | t
  · cases h
    rfl
  · cases h
    rfl
  · obtain ⟨d₁, heq⟩ := sflowMakeAddSourceType_fine (fuel + 1) fun ht ↦
      hsep (congrArg (fun t ↦ some (TypeSel.only t)) ht)
    dsimp only at h
    cases heq.symm.trans h
    rfl

theorem addResolves_iff (typestr : CStr) :
    AddResolves typestr ↔
      '\t' ∉ typestr.chars ∧ ∃ w : TypeWord, w ≠ .all ∧ stripped typestr.chars = w.chars := by
  constructor
  · intro h
    have hres := h .fine ⟨"x".toList, by decide +kernel⟩ ⟨[], by simp⟩ .init (by decide +kernel)
      (by simp)
    have hsome : (wordOf (stripped typestr.chars)).filter (· ≠ .all) ≠ none := by
      intro hnone
      rw [hnone] at hres
      refine not_resolvesTo_zero (fun fuel₀ ↦ ⟨fuel₀ + 2, Nat.le_add_right _ _, ?_⟩) hres
      exact fun _ _ ↦ sflowAddSource_fine
    obtain ⟨w, hw⟩ := Option.ne_none_iff_exists'.mp hsome
    obtain ⟨hword, hne⟩ := Option.filter_eq_some_iff.mp hw
    obtain ⟨htab, -⟩ := exists_word_of_isSome (by rw [hword]; exact Option.some_ne_none w)
    exact ⟨htab, w, of_decide_eq_true hne, wordOf_eq_some.mp hword⟩
  · rintro ⟨htab, w, hw, hword⟩
    exact addResolves_of_word htab hword hw

/-- A type string is resolved by all three exactly if it is a word for one type. -/
theorem resolvesAlike_iff (typestr : CStr) :
    ResolvesAlike typestr ↔
      '\t' ∉ typestr.chars ∧ ∃ w : TypeWord, w ≠ .all ∧ stripped typestr.chars = w.chars := by
  constructor
  · intro h
    exact (addResolves_iff typestr).mp h.add
  · rintro ⟨htab, w, hw, hword⟩
    exact ⟨addResolves_of_word htab hword hw, removeResolves_of_word htab hword,
      showResolves_of_word htab hword⟩

/-- A string that goes on behind a word. -/
def hostPhysical : CStr := ⟨"host_physical".toList, by decide +kernel⟩

/-- A string that stops within a word. -/
theorem nul_notMem_host : '\x00' ∉ "host".toList := by decide +kernel

def hostStr : CStr := ⟨"host".toList, nul_notMem_host⟩

/-- With the one a source is added, and with the other all sources are removed of which the type
happens to be in the variable, and success is reported. -/
theorem not_resolvesAlike_hostPhysical :
    ¬AddResolves hostPhysical ∧ ¬RemoveResolves hostStr ∧ ¬ShowResolves hostStr ∧
      (sflowRemoveSource 40 .flowsample ⟨TypeWord.all.str, hostStr⟩ net1AndNet10).map
        (fun d ↦ d.sflowAllSources.nodes) = some [] := by
  refine ⟨?_, ?_, ?_, by decide +kernel⟩
  · rw [addResolves_iff]
    rintro ⟨-, w, -, hword⟩
    revert hword
    cases w <;> decide +kernel
  · rw [removeResolves_iff]
    rintro ⟨-, w, hword⟩
    revert hword
    cases w <;> decide +kernel
  · rw [showResolves_iff]
    rintro ⟨-, w, hword⟩
    revert hword
    cases w <;> decide +kernel

end Sflow

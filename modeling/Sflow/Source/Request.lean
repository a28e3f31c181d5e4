import Sflow.C.Str
import Sflow.Source

/-!
# Requests

What a client sends to the daemon to remove or to show sources is a name and a
type, as two strings.  Blanks are dropped from both before anything else, in place.
-/

namespace Sflow

open C

/-! ## Dropping blanks -/

/-- `remove_space`, from two indices on.  The fuel bounds the rounds of its loop: a tab is
looked at again in every further round, as the first index stays where it is. -/
def removeSpaceFrom : Nat → List Char → Nat → Nat → Option (List Char)
  | 0, _, _, _ => none
  | fuel + 1, prop, index1, index2 =>
      match prop[index1]? with
      | none => some (prop.take index2)
      | some c =>
          if c = '\t' then removeSpaceFrom fuel prop index1 index2
          else if c = ' ' then removeSpaceFrom fuel prop (index1 + 1) index2
          else removeSpaceFrom fuel (prop.set index2 c) (index1 + 1) (index2 + 1)

def removeSpace (fuel : Nat) (prop : List Char) : Option (List Char) :=
  removeSpaceFrom fuel prop 0 0

/-- A string without its blanks. -/
def stripped (prop : List Char) : List Char := prop.filter (· ≠ ' ')

/-- Copying a character down to the second index closes the gap by one and opens it by one. -/
theorem exists_set_gap (done gap rest : List Char) (c : Char) :
    ∃ gap' : List Char, gap'.length = gap.length ∧
      (done ++ (gap ++ c :: rest)).set done.length c = done ++ [c] ++ (gap' ++ rest) := by
  cases gap with
  | nil => exact ⟨[], rfl, by simp⟩
  | cons g gs => exact ⟨gs ++ [c], by simp, by simp⟩

/-- In the middle of the loop: `done` is in place, `gap` is what lies between the two
indices, and `rest` is still to be looked at. -/
theorem removeSpaceFrom_eq (fuel : Nat) (done gap rest : List Char) :
    removeSpaceFrom fuel (done ++ (gap ++ rest)) (done.length + gap.length) done.length =
      if '\t' ∉ rest ∧ rest.length < fuel then some (done ++ stripped rest) else none := by
  induction fuel generalizing done gap rest with
  | zero =>
      rw [removeSpaceFrom, if_neg]
      intro h
      exact Nat.not_lt_zero _ h.2
  | succ fuel ih =>
      rw [removeSpaceFrom]
      cases rest with
      | nil => simp [stripped]
      | cons c rest =>
          have hget : (done ++ (gap ++ c :: rest))[done.length + gap.length]? = some c := by
            simp
          rw [hget]
          dsimp only
          by_cases htab : c = '\t'
          · rw [if_pos htab, ih]
            simp [htab]
          · have hmem : '\t' ∉ c :: rest ↔ '\t' ∉ rest := by
              rw [List.mem_cons, not_or]
              exact and_iff_right fun h ↦ htab h.symm
            have hlen : (c :: rest).length < fuel + 1 ↔ rest.length < fuel := by
              rw [List.length_cons, Nat.add_lt_add_iff_right]
            simp only [if_neg htab, hmem, hlen]
            by_cases hblank : c = ' '
            · have hnext := ih done (gap ++ [c]) rest
              rw [List.append_assoc, List.singleton_append, List.length_append,
                List.length_singleton, ← Nat.add_assoc] at hnext
              rw [if_pos hblank, hnext, hblank]
              simp [stripped]
            · obtain ⟨gap', hgap', hset⟩ := exists_set_gap done gap rest c
              have hnext := ih (done ++ [c]) gap' rest
              rw [List.length_append, List.length_singleton, hgap', Nat.add_right_comm] at hnext
              rw [if_neg hblank, hset, hnext]
              simp [stripped, hblank]

/-- Blanks are dropped from every string without a tab, and a tab is never passed. -/
theorem removeSpace_eq (fuel : Nat) (prop : List Char) :
    removeSpace fuel prop =
      if '\t' ∉ prop ∧ prop.length < fuel then some (stripped prop) else none :=
  removeSpaceFrom_eq fuel [] [] prop

/-- What is a blank for `remove_space`. -/
def isBlank (c : Char) : Bool := c = ' ' || c = '\t'

/-- Without a tab, the blanks are the spaces. -/
theorem stripped_eq_filter {prop : List Char} (h : '\t' ∉ prop) :
    stripped prop = prop.filter (!isBlank ·) := by
  apply List.filter_congr
  intro c hc
  have htab : c ≠ '\t' := fun htab ↦ h (htab ▸ hc)
  simp [isBlank, htab]

/-- `remove_space` comes to an end, whatever the fuel beyond some amount, and then the string is
without its blanks and otherwise as it was. -/
def RemovesBlanks (s : CStr) : Prop :=
  ∃ fuel₀, ∀ fuel ≥ fuel₀, removeSpace fuel s.chars = some (s.chars.filter (!isBlank ·))

/-- A string is rid of its blanks exactly if there is no tab among them. -/
theorem removesBlanks_iff (s : CStr) : RemovesBlanks s ↔ '\t' ∉ s.chars := by
  constructor
  · rintro ⟨fuel₀, h⟩ htab
    have hnone : removeSpace fuel₀ s.chars = none := by
      rw [removeSpace_eq]
      exact if_neg fun hs ↦ hs.1 htab
    have hsome := h fuel₀ (Nat.le_refl _)
    rw [hnone] at hsome
    cases hsome
  · intro htab
    refine ⟨s.chars.length + 1, fun fuel hfuel ↦ ?_⟩
    rw [removeSpace_eq, if_pos ⟨htab, hfuel⟩, stripped_eq_filter htab]

/-- A tab is looked at over and over again. -/
theorem exists_not_removesBlanks : ∃ s : CStr, ¬RemovesBlanks s := by
  refine ⟨⟨"rate=5\t".toList, by decide +kernel⟩, ?_⟩
  rintro ⟨fuel₀, h⟩
  have htab : '\t' ∈ "rate=5\t".toList := by decide +kernel
  have hsome := h fuel₀ (Nat.le_refl _)
  rw [removeSpace_eq, if_neg fun hs ↦ hs.1 htab] at hsome
  cases hsome

/-- Dropping blanks makes no NUL. -/
theorem nul_notMem_stripped (s : CStr) : '\x00' ∉ stripped s.chars := by
  intro h
  exact s.nul_notMem (List.mem_of_mem_filter h)

/-! ## Type words -/

/-- `strncmp` with the word, over its length, is zero. -/
def startsWith (s word : List Char) : Bool := strncmp s word word.length == 0

theorem startsWith_iff {s word : List Char} (h : '\x00' ∉ word) :
    startsWith s word = true ↔ word <+: s := by
  rw [startsWith, beq_iff_eq, strncmp_length_eq_zero h]

/-- `SFLOW_CMD_ALL`. -/
def sflowCmdAll : List Char := "all".toList

/-- What a type word stands for. -/
inductive TypeSel where
  | all
  | only (t : SflowSourceType)
deriving DecidableEq, Repr

def TypeSel.selects : TypeSel → SflowSourceType → Bool
  | all, _ => true
  | only t, t' => t = t'

/-- The chain of comparisons that turns a type string into a type. -/
def typeOfStr (typestr : List Char) : Option TypeSel :=
  if startsWith typestr "flow_sample".toList then some (.only .flowsample)
  else if startsWith typestr "if_generic".toList then some (.only .ifgeneric)
  else if startsWith typestr "flow_stat".toList then some (.only .flowstat)
  else if startsWith typestr "host_phys".toList then some (.only .phyhost)
  else if startsWith typestr "host_virt".toList then some (.only .vhost)
  else if startsWith typestr sflowCmdAll then some .all
  else none

/-- The five words for a type, and the one for all types. -/
inductive TypeWord where
  | flowSample
  | ifGeneric
  | flowStat
  | hostPhys
  | hostVirt
  | all
deriving DecidableEq, Repr

namespace TypeWord

def chars : TypeWord → List Char
  | flowSample => "flow_sample".toList
  | ifGeneric => "if_generic".toList
  | flowStat => "flow_stat".toList
  | hostPhys => "host_phys".toList
  | hostVirt => "host_virt".toList
  | all => sflowCmdAll

/-- The types of source that a word stands for. -/
def types : TypeWord → TypeSel
  | flowSample => .only .flowsample
  | ifGeneric => .only .ifgeneric
  | flowStat => .only .flowstat
  | hostPhys => .only .phyhost
  | hostVirt => .only .vhost
  | all => .all

theorem typeOfStr_chars (w : TypeWord) : typeOfStr w.chars = some w.types := by
  cases w <;> decide +kernel

theorem stripped_chars (w : TypeWord) : stripped w.chars = w.chars := by
  cases w <;> decide +kernel

theorem tab_notMem_chars (w : TypeWord) : '\t' ∉ w.chars := by
  cases w <;> decide +kernel

theorem length_chars_le (w : TypeWord) : w.chars.length ≤ 11 := by
  cases w <;> decide +kernel

theorem removeSpace_chars (w : TypeWord) {fuel : Nat} (h : 11 < fuel) :
    removeSpace fuel w.chars = some w.chars := by
  rw [removeSpace_eq, w.stripped_chars,
    if_pos ⟨w.tab_notMem_chars, Nat.lt_of_le_of_lt w.length_chars_le h⟩]

/-- A word as a client sends it. -/
def str (w : TypeWord) : CStr := ⟨w.chars, by cases w <;> decide +kernel⟩

end TypeWord

/-- What a request does once its name and its type word have been taken apart.  `unset` is
what the type is where the word is not known. -/
theorem request_eq {β : Type*} (k : List Char → TypeSel → Option β) (fuel : Nat) (unset : TypeSel)
    (name : CStr) (w : TypeWord) :
    ((removeSpace fuel name.chars).bind fun srcname =>
        (removeSpace fuel w.str.chars).bind fun typestr =>
          k srcname ((typeOfStr typestr).getD unset)) =
      if '\t' ∉ name.chars ∧ name.chars.length < fuel ∧ w.chars.length < fuel then
        k (stripped name.chars) w.types
      else none := by
  have htype : removeSpace fuel w.str.chars =
      if w.chars.length < fuel then some w.chars else none := by
    change removeSpace fuel w.chars = _
    rw [removeSpace_eq, w.stripped_chars]
    simp only [w.tab_notMem_chars, not_false_eq_true, true_and]
  rw [removeSpace_eq, htype]
  by_cases hname : '\t' ∉ name.chars ∧ name.chars.length < fuel
  · rw [if_pos hname, Option.bind_some]
    by_cases hstr : w.chars.length < fuel
    · rw [if_pos hstr, Option.bind_some, w.typeOfStr_chars, Option.getD_some,
        if_pos ⟨hname.1, hname.2, hstr⟩]
    · rw [if_neg hstr, Option.bind_none, if_neg fun h ↦ hstr h.2.2]
  · rw [if_neg hname, Option.bind_none, if_neg fun h ↦ hname ⟨h.1, h.2.1⟩]

/-- A request to remove sources. -/
structure SflowdDoorRsrc where
  sdSrcname : CStr
  sdTypestr : CStr
deriving DecidableEq

end Sflow

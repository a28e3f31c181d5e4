import Mathlib.Data.List.TakeWhile
import Sflow.Source.Attribute

/-!
# Properties as items

A string of properties is read as the items between its commas.  Looking up an attribute
finds the first item that starts with the target, and cuts the value, which is the rest of
that item, out of the string.
-/

namespace Sflow

open C

/-! ## The next comma -/

theorem commaFrom_append (done rest : List Char) :
    commaFrom (done ++ rest) done.length = (rest.idxOf? ',').map (done.length + ·) := by
  rw [commaFrom, List.drop_left]

/-- In front of an item with others behind it, the next comma is the one that ends it. -/
theorem commaFrom_item {done item rest : List Char} (h : ',' ∉ item) :
    commaFrom (done ++ (item ++ ',' :: rest)) done.length = some (done.length + item.length) := by
  have hidx : (item ++ ',' :: rest).idxOf? ',' = some item.length := by
    induction item with
    | nil => rfl
    | cons c item ih =>
        rw [List.mem_cons, not_or] at h
        rw [List.cons_append, List.idxOf?_cons, ih h.2, if_neg]
        · rfl
        · intro hc
          exact h.1 (beq_iff_eq.mp hc).symm
  rw [commaFrom_append, hidx]
  rfl

theorem commaFrom_last {done item : List Char} (h : ',' ∉ item) :
    commaFrom (done ++ item) done.length = none := by
  rw [commaFrom_append, List.idxOf?_eq_none_iff.mpr h]
  rfl

/-! ## Items -/

/-- The items of a string of properties. -/
def items (prop : List Char) : List (List Char) := prop.splitOn ','

/-- The string that is made of the items. -/
def joined (its : List (List Char)) : List Char := [','].intercalate its

/-- What the first item that starts with the target has behind it. -/
def valueOf (target : List Char) : List (List Char) → List Char
  | [] => []
  | item :: its =>
      if target <+: item then item.drop target.length else valueOf target its

/-- The items, with the value cut out of the first one that starts with the target. -/
def cutValue (target : List Char) : List (List Char) → List (List Char)
  | [] => []
  | item :: its => if target <+: item then target :: its else item :: cutValue target its

/-- Every string is one item, or an item and the string behind its comma. -/
theorem exists_item (prop : List Char) :
    ',' ∉ prop ∨ ∃ item rest, prop = item ++ ',' :: rest ∧ ',' ∉ item := by
  by_cases h : ',' ∈ prop
  · obtain ⟨item, rest, hprop, hitem⟩ := List.eq_append_cons_of_mem h
    exact .inr ⟨item, rest, hprop, hitem⟩
  · exact .inl h

/-- A target without a comma fits a string exactly if it fits its first item. -/
theorem prefix_append_comma {target item rest : List Char} (h : ',' ∉ target) :
    target <+: item ++ ',' :: rest ↔ target <+: item := by
  constructor
  · intro hpre
    obtain hle | hlt := Nat.lt_or_ge item.length target.length
    · obtain ⟨more, rfl⟩ := List.prefix_of_prefix_length_le (List.prefix_append item _) hpre
        (Nat.le_of_lt hle)
      rw [List.prefix_append_right_inj] at hpre
      cases more with
      | nil => simp at hle
      | cons c more =>
          rw [List.cons_prefix_cons] at hpre
          exact absurd (List.mem_append_right _ (hpre.1 ▸ List.mem_cons_self)) h
    · exact List.prefix_of_prefix_length_le hpre (List.prefix_append item _) hlt
  · intro hpre
    exact hpre.trans (List.prefix_append _ _)

theorem items_last {item : List Char} (h : ',' ∉ item) : items item = [item] :=
  List.splitOn_eq_singleton h

theorem items_append {item rest : List Char} (h : ',' ∉ item) :
    items (item ++ ',' :: rest) = item :: items rest :=
  List.splitOn_append_cons_self_of_not_mem h rest

theorem joined_items (prop : List Char) : joined (items prop) = prop :=
  List.intercalate_splitOn ','

theorem items_ne_nil (prop : List Char) : items prop ≠ [] := List.splitOn_ne_nil ',' prop

theorem joined_cons {item : List Char} {its : List (List Char)} (h : its ≠ []) :
    joined (item :: its) = item ++ ',' :: joined its := by
  rw [joined, List.intercalate_cons_of_ne_nil h, List.append_assoc]
  rfl

theorem cutValue_ne_nil {target : List Char} {its : List (List Char)} (h : its ≠ []) :
    cutValue target its ≠ [] := by
  cases its with
  | nil => exact absurd rfl h
  | cons item its =>
      rw [cutValue]
      split <;> exact List.cons_ne_nil _ _

/-! ## Where the loop stops -/

/-- The string has the target as `front ++ target ++ value ++ back`, where the value is that of
the first item for the target. -/
structure Found (target prop front value back : List Char) : Prop where
  split : prop = front ++ (target ++ (value ++ back))
  value : valueOf target (items prop) = value
  cut : joined (cutValue target (items prop)) = front ++ (target ++ back)

/-- No item starts with the target. -/
structure NotFound (target prop : List Char) : Prop where
  value : valueOf target (items prop) = []
  cut : cutValue target (items prop) = items prop

namespace Found

variable {target item rest front value back : List Char}

/-- The target in front of the last item. -/
theorem last (hitem : ',' ∉ target ++ value) : Found target (target ++ value) [] value [] := by
  have hpre : target <+: target ++ value := List.prefix_append _ _
  refine ⟨by simp, ?_, ?_⟩
  · rw [items_last hitem, valueOf, if_pos hpre, List.drop_left]
  · rw [items_last hitem, cutValue, if_pos hpre]
    simp [joined]

/-- The target in front of the first item. -/
theorem first (hitem : ',' ∉ target ++ value) :
    Found target (target ++ value ++ ',' :: rest) [] value (',' :: rest) := by
  have hpre : target <+: target ++ value := List.prefix_append _ _
  refine ⟨by simp, ?_, ?_⟩
  · rw [items_append hitem, valueOf, if_pos hpre, List.drop_left]
  · rw [items_append hitem, cutValue, if_pos hpre, joined_cons (items_ne_nil rest), joined_items]
    rfl

/-- The target behind the first item. -/
theorem later (h : Found target rest front value back) (hitem : ',' ∉ item)
    (hpre : ¬target <+: item) :
    Found target (item ++ ',' :: rest) (item ++ ',' :: front) value back := by
  refine ⟨?_, ?_, ?_⟩
  · rw [h.split]
    simp
  · rw [items_append hitem, valueOf, if_neg hpre, h.value]
  · rw [items_append hitem, cutValue, if_neg hpre,
      joined_cons (cutValue_ne_nil (items_ne_nil rest)), h.cut]
    simp

end Found

namespace NotFound

variable {target item rest : List Char}

theorem last (hitem : ',' ∉ item) (hpre : ¬target <+: item) : NotFound target item := by
  constructor
  · rw [items_last hitem, valueOf, if_neg hpre, valueOf]
  · rw [items_last hitem, cutValue, if_neg hpre, cutValue]

theorem later (h : NotFound target rest) (hitem : ',' ∉ item) (hpre : ¬target <+: item) :
    NotFound target (item ++ ',' :: rest) := by
  constructor
  · rw [items_append hitem, valueOf, if_neg hpre, h.value]
  · rw [items_append hitem, cutValue, if_neg hpre, h.cut]

end NotFound

theorem startsWith_append {target done rest : List Char} (h : '\x00' ∉ target) :
    startsWith ((done ++ rest).drop done.length) target = true ↔ target <+: rest := by
  rw [List.drop_left, startsWith_iff h]

/-- The loop, in front of the items that are still to be looked at. -/
theorem findValue_eq {target : List Char} (hcomma : ',' ∉ target) (hnul : '\x00' ∉ target)
    (fuel : Nat) (done rest : List Char) (hfuel : rest.length < fuel) :
    findValue target fuel (done ++ rest) done.length = some none ∧ NotFound target rest ∨
      ∃ front value back, Found target rest front value back ∧
        findValue target fuel (done ++ rest) done.length =
          some (some (done.length + front.length + target.length, value.length)) := by
  induction fuel generalizing done rest with
  | zero => exact absurd hfuel (Nat.not_lt_zero _)
  | succ fuel ih =>
      rw [findValue]
      simp only [startsWith_append hnul]
      obtain hlast | ⟨item, rest, rfl, hitem⟩ := exists_item rest
      · rw [commaFrom_last hlast]
        by_cases hpre : target <+: rest
        · obtain ⟨value, rfl⟩ := hpre
          refine .inr ⟨[], value, [], .last hlast, ?_⟩
          rw [if_pos (List.prefix_append _ _), valueCount]
          simp [← Nat.add_assoc]
        · rw [if_neg hpre]
          exact .inl ⟨rfl, .last hlast hpre⟩
      · simp only [commaFrom_item hitem, prefix_append_comma hcomma]
        by_cases hpre : target <+: item
        · obtain ⟨value, rfl⟩ := hpre
          refine .inr ⟨[], value, ',' :: rest, .first hitem, ?_⟩
          rw [if_pos (List.prefix_append _ _), valueCount]
          simp [← Nat.add_assoc]
        · rw [if_neg hpre]
          have hshift : done ++ (item ++ ',' :: rest) = (done ++ (item ++ [','])) ++ rest := by
            simp
          have hindex : done.length + item.length + 1 = (done ++ (item ++ [','])).length := by
            simp [Nat.add_assoc]
          have hrest : rest.length < fuel := by
            rw [List.length_append, List.length_cons] at hfuel
            omega
          rw [hshift, hindex]
          obtain ⟨heq, hnone⟩ | ⟨front, value, back, hfound, heq⟩ := ih _ rest hrest
          · exact .inl ⟨heq, hnone.later hitem hpre⟩
          · refine .inr ⟨item ++ ',' :: front, value, back, hfound.later hitem hpre, ?_⟩
            rw [heq]
            simp only [List.length_append, List.length_cons, List.length_nil]
            congr 3
            omega

/-! ## Looking up an attribute -/

theorem stripped_append (s t : List Char) : stripped (s ++ t) = stripped s ++ stripped t :=
  List.filter_append s t

theorem stripped_of_notMem {s : List Char} (h : ' ' ∉ s) : stripped s = s := by
  rw [stripped, List.filter_eq_self]
  intro c hc
  rw [decide_eq_true_eq]
  rintro rfl
  exact h hc

theorem stripped_replicate (n : Nat) : stripped (List.replicate n ' ') = [] := by
  rw [stripped, List.filter_eq_nil_iff]
  intro c hc
  simp [List.eq_of_mem_replicate hc]

/-- Neither a space nor a tab. -/
def BlankFree (prop : List Char) : Prop := ∀ c ∈ prop, isBlank c = false

instance : DecidablePred BlankFree := fun prop => List.decidableBAll _ prop

namespace BlankFree

variable {prop : List Char}

theorem space (h : BlankFree prop) : ' ' ∉ prop := by
  intro hmem
  cases h ' ' hmem

theorem tab (h : BlankFree prop) : '\t' ∉ prop := by
  intro hmem
  cases h '\t' hmem

theorem subset {prop' : List Char} (h : BlankFree prop) (hsub : prop' ⊆ prop) :
    BlankFree prop' := fun c hc ↦ h c (hsub hc)

/-- There is nothing to drop. -/
theorem removeSpace (h : BlankFree prop) {fuel : Nat} (hfuel : prop.length < fuel) :
    removeSpace fuel prop = some prop := by
  rw [removeSpace_eq, if_pos ⟨h.tab, hfuel⟩, stripped_of_notMem h.space]

end BlankFree

/-- What is cut out is gone and nothing is added. -/
theorem joined_cutValue_sublist (target prop : List Char) :
    (joined (cutValue target (items prop))).Sublist prop := by
  have hits : ∀ its : List (List Char), (joined (cutValue target its)).Sublist (joined its) := by
    intro its
    induction its with
    | nil => exact List.Sublist.refl _
    | cons item its ih =>
        rw [cutValue]
        split
        · next hpre =>
            by_cases hits : its = []
            · subst hits
              simpa [joined] using hpre.sublist
            · rw [joined_cons hits, joined_cons hits]
              exact List.Sublist.append hpre.sublist (List.Sublist.refl _)
        · by_cases hits : its = []
          · subst hits
            exact List.Sublist.refl _
          · rw [joined_cons hits, joined_cons (cutValue_ne_nil hits)]
            exact List.Sublist.append (List.Sublist.refl _) (ih.cons_cons _)
  have h := hits (items prop)
  rwa [joined_items] at h

/-- The spaces that a value is overwritten with are removed, and nothing else. -/
theorem removeSpace_overwritten {front back : List Char} (hblank : BlankFree (front ++ back))
    {n fuel : Nat} (hfuel : (front ++ List.replicate n ' ' ++ back).length < fuel) :
    removeSpace fuel (front ++ List.replicate n ' ' ++ back) = some (front ++ back) := by
  have hspace : stripped (front ++ List.replicate n ' ' ++ back) = front ++ back := by
    rw [stripped_append, stripped_append, stripped_replicate, List.append_nil,
      ← stripped_append, stripped_of_notMem hblank.space]
  have htab : '\t' ∉ front ++ List.replicate n ' ' ++ back := by
    intro hmem
    obtain hmem | hmem := List.mem_append.mp hmem
    · obtain hmem | hmem := List.mem_append.mp hmem
      · exact hblank.tab (List.mem_append_left _ hmem)
      · cases List.eq_of_mem_replicate hmem
    · exact hblank.tab (List.mem_append_right _ hmem)
  rw [removeSpace_eq, if_pos ⟨htab, hfuel⟩, hspace]

/-- An attribute is looked up by the first item that starts with it, and its value is cut out. -/
theorem sflowFindAttribute_eq {target prop : List Char} (hcomma : ',' ∉ target)
    (hnul : '\x00' ∉ target) (hblank : BlankFree prop) {fuel : Nat} (hfuel : prop.length < fuel) :
    sflowFindAttribute fuel prop target =
      some (valueOf target (items prop), joined (cutValue target (items prop))) := by
  obtain ⟨heq, hnone⟩ | ⟨front, value, back, hfound, heq⟩ :=
    findValue_eq hcomma hnul fuel [] prop hfuel
  · rw [List.nil_append, List.length_nil] at heq
    rw [sflowFindAttribute, findAttributeFrom, heq, hnone.value, hnone.cut, joined_items]
    simp [hblank.removeSpace hfuel]
  · rw [List.nil_append, List.length_nil, Nat.zero_add, ← List.length_append] at heq
    have hvalue : (prop.drop (front ++ target).length).take value.length = value := by
      rw [hfound.split, ← List.append_assoc, List.drop_left, List.take_left]
    have hblanked : prop.take (front ++ target).length ++ List.replicate value.length ' ' ++
        prop.drop ((front ++ target).length + value.length) =
          front ++ target ++ List.replicate value.length ' ' ++ back := by
      rw [hfound.split, ← List.append_assoc, List.take_left, ← List.drop_drop, List.drop_left,
        List.drop_left]
    have hrest : BlankFree (front ++ target ++ back) := by
      apply hblank.subset
      rw [hfound.split]
      intro c
      simp only [List.mem_append]
      tauto
    have hlen : (front ++ target ++ List.replicate value.length ' ' ++ back).length < fuel := by
      rw [hfound.split] at hfuel
      simp only [List.length_append, List.length_replicate] at hfuel ⊢
      omega
    rw [sflowFindAttribute, findAttributeFrom, heq, hfound.value, hfound.cut]
    simp only [Option.map_some, Option.bind_eq_bind, Option.bind_some]
    rw [hvalue, hblanked, removeSpace_overwritten hrest hlen, Option.bind_some, List.append_assoc]

theorem comma_notMem_items {item prop : List Char} (h : item ∈ items prop) : ',' ∉ item := by
  induction hn : prop.length using Nat.strongRecOn generalizing prop with
  | ind n ih =>
      obtain hlast | ⟨first, rest, rfl, hfirst⟩ := exists_item prop
      · rw [items_last hlast, List.mem_singleton] at h
        rwa [h]
      · rw [items_append hfirst, List.mem_cons] at h
        obtain rfl | h := h
        · exact hfirst
        · refine ih rest.length ?_ h rfl
          rw [← hn, List.length_append, List.length_cons]
          omega

theorem mem_cutValue {target item : List Char} {its : List (List Char)}
    (h : item ∈ cutValue target its) : item = target ∨ item ∈ its := by
  induction its with
  | nil => exact absurd h List.not_mem_nil
  | cons first its ih =>
      rw [cutValue] at h
      split at h
      · obtain rfl | h := List.mem_cons.mp h
        · exact .inl rfl
        · exact .inr (List.mem_cons_of_mem _ h)
      · obtain rfl | h := List.mem_cons.mp h
        · exact .inr List.mem_cons_self
        · exact (ih h).imp_right (List.mem_cons_of_mem _)

/-- What is left of a string has the items that are left of its items. -/
theorem items_joined_cutValue {target : List Char} (hcomma : ',' ∉ target) (prop : List Char) :
    items (joined (cutValue target (items prop))) = cutValue target (items prop) := by
  apply List.splitOn_intercalate
  · intro item hitem
    obtain rfl | hitem := mem_cutValue hitem
    · exact hcomma
    · exact comma_notMem_items hitem
  · exact cutValue_ne_nil (items_ne_nil prop)

/-- The values for another target stay, as an item that starts with one target does not start
with the other. -/
theorem valueOf_cutValue {target other : List Char} (htarget : ¬target <+: other)
    (hother : ¬other <+: target) (its : List (List Char)) :
    valueOf other (cutValue target its) = valueOf other its := by
  induction its with
  | nil => rfl
  | cons item its ih =>
      rw [cutValue]
      by_cases hpre : target <+: item
      · have hitem : ¬other <+: item := by
          intro h
          obtain h | h := List.prefix_or_prefix_of_prefix hpre h
          · exact htarget h
          · exact hother h
        rw [if_pos hpre, valueOf, valueOf, if_neg hother, if_neg hitem]
      · rw [if_neg hpre, valueOf, valueOf, ih]

/-- Looking up an attribute gives the value of the first item for it and cuts that value out,
and neither is seen by who looks up another one. -/
theorem sflowFindAttribute_correct (prop target : CStr) (hblank : BlankFree prop.chars)
    (hcomma : ',' ∉ target.chars) {fuel : Nat}
    (hfuel : prop.chars.length < fuel) :
    ∃ left : CStr, left.chars = joined (cutValue target.chars (items prop.chars)) ∧
      sflowFindAttribute fuel prop.chars target.chars =
        some (valueOf target.chars (items prop.chars), left.chars) ∧
      ∀ other : CStr, ',' ∉ other.chars → ¬target.chars <+: other.chars →
        ¬other.chars <+: target.chars →
        (sflowFindAttribute fuel left.chars other.chars).map Prod.fst =
          (sflowFindAttribute fuel prop.chars other.chars).map Prod.fst := by
  have hsub := joined_cutValue_sublist target.chars prop.chars
  refine ⟨⟨_, fun h ↦ prop.nul_notMem (hsub.subset h)⟩, rfl, ?_, ?_⟩
  · exact sflowFindAttribute_eq hcomma target.nul_notMem hblank hfuel
  · intro other hother hpre hpre'
    have hleft := sflowFindAttribute_eq hother other.nul_notMem (hblank.subset hsub.subset)
      (Nat.lt_of_le_of_lt hsub.length_le hfuel)
    rw [hleft, sflowFindAttribute_eq hother other.nul_notMem hblank hfuel, Option.map_some,
      Option.map_some, items_joined_cutValue hcomma, valueOf_cutValue hpre hpre']

theorem sflowFindAttribute_correct_rate :
    ∃ left : CStr, left.chars = "rate=,interval=20".toList ∧
      sflowFindAttribute 30 "rate=5,interval=20".toList "rate=".toList =
        some ("5".toList, left.chars) ∧
      ∀ other : CStr, ',' ∉ other.chars → ¬"rate=".toList <+: other.chars →
        ¬other.chars <+: "rate=".toList →
        (sflowFindAttribute 30 left.chars other.chars).map Prod.fst =
          (sflowFindAttribute 30 "rate=5,interval=20".toList other.chars).map Prod.fst :=
  sflowFindAttribute_correct ⟨"rate=5,interval=20".toList, by decide +kernel⟩
    ⟨"rate=".toList, by decide +kernel⟩ (by decide +kernel)
    (by decide +kernel) (by decide +kernel)

/-! ## Room for the value -/

/-- `SFADM_PROPSTRLEN`. -/
def sfadmPropstrlen : Nat := 512

/-- An item starts at the front, and behind every comma. -/
def ItemStart (prop : List Char) (index : Nat) : Prop := index = 0 ∨ prop[index - 1]? = some ','

/-- The first item at which the string goes on with the target. -/
structure FirstItem (prop target : List Char) (index : Nat) : Prop where
  start : ItemStart prop index
  starts : target <+: prop.drop index
  first : ∀ i < index, ItemStart prop i → ¬target <+: prop.drop i

theorem ItemStart.le_length {prop : List Char} {index : Nat} (h : ItemStart prop index) :
    index ≤ prop.length := by
  obtain rfl | h := h
  · exact Nat.zero_le _
  · obtain ⟨hlt, -⟩ := List.getElem?_eq_some_iff.mp h
    omega

theorem FirstItem.unique {prop target : List Char} {i j : Nat} (hi : FirstItem prop target i)
    (hj : FirstItem prop target j) : i = j := by
  apply Nat.le_antisymm
  · exact Nat.le_of_not_lt fun hlt ↦ hi.first j hlt hj.start hj.starts
  · exact Nat.le_of_not_lt fun hlt ↦ hj.first i hlt hi.start hi.starts

/-- What is behind the target, up to the next comma. -/
def valueAt (prop target : List Char) (index : Nat) : List Char :=
  (prop.drop (index + target.length)).takeWhile (· ≠ ',')

/-- The value of the first item for the target leaves room for a NUL, and the item has not
ended within the target. -/
def ValueFits (prop target : List Char) : Prop :=
  ∀ index, FirstItem prop target index →
    ',' ∉ target ∧ (valueAt prop target index).length < sfAttrLen

/-- What is copied stays within the buffer and leaves a NUL behind it. -/
def CopiesWithinBounds (prop target : List Char) : Prop :=
  ∃ fuel₀, ∀ fuel ≥ fuel₀, ∃ value : List Char, value.length < sfAttrLen ∧
    attributeBuf fuel prop target =
      some (.ok (value ++ List.replicate (sfAttrLen - value.length) '\x00'))

theorem not_itemStart {done item rest : List Char} (hitem : ',' ∉ item) {i : Nat}
    (hlow : done.length < i) (hhigh : i ≤ done.length + item.length) :
    ¬ItemStart (done ++ (item ++ rest)) i := by
  rintro (rfl | h)
  · exact Nat.not_lt_zero _ hlow
  · rw [List.getElem?_append_right (by omega), List.getElem?_append_left (by omega)] at h
    exact hitem (List.mem_of_getElem? h)

theorem takeWhile_item {value rest : List Char} (h : ',' ∉ value) :
    (value ++ ',' :: rest).takeWhile (· ≠ ',') = value := by
  rw [List.takeWhile_append_of_pos]
  · simp
  · intro c hc
    rw [decide_eq_true_eq]
    rintro rfl
    exact h hc

theorem takeWhile_last {value : List Char} (h : ',' ∉ value) :
    value.takeWhile (· ≠ ',') = value := by
  rw [List.takeWhile_eq_self_iff]
  intro c hc
  rw [decide_eq_true_eq]
  rintro rfl
  exact h hc

section Count

variable {target done rest : List Char}

theorem valueAt_append (done target rest : List Char) :
    valueAt (done ++ (target ++ rest)) target done.length = rest.takeWhile (· ≠ ',') := by
  rw [valueAt, ← List.drop_drop, List.drop_left, List.drop_left]

/-- A value is counted up to its comma or to the end. -/
theorem valueCount_of_notMem (hcomma : ',' ∉ target) (hpre : target <+: rest) :
    valueCount (done ++ rest) (commaFrom (done ++ rest) done.length)
        (done.length + target.length) =
      (valueAt (done ++ rest) target done.length).length := by
  obtain hlast | ⟨item, rest, rfl, hitem⟩ := exists_item rest
  · obtain ⟨value, rfl⟩ := hpre
    have hvalue : ',' ∉ value := fun h ↦ hlast (List.mem_append_right _ h)
    rw [commaFrom_last hlast, valueAt_append, takeWhile_last hvalue, valueCount]
    simp [← Nat.add_assoc]
  · obtain ⟨value, rfl⟩ := (prefix_append_comma hcomma).mp hpre
    have hvalue : ',' ∉ value := fun h ↦ hitem (List.mem_append_right _ h)
    rw [commaFrom_item hitem, List.append_assoc, valueAt_append, takeWhile_item hvalue,
      valueCount]
    simp [← Nat.add_assoc]

/-- With a comma in the target, the next comma is in front of where the value would start. -/
theorem lt_valueCount_of_mem (hcomma : ',' ∈ target) (hpre : target <+: rest)
    (hlen : (done ++ rest).length < sfadmPropstrlen) :
    sfAttrLen < valueCount (done ++ rest) (commaFrom (done ++ rest) done.length)
      (done.length + target.length) := by
  have htarget := hpre.length_le
  obtain hlast | ⟨item, rest, rfl, hitem⟩ := exists_item rest
  · exact absurd (hpre.subset hcomma) hlast
  · have hshort : item.length < target.length := by
      refine Nat.lt_of_not_le fun hle ↦ hitem (List.IsPrefix.subset ?_ hcomma)
      exact List.prefix_of_prefix_length_le hpre (List.prefix_append _ _) hle
    rw [List.length_append, sfadmPropstrlen] at hlen
    rw [commaFrom_item hitem, valueCount, Option.getD_some, if_neg (by omega), sfAttrLen]
    omega

end Count

/-- What is copied: the value of the first item for the target, or for a target with a comma in
it far more than there is room for. -/
structure CopiesValue (prop target : List Char) (start count : Nat) : Prop where
  item : ∃ index, FirstItem prop target index ∧ start = index + target.length ∧
    (',' ∉ target → count = (valueAt prop target index).length)
  beyond : ',' ∈ target → sfAttrLen < count

/-- An item starts behind a comma. -/
theorem itemStart_behind (done item rest : List Char) :
    ItemStart (done ++ (item ++ ',' :: rest)) (done.length + item.length + 1) := by
  right
  rw [Nat.add_sub_cancel, List.getElem?_append_right (Nat.le_add_right _ _),
    Nat.add_sub_cancel_left, List.getElem?_append_right (Nat.le_refl _), Nat.sub_self]
  rfl

/-- Within the last item no other one starts. -/
theorem not_firstItem_of_last {done rest target : List Char} (hlast : ',' ∉ rest)
    (hhere : ∀ i ≤ done.length, ItemStart (done ++ rest) i → ¬target <+: (done ++ rest).drop i)
    (i : Nat) : ¬FirstItem (done ++ rest) target i := by
  intro hi
  obtain hlt | hle := Nat.lt_or_ge done.length i
  · have hhigh := hi.start.le_length
    rw [List.length_append] at hhigh
    have hno := @not_itemStart done rest [] hlast i hlt hhigh
    rw [List.append_nil] at hno
    exact hno hi.start
  · exact hhere i hle hi.start hi.starts

/-- The loop, in front of the items that are still to be looked at. -/
theorem findValue_spec {target : List Char} (hnul : '\x00' ∉ target) (fuel : Nat)
    (done rest : List Char) (hfuel : rest.length < fuel)
    (hlen : (done ++ rest).length < sfadmPropstrlen) (hstart : ItemStart (done ++ rest) done.length)
    (hdone : ∀ i < done.length, ItemStart (done ++ rest) i →
      ¬target <+: (done ++ rest).drop i) :
    findValue target fuel (done ++ rest) done.length = some none ∧
        (∀ i, ¬FirstItem (done ++ rest) target i) ∨
      ∃ start count, CopiesValue (done ++ rest) target start count ∧
        findValue target fuel (done ++ rest) done.length = some (some (start, count)) := by
  induction fuel generalizing done rest with
  | zero => exact absurd hfuel (Nat.not_lt_zero _)
  | succ fuel ih =>
      rw [findValue]
      simp only [startsWith_append hnul]
      by_cases hpre : target <+: rest
      · have hitem : FirstItem (done ++ rest) target done.length :=
          ⟨hstart, by rwa [List.drop_left], hdone⟩
        rw [if_pos hpre]
        exact .inr ⟨_, _, ⟨⟨_, hitem, rfl, fun h ↦ valueCount_of_notMem h hpre⟩,
          fun h ↦ lt_valueCount_of_mem h hpre hlen⟩, rfl⟩
      · rw [if_neg hpre]
        have hhere : ∀ i ≤ done.length, ItemStart (done ++ rest) i →
            ¬target <+: (done ++ rest).drop i := by
          intro i hi hstart
          obtain rfl | hlt := Nat.eq_or_lt_of_le hi
          · rwa [List.drop_left]
          · exact hdone i hlt hstart
        obtain hlast | ⟨item, rest, rfl, hitem⟩ := exists_item rest
        · rw [commaFrom_last hlast]
          exact .inl ⟨rfl, not_firstItem_of_last hlast hhere⟩
        · simp only [commaFrom_item hitem]
          have hshift : done ++ (item ++ ',' :: rest) = (done ++ (item ++ [','])) ++ rest := by
            simp
          have hindex : done.length + item.length + 1 = (done ++ (item ++ [','])).length := by
            simp [Nat.add_assoc]
          have hrest : rest.length < fuel := by
            rw [List.length_append, List.length_cons] at hfuel
            omega
          rw [hshift, hindex]
          apply ih
          · exact hrest
          · rwa [← hshift]
          · rw [← hshift, ← hindex]
            exact itemStart_behind done item rest
          · intro i hi hstart
            rw [← hshift] at hstart ⊢
            obtain hlt | hle := Nat.lt_or_ge done.length i
            · exact absurd hstart (not_itemStart hitem hlt (by omega))
            · exact hhere i hle hstart

theorem length_valueAt_le (prop target : List Char) (index : Nat) :
    (valueAt prop target index).length ≤ (prop.drop (index + target.length)).length :=
  (List.takeWhile_prefix _).length_le

/-- A copy that is no longer than the string takes that many characters of it. -/
theorem strncpy_zeros {s : List Char} {n count : Nat} (hn : count ≤ n) (hs : count ≤ s.length) :
    strncpy (List.replicate n '\x00') s count =
      .ok (s.take count ++ List.replicate (n - count) '\x00') := by
  rw [strncpy, List.length_replicate, if_pos hn, Nat.sub_eq_zero_of_le hs, List.drop_replicate]
  simp

theorem le_of_strncpy_eq_ok {buf buf' s : List Char} {n : Nat} (h : strncpy buf s n = .ok buf') :
    n ≤ buf.length := by
  unfold strncpy at h
  split at h
  · assumption
  · cases h

/-- A copy that fills a buffer leaves no NUL in it. -/
theorem lt_of_strncpy_zeros {s value : List Char} {n count : Nat} (hnul : '\x00' ∉ s)
    (hs : count ≤ s.length) (hvalue : value.length < n)
    (h : strncpy (List.replicate n '\x00') s count =
      .ok (value ++ List.replicate (n - value.length) '\x00')) : count < n := by
  have hle : count ≤ n := by
    have hlen := le_of_strncpy_eq_ok h
    rwa [List.length_replicate] at hlen
  refine Nat.lt_of_le_of_ne hle fun hfull ↦ hnul ?_
  have hmem : '\x00' ∈ value ++ List.replicate (n - value.length) '\x00' :=
    List.mem_append_right _ (List.mem_replicate.mpr ⟨by omega, rfl⟩)
  rw [strncpy_zeros hle hs, hfull, Nat.sub_self, List.replicate_zero, List.append_nil,
    Except.ok.injEq] at h
  rw [← h] at hmem
  exact List.mem_of_mem_take hmem

/-- The value of an attribute is copied within the bounds of its buffer exactly if it fits. -/
theorem copiesWithinBounds_iff (prop target : CStr) (hlen : prop.chars.length < sfadmPropstrlen) :
    CopiesWithinBounds prop.chars target.chars ↔ ValueFits prop.chars target.chars := by
  have hspec := fun fuel (hfuel : prop.chars.length < fuel) ↦
    findValue_spec target.nul_notMem fuel [] prop.chars hfuel hlen (.inl rfl)
      fun i hi ↦ absurd hi (Nat.not_lt_zero _)
  simp only [List.nil_append, List.length_nil] at hspec
  constructor
  · rintro ⟨fuel₀, h⟩ index hindex
    obtain ⟨value, hvalue, hbuf⟩ := h (max fuel₀ (prop.chars.length + 1)) (Nat.le_max_left _ _)
    obtain ⟨-, hnone⟩ | ⟨start, count, ⟨⟨index', hindex', rfl, hcount⟩, hbeyond⟩, heq⟩ :=
      hspec _ (Nat.le_max_right fuel₀ (prop.chars.length + 1))
    · exact absurd hindex (hnone index)
    obtain rfl := hindex.unique hindex'
    rw [attributeBuf, heq, Option.map_some, Option.some_inj] at hbuf
    have hcomma : ',' ∉ target.chars := by
      intro hmem
      have hle := le_of_strncpy_eq_ok hbuf
      rw [List.length_replicate] at hle
      exact Nat.not_lt_of_le hle (hbeyond hmem)
    obtain rfl := hcount hcomma
    refine ⟨hcomma, lt_of_strncpy_zeros (fun hnul ↦ ?_) (length_valueAt_le _ _ _) hvalue hbuf⟩
    exact prop.nul_notMem (List.mem_of_mem_drop hnul)
  · intro h
    refine ⟨prop.chars.length + 1, fun fuel hfuel ↦ ?_⟩
    obtain ⟨heq, -⟩ | ⟨start, count, ⟨⟨index, hindex, rfl, hcount⟩, -⟩, heq⟩ := hspec fuel hfuel
    · refine ⟨[], by decide +kernel, ?_⟩
      rw [attributeBuf, heq]
      rfl
    · obtain ⟨hcomma, hfits⟩ := h index hindex
      obtain rfl := hcount hcomma
      refine ⟨valueAt prop.chars target.chars index, hfits, ?_⟩
      have htake : (prop.chars.drop (index + target.chars.length)).take
          (valueAt prop.chars target.chars index).length = valueAt prop.chars target.chars index :=
        (List.prefix_iff_eq_take.mp (List.takeWhile_prefix _)).symm
      rw [attributeBuf, heq, Option.map_some]
      dsimp only
      rw [strncpy_zeros (Nat.le_of_lt hfits) (length_valueAt_le _ _ _), htake]

theorem copiesWithinBounds_iff_rate :
    CopiesWithinBounds "rate=5,interval=20".toList "rate=".toList ↔
      ValueFits "rate=5,interval=20".toList "rate=".toList :=
  copiesWithinBounds_iff ⟨"rate=5,interval=20".toList, by decide +kernel⟩
    ⟨"rate=".toList, by decide +kernel⟩ (by decide +kernel)

/-- A rate of 32 digits, which fills the buffer. -/
def longRate : CStr := ⟨"rate=00000000000000000000000000000005".toList, by decide +kernel⟩

theorem not_copiesWithinBounds_longRate :
    longRate.chars.length < sfadmPropstrlen ∧
      ¬CopiesWithinBounds longRate.chars "rate=".toList := by
  refine ⟨by decide +kernel, ?_⟩
  rintro ⟨fuel₀, h⟩
  obtain ⟨value, hvalue, hbuf⟩ := h (fuel₀ + 1) (Nat.le_succ _)
  have hfull : attributeBuf (fuel₀ + 1) longRate.chars "rate=".toList =
      some (.ok "00000000000000000000000000000005".toList) := by
    rfl
  have hnul : '\x00' ∈ value ++ List.replicate (sfAttrLen - value.length) '\x00' :=
    List.mem_append_right _ (List.mem_replicate.mpr ⟨by omega, rfl⟩)
  rw [hfull, Option.some_inj, Except.ok.injEq] at hbuf
  rw [← hbuf] at hnul
  revert hnul
  decide +kernel

end Sflow

import Mathlib.Data.List.Induction
import Sflow.Door
import Sflow.Source.Zones

/-!
# The client

`sfadm` makes a request of its command line and calls the door.  The properties may be
given in several options: they are joined with commas, as far as the array goes.

What `getopt_long` answers is a parameter, one answer after the other, and so are the
operands that it leaves.
-/

namespace Sflow.Sfadm

open C

/-! ## Options -/

/-- `SFADM_TYPESTRLEN`. -/
def sfadmTypestrlen : Nat := 32

/-- An answer of `getopt_long`. -/
inductive Getopt where
  | prop (optarg : CStr)
  | type (optarg : CStr)
  /-- An option that is not known, or one without its argument. -/
  | opterr
deriving DecidableEq

/-- Why a command ends with `die` before it has called the door. -/
inductive Died where
  | opterr
  | propertyListTooLong (propstr : CStr)
  | typeTooLong (typestr : CStr)
  | oneType
  | usage
  | invalidLinkname
deriving DecidableEq

/-- What separates the properties. -/
def comma : CStr := ⟨[','], by decide⟩

/-- The option for properties.  Whether there was room for the comma is not looked at. -/
def propOption (propstr optarg : CStr) : Except Died CStr :=
  let propstr := if propstr.chars = [] then propstr else (strlcat propstr comma sfadmPropstrlen).1
  let (propstr, len) := strlcat propstr optarg sfadmPropstrlen
  if sfadmPropstrlen ≤ len then .error (.propertyListTooLong propstr) else .ok propstr

/-- The option for the type, which is the same for all commands. -/
def typeOption (typestr optarg : CStr) : Except Died CStr :=
  if typestr.chars = [] then
    let (typestr, len) := strlcat typestr optarg sfadmTypestrlen
    if sfadmTypestrlen ≤ len then .error (.typeTooLong typestr) else .ok typestr
  else .error .oneType

/-- A round of the loop of `do_add_source`. -/
def addOption (strs : CStr × CStr) : Getopt → Except Died (CStr × CStr)
  | .prop optarg => do
      let propstr ← propOption strs.1 optarg
      return (propstr, strs.2)
  | .type optarg => do
      let typestr ← typeOption strs.2 optarg
      return (strs.1, typestr)
  | .opterr => .error .opterr

/-- A round of the loops of `do_remove_source` and `do_show_source`, which know no properties. -/
def typeOnlyOption (typestr : CStr) : Getopt → Except Died CStr
  | .type optarg => typeOption typestr optarg
  | _ => .error .opterr

/-! ## Commands -/

/-- The name in a request, which is to fit its array. -/
def linkname (name : CStr) : Except Died CStr :=
  let (srcname, len) := strlcpy name maxLinkNamelen
  if maxLinkNamelen ≤ len then .error .invalidLinkname else .ok srcname

/-- The request of `do_add_source`. -/
def doAddSource (answers : List Getopt) (operands : List CStr) : Except Died DoorData := do
  let (propstr, typestr) ← answers.foldlM addOption (.empty, .empty)
  match operands with
  | [name] =>
      if typestr.chars = [] then .error .usage
      else
        let srcname ← linkname name
        return ⟨sflowdCmdAddSource, srcname, (strlcpy typestr sfadmTypestrlen).1,
          (strlcpy propstr sfadmPropstrlen).1⟩
  | _ => .error .usage

/-- `SFLOW_CMD_ALL` as a client sends it. -/
def allStr : CStr := TypeWord.all.str

/-- The name in a request to remove or to show sources. -/
def operandName : List CStr → Except Died CStr
  | [name] => linkname name
  | _ => .ok (strlcpy allStr maxLinkNamelen).1

/-- The request of `do_remove_source` and of `do_show_source`.  There are no properties in it. -/
def doRequestSource (sdCmd : Int) (answers : List Getopt) (operands : List CStr) :
    Except Died DoorData := do
  let typestr ← answers.foldlM typeOnlyOption .empty
  let srcname ← operandName operands
  let typestr := if typestr.chars = [] then allStr else typestr
  return ⟨sdCmd, srcname, (strlcpy typestr sfadmTypestrlen).1, .empty⟩

def doRemoveSource : List Getopt → List CStr → Except Died DoorData :=
  doRequestSource sflowdCmdRemoveSource

def doShowSource : List Getopt → List CStr → Except Died DoorData :=
  doRequestSource sflowdCmdShowSource

/-! ## Loops that end early -/

section Loops

variable {σ α ε : Type} {step : σ → α → Except ε σ} {P : List α → Prop} {R : List α → σ → Prop}

/-- A loop over what is acceptable up to each round does not end early, and what holds behind each
round holds in the end. -/
theorem foldlM_eq_ok (hclosed : ∀ l l', P (l ++ l') → P l)
    (hstep : ∀ done a s s', P done → R done s → step s a = .ok s' →
      P (done ++ [a]) ∧ R (done ++ [a]) s')
    (hnext : ∀ done a s, P done → R done s → P (done ++ [a]) → ∃ s', step s a = .ok s')
    {init : σ} (hnil : P []) (hinit : R [] init) (l : List α) :
    (∀ s, l.foldlM step init = .ok s → P l ∧ R l s) ∧
      (P l → ∃ s, l.foldlM step init = .ok s) := by
  suffices ∀ rest done s, P done → R done s →
      (∀ s', rest.foldlM step s = .ok s' → P (done ++ rest) ∧ R (done ++ rest) s') ∧
        (P (done ++ rest) → ∃ s', rest.foldlM step s = .ok s') from this l [] init hnil hinit
  intro rest
  induction rest with
  | nil =>
      intro done s hdone hs
      rw [List.append_nil]
      refine ⟨?_, fun _ ↦ ⟨s, rfl⟩⟩
      rintro _ ⟨⟩
      exact ⟨hdone, hs⟩
  | cons a rest ih =>
      intro done s hdone hs
      rw [List.foldlM_cons, ← List.singleton_append, ← List.append_assoc]
      cases hround : step s a with
      | error e =>
          refine ⟨fun s' hs' ↦ (by cases hs'), fun hok ↦ ?_⟩
          obtain ⟨s', hs'⟩ := hnext done a s hdone hs (hclosed _ _ hok)
          rw [hround] at hs'
          cases hs'
      | ok s₁ =>
          obtain ⟨hok, hs₁⟩ := hstep done a s s₁ hdone hs hround
          exact ih (done ++ [a]) s₁ hok hs₁

end Loops

/-! ## What is given -/

/-- The arguments of the options for properties. -/
def props (answers : List Getopt) : List (List Char) :=
  answers.filterMap fun
    | .prop optarg => some optarg.chars
    | _ => none

/-- The arguments of the options for the type. -/
def types (answers : List Getopt) : List (List Char) :=
  answers.filterMap fun
    | .type optarg => some optarg.chars
    | _ => none

/-- A property behind others. -/
def addProp (propstr optarg : List Char) : List Char :=
  if propstr = [] then optarg else propstr ++ ',' :: optarg

/-- The properties of several options in one string of any length. -/
def joinProps (props : List (List Char)) : List Char := props.foldl addProp []

theorem joinProps_concat (props : List (List Char)) (prop : List Char) :
    joinProps (props ++ [prop]) = addProp (joinProps props) prop := by
  rw [joinProps, List.foldl_append]
  rfl

/-- The options of a command line that is accepted: all are known, there is room for every
property, and no type comes behind another one. -/
structure Accepted (answers : List Getopt) : Prop where
  known : .opterr ∉ answers
  props : ∀ front optarg, front ++ [.prop optarg] <+: answers → optarg.chars ≠ [] →
    (joinProps (props front ++ [optarg.chars])).length < sfadmPropstrlen
  types : ∀ front optarg, front ++ [.type optarg] <+: answers →
    (types front).flatten = [] ∧ optarg.chars.length < sfadmTypestrlen

theorem Accepted.nil : Accepted [] where
  known := List.not_mem_nil
  props front optarg h := by simp at h
  types front optarg h := by simp at h

theorem Accepted.front {front rest : List Getopt} (h : Accepted (front ++ rest)) :
    Accepted front where
  known hmem := h.known (List.mem_append_left _ hmem)
  props front' optarg hpre := h.props front' optarg (hpre.trans (List.prefix_append _ _))
  types front' optarg hpre := h.types front' optarg (hpre.trans (List.prefix_append _ _))

theorem concat_prefix_concat {α : Type} {front done : List α} {a b : α}
    (h : front ++ [b] <+: done ++ [a]) : front = done ∧ b = a ∨ front ++ [b] <+: done := by
  rcases List.prefix_concat_iff.mp h with heq | hpre
  · left
    exact ⟨(List.append_inj' heq rfl).1, List.singleton_inj.mp (List.append_inj' heq rfl).2⟩
  · exact .inr hpre

/-- What is asked of one more option. -/
theorem accepted_concat_iff {done : List Getopt} (h : Accepted done) (a : Getopt) :
    Accepted (done ++ [a]) ↔
      match a with
      | .prop optarg => optarg.chars ≠ [] →
          (joinProps (props done ++ [optarg.chars])).length < sfadmPropstrlen
      | .type optarg => (types done).flatten = [] ∧ optarg.chars.length < sfadmTypestrlen
      | .opterr => False := by
  constructor
  · intro hdone
    cases a with
    | prop optarg => exact hdone.props done optarg (List.prefix_refl _)
    | type optarg => exact hdone.types done optarg (List.prefix_refl _)
    | opterr => exact hdone.known (List.mem_append_right _ List.mem_cons_self)
  · intro ha
    constructor
    · rw [List.mem_append, List.mem_singleton]
      rintro (hmem | rfl)
      · exact h.known hmem
      · exact ha
    · intro front optarg hpre
      rcases concat_prefix_concat hpre with ⟨rfl, rfl⟩ | hpre
      · exact ha
      · exact h.props front optarg hpre
    · intro front optarg hpre
      rcases concat_prefix_concat hpre with ⟨rfl, rfl⟩ | hpre
      · exact ha
      · exact h.types front optarg hpre

/-! ## The loops over the options -/

/-- The strings that `do_add_source` has put together. -/
structure Gathered (answers : List Getopt) (strs : CStr × CStr) : Prop where
  propstr : strs.1.chars = (joinProps (props answers)).take (sfadmPropstrlen - 1)
  typestr : strs.2.chars = (types answers).flatten

theorem chars_strlcat (dst src : CStr) (size : Nat) :
    (strlcat dst src size).1.chars =
      dst.chars ++ src.chars.take (size - 1 - dst.chars.length) := rfl

/-- What has been cut off goes on being cut off. -/
theorem take_append_take {α : Type} (n : Nat) (s t : List α) :
    s.take n ++ t.take (n - (s.take n).length) = (s ++ t).take n := by
  rw [List.take_append, List.length_take]
  congr 2
  omega

/-- What there is in front of one more property. -/
def withComma (propstr : List Char) : List Char := if propstr = [] then [] else propstr ++ [',']

theorem addProp_eq (propstr optarg : List Char) :
    addProp propstr optarg = withComma propstr ++ optarg := by
  by_cases h : propstr = []
  · rw [addProp, withComma, if_pos h, if_pos h, List.nil_append]
  · rw [addProp, withComma, if_neg h, if_neg h, List.append_assoc, List.singleton_append]

theorem propOption_eq {propstr : CStr} {joined : List Char}
    (h : propstr.chars = joined.take (sfadmPropstrlen - 1)) (optarg : CStr) :
    ∃ propstr' : CStr,
      propstr'.chars = (addProp joined optarg.chars).take (sfadmPropstrlen - 1) ∧
      propOption propstr optarg =
        if optarg.chars ≠ [] → (addProp joined optarg.chars).length < sfadmPropstrlen then
          .ok propstr'
        else .error (.propertyListTooLong propstr') := by
  let front := if propstr.chars = [] then propstr else (strlcat propstr comma sfadmPropstrlen).1
  have hempty : propstr.chars = [] ↔ joined = [] := by
    rw [h, List.take_eq_nil_iff]
    exact or_iff_right (by decide)
  have hfront : front.chars = (withComma joined).take (sfadmPropstrlen - 1) := by
    by_cases hjoined : joined = []
    · have hpropstr := hempty.mpr hjoined
      rw [withComma, if_pos hjoined]
      simp only [front, if_pos hpropstr, hpropstr, List.take_nil]
    · rw [withComma, if_neg hjoined, ← take_append_take, ← h]
      simp only [front, if_neg (mt hempty.mp hjoined)]
      rfl
  have hchars : (strlcat front optarg sfadmPropstrlen).1.chars =
      (addProp joined optarg.chars).take (sfadmPropstrlen - 1) := by
    rw [chars_strlcat, hfront, take_append_take, addProp_eq]
  have hroom : sfadmPropstrlen ≤ (strlcat front optarg sfadmPropstrlen).2 ↔
      ¬(optarg.chars ≠ [] → (addProp joined optarg.chars).length < sfadmPropstrlen) := by
    change sfadmPropstrlen ≤ min sfadmPropstrlen front.chars.length + optarg.chars.length ↔ _
    have hlength : sfadmPropstrlen = 512 := rfl
    rw [hfront, addProp_eq, List.length_take, List.length_append, ← List.length_pos_iff, hlength]
    omega
  refine ⟨_, hchars, ?_⟩
  change (if sfadmPropstrlen ≤ (strlcat front optarg sfadmPropstrlen).2 then
    Except.error (Died.propertyListTooLong _) else Except.ok _) = _
  by_cases hfits : optarg.chars ≠ [] → (addProp joined optarg.chars).length < sfadmPropstrlen
  · rw [if_pos hfits, if_neg (mt hroom.mp (not_not_intro hfits))]
    rfl
  · rw [if_neg hfits, if_pos (hroom.mpr hfits)]
    rfl

theorem typeOption_eq (typestr optarg : CStr) :
    ∃ typestr' : CStr, typestr'.chars = optarg.chars.take (sfadmTypestrlen - 1) ∧
      typeOption typestr optarg =
        if typestr.chars = [] then
          if optarg.chars.length < sfadmTypestrlen then .ok typestr'
          else .error (.typeTooLong typestr')
        else .error .oneType := by
  by_cases hempty : typestr.chars = []
  · refine ⟨(strlcat typestr optarg sfadmTypestrlen).1, ?_, ?_⟩
    · rw [chars_strlcat, hempty, List.nil_append]
      rfl
    · have hlen : (strlcat typestr optarg sfadmTypestrlen).2 = optarg.chars.length := by
        change min _ typestr.chars.length + _ = _
        rw [hempty, List.length_nil, Nat.min_zero, Nat.zero_add]
      rw [typeOption, if_pos hempty, if_pos hempty]
      change (if sfadmTypestrlen ≤ (strlcat typestr optarg sfadmTypestrlen).2 then _ else _) = _
      rw [hlen]
      by_cases hfits : optarg.chars.length < sfadmTypestrlen
      · rw [if_pos hfits, if_neg (Nat.not_le_of_lt hfits)]
        rfl
      · rw [if_neg hfits, if_pos (Nat.le_of_not_lt hfits)]
        rfl
  · refine ⟨⟨optarg.chars.take _, fun h ↦ optarg.nul_notMem (List.mem_of_mem_take h)⟩, rfl, ?_⟩
    rw [typeOption, if_neg hempty, if_neg hempty]

section Rounds

variable {done : List Getopt} {strs strs' : CStr × CStr} {optarg : CStr}

theorem props_concat_prop (done : List Getopt) (optarg : CStr) :
    props (done ++ [.prop optarg]) = props done ++ [optarg.chars] := by
  rw [props, List.filterMap_append]
  rfl

theorem props_concat_type (done : List Getopt) (optarg : CStr) :
    props (done ++ [.type optarg]) = props done := by
  rw [props, List.filterMap_append]
  exact List.append_nil _

theorem types_concat_type (done : List Getopt) (optarg : CStr) :
    types (done ++ [.type optarg]) = types done ++ [optarg.chars] := by
  rw [types, List.filterMap_append]
  rfl

theorem types_concat_prop (done : List Getopt) (optarg : CStr) :
    types (done ++ [.prop optarg]) = types done := by
  rw [types, List.filterMap_append]
  exact List.append_nil _

theorem typeOption_ok {typestr typestr' : CStr} (h : typestr.chars = (types done).flatten)
    (ha : typeOption typestr optarg = .ok typestr') :
    ((types done).flatten = [] ∧ optarg.chars.length < sfadmTypestrlen) ∧
      typestr'.chars = (types (done ++ [.type optarg])).flatten := by
  obtain ⟨typestr₁, hchars, htype⟩ := typeOption_eq typestr optarg
  rw [htype] at ha
  by_cases hempty : typestr.chars = []
  · by_cases hfits : optarg.chars.length < sfadmTypestrlen
    · rw [if_pos hempty, if_pos hfits] at ha
      cases ha
      have hnone := h.symm.trans hempty
      refine ⟨⟨hnone, hfits⟩, ?_⟩
      rw [types_concat_type, List.flatten_append, hnone, List.nil_append, List.flatten_singleton,
        hchars, List.take_of_length_le (Nat.le_sub_one_of_lt hfits)]
    · rw [if_pos hempty, if_neg hfits] at ha
      cases ha
  · rw [if_neg hempty] at ha
    cases ha

theorem exists_typeOption {typestr : CStr} (h : typestr.chars = (types done).flatten)
    (ha : (types done).flatten = [] ∧ optarg.chars.length < sfadmTypestrlen) :
    ∃ typestr', typeOption typestr optarg = .ok typestr' := by
  obtain ⟨typestr', -, htype⟩ := typeOption_eq typestr optarg
  rw [if_pos (h.trans ha.1), if_pos ha.2] at htype
  exact ⟨typestr', htype⟩

/-- A round that does not end the command gathers one more option. -/
theorem addOption_ok (hdone : Accepted done) (h : Gathered done strs) {a : Getopt}
    (ha : addOption strs a = .ok strs') :
    Accepted (done ++ [a]) ∧ Gathered (done ++ [a]) strs' := by
  rw [accepted_concat_iff hdone]
  cases a with
  | prop optarg =>
      obtain ⟨propstr', hchars, hprop⟩ := propOption_eq h.propstr optarg
      rw [addOption, hprop] at ha
      by_cases hfits : optarg.chars ≠ [] →
          (addProp (joinProps (props done)) optarg.chars).length < sfadmPropstrlen
      · rw [if_pos hfits] at ha
        cases ha
        rw [← joinProps_concat] at hfits hchars
        refine ⟨hfits, ?_, ?_⟩
        · rw [props_concat_prop]
          exact hchars
        · rw [types_concat_prop]
          exact h.typestr
      · rw [if_neg hfits] at ha
        cases ha
  | type optarg =>
      rw [addOption] at ha
      cases hround : typeOption strs.2 optarg with
      | error e =>
          rw [hround] at ha
          cases ha
      | ok typestr' =>
          rw [hround] at ha
          cases ha
          obtain ⟨hfits, hchars⟩ := typeOption_ok h.typestr hround
          refine ⟨hfits, ?_, hchars⟩
          rw [props_concat_type]
          exact h.propstr
  | opterr => cases ha

theorem exists_addOption (hdone : Accepted done) (h : Gathered done strs) {a : Getopt}
    (ha : Accepted (done ++ [a])) : ∃ strs', addOption strs a = .ok strs' := by
  rw [accepted_concat_iff hdone] at ha
  cases a with
  | prop optarg =>
      obtain ⟨propstr', -, hprop⟩ := propOption_eq h.propstr optarg
      rw [← joinProps_concat, if_pos ha] at hprop
      exact ⟨(propstr', strs.2), by rw [addOption, hprop]; rfl⟩
  | type optarg =>
      obtain ⟨typestr', htype⟩ := exists_typeOption h.typestr ha
      exact ⟨(strs.1, typestr'), by rw [addOption, htype]; rfl⟩
  | opterr => exact ha.elim

/-- The loop of `do_add_source` comes to its end exactly for the options that are accepted. -/
theorem foldlM_addOption (answers : List Getopt) :
    (∀ strs, answers.foldlM addOption (.empty, .empty) = .ok strs →
      Accepted answers ∧ Gathered answers strs) ∧
    (Accepted answers → ∃ strs, answers.foldlM addOption (.empty, .empty) = .ok strs) := by
  have hinit : Gathered [] (.empty, .empty) := by
    constructor
    · exact List.take_nil.symm
    · rfl
  exact foldlM_eq_ok (P := Accepted) (R := Gathered) (fun _ _ h ↦ h.front)
    (fun _ _ _ _ hdone hs ha ↦ addOption_ok hdone hs ha)
    (fun _ _ _ hdone hs ha ↦ exists_addOption hdone hs ha) Accepted.nil hinit answers

/-- Options for the type alone. -/
structure AcceptedTypes (answers : List Getopt) : Prop where
  accepted : Accepted answers
  noProps : ∀ optarg, .prop optarg ∉ answers

/-- The loops of the other commands come to their end exactly for such options. -/
theorem foldlM_typeOnlyOption (answers : List Getopt) :
    (∀ typestr, answers.foldlM typeOnlyOption .empty = .ok typestr →
      AcceptedTypes answers ∧ typestr.chars = (types answers).flatten) ∧
    (AcceptedTypes answers → ∃ typestr, answers.foldlM typeOnlyOption .empty = .ok typestr) := by
  refine foldlM_eq_ok (P := AcceptedTypes)
    (R := fun done (typestr : CStr) => typestr.chars = (types done).flatten) ?_ ?_ ?_
    ⟨Accepted.nil, fun _ ↦ List.not_mem_nil⟩ rfl answers
  · exact fun l l' h ↦ ⟨h.accepted.front, fun optarg hmem ↦
      h.noProps optarg (List.mem_append_left _ hmem)⟩
  · intro done a typestr typestr' hdone htypestr ha
    cases a with
    | type optarg =>
        obtain ⟨hfits, hchars⟩ := typeOption_ok htypestr ha
        refine ⟨⟨(accepted_concat_iff hdone.accepted _).mpr hfits, fun optarg' hmem ↦ ?_⟩, hchars⟩
        rcases List.mem_append.mp hmem with hmem | hmem
        · exact hdone.noProps optarg' hmem
        · cases List.mem_singleton.mp hmem
    | prop => cases ha
    | opterr => cases ha
  · intro done a typestr hdone htypestr ha
    cases a with
    | type optarg =>
        exact exists_typeOption htypestr ((accepted_concat_iff hdone.accepted _).mp ha.accepted)
    | prop optarg =>
        exact absurd (List.mem_append_right _ List.mem_cons_self) (ha.noProps optarg)
    | opterr => exact ((accepted_concat_iff hdone.accepted _).mp ha.accepted).elim

end Rounds

/-! ## The requests -/

theorem linkname_eq (name : CStr) :
    linkname name =
      if name.chars.length < maxLinkNamelen then .ok name else .error .invalidLinkname := by
  rw [linkname]
  change (if maxLinkNamelen ≤ name.chars.length then _ else Except.ok _) = _
  by_cases h : name.chars.length < maxLinkNamelen
  · rw [if_pos h, if_neg (Nat.not_le_of_lt h)]
    exact congrArg Except.ok (strlcpy_of_lt h)
  · rw [if_neg h, if_pos (Nat.le_of_not_lt h)]

theorem length_lt_of_accepted {answers : List Getopt} (h : Accepted answers) :
    (types answers).flatten.length < sfadmTypestrlen := by
  induction answers using List.reverseRecOn with
  | nil => decide
  | append_singleton done a ih =>
      have ha := (accepted_concat_iff h.front a).mp h
      cases a with
      | prop optarg =>
          rw [types_concat_prop]
          exact ih h.front
      | type optarg =>
          rw [types_concat_type, List.flatten_append, ha.1, List.nil_append,
            List.flatten_singleton]
          exact ha.2
      | opterr => exact ha.elim

theorem length_take_lt (s : List Char) :
    (s.take (sfadmPropstrlen - 1)).length < sfadmPropstrlen := by
  rw [List.length_take]
  exact Nat.lt_of_le_of_lt (Nat.min_le_left _ _) (by decide)

/-- A request to add the source of a name, with what the options give. -/
structure AddRequest (answers : List Getopt) (name : CStr) (data : DoorData) : Prop where
  sdCmd : data.sdCmd = sflowdCmdAddSource
  sdSrcname : data.sdSrcname = name
  sdTypestr : data.sdTypestr.chars = (types answers).flatten
  sdPropstr : data.sdPropstr.chars = (joinProps (props answers)).take (sfadmPropstrlen - 1)

/-- Two requests of one command line are the same. -/
theorem AddRequest.unique {answers : List Getopt} {name : CStr} {data data' : DoorData}
    (h : AddRequest answers name data) (h' : AddRequest answers name data') : data = data' := by
  obtain ⟨sdCmd, sdSrcname, ⟨typestr, _⟩, ⟨propstr, _⟩⟩ := data
  obtain ⟨sdCmd', sdSrcname', ⟨typestr', _⟩, ⟨propstr', _⟩⟩ := data'
  obtain ⟨rfl, rfl, rfl, rfl⟩ := h
  obtain ⟨rfl, rfl, rfl, rfl⟩ := h'
  rfl

/-- What is sent behind the loop over the options. -/
theorem addRequest_of_gathered {answers : List Getopt} {strs : CStr × CStr} {name : CStr}
    (haccepted : Accepted answers) (h : Gathered answers strs) :
    AddRequest answers name ⟨sflowdCmdAddSource, name, (strlcpy strs.2 sfadmTypestrlen).1,
      (strlcpy strs.1 sfadmPropstrlen).1⟩ := by
  have htype : strs.2.chars.length < sfadmTypestrlen := by
    rw [h.typestr]
    exact length_lt_of_accepted haccepted
  have hprop : strs.1.chars.length < sfadmPropstrlen := by
    rw [h.propstr]
    exact length_take_lt _
  rw [strlcpy_of_lt htype, strlcpy_of_lt hprop]
  exact ⟨rfl, rfl, h.typestr, h.propstr⟩

section Command

variable {answers : List Getopt} {strs : CStr × CStr}

theorem doAddSource_of_empty (hfold : answers.foldlM addOption (.empty, .empty) = .ok strs)
    (htype : strs.2.chars = []) (operands : List CStr) :
    doAddSource answers operands = .error .usage := by
  obtain ⟨propstr, typestr⟩ := strs
  rw [doAddSource, hfold]
  match operands with
  | [name] => exact if_pos htype
  | [] => rfl
  | _ :: _ :: _ => rfl

theorem doAddSource_of_foldlM (hfold : answers.foldlM addOption (.empty, .empty) = .ok strs)
    (htype : strs.2.chars ≠ []) (name : CStr) :
    doAddSource answers [name] =
      if name.chars.length < maxLinkNamelen then
        .ok ⟨sflowdCmdAddSource, name, (strlcpy strs.2 sfadmTypestrlen).1,
          (strlcpy strs.1 sfadmPropstrlen).1⟩
      else .error .invalidLinkname := by
  obtain ⟨propstr, typestr⟩ := strs
  rw [doAddSource, hfold]
  change (if typestr.chars = [] then _ else _) = _
  rw [if_neg htype, linkname_eq]
  split <;> rfl

theorem exists_operand {operands : List CStr} {data : DoorData}
    (hfold : answers.foldlM addOption (.empty, .empty) = .ok strs)
    (h : doAddSource answers operands = .ok data) : ∃ name, operands = [name] := by
  rw [doAddSource, hfold] at h
  match operands, h with
  | [name], _ => exact ⟨name, rfl⟩

end Command

/-- For every command line: `add-source` calls the door exactly if its options are accepted, there
is one type, and one operand that is short enough for a name, and what it sends is what they
give. -/
theorem doAddSource_eq_ok_iff (answers : List Getopt) (operands : List CStr) (data : DoorData) :
    doAddSource answers operands = .ok data ↔
      Accepted answers ∧ (types answers).flatten ≠ [] ∧ ∃ name, operands = [name] ∧
        name.chars.length < maxLinkNamelen ∧ AddRequest answers name data := by
  obtain ⟨hspec, hexists⟩ := foldlM_addOption answers
  constructor
  · intro h
    cases hfold : answers.foldlM addOption (.empty, .empty) with
    | error e =>
        rw [doAddSource, hfold] at h
        cases h
    | ok strs =>
        obtain ⟨haccepted, hgathered⟩ := hspec strs hfold
        obtain ⟨name, rfl⟩ := exists_operand hfold h
        have htype : strs.2.chars ≠ [] := by
          intro hempty
          rw [doAddSource_of_empty hfold hempty] at h
          cases h
        rw [doAddSource_of_foldlM hfold htype] at h
        split at h
        case isTrue hname =>
          cases h
          rw [hgathered.typestr] at htype
          exact ⟨haccepted, htype, name, rfl, hname, addRequest_of_gathered haccepted hgathered⟩
        case isFalse => cases h
  · rintro ⟨haccepted, htype, name, rfl, hname, hdata⟩
    obtain ⟨strs, hfold⟩ := hexists haccepted
    have hgathered := (hspec strs hfold).2
    rw [← hgathered.typestr] at htype
    rw [doAddSource_of_foldlM hfold htype, if_pos hname]
    exact congrArg _ ((addRequest_of_gathered haccepted hgathered).unique hdata)

/-- The name that is asked for.  Any number of operands but one stands for all sources. -/
def requestedName : List CStr → CStr
  | [name] => name
  | _ => allStr

/-- The type that is asked for. -/
def requestedType (answers : List Getopt) : List Char :=
  if (types answers).flatten = [] then sflowCmdAll else (types answers).flatten

/-- A request for the sources of a name and a type. -/
structure SourceRequest (sdCmd : Int) (answers : List Getopt) (operands : List CStr)
    (data : DoorData) : Prop where
  sdCmd : data.sdCmd = sdCmd
  sdSrcname : data.sdSrcname = requestedName operands
  sdTypestr : data.sdTypestr.chars = requestedType answers
  sdPropstr : data.sdPropstr = .empty

theorem SourceRequest.unique {sdCmd : Int} {answers : List Getopt} {operands : List CStr}
    {data data' : DoorData} (h : SourceRequest sdCmd answers operands data)
    (h' : SourceRequest sdCmd answers operands data') : data = data' := by
  obtain ⟨sdCmd, sdSrcname, ⟨typestr, _⟩, sdPropstr⟩ := data
  obtain ⟨sdCmd', sdSrcname', ⟨typestr', _⟩, sdPropstr'⟩ := data'
  obtain ⟨rfl, rfl, rfl, rfl⟩ := h
  obtain ⟨rfl, rfl, rfl, rfl⟩ := h'
  rfl

/-- What is sent behind the loop over the options, if the name fits. -/
theorem doRequestSource_of_foldlM {answers : List Getopt} {typestr : CStr}
    (hfold : answers.foldlM typeOnlyOption .empty = .ok typestr)
    (haccepted : AcceptedTypes answers) (hchars : typestr.chars = (types answers).flatten)
    (sdCmd : Int) (operands : List CStr) :
    ∃ data, SourceRequest sdCmd answers operands data ∧
      doRequestSource sdCmd answers operands =
        if (requestedName operands).chars.length < maxLinkNamelen then .ok data
        else .error .invalidLinkname := by
  let typestr' := if typestr.chars = [] then allStr else typestr
  have htypestr' : typestr'.chars = requestedType answers := by
    rw [requestedType, ← hchars]
    simp only [typestr']
    split <;> rfl
  have hlen : typestr'.chars.length < sfadmTypestrlen := by
    rw [htypestr', requestedType]
    split
    · decide +kernel
    · exact length_lt_of_accepted haccepted.accepted
  refine ⟨⟨sdCmd, requestedName operands, typestr', .empty⟩, ⟨rfl, rfl, htypestr', rfl⟩, ?_⟩
  have hname : operandName operands = linkname (requestedName operands) := by
    match operands with
    | [name] => rfl
    | [] => rfl
    | _ :: _ :: _ => rfl
  rw [doRequestSource, hfold]
  change (operandName operands >>= fun srcname =>
    Except.ok (DoorData.mk sdCmd srcname (strlcpy typestr' sfadmTypestrlen).1 .empty)) = _
  rw [hname, linkname_eq, strlcpy_of_lt hlen]
  split <;> rfl

/-- For every command line: `remove-source` and `show-source` call the door exactly if their options
are accepted and a single operand is short enough for a name.  With no operand, and with two or
more, they ask for all sources. -/
theorem doRequestSource_eq_ok_iff (sdCmd : Int) (answers : List Getopt) (operands : List CStr)
    (data : DoorData) :
    doRequestSource sdCmd answers operands = .ok data ↔
      AcceptedTypes answers ∧ (requestedName operands).chars.length < maxLinkNamelen ∧
        SourceRequest sdCmd answers operands data := by
  obtain ⟨hspec, hexists⟩ := foldlM_typeOnlyOption answers
  constructor
  · intro h
    cases hfold : answers.foldlM typeOnlyOption .empty with
    | error e =>
        rw [doRequestSource, hfold] at h
        cases h
    | ok typestr =>
        obtain ⟨haccepted, hchars⟩ := hspec typestr hfold
        obtain ⟨data', hdata', hcommand⟩ :=
          doRequestSource_of_foldlM hfold haccepted hchars sdCmd operands
        rw [hcommand] at h
        split at h
        case isTrue hname =>
          cases h
          exact ⟨haccepted, hname, hdata'⟩
        case isFalse => cases h
  · rintro ⟨haccepted, hname, hdata⟩
    obtain ⟨typestr, hfold⟩ := hexists haccepted
    obtain ⟨data', hdata', hcommand⟩ :=
      doRequestSource_of_foldlM hfold haccepted (hspec typestr hfold).2 sdCmd operands
    rw [hcommand, if_pos hname, hdata'.unique hdata]

end Sflow.Sfadm

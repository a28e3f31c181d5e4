import Sflow.Sfadm

/-!
# From the command line to the registry

The properties of a source can be spread over several options of `add-source`.  What the
daemon looks up in the string that arrives is what stands first on the command line, and
the commas at the end that the array has no room for make no difference.
-/

namespace Sflow.Sfadm

open C

/-! ## Entries -/

/-- The items of a string of properties that are not empty. -/
def entries (prop : List Char) : List (List Char) := (items prop).filter (· ≠ [])

theorem entries_nil : entries [] = [] := by decide

theorem entries_append_comma (s t : List Char) :
    entries (s ++ ',' :: t) = entries s ++ entries t := by
  rw [entries, items, List.splitOn_append_cons_self, List.filter_append]
  rfl

/-- Commas at the end add no entries. -/
theorem entries_append_commas (s : List Char) (k : Nat) :
    entries (s ++ List.replicate k ',') = entries s := by
  induction k generalizing s with
  | zero => rw [List.replicate_zero, List.append_nil]
  | succ k ih =>
      have hcommas := ih []
      rw [List.nil_append, entries_nil] at hcommas
      rw [List.replicate_succ, entries_append_comma, hcommas, List.append_nil]

theorem stripped_comma (s : List Char) : stripped (',' :: s) = ',' :: stripped s := rfl

theorem stripped_replicate_comma (k : Nat) :
    stripped (List.replicate k ',') = List.replicate k ',' := by
  rw [stripped, List.filter_replicate]
  rfl

theorem entries_addProp (propstr optarg : List Char) :
    entries (stripped (addProp propstr optarg)) =
      entries (stripped propstr) ++ entries (stripped optarg) := by
  by_cases h : propstr = []
  · rw [addProp, if_pos h, h]
    rfl
  · rw [addProp, if_neg h, stripped_append, stripped_comma, entries_append_comma]

/-- The entries of what is joined are those of all parts, in order. -/
theorem entries_joinProps (props : List (List Char)) :
    entries (stripped (joinProps props)) =
      props.flatMap fun prop => entries (stripped prop) := by
  induction props using List.reverseRecOn with
  | nil => exact entries_nil
  | append_singleton props prop ih =>
      rw [joinProps_concat, entries_addProp, ih, List.flatMap_append, List.flatMap_singleton]

theorem exists_replicate_take {α : Type} {n : Nat} {front : List α} (h : front.length ≤ n)
    (k : Nat) (c : α) :
    ∃ k', front ++ List.replicate k c =
      (front ++ List.replicate k c).take n ++ List.replicate k' c := by
  refine ⟨k - (n - front.length), ?_⟩
  have hdrop : (front ++ List.replicate k c).drop n =
      List.replicate (k - (n - front.length)) c := by
    rw [List.drop_append, List.drop_of_length_le h, List.nil_append, List.drop_replicate]
  rw [← hdrop, List.take_append_drop]

/-- All that an accepted command line does not have room for is commas at the end. -/
theorem exists_commas {answers : List Getopt} (h : Accepted answers) :
    ∃ k, joinProps (props answers) =
      (joinProps (props answers)).take (sfadmPropstrlen - 1) ++ List.replicate k ',' := by
  induction answers using List.reverseRecOn with
  | nil => exact ⟨0, rfl⟩
  | append_singleton done a ih =>
      have ha := (accepted_concat_iff h.front a).mp h
      cases a with
      | prop optarg =>
          rw [props_concat_prop]
          by_cases hempty : optarg.chars = []
          · obtain ⟨k, hk⟩ := ih h.front
            rw [joinProps_concat, hempty, addProp]
            split
            · exact ⟨0, rfl⟩
            · have hcommas : joinProps (props done) ++ [','] =
                  (joinProps (props done)).take (sfadmPropstrlen - 1) ++
                    List.replicate (k + 1) ',' := by
                rw [List.replicate_succ', ← List.append_assoc, ← hk]
              rw [hcommas]
              exact exists_replicate_take (List.length_take_le _ _) _ _
          · have hroom := ha hempty
            refine ⟨0, ?_⟩
            rw [List.take_of_length_le (Nat.le_sub_one_of_lt hroom), List.replicate_zero,
              List.append_nil]
      | type optarg =>
          rw [props_concat_type]
          exact ih h.front
      | opterr => exact ha.elim

/-- Empty items have no value. -/
theorem valueOf_filter {target : List Char} (h : target ≠ []) (its : List (List Char)) :
    valueOf target (its.filter (· ≠ [])) = valueOf target its := by
  induction its with
  | nil => rfl
  | cons item its ih =>
      by_cases hempty : item = []
      · have hpre : ¬target <+: item := by
          rw [hempty, List.prefix_nil]
          exact h
        rw [List.filter_cons_of_neg (by simpa using hempty), valueOf, if_neg hpre, ih]
      · rw [List.filter_cons_of_pos (by simpa using hempty), valueOf, valueOf, ih]

/-- The items of all options for properties, without blanks, in the order of the command line. -/
def given (answers : List Getopt) : List (List Char) :=
  (props answers).flatMap fun prop => items (stripped prop)

/-- What is looked up in the request is what is found first on the command line. -/
theorem valueOf_addRequest {answers : List Getopt} {name : CStr} {data : DoorData}
    (haccepted : Accepted answers) (h : AddRequest answers name data) {target : List Char}
    (htarget : target ≠ []) :
    valueOf target (items (stripped data.sdPropstr.chars)) = valueOf target (given answers) := by
  have hentries : entries (stripped data.sdPropstr.chars) =
      (given answers).filter (· ≠ []) := by
    obtain ⟨k, hk⟩ := exists_commas haccepted
    calc entries (stripped data.sdPropstr.chars)
        = entries (stripped (joinProps (props answers))) := by
          rw [hk, stripped_append, stripped_replicate_comma, entries_append_commas, h.sdPropstr]
      _ = (props answers).flatMap fun prop => entries (stripped prop) := entries_joinProps _
      _ = (given answers).filter (· ≠ []) := by
          rw [given, List.filter_flatMap]
          rfl
  rw [← valueOf_filter htarget, ← valueOf_filter htarget (given answers), ← hentries]
  rfl

/-! ## The source that is registered -/

section Made

variable {fuel : Nat} (calls : SourceCalls) (srcname : List Char) {prop : List Char}
variable {t : SflowSourceType}

/-- One source is made and registered exactly if the system has all that it needs. -/
theorem sflowMakeAddOneSourceType_attribute (ht : t ≠ .vhost) (hblank : BlankFree prop)
    (hfuel : prop.length < fuel) (hfits : AttributeFits t prop) (d : Registry) :
    ∃ status rest d', sflowMakeAddOneSourceType fuel calls srcname prop t d =
        some (status, rest, d') ∧
      (status = 0 ↔ (SourceStep.mk t calls).fails = false) ∧
      (status = 0 → ∃ src, d'.sources = d.sources ++ [src] ∧ src.ssType = t ∧
        src.ssName = srcname ∧
        rateOrInterval src = numberOf (attributeKey t) (items prop) (attributeDft t)) := by
  obtain ⟨r, rest, hmakes, -, hattribute⟩ := makeSource_attribute calls srcname hblank hfits
  have hmake := hmakes fuel hfuel
  rcases makeSource_eq_some hmake with ⟨err, rfl, herr, hfound⟩ | ⟨src, rfl, hfound, rfl, hname, -⟩
  · refine ⟨err, rest, d, ?_, ?_, fun hzero ↦ absurd hzero (Int.ne_of_lt herr)⟩
    · rw [sflowMakeAddOneSourceType, hmake]
      rfl
    · rw [SourceStep.fails, hfound]
      exact iff_of_false (Int.ne_of_lt herr) (by simp)
  · obtain ⟨hnodes, hstatus⟩ := sflowAddSourceType_spec calls d hfound
    refine ⟨_, rest, (sflowAddSourceType calls src d).2, ?_, hstatus, fun _ ↦
      ⟨calls.listed src, ?_, rfl, hname ht, hattribute src rfl⟩⟩
    · rw [sflowMakeAddOneSourceType, hmake]
      rfl
    · rw [Registry.sources, hnodes, List.map_append]
      rfl

end Made

/-- No string of the command line has a tab in it. -/
structure TabFree (answers : List Getopt) (name : CStr) : Prop where
  name : '\t' ∉ name.chars
  props : ∀ prop ∈ props answers, '\t' ∉ prop
  types : ∀ type ∈ types answers, '\t' ∉ type

theorem tab_notMem_joinProps {props : List (List Char)} (h : ∀ prop ∈ props, '\t' ∉ prop) :
    '\t' ∉ joinProps props := by
  induction props using List.reverseRecOn with
  | nil => exact List.not_mem_nil
  | append_singleton props prop ih =>
      rw [List.forall_mem_append, List.forall_mem_singleton] at h
      rw [joinProps_concat, addProp]
      split
      · exact h.2
      · rw [List.mem_append, List.mem_cons]
        rintro (hfront | hcomma | hprop)
        · exact ih h.1 hfront
        · exact absurd hcomma (by decide)
        · exact h.2 hprop

/-- A request for one source goes through the four stages. -/
theorem sflowAddSource_of_stripped {asrc : SflowdDoorAsrc} {t : SflowSourceType} {fuel : Nat}
    {env : AddCalls} {d d' : Registry} {status : Int} {rest : List Char} (ht : t ≠ .vhost)
    (hname : removeSpace fuel asrc.sdSrcname.chars = some (stripped asrc.sdSrcname.chars))
    (hprop : removeSpace fuel asrc.sdPropstr.chars = some (stripped asrc.sdPropstr.chars))
    (hstr : removeSpace fuel asrc.sdTypestr.chars = some (stripped asrc.sdTypestr.chars))
    (htype : typeOfStr (stripped asrc.sdTypestr.chars) = some (.only t))
    (hmake : sflowMakeAddOneSourceType fuel (env.source 0) (stripped asrc.sdSrcname.chars)
      (stripped asrc.sdPropstr.chars) t d = some (status, rest, d')) :
    sflowAddSource fuel env asrc d = some (status, d') := by
  have hone : sflowMakeAddSourceType fuel env (stripped asrc.sdSrcname.chars)
      (stripped asrc.sdPropstr.chars) t d = some (status, d') := by
    cases t with
    | vhost => exact absurd rfl ht
    | _ =>
        rw [sflowMakeAddSourceType, hmake]
        · rfl
        · exact ht
  rw [sflowAddSource, hname, hprop, hstr]
  simp only [Option.bind_eq_bind, Option.bind_some, htype]
  exact hone

section Requested

variable {answers : List Getopt} {name : CStr} {data : DoorData}

theorem TabFree.propstr (htab : TabFree answers name) (h : AddRequest answers name data) :
    '\t' ∉ data.sdPropstr.chars := by
  rw [h.sdPropstr]
  exact fun hmem ↦ tab_notMem_joinProps htab.props (List.mem_of_mem_take hmem)

theorem TabFree.typestr (htab : TabFree answers name) (h : AddRequest answers name data) :
    '\t' ∉ data.sdTypestr.chars := by
  rw [h.sdTypestr, List.mem_flatten]
  rintro ⟨type, htype, hmem⟩
  exact htab.types type htype hmem

theorem length_stripped_le (s : List Char) : (stripped s).length ≤ s.length :=
  List.length_filter_le _ _

/-- For every command line that `add-source` accepts, and every state of the daemon: what comes
back is zero exactly if the system has all that the source needs, and then one source of the type
and the name is registered, with the number that stands first on the command line, in whichever of
its options, or with the default. -/
theorem doAddSource_registers (h : doAddSource answers [name] = .ok data)
    (htab : TabFree answers name) {t : SflowSourceType}
    (htype : typeOfStr (stripped (types answers).flatten) = some (.only t)) (ht : t ≠ .vhost)
    (hfits : (valueOf (attributeKey t) (given answers)).length < sfAttrLen) {fuel : Nat}
    (hfuel : sfadmPropstrlen ≤ fuel) (env : DoorCalls) (d : Registry) :
    ∃ err d', sflowdDoorHandler fuel env data d = .ok (some (d', [.err err])) ∧
      (err = 0 ↔ (SourceStep.mk t (env.add.source 0)).fails = false) ∧
      (err = 0 → ∃ src, d'.sources = d.sources ++ [src] ∧ src.ssType = t ∧
        src.ssName = stripped name.chars ∧
        rateOrInterval src = numberOf (attributeKey t) (given answers) (attributeDft t)) := by
  obtain ⟨haccepted, -, name', hname', hlen, hdata⟩ := (doAddSource_eq_ok_iff _ _ _).mp h
  obtain rfl : name = name' := List.singleton_inj.mp hname'
  have hvalue := valueOf_addRequest haccepted hdata (attributeKey_ne_nil t)
  have hnumber : numberOf (attributeKey t) (items (stripped data.sdPropstr.chars))
      (attributeDft t) = numberOf (attributeKey t) (given answers) (attributeDft t) := by
    rw [numberOf, numberOf, hvalue]
  have hstrip (s : CStr) (htab : '\t' ∉ s.chars) (hlen : s.chars.length < sfadmPropstrlen) :
      removeSpace fuel s.chars = some (stripped s.chars) := by
    rw [removeSpace_eq, if_pos ⟨htab, Nat.lt_of_lt_of_le hlen hfuel⟩]
  have hproplen : data.sdPropstr.chars.length < sfadmPropstrlen := by
    rw [hdata.sdPropstr]
    exact length_take_lt _
  have htypelen : data.sdTypestr.chars.length < sfadmPropstrlen := by
    rw [hdata.sdTypestr]
    exact Nat.lt_trans (length_lt_of_accepted haccepted) (by decide)
  have hnamelen : name.chars.length < sfadmPropstrlen := Nat.lt_trans hlen (by decide)
  obtain ⟨err, rest, d', hmake, hzero, hsource⟩ :=
    sflowMakeAddOneSourceType_attribute (env.add.source 0) (stripped name.chars) ht
      (blankFree_stripped (htab.propstr hdata))
      (Nat.lt_of_le_of_lt (length_stripped_le _) (Nat.lt_of_lt_of_le hproplen hfuel))
      (by rwa [AttributeFits, hvalue]) d
  refine ⟨err, d', ?_, hzero, fun herr ↦ ?_⟩
  · have hadd : sflowAddSource fuel env.add data.asrc d = some (err, d') := by
      have hsrcname : removeSpace fuel data.sdSrcname.chars =
          some (stripped data.sdSrcname.chars) := by
        rw [hdata.sdSrcname]
        exact hstrip name htab.name hnamelen
      rw [← hdata.sdSrcname] at hmake
      rw [← hdata.sdTypestr] at htype
      exact sflowAddSource_of_stripped ht hsrcname (hstrip _ (htab.propstr hdata) hproplen)
        (hstrip _ (htab.typestr hdata) htypelen) htype hmake
    rw [sflowdDoorHandler, if_pos hdata.sdCmd, hadd]
    rfl
  · rw [← hnumber]
    exact hsource herr

end Requested

/-- `add-source -T flow_sample -p "interval=7" -p "rate=5, rate=6" net0`. -/
def addNet0 : List Getopt :=
  [.type TypeWord.flowSample.str, .prop ⟨"interval=7".toList, by decide +kernel⟩,
    .prop ⟨"rate=5, rate=6".toList, by decide +kernel⟩]

def net0 : CStr := ⟨"net0".toList, by decide +kernel⟩

/-- The first rate counts. -/
theorem doAddSource_registers_net0 :
    ∃ data err d', doAddSource addNet0 [net0] = .ok data ∧
      sflowdDoorHandler 512 ⟨.oneSource .fine, none, .flowsample, .flowsample⟩ data .init =
        .ok (some (d', [.err err])) ∧
      (err = 0 ↔ (SourceStep.mk .flowsample .fine).fails = false) ∧
      (err = 0 → ∃ src, d'.sources = [src] ∧ src.ssType = .flowsample ∧
        src.ssName = stripped net0.chars ∧ rateOrInterval src = 5) := by
  obtain ⟨data, h⟩ : ∃ data, doAddSource addNet0 [net0] = .ok data := ⟨_, rfl⟩
  have htab : TabFree addNet0 net0 := by
    constructor <;> decide +kernel
  obtain ⟨err, d', hhandler, hzero, hsource⟩ := doAddSource_registers h htab
    (t := .flowsample) (by decide +kernel) (by decide) (by decide +kernel) (Nat.le_refl 512)
    ⟨.oneSource .fine, none, .flowsample, .flowsample⟩ .init
  refine ⟨data, err, d', h, hhandler, hzero, fun herr ↦ ?_⟩
  obtain ⟨src, hsources, htype, hname, hrate⟩ := hsource herr
  exact ⟨src, hsources, htype, hname, hrate.trans (by decide +kernel)⟩

end Sflow.Sfadm

import Mathlib.Algebra.Ring.Int.Defs
import Sflow.Source.Show

/-!
# The reply to a request to show sources

The reply is a header and an array of entries behind it, each of which is four arrays of
characters.  The daemon lets it grow by one entry for each source that it shows, and `sfadm`
goes over it with a pointer of its own.
-/

namespace Sflow

open C

/-! ## Writing entries -/

/-- The reply as it lies in memory. -/
structure Reply where
  /-- `*len`, and the counter of the header. -/
  len : Nat
  ssrLinkCount : Nat
  /-- The bytes of `*buf`, where those of the counter are left zero. -/
  data : List Char
deriving DecidableEq, Repr

/-- `*len` is an `int`. -/
def FitsInt (len : Nat) : Prop := len < 2 ^ 31

instance (len : Nat) : Decidable (FitsInt len) := inferInstanceAs (Decidable (len < 2 ^ 31))

namespace Reply

def ssfSrcNameOff : Nat := 0
def ssfTypeOff : Nat := maxLinkNamelen
def ssfRateOff : Nat := 2 * maxLinkNamelen
def ssfIntervalOff : Nat := 3 * maxLinkNamelen

/-- `calloc` of the header alone. -/
def empty : Reply := ⟨SflowdSsr.size, 0, List.replicate SflowdSsr.size '\x00'⟩

/-- What is done for a source that is shown.  A negative `*len` asks `realloc` for more than
there is, and what it returns is not looked at. -/
def push (buf : Reply) (src : SflowSource) : Except Fault Reply := do
  let len := buf.len + SflowdSsr.fieldsSize
  if FitsInt len then
    let toAdd := len - SflowdSsr.fieldsSize
    -- `realloc`, and `memset` of what has been added
    let data := buf.data ++ List.replicate SflowdSsr.fieldsSize '\x00'
    let data ← strncpyAt data (toAdd + ssfSrcNameOff) src.ssName maxLinkNamelen
    let data ← strncpyAt data (toAdd + ssfTypeOff) src.ssType.name maxLinkNamelen
    let data ←
      if src.ssType.polled then
        strncpyAt data (toAdd + ssfIntervalOff) (toCharArray src.ssInterval) maxLinkNamelen
      else strncpyAt data (toAdd + ssfRateOff) (toCharArray src.ssRate) maxLinkNamelen
    .ok ⟨len, buf.ssrLinkCount + 1, data⟩
  else .error .nullDeref

end Reply

/-- The walk over the list, from behind the node that was looked at last. -/
def replyLoop (sel : SflowSource → Bool) :
    Nat → Registry → Option SourceNode → Reply → Option (Except Fault Reply)
  | 0, _, _, _ => none
  | fuel + 1, d, nodeCur, buf =>
      match d.sflowAllSources.cursor nodeCur with
      | none => some (.ok buf)
      | some nodeCur =>
          if sel nodeCur.sslnSrc then
            match buf.push nodeCur.sslnSrc with
            | .ok buf => replyLoop sel fuel d (some nodeCur) buf
            | .error e => some (.error e)
          else replyLoop sel fuel d (some nodeCur) buf

/-- `sflow_show_src`, with the reply as it lies in memory. -/
def sflowShowSrcReply (fuel : Nat) (srcToShowType : SflowSourceType) (ssrc : SflowdDoorSsrc)
    (d : Registry) : Option (Except Fault Reply) := do
  let srcname ← removeSpace fuel ssrc.sdSrcname.chars
  let typestr ← removeSpace fuel ssrc.sdTypestr.chars
  let types := (typeOfStr typestr).getD (.only srcToShowType)
  replyLoop (shows srcname types) fuel d none .empty

/-! ## Reading them -/

/-- The four strings that `print_default_cb` takes from an entry. -/
def sflowPrintSource (data : List Char) (buf : Nat) : Except Fault SflowSrcFields := do
  let name ← stringAt data (buf + Reply.ssfSrcNameOff)
  let type ← stringAt data (buf + Reply.ssfTypeOff)
  let rate ← stringAt data (buf + Reply.ssfRateOff)
  let interval ← stringAt data (buf + Reply.ssfIntervalOff)
  .ok ⟨name, type, rate, interval⟩

/-- The loop of `do_show_source`, over the number of entries that is left. -/
def showEntries (data : List Char) : Nat → Nat → Except Fault (List SflowSrcFields)
  | 0, _ => .ok []
  | n + 1, toShow => do
      let entry ← sflowPrintSource data toShow
      let entries ← showEntries data n (toShow + SflowdSsr.fieldsSize)
      .ok (entry :: entries)

/-- `rval + 1` is where the header ends. -/
def doShowSource (rval : Reply) : Except Fault (List SflowSrcFields) :=
  showEntries rval.data rval.ssrLinkCount SflowdSsr.size

/-! ## What is written -/

/-- What an entry should say of a source. -/
def SflowSource.entry (src : SflowSource) : SflowSrcFields where
  ssfSrcName := src.ssName
  ssfType := src.ssType.name
  ssfRate := if src.ssType.polled then [] else toCharArray src.ssRate
  ssfInterval := if src.ssType.polled then toCharArray src.ssInterval else []

/-- The characters of an entry. -/
def SflowSrcFields.cells (entry : SflowSrcFields) : List Char :=
  padded maxLinkNamelen entry.ssfSrcName ++ (padded maxLinkNamelen entry.ssfType ++
    (padded maxLinkNamelen entry.ssfRate ++ padded maxLinkNamelen entry.ssfInterval))

@[simp] theorem SflowSrcFields.length_cells (entry : SflowSrcFields) :
    entry.cells.length = SflowdSsr.fieldsSize := by
  simp only [cells, List.length_append, length_padded]
  rfl

namespace Reply

/-- The reply that tells of the given sources. -/
def of (srcs : List SflowSource) : Reply where
  len := SflowdSsr.size + srcs.length * SflowdSsr.fieldsSize
  ssrLinkCount := srcs.length
  data := List.replicate SflowdSsr.size '\x00' ++ srcs.flatMap fun src => src.entry.cells

@[simp] theorem of_nil : of [] = empty := rfl

theorem fitsInt_empty : FitsInt empty.len := by decide

theorem length_flatMap_cells (srcs : List SflowSource) :
    (srcs.flatMap fun src => src.entry.cells).length = srcs.length * SflowdSsr.fieldsSize := by
  induction srcs with
  | nil => exact (Nat.zero_mul _).symm
  | cons src srcs ih =>
      rw [List.flatMap_cons, List.length_append, ih, SflowSrcFields.length_cells,
        List.length_cons, Nat.succ_mul, Nat.add_comm]

/-- All bytes of the reply are there. -/
theorem length_data_of (srcs : List SflowSource) : (of srcs).data.length = (of srcs).len := by
  rw [of, List.length_append, List.length_replicate, length_flatMap_cells]

/-- A new entry is four empty arrays. -/
theorem replicate_fieldsSize : List.replicate SflowdSsr.fieldsSize '\x00' =
    padded maxLinkNamelen [] ++ (padded maxLinkNamelen [] ++
      (padded maxLinkNamelen [] ++ padded maxLinkNamelen [])) := by
  decide +kernel

/-- The arrays of an entry are filled one after the other. -/
theorem push_eq {buf : Reply} (hlen : buf.data.length = buf.len) (src : SflowSource) :
    buf.push src =
      if FitsInt (buf.len + SflowdSsr.fieldsSize) then
        .ok ⟨buf.len + SflowdSsr.fieldsSize, buf.ssrLinkCount + 1, buf.data ++ src.entry.cells⟩
      else .error .nullDeref := by
  by_cases hfits : FitsInt (buf.len + SflowdSsr.fieldsSize)
  · let blank : List Char := padded maxLinkNamelen []
    let name := padded maxLinkNamelen src.ssName
    let type := padded maxLinkNamelen src.ssType.name
    have hname : strncpyAt (buf.data ++ List.replicate SflowdSsr.fieldsSize '\x00')
        (buf.len + ssfSrcNameOff) src.ssName maxLinkNamelen =
        .ok (buf.data ++ (name ++ (blank ++ (blank ++ blank)))) :=
      strncpyAt_eq (congrArg _ replicate_fieldsSize) hlen (length_padded _ _)
    have htype : strncpyAt (buf.data ++ (name ++ (blank ++ (blank ++ blank))))
        (buf.len + ssfTypeOff) src.ssType.name maxLinkNamelen =
        .ok (buf.data ++ name ++ (type ++ (blank ++ blank))) := by
      refine strncpyAt_eq (List.append_assoc _ _ _).symm ?_ (length_padded _ _)
      rw [List.length_append, length_padded, hlen]
      rfl
    have hrate (s : List Char) : strncpyAt (buf.data ++ name ++ (type ++ (blank ++ blank)))
        (buf.len + ssfRateOff) s maxLinkNamelen =
        .ok (buf.data ++ name ++ type ++ (padded maxLinkNamelen s ++ blank)) := by
      refine strncpyAt_eq (List.append_assoc _ _ _).symm ?_ (length_padded _ _)
      rw [List.length_append, List.length_append, length_padded, length_padded, hlen]
      rfl
    have hinterval (s : List Char) : strncpyAt (buf.data ++ name ++ (type ++ (blank ++ blank)))
        (buf.len + ssfIntervalOff) s maxLinkNamelen =
        .ok (buf.data ++ name ++ type ++ blank ++ (padded maxLinkNamelen s ++ [])) := by
      have hmem : buf.data ++ name ++ (type ++ (blank ++ blank)) =
          buf.data ++ name ++ type ++ blank ++ (blank ++ []) := by
        simp only [List.append_assoc, List.append_nil]
      refine strncpyAt_eq hmem ?_ (length_padded _ _)
      simp only [List.length_append, name, type, blank, length_padded, hlen]
      rfl
    rw [push, if_pos hfits, if_pos hfits, Nat.add_sub_cancel]
    dsimp only
    rw [hname, ok_bind, htype, ok_bind]
    cases hpolled : src.ssType.polled
    · rw [if_neg Bool.false_ne_true, hrate]
      simp [SflowSource.entry, SflowSrcFields.cells, hpolled, name, type, blank]
    · rw [if_pos rfl, hinterval]
      simp [SflowSource.entry, SflowSrcFields.cells, hpolled, name, type, blank]
  · rw [push, if_neg hfits, if_neg hfits]

theorem push_of (srcs : List SflowSource) (src : SflowSource) :
    (of srcs).push src =
      if FitsInt (of (srcs ++ [src])).len then .ok (of (srcs ++ [src])) else .error .nullDeref := by
  have hof : of (srcs ++ [src]) =
      ⟨(of srcs).len + SflowdSsr.fieldsSize, (of srcs).ssrLinkCount + 1,
        (of srcs).data ++ src.entry.cells⟩ := by
    simp only [of, List.length_append, List.length_singleton, Nat.succ_mul, List.flatMap_append,
      List.flatMap_cons, List.flatMap_nil, List.append_nil, List.append_assoc, Nat.add_assoc]
  rw [push_eq (length_data_of srcs), hof]

/-- More sources take more room. -/
theorem len_of_le {srcs srcs' : List SflowSource} (h : srcs.length ≤ srcs'.length) :
    (of srcs).len ≤ (of srcs').len :=
  Nat.add_le_add_left (Nat.mul_le_mul_right _ h) _

end Reply

/-- The reply that tells of the sources that pass a test. -/
def Reply.selected (sel : SflowSource → Bool) (nodes : List SourceNode) : Reply :=
  .of ((nodes.map fun node => node.sslnSrc).filter sel)

section Selected

variable {sel : SflowSource → Bool} {nodes : List SourceNode} {node : SourceNode}

theorem Reply.selected_concat_of_pos (h : sel node.sslnSrc = true) :
    selected sel (nodes ++ [node]) =
      of ((nodes.map fun node => node.sslnSrc).filter sel ++ [node.sslnSrc]) := by
  rw [selected, List.map_append, List.filter_append, List.map_singleton,
    List.filter_cons_of_pos h, List.filter_nil]

theorem Reply.selected_concat_of_neg (h : ¬sel node.sslnSrc = true) :
    selected sel (nodes ++ [node]) = selected sel nodes := by
  rw [selected, List.map_append, List.filter_append, List.map_singleton,
    List.filter_cons_of_neg h, List.filter_nil, List.append_nil, selected]

theorem Reply.len_selected_le (rest : List SourceNode) :
    (selected sel nodes).len ≤ (selected sel (nodes ++ rest)).len := by
  apply len_of_le
  rw [List.map_append, List.filter_append, List.length_append]
  exact Nat.le_add_right _ _

end Selected

/-- The sources that pass the test are written in order, as long as the size fits. -/
theorem replyLoop_eq {sel : SflowSource → Bool} (fuel : Nat) {d : Registry}
    {seen rest : List SourceNode} (hnodes : d.sflowAllSources.nodes = seen ++ rest)
    (hfits : FitsInt (Reply.selected sel seen).len) (hfuel : rest.length < fuel) :
    replyLoop sel fuel d seen.getLast? (.selected sel seen) =
      some (if FitsInt (Reply.selected sel d.sflowAllSources.nodes).len then
        .ok (.selected sel d.sflowAllSources.nodes) else .error .nullDeref) := by
  induction fuel generalizing seen rest with
  | zero => cases Nat.not_lt_zero _ hfuel
  | succ fuel ih =>
      rw [replyLoop, LinkedList.cursor_eq hnodes]
      cases rest with
      | nil =>
          rw [hnodes, List.append_nil, if_pos hfits]
          rfl
      | cons node rest =>
          have hrest : rest.length < fuel := Nat.lt_of_succ_lt_succ hfuel
          have hseen : d.sflowAllSources.nodes = (seen ++ [node]) ++ rest := by
            rw [hnodes, List.append_assoc, List.singleton_append]
          have hnext := fun hfits ↦ ih hseen hfits hrest
          rw [List.getLast?_concat] at hnext
          dsimp only [List.head?_cons]
          by_cases hsel : sel node.sslnSrc = true
          · have hpush := @Reply.selected_concat_of_pos sel seen node hsel
            rw [if_pos hsel, Reply.selected, Reply.push_of, ← hpush]
            by_cases hnew : FitsInt (Reply.selected sel (seen ++ [node])).len
            · rw [if_pos hnew]
              exact hnext hnew
            · have hall : ¬FitsInt (Reply.selected sel d.sflowAllSources.nodes).len := by
                intro h
                rw [hseen] at h
                exact hnew (Nat.lt_of_le_of_lt (Reply.len_selected_le rest) h)
              rw [if_neg hnew, if_neg hall]
          · rw [Reply.selected_concat_of_neg hsel] at hnext
            rw [if_neg hsel]
            exact hnext hfits

/-- The sources that a request is for, by the test of `sflow_show_src`. -/
def matching (name : CStr) (w : TypeWord) (d : Registry) : List SflowSource :=
  (d.sflowAllSources.nodes.map fun node => node.sslnSrc).filter
    (shows (stripped name.chars) w.types)

section Request

variable {fuel : Nat} {srcToShowType : SflowSourceType} {name : CStr} {w : TypeWord} {d : Registry}

theorem sflowShowSrcReply_of_le (htab : '\t' ∉ name.chars) (hfuel : requestFuel name w d ≤ fuel) :
    sflowShowSrcReply fuel srcToShowType ⟨name, w.str⟩ d =
      some (if FitsInt (Reply.of (matching name w d)).len then .ok (.of (matching name w d))
        else .error .nullDeref) := by
  unfold requestFuel at hfuel
  have hloop := @replyLoop_eq (shows (stripped name.chars) w.types) fuel d [] _
    (List.nil_append _).symm Reply.fitsInt_empty (by omega)
  have hrequest := request_eq
    (fun srcname types => replyLoop (shows srcname types) fuel d none .empty) fuel
    (.only srcToShowType) name w
  rw [if_pos ⟨htab, by omega, by omega⟩] at hrequest
  exact hrequest.trans hloop

/-- The sources in the memory are those that `sflow_show_src` shows. -/
theorem sflowShowSrcReply_eq_sflowShowSrc (htab : '\t' ∉ name.chars)
    (hfuel : requestFuel name w d ≤ fuel) :
    sflowShowSrcReply fuel srcToShowType ⟨name, w.str⟩ d =
      (sflowShowSrc fuel srcToShowType ⟨name, w.str⟩ d).map fun ssr =>
        if FitsInt ssr.len then .ok (.of (ssr.shown.map fun node => node.sslnSrc))
        else .error .nullDeref := by
  have hmatching : (d.sflowAllSources.nodes.filter fun node =>
      shows (stripped name.chars) w.types node.sslnSrc).map (fun node => node.sslnSrc) =
      matching name w d := by
    rw [matching, List.filter_map]
    rfl
  rw [sflowShowSrcReply_of_le htab hfuel, sflowShowSrc_of_le htab hfuel, Option.map_some,
    ← hmatching]
  simp only [Reply.of, SflowdSsr.of, List.length_map]

theorem sflowShowSrcReply_of_tab (htab : '\t' ∈ name.chars) :
    sflowShowSrcReply fuel srcToShowType ⟨name, w.str⟩ d = none := by
  have hname : removeSpace fuel name.chars = none := by
    rw [removeSpace_eq]
    exact if_neg fun h ↦ h.1 htab
  rw [sflowShowSrcReply, hname]
  rfl

end Request

/-! ## What is read -/

def sfNameLen : Nat := 64

/-- What a source can hold: an array of `SF_NAME_LEN` characters, and numbers of type `int`. -/
structure SflowSource.Storable (src : SflowSource) : Prop where
  nul_notMem : '\x00' ∉ src.ssName
  length_lt : src.ssName.length < sfNameLen
  isInt_ssRate : IsInt src.ssRate
  isInt_ssInterval : IsInt src.ssInterval

/-- The string ends inside its array. -/
def EndsInArray (s : List Char) : Prop := '\x00' ∉ s ∧ s.length < maxLinkNamelen

/-- All strings of an entry end inside their arrays. -/
structure SflowSrcFields.Ends (entry : SflowSrcFields) : Prop where
  name : EndsInArray entry.ssfSrcName
  type : EndsInArray entry.ssfType
  rate : EndsInArray entry.ssfRate
  interval : EndsInArray entry.ssfInterval

theorem endsInArray_nil : EndsInArray [] := ⟨List.not_mem_nil, Nat.zero_lt_succ 31⟩

theorem SflowSourceType.endsInArray_name (t : SflowSourceType) : EndsInArray t.name := by
  unfold EndsInArray
  cases t <;> decide +kernel

/-- An `int` takes 11 characters at most. -/
theorem endsInArray_toCharArray {num : Int} (h : IsInt num) : EndsInArray (toCharArray num) := by
  obtain ⟨hmin, hmax⟩ := h
  rw [toCharArray_eq_itoa]
  constructor
  · intro hnul
    rcases mem_itoa hnul with hnul | hnul
    · cases hnul
    · cases hnul
  · have hlen : (itoa num).length ≤ 10 + 1 := length_itoa_le (by decide) (by omega)
    exact Nat.lt_of_le_of_lt hlen (by decide)

theorem SflowSource.ends_entry {src : SflowSource} (h : src.Storable)
    (hname : src.ssName.length < maxLinkNamelen) : src.entry.Ends where
  name := ⟨h.nul_notMem, hname⟩
  type := src.ssType.endsInArray_name
  rate := by
    unfold entry
    split
    · exact endsInArray_nil
    · exact endsInArray_toCharArray h.isInt_ssRate
  interval := by
    unfold entry
    split
    · exact endsInArray_toCharArray h.isInt_ssInterval
    · exact endsInArray_nil

/-- Behind a piece of the memory the rest of it begins. -/
theorem drop_add_of_drop_eq {mem front back : List Char} {off n : Nat}
    (hdrop : mem.drop off = front ++ back) (hn : front.length = n) : mem.drop (off + n) = back := by
  rw [← List.drop_drop, hdrop, ← hn, List.drop_left]

section Entry

variable {data back : List Char} {buf : Nat} {entry : SflowSrcFields}

/-- Where the arrays of an entry lie. -/
theorem drop_eq_of_cells (hdata : data.drop buf = entry.cells ++ back) :
    ∃ back₀ back₁ back₂ back₃,
      data.drop (buf + Reply.ssfSrcNameOff) = padded maxLinkNamelen entry.ssfSrcName ++ back₀ ∧
      data.drop (buf + Reply.ssfTypeOff) = padded maxLinkNamelen entry.ssfType ++ back₁ ∧
      data.drop (buf + Reply.ssfRateOff) = padded maxLinkNamelen entry.ssfRate ++ back₂ ∧
      data.drop (buf + Reply.ssfIntervalOff) =
        padded maxLinkNamelen entry.ssfInterval ++ back₃ := by
  rw [SflowSrcFields.cells, List.append_assoc, List.append_assoc, List.append_assoc] at hdata
  have htype := drop_add_of_drop_eq hdata (length_padded _ _)
  have hrate := drop_add_of_drop_eq htype (length_padded _ _)
  have hinterval := drop_add_of_drop_eq hrate (length_padded _ _)
  exact ⟨_, _, _, _, hdata, htype, hrate, hinterval⟩

/-- An entry is read back from where it lies. -/
theorem sflowPrintSource_eq (hdata : data.drop buf = entry.cells ++ back) (h : entry.Ends) :
    sflowPrintSource data buf = .ok entry := by
  obtain ⟨_, _, _, _, hname, htype, hrate, hinterval⟩ := drop_eq_of_cells hdata
  rw [sflowPrintSource, stringAt_eq hname h.name.1 h.name.2, ok_bind,
    stringAt_eq htype h.type.1 h.type.2, ok_bind, stringAt_eq hrate h.rate.1 h.rate.2, ok_bind,
    stringAt_eq hinterval h.interval.1 h.interval.2]
  rfl

end Entry

/-- So are all entries. -/
theorem showEntries_eq {data : List Char} {toShow : Nat} {srcs : List SflowSource}
    (hdata : data.drop toShow = srcs.flatMap fun src => src.entry.cells)
    (h : ∀ src ∈ srcs, src.entry.Ends) :
    showEntries data srcs.length toShow = .ok (srcs.map SflowSource.entry) := by
  induction srcs generalizing toShow with
  | nil => rfl
  | cons src srcs ih =>
      rw [List.flatMap_cons] at hdata
      have hnext := drop_add_of_drop_eq hdata src.entry.length_cells
      have hrest := ih hnext fun src hsrc ↦ h src (List.mem_cons_of_mem _ hsrc)
      rw [List.length_cons, showEntries, sflowPrintSource_eq hdata (h src List.mem_cons_self),
        ok_bind, hrest]
      rfl

namespace Reply

/-- Every field of every entry is a string that ends inside its own array. -/
def Terminated (rval : Reply) : Prop :=
  ∀ i < rval.ssrLinkCount,
    ∀ off ∈ [ssfSrcNameOff, ssfTypeOff, ssfRateOff, ssfIntervalOff],
      '\x00' ∈ (rval.data.drop (SflowdSsr.size + i * SflowdSsr.fieldsSize + off)).take
        maxLinkNamelen

/-- Where an entry lies. -/
theorem drop_data_of {seen rest : List SflowSource} {src : SflowSource} :
    (of (seen ++ src :: rest)).data.drop
        (SflowdSsr.size + seen.length * SflowdSsr.fieldsSize) =
      src.entry.cells ++ rest.flatMap fun src => src.entry.cells := by
  have hfront : (List.replicate SflowdSsr.size '\x00' ++
      seen.flatMap fun src => src.entry.cells).length =
      SflowdSsr.size + seen.length * SflowdSsr.fieldsSize := by
    rw [List.length_append, List.length_replicate, length_flatMap_cells]
  rw [← hfront, of, List.flatMap_append, ← List.append_assoc, List.drop_left, List.flatMap_cons]

/-- The entries begin behind the header. -/
theorem drop_size_data_of (srcs : List SflowSource) :
    (of srcs).data.drop SflowdSsr.size = srcs.flatMap fun src => src.entry.cells :=
  List.drop_left' List.length_replicate

/-- An array at the front of the memory holds a NUL exactly if its string ends in it. -/
theorem nul_mem_take_iff {mem s back : List Char} (hmem : mem = padded maxLinkNamelen s ++ back)
    (hs : '\x00' ∉ s) : '\x00' ∈ mem.take maxLinkNamelen ↔ s.length < maxLinkNamelen := by
  have htake : mem.take maxLinkNamelen = padded maxLinkNamelen s := by
    have hleft : (padded maxLinkNamelen s ++ back).take (padded maxLinkNamelen s).length =
        padded maxLinkNamelen s := List.take_left
    rwa [length_padded, ← hmem] at hleft
  rw [htake, nul_mem_padded_iff hs]

theorem terminated_of_ends {srcs : List SflowSource} (h : ∀ src ∈ srcs, src.entry.Ends) :
    (of srcs).Terminated := by
  intro i hi off hoff
  obtain ⟨seen, src, rest, rfl, rfl⟩ : ∃ seen src rest, srcs = seen ++ src :: rest ∧
      i = seen.length := by
    have hi : i < srcs.length := hi
    refine ⟨srcs.take i, srcs[i], srcs.drop (i + 1), ?_, ?_⟩
    · rw [List.getElem_cons_drop, List.take_append_drop]
    · rw [List.length_take]
      exact (Nat.min_eq_left (Nat.le_of_lt hi)).symm
  have hends := h src (List.mem_append_right _ List.mem_cons_self)
  obtain ⟨_, _, _, _, hname, htype, hrate, hinterval⟩ :=
    drop_eq_of_cells (@drop_data_of seen rest src)
  simp only [List.mem_cons, List.not_mem_nil, or_false] at hoff
  rcases hoff with rfl | rfl | rfl | rfl
  · exact (nul_mem_take_iff hname hends.name.1).mpr hends.name.2
  · exact (nul_mem_take_iff htype hends.type.1).mpr hends.type.2
  · exact (nul_mem_take_iff hrate hends.rate.1).mpr hends.rate.2
  · exact (nul_mem_take_iff hinterval hends.interval.1).mpr hends.interval.2

theorem length_lt_of_terminated {srcs : List SflowSource} (h : (of srcs).Terminated)
    {src : SflowSource} (hsrc : src ∈ srcs) (hnul : '\x00' ∉ src.ssName) :
    src.ssName.length < maxLinkNamelen := by
  obtain ⟨seen, rest, rfl⟩ := List.append_of_mem hsrc
  have hi : seen.length < (seen ++ src :: rest).length := by
    rw [List.length_append, List.length_cons]
    omega
  obtain ⟨_, _, _, _, hname, -⟩ := drop_eq_of_cells (@drop_data_of seen rest src)
  exact (nul_mem_take_iff hname hnul).mp (h seen.length hi ssfSrcNameOff List.mem_cons_self)

end Reply

/-! ## Decoding the reply -/

/-- Given fuel enough, the request is answered, every field of the reply is a string inside its
own array, and what the client reads are the sources that the request is for, in order, each
with its name, its type word and its rate or interval. -/
def RepliesSources (name : CStr) (w : TypeWord) (d : Registry) : Prop :=
  ∃ fuel₀, ∀ fuel ≥ fuel₀, ∀ srcToShowType : SflowSourceType, ∃ rval,
    sflowShowSrcReply fuel srcToShowType ⟨name, w.str⟩ d = some (.ok rval) ∧
      rval.Terminated ∧
      doShowSource rval = .ok ((matching name w d).map SflowSource.entry)

theorem storable_matching {name : CStr} {w : TypeWord} {d : Registry}
    (hd : ∀ node ∈ d.sflowAllSources.nodes, node.sslnSrc.Storable) {src : SflowSource}
    (hsrc : src ∈ matching name w d) : src.Storable := by
  obtain ⟨node, hnode, rfl⟩ := List.mem_map.mp (List.mem_of_mem_filter hsrc)
  exact hd node hnode

/-- A name without room for its NUL runs on into the type word behind it. -/
theorem RepliesSources.fits {name : CStr} {w : TypeWord} {d : Registry}
    (h : RepliesSources name w d)
    (hd : ∀ node ∈ d.sflowAllSources.nodes, node.sslnSrc.Storable) :
    '\t' ∉ name.chars ∧ FitsInt (Reply.of (matching name w d)).len ∧
      ∀ src ∈ matching name w d, src.ssName.length < maxLinkNamelen := by
  obtain ⟨fuel₀, h⟩ := h
  obtain ⟨rval, hreply, hends, -⟩ :=
    h (max fuel₀ (requestFuel name w d)) (Nat.le_max_left _ _) .flowsample
  have htab : '\t' ∉ name.chars := by
    intro htab
    rw [sflowShowSrcReply_of_tab htab] at hreply
    cases hreply
  rw [sflowShowSrcReply_of_le htab (Nat.le_max_right _ _)] at hreply
  by_cases hfits : FitsInt (Reply.of (matching name w d)).len
  · rw [if_pos hfits] at hreply
    cases hreply
    exact ⟨htab, hfits, fun src hsrc ↦
      Reply.length_lt_of_terminated hends hsrc (storable_matching hd hsrc).nul_notMem⟩
  · rw [if_neg hfits] at hreply
    cases hreply

/-- The reply decodes to the sources exactly if the request has no tab in its name, the size of
the reply is an `int`, and the name of every source that is shown fits an array of the reply. -/
theorem repliesSources_iff {d : Registry}
    (hd : ∀ node ∈ d.sflowAllSources.nodes, node.sslnSrc.Storable) (name : CStr) (w : TypeWord) :
    RepliesSources name w d ↔
      '\t' ∉ name.chars ∧ FitsInt (Reply.of (matching name w d)).len ∧
        ∀ src ∈ matching name w d, src.ssName.length < maxLinkNamelen := by
  constructor
  · intro h
    exact h.fits hd
  · rintro ⟨htab, hfits, hnames⟩
    have hends : ∀ src ∈ matching name w d, src.entry.Ends := fun src hsrc ↦
      SflowSource.ends_entry (storable_matching hd hsrc) (hnames src hsrc)
    refine ⟨requestFuel name w d, fun fuel hfuel srcToShowType ↦
      ⟨.of (matching name w d), ?_, ?_, ?_⟩⟩
    · rw [sflowShowSrcReply_of_le htab hfuel, if_pos hfits]
    · exact Reply.terminated_of_ends hends
    · exact showEntries_eq (Reply.drop_size_data_of _) hends

theorem storable_net1AndNet10 :
    ∀ node ∈ net1AndNet10.sflowAllSources.nodes, node.sslnSrc.Storable := by
  intro node hnode
  have hall : ∀ node ∈ net1AndNet10.sflowAllSources.nodes,
      '\x00' ∉ node.sslnSrc.ssName ∧ node.sslnSrc.ssName.length < sfNameLen ∧
        IsInt node.sslnSrc.ssRate ∧ IsInt node.sslnSrc.ssInterval := by decide +kernel
  obtain ⟨hnul, hlen, hrate, hinterval⟩ := hall node hnode
  exact ⟨hnul, hlen, hrate, hinterval⟩

/-- So two interfaces are shown. -/
theorem repliesSources_iff_net1 :
    (∀ node ∈ net1AndNet10.sflowAllSources.nodes, node.sslnSrc.Storable) ∧
      (RepliesSources net1 .all net1AndNet10 ↔
        '\t' ∉ net1.chars ∧ FitsInt (Reply.of (matching net1 .all net1AndNet10)).len ∧
          ∀ src ∈ matching net1 .all net1AndNet10, src.ssName.length < maxLinkNamelen) :=
  ⟨storable_net1AndNet10, repliesSources_iff storable_net1AndNet10 net1 .all⟩

/-- A zone with a name of 32 characters, for examples. -/
def longNamedZone : Registry where
  sflowAllSources :=
    ⟨[⟨0, { SflowSource.web with ssName := List.replicate 32 'w' }⟩], List.nodup_singleton _⟩
  toWatch := fun _ => false
  sflowFdSources := expandingArrayCreate
  maxfd := -1
  closed := []
  cancelled := []

theorem storable_longNamedZone :
    ∀ node ∈ longNamedZone.sflowAllSources.nodes, node.sslnSrc.Storable := by
  intro node hnode
  obtain rfl := List.mem_singleton.mp hnode
  exact ⟨by decide +kernel, by decide +kernel, by decide +kernel, by decide +kernel⟩

/-- A source may have a name that fills its array in the reply, and then it is not read back. -/
theorem not_repliesSources_longNamedZone :
    (∀ node ∈ longNamedZone.sflowAllSources.nodes, node.sslnSrc.Storable) ∧
      '\t' ∉ TypeWord.all.str.chars ∧ ¬RepliesSources TypeWord.all.str .all longNamedZone := by
  refine ⟨storable_longNamedZone, TypeWord.all.tab_notMem_chars, fun h ↦ ?_⟩
  have hnames := (h.fits storable_longNamedZone).2.2
  revert hnames
  decide +kernel

end Sflow

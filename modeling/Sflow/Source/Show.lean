import Sflow.Source.Remove
import Sflow.Util

/-!
# Showing sources

`sflow_show_src` walks over the list of all sources with a test of its own, which is
the one that `sflow_remove_source` makes.  So a request removes what the same request
would show.
-/

namespace Sflow

open C

/-! ## The reply -/

/-- A request to show sources. -/
structure SflowdDoorSsrc where
  sdSrcname : CStr
  sdTypestr : CStr
deriving DecidableEq

def maxLinkNamelen : Nat := 32

/-- One entry of the reply, up to the zeros behind each string. -/
structure SflowSrcFields where
  ssfSrcName : List Char
  ssfType : List Char
  ssfRate : List Char
  ssfInterval : List Char
deriving DecidableEq, Repr

def SflowSourceType.name : SflowSourceType → List Char
  | flowsample => "flow_sample".toList
  | ifgeneric => "if_generic".toList
  | flowstat => "flow_stat".toList
  | phyhost => "host_phys".toList
  | vhost => "host_virt".toList
  | interPollSeperation => "???".toList

/-- `ss_type > SF_SRC_INTER_POLL_SEPERATION`. -/
def SflowSourceType.polled : SflowSourceType → Bool
  | ifgeneric | phyhost | vhost | flowstat => true
  | flowsample | interPollSeperation => false

/-- What an entry says of a source.  `strncpy` cuts off what does not fit. -/
def SflowSource.fields (src : SflowSource) : SflowSrcFields where
  ssfSrcName := src.ssName.take maxLinkNamelen
  ssfType := src.ssType.name.take maxLinkNamelen
  ssfRate := if src.ssType.polled then [] else (toCharArray src.ssRate).take maxLinkNamelen
  ssfInterval := if src.ssType.polled then (toCharArray src.ssInterval).take maxLinkNamelen else []

/-- The reply to a request to show sources. -/
structure SflowdSsr where
  /-- The bytes of the reply. -/
  len : Nat
  ssrLinkCount : Nat
  entries : List SflowSrcFields
  /-- The nodes that the entries tell of. -/
  shown : List SourceNode
deriving DecidableEq, Repr

namespace SflowdSsr

/-- The size of the reply itself, and that of an entry. -/
def size : Nat := 8

def fieldsSize : Nat := 4 * maxLinkNamelen

def empty : SflowdSsr := ⟨size, 0, [], []⟩

def push (buf : SflowdSsr) (node : SourceNode) : SflowdSsr where
  len := buf.len + fieldsSize
  ssrLinkCount := buf.ssrLinkCount + 1
  entries := buf.entries ++ [node.sslnSrc.fields]
  shown := buf.shown ++ [node]

/-- The reply that tells of the given nodes. -/
def of (nodes : List SourceNode) : SflowdSsr where
  len := size + nodes.length * fieldsSize
  ssrLinkCount := nodes.length
  entries := nodes.map fun node => node.sslnSrc.fields
  shown := nodes

@[simp] theorem of_nil : of [] = empty := rfl

theorem push_of (nodes : List SourceNode) (node : SourceNode) :
    (of nodes).push node = of (nodes ++ [node]) := by
  simp [of, push, Nat.succ_mul, Nat.add_assoc]

end SflowdSsr

/-! ## The walk -/

/-- The test for a source, given the strings of the request without their blanks. -/
def shows (srcname : List Char) (types : TypeSel) (src : SflowSource) : Bool :=
  (startsWith srcname sflowCmdAll || startsWith src.ssName srcname) && types.selects src.ssType

/-- The walk over the list, from behind the node that was looked at last. -/
def showLoop (sel : SflowSource → Bool) :
    Nat → Registry → Option SourceNode → SflowdSsr → Option SflowdSsr
  | 0, _, _, _ => none
  | fuel + 1, d, nodeCur, buf =>
      match d.sflowAllSources.cursor nodeCur with
      | none => some buf
      | some nodeCur =>
          showLoop sel fuel d (some nodeCur) (if sel nodeCur.sslnSrc then buf.push nodeCur else buf)

/-- `srcToShowType` is what the local variable holds that only a known type word sets. -/
def sflowShowSrc (fuel : Nat) (srcToShowType : SflowSourceType) (ssrc : SflowdDoorSsrc)
    (d : Registry) : Option SflowdSsr := do
  let srcname ← removeSpace fuel ssrc.sdSrcname.chars
  let typestr ← removeSpace fuel ssrc.sdTypestr.chars
  let types := (typeOfStr typestr).getD (.only srcToShowType)
  showLoop (shows srcname types) fuel d none .empty

/-- Both walks make the same test. -/
theorem shows_eq_removes : shows = removes := rfl

/-- The nodes that pass the test are shown in order. -/
theorem showLoop_eq {sel : SflowSource → Bool} (fuel : Nat) {d : Registry}
    {seen rest : List SourceNode} (hnodes : d.sflowAllSources.nodes = seen ++ rest) :
    showLoop sel fuel d seen.getLast? (.of (seen.filter fun node => sel node.sslnSrc)) =
      if rest.length < fuel then
        some (.of (d.sflowAllSources.nodes.filter fun node => sel node.sslnSrc))
      else none := by
  induction fuel generalizing seen rest with
  | zero => rfl
  | succ fuel ih =>
      rw [showLoop, LinkedList.cursor_eq hnodes]
      cases rest with
      | nil =>
          have hlen : ([] : List SourceNode).length < fuel + 1 := Nat.succ_pos fuel
          rw [if_pos hlen, hnodes, List.append_nil]
          rfl
      | cons node rest =>
          have hlen : (node :: rest).length < fuel + 1 ↔ rest.length < fuel := by
            rw [List.length_cons, Nat.add_lt_add_iff_right]
          have hseen : d.sflowAllSources.nodes = (seen ++ [node]) ++ rest := by
            rw [hnodes, List.append_assoc, List.singleton_append]
          have hpush : (if sel node.sslnSrc then
              (SflowdSsr.of (seen.filter fun node => sel node.sslnSrc)).push node
              else .of (seen.filter fun node => sel node.sslnSrc)) =
              .of ((seen ++ [node]).filter fun node => sel node.sslnSrc) := by
            rw [List.filter_append, SflowdSsr.push_of]
            cases hsel : sel node.sslnSrc
            · simp [hsel]
            · simp [hsel]
          have hnext := ih hseen
          rw [List.getLast?_concat] at hnext
          simp only [List.head?_cons, hlen, hpush, hnext]

theorem sflowShowSrc_eq (fuel : Nat) (srcToShowType : SflowSourceType) (name : CStr)
    (w : TypeWord) (d : Registry) :
    sflowShowSrc fuel srcToShowType ⟨name, w.str⟩ d =
      if '\t' ∉ name.chars ∧ name.chars.length < fuel ∧ w.chars.length < fuel ∧
          d.sflowAllSources.nodes.length < fuel then
        some (.of (d.sflowAllSources.nodes.filter fun node =>
          shows (stripped name.chars) w.types node.sslnSrc))
      else none := by
  have hloop := @showLoop_eq (shows (stripped name.chars) w.types) fuel d [] _ rfl
  have hrequest := request_eq
    (fun srcname types => showLoop (shows srcname types) fuel d none .empty) fuel
    (.only srcToShowType) name w
  rw [List.filter_nil, List.getLast?_nil, SflowdSsr.of_nil] at hloop
  rw [hloop] at hrequest
  refine hrequest.trans ?_
  simp only [← ite_and, and_assoc]

/-- Enough fuel for a request. -/
def requestFuel (name : CStr) (w : TypeWord) (d : Registry) : Nat :=
  name.chars.length + w.chars.length + d.sflowAllSources.nodes.length + 1

theorem sflowShowSrc_of_le {fuel : Nat} {srcToShowType : SflowSourceType} {name : CStr}
    {w : TypeWord} {d : Registry} (htab : '\t' ∉ name.chars) (hfuel : requestFuel name w d ≤ fuel) :
    sflowShowSrc fuel srcToShowType ⟨name, w.str⟩ d =
      some (.of (d.sflowAllSources.nodes.filter fun node =>
        shows (stripped name.chars) w.types node.sslnSrc)) := by
  unfold requestFuel at hfuel
  rw [sflowShowSrc_eq, if_pos]
  exact ⟨htab, by omega, by omega, by omega⟩

theorem sflowRemoveSource_of_le {fuel : Nat} {srcToRmType : SflowSourceType} {name : CStr}
    {w : TypeWord} {d : Registry} (htab : '\t' ∉ name.chars) (hfuel : requestFuel name w d ≤ fuel) :
    sflowRemoveSource fuel srcToRmType ⟨name, w.str⟩ d =
      some (d.stopSelected fun node => removes (stripped name.chars) w.types node.sslnSrc) := by
  unfold requestFuel at hfuel
  rw [sflowRemoveSource_eq, if_pos]
  exact ⟨htab, by omega, by omega, by omega⟩

/-! ## Removing what would be shown -/

/-- The nodes whose sources the walk of `sflow_remove_source` stops, one after the other. -/
def stopCalls (sel : SflowSource → Bool) : Nat → Registry → Option SourceNode → List SourceNode
  | 0, _, _ => []
  | fuel + 1, d, nodePre =>
      match d.sflowAllSources.cursor nodePre with
      | none => []
      | some nodeCur =>
          if sel nodeCur.sslnSrc then
            nodeCur :: stopCalls sel fuel ((sflowStopSource d nodeCur).unlink nodeCur) nodePre
          else stopCalls sel fuel d (some nodeCur)

/-- The nodes whose sources a request stops. -/
def sflowRemoveSourceStops (fuel : Nat) (srcToRmType : SflowSourceType) (rsrc : SflowdDoorRsrc)
    (d : Registry) : Option (List SourceNode) := do
  let srcname ← removeSpace fuel rsrc.sdSrcname.chars
  let typestr ← removeSpace fuel rsrc.sdTypestr.chars
  let types := (typeOfStr typestr).getD (.only srcToRmType)
  some (stopCalls (removes srcname types) fuel d none)

/-- In `d'` the sources shown in `d` have each been stopped once, and no other has, and the
list is left with the others. -/
structure RemovesShown (shown stops : List SourceNode) (d d' : Registry) : Prop where
  stops_eq : stops = shown
  nodup : shown.Nodup
  effect : d' = { stops.foldl sflowStopSource d with sflowAllSources := d'.sflowAllSources }
  nodes : d'.sflowAllSources.nodes = d.sflowAllSources.nodes.filter (· ∉ shown)

theorem stopCalls_eq {sel : SflowSource → Bool} (fuel : Nat) {d : Registry}
    {kept rest : List SourceNode} (hnodes : d.sflowAllSources.nodes = kept ++ rest)
    (hfuel : rest.length < fuel) :
    stopCalls sel fuel d kept.getLast? = rest.filter fun node => sel node.sslnSrc := by
  induction fuel generalizing d kept rest with
  | zero => cases Nat.not_lt_zero _ hfuel
  | succ fuel ih =>
      rw [stopCalls, LinkedList.cursor_eq hnodes]
      cases rest with
      | nil => rfl
      | cons node rest =>
          have hrest : rest.length < fuel := Nat.lt_of_succ_lt_succ hfuel
          dsimp only [List.head?_cons]
          by_cases hsel : sel node.sslnSrc = true
          · rw [if_pos hsel, ih (nodes_unlink hnodes) hrest, List.filter_cons, if_pos hsel]
          · have hkept : d.sflowAllSources.nodes = (kept ++ [node]) ++ rest := by
              rw [hnodes, List.append_assoc, List.singleton_append]
            have hnext := ih hkept hrest
            rw [List.getLast?_concat] at hnext
            rw [if_neg hsel, hnext, List.filter_cons, if_neg hsel]

theorem sflowRemoveSourceStops_eq {fuel : Nat} {srcToRmType : SflowSourceType} {name : CStr}
    {w : TypeWord} {d : Registry} (htab : '\t' ∉ name.chars) (hfuel : requestFuel name w d ≤ fuel) :
    sflowRemoveSourceStops fuel srcToRmType ⟨name, w.str⟩ d =
      some (d.sflowAllSources.nodes.filter fun node =>
        removes (stripped name.chars) w.types node.sslnSrc) := by
  unfold requestFuel at hfuel
  have hcalls : stopCalls (removes (stripped name.chars) w.types) fuel d none = _ :=
    stopCalls_eq fuel (List.nil_append _).symm (by omega)
  have hrequest := request_eq
    (fun srcname types => some (stopCalls (removes srcname types) fuel d none)) fuel
    (.only srcToRmType) name w
  rw [if_pos ⟨htab, by omega, by omega⟩, hcalls] at hrequest
  exact hrequest

/-- Stopping what passes the test is removing what is shown. -/
theorem removesShown_stopSelected (d : Registry) (sel : SourceNode → Bool) :
    RemovesShown (d.sflowAllSources.nodes.filter sel) (d.sflowAllSources.nodes.filter sel) d
      (d.stopSelected sel) := by
  constructor
  · rfl
  · exact d.sflowAllSources.nodup.filter sel
  · rfl
  · refine List.filter_congr fun node hnode ↦ ?_
    cases hsel : sel node <;> simp [hnode, hsel]

/-- No source is left that passes the test. -/
theorem notMem_stopSelected {d : Registry} {sel : SourceNode → Bool} {node : SourceNode}
    (h : node ∈ (d.stopSelected sel).sflowAllSources.nodes) : sel node = false := by
  have hsel : (!sel node) = true := (List.mem_filter.mp h).2
  rwa [Bool.not_eq_true'] at hsel

/-- Removing stops exactly the sources that the same request shows, each once, and nothing of
them is left to show or to remove. -/
theorem sflowRemoveSource_agrees_sflowShowSrc {name : CStr} (htab : '\t' ∉ name.chars)
    (w : TypeWord) (srcToShowType srcToRmType : SflowSourceType) (d : Registry) :
    ∃ ssr stops d', ∀ fuel ≥ requestFuel name w d,
      sflowShowSrc fuel srcToShowType ⟨name, w.str⟩ d = some ssr ∧
      ssr = .of ssr.shown ∧
      sflowRemoveSource fuel srcToRmType ⟨name, w.str⟩ d = some d' ∧
      sflowRemoveSourceStops fuel srcToRmType ⟨name, w.str⟩ d = some stops ∧
      RemovesShown ssr.shown stops d d' ∧
      sflowShowSrc fuel srcToShowType ⟨name, w.str⟩ d' = some .empty ∧
      sflowRemoveSource fuel srcToRmType ⟨name, w.str⟩ d' = some d' := by
  let sel : SourceNode → Bool := fun node => removes (stripped name.chars) w.types node.sslnSrc
  have hgone : ∀ node ∈ (d.stopSelected sel).sflowAllSources.nodes, sel node = false :=
    fun _ ↦ notMem_stopSelected
  have hnone : (d.stopSelected sel).sflowAllSources.nodes.filter sel = [] := by
    refine List.filter_eq_nil_iff.mpr fun node hnode ↦ ?_
    rw [hgone node hnode]
    exact Bool.false_ne_true
  refine ⟨.of (d.sflowAllSources.nodes.filter sel), d.sflowAllSources.nodes.filter sel,
    d.stopSelected sel, fun fuel hfuel ↦ ?_⟩
  have hless : requestFuel name w (d.stopSelected sel) ≤ fuel := by
    refine Nat.le_trans (Nat.succ_le_succ (Nat.add_le_add_left ?_ _)) hfuel
    exact List.length_filter_le _ _
  refine ⟨sflowShowSrc_of_le htab hfuel, rfl, sflowRemoveSource_of_le htab hfuel,
    sflowRemoveSourceStops_eq htab hfuel, removesShown_stopSelected d sel, ?_, ?_⟩
  · rw [sflowShowSrc_of_le htab hless, shows_eq_removes]
    change some (SflowdSsr.of ((d.stopSelected sel).sflowAllSources.nodes.filter sel)) = _
    rw [hnone, SflowdSsr.of_nil]
  · rw [sflowRemoveSource_of_le htab hless, Registry.stopSelected_of_forall hgone]

/-- It is so for the two interfaces whose names begin alike. -/
theorem sflowRemoveSource_agrees_sflowShowSrc_net1 :
    '\t' ∉ net1.chars ∧ ∃ ssr stops d', ∀ fuel ≥ requestFuel net1 .all net1AndNet10,
      sflowShowSrc fuel .flowsample ⟨net1, TypeWord.all.str⟩ net1AndNet10 = some ssr ∧
      ssr = .of ssr.shown ∧
      sflowRemoveSource fuel .flowsample ⟨net1, TypeWord.all.str⟩ net1AndNet10 = some d' ∧
      sflowRemoveSourceStops fuel .flowsample ⟨net1, TypeWord.all.str⟩ net1AndNet10 = some stops ∧
      RemovesShown ssr.shown stops net1AndNet10 d' ∧
      sflowShowSrc fuel .flowsample ⟨net1, TypeWord.all.str⟩ d' = some .empty ∧
      sflowRemoveSource fuel .flowsample ⟨net1, TypeWord.all.str⟩ d' = some d' := by
  have htab : '\t' ∉ net1.chars := by decide +kernel
  exact ⟨htab, sflowRemoveSource_agrees_sflowShowSrc htab .all .flowsample .flowsample
    net1AndNet10⟩

end Sflow

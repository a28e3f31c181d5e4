import Sflow.Source.Registry
import Sflow.Source.Request

/-!
# Removing sources

`sflow_remove_source` walks over the list of all sources and takes out those whose name
begins with the name of the request.  That is every source of that name, and every
other one whose name goes on behind it.
-/

namespace Sflow

open C

/-- The walk over the list: it holds on to the last node that it kept, if there is one, and
goes on behind that.  The fuel bounds the number of nodes. -/
def removeLoop (sel : SflowSource → Bool) :
    Nat → Registry → Option SourceNode → Option Registry
  | 0, _, _ => none
  | fuel + 1, d, nodePre =>
      match d.sflowAllSources.cursor nodePre with
      | none => some d
      | some nodeCur =>
          if sel nodeCur.sslnSrc then
            removeLoop sel fuel ((sflowStopSource d nodeCur).unlink nodeCur) nodePre
          else removeLoop sel fuel d (some nodeCur)

/-- The test for a source, given the strings of the request without their blanks. -/
def removes (srcname : List Char) (types : TypeSel) (src : SflowSource) : Bool :=
  (startsWith srcname sflowCmdAll || startsWith src.ssName srcname) && types.selects src.ssType

/-- `srcToRmType` is what the local variable holds that only a known type word sets. -/
def sflowRemoveSource (fuel : Nat) (srcToRmType : SflowSourceType) (rsrc : SflowdDoorRsrc)
    (d : Registry) : Option Registry := do
  let srcname ← removeSpace fuel rsrc.sdSrcname.chars
  let typestr ← removeSpace fuel rsrc.sdTypestr.chars
  let types := (typeOfStr typestr).getD (.only srcToRmType)
  removeLoop (removes srcname types) fuel d none

/-! ## What is removed -/

/-- A node is taken out of the middle of the list. -/
theorem nodes_unlink {d : Registry} {kept rest : List SourceNode} {node : SourceNode}
    (hnodes : d.sflowAllSources.nodes = kept ++ node :: rest) :
    ((sflowStopSource d node).unlink node).sflowAllSources.nodes = kept ++ rest := by
  rw [Registry.unlink, Registry.sflowAllSources_sflowStopSource]
  exact LinkedList.nodes_remove hnodes

/-- The walk stops and takes out every source that passes the test, and no other. -/
theorem removeLoop_eq {sel : SflowSource → Bool} (fuel : Nat) {d : Registry}
    {kept rest : List SourceNode} (hnodes : d.sflowAllSources.nodes = kept ++ rest)
    (hkept : ∀ node ∈ kept, sel node.sslnSrc = false) :
    removeLoop sel fuel d kept.getLast? =
      if rest.length < fuel then some (d.stopSelected fun node => sel node.sslnSrc) else none := by
  induction fuel generalizing d kept rest with
  | zero => rfl
  | succ fuel ih =>
      rw [removeLoop, LinkedList.cursor_eq hnodes]
      cases rest with
      | nil =>
          have hsel : ∀ node ∈ d.sflowAllSources.nodes, sel node.sslnSrc = false := by
            intro node hnode
            rw [hnodes, List.append_nil] at hnode
            exact hkept node hnode
          have hlen : ([] : List SourceNode).length < fuel + 1 := Nat.succ_pos fuel
          rw [if_pos hlen, Registry.stopSelected_of_forall hsel]
          rfl
      | cons node rest =>
          have hlen : (node :: rest).length < fuel + 1 ↔ rest.length < fuel := by
            rw [List.length_cons, Nat.add_lt_add_iff_right]
          simp only [List.head?_cons, hlen]
          by_cases hsel : sel node.sslnSrc = true
          · rw [if_pos hsel, ih (nodes_unlink hnodes) hkept,
              Registry.stopSelected_unlink hnodes hkept hsel]
          · have hlast : (kept ++ [node]).getLast? = some node := List.getLast?_concat
            rw [if_neg hsel, ← hlast]
            refine ih (by rw [hnodes, List.append_assoc, List.singleton_append]) ?_
            intro other hother
            rcases List.mem_append.mp hother with hother | hother
            · exact hkept other hother
            · rw [List.mem_singleton.mp hother]
              exact Bool.eq_false_iff.mpr hsel

/-- A request returns unless there is a tab in its name, and then it has removed what passes
the test. -/
theorem sflowRemoveSource_eq (fuel : Nat) (srcToRmType : SflowSourceType) (name : CStr)
    (w : TypeWord) (d : Registry) :
    sflowRemoveSource fuel srcToRmType ⟨name, w.str⟩ d =
      if '\t' ∉ name.chars ∧ name.chars.length < fuel ∧ w.chars.length < fuel ∧
          d.sflowAllSources.nodes.length < fuel then
        some (d.stopSelected fun node => removes (stripped name.chars) w.types node.sslnSrc)
      else none := by
  have hloop : removeLoop (removes (stripped name.chars) w.types) fuel d none =
      if d.sflowAllSources.nodes.length < fuel then
        some (d.stopSelected fun node => removes (stripped name.chars) w.types node.sslnSrc)
      else none := removeLoop_eq fuel (List.nil_append _).symm (by simp)
  have hrequest := request_eq (fun srcname types => removeLoop (removes srcname types) fuel d none)
    fuel (.only srcToRmType) name w
  rw [hloop] at hrequest
  refine hrequest.trans ?_
  simp only [← ite_and, and_assoc]

theorem sflowRemoveSource_eq_some {srcToRmType : SflowSourceType} {name : CStr} {w : TypeWord}
    {d d' : Registry} :
    (∃ fuel, sflowRemoveSource fuel srcToRmType ⟨name, w.str⟩ d = some d') ↔
      '\t' ∉ name.chars ∧
        d' = d.stopSelected fun node => removes (stripped name.chars) w.types node.sslnSrc := by
  simp only [sflowRemoveSource_eq, Option.ite_none_right_eq_some, Option.some.injEq]
  constructor
  · rintro ⟨fuel, ⟨htab, -⟩, rfl⟩
    exact ⟨htab, rfl⟩
  · rintro ⟨htab, rfl⟩
    refine ⟨name.chars.length + w.chars.length + d.sflowAllSources.nodes.length + 1, ?_, rfl⟩
    exact ⟨htab, by omega, by omega, by omega⟩

/-! ## What is requested -/

/-- A source that a request for a name without blanks means: the one of that name, or any
for the name `all`. -/
def requested (srcname : List Char) (types : TypeSel) (node : SourceNode) : Bool :=
  (srcname = sflowCmdAll || node.sslnSrc.ssName = srcname) && types.selects node.sslnSrc.ssType

/-- A name that is taken neither for that of another source in the list nor for all of them. -/
structure Unambiguous (d : Registry) (srcname : List Char) (types : TypeSel) : Prop where
  tab : '\t' ∉ srcname
  others : srcname = sflowCmdAll ∨ ∀ node ∈ d.sflowAllSources.nodes,
    types.selects node.sslnSrc.ssType = true → node.sslnSrc.ssName ≠ srcname →
      ¬ sflowCmdAll <+: srcname ∧ ¬ srcname <+: node.sslnSrc.ssName

theorem requested_iff {srcname : List Char} {types : TypeSel} {node : SourceNode} :
    requested srcname types node = true ↔
      (srcname = sflowCmdAll ∨ node.sslnSrc.ssName = srcname) ∧
        types.selects node.sslnSrc.ssType = true := by
  rw [requested, Bool.and_eq_true, Bool.or_eq_true, decide_eq_true_eq, decide_eq_true_eq]

theorem removes_iff {srcname : List Char} {types : TypeSel} {src : SflowSource}
    (hnul : '\x00' ∉ srcname) : removes srcname types src = true ↔
      (sflowCmdAll <+: srcname ∨ srcname <+: src.ssName) ∧ types.selects src.ssType = true := by
  have hall : '\x00' ∉ sflowCmdAll := by decide +kernel
  rw [removes, Bool.and_eq_true, Bool.or_eq_true, startsWith_iff hall, startsWith_iff hnul]

/-- Whatever is requested passes the test. -/
theorem removes_of_requested {srcname : List Char} {types : TypeSel} {node : SourceNode}
    (hnul : '\x00' ∉ srcname) (h : requested srcname types node = true) :
    removes srcname types node.sslnSrc = true := by
  obtain ⟨hname, htype⟩ := requested_iff.mp h
  refine (removes_iff hnul).mpr ⟨?_, htype⟩
  rcases hname with rfl | hname
  · exact .inl (List.prefix_refl _)
  · rw [hname]
    exact .inr (List.prefix_refl _)

/-- The test lets no other source through exactly for unambiguous names. -/
theorem others_iff {d : Registry} {srcname : List Char} {types : TypeSel}
    (hnul : '\x00' ∉ srcname) :
    (srcname = sflowCmdAll ∨ ∀ node ∈ d.sflowAllSources.nodes,
        types.selects node.sslnSrc.ssType = true → node.sslnSrc.ssName ≠ srcname →
          ¬ sflowCmdAll <+: srcname ∧ ¬ srcname <+: node.sslnSrc.ssName) ↔
      ∀ node ∈ d.sflowAllSources.nodes,
        requested srcname types node = removes srcname types node.sslnSrc := by
  constructor
  · intro h node hnode
    apply Bool.eq_iff_iff.mpr
    constructor
    · exact removes_of_requested hnul
    · intro hremoves
      obtain ⟨hbegins, htype⟩ := (removes_iff hnul).mp hremoves
      refine requested_iff.mpr ⟨?_, htype⟩
      rcases h with hall | hothers
      · exact .inl hall
      · by_contra hname
        rw [not_or] at hname
        obtain ⟨hnotAll, hnotBegins⟩ := hothers node hnode htype hname.2
        exact hbegins.elim hnotAll hnotBegins
  · intro h
    by_cases hall : srcname = sflowCmdAll
    · exact .inl hall
    · refine .inr fun node hnode htype hname ↦ ?_
      rw [← not_or]
      intro hbegins
      have hremoves : removes srcname types node.sslnSrc = true :=
        (removes_iff hnul).mpr ⟨hbegins, htype⟩
      rw [← h node hnode, requested_iff] at hremoves
      exact hremoves.1.elim hall hname

/-- Removing is exact, for any list of sources and any type word, exactly for names that are
unambiguous once their blanks are dropped. -/
theorem sflowRemoveSource_exact_iff (srcToRmType : SflowSourceType) (name : CStr) (w : TypeWord)
    (d : Registry) :
    (∃ fuel d', sflowRemoveSource fuel srcToRmType ⟨name, w.str⟩ d = some d' ∧
        d.RemovesExactly d' (requested (stripped name.chars) w.types)) ↔
      Unambiguous d (stripped name.chars) w.types := by
  have hnul := nul_notMem_stripped name
  constructor
  · rintro ⟨fuel, d', hrun, hexact⟩
    obtain ⟨htab, rfl⟩ := sflowRemoveSource_eq_some.mp ⟨fuel, hrun⟩
    have hothers := (others_iff hnul).mpr (Registry.removesExactly_stopSelected_iff.mp hexact)
    exact ⟨fun h ↦ htab (List.mem_of_mem_filter h), hothers⟩
  · intro h
    have htab : '\t' ∉ name.chars := by
      intro hmem
      exact h.tab (List.mem_filter.mpr ⟨hmem, by decide⟩)
    obtain ⟨fuel, hrun⟩ := sflowRemoveSource_eq_some.mpr ⟨htab, rfl⟩
    have hexact := Registry.removesExactly_stopSelected_iff.mpr ((others_iff hnul).mp h.others)
    exact ⟨fuel, _, hrun, hexact⟩

/-! ## A name that begins like another -/

/-- Two interfaces that are sampled for packets. -/
def net1AndNet10 : Registry where
  sflowAllSources :=
    { nodes :=
        [⟨0, { SflowSource.net0 with ssName := "net1".toList }⟩,
          ⟨1, { SflowSource.net0 with ssName := "net10".toList, ssFd := 6 }⟩]
      nodup := by decide +kernel }
  toWatch := fun fd => fd = 5 || fd = 6
  sflowFdSources :=
    expandingArraySet (expandingArraySet expandingArrayCreate 5 (some 0)) 6 (some 1)
  maxfd := 6
  closed := []
  cancelled := []

def net1 : CStr := ⟨"net1".toList, by decide +kernel⟩

/-- Removing `net1` removes `net10` as well. -/
theorem not_removesExactly_net1 :
    ¬ ∃ fuel d', sflowRemoveSource fuel .flowsample ⟨net1, TypeWord.flowSample.str⟩
        net1AndNet10 = some d' ∧
      net1AndNet10.RemovesExactly d'
        (requested (stripped net1.chars) TypeWord.flowSample.types) := by
  rintro ⟨fuel, d', hrun, hexact⟩
  obtain ⟨-, rfl⟩ := sflowRemoveSource_eq_some.mp ⟨fuel, hrun⟩
  have hagree := Registry.removesExactly_stopSelected_iff.mp hexact
  revert hagree
  decide +kernel

end Sflow

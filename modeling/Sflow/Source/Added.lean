import Sflow.Source.Add
import Sflow.Source.Show

/-!
# What a request adds

A request to add sources takes one step for each source that it comes to make.  A step
may end before anything is changed, or with the new source in the list, started or not.
What the request returns is left by its last step.
-/

namespace Sflow

open C

/-! ## Steps -/

/-- A source on its way, by its type and the answers of the system. -/
structure SourceStep where
  type : SflowSourceType
  calls : SourceCalls

namespace SourceStep

/-- All that is looked up for the source is there, and so is its socket. -/
def found (step : SourceStep) : Bool :=
  match step.type with
  | .flowsample => 0 ≤ step.calls.linkId && 0 ≤ step.calls.fd
  | .ifgeneric | .flowstat => 0 ≤ step.calls.linkId
  | .phyhost => true
  | .vhost => step.calls.zoneName.isSome
  | .interPollSeperation => false

/-- The source has its thread, if it is to have one. -/
def started (step : SourceStep) : Bool :=
  step.type = .flowsample || step.calls.pthreadCreate = 0

/-- One of the calls that are made for the source fails. -/
def fails (step : SourceStep) : Bool := !(step.found && step.started)

end SourceStep

/-- The steps of a request, given its name without blanks and its type. -/
def AddCalls.steps (env : AddCalls) (srcname : List Char) : SflowSourceType → List SourceStep
  | .vhost =>
      if startsWith srcname sflowCmdAll then
        match listZones env.rounds zoneIdsInit with
        | some (some zoneIds) =>
            (List.range (zoneIds.drop 1).length).map fun i => ⟨.vhost, env.source i⟩
        | _ => []
      else []
  | srcToAddType => [⟨srcToAddType, env.source 0⟩]

/-- The steps of a request. -/
def AddCalls.requestSteps (env : AddCalls) (asrc : SflowdDoorAsrc) : List SourceStep :=
  match typeOfStr (stripped asrc.sdTypestr.chars) with
  | some (.only srcToAddType) => env.steps (stripped asrc.sdSrcname.chars) srcToAddType
  | _ => []

/-! ## One step -/

/-- The part of the registry that is about the sources there are. -/
structure SameSources (d d' : Registry) : Prop where
  sflowAllSources : d'.sflowAllSources = d.sflowAllSources
  sflowFdSources : d'.sflowFdSources = d.sflowFdSources
  toWatch : d'.toWatch = d.toWatch
  maxfd : d'.maxfd = d.maxfd

/-- What the steps of a request do: `status` is what the last of them leaves, or `status₀` if
there is none. -/
structure Adds (srcname : List Char) (steps : List SourceStep) (status₀ : Int) (d : Registry)
    (status : Int) (d' : Registry) : Prop where
  /-- One source is in the list for every step that found all it needs. -/
  added : ∃ nodes, d'.sflowAllSources.nodes = d.sflowAllSources.nodes ++ nodes ∧
    nodes.map (·.sslnSrc.ssType) = (steps.filter SourceStep.found).map SourceStep.type ∧
    ∀ node ∈ nodes, node.sslnSrc.ssType ≠ .vhost → node.sslnSrc.ssName = srcname
  idle : (∀ step ∈ steps, step.found = false) → d' = d
  status_nil : steps = [] → status = status₀
  status_last : ∀ step ∈ steps.getLast?, status = 0 ↔ step.fails = false

theorem polledSource_eq_some {fuel : Nat} {propstr propstr' : List Char} {src : SflowSource}
    {r : Except Int SflowSource} (h : polledSource fuel propstr src = some (r, propstr')) :
    ∃ interval, r = .ok { src with ssInterval := interval } := by
  rw [polledSource, Option.bind_eq_bind, Option.bind_eq_some_iff] at h
  obtain ⟨⟨interval, rest⟩, -, h⟩ := h
  cases h
  exact ⟨interval, rfl⟩

/-- A source, without samples or a thread so far, is made if all that is looked up for it is
there, and else there is an error. -/
theorem makeSource_eq_some {fuel : Nat} {calls : SourceCalls} {srcname propstr propstr' : List Char}
    {t : SflowSourceType} {r : Except Int SflowSource}
    (h : makeSource fuel calls srcname propstr t = some (r, propstr')) :
    (∃ err, r = .error err ∧ err < 0 ∧ (SourceStep.mk t calls).found = false) ∨
      ∃ src, r = .ok src ∧ (SourceStep.mk t calls).found = true ∧ src.ssType = t ∧
        (t ≠ .vhost → src.ssName = srcname) ∧ src.ssCount = 0 ∧ src.ssThread = false := by
  cases t with
  | flowsample =>
      rw [makeSource] at h
      split at h
      case isTrue hlink =>
        cases h
        exact .inl ⟨_, rfl, hlink, by simp [SourceStep.found, Int.not_le.mpr hlink]⟩
      case isFalse hlink =>
        rw [Option.bind_eq_bind, Option.bind_eq_some_iff] at h
        obtain ⟨⟨rate, rest⟩, -, h⟩ := h
        dsimp only at h
        split at h
        case isTrue hfd =>
          cases h
          exact .inl ⟨_, rfl, hfd, by simp [SourceStep.found, hfd]⟩
        case isFalse hfd =>
          cases h
          exact .inr ⟨_, rfl, by simp [SourceStep.found, Int.not_lt.mp hlink, Int.not_lt.mp hfd],
            rfl, fun _ ↦ rfl, rfl, rfl⟩
  | ifgeneric | flowstat =>
      rw [makeSource] at h
      split at h
      case isTrue hlink =>
        cases h
        exact .inl ⟨_, rfl, hlink, by simp [SourceStep.found, hlink]⟩
      case isFalse hlink =>
        obtain ⟨interval, rfl⟩ := polledSource_eq_some h
        exact .inr ⟨_, rfl, by simp [SourceStep.found, Int.not_lt.mp hlink], rfl, fun _ ↦ rfl,
          rfl, rfl⟩
  | phyhost =>
      obtain ⟨interval, rfl⟩ := polledSource_eq_some h
      exact .inr ⟨_, rfl, rfl, rfl, fun _ ↦ rfl, rfl, rfl⟩
  | vhost =>
      rw [makeSource] at h
      split at h
      case h_1 hname =>
        cases h
        exact .inl ⟨_, rfl, by decide, by simp [SourceStep.found, hname]⟩
      case h_2 name hname =>
        obtain ⟨interval, rfl⟩ := polledSource_eq_some h
        exact .inr ⟨_, rfl, by simp [SourceStep.found, hname], rfl, fun h ↦ absurd rfl h,
          rfl, rfl⟩
  | interPollSeperation =>
      cases h
      exact .inl ⟨_, rfl, by decide, rfl⟩

/-- The last stage puts the source into the list, and reports whether it has its thread. -/
theorem sflowAddSourceType_spec (calls : SourceCalls) {src : SflowSource} (d : Registry)
    (hfound : (SourceStep.mk src.ssType calls).found = true) :
    (sflowAddSourceType calls src d).2.sflowAllSources.nodes =
        d.sflowAllSources.nodes ++ [calls.node (calls.listed src) d] ∧
      ((sflowAddSourceType calls src d).1 = 0 ↔
        (SourceStep.mk src.ssType calls).fails = false) := by
  have hfails : (SourceStep.mk src.ssType calls).fails = false ↔
      src.ssType = .flowsample ∨ calls.pthreadCreate = 0 := by
    rw [SourceStep.fails, hfound, Bool.true_and, Bool.not_eq_false', SourceStep.started,
      Bool.or_eq_true, decide_eq_true_eq, decide_eq_true_eq]
  have hspawn : ¬ (calls.pthreadCreate : Int) < 0 := Int.not_lt.mpr (Int.natCast_nonneg _)
  rw [hfails]
  unfold sflowAddSourceType
  cases htype : src.ssType with
  | flowsample =>
      rw [calls.listed_flowsample htype]
      exact ⟨rfl, iff_of_true rfl (.inl rfl)⟩
  | interPollSeperation =>
      rw [htype] at hfound
      cases hfound
  | ifgeneric | phyhost | vhost | flowstat =>
      have hpolled : src.ssType ≠ .flowsample := htype ▸ SflowSourceType.noConfusion
      rw [sflowSpawnPollThread_eq calls hpolled]
      dsimp only
      rw [if_neg hspawn]
      refine ⟨rfl, ?_⟩
      rw [or_iff_right SflowSourceType.noConfusion, Int.natCast_eq_zero]

/-- One step. -/
theorem adds_sflowMakeAddOneSourceType {fuel : Nat} {calls : SourceCalls}
    {srcname name propstr propstr' : List Char} {t : SflowSourceType} {status₀ status : Int}
    {d d' : Registry} (hname : t ≠ .vhost → srcname = name)
    (h : sflowMakeAddOneSourceType fuel calls srcname propstr t d = some (status, propstr', d')) :
    Adds name [⟨t, calls⟩] status₀ d status d' := by
  rw [sflowMakeAddOneSourceType, Option.bind_eq_bind, Option.bind_eq_some_iff] at h
  obtain ⟨⟨r, rest⟩, hmake, h⟩ := h
  rcases makeSource_eq_some hmake with ⟨err, rfl, herr, hfound⟩ | ⟨src, rfl, hfound, htype, hsrc, -⟩
  · cases h
    constructor
    · exact ⟨[], (List.append_nil _).symm, by simp [hfound], by simp⟩
    · exact fun _ ↦ rfl
    · intro hnil
      cases hnil
    · intro step hstep
      rw [List.getLast?_singleton, Option.mem_some] at hstep
      rw [← hstep, SourceStep.fails, hfound]
      exact iff_of_false (Int.ne_of_lt herr) (by simp)
  · cases h
    subst htype
    obtain ⟨hnodes, hstatus⟩ := sflowAddSourceType_spec calls d hfound
    constructor
    · refine ⟨_, hnodes, by simp [hfound, SourceCalls.node, SourceCalls.listed],
        fun node hnode hvhost ↦ ?_⟩
      rw [List.mem_singleton] at hnode
      subst hnode
      exact (hsrc hvhost).trans (hname hvhost)
    · intro hidle
      have hnot := hidle _ List.mem_cons_self
      rw [hfound] at hnot
      cases hnot
    · intro hnil
      cases hnil
    · intro step hstep
      rw [List.getLast?_singleton, Option.mem_some] at hstep
      rw [← hstep]
      exact hstatus

/-! ## All steps -/

namespace Adds

variable {name : List Char} {steps steps' : List SourceStep} {status₀ status₁ status₂ : Int}
variable {d d₁ d₂ : Registry}

theorem refl (name : List Char) (status : Int) (d : Registry) :
    Adds name [] status d status d where
  added := ⟨[], (List.append_nil _).symm, rfl, by simp⟩
  idle _ := rfl
  status_nil _ := rfl
  status_last := by simp

/-- Steps after steps. -/
theorem trans (h : Adds name steps status₀ d status₁ d₁)
    (h' : Adds name steps' status₁ d₁ status₂ d₂) :
    Adds name (steps ++ steps') status₀ d status₂ d₂ := by
  constructor
  · obtain ⟨nodes, hnodes, htypes, hnames⟩ := h.added
    obtain ⟨nodes', hnodes', htypes', hnames'⟩ := h'.added
    refine ⟨nodes ++ nodes', ?_, ?_, ?_⟩
    · rw [hnodes', hnodes, List.append_assoc]
    · rw [List.map_append, List.filter_append, List.map_append, htypes, htypes']
    · intro node hnode
      rcases List.mem_append.mp hnode with hnode | hnode
      · exact hnames node hnode
      · exact hnames' node hnode
  · intro hidle
    rw [h'.idle fun step hstep ↦ hidle step (List.mem_append_right _ hstep),
      h.idle fun step hstep ↦ hidle step (List.mem_append_left _ hstep)]
  · intro hnil
    obtain ⟨hsteps, hsteps'⟩ := List.append_eq_nil_iff.mp hnil
    rw [h'.status_nil hsteps', h.status_nil hsteps]
  · intro step hstep
    cases hsteps' : steps' with
    | nil =>
        rw [hsteps', List.append_nil] at hstep
        rw [h'.status_nil hsteps']
        exact h.status_last step hstep
    | cons next rest =>
        rw [List.getLast?_append_of_ne_nil _ (by rw [hsteps']; exact List.cons_ne_nil _ _)] at hstep
        exact h'.status_last step hstep

end Adds

/-- The steps for a list of zones. -/
theorem adds_addZones {fuel : Nat} {calls : Nat → SourceCalls} (name : List Char)
    {zoneIds : List Int} {i : Nat} {status₀ status : Int} {propstr : List Char} {d d' : Registry}
    (h : addZones fuel calls zoneIds i status₀ propstr d = some (status, d')) :
    Adds name ((List.range' i zoneIds.length).map fun k => ⟨.vhost, calls k⟩) status₀ d
      status d' := by
  induction zoneIds generalizing i status₀ propstr d with
  | nil =>
      cases h
      exact .refl name _ _
  | cons zoneId zoneIds ih =>
      rw [addZones, Option.bind_eq_bind, Option.bind_eq_some_iff] at h
      obtain ⟨⟨status₁, rest, d₁⟩, hone, h⟩ := h
      rw [List.length_cons, List.range'_succ, List.map_cons]
      exact (adds_sflowMakeAddOneSourceType (fun h ↦ absurd rfl h) hone).trans (ih h)

/-- The steps of a request of a known type. -/
theorem adds_sflowMakeAddSourceType {fuel : Nat} {env : AddCalls} {srcname propstr : List Char}
    {t : SflowSourceType} {status : Int} {d d' : Registry}
    (h : sflowMakeAddSourceType fuel env srcname propstr t d = some (status, d')) :
    ∃ status₀, Adds srcname (env.steps srcname t) status₀ d status d' := by
  have hone : t ≠ .vhost → ∃ status₀, Adds srcname [⟨t, env.source 0⟩] status₀ d status d' := by
    intro hvhost
    rw [sflowMakeAddSourceType.eq_2 _ _ _ _ _ _ hvhost, Option.bind_eq_bind,
      Option.bind_eq_some_iff] at h
    obtain ⟨⟨status₁, rest, d₁⟩, hone, h⟩ := h
    cases h
    exact ⟨0, adds_sflowMakeAddOneSourceType (fun _ ↦ rfl) hone⟩
  cases t with
  | vhost =>
      rw [sflowMakeAddSourceType] at h
      rw [AddCalls.steps]
      split at h
      case isTrue hall =>
        rw [if_pos hall]
        split at h
        case h_1 => cases h
        case h_2 hzones =>
          cases h
          exact ⟨-1, by rw [hzones]; exact .refl srcname (-1) d⟩
        case h_3 zoneIds hzones =>
          rw [hzones]
          dsimp only
          rw [List.range_eq_range']
          exact ⟨0, adds_addZones srcname h⟩
      case isFalse hall =>
        rw [if_neg hall]
        cases h
        exact ⟨0, .refl srcname 0 d⟩
  | _ => exact hone SflowSourceType.noConfusion

/-- The steps of a request. -/
theorem adds_sflowAddSource {fuel : Nat} {env : AddCalls} {asrc : SflowdDoorAsrc} {err : Int}
    {d d' : Registry} (h : sflowAddSource fuel env asrc d = some (err, d')) :
    ∃ status₀, Adds (stripped asrc.sdSrcname.chars) (env.requestSteps asrc) status₀ d err d' := by
  simp only [sflowAddSource, removeSpace_eq, Option.bind_eq_bind, Option.bind_eq_some_iff,
    Option.ite_none_right_eq_some, Option.some.injEq] at h
  obtain ⟨srcname, ⟨-, rfl⟩, propstr, -, typestr, ⟨-, rfl⟩, h⟩ := h
  rw [AddCalls.requestSteps]
  generalize typeOfStr (stripped asrc.sdTypestr.chars) = sel at h ⊢
  rcases sel with _ | _ | t
  case some.only => exact adds_sflowMakeAddSourceType h
  all_goals
    cases h
    exact ⟨env.err, .refl _ _ _⟩

/-! ## Adding and failing -/

/-- An error leaves the sources as they were, and whatever fails on the way is an error. -/
structure Atomic (steps : List SourceStep) (d : Registry) (err : Int) (d' : Registry) : Prop where
  same : err ≠ 0 → SameSources d d'
  reported : (∃ step ∈ steps, step.fails = true) → err ≠ 0

theorem SameSources.refl (d : Registry) : SameSources d d := ⟨rfl, rfl, rfl, rfl⟩

namespace Adds

variable {name : List Char} {steps : List SourceStep} {status₀ status : Int} {d d' : Registry}

/-- Where the list is as it was, no step has found what it needs. -/
theorem found_eq_false (h : Adds name steps status₀ d status d')
    (hsame : d'.sflowAllSources = d.sflowAllSources) :
    ∀ step ∈ steps, step.found = false := by
  obtain ⟨nodes, hnodes, htypes, -⟩ := h.added
  rw [hsame, List.self_eq_append_right] at hnodes
  rw [hnodes, List.map_nil, eq_comm, List.map_eq_nil_iff, List.filter_eq_nil_iff] at htypes
  exact fun step hstep ↦ Bool.eq_false_iff.mpr (htypes step hstep)

/-- Some step says whether the request succeeds, if there is any. -/
theorem exists_last (h : Adds name steps status₀ d status d') {step : SourceStep}
    (hstep : step ∈ steps) : ∃ last ∈ steps, (status = 0 ↔ last.fails = false) := by
  cases hlast : steps.getLast? with
  | none =>
      rw [List.getLast?_eq_none_iff] at hlast
      rw [hlast] at hstep
      cases hstep
  | some last => exact ⟨last, List.mem_of_getLast? hlast, h.status_last last hlast⟩

/-- Without a failure there is an error only where there was nothing to do. -/
theorem atomic_of_fails (h : Adds name steps status₀ d status d')
    (hnone : ∀ step ∈ steps, step.fails = false) : Atomic steps d status d' := by
  constructor
  · intro herr
    cases steps with
    | nil =>
        rw [h.idle fun step hstep ↦ by cases hstep]
        exact .refl d
    | cons step rest =>
        obtain ⟨last, hmem, hstatus⟩ := h.exists_last List.mem_cons_self
        exact absurd (hstatus.mpr (hnone last hmem)) herr
  · rintro ⟨step, hstep, hfail⟩
    rw [hnone step hstep] at hfail
    cases hfail

/-- Where something is missing for every source, nothing is done and the last step says so. -/
theorem atomic_of_found (h : Adds name steps status₀ d status d')
    (hidle : ∀ step ∈ steps, step.found = false) : Atomic steps d status d' := by
  constructor
  · intro
    rw [h.idle hidle]
    exact .refl d
  · rintro ⟨step, hstep, -⟩ hzero
    obtain ⟨last, hmem, hstatus⟩ := h.exists_last hstep
    have hfail := hstatus.mp hzero
    rw [SourceStep.fails, hidle last hmem] at hfail
    cases hfail

/-- What a request does is all or nothing exactly if nothing fails, or something that is
looked up is missing for every source. -/
theorem atomic_iff (h : Adds name steps status₀ d status d') :
    Atomic steps d status d' ↔
      (∀ step ∈ steps, step.fails = false) ∨ ∀ step ∈ steps, step.found = false := by
  constructor
  · intro hatomic
    by_cases hfails : ∃ step ∈ steps, step.fails = true
    · have hsame := hatomic.same (hatomic.reported hfails)
      exact .inr (h.found_eq_false hsame.sflowAllSources)
    · exact .inl fun step hstep ↦ Bool.eq_false_iff.mpr fun hfail ↦ hfails ⟨step, hstep, hfail⟩
  · rintro (hnone | hidle)
    · exact h.atomic_of_fails hnone
    · exact h.atomic_of_found hidle

end Adds

/-- Adding is all or nothing exactly if no call that is made for a source fails, or something
that is looked up is missing for every source. -/
theorem sflowAddSource_atomic_iff {fuel : Nat} {env : AddCalls} {asrc : SflowdDoorAsrc} {err : Int}
    {d d' : Registry} (h : sflowAddSource fuel env asrc d = some (err, d')) :
    Atomic (env.requestSteps asrc) d err d' ↔
      (∀ step ∈ env.requestSteps asrc, step.fails = false) ∨
        ∀ step ∈ env.requestSteps asrc, step.found = false := by
  obtain ⟨status₀, hadds⟩ := adds_sflowAddSource h
  exact hadds.atomic_iff

/-! ## A thread that does not start -/

/-- No thread can be started (`EAGAIN`). -/
def SourceCalls.noThread : SourceCalls := { fine with pthreadCreate := 11 }

/-- The zone has halted. -/
def SourceCalls.halted : SourceCalls := { fine with zoneName := none }

def host : SflowdDoorAsrc where
  sdSrcname := ⟨"host".toList, by decide +kernel⟩
  sdTypestr := TypeWord.hostPhys.str
  sdPropstr := ⟨"interval=20".toList, by decide +kernel⟩

def allZones : SflowdDoorAsrc where
  sdSrcname := TypeWord.all.str
  sdTypestr := TypeWord.hostVirt.str
  sdPropstr := host.sdPropstr

/-- The answers to a request for one source. -/
def AddCalls.oneSource (calls : SourceCalls) : AddCalls where
  rounds := []
  source _ := calls
  err := 0

/-- The answers to a request for all zones where there are two besides the global one. -/
def AddCalls.twoZones (first second : SourceCalls) : AddCalls where
  rounds := [⟨some [0, 3, 7], none⟩]
  source i := if i = 0 then first else second
  err := 0

/-- The host as it is added without trouble. -/
theorem sflowAddSource_atomic_iff_host :
    ∃ d', sflowAddSource 40 (.oneSource .fine) host .init = some (0, d') ∧
      (Atomic ((AddCalls.oneSource .fine).requestSteps host) .init 0 d' ↔
        (∀ step ∈ (AddCalls.oneSource .fine).requestSteps host, step.fails = false) ∨
          ∀ step ∈ (AddCalls.oneSource .fine).requestSteps host, step.found = false) := by
  obtain ⟨d', h⟩ : ∃ d', sflowAddSource 40 (.oneSource .fine) host .init = some (0, d') :=
    ⟨_, rfl⟩
  exact ⟨d', h, sflowAddSource_atomic_iff h⟩

/-- A source without a thread is in the list although adding it failed, and of two zones the
first is missing although adding them succeeded. -/
theorem exists_not_atomic :
    (∃ env err d', sflowAddSource 40 env host .init = some (err, d') ∧
      ¬ Atomic (env.requestSteps host) .init err d') ∧
    ∃ env err d', sflowAddSource 40 env allZones .init = some (err, d') ∧
      ¬ Atomic (env.requestSteps allZones) .init err d' := by
  constructor
  · refine ⟨.oneSource .noThread, 11, _, rfl, fun h ↦ ?_⟩
    have hlist := (h.same (by decide)).sflowAllSources
    cases congrArg LinkedList.nodes hlist
  · refine ⟨.twoZones .halted .fine, 0, _, rfl, fun h ↦ ?_⟩
    have hfails : ∃ step ∈ (AddCalls.twoZones .halted .fine).requestSteps allZones,
        step.fails = true := ⟨⟨.vhost, .halted⟩, List.mem_cons_self, rfl⟩
    exact h.reported hfails rfl

/-! ## What is added is shown -/

/-- One source of type `t` has come to the end of the list, and a request to show the name and
the type gets it behind all that it got before. -/
def AddedOne (name : CStr) (w : TypeWord) (t : SflowSourceType) (d d' : Registry) : Prop :=
  ∃ node ssr, node.sslnSrc.ssType = t ∧
    d'.sflowAllSources.nodes = d.sflowAllSources.nodes ++ [node] ∧
    ∃ fuel, ∀ srcToShowType,
      sflowShowSrc fuel srcToShowType ⟨name, w.str⟩ d = some ssr ∧
        sflowShowSrc fuel srcToShowType ⟨name, w.str⟩ d' = some (ssr.push node)

/-- A new source that passes the test is shown. -/
theorem addedOne_of_shows {name : CStr} {w : TypeWord} {node : SourceNode} {d d' : Registry}
    (htab : '\t' ∉ name.chars)
    (hnodes : d'.sflowAllSources.nodes = d.sflowAllSources.nodes ++ [node])
    (hshows : shows (stripped name.chars) w.types node.sslnSrc = true) :
    AddedOne name w node.sslnSrc.ssType d d' := by
  refine ⟨node, .of (d.sflowAllSources.nodes.filter fun node =>
    shows (stripped name.chars) w.types node.sslnSrc), rfl, hnodes, requestFuel name w d',
    fun srcToShowType ↦ ⟨?_, ?_⟩⟩
  · refine sflowShowSrc_of_le htab ?_
    unfold requestFuel
    rw [hnodes, List.length_append]
    omega
  · rw [sflowShowSrc_of_le htab (Nat.le_refl _), hnodes, List.filter_append, SflowdSsr.push_of,
      List.filter_cons, if_pos hshows, List.filter_nil]

theorem shows_iff {srcname : List Char} {types : TypeSel} {src : SflowSource}
    (hnul : '\x00' ∉ srcname) : shows srcname types src = true ↔
      (sflowCmdAll <+: srcname ∨ srcname <+: src.ssName) ∧ types.selects src.ssType = true :=
  removes_iff hnul

theorem tab_notMem_of_sflowAddSource {fuel : Nat} {env : AddCalls} {asrc : SflowdDoorAsrc}
    {r : Int × Registry} {d : Registry} (h : sflowAddSource fuel env asrc d = some r) :
    '\t' ∉ asrc.sdSrcname.chars := by
  rw [sflowAddSource, Option.bind_eq_bind, Option.bind_eq_some_iff] at h
  obtain ⟨srcname, hname, -⟩ := h
  rw [removeSpace_eq, Option.ite_none_right_eq_some] at hname
  exact hname.1.1

theorem requestSteps_of_types {env : AddCalls} {name prop : CStr} {w : TypeWord}
    {t : SflowSourceType} (hw : w.types = .only t) :
    env.requestSteps ⟨name, w.str, prop⟩ = env.steps (stripped name.chars) t := by
  have htype : typeOfStr (stripped w.str.chars) = some (.only t) := by
    change typeOfStr (stripped w.chars) = _
    rw [w.stripped_chars, w.typeOfStr_chars, hw]
  rw [AddCalls.requestSteps, htype]

/-- A request for zones has a step only where it names all of them, and all are for zones. -/
theorem steps_vhost {env : AddCalls} {srcname : List Char} {step : SourceStep}
    (h : step ∈ env.steps srcname .vhost) : sflowCmdAll <+: srcname ∧ step.type = .vhost := by
  have hall : '\x00' ∉ sflowCmdAll := by decide +kernel
  rw [AddCalls.steps] at h
  split at h
  case isTrue hbegins =>
    refine ⟨(startsWith_iff hall).mp hbegins, ?_⟩
    split at h
    · obtain ⟨i, -, rfl⟩ := List.mem_map.mp h
      rfl
    · cases h
  case isFalse => cases h

theorem steps_of_ne {env : AddCalls} {srcname : List Char} {t : SflowSourceType}
    (h : t ≠ .vhost) : env.steps srcname t = [⟨t, env.source 0⟩] := by
  cases t with
  | vhost => exact absurd rfl h
  | _ => rfl

theorem found_of_fails_eq_false {step : SourceStep} (h : step.fails = false) :
    step.found = true := by
  rw [SourceStep.fails, Bool.not_eq_false', Bool.and_eq_true] at h
  exact h.1

namespace Adds

variable {env : AddCalls} {name : List Char} {steps : List SourceStep} {status₀ status : Int}
variable {d d' : Registry}

/-- As many sources are added as there are steps that have found what they need. -/
theorem length_found (h : Adds name steps status₀ d status d') {nodes : List SourceNode}
    (hnodes : d'.sflowAllSources.nodes = d.sflowAllSources.nodes ++ nodes) :
    (steps.filter SourceStep.found).length = nodes.length := by
  obtain ⟨nodes', hnodes', htypes, -⟩ := h.added
  have hadded : nodes' = nodes := List.append_cancel_left (hnodes'.symm.trans hnodes)
  have hlength := congrArg List.length htypes
  rw [List.length_map, List.length_map, hadded] at hlength
  exact hlength.symm

/-- One zone that is found is one source. -/
theorem exists_zone (h : Adds name (env.steps name .vhost) status₀ d status d')
    (hone : ((env.steps name .vhost).filter SourceStep.found).length = 1) :
    ∃ node, d'.sflowAllSources.nodes = d.sflowAllSources.nodes ++ [node] ∧
      node.sslnSrc.ssType = .vhost := by
  obtain ⟨nodes, hnodes, htypes, -⟩ := h.added
  rw [h.length_found hnodes] at hone
  obtain ⟨node, rfl⟩ := List.length_eq_one_iff.mp hone
  refine ⟨node, hnodes, ?_⟩
  have hmem : node.sslnSrc.ssType ∈
      ((env.steps name .vhost).filter SourceStep.found).map SourceStep.type := by
    rw [← htypes]
    exact List.mem_cons_self
  obtain ⟨step, hstep, htype⟩ := List.mem_map.mp hmem
  rw [← htype]
  exact (steps_vhost (List.mem_of_mem_filter hstep)).2

/-- The one step of a request for another type has added its source if it reports success. -/
theorem exists_source {t : SflowSourceType} (ht : t ≠ .vhost)
    (h : Adds name (env.steps name t) status₀ d 0 d') :
    ∃ node, d'.sflowAllSources.nodes = d.sflowAllSources.nodes ++ [node] ∧
      node.sslnSrc.ssType = t ∧ node.sslnSrc.ssName = name := by
  rw [steps_of_ne ht] at h
  obtain ⟨nodes, hnodes, htypes, hnames⟩ := h.added
  have hfound := found_of_fails_eq_false ((h.status_last ⟨t, env.source 0⟩ rfl).mp rfl)
  rw [List.filter_cons_of_pos hfound, List.filter_nil, List.map_singleton,
    List.map_eq_singleton_iff] at htypes
  obtain ⟨node, rfl, htype⟩ := htypes
  exact ⟨node, hnodes, htype, hnames node List.mem_cons_self (htype ▸ ht)⟩

end Adds

/-- A request that succeeds has added one source, which can be shown, exactly if it is not for
a zone, or for all zones of which exactly one is found. -/
theorem sflowAddSource_addedOne_iff {fuel : Nat} {env : AddCalls} {name prop : CStr}
    {w : TypeWord} {t : SflowSourceType} {d d' : Registry} (hw : w.types = .only t)
    (h : sflowAddSource fuel env ⟨name, w.str, prop⟩ d = some (0, d')) :
    AddedOne name w t d d' ↔
      t ≠ .vhost ∨ sflowCmdAll <+: stripped name.chars ∧
        ((env.requestSteps ⟨name, w.str, prop⟩).filter SourceStep.found).length = 1 := by
  have htab : '\t' ∉ name.chars := tab_notMem_of_sflowAddSource h
  have hnul := nul_notMem_stripped name
  obtain ⟨status₀, hadds⟩ := adds_sflowAddSource h
  rw [requestSteps_of_types hw] at hadds ⊢
  constructor
  · rintro ⟨node, ssr, -, hnodes, -⟩
    refine or_iff_not_imp_left.mpr fun hvhost ↦ ?_
    rw [not_not] at hvhost
    subst hvhost
    have hone := hadds.length_found hnodes
    refine ⟨?_, hone⟩
    obtain ⟨step, hstep⟩ := List.length_eq_one_iff.mp hone
    have hmem : step ∈ (env.steps (stripped name.chars) .vhost).filter SourceStep.found := by
      rw [hstep]
      exact List.mem_cons_self
    exact (steps_vhost (List.mem_of_mem_filter hmem)).1
  · intro hcond
    have hnode : ∃ node, d'.sflowAllSources.nodes = d.sflowAllSources.nodes ++ [node] ∧
        node.sslnSrc.ssType = t ∧
        (sflowCmdAll <+: stripped name.chars ∨ stripped name.chars <+: node.sslnSrc.ssName) := by
      by_cases hvhost : t = .vhost
      · subst hvhost
        obtain ⟨hall, hone⟩ := hcond.resolve_left (not_not_intro rfl)
        obtain ⟨node, hnodes, htype⟩ := hadds.exists_zone hone
        exact ⟨node, hnodes, htype, .inl hall⟩
      · obtain ⟨node, hnodes, htype, hname⟩ := Adds.exists_source hvhost hadds
        refine ⟨node, hnodes, htype, .inr ⟨[], ?_⟩⟩
        rw [List.append_nil, hname]
    obtain ⟨node, hnodes, rfl, hname⟩ := hnode
    refine addedOne_of_shows htab hnodes ((shows_iff hnul).mpr ⟨hname, ?_⟩)
    rw [hw]
    exact decide_eq_true rfl

def web : SflowdDoorAsrc where
  sdSrcname := ⟨"web".toList, by decide +kernel⟩
  sdTypestr := TypeWord.hostVirt.str
  sdPropstr := host.sdPropstr

/-- The host is shown once it is added. -/
theorem sflowAddSource_addedOne_iff_host :
    ∃ d', TypeWord.hostPhys.types = .only .phyhost ∧
      sflowAddSource 40 (.oneSource .fine) host .init = some (0, d') ∧
      (AddedOne host.sdSrcname .hostPhys .phyhost .init d' ↔
        SflowSourceType.phyhost ≠ .vhost ∨ sflowCmdAll <+: stripped host.sdSrcname.chars ∧
          (((AddCalls.oneSource .fine).requestSteps host).filter SourceStep.found).length = 1) := by
  obtain ⟨d', h⟩ : ∃ d', sflowAddSource 40 (.oneSource .fine) host .init = some (0, d') :=
    ⟨_, rfl⟩
  exact ⟨d', rfl, h, sflowAddSource_addedOne_iff rfl h⟩

/-- Adding one zone by its name succeeds and adds nothing. -/
theorem exists_not_addedOne :
    ∃ d', sflowAddSource 40 (.oneSource .fine) web .init = some (0, d') ∧
      ¬ AddedOne web.sdSrcname .hostVirt .vhost .init d' := by
  refine ⟨_, rfl, ?_⟩
  rintro ⟨node, ssr, -, hnodes, -⟩
  cases hnodes

end Sflow

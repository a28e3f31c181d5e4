import Sflow.Source.Served

/-!
# The door

`sflowd_door_handler`: a request comes as untyped data that starts with its command, and
goes to the function for that command.  The three layouts of requests agree as far as they
go, so a cast reads the same strings.

What the local variables hold that the handler does not set is a parameter.
-/

namespace Sflow

open C Run

/-! ## Requests -/

def sflowdCmdAddSource : Int := 0

def sflowdCmdRemoveSource : Int := 1

def sflowdCmdShowSource : Int := 2

/-- The data of a request, in the longest of the layouts. -/
structure DoorData where
  sdCmd : Int
  sdSrcname : CStr
  sdTypestr : CStr
  sdPropstr : CStr
deriving DecidableEq

namespace DoorData

def asrc (data : DoorData) : SflowdDoorAsrc := ⟨data.sdSrcname, data.sdTypestr, data.sdPropstr⟩

def rsrc (data : DoorData) : SflowdDoorRsrc := ⟨data.sdSrcname, data.sdTypestr⟩

def ssrc (data : DoorData) : SflowdDoorSsrc := ⟨data.sdSrcname, data.sdTypestr⟩

end DoorData

/-- What the system answers to a request, and what variables hold that nothing sets. -/
structure DoorCalls where
  add : AddCalls
  /-- What the pointer `asrc` of the handler leads to, if it leads anywhere. -/
  asrc : Option SflowdDoorRsrc
  srcToRmType : SflowSourceType
  srcToShowType : SflowSourceType

/-- What `door_return` is called with. -/
inductive DoorReply where
  | err (err : Int)
  | sources (slr : SflowdSsr)
deriving DecidableEq

/-- The registry after a request, and the calls of `door_return`; or `none` if the request does
not return.  `sflow_show_src` always reports success. -/
def sflowdDoorHandler (fuel : Nat) (env : DoorCalls) (data : DoorData) (d : Registry) :
    Except Fault (Option (Registry × List DoorReply)) :=
  if data.sdCmd = sflowdCmdAddSource then
    .ok ((sflowAddSource fuel env.add data.asrc d).map fun r => (r.2, [.err r.1]))
  else if data.sdCmd = sflowdCmdRemoveSource then
    -- The pointer to the request is in `rsrc`, and `asrc` is what is passed on.
    match env.asrc with
    | none => .error .outOfBounds
    | some asrc =>
        .ok ((sflowRemoveSource fuel env.srcToRmType asrc d).map fun d => (d, [.err 0]))
  else if data.sdCmd = sflowdCmdShowSource then
    .ok ((sflowShowSrc fuel env.srcToShowType data.ssrc d).map fun slr => (d, [.sources slr]))
  else .ok (some (d, []))

/-- The operation that the command of a request selects, on the contents of the request, and
what it has to report.  An unknown command selects none. -/
def selectedOperation (fuel : Nat) (env : DoorCalls) (data : DoorData) (d : Registry) :
    Option (Registry × Option DoorReply) :=
  if data.sdCmd = sflowdCmdAddSource then
    (sflowAddSource fuel env.add data.asrc d).map fun r => (r.2, some (.err r.1))
  else if data.sdCmd = sflowdCmdRemoveSource then
    (sflowRemoveSource fuel env.srcToRmType data.rsrc d).map fun d => (d, some (.err 0))
  else if data.sdCmd = sflowdCmdShowSource then
    (sflowShowSrc fuel env.srcToShowType data.ssrc d).map fun slr => (d, some (.sources slr))
  else some (d, none)

/-! ## Sequences of requests -/

/-- A sequence of requests, each with what the system answers to it: the registry in the end,
and the calls of `door_return` for each. -/
def handleRequests (fuel : Nat) : List (DoorCalls × DoorData) → Registry →
    Except Fault (Option (Registry × List (List DoorReply)))
  | [], d => .ok (some (d, []))
  | (env, data) :: reqs, d => do
      match ← sflowdDoorHandler fuel env data d with
      | none => .ok none
      | some (d, replies) =>
          match ← handleRequests fuel reqs d with
          | none => .ok none
          | some (d, rest) => .ok (some (d, replies :: rest))

/-- The operations that the commands select, one after the other. -/
def foldOperations (fuel : Nat) :
    List (DoorCalls × DoorData) → Registry → Option (Registry × List (Option DoorReply))
  | [], d => some (d, [])
  | (env, data) :: reqs, d => do
      let (d, reply) ← selectedOperation fuel env data d
      let (d, rest) ← foldOperations fuel reqs d
      some (d, reply :: rest)

/-- A request is handled as it should be: with fuel enough it returns, the registry comes out of
the operation selected, and there is one `door_return`, with what that has to report. -/
def Handles (env : DoorCalls) (data : DoorData) (d : Registry) : Prop :=
  ∃ d' reply report, (∀ r ∈ report, reply = r) ∧ ∃ fuel₀, ∀ fuel ≥ fuel₀,
    sflowdDoorHandler fuel env data d = .ok (some (d', [reply])) ∧
      selectedOperation fuel env data d = some (d', report)

/-- A sequence of requests is handled as it should be: with fuel enough all return, the registry
comes out of the operations selected, and there is one `door_return` for each request. -/
def HandlesAll (reqs : List (DoorCalls × DoorData)) (d : Registry) : Prop :=
  ∃ d' replies reports, replies.length = reqs.length ∧
    List.Forall₂ (fun reply report ↦ ∀ r ∈ report, reply = r) replies reports ∧
    ∃ fuel₀, ∀ fuel ≥ fuel₀,
      handleRequests fuel reqs d = .ok (some (d', replies.map ([·]))) ∧
        foldOperations fuel reqs d = some (d', reports)

/-- Requests to add and to show sources that return. -/
inductive DoorData.AddsOrShows (data : DoorData) : Prop
  | add (cmd : data.sdCmd = sflowdCmdAddSource) (served : data.asrc.Served)
  | show (cmd : data.sdCmd = sflowdCmdShowSource) (served : data.ssrc.Served)

theorem sflowdCmdShowSource_ne : sflowdCmdShowSource ≠ sflowdCmdAddSource ∧
    sflowdCmdShowSource ≠ sflowdCmdRemoveSource := by decide

/-- Such a request is handled as it should be, whatever the variables hold. -/
theorem handles_of_addsOrShows {data : DoorData} (h : data.AddsOrShows) {env : DoorCalls}
    (henv : env.add.Settles) (d : Registry) : Handles env data d := by
  cases h with
  | add hadd hserved =>
      obtain ⟨⟨err, d'⟩, fuel₀, hreturns⟩ := hserved.exists_returns henv d
      refine ⟨d', .err err, some (.err err), fun r hr ↦ Option.mem_some_iff.mp hr, fuel₀,
        fun fuel hfuel ↦ ?_⟩
      have hadded : sflowAddSource fuel env.add data.asrc d = some (err, d') := hreturns fuel hfuel
      constructor
      · rw [sflowdDoorHandler, if_pos hadd, hadded]
        rfl
      · rw [selectedOperation, if_pos hadd, hadded]
        rfl
  | «show» hshow hserved =>
      have hnotAdd : data.sdCmd ≠ sflowdCmdAddSource := hshow ▸ sflowdCmdShowSource_ne.1
      have hnotRemove : data.sdCmd ≠ sflowdCmdRemoveSource := hshow ▸ sflowdCmdShowSource_ne.2
      obtain ⟨slr, fuel₀, hreturns⟩ := hserved.exists_returns env.srcToShowType d
      refine ⟨d, .sources slr, some (.sources slr), fun r hr ↦ Option.mem_some_iff.mp hr, fuel₀,
        fun fuel hfuel ↦ ?_⟩
      have hshown : sflowShowSrc fuel env.srcToShowType data.ssrc d = some slr :=
        hreturns fuel hfuel
      constructor
      · rw [sflowdDoorHandler, if_neg hnotAdd, if_neg hnotRemove, if_pos hshow, hshown]
        rfl
      · rw [selectedOperation, if_neg hnotAdd, if_neg hnotRemove, if_pos hshow, hshown]
        rfl

/-- What holds of each request holds of the sequence. -/
theorem handlesAll_of_handles {reqs : List (DoorCalls × DoorData)}
    (h : ∀ req ∈ reqs, ∀ d, Handles req.1 req.2 d) (d : Registry) : HandlesAll reqs d := by
  induction reqs generalizing d with
  | nil => exact ⟨d, [], [], rfl, .nil, 0, fun fuel _ ↦ ⟨rfl, rfl⟩⟩
  | cons req reqs ih =>
      obtain ⟨env, data⟩ := req
      obtain ⟨d₁, reply, report, hreply, m, hfirst⟩ := h _ List.mem_cons_self d
      obtain ⟨d', replies, reports, hlength, hreplies, n, hrest⟩ :=
        ih (fun req hreq ↦ h req (List.mem_cons_of_mem _ hreq)) d₁
      refine ⟨d', reply :: replies, report :: reports, congrArg Nat.succ hlength,
        .cons hreply hreplies, max m n, fun fuel hfuel ↦ ?_⟩
      obtain ⟨hhandled, hselected⟩ := hfirst fuel (Nat.le_trans (Nat.le_max_left _ _) hfuel)
      obtain ⟨hothers, hfold⟩ := hrest fuel (Nat.le_trans (Nat.le_max_right _ _) hfuel)
      constructor
      · rw [handleRequests, hhandled, ok_bind]
        dsimp only
        rw [hothers]
        rfl
      · rw [foldOperations, hselected, Option.bind_eq_bind, Option.bind_some]
        dsimp only
        rw [hfold]
        rfl

/-- The pointer that is passed on to `sflow_remove_source` leads nowhere. -/
def DoorCalls.astray : DoorCalls := ⟨twoFineZones, none, .flowsample, .flowsample⟩

theorem settles_astray : DoorCalls.astray.add.Settles :=
  Option.isSome_iff_exists.mpr ⟨_, listZones_twoFineZones⟩

/-- Where the pointer leads nowhere and there are zones to be added, nothing else is handled. -/
theorem addsOrShows_of_handles {data : DoorData} (h : Handles .astray data .init) :
    data.AddsOrShows := by
  obtain ⟨d', reply, report, -, fuel₀, h⟩ := h
  have hfuel : data.sdPropstr.chars.length < fuel₀ + data.sdPropstr.chars.length + 1 := by omega
  obtain ⟨hhandled, hselected⟩ := h _ (Nat.le_trans (Nat.le_add_right fuel₀ _) (Nat.le_succ _))
  rw [selectedOperation] at hselected
  rw [sflowdDoorHandler] at hhandled
  by_cases hadd : data.sdCmd = sflowdCmdAddSource
  · rw [if_pos hadd] at hselected
    obtain ⟨r, hr, -⟩ := Option.map_eq_some_iff.mp hselected
    exact .add hadd (served_of_sflowAddSource hfuel hr)
  · rw [if_neg hadd] at hhandled hselected
    by_cases hremove : data.sdCmd = sflowdCmdRemoveSource
    · rw [if_pos hremove] at hhandled
      cases hhandled
    · rw [if_neg hremove] at hhandled hselected
      by_cases hshow : data.sdCmd = sflowdCmdShowSource
      · rw [if_pos hshow] at hselected
        obtain ⟨slr, hslr, -⟩ := Option.map_eq_some_iff.mp hselected
        exact .show hshow (served_of_sflowShowSrc hslr)
      · rw [if_neg hshow] at hhandled
        cases hhandled

/-- A sequence of requests is handled as it should be, whatever the variables hold and the system
answers, exactly if all of them add or show sources and return. -/
theorem handles_iff_addsOrShows (datas : List DoorData) :
    ((∀ data ∈ datas, ∀ env, env.add.Settles → ∀ d, Handles env data d) ∧
      ∀ (reqs : List (DoorCalls × DoorData)) d, reqs.map Prod.snd = datas →
        (∀ req ∈ reqs, req.1.add.Settles) → HandlesAll reqs d) ↔
      ∀ data ∈ datas, data.AddsOrShows := by
  constructor
  · rintro ⟨hall, -⟩ data hdata
    exact addsOrShows_of_handles (hall data hdata .astray settles_astray .init)
  · intro h
    refine ⟨fun data hdata env henv d ↦ handles_of_addsOrShows (h data hdata) henv d, ?_⟩
    rintro reqs d rfl henvs
    refine handlesAll_of_handles (fun req hreq d ↦ ?_) d
    exact handles_of_addsOrShows (h _ (List.mem_map_of_mem hreq)) (henvs req hreq) d

/-! ## Removing by another request -/

/-- A request to remove the interface `net10`. -/
def removeNet10 : DoorData where
  sdCmd := sflowdCmdRemoveSource
  sdSrcname := ⟨"net10".toList, by decide +kernel⟩
  sdTypestr := TypeWord.flowSample.str
  sdPropstr := net1

/-- The pointer leads to a request for all sources. -/
def DoorCalls.leftover : DoorCalls :=
  { astray with asrc := some ⟨TypeWord.all.str, TypeWord.all.str⟩ }

/-- A request to remove one interface removes both where the pointer leads to another request,
and a request with an unknown command is never answered. -/
theorem exists_not_handles :
    (∃ env d, env.add.Settles ∧ ¬ Handles env removeNet10 d) ∧
      ∃ env data d, env.add.Settles ∧ data.sdCmd = 7 ∧ ¬ Handles env data d := by
  constructor
  · refine ⟨.leftover, net1AndNet10, settles_astray, ?_⟩
    rintro ⟨d', reply, report, -, fuel₀, h⟩
    obtain ⟨hhandled, hselected⟩ := h (fuel₀ + 40) (Nat.le_add_right _ _)
    obtain ⟨d₁, hboth, hnone⟩ : ∃ d₁, sflowdDoorHandler (fuel₀ + 40) .leftover removeNet10
          net1AndNet10 = .ok (some (d₁, [.err 0])) ∧
        d₁.sflowAllSources.nodes.length = 0 := ⟨_, rfl, rfl⟩
    obtain ⟨d₂, hremoved, hone⟩ : ∃ d₂, selectedOperation (fuel₀ + 40) .leftover removeNet10
          net1AndNet10 = some (d₂, some (.err 0)) ∧
        d₂.sflowAllSources.nodes.length = 1 := ⟨_, rfl, rfl⟩
    rw [hboth] at hhandled
    cases hhandled
    rw [hremoved] at hselected
    cases hselected
    rw [hnone] at hone
    cases hone
  · refine ⟨.astray, { removeNet10 with sdCmd := 7 }, .init, settles_astray, rfl, ?_⟩
    rintro ⟨d', reply, report, -, fuel₀, h⟩
    cases (h fuel₀ (Nat.le_refl _)).1

end Sflow

import Sflow.Source.Attribute
import Sflow.Source.Registry

/-!
# Adding sources

The four stages of `sflow_add_source`: the type of the request is read, `all` as the
name of a zone is replaced by the zones there are, the structure of each source is
filled in, and the source is put to work and into the list.

What the system answers on the way is a parameter.  `none` stands for a request that
does not return.
-/

namespace Sflow

open C

/-! ## The last stage -/

/-- The addresses that `calloc` gives are not those of nodes in the list. -/
structure Calloc where
  addr : List Nat → Nat
  fresh : ∀ live, addr live ∉ live

/-- What the system answers on the way to one source. -/
structure SourceCalls where
  /-- `sflow_get_if_link_id`. -/
  linkId : Int
  /-- `zone_getattr` with `ZONE_ATTR_NAME`. -/
  zoneName : Option (List Char)
  /-- `fd_provider_flowsample`. -/
  fd : Int
  /-- `pthread_create`: zero, or the number of an error. -/
  pthreadCreate : Nat
  calloc : Calloc

theorem le_foldr_max {live : List Nat} {addr : Nat} (h : addr ∈ live) :
    addr ≤ live.foldr max 0 := by
  induction live with
  | nil => cases h
  | cons first live ih =>
      rcases List.mem_cons.mp h with rfl | h
      · exact Nat.le_max_left _ _
      · exact Nat.le_trans (ih h) (Nat.le_max_right _ _)

/-- An allocator that goes up. -/
def Calloc.ascending : Calloc where
  addr live := live.foldr max 0 + 1
  fresh _ h := Nat.not_succ_le_self _ (le_foldr_max h)

/-- All goes well. -/
def SourceCalls.fine : SourceCalls where
  linkId := 1
  zoneName := some "web".toList
  fd := 5
  pthreadCreate := 0
  calloc := .ascending

/-- The new node for a source. -/
def SourceCalls.node (calls : SourceCalls) (src : SflowSource) (d : Registry) : SourceNode where
  addr := calls.calloc.addr (d.sflowAllSources.nodes.map SourceNode.addr)
  sslnSrc := src

theorem SourceCalls.node_notMem (calls : SourceCalls) (src : SflowSource) (d : Registry) :
    calls.node src d ∉ d.sflowAllSources.nodes := by
  intro h
  exact calls.calloc.fresh (d.sflowAllSources.nodes.map SourceNode.addr)
    (List.mem_map.mpr ⟨_, h, rfl⟩)

/-- `list_insert_tail` on the list of all sources. -/
def Registry.insertTail (d : Registry) (node : SourceNode) (h : node ∉ d.sflowAllSources.nodes) :
    Registry :=
  { d with sflowAllSources := d.sflowAllSources.insertTail node h }

/-- The number of the error, if there is one, and the source, which has its thread if not. -/
def sflowSpawnPollThread (calls : SourceCalls) (src : SflowSource) : Int × SflowSource :=
  (calls.pthreadCreate, if calls.pthreadCreate = 0 then { src with ssThread := true } else src)

/-- A source as it is put into the list: one that is polled may have got its thread. -/
def SourceCalls.listed (calls : SourceCalls) (src : SflowSource) : SflowSource :=
  { src with ssThread := src.ssThread || (src.ssType ≠ .flowsample && calls.pthreadCreate = 0) }

theorem SourceCalls.listed_flowsample (calls : SourceCalls) {src : SflowSource}
    (h : src.ssType = .flowsample) : calls.listed src = src := by
  have hthread : (src.ssThread || (src.ssType ≠ .flowsample && calls.pthreadCreate = 0)) =
      src.ssThread := by simp [h]
  rw [listed, hthread]

theorem sflowSpawnPollThread_eq (calls : SourceCalls) {src : SflowSource}
    (h : src.ssType ≠ .flowsample) :
    sflowSpawnPollThread calls src = (↑calls.pthreadCreate, calls.listed src) := by
  rw [sflowSpawnPollThread, SourceCalls.listed]
  by_cases hcreate : calls.pthreadCreate = 0 <;> simp [h, hcreate]

def sflowAddSourceType (calls : SourceCalls) (src : SflowSource) (d : Registry) : Int × Registry :=
  match src.ssType with
  | .flowsample =>
      let node := calls.node src d
      (0, (d.watch src.ssFd node.addr).insertTail node (calls.node_notMem src d))
  | .ifgeneric | .phyhost | .vhost | .flowstat =>
      let (err, src) := sflowSpawnPollThread calls src
      if err < 0 then (err, d)
      else (err, d.insertTail (calls.node src d) (calls.node_notMem src d))
  | .interPollSeperation => (0, d.insertTail (calls.node src d) (calls.node_notMem src d))

/-! ## Making a source -/

def dftRateFs : Int := 200

def dftIntervalCt : Int := 10

/-- A polled source with the interval that the properties give. -/
def polledSource (fuel : Nat) (propstr : List Char) (src : SflowSource) :
    Option (Except Int SflowSource × List Char) := do
  let (interval, propstr) ← numberAttribute fuel propstr "interval=".toList dftIntervalCt
  some (.ok { src with ssInterval := interval }, propstr)

theorem SflowSource.hostIdType_lt : 2 < 256 := by decide +kernel

theorem SflowSource.zoneIdType_lt : 3 < 256 := by decide +kernel

/-- The structure of a source, or the error that ends the request, and what is left of the
properties. -/
def makeSource (fuel : Nat) (calls : SourceCalls) (srcname propstr : List Char) :
    SflowSourceType → Option (Except Int SflowSource × List Char)
  | .flowsample =>
      if calls.linkId < 0 then some (.error calls.linkId, propstr)
      else do
        let (rate, propstr) ← numberAttribute fuel propstr "rate=".toList dftRateFs
        if calls.fd < 0 then some (.error calls.fd, propstr)
        else
          let src : SflowSource :=
            { ssName := srcname, ssType := .flowsample, ssFd := calls.fd.toNat, ssRate := rate
              ssIdType := 0, ssId := calls.linkId, ssEnt := 0, ssFmt := 1
              ssIdType_lt := SflowSource.ifIdType_lt }
          some (.ok src, propstr)
  | .ifgeneric =>
      if calls.linkId < 0 then some (.error calls.linkId, propstr)
      else
        polledSource fuel propstr
          { ssName := srcname, ssType := .ifgeneric, ssIdType := 0, ssId := calls.linkId
            ssEnt := 0, ssFmt := 2, ssIdType_lt := SflowSource.ifIdType_lt }
  | .flowstat =>
      if calls.linkId < 0 then some (.error calls.linkId, propstr)
      else
        polledSource fuel propstr
          { ssName := srcname, ssType := .flowstat, ssIdType := 0, ssId := calls.linkId
            ssEnt := 0, ssFmt := 2, ssIdType_lt := SflowSource.ifIdType_lt }
  | .phyhost =>
      polledSource fuel propstr
        { ssName := srcname, ssType := .phyhost, ssIdType := 2, ssId := 0
          ssEnt := 0, ssFmt := 2, ssIdType_lt := SflowSource.hostIdType_lt }
  | .vhost =>
      match calls.zoneName with
      | none => some (.error (-1), propstr)
      | some name =>
          polledSource fuel propstr
            { ssName := name, ssType := .vhost, ssIdType := 3, ssId := atoi srcname
              ssEnt := 0, ssFmt := 2, zoneId := atoi srcname
              ssIdType_lt := SflowSource.zoneIdType_lt }
  | .interPollSeperation => some (.error (-1), propstr)

def sflowMakeAddOneSourceType (fuel : Nat) (calls : SourceCalls) (srcname propstr : List Char)
    (srcToAddType : SflowSourceType) (d : Registry) : Option (Int × List Char × Registry) := do
  let (src, propstr) ← makeSource fuel calls srcname propstr srcToAddType
  match src with
  | .error err => some (err, propstr, d)
  | .ok src =>
      let (err, d) := sflowAddSourceType calls src d
      some (err, propstr, d)

/-! ## All zones -/

/-- One round of the loop that asks for the zones. -/
structure ZoneRound where
  /-- What `zone_list` reports, if it does not fail. -/
  zones : Option (List Int)
  /-- What is in the memory that `realloc` adds, if there is any. -/
  grown : Option (Nat → Int)

/-- The loop that asks for the zones, `zoneIds` being its array: the ids that it ends with, if
there is memory for them. -/
def listZones : List ZoneRound → List Int → Option (Option (List Int))
  | [], _ => none
  | round :: rounds, zoneIds =>
      match round.zones with
      | none => some (some zoneIds)
      | some zones =>
          if zones.length ≤ zoneIds.length then some (some zones)
          else
            match round.grown with
            | none => some none
            | some mem =>
                listZones rounds (zones.take zoneIds.length ++
                  (List.range (zones.length - zoneIds.length)).map mem)

/-- The loop over the zones.  Each is made from the same properties, or what is left of them. -/
def addZones (fuel : Nat) (calls : Nat → SourceCalls) :
    List Int → Nat → Int → List Char → Registry → Option (Int × Registry)
  | [], _, status, _, d => some (status, d)
  | zoneId :: zoneIds, i, _, propstr, d => do
      let (status, propstr, d) ←
        sflowMakeAddOneSourceType fuel (calls i) (itoa zoneId) propstr .vhost d
      addZones fuel calls zoneIds (i + 1) status propstr d

/-- What the system answers to a request. -/
structure AddCalls where
  rounds : List ZoneRound
  /-- The answers on the way to each of the sources. -/
  source : Nat → SourceCalls
  /-- What is in the variable `err` of `sflow_add_source`, which nothing sets. -/
  err : Int

/-- The array for the ids of the zones, as it is at first. -/
def zoneIdsInit : List Int := List.replicate 4 0

def sflowMakeAddSourceType (fuel : Nat) (env : AddCalls) (srcname propstr : List Char)
    (srcToAddType : SflowSourceType) (d : Registry) : Option (Int × Registry) :=
  match srcToAddType with
  | .vhost =>
      if startsWith srcname sflowCmdAll then
        match listZones env.rounds zoneIdsInit with
        | none => none
        | some none => some (-1, d)
        -- The first one is the global zone.
        | some (some zoneIds) => addZones fuel env.source (zoneIds.drop 1) 0 0 propstr d
      else some (0, d)
  | srcToAddType => do
      let (status, _, d) ←
        sflowMakeAddOneSourceType fuel (env.source 0) srcname propstr srcToAddType d
      some (status, d)

/-! ## Requests -/

/-- A request to add a source. -/
structure SflowdDoorAsrc where
  sdSrcname : CStr
  sdTypestr : CStr
  sdPropstr : CStr
deriving DecidableEq

def sflowAddSource (fuel : Nat) (env : AddCalls) (asrc : SflowdDoorAsrc) (d : Registry) :
    Option (Int × Registry) := do
  let srcname ← removeSpace fuel asrc.sdSrcname.chars
  let propstr ← removeSpace fuel asrc.sdPropstr.chars
  let typestr ← removeSpace fuel asrc.sdTypestr.chars
  match typeOfStr typestr with
  | some (.only srcToAddType) => sflowMakeAddSourceType fuel env srcname propstr srcToAddType d
  | _ => some (env.err, d)

end Sflow

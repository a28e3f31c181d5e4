import Sflow.Run.Locks
import Sflow.Source

/-!
# The mutexes of the daemon

What the functions of the daemon do to its mutexes, down from the routine of each thread.
Functions that touch no mutex, and call none that does, are left out, and so is what decides
between the branches of the others.  Nobody ever waits for `sflow_alarm_indicator`: it is only
tried, and both outcomes of that are there.

The only mutex that is taken under another is that of the buffer, by the master thread, which
holds the mutex of the interrupt driven sources.  A flush asks for the up time without
`sflow_uptime_lock`.
-/

namespace Sflow.Locking

open Run

/-- The mutexes that threads wait for. -/
inductive Mutex where
  | sflowInterSrcModMtx
  | sflowBufferedSamplesMtx
  | sflowAllSrcModMtx
  | sflowZlock
  | sflowUptimeLock
deriving DecidableEq, Repr

/-- The order in which they are taken. -/
def Mutex.rank : Mutex → Nat
  | sflowInterSrcModMtx => 0
  | sflowBufferedSamplesMtx => 1
  | sflowAllSrcModMtx | sflowZlock | sflowUptimeLock => 2

/-- An assertion that fails ends the process. -/
def check : LockCode Mutex := .either .skip .halt

/-! ## The functions -/

/-- The start is known, or the file cannot be looked at, or it is scanned. -/
def getUpTimeSec : LockCode Mutex := .either .skip (.either .halt .skip)

def getUpTimeSecSafe : LockCode Mutex :=
  .block [.lock .sflowUptimeLock, getUpTimeSec, .unlock .sflowUptimeLock]

/-- Every way out of it leads back to the caller. -/
def sflowUpdateZoneStat : LockCode Mutex := .skip

def sflowUpdateZoneStatSafe : LockCode Mutex :=
  .block [.lock .sflowZlock, sflowUpdateZoneStat, .unlock .sflowZlock]

def sflowGetZoneStat : LockCode Mutex :=
  .block [sflowUpdateZoneStatSafe,
    .block [.lock .sflowZlock, .loop check, .unlock .sflowZlock],
    -- the zone has not been found
    .either sflowUpdateZoneStatSafe .skip]

def sflowCrHostCpuPack : LockCode Mutex := getUpTimeSecSafe

def getSampleHostphy : LockCode Mutex := sflowCrHostCpuPack

def sflowCrVirtNodePack : LockCode Mutex := sflowCrHostCpuPack

/-- Without the state or the number of its processors, there is no record of a zone. -/
def sflowCrVirtCpuPack : LockCode Mutex :=
  .either .skip (.either .skip (.block [getUpTimeSecSafe, sflowGetZoneStat]))

def sflowCrVirtMemoryPack : LockCode Mutex := .either .skip sflowGetZoneStat

def getSampleHostv : LockCode Mutex :=
  .block [sflowCrVirtNodePack, sflowCrVirtCpuPack, sflowCrVirtMemoryPack]

/-- The list is read to its end and freed, with an assertion each time. -/
def sflowDatagramPack : LockCode Mutex := .block [getUpTimeSec, .loop check, check]

/-- `sflow_fr_raw_pkt_flat` makes assertions. -/
def sflowDatagramFlat : LockCode Mutex := .loop check

def sendSamples : LockCode Mutex := .block [sflowDatagramPack, sflowDatagramFlat]

def sflowAppendSampleToSend : LockCode Mutex :=
  .block [.lock .sflowBufferedSamplesMtx, .either sendSamples .skip,
    .unlock .sflowBufferedSamplesMtx]

def sflowSpawnPollThread : LockCode Mutex := .skip

def sflowAddSourceType : LockCode Mutex :=
  .seq
    (.either (.block [.lock .sflowInterSrcModMtx, .skip, .unlock .sflowInterSrcModMtx])
      sflowSpawnPollThread)
    -- `if (err < 0) return (err)`
    (.either .skip (.block [.lock .sflowAllSrcModMtx, .skip, .unlock .sflowAllSrcModMtx]))

/-- Something that is looked up first may be missing. -/
def sflowMakeAddOneSourceType : LockCode Mutex := .either .skip sflowAddSourceType

/-- For all zones, or once. -/
def sflowMakeAddSourceType : LockCode Mutex :=
  .either (.loop sflowMakeAddOneSourceType) sflowMakeAddOneSourceType

def sflowAddSource : LockCode Mutex := .either sflowMakeAddSourceType .skip

/-- `expanding_array_get` makes an assertion in the search for the new `maxfd`. -/
def sflowStopSource : LockCode Mutex :=
  .either (.block [.lock .sflowInterSrcModMtx, .loop check, .unlock .sflowInterSrcModMtx]) .skip

def sflowRemoveSource : LockCode Mutex := .loop (.either sflowStopSource .skip)

def sflowShowSrc : LockCode Mutex := .skip

/-! ## The threads -/

/-- One descriptor: there is nothing to be read, or a sample is made of the packet. -/
def readSource : LockCode Mutex :=
  .either .skip (.either .skip (.block [check, check, sflowAppendSampleToSend]))

def sflowInterruptSourcesMasterThread : LockCode Mutex :=
  .loop
    -- `maxfd < 0`
    (.either .skip
      (.seq (.lock .sflowInterSrcModMtx)
        -- `select` has failed
        (.either (.unlock .sflowInterSrcModMtx)
          -- or there is nothing to be read
          (.either (.unlock .sflowInterSrcModMtx)
            (.block [.loop readSource, .unlock .sflowInterSrcModMtx])))))

/-- `ss_get_sample`.  What makes samples of `flow_stat` sources lies outside. -/
def getSample (getSampleFlowStat : LockCode Mutex) : SflowSourceType → LockCode Mutex
  | .phyhost => getSampleHostphy
  | .vhost => getSampleHostv
  | .flowstat => getSampleFlowStat
  | .ifgeneric | .flowsample | .interPollSeperation => .skip

/-- Cancellation is enabled at the beginning, and while the thread sleeps. -/
def sflowPollingSourceInstanceContainerThread (getSampleFlowStat : LockCode Mutex)
    (ssType : SflowSourceType) : LockCode Mutex :=
  .block [.pause, check, check, check,
    .loop (.block [.pause, getSample getSampleFlowStat ssType, sflowAppendSampleToSend])]

def sighandler : LockCode Mutex :=
  .loop
    -- `SIGHUP`, `SIGALRM`, or another signal
    (.either .skip
      (.either
        (.block [.lock .sflowBufferedSamplesMtx, sendSamples, .unlock .sflowBufferedSamplesMtx])
        .halt))

/-- A door thread serves one request after the other. -/
def sflowdDoorHandler : LockCode Mutex :=
  .loop (.either sflowAddSource (.either sflowRemoveSource (.either sflowShowSrc .skip)))

/-- The threads of the daemon, with any number of polling threads and door threads. -/
inductive Thread (P D : Type*) where
  | master
  | sighandler
  | poll (t : P)
  | door (t : D)
deriving DecidableEq

variable {P D : Type*}

def Thread.code (getSampleFlowStat : LockCode Mutex) (ssType : P → SflowSourceType) :
    Thread P D → LockCode Mutex
  | master => sflowInterruptSourcesMasterThread
  | sighandler => Locking.sighandler
  | poll t => sflowPollingSourceInstanceContainerThread getSampleFlowStat (ssType t)
  | door _ => sflowdDoorHandler

/-! ## Their order -/

section KeepsOrder

variable {held : List Mutex}

theorem keepsOrder_check : KeepsOrder Mutex.rank held check held := .either .skip .halt

theorem keepsOrder_checks : KeepsOrder Mutex.rank held (.loop check) held := .loop keepsOrder_check

theorem keepsOrder_getUpTimeSec : KeepsOrder Mutex.rank held getUpTimeSec held :=
  .either .skip (.either .halt .skip)

theorem lt_rank_of_nil {m : Mutex} : ∀ h ∈ ([] : List Mutex), h.rank < m.rank := by
  intro h hh
  cases hh

theorem keepsOrder_getUpTimeSecSafe : KeepsOrder Mutex.rank [] getUpTimeSecSafe [] :=
  .guarded lt_rank_of_nil keepsOrder_getUpTimeSec

theorem keepsOrder_sflowUpdateZoneStatSafe :
    KeepsOrder Mutex.rank [] sflowUpdateZoneStatSafe [] := .guarded lt_rank_of_nil .skip

/-- The mutex is given back in between. -/
theorem keepsOrder_sflowGetZoneStat : KeepsOrder Mutex.rank [] sflowGetZoneStat [] := by
  have hsearch := KeepsOrder.guarded (@lt_rank_of_nil .sflowZlock) keepsOrder_checks
  have hagain := KeepsOrder.either keepsOrder_sflowUpdateZoneStatSafe .skip
  exact .block_cons keepsOrder_sflowUpdateZoneStatSafe
    (.block_cons hsearch (.block_cons hagain .block_nil))

theorem keepsOrder_getSampleHostv : KeepsOrder Mutex.rank [] getSampleHostv [] := by
  have hcpu : KeepsOrder Mutex.rank [] sflowCrVirtCpuPack [] :=
    .either .skip (.either .skip (.block_cons keepsOrder_getUpTimeSecSafe
      (.block_cons keepsOrder_sflowGetZoneStat .block_nil)))
  have hmemory : KeepsOrder Mutex.rank [] sflowCrVirtMemoryPack [] :=
    .either .skip keepsOrder_sflowGetZoneStat
  exact .block_cons keepsOrder_getUpTimeSecSafe
    (.block_cons hcpu (.block_cons hmemory .block_nil))

/-- A flush takes no mutex. -/
theorem keepsOrder_sendSamples : KeepsOrder Mutex.rank held sendSamples held := by
  have hpack : KeepsOrder Mutex.rank held sflowDatagramPack held :=
    .block_cons keepsOrder_getUpTimeSec
      (.block_cons keepsOrder_checks (.block_cons keepsOrder_check .block_nil))
  exact .block_cons hpack (.block_cons keepsOrder_checks .block_nil)

theorem keepsOrder_sflowAppendSampleToSend
    (hheld : ∀ h ∈ held, h.rank < Mutex.sflowBufferedSamplesMtx.rank) :
    KeepsOrder Mutex.rank held sflowAppendSampleToSend held :=
  .guarded hheld (.either keepsOrder_sendSamples .skip)

/-- One mutex after the other. -/
theorem keepsOrder_sflowAddSourceType : KeepsOrder Mutex.rank [] sflowAddSourceType [] :=
  .seq (.either (.guarded lt_rank_of_nil .skip) .skip)
    (.either .skip (.guarded lt_rank_of_nil .skip))

theorem keepsOrder_sflowAddSource : KeepsOrder Mutex.rank [] sflowAddSource [] := by
  have hone : KeepsOrder Mutex.rank [] sflowMakeAddOneSourceType [] :=
    .either .skip keepsOrder_sflowAddSourceType
  exact .either (.either (.loop hone) hone) .skip

theorem keepsOrder_sflowRemoveSource : KeepsOrder Mutex.rank [] sflowRemoveSource [] := by
  have hstop : KeepsOrder Mutex.rank [] sflowStopSource [] :=
    .either (.guarded lt_rank_of_nil keepsOrder_checks) .skip
  exact .loop (.either hstop .skip)

/-- The samples are handed over while the mutex of the sources is held. -/
theorem keepsOrder_master : KeepsOrder Mutex.rank [] sflowInterruptSourcesMasterThread [] := by
  have happend : KeepsOrder Mutex.rank [.sflowInterSrcModMtx] sflowAppendSampleToSend
      [.sflowInterSrcModMtx] := by
    refine keepsOrder_sflowAppendSampleToSend fun h hh ↦ ?_
    obtain rfl := List.mem_singleton.mp hh
    exact Nat.zero_lt_one
  have hread : KeepsOrder Mutex.rank [.sflowInterSrcModMtx] readSource [.sflowInterSrcModMtx] :=
    .either .skip (.either .skip (.block_cons keepsOrder_check
      (.block_cons keepsOrder_check (.block_cons happend .block_nil))))
  have hunlock : KeepsOrder Mutex.rank [.sflowInterSrcModMtx] (.unlock .sflowInterSrcModMtx) [] :=
    .unlock
  have hreads : KeepsOrder Mutex.rank [.sflowInterSrcModMtx]
      (.block [.loop readSource, .unlock .sflowInterSrcModMtx]) [] :=
    .block_cons (.loop hread) (.block_cons hunlock .block_nil)
  exact .loop (.either .skip (.seq (.lock lt_rank_of_nil)
    (.either hunlock (.either hunlock hreads))))

variable {getSampleFlowStat : LockCode Mutex}

theorem keepsOrder_getSample (hflow : KeepsOrder Mutex.rank [] getSampleFlowStat [])
    (ssType : SflowSourceType) :
    KeepsOrder Mutex.rank [] (getSample getSampleFlowStat ssType) [] := by
  cases ssType with
  | phyhost => exact keepsOrder_getUpTimeSecSafe
  | vhost => exact keepsOrder_getSampleHostv
  | flowstat => exact hflow
  | _ => exact .skip

theorem keepsOrder_poll (hflow : KeepsOrder Mutex.rank [] getSampleFlowStat [])
    (ssType : SflowSourceType) :
    KeepsOrder Mutex.rank []
      (sflowPollingSourceInstanceContainerThread getSampleFlowStat ssType) [] := by
  have hround : KeepsOrder Mutex.rank []
      (.block [.pause, getSample getSampleFlowStat ssType, sflowAppendSampleToSend]) [] :=
    .block_cons .pause (.block_cons (keepsOrder_getSample hflow ssType)
      (.block_cons (keepsOrder_sflowAppendSampleToSend lt_rank_of_nil) .block_nil))
  exact .block_cons .pause (.block_cons keepsOrder_check (.block_cons keepsOrder_check
    (.block_cons keepsOrder_check (.block_cons (.loop hround) .block_nil))))

theorem keepsOrder_sighandler : KeepsOrder Mutex.rank [] sighandler [] :=
  .loop (.either .skip (.either (.guarded lt_rank_of_nil keepsOrder_sendSamples) .halt))

theorem keepsOrder_sflowdDoorHandler : KeepsOrder Mutex.rank [] sflowdDoorHandler [] :=
  .loop (.either keepsOrder_sflowAddSource
    (.either keepsOrder_sflowRemoveSource (.either .skip .skip)))

/-- Every thread takes its mutexes in order and ends without one. -/
theorem keepsOrder_code (hflow : KeepsOrder Mutex.rank [] getSampleFlowStat [])
    (ssType : P → SflowSourceType) (t : Thread P D) :
    KeepsOrder Mutex.rank [] (t.code getSampleFlowStat ssType) [] := by
  cases t with
  | master => exact keepsOrder_master
  | sighandler => exact keepsOrder_sighandler
  | poll t => exact keepsOrder_poll hflow (ssType t)
  | door t => exact keepsOrder_sflowdDoorHandler

end KeepsOrder

theorem Mutex.rank_le (m : Mutex) : m.rank ≤ 2 := by
  cases m <;> decide

/-- The threads of the daemon never come to a deadlock, and give back what they take. -/
theorem deadlockFree_of_run [DecidableEq P] [DecidableEq D] {getSampleFlowStat : LockCode Mutex}
    (hflow : KeepsOrder Mutex.rank [] getSampleFlowStat []) (ssType : P → SflowSourceType)
    {ls : List (Thread P D × Bool)} {s : Threads Mutex (Thread P D)}
    (hrun : run Threads.step (.init (Thread.code getSampleFlowStat ssType)) ls = some s) :
    s.DeadlockFree :=
  Threads.deadlockFree_of_keepsOrder (keepsOrder_code hflow ssType) Mutex.rank_le hrun

/-- The handler takes the buffer, the master thread the sources, and then the master thread wants
the buffer and a door thread the sources. -/
def waiting : List (Thread Unit Unit × Bool) :=
  let master (ways : List Bool) := ways.map fun way => (Thread.master, way)
  let door (ways : List Bool) := ways.map fun way => (Thread.door (), way)
  [true, false, true, true, true].map (fun way => (Thread.sighandler, way)) ++
    master [true, false, true, true, false, false, true, true, false, false, true, true, true,
      true, true, true, true, true] ++
    door [true, true, true, false, false, true, true, true]

/-- It is no deadlock. -/
theorem deadlockFree_waiting : ∃ s,
    run Threads.step (.init (Thread.code .skip fun _ => .phyhost)) waiting = some s ∧
      s.WaitsFor (.door ()) .master ∧ s.WaitsFor .master .sighandler ∧ s.DeadlockFree := by
  refine ⟨_, rfl, ⟨.sflowInterSrcModMtx, ⟨_, rfl⟩, rfl⟩, ⟨.sflowBufferedSamplesMtx, ⟨_, rfl⟩, rfl⟩,
    ?_⟩
  exact @deadlockFree_of_run Unit Unit _ _ .skip .skip (fun _ ↦ .phyhost) waiting _ rfl

end Sflow.Locking

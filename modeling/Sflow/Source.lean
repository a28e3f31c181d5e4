import Mathlib.Algebra.GroupWithZero.Nat

/-!
# Sources

`sflow_source.h`: what the daemon samples.  A source is either interrupt driven,
read through a descriptor that the master thread watches, or polled by a thread
of its own.  The two arms of the union `ss_src` and the source specific data lie
side by side here; the code reads only those that belong to the type of the
source.  Pointers to the sampling functions are left out, as the type fixes them.
-/

namespace Sflow

inductive SflowSourceType where
  | flowsample
  /-- The line between interrupt driven and polled sources. -/
  | interPollSeperation
  | ifgeneric
  | phyhost
  | vhost
  | flowstat
deriving DecidableEq, Repr

structure SflowSource where
  ssName : List Char
  ssType : SflowSourceType
  /-- `ss_src.ss_i.ss_fd`. -/
  ssFd : Nat := 0
  /-- `ss_src.ss_i.ss_rate`. -/
  ssRate : Int := 0
  /-- `ss_src.ss_p.ss_interval`. -/
  ssInterval : Int := 0
  /-- Whether `ss_src.ss_p.ss_thread` is the number of a thread; `calloc` leaves none there. -/
  ssThread : Bool := false
  ssCount : Nat := 0
  ssIdType : Nat
  ssId : Int
  ssEnt : UInt32
  ssFmt : UInt32
  fspPool : UInt32 := 0
  fspDrops : UInt32 := 0
  zoneId : Int := 0
  /-- Every `sFlowDataSource` type is a byte: `ss_id_type` is only ever set to 0, 2 or 3. -/
  ssIdType_lt : ssIdType < 256
deriving DecidableEq, Repr

/-- The type for interfaces is a byte. -/
theorem SflowSource.ifIdType_lt : 0 < 256 := Nat.zero_lt_succ 255

/-- An interface sampled for packets, for examples. -/
def SflowSource.net0 : SflowSource where
  ssName := "net0".toList
  ssType := .flowsample
  ssFd := 5
  ssRate := 256
  ssIdType := 0
  ssId := 1
  ssEnt := 0
  ssFmt := 1
  ssIdType_lt := ifIdType_lt

/-- The host as it is polled, for examples. -/
def SflowSource.phyhost : SflowSource where
  ssName := "phyhost".toList
  ssType := .phyhost
  ssInterval := 20
  ssIdType := 2
  ssId := 0
  ssEnt := 0
  ssFmt := 2
  ssIdType_lt := by decide

/-- A zone, for examples. -/
def SflowSource.web : SflowSource where
  ssName := "web".toList
  ssType := .vhost
  ssInterval := 20
  ssIdType := 3
  ssId := 7
  ssEnt := 0
  ssFmt := 2
  zoneId := 7
  ssIdType_lt := by decide

end Sflow

import Sflow.C.Str
import Sflow.C.Unset
import Sflow.Protocol.Structs
import Sflow.Util

/-!
# Asking the system

What the sampling functions are told of a query is its answer, which is `none`
where the query fails: where there is no such statistic, where it has another
type, or where it cannot be read.  Most callers do not look at the status that
comes with an answer.  Then a variable that was never set stands for the answer,
and these variables are in `Unset`, under their names in the source.
-/

namespace Sflow

open C

/-! ## Numbers and texts -/

/-- A number as a `long` holds it, which is as wide as a pointer. -/
def asLong (p : Platform) (x : Int) : Int := x.bmod (2 ^ (8 * p.psize))

def atol (p : Platform) (s : List Char) : Int := asLong p (decimalValue s)

/-- The value of a hexadecimal digit. -/
def hexDigit (c : Char) : Option Nat :=
  if c.isDigit then some (c.toNat - '0'.toNat)
  else if 'a' ≤ c ∧ c ≤ 'f' then some (c.toNat - 'a'.toNat + 10)
  else if 'A' ≤ c ∧ c ≤ 'F' then some (c.toNat - 'A'.toNat + 10)
  else none

/-- The number that the digits at the front make, and what follows them. -/
def readHex (n : Nat) : List Char → Nat × List Char
  | [] => (n, [])
  | c :: s =>
      match hexDigit c with
      | some d => readHex (16 * n + d) s
      | none => (n, c :: s)

/-- `%x` of `sscanf`. -/
def scanHex (s : List Char) : Option (UInt32 × List Char) :=
  let (minus, s) : Bool × List Char :=
    match s.dropWhile isSpace with
    | '-' :: s => (true, s)
    | '+' :: s => (false, s)
    | s => (false, s)
  let s :=
    match s with
    | '0' :: 'x' :: s => s
    | '0' :: 'X' :: s => s
    | s => s
  match s with
  | [] => none
  | c :: _ =>
      if (hexDigit c).isSome then
        let (n, rest) := readHex 0 s
        some (UInt32.ofInt (if minus then -n else n), rest)
      else none

/-- The numbers between colons that `sscanf` finds, `n` at most. -/
def sscanfMac : Nat → List Char → List UInt32
  | 0, _ => []
  | n + 1, s =>
      match scanHex s with
      | none => []
      | some (x, ':' :: s) => x :: sscanfMac n s
      | some (x, _) => [x]

/-- What is not found in the text stays what it was. -/
def macConvertStrToChar (str : List Char) (macInt : Vector UInt32 6) : Vector UInt8 6 :=
  Vector.ofFn fun i => ((sscanfMac 6 str)[i]?.getD macInt[i]).toUInt8

/-! ## Datalinks -/

/-- The statistics of a datalink that are asked for as 64 bits. -/
inductive LinkStat64 where
  | ifspeed
  | rbytes64
  | obytes64
deriving DecidableEq, Repr

/-- Those that are asked for as 32 bits. -/
inductive LinkStat32 where
  | linkDuplex
  | linkState
  | multircv
  | brdcstrcv
  | ierrors
  | unknowns
  | multixmt
  | brdcstxmt
  | oerrors
  | ipackets
  | opackets
deriving DecidableEq, Repr

/-- What a datalink answers. -/
structure LinkAnswers where
  stat64 : LinkStat64 → Option UInt64
  stat32 : LinkStat32 → Option UInt32

/-- `buffer` in `sflow_get_link_stat_64` and `sflow_get_link_stat_32`, in the call for each
statistic. -/
structure LinkBuffers where
  buffer64 : LinkStat64 → UInt64
  buffer32 : LinkStat32 → UInt32

/-- The variables that are read although they may not have been set. -/
structure Unset where
  /-- For the links in the order of a walk. -/
  links : Nat → LinkBuffers
  /-- `tmp` in the calls of `get_host_phys_machine_type`. -/
  tmp : Nat → CStr
  /-- `buff` and `mac_int` in the calls of `sflow_gather_adapter`, and the end of the slot that
  `realloc` added: of its sixteen bytes fourteen are written. -/
  buff : Nat → CStr
  macInt : Nat → Vector UInt32 6
  slot : Nat → Vector UInt8 2
  /-- What the conversion to `float` makes of `loadavg`. -/
  loadavg : Fin 3 → UInt32
  /-- `ret` in `get_up_time_sec`. -/
  ret : Int
  /-- `buf_big` in `walk_cpu_instances_for_cpu_counters`. -/
  bufBig : CStr
  /-- `cpu_num` in `walk_cpu_instances_for_mem_counters`. -/
  cpuNum : UInt32
  /-- `buf_int` in `sflow_cr_virt_cpu_pack`. -/
  bufInt : UInt32

namespace Unset

/-- A memory full of zeros. -/
def zero : Unset where
  links _ := ⟨fun _ ↦ 0, fun _ ↦ 0⟩
  tmp _ := .empty
  buff _ := .empty
  macInt _ := Vector.replicate 6 0
  slot _ := Vector.replicate 2 0
  loadavg _ := 0
  ret := 0
  bufBig := .empty
  cpuNum := 0
  bufInt := 0

theorem surjective_links (i : Nat) : Function.Surjective fun g : Unset => g.links i :=
  fun b ↦ ⟨{ zero with links := fun _ ↦ b }, rfl⟩

theorem surjective_buffer64 :
    Function.Surjective fun (g : Unset) (i : Nat) => (g.links i).buffer64 :=
  fun b ↦ ⟨{ zero with links := fun i ↦ ⟨b i, fun _ ↦ 0⟩ }, rfl⟩

theorem surjective_buffer32 :
    Function.Surjective fun (g : Unset) (i : Nat) => (g.links i).buffer32 :=
  fun b ↦ ⟨{ zero with links := fun i ↦ ⟨fun _ ↦ 0, b i⟩ }, rfl⟩

theorem surjective_tmp (i : Nat) : Function.Surjective fun g : Unset => g.tmp i :=
  fun s ↦ ⟨{ zero with tmp := fun _ ↦ s }, rfl⟩

theorem surjective_loadavg (i : Fin 3) : Function.Surjective fun g : Unset => g.loadavg i :=
  fun x ↦ ⟨{ zero with loadavg := fun _ ↦ x }, rfl⟩

theorem surjective_ret : Function.Surjective fun g : Unset => g.ret :=
  fun x ↦ ⟨{ zero with ret := x }, rfl⟩

theorem surjective_bufBig : Function.Surjective fun g : Unset => g.bufBig :=
  fun s ↦ ⟨{ zero with bufBig := s }, rfl⟩

theorem surjective_cpuNum : Function.Surjective fun g : Unset => g.cpuNum :=
  fun n ↦ ⟨{ zero with cpuNum := n }, rfl⟩

theorem surjective_bufInt : Function.Surjective fun g : Unset => g.bufInt :=
  fun n ↦ ⟨{ zero with bufInt := n }, rfl⟩

end Unset

def sflowGetLinkStat64 (a : LinkAnswers) (b : LinkBuffers) (stat : LinkStat64) : UInt64 :=
  (a.stat64 stat).getD (b.buffer64 stat)

def sflowGetLinkStat32 (a : LinkAnswers) (b : LinkBuffers) (stat : LinkStat32) : UInt32 :=
  (a.stat32 stat).getD (b.buffer32 stat)

/-! ## The host -/

/-- `MT_UNKNOWN`, `MT_X86` and `MT_SPARC`. -/
def mtUnknown : UInt32 := 0

def mtX86 : UInt32 := 2

def mtSparc : UInt32 := 5

/-- `architecture` is what `sysinfo` answers to `SI_ARCHITECTURE`. -/
def getHostPhysMachineType (architecture : Option CStr) (tmp : CStr) : UInt32 :=
  if strncmp (architecture.getD tmp).chars "i386".toList "i386".toList.length = 0 then mtX86
  else mtUnknown

def getHostPhysPageSize (architecture : Option CStr) (tmp : CStr) : UInt32 :=
  let machineType := getHostPhysMachineType architecture tmp
  if machineType = mtX86 then 1024 * 4
  else if machineType = mtSparc then 1024 * 8
  else 1024 * 4

def getHostPhysMemBytes (physmem : Option UInt32) (architecture : Option CStr) (tmp : CStr) :
    UInt64 :=
  (physmem.getD 0).toUInt64 * (getHostPhysPageSize architecture tmp).toUInt64

/-- A record of the user accounting database. -/
structure Utmpx where
  /-- Its type is `BOOT_TIME`. -/
  bootTime : Bool
  tvSec : Int
  /-- What `time` gives when the record is there. -/
  now : Int
deriving DecidableEq, Repr

/-- What there is to know of the time of the boot.  Without the file of the database the daemon
exits. -/
structure UpTimeAnswers where
  /-- `start_time`, as the calls before left it. -/
  startTime : Int
  now : Int
  /-- The records that are read, as many as the size of the file promises at most. -/
  utmpx : List Utmpx
deriving DecidableEq, Repr

/-- The loop over the records.  It goes on behind the record of a boot if hours and minutes are
both to be logged. -/
def readUtmpx : List Utmpx → Option Int
  | [] => none
  | utp :: rest =>
      if utp.bootTime then
        let uptime := utp.now - utp.tvSec + 30
        let hrs := (uptime.tmod (60 * 60 * 24)).tdiv (60 * 60)
        let mins := ((uptime.tmod (60 * 60 * 24)).tmod (60 * 60)).tdiv 60
        if 0 < hrs ∧ 0 < mins then (readUtmpx rest).or (some uptime) else some uptime
      else readUtmpx rest

/-- Returns the variable `ret`, set or not. -/
def getUpTimeSec (a : UpTimeAnswers) (ret : Int) : UInt32 :=
  if a.startTime ≠ 0 then UInt32.ofInt (a.now - a.startTime + 30)
  else UInt32.ofInt ((readUtmpx a.utmpx).getD ret)

/-! ## What is steady -/

/-- The time of the boot is known, or there is a record of it. -/
def UpTimeAnswers.BootKnown (a : UpTimeAnswers) : Prop :=
  a.startTime ≠ 0 ∨ ∃ utp ∈ a.utmpx, utp.bootTime = true

theorem isSome_readUtmpx {utmpx : List Utmpx} :
    (readUtmpx utmpx).isSome ↔ ∃ utp ∈ utmpx, utp.bootTime = true := by
  induction utmpx with
  | nil => simp [readUtmpx]
  | cons utp rest ih =>
      rw [List.exists_mem_cons_iff, readUtmpx]
      by_cases hboot : utp.bootTime = true
      · rw [if_pos hboot]
        refine ⟨fun _ ↦ .inl hboot, fun _ ↦ ?_⟩
        dsimp only
        split
        · rw [Option.isSome_or, Option.isSome_some, Bool.or_true]
        · rfl
      · rw [if_neg hboot, ih]
        exact ⟨.inr, fun h ↦ h.resolve_left hboot⟩

instance nontrivial_uInt32 : Nontrivial UInt32 := ⟨0, 1, by decide⟩

instance nontrivial_uInt64 : Nontrivial UInt64 := ⟨0, 1, by decide⟩

instance isCancelAdd_uInt32 : IsCancelAdd UInt32 where
  add_left_cancel _ _ _ h := (UInt32.add_right_inj _).mp h
  add_right_cancel _ _ _ h := (UInt32.add_left_inj _).mp h

instance isCancelAdd_uInt64 : IsCancelAdd UInt64 where
  add_left_cancel _ _ _ h := (UInt64.add_right_inj _).mp h
  add_right_cancel _ _ _ h := (UInt64.add_left_inj _).mp h

/-- Every word is what some time is cut off to. -/
theorem surjective_ofInt : Function.Surjective UInt32.ofInt := by
  intro x
  exact ⟨x.toNat, by rw [ofInt_natCast, UInt32.ofNat_toNat]⟩

section Steady

variable {G : Type}

theorem steady_getUpTimeSec {a : UpTimeAnswers} {π : G → Int} (hπ : Function.Surjective π) :
    (Steady fun g => getUpTimeSec a (π g)) ↔ a.BootKnown := by
  unfold getUpTimeSec UpTimeAnswers.BootKnown
  rw [← isSome_readUtmpx]
  by_cases hstart : a.startTime ≠ 0
  · simp only [if_pos hstart]
    exact ⟨fun _ ↦ .inl hstart, fun _ ↦ steady_const _⟩
  · simp only [if_neg hstart]
    have hret : (fun g => UInt32.ofInt ((readUtmpx a.utmpx).getD (π g))) =
        fun g => ((readUtmpx a.utmpx).map UInt32.ofInt).getD (UInt32.ofInt (π g)) := by
      funext g
      cases readUtmpx a.utmpx <;> rfl
    have hsurj : Function.Surjective fun g => UInt32.ofInt (π g) := surjective_ofInt.comp hπ
    rw [hret, steady_getD hsurj, Option.isSome_map]
    exact ⟨.inr, fun h ↦ h.resolve_left hstart⟩

theorem steady_getHostPhysMachineType {architecture : Option CStr} {π : G → CStr}
    (hπ : Function.Surjective π) :
    (Steady fun g => getHostPhysMachineType architecture (π g)) ↔ architecture.isSome := by
  cases architecture with
  | some s => exact ⟨fun _ ↦ rfl, fun _ _ _ ↦ rfl⟩
  | none =>
      refine ⟨fun h ↦ ?_, fun h ↦ absurd h Bool.false_ne_true⟩
      have htmp : Steady (getHostPhysMachineType none) := (steady_surjective hπ).mp h
      exact absurd (htmp .empty ⟨"i386".toList, by decide⟩) (by decide)

/-- No machine is found to be a SPARC. -/
theorem getHostPhysPageSize_eq (architecture : Option CStr) (tmp : CStr) :
    getHostPhysPageSize architecture tmp = 4096 := by
  unfold getHostPhysPageSize getHostPhysMachineType
  split <;> rfl

theorem getHostPhysMemBytes_eq (physmem : Option UInt32) (architecture : Option CStr)
    (tmp : CStr) :
    getHostPhysMemBytes physmem architecture tmp = (physmem.getD 0).toUInt64 * 4096 := by
  rw [getHostPhysMemBytes, getHostPhysPageSize_eq]
  rfl

end Steady

end Sflow

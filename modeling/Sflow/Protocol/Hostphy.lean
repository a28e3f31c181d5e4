import Sflow.Protocol.Ifgeneric

/-!
# Sampling the host

`sflow_protocol_leaf_hostphy.c`: six records about the physical host.  Two of
them add up the answers of all datalinks, two the answers of all processors, each
processor being given its share of the average.

Where the code writes behind a variable on its stack or behind what `realloc`
returned, there is no sample.
-/

namespace Sflow

open C

/-! ## What is asked -/

/-- What one call of `sflow_gather_adapter` is told. -/
structure AdapterAnswers where
  diLinkid : UInt32
  macAddress : Option CStr
  /-- `valcnt` behind the call. -/
  valcnt : UInt32
deriving DecidableEq

/-- A directory of `/proc`, and `pr_sname` of the process where its `psinfo` can be read. -/
structure ProcEntry where
  dName : List Char
  psinfo : Option Char
deriving DecidableEq, Repr

/-- The statistics of a processor. -/
structure CpuAnswers where
  supportedFrequencies : Option CStr
  nsecUser : Option UInt64
  nsecIdle : Option UInt64
  nsecKernel : Option UInt64
  nsecIntr : Option UInt64
  iowait : Option UInt64
  intr : Option UInt64
deriving DecidableEq

/-- The virtual memory statistics of a processor. -/
structure VmAnswers where
  pgpgin : Option UInt64
  pgout : Option UInt64
  swapin : Option UInt64
  swapout : Option UInt64
deriving DecidableEq, Repr

structure SwapEnt where
  stePages : Int
  steFree : Int
deriving DecidableEq, Repr

/-- The queries of one sample of the host. -/
structure HostAnswers where
  hostname : Vector UInt8 60
  release : Vector UInt8 28
  serial : Vector UInt8 16
  /-- In the calls of `get_host_phys_machine_type`. -/
  architecture : Nat → Option CStr
  /-- The datalinks of the first walk. -/
  adapters : List AdapterAnswers
  /-- Where `realloc` leaves the record of the adapters in the end. -/
  adaptersAddr : Nat
  /-- The averages that `getloadavg` retrieves. -/
  loadavg : List UInt32
  /-- `none` where `/proc` cannot be opened. -/
  procdir : Option (List ProcEntry)
  upTime : UpTimeAnswers
  /-- `ncpus` for the two walks over the processors. -/
  ncpus : Option UInt32
  ncpusVm : Option UInt32
  cpu : Nat → CpuAnswers
  vm : Nat → VmAnswers
  physmem : Option UInt32
  pagesfree : Option UInt32
  /-- `none` where `swapctl` fails or there is no swap device. -/
  swap : Option (List SwapEnt)
  /-- `_SC_PAGESIZE`. -/
  pageSize : Int
  /-- What `rand` fills the record of the disks with, up to `hd_write_time`. -/
  rand : Vector UInt8 48
  /-- The datalinks of the second walk. -/
  links : List LinkAnswers

/-- A host that answers nothing, for examples. -/
def HostAnswers.silent : HostAnswers where
  hostname := Vector.replicate 60 0
  release := Vector.replicate 28 0
  serial := Vector.replicate 16 0
  architecture _ := none
  adapters := []
  adaptersAddr := 0
  loadavg := []
  procdir := none
  upTime := ⟨0, 0, []⟩
  ncpus := none
  ncpusVm := none
  cpu _ := ⟨none, none, none, none, none, none, none⟩
  vm _ := ⟨none, none, none, none⟩
  physmem := none
  pagesfree := none
  swap := none
  pageSize := 4096
  rand := Vector.replicate 48 0
  links := []

/-! ## Processors -/

/-- What one processor adds to the average of a `long`.  The division is one of `unsigned long`
where a `long` does not hold every `uint32_t`. -/
def cpuShare (p : Platform) (bufLong : Int) (cpuNum : UInt32) : UInt32 :=
  if p.psize = 4 then UInt32.ofInt bufLong / cpuNum
  else UInt32.ofInt (bufLong.tdiv cpuNum.toNat)

/-- The fields of `sflow_cr_host_cpu_t` that are averages. -/
structure CpuCounters where
  cpuSpeed : UInt32 := 0
  cpuUser : UInt32 := 0
  cpuIdle : UInt32 := 0
  cpuSystem : UInt32 := 0
  cpuIntr : UInt32 := 0
  cpuWio : UInt32 := 0
  interrupts : UInt32 := 0
deriving DecidableEq, Repr

/-- The body of the loop, with what `buf_big` holds after the query for the frequencies. -/
def CpuCounters.add (p : Platform) (cpuNum : UInt32) (h : CpuCounters) (a : CpuAnswers)
    (bufBig : CStr) : CpuCounters :=
  let seconds (x : Option UInt64) : UInt32 :=
    ((x.getD 0) / 1000000000 / cpuNum.toUInt64).toUInt32
  { cpuSpeed := h.cpuSpeed + cpuShare p (atol p bufBig.chars) cpuNum
    cpuUser := h.cpuUser + seconds a.nsecUser
    cpuIdle := h.cpuIdle + seconds a.nsecIdle
    cpuSystem := h.cpuSystem + seconds a.nsecKernel
    cpuIntr := h.cpuIntr + seconds a.nsecIntr
    cpuWio := h.cpuWio + seconds a.iowait
    interrupts := h.interrupts + ((a.intr.getD 0) / cpuNum.toUInt64).toUInt32 }

/-- The loop over the processors.  Without an answer `buf_big` is what it was for the one
before. -/
def walkCpus (p : Platform) (cpuNum : UInt32) : List CpuAnswers → CStr → CpuCounters → CpuCounters
  | [], _, h => h
  | a :: rest, bufBig, h =>
      let bufBig := a.supportedFrequencies.getD bufBig
      walkCpus p cpuNum rest bufBig (h.add p cpuNum a bufBig)

/-- The processors that are counted. -/
def HostAnswers.cpus (q : HostAnswers) : List CpuAnswers :=
  (List.range (q.ncpus.getD 0).toNat).map q.cpu

/-- `name_buf` holds the names of the processors and `buf_big` the texts that are answered. -/
def HostAnswers.CpuBuffersFit (q : HostAnswers) : Prop :=
  (∀ i < (q.ncpus.getD 0).toNat, "cpu_info".length + (itoa i).length + 1 ≤ 16) ∧
    ∀ a ∈ q.cpus, ∀ s ∈ a.supportedFrequencies, s.chars.length + 1 ≤ 128

instance (q : HostAnswers) : Decidable q.CpuBuffersFit := by
  unfold HostAnswers.CpuBuffersFit
  infer_instance

def walkCpuInstancesForCpuCounters (p : Platform) (q : HostAnswers) (bufBig : CStr) :
    Except Fault CpuCounters :=
  if q.CpuBuffersFit then .ok (walkCpus p (q.ncpus.getD 0) q.cpus bufBig {})
  else .error .outOfBounds

/-- The fields of `sflow_cr_host_memory_t` that are averages. -/
structure VmCounters where
  pageIn : UInt32 := 0
  pageOut : UInt32 := 0
  swapIn : UInt32 := 0
  swapOut : UInt32 := 0
deriving DecidableEq, Repr

def walkCpuInstancesForMemCounters (q : HostAnswers) (cpuNum : UInt32) : VmCounters :=
  let n := q.ncpusVm.getD cpuNum
  let share (x : Option UInt64) : UInt32 := ((x.getD 0) / n.toUInt64).toUInt32
  (List.range n.toNat).foldl (fun h i =>
    { pageIn := h.pageIn + share (q.vm i).pgpgin
      pageOut := h.pageOut + share (q.vm i).pgout
      swapIn := h.swapIn + share (q.vm i).swapin
      swapOut := h.swapOut + share (q.vm i).swapout }) {}

/-! ## Processes and swap devices -/

/-- The loop over `/proc`: the numbers of processes and of running ones. -/
def countProcessLoop : List ProcEntry → UInt32 × UInt32 → UInt32 × UInt32
  | [], n => n
  | direntp :: rest, (total, running) =>
      let pid := atoi direntp.dName
      if direntp.dName.head? = some '.' then countProcessLoop rest (total, running)
      else if pid = 0 ∨ pid = 2 ∨ pid = 3 then countProcessLoop rest (total, running)
      else
        match direntp.psinfo with
        | none => (total, running)
        | some prSname =>
            countProcessLoop rest
              (total + 1, if prSname = 'R' ∨ prSname = 'O' then running + 1 else running)

def countProcess (procdir : Option (List ProcEntry)) : UInt32 × UInt32 :=
  match procdir with
  | none => (0, 0)
  | some entries => countProcessLoop entries (0, 0)

/-- The bytes in all and those free on the swap devices.  The number of blocks is cast to `int`. -/
def walkSwapInstancesForMemCounters (p : Platform) (q : HostAnswers) : UInt64 × UInt64 :=
  let diskblksPerPage : Int := (q.pageSize / 2 ^ 9).bmod (2 ^ 32)
  let bytes (pages : Int) : UInt64 := UInt64.ofInt (asLong p (pages * diskblksPerPage * 512))
  (q.swap.getD []).foldl
    (fun m swapent => (m.1 + bytes swapent.stePages, m.2 + bytes swapent.steFree)) (0, 0)

/-! ## Datalinks -/

/-- The adapters as they are gathered, each in a slot of its own. -/
def HostAnswers.adapterLinks (q : HostAnswers) (g : Unset) : List AdapterLink :=
  q.adapters.mapIdx fun i a =>
    { diLinkid := a.diLinkid
      valcnt := a.valcnt
      mac := macConvertStrToChar (a.macAddress.getD (g.buff i)).chars (g.macInt i) ++ g.slot i }

/-- The counters of `sflow_cr_host_net_io_t` that are added up.  Nothing is added to the
packets that go out. -/
structure NetIo where
  bytesIn : UInt64 := 0
  bytesOut : UInt64 := 0
  errsIn : UInt32 := 0
  errsOut : UInt32 := 0
  pktsIn : UInt32 := 0
deriving DecidableEq, Repr

def sflowGatherLinkTotal (n : NetIo) (a : LinkAnswers) (b : LinkBuffers) : NetIo where
  bytesIn := n.bytesIn + sflowGetLinkStat64 a b .rbytes64
  bytesOut := n.bytesOut + sflowGetLinkStat64 a b .obytes64
  errsIn := n.errsIn + sflowGetLinkStat32 a b .ierrors
  errsOut := n.errsOut + sflowGetLinkStat32 a b .oerrors + sflowGetLinkStat32 a b .opackets
  pktsIn := n.pktsIn + sflowGetLinkStat32 a b .ipackets

/-- The walk over the links, the unset memory of each being its own. -/
def sflowWalkLinks (links : List LinkAnswers) (g : Unset) : NetIo :=
  links.zipIdx.foldl (fun n x => sflowGatherLinkTotal n x.1 (g.links x.2)) {}

/-! ## The records -/

section Records

variable (p : Platform) (addr : CrKind → FlatAddr p) (q : HostAnswers) (g : Unset)

def sflowCrHostDescrFields : List (List UInt8) :=
  [wordBytes p.endian (htonl p.endian 60), q.hostname.toList, q.serial.toList,
    wordBytes p.endian
      (htonl p.endian (getHostPhysMachineType (q.architecture 0) (g.tmp 0))),
    wordBytes p.endian (htonl p.endian 12), wordBytes p.endian (htonl p.endian 28),
    q.release.toList]

theorem sizeof_sflowCrHostDescrT : sflowCrHostDescrT.sizeof p.toAbi = CrKind.hostDescr.sizeof p :=
  rfl

def sflowCrHostDescrPack : LeafImage p .hostDescr :=
  .ofFields sflowCrHostDescrT (sizeof_sflowCrHostDescrT p)
    (sflowCrHostDescrFields p q g ++ [(addr .hostDescr).toList])
    (by simp [sflowCrHostDescrFields, sflowCrHostDescrT, CType.size])

def sflowCrHostCpuFields (cpu : CpuCounters) : List (List UInt8) :=
  let loadavg (i : Fin 3) : UInt32 := (q.loadavg[i.val]?).getD (g.loadavg i)
  let proc := countProcess q.procdir
  [wordBytes p.endian (htonl p.endian (loadavg 0)),
    wordBytes p.endian (htonl p.endian (loadavg 1)),
    wordBytes p.endian (htonl p.endian (loadavg 2)),
    wordBytes p.endian (htonl p.endian proc.2), wordBytes p.endian (htonl p.endian proc.1),
    wordBytes p.endian (htonl p.endian (q.ncpus.getD 0)),
    wordBytes p.endian (htonl p.endian cpu.cpuSpeed),
    wordBytes p.endian (htonl p.endian (getUpTimeSec q.upTime g.ret)),
    wordBytes p.endian (htonl p.endian cpu.cpuUser), wordBytes p.endian 0,
    wordBytes p.endian (htonl p.endian cpu.cpuSystem),
    wordBytes p.endian (htonl p.endian cpu.cpuIdle),
    wordBytes p.endian (htonl p.endian cpu.cpuWio),
    wordBytes p.endian (htonl p.endian cpu.cpuIntr), wordBytes p.endian 0,
    wordBytes p.endian (htonl p.endian cpu.interrupts), wordBytes p.endian 0]

def sflowCrHostCpuPack (cpu : CpuCounters) : LeafImage p .hostCpu :=
  .ofFields sflowCrHostCpuT rfl (sflowCrHostCpuFields p q g cpu ++ [(addr .hostCpu).toList])
    (by simp [sflowCrHostCpuFields, sflowCrHostCpuT, CType.size])

/-- `hm_free`, in host order. -/
def HostAnswers.memFree : UInt64 :=
  (q.pagesfree.getD 0).toUInt64 * (getHostPhysPageSize (q.architecture 2) (g.tmp 2)).toUInt64

def sflowCrHostMemoryFields : List (List UInt8) :=
  let vm := walkCpuInstancesForMemCounters q g.cpuNum
  let swap := walkSwapInstancesForMemCounters p q
  [hyperBytes p.endian
      (htonH p.endian (getHostPhysMemBytes q.physmem (q.architecture 1) (g.tmp 1))),
    hyperBytes p.endian (htonH p.endian (q.memFree g)), hyperBytes p.endian 0,
    hyperBytes p.endian 0, hyperBytes p.endian 0, hyperBytes p.endian (htonH p.endian swap.1),
    hyperBytes p.endian (htonH p.endian swap.2), wordBytes p.endian (htonl p.endian vm.pageIn),
    wordBytes p.endian (htonl p.endian vm.pageOut), wordBytes p.endian (htonl p.endian vm.swapIn),
    wordBytes p.endian (htonl p.endian vm.swapOut)]

def sflowCrHostMemoryPack : LeafImage p .hostMemory :=
  .ofFields sflowCrHostMemoryT rfl
    (sflowCrHostMemoryFields p q g ++ [(addr .hostMemory).toList])
    (by simp [sflowCrHostMemoryFields, sflowCrHostMemoryT, CType.size])

/-- The placeholder: random bytes. -/
def sflowCrHostDiskIoPack : LeafImage p .hostDiskIo :=
  ⟨q.rand.toList ++ wordBytes p.endian (htonl p.endian 0) ++ (addr .hostDiskIo).toList, by
    change _ = sflowCrHostDiskIoT.sizeof p.toAbi
    rw [StructDecl.sizeof_of_packed _ rfl]
    simp [sflowCrHostDiskIoT, CType.size]
    omega⟩

def sflowCrHostNetIoFields : List (List UInt8) :=
  let i := sflowWalkLinks q.links g
  [hyperBytes p.endian (htonH p.endian i.bytesIn), wordBytes p.endian (htonl p.endian i.pktsIn),
    wordBytes p.endian (htonl p.endian i.errsIn), wordBytes p.endian (htonl p.endian 0),
    hyperBytes p.endian (htonH p.endian i.bytesOut), wordBytes p.endian (htonl p.endian 0),
    wordBytes p.endian (htonl p.endian i.errsOut), wordBytes p.endian (htonl p.endian 0)]

def sflowCrHostNetIoPack : LeafImage p .hostNetIo :=
  .ofFields sflowCrHostNetIoT rfl (sflowCrHostNetIoFields p q g ++ [(addr .hostNetIo).toList])
    (by simp [sflowCrHostNetIoFields, sflowCrHostNetIoT, CType.size])

theorem hostDescr_ne : CrKind.hostDescr ≠ .hostAdapters := nofun

/-- Behind `2 ^ 28` adapters the size that `realloc` is asked for has wrapped around. -/
def getSampleHostphy {R : Type} (source : SflowSource) :
    Except Fault (SflowSp p R × SflowSource) := do
  let links := q.adapterLinks g
  if links.length < 2 ^ 28 then
    let cpu ← walkCpuInstancesForCpuCounters p q g.bufBig
    counterSample source
      [(some ((sflowCrHostDescrPack p addr q g).toInput hostDescr_ne).toPayload, .hostDescr),
        (some (PayloadInput.adapters q.adaptersAddr links).toPayload, .hostAdapters),
        (some ((sflowCrHostCpuPack p addr q g cpu).toInput (by decide)).toPayload, .hostCpu),
        (some ((sflowCrHostMemoryPack p addr q g).toInput (by decide)).toPayload, .hostMemory),
        (some ((sflowCrHostDiskIoPack p addr q).toInput (by decide)).toPayload, .hostDiskIo),
        (some ((sflowCrHostNetIoPack p addr q g).toInput (by decide)).toPayload, .hostNetIo)]
  else .error .outOfBounds

/-- The payloads of the sample. -/
def hostphyPayloads : List (PayloadInput p) :=
  [(sflowCrHostDescrPack p addr q g).toInput hostDescr_ne,
    .adapters q.adaptersAddr (q.adapterLinks g),
    (sflowCrHostCpuPack p addr q g
      (walkCpus p (q.ncpus.getD 0) q.cpus g.bufBig {})).toInput (by decide),
    (sflowCrHostMemoryPack p addr q g).toInput (by decide),
    (sflowCrHostDiskIoPack p addr q).toInput (by decide),
    (sflowCrHostNetIoPack p addr q g).toInput (by decide)]

end Records

/-- What the packed structures take in a datagram. -/
theorem sizeof_packed (p : Platform) :
    ∀ x ∈ [(CrKind.ifGeneric, 88), (.hostDescr, 120), (.hostCpu, 68), (.hostMemory, 72),
      (.hostDiskIo, 52), (.hostNetIo, 40)], x.1.sizeof p = x.2 + p.psize := by
  have hsizeof : ∀ (d : StructDecl) (n : Nat), d.packed = true →
      d.fields.getLast? = some ("flat", .pointer) →
      (d.fields.dropLast.map (·.2.size p.toAbi)).sum = n → d.sizeof p.toAbi = n + p.psize :=
    fun d n hd hlast hn ↦ StructDecl.sizeof_eq_add p.toAbi hlast hd hn
  simp only [List.forall_mem_cons]
  exact ⟨hsizeof sflowCrIfGenericT _ rfl rfl (by simp [sflowCrIfGenericT, CType.size]),
    hsizeof sflowCrHostDescrT _ rfl rfl (by simp [sflowCrHostDescrT, CType.size]),
    hsizeof sflowCrHostCpuT _ rfl rfl (by simp [sflowCrHostCpuT, CType.size]),
    hsizeof sflowCrHostMemoryT _ rfl rfl (by simp [sflowCrHostMemoryT, CType.size]),
    hsizeof sflowCrHostDiskIoT _ rfl rfl (by simp [sflowCrHostDiskIoT, CType.size]),
    hsizeof sflowCrHostNetIoT _ rfl rfl (by simp [sflowCrHostNetIoT, CType.size]), by simp⟩

/-! ## Averages -/

section Averages

variable {p : Platform} {cpuNum : UInt32}

/-- The processors in front of the first one that has answered for its frequencies. -/
def silentCpus (cpus : List CpuAnswers) : Nat :=
  (cpus.takeWhile (·.supportedFrequencies.isNone)).length

/-- What the processors add to the average of the speed by the texts that have been read, each by
the last one, and none where there has been none. -/
def readSpeed (p : Platform) (cpuNum : UInt32) : Option CStr → List CpuAnswers → UInt32
  | _, [] => 0
  | text, a :: rest =>
      let text := a.supportedFrequencies.or text
      (text.map fun s => cpuShare p (atol p s.chars) cpuNum).getD 0 + readSpeed p cpuNum text rest

theorem silentCpus_le (cpus : List CpuAnswers) : silentCpus cpus ≤ cpus.length :=
  (List.takeWhile_prefix _).length_le

theorem silentCpus_eq_zero {cpus : List CpuAnswers} :
    silentCpus cpus = 0 ↔ ∀ a ∈ cpus.head?, a.supportedFrequencies.isSome := by
  cases cpus with
  | nil => simp [silentCpus]
  | cons a rest => cases h : a.supportedFrequencies <;> simp [silentCpus, h]

/-- A walk adds to what there is. -/
theorem cpuSpeed_walkCpus_add (cpus : List CpuAnswers) (bufBig : CStr) (h : CpuCounters) :
    (walkCpus p cpuNum cpus bufBig h).cpuSpeed =
      h.cpuSpeed + (walkCpus p cpuNum cpus bufBig {}).cpuSpeed := by
  induction cpus generalizing bufBig h with
  | nil => exact (UInt32.add_zero _).symm
  | cons a rest ih =>
      rw [walkCpus, walkCpus, ih, ih (h := CpuCounters.add p cpuNum {} a _)]
      simp only [CpuCounters.add, UInt32.zero_add, UInt32.add_assoc]

theorem cpuSpeed_walkCpus_eq_readSpeed (cpus : List CpuAnswers) (bufBig : CStr) :
    (walkCpus p cpuNum cpus bufBig {}).cpuSpeed = readSpeed p cpuNum (some bufBig) cpus := by
  induction cpus generalizing bufBig with
  | nil => rfl
  | cons a rest ih =>
      have htext : a.supportedFrequencies.or (some bufBig) =
          some (a.supportedFrequencies.getD bufBig) := by
        cases a.supportedFrequencies <;> rfl
      rw [walkCpus, cpuSpeed_walkCpus_add, ih, readSpeed, htext]
      simp only [CpuCounters.add, UInt32.zero_add, Option.map_some, Option.getD_some]

/-- Until a text is read, each processor adds the share of what lies in the buffer. -/
theorem cpuSpeed_walkCpus (cpus : List CpuAnswers) (bufBig : CStr) :
    (walkCpus p cpuNum cpus bufBig {}).cpuSpeed =
      UInt32.ofNat (silentCpus cpus) * cpuShare p (atol p bufBig.chars) cpuNum +
        readSpeed p cpuNum none cpus := by
  rw [cpuSpeed_walkCpus_eq_readSpeed]
  induction cpus with
  | nil =>
      change (0 : UInt32) = 0 * _ + 0
      rw [UInt32.zero_mul, UInt32.add_zero]
  | cons a rest ih =>
      rw [readSpeed, readSpeed]
      cases ha : a.supportedFrequencies with
      | none =>
          have hsilent : silentCpus (a :: rest) = silentCpus rest + 1 := by
            simp [silentCpus, ha]
          rw [hsilent, UInt32.ofNat_add, UInt32.add_mul]
          simp only [Option.none_or, Option.map_some, Option.getD_some, Option.map_none,
            Option.getD_none, UInt32.zero_add, ih]
          rw [← UInt32.add_assoc, UInt32.add_comm (cpuShare _ _ _)]
          congr 2
          exact (UInt32.one_mul _).symm
      | some text =>
          have hsilent : silentCpus (a :: rest) = 0 := by simp [silentCpus, ha]
          rw [hsilent]
          change _ = (0 : UInt32) * _ + _
          rw [UInt32.zero_mul, UInt32.zero_add]
          rfl

/-- The buffer shows in the speed alone. -/
theorem exists_walkCpus_eq (p : Platform) (cpuNum : UInt32) (cpus : List CpuAnswers) :
    ∃ base : CpuCounters, ∀ bufBig, walkCpus p cpuNum cpus bufBig {} =
      { base with
        cpuSpeed := UInt32.ofNat (silentCpus cpus) * cpuShare p (atol p bufBig.chars) cpuNum +
          readSpeed p cpuNum none cpus } := by
  have hrest : ∀ (cpus : List CpuAnswers) (bufBig bufBig' : CStr) (h h' : CpuCounters),
      { h with cpuSpeed := 0 } = { h' with cpuSpeed := 0 } →
        { walkCpus p cpuNum cpus bufBig h with cpuSpeed := 0 } =
          { walkCpus p cpuNum cpus bufBig' h' with cpuSpeed := 0 } := by
    intro cpus
    induction cpus with
    | nil => exact fun _ _ _ _ hh ↦ hh
    | cons a rest ih =>
        intro bufBig bufBig' h h' hh
        refine ih _ _ _ _ ?_
        simp only [CpuCounters.mk.injEq, CpuCounters.add, true_and] at hh ⊢
        obtain ⟨huser, hidle, hsystem, hintr, hwio, hinterrupts⟩ := hh
        rw [huser, hidle, hsystem, hintr, hwio, hinterrupts]
        exact ⟨rfl, rfl, rfl, rfl, rfl, rfl⟩
  refine ⟨walkCpus p cpuNum cpus .empty {}, fun bufBig ↦ ?_⟩
  have heq := hrest cpus bufBig .empty {} {} rfl
  rw [← cpuSpeed_walkCpus]
  simp only [CpuCounters.mk.injEq, true_and] at heq
  obtain ⟨huser, hidle, hsystem, hintr, hwio, hinterrupts⟩ := heq
  rw [← huser, ← hidle, ← hsystem, ← hintr, ← hwio, ← hinterrupts]

theorem asLong_zero (p : Platform) : asLong p 0 = 0 := by
  rw [asLong, Int.zero_bmod]

/-- The decimal text of a number. -/
def decimal (x : Int) : CStr where
  chars := itoa x
  nul_notMem h := by
    rcases mem_itoa h with h | h
    · exact absurd h (by decide)
    · exact absurd h (by decide)

theorem atol_decimal (x : Int) : atol p (decimal x).chars = asLong p x := by
  rw [atol, decimal, decimalValue_itoa]

theorem cpuShare_zero : cpuShare p 0 cpuNum = 0 := by
  rw [cpuShare]
  split
  · exact UInt32.zero_div
  · rw [Int.zero_tdiv]
    rfl

/-- Any share can be had, as long as the number it is the share of is a `long`. -/
theorem cpuShare_mul {v : Nat} (hn : 0 < cpuNum.toNat)
    (h₄ : p.psize = 4 → v * cpuNum.toNat < 2 ^ 32)
    (h₈ : p.psize = 8 → v * cpuNum.toNat < 2 ^ 63) :
    cpuShare p (asLong p (v * cpuNum.toNat : Nat)) cpuNum = UInt32.ofNat v := by
  rw [cpuShare]
  rcases p.psize_eq with hp | hp
  · have hmod : UInt32.ofInt (asLong p (v * cpuNum.toNat : Nat)) =
        UInt32.ofNat (v * cpuNum.toNat) := by
      have hword : ((v * cpuNum.toNat : Nat) : Int).bmod (2 ^ (8 * 4)) % 2 ^ 32 =
          (v * cpuNum.toNat : Nat) % 2 ^ 32 := Int.bmod_emod
      rw [asLong, hp, UInt32.ofInt, hword, ← UInt32.ofInt, ofInt_natCast]
    rw [if_pos hp, hmod]
    apply UInt32.toNat_inj.mp
    rw [UInt32.toNat_div, toNat_ofNat_of_lt (h₄ hp), Nat.mul_div_cancel _ hn,
      toNat_ofNat_of_lt (Nat.lt_of_le_of_lt (Nat.le_mul_of_pos_right v hn) (h₄ hp))]
  · have hlong : asLong p (v * cpuNum.toNat : Nat) = (v * cpuNum.toNat : Nat) := by
      have hlt := h₈ hp
      rw [asLong, hp]
      apply Int.bmod_eq_of_le <;> omega
    have hpos : (cpuNum.toNat : Int) ≠ 0 := by omega
    rw [if_neg (by omega), hlong, Int.natCast_mul, Int.mul_tdiv_cancel _ hpos, ofInt_natCast]

/-- The speed is steady exactly if the first processor there is has answered. -/
theorem steady_cpuSpeed {cpus : List CpuAnswers} (hcpus : cpus.length ≤ cpuNum.toNat)
    (rest : UInt32) :
    (Steady fun bufBig : CStr =>
      UInt32.ofNat (silentCpus cpus) * cpuShare p (atol p bufBig.chars) cpuNum + rest) ↔
      ∀ a ∈ cpus.head?, a.supportedFrequencies.isSome := by
  rw [← silentCpus_eq_zero]
  constructor
  · intro h
    by_contra hsilent
    have hle := silentCpus_le cpus
    have hlt := cpuNum.toNat_lt
    have hshare : cpuShare p (atol p (decimal (1 * cpuNum.toNat : Nat)).chars) cpuNum = 1 := by
      rw [atol_decimal, cpuShare_mul (by omega) (by omega) (by omega)]
      rfl
    have hnone : cpuShare p (atol p (decimal 0).chars) cpuNum = 0 := by
      rw [atol_decimal, asLong_zero, cpuShare_zero]
    have heq := (UInt32.add_left_inj rest).mp (h (decimal 0) (decimal (1 * cpuNum.toNat : Nat)))
    rw [hshare, hnone, UInt32.mul_zero, UInt32.mul_one] at heq
    have hnat := congrArg UInt32.toNat heq
    rw [toNat_ofNat_of_lt (by omega)] at hnat
    exact hsilent hnat.symm
  · intro h _ _
    change UInt32.ofNat (silentCpus cpus) * _ + rest = UInt32.ofNat (silentCpus cpus) * _ + rest
    rw [h]
    change (0 : UInt32) * _ + rest = 0 * _ + rest
    rw [UInt32.zero_mul, UInt32.zero_mul]

end Averages

/-! ## What is steady -/

/-- What the processors add up to for a statistic that is shared between `cpuNum` of them. -/
def vmShares (cpuNum : UInt32) (x : Nat → Option UInt64) : UInt32 :=
  (List.range cpuNum.toNat).foldl
    (fun n i => n + ((x i).getD 0 / cpuNum.toUInt64).toUInt32) 0

/-- The statistics of a link that are added up. -/
def LinkStat64.total : List LinkStat64 := [.rbytes64, .obytes64]

def LinkStat32.total : List LinkStat32 := [.ierrors, .oerrors, .ipackets, .opackets]

/-- The answers that make up for all that is unset. -/
structure HostAnswers.Complete (q : HostAnswers) : Prop where
  architecture : (q.architecture 0).isSome
  adapters : q.adapters = []
  loadavg : 3 ≤ q.loadavg.length
  bootKnown : q.upTime.BootKnown
  frequencies : ∀ a ∈ q.cpus.head?, a.supportedFrequencies.isSome
  /-- Or the number of processors does not matter. -/
  ncpusVm : q.ncpusVm.isSome ∨
    ∀ x ∈ [VmAnswers.pgpgin, VmAnswers.pgout, VmAnswers.swapin, VmAnswers.swapout],
      ∀ n, vmShares n (fun i => x (q.vm i)) = 0
  links : ∀ a ∈ q.links, a.Has LinkStat64.total LinkStat32.total

section Steady

variable {p : Platform} {q : HostAnswers}

theorem steady_sflowCrHostDescrFields :
    (Steady fun g => sflowCrHostDescrFields p q g) ↔ (q.architecture 0).isSome := by
  simp only [sflowCrHostDescrFields, steady_cons, steady_word, steady_const,
    steady_getHostPhysMachineType (Unset.surjective_tmp 0), true_and, and_true]

theorem steady_loadavg :
    (∀ i : Fin 3, Steady fun g : Unset => (q.loadavg[i.val]?).getD (g.loadavg i)) ↔
      3 ≤ q.loadavg.length := by
  have hiff : ∀ i : Fin 3, (Steady fun g : Unset => (q.loadavg[i.val]?).getD (g.loadavg i)) ↔
      i.val < q.loadavg.length := by
    intro i
    rw [steady_getD (Unset.surjective_loadavg i), isSome_getElem?]
  simp only [hiff]
  exact ⟨fun h ↦ h 2, fun h i ↦ by omega⟩

theorem steady_sflowCrHostCpuFields :
    (Steady fun g => sflowCrHostCpuFields p q g
      (walkCpus p (q.ncpus.getD 0) q.cpus g.bufBig {})) ↔
      3 ≤ q.loadavg.length ∧ q.upTime.BootKnown ∧
        ∀ a ∈ q.cpus.head?, a.supportedFrequencies.isSome := by
  obtain ⟨base, hbase⟩ := exists_walkCpus_eq p (q.ncpus.getD 0) q.cpus
  have hlen : q.cpus.length ≤ (q.ncpus.getD 0).toNat := by simp [HostAnswers.cpus]
  have hspeed := (steady_surjective Unset.surjective_bufBig).trans
    (steady_cpuSpeed (p := p) hlen (readSpeed p (q.ncpus.getD 0) none q.cpus))
  rw [← steady_loadavg]
  simp only [sflowCrHostCpuFields, hbase, steady_cons, steady_word, steady_const,
    steady_getUpTimeSec Unset.surjective_ret, hspeed, true_and, and_true]
  constructor
  · rintro ⟨h₀, h₁, h₂, hfreq, hboot⟩
    refine ⟨?_, hboot, hfreq⟩
    intro i
    match i with
    | 0 => exact h₀
    | 1 => exact h₁
    | 2 => exact h₂
  · rintro ⟨hload, hboot, hfreq⟩
    exact ⟨hload 0, hload 1, hload 2, hfreq, hboot⟩

/-- Each statistic is a sum of shares. -/
theorem walkCpuInstancesForMemCounters_eq (n : UInt32) :
    walkCpuInstancesForMemCounters q n =
      { pageIn := vmShares (q.ncpusVm.getD n) fun i => (q.vm i).pgpgin
        pageOut := vmShares (q.ncpusVm.getD n) fun i => (q.vm i).pgout
        swapIn := vmShares (q.ncpusVm.getD n) fun i => (q.vm i).swapin
        swapOut := vmShares (q.ncpusVm.getD n) fun i => (q.vm i).swapout } := by
  have hfold : ∀ (is : List Nat) (h : VmCounters) (share : Option UInt64 → UInt32),
      is.foldl (fun h i =>
        { pageIn := h.pageIn + share (q.vm i).pgpgin
          pageOut := h.pageOut + share (q.vm i).pgout
          swapIn := h.swapIn + share (q.vm i).swapin
          swapOut := h.swapOut + share (q.vm i).swapout }) h =
        { pageIn := is.foldl (fun n i => n + share (q.vm i).pgpgin) h.pageIn
          pageOut := is.foldl (fun n i => n + share (q.vm i).pgout) h.pageOut
          swapIn := is.foldl (fun n i => n + share (q.vm i).swapin) h.swapIn
          swapOut := is.foldl (fun n i => n + share (q.vm i).swapout) h.swapOut } := by
    intro is
    induction is with
    | nil => exact fun _ _ ↦ rfl
    | cons i is ih => exact fun h share ↦ ih _ share
  exact hfold _ _ fun x ↦ (x.getD 0 / (q.ncpusVm.getD n).toUInt64).toUInt32

theorem steady_vmShares {o : Option UInt32} {x : Nat → Option UInt64} :
    (Steady fun g : Unset => vmShares (o.getD g.cpuNum) x) ↔
      (o.isSome ∨ ∀ n, vmShares n x = 0) := by
  rw [steady_surjective (f := fun n => vmShares (o.getD n) x) Unset.surjective_cpuNum]
  cases o with
  | some n => exact ⟨fun _ ↦ .inl rfl, fun _ _ _ ↦ rfl⟩
  | none =>
      constructor
      · intro h
        right
        intro n
        exact h n 0
      · rintro (h | h)
        · cases h
        · exact fun n n' ↦ (h n).trans (h n').symm

theorem steady_sflowCrHostMemoryFields :
    (Steady fun g => sflowCrHostMemoryFields p q g) ↔
      (q.ncpusVm.isSome ∨
        ∀ x ∈ [VmAnswers.pgpgin, VmAnswers.pgout, VmAnswers.swapin, VmAnswers.swapout],
          ∀ n, vmShares n (fun i => x (q.vm i)) = 0) := by
  simp only [sflowCrHostMemoryFields, walkCpuInstancesForMemCounters_eq, getHostPhysMemBytes_eq,
    HostAnswers.memFree, getHostPhysPageSize_eq, steady_cons, steady_word, steady_const,
    steady_vmShares, true_and, and_true, List.forall_mem_cons, or_and_left]
  simp

/-- What the links of a walk add up to for some of their statistics. -/
def linkTotal {S α : Type} [Add α] (ask : LinkAnswers → S → Option α)
    (buffer : LinkBuffers → S → α) (stats : List S) (g : Unset) (acc : α)
    (links : List (LinkAnswers × Nat)) : α :=
  links.foldl (fun n x =>
    stats.foldl (fun n stat => n + (ask x.1 stat).getD (buffer (g.links x.2) stat)) n) acc

section Totals

variable {links : List LinkAnswers}

theorem steady_linkTotal64 {stats : List LinkStat64} (h : stats.Nodup) :
    (Steady fun g => linkTotal LinkAnswers.stat64 LinkBuffers.buffer64 stats g 0 links.zipIdx) ↔
      ∀ stat ∈ stats, ∀ a ∈ links, (a.stat64 stat).isSome := by
  refine (steady_foldl_zipIdx LinkAnswers.stat64 Unset.surjective_buffer64 h links 0).trans ?_
  exact ⟨fun h stat hstat a ha ↦ h a ha stat hstat, fun h a ha stat hstat ↦ h stat hstat a ha⟩

theorem steady_linkTotal32 {stats : List LinkStat32} (h : stats.Nodup) :
    (Steady fun g => linkTotal LinkAnswers.stat32 LinkBuffers.buffer32 stats g 0 links.zipIdx) ↔
      ∀ stat ∈ stats, ∀ a ∈ links, (a.stat32 stat).isSome := by
  refine (steady_foldl_zipIdx LinkAnswers.stat32 Unset.surjective_buffer32 h links 0).trans ?_
  exact ⟨fun h stat hstat a ha ↦ h a ha stat hstat, fun h a ha stat hstat ↦ h stat hstat a ha⟩

/-- The totals of a walk are made of all these statistics of all links. -/
theorem forall_has_total : (∀ a ∈ links, a.Has LinkStat64.total LinkStat32.total) ↔
    (∀ stat ∈ LinkStat64.total, ∀ a ∈ links, (a.stat64 stat).isSome) ∧
      ∀ stat ∈ LinkStat32.total, ∀ a ∈ links, (a.stat32 stat).isSome := by
  constructor
  · intro h
    exact ⟨fun stat hstat a ha ↦ (h a ha).1 stat hstat, fun stat hstat a ha ↦ (h a ha).2 stat hstat⟩
  · rintro ⟨h64, h32⟩ a ha
    exact ⟨fun stat hstat ↦ h64 stat hstat a ha, fun stat hstat ↦ h32 stat hstat a ha⟩

end Totals

/-- The packets that go out are counted as errors. -/
theorem sflowWalkLinks_eq (links : List LinkAnswers) (g : Unset) :
    sflowWalkLinks links g =
      { bytesIn := linkTotal LinkAnswers.stat64 LinkBuffers.buffer64 [.rbytes64] g 0 links.zipIdx
        bytesOut := linkTotal LinkAnswers.stat64 LinkBuffers.buffer64 [.obytes64] g 0 links.zipIdx
        errsIn := linkTotal LinkAnswers.stat32 LinkBuffers.buffer32 [.ierrors] g 0 links.zipIdx
        errsOut := linkTotal LinkAnswers.stat32 LinkBuffers.buffer32 [.oerrors, .opackets] g 0
          links.zipIdx
        pktsIn := linkTotal LinkAnswers.stat32 LinkBuffers.buffer32 [.ipackets] g 0
          links.zipIdx } := by
  have hfold : ∀ (xs : List (LinkAnswers × Nat)) (n : NetIo),
      xs.foldl (fun n x => sflowGatherLinkTotal n x.1 (g.links x.2)) n = NetIo.mk
        (linkTotal LinkAnswers.stat64 LinkBuffers.buffer64 [.rbytes64] g n.bytesIn xs)
        (linkTotal LinkAnswers.stat64 LinkBuffers.buffer64 [.obytes64] g n.bytesOut xs)
        (linkTotal LinkAnswers.stat32 LinkBuffers.buffer32 [.ierrors] g n.errsIn xs)
        (linkTotal LinkAnswers.stat32 LinkBuffers.buffer32 [.oerrors, .opackets] g n.errsOut xs)
        (linkTotal LinkAnswers.stat32 LinkBuffers.buffer32 [.ipackets] g n.pktsIn xs) := by
    intro xs
    induction xs with
    | nil => exact fun _ ↦ rfl
    | cons x xs ih => exact fun n ↦ ih _
  exact hfold _ _

theorem steady_sflowCrHostNetIoFields :
    (Steady fun g => sflowCrHostNetIoFields p q g) ↔
      ∀ a ∈ q.links, a.Has LinkStat64.total LinkStat32.total := by
  have hboth : [LinkStat32.oerrors, .opackets].Nodup := by decide
  rw [forall_has_total]
  simp only [sflowCrHostNetIoFields, sflowWalkLinks_eq, steady_cons, steady_word, steady_hyper,
    steady_const, steady_linkTotal64 (List.nodup_singleton _),
    steady_linkTotal32 (List.nodup_singleton _), steady_linkTotal32 hboth, LinkStat64.total,
    LinkStat32.total, List.forall_mem_cons, List.not_mem_nil, false_implies, implies_true]
  tauto

theorem length_adapterLinks (g : Unset) : (q.adapterLinks g).length = q.adapters.length := by
  rw [HostAnswers.adapterLinks, List.length_mapIdx]

/-- The end of the slot that `realloc` adds is never written. -/
theorem steady_adapters :
    (Steady fun g =>
      (PayloadInput.adapters q.adaptersAddr (q.adapterLinks g) : PayloadInput p).bytes) ↔
      q.adapters = [] := by
  constructor
  · intro h
    cases hadapters : q.adapters with
    | nil => rfl
    | cons a rest =>
        have hbytes := h .zero { Unset.zero with slot := fun _ ↦ Vector.replicate 2 1 }
        simp only [PayloadInput.bytes, HostAnswers.adapterLinks, hadapters, List.mapIdx_cons,
          List.length_cons, List.length_mapIdx, List.flatMap_cons, List.append_assoc] at hbytes
        have hslot := List.append_cancel_left (List.append_cancel_left
          (List.append_cancel_left hbytes))
        rw [Vector.toList_append, Vector.toList_append, List.append_assoc,
          List.append_assoc] at hslot
        have hfirst := List.append_inj_left (List.append_cancel_left hslot) (by simp)
        exact absurd hfirst (by decide)
  · intro h g g'
    have hnil : ∀ g, q.adapterLinks g = [] := by
      intro g
      rw [HostAnswers.adapterLinks, h, List.mapIdx_nil]
    dsimp only
    rw [hnil, hnil]

end Steady

end Sflow

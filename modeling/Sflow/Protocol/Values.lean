import Sflow.C.Fields
import Sflow.Protocol.Overwritten
import Sflow.Protocol.Polled

/-!
# The values in a sample

A record says by its format how it is to be read: as the fields of the structure declared
for it, one behind the other.  What a collector reads so from the sample of a polled source
are the values that were measured, except where the structure itself gets in the way: the
counters of a zone's links lie behind padding on some machines, and the description of a
zone has its name and number written over more than their fields.
-/

namespace Sflow

open C C.Reader

variable {R : Type} {p : Platform}

/-! ## Records read by their fields -/

namespace CrKind

def all : List CrKind :=
  [ifGeneric, hostDescr, hostAdapters, hostParent, hostCpu, hostMemory, hostDiskIo, hostNetIo,
    virtLeaf, virtCpu, virtMemory, virtNetIo, flowStat]

/-- The type of a record with these numbers. -/
def ofFormat (ent fmt : UInt32) : Option CrKind := all.find? fun k => k.ent = ent ∧ k.fmt = fmt

theorem ofFormat_ent_fmt (k : CrKind) : ofFormat k.ent k.fmt = some k := by
  cases k <;> decide

/-- The adapters are counted, and each has an index, a number of addresses and one of them. -/
def readAdapters : Reader FieldValues :=
  word.andThen fun n =>
    (many (fields (sflowCrHostAdapterT.fields ++ sflowCrHostAdapterMacT.fields)) n.toNat).andThen
      fun adapters => ret (("has_count", .word n) :: adapters.flatten)

/-- The fields of a record, up to the pointer that its structure ends with. -/
def readFields (k : CrKind) : Reader FieldValues :=
  match k.decl with
  | some d => fields d.fields.dropLast
  | none => if k = hostAdapters then readAdapters else fail

end CrKind

/-- The type of a record and the values of its fields.  What follows them is not looked at. -/
def DecodedRecord.values (r : DecodedRecord) : Option (CrKind × FieldValues) :=
  match CrKind.ofFormat r.ent r.fmt with
  | some k => (k.readFields r.payload).map fun x => (k, x.1)
  | none => none

theorem DecodedRecord.values_sent {i : PayloadInput p} {bs rest : List UInt8} {vs : FieldValues}
    (hreads : Reads i.kind.readFields bs vs) (hbytes : i.bytes = bs ++ rest) :
    i.sent.values = some (i.kind, vs) := by
  simp only [values, PayloadInput.sent, CrKind.ofFormat_ent_fmt, hbytes, hreads rest,
    Option.map_some]

/-! ## Structures -/

section Leaf

variable {abi : Abi} {d : StructDecl}

/-- What is copied out of a structure starts with its fields. -/
theorem exists_take_image_eq {f : String × CType} (hf : d.fields.getLast? = some f)
    {us : List (List UInt8)} (hus : StructDecl.Fits abi d.fields.dropLast us) (v : List UInt8) :
    ∃ rest, (d.image abi (us ++ [v])).take (d.sizeof abi - f.2.size abi) =
      d.imageFrom abi 0 d.fields.dropLast us ++ rest := by
  have hend := StructDecl.endFrom_le_sizeof_sub abi hf
  have hlen := StructDecl.length_imageFrom abi d 0 hus
  have himage : d.imageFrom abi 0 d.fields (us ++ [v]) =
      d.imageFrom abi 0 d.fields.dropLast us ++
        d.imageFrom abi (d.endFrom abi 0 d.fields.dropLast) [f] [v] := by
    rw [← StructDecl.imageFrom_append abi d 0 hus, ← StructDecl.fields_eq hf]
  rw [Nat.zero_add] at hlen
  rw [StructDecl.image, himage, List.append_assoc, List.take_append,
    List.take_of_length_le (by rwa [hlen])]
  exact ⟨_, rfl⟩

/-- There is nothing between the fields of a structure up to the last one. -/
def StructDecl.Contiguous (abi : Abi) (d : StructDecl) : Prop :=
  d.endFrom abi 0 d.fields.dropLast = 0 + StructDecl.sizes abi d.fields.dropLast

instance : Decidable (StructDecl.Contiguous abi d) := inferInstanceAs (Decidable (_ = _))

end Leaf

/-- Padding comes in front of a 64-bit field of one of the structures, if at all. -/
theorem CrKind.contiguous_iff {abi : Abi} {k : CrKind} {d : StructDecl} (h : k.decl = some d) :
    StructDecl.Contiguous abi d ↔ k ≠ .virtNetIo ∨ abi.hyperAlign = 4 := by
  obtain ⟨psize, hyperAlign, rfl | rfl, rfl | rfl⟩ := abi <;> cases k <;> cases h <;> decide

/-- The values of a structure that was filled with them are read, if nothing lies in between. -/
theorem LeafImage.values_sent (addr : CrKind → FlatAddr p) {k : CrKind} {image : LeafImage p k}
    (hk : k ≠ .hostAdapters) {d : StructDecl} (hdecl : k.decl = some d) {vs : FieldValues}
    (htypes : d.fields = vs.types ++ [("flat", .pointer)]) {us : List (List UInt8)}
    (hus : us = vs.map fun v => v.2.wire)
    (himage : image.1 = d.image p.toAbi (us ++ [(addr k).toList]))
    (hpadding : k ≠ .virtNetIo ∨ p.hyperAlign = 4) :
    (image.toInput hk).sent.values = some (k, vs) := by
  have hfront : d.fields.dropLast = vs.types := by rw [htypes, List.dropLast_concat]
  have hlast : d.fields.getLast? = some ("flat", .pointer) := by
    rw [htypes, List.getLast?_append, List.getLast?_singleton, Option.some_or]
  have hfits := vs.fits p.toAbi
  rw [← hfront] at hfits
  obtain ⟨rest, hrest⟩ := exists_take_image_eq hlast hfits (addr k).toList
  have hflatten := StructDecl.imageFrom_eq_flatten hfits
    ((CrKind.contiguous_iff hdecl).mpr hpadding)
  have hbytes : (image.toInput hk).bytes = vs.wire ++ rest := by
    have hcut : (image.toInput hk).bytes = image.1.take (d.sizeof p.toAbi - p.psize) :=
      congrArg (fun n => image.1.take (n - p.psize)) (CrKind.sizeof_of_decl hdecl)
    rw [hcut, himage, hus]
    rw [hflatten] at hrest
    exact hrest
  have hreads : Reads (image.toInput hk).kind.readFields vs.wire vs := by
    change Reads k.readFields vs.wire vs
    rw [CrKind.readFields, hdecl]
    change Reads (fields d.fields.dropLast) vs.wire vs
    rw [hfront]
    exact reads_fields vs
  exact DecodedRecord.values_sent hreads hbytes

/-! ## What is measured -/

section Measured

variable (p) (source : SflowSource) (q : HostAnswers) (sys : ZoneSystem) (g : Unset)

/-- An interface.  Four of its counters are not known. -/
def ifGenericValues (ifgDatalink : UInt32) (a : LinkAnswers) (b : LinkBuffers) : FieldValues :=
  let unknown : FieldValue := .word 0xFFFFFFFF
  let stat32 (stat : LinkStat32) : FieldValue := .word (sflowGetLinkStat32 a b stat)
  let stat64 (stat : LinkStat64) : FieldValue := .hyper (sflowGetLinkStat64 a b stat)
  [("ifIndex", .word ifgDatalink), ("ifType", .word (UInt32.ofNat source.ssIdType)),
    ("ifSpeed", stat64 .ifspeed), ("ifDirection", stat32 .linkDuplex),
    ("ifStatus", stat32 .linkState), ("ifInOctets", stat64 .rbytes64), ("ifInUcastPkts", unknown),
    ("ifInMulticastPkts", stat32 .multircv), ("ifInBroadcastPkts", stat32 .brdcstrcv),
    ("ifInDiscards", unknown), ("ifInErrors", stat32 .ierrors),
    ("ifInUnknownProtos", stat32 .unknowns), ("ifOutOctets", stat64 .obytes64),
    ("ifOutUcastPkts", unknown), ("ifOutMulticastPkts", stat32 .multixmt),
    ("ifOutBroadcastPkts", stat32 .brdcstxmt), ("ifOutDiscards", unknown),
    ("ifOutErrors", stat32 .oerrors), ("ifPromiscuousMode", .word 1)]

/-- The description of a host with this name, number and type of machine. -/
def hostDescrValues (name uuid : List UInt8) (machineType : UInt32) (release : Vector UInt8 28) :
    FieldValues :=
  [("hd_name_len", .word 60), ("hd_name", .chars name), ("hd_uuid", .chars uuid),
    ("hd_machine_type", .word machineType), ("hd_os_name", .word 12),
    ("hd_os_release_len", .word 28), ("hd_os_release", .chars release.toList)]

def hostAdapterValues (di : AdapterLink) : FieldValues :=
  [("ha_ifIndex", .word di.diLinkid), ("ha_mac_count", .word di.valcnt),
    ("ha_mac", .chars di.mac.toList)]

def hostAdaptersValues (links : List AdapterLink) : FieldValues :=
  ("has_count", .word (UInt32.ofNat links.length)) :: (links.map hostAdapterValues).flatten

/-- The processors and the load of the host.  Three counters are not asked for. -/
def hostCpuValues (cpu : CpuCounters) : FieldValues :=
  let loadavg (i : Fin 3) : FieldValue := .word ((q.loadavg[i.val]?).getD (g.loadavg i))
  let proc := countProcess q.procdir
  ["hc_load_one_float", "hc_load_five_float", "hc_load_fifteen_float"].zip (List.ofFn loadavg) ++
    [("hc_proc_run", .word proc.2), ("hc_proc_total", .word proc.1),
      ("hc_cpu_num", .word (q.ncpus.getD 0)), ("hc_cpu_speed", .word cpu.cpuSpeed),
      ("hc_uptime", .word (getUpTimeSec q.upTime g.ret)), ("hc_cpu_user", .word cpu.cpuUser),
      ("hc_cpu_nice", .word 0), ("hc_cpu_system", .word cpu.cpuSystem),
      ("hc_cpu_idle", .word cpu.cpuIdle), ("hc_cpu_wio", .word cpu.cpuWio),
      ("hc_cpu_intr", .word cpu.cpuIntr), ("hc_cpu_sintr", .word 0),
      ("hc_interrupts", .word cpu.interrupts), ("hc_contexts", .word 0)]

def hostMemoryValues : FieldValues :=
  let vm := walkCpuInstancesForMemCounters q g.cpuNum
  let swap := walkSwapInstancesForMemCounters p q
  [("hm_total", .hyper (getHostPhysMemBytes q.physmem (q.architecture 1) (g.tmp 1))),
    ("hm_free", .hyper (q.memFree g)), ("hm_shared", .hyper 0), ("hm_buffers", .hyper 0),
    ("hm_cached", .hyper 0), ("hm_swap_total", .hyper swap.1), ("hm_swap_free", .hyper swap.2),
    ("hm_page_in", .word vm.pageIn), ("hm_page_out", .word vm.pageOut),
    ("hm_swap_in", .word vm.swapIn), ("hm_swap_out", .word vm.swapOut)]

def hostNetIoValues : FieldValues :=
  let i := sflowWalkLinks q.links g
  [("hnio_bytes_in", .hyper i.bytesIn), ("hnio_pkts_in", .word i.pktsIn),
    ("hnio_errs_in", .word i.errsIn), ("hnio_drops_in", .word 0),
    ("hnio_bytes_out", .hyper i.bytesOut), ("hnio_pkts_out", .word 0),
    ("hnio_errs_out", .word i.errsOut), ("hnio_drops_out", .word 0)]

/-- The name of a zone, and its number behind as much of the serial number as the name is
long. -/
def zoneDescrValues : FieldValues :=
  hostDescrValues (charBytes source.ssName ++ List.replicate (60 - source.ssName.length) 0)
    (splice sys.serial.toList source.ssName.length (charBytes (itoa source.zoneId) ++ [0]))
    sys.machineType sys.release

def hostParentValues : FieldValues :=
  [("hp_container_type", .word 2), ("hp_container_index", .word 0)]

def virtLeafValues : FieldValues :=
  [("vn_mhz", .word (sys.cpuSpeed / 1000000)), ("vn_cpus", .word sys.cpuNum),
    ("vn_memory", .hyper sys.physMem), ("vn_memory_free", .hyper sys.memFree),
    ("vn_num_domains", .word (sys.numZones - 1))]

/-- The state of a zone and the time it has run.  The number of its processors is not told. -/
def virtCpuValues : FieldValues :=
  let usage := ((sflowGetZoneStat sys source.ssName).map (·.cpu)).getD sys.cpuBuf
  [("vc_state", .word ((sys.zoneGetattr source.zoneId .status).getD 0).toUInt32),
    ("vc_cpuTime", .word (sys.upTime * usage / 10000)), ("vc_nrVirtCpu", .word 0)]

/-- The memory of a zone, which may take up all there is if there is no cap to it. -/
def virtMemoryValues : FieldValues :=
  let cap := (sys.zoneGetattr source.zoneId .physMcap).getD 0
  [("vm_memory", .hyper (((sflowGetZoneStat sys source.ssName).map (·.ramRss)).getD 0)),
    ("vm_maxMemory", .hyper (if cap = 0 then sys.physMem else cap))]

def virtNetIoValues (n : LinkStat) : FieldValues :=
  [("vnio_rx_bytes", .hyper n.rbytes), ("vnio_rx_packets", .word n.ipackets),
    ("vnio_rx_errs", .word n.ierrors), ("vnio_rx_drop", .word 0),
    ("vnio_tx_bytes", .hyper n.obytes), ("vnio_tx_packets", .word n.opackets),
    ("vnio_tx_errs", .word n.oerrors), ("vnio_tx_drop", .word 0)]

end Measured

/-! ## The values in the records -/

theorem wordBytes_zero (e : Endian) : wordBytes e 0 = beBytes 4 0 := by
  cases e <;> rfl

theorem hyperBytes_zero (e : Endian) : hyperBytes e 0 = beBytes 8 0 := by
  cases e <;> rfl

section Values

variable {addr : CrKind → FlatAddr p} {source : SflowSource} {q : HostAnswers} {sys : ZoneSystem}
  {g : Unset}

theorem values_sflowCounterGenericPack (ifgDatalink : UInt32) (a : LinkAnswers) (b : LinkBuffers) :
    ((sflowCounterGenericPack p addr source ifgDatalink a b).toInput (by decide)).sent.values =
      some (.ifGeneric, ifGenericValues source ifgDatalink a b) := by
  have hfields : sflowCounterGenericFields p source ifgDatalink a b =
      (ifGenericValues source ifgDatalink a b).map fun v => v.2.wire := by
    simp [sflowCounterGenericFields, ifGenericValues, FieldValue.wire, sflowUnkown]
  exact LeafImage.values_sent addr (by decide) rfl rfl hfields rfl (.inl (by decide))

theorem values_sflowCrHostDescrPack :
    ((sflowCrHostDescrPack p addr q g).toInput hostDescr_ne).sent.values =
      some (.hostDescr, hostDescrValues q.hostname.toList q.serial.toList
        (getHostPhysMachineType (q.architecture 0) (g.tmp 0)) q.release) := by
  have hfields : sflowCrHostDescrFields p q g =
      (hostDescrValues q.hostname.toList q.serial.toList
        (getHostPhysMachineType (q.architecture 0) (g.tmp 0)) q.release).map
          fun v => v.2.wire := by
    simp [sflowCrHostDescrFields, hostDescrValues, FieldValue.wire]
  have htypes : sflowCrHostDescrT.fields = (hostDescrValues q.hostname.toList q.serial.toList
      (getHostPhysMachineType (q.architecture 0) (g.tmp 0)) q.release).types ++
        [("flat", .pointer)] := by
    simp [sflowCrHostDescrT, hostDescrValues, FieldValues.types, FieldValue.type]
  exact LeafImage.values_sent addr hostDescr_ne rfl htypes hfields rfl (.inl (by decide))

theorem values_sflowCrHostCpuPack (cpu : CpuCounters) :
    ((sflowCrHostCpuPack p addr q g cpu).toInput (by decide)).sent.values =
      some (.hostCpu, hostCpuValues q g cpu) := by
  have hfields : sflowCrHostCpuFields p q g cpu =
      (hostCpuValues q g cpu).map fun v => v.2.wire := by
    simp [sflowCrHostCpuFields, hostCpuValues, FieldValue.wire, wordBytes_zero]
  exact LeafImage.values_sent addr (by decide) rfl rfl hfields rfl (.inl (by decide))

theorem values_sflowCrHostMemoryPack :
    ((sflowCrHostMemoryPack p addr q g).toInput (by decide)).sent.values =
      some (.hostMemory, hostMemoryValues p q g) := by
  have hfields : sflowCrHostMemoryFields p q g =
      (hostMemoryValues p q g).map fun v => v.2.wire := by
    simp [sflowCrHostMemoryFields, hostMemoryValues, FieldValue.wire, hyperBytes_zero]
  exact LeafImage.values_sent addr (by decide) rfl rfl hfields rfl (.inl (by decide))

theorem values_sflowCrHostNetIoPack :
    ((sflowCrHostNetIoPack p addr q g).toInput (by decide)).sent.values =
      some (.hostNetIo, hostNetIoValues q g) := by
  have hfields : sflowCrHostNetIoFields p q g =
      (hostNetIoValues q g).map fun v => v.2.wire := by
    simp [sflowCrHostNetIoFields, hostNetIoValues, FieldValue.wire]
  exact LeafImage.values_sent addr (by decide) rfl rfl hfields rfl (.inl (by decide))

theorem values_sflowCrHostParentPackV :
    ((sflowCrHostParentPackV p addr).toInput (by decide)).sent.values =
      some (.hostParent, hostParentValues) := by
  have hfields : [wordBytes p.endian (htonl p.endian 2), wordBytes p.endian (htonl p.endian 0)] =
      hostParentValues.map fun v => v.2.wire := by
    simp [hostParentValues, FieldValue.wire]
  exact LeafImage.values_sent addr (by decide) rfl rfl hfields rfl (.inl (by decide))

theorem values_sflowCrVirtNodePack :
    ((sflowCrVirtNodePack p sys addr).toInput (by decide)).sent.values =
      some (.virtLeaf, virtLeafValues sys) := by
  have hfields : [wordBytes p.endian (htonl p.endian (sys.cpuSpeed / 1000000)),
      wordBytes p.endian (htonl p.endian sys.cpuNum),
      hyperBytes p.endian (htonH p.endian sys.physMem),
      hyperBytes p.endian (htonH p.endian sys.memFree),
      wordBytes p.endian (htonl p.endian (sys.numZones - 1))] =
        (virtLeafValues sys).map fun v => v.2.wire := by
    simp [virtLeafValues, FieldValue.wire]
  exact LeafImage.values_sent addr (by decide) rfl rfl hfields rfl (.inl (by decide))

theorem wordBytes_ntohl (e : Endian) (x : UInt32) : wordBytes e (ntohl e x) = beBytes 4 x.toNat :=
  wordBytes_htonl e x

/-- Without the state there is no record. -/
theorem values_sflowCrVirtCpuPack {vc : LeafImage p .virtCpu}
    (h : sflowCrVirtCpuPack p sys addr source = some vc) :
    (vc.toInput (by decide)).sent.values = some (.virtCpu, virtCpuValues source sys) := by
  obtain ⟨vcState, hstate, h⟩ := Option.bind_eq_some_iff.mp h
  obtain ⟨vcpus, -, h⟩ := Option.bind_eq_some_iff.mp h
  have hfields : [wordBytes p.endian (ntohl p.endian vcState.toUInt32),
      wordBytes p.endian (ntohl p.endian (sys.upTime *
        ((sflowGetZoneStat sys source.ssName).map (·.cpu)).getD sys.cpuBuf / 10000)),
      wordBytes p.endian (ntohl p.endian 0)] =
        (virtCpuValues source sys).map fun v => v.2.wire := by
    simp [virtCpuValues, FieldValue.wire, wordBytes_ntohl, hstate]
  cases h
  exact LeafImage.values_sent addr (by decide) rfl rfl hfields rfl (.inl (by decide))

theorem values_sflowCrVirtMemoryPack {vm : LeafImage p .virtMemory}
    (h : sflowCrVirtMemoryPack p sys addr source = some vm) :
    (vm.toInput (by decide)).sent.values = some (.virtMemory, virtMemoryValues source sys) := by
  obtain ⟨cap, hcap, h⟩ := Option.bind_eq_some_iff.mp h
  have hfields : [hyperBytes p.endian (htonH p.endian
        (((sflowGetZoneStat sys source.ssName).map (·.ramRss)).getD 0)),
      hyperBytes p.endian (htonH p.endian (if cap = 0 then sys.physMem else cap))] =
        (virtMemoryValues source sys).map fun v => v.2.wire := by
    simp [virtMemoryValues, FieldValue.wire, hcap]
  cases h
  exact LeafImage.values_sent addr (by decide) rfl rfl hfields rfl (.inl (by decide))

/-- One adapter after the other is read. -/
theorem values_adapters (adaptersAddr : Nat) {links : List AdapterLink}
    (h : links.length < 2 ^ 32) :
    (PayloadInput.adapters adaptersAddr links : PayloadInput p).sent.values =
      some (.hostAdapters, hostAdaptersValues links) := by
  have hcount := toNat_ofNat_of_lt h
  have htypes : ∀ di, (hostAdapterValues di).types =
      sflowCrHostAdapterT.fields ++ sflowCrHostAdapterMacT.fields := by
    intro di
    simp [hostAdapterValues, FieldValues.types, FieldValue.type, sflowCrHostAdapterT,
      sflowCrHostAdapterMacT]
  have hlinks : Reads (many (fields (sflowCrHostAdapterT.fields ++ sflowCrHostAdapterMacT.fields))
      links.length) (links.flatMap fun di => (hostAdapterValues di).wire)
        (links.map hostAdapterValues) := by
    refine reads_many fun di _ ↦ ?_
    rw [← htypes di]
    exact reads_fields _
  have hreads : Reads CrKind.readAdapters (beBytes 4 (UInt32.ofNat links.length).toNat ++
      links.flatMap fun di => (hostAdapterValues di).wire) (hostAdaptersValues links) := by
    refine (reads_word _).andThen ?_
    rw [hcount]
    exact hlinks.andThen_ret _
  have hbytes : (PayloadInput.adapters adaptersAddr links : PayloadInput p).bytes =
      (beBytes 4 (UInt32.ofNat links.length).toNat ++
        links.flatMap fun di => (hostAdapterValues di).wire) ++ [] := by
    rw [hcount, List.append_nil, PayloadInput.bytes]
    simp [hostAdapterValues, FieldValues.wire, FieldValue.wire]
  exact DecodedRecord.values_sent hreads hbytes

/-! ## Two records that are not always read -/

/-- The field behind the padding and those behind it are read four bytes too early. -/
def shiftedNetIoValues (n : LinkStat) : FieldValues :=
  [("vnio_rx_bytes", .hyper n.rbytes), ("vnio_rx_packets", .word n.ipackets),
    ("vnio_rx_errs", .word n.ierrors), ("vnio_rx_drop", .word 0),
    ("vnio_tx_bytes", .hyper (n.obytes >>> 32)), ("vnio_tx_packets", .word n.obytes.toUInt32),
    ("vnio_tx_errs", .word n.opackets), ("vnio_tx_drop", .word n.oerrors)]

theorem toNat_shiftRight_32 (x : UInt64) : (x >>> 32).toNat = x.toNat / 256 ^ 4 := by
  rw [UInt64.toNat_shiftRight, Nat.shiftRight_eq_div_pow]
  rfl

theorem shiftedNetIoValues_eq_iff (n : LinkStat) :
    shiftedNetIoValues n = virtNetIoValues n ↔
      n.obytes = 0 ∧ n.opackets = 0 ∧ n.oerrors = 0 := by
  simp only [shiftedNetIoValues, virtNetIoValues, List.cons.injEq, Prod.mk.injEq, true_and,
    and_true, FieldValue.word.injEq, FieldValue.hyper.injEq]
  constructor
  · rintro ⟨hbytes, hpackets, herrors, hdrop⟩
    have hzero : n.obytes = 0 := by
      have hnat := congrArg UInt64.toNat hbytes
      rw [toNat_shiftRight_32] at hnat
      apply UInt64.toNat_inj.mp
      change n.obytes.toNat = 0
      omega
    rw [hzero] at hpackets
    exact ⟨hzero, hpackets.symm, hdrop⟩
  · rintro ⟨hbytes, hpackets, herrors⟩
    rw [hbytes, hpackets, herrors]
    decide

/-- The padding and a 64-bit integer behind it are one integer and a word. -/
theorem beBytes_shifted (x : UInt64) :
    List.replicate 4 (0 : UInt8) ++ beBytes 8 x.toNat =
      beBytes 8 (x >>> 32).toNat ++ beBytes 4 x.toUInt32.toNat := by
  have hzero : x.toNat / 256 ^ 4 / 256 ^ 4 = 0 := by
    have hlt := x.toNat_lt
    omega
  have hword : x.toUInt32.toNat = x.toNat % 256 ^ 4 := UInt64.toNat_toUInt32 x
  rw [toNat_shiftRight_32, hword, beBytes_mod, beBytes_add 4 4 (x.toNat / 256 ^ 4), hzero,
    beBytes_add 4 4, List.append_assoc]
  rfl

theorem virtNetIoFields_eq (e : Endian) (n : LinkStat) :
    [hyperBytes e (htonH e n.rbytes), wordBytes e (htonl e n.ipackets),
      wordBytes e (htonl e n.ierrors), wordBytes e 0, hyperBytes e (htonH e n.obytes),
      wordBytes e (htonl e n.opackets), wordBytes e (htonl e n.oerrors), wordBytes e 0] =
        (virtNetIoValues n).map fun v => v.2.wire := by
  simp [virtNetIoValues, FieldValue.wire, wordBytes_zero]

/-- Where a 64-bit integer is aligned to eight bytes, what is read is shifted. -/
theorem values_sflowCrVirtNetIoPack_padded (hpadded : p.hyperAlign = 8) :
    ((sflowCrVirtNetIoPack p sys addr source).toInput (by decide)).sent.values =
      some (.virtNetIo, shiftedNetIoValues (gatherZoneLinkTotal (sys.links source.zoneId))) := by
  let n := gatherZoneLinkTotal (sys.links source.zoneId)
  have hfits := (virtNetIoValues n).fits p.toAbi
  obtain ⟨rest, hrest⟩ :=
    exists_take_image_eq (d := sflowCrVirtNetIoT) (f := ("flat", .pointer)) rfl hfits
      (addr .virtNetIo).toList
  have hbytes : ((sflowCrVirtNetIoPack p sys addr source).toInput (by decide)).bytes =
      sflowCrVirtNetIoT.imageFrom p.toAbi 0 sflowCrVirtNetIoT.fields.dropLast
        ((virtNetIoValues n).map fun v => v.2.wire) ++ rest := by
    rw [← hrest, ← virtNetIoFields_eq p.endian]
    rfl
  -- the padding is in front of the bytes that go out
  have himage : sflowCrVirtNetIoT.imageFrom p.toAbi 0 sflowCrVirtNetIoT.fields.dropLast
      ((virtNetIoValues n).map fun v => v.2.wire) =
        (shiftedNetIoValues n).wire ++ beBytes 4 0 := by
    have hshift := congrArg (· ++ (beBytes 4 n.opackets.toNat ++ (beBytes 4 n.oerrors.toNat ++
      beBytes 4 0))) (beBytes_shifted n.obytes)
    simpa [sflowCrVirtNetIoT, virtNetIoValues, shiftedNetIoValues, FieldValues.wire,
      FieldValue.wire, StructDecl.imageFrom, StructDecl.fieldAlign, CType.align, CType.size,
      hpadded, alignUp] using hshift
  rw [himage, List.append_assoc] at hbytes
  have hreads : Reads CrKind.virtNetIo.readFields (shiftedNetIoValues n).wire
      (shiftedNetIoValues n) := reads_fields (shiftedNetIoValues n)
  exact DecodedRecord.values_sent hreads hbytes

/-- The counters of a zone's links are read on the machines without the padding, and otherwise if
nothing has gone out. -/
theorem values_sflowCrVirtNetIoPack_iff :
    ((sflowCrVirtNetIoPack p sys addr source).toInput (by decide)).sent.values =
        some (.virtNetIo, virtNetIoValues (gatherZoneLinkTotal (sys.links source.zoneId))) ↔
      p.hyperAlign = 4 ∨ (gatherZoneLinkTotal (sys.links source.zoneId)).obytes = 0 ∧
        (gatherZoneLinkTotal (sys.links source.zoneId)).opackets = 0 ∧
        (gatherZoneLinkTotal (sys.links source.zoneId)).oerrors = 0 := by
  let n := gatherZoneLinkTotal (sys.links source.zoneId)
  rcases p.hyperAlign_eq with halign | halign
  · have hvalues : ((sflowCrVirtNetIoPack p sys addr source).toInput (by decide)).sent.values =
        some (.virtNetIo, virtNetIoValues n) :=
      LeafImage.values_sent addr (by decide) rfl rfl (virtNetIoFields_eq p.endian n) rfl
        (.inr halign)
    exact ⟨fun _ ↦ .inl halign, fun _ ↦ hvalues⟩
  · rw [values_sflowCrVirtNetIoPack_padded halign, Option.some.injEq, Prod.mk.injEq,
      and_iff_right rfl, shiftedNetIoValues_eq_iff]
    refine ⟨.inr, fun h ↦ h.resolve_left ?_⟩
    omega

/-- What follows the serial number in the description of a host. -/
def descrTail (sys : ZoneSystem) : List UInt8 :=
  beBytes 4 sys.machineType.toNat ++ (beBytes 4 12 ++ (beBytes 4 28 ++ sys.release.toList))

theorem hostDescrBytes_eq_append :
    hostDescrBytes p addr sys = beBytes 4 60 ++ (List.replicate 60 0 ++
      (sys.serial.toList ++ (descrTail sys ++ (addr .hostDescr).toList))) := by
  have hfits : C.StructDecl.Fits p.toAbi sflowCrHostDescrT.fields
      [wordBytes p.endian (htonl p.endian 60), List.replicate 60 0, sys.serial.toList,
        wordBytes p.endian (htonl p.endian sys.machineType), wordBytes p.endian (htonl p.endian 12),
        wordBytes p.endian (htonl p.endian 28), sys.release.toList, (addr .hostDescr).toList] :=
    StructDecl.fits_of_lengths p.toAbi (by simp [sflowCrHostDescrT, CType.size])
  refine (StructDecl.image_eq_flatten hfits (StructDecl.sizeof_of_packed p.toAbi rfl)).trans ?_
  simp [descrTail]

/-- The name and the number each stay in their field. -/
theorem take_zoneDescrBytes
    (h : source.ssName.length + (itoa source.zoneId).length + 1 ≤ 16) :
    (zoneDescrBytes p addr source sys).take 120 = (zoneDescrValues source sys).wire := by
  let name := charBytes source.ssName
  let number := charBytes (itoa source.zoneId) ++ [0]
  let back := descrTail sys ++ (addr .hostDescr).toList
  have hname : name.length = source.ssName.length := length_charBytes _
  have hnumber : number.length = (itoa source.zoneId).length + 1 := length_number source
  have hzeros : splice (List.replicate 60 0) 0 name =
      name ++ List.replicate (60 - source.ssName.length) 0 := by
    rw [splice, List.take_zero, List.nil_append, Nat.zero_add, List.drop_replicate, hname]
  let front := beBytes 4 60 ++ (name ++ List.replicate (60 - source.ssName.length) 0)
  have hfront : front.length = 64 := by
    simp only [front, List.length_append, beBytes_length, List.length_replicate, hname]
    omega
  have hwithName : splice (hostDescrBytes p addr sys) 4 name =
      front ++ (sys.serial.toList ++ back) := by
    have hpart : splice (beBytes 4 60 ++ (List.replicate 60 0 ++ (sys.serial.toList ++ back)))
        ((beBytes 4 60).length + 0) name =
          beBytes 4 60 ++ (splice (List.replicate 60 0) 0 name ++ (sys.serial.toList ++ back)) := by
      apply splice_part
      rw [List.length_replicate]
      omega
    rw [beBytes_length, Nat.add_zero, hzeros] at hpart
    rw [hostDescrBytes_eq_append, hpart]
    simp only [front, List.append_assoc]
  have hroom : source.ssName.length + number.length ≤ sys.serial.toList.length := by
    rw [Vector.length_toList]
    omega
  have hwithNumber : splice (splice (hostDescrBytes p addr sys) 4 name)
      (64 + source.ssName.length) number =
        front ++ (splice sys.serial.toList source.ssName.length number ++ back) := by
    rw [hwithName, ← hfront, splice_part hroom]
  have hserial : (splice sys.serial.toList source.ssName.length number).length = 16 := by
    rw [length_splice hroom, Vector.length_toList]
  have htail : (descrTail sys).length = 40 := by simp [descrTail]
  have hcut : ∀ (bs src : List UInt8), bs.length = 120 → ∀ rest,
      (splice (bs ++ rest) 120 src).take 120 = bs := by
    intro bs src hbs rest
    rw [splice, ← hbs, List.take_left, List.append_assoc, List.take_left]
  have hall : front ++ (splice sys.serial.toList source.ssName.length number ++ back) =
      (front ++ (splice sys.serial.toList source.ssName.length number ++ descrTail sys)) ++
        (addr .hostDescr).toList := by
    simp only [back, List.append_assoc]
  rw [zoneDescrBytes, hwithNumber, hall, hcut _ _ (by
    simp only [List.length_append, hfront, hserial, htail])]
  simp [front, descrTail, zoneDescrValues, hostDescrValues, FieldValues.wire, FieldValue.wire,
    name, number]

/-- The description of a zone is read exactly if its number ends within the serial number. -/
theorem values_zoneDescr_iff (hfits : DescrFits p source) :
    ((zoneDescr addr hfits sys).toInput (by decide)).sent.values =
        some (.hostDescr, zoneDescrValues source sys) ↔
      source.ssName.length + (itoa source.zoneId).length + 1 ≤ 16 := by
  have hnumber := length_number source
  have hserial : sys.serial.toList.length = 16 := Vector.length_toList
  have hreader : CrKind.hostDescr.readFields = fields sflowCrHostDescrT.fields.dropLast := rfl
  constructor
  · intro h
    have htypes : (zoneDescrValues source sys).types = sflowCrHostDescrT.fields.dropLast := by
      obtain ⟨x, hread, hvalues⟩ := Option.map_eq_some_iff.mp h
      obtain ⟨vs, rest⟩ := x
      rw [Prod.mk.injEq, and_iff_right rfl] at hvalues
      obtain ⟨_, -, hvs⟩ := consumes_fields _ _ _ _ hread
      rw [← hvalues]
      exact hvs
    have huuid : (splice sys.serial.toList source.ssName.length
        (charBytes (itoa source.zoneId) ++ [0])).length = 16 := by
      have hfield := congrArg (fun fs => fs[2]?) htypes
      simpa [zoneDescrValues, hostDescrValues, FieldValues.types, FieldValue.type,
        sflowCrHostDescrT] using hfield
    rw [splice, List.length_append, List.length_append, List.length_take, List.length_drop,
      hserial, hnumber] at huuid
    omega
  · intro h
    have hcut : CrKind.hostDescr.sizeof p - p.psize = 120 := by
      rw [sizeof_hostDescr, Nat.add_sub_cancel]
    have hbytes : ((zoneDescr addr hfits sys).toInput (by decide)).bytes =
        (zoneDescrValues source sys).wire ++ [] := by
      rw [List.append_nil, ← take_zoneDescrBytes h]
      exact congrArg (List.take · (zoneDescrBytes p addr source sys)) hcut
    have hname : (charBytes source.ssName ++
        List.replicate (60 - source.ssName.length) 0).length = 60 := by
      rw [List.length_append, length_charBytes, List.length_replicate]
      omega
    have huuid : (splice sys.serial.toList source.ssName.length
        (charBytes (itoa source.zoneId) ++ [0])).length = 16 := by
      rw [length_splice, hserial]
      omega
    have htypes : sflowCrHostDescrT.fields.dropLast = (zoneDescrValues source sys).types := by
      simp only [zoneDescrValues, hostDescrValues, FieldValues.types, FieldValue.type,
        List.map_cons, List.map_nil, hname, huuid, Vector.length_toList]
      rfl
    have hreads := reads_fields (zoneDescrValues source sys)
    rw [← htypes, ← hreader] at hreads
    exact DecodedRecord.values_sent hreads hbytes

end Values

/-! ## Samples of polled sources -/

/-- A sample of payloads is flattened to bytes from which they are read back. -/
theorem SampleInput.emits_and_reads {m : Memory R} (hm : m.Intact) {source : SflowSource}
    {payloads : List (PayloadInput p)} {sizes : List Nat}
    (hsizes : payloads.map PayloadInput.size = sizes)
    (hlt : 12 + (sizes.map (8 + ·)).sum < 2 ^ 32)
    (hoff : StartsBelow (2 ^ 31) (sizes.map (8 + ·)) 12) :
    let i : SampleInput p R := .counter source payloads
    Emits (sflowSampleFlat m i.packed) (i.packed.wire m) ∧
      Reads readSample (i.packed.wire m) (i.sent m) := by
  intro i
  have hsize : i.size < 2 ^ 32 := by rwa [SampleInput.size_of_sizes hsizes]
  have hfree : i.ReadableAfterFree m := fun j _ ↦ PayloadInput.readableAfterFree_of_intact hm j
  have hfit : i.OffsetsFit := (SampleInput.offsetsFit_of_sizes hsizes).mpr hoff
  exact ⟨SflowSp.emits (flattens_packed hsize hfit trivial hfree), reads_packed hsize trivial⟩

/-- The sample of a zone, by the structures in its records. -/
theorem ZoneAnswers.exists_sample_eq {z : ZoneAnswers} {source : SflowSource}
    (h : z.Emitted p source) (addr : CrKind → FlatAddr p) (g : Unset) :
    ∃ vc vm, sflowCrVirtCpuPack p (z.measured p g) addr source = some vc ∧
      sflowCrVirtMemoryPack p (z.measured p g) addr source = some vm ∧
      z.sample (R := R) p addr source g = .ok ((SampleInput.counter source
        [(zoneDescr addr h.descr (z.measured p g)).toInput (by decide),
          (sflowCrHostParentPackV p addr).toInput (by decide),
          (sflowCrVirtNodePack p (z.measured p g) addr).toInput (by decide),
          vc.toInput (by decide), vm.toInput (by decide),
          (sflowCrVirtNetIoPack p (z.measured p g) addr source).toInput (by decide)]).packed,
        { source with ssCount := source.ssCount + 1 }) := by
  have hcpu : (sflowCrVirtCpuPack p (z.measured p g) addr source).isSome :=
    sflowCrVirtCpuPack_isSome.mpr ⟨h.attrs .status, h.attrs .vcpus⟩
  have hmem : (sflowCrVirtMemoryPack p (z.measured p g) addr source).isSome :=
    sflowCrVirtMemoryPack_isSome.mpr (h.attrs .physMcap)
  obtain ⟨vc, hvc⟩ := Option.isSome_iff_exists.mp hcpu
  obtain ⟨vm, hvm⟩ := Option.isSome_iff_exists.mp hmem
  refine ⟨vc, vm, hvc, hvm, ?_⟩
  have hsystem : z.system g (walkCpus p (z.host.ncpus.getD 0) z.host.cpus g.bufBig {}) =
      z.measured p g := rfl
  rw [ZoneAnswers.sample, walkCpuInstancesForCpuCounters, if_pos h.cpuBuffers, ok_bind, hsystem,
    getSampleHostv, sflowCrHostDescrPackV_eq h.descr, ok_bind, hvc, hvm]
  exact SampleInput.counterSample_eq source
    (show ([_, _, _, _, _, _] : List (PayloadInput p)).length < 2 ^ 32 by simp)

namespace PolledAnswers

variable (p) (source : SflowSource) (g : Unset)

/-- The records of a sample, with the values that are measured for them.  The disks are filled
with random bytes. -/
def values : PolledAnswers → List (CrKind × Option FieldValues)
  | ifgeneric ifgDatalink a =>
      [(.ifGeneric, some (ifGenericValues source ifgDatalink a (g.links 0)))]
  | hostphy q =>
      [(.hostDescr, some (hostDescrValues q.hostname.toList q.serial.toList
          (getHostPhysMachineType (q.architecture 0) (g.tmp 0)) q.release)),
        (.hostAdapters, some (hostAdaptersValues (q.adapterLinks g))),
        (.hostCpu, some (hostCpuValues q g
          (walkCpus p (q.ncpus.getD 0) q.cpus g.bufBig {}))),
        (.hostMemory, some (hostMemoryValues p q g)), (.hostDiskIo, none),
        (.hostNetIo, some (hostNetIoValues q g))]
  | hostv z =>
      let sys := z.measured p g
      [(.hostDescr, some (zoneDescrValues source sys)), (.hostParent, some hostParentValues),
        (.virtLeaf, some (virtLeafValues sys)), (.virtCpu, some (virtCpuValues source sys)),
        (.virtMemory, some (virtMemoryValues source sys)),
        (.virtNetIo, some (virtNetIoValues (gatherZoneLinkTotal (z.linkStats g))))]

/-- When the values of a record are read: always, but for two records of a zone. -/
def Legible : PolledAnswers → CrKind → Prop
  | hostv _, .hostDescr => source.ssName.length + (itoa source.zoneId).length + 1 ≤ 16
  | hostv z, .virtNetIo => p.hyperAlign = 4 ∨ (gatherZoneLinkTotal (z.linkStats g)).obytes = 0 ∧
      (gatherZoneLinkTotal (z.linkStats g)).opackets = 0 ∧
      (gatherZoneLinkTotal (z.linkStats g)).oerrors = 0
  | _, _ => True

/-- A record is of its type, and the values in it are those that were measured exactly if it is
legible. -/
def Tells (x : PolledAnswers) (r : DecodedRecord) (v : CrKind × Option FieldValues) : Prop :=
  CrKind.ofFormat r.ent r.fmt = some v.1 ∧
    ∀ vs ∈ v.2, (r.values = some (v.1, vs) ↔ x.Legible p source g v.1)

variable {p source g}

theorem tells_sent {x : PolledAnswers} {i : PayloadInput p} {vs : FieldValues}
    (h : i.sent.values = some (i.kind, vs) ↔ x.Legible p source g i.kind) :
    x.Tells p source g i.sent (i.kind, some vs) := by
  refine ⟨CrKind.ofFormat_ent_fmt i.kind, fun vs' hvs ↦ ?_⟩
  rw [← Option.some.inj hvs]
  exact h

theorem tells_of_eq {x : PolledAnswers} {i : PayloadInput p} {vs : FieldValues}
    (h : i.sent.values = some (i.kind, vs)) (hlegible : x.Legible p source g i.kind) :
    x.Tells p source g i.sent (i.kind, some vs) :=
  tells_sent (iff_of_true h hlegible)

section Samples

variable {addr : CrKind → FlatAddr p} {ifgDatalink : UInt32} {a : LinkAnswers} {q : HostAnswers}
  {z : ZoneAnswers}

theorem tells_ifgeneric : List.Forall₂ ((ifgeneric ifgDatalink a).Tells p source g)
    ([(sflowCounterGenericPack p addr source ifgDatalink a (g.links 0)).toInput (by decide)].map
      (·.sent)) ((ifgeneric ifgDatalink a).values p source g) :=
  .cons (tells_of_eq (values_sflowCounterGenericPack ifgDatalink a _) trivial) .nil

theorem tells_hostphy (hlen : q.adapters.length < 2 ^ 28) :
    List.Forall₂ ((hostphy q).Tells p source g)
      ((hostphyPayloads p addr q g).map (·.sent)) ((hostphy q).values p source g) := by
  have hlinks : (q.adapterLinks g).length < 2 ^ 32 := by
    rw [length_adapterLinks]
    omega
  have hdisk : (hostphy q).Tells p source g
      ((sflowCrHostDiskIoPack p addr q).toInput (by decide)).sent (.hostDiskIo, none) :=
    ⟨CrKind.ofFormat_ent_fmt .hostDiskIo, nofun⟩
  exact .cons (tells_of_eq values_sflowCrHostDescrPack trivial) <|
    .cons (tells_of_eq (values_adapters _ hlinks) trivial) <|
    .cons (tells_of_eq (values_sflowCrHostCpuPack _) trivial) <|
    .cons (tells_of_eq values_sflowCrHostMemoryPack trivial) <|
    .cons hdisk <| .cons (tells_of_eq values_sflowCrHostNetIoPack trivial) .nil

theorem tells_hostv (h : DescrFits p source) {vc : LeafImage p .virtCpu}
    {vm : LeafImage p .virtMemory}
    (hvc : sflowCrVirtCpuPack p (z.measured p g) addr source = some vc)
    (hvm : sflowCrVirtMemoryPack p (z.measured p g) addr source = some vm) :
    List.Forall₂ ((hostv z).Tells p source g)
      ([(zoneDescr addr h (z.measured p g)).toInput (by decide),
        (sflowCrHostParentPackV p addr).toInput (by decide),
        (sflowCrVirtNodePack p (z.measured p g) addr).toInput (by decide),
        vc.toInput (by decide), vm.toInput (by decide),
        (sflowCrVirtNetIoPack p (z.measured p g) addr source).toInput (by decide)].map (·.sent))
      ((hostv z).values p source g) :=
  .cons (tells_sent (values_zoneDescr_iff h)) <|
    .cons (tells_of_eq values_sflowCrHostParentPackV trivial) <|
    .cons (tells_of_eq values_sflowCrVirtNodePack trivial) <|
    .cons (tells_of_eq (values_sflowCrVirtCpuPack hvc) trivial) <|
    .cons (tells_of_eq (values_sflowCrVirtMemoryPack hvm) trivial) <|
    .cons (tells_sent values_sflowCrVirtNetIoPack_iff) .nil

end Samples

/-- The sample is made, with a structure in each of its records, and an `int` counts its bytes up
to the last record. -/
def Emitted (p : Platform) (source : SflowSource) : PolledAnswers → Prop
  | ifgeneric .. => True
  | hostphy q => q.Emitted
  | hostv z => z.Emitted p source

/-- The sizes of the records. -/
def sizes (p : Platform) : PolledAnswers → List Nat
  | ifgeneric .. => [88]
  | hostphy q => [120, 4 + 16 * q.adapters.length, 68, 72, 52, 40]
  | hostv _ => zoneSizes p

theorem emitted_of_flat {addr : CrKind → FlatAddr p} {x : PolledAnswers} {m : Memory R}
    (hm : m.Intact) {buf : Buf} {start : Nat} {r : Buf × Nat}
    (hflat : (do sflowSampleFlat m (← x.sample (R := R) p addr source g).1 buf start) = .ok r) :
    x.Emitted p source := by
  cases x with
  | ifgeneric => trivial
  | hostphy q => exact HostAnswers.emitted_of_flat hm hflat
  | hostv z => exact ZoneAnswers.emitted_of_flat hflat

theorem Emitted.sum_sizes_lt {x : PolledAnswers} (h : x.Emitted p source) :
    12 + ((x.sizes p).map (8 + ·)).sum < 2 ^ 32 := by
  cases x with
  | ifgeneric => simp [sizes]
  | hostphy q =>
      have hoff := h.offsets
      simp only [sizes, List.map_cons, List.map_nil, List.sum_cons, List.sum_nil]
      omega
  | hostv z => exact Nat.lt_trans (sum_zoneSizes_lt p) (by decide)

theorem Emitted.startsBelow {x : PolledAnswers} (h : x.Emitted p source) :
    StartsBelow (2 ^ 31) ((x.sizes p).map (8 + ·)) 12 := by
  cases x with
  | ifgeneric => exact ⟨by decide, trivial⟩
  | hostphy q => exact (startsBelow_hostphySizes _).mpr h.offsets
  | hostv z => exact StartsBelow.of_sum_lt (sum_zoneSizes_lt p)

/-- The payloads of a sample, which tell what was measured. -/
theorem Emitted.exists_payloads {x : PolledAnswers} (h : x.Emitted p source)
    (addr : CrKind → FlatAddr p) (g : Unset) :
    ∃ payloads : List (PayloadInput p),
      x.sample (R := R) p addr source g = .ok ((SampleInput.counter source payloads).packed,
        { source with ssCount := source.ssCount + 1 }) ∧
      payloads.map PayloadInput.size = x.sizes p ∧
      List.Forall₂ (x.Tells p source g) (payloads.map (·.sent)) (x.values p source g) := by
  cases x with
  | ifgeneric ifgDatalink a =>
      let image := sflowCounterGenericPack p addr source ifgDatalink a (g.links 0)
      let payloads : List (PayloadInput p) := [image.toInput (by decide)]
      have hsizes : payloads.map PayloadInput.size = [88] := by
        simp only [payloads, List.map_cons, List.map_nil,
          size_toInput _ _ (sizeof_packed p (.ifGeneric, 88) (by decide))]
      exact ⟨payloads, SampleInput.counterSample_eq source
        (show payloads.length < 2 ^ 32 by simp [payloads]), hsizes, tells_ifgeneric⟩
  | hostphy q =>
      exact ⟨_, getSampleHostphy_eq h.cpuBuffers h.length_lt g, sizes_hostphyPayloads g,
        tells_hostphy h.length_lt⟩
  | hostv z =>
      obtain ⟨vc, vm, hvc, hvm, hsample⟩ := ZoneAnswers.exists_sample_eq (R := R) h addr g
      exact ⟨_, hsample, rfl, tells_hostv h.descr hvc hvm⟩

/-- Whatever is polled: where a sample is flattened at all, its bytes are read back, and in each of
its records exactly the values that were measured, in the order and under the names in which they
are declared, as far as the record is legible. -/
theorem values_read (addr : CrKind → FlatAddr p) (x : PolledAnswers) {m : Memory R}
    (hm : m.Intact) {buf : Buf} {start : Nat} {r : Buf × Nat}
    (hflat : (do sflowSampleFlat m (← x.sample (R := R) p addr source g).1 buf start) = .ok r) :
    ∃ sp bytes d, x.sample (R := R) p addr source g =
        .ok (sp, { source with ssCount := source.ssCount + 1 }) ∧
      Emits (sflowSampleFlat m sp) bytes ∧ Reads readSample bytes d ∧ d.kind = .counter ∧
      List.Forall₂ (x.Tells p source g) d.records (x.values p source g) := by
  have hemitted := emitted_of_flat hm hflat
  obtain ⟨payloads, hsample, hsizes, htells⟩ := hemitted.exists_payloads addr g
  obtain ⟨hemits, hreads⟩ :=
    SampleInput.emits_and_reads hm hsizes hemitted.sum_sizes_lt hemitted.startsBelow
  exact ⟨_, _, _, hsample, hemits, hreads, rfl, htells⟩

/-- A zone that is running and may use one page. -/
def running : ZoneAnswers :=
  { ZoneAnswers.silent with
    zoneGetattr := fun _ attr => some (if attr = .physMcap then 4096 else 1) }

/-- Nothing has gone out over its links, so all of its records are legible. -/
theorem values_read_running :
    ∃ sp bytes d, (hostv running).sample (R := List UInt8) .amd64 (fun _ => Vector.replicate 8 1)
        .web .zero = .ok (sp, { SflowSource.web with ssCount := SflowSource.web.ssCount + 1 }) ∧
      Emits (sflowSampleFlat ⟨id, fun _ ↦ .ok⟩ sp) bytes ∧ Reads readSample bytes d ∧
      d.kind = .counter ∧
      List.Forall₂ ((hostv running).Tells .amd64 .web .zero) d.records
        ((hostv running).values .amd64 .web .zero) := by
  let run : Except Fault (Buf × Nat) := do
    let r ← (hostv running).sample (R := List UInt8) .amd64 (fun _ => Vector.replicate 8 1) .web
      .zero
    sflowSampleFlat ⟨id, fun _ ↦ .ok⟩ r.1 (Buf.calloc 512) 0
  have hok : run.isOk = true := by decide +kernel
  cases hr : run with
  | error e =>
      rw [hr] at hok
      cases hok
  | ok r => exact values_read _ _ (fun _ _ ↦ rfl) hr

end PolledAnswers

end Sflow

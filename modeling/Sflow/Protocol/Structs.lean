import Sflow.C.Buffer
import Sflow.C.Layout
import Sflow.C.Word

/-!
# The structures of the protocol

The declarations of `sflow_protocol_branches.h` and of the leaf headers, field by
field, and what the formats of the counter records are called.
-/

namespace Sflow

open C

/-- The machine the daemon runs on, and what it was built with. -/
structure Platform extends Abi where
  endian : Endian
  /-- `sizeof (sflow_cr_flow_stat_t)`; its header is not part of the repository. -/
  flowStatSize : Nat
  /-- `sflow_agent_ip_v4` as `inet_pton` converts it. -/
  agentIp : Vector UInt8 4
  /-- The structure ends with the pointer to its `flat` function. -/
  psize_le_flowStatSize : psize ≤ flowStatSize

/-- A 64-bit little-endian machine, for examples. -/
def Platform.amd64 : Platform where
  psize := 8
  hyperAlign := 8
  psize_eq := .inr rfl
  hyperAlign_eq := .inr rfl
  endian := .little
  flowStatSize := 40
  agentIp := #v[127, 0, 0, 1]
  psize_le_flowStatSize := by decide

/-- A 32-bit little-endian machine, for examples. -/
def Platform.i386 : Platform where
  psize := 4
  hyperAlign := 4
  psize_eq := .inl rfl
  hyperAlign_eq := .inl rfl
  endian := .little
  flowStatSize := 36
  agentIp := #v[127, 0, 0, 1]
  psize_le_flowStatSize := by decide

/-- What flattening finds in memory besides the structures themselves. -/
structure Memory (R : Type) where
  /-- The bytes behind a packet reference. -/
  deref : R → List UInt8
  /-- What a read of `has_len` gives once the record at an address, whose length it was, has been
  freed.  That is for the allocator to say, for each record anew, and it may be a fault. -/
  hasLenAfterFree : Nat → UInt32 → Except Fault UInt32

/-- Read `n` bytes through a packet reference. -/
def Memory.read {R : Type} (m : Memory R) (r : R) (n : Nat) : Except Fault (List UInt8) :=
  if n ≤ (m.deref r).length then .ok ((m.deref r).take n) else .error .outOfBounds

def sflowVer : UInt32 := 5

def sflowIpver : Nat := 4

def sflowDummy (p : Platform) : UInt32 := htonl p.endian 52

def sflowUnkown (p : Platform) : UInt32 := htonl p.endian 0xFFFFFFFF

/-! ## Branches -/

def sflowCrT : StructDecl :=
  ⟨true, [("scr_dfmt", .word), ("scr_len", .word), ("scr_data", .pointer), ("flat", .pointer)]⟩

def sflowFrT : StructDecl :=
  ⟨true, [("sfr_dfmt", .word), ("sfr_len", .word), ("sfr_data", .pointer), ("flat", .pointer)]⟩

def sflowCsT : StructDecl :=
  ⟨true, [("scs_seq_no", .word), ("scs_dsrc", .word), ("scs_count", .word), ("flat", .pointer)]⟩

def sflowFsT : StructDecl :=
  ⟨true, [("sfs_seq_no", .word), ("sfs_dsrc", .word), ("sfs_rate", .word), ("sfs_pool", .word),
    ("sfs_drops", .word), ("input_if", .word), ("output_if", .word), ("sfs_count", .word),
    ("flat", .pointer)]⟩

def sflowSpT : StructDecl :=
  ⟨true, [("ssp_dfmt", .word), ("len", .word), ("data", .pointer), ("flat", .pointer)]⟩

def sflowDgT : StructDecl :=
  ⟨true, [("sflow_ver", .word), ("ip_ver", .word), ("ip_addr", .chars 16),
    ("sub_agent_id", .word), ("dg_seq", .word), ("up_time", .word), ("sample_num", .word),
    ("flat", .pointer)]⟩

/-! ## Leaves -/

def sflowFrRawPktHeaderT : StructDecl :=
  ⟨true, [("fr_header_protocol", .word), ("fr_frame_length", .word), ("fr_stripped", .word),
    ("fr_header_size", .word), ("fr_header", .pointer), ("flat", .pointer)]⟩

def sflowCrIfGenericT : StructDecl :=
  ⟨true, [("ifIndex", .word), ("ifType", .word), ("ifSpeed", .hyper), ("ifDirection", .word),
    ("ifStatus", .word), ("ifInOctets", .hyper), ("ifInUcastPkts", .word),
    ("ifInMulticastPkts", .word), ("ifInBroadcastPkts", .word), ("ifInDiscards", .word),
    ("ifInErrors", .word), ("ifInUnknownProtos", .word), ("ifOutOctets", .hyper),
    ("ifOutUcastPkts", .word), ("ifOutMulticastPkts", .word), ("ifOutBroadcastPkts", .word),
    ("ifOutDiscards", .word), ("ifOutErrors", .word), ("ifPromiscuousMode", .word),
    ("flat", .pointer)]⟩

def sflowCrHostDescrT : StructDecl :=
  ⟨true, [("hd_name_len", .word), ("hd_name", .chars 60), ("hd_uuid", .chars 16),
    ("hd_machine_type", .word), ("hd_os_name", .word), ("hd_os_release_len", .word),
    ("hd_os_release", .chars 28), ("flat", .pointer)]⟩

def sflowCrHostAdapterMacT : StructDecl := ⟨true, [("ha_mac", .chars 8)]⟩

def sflowCrHostAdapterT : StructDecl := ⟨true, [("ha_ifIndex", .word), ("ha_mac_count", .word)]⟩

def sflowCrHostAdaptersT : StructDecl :=
  ⟨true, [("flat", .pointer), ("has_len", .word), ("has_count", .word)]⟩

def sflowCrHostParentT : StructDecl :=
  ⟨true, [("hp_container_type", .word), ("hp_container_index", .word), ("flat", .pointer)]⟩

def sflowCrHostCpuT : StructDecl :=
  ⟨true, [("hc_load_one_float", .word), ("hc_load_five_float", .word),
    ("hc_load_fifteen_float", .word), ("hc_proc_run", .word), ("hc_proc_total", .word),
    ("hc_cpu_num", .word), ("hc_cpu_speed", .word), ("hc_uptime", .word), ("hc_cpu_user", .word),
    ("hc_cpu_nice", .word), ("hc_cpu_system", .word), ("hc_cpu_idle", .word),
    ("hc_cpu_wio", .word), ("hc_cpu_intr", .word), ("hc_cpu_sintr", .word),
    ("hc_interrupts", .word), ("hc_contexts", .word), ("flat", .pointer)]⟩

def sflowCrHostMemoryT : StructDecl :=
  ⟨true, [("hm_total", .hyper), ("hm_free", .hyper), ("hm_shared", .hyper),
    ("hm_buffers", .hyper), ("hm_cached", .hyper), ("hm_swap_total", .hyper),
    ("hm_swap_free", .hyper), ("hm_page_in", .word), ("hm_page_out", .word),
    ("hm_swap_in", .word), ("hm_swap_out", .word), ("flat", .pointer)]⟩

def sflowCrHostDiskIoT : StructDecl :=
  ⟨true, [("hd_total", .hyper), ("hd_free", .hyper), ("hd_part_max_used", .word),
    ("hd_reads", .word), ("hd_bytes_read", .hyper), ("hd_read_time", .word),
    ("hd_writes", .word), ("hd_bytes_written", .hyper), ("hd_write_time", .word),
    ("flat", .pointer)]⟩

def sflowCrHostNetIoT : StructDecl :=
  ⟨true, [("hnio_bytes_in", .hyper), ("hnio_pkts_in", .word), ("hnio_errs_in", .word),
    ("hnio_drops_in", .word), ("hnio_bytes_out", .hyper), ("hnio_pkts_out", .word),
    ("hnio_errs_out", .word), ("hnio_drops_out", .word), ("flat", .pointer)]⟩

def sflowCrVirtLeafT : StructDecl :=
  ⟨false, [("vn_mhz", .word), ("vn_cpus", .word), ("vn_memory", .hyper),
    ("vn_memory_free", .hyper), ("vn_num_domains", .word), ("flat", .pointer)]⟩

def sflowCrVirtCpuT : StructDecl :=
  ⟨false, [("vc_state", .word), ("vc_cpuTime", .word), ("vc_nrVirtCpu", .word),
    ("flat", .pointer)]⟩

def sflowCrVirtMemoryT : StructDecl :=
  ⟨false, [("vm_memory", .hyper), ("vm_maxMemory", .hyper), ("flat", .pointer)]⟩

def sflowCrVirtNetIoT : StructDecl :=
  ⟨false, [("vnio_rx_bytes", .hyper), ("vnio_rx_packets", .word), ("vnio_rx_errs", .word),
    ("vnio_rx_drop", .word), ("vnio_tx_bytes", .hyper), ("vnio_tx_packets", .word),
    ("vnio_tx_errs", .word), ("vnio_tx_drop", .word), ("flat", .pointer)]⟩

/-- The types of counter records. -/
inductive CrKind where
  | ifGeneric
  | hostDescr
  | hostAdapters
  | hostParent
  | hostCpu
  | hostMemory
  | hostDiskIo
  | hostNetIo
  | virtLeaf
  | virtCpu
  | virtMemory
  | virtNetIo
  | flowStat
deriving DecidableEq, Repr

namespace CrKind

/-- The enterprise number of a record. -/
def ent : CrKind → UInt32
  | flowStat => 52
  | _ => 0

/-- The format number of a record. -/
def fmt : CrKind → UInt32
  | ifGeneric => 1
  | hostDescr => 2000
  | hostAdapters => 2001
  | hostParent => 2002
  | hostCpu => 2003
  | hostMemory => 2004
  | hostDiskIo => 2005
  | hostNetIo => 2006
  | virtLeaf => 2100
  | virtCpu => 2101
  | virtMemory => 2102
  | virtNetIo => 2104
  | flowStat => 52

theorem ent_lt (k : CrKind) : k.ent.toNat < 2 ^ 12 := by cases k <;> decide

theorem fmt_lt (k : CrKind) : k.fmt.toNat < 2 ^ 20 := by cases k <;> decide

/-- `sizeof` of the structure of a record. -/
def sizeof (p : Platform) : CrKind → Nat
  | ifGeneric => sflowCrIfGenericT.sizeof p.toAbi
  | hostDescr => sflowCrHostDescrT.sizeof p.toAbi
  | hostAdapters => sflowCrHostAdaptersT.sizeof p.toAbi
  | hostParent => sflowCrHostParentT.sizeof p.toAbi
  | hostCpu => sflowCrHostCpuT.sizeof p.toAbi
  | hostMemory => sflowCrHostMemoryT.sizeof p.toAbi
  | hostDiskIo => sflowCrHostDiskIoT.sizeof p.toAbi
  | hostNetIo => sflowCrHostNetIoT.sizeof p.toAbi
  | virtLeaf => sflowCrVirtLeafT.sizeof p.toAbi
  | virtCpu => sflowCrVirtCpuT.sizeof p.toAbi
  | virtMemory => sflowCrVirtMemoryT.sizeof p.toAbi
  | virtNetIo => sflowCrVirtNetIoT.sizeof p.toAbi
  | flowStat => p.flowStatSize

end CrKind

end Sflow

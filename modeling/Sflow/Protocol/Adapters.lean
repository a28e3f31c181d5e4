import Sflow.Protocol.Wire

/-!
# Host adapters

`sflow_cr_host_adapters_pack`: the record of variable size, grown by one adapter
on every call of `sflow_gather_adapter` from the walk over the datalinks.
-/

namespace Sflow

open C

/-- What the walk finds out about one datalink. -/
structure AdapterLink where
  diLinkid : UInt32
  /-- The number of values of the property `mac-address`. -/
  valcnt : UInt32
  /-- The slot of the address: six bytes from the property, two that `realloc` left there. -/
  mac : Vector UInt8 8
deriving DecidableEq

/-- One adapter more.  During the walk `has_count` is in host order. -/
def sflowGatherAdapter (p : Platform) (a : SflowCrHostAdapters) (di : AdapterLink) :
    SflowCrHostAdapters where
  hasLen := 4 + (a.hasCount + 1) *
    UInt32.ofNat (sflowCrHostAdapterT.sizeof p.toAbi + sflowCrHostAdapterMacT.sizeof p.toAbi)
  hasCount := a.hasCount + 1
  adapters := a.adapters ++
    [⟨htonl p.endian di.diLinkid, htonl p.endian di.valcnt, di.mac⟩]

def sflowCrHostAdaptersPack (p : Platform) (links : List AdapterLink) : SflowCrHostAdapters :=
  let a := links.foldl (sflowGatherAdapter p) ⟨4, 0, []⟩
  { a with hasCount := htonl p.endian a.hasCount }

variable {p : Platform}

theorem foldl_sflowGatherAdapter (links : List AdapterLink) (n : Nat)
    (ads : List SflowCrHostAdapter) :
    links.foldl (sflowGatherAdapter p) ⟨UInt32.ofNat (4 + 16 * n), UInt32.ofNat n, ads⟩ =
      ⟨UInt32.ofNat (4 + 16 * (n + links.length)), UInt32.ofNat (n + links.length),
        ads ++ links.map fun di =>
          ⟨htonl p.endian di.diLinkid, htonl p.endian di.valcnt, di.mac⟩⟩ := by
  induction links generalizing n ads with
  | nil => simp
  | cons di links ih =>
      have hsize : sflowCrHostAdapterT.sizeof p.toAbi + sflowCrHostAdapterMacT.sizeof p.toAbi
          = 16 := by
        rw [StructDecl.sizeof_of_packed _ rfl, StructDecl.sizeof_of_packed _ rfl]
        rfl
      have hlen : (4 : UInt32) + (UInt32.ofNat n + 1) * UInt32.ofNat 16 =
          UInt32.ofNat (4 + 16 * (n + 1)) := by
        rw [UInt32.ofNat_add, Nat.mul_comm, UInt32.ofNat_mul, UInt32.ofNat_add]
        rfl
      have hcount : UInt32.ofNat n + 1 = UInt32.ofNat (n + 1) := (UInt32.ofNat_add n 1).symm
      rw [List.foldl_cons, sflowGatherAdapter, hsize, hlen, hcount, ih]
      simp only [List.length_cons, List.map_cons, List.append_assoc, List.singleton_append,
        Nat.add_assoc, Nat.add_comm 1]

/-- The record that the walk leaves behind. -/
theorem sflowCrHostAdaptersPack_eq (links : List AdapterLink) :
    sflowCrHostAdaptersPack p links =
      ⟨UInt32.ofNat (4 + 16 * links.length), htonl p.endian (UInt32.ofNat links.length),
        links.map fun di => ⟨htonl p.endian di.diLinkid, htonl p.endian di.valcnt, di.mac⟩⟩ := by
  have h : links.foldl (sflowGatherAdapter p) ⟨4, 0, []⟩ = _ :=
    foldl_sflowGatherAdapter (p := p) links 0 []
  rw [Nat.zero_add, List.nil_append] at h
  simp only [sflowCrHostAdaptersPack, h]

theorem length_body_sflowCrHostAdaptersPack (links : List AdapterLink) :
    ((sflowCrHostAdaptersPack p links).body p).length = 4 + 16 * links.length := by
  rw [sflowCrHostAdaptersPack_eq, SflowCrHostAdapters.body, List.length_append, wordBytes_length]
  congr 1
  induction links with
  | nil => rfl
  | cons di links ih =>
      rw [List.map_cons, List.flatMap_cons, List.length_append, ih]
      simp [SflowCrHostAdapter.image]
      omega

end Sflow

import Sflow.Protocol.Packed

/-!
# Padding

The payload of a counter record is copied out of its structure in memory, up to the size of
a pointer, which is what the structure ends with.  That is the fields one behind the other
where the structure is packed.  The four structures for zones are not, and come out right
on some machines only.
-/

namespace Sflow

open C

variable {p : Platform}

/-! ## Structures without padding -/

namespace StructDecl

variable {abi : Abi} {d : StructDecl}

/-- The sizes of some fields together. -/
def sizes (abi : Abi) (fs : List (String × CType)) : Nat := (fs.map fun f => f.2.size abi).sum

theorem sizes_append (abi : Abi) (fs gs : List (String × CType)) :
    sizes abi (fs ++ gs) = sizes abi fs + sizes abi gs := by
  rw [sizes, List.map_append, List.sum_append]
  rfl

theorem le_endFrom (off : Nat) (fs : List (String × CType)) :
    off + sizes abi fs ≤ d.endFrom abi off fs := by
  induction fs generalizing off with
  | nil => exact Nat.le_refl off
  | cons f fs ih =>
      have hup := le_alignUp off (d.fieldAlign_pos abi f.2)
      have htail := ih (alignUp off (d.fieldAlign abi f.2) + f.2.size abi)
      rw [StructDecl.endFrom]
      simp only [sizes, List.map_cons, List.sum_cons] at htail ⊢
      omega

/-- Where the last field ends as early as it can, every field is right behind the one before. -/
theorem imageFrom_eq_flatten {off : Nat} {fs : List (String × CType)} {vals : List (List UInt8)}
    (hfits : StructDecl.Fits abi fs vals) (hend : d.endFrom abi off fs = off + sizes abi fs) :
    d.imageFrom abi off fs vals = vals.flatten := by
  induction hfits generalizing off with
  | nil => rfl
  | @cons f v fs vs hv _ ih =>
      have hup := le_alignUp off (d.fieldAlign_pos abi f.2)
      have htail := @le_endFrom abi d (alignUp off (d.fieldAlign abi f.2) + f.2.size abi) fs
      simp only [StructDecl.endFrom, sizes, List.map_cons, List.sum_cons] at hend htail
      have hoff : alignUp off (d.fieldAlign abi f.2) = off := by omega
      have hrest : d.imageFrom abi (off + f.2.size abi) fs vs = vs.flatten := by
        apply ih
        rw [hoff] at hend
        simp only [sizes]
        omega
      rw [StructDecl.imageFrom, hoff, Nat.sub_self, List.replicate_zero, List.nil_append, hrest,
        List.flatten_cons]

/-- A structure that is no larger than its fields is those fields. -/
theorem image_eq_flatten {vals : List (List UInt8)} (hfits : StructDecl.Fits abi d.fields vals)
    (hsize : d.sizeof abi = sizes abi d.fields) : d.image abi vals = vals.flatten := by
  have hle := @le_endFrom abi d 0 d.fields
  have hup := le_alignUp (d.endFrom abi 0 d.fields) (d.structAlign_pos abi)
  have hend : d.endFrom abi 0 d.fields = 0 + sizes abi d.fields := by
    rw [StructDecl.sizeof] at hsize
    omega
  rw [StructDecl.image, imageFrom_eq_flatten hfits hend, hend, hsize, Nat.zero_add, Nat.sub_self,
    List.replicate_zero, List.append_nil]

theorem length_flatten_of_fits {fs : List (String × CType)} {vals : List (List UInt8)}
    (hfits : StructDecl.Fits abi fs vals) : vals.flatten.length = sizes abi fs := by
  induction hfits with
  | nil => rfl
  | cons hv _ ih =>
      rw [List.flatten_cons, List.length_append, ih, hv]
      rfl

end StructDecl

/-! ## Records by their fields -/

/-- The declaration of the structure of a record of fixed size. -/
def CrKind.decl : CrKind → Option StructDecl
  | ifGeneric => some sflowCrIfGenericT
  | hostDescr => some sflowCrHostDescrT
  | hostParent => some sflowCrHostParentT
  | hostCpu => some sflowCrHostCpuT
  | hostMemory => some sflowCrHostMemoryT
  | hostDiskIo => some sflowCrHostDiskIoT
  | hostNetIo => some sflowCrHostNetIoT
  | virtLeaf => some sflowCrVirtLeafT
  | virtCpu => some sflowCrVirtCpuT
  | virtMemory => some sflowCrVirtMemoryT
  | virtNetIo => some sflowCrVirtNetIoT
  | hostAdapters | flowStat => none

theorem CrKind.sizeof_of_decl {k : CrKind} {d : StructDecl} (h : k.decl = some d) :
    k.sizeof p = d.sizeof p.toAbi := by
  cases k <;> cases h <;> rfl

/-- A record of fixed size whose fields hold the given bytes.  The declaration for flow
statistics is not in the repository, and may be any of the right size. -/
structure FixedRecord (p : Platform) where
  kind : CrKind
  decl : StructDecl
  declared : kind.decl = some decl ∨ kind = .flowStat ∧ decl.sizeof p.toAbi = p.flowStatSize
  wire : List (String × CType)
  fields_eq : decl.fields = wire ++ [("flat", .pointer)]
  vals : List (List UInt8)
  fits : StructDecl.Fits p.toAbi wire vals
  flat : List UInt8
  flat_length : flat.length = p.psize

namespace FixedRecord

theorem kind_ne (r : FixedRecord p) : r.kind ≠ .hostAdapters := by
  intro h
  rcases r.declared with hdecl | ⟨hstat, -⟩
  · rw [h] at hdecl
    cases hdecl
  · rw [h] at hstat
    cases hstat

theorem sizeof_eq (r : FixedRecord p) : r.kind.sizeof p = r.decl.sizeof p.toAbi := by
  rcases r.declared with hdecl | ⟨hstat, hsize⟩
  · exact CrKind.sizeof_of_decl hdecl
  · rw [hstat, hsize]
    rfl

theorem fits_fields (r : FixedRecord p) :
    StructDecl.Fits p.toAbi r.decl.fields (r.vals ++ [r.flat]) := by
  rw [r.fields_eq]
  exact List.rel_append r.fits (.cons r.flat_length .nil)

/-- The structure in memory. -/
def image (r : FixedRecord p) : List UInt8 := r.decl.image p.toAbi (r.vals ++ [r.flat])

theorem length_image (r : FixedRecord p) : r.image.length = r.kind.sizeof p := by
  rw [r.sizeof_eq]
  exact StructDecl.length_image p.toAbi r.decl r.fits_fields

def payload (r : FixedRecord p) : CrPayload p := .leaf r.kind r.image r.kind_ne r.length_image

end FixedRecord

/-! ## Which structures are padded -/

/-- The machines on which the structure of a record is no larger than its fields.  One that
is not packed has padding in front of the pointer it ends with, or in front of a 64-bit
field, unless these happen to be aligned. -/
def CrKind.Unpadded (abi : Abi) : CrKind → Prop
  | virtLeaf | virtCpu => abi.psize = 4
  | virtMemory => abi.psize = 8 ∨ abi.hyperAlign = 4
  | virtNetIo => abi.hyperAlign = 4
  | _ => True

instance (abi : Abi) : (k : CrKind) → Decidable (k.Unpadded abi)
  | .virtLeaf | .virtCpu => inferInstanceAs (Decidable (abi.psize = 4))
  | .virtMemory => inferInstanceAs (Decidable (abi.psize = 8 ∨ abi.hyperAlign = 4))
  | .virtNetIo => inferInstanceAs (Decidable (abi.hyperAlign = 4))
  | .ifGeneric | .hostDescr | .hostAdapters | .hostParent | .hostCpu | .hostMemory
  | .hostDiskIo | .hostNetIo | .flowStat => inferInstanceAs (Decidable True)

-- there are four kinds of machines, and on each of them a layout is a computation
theorem CrKind.sizeof_eq_sizes_iff {abi : Abi} {k : CrKind} {d : StructDecl}
    (h : k.decl = some d) :
    d.sizeof abi = StructDecl.sizes abi d.fields ↔ k.Unpadded abi := by
  obtain ⟨psize, hyperAlign, rfl | rfl, rfl | rfl⟩ := abi <;> cases k <;> cases h <;> decide

theorem CrKind.sizeof_lt {abi : Abi} {k : CrKind} {d : StructDecl} (h : k.decl = some d) :
    d.sizeof abi < 2 ^ 32 := by
  obtain ⟨psize, hyperAlign, rfl | rfl, rfl | rfl⟩ := abi <;> cases k <;> cases h <;> decide

/-- There is something in front of the pointer that a structure ends with. -/
theorem CrKind.psize_lt_sizeof {abi : Abi} {k : CrKind} {d : StructDecl} (h : k.decl = some d) :
    abi.psize < d.sizeof abi := by
  obtain ⟨psize, hyperAlign, rfl | rfl, rfl | rfl⟩ := abi <;> cases k <;> cases h <;> decide

/-- A counter record of any type, by what its fields hold. -/
inductive FieldRecord (p : Platform) where
  | fixed (r : FixedRecord p)
  | adapters (addr : Nat) (links : List AdapterLink)

namespace FieldRecord

/-- The record as the sampling functions hand it on. -/
def toInput : FieldRecord p → PayloadInput p
  | fixed r => .leaf r.kind r.image r.kind_ne r.length_image
  | adapters addr links => .adapters addr links

/-- The fields that go out, in the order of their declarations. -/
def wire : FieldRecord p → List (String × CType)
  | fixed r => r.wire
  | adapters _ links =>
      ("has_count", .word) ::
        links.flatMap fun _ => sflowCrHostAdapterT.fields ++ sflowCrHostAdapterMacT.fields

/-- The bytes that each of them holds. -/
def vals : FieldRecord p → List (List UInt8)
  | fixed r => r.vals
  | adapters _ links =>
      wordBytes p.endian (htonl p.endian (UInt32.ofNat links.length)) ::
        links.flatMap fun di => [wordBytes p.endian (htonl p.endian di.diLinkid),
          wordBytes p.endian (htonl p.endian di.valcnt), di.mac.toList]

/-- The sum of the sizes of the fields that go out. -/
def wireSize (r : FieldRecord p) : Nat := StructDecl.sizes p.toAbi r.wire

/-- When the size of a record is that of its fields. -/
def Unpadded : FieldRecord p → Prop
  | fixed r =>
      r.kind.Unpadded p.toAbi ∧
        (r.kind = .flowStat → p.flowStatSize = StructDecl.sizes p.toAbi r.decl.fields ∧
          p.flowStatSize - p.psize < 2 ^ 32)
  | adapters _ links => 4 + 16 * links.length < 2 ^ 32

theorem length_flatten_vals (r : FieldRecord p) : r.vals.flatten.length = r.wireSize := by
  cases r with
  | fixed r => exact StructDecl.length_flatten_of_fits r.fits
  | adapters addr links =>
      apply StructDecl.length_flatten_of_fits
      refine .cons (wordBytes_length _ _) ?_
      induction links with
      | nil => exact .nil
      | cons di links ih =>
          exact .cons (wordBytes_length _ _)
            (.cons (wordBytes_length _ _) (.cons di.mac.length_toList ih))

theorem wireSize_fixed (r : FixedRecord p) :
    StructDecl.sizes p.toAbi r.decl.fields = (fixed r).wireSize + p.psize := by
  rw [r.fields_eq, StructDecl.sizes_append]
  rfl

theorem wireSize_adapters (addr : Nat) (links : List AdapterLink) :
    (adapters addr links : FieldRecord p).wireSize = 4 + 16 * links.length := by
  rw [wireSize, wire, ← List.singleton_append, StructDecl.sizes_append]
  congr 1
  induction links with
  | nil => rfl
  | cons di links ih =>
      rw [List.flatMap_cons, StructDecl.sizes_append, ih, List.length_cons, Nat.mul_succ,
        Nat.add_comm]
      rfl

/-- Padding only adds to the size of a structure. -/
theorem size_fixed_eq_iff (r : FixedRecord p) :
    (fixed r).toInput.size = (fixed r).wireSize ↔
      r.decl.sizeof p.toAbi = StructDecl.sizes p.toAbi r.decl.fields := by
  have hsizes := wireSize_fixed r
  have hsizeof := r.sizeof_eq
  have hend := @StructDecl.le_endFrom p.toAbi r.decl 0 r.decl.fields
  have hup := le_alignUp (r.decl.endFrom p.toAbi 0 r.decl.fields)
    (r.decl.structAlign_pos p.toAbi)
  have hle : StructDecl.sizes p.toAbi r.decl.fields ≤ r.decl.sizeof p.toAbi := by
    rw [StructDecl.sizeof]
    omega
  rw [toInput, PayloadInput.size]
  omega

theorem unpadded_iff (r : FieldRecord p) :
    r.Unpadded ↔ r.toInput.size = r.wireSize ∧ r.toInput.size < 2 ^ 32 := by
  cases r with
  | adapters addr links =>
      rw [wireSize_adapters]
      exact ⟨fun h ↦ ⟨rfl, h⟩, fun h ↦ h.2⟩
  | fixed r =>
      have hsizeof := r.sizeof_eq
      rw [size_fixed_eq_iff]
      rcases r.declared with hdecl | ⟨hstat, hsize⟩
      · have hne : r.kind ≠ .flowStat := by
          intro h
          rw [h] at hdecl
          cases hdecl
        have hlt : r.decl.sizeof p.toAbi < 2 ^ 32 := CrKind.sizeof_lt hdecl
        rw [CrKind.sizeof_eq_sizes_iff hdecl]
        refine ⟨fun h ↦ ⟨h.1, ?_⟩, fun h ↦ ⟨h.1, fun hstat ↦ absurd hstat hne⟩⟩
        rw [toInput, PayloadInput.size]
        omega
      · have hunpadded : r.kind.Unpadded p.toAbi := by
          rw [hstat]
          trivial
        rw [hsize, toInput, PayloadInput.size, hsizeof, hsize]
        exact ⟨fun h ↦ h.2 hstat, fun h ↦ ⟨hunpadded, fun _ ↦ h⟩⟩

end FieldRecord

/-! ## What the flat functions write -/

/-- `f` puts `bytes` down in one copy, wherever there is room for them. -/
def Copies (f : Flat) (bytes : List UInt8) : Prop :=
  ∀ (buf : Buf) (start : Nat), start + bytes.length ≤ buf.data.length →
    ∃ n, f buf start =
      .ok (⟨splice buf.data start bytes, buf.writes ++ [(start, bytes.length)]⟩, n)

theorem copies_copyOut (bytes : List UInt8) (n : Nat) : Copies (copyOut bytes n) bytes := by
  intro buf start hroom
  refine ⟨n, ?_⟩
  simp only [copyOut, Buf.memcpy, if_pos hroom, ok_bind, pure_eq_ok]

/-- A function can copy out one number of bytes only. -/
theorem length_eq_of_copies {f : Flat} {u v : List UInt8} (hu : Copies f u) (hv : Copies f v) :
    u.length = v.length := by
  let buf := Buf.calloc (u.length + v.length)
  have hlen : buf.data.length = u.length + v.length := List.length_replicate
  obtain ⟨m, hm⟩ := hu buf 0 (by omega)
  obtain ⟨n, hn⟩ := hv buf 0 (by omega)
  have hwrites := congrArg Buf.writes (Prod.mk.inj (Except.ok.inj (hm.symm.trans hn))).1
  have hwrite := List.singleton_inj.mp (List.append_cancel_left hwrites)
  exact (Prod.mk.inj hwrite).2

/-- The payload of a record is its fields one behind the other and nothing else, and the
length noted for it is that of its fields.  A record of adapters is read once more after
it has been freed, for the return value: what it reads there is not asked for. -/
structure NoPadding (r : FieldRecord p) : Prop where
  copies : ∀ {R : Type} (m : Memory R), (∀ addr w, ∃ w', m.hasLenAfterFree addr w = .ok w') →
    Copies (r.toInput.toPayload.flat m) r.vals.flatten
  scrLen : ∃ cr, sflowCounterRecordPack (some r.toInput.toPayload) r.toInput.kind.ent
      r.toInput.kind.fmt = .ok cr ∧ (ntohl p.endian cr.scrLen).toNat = r.wireSize

namespace FieldRecord

theorem toNat_scrLen (r : FieldRecord p) :
    (ntohl p.endian r.toInput.record.scrLen).toNat = r.toInput.size % 2 ^ 32 := by
  rw [PayloadInput.record, ntohl_htonl, UInt32.toNat_ofNat']

/-- What a structure copies out is as long as its size says, whatever is in it. -/
theorem copies_fixed {R : Type} (m : Memory R) (r : FixedRecord p) :
    Copies ((fixed r).toInput.toPayload.flat m)
      (r.image.take (r.kind.sizeof p - p.psize)) := by
  rw [toInput, PayloadInput.toPayload, CrPayload.flat, CrPayload.leafFlatOf_eq r.kind_ne]
  exact copies_copyOut _ _

theorem take_image {r : FixedRecord p} (h : (fixed r).toInput.size = (fixed r).wireSize) :
    r.image.take (r.kind.sizeof p - p.psize) = r.vals.flatten := by
  have himage : r.image = r.vals.flatten ++ r.flat := by
    rw [FixedRecord.image, StructDecl.image_eq_flatten r.fits_fields ((size_fixed_eq_iff r).mp h),
      List.flatten_append, List.flatten_singleton]
  have hsize : r.kind.sizeof p - p.psize = r.vals.flatten.length :=
    h.trans (length_flatten_vals (fixed r)).symm
  rw [himage, hsize, List.take_left]

theorem flatten_vals_adapters (addr : Nat) (links : List AdapterLink) :
    (adapters addr links : FieldRecord p).vals.flatten =
      (sflowCrHostAdaptersPack p links).body p := by
  rw [sflowCrHostAdaptersPack_eq, SflowCrHostAdapters.body, vals, List.flatten_cons]
  congr 1
  induction links with
  | nil => rfl
  | cons di links ih =>
      rw [List.flatMap_cons, List.flatten_append, ih, List.map_cons, List.flatMap_cons]
      simp only [SflowCrHostAdapter.image, List.flatten_cons, List.flatten_nil, List.append_nil,
        List.append_assoc]

theorem copies_adapters {R : Type} {m : Memory R} {addr : Nat} {links : List AdapterLink}
    (hm : ∀ addr w, ∃ w', m.hasLenAfterFree addr w = .ok w') (h : 4 + 16 * links.length < 2 ^ 32) :
    Copies ((adapters addr links : FieldRecord p).toInput.toPayload.flat m)
      (adapters addr links : FieldRecord p).vals.flatten := by
  have hbody := length_body_sflowCrHostAdaptersPack (p := p) links
  have hlen : (sflowCrHostAdaptersPack p links).hasLen.toNat =
      ((sflowCrHostAdaptersPack p links).body p).length := by
    rw [hbody, sflowCrHostAdaptersPack_eq]
    exact toNat_ofNat_of_lt h
  obtain ⟨w, hw⟩ := hm addr (sflowCrHostAdaptersPack p links).hasLen
  rw [flatten_vals_adapters]
  intro buf start hroom
  refine ⟨w.toNat, ?_⟩
  simp only [toInput, PayloadInput.toPayload, CrPayload.flat, sflowCrHostAdaptersFlat, hlen,
    Nat.le_refl, if_true, List.take_length, Buf.memcpy, if_pos hroom, hw, ok_bind, pure_eq_ok]

theorem size_eq_of_noPadding {r : FieldRecord p} (h : NoPadding r) :
    r.toInput.size = r.wireSize := by
  cases r with
  | adapters addr links => exact (wireSize_adapters addr links).symm
  | fixed r =>
      let m : Memory Unit := ⟨fun _ ↦ [], fun _ ↦ .ok⟩
      have hlen := length_eq_of_copies (copies_fixed m r) (h.copies m fun _ w ↦ ⟨w, rfl⟩)
      rw [length_flatten_vals, List.length_take_of_le] at hlen
      · exact hlen
      · rw [r.length_image]
        exact Nat.sub_le _ _

end FieldRecord

/-- The payload that a record is flattened to is its fields and nothing else, and its length
is noted so, exactly on the machines where its structure happens to have no padding: on all
of them for the structures that are packed, on some for the four that describe a zone. -/
theorem noPadding_iff_unpadded (r : FieldRecord p) : NoPadding r ↔ r.Unpadded := by
  rw [r.unpadded_iff]
  constructor
  · intro h
    have hsize := r.size_eq_of_noPadding h
    obtain ⟨cr, hpack, hlen⟩ := h.scrLen
    obtain rfl : r.toInput.record = cr :=
      Except.ok.inj (r.toInput.sflowCounterRecordPack_eq.symm.trans hpack)
    rw [r.toNat_scrLen, ← hsize] at hlen
    refine ⟨hsize, ?_⟩
    rw [← hlen]
    exact Nat.mod_lt _ (by decide)
  · rintro ⟨hsize, hlt⟩
    refine ⟨fun m hm ↦ ?_, r.toInput.record, r.toInput.sflowCounterRecordPack_eq, ?_⟩
    · cases r with
      | adapters addr links => exact FieldRecord.copies_adapters hm hlt
      | fixed r =>
          have hcopies := FieldRecord.copies_fixed m r
          rwa [FieldRecord.take_image hsize] at hcopies
    · rw [r.toNat_scrLen, Nat.mod_eq_of_lt hlt, hsize]

/-- The record of the cpus of a zone, on a 64-bit machine: four bytes of padding go out. -/
theorem exists_not_noPadding :
    ∃ r : FixedRecord .amd64, r.kind = .virtCpu ∧
      (FieldRecord.fixed r).wireSize = 12 ∧ (FieldRecord.fixed r).toInput.size = 16 ∧
      ¬ NoPadding (.fixed r) := by
  let word : List UInt8 := [0, 0, 0, 1]
  let r : FixedRecord .amd64 :=
    { kind := .virtCpu
      decl := sflowCrVirtCpuT
      declared := .inl rfl
      wire := [("vc_state", .word), ("vc_cpuTime", .word), ("vc_nrVirtCpu", .word)]
      fields_eq := rfl
      vals := [word, word, word]
      fits := .cons rfl (.cons rfl (.cons rfl .nil))
      flat := List.replicate 8 0
      flat_length := rfl }
  have hsize : (FieldRecord.fixed r).toInput.size = 16 := rfl
  refine ⟨r, rfl, rfl, hsize, fun h ↦ ?_⟩
  have heq := FieldRecord.size_eq_of_noPadding h
  rw [hsize] at heq
  exact absurd heq (by decide)

end Sflow

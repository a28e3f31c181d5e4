import Sflow.Protocol.Virtual

/-!
# What the description of a zone overwrites

`sflow_cr_host_descr_pack_v` takes the description of the host, copies the name of
the zone over its name, and writes the number of the zone into the serial number,
as many bytes behind its start as the name is long.  The field has sixteen bytes,
and the fields behind it follow at once.
-/

namespace Sflow

open C

section Pack

variable (p : Platform) (addr : CrKind → FlatAddr p) (flatV : FlatAddr p) (q : HostAnswers)
  (g : Unset) (source : SflowSource)

/-- The description as a buffer that knows its writes: `bzero`, `strncpy`, `itoa` and the address
of `sflow_cr_host_descr_flat_v`. -/
def sflowCrHostDescrBufV : Except Fault Buf := do
  let h : Buf := ⟨(sflowCrHostDescrPack p addr q g).1, []⟩
  let h ← h.memcpy 4 (List.replicate 60 0)
  let h ← h.memcpy 4 (charBytes source.ssName)
  let h ← h.memcpy (64 + source.ssName.length) (charBytes (itoa source.zoneId) ++ [0])
  h.memcpy 120 flatV.toList

/-- The fields that may be written to. -/
def descrChanged : List Place :=
  ["hd_name", "hd_uuid", "flat"].filterMap (sflowCrHostDescrT.place p.toAbi)

/-- The fields that stay as they are. -/
def descrKept : List String :=
  ["hd_name_len", "hd_machine_type", "hd_os_name", "hd_os_release_len", "hd_os_release"]

/-- No byte is written outside of three fields, nor past the record, and all other fields are
those of the host. -/
def ChangesNameAndUuid : Prop :=
  ∃ h, sflowCrHostDescrBufV p addr flatV q g source = .ok h ∧ h.WritesIn (descrChanged p) ∧
    ∀ name ∈ descrKept, sflowCrHostDescrT.field p.toAbi h.data name =
      sflowCrHostDescrT.field p.toAbi (sflowCrHostDescrPack p addr q g).1 name

end Pack

section Places

variable {p : Platform}

/-- The fields of the description lie one behind the other. -/
theorem descrPlace (i : Nat) {name : String} {t : CType}
    (h : sflowCrHostDescrT.fields[i]? = some (name, t)) :
    sflowCrHostDescrT.place p.toAbi name =
      some ⟨((sflowCrHostDescrT.fields.take i).map (·.2.size p.toAbi)).sum, t.size p.toAbi⟩ :=
  StructDecl.place_of_packed p.toAbi rfl (by decide) h

theorem descrChanged_eq : descrChanged p = [⟨4, 60⟩, ⟨64, 16⟩, ⟨120, p.psize⟩] := by
  have hname := descrPlace (p := p) 1 (t := .chars 60) rfl
  have huuid := descrPlace (p := p) 2 (t := .chars 16) rfl
  have hflat := descrPlace (p := p) 7 (t := .pointer) rfl
  rw [descrChanged, List.filterMap_cons_some hname, List.filterMap_cons_some huuid,
    List.filterMap_cons_some hflat, List.filterMap_nil]
  rfl

/-- The fields that stay lie in front of the name or between the serial number and the address. -/
theorem place_of_mem_descrKept {name : String} (h : name ∈ descrKept) :
    ∃ pl, sflowCrHostDescrT.place p.toAbi name = some pl ∧
      (pl.off + pl.size ≤ 4 ∨ 80 ≤ pl.off ∧ pl.off + pl.size ≤ 120) := by
  simp only [descrKept, List.mem_cons, List.not_mem_nil, or_false] at h
  rcases h with rfl | rfl | rfl | rfl | rfl
  · exact ⟨⟨0, 4⟩, descrPlace 0 rfl, by decide⟩
  · exact ⟨⟨80, 4⟩, descrPlace 3 rfl, by decide⟩
  · exact ⟨⟨84, 4⟩, descrPlace 4 rfl, by decide⟩
  · exact ⟨⟨88, 4⟩, descrPlace 5 rfl, by decide⟩
  · exact ⟨⟨92, 28⟩, descrPlace 6 rfl, by decide⟩

end Places

/-- The number of the zone ends within the serial number, or lies where the address of the `flat`
function is written last. -/
def NumberPlaced (p : Platform) (source : SflowSource) : Prop :=
  source.ssName.length + (itoa source.zoneId).length + 1 ≤ 16 ∨
    56 ≤ source.ssName.length ∧
      source.ssName.length + (itoa source.zoneId).length + 1 ≤ 56 + p.psize

instance (p : Platform) (source : SflowSource) : Decidable (NumberPlaced p source) :=
  inferInstanceAs (Decidable (_ ∨ _))

section Writes

variable {p : Platform} {addr : CrKind → FlatAddr p} {flatV : FlatAddr p} {q : HostAnswers}
  {g : Unset} {source : SflowSource} {h : Buf}

theorem length_charBytes (s : List Char) : (charBytes s).length = s.length := List.length_map _

theorem length_number (source : SflowSource) :
    (charBytes (itoa source.zoneId) ++ [0]).length = (itoa source.zoneId).length + 1 := by
  rw [List.length_append, length_charBytes, List.length_singleton]

theorem length_sflowCrHostDescrPack : (sflowCrHostDescrPack p addr q g).1.length = 120 + p.psize :=
  (sflowCrHostDescrPack p addr q g).2.trans sizeof_hostDescr

/-- The four writes, and what none of them touches. -/
theorem of_sflowCrHostDescrBufV (hbuf : sflowCrHostDescrBufV p addr flatV q g source = .ok h) :
    h.writes = [(4, 60), (4, source.ssName.length),
        (64 + source.ssName.length, (itoa source.zoneId).length + 1), (120, p.psize)] ∧
      64 + source.ssName.length + ((itoa source.zoneId).length + 1) ≤ 120 + p.psize ∧
      ∀ pl : Place, (∀ w ∈ h.writes, ∀ i, w.1 ≤ i → i < w.1 + w.2 → ¬ pl.Holds i) →
        pl.read h.data = pl.read (sflowCrHostDescrPack p addr q g).1 := by
  obtain ⟨h₁, hzero, hbuf⟩ := bind_eq_ok.mp hbuf
  obtain ⟨h₂, hname, hbuf⟩ := bind_eq_ok.mp hbuf
  obtain ⟨h₃, hid, hflat⟩ := bind_eq_ok.mp hbuf
  have hlen : h₂.data.length = 120 + p.psize := by
    rw [Buf.length_memcpy hname, Buf.length_memcpy hzero, length_sflowCrHostDescrPack]
  have hroom := (Buf.memcpy_eq_ok.mp hid).1
  rw [hlen, length_number] at hroom
  have hwrites : h.writes = [(4, 60), (4, source.ssName.length),
      (64 + source.ssName.length, (itoa source.zoneId).length + 1), (120, p.psize)] := by
    rw [(Buf.memcpy_eq_ok.mp hflat).2, (Buf.memcpy_eq_ok.mp hid).2, (Buf.memcpy_eq_ok.mp hname).2,
      (Buf.memcpy_eq_ok.mp hzero).2]
    simp only [length_number, length_charBytes, List.length_replicate, Vector.length_toList,
      List.nil_append, List.cons_append]
  refine ⟨hwrites, hroom, fun pl hout ↦ ?_⟩
  simp only [hwrites, List.forall_mem_cons] at hout
  obtain ⟨hout₁, hout₂, hout₃, hout₄, -⟩ := hout
  rw [Buf.read_memcpy hflat, Buf.read_memcpy hid, Buf.read_memcpy hname, Buf.read_memcpy hzero]
  · rwa [List.length_replicate]
  · rwa [length_charBytes]
  · rwa [length_number]
  · rwa [Vector.length_toList]

/-- It is the description that a sample of the zone has. -/
theorem data_of_sflowCrHostDescrBufV {z : ZoneAnswers}
    (hbuf : sflowCrHostDescrBufV p addr (addr .hostDescr) z.host g source = .ok h) :
    h.data = zoneDescrBytes p addr source (z.measured p g) := by
  obtain ⟨h₁, hzero, hbuf⟩ := bind_eq_ok.mp hbuf
  obtain ⟨h₂, hname, hbuf⟩ := bind_eq_ok.mp hbuf
  obtain ⟨h₃, hid, hflat⟩ := bind_eq_ok.mp hbuf
  let back : List (List UInt8) :=
    [z.host.serial.toList, wordBytes p.endian (htonl p.endian
      (getHostPhysMachineType (z.host.architecture 0) (g.tmp 0))),
      wordBytes p.endian (htonl p.endian 12), wordBytes p.endian (htonl p.endian 28),
      z.host.release.toList, (addr .hostDescr).toList]
  have himage : ∀ name : List UInt8, name.length = 60 → sflowCrHostDescrT.image p.toAbi
      (wordBytes p.endian (htonl p.endian 60) :: name :: back) =
        wordBytes p.endian (htonl p.endian 60) ++ (name ++ back.flatten) := by
    intro name hlen
    refine StructDecl.image_eq_flatten (StructDecl.fits_of_lengths p.toAbi ?_)
      (StructDecl.sizeof_of_packed p.toAbi rfl)
    simp [back, sflowCrHostDescrT, CType.size, hlen]
  have hhost : (sflowCrHostDescrPack p addr z.host g).1 =
      wordBytes p.endian (htonl p.endian 60) ++ (z.host.hostname.toList ++ back.flatten) :=
    himage _ Vector.length_toList
  have hzeros : h₁.data = hostDescrBytes p addr (z.measured p g) := by
    have hblank : splice (wordBytes p.endian (htonl p.endian 60) ++
        (z.host.hostname.toList ++ back.flatten)) (wordBytes p.endian (htonl p.endian 60)).length
          (List.replicate 60 0) = wordBytes p.endian (htonl p.endian 60) ++
            (List.replicate 60 0 ++ back.flatten) := splice_append (by simp)
    rw [wordBytes_length, ← hhost] at hblank
    rw [(Buf.memcpy_eq_ok.mp hzero).2]
    exact hblank.trans (himage _ List.length_replicate).symm
  rw [(Buf.memcpy_eq_ok.mp hflat).2, (Buf.memcpy_eq_ok.mp hid).2, (Buf.memcpy_eq_ok.mp hname).2,
    hzeros]
  rfl

/-- If there is room for the number, the description is made. -/
theorem exists_sflowCrHostDescrBufV
    (hroom : 64 + source.ssName.length + ((itoa source.zoneId).length + 1) ≤ 120 + p.psize) :
    ∃ h, sflowCrHostDescrBufV p addr flatV q g source = .ok h := by
  have hcopy : ∀ (b : Buf) (off : Nat) (src : List UInt8), b.data.length = 120 + p.psize →
      off + src.length ≤ 120 + p.psize →
        ∃ b', b.memcpy off src = .ok b' ∧ b'.data.length = 120 + p.psize := by
    intro b off src hlen hsrc
    have hok := Buf.memcpy_eq_ok.mpr ⟨hlen ▸ hsrc, rfl⟩
    exact ⟨_, hok, (Buf.length_memcpy hok).trans hlen⟩
  obtain ⟨h₁, hzero, hlen₁⟩ := hcopy ⟨(sflowCrHostDescrPack p addr q g).1, []⟩ 4
    (List.replicate 60 0) length_sflowCrHostDescrPack (by rw [List.length_replicate]; omega)
  obtain ⟨h₂, hcopied, hlen₂⟩ := hcopy h₁ 4 (charBytes source.ssName) hlen₁
    (by rw [length_charBytes]; omega)
  obtain ⟨h₃, hid, hlen₃⟩ := hcopy h₂ (64 + source.ssName.length)
    (charBytes (itoa source.zoneId) ++ [0]) hlen₂ (by rwa [length_number])
  obtain ⟨h₄, hflat, -⟩ := hcopy h₃ 120 flatV.toList hlen₃ (by rw [Vector.length_toList])
  refine ⟨h₄, ?_⟩
  rw [sflowCrHostDescrBufV, hzero, ok_bind, hcopied, ok_bind, hid, ok_bind, hflat]

/-- For a name that the daemon can store, the description of a zone changes nothing but the name
and the serial number exactly if the number of the zone is placed well. -/
theorem changesNameAndUuid_iff (hname : source.ssName.length ≤ 63) (addr : CrKind → FlatAddr p)
    (flatV : FlatAddr p) (q : HostAnswers) (g : Unset) :
    ChangesNameAndUuid p addr flatV q g source ↔ NumberPlaced p source := by
  unfold ChangesNameAndUuid NumberPlaced
  have hp := p.psize_eq
  constructor
  · rintro ⟨h, hbuf, hin, -⟩
    obtain ⟨hwrites, hroom, -⟩ := of_sflowCrHostDescrBufV hbuf
    rw [Buf.WritesIn, hwrites, descrChanged_eq] at hin
    have hnumber := hin (64 + source.ssName.length, (itoa source.zoneId).length + 1) (by simp)
    simp only [List.mem_cons, List.not_mem_nil, or_false, exists_eq_or_imp, exists_eq_left,
      Place.Holds] at hnumber
    -- the byte behind the serial number must not be among the bytes of the number
    by_contra hnot
    rcases Nat.lt_or_ge source.ssName.length 16 with hshort | hlong
    · have hbehind := hnumber 80 (by omega) (by omega)
      omega
    · have hfirst := hnumber (64 + source.ssName.length) (by omega) (by omega)
      omega
  · intro hplaced
    have hroom : 64 + source.ssName.length + ((itoa source.zoneId).length + 1) ≤ 120 + p.psize := by
      omega
    obtain ⟨h, hbuf⟩ : ∃ h, sflowCrHostDescrBufV p addr flatV q g source = .ok h :=
      exists_sflowCrHostDescrBufV hroom
    obtain ⟨hwrites, -, hread⟩ := of_sflowCrHostDescrBufV hbuf
    refine ⟨h, hbuf, ?_, fun name hmem ↦ ?_⟩
    · rw [Buf.WritesIn, hwrites, descrChanged_eq]
      intro w hw i hlow hhigh
      simp only [List.mem_cons, List.not_mem_nil, or_false, exists_eq_or_imp, exists_eq_left,
        Place.Holds] at hw ⊢
      rcases hw with rfl | rfl | rfl | rfl <;> dsimp only at hlow hhigh <;> omega
    · obtain ⟨pl, hplace, haway⟩ := place_of_mem_descrKept (p := p) hmem
      rw [StructDecl.field, StructDecl.field, hplace]
      refine hread pl fun w hw i hlow hhigh hholds ↦ ?_
      rw [hwrites] at hw
      simp only [List.mem_cons, List.not_mem_nil, or_false, Place.Holds] at hw hholds
      rcases hw with rfl | rfl | rfl | rfl <;> dsimp only at hlow hhigh <;> omega

end Writes

/-- A zone with a name of this length and this number, for examples. -/
def SflowSource.named (n : Nat) (zoneId : Int) : SflowSource :=
  { SflowSource.web with ssName := List.replicate n 'z', zoneId := zoneId }

/-- Fourteen characters and one digit. -/
theorem changesNameAndUuid_iff_short :
    ChangesNameAndUuid .amd64 (fun _ => Vector.replicate 8 1) (Vector.replicate 8 2) .silent .zero
      (.named 14 7) :=
  (changesNameAndUuid_iff (by decide) _ _ _ _).mpr (by decide)

/-- With nineteen characters the digit is the type of the machine. -/
theorem not_changesNameAndUuid_long :
    let q : HostAnswers :=
      { HostAnswers.silent with architecture := fun _ => some ⟨"i386".toList, by decide⟩ }
    let addr : CrKind → FlatAddr .amd64 := fun _ => Vector.replicate 8 1
    let machineType (image : List UInt8) : List UInt8 :=
      sflowCrHostDescrT.field Platform.amd64.toAbi image "hd_machine_type"
    machineType (sflowCrHostDescrPack .amd64 addr q .zero).1 = [0, 0, 0, 2] ∧
      (sflowCrHostDescrBufV .amd64 addr (Vector.replicate 8 2) q .zero (.named 19 7)).map
        (fun h => machineType h.data) = .ok [0, 0, 0, 55] ∧
      ¬ ChangesNameAndUuid .amd64 addr (Vector.replicate 8 2) q .zero (.named 19 7) := by
  intro q addr machineType
  have hhost : machineType (sflowCrHostDescrPack .amd64 addr q .zero).1 = [0, 0, 0, 2] := by
    decide +kernel
  have hzone : (sflowCrHostDescrBufV .amd64 addr (Vector.replicate 8 2) q .zero (.named 19 7)).map
      (fun h => machineType h.data) = .ok [0, 0, 0, 55] := by
    decide +kernel
  refine ⟨hhost, hzone, ?_⟩
  rintro ⟨h, hbuf, -, hkept⟩
  have hsame : machineType h.data = _ := hkept "hd_machine_type" (by decide)
  rw [hbuf, Except.map, Except.ok.injEq, hsame] at hzone
  exact absurd (hzone.symm.trans hhost) (by decide)

end Sflow

import Sflow.Protocol.Hostphy
import Sflow.Protocol.Padding

/-!
# Sampling a zone in unset memory

What `get_sample_hostv` asks of the system, and the numbers that it makes of it:
the packers are those of a `ZoneSystem`, in which every answer that is missing
has been made up for by what lay in the memory.

The speed is divided and the cpu time is a product, so there a missing answer
does not always show.  The type of the machine may be covered by the number of
the zone, which is written behind the serial number as if there was room.
-/

namespace Sflow

open C

/-- The queries of one sample of a zone. -/
structure ZoneAnswers where
  /-- What the host is asked for: its description, processors and memory. -/
  host : HostAnswers
  zoneGetattr : Int → ZoneAttr → Option UInt64
  /-- The zone list as it is cached. -/
  zoneList : List ZoneUsage
  upTime : UpTimeAnswers
  /-- The number that `zone_list` counts. -/
  numZones : UInt32
  /-- The datalinks of the zone. -/
  links : List LinkAnswers

namespace ZoneAnswers

/-- A zone without datalinks, of which nothing is answered, for examples. -/
def silent : ZoneAnswers where
  host := .silent
  zoneGetattr _ _ := none
  zoneList := []
  upTime := ⟨0, 0, []⟩
  numZones := 1
  links := []

/-- The statistics of the datalinks, answered or not. -/
def linkStats (z : ZoneAnswers) (g : Unset) : List LinkStat :=
  z.links.zipIdx.map fun x =>
    { rbytes := sflowGetLinkStat64 x.1 (g.links x.2) .rbytes64
      obytes := sflowGetLinkStat64 x.1 (g.links x.2) .obytes64
      ierrors := sflowGetLinkStat32 x.1 (g.links x.2) .ierrors
      oerrors := sflowGetLinkStat32 x.1 (g.links x.2) .oerrors
      ipackets := sflowGetLinkStat32 x.1 (g.links x.2) .ipackets
      opackets := sflowGetLinkStat32 x.1 (g.links x.2) .opackets }

/-- The system as the packers find it. -/
def system (z : ZoneAnswers) (g : Unset) (cpu : CpuCounters) : ZoneSystem where
  zoneGetattr := z.zoneGetattr
  zoneList := z.zoneList
  cpuBuf := g.bufInt
  upTime := getUpTimeSec z.upTime g.ret
  physMem := getHostPhysMemBytes z.host.physmem (z.host.architecture 1) (g.tmp 1)
  cpuNum := z.host.ncpus.getD 0
  cpuSpeed := cpu.cpuSpeed
  memFree := z.host.memFree g
  numZones := z.numZones
  links _ := z.linkStats g
  serial := z.host.serial
  release := z.host.release
  machineType := getHostPhysMachineType (z.host.architecture 0) (g.tmp 0)

/-- `get_sample_hostv`, with the packers for the host called on the way. -/
def sample {R : Type} (p : Platform) (addr : CrKind → FlatAddr p) (z : ZoneAnswers)
    (source : SflowSource) (g : Unset) : Except Fault (SflowSp p R × SflowSource) := do
  let cpu ← walkCpuInstancesForCpuCounters p z.host g.bufBig
  getSampleHostv p (z.system g cpu) addr source

/-- The system where the buffers of the walk over the processors suffice. -/
def measured (p : Platform) (z : ZoneAnswers) (g : Unset) : ZoneSystem :=
  z.system g (walkCpus p (z.host.ncpus.getD 0) z.host.cpus g.bufBig {})

/-- The usage that is found for the zone. -/
def usage (z : ZoneAnswers) (source : SflowSource) : Option ZoneUsage :=
  z.zoneList.find? fun zone => zone.name.isPrefixOf source.ssName

end ZoneAnswers

/-! ## Numbers in which a missing answer shows -/

section Numbers

/-- A factor other than zero shows in the quotient for some other factor. -/
theorem eq_zero_of_steady_mul {x : UInt32} (h : Steady fun y : UInt32 => x * y / 10000) :
    x = 0 := by
  have hdiv : ∀ y : UInt32, x.toNat * y.toNat % 2 ^ 32 / 10000 = 0 := by
    intro y
    have hnat : (x * y / 10000).toNat = (x * 0 / 10000).toNat := congrArg UInt32.toNat (h y 0)
    rw [UInt32.mul_zero, UInt32.toNat_div, UInt32.toNat_mul] at hnat
    exact hnat
  -- one is enough for a large factor, and the divisor for a small one
  have hsmall : x.toNat < 10000 := by
    have hone : x.toNat * 1 % 2 ^ 32 / 10000 = 0 := hdiv 1
    have hlt := x.toNat_lt
    omega
  have hmany : x.toNat * 10000 % 2 ^ 32 / 10000 = 0 := hdiv 10000
  rw [Nat.mod_eq_of_lt (by omega), Nat.mul_div_cancel _ (by decide)] at hmany
  exact UInt32.toNat_inj.mp hmany

theorem steady_mul {x : UInt32} : (Steady fun y : UInt32 => x * y / 10000) ↔ x = 0 := by
  refine ⟨eq_zero_of_steady_mul, ?_⟩
  rintro rfl y y'
  dsimp only
  rw [UInt32.zero_mul, UInt32.zero_mul]

theorem getUpTimeSec_of_not_bootKnown {a : UpTimeAnswers} (h : ¬ a.BootKnown) (ret : Int) :
    getUpTimeSec a ret = UInt32.ofInt ret := by
  unfold UpTimeAnswers.BootKnown at h
  rw [not_or, not_not, ← isSome_readUtmpx, Option.not_isSome_iff_eq_none] at h
  rw [getUpTimeSec, if_neg (not_not.mpr h.1), h.2, Option.getD_none]

/-- The time of the zone on the processors is known, or zero either way. -/
def ZoneAnswers.CpuTimeKnown (z : ZoneAnswers) (source : SflowSource) : Prop :=
  z.upTime.BootKnown ∧ ((z.usage source).isSome ∨ getUpTimeSec z.upTime 0 = 0) ∨
    ∃ u, z.usage source = some u ∧ u.cpu = 0

theorem steady_cpuTime {z : ZoneAnswers} {source : SflowSource} :
    (Steady fun g : Unset => getUpTimeSec z.upTime g.ret *
      ((z.usage source).map (·.cpu)).getD g.bufInt / 10000) ↔ z.CpuTimeKnown source := by
  unfold ZoneAnswers.CpuTimeKnown
  by_cases hboot : z.upTime.BootKnown
  · have hknown : ∀ ret, getUpTimeSec z.upTime ret = getUpTimeSec z.upTime 0 := fun ret ↦
      (steady_getUpTimeSec (G := Int) Function.surjective_id).mpr hboot ret 0
    simp only [hknown, hboot, true_and]
    cases husage : z.usage source with
    | some u => exact ⟨fun _ ↦ .inl (.inl rfl), fun _ _ _ ↦ rfl⟩
    | none =>
        simp only [Option.map_none, Option.getD_none, Option.isSome_none, Bool.false_eq_true,
          false_or, reduceCtorEq, false_and, exists_false, or_false]
        rw [steady_surjective (f := fun y => getUpTimeSec z.upTime 0 * y / 10000)
          Unset.surjective_bufInt, steady_mul]
  · simp only [getUpTimeSec_of_not_bootKnown hboot, hboot, false_and, false_or]
    have hword : ∀ (y : UInt32), (Steady fun g : Unset => UInt32.ofInt g.ret * y / 10000) ↔
        y = 0 := by
      intro y
      have hret : Function.Surjective fun g : Unset => UInt32.ofInt g.ret :=
        surjective_ofInt.comp Unset.surjective_ret
      rw [steady_surjective (f := fun x => x * y / 10000) hret]
      simp only [UInt32.mul_comm _ y, steady_mul]
    cases husage : z.usage source with
    | some u =>
        simp only [Option.map_some, Option.getD_some, Option.some.injEq, exists_eq_left',
          hword]
    | none =>
        simp only [Option.map_none, Option.getD_none, reduceCtorEq, false_and, exists_false,
          iff_false]
        intro h
        -- both factors are unset
        have hne : UInt32.ofInt 10000 * 1 / 10000 ≠ UInt32.ofInt 0 * 1 / 10000 := by decide
        exact hne (h { Unset.zero with ret := 10000, bufInt := 1 } { Unset.zero with bufInt := 1 })

/-- What the processors with an answer add to the speed, and the most that the others can. -/
def HostAnswers.readSpeed (p : Platform) (q : HostAnswers) : Nat :=
  (Sflow.readSpeed p (q.ncpus.getD 0) none q.cpus).toNat

def HostAnswers.topSpeed (q : HostAnswers) : Nat :=
  silentCpus q.cpus * ((2 ^ 32 - 1) / (q.ncpus.getD 0).toNat)

/-- The speed in MHz is known.  Where a `long` is a word, the shares of a great many processors
are so small that the speed in MHz may stay the same whatever is added. -/
def HostAnswers.MhzKnown (p : Platform) (q : HostAnswers) : Prop :=
  (∀ a ∈ q.cpus.head?, a.supportedFrequencies.isSome) ∨
    p.psize = 4 ∧ q.readSpeed p + q.topSpeed < 2 ^ 32 ∧
      (q.readSpeed p + q.topSpeed) / 1000000 = q.readSpeed p / 1000000

/-- A name with more than seven digits does not fit. -/
theorem HostAnswers.CpuBuffersFit.ncpus_le {q : HostAnswers} (h : q.CpuBuffersFit) :
    (q.ncpus.getD 0).toNat ≤ 10000000 := by
  by_contra hlt
  exact absurd (h.1 10000000 (by omega)) (by decide)

/-- The MHz when `k` processors add a share of `v` each to a speed of `r`. -/
def mhz (k v r : Nat) : Nat := (k * v + r) % 2 ^ 32 / 1000000

theorem toNat_mhz {k v : Nat} (hk : k < 2 ^ 32) (hv : v < 2 ^ 32) (r : UInt32) :
    ((UInt32.ofNat k * UInt32.ofNat v + r) / 1000000).toNat = mhz k v r.toNat := by
  rw [UInt32.toNat_div, UInt32.toNat_add, UInt32.toNat_mul, toNat_ofNat_of_lt hk,
    toNat_ofNat_of_lt hv, Nat.mod_add_mod]
  rfl

section Mhz

variable {k m r : Nat}

/-- While the MHz stay the same with every share up to `m`, the speed does not wrap around. -/
theorem add_mul_lt_of_mhz_eq (hk : k ≤ 10000000) (hr : r < 2 ^ 32)
    (hsame : ∀ v ≤ m, mhz k v r = r / 1000000) : ∀ v ≤ m, r + k * v < 2 ^ 32 := by
  intro v
  induction v with
  | zero =>
      intro _
      rwa [Nat.mul_zero, Nat.add_zero]
  | succ v ih =>
      intro hv
      have hprev := hsame v (Nat.le_of_succ_le hv)
      have hnext := hsame (v + 1) hv
      have hstep := ih (Nat.le_of_succ_le hv)
      rw [mhz, Nat.mul_add_one] at hnext
      rw [mhz] at hprev
      rw [Nat.mul_add_one]
      omega

/-- Half of what a word can hold changes the MHz. -/
theorem mhz_half_ne (hpos : 0 < k) (hk : k ≤ 10000000) :
    mhz k (2 ^ 31 / k) r ≠ r / 1000000 := by
  have hdiv := Nat.div_mul_le_self (2 ^ 31) k
  have hrest := Nat.lt_div_mul_add (a := 2 ^ 31) (b := k) hpos
  rw [mhz, Nat.mul_comm k]
  omega

theorem mhz_eq_of_le {v : Nat} (hv : v ≤ m) (htop : r + k * m < 2 ^ 32)
    (hsame : (r + k * m) / 1000000 = r / 1000000) : mhz k v r = r / 1000000 := by
  have hmul : k * v ≤ k * m := Nat.mul_le_mul_left k hv
  have hlow : r / 1000000 ≤ (k * v + r) / 1000000 := Nat.div_le_div_right (Nat.le_add_left _ _)
  have hhigh : (k * v + r) / 1000000 ≤ (r + k * m) / 1000000 := Nat.div_le_div_right (by omega)
  rw [mhz, Nat.mod_eq_of_lt (by omega)]
  exact Nat.le_antisymm (hsame ▸ hhigh) hlow

end Mhz

section Share

variable {p : Platform} {k : Nat} {n rest : UInt32}

/-- If the MHz are steady, every share that a text can bring about leaves them as they are. -/
theorem mhz_eq_of_steady (hk : k < 2 ^ 32) (hn : 0 < n.toNat)
    (h : Steady fun bufBig : CStr =>
      (UInt32.ofNat k * cpuShare p (atol p bufBig.chars) n + rest) / 1000000) {v : Nat}
    (hv : v < 2 ^ 32) (h₄ : p.psize = 4 → v * n.toNat < 2 ^ 32)
    (h₈ : p.psize = 8 → v * n.toNat < 2 ^ 63) : mhz k v rest.toNat = rest.toNat / 1000000 := by
  have heq := congrArg UInt32.toNat (h (decimal (v * n.toNat : Nat)) (decimal 0))
  simp only [atol_decimal, cpuShare_mul hn h₄ h₈, asLong_zero, cpuShare_zero,
    toNat_mhz hk hv] at heq
  rw [heq, UInt32.mul_zero, UInt32.zero_add, UInt32.toNat_div]
  rfl

/-- A `long` of four bytes has no share larger than that of its largest number. -/
theorem toNat_cpuShare_le (hp : p.psize = 4) (x : Int) :
    (cpuShare p x n).toNat ≤ (2 ^ 32 - 1) / n.toNat := by
  rw [cpuShare, if_pos hp, UInt32.toNat_div]
  exact Nat.div_le_div_right (Nat.le_sub_one_of_lt (UInt32.toNat_lt _))

end Share

theorem steady_mhz {p : Platform} {q : HostAnswers} (hfit : q.CpuBuffersFit) :
    (Steady fun bufBig : CStr => (UInt32.ofNat (silentCpus q.cpus) *
      cpuShare p (atol p bufBig.chars) (q.ncpus.getD 0) +
        Sflow.readSpeed p (q.ncpus.getD 0) none q.cpus) / 1000000) ↔ q.MhzKnown p := by
  unfold HostAnswers.MhzKnown HostAnswers.topSpeed HostAnswers.readSpeed
  rw [← silentCpus_eq_zero]
  have hle : silentCpus q.cpus ≤ (q.ncpus.getD 0).toNat := by
    refine Nat.le_trans (silentCpus_le _) ?_
    simp [HostAnswers.cpus]
  have hncpus := hfit.ncpus_le
  generalize Sflow.readSpeed p (q.ncpus.getD 0) none q.cpus = rest at *
  generalize silentCpus q.cpus = k at *
  generalize q.ncpus.getD 0 = n at *
  have hk : k ≤ 10000000 := Nat.le_trans hle hncpus
  have hword : k < 2 ^ 32 := Nat.lt_of_le_of_lt hk (by decide)
  constructor
  · intro h
    rw [or_iff_not_imp_left]
    intro hsilent
    have hpos : 0 < k := Nat.pos_of_ne_zero hsilent
    have hn : 0 < n.toNat := Nat.lt_of_lt_of_le hpos hle
    rcases p.psize_eq with hp | hp
    · have hsame : ∀ v ≤ (2 ^ 32 - 1) / n.toNat,
          mhz k v rest.toNat = rest.toNat / 1000000 := by
        intro v hv
        have hmul : v * n.toNat ≤ 2 ^ 32 - 1 := Nat.mul_le_of_le_div n.toNat v (2 ^ 32 - 1) hv
        have hquot := Nat.div_le_self (2 ^ 32 - 1) n.toNat
        exact mhz_eq_of_steady hword hn h (by omega) (fun _ ↦ by omega) (fun _ ↦ by omega)
      have htop := add_mul_lt_of_mhz_eq hk rest.toNat_lt hsame _ (Nat.le_refl _)
      have hlast := hsame _ (Nat.le_refl _)
      rw [mhz, Nat.add_comm (k * _), Nat.mod_eq_of_lt htop] at hlast
      exact ⟨hp, htop, hlast⟩
    · have hquot := Nat.div_le_self (2 ^ 31) k
      have hmul : 2 ^ 31 / k * n.toNat ≤ 2 ^ 31 * 10000000 := Nat.mul_le_mul hquot hncpus
      exact absurd (mhz_eq_of_steady hword hn h (by omega) (fun _ ↦ by omega) (fun _ ↦ by omega))
        (mhz_half_ne hpos hk)
  · rintro (hsilent | ⟨hp, htop, hsame⟩) bufBig bufBig'
    · rw [hsilent]
      change ((0 : UInt32) * _ + _) / 1000000 = ((0 : UInt32) * _ + _) / 1000000
      rw [UInt32.zero_mul, UInt32.zero_mul]
    · have hknown : ∀ x, ((UInt32.ofNat k * cpuShare p x n + rest) / 1000000).toNat =
          rest.toNat / 1000000 := by
        intro x
        rw [← UInt32.ofNat_toNat (x := cpuShare p x n), toNat_mhz hword (UInt32.toNat_lt _)]
        exact mhz_eq_of_le (toNat_cpuShare_le hp x) htop hsame
      apply UInt32.toNat_inj.mp
      rw [hknown, hknown]

end Numbers

/-! ## The description -/

section Descr

variable {p : Platform} {addr : CrKind → FlatAddr p} {source : SflowSource} {sys : ZoneSystem}

/-- The description before the name and the number of the zone are written into it. -/
def hostDescrBytes (p : Platform) (addr : CrKind → FlatAddr p) (sys : ZoneSystem) : List UInt8 :=
  sflowCrHostDescrT.image p.toAbi
    [wordBytes p.endian (htonl p.endian 60), List.replicate 60 0, sys.serial.toList,
      wordBytes p.endian (htonl p.endian sys.machineType),
      wordBytes p.endian (htonl p.endian 12), wordBytes p.endian (htonl p.endian 28),
      sys.release.toList, (addr .hostDescr).toList]

/-- The description of a zone. -/
def zoneDescrBytes (p : Platform) (addr : CrKind → FlatAddr p) (source : SflowSource)
    (sys : ZoneSystem) : List UInt8 :=
  splice (splice (splice (hostDescrBytes p addr sys) 4 (charBytes source.ssName))
    (64 + source.ssName.length) (charBytes (itoa source.zoneId) ++ [0])) 120
      (addr .hostDescr).toList

theorem length_hostDescrBytes : (hostDescrBytes p addr sys).length = 120 + p.psize := by
  rw [hostDescrBytes, StructDecl.length_image]
  · exact sizeof_hostDescr
  · exact StructDecl.fits_of_lengths p.toAbi (by simp [sflowCrHostDescrT, CType.size])

theorem LeafImage.bytes_of_write {k : CrKind} {image image' : LeafImage p k} {off : Nat}
    {src : List UInt8} (h : image.write off src = .ok image') :
    image'.1 = splice image.1 off src := by
  unfold LeafImage.write at h
  split at h
  · cases h
    rfl
  · cases h

theorem bytes_of_sflowCrHostDescrPackV {vd : LeafImage p .hostDescr}
    (h : sflowCrHostDescrPackV p sys addr source = .ok vd) :
    vd.1 = zoneDescrBytes p addr source sys := by
  obtain ⟨h₁, hname, h⟩ := bind_eq_ok.mp h
  obtain ⟨h₂, hid, haddr⟩ := bind_eq_ok.mp h
  rw [LeafImage.bytes_of_write haddr, LeafImage.bytes_of_write hid, LeafImage.bytes_of_write hname]
  rfl

/-- The last byte of the type of the machine, and what lies around it. -/
theorem hostDescrBytes_eq (p : Platform) (addr : CrKind → FlatAddr p) (z : ZoneAnswers) :
    ∃ front back : List UInt8, front.length = 83 ∧ ∀ g cpu,
      hostDescrBytes p addr (z.system g cpu) = front ++
        UInt8.ofNat (getHostPhysMachineType (z.host.architecture 0) (g.tmp 0)).toNat :: back := by
  refine ⟨wordBytes p.endian (htonl p.endian 60) ++ (List.replicate 60 0 ++
    (z.host.serial.toList ++ [0, 0, 0])), wordBytes p.endian (htonl p.endian 12) ++
      (wordBytes p.endian (htonl p.endian 28) ++ (z.host.release.toList ++
        (addr .hostDescr).toList)), by simp, fun g cpu ↦ ?_⟩
  have hfits : C.StructDecl.Fits p.toAbi sflowCrHostDescrT.fields
      [wordBytes p.endian (htonl p.endian 60), List.replicate 60 0, z.host.serial.toList,
        wordBytes p.endian (htonl p.endian
          (getHostPhysMachineType (z.host.architecture 0) (g.tmp 0))),
        wordBytes p.endian (htonl p.endian 12), wordBytes p.endian (htonl p.endian 28),
        z.host.release.toList, (addr .hostDescr).toList] :=
    StructDecl.fits_of_lengths p.toAbi (by simp [sflowCrHostDescrT, CType.size])
  have himage := StructDecl.image_eq_flatten hfits (StructDecl.sizeof_of_packed p.toAbi rfl)
  have htype : ∀ s, beBytes 4 (getHostPhysMachineType (z.host.architecture 0) s).toNat =
      [0, 0, 0] ++ [UInt8.ofNat (getHostPhysMachineType (z.host.architecture 0) s).toNat] := by
    intro s
    unfold getHostPhysMachineType
    split <;> decide
  refine himage.trans ?_
  simp only [List.flatten_cons, List.flatten_nil, List.append_nil, wordBytes_htonl, htype,
    List.append_assoc, List.cons_append, List.nil_append]

/-- The number of the zone is written over the last byte of the type of the machine. -/
def TypeCovered (source : SflowSource) : Prop :=
  source.ssName.length ≤ 19 ∧ 19 ≤ source.ssName.length + (itoa source.zoneId).length

/-- The bytes of the description, read one by one. -/
theorem getElem?_zoneDescrBytes (hfits : DescrFits p source) (i : Nat) :
    (zoneDescrBytes p addr source sys)[i]? =
      if 120 ≤ i ∧ i < 120 + p.psize then (addr .hostDescr).toList[i - 120]?
      else if 64 + source.ssName.length ≤ i ∧
          i < 64 + source.ssName.length + ((itoa source.zoneId).length + 1) then
        (charBytes (itoa source.zoneId) ++ [0])[i - (64 + source.ssName.length)]?
      else if 4 ≤ i ∧ i < 4 + source.ssName.length then (charBytes source.ssName)[i - 4]?
      else (hostDescrBytes p addr sys)[i]? := by
  have hbase : (hostDescrBytes p addr sys).length = 120 + p.psize := length_hostDescrBytes
  have hname : (charBytes source.ssName).length = source.ssName.length := by simp [charBytes]
  have hid : (charBytes (itoa source.zoneId) ++ [0]).length =
      (itoa source.zoneId).length + 1 := by simp [charBytes]
  have haddr : (addr .hostDescr).toList.length = p.psize := by simp
  unfold DescrFits at hfits
  have hroom₁ : 4 + (charBytes source.ssName).length ≤ (hostDescrBytes p addr sys).length := by
    omega
  have hlen₁ := length_splice hroom₁
  have hroom₂ : 64 + source.ssName.length + (charBytes (itoa source.zoneId) ++ [0]).length ≤
      (splice (hostDescrBytes p addr sys) 4 (charBytes source.ssName)).length := by
    omega
  have hlen₂ := length_splice hroom₂
  rw [zoneDescrBytes, getElem?_splice (by omega), haddr, getElem?_splice hroom₂, hid,
    getElem?_splice hroom₁, hname]

/-- An answer shows in one byte, if that is not covered. -/
theorem isSome_of_steady_zoneDescrBytes {z : ZoneAnswers} (hfits : DescrFits p source)
    (h : Steady fun g => (zoneDescrBytes p addr source (z.measured p g)).take 120) :
    (z.host.architecture 0).isSome ∨ TypeCovered source := by
  rw [or_iff_not_imp_right]
  intro hcovered
  unfold TypeCovered at hcovered
  obtain ⟨front, back, hfront, hbytes⟩ := hostDescrBytes_eq p addr z
  rw [← steady_getHostPhysMachineType (Unset.surjective_tmp 0)]
  intro g g'
  have hbyte : ∀ g, ((zoneDescrBytes p addr source (z.measured p g)).take 120)[83]? =
      some (UInt8.ofNat (getHostPhysMachineType (z.host.architecture 0) (g.tmp 0)).toNat) := by
    intro g
    have hplace := hfits
    unfold DescrFits at hplace
    have hp := p.psize_eq
    rw [List.getElem?_take, if_pos (by decide), getElem?_zoneDescrBytes hfits, if_neg (by omega),
      if_neg (by omega), if_neg (by omega), ZoneAnswers.measured, hbytes,
      List.getElem?_append_right (by omega), hfront]
    rfl
  have heq := hbyte g
  rw [show (zoneDescrBytes p addr source (z.measured p g)).take 120 = _ from h g g', hbyte,
    Option.some.injEq] at heq
  revert heq
  dsimp only
  unfold getHostPhysMachineType
  split <;> split <;> decide

theorem steady_zoneDescrBytes {z : ZoneAnswers} (hfits : DescrFits p source)
    (h : (z.host.architecture 0).isSome ∨ TypeCovered source) :
    Steady fun g => zoneDescrBytes p addr source (z.measured p g) := by
  intro g g'
  obtain ⟨front, back, hfront, hbytes⟩ := hostDescrBytes_eq p addr z
  apply List.ext_getElem?
  intro i
  rw [getElem?_zoneDescrBytes hfits, getElem?_zoneDescrBytes hfits, ZoneAnswers.measured,
    ZoneAnswers.measured, hbytes, hbytes]
  split
  · rfl
  split
  · rfl
  split
  · rfl
  · next hid hname =>
      rcases Nat.lt_trichotomy i 83 with hi | rfl | hi
      · rw [List.getElem?_append_left (by omega), List.getElem?_append_left (by omega)]
      · rcases h with harch | hcovered
        · have htype := (steady_getHostPhysMachineType (Unset.surjective_tmp 0)).mpr harch g g'
          rw [show getHostPhysMachineType _ (g.tmp 0) = _ from htype]
        · unfold TypeCovered at hcovered
          omega
      · rw [List.getElem?_append_right (by omega), List.getElem?_append_right (by omega), hfront]
        obtain ⟨j, rfl⟩ := Nat.exists_eq_add_of_lt hi
        rw [show 83 + j + 1 - 83 = j + 1 by omega, List.getElem?_cons_succ,
          List.getElem?_cons_succ]

/-- The description, where there is room for the name and the number. -/
def zoneDescr (addr : CrKind → FlatAddr p) (hfits : DescrFits p source) (sys : ZoneSystem) :
    LeafImage p .hostDescr :=
  ⟨zoneDescrBytes p addr source sys, by
    obtain ⟨vd, hvd⟩ := sflowCrHostDescrPackV_eq_ok.mpr hfits
    rw [← bytes_of_sflowCrHostDescrPackV hvd]
    exact vd.2⟩

theorem sflowCrHostDescrPackV_eq (hfits : DescrFits p source) :
    sflowCrHostDescrPackV p sys addr source = .ok (zoneDescr addr hfits sys) := by
  obtain ⟨vd, hvd⟩ := sflowCrHostDescrPackV_eq_ok.mpr hfits
  rw [hvd, Except.ok.injEq]
  exact Subtype.ext (bytes_of_sflowCrHostDescrPackV hvd)

theorem steadyBy_zoneDescr {z : ZoneAnswers} (hfits : DescrFits p source) :
    LeafImage.SteadyBy (fun g => zoneDescr addr hfits (z.measured p g)) (by decide)
      ((z.host.architecture 0).isSome ∨ TypeCovered source) := by
  have hbytes : ∀ g, ((zoneDescr addr hfits (z.measured p g)).toInput (by decide)).bytes =
      (zoneDescrBytes p addr source (z.measured p g)).take 120 := by
    intro g
    have hcut : CrKind.hostDescr.sizeof p - p.psize = 120 := by
      rw [sizeof_hostDescr, Nat.add_sub_cancel]
    exact congrArg (List.take · (zoneDescrBytes p addr source (z.measured p g))) hcut
  refine ⟨fun h g g' ↦ Subtype.ext (steady_zoneDescrBytes hfits h g g'), fun h ↦ ?_⟩
  simp only [hbytes] at h
  exact isSome_of_steady_zoneDescrBytes hfits h

end Descr

/-! ## The other records -/

/-- The answers that make up for all that is unset. -/
structure ZoneAnswers.Complete (p : Platform) (z : ZoneAnswers) (source : SflowSource) : Prop where
  architecture : (z.host.architecture 0).isSome ∨ TypeCovered source
  mhz : z.host.MhzKnown p
  cpuTime : z.CpuTimeKnown source
  links : ∀ a ∈ z.links, a.Has LinkStat64.total LinkStat32.total

section Records

variable {p : Platform} {addr : CrKind → FlatAddr p} {source : SflowSource} {z : ZoneAnswers}

theorem steadyBy_sflowCrVirtNodePack (hfit : z.host.CpuBuffersFit) :
    LeafImage.SteadyBy (fun g => sflowCrVirtNodePack p (z.measured p g) addr) (by decide)
      (z.host.MhzKnown p) := by
  let us (g : Unset) : List (List UInt8) :=
    [wordBytes p.endian (htonl p.endian ((z.measured p g).cpuSpeed / 1000000)),
      wordBytes p.endian (htonl p.endian (z.host.ncpus.getD 0)),
      hyperBytes p.endian (htonH p.endian (z.measured p g).physMem),
      hyperBytes p.endian (htonH p.endian (z.host.memFree g)),
      wordBytes p.endian (htonl p.endian (z.numZones - 1))]
  have hmem : Steady fun g => (z.measured p g).physMem := by
    intro g g'
    simp only [ZoneAnswers.measured, ZoneAnswers.system, getHostPhysMemBytes_eq]
  have hfree : Steady z.host.memFree := by
    intro g g'
    simp only [HostAnswers.memFree, getHostPhysPageSize_eq]
  have hmhz : (Steady fun g => (z.measured p g).cpuSpeed / 1000000) ↔ z.host.MhzKnown p := by
    rw [← steady_mhz hfit, ← steady_surjective Unset.surjective_bufBig]
    simp only [ZoneAnswers.measured, ZoneAnswers.system, cpuSpeed_walkCpus]
  have hus : Steady us ↔ z.host.MhzKnown p := by
    simp only [us, steady_cons, steady_word, steady_hyper, steady_const, hmhz, hmem, hfree,
      and_true]
  exact LeafImage.steadyBy_of_fields (fun _ ↦ rfl) rfl (by decide) hus

/-- The processors of a zone whose state and number of processors are answered. -/
theorem exists_sflowCrVirtCpuPack_eq (addr : CrKind → FlatAddr p)
    (hstatus : (z.zoneGetattr source.zoneId .status).isSome)
    (hvcpus : (z.zoneGetattr source.zoneId .vcpus).isSome) :
    ∃ vc : Unset → LeafImage p .virtCpu,
      (∀ g, sflowCrVirtCpuPack p (z.measured p g) addr source = some (vc g)) ∧
        LeafImage.SteadyBy vc (by decide) (z.CpuTimeKnown source) := by
  obtain ⟨vcState, hstatus⟩ := Option.isSome_iff_exists.mp hstatus
  obtain ⟨vcpus, hvcpus⟩ := Option.isSome_iff_exists.mp hvcpus
  let us (g : Unset) : List (List UInt8) :=
    [wordBytes p.endian (htonl p.endian vcState.toUInt32),
      wordBytes p.endian (htonl p.endian (getUpTimeSec z.upTime g.ret *
        ((z.usage source).map (·.cpu)).getD g.bufInt / 10000)),
      wordBytes p.endian (htonl p.endian 0)]
  let vc (g : Unset) : LeafImage p .virtCpu :=
    .ofFields sflowCrVirtCpuT rfl (us g ++ [(addr .virtCpu).toList])
      (by simp [us, sflowCrVirtCpuT, CType.size])
  have hus : Steady us ↔ z.CpuTimeKnown source := by
    simp only [us, steady_cons, steady_word, steady_const, steady_cpuTime, true_and, and_true]
  refine ⟨vc, fun g ↦ ?_, LeafImage.steadyBy_of_fields (fun _ ↦ rfl) rfl (by decide) hus⟩
  have hattr : (z.measured p g).zoneGetattr = z.zoneGetattr := rfl
  rw [sflowCrVirtCpuPack, hattr, hstatus, hvcpus]
  rfl

/-- All that the memory record is made of. -/
theorem sflowCrVirtMemoryPack_congr {sys sys' : ZoneSystem}
    (hattr : sys.zoneGetattr = sys'.zoneGetattr) (hlist : sys.zoneList = sys'.zoneList)
    (hmem : sys.physMem = sys'.physMem) :
    sflowCrVirtMemoryPack p sys addr source = sflowCrVirtMemoryPack p sys' addr source := by
  simp only [sflowCrVirtMemoryPack, sflowGetZoneStat, hattr, hlist, hmem]

/-- No part of it is unset. -/
theorem exists_sflowCrVirtMemoryPack_eq (addr : CrKind → FlatAddr p)
    (hphysMcap : (z.zoneGetattr source.zoneId .physMcap).isSome) :
    ∃ vm : LeafImage p .virtMemory,
      ∀ g, sflowCrVirtMemoryPack p (z.measured p g) addr source = some vm := by
  have hsome : (sflowCrVirtMemoryPack p (z.measured p .zero) addr source).isSome :=
    sflowCrVirtMemoryPack_isSome.mpr hphysMcap
  obtain ⟨vm, hvm⟩ := Option.isSome_iff_exists.mp hsome
  refine ⟨vm, fun g ↦ ?_⟩
  have hmem : (z.measured p g).physMem = (z.measured p .zero).physMem := by
    simp only [ZoneAnswers.measured, ZoneAnswers.system, getHostPhysMemBytes_eq]
  have hsame : sflowCrVirtMemoryPack p (z.measured p g) addr source =
      sflowCrVirtMemoryPack p (z.measured p .zero) addr source :=
    sflowCrVirtMemoryPack_congr rfl rfl hmem
  rw [hsame, hvm]

/-- The counters of the links, each added up on its own. -/
theorem gatherZoneLinkTotal_linkStats (z : ZoneAnswers) (g : Unset) :
    gatherZoneLinkTotal (z.linkStats g) =
      { rbytes := linkTotal LinkAnswers.stat64 LinkBuffers.buffer64 [.rbytes64] g 0
          z.links.zipIdx
        obytes := linkTotal LinkAnswers.stat64 LinkBuffers.buffer64 [.obytes64] g 0
          z.links.zipIdx
        ierrors := linkTotal LinkAnswers.stat32 LinkBuffers.buffer32 [.ierrors] g 0
          z.links.zipIdx
        oerrors := linkTotal LinkAnswers.stat32 LinkBuffers.buffer32 [.oerrors] g 0
          z.links.zipIdx
        ipackets := linkTotal LinkAnswers.stat32 LinkBuffers.buffer32 [.ipackets] g 0
          z.links.zipIdx
        opackets := linkTotal LinkAnswers.stat32 LinkBuffers.buffer32 [.opackets] g 0
          z.links.zipIdx } := by
  have hfold : ∀ (xs : List (LinkAnswers × Nat)) (n : LinkStat),
      xs.foldl (fun n x =>
        { rbytes := n.rbytes + sflowGetLinkStat64 x.1 (g.links x.2) .rbytes64
          obytes := n.obytes + sflowGetLinkStat64 x.1 (g.links x.2) .obytes64
          ierrors := n.ierrors + sflowGetLinkStat32 x.1 (g.links x.2) .ierrors
          oerrors := n.oerrors + sflowGetLinkStat32 x.1 (g.links x.2) .oerrors
          ipackets := n.ipackets + sflowGetLinkStat32 x.1 (g.links x.2) .ipackets
          opackets := n.opackets + sflowGetLinkStat32 x.1 (g.links x.2) .opackets }) n =
        LinkStat.mk
          (linkTotal LinkAnswers.stat64 LinkBuffers.buffer64 [.rbytes64] g n.rbytes xs)
          (linkTotal LinkAnswers.stat64 LinkBuffers.buffer64 [.obytes64] g n.obytes xs)
          (linkTotal LinkAnswers.stat32 LinkBuffers.buffer32 [.ierrors] g n.ierrors xs)
          (linkTotal LinkAnswers.stat32 LinkBuffers.buffer32 [.oerrors] g n.oerrors xs)
          (linkTotal LinkAnswers.stat32 LinkBuffers.buffer32 [.ipackets] g n.ipackets xs)
          (linkTotal LinkAnswers.stat32 LinkBuffers.buffer32 [.opackets] g n.opackets xs) := by
    intro xs
    induction xs with
    | nil => exact fun _ ↦ rfl
    | cons x xs ih => exact fun n ↦ ih _
  rw [gatherZoneLinkTotal, ZoneAnswers.linkStats, List.foldl_map]
  exact hfold _ ⟨0, 0, 0, 0, 0, 0⟩

theorem steadyBy_sflowCrVirtNetIoPack :
    LeafImage.SteadyBy (fun g => sflowCrVirtNetIoPack p (z.measured p g) addr source)
      (by decide) (∀ a ∈ z.links, a.Has LinkStat64.total LinkStat32.total) := by
  let us (g : Unset) : List (List UInt8) :=
    let n := gatherZoneLinkTotal (z.linkStats g)
    [hyperBytes p.endian (htonH p.endian n.rbytes), wordBytes p.endian (htonl p.endian n.ipackets),
      wordBytes p.endian (htonl p.endian n.ierrors), wordBytes p.endian 0,
      hyperBytes p.endian (htonH p.endian n.obytes), wordBytes p.endian (htonl p.endian n.opackets),
      wordBytes p.endian (htonl p.endian n.oerrors), wordBytes p.endian 0]
  have himage : ∀ g, sflowCrVirtNetIoPack p (z.measured p g) addr source =
      .ofFields sflowCrVirtNetIoT rfl (us g ++ [(addr .virtNetIo).toList])
        (by simp [us, sflowCrVirtNetIoT, CType.size]) := fun _ ↦ rfl
  have hus : Steady us ↔ ∀ a ∈ z.links, a.Has LinkStat64.total LinkStat32.total := by
    rw [forall_has_total]
    simp only [us, gatherZoneLinkTotal_linkStats, steady_cons, steady_word, steady_hyper,
      steady_const, steady_linkTotal64 (List.nodup_singleton _),
      steady_linkTotal32 (List.nodup_singleton _), LinkStat64.total, LinkStat32.total,
      List.forall_mem_cons, List.not_mem_nil, false_implies, implies_true]
    tauto
  exact LeafImage.steadyBy_of_fields himage rfl (by decide) hus

end Records

end Sflow

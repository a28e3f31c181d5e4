import Sflow.Protocol.Hostv

/-!
# The time of a zone on the processors

`sflow_cr_virt_cpu_pack` multiplies the time since the boot, in seconds, with the
usage of the zone, of which 10000 is all, and divides by 10000 then.  The product
is a word, so on a busy zone it wraps around within five days.
-/

namespace Sflow

open C

variable {p : Platform} {addr : CrKind → FlatAddr p} {source : SflowSource} {sys : ZoneSystem}
  {zone : ZoneUsage}

/-! ## The field -/

/-- `vc_cpuTime` is the number `n` before its bytes are swapped. -/
def CpuTimeIs (p : Platform) (addr : CrKind → FlatAddr p) (source : SflowSource)
    (sys : ZoneSystem) (n : Nat) : Prop :=
  ∃ vc, sflowCrVirtCpuPack p sys addr source = some vc ∧
    ∃ x : UInt32, x.toNat = n ∧
      sflowCrVirtCpuT.field p.toAbi vc.1 "vc_cpuTime" = wordBytes p.endian (ntohl p.endian x)

/-- The zone answers to both of its attributes, and its usage is found. -/
structure UsageRead (source : SflowSource) (sys : ZoneSystem) (zone : ZoneUsage) : Prop where
  status : (sys.zoneGetattr source.zoneId .status).isSome
  vcpus : (sys.zoneGetattr source.zoneId .vcpus).isSome
  found : sflowGetZoneStat sys source.ssName = some zone

/-- What is asked of the zone does not depend on the time. -/
theorem UsageRead.withUpTime (h : UsageRead source sys zone) (t : UInt32) :
    UsageRead source { sys with upTime := t } zone :=
  ⟨h.status, h.vcpus, h.found⟩

theorem cpuTimeIs_iff (h : UsageRead source sys zone) (n : Nat) :
    CpuTimeIs p addr source sys n ↔ (sys.upTime * zone.cpu / 10000).toNat = n := by
  obtain ⟨vcState, hstatus⟩ := Option.isSome_iff_exists.mp h.status
  obtain ⟨vcpus, hvcpus⟩ := Option.isSome_iff_exists.mp h.vcpus
  let vals : List (List UInt8) :=
    [wordBytes p.endian (ntohl p.endian vcState.toUInt32),
      wordBytes p.endian (ntohl p.endian (sys.upTime * zone.cpu / 10000)),
      wordBytes p.endian (ntohl p.endian 0), (addr .virtCpu).toList]
  have hlen : vals.map List.length = sflowCrVirtCpuT.fields.map (·.2.size p.toAbi) := by
    simp [vals, sflowCrVirtCpuT, CType.size]
  have hpack : sflowCrVirtCpuPack p sys addr source =
      some (.ofFields sflowCrVirtCpuT rfl vals hlen) := by
    simp only [sflowCrVirtCpuPack, hstatus, hvcpus, h.found]
    rfl
  have hfield : sflowCrVirtCpuT.field p.toAbi
      (LeafImage.ofFields (k := .virtCpu) sflowCrVirtCpuT rfl vals hlen).1 "vc_cpuTime" =
        wordBytes p.endian (ntohl p.endian (sys.upTime * zone.cpu / 10000)) :=
    LeafImage.field_of_image rfl hlen (by decide) (show sflowCrVirtCpuT.fields[1]? = _ from rfl) rfl
  constructor
  · rintro ⟨vc, hvc, x, rfl, hx⟩
    rw [hpack, Option.some.injEq] at hvc
    rw [← hvc, hfield] at hx
    exact congrArg UInt32.toNat (wordBytes_htonl_inj.mp hx)
  · rintro rfl
    exact ⟨_, hpack, _, rfl, hfield⟩

/-! ## The product -/

/-- The quotient is right exactly if the product is. -/
theorem toNat_mul_div_eq_iff (t u : UInt32) :
    (t * u / 10000).toNat = t.toNat * u.toNat / 10000 ↔ t.toNat * u.toNat < 2 ^ 32 := by
  have hquot : (t * u / 10000).toNat = t.toNat * u.toNat % 2 ^ 32 / 10000 := by
    rw [UInt32.toNat_div, UInt32.toNat_mul]
    rfl
  rw [hquot]
  constructor
  · intro h
    -- what is cut off is more than the divisor
    omega
  · intro h
    rw [Nat.mod_eq_of_lt h]

/-- The time is the usage's part of the time since the boot, and was no longer before. -/
structure CpuTimeExact (p : Platform) (addr : CrKind → FlatAddr p) (source : SflowSource)
    (sys : ZoneSystem) (zone : ZoneUsage) : Prop where
  exact : CpuTimeIs p addr source sys (sys.upTime.toNat * zone.cpu.toNat / 10000)
  mono : ∀ t ≤ sys.upTime, ∀ m n, CpuTimeIs p addr source { sys with upTime := t } m →
    CpuTimeIs p addr source sys n → m ≤ n

/-- Where the usage of a zone is read, its time on the processors is exact exactly while a word
holds the product of both numbers. -/
theorem cpuTimeExact_iff (h : UsageRead source sys zone) (p : Platform)
    (addr : CrKind → FlatAddr p) :
    CpuTimeExact p addr source sys zone ↔ sys.upTime.toNat * zone.cpu.toNat < 2 ^ 32 := by
  constructor
  · intro hexact
    exact (toNat_mul_div_eq_iff _ _).mp ((cpuTimeIs_iff h _).mp hexact.exact)
  · intro hlt
    refine ⟨(cpuTimeIs_iff h _).mpr ((toNat_mul_div_eq_iff _ _).mpr hlt), ?_⟩
    intro t ht m n hm hn
    have hle : t.toNat * zone.cpu.toNat ≤ sys.upTime.toNat * zone.cpu.toNat :=
      Nat.mul_le_mul_right _ (UInt32.le_iff_toNat_le.mp ht)
    have hm := (cpuTimeIs_iff (h.withUpTime t) m).mp hm
    have hn := (cpuTimeIs_iff h n).mp hn
    rw [(toNat_mul_div_eq_iff _ _).mpr hlt] at hn
    rw [(toNat_mul_div_eq_iff _ _).mpr (Nat.lt_of_le_of_lt hle hlt)] at hm
    rw [← hm, ← hn]
    exact Nat.div_le_div_right hle

/-- A zone that has used all processors since the boot, for examples. -/
def ZoneSystem.busy (upTime : UInt32) : ZoneSystem :=
  { ZoneSystem.halted with
    zoneGetattr := fun _ _ => some 3
    zoneList := [⟨SflowSource.web.ssName, 10000, 0⟩]
    upTime := upTime }

/-- For `2 ^ 32 / 10000` seconds, almost five days, the time is right. -/
theorem cpuTimeExact_iff_busy :
    CpuTimeExact .amd64 (fun _ => Vector.replicate 8 1) .web (.busy 429496)
      ⟨SflowSource.web.ssName, 10000, 0⟩ :=
  (cpuTimeExact_iff ⟨by decide, by decide, by decide⟩ .amd64 _).mpr (by decide)

/-- A second later it starts again from zero. -/
theorem not_cpuTimeExact_busy :
    CpuTimeIs .amd64 (fun _ => Vector.replicate 8 1) .web (.busy 429497) 0 ∧
      ¬ CpuTimeExact .amd64 (fun _ => Vector.replicate 8 1) .web (.busy 429497)
        ⟨SflowSource.web.ssName, 10000, 0⟩ := by
  have h : UsageRead .web (.busy 429497) ⟨SflowSource.web.ssName, 10000, 0⟩ :=
    ⟨by decide, by decide, by decide⟩
  refine ⟨(cpuTimeIs_iff h 0).mpr (by decide), fun hexact ↦ ?_⟩
  have htime := (cpuTimeIs_iff h _).mp hexact.exact
  revert htime
  decide

end Sflow

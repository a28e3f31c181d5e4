import Sflow.Protocol.Virtual

/-!
# Samples of the polled sources

For each of the three kinds of sources that are polled, the answers with which a
sample has nothing in it but what was measured.  They are exact: where one is
missing, two runs in different unset memory flatten to different bytes, unless
nothing is flattened at all.
-/

namespace Sflow

open C

variable {R : Type} {p : Platform} {addr : CrKind → FlatAddr p} {source : SflowSource}

/-! ## Interfaces -/

section Ifgeneric

variable {ifgDatalink : UInt32} {a : LinkAnswers}

/-- The sample of an interface is made of the statistics of its datalink. -/
theorem onlyMeasured_getSampleIfgeneric :
    OnlyMeasured (R := R) (getSampleIfgeneric p addr source ifgDatalink a) ↔
      a.Has LinkStat64.generic LinkStat32.generic := by
  let image (g : Unset) : LeafImage p .ifGeneric :=
    sflowCounterGenericPack p addr source ifgDatalink a (g.links 0)
  have himage : LeafImage.SteadyBy image (by decide)
      (a.Has LinkStat64.generic LinkStat32.generic) :=
    LeafImage.steadyBy_of_fields (fun _ ↦ rfl) rfl (by decide)
      ((steady_surjective (Unset.surjective_links 0)).trans steady_sflowCounterGenericFields)
  let payloads (g : Unset) : List (PayloadInput p) := [(image g).toInput (by decide)]
  have hsample : ∀ g, getSampleIfgeneric p addr source ifgDatalink a g =
      .ok ((SampleInput.counter source (payloads g) : SampleInput p R).packed,
        { source with ssCount := source.ssCount + 1 }) := fun g ↦
    SampleInput.counterSample_eq source (show (payloads g).length < 2 ^ 32 by simp [payloads])
  have hsizes : ∀ g, (payloads g).map PayloadInput.size = [88] := by
    intro g
    simp only [payloads, List.map_cons, List.map_nil,
      size_toInput _ _ (sizeof_packed p (.ifGeneric, 88) (by decide))]
  constructor
  · intro h
    have hbytes := steady_of_onlyMeasured hsample hsizes (by decide) ⟨by decide, trivial⟩ h
    simp only [payloads, List.map_cons, List.map_nil, steady_cons] at hbytes
    exact himage.known_of_bytes hbytes.1
  · intro h
    exact onlyMeasured_of_steady
      (fun g ↦ sampleDefined_of_sizes (hsample g) (hsizes g) (by decide) ⟨by decide, trivial⟩)
      ((himage.steady h).map fun image =>
      counterSample source [(some (image.toInput (by decide)).toPayload, .ifGeneric)])

end Ifgeneric

/-! ## The host -/

section Hostphy

variable {q : HostAnswers}

/-- The sample of the host is made, and an `int` counts its bytes up to the last record. -/
structure HostAnswers.Emitted (q : HostAnswers) : Prop where
  cpuBuffers : q.CpuBuffersFit
  offsets : 368 + 16 * q.adapters.length < 2 ^ 31

theorem getSampleHostphy_eq (hcpu : q.CpuBuffersFit) (hlen : q.adapters.length < 2 ^ 28)
    (g : Unset) :
    getSampleHostphy (R := R) p addr q g source =
      .ok ((SampleInput.counter source (hostphyPayloads p addr q g)).packed,
        { source with ssCount := source.ssCount + 1 }) := by
  have hlen' : (q.adapterLinks g).length < 2 ^ 28 := by rwa [length_adapterLinks]
  have hcount : (hostphyPayloads p addr q g).length < 2 ^ 32 := by simp [hostphyPayloads]
  rw [getSampleHostphy]
  simp only [if_pos hlen', walkCpuInstancesForCpuCounters, if_pos hcpu, ok_bind]
  exact SampleInput.counterSample_eq source hcount

theorem sizes_hostphyPayloads (g : Unset) :
    (hostphyPayloads p addr q g).map PayloadInput.size =
      [120, 4 + 16 * q.adapters.length, 68, 72, 52, 40] := by
  have hadapters : (PayloadInput.adapters q.adaptersAddr (q.adapterLinks g) : PayloadInput p).size =
      4 + 16 * q.adapters.length := by
    rw [PayloadInput.size, length_adapterLinks]
  simp only [hostphyPayloads, List.map_cons, List.map_nil, hadapters,
    size_toInput _ _ (sizeof_packed p (.hostDescr, 120) (by decide)),
    size_toInput _ _ (sizeof_packed p (.hostCpu, 68) (by decide)),
    size_toInput _ _ (sizeof_packed p (.hostMemory, 72) (by decide)),
    size_toInput _ _ (sizeof_packed p (.hostDiskIo, 52) (by decide)),
    size_toInput _ _ (sizeof_packed p (.hostNetIo, 40) (by decide))]

theorem startsBelow_hostphySizes (n : Nat) :
    StartsBelow (2 ^ 31) ([120, 4 + 16 * n, 68, 72, 52, 40].map (8 + ·)) 12 ↔
      368 + 16 * n < 2 ^ 31 := by
  simp only [List.map_cons, List.map_nil, StartsBelow, and_true]
  constructor
  · rintro ⟨-, -, -, -, -, hlast⟩
    omega
  · intro h
    refine ⟨?_, ?_, ?_, ?_, ?_, ?_⟩ <;> omega

theorem steadyBy_sflowCrHostDescrPack :
    LeafImage.SteadyBy (sflowCrHostDescrPack p addr q) (by decide) (q.architecture 0).isSome :=
  LeafImage.steadyBy_of_fields (fun _ ↦ rfl) rfl (by decide) steady_sflowCrHostDescrFields

theorem steadyBy_sflowCrHostCpuPack :
    LeafImage.SteadyBy (fun g => sflowCrHostCpuPack p addr q g
      (walkCpus p (q.ncpus.getD 0) q.cpus g.bufBig {})) (by decide)
      (3 ≤ q.loadavg.length ∧ q.upTime.BootKnown ∧
        ∀ a ∈ q.cpus.head?, a.supportedFrequencies.isSome) :=
  LeafImage.steadyBy_of_fields (fun _ ↦ rfl) rfl (by decide) steady_sflowCrHostCpuFields

theorem steadyBy_sflowCrHostMemoryPack :
    LeafImage.SteadyBy (sflowCrHostMemoryPack p addr q) (by decide) (q.ncpusVm.isSome ∨
      ∀ x ∈ [VmAnswers.pgpgin, VmAnswers.pgout, VmAnswers.swapin, VmAnswers.swapout],
        ∀ n, vmShares n (fun i => x (q.vm i)) = 0) :=
  LeafImage.steadyBy_of_fields (fun _ ↦ rfl) rfl (by decide) steady_sflowCrHostMemoryFields

theorem steadyBy_sflowCrHostNetIoPack :
    LeafImage.SteadyBy (sflowCrHostNetIoPack p addr q) (by decide)
      (∀ a ∈ q.links, a.Has LinkStat64.total LinkStat32.total) :=
  LeafImage.steadyBy_of_fields (fun _ ↦ rfl) rfl (by decide) steady_sflowCrHostNetIoFields

/-- The bytes show what is missing. -/
theorem complete_of_steady
    (h : Steady fun g => (hostphyPayloads p addr q g).map PayloadInput.bytes) : q.Complete := by
  simp only [hostphyPayloads, List.map_cons, List.map_nil, steady_cons] at h
  obtain ⟨hdescr, hadapters, hcpu, hmemory, -, hnetIo, -⟩ := h
  obtain ⟨hload, hboot, hfreq⟩ := steadyBy_sflowCrHostCpuPack.known_of_bytes hcpu
  exact ⟨steadyBy_sflowCrHostDescrPack.known_of_bytes hdescr, steady_adapters.mp hadapters,
    hload, hboot, hfreq, steadyBy_sflowCrHostMemoryPack.known_of_bytes hmemory,
    steadyBy_sflowCrHostNetIoPack.known_of_bytes hnetIo⟩

theorem HostAnswers.Complete.steady (h : q.Complete) :
    Steady fun g => hostphyPayloads p addr q g := by
  intro g g'
  have hdescr : sflowCrHostDescrPack p addr q g = sflowCrHostDescrPack p addr q g' :=
    steadyBy_sflowCrHostDescrPack.steady h.architecture g g'
  have hcpu : sflowCrHostCpuPack p addr q g _ = sflowCrHostCpuPack p addr q g' _ :=
    steadyBy_sflowCrHostCpuPack.steady ⟨h.loadavg, h.bootKnown, h.frequencies⟩ g g'
  have hmemory : sflowCrHostMemoryPack p addr q g = sflowCrHostMemoryPack p addr q g' :=
    steadyBy_sflowCrHostMemoryPack.steady h.ncpusVm g g'
  have hnetIo : sflowCrHostNetIoPack p addr q g = sflowCrHostNetIoPack p addr q g' :=
    steadyBy_sflowCrHostNetIoPack.steady h.links g g'
  have hadapters : ∀ g, q.adapterLinks g = [] := by
    intro g
    rw [HostAnswers.adapterLinks, h.adapters, List.mapIdx_nil]
  simp only [hostphyPayloads, hdescr, hcpu, hmemory, hnetIo, hadapters]

theorem lt_of_flat {m : Memory R} (hm : m.Intact)
    (hlen : q.adapters.length < 2 ^ 28) {buf : Buf} {start : Nat} {g : Unset} {r : Buf × Nat}
    (hflat : sflowSampleFlat m
      (SampleInput.counter source (hostphyPayloads p addr q g)).packed buf start = .ok r) :
    368 + 16 * q.adapters.length < 2 ^ 31 := by
  have hsizes : ∀ i ∈ hostphyPayloads p addr q g, i.size < 2 ^ 32 := by
    intro i hi
    have hmem := List.mem_map_of_mem (f := PayloadInput.size) hi
    rw [sizes_hostphyPayloads] at hmem
    simp only [List.mem_cons, List.not_mem_nil, or_false] at hmem
    omega
  have hcount : (hostphyPayloads p addr q g).length < 2 ^ 32 := by simp [hostphyPayloads]
  have hoff := SampleInput.offsetsFit_of_flat hm hcount hsizes hflat
  exact (startsBelow_hostphySizes _).mp
    ((SampleInput.offsetsFit_of_sizes (sizes_hostphyPayloads g)).mp hoff)

/-- What it takes to make the sample. -/
theorem HostAnswers.fits_of_sample {g : Unset} {r : SflowSp p R × SflowSource}
    (h : getSampleHostphy p addr q g source = .ok r) :
    q.CpuBuffersFit ∧ q.adapters.length < 2 ^ 28 := by
  have hlen : q.adapters.length < 2 ^ 28 := by
    by_contra hlen
    rw [getSampleHostphy, if_neg (by rwa [length_adapterLinks])] at h
    cases h
  refine ⟨?_, hlen⟩
  by_contra hcpu
  rw [getSampleHostphy, if_pos (by rwa [length_adapterLinks]), walkCpuInstancesForCpuCounters,
    if_neg hcpu] at h
  cases h

/-- Only a sample that is made and whose bytes can be counted is flattened. -/
theorem HostAnswers.emitted_of_flat {m : Memory R} (hm : m.Intact) {buf : Buf} {start : Nat}
    {g : Unset} {r : Buf × Nat}
    (hflat : (do sflowSampleFlat m (← getSampleHostphy (R := R) p addr q g source).1 buf start) =
      .ok r) : q.Emitted := by
  obtain ⟨sp, hsample, hflat⟩ := bind_eq_ok.mp hflat
  obtain ⟨hcpu, hlen⟩ := HostAnswers.fits_of_sample hsample
  rw [getSampleHostphy_eq hcpu hlen, Except.ok.injEq] at hsample
  rw [← hsample] at hflat
  exact ⟨hcpu, lt_of_flat hm hlen hflat⟩

theorem HostAnswers.Emitted.length_lt (h : q.Emitted) : q.adapters.length < 2 ^ 28 := by
  have hoff := h.offsets
  omega

/-- A record of every payload is in the sample, so what is made is only flattened as a whole. -/
theorem HostAnswers.emitted_of_sampleDefined {g : Unset}
    (h : SampleDefined (getSampleHostphy (R := R) p addr q g source)) : q.Emitted := by
  obtain ⟨sp, source', hsample, hmem⟩ := h
  obtain ⟨hcpu, hlen⟩ := HostAnswers.fits_of_sample hsample
  rw [getSampleHostphy_eq hcpu hlen, Except.ok.injEq, Prod.mk.injEq] at hsample
  obtain ⟨rfl, -⟩ := hsample
  let m : Memory R := ⟨fun _ ↦ [], fun _ ↦ .ok⟩
  have hm : m.Intact := fun _ _ ↦ rfl
  rcases hmem m hm with ⟨bytes, hemits⟩ | ⟨⟨cs, hdata, cr, hcr, hnone⟩, -⟩
  · obtain ⟨ws, -, hflat⟩ := hemits (Buf.calloc bytes.length) 0 (by simp [Buf.calloc])
    exact ⟨hcpu, lt_of_flat hm hlen hflat⟩
  · cases hdata
    obtain ⟨i, -, rfl⟩ := List.mem_map.mp hcr
    cases hnone

theorem HostAnswers.Emitted.sampleDefined (h : q.Emitted) (g : Unset) :
    SampleDefined (getSampleHostphy (R := R) p addr q g source) := by
  have hoff := h.offsets
  refine sampleDefined_of_sizes (getSampleHostphy_eq h.cpuBuffers h.length_lt g)
    (sizes_hostphyPayloads g) ?_ ((startsBelow_hostphySizes _).mpr h.offsets)
  simp only [List.map_cons, List.map_nil, List.sum_cons, List.sum_nil]
  omega

/-- The sample of the host is made of answers exactly if all of them are there, and fit where they
are put. -/
theorem onlyMeasured_getSampleHostphy :
    OnlyMeasured (fun g => getSampleHostphy (R := R) p addr q g source) ↔
      q.CpuBuffersFit ∧ q.Complete := by
  constructor
  · intro h
    have hemitted := HostAnswers.emitted_of_sampleDefined (h.defined .zero)
    have hlt : 12 + ([120, 4 + 16 * q.adapters.length, 68, 72, 52, 40].map (8 + ·)).sum <
        2 ^ 32 := by
      have hoff := hemitted.offsets
      simp only [List.map_cons, List.map_nil, List.sum_cons, List.sum_nil]
      omega
    refine ⟨hemitted.cpuBuffers, complete_of_steady (steady_of_onlyMeasured
      (fun g ↦ getSampleHostphy_eq hemitted.cpuBuffers hemitted.length_lt g)
      sizes_hostphyPayloads hlt ((startsBelow_hostphySizes _).mpr hemitted.offsets) h)⟩
  · rintro ⟨hcpu, hcomplete⟩
    have hemitted : q.Emitted := by
      refine ⟨hcpu, ?_⟩
      rw [hcomplete.adapters]
      decide
    refine onlyMeasured_of_steady hemitted.sampleDefined fun g g' ↦ ?_
    have hpayloads : hostphyPayloads p addr q g = hostphyPayloads p addr q g' :=
      hcomplete.steady g g'
    rw [getSampleHostphy_eq hcpu hemitted.length_lt, getSampleHostphy_eq hcpu hemitted.length_lt,
      hpayloads]

end Hostphy

/-! ## Zones -/

section Hostv

variable {z : ZoneAnswers} {sys : ZoneSystem}

/-- The sample of a zone is made, and there is a structure in each of its records. -/
structure ZoneAnswers.Emitted (p : Platform) (z : ZoneAnswers) (source : SflowSource) :
    Prop where
  cpuBuffers : z.host.CpuBuffersFit
  descr : DescrFits p source
  attrs : ∀ attr, (z.zoneGetattr source.zoneId attr).isSome

def zoneSizes (p : Platform) : List Nat := zoneKinds.map fun k => k.sizeof p - p.psize

theorem sum_zoneSizes_lt (p : Platform) : 12 + ((zoneSizes p).map (8 + ·)).sum < 2 ^ 31 := by
  have hle : ∀ k ∈ zoneKinds, k.sizeof p - p.psize ≤ 208 := fun k hk ↦
    Nat.le_trans (Nat.sub_le _ _) (sizeof_le_of_mem hk)
  simp only [zoneKinds, List.forall_mem_cons] at hle
  simp only [zoneSizes, zoneKinds, List.map_cons, List.map_nil, List.sum_cons, List.sum_nil]
  omega

/-- With the attributes answered, a sample is made of six payloads, and they show what is
missing. -/
theorem exists_zonePayloads (h : z.Emitted p source) :
    ∃ payloads : Unset → List (PayloadInput p),
      (∀ g, z.sample (R := R) p addr source g =
        .ok ((SampleInput.counter source (payloads g)).packed,
          { source with ssCount := source.ssCount + 1 })) ∧
      (∀ g, (payloads g).map PayloadInput.size = zoneSizes p) ∧
      ((Steady fun g => (payloads g).map PayloadInput.bytes) → z.Complete p source) ∧
      (z.Complete p source → Steady payloads) := by
  obtain ⟨vc, hvc, hcpu⟩ :=
    exists_sflowCrVirtCpuPack_eq addr (h.attrs .status) (h.attrs .vcpus)
  obtain ⟨vm, hvm⟩ := exists_sflowCrVirtMemoryPack_eq addr (h.attrs .physMcap)
  have hdescr : LeafImage.SteadyBy (fun g => zoneDescr addr h.descr (z.measured p g)) _ _ :=
    steadyBy_zoneDescr h.descr
  have hnode : LeafImage.SteadyBy (fun g => sflowCrVirtNodePack p (z.measured p g) addr) _ _ :=
    steadyBy_sflowCrVirtNodePack h.cpuBuffers
  have hnetIo : LeafImage.SteadyBy
      (fun g => sflowCrVirtNetIoPack p (z.measured p g) addr source) _ _ :=
    steadyBy_sflowCrVirtNetIoPack
  let payloads (g : Unset) : List (PayloadInput p) :=
    [(zoneDescr addr h.descr (z.measured p g)).toInput (by decide),
      (sflowCrHostParentPackV p addr).toInput (by decide),
      (sflowCrVirtNodePack p (z.measured p g) addr).toInput (by decide),
      (vc g).toInput (by decide), vm.toInput (by decide),
      (sflowCrVirtNetIoPack p (z.measured p g) addr source).toInput (by decide)]
  refine ⟨payloads, fun g ↦ ?_, fun g ↦ rfl, fun hbytes ↦ ?_, fun hcomplete ↦ ?_⟩
  · have hcount : (payloads g).length < 2 ^ 32 := by simp [payloads]
    have hsystem : z.system g (walkCpus p (z.host.ncpus.getD 0) z.host.cpus g.bufBig {}) =
        z.measured p g := rfl
    rw [ZoneAnswers.sample, walkCpuInstancesForCpuCounters, if_pos h.cpuBuffers, ok_bind, hsystem,
      getSampleHostv, sflowCrHostDescrPackV_eq h.descr, ok_bind, hvc, hvm]
    exact SampleInput.counterSample_eq source hcount
  · simp only [payloads, List.map_cons, List.map_nil, steady_cons] at hbytes
    obtain ⟨hd, -, hn, hc, -, ht, -⟩ := hbytes
    exact ⟨hdescr.known_of_bytes hd, hnode.known_of_bytes hn, hcpu.known_of_bytes hc,
      hnetIo.known_of_bytes ht⟩
  · intro g g'
    have hd : zoneDescr addr h.descr (z.measured p g) = zoneDescr addr h.descr (z.measured p g') :=
      hdescr.steady hcomplete.architecture g g'
    have hn : sflowCrVirtNodePack p (z.measured p g) addr =
        sflowCrVirtNodePack p (z.measured p g') addr := hnode.steady hcomplete.mhz g g'
    have hc : vc g = vc g' := hcpu.steady hcomplete.cpuTime g g'
    have ht : sflowCrVirtNetIoPack p (z.measured p g) addr source =
        sflowCrVirtNetIoPack p (z.measured p g') addr source :=
      hnetIo.steady hcomplete.links g g'
    simp only [payloads, hd, hn, hc, ht]

/-- Flattening stops at the record of a query that was not answered. -/
theorem answers_of_flat {m : Memory R} {sp : SflowSp p R} {source' : SflowSource} {buf : Buf}
    {start : Nat} {r : Buf × Nat} (hsample : getSampleHostv p sys addr source = .ok (sp, source'))
    (hflat : sflowSampleFlat m sp buf start = .ok r) : Answers sys source := by
  by_contra hanswers
  obtain ⟨vd, hvd⟩ := sflowCrHostDescrPackV_eq_ok.mpr (descrFits_of_getSampleHostv hsample)
  obtain ⟨len, heq⟩ := getSampleHostv_eq (R := R) hvd
  rw [hsample, Except.ok.injEq, Prod.mk.injEq] at heq
  rw [heq.1] at hflat
  obtain ⟨buf', r', hslots⟩ := SflowSp.flatSlots_of_flat (by simp [recordContents]) hflat
  obtain ⟨payloads, k, rest, hcontents, -⟩ := exists_recordContents_eq addr hanswers vd
  have hk : (none, k) ∈ recordContents p sys addr source vd := by
    rw [hcontents]
    exact List.mem_append_right _ List.mem_cons_self
  obtain ⟨_, _, _, hrecord⟩ := flat_of_flatSlots hslots (List.mem_map_of_mem hk)
  exact sflowCounterRecordFlat_none hrecord

/-- What it takes to make the sample. -/
theorem ZoneAnswers.fits_of_sample {g : Unset} {r : SflowSp p R × SflowSource}
    (h : z.sample p addr source g = .ok r) : z.host.CpuBuffersFit ∧ DescrFits p source := by
  obtain ⟨cpu, hcpu, hsample⟩ := bind_eq_ok.mp h
  refine ⟨?_, descrFits_of_getSampleHostv hsample⟩
  by_contra hfit
  rw [walkCpuInstancesForCpuCounters, if_neg hfit] at hcpu
  cases hcpu

/-- Only a sample for which all of them were is flattened. -/
theorem ZoneAnswers.emitted_of_flat {m : Memory R} {buf : Buf} {start : Nat} {g : Unset}
    {r : Buf × Nat}
    (hflat : (do sflowSampleFlat m (← z.sample (R := R) p addr source g).1 buf start) = .ok r) :
    z.Emitted p source := by
  obtain ⟨⟨sp, source'⟩, hsample, hflat⟩ := bind_eq_ok.mp hflat
  obtain ⟨hcpu, hfits⟩ := ZoneAnswers.fits_of_sample hsample
  obtain ⟨cpu, -, hsample⟩ := bind_eq_ok.mp hsample
  exact ⟨hcpu, hfits, (answers_of_flat hsample hflat).forall⟩

/-- The three attributes of the zone that are asked for are answered. -/
def ZoneAnswers.Attrs (z : ZoneAnswers) (source : SflowSource) : Prop :=
  ∀ attr, (z.zoneGetattr source.zoneId attr).isSome

/-- Without an attribute the sample is made, and flattening it ends at the call through `NULL`. -/
theorem ZoneAnswers.sampleDefined_of_not_attrs (hcpu : z.host.CpuBuffersFit)
    (hfits : DescrFits p source) (h : ¬ z.Attrs source) (g : Unset) :
    SampleDefined (z.sample (R := R) p addr source g) := by
  have hnot : ¬ Answers (z.measured p g) source := fun hanswers ↦ h hanswers.forall
  obtain ⟨sp, source', hsample, hlacks, hstops⟩ :=
    exists_null_of_not_answers (R := R) addr hfits hnot
  refine ⟨sp, source', ?_, fun m _ ↦ .inr ⟨hlacks, hstops m⟩⟩
  rw [ZoneAnswers.sample, walkCpuInstancesForCpuCounters, if_pos hcpu, ok_bind]
  exact hsample

/-- The sample of a zone is made of answers exactly if what is answered fits where it is put, and
all answers are there, or an attribute is missing that ends it all. -/
theorem onlyMeasured_zone :
    OnlyMeasured (z.sample (R := R) p addr source) ↔
      z.host.CpuBuffersFit ∧ DescrFits p source ∧ (z.Attrs source → z.Complete p source) := by
  have hlt := sum_zoneSizes_lt p
  constructor
  · intro h
    obtain ⟨sp, source', hsample, -⟩ := h.defined .zero
    obtain ⟨hcpu, hfits⟩ := ZoneAnswers.fits_of_sample hsample
    refine ⟨hcpu, hfits, fun hattrs ↦ ?_⟩
    obtain ⟨payloads, hsample, hsizes, hknown, -⟩ := exists_zonePayloads ⟨hcpu, hfits, hattrs⟩
    exact hknown (steady_of_onlyMeasured hsample hsizes (Nat.lt_trans hlt (by decide))
      (StartsBelow.of_sum_lt hlt) h)
  · rintro ⟨hcpu, hfits, h⟩
    by_cases hattrs : z.Attrs source
    · obtain ⟨payloads, hsample, hsizes, -, hsteady⟩ :=
        exists_zonePayloads (R := R) ⟨hcpu, hfits, hattrs⟩
      refine onlyMeasured_of_steady (fun g ↦ sampleDefined_of_sizes (hsample g) (hsizes g)
        (Nat.lt_trans hlt (by decide)) (StartsBelow.of_sum_lt hlt)) fun g g' ↦ ?_
      have hpayloads := hsteady (h hattrs) g g'
      rw [hsample, hsample, hpayloads]
    · exact onlyMeasured_of_not_flat (ZoneAnswers.sampleDefined_of_not_attrs hcpu hfits hattrs)
        fun m _ buf start g r hflat ↦ hattrs (ZoneAnswers.emitted_of_flat hflat).attrs

end Hostv

/-! ## All of them -/

/-- A polled source, with the answers to the queries of one sample. -/
inductive PolledAnswers where
  | ifgeneric (ifgDatalink : UInt32) (a : LinkAnswers)
  | hostphy (q : HostAnswers)
  | hostv (z : ZoneAnswers)

namespace PolledAnswers

/-- The sample that is taken in some unset memory. -/
def sample (p : Platform) (addr : CrKind → FlatAddr p) (source : SflowSource) :
    PolledAnswers → Unset → Except Fault (SflowSp p R × SflowSource)
  | ifgeneric ifgDatalink a, g => getSampleIfgeneric p addr source ifgDatalink a g
  | hostphy q, g => getSampleHostphy p addr q g source
  | hostv z, g => z.sample p addr source g

/-- What is answered fits the buffers it is put into, and no answer is missing from the sample.
Where an attribute of a zone is not answered, nothing else matters: nothing is flattened then. -/
def Sufficient (p : Platform) (source : SflowSource) : PolledAnswers → Prop
  | ifgeneric _ a => a.Has LinkStat64.generic LinkStat32.generic
  | hostphy q => q.CpuBuffersFit ∧ q.Complete
  | hostv z => z.host.CpuBuffersFit ∧ DescrFits p source ∧ (z.Attrs source → z.Complete p source)

/-- Whatever is polled, the bytes only depend on what was measured exactly if no answer is missing
or too long. -/
theorem onlyMeasured_iff (p : Platform) (addr : CrKind → FlatAddr p) (source : SflowSource)
    (x : PolledAnswers) :
    OnlyMeasured (x.sample (R := R) p addr source) ↔ x.Sufficient p source := by
  cases x with
  | ifgeneric ifgDatalink a => exact onlyMeasured_getSampleIfgeneric
  | hostphy q => exact onlyMeasured_getSampleHostphy
  | hostv z => exact onlyMeasured_zone

/-- An interface whose speed cannot be read has the speed that lay in the memory. -/
theorem exists_not_onlyMeasured :
    let addr : CrKind → FlatAddr .amd64 := fun _ ↦ Vector.replicate 8 1
    let m : Memory (List UInt8) := ⟨id, fun _ ↦ .ok⟩
    let source := { SflowSource.net0 with ssType := .ifgeneric, ssInterval := 20, ssFmt := 2 }
    let a : LinkAnswers := ⟨fun stat ↦ if stat = .ifspeed then none else some 7, fun _ ↦ some 7⟩
    let memory (x : UInt64) : Unset :=
      { Unset.zero with links := fun _ ↦ ⟨fun _ ↦ x, fun _ ↦ 0⟩ }
    let run (x : UInt64) := do
      let r ← (ifgeneric 1 a).sample .amd64 addr source (memory x)
      sflowSampleFlat m r.1 (Buf.calloc 116) 0
    (∃ r r', run 0 = .ok r ∧ run 1 = .ok r' ∧ r.1.data ≠ r'.1.data) ∧
      ¬ OnlyMeasured ((ifgeneric 1 a).sample (R := List UInt8) .amd64 addr source) := by
  intro addr m source a memory run
  have hrun : ∃ r r', run 0 = .ok r ∧ run 1 = .ok r' ∧ r.1.data ≠ r'.1.data := by
    have hok : (run 0).isOk ∧ (run 1).isOk := by decide +kernel
    have hne : (run 0).map (·.1.data) ≠ (run 1).map (·.1.data) := by decide +kernel
    cases hr : run 0 with
    | error e =>
        rw [hr] at hok
        cases hok.1
    | ok r =>
        cases hr' : run 1 with
        | error e =>
            rw [hr'] at hok
            cases hok.2
        | ok r' =>
            rw [hr, hr'] at hne
            exact ⟨r, r', rfl, rfl, fun heq ↦ hne (congrArg Except.ok heq)⟩
  refine ⟨hrun, fun h ↦ ?_⟩
  obtain ⟨r, r', hr, hr', hne⟩ := hrun
  have heq := h.same m (fun _ _ ↦ rfl) (Buf.calloc 116) 0 (memory 0) (memory 1) r r' hr hr'
  exact hne (congrArg (fun r : Buf × Nat => r.1.data) heq)

end PolledAnswers

end Sflow

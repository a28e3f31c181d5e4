import Sflow.Protocol.RoundTrip
import Sflow.Sender.Mtu
import Sflow.Sender.Numbered
import Sflow.Sender.Tracked

/-!
# What arrives

From the threads that hand samples over to a collector that gets every datagram: what the
reference decoder makes of the datagrams, one after the other, is what was handed over,
in the order in which it came to the buffer.  A sample is flattened some time after it was
packed, so its packet is as memory holds it then.
-/

namespace Sflow

open C Run

variable {T R : Type} {p : Platform}

/-! ## Samples with their packets -/

/-- A sample whose packet is kept as memory holds it. -/
def SampleInput.frozen (m : Memory R) : SampleInput p R → SampleInput p (List UInt8)
  | flow source hent hfmt pkt len => .flow source hent hfmt (m.deref pkt) len
  | counter source payloads => .counter source payloads

/-- Memory in which a packet is what refers to it. -/
def Memory.kept : Memory (List UInt8) := ⟨id, fun _ ↦ .ok⟩

namespace SampleInput

variable {m : Memory R} {i : SampleInput p R}

theorem size_frozen (m : Memory R) (i : SampleInput p R) : (i.frozen m).size = i.size := by
  cases i <;> rfl

theorem sent_frozen (m : Memory R) (i : SampleInput p R) :
    (i.frozen m).sent .kept = i.sent m := by
  cases i <;> rfl

theorem wire_frozen (m : Memory R) (i : SampleInput p R) :
    (i.frozen m).packed.wire .kept = i.packed.wire m := by
  cases i <;> rfl

theorem InMemory.frozen (h : i.InMemory m) : (i.frozen m).InMemory .kept := by
  cases i with
  | flow => exact h
  | counter => trivial

end SampleInput

/-! ## The bytes of a datagram -/

/-- A datagram as a collector reads it. -/
def Sent.decoded (x : Sent p R) : Option DecodedDatagram := decodeDatagram x.bytes

/-- A sample, with the memory in which it was flattened. -/
abbrev Flattened (p : Platform) (R : Type) := SampleInput p R × Memory R

namespace Flattened

/-- A sample with its packet as it was flattened. -/
def kept (x : Flattened p R) : SampleInput p (List UInt8) := x.1.frozen x.2

/-- The part of a datagram that a sample becomes. -/
def wire (x : Flattened p R) : List UInt8 := x.1.packed.wire x.2

end Flattened

/-- The header of a datagram tells how many samples there are, and not which. -/
theorem header_around {R' : Type} {samples : List (SflowSp p R)} {samples' : List (SflowSp p R')}
    (h : samples.length = samples'.length) (datagramCount : Nat) (upTime : UInt32) :
    (SflowDg.around p datagramCount upTime samples).header =
      (SflowDg.around p datagramCount upTime samples').header := by
  simp only [SflowDg.header, SflowDg.around, h]

/-- What was flattened at different times is what would have been flattened at one. -/
theorem wire_kept (l : List (Flattened p R)) (datagramCount : Nat) (upTime : UInt32) :
    (SflowDg.around p datagramCount upTime ((l.map (·.1)).map SampleInput.packed)).header ++
        (l.map Flattened.wire).flatten =
      (SflowDg.around p datagramCount upTime
        ((l.map Flattened.kept).map SampleInput.packed)).wire .kept := by
  have hlength : ((l.map (·.1)).map SampleInput.packed).length =
      ((l.map Flattened.kept).map SampleInput.packed).length := by
    simp only [List.length_map]
  have hwire : (l.map Flattened.wire).flatten =
      ((l.map Flattened.kept).map SampleInput.packed).flatMap (·.wire .kept) := by
    rw [← List.flatMap_def, List.flatMap_map, List.flatMap_map]
    exact List.flatMap_congr fun y _ ↦ (SampleInput.wire_frozen y.2 y.1).symm
  rw [header_around hlength, SflowDg.wire, hwire]
  rfl

/-- The size that datagrams of small samples come to. -/
theorem SampleInput.totalSize_eq {l : List (SampleInput p R)} (h : ∀ i ∈ l, i.size < 2 ^ 32) :
    totalSize l = 28 + ((l.map packed).map fun sp => 8 + sp.length).sum := by
  have hlens : l.map (fun i => 8 + i.size) = (l.map packed).map fun sp => 8 + sp.length := by
    rw [List.map_map]
    exact List.map_congr_left fun i hi ↦ congrArg (8 + ·) (len_packed (h i hi)).symm
  rw [totalSize, hlens]

/-! ## What is handed over -/

/-- The samples that threads hand over can be sent, whatever the memory is when they are. -/
structure Sendable (I : SampleInput p R → Prop) (M : Memory R → Prop) : Prop where
  size : ∀ i, I i → i.size < 2 ^ 29
  inMemory : ∀ i m, I i → M m → i.InMemory m
  readable : ∀ i m, I i → M m → i.ReadableAfterFree m

/-- A sample that the packers make of an input. -/
def FromInput (I : SampleInput p R → Prop) (sp : SflowSp p R) : Prop := ∃ i, I i ∧ i.packed = sp

/-- A sample with the bytes it has become. -/
def FromFlattened (I : SampleInput p R → Prop) (M : Memory R → Prop) (sp : SflowSp p R)
    (bytes : List UInt8) : Prop :=
  ∃ x : Flattened p R, (I x.1 ∧ M x.2) ∧ x.1.packed = sp ∧ x.wire = bytes

/-- A datagram that was packed from the buffer, and is not too long for its size. -/
structure SflowDg.Whole (dg : SflowDg p R) : Prop where
  around : ∃ datagramCount upTime, dg = .around p datagramCount upTime dg.samples
  small : 28 + (dg.samples.map fun sp => 8 + sp.length).sum < 2 ^ 32

theorem Admitted.whole {list : SflowDataList (SflowSp p R)} (h : Admitted list)
    (datagramCount : Nat) (upTime : UInt32) :
    (SflowDg.around p datagramCount upTime list.data).Whole := by
  refine ⟨⟨datagramCount, upTime, rfl⟩, ?_⟩
  have hsum := h.sum_lt
  have hreal := sum_length_le list.data
  change 28 + (list.data.map fun sp => 8 + sp.length).sum < 2 ^ 32
  omega

namespace SflowDg.Whole

variable {dg : SflowDg p R}

theorem sampleNum_eq (h : dg.Whole) :
    (ntohl p.endian dg.sampleNum).toNat = dg.samples.length := by
  obtain ⟨⟨datagramCount, upTime, hdg⟩, hsmall⟩ := h
  have hcount := eight_mul_length_le dg.samples
  have hreal := add_eight_mul_le_sum (fun sp : SflowSp p R ↦ 8 + sp.length) dg.samples
    fun _ _ ↦ Nat.le_add_right 8 _
  have hcount' : dg.samples.length < 2 ^ 32 := by omega
  have hnum := SflowDg.sampleNum_around hcount' datagramCount upTime
  rwa [← hdg] at hnum

theorem size_eq (h : dg.Whole) : ∃ size, sflowDatagramSize dg = .ok size ∧
    size.toNat = 28 + (dg.samples.map fun sp => 8 + sp.length).sum :=
  ⟨_, sflowDatagramSize_eq h.sampleNum_eq, toNat_ofNat_of_lt h.small⟩

/-- All samples are in the datagram. -/
theorem samples_eq {x : Sent p R} (h : x.dg.Whole) : x.samples = x.dg.samples := by
  rw [Sent.samples, h.sampleNum_eq, List.take_length]

end SflowDg.Whole

theorem exists_map_eq {α β : Type} {f : α → β} {P : α → Prop} {ys : List β}
    (h : ∀ y ∈ ys, ∃ x, P x ∧ f x = y) : ∃ xs : List α, (∀ x ∈ xs, P x) ∧ xs.map f = ys := by
  induction ys with
  | nil => exact ⟨[], by simp, rfl⟩
  | cons y ys ih =>
      obtain ⟨x, hx, rfl⟩ := h y List.mem_cons_self
      obtain ⟨xs, hxs, rfl⟩ := ih fun y hy ↦ h y (List.mem_cons_of_mem _ hy)
      exact ⟨x :: xs, List.forall_mem_cons.mpr ⟨hx, hxs⟩, rfl⟩

section Handed

variable {I : SampleInput p R → Prop} {M : Memory R → Prop} {sp : SflowSp p R}

theorem Sendable.small (hI : Sendable I M) (h : FromInput I sp) : sp.Small := by
  obtain ⟨i, hi, rfl⟩ := h
  have hsize := hI.size i hi
  rw [SflowSp.Small, SflowSp.length, SampleInput.len_packed (by omega)]
  exact hsize

/-- Where there is room for it, flattening gives a sample its bytes. -/
theorem Sendable.emits (hI : Sendable I M) {m : Memory R} (hm : M m) (h : FromInput I sp) :
    ∃ bytes, bytes.length = 8 + sp.length ∧ Emits (sflowSampleFlat m sp) bytes := by
  obtain ⟨i, hi, rfl⟩ := h
  have hsize := hI.size i hi
  have hmem := hI.inMemory i m hi hm
  have hflattens := SampleInput.flattens_packed (by omega)
    (SampleInput.offsetsFit_of_size_lt (by omega)) hmem (hI.readable i m hi hm)
  refine ⟨_, ?_, SflowSp.emits hflattens⟩
  rw [SampleInput.length_wire_packed (by omega) hmem, SflowSp.length,
    SampleInput.len_packed (by omega)]

theorem Sendable.lays (hI : Sendable I M) {m : Memory R} (hm : M m) (h : FromInput I sp) :
    Lays (sflowSampleFlat m sp) (FromFlattened I M sp) := by
  obtain ⟨i, hi, rfl⟩ := h
  have hsize := hI.size i hi
  refine (SampleInput.lays_packed (by omega) (hI.inMemory i m hi hm)
    (hI.readable i m hi hm)).mono ?_
  rintro _ rfl
  exact ⟨(i, m), ⟨hi, hm⟩, rfl, rfl⟩

theorem FromFlattened.isImage (hI : Sendable I M) {bytes : List UInt8}
    (h : FromFlattened I M sp bytes) : sp.IsImage bytes := by
  obtain ⟨y, ⟨hi, hm⟩, rfl, rfl⟩ := h
  have hsize := hI.size y.1 hi
  exact SampleInput.isImage_wire_packed (by omega) (hI.inMemory y.1 y.2 hi hm)

theorem FromFlattened.length_eq (hI : Sendable I M) {bytes : List UInt8}
    (h : FromFlattened I M sp bytes) : bytes.length = 8 + sp.length := by
  obtain ⟨y, ⟨hi, hm⟩, rfl, rfl⟩ := h
  have hsize := hI.size y.1 hi
  rw [Flattened.wire, SampleInput.length_wire_packed (by omega) (hI.inMemory y.1 y.2 hi hm),
    SflowSp.length, SampleInput.len_packed (by omega)]

theorem length_flatten_of_fromFlattened (hI : Sendable I M) {sps : List (SflowSp p R)}
    {parts : List (List UInt8)} (h : List.Forall₂ (FromFlattened I M) sps parts) :
    parts.flatten.length = (sps.map fun sp => 8 + sp.length).sum := by
  induction h with
  | nil => rfl
  | cons hpart _ ih =>
      rw [List.flatten_cons, List.length_append, ih, hpart.length_eq hI, List.map_cons,
        List.sum_cons]

theorem exists_flattened {sps : List (SflowSp p R)} {parts : List (List UInt8)}
    (h : List.Forall₂ (FromFlattened I M) sps parts) :
    ∃ l : List (Flattened p R), (∀ y ∈ l, I y.1 ∧ M y.2) ∧
      (l.map (·.1)).map SampleInput.packed = sps ∧ l.map Flattened.wire = parts := by
  induction h with
  | nil => exact ⟨[], by simp, rfl, rfl⟩
  | cons hpart _ ih =>
      obtain ⟨y, hy, rfl, rfl⟩ := hpart
      obtain ⟨l, hl, rfl, rfl⟩ := ih
      exact ⟨y :: l, List.forall_mem_cons.mpr ⟨hy, hl⟩, rfl, rfl⟩

/-- What has been sent are the bytes of inputs. -/
theorem Sent.exists_inputs (hI : Sendable I M) {x : Sent p R} (hwhole : x.dg.Whole)
    (hmade : x.Made (FromFlattened I M)) :
    ∃ (l : List (Flattened p R)) (datagramCount : Nat) (upTime : UInt32),
      (∀ y ∈ l, I y.1 ∧ M y.2) ∧ (l.map (·.1)).map SampleInput.packed = x.dg.samples ∧
      x.dg = .around p datagramCount upTime x.dg.samples ∧
      SampleInput.totalSize (l.map Flattened.kept) < 2 ^ 32 ∧
      x.bytes = (SflowDg.around p datagramCount upTime
        ((l.map Flattened.kept).map SampleInput.packed)).wire .kept := by
  obtain ⟨parts, hparts, hbytes⟩ := hmade.parts
  rw [hwhole.samples_eq] at hparts
  obtain ⟨l, hl, hinputs, rfl⟩ := exists_flattened hparts
  obtain ⟨⟨datagramCount, upTime, hdg⟩, hsmall⟩ := hwhole
  have hsize : ∀ i ∈ l.map (·.1), i.size < 2 ^ 32 := by
    intro i hi
    obtain ⟨y, hy, rfl⟩ := List.mem_map.mp hi
    have hsize := hI.size y.1 (hl y hy).1
    omega
  refine ⟨l, datagramCount, upTime, hl, hinputs, hdg, ?_, ?_⟩
  · rw [← hinputs, ← SampleInput.totalSize_eq hsize] at hsmall
    simpa only [SampleInput.totalSize, List.map_map, Function.comp_def, Flattened.kept,
      SampleInput.size_frozen] using hsmall
  · rw [hbytes, hdg, ← hinputs]
    exact wire_kept l datagramCount upTime

theorem Sendable.inMemory_kept (hI : Sendable I M) {l : List (Flattened p R)}
    (hl : ∀ y ∈ l, I y.1 ∧ M y.2) : ∀ i ∈ l.map Flattened.kept, i.InMemory .kept := by
  intro i hi
  obtain ⟨y, hy, rfl⟩ := List.mem_map.mp hi
  exact (hI.inMemory y.1 y.2 (hl y hy).1 (hl y hy).2).frozen

/-- What is decoded of a datagram. -/
theorem Sent.exists_decoded (hI : Sendable I M) {x : Sent p R} (hwhole : x.dg.Whole)
    (hmade : x.Made (FromFlattened I M)) :
    ∃ (l : List (Flattened p R)) (dg : DecodedDatagram), (∀ y ∈ l, I y.1 ∧ M y.2) ∧
      (l.map (·.1)).map SampleInput.packed = x.dg.samples ∧ x.decoded = some dg ∧
      dg.seqNo = x.dg.seqNo ∧ dg.samples = l.map fun y => y.1.sent y.2 := by
  obtain ⟨l, datagramCount, upTime, hl, hinputs, hdg, htotal, hbytes⟩ :=
    Sent.exists_inputs hI hwhole hmade
  have hdecode := SampleInput.decodeDatagram_wire htotal (hI.inMemory_kept hl) datagramCount upTime
  refine ⟨l, sentDatagram p .kept datagramCount upTime (l.map Flattened.kept), hl, hinputs,
    ?_, ?_, ?_⟩
  · rw [Sent.decoded, hbytes]
    exact hdecode
  · rw [hdg, SflowDg.seqNo, SflowDg.around, ntohl_htonl]
    rfl
  · simp only [sentDatagram, List.map_map, Function.comp_def, Flattened.kept,
      SampleInput.sent_frozen]

/-- What is decoded of datagrams, one after the other. -/
theorem Sent.exists_decoded_all (hI : Sendable I M) {xs : List (Sent p R)}
    (hwhole : ∀ x ∈ xs, x.dg.Whole) (hmade : ∀ x ∈ xs, x.Made (FromFlattened I M)) :
    ∃ (l : List (Flattened p R)) (dgs : List DecodedDatagram), (∀ y ∈ l, I y.1 ∧ M y.2) ∧
      (l.map (·.1)).map SampleInput.packed = xs.flatMap (·.dg.samples) ∧
      xs.mapM Sent.decoded = some dgs ∧ dgs.map (·.seqNo) = xs.map (·.dg.seqNo) ∧
      dgs.flatMap (·.samples) = l.map fun y => y.1.sent y.2 := by
  induction xs with
  | nil => exact ⟨[], [], by simp, rfl, rfl, rfl, rfl⟩
  | cons x xs ih =>
      rw [List.forall_mem_cons] at hwhole hmade
      obtain ⟨l, dg, hl, hinputs, hdecoded, hseq, hsamples⟩ :=
        Sent.exists_decoded hI hwhole.1 hmade.1
      obtain ⟨ls, dgs, hls, hinputs', hdecoded', hseqs, hsamples'⟩ := ih hwhole.2 hmade.2
      refine ⟨l ++ ls, dg :: dgs, ?_, ?_, ?_, ?_, ?_⟩
      · rw [List.forall_mem_append]
        exact ⟨hl, hls⟩
      · rw [List.map_append, List.map_append, hinputs, hinputs', List.flatMap_cons]
      · rw [List.mapM_cons, hdecoded, hdecoded']
        rfl
      · rw [List.map_cons, List.map_cons, hseq, hseqs]
      · rw [List.flatMap_cons, List.map_append, hsamples, hsamples']

end Handed

/-! ## Along a run -/

/-- A datagram is whole from the time that it is packed on. -/
theorem Moves.whole {env : Env R} {sh sh' : Shared p R} {pc pc' : Pc p R}
    (hm : Moves env sh pc sh' pc')
    (hlist : ∀ list, sh.sflowBufferedSamples = some list → list.WellFormed ∧ Admitted list)
    (hpc : ∀ dg, pc.inFlight = some dg → dg.Whole) (hsent : ∀ x ∈ sh.sent, x.dg.Whole) :
    (∀ dg, pc'.inFlight = some dg → dg.Whole) ∧ ∀ x ∈ sh'.sent, x.dg.Whole := by
  cases hm with
  | @pack caller list dg buf offBuf size hbuf hdg =>
      obtain ⟨hwf, hadmitted⟩ := hlist list hbuf
      rw [sflowDatagramPack_eq hwf, Except.ok.injEq] at hdg
      refine ⟨?_, hsent⟩
      rintro _ ⟨⟩
      rw [← hdg]
      exact hadmitted.whole _ _
  | @send caller dg todo buf offBuf =>
      refine ⟨fun dg' hdg' ↦ (by cases hdg'), fun x hx ↦ ?_⟩
      rcases List.mem_append.mp hx with hx | hx
      · exact hsent x hx
      · rw [List.mem_singleton.mp hx]
        exact hpc dg rfl
  | @create caller =>
      refine ⟨fun dg hdg ↦ ?_, hsent⟩
      rw [Pc.inFlight_returnPc] at hdg
      cases hdg
  | _ => exact ⟨hpc, hsent⟩

/-- The next sample has room in the buffer of its datagram. -/
theorem Laid.room_for {I : SampleInput p R → Prop} {M : Memory R → Prop} (hI : Sendable I M)
    {dg : SflowDg p R} (hwhole : dg.Whole) {done todo : List (SflowSp p R)} {sp : SflowSp p R}
    {data : List UInt8} {offBuf : Nat} (h : Laid (FromFlattened I M) dg done data offBuf)
    (hsamples : done ++ sp :: todo = dg.samples) : offBuf + (8 + sp.length) ≤ data.length := by
  obtain ⟨size, hsize, hlen⟩ := h.size
  obtain ⟨parts, hparts, rfl, -⟩ := h.parts
  obtain ⟨size', hsize', htotal⟩ := hwhole.size_eq
  rw [hsize, Except.ok.injEq] at hsize'
  rw [hlen, hsize', htotal, ← hsamples, length_flatten_of_fromFlattened hI hparts, List.map_append,
    List.sum_append, List.map_cons, List.sum_cons]
  omega

/-- Flattening what can be sent does not fault. -/
theorem Moves.unfaulted {I : SampleInput p R → Prop} {M : Memory R → Prop} (hI : Sendable I M)
    {env : Env R} (hm : M env.mem) {sh sh' : Shared p R} {pc pc' : Pc p R}
    (h : Moves env sh pc sh' pc')
    (hlist : ∀ list, sh.sflowBufferedSamples = some list → list.WellFormed ∧ Admitted list)
    (hflight : ∀ dg, pc.inFlight = some dg → dg.Whole) (hpc : ∀ sp ∈ pc.samples, FromInput I sp)
    (hdone : pc.Flattened (FromFlattened I M)) (hsh : sh.faulted = false) :
    sh'.faulted = false := by
  cases h with
  | @startFaults caller list dg e hbuf hdg hstart =>
      obtain ⟨hwf, hadmitted⟩ := hlist list hbuf
      rw [sflowDatagramPack_eq hwf, Except.ok.injEq] at hdg
      have hwhole : dg.Whole := hdg ▸ hadmitted.whole _ _
      obtain ⟨size, hsize, htotal⟩ := hwhole.size_eq
      rw [SflowDg.sflowDatagramStart_eq hsize (by omega)] at hstart
      cases hstart
  | @flatFaults caller dg count todo buf offBuf e hnext =>
      obtain ⟨done, hsamples, hcount, hlaid⟩ := hdone
      have hwhole := hflight dg rfl
      cases todo with
      | nil =>
          rw [hwhole.sampleNum_eq, ← hsamples, List.append_nil] at hcount
          omega
      | cons sp todo =>
          obtain ⟨size, -, hlen⟩ := hlaid.size
          have hlt := size.toNat_lt
          have hroom := hlaid.room_for hI hwhole hsamples
          obtain ⟨bytes, hbytes, hemits⟩ :=
            hI.emits hm (hpc sp (List.mem_append_right _ List.mem_cons_self))
          obtain ⟨ws, -, hflat⟩ := hemits buf offBuf (by omega)
          have hoff : offBuf < 2 ^ 32 := by omega
          rw [flatNext, if_pos hoff, hflat] at hnext
          cases hnext
  | _ => exact hsh

/-- What is on its way was handed over, and what was sent is whole and carries it. -/
structure Delivering (I : SampleInput p R → Prop) (M : Memory R → Prop) (s : Sender T p R) :
    Prop where
  estimating : Estimating s
  tracked : Tracked (FromInput I) (FromFlattened I M) s
  numbered : ∃ dgs, DatagramsNumbered s dgs
  flight : ∀ a dg, (s.pc a).inFlight = some dg → dg.Whole
  sent : ∀ x ∈ s.sh.sent, x.dg.Whole
  unfaulted : s.sh.faulted = false

/-- Threads hand over samples of inputs, and memory is one of those expected. -/
def Action.Within (I : SampleInput p R → Prop) (M : Memory R → Prop) : Action T p R → Prop
  | call _ sample => FromInput I sample
  | run _ env => M env.mem
  | expire => True

namespace Delivering

variable {I : SampleInput p R → Prop} {M : Memory R → Prop}

theorem init : Delivering I M (Sender.init : Sender T p R) where
  estimating := Estimating.init
  tracked := Tracked.init
  numbered := ⟨[], DatagramsNumbered.init⟩
  flight := by rintro (_ | _) dg h <;> cases h
  sent := by simp [Sender.init]
  unfaulted := rfl

variable [DecidableEq T] {s s' : Sender T p R}

theorem step (hI : Sendable I M) (h : Delivering I M s) {l : Action T p R} (hl : l.Within I M)
    (hs : s.step l = some s') : Delivering I M s' := by
  have hbuffered := h.estimating.buffered
  have hcall : ∀ t sample, l = .call t sample → FromInput I sample := by
    rintro t sample rfl
    exact hl
  obtain ⟨dgs, hdgs⟩ := h.numbered
  have hlist : ∀ list, s.sh.sflowBufferedSamples = some list → list.WellFormed ∧ Admitted list :=
    fun list hlist ↦ ⟨hbuffered.wellFormed list hlist, h.estimating.shared.list list hlist⟩
  have hmoved : (∀ a dg, (s'.pc a).inFlight = some dg → dg.Whole) ∧
      (∀ x ∈ s'.sh.sent, x.dg.Whole) ∧ s'.sh.faulted = false := by
    rcases Sender.step_cases hs with ⟨t, sample, rfl, -, rfl⟩ | ⟨a, env, sh, pc, rfl, -, hm, rfl⟩ |
      ⟨rfl, -, rfl⟩
    · refine ⟨?_, h.sent, h.unfaulted⟩
      refine (Cfg.forall_move (P := fun _ (pc : Pc p R) ↦ ∀ dg, pc.inFlight = some dg →
        dg.Whole)).mpr ⟨?_, fun b _ ↦ h.flight b⟩
      rintro dg ⟨⟩
    · obtain ⟨hpc, hsent⟩ := hm.whole hlist (h.flight a) h.sent
      have hunfaulted := hm.unfaulted hI hl hlist (h.flight a) (h.tracked.samples a)
        (h.tracked.flattened a) h.unfaulted
      exact ⟨Cfg.forall_move (P := fun _ (pc : Pc p R) ↦ ∀ dg, pc.inFlight = some dg →
        dg.Whole) |>.mpr ⟨hpc, fun b _ ↦ h.flight b⟩, hsent, hunfaulted⟩
    · exact ⟨h.flight, h.sent, h.unfaulted⟩
  obtain ⟨hflight, hsent, hunfaulted⟩ := hmoved
  constructor
  · exact h.estimating.step (fun t sample heq ↦ hI.small (hcall t sample heq)) hs
  · refine h.tracked.step hbuffered (fun _ _ hb ↦ hb.isImage hI) hcall ?_ hs
    rintro a env rfl sp - hsp
    exact hI.lays hl hsp
  · exact hdgs.step hbuffered hs
  · exact hflight
  · exact hsent
  · exact hunfaulted

theorem run (hI : Sendable I M) {ls : List (Action T p R)} (hls : ∀ l ∈ ls, l.Within I M)
    (h : Run.run Sender.step Sender.init ls = some s) : Delivering I M s :=
  run_induction_of_meets (C := fun _ l => Action.Within I M l)
    (fun _ _ _ h hl hs ↦ h.step hI hl hs) init (meets_of_forall hls) h

omit [DecidableEq T] in
/-- What is in a datagram that is being flattened was handed over. -/
theorem fromInput_of_inFlight (h : Delivering I M s) {a : Agent T} {dg : SflowDg p R}
    (ha : (s.pc a).inFlight = some dg) : ∀ sp ∈ dg.samples, FromInput I sp := by
  have hsamples := h.tracked.samples a
  have hflattened := h.tracked.flattened a
  generalize s.pc a = pc at ha hsamples hflattened
  cases pc with
  | send caller pc =>
      cases pc with
      | flat dg' count todo buf offBuf =>
          cases ha
          obtain ⟨done, hdone, -, hlaid⟩ := hflattened
          obtain ⟨parts, hparts, -⟩ := hlaid.parts
          obtain ⟨l, hl, rfl, -⟩ := exists_flattened hparts
          rw [← hdone, List.forall_mem_append]
          refine ⟨fun sp hsp ↦ ?_, fun sp hsp ↦ hsamples sp (List.mem_append_right _ hsp)⟩
          obtain ⟨i, hi, rfl⟩ := List.mem_map.mp hsp
          obtain ⟨y, hy, rfl⟩ := List.mem_map.mp hi
          exact ⟨y.1, (hl y hy).1, rfl⟩
      | _ => cases ha
  | _ => cases ha

omit [DecidableEq T] in
/-- What has been put into the buffer has been sent, or is still to be. -/
theorem exists_pending (h : Delivering I M s) :
    ∃ pending : List (SflowSp p R), s.sh.appended = s.sh.sent.flatMap (·.dg.samples) ++ pending ∧
      (∀ sp ∈ pending, FromInput I sp) ∧
      ((∀ a, (s.pc a).inFlight = none) → pending = s.sh.waiting) := by
  obtain ⟨dgs, hdgs⟩ := h.numbered
  have hlog : s.sh.packed.flatten ++ s.sh.waiting = s.sh.appended := h.estimating.buffered.log
  rw [hdgs.packed] at hlog
  by_cases hflight : ∃ a dg, (s.pc a).inFlight = some dg
  · obtain ⟨a, dg, ha⟩ := hflight
    refine ⟨dg.samples ++ s.sh.waiting, ?_, ?_, fun hnone ↦ ?_⟩
    · rw [← hlog, hdgs.flattening a dg ha]
      simp [List.flatMap_def, Function.comp_def]
    · rw [List.forall_mem_append]
      exact ⟨h.fromInput_of_inFlight ha, h.tracked.waiting⟩
    · rw [hnone] at ha
      cases ha
  · simp only [not_exists, ← Option.eq_none_iff_forall_ne_some] at hflight
    refine ⟨s.sh.waiting, ?_, h.tracked.waiting, fun _ ↦ rfl⟩
    rw [← hlog, hdgs.done hflight]
    simp [List.flatMap_def, Function.comp_def]

omit [DecidableEq T] in
/-- What a collector that gets all the datagrams makes of them. -/
theorem exists_delivered (h : Delivering I M s) (hI : Sendable I M) :
    ∃ (delivered : List (Flattened p R)) (pending : List (SampleInput p R))
      (dgs : List DecodedDatagram),
      (∀ x ∈ delivered, I x.1 ∧ M x.2) ∧ (∀ i ∈ pending, I i) ∧
      s.sh.appended = (delivered.map (·.1) ++ pending).map SampleInput.packed ∧
      s.sh.sent.mapM Sent.decoded = some dgs ∧
      Numbered DecodedDatagram.seqNo UInt32.ofNat dgs ∧
      dgs.flatMap (·.samples) = delivered.map (fun x => x.1.sent x.2) ∧
      ((∀ a, (s.pc a).inFlight = none) →
        pending.map SampleInput.packed = s.sh.waiting) := by
  obtain ⟨dgs', hdgs'⟩ := h.numbered
  obtain ⟨pendingSps, hsplit, hpending, hquiet⟩ := h.exists_pending
  obtain ⟨pending, hinputs, rfl⟩ := exists_map_eq hpending
  obtain ⟨l, dgs, hl, hpacked, hdecoded, hseqs, hsamples⟩ :=
    Sent.exists_decoded_all hI h.sent h.tracked.sent
  refine ⟨l, pending, dgs, hl, hinputs, ?_, hdecoded, ?_, hsamples, hquiet⟩
  · rw [hsplit, ← hpacked, List.map_append]
  · have hlength := congrArg List.length hseqs
    rw [List.length_map, List.length_map] at hlength
    rw [Numbered, hseqs, hlength]
    have hnumbered := hdgs'.sent_numbered.1
    rw [Numbered, List.map_map, List.length_map] at hnumbered
    exact hnumbered

end Delivering

/-- In every run, whatever the interleaving: flattening does not fault, and a collector that gets
all the datagrams decodes each of them, numbered from 0 on, and reads one after the other the
samples that were put into the buffer, in that order, each with its packet as memory held it at
some step.  What it has not read yet is still to be sent. -/
theorem sent_decoded [DecidableEq T] {I : SampleInput p R → Prop} {M : Memory R → Prop}
    (hI : Sendable I M) {ls : List (Action T p R)} {s : Sender T p R}
    (h : run Sender.step Sender.init ls = some s) (hls : ∀ l ∈ ls, l.Within I M) :
    s.sh.faulted = false ∧
    ∃ (delivered : List (Flattened p R)) (pending : List (SampleInput p R))
      (dgs : List DecodedDatagram),
      (∀ x ∈ delivered, I x.1 ∧ M x.2) ∧ (∀ i ∈ pending, I i) ∧
      s.sh.appended = (delivered.map (·.1) ++ pending).map SampleInput.packed ∧
      s.sh.sent.mapM Sent.decoded = some dgs ∧
      Numbered DecodedDatagram.seqNo UInt32.ofNat dgs ∧
      dgs.flatMap (·.samples) = delivered.map (fun x => x.1.sent x.2) ∧
      ((∀ a, (s.pc a).inFlight = none) →
        pending.map SampleInput.packed = s.sh.waiting) :=
  ⟨(Delivering.run hI hls h).unfaulted, (Delivering.run hI hls h).exists_delivered hI⟩

theorem ssEnt_net0 : SflowSource.net0.ssEnt = 0 := rfl

theorem ssFmt_net0 : SflowSource.net0.ssFmt = 1 := rfl

/-- The input of the sample of a packet of six bytes. -/
def SampleInput.six : SampleInput .amd64 (List UInt8) :=
  .flow .net0 ssEnt_net0 ssFmt_net0 [1, 2, 3, 4, 5, 6] 6

theorem sendable_six : Sendable (· = SampleInput.six) (· = Env.still.mem) where
  size := by
    rintro i rfl
    decide +kernel
  inMemory := by
    rintro i m rfl rfl
    exact Nat.le_refl 6
  readable := by
    rintro i m rfl rfl
    trivial

theorem within_appendAndFlush :
    ∀ l ∈ Action.appendAndFlush, l.Within (· = SampleInput.six) (· = Env.still.mem) := by
  intro l hl
  simp only [Action.appendAndFlush, Action.go, List.mem_cons, List.mem_append,
    List.mem_replicate] at hl
  rcases hl with (rfl | ⟨-, rfl⟩) | rfl | ⟨-, rfl⟩
  · exact ⟨_, rfl, rfl⟩
  · rfl
  · trivial
  · rfl

/-- The packet arrives. -/
theorem sent_decoded_appendAndFlush :
    ∃ (s : Sender Unit .amd64 (List UInt8)) (delivered : List (Flattened .amd64 (List UInt8)))
      (pending : List (SampleInput .amd64 (List UInt8))) (dgs : List DecodedDatagram),
      run Sender.step Sender.init Action.appendAndFlush = some s ∧
      s.sh.appended = (delivered.map (·.1) ++ pending).map SampleInput.packed ∧
      s.sh.sent.mapM Sent.decoded = some dgs ∧
      dgs.flatMap (·.samples) = delivered.map (fun x => x.1.sent x.2) := by
  have hrun : (run Sender.step (Sender.init : Sender Unit .amd64 (List UInt8))
      Action.appendAndFlush).isSome := by decide +kernel
  obtain ⟨s, hs⟩ := Option.isSome_iff_exists.mp hrun
  obtain ⟨-, delivered, pending, dgs, -, -, happended, hdecoded, -, hsamples, -⟩ :=
    sent_decoded sendable_six hs within_appendAndFlush
  exact ⟨s, delivered, pending, dgs, hs, happended, hdecoded, hsamples⟩

end Sflow

import Sflow.C.Decode
import Sflow.Protocol.Packed

/-!
# What flattening leaves behind

A sample notes its length when it is packed.  Whatever is in it and wherever in a buffer it is
flattened: if that ends well, it has put down as many bytes as it noted, provided that each record
of host adapters still reads its length when it has been freed.  So a collector finds the samples of
a datagram by their lengths.
-/

namespace Sflow

open C C.Reader

variable {R : Type} {p : Platform}

/-- The loop that adds up lengths comes to the length of the parts that have them. -/
theorem sumSlots_of_forall₂ {α : Type} {f : α → UInt32} {count : Nat} {xs : List α}
    {parts : List (List UInt8)} (hcount : count ≤ xs.length)
    (h : List.Forall₂ (fun x part => UInt32.ofNat part.length = f x) (xs.take count) parts)
    (acc : Nat) :
    sumSlots f count xs (UInt32.ofNat acc) = .ok (UInt32.ofNat (acc + parts.flatten.length)) := by
  induction count generalizing xs parts acc with
  | zero =>
      cases h
      rfl
  | succ count ih =>
      cases xs with
      | nil => simp at hcount
      | cons x xs =>
          cases h with
          | @cons _ part _ parts hpart hparts =>
              rw [sumSlots, ← hpart, ← UInt32.ofNat_add, ih (Nat.le_of_succ_le_succ hcount) hparts,
                List.flatten_cons, List.length_append, Nat.add_assoc]

/-! ## Payloads -/

/-- If the length of a record of adapters can be read after the record has been freed, it is as it
was. -/
def CrPayload.LenKept (m : Memory R) : CrPayload p → Prop
  | leaf .. => True
  | adapters addr ads => ∀ n, m.hasLenAfterFree addr ads.hasLen = .ok n → n = ads.hasLen

instance (m : Memory R) : DecidablePred (CrPayload.LenKept (p := p) m)
  | .leaf .. => inferInstanceAs (Decidable True)
  | .adapters addr ads =>
      match h : m.hasLenAfterFree addr ads.hasLen with
      | .ok n => decidable_of_iff (n = ads.hasLen) (by simp [CrPayload.LenKept, h])
      | .error _ => isTrue (by simp [CrPayload.LenKept, h])

theorem lays_sflowCrHostAdaptersFlat {m : Memory R} {addr : Nat} {ads : SflowCrHostAdapters}
    (h : (CrPayload.adapters addr ads : CrPayload p).LenKept m) :
    Lays (sflowCrHostAdaptersFlat p m addr ads) (·.length = ads.hasLen.toNat) := by
  intro buf buf' start n hflat
  rw [sflowCrHostAdaptersFlat] at hflat
  split at hflat
  · rename_i hbody
    obtain ⟨buf₁, hcopy, hflat⟩ := bind_eq_ok.mp hflat
    obtain ⟨w, hw, hret⟩ := bind_eq_ok.mp hflat
    cases hret
    obtain rfl := h w hw
    have hlen := List.length_take_of_le hbody
    obtain ⟨hroom, hdata⟩ := Buf.data_of_memcpy hcopy
    exact ⟨_, hlen, hlen.symm, by omega, hdata⟩
  · cases hflat

/-- A payload is flattened to as many bytes as are noted for it. -/
theorem lays_callFlat {m : Memory R} (k : CrKind) {data : Option (CrPayload p)}
    (h : ∀ payload ∈ data, payload.LenKept m) :
    Lays (callFlat m k data)
      (fun b => counterRecordLen data k.ent k.fmt = .ok (UInt32.ofNat b.length)) := by
  cases data with
  | none => exact lays_error _ _
  | some payload =>
      by_cases hkind : payload.kind = k
      · have hcall : callFlat m k (some payload) = payload.flat m := if_pos hkind
        rw [hcall]
        subst hkind
        cases payload with
        | leaf k image hk hlen =>
            have hcount : k.sizeof p - p.psize = (image.take (k.sizeof p - p.psize)).length :=
              (List.length_take_of_le (by omega)).symm
            rw [CrPayload.flat, CrPayload.leafFlatOf_eq hk]
            refine (lays_copyOut hcount).mono ?_
            rintro b rfl
            rw [← hcount]
            exact PayloadInput.counterRecordLen_eq (.leaf k image hk hlen)
        | adapters addr ads =>
            refine (lays_sflowCrHostAdaptersFlat (h _ rfl)).mono fun b hb ↦ ?_
            rw [hb, UInt32.ofNat_toNat]
            rfl
      · have hcall : callFlat m k (some payload) = fun _ _ => .error .badCast := if_neg hkind
        rw [hcall]
        exact lays_error _ _

/-! ## Records -/

/-- The record notes the length of the payload that its format word names. -/
def SflowCr.Noted (cr : SflowCr p) : Prop :=
  ∃ k : CrKind, ntohl p.endian cr.scrDfmt = sflowSetDataformat 0 k.ent k.fmt ∧
    counterRecordLen cr.scrData k.ent k.fmt = .ok (ntohl p.endian cr.scrLen)

theorem SflowCr.noted_of_pack {data : Option (CrPayload p)} {k : CrKind} {cr : SflowCr p}
    (h : sflowCounterRecordPack data k.ent k.fmt = .ok cr) : cr.Noted := by
  obtain ⟨len, hlen, hret⟩ := bind_eq_ok.mp h
  cases hret
  exact ⟨k, ntohl_htonl _ _, by rw [ntohl_htonl, hlen]⟩

theorem SflowCr.Noted.lays {m : Memory R} {cr : SflowCr p} (h : cr.Noted)
    (hkept : ∀ payload ∈ cr.scrData, payload.LenKept m) :
    Lays (sflowCounterRecordFlat m cr)
      (fun b => UInt32.ofNat b.length = ntohl p.endian cr.scrLen + UInt32.ofNat 8) := by
  obtain ⟨k, hdfmt, hlen⟩ := h
  have hall := Lays.header (n := 8)
    (wordBytes p.endian cr.scrDfmt ++ wordBytes p.endian cr.scrLen) (by simp)
    (lays_callFlat k hkept)
  refine Lays.congr (hall.mono ?_) fun buf start ↦ ?_
  · rintro _ ⟨u, hu, rfl⟩
    rw [hlen, Except.ok.injEq] at hu
    rw [hu, ← UInt32.ofNat_add, List.length_append, Nat.add_comm u.length]
    simp
  · simp only [sflowCounterRecordFlat, hdfmt, sflowGetDataEnt_set k.ent_lt k.fmt_lt,
      sflowGetDataFmt_set k.ent_lt k.fmt_lt, CrPayload.counterPayloadFlat_kind]

/-- The record notes the length of a raw packet. -/
structure SflowFr.Noted (p : Platform) (fr : SflowFr R) : Prop where
  dfmt : ntohl p.endian fr.sfrDfmt = sflowSetDataformat 0 0 1
  len : ntohl p.endian fr.sfrLen = UInt32.ofNat 16 + ntohl p.endian fr.sfrData.frHeaderSize

theorem lays_sflowFrRawPktFlat (m : Memory R) (r : SflowFrRawPktHeader R) :
    Lays (sflowFrRawPktFlat p m r) (·.length = 16 + (ntohl p.endian r.frHeaderSize).toNat) := by
  by_cases hsize : (ntohl p.endian r.frHeaderSize).toNat ≤ (m.deref r.frHeader).length
  · have hlen := List.length_take_of_le hsize
    have hall := Lays.header (n := 16)
      (wordBytes p.endian r.frHeaderProtocol ++ wordBytes p.endian r.frFrameLength ++
        wordBytes p.endian r.frStripped ++ wordBytes p.endian r.frHeaderSize)
      (by simp) (lays_copyOut hlen.symm)
    refine Lays.congr (hall.mono ?_) fun buf start ↦ ?_
    · rintro _ ⟨_, rfl, rfl⟩
      rw [List.length_append, hlen]
      simp
    · simp only [sflowFrRawPktFlat, sizeof_sflowFrRawPktHeaderT, Memory.read, if_pos hsize, ok_bind,
        copyOut, bind_assoc, pure_eq_ok]
  · intro buf buf' start n hflat
    obtain ⟨buf₁, -, hflat⟩ := bind_eq_ok.mp hflat
    rw [Memory.read, if_neg hsize] at hflat
    cases hflat

theorem SflowFr.Noted.lays {m : Memory R} {fr : SflowFr R} (h : fr.Noted p) :
    Lays (sflowFlowRecordFlat p m fr)
      (fun b => UInt32.ofNat b.length = ntohl p.endian fr.sfrLen + UInt32.ofNat 8) := by
  have hall := Lays.header (n := 8)
    (wordBytes p.endian fr.sfrDfmt ++ wordBytes p.endian fr.sfrLen) (by simp)
    (lays_sflowFrRawPktFlat (p := p) m fr.sfrData)
  refine Lays.congr (hall.mono ?_) fun buf start ↦ ?_
  · rintro _ ⟨u, hu, rfl⟩
    rw [h.len, ← UInt32.ofNat_toNat (x := ntohl p.endian fr.sfrData.frHeaderSize),
      ← UInt32.ofNat_add, ← UInt32.ofNat_add, ← hu, List.length_append, Nat.add_comm u.length]
    simp
  · simp only [sflowFlowRecordFlat, sizeof_sflowFrT, h.dfmt, sflowGetDataEnt_one,
      sflowGetDataFmt_one, and_self, if_true]

/-! ## Samples -/

namespace SflowSp

/-- The sample notes the length of its records, which note theirs. -/
def Noted (sp : SflowSp p R) : Prop :=
  match sp.data with
  | .flow fs =>
      ntohl p.endian sp.sspDfmt = sflowSetDataformat 0 0 1 ∧
      (∀ fr ∈ fs.records, fr.Noted p) ∧
      sumSlots (fun fr => ntohl p.endian fr.sfrLen + UInt32.ofNat 8)
        (ntohl p.endian fs.sfsCount).toNat fs.records (UInt32.ofNat 32) =
          .ok (ntohl p.endian sp.len)
  | .counter cs =>
      ntohl p.endian sp.sspDfmt = sflowSetDataformat 0 0 2 ∧
      (∀ cr ∈ cs.records, cr.Noted) ∧
      sumSlots (fun cr => ntohl p.endian cr.scrLen + UInt32.ofNat 8)
        (ntohl p.endian cs.scsCount).toNat cs.records (UInt32.ofNat 12) =
          .ok (ntohl p.endian sp.len)

/-- The records of a counter sample. -/
def counterRecords (sp : SflowSp p R) : List (SflowCr p) :=
  match sp.data with
  | .flow _ => []
  | .counter cs => cs.records

/-- The lengths of adapters in a sample, as far as they can be read after the free, are as they
were. -/
def LensKept (m : Memory R) (sp : SflowSp p R) : Prop :=
  ∀ cr ∈ sp.counterRecords, ∀ payload ∈ cr.scrData, payload.LenKept m

instance (m : Memory R) : DecidablePred (LensKept (p := p) m) := fun sp ↦
  inferInstanceAs (Decidable (∀ cr ∈ sp.counterRecords, ∀ payload ∈ cr.scrData, payload.LenKept m))

/-- The bytes that a sample has in front of those that it notes. -/
def front (sp : SflowSp p R) : List UInt8 :=
  wordBytes p.endian sp.sspDfmt ++ wordBytes p.endian sp.len

@[simp] theorem length_front (sp : SflowSp p R) : sp.front.length = 8 := by simp [front]

/-- What a sample is in a datagram: its front, and as many bytes as it notes. -/
def IsImage (sp : SflowSp p R) (b : List UInt8) : Prop :=
  ∃ u, b = sp.front ++ u ∧ UInt32.ofNat u.length = ntohl p.endian sp.len

/-- What is behind the front has the length noted, if the loop over the records comes to that. -/
theorem isImage_of_records {α : Type} {sp : SflowSp p R} {f : α → UInt32} {count : Nat}
    {xs : List α} {hd : List UInt8}
    (hsum : sumSlots f count xs (UInt32.ofNat hd.length) = .ok (ntohl p.endian sp.len))
    {b : List UInt8} (h : ∃ u, (∃ parts, count ≤ xs.length ∧
      List.Forall₂ (fun x part => UInt32.ofNat part.length = f x) (xs.take count) parts ∧
      u = hd ++ parts.flatten) ∧ b = sp.front ++ u) : sp.IsImage b := by
  obtain ⟨_, ⟨parts, hcount, hparts, rfl⟩, rfl⟩ := h
  rw [sumSlots_of_forall₂ hcount hparts, Except.ok.injEq] at hsum
  exact ⟨_, rfl, by rw [List.length_append, hsum]⟩

/-- Flattening puts down as many bytes as the sample notes. -/
theorem Noted.lays {m : Memory R} {sp : SflowSp p R} (h : sp.Noted) (hkept : sp.LensKept m) :
    Lays (sflowSampleFlat m sp) sp.IsImage := by
  obtain ⟨dfmt, len, data⟩ := sp
  cases data with
  | flow fs =>
      obtain ⟨hdfmt, hrecords, hsum⟩ := h
      let hd := wordBytes p.endian fs.sfsSeqNo ++ wordBytes p.endian fs.sfsDsrc ++
        wordBytes p.endian fs.sfsRate ++ wordBytes p.endian fs.sfsPool ++
        wordBytes p.endian fs.sfsDrops ++ wordBytes p.endian fs.inputIf ++
        wordBytes p.endian fs.outputIf ++ wordBytes p.endian fs.sfsCount
      have hall := Lays.header (n := 8)
        (wordBytes p.endian dfmt ++ wordBytes p.endian len) (by simp)
        (Lays.headerSlots (2 ^ 31) (n := 32) hd (by simp [hd])
          (ntohl p.endian fs.sfsCount).toNat fun fr hfr ↦ (hrecords fr hfr).lays (m := m))
      refine Lays.congr (hall.mono fun b hb ↦ ?_) fun buf start ↦ ?_
      · have hlen : hd.length = 32 := by simp [hd]
        exact isImage_of_records (by rw [hlen]; exact hsum) hb
      · simp only [sflowSampleFlat, sflowFlowSampleFlat, sizeof_sflowFsT, hdfmt,
          sflowGetDataEnt_one, sflowGetDataFmt_one, and_self, if_true, hd]
  | counter cs =>
      obtain ⟨hdfmt, hrecords, hsum⟩ := h
      have hne : ¬ (2 : UInt32) = 1 := by decide
      let hd := wordBytes p.endian cs.scsSeqNo ++ wordBytes p.endian cs.scsDsrc ++
        wordBytes p.endian cs.scsCount
      have hall := Lays.header (n := 8)
        (wordBytes p.endian dfmt ++ wordBytes p.endian len) (by simp)
        (Lays.headerSlots (2 ^ 31) (n := 12) hd (by simp [hd])
          (ntohl p.endian cs.scsCount).toNat fun cr hcr ↦ (hrecords cr hcr).lays (hkept cr hcr))
      refine Lays.congr (hall.mono fun b hb ↦ ?_) fun buf start ↦ ?_
      · have hlen : hd.length = 12 := by simp [hd]
        exact isImage_of_records (by rw [hlen]; exact hsum) hb
      · simp only [sflowSampleFlat, sflowCounterSampleFlat, hdfmt, sflowGetDataEnt_two,
          sflowGetDataFmt_two, hne, and_false, if_false, and_self, if_true, hd]

/-- What the sampling functions of the polled sources make notes its lengths. -/
theorem noted_of_counterSample {source source' : SflowSource}
    {payloads : List (Option (CrPayload p) × CrKind)} {sp : SflowSp p R}
    (h : counterSample source payloads = .ok (sp, source')) : sp.Noted := by
  have hne : ¬ (2 : UInt32) = 1 := by decide
  obtain ⟨crs, hcrs, h⟩ := bind_eq_ok.mp h
  rw [sflowCounterSamplePack_ofRecords, ok_bind] at h
  obtain ⟨sp', hsp, hret⟩ := bind_eq_ok.mp h
  cases hret
  simp only [sflowSamplePack, hne, and_false, if_false, and_self, if_true] at hsp
  obtain ⟨len, hlen, hret⟩ := bind_eq_ok.mp hsp
  cases hret
  rw [sizeof_sflowCsT, sizeof_sflowCrT] at hlen
  refine ⟨ntohl_htonl _ _, fun cr hcr ↦ ?_, ?_⟩
  · obtain ⟨⟨data, k⟩, -, hcr⟩ := exists_of_mapM_eq_ok hcrs cr hcr
    exact SflowCr.noted_of_pack hcr
  · rw [ntohl_htonl]
    exact hlen

/-- What is made of a packet notes its lengths. -/
theorem noted_of_getSampleFlowsample {source source' : SflowSource} {pkt : R} {len : Nat}
    (hent : source.ssEnt = 0) (hfmt : source.ssFmt = 1) {sp : SflowSp p R}
    (h : getSampleFlowsample p source pkt len = .ok (sp, source')) : sp.Noted := by
  rw [SampleInput.getSampleFlowsample_eq hent hfmt] at h
  cases h
  refine ⟨ntohl_htonl _ _, fun fr hfr ↦ ?_, ?_⟩
  · obtain rfl := List.mem_singleton.mp hfr
    refine ⟨ntohl_htonl _ _, ?_⟩
    simp only [SampleInput.flowRecord, ntohl_htonl, UInt32.ofNat_add]
  · have hone : (ntohl p.endian (SampleInput.flowSample p source pkt len).sfsCount).toNat = 1 := by
      rw [SampleInput.flowSample, ntohl_htonl]
      rfl
    rw [hone]
    simp only [SampleInput.flowSample, sumSlots, SampleInput.flowRecord, ntohl_htonl,
      ← UInt32.ofNat_add, SampleInput.packed, SampleInput.size, Nat.add_comm 8]

end SflowSp

namespace SampleInput

variable {i : SampleInput p R}

theorem noted_packed (h : i.size < 2 ^ 32) : i.packed.Noted := by
  cases i with
  | flow source hent hfmt pkt len =>
      exact SflowSp.noted_of_getSampleFlowsample hent hfmt
        (getSampleFlowsample_eq hent hfmt pkt len)
  | counter source payloads =>
      exact SflowSp.noted_of_counterSample (counterSample_eq source (length_lt_of_size_lt h))

theorem lensKept_packed {m : Memory R} (h : i.ReadableAfterFree m) : i.packed.LensKept m := by
  cases i with
  | flow => exact fun cr hcr ↦ absurd hcr List.not_mem_nil
  | counter source payloads =>
      intro cr hcr payload hpayload
      obtain ⟨j, hj, rfl⟩ := List.mem_map.mp hcr
      obtain rfl := Option.some.inj hpayload
      have hfree := h j hj
      cases j with
      | leaf => trivial
      | adapters addr links =>
          intro n hn
          rw [sflowCrHostAdaptersPack_eq] at hn ⊢
          rw [hfree, Except.ok.injEq] at hn
          exact hn.symm

/-- The bytes of a packed sample are its front, and as many as it notes. -/
theorem isImage_wire_packed {m : Memory R} (h : i.size < 2 ^ 32) (hmem : i.InMemory m) :
    i.packed.IsImage (i.packed.wire m) := by
  have hlen := length_wire_packed h hmem
  refine ⟨_, rfl, ?_⟩
  rw [SflowSp.wire, ← SflowSp.front, List.length_append, SflowSp.length_front] at hlen
  rw [Nat.add_left_cancel hlen, ← len_packed h, UInt32.ofNat_toNat]

/-- Where flattening a packed sample ends well, it has put down the bytes of that sample. -/
theorem lays_packed {m : Memory R} (h : i.size < 2 ^ 31) (hmem : i.InMemory m)
    (hfree : i.ReadableAfterFree m) :
    Lays (sflowSampleFlat m i.packed) (· = i.packed.wire m) := by
  have hsize : i.size < 2 ^ 32 := by omega
  have hflattens := flattens_packed hsize (offsetsFit_of_size_lt h) hmem hfree
  refine (SflowSp.emits hflattens).lays ((noted_packed hsize).lays (lensKept_packed hfree)) ?_
  rintro _ ⟨u, rfl, hlen⟩
  have hmod := congrArg UInt32.toNat hlen
  rw [UInt32.toNat_ofNat', len_packed hsize] at hmod
  rw [length_wire_packed hsize hmem, List.length_append, SflowSp.length_front, ← hmod]
  exact Nat.add_le_add_left (Nat.mod_le _ _) 8

end SampleInput

/-! ## Datagrams -/

/-- A sample as a collector finds it: behind its format as many bytes as its length says. -/
def readPart : Reader (List UInt8) :=
  word.andThen fun _ => word.andThen fun len => bytes len.toNat

/-- The samples of a datagram as a collector finds them: as many as the last word of the header
says, one behind the other. -/
def readParts : Reader (List (List UInt8)) :=
  (bytes 24).andThen fun _ => word.andThen fun num => many readPart num.toNat

theorem reads_readPart (sp : SflowSp p R) {u : List UInt8}
    (h : u.length = (ntohl p.endian sp.len).toNat) : Reads readPart (sp.front ++ u) u := by
  rw [SflowSp.front, List.append_assoc]
  refine (reads_wordBytes p.endian _).andThen ((reads_wordBytes p.endian _).andThen ?_)
  rw [← h]
  exact reads_bytes u

/-- A collector finds the bytes behind the front of each sample. -/
theorem reads_readParts (dg : SflowDg p R) {parts bodies : List (List UInt8)}
    (hnum : bodies.length = (ntohl p.endian dg.sampleNum).toNat)
    (h : List.Forall₂ (Reads readPart) parts bodies) :
    Reads readParts (dg.header ++ parts.flatten) bodies := by
  let hd := wordBytes p.endian dg.sflowVer ++ wordBytes p.endian dg.ipVer ++
    dg.ipAddr.toList.take 4 ++ (wordBytes p.endian dg.subAgentId ++ wordBytes p.endian dg.dgSeq ++
      wordBytes p.endian dg.upTime)
  have hlen : hd.length = 24 := by simp [hd]
  have hheader : dg.header = hd ++ wordBytes p.endian dg.sampleNum := by
    simp only [SflowDg.header, hd, List.append_assoc]
  have hhd : Reads (bytes 24) hd hd := by
    rw [← hlen]
    exact reads_bytes hd
  rw [hheader, List.append_assoc]
  refine hhd.andThen ((reads_wordBytes p.endian _).andThen ?_)
  rw [← hnum]
  exact reads_many_flatten h

end Sflow

import Sflow.Protocol.Branches

/-!
# What flattening writes

For every structure, the bytes it stands for (`wire`), the condition under which
its `flat` function reaches them (`Flattens`), and the proof that it then emits
exactly those.  The proofs follow the nesting: a `flat` function copies a header
and goes on with the children, which is `Emits.header` or `Emits.headerSlots`.
-/

namespace Sflow

open C

/-! ## Headers -/

/-- A header of `n` bytes in front of what `g` emits. -/
theorem Emits.header {g : Flat} {u : List UInt8} {n : Nat} (hd : List UInt8) (hn : n = hd.length)
    (hg : Emits g u) :
    Emits (fun buf start => do
      let buf ← buf.memcpy start hd
      let (buf, k) ← g buf (start + n)
      return (buf, n + k)) (hd ++ u) := by
  refine ((emits_copyOut hn).seq hg).congr fun buf start ↦ ?_
  rw [Flat.seq, copyOut]
  cases buf.memcpy start hd <;> rfl

/-- A header of `n` bytes in front of the children in the pointer slots. -/
theorem Emits.headerSlots {α : Type} {limit : Nat} {flat : α → Flat} {wire : α → List UInt8}
    {xs : List α} {n count : Nat} (hd : List UInt8) (hn : n = hd.length)
    (hcount : count = xs.length)
    (hstarts : StartsBelow limit (xs.map fun x => (wire x).length) n)
    (h : ∀ x ∈ xs, Emits (flat x) (wire x)) :
    Emits (fun buf start => do
      let buf ← buf.memcpy start hd
      flatSlots limit flat count xs n buf start) (hd ++ xs.flatMap wire) := by
  subst hn hcount
  intro buf start hroom
  rw [List.length_append] at hroom
  have hlen : (splice buf.data start hd).length = buf.data.length := length_splice (by omega)
  obtain ⟨ws, hws, hslots⟩ := Emits.slots h hd.length hstarts
    ⟨splice buf.data start hd, buf.writes ++ [(start, hd.length)]⟩ start
    (by simp only [hlen]; omega)
  refine ⟨(start, hd.length) :: ws, ⟨rfl, ?_⟩, ?_⟩
  · rwa [List.length_append, ← Nat.add_assoc]
  · have hmem : start + hd.length ≤ buf.data.length := by omega
    simp only [Buf.memcpy, if_pos hmem, ok_bind, hslots, splice_splice hroom, List.length_append,
      List.append_assoc, List.singleton_append]

section Sizes

variable (abi : Abi)

theorem sizeof_sflowCrT : sflowCrT.sizeof abi - abi.psize * 2 = 8 := by
  rw [StructDecl.sizeof_of_packed abi rfl]
  simp [sflowCrT, CType.size]
  omega

theorem sizeof_sflowFrT : sflowFrT.sizeof abi - 2 * abi.psize = 8 := by
  rw [StructDecl.sizeof_of_packed abi rfl]
  simp [sflowFrT, CType.size]
  omega

theorem sizeof_sflowCsT : sflowCsT.sizeof abi - abi.psize = 12 := by
  rw [StructDecl.sizeof_of_packed abi rfl]
  simp [sflowCsT, CType.size]
  omega

theorem sizeof_sflowFsT : sflowFsT.sizeof abi - abi.psize = 32 := by
  rw [StructDecl.sizeof_of_packed abi rfl]
  simp [sflowFsT, CType.size]
  omega

theorem sizeof_sflowSpT : sflowSpT.sizeof abi - abi.psize * 2 = 8 := by
  rw [StructDecl.sizeof_of_packed abi rfl]
  simp [sflowSpT, CType.size]
  omega

theorem sizeof_sflowDgT : sflowDgT.sizeof abi - abi.psize = 40 := by
  rw [StructDecl.sizeof_of_packed abi rfl]
  simp [sflowDgT, CType.size]
  omega

theorem sizeof_sflowFrRawPktHeaderT :
    sflowFrRawPktHeaderT.sizeof abi - 2 * abi.psize = 16 := by
  rw [StructDecl.sizeof_of_packed abi rfl]
  simp [sflowFrRawPktHeaderT, CType.size]
  omega

end Sizes

/-! ## Format words read back -/

theorem toNat_sflowSetDataformat {ent fmt : UInt32} (hent : ent.toNat < 2 ^ 12)
    (hfmt : fmt.toNat < 2 ^ 20) :
    (sflowSetDataformat 0 ent fmt).toNat = ent.toNat * 2 ^ 20 + fmt.toNat := by
  have hmask : (0x000FFFFF : UInt32).toNat = 2 ^ 20 - 1 := rfl
  have h := toNat_or_fields (s := 20) (k := 20) rfl (by decide) hmask ent fmt (by omega)
  rwa [Nat.mod_eq_of_lt hfmt] at h

theorem sflowGetDataEnt_set {ent fmt : UInt32} (hent : ent.toNat < 2 ^ 12)
    (hfmt : fmt.toNat < 2 ^ 20) : sflowGetDataEnt (sflowSetDataformat 0 ent fmt) = ent := by
  apply UInt32.toNat_inj.mp
  rw [sflowGetDataEnt, toNat_shiftRight_field (k := 20) rfl (by decide),
    toNat_sflowSetDataformat hent hfmt]
  omega

theorem sflowGetDataFmt_set {ent fmt : UInt32} (hent : ent.toNat < 2 ^ 12)
    (hfmt : fmt.toNat < 2 ^ 20) : sflowGetDataFmt (sflowSetDataformat 0 ent fmt) = fmt := by
  apply UInt32.toNat_inj.mp
  rw [sflowGetDataFmt, toNat_and_field (k := 20) rfl, toNat_sflowSetDataformat hent hfmt]
  omega

@[simp] theorem sflowGetDataEnt_one : sflowGetDataEnt (sflowSetDataformat 0 0 1) = 0 := by decide

@[simp] theorem sflowGetDataFmt_one : sflowGetDataFmt (sflowSetDataformat 0 0 1) = 1 := by decide

@[simp] theorem sflowGetDataEnt_two : sflowGetDataEnt (sflowSetDataformat 0 0 2) = 0 := by decide

@[simp] theorem sflowGetDataFmt_two : sflowGetDataFmt (sflowSetDataformat 0 0 2) = 2 := by decide

variable {R : Type} {p : Platform}

/-! ## Raw packets and flow records -/

namespace SflowFrRawPktHeader

def wire (p : Platform) (m : Memory R) (r : SflowFrRawPktHeader R) : List UInt8 :=
  wordBytes p.endian r.frHeaderProtocol ++ wordBytes p.endian r.frFrameLength ++
    wordBytes p.endian r.frStripped ++ wordBytes p.endian r.frHeaderSize ++
    (m.deref r.frHeader).take (ntohl p.endian r.frHeaderSize).toNat

/-- The packet is as long as the header that is copied from it. -/
def Flattens (p : Platform) (m : Memory R) (r : SflowFrRawPktHeader R) : Prop :=
  (ntohl p.endian r.frHeaderSize).toNat ≤ (m.deref r.frHeader).length

theorem emits {m : Memory R} {r : SflowFrRawPktHeader R} (h : r.Flattens p m) :
    Emits (sflowFrRawPktFlat p m r) (r.wire p m) := by
  have hcopy : Emits
      (copyOut ((m.deref r.frHeader).take (ntohl p.endian r.frHeaderSize).toNat)
        (ntohl p.endian r.frHeaderSize).toNat)
      ((m.deref r.frHeader).take (ntohl p.endian r.frHeaderSize).toNat) :=
    emits_copyOut (List.length_take_of_le h).symm
  have hle : (ntohl p.endian r.frHeaderSize).toNat ≤ (m.deref r.frHeader).length := h
  have hall := Emits.header (n := 16)
    (wordBytes p.endian r.frHeaderProtocol ++ wordBytes p.endian r.frFrameLength ++
      wordBytes p.endian r.frStripped ++ wordBytes p.endian r.frHeaderSize)
    (by simp) hcopy
  refine hall.congr fun buf start ↦ ?_
  simp only [sflowFrRawPktFlat, sizeof_sflowFrRawPktHeaderT, Memory.read, if_pos hle, ok_bind,
    copyOut, bind_assoc, pure_eq_ok]

end SflowFrRawPktHeader

namespace SflowFr

def wire (p : Platform) (m : Memory R) (fr : SflowFr R) : List UInt8 :=
  wordBytes p.endian fr.sfrDfmt ++ wordBytes p.endian fr.sfrLen ++ fr.sfrData.wire p m

/-- The record is a raw packet record with its packet in memory. -/
structure Flattens (p : Platform) (m : Memory R) (fr : SflowFr R) : Prop where
  dfmt : ntohl p.endian fr.sfrDfmt = sflowSetDataformat 0 0 1
  data : fr.sfrData.Flattens p m

theorem emits {m : Memory R} {fr : SflowFr R} (h : fr.Flattens p m) :
    Emits (sflowFlowRecordFlat p m fr) (fr.wire p m) := by
  have hall := Emits.header (n := 8)
    (wordBytes p.endian fr.sfrDfmt ++ wordBytes p.endian fr.sfrLen) (by simp)
    (SflowFrRawPktHeader.emits h.data)
  refine hall.congr fun buf start ↦ ?_
  simp only [sflowFlowRecordFlat, sizeof_sflowFrT, h.dfmt, sflowGetDataEnt_one, sflowGetDataFmt_one,
    and_self, if_true]

end SflowFr

/-! ## Payloads and counter records -/

namespace CrPayload

def wire : CrPayload p → List UInt8
  | leaf k image _ _ => image.take (k.sizeof p - p.psize)
  | adapters _ ads => (ads.body p).take ads.hasLen.toNat

/-- A record of adapters has to hold what `has_len` promises, and to be readable
once it has been freed. -/
def Flattens (m : Memory R) : CrPayload p → Prop
  | leaf .. => True
  | adapters addr ads =>
      ads.hasLen.toNat ≤ (ads.body p).length ∧ m.hasLenAfterFree addr ads.hasLen = .ok ads.hasLen

theorem leafFlatOf_eq {k : CrKind} (hk : k ≠ .hostAdapters) (image : List UInt8) :
    leafFlatOf p k image = leafFlat p (k.sizeof p) image := by
  cases k <;> first | rfl | exact absurd rfl hk

theorem emits_leafFlatOf {k : CrKind} {image : List UInt8} (hk : k ≠ .hostAdapters)
    (hlen : image.length = k.sizeof p) :
    Emits (leafFlatOf p k image) (image.take (k.sizeof p - p.psize)) := by
  rw [leafFlatOf_eq hk]
  exact emits_copyOut (by rw [List.length_take_of_le (by omega)])

theorem emits {m : Memory R} {payload : CrPayload p} (h : payload.Flattens m) :
    Emits (payload.flat m) payload.wire := by
  cases payload with
  | leaf k image hk hlen => exact emits_leafFlatOf hk hlen
  | adapters addr ads =>
      obtain ⟨hbody, hfree⟩ := h
      have hcopy := emits_copyOut (List.length_take_of_le hbody).symm
      have heq : CrPayload.flat m (.adapters addr ads : CrPayload p) =
          copyOut ((ads.body p).take ads.hasLen.toNat) ads.hasLen.toNat := by
        funext buf start
        simp only [CrPayload.flat, sflowCrHostAdaptersFlat, if_pos hbody, hfree, ok_bind, copyOut]
      rwa [heq]

/-- The format words of a kind lead to the cast to its type. -/
theorem counterPayloadFlat_kind (m : Memory R) (k : CrKind) (data : Option (CrPayload p)) :
    counterPayloadFlat m k.ent k.fmt data = callFlat m k data := by
  cases k <;> rfl

end CrPayload

namespace SflowCr

def wire (cr : SflowCr p) : List UInt8 :=
  wordBytes p.endian cr.scrDfmt ++ wordBytes p.endian cr.scrLen ++
    (cr.scrData.map CrPayload.wire).getD []

/-- The record carries a payload of the type its format word names. -/
def Flattens (m : Memory R) (cr : SflowCr p) : Prop :=
  ∃ payload, cr.scrData = some payload ∧ payload.Flattens m ∧
    ntohl p.endian cr.scrDfmt = sflowSetDataformat 0 payload.kind.ent payload.kind.fmt

theorem emits {m : Memory R} {cr : SflowCr p} (h : cr.Flattens m) :
    Emits (sflowCounterRecordFlat m cr) cr.wire := by
  obtain ⟨payload, hdata, hflat, hdfmt⟩ := h
  have hcall : callFlat m payload.kind (some payload) = payload.flat m := by simp [callFlat]
  have hall := Emits.header (n := 8)
    (wordBytes p.endian cr.scrDfmt ++ wordBytes p.endian cr.scrLen) (by simp)
    (CrPayload.emits hflat)
  rw [wire, hdata, Option.map_some, Option.getD_some]
  refine hall.congr fun buf start ↦ ?_
  simp only [sflowCounterRecordFlat, hdata, hdfmt,
    sflowGetDataEnt_set payload.kind.ent_lt payload.kind.fmt_lt,
    sflowGetDataFmt_set payload.kind.ent_lt payload.kind.fmt_lt,
    CrPayload.counterPayloadFlat_kind, hcall]

end SflowCr

/-! ## Samples -/

namespace SflowFs

def wire (p : Platform) (m : Memory R) (fs : SflowFs R) : List UInt8 :=
  wordBytes p.endian fs.sfsSeqNo ++ wordBytes p.endian fs.sfsDsrc ++
    wordBytes p.endian fs.sfsRate ++ wordBytes p.endian fs.sfsPool ++
    wordBytes p.endian fs.sfsDrops ++ wordBytes p.endian fs.inputIf ++
    wordBytes p.endian fs.outputIf ++ wordBytes p.endian fs.sfsCount ++
    fs.records.flatMap (·.wire p m)

structure Flattens (p : Platform) (m : Memory R) (fs : SflowFs R) : Prop where
  count : (ntohl p.endian fs.sfsCount).toNat = fs.records.length
  starts : StartsBelow (2 ^ 31) (fs.records.map fun fr => (fr.wire p m).length) 32
  records : ∀ fr ∈ fs.records, fr.Flattens p m

theorem emits {m : Memory R} {fs : SflowFs R} (h : fs.Flattens p m) :
    Emits (sflowFlowSampleFlat p m fs) (fs.wire p m) := by
  have hall := Emits.headerSlots (n := 32)
    (wordBytes p.endian fs.sfsSeqNo ++ wordBytes p.endian fs.sfsDsrc ++
      wordBytes p.endian fs.sfsRate ++ wordBytes p.endian fs.sfsPool ++
      wordBytes p.endian fs.sfsDrops ++ wordBytes p.endian fs.inputIf ++
      wordBytes p.endian fs.outputIf ++ wordBytes p.endian fs.sfsCount)
    (by simp) h.count h.starts fun fr hfr ↦ SflowFr.emits (h.records fr hfr)
  refine hall.congr fun buf start ↦ ?_
  simp only [sflowFlowSampleFlat, sizeof_sflowFsT]

end SflowFs

namespace SflowCs

def wire (cs : SflowCs p) : List UInt8 :=
  wordBytes p.endian cs.scsSeqNo ++ wordBytes p.endian cs.scsDsrc ++
    wordBytes p.endian cs.scsCount ++ cs.records.flatMap (·.wire)

structure Flattens (m : Memory R) (cs : SflowCs p) : Prop where
  count : (ntohl p.endian cs.scsCount).toNat = cs.records.length
  starts : StartsBelow (2 ^ 31) (cs.records.map fun cr => cr.wire.length) 12
  records : ∀ cr ∈ cs.records, cr.Flattens m

theorem emits {m : Memory R} {cs : SflowCs p} (h : cs.Flattens m) :
    Emits (sflowCounterSampleFlat m cs) cs.wire :=
  Emits.headerSlots _ (by simp) h.count h.starts fun cr hcr ↦ SflowCr.emits (h.records cr hcr)

end SflowCs

namespace SflowSp

def wire (m : Memory R) (sp : SflowSp p R) : List UInt8 :=
  wordBytes p.endian sp.sspDfmt ++ wordBytes p.endian sp.len ++
    match sp.data with
    | .flow fs => fs.wire p m
    | .counter cs => cs.wire

/-- The format word names the kind of sample there is. -/
def Flattens (m : Memory R) (sp : SflowSp p R) : Prop :=
  match sp.data with
  | .flow fs => ntohl p.endian sp.sspDfmt = sflowSetDataformat 0 0 1 ∧ fs.Flattens p m
  | .counter cs => ntohl p.endian sp.sspDfmt = sflowSetDataformat 0 0 2 ∧ cs.Flattens m

theorem emits {m : Memory R} {sp : SflowSp p R} (h : sp.Flattens m) :
    Emits (sflowSampleFlat m sp) (sp.wire m) := by
  obtain ⟨dfmt, len, data⟩ := sp
  cases data with
  | flow fs =>
      obtain ⟨hdfmt, hfs⟩ := h
      have hall := Emits.header (n := 8)
        (wordBytes p.endian dfmt ++ wordBytes p.endian len) (by simp) (SflowFs.emits hfs)
      refine hall.congr fun buf start ↦ ?_
      simp only [sflowSampleFlat, hdfmt, sflowGetDataEnt_one, sflowGetDataFmt_one, and_self,
        if_true]
  | counter cs =>
      obtain ⟨hdfmt, hcs⟩ := h
      have hne : ¬ (2 : UInt32) = 1 := by decide
      have hall := Emits.header (n := 8)
        (wordBytes p.endian dfmt ++ wordBytes p.endian len) (by simp) (SflowCs.emits hcs)
      refine hall.congr fun buf start ↦ ?_
      simp only [sflowSampleFlat, hdfmt, sflowGetDataEnt_two, sflowGetDataFmt_two, hne, and_false,
        if_false, and_self, if_true]

end SflowSp

/-! ## Datagrams -/

namespace SflowDg

/-- The header of a datagram with an IPv4 address. -/
def header (dg : SflowDg p R) : List UInt8 :=
  wordBytes p.endian dg.sflowVer ++ wordBytes p.endian dg.ipVer ++ dg.ipAddr.toList.take 4 ++
    (wordBytes p.endian dg.subAgentId ++ wordBytes p.endian dg.dgSeq ++
      wordBytes p.endian dg.upTime ++ wordBytes p.endian dg.sampleNum)

theorem header_length (dg : SflowDg p R) : dg.header.length = 28 := by
  simp [header]

def wire (m : Memory R) (dg : SflowDg p R) : List UInt8 :=
  dg.header ++ dg.samples.flatMap (·.wire m)

/-- The three copies of the header. -/
theorem exists_memcpy_header (dg : SflowDg p R) {n : Nat} (hroom : 28 ≤ n) :
    ∃ b₁ b₂ : Buf,
      (Buf.calloc n).memcpy 0 (wordBytes p.endian dg.sflowVer ++ wordBytes p.endian dg.ipVer) =
        .ok b₁ ∧
      b₁.memcpy 8 (dg.ipAddr.toList.take 4) = .ok b₂ ∧
      b₂.memcpy (8 + (dg.ipAddr.toList.take 4).length)
          (wordBytes p.endian dg.subAgentId ++ wordBytes p.endian dg.dgSeq ++
            wordBytes p.endian dg.upTime ++ wordBytes p.endian dg.sampleNum) =
        .ok ⟨splice (List.replicate n 0) 0 dg.header, [(0, 8), (8, 4), (12, 16)]⟩ := by
  let hd₁ := wordBytes p.endian dg.sflowVer ++ wordBytes p.endian dg.ipVer
  let ip := dg.ipAddr.toList.take 4
  let hd₂ := wordBytes p.endian dg.subAgentId ++ wordBytes p.endian dg.dgSeq ++
    wordBytes p.endian dg.upTime ++ wordBytes p.endian dg.sampleNum
  let d := List.replicate n (0 : UInt8)
  have hl₁ : hd₁.length = 8 := by simp [hd₁]
  have hli : ip.length = 4 := by simp [ip]
  have hl₁ᵢ : (hd₁ ++ ip).length = 12 := by rw [List.length_append, hl₁, hli]
  have hl₂ : hd₂.length = 16 := by simp [hd₂]
  have hcalloc : d.length = n := List.length_replicate
  refine ⟨⟨splice d 0 hd₁, [(0, 8)]⟩, ⟨splice d 0 (hd₁ ++ ip), [(0, 8), (8, 4)]⟩, ?_, ?_, ?_⟩
  · have hfirst : 0 + hd₁.length ≤ d.length := by omega
    change Buf.memcpy ⟨d, []⟩ 0 hd₁ = _
    rw [Buf.memcpy, if_pos hfirst, hl₁]
    rfl
  · have h := Buf.memcpy_splice (d := d) (u := hd₁) (v := ip) (o := 0) [(0, 8)] (by omega)
    rw [hl₁, hli, Nat.zero_add] at h
    exact h
  · have h := Buf.memcpy_splice (d := d) (u := hd₁ ++ ip) (v := hd₂) (o := 0) [(0, 8), (8, 4)]
      (by omega)
    have hheader : dg.header = hd₁ ++ ip ++ hd₂ := rfl
    rw [hl₁ᵢ, hl₂, Nat.zero_add, ← hheader] at h
    rw [show dg.ipAddr.toList.take 4 = ip from rfl, hli]
    exact h

/-- The header is in the buffer before the loop over the samples starts. -/
theorem sflowDatagramStart_eq {dg : SflowDg p R} {size : UInt32}
    (hsize : sflowDatagramSize dg = .ok size) (hroom : 28 ≤ size.toNat) :
    sflowDatagramStart dg = .ok (⟨splice (List.replicate size.toNat 0) 0 dg.header,
      [(0, 8), (8, 4), (12, 16)]⟩, 28, size) := by
  have hli : (dg.ipAddr.toList.take 4).length = 4 := by simp
  have hip : (if sflowIpver = 4 then dg.ipAddr.toList.take 4 else dg.ipAddr.toList) =
      dg.ipAddr.toList.take 4 := rfl
  obtain ⟨b₁, b₂, hc₁, hc₂, hc₃⟩ := exists_memcpy_header dg hroom
  rw [sflowDatagramStart, hsize, ok_bind]
  dsimp only
  rw [hip, hc₁, ok_bind, hc₂, ok_bind, hc₃, ok_bind, hli]
  rfl

/-- A start that ends well has put the header at the front of a buffer of the size computed. -/
theorem start_cases {dg : SflowDg p R} {buf : Buf} {off : Nat} {size : UInt32}
    (h : sflowDatagramStart dg = .ok (buf, off, size)) :
    sflowDatagramSize dg = .ok size ∧ off = 28 ∧ 28 ≤ size.toNat ∧
      buf.data = splice (List.replicate size.toNat 0) 0 dg.header := by
  have hroom : sflowDatagramSize dg = .ok size ∧ 28 ≤ size.toNat := by
    have hip : (if sflowIpver = 4 then dg.ipAddr.toList.take 4 else dg.ipAddr.toList) =
        dg.ipAddr.toList.take 4 := rfl
    have hli : (dg.ipAddr.toList.take 4).length = 4 := by simp
    obtain ⟨size', hsize, h⟩ := bind_eq_ok.mp h
    dsimp only at h
    rw [hip, hli] at h
    obtain ⟨b₁, hc₁, h⟩ := bind_eq_ok.mp h
    obtain ⟨b₂, hc₂, h⟩ := bind_eq_ok.mp h
    obtain ⟨b₃, hc₃, hret⟩ := bind_eq_ok.mp h
    cases hret
    obtain ⟨hroom₁, hdata₁⟩ := Buf.data_of_memcpy hc₁
    obtain ⟨hroom₂, hdata₂⟩ := Buf.data_of_memcpy hc₂
    obtain ⟨hroom₃, -⟩ := Buf.data_of_memcpy hc₃
    have hlen : b₂.data.length = size.toNat := by
      rw [hdata₂, length_splice hroom₂, hdata₁, length_splice hroom₁, Buf.calloc,
        List.length_replicate]
    rw [hlen] at hroom₃
    simp only [List.length_append, wordBytes_length] at hroom₃
    exact ⟨hsize, hroom₃⟩
  obtain ⟨hsize, hroom⟩ := hroom
  rw [sflowDatagramStart_eq hsize hroom] at h
  cases h
  exact ⟨hsize, rfl, hroom, rfl⟩

/-- A datagram whose size is computed right is written completely, in one chain
of writes from the first byte to the last. -/
theorem flat_eq {m : Memory R} {dg : SflowDg p R} {size : UInt32}
    (hsize : sflowDatagramSize dg = .ok size) (hwire : size.toNat = (dg.wire m).length)
    (hcount : (ntohl p.endian dg.sampleNum).toNat = dg.samples.length)
    (hsamples : ∀ sp ∈ dg.samples, sp.Flattens m) :
    ∃ ws, Chain 0 ws size.toNat ∧
      sflowDatagramFlat m dg = .ok (⟨dg.wire m, ws⟩, size.toNat, size) := by
  let d := List.replicate size.toNat (0 : UInt8)
  have hcalloc : d.length = size.toNat := List.length_replicate
  rw [wire, List.length_append, header_length] at hwire
  have hs₃ : (splice d 0 dg.header).length = size.toNat := by
    rw [length_splice (by rw [hcalloc, header_length]; omega), hcalloc]
  -- the loop over the samples
  have hstarts : StartsBelow (2 ^ 32) (dg.samples.map fun sp => (sp.wire m).length) 28 := by
    rw [List.length_flatMap] at hwire
    exact StartsBelow.of_sum_lt (hwire ▸ size.toNat_lt)
  obtain ⟨ws, hws, hslots⟩ := Emits.slots (fun sp hsp ↦ SflowSp.emits (hsamples sp hsp)) 28
    hstarts ⟨splice d 0 dg.header, [(0, 8), (8, 4), (12, 16)]⟩ 0
    (by simp only [hs₃]; omega)
  have hall := splice_splice (d := d) (o := 0) (u := dg.header)
    (v := dg.samples.flatMap (·.wire m)) (by rw [hcalloc, header_length]; omega)
  rw [header_length, Nat.zero_add] at hall
  have hfull : (dg.wire m).length = d.length := by
    rw [hcalloc, wire, List.length_append, header_length, hwire]
  refine ⟨(0, 8) :: (8, 4) :: (12, 16) :: ws, ⟨rfl, rfl, rfl, ?_⟩, ?_⟩
  · rw [hwire]
    simpa using hws
  · rw [← hcount, Nat.zero_add] at hslots
    simp only [hall] at hslots
    rw [← wire, splice_zero hfull, ← hwire] at hslots
    rw [sflowDatagramFlat, sflowDatagramStart_eq hsize (by omega), ok_bind]
    dsimp only
    rw [hslots]
    rfl

end SflowDg

end Sflow

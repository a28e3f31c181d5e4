import Sflow.C.Decode
import Sflow.Protocol.Packed

/-!
# Datagrams read back

A collector reads a datagram by its counts and lengths.  This file says how, and
that it recovers the samples that were packed: their kind, sequence number and
source, and the formats and bytes of their records.

What can go wrong is the flattening, never the format: a record of host adapters
is flattened by way of memory that it has just freed, and datagrams of four
gigabytes are beyond the words that count them.
-/

namespace Sflow

open C C.Reader

/-! ## The reference decoder -/

/-- A record as a collector reads it. -/
structure DecodedRecord where
  ent : UInt32
  fmt : UInt32
  payload : List UInt8
deriving DecidableEq, Repr

inductive SampleKind where
  | flow
  | counter
deriving DecidableEq, Repr

/-- A sample as a collector reads it. -/
structure DecodedSample where
  kind : SampleKind
  seqNo : UInt32
  idType : UInt32
  /-- The lower 24 bits. -/
  id : UInt32
  records : List DecodedRecord
deriving DecidableEq, Repr

/-- A datagram as a collector reads it. -/
structure DecodedDatagram where
  version : UInt32
  ipVer : UInt32
  agent : List UInt8
  subAgentId : UInt32
  seqNo : UInt32
  upTime : UInt32
  samples : List DecodedSample
deriving DecidableEq, Repr

def readRecord : Reader DecodedRecord :=
  word.andThen fun dfmt => word.andThen fun len => (bytes len.toNat).andThen fun payload =>
    ret ⟨sflowGetDataEnt dfmt, sflowGetDataFmt dfmt, payload⟩

/-- The fields of a data source word. -/
def idTypeOf (dsrc : UInt32) : UInt32 := dsrc >>> 24

def idOf (dsrc : UInt32) : UInt32 := dsrc &&& 0x00FFFFFF

/-- A flow sample: sequence number, source, rate, pool, drops and two interfaces. -/
def readFlowSample : Reader DecodedSample :=
  word.andThen fun seqNo => word.andThen fun dsrc => (bytes 20).andThen fun _ =>
    word.andThen fun count => (many readRecord count.toNat).andThen fun records =>
      ret ⟨.flow, seqNo, idTypeOf dsrc, idOf dsrc, records⟩

def readCounterSample : Reader DecodedSample :=
  word.andThen fun seqNo => word.andThen fun dsrc => word.andThen fun count =>
    (many readRecord count.toNat).andThen fun records =>
      ret ⟨.counter, seqNo, idTypeOf dsrc, idOf dsrc, records⟩

def readSample : Reader DecodedSample :=
  word.andThen fun dfmt => word.andThen fun len =>
    if sflowGetDataEnt dfmt = 0 ∧ sflowGetDataFmt dfmt = 1 then within len.toNat readFlowSample
    else if sflowGetDataEnt dfmt = 0 ∧ sflowGetDataFmt dfmt = 2 then
      within len.toNat readCounterSample
    else fail

def readDatagram : Reader DecodedDatagram :=
  word.andThen fun version => word.andThen fun ipVer => (bytes 4).andThen fun agent =>
    word.andThen fun subAgentId => word.andThen fun seqNo => word.andThen fun upTime =>
      word.andThen fun num => (many readSample num.toNat).andThen fun samples =>
        ret ⟨version, ipVer, agent, subAgentId, seqNo, upTime, samples⟩

/-- Read a datagram to its last byte. -/
def decodeDatagram (bs : List UInt8) : Option DecodedDatagram :=
  match readDatagram bs with
  | some (dg, []) => some dg
  | _ => none

/-! ## What is sent -/

variable {R : Type} {p : Platform}

namespace PayloadInput

/-- The bytes of a payload. -/
def bytes : PayloadInput p → List UInt8
  | leaf k image _ _ => image.take (k.sizeof p - p.psize)
  | adapters _ links =>
      beBytes 4 links.length ++ links.flatMap fun di =>
        beBytes 4 di.diLinkid.toNat ++ beBytes 4 di.valcnt.toNat ++ di.mac.toList

/-- The record that a payload is sent in. -/
def sent (i : PayloadInput p) : DecodedRecord := ⟨i.kind.ent, i.kind.fmt, i.bytes⟩

theorem wire_toPayload {i : PayloadInput p} (h : i.size < 2 ^ 32) :
    i.toPayload.wire = i.bytes := by
  cases i with
  | leaf => rfl
  | adapters addr links =>
      have hbody := length_body_sflowCrHostAdaptersPack (p := p) links
      have hlen : (sflowCrHostAdaptersPack p links).hasLen.toNat = 4 + 16 * links.length := by
        rw [sflowCrHostAdaptersPack_eq]
        exact toNat_ofNat_of_lt h
      have hlinks : 4 + 16 * links.length < 2 ^ 32 := h
      have hcount : (UInt32.ofNat links.length).toNat = links.length :=
        toNat_ofNat_of_lt (by omega)
      rw [toPayload, CrPayload.wire, hlen, ← hbody, List.take_length, sflowCrHostAdaptersPack_eq,
        SflowCrHostAdapters.body, bytes]
      simp only [wordBytes_htonl, hcount, List.flatMap_map, SflowCrHostAdapter.image]

theorem length_bytes {i : PayloadInput p} : i.bytes.length = i.size := by
  cases i with
  | leaf k image hk hlen =>
      rw [bytes, List.length_take, hlen, size]
      omega
  | adapters addr links =>
      rw [bytes, size, List.length_append, beBytes_length, List.length_flatMap]
      congr 1
      induction links with
      | nil => rfl
      | cons di links ih =>
          rw [List.map_cons, List.sum_cons, ih]
          simp
          omega

end PayloadInput

namespace SampleInput

/-- The bytes of a raw packet record for a packet of `len` bytes. -/
def rawBytes (pkt : List UInt8) (len : Nat) : List UInt8 :=
  beBytes 4 1 ++ beBytes 4 (UInt32.ofNat len).toNat ++
    beBytes 4 (UInt32.ofNat (len - frCrop len)).toNat ++ beBytes 4 (frCrop len) ++
    pkt.take (frCrop len)

def kind : SampleInput p R → SampleKind
  | flow .. => .flow
  | counter .. => .counter

def sentRecords (m : Memory R) : SampleInput p R → List DecodedRecord
  | flow _ _ _ pkt len => [⟨0, 1, rawBytes (m.deref pkt) len⟩]
  | counter _ payloads => payloads.map (·.sent)

/-- What a collector is to read where a sample was sent. -/
def sent (m : Memory R) (i : SampleInput p R) : DecodedSample where
  kind := i.kind
  seqNo := UInt32.ofNat i.source.ssCount
  idType := UInt32.ofNat i.source.ssIdType
  id := UInt32.ofInt i.source.ssId &&& 0x00FFFFFF
  records := i.sentRecords m

end SampleInput

/-- The datagram around samples. -/
def sentDatagram (p : Platform) (m : Memory R) (datagramCount : Nat) (upTime : UInt32)
    (l : List (SampleInput p R)) : DecodedDatagram where
  version := 5
  ipVer := 1
  agent := p.agentIp.toList
  subAgentId := 52
  seqNo := UInt32.ofNat datagramCount
  upTime := upTime
  samples := l.map (·.sent m)

/-! ## Reading what was sent -/

theorem reads_readRecord {ent fmt len : UInt32} {payload : List UInt8}
    (hent : ent.toNat < 2 ^ 12) (hfmt : fmt.toNat < 2 ^ 20) (hlen : len.toNat = payload.length) :
    Reads readRecord
      (beBytes 4 (sflowSetDataformat 0 ent fmt).toNat ++ (beBytes 4 len.toNat ++ payload))
      ⟨ent, fmt, payload⟩ := by
  refine (reads_word _).andThen ((reads_word len).andThen ?_)
  rw [sflowGetDataEnt_set hent hfmt, sflowGetDataFmt_set hent hfmt, hlen]
  exact (reads_bytes payload).andThen_ret _

theorem idTypeOf_sflowSetDatasource {source : SflowSource} :
    idTypeOf source.dsrc = UInt32.ofNat source.ssIdType := by
  have hlt := source.ssIdType_lt
  have htype : (UInt32.ofNat source.ssIdType).toNat = source.ssIdType :=
    toNat_ofNat_of_lt (by omega)
  have hmask : (0x00FFFFFF : UInt32).toNat = 2 ^ 24 - 1 := rfl
  have hdsrc := toNat_or_fields (s := 24) (k := 24) rfl (by decide) hmask
    (UInt32.ofNat source.ssIdType) (UInt32.ofInt source.ssId) (by omega)
  apply UInt32.toNat_inj.mp
  rw [idTypeOf, toNat_shiftRight_field (k := 24) rfl (by decide), SflowSource.dsrc,
    sflowSetDatasource, hdsrc]
  omega

theorem idOf_sflowSetDatasource {source : SflowSource} :
    idOf source.dsrc = UInt32.ofInt source.ssId &&& 0x00FFFFFF := by
  have hlt := source.ssIdType_lt
  have htype : (UInt32.ofNat source.ssIdType).toNat = source.ssIdType :=
    toNat_ofNat_of_lt (by omega)
  have hmask : (0x00FFFFFF : UInt32).toNat = 2 ^ 24 - 1 := rfl
  have hdsrc := toNat_or_fields (s := 24) (k := 24) rfl (by decide) hmask
    (UInt32.ofNat source.ssIdType) (UInt32.ofInt source.ssId) (by omega)
  apply UInt32.toNat_inj.mp
  rw [idOf, toNat_and_field (k := 24) rfl, toNat_and_field (k := 24) rfl, SflowSource.dsrc,
    sflowSetDatasource, hdsrc]
  omega

theorem PayloadInput.reads_record {i : PayloadInput p} (h : i.size < 2 ^ 32) :
    Reads readRecord i.record.wire i.sent := by
  have hwire : i.record.wire = beBytes 4 (sflowSetDataformat 0 i.kind.ent i.kind.fmt).toNat ++
      (beBytes 4 (UInt32.ofNat i.size).toNat ++ i.bytes) := by
    simp only [SflowCr.wire, record, wordBytes_htonl, Option.map_some, Option.getD_some,
      wire_toPayload h, List.append_assoc]
  rw [hwire]
  exact reads_readRecord i.kind.ent_lt i.kind.fmt_lt (by rw [toNat_ofNat_of_lt h, length_bytes])

namespace SampleInput

theorem reads_flowRecord {m : Memory R} {pkt : R} {len : Nat} (h : len ≤ (m.deref pkt).length) :
    Reads readRecord ((flowRecord p pkt len).wire p m) ⟨0, 1, rawBytes (m.deref pkt) len⟩ := by
  have hcrop : frCrop len ≤ (m.deref pkt).length := Nat.le_trans (frCrop_le len) h
  have hlt : 16 + frCrop len < 2 ^ 32 := by
    rw [frCrop]
    omega
  have hwire : (flowRecord p pkt len).wire p m =
      beBytes 4 (sflowSetDataformat 0 0 1).toNat ++
        (beBytes 4 (UInt32.ofNat (16 + frCrop len)).toNat ++ rawBytes (m.deref pkt) len) := by
    have hone : (1 : UInt32).toNat = 1 := rfl
    simp only [SflowFr.wire, flowRecord, SflowFrRawPktHeader.wire, wordBytes_htonl, ntohl_htonl,
      rawBytes, toNat_ofNat_of_lt (frCrop_lt len), hone, List.append_assoc]
  rw [hwire]
  refine reads_readRecord (by decide) (by decide) ?_
  rw [toNat_ofNat_of_lt hlt]
  simp only [rawBytes, List.length_append, beBytes_length, List.length_take_of_le hcrop]

theorem reads_flowSample {m : Memory R} (source : SflowSource) {pkt : R} {len : Nat}
    (h : len ≤ (m.deref pkt).length) :
    Reads readFlowSample ((flowSample p source pkt len).wire p m)
      ⟨.flow, UInt32.ofNat source.ssCount, UInt32.ofNat source.ssIdType,
        UInt32.ofInt source.ssId &&& 0x00FFFFFF, [⟨0, 1, rawBytes (m.deref pkt) len⟩]⟩ := by
  let skipped := wordBytes p.endian (flowSample p source pkt len).sfsRate ++
    wordBytes p.endian (flowSample p source pkt len).sfsPool ++
    wordBytes p.endian (flowSample p source pkt len).sfsDrops ++
    wordBytes p.endian (flowSample p source pkt len).inputIf ++
    wordBytes p.endian (flowSample p source pkt len).outputIf
  have hskipped : Reads (Reader.bytes 20) skipped skipped := by
    have hlen : skipped.length = 20 := by simp [skipped]
    rw [← hlen]
    exact reads_bytes skipped
  have hrecords : Reads (many readRecord 1) ([flowRecord p pkt len].flatMap (·.wire p m))
      [⟨0, 1, rawBytes (m.deref pkt) len⟩] := by
    rw [List.flatMap_singleton]
    have hone : Reads (many readRecord 1) ((flowRecord p pkt len).wire p m ++ [])
        [⟨0, 1, rawBytes (m.deref pkt) len⟩] :=
      (reads_flowRecord h).andThen ((reads_ret []).andThen_ret _)
    rwa [List.append_nil] at hone
  have hwire : (flowSample p source pkt len).wire p m =
      beBytes 4 (UInt32.ofNat source.ssCount).toNat ++ (beBytes 4 source.dsrc.toNat ++
        (skipped ++ (beBytes 4 (1 : UInt32).toNat ++
          [flowRecord p pkt len].flatMap (·.wire p m)))) := by
    simp only [SflowFs.wire, flowSample, wordBytes_htonl, skipped, List.append_assoc]
  rw [hwire, ← idTypeOf_sflowSetDatasource, ← idOf_sflowSetDatasource]
  exact (reads_word _).andThen <| (reads_word _).andThen <| hskipped.andThen <|
    (reads_word 1).andThen <| hrecords.andThen_ret _

theorem reads_counterSample {source : SflowSource} {payloads : List (PayloadInput p)}
    (h : (counter source payloads : SampleInput p R).size < 2 ^ 32) :
    Reads readCounterSample (counterSamp source payloads).wire
      ⟨.counter, UInt32.ofNat source.ssCount, UInt32.ofNat source.ssIdType,
        UInt32.ofInt source.ssId &&& 0x00FFFFFF, payloads.map (·.sent)⟩ := by
  have hrecords : Reads (many readRecord payloads.length)
      (payloads.flatMap (·.record.wire)) (payloads.map (·.sent)) :=
    reads_many fun i hi ↦ PayloadInput.reads_record (payload_size_lt h hi)
  have hcount := toNat_ofNat_of_lt (length_lt_of_size_lt h)
  have hwire : (counterSamp source payloads).wire =
      beBytes 4 (UInt32.ofNat source.ssCount).toNat ++ (beBytes 4 source.dsrc.toNat ++
        (beBytes 4 (UInt32.ofNat payloads.length).toNat ++
          payloads.flatMap (·.record.wire))) := by
    simp only [SflowCs.wire, counterSamp, SflowCs.around, wordBytes_htonl, List.length_map,
      List.flatMap_map, List.append_assoc]
  rw [hwire, ← idTypeOf_sflowSetDatasource, ← idOf_sflowSetDatasource]
  refine (reads_word _).andThen <| (reads_word _).andThen <| (reads_word _).andThen ?_
  rw [hcount]
  exact hrecords.andThen_ret _

theorem reads_packed {m : Memory R} {i : SampleInput p R} (h : i.size < 2 ^ 32)
    (hmem : i.InMemory m) : Reads readSample (i.packed.wire m) (i.sent m) := by
  have hlen := toNat_ofNat_of_lt h
  have hall := length_wire_packed (m := m) h hmem
  cases i with
  | flow source hent hfmt pkt len =>
      have hbody := (reads_flowSample (p := p) source hmem).within
      have hwire : (flow source hent hfmt pkt len : SampleInput p R).packed.wire m =
          beBytes 4 (sflowSetDataformat 0 0 1).toNat ++
            (beBytes 4 (UInt32.ofNat (flow source hent hfmt pkt len : SampleInput p R).size).toNat
              ++ (flowSample p source pkt len).wire p m) := by
        simp only [packed, SflowSp.wire, wordBytes_htonl, List.append_assoc]
      rw [hwire, List.length_append, List.length_append, beBytes_length, beBytes_length] at hall
      have hsize : ((flowSample p source pkt len).wire p m).length =
          (flow source hent hfmt pkt len : SampleInput p R).size := by omega
      rw [hsize] at hbody
      rw [hwire]
      refine (reads_word _).andThen <| (reads_word _).andThen ?_
      rw [if_pos (by decide), hlen]
      exact hbody
  | counter source payloads =>
      have hbody := (reads_counterSample h).within
      have hwire : (counter source payloads : SampleInput p R).packed.wire m =
          beBytes 4 (sflowSetDataformat 0 0 2).toNat ++
            (beBytes 4 (UInt32.ofNat (counter source payloads : SampleInput p R).size).toNat ++
              (counterSamp source payloads).wire) := by
        simp only [packed, SflowSp.wire, wordBytes_htonl, List.append_assoc]
      rw [hwire, List.length_append, List.length_append, beBytes_length, beBytes_length] at hall
      have hsize : (counterSamp source payloads).wire.length =
          (counter source payloads : SampleInput p R).size := by omega
      rw [hsize] at hbody
      rw [hwire]
      refine (reads_word _).andThen <| (reads_word _).andThen ?_
      rw [if_neg (by decide), if_pos (by decide), hlen]
      exact hbody

/-- The words of a datagram in front of the bytes of its samples. -/
theorem wire_around (m : Memory R) (l : List (SampleInput p R)) (datagramCount : Nat)
    (upTime : UInt32) :
    (SflowDg.around p datagramCount upTime (l.map packed)).wire m =
      beBytes 4 (5 : UInt32).toNat ++ (beBytes 4 (1 : UInt32).toNat ++ (p.agentIp.toList ++
        (beBytes 4 (52 : UInt32).toNat ++ (beBytes 4 (UInt32.ofNat datagramCount).toNat ++
          (beBytes 4 upTime.toNat ++ (beBytes 4 (UInt32.ofNat l.length).toNat ++
            l.flatMap (·.packed.wire m))))))) := by
  have htake : (p.agentIp ++ Vector.replicate 12 (0 : UInt8)).toList.take 4 =
      p.agentIp.toList := by
    rw [Vector.toList_append]
    exact List.take_left' (by simp)
  simp only [SflowDg.wire, SflowDg.header, SflowDg.around, sflowVer, sflowDummy,
    wordBytes_htonl, htake, List.length_map, List.flatMap_map, List.append_assoc]

/-- The bytes of a datagram are read back to what was sent. -/
theorem decodeDatagram_wire {m : Memory R} {l : List (SampleInput p R)}
    (h : totalSize l < 2 ^ 32) (hmem : ∀ i ∈ l, i.InMemory m) (datagramCount : Nat)
    (upTime : UInt32) :
    decodeDatagram ((SflowDg.around p datagramCount upTime (l.map packed)).wire m) =
      some (sentDatagram p m datagramCount upTime l) := by
  let dg := SflowDg.around p datagramCount upTime (l.map packed)
  have hsamples : Reads (many readSample l.length) (l.flatMap (·.packed.wire m))
      (l.map (·.sent m)) :=
    reads_many fun i hi ↦
      reads_packed (size_lt_of_totalSize_lt h i hi) (hmem i hi)
  have hcount : (UInt32.ofNat l.length).toNat = l.length :=
    toNat_ofNat_of_lt (Nat.lt_trans (length_lt_totalSize l) h)
  have hagent : Reads (Reader.bytes 4) p.agentIp.toList p.agentIp.toList := by
    have hlen : p.agentIp.toList.length = 4 := by simp
    conv => arg 1; rw [← hlen]
    exact reads_bytes _
  have hdg : Reads readDatagram (dg.wire m) (sentDatagram p m datagramCount upTime l) := by
    rw [wire_around]
    refine (reads_word _).andThen <| (reads_word _).andThen <| hagent.andThen <|
      (reads_word _).andThen <| (reads_word _).andThen <| (reads_word _).andThen <|
      (reads_word _).andThen ?_
    rw [hcount]
    exact hsamples.andThen_ret _
  have hread := hdg []
  rw [List.append_nil] at hread
  rw [decodeDatagram, hread]

end SampleInput

/-! ## The size of what is read -/

def DecodedRecord.size (r : DecodedRecord) : Nat := 8 + r.payload.length

/-- The number of bytes in front of the records of a sample. -/
def SampleKind.headerSize : SampleKind → Nat
  | flow => 32
  | counter => 12

def DecodedSample.size (s : DecodedSample) : Nat :=
  8 + (s.kind.headerSize + (s.records.map DecodedRecord.size).sum)

theorem consumes_readRecord : Consumes readRecord fun r n => n = r.size := by
  refine consumes_word.andThen fun _ _ hm ↦ consumes_word.andThen fun _ _ hn ↦
    (consumes_bytes _).andThen ?_
  rintro payload k ⟨hk, hlen⟩
  refine consumes_ret ?_
  simp only [DecodedRecord.size]
  omega

theorem consumes_readFlowSample : Consumes readFlowSample fun s n =>
    s.kind = .flow ∧ n = 32 + (s.records.map DecodedRecord.size).sum := by
  refine consumes_word.andThen fun _ _ h₁ ↦ consumes_word.andThen fun _ _ h₂ ↦
    (consumes_bytes 20).andThen fun _ _ h₃ ↦ consumes_word.andThen fun _ _ h₄ ↦
    (consumes_readRecord.many _).andThen fun _ _ h₅ ↦ consumes_ret ⟨rfl, ?_⟩
  simp only
  omega

theorem consumes_readCounterSample : Consumes readCounterSample fun s n =>
    s.kind = .counter ∧ n = 12 + (s.records.map DecodedRecord.size).sum := by
  refine consumes_word.andThen fun _ _ h₁ ↦ consumes_word.andThen fun _ _ h₂ ↦
    consumes_word.andThen fun _ _ h₃ ↦
    (consumes_readRecord.many _).andThen fun _ _ h₄ ↦ consumes_ret ⟨rfl, ?_⟩
  simp only
  omega

theorem consumes_readSample : Consumes readSample fun s n => n = s.size := by
  have key {r : Reader DecodedSample} {k : SampleKind} {m n len : Nat}
      (hr : Consumes r fun s n =>
        s.kind = k ∧ n = k.headerSize + (s.records.map DecodedRecord.size).sum)
      (hm : m = 4) (hn : n = 4) :
      Consumes (Reader.within len r) fun s k => m + (n + k) = s.size := by
    intro bs s rest h
    obtain ⟨j, hj, -, hk, hsum⟩ := hr.within len bs s rest h
    refine ⟨j, hj, ?_⟩
    simp only [DecodedSample.size, hk]
    omega
  refine consumes_word.andThen fun dfmt _ hm ↦ consumes_word.andThen fun len _ hn ↦ ?_
  split
  · exact key consumes_readFlowSample hm hn
  · split
    · exact key consumes_readCounterSample hm hn
    · exact consumes_fail

theorem consumes_readDatagram : Consumes readDatagram fun dg n =>
    n = 28 + (dg.samples.map DecodedSample.size).sum := by
  refine consumes_word.andThen fun _ _ h₁ ↦ consumes_word.andThen fun _ _ h₂ ↦
    (consumes_bytes 4).andThen fun _ _ h₃ ↦ consumes_word.andThen fun _ _ h₄ ↦
    consumes_word.andThen fun _ _ h₅ ↦ consumes_word.andThen fun _ _ h₆ ↦
    consumes_word.andThen fun _ _ h₇ ↦
    (consumes_readSample.many _).andThen fun _ _ h₈ ↦ consumes_ret ?_
  simp only
  omega

theorem length_of_decodeDatagram {bs : List UInt8} {dg : DecodedDatagram}
    (h : decodeDatagram bs = some dg) :
    bs.length = 28 + (dg.samples.map DecodedSample.size).sum := by
  rw [decodeDatagram] at h
  split at h
  · rename_i dg' hread
    cases h
    obtain ⟨n, hlen, hn⟩ := consumes_readDatagram _ _ _ hread
    rw [hlen, List.length_nil, Nat.zero_add, hn]
  · cases h

theorem SampleInput.size_sent {m : Memory R} {i : SampleInput p R} (hmem : i.InMemory m) :
    (i.sent m).size = 8 + i.size := by
  cases i with
  | flow source hent hfmt pkt len =>
      have hcrop : frCrop len ≤ (m.deref pkt).length := Nat.le_trans (frCrop_le len) hmem
      simp only [sent, DecodedSample.size, kind, SampleKind.headerSize, sentRecords,
        List.map_cons, List.map_nil, List.sum_cons, List.sum_nil, DecodedRecord.size, rawBytes,
        List.length_append, beBytes_length, List.length_take_of_le hcrop, size]
      omega
  | counter source payloads =>
      have hrecords : (payloads.map (·.sent)).map DecodedRecord.size =
          payloads.map fun i => 8 + i.size := by
        rw [List.map_map]
        exact List.map_congr_left fun i _ ↦ congrArg (8 + ·) i.length_bytes
      simp only [sent, DecodedSample.size, kind, SampleKind.headerSize, sentRecords, hrecords,
        size]

/-- Reading back what was sent takes all the bytes of the samples. -/
theorem length_of_decode_sent {m : Memory R} {l : List (SampleInput p R)}
    (hmem : ∀ i ∈ l, i.InMemory m) {bs : List UInt8} {datagramCount : Nat} {upTime : UInt32}
    (h : decodeDatagram bs = some (sentDatagram p m datagramCount upTime l)) :
    bs.length = SampleInput.totalSize l := by
  have hsizes : (l.map (·.sent m)).map DecodedSample.size = l.map fun i => 8 + i.size := by
    rw [List.map_map]
    exact List.map_congr_left fun i hi ↦ SampleInput.size_sent (hmem i hi)
  rw [length_of_decodeDatagram h, sentDatagram, hsizes, SampleInput.totalSize]

/-! ## The round trip -/

/-- Packing, flattening, sending and reading gives back what was sent. -/
def RoundTrips (m : Memory R) (datagramCount : Nat) (upTime : UInt32) (l : List (SampleInput p R))
    (list : SflowDataList (SflowSp p R)) : Prop :=
  ∃ dg buf offBuf size, sflowDatagramPack datagramCount upTime list = .ok dg ∧
    sflowDatagramFlat m dg = .ok (buf, offBuf, size) ∧
    decodeDatagram (buf.data.take size.toNat) = some (sentDatagram p m datagramCount upTime l)

/-- No payload is of variable size. -/
def SampleInput.NoAdapters : SampleInput p R → Prop
  | flow .. => True
  | counter _ payloads => ∀ i ∈ payloads, i.kind ≠ .hostAdapters

theorem SampleInput.NoAdapters.readableAfterFree {m : Memory R} {i : SampleInput p R}
    (h : i.NoAdapters) : i.ReadableAfterFree m := by
  cases i with
  | flow => trivial
  | counter source payloads => exact fun j hj ↦ PayloadInput.readableAfterFree_of_kind (h j hj)

/-- Samples whose records survive being freed are read back. -/
theorem roundTrips_of_readable {m : Memory R} {l : List (SampleInput p R)}
    {list : SflowDataList (SflowSp p R)} (hlist : list.WellFormed)
    (hdata : list.data = l.map SampleInput.packed) (h : SampleInput.totalSize l < 2 ^ 32)
    (hoff : ∀ i ∈ l, i.OffsetsFit) (hmem : ∀ i ∈ l, i.InMemory m)
    (hfree : ∀ i ∈ l, i.ReadableAfterFree m) (datagramCount : Nat) (upTime : UInt32) :
    RoundTrips m datagramCount upTime l list := by
  obtain ⟨ws, -, hflat⟩ := SampleInput.flat_around h hoff hmem hfree datagramCount upTime
  have hpack := sflowDatagramPack_eq hlist datagramCount upTime
  rw [hdata] at hpack
  refine ⟨_, _, _, _, hpack, hflat, ?_⟩
  have hlen := SampleInput.length_wire_around h hmem datagramCount upTime
  rw [toNat_ofNat_of_lt h, ← hlen]
  simp only [List.take_length]
  exact SampleInput.decodeDatagram_wire h hmem datagramCount upTime

/-- A datagram that is read back fits the word that counts it. -/
theorem RoundTrips.totalSize_lt {m : Memory R} {datagramCount : Nat} {upTime : UInt32}
    {l : List (SampleInput p R)} {list : SflowDataList (SflowSp p R)}
    (h : RoundTrips m datagramCount upTime l list) (hmem : ∀ i ∈ l, i.InMemory m) :
    SampleInput.totalSize l < 2 ^ 32 := by
  obtain ⟨dg, buf, offBuf, size, -, -, hdecode⟩ := h
  have hlen := length_of_decode_sent hmem hdecode
  rw [List.length_take] at hlen
  have hsize := size.toNat_lt
  omega

/-! ## What flattening takes for granted -/

theorem SflowSp.flatSlots_of_flat {m : Memory R} {source : SflowSource}
    {records : List (SflowCr p)} {len : UInt32} {buf : Buf} {start : Nat} {r : Buf × Nat}
    (hlen : records.length < 2 ^ 32)
    (h : sflowSampleFlat m ⟨htonl p.endian (sflowSetDataformat 0 0 2), len,
      .counter (.around source records)⟩ buf start = .ok r) :
    ∃ buf' r', flatSlots (2 ^ 31) (sflowCounterRecordFlat m) records.length records 12 buf'
      (start + 8) = .ok r' := by
  obtain ⟨buf₁, -, h⟩ := bind_eq_ok.mp h
  simp only [ntohl_htonl] at h
  rw [if_neg (by decide), if_pos (by decide)] at h
  obtain ⟨r', hcs, -⟩ := bind_eq_ok.mp h
  obtain ⟨buf₂, -, hslots⟩ := bind_eq_ok.mp hcs
  simp only [SflowCs.around, ntohl_htonl, toNat_ofNat_of_lt hlen] at hslots
  exact ⟨buf₂, r', hslots⟩

theorem SflowDg.flatSlots_of_flat {m : Memory R} {samples : List (SflowSp p R)}
    {datagramCount : Nat} {upTime : UInt32} {r : Buf × Nat × UInt32}
    (hcount : samples.length < 2 ^ 32)
    (h : sflowDatagramFlat m (.around p datagramCount upTime samples) = .ok r) :
    ∃ len buf r', flatSlots (2 ^ 32) (sflowSampleFlat m) samples.length samples len buf 0 =
      .ok r' := by
  obtain ⟨⟨buf, len, size⟩, -, h⟩ := bind_eq_ok.mp h
  obtain ⟨r', hslots, -⟩ := bind_eq_ok.mp h
  rw [SflowDg.sampleNum_around hcount] at hslots
  exact ⟨_, _, r', hslots⟩

/-- A datagram is flattened only if all records in it are. -/
theorem flatSlots_of_flat_around {m : Memory R} {datagramCount : Nat} {upTime : UInt32}
    {l : List (SampleInput p R)} (hsize : SampleInput.totalSize l < 2 ^ 32) {r : Buf × Nat × UInt32}
    (h : sflowDatagramFlat m (.around p datagramCount upTime (l.map SampleInput.packed)) = .ok r)
    {source : SflowSource} {payloads : List (PayloadInput p)} (hi : .counter source payloads ∈ l) :
    ∃ buf start r, flatSlots (2 ^ 31) (sflowCounterRecordFlat m) (payloads.map (·.record)).length
      (payloads.map (·.record)) 12 buf start = .ok r := by
  have hlen : (l.map SampleInput.packed).length < 2 ^ 32 := by
    rw [List.length_map]
    exact Nat.lt_trans (SampleInput.length_lt_totalSize l) hsize
  obtain ⟨len, buf', r, hslots⟩ := SflowDg.flatSlots_of_flat hlen h
  obtain ⟨buf'', start, r', hsample⟩ :=
    flat_of_flatSlots hslots (List.mem_map.mpr ⟨_, hi, rfl⟩)
  have hcount : (payloads.map (·.record)).length < 2 ^ 32 := by
    rw [List.length_map]
    exact SampleInput.length_lt_of_size_lt (SampleInput.size_lt_of_totalSize_lt hsize _ hi)
  obtain ⟨buf₁, r₁, hrecords⟩ := SflowSp.flatSlots_of_flat hcount hsample
  exact ⟨buf₁, _, r₁, hrecords⟩

theorem PayloadInput.kind_of_flatSlots {m : Memory R} {payloads : List (PayloadInput p)}
    (hfault : ∀ addr w, m.hasLenAfterFree addr w = .error .useAfterFree) {buf : Buf} {start : Nat}
    {r : Buf × Nat} (h : flatSlots (2 ^ 31) (sflowCounterRecordFlat m)
      (payloads.map (·.record)).length (payloads.map (·.record)) 12 buf start = .ok r) :
    ∀ i ∈ payloads, i.kind ≠ .hostAdapters := by
  intro i hi hkind
  obtain ⟨buf', start', ⟨buf'', n⟩, hrecord⟩ := flat_of_flatSlots h (List.mem_map.mpr ⟨i, hi, rfl⟩)
  obtain ⟨buf₁, k, hflat, -⟩ := flat_of_record_flat hrecord
  cases i with
  | leaf k image hk hlen => exact hk hkind
  | adapters addr links =>
      obtain ⟨w, hw, -⟩ := hasLenAfterFree_of_flat hflat
      rw [hfault] at hw
      cases hw

theorem PayloadInput.count_of_record_flat {m : Memory R} {i : PayloadInput p}
    (hsize : i.size < 2 ^ 32) (hfree : i.ReadableAfterFree m) {buf buf' : Buf} {start n : Nat}
    (h : sflowCounterRecordFlat m i.record buf start = .ok (buf', n)) : n = 8 + i.size := by
  obtain ⟨buf₁, k, hflat, hk⟩ := flat_of_record_flat h
  cases i with
  | leaf kd image hkd hlen =>
      have hcopy : leafFlat p (kd.sizeof p) image buf₁ (start + 8) = .ok (buf', k) := by
        rw [← CrPayload.leafFlatOf_eq hkd]
        exact hflat
      obtain ⟨buf₂, -, hret⟩ := bind_eq_ok.mp hcopy
      cases hret
      rw [hk, size]
  | adapters addr links =>
      obtain ⟨w, hw, hwk⟩ := hasLenAfterFree_of_flat hflat
      rw [sflowCrHostAdaptersPack_eq] at hw
      obtain rfl := Except.ok.inj (hfree.symm.trans hw)
      rw [hk, ← hwk]
      exact congrArg (8 + ·) (toNat_ofNat_of_lt hsize)

/-- A datagram is flattened only where no record starts too far behind. -/
theorem SampleInput.offsetsFit_of_flat_around {m : Memory R} {datagramCount : Nat} {upTime : UInt32}
    {l : List (SampleInput p R)} (hsize : totalSize l < 2 ^ 32)
    (hfree : ∀ i ∈ l, i.ReadableAfterFree m) {r : Buf × Nat × UInt32}
    (h : sflowDatagramFlat m (.around p datagramCount upTime (l.map packed)) = .ok r) :
    ∀ i ∈ l, i.OffsetsFit := by
  intro i hi
  cases i with
  | flow => trivial
  | counter source payloads =>
      obtain ⟨buf, start, r, hslots⟩ := flatSlots_of_flat_around hsize h hi
      have hlt := size_lt_of_totalSize_lt hsize _ hi
      exact startsBelow_of_flatSlots (fun j hj _ _ _ _ hflat ↦
        PayloadInput.count_of_record_flat (payload_size_lt hlt hj) (hfree _ hi j hj) hflat) hslots

/-- The packers make one datagram of a list, and there are no two ways to flatten it. -/
theorem RoundTrips.flat_around {m : Memory R} {datagramCount : Nat} {upTime : UInt32}
    {l : List (SampleInput p R)} {list : SflowDataList (SflowSp p R)} (hlist : list.WellFormed)
    (hdata : list.data = l.map SampleInput.packed)
    (h : RoundTrips m datagramCount upTime l list) :
    ∃ r, sflowDatagramFlat m (.around p datagramCount upTime (l.map SampleInput.packed)) =
      .ok r := by
  obtain ⟨dg, buf, offBuf, size, hpack, hflat, -⟩ := h
  rw [sflowDatagramPack_eq hlist, hdata] at hpack
  cases hpack
  exact ⟨_, hflat⟩

/-- For every list of samples that the packers made: whatever the allocator leaves
in the memory it is given back, the collector reads what was sent, exactly if
there are no host adapters in the list and its counts fit the words that hold
them. -/
theorem roundTrips_iff {m : Memory R} {l : List (SampleInput p R)}
    {list : SflowDataList (SflowSp p R)} (hlist : list.WellFormed)
    (hpack : l.mapM SampleInput.pack = .ok list.data) (hmem : ∀ i ∈ l, i.InMemory m)
    (datagramCount : Nat) (upTime : UInt32) :
    (∀ hasLen, RoundTrips { m with hasLenAfterFree := hasLen } datagramCount upTime l list) ↔
      (∀ i ∈ l, i.NoAdapters) ∧ SampleInput.totalSize l < 2 ^ 32 ∧ ∀ i ∈ l, i.OffsetsFit := by
  have hmem' : ∀ hasLen, ∀ i ∈ l, i.InMemory { m with hasLenAfterFree := hasLen } :=
    fun hasLen i hi ↦ (hmem i hi).withHasLen hasLen
  constructor
  · intro h
    have hsize := (h fun _ ↦ .ok).totalSize_lt (hmem' fun _ ↦ .ok)
    rw [SampleInput.mapM_pack_eq hsize, Except.ok.injEq] at hpack
    have hnone : ∀ i ∈ l, i.NoAdapters := by
      intro i hi
      cases i with
      | flow => trivial
      | counter source payloads =>
          obtain ⟨r, hflat⟩ :=
            (h fun _ _ ↦ .error .useAfterFree).flat_around hlist hpack.symm
          obtain ⟨buf, start, r, hslots⟩ := flatSlots_of_flat_around hsize hflat hi
          exact PayloadInput.kind_of_flatSlots (fun _ _ ↦ rfl) hslots
    obtain ⟨r, hflat⟩ := (h fun _ ↦ .ok).flat_around hlist hpack.symm
    refine ⟨hnone, hsize, SampleInput.offsetsFit_of_flat_around hsize (fun i hi ↦ ?_) hflat⟩
    exact (hnone i hi).readableAfterFree
  · rintro ⟨hnone, hsize, hoff⟩ hasLen
    rw [SampleInput.mapM_pack_eq hsize, Except.ok.injEq] at hpack
    exact roundTrips_of_readable hlist hpack.symm hsize hoff (hmem' hasLen)
      (fun i hi ↦ (hnone i hi).readableAfterFree) datagramCount upTime

/-- A packet in front of the host with its memory. -/
theorem roundTrips_iff_mixed :
    let m : Memory (List UInt8) := ⟨id, fun _ ↦ .ok⟩
    let memory : PayloadInput .amd64 :=
      .leaf .hostMemory (List.replicate 80 7) (by decide) (by decide)
    let l : List (SampleInput .amd64 (List UInt8)) :=
      [.flow .net0 rfl rfl [1, 2, 3, 4, 5, 6] 6, .counter .phyhost [memory]]
    let list := SflowDataList.ofRecords (l.map SampleInput.packed)
    (∀ hasLen, RoundTrips { m with hasLenAfterFree := hasLen } 0 0 l list) ↔
      (∀ i ∈ l, i.NoAdapters) ∧ SampleInput.totalSize l < 2 ^ 32 ∧ ∀ i ∈ l, i.OffsetsFit := by
  intro m memory l list
  have hmem : ∀ i ∈ l, i.InMemory m := by simp [l, m, SampleInput.InMemory]
  refine roundTrips_iff (SflowDataList.wellFormed_ofRecords _) ?_ hmem 0 0
  rw [SflowDataList.data_ofRecords]
  exact SampleInput.mapM_pack_eq (by decide)

/-- The host without adapters in front of a packet, in memory that a free fills
with a pattern: the offset of the packet is taken from the pattern. -/
theorem not_roundTrips_adapters :
    let m : Memory (List UInt8) := ⟨id, fun _ _ ↦ .ok 0xDEADBEEF⟩
    let l : List (SampleInput .amd64 (List UInt8)) :=
      [.counter .phyhost [.adapters 0 []], .flow .net0 rfl rfl [1, 2, 3, 4, 5, 6] 6]
    l.mapM SampleInput.pack = .ok (l.map SampleInput.packed) ∧ (∀ i ∈ l, i.InMemory m) ∧
      ¬ RoundTrips m 0 0 l (SflowDataList.ofRecords (l.map SampleInput.packed)) := by
  intro m l
  refine ⟨SampleInput.mapM_pack_eq (by decide), by simp [l, m, SampleInput.InMemory], ?_⟩
  rintro ⟨dg, buf, offBuf, size, hpack, hflat, -⟩
  rw [sflowDatagramPack_eq (SflowDataList.wellFormed_ofRecords _),
    SflowDataList.data_ofRecords] at hpack
  cases hpack
  have hfault : sflowDatagramFlat m (.around .amd64 0 0 (l.map SampleInput.packed)) =
      .error .outOfBounds := by decide +kernel
  rw [hfault] at hflat
  cases hflat

end Sflow

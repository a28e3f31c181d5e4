import Sflow.Sender.Tracked

/-!
# The master thread

`sflow_interrupt_sources_master_thread` reads every packet into one buffer, and the
sample that it makes of a packet refers to that buffer.  The sample is flattened
later, by whoever flushes, with what the buffer holds by then.

A reference to the buffer carries a note of the packet that it was taken for.
The note is for statements only: all references lead to the same bytes.
-/

namespace Sflow

open C Run

variable {T : Type} {p : Platform}

/-! ## Reading packets -/

/-- The receive buffer as `fr_header` refers to it, and the packet that was in it then. -/
structure PktRef where
  pkt : List UInt8

/-- Memory while the receive buffer holds `buffer`. -/
def rxMemory (buffer : List UInt8) (hasLenAfterFree : Nat → UInt32 → Except Fault UInt32) :
    Memory PktRef := ⟨fun _ => buffer, hasLenAfterFree⟩

def sflowBigbuffer : Nat := 1024 * 2

/-- What the buffer holds after a packet has been read into it. -/
def overwrite (buffer pkt : List UInt8) : List UInt8 := pkt ++ buffer.drop pkt.length

theorem length_overwrite {buffer pkt : List UInt8} (h : pkt.length ≤ buffer.length) :
    (overwrite buffer pkt).length = buffer.length := by
  rw [overwrite, List.length_append, List.length_drop]
  omega

/-- A flow source as `sflow_make_add_one_source_type` fills it in. -/
def SflowSource.flowsample (ssName : List Char) (ssId ssRate : Int) (ssFd : Nat) :
    SflowSource where
  ssName := ssName
  ssType := .flowsample
  ssFd := ssFd
  ssRate := ssRate
  ssIdType := 0
  ssId := ssId
  ssEnt := 0
  ssFmt := 1
  ssIdType_lt := SflowSource.ifIdType_lt

/-- The master thread, `none`, and any number of polling threads next to the sender. -/
structure Driver (T : Type) (p : Platform) where
  sender : Sender (Option T) p PktRef
  buffer : List UInt8
  sflowFdSources : Nat → Option SflowSource

/-- What can happen next. -/
inductive DriverAction (T : Type) (p : Platform) where
  | watch (ssName : List Char) (ssId ssRate : Int) (ssFd : Nat)
  | unwatch (fd : Nat)
  /-- The master thread reads a packet from a descriptor and hands its sample over. -/
  | read (fd : Nat) (pkt : List UInt8)
  /-- A polling thread hands over the sample of its counters. -/
  | poll (t : T) (source : SflowSource) (payloads : List (Option (CrPayload p) × CrKind))
  | run (a : Agent (Option T)) (hasLenAfterFree : Nat → UInt32 → Except Fault UInt32)
      (upTime : UInt32)
  | expire

def Driver.init (buffer : Vector UInt8 sflowBigbuffer) : Driver T p where
  sender := Sender.init
  buffer := buffer.toList
  sflowFdSources _ := none

/-- A step of the driver.  No packet is longer than what `read` is asked for. -/
def Driver.step [DecidableEq T] (s : Driver T p) : DriverAction T p → Option (Driver T p)
  | .watch ssName ssId ssRate ssFd =>
      some { s with sflowFdSources :=
        Function.update s.sflowFdSources ssFd (some (.flowsample ssName ssId ssRate ssFd)) }
  | .unwatch fd => some { s with sflowFdSources := Function.update s.sflowFdSources fd none }
  | .read fd pkt =>
      match s.sflowFdSources fd with
      | none => none
      | some source =>
          let source := { source with ssCount := source.ssCount + 1 }
          match getSampleFlowsample p source ⟨pkt⟩ pkt.length with
          | .error _ => none
          | .ok (sp, source) =>
              if pkt.length ≤ sflowBigbuffer then
                (s.sender.step (.call none sp)).map fun sender =>
                  { sender := sender
                    buffer := overwrite s.buffer pkt
                    sflowFdSources := Function.update s.sflowFdSources fd (some source) }
              else none
  | .poll t source payloads =>
      match counterSample source payloads with
      | .error _ => none
      | .ok (sp, _) =>
          (s.sender.step (.call (some t) sp)).map fun sender => { s with sender := sender }
  | .run a hasLenAfterFree upTime =>
      (s.sender.step (.run a ⟨rxMemory s.buffer hasLenAfterFree, upTime⟩)).map fun sender =>
        { s with sender := sender }
  | .expire => (s.sender.step .expire).map fun sender => { s with sender := sender }

section Step

variable [DecidableEq T] {s s' : Driver T p}

/-- Reading a packet makes its sample, hands it over and overwrites the buffer. -/
theorem Driver.step_read {fd : Nat} {pkt : List UInt8} (h : s.step (.read fd pkt) = some s') :
    ∃ source sp source' sender, s.sflowFdSources fd = some source ∧
      pkt.length ≤ sflowBigbuffer ∧
      getSampleFlowsample p { source with ssCount := source.ssCount + 1 } ⟨pkt⟩ pkt.length =
        .ok (sp, source') ∧
      s.sender.step (.call none sp) = some sender ∧
      s' = ⟨sender, overwrite s.buffer pkt,
        Function.update s.sflowFdSources fd (some source')⟩ := by
  rw [Driver.step] at h
  split at h
  · cases h
  · rename_i source hsource
    dsimp only at h
    split at h
    · cases h
    · rename_i sp source' hsample
      split at h
      · rename_i hpkt
        obtain ⟨sender, hsender, rfl⟩ := Option.map_eq_some_iff.mp h
        exact ⟨source, sp, source', sender, hsource, hpkt, hsample, hsender, rfl⟩
      · cases h

/-- Polling a source hands over its sample. -/
theorem Driver.step_poll {t : T} {source : SflowSource}
    {payloads : List (Option (CrPayload p) × CrKind)}
    (h : s.step (.poll t source payloads) = some s') :
    ∃ sp source' sender, counterSample source payloads = .ok (sp, source') ∧
      s.sender.step (.call (some t) sp) = some sender ∧ s' = { s with sender := sender } := by
  rw [Driver.step] at h
  split at h
  · cases h
  · rename_i sp source' hsample
    obtain ⟨sender, hsender, rfl⟩ := Option.map_eq_some_iff.mp h
    exact ⟨sp, source', sender, hsample, hsender, rfl⟩

end Step

/-! ## Headers -/

/-- The raw packet records of a sample. -/
def SflowSp.flowRecords {R : Type} (sp : SflowSp p R) : List (SflowFr R) :=
  match sp.data with
  | .flow fs => fs.records
  | .counter _ => []

/-- The first `fr_header_size` bytes. -/
def SflowFr.header (p : Platform) (fr : SflowFr PktRef) (bytes : List UInt8) : List UInt8 :=
  bytes.take (ntohl p.endian fr.sfrData.frHeaderSize).toNat

/-- The buffer starts with the bytes of the packet that the sample is to carry. -/
def SflowSp.HeaderIn (buffer : List UInt8) (sp : SflowSp p PktRef) : Prop :=
  ∀ fr ∈ sp.flowRecords, fr.header p buffer = fr.header p fr.sfrData.frHeader.pkt

instance (buffer : List UInt8) : DecidablePred (SflowSp.HeaderIn (p := p) buffer) := fun sp ↦
  inferInstanceAs (Decidable
    (∀ fr ∈ sp.flowRecords, fr.header p buffer = fr.header p fr.sfrData.frHeader.pkt))

/-- What a collector finds behind the length of a flow sample: 56 bytes of its structures, and the
first `fr_header_size` bytes of its packet. -/
def SflowSp.CarriesHeader (sp : SflowSp p PktRef) (body : List UInt8) : Prop :=
  match sp.data with
  | .flow fs => [body.drop 56] = fs.records.map fun fr => fr.header p fr.sfrData.frHeader.pkt
  | .counter _ => True

instance : (sp : SflowSp p PktRef) → (body : List UInt8) → Decidable (sp.CarriesHeader body)
  | ⟨_, _, .flow fs⟩, body => inferInstanceAs (Decidable
      ([body.drop 56] = fs.records.map fun fr => fr.header p fr.sfrData.frHeader.pkt))
  | ⟨_, _, .counter _⟩, _ => inferInstanceAs (Decidable True)

/-- A collector reads the bytes of the datagram to their end, and finds each flow sample with the
header of its own packet. -/
def Sent.CarriesHeaders (x : Sent p PktRef) : Prop :=
  ∃ r ∈ readParts x.bytes, r.2 = [] ∧ List.Forall₂ SflowSp.CarriesHeader x.samples r.1

instance : DecidablePred (Sent.CarriesHeaders (p := p)) := fun x ↦
  inferInstanceAs (Decidable
    (∃ r ∈ readParts x.bytes, r.2 = [] ∧ List.Forall₂ SflowSp.CarriesHeader x.samples r.1))

/-- What the master thread and the polling threads hand over. -/
inductive SflowSp.Sampled : SflowSp p PktRef → Prop
  | packet (source : SflowSource) (hent : source.ssEnt = 0) (hfmt : source.ssFmt = 1)
      (pkt : List UInt8) (hpkt : pkt.length ≤ sflowBigbuffer) :
      Sampled (SampleInput.flow source hent hfmt ⟨pkt⟩ pkt.length).packed
  | counters (sspDfmt len : UInt32) (cs : SflowCs p)
      (h : Noted (R := PktRef) ⟨sspDfmt, len, .counter cs⟩) : Sampled ⟨sspDfmt, len, .counter cs⟩

theorem eq_counter_of_counterSample {source source' : SflowSource}
    {payloads : List (Option (CrPayload p) × CrKind)} {sp : SflowSp p PktRef}
    (h : counterSample source payloads = .ok (sp, source')) :
    ∃ sspDfmt len cs, sp = ⟨sspDfmt, len, .counter cs⟩ := by
  obtain ⟨crs, -, h⟩ := bind_eq_ok.mp h
  obtain ⟨⟨cs, src⟩, -, h⟩ := bind_eq_ok.mp h
  obtain ⟨sp', hsp, h⟩ := bind_eq_ok.mp h
  obtain ⟨len, -, hsp⟩ := bind_eq_ok.mp hsp
  cases hsp
  cases h
  exact ⟨_, _, _, rfl⟩

/-- The bytes of a packet are in the buffer right after it was read. -/
theorem SflowSp.headerIn_overwrite (source : SflowSource) (hent : source.ssEnt = 0)
    (hfmt : source.ssFmt = 1) (buffer pkt : List UInt8) :
    SflowSp.HeaderIn (p := p) (overwrite buffer pkt)
      (SampleInput.flow source hent hfmt ⟨pkt⟩ pkt.length).packed := by
  intro fr hfr
  obtain rfl := List.mem_singleton.mp hfr
  have hcrop : (ntohl p.endian (htonl p.endian
      (UInt32.ofNat (frCrop pkt.length)))).toNat ≤ pkt.length := by
    rw [ntohl_htonl, toNat_ofNat_of_lt (SampleInput.frCrop_lt _)]
    exact SampleInput.frCrop_le _
  exact List.take_append_of_le_length hcrop

/-- The part of a datagram that a sample with its header becomes. -/
def SflowSp.IsCarrying (sp : SflowSp p PktRef) (b : List UInt8) : Prop :=
  sp.IsImage b ∧ sp.CarriesHeader (b.drop 8)

/-- A sample whose header is in the buffer is flattened with it, and to the bytes that it notes. -/
theorem SflowSp.Sampled.lays {sp : SflowSp p PktRef} (h : sp.Sampled) {buffer : List UInt8}
    (hbuffer : buffer.length = sflowBigbuffer) (hin : sp.HeaderIn buffer)
    {hasLenAfterFree : Nat → UInt32 → Except Fault UInt32}
    (hkept : sp.LensKept (rxMemory buffer hasLenAfterFree)) :
    Lays (sflowSampleFlat (rxMemory buffer hasLenAfterFree) sp) sp.IsCarrying := by
  cases h with
  | counters sspDfmt len cs hnoted => exact (hnoted.lays hkept).mono fun b hb ↦ ⟨hb, trivial⟩
  | packet source hent hfmt pkt hpkt =>
      let i : SampleInput p PktRef := .flow source hent hfmt ⟨pkt⟩ pkt.length
      have hmem : i.InMemory (rxMemory buffer hasLenAfterFree) := hpkt.trans hbuffer.ge
      have hsize : i.size < 2 ^ 31 := by
        have hcrop := SampleInput.frCrop_le pkt.length
        rw [sflowBigbuffer] at hpkt
        change 32 + (8 + (16 + frCrop pkt.length)) < 2 ^ 31
        omega
      have hheader : (i.packed.wire (rxMemory buffer hasLenAfterFree)).drop (8 + 56) =
          (SampleInput.flowRecord p ⟨pkt⟩ pkt.length).header p pkt := by
        refine Eq.trans ?_ (hin (SampleInput.flowRecord p ⟨pkt⟩ pkt.length) List.mem_cons_self)
        simp only [i, SampleInput.packed, SflowSp.wire, SampleInput.flowSample, SflowFs.wire,
          SampleInput.flowRecord, SflowFr.wire, SflowFrRawPktHeader.wire, List.flatMap_cons,
          List.flatMap_nil, List.append_nil, ← List.append_assoc]
        exact List.drop_left' (by simp)
      refine (SampleInput.lays_packed hsize hmem trivial).mono ?_
      rintro _ rfl
      rw [← List.drop_drop] at hheader
      exact ⟨SampleInput.isImage_wire_packed (Nat.lt_trans hsize (by decide)) hmem,
        congrArg ([·]) hheader⟩

/-! ## Runs -/

/-- A packet is read only when the buffer still starts, after that, with the header of
every sample that is not yet flattened.  A sample is flattened only when the lengths of its
adapters are still there after the free. -/
def KeepsHeaders (s : Driver T p) : DriverAction T p → Prop
  | .read _ pkt =>
      (∀ sp ∈ s.sender.sh.waiting, sp.HeaderIn (overwrite s.buffer pkt)) ∧
        ∀ a, ∀ sp ∈ (s.sender.pc a).samples, sp.HeaderIn (overwrite s.buffer pkt)
  | .run a hasLenAfterFree _ =>
      ∀ sp ∈ (s.sender.pc a).next, sp.LensKept (rxMemory s.buffer hasLenAfterFree)
  | _ => True

instance [Fintype T] (s : Driver T p) : (l : DriverAction T p) → Decidable (KeepsHeaders s l)
  | .read _ pkt => inferInstanceAs (Decidable
      ((∀ sp ∈ s.sender.sh.waiting, sp.HeaderIn (overwrite s.buffer pkt)) ∧
        ∀ a, ∀ sp ∈ (s.sender.pc a).samples, sp.HeaderIn (overwrite s.buffer pkt)))
  | .run a hasLenAfterFree _ => inferInstanceAs (Decidable
      (∀ sp ∈ (s.sender.pc a).next, sp.LensKept (rxMemory s.buffer hasLenAfterFree)))
  | .watch .. | .unwatch _ | .poll .. | .expire => inferInstanceAs (Decidable True)

/-- What holds in every run that keeps the headers. -/
structure Fresh (s : Driver T p) : Prop where
  buffered : Buffered s.sender
  buffer : s.buffer.length = sflowBigbuffer
  sources : ∀ fd source, s.sflowFdSources fd = some source → source.ssEnt = 0 ∧ source.ssFmt = 1
  tracked : Tracked (fun sp => sp.Sampled ∧ sp.HeaderIn s.buffer) SflowSp.IsCarrying s.sender

namespace Fresh

theorem init (buffer : Vector UInt8 sflowBigbuffer) : Fresh (Driver.init buffer : Driver T p) where
  buffered := Buffered.init
  buffer := buffer.length_toList
  sources fd source h := by cases h
  tracked := Tracked.init

variable [DecidableEq T] {s s' : Driver T p}

theorem sources_update {fds : Nat → Option SflowSource} {fd : Nat} {source : Option SflowSource}
    (h : ∀ fd source, fds fd = some source → source.ssEnt = 0 ∧ source.ssFmt = 1)
    (hsource : ∀ src, source = some src → src.ssEnt = 0 ∧ src.ssFmt = 1) (fd' : Nat)
    (src : SflowSource) (hsrc : Function.update fds fd source fd' = some src) :
    src.ssEnt = 0 ∧ src.ssFmt = 1 := by
  by_cases hfd : fd' = fd
  · subst hfd
    rw [Function.update_self] at hsrc
    exact hsource src hsrc
  · rw [Function.update_of_ne hfd] at hsrc
    exact h fd' src hsrc

theorem step (h : Fresh s) {l : DriverAction T p} (hl : KeepsHeaders s l)
    (hs : s.step l = some s') : Fresh s' := by
  have himage : ∀ sp : SflowSp p PktRef, ∀ b, sp.IsCarrying b → sp.IsImage b :=
    fun _ _ hb ↦ hb.1
  cases l with
  | watch ssName ssId ssRate ssFd =>
      cases hs
      refine ⟨h.buffered, h.buffer, sources_update h.sources fun src hsrc ↦ ?_, h.tracked⟩
      cases hsrc
      exact ⟨rfl, rfl⟩
  | unwatch fd =>
      cases hs
      exact ⟨h.buffered, h.buffer, sources_update h.sources fun src hsrc ↦ (by cases hsrc),
        h.tracked⟩
  | read fd pkt =>
      obtain ⟨source, sp, source', sender, hsource, hpkt, hsample, hsender, rfl⟩ :=
        Driver.step_read hs
      obtain ⟨hent, hfmt⟩ := h.sources fd source hsource
      let counted := { source with ssCount := source.ssCount + 1 }
      have hpacked := @SampleInput.getSampleFlowsample_eq _ p counted hent hfmt (⟨pkt⟩ : PktRef)
        pkt.length
      rw [hpacked, Except.ok.injEq, Prod.mk.injEq] at hsample
      obtain ⟨rfl, rfl⟩ := hsample
      refine ⟨h.buffered.step hsender, ?_, sources_update h.sources fun src hsrc ↦ ?_, ?_⟩
      · exact (length_overwrite (hpkt.trans h.buffer.ge)).trans h.buffer
      · cases hsrc
        exact ⟨hent, hfmt⟩
      · -- The samples on their way are in the new buffer by the condition, the new one by itself.
        have htracked : Tracked (fun sp => sp.Sampled ∧ sp.HeaderIn (overwrite s.buffer pkt))
            SflowSp.IsCarrying s.sender :=
          h.tracked.mono (fun sp hsp hP ↦ ⟨hP.1, hl.1 sp hsp⟩)
            fun a sp hsp hP ↦ ⟨hP.1, hl.2 a sp hsp⟩
        refine htracked.step h.buffered himage (fun t sample heq ↦ ?_)
          (fun b env heq ↦ (by cases heq)) hsender
        cases heq
        exact ⟨.packet counted hent hfmt pkt hpkt,
          SflowSp.headerIn_overwrite counted hent hfmt _ pkt⟩
  | poll t source payloads =>
      obtain ⟨sp, source', sender, hsample, hsender, rfl⟩ := Driver.step_poll hs
      refine ⟨h.buffered.step hsender, h.buffer, h.sources, ?_⟩
      refine h.tracked.step h.buffered himage (fun t sample heq ↦ ?_)
        (fun b env heq ↦ (by cases heq)) hsender
      cases heq
      have hnoted := SflowSp.noted_of_counterSample hsample
      obtain ⟨sspDfmt, len, cs, rfl⟩ := eq_counter_of_counterSample hsample
      exact ⟨.counters sspDfmt len cs hnoted, fun fr hfr ↦ by cases hfr⟩
  | run a hasLenAfterFree upTime =>
      obtain ⟨sender, hsender, rfl⟩ := Option.map_eq_some_iff.mp hs
      refine ⟨h.buffered.step hsender, h.buffer, h.sources, ?_⟩
      refine h.tracked.step h.buffered himage (fun t sample heq ↦ (by cases heq)) ?_ hsender
      intro b env heq sp hsp hP
      cases heq
      exact hP.1.lays h.buffer hP.2 (hl sp hsp)
  | expire =>
      obtain ⟨sender, hsender, rfl⟩ := Option.map_eq_some_iff.mp hs
      refine ⟨h.buffered.step hsender, h.buffer, h.sources, ?_⟩
      exact h.tracked.step h.buffered himage (fun t sample heq ↦ (by cases heq))
        (fun b env heq ↦ (by cases heq)) hsender

theorem run {buffer : Vector UInt8 sflowBigbuffer} {ls : List (DriverAction T p)}
    {s : Driver T p} (h : Run.run Driver.step (Driver.init buffer) ls = some s)
    (hkeeps : Meets Driver.step KeepsHeaders (Driver.init buffer) ls) : Fresh s :=
  run_induction_of_meets (fun _ _ _ h hl hs ↦ h.step hl hs) (init buffer) hkeeps h

end Fresh

/-- In every run of reads, samples of other threads and flushes in which each packet is
read only when the buffer keeps the headers of the samples not yet flattened, and each sample
flattened only while the lengths of adapters outlive the free: a collector finds every sample
in the bytes of every datagram sent, and a flow sample with the first `fr_header_size` bytes of
the packet that it was made of. -/
theorem sent_carriesHeader [DecidableEq T] {buffer : Vector UInt8 sflowBigbuffer}
    {ls : List (DriverAction T p)} {s : Driver T p}
    (h : run Driver.step (Driver.init buffer) ls = some s)
    (hkeeps : Meets Driver.step KeepsHeaders (Driver.init buffer) ls) :
    ∀ x ∈ s.sender.sh.sent, x.CarriesHeaders := by
  intro x hx
  obtain ⟨bodies, hread, hbodies⟩ :=
    ((Fresh.run h hkeeps).tracked.sent x hx).exists_read fun _ _ hb ↦ hb.1
  refine ⟨(bodies, []), hread, rfl, hbodies.imp fun sp body hbody ↦ ?_⟩
  have hcarries := hbody.2
  rwa [List.drop_left' sp.length_front] at hcarries

/-- An agent goes on for `n` steps. -/
def DriverAction.go (a : Agent (Option Unit)) (n : Nat) : List (DriverAction Unit .amd64) :=
  List.replicate n (.run a (fun _ => .ok) 0)

/-- A packet is read and sent, and then another. -/
def DriverAction.oneByOne : List (DriverAction Unit .amd64) :=
  .watch "net0".toList 1 256 5 :: .read 5 [1, 2, 3, 4, 5, 6, 7, 8] ::
    go (.thread none) 6 ++ .expire :: go .handler 8 ++
      .read 5 [9, 9, 9, 9] :: go (.thread none) 6 ++ .expire :: go .handler 8

/-- Two packets, each with its own header. -/
theorem sent_carriesHeader_oneByOne :
    ∃ s, run Driver.step (Driver.init (Vector.replicate _ 0)) DriverAction.oneByOne = some s ∧
      s.sender.sh.sent.length = 2 ∧
      ∀ x ∈ s.sender.sh.sent, x.CarriesHeaders := by
  have hrun : (run Driver.step (Driver.init (Vector.replicate _ 0)) DriverAction.oneByOne).any
      (fun s => s.sender.sh.sent.length == 2) = true := by decide +kernel
  obtain ⟨s, hs, hlen⟩ := (Option.any_eq_true _ _).mp hrun
  exact ⟨s, hs, beq_iff_eq.mp hlen, sent_carriesHeader hs (by decide +kernel)⟩

/-- Two packets are read before the first is sent. -/
def DriverAction.twoAtOnce : List (DriverAction Unit .amd64) :=
  .watch "net0".toList 1 256 5 :: .read 5 [1, 2, 3, 4, 5, 6, 7, 8] :: go (.thread none) 6 ++
    .read 5 [9, 9, 9, 9] :: go (.thread none) 5 ++ .expire :: go .handler 7

/-- The first sample is sent with four bytes of the second packet in front. -/
theorem exists_not_carriesHeader :
    ∃ s, run Driver.step (Driver.init (Vector.replicate _ 0)) DriverAction.twoAtOnce = some s ∧
      ∃ x ∈ s.sender.sh.sent, ¬ x.CarriesHeaders := by
  have hrun : (run Driver.step (Driver.init (Vector.replicate _ 0)) DriverAction.twoAtOnce).any
      (fun s => decide (∃ x ∈ s.sender.sh.sent, ¬ x.CarriesHeaders)) = true := by decide +kernel
  obtain ⟨s, hs, hsent⟩ := (Option.any_eq_true _ _).mp hrun
  exact ⟨s, hs, of_decide_eq_true hsent⟩

end Sflow

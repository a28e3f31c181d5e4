import Sflow.Protocol.Values
import Sflow.Sender.Delivered

/-!
# What is measured arrives

From the sampling functions to a collector that gets every datagram: packets arrive, as far as they
are not cropped, and so do the values that were measured for the records of an interface, of the
host and of a zone.
-/

namespace Sflow

open C Run

variable {T R : Type} {p : Platform}

/-- A sample that is taken: of a packet, or of a polled source in some unset memory. -/
inductive Taken (p : Platform) (R : Type) where
  | packet (source : SflowSource) (pkt : R) (len : Nat)
  | polled (source : SflowSource) (addr : CrKind → FlatAddr p) (x : PolledAnswers) (g : Unset)

namespace Taken

def source : Taken p R → SflowSource
  | packet source .. => source
  | polled source .. => source

/-- What the sampling functions make. -/
def sample : Taken p R → Except Fault (SflowSp p R)
  | packet source pkt len => return (← getSampleFlowsample p source pkt len).1
  | polled source addr x g => return (← x.sample p addr source g).1

/-- The packet is where the sample expects it, or the records can all be made and the buffer has
room for them. -/
def Fits (M : Memory R → Prop) : Taken p R → Prop
  | packet source pkt len =>
      source.ssEnt = 0 ∧ source.ssFmt = 1 ∧ ∀ m, M m → len ≤ (m.deref pkt).length
  | polled source _ x _ => x.Emitted p source ∧ 12 + ((x.sizes p).map (8 + ·)).sum < 2 ^ 29

def kind : Taken p R → SampleKind
  | packet .. => .flow
  | polled .. => .counter

/-- The records are those of the packet, or tell what was measured. -/
def Records (m : Memory R) : Taken p R → List DecodedRecord → Prop
  | packet _ pkt len, records => records = [⟨0, 1, SampleInput.rawBytes (m.deref pkt) len⟩]
  | polled source _ x g, records =>
      List.Forall₂ (x.Tells p source g) records (x.values p source g)

/-- What a collector reads of a sample that was flattened in some memory. -/
structure ReadAs (y : Taken p R) (m : Memory R) (d : DecodedSample) : Prop where
  kind : d.kind = y.kind
  seqNo : d.seqNo = UInt32.ofNat y.source.ssCount
  idType : d.idType = UInt32.ofNat y.source.ssIdType
  id : d.id = UInt32.ofInt y.source.ssId &&& 0x00FFFFFF
  records : y.Records m d.records

/-- What a sample that is taken is packed from. -/
structure Input (M : Memory R → Prop) (y : Taken p R) (i : SampleInput p R) : Prop where
  fits : y.Fits M
  sample : y.sample = .ok i.packed
  size : i.size < 2 ^ 29
  inMemory : ∀ m, M m → i.InMemory m
  readAs : ∀ m, y.ReadAs m (i.sent m)

variable {M : Memory R → Prop} {y : Taken p R}

theorem Fits.exists_input (h : y.Fits M) : ∃ i, y.Input M i := by
  cases y with
  | packet source pkt len =>
      obtain ⟨hent, hfmt, hlen⟩ := h
      refine ⟨.flow source hent hfmt pkt len, ⟨hent, hfmt, hlen⟩, ?_, ?_, hlen, fun m ↦ ?_⟩
      · rw [sample, SampleInput.getSampleFlowsample_eq hent hfmt]
        rfl
      · rw [SampleInput.size, frCrop]
        omega
      · exact ⟨rfl, rfl, rfl, rfl, rfl⟩
  | polled source addr x g =>
      obtain ⟨hemitted, hsize⟩ := h
      obtain ⟨payloads, hsample, hsizes, htells⟩ := hemitted.exists_payloads addr g
      refine ⟨.counter source payloads, ⟨hemitted, hsize⟩, ?_, ?_, fun _ _ ↦ trivial, fun m ↦ ?_⟩
      · rw [sample, hsample]
        rfl
      · rwa [SampleInput.size_of_sizes hsizes]
      · exact ⟨rfl, rfl, rfl, rfl, htells⟩

/-- Where freed memory is left alone, what is taken can be sent. -/
theorem sendable (hM : ∀ m, M m → m.Intact) :
    Sendable (fun i => ∃ y : Taken p R, y.Input M i) M where
  size := fun _ ⟨_, hy⟩ ↦ hy.size
  inMemory := fun _ m ⟨_, hy⟩ hm ↦ hy.inMemory m hm
  readable := fun i m _ hm ↦ by
    cases i with
    | flow => trivial
    | counter => exact fun j _ ↦ j.readableAfterFree_of_intact (hM m hm)

/-- What was taken makes what is packed from the inputs. -/
theorem map_sample {ι : Type} {zs : List ι} {f : ι → Taken p R} {g : ι → SampleInput p R}
    (h : ∀ z ∈ zs, (f z).Input M (g z)) :
    (zs.map f).map sample = ((zs.map g).map SampleInput.packed).map .ok := by
  simp only [List.map_map]
  exact List.map_congr_left fun z hz ↦ (h z hz).sample

end Taken

/-- Threads hand over samples that were taken, and memory is one of those expected. -/
def Action.Takes (M : Memory R → Prop) : Action T p R → Prop
  | call _ sp => ∃ y : Taken p R, y.Fits M ∧ y.sample = .ok sp
  | run _ env => M env.mem
  | expire => True

theorem Action.Takes.within {M : Memory R → Prop} {l : Action T p R} (h : l.Takes M) :
    l.Within (fun i => ∃ y : Taken p R, y.Input M i) M := by
  cases l with
  | call t sp =>
      obtain ⟨y, hfits, hsample⟩ := h
      obtain ⟨i, hi⟩ := hfits.exists_input
      refine ⟨i, ⟨y, hi⟩, ?_⟩
      rw [hi.sample, Except.ok.injEq] at hsample
      exact hsample
  | run => exact h
  | expire => trivial

/-- In every run, whatever the interleaving: flattening does not fault, and a collector that gets
all the datagrams decodes each of them, and reads one after the other the samples that were taken,
in the order in which they came to the buffer: with their numbers and sources, and with the packets
and the measured values in their records. -/
theorem taken_decoded [DecidableEq T] {M : Memory R → Prop} (hM : ∀ m, M m → m.Intact)
    {ls : List (Action T p R)} {s : Sender T p R} (h : run Sender.step Sender.init ls = some s)
    (hls : ∀ l ∈ ls, l.Takes M) :
    s.sh.faulted = false ∧
    ∃ (delivered : List (Taken p R × Memory R)) (pending : List (Taken p R))
      (dgs : List DecodedDatagram),
      (∀ x ∈ delivered, x.1.Fits M ∧ M x.2) ∧ (∀ y ∈ pending, y.Fits M) ∧
      (delivered.map (·.1) ++ pending).map Taken.sample = s.sh.appended.map .ok ∧
      s.sh.sent.mapM Sent.decoded = some dgs ∧
      Numbered DecodedDatagram.seqNo UInt32.ofNat dgs ∧
      List.Forall₂ (fun x d => x.1.ReadAs x.2 d) delivered (dgs.flatMap (·.samples)) ∧
      ((∀ a, (s.pc a).inFlight = none) →
        pending.map Taken.sample = s.sh.waiting.map .ok) := by
  have hI := Taken.sendable (p := p) hM
  have hdelivering := Delivering.run hI (fun l hl ↦ (hls l hl).within) h
  obtain ⟨flattened, inputs, dgs, hflattened, hinputs, happended, hdecoded, hnumbered, hsamples,
    hquiet⟩ := hdelivering.exists_delivered hI
  -- each of the samples with what it was taken from
  have htaken : ∀ x ∈ flattened,
      ∃ z : Taken p R × Flattened p R, (z.1.Input M z.2.1 ∧ M z.2.2) ∧ z.2 = x := by
    intro x hx
    obtain ⟨⟨y, hy⟩, hm⟩ := hflattened x hx
    exact ⟨(y, x), ⟨hy, hm⟩, rfl⟩
  have hleft : ∀ i ∈ inputs, ∃ w : Taken p R × SampleInput p R, w.1.Input M w.2 ∧ w.2 = i := by
    intro i hi
    obtain ⟨y, hy⟩ := hinputs i hi
    exact ⟨(y, i), hy, rfl⟩
  obtain ⟨zs, hzs, rfl⟩ := exists_map_eq htaken
  obtain ⟨ws, hws, rfl⟩ := exists_map_eq hleft
  have hpending := Taken.map_sample hws
  refine ⟨hdelivering.unfaulted, zs.map fun z => (z.1, z.2.2), ws.map (·.1), dgs, ?_, ?_, ?_,
    hdecoded, hnumbered, ?_, fun ha ↦ by rw [hpending, hquiet ha]⟩
  · rintro _ hx
    obtain ⟨z, hz, rfl⟩ := List.mem_map.mp hx
    exact ⟨(hzs z hz).1.fits, (hzs z hz).2⟩
  · rintro _ hy
    obtain ⟨w, hw, rfl⟩ := List.mem_map.mp hy
    exact (hws w hw).fits
  · have hdelivered := Taken.map_sample fun z hz ↦ (hzs z hz).1
    rw [happended, List.map_append, List.map_append, List.map_append, hpending]
    simp only [List.map_map] at hdelivered ⊢
    exact congrArg (· ++ _) hdelivered
  · rw [hsamples, List.map_map, List.forall₂_map_left_iff, List.forall₂_map_right_iff,
      List.forall₂_same]
    exact fun z hz ↦ (hzs z hz).1.readAs z.2.2

/-- The sample of a zone. -/
def Taken.running : Taken .amd64 (List UInt8) :=
  .polled .web (fun _ => Vector.replicate 8 1) (.hostv PolledAnswers.running) .zero

theorem Taken.fits_running (M : Memory (List UInt8) → Prop) : Taken.running.Fits M := by
  have hdescr : DescrFits .amd64 .web := by
    unfold DescrFits
    decide
  exact ⟨⟨by decide, hdescr, fun _ ↦ rfl⟩, by decide⟩

/-- A packet and the sample of a zone, and then the handler. -/
def Action.twoAndFlush (sp : SflowSp .amd64 (List UInt8)) :
    List (Action Unit .amd64 (List UInt8)) :=
  .call () .six :: go (.thread ()) .still 6 ++ .call () sp :: go (.thread ()) .still 5 ++
    .expire :: go .handler .still 9

theorem takes_twoAndFlush {sp : SflowSp .amd64 (List UInt8)} (h : Taken.running.sample = .ok sp) :
    ∀ l ∈ Action.twoAndFlush sp, l.Takes (· = Env.still.mem) := by
  intro l hl
  simp only [Action.twoAndFlush, Action.go, List.mem_append, List.mem_cons,
    List.mem_replicate] at hl
  rcases hl with ((rfl | ⟨-, rfl⟩) | rfl | ⟨-, rfl⟩) | rfl | ⟨-, rfl⟩
  · refine ⟨.packet .net0 [1, 2, 3, 4, 5, 6] 6, ⟨rfl, rfl, ?_⟩, ?_⟩
    · rintro m rfl
      exact Nat.le_refl 6
    · rw [Taken.sample, SampleInput.getSampleFlowsample_eq ssEnt_net0 ssFmt_net0]
      rfl
  · rfl
  · exact ⟨.running, Taken.fits_running _, h⟩
  · rfl
  · trivial
  · rfl

/-- Both arrive, and nothing is left to be sent. -/
theorem taken_decoded_twoAndFlush :
    ∃ (sp : SflowSp .amd64 (List UInt8)) (s : Sender Unit .amd64 (List UInt8))
      (delivered : List (Taken .amd64 (List UInt8) × Memory (List UInt8)))
      (dgs : List DecodedDatagram),
      run Sender.step Sender.init (Action.twoAndFlush sp) = some s ∧
      (delivered.map (·.1)).map Taken.sample = s.sh.appended.map .ok ∧
      s.sh.sent.mapM Sent.decoded = some dgs ∧
      List.Forall₂ (fun x d => x.1.ReadAs x.2 d) delivered (dgs.flatMap (·.samples)) := by
  let runs (sample : Except Fault (SflowSp .amd64 (List UInt8))) : Bool :=
    match sample with
    | .ok sp => (run Sender.step Sender.init (Action.twoAndFlush sp)).any fun s =>
        decide (s.sh.waiting.length = 0 ∧ ∀ a, (s.pc a).inFlight.isNone)
    | .error _ => false
  have hruns : runs Taken.running.sample := by decide +kernel
  have hintact : ∀ m : Memory (List UInt8), m = Env.still.mem → m.Intact := by
    rintro m rfl addr n
    rfl
  cases hsp : Taken.running.sample with
  | error e =>
      rw [hsp] at hruns
      cases hruns
  | ok sp =>
      rw [hsp] at hruns
      obtain ⟨s, hs, hrest⟩ := (Option.any_eq_true _ _).mp hruns
      obtain ⟨hwaiting, hflight⟩ := of_decide_eq_true hrest
      obtain ⟨-, delivered, pending, dgs, -, -, hsamples, hdecoded, -, hread, hpending⟩ :=
        taken_decoded hintact hs (takes_twoAndFlush hsp)
      have hnil := hpending fun a ↦ Option.isNone_iff_eq_none.mp (hflight a)
      rw [List.length_eq_zero_iff.mp hwaiting, List.map_nil, List.map_eq_nil_iff] at hnil
      rw [hnil, List.append_nil] at hsamples
      exact ⟨sp, s, delivered, dgs, hs, hsamples, hdecoded, hread⟩

end Sflow

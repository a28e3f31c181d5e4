import Sflow.Protocol.Hostv
import Sflow.Protocol.Queries
import Sflow.Protocol.RoundTrip

/-!
# What a sample is made of

Whether the bytes of a flattened sample depend on nothing but what was measured.
A sample is made in some unset memory, and `OnlyMeasured` compares two runs that
differ in it.

All that a structure is filled with can be read off the bytes that are copied
out of it, since only the pointer to its `flat` function is left behind.  So the
bytes are steady exactly if every field of every record is.
-/

namespace Sflow

open C

/-- A freed record is as it was when its length is read out of it. -/
def Memory.Intact {R : Type} (m : Memory R) : Prop := ∀ addr n, m.hasLenAfterFree addr n = .ok n

/-- A sample is made without a write beyond its buffers, and then flattened wherever there is room
for it, or else up to a record without payload, where a call through `NULL` ends it all. -/
def SampleDefined {R : Type} {p : Platform} (sample : Except Fault (SflowSp p R × SflowSource)) :
    Prop :=
  ∃ sp source', sample = .ok (sp, source') ∧ ∀ m : Memory R, m.Intact →
    (∃ bytes, Emits (sflowSampleFlat m sp) bytes) ∨
      sp.LacksPayload ∧ Stops (sflowSampleFlat m sp) .nullDeref

/-- Two runs with other things in the unset memory flatten to the same bytes, in the same buffer.
In the model of the memory there is nothing else that differs from run to run. -/
structure OnlyMeasured {G R : Type} {p : Platform}
    (sample : G → Except Fault (SflowSp p R × SflowSource)) : Prop where
  defined : ∀ g, SampleDefined (sample g)
  same : ∀ (m : Memory R), m.Intact → ∀ (buf : Buf) (start : Nat) (g g' : G) (r r' : Buf × Nat),
    (do sflowSampleFlat m (← sample g).1 buf start) = .ok r →
      (do sflowSampleFlat m (← sample g').1 buf start) = .ok r' → r = r'

variable {G R : Type} {p : Platform}

theorem onlyMeasured_of_steady {sample : G → Except Fault (SflowSp p R × SflowSource)}
    (hdefined : ∀ g, SampleDefined (sample g)) (h : Steady sample) : OnlyMeasured sample where
  defined := hdefined
  same m _ buf start g g' r r' hr hr' := by
    rw [h g g', hr', Except.ok.injEq] at hr
    exact hr.symm

/-- Where nothing is flattened, nothing differs. -/
theorem onlyMeasured_of_not_flat {sample : G → Except Fault (SflowSp p R × SflowSource)}
    (hdefined : ∀ g, SampleDefined (sample g))
    (h : ∀ (m : Memory R), m.Intact → ∀ buf start g r,
      (do sflowSampleFlat m (← sample g).1 buf start) ≠ .ok r) : OnlyMeasured sample where
  defined := hdefined
  same m hm buf start g _ r _ hr _ := absurd hr (h m hm buf start g r)

/-! ## The fields of a structure -/

section Fields

variable {e : Endian}

theorem steady_word {f : G → UInt32} :
    (Steady fun g => wordBytes e (htonl e (f g))) ↔ Steady f :=
  steady_injective (φ := fun x => wordBytes e (htonl e x)) fun _ _ ↦ wordBytes_htonl_inj.mp

@[simp] theorem hyperBytes_htonH (x : UInt64) : hyperBytes e (htonH e x) = beBytes 8 x.toNat := by
  have hlt := toNet_lt e (k := 8) x.toNat_lt
  have hnet : (htonH e x).toNat = toNet e 8 x.toNat := by
    simp only [htonH, UInt64.toNat_ofNat']
    exact Nat.mod_eq_of_lt hlt
  rw [hyperBytes, hnet, hostBytes_toNet]

theorem steady_hyper {f : G → UInt64} :
    (Steady fun g => hyperBytes e (htonH e (f g))) ↔ Steady f := by
  refine steady_injective (φ := fun x => hyperBytes e (htonH e x)) fun x y h ↦ ?_
  have hbytes : beBytes 8 x.toNat = beBytes 8 y.toNat := by
    rw [← hyperBytes_htonH (e := e), ← hyperBytes_htonH (e := e)]
    exact h
  exact UInt64.toNat_inj.mp (eq_of_beBytes_eq x.toNat_lt y.toNat_lt hbytes)

end Fields

namespace LeafImage

variable {k : CrKind} {d : StructDecl} {hd : d.sizeof p.toAbi = k.sizeof p}
  {us : G → List (List UInt8)} {flat : List UInt8} {image : G → LeafImage p k}
  {h : ∀ g, (us g ++ [flat]).map List.length = d.fields.map (·.2.size p.toAbi)}

/-- Where `known` does not hold, what is copied out of a structure shows it. -/
structure SteadyBy (image : G → LeafImage p k) (hk : k ≠ .hostAdapters) (known : Prop) :
    Prop where
  steady : known → Steady image
  known_of_bytes : (Steady fun g => ((image g).toInput hk).bytes) → known

/-- The values of all the fields of a structure are copied out of it. -/
theorem steadyBy_of_fields (himage : ∀ g, image g = .ofFields d hd (us g ++ [flat]) (h g))
    (hlast : d.fields.getLast? = some ("flat", .pointer)) (hk : k ≠ .hostAdapters) {known : Prop}
    (hus : Steady us ↔ known) : SteadyBy image hk known where
  steady hknown g g' := by
    rw [himage, himage]
    apply Subtype.ext
    exact congrArg (fun us => d.image p.toAbi (us ++ [flat])) (hus.mpr hknown g g')
  known_of_bytes hbytes := by
    refine hus.mp fun g g' ↦ ?_
    have hfits : ∀ g, StructDecl.Fits p.toAbi d.fields.dropLast (us g) := by
      intro g
      have hlens := h g
      rw [StructDecl.fields_eq hlast, List.map_append, List.map_append] at hlens
      exact StructDecl.fits_of_lengths p.toAbi (List.append_inj_left' hlens rfl)
    have hcopied : (d.image p.toAbi (us g ++ [flat])).take (d.sizeof p.toAbi - p.psize) =
        (d.image p.toAbi (us g' ++ [flat])).take (d.sizeof p.toAbi - p.psize) := by
      have heq := hbytes g g'
      simp only [himage] at heq
      rw [hd]
      exact heq
    exact StructDecl.take_image_injective p.toAbi hlast (hfits g) (hfits g') hcopied

end LeafImage

/-! ## The records of a sample -/

namespace PayloadInput

/-- The bytes of a record of known size are at the end of it. -/
theorem bytes_eq_drop {i : PayloadInput p} (h : i.size < 2 ^ 32) :
    i.bytes = i.record.wire.drop 8 := by
  have hhead : (wordBytes p.endian i.record.scrDfmt ++ wordBytes p.endian i.record.scrLen).length =
      8 := by
    rw [List.length_append, wordBytes_length, wordBytes_length]
  have hwire : i.record.wire =
      wordBytes p.endian i.record.scrDfmt ++ wordBytes p.endian i.record.scrLen ++ i.bytes := by
    rw [← wire_toPayload h]
    rfl
  rw [hwire, ← hhead, List.drop_left]

/-- Records of known sizes are told apart in a row of them. -/
theorem bytes_of_wires {l l' : List (PayloadInput p)} (hsizes : l.map size = l'.map size)
    (hl : ∀ i ∈ l, i.size < 2 ^ 32)
    (h : l.flatMap (·.record.wire) = l'.flatMap (·.record.wire)) :
    l.map bytes = l'.map bytes := by
  induction l generalizing l' with
  | nil =>
      rw [List.map_nil, eq_comm, List.map_eq_nil_iff] at hsizes
      rw [hsizes]
  | cons i l ih =>
      cases l' with
      | nil => cases hsizes
      | cons i' l' =>
          rw [List.map_cons, List.map_cons, List.cons.injEq] at hsizes
          have hi : i.size < 2 ^ 32 := hl i List.mem_cons_self
          have hi' : i'.size < 2 ^ 32 := hsizes.1 ▸ hi
          have hlen : i.record.wire.length = i'.record.wire.length := by
            rw [length_wire_record hi, length_wire_record hi', hsizes.1]
          rw [List.flatMap_cons, List.flatMap_cons] at h
          rw [List.map_cons, List.map_cons, bytes_eq_drop hi, bytes_eq_drop hi',
            List.append_inj_left h hlen,
            ih hsizes.2 (fun i hi ↦ hl i (List.mem_cons_of_mem _ hi))
              (List.append_inj_right h hlen)]

end PayloadInput

theorem size_toInput {k : CrKind} {n : Nat} (image : LeafImage p k) (hk : k ≠ .hostAdapters)
    (hsize : k.sizeof p = n + p.psize) : (image.toInput hk).size = n := by
  rw [LeafImage.toInput, PayloadInput.size, hsize, Nat.add_sub_cancel]

section Sample

variable {sample : G → Except Fault (SflowSp p R × SflowSource)} {source source' : SflowSource}
  {payloads : G → List (PayloadInput p)} {sizes : List Nat}

theorem SampleInput.size_of_sizes {payloads : List (PayloadInput p)}
    (h : payloads.map PayloadInput.size = sizes) :
    (SampleInput.counter source payloads : SampleInput p R).size =
      12 + (sizes.map (8 + ·)).sum := by
  rw [← h, List.map_map]
  rfl

theorem SampleInput.offsetsFit_of_sizes {payloads : List (PayloadInput p)}
    (h : payloads.map PayloadInput.size = sizes) :
    (SampleInput.counter source payloads : SampleInput p R).OffsetsFit ↔
      StartsBelow (2 ^ 31) (sizes.map (8 + ·)) 12 := by
  rw [← h, List.map_map]
  rfl

/-- A sample of payloads whose bytes a word counts is flattened. -/
theorem sampleDefined_of_sizes {made : Except Fault (SflowSp p R × SflowSource)}
    {payloads : List (PayloadInput p)}
    (hmade : made = .ok ((SampleInput.counter source payloads).packed, source'))
    (hsizes : payloads.map PayloadInput.size = sizes)
    (hlt : 12 + (sizes.map (8 + ·)).sum < 2 ^ 32)
    (hoff : StartsBelow (2 ^ 31) (sizes.map (8 + ·)) 12) : SampleDefined made := by
  have hsize : (SampleInput.counter source payloads : SampleInput p R).size < 2 ^ 32 := by
    rwa [SampleInput.size_of_sizes hsizes]
  exact ⟨_, _, hmade, fun m hm ↦ .inl ⟨_, SflowSp.emits (SampleInput.flattens_packed hsize
    ((SampleInput.offsetsFit_of_sizes hsizes).mpr hoff) trivial
    fun i _ ↦ PayloadInput.readableAfterFree_of_intact hm i)⟩⟩

/-- If the bytes of a sample only depend on what was measured, so do those of each record. -/
theorem steady_of_onlyMeasured
    (hsample : ∀ g, sample g = .ok ((SampleInput.counter source (payloads g)).packed, source'))
    (hsizes : ∀ g, (payloads g).map PayloadInput.size = sizes)
    (hlt : 12 + (sizes.map (8 + ·)).sum < 2 ^ 32)
    (hoff : StartsBelow (2 ^ 31) (sizes.map (8 + ·)) 12)
    (h : OnlyMeasured sample) : Steady fun g => (payloads g).map PayloadInput.bytes := by
  intro g g'
  let m : Memory R := ⟨fun _ ↦ [], fun _ ↦ .ok⟩
  let input (g : G) : SampleInput p R := .counter source (payloads g)
  have hsize : ∀ g, (input g).size = 12 + (sizes.map (8 + ·)).sum := fun g ↦
    SampleInput.size_of_sizes (hsizes g)
  have hword : ∀ g, (input g).size < 2 ^ 32 := by
    intro g
    rw [hsize]
    exact hlt
  have hfree : ∀ g, (input g).ReadableAfterFree m := by
    intro g i _
    exact PayloadInput.readableAfterFree_of_intact (fun _ _ ↦ rfl) i
  -- a buffer that the sample fills shows its bytes
  let buf : Buf := Buf.calloc (8 + (12 + (sizes.map (8 + ·)).sum))
  have hdata : ∀ g, ∃ ws, (do sflowSampleFlat m (← sample g).1 buf 0) =
      .ok (⟨(input g).packed.wire m, ws⟩, buf.data.length) := by
    intro g
    have hlen : ((input g).packed.wire m).length = buf.data.length := by
      rw [SampleInput.length_wire_packed (hword g) trivial, hsize]
      simp [buf, Buf.calloc]
    have hemits := SflowSp.emits (SampleInput.flattens_packed (m := m) (hword g)
      ((SampleInput.offsetsFit_of_sizes (hsizes g)).mpr hoff) trivial (hfree g))
    obtain ⟨ws, -, hflat⟩ := hemits buf 0 (by rw [Nat.zero_add, hlen])
    rw [splice_zero hlen, hlen] at hflat
    rw [hsample, ok_bind]
    exact ⟨_, hflat⟩
  obtain ⟨ws, hr⟩ := hdata g
  obtain ⟨ws', hr'⟩ := hdata g'
  have heq := h.same m (fun _ _ ↦ rfl) buf 0 g g' _ _ hr hr'
  have hwire : (input g).packed.wire m = (input g').packed.wire m :=
    congrArg (fun r : Buf × Nat => r.1.data) heq
  have hrecords : ((payloads g).map (·.record)).flatMap (·.wire) =
      ((payloads g').map (·.record)).flatMap (·.wire) := by
    refine List.append_inj_right (List.append_inj_right hwire ?_) ?_ <;>
      simp only [List.length_append, wordBytes_length]
  rw [List.flatMap_map, List.flatMap_map] at hrecords
  exact PayloadInput.bytes_of_wires ((hsizes g).trans (hsizes g').symm)
    (fun i hi ↦ SampleInput.payload_size_lt (hword g) hi) hrecords

/-- A sample is flattened only as far as an `int` counts its bytes. -/
theorem SampleInput.offsetsFit_of_flat {m : Memory R} (hm : m.Intact)
    {payloads : List (PayloadInput p)} (hlen : payloads.length < 2 ^ 32)
    (hsizes : ∀ i ∈ payloads, i.size < 2 ^ 32) {buf : Buf} {start : Nat} {r : Buf × Nat}
    (h : sflowSampleFlat m (SampleInput.counter source payloads).packed buf start = .ok r) :
    (SampleInput.counter source payloads : SampleInput p R).OffsetsFit := by
  have hcount : (payloads.map (·.record)).length < 2 ^ 32 := by rwa [List.length_map]
  obtain ⟨buf', r', hslots⟩ := SflowSp.flatSlots_of_flat hcount h
  refine startsBelow_of_flatSlots (fun i hi _ _ _ _ hflat ↦ ?_) hslots
  exact PayloadInput.count_of_record_flat (hsizes i hi)
    (PayloadInput.readableAfterFree_of_intact hm i) hflat

end Sample

end Sflow

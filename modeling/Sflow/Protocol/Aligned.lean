import Mathlib.Order.Bounds.Defs
import Sflow.Protocol.Padding

/-!
# Alignment

Flattening keeps track of where it is by adding up what the `flat` functions return.  This
file follows that count: `places` are the offsets at which the samples and the records of a
datagram start, and they are where the bytes go (`follows_sflowDatagramFlat`).

Nothing is padded on the way.  That every place is a multiple of four rests on the sizes of
the records, on how packets are cropped, and on the one count that is read from memory that
has been freed.
-/

namespace Sflow

open C

variable {R : Type} {p : Platform}

/-! ## Where things start -/

/-- Places that start at multiples of four. -/
def PlacesAligned (x : Except Fault (List Nat × Nat)) : Prop :=
  ∃ starts stop, x = .ok (starts, stop) ∧ ∀ s ∈ starts, 4 ∣ s

/-- Places that start at multiples of four, and so does what comes behind them. -/
def PlacesEndAligned (x : Except Fault (List Nat × Nat)) : Prop :=
  ∃ starts stop, x = .ok (starts, stop) ∧ (∀ s ∈ starts, 4 ∣ s) ∧ 4 ∣ stop

/-- The places in a loop over pointer slots, each behind the one before. -/
def placeSlots {α : Type} (place : α → Nat → Except Fault (List Nat × Nat)) :
    Nat → List α → Nat → Except Fault (List Nat × Nat)
  | 0, _, off => .ok ([], off)
  | _ + 1, [], _ => .error .outOfBounds
  | count + 1, x :: slots, off => do
      let (starts, off) ← place x off
      let (rest, stop) ← placeSlots place count slots off
      return (starts ++ rest, stop)

/-- What `sflow_flow_record_flat` returns. -/
def SflowFr.returned (p : Platform) (fr : SflowFr R) : Nat :=
  let dfmt := ntohl p.endian fr.sfrDfmt
  sflowFrT.sizeof p.toAbi - 2 * p.psize +
    if sflowGetDataEnt dfmt = 0 ∧ sflowGetDataFmt dfmt = 1 then
      sflowFrRawPktHeaderT.sizeof p.toAbi - 2 * p.psize +
        (ntohl p.endian fr.sfrData.frHeaderSize).toNat
    else 0

/-- What the `flat` function of a payload returns. -/
def CrPayload.returned (m : Memory R) : CrPayload p → Except Fault Nat
  | leaf k _ _ _ => .ok (k.sizeof p - p.psize)
  | adapters addr ads => do
      let n ← m.hasLenAfterFree addr ads.hasLen
      return n.toNat

/-- What `sflow_counter_record_flat` returns, for a payload of the type that its format
names. -/
def SflowCr.returned (m : Memory R) (cr : SflowCr p) : Except Fault Nat :=
  match cr.scrData with
  | none => .error .nullDeref
  | some payload => do
      let n ← payload.returned m
      return 8 + n

def SflowFr.place (p : Platform) (fr : SflowFr R) (off : Nat) : Except Fault (List Nat × Nat) :=
  .ok ([off], off + fr.returned p)

def SflowCr.place (m : Memory R) (cr : SflowCr p) (off : Nat) :
    Except Fault (List Nat × Nat) := do
  let n ← cr.returned m
  return ([off], off + n)

/-- The places of the records of a sample that starts at the offset. -/
def SflowSp.recordPlaces (m : Memory R) (sp : SflowSp p R) (off : Nat) :
    Except Fault (List Nat × Nat) :=
  match sp.data with
  | .flow fs =>
      placeSlots (SflowFr.place p) (ntohl p.endian fs.sfsCount).toNat fs.records
        (off + 8 + (sflowFsT.sizeof p.toAbi - p.psize))
  | .counter cs =>
      placeSlots (SflowCr.place m) (ntohl p.endian cs.scsCount).toNat cs.records (off + 8 + 12)

/-- The places of a sample and of its records. -/
def SflowSp.place (m : Memory R) (sp : SflowSp p R) (off : Nat) :
    Except Fault (List Nat × Nat) := do
  let (starts, stop) ← sp.recordPlaces m off
  return (off :: starts, stop)

/-- The places of all samples and records of a datagram, behind its header. -/
def SflowDg.places (m : Memory R) (dg : SflowDg p R) : Except Fault (List Nat × Nat) :=
  placeSlots (SflowSp.place m) (ntohl p.endian dg.sampleNum).toNat dg.samples 28

/-! ## Where the bytes go -/

/-- A `flat` function keeps to the places: each of them is where it writes two words at a
time, and its count leads to where they end. -/
def Follows (flat : Flat) (place : Nat → Except Fault (List Nat × Nat)) : Prop :=
  ∀ buf start buf' n, flat buf start = .ok (buf', n) →
    ∃ starts ws, place start = .ok (starts, start + n) ∧ buf'.writes = buf.writes ++ ws ∧
      ∀ s ∈ starts, (s, 8) ∈ ws

theorem Follows.congr {f g : Flat} {place : Nat → Except Fault (List Nat × Nat)}
    (h : Follows g place) (heq : ∀ buf start, f buf start = g buf start) : Follows f place := by
  rwa [show f = g from funext fun buf ↦ funext (heq buf)]

/-- A `flat` function goes on writing, and returns a count that does not depend on where. -/
def Advances (flat : Flat) (count : Except Fault Nat) : Prop :=
  ∀ buf start buf' n, flat buf start = .ok (buf', n) →
    count = .ok n ∧ ∃ ws, buf'.writes = buf.writes ++ ws

theorem writes_memcpy {buf buf' : Buf} {off : Nat} {src : List UInt8}
    (h : buf.memcpy off src = .ok buf') : buf'.writes = buf.writes ++ [(off, src.length)] := by
  rw [Buf.memcpy] at h
  split at h
  · cases h
    rfl
  · cases h

theorem advances_copyOut (src : List UInt8) (n : Nat) : Advances (copyOut src n) (.ok n) := by
  intro buf start buf' k h
  obtain ⟨buf₁, hcopy, hret⟩ := bind_eq_ok.mp h
  cases hret
  exact ⟨rfl, _, writes_memcpy hcopy⟩

theorem advances_sflowFrRawPktFlat (m : Memory R) (r : SflowFrRawPktHeader R) :
    Advances (sflowFrRawPktFlat p m r)
      (.ok (sflowFrRawPktHeaderT.sizeof p.toAbi - 2 * p.psize +
        (ntohl p.endian r.frHeaderSize).toNat)) := by
  intro buf start buf' n h
  obtain ⟨buf₁, hcopy, h⟩ := bind_eq_ok.mp h
  obtain ⟨header, -, h⟩ := bind_eq_ok.mp h
  obtain ⟨buf₂, hcopy', h⟩ := bind_eq_ok.mp h
  cases h
  have hwrites := writes_memcpy hcopy'
  rw [writes_memcpy hcopy, List.append_assoc] at hwrites
  exact ⟨rfl, _, hwrites⟩

theorem advances_flat (m : Memory R) (payload : CrPayload p) :
    Advances (payload.flat m) (payload.returned m) := by
  cases payload with
  | leaf k image hk hlen =>
      rw [CrPayload.flat, CrPayload.leafFlatOf_eq hk]
      exact advances_copyOut _ _
  | adapters ads =>
      intro buf start buf' n h
      rw [CrPayload.flat, sflowCrHostAdaptersFlat] at h
      split at h
      · obtain ⟨buf₁, hcopy, h⟩ := bind_eq_ok.mp h
        obtain ⟨w, hw, h⟩ := bind_eq_ok.mp h
        cases h
        refine ⟨?_, _, writes_memcpy hcopy⟩
        rw [CrPayload.returned, hw]
        rfl
      · cases h

/-- A record is two words and what its payload makes of the rest. -/
theorem follows_header {flat : Flat} {count : Except Fault Nat}
    {place : Nat → Except Fault (List Nat × Nat)}
    (hd : List UInt8) (hhd : hd.length = 8) (hflat : Advances flat count)
    (hplace : ∀ off n, count = .ok n → place off = .ok ([off], off + (8 + n))) :
    Follows (fun buf start ↦ do
      let buf ← buf.memcpy start hd
      let (buf, k) ← flat buf (start + 8)
      return (buf, 8 + k)) place := by
  intro buf start buf' n h
  obtain ⟨buf₁, hcopy, h⟩ := bind_eq_ok.mp h
  obtain ⟨⟨buf₂, k⟩, hk, h⟩ := bind_eq_ok.mp h
  cases h
  obtain ⟨hcount, ws, hws⟩ := hflat _ _ _ _ hk
  have hwrites := writes_memcpy hcopy
  rw [hhd] at hwrites
  rw [hwrites, List.append_assoc] at hws
  refine ⟨[start], _, hplace start k hcount, hws, ?_⟩
  intro s hs
  rw [List.mem_singleton.mp hs]
  exact List.mem_cons_self

theorem follows_sflowFlowRecordFlat (m : Memory R) (fr : SflowFr R) :
    Follows (sflowFlowRecordFlat p m fr) (fr.place p) := by
  have hflat : Advances
      (fun buf start ↦
        if sflowGetDataEnt (ntohl p.endian fr.sfrDfmt) = 0 ∧
            sflowGetDataFmt (ntohl p.endian fr.sfrDfmt) = 1 then
          sflowFrRawPktFlat p m fr.sfrData buf start
        else .ok (buf, 0))
      (.ok (fr.returned p - 8)) := by
    rw [SflowFr.returned, sizeof_sflowFrT, Nat.add_sub_cancel_left]
    intro buf start buf' n h
    dsimp only at h ⊢
    split at h
    · next hfmt =>
        rw [if_pos hfmt]
        exact advances_sflowFrRawPktFlat m fr.sfrData buf start buf' n h
    · next hfmt =>
        rw [if_neg hfmt]
        cases h
        exact ⟨rfl, [], (List.append_nil _).symm⟩
  have hplace : ∀ off n, (.ok (fr.returned p - 8) : Except Fault Nat) = .ok n →
      fr.place p off = .ok ([off], off + (8 + n)) := by
    intro off n hn
    cases hn
    rw [SflowFr.place, SflowFr.returned, sizeof_sflowFrT, Nat.add_sub_cancel_left]
  refine (follows_header (wordBytes p.endian fr.sfrDfmt ++ wordBytes p.endian fr.sfrLen) (by simp)
    hflat hplace).congr fun buf start ↦ ?_
  simp only [sflowFlowRecordFlat, sizeof_sflowFrT]
  split <;> rfl

/-- The record carries a payload of the type its format word names. -/
def SflowCr.Typed (cr : SflowCr p) : Prop :=
  ∃ payload, cr.scrData = some payload ∧
    ntohl p.endian cr.scrDfmt = sflowSetDataformat 0 payload.kind.ent payload.kind.fmt

theorem follows_sflowCounterRecordFlat (m : Memory R) {cr : SflowCr p} (h : cr.Typed) :
    Follows (sflowCounterRecordFlat m cr) (cr.place m) := by
  obtain ⟨payload, hdata, hdfmt⟩ := h
  have hcall : callFlat m payload.kind cr.scrData = payload.flat m := by
    rw [hdata]
    exact if_pos rfl
  have hplace : ∀ off n, payload.returned m = .ok n →
      cr.place m off = .ok ([off], off + (8 + n)) := by
    intro off n hn
    rw [SflowCr.place, SflowCr.returned, hdata]
    dsimp only
    rw [hn]
    rfl
  refine (follows_header (wordBytes p.endian cr.scrDfmt ++ wordBytes p.endian cr.scrLen) (by simp)
    (advances_flat m payload) hplace).congr fun buf start ↦ ?_
  simp only [sflowCounterRecordFlat, hdfmt, sflowGetDataEnt_set payload.kind.ent_lt
    payload.kind.fmt_lt, sflowGetDataFmt_set payload.kind.ent_lt payload.kind.fmt_lt,
    CrPayload.counterPayloadFlat_kind, hcall]

/-- The loop over pointer slots keeps to the places, if each child does. -/
theorem follows_flatSlots {α : Type} {limit : Nat} {flat : α → Flat}
    {place : α → Nat → Except Fault (List Nat × Nat)} {xs : List α}
    (h : ∀ x ∈ xs, Follows (flat x) (place x)) (count len : Nat) {buf buf' : Buf} {start n : Nat}
    (hflat : flatSlots limit flat count xs len buf start = .ok (buf', n)) :
    ∃ starts ws, placeSlots place count xs (start + len) = .ok (starts, start + n) ∧
      buf'.writes = buf.writes ++ ws ∧ ∀ s ∈ starts, (s, 8) ∈ ws := by
  induction count generalizing xs len buf with
  | zero =>
      cases hflat
      exact ⟨[], [], rfl, (List.append_nil _).symm, fun s hs ↦ absurd hs List.not_mem_nil⟩
  | succ count ih =>
      cases xs with
      | nil => cases hflat
      | cons x xs =>
          rw [flatSlots] at hflat
          split at hflat
          · obtain ⟨⟨buf₁, k⟩, hx, hrest⟩ := bind_eq_ok.mp hflat
            obtain ⟨starts, ws, hplace, hws, hmem⟩ := h x List.mem_cons_self _ _ _ _ hx
            obtain ⟨starts', ws', hplace', hws', hmem'⟩ :=
              ih (fun y hy ↦ h y (List.mem_cons_of_mem _ hy)) _ hrest
            refine ⟨starts ++ starts', ws ++ ws', ?_, ?_, ?_⟩
            · rw [placeSlots, hplace, ok_bind, Nat.add_assoc]
              dsimp only
              rw [hplace']
              rfl
            · rw [hws', hws, List.append_assoc]
            · intro s hs
              obtain hs | hs := List.mem_append.mp hs
              · exact List.mem_append_left _ (hmem s hs)
              · exact List.mem_append_right _ (hmem' s hs)
          · cases hflat

/-- A sample whose format names what is in it, and so for the records of a counter sample. -/
def SflowSp.Typed (sp : SflowSp p R) : Prop :=
  match sp.data with
  | .flow _ => ntohl p.endian sp.sspDfmt = sflowSetDataformat 0 0 1
  | .counter cs =>
      ntohl p.endian sp.sspDfmt = sflowSetDataformat 0 0 2 ∧ ∀ cr ∈ cs.records, cr.Typed

/-- The header of a sample, and the loop over its records. -/
theorem follows_sample {α : Type} {flat : α → Flat}
    {place : α → Nat → Except Fault (List Nat × Nat)} {xs : List α}
    (h : ∀ x ∈ xs, Follows (flat x) (place x)) (hd : List UInt8) (hhd : hd.length = 8)
    (hd' : List UInt8) (count n : Nat) :
    Follows (fun buf start ↦ do
        let buf ← buf.memcpy start hd
        let (buf, k) ← (do
          let buf ← buf.memcpy (start + 8) hd'
          flatSlots (2 ^ 31) flat count xs n buf (start + 8))
        return (buf, 8 + k))
      fun off ↦ do
        let (starts, stop) ← placeSlots place count xs (off + 8 + n)
        return (off :: starts, stop) := by
  intro buf start buf' k hflat
  obtain ⟨buf₁, hcopy, hflat⟩ := bind_eq_ok.mp hflat
  obtain ⟨⟨buf₃, j⟩, hslots, hret⟩ := bind_eq_ok.mp hflat
  obtain ⟨buf₂, hcopy', hslots⟩ := bind_eq_ok.mp hslots
  cases hret
  obtain ⟨starts, ws, hplace, hws, hmem⟩ := follows_flatSlots h count n hslots
  have hwrites := writes_memcpy hcopy
  rw [hhd] at hwrites
  rw [writes_memcpy hcopy', hwrites, List.append_assoc, List.append_assoc] at hws
  refine ⟨start :: starts, _, ?_, hws, ?_⟩
  · dsimp only
    rw [hplace, Nat.add_assoc start 8 j]
    rfl
  · intro s hs
    obtain rfl | hs := List.mem_cons.mp hs
    · exact List.mem_cons_self
    · exact List.mem_append_right _ (List.mem_append_right _ (hmem s hs))

theorem follows_sflowSampleFlat (m : Memory R) {sp : SflowSp p R} (h : sp.Typed) :
    Follows (sflowSampleFlat m sp) (sp.place m) := by
  obtain ⟨dfmt, len, data⟩ := sp
  cases data with
  | flow fs =>
      have hdfmt : ntohl p.endian dfmt = sflowSetDataformat 0 0 1 := h
      refine (follows_sample (fun fr _ ↦ follows_sflowFlowRecordFlat m fr)
        (wordBytes p.endian dfmt ++ wordBytes p.endian len) (by simp)
        (wordBytes p.endian fs.sfsSeqNo ++ wordBytes p.endian fs.sfsDsrc ++
          wordBytes p.endian fs.sfsRate ++ wordBytes p.endian fs.sfsPool ++
          wordBytes p.endian fs.sfsDrops ++ wordBytes p.endian fs.inputIf ++
          wordBytes p.endian fs.outputIf ++ wordBytes p.endian fs.sfsCount) _ _).congr
        fun buf start ↦ ?_
      simp only [sflowSampleFlat, hdfmt, sflowGetDataEnt_one, sflowGetDataFmt_one, and_self,
        if_true]
      rfl
  | counter cs =>
      obtain ⟨hdfmt, hrecords⟩ := h
      have hne : ¬ (2 : UInt32) = 1 := by decide
      refine (follows_sample (fun cr hcr ↦ follows_sflowCounterRecordFlat m (hrecords cr hcr))
        (wordBytes p.endian dfmt ++ wordBytes p.endian len) (by simp)
        (wordBytes p.endian cs.scsSeqNo ++ wordBytes p.endian cs.scsDsrc ++
          wordBytes p.endian cs.scsCount) _ _).congr fun buf start ↦ ?_
      simp only [sflowSampleFlat, hdfmt, sflowGetDataEnt_two, sflowGetDataFmt_two, hne, and_false,
        if_false, and_self, if_true]
      rfl

/-- Where flattening gets through, it has written the front of every sample and of every record
at its place. -/
theorem follows_sflowDatagramFlat {m : Memory R} {dg : SflowDg p R}
    (h : ∀ sp ∈ dg.samples, sp.Typed) {buf : Buf} {offBuf : Nat} {size : UInt32}
    (hflat : sflowDatagramFlat m dg = .ok (buf, offBuf, size)) :
    ∃ starts, dg.places m = .ok (starts, offBuf) ∧ ∀ s ∈ starts, (s, 8) ∈ buf.writes := by
  obtain ⟨⟨buf₁, start, size'⟩, hstart, hflat⟩ := bind_eq_ok.mp hflat
  obtain ⟨⟨buf₂, off⟩, hslots, hret⟩ := bind_eq_ok.mp hflat
  cases hret
  obtain rfl := (SflowDg.start_cases hstart).2.1
  obtain ⟨starts, ws, hplace, hws, hmem⟩ :=
    follows_flatSlots (fun sp hsp ↦ follows_sflowSampleFlat m (h sp hsp)) _ _ hslots
  refine ⟨starts, ?_, fun s hs ↦ ?_⟩
  · rw [Nat.zero_add, Nat.zero_add] at hplace
    rw [SflowDg.places, ← hplace]
  · rw [hws]
    exact List.mem_append_right _ (hmem s hs)

/-! ## Multiples of four -/

section PlaceSlots

variable {ι α : Type} {f : ι → α} {place : α → Nat → Except Fault (List Nat × Nat)}
  {good weak : ι → Prop} {xs : List ι}

theorem placeSlots_succ_eq_ok {count : Nat} {y : α} {ys : List α} {off stop : Nat}
    {starts : List Nat} :
    placeSlots place (count + 1) (y :: ys) off = .ok (starts, stop) ↔
      ∃ starts₁ mid starts₂, place y off = .ok (starts₁, mid) ∧
        placeSlots place count ys mid = .ok (starts₂, stop) ∧ starts = starts₁ ++ starts₂ := by
  constructor
  · intro h
    obtain ⟨⟨starts₁, mid⟩, hy, h⟩ := bind_eq_ok.mp h
    obtain ⟨⟨starts₂, stop₂⟩, hys, h⟩ := bind_eq_ok.mp h
    cases h
    exact ⟨starts₁, mid, starts₂, hy, hys, rfl⟩
  · rintro ⟨starts₁, mid, starts₂, hy, hys, rfl⟩
    rw [placeSlots, hy, ok_bind]
    dsimp only
    rw [hys]
    rfl

/-- What is reached next starts where the last one ended. -/
theorem mem_starts_placeSlots
    (hstart : ∀ x off starts stop, place x off = .ok (starts, stop) → off ∈ starts)
    {count : Nat} {y : α} {ys : List α} {off stop : Nat} {starts : List Nat}
    (h : placeSlots place (count + 1) (y :: ys) off = .ok (starts, stop)) : off ∈ starts := by
  obtain ⟨starts₁, mid, starts₂, hy, -, rfl⟩ := placeSlots_succ_eq_ok.mp h
  exact List.mem_append_left _ (hstart _ _ _ _ hy)

theorem placesAligned_placeSlots_succ {count : Nat} {y : α} {ys : List α} {off : Nat} :
    PlacesAligned (placeSlots place (count + 1) (y :: ys) off) ↔
      ∃ starts mid, place y off = .ok (starts, mid) ∧ (∀ s ∈ starts, 4 ∣ s) ∧
        PlacesAligned (placeSlots place count ys mid) := by
  constructor
  · rintro ⟨starts, stop, heq, hstarts⟩
    obtain ⟨starts₁, mid, starts₂, hy, hys, rfl⟩ := placeSlots_succ_eq_ok.mp heq
    rw [List.forall_mem_append] at hstarts
    exact ⟨starts₁, mid, hy, hstarts.1, starts₂, stop, hys, hstarts.2⟩
  · rintro ⟨starts₁, mid, hy, hstarts₁, starts₂, stop, hys, hstarts₂⟩
    exact ⟨_, stop, placeSlots_succ_eq_ok.mpr ⟨starts₁, mid, starts₂, hy, hys, rfl⟩,
      List.forall_mem_append.mpr ⟨hstarts₁, hstarts₂⟩⟩

theorem placesEndAligned_placeSlots_succ {count : Nat} {y : α} {ys : List α} {off : Nat} :
    PlacesEndAligned (placeSlots place (count + 1) (y :: ys) off) ↔
      ∃ starts mid, place y off = .ok (starts, mid) ∧ (∀ s ∈ starts, 4 ∣ s) ∧
        PlacesEndAligned (placeSlots place count ys mid) := by
  constructor
  · rintro ⟨starts, stop, heq, hstarts, hstop⟩
    obtain ⟨starts₁, mid, starts₂, hy, hys, rfl⟩ := placeSlots_succ_eq_ok.mp heq
    rw [List.forall_mem_append] at hstarts
    exact ⟨starts₁, mid, hy, hstarts.1, starts₂, stop, hys, hstarts.2, hstop⟩
  · rintro ⟨starts₁, mid, hy, hstarts₁, starts₂, stop, hys, hstarts₂, hstop⟩
    exact ⟨_, stop, placeSlots_succ_eq_ok.mpr ⟨starts₁, mid, starts₂, hy, hys, rfl⟩,
      List.forall_mem_append.mpr ⟨hstarts₁, hstarts₂⟩, hstop⟩

/-- A loop over pointer slots keeps to multiples of four up to its end exactly if each child does
that is reached. -/
theorem placesEndAligned_placeSlots_iff
    (hplace : ∀ x ∈ xs, ∀ off, 4 ∣ off → (PlacesEndAligned (place (f x) off) ↔ good x))
    (hstart : ∀ x off starts stop, place x off = .ok (starts, stop) → off ∈ starts)
    {count : Nat} (hcount : count ≤ xs.length) {off : Nat} (hoff : 4 ∣ off) :
    PlacesEndAligned (placeSlots place count (xs.map f) off) ↔ ∀ x ∈ xs.take count, good x := by
  induction count generalizing xs off with
  | zero =>
      rw [List.take_zero]
      exact iff_of_true ⟨[], off, rfl, fun s hs ↦ absurd hs List.not_mem_nil, hoff⟩
        fun x hx ↦ absurd hx List.not_mem_nil
  | succ count ih =>
      cases xs with
      | nil => exact absurd hcount (Nat.not_succ_le_zero count)
      | cons x xs =>
          have hcount' : count ≤ xs.length := Nat.le_of_succ_le_succ hcount
          have hrest := fun off (hoff : 4 ∣ off) ↦
            ih (fun y hy ↦ hplace y (List.mem_cons_of_mem _ hy)) hcount' hoff
          rw [List.take_succ_cons, List.forall_mem_cons, ← hplace x List.mem_cons_self off hoff,
            List.map_cons, placesEndAligned_placeSlots_succ]
          constructor
          · rintro ⟨starts, mid, hx, hstarts, hxs⟩
            -- The next child, or the end if there is none, is where this one leads to.
            have hmid : 4 ∣ mid := by
              obtain ⟨starts₂, stop, heq, hstarts₂, hstop⟩ := hxs
              cases count with
              | zero =>
                  cases heq
                  exact hstop
              | succ count =>
                  cases xs with
                  | nil => exact absurd hcount' (Nat.not_succ_le_zero count)
                  | cons y xs => exact hstarts₂ mid (mem_starts_placeSlots hstart heq)
            exact ⟨⟨starts, mid, hx, hstarts, hmid⟩, (hrest mid hmid).mp hxs⟩
          · rintro ⟨⟨starts, mid, hx, hstarts, hmid⟩, hgood⟩
            exact ⟨starts, mid, hx, hstarts, (hrest mid hmid).mpr hgood⟩

/-- All elements of a list are good, but that less is asked of the last one. -/
def GoodToLast {ι : Type} (good weak : ι → Prop) (xs : List ι) : Prop :=
  (∀ x ∈ xs.dropLast, good x) ∧ ∀ x ∈ xs.getLast?, weak x

theorem goodToLast_singleton {x : ι} : GoodToLast good weak [x] ↔ weak x := by
  simp [GoodToLast]

theorem goodToLast_cons_cons {x y : ι} :
    GoodToLast good weak (x :: y :: xs) ↔ good x ∧ GoodToLast good weak (y :: xs) := by
  simp [GoodToLast, and_assoc]

/-- The places in a loop over pointer slots are multiples of four exactly if each child leads on to
one, and the last one only starts at such places. -/
theorem placesAligned_placeSlots_iff
    (hplace : ∀ x ∈ xs, ∀ off, 4 ∣ off → (PlacesEndAligned (place (f x) off) ↔ good x))
    (hlast : ∀ x ∈ xs, ∀ off, 4 ∣ off → (PlacesAligned (place (f x) off) ↔ weak x))
    (hstart : ∀ x off starts stop, place x off = .ok (starts, stop) → off ∈ starts)
    {count : Nat} (hcount : count ≤ xs.length) {off : Nat} (hoff : 4 ∣ off) :
    PlacesAligned (placeSlots place count (xs.map f) off) ↔
      GoodToLast good weak (xs.take count) := by
  induction count generalizing xs off with
  | zero =>
      rw [List.take_zero]
      exact iff_of_true ⟨[], off, rfl, fun s hs ↦ absurd hs List.not_mem_nil⟩
        ⟨fun x hx ↦ absurd hx List.not_mem_nil, fun x hx ↦ absurd hx (Option.not_mem_none x)⟩
  | succ count ih =>
      cases xs with
      | nil => exact absurd hcount (Nat.not_succ_le_zero count)
      | cons x xs =>
          have hcount' : count ≤ xs.length := Nat.le_of_succ_le_succ hcount
          have hrest := fun off (hoff : 4 ∣ off) ↦
            ih (fun y hy ↦ hplace y (List.mem_cons_of_mem _ hy))
              (fun y hy ↦ hlast y (List.mem_cons_of_mem _ hy)) hcount' hoff
          rw [List.take_succ_cons, List.map_cons, placesAligned_placeSlots_succ]
          cases count with
          | zero =>
              rw [List.take_zero, goodToLast_singleton, ← hlast x List.mem_cons_self off hoff]
              constructor
              · rintro ⟨starts, mid, hx, hstarts, -⟩
                exact ⟨starts, mid, hx, hstarts⟩
              · rintro ⟨starts, mid, hx, hstarts⟩
                exact ⟨starts, mid, hx, hstarts, [], mid, rfl, by simp⟩
          | succ count =>
              cases xs with
              | nil => exact absurd hcount' (Nat.not_succ_le_zero count)
              | cons y xs =>
                  rw [List.take_succ_cons, goodToLast_cons_cons, ← List.take_succ_cons,
                    ← hplace x List.mem_cons_self off hoff]
                  constructor
                  · rintro ⟨starts, mid, hx, hstarts, hxs⟩
                    have hmid : 4 ∣ mid := by
                      obtain ⟨starts₂, stop, heq, hstarts₂⟩ := hxs
                      exact hstarts₂ mid (mem_starts_placeSlots hstart heq)
                    exact ⟨⟨starts, mid, hx, hstarts, hmid⟩, (hrest mid hmid).mp hxs⟩
                  · rintro ⟨⟨starts, mid, hx, hstarts, hmid⟩, hgood⟩
                    exact ⟨starts, mid, hx, hstarts, (hrest mid hmid).mpr hgood⟩

end PlaceSlots

/-- Adding up multiples of four in a word. -/
theorem sumSlots_four_dvd {α : Type} {f : α → UInt32} {xs : List α}
    (h : ∀ x ∈ xs, 4 ∣ (f x).toNat) {count : Nat} (hcount : count ≤ xs.length) {acc : UInt32}
    (hacc : 4 ∣ acc.toNat) : ∃ n, sumSlots f count xs acc = .ok n ∧ 4 ∣ n.toNat := by
  induction count generalizing xs acc with
  | zero => exact ⟨acc, rfl, hacc⟩
  | succ count ih =>
      cases xs with
      | nil => exact absurd hcount (Nat.not_succ_le_zero count)
      | cons x xs =>
          refine ih (fun y hy ↦ h y (List.mem_cons_of_mem _ hy)) (Nat.le_of_succ_le_succ hcount) ?_
          have hsum := Nat.dvd_add hacc (h x List.mem_cons_self)
          rw [UInt32.toNat_add]
          exact (Nat.dvd_mod_iff (by decide)).mpr hsum

/-- A multiple of four is one in a word. -/
theorem four_dvd_toNat_ofNat {n : Nat} (h : 4 ∣ n) : 4 ∣ (UInt32.ofNat n).toNat := by
  rw [UInt32.toNat_ofNat']
  exact (Nat.dvd_mod_iff (by decide)).mpr h

/-- Every record of fixed size takes whole words, if the one does that is not in the
repository. -/
theorem CrKind.four_dvd (hstat : 4 ∣ p.flowStatSize - p.psize) {k : CrKind}
    (hk : k ≠ .hostAdapters) : 4 ∣ k.sizeof p - p.psize := by
  cases hdecl : k.decl with
  | none =>
      cases k with
      | hostAdapters => exact absurd rfl hk
      | flowStat => exact hstat
      | _ => cases hdecl
  | some d =>
      have hwhole : ∀ f ∈ d.fields, f.2.whole = true := by
        cases k <;> cases hdecl <;> decide
      rw [CrKind.sizeof_of_decl hdecl]
      exact Nat.dvd_sub (StructDecl.four_dvd_sizeof p.toAbi hwhole) (CType.four_dvd_psize p.toAbi)

/-! ## What is packed -/

/-- The count of a list is a word, and only so many of its elements are flattened. -/
def flattened {α : Type} (l : List α) : List α := l.take (UInt32.ofNat l.length).toNat

theorem toNat_ofNat_le (n : Nat) : (UInt32.ofNat n).toNat ≤ n := by
  rw [UInt32.toNat_ofNat']
  exact Nat.mod_le _ _

theorem SflowFr.mem_starts {fr : SflowFr R} {off stop : Nat} {starts : List Nat}
    (h : fr.place p off = .ok (starts, stop)) : off ∈ starts := by
  cases h
  exact List.mem_cons_self

theorem SflowCr.mem_starts {m : Memory R} {cr : SflowCr p} {off stop : Nat} {starts : List Nat}
    (h : cr.place m off = .ok (starts, stop)) : off ∈ starts := by
  rw [SflowCr.place] at h
  obtain ⟨n, -, h⟩ := bind_eq_ok.mp h
  cases h
  exact List.mem_cons_self

theorem SflowSp.mem_starts {m : Memory R} {sp : SflowSp p R} {off stop : Nat} {starts : List Nat}
    (h : sp.place m off = .ok (starts, stop)) : off ∈ starts := by
  rw [SflowSp.place] at h
  obtain ⟨places, -, h⟩ := bind_eq_ok.mp h
  cases h
  exact List.mem_cons_self

namespace PayloadInput

/-- The length of a record of adapters can still be read when its memory has been freed. -/
def ReadAfterFree (m : Memory R) : PayloadInput p → Prop
  | leaf .. => True
  | adapters addr links =>
      ∃ n, m.hasLenAfterFree addr (UInt32.ofNat (4 + 16 * links.length)) = .ok n

/-- What is read then is still a multiple of four. -/
def AlignedAfterFree (m : Memory R) : PayloadInput p → Prop
  | leaf .. => True
  | adapters addr links =>
      ∃ n, m.hasLenAfterFree addr (UInt32.ofNat (4 + 16 * links.length)) = .ok n ∧ 4 ∣ n.toNat

theorem four_dvd_size (hstat : 4 ∣ p.flowStatSize - p.psize) (i : PayloadInput p) :
    4 ∣ i.size := by
  cases i with
  | leaf k image hk hlen => exact CrKind.four_dvd hstat hk
  | adapters _ links =>
      exact Nat.dvd_add (Nat.dvd_refl 4) (Nat.dvd_mul_right_of_dvd ⟨4, rfl⟩ _)

theorem typed_record (i : PayloadInput p) : i.record.Typed :=
  ⟨i.toPayload, rfl, ntohl_htonl _ _⟩

theorem place_leaf (m : Memory R) {k : CrKind} {image : List UInt8} {hk : k ≠ .hostAdapters}
    {hlen : image.length = k.sizeof p} (off : Nat) :
    (leaf k image hk hlen).record.place m off = .ok ([off], off + (8 + (k.sizeof p - p.psize))) :=
  rfl

theorem place_adapters (m : Memory R) (addr : Nat) (links : List AdapterLink) (off : Nat) :
    (adapters addr links : PayloadInput p).record.place m off = do
      let n ← m.hasLenAfterFree addr (UInt32.ofNat (4 + 16 * links.length))
      return ([off], off + (8 + n.toNat)) := by
  have hlen : (sflowCrHostAdaptersPack p links).hasLen =
      UInt32.ofNat (4 + 16 * links.length) := by
    rw [sflowCrHostAdaptersPack_eq]
  change (do
    let n ← (do
      let n ← (do
        let n ← m.hasLenAfterFree addr (sflowCrHostAdaptersPack p links).hasLen
        return n.toNat)
      return 8 + n)
    return ([off], off + n)) = _
  rw [hlen]
  simp

theorem placesAligned_record_iff {m : Memory R} (i : PayloadInput p) {off : Nat} (hoff : 4 ∣ off) :
    PlacesAligned (i.record.place m off) ↔ i.ReadAfterFree m := by
  cases i with
  | leaf k image hk hlen =>
      exact iff_of_true ⟨[off], _, place_leaf m off, List.forall_mem_singleton.mpr hoff⟩ trivial
  | adapters addr links =>
      rw [place_adapters]
      constructor
      · rintro ⟨starts, stop, heq, -⟩
        obtain ⟨n, hn, -⟩ := bind_eq_ok.mp heq
        exact ⟨n, hn⟩
      · rintro ⟨n, hn⟩
        rw [hn]
        exact ⟨[off], _, rfl, List.forall_mem_singleton.mpr hoff⟩

theorem placesEndAligned_record_iff (hstat : 4 ∣ p.flowStatSize - p.psize) {m : Memory R}
    (i : PayloadInput p) {off : Nat} (hoff : 4 ∣ off) :
    PlacesEndAligned (i.record.place m off) ↔ i.AlignedAfterFree m := by
  have hstop : ∀ n, 4 ∣ off + (8 + n) ↔ 4 ∣ n := by
    intro n
    rw [Nat.dvd_add_right hoff, Nat.dvd_add_right ⟨2, rfl⟩]
  cases i with
  | leaf k image hk hlen =>
      refine iff_of_true ⟨[off], _, place_leaf m off, ?_, ?_⟩ trivial
      · exact List.forall_mem_singleton.mpr hoff
      · exact (hstop _).mpr (CrKind.four_dvd hstat hk)
  | adapters addr links =>
      rw [place_adapters]
      constructor
      · rintro ⟨starts, stop, heq, -, h⟩
        obtain ⟨n, hn, heq⟩ := bind_eq_ok.mp heq
        cases heq
        exact ⟨n, hn, (hstop _).mp h⟩
      · rintro ⟨n, hn, h⟩
        rw [hn]
        exact ⟨[off], _, rfl, List.forall_mem_singleton.mpr hoff, (hstop _).mpr h⟩

end PayloadInput

/-- Putting an aligned place in front. -/
theorem placesAligned_cons_iff {x : Except Fault (List Nat × Nat)} {off : Nat} (hoff : 4 ∣ off) :
    PlacesAligned (do
        let (starts, stop) ← x
        return (off :: starts, stop)) ↔ PlacesAligned x := by
  constructor
  · rintro ⟨starts, stop, heq, hstarts⟩
    obtain ⟨⟨starts', stop'⟩, hx, heq⟩ := bind_eq_ok.mp heq
    cases heq
    exact ⟨starts', _, hx, fun s hs ↦ hstarts s (List.mem_cons_of_mem _ hs)⟩
  · rintro ⟨starts, stop, rfl, hstarts⟩
    exact ⟨off :: starts, stop, rfl, List.forall_mem_cons.mpr ⟨hoff, hstarts⟩⟩

theorem placesEndAligned_cons_iff {x : Except Fault (List Nat × Nat)} {off : Nat} (hoff : 4 ∣ off) :
    PlacesEndAligned (do
        let (starts, stop) ← x
        return (off :: starts, stop)) ↔ PlacesEndAligned x := by
  constructor
  · rintro ⟨starts, stop, heq, hstarts, hstop⟩
    obtain ⟨⟨starts', stop'⟩, hx, heq⟩ := bind_eq_ok.mp heq
    cases heq
    exact ⟨starts', _, hx, fun s hs ↦ hstarts s (List.mem_cons_of_mem _ hs), hstop⟩
  · rintro ⟨starts, stop, rfl, hstarts, hstop⟩
    exact ⟨off :: starts, stop, rfl, List.forall_mem_cons.mpr ⟨hoff, hstarts⟩, hstop⟩

namespace SampleInput

/-- The lengths in the records of adapters, read after they have been freed, are still multiples
of four. -/
def AlignedAfterFree (m : Memory R) : SampleInput p R → Prop
  | flow .. => True
  | counter _ payloads => ∀ i ∈ flattened payloads, i.AlignedAfterFree m

/-- The lengths in the records of adapters that another record follows are still multiples of four,
and that of the last record can be read. -/
def AlignedToLast (m : Memory R) : SampleInput p R → Prop
  | flow .. => True
  | counter _ payloads =>
      GoodToLast (fun i => i.AlignedAfterFree m) (fun i => i.ReadAfterFree m) (flattened payloads)

theorem four_dvd_frCrop (len : Nat) : 4 ∣ frCrop len := by
  rw [frCrop]
  exact Nat.dvd_sub_mod _

/-- The sample that the packers make, whatever its length. -/
structure Packs (i : SampleInput p R) (sp : SflowSp p R) : Prop where
  sspDfmt : sp.sspDfmt = i.packed.sspDfmt
  data : sp.data = i.packed.data
  len : 4 ∣ (ntohl p.endian sp.len).toNat

theorem exists_pack (hstat : 4 ∣ p.flowStatSize - p.psize) (i : SampleInput p R) :
    ∃ sp, i.pack = .ok sp ∧ i.Packs sp := by
  cases i with
  | flow source hent hfmt pkt len =>
      refine ⟨(flow source hent hfmt pkt len : SampleInput p R).packed, ?_, rfl, rfl, ?_⟩
      · rw [pack, getSampleFlowsample_eq hent hfmt]
        rfl
      · rw [packed, ntohl_htonl]
        apply four_dvd_toNat_ofNat
        rw [size]
        exact Nat.dvd_add ⟨8, rfl⟩ (Nat.dvd_add ⟨2, rfl⟩
          (Nat.dvd_add ⟨4, rfl⟩ (four_dvd_frCrop len)))
  | counter source payloads =>
      have hlens : ∀ cr ∈ payloads.map PayloadInput.record,
          4 ∣ (ntohl p.endian cr.scrLen + UInt32.ofNat 8).toNat := by
        intro cr hcr
        obtain ⟨i, -, rfl⟩ := List.mem_map.mp hcr
        rw [PayloadInput.record, ntohl_htonl, ← UInt32.ofNat_add]
        exact four_dvd_toNat_ofNat (Nat.dvd_add (i.four_dvd_size hstat) ⟨2, rfl⟩)
      have hcount : (UInt32.ofNat payloads.length).toNat ≤
          (payloads.map PayloadInput.record).length := by
        rw [List.length_map]
        exact toNat_ofNat_le _
      have hheader : 4 ∣ (UInt32.ofNat 12).toNat := by decide
      obtain ⟨n, hsum, hn⟩ := sumSlots_four_dvd hlens hcount hheader
      refine ⟨{ (counter source payloads : SampleInput p R).packed with len := htonl p.endian n },
        ?_, rfl, rfl, ?_⟩
      · rw [pack, counterSample_of_sum source (fun i _ ↦ i.sflowCounterRecordPack_eq) hsum]
        rfl
      · rwa [ntohl_htonl]

section Packs

variable {i : SampleInput p R} {sp : SflowSp p R}

theorem Packs.typed (h : i.Packs sp) : sp.Typed := by
  obtain ⟨hdfmt, hdata, -⟩ := h
  cases i with
  | flow source hent hfmt pkt len =>
      rw [SflowSp.Typed, hdata, hdfmt]
      exact ntohl_htonl _ _
  | counter source payloads =>
      rw [SflowSp.Typed, hdata, hdfmt]
      refine ⟨ntohl_htonl _ _, fun cr hcr ↦ ?_⟩
      obtain ⟨i, -, rfl⟩ := List.mem_map.mp hcr
      exact i.typed_record

/-- A raw packet record takes whole words, however long the packet. -/
theorem four_dvd_returned_flowRecord (pkt : R) (len : Nat) :
    4 ∣ (flowRecord p pkt len).returned p := by
  simp only [SflowFr.returned, flowRecord, ntohl_htonl, sflowGetDataEnt_one, sflowGetDataFmt_one,
    and_self, if_true, sizeof_sflowFrT, sizeof_sflowFrRawPktHeaderT]
  exact Nat.dvd_add ⟨2, rfl⟩
    (Nat.dvd_add ⟨4, rfl⟩ (four_dvd_toNat_ofNat (four_dvd_frCrop len)))

/-- The record of a packet, and what comes behind it, are where they should be. -/
theorem Packs.placesEndAligned_flow (h : i.Packs sp) {source : SflowSource}
    {hent : source.ssEnt = 0} {hfmt : source.ssFmt = 1} {pkt : R} {len : Nat}
    (hi : i = flow source hent hfmt pkt len) (m : Memory R) {off : Nat} (hoff : 4 ∣ off) :
    PlacesEndAligned (sp.recordPlaces m off) := by
  have hone : (ntohl p.endian (flowSample p source pkt len).sfsCount).toNat = 1 := by
    rw [flowSample, ntohl_htonl]
    rfl
  have hstart : 4 ∣ off + 8 + 32 := Nat.dvd_add (Nat.dvd_add hoff ⟨2, rfl⟩) ⟨8, rfl⟩
  refine ⟨[off + 8 + 32], off + 8 + 32 + (flowRecord p pkt len).returned p, ?_,
    List.forall_mem_singleton.mpr hstart,
    Nat.dvd_add hstart (four_dvd_returned_flowRecord pkt len)⟩
  rw [SflowSp.recordPlaces, h.data, hi]
  simp only [packed, hone, sizeof_sflowFsT]
  rfl

/-- The records of a counter sample are in a row behind its header. -/
theorem Packs.recordPlaces_counter (h : i.Packs sp) {source : SflowSource}
    {payloads : List (PayloadInput p)} (hi : i = counter source payloads) (m : Memory R)
    (off : Nat) :
    sp.recordPlaces m off = placeSlots (SflowCr.place m) (UInt32.ofNat payloads.length).toNat
      (payloads.map PayloadInput.record) (off + 8 + 12) := by
  have hcount : (ntohl p.endian (counterSamp source payloads).scsCount).toNat =
      (UInt32.ofNat payloads.length).toNat := by
    rw [counterSamp, SflowCs.around, ntohl_htonl, List.length_map]
  rw [SflowSp.recordPlaces, h.data, hi]
  simp only [packed, hcount]
  rfl

/-- A sample leads on to a multiple of four exactly if its records of adapters do. -/
theorem Packs.placesEndAligned_iff (hstat : 4 ∣ p.flowStatSize - p.psize) (h : i.Packs sp)
    {m : Memory R} {off : Nat} (hoff : 4 ∣ off) :
    PlacesEndAligned (sp.place m off) ↔ i.AlignedAfterFree m := by
  rw [SflowSp.place, placesEndAligned_cons_iff hoff]
  cases hi : i with
  | flow source hent hfmt pkt len => exact iff_of_true (h.placesEndAligned_flow hi m hoff) trivial
  | counter source payloads =>
      rw [h.recordPlaces_counter hi]
      exact placesEndAligned_placeSlots_iff
        (fun i _ off hoff ↦ i.placesEndAligned_record_iff hstat hoff)
        (fun _ _ _ _ ↦ SflowCr.mem_starts) (toNat_ofNat_le _)
        (Nat.dvd_add (Nat.dvd_add hoff ⟨2, rfl⟩) ⟨3, rfl⟩)

/-- A sample is at multiples of four exactly if its records of adapters lead on to them. -/
theorem Packs.placesAligned_iff (hstat : 4 ∣ p.flowStatSize - p.psize) (h : i.Packs sp)
    {m : Memory R} {off : Nat} (hoff : 4 ∣ off) :
    PlacesAligned (sp.place m off) ↔ i.AlignedToLast m := by
  rw [SflowSp.place, placesAligned_cons_iff hoff]
  cases hi : i with
  | flow source hent hfmt pkt len =>
      obtain ⟨starts, stop, heq, hstarts, -⟩ := h.placesEndAligned_flow hi m hoff
      exact iff_of_true ⟨starts, stop, heq, hstarts⟩ trivial
  | counter source payloads =>
      rw [h.recordPlaces_counter hi]
      exact placesAligned_placeSlots_iff
        (fun i _ off hoff ↦ i.placesEndAligned_record_iff hstat hoff)
        (fun i _ off hoff ↦ i.placesAligned_record_iff hoff)
        (fun _ _ _ _ ↦ SflowCr.mem_starts) (toNat_ofNat_le _)
        (Nat.dvd_add (Nat.dvd_add hoff ⟨2, rfl⟩) ⟨3, rfl⟩)

end Packs

/-- The front of a packet that a record carries: as many whole words of it as fit 128 bytes,
and the rest is accounted for. -/
structure CropsPacket (p : Platform) (len : Nat) (r : SflowFrRawPktHeader R) : Prop where
  size : IsGreatest {n | 4 ∣ n ∧ n ≤ min len 128} (ntohl p.endian r.frHeaderSize).toNat
  parts : ntohl p.endian r.frHeaderSize + ntohl p.endian r.frStripped =
    ntohl p.endian r.frFrameLength
  frame : ntohl p.endian r.frFrameLength = UInt32.ofNat len

theorem isGreatest_frCrop (len : Nat) :
    IsGreatest {n | 4 ∣ n ∧ n ≤ min len 128} (frCrop len) := by
  refine ⟨⟨four_dvd_frCrop len, Nat.sub_le _ _⟩, fun n hn ↦ ?_⟩
  obtain ⟨hdvd, hle⟩ := hn
  rw [frCrop]
  omega

theorem cropsPacket_flowRecord (pkt : R) (len : Nat) :
    CropsPacket p len (flowRecord p pkt len).sfrData := by
  constructor
  · rw [flowRecord, ntohl_htonl, toNat_ofNat_of_lt (frCrop_lt len)]
    exact isGreatest_frCrop len
  · rw [flowRecord, ntohl_htonl, ntohl_htonl, ntohl_htonl, ← UInt32.ofNat_add,
      Nat.add_sub_cancel' (frCrop_le len)]
  · rw [flowRecord, ntohl_htonl]

/-- The records of a flow sample carry the front of its packet. -/
def CropsPackets (i : SampleInput p R) (sp : SflowSp p R) : Prop :=
  match i with
  | flow _ _ _ _ len =>
      ∃ fs, sp.data = .flow fs ∧ ∀ fr ∈ fs.records, CropsPacket p len fr.sfrData
  | counter .. => True

theorem Packs.cropsPackets {i : SampleInput p R} {sp : SflowSp p R} (h : i.Packs sp) :
    i.CropsPackets sp := by
  cases i with
  | flow source hent hfmt pkt len =>
      refine ⟨flowSample p source pkt len, h.data, fun fr hfr ↦ ?_⟩
      rw [List.mem_singleton.mp hfr]
      exact cropsPacket_flowRecord pkt len
  | counter source payloads => trivial

end SampleInput

/-! ## Datagrams -/

/-- The size of a datagram is a multiple of four, and every sample and every record starts at
one. -/
structure AlignedDatagram (m : Memory R) (dg : SflowDg p R) : Prop where
  size : ∃ size, sflowDatagramSize dg = .ok size ∧ 4 ∣ size.toNat
  places : PlacesAligned (dg.places m)

/-- The records of adapters that something follows in a datagram, in their own sample or with
another one, still have lengths that are multiples of four when these are read after the free.
That of a record at the very end can be read. -/
def SampleInput.LeadOn (m : Memory R) (l : List (SampleInput p R)) : Prop :=
  GoodToLast (fun i => i.AlignedAfterFree m) (fun i => i.AlignedToLast m) (flattened l)

/-- Everything in a datagram is aligned exactly if its records of adapters lead on to what follows
them.  Raw packets always are cropped to whole words. -/
theorem alignedDatagram_iff {m : Memory R} {l : List (SampleInput p R)}
    {list : SflowDataList (SflowSp p R)} (hlist : list.WellFormed)
    (hpack : l.mapM SampleInput.pack = .ok list.data) (hstat : 4 ∣ p.flowStatSize - p.psize)
    (datagramCount : Nat) (upTime : UInt32) :
    ∃ dg, sflowDatagramPack datagramCount upTime list = .ok dg ∧
      (AlignedDatagram m dg ↔ SampleInput.LeadOn m l) ∧
      List.Forall₂ SampleInput.CropsPackets l dg.samples := by
  choose made hmade using fun i : SampleInput p R ↦ i.exists_pack hstat
  rw [mapM_eq_ok fun i _ ↦ (hmade i).1, Except.ok.injEq] at hpack
  refine ⟨_, sflowDatagramPack_eq hlist datagramCount upTime, ?_, ?_⟩
  · have hcount : (ntohl p.endian (SflowDg.around p datagramCount upTime list.data).sampleNum).toNat
        = (UInt32.ofNat l.length).toNat := by
      rw [SflowDg.around, ntohl_htonl, ← hpack, List.length_map]
    have hlens : ∀ sp ∈ list.data, 4 ∣ (UInt32.ofNat 8 + ntohl p.endian sp.len).toNat := by
      intro sp hsp
      rw [← hpack] at hsp
      obtain ⟨i, -, rfl⟩ := List.mem_map.mp hsp
      rw [UInt32.toNat_add]
      exact (Nat.dvd_mod_iff (by decide)).mpr (Nat.dvd_add ⟨2, rfl⟩ (hmade i).2.len)
    have hle : (UInt32.ofNat l.length).toNat ≤ list.data.length := by
      rw [← hpack, List.length_map]
      exact toNat_ofNat_le _
    have hheader : 4 ∣ (28 : UInt32).toNat := by decide
    obtain ⟨size, hsize, hdvd⟩ := sumSlots_four_dvd hlens hle hheader
    have hplaces : PlacesAligned ((SflowDg.around p datagramCount upTime list.data).places m) ↔
        SampleInput.LeadOn m l := by
      rw [SflowDg.places, hcount, SflowDg.around, ← hpack]
      exact placesAligned_placeSlots_iff
        (fun i _ off hoff ↦ (hmade i).2.placesEndAligned_iff hstat hoff)
        (fun i _ off hoff ↦ (hmade i).2.placesAligned_iff hstat hoff)
        (fun _ _ _ _ ↦ SflowSp.mem_starts) (toNat_ofNat_le _) ⟨7, rfl⟩
    rw [← hplaces]
    refine ⟨fun h ↦ h.places, fun h ↦ ⟨⟨size, ?_, hdvd⟩, h⟩⟩
    rw [sflowDatagramSize, hcount, sizeof_sflowSpT, sizeof_sflowDgT]
    exact hsize
  · rw [SflowDg.around, ← hpack, List.forall₂_map_right_iff, List.forall₂_same]
    exact fun i _ ↦ (hmade i).2.cropsPackets

theorem typed_of_mapM_pack {l : List (SampleInput p R)} {sps : List (SflowSp p R)}
    (hpack : l.mapM SampleInput.pack = .ok sps) (hstat : 4 ∣ p.flowStatSize - p.psize) :
    ∀ sp ∈ sps, sp.Typed := by
  choose made hmade using fun i : SampleInput p R ↦ i.exists_pack hstat
  rw [mapM_eq_ok fun i _ ↦ (hmade i).1, Except.ok.injEq] at hpack
  intro sp hsp
  rw [← hpack] at hsp
  obtain ⟨i, -, rfl⟩ := List.mem_map.mp hsp
  exact (hmade i).2.typed

/-- Where packed samples are flattened to an aligned datagram, the front of every sample and of
every record has been written at a multiple of four, and the size is one. -/
theorem AlignedDatagram.writes {m : Memory R} {dg : SflowDg p R} (h : AlignedDatagram m dg)
    (hstat : 4 ∣ p.flowStatSize - p.psize) {l : List (SampleInput p R)}
    (hpack : l.mapM SampleInput.pack = .ok dg.samples) {buf : Buf} {offBuf : Nat} {size : UInt32}
    (hflat : sflowDatagramFlat m dg = .ok (buf, offBuf, size)) :
    4 ∣ size.toNat ∧ ∃ starts, dg.places m = .ok (starts, offBuf) ∧
      ∀ s ∈ starts, 4 ∣ s ∧ (s, 8) ∈ buf.writes := by
  obtain ⟨starts, hplaces, hwrites⟩ :=
    follows_sflowDatagramFlat (typed_of_mapM_pack hpack hstat) hflat
  obtain ⟨starts', stop, heq, hstarts⟩ := h.places
  cases hplaces.symm.trans heq
  obtain ⟨size', hsize, hdvd⟩ := h.size
  obtain rfl : size = size' := by
    obtain ⟨⟨buf₁, off, size₁⟩, hstart, hflat⟩ := bind_eq_ok.mp hflat
    obtain ⟨r, -, hret⟩ := bind_eq_ok.mp hflat
    cases hret
    have hsize₁ := (SflowDg.start_cases hstart).1
    rw [hsize, Except.ok.injEq] at hsize₁
    exact hsize₁.symm
  exact ⟨hdvd, starts, hplaces, fun s hs ↦ ⟨hstarts s hs, hwrites s hs⟩⟩

/-- A packet of six bytes and a host with one adapter, in memory that a free leaves alone. -/
theorem alignedDatagram_iff_mixed :
    let m : Memory (List UInt8) := ⟨id, fun _ ↦ .ok⟩
    let l : List (SampleInput .amd64 (List UInt8)) :=
      [.flow .net0 rfl rfl [1, 2, 3, 4, 5, 6] 6,
        .counter .phyhost [.adapters 0 [⟨1, 1, Vector.replicate 8 0⟩]]]
    ∃ dg, sflowDatagramPack 0 0 (SflowDataList.ofRecords (l.map SampleInput.packed)) = .ok dg ∧
      (AlignedDatagram m dg ↔ SampleInput.LeadOn m l) ∧
      List.Forall₂ SampleInput.CropsPackets l dg.samples := by
  intro m l
  refine alignedDatagram_iff (SflowDataList.wellFormed_ofRecords _) ?_ (by decide) 0 0
  rw [SflowDataList.data_ofRecords]
  exact SampleInput.mapM_pack_eq (by decide)

theorem hostParent_ne : CrKind.hostParent ≠ .hostAdapters := nofun

/-- A host without adapters, whose parent comes behind them. -/
def hostAndParent : SampleInput .amd64 (List UInt8) :=
  .counter .phyhost
    [.adapters 0 [], .leaf .hostParent (List.replicate 16 0) hostParent_ne (by decide +kernel)]

/-- Memory in which a two is left where a length has been freed. -/
def memoryOfTwos : Memory (List UInt8) := ⟨id, fun _ _ ↦ .ok 2⟩

/-- The record behind the adapters starts at 58. -/
theorem not_alignedDatagram_adapters :
    [hostAndParent].mapM SampleInput.pack = .ok [hostAndParent.packed] ∧
      ∃ dg buf offBuf size,
        sflowDatagramPack 0 0 (SflowDataList.ofRecords [hostAndParent.packed]) = .ok dg ∧
        sflowDatagramFlat memoryOfTwos dg = .ok (buf, offBuf, size) ∧ (58, 8) ∈ buf.writes ∧
        ¬AlignedDatagram memoryOfTwos dg := by
  let dg := SflowDg.around .amd64 0 0 [hostAndParent.packed]
  have hplaces : (dg.places memoryOfTwos).toOption = some ([28, 48, 58], 74) := by
    decide +kernel
  have hwrites : (sflowDatagramFlat memoryOfTwos dg).toOption.map (fun r ↦ r.1.writes) =
      some [(0, 8), (8, 4), (12, 16), (28, 8), (36, 12), (48, 8), (56, 4), (58, 8), (66, 8)] := by
    decide +kernel
  cases hflat : sflowDatagramFlat memoryOfTwos dg with
  | error fault =>
      rw [hflat] at hwrites
      cases hwrites
  | ok r =>
      obtain ⟨buf, offBuf, size⟩ := r
      rw [hflat] at hwrites
      refine ⟨SampleInput.mapM_pack_eq (by decide +kernel), dg, buf, offBuf, size, ?_, hflat, ?_,
        fun h ↦ ?_⟩
      · rw [sflowDatagramPack_eq (SflowDataList.wellFormed_ofRecords _),
          SflowDataList.data_ofRecords]
      · have hlist : buf.writes = _ := Option.some_inj.mp hwrites
        rw [hlist]
        decide
      · obtain ⟨starts, stop, heq, hstarts⟩ := h.places
        rw [heq] at hplaces
        cases hplaces
        have hodd : 4 ∣ 58 := hstarts 58 (by decide)
        revert hodd
        decide

end Sflow

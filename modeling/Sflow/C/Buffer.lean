import Mathlib.Algebra.GroupWithZero.Nat
import Mathlib.Data.List.Basic

/-!
# Output buffers

A serialiser in C is handed a pointer into a buffer and returns the number of
bytes it claims to have written there.  `Flat` is the type of such a function:
it sees the whole buffer and the offset it starts at, may fault, and returns
its count next to the new buffer.

`Emits f bytes` is the specification every such function should meet: given
room for `bytes`, `f` puts exactly `bytes` at its offset, by writes that follow
one another without gap or overlap, and counts them right.  Emitting functions
compose (`Emits.seq`, `Emits.slots`), so the bytes of a nested structure are
read off the bytes of its parts.
-/

namespace Sflow.C

/-- What goes wrong in a C program that has no defined continuation. -/
inductive Fault where
  | nullDeref
  | useAfterFree
  | outOfBounds
  | badCast
  | assertFailed
deriving DecidableEq, Repr

section Except

variable {α β : Type} (a : α) (e : Fault) (f : α → Except Fault β)

@[simp] theorem ok_bind : (Except.ok a >>= f) = f a := rfl

@[simp] theorem error_bind : (Except.error e >>= f) = .error e := rfl

@[simp] theorem pure_eq_ok : (pure a : Except Fault α) = .ok a := rfl

/-- A computation ends well if its first part does and the rest does from there. -/
theorem bind_eq_ok {x : Except Fault α} {f : α → Except Fault β} {b : β} :
    (x >>= f) = .ok b ↔ ∃ a, x = .ok a ∧ f a = .ok b := by
  cases x with
  | error e => simp
  | ok a => simp

end Except

/-- A buffer, and the history of the writes into it as `(offset, length)`. -/
structure Buf where
  data : List UInt8
  writes : List (Nat × Nat)
deriving DecidableEq, Repr

/-- Put `src` over the bytes of `data` from `off` on. -/
def splice (data : List UInt8) (off : Nat) (src : List UInt8) : List UInt8 :=
  data.take off ++ src ++ data.drop (off + src.length)

theorem length_splice {data src : List UInt8} {off : Nat} (h : off + src.length ≤ data.length) :
    (splice data off src).length = data.length := by
  simp only [splice, List.length_append, List.length_take, List.length_drop]
  omega

/-- What is put down covers what was there. -/
theorem getElem?_splice {data src : List UInt8} {off : Nat} (h : off + src.length ≤ data.length)
    (i : Nat) : (splice data off src)[i]? =
      if off ≤ i ∧ i < off + src.length then src[i - off]? else data[i]? := by
  have hfront : (data.take off).length = off := by
    rw [List.length_take]
    omega
  rw [splice, List.append_assoc]
  by_cases hoff : off ≤ i
  · rw [List.getElem?_append_right (by omega), hfront]
    by_cases hsrc : i < off + src.length
    · rw [List.getElem?_append_left (by omega), if_pos ⟨hoff, hsrc⟩]
    · rw [List.getElem?_append_right (by omega), List.getElem?_drop, if_neg (by omega)]
      congr 1
      omega
  · rw [List.getElem?_append_left (by omega), List.getElem?_take, if_pos (by omega),
      if_neg (by omega)]

/-- What is put down ends where it does behind what was in front of it. -/
theorem take_splice {d u : List UInt8} {o : Nat} (h : o + u.length ≤ d.length) :
    (splice d o u).take (o + u.length) = d.take o ++ u := by
  have hu : (d.take o ++ u).length = o + u.length := by
    simp only [List.length_append, List.length_take]
    omega
  rw [splice, ← hu, List.take_left]

/-- Adjacent pieces are put down one after the other or at once. -/
theorem splice_splice {d u v : List UInt8} {o : Nat} (h : o + (u.length + v.length) ≤ d.length) :
    splice (splice d o u) (o + u.length) v = splice d o (u ++ v) := by
  have hu : (d.take o ++ u).length = o + u.length := by
    simp only [List.length_append, List.length_take]
    omega
  have htake := take_splice (d := d) (o := o) (u := u) (by omega)
  have hdrop : (splice d o u).drop (o + u.length + v.length)
      = d.drop (o + u.length + v.length) := by
    have hover : (d.take o ++ u).drop (o + u.length + v.length) = [] :=
      List.drop_eq_nil_of_le (by omega)
    rw [splice, List.drop_append, hover, hu, List.drop_drop, List.nil_append]
    congr 1
    omega
  rw [splice, htake, hdrop, splice, List.length_append, ← Nat.add_assoc]
  simp only [List.append_assoc]

/-- Filling a buffer replaces it. -/
theorem splice_zero {data src : List UInt8} (h : src.length = data.length) :
    splice data 0 src = src := by
  simp [splice, h]

namespace Buf

/-- `calloc(1, n)`. -/
def calloc (n : Nat) : Buf := ⟨List.replicate n 0, []⟩

/-- `memcpy(buf + off, src, n)`, with the source given as the bytes it holds. -/
def memcpy (b : Buf) (off : Nat) (src : List UInt8) : Except Fault Buf :=
  if off + src.length ≤ b.data.length then
    .ok ⟨splice b.data off src, b.writes ++ [(off, src.length)]⟩
  else
    .error .outOfBounds

/-- Copying right behind a piece makes it longer. -/
theorem memcpy_splice {d u v : List UInt8} {o : Nat} (ws : List (Nat × Nat))
    (h : o + (u.length + v.length) ≤ d.length) :
    memcpy ⟨splice d o u, ws⟩ (o + u.length) v =
      .ok ⟨splice d o (u ++ v), ws ++ [(o + u.length, v.length)]⟩ := by
  have hlen : (splice d o u).length = d.length := length_splice (by omega)
  have hroom : o + u.length + v.length ≤ (splice d o u).length := by omega
  rw [memcpy, if_pos hroom, splice_splice h]

end Buf

/-- A function that writes into a buffer from an offset on and returns a count. -/
abbrev Flat := Buf → Nat → Except Fault (Buf × Nat)

/-- The writes lead from offset `a` to offset `b`, each starting where the last one ended. -/
def Chain (a : Nat) : List (Nat × Nat) → Nat → Prop
  | [], b => a = b
  | (off, n) :: ws, b => off = a ∧ Chain (a + n) ws b

theorem Chain.append {a b c : Nat} {u v : List (Nat × Nat)} (hu : Chain a u b)
    (hv : Chain b v c) : Chain a (u ++ v) c := by
  induction u generalizing a with
  | nil =>
      cases (hu : a = b)
      exact hv
  | cons w u ih => exact ⟨hu.1, ih hu.2⟩

/-- `f` writes exactly `bytes`, contiguously, wherever there is room for them. -/
def Emits (f : Flat) (bytes : List UInt8) : Prop :=
  ∀ (buf : Buf) (start : Nat), start + bytes.length ≤ buf.data.length →
    ∃ ws, Chain start ws (start + bytes.length) ∧
      f buf start = .ok (⟨splice buf.data start bytes, buf.writes ++ ws⟩, bytes.length)

theorem Emits.congr {f g : Flat} {bytes : List UInt8} (h : Emits g bytes)
    (heq : ∀ buf start, f buf start = g buf start) : Emits f bytes := by
  rwa [show f = g from funext fun buf ↦ funext (heq buf)]

/-- `f` writes `n` bytes, contiguously, wherever there is room for them. -/
def Writes (f : Flat) (n : Nat) : Prop :=
  ∀ (buf : Buf) (start : Nat), start + n ≤ buf.data.length →
    ∃ buf' ws, f buf start = .ok (buf', n) ∧ Chain start ws (start + n) ∧
      buf'.writes = buf.writes ++ ws ∧ buf'.data.length = buf.data.length

theorem Emits.writes {f : Flat} {bytes : List UInt8} (h : Emits f bytes) :
    Writes f bytes.length := by
  intro buf start hroom
  obtain ⟨ws, hws, hf⟩ := h buf start hroom
  exact ⟨_, ws, hf, hws, rfl, length_splice hroom⟩

/-- `memcpy` followed by `return n`. -/
def copyOut (src : List UInt8) (n : Nat) : Flat := fun buf start => do
  let buf ← buf.memcpy start src
  return (buf, n)

theorem emits_copyOut {src : List UInt8} {n : Nat} (h : n = src.length) :
    Emits (copyOut src n) src := by
  intro buf start hroom
  refine ⟨[(start, src.length)], ⟨rfl, rfl⟩, ?_⟩
  simp only [copyOut, Buf.memcpy, if_pos hroom, h, ok_bind, pure_eq_ok]

/-- Run `f`, then `g` where `f` stopped, and add the counts. -/
def Flat.seq (f g : Flat) : Flat := fun buf start => do
  let (buf, m) ← f buf start
  let (buf, n) ← g buf (start + m)
  return (buf, m + n)

theorem Emits.seq {f g : Flat} {u v : List UInt8} (hf : Emits f u) (hg : Emits g v) :
    Emits (f.seq g) (u ++ v) := by
  intro buf start hroom
  rw [List.length_append] at hroom
  obtain ⟨ws, hws, hfe⟩ := hf buf start (by omega)
  have hlen : (splice buf.data start u).length = buf.data.length := length_splice (by omega)
  obtain ⟨ws', hws', hge⟩ := hg ⟨splice buf.data start u, buf.writes ++ ws⟩ (start + u.length)
    (by simp only [hlen]; omega)
  refine ⟨ws ++ ws', ?_, ?_⟩
  · rw [List.length_append, ← Nat.add_assoc]
    exact hws.append hws'
  · simp only [splice_splice hroom] at hge
    rw [Flat.seq, hfe]
    simp only [ok_bind, pure_eq_ok, hge, List.length_append, List.append_assoc]

/-- In a row of pieces of these sizes, laid down from offset `len` on, every piece
starts below `limit`. -/
def StartsBelow (limit : Nat) : List Nat → Nat → Prop
  | [], _ => True
  | n :: ns, len => len < limit ∧ StartsBelow limit ns (len + n)

theorem StartsBelow.of_sum_lt {limit len : Nat} {ns : List Nat} (h : len + ns.sum < limit) :
    StartsBelow limit ns len := by
  induction ns generalizing len with
  | nil => trivial
  | cons n ns ih =>
      rw [List.sum_cons] at h
      exact ⟨by omega, ih (by omega)⟩

/-- The flatten loop: `count` times, take the next pointer slot behind a
structure and flatten what it points to at `start + len`, adding up `len`.  The
type of `len` holds numbers below `limit`. -/
def flatSlots {α : Type} (limit : Nat) (flat : α → Flat) : Nat → List α → Nat → Flat
  | 0, _, len => fun buf _ => .ok (buf, len)
  | _ + 1, [], _ => fun _ _ => .error .outOfBounds
  | count + 1, x :: slots, len => fun buf start =>
      if len < limit then do
        let (buf, n) ← flat x buf (start + len)
        flatSlots limit flat count slots (len + n) buf start
      else .error .outOfBounds

/-- The loop over exactly its slots emits their bytes in order, behind the
`len` bytes already counted. -/
theorem Emits.slots {α : Type} {limit : Nat} {flat : α → Flat} {wire : α → List UInt8}
    {xs : List α} (h : ∀ x ∈ xs, Emits (flat x) (wire x)) (len : Nat)
    (hstarts : StartsBelow limit (xs.map fun x => (wire x).length) len) (buf : Buf) (start : Nat)
    (hroom : start + len + (xs.flatMap wire).length ≤ buf.data.length) :
    ∃ ws, Chain (start + len) ws (start + len + (xs.flatMap wire).length) ∧
      flatSlots limit flat xs.length xs len buf start =
        .ok (⟨splice buf.data (start + len) (xs.flatMap wire), buf.writes ++ ws⟩,
          len + (xs.flatMap wire).length) := by
  induction xs generalizing len buf with
  | nil =>
      refine ⟨[], rfl, ?_⟩
      simp [flatSlots, splice]
  | cons x xs ih =>
      rw [List.flatMap_cons, List.length_append] at hroom ⊢
      obtain ⟨ws, hws, hx⟩ := h x List.mem_cons_self buf (start + len) (by omega)
      have hlen : (splice buf.data (start + len) (wire x)).length = buf.data.length :=
        length_splice (by omega)
      obtain ⟨ws', hws', hxs⟩ := ih (fun y hy ↦ h y (List.mem_cons_of_mem _ hy))
        (len + (wire x).length) hstarts.2
        ⟨splice buf.data (start + len) (wire x), buf.writes ++ ws⟩ (by simp only [hlen]; omega)
      refine ⟨ws ++ ws', ?_, ?_⟩
      · rw [← Nat.add_assoc] at hws' ⊢
        exact hws.append hws'
      · simp only [List.length_cons, flatSlots, if_pos hstarts.1, hx, ok_bind]
        rw [hxs]
        simp only [← Nat.add_assoc, splice_splice hroom, List.append_assoc]

/-- Where `f` ends well it has put bytes with the property `Q` at its offset, all of them inside of
the buffer, and counts them right. -/
def Lays (f : Flat) (Q : List UInt8 → Prop) : Prop :=
  ∀ ⦃buf buf' : Buf⦄ ⦃start n : Nat⦄, f buf start = .ok (buf', n) →
    ∃ bytes, Q bytes ∧ n = bytes.length ∧ start + n ≤ buf.data.length ∧
      buf'.data = splice buf.data start bytes

theorem Lays.congr {f g : Flat} {Q : List UInt8 → Prop} (h : Lays g Q)
    (heq : ∀ buf start, f buf start = g buf start) : Lays f Q := by
  rwa [show f = g from funext fun buf ↦ funext (heq buf)]

theorem Lays.mono {f : Flat} {Q Q' : List UInt8 → Prop} (h : Lays f Q)
    (hQ : ∀ bytes, Q bytes → Q' bytes) : Lays f Q' := by
  intro buf buf' start n hf
  obtain ⟨bytes, hbytes, hlaid⟩ := h hf
  exact ⟨bytes, hQ bytes hbytes, hlaid⟩

theorem lays_error (e : Fault) (Q : List UInt8 → Prop) : Lays (fun _ _ => .error e) Q := by
  intro buf buf' start n h
  cases h

theorem Buf.data_of_memcpy {buf buf' : Buf} {off : Nat} {src : List UInt8}
    (h : buf.memcpy off src = .ok buf') :
    off + src.length ≤ buf.data.length ∧ buf'.data = splice buf.data off src := by
  rw [Buf.memcpy] at h
  split at h
  · rename_i hroom
    cases h
    exact ⟨hroom, rfl⟩
  · cases h

theorem lays_copyOut {src : List UInt8} {n : Nat} (h : n = src.length) :
    Lays (copyOut src n) (· = src) := by
  intro buf buf' start k hf
  obtain ⟨buf₁, hcopy, hret⟩ := bind_eq_ok.mp hf
  cases hret
  obtain ⟨hroom, hdata⟩ := Buf.data_of_memcpy hcopy
  exact ⟨src, rfl, h, h ▸ hroom, hdata⟩

/-- Bytes that `f` emits wherever it has room are those that it lays, if it never lays fewer. -/
theorem Emits.lays {f : Flat} {bytes : List UInt8} {Q : List UInt8 → Prop} (h : Emits f bytes)
    (hf : Lays f Q) (hQ : ∀ b, Q b → bytes.length ≤ b.length) : Lays f (· = bytes) := by
  intro buf buf' start n hrun
  obtain ⟨b, hb, rfl, hroom, -⟩ := hf hrun
  have hle := hQ b hb
  obtain ⟨ws, -, hemits⟩ := h buf start (by omega)
  rw [hrun, Except.ok.injEq, Prod.mk.injEq] at hemits
  obtain ⟨rfl, hlen⟩ := hemits
  exact ⟨bytes, rfl, hlen, hroom, rfl⟩

/-- Bytes that are copied before `g` goes on behind them. -/
theorem Lays.header {g : Flat} {Q : List UInt8 → Prop} {n : Nat} (hd : List UInt8)
    (hn : n = hd.length) (hg : Lays g Q) :
    Lays (fun buf start => do
      let buf ← buf.memcpy start hd
      let (buf, k) ← g buf (start + n)
      return (buf, n + k)) (fun b => ∃ u, Q u ∧ b = hd ++ u) := by
  subst hn
  intro buf buf' start k hf
  obtain ⟨buf₁, hcopy, hrest⟩ := bind_eq_ok.mp hf
  obtain ⟨⟨buf₂, k'⟩, hrun, hret⟩ := bind_eq_ok.mp hrest
  cases hret
  obtain ⟨hroom, hdata⟩ := Buf.data_of_memcpy hcopy
  obtain ⟨u, hu, rfl, hroom', hdata'⟩ := hg hrun
  rw [hdata, length_splice hroom] at hroom'
  refine ⟨hd ++ u, ⟨u, hu, rfl⟩, List.length_append.symm, by omega, ?_⟩
  rw [hdata', hdata, splice_splice (by omega)]

/-- What a loop that ends well has laid behind the `len` bytes already counted: a part for each of
the slots that it takes. -/
theorem Lays.slots {α : Type} {limit : Nat} {flat : α → Flat} {Q : α → List UInt8 → Prop}
    {xs : List α} (h : ∀ x ∈ xs, Lays (flat x) (Q x)) {count len start n : Nat} {buf buf' : Buf}
    (hroom : start + len ≤ buf.data.length)
    (hf : flatSlots limit flat count xs len buf start = .ok (buf', n)) :
    ∃ parts, count ≤ xs.length ∧ List.Forall₂ Q (xs.take count) parts ∧
      n = len + parts.flatten.length ∧ start + n ≤ buf.data.length ∧
      buf'.data = splice buf.data (start + len) parts.flatten := by
  induction count generalizing xs len buf with
  | zero =>
      cases hf
      exact ⟨[], Nat.zero_le _, .nil, rfl, hroom, by simp [splice]⟩
  | succ count ih =>
      cases xs with
      | nil => cases hf
      | cons x xs =>
          rw [flatSlots] at hf
          split at hf
          · obtain ⟨⟨buf₁, k⟩, hx, hrest⟩ := bind_eq_ok.mp hf
            obtain ⟨part, hpart, rfl, hroom₁, hdata₁⟩ := h x List.mem_cons_self hx
            have hlen : buf₁.data.length = buf.data.length := by
              rw [hdata₁, length_splice hroom₁]
            obtain ⟨parts, hcount, hparts, rfl, hroom₂, hdata₂⟩ :=
              ih (fun y hy ↦ h y (List.mem_cons_of_mem _ hy)) (by omega) hrest
            refine ⟨part :: parts, Nat.succ_le_succ hcount, .cons hpart hparts, ?_, ?_, ?_⟩
            · rw [List.flatten_cons, List.length_append, Nat.add_assoc]
            · omega
            · rw [hdata₂, hdata₁, List.flatten_cons, ← Nat.add_assoc, splice_splice (by omega)]
          · cases hf

/-- A header in front of what is in the pointer slots. -/
theorem Lays.headerSlots {α : Type} (limit : Nat) {flat : α → Flat}
    {Q : α → List UInt8 → Prop} {xs : List α} {n : Nat} (hd : List UInt8) (hn : n = hd.length)
    (count : Nat) (h : ∀ x ∈ xs, Lays (flat x) (Q x)) :
    Lays (fun buf start => do
      let buf ← buf.memcpy start hd
      flatSlots limit flat count xs n buf start)
      (fun b => ∃ parts, count ≤ xs.length ∧ List.Forall₂ Q (xs.take count) parts ∧
        b = hd ++ parts.flatten) := by
  subst hn
  intro buf buf' start k hf
  obtain ⟨buf₁, hcopy, hrun⟩ := bind_eq_ok.mp hf
  obtain ⟨hroom, hdata⟩ := Buf.data_of_memcpy hcopy
  have hlen : buf₁.data.length = buf.data.length := by
    rw [hdata, length_splice hroom]
  obtain ⟨parts, hcount, hparts, rfl, hroom', hdata'⟩ := Lays.slots h (by omega) hrun
  refine ⟨hd ++ parts.flatten, ⟨parts, hcount, hparts, rfl⟩, List.length_append.symm, by omega, ?_⟩
  rw [hdata', hdata, splice_splice (by omega)]

/-- `f` ends with the fault `e`, wherever there is room enough. -/
def Stops (f : Flat) (e : Fault) : Prop :=
  ∃ n, ∀ (buf : Buf) (start : Nat), start + n ≤ buf.data.length → f buf start = .error e

theorem stops_error (e : Fault) : Stops (fun _ _ => .error e) e := ⟨0, fun _ _ _ ↦ rfl⟩

theorem Stops.congr {f g : Flat} {e : Fault} (h : Stops g e)
    (heq : ∀ buf start, f buf start = g buf start) : Stops f e := by
  rwa [show f = g from funext fun buf ↦ funext (heq buf)]

/-- What follows a copy stops it. -/
theorem Stops.copied {g : Flat} {e : Fault} (src : List UInt8) (hg : Stops g e) :
    Stops (fun buf start => do
      let buf ← buf.memcpy start src
      g buf start) e := by
  obtain ⟨n, hg⟩ := hg
  refine ⟨src.length + n, fun buf start hroom ↦ ?_⟩
  have hsrc : start + src.length ≤ buf.data.length := by omega
  have hlen : (splice buf.data start src).length = buf.data.length := length_splice hsrc
  simp only [Buf.memcpy, if_pos hsrc, ok_bind]
  exact hg _ _ (by simp only [hlen]; omega)

/-- A fault behind `len` bytes stops what counts them. -/
theorem Stops.shifted {g : Flat} {e : Fault} (len : Nat) (hg : Stops g e) :
    Stops (fun buf start => do
      let (buf, k) ← g buf (start + len)
      return (buf, len + k)) e := by
  obtain ⟨n, hg⟩ := hg
  refine ⟨len + n, fun buf start hroom ↦ ?_⟩
  simp only [hg buf (start + len) (by omega), error_bind]

/-- The loop stops at the first slot that does. -/
theorem Stops.slots {α : Type} {limit : Nat} {flat : α → Flat} {wire : α → List UInt8} {e : Fault}
    {xs : List α} {x : α} (h : ∀ y ∈ xs, Emits (flat y) (wire y)) (hx : Stops (flat x) e)
    (ys : List α) {len : Nat} (hlimit : len + (xs.flatMap wire).length < limit) :
    Stops (flatSlots limit flat (xs ++ x :: ys).length (xs ++ x :: ys) len) e := by
  obtain ⟨n, hx⟩ := hx
  refine ⟨len + (xs.flatMap wire).length + n, fun buf start hroom ↦ ?_⟩
  induction xs generalizing len buf with
  | nil =>
      rw [List.flatMap_nil, List.length_nil] at hlimit hroom
      have hlt : len < limit := by omega
      simp only [List.nil_append, List.length_cons, flatSlots, if_pos hlt,
        hx buf (start + len) (by omega), error_bind]
  | cons y xs ih =>
      rw [List.flatMap_cons, List.length_append] at hlimit hroom
      obtain ⟨ws, -, hy⟩ := h y List.mem_cons_self buf (start + len) (by omega)
      have hlen : (splice buf.data (start + len) (wire y)).length = buf.data.length :=
        length_splice (by omega)
      have hlt : len < limit := by omega
      simp only [List.cons_append, List.length_cons, flatSlots, if_pos hlt, hy, ok_bind]
      exact ih (fun z hz ↦ h z (List.mem_cons_of_mem _ hz)) (by omega) _
        (by simp only [hlen]; omega)

/-- A loop that ends well has flattened every slot. -/
theorem flat_of_flatSlots {α : Type} {limit : Nat} {flat : α → Flat} {xs : List α} {len start : Nat}
    {buf : Buf} {r : Buf × Nat} (h : flatSlots limit flat xs.length xs len buf start = .ok r)
    {x : α} (hx : x ∈ xs) : ∃ buf' start' r', flat x buf' start' = .ok r' := by
  induction xs generalizing len buf with
  | nil => cases hx
  | cons y xs ih =>
      rw [List.length_cons, flatSlots] at h
      split at h
      · obtain ⟨⟨buf', n⟩, hy, hrest⟩ := bind_eq_ok.mp h
        rcases List.mem_cons.mp hx with rfl | hx
        · exact ⟨_, _, _, hy⟩
        · exact ih hrest hx
      · cases h

/-- A loop that ends well has started every slot below its limit. -/
theorem startsBelow_of_flatSlots {α β : Type} {limit : Nat} {flat : β → Flat} {r : α → β}
    {g : α → Nat} {xs : List α} {len start : Nat} {buf : Buf} {res : Buf × Nat}
    (hg : ∀ x ∈ xs, ∀ buf start buf' n, flat (r x) buf start = .ok (buf', n) → n = g x)
    (h : flatSlots limit flat (xs.map r).length (xs.map r) len buf start = .ok res) :
    StartsBelow limit (xs.map g) len := by
  induction xs generalizing len buf with
  | nil => trivial
  | cons x xs ih =>
      rw [List.map_cons, List.length_cons, flatSlots] at h
      split at h
      · rename_i hlen
        obtain ⟨⟨buf', n⟩, hx, hrest⟩ := bind_eq_ok.mp h
        obtain rfl := hg x List.mem_cons_self _ _ _ _ hx
        exact ⟨hlen, ih (fun y hy ↦ hg y (List.mem_cons_of_mem _ hy)) hrest⟩
      · cases h

end Sflow.C

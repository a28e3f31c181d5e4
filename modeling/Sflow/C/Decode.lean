import Mathlib.Data.List.Forall2
import Sflow.C.Word

/-!
# Readers

A reader consumes a prefix of a list of bytes.  `Reads r bytes a` says that `r`
consumes exactly `bytes`, whatever follows, and returns `a`; readers that meet
such a specification compose along `andThen`, so a decoder is shown inverse to an
encoder by following the two in parallel.

`Consumes r cost` goes the other way: whatever `r` accepts, its result accounts
for the number of bytes that it took.
-/

namespace Sflow.C

variable {α β : Type*}

/-- A decoder of a prefix of the input. -/
abbrev Reader (α : Type*) := List UInt8 → Option (α × List UInt8)

namespace Reader

/-- Return `a` and consume nothing. -/
def ret (a : α) : Reader α := fun bs => some (a, bs)

/-- Accept nothing. -/
def fail : Reader α := fun _ => none

/-- Read with `r`, then with what `k` makes of its result. -/
def andThen (r : Reader α) (k : α → Reader β) : Reader β := fun bs =>
  match r bs with
  | none => none
  | some (a, rest) => k a rest

/-- Exactly `n` bytes. -/
def bytes (n : Nat) : Reader (List UInt8) := fun bs =>
  if n ≤ bs.length then some (bs.take n, bs.drop n) else none

/-- A 32-bit word in network order. -/
def word : Reader UInt32 := (bytes 4).andThen fun bs => ret (UInt32.ofNat (ofBeBytes bs))

/-- Read `n` times. -/
def many (r : Reader α) : Nat → Reader (List α)
  | 0 => ret []
  | n + 1 => r.andThen fun a => (many r n).andThen fun as => ret (a :: as)

/-- Cut off `n` bytes and read them to their end with `r`. -/
def within (n : Nat) (r : Reader α) : Reader α := (bytes n).andThen fun body bs =>
  match r body with
  | some (a, []) => some (a, bs)
  | _ => none

end Reader

open Reader

/-- `r` consumes exactly `bytes`, whatever follows, and returns `a`. -/
def Reads (r : Reader α) (bs : List UInt8) (a : α) : Prop :=
  ∀ rest, r (bs ++ rest) = some (a, rest)

theorem reads_ret (a : α) : Reads (ret a) [] a := fun _ ↦ rfl

theorem Reads.andThen {r : Reader α} {k : α → Reader β} {u v : List UInt8} {a : α} {b : β}
    (hr : Reads r u a) (hk : Reads (k a) v b) : Reads (r.andThen k) (u ++ v) b := by
  intro rest
  rw [Reader.andThen, List.append_assoc, hr]
  exact hk rest

/-- A result passed through a function. -/
theorem Reads.andThen_ret {r : Reader α} {u : List UInt8} {a : α} (hr : Reads r u a)
    (f : α → β) : Reads (r.andThen fun a => ret (f a)) u (f a) := by
  intro rest
  rw [Reader.andThen, hr]
  rfl

theorem reads_bytes (bs : List UInt8) : Reads (Reader.bytes bs.length) bs bs := by
  intro rest
  simp [Reader.bytes]

theorem reads_word (x : UInt32) : Reads word (beBytes 4 x.toNat) x := by
  have hb : Reads (Reader.bytes 4) (beBytes 4 x.toNat) (beBytes 4 x.toNat) := by
    simpa using reads_bytes (beBytes 4 x.toNat)
  have hlt : x.toNat < 256 ^ 4 := x.toNat_lt
  have hx : UInt32.ofNat (ofBeBytes (beBytes 4 x.toNat)) = x := by
    rw [ofBeBytes_beBytes, Nat.mod_eq_of_lt hlt, UInt32.ofNat_toNat]
  have h := hb.andThen_ret fun bs => UInt32.ofNat (ofBeBytes bs)
  rwa [hx] at h

/-- A word in memory that is in network order. -/
theorem reads_wordBytes (e : Endian) (x : UInt32) : Reads word (wordBytes e x) (ntohl e x) := by
  have h := reads_word (ntohl e x)
  rwa [← wordBytes_htonl, htonl_ntohl] at h

/-- Parts that each read back are read back in order. -/
theorem reads_many_flatten {r : Reader α} {parts : List (List UInt8)} {as : List α}
    (h : List.Forall₂ (Reads r) parts as) : Reads (many r as.length) parts.flatten as := by
  induction h with
  | nil => exact reads_ret []
  | cons hpart _ ih => exact hpart.andThen (ih.andThen_ret _)

/-- Items that each read back are read back in order. -/
theorem reads_many {γ : Type*} {r : Reader α} {wire : γ → List UInt8} {val : γ → α}
    {xs : List γ} (h : ∀ x ∈ xs, Reads r (wire x) (val x)) :
    Reads (many r xs.length) (xs.flatMap wire) (xs.map val) := by
  have hparts : List.Forall₂ (Reads r) (xs.map wire) (xs.map val) := by
    rw [List.forall₂_map_left_iff, List.forall₂_map_right_iff, List.forall₂_same]
    exact h
  have hread := reads_many_flatten hparts
  rwa [List.length_map, ← List.flatMap_def] at hread

theorem Reads.within {r : Reader α} {bs : List UInt8} {a : α} (h : Reads r bs a) :
    Reads (Reader.within bs.length r) bs a := by
  intro rest
  have hr : r bs = some (a, []) := by simpa using h []
  rw [Reader.within, Reader.andThen, reads_bytes bs rest]
  simp only [hr]

/-! ## What a result says about its input -/

/-- When `r` returns `a`, it has taken some number `n` of bytes with `cost a n`. -/
def Consumes (r : Reader α) (cost : α → Nat → Prop) : Prop :=
  ∀ bs a rest, r bs = some (a, rest) → ∃ n, bs.length = rest.length + n ∧ cost a n

theorem consumes_ret {a : α} {cost : α → Nat → Prop} (h : cost a 0) : Consumes (ret a) cost := by
  intro bs a' rest hr
  cases hr
  exact ⟨0, rfl, h⟩

theorem consumes_fail {cost : α → Nat → Prop} : Consumes fail cost := by
  intro bs a rest hr
  cases hr

theorem consumes_bytes (n : Nat) :
    Consumes (Reader.bytes n) fun bs m => m = n ∧ bs.length = n := by
  intro bs a rest hr
  simp only [Reader.bytes] at hr
  split at hr
  · rename_i hn
    cases hr
    refine ⟨n, ?_, rfl, List.length_take_of_le hn⟩
    rw [List.length_drop, Nat.sub_add_cancel hn]
  · cases hr

theorem Consumes.andThen {r : Reader α} {k : α → Reader β} {P : α → Nat → Prop}
    {Q : β → Nat → Prop} (hr : Consumes r P)
    (hk : ∀ a m, P a m → Consumes (k a) fun b n => Q b (m + n)) : Consumes (r.andThen k) Q := by
  intro bs b rest h
  rw [Reader.andThen] at h
  split at h
  · cases h
  · rename_i a rest' ha
    obtain ⟨m, hm, hP⟩ := hr _ _ _ ha
    obtain ⟨n, hn, hQ⟩ := hk a m hP _ _ _ h
    exact ⟨m + n, by omega, hQ⟩

theorem consumes_word : Consumes word fun _ n => n = 4 :=
  (consumes_bytes 4).andThen fun _ _ h ↦ consumes_ret h.1

theorem Consumes.many {r : Reader α} {size : α → Nat} (h : Consumes r fun a n => n = size a)
    (k : Nat) : Consumes (Reader.many r k) fun as n => n = (as.map size).sum := by
  induction k with
  | zero => exact consumes_ret rfl
  | succ k ih =>
      refine h.andThen fun a m hm ↦ ih.andThen fun as n hn ↦ consumes_ret ?_
      rw [List.map_cons, List.sum_cons, hm, hn, Nat.add_zero]

theorem Consumes.within {r : Reader α} {P : α → Nat → Prop} (h : Consumes r P) (n : Nat) :
    Consumes (Reader.within n r) fun a m => m = n ∧ P a m := by
  refine (consumes_bytes n).andThen ?_
  rintro body m ⟨hm, hbody⟩ bs a rest hr
  simp only at hr
  split at hr
  · rename_i a' ha
    cases hr
    obtain ⟨k, hk, hP⟩ := h _ _ _ ha
    have hkn : k = n := by
      rw [← hbody, hk, List.length_nil, Nat.zero_add]
    exact ⟨0, rfl, hm, by rw [Nat.add_zero, hm, ← hkn]; exact hP⟩
  · cases hr

end Sflow.C

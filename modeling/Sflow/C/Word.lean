import Mathlib.Algebra.GroupWithZero.Nat

/-!
# Fixed-width words and byte order

A word of `k` bytes lies in memory least or most significant byte first,
according to the host.  `hostBytes` is that memory image, and `toNet` the
conversion C calls `htonl` at width four: it permutes the bytes of a word so
that its *image* is most significant byte first on every host.

Nothing here fixes a width; `htonl` and `ntohl` are the instances at four bytes.
-/

namespace Sflow.C

/-- The byte order of a host. -/
inductive Endian where
  | little
  | big
deriving DecidableEq, Repr

/-- The `k` bytes of `n`, least significant first. -/
def leBytes : Nat → Nat → List UInt8
  | 0, _ => []
  | k + 1, n => UInt8.ofNat n :: leBytes k (n / 256)

/-- The number that a list of bytes, least significant first, stands for. -/
def ofLeBytes : List UInt8 → Nat
  | [] => 0
  | b :: bs => b.toNat + 256 * ofLeBytes bs

@[simp] theorem leBytes_length (k n : Nat) : (leBytes k n).length = k := by
  induction k generalizing n with
  | zero => rfl
  | succ k ih => simp [leBytes, ih]

theorem ofLeBytes_leBytes (k n : Nat) : ofLeBytes (leBytes k n) = n % 256 ^ k := by
  induction k generalizing n with
  | zero => simp [leBytes, ofLeBytes, Nat.mod_one]
  | succ k ih =>
      have hb : (UInt8.ofNat n).toNat = n % 256 := by simp
      rw [leBytes, ofLeBytes, ih, hb, Nat.pow_succ', Nat.mod_mul]

theorem leBytes_ofLeBytes (bs : List UInt8) : leBytes bs.length (ofLeBytes bs) = bs := by
  induction bs with
  | nil => rfl
  | cons b bs ih =>
      have hb : b.toNat < 256 := b.toNat_lt
      have hq : (b.toNat + 256 * ofLeBytes bs) / 256 = ofLeBytes bs := by omega
      have hr : UInt8.ofNat (b.toNat + 256 * ofLeBytes bs) = b := by
        apply UInt8.toNat_inj.mp
        simp only [UInt8.toNat_ofNat']
        omega
      simp only [List.length_cons, ofLeBytes, leBytes, hq, hr, ih]

theorem ofLeBytes_lt (bs : List UInt8) : ofLeBytes bs < 256 ^ bs.length := by
  induction bs with
  | nil => simp [ofLeBytes]
  | cons b bs ih =>
      have hb : b.toNat < 256 := b.toNat_lt
      simp only [ofLeBytes, List.length_cons, Nat.pow_succ]
      omega

/-- The `k` bytes of `n`, most significant first: the order of the network. -/
def beBytes (k n : Nat) : List UInt8 := (leBytes k n).reverse

/-- The number that a list of bytes, most significant first, stands for. -/
def ofBeBytes (bs : List UInt8) : Nat := ofLeBytes bs.reverse

@[simp] theorem beBytes_length (k n : Nat) : (beBytes k n).length = k := by simp [beBytes]

theorem ofBeBytes_beBytes (k n : Nat) : ofBeBytes (beBytes k n) = n % 256 ^ k := by
  rw [ofBeBytes, beBytes, List.reverse_reverse, ofLeBytes_leBytes]

theorem beBytes_ofBeBytes (bs : List UInt8) : beBytes bs.length (ofBeBytes bs) = bs := by
  have h := leBytes_ofLeBytes bs.reverse
  rw [List.length_reverse] at h
  rw [beBytes, ofBeBytes, h, List.reverse_reverse]

theorem eq_of_beBytes_eq {k m n : Nat} (hm : m < 256 ^ k) (hn : n < 256 ^ k)
    (h : beBytes k m = beBytes k n) : m = n := by
  rw [← Nat.mod_eq_of_lt hm, ← ofBeBytes_beBytes, h, ofBeBytes_beBytes, Nat.mod_eq_of_lt hn]

/-- The lower `j` bytes come first, the others behind them. -/
theorem leBytes_add (j k n : Nat) : leBytes (j + k) n = leBytes j n ++ leBytes k (n / 256 ^ j) := by
  induction j generalizing n with
  | zero => rw [Nat.zero_add, Nat.pow_zero, Nat.div_one, leBytes, List.nil_append]
  | succ j ih =>
      rw [Nat.succ_add, leBytes, leBytes, ih, List.cons_append, Nat.div_div_eq_div_mul,
        Nat.pow_succ']

/-- In the order of the network it is the other way round. -/
theorem beBytes_add (j k n : Nat) : beBytes (j + k) n = beBytes j (n / 256 ^ k) ++ beBytes k n := by
  rw [beBytes, Nat.add_comm, leBytes_add, List.reverse_append, beBytes, beBytes]

theorem beBytes_mod (k n : Nat) : beBytes k (n % 256 ^ k) = beBytes k n := by
  have hbytes := beBytes_ofBeBytes (beBytes k n)
  rwa [beBytes_length, ofBeBytes_beBytes] at hbytes

/-- The image in memory of a `k`-byte word. -/
def hostBytes (e : Endian) (k n : Nat) : List UInt8 :=
  match e with
  | .little => leBytes k n
  | .big => beBytes k n

@[simp] theorem hostBytes_length (e : Endian) (k n : Nat) : (hostBytes e k n).length = k := by
  cases e <;> simp [hostBytes]

/-- Host to network order: the word whose image is `beBytes k n`. -/
def toNet (e : Endian) (k n : Nat) : Nat :=
  match e with
  | .little => ofBeBytes (leBytes k n)
  | .big => n

/-- The image of a converted word is in network order on every host. -/
theorem hostBytes_toNet (e : Endian) (k n : Nat) :
    hostBytes e k (toNet e k n) = beBytes k n := by
  cases e with
  | big => rfl
  | little =>
      have h := leBytes_ofLeBytes (leBytes k n).reverse
      rw [List.length_reverse, leBytes_length] at h
      exact h

theorem toNet_lt (e : Endian) {k n : Nat} (h : n < 256 ^ k) : toNet e k n < 256 ^ k := by
  cases e with
  | big => exact h
  | little =>
      have h' := ofLeBytes_lt (leBytes k n).reverse
      rwa [List.length_reverse, leBytes_length] at h'

/-- Swapping twice restores the word. -/
theorem toNet_toNet (e : Endian) {k n : Nat} (h : n < 256 ^ k) :
    toNet e k (toNet e k n) = n := by
  cases e with
  | big => rfl
  | little =>
      have hb : leBytes k (ofLeBytes (leBytes k n).reverse) = (leBytes k n).reverse := by
        have h' := leBytes_ofLeBytes (leBytes k n).reverse
        rwa [List.length_reverse, leBytes_length] at h'
      change ofLeBytes (leBytes k (ofLeBytes (leBytes k n).reverse)).reverse = n
      rw [hb, List.reverse_reverse, ofLeBytes_leBytes, Nat.mod_eq_of_lt h]

/-! ## Thirty-two and sixty-four bits -/

/-- `htonl`. -/
def htonl (e : Endian) (x : UInt32) : UInt32 := UInt32.ofNat (toNet e 4 x.toNat)

/-- `ntohl`. -/
def ntohl (e : Endian) (x : UInt32) : UInt32 := UInt32.ofNat (toNet e 4 x.toNat)

/-- The image of a 32-bit word. -/
def wordBytes (e : Endian) (x : UInt32) : List UInt8 := hostBytes e 4 x.toNat

/-- The image of a 64-bit word. -/
def hyperBytes (e : Endian) (x : UInt64) : List UInt8 := hostBytes e 8 x.toNat

@[simp] theorem wordBytes_length (e : Endian) (x : UInt32) : (wordBytes e x).length = 4 :=
  hostBytes_length e 4 _

@[simp] theorem hyperBytes_length (e : Endian) (x : UInt64) : (hyperBytes e x).length = 8 :=
  hostBytes_length e 8 _

theorem toNat_htonl (e : Endian) (x : UInt32) : (htonl e x).toNat = toNet e 4 x.toNat := by
  have h := toNet_lt e (k := 4) x.toNat_lt
  simp only [htonl, UInt32.toNat_ofNat']
  exact Nat.mod_eq_of_lt h

@[simp] theorem ntohl_htonl (e : Endian) (x : UInt32) : ntohl e (htonl e x) = x := by
  apply UInt32.toNat_inj.mp
  have h : toNet e 4 (toNet e 4 x.toNat) = x.toNat := toNet_toNet e x.toNat_lt
  rw [ntohl, toNat_htonl, h, UInt32.ofNat_toNat]

theorem htonl_ntohl (e : Endian) (x : UInt32) : htonl e (ntohl e x) = x := ntohl_htonl e x

@[simp] theorem wordBytes_htonl (e : Endian) (x : UInt32) :
    wordBytes e (htonl e x) = beBytes 4 x.toNat := by
  rw [wordBytes, toNat_htonl, hostBytes_toNet]

/-- Words are told apart by their images. -/
theorem wordBytes_htonl_inj {e : Endian} {x y : UInt32} :
    wordBytes e (htonl e x) = wordBytes e (htonl e y) ↔ x = y := by
  refine ⟨fun h ↦ ?_, fun h ↦ by rw [h]⟩
  rw [wordBytes_htonl, wordBytes_htonl] at h
  exact UInt32.toNat_inj.mp (eq_of_beBytes_eq x.toNat_lt y.toNat_lt h)

/-! ## Two fields in a word -/

section Fields

variable {k : Nat} {s mask : UInt32} (hs : s.toNat = k) (hk : k < 32)
  (hmask : mask.toNat = 2 ^ k - 1)
include hs hk

/-- The upper field, from bit `k` on. -/
theorem toNat_shiftRight_field (x : UInt32) : (x >>> s).toNat = x.toNat / 2 ^ k := by
  rw [UInt32.toNat_shiftRight, hs, Nat.mod_eq_of_lt hk, Nat.shiftRight_eq_div_pow]

omit hs hk in
include hmask in
/-- The lower field, up to bit `k`. -/
theorem toNat_and_field (x : UInt32) : (x &&& mask).toNat = x.toNat % 2 ^ k := by
  rw [UInt32.toNat_and, hmask, Nat.and_two_pow_sub_one_eq_mod]

include hmask in
/-- Putting the fields together is adding them up. -/
theorem toNat_or_fields (hi lo : UInt32) (hhi : hi.toNat * 2 ^ k < 2 ^ 32) :
    (0 ||| (hi <<< s) ||| (lo &&& mask)).toNat = hi.toNat * 2 ^ k + lo.toNat % 2 ^ k := by
  have hshift : (hi <<< s).toNat = hi.toNat * 2 ^ k := by
    rw [UInt32.toNat_shiftLeft, hs, Nat.mod_eq_of_lt hk, Nat.shiftLeft_eq, Nat.mod_eq_of_lt hhi]
  have hor := Nat.two_pow_add_eq_or_of_lt (Nat.mod_lt lo.toNat (Nat.two_pow_pos k)) hi.toNat
  rw [UInt32.toNat_or, UInt32.toNat_or, toNat_and_field hmask, hshift,
    show (0 : UInt32).toNat = 0 by decide, Nat.zero_or, Nat.mul_comm, ← hor]

end Fields

end Sflow.C

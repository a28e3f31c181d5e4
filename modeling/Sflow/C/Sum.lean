import Mathlib.Algebra.Order.BigOperators.Group.List
import Mathlib.Algebra.Order.Ring.Int
import Mathlib.Data.Int.ModEq

/-!
# Sums in words of fixed width

A loop that adds numbers to a word computes their sum up to a multiple of the size
of the word.  Two questions come up again and again: how far such a sum is from
the true one (`exists_near_iff`), and whether a sum of cut-off terms can be right by
accident (`sum_emod_eq_iff`).
-/

namespace Sflow.C

theorem foldl_add_uInt32 (xs : List UInt32) (acc : UInt32) :
    xs.foldl (· + ·) acc = acc + UInt32.ofNat (xs.map UInt32.toNat).sum := by
  induction xs generalizing acc with
  | nil => exact (UInt32.add_zero acc).symm
  | cons x xs ih =>
      rw [List.foldl_cons, ih, List.map_cons, List.sum_cons, UInt32.ofNat_add, UInt32.ofNat_toNat,
        UInt32.add_assoc]

theorem foldl_add_uInt64 (xs : List UInt64) (acc : UInt64) :
    xs.foldl (· + ·) acc = acc + UInt64.ofNat (xs.map UInt64.toNat).sum := by
  induction xs generalizing acc with
  | nil => exact (UInt64.add_zero acc).symm
  | cons x xs ih =>
      rw [List.foldl_cons, ih, List.map_cons, List.sum_cons, UInt64.ofNat_add, UInt64.ofNat_toNat,
        UInt64.add_assoc]

/-- Signed numbers are added up the same way. -/
theorem foldl_add_ofInt (xs : List Int) (acc : UInt64) :
    xs.foldl (fun n x => n + UInt64.ofInt x) acc = acc + UInt64.ofInt xs.sum := by
  induction xs generalizing acc with
  | nil => exact (UInt64.add_zero acc).symm
  | cons x xs ih => rw [List.foldl_cons, ih, List.sum_cons, UInt64.ofInt_add, UInt64.add_assoc]

/-! ## How far a sum is off -/

/-- A number is near some multiple of `m` exactly if its remainder is near one of the two ends. -/
theorem exists_near_iff {a b m : ℕ} (hm : 0 < m) (hb : b ≤ m) :
    (∃ k : ℤ, |k * m - a| < b) ↔ a % m < b ∨ m - b < a % m := by
  have hdiv : (a : ℤ) = m * (a / m : ℕ) + (a % m : ℕ) := by
    exact_mod_cast (Nat.div_add_mod a m).symm
  have hlt : a % m < m := Nat.mod_lt a hm
  constructor
  · rintro ⟨k, hk⟩
    rw [abs_lt, hdiv] at hk
    obtain ⟨hlow, hhigh⟩ := hk
    -- the multiple is the one below the number or the one above it
    have hbelow : (a / m : ℕ) - 1 < k := by
      by_contra hle
      have hmul := Int.mul_le_mul_of_nonneg_right (Int.not_lt.mp hle) (Int.natCast_nonneg m)
      rw [sub_mul] at hmul
      grind
    have habove : k < (a / m : ℕ) + 2 := by
      by_contra hle
      have hmul := Int.mul_le_mul_of_nonneg_right (Int.not_lt.mp hle) (Int.natCast_nonneg m)
      rw [add_mul] at hmul
      grind
    obtain rfl | rfl : k = (a / m : ℕ) ∨ k = (a / m : ℕ) + 1 := by omega
    · left
      grind
    · right
      grind
  · rintro (hnear | hnear)
    · refine ⟨(a / m : ℕ), abs_lt.mpr ⟨?_, ?_⟩⟩ <;> grind
    · refine ⟨(a / m : ℕ) + 1, abs_lt.mpr ⟨?_, ?_⟩⟩ <;> grind

/-! ## Terms that are cut off -/

/-- No number gets larger when it is cut off. -/
theorem abs_bmod_le (y : ℤ) {m : ℕ} (hm : 0 < m) : |y.bmod m| ≤ |y| := by
  have hmod : (y - y.bmod m) % m = 0 := by
    rw [Int.sub_emod, Int.bmod_emod, sub_self, Int.zero_emod]
  obtain ⟨k, hk⟩ := Int.dvd_of_emod_eq_zero hmod
  have hlow := Int.le_bmod (x := y) hm
  have hhigh := Int.bmod_lt (x := y) hm
  rw [Int.abs_eq_natAbs, Int.abs_eq_natAbs]
  rcases lt_trichotomy k 0 with hneg | rfl | hpos
  · have hfar : (m : ℤ) * k ≤ m * (-1) := Int.mul_le_mul_of_nonneg_left (by omega) (by omega)
    omega
  · rw [mul_zero, sub_eq_zero] at hk
    rw [← hk]
  · have hfar : (m : ℤ) * 1 ≤ m * k := Int.mul_le_mul_of_nonneg_left (by omega) (by omega)
    omega

/-- Terms that are no larger than the true ones add up to the same remainder only if each of them
is the true one, where twice the true sum is below the modulus. -/
theorem sum_emod_eq_iff {α : Type} {xs : List α} {c t : α → ℤ} {m : ℤ}
    (hle : ∀ x ∈ xs, |c x| ≤ t x) (hlt : 2 * (xs.map t).sum < m) :
    (xs.map c).sum % m = (xs.map t).sum % m ↔ ∀ x ∈ xs, c x = t x := by
  constructor
  · intro heq
    -- what is missing in all is a multiple of the modulus below it
    have hmissing : (xs.map fun x => t x - c x).sum = (xs.map t).sum - (xs.map c).sum := by
      rw [eq_sub_iff_add_eq, ← List.sum_map_add]
      simp only [sub_add_cancel]
    have hnonneg : ∀ d ∈ xs.map fun x => t x - c x, 0 ≤ d := by
      rintro d hd
      obtain ⟨x, hx, rfl⟩ := List.mem_map.mp hd
      exact sub_nonneg.mpr ((le_abs_self _).trans (hle x hx))
    have hsmall : (xs.map fun x => t x - c x).sum ≤ (xs.map fun x => t x + t x).sum := by
      refine List.sum_le_sum fun x hx ↦ ?_
      have habs := neg_abs_le (c x)
      have hx := hle x hx
      omega
    have hzero : (xs.map fun x => t x - c x).sum = 0 := by
      have hpos := List.sum_nonneg hnonneg
      have hdvd := Int.dvd_of_emod_eq_zero (Int.emod_eq_emod_iff_emod_sub_eq_zero.mp heq.symm)
      rw [List.sum_map_add] at hsmall
      rw [← hmissing] at hdvd
      exact Int.eq_zero_of_dvd_of_nonneg_of_lt hpos (by omega) hdvd
    intro x hx
    have hx := List.all_zero_of_le_zero_le_of_sum_eq_zero hnonneg hzero
      (List.mem_map_of_mem hx)
    omega
  · intro heq
    rw [List.map_congr_left heq]

end Sflow.C

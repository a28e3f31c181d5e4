import Mathlib.Algebra.GroupWithZero.Nat
import Mathlib.Algebra.Ring.Int.Defs
import Mathlib.Data.List.Basic

/-!
# Numbers as text

From `sflow_util.c`, and `atoi` of the C library: decimal numbers with a sign.
-/

namespace Sflow

/-- `itoa`. -/
def itoa (n : Int) : List Char :=
  if n < 0 then '-' :: Nat.toDigits 10 n.natAbs else Nat.toDigits 10 n.natAbs

/-- `sprintf` with `%d`. -/
def toCharArray (num : Int) : List Char := (toString num).toList

/-- `isspace`. -/
def isSpace (c : Char) : Bool := c ∈ [' ', '\t', '\n', '\x0b', '\x0c', '\r']

/-- The number that the digits at the front make, behind the one read so far. -/
def readDigits (n : Nat) : List Char → Nat
  | [] => n
  | c :: s => if c.isDigit then readDigits (10 * n + (c.toNat - '0'.toNat)) s else n

/-- The number that a text stands for: white space is skipped, and a sign may come before the
digits. -/
def decimalValue (s : List Char) : Int :=
  match s.dropWhile isSpace with
  | '-' :: s => -readDigits 0 s
  | '+' :: s => readDigits 0 s
  | s => readDigits 0 s

/-- The range of an `int`. -/
def IsInt (num : Int) : Prop := -2 ^ 31 ≤ num ∧ num < 2 ^ 31

instance (num : Int) : Decidable (IsInt num) :=
  inferInstanceAs (Decidable (-2 ^ 31 ≤ num ∧ num < 2 ^ 31))

/-- `atoi`.  The digits are taken up in an `int`, which goes round where the number is no `int`. -/
def atoi (s : List Char) : Int := (decimalValue s).bmod (2 ^ 32)

theorem IsInt.bmod_eq {num : Int} (h : IsInt num) : num.bmod (2 ^ 32) = num := by
  obtain ⟨hlow, hhigh⟩ := h
  exact Int.bmod_eq_of_le (by omega) (by omega)

/-- A number stored as an unsigned word. -/
theorem ofInt_natCast (n : Nat) : UInt32.ofInt n = UInt32.ofNat n := by
  apply UInt32.toNat_inj.mp
  simp only [UInt32.ofInt, UInt32.toNat_ofNat']
  omega

/-! ## Reading back what was written -/

/-- Digits are read to their end. -/
theorem readDigits_eq {s : List Char} (h : ∀ c ∈ s, c.isDigit = true) (n : Nat) :
    readDigits n s = Nat.ofDigitChars 10 s n := by
  induction s generalizing n with
  | nil => rfl
  | cons c s ih =>
      rw [readDigits, if_pos (h c List.mem_cons_self), Nat.ofDigitChars_cons]
      exact ih (fun c hc ↦ h c (List.mem_cons_of_mem _ hc)) _

theorem readDigits_toDigits (n : Nat) : readDigits 0 (Nat.toDigits 10 n) = n := by
  rw [readDigits_eq fun c ↦ Nat.isDigit_of_mem_toDigits (by decide) (by decide)]
  exact Nat.ofDigitChars_ten_toDigits

/-- A digit is not skipped. -/
theorem isSpace_of_isDigit {c : Char} (h : c.isDigit = true) : isSpace c = false := by
  rw [isSpace, decide_eq_false_iff_not]
  intro hmem
  simp only [List.mem_cons, List.not_mem_nil, or_false] at hmem
  rcases hmem with rfl | rfl | rfl | rfl | rfl | rfl <;> cases h

theorem decimalValue_toDigits (n : Nat) : decimalValue (Nat.toDigits 10 n) = n := by
  have hdigits : ∀ c ∈ Nat.toDigits 10 n, c.isDigit = true := fun c ↦
    Nat.isDigit_of_mem_toDigits (by decide) (by decide)
  have hread := readDigits_toDigits n
  revert hdigits hread
  generalize Nat.toDigits 10 n = s
  intro hdigits hread
  cases s with
  | nil =>
      rw [← hread]
      rfl
  | cons c s =>
      have hc := hdigits c List.mem_cons_self
      have hminus : c ≠ '-' := by
        rintro rfl
        cases hc
      have hplus : c ≠ '+' := by
        rintro rfl
        cases hc
      rw [decimalValue, List.dropWhile_cons, isSpace_of_isDigit hc, if_neg Bool.false_ne_true]
      split
      · next heq => exact absurd (List.cons.inj heq).1 hminus
      · next heq => exact absurd (List.cons.inj heq).1 hplus
      · rw [hread]

/-- A number is read back from its digits. -/
theorem decimalValue_itoa (n : Int) : decimalValue (itoa n) = n := by
  rw [itoa]
  split
  · next hneg =>
      rw [decimalValue, List.dropWhile_cons, if_neg (by decide)]
      simp only [readDigits_toDigits]
      omega
  · next hpos =>
      rw [decimalValue_toDigits]
      omega

/-- An `int` is read back as it was. -/
theorem atoi_itoa {n : Int} (h : IsInt n) : atoi (itoa n) = n := by
  rw [atoi, decimalValue_itoa, h.bmod_eq]

/-- `sprintf` writes what `itoa` writes. -/
theorem toCharArray_eq_itoa (num : Int) : toCharArray num = itoa num := by
  rw [toCharArray, Int.toString_eq_repr, Int.repr_eq_if, itoa]
  by_cases h : num < 0
  · have habs : (-num).toNat = num.natAbs := by omega
    rw [if_neg (by omega), if_pos h, habs, String.toList_append, Nat.toList_repr]
    rfl
  · have habs : num.toNat = num.natAbs := by omega
    rw [if_pos (by omega), if_neg h, habs, Nat.toList_repr]

/-- A number is written with digits and a minus sign. -/
theorem mem_itoa {n : Int} {c : Char} (h : c ∈ itoa n) : c = '-' ∨ c.isDigit = true := by
  have hdigit : c ∈ Nat.toDigits 10 n.natAbs → c.isDigit = true :=
    Nat.isDigit_of_mem_toDigits (by decide) (by decide)
  rw [itoa] at h
  split at h
  · rcases List.mem_cons.mp h with hminus | h
    · exact .inl hminus
    · exact .inr (hdigit h)
  · exact .inr (hdigit h)

theorem length_itoa_le {n : Int} {k : Nat} (hk : 0 < k) (h : n.natAbs < 10 ^ k) :
    (itoa n).length ≤ k + 1 := by
  have hdigits : (Nat.toDigits 10 n.natAbs).length ≤ k :=
    (Nat.length_toDigits_le_iff (by decide) hk).mpr h
  rw [itoa]
  split
  · exact Nat.succ_le_succ hdigits
  · exact Nat.le_succ_of_le hdigits

end Sflow

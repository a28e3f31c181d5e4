import Sflow.C.Buffer

/-!
# Strings

A C string is the characters in front of the first NUL, so there is none among
them.  Of `strncmp` the result is modelled and not only its sign, which callers
compare with zero.
-/

namespace Sflow.C

/-- A NUL-terminated string. -/
structure CStr where
  chars : List Char
  nul_notMem : '\x00' ∉ chars
deriving DecidableEq

def CStr.empty : CStr := ⟨[], List.not_mem_nil⟩

/-- `strncmp`: the difference of the first characters that differ, up to `n` of them. -/
def strncmp : List Char → List Char → Nat → Int
  | _, _, 0 => 0
  | [], [], _ + 1 => 0
  | [], b :: _, _ + 1 => -b.toNat
  | a :: _, [], _ + 1 => a.toNat
  | a :: s, b :: t, n + 1 => if a = b then strncmp s t n else (a.toNat : Int) - b.toNat

/-- Compared over the length of the second string, two strings are equal exactly if the
first begins with the second. -/
theorem strncmp_length_eq_zero {s t : List Char} (ht : '\x00' ∉ t) :
    strncmp s t t.length = 0 ↔ t <+: s := by
  induction t generalizing s with
  | nil =>
      rw [List.length_nil, strncmp]
      exact ⟨fun _ ↦ List.nil_prefix, fun _ ↦ rfl⟩
  | cons b t ih =>
      rw [List.mem_cons, not_or] at ht
      have htail : '\x00' ∉ t := ht.2
      cases s with
      | nil =>
          have hpos : b.toNat ≠ 0 := by
            intro hzero
            exact ht.1 (Char.toNat_inj.mp hzero.symm)
          rw [List.length_cons, strncmp, List.prefix_nil]
          constructor
          · intro h
            omega
          · intro h
            cases h
      | cons a s =>
          rw [List.length_cons, strncmp, List.cons_prefix_cons]
          by_cases hab : a = b
          · rw [if_pos hab, ih htail]
            exact ⟨fun h ↦ ⟨hab.symm, h⟩, fun h ↦ h.2⟩
          · have hne : a.toNat ≠ b.toNat := fun h ↦ hab (Char.toNat_inj.mp h)
            rw [if_neg hab]
            constructor
            · intro h
              omega
            · intro h
              exact absurd h.1.symm hab

/-- The strings may be given the other way round. -/
theorem strncmp_swap (s t : List Char) (n : Nat) : strncmp s t n = -strncmp t s n := by
  induction n generalizing s t with
  | zero => simp only [strncmp, Int.neg_zero]
  | succ n ih =>
      cases s with
      | nil => cases t <;> simp only [strncmp, Int.neg_zero]
      | cons a s =>
          cases t with
          | nil => simp only [strncmp, Int.neg_neg]
          | cons b t =>
              rw [strncmp, strncmp]
              by_cases hab : a = b
              · rw [if_pos hab, if_pos hab.symm, ih]
              · rw [if_neg hab, if_neg (Ne.symm hab), Int.neg_sub]

/-- Compared over the length of the first one, they are equal exactly if the second begins with
it. -/
theorem strncmp_length_eq_zero_left {s t : List Char} (hs : '\x00' ∉ s) :
    strncmp s t s.length = 0 ↔ s <+: t := by
  rw [strncmp_swap, Int.neg_eq_zero, strncmp_length_eq_zero hs]

/-- `strncpy` into a buffer: up to `n` characters of the string and then NULs, `n` in all. -/
def strncpy (buf s : List Char) (n : Nat) : Except Fault (List Char) :=
  if n ≤ buf.length then
    .ok (s.take n ++ List.replicate (n - s.length) '\x00' ++ buf.drop n)
  else .error .outOfBounds

/-- `strlcat`: the string, with as much of the other behind it as an array of `size` characters
takes, and the length that it would have without the array. -/
def strlcat (dst src : CStr) (size : Nat) : CStr × Nat :=
  (⟨dst.chars ++ src.chars.take (size - 1 - dst.chars.length), fun h ↦
      (List.mem_append.mp h).elim dst.nul_notMem fun h ↦ src.nul_notMem (List.mem_of_mem_take h)⟩,
    min size dst.chars.length + src.chars.length)

/-- `strlcpy` into an array of `size` characters, and the length of the string. -/
def strlcpy (src : CStr) (size : Nat) : CStr × Nat :=
  (⟨src.chars.take (size - 1), fun h ↦ src.nul_notMem (List.mem_of_mem_take h)⟩,
    src.chars.length)

/-- A string that is shorter than the array is copied whole. -/
theorem strlcpy_of_lt {src : CStr} {size : Nat} (h : src.chars.length < size) :
    (strlcpy src size).1 = src := by
  have htake : src.chars.take (size - 1) = src.chars := List.take_of_length_le (by omega)
  simp only [strlcpy, htake]

/-! ## Arrays of characters -/

/-- What `strncpy` makes of an array of `n` characters. -/
def padded (n : Nat) (s : List Char) : List Char :=
  s.take n ++ List.replicate (n - s.length) '\x00'

/-- `strncpy` to an offset of a memory. -/
def strncpyAt (mem : List Char) (off : Nat) (s : List Char) (n : Nat) :
    Except Fault (List Char) := do
  let rest ← strncpy (mem.drop off) s n
  .ok (mem.take off ++ rest)

/-- The string at an offset of a memory: what is there up to the next NUL, wherever that is. -/
def stringAt (mem : List Char) (off : Nat) : Except Fault (List Char) :=
  if '\x00' ∈ mem.drop off then .ok ((mem.drop off).takeWhile (· ≠ '\x00'))
  else .error .outOfBounds

section Padded

variable {n off : Nat} {s mem front array back : List Char}

@[simp] theorem length_padded (n : Nat) (s : List Char) : (padded n s).length = n := by
  rw [padded, List.length_append, List.length_take, List.length_replicate]
  omega

theorem padded_of_le (h : s.length ≤ n) :
    padded n s = s ++ List.replicate (n - s.length) '\x00' := by
  rw [padded, List.take_of_length_le h]

/-- A NUL behind a string in an array of NULs, or in one that holds the string already. -/
theorem append_nul_drop (h : s.length < n)
    (harray : array = List.replicate n '\x00' ∨ array = padded n s) :
    s ++ '\x00' :: array.drop (s.length + 1) = padded n s := by
  obtain ⟨m, hm⟩ : ∃ m, n - s.length = m + 1 := ⟨n - s.length - 1, by omega⟩
  have hdrop : array.drop (s.length + 1) = List.replicate m '\x00' := by
    rcases harray with rfl | rfl
    · rw [List.drop_replicate]
      congr 1
      omega
    · rw [padded_of_le (Nat.le_of_lt h), ← List.drop_drop, List.drop_left, hm,
        List.drop_replicate, Nat.add_sub_cancel]
  rw [hdrop, padded_of_le (Nat.le_of_lt h), hm, List.replicate_succ]

/-- An array ends its string exactly if there is room for the NUL. -/
theorem nul_mem_padded_iff (hs : '\x00' ∉ s) : '\x00' ∈ padded n s ↔ s.length < n := by
  rw [padded, List.mem_append, List.mem_replicate]
  constructor
  · rintro (htake | hrest)
    · exact absurd (List.mem_of_mem_take htake) hs
    · omega
  · intro h
    right
    exact ⟨by omega, rfl⟩

/-- An array is filled where it lies. -/
theorem strncpyAt_eq (hmem : mem = front ++ (array ++ back)) (hoff : front.length = off)
    (harray : array.length = n) :
    strncpyAt mem off s n = .ok (front ++ (padded n s ++ back)) := by
  have htake : mem.take off = front := by
    rw [hmem, ← hoff, List.take_left]
  have hdrop : mem.drop off = array ++ back := by
    rw [hmem, ← hoff, List.drop_left]
  have hback : (array ++ back).drop n = back := by
    rw [← harray, List.drop_left]
  have hroom : n ≤ (array ++ back).length := by
    rw [List.length_append, harray]
    exact Nat.le_add_right _ _
  rw [strncpyAt, htake, hdrop, strncpy, if_pos hroom, hback, padded]
  rfl

/-- A string that ends in its array is read back. -/
theorem stringAt_eq (hdrop : mem.drop off = padded n s ++ back) (hs : '\x00' ∉ s)
    (hlen : s.length < n) : stringAt mem off = .ok s := by
  have hnul : '\x00' ∈ mem.drop off := by
    rw [hdrop]
    exact List.mem_append_left _ ((nul_mem_padded_iff hs).mpr hlen)
  have hchars : ∀ c ∈ s, decide (c ≠ '\x00') = true := by
    intro c hc
    rw [decide_eq_true_eq]
    rintro rfl
    exact hs hc
  obtain ⟨m, hm⟩ : ∃ m, n - s.length = m + 1 := ⟨n - s.length - 1, by omega⟩
  rw [stringAt, if_pos hnul, hdrop, padded_of_le (Nat.le_of_lt hlen), hm, List.replicate_succ,
    List.append_assoc, List.cons_append, List.takeWhile_append_of_pos hchars,
    List.takeWhile_cons_of_neg (by decide), List.append_nil]

end Padded

end Sflow.C

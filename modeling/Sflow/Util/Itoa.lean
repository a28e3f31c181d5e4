import Mathlib.Data.List.Induction
import Sflow.Protocol.Queries
import Sflow.Source.Reply

/-!
# Writing a number in place

`itoa` and `reverse` of `sflow_util.c` at the level of the array they work in.
`itoa` divides its argument by ten until nothing is left and writes the remainders one
behind the other, then the sign and the NUL; `reverse` swaps what two cursors point at
until they meet.  For every `long` whose negation is a `long` that leaves the text of
`Sflow.itoa` in the array, the canonical decimal representation of the number.
-/

namespace Sflow

open C

/-! ## The code -/

section Code

/-- `s[i]`. -/
def charAt (s : List Char) (i : Int) : Except Fault Char :=
  if 0 ≤ i then
    match s[i.toNat]? with
    | some c => .ok c
    | none => .error .outOfBounds
  else .error .outOfBounds

/-- `s[i] = c`. -/
def putChar (s : List Char) (i : Int) (c : Char) : Except Fault (List Char) :=
  if 0 ≤ i ∧ i < s.length then .ok (s.set i.toNat c) else .error .outOfBounds

/-- The loop of `reverse`. -/
def reverseLoop (i j : Int) (s : List Char) : Except Fault (List Char) :=
  if i < j then do
    let c ← charAt s i
    let s ← putChar s i (← charAt s j)
    let s ← putChar s j c
    reverseLoop (i + 1) (j - 1) s
  else .ok s
termination_by (j - i).toNat

/-- `reverse`; the cursor is an `int`. -/
def reverse (s : List Char) : Except Fault (List Char) := do
  let string ← stringAt s 0
  reverseLoop 0 (((string.length : Int) - 1).bmod 4294967296) s

/-- `n % 10 + '0'`. -/
def lastDigit (n : Int) : Char := Char.ofNat (n.tmod 10 + 48).toNat

/-- What is left of a number when something is left: less than the number. -/
theorem tdiv_ten_of_pos {n : Int} (h : 0 < n.tdiv 10) : 10 ≤ n ∧ n.tdiv 10 = n / 10 := by
  have hpos : 0 ≤ n := by
    by_contra hneg
    have hswap : n.tdiv 10 = -(-n).tdiv 10 := by rw [Int.neg_tdiv, Int.neg_neg]
    have hquot : 0 ≤ (-n).tdiv 10 := Int.tdiv_nonneg (by omega) (by decide)
    omega
  have hquot : n.tdiv 10 = n / 10 := Int.tdiv_eq_ediv_of_nonneg hpos
  omega

/-- `do s[i++] = n % 10 + '0'; while ((n /= 10) > 0);`. -/
def itoaLoop (n i : Int) (s : List Char) : Except Fault (Int × List Char) := do
  let s ← putChar s i (lastDigit n)
  if h : 0 < n.tdiv 10 then itoaLoop (n.tdiv 10) (i + 1) s else return (i + 1, s)
termination_by n.toNat
decreasing_by
  have hquot := tdiv_ten_of_pos h
  omega

/-- `if (sign < 0) s[i++] = '-';`. -/
def putSign (sign i : Int) (s : List Char) : Except Fault (Int × List Char) :=
  if sign < 0 then do
    let s ← putChar s i '-'
    return (i + 1, s)
  else return (i, s)

/-- `itoa`, of a `long`. -/
def itoaBuf (p : Platform) (n : Int) (s : List Char) : Except Fault (List Char) := do
  let sign := n
  let n := if sign < 0 then asLong p (-n) else n
  let (i, s) ← itoaLoop n 0 s
  let (i, s) ← putSign sign i s
  let s ← putChar s i '\x00'
  reverse s

end Code

/-! ## Characters in an array -/

section Chars

variable (front back : List Char) (c c' : Char)

theorem charAt_append : charAt (front ++ c :: back) front.length = .ok c := by
  rw [charAt, if_pos (Int.natCast_nonneg _), Int.toNat_natCast, List.getElem?_append_right
    (Nat.le_refl _), Nat.sub_self]
  rfl

theorem putChar_append :
    putChar (front ++ c :: back) front.length c' = .ok (front ++ c' :: back) := by
  have hroom : (0 : Int) ≤ front.length ∧
      (front.length : Int) < (front ++ c :: back).length := by
    rw [List.length_append, List.length_cons]
    omega
  rw [putChar, if_pos hroom, Int.toNat_natCast, List.set_append_right _ _ (Nat.le_refl _),
    Nat.sub_self]
  rfl

end Chars

/-- One round of the loop: the characters at the two cursors change places. -/
theorem reverseLoop_swap (front text back : List Char) (c d : Char) :
    reverseLoop front.length (front ++ c :: text).length (front ++ c :: (text ++ d :: back)) =
      reverseLoop (front.length + 1) ((front ++ c :: text).length - 1)
        (front ++ d :: (text ++ c :: back)) := by
  have hlt : (front.length : Int) < (front ++ c :: text).length := by
    rw [List.length_append, List.length_cons]
    omega
  have hlen : (front ++ c :: text).length = (front ++ d :: text).length := by
    rw [List.length_append, List.length_append, List.length_cons, List.length_cons]
  have hassoc (x y : Char) :
      front ++ x :: (text ++ y :: back) = (front ++ x :: text) ++ y :: back := by
    rw [List.append_assoc, List.cons_append]
  have hd : charAt (front ++ c :: (text ++ d :: back)) (front ++ c :: text).length = .ok d := by
    rw [hassoc]
    exact charAt_append _ _ _
  have hput : putChar (front ++ d :: (text ++ d :: back)) (front ++ c :: text).length c =
      .ok (front ++ d :: (text ++ c :: back)) := by
    rw [hlen, hassoc, putChar_append, hassoc]
  rw [reverseLoop, if_pos hlt, charAt_append, ok_bind, hd, ok_bind, putChar_append, ok_bind, hput,
    ok_bind]

/-- The cursors of `reverse` start at the two ends of a text: it is turned around. -/
theorem reverseLoop_eq (front text back : List Char) :
    reverseLoop front.length (front.length + text.length - 1 : Int) (front ++ (text ++ back)) =
      .ok (front ++ (text.reverse ++ back)) := by
  induction text using List.bidirectionalRec generalizing front back with
  | nil =>
      rw [reverseLoop, if_neg (by rw [List.length_nil]; omega)]
      rfl
  | singleton c =>
      rw [reverseLoop, if_neg (by rw [List.length_singleton]; omega)]
      rfl
  | cons_append c text d ih =>
      -- the outer two are swapped, and the cursors are at the ends of the rest
      have hj : ((front.length : Int) + (c :: (text ++ [d])).length - 1) =
          (front ++ c :: text).length := by
        simp only [List.length_cons, List.length_append, List.length_nil]
        omega
      have hi : (front.length : Int) + 1 = (front ++ [d]).length := by
        rw [List.length_append]
        rfl
      have hends : ((front ++ c :: text).length : Int) - 1 =
          (front ++ [d]).length + text.length - 1 := by
        simp only [List.length_append, List.length_cons, List.length_nil]
        omega
      have hrest := ih (front ++ [d]) (c :: back)
      rw [List.append_assoc, List.append_assoc] at hrest
      have hswap := reverseLoop_swap front text back c d
      rw [hi, hends] at hswap
      rw [hj, List.cons_append, List.append_assoc]
      refine hswap.trans (hrest.trans ?_)
      simp

/-- A text is read up to the NUL behind it. -/
theorem stringAt_append_nul {text : List Char} (back : List Char) (hnul : '\x00' ∉ text) :
    stringAt (text ++ '\x00' :: back) 0 = .ok text := by
  have hdrop : (text ++ '\x00' :: back).drop 0 = padded (text.length + 1) text ++ back := by
    rw [padded_of_le (Nat.le_add_right _ 1), Nat.add_sub_cancel_left]
    simp
  exact stringAt_eq hdrop hnul (Nat.lt_succ_self _)

/-- The text up to the NUL is turned around. -/
theorem reverse_eq {text : List Char} (back : List Char) (hnul : '\x00' ∉ text)
    (hlen : text.length < 2147483648) :
    reverse (text ++ '\x00' :: back) = .ok (text.reverse ++ '\x00' :: back) := by
  have hstring := stringAt_append_nul back hnul
  have hcursor : ((text.length : Int) - 1).bmod 4294967296 = (text.length : Int) - 1 := by
    apply Int.bmod_eq_of_le <;> omega
  have hloop := reverseLoop_eq [] text ('\x00' :: back)
  rw [List.length_nil, Int.natCast_zero, Int.zero_add, List.nil_append, List.nil_append] at hloop
  rw [reverse, hstring, ok_bind, hcursor, hloop]

/-! ## The digits -/

theorem lastDigit_natCast (n : Nat) : lastDigit n = Nat.digitChar (n % 10) := by
  have hdigit : ∀ d : Fin 10, Char.ofNat (d.val + 48) = Nat.digitChar d := by decide
  have hmod : (n : Int).tmod 10 + 48 = ((n % 10 + 48 : Nat) : Int) := by
    rw [Int.tmod_eq_emod_of_nonneg (Int.natCast_nonneg n)]
    omega
  rw [lastDigit, hmod, Int.toNat_natCast]
  exact hdigit ⟨n % 10, Nat.mod_lt n (by decide)⟩

/-- The last round of the loop. -/
theorem itoaLoop_single (front back : List Char) (c : Char) {d : Nat} (hd : d < 10) :
    itoaLoop d front.length (front ++ c :: back) =
      .ok (front.length + 1, front ++ Nat.digitChar d :: back) := by
  have hlast : lastDigit d = Nat.digitChar d := by
    rw [lastDigit_natCast, Nat.mod_eq_of_lt hd]
  have hdone : ¬ 0 < (d : Int).tdiv 10 := fun h ↦ by
    have hquot := tdiv_ten_of_pos h
    omega
  rw [itoaLoop, putChar_append, ok_bind, dif_neg hdone, hlast]
  rfl

/-- A round of the loop with more to come: it writes the last digit. -/
theorem itoaLoop_digit (front back : List Char) (c : Char) {n d : Nat} (hd : d < 10)
    (hn : 0 < n) :
    itoaLoop ((10 * n + d : Nat) : Int) front.length (front ++ c :: back) =
      itoaLoop n (front.length + 1) (front ++ Nat.digitChar d :: back) := by
  have hlast : lastDigit ((10 * n + d : Nat) : Int) = Nat.digitChar d := by
    rw [lastDigit_natCast, Nat.mul_add_mod, Nat.mod_eq_of_lt hd]
  have hquot : ((10 * n + d : Nat) : Int).tdiv 10 = (n : Int) := by
    rw [Int.tdiv_eq_ediv_of_nonneg (Int.natCast_nonneg _)]
    omega
  have hmore : 0 < ((10 * n + d : Nat) : Int).tdiv 10 := by
    rw [hquot]
    omega
  rw [itoaLoop, putChar_append, ok_bind, dif_pos hmore, hquot, hlast]

/-- The loop writes the digits of a number, the last one first. -/
theorem itoaLoop_eq (n : Nat) (front array back : List Char)
    (harray : array.length = (Nat.toDigits 10 n).length) :
    itoaLoop n front.length (front ++ (array ++ back)) =
      .ok ((front ++ Nat.toDigits 10 n).length,
        front ++ ((Nat.toDigits 10 n).reverse ++ back)) := by
  induction n using Nat.base_induction 10 (by decide) generalizing front array with
  | single d hd =>
      rw [Nat.toDigits_of_lt_base hd] at harray ⊢
      obtain ⟨c, rfl⟩ := List.length_eq_one_iff.mp harray
      rw [List.singleton_append, itoaLoop_single front back c hd, List.length_append]
      rfl
  | digit n d hd hn ih =>
      rw [← Nat.toDigits_append_toDigits (by decide) hn hd, Nat.toDigits_of_lt_base hd] at harray ⊢
      rw [List.length_append, List.length_singleton] at harray
      obtain ⟨c, array, rfl⟩ := List.exists_cons_of_length_eq_add_one harray
      have hi : (front.length : Int) + 1 = (front ++ [Nat.digitChar d]).length := by
        rw [List.length_append]
        rfl
      have hrest := ih (front ++ [Nat.digitChar d]) array (by simpa using harray)
      rw [List.append_assoc] at hrest
      rw [List.cons_append, itoaLoop_digit front (array ++ back) c hd hn, hi]
      refine hrest.trans ?_
      simp [Nat.add_comm]

/-- A `long`. -/
def IsLong (p : Platform) (n : Int) : Prop :=
  -(2 ^ (8 * p.psize - 1) : Nat) ≤ n ∧ n < (2 ^ (8 * p.psize - 1) : Nat)

/-- The text is short. -/
theorem length_itoa_lt {p : Platform} {n : Int} (h : IsLong p n) : (itoa n).length ≤ 20 := by
  apply length_itoa_le (k := 19) (by decide)
  obtain ⟨hlow, hhigh⟩ := h
  rcases p.psize_eq with hp | hp <;> rw [hp] at hlow hhigh <;> omega

theorem nul_notMem_itoa (n : Int) : '\x00' ∉ itoa n := by
  intro h
  rcases mem_itoa h with h | h <;> cases h

/-- An array splits at an index within it. -/
theorem exists_split {s : List Char} {k : Nat} (h : k < s.length) :
    ∃ array c, s = array ++ c :: s.drop (k + 1) ∧ array.length = k := by
  refine ⟨s.take k, s[k], ?_, List.length_take_of_le (Nat.le_of_lt h)⟩
  rw [← List.drop_eq_getElem_cons h, List.take_append_drop]

/-- What `itoa` does for each sign: the digits, the sign, and the text turned around. -/
theorem itoaBuf_of_abs {p : Platform} {n : Int}
    (habs : (if n < 0 then asLong p (-n) else n) = n.natAbs) {array back : List Char} {c : Char}
    (harray : array.length = (itoa n).length) (hshort : (itoa n).length < 2147483648) :
    itoaBuf p n (array ++ c :: back) = .ok (itoa n ++ '\x00' :: back) := by
  have hnul : '\x00' ∉ (itoa n).reverse := by
    rw [List.mem_reverse]
    exact nul_notMem_itoa n
  have hend := reverse_eq back hnul (by rwa [List.length_reverse])
  rw [List.reverse_reverse] at hend
  have hloop := itoaLoop_eq n.natAbs []
  simp only [List.nil_append, List.length_nil, Int.natCast_zero] at hloop
  rw [itoaBuf]
  simp only [habs]
  by_cases h : n < 0
  · have hitoa : itoa n = '-' :: Nat.toDigits 10 n.natAbs := by rw [itoa, if_pos h]
    rw [hitoa, List.length_cons] at harray
    rw [hitoa, List.reverse_cons] at hend
    obtain ⟨front, d, rfl⟩ : ∃ front d, array = front ++ [d] :=
      ⟨_, _, (List.dropLast_concat_getLast (List.ne_nil_of_length_eq_add_one harray)).symm⟩
    rw [List.length_append, List.length_singleton, Nat.add_right_cancel_iff] at harray
    have hsign : putSign n (Nat.toDigits 10 n.natAbs).length
        ((Nat.toDigits 10 n.natAbs).reverse ++ d :: (c :: back)) =
        .ok (((Nat.toDigits 10 n.natAbs).reverse ++ ['-']).length,
          ((Nat.toDigits 10 n.natAbs).reverse ++ ['-']) ++ c :: back) := by
      have hput := putChar_append (Nat.toDigits 10 n.natAbs).reverse (c :: back) d '-'
      rw [List.length_reverse] at hput
      rw [putSign, if_pos h, hput]
      simp
    rw [List.append_assoc, hloop front _ harray, ok_bind]
    simp only [List.singleton_append]
    rw [hsign, ok_bind, putChar_append, ok_bind, hend, hitoa]
  · have hitoa : itoa n = Nat.toDigits 10 n.natAbs := by rw [itoa, if_neg h]
    rw [hitoa] at harray hend
    have hput := putChar_append (Nat.toDigits 10 n.natAbs).reverse back c '\x00'
    rw [List.length_reverse] at hput
    rw [hloop array _ harray, ok_bind]
    simp only [putSign, if_neg h, pure_eq_ok, ok_bind]
    rw [hput, ok_bind, hend, hitoa]

/-- A number that is negated within the `long`s is taken for its absolute value. -/
theorem asLong_neg {p : Platform} {n : Int} (hlong : IsLong p n)
    (hneg : n ≠ -(2 ^ (8 * p.psize - 1) : Nat)) :
    (if n < 0 then asLong p (-n) else n) = n.natAbs := by
  obtain ⟨hlow, hhigh⟩ := hlong
  split
  next h =>
    have habs : -n = (n.natAbs : Int) := by omega
    rw [habs, asLong]
    rcases p.psize_eq with hp | hp <;> rw [hp] at hlow hhigh hneg ⊢ <;>
      apply Int.bmod_eq_of_le <;> omega
  next h => omega

/-- `itoa` leaves the text of the number and a NUL at the front of an array with room for them. -/
theorem itoaBuf_eq {p : Platform} {n : Int} (hlong : IsLong p n)
    (hneg : n ≠ -(2 ^ (8 * p.psize - 1) : Nat)) {s : List Char}
    (hroom : (itoa n).length < s.length) :
    itoaBuf p n s = .ok (itoa n ++ '\x00' :: s.drop ((itoa n).length + 1)) := by
  obtain ⟨array, c, hs, harray⟩ := exists_split hroom
  have hshort : (itoa n).length < 2147483648 :=
    Nat.lt_of_le_of_lt (length_itoa_lt hlong) (by decide)
  have hbuf : itoaBuf p n (array ++ c :: s.drop ((itoa n).length + 1)) =
      .ok (itoa n ++ '\x00' :: s.drop ((itoa n).length + 1)) :=
    itoaBuf_of_abs (asLong_neg hlong hneg) harray hshort
  rwa [← hs] at hbuf

/-! ## The canonical text of a number -/

/-- The decimal representation of a number: a minus sign where it is negative, then digits that do
not begin with zero unless there is no other, and that have its absolute value. -/
def Canonical (n : Int) (text : List Char) : Prop :=
  ∃ digits, text = (if n < 0 then ['-'] else []) ++ digits ∧ digits ≠ [] ∧
    (∀ c ∈ digits, c.isDigit = true) ∧ (digits.head? = some '0' → digits = ['0']) ∧
    Nat.ofDigitChars 10 digits 0 = n.natAbs

theorem head?_toDigits_ne {n : Nat} (h : 0 < n) : (Nat.toDigits 10 n).head? ≠ some '0' := by
  induction n using Nat.base_induction 10 (by decide) with
  | single d hd =>
      rw [Nat.toDigits_of_lt_base hd, List.head?_cons]
      intro hzero
      exact Nat.ne_of_gt h (Nat.digitChar_eq_zero.mp (Option.some.inj hzero))
  | digit n d hd hn ih =>
      rw [← Nat.toDigits_append_toDigits (by decide) hn hd,
        List.head?_append_of_ne_nil _ Nat.toDigits_ne_nil]
      exact ih hn

theorem canonical_itoa (n : Int) : Canonical n (itoa n) := by
  refine ⟨Nat.toDigits 10 n.natAbs, ?_, Nat.toDigits_ne_nil,
    fun c ↦ Nat.isDigit_of_mem_toDigits (by decide) (by decide), fun hzero ↦ ?_,
    Nat.ofDigitChars_ten_toDigits⟩
  · rw [itoa]
    split <;> rfl
  · by_contra hne
    refine head?_toDigits_ne (Nat.pos_of_ne_zero fun h ↦ hne ?_) hzero
    rw [h]
    rfl

theorem exists_digitChar {c : Char} (h : c.isDigit = true) : ∃ d < 10, c = Nat.digitChar d := by
  have hrange : 48 ≤ c.toNat ∧ c.toNat ≤ 57 := Char.isDigit_iff_toNat.mp h
  have hlt : c.toNat - 48 < 10 := by omega
  refine ⟨c.toNat - 48, hlt, Char.toNat_inj.mp ?_⟩
  rw [Nat.toNat_digitChar_of_lt_ten hlt]
  omega

/-- Digits that do not begin with zero are those of the number they make. -/
theorem toDigits_ofDigitChars {digits : List Char} (hne : digits ≠ [])
    (hdigits : ∀ c ∈ digits, c.isDigit = true) (hzero : digits.head? = some '0' → digits = ['0']) :
    Nat.toDigits 10 (Nat.ofDigitChars 10 digits 0) = digits := by
  induction digits using List.reverseRecOn with
  | nil => exact absurd rfl hne
  | append_singleton digits c ih =>
      obtain ⟨d, hd, rfl⟩ := exists_digitChar (hdigits c (List.mem_append_right _ (.head _)))
      rw [Nat.ofDigitChars_append, Nat.ofDigitChars_cons_digitChar_of_lt_ten hd,
        Nat.ofDigitChars_nil]
      by_cases hnil : digits = []
      · rw [hnil, Nat.ofDigitChars_nil, Nat.mul_zero, Nat.zero_add, Nat.toDigits_of_lt_base hd]
        rfl
      · have hlead : digits.head? ≠ some '0' := by
          intro h
          have hone := congrArg List.length
            (hzero (by rwa [List.head?_append_of_ne_nil _ hnil]))
          rw [List.length_append, List.length_singleton, List.length_singleton] at hone
          exact hnil (List.length_eq_zero_iff.mp (by omega))
        have hfront := ih hnil (fun c hc ↦ hdigits c (List.mem_append_left _ hc))
          fun h ↦ absurd h hlead
        have hpos : 0 < Nat.ofDigitChars 10 digits 0 := by
          apply Nat.pos_of_ne_zero
          intro h
          rw [h] at hfront
          apply hlead
          rw [← hfront]
          rfl
        rw [← Nat.toDigits_append_toDigits (by decide) hpos hd, hfront,
          Nat.toDigits_of_lt_base hd]

/-- There is one such text. -/
theorem canonical_iff {n : Int} {text : List Char} : Canonical n text ↔ text = itoa n := by
  constructor
  · rintro ⟨digits, rfl, hne, hdigits, hzero, habs⟩
    rw [itoa, ← habs, toDigits_ofDigitChars hne hdigits hzero]
    split <;> rfl
  · rintro rfl
    exact canonical_itoa n

/-! ## The name of a zone -/

/-- `char sd_srcname[MAX_LINK_NAMELEN]`, cleared by `memset`. -/
def sdSrcname : List Char := List.replicate 32 '\x00'

theorem IsInt.isLong {n : Int} (h : IsInt n) (p : Platform) : IsLong p n := by
  obtain ⟨hlow, hhigh⟩ := h
  rcases p.psize_eq with hp | hp <;> rw [IsLong, hp] <;> constructor <;> omega

/-- The most negative number, where a `long` is no wider: it is its own negation, and the one
remainder that the loop writes is negative. -/
theorem itoaBuf_min {p : Platform} (hp : p.psize = 4) :
    itoaBuf p (-2147483648) sdSrcname = .ok (padded 32 ['-', '(']) := by
  have hneg : asLong p (- -2147483648) = -2147483648 := by
    rw [asLong, hp]
    rfl
  have hquot : ¬ (0 : Int) < (-2147483648 : Int).tdiv 10 := by decide
  have hdigit : putChar sdSrcname 0 (lastDigit (-2147483648)) = .ok ('(' :: sdSrcname.drop 1) := rfl
  have hloop : itoaLoop (-2147483648) 0 sdSrcname = .ok (1, '(' :: sdSrcname.drop 1) := by
    rw [itoaLoop, hdigit, ok_bind, dif_neg hquot]
    rfl
  have hsign : putSign (-2147483648) 1 ('(' :: sdSrcname.drop 1) =
      .ok (2, '(' :: '-' :: sdSrcname.drop 2) := rfl
  have hnul : putChar ('(' :: '-' :: sdSrcname.drop 2) 2 '\x00' =
      .ok (['(', '-'] ++ '\x00' :: sdSrcname.drop 3) := rfl
  rw [itoaBuf]
  simp only [if_pos (show (-2147483648 : Int) < 0 by decide), hneg]
  rw [hloop, ok_bind]
  simp only [hsign, ok_bind, hnul]
  rw [reverse_eq _ (by decide) (by decide)]
  rfl

/-- Every number of a zone ends in the name: where a `long` is as wide as the number the most
negative one has no negation, and its text is a sign behind one character. -/
theorem itoaBuf_sdSrcname (p : Platform) {z : Int} (hz : IsInt z) :
    ∃ text, itoaBuf p z sdSrcname = .ok (padded 32 text) ∧ '\x00' ∉ text ∧ text.length < 32 := by
  have hlong := hz.isLong p
  by_cases hneg : z = -(2 ^ (8 * p.psize - 1) : Nat)
  · obtain ⟨hlow, -⟩ := hz
    rcases p.psize_eq with hp | hp
    · rw [hp] at hneg
      have hmin : z = -2147483648 := by omega
      rw [hmin]
      exact ⟨['-', '('], itoaBuf_min hp, by decide, by decide⟩
    · rw [hp] at hneg
      omega
  · have hlen : (itoa z).length < 32 := Nat.lt_of_le_of_lt (length_itoa_lt hlong) (by decide)
    have hname : sdSrcname = List.replicate 32 '\x00' := rfl
    refine ⟨itoa z, ?_, nul_notMem_itoa z, hlen⟩
    rw [itoaBuf_eq hlong hneg (by rw [sdSrcname, List.length_replicate]; exact hlen),
      append_nul_drop hlen (.inl hname)]

/-- What the pipeline reads from the name is the number of the zone. -/
theorem atoi_sdSrcname {p : Platform} {z : Int} (hz : IsInt z)
    (hneg : z ≠ -(2 ^ (8 * p.psize - 1) : Nat)) :
    ∃ srcname, itoaBuf p z sdSrcname = .ok srcname ∧ stringAt srcname 0 = .ok (itoa z) ∧
      atoi (itoa z) = z := by
  have hlong := hz.isLong p
  have hlen : (itoa z).length < 32 := Nat.lt_of_le_of_lt (length_itoa_lt hlong) (by decide)
  have hname : sdSrcname = List.replicate 32 '\x00' := rfl
  refine ⟨_, itoaBuf_eq hlong hneg (by rw [sdSrcname, List.length_replicate]; exact hlen), ?_,
    atoi_itoa hz⟩
  rw [append_nul_drop hlen (.inl hname)]
  exact stringAt_eq (List.append_nil _).symm (nul_notMem_itoa z) hlen

/-- `itoa` writes the canonical text of every `long` but the most negative one, closed by a NUL,
into an array that has room for it; `atoi` reads it back where the number is an `int`; and the name
of a source has room for the number of every zone. -/
theorem itoaBuf_canonical (p : Platform) {n : Int} (hlong : IsLong p n)
    (hneg : n ≠ -(2 ^ (8 * p.psize - 1) : Nat)) :
    (∃ text, Canonical n text ∧ '\x00' ∉ text ∧ (IsInt n → atoi text = n) ∧
      ∀ s, text.length < s.length →
        ∃ s', itoaBuf p n s = .ok s' ∧ s' = text ++ '\x00' :: s.drop (text.length + 1) ∧
          stringAt s' 0 = .ok text) ∧
    ∀ z, IsInt z → ∃ text, itoaBuf p z sdSrcname = .ok (padded 32 text) ∧ '\x00' ∉ text ∧
      text.length < 32 := by
  refine ⟨⟨itoa n, canonical_itoa n, nul_notMem_itoa n, fun hn ↦ atoi_itoa hn, fun s hs ↦ ?_⟩,
    fun z hz ↦ itoaBuf_sdSrcname p hz⟩
  refine ⟨_, itoaBuf_eq hlong hneg hs, rfl, stringAt_append_nul _ (nul_notMem_itoa n)⟩

theorem itoaBuf_canonical_neg :
    ∃ text, Canonical (-120) text ∧ text = ['-', '1', '2', '0'] := by
  obtain ⟨⟨text, htext, -⟩, -⟩ := itoaBuf_canonical .amd64
    (n := -120) (by constructor <;> decide) (by decide)
  exact ⟨text, htext, canonical_iff.mp htext⟩

end Sflow

import Sflow.Protocol.Queries

/-!
# The text of a MAC address

Six bytes between colons, each one hexadecimal digit or two, as the property
`mac-address` of a datalink gives it.  `mac_convert_str_to_char` finds the six bytes
in such a text, whatever `mac_int` held before.
-/

namespace Sflow

open C

/-- One hexadecimal digit or two. -/
structure HexByte where
  digits : List Char
  length_pos : 0 < digits.length
  length_le : digits.length ≤ 2
  isHex : ∀ c ∈ digits, (hexDigit c).isSome

/-- The number that hexadecimal digits make. -/
def ofHexDigits (digits : List Char) : Nat :=
  digits.foldl (fun n c => 16 * n + (hexDigit c).getD 0) 0

def HexByte.value (b : HexByte) : UInt8 := UInt8.ofNat (ofHexDigits b.digits)

/-- The text of an address. -/
def macText : List HexByte → List Char
  | [] => []
  | [b] => b.digits
  | b :: b' :: bs => b.digits ++ ':' :: macText (b' :: bs)

/-! ## Digits -/

theorem readHex_digits {digits rest : List Char} (hdigits : ∀ c ∈ digits, (hexDigit c).isSome)
    (hrest : ∀ c ∈ rest.head?, hexDigit c = none) (n : Nat) :
    readHex n (digits ++ rest) =
      (digits.foldl (fun n c => 16 * n + (hexDigit c).getD 0) n, rest) := by
  induction digits generalizing n with
  | nil =>
      cases rest with
      | nil => rfl
      | cons c rest =>
          have hc : hexDigit c = none := hrest c rfl
          rw [List.nil_append, readHex, hc]
          rfl
  | cons c digits ih =>
      obtain ⟨d, hd⟩ := Option.isSome_iff_exists.mp (hdigits c List.mem_cons_self)
      rw [List.cons_append, readHex, hd, List.foldl_cons, hd, Option.getD_some]
      exact ih (fun c' hc' ↦ hdigits c' (List.mem_cons_of_mem _ hc')) _

/-- A character that is no digit. -/
theorem ne_of_isSome_hexDigit {c c' : Char} (h : (hexDigit c).isSome) (h' : hexDigit c' = none) :
    c ≠ c' := by
  rintro rfl
  rw [h'] at h
  cases h

theorem isSpace_of_isSome_hexDigit {c : Char} (h : (hexDigit c).isSome) : isSpace c = false := by
  refine decide_eq_false fun hmem ↦ ?_
  simp only [List.mem_cons, List.not_mem_nil, or_false] at hmem
  rcases hmem with rfl | rfl | rfl | rfl | rfl | rfl <;> cases h

/-- A text that begins with a digit has neither blanks nor a sign in front, and no `0x` if the
letter does not follow. -/
theorem scanHex_cons {c : Char} {s : List Char} (hc : (hexDigit c).isSome)
    (hsecond : ∀ c' ∈ s.head?, c' ≠ 'x' ∧ c' ≠ 'X') :
    scanHex (c :: s) = some (UInt32.ofNat (readHex 0 (c :: s)).1, (readHex 0 (c :: s)).2) := by
  have hspace : (c :: s).dropWhile isSpace = c :: s := by
    rw [List.dropWhile_cons_of_neg]
    rw [isSpace_of_isSome_hexDigit hc]
    exact Bool.false_ne_true
  have hminus : ∀ s', c :: s ≠ '-' :: s' :=
    fun s' h ↦ ne_of_isSome_hexDigit hc rfl (List.cons.inj h).1
  have hplus : ∀ s', c :: s ≠ '+' :: s' :=
    fun s' h ↦ ne_of_isSome_hexDigit hc rfl (List.cons.inj h).1
  have hx : ∀ s', c :: s ≠ '0' :: 'x' :: s' :=
    fun s' h ↦ absurd rfl (hsecond 'x' (by rw [(List.cons.inj h).2]; rfl)).1
  have hX : ∀ s', c :: s ≠ '0' :: 'X' :: s' :=
    fun s' h ↦ absurd rfl (hsecond 'X' (by rw [(List.cons.inj h).2]; rfl)).2
  rw [scanHex, hspace]
  -- none of the patterns applies
  simp only
  rw [if_pos hc, if_neg Bool.false_ne_true, ofInt_natCast]

/-- `%x` reads one digit or two, as long as none follows. -/
theorem scanHex_digits (b : HexByte) (rest : List Char) (hrest : ∀ c ∈ rest.head?, c = ':') :
    scanHex (b.digits ++ rest) = some (UInt32.ofNat (ofHexDigits b.digits), rest) := by
  obtain ⟨digits, hpos, hle, hhex⟩ := b
  obtain ⟨c, tail, rfl⟩ := List.exists_cons_of_length_pos hpos
  have hnone : ∀ c' ∈ rest.head?, hexDigit c' = none := by
    intro c' hc'
    rw [hrest c' hc']
    rfl
  have hsecond : ∀ c' ∈ (tail ++ rest).head?, c' ≠ 'x' ∧ c' ≠ 'X' := by
    intro c' hc'
    cases tail with
    | nil =>
        rw [hrest c' hc']
        decide
    | cons d tail =>
        obtain rfl : d = c' := Option.some.inj hc'
        have hd : (hexDigit d).isSome := hhex d (List.mem_cons_of_mem _ List.mem_cons_self)
        exact ⟨ne_of_isSome_hexDigit hd rfl, ne_of_isSome_hexDigit hd rfl⟩
  have hread := readHex_digits hhex hnone 0
  rw [List.cons_append] at hread ⊢
  rw [scanHex_cons (hhex c List.mem_cons_self) hsecond, hread]
  rfl

/-- The numbers are found that the bytes stand for. -/
theorem sscanfMac_macText (bs : List HexByte) :
    sscanfMac bs.length (macText bs) = bs.map fun b => UInt32.ofNat (ofHexDigits b.digits) := by
  induction bs with
  | nil => rfl
  | cons b bs ih =>
      cases bs with
      | nil =>
          have hscan := scanHex_digits b [] nofun
          rw [List.append_nil] at hscan
          rw [macText, List.length_singleton, sscanfMac, hscan]
          rfl
      | cons b' bs =>
          have hscan := scanHex_digits b (':' :: macText (b' :: bs))
            fun c hc ↦ (Option.some.inj hc).symm
          rw [macText, List.length_cons, sscanfMac, hscan, List.map_cons, ← ih]
          rfl

/-- Whatever `mac_int` held, the bytes are those of the text. -/
theorem macConvertStrToChar_macText (mac : Vector HexByte 6) (macInt : Vector UInt32 6) :
    macConvertStrToChar (macText mac.toList) macInt = mac.map (·.value) := by
  have hscan := sscanfMac_macText mac.toList
  rw [Vector.length_toList] at hscan
  apply Vector.ext
  intro i hi
  have hget : (mac.toList.map fun b => UInt32.ofNat (ofHexDigits b.digits))[(⟨i, hi⟩ : Fin 6)]? =
      some (UInt32.ofNat (ofHexDigits mac[i].digits)) := by
    change (mac.toList.map fun b => UInt32.ofNat (ofHexDigits b.digits))[i]? = _
    rw [List.getElem?_map, Vector.getElem?_toList, Vector.getElem?_eq_getElem hi, Option.map_some]
  rw [macConvertStrToChar, Vector.getElem_ofFn, hscan, hget, Vector.getElem_map, Option.getD_some,
    HexByte.value]
  exact UInt32.toUInt8_ofNat' _

theorem nul_notMem_macText (bs : List HexByte) : '\x00' ∉ macText bs := by
  have hdigits : ∀ b : HexByte, '\x00' ∉ b.digits := fun b hmem ↦ by cases b.isHex _ hmem
  induction bs with
  | nil => exact List.not_mem_nil
  | cons b bs ih =>
      cases bs with
      | nil => exact hdigits b
      | cons b' bs =>
          rw [macText, List.mem_append, List.mem_cons, not_or, not_or]
          exact ⟨hdigits b, by decide, ih⟩

end Sflow

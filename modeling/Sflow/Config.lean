import Mathlib.Data.List.Infix
import Sflow.C.Str
import Sflow.Util

/-!
# The configuration file

`sflow_load_cfg`: every line of `sflow_cfg` is searched for two keywords, and the values
behind them are scanned into the destination of the collector.  The address is scanned
with `%s`, which stops at white space and not at the bracket that closes the value, so
what is stored is never the address: it begins with the address and a bracket.

The lines that match are logged too; the log is left out.
-/

namespace Sflow

open C

/-! ## The code -/

/-- `SF_NO_CFG_FILE`. -/
def sfNoCfgFile : Int := -2

/-- `SF_BAD_CFG_FILE`. -/
def sfBadCfgFile : Int := -4

/-- `collector_dest_t`. -/
structure CollectorDest where
  ipv4 : List Char
  port : UInt32
deriving DecidableEq

/-- `calloc(1, sizeof (collector_dest_t))`. -/
def CollectorDest.zero : CollectorDest := ⟨List.replicate 32 '\x00', 0⟩

/-- `fgets`, with room for `n` characters: the line read and the rest of the file. -/
def fgets : Nat → List Char → List Char × List Char
  | 0, file => ([], file)
  | _ + 1, [] => ([], [])
  | n + 1, c :: file =>
      if c = '\n' then ([c], file) else (c :: (fgets n file).1, (fgets n file).2)

theorem length_fgets_le (n : Nat) (file : List Char) : (fgets n file).2.length ≤ file.length := by
  induction n generalizing file with
  | zero => exact Nat.le_refl _
  | succ n ih =>
      cases file with
      | nil => exact Nat.le_refl _
      | cons c file =>
          rw [fgets]
          split
          · exact Nat.le_succ _
          · exact Nat.le_succ_of_le (ih file)

/-- The lines that `while (fgets(line, sizeof (line), sflow_cfg_file) != NULL)` goes through. -/
def cfgLines : List Char → List (List Char)
  | [] => []
  | c :: file => (fgets 127 (c :: file)).1 :: cfgLines (fgets 127 (c :: file)).2
termination_by file => file.length
decreasing_by
  rw [fgets]
  split
  · exact Nat.lt_succ_self _
  · exact Nat.lt_succ_of_le (length_fgets_le 126 file)

/-- The string in a line. -/
def cString (line : List Char) : List Char := line.takeWhile (· ≠ '\x00')

/-- Literal characters of a format: white space stands for white space of any length. -/
def scanLiteral : List Char → List Char → Option (List Char)
  | [], s => some s
  | f :: format, s =>
      if isSpace f then scanLiteral format (s.dropWhile isSpace)
      else
        match s with
        | [] => none
        | c :: s => if c = f then scanLiteral format s else none

/-- `%s`: the characters up to the next white space, if there are any. -/
def scanString (s : List Char) : Option (List Char) :=
  match (s.dropWhile isSpace).takeWhile (fun c => !isSpace c) with
  | [] => none
  | c :: text => some (c :: text)

def skipSign : List Char → List Char
  | '-' :: s => s
  | '+' :: s => s
  | s => s

/-- `%d`: a sign and digits, if there are any. -/
def scanInt (s : List Char) : Option Int :=
  match skipSign (s.dropWhile isSpace) with
  | [] => none
  | c :: _ => if c.isDigit then some (decimalValue s) else none

/-- A string and its NUL are stored at the front of an array. -/
def storeString (array text : List Char) : Except Fault (List Char) :=
  if text.length < array.length then .ok (text ++ '\x00' :: array.drop (text.length + 1))
  else .error .outOfBounds

def ipv4Keyword : List Char := "Collector IPv4:".toList

def portKeyword : List Char := "Collector Port:".toList

/-- `sscanf(line, "Collector IPv4:[%s]", &collector_dest->ipv4)`.  The bracket behind the conversion
has no effect any more. -/
def scanIpv4 (dest : CollectorDest) (line : List Char) : Except Fault CollectorDest :=
  match (scanLiteral (ipv4Keyword ++ ['[']) line).bind scanString with
  | some text => do
      let ipv4 ← storeString dest.ipv4 text
      return { dest with ipv4 }
  | none => .ok dest

/-- `sscanf(line, "Collector Port:[%d]", &collector_dest->port)`. -/
def scanPort (dest : CollectorDest) (line : List Char) : CollectorDest :=
  match (scanLiteral (portKeyword ++ ['[']) line).bind scanInt with
  | some port => { dest with port := UInt32.ofInt port }
  | none => dest

/-- The body of the loop. -/
def loadLine (dest : CollectorDest) (line : List Char) : Except Fault CollectorDest := do
  let dest ← if ipv4Keyword <:+: cString line then scanIpv4 dest (cString line) else .ok dest
  if portKeyword <:+: cString line then return scanPort dest (cString line) else return dest

/-- `sflow_load_cfg`, with `collector_dest` as it was and the file, if there is one. -/
def sflowLoadCfg (collectorDest : Option CollectorDest) (cfgFile : Option (List Char)) :
    Except Fault (Int × Option CollectorDest) :=
  match cfgFile with
  | none => .ok (sfNoCfgFile, collectorDest)
  | some file => do
      let dest ← (cfgLines file).foldlM loadLine .zero
      if dest.ipv4.head? = some '\x00' ∨ dest.port = 0 then return (sfBadCfgFile, some dest)
      else return (0, some dest)

/-! ## Configuration files -/

/-- An address in dotted decimal. -/
structure DottedQuad where
  a : UInt8
  b : UInt8
  c : UInt8
  d : UInt8

def DottedQuad.text (q : DottedQuad) : List Char :=
  itoa q.a.toNat ++ '.' :: (itoa q.b.toNat ++ '.' :: (itoa q.c.toNat ++ '.' :: itoa q.d.toNat))

/-- The address with the bracket behind it. -/
def DottedQuad.closed (q : DottedQuad) : List Char := q.text ++ [']']

/-- A line of a configuration file: one of the two settings, whatever follows it, or anything
else. -/
inductive CfgLine where
  | ipv4 (rest : List Char)
  | port (rest : List Char)
  | other (text : List Char)

def CfgLine.text (addr : DottedQuad) (port : Nat) : CfgLine → List Char
  | .ipv4 rest => ipv4Keyword ++ '[' :: (addr.text ++ ']' :: rest)
  | .port rest => portKeyword ++ '[' :: (itoa port ++ ']' :: rest)
  | .other text => text

/-- A file of short lines with both settings, in which no other line contains a keyword.  The last
line may be one that no newline ends. -/
structure CfgFile where
  addr : DottedQuad
  port : Nat
  lines : List CfgLine
  last : Option CfgLine
  port_pos : 0 < port
  port_lt : port < 65536
  length_lt : ∀ line ∈ lines ++ last.toList, (line.text addr port).length < 127
  newline_notMem : ∀ line ∈ lines ++ last.toList, '\n' ∉ line.text addr port
  last_ne_nil : ∀ line ∈ last, line.text addr port ≠ []
  exists_ipv4 : ∃ rest, .ipv4 rest ∈ lines ++ last.toList
  exists_port : ∃ rest, .port rest ∈ lines ++ last.toList
  no_keyword : ∀ text, .other text ∈ lines ++ last.toList →
    ¬ ipv4Keyword <:+: text ∧ ¬ portKeyword <:+: text

namespace CfgFile

/-- The lines, each with what ends it. -/
def rows (cfg : CfgFile) : List (CfgLine × List Char) :=
  cfg.lines.map (fun line => (line, ['\n'])) ++ cfg.last.toList.map fun line => (line, [])

/-- The characters of a line with what ends it. -/
def row (cfg : CfgFile) (x : CfgLine × List Char) : List Char := x.1.text cfg.addr cfg.port ++ x.2

/-- The characters of the file. -/
def text (cfg : CfgFile) : List Char := cfg.rows.flatMap cfg.row

/-- The file has been loaded: its address and its port are stored. -/
def Loaded (collectorDest : Option CollectorDest) (cfg : CfgFile) : Prop :=
  ∃ dest, sflowLoadCfg collectorDest (some cfg.text) = .ok (0, some dest) ∧
    stringAt dest.ipv4 0 = .ok cfg.addr.text ∧ dest.port.toNat = cfg.port

end CfgFile

/-! ## Reading lines -/

theorem fgets_newline {n : Nat} {line : List Char} (file : List Char) (hlen : line.length < n)
    (hline : '\n' ∉ line) : fgets n (line ++ '\n' :: file) = (line ++ ['\n'], file) := by
  induction n generalizing line with
  | zero => exact absurd hlen (Nat.not_lt_zero _)
  | succ n ih =>
      cases line with
      | nil => exact if_pos rfl
      | cons c line =>
          rw [List.mem_cons, not_or] at hline
          rw [List.cons_append, fgets, if_neg (Ne.symm hline.1),
            ih (Nat.lt_of_succ_lt_succ hlen) hline.2]
          rfl

theorem fgets_last {n : Nat} {line : List Char} (hlen : line.length ≤ n) (hline : '\n' ∉ line) :
    fgets n line = (line, []) := by
  induction n generalizing line with
  | zero =>
      rw [List.length_eq_zero_iff.mp (Nat.le_zero.mp hlen)]
      rfl
  | succ n ih =>
      cases line with
      | nil => rfl
      | cons c line =>
          rw [List.mem_cons, not_or] at hline
          rw [fgets, if_neg (Ne.symm hline.1), ih (Nat.le_of_succ_le_succ hlen) hline.2]

theorem cfgLines_newline {line : List Char} (file : List Char) (hlen : line.length < 127)
    (hline : '\n' ∉ line) :
    cfgLines (line ++ '\n' :: file) = (line ++ ['\n']) :: cfgLines file := by
  have hfgets := fgets_newline file hlen hline
  cases line with
  | nil => rw [List.nil_append, cfgLines, ← List.nil_append ('\n' :: file), hfgets]
  | cons c line => rw [List.cons_append, cfgLines, ← List.cons_append, hfgets]

theorem cfgLines_last {line : List Char} (hlen : line.length < 127) (hline : '\n' ∉ line)
    (hne : line ≠ []) : cfgLines line = [line] := by
  obtain ⟨c, line, rfl⟩ := List.exists_cons_of_ne_nil hne
  rw [cfgLines, fgets_last (Nat.le_of_lt hlen) hline, cfgLines]

/-- Short lines are read one by one. -/
theorem cfgLines_flatMap {lines : List (List Char)} (file : List Char)
    (hlen : ∀ line ∈ lines, line.length < 127) (hline : ∀ line ∈ lines, '\n' ∉ line) :
    cfgLines (lines.flatMap (· ++ ['\n']) ++ file) = lines.map (· ++ ['\n']) ++ cfgLines file := by
  induction lines with
  | nil => rfl
  | cons line lines ih =>
      have hrest := ih (fun l hl ↦ hlen l (.tail _ hl)) fun l hl ↦ hline l (.tail _ hl)
      rw [List.flatMap_cons, List.append_assoc, List.append_assoc, List.singleton_append,
        cfgLines_newline _ (hlen line (.head _)) (hline line (.head _)), hrest]
      rfl

/-! ## Scanning values -/

theorem scanLiteral_ipv4 (s : List Char) :
    scanLiteral (ipv4Keyword ++ ['[']) (ipv4Keyword ++ '[' :: s) = some s := rfl

theorem scanLiteral_port (s : List Char) :
    scanLiteral (portKeyword ++ ['[']) (portKeyword ++ '[' :: s) = some s := rfl

/-- Neither format matches the line of the other setting. -/
theorem scanLiteral_ipv4_port (s : List Char) :
    scanLiteral (ipv4Keyword ++ ['[']) (portKeyword ++ '[' :: s) = none := rfl

theorem scanLiteral_port_ipv4 (s : List Char) :
    scanLiteral (portKeyword ++ ['[']) (ipv4Keyword ++ '[' :: s) = none := rfl

/-- `%s` takes all that is not white space. -/
theorem scanString_append {text : List Char} (s : List Char) (hne : text ≠ [])
    (htext : ∀ c ∈ text, isSpace c = false) :
    scanString (text ++ s) = some (text ++ s.takeWhile fun c => !isSpace c) := by
  obtain ⟨c, text, rfl⟩ := List.exists_cons_of_ne_nil hne
  have hword : ∀ d ∈ c :: text, (!isSpace d) = true := fun d hd ↦ by rw [htext d hd]; rfl
  rw [scanString, List.cons_append, List.dropWhile_cons_of_neg
    (by rw [htext c List.mem_cons_self]; exact Bool.false_ne_true), ← List.cons_append,
    List.takeWhile_append_of_pos hword]
  rfl

/-- Digits are read up to what is none. -/
theorem readDigits_append {s : List Char} {c : Char} (back : List Char)
    (h : ∀ c ∈ s, c.isDigit = true) (hc : c.isDigit = false) (n : Nat) :
    readDigits n (s ++ c :: back) = readDigits n s := by
  induction s generalizing n with
  | nil =>
      have hstop : ¬ c.isDigit = true := by
        rw [hc]
        exact Bool.false_ne_true
      exact if_neg hstop
  | cons d s ih =>
      have hd := h d List.mem_cons_self
      rw [List.cons_append, readDigits, if_pos hd, readDigits, if_pos hd]
      exact ih (fun c hc ↦ h c (List.mem_cons_of_mem _ hc)) _

theorem isDigit_of_mem_itoa {n : Nat} {c : Char} (h : c ∈ itoa n) : c.isDigit = true :=
  Nat.isDigit_of_mem_toDigits (by decide) (by decide) h

theorem itoa_natCast (n : Nat) : itoa n = Nat.toDigits 10 n := if_neg (by omega)

section Digit

variable {c : Char} (s : List Char)

theorem dropWhile_isSpace_digit (h : c.isDigit = true) :
    (c :: s).dropWhile isSpace = c :: s := by
  rw [List.dropWhile_cons, isSpace_of_isDigit h, if_neg Bool.false_ne_true]

theorem skipSign_digit (h : c.isDigit = true) : skipSign (c :: s) = c :: s := by
  rw [skipSign.eq_def]
  split
  · next heq =>
      rw [(List.cons.inj heq).1] at h
      cases h
  · next heq =>
      rw [(List.cons.inj heq).1] at h
      cases h
  · rfl

theorem decimalValue_digit (h : c.isDigit = true) :
    decimalValue (c :: s) = readDigits 0 (c :: s) := by
  rw [decimalValue, dropWhile_isSpace_digit s h]
  split
  · next heq =>
      rw [(List.cons.inj heq).1] at h
      cases h
  · next heq =>
      rw [(List.cons.inj heq).1] at h
      cases h
  · rfl

theorem scanInt_digit (h : c.isDigit = true) :
    scanInt (c :: s) = some ((readDigits 0 (c :: s) : Nat) : Int) := by
  rw [scanInt, dropWhile_isSpace_digit s h, skipSign_digit s h, decimalValue_digit s h]
  exact if_pos h

end Digit

/-- `%d` takes the digits in front of a bracket. -/
theorem scanInt_bracket (n : Nat) (back : List Char) :
    scanInt (itoa n ++ ']' :: back) = some (n : Int) := by
  have hread : readDigits 0 (itoa n ++ ']' :: back) = n := by
    rw [readDigits_append back (fun c ↦ isDigit_of_mem_itoa) rfl, itoa_natCast,
      readDigits_toDigits]
  have hne : itoa n ≠ [] := by
    rw [itoa_natCast]
    exact Nat.toDigits_ne_nil
  obtain ⟨c, s, hs⟩ := List.exists_cons_of_ne_nil hne
  have hc : c.isDigit = true := by
    apply isDigit_of_mem_itoa (n := n)
    rw [hs]
    exact List.mem_cons_self
  rw [hs, List.cons_append] at hread ⊢
  rw [scanInt_digit _ hc, hread]

/-! ## What a line does -/

section Line

variable (addr : DottedQuad) {dest dest' : CollectorDest} {port : Nat}

/-- A keyword that is not in a line is not in its string, with or without the newline. -/
theorem not_infix_cString {keyword text stop : List Char} (h : ¬ keyword <:+: text)
    (hstop : stop = [] ∨ stop = ['\n']) (hne : keyword ≠ []) (hlast : '\n' ∉ keyword) :
    ¬ keyword <:+: cString (text ++ stop) := by
  intro hinfix
  have hline : keyword <:+: text ++ stop := hinfix.trans (List.takeWhile_prefix _).isInfix
  rcases hstop with rfl | rfl
  · rw [List.append_nil] at hline
    exact h hline
  · rcases List.infix_concat_iff.mp hline with ⟨front, hsuffix⟩ | hline
    · -- a suffix of the line would end with the newline
      have hmem : '\n' ∈ keyword := by
        rw [← List.dropLast_concat_getLast hne, ← List.append_assoc] at hsuffix
        have hend := (List.append_inj' hsuffix rfl).2
        rw [List.singleton_inj] at hend
        rw [← hend]
        exact List.getLast_mem hne
      exact hlast hmem
    · exact h hline

theorem loadLine_other {text stop : List Char} (hstop : stop = [] ∨ stop = ['\n'])
    (hipv4 : ¬ ipv4Keyword <:+: text) (hport : ¬ portKeyword <:+: text) :
    loadLine dest (text ++ stop) = .ok dest := by
  have hipv4' := not_infix_cString hipv4 hstop (by decide) (by decide)
  have hport' := not_infix_cString hport hstop (by decide) (by decide)
  rw [loadLine, if_neg hipv4', ok_bind]
  exact if_neg hport'

theorem cString_append {text : List Char} (rest : List Char) (h : '\x00' ∉ text) :
    cString (text ++ rest) = text ++ cString rest := by
  refine List.takeWhile_append_of_pos fun c hc ↦ ?_
  rw [decide_eq_true_eq]
  rintro rfl
  exact h hc

theorem mem_addr_text {addr : DottedQuad} {c : Char} (h : c ∈ addr.text) :
    c = '.' ∨ c.isDigit = true := by
  simp only [DottedQuad.text, List.mem_append, List.mem_cons] at h
  rcases h with h | rfl | h | rfl | h | rfl | h
  all_goals first
    | exact Or.inl rfl
    | exact Or.inr (isDigit_of_mem_itoa h)

theorem isSpace_of_mem_addr {addr : DottedQuad} {c : Char} (h : c ∈ addr.closed) :
    isSpace c = false := by
  rcases List.mem_append.mp h with h | h
  · rcases mem_addr_text h with rfl | h
    · rfl
    · exact isSpace_of_isDigit h
  · rw [List.mem_singleton.mp h]
    rfl

theorem nul_notMem_addr : '\x00' ∉ addr.text := by
  intro h
  rcases mem_addr_text h with h | h <;> cases h

theorem nul_notMem_closed : '\x00' ∉ addr.closed := by
  intro h
  rcases List.mem_append.mp h with h | h
  · exact nul_notMem_addr addr h
  · cases List.mem_singleton.mp h

theorem closed_ne_nil : addr.closed ≠ [] :=
  List.append_ne_nil_of_right_ne_nil _ (List.cons_ne_nil _ _)

theorem cString_ipv4 (rest stop : List Char) :
    cString ((CfgLine.ipv4 rest).text addr port ++ stop) =
      ipv4Keyword ++ '[' :: (addr.closed ++ cString (rest ++ stop)) := by
  have hnul : '\x00' ∉ ipv4Keyword ++ '[' :: addr.closed := by
    rw [List.mem_append, List.mem_cons]
    rintro (h | h | h)
    · revert h
      decide
    · cases h
    · exact nul_notMem_closed addr h
  have happ := cString_append (rest ++ stop) hnul
  simpa [CfgLine.text, DottedQuad.closed] using happ

theorem cString_port (rest stop : List Char) :
    cString ((CfgLine.port rest).text addr port ++ stop) =
      portKeyword ++ '[' :: (itoa port ++ ']' :: cString (rest ++ stop)) := by
  have hnul : '\x00' ∉ portKeyword ++ '[' :: (itoa port ++ [']']) := by
    rw [List.mem_append, List.mem_cons, List.mem_append]
    rintro (h | h | h | h)
    · revert h
      decide
    · cases h
    · cases isDigit_of_mem_itoa h
    · revert h
      decide
  have happ := cString_append (rest ++ stop) hnul
  simpa [CfgLine.text] using happ

/-- The line of the address stores it with the bracket behind it, and whatever follows up to the
next white space. -/
theorem loadLine_ipv4 (rest stop : List Char) :
    loadLine dest ((CfgLine.ipv4 rest).text addr port ++ stop) =
      (storeString dest.ipv4 (addr.closed ++
        (cString (rest ++ stop)).takeWhile fun c => !isSpace c)).map
        fun ipv4 => { dest with ipv4 } := by
  have hinfix : ipv4Keyword <:+: ipv4Keyword ++
      '[' :: (addr.closed ++ cString (rest ++ stop)) := ⟨[], _, rfl⟩
  have hport : ∀ dest : CollectorDest, scanPort dest (ipv4Keyword ++
      '[' :: (addr.closed ++ cString (rest ++ stop))) = dest := by
    intro dest
    rw [scanPort, scanLiteral_port_ipv4]
    rfl
  rw [loadLine, cString_ipv4, if_pos hinfix, scanIpv4, scanLiteral_ipv4, Option.bind_some,
    scanString_append _ (closed_ne_nil addr) fun c ↦ isSpace_of_mem_addr]
  simp only [hport, ite_self]
  cases storeString dest.ipv4 _ <;> rfl

/-- The line of the port stores it. -/
theorem loadLine_port (rest stop : List Char) :
    loadLine dest ((CfgLine.port rest).text addr port ++ stop) =
      .ok { dest with port := UInt32.ofNat port } := by
  have hinfix : portKeyword <:+: portKeyword ++
      '[' :: (itoa port ++ ']' :: cString (rest ++ stop)) := ⟨[], _, rfl⟩
  have hipv4 : scanIpv4 dest (portKeyword ++
      '[' :: (itoa port ++ ']' :: cString (rest ++ stop))) = .ok dest := by
    rw [scanIpv4, scanLiteral_ipv4_port]
    rfl
  rw [loadLine, cString_port]
  simp only [hipv4, ite_self, ok_bind, if_pos hinfix]
  rw [scanPort, scanLiteral_port, Option.bind_some, scanInt_bracket]
  simp only [ofInt_natCast]
  rfl

end Line

/-! ## Whole files -/

section File

variable {cfg : CfgFile} {dest dest' : CollectorDest}

namespace CfgFile

/-- Every line is read as it stands. -/
theorem cfgLines_text (cfg : CfgFile) : cfgLines cfg.text = cfg.rows.map cfg.row := by
  have hlen : ∀ text ∈ cfg.lines.map (·.text cfg.addr cfg.port), text.length < 127 := by
    intro text htext
    obtain ⟨line, hline, rfl⟩ := List.mem_map.mp htext
    exact cfg.length_lt line (List.mem_append_left _ hline)
  have hnewline : ∀ text ∈ cfg.lines.map (·.text cfg.addr cfg.port), '\n' ∉ text := by
    intro text htext
    obtain ⟨line, hline, rfl⟩ := List.mem_map.mp htext
    exact cfg.newline_notMem line (List.mem_append_left _ hline)
  have hlines := cfgLines_flatMap
    (cfg.last.toList.flatMap fun line ↦ line.text cfg.addr cfg.port) hlen hnewline
  have hlast : cfgLines (cfg.last.toList.flatMap fun line ↦ line.text cfg.addr cfg.port) =
      cfg.last.toList.map fun line ↦ line.text cfg.addr cfg.port := by
    have hmem : ∀ line ∈ cfg.last, line ∈ cfg.lines ++ cfg.last.toList := fun line hline ↦
      List.mem_append_right _ (Option.mem_toList.mpr hline)
    cases h : cfg.last with
    | none => rw [Option.toList_none, List.flatMap_nil, cfgLines, List.map_nil]
    | some line =>
        rw [Option.toList_some, List.flatMap_singleton, List.map_singleton]
        exact cfgLines_last (cfg.length_lt line (hmem line h))
          (cfg.newline_notMem line (hmem line h)) (cfg.last_ne_nil line h)
  rw [hlast, List.flatMap_map, List.map_map] at hlines
  rw [text, rows, List.flatMap_append, List.flatMap_map, List.flatMap_map, List.map_append,
    List.map_map, List.map_map]
  simpa [row, Function.comp_def] using hlines

theorem of_mem_rows {x : CfgLine × List Char} (hx : x ∈ cfg.rows) :
    x.1 ∈ cfg.lines ++ cfg.last.toList ∧ (x.2 = [] ∨ x.2 = ['\n']) := by
  rcases List.mem_append.mp hx with hx | hx
  · obtain ⟨line, hline, rfl⟩ := List.mem_map.mp hx
    exact ⟨List.mem_append_left _ hline, Or.inr rfl⟩
  · obtain ⟨line, hline, rfl⟩ := List.mem_map.mp hx
    exact ⟨List.mem_append_right _ hline, Or.inl rfl⟩

theorem exists_mem_rows {line : CfgLine} (hline : line ∈ cfg.lines ++ cfg.last.toList) :
    ∃ stop, (line, stop) ∈ cfg.rows := by
  rcases List.mem_append.mp hline with hline | hline
  · exact ⟨_, List.mem_append_left _ (List.mem_map.mpr ⟨line, hline, rfl⟩)⟩
  · exact ⟨_, List.mem_append_right _ (List.mem_map.mpr ⟨line, hline, rfl⟩)⟩

end CfgFile

/-- What every line keeps, the loop keeps. -/
theorem foldlM_loadLine {P : CollectorDest → Prop} {lines : List (List Char)}
    (hstep : ∀ line ∈ lines, ∀ dest dest', P dest → loadLine dest line = .ok dest' → P dest')
    (h : P dest) (hload : lines.foldlM loadLine dest = .ok dest') : P dest' := by
  induction lines generalizing dest with
  | nil =>
      cases hload
      exact h
  | cons line lines ih =>
      rw [List.foldlM_cons] at hload
      obtain ⟨next, hnext, hload⟩ := bind_eq_ok.mp hload
      exact ih (fun l hl ↦ hstep l (.tail _ hl)) (hstep line (.head _) dest next h hnext) hload

/-- The array of the address holds nothing yet, or a string that begins with the address and a
bracket. -/
def Bracketed (addr : DottedQuad) (dest : CollectorDest) : Prop :=
  dest.ipv4 = List.replicate 32 '\x00' ∨ addr.closed <+: dest.ipv4

theorem Bracketed.loadLine (h : Bracketed cfg.addr dest) {x : CfgLine × List Char}
    (hx : x ∈ cfg.rows) (hload : loadLine dest (cfg.row x) = .ok dest') :
    Bracketed cfg.addr dest' := by
  obtain ⟨line, stop⟩ := x
  obtain ⟨hline, hstop⟩ := CfgFile.of_mem_rows hx
  rw [CfgFile.row] at hload
  cases line with
  | ipv4 rest =>
      rw [loadLine_ipv4, storeString] at hload
      split at hload
      · cases hload
        exact Or.inr ((List.prefix_append _ _).trans (List.prefix_append _ _))
      · cases hload
  | port rest =>
      rw [loadLine_port] at hload
      cases hload
      exact h
  | other text =>
      obtain ⟨hipv4, hport⟩ := cfg.no_keyword text hline
      rw [CfgLine.text, loadLine_other hstop hipv4 hport] at hload
      cases hload
      exact h

/-- The address alone is not what such an array holds. -/
theorem Bracketed.stringAt_ne {addr : DottedQuad} (h : Bracketed addr dest) :
    stringAt dest.ipv4 0 ≠ .ok addr.text := by
  intro hstring
  rw [stringAt, List.drop_zero] at hstring
  split at hstring
  next hnul =>
    have htake : cString dest.ipv4 = addr.text := Except.ok.inj hstring
    rcases h with h | ⟨behind, h⟩
    · have hdot : '.' ∈ addr.text := List.mem_append_right _ List.mem_cons_self
      rw [← htake, h] at hdot
      revert hdot
      decide
    · rw [← h, DottedQuad.closed, List.append_assoc,
        cString_append _ (nul_notMem_addr addr)] at htake
      cases List.append_right_eq_self.mp htake
  next => cases hstring

/-- Whatever the file, its address is not what is stored. -/
theorem not_loaded (collectorDest : Option CollectorDest) (cfg : CfgFile) :
    ¬ cfg.Loaded collectorDest := by
  rintro ⟨dest, hload, hstring, -⟩
  obtain ⟨last, hlines, hcode⟩ := bind_eq_ok.mp hload
  have hlast : Bracketed cfg.addr last := by
    rw [cfg.cfgLines_text] at hlines
    refine foldlM_loadLine (fun line hline dest dest' h hstep ↦ ?_) (Or.inl rfl) hlines
    obtain ⟨x, hx, rfl⟩ := List.mem_map.mp hline
    exact h.loadLine hx hstep
  have hdest : last = dest := by
    split at hcode
    · cases hcode
    · cases hcode
      rfl
  rw [hdest] at hlast
  exact hlast.stringAt_ne hstring

/-! ## Plain files

What the code does store, where a line break or other white space closes the line of the address
behind its bracket. -/

theorem length_closed_lt (addr : DottedQuad) : addr.closed.length < 32 := by
  have hbyte : ∀ b : UInt8, (itoa b.toNat).length ≤ 4 := by
    intro b
    have hlt := b.toNat_lt
    exact length_itoa_le (k := 3) (by decide) (by omega)
  have ha := hbyte addr.a
  have hb := hbyte addr.b
  have hc := hbyte addr.c
  have hd := hbyte addr.d
  simp only [DottedQuad.closed, DottedQuad.text, List.length_append, List.length_cons,
    List.length_nil]
  omega

/-- What a line sets. -/
def settle (addr : DottedQuad) (port : Nat) (dest : CollectorDest) : CfgLine → CollectorDest
  | .ipv4 _ => { dest with ipv4 := padded 32 addr.closed }
  | .port _ => { dest with port := UInt32.ofNat port }
  | .other _ => dest

/-- The array of the address is cleared, or holds the address with its bracket. -/
def Held (addr : DottedQuad) (dest : CollectorDest) : Prop :=
  dest.ipv4 = List.replicate 32 '\x00' ∨ dest.ipv4 = padded 32 addr.closed

theorem Held.settle {addr : DottedQuad} {port : Nat} (h : Held addr dest) (line : CfgLine) :
    Held addr (settle addr port dest line) := by
  cases line with
  | ipv4 rest => exact Or.inr rfl
  | port rest => exact h
  | other text => exact h

/-- Nothing is scanned of what follows the bracket. -/
theorem takeWhile_cString {rest stop : List Char} (hrest : ∀ c ∈ rest.head?, isSpace c = true)
    (hstop : stop = [] ∨ stop = ['\n']) :
    ((cString (rest ++ stop)).takeWhile fun c => !isSpace c) = [] := by
  cases rest with
  | nil => rcases hstop with rfl | rfl <;> rfl
  | cons c rest =>
      have hc := hrest c rfl
      have hnul : c ≠ '\x00' := by
        rintro rfl
        cases hc
      rw [cString, List.cons_append, List.takeWhile_cons, if_pos (decide_eq_true hnul),
        List.takeWhile_cons, hc]
      rfl

/-- A line whose address is closed by white space sets what it says. -/
theorem loadLine_eq_settle (h : Held cfg.addr dest) {x : CfgLine × List Char} (hx : x ∈ cfg.rows)
    (hplain : ∀ rest, x.1 = .ipv4 rest → ∀ c ∈ rest.head?, isSpace c = true) :
    loadLine dest (cfg.row x) = .ok (settle cfg.addr cfg.port dest x.1) := by
  obtain ⟨line, stop⟩ := x
  obtain ⟨hline, hstop⟩ := CfgFile.of_mem_rows hx
  rw [CfgFile.row]
  cases line with
  | ipv4 rest =>
      have hroom : cfg.addr.closed.length < dest.ipv4.length := by
        rcases h with h | h
        · rw [h, List.length_replicate]
          exact length_closed_lt _
        · rw [h, length_padded]
          exact length_closed_lt _
      rw [loadLine_ipv4, takeWhile_cString (hplain rest rfl) hstop, List.append_nil,
        storeString, if_pos hroom, append_nul_drop (length_closed_lt _) h]
      rfl
  | port rest =>
      rw [loadLine_port]
      rfl
  | other text =>
      obtain ⟨hipv4, hport⟩ := cfg.no_keyword text hline
      exact loadLine_other hstop hipv4 hport

theorem foldlM_eq_settle {rows : List (CfgLine × List Char)} (hrows : rows ⊆ cfg.rows)
    (hplain : ∀ x ∈ rows, ∀ rest, x.1 = .ipv4 rest → ∀ c ∈ rest.head?, isSpace c = true)
    (h : Held cfg.addr dest) :
    (rows.map cfg.row).foldlM loadLine dest =
      .ok ((rows.map Prod.fst).foldl (settle cfg.addr cfg.port) dest) := by
  induction rows generalizing dest with
  | nil => rfl
  | cons x rows ih =>
      have hx := loadLine_eq_settle h (hrows (.head _)) (hplain x (.head _))
      rw [List.map_cons, List.foldlM_cons, hx, ok_bind,
        ih (fun y hy ↦ hrows (.tail _ hy)) (fun y hy ↦ hplain y (.tail _ hy)) (h.settle x.1)]
      rfl

/-- A setting made once stays made. -/
theorem ipv4_foldl_settle {addr : DottedQuad} {port : Nat} {lines : List CfgLine}
    (h : dest.ipv4 = padded 32 addr.closed ∨ ∃ rest, .ipv4 rest ∈ lines) :
    (lines.foldl (settle addr port) dest).ipv4 = padded 32 addr.closed := by
  induction lines generalizing dest with
  | nil =>
      rcases h with h | ⟨rest, hrest⟩
      · exact h
      · cases hrest
  | cons line lines ih =>
      apply ih
      rcases h with h | ⟨rest, hrest⟩
      · left
        cases line <;> first | exact h | rfl
      · rcases List.mem_cons.mp hrest with rfl | hrest
        · exact Or.inl rfl
        · exact Or.inr ⟨rest, hrest⟩

theorem port_foldl_settle {addr : DottedQuad} {port : Nat} {lines : List CfgLine}
    (h : dest.port = UInt32.ofNat port ∨ ∃ rest, .port rest ∈ lines) :
    (lines.foldl (settle addr port) dest).port = UInt32.ofNat port := by
  induction lines generalizing dest with
  | nil =>
      rcases h with h | ⟨rest, hrest⟩
      · exact h
      · cases hrest
  | cons line lines ih =>
      apply ih
      rcases h with h | ⟨rest, hrest⟩
      · left
        cases line <;> first | exact h | rfl
      · rcases List.mem_cons.mp hrest with rfl | hrest
        · exact Or.inl rfl
        · exact Or.inr ⟨rest, hrest⟩

/-- Of a plain file the port is stored, and the address with its bracket. -/
theorem sflowLoadCfg_plain (collectorDest : Option CollectorDest) (cfg : CfgFile)
    (hplain : ∀ rest, .ipv4 rest ∈ cfg.lines ++ cfg.last.toList →
      ∀ c ∈ rest.head?, isSpace c = true) :
    ∃ dest, sflowLoadCfg collectorDest (some cfg.text) = .ok (0, some dest) ∧
      stringAt dest.ipv4 0 = .ok cfg.addr.closed ∧ dest.port.toNat = cfg.port := by
  have hload : (cfg.rows.map cfg.row).foldlM loadLine .zero = _ :=
    foldlM_eq_settle (List.Subset.refl _)
      (fun x hx rest hrest ↦ hplain rest (hrest ▸ (CfgFile.of_mem_rows hx).1)) (Or.inl rfl)
  obtain ⟨rest, hipv4⟩ := cfg.exists_ipv4
  obtain ⟨stop, hipv4⟩ := CfgFile.exists_mem_rows hipv4
  obtain ⟨rest', hport⟩ := cfg.exists_port
  obtain ⟨stop', hport⟩ := CfgFile.exists_mem_rows hport
  obtain ⟨dest, hdest⟩ : ∃ dest,
      (cfg.rows.map Prod.fst).foldl (settle cfg.addr cfg.port) .zero = dest := ⟨_, rfl⟩
  have haddr : dest.ipv4 = padded 32 cfg.addr.closed :=
    hdest ▸ ipv4_foldl_settle (Or.inr ⟨rest, List.mem_map_of_mem hipv4⟩)
  have hnumber : dest.port = UInt32.ofNat cfg.port :=
    hdest ▸ port_foldl_settle (Or.inr ⟨rest', List.mem_map_of_mem hport⟩)
  rw [hdest] at hload
  have hstring : stringAt dest.ipv4 0 = .ok cfg.addr.closed :=
    stringAt_eq (by rw [haddr, List.append_nil, List.drop_zero]) (nul_notMem_closed _)
      (length_closed_lt _)
  have hportNat : dest.port.toNat = cfg.port := by
    rw [hnumber, UInt32.toNat_ofNat']
    exact Nat.mod_eq_of_lt (Nat.lt_trans cfg.port_lt (by decide))
  have hgood : ¬ (dest.ipv4.head? = some '\x00' ∨ dest.port = 0) := by
    rintro (h | h)
    · rw [haddr, padded_of_le (Nat.le_of_lt (length_closed_lt _)),
        List.head?_append_of_ne_nil _ (closed_ne_nil _)] at h
      exact nul_notMem_closed _ (List.mem_of_head? h)
    · rw [h] at hportNat
      exact Nat.ne_of_lt cfg.port_pos hportNat
  refine ⟨dest, ?_, hstring, hportNat⟩
  rw [sflowLoadCfg, cfg.cfgLines_text, hload, ok_bind, if_neg hgood]
  rfl

/-- The two settings and nothing else. -/
def plainCfg : CfgFile where
  addr := ⟨10, 0, 0, 1⟩
  port := 6343
  lines := [.ipv4 [], .port []]
  last := none
  port_pos := by decide
  port_lt := by decide
  length_lt := by decide
  newline_notMem := by decide
  last_ne_nil := by
    rintro line ⟨⟩
  exists_ipv4 := ⟨[], .head _⟩
  exists_port := ⟨[], .tail _ (.head _)⟩
  no_keyword text h := by simp at h

/-- Of the two settings alone the address is stored with its bracket. -/
theorem plainCfg_bracket :
    plainCfg.text = "Collector IPv4:[10.0.0.1]\nCollector Port:[6343]\n".toList ∧
      (∃ dest, sflowLoadCfg none (some plainCfg.text) = .ok (0, some dest) ∧
        stringAt dest.ipv4 0 = .ok "10.0.0.1]".toList ∧ dest.port.toNat = 6343) ∧
      ¬ plainCfg.Loaded none := by
  have hplain : ∀ rest, .ipv4 rest ∈ plainCfg.lines ++ plainCfg.last.toList →
      ∀ c ∈ rest.head?, isSpace c = true := by
    intro rest hrest c hc
    simp [plainCfg] at hrest
    rw [hrest] at hc
    cases hc
  obtain ⟨dest, hload, hstring, hport⟩ := sflowLoadCfg_plain none plainCfg hplain
  refine ⟨rfl, ⟨dest, hload, hstring, hport⟩, ?_⟩
  rintro ⟨dest', hload', hstring', -⟩
  rw [hload] at hload'
  cases hload'
  rw [hstring] at hstring'
  revert hstring'
  decide

end File

end Sflow

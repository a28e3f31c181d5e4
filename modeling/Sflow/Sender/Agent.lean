import Sflow.C.Str
import Sflow.Protocol.Collector
import Sflow.Util.Itoa

/-!
# The address of the agent

`sflow_get_agent_ip` takes the first address of an interface that does not read like the
one of the loopback interface.  What it returns is a text, which is converted back for each
datagram, and which the collector writes down again to tell agents apart.
-/

namespace Sflow

open C

/-! ## Addresses as text -/

/-- `inet_ntop` of an address of version 4. -/
def inetNtop (sinAddr : Vector UInt8 4) : List Char :=
  ['.'].intercalate (sinAddr.toList.map fun b => Nat.toDigits 10 b.toNat)

/-- One part of an address: a number below 256 without a leading zero. -/
def octet (s : List Char) : Option UInt8 :=
  if s ≠ [] ∧ s.all Char.isDigit ∧ (s.head? = some '0' → s.length = 1) ∧
      readDigits 0 s < 256 then
    some (UInt8.ofNat (readDigits 0 s))
  else none

/-- `inet_pton` of a text for an address of version 4. -/
def inetPton (s : List Char) : Option (Vector UInt8 4) :=
  match (s.splitOn '.').map octet with
  | [some a, some b, some c, some d] => some #v[a, b, c, d]
  | _ => none

theorem octet_toDigits (b : UInt8) : octet (Nat.toDigits 10 b.toNat) = some b := by
  have hdigits : (Nat.toDigits 10 b.toNat).all Char.isDigit = true := List.all_eq_true.mpr
    fun c ↦ Nat.isDigit_of_mem_toDigits (by decide) (by decide)
  have hlead : (Nat.toDigits 10 b.toNat).head? = some '0' →
      (Nat.toDigits 10 b.toNat).length = 1 := by
    intro hhead
    rcases Nat.eq_zero_or_pos b.toNat with hzero | hpos
    · rw [hzero]
      rfl
    · exact absurd hhead (head?_toDigits_ne hpos)
  rw [octet, readDigits_toDigits, if_pos ⟨Nat.toDigits_ne_nil, hdigits, hlead, b.toNat_lt⟩,
    UInt8.ofNat_toNat]

theorem dot_notMem_toDigits (n : Nat) : '.' ∉ Nat.toDigits 10 n := by
  intro hmem
  have hdigit : '.'.isDigit = true := Nat.isDigit_of_mem_toDigits (by decide) (by decide) hmem
  cases hdigit

theorem exists_parts (sinAddr : Vector UInt8 4) : ∃ a b c d, sinAddr.toList = [a, b, c, d] := by
  have hlen := sinAddr.length_toList
  match sinAddr.toList, hlen with
  | [a, b, c, d], _ => exact ⟨a, b, c, d, rfl⟩

/-- A text that was made from an address is converted back to it. -/
theorem inetPton_inetNtop (sinAddr : Vector UInt8 4) :
    inetPton (inetNtop sinAddr) = some sinAddr := by
  have hsplit : (inetNtop sinAddr).splitOn '.' =
      sinAddr.toList.map fun b => Nat.toDigits 10 b.toNat := by
    refine List.splitOn_intercalate '.' ?_ ?_
    · intro l hl
      obtain ⟨b, -, rfl⟩ := List.mem_map.mp hl
      exact dot_notMem_toDigits b.toNat
    · rw [Ne, List.map_eq_nil_iff, ← List.length_eq_zero_iff, Vector.length_toList]
      decide
  have hmap : ((inetNtop sinAddr).splitOn '.').map octet = sinAddr.toList.map some := by
    rw [hsplit, List.map_map]
    exact List.map_congr_left fun b _ ↦ octet_toDigits b
  obtain ⟨a, b, c, d, hparts⟩ := exists_parts sinAddr
  rw [inetPton, hmap, hparts]
  exact congrArg some (Vector.toList_inj.mp hparts.symm)

/-- The collector writes down the text that the daemon took the address from. -/
theorem agentText_eq {p : Platform} :
    Collector.agentText p = String.ofList (inetNtop p.agentIp) := by
  apply String.toList_inj.mp
  have hdot : ".".toList = ['.'] := rfl
  rw [Collector.agentText, String.toList_intercalate, List.map_map, hdot, String.toList_ofList]
  exact congrArg _ (List.map_congr_left fun b _ ↦ Nat.toList_repr)

/-! ## Choosing an address -/

/-- The address of an entry of `getifaddrs`. -/
inductive IfaAddr where
  | inet (sinAddr : Vector UInt8 4)
  | inet6
  | other
deriving DecidableEq

def loopback : List Char := "127.0.0.1".toList

/-- The loop over the entries, of which one may come without an address.  Behind the last one
the program ends. -/
def sflowGetAgentIp : List (Option IfaAddr) → Except Fault (Option (List Char))
  | [] => .ok none
  | none :: _ => .error .nullDeref
  | some (.inet sinAddr) :: rest =>
      if strncmp (inetNtop sinAddr) loopback 9 ≠ 0 then .ok (some (inetNtop sinAddr))
      else sflowGetAgentIp rest
  | some .inet6 :: rest => sflowGetAgentIp rest
  | some .other :: rest => sflowGetAgentIp rest

/-- Addresses that begin like the one of the loopback interface: the comparison stops behind the
first digit of the last part. -/
def LooksLoopback (sinAddr : Vector UInt8 4) : Prop :=
  sinAddr[0] = 127 ∧ sinAddr[1] = 0 ∧ sinAddr[2] = 0 ∧
    (sinAddr[3] = 1 ∨ (10 : UInt8) ≤ sinAddr[3] ∧ sinAddr[3] < 20 ∨
      (100 : UInt8) ≤ sinAddr[3] ∧ sinAddr[3] < 200)

instance (sinAddr : Vector UInt8 4) : Decidable (LooksLoopback sinAddr) :=
  inferInstanceAs (Decidable (_ ∧ _))

/-- A part of a text up to a dot, and what follows. -/
theorem append_dot_prefix {u v s t : List Char} (hu : '.' ∉ u) (hv : '.' ∉ v) :
    u ++ '.' :: s <+: v ++ '.' :: t ↔ u = v ∧ s <+: t := by
  induction u generalizing v with
  | nil =>
      cases v with
      | nil => simp
      | cons c v =>
          have hne : '.' ≠ c := fun h ↦ hv (h ▸ List.mem_cons_self)
          simp [List.cons_prefix_cons, hne]
  | cons b u ih =>
      rw [List.mem_cons, not_or] at hu
      cases v with
      | nil => simp [List.cons_prefix_cons, Ne.symm hu.1]
      | cons c v =>
          rw [List.mem_cons, not_or] at hv
          rw [List.cons_append, List.cons_append, List.cons_prefix_cons, ih hu.2 hv.2,
            List.cons.injEq, and_assoc]

theorem toDigits_prefix_one {b : UInt8} : ['1'] <+: Nat.toDigits 10 b.toNat ↔
    b = 1 ∨ 10 ≤ b ∧ b < 20 ∨ 100 ≤ b ∧ b < 200 := by
  have hall : ∀ n < 256, ['1'] <+: Nat.toDigits 10 n ↔
      n = 1 ∨ 10 ≤ n ∧ n < 20 ∨ 100 ≤ n ∧ n < 200 := by decide +kernel
  rw [hall _ b.toNat_lt, ← UInt8.toNat_inj]
  rfl

theorem toDigits_inj {m n : Nat} : Nat.toDigits 10 m = Nat.toDigits 10 n ↔ m = n := by
  refine ⟨fun h ↦ ?_, fun h ↦ h ▸ rfl⟩
  rw [← readDigits_toDigits m, h, readDigits_toDigits]

/-- What the comparison of the texts says about the addresses. -/
theorem strncmp_loopback (sinAddr : Vector UInt8 4) :
    strncmp (inetNtop sinAddr) loopback 9 = 0 ↔ LooksLoopback sinAddr := by
  have hnul : '\x00' ∉ loopback := by decide
  have hstart : strncmp (inetNtop sinAddr) loopback 9 = 0 ↔ loopback <+: inetNtop sinAddr :=
    strncmp_length_eq_zero hnul
  obtain ⟨a, b, c, d, hparts⟩ := exists_parts sinAddr
  obtain rfl : sinAddr = #v[a, b, c, d] := Vector.toList_inj.mp hparts
  have htext : inetNtop #v[a, b, c, d] = Nat.toDigits 10 a.toNat ++ '.' ::
      (Nat.toDigits 10 b.toNat ++ '.' :: (Nat.toDigits 10 c.toNat ++ '.' ::
        Nat.toDigits 10 d.toNat)) := by
    simp [inetNtop, List.intercalate, List.intersperse]
  have hloop : loopback = Nat.toDigits 10 127 ++ '.' :: (Nat.toDigits 10 0 ++ '.' ::
      (Nat.toDigits 10 0 ++ '.' :: ['1'])) := by decide
  have hpart {m : Nat} {e : UInt8} (hm : m < 256) :
      Nat.toDigits 10 m = Nat.toDigits 10 e.toNat ↔ e = UInt8.ofNat m := by
    rw [toDigits_inj, ← UInt8.toNat_inj, UInt8.toNat_ofNat_of_lt' hm, eq_comm]
  rw [hstart, htext, hloop, append_dot_prefix (by decide) (dot_notMem_toDigits _),
    append_dot_prefix (by decide) (dot_notMem_toDigits _),
    append_dot_prefix (by decide) (dot_notMem_toDigits _), hpart (by decide), hpart (by decide),
    hpart (by decide), toDigits_prefix_one]
  rfl

/-- An address that may be chosen. -/
def IfaAddr.Usable : IfaAddr → Prop
  | .inet sinAddr => ¬ LooksLoopback sinAddr
  | _ => False

/-- An entry that is passed over. -/
def Passed (ifa : Option IfaAddr) : Prop := ∃ addr, ifa = some addr ∧ ¬ addr.Usable

/-- An entry that is not passed over ends the loop. -/
theorem of_not_passed {ifa : Option IfaAddr} (h : ¬ Passed ifa) :
    ifa = none ∨ ∃ sinAddr, ifa = some (.inet sinAddr) ∧ ¬ LooksLoopback sinAddr := by
  cases ifa with
  | none => exact .inl rfl
  | some addr =>
      have husable : addr.Usable := by
        by_contra hpassed
        exact h ⟨addr, rfl, hpassed⟩
      cases addr with
      | inet sinAddr => exact .inr ⟨sinAddr, rfl, husable⟩
      | inet6 | other => exact husable.elim

/-- The entries in front of one that is not passed over do not matter. -/
theorem sflowGetAgentIp_append {front : List (Option IfaAddr)} (h : ∀ ifa ∈ front, Passed ifa)
    (rest : List (Option IfaAddr)) : sflowGetAgentIp (front ++ rest) = sflowGetAgentIp rest := by
  induction front with
  | nil => rfl
  | cons ifa front ih =>
      rw [List.forall_mem_cons] at h
      obtain ⟨⟨addr, rfl, hpassed⟩, hfront⟩ := h
      cases addr with
      | inet sinAddr =>
          have hloop : strncmp (inetNtop sinAddr) loopback 9 = 0 :=
            (strncmp_loopback sinAddr).mpr (not_not.mp hpassed)
          rw [List.cons_append, sflowGetAgentIp, if_neg (not_not.mpr hloop)]
          exact ih hfront
      | inet6 | other => exact ih hfront

theorem sflowGetAgentIp_usable {sinAddr : Vector UInt8 4} (h : ¬ LooksLoopback sinAddr)
    (rest : List (Option IfaAddr)) :
    sflowGetAgentIp (some (.inet sinAddr) :: rest) = .ok (some (inetNtop sinAddr)) := by
  rw [sflowGetAgentIp, if_pos (mt (strncmp_loopback sinAddr).mp h)]

/-- Either all entries are passed over, or there is a first one that is not. -/
theorem passed_or_exists (ifs : List (Option IfaAddr)) :
    (∀ ifa ∈ ifs, Passed ifa) ∨
      ∃ front ifa back, ifs = front ++ ifa :: back ∧ (∀ i ∈ front, Passed i) ∧ ¬ Passed ifa := by
  induction ifs with
  | nil => exact .inl fun ifa hifa ↦ absurd hifa List.not_mem_nil
  | cons ifa ifs ih =>
      by_cases hpassed : Passed ifa
      · rcases ih with hall | ⟨front, ifa', back, rfl, hfront, hnot⟩
        · exact .inl (List.forall_mem_cons.mpr ⟨hpassed, hall⟩)
        · exact .inr ⟨ifa :: front, ifa', back, rfl,
            List.forall_mem_cons.mpr ⟨hpassed, hfront⟩, hnot⟩
      · exact .inr ⟨[], ifa, ifs, rfl, fun i hi ↦ absurd hi List.not_mem_nil, hpassed⟩

/-- The first address of version 4 is chosen that does not look like the loopback interface. -/
theorem sflowGetAgentIp_eq_some_iff {ifs : List (Option IfaAddr)} {text : List Char} :
    sflowGetAgentIp ifs = .ok (some text) ↔
      ∃ front sinAddr back, ifs = front ++ some (.inet sinAddr) :: back ∧
        (∀ ifa ∈ front, Passed ifa) ∧ ¬ LooksLoopback sinAddr ∧ text = inetNtop sinAddr := by
  constructor
  · intro h
    rcases passed_or_exists ifs with hall | ⟨front, ifa, back, rfl, hfront, hnot⟩
    · have hend := sflowGetAgentIp_append hall []
      rw [List.append_nil, h] at hend
      cases hend
    · rw [sflowGetAgentIp_append hfront] at h
      rcases of_not_passed hnot with rfl | ⟨sinAddr, rfl, husable⟩
      · cases h
      · rw [sflowGetAgentIp_usable husable] at h
        cases h
        exact ⟨front, sinAddr, back, rfl, hfront, husable, rfl⟩
  · rintro ⟨front, sinAddr, back, rfl, hfront, husable, rfl⟩
    rw [sflowGetAgentIp_append hfront, sflowGetAgentIp_usable husable]

/-! ## What the collector is told -/

/-- The text that is chosen is the one under which the collector keeps what the agent sends: it
is converted for each datagram, and written down again from the four bytes. -/
theorem sflowGetAgentIp_collected {R : Type} {p : Platform} {ifs : List (Option IfaAddr)}
    {text : List Char} (h : sflowGetAgentIp ifs = .ok (some text))
    (hp : inetPton text = some p.agentIp) :
    (∃ front back, ifs = front ++ some (.inet p.agentIp) :: back ∧
        (∀ ifa ∈ front, Passed ifa) ∧ ¬ LooksLoopback p.agentIp) ∧
      ∀ (m : Memory R) (l : List (SampleInput p R)) datagramCount upTime g, ∃ n c,
        Collector.readHeader .little
            ⟨(SflowDg.around p datagramCount upTime (l.map SampleInput.packed)).wire m, 0, g⟩ =
          .ok n c ∧ c.mem.currentIp = String.ofList text := by
  obtain ⟨front, sinAddr, back, rfl, hfront, husable, rfl⟩ := sflowGetAgentIp_eq_some_iff.mp h
  rw [inetPton_inetNtop, Option.some.injEq] at hp
  subst hp
  refine ⟨⟨front, back, rfl, hfront, husable⟩, fun m l datagramCount upTime g ↦ ?_⟩
  have hread := Collector.takes_readHeader (p := p) datagramCount upTime
    (UInt32.ofNat l.length) g [] (l.flatMap (·.packed.wire m))
  rw [List.nil_append, ← Collector.wire_around] at hread
  exact ⟨_, _, hread, agentText_eq⟩

/-- The loopback interface, one without an address of version 4, and `net0`. -/
def threeIfs : List (Option IfaAddr) :=
  [some (.inet Platform.amd64.agentIp), some .inet6, some (.inet (.replicate 4 10))]

/-- A machine whose agent has the address of `net0`. -/
def Platform.net0 : Platform := { amd64 with agentIp := .replicate 4 10 }

theorem sflowGetAgentIp_collected_threeIfs :
    ∃ n c, Collector.readHeader .little
        ⟨(SflowDg.around .net0 3 5 (([] : List (SampleInput Platform.net0 (List UInt8))).map
          SampleInput.packed)).wire ⟨id, fun _ ↦ .ok⟩, 0, ⟨"", 0, []⟩⟩ = .ok n c ∧
      c.mem.currentIp = "10.10.10.10" := by
  have hchosen : sflowGetAgentIp threeIfs = .ok (some "10.10.10.10".toList) := by
    decide +kernel
  have htext : "10.10.10.10".toList = inetNtop Platform.net0.agentIp := by decide +kernel
  have hback : inetPton "10.10.10.10".toList = some Platform.net0.agentIp := by
    rw [htext, inetPton_inetNtop]
  exact (sflowGetAgentIp_collected hchosen hback).2 ⟨id, fun _ ↦ .ok⟩ [] 3 5 ⟨"", 0, []⟩

end Sflow

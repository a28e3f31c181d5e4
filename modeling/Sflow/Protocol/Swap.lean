import Mathlib.Algebra.BigOperators.Ring.List
import Mathlib.Algebra.Order.Ring.Abs
import Mathlib.Tactic.Ring
import Sflow.C.Sum
import Sflow.Protocol.Hostphy

/-!
# Swap totals

The bytes of a swap device are a product of three numbers that is computed in a
`long`, and the number of disk blocks in a page goes through an `int`.  Only then
is the product added to a total of 64 bits.  No product is larger than the true
number of bytes, so a total is right only if every product in it is.
-/

namespace Sflow

open C

/-! ## One device -/

/-- What the product comes to for a number of pages. -/
def swapBytes (p : Platform) (pageSize pages : Int) : Int :=
  asLong p (pages * (pageSize / 2 ^ 9).bmod (2 ^ 32) * 512)

/-- There are no pages, or the disk blocks of a page fit into an `int` and the bytes into a
`long`.  Only a `long` of four bytes is too small for bytes that the total has room for. -/
def SwapFits (p : Platform) (pageSize pages : Int) : Prop :=
  pages = 0 ∨ pageSize < 2 ^ 40 ∧ (p.psize = 4 → pages * pageSize < 2 ^ 31)

instance (p : Platform) (pageSize pages : Int) : Decidable (SwapFits p pageSize pages) :=
  inferInstanceAs (Decidable (_ ∨ _))

section Device

variable {p : Platform} {pageSize pages : Int}

theorem abs_asLong_le (p : Platform) (x : Int) : |asLong p x| ≤ |x| :=
  abs_bmod_le x (Nat.two_pow_pos _)

variable (hblock : 512 ∣ pageSize) (hsize : 0 ≤ pageSize) (hpages : 0 ≤ pages)
include hblock hsize hpages

theorem abs_swapBytes_le : |swapBytes p pageSize pages| ≤ pages * pageSize := by
  obtain ⟨k, rfl⟩ := hblock
  have hk : (512 * k) / 2 ^ 9 = k := by omega
  rw [swapBytes, hk]
  calc |asLong p (pages * k.bmod (2 ^ 32) * 512)|
      ≤ |pages * k.bmod (2 ^ 32) * 512| := abs_asLong_le p _
    _ = pages * |k.bmod (2 ^ 32)| * 512 := by
        rw [abs_mul, abs_mul, abs_of_nonneg hpages]
        rfl
    _ ≤ pages * |k| * 512 := by
        have hcut := abs_bmod_le k (Nat.two_pow_pos 32)
        exact Int.mul_le_mul_of_nonneg_right (Int.mul_le_mul_of_nonneg_left hcut hpages) (by decide)
    _ = pages * (512 * k) := by
        rw [abs_of_nonneg (show 0 ≤ k by omega)]
        ring

/-- Where the total has room for the bytes, the product is right exactly if nothing is cut off. -/
theorem swapBytes_eq_iff (hroom : pages * pageSize < 2 ^ 63) :
    swapBytes p pageSize pages = pages * pageSize ↔ SwapFits p pageSize pages := by
  obtain ⟨k, rfl⟩ := hblock
  have hk : (512 * k) / 2 ^ 9 = k := by omega
  have hbytes : pages * (512 * k) = pages * k * 512 := by ring
  rw [swapBytes, hk, SwapFits, hbytes]
  rw [hbytes] at hroom
  have hfits : k < 2 ^ 31 → k.bmod (2 ^ 32) = k := by
    intro hlt
    apply Int.bmod_eq_of_le <;> omega
  have hlt : k.bmod (2 ^ 32) < 2 ^ 31 := Int.bmod_lt (by decide)
  rcases hpages.eq_or_lt with rfl | hpos
  · simp only [zero_mul, asLong_zero, true_or]
  have hone : 1 * k ≤ pages * k := Int.mul_le_mul_of_nonneg_right hpos (by omega)
  rw [or_iff_right hpos.ne']
  rcases p.psize_eq with hp | hp
  · constructor
    · intro h
      have hlong : asLong p (pages * k.bmod (2 ^ 32) * 512) < 2 ^ 31 := by
        rw [asLong, hp]
        exact Int.bmod_lt (by decide)
      exact ⟨by omega, fun _ ↦ by omega⟩
    · rintro ⟨-, hlong⟩
      have hlong := hlong hp
      rw [hfits (by omega), asLong, hp]
      apply Int.bmod_eq_of_le <;> omega
  · have hcut := abs_le.mp (abs_bmod_le k (Nat.two_pow_pos 32))
    rw [abs_of_nonneg (show 0 ≤ k by omega)] at hcut
    have hlow := Int.mul_le_mul_of_nonneg_left hcut.1 hpages
    have hhigh := Int.mul_le_mul_of_nonneg_left hcut.2 hpages
    rw [mul_neg] at hlow
    have hlong : asLong p (pages * k.bmod (2 ^ 32) * 512) = pages * k.bmod (2 ^ 32) * 512 := by
      rw [asLong, hp]
      apply Int.bmod_eq_of_le <;> omega
    rw [hlong]
    constructor
    · intro h
      have hblocks : k.bmod (2 ^ 32) = k :=
        Int.eq_of_mul_eq_mul_left hpos.ne' (Int.eq_of_mul_eq_mul_right (by decide) h)
      exact ⟨by omega, fun hp' ↦ by omega⟩
    · rintro ⟨hblocks, -⟩
      rw [hfits (by omega)]

end Device

/-! ## All devices -/

/-- Each total is a sum of such products. -/
theorem walkSwapInstancesForMemCounters_eq (p : Platform) (q : HostAnswers) :
    walkSwapInstancesForMemCounters p q =
      (UInt64.ofInt ((q.swap.getD []).map fun e => swapBytes p q.pageSize e.stePages).sum,
        UInt64.ofInt ((q.swap.getD []).map fun e => swapBytes p q.pageSize e.steFree).sum) := by
  have hfold : ∀ (entries : List SwapEnt) (m : UInt64 × UInt64) (bytes : Int → UInt64),
      entries.foldl (fun m e => (m.1 + bytes e.stePages, m.2 + bytes e.steFree)) m =
        (entries.foldl (fun n e => n + bytes e.stePages) m.1,
          entries.foldl (fun n e => n + bytes e.steFree) m.2) := by
    intro entries
    induction entries with
    | nil => exact fun _ _ ↦ rfl
    | cons e entries ih => exact fun m bytes ↦ ih _ bytes
  have hsum : ∀ f : SwapEnt → Int, (q.swap.getD []).foldl
      (fun n e => n + UInt64.ofInt (swapBytes p q.pageSize (f e))) 0 =
        UInt64.ofInt ((q.swap.getD []).map fun e => swapBytes p q.pageSize (f e)).sum := by
    intro f
    have h := foldl_add_ofInt ((q.swap.getD []).map fun e => swapBytes p q.pageSize (f e)) 0
    rwa [List.foldl_map, UInt64.zero_add] at h
  rw [← hsum, ← hsum]
  exact hfold _ (0, 0) fun pages ↦ UInt64.ofInt (swapBytes p q.pageSize pages)

/-- A table of swap devices, with numbers that the totals have room for. -/
structure HostAnswers.SwapTable (q : HostAnswers) : Prop where
  block : 512 ∣ q.pageSize
  size : 0 ≤ q.pageSize
  counts : ∀ e ∈ q.swap.getD [], 0 ≤ e.stePages ∧ 0 ≤ e.steFree
  pages : ((q.swap.getD []).map (·.stePages)).sum * q.pageSize < 2 ^ 63
  free : ((q.swap.getD []).map (·.steFree)).sum * q.pageSize < 2 ^ 63

/-- The totals are exact, and ordered as the devices are. -/
structure SwapExact (p : Platform) (q : HostAnswers) : Prop where
  total : ((walkSwapInstancesForMemCounters p q).1.toNat : Int) =
    ((q.swap.getD []).map (·.stePages)).sum * q.pageSize
  free : ((walkSwapInstancesForMemCounters p q).2.toNat : Int) =
    ((q.swap.getD []).map (·.steFree)).sum * q.pageSize
  le : (∀ e ∈ q.swap.getD [], e.steFree ≤ e.stePages) →
    (walkSwapInstancesForMemCounters p q).2 ≤ (walkSwapInstancesForMemCounters p q).1

section Table

variable {p : Platform} {pageSize : Int} {entries : List SwapEnt} {f : SwapEnt → Int}

/-- A total is right exactly if every product in it is. -/
theorem total_eq_iff (hblock : 512 ∣ pageSize) (hsize : 0 ≤ pageSize)
    (hf : ∀ e ∈ entries, 0 ≤ f e) (hroom : (entries.map f).sum * pageSize < 2 ^ 63) :
    ((UInt64.ofInt (entries.map fun e => swapBytes p pageSize (f e)).sum).toNat : Int) =
        (entries.map f).sum * pageSize ↔ ∀ e ∈ entries, SwapFits p pageSize (f e) := by
  have hdistrib : (entries.map f).sum * pageSize = (entries.map fun e => f e * pageSize).sum :=
    (List.sum_map_mul_right _ _ _).symm
  have hbytes : ∀ n ∈ entries.map fun e => f e * pageSize, 0 ≤ n := by
    rintro n hn
    obtain ⟨e, he, rfl⟩ := List.mem_map.mp hn
    exact Int.mul_nonneg (hf e he) hsize
  rw [hdistrib] at hroom ⊢
  have htotal := List.sum_nonneg hbytes
  have hword : ∀ x : Int, ((UInt64.ofInt x).toNat : Int) = x % 2 ^ 64 := by
    intro x
    rw [UInt64.ofInt, UInt64.toNat_ofNat']
    omega
  have hmod : (entries.map fun e => f e * pageSize).sum % 2 ^ 64 =
      (entries.map fun e => f e * pageSize).sum := Int.emod_eq_of_lt htotal (by omega)
  have hsum := sum_emod_eq_iff (m := 2 ^ 64)
    (fun e he ↦ abs_swapBytes_le (p := p) hblock hsize (hf e he)) (by omega)
  rw [hword, ← hmod, hsum]
  refine forall₂_congr fun e he ↦ swapBytes_eq_iff hblock hsize (hf e he) ?_
  have hle := List.single_le_sum hbytes _ (List.mem_map_of_mem he)
  omega

end Table

/-- With true totals below `2 ^ 63`, the totals are exact exactly if no product is cut off. -/
theorem swapExact_iff {q : HostAnswers} (h : q.SwapTable) (p : Platform) :
    SwapExact p q ↔ ∀ e ∈ q.swap.getD [],
      SwapFits p q.pageSize e.stePages ∧ SwapFits p q.pageSize e.steFree := by
  have htotal := total_eq_iff (p := p) h.block h.size (fun e he ↦ (h.counts e he).1) h.pages
  have hfree := total_eq_iff (p := p) h.block h.size (fun e he ↦ (h.counts e he).2) h.free
  rw [forall₂_and, ← htotal, ← hfree]
  constructor
  · intro hexact
    have hpages := hexact.total
    have hrest := hexact.free
    rw [walkSwapInstancesForMemCounters_eq] at hpages hrest
    exact ⟨hpages, hrest⟩
  · rintro ⟨hpages, hrest⟩
    refine ⟨?_, ?_, fun hle ↦ ?_⟩
    · rw [walkSwapInstancesForMemCounters_eq, hpages]
    · rw [walkSwapInstancesForMemCounters_eq, hrest]
    · rw [walkSwapInstancesForMemCounters_eq, UInt64.le_iff_toNat_le, ← Int.ofNat_le]
      have hsum : ((q.swap.getD []).map (·.steFree)).sum ≤
          ((q.swap.getD []).map (·.stePages)).sum := List.sum_le_sum hle
      have hmul := Int.mul_le_mul_of_nonneg_right hsum h.size
      rwa [← hpages, ← hrest] at hmul

/-- Two gigabytes but for a page of swap space on a machine with a `long` of four bytes. -/
theorem swapExact_iff_almost :
    let q : HostAnswers :=
      { HostAnswers.silent with swap := some [⟨2 ^ 19 - 1, 2 ^ 18⟩, ⟨2 ^ 19 - 1, 0⟩] }
    SwapExact .i386 q := by
  intro q
  have htable : q.SwapTable := ⟨by decide, by decide, by decide, by decide, by decide⟩
  exact (swapExact_iff htable .i386).mpr (by decide)

/-- Two gigabytes of swap space, half of them free, make a total of almost 2⁶⁴. -/
theorem not_swapExact_two :
    let q : HostAnswers := { HostAnswers.silent with swap := some [⟨524288, 262144⟩] }
    walkSwapInstancesForMemCounters .i386 q = (18446744071562067968, 1073741824) ∧
      ¬ SwapExact .i386 q := by
  intro q
  have hwalk : walkSwapInstancesForMemCounters .i386 q =
      (18446744071562067968, 1073741824) := by
    decide
  refine ⟨hwalk, fun h ↦ ?_⟩
  have htotal := h.total
  rw [hwalk] at htotal
  revert htotal
  decide

end Sflow

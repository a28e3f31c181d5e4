import Mathlib.Algebra.BigOperators.Ring.List
import Mathlib.Algebra.Order.Field.Basic
import Mathlib.Algebra.Order.Field.Rat
import Mathlib.Tactic.Ring
import Sflow.C.Sum
import Sflow.Protocol.Hostphy

/-!
# The times of the processors

`sflow_cr_host_cpu_t` declares its times as milliseconds, and each should be the
mean of a counter of nanoseconds over all processors.  The code divides by a
billion where a million makes milliseconds, and again by the number of the
processors, both times cutting off what is left.  Here it is worked out how much
time is lost on the way, and when that is little enough.
-/

namespace Sflow

open C

/-! ## Means -/

/-- Up to a multiple of `2 ^ 32` and an error of less than `n`, a word is the mean of `n` counters
of nanoseconds, in milliseconds. -/
def IsMeanMs (n : ℕ) (counters : List ℕ) (x : UInt32) : Prop :=
  ∃ k : ℤ, |(x.toNat : ℚ) + k * 2 ^ 32 - (counters.sum : ℚ) / (n * 10 ^ 6)| < (n : ℚ)

/-- The nanoseconds of a counter that are left out: of each whole second of its share all but a
millisecond, and what does not make up a whole second of a share. -/
def lostNsec (n c : ℕ) : ℕ := 999 * (n * 10 ^ 6) * (c / (n * 10 ^ 9)) + c % (n * 10 ^ 9)

/-- What is lost of all counters is almost nothing, or almost what makes a word wrap around. -/
def LittleLost (n : ℕ) (counters : List ℕ) : Prop :=
  let lost := (counters.map (lostNsec n)).sum
  let wrap := 2 ^ 32 * (n * 10 ^ 6)
  lost % wrap < n * (n * 10 ^ 6) ∨ wrap - n * (n * 10 ^ 6) < lost % wrap

instance (n : ℕ) (counters : List ℕ) : Decidable (LittleLost n counters) :=
  inferInstanceAs (Decidable (_ ∨ _))

section Mean

variable {n : ℕ} {counters : List ℕ}

/-- What is lost is the difference to the sum of the shares. -/
theorem shares_add_lost (n : ℕ) (counters : List ℕ) :
    n * 10 ^ 6 * (counters.map fun c => c / (n * 10 ^ 9)).sum + (counters.map (lostNsec n)).sum =
      counters.sum := by
  rw [← List.sum_map_mul_left, ← List.sum_map_add]
  have hcounter : ∀ c, n * 10 ^ 6 * (c / (n * 10 ^ 9)) + lostNsec n c = c := by
    intro c
    calc n * 10 ^ 6 * (c / (n * 10 ^ 9)) + lostNsec n c
        = n * 10 ^ 9 * (c / (n * 10 ^ 9)) + c % (n * 10 ^ 9) := by
          rw [lostNsec]
          ring
      _ = c := Nat.div_add_mod c _
  simp only [hcounter, List.map_id']

/-- The distance to the mean is that of what is lost to a multiple of what wraps around. -/
theorem isMeanMs_iff_exists (hn : 0 < n) {s lost : ℕ} (h : n * 10 ^ 6 * s + lost = counters.sum) :
    IsMeanMs n counters (UInt32.ofNat s) ↔
      ∃ k : ℤ, |k * (2 ^ 32 * (n * 10 ^ 6) : ℕ) - lost| < (n * (n * 10 ^ 6) : ℕ) := by
  have hu : (0 : ℚ) < n * 10 ^ 6 := by exact_mod_cast Nat.mul_pos hn (by decide)
  have hword : (s : ℚ) = (s % 2 ^ 32 : ℕ) + (s / 2 ^ 32 : ℕ) * 2 ^ 32 := by
    have hdiv := Nat.mod_add_div s (2 ^ 32)
    rw [mul_comm] at hdiv
    exact_mod_cast hdiv.symm
  have hcounters : (counters.sum : ℚ) = n * 10 ^ 6 * s + lost := by exact_mod_cast h.symm
  have hiff : ∀ k : ℤ, |((s % 2 ^ 32 : ℕ) : ℚ) + (k + (s / 2 ^ 32 : ℕ) : ℤ) * 2 ^ 32 -
      (counters.sum : ℚ) / (n * 10 ^ 6)| < (n : ℚ) ↔
        |k * (2 ^ 32 * (n * 10 ^ 6) : ℕ) - (lost : ℤ)| < (n * (n * 10 ^ 6) : ℕ) := by
    intro k
    have hdist : ((s % 2 ^ 32 : ℕ) : ℚ) + (k + (s / 2 ^ 32 : ℕ) : ℤ) * 2 ^ 32 -
        (counters.sum : ℚ) / (n * 10 ^ 6) =
          (k * (2 ^ 32 * (n * 10 ^ 6)) - lost) / (n * 10 ^ 6) := by
      rw [hcounters, eq_div_iff hu.ne', sub_mul, div_mul_cancel₀ _ hu.ne', hword,
        Int.cast_add, Int.cast_natCast]
      ring
    rw [hdist, abs_div, abs_of_pos hu, div_lt_iff₀ hu]
    exact_mod_cast Iff.rfl
  simp only [IsMeanMs, UInt32.toNat_ofNat']
  constructor
  · rintro ⟨k, hk⟩
    refine ⟨k - (s / 2 ^ 32 : ℕ), (hiff _).mp ?_⟩
    rwa [sub_add_cancel]
  · rintro ⟨k, hk⟩
    exact ⟨_, (hiff k).mpr hk⟩

/-- The sum of the shares is the mean in milliseconds exactly if little is lost. -/
theorem isMeanMs_iff (hn : 0 < n) (hword : n ≤ 2 ^ 32) (counters : List ℕ) :
    IsMeanMs n counters (UInt32.ofNat (counters.map fun c => c / (n * 10 ^ 9)).sum) ↔
      LittleLost n counters := by
  have hu : 0 < n * 10 ^ 6 := Nat.mul_pos hn (by decide)
  rw [isMeanMs_iff_exists hn (shares_add_lost n counters), LittleLost]
  exact exists_near_iff (Nat.mul_pos (by decide) hu) (Nat.mul_le_mul_right _ hword)

end Mean

/-! ## The walk -/

/-- The times that are averaged, and the counters behind them. -/
def cpuTimes : List ((CpuCounters → UInt32) × (CpuAnswers → Option UInt64)) :=
  [(CpuCounters.cpuUser, CpuAnswers.nsecUser), (CpuCounters.cpuSystem, CpuAnswers.nsecKernel),
    (CpuCounters.cpuIdle, CpuAnswers.nsecIdle), (CpuCounters.cpuIntr, CpuAnswers.nsecIntr)]

/-- The counters of all processors. -/
def HostAnswers.nsecs (q : HostAnswers) (nsec : CpuAnswers → Option UInt64) : List ℕ :=
  q.cpus.map fun a => ((nsec a).getD 0).toNat

section Walk

variable {p : Platform} {cpuNum : UInt32}
  {x : (CpuCounters → UInt32) × (CpuAnswers → Option UInt64)}

/-- One processor adds its share to each of the times. -/
theorem time_add (hx : x ∈ cpuTimes) (h : CpuCounters) (a : CpuAnswers) (bufBig : CStr) :
    x.1 (h.add p cpuNum a bufBig) =
      x.1 h + UInt32.ofNat (((x.2 a).getD 0).toNat / (cpuNum.toNat * 10 ^ 9)) := by
  have hshare : ∀ c : UInt64, (c / 1000000000 / cpuNum.toUInt64).toUInt32 =
      UInt32.ofNat (c.toNat / (cpuNum.toNat * 10 ^ 9)) := by
    intro c
    rw [Nat.mul_comm, ← Nat.div_div_eq_div_mul]
    rfl
  simp only [cpuTimes, List.mem_cons, List.not_mem_nil, or_false] at hx
  rw [← hshare]
  rcases hx with rfl | rfl | rfl | rfl <;> rfl

/-- The walk over the processors adds up the shares. -/
theorem time_walkCpus (hx : x ∈ cpuTimes) (cpus : List CpuAnswers) (bufBig : CStr)
    (h : CpuCounters) :
    x.1 (walkCpus p cpuNum cpus bufBig h) = x.1 h + UInt32.ofNat
      (cpus.map fun a => ((x.2 a).getD 0).toNat / (cpuNum.toNat * 10 ^ 9)).sum := by
  induction cpus generalizing bufBig h with
  | nil => exact (UInt32.add_zero _).symm
  | cons a rest ih =>
      rw [walkCpus, ih, time_add hx, List.map_cons, List.sum_cons, UInt32.ofNat_add,
        UInt32.add_assoc]

end Walk

/-! ## When the times are means -/

/-- The walk ends, and each time is the mean of the counters of all processors. -/
def TimesAreMeans (p : Platform) (q : HostAnswers) (bufBig : CStr) : Prop :=
  ∃ h, walkCpuInstancesForCpuCounters p q bufBig = .ok h ∧
    ∀ x ∈ cpuTimes, IsMeanMs (q.ncpus.getD 0).toNat (q.nsecs x.2) (x.1 h)

/-- The times are means in milliseconds exactly if the buffers suffice and little is lost of any of
the counters.  A counter that is not answered counts as zero. -/
theorem timesAreMeans_iff {q : HostAnswers} (hncpus : 1 ≤ (q.ncpus.getD 0).toNat) (p : Platform)
    (bufBig : CStr) :
    TimesAreMeans p q bufBig ↔ q.CpuBuffersFit ∧
      ∀ x ∈ cpuTimes, LittleLost (q.ncpus.getD 0).toNat (q.nsecs x.2) := by
  have htimes : (∀ x ∈ cpuTimes, IsMeanMs (q.ncpus.getD 0).toNat (q.nsecs x.2)
      (x.1 (walkCpus p (q.ncpus.getD 0) q.cpus bufBig {}))) ↔
        ∀ x ∈ cpuTimes, LittleLost (q.ncpus.getD 0).toNat (q.nsecs x.2) := by
    refine forall₂_congr fun x hx ↦ ?_
    have hzero : x.1 {} = 0 := by
      simp only [cpuTimes, List.mem_cons, List.not_mem_nil, or_false] at hx
      rcases hx with rfl | rfl | rfl | rfl <;> rfl
    rw [time_walkCpus hx, hzero, UInt32.zero_add,
      ← isMeanMs_iff hncpus (Nat.le_of_lt (UInt32.toNat_lt _)), HostAnswers.nsecs, List.map_map]
    rfl
  unfold TimesAreMeans walkCpuInstancesForCpuCounters
  rw [← htimes]
  constructor
  · rintro ⟨h, hwalk, hmeans⟩
    split at hwalk
    · next hfit =>
        cases hwalk
        exact ⟨hfit, hmeans⟩
    · cases hwalk
  · rintro ⟨hfit, hmeans⟩
    exact ⟨_, if_pos hfit, hmeans⟩

/-- A host with one processor that has been up for some nanoseconds, for examples. -/
def HostAnswers.oneCpu (nsec : UInt64) : HostAnswers :=
  { HostAnswers.silent with
    ncpus := some 1
    cpu := fun _ => ⟨some .empty, some nsec, some nsec, some nsec, some nsec, some 0, some 0⟩ }

/-- Less than a millisecond. -/
theorem timesAreMeans_iff_short : TimesAreMeans .amd64 (.oneCpu 999999) .empty :=
  (timesAreMeans_iff (by decide) .amd64 .empty).mpr (by decide)

/-- A minute is 60 and not 60000. -/
theorem not_timesAreMeans_minute :
    walkCpuInstancesForCpuCounters .amd64 (.oneCpu 60000000000) .empty =
        .ok ⟨0, 60, 60, 60, 60, 0, 0⟩ ∧
      ¬ TimesAreMeans .amd64 (.oneCpu 60000000000) .empty := by
  have hwalk : walkCpuInstancesForCpuCounters .amd64 (.oneCpu 60000000000) .empty =
      .ok ⟨0, 60, 60, 60, 60, 0, 0⟩ := by decide
  refine ⟨hwalk, ?_⟩
  rintro ⟨h, hok, hmeans⟩
  rw [hwalk, Except.ok.injEq] at hok
  subst hok
  have huser := hmeans (CpuCounters.cpuUser, CpuAnswers.nsecUser) List.mem_cons_self
  have hlost : LittleLost 1 [60000000000] :=
    (isMeanMs_iff (by decide) (by decide) [60000000000]).mp huser
  revert hlost
  decide

end Sflow

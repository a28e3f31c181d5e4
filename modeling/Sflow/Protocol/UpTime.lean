import Mathlib.Data.Int.ModEq
import Sflow.Protocol.Queries

/-!
# The time since the boot

`get_up_time_sec` looks for the time of the boot in the user accounting database
and keeps it in `start_time` for the calls to come.  Its loop is meant to end at a
record of a boot, and does so unless hours and minutes are both to be logged.  So it
depends on the clock which record is kept, and for good.
-/

namespace Sflow

open C

/-! ## A call, with what it keeps -/

/-- Hours and minutes are both to be logged. -/
def Utmpx.logsBoth (utp : Utmpx) : Bool :=
  let uptime := utp.now - utp.tvSec + 30
  let hrs := (uptime.tmod (60 * 60 * 24)).tdiv (60 * 60)
  let mins := ((uptime.tmod (60 * 60 * 24)).tmod (60 * 60)).tdiv 60
  0 < hrs ∧ 0 < mins

/-- The loop over the records, with the variables `start_time` and `ret`. -/
def scanUtmpx : List Utmpx → Int × Option Int → Int × Option Int
  | [], s => s
  | utp :: rest, s =>
      if utp.bootTime then
        let s := (utp.tvSec, some (utp.now - utp.tvSec + 30))
        if utp.logsBoth then scanUtmpx rest s else s
      else scanUtmpx rest s

/-- What `get_up_time_sec` returns, and `start_time` behind the call. -/
def UpTimeAnswers.call (a : UpTimeAnswers) (ret : Int) : UInt32 × Int :=
  if a.startTime ≠ 0 then (UInt32.ofInt (a.now - a.startTime + 30), a.startTime)
  else
    let s := scanUtmpx a.utmpx (a.startTime, none)
    (UInt32.ofInt (s.2.getD ret), s.1)

/-- The database as it is read while the clock shows `now`. -/
def readAt (now : Int) (file : List Utmpx) : List Utmpx :=
  file.map fun utp => { utp with now := now }

/-- The calls of a run, each at a reading of the clock, and what they return. -/
def upTimeCalls (file : List Utmpx) (ret : Int) : Int → List Int → List UInt32
  | _, [] => []
  | startTime, now :: nows =>
      let r := (UpTimeAnswers.mk startTime now (readAt now file)).call ret
      r.1 :: upTimeCalls file ret r.2 nows

/-! ## The record that is kept -/

section Record

/-- The loop ends at this record. -/
def Utmpx.stops (utp : Utmpx) : Bool := utp.bootTime && !utp.logsBoth

/-- The record of the last boot. -/
def lastBoot (file : List Utmpx) : Option Utmpx := (file.filter (·.bootTime)).getLast?

/-- The record that the loop leaves in its variables. -/
def keptRecord (file : List Utmpx) : Option Utmpx := (file.find? (·.stops)).or (lastBoot file)

variable {utp : Utmpx} {rest : List Utmpx}

theorem lastBoot_cons_of_boot (h : utp.bootTime = true) :
    lastBoot (utp :: rest) = (lastBoot rest).or (some utp) := by
  rw [lastBoot, List.filter_cons_of_pos h, List.getLast?_cons, lastBoot]
  cases (rest.filter (·.bootTime)).getLast? <;> rfl

theorem lastBoot_cons_of_not_boot (h : ¬ utp.bootTime = true) :
    lastBoot (utp :: rest) = lastBoot rest := by
  rw [lastBoot, List.filter_cons_of_neg h, lastBoot]

/-- The loop stops at a record or keeps that of the last boot. -/
theorem scanUtmpx_eq (file : List Utmpx) (s : Int × Option Int) :
    scanUtmpx file s = ((keptRecord file).map fun utp =>
      (utp.tvSec, some (utp.now - utp.tvSec + 30))).getD s := by
  induction file generalizing s with
  | nil => rfl
  | cons utp rest ih =>
      rw [scanUtmpx]
      by_cases hboot : utp.bootTime = true
      · rw [if_pos hboot]
        dsimp only
        by_cases hboth : utp.logsBoth = true
        · have hstops : ¬ utp.stops = true := by simp [Utmpx.stops, hboth]
          have hkept : keptRecord (utp :: rest) = (keptRecord rest).or (some utp) := by
            rw [keptRecord, List.find?_cons_of_neg hstops, lastBoot_cons_of_boot hboot,
              keptRecord, Option.or_assoc]
          rw [if_pos hboth, ih, hkept]
          cases keptRecord rest <;> rfl
        · have hstops : utp.stops = true := by simp [Utmpx.stops, hboot, hboth]
          have hkept : keptRecord (utp :: rest) = some utp := by
            rw [keptRecord, List.find?_cons_of_pos hstops, Option.some_or]
          rw [if_neg hboth, hkept]
          rfl
      · have hstops : ¬ utp.stops = true := by simp [Utmpx.stops, hboot]
        have hkept : keptRecord (utp :: rest) = keptRecord rest := by
          rw [keptRecord, List.find?_cons_of_neg hstops, lastBoot_cons_of_not_boot hboot,
            keptRecord]
        rw [if_neg hboot, ih, hkept]

/-- The loop returns what it returns without `start_time`. -/
theorem scanUtmpx_snd (file : List Utmpx) (s : Int × Option Int) :
    (scanUtmpx file s).2 = (readUtmpx file).or s.2 := by
  induction file generalizing s with
  | nil => rfl
  | cons utp rest ih =>
      rw [scanUtmpx, readUtmpx]
      by_cases hboot : utp.bootTime = true
      · rw [if_pos hboot, if_pos hboot]
        dsimp only
        by_cases hboth : utp.logsBoth = true
        · have hlogs := of_decide_eq_true hboth
          rw [if_pos hboth, if_pos hlogs, ih, Option.or_assoc, Option.some_or]
        · have hlogs := mt decide_eq_true hboth
          rw [if_neg hboth, if_neg hlogs, Option.some_or]
      · rw [if_neg hboot, if_neg hboot, ih]

theorem call_fst (a : UpTimeAnswers) (ret : Int) : (a.call ret).1 = getUpTimeSec a ret := by
  unfold UpTimeAnswers.call getUpTimeSec
  split
  · rfl
  · dsimp only
    rw [scanUtmpx_snd, Option.or_none]

end Record

/-! ## A run -/

/-- If the loop stops, then at a record with the time of the last boot. -/
def StopsRight (file : List Utmpx) (last : Utmpx) (now : Int) : Prop :=
  ∀ utp ∈ (readAt now file).find? (·.stops), UInt32.ofInt utp.tvSec = UInt32.ofInt last.tvSec

instance (file : List Utmpx) (last : Utmpx) (now : Int) : Decidable (StopsRight file last now) := by
  unfold StopsRight
  infer_instance

section Run

variable {file : List Utmpx} {last : Utmpx} (hlast : lastBoot file = some last)
include hlast

/-- The record of the last boot is the same at all times. -/
theorem lastBoot_readAt (now : Int) :
    lastBoot (readAt now file) = some { last with now := now } := by
  rw [lastBoot, readAt, List.filter_map, List.getLast?_map]
  change ((file.filter (·.bootTime)).getLast?).map _ = _
  rw [← lastBoot, hlast]
  rfl

/-- A call with nothing kept goes by the record that it finds, and keeps its time.  It is the right
one if the loop stops at no other. -/
theorem exists_call_eq (now ret : Int) :
    ∃ tvSec, (UpTimeAnswers.mk 0 now (readAt now file)).call ret =
        (UInt32.ofInt (now - tvSec + 30), tvSec) ∧
      (UInt32.ofInt tvSec = UInt32.ofInt last.tvSec ↔ StopsRight file last now) := by
  have hcall : ∀ utp, keptRecord (readAt now file) = some utp → utp.now = now →
      (UpTimeAnswers.mk 0 now (readAt now file)).call ret =
        (UInt32.ofInt (now - utp.tvSec + 30), utp.tvSec) := by
    intro utp hkept hnow
    unfold UpTimeAnswers.call
    rw [if_neg (not_not.mpr rfl)]
    dsimp only
    rw [scanUtmpx_eq, hkept, ← hnow]
    rfl
  unfold StopsRight
  cases hfind : (readAt now file).find? (·.stops) with
  | none =>
      refine ⟨last.tvSec, hcall { last with now := now } ?_ rfl, iff_of_true rfl nofun⟩
      rw [keptRecord, hfind, lastBoot_readAt hlast]
      rfl
  | some utp =>
      have hnow : utp.now = now := by
        obtain ⟨utp, -, rfl⟩ := List.mem_map.mp (List.mem_of_find?_eq_some hfind)
        rfl
      refine ⟨utp.tvSec, hcall utp ?_ hnow, ?_⟩
      · rw [keptRecord, hfind]
        rfl
      · simp only [Option.mem_def, Option.some.injEq, forall_eq']

omit hlast in
/-- Times of the boot that make a difference show in what is returned. -/
theorem ofInt_upTime_eq_iff (now s b : Int) :
    UInt32.ofInt (now - s + 30) = UInt32.ofInt (now - b + 30) ↔
      UInt32.ofInt s = UInt32.ofInt b := by
  simp only [Int.sub_eq_add_neg, UInt32.ofInt_add, UInt32.ofInt_neg, UInt32.add_left_inj,
    UInt32.add_right_inj, UInt32.neg_inj]

/-- With the right time kept, or none, the calls return the right times. -/
theorem upTimeCalls_eq {startTime : Int}
    (hstart : startTime = 0 ∨ UInt32.ofInt startTime = UInt32.ofInt last.tvSec) {nows : List Int}
    (h : ∀ now ∈ nows, StopsRight file last now) (ret : Int) :
    upTimeCalls file ret startTime nows =
      nows.map fun now => UInt32.ofInt (now - last.tvSec + 30) := by
  induction nows generalizing startTime with
  | nil => rfl
  | cons now nows ih =>
      have hrest := fun now hnow ↦ h now (List.mem_cons_of_mem _ hnow)
      rw [upTimeCalls, List.map_cons]
      by_cases hzero : startTime = 0
      · subst hzero
        obtain ⟨tvSec, hcall, hiff⟩ := exists_call_eq hlast now ret
        have hright := hiff.mpr (h now List.mem_cons_self)
        rw [hcall, ih (.inr hright) hrest, (ofInt_upTime_eq_iff now _ _).mpr hright]
      · have hright := hstart.resolve_left hzero
        have hcall : (UpTimeAnswers.mk startTime now (readAt now file)).call ret =
            (UInt32.ofInt (now - startTime + 30), startTime) := if_pos hzero
        rw [hcall, ih hstart hrest, (ofInt_upTime_eq_iff now _ _).mpr hright]

end Run

/-- The calls of a run return what they would if nothing was kept, which is the time since the last
boot and grows as long as it does not wrap around. -/
structure UpTimesAgree (file : List Utmpx) (ret bootTime : Int) (nows : List Int) : Prop where
  fresh : upTimeCalls file ret 0 nows =
    nows.map fun now => getUpTimeSec ⟨0, now, readAt now file⟩ ret
  exact : upTimeCalls file ret 0 nows = nows.map fun now => UInt32.ofInt (now - bootTime + 30)
  mono : (nows.zip (upTimeCalls file ret 0 nows)).Pairwise fun x y =>
    0 ≤ x.1 - bootTime + 30 → y.1 - bootTime + 30 < 2 ^ 32 → x.2 ≤ y.2

/-- The time since the boot is kept as it should be exactly if the loop never stops at a record with
another time than the last one of a boot. -/
theorem upTimesAgree_iff {file : List Utmpx} {last : Utmpx} (hlast : lastBoot file = some last)
    {nows : List Int} (hnows : nows.Pairwise (· ≤ ·)) (ret : Int) :
    UpTimesAgree file ret last.tvSec nows ↔ ∀ now ∈ nows, StopsRight file last now := by
  have hfresh : ∀ now, getUpTimeSec ⟨0, now, readAt now file⟩ ret =
      UInt32.ofInt (now - last.tvSec + 30) ↔ StopsRight file last now := by
    intro now
    obtain ⟨tvSec, hcall, hiff⟩ := exists_call_eq hlast now ret
    rw [← call_fst, hcall, ← hiff, ofInt_upTime_eq_iff]
  constructor
  · intro h now hnow
    have heq := h.fresh.symm.trans h.exact
    exact (hfresh now).mp (List.map_inj_left.mp heq now hnow)
  · intro h
    have hexact := upTimeCalls_eq hlast (.inl rfl) h ret
    refine ⟨?_, hexact, ?_⟩
    · rw [hexact]
      exact (List.map_congr_left fun now hnow ↦ (hfresh now).mpr (h now hnow)).symm
    · rw [hexact, ← List.map_prod_left_eq_zip, List.pairwise_map]
      refine hnows.imp fun {now now'} hle hlow hhigh ↦ ?_
      have hword : ∀ x : Int, 0 ≤ x → x < 2 ^ 32 → (UInt32.ofInt x).toNat = x.toNat := by
        intro x hnonneg hlt
        rw [UInt32.ofInt, Int.emod_eq_of_lt hnonneg hlt, UInt32.toNat_ofNat']
        exact Nat.mod_eq_of_lt (by omega)
      rw [UInt32.le_iff_toNat_le, hword _ hlow (by omega), hword _ (by omega) hhigh]
      omega

/-- The database of a machine that has been booted twice, for examples. -/
def bootedTwice : List Utmpx := [⟨true, 1000, 0⟩, ⟨false, 1500, 0⟩, ⟨true, 2000, 0⟩]

/-- At these times the first boot was an hour and a minute ago, at least. -/
theorem upTimesAgree_iff_later : UpTimesAgree bootedTwice 0 2000 [5000, 5020, 6000] := by
  have hlast : lastBoot bootedTwice = some ⟨true, 2000, 0⟩ := by decide
  exact (upTimesAgree_iff hlast (by decide) 0).mpr (by decide)

/-- Ten minutes after the second boot the loop stops at the first one, and that is kept. -/
theorem not_upTimesAgree_early :
    upTimeCalls bootedTwice 0 0 [2600, 5000] = [1630, 4030] ∧
      getUpTimeSec ⟨0, 5000, readAt 5000 bootedTwice⟩ 0 = 3030 ∧
      ¬ UpTimesAgree bootedTwice 0 2000 [2600, 5000] := by
  refine ⟨by decide, by decide, fun h ↦ ?_⟩
  have hexact := h.exact
  revert hexact
  decide

end Sflow

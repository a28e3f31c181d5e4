import Sflow.Protocol.Hostphy

/-!
# Counting processes

`count_process` reads the `psinfo` of every process that `/proc` lists.  A process
may exit between the two, and then its entry cannot be opened, or not be read.  The
loop has an exit for each of these, and takes the descriptor 0 for a failure of
`open`, which returns -1.  No exit but the last closes the directory.
-/

namespace Sflow

open C

/-! ## The loop -/

/-- A directory of `/proc`, and what becomes of its `psinfo`. -/
structure ProcFile where
  dName : List Char
  /-- The descriptor, `none` where `open` returns -1. -/
  fd : Option Nat
  /-- `pr_sname`, where all of the `psinfo` can be read. -/
  psinfo : Option Char
deriving DecidableEq, Repr

/-- What `count_process` leaves behind. -/
structure ProcCount where
  status : Int
  total : UInt32
  running : UInt32
  /-- The directory is still open. -/
  procdirOpen : Bool
deriving DecidableEq, Repr

def countProcFiles : List ProcFile → UInt32 → UInt32 → ProcCount
  | [], total, running => ⟨0, total, running, false⟩
  | direntp :: rest, total, running =>
      let pid := atoi direntp.dName
      if direntp.dName.head? = some '.' then countProcFiles rest total running
      else if pid = 0 ∨ pid = 2 ∨ pid = 3 then countProcFiles rest total running
      else if direntp.fd = some 0 then ⟨1, total, running, true⟩
      else
        -- reading from -1 fails
        match direntp.fd, direntp.psinfo with
        | some _, some prSname =>
            countProcFiles rest (total + 1)
              (if prSname = 'R' ∨ prSname = 'O' then running + 1 else running)
        | _, _ => ⟨1, total, running, true⟩

/-- `none` where `/proc` cannot be opened.  `running` is not set to zero first. -/
def countProcFilesIn (procdir : Option (List ProcFile)) (running : UInt32) : ProcCount :=
  match procdir with
  | none => ⟨-1, 0, running, false⟩
  | some files => countProcFiles files 0 running

namespace ProcFile

/-- Neither hidden nor `sched`, `pageout` or `fsflush`. -/
def counts (f : ProcFile) : Bool :=
  f.dName.head? ≠ some '.' ∧ atoi f.dName ∉ [0, 2, 3]

/-- The process is still there. -/
def remains (f : ProcFile) : Bool := f.fd.isSome && f.psinfo.isSome

def runs (f : ProcFile) : Bool := f.psinfo = some 'R' || f.psinfo = some 'O'

/-- The process is still there, and its descriptor is not 0. -/
def taken (f : ProcFile) : Bool := f.remains && f.fd ≠ some 0

/-- The process as the packer of the record is told of it. -/
def entry (f : ProcFile) : ProcEntry := ⟨f.dName, if f.taken then f.psinfo else none⟩

end ProcFile

section Loop

variable {f : ProcFile} {rest files : List ProcFile} {total running : UInt32}

theorem ProcFile.counts_eq_true : f.counts = true ↔
    ¬ f.dName.head? = some '.' ∧ ¬ (atoi f.dName = 0 ∨ atoi f.dName = 2 ∨ atoi f.dName = 3) := by
  simp [ProcFile.counts]

/-- An entry that does not count is passed over. -/
theorem countProcFiles_skip (h : ¬ f.counts = true) :
    countProcFiles (f :: rest) total running = countProcFiles rest total running := by
  rw [ProcFile.counts_eq_true, not_and_or, not_not, not_not] at h
  rw [countProcFiles]
  split
  · rfl
  · next hdot => exact if_pos (h.resolve_left hdot)

/-- A process that is taken is counted. -/
theorem countProcFiles_take (hcounts : f.counts = true) (htaken : f.taken = true) :
    countProcFiles (f :: rest) total running =
      countProcFiles rest (total + 1) (if f.runs then running + 1 else running) := by
  obtain ⟨hdot, hpid⟩ := ProcFile.counts_eq_true.mp hcounts
  obtain ⟨dName, fd, psinfo⟩ := f
  cases fd with
  | none => cases htaken
  | some fd =>
      cases psinfo with
      | none => cases htaken
      | some prSname =>
          have hfd : ¬ some fd = some 0 := by
            simpa [ProcFile.taken, ProcFile.remains] using htaken
          have hruns : (ProcFile.mk dName (some fd) (some prSname)).runs = true ↔
              prSname = 'R' ∨ prSname = 'O' := by
            simp [ProcFile.runs]
          rw [countProcFiles]
          simp only [if_neg hdot, if_neg hpid, if_neg hfd, hruns]

/-- Any other process is the end of it. -/
theorem countProcFiles_stop (hcounts : f.counts = true) (htaken : ¬ f.taken = true) :
    countProcFiles (f :: rest) total running = ⟨1, total, running, true⟩ := by
  obtain ⟨hdot, hpid⟩ := ProcFile.counts_eq_true.mp hcounts
  rw [countProcFiles]
  simp only [if_neg hdot, if_neg hpid]
  split
  · rfl
  · next hfd =>
      split
      · next prSname hopen hread =>
          refine absurd ?_ htaken
          simp [ProcFile.taken, ProcFile.remains, hopen, hread] at hfd ⊢
          exact hfd
      · rfl

/-- The packer is told of the processes that the loop counts. -/
theorem countProcFiles_entry :
    ((countProcFiles files total running).total, (countProcFiles files total running).running) =
      countProcessLoop (files.map (·.entry)) (total, running) := by
  induction files generalizing total running with
  | nil => rfl
  | cons f rest ih =>
      have hname : f.entry.dName = f.dName := rfl
      have hpsinfo : f.entry.psinfo = if f.taken then f.psinfo else none := rfl
      rw [List.map_cons, countProcessLoop, hname, hpsinfo]
      by_cases hcounts : f.counts = true
      · obtain ⟨hdot, hpid⟩ := ProcFile.counts_eq_true.mp hcounts
        rw [if_neg hdot]
        simp only [if_neg hpid]
        by_cases htaken : f.taken = true
        · have hread : f.psinfo.isSome := by
            simp only [ProcFile.taken, ProcFile.remains, Bool.and_eq_true] at htaken
            exact htaken.1.2
          obtain ⟨prSname, hread⟩ := Option.isSome_iff_exists.mp hread
          have hruns : f.runs = true ↔ prSname = 'R' ∨ prSname = 'O' := by
            simp [ProcFile.runs, hread]
          rw [countProcFiles_take hcounts htaken, if_pos htaken, hread, ih]
          simp only [hruns]
        · rw [countProcFiles_stop hcounts htaken, if_neg htaken]
      · rw [countProcFiles_skip hcounts, ih]
        rw [ProcFile.counts_eq_true, not_and_or, not_not, not_not] at hcounts
        split
        · rfl
        · next hdot => exact (if_pos (hcounts.resolve_left hdot)).symm

/-! ## Processes that are there -/

/-- As long as every process that counts is taken, all of them are counted. -/
theorem countProcFiles_of_taken (h : ∀ f ∈ files, f.counts = true → f.taken = true) :
    countProcFiles files total running =
      ⟨0, total + UInt32.ofNat (files.countP fun f => f.counts && f.remains),
        running + UInt32.ofNat (files.countP fun f => f.counts && f.remains && f.runs), false⟩ := by
  induction files generalizing total running with
  | nil =>
      change ProcCount.mk 0 total running false = ⟨0, total + 0, running + 0, false⟩
      rw [UInt32.add_zero, UInt32.add_zero]
  | cons f rest ih =>
      have hrest := fun f hf ↦ h f (List.mem_cons_of_mem _ hf)
      by_cases hcounts : f.counts = true
      · have htaken := h f List.mem_cons_self hcounts
        have hremains : f.remains = true := (Bool.and_eq_true _ _ ▸ htaken).1
        have hone : ∀ (n : UInt32) (k : Nat),
            n + 1 + UInt32.ofNat k = n + UInt32.ofNat (k + 1) := by
          intro n k
          rw [UInt32.ofNat_add, UInt32.add_assoc, UInt32.add_comm 1]
          rfl
        rw [countProcFiles_take hcounts htaken, ih hrest]
        by_cases hruns : f.runs = true
        · rw [if_pos hruns, hone, hone, List.countP_cons_of_pos (by simp [hcounts, hremains]),
            List.countP_cons_of_pos (by simp [hcounts, hremains, hruns])]
        · rw [if_neg hruns, hone, List.countP_cons_of_pos (by simp [hcounts, hremains]),
            List.countP_cons_of_neg (by simp [hruns])]
      · rw [countProcFiles_skip hcounts, ih hrest, List.countP_cons_of_neg (by simp [hcounts]),
          List.countP_cons_of_neg (by simp [hcounts])]

/-- Otherwise the directory is left open. -/
theorem procdirOpen_of_not_taken (h : ∃ f ∈ files, f.counts = true ∧ ¬ f.taken = true) :
    (countProcFiles files total running).procdirOpen = true := by
  induction files generalizing total running with
  | nil => exact absurd h (by simp)
  | cons f rest ih =>
      by_cases hcounts : f.counts = true
      · by_cases htaken : f.taken = true
        · rw [countProcFiles_take hcounts htaken]
          refine ih ?_
          obtain ⟨f', hf', hcounts', htaken'⟩ := h
          rcases List.mem_cons.mp hf' with rfl | hf'
          · exact absurd htaken htaken'
          · exact ⟨f', hf', hcounts', htaken'⟩
        · rw [countProcFiles_stop hcounts htaken]
      · rw [countProcFiles_skip hcounts]
        refine ih ?_
        obtain ⟨f', hf', hcounts', htaken'⟩ := h
        rcases List.mem_cons.mp hf' with rfl | hf'
        · exact absurd hcounts' hcounts
        · exact ⟨f', hf', hcounts', htaken'⟩

end Loop

/-- The processes that remain are counted, those that run among them, and the directory is
closed. -/
structure CountsRemaining (files : List ProcFile) : Prop where
  total : (countProcFilesIn (some files) 0).total =
    UInt32.ofNat (files.countP fun f => f.counts && f.remains)
  running : (countProcFilesIn (some files) 0).running =
    UInt32.ofNat (files.countP fun f => f.counts && f.remains && f.runs)
  closed : (countProcFilesIn (some files) 0).procdirOpen = false

/-- The remaining processes are counted exactly if all of them remain, and none has the
descriptor 0. -/
theorem countsRemaining_iff (files : List ProcFile) :
    CountsRemaining files ↔
      ∀ f ∈ files, f.counts = true → f.remains = true ∧ f.fd ≠ some 0 := by
  have htaken : (∀ f ∈ files, f.counts = true → f.remains = true ∧ f.fd ≠ some 0) ↔
      ∀ f ∈ files, f.counts = true → f.taken = true := by
    simp only [ProcFile.taken, Bool.and_eq_true, decide_eq_true_eq]
  rw [htaken]
  constructor
  · intro h
    by_contra hnot
    push Not at hnot
    have hopen := h.closed
    rw [countProcFilesIn, procdirOpen_of_not_taken hnot] at hopen
    cases hopen
  · intro h
    have hcount : countProcFiles files 0 0 = _ := countProcFiles_of_taken h
    rw [UInt32.zero_add, UInt32.zero_add] at hcount
    refine ⟨?_, ?_, ?_⟩ <;> rw [countProcFilesIn, hcount]

/-- A process that exits before its `psinfo` is opened hides the one behind it. -/
theorem not_countsRemaining_exited :
    let files : List ProcFile := [⟨['1'], some 4, some 'S'⟩, ⟨['7'], none, none⟩,
      ⟨['8'], some 4, some 'R'⟩]
    countProcFilesIn (some files) 0 = ⟨1, 1, 0, true⟩ ∧ ¬ CountsRemaining files := by
  intro files
  refine ⟨by decide, fun h ↦ ?_⟩
  have hclosed := h.closed
  revert hclosed
  decide

end Sflow

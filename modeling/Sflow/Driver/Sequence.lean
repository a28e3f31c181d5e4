import Sflow.Sender.Numbered
import Sflow.Source.Added

/-!
# Sequence numbers

A source counts its samples.  The master thread does so for a flow source, while it
logs that there is a packet and before it makes the sample; a counter source is counted by
`sflow_counter_sample_pack`, with the count as it was.  The samples of a source then go into
the buffer by way of one thread, and from there into datagrams.

A source that is removed while its thread is at work leaves the thread with memory that is no
longer its own, and that may have been given to another source.  The thread goes on to count
there.  What sample it makes of the memory is left open.
-/

namespace Sflow

open C Run

variable {S R : Type} {p : Platform}

/-! ## Numbers in samples -/

namespace SflowSp

/-- The sequence number of a sample, as a collector reads it. -/
def seqNo (sp : SflowSp p R) : UInt32 :=
  match sp.data with
  | .flow fs => ntohl p.endian fs.sfsSeqNo
  | .counter cs => ntohl p.endian cs.scsSeqNo

/-- The pool of a flow sample. -/
def pool (sp : SflowSp p R) : Option UInt32 :=
  match sp.data with
  | .flow fs => some (ntohl p.endian fs.sfsPool)
  | .counter _ => none

end SflowSp

namespace SflowSource

/-- The source is read by the master thread, and not polled. -/
abbrev IsFlow (src : SflowSource) : Prop := src.ssType = .flowsample

/-- The number of the first sample of a source. -/
def firstSeqNo (src : SflowSource) : Nat := if src.IsFlow then 1 else 0

/-- The numbers that the samples of a source are to carry, one after the other. -/
def nthSeqNo (src : SflowSource) (i : Nat) : UInt32 := UInt32.ofNat (src.firstSeqNo + i)

end SflowSource

theorem eq_ok_of_toOption {ε α : Type*} {x : Except ε α} {a : α} (h : x.toOption = some a) :
    x = .ok a := by
  cases x with
  | error => cases h
  | ok => exact congrArg Except.ok (Option.some.inj h)

theorem getSampleFlowsample_seqNo {source source' : SflowSource} {pkt : R} {len : Nat}
    {sp : SflowSp p R} (h : getSampleFlowsample p source pkt len = .ok (sp, source')) :
    sp.seqNo = UInt32.ofNat source.ssCount ∧
      sp.pool = some (UInt32.ofNat source.ssCount * UInt32.ofInt source.ssRate) ∧
      source' = { source with fspPool := source'.fspPool } := by
  obtain ⟨fs, hfs, h⟩ := bind_eq_ok.mp h
  obtain ⟨sp', hsp, h⟩ := bind_eq_ok.mp h
  cases h
  obtain ⟨⟨records, rest⟩, -, hfs⟩ := bind_eq_ok.mp hfs
  obtain ⟨-, -, hfs⟩ := bind_eq_ok.mp hfs
  obtain ⟨len, -, hsp⟩ := bind_eq_ok.mp hsp
  cases hfs
  cases hsp
  exact ⟨ntohl_htonl _ _, congrArg some (ntohl_htonl _ _), rfl⟩

theorem counterSample_seqNo {source source' : SflowSource}
    {payloads : List (Option (CrPayload p) × CrKind)} {sp : SflowSp p R}
    (h : counterSample source payloads = .ok (sp, source')) :
    sp.seqNo = UInt32.ofNat source.ssCount ∧
      source' = { source with ssCount := source.ssCount + 1 } := by
  obtain ⟨crs, -, h⟩ := bind_eq_ok.mp h
  obtain ⟨⟨cs, src⟩, hcs, h⟩ := bind_eq_ok.mp h
  obtain ⟨sp', hsp, h⟩ := bind_eq_ok.mp h
  cases h
  obtain ⟨⟨records, rest⟩, -, hcs⟩ := bind_eq_ok.mp hcs
  obtain ⟨-, -, hcs⟩ := bind_eq_ok.mp hcs
  obtain ⟨len, -, hsp⟩ := bind_eq_ok.mp hsp
  cases hcs
  cases hsp
  exact ⟨ntohl_htonl _ _, rfl⟩

/-! ## The daemon -/

/-- A source, over time. -/
inductive SourceState where
  | unborn
  | live (src : SflowSource)
  | gone

/-- The sender, whose threads are the master thread and one for every source, and the sources. -/
structure Daemon (S : Type) (p : Platform) (R : Type) where
  sender : Sender (Option S) p R
  sources : S → SourceState
  sflowFdSources : Nat → Option S
  /-- The address that the memory of a source has, or had. -/
  addrOf : S → Nat
  /-- The source that has the memory at an address. -/
  sourceAt : Nat → Option S
  /-- The source of the packet that the master thread has read last. -/
  reading : Option S
  /-- What has been put into the buffer, with the source that it was made for. -/
  log : List (Option S × SflowSp p R)

/-- What can happen next. -/
inductive DaemonAction (S : Type) (p : Platform) (R : Type) where
  /-- A source is added, for which the allocator gives the memory at this address. -/
  | add (σ : S) (src : SflowSource) (addr : Nat)
  | remove (σ : S)
  /-- The master thread reads a packet from a descriptor and hands its sample over. -/
  | read (fd : Nat) (pkt : R) (len : Nat)
  /-- The thread of a source hands over the sample of its counters. -/
  | poll (σ : S) (payloads : List (Option (CrPayload p) × CrKind))
  /-- The thread of a source that has been removed counts in the memory of that, and hands
  something over. -/
  | stray (σ : S) (sample : SflowSp p R)
  | run (a : Agent (Option S)) (env : Env R)
  | expire

namespace Daemon

def init : Daemon S p R where
  sender := Sender.init
  sources _ := .unborn
  sflowFdSources _ := none
  addrOf _ := 0
  sourceAt _ := none
  reading := none
  log := []

/-- The source that a sample is made for, by the agent that has it. -/
def owner (s : Daemon S p R) : Agent (Option S) → Option S
  | .handler => none
  | .thread none => s.reading
  | .thread (some σ) => some σ

variable [DecidableEq S]

/-- The sources after `ss_count++` in the memory at an address. -/
def countAt (s : Daemon S p R) (addr : Nat) : S → SourceState :=
  match s.sourceAt addr with
  | none => s.sources
  | some σ =>
      match s.sources σ with
      | .live src =>
          Function.update s.sources σ (.live { src with ssCount := src.ssCount + 1 })
      | _ => s.sources

/-- A step of the daemon. -/
def step (s : Daemon S p R) : DaemonAction S p R → Option (Daemon S p R)
  | .add σ src addr =>
      match s.sources σ with
      | .unborn =>
          -- Memory that is in use is not given to another source.
          if src.ssCount = 0 ∧ s.sourceAt addr = none then
            some { s with
              sources := Function.update s.sources σ (.live src)
              sflowFdSources :=
                if src.IsFlow then Function.update s.sflowFdSources src.ssFd (some σ)
                else s.sflowFdSources
              addrOf := Function.update s.addrOf σ addr
              sourceAt := Function.update s.sourceAt addr (some σ) }
          else none
      | _ => none
  | .remove σ =>
      match s.sources σ with
      | .live src =>
          some { s with
            sources := Function.update s.sources σ .gone
            sflowFdSources :=
              if src.IsFlow then Function.update s.sflowFdSources src.ssFd none
              else s.sflowFdSources
            sourceAt := Function.update s.sourceAt (s.addrOf σ) none }
      | _ => none
  | .read fd pkt len => do
      let σ ← s.sflowFdSources fd
      match s.sources σ with
      | .live source =>
          let source := { source with ssCount := source.ssCount + 1 }
          let (sp, source) ← (getSampleFlowsample p source pkt len).toOption
          let sender ← s.sender.step (.call none sp)
          some { s with
            sender := sender
            sources := Function.update s.sources σ (.live source)
            reading := some σ }
      | _ => none
  | .poll σ payloads =>
      match s.sources σ with
      | .live source => do
          if source.IsFlow then none
          else
            let (sp, source) ← (counterSample source payloads).toOption
            let sender ← s.sender.step (.call (some σ) sp)
            some { s with
              sender := sender
              sources := Function.update s.sources σ (.live source) }
      | _ => none
  | .stray σ sample =>
      match s.sources σ with
      | .gone =>
          (s.sender.step (.call (some σ) sample)).map fun sender =>
            { s with sender := sender, sources := s.countAt (s.addrOf σ) }
      | _ => none
  | .run a env =>
      (s.sender.step (.run a env)).map fun sender =>
        { s with
          sender := sender
          log := s.log ++
            (sender.sh.appended.drop s.sender.sh.appended.length).map fun sp => (s.owner a, sp) }
  | .expire => (s.sender.step .expire).map fun sender => { s with sender := sender }

/-- A source that is made can be added in any place, and in any memory, that is still free. -/
theorem step_add_makeSource {s : Daemon S p R} {fuel : Nat} {calls : SourceCalls}
    {srcname propstr rest : List Char} {t : SflowSourceType} {σ : S} {src : SflowSource}
    {addr : Nat} (hmake : makeSource fuel calls srcname propstr t = some (.ok src, rest))
    (hσ : s.sources σ = .unborn) (haddr : s.sourceAt addr = none) :
    ∃ s', s.step (.add σ src addr) = some s' ∧ s'.sources σ = .live src := by
  rcases makeSource_eq_some hmake with ⟨err, herr, -⟩ | ⟨src', hsrc, -, -, -, hcount, -⟩
  · cases herr
  · cases hsrc
    simp only [step, hσ, if_pos (And.intro hcount haddr)]
    exact ⟨_, rfl, Function.update_self ..⟩

/-- The thread of a source that has been removed counts where no source is. -/
def SparesSources (s : Daemon S p R) : DaemonAction S p R → Prop
  | .stray σ _ => s.sourceAt (s.addrOf σ) = none
  | _ => True

instance (s : Daemon S p R) : (act : DaemonAction S p R) → Decidable (s.SparesSources act)
  | .stray σ _ => inferInstanceAs (Decidable (s.sourceAt (s.addrOf σ) = none))
  | .add .. | .remove _ | .read .. | .poll .. | .run .. | .expire =>
      inferInstanceAs (Decidable True)

/-- The samples made for a source that are still with a thread. -/
def pending (s : Daemon S p R) (σ : S) : List (SflowSp p R) :=
  (if s.reading = some σ then (s.sender.pc (.thread none)).carried else []) ++
    (s.sender.pc (.thread (some σ))).carried

end Daemon

/-! ## What every step keeps -/

/-- All samples made for a source are numbered, as many as it has counted. -/
structure SflowSource.Counted (src : SflowSource) (sps : List (SflowSp p R)) : Prop where
  numbered : Numbered SflowSp.seqNo src.nthSeqNo sps
  count : src.ssCount = sps.length
  pools : src.IsFlow → ∀ sp ∈ sps, sp.pool = some (sp.seqNo * UInt32.ofInt src.ssRate)

namespace SflowSource.Counted

variable {src src' : SflowSource} {sps : List (SflowSp p R)} {sp : SflowSp p R}

theorem nil (h : src.ssCount = 0) : src.Counted ([] : List (SflowSp p R)) :=
  ⟨numbered_nil _ _, h, fun _ _ hsp ↦ by cases hsp⟩

/-- The next sample of a source. -/
theorem concat (h : src.Counted sps) (htype : src'.ssType = src.ssType)
    (hrate : src'.ssRate = src.ssRate) (hcount : src'.ssCount = src.ssCount + 1)
    (hsp : sp.seqNo = src.nthSeqNo src.ssCount)
    (hpool : src.IsFlow → sp.pool = some (sp.seqNo * UInt32.ofInt src.ssRate)) :
    src'.Counted (sps ++ [sp]) := by
  have hnth : src'.nthSeqNo = src.nthSeqNo := by
    funext i
    simp only [nthSeqNo, firstSeqNo, IsFlow, htype]
  constructor
  · rw [hnth]
    refine h.numbered.concat ?_
    rw [hsp, h.count]
  · rw [hcount, h.count, List.length_append]
    rfl
  · intro hflow sp' hsp'
    rw [IsFlow, htype] at hflow
    rw [hrate]
    rcases List.mem_append.mp hsp' with hsp' | hsp'
    · exact h.pools hflow sp' hsp'
    · rw [List.mem_singleton.mp hsp']
      exact hpool hflow

end SflowSource.Counted

/-- Sources come and go, and keep their types in between. -/
structure Ages (f g : S → SourceState) : Prop where
  unborn : ∀ σ, g σ = .unborn → f σ = .unborn
  live : ∀ σ src', g σ = .live src' →
    f σ = .unborn ∨ ∃ src, f σ = .live src ∧ src.ssType = src'.ssType

/-- An entry of a table in which one has been set is that one, or was there before. -/
theorem eq_or_of_update {α β : Type*} [DecidableEq α] {f : α → β} {a a' : α} {b b' : β}
    (h : Function.update f a b a' = b') : a' = a ∧ b = b' ∨ a' ≠ a ∧ f a' = b' := by
  by_cases ha : a' = a
  · subst ha
    rw [Function.update_self] at h
    exact .inl ⟨rfl, h⟩
  · rw [Function.update_of_ne ha] at h
    exact .inr ⟨ha, h⟩

namespace Ages

variable {f : S → SourceState} {σ : S} {st : SourceState}

theorem refl (f : S → SourceState) : Ages f f :=
  ⟨fun _ h ↦ h, fun _ src' h ↦ .inr ⟨src', h, rfl⟩⟩

/-- One source changes. -/
theorem update [DecidableEq S] (hunborn : st ≠ .unborn)
    (hlive : ∀ src', st = .live src' →
      f σ = .unborn ∨ ∃ src, f σ = .live src ∧ src.ssType = src'.ssType) :
    Ages f (Function.update f σ st) := by
  constructor
  · intro τ hτ
    rcases eq_or_of_update hτ with ⟨-, hst⟩ | ⟨-, hτ⟩
    · exact absurd hst hunborn
    · exact hτ
  · intro τ src' hτ
    rcases eq_or_of_update hτ with ⟨rfl, hst⟩ | ⟨-, hτ⟩
    · exact hlive src' hst
    · exact .inr ⟨src', hτ, rfl⟩

end Ages

namespace Daemon

/-- The source is there, or has been, and is a flow source while it is there. -/
def FlowAt (s : Daemon S p R) (σ : S) : Prop :=
  s.sources σ ≠ .unborn ∧ ∀ src, s.sources σ = .live src → src.IsFlow

/-- The source is there, or has been, and is a counter source while it is there. -/
def CounterAt (s : Daemon S p R) (σ : S) : Prop :=
  s.sources σ ≠ .unborn ∧ ∀ src, s.sources σ = .live src → ¬ src.IsFlow

section Ages

variable {s s' : Daemon S p R} {σ : S}

theorem FlowAt.mono (h : s.FlowAt σ) (hages : Ages s.sources s'.sources) : s'.FlowAt σ := by
  refine ⟨fun hunborn ↦ h.1 (hages.unborn σ hunborn), fun src' hsrc' ↦ ?_⟩
  rcases hages.live σ src' hsrc' with hunborn | ⟨src, hsrc, htype⟩
  · exact absurd hunborn h.1
  · exact htype.symm.trans (h.2 src hsrc)

theorem CounterAt.mono (h : s.CounterAt σ) (hages : Ages s.sources s'.sources) :
    s'.CounterAt σ := by
  refine ⟨fun hunborn ↦ h.1 (hages.unborn σ hunborn), fun src' hsrc' ↦ ?_⟩
  rcases hages.live σ src' hsrc' with hunborn | ⟨src, hsrc, htype⟩
  · exact absurd hunborn h.1
  · exact fun hflow ↦ h.2 src hsrc (htype.trans hflow)

end Ages

variable [DecidableEq S]

structure Inv (s : Daemon S p R) : Prop where
  buffered : Buffered s.sender
  datagrams : ∃ dgs, DatagramsNumbered s.sender dgs
  log : s.log.map (·.2) = s.sender.sh.appended
  counted : ∀ σ src, s.sources σ = .live src →
    src.Counted (itemsOf (some σ) s.log ++ s.pending σ)
  slots : ∀ fd σ, s.sflowFdSources fd = some σ → s.FlowAt σ
  reading : ∀ σ, s.reading = some σ → s.FlowAt σ
  threads : ∀ σ, (s.sender.pc (.thread (some σ))).carried ≠ [] → s.CounterAt σ
  unborn : ∀ σ, s.sources σ = .unborn → itemsOf (some σ) s.log = []

theorem inv_init : Inv (init : Daemon S p R) where
  buffered := Buffered.init
  datagrams := ⟨[], DatagramsNumbered.init⟩
  log := rfl
  counted _ _ h := by cases h
  slots _ _ h := by cases h
  reading _ h := by cases h
  threads _ h := absurd rfl h
  unborn _ _ := rfl

variable {s s' : Daemon S p R} {σ : S} {src : SflowSource}

/-- Of a source that is not there yet there are no samples. -/
theorem Inv.eq_nil_of_unborn (h : s.Inv) (hσ : s.sources σ = .unborn) :
    itemsOf (some σ) s.log ++ s.pending σ = [] := by
  have hreading : s.reading ≠ some σ := fun hr ↦ (h.reading σ hr).1 hσ
  have hcarried : (s.sender.pc (.thread (some σ))).carried = [] := by
    by_contra hne
    exact (h.threads σ hne).1 hσ
  rw [h.unborn σ hσ, pending, if_neg hreading, hcarried]
  rfl

/-- Sources come and go while the threads are where they were. -/
theorem Inv.ages (h : s.Inv) (hsender : s'.sender = s.sender) (hlog : s'.log = s.log)
    (hread : s'.reading = s.reading) (hages : Ages s.sources s'.sources)
    (hcounted : ∀ σ src, s'.sources σ = .live src → s.sources σ = .live src ∨
      s.sources σ = .unborn ∧ src.ssCount = 0)
    (hslots : ∀ fd σ, s'.sflowFdSources fd = some σ →
      s.sflowFdSources fd = some σ ∨ s'.FlowAt σ) : s'.Inv := by
  have hpending : ∀ σ, s'.pending σ = s.pending σ := by
    intro σ
    rw [pending, pending, hread, hsender]
  constructor
  · rw [hsender]
    exact h.buffered
  · rw [hsender]
    exact h.datagrams
  · rw [hlog, hsender]
    exact h.log
  · intro σ src hσ
    rw [hlog, hpending]
    rcases hcounted σ src hσ with hlive | ⟨hunborn, hcount⟩
    · exact h.counted σ src hlive
    · rw [h.eq_nil_of_unborn hunborn]
      exact .nil hcount
  · intro fd σ hσ
    rcases hslots fd σ hσ with hslot | hflow
    · exact (h.slots fd σ hslot).mono hages
    · exact hflow
  · intro σ hσ
    rw [hread] at hσ
    exact (h.reading σ hσ).mono hages
  · intro σ hσ
    rw [hsender] at hσ
    exact (h.threads σ hσ).mono hages
  · intro σ hσ
    rw [hlog]
    exact h.unborn σ (hages.unborn σ hσ)

theorem Inv.add {addr : Nat} (h : s.Inv) (hstep : s.step (.add σ src addr) = some s') :
    s'.Inv := by
  rw [step] at hstep
  split at hstep
  case h_1 hσ =>
    split at hstep
    case isTrue hfree =>
      cases hstep
      have hcount := hfree.1
      refine h.ages rfl rfl rfl (.update (by simp) fun _ _ ↦ .inl hσ) ?_ ?_
      · intro τ src' hτ
        rcases eq_or_of_update hτ with ⟨rfl, hsrc⟩ | ⟨-, hτ⟩
        · cases hsrc
          exact .inr ⟨hσ, hcount⟩
        · exact .inl hτ
      · intro fd τ hτ
        dsimp only at hτ
        split at hτ
        case isTrue hflow =>
          rcases eq_or_of_update hτ with ⟨rfl, hslot⟩ | ⟨-, hτ⟩
          · cases hslot
            refine .inr ⟨by simp, fun src' hsrc' ↦ ?_⟩
            rcases eq_or_of_update hsrc' with ⟨-, hsrc⟩ | ⟨-, hsrc⟩
            · cases hsrc
              exact hflow
            · rw [hσ] at hsrc
              cases hsrc
          · exact .inl hτ
        case isFalse => exact .inl hτ
    case isFalse => cases hstep
  all_goals cases hstep

theorem Inv.remove (h : s.Inv) (hstep : s.step (.remove σ) = some s') : s'.Inv := by
  rw [step] at hstep
  split at hstep
  case h_1 src hσ =>
    cases hstep
    refine h.ages rfl rfl rfl (.update (by simp) (by simp)) ?_ ?_
    · intro τ src' hτ
      rcases eq_or_of_update hτ with ⟨-, hsrc⟩ | ⟨-, hτ⟩
      · cases hsrc
      · exact .inl hτ
    · intro fd τ hτ
      dsimp only at hτ
      split at hτ
      case isTrue hflow =>
        rcases eq_or_of_update hτ with ⟨-, hslot⟩ | ⟨-, hτ⟩
        · cases hslot
        · exact .inl hτ
      case isFalse => exact .inl hτ
  all_goals cases hstep

/-- A thread that is in no call is handed a sample. -/
theorem Inv.called {t : Option S} {sp : SflowSp p R} {sender : Sender (Option S) p R}
    (h : s.Inv) (hcall : s.sender.step (.call t sp) = some sender) :
    Buffered sender ∧ (∃ dgs, DatagramsNumbered sender dgs) ∧
      sender.sh.appended = s.sender.sh.appended ∧ (s.sender.pc (.thread t)).carried = [] ∧
      (sender.pc (.thread t)).carried = [sp] ∧
      ∀ a, a ≠ .thread t → sender.pc a = s.sender.pc a := by
  obtain ⟨dgs, hdgs⟩ := h.datagrams
  refine ⟨h.buffered.step hcall, hdgs.step h.buffered hcall, ?_⟩
  rcases Sender.step_cases hcall with ⟨t', sp', heq, hidle, rfl⟩ | ⟨a, env, sh, pc, heq, -⟩ |
    ⟨heq, -⟩
  · cases heq
    rw [hidle, Cfg.move_pc_self]
    exact ⟨rfl, rfl, rfl, fun a ha ↦ Cfg.move_pc_of_ne _ _ _ _ ha⟩
  · cases heq
  · cases heq

/-- What is left to show when a thread has been handed a sample. -/
theorem Inv.handed {t : Option S} {sp : SflowSp p R} (h : s.Inv)
    (hcall : s.sender.step (.call t sp) = some s'.sender) (hlog : s'.log = s.log)
    (hslots : s'.sflowFdSources = s.sflowFdSources) (hages : Ages s.sources s'.sources)
    (hcounted : ∀ τ src, s'.sources τ = .live src →
      src.Counted (itemsOf (some τ) s.log ++ s'.pending τ))
    (hreading : ∀ τ, s'.reading = some τ → s'.FlowAt τ)
    (hthread : ∀ τ, t = some τ → s'.CounterAt τ) : s'.Inv := by
  obtain ⟨hbuffered, hdatagrams, happended, -, -, hothers⟩ := h.called hcall
  constructor
  · exact hbuffered
  · exact hdatagrams
  · rw [hlog, happended]
    exact h.log
  · intro τ src hτ
    rw [hlog]
    exact hcounted τ src hτ
  · intro fd τ hτ
    rw [hslots] at hτ
    exact (h.slots fd τ hτ).mono hages
  · exact hreading
  · intro τ hτ
    by_cases ht : t = some τ
    · exact hthread τ ht
    · have hne : Agent.thread (some τ) ≠ .thread t := fun heq ↦ ht (Agent.thread.inj heq).symm
      rw [hothers _ hne] at hτ
      exact (h.threads τ hτ).mono hages
  · intro τ hτ
    rw [hlog]
    exact h.unborn τ (hages.unborn τ hτ)

theorem Inv.read {fd : Nat} {pkt : R} {len : Nat} (h : s.Inv)
    (hstep : s.step (.read fd pkt len) = some s') : s'.Inv := by
  rw [step] at hstep
  obtain ⟨σ, hfd, hstep⟩ := Option.bind_eq_some_iff.mp hstep
  split at hstep
  case h_1 source hσ =>
    obtain ⟨⟨sp, source'⟩, hsample, hstep⟩ := Option.bind_eq_some_iff.mp hstep
    obtain ⟨sender, hcall, hstep⟩ := Option.bind_eq_some_iff.mp hstep
    cases hstep
    obtain ⟨hseq, hpool, hsource'⟩ := getSampleFlowsample_seqNo (eq_ok_of_toOption hsample)
    have hflow : source.IsFlow := (h.slots fd σ hfd).2 source hσ
    obtain ⟨-, -, -, hidle, hcarried, hothers⟩ := h.called hcall
    have hothers' : ∀ τ : S, sender.pc (.thread (some τ)) = s.sender.pc (.thread (some τ)) :=
      fun τ ↦ hothers _ (by simp)
    have hnone : (s.sender.pc (.thread (some σ))).carried = [] := by
      by_contra hne
      exact (h.threads σ hne).2 source hσ hflow
    have hages : Ages s.sources (Function.update s.sources σ (.live source')) := by
      refine .update (by simp) fun src' hsrc' ↦ .inr ⟨source, hσ, ?_⟩
      cases hsrc'
      rw [hsource']
    refine h.handed hcall rfl rfl hages ?_ ?_ (fun τ hτ ↦ by cases hτ)
    · intro τ src' hτ
      rcases eq_or_of_update hτ with ⟨rfl, hsrc⟩ | ⟨hne, hτ⟩
      · cases hsrc
        have hcounted := h.counted τ source hσ
        have hpending : s.pending τ = [] := by
          rw [pending, hidle, hnone, ite_self]
          rfl
        rw [hpending, List.append_nil] at hcounted
        rw [pending, if_pos rfl, hcarried, hothers', hnone, List.append_nil]
        refine hcounted.concat ?_ ?_ ?_ ?_ fun _ ↦ ?_
        · rw [hsource']
        · rw [hsource']
        · rw [hsource']
        · rw [hseq, SflowSource.nthSeqNo, SflowSource.firstSeqNo, if_pos hflow, Nat.add_comm]
        · rw [hpool, hseq]
      · have hpending : s.pending τ = (s.sender.pc (.thread (some τ))).carried := by
          rw [pending, hidle, ite_self]
          rfl
        have hcounted := h.counted τ src' hτ
        rw [hpending] at hcounted
        rw [pending, if_neg fun heq ↦ hne (Option.some.inj heq).symm, hothers']
        exact hcounted
    · rintro _ ⟨⟩
      exact (h.slots fd σ hfd).mono hages
  all_goals cases hstep

theorem Inv.poll {payloads : List (Option (CrPayload p) × CrKind)} (h : s.Inv)
    (hstep : s.step (.poll σ payloads) = some s') : s'.Inv := by
  rw [step] at hstep
  split at hstep
  case h_1 source hσ =>
    split at hstep
    case isTrue => cases hstep
    case isFalse hflow =>
      obtain ⟨⟨sp, source'⟩, hsample, hstep⟩ := Option.bind_eq_some_iff.mp hstep
      obtain ⟨sender, hcall, hstep⟩ := Option.bind_eq_some_iff.mp hstep
      cases hstep
      obtain ⟨hseq, rfl⟩ := counterSample_seqNo (eq_ok_of_toOption hsample)
      obtain ⟨-, -, -, hidle, hcarried, hothers⟩ := h.called hcall
      have hreading : s.reading ≠ some σ := fun hr ↦ hflow ((h.reading σ hr).2 source hσ)
      let source' : SflowSource := { source with ssCount := source.ssCount + 1 }
      have hages : Ages s.sources (Function.update s.sources σ (.live source')) := by
        refine .update (by simp) fun src' hsrc' ↦ .inr ⟨source, hσ, ?_⟩
        cases hsrc'
        rfl
      refine h.handed hcall rfl rfl hages ?_ (fun τ hτ ↦ (h.reading τ hτ).mono hages) ?_
      · intro τ src' hτ
        rw [pending, hothers (.thread none) (by simp)]
        rcases eq_or_of_update hτ with ⟨rfl, hsrc⟩ | ⟨hne, hτ⟩
        · cases hsrc
          have hcounted := h.counted τ source hσ
          rw [pending, if_neg hreading, hidle, List.append_nil, List.append_nil] at hcounted
          rw [if_neg hreading, hcarried, List.nil_append]
          refine hcounted.concat rfl rfl rfl ?_ fun h ↦ absurd h hflow
          rw [hseq, SflowSource.nthSeqNo, SflowSource.firstSeqNo, if_neg hflow, Nat.zero_add]
        · rw [hothers (.thread (some τ)) (by simpa using hne)]
          exact h.counted τ src' hτ
      · rintro τ ⟨⟩
        refine ⟨by simp, fun src' hsrc' ↦ ?_⟩
        rcases eq_or_of_update hsrc' with ⟨-, hsrc⟩ | ⟨hne, -⟩
        · cases hsrc
          exact hflow
        · exact absurd rfl hne
  all_goals cases hstep

theorem Inv.stray {sample : SflowSp p R} (h : s.Inv) (hspares : s.SparesSources (.stray σ sample))
    (hstep : s.step (.stray σ sample) = some s') : s'.Inv := by
  rw [SparesSources] at hspares
  rw [step, countAt, hspares] at hstep
  split at hstep
  case h_1 hσ =>
    obtain ⟨sender, hcall, rfl⟩ := Option.map_eq_some_iff.mp hstep
    obtain ⟨-, -, -, -, -, hothers⟩ := h.called hcall
    refine h.handed hcall rfl rfl (.refl _) ?_ h.reading ?_
    · intro τ src hτ
      have hne : τ ≠ σ := by
        rintro rfl
        rw [hσ] at hτ
        cases hτ
      rw [pending, hothers (.thread none) (by simp),
        hothers (.thread (some τ)) (by simpa using hne)]
      exact h.counted τ src hτ
    · rintro τ ⟨⟩
      refine ⟨?_, fun src hsrc ↦ ?_⟩
      · rw [hσ]
        simp
      · rw [hσ] at hsrc
        cases hsrc
  all_goals cases hstep

/-- What is left to show when an agent of the sender has gone on. -/
theorem Inv.moved {a : Agent (Option S)} {env : Env R} {sh : Shared p R} {pc : Pc p R}
    {added : List (SflowSp p R)} (h : s.Inv) (hm : Moves env s.sender.sh (s.sender.pc a) sh pc)
    (hsender : s'.sender = s.sender.move a sh pc) (hsources : s'.sources = s.sources)
    (hslots : s'.sflowFdSources = s.sflowFdSources) (hread : s'.reading = s.reading)
    (happended : sh.appended = s.sender.sh.appended ++ added)
    (hlog : s'.log = s.log ++ added.map fun sp => (s.owner a, sp))
    (hcounted : ∀ τ src, s.sources τ = .live src →
      itemsOf (some τ) s'.log ++ s'.pending τ = itemsOf (some τ) s.log ++ s.pending τ)
    (hcarried : ∀ τ, (s'.sender.pc (.thread (some τ))).carried ≠ [] →
      (s.sender.pc (.thread (some τ))).carried ≠ [])
    (hunborn : ∀ τ, s.sources τ = .unborn → itemsOf (some τ) s'.log = itemsOf (some τ) s.log) :
    s'.Inv := by
  have hages : Ages s.sources s'.sources := by
    rw [hsources]
    exact .refl _
  obtain ⟨dgs, hdgs⟩ := h.datagrams
  constructor
  · rw [hsender]
    exact h.buffered.move hm
  · rw [hsender]
    exact hdgs.move h.buffered hm
  · rw [hlog, hsender, List.map_append, h.log, List.map_map, Cfg.move_sh, happended]
    congr 1
    exact List.map_id added
  · intro τ src hτ
    rw [hsources] at hτ
    rw [hcounted τ src hτ]
    exact h.counted τ src hτ
  · intro fd τ hτ
    rw [hslots] at hτ
    exact (h.slots fd τ hτ).mono hages
  · intro τ hτ
    rw [hread] at hτ
    exact (h.reading τ hτ).mono hages
  · intro τ hτ
    exact (h.threads τ (hcarried τ hτ)).mono hages
  · intro τ hτ
    rw [hsources] at hτ
    rw [hunborn τ hτ]
    exact h.unborn τ hτ

/-- Nobody has a sample for a source that is not there yet. -/
theorem Inv.owner_ne_of_unborn {a : Agent (Option S)} (h : s.Inv)
    (ha : (s.sender.pc a).carried ≠ []) (hσ : s.sources σ = .unborn) : s.owner a ≠ some σ := by
  intro howner
  match a with
  | .handler => cases howner
  | .thread none => exact (h.reading σ howner).1 hσ
  | .thread (some τ) =>
      cases howner
      exact (h.threads σ ha).1 hσ

/-- A sample that goes into the buffer goes from those still with a thread to the log. -/
theorem Inv.items_concat {a : Agent (Option S)} {sh : Shared p R} {pc : Pc p R}
    {sp : SflowSp p R} (h : s.Inv) (hold : (s.sender.pc a).carried = [sp]) (hnew : pc.carried = [])
    (hsender : s'.sender = s.sender.move a sh pc) (hread : s'.reading = s.reading)
    (hσ : s.sources σ = .live src) :
    itemsOf (some σ) (s.log ++ [(s.owner a, sp)]) ++ s'.pending σ =
      itemsOf (some σ) s.log ++ s.pending σ := by
  have hself : (s'.sender.pc a).carried = [] := by
    rw [hsender, Cfg.move_pc_self, hnew]
  have hothers : ∀ b, b ≠ a → s'.sender.pc b = s.sender.pc b := by
    intro b hb
    rw [hsender, Cfg.move_pc_of_ne _ _ _ _ hb]
  rw [pending, pending, hread]
  match a with
  | .handler =>
      rw [itemsOf_concat_of_ne _ (by simp [owner]), hothers _ (by simp), hothers _ (by simp)]
  | .thread none =>
      rw [hself, hold, hothers _ (by simp), ite_self, List.nil_append]
      by_cases hreading : s.reading = some σ
      · rw [owner, hreading, if_pos rfl, itemsOf_concat_self, List.append_assoc]
      · rw [owner, itemsOf_concat_of_ne _ hreading, if_neg hreading, List.nil_append]
  | .thread (some τ) =>
      rw [hothers (.thread none) (by simp)]
      by_cases hτ : τ = σ
      · subst hτ
        -- a source with a thread of its own is not one that the master thread reads
        have hreading : s.reading ≠ some τ := by
          intro hreading
          refine (h.threads τ ?_).2 src hσ ((h.reading τ hreading).2 src hσ)
          rw [hold]
          exact List.cons_ne_nil _ _
        rw [hself, hold, owner, if_neg hreading, itemsOf_concat_self, List.append_nil,
          List.append_nil, List.nil_append]
      · rw [hothers _ (by simpa using fun heq ↦ hτ heq.symm),
          itemsOf_concat_of_ne _ (by simpa [owner] using hτ)]

theorem Inv.run {a : Agent (Option S)} {env : Env R} (h : s.Inv)
    (hstep : s.step (.run a env) = some s') : s'.Inv := by
  obtain ⟨sender, hrun, rfl⟩ := Option.map_eq_some_iff.mp hstep
  rcases Sender.step_cases hrun with ⟨t, sp, heq, -⟩ | ⟨a', env', sh, pc, heq, -, hm, rfl⟩ |
    ⟨heq, -⟩
  · cases heq
  · cases heq
    rcases hm.carried with ⟨happended, hcarried⟩ | ⟨sp, happended, hold, hnew⟩
    · have hall : ∀ b, ((s.sender.move a sh pc).pc b).carried = (s.sender.pc b).carried := by
        intro b
        by_cases hb : b = a
        · rw [hb, Cfg.move_pc_self, hcarried]
        · rw [Cfg.move_pc_of_ne _ _ _ _ hb]
      have hlog : s.log ++ ((s.sender.move a sh pc).sh.appended.drop
          s.sender.sh.appended.length).map (fun sp => (s.owner a, sp)) = s.log := by
        rw [Cfg.move_sh, happended, List.drop_length, List.map_nil, List.append_nil]
      have happended' : sh.appended = s.sender.sh.appended ++ [] := by
        rw [happended, List.append_nil]
      refine h.moved hm rfl rfl rfl rfl happended' ?_ ?_ ?_ ?_
      · rw [hlog, List.map_nil, List.append_nil]
      · intro τ src hτ
        rw [hlog, pending, pending, hall, hall]
      · intro τ hτ
        rwa [hall] at hτ
      · intro τ hτ
        rw [hlog]
    · have hlog : s.log ++ ((s.sender.move a sh pc).sh.appended.drop
          s.sender.sh.appended.length).map (fun sp => (s.owner a, sp)) =
            s.log ++ [(s.owner a, sp)] := by
        rw [Cfg.move_sh, happended, List.drop_left, List.map_singleton]
      refine h.moved hm rfl rfl rfl rfl happended hlog ?_ ?_ ?_
      · intro τ src hτ
        rw [hlog]
        exact h.items_concat hold hnew rfl rfl hτ
      · intro τ hτ
        by_cases hb : .thread (some τ) = a
        · rw [hb, Cfg.move_pc_self, hnew] at hτ
          exact absurd rfl hτ
        · rwa [Cfg.move_pc_of_ne _ _ _ _ hb] at hτ
      · intro τ hτ
        rw [hlog]
        refine itemsOf_concat_of_ne _ (h.owner_ne_of_unborn ?_ hτ)
        rw [hold]
        exact List.cons_ne_nil _ _
  · cases heq

theorem Inv.expire (h : s.Inv) (hstep : s.step .expire = some s') : s'.Inv := by
  obtain ⟨sender, hexpire, rfl⟩ := Option.map_eq_some_iff.mp hstep
  obtain ⟨dgs, hdgs⟩ := h.datagrams
  have hbuffered := h.buffered.step hexpire
  have hdatagrams := hdgs.step h.buffered hexpire
  rcases Sender.step_cases hexpire with ⟨t, sp, heq, -⟩ | ⟨a, env, sh, pc, heq, -⟩ | ⟨-, -, rfl⟩
  · cases heq
  · cases heq
  · exact ⟨hbuffered, hdatagrams, h.log, h.counted, h.slots, h.reading, h.threads, h.unborn⟩

theorem Inv.step {act : DaemonAction S p R} (h : s.Inv) (hspares : s.SparesSources act)
    (hstep : s.step act = some s') : s'.Inv := by
  cases act with
  | add => exact h.add hstep
  | remove => exact h.remove hstep
  | read => exact h.read hstep
  | poll => exact h.poll hstep
  | stray => exact h.stray hspares hstep
  | run => exact h.run hstep
  | expire => exact h.expire hstep

/-! ## Runs -/

/-- An agent goes on for `n` steps. -/
def go (a : Agent (Option Bool)) (n : Nat) : List (DaemonAction Bool .amd64 (List UInt8)) :=
  List.replicate n (.run a .still)

end Daemon

end Sflow

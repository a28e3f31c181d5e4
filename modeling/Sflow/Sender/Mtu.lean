import Sflow.Sender.Buffering

/-!
# How large a datagram gets

The sender admits a sample to the buffer by an estimate: each sample with the two
pointers of its structure, and a header with room for a long address.  The real
sizes are smaller, two words for each sample and a header of 28 bytes, so what
the estimate admits fits.  The one way past it is the sample that comes after a
flush, which is taken whatever its size.
-/

namespace Sflow

open C Run

variable {T R : Type} {p : Platform}

/-- The number of bytes of a sample behind its format and length. -/
def SflowSp.length (sp : SflowSp p R) : Nat := (ntohl p.endian sp.len).toNat

/-- What a sample counts in the buffer. -/
def SflowSp.estimate (sp : SflowSp p R) : Nat := sp.length + p.psize * 2

/-- A sample whose estimate an `int` can hold. -/
def SflowSp.Small (sp : SflowSp p R) : Prop := sp.length < 2 ^ 29

/-- A datagram that is too long is one with a single sample that is too long. -/
def SflowDg.WithinMtu (dg : SflowDg p R) : Prop :=
  ∃ size, sflowDatagramSize dg = .ok size ∧
    (2 ≤ dg.samples.length → size.toNat ≤ sflowMtu) ∧
    (sflowMtu < size.toNat →
      ∃ sp, dg.samples = [sp] ∧ sflowMtu < 28 + (8 + sp.length))

theorem eight_mul_length_le (samples : List (SflowSp p R)) :
    8 * samples.length ≤ (samples.map SflowSp.estimate).sum := by
  have hp := p.psize_eq
  apply add_eight_mul_le_sum
  intro sp _
  rw [SflowSp.estimate]
  omega

/-- The estimates are not below the bytes that the samples become. -/
theorem sum_length_le (samples : List (SflowSp p R)) :
    (samples.map fun sp => 8 + sp.length).sum ≤ (samples.map SflowSp.estimate).sum := by
  have hp := p.psize_eq
  apply List.sum_le_sum
  intro sp _
  rw [SflowSp.estimate]
  omega

/-- A node whose size is the estimate for its sample. -/
structure Estimated (node : SflowDataListNode (SflowSp p R)) : Prop where
  small : node.sdlnData.Small
  size : node.sdlnDataSize = node.sdlnData.estimate

theorem estimated_sampleNode {sample : SflowSp p R} (h : sample.Small) :
    Estimated (sampleNode sample) := by
  have hp := p.psize_eq
  have hlt : sample.length < 2 ^ 29 := h
  refine ⟨h, ?_⟩
  rw [sdlnDataSize_sampleNode]
  exact toInt32_eq (by change sample.length + p.psize * 2 < 2 ^ 31; omega)

/-- The room that the header and the samples in the buffer are taken to need. -/
structure Admitted (list : SflowDataList (SflowSp p R)) : Prop where
  small : ∀ sp ∈ list.data, sp.Small
  size : list.sdlDataSize = (list.data.map SflowSp.estimate).sum
  fits : list.data.length ≤ 1 ∨ (list.data.map SflowSp.estimate).sum + 40 ≤ sflowMtu

namespace Admitted

theorem create : Admitted (sflowDataListCreate : SflowDataList (SflowSp p R)) where
  small sp h := by cases h
  size := rfl
  fits := .inl (Nat.zero_le 1)

variable {list : SflowDataList (SflowSp p R)} {node : SflowDataListNode (SflowSp p R)}

/-- A buffer never counts more than a few bytes over the longest sample. -/
theorem sum_lt (h : Admitted list) : (list.data.map SflowSp.estimate).sum < 2 ^ 30 := by
  have hp := p.psize_eq
  rcases h.fits with hone | hfits
  · cases hdata : list.data with
    | nil => simp
    | cons sp rest =>
        rw [hdata, List.length_cons] at hone
        have hrest : rest = [] := List.eq_nil_of_length_eq_zero (by omega)
        have hsp : sp.length < 2 ^ 29 := h.small sp (hdata ▸ List.mem_cons_self)
        simp only [hrest, List.map_cons, List.map_nil, List.sum_cons, List.sum_nil,
          SflowSp.estimate]
        omega
  · rw [sflowMtu] at hfits
    omega

/-- A sample that the test lets in fits by the estimates. -/
theorem overflows_eq_false (h : Admitted list) (hn : Estimated node)
    (hfits : overflows list node = false) :
    (list.data.map SflowSp.estimate).sum + node.sdlnData.estimate + 40 ≤ sflowMtu := by
  have hsum := h.sum_lt
  have hsmall : node.sdlnData.length < 2 ^ 29 := hn.small
  have hdg : sflowDgT.sizeof p.toAbi = 40 + p.psize := by
    have := sizeof_sflowDgT p.toAbi
    omega
  have hpow : (2 : Int) ^ 32 ≤ 2 ^ (8 * p.psize) := by
    rcases p.psize_eq with hp | hp
    · rw [hp]
    · rw [hp]
      decide
  have hest : node.sdlnData.estimate = node.sdlnData.length + p.psize * 2 := rfl
  have hp := p.psize_eq
  rw [overflows, decide_eq_false_iff_not, h.size, hn.size, hdg, Int.emod_eq_of_lt] at hfits
  · omega
  · omega
  · omega

/-- A sample may be put into an empty buffer, and where it fits. -/
theorem append (h : Admitted list) (hn : Estimated node)
    (hroom : list.data = [] ∨
      (list.data.map SflowSp.estimate).sum + node.sdlnData.estimate + 40 ≤ sflowMtu) :
    Admitted (sflowDataListAppend list node) := by
  have hsum : ((sflowDataListAppend list node).data.map SflowSp.estimate).sum =
      (list.data.map SflowSp.estimate).sum + node.sdlnData.estimate := by
    rw [SflowDataList.data_append, List.map_append, List.sum_append]
    rfl
  refine ⟨?_, ?_, ?_⟩
  · intro sp hsp
    rw [SflowDataList.data_append, List.mem_append, List.mem_singleton] at hsp
    rcases hsp with hsp | rfl
    · exact h.small sp hsp
    · exact hn.small
  · have hne : node.sdlnDataSize ≠ checkData := by
      rw [hn.size, checkData]
      omega
    rw [hsum, sflowDataListAppend, if_neg hne, h.size, hn.size, Int.natCast_add]
  · rw [hsum]
    rcases hroom with hnil | hfits
    · left
      rw [SflowDataList.data_append, hnil]
      exact Nat.le_refl 1
    · exact .inr hfits

/-- A datagram that is made of an admitted buffer is within bounds. -/
theorem withinMtu (h : Admitted list) (datagramCount : Nat) (upTime : UInt32) :
    (SflowDg.around p datagramCount upTime list.data).WithinMtu := by
  have hcount := eight_mul_length_le list.data
  have hreal := sum_length_le list.data
  have hsum := h.sum_lt
  have hlen : list.data.length < 2 ^ 32 := by omega
  have hsize := sflowDatagramSize_eq (SflowDg.sampleNum_around hlen datagramCount upTime)
  have hnat : (UInt32.ofNat (28 + (list.data.map fun sp => 8 + sp.length).sum)).toNat =
      28 + (list.data.map fun sp => 8 + sp.length).sum := toNat_ofNat_of_lt (by omega)
  refine ⟨_, hsize, ?_, ?_⟩
  · intro htwo
    change (UInt32.ofNat (28 + (list.data.map fun sp => 8 + sp.length).sum)).toNat ≤ sflowMtu
    have hfits := h.fits.resolve_left (Nat.not_le.mpr htwo)
    omega
  · intro hmtu
    change sflowMtu < (UInt32.ofNat (28 + (list.data.map fun sp => 8 + sp.length).sum)).toNat
      at hmtu
    rw [hnat] at hmtu
    have hone := h.fits.resolve_right (by omega)
    change ∃ sp, list.data = [sp] ∧ _
    cases hdata : list.data with
    | nil =>
        simp [hdata, sflowMtu] at hmtu
    | cons sp rest =>
        rw [hdata, List.length_cons] at hone
        obtain rfl : rest = [] := List.eq_nil_of_length_eq_zero (by omega)
        refine ⟨sp, rfl, ?_⟩
        simpa [hdata] using hmtu

end Admitted

/-! ## Along a run -/

/-- What the operation that an agent does next relies on. -/
def Pc.Estimates (sh : Shared p R) : Pc p R → Prop
  | trylock sample | alarm sample => sample.Small
  | lock node | check node | cancel node => Estimated node
  | send caller pc =>
      (∀ node, caller = some node → Estimated node) ∧
        ∀ dg count todo buf offBuf, pc = .flat dg count todo buf offBuf → dg.WithinMtu
  | retrylock node | realarm node =>
      Estimated node ∧ ∀ list, sh.sflowBufferedSamples = some list → list.data = []
  | append node =>
      Estimated node ∧ ∀ list, sh.sflowBufferedSamples = some list → list.data = [] ∨
        (list.data.map SflowSp.estimate).sum + node.sdlnData.estimate + 40 ≤ sflowMtu
  | _ => True

/-- What is in the buffer was admitted, and what was sent came out of it. -/
structure Shared.Estimates (sh : Shared p R) : Prop where
  list : ∀ list, sh.sflowBufferedSamples = some list → Admitted list
  sent : ∀ x ∈ sh.sent, x.dg.WithinMtu

/-- Outside of the section an agent does not rely on the buffer. -/
theorem Pc.Estimates.frame {sh sh' : Shared p R} {pc : Pc p R} (h : pc.Estimates sh)
    (hframe : pc.inSection = true → sh'.sflowBufferedSamples = sh.sflowBufferedSamples) :
    pc.Estimates sh' := by
  cases pc with
  | retrylock node => exact ⟨h.1, by rw [hframe rfl]; exact h.2⟩
  | realarm node => exact ⟨h.1, by rw [hframe rfl]; exact h.2⟩
  | append node => exact ⟨h.1, by rw [hframe rfl]; exact h.2⟩
  | _ => exact h

theorem Moves.estimates {env : Env R} {sh sh' : Shared p R} {pc pc' : Pc p R}
    (hm : Moves env sh pc sh' pc') (hwf : ∀ list, sh.sflowBufferedSamples = some list →
      list.WellFormed) (hsh : sh.Estimates) (hpc : pc.Estimates sh) :
    sh'.Estimates ∧ pc'.Estimates sh' := by
  cases hm with
  | trylockFails => exact ⟨hsh, estimated_sampleNode hpc⟩
  | trylock => exact ⟨⟨hsh.list, hsh.sent⟩, hpc⟩
  | alarm => exact ⟨⟨hsh.list, hsh.sent⟩, estimated_sampleNode hpc⟩
  | lock => exact ⟨⟨hsh.list, hsh.sent⟩, hpc⟩
  | checkFreed => exact ⟨⟨hsh.list, hsh.sent⟩, hpc⟩
  | full => exact ⟨hsh, hpc⟩
  | @fits node list hlist hfits =>
      refine ⟨hsh, hpc, fun list' hlist' ↦ .inr ?_⟩
      rw [hlist, Option.some.injEq] at hlist'
      rw [← hlist']
      exact (hsh.list list hlist).overflows_eq_false hpc hfits
  | cancel =>
      exact ⟨⟨hsh.list, hsh.sent⟩, fun node hnode ↦ Option.some.inj hnode ▸ hpc, by simp⟩
  | unlockIndicator => exact ⟨⟨hsh.list, hsh.sent⟩, hpc.1, by simp⟩
  | packAborts => exact ⟨⟨hsh.list, hsh.sent⟩, hpc⟩
  | startFaults => exact ⟨⟨hsh.list, hsh.sent⟩, hpc⟩
  | @pack caller list dg buf offBuf size hlist hdg =>
      rw [sflowDatagramPack_eq (hwf list hlist), Except.ok.injEq] at hdg
      have hdg' : dg.WithinMtu := hdg ▸ (hsh.list list hlist).withinMtu _ _
      refine ⟨⟨by simp, hsh.sent⟩, hpc.1, fun dg' count todo buf offBuf heq ↦ ?_⟩
      cases heq
      exact hdg'
  | flatFaults => exact ⟨⟨hsh.list, hsh.sent⟩, hpc⟩
  | flat =>
      refine ⟨hsh, hpc.1, fun dg' count todo buf offBuf heq ↦ ?_⟩
      cases heq
      exact hpc.2 _ _ _ _ _ rfl
  | @send caller dg todo buf offBuf =>
      refine ⟨⟨hsh.list, fun x hx ↦ ?_⟩, hpc.1, by simp⟩
      rcases List.mem_append.mp hx with hx | hx
      · exact hsh.sent x hx
      · rw [List.mem_singleton.mp hx]
        exact hpc.2 dg _ _ _ _ rfl
  | @create caller =>
      refine ⟨⟨fun list hlist ↦ ?_, hsh.sent⟩, ?_⟩
      · cases hlist
        exact Admitted.create
      · cases caller with
        | none => trivial
        | some node =>
            refine ⟨hpc.1 node rfl, fun list hlist ↦ ?_⟩
            cases hlist
            rfl
  | retrylockFails => exact ⟨hsh, hpc.1, fun list hlist ↦ .inl (hpc.2 list hlist)⟩
  | retrylock => exact ⟨⟨hsh.list, hsh.sent⟩, hpc⟩
  | realarm => exact ⟨⟨hsh.list, hsh.sent⟩, hpc.1, fun list hlist ↦ .inl (hpc.2 list hlist)⟩
  | appendFreed => exact ⟨⟨hsh.list, hsh.sent⟩, hpc⟩
  | @append node list hlist =>
      refine ⟨⟨fun list' hlist' ↦ ?_, hsh.sent⟩, trivial⟩
      cases hlist'
      exact (hsh.list list hlist).append hpc.1 (hpc.2 list hlist)
  | unlock => exact ⟨⟨hsh.list, hsh.sent⟩, trivial⟩
  | sigwait => exact ⟨⟨hsh.list, hsh.sent⟩, trivial⟩
  | sigLock => exact ⟨⟨hsh.list, hsh.sent⟩, by simp, by simp⟩
  | sigUnlock => exact ⟨⟨hsh.list, hsh.sent⟩, trivial⟩

/-- The estimates in every run that appends only small samples. -/
structure Estimating (s : Sender T p R) : Prop where
  buffered : Buffered s
  shared : s.sh.Estimates
  agents : ∀ a, (s.pc a).Estimates s.sh

namespace Estimating

theorem init : Estimating (Sender.init : Sender T p R) where
  buffered := Buffered.init
  shared := ⟨fun list hlist ↦ by cases hlist; exact Admitted.create, by simp [Sender.init]⟩
  agents := by rintro (_ | _) <;> trivial

/-- In every run that appends only small samples, the buffer holds few of them. -/
theorem length_le {s : Sender T p R} (h : Estimating s) {list : SflowDataList (SflowSp p R)}
    (hlist : s.sh.sflowBufferedSamples = some list) : list.sdlCount ≤ 170 := by
  have hadmitted := h.shared.list list hlist
  have hcount := eight_mul_length_le list.data
  have hfits := hadmitted.fits
  rw [(h.buffered.wellFormed list hlist).count_eq]
  rw [sflowMtu] at hfits
  omega

variable [DecidableEq T] {s s' : Sender T p R}

theorem step (h : Estimating s) {l : Action T p R}
    (hsmall : ∀ t sample, l = .call t sample → sample.Small) (hs : s.step l = some s') :
    Estimating s' := by
  have hbuffered := h.buffered.step hs
  rcases Sender.step_cases hs with ⟨t, sample, rfl, -, rfl⟩ | ⟨a, env, sh, pc, rfl, -, hm, rfl⟩ |
    ⟨rfl, -, rfl⟩
  · exact ⟨hbuffered, h.shared, Cfg.forall_move_of_frame h.agents (hsmall t sample rfl)
      fun _ _ hb ↦ hb⟩
  · obtain ⟨hsh, hpc⟩ := hm.estimates h.buffered.wellFormed h.shared (h.agents a)
    exact ⟨hbuffered, hsh, Cfg.forall_move_of_frame h.agents hpc fun b hb hpcb ↦
      hpcb.frame (h.buffered.frame hm hb)⟩
  · exact ⟨hbuffered, ⟨h.shared.list, h.shared.sent⟩, fun a ↦ (h.agents a).frame fun _ ↦ rfl⟩

theorem run {ls : List (Action T p R)} {s : Sender T p R}
    (h : Run.run Sender.step Sender.init ls = some s)
    (hsmall : ∀ t sample, .call t sample ∈ ls → sample.Small) : Estimating s :=
  run_induction_of_meets
    (C := fun _ l => ∀ t sample, l = Action.call t sample → sample.Small)
    (fun _ _ _ h hl hs ↦ h.step hl hs) init
    (meets_of_forall fun _ hl t sample heq ↦ hsmall t sample (heq ▸ hl)) h

end Estimating

/-- For samples of any lengths that an estimate can hold, appended by any number of
threads and flushed at any time: every datagram with two or more samples is at
most as long as the MTU, and a longer one holds one sample that does not fit even
by itself. -/
theorem sent_withinMtu [DecidableEq T] {ls : List (Action T p R)} {s : Sender T p R}
    (h : run Sender.step Sender.init ls = some s)
    (hsmall : ∀ t sample, .call t sample ∈ ls → sample.Small) :
    ∀ x ∈ s.sh.sent, ∃ size, x.size = .ok size ∧
      (2 ≤ x.dg.samples.length → size.toNat ≤ sflowMtu) ∧
      (sflowMtu < size.toNat →
        ∃ sp, x.dg.samples = [sp] ∧ sflowMtu < 28 + (8 + sp.length)) :=
  fun x hx ↦ (Estimating.run h hsmall).shared.sent x hx

/-- A packet of six bytes, in a datagram of its own. -/
theorem sent_withinMtu_appendAndFlush :
    ∃ s : Sender Unit .amd64 (List UInt8),
      run Sender.step Sender.init Action.appendAndFlush = some s ∧
        ∀ x ∈ s.sh.sent, ∃ size, x.size = .ok size ∧
          (2 ≤ x.dg.samples.length → size.toNat ≤ sflowMtu) ∧
          (sflowMtu < size.toNat →
            ∃ sp, x.dg.samples = [sp] ∧ sflowMtu < 28 + (8 + sp.length)) := by
  have hrun : (run Sender.step (Sender.init : Sender Unit .amd64 (List UInt8))
      Action.appendAndFlush).isSome := by decide +kernel
  have hsix : SflowSp.six.Small := by
    unfold SflowSp.Small
    decide +kernel
  obtain ⟨s, hs⟩ := Option.isSome_iff_exists.mp hrun
  refine ⟨s, hs, sent_withinMtu hs fun t sample h ↦ ?_⟩
  simp only [Action.appendAndFlush, Action.go, List.mem_cons, List.mem_append,
    List.mem_replicate, reduceCtorEq, and_false, or_false, Action.call.injEq] at h
  rw [h.2]
  exact hsix

end Sflow

import Sflow.Protocol.Laid
import Sflow.Sender.Buffering

/-!
# The way of a sample

From the call that hands it over to the datagram it is sent in, a sample is at one
place after the other: with a thread, in the buffer, in a datagram that is being
flattened.  A property of the samples that threads hand over is one of all samples
on their way, and what flattening makes of it is a property of all samples sent.
-/

namespace Sflow

open C Run

variable {T R : Type} {p : Platform}

/-- The samples that an agent has still to put into the buffer, or to flatten. -/
def Pc.samples : Pc p R → List (SflowSp p R)
  | trylock sample | alarm sample => [sample]
  | lock node | check node | cancel node | retrylock node | realarm node | append node =>
      [node.sdlnData]
  | send caller (.flat _ _ todo _ _) => (caller.map (·.sdlnData)).toList ++ todo
  | send caller _ => (caller.map (·.sdlnData)).toList
  | idle | unlock | sigwait | sigLock | sigUnlock => []

/-- The sample that an agent flattens next. -/
def Pc.next : Pc p R → Option (SflowSp p R)
  | send _ (.flat _ (_ + 1) (sp :: _) _ _) => some sp
  | _ => none

/-! ## Bytes -/

variable {Q : SflowSp p R → List UInt8 → Prop}

/-- The buffer of a datagram, up to `offBuf`: the header, and a part with the property `Q` for each
of the samples that are done. -/
structure Laid (Q : SflowSp p R → List UInt8 → Prop) (dg : SflowDg p R)
    (done : List (SflowSp p R)) (data : List UInt8) (offBuf : Nat) : Prop where
  size : ∃ size, sflowDatagramSize dg = .ok size ∧ data.length = size.toNat
  room : offBuf ≤ data.length
  parts : ∃ parts, List.Forall₂ Q done parts ∧ offBuf = 28 + parts.flatten.length ∧
    data.take offBuf = dg.header ++ parts.flatten

/-- What is done when the loop over the samples starts. -/
theorem laid_start {dg : SflowDg p R} {buf : Buf} {offBuf : Nat} {size : UInt32}
    (h : sflowDatagramStart dg = .ok (buf, offBuf, size)) : Laid Q dg [] buf.data offBuf := by
  obtain ⟨hsize, rfl, hroom, hdata⟩ := SflowDg.start_cases h
  have hcalloc : (List.replicate size.toNat (0 : UInt8)).length = size.toNat :=
    List.length_replicate
  have hheader : 0 + dg.header.length ≤ (List.replicate size.toNat (0 : UInt8)).length := by
    rw [hcalloc, SflowDg.header_length]
    exact hroom
  have hlen : buf.data.length = size.toNat := by rw [hdata, length_splice hheader, hcalloc]
  have htake := take_splice hheader
  rw [← hdata, SflowDg.header_length] at htake
  exact ⟨⟨size, hsize, hlen⟩, by omega, [], .nil, rfl, by simpa using htake⟩

/-- The next sample goes behind those that are done. -/
theorem Laid.next {dg : SflowDg p R} {done : List (SflowSp p R)} {buf buf' : Buf} {offBuf n : Nat}
    {f : Flat} {sp : SflowSp p R} (h : Laid Q dg done buf.data offBuf) (hf : Lays f (Q sp))
    (hflat : f buf offBuf = .ok (buf', n)) :
    Laid Q dg (done ++ [sp]) buf'.data (offBuf + n) := by
  obtain ⟨bytes, hbytes, rfl, hroom, hdata⟩ := hf hflat
  obtain ⟨size, hsize, hlen⟩ := h.size
  obtain ⟨parts, hparts, rfl, htake⟩ := h.parts
  have hlen' : buf'.data.length = buf.data.length := by rw [hdata, length_splice hroom]
  refine ⟨⟨size, hsize, hlen'.trans hlen⟩, hlen' ▸ hroom, parts ++ [bytes], ?_, ?_, ?_⟩
  · exact List.rel_append hparts (.cons hbytes .nil)
  · rw [List.flatten_concat, List.length_append, Nat.add_assoc]
  · rw [hdata, take_splice hroom, htake, List.flatten_concat, List.append_assoc]

/-- The samples that are in a datagram: as many as it says. -/
def Sent.samples (x : Sent p R) : List (SflowSp p R) :=
  x.dg.samples.take (ntohl p.endian x.dg.sampleNum).toNat

/-- The bytes of a datagram are its header, and behind it a part with the property `Q` for each of
its samples. -/
structure Sent.Made (Q : SflowSp p R → List UInt8 → Prop) (x : Sent p R) : Prop where
  count : x.samples.length = (ntohl p.endian x.dg.sampleNum).toNat
  size : ∃ size, x.size = .ok size ∧ x.bytes.length = size.toNat
  parts : ∃ parts, List.Forall₂ Q x.samples parts ∧ x.bytes = x.dg.header ++ parts.flatten

/-- When all samples are done and as long as they note, they fill the buffer. -/
theorem Laid.made {x : Sent p R} {todo : List (SflowSp p R)} {offBuf : Nat}
    (hQ : ∀ sp b, Q sp b → sp.IsImage b) (hsamples : x.samples ++ todo = x.dg.samples)
    (hcount : x.samples.length = (ntohl p.endian x.dg.sampleNum).toNat)
    (h : Laid Q x.dg x.samples x.bytes offBuf) : x.Made Q := by
  obtain ⟨size, hsize, hlen⟩ := h.size
  obtain ⟨parts, hparts, rfl, htake⟩ := h.parts
  have hroom := h.room
  have hcount' : (ntohl p.endian x.dg.sampleNum).toNat ≤ x.dg.samples.length := by
    rw [← hsamples, List.length_append, hcount]
    exact Nat.le_add_right _ _
  have hlens : List.Forall₂ (fun sp part => UInt32.ofNat part.length =
      UInt32.ofNat 8 + ntohl p.endian sp.len) x.samples parts := by
    refine hparts.imp fun sp part hpart ↦ ?_
    obtain ⟨u, rfl, hlen⟩ := hQ sp part hpart
    rw [List.length_append, SflowSp.length_front, UInt32.ofNat_add, hlen]
  have hsum := sumSlots_of_forall₂ hcount' hlens 28
  have hreal := hsize
  rw [sflowDatagramSize, sizeof_sflowSpT, sizeof_sflowDgT] at hreal
  change sumSlots _ _ _ (UInt32.ofNat 28) = _ at hreal
  rw [hsum, Except.ok.injEq] at hreal
  have hmod := congrArg UInt32.toNat hreal
  rw [UInt32.toNat_ofNat'] at hmod
  refine ⟨hcount, ⟨size, hsize, hlen⟩, parts, hparts, ?_⟩
  rw [← htake, List.take_of_length_le]
  rw [hlen, ← hmod]
  exact Nat.mod_le _ _

/-- A collector finds a body for each sample, and that is what makes its part with the front. -/
theorem Sent.Made.exists_read {x : Sent p R} (h : x.Made Q)
    (hQ : ∀ sp b, Q sp b → sp.IsImage b) :
    ∃ bodies, readParts x.bytes = some (bodies, []) ∧
      List.Forall₂ (fun sp body => Q sp (sp.front ++ body)) x.samples bodies := by
  obtain ⟨size, -, hlen⟩ := h.size
  obtain ⟨parts, hparts, hbytes⟩ := h.parts
  have hsmall : parts.flatten.length < 2 ^ 32 := by
    have hlt := size.toNat_lt
    rw [hbytes, List.length_append] at hlen
    omega
  have hbodies : ∃ bodies, List.Forall₂ (Reads readPart) parts bodies ∧
      List.Forall₂ (fun sp body => Q sp (sp.front ++ body)) x.samples bodies := by
    clear hbytes
    generalize x.samples = sps at hparts ⊢
    induction hparts with
    | nil => exact ⟨[], .nil, .nil⟩
    | @cons sp part sps parts hpart _ ih =>
        rw [List.flatten_cons, List.length_append] at hsmall
        obtain ⟨body, rfl, hbody⟩ := hQ sp part hpart
        rw [List.length_append] at hsmall
        obtain ⟨bodies, hread, hall⟩ := ih (by omega)
        refine ⟨body :: bodies, .cons (reads_readPart sp ?_) hread, .cons hpart hall⟩
        rw [← hbody, toNat_ofNat_of_lt (by omega)]
  obtain ⟨bodies, hread, hall⟩ := hbodies
  refine ⟨bodies, ?_, hall⟩
  have hreads := reads_readParts x.dg (hall.length_eq.symm.trans h.count) hread []
  rwa [List.append_nil, ← hbytes] at hreads

/-! ## Along a run -/

/-- What an agent has flattened belongs to the datagram that it is about to send. -/
def Pc.Flattened (Q : SflowSp p R → List UInt8 → Prop) : Pc p R → Prop
  | send _ (.flat dg count todo buf offBuf) =>
      ∃ done, done ++ todo = dg.samples ∧
        done.length + count = (ntohl p.endian dg.sampleNum).toNat ∧ Laid Q dg done buf.data offBuf
  | _ => True

/-- `P` holds of every sample on its way, and `Q` of every sample sent and its bytes. -/
structure Tracked (P : SflowSp p R → Prop) (Q : SflowSp p R → List UInt8 → Prop)
    (s : Sender T p R) : Prop where
  waiting : ∀ sp ∈ s.sh.waiting, P sp
  samples : ∀ a, ∀ sp ∈ (s.pc a).samples, P sp
  flattened : ∀ a, (s.pc a).Flattened Q
  sent : ∀ x ∈ s.sh.sent, x.Made Q

variable {P P' : SflowSp p R → Prop}

/-- What holds of the samples before a step of an agent holds of them after it. -/
theorem Moves.samples {env : Env R} {sh sh' : Shared p R} {pc pc' : Pc p R}
    (hm : Moves env sh pc sh' pc')
    (hwf : ∀ list, sh.sflowBufferedSamples = some list → list.WellFormed)
    (hwaiting : ∀ sp ∈ sh.waiting, P sp) (hpc : ∀ sp ∈ pc.samples, P sp) :
    (∀ sp ∈ sh'.waiting, P sp) ∧ ∀ sp ∈ pc'.samples, P sp := by
  cases hm with
  | @pack caller list dg buf offBuf size hlist hdg =>
      rw [sflowDatagramPack_eq (hwf list hlist), Except.ok.injEq] at hdg
      have hall : ∀ sp ∈ dg.samples, P sp := by
        intro sp hsp
        refine hwaiting sp ?_
        rw [← hdg] at hsp
        simpa [Shared.waiting, hlist, SflowDg.around] using hsp
      refine ⟨by simp [Shared.waiting], fun sp hsp ↦ ?_⟩
      rcases List.mem_append.mp hsp with hsp | hsp
      · exact hpc sp hsp
      · exact hall sp hsp
  | @flat caller dg count todo buf offBuf todo' buf' offBuf' hnext =>
      obtain ⟨sp, n, rfl, -, rfl⟩ := flatNext_cases hnext
      refine ⟨hwaiting, fun sp' hsp ↦ hpc sp' ?_⟩
      rcases List.mem_append.mp hsp with hsp | hsp
      · exact List.mem_append_left _ hsp
      · exact List.mem_append_right _ (List.mem_cons_of_mem _ hsp)
  | send => exact ⟨hwaiting, fun sp hsp ↦ hpc sp (List.mem_append_left _ hsp)⟩
  | @create caller =>
      refine ⟨by simp [Shared.waiting], ?_⟩
      cases caller with
      | none => simp [returnPc, Pc.samples]
      | some node => exact hpc
  | @append node list hlist =>
      refine ⟨fun sp hsp ↦ ?_, by simp [Pc.samples]⟩
      simp only [Shared.waiting, Option.map_some, Option.getD_some, SflowDataList.data_append,
        List.mem_append] at hsp
      rcases hsp with hsp | hsp
      · exact hwaiting sp (by simpa [Shared.waiting, hlist] using hsp)
      · exact hpc sp hsp
  | unlock | sigwait | sigLock | sigUnlock => exact ⟨hwaiting, by simp [Pc.samples]⟩
  | _ => exact ⟨hwaiting, hpc⟩

theorem Moves.flattened {env : Env R} {sh sh' : Shared p R} {pc pc' : Pc p R}
    (hm : Moves env sh pc sh' pc') (hQ : ∀ sp b, Q sp b → sp.IsImage b)
    (hflat : ∀ sp ∈ pc.next, P sp → Lays (sflowSampleFlat env.mem sp) (Q sp))
    (hpc : ∀ sp ∈ pc.samples, P sp) (hdone : pc.Flattened Q) (hsent : ∀ x ∈ sh.sent, x.Made Q) :
    pc'.Flattened Q ∧ ∀ x ∈ sh'.sent, x.Made Q := by
  cases hm with
  | pack hlist hdg hstart => exact ⟨⟨[], rfl, Nat.zero_add _, laid_start hstart⟩, hsent⟩
  | flatFaults => exact ⟨hdone, hsent⟩
  | @flat caller dg count todo buf offBuf todo' buf' offBuf' hnext =>
      obtain ⟨sp, n, rfl, hsp, rfl⟩ := flatNext_cases hnext
      obtain ⟨done, hsamples, hcount, hlaid⟩ := hdone
      have hlays := hflat sp rfl (hpc sp (List.mem_append_right _ List.mem_cons_self))
      refine ⟨⟨done ++ [sp], ?_, ?_, hlaid.next hlays hsp⟩, hsent⟩
      · rw [List.append_assoc]
        exact hsamples
      · rw [List.length_append, List.length_singleton]
        omega
  | @send caller dg todo buf offBuf =>
      obtain ⟨done, hsamples, hcount, hlaid⟩ := hdone
      refine ⟨trivial, fun x hx ↦ ?_⟩
      rcases List.mem_append.mp hx with hx | hx
      · exact hsent x hx
      · rw [List.mem_singleton.mp hx]
        let x : Sent p R := ⟨dg, buf.data⟩
        have hdone : x.samples = done := by
          change dg.samples.take (ntohl p.endian dg.sampleNum).toNat = done
          rw [← hcount, ← hsamples]
          exact List.take_left
        subst hdone
        exact Laid.made (x := x) hQ hsamples hcount hlaid
  | @create caller => exact ⟨by cases caller <;> trivial, hsent⟩
  | _ => exact ⟨trivial, hsent⟩

namespace Tracked

theorem init : Tracked P Q (Sender.init : Sender T p R) where
  waiting := by simp [Sender.init, Shared.waiting]
  samples := by rintro (_ | _) <;> simp [Sender.init, Pc.samples]
  flattened := by rintro (_ | _) <;> trivial
  sent := by simp [Sender.init]

/-- Another property of the samples on their way takes the place of the first. -/
theorem mono {s : Sender T p R} (h : Tracked P Q s) (hwaiting : ∀ sp ∈ s.sh.waiting, P sp → P' sp)
    (hsamples : ∀ a, ∀ sp ∈ (s.pc a).samples, P sp → P' sp) : Tracked P' Q s where
  waiting sp hsp := hwaiting sp hsp (h.waiting sp hsp)
  samples a sp hsp := hsamples a sp hsp (h.samples a sp hsp)
  flattened := h.flattened
  sent := h.sent

variable [DecidableEq T] {s s' : Sender T p R}

theorem step (h : Tracked P Q s) (hbuffered : Buffered s) (hQ : ∀ sp b, Q sp b → sp.IsImage b)
    {l : Action T p R} (hcall : ∀ t sample, l = .call t sample → P sample)
    (hflat : ∀ a env, l = .run a env → ∀ sp ∈ (s.pc a).next, P sp →
      Lays (sflowSampleFlat env.mem sp) (Q sp))
    (hs : s.step l = some s') : Tracked P Q s' := by
  rcases Sender.step_cases hs with ⟨t, sample, rfl, -, rfl⟩ | ⟨a, env, sh, pc, rfl, -, hm, rfl⟩ |
    ⟨rfl, -, rfl⟩
  · refine ⟨h.waiting, ?_, ?_, h.sent⟩
    · refine Cfg.forall_move (P := fun _ (pc : Pc p R) ↦ ∀ sp ∈ pc.samples, P sp) |>.mpr
        ⟨fun sp hsp ↦ ?_, fun b _ ↦ h.samples b⟩
      rw [List.mem_singleton.mp hsp]
      exact hcall t sample rfl
    · exact Cfg.forall_move (P := fun _ (pc : Pc p R) ↦ pc.Flattened Q) |>.mpr
        ⟨trivial, fun b _ ↦ h.flattened b⟩
  · obtain ⟨hwaiting, hsamples⟩ := hm.samples hbuffered.wellFormed h.waiting (h.samples a)
    obtain ⟨hflattened, hsent⟩ :=
      hm.flattened hQ (hflat a env rfl) (h.samples a) (h.flattened a) h.sent
    refine ⟨hwaiting, ?_, ?_, hsent⟩
    · exact Cfg.forall_move (P := fun _ (pc : Pc p R) ↦ ∀ sp ∈ pc.samples, P sp) |>.mpr
        ⟨hsamples, fun b _ ↦ h.samples b⟩
    · exact Cfg.forall_move (P := fun _ (pc : Pc p R) ↦ pc.Flattened Q) |>.mpr
        ⟨hflattened, fun b _ ↦ h.flattened b⟩
  · exact ⟨h.waiting, h.samples, h.flattened, h.sent⟩

end Tracked

/-! ## All at once -/

/-- In memory that stays as it is, an agent is on the way to what `sflow_datagram_flat` returns. -/
def Pc.Continues (m : Memory R) : Pc p R → Prop
  | send _ (.flat dg count todo buf offBuf) =>
      ∃ size, sflowDatagramFlat m dg = (do
        let (buf, offBuf) ← flatSlots (2 ^ 32) (sflowSampleFlat m) count todo offBuf buf 0
        return (buf, offBuf, size))
  | _ => True

/-- The bytes of a datagram are in the buffer that `sflow_datagram_flat` returns. -/
def Sent.Returned (m : Memory R) (x : Sent p R) : Prop :=
  ∃ buf offBuf size, sflowDatagramFlat m x.dg = .ok (buf, offBuf, size) ∧ x.bytes = buf.data

theorem Moves.continues {env : Env R} {sh sh' : Shared p R} {pc pc' : Pc p R}
    (hm : Moves env sh pc sh' pc') (hpc : pc.Continues env.mem)
    (hsent : ∀ x ∈ sh.sent, x.Returned env.mem) :
    pc'.Continues env.mem ∧ ∀ x ∈ sh'.sent, x.Returned env.mem := by
  cases hm with
  | @pack caller list dg buf offBuf size hlist hdg hstart =>
      refine ⟨⟨size, ?_⟩, hsent⟩
      rw [sflowDatagramFlat, hstart]
      rfl
  | flatFaults => exact ⟨hpc, hsent⟩
  | flat hnext =>
      obtain ⟨size, hflat⟩ := hpc
      rw [flatSlots_flatNext, hnext] at hflat
      exact ⟨⟨size, hflat⟩, hsent⟩
  | @send caller dg todo buf offBuf =>
      obtain ⟨size, hflat⟩ := hpc
      refine ⟨trivial, fun x hx ↦ ?_⟩
      rcases List.mem_append.mp hx with hx | hx
      · exact hsent x hx
      · rw [List.mem_singleton.mp hx]
        exact ⟨buf, offBuf, size, hflat, rfl⟩
  | @create caller => exact ⟨by cases caller <;> trivial, hsent⟩
  | _ => exact ⟨trivial, hsent⟩

/-- What holds while memory stays as it is. -/
structure Returning (m : Memory R) (s : Sender T p R) : Prop where
  continues : ∀ a, (s.pc a).Continues m
  sent : ∀ x ∈ s.sh.sent, x.Returned m

section Returning

variable {m : Memory R}

theorem Returning.init : Returning m (Sender.init : Sender T p R) where
  continues := by rintro (_ | _) <;> trivial
  sent := by simp [Sender.init]

variable [DecidableEq T] {s s' : Sender T p R}

theorem Returning.step (h : Returning m s) {l : Action T p R}
    (hmem : ∀ a env, l = .run a env → env.mem = m) (hs : s.step l = some s') : Returning m s' := by
  rcases Sender.step_cases hs with ⟨t, sample, rfl, -, rfl⟩ | ⟨a, env, sh, pc, rfl, -, hm, rfl⟩ |
    ⟨rfl, -, rfl⟩
  · exact ⟨Cfg.forall_move (P := fun _ (pc : Pc p R) ↦ pc.Continues m) |>.mpr
      ⟨trivial, fun b _ ↦ h.continues b⟩, h.sent⟩
  · obtain rfl := hmem a env rfl
    obtain ⟨hpc, hsent⟩ := hm.continues (h.continues a) h.sent
    exact ⟨Cfg.forall_move (P := fun _ (pc : Pc p R) ↦ pc.Continues env.mem) |>.mpr
      ⟨hpc, fun b _ ↦ h.continues b⟩, hsent⟩
  · exact ⟨h.continues, h.sent⟩

/-- While memory stays as it is, the steps of a flush come to what `sflow_datagram_flat` does at
once. -/
theorem sent_returned {ls : List (Action T p R)} (h : run Sender.step Sender.init ls = some s)
    (hmem : ∀ a env, .run a env ∈ ls → env.mem = m) : ∀ x ∈ s.sh.sent, x.Returned m :=
  (run_induction_of_meets (C := fun _ l => ∀ a env, l = Action.run a env → env.mem = m)
    (fun _ _ _ h hl hs ↦ Returning.step h hl hs) Returning.init
    (meets_of_forall fun _ hl a env heq ↦ hmem a env (heq ▸ hl)) h).sent

end Returning

end Sflow

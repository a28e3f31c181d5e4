import Sflow.Protocol.Collector
import Sflow.Sender.Delivered

/-!
# What the example collector keeps

The receiver of the example collector takes one datagram after the other, each as far as
its buffer goes, and an exception ends it.  On the way to it datagrams are lost, come twice
or overtake each other.  Where the samples hold nothing but flow statistics, none of that
puts the receiver out of step.
-/

namespace Sflow

open C Run

namespace Collector

variable {T R : Type} {p : Platform}

/-- The size of the buffer of `recvfrom`. -/
def recvSize : Nat := 1500

/-- The loop of the receiver over what arrives, which ends with an exception. -/
def startReceiver (host : Endian) : List (List UInt8) → EStateM PyError Globals Unit
  | [], g => .ok () g
  | data :: rest, g =>
      match readDatagram host ⟨data.take recvSize, 0, g⟩ with
      | .ok _ c => startReceiver host rest c.mem
      | .error e c => .error e c.mem

/-- The statistics of samples that belong under a key and a name. -/
def statsUnder (key : String × UInt32) (name : List UInt8) (l : List (SampleInput p R)) :
    List FlowStat :=
  ((l.flatMap flowStats).filter fun e => e.1 = key ∧ e.2.name = name).map (·.2)

theorem statsUnder_flatMap {α : Type} (f : α → List (SampleInput p R)) (xs : List α)
    (key : String × UInt32) (name : List UInt8) :
    statsUnder key name (xs.flatMap f) = xs.flatMap fun x => statsUnder key name (f x) := by
  induction xs with
  | nil => rfl
  | cons x xs ih =>
      rw [List.flatMap_cons, List.flatMap_cons, ← ih]
      simp only [statsUnder, List.flatMap_append, List.filter_append, List.map_append]

/-- A receiver that reads every datagram to its end goes on, and keeps the statistics of all. -/
theorem startReceiver_eq {α : Type} {host : Endian} {f : α → List (SampleInput p R)}
    {data : α → List UInt8} {xs : List α}
    (h : ∀ x ∈ xs, (data x).length ≤ recvSize ∧ ∀ g, Consumed host (f x) (data x) g)
    (g : Globals) :
    ∃ g', startReceiver host (xs.map data) g = .ok () g' ∧ ∀ key name,
      statsOf g'.interfaceDict key name =
        statsOf g.interfaceDict key name ++ statsUnder key name (xs.flatMap f) := by
  induction xs generalizing g with
  | nil => exact ⟨g, rfl, fun key name ↦ (List.append_nil _).symm⟩
  | cons x xs ih =>
      rw [List.forall_mem_cons] at h
      obtain ⟨⟨hlen, hconsumed⟩, hrest⟩ := h
      obtain ⟨g₁, hread, hdict⟩ := hconsumed g
      obtain ⟨g', hrun, hstats⟩ := ih hrest g₁
      refine ⟨g', ?_, fun key name ↦ ?_⟩
      · rw [List.map_cons, startReceiver, List.take_of_length_le hlen, hread]
        exact hrun
      · rw [hstats, hdict, statsOf_recorded, List.append_assoc, statsUnder_flatMap,
          statsUnder_flatMap, List.flatMap_cons]
        rfl

/-! ## Samples that the collector gets whole -/

/-- A sample of flow statistics that arrives whole in a datagram of its own. -/
def Fitting (i : SampleInput p R) : Prop := Supported i ∧ 36 + i.size ≤ recvSize

theorem Supported.frozen {m : Memory R} {i : SampleInput p R} (h : Supported i) :
    Supported (i.frozen m) := by
  cases i with
  | flow => exact h
  | counter => exact h

theorem flowStats_frozen (m : Memory R) (i : SampleInput p R) :
    flowStats (i.frozen m) = flowStats i := by
  cases i <;> rfl

theorem sendable_fitting : Sendable (Fitting (p := p) (R := R)) fun _ => True where
  size i hi := by
    have hsize := hi.2
    have hrecv : recvSize < 2 ^ 29 := by decide
    omega
  inMemory i m hi _ := by
    cases i with
    | flow => exact hi.1.elim
    | counter => trivial
  readable i m hi _ := readableAfterFree_of_supported hi.1

/-- Samples that fit by themselves make datagrams that fit. -/
theorem totalSize_le {l : List (SampleInput p R)} (h : ∀ i ∈ l, Fitting i) {dg : SflowDg p R}
    (hdg : dg.samples = l.map SampleInput.packed) (hwhole : dg.Whole) (hmtu : dg.WithinMtu) :
    SampleInput.totalSize l ≤ recvSize := by
  have hsize : ∀ i ∈ l, i.size < 2 ^ 32 := fun i hi ↦
    Nat.lt_trans (sendable_fitting.size i (h i hi)) (by decide)
  obtain ⟨size, hdgsize, hmtu, -⟩ := hmtu
  obtain ⟨size', hsize', htotal⟩ := hwhole.size_eq
  rw [hdgsize, Except.ok.injEq] at hsize'
  rw [hdg, ← SampleInput.totalSize_eq hsize, ← hsize'] at htotal
  by_cases htwo : 2 ≤ l.length
  · rw [hdg, List.length_map, htotal] at hmtu
    exact Nat.le_trans (hmtu htwo) (by decide)
  · cases l with
    | nil => simp [SampleInput.totalSize, recvSize]
    | cons i l =>
        rw [List.length_cons] at htwo
        obtain rfl : l = [] := List.eq_nil_of_length_eq_zero (by omega)
        have hi := (h i List.mem_cons_self).2
        simp only [SampleInput.totalSize, List.map_cons, List.map_nil, List.sum_cons,
          List.sum_nil]
        omega

/-- The collector gets all of a datagram, and reads it to its end. -/
theorem exists_consumed (hstat : p.flowStatSize = 56 + p.psize) {x : Sent p R}
    (hwhole : x.dg.Whole) (hmtu : x.dg.WithinMtu)
    (hmade : x.Made (FromFlattened Fitting fun _ => True)) :
    ∃ l : List (SampleInput p R), (∀ i ∈ l, Fitting i) ∧
      l.map SampleInput.packed = x.dg.samples ∧ x.bytes.length ≤ recvSize ∧
      ∀ g, Consumed .little l x.bytes g := by
  obtain ⟨l, datagramCount, upTime, hl, hinputs, -, htotal, hbytes⟩ :=
    Sent.exists_inputs sendable_fitting hwhole hmade
  have hfitting : ∀ i ∈ l.map (·.1), Fitting i := by
    intro i hi
    obtain ⟨y, hy, rfl⟩ := List.mem_map.mp hi
    exact (hl y hy).1
  have hsupported : ∀ i ∈ l.map Flattened.kept, Supported i := by
    intro i hi
    obtain ⟨y, hy, rfl⟩ := List.mem_map.mp hi
    exact (hl y hy).1.1.frozen
  have hmem := sendable_fitting.inMemory_kept hl
  rw [hbytes]
  refine ⟨l.map (·.1), hfitting, hinputs, ?_, fun g ↦ ?_⟩
  · rw [SampleInput.length_wire_around htotal hmem]
    have hle := totalSize_le hfitting hinputs.symm hwhole hmtu
    simpa only [SampleInput.totalSize, List.map_map, Function.comp_def, Flattened.kept,
      SampleInput.size_frozen] using hle
  · obtain ⟨g', hread, hdict⟩ :=
      (inStep_of_supported hstat htotal hmem hsupported datagramCount upTime g).consumed
    refine ⟨g', hread, ?_⟩
    rw [hdict]
    simp only [recorded, List.flatMap_map, Flattened.kept, flowStats_frozen]

/-! ## Along a run -/

/-- In every run of the sender, and whichever of its datagrams arrive in whichever order and how
often: the receiver reads each to its end, and keeps nothing that was not handed over.  While none
comes twice or overtakes another it keeps the statistics in order, and all of them if none is
lost. -/
theorem received [DecidableEq T] (hstat : p.flowStatSize = 56 + p.psize)
    {ls : List (Action T p R)} {s : Sender T p R} (h : run Sender.step Sender.init ls = some s)
    (hls : ∀ l ∈ ls, l.Within Fitting fun _ => True) :
    ∃ inputs pending : List (SampleInput p R),
      s.sh.appended = (inputs ++ pending).map SampleInput.packed ∧
      ((∀ a, (s.pc a).inFlight = none) → pending.map SampleInput.packed = s.sh.waiting) ∧
      ∀ xs : List (Sent p R), (∀ x ∈ xs, x ∈ s.sh.sent) → ∀ g, ∃ g',
        startReceiver .little (xs.map Sent.bytes) g = .ok () g' ∧
        ∀ key name, ∃ kept, statsOf g'.interfaceDict key name =
            statsOf g.interfaceDict key name ++ kept ∧
          (∀ stat ∈ kept, stat ∈ statsUnder key name inputs) ∧
          (xs.Sublist s.sh.sent → kept.Sublist (statsUnder key name inputs)) ∧
          (xs.Perm s.sh.sent → kept.Perm (statsUnder key name inputs)) ∧
          (xs = s.sh.sent → kept = statsUnder key name inputs) := by
  have hdelivering := Delivering.run sendable_fitting hls h
  obtain ⟨pendingSps, hsplit, hpending, hquiet⟩ := hdelivering.exists_pending
  obtain ⟨pending, -, rfl⟩ := exists_map_eq hpending
  have hconsumed := fun x hx ↦ exists_consumed hstat (hdelivering.sent x hx)
    (hdelivering.estimating.shared.sent x hx) (hdelivering.tracked.sent x hx)
  choose! f hfitting hinputs hlen hread using hconsumed
  refine ⟨s.sh.sent.flatMap f, pending, ?_, hquiet, fun xs hxs g ↦ ?_⟩
  · rw [hsplit, List.map_append, List.map_flatMap]
    exact congrArg (· ++ _) (List.flatMap_congr fun x hx ↦ (hinputs x hx).symm)
  · obtain ⟨g', hrun, hstats⟩ := startReceiver_eq
      (fun x hx ↦ ⟨hlen x (hxs x hx), hread x (hxs x hx)⟩) g
    refine ⟨g', hrun, fun key name ↦
      ⟨statsUnder key name (xs.flatMap f), hstats key name, ?_, ?_, ?_, ?_⟩⟩
    · intro stat hstat
      rw [statsUnder_flatMap, List.mem_flatMap] at hstat ⊢
      obtain ⟨x, hx, hstat⟩ := hstat
      exact ⟨x, hxs x hx, hstat⟩
    · intro hsub
      rw [statsUnder_flatMap, statsUnder_flatMap]
      exact hsub.flatMap _
    · intro hperm
      rw [statsUnder_flatMap, statsUnder_flatMap]
      exact hperm.flatMap_right _
    · rintro rfl
      rfl

/-- The statistics of one flow. -/
def oneFlow : SampleInput amd64 (List UInt8) :=
  .counter .phyhost [.leaf .flowStat (List.replicate 64 7) (by decide) (by decide)]

/-- A thread appends the statistics, and the handler sends them when the timer has expired. -/
def sendOneFlow : List (Action Unit amd64 (List UInt8)) :=
  .call () oneFlow.packed :: Action.go (.thread ()) .still 6 ++
    .expire :: Action.go .handler .still 8

/-- The statistics are kept as often as they arrive. -/
theorem received_sendOneFlow :
    ∃ (s : Sender Unit amd64 (List UInt8)) (inputs pending : List (SampleInput amd64 (List UInt8))),
      run Sender.step Sender.init sendOneFlow = some s ∧
      s.sh.appended = (inputs ++ pending).map SampleInput.packed ∧
      ∀ g, ∃ g', startReceiver .little (s.sh.sent.map Sent.bytes) g = .ok () g' ∧ ∀ key name,
          statsOf g'.interfaceDict key name =
            statsOf g.interfaceDict key name ++ statsUnder key name inputs := by
  have hrun : (run Sender.step (Sender.init : Sender Unit amd64 (List UInt8))
      sendOneFlow).isSome := by decide +kernel
  have hfitting : Fitting oneFlow := by
    constructor
    · intro i hi
      rw [List.mem_singleton.mp hi]
      rfl
    · decide
  obtain ⟨s, hs⟩ := Option.isSome_iff_exists.mp hrun
  obtain ⟨inputs, pending, happended, -, hreceived⟩ := received rfl hs fun l hl ↦ by
    simp only [sendOneFlow, Action.go, List.mem_cons, List.mem_append, List.mem_replicate] at hl
    rcases hl with (rfl | ⟨-, rfl⟩) | rfl | ⟨-, rfl⟩
    · exact ⟨oneFlow, hfitting, rfl⟩
    all_goals trivial
  refine ⟨s, inputs, pending, hs, happended, fun g ↦ ?_⟩
  obtain ⟨g', hrun, hstats⟩ := hreceived s.sh.sent (fun _ hx ↦ hx) g
  refine ⟨g', hrun, fun key name ↦ ?_⟩
  obtain ⟨kept, hkept, -, -, -, hall⟩ := hstats key name
  rw [hkept, hall rfl]

end Collector

end Sflow

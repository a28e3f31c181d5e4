import Sflow.C.Sum
import Sflow.Protocol.Virtual

/-!
# Link totals

Six statistics of the datalinks are added up for the host and for a zone, by two
functions that are written out field by field.  The one for the host adds the
packets that go out to the errors, and has none of them in the field they belong
to.
-/

namespace Sflow

open C

/-! ## Sums over the links -/

/-- The sums that the fields stand for. -/
def linkSum64 (links : List LinkAnswers) (stat : LinkStat64) : Nat :=
  (links.map fun a => ((a.stat64 stat).getD 0).toNat).sum

def linkSum32 (links : List LinkAnswers) (stat : LinkStat32) : Nat :=
  (links.map fun a => ((a.stat32 stat).getD 0).toNat).sum

section Walk

variable {S α : Type} [Add α] {ask : LinkAnswers → S → Option α} {buffer : LinkBuffers → S → α}
  {g : Unset} {stat : S}

/-- With all look-ups succeeding, a walk adds up the answers. -/
theorem linkTotal_eq_foldl {links : List LinkAnswers} (h : ∀ a ∈ links, (ask a stat).isSome)
    (zero acc : α) : linkTotal ask buffer [stat] g acc links.zipIdx =
      (links.map fun a => (ask a stat).getD zero).foldl (· + ·) acc := by
  have hfst : links = links.zipIdx.map Prod.fst := (List.zipIdx_map_fst 0 links).symm
  have hterms : ∀ xs : List (LinkAnswers × Nat), (∀ x ∈ xs, (ask x.1 stat).isSome) → ∀ acc,
      linkTotal ask buffer [stat] g acc xs =
        ((xs.map Prod.fst).map fun a => (ask a stat).getD zero).foldl (· + ·) acc := by
    intro xs
    induction xs with
    | nil => exact fun _ _ ↦ rfl
    | cons x xs ih =>
        intro hxs acc
        obtain ⟨y, hy⟩ := Option.isSome_iff_exists.mp (hxs x List.mem_cons_self)
        have hrest := ih (fun x hx ↦ hxs x (List.mem_cons_of_mem _ hx)) (acc + y)
        simp only [List.map_cons, List.foldl_cons, hy, Option.getD_some]
        rw [← hrest]
        simp only [linkTotal, List.foldl_cons, List.foldl_nil, hy, Option.getD_some]
  rw [hterms _ fun x hx ↦ h x.1 (List.fst_mem_of_mem_zipIdx hx), ← hfst]

end Walk

section Sums

variable {links : List LinkAnswers} {g : Unset}

theorem linkTotal_stat64 {stat : LinkStat64} (h : ∀ a ∈ links, (a.stat64 stat).isSome) :
    linkTotal LinkAnswers.stat64 LinkBuffers.buffer64 [stat] g 0 links.zipIdx =
      UInt64.ofNat (linkSum64 links stat) := by
  rw [linkTotal_eq_foldl h 0, foldl_add_uInt64, UInt64.zero_add, List.map_map]
  rfl

theorem linkTotal_stat32 {stat : LinkStat32} (h : ∀ a ∈ links, (a.stat32 stat).isSome) :
    linkTotal LinkAnswers.stat32 LinkBuffers.buffer32 [stat] g 0 links.zipIdx =
      UInt32.ofNat (linkSum32 links stat) := by
  rw [linkTotal_eq_foldl h 0, foldl_add_uInt32, UInt32.zero_add, List.map_map]
  rfl

/-- Two statistics that go into one field are added to each other. -/
theorem linkTotal_pair (stat stat' : LinkStat32) (xs : List (LinkAnswers × Nat))
    (acc acc' : UInt32) :
    linkTotal LinkAnswers.stat32 LinkBuffers.buffer32 [stat, stat'] g (acc + acc') xs =
      linkTotal LinkAnswers.stat32 LinkBuffers.buffer32 [stat] g acc xs +
        linkTotal LinkAnswers.stat32 LinkBuffers.buffer32 [stat'] g acc' xs := by
  induction xs generalizing acc acc' with
  | nil => rfl
  | cons x xs ih =>
      refine Eq.trans ?_ (ih _ _)
      simp only [linkTotal, List.foldl_cons, List.foldl_nil]
      congr 1
      ac_rfl

end Sums

/-! ## The fields of the records -/

section Records

variable (p : Platform) (addr : CrKind → FlatAddr p) (q : HostAnswers) (z : ZoneAnswers)
  (source : SflowSource) (g g' : Unset)

/-- A field of the network record of the host. -/
def hostNetIoField (name : String) : List UInt8 :=
  sflowCrHostNetIoT.field p.toAbi (sflowCrHostNetIoPack p addr q g).1 name

/-- A field of the network record of a zone. -/
def virtNetIoField (name : String) : List UInt8 :=
  sflowCrVirtNetIoT.field p.toAbi (sflowCrVirtNetIoPack p (z.measured p g') addr source).1 name

end Records

/-- The fields of both records that each statistic belongs to. -/
def bytesFields : List (String × String × LinkStat64) :=
  [("hnio_bytes_in", "vnio_rx_bytes", .rbytes64), ("hnio_bytes_out", "vnio_tx_bytes", .obytes64)]

def countFields : List (String × String × LinkStat32) :=
  [("hnio_errs_in", "vnio_rx_errs", .ierrors), ("hnio_errs_out", "vnio_tx_errs", .oerrors),
    ("hnio_pkts_in", "vnio_rx_packets", .ipackets), ("hnio_pkts_out", "vnio_tx_packets", .opackets)]

/-- Both records have the sum over the links in the fields of a statistic. -/
structure TotalsAgree (p : Platform) (addr : CrKind → FlatAddr p) (q : HostAnswers)
    (z : ZoneAnswers) (source : SflowSource) (g g' : Unset) : Prop where
  bytes : ∀ x ∈ bytesFields,
    hostNetIoField p addr q g x.1 =
        hyperBytes p.endian (htonH p.endian (UInt64.ofNat (linkSum64 q.links x.2.2))) ∧
      virtNetIoField p addr z source g' x.2.1 = hostNetIoField p addr q g x.1
  counts : ∀ x ∈ countFields,
    hostNetIoField p addr q g x.1 =
        wordBytes p.endian (htonl p.endian (UInt32.ofNat (linkSum32 q.links x.2.2))) ∧
      virtNetIoField p addr z source g' x.2.1 = hostNetIoField p addr q g x.1

/-- What the accumulator of the host makes of the sums. -/
def hostCount (links : List LinkAnswers) : LinkStat32 → UInt32
  | .oerrors => UInt32.ofNat (linkSum32 links .oerrors) + UInt32.ofNat (linkSum32 links .opackets)
  | .opackets => 0
  | stat => UInt32.ofNat (linkSum32 links stat)

section Fields

variable {p : Platform} {addr : CrKind → FlatAddr p} {q : HostAnswers} {z : ZoneAnswers}
  {source : SflowSource} {g g' : Unset}

/-- What `sflow_cr_virt_net_io_pack` fills its structure with. -/
def sflowCrVirtNetIoFields (p : Platform) (links : List LinkStat) : List (List UInt8) :=
  let n := gatherZoneLinkTotal links
  [hyperBytes p.endian (htonH p.endian n.rbytes), wordBytes p.endian (htonl p.endian n.ipackets),
    wordBytes p.endian (htonl p.endian n.ierrors), wordBytes p.endian 0,
    hyperBytes p.endian (htonH p.endian n.obytes), wordBytes p.endian (htonl p.endian n.opackets),
    wordBytes p.endian (htonl p.endian n.oerrors), wordBytes p.endian 0]

theorem hostNetIoField_eq (i : Nat) {name : String} {t : CType} {v : List UInt8}
    (hf : sflowCrHostNetIoT.fields[i]? = some (name, t))
    (hv : (sflowCrHostNetIoFields p q g)[i]? = some v) : hostNetIoField p addr q g name = v :=
  LeafImage.field_of_image
    (show (sflowCrHostNetIoPack p addr q g).1 = sflowCrHostNetIoT.image p.toAbi
      (sflowCrHostNetIoFields p q g ++ [(addr .hostNetIo).toList]) from rfl)
    (by simp [sflowCrHostNetIoFields, sflowCrHostNetIoT, CType.size]) (by decide) hf
    ((List.getElem?_append_left (List.getElem?_eq_some_iff.mp hv).1).trans hv)

theorem virtNetIoField_eq (i : Nat) {name : String} {t : CType} {v : List UInt8}
    (hf : sflowCrVirtNetIoT.fields[i]? = some (name, t))
    (hv : (sflowCrVirtNetIoFields p (z.linkStats g'))[i]? = some v) :
    virtNetIoField p addr z source g' name = v :=
  LeafImage.field_of_image
    (show (sflowCrVirtNetIoPack p (z.measured p g') addr source).1 =
      sflowCrVirtNetIoT.image p.toAbi
        (sflowCrVirtNetIoFields p (z.linkStats g') ++ [(addr .virtNetIo).toList]) from rfl)
    (by simp [sflowCrVirtNetIoFields, sflowCrVirtNetIoT, CType.size]) (by decide) hf
    ((List.getElem?_append_left (List.getElem?_eq_some_iff.mp hv).1).trans hv)

variable (hlinks : ∀ a ∈ q.links, a.Has LinkStat64.total LinkStat32.total)
include hlinks

/-- The field of the bytes that come in or go out of the host. -/
theorem hostNetIoField_bytes {x : String × String × LinkStat64} (hx : x ∈ bytesFields) :
    hostNetIoField p addr q g x.1 =
      hyperBytes p.endian (htonH p.endian (UInt64.ofNat (linkSum64 q.links x.2.2))) := by
  obtain ⟨h64, -⟩ := forall_has_total.mp hlinks
  simp only [bytesFields, List.mem_cons, List.not_mem_nil, or_false] at hx
  rcases hx with rfl | rfl
  · rw [← linkTotal_stat64 (g := g) (h64 .rbytes64 (by decide)), hostNetIoField_eq 0 rfl rfl,
      sflowWalkLinks_eq]
  · rw [← linkTotal_stat64 (g := g) (h64 .obytes64 (by decide)), hostNetIoField_eq 4 rfl rfl,
      sflowWalkLinks_eq]

/-- What the record of the host has for a statistic. -/
theorem hostNetIoField_count {x : String × String × LinkStat32} (hx : x ∈ countFields) :
    hostNetIoField p addr q g x.1 =
      wordBytes p.endian (htonl p.endian (hostCount q.links x.2.2)) := by
  obtain ⟨-, h32⟩ := forall_has_total.mp hlinks
  simp only [countFields, List.mem_cons, List.not_mem_nil, or_false] at hx
  rcases hx with rfl | rfl | rfl | rfl
  · have hcount : hostCount q.links .ierrors = UInt32.ofNat (linkSum32 q.links .ierrors) := rfl
    rw [hcount, ← linkTotal_stat32 (g := g) (h32 .ierrors (by decide)),
      hostNetIoField_eq 2 rfl rfl, sflowWalkLinks_eq]
  · have hpair := linkTotal_pair (g := g) .oerrors .opackets q.links.zipIdx 0 0
    rw [UInt32.add_zero] at hpair
    rw [hostCount, ← linkTotal_stat32 (g := g) (h32 .oerrors (by decide)),
      ← linkTotal_stat32 (g := g) (h32 .opackets (by decide)), ← hpair,
      hostNetIoField_eq 6 rfl rfl, sflowWalkLinks_eq]
  · have hcount : hostCount q.links .ipackets = UInt32.ofNat (linkSum32 q.links .ipackets) := rfl
    rw [hcount, ← linkTotal_stat32 (g := g) (h32 .ipackets (by decide)),
      hostNetIoField_eq 1 rfl rfl, sflowWalkLinks_eq]
  · exact hostNetIoField_eq 5 rfl rfl

omit hlinks

variable (hzone : ∀ a ∈ z.links, a.Has LinkStat64.total LinkStat32.total)
include hzone

/-- The record of a zone is right. -/
theorem virtNetIoField_bytes {x : String × String × LinkStat64} (hx : x ∈ bytesFields) :
    virtNetIoField p addr z source g' x.2.1 =
      hyperBytes p.endian (htonH p.endian (UInt64.ofNat (linkSum64 z.links x.2.2))) := by
  obtain ⟨h64, -⟩ := forall_has_total.mp hzone
  simp only [bytesFields, List.mem_cons, List.not_mem_nil, or_false] at hx
  rcases hx with rfl | rfl
  · rw [← linkTotal_stat64 (g := g') (h64 .rbytes64 (by decide)), virtNetIoField_eq 0 rfl rfl,
      gatherZoneLinkTotal_linkStats]
  · rw [← linkTotal_stat64 (g := g') (h64 .obytes64 (by decide)), virtNetIoField_eq 4 rfl rfl,
      gatherZoneLinkTotal_linkStats]

theorem virtNetIoField_count {x : String × String × LinkStat32} (hx : x ∈ countFields) :
    virtNetIoField p addr z source g' x.2.1 =
      wordBytes p.endian (htonl p.endian (UInt32.ofNat (linkSum32 z.links x.2.2))) := by
  obtain ⟨-, h32⟩ := forall_has_total.mp hzone
  simp only [countFields, List.mem_cons, List.not_mem_nil, or_false] at hx
  rcases hx with rfl | rfl | rfl | rfl
  · rw [← linkTotal_stat32 (g := g') (h32 .ierrors (by decide)), virtNetIoField_eq 2 rfl rfl,
      gatherZoneLinkTotal_linkStats]
  · rw [← linkTotal_stat32 (g := g') (h32 .oerrors (by decide)), virtNetIoField_eq 6 rfl rfl,
      gatherZoneLinkTotal_linkStats]
  · rw [← linkTotal_stat32 (g := g') (h32 .ipackets (by decide)), virtNetIoField_eq 1 rfl rfl,
      gatherZoneLinkTotal_linkStats]
  · rw [← linkTotal_stat32 (g := g') (h32 .opackets (by decide)), virtNetIoField_eq 5 rfl rfl,
      gatherZoneLinkTotal_linkStats]

end Fields

/-! ## When the totals agree -/

/-- A datalink with nothing but packets that go out, for examples. -/
def LinkAnswers.sending (opackets : UInt32) : LinkAnswers where
  stat64 _ := some 0
  stat32 stat := some (if stat = .opackets then opackets else 0)

section Agree

variable {q : HostAnswers} {z : ZoneAnswers}

/-- With all look-ups succeeding, both records have all the sums over the same links exactly if no
packets went out, as far as a word counts them. -/
theorem totalsAgree_iff (hlinks : ∀ a ∈ q.links, a.Has LinkStat64.total LinkStat32.total)
    (hsame : z.links = q.links) (p : Platform) (addr : CrKind → FlatAddr p) (source : SflowSource)
    (g g' : Unset) :
    TotalsAgree p addr q z source g g' ↔ linkSum32 q.links .opackets % 2 ^ 32 = 0 := by
  have hzero : UInt32.ofNat (linkSum32 q.links .opackets) = 0 ↔
      linkSum32 q.links .opackets % 2 ^ 32 = 0 := by
    rw [← UInt32.toNat_inj, UInt32.toNat_ofNat']
    rfl
  have hzone : ∀ a ∈ z.links, a.Has LinkStat64.total LinkStat32.total := by rwa [hsame]
  rw [← hzero]
  constructor
  · intro h
    have hout := (h.counts ("hnio_pkts_out", "vnio_tx_packets", .opackets) (by decide)).1
    rw [hostNetIoField_count hlinks (by decide), wordBytes_htonl_inj] at hout
    exact hout.symm
  · intro h
    have hcount : ∀ x ∈ countFields,
        hostCount q.links x.2.2 = UInt32.ofNat (linkSum32 q.links x.2.2) := by
      intro x hx
      simp only [countFields, List.mem_cons, List.not_mem_nil, or_false] at hx
      rcases hx with rfl | rfl | rfl | rfl
      · rfl
      · simp only [hostCount, h, UInt32.add_zero]
      · rfl
      · exact h.symm
    refine ⟨fun x hx ↦ ⟨hostNetIoField_bytes hlinks hx, ?_⟩, fun x hx ↦ ⟨?_, ?_⟩⟩
    · rw [virtNetIoField_bytes hzone hx, hostNetIoField_bytes hlinks hx, hsame]
    · rw [hostNetIoField_count hlinks hx, hcount x hx]
    · rw [virtNetIoField_count hzone hx, hostNetIoField_count hlinks hx, hcount x hx, hsame]

end Agree

/-- A link that is quiet. -/
theorem totalsAgree_iff_quiet :
    let q : HostAnswers := { HostAnswers.silent with links := [.sending 0] }
    let z : ZoneAnswers := { ZoneAnswers.silent with links := [.sending 0] }
    TotalsAgree .amd64 (fun _ => Vector.replicate 8 1) q z .web .zero .zero := by
  intro q z
  exact (totalsAgree_iff (by simp [q, LinkAnswers.Has, LinkAnswers.sending]) rfl .amd64 _ _ _
    _).mpr (by decide)

/-- A packet that goes out is an error of the host and is none of its packets. -/
theorem not_totalsAgree_one :
    let addr : CrKind → FlatAddr .amd64 := fun _ => Vector.replicate 8 1
    let q : HostAnswers := { HostAnswers.silent with links := [.sending 1] }
    let z : ZoneAnswers := { ZoneAnswers.silent with links := [.sending 1] }
    (hostNetIoField .amd64 addr q .zero "hnio_pkts_out" = [0, 0, 0, 0] ∧
        hostNetIoField .amd64 addr q .zero "hnio_errs_out" = [0, 0, 0, 1] ∧
        virtNetIoField .amd64 addr z .web .zero "vnio_tx_packets" = [0, 0, 0, 1]) ∧
      ¬ TotalsAgree .amd64 addr q z .web .zero .zero := by
  intro addr q z
  refine ⟨by decide +kernel, fun h ↦ ?_⟩
  have hout := (h.counts ("hnio_pkts_out", "vnio_tx_packets", .opackets) (by decide)).2
  revert hout
  decide +kernel

end Sflow

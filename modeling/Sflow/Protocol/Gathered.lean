import Mathlib.Data.List.Induction
import Sflow.C.Decode
import Sflow.C.Heap
import Sflow.Protocol.Hostphy
import Sflow.Protocol.MacText

/-!
# The memory of the adapters

`sflow_cr_host_adapters_pack` at the level of its memory: a block that
`sflow_gather_adapter` makes longer by one adapter on every call, with the hidden
pointer and the two counts in front.  It simulates the record that `Adapters` builds
as a list (`sflowGatherAdapterBuf_eq`), as long as `has_len` can hold the length: with
2²⁸ adapters it is four again, and the block shrinks to the structure.
-/

namespace Sflow

open C Reader

section Pack

variable (p : Platform)

def hasLenOff : Nat := p.psize

def hasCountOff : Nat := p.psize + 4

/-- A number as a `size_t` holds it. -/
def asSize (n : Nat) : Nat := n % 2 ^ (8 * p.psize)

/-- The size of an adapter with its address. -/
def adapterSize : Nat := sflowCrHostAdapterT.sizeof p.toAbi + sflowCrHostAdapterMacT.sizeof p.toAbi

/-- `a` behind `calloc` and the two assignments. -/
def sflowCrHostAdaptersInit : Except Fault Buf := do
  let a ← (Buf.calloc (sflowCrHostAdaptersT.sizeof p.toAbi)).memcpy (hasCountOff p)
    (wordBytes p.endian 0)
  a.memcpy (hasLenOff p) (wordBytes p.endian 4)

variable (fresh : Nat → Nat → UInt8) (g : Unset)

/-- The length is stored and the block takes it.  Behind what `realloc` keeps lies `fresh i` in the
call number `i`. -/
def growAdapters (a : Buf) (i : Nat) : Except Fault Buf := do
  let hasCount ← a.wordAt p.endian (hasCountOff p)
  let a ← a.memcpy (hasLenOff p)
    (wordBytes p.endian (UInt32.ofNat (4 + asSize p ((hasCount + 1).toNat * adapterSize p))))
  let hasLen ← a.wordAt p.endian (hasLenOff p)
  return a.realloc (asSize p (hasLen.toNat + sflowCrHostAdaptersT.sizeof p.toAbi - 4)) (fresh i)

/-- The adapter is counted and written behind the others. -/
def putAdapter (a : Buf) (i : Nat) (di : AdapterAnswers) : Except Fault Buf := do
  let hasCount ← a.wordAt p.endian (hasCountOff p)
  let a ← a.memcpy (hasCountOff p) (wordBytes p.endian (hasCount + 1))
  let ad := sflowCrHostAdaptersT.sizeof p.toAbi + asSize p (adapterSize p * hasCount.toNat)
  let a ← a.memcpy ad (wordBytes p.endian (htonl p.endian di.diLinkid))
  let a ← a.memcpy (ad + 4) (wordBytes p.endian (htonl p.endian di.valcnt))
  a.memcpy (ad + sflowCrHostAdapterT.sizeof p.toAbi)
    (macConvertStrToChar (di.macAddress.getD (g.buff i)).chars (g.macInt i)).toList

/-- `sflow_gather_adapter`.  A write outside of what `realloc` returned last is a fault. -/
def sflowGatherAdapterBuf (a : Buf) (i : Nat) (di : AdapterAnswers) : Except Fault Buf := do
  let a ← growAdapters p fresh a i
  putAdapter p g a i di

/-- The walk over the datalinks. -/
def sflowWalkAdapters (links : List AdapterAnswers) : Except Fault Buf := do
  let a ← sflowCrHostAdaptersInit p
  links.zipIdx.foldlM (fun a x => sflowGatherAdapterBuf p fresh g a x.2 x.1) a

def sflowCrHostAdaptersPackBuf (flat : FlatAddr p) (links : List AdapterAnswers) :
    Except Fault Buf := do
  let a ← sflowWalkAdapters p fresh g links
  let hasCount ← a.wordAt p.endian (hasCountOff p)
  let a ← a.memcpy (hasCountOff p) (wordBytes p.endian (htonl p.endian hasCount))
  a.memcpy 0 flat.toList

/-- The bytes that `memcpy` takes, and the adapters that the loop behind it reads. -/
def sflowCrHostAdaptersFlatBuf (a : Buf) : Except Fault (List UInt8) := do
  let hasLen ← a.wordAt p.endian (hasLenOff p)
  let out ← a.readAt ⟨sflowCrHostAdaptersT.sizeof p.toAbi - 4, hasLen.toNat⟩
  let hasCount ← a.wordAt p.endian (hasCountOff p)
  (List.range (ntohl p.endian hasCount).toNat).forM fun i => do
    let ad := sflowCrHostAdaptersT.sizeof p.toAbi + asSize p (adapterSize p * i)
    let _ ← a.wordAt p.endian ad
    let _ ← a.wordAt p.endian (ad + 4)
  return out

/-- The adapters behind the structure. -/
def gatheredPlace (n : Nat) : Place := ⟨sflowCrHostAdaptersT.sizeof p.toAbi, adapterSize p * n⟩

end Pack

/-- The index of an adapter, the count of its addresses, and a slot of eight bytes for each. -/
def readAdapter : Reader (UInt32 × List (List UInt8)) :=
  word.andThen fun ifIndex => word.andThen fun macCount =>
    (many (bytes 8) macCount.toNat).andThen fun macs => ret (ifIndex, macs)

def readAdapters : Reader (List (UInt32 × List (List UInt8))) :=
  word.andThen fun count => many readAdapter count.toNat

/-- A datalink with one address. -/
structure MacLink where
  diLinkid : UInt32
  mac : Vector HexByte 6

/-- What `dladm_get_linkprop` says of it. -/
def MacLink.answers (l : MacLink) : AdapterAnswers where
  diLinkid := l.diLinkid
  macAddress := some ⟨macText l.mac.toList, nul_notMem_macText _⟩
  valcnt := 1

/-- The record is as long as it says, keeps every adapter that was gathered, and reads back as the
datalinks in their order. -/
def GathersWell (p : Platform) (fresh : Nat → Nat → UInt8) (g : Unset) (flat : FlatAddr p)
    (links : List MacLink) : Prop :=
  ∃ a, sflowCrHostAdaptersPackBuf p fresh g flat (links.map (·.answers)) = .ok a ∧
    (∃ hasLen, a.wordAt p.endian (hasLenOff p) = .ok hasLen ∧
      hasLen.toNat = 4 + 16 * links.length) ∧
    (∀ before behind, links = before ++ behind →
      ∃ a', sflowWalkAdapters p fresh g (before.map (·.answers)) = .ok a' ∧
        (gatheredPlace p before.length).read a.data =
          (gatheredPlace p before.length).read a'.data) ∧
    ∃ out ads, sflowCrHostAdaptersFlatBuf p a = .ok out ∧ out.length = 4 + 16 * links.length ∧
      readAdapters out = some (ads, []) ∧
      ads.map (fun ad => (ad.1, ad.2.map (List.take 6))) =
        links.map fun l => (l.diLinkid, [l.mac.toList.map (·.value)])

/-! ## The parts of the block -/

section Parts

variable {p : Platform} (fresh : Nat → Nat → UInt8) (g : Unset)

theorem sizeof_sflowCrHostAdaptersT : sflowCrHostAdaptersT.sizeof p.toAbi = p.psize + 8 :=
  StructDecl.sizeof_of_packed _ rfl

theorem sizeof_sflowCrHostAdapterT : sflowCrHostAdapterT.sizeof p.toAbi = 8 :=
  StructDecl.sizeof_of_packed _ rfl

theorem adapterSize_eq : adapterSize p = 16 := by
  rw [adapterSize, sizeof_sflowCrHostAdapterT, StructDecl.sizeof_of_packed _ rfl]
  rfl

theorem asSize_of_lt {n : Nat} (h : n + 4 < 2 ^ 32 + p.psize) : asSize p n = n := by
  refine Nat.mod_eq_of_lt ?_
  rcases p.psize_eq with hp | hp <;>
  · rw [hp] at h ⊢
    omega

theorem toNat_count {n : Nat} (h : n ≤ 2 ^ 28) : (UInt32.ofNat n).toNat = n := by
  have hlt : n < 2 ^ 32 := by omega
  exact UInt32.toNat_ofNat_of_lt' hlt

theorem toNat_hasLen {n : Nat} (h : n < 2 ^ 28) :
    (UInt32.ofNat (4 + 16 * n)).toNat = 4 + 16 * n := by
  have hlt : 4 + 16 * n < 2 ^ 32 := by omega
  exact UInt32.toNat_ofNat_of_lt' hlt

/-- The hidden pointer, the length, the count and the adapters. -/
def gatheredParts (p : Platform) (front : List UInt8) (ads : SflowCrHostAdapters) :
    List (List UInt8) :=
  [front, wordBytes p.endian ads.hasLen, wordBytes p.endian ads.hasCount,
    ads.adapters.flatMap (·.image p)]

/-- The datalinks as the record knows them: the slots end with what `realloc` left there. -/
def gatheredLink (i : Nat) (di : AdapterAnswers) :
    AdapterLink where
  diLinkid := di.diLinkid
  valcnt := di.valcnt
  mac := macConvertStrToChar (di.macAddress.getD (g.buff i)).chars (g.macInt i) ++
    #v[fresh i 14, fresh i 15]

theorem length_flatMap_image (ads : List SflowCrHostAdapter) :
    (ads.flatMap (·.image p)).length = 16 * ads.length := by
  induction ads with
  | nil => rfl
  | cons ad ads ih =>
      rw [List.flatMap_cons, List.length_append, ih, List.length_cons]
      simp only [SflowCrHostAdapter.image, List.length_append, wordBytes_length,
        Vector.length_toList]
      omega

variable {a a' : Buf} {front : List UInt8} {ads : SflowCrHostAdapters}

theorem length_gatheredParts (hfront : front.length = p.psize) :
    (gatheredParts p front ads).flatten.length = p.psize + 8 + 16 * ads.adapters.length := by
  simp only [gatheredParts, List.flatten_cons, List.flatten_nil, List.length_append,
    wordBytes_length, length_flatMap_image, hfront, List.length_nil]
  omega

/-- The block with a length for one adapter more, before it is there. -/
def grownParts (p : Platform) (fresh : Nat → UInt8) (front : List UInt8)
    (ads : SflowCrHostAdapters) : List (List UInt8) :=
  gatheredParts p front { ads with hasLen := UInt32.ofNat (4 + 16 * (ads.adapters.length + 1)) } ++
    [(List.range' 0 4).map fresh, (List.range' 4 4).map fresh, (List.range' 8 6).map fresh,
      [fresh 14, fresh 15]]

/-- The length of one adapter more is stored, and the block gets the size that goes with it. -/
theorem growAdapters_eq (hdata : a.data = (gatheredParts p front ads).flatten)
    (hfront : front.length = p.psize) (hcount : ads.hasCount = UInt32.ofNat ads.adapters.length)
    (hlen : ads.adapters.length + 1 ≤ 2 ^ 28) (i : Nat) :
    ∃ b : Buf, b.data = (gatheredParts p front
          { ads with hasLen := UInt32.ofNat (4 + 16 * (ads.adapters.length + 1)) }).flatten ∧
      growAdapters p fresh a i = .ok (b.realloc (asSize p
        ((4 + 16 * (ads.adapters.length + 1)) % 2 ^ 32 + (p.psize + 8) - 4)) (fresh i)) := by
  let hasLen := UInt32.ofNat (4 + 16 * (ads.adapters.length + 1))
  have hn : (ads.hasCount + 1).toNat = ads.adapters.length + 1 := by
    rw [hcount, show (1 : UInt32) = UInt32.ofNat 1 from rfl, ← UInt32.ofNat_add]
    exact toNat_count hlen
  have hstored : UInt32.ofNat (4 + asSize p ((ads.hasCount + 1).toNat * adapterSize p)) =
      hasLen := by
    apply UInt32.toNat_inj.mp
    rw [hn, adapterSize_eq, Nat.mul_comm, UInt32.toNat_ofNat', UInt32.toNat_ofNat', asSize]
    rcases p.psize_eq with hp | hp <;>
    · rw [hp]
      omega
  have hread : a.wordAt p.endian (hasCountOff p) = .ok ads.hasCount :=
    Buf.wordAt_part hdata (i := 2) rfl (by simp [gatheredParts, hfront, hasCountOff])
  obtain ⟨b, hcopy, hdata'⟩ := Buf.memcpy_part (hasLenOff p) (wordBytes p.endian hasLen) hdata
    (i := 1) rfl (by simp [gatheredParts, hfront, hasLenOff]) (by simp)
  have hread' : b.wordAt p.endian (hasLenOff p) = .ok hasLen :=
    Buf.wordAt_part hdata' (i := 1) rfl (by simp [gatheredParts, hfront, hasLenOff])
  refine ⟨b, hdata', ?_⟩
  rw [growAdapters, hread, ok_bind, hstored, hcopy, ok_bind, hread', ok_bind, pure_eq_ok,
    sizeof_sflowCrHostAdaptersT, UInt32.toNat_ofNat']

/-- As long as the length fits its word, there are sixteen bytes more. -/
theorem data_growAdapters (hdata : a.data = (gatheredParts p front ads).flatten)
    (hfront : front.length = p.psize) (hcount : ads.hasCount = UInt32.ofNat ads.adapters.length)
    (hlen : ads.adapters.length + 1 < 2 ^ 28) (i : Nat) :
    ∃ a', growAdapters p fresh a i = .ok a' ∧
      a'.data = (grownParts p (fresh i) front ads).flatten := by
  obtain ⟨b, hb, hgrow⟩ := growAdapters_eq fresh hdata hfront hcount (Nat.le_of_lt hlen) i
  have hold : b.data.length = p.psize + 8 + 16 * ads.adapters.length := by
    rw [hb]
    exact length_gatheredParts hfront
  have hsize : asSize p ((4 + 16 * (ads.adapters.length + 1)) % 2 ^ 32 + (p.psize + 8) - 4) =
      b.data.length + 16 := by
    rw [Nat.mod_eq_of_lt (by omega), asSize_of_lt (by omega), hold]
    omega
  refine ⟨_, hgrow, ?_⟩
  rw [hsize, Buf.data_realloc (Nat.le_add_right _ _), Nat.add_sub_cancel_left, grownParts,
    List.flatten_append, hb]
  rfl

/-- Where the parts behind the adapters begin. -/
theorem partOff_behind {e : Endian} {x y : UInt32} {ads : List SflowCrHostAdapter}
    (hfront : front.length = p.psize) (parts : List (List UInt8)) (k : Nat) :
    partOff (front :: wordBytes e x :: wordBytes e y :: ads.flatMap (·.image p) :: parts) (k + 4) =
      p.psize + 8 + 16 * ads.length + partOff parts k := by
  rw [partOff_cons_succ, partOff_cons_succ, partOff_cons_succ, partOff_cons_succ, hfront,
    wordBytes_length, wordBytes_length, length_flatMap_image]
  omega

theorem hasLen_sflowGatherAdapter (hcount : ads.hasCount.toNat = ads.adapters.length)
    (di : AdapterLink) :
    (sflowGatherAdapter p ads di).hasLen = UInt32.ofNat (4 + 16 * (ads.adapters.length + 1)) := by
  change 4 + (ads.hasCount + 1) * UInt32.ofNat (adapterSize p) = _
  apply UInt32.toNat_inj.mp
  rw [adapterSize_eq, UInt32.toNat_add, UInt32.toNat_mul, UInt32.toNat_add, hcount]
  simp only [UInt32.toNat_ofNat', UInt32.reduceToNat]
  omega

/-- Into the new bytes the adapter fits. -/
theorem putAdapter_eq (hdata : a.data = (grownParts p (fresh i) front ads).flatten)
    (hfront : front.length = p.psize) (hcount : ads.hasCount = UInt32.ofNat ads.adapters.length)
    (hlen : ads.adapters.length + 1 < 2 ^ 28) (di : AdapterAnswers) :
    ∃ a', putAdapter p g a i di = .ok a' ∧ a'.data = (gatheredParts p front
      (sflowGatherAdapter p ads (gatheredLink fresh g i di))).flatten := by
  have hn : ads.hasCount.toNat = ads.adapters.length := by
    rw [hcount]
    exact toNat_count (by omega)
  have had : sflowCrHostAdaptersT.sizeof p.toAbi + asSize p (adapterSize p * ads.hasCount.toNat) =
      p.psize + 8 + 16 * ads.adapters.length := by
    rw [sizeof_sflowCrHostAdaptersT, adapterSize_eq, hn, asSize_of_lt (by omega)]
  let linkid := wordBytes p.endian (htonl p.endian di.diLinkid)
  let valcnt := wordBytes p.endian (htonl p.endian di.valcnt)
  let mac := macConvertStrToChar (di.macAddress.getD (g.buff i)).chars (g.macInt i)
  have hread : a.wordAt p.endian (hasCountOff p) = .ok ads.hasCount :=
    Buf.wordAt_part hdata (i := 2) rfl (by simp [grownParts, gatheredParts, hfront, hasCountOff])
  obtain ⟨a₁, hcopy₁, hdata₁⟩ := Buf.memcpy_part (hasCountOff p)
    (wordBytes p.endian (ads.hasCount + 1)) hdata (i := 2) rfl
    (by simp [grownParts, gatheredParts, hfront, hasCountOff]) (by simp)
  obtain ⟨a₂, hcopy₂, hdata₂⟩ := Buf.memcpy_part (p.psize + 8 + 16 * ads.adapters.length) linkid
    hdata₁ (i := 4) rfl (partOff_behind hfront _ 0).symm (by simp [linkid])
  obtain ⟨a₃, hcopy₃, hdata₃⟩ := Buf.memcpy_part (p.psize + 8 + 16 * ads.adapters.length + 4)
    valcnt hdata₂ (i := 5) rfl
    ((partOff_behind hfront _ 1).trans (by simp [linkid])).symm (by simp [valcnt])
  obtain ⟨a₄, hcopy₄, hdata₄⟩ := Buf.memcpy_part (p.psize + 8 + 16 * ads.adapters.length + 8)
    mac.toList hdata₃ (i := 6) rfl
    ((partOff_behind hfront _ 2).trans (by simp [linkid, valcnt])).symm (by simp)
  refine ⟨a₄, ?_, ?_⟩
  · rw [putAdapter, hread, ok_bind, hcopy₁, ok_bind, had, sizeof_sflowCrHostAdapterT]
    dsimp only
    rw [hcopy₂, ok_bind, hcopy₃, ok_bind, hcopy₄]
  · have himage : (sflowGatherAdapter p ads (gatheredLink fresh g i di)).adapters.flatMap
        (·.image p) = ads.adapters.flatMap (·.image p) ++
          (linkid ++ valcnt ++ (mac.toList ++ [fresh i 14, fresh i 15])) := by
      rw [sflowGatherAdapter, List.flatMap_append, List.flatMap_singleton,
        SflowCrHostAdapter.image]
      rfl
    rw [hdata₄, gatheredParts, hasLen_sflowGatherAdapter hn, himage]
    simp [grownParts, gatheredParts, sflowGatherAdapter]

/-- In a block that is no longer than the structure there is no room for an adapter. -/
theorem putAdapter_ne (hlen : a.data.length ≤ p.psize + 8) (i : Nat) (di : AdapterAnswers)
    (a' : Buf) : putAdapter p g a i di ≠ .ok a' := by
  intro hput
  obtain ⟨hasCount, -, hput⟩ := bind_eq_ok.mp hput
  obtain ⟨a₁, hcopy, hput⟩ := bind_eq_ok.mp hput
  obtain ⟨a₂, hroom, -⟩ := bind_eq_ok.mp hput
  have hroom := (Buf.memcpy_eq_ok.mp hroom).1
  rw [Buf.length_memcpy hcopy, sizeof_sflowCrHostAdaptersT, wordBytes_length] at hroom
  omega

/-- With 2²⁸ adapters the length is four. -/
theorem sflowGatherAdapterBuf_ne (hdata : a.data = (gatheredParts p front ads).flatten)
    (hfront : front.length = p.psize) (hcount : ads.hasCount = UInt32.ofNat ads.adapters.length)
    (hlen : ads.adapters.length + 1 = 2 ^ 28) (i : Nat) (di : AdapterAnswers) (a' : Buf) :
    sflowGatherAdapterBuf p fresh g a i di ≠ .ok a' := by
  intro hgather
  obtain ⟨b, -, hgrow⟩ := growAdapters_eq fresh hdata hfront hcount (Nat.le_of_eq hlen) i
  rw [sflowGatherAdapterBuf, hgrow, ok_bind] at hgather
  refine putAdapter_ne g (Nat.le_of_eq ?_) i di a' hgather
  rw [Buf.length_realloc, hlen, asSize_of_lt (by omega)]
  omega

end Parts

/-! ## The walk -/

section Walk

variable (p : Platform) (fresh : Nat → Nat → UInt8) (g : Unset)

/-- The record that the walk has made of these datalinks. -/
def gathered (links : List AdapterAnswers) : SflowCrHostAdapters :=
  (links.mapIdx (gatheredLink fresh g)).foldl (sflowGatherAdapter p) ⟨4, 0, []⟩

theorem gathered_eq (links : List AdapterAnswers) :
    gathered p fresh g links =
      ⟨UInt32.ofNat (4 + 16 * links.length), UInt32.ofNat links.length,
        (links.mapIdx (gatheredLink fresh g)).map fun di =>
          ⟨htonl p.endian di.diLinkid, htonl p.endian di.valcnt, di.mac⟩⟩ := by
  have h := foldl_sflowGatherAdapter (p := p) (links.mapIdx (gatheredLink fresh g)) 0 []
  rw [Nat.zero_add, List.length_mapIdx, List.nil_append] at h
  exact h

theorem length_adapters_gathered (links : List AdapterAnswers) :
    (gathered p fresh g links).adapters.length = links.length := by
  rw [gathered_eq, List.length_map, List.length_mapIdx]

theorem hasCount_gathered (links : List AdapterAnswers) :
    (gathered p fresh g links).hasCount =
      UInt32.ofNat (gathered p fresh g links).adapters.length := by
  rw [length_adapters_gathered, gathered_eq]

theorem gathered_concat (links : List AdapterAnswers) (di : AdapterAnswers) :
    gathered p fresh g (links ++ [di]) =
      sflowGatherAdapter p (gathered p fresh g links) (gatheredLink fresh g links.length di) := by
  rw [gathered, List.mapIdx_concat, List.foldl_concat]
  rfl

theorem sflowWalkAdapters_concat (links : List AdapterAnswers) (di : AdapterAnswers) :
    sflowWalkAdapters p fresh g (links ++ [di]) = (do
      let a ← sflowWalkAdapters p fresh g links
      sflowGatherAdapterBuf p fresh g a links.length di) := by
  simp only [sflowWalkAdapters, List.zipIdx_append, List.foldlM_append, bind_assoc,
    List.zipIdx_singleton, List.foldlM_cons, List.foldlM_nil, bind_pure, Nat.zero_add]

/-- The block that `calloc` gives and the two assignments. -/
theorem sflowCrHostAdaptersInit_eq :
    ∃ a, sflowCrHostAdaptersInit p = .ok a ∧
      a.data = (gatheredParts p (List.replicate p.psize 0) ⟨4, 0, []⟩).flatten := by
  have hcalloc : (Buf.calloc (sflowCrHostAdaptersT.sizeof p.toAbi)).data =
      [List.replicate p.psize 0, List.replicate 4 0, List.replicate 4 0, []].flatten := by
    rw [sizeof_sflowCrHostAdaptersT]
    simp [Buf.calloc, List.replicate_add]
  obtain ⟨a₁, hcopy₁, hdata₁⟩ := Buf.memcpy_part (hasCountOff p) (wordBytes p.endian 0) hcalloc
    (i := 2) rfl (by simp [hasCountOff]) (by simp)
  obtain ⟨a₂, hcopy₂, hdata₂⟩ := Buf.memcpy_part (hasLenOff p) (wordBytes p.endian 4) hdata₁
    (i := 1) rfl (by simp [hasLenOff]) (by simp)
  refine ⟨a₂, ?_, hdata₂⟩
  rw [sflowCrHostAdaptersInit, hcopy₁, ok_bind, hcopy₂]

/-- The walk makes the block of the record, as long as the length fits its word. -/
theorem sflowWalkAdapters_eq {links : List AdapterAnswers} (hlen : links.length < 2 ^ 28) :
    ∃ a, sflowWalkAdapters p fresh g links = .ok a ∧
      a.data = (gatheredParts p (List.replicate p.psize 0) (gathered p fresh g links)).flatten := by
  induction links using List.reverseRecOn with
  | nil =>
      obtain ⟨a, hinit, hdata⟩ := sflowCrHostAdaptersInit_eq p
      refine ⟨a, ?_, hdata⟩
      rw [sflowWalkAdapters, hinit]
      rfl
  | append_singleton links di ih =>
      rw [List.length_append, List.length_singleton] at hlen
      obtain ⟨a, hwalk, hdata⟩ := ih (by omega)
      have hfront : (List.replicate p.psize (0 : UInt8)).length = p.psize := List.length_replicate
      have hcount := hasCount_gathered p fresh g links
      have hlen' : (gathered p fresh g links).adapters.length + 1 < 2 ^ 28 := by
        rwa [length_adapters_gathered]
      obtain ⟨b, hgrow, hgrown⟩ := data_growAdapters fresh hdata hfront hcount hlen' links.length
      obtain ⟨a', hput, hdata'⟩ := putAdapter_eq fresh g hgrown hfront hcount hlen' di
      refine ⟨a', ?_, ?_⟩
      · rw [sflowWalkAdapters_concat, hwalk, ok_bind, sflowGatherAdapterBuf, hgrow, ok_bind, hput]
      · rw [gathered_concat]
        exact hdata'

/-- A walk that ends well has gone well up to each datalink. -/
theorem sflowWalkAdapters_of_append {before behind : List AdapterAnswers} {a : Buf}
    (h : sflowWalkAdapters p fresh g (before ++ behind) = .ok a) :
    ∃ a', sflowWalkAdapters p fresh g before = .ok a' := by
  induction behind using List.reverseRecOn generalizing a with
  | nil =>
      rw [List.append_nil] at h
      exact ⟨a, h⟩
  | append_singleton behind di ih =>
      rw [← List.append_assoc, sflowWalkAdapters_concat] at h
      obtain ⟨a', hwalk, -⟩ := bind_eq_ok.mp h
      exact ih hwalk

/-- A walk that ends well has found fewer than 2²⁸ datalinks. -/
theorem length_lt_of_sflowWalkAdapters {links : List AdapterAnswers} {a : Buf}
    (h : sflowWalkAdapters p fresh g links = .ok a) : links.length < 2 ^ 28 := by
  by_contra hlong
  obtain ⟨before, di, behind, rfl, hlen⟩ : ∃ before di behind,
      links = before ++ [di] ++ behind ∧ before.length + 1 = 2 ^ 28 := by
    obtain ⟨n, hn⟩ : ∃ n, n + 1 = 2 ^ 28 := ⟨2 ^ 28 - 1, rfl⟩
    have hlt : n < links.length := by omega
    refine ⟨links.take n, links[n], links.drop (n + 1), ?_, ?_⟩
    · rw [List.append_assoc, List.singleton_append, ← List.drop_eq_getElem_cons hlt,
        List.take_append_drop]
    · rw [List.length_take]
      omega
  obtain ⟨a', h⟩ := sflowWalkAdapters_of_append p fresh g h
  rw [sflowWalkAdapters_concat] at h
  obtain ⟨b, hwalk, hgather⟩ := bind_eq_ok.mp h
  have hbefore : before.length < 2 ^ 28 := by omega
  obtain ⟨b', hwalk', hdata⟩ := sflowWalkAdapters_eq p fresh g hbefore
  obtain rfl : b = b' := Except.ok.inj (hwalk.symm.trans hwalk')
  have hcount := hasCount_gathered p fresh g before
  refine sflowGatherAdapterBuf_ne fresh g hdata List.length_replicate hcount ?_ _ di a' hgather
  rwa [length_adapters_gathered]

end Walk

/-! ## The record -/

section Record

variable {p : Platform} (fresh : Nat → Nat → UInt8) (g : Unset) (flat : FlatAddr p) {a : Buf}

/-- The block that is packed is that of the record. -/
theorem sflowCrHostAdaptersPackBuf_eq {links : List AdapterAnswers}
    (hlen : links.length < 2 ^ 28) :
    ∃ a, sflowCrHostAdaptersPackBuf p fresh g flat links = .ok a ∧
      a.data = (gatheredParts p flat.toList
        (sflowCrHostAdaptersPack p (links.mapIdx (gatheredLink fresh g)))).flatten := by
  obtain ⟨a, hwalk, hdata⟩ := sflowWalkAdapters_eq p fresh g hlen
  let count := (gathered p fresh g links).hasCount
  have hread : a.wordAt p.endian (hasCountOff p) = .ok count :=
    Buf.wordAt_part hdata (i := 2) rfl (by simp [gatheredParts, hasCountOff])
  obtain ⟨a₁, hcopy₁, hdata₁⟩ := Buf.memcpy_part (hasCountOff p)
    (wordBytes p.endian (htonl p.endian count)) hdata (i := 2) rfl
    (by simp [gatheredParts, hasCountOff]) (by simp)
  obtain ⟨a₂, hcopy₂, hdata₂⟩ := Buf.memcpy_part 0 flat.toList hdata₁ (i := 0) rfl rfl (by simp)
  refine ⟨a₂, ?_, hdata₂⟩
  rw [sflowCrHostAdaptersPackBuf, hwalk, ok_bind, hread, ok_bind, hcopy₁, ok_bind, hcopy₂]

/-- The adapters that were gathered first are read where they were put. -/
theorem read_gatheredPlace {front : List UInt8} {ads : SflowCrHostAdapters}
    {before behind : List SflowCrHostAdapter} (hfront : front.length = p.psize)
    (hads : ads.adapters = before ++ behind) :
    (gatheredPlace p before.length).read (gatheredParts p front ads).flatten =
      before.flatMap (·.image p) := by
  have hparts : (gatheredParts p front ads).flatten =
      [front, wordBytes p.endian ads.hasLen, wordBytes p.endian ads.hasCount,
        before.flatMap (·.image p), behind.flatMap (·.image p)].flatten := by
    rw [gatheredParts, hads, List.flatMap_append]
    simp only [List.flatten_cons, List.flatten_nil, List.append_nil]
  have hplace : gatheredPlace p before.length =
      ⟨partOff [front, wordBytes p.endian ads.hasLen, wordBytes p.endian ads.hasCount,
        before.flatMap (·.image p), behind.flatMap (·.image p)] 3,
        (before.flatMap (·.image p)).length⟩ := by
    rw [gatheredPlace, sizeof_sflowCrHostAdaptersT, adapterSize_eq, length_flatMap_image]
    simp [hfront]
  rw [hplace, hparts]
  exact read_part rfl

/-- A loop that only reads. -/
theorem forM_eq_ok {α : Type} {f : α → Except Fault Unit} {xs : List α}
    (h : ∀ x ∈ xs, f x = .ok ()) : xs.forM f = .ok () := by
  induction xs with
  | nil => rfl
  | cons x xs ih =>
      have hx := h x List.mem_cons_self
      have hxs := ih fun y hy ↦ h y (List.mem_cons_of_mem _ hy)
      change (f x >>= fun _ => xs.forM f) = _
      rw [hx, ok_bind, hxs]

/-- The bytes that are taken are those behind the length. -/
theorem sflowCrHostAdaptersFlatBuf_eq {front : List UInt8} {links : List AdapterLink}
    (hdata : a.data = (gatheredParts p front (sflowCrHostAdaptersPack p links)).flatten)
    (hfront : front.length = p.psize) (hlen : links.length < 2 ^ 28) :
    sflowCrHostAdaptersFlatBuf p a = .ok ((sflowCrHostAdaptersPack p links).body p) := by
  let ads := sflowCrHostAdaptersPack p links
  have hads : ads = _ := sflowCrHostAdaptersPack_eq links
  have hcount : (ntohl p.endian ads.hasCount).toNat = links.length := by
    rw [hads, ntohl_htonl]
    exact toNat_count (Nat.le_of_lt hlen)
  have hword : ads.hasLen.toNat = (ads.body p).length := by
    rw [length_body_sflowCrHostAdaptersPack, hads]
    exact toNat_hasLen hlen
  have hall : a.data.length = p.psize + 8 + 16 * links.length := by
    rw [hdata, length_gatheredParts hfront, sflowCrHostAdaptersPack_eq, List.length_map]
  have hbody : a.data = [front, wordBytes p.endian ads.hasLen, ads.body p].flatten := by
    rw [hdata, gatheredParts, SflowCrHostAdapters.body]
    simp only [List.flatten_cons, List.flatten_nil, List.append_nil]
    rfl
  have hreadLen : a.wordAt p.endian (hasLenOff p) = .ok ads.hasLen :=
    Buf.wordAt_part hbody (i := 1) rfl (by simp [hfront, hasLenOff])
  have hreadBody : a.readAt ⟨p.psize + 8 - 4, (ads.body p).length⟩ = .ok (ads.body p) :=
    Buf.readAt_part hbody (i := 2) rfl (by simp [hfront])
  have hreadCount : a.wordAt p.endian (hasCountOff p) = .ok ads.hasCount :=
    Buf.wordAt_part hdata (i := 2) rfl (by simp [gatheredParts, hfront, hasCountOff])
  rw [sflowCrHostAdaptersFlatBuf, hreadLen, ok_bind, sizeof_sflowCrHostAdaptersT, hword, hreadBody,
    ok_bind, hreadCount, ok_bind, hcount, forM_eq_ok, ok_bind, pure_eq_ok]
  intro i hi
  rw [List.mem_range] at hi
  rw [adapterSize_eq, asSize_of_lt (by omega)]
  obtain ⟨x, hx⟩ : ∃ x, a.wordAt p.endian (p.psize + 8 + 16 * i) = .ok x :=
    Buf.exists_wordAt _ (by omega)
  obtain ⟨y, hy⟩ : ∃ y, a.wordAt p.endian (p.psize + 8 + 16 * i + 4) = .ok y :=
    Buf.exists_wordAt _ (by omega)
  dsimp only
  rw [hx, ok_bind, hy, ok_bind, pure_eq_ok]

/-- In a sample of the host these are the bytes of the record of its adapters. -/
theorem flat_of_hostAnswers {q : HostAnswers} (hlen : q.adapters.length < 2 ^ 28) :
    ∃ a, sflowCrHostAdaptersPackBuf p fresh g flat q.adapters = .ok a ∧
      sflowCrHostAdaptersFlatBuf p a = .ok ((sflowCrHostAdaptersPack p (q.adapterLinks
        { g with slot := fun i => #v[fresh i 14, fresh i 15] })).body p) := by
  obtain ⟨a, hpack, hdata⟩ := sflowCrHostAdaptersPackBuf_eq fresh g flat hlen
  refine ⟨a, hpack, sflowCrHostAdaptersFlatBuf_eq hdata Vector.length_toList ?_⟩
  change (q.adapters.mapIdx (gatheredLink fresh g)).length < 2 ^ 28
  rwa [List.length_mapIdx]

end Record

/-! ## Reading back -/

section Reading

variable {p : Platform} (fresh : Nat → Nat → UInt8) (g : Unset)

/-- An adapter with one address is read back with its slot. -/
theorem reads_adapter {di : AdapterLink} (hone : di.valcnt = 1) :
    Reads readAdapter (SflowCrHostAdapter.image p
        ⟨htonl p.endian di.diLinkid, htonl p.endian di.valcnt, di.mac⟩)
      (di.diLinkid, [di.mac.toList]) := by
  have hslot : Reads (bytes 8) di.mac.toList di.mac.toList := by
    have hbytes := reads_bytes di.mac.toList
    rwa [Vector.length_toList] at hbytes
  have hmacs : Reads (many (bytes 8) (1 : UInt32).toNat) di.mac.toList [di.mac.toList] := by
    have hmany : Reads (many (bytes 8) 1) ([di.mac.toList].flatMap id) ([di.mac.toList].map id) :=
      reads_many fun x hx ↦ by rwa [List.mem_singleton.mp hx]
    rwa [List.flatMap_singleton] at hmany
  rw [SflowCrHostAdapter.image, wordBytes_htonl, wordBytes_htonl, List.append_assoc, hone]
  exact (reads_word _).andThen ((reads_word _).andThen (hmacs.andThen_ret _))

theorem reads_adapters {links : List AdapterLink} (hone : ∀ di ∈ links, di.valcnt = 1)
    (hlen : links.length < 2 ^ 32) :
    Reads readAdapters ((sflowCrHostAdaptersPack p links).body p)
      (links.map fun di => (di.diLinkid, [di.mac.toList])) := by
  have hcount : (UInt32.ofNat links.length).toNat = links.length :=
    UInt32.toNat_ofNat_of_lt' hlen
  have hmany := reads_many fun di hdi ↦ reads_adapter (p := p) (hone di hdi)
  rw [sflowCrHostAdaptersPack_eq, SflowCrHostAdapters.body, wordBytes_htonl, List.flatMap_map]
  refine (reads_word _).andThen ?_
  rwa [hcount]

/-- The slot of an address begins with its six bytes. -/
theorem take_mac_gatheredLink (i : Nat) (l : MacLink) :
    (gatheredLink fresh g i l.answers).mac.toList.take 6 = l.mac.toList.map (·.value) := by
  have hmac : macConvertStrToChar (macText l.mac.toList) (g.macInt i) = l.mac.map (·.value) :=
    macConvertStrToChar_macText l.mac (g.macInt i)
  change (macConvertStrToChar (macText l.mac.toList) (g.macInt i) ++
    #v[fresh i 14, fresh i 15]).toList.take 6 = _
  rw [hmac, Vector.toList_append, List.take_append_of_le_length (by simp), Vector.toList_map,
    List.take_of_length_le (by simp)]

/-- What a walk has gathered of the first datalinks is in the record of all of them. -/
theorem exists_adapters_append (before behind : List AdapterAnswers) :
    ∃ rest, (sflowCrHostAdaptersPack p
      ((before ++ behind).mapIdx (gatheredLink fresh g))).adapters =
        (gathered p fresh g before).adapters ++ rest := by
  rw [sflowCrHostAdaptersPack_eq, gathered_eq, List.mapIdx_append, List.map_append]
  exact ⟨_, rfl⟩

variable {fresh} {g} {flat : FlatAddr p} {a : Buf} {links : List MacLink}

/-- The adapters of the first datalinks are where the walk had put them by then. -/
theorem exists_read_gatheredPlace {before behind : List MacLink}
    (hdata : a.data = (gatheredParts p flat.toList (sflowCrHostAdaptersPack p
      (((before ++ behind).map (·.answers)).mapIdx (gatheredLink fresh g)))).flatten)
    (hlen : (before ++ behind).length < 2 ^ 28) :
    ∃ a', sflowWalkAdapters p fresh g (before.map (·.answers)) = .ok a' ∧
      (gatheredPlace p before.length).read a.data =
        (gatheredPlace p before.length).read a'.data := by
  rw [List.length_append] at hlen
  rw [List.map_append] at hdata
  have hshort : (before.map (·.answers)).length < 2 ^ 28 := by
    rw [List.length_map]
    omega
  obtain ⟨a', hwalk, hdata'⟩ := sflowWalkAdapters_eq p fresh g hshort
  obtain ⟨rest, hrest⟩ := exists_adapters_append (p := p) fresh g (before.map (·.answers))
    (behind.map (·.answers))
  have hbefore : (gathered p fresh g (before.map (·.answers))).adapters.length =
      before.length := by
    rw [length_adapters_gathered, List.length_map]
  refine ⟨a', hwalk, ?_⟩
  rw [← hbefore, hdata, hdata', read_gatheredPlace Vector.length_toList hrest,
    read_gatheredPlace List.length_replicate (List.append_nil _).symm]

/-- The bytes that are taken are read back as the datalinks. -/
theorem exists_readAdapters
    (hdata : a.data = (gatheredParts p flat.toList (sflowCrHostAdaptersPack p
      ((links.map (·.answers)).mapIdx (gatheredLink fresh g)))).flatten)
    (hlen : links.length < 2 ^ 28) :
    ∃ out ads, sflowCrHostAdaptersFlatBuf p a = .ok out ∧ out.length = 4 + 16 * links.length ∧
      readAdapters out = some (ads, []) ∧
      ads.map (fun ad => (ad.1, ad.2.map (List.take 6))) =
        links.map fun l => (l.diLinkid, [l.mac.toList.map (·.value)]) := by
  have hmade : ((links.map (·.answers)).mapIdx (gatheredLink fresh g)).length = links.length := by
    rw [List.length_mapIdx, List.length_map]
  have hone : ∀ di ∈ (links.map (·.answers)).mapIdx (gatheredLink fresh g), di.valcnt = 1 := by
    intro di hdi
    obtain ⟨i, hi, rfl⟩ := List.mem_mapIdx.mp hdi
    rw [List.getElem_map]
    rfl
  have hread := reads_adapters (p := p) hone (by omega) []
  rw [List.append_nil] at hread
  refine ⟨_, _, sflowCrHostAdaptersFlatBuf_eq hdata Vector.length_toList (by omega), ?_, hread, ?_⟩
  · rw [length_body_sflowCrHostAdaptersPack, hmade]
  · apply List.ext_getElem
    · rw [List.length_map, List.length_map, List.length_map, hmade]
    · intro i hi hi'
      simp only [List.getElem_map, List.getElem_mapIdx, List.map_cons, List.map_nil,
        take_mac_gatheredLink]
      rfl

/-- The record of the datalinks is well formed exactly if there are fewer than 2²⁸ of them. -/
theorem gathersWell_iff (p : Platform) (fresh : Nat → Nat → UInt8) (g : Unset) (flat : FlatAddr p)
    (links : List MacLink) : GathersWell p fresh g flat links ↔ links.length < 2 ^ 28 := by
  constructor
  · rintro ⟨a, hpack, -⟩
    obtain ⟨b, hwalk, -⟩ := bind_eq_ok.mp hpack
    have hlen := length_lt_of_sflowWalkAdapters _ _ _ hwalk
    rwa [List.length_map] at hlen
  · intro hlen
    have hlen' : (links.map (·.answers)).length < 2 ^ 28 := by rwa [List.length_map]
    obtain ⟨a, hpack, hdata⟩ := sflowCrHostAdaptersPackBuf_eq fresh g flat hlen'
    refine ⟨a, hpack, ⟨UInt32.ofNat (4 + 16 * links.length), ?_, toNat_hasLen hlen⟩, ?_,
      exists_readAdapters hdata hlen⟩
    · rw [sflowCrHostAdaptersPack_eq, List.length_mapIdx, List.length_map] at hdata
      exact Buf.wordAt_part hdata (i := 1) rfl (by simp [gatheredParts, hasLenOff])
    · rintro before behind rfl
      exact exists_read_gatheredPlace hdata hlen

end Reading

/-- A datalink of that number, for examples. -/
def MacLink.numbered (n : Nat) : MacLink where
  diLinkid := UInt32.ofNat (n + 1)
  mac := Vector.replicate 6 ⟨['a'], Nat.one_pos, Nat.le_succ 1,
    fun c hc ↦ by rw [List.mem_singleton.mp hc]; rfl⟩

/-- With 2²⁸ datalinks the last call writes behind a block that was cut off. -/
theorem not_gathersWell_many :
    ¬ GathersWell .amd64 (fun _ _ => 0) .zero (Vector.replicate 8 1)
      ((List.range (2 ^ 28)).map .numbered) := by
  rintro ⟨a, hpack, -⟩
  obtain ⟨b, hwalk, -⟩ := bind_eq_ok.mp hpack
  have hlen := length_lt_of_sflowWalkAdapters _ _ _ hwalk
  rw [List.length_map, List.length_map, List.length_range] at hlen
  exact Nat.lt_irrefl _ hlen

end Sflow

import Sflow.C.Buffer
import Sflow.C.Layout

/-!
# The fields of a structure in memory

Where a field of a structure lies, what its bytes are, and which writes leave it
alone.  A field that was given a value holds it (`field_image`), and a field is as
it was if no byte of it has been written (`Place.read_congr`).
-/

namespace Sflow.C

/-- Adjacent bytes. -/
structure Place where
  off : Nat
  size : Nat
deriving DecidableEq, Repr

namespace Place

/-- The byte `i` is one of them. -/
def Holds (pl : Place) (i : Nat) : Prop := pl.off ≤ i ∧ i < pl.off + pl.size

instance (pl : Place) (i : Nat) : Decidable (pl.Holds i) :=
  inferInstanceAs (Decidable (_ ∧ _))

def read (pl : Place) (image : List UInt8) : List UInt8 := (image.drop pl.off).take pl.size

theorem getElem?_read (pl : Place) (image : List UInt8) (i : Nat) :
    (pl.read image)[i]? = if i < pl.size then image[pl.off + i]? else none := by
  rw [read, List.getElem?_take, List.getElem?_drop]

/-- Only the bytes of a place matter to what is read there. -/
theorem read_congr {pl : Place} {image image' : List UInt8}
    (h : ∀ i, pl.Holds i → image[i]? = image'[i]?) : pl.read image = pl.read image' := by
  apply List.ext_getElem?
  intro i
  rw [getElem?_read, getElem?_read]
  split
  · next hi => exact h _ ⟨Nat.le_add_right _ _, Nat.add_lt_add_left hi _⟩
  · rfl

theorem read_append {pre v post : List UInt8} :
    Place.read ⟨pre.length, v.length⟩ (pre ++ (v ++ post)) = v := by
  rw [read, List.drop_left, List.take_left]

end Place

/-- What lies between two parts is replaced. -/
theorem splice_append {pre v v' post : List UInt8} (h : v'.length = v.length) :
    splice (pre ++ (v ++ post)) pre.length v' = pre ++ (v' ++ post) := by
  rw [splice, List.take_left, h, ← List.drop_drop, List.drop_left, List.drop_left,
    List.append_assoc]

/-- A write into a part. -/
theorem splice_part {pre v post src : List UInt8} {off : Nat} (h : off + src.length ≤ v.length) :
    splice (pre ++ (v ++ post)) (pre.length + off) src = pre ++ (splice v off src ++ post) := by
  have htake : (v ++ post).take off = v.take off := List.take_append_of_le_length (by omega)
  have hdrop : (v ++ post).drop (off + src.length) = v.drop (off + src.length) ++ post :=
    List.drop_append_of_le_length h
  rw [splice, List.take_length_add_append, htake, Nat.add_assoc, List.drop_length_add_append,
    hdrop, splice]
  simp only [List.append_assoc]

/-- A write into an image leaves the places alone that it does not touch. -/
theorem read_splice {image src : List UInt8} {off : Nat} {pl : Place}
    (hroom : off + src.length ≤ image.length)
    (h : ∀ i, off ≤ i → i < off + src.length → ¬ pl.Holds i) :
    pl.read (splice image off src) = pl.read image := by
  refine Place.read_congr fun i hi ↦ ?_
  rw [getElem?_splice hroom]
  split
  · next hsrc => exact absurd hi (h i hsrc.1 hsrc.2)
  · rfl

theorem Buf.memcpy_eq_ok {b b' : Buf} {src : List UInt8} {off : Nat} :
    b.memcpy off src = .ok b' ↔ off + src.length ≤ b.data.length ∧
      b' = ⟨splice b.data off src, b.writes ++ [(off, src.length)]⟩ := by
  rw [Buf.memcpy]
  split
  · next hroom => rw [Except.ok.injEq, eq_comm, and_iff_right hroom]
  · next hroom =>
      constructor
      · intro h
        cases h
      · rintro ⟨h, -⟩
        exact absurd h hroom

theorem Buf.length_memcpy {b b' : Buf} {src : List UInt8} {off : Nat}
    (hcopy : b.memcpy off src = .ok b') : b'.data.length = b.data.length := by
  obtain ⟨hroom, rfl⟩ := Buf.memcpy_eq_ok.mp hcopy
  exact length_splice hroom

theorem Buf.read_memcpy {b b' : Buf} {src : List UInt8} {off : Nat} {pl : Place}
    (hcopy : b.memcpy off src = .ok b') (h : ∀ i, off ≤ i → i < off + src.length → ¬ pl.Holds i) :
    pl.read b'.data = pl.read b.data := by
  obtain ⟨hroom, rfl⟩ := Buf.memcpy_eq_ok.mp hcopy
  exact read_splice hroom h

/-- All writes into a buffer have been made in these places. -/
def Buf.WritesIn (b : Buf) (places : List Place) : Prop :=
  ∀ w ∈ b.writes, ∀ i, w.1 ≤ i → i < w.1 + w.2 → ∃ pl ∈ places, pl.Holds i

namespace StructDecl

variable (abi : Abi)

/-- The place of the first field of that name, the fields being placed from `off` on. -/
def placeFrom (d : StructDecl) : Nat → List (String × CType) → String → Option Place
  | _, [], _ => none
  | off, (name', t) :: fs, name =>
      if name' = name then some ⟨alignUp off (d.fieldAlign abi t), t.size abi⟩
      else d.placeFrom (alignUp off (d.fieldAlign abi t) + t.size abi) fs name

def place (d : StructDecl) (name : String) : Option Place := d.placeFrom abi 0 d.fields name

/-- The bytes of a field. -/
def field (d : StructDecl) (image : List UInt8) (name : String) : List UInt8 :=
  match d.place abi name with
  | some pl => pl.read image
  | none => []

theorem placeFrom_append (d : StructDecl) (off : Nat) {fs : List (String × CType)}
    (gs : List (String × CType)) {name : String} {t : CType} (h : name ∉ fs.map Prod.fst) :
    d.placeFrom abi off (fs ++ (name, t) :: gs) name =
      some ⟨alignUp (d.endFrom abi off fs) (d.fieldAlign abi t), t.size abi⟩ := by
  induction fs generalizing off with
  | nil => exact if_pos rfl
  | cons f fs ih =>
      rw [List.map_cons, List.mem_cons, not_or] at h
      rw [List.cons_append, placeFrom, if_neg (Ne.symm h.1)]
      exact ih _ h.2

/-- In a packed structure a field lies right behind those in front of it. -/
theorem place_of_packed {d : StructDecl} (hd : d.packed = true)
    (hnames : (d.fields.map Prod.fst).Nodup) {i : Nat} {name : String} {t : CType}
    (hf : d.fields[i]? = some (name, t)) :
    d.place abi name = some ⟨((d.fields.take i).map (·.2.size abi)).sum, t.size abi⟩ := by
  obtain ⟨hi, hget⟩ := List.getElem?_eq_some_iff.mp hf
  have hfields : d.fields = d.fields.take i ++ (name, t) :: d.fields.drop (i + 1) := by
    rw [← hget, ← List.drop_eq_getElem_cons hi, List.take_append_drop]
  have hfresh : name ∉ (d.fields.take i).map Prod.fst := by
    rw [hfields, List.map_append, List.map_cons, List.nodup_append] at hnames
    intro hmem
    exact hnames.2.2 name hmem name List.mem_cons_self rfl
  have hone : d.fieldAlign abi t = 1 := by rw [fieldAlign, hd, if_pos rfl]
  have hplace := placeFrom_append abi d 0 (d.fields.drop (i + 1)) (t := t) hfresh
  rw [← hfields, endFrom_of_packed abi hd, hone, alignUp_one, Nat.zero_add] at hplace
  exact hplace

/-- The fields in front of a field and behind it. -/
theorem fields_split {fs : List (String × CType)} {vals : List (List UInt8)} {i : Nat}
    {f : String × CType} {v : List UInt8} (hfits : Fits abi fs vals) (hf : fs[i]? = some f)
    (hv : vals[i]? = some v) :
    ∃ front back us ws, fs = front ++ f :: back ∧ vals = us ++ v :: ws ∧
      Fits abi front us ∧ v.length = f.2.size abi := by
  induction hfits generalizing i with
  | nil => cases hf
  | @cons f' v' fs vals hlen hrest ih =>
      cases i with
      | zero =>
          cases hf
          cases hv
          exact ⟨[], fs, [], vals, rfl, rfl, .nil, hlen⟩
      | succ i =>
          obtain ⟨front, back, us, ws, rfl, rfl, hfront, hsize⟩ := ih hf hv
          exact ⟨f' :: front, back, v' :: us, ws, rfl, rfl, .cons hlen hfront, hsize⟩

/-- A field holds the value that it was given. -/
theorem field_image {d : StructDecl} {vals : List (List UInt8)} (hfits : Fits abi d.fields vals)
    (hnames : (d.fields.map Prod.fst).Nodup) {i : Nat} {name : String} {t : CType}
    {v : List UInt8} (hf : d.fields[i]? = some (name, t)) (hv : vals[i]? = some v) :
    d.field abi (d.image abi vals) name = v := by
  obtain ⟨front, back, us, ws, hfields, rfl, hfront, hsize⟩ := fields_split abi hfits hf hv
  have hfresh : name ∉ front.map Prod.fst := by
    rw [hfields, List.map_append, List.map_cons, List.nodup_append] at hnames
    intro hmem
    exact hnames.2.2 name hmem name List.mem_cons_self rfl
  have hplace : d.place abi name =
      some ⟨alignUp (d.endFrom abi 0 front) (d.fieldAlign abi t), t.size abi⟩ := by
    rw [place, hfields]
    exact placeFrom_append abi d 0 back hfresh
  have hend := length_imageFrom abi d 0 hfront
  have hup := le_alignUp (d.endFrom abi 0 front) (d.fieldAlign_pos abi t)
  rw [Nat.zero_add] at hend
  -- the image in front of the field, with the padding that leads up to it
  let pre := d.imageFrom abi 0 front us ++
    List.replicate (alignUp (d.endFrom abi 0 front) (d.fieldAlign abi t) -
      d.endFrom abi 0 front) 0
  have hpre : pre.length = alignUp (d.endFrom abi 0 front) (d.fieldAlign abi t) := by
    simp only [pre, List.length_append, List.length_replicate]
    omega
  have himage : ∃ post, d.image abi (us ++ v :: ws) = pre ++ (v ++ post) := by
    rw [image, hfields, imageFrom_append abi d 0 hfront, imageFrom]
    simp only [pre, List.append_assoc]
    exact ⟨_, rfl⟩
  obtain ⟨post, himage⟩ := himage
  rw [field, hplace, himage, ← hpre, ← hsize]
  exact Place.read_append

end StructDecl

end Sflow.C

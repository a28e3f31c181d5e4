import Mathlib.Algebra.GroupWithZero.Nat
import Mathlib.Data.List.Basic

/-!
# Structure layout

How a C compiler places the fields of a structure.  A packed structure has its
fields back to back; otherwise each field is moved up to a multiple of its own
alignment and the whole is padded to a multiple of the largest one.  What varies
between machines is the size of a pointer and the alignment of a 64-bit integer:
that is an `Abi`.
-/

namespace Sflow.C

/-- The two facts about a machine that decide its layouts. -/
structure Abi where
  /-- `sizeof (void *)`. -/
  psize : Nat
  /-- The alignment of a 64-bit integer outside packed structures. -/
  hyperAlign : Nat
  psize_eq : psize = 4 ∨ psize = 8
  hyperAlign_eq : hyperAlign = 4 ∨ hyperAlign = 8

/-- The field types a layout distinguishes.  Enumerations and `float` are words. -/
inductive CType where
  | word
  | hyper
  | chars (n : Nat)
  | pointer
deriving DecidableEq, Repr

namespace CType

def size (abi : Abi) : CType → Nat
  | word => 4
  | hyper => 8
  | chars n => n
  | pointer => abi.psize

def align (abi : Abi) : CType → Nat
  | word => 4
  | hyper => abi.hyperAlign
  | chars _ => 1
  | pointer => abi.psize

theorem align_pos (abi : Abi) (t : CType) : 0 < t.align abi := by
  have hp := abi.psize_eq
  have hh := abi.hyperAlign_eq
  cases t <;> simp only [align] <;> omega

theorem align_le (abi : Abi) (t : CType) : t.align abi ≤ 8 := by
  have hp := abi.psize_eq
  have hh := abi.hyperAlign_eq
  cases t <;> simp only [align] <;> omega

end CType

namespace CType

/-- A type that takes whole words. -/
def whole : CType → Bool
  | chars n => n % 4 = 0
  | _ => true

theorem four_dvd_psize (abi : Abi) : 4 ∣ abi.psize := by
  obtain h | h := abi.psize_eq <;> rw [h] <;> decide

theorem four_dvd_hyperAlign (abi : Abi) : 4 ∣ abi.hyperAlign := by
  obtain h | h := abi.hyperAlign_eq <;> rw [h] <;> decide

theorem four_dvd_size (abi : Abi) {t : CType} (h : t.whole = true) : 4 ∣ t.size abi := by
  cases t with
  | word => exact Nat.dvd_refl 4
  | hyper => exact ⟨2, rfl⟩
  | chars n => exact Nat.dvd_of_mod_eq_zero (of_decide_eq_true h)
  | pointer => exact four_dvd_psize abi

theorem align_eq_one_or_dvd (abi : Abi) (t : CType) : t.align abi = 1 ∨ 4 ∣ t.align abi := by
  cases t with
  | word => exact .inr (Nat.dvd_refl 4)
  | hyper => exact .inr (four_dvd_hyperAlign abi)
  | chars n => exact .inl rfl
  | pointer => exact .inr (four_dvd_psize abi)

end CType

/-- A structure declaration: its field types under their names, in order. -/
structure StructDecl where
  packed : Bool
  fields : List (String × CType)

/-- The least multiple of `a` not below `n`. -/
def alignUp (n a : Nat) : Nat := (n + a - 1) / a * a

theorem le_alignUp (n : Nat) {a : Nat} (h : 0 < a) : n ≤ alignUp n a := by
  have hlt := Nat.lt_div_mul_add (a := n + a - 1) h
  rw [alignUp]
  omega

theorem alignUp_lt (n : Nat) {a : Nat} (h : 0 < a) : alignUp n a < n + a := by
  have hle := Nat.div_mul_le_self (n + a - 1) a
  rw [alignUp]
  omega

@[simp] theorem alignUp_one (n : Nat) : alignUp n 1 = n := by simp [alignUp]

theorem four_dvd_alignUp {n a : Nat} (hn : 4 ∣ n) (ha : a = 1 ∨ 4 ∣ a) : 4 ∣ alignUp n a := by
  obtain rfl | ha := ha
  · rwa [alignUp_one]
  · exact Nat.dvd_trans ha (Nat.dvd_mul_left _ _)

namespace StructDecl

variable (abi : Abi)

/-- The alignment a field gets in this structure. -/
def fieldAlign (d : StructDecl) (t : CType) : Nat := if d.packed then 1 else t.align abi

theorem fieldAlign_pos (d : StructDecl) (t : CType) : 0 < d.fieldAlign abi t := by
  unfold fieldAlign
  split
  · exact Nat.one_pos
  · exact t.align_pos abi

theorem fieldAlign_le (d : StructDecl) (t : CType) : d.fieldAlign abi t ≤ 8 := by
  unfold fieldAlign
  split
  · decide
  · exact t.align_le abi

/-- Where the last of the fields ends, the first being placed at or behind `off`. -/
def endFrom (d : StructDecl) : Nat → List (String × CType) → Nat
  | off, [] => off
  | off, (_, t) :: fs => d.endFrom (alignUp off (d.fieldAlign abi t) + t.size abi) fs

/-- The alignment of the structure itself. -/
def structAlign (d : StructDecl) : Nat :=
  d.fields.foldl (fun a f => max a (d.fieldAlign abi f.2)) 1

/-- `sizeof`. -/
def sizeof (d : StructDecl) : Nat := alignUp (d.endFrom abi 0 d.fields) (d.structAlign abi)

theorem endFrom_of_packed {d : StructDecl} (h : d.packed = true) (off : Nat)
    (fs : List (String × CType)) :
    d.endFrom abi off fs = off + (fs.map (·.2.size abi)).sum := by
  induction fs generalizing off with
  | nil => rfl
  | cons f fs ih =>
      have ha : d.fieldAlign abi f.2 = 1 := by simp [fieldAlign, h]
      simp only [endFrom, ha, alignUp_one, ih, List.map_cons, List.sum_cons, Nat.add_assoc]

/-- The fields of a packed structure are all there is to it. -/
theorem sizeof_of_packed {d : StructDecl} (h : d.packed = true) :
    d.sizeof abi = (d.fields.map (·.2.size abi)).sum := by
  have ha : d.structAlign abi = 1 := by
    have key : ∀ fs : List (String × CType),
        fs.foldl (fun a f => max a (d.fieldAlign abi f.2)) 1 = 1 := by
      intro fs
      induction fs with
      | nil => rfl
      | cons f fs ih => simpa [fieldAlign, h] using ih
    exact key d.fields
  rw [sizeof, ha, alignUp_one, endFrom_of_packed abi h, Nat.zero_add]

/-- The image from offset `off` on of fields that hold `vals`, their padding zero. -/
def imageFrom (d : StructDecl) : Nat → List (String × CType) → List (List UInt8) → List UInt8
  | _, [], _ => []
  | _, _ :: _, [] => []
  | off, (_, t) :: fs, v :: vs =>
      List.replicate (alignUp off (d.fieldAlign abi t) - off) 0 ++ v ++
        d.imageFrom (alignUp off (d.fieldAlign abi t) + t.size abi) fs vs

/-- The image of a zeroed structure once its fields hold `vals`. -/
def image (d : StructDecl) (vals : List (List UInt8)) : List UInt8 :=
  d.imageFrom abi 0 d.fields vals ++
    List.replicate (d.sizeof abi - d.endFrom abi 0 d.fields) 0

/-- `vals` gives every field a value of its own size. -/
def Fits (fs : List (String × CType)) (vals : List (List UInt8)) : Prop :=
  List.Forall₂ (fun f v => v.length = f.2.size abi) fs vals

theorem fits_of_lengths {fs : List (String × CType)} {vals : List (List UInt8)}
    (h : vals.map List.length = fs.map (·.2.size abi)) : Fits abi fs vals := by
  induction fs generalizing vals with
  | nil =>
      obtain rfl := List.map_eq_nil_iff.mp h
      exact .nil
  | cons f fs ih =>
      cases vals with
      | nil => cases h
      | cons v vs =>
          rw [List.map_cons, List.map_cons, List.cons.injEq] at h
          exact .cons h.1 (ih h.2)

theorem length_imageFrom (d : StructDecl) (off : Nat) {fs : List (String × CType)}
    {vals : List (List UInt8)} (h : Fits abi fs vals) :
    off + (d.imageFrom abi off fs vals).length = d.endFrom abi off fs := by
  induction h generalizing off with
  | nil => rfl
  | @cons f v fs vs hv _ ih =>
      have hup := le_alignUp off (d.fieldAlign_pos abi f.2)
      have htail := ih (alignUp off (d.fieldAlign abi f.2) + f.2.size abi)
      simp only [imageFrom, endFrom, List.length_append, List.length_replicate, hv]
      omega

theorem structAlign_pos (d : StructDecl) : 0 < d.structAlign abi := by
  have key : ∀ (fs : List (String × CType)) (a : Nat), 0 < a →
      0 < fs.foldl (fun a f => max a (d.fieldAlign abi f.2)) a := by
    intro fs
    induction fs with
    | nil => exact fun _ ha ↦ ha
    | cons f fs ih => exact fun a ha ↦ ih _ (Nat.lt_of_lt_of_le ha (Nat.le_max_left _ _))
  exact key d.fields 1 Nat.one_pos

theorem structAlign_le (d : StructDecl) : d.structAlign abi ≤ 8 := by
  have key : ∀ (fs : List (String × CType)) (a : Nat), a ≤ 8 →
      fs.foldl (fun a f => max a (d.fieldAlign abi f.2)) a ≤ 8 := by
    intro fs
    induction fs with
    | nil => exact fun _ ha ↦ ha
    | cons f fs ih => exact fun a ha ↦ ih _ (Nat.max_le.mpr ⟨ha, d.fieldAlign_le abi f.2⟩)
  exact key d.fields 1 (by decide)

theorem endFrom_le (d : StructDecl) (off : Nat) (fs : List (String × CType)) :
    d.endFrom abi off fs ≤ off + (fs.map fun f => 8 + f.2.size abi).sum := by
  induction fs generalizing off with
  | nil => exact Nat.le_refl off
  | cons f fs ih =>
      have hpos := d.fieldAlign_pos abi f.2
      have hle := d.fieldAlign_le abi f.2
      have hup := alignUp_lt off hpos
      have htail := ih (alignUp off (d.fieldAlign abi f.2) + f.2.size abi)
      simp only [endFrom, List.map_cons, List.sum_cons]
      omega

/-- A bound that leaves eight bytes of padding to each field and to the whole. -/
theorem sizeof_le (d : StructDecl) :
    d.sizeof abi ≤ 8 + (d.fields.map fun f => 8 + f.2.size abi).sum := by
  have hend := d.endFrom_le abi 0 d.fields
  have hle := d.structAlign_le abi
  have hup := alignUp_lt (d.endFrom abi 0 d.fields) (d.structAlign_pos abi)
  rw [sizeof]
  omega

theorem fieldAlign_eq_one_or_dvd (d : StructDecl) (t : CType) :
    d.fieldAlign abi t = 1 ∨ 4 ∣ d.fieldAlign abi t := by
  unfold fieldAlign
  split
  · exact .inl rfl
  · exact t.align_eq_one_or_dvd abi

theorem structAlign_eq_one_or_dvd (d : StructDecl) :
    d.structAlign abi = 1 ∨ 4 ∣ d.structAlign abi := by
  have key : ∀ (fs : List (String × CType)) (a : Nat), a = 1 ∨ 4 ∣ a →
      let a' := fs.foldl (fun a f => max a (d.fieldAlign abi f.2)) a
      a' = 1 ∨ 4 ∣ a' := by
    intro fs
    induction fs with
    | nil => exact fun _ ha ↦ ha
    | cons f fs ih =>
        intro a ha
        apply ih
        dsimp only
        obtain h | h := Nat.le_total a (d.fieldAlign abi f.2)
        · rw [Nat.max_eq_right h]
          exact d.fieldAlign_eq_one_or_dvd abi f.2
        · rw [Nat.max_eq_left h]
          exact ha
  exact key d.fields 1 (.inl rfl)

theorem four_dvd_endFrom (d : StructDecl) {off : Nat} (hoff : 4 ∣ off)
    {fs : List (String × CType)} (h : ∀ f ∈ fs, f.2.whole = true) : 4 ∣ d.endFrom abi off fs := by
  induction fs generalizing off with
  | nil => exact hoff
  | cons f fs ih =>
      refine ih ?_ fun f hf ↦ h f (List.mem_cons_of_mem _ hf)
      exact Nat.dvd_add (four_dvd_alignUp hoff (d.fieldAlign_eq_one_or_dvd abi f.2))
        (CType.four_dvd_size abi (h f List.mem_cons_self))

/-- A structure of whole words takes whole words. -/
theorem four_dvd_sizeof {d : StructDecl} (h : ∀ f ∈ d.fields, f.2.whole = true) :
    4 ∣ d.sizeof abi :=
  four_dvd_alignUp (d.four_dvd_endFrom abi (Nat.dvd_zero 4) h) (d.structAlign_eq_one_or_dvd abi)

/-- An image is as long as `sizeof` says. -/
theorem length_image (d : StructDecl) {vals : List (List UInt8)}
    (h : Fits abi d.fields vals) : (d.image abi vals).length = d.sizeof abi := by
  have hbody := length_imageFrom abi d 0 h
  have hup : d.endFrom abi 0 d.fields ≤ d.sizeof abi := le_alignUp _ (d.structAlign_pos abi)
  rw [image, List.length_append, List.length_replicate]
  omega

/-! ## Reading an image -/

theorem endFrom_append (d : StructDecl) (off : Nat) (fs gs : List (String × CType)) :
    d.endFrom abi off (fs ++ gs) = d.endFrom abi (d.endFrom abi off fs) gs := by
  induction fs generalizing off with
  | nil => rfl
  | cons f fs ih => exact ih _

theorem imageFrom_append (d : StructDecl) (off : Nat) {fs gs : List (String × CType)}
    {us vs : List (List UInt8)} (h : Fits abi fs us) :
    d.imageFrom abi off (fs ++ gs) (us ++ vs) =
      d.imageFrom abi off fs us ++ d.imageFrom abi (d.endFrom abi off fs) gs vs := by
  induction h generalizing off with
  | nil => rfl
  | @cons f u fs us _ _ ih =>
      simp only [List.cons_append, imageFrom, ih, List.append_assoc, endFrom]

/-- The values of the fields are read off an image. -/
theorem imageFrom_injective (d : StructDecl) (off : Nat) {fs : List (String × CType)}
    {us vs : List (List UInt8)} (hu : Fits abi fs us) (hv : Fits abi fs vs)
    (h : d.imageFrom abi off fs us = d.imageFrom abi off fs vs) : us = vs := by
  induction hu generalizing off vs with
  | nil =>
      cases hv
      rfl
  | @cons f u fs us hlen _ ih =>
      cases hv with
      | @cons _ v _ vs hlen' hvs =>
          have hhead := List.append_inj_left h (by
            simp only [List.length_append, List.length_replicate, hlen, hlen'])
          have htail := List.append_inj_right h (by
            simp only [List.length_append, List.length_replicate, hlen, hlen'])
          rw [List.append_cancel_left hhead, ih _ hvs htail]

section Last

variable {d : StructDecl} {f : String × CType} (hf : d.fields.getLast? = some f)
include hf

theorem fields_eq : d.fields = d.fields.dropLast ++ [f] :=
  (List.dropLast_append_getLast? f hf).symm

/-- The size of a packed structure by its fields but the last. -/
theorem sizeof_eq_add {n : Nat} (hd : d.packed = true)
    (hn : (d.fields.dropLast.map (·.2.size abi)).sum = n) : d.sizeof abi = n + f.2.size abi := by
  rw [sizeof_of_packed abi hd, fields_eq hf, List.map_append, List.sum_append, hn]
  rfl

/-- All fields but the last lie in front of the last one's worth of bytes. -/
theorem endFrom_le_sizeof_sub :
    d.endFrom abi 0 d.fields.dropLast ≤ d.sizeof abi - f.2.size abi := by
  have hup := le_alignUp (d.endFrom abi 0 d.fields.dropLast) (d.fieldAlign_pos abi f.2)
  have hend : d.endFrom abi 0 d.fields ≤ d.sizeof abi := le_alignUp _ (d.structAlign_pos abi)
  rw [fields_eq hf, endFrom_append] at hend
  simp only [endFrom] at hend
  omega

/-- So they are read off an image that misses as many bytes. -/
theorem take_image_injective {us us' : List (List UInt8)} {v v' : List UInt8}
    (hu : Fits abi d.fields.dropLast us) (hu' : Fits abi d.fields.dropLast us')
    (h : (d.image abi (us ++ [v])).take (d.sizeof abi - f.2.size abi) =
      (d.image abi (us' ++ [v'])).take (d.sizeof abi - f.2.size abi)) : us = us' := by
  have hfront : ∀ {us : List (List UInt8)} {v : List UInt8}, Fits abi d.fields.dropLast us →
      ((d.image abi (us ++ [v])).take (d.sizeof abi - f.2.size abi)).take
        (d.endFrom abi 0 d.fields.dropLast) = d.imageFrom abi 0 d.fields.dropLast us := by
    intro us v hus
    have hlen := length_imageFrom abi d 0 hus
    have himage : d.imageFrom abi 0 d.fields (us ++ [v]) =
        d.imageFrom abi 0 d.fields.dropLast us ++
          d.imageFrom abi (d.endFrom abi 0 d.fields.dropLast) [f] [v] := by
      rw [← imageFrom_append abi d 0 hus, ← fields_eq hf]
    rw [Nat.zero_add] at hlen
    rw [List.take_take, Nat.min_eq_left (endFrom_le_sizeof_sub abi hf), image, himage,
      List.append_assoc, ← hlen, List.take_left]
  exact imageFrom_injective abi d 0 hu hu' (by rw [← hfront hu, h, hfront hu'])

end Last

end StructDecl

end Sflow.C

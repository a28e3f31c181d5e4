import Sflow.C.Decode
import Sflow.C.Layout

/-!
# Fields read back

What a program on another machine makes of a structure that was sent to it: it reads the
fields by the types that they are declared with, each in network order and right behind the
one before.  `reads_fields` says that it reads the values that were put there, so all that
is left to ask of a layout is whether there is anything between two fields.
-/

namespace Sflow.C

/-! ## Values -/

/-- What a field holds. -/
inductive FieldValue where
  | word (x : UInt32)
  | hyper (x : UInt64)
  | chars (bs : List UInt8)
deriving DecidableEq, Repr

namespace FieldValue

/-- The type of a field that holds this value and has no room left. -/
def type : FieldValue → CType
  | word _ => .word
  | hyper _ => .hyper
  | chars bs => .chars bs.length

/-- The bytes of a value in network order. -/
def wire : FieldValue → List UInt8
  | word x => beBytes 4 x.toNat
  | hyper x => beBytes 8 x.toNat
  | chars bs => bs

@[simp] theorem length_wire (abi : Abi) (v : FieldValue) : v.wire.length = v.type.size abi := by
  cases v <;> simp [wire, type, CType.size]

end FieldValue

/-- Values under the names of their fields. -/
abbrev FieldValues := List (String × FieldValue)

namespace FieldValues

/-- The declarations of the fields. -/
def types (vs : FieldValues) : List (String × CType) := vs.map fun v => (v.1, v.2.type)

/-- The bytes of the values, one behind the other. -/
def wire (vs : FieldValues) : List UInt8 := vs.flatMap fun v => v.2.wire

/-- Each value fits its field. -/
theorem fits (abi : Abi) (vs : FieldValues) :
    StructDecl.Fits abi vs.types (vs.map fun v => v.2.wire) := by
  apply StructDecl.fits_of_lengths
  rw [types, List.map_map, List.map_map]
  exact List.map_congr_left fun v _ ↦ v.2.length_wire abi

end FieldValues

/-! ## Reading them -/

namespace Reader

/-- A 64-bit integer in network order. -/
def hyper : Reader UInt64 := (bytes 8).andThen fun bs => ret (UInt64.ofNat (ofBeBytes bs))

/-- A field of this type.  What a pointer points to is not sent. -/
def field : CType → Reader FieldValue
  | .word => word.andThen fun x => ret (.word x)
  | .hyper => hyper.andThen fun x => ret (.hyper x)
  | .chars n => (bytes n).andThen fun bs => ret (.chars bs)
  | .pointer => fail

/-- The fields of a declaration in order. -/
def fields : List (String × CType) → Reader FieldValues
  | [] => ret []
  | (name, t) :: fs => (field t).andThen fun v => (fields fs).andThen fun vs =>
      ret ((name, v) :: vs)

end Reader

open Reader

theorem reads_hyper (x : UInt64) : Reads hyper (beBytes 8 x.toNat) x := by
  have hb : Reads (Reader.bytes 8) (beBytes 8 x.toNat) (beBytes 8 x.toNat) := by
    simpa using reads_bytes (beBytes 8 x.toNat)
  have hlt : x.toNat < 256 ^ 8 := x.toNat_lt
  have hx : UInt64.ofNat (ofBeBytes (beBytes 8 x.toNat)) = x := by
    rw [ofBeBytes_beBytes, Nat.mod_eq_of_lt hlt, UInt64.ofNat_toNat]
  have h := hb.andThen_ret fun bs => UInt64.ofNat (ofBeBytes bs)
  rwa [hx] at h

theorem reads_field (v : FieldValue) : Reads (field v.type) v.wire v := by
  cases v with
  | word x => exact (reads_word x).andThen_ret _
  | hyper x => exact (reads_hyper x).andThen_ret _
  | chars bs => exact (reads_bytes bs).andThen_ret _

/-- By the declarations of some fields, exactly their values are read. -/
theorem reads_fields (vs : FieldValues) : Reads (fields vs.types) vs.wire vs := by
  induction vs with
  | nil => exact reads_ret []
  | cons v vs ih => exact (reads_field v.2).andThen (ih.andThen_ret _)

/-! ## What a result says about the declarations -/

theorem consumes_field (t : CType) : Consumes (field t) fun v _ => v.type = t := by
  cases t with
  | word => exact consumes_word.andThen fun _ _ _ ↦ consumes_ret rfl
  | hyper =>
      have hread : Consumes hyper fun _ _ => True :=
        (consumes_bytes 8).andThen fun _ _ _ ↦ consumes_ret trivial
      exact hread.andThen fun _ _ _ ↦ consumes_ret rfl
  | chars n =>
      exact (consumes_bytes n).andThen fun bs _ h ↦ consumes_ret (congrArg CType.chars h.2)
  | pointer => exact consumes_fail

/-- Whatever is read by some declarations fits them. -/
theorem consumes_fields (fs : List (String × CType)) :
    Consumes (fields fs) fun vs _ => vs.types = fs := by
  induction fs with
  | nil => exact consumes_ret rfl
  | cons f fs ih =>
      refine (consumes_field f.2).andThen fun v _ hv ↦ ih.andThen fun vs _ hvs ↦ consumes_ret ?_
      rw [FieldValues.types, List.map_cons, hv]
      exact congrArg (f :: ·) hvs

end Sflow.C

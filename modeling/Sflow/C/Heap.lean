import Sflow.C.Field
import Sflow.C.Word

/-!
# Memory that grows

A block of memory as a row of parts that lie one behind the other.  A part is read
and replaced where the parts in front of it end, and the others stay what they are.
`realloc` keeps what fits of a block and puts anything at all behind it, so a block
that grows keeps its parts and gets new ones.
-/

namespace Sflow.C

/-- The number whose image a list of bytes is. -/
def ofHostBytes (e : Endian) (bs : List UInt8) : Nat :=
  match e with
  | .little => ofLeBytes bs
  | .big => ofBeBytes bs

theorem ofHostBytes_hostBytes (e : Endian) {k n : Nat} (h : n < 256 ^ k) :
    ofHostBytes e (hostBytes e k n) = n := by
  cases e with
  | little => exact (ofLeBytes_leBytes k n).trans (Nat.mod_eq_of_lt h)
  | big => exact (ofBeBytes_beBytes k n).trans (Nat.mod_eq_of_lt h)

section Parts

variable {parts : List (List UInt8)} {i : Nat} {v v' : List UInt8}

/-- Where a part begins. -/
def partOff (parts : List (List UInt8)) (i : Nat) : Nat := (parts.take i).flatten.length

@[simp] theorem partOff_zero (parts : List (List UInt8)) : partOff parts 0 = 0 := rfl

@[simp] theorem partOff_cons_succ (v : List UInt8) (parts : List (List UInt8)) (i : Nat) :
    partOff (v :: parts) (i + 1) = v.length + partOff parts i := by
  rw [partOff, List.take_succ_cons, List.flatten_cons, List.length_append, partOff]

theorem flatten_split (h : parts[i]? = some v) :
    parts.flatten = (parts.take i).flatten ++ (v ++ (parts.drop (i + 1)).flatten) := by
  obtain ⟨hi, rfl⟩ := List.getElem?_eq_some_iff.mp h
  rw [← List.flatten_cons, ← List.drop_eq_getElem_cons hi, ← List.flatten_append,
    List.take_append_drop]

theorem flatten_set (h : parts[i]? = some v) :
    (parts.set i v').flatten = (parts.take i).flatten ++ (v' ++ (parts.drop (i + 1)).flatten) := by
  obtain ⟨hi, rfl⟩ := List.getElem?_eq_some_iff.mp h
  rw [List.set_eq_take_append_cons_drop, if_pos hi, List.flatten_append, List.flatten_cons]

theorem read_part (h : parts[i]? = some v) :
    Place.read ⟨partOff parts i, v.length⟩ parts.flatten = v := by
  rw [flatten_split h]
  exact Place.read_append

theorem partOff_add_le (h : parts[i]? = some v) :
    partOff parts i + v.length ≤ parts.flatten.length := by
  rw [flatten_split h, partOff, List.length_append, List.length_append]
  omega

end Parts

namespace Buf

variable {b b' : Buf} {parts : List (List UInt8)} {i off : Nat} {v v' : List UInt8}

/-- The bytes at a place within the block. -/
def readAt (b : Buf) (pl : Place) : Except Fault (List UInt8) :=
  if pl.off + pl.size ≤ b.data.length then .ok (pl.read b.data) else .error .outOfBounds

def wordAt (b : Buf) (e : Endian) (off : Nat) : Except Fault UInt32 := do
  let bs ← b.readAt ⟨off, 4⟩
  return UInt32.ofNat (ofHostBytes e bs)

/-- `realloc(b, n)`: what is new holds `fresh`, and nothing has been written into it. -/
def realloc (b : Buf) (n : Nat) (fresh : Nat → UInt8) : Buf :=
  ⟨b.data.take n ++ (List.range (n - b.data.length)).map fresh, []⟩

theorem readAt_part (hb : b.data = parts.flatten) (h : parts[i]? = some v)
    (hoff : off = partOff parts i) : b.readAt ⟨off, v.length⟩ = .ok v := by
  subst hoff
  rw [readAt, hb, if_pos (partOff_add_le h), read_part h]

theorem wordAt_part {e : Endian} {x : UInt32} (hb : b.data = parts.flatten)
    (h : parts[i]? = some (wordBytes e x)) (hoff : off = partOff parts i) :
    b.wordAt e off = .ok x := by
  have hread := readAt_part hb h hoff
  rw [wordBytes_length] at hread
  have hx : ofHostBytes e (wordBytes e x) = x.toNat := ofHostBytes_hostBytes e x.toNat_lt
  rw [wordAt, hread, ok_bind, hx, UInt32.ofNat_toNat, pure_eq_ok]

/-- Words are read within the block. -/
theorem exists_wordAt (e : Endian) (h : off + 4 ≤ b.data.length) :
    ∃ x, b.wordAt e off = .ok x := by
  rw [wordAt, readAt, if_pos h]
  exact ⟨_, rfl⟩

/-- A part is replaced by one of its length. -/
theorem memcpy_part (off : Nat) (v' : List UInt8) (hb : b.data = parts.flatten)
    (h : parts[i]? = some v) (hoff : off = partOff parts i) (hlen : v'.length = v.length) :
    ∃ b', b.memcpy off v' = .ok b' ∧ b'.data = (parts.set i v').flatten := by
  subst hoff
  have hroom := partOff_add_le h
  refine ⟨_, memcpy_eq_ok.mpr ⟨?_, rfl⟩, ?_⟩
  · rwa [hb, hlen]
  · rw [hb, flatten_set h, flatten_split h]
    exact splice_append hlen

/-- A block that grows keeps what it held. -/
theorem data_realloc {n : Nat} {fresh : Nat → UInt8} (h : b.data.length ≤ n) :
    (b.realloc n fresh).data = b.data ++ (List.range (n - b.data.length)).map fresh := by
  rw [realloc, List.take_of_length_le h]

theorem length_realloc {n : Nat} {fresh : Nat → UInt8} :
    (b.realloc n fresh).data.length = n := by
  rw [realloc, List.length_append, List.length_take, List.length_map, List.length_range]
  omega

end Buf

end Sflow.C

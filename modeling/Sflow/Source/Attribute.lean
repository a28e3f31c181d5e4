import Sflow.Source.Request
import Sflow.Util

/-!
# Attributes

The properties of a source come as one string of items, `rate=100,interval=20`.  An
attribute is looked up by the front of its item, and its value is blanked out of the
string, which other look-ups of the same request go on to read.
-/

namespace Sflow

open C

/-- `SF_ATTR_LEN`, the size of the buffer for a value. -/
def sfAttrLen : Nat := 32

/-- `strstr(index, ",")`. -/
def commaFrom (prop : List Char) (index : Nat) : Option Nat :=
  ((prop.drop index).idxOf? ',').map (index + ·)

/-- The count of characters from `start` to the comma, or else to the end.  It is a difference
of pointers that is passed on as a `size_t`, so a comma in front of `start` makes it huge. -/
def valueCount (prop : List Char) (stop : Option Nat) (start : Nat) : Nat :=
  let stop := stop.getD prop.length
  if start ≤ stop then stop - start else 2 ^ 64 + stop - start

/-- The loop of `sflow_find_attribute`: where the value of the target starts and how many
characters of it are copied, if there is an item for the target.  The fuel bounds the number
of items. -/
def findValue (target : List Char) : Nat → List Char → Nat → Option (Option (Nat × Nat))
  | 0, _, _ => none
  | fuel + 1, prop, index =>
      let stop := commaFrom prop index
      if startsWith (prop.drop index) target then
        let start := index + target.length
        some (some (start, valueCount prop stop start))
      else
        match stop with
        | none => some none
        | some stop => findValue target fuel prop (stop + 1)

/-- What is copied into the buffer, whatever the size of that, and the string with blanks in
its place. -/
def findAttributeFrom (target : List Char) (fuel : Nat) (prop : List Char) (index : Nat) :
    Option (List Char × List Char) :=
  (findValue target fuel prop index).map fun
    | none => ([], prop)
    | some (start, count) =>
        ((prop.drop start).take count,
          prop.take start ++ List.replicate count ' ' ++ prop.drop (start + count))

/-- The buffer of `sflow_find_attribute`, when the value has been copied into it. -/
def attributeBuf (fuel : Nat) (prop target : List Char) : Option (Except Fault (List Char)) :=
  let buf := List.replicate sfAttrLen '\x00'
  (findValue target fuel prop 0).map fun
    | none => .ok buf
    | some (start, count) => strncpy buf (prop.drop start) count

def sflowFindAttribute (fuel : Nat) (prop target : List Char) : Option (List Char × List Char) := do
  let (buf, prop) ← findAttributeFrom target fuel prop 0
  let prop ← removeSpace fuel prop
  some (buf, prop)

/-- What the callers make of an attribute that is a number.  It is `none` where the value leaves no
room for a NUL in the buffer: what `atoi` is given is no string then, and already where the value
just fills the buffer it is undefined what that reads. -/
def numberAttribute (fuel : Nat) (prop target : List Char) (dft : Int) :
    Option (Int × List Char) := do
  let (buf, prop) ← sflowFindAttribute fuel prop target
  if sfAttrLen ≤ buf.length then none
  else some (if buf = [] then dft else atoi buf, prop)

end Sflow

/-
**The annotation keys that bracket a node.**

A tree of nodes is drawn with one annotation before and one after each node.  Their keys name the
node: `RenderNode(id=1, name='Root')` opens it and `/RenderNode(id=1, name='Root')` closes it.
Other keys are no markers.

Main definitions:

* `PictureTape.NodeMarker` — a side, an identifier and a name;
* `NodeMarker.text` — the key;
* `NodeMarker.parse?` — the marker that a key spells, if it spells one.
-/

import PictureTape.Text.Cut

set_option autoImplicit false
set_option relaxedAutoImplicit false

namespace PictureTape

/-- Which end of a node a marker stands at. -/
inductive Side where
  | opening
  | closing
deriving DecidableEq, Repr

/-- What the key of an annotation says about a node. -/
structure NodeMarker where
  side : Side
  id : UInt64
  name : String
deriving DecidableEq, Repr

namespace NodeMarker

/-! ### Spelling -/

/-- What stands before the identifier. -/
def beforeId : List Char := "RenderNode(id=".toList

/-- What stands between the identifier and the name. -/
def beforeName : List Char := ", name='".toList

/-- What stands behind the name. -/
def afterName : List Char := "')".toList

/-- The slash that a closing marker starts with. -/
def slash : Side → List Char
  | .opening => []
  | .closing => ['/']

/-- The decimal digits of an identifier. -/
def idDigits (id : UInt64) : List Char := Nat.toDigits 10 id.toNat

/-- The characters of the key. -/
def spelling (m : NodeMarker) : List Char :=
  slash m.side ++ beforeId ++ idDigits m.id ++ beforeName ++ m.name.toList ++ afterName

/-- The key of the annotation. -/
def text (m : NodeMarker) : String := String.ofList m.spelling

example : text ⟨.closing, 7, "Root"⟩ = "/RenderNode(id=7, name='Root')" := by decide +kernel

/-! ### Parsing -/

/-- An ASCII digit. -/
def isDigit (c : Char) : Bool := '0' ≤ c && c ≤ '9'

/-- The number that a list of digits spells in base ten. -/
def digitsValue (digits : List Char) : Nat :=
  digits.foldl (fun n c => 10 * n + (c.toNat - '0'.toNat)) 0

/-- The identifier that the digits spell: there is at least one digit, leading zeros are allowed,
and the value fits 64 bits. -/
def parseId? (digits : List Char) : Option UInt64 :=
  if digits ≠ [] ∧ digits.all isDigit = true ∧ digitsValue digits < UInt64.size then
    some (.ofNat (digitsValue digits))
  else none

/-- The side that the first character tells, and the rest of the key. -/
def parseSide : List Char → Side × List Char
  | '/' :: rest => (.closing, rest)
  | rest => (.opening, rest)

/-- The marker that the characters of a key spell. -/
def parseSpelling? (key : List Char) : Option NodeMarker := do
  let (side, rest) := parseSide key
  let rest ← Text.after? beforeId rest
  let rest ← Text.before? afterName rest
  let (digits, name) ← Text.around? beforeName rest
  let id ← parseId? digits
  if name.contains '\'' then none else some ⟨side, id, String.ofList name⟩

/-- The marker that a key spells, if it spells one: a name holds no quote, and the identifier ends
where `beforeName` first occurs. -/
def parse? (key : String) : Option NodeMarker := parseSpelling? key.toList

example : parse? "RenderNode(id=012, name='a, name=b')" = some ⟨.opening, 12, "a, name=b"⟩ := by
  decide +kernel

example : parse? "//RenderNode(id=1, name='a')" = none := by decide +kernel

end NodeMarker

end PictureTape

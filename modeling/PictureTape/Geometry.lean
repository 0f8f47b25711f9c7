/-
**Offsets and rectangles.**

A rectangle is kept as its origin and its size, both as they were given: the size may be negative,
and the far edges are sums that are rounded when they are asked for.

Main definitions:

* `PictureTape.Offset` — a shift of a coordinate space, added componentwise;
* `PictureTape.Rect` — a rectangle; `Rect.right`, `Rect.bottom` are its far edges;
* `Rect.moved` — the rectangle shifted by an offset;
* `Offset.agrees`, `Rect.agrees` — equality as numbers.
-/

import PictureTape.Binary32.Text

set_option autoImplicit false
set_option relaxedAutoImplicit false

namespace PictureTape

/-! ### Offsets -/

/-- A shift of a coordinate space. -/
structure Offset where
  x : Binary32
  y : Binary32
deriving DecidableEq, Inhabited, Repr

namespace Offset

/-- No shift at all. -/
def zero : Offset := ⟨0, 0⟩

instance : Add Offset := ⟨fun a b => ⟨a.x + b.x, a.y + b.y⟩⟩

/-- Equal as numbers. -/
def agrees (a b : Offset) : Bool := a.x.agrees b.x && a.y.agrees b.y

/-- Are both components finite? -/
def isFinite (a : Offset) : Bool := a.x.isFinite && a.y.isFinite

end Offset

/-! ### Rectangles -/

/-- A rectangle, given by its origin and its size. -/
structure Rect where
  x : Binary32
  y : Binary32
  width : Binary32
  height : Binary32
deriving DecidableEq, Inhabited, Repr

namespace Rect

/-- The edge opposite to `x`. -/
def right (r : Rect) : Binary32 := r.x + r.width

/-- The edge opposite to `y`. -/
def bottom (r : Rect) : Binary32 := r.y + r.height

/-- The rectangle shifted by an offset. -/
def moved (r : Rect) (v : Offset) : Rect := ⟨r.x + v.x, r.y + v.y, r.width, r.height⟩

/-- Equal as numbers. -/
def agrees (a b : Rect) : Bool :=
  a.x.agrees b.x && a.y.agrees b.y && a.width.agrees b.width && a.height.agrees b.height

/-- Are origin and size finite? -/
def isFinite (r : Rect) : Bool :=
  r.x.isFinite && r.y.isFinite && r.width.isFinite && r.height.isFinite

/-- The four edges, as a command shows them. -/
def edgesText (r : Rect) : String :=
  "[" ++ r.x.text .plain ++ ", " ++ r.y.text .plain ++ ", " ++
    r.right.text .plain ++ ", " ++ r.bottom.text .plain ++ "]"

/-- Size and origin, as the journal shows the bounds of a recording. -/
def boundsText (r : Rect) : String :=
  "Rect(" ++ r.width.text .pointed ++ "x" ++ r.height.text .pointed ++
    " at (" ++ r.x.text .pointed ++ ", " ++ r.y.text .pointed ++ "))"

example : edgesText ⟨1, 2, 3, 4⟩ = "[1, 2, 4, 6]" := by decide +kernel

example : boundsText ⟨1, 2, 3, 4⟩ = "Rect(3.0x4.0 at (1.0, 2.0))" := by decide +kernel

end Rect

end PictureTape

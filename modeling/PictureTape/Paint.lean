/-
**Paints.**

Main definitions:

* `PictureTape.PaintStyle` — which parts of a shape a paint covers, and the byte it is stored as;
* `PictureTape.Paint` — how a shape is drawn;
* `Paint.fill`, `Paint.withColor` — a solid fill, and a paint in another color;
* `Paint.agrees` — equality, with numbers compared as numbers: a paint whose stroke width is a NaN
  does not agree with itself.
-/

import PictureTape.Color

set_option autoImplicit false
set_option relaxedAutoImplicit false

namespace PictureTape

/-- Which parts of a shape a paint covers. -/
inductive PaintStyle where
  | fill
  | stroke
  | strokeAndFill
deriving DecidableEq, Inhabited, Repr

namespace PaintStyle

/-- The byte that a style is stored as. -/
def toByte : PaintStyle → UInt8
  | fill => 0
  | stroke => 1
  | strokeAndFill => 2

/-- The style that a byte stands for. -/
def ofByte? (n : UInt8) : Option PaintStyle :=
  if n = 0 then some fill else if n = 1 then some stroke else if n = 2 then some strokeAndFill
  else none

@[simp] theorem ofByte?_toByte (style : PaintStyle) : ofByte? style.toByte = some style := by
  cases style <;> rfl

end PaintStyle

/-- How a shape is drawn. -/
structure Paint where
  color : Color
  style : PaintStyle
  /-- Are edges smoothed? -/
  antiAlias : Bool
  /-- The width of stroked lines; zero is the thinnest line there is. -/
  strokeWidth : Binary32
deriving DecidableEq, Repr

namespace Paint

/-- An opaque black fill with hard edges. -/
def plain : Paint := ⟨.black, .fill, false, 0⟩

instance : Inhabited Paint := ⟨plain⟩

/-- A solid fill with smooth edges. -/
def fill (color : Color) : Paint := { plain with color, antiAlias := true }

/-- The paint in another color. -/
def withColor (p : Paint) (color : Color) : Paint := { p with color }

@[simp] theorem strokeWidth_withColor (p : Paint) (c : Color) :
    (p.withColor c).strokeWidth = p.strokeWidth := rfl

/-- Equality, with numbers compared as numbers. -/
def agrees (p q : Paint) : Bool :=
  p.color.agrees q.color && p.style == q.style && p.antiAlias == q.antiAlias &&
    p.strokeWidth.agrees q.strokeWidth

end Paint

end PictureTape

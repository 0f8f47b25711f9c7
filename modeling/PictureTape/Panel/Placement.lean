/-
**Where panels end up.**

The origin of a panel is the sum of the offsets on the way to it; the outermost panel stands at the
origin of the surface, whatever its own offset.

Main definitions:

* `PictureTape.Placement` — a face, the panel around it, and its rectangle on the surface;
* `Panel.placements` — the placements of a panel and of all panels inside it, in drawing order.
-/

import PictureTape.Panel.Basic

set_option autoImplicit false
set_option relaxedAutoImplicit false

namespace PictureTape

/-- A panel that has been placed on a surface. -/
structure Placement where
  face : Face
  /-- The identifier of the panel around it. -/
  parent : Option UInt64
  bounds : Rect
deriving DecidableEq, Repr

namespace Panel

mutual

/-- The placements of a panel whose origin is `origin`. -/
def placementsAt (parent : Option UInt64) (origin : Offset) : Panel → List Placement
  | node face children =>
    ⟨face, parent, face.localRect.moved origin⟩ :: placementsInside face.id origin children

/-- The placements of the panels inside the panel `parent`, whose origin is `origin`. -/
def placementsInside (parent : UInt64) (origin : Offset) : List Panel → List Placement
  | [] => []
  | p :: ps =>
    placementsAt (some parent) (origin + p.face.offset) p ++ placementsInside parent origin ps

end

/-- The placements of a panel and of all panels inside it, in drawing order. -/
def placements (p : Panel) : List Placement := p.placementsAt none .zero

end Panel

end PictureTape

/-
**Panels.**

A panel is a filled rectangle with further panels inside it, each placed relative to the one around
it.

Main definitions:

* `PictureTape.Face` — what a panel is without its children;
* `PictureTape.Panel` — a face and children;
* `Face.localRect` — the rectangle of a panel in its own coordinate space;
* `Panel.faces` — the faces of a panel and all panels inside it, from the outside in.
-/

import PictureTape.Geometry
import PictureTape.NodeMarker
import PictureTape.Paint

set_option autoImplicit false
set_option relaxedAutoImplicit false

namespace PictureTape

/-- A panel without its children. -/
structure Face where
  id : UInt64
  name : String
  width : Binary32
  height : Binary32
  /-- From the origin of the panel around it to its own. -/
  offset : Offset
  color : Color
deriving DecidableEq, Inhabited, Repr

namespace Face

/-- The rectangle of the panel in its own coordinate space. -/
def localRect (f : Face) : Rect := ⟨0, 0, f.width, f.height⟩

/-- The marker before the panel, or the one after it. -/
def marker (f : Face) (side : Side) : NodeMarker := ⟨side, f.id, f.name⟩

end Face

/-- A face, and the panels inside it in drawing order. -/
inductive Panel where
  | node (face : Face) (children : List Panel)

namespace Panel

/-- The panel without its children. -/
def face : Panel → Face
  | node face _ => face

/-- The panels inside. -/
def children : Panel → List Panel
  | node _ children => children

mutual

/-- The faces of a panel and of all panels inside it, from the outside in. -/
def faces : Panel → List Face
  | node face children => face :: facesOfAll children

/-- The faces of a row of panels. -/
def facesOfAll : List Panel → List Face
  | [] => []
  | p :: ps => p.faces ++ facesOfAll ps

end

end Panel

end PictureTape

/-
**Drawing panels.**

A panel is drawn between two markers at its own rectangle.  A panel inside another one is filled in
a coordinate space of its own, which is saved before and restored after the panels inside it.

Main definitions:

* `Panel.draw` — draws a panel at the origin of the coordinate space;
* `Panel.drawInside` — draws a panel inside another one;
* `Panel.drawAll` — draws a row of such panels.
-/

import PictureTape.Canvas.Basic
import PictureTape.Panel.Basic

set_option autoImplicit false
set_option relaxedAutoImplicit false

namespace PictureTape

variable {σ : Type}

/-- Puts one of the two markers of a panel at its rectangle. -/
def Face.mark (canvas : Canvas σ) (side : Side) (f : Face) : Action σ Unit :=
  canvas.annotate f.localRect (f.marker side).text none

/-- Fills the rectangle of a panel in its color. -/
def Face.fill (canvas : Canvas σ) (paint : Paint) (f : Face) : Action σ Unit :=
  canvas.drawRect f.localRect (paint.withColor f.color)

namespace Panel

mutual

/-- Draws a panel inside another one: in a coordinate space of its own. -/
def drawInside (canvas : Canvas σ) (paint : Paint) : Panel → Action σ Unit
  | node face children => do
    face.mark canvas .opening
    canvas.save
    canvas.translateBy face.offset
    face.fill canvas paint
    drawAll canvas paint children
    canvas.restore
    face.mark canvas .closing

/-- Draws a row of panels inside another one. -/
def drawAll (canvas : Canvas σ) (paint : Paint) : List Panel → Action σ Unit
  | [] => pure ()
  | p :: ps => do
    drawInside canvas paint p
    drawAll canvas paint ps

end

/-- Draws a panel at the origin of the coordinate space, and the panels inside it. -/
def draw (canvas : Canvas σ) (paint : Paint) (p : Panel) : Action σ Unit := do
  p.face.mark canvas .opening
  p.face.fill canvas paint
  drawAll canvas paint p.children
  p.face.mark canvas .closing

end Panel

end PictureTape

/-
**Surfaces that can be drawn on.**

A canvas is a state machine: five primitive actions and a question.  Two more actions come with
bodies made of the primitive ones, and a canvas may give them bodies of its own.  Handing a canvas
on by reference keeps the primitive actions only: the other two get their usual bodies back.

Main definitions:

* `PictureTape.Canvas` — the actions of a surface with states in `σ`;
* `Canvas.borrowed` — the canvas seen through a reference;
* `Command.perform` — the action that a command stands for.
-/

import PictureTape.Action

set_option autoImplicit false
set_option relaxedAutoImplicit false

namespace PictureTape

/-- The actions that draw on a surface with states in `σ`.  Coordinates are in the current
coordinate space of the surface. -/
structure Canvas (σ : Type) where
  /-- Remember the coordinate space. -/
  save : Action σ Unit
  /-- Go back to the coordinate space remembered last. -/
  restore : Action σ Unit
  /-- Shift the coordinate space. -/
  translate : Binary32 → Binary32 → Action σ Unit
  /-- Fill or outline a rectangle. -/
  drawRect : Rect → Paint → Action σ Unit
  /-- Attach a key, and perhaps a value, to an area. -/
  annotate : Rect → String → Option Bytes → Action σ Unit
  /-- The number of coordinate spaces that are remembered. -/
  openSaves : σ → Nat
  /-- Shift the coordinate space by an offset. -/
  translateBy : Offset → Action σ Unit := fun v => translate v.x v.y
  /-- Draw rectangles with the same paint, up to the first that fails. -/
  drawRects : List Rect → Paint → Action σ Unit := fun rects paint =>
    rects.forM fun rect => drawRect rect paint

namespace Canvas

variable {σ : Type}

/-- The canvas seen through a reference: the primitive actions are handed on, and the other two are
made of them. -/
def borrowed (canvas : Canvas σ) : Canvas σ where
  save := canvas.save
  restore := canvas.restore
  translate := canvas.translate
  drawRect := canvas.drawRect
  annotate := canvas.annotate
  openSaves := canvas.openSaves

end Canvas

/-- The action that a command stands for. -/
def Command.perform {σ : Type} (canvas : Canvas σ) : Command → Action σ Unit
  | .save => canvas.save
  | .restore => canvas.restore
  | .translate v => canvas.translateBy v
  | .drawRect rect paint => canvas.drawRect rect paint
  | .annotate area key value => canvas.annotate area key value

end PictureTape

/-
**Scripts.**

A script is a list of steps on a canvas.  A step that fails does not end the script, and what it did
before it failed stays done.

Main definitions:

* `PictureTape.Step` — a step;
* `Step.perform` — the action it stands for;
* `PictureTape.Report` — how a step ended, and the state it left;
* `Script.run` — the reports of all steps.
-/

import PictureTape.Boxes
import PictureTape.Picture.Decoding

set_option autoImplicit false
set_option relaxedAutoImplicit false

namespace PictureTape

/-- A step of a script. -/
inductive Step where
  | save
  | restore
  | translate (dx dy : Binary32)
  | translateBy (v : Offset)
  | drawRect (rect : Rect) (paint : Paint)
  | drawRects (rects : List Rect) (paint : Paint)
  | annotate (area : Rect) (key : String) (value : Option Bytes)
  /-- Draw the four boxes. -/
  | boxes
  /-- Draw a panel. -/
  | panel (tree : Panel) (paint : Paint)
  /-- Decode a picture and play it back. -/
  | play (bytes : Bytes)

/-- The action that a step stands for. -/
def Step.perform {σ : Type} (canvas : Canvas σ) : Step → Action σ Unit
  | .save => canvas.save
  | .restore => canvas.restore
  | .translate dx dy => canvas.translate dx dy
  | .translateBy v => canvas.translateBy v
  | .drawRect rect paint => canvas.drawRect rect paint
  | .drawRects rects paint => canvas.drawRects rects paint
  | .annotate area key value => canvas.annotate area key value
  | .boxes => Boxes.draw canvas
  | .panel tree paint => tree.draw canvas paint
  | .play bytes => do
    let picture ← Picture.load bytes
    picture.playback canvas

/-- How a step ended, and the state it left. -/
structure Report (σ : Type) where
  outcome : Except PictureError Unit
  state : σ

namespace Script

/-- Performs the steps one after the other, whatever becomes of them. -/
def run {σ : Type} (canvas : Canvas σ) (steps : List Step) : StateT σ Logged (List (Report σ)) :=
  steps.mapM fun step => do
    let outcome ← (step.perform canvas).run
    return ⟨outcome, ← get⟩

end Script

end PictureTape

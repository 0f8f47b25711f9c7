/-
**Pictures.**

A picture is what was drawn on a surface: bounds, and the commands in order.  It can be drawn again
on any canvas.

Main definitions:

* `PictureTape.Picture` — bounds and commands;
* `Picture.agrees` — equality, with numbers compared as numbers;
* `Picture.playback` — the commands again, up to the first that fails.
-/

import PictureTape.Canvas.Basic

set_option autoImplicit false
set_option relaxedAutoImplicit false

namespace PictureTape

/-- What was drawn, in order, within the given bounds. -/
structure Picture where
  bounds : Rect
  commands : List Command
deriving DecidableEq, Repr

namespace Picture

/-- Equality, with numbers compared as numbers. -/
def agrees (p q : Picture) : Bool :=
  p.bounds.agrees q.bounds && p.commands.isEqv q.commands Command.agrees

/-- Carries out the commands in order, up to the first that fails. -/
def playback {σ : Type} (p : Picture) (canvas : Canvas σ) : Action σ Unit :=
  p.commands.forM (Command.perform canvas)

end Picture

end PictureTape

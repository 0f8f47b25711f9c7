/-
**A surface that breaks down.**

The primitive actions of any canvas can be counted, and one of them made to fail: the call is
counted, and has no other effect.

Main definitions:

* `PictureTape.Counted` — a state, and the number of primitive calls so far;
* `Canvas.failingAt` — the canvas whose call with the given number fails.
-/

import PictureTape.Canvas.Basic

set_option autoImplicit false
set_option relaxedAutoImplicit false

namespace PictureTape

/-- The state of a surface, and the number of primitive calls so far. -/
structure Counted (σ : Type) where
  calls : Nat
  inner : σ

namespace Counted

variable {σ α : Type}

/-- Runs an action on the surface and counts nothing. -/
def lift (act : Action σ α) : Action (Counted σ) α :=
  act.onPart inner fun changed whole => { whole with inner := changed }

/-- Counts a call and carries it out, unless it is the one that fails. -/
def call (failing : Option Nat) (error : Nat → PictureError) (act : Action σ α) :
    Action (Counted σ) α := do
  let n := (← get).calls
  modify fun s => { s with calls := s.calls + 1 }
  if failing = some n then throw (error n) else lift act

end Counted

/-- The canvas with its primitive calls counted from zero, where the one with the number `failing`
fails with the error for that number. -/
def Canvas.failingAt {σ : Type} (canvas : Canvas σ) (failing : Option Nat)
    (error : Nat → PictureError) : Canvas (Counted σ) where
  save := Counted.call failing error canvas.save
  restore := Counted.call failing error canvas.restore
  translate dx dy := Counted.call failing error (canvas.translate dx dy)
  drawRect rect paint := Counted.call failing error (canvas.drawRect rect paint)
  annotate area key value := Counted.call failing error (canvas.annotate area key value)
  openSaves s := canvas.openSaves s.inner

end PictureTape

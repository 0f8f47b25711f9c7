/-
**A surface that lists what is drawn where.**

The surface keeps the origin of its coordinate space and the origins that were saved, and lists the
calls it gets.  A rectangle is listed where it ends up, an annotation where it was put.

Main definitions:

* `PictureTape.Call` — a call that was carried out;
* `PictureTape.Trace` — the state of the surface;
* `Canvas.tracing` — its actions.
-/

import PictureTape.Canvas.Basic

set_option autoImplicit false
set_option relaxedAutoImplicit false

namespace PictureTape

/-- A call that was carried out. -/
inductive Call where
  | save
  | restore
  | translate (v : Offset)
  /-- A rectangle was drawn here, in the coordinates of the whole surface. -/
  | drawRect (rect : Rect) (paint : Paint)
  /-- A key was attached to this area, in the coordinates of its space. -/
  | annotate (area : Rect) (key : String) (value : Option Bytes)
deriving DecidableEq, Repr

/-- The coordinate space of a surface, those that are remembered, and the calls so far. -/
structure Trace where
  origin : Offset
  /-- The origins that were saved, the last one first. -/
  saved : List Offset
  calls : Array Call
deriving DecidableEq, Repr

namespace Trace

/-- Nothing was drawn yet. -/
def start : Trace := ⟨.zero, [], #[]⟩

/-- Adds a call to the list. -/
def list (call : Call) (t : Trace) : Trace := { t with calls := t.calls.push call }

end Trace

/-- The surface that lists its calls. -/
def Canvas.tracing : Canvas Trace where
  save := modify fun t => { t with saved := t.origin :: t.saved }.list .save
  restore := do
    match (← get).saved with
    | [] => throw .unbalancedRestore
    | origin :: saved => modify fun t => { t with origin, saved }.list .restore
  translate dx dy := modify fun t =>
    { t with origin := t.origin + Offset.mk dx dy }.list (.translate ⟨dx, dy⟩)
  drawRect rect paint := modify fun t => t.list (.drawRect (rect.moved t.origin) paint)
  annotate area key value := modify fun t => t.list (.annotate area key value)
  openSaves t := t.saved.length

end PictureTape

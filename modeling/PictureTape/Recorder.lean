/-
**Recording.**

A recorder is a surface that keeps the commands it is given.  It remembers where the saves stand
that were not undone yet; a save is undone only once, and those that are left when the recording
ends are undone at its end.

Main definitions:

* `PictureTape.Recorder` — the commands so far, and the positions of the open saves;
* `Canvas.recording` — the actions of a recorder;
* `Recorder.begin`, `Recorder.finish` — the start and the end of a recording, with their entries in
  the journal;
* `Recorder.picture` — the picture at the end of a recording;
* `Recorder.capture` — the picture of what an action draws.
-/

import PictureTape.Picture.Basic

set_option autoImplicit false
set_option relaxedAutoImplicit false

namespace PictureTape

/-- A recording that is under way. -/
structure Recorder where
  bounds : Rect
  commands : Array Command
  /-- The positions of the saves that were not undone yet, the last one first. -/
  openSaves : List Nat
deriving DecidableEq, Repr

namespace Recorder

/-- A recording without commands. -/
def start (bounds : Rect) : Recorder := ⟨bounds, #[], []⟩

/-- The recording with one more command. -/
def push (command : Command) (r : Recorder) : Recorder :=
  { r with commands := r.commands.push command }

@[simp] theorem toList_commands_push (command : Command) (r : Recorder) :
    (r.push command).commands.toList = r.commands.toList ++ [command] := by
  simp [push]

/-- The action that records a command. -/
def record (command : Command) : Action Recorder Unit := do
  note (.recorded command)
  modify (push command)

/-- The picture of a recording that ends here: the open saves are undone. -/
def picture (r : Recorder) : Picture :=
  ⟨r.bounds, r.commands.toList ++ List.replicate r.openSaves.length .restore⟩

/-- Begins a recording. -/
def begin (bounds : Rect) : Logged Recorder := do
  note (.began bounds)
  return start bounds

/-- Ends a recording. -/
def finish (r : Recorder) : Logged Picture := do
  if r.openSaves ≠ [] then
    note (.unbalanced r.openSaves.length)
  note (.finished r.picture.commands.length)
  return r.picture

/-- The picture of what an action draws; if the action fails, there is none. -/
def capture {σ : Type} (bounds : Rect) (act : Action Recorder Unit) : Action σ Picture := do
  let recorder ← begin bounds
  let (outcome, recorder) ← act.run.run recorder
  Action.ofExcept outcome
  recorder.finish

end Recorder

/-- The surface that records. -/
def Canvas.recording : Canvas Recorder where
  save := do
    modify fun r => { r with openSaves := r.commands.size :: r.openSaves }
    Recorder.record .save
  restore := do
    match (← get).openSaves with
    | [] => throw .unbalancedRestore
    | position :: openSaves =>
      modify fun r => { r with openSaves }
      note (.restoring position)
      Recorder.record .restore
  translate dx dy := Recorder.record (.translate ⟨dx, dy⟩)
  drawRect rect paint := Recorder.record (.drawRect rect paint)
  annotate area key value := Recorder.record (.annotate area key value)
  openSaves r := r.openSaves.length

end PictureTape

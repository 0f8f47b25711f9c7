/-
**Drawing commands.**

A picture is a list of commands.  Each kind of command has a code under which it is stored, and each
command a text in which the journal shows it.

Main definitions:

* `PictureTape.Bytes` — a string of bytes;
* `PictureTape.Command` — the five kinds of commands;
* `Command.code` — the code of its kind;
* `Command.agrees` — equality, with numbers compared as numbers;
* `Command.text` — a rectangle by its edges, a color packed, a key quoted.
-/

import PictureTape.Geometry
import PictureTape.Paint
import PictureTape.Text.Quoted

set_option autoImplicit false
set_option relaxedAutoImplicit false

namespace PictureTape

/-- A string of bytes. -/
abbrev Bytes := List UInt8

/-- A drawing command. -/
inductive Command where
  /-- Remember the coordinate space. -/
  | save
  /-- Go back to the coordinate space remembered last. -/
  | restore
  /-- Shift the coordinate space. -/
  | translate (v : Offset)
  /-- Fill or outline a rectangle. -/
  | drawRect (rect : Rect) (paint : Paint)
  /-- Attach a key, and perhaps a value, to an area; this draws nothing. -/
  | annotate (area : Rect) (key : String) (value : Option Bytes)
deriving DecidableEq, Repr

namespace Command

/-- The code of the kind of command. -/
def code : Command → UInt8
  | save => 30
  | restore => 28
  | translate _ => 35
  | drawRect _ _ => 21
  | annotate _ _ _ => 60

/-- Equality, with numbers compared as numbers. -/
def agrees : Command → Command → Bool
  | save, save => true
  | restore, restore => true
  | translate a, translate b => a.agrees b
  | drawRect r p, drawRect s q => r.agrees s && p.agrees q
  | annotate r k v, annotate s l w => r.agrees s && k == l && v == w
  | _, _ => false

/-- The command as the journal shows it. -/
def text : Command → String
  | save => "save"
  | restore => "restore"
  | translate v => "translate(" ++ v.x.text .plain ++ ", " ++ v.y.text .plain ++ ")"
  | drawRect r p => "drawRect(" ++ r.edgesText ++ ", " ++ p.color.text ++ ")"
  | annotate r k _ => "drawAnnotation(" ++ r.edgesText ++ ", " ++ Text.quoted k ++ ")"

example : text (translate ⟨1 / 2, ⟨0x80000000⟩⟩) = "translate(0.5, -0)" := by decide +kernel

example : text (drawRect ⟨0, 0, 1, 1⟩ .plain) = "drawRect([0, 0, 1, 1], Color(0xFF000000))" := by
  decide +kernel

end Command

end PictureTape

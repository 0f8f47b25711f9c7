/-
**Encoding pictures.**

The paints of a picture are collected in a table in the order of their first use.  A paint that
agrees with an entry is not entered again; one whose stroke width is a NaN agrees with nothing and
gets an entry each time.

Main definitions:

* `PictureTape.PaintTable` — the paints so far; `PaintTable.enter` is the position of one more;
* `Command.encode` — the bytes of a command, with its paint entered;
* `Picture.body` — the encoded commands and the paint table;
* `Picture.encode` — the bytes of a picture;
* `Picture.store` — the same with an entry in the journal.
-/

import PictureTape.Picture.Format

set_option autoImplicit false
set_option relaxedAutoImplicit false

namespace PictureTape

/-! ### The paint table -/

/-- The paints that were used so far, in the order of their first use. -/
abbrev PaintTable : Type := List Paint

/-- The position of a paint that agrees with the given one, and the table with it. -/
def PaintTable.enter (p : Paint) (table : PaintTable) : Nat × PaintTable :=
  match table.findIdx? (·.agrees p) with
  | some i => (i, table)
  | none => (table.length, table ++ [p])

/-- Computations that enter paints into the table, and may fail. -/
abbrev Encoder (α : Type) : Type := StateT PaintTable (Except PictureError) α

/-! ### Commands -/

namespace Command

/-- Enters the paint of a command; the others refer to none. -/
def paintIndex : Command → Encoder Nat
  | drawRect _ paint => modifyGet (PaintTable.enter paint)
  | _ => pure 0

/-- The bytes of a command. -/
def encode (c : Command) : Encoder Bytes := do
  let index ← c.paintIndex
  let payload := c.payload index
  let size := payload.length + 4
  if largestSize < size then throw (.commandTooLarge size)
  return Wire.word (header c.code size) ++ payload

end Command

/-! ### Pictures -/

/-- What stands between the head of a stored picture and its end tag. -/
structure Body where
  commands : Bytes
  paints : PaintTable

/-- The bytes of a body, with the head in front of it. -/
def Body.withHead (bounds : Rect) (body : Body) : Bytes :=
  Picture.magic ++ (Wire.word Picture.version ++ (Wire.rect bounds ++ (1 ::
    (Wire.word Picture.commandTag ++ (Wire.word (.ofNat body.commands.length) ++ (body.commands ++
      (Wire.word Picture.paintTag ++ (Wire.word (.ofNat body.paints.length) ++
        (body.paints.flatMap Paint.stored ++ Wire.word Picture.endTag)))))))))

namespace Picture

/-- The encoded commands of a picture, and the paints that they refer to. -/
def body (p : Picture) : Except PictureError Body := do
  let (commands, paints) ← (p.commands.mapM Command.encode).run []
  return ⟨commands.flatten, paints⟩

/-- The bytes of a picture; a command that is too large has none. -/
def encode (p : Picture) : Except PictureError Bytes := do
  let body ← p.body
  return body.withHead p.bounds

/-- Encodes a picture and puts its measures down in the journal. -/
def store {σ : Type} (p : Picture) : Action σ Bytes := do
  let body ← Action.ofExcept p.body
  let bytes := body.withHead p.bounds
  note (.encoded p.commands.length body.paints.length bytes.length)
  return bytes

end Picture

end PictureTape

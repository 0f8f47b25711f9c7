/-
**Decoding pictures.**

A stored picture is read from front to back; the commands are read last, when the paint table is
known.  The first fault that is met on this way is reported.  What follows the end of a picture is
not looked at.

Main definitions:

* `Paint.read` — an entry of the paint table;
* `Command.read`, `Command.readAll` — a command, and all of them;
* `PictureTape.Contents` — what is found in a stored picture;
* `Picture.decode` — the picture that bytes stand for;
* `Picture.load` — the same with an entry in the journal.

Main result:

* `Command.length_add_of_read` — **a command that is read is as long as it says,** and not shorter
  than its first word.
-/

import PictureTape.Picture.Format
import PictureTape.Wire.Reader

set_option autoImplicit false
set_option relaxedAutoImplicit false

namespace PictureTape

open Wire (Reader)

/-! ### Paints -/

/-- The next entry of a paint table: only the lowest bit of its flags matters, and the last two
bytes do not. -/
def Paint.read : Reader Paint := do
  let argb ← Reader.word
  let strokeWidth ← Reader.finite
  let styleByte ← Reader.byte
  let some style := PaintStyle.ofByte? styleByte | throw (.badPaintStyle styleByte)
  let flags ← Reader.byte
  let _ ← Reader.take 2
  return ⟨.ofArgb argb, style, flags.toNat % 2 = 1, strokeWidth⟩

/-! ### Commands -/

namespace Command

/-- What stands behind the first word of a command with the given code. -/
def readPayload (paints : Array Paint) (code : UInt8) : Reader Command :=
  if code = 30 then pure save
  else if code = 28 then pure restore
  else if code = 35 then do
    let v ← Reader.offset
    return translate v
  else if code = 21 then do
    let index ← Reader.word
    let some paint := paints[index.toNat]? | throw (.missingPaint index.toNat)
    let r ← Reader.rect
    return drawRect r paint
  else if code = 60 then do
    let r ← Reader.rect
    let bytes ← Reader.padded
    let some key := Wire.toText? bytes | throw .invalidKey
    let value ← Reader.optional
    return annotate r key value
  else throw (.unknownCommand code)

/-- A command with the given code and size whose payload has been cut out: it takes all of it. -/
def ofPayload (paints : Array Paint) (code : UInt8) (size : Nat) (payload : Bytes) :
    Except PictureError Command :=
  match readPayload paints code payload with
  | .error e => .error e
  | .ok (c, []) => .ok c
  | .ok (_, _ :: _) => .error (.badCommandSize code size)

/-- The rest of a command with the given code and size, its first word having been read. -/
def readSized (paints : Array Paint) (code : UInt8) (size : Nat) : Reader Command :=
  if size < 4 then throw (.badCommandSize code size)
  else do
    let payload ← Reader.take (size - 4)
    Reader.ofExcept (ofPayload paints code size payload)

/-- The next command. -/
def read (paints : Array Paint) : Reader Command := do
  let first ← Reader.word
  readSized paints (headerCode first) (headerSize first)

/-- **A command that is read is as long as it says,** and not shorter than its first word. -/
theorem length_add_of_read {paints : Array Paint} {input rest : Bytes} {c : Command}
    (h : read paints input = .ok (c, rest)) :
    ∃ size, 4 ≤ size ∧ rest.length + size = input.length := by
  obtain ⟨first, afterWord, hword, hsized⟩ := Reader.bind_eq_ok_iff.1 h
  obtain ⟨bytes, hinput, hbytes, -⟩ := Reader.word_eq_ok_iff.1 hword
  unfold readSized at hsized
  split at hsized
  · cases hsized
  · obtain ⟨payload, afterPayload, htake, hlift⟩ := Reader.bind_eq_ok_iff.1 hsized
    obtain ⟨hafter, hpayload⟩ := Reader.take_eq_ok_iff.1 htake
    obtain ⟨-, hrest⟩ := Reader.ofExcept_eq_ok_iff.1 hlift
    refine ⟨headerSize first, by omega, ?_⟩
    simp only [hinput, hafter, hrest, List.length_append]
    omega

/-- All commands up to the end of the bytes, after those in `done`, which are kept backwards. -/
def readAllAfter (paints : Array Paint) (done : List Command) (input : Bytes) :
    Except PictureError (List Command) :=
  match input with
  | [] => .ok done.reverse
  | b :: rest =>
    match _h : read paints (b :: rest) with
    | .error e => .error e
    | .ok (c, rest) => readAllAfter paints (c :: done) rest
termination_by input.length
decreasing_by
  obtain ⟨size, hsize, hlength⟩ := length_add_of_read _h
  simp only [List.length_cons] at *
  omega

/-- All commands up to the end of the bytes. -/
def readAll (paints : Array Paint) (input : Bytes) : Except PictureError (List Command) :=
  readAllAfter paints [] input

end Command

/-! ### Pictures -/

/-- What is found in a stored picture. -/
structure Contents where
  bounds : Rect
  /-- The paint table and the commands, unless there is no body. -/
  body : Option (List Paint × List Command)

namespace Contents

/-- The commands; without a body there are none. -/
def commands (c : Contents) : List Command := c.body.elim [] (·.2)

/-- The picture. -/
def picture (c : Contents) : Picture := ⟨c.bounds, c.commands⟩

/-- What is put down in the journal: nothing if there is no body. -/
def event? (c : Contents) : Option Event :=
  c.body.map fun (paints, commands) => .decoded commands.length paints.length

/-- A stored picture. -/
def read : Reader Contents := do
  let start ← Reader.take Picture.magic.length
  if start ≠ Picture.magic then throw .badMagic
  let version ← Reader.word
  if version ≠ Picture.version then throw (.unsupportedVersion version)
  let bounds ← Reader.rect
  let hasBody ← Reader.byte
  if hasBody = 0 then return ⟨bounds, none⟩
  Reader.tag Picture.commandTag
  let length ← Reader.word
  let stream ← Reader.take length.toNat
  Reader.tag Picture.paintTag
  let count ← Reader.word
  let paints ← Reader.times count.toNat Paint.read
  Reader.tag Picture.endTag
  let commands ← Reader.ofExcept (Command.readAll paints.toArray stream)
  return ⟨bounds, some (paints, commands)⟩

/-- What is found in bytes that start with a stored picture. -/
def decode (bytes : Bytes) : Except PictureError Contents := do
  let (contents, _) ← read bytes
  return contents

end Contents

namespace Picture

/-- The picture that bytes stand for. -/
def decode (bytes : Bytes) : Except PictureError Picture :=
  Contents.picture <$> Contents.decode bytes

/-- Decodes a picture and puts its measures down in the journal. -/
def load {σ : Type} (bytes : Bytes) : Action σ Picture := do
  let contents ← Action.ofExcept (Contents.decode bytes)
  if let some event := contents.event? then note event
  return contents.picture

end Picture

end PictureTape

/-
**What can go wrong.**

Drawing fails when a coordinate space is restored that was never saved, encoding when a command is
too large, decoding when the bytes are no picture, and writing when the file cannot be written.

Main definitions:

* `PictureTape.FileFailure` — why a file could not be written;
* `PictureTape.PictureError` — the causes;
* `PictureError.message` — the text that is shown for a cause;
* `PictureError.source?` — the text of the failure behind it, if there is one.
-/

import PictureTape.Text.Hex

set_option autoImplicit false
set_option relaxedAutoImplicit false

namespace PictureTape

/-- Why a file could not be read or written. -/
inductive FileFailure where
  | notFound
  | isDirectory
  | other (reason : String)
deriving DecidableEq, Repr

/-- The text of a failure; the numbers are those of the operating system. -/
def FileFailure.message : FileFailure → String
  | notFound => "No such file or directory (os error 2)"
  | isDirectory => "Is a directory (os error 21)"
  | other reason => reason

/-- Why a picture could not be drawn, encoded, decoded or written. -/
inductive PictureError where
  /-- The file could not be written. -/
  | file (failure : FileFailure)
  /-- A coordinate space was restored that was not saved. -/
  | unbalancedRestore
  /-- The bytes do not start as a picture does. -/
  | badMagic
  /-- The picture has another version of the format. -/
  | unsupportedVersion (version : UInt32)
  /-- The bytes end, and `needed` more were to be read. -/
  | truncated (needed : Nat)
  /-- Another tag stands where a part of the picture should start. -/
  | badTag (expected found : UInt32)
  /-- No kind of command has this code. -/
  | unknownCommand (code : UInt8)
  /-- A command does not have the size that is written in front of it. -/
  | badCommandSize (code : UInt8) (size : Nat)
  /-- A command refers to a paint that is not in the table. -/
  | missingPaint (index : Nat)
  /-- No style of paint has this byte. -/
  | badPaintStyle (style : UInt8)
  /-- A number that has to be finite is infinite or a NaN. -/
  | nonFinite
  /-- The key of an annotation is no text in UTF-8. -/
  | invalidKey
  /-- The size of a command does not fit the field for it. -/
  | commandTooLarge (size : Nat)
deriving DecidableEq, Repr

namespace PictureError

/-- The text that is shown for an error. -/
def message : PictureError → String
  | file failure => failure.message
  | unbalancedRestore => "restore() called without a matching save()"
  | badMagic => "Input is not a picture: bad magic"
  | unsupportedVersion version => "Picture version " ++ toString version ++ " is not supported"
  | truncated needed => "Picture is truncated: " ++ toString needed ++ " more bytes expected"
  | badTag expected found =>
    "Expected chunk tag 0x" ++ Text.hexWord expected ++ ", found 0x" ++ Text.hexWord found
  | unknownCommand code => "Unknown op code " ++ toString code
  | badCommandSize code size => "Op " ++ toString code ++ " has invalid size " ++ toString size
  | missingPaint index => "Paint #" ++ toString index ++ " does not exist"
  | badPaintStyle style => "Unknown paint style " ++ toString style
  | nonFinite => "Expected a finite float"
  | invalidKey => "Annotation key is not valid UTF-8"
  | commandTooLarge size => "Op of " ++ toString size ++ " bytes is too large to record"

/-- The text of the failure behind an error: only a file failure is behind one. -/
def source? : PictureError → Option String
  | file failure => some failure.message
  | _ => none

example : (badTag 0x70e 0xabcdef01).message =
    "Expected chunk tag 0x0000070e, found 0xabcdef01" := by decide +kernel

end PictureError

end PictureTape

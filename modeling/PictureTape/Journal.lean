/-
**The journal.**

Recording, encoding, decoding and writing pictures leave entries in a journal.  An entry is an
event; its level, the part of the program it comes from and its text are functions of the event.

Main definitions:

* `PictureTape.Level` — how serious an entry is;
* `PictureTape.Event` — what happened;
* `Event.level`, `Event.target`, `Event.text` — how it is reported;
* `PictureTape.Journal` — the events so far, in order.
-/

import PictureTape.Command
import PictureTape.PictureError

set_option autoImplicit false
set_option relaxedAutoImplicit false

namespace PictureTape

/-! ### Levels -/

/-- How serious an entry is. -/
inductive Level where
  | error
  | warn
  | info
  | debug
  | trace
deriving DecidableEq, Repr

namespace Level

/-- The name of a level. -/
def name : Level → String
  | error => "ERROR"
  | warn => "WARN"
  | info => "INFO"
  | debug => "DEBUG"
  | trace => "TRACE"

/-- How much detail a level brings: an error is the least, a trace the most. -/
def detail : Level → Nat
  | error => 1
  | warn => 2
  | info => 3
  | debug => 4
  | trace => 5

end Level

/-! ### Events -/

/-- Something that is put down in the journal. -/
inductive Event where
  /-- A recording began. -/
  | began (bounds : Rect)
  /-- A command was recorded. -/
  | recorded (command : Command)
  /-- The save that was recorded at this position is about to be undone. -/
  | restoring (position : Nat)
  /-- A recording ended while saves were open. -/
  | unbalanced (openSaves : Nat)
  /-- A recording ended with this many commands. -/
  | finished (commands : Nat)
  /-- A picture was encoded. -/
  | encoded (commands paints bytes : Nat)
  /-- A picture was decoded. -/
  | decoded (commands paints : Nat)
  /-- A picture was written to a file. -/
  | written (bytes : Nat) (path : String)
  /-- The program wrote its picture. -/
  | generated (path : String) (bytes : Nat)
  /-- The program could not write its picture. -/
  | generationFailed (path : String) (error : PictureError)
deriving DecidableEq, Repr

namespace Event

/-- How serious the event is. -/
def level : Event → Level
  | began _ => .debug
  | recorded _ => .debug
  | restoring _ => .trace
  | unbalanced _ => .warn
  | finished _ => .debug
  | encoded _ _ _ => .trace
  | decoded _ _ => .trace
  | written _ _ => .debug
  | generated _ _ => .info
  | generationFailed _ _ => .error

/-- The part of the program that reports the event. -/
def target : Event → String
  | began _ => "boxes_skp::recorder"
  | recorded _ => "boxes_skp::recorder"
  | restoring _ => "boxes_skp::recorder"
  | unbalanced _ => "boxes_skp::recorder"
  | finished _ => "boxes_skp::recorder"
  | encoded _ _ _ => "boxes_skp::picture"
  | decoded _ _ => "boxes_skp::picture"
  | written _ _ => "boxes_skp::boxes"
  | generated _ _ => "generate_boxes"
  | generationFailed _ _ => "generate_boxes"

/-- The event in words. -/
def text : Event → String
  | began bounds => "Beginning recording with bounds " ++ bounds.boundsText
  | recorded command => "Recording " ++ command.text
  | restoring position => "Restoring save recorded at op #" ++ toString position
  | unbalanced openSaves =>
    "Recording finished with " ++ toString openSaves ++ " unbalanced save(s); restoring them"
  | finished commands => "Finished recording of " ++ toString commands ++ " ops"
  | encoded commands paints bytes =>
    "Serialized " ++ toString commands ++ " ops and " ++ toString paints ++ " paints into " ++
      toString bytes ++ " bytes"
  | decoded commands paints =>
    "Deserialized " ++ toString commands ++ " ops and " ++ toString paints ++ " paints"
  | written bytes path => "Wrote " ++ toString bytes ++ " bytes to " ++ path
  | generated path bytes => "Generated " ++ path ++ " (" ++ toString bytes ++ " bytes)"
  | generationFailed path error => "Failed to generate " ++ path ++ ": " ++ error.message

end Event

/-- The events so far, in order. -/
abbrev Journal := Array Event

end PictureTape

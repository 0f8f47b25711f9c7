/-
**The program that writes the four boxes.**

The program writes the picture to a fixed file and says in the journal whether it could.  The
journal is shown as far as a filter admits it.

Main definitions:

* `Generator.outputFile` — the name of the file;
* `Generator.perform` — writes the picture and reports;
* `Generator.request` — the file it wants to write;
* `Generator.journalFor` — its journal, when writing the file ends as given;
* `Generator.messages`, `Generator.shown` — the messages that are shown, and their text.
-/

import PictureTape.Boxes
import PictureTape.Journal.Filter

set_option autoImplicit false
set_option relaxedAutoImplicit false

namespace PictureTape

namespace Generator

/-- The file that the picture is written to. -/
def outputFile : String := "boxes.skp"

/-- Writes the picture and reports whether that could be done. -/
def perform {σ : Type} (writeFile : String → Bytes → Action σ Unit) : StateT σ Logged Unit := do
  match ← (Boxes.write writeFile outputFile).run with
  | .ok bytes => note (.generated outputFile bytes)
  | .error e => note (.generationFailed outputFile e)

/-- The file that the program wants to write: a path and the bytes. -/
def request : Option (String × Bytes) :=
  let keep : String → Bytes → Action (Option (String × Bytes)) Unit := fun path bytes =>
    set (some (path, bytes))
  ((perform keep).run none |>.run #[]).1.2

/-- The journal when writing the file ends as given. -/
def journalFor (outcome : Except FileFailure Unit) : Journal :=
  let answer : String → Bytes → Action Unit Unit := fun _ _ =>
    Action.ofExcept (outcome.mapError .file)
  ((perform answer).run () |>.run #[]).2

/-- The messages that are shown of a journal: first the warnings about the text that spells the
filter, then the entries that it admits. -/
def messages (spec : Option String) (journal : Journal) : List String :=
  let (filter, warnings) := spec.elim (Filter.errorsOnly, []) Filter.parse
  warnings ++ (journal.toList.filter filter.admits).map Event.line

/-- The text of the messages, each ended by a line feed. -/
def shown (spec : Option String) (journal : Journal) : String :=
  String.join ((messages spec journal).map (·.push '\n'))

end Generator

end PictureTape

/-
**Actions on a surface.**

An action works on the state of a surface, may put entries into the journal, and may fail.  What it
has done before it fails stays done: the state and the journal are those it reached.

Main definitions:

* `PictureTape.Logged` — computations that write into the journal;
* `PictureTape.note` — one entry;
* `PictureTape.Action` — computations that work on a state and may fail as well.
-/

import PictureTape.Journal

set_option autoImplicit false
set_option relaxedAutoImplicit false

namespace PictureTape

/-- A computation that writes into the journal. -/
abbrev Logged (α : Type) : Type := StateM Journal α

/-- Puts an event down in the journal. -/
def note (event : Event) : Logged Unit := modify (·.push event)

/-- A computation on the state of a surface, which may fail and keeps what it did until then. -/
abbrev Action (σ α : Type) : Type := ExceptT PictureError (StateT σ (StateM Journal)) α

namespace Action

/-- The action with this outcome, which does nothing. -/
def ofExcept {σ α : Type} : Except PictureError α → Action σ α
  | .ok a => pure a
  | .error e => throw e

/-- Runs an action on a part of a larger state. -/
def onPart {σ τ α : Type} (part : τ → σ) (putBack : σ → τ → τ) (act : Action σ α) : Action τ α :=
  ExceptT.mk do
    let whole ← get
    let (outcome, changed) ← act.run.run (part whole)
    set (putBack changed whole)
    return outcome

end Action

end PictureTape

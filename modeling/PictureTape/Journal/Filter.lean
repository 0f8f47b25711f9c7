/-
**Which entries of the journal are shown.**

A filter is written as a list of directives between commas, and perhaps a phrase behind a slash.  A
directive is a level, the start of a target, or both with an equals sign between them.  An entry is
shown if the directive with the longest start of its target admits its level, and if its text
contains the phrase.  Without any directive errors are shown.  What cannot be read is reported and
left out.

Main definitions:

* `PictureTape.Directive` — the start of a target, and the most detailed level it admits;
* `PictureTape.Filter` — directives and a phrase;
* `Filter.parse` — the filter that a text spells, and the warnings about it;
* `Filter.admits` — is an entry shown?
* `Event.line` — the line that shows an entry.
-/

import PictureTape.Journal
import PictureTape.Text.Cut

set_option autoImplicit false
set_option relaxedAutoImplicit false

namespace PictureTape

/-- Which levels are shown for the targets with the given start. -/
structure Directive where
  /-- The start of the targets; a directive without one is meant for all of them. -/
  target : Option (List Char)
  /-- The most detailed level that is shown; none shows nothing. -/
  limit : Option Level
deriving DecidableEq, Repr

/-- Which entries are shown. -/
structure Filter where
  directives : List Directive
  /-- What the text of an entry has to contain. -/
  phrase : Option (List Char)
deriving DecidableEq, Repr

/-! ### Directives -/

namespace Directive

/-- The limits and their names. -/
def limits : List (List Char × Option Level) :=
  [("off".toList, none), ("error".toList, some .error), ("warn".toList, some .warn),
    ("info".toList, some .info), ("debug".toList, some .debug), ("trace".toList, some .trace)]

/-- The limit with the given name, in capitals or not. -/
def parseLimit? (name : List Char) : Option (Option Level) :=
  limits.lookup (name.map Char.toLower)

/-- The warning about a part of a filter that cannot be read. -/
def warning (part : List Char) : String :=
  "warning: invalid logging spec '" ++ String.ofList part ++ "', ignoring it"

/-- The directive that a text without commas spells, or the warning about it. -/
def parse (part : List Char) : Except String Directive :=
  match Text.pieces '=' part with
  | [name] =>
    match parseLimit? name with
    | some limit => .ok ⟨none, limit⟩
    | none => .ok ⟨some name, some .trace⟩
  | [target, name] =>
    let name := Text.trimmed name
    if name = [] then .ok ⟨some target, some .trace⟩
    else
      match parseLimit? name with
      | some limit => .ok ⟨some target, limit⟩
      | none => .error (warning name)
  | _ => .error (warning part)

/-- Is the directive meant for the target? -/
def covers (d : Directive) (target : List Char) : Bool :=
  match d.target with
  | none => true
  | some start => start.isPrefixOf target

/-- The length of the start of the targets. -/
def reach (d : Directive) : Nat := d.target.elim 0 List.length

/-- Does the directive show entries of the level? -/
def admits (d : Directive) (level : Level) : Bool :=
  match d.limit with
  | none => false
  | some limit => level.detail ≤ limit.detail

end Directive

/-! ### Filters -/

namespace Filter

/-- Shows errors only. -/
def errorsOnly : Filter := ⟨[⟨none, some .error⟩], none⟩

/-- The directives between the commas, and the warnings about the others. -/
def parseDirectives (part : List Char) : List Directive × List String :=
  let parts := ((Text.pieces ',' part).map Text.trimmed).filter (· ≠ [])
  let outcomes := parts.map Directive.parse
  (outcomes.filterMap fun
      | .ok d => some d
      | .error _ => none,
    outcomes.filterMap fun
      | .ok _ => none
      | .error w => some w)

/-- The filter with these directives; without any, errors are shown. -/
def ofDirectives (directives : List Directive) (phrase : Option (List Char)) : Filter :=
  ⟨if directives = [] then errorsOnly.directives else directives, phrase⟩

/-- The filter that a text spells, and the warnings about it. -/
def parse (text : String) : Filter × List String :=
  match Text.pieces '/' text.toList with
  | [part] =>
    let (directives, warnings) := parseDirectives part
    (ofDirectives directives none, warnings)
  | [part, phrase] =>
    let (directives, warnings) := parseDirectives part
    (ofDirectives directives (some phrase), warnings)
  | _ =>
    (errorsOnly, ["warning: invalid logging spec '" ++ text ++ "', ignoring it (too many '/'s)"])

/-- The directive for a target: the one with the longest start, and of those the last. -/
def directiveFor? (f : Filter) (target : List Char) : Option Directive :=
  (f.directives.filter (·.covers target)).foldl (fun best d =>
    match best with
    | none => some d
    | some b => if b.reach ≤ d.reach then some d else some b) none

/-- Is the entry shown? -/
def admits (f : Filter) (event : Event) : Bool :=
  (match f.directiveFor? event.target.toList with
    | none => false
    | some d => d.admits event.level) &&
  (match f.phrase with
    | none => true
    | some phrase => (Text.around? phrase event.text.toList).isSome)

end Filter

/-- The line that shows an entry: its level in five columns, its target and its text. -/
def Event.line (event : Event) : String :=
  "[" ++ String.ofList (event.level.name.toList.rightpad 5 ' ') ++ " " ++ event.target ++ "] " ++
    event.text

example : (Event.generated "a" 7).line = "[INFO  generate_boxes] Generated a (7 bytes)" := by
  decide +kernel

example : (Filter.parse "info,boxes_skp = WARN ,x=y,a=b=c").1.directives =
    [⟨none, some .info⟩, ⟨some "boxes_skp ".toList, some .warn⟩] := by decide +kernel

end PictureTape

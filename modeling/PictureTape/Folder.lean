/-
**A folder.**

A folder holds files and further folders under names, and so do these.  What stands there is listed
by place: the names that lead to it.  A path is followed step by step to a place, and every step has
to be made from a folder.  Writing a file replaces the file at its place; where a folder stands,
writing fails and nothing changes.

Main definitions:

* `PictureTape.Place` — where something can stand;
* `PictureTape.Folder` — what stands at which place;
* `Folder.find` — the place that a path leads to;
* `Folder.withFolder`, `Folder.withFile` — the folder with a further folder, or a file, in it;
* `Folder.write` — writes a file;
* `Folder.listing` — the names in the folder itself.
-/

import PictureTape.Action
import PictureTape.Text.Cut

set_option autoImplicit false
set_option relaxedAutoImplicit false

namespace PictureTape

/-! ### Places -/

/-- The names that lead to a place, either from the folder where paths start or from one above it.
The folders above are not told apart. -/
structure Place where
  inside : Bool
  names : List String
deriving DecidableEq, Repr

namespace Place

/-- The folder where paths start. -/
def here : Place := ⟨true, []⟩

/-- The folders above it. -/
def above : Place := ⟨false, []⟩

/-- The place of a name in a folder. -/
def child (name : String) (p : Place) : Place := ⟨p.inside, p.names ++ [name]⟩

/-- The folder that holds the place. -/
def parent (p : Place) : Place := if p.names = [] then above else ⟨p.inside, p.names.dropLast⟩

/-- Where a step of a path leads.  A step without a name and the step `.` stay, and the step `..`
goes up. -/
def step (p : Place) (name : List Char) : Place :=
  if name = [] ∨ name = ['.'] then p
  else if name = ['.', '.'] then p.parent
  else p.child (String.ofList name)

/-- Where a path starts.  With a slash in front it starts at the top. -/
def start (path : List Char) : Place := if path.head? = some '/' then above else here

end Place

/-! ### Folders -/

/-- What stands at a place. -/
inductive Entry where
  | file (content : Bytes)
  | folder
deriving DecidableEq, Repr

/-- What stands at which place, each place once. -/
structure Folder where
  entries : List (Place × Entry)
deriving DecidableEq, Repr

namespace Folder

/-- Nothing. -/
def empty : Folder := ⟨[]⟩

/-- What stands at a place.  The folder where paths start and those above it are always there. -/
def at? (f : Folder) (place : Place) : Option Entry :=
  if place.names = [] then some .folder else f.entries.lookup place

/-- The folder with an entry put at a place, instead of what stood there. -/
def put (place : Place) (entry : Entry) (f : Folder) : Folder :=
  ⟨f.entries.filter (·.1 ≠ place) ++ [(place, entry)]⟩

/-- The names in the folder itself, and what stands under them. -/
def listing (f : Folder) : List (String × Entry) :=
  f.entries.filterMap fun
    | (⟨true, [name]⟩, entry) => some (name, entry)
    | _ => none

/-! ### Paths -/

/-- The place that some steps lead to.  Each step is made from a folder; the last may lead to a
place where nothing stands. -/
def find (f : Folder) (place : Place) : List (List Char) → Except FileFailure Place
  | [] => .ok place
  | name :: rest =>
    if f.at? place = some .folder then f.find (place.step name) rest else .error .notFound

/-- The folder with further folders wherever some steps lead through a place where nothing
stands. -/
def withFolders (place : Place) : List (List Char) → Folder → Folder
  | [], f => f
  | name :: rest, f =>
    let next := place.step name
    withFolders next rest (if f.at? next = none then f.put next .folder else f)

/-- The folder with a further folder under a path, and with all that the path leads through. -/
def withFolder (path : String) (f : Folder) : Folder :=
  f.withFolders (.start path.toList) (Text.pieces '/' path.toList)

/-- The folder with a file written under a path.  What slashes follow can only be a folder, also
where nothing stands. -/
def withFile (path : String) (content : Bytes) (f : Folder) : Except FileFailure Folder := do
  let path := path.toList
  if path = [] then throw .notFound
  let steps := Text.pieces '/' (path.reverse.dropWhile (· = '/')).reverse
  let place ← f.find (.start path) steps
  if path.getLast? = some '/' ∨ f.at? place = some .folder then throw .isDirectory
  return f.put place (.file content)

/-- The folder with an entry under a path, if it can stand there. -/
def withEntry (path : String) (entry : Entry) (f : Folder) : Folder :=
  match entry with
  | .folder => f.withFolder path
  | .file content => (f.withFile path content).toOption.getD f

example : (empty.withFolder "a/../b/").listing = [("a", .folder), ("b", .folder)] := by
  decide +kernel

example : ((empty.withFolder "a").withFile "./a/../f" [7]).toOption.map listing =
    some [("a", .folder), ("f", .file [7])] := by decide +kernel

example : (empty.withFile "a/../f" []).toOption = none ∧ (empty.withFile "a/" []).toOption = none ∧
    (empty.withFile "../.." []).toOption = none := by decide +kernel

/-- Writes a file. -/
def write (path : String) (content : Bytes) : Action Folder Unit := do
  let changed ← Action.ofExcept (((← get).withFile path content).mapError .file)
  set changed

end Folder

end PictureTape

/-
**Cutting text at fixed pieces.**

Cuts on a list of characters: behind a given start, before a given end, around the first place where
a given piece occurs, and at every place where a separator stands.

Main definitions:

* `PictureTape.Text.after?`, `PictureTape.Text.before?` — what follows a start, what precedes an
  end;
* `PictureTape.Text.around?` — what precedes and what follows the first occurrence of a piece;
* `PictureTape.Text.pieces` — what stands between separators;
* `PictureTape.Text.lines` — the lines of a text;
* `PictureTape.Text.trimmed` — a text without the blanks at its ends.

Main results:

* `after?_eq_some_iff`, `before?_eq_some_iff` — the piece and the rest make up the text;
* `eq_append_of_around?` — so do the two rests and the piece between them.
-/

set_option autoImplicit false
set_option relaxedAutoImplicit false

namespace PictureTape

namespace Text

/-! ### Starts and ends -/

/-- What follows `start`, if the text starts with it. -/
def after? (start s : List Char) : Option (List Char) :=
  if start.isPrefixOf s then some (s.drop start.length) else none

/-- What precedes `tail`, if the text ends in it. -/
def before? (tail s : List Char) : Option (List Char) :=
  if tail.isSuffixOf s then some (s.take (s.length - tail.length)) else none

theorem after?_eq_some_iff {start s rest : List Char} :
    after? start s = some rest ↔ s = start ++ rest := by
  constructor
  · intro h
    unfold after? at h
    split at h
    next hp =>
      obtain ⟨t, rfl⟩ := List.isPrefixOf_iff_prefix.1 hp
      simpa using h
    next => cases h
  · rintro rfl
    have hp : start.isPrefixOf (start ++ rest) = true :=
      List.isPrefixOf_iff_prefix.2 (List.prefix_append start rest)
    simp [after?, hp]

theorem before?_eq_some_iff {tail s rest : List Char} :
    before? tail s = some rest ↔ s = rest ++ tail := by
  constructor
  · intro h
    unfold before? at h
    split at h
    next hp =>
      obtain ⟨t, rfl⟩ := List.isSuffixOf_iff_suffix.1 hp
      simpa using h
    next => cases h
  · rintro rfl
    have hp : tail.isSuffixOf (rest ++ tail) = true :=
      List.isSuffixOf_iff_suffix.2 (List.suffix_append rest tail)
    simp [before?, hp]

/-! ### The first occurrence of a piece -/

/-- What precedes and what follows the first occurrence of `piece`. -/
def around? (piece : List Char) : List Char → Option (List Char × List Char)
  | [] => (after? piece []).map ([], ·)
  | c :: s =>
    match after? piece (c :: s) with
    | some rest => some ([], rest)
    | none => (around? piece s).map fun (front, rest) => (c :: front, rest)

theorem eq_append_of_around? {piece s front rest : List Char}
    (h : around? piece s = some (front, rest)) : s = front ++ piece ++ rest := by
  induction s generalizing front with
  | nil =>
    obtain ⟨r, hr, hfr⟩ := Option.map_eq_some_iff.1 h
    cases hfr
    simpa using after?_eq_some_iff.1 hr
  | cons c s ih =>
    unfold around? at h
    split at h
    next r hr =>
      cases h
      simpa using after?_eq_some_iff.1 hr
    next =>
      obtain ⟨⟨front', rest'⟩, hfr, heq⟩ := Option.map_eq_some_iff.1 h
      cases heq
      simp [ih hfr]

/-! ### Separators, lines and blanks -/

/-- What stands between the separators; there is one piece more than there are separators. -/
def pieces (separator : Char) : List Char → List (List Char)
  | [] => [[]]
  | c :: s =>
    if c = separator then [] :: pieces separator s
    else
      match pieces separator s with
      | [] => [[c]]
      | piece :: rest => (c :: piece) :: rest

/-- The lines of a text.  A line ends in a line feed, which a carriage return may precede; the last
one may lack its end. -/
def lines (s : List Char) : List (List Char) :=
  let parts := pieces '\n' s
  let ended := parts.dropLast.map fun line => (before? ['\r'] line).getD line
  ended ++ (parts.getLast?.filter (· ≠ [])).toList

example : lines "a\r\n\nb\r".toList = ["a".toList, [], "b\r".toList] ∧
    lines "a\n".toList = ["a".toList] ∧ lines [] = [] := by decide +kernel

/-- The characters with the property `White_Space`. -/
def isBlank (c : Char) : Bool :=
  let n := c.toNat
  (9 ≤ n && n ≤ 13) || n == 0x20 || n == 0x85 || n == 0xa0 || n == 0x1680 ||
    (0x2000 ≤ n && n ≤ 0x200a) || n == 0x2028 || n == 0x2029 || n == 0x202f || n == 0x205f ||
    n == 0x3000

/-- A text without the blanks at its two ends. -/
def trimmed (s : List Char) : List Char :=
  ((s.dropWhile isBlank).reverse.dropWhile isBlank).reverse

end Text

end PictureTape

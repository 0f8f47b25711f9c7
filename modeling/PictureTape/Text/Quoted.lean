/-
**Quoted text.**

Text is shown between double quotes.  A character that would end the quotes, that is a backslash, or
that would not show as itself is written as an escape: a short one where there is one, and otherwise
its number in hexadecimal.  A single quote needs no escape.

Main definitions:

* `PictureTape.Text.within` — is a code point in a table of ranges?
* `PictureTape.Text.escape` — what stands for a character between the quotes;
* `PictureTape.Text.quoted` — quoted text.
-/

import PictureTape.Text.GraphemeExtend
import PictureTape.Text.Hex
import PictureTape.Text.Unprintable

set_option autoImplicit false
set_option relaxedAutoImplicit false

namespace PictureTape

namespace Text

/-- Does one of the increasing ranges hold the code point?  The search ends at the first range that
starts above it. -/
def within : List (Nat × Nat) → Nat → Bool
  | [], _ => false
  | (low, high) :: rest, n => low ≤ n && (n ≤ high || within rest n)

/-- The number of a character as an escape. -/
def numberEscape (c : Char) : List Char :=
  ['\\', 'u', '\x7b'] ++ Nat.toDigits 16 c.toNat ++ ['\x7d']

/-- Does the character need its number to be seen? -/
def isInvisible (c : Char) : Bool := within graphemeExtend c.toNat || within unprintable c.toNat

/-- What stands for a character between double quotes. -/
def escape : Char → List Char
  | '\x00' => ['\\', '0']
  | '\t' => ['\\', 't']
  | '\n' => ['\\', 'n']
  | '\r' => ['\\', 'r']
  | '\"' => ['\\', '\"']
  | '\\' => ['\\', '\\']
  | c => if isInvisible c then numberEscape c else [c]

/-- Text between double quotes. -/
def quoted (s : String) : String :=
  String.ofList ('\"' :: s.toList.flatMap escape ++ ['\"'])

example : quoted "a'b\"" = "\"a'b\\\"\"" := by decide +kernel

example : quoted "\x01\u0301 é" = "\"\\u\x7b1\x7d\\u\x7b301\x7d é\"" := by decide +kernel

example : graphemeExtend.length = 382 ∧ unprintable.length = 745 := by decide +kernel

end Text

end PictureTape

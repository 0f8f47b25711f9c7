/-
**Hexadecimal numbers.**

Main definitions:

* `PictureTape.Text.hex` — the lower-case hexadecimal digits of a number, without leading zeros;
* `PictureTape.Text.hexWord` — the eight lower-case digits of a 32-bit word;
* `PictureTape.Text.upperHexWord` — the same in upper case.
-/

set_option autoImplicit false
set_option relaxedAutoImplicit false

namespace PictureTape

namespace Text

/-- The lower-case hexadecimal digits of a number. -/
def hex (n : Nat) : String := String.ofList (Nat.toDigits 16 n)

/-- The eight lower-case hexadecimal digits of a word. -/
def hexWord (w : UInt32) : String :=
  String.ofList ((Nat.toDigits 16 w.toNat).leftpad 8 '0')

/-- The eight upper-case hexadecimal digits of a word. -/
def upperHexWord (w : UInt32) : String := (hexWord w).map Char.toUpper

example : hexWord 0x70e = "0000070e" ∧ upperHexWord 0xff00ff00 = "FF00FF00" := by decide +kernel

end Text

end PictureTape

/-
**Where a decimal is cut by its point.**

The digits of a decimal are settled by `PictureTape.Dyadic.shortest`; a layout settles how they are
written down: which numbers are written out positionally and which with a power of ten, and whether
a whole number keeps a point.

Main definitions:

* `PictureTape.Layout` — the two choices;
* `Layout.plain` — always positional, a whole number has no point;
* `Layout.pointed` — positional from `10 ^ -4` up to `10 ^ 16`, a whole number ends in `.0`;
* `Layout.write` — the text of a decimal.
-/

import PictureTape.Decimal.Shortest

set_option autoImplicit false
set_option relaxedAutoImplicit false

namespace PictureTape

namespace Decimal

/-- The decimal digits of the coefficient, most significant first. -/
def digits (d : Decimal) : List Char := Nat.toDigits 10 d.coefficient

/-- The power of ten of the leading digit. -/
def leadingPlace (d : Decimal) : Int := d.exponent + d.digits.length - 1

end Decimal

/-- How decimals are written. -/
structure Layout where
  /-- Is a number whose leading digit stands at this power of ten written out positionally? -/
  isPositional : Int → Bool
  /-- What follows the last digit of a number that is written out without a fraction. -/
  wholeEnd : List Char

namespace Layout

/-- Every number is written out, and a whole number has no point. -/
def plain : Layout := ⟨fun _ => true, []⟩

/-- Numbers from `10 ^ -4` up to `10 ^ 16` are written out, and a whole number ends in `.0`. -/
def pointed : Layout := ⟨fun place => -4 ≤ place && place < 16, ['.', '0']⟩

/-- The digits around the point of a number that is written out. -/
def writeOut (layout : Layout) (d : Decimal) : List Char :=
  let whole := d.digits.length + d.exponent
  if 0 ≤ d.exponent then
    d.digits ++ List.replicate d.exponent.toNat '0' ++ layout.wholeEnd
  else if 0 < whole then
    d.digits.take whole.toNat ++ '.' :: d.digits.drop whole.toNat
  else
    '0' :: '.' :: List.replicate (-whole).toNat '0' ++ d.digits

/-- One digit before the point, the others behind it, and the power of ten. -/
def writeScaled (d : Decimal) : List Char :=
  let fraction := d.digits.drop 1
  d.digits.take 1 ++ (if fraction = [] then [] else '.' :: fraction) ++
    'e' :: (toString d.leadingPlace).toList

/-- The text of a decimal. -/
def write (layout : Layout) (d : Decimal) : List Char :=
  if layout.isPositional d.leadingPlace then layout.writeOut d else writeScaled d

example : plain.write ⟨15, -6⟩ = "0.000015".toList := by decide +kernel

example : pointed.write ⟨15, -6⟩ = "1.5e-5".toList := by decide +kernel

example : plain.write ⟨15, -1⟩ = "1.5".toList ∧ plain.write ⟨2, 3⟩ = "2000".toList := by
  decide +kernel

example : pointed.write ⟨1, 16⟩ = "1e16".toList ∧ pointed.write ⟨1, 0⟩ = "1.0".toList := by
  decide +kernel

end Layout

end PictureTape

/-
**The text of a binary32 number.**

A finite number is written with the fewest digits that read back as the same number, the sign of a
zero included; the infinities are `inf` and `-inf`, and every NaN is `NaN`, whatever its sign.

Main definitions:

* `PictureTape.Binary32.dyadic` — the magnitude of a finite number with its rounding interval;
* `Binary32.text` — the text in a layout.
-/

import PictureTape.Binary32.Basic
import PictureTape.Decimal.Layout

set_option autoImplicit false
set_option relaxedAutoImplicit false

namespace PictureTape

namespace Binary32

/-- The magnitude of a finite number, with what a reader of decimals rounds to it. -/
def dyadic (x : Binary32) : Dyadic := ⟨x.significand, x.exponent, x.isNarrowBelow⟩

/-- The shortest decimal of a finite magnitude. -/
def decimal (x : Binary32) : Decimal :=
  if x.magnitudeBits = 0 then ⟨0, 0⟩ else x.dyadic.shortest

/-- The text of a number in the given layout. -/
def text (layout : Layout) (x : Binary32) : String :=
  if x.isNaN then "NaN"
  else
    let sign := if x.isNegative then "-" else ""
    let magnitude := if x.isFinite then String.ofList (layout.write x.decimal) else "inf"
    sign ++ magnitude

example : (3 / 10 : Binary32).text .plain = "0.3" := by decide +kernel

example : (⟨0x80000000⟩ : Binary32).text .plain = "-0" := by decide +kernel

example : (⟨0xff800000⟩ : Binary32).text .pointed = "-inf" := by decide +kernel

end Binary32

end PictureTape

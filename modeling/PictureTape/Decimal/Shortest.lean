/-
**The shortest decimal that stands for a binary number.**

A reader of decimals rounds to the nearest binary number, so every decimal inside the interval of
reals that round to `x` stands for `x`.  Among those the ones on the coarsest grid of powers of ten
have the fewest digits, and of those the one nearest to `x` is taken; of two equally near the larger
one.

The interval is measured in quarters of the last binary place: it reaches half a place up, and half
a place down, or a quarter when the binary number below is nearer.  The ends belong to it when the
significand is even, since ties go to the even neighbour when a decimal is read.

Main definitions:

* `PictureTape.Decimal` — `coefficient * 10 ^ exponent`;
* `PictureTape.Dyadic` — `significand * 2 ^ exponent`, with the width of its interval;
* `Dyadic.onGrid?` — the multiple of a power of ten that stands for it, if there is one;
* `Dyadic.shortest` — the one on the coarsest grid.
-/

set_option autoImplicit false
set_option relaxedAutoImplicit false

namespace PictureTape

/-- The number `coefficient * 10 ^ exponent`. -/
structure Decimal where
  coefficient : Nat
  exponent : Int
deriving DecidableEq, Repr

/-- The number `significand * 2 ^ exponent`, as an element of a binary format. -/
structure Dyadic where
  significand : Nat
  exponent : Int
  /-- Is the number below only half as far away as the number above? -/
  isNarrowBelow : Bool
deriving DecidableEq, Repr

namespace Dyadic

/-- Quarters of the last binary place from the lower end of the interval to the number. -/
def quartersBelow (x : Dyadic) : Nat := if x.isNarrowBelow then 1 else 2

/-- The factor from quarters of the last place to units of the grid `10 ^ place`, as a numerator
and a denominator. -/
def gridScale (x : Dyadic) (place : Int) : Nat × Nat :=
  (Nat.pow 2 x.exponent.toNat * Nat.pow 10 (-place).toNat,
    4 * Nat.pow 2 (-x.exponent).toNat * Nat.pow 10 place.toNat)

/-- Does `n * 10 ^ place` lie in the interval of numbers that round to `x`? -/
def covers (x : Dyadic) (place : Int) (n : Nat) : Bool :=
  let (num, den) := x.gridScale place
  let low := (4 * x.significand - x.quartersBelow) * num
  let high := (4 * x.significand + 2) * num
  if x.significand % 2 = 0 then low ≤ n * den && n * den ≤ high
  else low < n * den && n * den < high

/-- The multiple of `10 ^ place` nearest to `x` among its two neighbours in the interval; the upper
one when both are equally near. -/
def onGrid? (x : Dyadic) (place : Int) : Option Nat :=
  let (num, den) := x.gridScale place
  let value := 4 * x.significand * num
  let below := value / den
  match x.covers place below, x.covers place (below + 1) with
  | true, true => if 2 * (value % den) < den then some below else some (below + 1)
  | true, false => some below
  | false, true => some (below + 1)
  | false, false => none

/-- A grid on which the number itself lies. -/
def finestPlace (x : Dyadic) : Int := min x.exponent 0

/-- How many grids, from the finest one up, can hold a digit of the number. -/
def gridCount (x : Dyadic) : Nat :=
  (max (x.significand.log2 + x.exponent) 0 - x.finestPlace).toNat + 2

/-- The number itself, on its finest grid. -/
def exactly (x : Dyadic) : Decimal :=
  ⟨x.significand * Nat.pow 2 x.exponent.toNat * Nat.pow 5 (-x.exponent).toNat, x.finestPlace⟩

/-- The coarsest of the `n` grids above the finest one that has a point in the interval, and its
point; the number itself if none has one. -/
def coarsest (x : Dyadic) : Nat → Decimal
  | 0 => x.exactly
  | n + 1 =>
    match x.onGrid? (x.finestPlace + n) with
    | some c => ⟨c, x.finestPlace + n⟩
    | none => coarsest x n

/-- **The decimal with the fewest digits that reads back as the number,** and of those the nearest
to it. -/
def shortest (x : Dyadic) : Decimal := x.coarsest x.gridCount

example : shortest ⟨13421773, -27, false⟩ = ⟨1, -1⟩ := by decide +kernel

example : shortest ⟨1, -149, false⟩ = ⟨1, -45⟩ := by decide +kernel

example : shortest ⟨0x800000, 104, true⟩ = ⟨17014118, 31⟩ := by decide +kernel

end Dyadic

end PictureTape

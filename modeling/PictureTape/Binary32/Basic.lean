/-
**Single-precision numbers as bit patterns.**

A coordinate, a stroke width or a color channel is a binary32 number.  A picture stores the bits of
such a number and gives the very same bits back, so the bits are the value: two NaNs that differ in
their payload are different values here, and `0` and `-0` are as well.  Equality and order *as
numbers* are separate relations, `agrees` and `lt`.

Main definitions:

* `PictureTape.Binary32` — a number, given by its bits;
* `Binary32.rank` — a signed integer that orders the numbers, with both zeros at `0`;
* `Binary32.agrees`, `Binary32.lt` — equality and order as numbers: a NaN satisfies neither;
* `Binary32.significand`, `Binary32.exponent` — a finite magnitude is
  `significand * 2 ^ exponent`;
* `Binary32.roundedMagnitude` — the integer nearest to a finite magnitude, a half going up.

Sums, products and quotients are the correctly rounded operations of `Float32`.
-/

set_option autoImplicit false
set_option relaxedAutoImplicit false

namespace PictureTape

/-- A binary32 number, given by its bits: sign, eight bits of biased exponent, fraction. -/
structure Binary32 where
  bits : UInt32
deriving DecidableEq, Inhabited, Repr

namespace Binary32

/-! ### Arithmetic -/

/-- The bits of a machine number. -/
def ofFloat (x : Float32) : Binary32 := ⟨x.toBits⟩

/-- The machine number with these bits. -/
def toFloat (x : Binary32) : Float32 := Float32.ofBits x.bits

/-- The number nearest to a natural number. -/
def ofNat (n : Nat) : Binary32 := ofFloat (Float32.ofNat n)

instance (n : Nat) : OfNat Binary32 n := ⟨ofNat n⟩

instance : Add Binary32 := ⟨fun x y => ofFloat (x.toFloat + y.toFloat)⟩

instance : Mul Binary32 := ⟨fun x y => ofFloat (x.toFloat * y.toFloat)⟩

instance : Div Binary32 := ⟨fun x y => ofFloat (x.toFloat / y.toFloat)⟩

example : (0 : Binary32).bits = 0 ∧ (1 : Binary32).bits = 0x3f800000 := by decide +kernel

example : (2 / 3 : Binary32).bits = 0x3f2aaaab := by decide +kernel

/-! ### The three fields -/

/-- Is the sign bit set?  It is for `-0` and may be for a NaN. -/
def isNegative (x : Binary32) : Bool := 0x80000000 ≤ x.bits.toNat

/-- The bits below the sign, as a number: they grow with the magnitude. -/
def magnitudeBits (x : Binary32) : Nat := x.bits.toNat % 0x80000000

/-- The exponent field, from `0` to `255`. -/
def biasedExponent (x : Binary32) : Nat := x.magnitudeBits / 0x800000

/-- The fraction field, of 23 bits. -/
def fraction (x : Binary32) : Nat := x.magnitudeBits % 0x800000

/-! ### Kinds of numbers -/

/-- Neither infinite nor a NaN. -/
def isFinite (x : Binary32) : Bool := x.biasedExponent < 255

/-- Not a number. -/
def isNaN (x : Binary32) : Bool := x.biasedExponent == 255 && x.fraction != 0

/-- A finite number is not a NaN. -/
theorem isNaN_of_isFinite {x : Binary32} (h : x.isFinite = true) : x.isNaN = false := by
  have hx : x.biasedExponent < 255 := by simpa [isFinite] using h
  have hne : x.biasedExponent ≠ 255 := Nat.ne_of_lt hx
  simp [isNaN, hne]

/-! ### Equality and order as numbers -/

/-- A signed integer that grows with the number; it is `0` for both zeros. -/
def rank (x : Binary32) : Int :=
  if x.isNegative then -(x.magnitudeBits : Int) else x.magnitudeBits

/-- Equal as numbers: `0` and `-0` agree, and a NaN agrees with nothing. -/
def agrees (x y : Binary32) : Bool :=
  !x.isNaN && !y.isNaN && x.rank == y.rank

/-- Less than, as numbers: never true of a NaN. -/
def lt (x y : Binary32) : Bool :=
  !x.isNaN && !y.isNaN && decide (x.rank < y.rank)

theorem agrees_iff {x y : Binary32} :
    x.agrees y = true ↔ x.isNaN = false ∧ y.isNaN = false ∧ x.rank = y.rank := by
  simp [agrees, and_assoc]

/-- A number agrees with itself exactly when it is not a NaN. -/
theorem agrees_self (x : Binary32) : x.agrees x = !x.isNaN := by
  simp [agrees]

theorem agrees_comm (x y : Binary32) : x.agrees y = y.agrees x := by
  rw [Bool.eq_iff_iff, agrees_iff, agrees_iff]
  constructor <;> rintro ⟨h₁, h₂, h₃⟩ <;> exact ⟨h₂, h₁, h₃.symm⟩

theorem agrees_trans {x y z : Binary32} (hxy : x.agrees y = true) (hyz : y.agrees z = true) :
    x.agrees z = true := by
  rw [agrees_iff] at hxy hyz ⊢
  exact ⟨hxy.1, hyz.2.1, hxy.2.2.trans hyz.2.2⟩

/-! ### Finite magnitudes -/

/-- The integer part of the scaled magnitude, with the leading bit that the format leaves out. -/
def significand (x : Binary32) : Nat :=
  if x.biasedExponent = 0 then x.fraction else x.fraction + 0x800000

/-- The power of two that scales the significand. -/
def exponent (x : Binary32) : Int := (max x.biasedExponent 1 : Nat) - 150

/-- Is the number below nearer than the number above?  It is at the powers of two, down to the
smallest number with a full significand. -/
def isNarrowBelow (x : Binary32) : Bool := x.fraction == 0 && decide (1 < x.biasedExponent)

/-- The integer nearest to a finite magnitude; a half goes up. -/
def roundedMagnitude (x : Binary32) : Nat :=
  if 0 ≤ x.exponent then x.significand * Nat.pow 2 x.exponent.toNat
  else (2 * x.significand + Nat.pow 2 (-x.exponent).toNat) / (2 * Nat.pow 2 (-x.exponent).toNat)

example : (1 / 2 : Binary32).roundedMagnitude = 1 ∧ (5 / 2 : Binary32).roundedMagnitude = 3 := by
  decide +kernel

end Binary32

end PictureTape

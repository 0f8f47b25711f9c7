/-
**Color channels.**

An intensity goes from zero to one.  It can be given as a number or as a byte, where `255` stands
for one, and it can be scaled back to the full range of an unsigned integer.

Main definitions:

* `PictureTape.Intensity` — a number from zero to one;
* `Intensity.new?` — a number as an intensity, if it is in range;
* `Intensity.ofByte` — a byte as an intensity;
* `Intensity.scaled` — the share of a largest value, rounded to the nearest integer.
-/

import PictureTape.Binary32.Basic

set_option autoImplicit false
set_option relaxedAutoImplicit false

namespace PictureTape

/-- Neither a NaN, nor below zero, nor above one; `-0` is in range. -/
def Binary32.isUnit (x : Binary32) : Bool := !x.isNaN && !x.lt 0 && !Binary32.lt 1 x

/-- A number from zero to one. -/
structure Intensity where
  value : Binary32
  isUnit_value : value.isUnit = true
deriving DecidableEq, Repr

namespace Intensity

/-- No intensity. -/
def zero : Intensity := ⟨0, by decide +kernel⟩

/-- Full intensity. -/
def one : Intensity := ⟨1, by decide +kernel⟩

instance : Inhabited Intensity := ⟨zero⟩

/-- A number as an intensity; none if it is out of range. -/
def new? (x : Binary32) : Option Intensity :=
  if h : x.isUnit = true then some ⟨x, h⟩ else none

/-- The intensity of a number is the number. -/
theorem new?_eq_some_iff {x : Binary32} {i : Intensity} : new? x = some i ↔ i.value = x := by
  constructor
  · intro h
    unfold new? at h
    split at h
    · cases h
      rfl
    · cases h
  · rintro rfl
    simp [new?, i.isUnit_value]

/-- A share of `255` is in range, and as a share of `255` it gives back the byte. -/
theorem isUnit_and_rounded_share {n : Nat} (h : n < 256) :
    (Binary32.ofNat n / 255).isUnit = true ∧
      (Binary32.ofNat 255 * (Binary32.ofNat n / 255)).roundedMagnitude = n := by
  have hall : ∀ i : Fin 256, (Binary32.ofNat i.val / 255).isUnit = true ∧
      (Binary32.ofNat 255 * (Binary32.ofNat i.val / 255)).roundedMagnitude = i.val := by
    decide +kernel
  exact hall ⟨n, h⟩

/-- The intensity that a byte stands for. -/
def ofByte (n : UInt8) : Intensity :=
  have h : (Binary32.ofNat n.toNat / 255).isUnit = true := (isUnit_and_rounded_share n.toNat_lt).1
  ⟨Binary32.ofNat n.toNat / 255, h⟩

/-- This share of `top`, rounded to the nearest integer; a half goes up. -/
def scaled (i : Intensity) (top : Nat) : Nat := (.ofNat top * i.value).roundedMagnitude

/-- This share of `255`. -/
def toByte (i : Intensity) : UInt8 := .ofNat (i.scaled 255)

/-- This share of `65535`. -/
def toHalfWord (i : Intensity) : UInt16 := .ofNat (i.scaled 65535)

/-- A byte is not changed on its way through an intensity. -/
@[simp] theorem toByte_ofByte (n : UInt8) : (ofByte n).toByte = n := by
  simp only [toByte, scaled, ofByte, (isUnit_and_rounded_share n.toNat_lt).2]
  exact UInt8.ofNat_toNat

/-- Equal as numbers. -/
def agrees (i j : Intensity) : Bool := i.value.agrees j.value

end Intensity

end PictureTape

/-
**Colors.**

A color has four intensities.  It can be packed into a word, one byte for each channel with alpha
in the highest, and a word can be unpacked again; packing rounds each channel to a byte.

Main definitions:

* `PictureTape.Color` — red, green, blue and alpha;
* `Color.ofChannels?` — a color from four numbers, if all are in range;
* `Color.ofArgb`, `Color.toArgb` — unpacking and packing;
* `Color.agrees`, `Color.compare` — equality and lexicographic order as numbers.

Main result:

* `Color.toArgb_ofArgb` — **a word is not changed by unpacking and packing it.**
-/

import PictureTape.Intensity
import PictureTape.Text.Hex

set_option autoImplicit false
set_option relaxedAutoImplicit false

namespace PictureTape

/-- A color with an alpha channel. -/
structure Color where
  red : Intensity
  green : Intensity
  blue : Intensity
  alpha : Intensity
deriving DecidableEq, Repr

namespace Color

/-! ### Named colors -/

/-- Every channel at zero, alpha too. -/
def clear : Color := ⟨.zero, .zero, .zero, .zero⟩

/-- Opaque white. -/
def white : Color := ⟨.one, .one, .one, .one⟩

/-- Opaque black. -/
def black : Color := ⟨.zero, .zero, .zero, .one⟩

/-- Opaque red. -/
def pureRed : Color := ⟨.one, .zero, .zero, .one⟩

/-- Opaque green. -/
def pureGreen : Color := ⟨.zero, .one, .zero, .one⟩

/-- Opaque blue. -/
def pureBlue : Color := ⟨.zero, .zero, .one, .one⟩

/-- Opaque yellow. -/
def yellow : Color := ⟨.one, .one, .zero, .one⟩

instance : Inhabited Color := ⟨clear⟩

/-- A color from its channels; none if one of them is out of range. -/
def ofChannels? (red green blue alpha : Binary32) : Option Color := do
  return ⟨← Intensity.new? red, ← Intensity.new? green, ← Intensity.new? blue,
    ← Intensity.new? alpha⟩

/-! ### Packed colors -/

/-- The color that a word stands for: alpha, red, green and blue from the highest byte down. -/
def ofArgb (argb : UInt32) : Color where
  red := .ofByte (argb >>> 16).toUInt8
  green := .ofByte (argb >>> 8).toUInt8
  blue := .ofByte argb.toUInt8
  alpha := .ofByte (argb >>> 24).toUInt8

/-- The channels as bytes, alpha in the highest, then red, green and blue. -/
def toArgb (c : Color) : UInt32 :=
  .ofNat (((c.alpha.toByte.toNat * 256 + c.red.toByte.toNat) * 256 + c.green.toByte.toNat) * 256 +
    c.blue.toByte.toNat)

/-- **A word is not changed by unpacking and packing it.** -/
@[simp] theorem toArgb_ofArgb (argb : UInt32) : (ofArgb argb).toArgb = argb := by
  have h := argb.toNat_lt
  apply UInt32.toNat_inj.1
  simp only [toArgb, ofArgb, Intensity.toByte_ofByte, UInt32.toNat_toUInt8,
    UInt32.toNat_shiftRight, Nat.shiftRight_eq_div_pow, UInt32.toNat_ofNat',
    UInt32.reduceToNat, Nat.reduceMod, Nat.reducePow]
  omega

/-! ### Equality and order as numbers -/

/-- Equal as numbers, channel by channel. -/
def agrees (c d : Color) : Bool :=
  c.red.agrees d.red && c.green.agrees d.green && c.blue.agrees d.blue && c.alpha.agrees d.alpha

/-- The ranks of the channels, in the order in which colors are compared. -/
def ranks (c : Color) : List Int :=
  [c.red.value.rank, c.green.value.rank, c.blue.value.rank, c.alpha.value.rank]

/-- Lexicographic order over red, green, blue and alpha, as numbers. -/
def compare (c d : Color) : Ordering := Ord.compare c.ranks d.ranks

/-- The packed color, as it is shown in text. -/
def text (c : Color) : String := "Color(0x" ++ Text.upperHexWord c.toArgb ++ ")"

example : text yellow = "Color(0xFFFFFF00)" := by decide +kernel

end Color

end PictureTape

/-
**Writing fields.**

A picture is stored as a sequence of fields.  Words are little-endian, numbers are stored by their
bits, and a string of bytes is preceded by its length and filled up with zeros to a whole number of
words.  A string that is absent has the largest word in place of its length.

Main definitions:

* `PictureTape.Wire.word`, `Wire.number`, `Wire.rect` — words, numbers and rectangles;
* `Wire.padded`, `Wire.optional` — strings of bytes, and strings that may be absent;
* `Wire.tag` — the word that is spelled by four characters, from the highest byte down;
* `Wire.ofText`, `Wire.toText?` — text in UTF-8.
-/

import PictureTape.Command

set_option autoImplicit false
set_option relaxedAutoImplicit false

namespace PictureTape

namespace Wire

/-! ### Words and numbers -/

/-- The four bytes of a word, the lowest first. -/
def word (w : UInt32) : Bytes :=
  [.ofNat w.toNat, .ofNat (w.toNat / 0x100), .ofNat (w.toNat / 0x10000),
    .ofNat (w.toNat / 0x1000000)]

/-- The bits of a number. -/
def number (x : Binary32) : Bytes := word x.bits

/-- An offset: two numbers. -/
def offset (v : Offset) : Bytes := number v.x ++ number v.y

/-- A rectangle: its origin and its size. -/
def rect (r : Rect) : Bytes := number r.x ++ number r.y ++ number r.width ++ number r.height

@[simp] theorem length_word (w : UInt32) : (word w).length = 4 := rfl

@[simp] theorem length_number (x : Binary32) : (number x).length = 4 := rfl

@[simp] theorem length_offset (v : Offset) : (offset v).length = 8 := rfl

@[simp] theorem length_rect (r : Rect) : (rect r).length = 16 := rfl

/-! ### Strings of bytes -/

/-- How many zeros fill up a string of `n` bytes to a whole number of words. -/
def padding (n : Nat) : Nat := (4 - n % 4) % 4

/-- A length rounded up to a whole number of words. -/
def roundedUp (n : Nat) : Nat := n + padding n

/-- A rounded length is a whole number of words. -/
theorem roundedUp_mod (n : Nat) : roundedUp n % 4 = 0 := by
  unfold roundedUp padding
  omega

/-- The length of a string, its bytes, and zeros up to a whole number of words. -/
def padded (bytes : Bytes) : Bytes :=
  word (.ofNat bytes.length) ++ (bytes ++ List.replicate (padding bytes.length) 0)

/-- What stands in place of the length of a string that is absent. -/
def absent : UInt32 := 0xffffffff

/-- A string that may be absent. -/
def optional : Option Bytes → Bytes
  | none => word absent
  | some bytes => padded bytes

@[simp] theorem length_padded (bytes : Bytes) :
    (padded bytes).length = 4 + roundedUp bytes.length := by
  simp [padded, roundedUp]

@[simp] theorem length_optional_none : (optional none).length = 4 := rfl

@[simp] theorem length_optional_some (bytes : Bytes) :
    (optional (some bytes)).length = 4 + roundedUp bytes.length := length_padded bytes

/-! ### Tags -/

/-- The word that four characters spell, the first of them in the highest byte. -/
def tag (a b c d : Char) : UInt32 :=
  .ofNat (((a.toNat * 0x100 + b.toNat) * 0x100 + c.toNat) * 0x100 + d.toNat)

example : word (tag 'e' 'o' 'f' ' ') = [0x20, 0x66, 0x6f, 0x65] := by decide +kernel

/-! ### Text -/

/-- The bytes of a text in UTF-8. -/
def ofText (s : String) : Bytes := s.toByteArray.data.toList

/-- The text that bytes in UTF-8 spell. -/
def toText? (bytes : Bytes) : Option String := String.fromUTF8? ⟨bytes.toArray⟩

/-- **Bytes spell a text exactly when they are its bytes.** -/
theorem toText?_eq_some_iff {bytes : Bytes} {s : String} :
    toText? bytes = some s ↔ bytes = ofText s := by
  constructor
  · intro h
    unfold toText? String.fromUTF8? at h
    split at h
    · cases h
      rfl
    · cases h
  · rintro rfl
    have hv : s.toByteArray.IsValidUTF8 := s.isValidUTF8
    simp [toText?, String.fromUTF8?, ofText, hv, String.fromUTF8]

end Wire

end PictureTape

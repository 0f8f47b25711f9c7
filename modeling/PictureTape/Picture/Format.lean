/-
**The format of stored pictures.**

A stored picture has a head and a body.  The head is eight fixed bytes, the version of the format,
the bounds, and a byte that is zero when there is no body.  The body has two parts, each with a tag
in front of it, and an end tag: the commands, one after the other, behind their total length, and
the paints behind their number.

A command starts with a word whose highest byte is its code and whose other bytes are its size, that
word included.  A rectangle refers to its paint by the position of the paint in the table.

Main definitions:

* `Picture.magic`, `Picture.version`, `Picture.commandTag`, `Picture.paintTag`, `Picture.endTag` —
  the fixed fields;
* `Command.payload` — a command behind its first word;
* `Command.size` — the size of a command;
* `Paint.stored` — an entry of the paint table.
-/

import PictureTape.Picture.Basic
import PictureTape.Wire.Writer

set_option autoImplicit false
set_option relaxedAutoImplicit false

namespace PictureTape

/-! ### Fixed fields -/

namespace Picture

/-- The bytes that a stored picture starts with. -/
def magic : Bytes := [0x73, 0x6b, 0x69, 0x61, 0x70, 0x69, 0x63, 0x74]

example : Wire.toText? magic = some "skiapict" := by decide +kernel

/-- The version of the format. -/
def version : UInt32 := 1

/-- The tag before the commands. -/
def commandTag : UInt32 := Wire.tag 'r' 'e' 'a' 'd'

/-- The tag before the paints. -/
def paintTag : UInt32 := Wire.tag 'p' 'n' 't' ' '

/-- The tag at the end of the body. -/
def endTag : UInt32 := Wire.tag 'e' 'o' 'f' ' '

end Picture

/-! ### Commands -/

namespace Command

/-- The largest size of a command that fits its field. -/
def largestSize : Nat := 0xffffff

/-- The first word of a command. -/
def header (code : UInt8) (size : Nat) : UInt32 := .ofNat (code.toNat * 0x1000000 + size)

/-- The code in the first word of a command. -/
def headerCode (header : UInt32) : UInt8 := .ofNat (header.toNat / 0x1000000)

/-- The size in the first word of a command. -/
def headerSize (header : UInt32) : Nat := header.toNat % 0x1000000

/-- A code and a size that fits can be told from the first word. -/
theorem headerCode_header {code : UInt8} {size : Nat} (h : size ≤ largestSize) :
    headerCode (header code size) = code := by
  have hc := code.toNat_lt
  unfold largestSize at h
  apply UInt8.toNat_inj.1
  simp only [headerCode, header, UInt8.toNat_ofNat', UInt32.toNat_ofNat', Nat.reducePow] at *
  omega

theorem headerSize_header {code : UInt8} {size : Nat} (h : size ≤ largestSize) :
    headerSize (header code size) = size := by
  have hc := code.toNat_lt
  unfold largestSize at h
  simp only [headerSize, header, UInt32.toNat_ofNat', Nat.reducePow] at *
  omega

/-- What stands behind the first word of a command; `index` is the position of its paint. -/
def payload (index : Nat) : Command → Bytes
  | save => []
  | restore => []
  | translate v => Wire.offset v
  | drawRect r _ => Wire.word (.ofNat index) ++ Wire.rect r
  | annotate r key value => Wire.rect r ++ (Wire.padded (Wire.ofText key) ++ Wire.optional value)

/-- The size of a command, its first word included. -/
def size : Command → Nat
  | save => 4
  | restore => 4
  | translate _ => 12
  | drawRect _ _ => 24
  | annotate _ key value =>
    28 + Wire.roundedUp (Wire.ofText key).length +
      (value.elim 0 fun bytes => Wire.roundedUp bytes.length)

/-- The size of a command is that of its first word and of what stands behind it. -/
theorem length_payload (index : Nat) (c : Command) : (c.payload index).length + 4 = c.size := by
  cases c with
  | save => rfl
  | restore => rfl
  | translate v => rfl
  | drawRect r p => rfl
  | annotate r key value => cases value <;> simp [payload, size] <;> omega

end Command

/-! ### Paints -/

/-- The entry of a paint in the paint table: its packed color, its width, its style, whether edges
are smoothed, and two bytes that are not used. -/
def Paint.stored (p : Paint) : Bytes :=
  Wire.word p.color.toArgb ++ (Wire.number p.strokeWidth ++
    [p.style.toByte, if p.antiAlias then 1 else 0, 0, 0])

@[simp] theorem Paint.length_stored (p : Paint) : p.stored.length = 12 := rfl

end PictureTape

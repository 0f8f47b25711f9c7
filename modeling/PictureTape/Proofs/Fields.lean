/-
**Fields in a row.**

Nothing stands between two fields: where one ends is known only from its own bytes, and a reader
that stopped a byte too early or too late would take all fields behind it for something else.  That
this cannot happen is a matter of one field at a time, if nothing is assumed of the bytes that
follow it.  The induction is then on the fields: what follows the first of them is the others, and
what follows those.

Not every field that is written is read back.  A rectangle with a number that is not finite is
refused; a length of `2 ^ 32` or more is cut down to its lowest word, and a string that may be
absent is taken to be so if this is the largest word.  There are no other exceptions, and no bytes
behind the field mend one of these, since no reader ever gives such a value.

Main definitions:

* `PictureTape.Wire.Field`, `Wire.Field.Kind` — a field with its value, and what a reader is told of
  it;
* `Field.bytes`, `Field.bytesOf` — what is written for a field, and for several in a row;
* `Kind.read`, `Kind.readAll` — the readers that match;
* `Field.Fits` — the values that have a place in a field.

Main results:

* `Field.read_append` — a field that fits is read back, whatever follows it;
* `Field.fits_of_read` — whatever bytes a field is read from, it fits;
* `Field.readAll_bytesOf_append_eq_ok_iff` — **fields in a row are read back exactly if each of them
  fits,** and each takes a whole number of words;
* `Field.eq_of_bytesOf_append_eq` — **no bytes can be divided into fields of the same kinds in two
  ways.**
-/

import PictureTape.Proofs.Acceptance

set_option autoImplicit false
set_option relaxedAutoImplicit false

namespace PictureTape

namespace Wire

/-- A field with its value. -/
inductive Field
  | word (w : UInt32)
  | rect (r : Rect)
  | padded (content : Bytes)
  | optional (value : Option Bytes)
deriving DecidableEq, Repr

namespace Field

/-- What a reader is told of a field. -/
inductive Kind
  | word
  | rect
  | padded
  | optional
deriving DecidableEq, Repr

/-- The kind of a field. -/
def kind : Field → Kind
  | word _ => .word
  | rect _ => .rect
  | padded _ => .padded
  | optional _ => .optional

/-- What is written for a field. -/
def bytes : Field → Bytes
  | word w => Wire.word w
  | rect r => Wire.rect r
  | padded content => Wire.padded content
  | optional value => Wire.optional value

/-- What is written for several fields in a row. -/
def bytesOf (fields : List Field) : Bytes := fields.flatMap bytes

/-- The next field, which is known to be of this kind. -/
def Kind.read : Kind → Reader Field
  | word => do
    let w ← Reader.word
    return .word w
  | rect => do
    let r ← Reader.rect
    return .rect r
  | padded => do
    let content ← Reader.padded
    return .padded content
  | optional => do
    let value ← Reader.optional
    return .optional value

/-- The next fields, which are known to be of these kinds. -/
def Kind.readAll (kinds : List Kind) : Reader (List Field) := kinds.mapM read

/-- Has the value a place in the field?  The numbers of a rectangle are finite, the length of a
string is less than `2 ^ 32`, and that of a string that may be absent is less than the word for an
absent one, `2 ^ 32 - 1`. -/
def Fits : Field → Prop
  | word _ => True
  | rect r => r.isFinite = true
  | padded content => content.length < UInt32.size
  | optional none => True
  | optional (some content) => content.length < absent.toNat

instance : DecidablePred Fits
  | word _ => inferInstanceAs (Decidable True)
  | rect r => inferInstanceAs (Decidable (r.isFinite = true))
  | padded content => inferInstanceAs (Decidable (content.length < UInt32.size))
  | optional none => inferInstanceAs (Decidable True)
  | optional (some content) => inferInstanceAs (Decidable (content.length < absent.toNat))

@[simp] theorem bytesOf_cons (f : Field) (fields : List Field) :
    bytesOf (f :: fields) = f.bytes ++ bytesOf fields := List.flatMap_cons

theorem Kind.readAll_cons (k : Kind) (kinds : List Kind) :
    readAll (k :: kinds) = (do
      let f ← k.read
      let fields ← readAll kinds
      return f :: fields) := List.mapM_cons

/-! ### One field -/

/-- A field takes a whole number of words, whatever its value is. -/
theorem length_bytes_mod (f : Field) : f.bytes.length % 4 = 0 := by
  have hpadded : ∀ content : Bytes, (Wire.padded content).length % 4 = 0 := by
    intro content
    have hrounded := roundedUp_mod content.length
    rw [length_padded]
    omega
  cases f with
  | word w => rw [bytes, length_word]
  | rect r => rw [bytes, length_rect]
  | padded content => exact hpadded content
  | optional value =>
      cases value with
      | none => rfl
      | some content => exact hpadded content

/-- A field that fits is read back, and nothing of what follows it is taken. -/
theorem read_append {f : Field} (h : f.Fits) (rest : Bytes) :
    f.kind.read (f.bytes ++ rest) = .ok (f, rest) := by
  cases f with
  | word w => exact Reader.bind_of_ok (Reader.word_append w rest)
  | rect r => exact Reader.bind_of_ok (Reader.rect_append h rest)
  | padded content => exact Reader.bind_of_ok (Reader.padded_append h rest)
  | optional value =>
      cases value with
      | none => exact Reader.bind_of_ok (Reader.optional_append_none rest)
      | some content => exact Reader.bind_of_ok (Reader.optional_append_some h rest)

/-- Whatever bytes a field is read from, it fits. -/
theorem fits_of_read {k : Kind} {input rest : Bytes} {f : Field}
    (h : k.read input = .ok (f, rest)) : f.Fits := by
  cases k with
  | word =>
      obtain ⟨w, _, -, ⟨⟩⟩ := Reader.bind_eq_ok_iff.1 h
      exact trivial
  | rect =>
      obtain ⟨r, _, hrect, ⟨⟩⟩ := Reader.bind_eq_ok_iff.1 h
      exact (Reader.rect_eq_ok_iff.1 hrect).2
  | padded =>
      obtain ⟨content, _, hread, ⟨⟩⟩ := Reader.bind_eq_ok_iff.1 h
      obtain ⟨_, -, hpadded⟩ := Reader.exists_isPadded_of_padded hread
      cases hpadded with
      | intro filling hfilling hlength => exact hlength
  | optional =>
      obtain ⟨value, _, hread, ⟨⟩⟩ := Reader.bind_eq_ok_iff.1 h
      obtain ⟨_, -, hoptional⟩ := Reader.exists_isOptional_of_optional hread
      cases hoptional with
      | absent => exact trivial
      | present hpadded hlength => exact hlength

/-! ### Several fields -/

/-- Fields that fit are read back, and nothing of what follows them is taken. -/
theorem readAll_bytesOf_append {fields : List Field} (h : ∀ f ∈ fields, f.Fits) (rest : Bytes) :
    Kind.readAll (fields.map kind) (bytesOf fields ++ rest) = .ok (fields, rest) := by
  induction fields with
  | nil => rfl
  | cons f fields ih =>
      obtain ⟨hf, hfields⟩ := List.forall_mem_cons.1 h
      -- what follows the first field is the other fields, and what follows them
      have hfirst := read_append hf (bytesOf fields ++ rest)
      rw [List.map_cons, Kind.readAll_cons, bytesOf_cons, List.append_assoc,
        Reader.bind_of_ok hfirst, Reader.bind_of_ok (ih hfields)]
      rfl

/-- Whatever bytes fields are read from, they fit. -/
theorem fits_of_readAll {kinds : List Kind} {input rest : Bytes} {fields : List Field}
    (h : Kind.readAll kinds input = .ok (fields, rest)) : ∀ f ∈ fields, f.Fits := by
  induction kinds generalizing input fields with
  | nil =>
      cases h
      exact nofun
  | cons k kinds ih =>
      rw [Kind.readAll_cons] at h
      obtain ⟨f, _, hfirst, h⟩ := Reader.bind_eq_ok_iff.1 h
      obtain ⟨others, _, hothers, ⟨⟩⟩ := Reader.bind_eq_ok_iff.1 h
      exact List.forall_mem_cons.2 ⟨fits_of_read hfirst, ih hothers⟩

/-- **Fields in a row are read back exactly if each of them fits,** whatever they are and whatever
follows them: the same values come in the same order, and what follows is left.  Whether it fits or
not, a field takes a whole number of words. -/
theorem readAll_bytesOf_append_eq_ok_iff (fields : List Field) (rest : Bytes) :
    (Kind.readAll (fields.map kind) (bytesOf fields ++ rest) = .ok (fields, rest) ↔
      ∀ f ∈ fields, f.Fits) ∧
    ∀ f : Field, f.bytes.length % 4 = 0 := by
  refine ⟨⟨?_, ?_⟩, length_bytes_mod⟩
  · exact fits_of_readAll
  · intro hfits
    exact readAll_bytesOf_append hfits rest

/-- An absent string, an empty one and one of a byte, which their first words tell apart, and a word
behind them. -/
example : bytesOf [.optional none, .optional (some []), .optional (some [0x61]), .word 7] =
    [0xff, 0xff, 0xff, 0xff, 0, 0, 0, 0, 1, 0, 0, 0, 0x61, 0, 0, 0, 7, 0, 0, 0] := by
  decide

/-- A rectangle that is infinitely wide has no place in a field. -/
example : ¬ Fits (.rect ⟨0, 0, ⟨0x7f800000⟩, 1⟩) := by decide

/-- **No bytes can be divided into fields of the same kinds in two ways,** whatever follows the
fields. -/
theorem eq_of_bytesOf_append_eq {fields others : List Field} {rest after : Bytes}
    (hkinds : fields.map kind = others.map kind) (hfields : ∀ f ∈ fields, f.Fits)
    (hothers : ∀ f ∈ others, f.Fits) (h : bytesOf fields ++ rest = bytesOf others ++ after) :
    fields = others ∧ rest = after := by
  have hread := readAll_bytesOf_append hfields rest
  rw [hkinds, h, readAll_bytesOf_append hothers after] at hread
  cases hread
  exact ⟨rfl, rfl⟩

end Field

end Wire

end PictureTape

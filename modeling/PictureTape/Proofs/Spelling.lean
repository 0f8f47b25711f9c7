/-
**What spells a picture.**

The same picture can be stored in many ways: what fills up a string does not matter, nor do the
other bits of the flags of a paint and its last two bytes, nor the order and number of the entries
of the paint table, nor what follows the end tag.  The relations of this module say which bytes
spell a value, whether its numbers are finite or not; they mention the writers of words and numbers,
and no reader.

Main definitions:

* `Wire.InTurn` — bytes that spell the values of a list one after the other;
* `Wire.IsPadded`, `Wire.IsOptional` — bytes that spell a string, and one that may be absent;
* `Paint.IsEntry` — bytes that spell an entry of a paint table;
* `Command.IsPayload`, `Command.IsPiece` — bytes that spell a command, without and with its first
  word;
* `Picture.IsStored` — bytes that start with a stored picture.

Main results:

* `Command.read_append_of_isPiece` — **a command that is spelled is read, or refused for a number
  that is not finite;**
* `Picture.decode_eq_of_isStored` — **the same for a picture.**
-/

import PictureTape.Proofs.Agreement
import PictureTape.Proofs.Reading

set_option autoImplicit false
set_option relaxedAutoImplicit false

namespace PictureTape

/-! ### Strings and sequences -/

namespace Wire

/-- The bytes spell the values of a list, one after the other. -/
inductive InTurn {α : Type} (Spells : α → Bytes → Prop) : List α → Bytes → Prop
  | nil : InTurn Spells [] []
  | cons {a : α} {as : List α} {front rest : Bytes} (hfront : Spells a front)
      (hrest : InTurn Spells as rest) : InTurn Spells (a :: as) (front ++ rest)

/-- Each of the values is spelled by some of the bytes. -/
theorem InTurn.exists_of_mem {α : Type} {Spells : α → Bytes → Prop} {as : List α} {bytes : Bytes}
    (h : InTurn Spells as bytes) {a : α} (ha : a ∈ as) : ∃ front, Spells a front := by
  induction h with
  | nil => cases ha
  | cons hfront _ ih =>
      rcases List.mem_cons.1 ha with rfl | ha
      · exact ⟨_, hfront⟩
      · exact ih ha

/-- The bytes spell a string: its length, the string, and up to three more bytes. -/
inductive IsPadded (content : Bytes) : Bytes → Prop
  | intro (filling : Bytes) (hfilling : filling.length = padding content.length)
      (hlength : content.length < UInt32.size) :
      IsPadded content (word (.ofNat content.length) ++ (content ++ filling))

/-- The bytes spell a string that may be absent.  A string that is there is not so long that its
length would say that it is absent. -/
inductive IsOptional : Option Bytes → Bytes → Prop
  | absent : IsOptional none (word absent)
  | present {content bytes : Bytes} (h : IsPadded content bytes)
      (hlength : content.length < absent.toNat) : IsOptional (some content) bytes

theorem isPadded_padded {content : Bytes} (h : content.length < UInt32.size) :
    IsPadded content (padded content) :=
  .intro _ List.length_replicate h

theorem isOptional_optional {value : Option Bytes}
    (h : ∀ content, value = some content → content.length < absent.toNat) :
    IsOptional value (optional value) := by
  cases value with
  | none => exact .absent
  | some content =>
      have hlength := h content rfl
      exact .present (isPadded_padded (Nat.lt_trans hlength (by decide))) hlength

end Wire

/-! ### Entries, commands and pictures -/

/-- The bytes spell an entry of a paint table: a packed color, a width, a style, flags of which the
lowest bit tells whether edges are smoothed, and two more bytes. -/
inductive Paint.IsEntry : Paint → Bytes → Prop
  | intro (argb : UInt32) (width : Binary32) (style : PaintStyle) (flags a b : UInt8) :
      IsEntry ⟨.ofArgb argb, style, flags.toNat % 2 = 1, width⟩
        (Wire.word argb ++ (Wire.number width ++ [style.toByte, flags, a, b]))

namespace Command

/-- The bytes spell a command behind its first word; a rectangle has the paint whose position is
given. -/
inductive IsPayload (paints : List Paint) : Command → Bytes → Prop
  | save : IsPayload paints save []
  | restore : IsPayload paints restore []
  | translate (v : Offset) : IsPayload paints (translate v) (Wire.offset v)
  | drawRect {index : UInt32} {paint : Paint} (h : paints[index.toNat]? = some paint) (r : Rect) :
      IsPayload paints (drawRect r paint) (Wire.word index ++ Wire.rect r)
  | annotate {key : String} {keyBytes valueBytes : Bytes} {value : Option Bytes} (r : Rect)
      (hkey : Wire.IsPadded (Wire.ofText key) keyBytes)
      (hvalue : Wire.IsOptional value valueBytes) :
      IsPayload paints (annotate r key value) (Wire.rect r ++ (keyBytes ++ valueBytes))

/-- The bytes spell a command: a word with its code and its size, and what stands behind it. -/
inductive IsPiece (paints : List Paint) (c : Command) : Bytes → Prop
  | intro {payload : Bytes} (h : IsPayload paints c payload)
      (hsize : payload.length + 4 ≤ largestSize) :
      IsPiece paints c (Wire.word (header c.code (payload.length + 4)) ++ payload)

end Command

/-- What a stored picture has in front of the byte that tells whether there is a body. -/
def Picture.head (bounds : Rect) : Bytes :=
  Picture.magic ++ (Wire.word Picture.version ++ Wire.rect bounds)

/-- The bytes start with a stored picture whose paint table is `paints`. -/
inductive Picture.IsStored : List Paint → Picture → Bytes → Prop
  | withoutBody (bounds : Rect) (rest : Bytes) :
      IsStored [] ⟨bounds, []⟩ (Picture.head bounds ++ (0 :: rest))
  | withBody (bounds : Rect) {mark : UInt8} {commands : List Command} {paints : List Paint}
      {stream table : Bytes} (rest : Bytes) (hmark : mark ≠ 0)
      (hstream : Wire.InTurn (Command.IsPiece paints) commands stream)
      (htable : Wire.InTurn Paint.IsEntry paints table)
      (hlength : stream.length < UInt32.size) (hcount : paints.length < UInt32.size) :
      IsStored paints ⟨bounds, commands⟩
        (Picture.head bounds ++ (mark ::
          (Wire.word commandTag ++ (Wire.word (.ofNat stream.length) ++ (stream ++
            (Wire.word paintTag ++ (Wire.word (.ofNat paints.length) ++ (table ++
              (Wire.word endTag ++ rest)))))))))

/-! ### Reading what is spelled -/

/-- The result, unless a number is not finite. -/
def whenFinite {α : Type} (finite : Bool) (result : α) : Except PictureError α :=
  if finite then .ok result else .error .nonFinite

@[simp] theorem whenFinite_true {α : Type} (result : α) : whenFinite true result = .ok result := rfl

@[simp] theorem whenFinite_false {α : Type} (result : α) :
    whenFinite false result = .error .nonFinite := rfl

namespace Wire

namespace Reader

variable {α β : Type}

theorem bind_of_whenFinite {first : Reader α} {next : α → Reader β} {input rest : Bytes} {a : α}
    {result : β × Bytes} {finite finite' : Bool} (hfirst : first input = whenFinite finite (a, rest))
    (hnext : next a rest = whenFinite finite' result) :
    (first >>= next) input = whenFinite (finite && finite') result := by
  cases finite with
  | false => exact bind_of_error hfirst
  | true =>
      rw [bind_of_ok hfirst, hnext]
      rfl

theorem bind_of_whenFinite_of_ok {first : Reader α} {next : α → Reader β} {input rest : Bytes} {a : α}
    {result : β × Bytes} {finite : Bool} (hfirst : first input = whenFinite finite (a, rest))
    (hnext : next a rest = .ok result) : (first >>= next) input = whenFinite finite result := by
  rw [bind_of_whenFinite hfirst (hnext.trans (whenFinite_true result).symm), Bool.and_true]

theorem finite_append_eq (x : Binary32) (rest : Bytes) :
    finite (Wire.number x ++ rest) = whenFinite x.isFinite (x, rest) := by
  rw [finite_eq, bind_of_ok (number_append x rest)]
  unfold require
  cases x.isFinite with
  | true => rfl
  | false => rfl

theorem offset_append_eq (v : Offset) (rest : Bytes) :
    offset (Wire.offset v ++ rest) = whenFinite v.isFinite (v, rest) := by
  unfold offset Wire.offset
  rw [List.append_assoc]
  exact bind_of_whenFinite (finite_append_eq v.x _)
    (bind_of_whenFinite_of_ok (finite_append_eq v.y _) rfl)

theorem rect_append_eq (r : Rect) (rest : Bytes) :
    rect (Wire.rect r ++ rest) = whenFinite r.isFinite (r, rest) := by
  unfold rect Wire.rect
  simp only [List.append_assoc]
  unfold Rect.isFinite
  rw [Bool.and_assoc, Bool.and_assoc]
  exact bind_of_whenFinite (finite_append_eq r.x _)
    (bind_of_whenFinite (finite_append_eq r.y _)
      (bind_of_whenFinite (finite_append_eq r.width _)
        (bind_of_whenFinite_of_ok (finite_append_eq r.height _) rfl)))

theorem padded_append_of_isPadded {content bytes : Bytes} (h : IsPadded content bytes)
    (rest : Bytes) : padded (bytes ++ rest) = .ok (content, rest) := by
  obtain ⟨filling, hfilling, hlength⟩ := h
  unfold padded
  simp only [List.append_assoc]
  rw [bind_of_ok (word_append _ _), UInt32.toNat_ofNat_of_lt' hlength]
  exact paddedBody_append content filling rest hfilling

theorem optional_append_of_isOptional {value : Option Bytes} {bytes : Bytes}
    (h : IsOptional value bytes) (rest : Bytes) :
    optional (bytes ++ rest) = .ok (value, rest) := by
  cases h with
  | absent => exact optional_append_none rest
  | present h hlength =>
      obtain ⟨filling, hfilling, hsize⟩ := h
      rename_i content
      -- its length is not the word that says that there is no string
      have hne : UInt32.ofNat content.length ≠ Wire.absent := by
        intro heq
        have hnat := congrArg UInt32.toNat heq
        rw [UInt32.toNat_ofNat_of_lt' hsize] at hnat
        omega
      unfold optional
      simp only [List.append_assoc]
      rw [bind_of_ok (word_append _ _), if_neg hne, UInt32.toNat_ofNat_of_lt' hsize,
        bind_of_ok (paddedBody_append content filling rest hfilling)]
      rfl

/-- If a field that is spelled is read or refused for a number that is not finite, then so are
several. -/
theorem times_append_of_inTurn {field : Reader α} {Spells : α → Bytes → Prop}
    {isFinite : α → Bool}
    (hfield : ∀ a front rest, Spells a front →
      field (front ++ rest) = whenFinite (isFinite a) (a, rest))
    {as : List α} {bytes : Bytes} (h : InTurn Spells as bytes) (rest : Bytes) :
    times as.length field (bytes ++ rest) = whenFinite (as.all isFinite) (as, rest) := by
  induction h with
  | nil => rfl
  | @cons a as front bytes hfront _ ih =>
      rw [List.length_cons, times_succ, List.append_assoc, List.all_cons]
      exact bind_of_whenFinite (hfield a front _ hfront) (bind_of_whenFinite_of_ok ih rfl)

end Reader

end Wire

open Wire (Reader)

theorem Paint.read_append_of_isEntry {paint : Paint} {bytes : Bytes} (h : paint.IsEntry bytes)
    (rest : Bytes) :
    Paint.read (bytes ++ rest) = whenFinite paint.strokeWidth.isFinite (paint, rest) := by
  obtain ⟨argb, width, style, flags, a, b⟩ := h
  rw [Paint.read_eq]
  simp only [List.append_assoc]
  rw [Reader.bind_of_ok (Reader.word_append argb _)]
  refine Reader.bind_of_whenFinite_of_ok (Reader.finite_append_eq width _) ?_
  rw [List.cons_append, Reader.bind_of_ok (Reader.byte_eq_ok_iff.2 rfl),
    PaintStyle.ofByte?_toByte]
  rfl

namespace Command

variable {paints : List Paint} {c : Command}

/-- The size that a command determines is that of every piece that spells it. -/
theorem length_of_isPayload {payload : Bytes} (h : IsPayload paints c payload) :
    payload.length + 4 = c.size := by
  cases h with
  | save => rfl
  | restore => rfl
  | translate v => rfl
  | drawRect h r => rfl
  | annotate r hkey hvalue =>
      obtain ⟨filling, hfilling, -⟩ := hkey
      cases hvalue with
      | absent =>
          simp only [size, Wire.roundedUp, List.length_append, Wire.length_rect, Wire.length_word,
            Option.elim]
          omega
      | present hvalue _ =>
          obtain ⟨filling', hfilling', -⟩ := hvalue
          simp only [size, Wire.roundedUp, List.length_append, Wire.length_rect, Wire.length_word,
            Option.elim]
          omega

theorem length_of_isPiece {bytes : Bytes} (h : IsPiece paints c bytes) :
    bytes.length = c.size := by
  obtain ⟨hpayload, -⟩ := h
  rw [List.length_append, Wire.length_word, Nat.add_comm, length_of_isPayload hpayload]

theorem size_le_of_isPiece {bytes : Bytes} (h : IsPiece paints c bytes) :
    c.size ≤ largestSize := by
  obtain ⟨hpayload, hsize⟩ := h
  rwa [length_of_isPayload hpayload] at hsize

/-- The paint of a rectangle is an entry of the table. -/
theorem mem_of_isPiece {bytes : Bytes} (h : IsPiece paints c bytes) {paint : Paint}
    (hc : c.paint? = some paint) : paint ∈ paints := by
  obtain ⟨r, rfl⟩ := paint?_eq_some_iff.1 hc
  obtain ⟨hpayload, -⟩ := h
  cases hpayload with
  | drawRect hindex r => exact List.mem_of_getElem? hindex

theorem readPayload_append_of_isPayload {payload : Bytes} (h : IsPayload paints c payload)
    (hpaints : ∀ paint ∈ paints, paint.strokeWidth.isFinite = true) (rest : Bytes) :
    readPayload paints.toArray c.code (payload ++ rest) = whenFinite c.isFinite (c, rest) := by
  cases h with
  | save => rfl
  | restore => rfl
  | translate v =>
      change readPayload paints.toArray 35 _ = _
      rw [readPayload_translate]
      exact Reader.bind_of_whenFinite_of_ok (Reader.offset_append_eq v rest) rfl
  | @drawRect index paint h r =>
      have hwidth := hpaints paint (List.mem_of_getElem? h)
      change readPayload paints.toArray 21 _ = _
      rw [readPayload_drawRect, List.append_assoc,
        Reader.bind_of_ok (Reader.word_append index _), List.getElem?_toArray, h,
        Reader.bind_of_ok rfl]
      rw [isFinite, hwidth, Bool.and_true]
      exact Reader.bind_of_whenFinite_of_ok (Reader.rect_append_eq r rest) rfl
  | @annotate key keyBytes valueBytes value r hkey hvalue =>
      change readPayload paints.toArray 60 _ = _
      rw [readPayload_annotate, List.append_assoc, List.append_assoc]
      refine Reader.bind_of_whenFinite_of_ok (Reader.rect_append_eq r _) ?_
      rw [Reader.bind_of_ok (Reader.padded_append_of_isPadded hkey _),
        Wire.toText?_eq_some_iff.2 rfl, Reader.bind_of_ok rfl,
        Reader.bind_of_ok (Reader.optional_append_of_isOptional hvalue rest)]
      rfl

/-- **A command that is spelled is read, or refused for a number that is not finite.** -/
theorem read_append_of_isPiece {bytes : Bytes} (h : IsPiece paints c bytes)
    (hpaints : ∀ paint ∈ paints, paint.strokeWidth.isFinite = true) (rest : Bytes) :
    read paints.toArray (bytes ++ rest) = whenFinite c.isFinite (c, rest) := by
  obtain ⟨hpayload, hsize⟩ := h
  rename_i payload
  have hread := readPayload_append_of_isPayload hpayload hpaints []
  rw [List.append_nil] at hread
  rw [List.append_assoc, read_word_append, headerCode_header hsize, headerSize_header hsize,
    readSized_append]
  unfold ofPayload
  rw [hread]
  cases c.isFinite with
  | true => rfl
  | false => rfl

/-- Commands that are spelled in turn are read, or refused for a number that is not finite. -/
theorem readAll_eq_of_inTurn {commands : List Command} {bytes : Bytes}
    (h : Wire.InTurn (IsPiece paints) commands bytes)
    (hpaints : ∀ paint ∈ paints, paint.strokeWidth.isFinite = true) :
    readAll paints.toArray bytes = whenFinite (commands.all isFinite) commands := by
  induction h with
  | nil => rw [readAll_nil]; rfl
  | @cons c commands front bytes hfront _ ih =>
      have hread := read_append_of_isPiece hfront hpaints bytes
      rw [List.all_cons]
      cases hc : c.isFinite with
      | false =>
          -- the end of the stream has not been reached: a command has at least its first word
          have hne : front ++ bytes ≠ [] := by
            have hlength := length_of_isPiece hfront
            have hsize := length_payload 0 c
            intro hnil
            rw [(List.append_eq_nil_iff.1 hnil).1, List.length_nil] at hlength
            omega
          rw [hc] at hread
          exact readAll_of_error hne hread
      | true =>
          rw [hc] at hread
          rw [readAll_of_ok hread, ih]
          cases commands.all isFinite with
          | true => rfl
          | false => rfl

end Command

/-! ### Reading a picture -/

namespace Contents

theorem readHead_append_eq (bounds : Rect) (rest : Bytes) :
    readHead (Picture.head bounds ++ rest) = whenFinite bounds.isFinite (bounds, rest) := by
  unfold readHead Picture.head
  rw [List.append_assoc, Reader.bind_of_ok (Reader.take_append Picture.magic _),
    Reader.bind_of_ok (Reader.require_of_true rfl _ _), List.append_assoc,
    Reader.bind_of_ok (Reader.word_append Picture.version _),
    Reader.bind_of_ok (Reader.require_of_true rfl _ _)]
  exact Reader.rect_append_eq bounds rest

/-- A stream with a paint table that is spelled is cut out, or refused for a width that is not
finite; what the bytes of the stream spell does not matter. -/
theorem readStream_append_eq {paints : List Paint} (stream : Bytes) {table : Bytes} (rest : Bytes)
    (htable : Wire.InTurn Paint.IsEntry paints table)
    (hlength : stream.length < UInt32.size) (hcount : paints.length < UInt32.size) :
    readStream (Wire.word Picture.commandTag ++ (Wire.word (.ofNat stream.length) ++
        (stream ++ (Wire.word Picture.paintTag ++ (Wire.word (.ofNat paints.length) ++ (table ++
          (Wire.word Picture.endTag ++ rest))))))) =
      whenFinite (paints.all fun paint => paint.strokeWidth.isFinite) ((paints, stream), rest) := by
  have htimes := Reader.times_append_of_inTurn
    (fun _ _ rest h => Paint.read_append_of_isEntry h rest) htable
    (Wire.word Picture.endTag ++ rest)
  unfold readStream
  rw [Reader.bind_of_ok (Reader.tag_append _ _), Reader.bind_of_ok (Reader.word_append _ _),
    UInt32.toNat_ofNat_of_lt' hlength, Reader.bind_of_ok (Reader.take_append stream _),
    Reader.bind_of_ok (Reader.tag_append _ _), Reader.bind_of_ok (Reader.word_append _ _),
    UInt32.toNat_ofNat_of_lt' hcount]
  refine Reader.bind_of_whenFinite_of_ok htimes ?_
  rw [Reader.bind_of_ok (Reader.tag_append _ _)]
  rfl

/-- A body that is spelled is read, or refused for a number that is not finite. -/
theorem readBody_append_eq (bounds : Rect) {commands : List Command} {paints : List Paint}
    {stream table : Bytes} (rest : Bytes)
    (hstream : Wire.InTurn (Command.IsPiece paints) commands stream)
    (htable : Wire.InTurn Paint.IsEntry paints table)
    (hlength : stream.length < UInt32.size) (hcount : paints.length < UInt32.size) :
    readBody bounds (Wire.word Picture.commandTag ++ (Wire.word (.ofNat stream.length) ++
        (stream ++ (Wire.word Picture.paintTag ++ (Wire.word (.ofNat paints.length) ++ (table ++
          (Wire.word Picture.endTag ++ rest))))))) =
      whenFinite ((paints.all fun paint => paint.strokeWidth.isFinite) &&
        commands.all Command.isFinite) (⟨bounds, some (paints, commands)⟩, rest) := by
  have hbody := readStream_append_eq stream rest htable hlength hcount
  rw [readBody_eq]
  cases hpaints : paints.all fun paint => paint.strokeWidth.isFinite with
  | false =>
      rw [hpaints] at hbody
      exact Reader.bind_of_error hbody
  | true =>
      rw [hpaints] at hbody
      rw [Reader.bind_of_ok hbody, Bool.true_and]
      simp only [Command.readAll_eq_of_inTurn hstream (List.all_eq_true.1 hpaints)]
      refine Reader.bind_of_whenFinite_of_ok (a := commands) ?_ rfl
      unfold Reader.ofExcept
      cases commands.all Command.isFinite with
      | true => rfl
      | false => rfl

end Contents

theorem Picture.decode_eq_map_read (d : Bytes) :
    Picture.decode d = (Contents.read d).map fun r => r.1.picture := by
  unfold Picture.decode Contents.decode
  cases Contents.read d with
  | error e => rfl
  | ok r => rfl

/-- **A picture that is spelled is decoded, or refused for a number that is not finite.** -/
theorem Picture.decode_eq_of_isStored {paints : List Paint} {p : Picture} {d : Bytes}
    (h : p.IsStored paints d) :
    Picture.decode d =
      whenFinite (p.isFinite && paints.all fun paint => paint.strokeWidth.isFinite) p := by
  rw [decode_eq_map_read, Contents.read_eq]
  cases h with
  | withoutBody bounds rest =>
      have hhead := Contents.readHead_append_eq bounds (0 :: rest)
      rw [Reader.bind_of_whenFinite_of_ok hhead rfl]
      cases hbounds : bounds.isFinite with
      | true => simp [isFinite, hbounds, Except.map, Contents.picture, Contents.commands]
      | false => simp [isFinite, hbounds, Except.map]
  | withBody bounds rest hmark hstream htable hlength hcount =>
      rename_i mark commands stream table
      have hhead := Contents.readHead_append_eq bounds (mark ::
        (Wire.word commandTag ++ (Wire.word (.ofNat stream.length) ++ (stream ++
          (Wire.word paintTag ++ (Wire.word (.ofNat paints.length) ++ (table ++
            (Wire.word endTag ++ rest))))))))
      have hbody := Contents.readBody_append_eq bounds rest hstream htable hlength hcount
      rw [Reader.bind_of_whenFinite hhead (by
        rw [Reader.bind_of_ok (Reader.byte_eq_ok_iff.2 rfl), if_neg hmark]
        exact hbody)]
      unfold isFinite
      cases bounds.isFinite <;> cases commands.all Command.isFinite <;>
        cases (paints.all fun paint => paint.strokeWidth.isFinite) <;> rfl

end PictureTape

/-
**Decoding bytes that go on.**

What the decoder says about some bytes it also says when more bytes follow them, with one exception:
bytes that end too early may become a picture.  Until as many bytes have followed as were missing,
they still end too early.

The readers of the fields have this property one by one, and sequences of them inherit it.  The
commands are the exception, as they are read from a stream that has been cut out before: if one of
them ends too early, then no bytes behind the picture mend it.

Main definitions:

* `Wire.Reader.Steady` — readers whose outcome stays the same when more bytes follow;
* `Contents.readFrame` — the reader of a picture up to its end tag, with the stream of the commands
  cut out and not looked into;
* `Picture.ofFrame` — the picture, when the frame has been read;
* `Picture.IsFramed` — bytes that start with a picture whose stream may be anything.

Main results:

* `Wire.Reader.Steady.bind` — steady readers one after the other are steady;
* `Contents.steady_readFrame` — the frame of a picture is read steadily;
* `Picture.decode_of_readFrame_eq_ok`, `Picture.decode_of_readFrame_eq_error` — a picture is its
  frame, and the commands in its stream;
* `Picture.decode_append` — **only bytes that end too early are decoded differently when more bytes
  follow them.**
-/

import PictureTape.Proofs.Acceptance

set_option autoImplicit false
set_option relaxedAutoImplicit false

namespace PictureTape

/-! ### Steady readers -/

/-- Bytes are missing, or the fault is another one. -/
theorem PictureError.eq_truncated_or_ne (e : PictureError) :
    (∃ n, e = .truncated n) ∨ ∀ n, e ≠ .truncated n := by
  by_cases h : ∃ n, e = .truncated n
  · exact .inl h
  · exact .inr fun n hn => h ⟨n, hn⟩

namespace Wire

namespace Reader

variable {α β : Type}

/-- A reader whose outcome stays the same when more bytes follow.  If bytes are missing, then the
number of those that are missing is reported until they are there. -/
structure Steady (field : Reader α) : Prop where
  ok {input rest : Bytes} {a : α} (h : field input = .ok (a, rest)) (more : Bytes) :
    field (input ++ more) = .ok (a, rest ++ more)
  error {input : Bytes} {e : PictureError} (h : field input = .error e)
    (hne : ∀ n, e ≠ .truncated n) (more : Bytes) : field (input ++ more) = .error e
  truncated {input : Bytes} {n : Nat} (h : field input = .error (.truncated n)) :
    0 < n ∧ ∀ more : Bytes, more.length < n →
      field (input ++ more) = .error (.truncated (n - more.length))

theorem steady_pure (a : α) : Steady (pure a : Reader α) where
  ok h _ := by
    cases h
    rfl
  error := nofun
  truncated := nofun

/-- A reader that fails in any case, and not for want of bytes. -/
theorem steady_throw {e : PictureError} (he : ∀ n, e ≠ .truncated n) :
    Steady (throw e : Reader α) where
  ok := nofun
  error h _ _ := h
  truncated h := absurd (Except.error.inj h) (he _)

/-- Steady readers one after the other are steady. -/
theorem Steady.bind {first : Reader α} {next : α → Reader β} (hfirst : Steady first)
    (hnext : ∀ a, Steady (next a)) : Steady (first >>= next) where
  ok h more := by
    obtain ⟨a, rest, ha, hb⟩ := bind_eq_ok_iff.1 h
    rw [bind_of_ok (hfirst.ok ha more)]
    exact (hnext a).ok hb more
  error h hne more := by
    rcases bind_eq_error_iff.1 h with ha | ⟨a, rest, ha, hb⟩
    · exact bind_of_error (hfirst.error ha hne more)
    · rw [bind_of_ok (hfirst.ok ha more)]
      exact (hnext a).error hb hne more
  truncated h := by
    rcases bind_eq_error_iff.1 h with ha | ⟨a, rest, ha, hb⟩
    · obtain ⟨hpos, hmore⟩ := hfirst.truncated ha
      exact ⟨hpos, fun more hlt => bind_of_error (hmore more hlt)⟩
    · obtain ⟨hpos, hmore⟩ := (hnext a).truncated hb
      refine ⟨hpos, fun more hlt => ?_⟩
      rw [bind_of_ok (hfirst.ok ha more)]
      exact hmore more hlt

theorem steady_take (n : Nat) : Steady (take n) where
  ok h more := by
    obtain ⟨rfl, hlength⟩ := take_eq_ok_iff.1 h
    exact take_eq_ok_iff.2 ⟨List.append_assoc .., hlength⟩
  error h hne more := by
    rw [take_eq] at h
    split at h
    · cases h
    · cases h
      exact absurd rfl (hne _)
  truncated {input k} h := by
    rw [take_eq] at h
    split at h
    · cases h
    · next hlt =>
      cases h
      refine ⟨by omega, fun more hmore => ?_⟩
      rw [take_eq, if_neg (by rw [List.length_append]; omega), List.length_append, Nat.sub_sub]

theorem steady_byte : Steady byte where
  ok h more := by
    rw [byte_eq_ok_iff] at h
    subst h
    rfl
  error {input e} h hne more := by
    cases input with
    | nil =>
        cases h
        exact absurd rfl (hne 1)
    | cons b rest => cases h
  truncated {input n} h := by
    cases input with
    | nil =>
        cases h
        refine ⟨Nat.one_pos, fun more hlt => ?_⟩
        rw [List.eq_nil_of_length_eq_zero (Nat.lt_one_iff.1 hlt)]
        rfl
    | cons b rest => cases h

theorem steady_require {condition : Prop} [Decidable condition] {e : PictureError}
    (he : ∀ n, e ≠ .truncated n) : Steady (require condition e) := by
  unfold require
  split
  · exact steady_pure ()
  · exact steady_throw he

theorem steady_expect {value : Option α} {e : PictureError} (he : ∀ n, e ≠ .truncated n) :
    Steady (expect value e) := by
  cases value with
  | none => exact steady_throw he
  | some a => exact steady_pure a

/-! ### The fields of a picture -/

theorem steady_word : Steady word := (steady_take 4).bind fun _ => steady_pure _

theorem steady_finite : Steady finite := by
  rw [finite_eq]
  have hnumber : Steady number := steady_word.bind fun _ => steady_pure _
  exact hnumber.bind fun _ => (steady_require (by simp)).bind fun _ => steady_pure _

theorem steady_offset : Steady offset :=
  steady_finite.bind fun _ => steady_finite.bind fun _ => steady_pure _

theorem steady_rect : Steady rect :=
  steady_finite.bind fun _ => steady_finite.bind fun _ => steady_finite.bind fun _ =>
    steady_finite.bind fun _ => steady_pure _

theorem steady_tag (expected : UInt32) : Steady (tag expected) := by
  rw [tag_eq]
  exact steady_word.bind fun _ => steady_require (by simp)

theorem steady_paddedBody (n : Nat) : Steady (paddedBody n) :=
  (steady_take n).bind fun _ => (steady_take _).bind fun _ => steady_pure _

theorem steady_padded : Steady padded := steady_word.bind fun _ => steady_paddedBody _

theorem steady_optional : Steady optional := by
  refine steady_word.bind fun n => ?_
  split
  · exact steady_pure none
  · exact (steady_paddedBody _).bind fun _ => steady_pure _

/-- A field that is read steadily is read steadily several times. -/
theorem Steady.times {field : Reader α} (h : Steady field) (n : Nat) : Steady (times n field) := by
  induction n with
  | zero => exact steady_pure []
  | succ n ih =>
      have hsucc : Reader.times (n + 1) field = (do
          let a ← field
          let as ← Reader.times n field
          return a :: as) := funext (times_succ n field)
      rw [hsucc]
      exact h.bind fun _ => ih.bind fun _ => steady_pure _

end Reader

end Wire

open Wire (Reader)

theorem Paint.steady_read : Paint.read.Steady := by
  rw [Paint.read_eq]
  exact Reader.steady_word.bind fun _ => Reader.steady_finite.bind fun _ =>
    Reader.steady_byte.bind fun _ => (Reader.steady_expect (by simp)).bind fun _ =>
      Reader.steady_byte.bind fun _ => (Reader.steady_take 2).bind fun _ => Reader.steady_pure _

theorem Command.steady_readPayload (paints : Array Paint) (code : UInt8) :
    (readPayload paints code).Steady := by
  by_cases hsave : code = 30
  · subst hsave
    exact Reader.steady_pure save
  by_cases hrestore : code = 28
  · subst hrestore
    exact Reader.steady_pure restore
  by_cases htranslate : code = 35
  · subst htranslate
    rw [readPayload_translate]
    exact Reader.steady_offset.bind fun _ => Reader.steady_pure _
  by_cases hrect : code = 21
  · subst hrect
    rw [readPayload_drawRect]
    exact Reader.steady_word.bind fun _ => (Reader.steady_expect (by simp)).bind fun _ =>
      Reader.steady_rect.bind fun _ => Reader.steady_pure _
  by_cases hannotate : code = 60
  · subst hannotate
    rw [readPayload_annotate]
    exact Reader.steady_rect.bind fun _ => Reader.steady_padded.bind fun _ =>
      (Reader.steady_expect (by simp)).bind fun _ => Reader.steady_optional.bind fun _ =>
        Reader.steady_pure _
  rw [readPayload_unknown _ ⟨hsave, hrestore, htranslate, hrect, hannotate⟩]
  exact Reader.steady_throw (by simp)

/-- What is missing in a command that ends too early is at least one byte. -/
theorem Command.EndsEarly.pos {paints : Array Paint} {input : Bytes} {n : Nat}
    (h : EndsEarly paints input n) : 0 < n := by
  cases h with
  | word hne hlength => omega
  | stream hsize hlength => omega
  | payload hsize hfield => exact ((steady_readPayload paints _).truncated hfield).1

theorem Command.pos_of_readAll {paints : Array Paint} {input : Bytes} {n : Nat}
    (h : readAll paints input = .error (.truncated n)) : 0 < n := by
  obtain ⟨_, _, -, hne, hread⟩ := readAll_eq_error_iff.1 h
  exact ((read_eq_truncated_iff hne).1 hread).pos

/-! ### The frame of a picture -/

namespace Contents

/-- A picture up to its end tag: the bounds, and the paint table and the stream if there are any. -/
def readFrame : Reader (Rect × Option (List Paint × Bytes)) := do
  let bounds ← readHead
  let mark ← Reader.byte
  if mark = 0 then return (bounds, none)
  else
    let body ← readStream
    return (bounds, some body)

theorem steady_readHead : readHead.Steady :=
  (Reader.steady_take _).bind fun _ => (Reader.steady_require (by simp)).bind fun _ =>
    Reader.steady_word.bind fun _ => (Reader.steady_require (by simp)).bind fun _ =>
      Reader.steady_rect

theorem steady_readStream : readStream.Steady :=
  (Reader.steady_tag _).bind fun _ => Reader.steady_word.bind fun _ =>
    (Reader.steady_take _).bind fun _ => (Reader.steady_tag _).bind fun _ =>
      Reader.steady_word.bind fun _ => (Paint.steady_read.times _).bind fun _ =>
        (Reader.steady_tag _).bind fun _ => Reader.steady_pure _

/-- The frame of a picture is read steadily. -/
theorem steady_readFrame : readFrame.Steady := by
  refine steady_readHead.bind fun bounds => Reader.steady_byte.bind fun mark => ?_
  split
  · exact Reader.steady_pure _
  · exact steady_readStream.bind fun _ => Reader.steady_pure _

end Contents

namespace Picture

/-- The picture, when the frame has been read: the commands are those in the stream. -/
def ofFrame : Rect × Option (List Paint × Bytes) → Except PictureError Picture
  | (bounds, none) => .ok ⟨bounds, []⟩
  | (bounds, some (paints, stream)) =>
    match Command.readAll paints.toArray stream with
    | .ok commands => .ok ⟨bounds, commands⟩
    | .error e => .error e

theorem decode_of_readFrame_eq_ok {d rest : Bytes} {frame : Rect × Option (List Paint × Bytes)}
    (h : Contents.readFrame d = .ok (frame, rest)) : decode d = ofFrame frame := by
  obtain ⟨bounds, afterHead, hhead, h⟩ := Reader.bind_eq_ok_iff.1 h
  obtain ⟨mark, afterMark, hmark, h⟩ := Reader.bind_eq_ok_iff.1 h
  rw [decode_eq_map_read, Contents.read_eq, Reader.bind_of_ok hhead, Reader.bind_of_ok hmark]
  by_cases hzero : mark = 0
  · rw [if_pos hzero] at h ⊢
    cases h
    rfl
  · rw [if_neg hzero] at h ⊢
    obtain ⟨⟨paints, stream⟩, afterBody, hstream, h⟩ := Reader.bind_eq_ok_iff.1 h
    cases h
    rw [Contents.readBody_eq, Reader.bind_of_ok hstream]
    unfold ofFrame Reader.ofExcept
    cases hcommands : Command.readAll paints.toArray stream with
    | ok commands =>
        simp only [hcommands]
        rfl
    | error e =>
        simp only [hcommands]
        rfl

theorem decode_of_readFrame_eq_error {d : Bytes} {e : PictureError}
    (h : Contents.readFrame d = .error e) : decode d = .error e := by
  rw [decode_eq_map_read, Contents.read_eq]
  rcases Reader.bind_eq_error_iff.1 h with hhead | ⟨bounds, afterHead, hhead, h⟩
  · rw [Reader.bind_of_error hhead]
    rfl
  rw [Reader.bind_of_ok hhead]
  rcases Reader.bind_eq_error_iff.1 h with hmark | ⟨mark, afterMark, hmark, h⟩
  · rw [Reader.bind_of_error hmark]
    rfl
  rw [Reader.bind_of_ok hmark]
  by_cases hzero : mark = 0
  · rw [if_pos hzero] at h
    cases h
  · rw [if_neg hzero] at h ⊢
    rcases Reader.bind_eq_error_iff.1 h with hstream | ⟨body, afterBody, -, h⟩
    · rw [Contents.readBody_eq, Reader.bind_of_error hstream]
      rfl
    · cases h

/-- The bytes start with a picture that is complete up to its end tag.  What the bytes of its stream
spell is left open. -/
inductive IsFramed (paints : List Paint) (stream : Bytes) : Bytes → Prop
  | intro {bounds : Rect} {mark : UInt8} {table : Bytes} (rest : Bytes)
      (hbounds : bounds.isFinite = true) (hmark : mark ≠ 0)
      (htable : Wire.InTurn Paint.IsEntry paints table)
      (hpaints : ∀ paint ∈ paints, paint.strokeWidth.isFinite = true)
      (hlength : stream.length < UInt32.size) (hcount : paints.length < UInt32.size) :
      IsFramed paints stream
        (head bounds ++ (mark ::
          (Wire.word commandTag ++ (Wire.word (.ofNat stream.length) ++ (stream ++
            (Wire.word paintTag ++ (Wire.word (.ofNat paints.length) ++ (table ++
              (Wire.word endTag ++ rest)))))))))

/-- The frame of a picture is read exactly when it is there. -/
theorem isFramed_iff {paints : List Paint} {stream d : Bytes} :
    IsFramed paints stream d ↔
      ∃ bounds rest, Contents.readFrame d = .ok ((bounds, some (paints, stream)), rest) := by
  constructor
  · intro h
    obtain ⟨rest, hbounds, hmark, htable, hpaints, hlength, hcount⟩ := h
    rename_i bounds mark table
    have hhead := Contents.readHead_append_eq bounds (mark ::
      (Wire.word commandTag ++ (Wire.word (.ofNat stream.length) ++ (stream ++
        (Wire.word paintTag ++ (Wire.word (.ofNat paints.length) ++ (table ++
          (Wire.word endTag ++ rest))))))))
    have hbody := Contents.readStream_append_eq stream rest htable hlength hcount
    rw [hbounds] at hhead
    rw [List.all_eq_true.2 hpaints] at hbody
    refine ⟨bounds, rest, ?_⟩
    unfold Contents.readFrame
    rw [Reader.bind_of_ok hhead, Reader.bind_of_ok (Reader.byte_eq_ok_iff.2 rfl), if_neg hmark,
      Reader.bind_of_ok hbody]
    rfl
  · rintro ⟨bounds, rest, hframe⟩
    obtain ⟨_, _, hhead, hmarked⟩ := Reader.bind_eq_ok_iff.1 hframe
    obtain ⟨rfl, hbounds⟩ := Contents.readHead_eq_ok hhead
    obtain ⟨mark, _, hbyte, h⟩ := Reader.bind_eq_ok_iff.1 hmarked
    obtain rfl := Reader.byte_eq_ok_iff.1 hbyte
    split at h
    · cases h
    · next hmark =>
      obtain ⟨_, _, hstream, ⟨⟩⟩ := Reader.bind_eq_ok_iff.1 h
      obtain ⟨table, rfl, htable, hwidths, hlength, hcount⟩ :=
        Contents.exists_inTurn_of_readStream hstream
      exact .intro _ hbounds hmark htable hwidths hlength hcount

theorem ofFrame_eq_error_iff {frame : Rect × Option (List Paint × Bytes)} {e : PictureError} :
    ofFrame frame = .error e ↔
      ∃ paints stream, frame.2 = some (paints, stream) ∧
        Command.readAll paints.toArray stream = .error e := by
  obtain ⟨bounds, body⟩ := frame
  cases body with
  | none => simp [ofFrame]
  | some body =>
      obtain ⟨paints, stream⟩ := body
      simp only [ofFrame]
      constructor
      · intro h
        split at h
        · cases h
        · next hcommands =>
          cases h
          exact ⟨paints, stream, rfl, hcommands⟩
      · rintro ⟨_, _, ⟨⟩, hcommands⟩
        simp only [hcommands]

/-- If the frame of a picture is there, then only its commands may be at fault. -/
theorem decode_eq_error_iff_of_isFramed {paints : List Paint} {stream d : Bytes}
    (h : IsFramed paints stream d) {e : PictureError} :
    decode d = .error e ↔ Command.readAll paints.toArray stream = .error e := by
  obtain ⟨bounds, rest, hframe⟩ := isFramed_iff.1 h
  rw [decode_of_readFrame_eq_ok hframe, ofFrame_eq_error_iff]
  constructor
  · rintro ⟨_, _, ⟨⟩, hcommands⟩
    exact hcommands
  · exact fun hcommands => ⟨paints, stream, rfl, hcommands⟩

/-! ### Bytes that go on -/

variable {d : Bytes}

/-- If the frame has been read, then what follows does not matter. -/
theorem decode_append_of_readFrame_eq_ok {rest : Bytes} {frame : Rect × Option (List Paint × Bytes)}
    (h : Contents.readFrame d = .ok (frame, rest)) (more : Bytes) :
    decode (d ++ more) = decode d := by
  rw [decode_of_readFrame_eq_ok h,
    decode_of_readFrame_eq_ok (Contents.steady_readFrame.ok h more)]

/-- A picture is decoded from the bytes that are there. -/
theorem decode_append_of_ok {p : Picture} (h : decode d = .ok p) (more : Bytes) :
    decode (d ++ more) = .ok p := by
  cases hframe : Contents.readFrame d with
  | ok r => rw [decode_append_of_readFrame_eq_ok hframe, h]
  | error e =>
      rw [decode_of_readFrame_eq_error hframe] at h
      cases h

/-- A fault is found in the bytes that are there, unless it is that they end. -/
theorem decode_append_of_error {e : PictureError} (h : decode d = .error e)
    (hne : ∀ n, e ≠ .truncated n) (more : Bytes) : decode (d ++ more) = .error e := by
  cases hframe : Contents.readFrame d with
  | ok r => rw [decode_append_of_readFrame_eq_ok hframe, h]
  | error e' =>
      rw [decode_of_readFrame_eq_error hframe] at h
      cases h
      exact decode_of_readFrame_eq_error (Contents.steady_readFrame.error hframe hne more)

/-- A picture that is complete up to its end tag ends too early only inside one of its commands, and
then no bytes behind it mend it. -/
theorem decode_append_of_isFramed {paints : List Paint} {stream : Bytes} {n : Nat}
    (hframed : IsFramed paints stream d) (h : decode d = .error (.truncated n)) :
    Command.readAll paints.toArray stream = .error (.truncated n) ∧
      ∀ more, decode (d ++ more) = .error (.truncated n) := by
  refine ⟨(decode_eq_error_iff_of_isFramed hframed).1 h, fun more => ?_⟩
  obtain ⟨bounds, rest, hframe⟩ := isFramed_iff.1 hframed
  rw [decode_append_of_readFrame_eq_ok hframe, h]

/-- A picture that is not complete up to its end tag ends too early until the missing bytes follow
it. -/
theorem decode_append_of_not_isFramed {n : Nat}
    (hframed : ∀ paints stream, ¬ IsFramed paints stream d)
    (h : decode d = .error (.truncated n)) {more : Bytes} (hmore : more.length < n) :
    decode (d ++ more) = .error (.truncated (n - more.length)) := by
  cases hframe : Contents.readFrame d with
  | ok r =>
      obtain ⟨⟨bounds, body⟩, rest⟩ := r
      rw [decode_of_readFrame_eq_ok hframe] at h
      obtain ⟨paints, stream, rfl, -⟩ := ofFrame_eq_error_iff.1 h
      exact absurd (isFramed_iff.2 ⟨bounds, rest, hframe⟩) (hframed paints stream)
  | error e =>
      rw [decode_of_readFrame_eq_error hframe] at h
      cases h
      exact decode_of_readFrame_eq_error
        ((Contents.steady_readFrame.truncated hframe).2 more hmore)

/-- What is missing is at least one byte. -/
theorem pos_of_decode_eq_truncated {n : Nat} (h : decode d = .error (.truncated n)) : 0 < n := by
  cases hframe : Contents.readFrame d with
  | ok r =>
      rw [decode_of_readFrame_eq_ok hframe] at h
      obtain ⟨paints, stream, -, hcommands⟩ := ofFrame_eq_error_iff.1 h
      exact Command.pos_of_readAll hcommands
  | error e =>
      rw [decode_of_readFrame_eq_error hframe] at h
      cases h
      exact (Contents.steady_readFrame.truncated hframe).1

/-- The front of bytes that are decoded is decoded in the same way, or it ends too early. -/
theorem decode_of_prefix {front : Bytes} {p : Picture} (h : decode d = .ok p)
    (hfront : front <+: d) : decode front = .ok p ∨ ∃ n, decode front = .error (.truncated n) := by
  obtain ⟨more, rfl⟩ := hfront
  cases hdecode : decode front with
  | ok q =>
      rw [decode_append_of_ok hdecode more] at h
      cases h
      exact .inl rfl
  | error e =>
      rcases e.eq_truncated_or_ne with ⟨n, rfl⟩ | hne
      · exact .inr ⟨n, rfl⟩
      · rw [decode_append_of_error hdecode hne more] at h
        cases h

/-- **Only bytes that end too early are decoded differently when more bytes follow them.**  A
picture, and every other fault, is found in the bytes that are there.  If `n` bytes are missing, then
`n` is not zero.  Either the picture is complete up to its end tag and one of its commands is cut
off, and then the same is reported whatever follows; or it is not, and then until `n` bytes follow,
those that are still missing are reported.  So the front of bytes that are decoded is never taken for
something else. -/
theorem decode_append (d : Bytes) :
    (∀ p, decode d = .ok p → ∀ more, decode (d ++ more) = .ok p) ∧
    (∀ e, decode d = .error e → (∀ n, e ≠ .truncated n) →
      ∀ more, decode (d ++ more) = .error e) ∧
    (∀ n, decode d = .error (.truncated n) →
      1 ≤ n ∧
      (∀ paints stream, IsFramed paints stream d →
        Command.readAll paints.toArray stream = .error (.truncated n) ∧
          ∀ more, decode (d ++ more) = .error (.truncated n)) ∧
      ((∀ paints stream, ¬ IsFramed paints stream d) →
        ∀ more, more.length < n → decode (d ++ more) = .error (.truncated (n - more.length)))) ∧
    (∀ p, decode d = .ok p → ∀ front, front <+: d →
      decode front = .ok p ∨ ∃ n, decode front = .error (.truncated n)) := by
  refine ⟨fun p h more => decode_append_of_ok h more,
    fun e h hne more => decode_append_of_error h hne more, fun n h => ⟨?_, ?_, ?_⟩,
    fun p h front hfront => decode_of_prefix h hfront⟩
  · exact pos_of_decode_eq_truncated h
  · exact fun paints stream hframed => decode_append_of_isFramed hframed h
  · exact fun hframed more hmore => decode_append_of_not_isFramed hframed h hmore

/-- A picture whose only command says that it is longer than the stream. -/
def cutOff : Bytes :=
  head ⟨0, 0, 0, 0⟩ ++ (1 :: (Wire.word commandTag ++ (Wire.word (.ofNat 4) ++
    (Wire.word (Command.header 30 8) ++ (Wire.word paintTag ++ (Wire.word (.ofNat 0) ++ ([] ++
      (Wire.word endTag ++ []))))))))

theorem isFramed_cutOff : IsFramed [] (Wire.word (Command.header 30 8)) cutOff :=
  .intro [] (by decide +kernel) (by decide) .nil nofun (by decide) (by decide)

/-- Bytes of each kind: a picture without a body, bytes that are no picture, the first bytes of a
picture, and a picture with a command that is cut off. -/
theorem decode_append_cutOff :
    (decode (head ⟨0, 0, 0, 0⟩ ++ [0]) = .ok ⟨⟨0, 0, 0, 0⟩, []⟩ ∧
      decode (head ⟨0, 0, 0, 0⟩ ++ [0] ++ [7]) = .ok ⟨⟨0, 0, 0, 0⟩, []⟩) ∧
    (decode [1, 2, 3, 4, 5, 6, 7, 8] = .error .badMagic ∧
      decode ([1, 2, 3, 4, 5, 6, 7, 8] ++ [9]) = .error .badMagic) ∧
    (decode [0x73, 0x6b] = .error (.truncated 6) ∧
      decode ([0x73, 0x6b] ++ [1, 2, 3, 4, 5]) = .error (.truncated 1)) ∧
    (decode cutOff = .error (.truncated 4) ∧
      decode (cutOff ++ [0, 0, 0, 0]) = .error (.truncated 4)) := by
  have hfinite : (Picture.mk ⟨0, 0, 0, 0⟩ []).isFinite = true := by decide +kernel
  have hempty : decode (head ⟨0, 0, 0, 0⟩ ++ [0]) = .ok ⟨⟨0, 0, 0, 0⟩, []⟩ := by
    rw [decode_eq_of_isStored (.withoutBody _ []), hfinite]
    rfl
  have hmagic : decode [1, 2, 3, 4, 5, 6, 7, 8] = .error .badMagic := rfl
  have hshort : decode [0x73, 0x6b] = .error (.truncated 6) := rfl
  have hcommands : Command.readAll #[] (Wire.word (Command.header 30 8)) =
      .error (.truncated 4) := Command.readAll_of_error (by decide) rfl
  have hcutOff : decode cutOff = .error (.truncated 4) := by
    obtain ⟨bounds, rest, hframe⟩ := isFramed_iff.1 isFramed_cutOff
    rw [decode_of_readFrame_eq_ok hframe]
    exact ofFrame_eq_error_iff.2 ⟨[], _, rfl, hcommands⟩
  have hnot : ∀ paints stream, ¬ IsFramed paints stream [0x73, 0x6b] := by
    intro paints stream hframed
    obtain ⟨bounds, rest, hframe⟩ := isFramed_iff.1 hframed
    cases hframe
  refine ⟨⟨hempty, (decode_append _).1 _ hempty _⟩,
    ⟨hmagic, (decode_append _).2.1 _ hmagic nofun _⟩, ⟨hshort, ?_⟩, ⟨hcutOff, ?_⟩⟩
  · exact ((decode_append _).2.2.1 _ hshort).2.2 hnot _ (by decide)
  · exact (((decode_append _).2.2.1 _ hcutOff).2.1 _ _ isFramed_cutOff).2 _

end Picture

end PictureTape

/-
**Readers step by step.**

The readers of the fields of a picture are sequences of simple steps.  This module writes each of
them as such a sequence, in which every check is a step of its own, and splits the reader of a
picture at the byte that tells whether there is a body.  What a reader accepts is then found step by
step, from the front.

Main definitions:

* `Wire.Reader.require`, `Wire.Reader.expect` — a check, and a value that has to be there;
* `Contents.readHead`, `Contents.readBody` — the reader of a picture before and after the byte that
  tells whether there is a body;
* `Contents.readStream` — the reader of a body in which the stream of the commands is cut out and
  not looked into;
* `Command.EndsEarly` — bytes that start with a command that is cut off;
* `Command.ReadsUpTo` — commands that are read one after the other.

Main results:

* `Contents.read_eq` — **a picture is its head, a byte, and a body if the byte is not zero;**
* `Command.readAll_eq_ok_iff`, `Command.readAll_eq_error_iff` — the commands are read one by one, and
  **what is reported is the fault of the first that cannot be read;**
* `Command.read_eq_ok_iff`, `Command.read_eq_truncated_iff` — which commands are read, and which are
  taken to be cut off;
* `Wire.Reader.times_succ` — so are the entries of a table;
* `Wire.Reader.word_eq_ok_iff_word` — the next word is read exactly when its bytes come next.
-/

import PictureTape.Picture.Decoding

set_option autoImplicit false
set_option relaxedAutoImplicit false

namespace PictureTape

namespace Wire

namespace Reader

variable {α β : Type}

/-! ### Sequences -/

theorem bind_of_error {first : Reader α} {next : α → Reader β} {input : Bytes} {e : PictureError}
    (h : first input = .error e) : (first >>= next) input = .error e := by
  change (first input).bind (fun p => next p.1 p.2) = _
  rw [h]
  rfl

theorem bind_eq_error_iff {first : Reader α} {next : α → Reader β} {input : Bytes}
    {e : PictureError} :
    (first >>= next) input = .error e ↔
      first input = .error e ∨ ∃ a rest, first input = .ok (a, rest) ∧ next a rest = .error e := by
  cases hfirst : first input with
  | error e' => simp [bind_of_error hfirst]
  | ok result =>
      obtain ⟨a, rest⟩ := result
      rw [bind_of_ok hfirst]
      constructor
      · exact fun h => .inr ⟨a, rest, rfl, h⟩
      · rintro (h | ⟨_, _, h, hnext⟩)
        · cases h
        · cases h
          exact hnext

@[simp] theorem pure_apply (a : α) (input : Bytes) :
    (pure a : Reader α) input = .ok (a, input) := rfl

@[simp] theorem throw_apply (e : PictureError) (input : Bytes) :
    (throw e : Reader α) input = .error e := rfl

/-! ### Checks -/

/-- The step that takes nothing and fails with `e` unless the condition holds. -/
def require (condition : Prop) [Decidable condition] (e : PictureError) : Reader Unit :=
  if condition then pure () else throw e

/-- The step that takes nothing and fails with `e` unless there is a value. -/
def expect (value : Option α) (e : PictureError) : Reader α :=
  match value with
  | some a => pure a
  | none => throw e

theorem require_eq_ok_iff {condition : Prop} [Decidable condition] {e : PictureError}
    {input rest : Bytes} {u : Unit} :
    require condition e input = .ok (u, rest) ↔ condition ∧ input = rest := by
  unfold require
  split
  next h => simp [h]
  next h => simp [h]

theorem require_of_true {condition : Prop} [Decidable condition] (h : condition)
    (e : PictureError) (input : Bytes) : require condition e input = .ok ((), input) :=
  require_eq_ok_iff.2 ⟨h, rfl⟩

theorem expect_eq_ok_iff {value : Option α} {e : PictureError} {input rest : Bytes} {a : α} :
    expect value e input = .ok (a, rest) ↔ value = some a ∧ input = rest := by
  cases value <;> simp [expect]

theorem finite_eq :
    finite = (do
      let x ← number
      require (x.isFinite = true) .nonFinite
      return x) := by
  unfold finite
  congr 1
  funext x
  unfold require
  split
  · rfl
  · rfl

theorem tag_eq (expected : UInt32) :
    tag expected = (do
      let found ← word
      require (found = expected) (.badTag expected found)) := rfl

/-! ### Words -/

/-- A word is spelled by four bytes in one way. -/
theorem word_littleEndian {bytes : Bytes} (h : bytes.length = 4) :
    Wire.word (.ofNat (littleEndian bytes)) = bytes := by
  match bytes, h with
  | [a, b, c, d], _ =>
      have ha := a.toNat_lt
      have hb := b.toNat_lt
      have hc := c.toNat_lt
      have hd := d.toNat_lt
      simp only [Wire.word, littleEndian, List.foldr_cons, List.foldr_nil, List.cons.injEq,
        and_true, UInt32.toNat_ofNat', Nat.reducePow] at *
      refine ⟨?_, ?_, ?_, ?_⟩ <;>
        · apply UInt8.toNat_inj.1
          rw [UInt8.toNat_ofNat']
          omega

theorem word_eq_error_iff {input : Bytes} {e : PictureError} :
    word input = .error e ↔ input.length < 4 ∧ e = .truncated (4 - input.length) := by
  unfold word
  rw [bind_eq_error_iff, take_eq]
  by_cases h : 4 ≤ input.length
  · simp [h, Nat.not_lt.2 h]
  · simp [h, Nat.lt_of_not_le h, eq_comm]

/-- **The next word is read exactly when its bytes come next.** -/
theorem word_eq_ok_iff_word {input rest : Bytes} {w : UInt32} :
    word input = .ok (w, rest) ↔ input = Wire.word w ++ rest := by
  constructor
  · intro h
    obtain ⟨bytes, hinput, hlength, rfl⟩ := word_eq_ok_iff.1 h
    rw [hinput, word_littleEndian hlength]
  · rintro rfl
    exact word_append w rest

theorem number_eq_ok_iff {input rest : Bytes} {x : Binary32} :
    number input = .ok (x, rest) ↔ input = Wire.number x ++ rest := by
  constructor
  · intro h
    obtain ⟨bits, _, hword, ⟨⟩⟩ := bind_eq_ok_iff.1 h
    exact word_eq_ok_iff_word.1 hword
  · rintro rfl
    exact number_append x rest

theorem finite_eq_ok_iff {input rest : Bytes} {x : Binary32} :
    finite input = .ok (x, rest) ↔ input = Wire.number x ++ rest ∧ x.isFinite = true := by
  constructor
  · intro h
    rw [finite_eq] at h
    obtain ⟨y, _, hnumber, h⟩ := bind_eq_ok_iff.1 h
    obtain ⟨_, _, hrequire, ⟨⟩⟩ := bind_eq_ok_iff.1 h
    obtain ⟨hfinite, rfl⟩ := require_eq_ok_iff.1 hrequire
    exact ⟨number_eq_ok_iff.1 hnumber, hfinite⟩
  · rintro ⟨rfl, hfinite⟩
    exact finite_append hfinite rest

theorem offset_eq_ok_iff {input rest : Bytes} {v : Offset} :
    offset input = .ok (v, rest) ↔ input = Wire.offset v ++ rest ∧ v.isFinite = true := by
  constructor
  · intro h
    obtain ⟨x, _, hx, h⟩ := bind_eq_ok_iff.1 h
    obtain ⟨y, _, hy, ⟨⟩⟩ := bind_eq_ok_iff.1 h
    obtain ⟨rfl, hfx⟩ := finite_eq_ok_iff.1 hx
    obtain ⟨rfl, hfy⟩ := finite_eq_ok_iff.1 hy
    exact ⟨by simp [Wire.offset], by simp [Offset.isFinite, hfx, hfy]⟩
  · rintro ⟨rfl, hfinite⟩
    simp only [Offset.isFinite, Bool.and_eq_true] at hfinite
    unfold offset Wire.offset
    rw [List.append_assoc, bind_of_ok (finite_append hfinite.1 _),
      bind_of_ok (finite_append hfinite.2 _)]
    rfl

theorem rect_eq_ok_iff {input rest : Bytes} {r : Rect} :
    rect input = .ok (r, rest) ↔ input = Wire.rect r ++ rest ∧ r.isFinite = true := by
  constructor
  · intro h
    obtain ⟨x, _, hx, h⟩ := bind_eq_ok_iff.1 h
    obtain ⟨y, _, hy, h⟩ := bind_eq_ok_iff.1 h
    obtain ⟨width, _, hwidth, h⟩ := bind_eq_ok_iff.1 h
    obtain ⟨height, _, hheight, ⟨⟩⟩ := bind_eq_ok_iff.1 h
    obtain ⟨rfl, hfx⟩ := finite_eq_ok_iff.1 hx
    obtain ⟨rfl, hfy⟩ := finite_eq_ok_iff.1 hy
    obtain ⟨rfl, hfw⟩ := finite_eq_ok_iff.1 hwidth
    obtain ⟨rfl, hfh⟩ := finite_eq_ok_iff.1 hheight
    exact ⟨by simp [Wire.rect], by simp [Rect.isFinite, hfx, hfy, hfw, hfh]⟩
  · rintro ⟨rfl, hfinite⟩
    exact rect_append hfinite rest

theorem byte_eq_ok_iff {input rest : Bytes} {b : UInt8} :
    byte input = .ok (b, rest) ↔ input = b :: rest := by
  cases input <;> simp [byte]

theorem tag_eq_ok_iff {expected : UInt32} {input rest : Bytes} {u : Unit} :
    tag expected input = .ok (u, rest) ↔ input = Wire.word expected ++ rest := by
  rw [tag_eq, bind_eq_ok_iff]
  constructor
  · rintro ⟨found, _, hword, hrequire⟩
    obtain ⟨rfl, rfl⟩ := require_eq_ok_iff.1 hrequire
    exact word_eq_ok_iff_word.1 hword
  · intro h
    exact ⟨expected, rest, word_eq_ok_iff_word.2 h, require_eq_ok_iff.2 ⟨rfl, rfl⟩⟩

theorem tag_append (expected : UInt32) (rest : Bytes) :
    tag expected (Wire.word expected ++ rest) = .ok ((), rest) := tag_eq_ok_iff.2 rfl

/-! ### Repetition -/

theorem timesAfter_eq (field : Reader α) (done : List α) (n : Nat) (input : Bytes) :
    timesAfter field done n input =
      (times n field input).map fun r => (done.reverse ++ r.1, r.2) := by
  induction n generalizing done input with
  | zero => simp [times, timesAfter, Except.map]
  | succ n ih =>
      unfold times timesAfter
      cases hfield : field input with
      | error e => rw [bind_of_error hfield, bind_of_error hfield]; rfl
      | ok r =>
          obtain ⟨a, rest⟩ := r
          rw [bind_of_ok hfield, bind_of_ok hfield, ih (a :: done) rest, ih [a] rest]
          cases times n field rest with
          | error e => rfl
          | ok r => simp [Except.map]

@[simp] theorem times_zero (field : Reader α) (input : Bytes) :
    times 0 field input = .ok ([], input) := rfl

/-- The entries of a table are read one by one. -/
theorem times_succ (n : Nat) (field : Reader α) (input : Bytes) :
    times (n + 1) field input =
      (do
        let a ← field
        let as ← times n field
        return a :: as : Reader (List α)) input := by
  -- the loop goes on with the first entry in its list of those that are done
  change (field >>= fun a => timesAfter field [a] n) input = _
  cases hfield : field input with
  | error e => rw [bind_of_error hfield, bind_of_error hfield]
  | ok r =>
      obtain ⟨a, rest⟩ := r
      rw [bind_of_ok hfield, bind_of_ok hfield, timesAfter_eq]
      cases hrest : times n field rest with
      | error e => rw [bind_of_error hrest]; rfl
      | ok r => rw [bind_of_ok hrest]; rfl

end Reader

end Wire

open Wire (Reader)

/-! ### Paints -/

theorem Paint.read_eq :
    Paint.read = (do
      let argb ← Reader.word
      let strokeWidth ← Reader.finite
      let styleByte ← Reader.byte
      let style ← Reader.expect (PaintStyle.ofByte? styleByte) (.badPaintStyle styleByte)
      let flags ← Reader.byte
      let _ ← Reader.take 2
      return ⟨.ofArgb argb, style, flags.toNat % 2 = 1, strokeWidth⟩) := by
  unfold Paint.read
  congr 1
  funext argb
  congr 1
  funext strokeWidth
  congr 1
  funext styleByte
  cases PaintStyle.ofByte? styleByte with
  | none => rfl
  | some style => rfl

/-! ### Commands -/

namespace Command

variable (paints : Array Paint)

theorem readPayload_translate :
    readPayload paints 35 = (do
      let v ← Reader.offset
      return translate v) := rfl

theorem readPayload_drawRect :
    readPayload paints 21 = (do
      let index ← Reader.word
      let paint ← Reader.expect paints[index.toNat]? (.missingPaint index.toNat)
      let r ← Reader.rect
      return drawRect r paint) := by
  unfold readPayload
  rw [if_neg (by decide), if_neg (by decide), if_neg (by decide), if_pos rfl]
  congr 1
  funext index
  cases paints[index.toNat]? with
  | none => rfl
  | some paint => rfl

theorem readPayload_annotate :
    readPayload paints 60 = (do
      let r ← Reader.rect
      let bytes ← Reader.padded
      let key ← Reader.expect (Wire.toText? bytes) .invalidKey
      let value ← Reader.optional
      return annotate r key value) := by
  unfold readPayload
  rw [if_neg (by decide), if_neg (by decide), if_neg (by decide), if_neg (by decide), if_pos rfl]
  congr 1
  funext r
  congr 1
  funext bytes
  cases Wire.toText? bytes with
  | none => rfl
  | some key => rfl

/-- No other code has commands. -/
theorem readPayload_unknown {code : UInt8}
    (h : code ≠ 30 ∧ code ≠ 28 ∧ code ≠ 35 ∧ code ≠ 21 ∧ code ≠ 60) :
    readPayload paints code = throw (.unknownCommand code) := by
  simp [readPayload, h]

variable {paints : Array Paint}

theorem read_word_append (w : UInt32) (rest : Bytes) :
    read paints (Wire.word w ++ rest) = readSized paints (headerCode w) (headerSize w) rest :=
  Reader.bind_of_ok (Reader.word_append w rest)

/-- A size that the first word does not fit in. -/
theorem readSized_of_lt_four {code : UInt8} {size : Nat} {input : Bytes} (h : size < 4) :
    readSized paints code size input = .error (.badCommandSize code size) := by
  unfold readSized
  rw [if_pos h]
  rfl

/-- A size that leads out of the stream. -/
theorem readSized_of_length_lt {code : UInt8} {size : Nat} {input : Bytes} (hsize : 4 ≤ size)
    (h : input.length + 4 < size) :
    readSized paints code size input = .error (.truncated (size - (input.length + 4))) := by
  unfold readSized
  rw [if_neg (Nat.not_lt.2 hsize)]
  refine Reader.bind_of_error ?_
  rw [Reader.take_eq, if_neg (by omega), Nat.sub_sub, Nat.add_comm 4]

/-- A size by which a payload is cut out. -/
theorem readSized_append (code : UInt8) (payload rest : Bytes) :
    readSized paints code (payload.length + 4) (payload ++ rest) =
      (ofPayload paints code (payload.length + 4) payload).map (·, rest) := by
  unfold readSized
  rw [if_neg (by omega), Nat.add_sub_cancel, Reader.bind_of_ok (Reader.take_append payload rest)]
  rfl

/-- A size that stays inside the stream cuts out a payload. -/
theorem exists_payload {size : Nat} {input : Bytes} (hsize : ¬ size < 4)
    (hlength : ¬ input.length + 4 < size) :
    ∃ payload rest, input = payload ++ rest ∧ payload.length + 4 = size :=
  ⟨input.take (size - 4), input.drop (size - 4), (List.take_append_drop ..).symm, by
    rw [List.length_take]
    omega⟩

/-- **A command is read exactly if its payload is there and is read to its end.** -/
theorem read_eq_ok_iff {input rest : Bytes} {c : Command} :
    read paints input = .ok (c, rest) ↔
      ∃ w payload, input = Wire.word w ++ (payload ++ rest) ∧
        payload.length + 4 = headerSize w ∧
        readPayload paints (headerCode w) payload = .ok (c, []) := by
  constructor
  · intro h
    obtain ⟨w, afterWord, hword, hsized⟩ := Reader.bind_eq_ok_iff.1 h
    obtain rfl := Reader.word_eq_ok_iff_word.1 hword
    by_cases hsize : headerSize w < 4
    · rw [readSized_of_lt_four hsize] at hsized
      cases hsized
    by_cases hlength : afterWord.length + 4 < headerSize w
    · rw [readSized_of_length_lt (Nat.not_lt.1 hsize) hlength] at hsized
      cases hsized
    obtain ⟨payload, after, rfl, hpayload⟩ := exists_payload hsize hlength
    rw [← hpayload, readSized_append] at hsized
    unfold ofPayload at hsized
    split at hsized
    · cases hsized
    · next hfield =>
      cases hsized
      exact ⟨w, payload, rfl, hpayload, hfield⟩
    · cases hsized
  · rintro ⟨w, payload, rfl, hpayload, hfield⟩
    rw [read_word_append, ← hpayload, readSized_append, ofPayload, hfield]
    rfl

/-- The bytes start with a command that is cut off, and `missing` more are asked for. -/
inductive EndsEarly (paints : Array Paint) : Bytes → (missing : Nat) → Prop
  /-- They end inside its first word. -/
  | word {input : Bytes} (hne : input ≠ []) (hlength : input.length < 4) :
      EndsEarly paints input (4 - input.length)
  /-- They end before it does, by its size. -/
  | stream {w : UInt32} {rest : Bytes} (hsize : 4 ≤ headerSize w)
      (hlength : rest.length + 4 < headerSize w) :
      EndsEarly paints (Wire.word w ++ rest) (headerSize w - (rest.length + 4))
  /-- It ends inside one of its fields. -/
  | payload {w : UInt32} {payload rest : Bytes} {missing : Nat}
      (hsize : payload.length + 4 = headerSize w)
      (hfield : readPayload paints (headerCode w) payload = .error (.truncated missing)) :
      EndsEarly paints (Wire.word w ++ (payload ++ rest)) missing

theorem EndsEarly.ne_nil {input : Bytes} {n : Nat} (h : EndsEarly paints input n) :
    input ≠ [] := by
  cases h with
  | word hne _ => exact hne
  | stream _ _ => simp [Wire.word]
  | payload _ _ => simp [Wire.word]

/-- **The bytes are taken to end too early exactly if they start with a command that is cut off.** -/
theorem read_eq_truncated_iff {input : Bytes} {n : Nat} (hne : input ≠ []) :
    read paints input = .error (.truncated n) ↔ EndsEarly paints input n := by
  constructor
  · intro h
    rcases Reader.bind_eq_error_iff.1 h with hword | ⟨w, rest, hword, hsized⟩
    · obtain ⟨hlength, ⟨⟩⟩ := Reader.word_eq_error_iff.1 hword
      exact .word hne hlength
    · obtain rfl := Reader.word_eq_ok_iff_word.1 hword
      by_cases hsize : headerSize w < 4
      · rw [readSized_of_lt_four hsize] at hsized
        cases hsized
      by_cases hlength : rest.length + 4 < headerSize w
      · rw [readSized_of_length_lt (Nat.not_lt.1 hsize) hlength] at hsized
        cases hsized
        exact .stream (Nat.not_lt.1 hsize) hlength
      obtain ⟨payload, after, rfl, hpayload⟩ := exists_payload hsize hlength
      rw [← hpayload, readSized_append] at hsized
      unfold ofPayload at hsized
      split at hsized
      · next hfield =>
        cases hsized
        exact .payload hpayload hfield
      · cases hsized
      · cases hsized
  · intro h
    cases h with
    | word _ hlength => exact Reader.bind_of_error (Reader.word_eq_error_iff.2 ⟨hlength, rfl⟩)
    | stream hsize hlength => rw [read_word_append, readSized_of_length_lt hsize hlength]
    | payload hsize hfield =>
        rw [read_word_append, ← hsize, readSized_append, ofPayload, hfield]
        rfl

theorem readAllAfter_cons (done : List Command) (b : UInt8) (rest : Bytes) :
    readAllAfter paints done (b :: rest) =
      match read paints (b :: rest) with
      | .error e => .error e
      | .ok (c, rest) => readAllAfter paints (c :: done) rest := by
  rw [readAllAfter]
  split
  next h => rw [h]
  next h => rw [h]

/-- The commands that were read before do not matter. -/
theorem readAllAfter_eq (done : List Command) (input : Bytes) :
    readAllAfter paints done input = (readAll paints input).map (done.reverse ++ ·) := by
  unfold readAll
  -- on the number of bytes: a command that is read leaves fewer of them
  induction hn : input.length using Nat.strongRecOn generalizing done input with
  | ind n ih =>
      match input, hn with
      | [], _ => simp [readAllAfter, Except.map]
      | b :: rest, hn =>
          rw [readAllAfter_cons, readAllAfter_cons]
          cases hread : read paints (b :: rest) with
          | error e => rfl
          | ok r =>
              obtain ⟨c, after⟩ := r
              obtain ⟨size, hsize, hlength⟩ := length_add_of_read hread
              have hlt : after.length < n := by omega
              simp only [ih after.length hlt (c :: done) after rfl,
                ih after.length hlt [c] after rfl]
              cases readAllAfter paints [] after with
              | error e => rfl
              | ok cs => simp [Except.map]

@[simp] theorem readAll_nil : readAll paints [] = .ok [] := by
  simp [readAll, readAllAfter]

/-- A command in front of the others is read first. -/
theorem readAll_of_ok {input rest : Bytes} {c : Command} (h : read paints input = .ok (c, rest)) :
    readAll paints input = (readAll paints rest).map (c :: ·) := by
  match input with
  | [] => cases h
  | b :: bytes =>
      rw [readAll, readAllAfter_cons, h]
      exact readAllAfter_eq [c] rest

/-- If the first command cannot be read, none is. -/
theorem readAll_of_error {input : Bytes} {e : PictureError} (hne : input ≠ [])
    (h : read paints input = .error e) : readAll paints input = .error e := by
  match input with
  | [] => exact absurd rfl hne
  | b :: bytes => rw [readAll, readAllAfter_cons, h]

/-- The commands are read one after the other, and `rest` is left. -/
inductive ReadsUpTo (paints : Array Paint) : List Command → Bytes → Bytes → Prop
  | nil (rest : Bytes) : ReadsUpTo paints [] rest rest
  | cons {c : Command} {commands : List Command} {input middle rest : Bytes}
      (hread : read paints input = .ok (c, middle)) (hrest : ReadsUpTo paints commands middle rest) :
      ReadsUpTo paints (c :: commands) input rest

theorem readAll_of_readsUpTo {commands : List Command} {input rest : Bytes}
    (h : ReadsUpTo paints commands input rest) :
    readAll paints input = (readAll paints rest).map (commands ++ ·) := by
  induction h with
  | nil rest => cases readAll paints rest <;> rfl
  | @cons c commands input middle rest hread _ ih =>
      rw [readAll_of_ok hread, ih]
      cases readAll paints rest <;> rfl

/-- The commands are read up to the end, or up to one that cannot be read. -/
theorem exists_readsUpTo (paints : Array Paint) (input : Bytes) :
    ∃ commands rest, ReadsUpTo paints commands input rest ∧
      (rest = [] ∨ rest ≠ [] ∧ ∃ e, read paints rest = .error e) := by
  -- on the number of bytes: a command that is read leaves fewer of them
  induction hn : input.length using Nat.strongRecOn generalizing input with
  | ind n ih =>
      by_cases hnil : input = []
      · exact ⟨[], input, .nil input, .inl hnil⟩
      · cases hread : read paints input with
        | error e => exact ⟨[], input, .nil input, .inr ⟨hnil, e, hread⟩⟩
        | ok r =>
            obtain ⟨c, middle⟩ := r
            obtain ⟨size, hsize, hlength⟩ := length_add_of_read hread
            obtain ⟨commands, rest, hrest, hend⟩ := ih middle.length (by omega) middle rfl
            exact ⟨c :: commands, rest, .cons hread hrest, hend⟩

/-- **All commands are read exactly if they are read up to the end.** -/
theorem readAll_eq_ok_iff {commands : List Command} {input : Bytes} :
    readAll paints input = .ok commands ↔ ReadsUpTo paints commands input [] := by
  constructor
  · intro h
    obtain ⟨commands', rest, hreads, hend⟩ := exists_readsUpTo paints input
    rw [readAll_of_readsUpTo hreads] at h
    rcases hend with rfl | ⟨hne, e, hread⟩
    · rw [readAll_nil] at h
      have hcommands : commands' ++ [] = commands := Except.ok.inj h
      rwa [← hcommands, List.append_nil]
    · rw [readAll_of_error hne hread] at h
      cases h
  · intro h
    rw [readAll_of_readsUpTo h, readAll_nil]
    exact congrArg Except.ok (List.append_nil commands)

/-- **What is reported is the fault of the first command that cannot be read.** -/
theorem readAll_eq_error_iff {input : Bytes} {e : PictureError} :
    readAll paints input = .error e ↔
      ∃ commands rest, ReadsUpTo paints commands input rest ∧ rest ≠ [] ∧
        read paints rest = .error e := by
  constructor
  · intro h
    obtain ⟨commands, rest, hreads, hend⟩ := exists_readsUpTo paints input
    rw [readAll_of_readsUpTo hreads] at h
    rcases hend with rfl | ⟨hne, e', hread⟩
    · rw [readAll_nil] at h
      cases h
    · rw [readAll_of_error hne hread] at h
      cases h
      exact ⟨commands, rest, hreads, hne, hread⟩
  · rintro ⟨commands, rest, hreads, hne, hread⟩
    rw [readAll_of_readsUpTo hreads, readAll_of_error hne hread]
    rfl

end Command

/-! ### Pictures -/

namespace Contents

/-- What comes before the byte that tells whether there is a body. -/
def readHead : Reader Rect := do
  let start ← Reader.take Picture.magic.length
  Reader.require (start = Picture.magic) .badMagic
  let version ← Reader.word
  Reader.require (version = Picture.version) (.unsupportedVersion version)
  Reader.rect

/-- The paint table and the stream of the commands, which is cut out and not looked into. -/
def readStream : Reader (List Paint × Bytes) := do
  Reader.tag Picture.commandTag
  let length ← Reader.word
  let stream ← Reader.take length.toNat
  Reader.tag Picture.paintTag
  let count ← Reader.word
  let paints ← Reader.times count.toNat Paint.read
  Reader.tag Picture.endTag
  return (paints, stream)

/-- A body, the bounds being known. -/
def readBody (bounds : Rect) : Reader Contents := do
  Reader.tag Picture.commandTag
  let length ← Reader.word
  let stream ← Reader.take length.toNat
  Reader.tag Picture.paintTag
  let count ← Reader.word
  let paints ← Reader.times count.toNat Paint.read
  Reader.tag Picture.endTag
  let commands ← Reader.ofExcept (Command.readAll paints.toArray stream)
  return ⟨bounds, some (paints, commands)⟩

/-- The commands are read last, when the paint table is known. -/
theorem readBody_eq (bounds : Rect) :
    readBody bounds = (do
      let (paints, stream) ← readStream
      let commands ← Reader.ofExcept (Command.readAll paints.toArray stream)
      return ⟨bounds, some (paints, commands)⟩) := by
  unfold readBody readStream
  simp only [bind_assoc, pure_bind]

/-- **A picture is its head, a byte, and a body if the byte is not zero.** -/
theorem read_eq :
    read = (do
      let bounds ← readHead
      let mark ← Reader.byte
      if mark = 0 then return ⟨bounds, none⟩ else readBody bounds) := by
  unfold read readHead
  simp only [bind_assoc]
  congr 1
  funext start
  unfold Reader.require
  by_cases hmagic : start = Picture.magic
  · simp only [ne_eq, hmagic, not_true_eq_false, if_false, if_true, pure_bind]
    congr 1
    funext version
    by_cases hversion : version = Picture.version
    · simp only [hversion, not_true_eq_false, if_false, if_true, pure_bind]
      rfl
    · simp only [hversion, not_false_eq_true, if_true, if_false]
      rfl
  · -- the check that fails is the last step that is taken, in both forms
    simp only [ne_eq, hmagic, not_false_eq_true, if_true, if_false]
    rfl

end Contents

end PictureTape

/-
**Stored lengths.**

An encoded picture tells how long its stream is, how many paints it has, and how long each key and
each value is.  All of these are words, and a number is stored as what is left of it in a word.
What is checked is the size of each command.  The check is enough for keys and values: their lengths
are right in a stream of any length.  The length of the stream and the number of paints are right if
they fit in a word.

Main definitions:

* `Wire.wordAt` — the number that the four bytes at a position spell;
* `Wire.HoldsStrings` — at a position stand the key and the value of an annotation, each behind its
  length.

Main results:

* `Command.holdsStrings_of_drop` — an annotation that is not too large holds its key and its value;
* `Command.drop_pieces_append_cons` — where a command stands in the stream;
* `Picture.drop_withHead` — where the stream and the paints stand;
* `Picture.exact_lengths` — **if a command is too large, the picture is refused for such a command;
  if none is, it is encoded and the lengths that fit are exact.**
-/

import PictureTape.Proofs.RoundTrip

set_option autoImplicit false
set_option relaxedAutoImplicit false

namespace PictureTape

/-! ### Words at a position -/

namespace Wire

/-- The number that the four bytes at a position spell, the lowest first. -/
def wordAt (d : Bytes) (position : Nat) : Nat := Reader.littleEndian ((d.drop position).take 4)

variable {d front rest : Bytes} {position : Nat}

theorem wordAt_of_drop {w : UInt32} (h : d.drop position = word w ++ rest) :
    wordAt d position = w.toNat := by
  unfold wordAt
  rw [h, List.take_left' (length_word w), Reader.littleEndian_word]

/-- A number that fits in a word is stored as it is. -/
theorem wordAt_of_drop_ofNat {n : Nat} (hn : n < UInt32.size)
    (h : d.drop position = word (.ofNat n) ++ rest) : wordAt d position = n := by
  rw [wordAt_of_drop h, UInt32.toNat_ofNat_of_lt' hn]

/-- What stands behind a front. -/
theorem drop_add_length (h : d.drop position = front ++ rest) :
    d.drop (position + front.length) = rest := by
  rw [← List.drop_drop, h, List.drop_left]

/-- At the position stands a key behind its length, and at the next whole number of words a value
behind its length.  In place of the length of a value that is absent stands a word that is not the
length of a value. -/
structure HoldsStrings (d : Bytes) (position : Nat) (key : Bytes) (value : Option Bytes) :
    Prop where
  keyLength : wordAt d position = key.length
  keyBytes : (d.drop (position + 4)).take key.length = key
  valueLength : wordAt d (position + 4 + roundedUp key.length) =
    value.elim absent.toNat List.length
  valueBytes : ∀ content, value = some content → content.length < absent.toNat ∧
    (d.drop (position + 8 + roundedUp key.length)).take content.length = content

/-- A string of bytes behind its length. -/
theorem drop_padded {bytes : Bytes} (h : d.drop position = padded bytes ++ rest) :
    d.drop position = word (.ofNat bytes.length) ++
        (bytes ++ (List.replicate (padding bytes.length) 0 ++ rest)) ∧
      d.drop (position + 4 + roundedUp bytes.length) = rest := by
  constructor
  · rw [h, padded, List.append_assoc, List.append_assoc]
  · have hrest := drop_add_length h
    rwa [length_padded, ← Nat.add_assoc] at hrest

theorem holdsStrings_of_drop {key : Bytes} {value : Option Bytes}
    (hkey : key.length < absent.toNat)
    (hvalue : ∀ content, value = some content → content.length < absent.toNat)
    (h : d.drop position = padded key ++ (optional value ++ rest)) :
    HoldsStrings d position key value := by
  have hmax : absent.toNat < UInt32.size := by decide
  obtain ⟨hkeyAt, hvalueAt⟩ := drop_padded h
  have hkeyBytes := drop_add_length hkeyAt
  rw [length_word] at hkeyBytes
  refine ⟨wordAt_of_drop_ofNat (Nat.lt_trans hkey hmax) hkeyAt, ?_, ?_, ?_⟩
  · rw [hkeyBytes, List.take_left]
  · cases value with
    | none => exact wordAt_of_drop hvalueAt
    | some content =>
        have hfits := Nat.lt_trans (hvalue content rfl) hmax
        exact wordAt_of_drop_ofNat hfits (drop_padded hvalueAt).1
  · rintro content rfl
    have hcontent := drop_add_length (drop_padded hvalueAt).1
    rw [length_word, Nat.add_right_comm, Nat.add_assoc position 4 4] at hcontent
    refine ⟨hvalue content rfl, ?_⟩
    rw [hcontent, List.take_left]

end Wire

/-! ### Annotations -/

namespace Command

/-- **An annotation that is not too large holds its key and its value,** behind its first word and
its area. -/
theorem holdsStrings_of_drop {d rest : Bytes} {position index : Nat} {r : Rect} {key : String}
    {value : Option Bytes} (hsize : (annotate r key value).size ≤ largestSize)
    (h : d.drop position = (annotate r key value).stored index ++ rest) :
    Wire.HoldsStrings d (position + 20) (Wire.ofText key) value := by
  obtain ⟨hkey, hvalue⟩ := length_lt_absent_of_size_le hsize
  have hfront : d.drop position =
      (Wire.word (header (annotate r key value).code (annotate r key value).size) ++ Wire.rect r) ++
        (Wire.padded (Wire.ofText key) ++ (Wire.optional value ++ rest)) := by
    rw [h, stored, payload]
    simp only [List.append_assoc]
  exact Wire.holdsStrings_of_drop hkey hvalue (Wire.drop_add_length hfront)

/-- A command of a stream stands behind the commands before it, with the position that its paint is
given in the table that they leave. -/
theorem drop_pieces_append_cons {d rest : Bytes} {position : Nat} {table : PaintTable}
    {commands before after : List Command} {c : Command} (hsplit : commands = before ++ c :: after)
    (h : d.drop position = (pieces table commands).flatten ++ rest) :
    ∃ rest', d.drop (position + totalSize before) =
      c.stored (c.enterPaint (PaintTable.enterAll (paintsOf before) table)).1 ++ rest' := by
  rw [hsplit, pieces_append, List.flatten_append, List.append_assoc] at h
  have hbehind := Wire.drop_add_length h
  rw [length_flatten_pieces, pieces, List.flatten_cons, List.append_assoc] at hbehind
  exact ⟨_, hbehind⟩

theorem drop_of_eq_append_cons {d rest : Bytes} {position : Nat} {table : PaintTable}
    {commands before after : List Command} {c : Command} (hsplit : commands = before ++ c :: after)
    (h : d.drop position = (pieces table commands).flatten ++ rest) :
    ∃ index rest', d.drop (position + totalSize before) = c.stored index ++ rest' := by
  obtain ⟨rest', hat⟩ := drop_pieces_append_cons hsplit h
  exact ⟨_, rest', hat⟩

/-- Behind the first word of a rectangle stands the position of its paint. -/
theorem drop_drawRect {d rest : Bytes} {position index : Nat} {r : Rect} {paint : Paint}
    (h : d.drop position = (drawRect r paint).stored index ++ rest) :
    d.drop (position + 4) = Wire.word (.ofNat index) ++ (Wire.rect r ++ rest) := by
  rw [stored, List.append_assoc] at h
  have hpayload := Wire.drop_add_length h
  rwa [Wire.length_word, payload, List.append_assoc] at hpayload

end Command

/-! ### Pictures -/

namespace Picture

/-- **Where the stream and the paints stand.** -/
theorem drop_withHead (bounds : Rect) (body : Body) :
    (body.withHead bounds).drop 33 = Wire.word (.ofNat body.commands.length) ++
        (body.withHead bounds).drop 37 ∧
      (body.withHead bounds).drop 37 = body.commands ++ (Wire.word paintTag ++
        (body.withHead bounds).drop (41 + body.commands.length)) ∧
      (body.withHead bounds).drop (41 + body.commands.length) =
        Wire.word (.ofNat body.paints.length) ++
          (body.paints.flatMap Paint.stored ++ Wire.word endTag) := by
  have hstream : (body.withHead bounds).drop 37 = body.commands ++ (Wire.word paintTag ++
      (Wire.word (.ofNat body.paints.length) ++
        (body.paints.flatMap Paint.stored ++ Wire.word endTag))) := rfl
  have htag := Wire.drop_add_length hstream
  have hcount := Wire.drop_add_length htag
  rw [Wire.length_word, Nat.add_right_comm] at hcount
  refine ⟨rfl, ?_, hcount⟩
  rw [hcount, hstream]

/-- A picture with a command that is too large is refused. -/
theorem exists_encode_eq_error {p : Picture} {c : Command} (hc : c ∈ p.commands)
    (hsize : Command.largestSize < c.size) :
    ∃ b ∈ p.commands, Command.largestSize < b.size ∧
      p.encode = .error (.commandTooLarge b.size) := by
  cases hencode : p.encode with
  | ok d =>
      obtain ⟨body, hbody, -⟩ := encode_eq_ok_iff.1 hencode
      have hfits := (body_eq_ok_iff.1 hbody).1 c hc
      exact absurd hsize (Nat.not_lt_of_le hfits)
  | error e =>
      obtain ⟨before, b, after, hsplit, -, hlarge, rfl⟩ := encode_eq_error_iff.1 hencode
      refine ⟨b, ?_, hlarge, rfl⟩
      rw [hsplit]
      exact List.mem_append_right before List.mem_cons_self

/-- **The lengths that fit are exact.**  If a command is larger than 24 bits can tell, then the
picture is refused for the size of such a command.  If there is none, then it is encoded.  The length
of its stream stands in front of the stream, and is exact if it fits in a word; the number of its
paints stands between the stream and the paints, and is exact if it fits in a word, as it does if the
length of the stream fits.  Each annotation stands behind the commands before it, and the lengths of
its key and its value are exact in a stream of any length. -/
theorem exact_lengths (p : Picture) :
    ((∃ c ∈ p.commands, 0xffffff < c.size) →
      ∃ c ∈ p.commands, 0xffffff < c.size ∧ p.encode = .error (.commandTooLarge c.size)) ∧
    ((∀ c ∈ p.commands, c.size ≤ 0xffffff) →
      ∃ body d, p.body = .ok body ∧ p.encode = .ok d ∧
        d.drop 37 = body.commands ++ (Wire.word paintTag ++ d.drop (41 + body.commands.length)) ∧
        d.drop (45 + body.commands.length) =
          body.paints.flatMap Paint.stored ++ Wire.word endTag ∧
        (body.commands.length < UInt32.size → Wire.wordAt d 33 = body.commands.length) ∧
        (body.paints.length < UInt32.size →
          Wire.wordAt d (41 + body.commands.length) = body.paints.length) ∧
        body.paints.length ≤ body.commands.length ∧
        ∀ before r key value after, p.commands = before ++ .annotate r key value :: after →
          Wire.HoldsStrings d (37 + Command.totalSize before + 20) (Wire.ofText key) value) := by
  refine ⟨?_, fun hfits => ?_⟩
  · rintro ⟨c, hc, hlarge⟩
    exact exists_encode_eq_error hc hlarge
  obtain ⟨body, hbody, hd, -⟩ := exists_encode_eq_ok hfits
  obtain ⟨hlengthAt, hstreamAt, hcountAt⟩ := drop_withHead p.bounds body
  have hentriesAt := Wire.drop_add_length hcountAt
  rw [Wire.length_word, Nat.add_right_comm] at hentriesAt
  refine ⟨body, _, hbody, hd, hstreamAt, hentriesAt, ?_, ?_, length_paints_le hbody, ?_⟩
  · intro hlength
    exact Wire.wordAt_of_drop_ofNat hlength hlengthAt
  · intro hcount
    exact Wire.wordAt_of_drop_ofNat hcount hcountAt
  · intro before r key value after hsplit
    have hmem : .annotate r key value ∈ p.commands := by
      rw [hsplit]
      exact List.mem_append_right before List.mem_cons_self
    obtain ⟨-, rfl⟩ := body_eq_ok_iff.1 hbody
    obtain ⟨index, rest, hat⟩ := Command.drop_of_eq_append_cons hsplit hstreamAt
    exact Command.holdsStrings_of_drop (hfits _ hmem) hat

/-- A picture with an annotation that has a value of so many bytes, between a save and a restore. -/
def longNote (n : Nat) : Picture where
  bounds := ⟨0, 0, 1, 1⟩
  commands := [.save, .annotate ⟨0, 0, 1, 1⟩ "" (some (List.replicate n 0)), .restore]

theorem size_longNote (n : Nat) :
    (Command.annotate ⟨0, 0, 1, 1⟩ "" (some (List.replicate n 0))).size =
      28 + Wire.roundedUp n := by
  simp [Command.size, Wire.ofText, Wire.roundedUp, Wire.padding]

/-- A value that is one byte too long is refused; the two annotations of `zeroWidths`, one of them
without a value, have their lengths. -/
theorem exact_lengths_zeroWidths :
    (longNote 0xffffe1).encode = .error (.commandTooLarge 0x1000000) ∧
    ∃ body d, zeroWidths.body = .ok body ∧ zeroWidths.encode = .ok d ∧
      body.commands.length = 136 ∧ Wire.wordAt d 33 = 136 ∧
      body.paints.length = 1 ∧ Wire.wordAt d 177 = 1 ∧
      Wire.HoldsStrings d 57 (Wire.ofText "first") (some []) ∧
      Wire.HoldsStrings d 161 (Wire.ofText "last") none := by
  constructor
  · have hnote : 0xffffff <
        (Command.annotate ⟨0, 0, 1, 1⟩ "" (some (List.replicate 0xffffe1 0))).size := by
      rw [size_longNote]
      decide
    obtain ⟨c, hc, hlarge, hencode⟩ :=
      (exact_lengths (longNote 0xffffe1)).1 ⟨_, .tail _ (.head _), hnote⟩
    -- the save and the restore are not too large, so it is the annotation that is refused
    rcases List.mem_cons.1 hc with rfl | hc
    · exact absurd hlarge (by decide)
    rcases List.mem_cons.1 hc with rfl | hc
    · rw [hencode, size_longNote]
      rfl
    rcases List.mem_singleton.1 hc with rfl
    exact absurd hlarge (by decide)
  · obtain ⟨body, d, hbody, hd, -, -, hlength, hcount, -, hstrings⟩ :=
      (exact_lengths zeroWidths).2 (by decide +kernel)
    obtain ⟨-, rfl⟩ := body_eq_ok_iff.1 hbody
    have htotal : (Command.pieces [] zeroWidths.commands).flatten.length = 136 := by
      rw [Command.length_flatten_pieces]
      decide +kernel
    have hpaints : (PaintTable.enterAll zeroWidths.paints []).length = 1 := by decide +kernel
    simp only [htotal, hpaints] at hlength hcount
    exact ⟨_, d, hbody, hd, htotal, hlength (by decide), hpaints, hcount (by decide),
      hstrings [] _ "first" _ _ rfl, hstrings (zeroWidths.commands.take 6) _ "last" _ [] rfl⟩

/-- A picture of so many saves. -/
def saves (n : Nat) : Picture := ⟨⟨0, 0, 1, 1⟩, List.replicate n .save⟩

theorem totalSize_saves (n : Nat) : Command.totalSize (saves n).commands = 4 * n := by
  induction n with
  | zero => rfl
  | succ n ih =>
      have hsucc : Command.totalSize (saves (n + 1)).commands =
          4 + Command.totalSize (saves n).commands := rfl
      rw [hsucc, ih]
      omega

/-- What is left of the length in a word stands in front of the stream. -/
theorem exists_encode_saves (n : Nat) :
    ∃ body d, (saves n).body = .ok body ∧ (saves n).encode = .ok d ∧
      body.commands.length = 4 * n ∧
      d.drop 37 = body.commands ++ (Wire.word paintTag ++ d.drop (41 + body.commands.length)) ∧
      Wire.wordAt d 33 = (UInt32.ofNat (4 * n)).toNat := by
  have hfits : ∀ c ∈ (saves n).commands, c.size ≤ Command.largestSize := by
    intro c hc
    rw [List.eq_of_mem_replicate hc]
    decide
  obtain ⟨body, hbody, hd, htotal⟩ := exists_encode_eq_ok hfits
  obtain ⟨hlengthAt, hstreamAt, -⟩ := drop_withHead (saves n).bounds body
  have hword := Wire.wordAt_of_drop hlengthAt
  rw [totalSize_saves] at htotal
  rw [htotal] at hword
  exact ⟨body, _, hbody, hd, htotal, hstreamAt, hword⟩

/-- As many saves as make a stream of `2 ^ 32` bytes are encoded, and the length in front of them is
zero. -/
theorem wordAt_encode_saves_eq_zero :
    ∃ body d, (saves 0x40000000).body = .ok body ∧ (saves 0x40000000).encode = .ok d ∧
      body.commands.length = 0x100000000 ∧
      d.drop 37 = body.commands ++ (Wire.word paintTag ++ d.drop (41 + body.commands.length)) ∧
      Wire.wordAt d 33 = 0 := by
  obtain ⟨body, d, hbody, hd, hlength, hstreamAt, hword⟩ := exists_encode_saves 0x40000000
  exact ⟨body, d, hbody, hd, hlength, hstreamAt, hword⟩

end Picture

end PictureTape

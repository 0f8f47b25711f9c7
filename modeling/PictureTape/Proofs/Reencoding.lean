/-
**Encoding what was decoded.**

A decoded picture can be encoded, since each of its commands was read from as many bytes as it is
written in, and its colors are packed ones already.  The bytes are a normal form: decoding them
gives a picture that agrees with the first one and is encoded in the same bytes, and no stored
picture with a body is shorter.

Main definitions:

* `Picture.storedMark`, `Picture.storedStream` — the byte of a stored picture that tells whether
  there is a body, and the stream of its commands.

Main results:

* `Command.pieces_map_normal`, `Picture.encode_normal` — **what is left of a picture with packed
  colors is encoded in the same bytes;**
* `Picture.length_withHead_le` — no stored picture with a body is shorter than the encoded one;
* `Picture.encode_decode` — **decoded pictures are encoded in a normal form.**
-/

import PictureTape.Proofs.Acceptance
import PictureTape.Proofs.RoundTrip

set_option autoImplicit false
set_option relaxedAutoImplicit false

namespace PictureTape

/-! ### The parts of a stored picture -/

theorem Command.length_of_inTurn {paints : List Paint} {commands : List Command} {bytes : Bytes}
    (h : Wire.InTurn (IsPiece paints) commands bytes) : bytes.length = totalSize commands := by
  induction h with
  | nil => rfl
  | cons hfront _ ih => rw [List.length_append, length_of_isPiece hfront, ih, totalSize]

namespace Picture

/-- The byte that tells whether there is a body. -/
def storedMark (d : Bytes) : UInt8 := d.getD 28 0

/-- The stream of the commands: what stands behind its length, or nothing without a body. -/
def storedStream (d : Bytes) : Bytes :=
  if storedMark d = 0 then []
  else (d.drop 37).take (Wire.Reader.littleEndian ((d.drop 33).take 4))

theorem storedMark_head (bounds : Rect) (mark : UInt8) (rest : Bytes) :
    storedMark (head bounds ++ (mark :: rest)) = mark := rfl

theorem drop_33_head (bounds : Rect) (mark : UInt8) (tag : UInt32) (rest : Bytes) :
    (head bounds ++ (mark :: (Wire.word tag ++ rest))).drop 33 = rest := rfl

theorem drop_37_head (bounds : Rect) (mark : UInt8) (tag length : UInt32) (rest : Bytes) :
    (head bounds ++ (mark :: (Wire.word tag ++ (Wire.word length ++ rest)))).drop 37 = rest := rfl

variable {paints : List Paint} {p : Picture} {d : Bytes}

/-- The stream of a stored picture is as long as its commands are together. -/
theorem length_storedStream (h : p.IsStored paints d) :
    (storedStream d).length = Command.totalSize p.commands := by
  unfold storedStream
  cases h with
  | withoutBody bounds rest =>
      rw [storedMark_head, if_pos rfl]
      rfl
  | withBody bounds rest hmark hstream htable hlength hcount =>
      rename_i stream table
      have hword := Wire.Reader.littleEndian_word (.ofNat stream.length)
      rw [UInt32.toNat_ofNat_of_lt' hlength] at hword
      rw [storedMark_head, if_neg hmark, drop_33_head, drop_37_head,
        List.take_left' (Wire.length_word _), hword, List.take_left,
        Command.length_of_inTurn hstream]

theorem length_table {table : Bytes} (h : Wire.InTurn Paint.IsEntry paints table) :
    table.length = 12 * paints.length := by
  induction h with
  | nil => rfl
  | cons hfront _ ih =>
      rw [List.length_append, Paint.length_of_isEntry hfront, ih, List.length_cons]
      omega

theorem length_head (bounds : Rect) : (head bounds).length = 28 := rfl

/-- A stored picture with a body has room for its commands and its whole paint table. -/
theorem le_length_of_isStored (h : p.IsStored paints d) (hmark : storedMark d ≠ 0) :
    49 + Command.totalSize p.commands + 12 * paints.length ≤ d.length := by
  cases h with
  | withoutBody bounds rest =>
      rw [storedMark_head] at hmark
      exact absurd rfl hmark
  | withBody bounds rest _ hstream htable hlength hcount =>
      rw [← Command.length_of_inTurn hstream, ← length_table htable]
      simp only [List.length_append, List.length_cons, Wire.length_word, length_head]
      omega

theorem length_flatMap_stored (paints : List Paint) :
    (paints.flatMap Paint.stored).length = 12 * paints.length := by
  induction paints with
  | nil => rfl
  | cons paint paints ih =>
      rw [List.flatMap_cons, List.length_append, Paint.length_stored, ih, List.length_cons]
      omega

theorem length_withHead (bounds : Rect) (body : Body) :
    (body.withHead bounds).length = 49 + body.commands.length + 12 * body.paints.length := by
  have hmagic : magic.length = 8 := rfl
  unfold Body.withHead
  simp only [List.length_append, List.length_cons, Wire.length_word, Wire.length_rect, hmagic,
    length_flatMap_stored]
  omega

/-! ### What a stored picture tells of its commands -/

theorem size_le_of_isStored (h : p.IsStored paints d) {c : Command} (hc : c ∈ p.commands) :
    c.size ≤ Command.largestSize := by
  cases h with
  | withoutBody bounds rest => cases hc
  | withBody bounds rest _ hstream htable hlength hcount =>
      obtain ⟨front, hfront⟩ := hstream.exists_of_mem hc
      exact Command.size_le_of_isPiece hfront

theorem sum_size_lt_of_isStored (h : p.IsStored paints d) :
    Command.totalSize p.commands < UInt32.size := by
  cases h with
  | withoutBody bounds rest =>
      change 0 < UInt32.size
      decide
  | withBody bounds rest _ hstream htable hlength hcount =>
      rw [← Command.length_of_inTurn hstream]
      exact hlength

/-- The paints of a stored picture are in its table. -/
theorem mem_of_isStored (h : p.IsStored paints d) {paint : Paint} (hpaint : paint ∈ p.paints) :
    paint ∈ paints := by
  obtain ⟨r, hr⟩ := Command.mem_paintsOf.1 hpaint
  cases h with
  | withoutBody bounds rest => cases hr
  | withBody bounds rest _ hstream htable hlength hcount =>
      obtain ⟨front, hfront⟩ := hstream.exists_of_mem hr
      exact Command.mem_of_isPiece hfront rfl

/-- The colors in a stored picture are packed ones. -/
theorem exists_ofArgb_of_isStored (h : p.IsStored paints d) {paint : Paint}
    (hpaint : paint ∈ p.paints) : ∃ argb, paint.color = .ofArgb argb := by
  have hmem := mem_of_isStored h hpaint
  cases h with
  | withoutBody bounds rest => cases hmem
  | withBody bounds rest _ hstream htable hlength hcount =>
      obtain ⟨front, hfront⟩ := htable.exists_of_mem hmem
      obtain ⟨argb, width, style, flags, a, b⟩ := hfront
      exact ⟨argb, rfl⟩

/-- The streams and the paint table that encoding a stored picture leaves. -/
theorem body_of_isStored (h : p.IsStored paints d) :
    p.body = .ok ⟨(Command.pieces [] p.commands).flatten, PaintTable.enterAll p.paints []⟩ :=
  body_eq_ok_iff.2 ⟨fun _ hc => size_le_of_isStored h hc, rfl⟩

/-- **No stored picture with a body is shorter than the encoded one:** the table that encoding
leaves has no entry twice, and each of them is in the table that is stored. -/
theorem length_withHead_le (h : p.IsStored paints d) (hmark : storedMark d ≠ 0)
    (hfinite : p.isFinite = true) {body : Body} (hbody : p.body = .ok body) :
    (body.withHead p.bounds).length ≤ d.length := by
  obtain ⟨-, rfl⟩ := body_eq_ok_iff.1 hbody
  have hwidths : ∀ paint ∈ p.paints, paint.strokeWidth.isNaN = false := fun paint hpaint =>
    Binary32.isNaN_of_isFinite (isFinite_strokeWidth_of_mem_paints hfinite hpaint)
  have hnodup := PaintTable.nodup_enterAll hwidths List.nodup_nil
  have hsub : PaintTable.enterAll p.paints [] ⊆ paints := by
    intro paint hpaint
    rcases PaintTable.mem_enterAll hpaint with hnil | hmem
    · cases hnil
    · exact mem_of_isStored h hmem
  -- distinct entries that are all in the stored table are not more than it has
  have htable := hnodup.length_le_of_subset hsub
  have hroom := le_length_of_isStored h hmark
  simp only [length_withHead, Command.length_flatten_pieces]
  omega

end Picture

/-! ### Encoding what is left -/

namespace Paint

/-- A packed color is not changed by rounding it. -/
theorem rounded_of_ofArgb {p : Paint} (h : ∃ argb, p.color = .ofArgb argb) : p.rounded = p := by
  obtain ⟨argb, hargb⟩ := h
  cases p
  simp only at hargb
  simp only [rounded, hargb, Color.toArgb_ofArgb]

end Paint

/-- What is left of a paint is entered where the paint is entered: it agrees with the paint, and it
is the paint if there is no entry for it yet. -/
theorem PaintTable.enter_normal {before after : List Paint} {table : PaintTable} {p : Paint}
    (hfind : ∀ q : Paint, table.find? (·.agrees q) = before.find? (·.agrees q))
    (hfinite : p.strokeWidth.isFinite = true) (hcolor : ∃ argb, p.color = .ofArgb argb) :
    enter (p.normal (before ++ p :: after)) table = enter p table := by
  have hagrees := Paint.normal_agrees hfinite hcolor (before ++ p :: after)
  have hsame : (fun q : Paint => q.agrees (p.normal (before ++ p :: after))) =
      fun q : Paint => q.agrees p := by
    funext q
    rw [Paint.agrees_comm, Paint.agrees_congr hagrees, Paint.agrees_comm]
  cases hfound : table.findIdx? (·.agrees p) with
  | some i =>
      rw [enter_of_findIdx?_eq_some hfound]
      exact enter_of_findIdx?_eq_some (by rw [hsame]; exact hfound)
  | none =>
      have hnone : before.find? (·.agrees p) = none := by
        rw [← hfind, List.find?_eq_none]
        intro q hq
        rw [List.findIdx?_eq_none_iff.1 hfound q hq]
        decide
      -- no earlier paint agrees with it, so it keeps its own width
      have hself : p.normal (before ++ p :: after) = p := by
        rw [Paint.normal_eq, Paint.firstIn_append_cons, Paint.firstIn, hnone]
        exact Paint.rounded_of_ofArgb hcolor
      rw [hself]

namespace Command

theorem stored_normal (paints : List Paint) (c : Command) (i : Nat) :
    (c.normal paints).stored i = c.stored i := by
  cases c with
  | drawRect r paint => rfl
  | save => rfl
  | restore => rfl
  | translate v => rfl
  | annotate r key value => rfl

theorem enterPaint_normal {before : List Paint} {table : PaintTable} {c : Command}
    (hfind : ∀ q : Paint, table.find? (·.agrees q) = before.find? (·.agrees q))
    (hfinite : c.isFinite = true)
    (hcolor : ∀ paint, c.paint? = some paint → ∃ argb, paint.color = .ofArgb argb)
    (after : List Paint) :
    (c.normal (before ++ (c.paint?.toList ++ after))).enterPaint table = c.enterPaint table := by
  cases c with
  | drawRect r paint =>
      simp only [isFinite, Bool.and_eq_true] at hfinite
      exact PaintTable.enter_normal hfind hfinite.2 (hcolor paint rfl)
  | save => rfl
  | restore => rfl
  | translate v => rfl
  | annotate r key value => rfl

/-- **What is left of finite commands with packed colors is encoded in the same bytes,** and leaves
the same paint table. -/
theorem pieces_map_normal {before : List Paint} {table : PaintTable} {commands : List Command}
    (hfind : ∀ q : Paint, table.find? (·.agrees q) = before.find? (·.agrees q))
    (hfinite : ∀ c ∈ commands, c.isFinite = true)
    (hcolor : ∀ c ∈ commands, ∀ paint, c.paint? = some paint → ∃ argb, paint.color = .ofArgb argb) :
    pieces table (commands.map (normal (before ++ paintsOf commands))) = pieces table commands ∧
      PaintTable.enterAll
          (paintsOf (commands.map (normal (before ++ paintsOf commands)))) table =
        PaintTable.enterAll (paintsOf commands) table := by
  -- `before` are the paints that were entered already, and the table answers for them
  induction commands generalizing before table with
  | nil => exact ⟨rfl, rfl⟩
  | cons c commands ih =>
      have hentered := enterPaint_normal hfind (hfinite c List.mem_cons_self)
        (hcolor c List.mem_cons_self) (paintsOf commands)
      obtain ⟨hpieces, htable⟩ := ih (find?_enterPaint hfind c)
        (fun d hd => hfinite d (List.mem_cons_of_mem c hd))
        (fun d hd => hcolor d (List.mem_cons_of_mem c hd))
      rw [List.append_assoc] at hpieces htable
      rw [← paintsOf_cons] at hentered hpieces htable
      constructor
      · rw [List.map_cons, pieces, pieces, stored_normal, hentered, hpieces]
      · rw [List.map_cons, enterAll_paintsOf_cons, enterAll_paintsOf_cons, hentered, htable]

end Command

namespace Picture

variable {p : Picture}

/-- **What is left of a finite picture with packed colors is encoded in the same bytes.** -/
theorem encode_normal {d : Bytes} (hfinite : p.isFinite = true)
    (hcolor : ∀ paint ∈ p.paints, ∃ argb, paint.color = .ofArgb argb) (hd : p.encode = .ok d) :
    p.normal.encode = .ok d := by
  obtain ⟨body, hbody, rfl⟩ := encode_eq_ok_iff.1 hd
  obtain ⟨hsize, rfl⟩ := body_eq_ok_iff.1 hbody
  simp only [isFinite, Bool.and_eq_true, List.all_eq_true] at hfinite
  have hcolors : ∀ c ∈ p.commands, ∀ paint, c.paint? = some paint →
      ∃ argb, paint.color = .ofArgb argb := fun _ hc paint hpaint =>
    hcolor paint (mem_paints hc hpaint)
  have hfind : ∀ q : Paint, ([] : PaintTable).find? (·.agrees q) =
      ([] : List Paint).find? (·.agrees q) := fun _ => rfl
  obtain ⟨hpieces, htable⟩ := Command.pieces_map_normal hfind hfinite.2 hcolors
  refine encode_eq_ok_iff.2 ⟨_, body_eq_ok_iff.2 ⟨?_, rfl⟩, ?_⟩
  · intro c hc
    obtain ⟨b, hb, rfl⟩ := List.mem_map.1 hc
    rw [Command.size_normal]
    exact hsize b hb
  · rw [List.nil_append] at hpieces htable
    simp only [normal, paints, hpieces, htable]

/-- Storing a picture changes the sign of a zero width at most. -/
theorem unsignWidths_normal (hfinite : p.isFinite = true)
    (hcolor : ∀ paint ∈ p.paints, ∃ argb, paint.color = .ofArgb argb) :
    p.normal.unsignWidths = p.unsignWidths := by
  have hpaint : ∀ paint ∈ p.paints, (paint.normal p.paints).unsignWidth = paint.unsignWidth := by
    intro paint hmem
    have hwidth := Paint.strokeWidth_firstIn_agrees
      (isFinite_strokeWidth_of_mem_paints hfinite hmem) p.paints
    obtain ⟨argb, hargb⟩ := hcolor paint hmem
    simp only [Paint.unsignWidth, Paint.normal, Binary32.unsignZero_eq_of_agrees hwidth, hargb,
      Color.toArgb_ofArgb]
  unfold unsignWidths normal
  rw [mk.injEq, List.map_map]
  refine ⟨rfl, List.map_congr_left ?_⟩
  intro c hc
  cases c with
  | drawRect r paint =>
      have hmem : paint ∈ p.paints := Command.mem_paintsOf.2 ⟨r, hc⟩
      simp only [Function.comp_apply, Command.normal, Command.unsignWidth, hpaint paint hmem]
  | save => rfl
  | restore => rfl
  | translate v => rfl
  | annotate r key value => rfl

/-! ### The normal form -/

/-- **Decoded pictures are encoded in a normal form.**  What was decoded can be encoded, in a stream
of the same length and, if there was a body, in no more bytes; decoding these bytes gives a picture
that agrees with the first one and differs from it in the sign of zero widths only, and that picture
is encoded in the same bytes. -/
theorem encode_decode {d : Bytes} (h : Picture.decode d = .ok p) :
    ∃ d' p', p.encode = .ok d' ∧ (storedStream d').length = (storedStream d).length ∧
      Picture.decode d' = .ok p' ∧ p'.agrees p = true ∧ p'.unsignWidths = p.unsignWidths ∧
      p'.encode = .ok d' ∧ (storedMark d ≠ 0 → d'.length ≤ d.length) := by
  obtain ⟨paints, hstored, hfinite, -⟩ := exists_isStored_of_decode h
  have hcolor : ∀ paint ∈ p.paints, ∃ argb, paint.color = .ofArgb argb :=
    fun _ hpaint => exists_ofArgb_of_isStored hstored hpaint
  have hbody := body_of_isStored hstored
  have hencode := encode_eq_ok_iff.2 ⟨_, hbody, rfl⟩
  have hlength : (Command.pieces [] p.commands).flatten.length < UInt32.size := by
    rw [Command.length_flatten_pieces]
    exact sum_size_lt_of_isStored hstored
  have hdecode := decode_withHead hbody hlength
  rw [hfinite] at hdecode
  refine ⟨_, p.normal, hencode, ?_, hdecode, normal_agrees hfinite hcolor,
    unsignWidths_normal hfinite hcolor, encode_normal hfinite hcolor hencode, ?_⟩
  · rw [length_storedStream (isStored_withHead hbody hlength), length_storedStream hstored]
    exact Command.totalSize_map_normal p.paints p.commands
  · exact fun hmark => length_withHead_le hstored hmark hfinite hbody

/-- A stored picture that is not in normal form: the first entry of its paint table is not used, the
other two are the same paint, one of them with flags and bytes that do not matter, and three more
bytes follow the end tag. -/
def looselyStored : Bytes :=
  head ⟨0, 0, 100, 100⟩ ++ (7 :: (Wire.word commandTag ++ (Wire.word 52 ++
    (Wire.word 0x15000018 ++ (Wire.word 2 ++ (Wire.rect ⟨0, 0, 10, 10⟩ ++
    (Wire.word 0x15000018 ++ (Wire.word 1 ++ (Wire.rect ⟨5, 5, 10, 10⟩ ++
    (Wire.word 0x1e000004 ++
    (Wire.word paintTag ++ (Wire.word 3 ++
    (Wire.word 0xff0000ff ++ (Wire.number 1 ++ ([0, 1, 0, 0] ++
    (Wire.word 0xff00ff00 ++ (Wire.number 0 ++ ([0, 0, 0, 0] ++
    (Wire.word 0xff00ff00 ++ (Wire.number 0 ++ ([0, 254, 9, 9] ++
    (Wire.word endTag ++ [1, 2, 3]))))))))))))))))))))))

/-- It is decoded, and what was decoded is encoded in no more bytes. -/
theorem encode_decode_looselyStored :
    ∃ p d' p', Picture.decode looselyStored = .ok p ∧ p.encode = .ok d' ∧
      Picture.decode d' = .ok p' ∧ p'.agrees p = true ∧ p'.encode = .ok d' ∧
      storedMark looselyStored ≠ 0 ∧ d'.length ≤ looselyStored.length := by
  have hread : (Picture.decode looselyStored).toOption.isSome = true := by decide +kernel
  cases hdecode : Picture.decode looselyStored with
  | error e =>
      rw [hdecode] at hread
      cases hread
  | ok p =>
      have hmark : storedMark looselyStored ≠ 0 := by decide +kernel
      obtain ⟨d', p', hencode, -, hdecode', hagrees, -, hencode', hlength⟩ := encode_decode hdecode
      exact ⟨p, d', p', rfl, hencode, hdecode', hagrees, hencode', hmark, hlength hmark⟩

end Picture

end PictureTape

/-
**What is decoded.**

Every reader that succeeds has taken bytes that spell what it gives back.  Together with the
opposite direction this says that the decoder accepts exactly the stored pictures whose numbers are
all finite, each of them as the picture that the bytes spell.

Main results:

* `Wire.Reader.exists_isPadded_of_padded`, `Wire.Reader.exists_isOptional_of_optional`,
  `Paint.exists_isEntry_of_read`, `Command.exists_isPiece_of_read` — what a field was spelled by;
* `Command.inTurn_of_readAll` — a stream that is read is made of commands and nothing else;
* `Contents.exists_isStored_of_readBody`, `Picture.exists_isStored_of_decode` — bytes that are
  decoded start with a stored picture;
* `Picture.decode_eq_ok_iff` — **bytes are decoded exactly when they start with a stored picture
  whose numbers are finite,** and the outcome is that picture.
-/

import PictureTape.Proofs.Spelling

set_option autoImplicit false
set_option relaxedAutoImplicit false

namespace PictureTape

/-! ### Strings and sequences -/

namespace Wire

namespace Reader

theorem exists_filling_of_paddedBody {n : Nat} {input content rest : Bytes}
    (h : paddedBody n input = .ok (content, rest)) :
    ∃ filling, input = content ++ (filling ++ rest) ∧ content.length = n ∧
      filling.length = padding n := by
  simp only [paddedBody, bind_eq_ok_iff, take_eq_ok_iff] at h
  obtain ⟨_, _, ⟨rfl, hlength⟩, filling, _, ⟨rfl, hpadding⟩, ⟨⟩⟩ := h
  exact ⟨filling, rfl, hlength, hpadding⟩

theorem isPadded_of_length_eq {w : UInt32} {content filling : Bytes}
    (hlength : content.length = w.toNat) (hfilling : filling.length = padding w.toNat) :
    IsPadded content (Wire.word w ++ (content ++ filling)) := by
  have hw : w = .ofNat content.length := by rw [hlength, UInt32.ofNat_toNat]
  rw [← hlength] at hfilling
  rw [hw]
  exact .intro filling hfilling (by rw [hlength]; exact w.toNat_lt)

theorem exists_isPadded_of_padded {input content rest : Bytes}
    (h : padded input = .ok (content, rest)) :
    ∃ bytes, input = bytes ++ rest ∧ IsPadded content bytes := by
  simp only [padded, bind_eq_ok_iff, word_eq_ok_iff_word] at h
  obtain ⟨w, _, rfl, hbody⟩ := h
  obtain ⟨filling, rfl, hlength, hfilling⟩ := exists_filling_of_paddedBody hbody
  exact ⟨Wire.word w ++ (content ++ filling), by simp, isPadded_of_length_eq hlength hfilling⟩

theorem exists_isOptional_of_optional {input rest : Bytes} {value : Option Bytes}
    (h : optional input = .ok (value, rest)) :
    ∃ bytes, input = bytes ++ rest ∧ IsOptional value bytes := by
  simp only [optional, bind_eq_ok_iff, word_eq_ok_iff_word] at h
  obtain ⟨w, _, rfl, h⟩ := h
  split at h
  next habsent =>
    cases h
    exact ⟨Wire.word w, rfl, by rw [habsent]; exact .absent⟩
  next hpresent =>
    obtain ⟨content, _, hbody, ⟨⟩⟩ := bind_eq_ok_iff.1 h
    obtain ⟨filling, rfl, hlength, hfilling⟩ := exists_filling_of_paddedBody hbody
    refine ⟨Wire.word w ++ (content ++ filling), by simp,
      .present (isPadded_of_length_eq hlength hfilling) ?_⟩
    -- the largest word is the one that says that the string is absent
    have hne : w.toNat ≠ absent.toNat := fun heq => hpresent (UInt32.toNat_inj.1 heq)
    have hlt := w.toNat_lt
    have habsent : absent.toNat = 4294967295 := rfl
    simp only [Nat.reducePow] at hlt
    omega

/-- If every field that is read was spelled, then so were several. -/
theorem exists_inTurn_of_times {α : Type} {field : Reader α} {Spells : α → Bytes → Prop}
    {Good : α → Prop}
    (hfield : ∀ a input rest, field input = .ok (a, rest) →
      ∃ bytes, input = bytes ++ rest ∧ Spells a bytes ∧ Good a)
    {n : Nat} {input rest : Bytes} {as : List α} (h : times n field input = .ok (as, rest)) :
    as.length = n ∧ (∀ a ∈ as, Good a) ∧
      ∃ bytes, input = bytes ++ rest ∧ InTurn Spells as bytes := by
  induction n generalizing input as with
  | zero =>
      rw [times_zero] at h
      cases h
      exact ⟨rfl, by simp, [], rfl, .nil⟩
  | succ n ih =>
      simp only [times_succ, bind_eq_ok_iff] at h
      obtain ⟨a, _, hfirst, as', _, hrest, ⟨⟩⟩ := h
      obtain ⟨front, rfl, hspells, hgood⟩ := hfield _ _ _ hfirst
      obtain ⟨hlength, hall, bytes, rfl, hturn⟩ := ih hrest
      refine ⟨by rw [List.length_cons, hlength], ?_, front ++ bytes, by simp,
        .cons hspells hturn⟩
      intro b hb
      rcases List.mem_cons.1 hb with rfl | hb
      · exact hgood
      · exact hall b hb

end Reader

end Wire

open Wire (Reader)

/-! ### Paints -/

theorem PaintStyle.ofByte?_eq_some_iff {b : UInt8} {style : PaintStyle} :
    ofByte? b = some style ↔ b = style.toByte := by
  constructor
  · intro h
    unfold ofByte? at h
    split at h
    · cases h
      assumption
    · split at h
      · cases h
        assumption
      · split at h
        · cases h
          assumption
        · cases h
  · rintro rfl
    exact ofByte?_toByte style

theorem Paint.exists_isEntry_of_read {input rest : Bytes} {paint : Paint}
    (h : Paint.read input = .ok (paint, rest)) :
    ∃ bytes, input = bytes ++ rest ∧ paint.IsEntry bytes ∧
      paint.strokeWidth.isFinite = true := by
  simp only [Paint.read_eq, Reader.bind_eq_ok_iff, Reader.word_eq_ok_iff_word,
    Reader.finite_eq_ok_iff, Reader.byte_eq_ok_iff, Reader.expect_eq_ok_iff,
    PaintStyle.ofByte?_eq_some_iff, Reader.take_eq_ok_iff] at h
  obtain ⟨argb, _, rfl, width, _, ⟨rfl, hfinite⟩, _, _, rfl, style, _, ⟨rfl, rfl⟩, flags, _, rfl,
    unused, _, ⟨rfl, hlength⟩, ⟨⟩⟩ := h
  match unused, hlength with
  | [a, b], _ =>
      exact ⟨_, by simp, .intro argb width style flags a b, hfinite⟩

theorem Paint.length_of_isEntry {paint : Paint} {bytes : Bytes} (h : paint.IsEntry bytes) :
    bytes.length = 12 := by
  cases h
  rfl

/-- An entry that is read takes twelve bytes. -/
theorem Paint.eq_drop_of_read {input rest : Bytes} {paint : Paint}
    (h : Paint.read input = .ok (paint, rest)) : 12 ≤ input.length ∧ rest = input.drop 12 := by
  obtain ⟨bytes, rfl, hentry, -⟩ := exists_isEntry_of_read h
  have hlength := length_of_isEntry hentry
  refine ⟨?_, ?_⟩
  · rw [List.length_append]
    omega
  · rw [← hlength, List.drop_left]

/-! ### Commands -/

namespace Command

variable {paints : List Paint}

/-- A first word is made of its code and its size. -/
theorem header_headerCode_headerSize (w : UInt32) : header (headerCode w) (headerSize w) = w := by
  have hlt := w.toNat_lt
  apply UInt32.toNat_inj.1
  simp only [header, headerCode, headerSize, UInt32.toNat_ofNat', UInt8.toNat_ofNat',
    Nat.reducePow] at *
  omega

theorem exists_isPayload_of_readPayload (hpaints : ∀ p ∈ paints, p.strokeWidth.isFinite = true)
    {code : UInt8} {input rest : Bytes} {c : Command}
    (h : readPayload paints.toArray code input = .ok (c, rest)) :
    ∃ bytes, input = bytes ++ rest ∧ IsPayload paints c bytes ∧ c.code = code ∧
      c.isFinite = true := by
  by_cases hsave : code = 30
  · subst hsave
    cases h
    exact ⟨[], rfl, .save, rfl, rfl⟩
  by_cases hrestore : code = 28
  · subst hrestore
    cases h
    exact ⟨[], rfl, .restore, rfl, rfl⟩
  by_cases htranslate : code = 35
  · subst htranslate
    simp only [readPayload_translate, Reader.bind_eq_ok_iff, Reader.offset_eq_ok_iff] at h
    obtain ⟨v, _, ⟨rfl, hfinite⟩, ⟨⟩⟩ := h
    exact ⟨_, rfl, .translate v, rfl, hfinite⟩
  by_cases hrect : code = 21
  · subst hrect
    simp only [readPayload_drawRect, Reader.bind_eq_ok_iff, Reader.word_eq_ok_iff_word,
      Reader.expect_eq_ok_iff, Reader.rect_eq_ok_iff, List.getElem?_toArray] at h
    obtain ⟨index, _, rfl, paint, _, ⟨hpaint, rfl⟩, r, _, ⟨rfl, hfinite⟩, ⟨⟩⟩ := h
    have hwidth := hpaints paint (List.mem_of_getElem? hpaint)
    exact ⟨_, by simp, .drawRect hpaint r, rfl, by simp [isFinite, hfinite, hwidth]⟩
  by_cases hannotate : code = 60
  · subst hannotate
    simp only [readPayload_annotate, Reader.bind_eq_ok_iff, Reader.rect_eq_ok_iff,
      Reader.expect_eq_ok_iff, Wire.toText?_eq_some_iff] at h
    obtain ⟨r, _, ⟨rfl, hfinite⟩, _, _, hcontent, key, _, ⟨rfl, rfl⟩, value, _, hvalue, ⟨⟩⟩ := h
    obtain ⟨keyBytes, rfl, hpadded⟩ := Reader.exists_isPadded_of_padded hcontent
    obtain ⟨valueBytes, rfl, hoptional⟩ := Reader.exists_isOptional_of_optional hvalue
    exact ⟨_, by simp, .annotate r hpadded hoptional, rfl, hfinite⟩
  rw [readPayload_unknown _ ⟨hsave, hrestore, htranslate, hrect, hannotate⟩] at h
  cases h

/-- A command that is read was spelled by what was taken. -/
theorem exists_isPiece_of_read (hpaints : ∀ p ∈ paints, p.strokeWidth.isFinite = true)
    {input rest : Bytes} {c : Command} (h : read paints.toArray input = .ok (c, rest)) :
    ∃ bytes, input = bytes ++ rest ∧ IsPiece paints c bytes ∧ c.isFinite = true := by
  obtain ⟨w, payload, rfl, hsize, hread⟩ := read_eq_ok_iff.1 h
  obtain ⟨bytes, heq, hspelled, hcode, hfinite⟩ := exists_isPayload_of_readPayload hpaints hread
  rw [List.append_nil] at heq
  subst heq
  have hmax : headerSize w ≤ largestSize := Nat.le_of_lt_succ (Nat.mod_lt _ (by decide))
  refine ⟨Wire.word w ++ payload, by simp, ?_, hfinite⟩
  rw [← header_headerCode_headerSize w, ← hcode, ← hsize]
  exact .intro hspelled (by omega)

/-- Commands that are read one after the other were spelled in turn. -/
theorem exists_inTurn_of_readsUpTo (hpaints : ∀ p ∈ paints, p.strokeWidth.isFinite = true)
    {commands : List Command} {input rest : Bytes}
    (h : ReadsUpTo paints.toArray commands input rest) :
    ∃ front, input = front ++ rest ∧ Wire.InTurn (IsPiece paints) commands front ∧
      ∀ c ∈ commands, c.isFinite = true := by
  induction h with
  | nil rest => exact ⟨[], rfl, .nil, nofun⟩
  | cons hread _ ih =>
      obtain ⟨bytes, rfl, hpiece, hfinite⟩ := exists_isPiece_of_read hpaints hread
      obtain ⟨front, rfl, hturn, hall⟩ := ih
      exact ⟨bytes ++ front, (List.append_assoc ..).symm, .cons hpiece hturn,
        List.forall_mem_cons.2 ⟨hfinite, hall⟩⟩

/-- A stream that is read is made of commands and nothing else. -/
theorem inTurn_of_readAll (hpaints : ∀ p ∈ paints, p.strokeWidth.isFinite = true)
    {input : Bytes} {commands : List Command}
    (h : readAll paints.toArray input = .ok commands) :
    Wire.InTurn (IsPiece paints) commands input ∧ ∀ c ∈ commands, c.isFinite = true := by
  obtain ⟨front, hinput, hturn, hall⟩ :=
    exists_inTurn_of_readsUpTo hpaints (readAll_eq_ok_iff.1 h)
  rw [List.append_nil] at hinput
  rw [hinput]
  exact ⟨hturn, hall⟩

end Command

/-! ### Pictures -/

theorem Contents.readHead_eq_ok {input rest : Bytes} {bounds : Rect}
    (h : readHead input = .ok (bounds, rest)) :
    input = Picture.head bounds ++ rest ∧ bounds.isFinite = true := by
  simp only [readHead, Reader.bind_eq_ok_iff, Reader.take_eq_ok_iff, Reader.require_eq_ok_iff,
    Reader.word_eq_ok_iff_word, Reader.rect_eq_ok_iff] at h
  obtain ⟨_, _, ⟨rfl, -⟩, _, _, ⟨rfl, rfl⟩, _, _, rfl, _, _, ⟨rfl, rfl⟩, rfl, hfinite⟩ := h
  exact ⟨by simp [Picture.head], hfinite⟩

/-- A stream that is cut out stands before a paint table that was spelled, with finite widths. -/
theorem Contents.exists_inTurn_of_readStream {input rest stream : Bytes} {paints : List Paint}
    (h : readStream input = .ok ((paints, stream), rest)) :
    ∃ table, input = Wire.word Picture.commandTag ++ (Wire.word (.ofNat stream.length) ++
        (stream ++ (Wire.word Picture.paintTag ++ (Wire.word (.ofNat paints.length) ++ (table ++
          (Wire.word Picture.endTag ++ rest)))))) ∧
      Wire.InTurn Paint.IsEntry paints table ∧
      (∀ paint ∈ paints, paint.strokeWidth.isFinite = true) ∧
      stream.length < UInt32.size ∧ paints.length < UInt32.size := by
  simp only [readStream, Reader.bind_eq_ok_iff, Reader.tag_eq_ok_iff, Reader.word_eq_ok_iff_word,
    Reader.take_eq_ok_iff] at h
  obtain ⟨_, _, rfl, length, _, rfl, stream, _, ⟨rfl, hlength⟩, _, _, rfl, count, _, rfl,
    paints, _, htimes, _, _, rfl, ⟨⟩⟩ := h
  obtain ⟨hcount, hwidths, table, rfl, htable⟩ :=
    Reader.exists_inTurn_of_times (fun _ _ _ => Paint.exists_isEntry_of_read) htimes
  -- the length and the count that were read are those of what was read
  have hlengthWord : length = .ofNat stream.length := by
    rw [hlength, UInt32.ofNat_toNat]
  have hcountWord : count = .ofNat paints.length := by
    rw [hcount, UInt32.ofNat_toNat]
  refine ⟨table, ?_, htable, hwidths, ?_, ?_⟩
  · rw [← hlengthWord, ← hcountWord]
  · rw [hlength]
    exact length.toNat_lt
  · rw [hcount]
    exact count.toNat_lt

/-- A body that is read was spelled, and its numbers are finite. -/
theorem Contents.exists_isStored_of_readBody {bounds : Rect} {mark : UInt8} {input rest : Bytes}
    {contents : Contents} (hmark : mark ≠ 0) (h : readBody bounds input = .ok (contents, rest)) :
    ∃ paints commands, contents.picture = ⟨bounds, commands⟩ ∧
      Picture.IsStored paints ⟨bounds, commands⟩ (Picture.head bounds ++ (mark :: input)) ∧
      (∀ c ∈ commands, c.isFinite = true) ∧
      ∀ paint ∈ paints, paint.strokeWidth.isFinite = true := by
  rw [readBody_eq] at h
  obtain ⟨⟨paints, stream⟩, _, hstream, h⟩ := Reader.bind_eq_ok_iff.1 h
  obtain ⟨commands, _, houtcome, ⟨⟩⟩ := Reader.bind_eq_ok_iff.1 h
  obtain ⟨hcommands, rfl⟩ := Reader.ofExcept_eq_ok_iff.1 houtcome
  obtain ⟨table, rfl, htable, hwidths, hlength, hcount⟩ := exists_inTurn_of_readStream hstream
  obtain ⟨hturn, hall⟩ := Command.inTurn_of_readAll hwidths hcommands
  exact ⟨paints, commands, rfl, .withBody bounds _ hmark hturn htable hlength hcount, hall, hwidths⟩

/-- Bytes that are decoded start with a stored picture, and its numbers are finite. -/
theorem Picture.exists_isStored_of_decode {d : Bytes} {p : Picture}
    (h : Picture.decode d = .ok p) :
    ∃ paints, p.IsStored paints d ∧ p.isFinite = true ∧
      ∀ paint ∈ paints, paint.strokeWidth.isFinite = true := by
  rw [decode_eq_map_read, Contents.read_eq] at h
  generalize hread : (Contents.readHead >>= _) d = outcome at h
  cases outcome with
  | error e => cases h
  | ok result =>
      cases h
      obtain ⟨contents, after⟩ := result
      simp only [Reader.bind_eq_ok_iff, Reader.byte_eq_ok_iff] at hread
      obtain ⟨bounds, _, hhead, mark, _, rfl, hread⟩ := hread
      obtain ⟨rfl, hbounds⟩ := Contents.readHead_eq_ok hhead
      split at hread
      · next hzero =>
          cases hread
          subst hzero
          refine ⟨[], .withoutBody bounds _, ?_, by simp⟩
          simp [isFinite, Contents.picture, Contents.commands, hbounds]
      · next hnonzero =>
          obtain ⟨paints, commands, hpicture, hstored, hall, hwidths⟩ :=
            Contents.exists_isStored_of_readBody hnonzero hread
          have hfinite : (Picture.mk bounds commands).isFinite = true := by
            simp only [isFinite, hbounds, Bool.true_and, List.all_eq_true]
            exact hall
          rw [← hpicture] at hstored hfinite
          exact ⟨paints, hstored, hfinite, hwidths⟩

/-- **Bytes are decoded exactly when they start with a stored picture whose numbers are finite,**
those of its whole paint table included, and the outcome is that picture. -/
theorem Picture.decode_eq_ok_iff (d : Bytes) (p : Picture) :
    Picture.decode d = .ok p ↔
      ∃ paints, p.IsStored paints d ∧ p.isFinite = true ∧
        ∀ paint ∈ paints, paint.strokeWidth.isFinite = true := by
  constructor
  · exact exists_isStored_of_decode
  · rintro ⟨paints, hstored, hfinite, hpaints⟩
    rw [decode_eq_of_isStored hstored, hfinite, List.all_eq_true.2 hpaints]
    rfl

end PictureTape

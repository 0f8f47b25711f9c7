/-
**Decoding what was encoded.**

Encoded bytes are a stored picture, namely what is left of the picture that was encoded: the paints
refer to a table with rounded colors, in which paints that agree share an entry.  So decoding gives
this picture back, or refuses it for a number that is not finite, and nothing else can happen.

Main results:

* `Command.inTurn_pieces` — the stream spells what is left of the commands;
* `Picture.isStored_withHead` — the bytes of a picture spell what is left of it;
* `Picture.decode_withHead` — what decoding them gives;
* `Picture.decode_encode` — **decoding undoes encoding, up to the rounding of colors and the sign of
  zero widths;** a picture with a number that is not finite is refused for that.
-/

import PictureTape.Proofs.Encoding
import PictureTape.Proofs.Spelling

set_option autoImplicit false
set_option relaxedAutoImplicit false

namespace PictureTape

/-! ### Pieces -/

namespace Command

/-- The bytes of a command spell what is left of it, when the table has the first paint that agrees
with its own at the given position. -/
theorem isPayload_payload {paints table : List Paint} {c : Command} {i : Nat}
    (hsize : c.size ≤ largestSize) (hi : i < UInt32.size)
    (hpaint : ∀ paint, c.paint? = some paint → table[i]? = some (paint.firstIn paints)) :
    IsPayload (table.map Paint.rounded) (c.normal paints) (c.payload i) := by
  cases c with
  | save => exact .save
  | restore => exact .restore
  | translate v => exact .translate v
  | drawRect r paint =>
      refine .drawRect ?_ r
      rw [UInt32.toNat_ofNat_of_lt' hi, List.getElem?_map, hpaint paint rfl, Paint.normal_eq]
      rfl
  | annotate r key value =>
      obtain ⟨hkey, hvalue⟩ := length_lt_absent_of_size_le hsize
      refine .annotate r (Wire.isPadded_padded ?_) (Wire.isOptional_optional hvalue)
      exact Nat.lt_trans hkey (by decide)

theorem isPiece_stored {paints table : List Paint} {c : Command} {i : Nat}
    (hsize : c.size ≤ largestSize) (hi : i < UInt32.size)
    (hpaint : ∀ paint, c.paint? = some paint → table[i]? = some (paint.firstIn paints)) :
    IsPiece (table.map Paint.rounded) (c.normal paints) (c.stored i) := by
  have hlength := length_payload i c
  have hpayload := isPayload_payload hsize hi hpaint
  have hcode : (c.normal paints).code = c.code := by cases c <;> rfl
  unfold stored
  rw [← hcode, ← hlength]
  exact .intro hpayload (by omega)

/-- A command is given the position of the first paint that agrees with its own. -/
theorem getElem?_enterPaint {before : List Paint} {table : PaintTable} {c : Command}
    (hfind : ∀ q : Paint, table.find? (·.agrees q) = before.find? (·.agrees q)) {paint : Paint}
    (hc : c.paint? = some paint) (commands : List Command) :
    (PaintTable.enterAll (paintsOf commands) (c.enterPaint table).2)[(c.enterPaint table).1]? =
      some (paint.firstIn (before ++ paintsOf (c :: commands))) := by
  have hcons : paintsOf (c :: commands) = paint :: paintsOf commands := by
    rw [paintsOf_cons, hc]
    rfl
  have hentry : c.enterPaint table = PaintTable.enter paint table := by
    unfold enterPaint
    rw [hc]
  rw [hcons, Paint.firstIn_append_cons, ← Paint.firstIn_congr (hfind paint), hentry]
  exact PaintTable.getElem?_enterAll_of_getElem? (PaintTable.getElem?_enter paint table)

/-- The search invariant of the table, after one more command. -/
theorem find?_enterPaint {before : List Paint} {table : PaintTable}
    (hfind : ∀ q : Paint, table.find? (·.agrees q) = before.find? (·.agrees q)) (c : Command)
    (q : Paint) :
    (c.enterPaint table).2.find? (·.agrees q) =
      (before ++ c.paint?.toList).find? (·.agrees q) := by
  unfold enterPaint
  cases c.paint? with
  | none => simpa using hfind q
  | some paint => exact PaintTable.find?_enter_of_find? hfind paint q

/-- A command is spelled with the position that its paint is given, in the table that the commands
after it leave. -/
theorem isPiece_stored_enterPaint {before : List Paint} {table : PaintTable} {c : Command}
    (hfind : ∀ q : Paint, table.find? (·.agrees q) = before.find? (·.agrees q))
    (hsize : c.size ≤ largestSize) (commands : List Command)
    (hcount : (PaintTable.enterAll (paintsOf commands) (c.enterPaint table).2).length <
      UInt32.size) :
    IsPiece ((PaintTable.enterAll (paintsOf commands) (c.enterPaint table).2).map Paint.rounded)
      (c.normal (before ++ paintsOf (c :: commands))) (c.stored (c.enterPaint table).1) := by
  have hentry : ∀ paint, c.paint? = some paint → _ :=
    fun _ hc => getElem?_enterPaint hfind hc commands
  cases hc : c.paint? with
  | none =>
      -- a command without a paint is given the position `0`
      have hindex : (c.enterPaint table).1 = 0 := by
        unfold enterPaint
        rw [hc]
      rw [hindex]
      refine isPiece_stored hsize (by decide) ?_
      intro paint hpaint
      rw [hc] at hpaint
      cases hpaint
  | some paint =>
      obtain ⟨hlt, -⟩ := List.getElem?_eq_some_iff.1 (hentry paint hc)
      exact isPiece_stored hsize (Nat.lt_trans hlt hcount) hentry

/-- **The stream spells what is left of the commands.**  The table was left by the paints in
`before`, and the positions are those in the table that all the commands leave. -/
theorem inTurn_pieces {before : List Paint} {table : PaintTable}
    (hfind : ∀ q : Paint, table.find? (·.agrees q) = before.find? (·.agrees q))
    {commands : List Command} (hsize : ∀ c ∈ commands, c.size ≤ largestSize)
    (hcount : (PaintTable.enterAll (paintsOf commands) table).length < UInt32.size) :
    Wire.InTurn
      (IsPiece ((PaintTable.enterAll (paintsOf commands) table).map Paint.rounded))
      (commands.map (normal (before ++ paintsOf commands)))
      (pieces table commands).flatten := by
  -- `before` grows with the table, and both lists of paints stay those of all the commands
  induction commands generalizing before table with
  | nil => exact .nil
  | cons c commands ih =>
      rw [enterAll_paintsOf_cons] at hcount ⊢
      have hsplit : before ++ paintsOf (c :: commands) =
          before ++ c.paint?.toList ++ paintsOf commands := by
        rw [paintsOf_cons, List.append_assoc]
      have hpiece := isPiece_stored_enterPaint hfind (hsize c List.mem_cons_self) commands hcount
      have hrest := ih (find?_enterPaint hfind c)
        (fun d hd => hsize d (List.mem_cons_of_mem c hd)) hcount
      rw [← hsplit] at hrest
      exact .cons hpiece hrest

end Command

/-! ### Entries -/

theorem Paint.isEntry_stored (p : Paint) : p.rounded.IsEntry p.stored := by
  have hentry := IsEntry.intro p.color.toArgb p.strokeWidth p.style
    (if p.antiAlias then 1 else 0) 0 0
  have hflags : decide ((if p.antiAlias then (1 : UInt8) else 0).toNat % 2 = 1) = p.antiAlias := by
    cases p.antiAlias <;> rfl
  rw [hflags] at hentry
  exact hentry

theorem Paint.inTurn_stored (paints : List Paint) :
    Wire.InTurn IsEntry (paints.map rounded) (paints.flatMap stored) := by
  induction paints with
  | nil => exact .nil
  | cons p paints ih => exact .cons p.isEntry_stored ih

/-! ### Pictures -/

namespace Picture

variable {p : Picture} {body : Body}

/-- The paint table of a body is left by the paints of the picture. -/
theorem paints_of_body (h : p.body = .ok body) : body.paints = PaintTable.enterAll p.paints [] := by
  obtain ⟨-, rfl⟩ := body_eq_ok_iff.1 h
  rfl

/-- If the stream is short enough, so is the paint table. -/
theorem length_paints_le (h : p.body = .ok body) :
    body.paints.length ≤ body.commands.length := by
  obtain ⟨-, rfl⟩ := body_eq_ok_iff.1 h
  have htable := PaintTable.length_enterAll_le p.paints []
  have hpaints := Command.length_paintsOf_le [] p.commands
  simp only [List.length_nil, Nat.zero_add] at htable
  exact Nat.le_trans htable hpaints

/-- **The bytes of a picture spell what is left of it.** -/
theorem isStored_withHead (h : p.body = .ok body) (hlength : body.commands.length < UInt32.size) :
    p.normal.IsStored (body.paints.map Paint.rounded) (body.withHead p.bounds) := by
  have hcount := Nat.lt_of_le_of_lt (length_paints_le h) hlength
  obtain ⟨hsize, rfl⟩ := body_eq_ok_iff.1 h
  have hstream := Command.inTurn_pieces (fun _ => rfl) hsize hcount
  have htable := Paint.inTurn_stored (PaintTable.enterAll p.paints [])
  have hmark : (1 : UInt8) ≠ 0 := by decide
  have hstored := IsStored.withBody p.bounds [] hmark hstream htable hlength
    (by rwa [List.length_map])
  simp only [head, List.append_assoc, List.append_nil, List.length_map] at hstored
  exact hstored

theorem isFinite_normal (p : Picture) : p.normal.isFinite = p.isFinite := by
  unfold isFinite normal
  simp only [List.all_map, Function.comp_def, Command.isFinite_normal]

/-- The widths in a finite picture are finite. -/
theorem isFinite_strokeWidth_of_mem_paints (h : p.isFinite = true) {paint : Paint}
    (hpaint : paint ∈ p.paints) : paint.strokeWidth.isFinite = true := by
  obtain ⟨r, hr⟩ := Command.mem_paintsOf.1 hpaint
  simp only [isFinite, Bool.and_eq_true, List.all_eq_true] at h
  have hfinite := h.2 _ hr
  simp only [Command.isFinite, Bool.and_eq_true] at hfinite
  exact hfinite.2

/-- Decoding the bytes of a picture gives what is left of it, or refuses it for a number that is not
finite. -/
theorem decode_withHead (h : p.body = .ok body) (hlength : body.commands.length < UInt32.size) :
    Picture.decode (body.withHead p.bounds) = whenFinite p.isFinite p.normal := by
  rw [decode_eq_of_isStored (isStored_withHead h hlength), isFinite_normal]
  cases hfinite : p.isFinite with
  | false => rfl
  | true =>
      -- every entry of the table is one of the paints, with its color rounded
      have hall : (body.paints.map Paint.rounded).all
          (fun paint => paint.strokeWidth.isFinite) = true := by
        rw [List.all_map, List.all_eq_true]
        intro paint hpaint
        rw [paints_of_body h] at hpaint
        rcases PaintTable.mem_enterAll hpaint with hnil | hmem
        · cases hnil
        · have hwidth := isFinite_strokeWidth_of_mem_paints hfinite hmem
          exact hwidth
      rw [hall]
      rfl

theorem decode_withHead_of_isFinite (h : p.body = .ok body)
    (hlength : body.commands.length < UInt32.size) (hfinite : p.isFinite = true) :
    Picture.decode (body.withHead p.bounds) = .ok p.normal := by
  rw [decode_withHead h hlength, hfinite, whenFinite_true]

end Picture

/-! ### What is left agrees -/

namespace Paint

/-- The width of the first paint that agrees with `p` agrees with that of `p`, if it is finite. -/
theorem strokeWidth_firstIn_agrees {p : Paint} (h : p.strokeWidth.isFinite = true)
    (paints : List Paint) : (p.firstIn paints).strokeWidth.agrees p.strokeWidth = true := by
  rcases firstIn_eq_self_or_agrees paints p with heq | hagrees
  · rw [heq]
    exact Binary32.agrees_self_of_isFinite h
  · exact (agrees_iff.1 hagrees).2.2.2

/-- If its color is a packed one, what is left of a paint agrees with it. -/
theorem normal_agrees {p : Paint} (h : p.strokeWidth.isFinite = true)
    (hcolor : ∃ argb, p.color = .ofArgb argb) (paints : List Paint) :
    (p.normal paints).agrees p = true := by
  obtain ⟨argb, hargb⟩ := hcolor
  rw [agrees_iff]
  refine ⟨?_, rfl, rfl, strokeWidth_firstIn_agrees h paints⟩
  simp only [normal, hargb, Color.toArgb_ofArgb]
  exact Color.agrees_refl _

end Paint

theorem Command.normal_agrees {c : Command} (h : c.isFinite = true)
    (hcolor : ∀ paint, c.paint? = some paint → ∃ argb, paint.color = .ofArgb argb)
    (paints : List Paint) : (c.normal paints).agrees c = true := by
  cases c with
  | save => rfl
  | restore => rfl
  | translate v => exact Offset.agrees_self_of_isFinite h
  | drawRect r paint =>
      simp only [isFinite, Bool.and_eq_true] at h
      simp only [normal, agrees, Bool.and_eq_true]
      exact ⟨Rect.agrees_self_of_isFinite h.1, Paint.normal_agrees h.2 (hcolor paint rfl) paints⟩
  | annotate r key value =>
      simp [normal, agrees, Rect.agrees_self_of_isFinite h]

theorem Command.isEqv_map_normal (paints : List Paint) {commands : List Command}
    (h : ∀ c ∈ commands, (c.normal paints).agrees c = true) :
    (commands.map (normal paints)).isEqv commands agrees = true := by
  induction commands with
  | nil => rfl
  | cons c commands ih =>
      rw [List.map_cons, List.isEqv_cons_cons, Bool.and_eq_true]
      exact ⟨h c List.mem_cons_self, ih fun d hd => h d (List.mem_cons_of_mem c hd)⟩

/-- If the colors are packed ones, what is left of a finite picture agrees with it. -/
theorem Picture.normal_agrees {p : Picture} (h : p.isFinite = true)
    (hcolor : ∀ paint ∈ p.paints, ∃ argb, paint.color = .ofArgb argb) :
    p.normal.agrees p = true := by
  simp only [isFinite, Bool.and_eq_true, List.all_eq_true] at h
  obtain ⟨hbounds, hcommands⟩ := h
  have hcolors : ∀ c ∈ p.commands, ∀ paint, c.paint? = some paint →
      ∃ argb, paint.color = .ofArgb argb := fun _ hc paint hpaint =>
    hcolor paint (mem_paints hc hpaint)
  simp only [agrees, Bool.and_eq_true]
  exact ⟨Rect.agrees_self_of_isFinite hbounds, Command.isEqv_map_normal p.paints fun c hc =>
    Command.normal_agrees (hcommands c hc) (hcolors c hc) p.paints⟩

/-! ### The round trip -/

/-- **Decoding undoes encoding.**  If every number is finite, what is left of the picture comes
back: the color of each paint is rounded to bytes and its width is that of the first paint that
agrees with it, which is the same number; if the colors were packed ones, this picture agrees with
the one that was encoded.  If a number is not finite, that is the fault that is reported. -/
theorem Picture.decode_encode {p : Picture} {body : Body} {d : Bytes} (hbody : p.body = .ok body)
    (hlength : body.commands.length < UInt32.size) (hd : p.encode = .ok d) :
    (p.isFinite = true → Picture.decode d = .ok p.normal ∧
      ∀ paint ∈ p.paints, (paint.normal p.paints).strokeWidth.agrees paint.strokeWidth = true) ∧
    (p.isFinite = false → Picture.decode d = .error .nonFinite) ∧
    (p.isFinite = true → (∀ paint ∈ p.paints, ∃ argb, paint.color = .ofArgb argb) →
      ∃ q, Picture.decode d = .ok q ∧ q.agrees p = true) := by
  obtain ⟨body', hbody', rfl⟩ := encode_eq_ok_iff.1 hd
  rw [hbody] at hbody'
  cases hbody'
  rw [decode_withHead hbody hlength]
  refine ⟨?_, ?_, ?_⟩
  · intro hfinite
    rw [hfinite]
    refine ⟨rfl, fun paint hpaint => ?_⟩
    exact Paint.strokeWidth_firstIn_agrees (isFinite_strokeWidth_of_mem_paints hfinite hpaint) _
  · intro hinfinite
    rw [hinfinite]
    rfl
  · intro hfinite hcolor
    rw [hfinite]
    exact ⟨p.normal, rfl, normal_agrees hfinite hcolor⟩

/-- Two rectangles whose paints differ in the sign of a zero width, and two annotations, one of them
with an empty value. -/
def Picture.zeroWidths : Picture where
  bounds := ⟨0, 0, 100, 100⟩
  commands :=
    [.annotate ⟨0, 0, 10, 10⟩ "first" (some []), .save, .translate ⟨5, 1 / 2⟩,
      .drawRect ⟨0, 0, 10, 10⟩ ⟨.ofArgb 0x80ff0000, .stroke, true, ⟨0x80000000⟩⟩,
      .drawRect ⟨1, 1, 3, 3⟩ ⟨.ofArgb 0x80ff0000, .stroke, true, 0⟩, .restore,
      .annotate ⟨0, 0, 10, 10⟩ "last" none]

/-- The second rectangle comes back with the width of the first: a zero with the other sign. -/
theorem Picture.decode_encode_zeroWidths :
    ∃ body d, zeroWidths.body = .ok body ∧ body.commands.length < UInt32.size ∧
      zeroWidths.encode = .ok d ∧ zeroWidths.isFinite = true ∧
      Picture.decode d = .ok zeroWidths.normal ∧ zeroWidths.normal ≠ zeroWidths ∧
      ∃ q, Picture.decode d = .ok q ∧ q.agrees zeroWidths = true := by
  have hbody := body_eq_ok_iff.2 ⟨show ∀ c ∈ zeroWidths.commands, c.size ≤ Command.largestSize by
    decide +kernel, rfl⟩
  have hlength : (Command.pieces [] zeroWidths.commands).flatten.length < UInt32.size := by
    rw [Command.length_flatten_pieces]
    decide +kernel
  have hd := encode_eq_ok_iff.2 ⟨_, hbody, rfl⟩
  have hfinite : zeroWidths.isFinite = true := by decide +kernel
  have hcolor : ∀ paint ∈ zeroWidths.paints, ∃ argb, paint.color = .ofArgb argb := by
    intro paint hpaint
    refine ⟨0x80ff0000, ?_⟩
    revert paint hpaint
    decide +kernel
  obtain ⟨hdecode, -, hagrees⟩ := decode_encode hbody hlength hd
  exact ⟨_, _, hbody, hlength, hd, hfinite, (hdecode hfinite).1, by decide +kernel,
    hagrees hfinite hcolor⟩

end PictureTape

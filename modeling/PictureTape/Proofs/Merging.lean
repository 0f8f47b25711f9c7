/-
**Encoding a second time.**

The paint table has no two entries that agree, but its colors are rounded only when they are
written.  Two paints that do not agree may be written as the same entry, and are merged when the
picture is decoded and encoded again.  So the bytes of a picture are a normal form exactly when
rounding keeps its paints apart; otherwise they get shorter once, and then stay.

Main definitions:

* `Picture.RoundsApart` — rounding the colors makes no two paints of a picture agree that did not.

Main results:

* `PaintTable.enterAll_map_normal` — what is left of the paints leaves the table that the rounded
  entries leave;
* `Picture.distinct_map_rounded_iff` — **no two of the rounded entries agree exactly when rounding
  keeps the paints apart;**
* `Command.pieces_map_normal_of_distinct` — then every paint keeps its position;
* `Picture.encode_again` — **what encoding a second time gives.**
-/

import PictureTape.Proofs.Reencoding

set_option autoImplicit false
set_option relaxedAutoImplicit false

namespace PictureTape

/-! ### Rounded paints -/

namespace Paint

/-- Rounding keeps paints together that agree. -/
theorem agrees_rounded {p q : Paint} (h : p.agrees q = true) :
    p.rounded.agrees q.rounded = true := by
  obtain ⟨hcolor, hstyle, hsmooth, hwidth⟩ := agrees_iff.1 h
  rw [agrees_iff]
  refine ⟨?_, hstyle, hsmooth, hwidth⟩
  simp only [rounded, Color.toArgb_eq_of_agrees hcolor]
  exact Color.agrees_refl _

/-- A rounded paint is written as the paint is. -/
theorem stored_rounded (p : Paint) : p.rounded.stored = p.stored := by
  have hargb : p.rounded.color.toArgb = p.color.toArgb := Color.toArgb_ofArgb _
  unfold stored
  rw [hargb]
  rfl

theorem flatMap_stored_rounded (paints : List Paint) :
    (paints.map rounded).flatMap stored = paints.flatMap stored := by
  simp only [List.flatMap_map, stored_rounded]

/-- Paints that are written alike are rounded to the same paint. -/
theorem rounded_eq_of_stored_eq {p q : Paint} (hp : p.strokeWidth.isFinite = true)
    (hq : q.strokeWidth.isFinite = true) (h : p.stored = q.stored) : p.rounded = q.rounded := by
  have hreadp := read_append_of_isEntry p.isEntry_stored []
  have hreadq := read_append_of_isEntry q.isEntry_stored []
  have hp' : p.rounded.strokeWidth.isFinite = true := hp
  have hq' : q.rounded.strokeWidth.isFinite = true := hq
  rw [hp', whenFinite_true] at hreadp
  rw [hq', whenFinite_true] at hreadq
  -- the same bytes are read once for `p` and once for `q`
  rw [h, hreadq, Except.ok.injEq, Prod.mk.injEq] at hreadp
  exact hreadp.1.symm

/-- The width of the entry that a finite paint finds is a number. -/
theorem isNaN_rounded_firstIn {p : Paint} (hp : p.strokeWidth.isFinite = true)
    (table : List Paint) : (p.firstIn table).rounded.strokeWidth.isNaN = false :=
  Binary32.isNaN_of_isFinite ((isFinite_strokeWidth_firstIn table p).trans hp)

/-- What is left of a paint is the rounded entry that it finds. -/
theorem normal_append_cons {before : List Paint} {table : PaintTable} {p : Paint}
    (hfind : ∀ q : Paint, table.find? (·.agrees q) = before.find? (·.agrees q))
    (after : List Paint) : p.normal (before ++ p :: after) = (p.firstIn table).rounded := by
  rw [normal_eq, firstIn_append_cons, firstIn_congr (hfind p)]

end Paint

/-! ### The table of a picture that is encoded again -/

namespace PaintTable

/-- The rounded entry that a paint finds is not entered twice. -/
theorem enter_rounded_firstIn {p : Paint} (hp : p.strokeWidth.isFinite = true)
    (table : PaintTable) :
    (enter (p.firstIn table).rounded (enterAll (table.map Paint.rounded) [])).2 =
      enterAll ((enter p table).2.map Paint.rounded) [] := by
  cases hfound : table.findIdx? (·.agrees p) with
  | some i =>
      have hmem : (p.firstIn table).rounded ∈ table.map Paint.rounded :=
        List.mem_map_of_mem (List.mem_of_getElem? (getElem?_of_findIdx?_eq_some hfound))
      rw [enter_of_findIdx?_eq_some hfound]
      exact enter_snd_enterAll_of_mem (Paint.isNaN_rounded_firstIn hp table) hmem []
  | none =>
      rw [enter_of_findIdx?_eq_none hfound, firstIn_of_findIdx?_eq_none hfound, List.map_append,
        enterAll_append]
      rfl

/-- **What is left of the paints leaves the table that the rounded entries leave.** -/
theorem enterAll_map_normal {before paints : List Paint} {table : PaintTable}
    (hfind : ∀ q : Paint, table.find? (·.agrees q) = before.find? (·.agrees q))
    (hfinite : ∀ p ∈ paints, p.strokeWidth.isFinite = true) :
    enterAll (paints.map (Paint.normal (before ++ paints)))
        (enterAll (table.map Paint.rounded) []) =
      enterAll ((enterAll paints table).map Paint.rounded) [] := by
  induction paints generalizing before table with
  | nil => rfl
  | cons p paints ih =>
      have hrest := ih (find?_enter_of_find? hfind p) fun q hq =>
        hfinite q (List.mem_cons_of_mem p hq)
      rw [List.append_assoc, List.singleton_append] at hrest
      rw [List.map_cons, enterAll_cons, enterAll_cons, Paint.normal_append_cons hfind,
        enter_rounded_firstIn (hfinite p List.mem_cons_self), hrest]

/-- If no two rounded entries agree, then what is left of a paint is found where the paint is. -/
theorem enter_normal_of_distinct {before : List Paint} {table : PaintTable} {p : Paint}
    (hfind : ∀ q : Paint, table.find? (·.agrees q) = before.find? (·.agrees q))
    (hp : p.strokeWidth.isFinite = true)
    (hdistinct : Distinct ((enter p table).2.map Paint.rounded)) (after : List Paint) :
    enter (p.normal (before ++ p :: after)) (table.map Paint.rounded) =
      ((enter p table).1, (enter p table).2.map Paint.rounded) := by
  rw [Paint.normal_append_cons hfind]
  cases hfound : table.findIdx? (·.agrees p) with
  | some i =>
      rw [enter_of_findIdx?_eq_some hfound] at hdistinct ⊢
      refine enter_of_getElem? hdistinct (Paint.isNaN_rounded_firstIn hp table) ?_
      rw [List.getElem?_map, getElem?_of_findIdx?_eq_some hfound]
      rfl
  | none =>
      rw [enter_of_findIdx?_eq_none hfound, List.map_append] at hdistinct ⊢
      rw [firstIn_of_findIdx?_eq_none hfound]
      have hlast := enter_of_distinct_append hdistinct
      rwa [List.length_map] at hlast

end PaintTable

/-! ### The stream of a picture that is encoded again -/

namespace Command

theorem paintsOf_map_normal (paints : List Paint) (commands : List Command) :
    paintsOf (commands.map (normal paints)) = (paintsOf commands).map (Paint.normal paints) := by
  induction commands with
  | nil => rfl
  | cons c commands ih =>
      rw [List.map_cons, paintsOf_cons, paintsOf_cons, List.map_append, ih]
      cases c with
      | drawRect r paint => rfl
      | save => rfl
      | restore => rfl
      | translate v => rfl
      | annotate r key value => rfl

theorem enterPaint_normal_of_distinct {before : List Paint} {table : PaintTable} {c : Command}
    (hfind : ∀ q : Paint, table.find? (·.agrees q) = before.find? (·.agrees q))
    (hfinite : c.isFinite = true)
    (hdistinct : PaintTable.Distinct ((c.enterPaint table).2.map Paint.rounded))
    (after : List Paint) :
    (c.normal (before ++ (c.paint?.toList ++ after))).enterPaint (table.map Paint.rounded) =
      ((c.enterPaint table).1, (c.enterPaint table).2.map Paint.rounded) := by
  cases c with
  | drawRect r paint =>
      simp only [isFinite, Bool.and_eq_true] at hfinite
      exact PaintTable.enter_normal_of_distinct hfind hfinite.2 hdistinct after
  | save => rfl
  | restore => rfl
  | translate v => rfl
  | annotate r key value => rfl

/-- **If no two rounded entries agree, then every paint keeps its position.** -/
theorem pieces_map_normal_of_distinct {before : List Paint} {table : PaintTable}
    {commands : List Command}
    (hfind : ∀ q : Paint, table.find? (·.agrees q) = before.find? (·.agrees q))
    (hfinite : ∀ c ∈ commands, c.isFinite = true)
    (hdistinct : PaintTable.Distinct
      ((PaintTable.enterAll (paintsOf commands) table).map Paint.rounded)) :
    pieces (table.map Paint.rounded) (commands.map (normal (before ++ paintsOf commands))) =
      pieces table commands := by
  induction commands generalizing before table with
  | nil => rfl
  | cons c commands ih =>
      rw [enterAll_paintsOf_cons] at hdistinct
      -- the table after this command is a front of the last one
      have hfront : PaintTable.Distinct ((c.enterPaint table).2.map Paint.rounded) :=
        hdistinct.sublist ((PaintTable.prefix_enterAll _ _).map Paint.rounded).sublist
      have hentered := enterPaint_normal_of_distinct hfind (hfinite c List.mem_cons_self) hfront
        (paintsOf commands)
      have hrest := ih (find?_enterPaint hfind c)
        (fun d hd => hfinite d (List.mem_cons_of_mem c hd)) hdistinct
      rw [List.append_assoc] at hrest
      rw [← paintsOf_cons] at hentered hrest
      rw [List.map_cons, pieces, pieces, stored_normal, hentered, hrest]

end Command

/-! ### Pictures -/

namespace Picture

/-- Rounding the colors makes no two paints agree that did not. -/
def RoundsApart (p : Picture) : Prop :=
  ∀ a ∈ p.paints, ∀ b ∈ p.paints, a.rounded.agrees b.rounded = true → a.agrees b = true

instance (p : Picture) : Decidable p.RoundsApart :=
  inferInstanceAs (Decidable (∀ a ∈ p.paints, ∀ b ∈ p.paints, _ → _))

variable {p : Picture}

/-- **No two of the rounded entries agree exactly when rounding keeps the paints apart.** -/
theorem distinct_map_rounded_iff (hfinite : p.isFinite = true) :
    PaintTable.Distinct ((PaintTable.enterAll p.paints []).map Paint.rounded) ↔
      p.RoundsApart := by
  have hwidths : ∀ a ∈ p.paints, a.strokeWidth.isNaN = false := by
    intro a ha
    exact Binary32.isNaN_of_isFinite (isFinite_strokeWidth_of_mem_paints hfinite ha)
  have hdistinct : PaintTable.Distinct (PaintTable.enterAll p.paints []) :=
    PaintTable.distinct_enterAll p.paints List.Pairwise.nil
  constructor
  · intro hrounded a ha b hb hab
    obtain ⟨x, hx, hxa⟩ := PaintTable.exists_agrees_of_mem (hwidths a ha) ha []
    obtain ⟨y, hy, hyb⟩ := PaintTable.exists_agrees_of_mem (hwidths b hb) hb []
    have hxy : x.rounded.agrees y.rounded = true := by
      have hby := Paint.agrees_rounded hyb
      rw [Paint.agrees_comm] at hby
      exact Paint.agrees_trans (Paint.agrees_trans (Paint.agrees_rounded hxa) hab) hby
    -- so the entries for `a` and for `b` are one entry
    obtain rfl := PaintTable.eq_of_distinct_map hrounded hx hy hxy
    rw [Paint.agrees_comm] at hxa
    exact Paint.agrees_trans hxa hyb
  · intro hapart
    refine List.pairwise_map.2 (List.Pairwise.imp_of_mem ?_ hdistinct)
    intro a b ha hb hne
    rcases PaintTable.mem_enterAll ha with hnil | ha
    · cases hnil
    rcases PaintTable.mem_enterAll hb with hnil | hb
    · cases hnil
    rw [Bool.eq_false_iff]
    intro hab
    rw [hapart a ha b hb hab] at hne
    cases hne

/-- The table that encoding a second time leaves. -/
theorem enterAll_paints_normal (hfinite : p.isFinite = true) :
    PaintTable.enterAll p.normal.paints [] =
      PaintTable.enterAll ((PaintTable.enterAll p.paints []).map Paint.rounded) [] := by
  have hfind : ∀ q : Paint, ([] : PaintTable).find? (·.agrees q) =
      ([] : List Paint).find? (·.agrees q) := fun _ => rfl
  have hwidths : ∀ paint ∈ p.paints, paint.strokeWidth.isFinite = true := by
    intro paint hpaint
    exact isFinite_strokeWidth_of_mem_paints hfinite hpaint
  have htable := PaintTable.enterAll_map_normal hfind hwidths
  rw [← htable]
  exact congrArg (PaintTable.enterAll · []) (Command.paintsOf_map_normal p.paints p.commands)

/-- The colors of what is left of a picture are packed ones. -/
theorem exists_ofArgb_of_mem_paints_normal (p : Picture) {paint : Paint}
    (hpaint : paint ∈ p.normal.paints) : ∃ argb, paint.color = .ofArgb argb := by
  have hmap : p.normal.paints = p.paints.map (Paint.normal p.paints) :=
    Command.paintsOf_map_normal p.paints p.commands
  rw [hmap] at hpaint
  obtain ⟨q, -, rfl⟩ := List.mem_map.1 hpaint
  exact ⟨q.color.toArgb, rfl⟩

/-- Rounding keeps packed colors apart: it does not change them. -/
theorem roundsApart_of_ofArgb (hcolor : ∀ paint ∈ p.paints, ∃ argb, paint.color = .ofArgb argb) :
    p.RoundsApart := by
  intro a ha b hb hab
  rwa [Paint.rounded_of_ofArgb (hcolor a ha), Paint.rounded_of_ofArgb (hcolor b hb)] at hab

/-- If rounding keeps the paints apart, then no two entries are written alike. -/
theorem nodup_map_stored (hfinite : p.isFinite = true) (hapart : p.RoundsApart) :
    ((PaintTable.enterAll p.paints []).map Paint.stored).Nodup := by
  have hdistinct := List.pairwise_map.1 ((distinct_map_rounded_iff hfinite).2 hapart)
  have hwidths : ∀ a ∈ PaintTable.enterAll p.paints [], a.strokeWidth.isFinite = true := by
    intro a ha
    rcases PaintTable.mem_enterAll ha with hnil | ha
    · cases hnil
    · exact isFinite_strokeWidth_of_mem_paints hfinite ha
  refine List.pairwise_map.2 (List.Pairwise.imp_of_mem ?_ hdistinct)
  intro a b ha hb hne heq
  have hwidth : b.rounded.strokeWidth.isNaN = false := Binary32.isNaN_of_isFinite (hwidths b hb)
  rw [Paint.rounded_eq_of_stored_eq (hwidths a ha) (hwidths b hb) heq, Paint.agrees_self,
    hwidth] at hne
  cases hne

/-- What is left of a picture can be encoded, in a stream of the same length. -/
theorem exists_body_normal {body : Body} (hbody : p.body = .ok body) :
    ∃ body', p.normal.body = .ok body' ∧ body'.commands.length = body.commands.length := by
  obtain ⟨hsize, rfl⟩ := body_eq_ok_iff.1 hbody
  refine ⟨_, body_eq_ok_iff.2 ⟨?_, rfl⟩, ?_⟩
  · intro c hc
    obtain ⟨b, hb, rfl⟩ := List.mem_map.1 hc
    rw [Command.size_normal]
    exact hsize b hb
  · rw [Command.length_flatten_pieces, Command.length_flatten_pieces]
    exact Command.totalSize_map_normal p.paints p.commands

/-- If rounding keeps the paints apart, then what is left of a picture is encoded in the same
bytes. -/
theorem encode_normal_of_roundsApart {d : Bytes} (hfinite : p.isFinite = true)
    (hapart : p.RoundsApart) (hd : p.encode = .ok d) : p.normal.encode = .ok d := by
  obtain ⟨body, hbody, rfl⟩ := encode_eq_ok_iff.1 hd
  obtain ⟨-, rfl⟩ := body_eq_ok_iff.1 hbody
  have hdistinct := (distinct_map_rounded_iff hfinite).2 hapart
  have hfind : ∀ q : Paint, ([] : PaintTable).find? (·.agrees q) =
      ([] : List Paint).find? (·.agrees q) := fun _ => rfl
  have hcommands : ∀ c ∈ p.commands, c.isFinite = true := by
    simp only [isFinite, Bool.and_eq_true, List.all_eq_true] at hfinite
    exact hfinite.2
  have htable : PaintTable.enterAll p.normal.paints [] =
      (PaintTable.enterAll p.paints []).map Paint.rounded := by
    rw [enterAll_paints_normal hfinite]
    exact PaintTable.enterAll_of_distinct hdistinct
  have hpieces : Command.pieces [] p.normal.commands = Command.pieces [] p.commands :=
    Command.pieces_map_normal_of_distinct hfind hcommands hdistinct
  obtain ⟨body', hbody', -⟩ := exists_body_normal hbody
  refine encode_eq_ok_iff.2 ⟨body', hbody', ?_⟩
  obtain ⟨-, rfl⟩ := body_eq_ok_iff.1 hbody'
  simp only [Body.withHead, htable, hpieces, Paint.flatMap_stored_rounded, List.length_map]
  rfl

/-- If it does not, then encoding a second time leaves a shorter table. -/
theorem length_enterAll_paints_normal_lt (hfinite : p.isFinite = true) (hapart : ¬ p.RoundsApart) :
    (PaintTable.enterAll p.normal.paints []).length <
      (PaintTable.enterAll p.paints []).length := by
  rw [enterAll_paints_normal hfinite]
  have hsub := PaintTable.enterAll_sublist
    ((PaintTable.enterAll p.paints []).map Paint.rounded) []
  have hle := hsub.length_le
  rw [List.nil_append, List.length_map] at hle
  refine Nat.lt_of_le_of_ne hle ?_
  intro heq
  -- a table that is as long has all the rounded entries, so no two of them agree
  have hall := hsub.eq_of_length (by rw [List.nil_append, List.length_map, heq])
  rw [List.nil_append] at hall
  have hdistinct := PaintTable.distinct_enterAll
    ((PaintTable.enterAll p.paints []).map Paint.rounded) List.Pairwise.nil
  rw [hall] at hdistinct
  exact hapart ((distinct_map_rounded_iff hfinite).1 hdistinct)

/-- **What encoding a second time gives.**  The encoded bytes of a finite picture are decoded, and
what is decoded can be encoded, in a stream of the same length and without two entries that are
written alike; these bytes are a normal form.  They are the first ones if rounding keeps the paints
apart, as it does with packed colors, and they are fewer if it does not. -/
theorem encode_again {body : Body} {d : Bytes} (hbody : p.body = .ok body)
    (hlength : body.commands.length < UInt32.size) (hd : p.encode = .ok d)
    (hfinite : p.isFinite = true) :
    ∃ q body' d', Picture.decode d = .ok q ∧ q.body = .ok body' ∧ q.encode = .ok d' ∧
      body'.commands.length = body.commands.length ∧
      (body'.paints.map Paint.stored).Nodup ∧
      (∃ q', Picture.decode d' = .ok q' ∧ q'.encode = .ok d') ∧
      (d' = d ↔ p.RoundsApart) ∧
      (d' = d → (body.paints.map Paint.stored).Nodup) ∧
      (d' ≠ d → d'.length < d.length) ∧
      ((∀ paint ∈ p.paints, ∃ argb, paint.color = .ofArgb argb) → d' = d) := by
  obtain ⟨_, hbody₁, rfl⟩ := encode_eq_ok_iff.1 hd
  rw [hbody] at hbody₁
  cases hbody₁
  obtain ⟨body', hbody', hstream⟩ := exists_body_normal hbody
  have hd' := encode_eq_ok_iff.2 ⟨body', hbody', rfl⟩
  have hfinite' : p.normal.isFinite = true := by rw [isFinite_normal, hfinite]
  have hcolor' : ∀ paint ∈ p.normal.paints, ∃ argb, paint.color = .ofArgb argb := by
    intro paint hpaint
    exact exists_ofArgb_of_mem_paints_normal p hpaint
  have hdecode := decode_withHead_of_isFinite hbody hlength hfinite
  have hdecode' := decode_withHead_of_isFinite hbody' (hstream ▸ hlength) hfinite'
  -- the two cases: the paints stay apart, or the table gets shorter
  have hequal : p.RoundsApart → body'.withHead p.bounds = body.withHead p.bounds := by
    intro hapart
    have hagain := encode_normal_of_roundsApart hfinite hapart hd
    rw [hd'] at hagain
    exact Except.ok.inj hagain
  have hshorter : ¬ p.RoundsApart →
      (body'.withHead p.bounds).length < (body.withHead p.bounds).length := by
    intro hapart
    have hlt := length_enterAll_paints_normal_lt hfinite hapart
    rw [← paints_of_body hbody, ← paints_of_body hbody'] at hlt
    rw [length_withHead, length_withHead]
    omega
  have hapart : body'.withHead p.bounds = body.withHead p.bounds → p.RoundsApart := by
    intro heq
    refine Decidable.byContradiction fun hmerged => ?_
    have hlt := hshorter hmerged
    rw [heq] at hlt
    exact Nat.lt_irrefl _ hlt
  refine ⟨p.normal, body', _, hdecode, hbody', hd', hstream, ?_, ⟨_, hdecode', ?_⟩,
    ⟨hapart, hequal⟩, ?_, ?_, ?_⟩
  · rw [paints_of_body hbody']
    exact nodup_map_stored hfinite' (roundsApart_of_ofArgb hcolor')
  · exact encode_normal hfinite' hcolor' hd'
  · intro heq
    rw [paints_of_body hbody]
    exact nodup_map_stored hfinite (hapart heq)
  · intro hne
    exact hshorter fun hkept => hne (hequal hkept)
  · intro hcolor
    exact hequal (roundsApart_of_ofArgb hcolor)

/-- Two rectangles whose paints differ in the share of red only: a quarter, which is between two
bytes, and another one. -/
def twoReds (other : Intensity) : Picture where
  bounds := ⟨0, 0, 100, 100⟩
  commands :=
    [.drawRect ⟨0, 0, 10, 10⟩ (.fill ⟨⟨1 / 4, by decide +kernel⟩, .zero, .zero, .one⟩),
      .drawRect ⟨5, 5, 10, 10⟩ (.fill ⟨other, .zero, .zero, .one⟩)]

/-- Three quarters are rounded to another byte. -/
def farReds : Picture := twoReds ⟨3 / 4, by decide +kernel⟩

/-- The number after a quarter is rounded to the same byte. -/
def nearReds : Picture := twoReds ⟨⟨0x3e800001⟩, by decide +kernel⟩

/-- A quarter and three quarters change when they are stored, and are kept apart. -/
theorem encode_again_farReds :
    ∃ body d q, farReds.body = .ok body ∧ body.commands.length < UInt32.size ∧
      farReds.encode = .ok d ∧ farReds.isFinite = true ∧
      Picture.decode d = .ok q ∧ q.encode = .ok d ∧ (body.paints.map Paint.stored).Nodup := by
  have hsize : ∀ c ∈ farReds.commands, c.size ≤ Command.largestSize := by decide +kernel
  obtain ⟨body, hbody, hd, htotal⟩ := exists_encode_eq_ok hsize
  have hlength : body.commands.length < UInt32.size := by
    rw [htotal]
    decide +kernel
  have hfinite : farReds.isFinite = true := by decide +kernel
  have hapart : farReds.RoundsApart := by decide +kernel
  obtain ⟨q, body', d', hdecode, -, hencode, -, -, -, hsame, hnodup, -⟩ :=
    encode_again hbody hlength hd hfinite
  obtain rfl := hsame.2 hapart
  exact ⟨body, _, q, hbody, hlength, hd, hfinite, hdecode, hencode, hnodup rfl⟩

/-- A quarter and the number after it have two entries that are written alike, and one when they are
encoded again. -/
theorem not_encode_again_nearReds :
    ∃ body d q d', nearReds.body = .ok body ∧ body.commands.length < UInt32.size ∧
      nearReds.encode = .ok d ∧ nearReds.isFinite = true ∧
      Picture.decode d = .ok q ∧ q.encode = .ok d' ∧ d' ≠ d ∧
      ¬ (body.paints.map Paint.stored).Nodup := by
  have hsize : ∀ c ∈ nearReds.commands, c.size ≤ Command.largestSize := by decide +kernel
  obtain ⟨body, hbody, hd, htotal⟩ := exists_encode_eq_ok hsize
  have hlength : body.commands.length < UInt32.size := by
    rw [htotal]
    decide +kernel
  have hfinite : nearReds.isFinite = true := by decide +kernel
  have hdecode := decode_withHead_of_isFinite hbody hlength hfinite
  obtain ⟨body', hbody', hstream⟩ := exists_body_normal hbody
  refine ⟨body, _, _, _, hbody, hlength, hd, hfinite, hdecode,
    encode_eq_ok_iff.2 ⟨body', hbody', rfl⟩, ?_, ?_⟩
  · -- the second table has one entry less
    have hlt := length_enterAll_paints_normal_lt hfinite (by decide +kernel)
    rw [← paints_of_body hbody, ← paints_of_body hbody'] at hlt
    intro heq
    have hlengths := congrArg List.length heq
    rw [length_withHead, length_withHead, hstream] at hlengths
    omega
  · rw [paints_of_body hbody]
    decide +kernel

end Picture

end PictureTape

/-
**Which paints are stored, and where rectangles find them.**

While the commands are encoded, each rectangle is given a position in a table that is not complete
yet.  The table that is written in the end has one entry for each paint that agrees with none before
it, in the order in which the paints come.  Entries are added at the end only and never agree with
each other, so a position that was given out early still stands for its paint, and for no other
paint that could be told from it.  A paint whose width is a NaN agrees with nothing, itself
included; it is given an entry of its own, which no other rectangle shares.

Main definitions:

* `Paint.firstUses` — the paints of a list that agree with none before them;
* `PaintTable.position` — the position that a paint is given behind other paints;
* `PaintTable.StandsFor` — a position and the paint that it stands for.

Main results:

* `PaintTable.enterAll_eq_append_firstUses` — **the table is the list of first uses;**
* `PaintTable.standsFor_position` — **the position of a paint stands for it in every later table;**
* `PaintTable.position_ne_of_isNaN` — a paint whose width is a NaN has a position of its own;
* `PaintTable.exists_position_eq` — every entry is the position of some paint;
* `Picture.paints_eq_firstUses` — the same for the bytes of a picture.
-/

import Mathlib.Data.List.Induction
import PictureTape.Proofs.Lengths

set_option autoImplicit false
set_option relaxedAutoImplicit false

namespace PictureTape

/-! ### First uses -/

/-- The paints of a list that agree with none before them; those in `earlier` come before the
list. -/
def Paint.firstUses (earlier : List Paint) : List Paint → List Paint
  | [] => []
  | p :: paints =>
    if earlier.any (·.agrees p) then firstUses (earlier ++ [p]) paints
    else p :: firstUses (earlier ++ [p]) paints

/-- A paint whose width is a NaN agrees with nothing. -/
theorem Paint.agrees_eq_false_of_isNaN {p : Paint} (hp : p.strokeWidth.isNaN = true) (q : Paint) :
    q.agrees p = false := by
  rw [Bool.eq_false_iff]
  intro hq
  have hwidth := (agrees_iff.1 hq).2.2.2
  rw [(Binary32.agrees_iff.1 hwidth).2.1] at hp
  cases hp

namespace PaintTable

/-- **The table is the list of first uses,** behind the entries that it had. -/
theorem enterAll_eq_append_firstUses {earlier : List Paint} {table : PaintTable}
    (hfind : ∀ q : Paint, table.find? (·.agrees q) = earlier.find? (·.agrees q))
    (paints : List Paint) :
    enterAll paints table = table ++ Paint.firstUses earlier paints := by
  -- `earlier` has all the paints so far, the table only those that were entered
  induction paints generalizing earlier table with
  | nil => exact (List.append_nil table).symm
  | cons p paints ih =>
      have hrest := ih (find?_enter_of_find? hfind p)
      have hfound : (table.findIdx? (·.agrees p)).isSome = earlier.any (·.agrees p) := by
        rw [List.findIdx?_isSome, ← List.isSome_find?, hfind p, List.isSome_find?]
      rw [enterAll_cons, hrest, Paint.firstUses]
      cases hentry : table.findIdx? (·.agrees p) with
      | some i =>
          rw [hentry, Option.isSome_some] at hfound
          rw [enter_of_findIdx?_eq_some hentry, if_pos hfound.symm]
      | none =>
          rw [hentry, Option.isSome_none] at hfound
          rw [enter_of_findIdx?_eq_none hentry, ← hfound, if_neg Bool.false_ne_true,
            List.append_assoc, List.singleton_append]

/-! ### Positions -/

/-- The position that a paint is given when those in `earlier` have been entered. -/
def position (earlier : List Paint) (p : Paint) : Nat := (enter p (enterAll earlier [])).1

theorem enterAll_append_cons (earlier : List Paint) (p : Paint) (later : List Paint) :
    enterAll (earlier ++ p :: later) [] =
      enterAll later (enter p (enterAll earlier [])).2 := by
  rw [enterAll_append, enterAll_cons]

theorem getElem?_position (earlier : List Paint) (p : Paint) (later : List Paint) :
    (enterAll (earlier ++ p :: later) [])[position earlier p]? =
      some (p.firstIn (enterAll earlier [])) := by
  rw [enterAll_append_cons]
  exact getElem?_enterAll_of_getElem? (getElem?_enter p (enterAll earlier []))

theorem position_lt_length (earlier : List Paint) (p : Paint) (later : List Paint) :
    position earlier p < (enterAll (earlier ++ p :: later) []).length :=
  (List.getElem?_eq_some_iff.1 (getElem?_position earlier p later)).1

/-- The position stands for the paint: no other entry agrees with the paint.  If its width is a NaN,
then none does, and the entry is the paint itself. -/
structure StandsFor (table : PaintTable) (i : Nat) (p : Paint) : Prop where
  lt_length : i < table.length
  agrees_iff : p.strokeWidth.isNaN = false →
    ∀ j q, table[j]? = some q → (q.agrees p = true ↔ j = i)
  eq_of_isNaN : p.strokeWidth.isNaN = true → table[i]? = some p

/-- **The position of a paint stands for it in every later table.** -/
theorem standsFor_position (earlier : List Paint) (p : Paint) (later : List Paint) :
    StandsFor (enterAll (earlier ++ p :: later) []) (position earlier p) p := by
  have hentry := getElem?_position earlier p later
  refine ⟨position_lt_length earlier p later, ?_, ?_⟩
  · intro hp j q hq
    have hagrees : (p.firstIn (enterAll earlier [])).agrees p = true := by
      rcases Paint.firstIn_eq_self_or_agrees (enterAll earlier []) p with hself | hagrees
      · rw [hself, Paint.agrees_self, hp]
        rfl
      · exact hagrees
    constructor
    · intro hqp
      -- both entries agree with the paint, and no two entries agree
      have hdistinct : Distinct (enterAll (earlier ++ p :: later) []) :=
        distinct_enterAll _ List.Pairwise.nil
      rw [Paint.agrees_comm] at hagrees
      exact eq_of_agrees hdistinct hq hentry (Paint.agrees_trans hqp hagrees)
    · rintro rfl
      rw [hentry] at hq
      cases hq
      exact hagrees
  · intro hp
    rcases Paint.firstIn_eq_self_or_agrees (enterAll earlier []) p with hself | hagrees
    · rw [hentry, hself]
    · rw [Paint.agrees_eq_false_of_isNaN hp] at hagrees
      cases hagrees

/-- A paint whose width is a NaN becomes the last entry. -/
theorem position_of_isNaN {p : Paint} (hp : p.strokeWidth.isNaN = true) (earlier : List Paint) :
    position earlier p = (enterAll earlier []).length := by
  have hnone : (enterAll earlier []).findIdx? (·.agrees p) = none :=
    List.findIdx?_eq_none_iff.2 fun q _ => Paint.agrees_eq_false_of_isNaN hp q
  unfold position
  rw [enter_of_findIdx?_eq_none hnone]

/-- It is not the entry of a paint before it. -/
theorem position_ne_of_isNaN_of_before {p q : Paint} (hp : p.strokeWidth.isNaN = true)
    (earlier between : List Paint) :
    position earlier q ≠ position (earlier ++ q :: between) p := by
  rw [position_of_isNaN hp]
  exact Nat.ne_of_lt (position_lt_length earlier q between)

/-- No paint behind it is given its position. -/
theorem position_ne_of_isNaN {p q : Paint} (hp : p.strokeWidth.isNaN = true)
    (earlier between : List Paint) :
    position (earlier ++ p :: between) q ≠ position earlier p := by
  intro heq
  cases hfound : (enterAll (earlier ++ p :: between) []).findIdx? (·.agrees q) with
  | some i =>
      -- the entry would agree with `q`, and it is `p`
      rw [position, enter_of_findIdx?_eq_some hfound] at heq
      obtain ⟨hi, hagrees, -⟩ := List.findIdx?_eq_some_iff_getElem.1 hfound
      have hentry := (standsFor_position earlier p between).eq_of_isNaN hp
      rw [← heq, List.getElem?_eq_getElem hi, Option.some.injEq] at hentry
      rw [hentry, Paint.agrees_comm, Paint.agrees_eq_false_of_isNaN hp] at hagrees
      cases hagrees
  | none =>
      -- `q` would become the last entry, and the entry for `p` is among those before it
      rw [position, enter_of_findIdx?_eq_none hfound] at heq
      exact Nat.ne_of_gt (position_lt_length earlier p between) heq

/-- **Every entry is the position of some paint,** of the one that it is. -/
theorem exists_position_eq {paints : List Paint} {i : Nat} {q : Paint}
    (h : (enterAll paints [])[i]? = some q) :
    ∃ earlier later, paints = earlier ++ q :: later ∧ position earlier q = i := by
  induction paints using List.reverseRecOn with
  | nil => cases h
  | append_singleton paints p ih =>
      have hold : (enterAll paints [])[i]? = some q →
          ∃ earlier later, paints ++ [p] = earlier ++ q :: later ∧ position earlier q = i := by
        intro hi
        obtain ⟨earlier, later, rfl, hposition⟩ := ih hi
        exact ⟨earlier, later ++ [p], by rw [List.append_assoc, List.cons_append], hposition⟩
      rw [enterAll_append, enterAll_cons, enterAll_nil] at h
      cases hfound : (enterAll paints []).findIdx? (·.agrees p) with
      | some j =>
          rw [enter_of_findIdx?_eq_some hfound] at h
          exact hold h
      | none =>
          rw [enter_of_findIdx?_eq_none hfound, List.getElem?_append] at h
          split at h
          · exact hold h
          · next hi =>
            obtain ⟨hlt, hq⟩ := List.getElem?_eq_some_iff.1 h
            rw [List.getElem_singleton] at hq
            rw [List.length_singleton] at hlt
            refine ⟨paints, [], by rw [hq], ?_⟩
            rw [← hq, position, enter_of_findIdx?_eq_none hfound]
            omega

end PaintTable

/-! ### Rectangles -/

namespace Command

theorem paintsOf_append (before after : List Command) :
    paintsOf (before ++ after) = paintsOf before ++ paintsOf after :=
  List.filterMap_append

theorem paintsOf_append_drawRect (before : List Command) (r : Rect) (paint : Paint)
    (after : List Command) :
    paintsOf (before ++ drawRect r paint :: after) =
      paintsOf before ++ paint :: paintsOf after :=
  paintsOf_append before _

/-- Each of the paints is that of a rectangle behind those whose paints come before it. -/
theorem exists_drawRect_of_paintsOf {commands : List Command} {earlier later : List Paint}
    {paint : Paint} (h : paintsOf commands = earlier ++ paint :: later) :
    ∃ before r after, commands = before ++ drawRect r paint :: after ∧
      paintsOf before = earlier := by
  obtain ⟨front, rest, rfl, hfront, hrest⟩ := List.filterMap_eq_append_iff.1 h
  obtain ⟨skipped, c, after, rfl, hskipped, hc, -⟩ := List.filterMap_eq_cons_iff.1 hrest
  obtain ⟨r, rfl⟩ := paint?_eq_some_iff.1 hc
  have hnil : paintsOf skipped = [] := List.filterMap_eq_nil_iff.2 hskipped
  refine ⟨front ++ skipped, r, after, (List.append_assoc ..).symm, ?_⟩
  rw [paintsOf_append, hnil, List.append_nil]
  exact hfront

/-- The two places of a list are the same, or one is before the other. -/
theorem before_eq_or_of_append_cons {before before' after after' : List Command} {c c' : Command}
    (h : before ++ c :: after = before' ++ c' :: after') :
    before' = before ∨ (∃ between, before' = before ++ c :: between) ∨
      ∃ between, before = before' ++ c' :: between := by
  rcases List.append_eq_append_iff.1 h with ⟨between, hbefore, hafter⟩ | ⟨between, hbefore, hafter⟩
  · cases between with
    | nil => exact .inl (by rw [hbefore, List.append_nil])
    | cons b between =>
        obtain ⟨rfl, -⟩ := List.cons.inj hafter
        exact .inr (.inl ⟨between, hbefore⟩)
  · cases between with
    | nil => exact .inl (by rw [hbefore, List.append_nil])
    | cons b between =>
        obtain ⟨rfl, -⟩ := List.cons.inj hafter
        exact .inr (.inr ⟨between, hbefore⟩)

/-- A rectangle whose width is a NaN has a position that no other rectangle has. -/
theorem before_eq_of_position_eq {before before' after after' : List Command} {r r' : Rect}
    {paint paint' : Paint} (hpaint : paint.strokeWidth.isNaN = true)
    (h : before ++ drawRect r paint :: after = before' ++ drawRect r' paint' :: after')
    (hposition : PaintTable.position (paintsOf before') paint' =
      PaintTable.position (paintsOf before) paint) : before' = before := by
  rcases before_eq_or_of_append_cons h with heq | ⟨between, rfl⟩ | ⟨between, rfl⟩
  · exact heq
  · rw [paintsOf_append_drawRect] at hposition
    exact absurd hposition (PaintTable.position_ne_of_isNaN hpaint _ _)
  · rw [paintsOf_append_drawRect] at hposition
    exact absurd hposition (PaintTable.position_ne_of_isNaN_of_before hpaint _ _)

/-- **A rectangle holds the position that its paint is given,** behind its first word. -/
theorem wordAt_drawRect {d rest : Bytes} {position : Nat} {commands before after : List Command}
    {r : Rect} {paint : Paint} (hsplit : commands = before ++ drawRect r paint :: after)
    (h : d.drop position = (pieces [] commands).flatten ++ rest)
    (hcount : (PaintTable.enterAll (paintsOf commands) []).length < UInt32.size) :
    Wire.wordAt d (position + 4 + totalSize before) =
      PaintTable.position (paintsOf before) paint := by
  obtain ⟨rest', hat⟩ := drop_pieces_append_cons hsplit h
  have hlt := PaintTable.position_lt_length (paintsOf before) paint (paintsOf after)
  rw [← paintsOf_append_drawRect before r, ← hsplit] at hlt
  rw [Nat.add_right_comm]
  exact Wire.wordAt_of_drop_ofNat (Nat.lt_trans hlt hcount) (drop_drawRect hat)

end Command

/-! ### Pictures -/

namespace Picture

/-- **The paint table of an encoded picture is the list of first uses.**  Its entries stand behind
the stream and their number; no two of them agree; each is the paint of a rectangle that holds its
position.  Each rectangle holds a position that stands for its paint: the only one whose entry agrees
with the paint, or, if the width of the paint is a NaN, one whose entry is the paint itself and which
no other rectangle holds. -/
theorem paints_eq_firstUses {p : Picture} {body : Body} {d : Bytes} (hbody : p.body = .ok body)
    (hlength : body.commands.length < UInt32.size) (hd : p.encode = .ok d) :
    Wire.wordAt d (41 + body.commands.length) = body.paints.length ∧
    d.drop (45 + body.commands.length) =
      body.paints.flatMap Paint.stored ++ Wire.word endTag ∧
    body.paints = Paint.firstUses [] p.paints ∧
    PaintTable.Distinct body.paints ∧
    (∀ i entry, body.paints[i]? = some entry →
      ∃ before r after, p.commands = before ++ .drawRect r entry :: after ∧
        Wire.wordAt d (41 + Command.totalSize before) = i) ∧
    ∀ before r paint after, p.commands = before ++ .drawRect r paint :: after →
      ∃ i, Wire.wordAt d (41 + Command.totalSize before) = i ∧
        PaintTable.StandsFor body.paints i paint ∧
        (paint.strokeWidth.isNaN = true →
          ∀ before' r' paint' after', p.commands = before' ++ .drawRect r' paint' :: after' →
            Wire.wordAt d (41 + Command.totalSize before') = i → before' = before) := by
  have hcount := Nat.lt_of_le_of_lt (length_paints_le hbody) hlength
  obtain ⟨_, hbody', rfl⟩ := encode_eq_ok_iff.1 hd
  rw [hbody] at hbody'
  cases hbody'
  obtain ⟨-, hstreamAt, hcountAt⟩ := drop_withHead p.bounds body
  have hentriesAt := Wire.drop_add_length hcountAt
  rw [Wire.length_word, Nat.add_right_comm] at hentriesAt
  have hpositions : ∀ before r paint after, p.commands = before ++ .drawRect r paint :: after →
      Wire.wordAt (body.withHead p.bounds) (41 + Command.totalSize before) =
        PaintTable.position (Command.paintsOf before) paint := by
    intro before r paint after hsplit
    obtain ⟨-, rfl⟩ := body_eq_ok_iff.1 hbody
    exact Command.wordAt_drawRect hsplit hstreamAt hcount
  refine ⟨Wire.wordAt_of_drop_ofNat hcount hcountAt, hentriesAt, ?_, ?_, ?_, ?_⟩
  · rw [paints_of_body hbody]
    exact PaintTable.enterAll_eq_append_firstUses (fun _ => rfl) p.paints
  · rw [paints_of_body hbody]
    exact PaintTable.distinct_enterAll p.paints List.Pairwise.nil
  · intro i entry hentry
    rw [paints_of_body hbody] at hentry
    obtain ⟨earlier, later, hpaints, hposition⟩ := PaintTable.exists_position_eq hentry
    obtain ⟨before, r, after, hsplit, rfl⟩ := Command.exists_drawRect_of_paintsOf hpaints
    exact ⟨before, r, after, hsplit, (hpositions before r entry after hsplit).trans hposition⟩
  · intro before r paint after hsplit
    refine ⟨_, hpositions before r paint after hsplit, ?_, ?_⟩
    · have hstands := PaintTable.standsFor_position (Command.paintsOf before) paint
        (Command.paintsOf after)
      rwa [← Command.paintsOf_append_drawRect before r, ← hsplit, ← paints,
        ← paints_of_body hbody] at hstands
    · intro hpaint before' r' paint' after' hsplit' hword
      rw [hpositions before' r' paint' after' hsplit'] at hword
      exact Command.before_eq_of_position_eq hpaint (hsplit.symm.trans hsplit') hword

/-- A stroke of the given width. -/
def stroke (width : Binary32) : Paint := ⟨.black, .stroke, true, width⟩

/-- Four rectangles, two of them with the same NaN as their width, the others with the two zeros. -/
def strayWidths : Picture where
  bounds := ⟨0, 0, 100, 100⟩
  commands :=
    [.drawRect ⟨0, 0, 10, 10⟩ (stroke ⟨0x7fc00000⟩), .drawRect ⟨1, 1, 8, 8⟩ (stroke ⟨0x80000000⟩),
      .drawRect ⟨2, 2, 6, 6⟩ (stroke ⟨0x7fc00000⟩), .drawRect ⟨3, 3, 4, 4⟩ (stroke ⟨0⟩)]

/-- The two zeros share an entry, and the NaNs do not. -/
theorem paints_eq_firstUses_strayWidths :
    ∃ body d, strayWidths.body = .ok body ∧ body.commands.length < UInt32.size ∧
      strayWidths.encode = .ok d ∧
      body.paints = [stroke ⟨0x7fc00000⟩, stroke ⟨0x80000000⟩, stroke ⟨0x7fc00000⟩] ∧
      Wire.wordAt d 137 = 3 ∧ Wire.wordAt d 65 = 1 ∧ Wire.wordAt d 113 = 1 ∧
      Wire.wordAt d 89 ≠ Wire.wordAt d 41 := by
  have hsize : ∀ c ∈ strayWidths.commands, c.size ≤ Command.largestSize := by decide +kernel
  have htotal : Command.totalSize strayWidths.commands = 96 := by decide +kernel
  obtain ⟨body, hbody, hd, hlength⟩ := exists_encode_eq_ok hsize
  rw [htotal] at hlength
  have hfits : body.commands.length < UInt32.size := by
    rw [hlength]
    decide
  obtain ⟨hcount, -, hpaints, -, -, hrects⟩ := paints_eq_firstUses hbody hfits hd
  have htable : Paint.firstUses [] strayWidths.paints =
      [stroke ⟨0x7fc00000⟩, stroke ⟨0x80000000⟩, stroke ⟨0x7fc00000⟩] := by decide +kernel
  rw [htable] at hpaints
  rw [hlength, hpaints] at hcount
  rw [hpaints] at hrects
  obtain ⟨i, hi, -, hown⟩ := hrects [] _ _ _ rfl
  obtain ⟨j, hj, hsecond, -⟩ := hrects (strayWidths.commands.take 1) _ _ _ rfl
  obtain ⟨k, hk, hthird, -⟩ := hrects (strayWidths.commands.take 3) _ _ [] rfl
  have hj₁ := (hsecond.agrees_iff (by decide +kernel) 1 _ rfl).1 (by decide +kernel)
  have hk₁ := (hthird.agrees_iff (by decide +kernel) 1 _ rfl).1 (by decide +kernel)
  refine ⟨body, _, hbody, hfits, hd, hpaints, hcount, hj.trans hj₁.symm, hk.trans hk₁.symm, ?_⟩
  intro heq
  have hsame := hown (by decide +kernel) (strayWidths.commands.take 2) _ _ _ rfl (heq.trans hi)
  cases hsame

end Picture

end PictureTape

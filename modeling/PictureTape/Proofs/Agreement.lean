/-
**Equality as numbers.**

Two numbers that agree have the same bits, or both are zeros: equality as numbers forgets the sign
of a zero and nothing else.  What a picture stores of a color is a word, and the word does not show
the sign of a zero channel, so colors that agree are stored alike.

Main definitions:

* `Binary32.unsignZero` — the number, with `0` for `-0`;
* `Paint.unsignWidth`, `Command.unsignWidth`, `Picture.unsignWidths` — the same for the stroke
  widths of a paint, a command, a picture;
* `Command.paint?`, `Picture.paints` — the paint of a command, and those of a picture in order;
* `Command.isFinite`, `Picture.isFinite` — every number in a command, in a picture, is finite;
* `Command.Agreeing` — commands that agree, kind by kind.

Main results:

* `Binary32.eq_or_magnitudeBits_eq_zero` — **numbers that agree are equal, or both are zeros;**
* `Color.toArgb_eq_of_agrees` — **colors that agree are packed into the same word;**
* `Paint.agrees_self`, `Paint.agrees_comm`, `Paint.agrees_trans` — agreement of paints is an
  equivalence on those whose stroke width is not a NaN.
-/

import PictureTape.Picture.Basic

set_option autoImplicit false
set_option relaxedAutoImplicit false

namespace PictureTape

/-! ### Numbers -/

namespace Binary32

/-- The number, with `0` in place of `-0`. -/
def unsignZero (x : Binary32) : Binary32 := if x.magnitudeBits = 0 then ⟨0⟩ else x

/-- The bits are the sign and the magnitude. -/
theorem toNat_bits (x : Binary32) :
    x.bits.toNat = x.magnitudeBits + (if x.isNegative = true then 0x80000000 else 0) := by
  have hlt := x.bits.toNat_lt
  simp only [magnitudeBits, isNegative, decide_eq_true_eq, Nat.reducePow] at *
  split <;> omega

/-- **Numbers that agree are equal, or both are zeros.** -/
theorem eq_or_magnitudeBits_eq_zero {x y : Binary32} (h : x.agrees y = true) :
    x = y ∨ (x.magnitudeBits = 0 ∧ y.magnitudeBits = 0) := by
  have hrank : x.rank = y.rank := (agrees_iff.1 h).2.2
  have hx := toNat_bits x
  have hy := toNat_bits y
  have hbits : x.bits = y.bits → x = y := by
    intro heq
    cases x
    cases y
    rw [mk.injEq]
    exact heq
  -- a magnitude with two different signs is zero
  by_cases hsign : x.isNegative = y.isNegative
  · left
    refine hbits (UInt32.toNat_inj.1 ?_)
    simp only [rank, hsign] at hrank
    rw [hx, hy, hsign]
    split at hrank <;> omega
  · right
    simp only [rank] at hrank
    split at hrank
    next hnx =>
      split at hrank
      next hny => exact absurd (hnx.trans hny.symm) hsign
      next hny => omega
    next hnx =>
      split at hrank
      next hny => omega
      next hny =>
        rw [Bool.not_eq_true] at hnx hny
        exact absurd (hnx.trans hny.symm) hsign

/-- Numbers that agree differ in the sign of a zero only. -/
theorem unsignZero_eq_of_agrees {x y : Binary32} (h : x.agrees y = true) :
    x.unsignZero = y.unsignZero := by
  rcases eq_or_magnitudeBits_eq_zero h with rfl | ⟨hx, hy⟩
  · rfl
  · simp [unsignZero, hx, hy]

/-- There are two zeros. -/
theorem eq_zero_or_negative_zero {x : Binary32} (h : x.magnitudeBits = 0) :
    x = ⟨0⟩ ∨ x = ⟨0x80000000⟩ := by
  have hbits := toNat_bits x
  rw [h, Nat.zero_add] at hbits
  cases x with
  | mk bits =>
      rw [mk.injEq, mk.injEq]
      split at hbits
      · exact Or.inr (UInt32.toNat_inj.1 hbits)
      · exact Or.inl (UInt32.toNat_inj.1 hbits)

/-- A finite number agrees with itself. -/
theorem agrees_self_of_isFinite {x : Binary32} (h : x.isFinite = true) : x.agrees x = true := by
  rw [agrees_self, isNaN_of_isFinite h]
  rfl

/-- The numbers that agree with a finite one are finite. -/
theorem isFinite_of_agrees {x y : Binary32} (h : x.agrees y = true) (hx : x.isFinite = true) :
    y.isFinite = true := by
  rcases eq_or_magnitudeBits_eq_zero h with rfl | ⟨-, hy⟩
  · exact hx
  · simp [isFinite, biasedExponent, hy]

theorem isFinite_eq_of_agrees {x y : Binary32} (h : x.agrees y = true) :
    x.isFinite = y.isFinite := by
  rw [Bool.eq_iff_iff]
  exact ⟨isFinite_of_agrees h, isFinite_of_agrees (by rwa [agrees_comm])⟩

end Binary32

/-! ### Color channels -/

namespace Intensity

/-- The product of `255` and either zero is rounded to `0`. -/
theorem scaled_of_magnitudeBits_eq_zero {i : Intensity} (h : i.value.magnitudeBits = 0) :
    i.scaled 255 = 0 := by
  unfold scaled
  rcases Binary32.eq_zero_or_negative_zero h with hz | hz
  · rw [hz]
    decide +kernel
  · rw [hz]
    decide +kernel

/-- Intensities that agree have the same byte. -/
theorem toByte_eq_of_agrees {i j : Intensity} (h : i.agrees j = true) : i.toByte = j.toByte := by
  unfold toByte
  rcases Binary32.eq_or_magnitudeBits_eq_zero h with heq | ⟨hi, hj⟩
  · simp only [scaled, heq]
  · rw [scaled_of_magnitudeBits_eq_zero hi, scaled_of_magnitudeBits_eq_zero hj]

/-- An intensity agrees with itself: its value is not a NaN. -/
theorem agrees_refl (i : Intensity) : i.agrees i = true := by
  have h := i.isUnit_value
  simp only [Binary32.isUnit, Bool.and_eq_true] at h
  unfold agrees
  rw [Binary32.agrees_self]
  exact h.1.1

end Intensity

/-! ### Colors -/

namespace Color

theorem agrees_iff {c d : Color} :
    c.agrees d = true ↔ c.red.agrees d.red = true ∧ c.green.agrees d.green = true ∧
      c.blue.agrees d.blue = true ∧ c.alpha.agrees d.alpha = true := by
  simp [agrees, and_assoc]

theorem agrees_refl (c : Color) : c.agrees c = true := by
  rw [agrees_iff]
  exact ⟨c.red.agrees_refl, c.green.agrees_refl, c.blue.agrees_refl, c.alpha.agrees_refl⟩

theorem agrees_comm (c d : Color) : c.agrees d = d.agrees c := by
  simp only [agrees, Intensity.agrees, Binary32.agrees_comm c.red.value,
    Binary32.agrees_comm c.green.value, Binary32.agrees_comm c.blue.value,
    Binary32.agrees_comm c.alpha.value]

theorem agrees_trans {c d e : Color} (hcd : c.agrees d = true) (hde : d.agrees e = true) :
    c.agrees e = true := by
  rw [agrees_iff] at *
  exact ⟨Binary32.agrees_trans hcd.1 hde.1, Binary32.agrees_trans hcd.2.1 hde.2.1,
    Binary32.agrees_trans hcd.2.2.1 hde.2.2.1, Binary32.agrees_trans hcd.2.2.2 hde.2.2.2⟩

/-- **Colors that agree are packed into the same word.** -/
theorem toArgb_eq_of_agrees {c d : Color} (h : c.agrees d = true) : c.toArgb = d.toArgb := by
  obtain ⟨hr, hg, hb, ha⟩ := agrees_iff.1 h
  simp only [toArgb, Intensity.toByte_eq_of_agrees hr, Intensity.toByte_eq_of_agrees hg,
    Intensity.toByte_eq_of_agrees hb, Intensity.toByte_eq_of_agrees ha]

end Color

/-! ### Paints -/

namespace Paint

/-- The paint, with `0` for a stroke width of `-0`. -/
def unsignWidth (p : Paint) : Paint := { p with strokeWidth := p.strokeWidth.unsignZero }

theorem agrees_iff {p q : Paint} :
    p.agrees q = true ↔ p.color.agrees q.color = true ∧ p.style = q.style ∧
      p.antiAlias = q.antiAlias ∧ p.strokeWidth.agrees q.strokeWidth = true := by
  simp [agrees, and_assoc]

/-- A paint agrees with itself exactly when its stroke width is not a NaN. -/
theorem agrees_self (p : Paint) : p.agrees p = !p.strokeWidth.isNaN := by
  simp [agrees, Color.agrees_refl, Binary32.agrees_self]

theorem agrees_comm (p q : Paint) : p.agrees q = q.agrees p := by
  rw [Bool.eq_iff_iff, agrees_iff, agrees_iff, Color.agrees_comm, Binary32.agrees_comm,
    @eq_comm _ p.style, @eq_comm _ p.antiAlias]

theorem agrees_trans {p q r : Paint} (hpq : p.agrees q = true) (hqr : q.agrees r = true) :
    p.agrees r = true := by
  rw [agrees_iff] at *
  exact ⟨Color.agrees_trans hpq.1 hqr.1, hpq.2.1.trans hqr.2.1, hpq.2.2.1.trans hqr.2.2.1,
    Binary32.agrees_trans hpq.2.2.2 hqr.2.2.2⟩

/-- Paints that agree are agreed with by the same paints. -/
theorem agrees_congr {p q : Paint} (h : p.agrees q = true) (r : Paint) :
    p.agrees r = q.agrees r := by
  rw [Bool.eq_iff_iff]
  constructor
  · intro hpr
    exact agrees_trans (by rw [agrees_comm]; exact h) hpr
  · intro hqr
    exact agrees_trans h hqr

end Paint

/-! ### Commands and pictures -/

theorem Offset.agrees_self_of_isFinite {v : Offset} (h : v.isFinite = true) :
    v.agrees v = true := by
  simp only [Offset.isFinite, Bool.and_eq_true] at h
  simp [Offset.agrees, Binary32.agrees_self_of_isFinite, h]

theorem Rect.agrees_self_of_isFinite {r : Rect} (h : r.isFinite = true) : r.agrees r = true := by
  simp only [Rect.isFinite, Bool.and_eq_true] at h
  simp [Rect.agrees, Binary32.agrees_self_of_isFinite, h]

theorem Rect.isFinite_eq_of_agrees {r s : Rect} (h : r.agrees s = true) :
    r.isFinite = s.isFinite := by
  simp only [agrees, Bool.and_eq_true] at h
  obtain ⟨⟨⟨hx, hy⟩, hwidth⟩, hheight⟩ := h
  rw [isFinite, isFinite, Binary32.isFinite_eq_of_agrees hx, Binary32.isFinite_eq_of_agrees hy,
    Binary32.isFinite_eq_of_agrees hwidth, Binary32.isFinite_eq_of_agrees hheight]

theorem Offset.isFinite_eq_of_agrees {v w : Offset} (h : v.agrees w = true) :
    v.isFinite = w.isFinite := by
  simp only [agrees, Bool.and_eq_true] at h
  rw [isFinite, isFinite, Binary32.isFinite_eq_of_agrees h.1, Binary32.isFinite_eq_of_agrees h.2]

namespace Command

/-- The paint of a command, if it has one. -/
def paint? : Command → Option Paint
  | drawRect _ paint => some paint
  | _ => none

/-- The paints of the commands, in order. -/
def paintsOf (commands : List Command) : List Paint := commands.filterMap paint?

theorem paint?_eq_some_iff {c : Command} {paint : Paint} :
    c.paint? = some paint ↔ ∃ r, c = drawRect r paint := by
  cases c with
  | drawRect r q => simp [paint?]
  | save => simp [paint?]
  | restore => simp [paint?]
  | translate v => simp [paint?]
  | annotate r key value => simp [paint?]

theorem mem_paintsOf {commands : List Command} {paint : Paint} :
    paint ∈ paintsOf commands ↔ ∃ r, drawRect r paint ∈ commands := by
  simp only [paintsOf, List.mem_filterMap, paint?_eq_some_iff]
  constructor
  · rintro ⟨_, hc, r, rfl⟩
    exact ⟨r, hc⟩
  · rintro ⟨r, hr⟩
    exact ⟨_, hr, r, rfl⟩

theorem paintsOf_cons (c : Command) (commands : List Command) :
    paintsOf (c :: commands) = c.paint?.toList ++ paintsOf commands := by
  unfold paintsOf
  rw [List.filterMap_cons]
  cases c.paint? with
  | none => rfl
  | some paint => rfl

/-- Is every number in the command finite? -/
def isFinite : Command → Bool
  | save => true
  | restore => true
  | translate v => v.isFinite
  | drawRect r paint => r.isFinite && paint.strokeWidth.isFinite
  | annotate r _ _ => r.isFinite

/-- Commands that agree are of the same kind, and have the same strings. -/
inductive Agreeing : Command → Command → Prop
  | save : Agreeing save save
  | restore : Agreeing restore restore
  | translate {v v' : Offset} (hv : v.agrees v' = true) : Agreeing (translate v) (translate v')
  | drawRect {r r' : Rect} {paint paint' : Paint} (hr : r.agrees r' = true)
      (hpaint : paint.agrees paint' = true) : Agreeing (drawRect r paint) (drawRect r' paint')
  | annotate {r r' : Rect} (hr : r.agrees r' = true) (key : String) (value : Option Bytes) :
      Agreeing (annotate r key value) (annotate r' key value)

theorem agreeing_of_agrees {c c' : Command} (h : c.agrees c' = true) : Agreeing c c' := by
  unfold agrees at h
  split at h
  · exact .save
  · exact .restore
  · exact .translate h
  · rw [Bool.and_eq_true] at h
    exact .drawRect h.1 h.2
  · simp only [Bool.and_eq_true, beq_iff_eq] at h
    obtain ⟨⟨hr, rfl⟩, rfl⟩ := h
    exact .annotate hr _ _
  · cases h

theorem isFinite_eq_of_agrees {c c' : Command} (h : c.agrees c' = true) :
    c.isFinite = c'.isFinite := by
  cases agreeing_of_agrees h with
  | save => rfl
  | restore => rfl
  | translate hv => exact Offset.isFinite_eq_of_agrees hv
  | drawRect hr hpaint =>
      have hwidth := Binary32.isFinite_eq_of_agrees (Paint.agrees_iff.1 hpaint).2.2.2
      rw [isFinite, isFinite, Rect.isFinite_eq_of_agrees hr, hwidth]
  | annotate hr key value => exact Rect.isFinite_eq_of_agrees hr

/-- The command, with `0` for a stroke width of `-0`. -/
def unsignWidth : Command → Command
  | drawRect r paint => drawRect r paint.unsignWidth
  | c => c

end Command

namespace Picture

/-- The paints of the rectangles in a picture, in order. -/
def paints (p : Picture) : List Paint := Command.paintsOf p.commands

theorem mem_paints {p : Picture} {c : Command} {paint : Paint} (hc : c ∈ p.commands)
    (hpaint : c.paint? = some paint) : paint ∈ p.paints :=
  List.mem_filterMap.2 ⟨c, hc, hpaint⟩

/-- Is every number in the picture finite? -/
def isFinite (p : Picture) : Bool := p.bounds.isFinite && p.commands.all Command.isFinite

/-- The picture, with `0` for each stroke width of `-0`. -/
def unsignWidths (p : Picture) : Picture := { p with commands := p.commands.map .unsignWidth }

end Picture

end PictureTape

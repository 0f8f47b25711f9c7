/-
**Leading zeros in keys.**

A marker prints the digits of its identifier and no more.  A key may have zeros in front of them and
is read as the same marker.  So what is read as a marker is the key that it prints, or this key with
zeros in front of the identifier.  Keys without a leading zero are the printed ones, and no two of
them are read as the same marker.

Main definitions:

* `NodeMarker.paddedText` — the key of a marker with zeros in front of its identifier;
* `NodeMarker.HasLeadingZero` — a zero and another digit stand where the identifier starts.

Main results:

* `NodeMarker.exists_eq_replicate_append_toDigits` — digits are those of their value behind zeros;
* `NodeMarker.hasLeadingZero_paddedText_iff` — a printed key has no leading zero;
* `NodeMarker.parse?_eq_some_iff_exists_zeros` — **a key that is read is printed, up to leading
  zeros.**
-/

import Mathlib.Data.List.Induction
import PictureTape.Proofs.MarkerText

set_option autoImplicit false
set_option relaxedAutoImplicit false

namespace PictureTape

namespace NodeMarker

/-! ### Digits behind zeros -/

theorem exists_digitChar_eq {c : Char} (h : c.isDigit = true) : ∃ d < 10, Nat.digitChar d = c := by
  have hrange : 48 ≤ c.toNat ∧ c.toNat ≤ 57 := by
    simp only [Char.isDigit, Bool.and_eq_true, decide_eq_true_eq] at h
    exact h
  refine ⟨c.toNat - 48, by omega, Char.toNat_inj.1 ?_⟩
  rw [Nat.toNat_digitChar_of_lt_ten (by omega)]
  omega

/-- Digits are those of their value behind zeros. -/
theorem exists_eq_replicate_append_toDigits {digits : List Char} (hne : digits ≠ [])
    (hdigits : ∀ c ∈ digits, c.isDigit = true) :
    ∃ zeros, digits =
      List.replicate zeros '0' ++ Nat.toDigits 10 (Nat.ofDigitChars 10 digits 0) := by
  -- from the end: the last digit of the value is the last digit
  induction digits using List.reverseRecOn with
  | nil => exact absurd rfl hne
  | append_singleton front c ih =>
      obtain ⟨d, hd, rfl⟩ := exists_digitChar_eq (hdigits c (by simp))
      have hvalue : Nat.ofDigitChars 10 (front ++ [Nat.digitChar d]) 0 =
          10 * Nat.ofDigitChars 10 front 0 + d := by
        rw [Nat.ofDigitChars_append, Nat.ofDigitChars_cons_digitChar_of_lt_ten hd,
          Nat.ofDigitChars_nil]
      rw [hvalue]
      by_cases hfront : front = []
      · subst hfront
        refine ⟨0, ?_⟩
        rw [Nat.ofDigitChars_nil, Nat.mul_zero, Nat.zero_add, Nat.toDigits_of_lt_base hd]
        rfl
      · obtain ⟨zeros, hzeros⟩ := ih hfront fun b hb => hdigits b (List.mem_append_left _ hb)
        rcases Nat.eq_zero_or_pos (Nat.ofDigitChars 10 front 0) with hzero | hpos
        · -- the digits before the last one are zeros
          rw [hzero, Nat.toDigits_zero, ← List.replicate_succ'] at hzeros
          refine ⟨zeros + 1, ?_⟩
          rw [hzero, Nat.mul_zero, Nat.zero_add, Nat.toDigits_of_lt_base hd, hzeros]
        · have hlast := Nat.toDigits_append_toDigits (b := 10) (by decide) hpos hd
          rw [Nat.toDigits_of_lt_base hd] at hlast
          refine ⟨zeros, ?_⟩
          rw [← hlast, ← List.append_assoc, ← hzeros]

/-- An identifier may have any number of zeros in front of its digits, and nothing else. -/
theorem parseId?_eq_some_iff_exists_zeros {digits : List Char} {id : UInt64} :
    parseId? digits = some id ↔ ∃ zeros, digits = List.replicate zeros '0' ++ idDigits id := by
  rw [parseId?_eq_some_iff]
  constructor
  · rintro ⟨hne, hdigits, hvalue⟩
    rw [idDigits, ← hvalue]
    exact exists_eq_replicate_append_toDigits hne hdigits
  · rintro ⟨zeros, rfl⟩
    obtain ⟨hne, hdigits, hvalue⟩ := parseId?_eq_some_iff.1 (parseId?_idDigits id)
    refine ⟨List.append_ne_nil_of_right_ne_nil _ hne, ?_, ?_⟩
    · intro c hc
      rcases List.mem_append.1 hc with hzero | hdigit
      · rw [List.eq_of_mem_replicate hzero]
        rfl
      · exact hdigits c hdigit
    · rw [Nat.ofDigitChars_append, Nat.ofDigitChars_replicate_zero, Nat.mul_zero, hvalue]

/-- The digits of an identifier do not start with a zero that could be left out. -/
theorem idDigits_ne_zero_cons {id : UInt64} {c : Char} {digits : List Char} :
    idDigits id ≠ '0' :: c :: digits := by
  intro h
  obtain ⟨-, hdigits, hvalue⟩ := parseId?_eq_some_iff.1 (parseId?_idDigits id)
  rw [h] at hdigits hvalue
  -- without the zero the value is the same, but there are fewer digits than it has
  have hrest : parseId? (c :: digits) = some id :=
    parseId?_eq_some_iff.2 ⟨List.cons_ne_nil _ _, (List.forall_mem_cons.1 hdigits).2, hvalue⟩
  obtain ⟨zeros, hzeros⟩ := parseId?_eq_some_iff_exists_zeros.1 hrest
  have hlength := congrArg List.length hzeros
  rw [List.length_append, h] at hlength
  simp only [List.length_cons] at hlength
  omega

/-! ### Keys with leading zeros -/

/-- The key of a marker with so many zeros in front of its identifier. -/
def paddedText (m : NodeMarker) (zeros : Nat) : String :=
  (if m.side = .closing then "/" else "") ++ "RenderNode(id=" ++
    String.ofList (List.replicate zeros '0' ++ Nat.toDigits 10 m.id.toNat) ++
      ", name='" ++ m.name ++ "')"

/-- A zero and another digit stand where the identifier of a key starts. -/
def HasLeadingZero (key : String) : Prop :=
  ∃ (side : Side) (c : Char) (rest : List Char), c.isDigit = true ∧
    key.toList = slash side ++ beforeId ++ '0' :: c :: rest

theorem toList_paddedText (m : NodeMarker) (zeros : Nat) :
    (m.paddedText zeros).toList =
      slash m.side ++ beforeId ++ (List.replicate zeros '0' ++ idDigits m.id) ++ beforeName ++
        m.name.toList ++ afterName :=
  eq_append_iff_toList.1 rfl

/-- The key that a marker prints is the one without zeros. -/
theorem paddedText_zero (m : NodeMarker) : m.paddedText 0 = m.text := by
  rw [← String.toList_inj, toList_paddedText, text, String.toList_ofList]
  rfl

/-- The start of a key tells its side, and the rest of it. -/
theorem eq_of_slash_append_eq {side other : Side} {rest rest' : List Char}
    (h : slash side ++ (beforeId ++ rest) = slash other ++ (beforeId ++ rest')) : rest = rest' := by
  have hside := congrArg parseSide h
  rw [parseSide_append, parseSide_append] at hside
  exact List.append_cancel_left (congrArg Prod.snd hside)

/-- A key has a leading zero exactly if zeros were put in front of its identifier. -/
theorem hasLeadingZero_paddedText_iff {m : NodeMarker} {zeros : Nat} :
    HasLeadingZero (m.paddedText zeros) ↔ zeros ≠ 0 := by
  unfold HasLeadingZero
  rw [toList_paddedText]
  simp only [List.append_assoc]
  constructor
  · rintro ⟨side, c, rest, hc, hkey⟩ rfl
    have hdigits := eq_of_slash_append_eq hkey
    rw [List.replicate_zero, List.nil_append] at hdigits
    cases hid : idDigits m.id with
    | nil => exact Nat.toDigits_ne_nil hid
    | cons a digits =>
        rw [hid] at hdigits
        cases digits with
        | nil =>
            -- the comma behind a single digit is no digit
            have hcomma : c = ',' := by
              obtain ⟨-, hrest⟩ := List.cons.inj hdigits
              exact (List.cons.inj hrest).1.symm
            rw [hcomma] at hc
            cases hc
        | cons b digits =>
            obtain ⟨rfl, -⟩ := List.cons.inj hdigits
            exact idDigits_ne_zero_cons hid
  · intro hzeros
    obtain ⟨n, rfl⟩ := Nat.exists_eq_succ_of_ne_zero hzeros
    have hrest : parseId? (List.replicate n '0' ++ idDigits m.id) = some m.id :=
      parseId?_eq_some_iff_exists_zeros.2 ⟨n, rfl⟩
    obtain ⟨hne, hdigits, -⟩ := parseId?_eq_some_iff.1 hrest
    obtain ⟨c, digits, hcons⟩ := List.exists_cons_of_ne_nil hne
    refine ⟨m.side, c, digits ++ (beforeName ++ (m.name.toList ++ afterName)), ?_, ?_⟩
    · exact hdigits c (by rw [hcons]; exact List.mem_cons_self)
    · rw [List.replicate_succ, List.cons_append, ← List.append_assoc (List.replicate n '0'), hcons]
      simp only [List.cons_append]

/-- A key is read exactly if it is a printed one with zeros in front of the identifier. -/
theorem parse?_eq_some_iff_paddedText {key : String} {m : NodeMarker} :
    parse? key = some m ↔ '\'' ∉ m.name.toList ∧ ∃ zeros, key = m.paddedText zeros := by
  constructor
  · intro h
    obtain ⟨digits, hid, hquote, hkey⟩ := exists_digits_of_parseSpelling? h
    obtain ⟨zeros, rfl⟩ := parseId?_eq_some_iff_exists_zeros.1 hid
    exact ⟨hquote, zeros, eq_append_iff_toList.2 hkey⟩
  · rintro ⟨hquote, zeros, rfl⟩
    have hid : parseId? (List.replicate zeros '0' ++ idDigits m.id) = some m.id :=
      parseId?_eq_some_iff_exists_zeros.2 ⟨zeros, rfl⟩
    unfold parse?
    rw [toList_paddedText, parseSpelling?_append hid, if_neg hquote, String.ofList_toList]

/-- Of the keys without a leading zero, a marker is read from the one that it prints. -/
theorem parse?_and_not_hasLeadingZero_iff {key : String} {m : NodeMarker} :
    parse? key = some m ∧ ¬ HasLeadingZero key ↔ '\'' ∉ m.name.toList ∧ key = m.text := by
  rw [parse?_eq_some_iff_paddedText, ← paddedText_zero]
  constructor
  · rintro ⟨⟨hquote, zeros, rfl⟩, hzeros⟩
    rw [hasLeadingZero_paddedText_iff, not_not] at hzeros
    exact ⟨hquote, by rw [hzeros]⟩
  · rintro ⟨hquote, rfl⟩
    exact ⟨⟨hquote, 0, rfl⟩, fun h => hasLeadingZero_paddedText_iff.1 h rfl⟩

/-- **A key that is read is printed, up to leading zeros.**  The keys that are read as a marker are
the one that it prints and those with zeros in front of the identifier, and the marker prints the
same key again exactly if there are none.  So of the keys without a leading zero no two are read as
the same marker. -/
theorem parse?_eq_some_iff_exists_zeros :
    (∀ key m, parse? key = some m ↔
      '\'' ∉ m.name.toList ∧ ∃ zeros, key = m.paddedText zeros) ∧
    (∀ m : NodeMarker, m.paddedText 0 = m.text) ∧
    (∀ key m, parse? key = some m → (m.text = key ↔ ¬ HasLeadingZero key)) ∧
    ∀ key other m, parse? key = some m → parse? other = some m → ¬ HasLeadingZero key →
      ¬ HasLeadingZero other → key = other := by
  refine ⟨fun _ _ => parse?_eq_some_iff_paddedText, paddedText_zero, ?_, ?_⟩
  · intro key m h
    obtain ⟨hquote, -⟩ := parse?_eq_some_iff_paddedText.1 h
    constructor
    · intro htext
      exact (parse?_and_not_hasLeadingZero_iff.2 ⟨hquote, htext.symm⟩).2
    · intro hzero
      exact (parse?_and_not_hasLeadingZero_iff.1 ⟨h, hzero⟩).2.symm
  · intro key other m hkey hother hzero hzero'
    rw [(parse?_and_not_hasLeadingZero_iff.1 ⟨hkey, hzero⟩).2,
      (parse?_and_not_hasLeadingZero_iff.1 ⟨hother, hzero'⟩).2]

/-- A marker whose identifier has two digits. -/
def twelve : NodeMarker := ⟨.opening, 12, "a"⟩

theorem parse?_twelve : parse? "RenderNode(id=12, name='a')" = some twelve := by decide +kernel

theorem parse?_twelve_padded : parse? "RenderNode(id=0012, name='a')" = some twelve := by
  decide +kernel

/-- The key with the two digits is printed again, and the one with two zeros in front is not. -/
theorem parse?_eq_some_iff_exists_zeros_twelve :
    twelve.text = "RenderNode(id=12, name='a')" ∧
      twelve.text ≠ "RenderNode(id=0012, name='a')" ∧
      twelve.paddedText 0 = "RenderNode(id=12, name='a')" := by
  obtain ⟨hread, -, htext, hunique⟩ := parse?_eq_some_iff_exists_zeros
  have hquote : '\'' ∉ twelve.name.toList := by decide +kernel
  have hprinted : ¬ HasLeadingZero "RenderNode(id=12, name='a')" := by
    have hkey : "RenderNode(id=12, name='a')" = twelve.paddedText 0 := by decide +kernel
    rw [hkey, hasLeadingZero_paddedText_iff, not_not]
  have hpadded : HasLeadingZero "RenderNode(id=0012, name='a')" := by
    have hkey : "RenderNode(id=0012, name='a')" = twelve.paddedText 2 := by decide +kernel
    rw [hkey, hasLeadingZero_paddedText_iff]
    decide
  refine ⟨(htext _ _ parse?_twelve).2 hprinted,
    fun h => (htext _ _ parse?_twelve_padded).1 h hpadded, ?_⟩
  have hzero : ¬ HasLeadingZero (twelve.paddedText 0) :=
    fun h => hasLeadingZero_paddedText_iff.1 h rfl
  exact hunique _ _ twelve ((hread _ _).2 ⟨hquote, 0, rfl⟩) parse?_twelve hzero hprinted

/-- Not every key that is read is printed again, and two keys may be read as the same marker. -/
theorem not_forall_text_eq_of_parse? :
    (¬ ∀ key m, parse? key = some m → m.text = key) ∧
      ¬ ∀ key other m, parse? key = some m → parse? other = some m → key = other := by
  have hne : "RenderNode(id=12, name='a')" ≠ "RenderNode(id=0012, name='a')" := by decide
  refine ⟨fun h => ?_, fun h => hne (h _ _ twelve parse?_twelve parse?_twelve_padded)⟩
  have htext : twelve.text ≠ "RenderNode(id=0012, name='a')" := by decide +kernel
  exact htext (h _ _ parse?_twelve_padded)

end NodeMarker

end PictureTape

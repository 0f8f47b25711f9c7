/-
**What keys spell.**

A key is read as a marker exactly when it is made of a slash or none, decimal digits, a name without
a quote, and the fixed pieces around them.  The identifier ends at the first `beforeName`, because no
digit is a comma, whatever the name holds; so a key can be taken apart in one way only.  The key of a
marker spells the marker if its name holds no quote, and otherwise it spells none.

Main definitions:

* `NodeMarker.HasKey` — the keys that spell a marker.

Main results:

* `Text.around?_append` — a piece is found behind a front that its first character is not in;
* `NodeMarker.parseId?_eq_some_iff` — what the digits of an identifier are;
* `NodeMarker.parseSpelling?_append` — a key in its pieces is read piece by piece;
* `NodeMarker.parse?_eq_some_iff_hasKey` — **a key is read exactly as the marker that it spells;**
* `NodeMarker.parse?_text` — **a marker is read back from its key.**
-/

import PictureTape.NodeMarker

set_option autoImplicit false
set_option relaxedAutoImplicit false

namespace PictureTape

namespace Text

/-- A piece is found behind a front that its first character is not in. -/
theorem around?_append {c : Char} {piece front : List Char} (h : c ∉ front) (rest : List Char) :
    around? (c :: piece) (front ++ (c :: piece ++ rest)) = some (front, rest) := by
  induction front with
  | nil =>
      have hafter := after?_eq_some_iff.2 (rfl : c :: piece ++ rest = c :: piece ++ rest)
      rw [List.nil_append]
      rw [List.cons_append] at hafter ⊢
      rw [around?, hafter]
  | cons d front ih =>
      have hfront : c ∉ front := fun hc => h (List.mem_cons_of_mem d hc)
      have hafter : after? (c :: piece) (d :: (front ++ (c :: piece ++ rest))) = none := by
        -- the text starts with another character
        cases hafter : after? (c :: piece) (d :: (front ++ (c :: piece ++ rest))) with
        | none => rfl
        | some rest' =>
            obtain ⟨rfl, -⟩ := List.cons.inj (after?_eq_some_iff.1 hafter)
            exact absurd List.mem_cons_self h
      rw [List.cons_append, around?, hafter, ih hfront]
      rfl

end Text

namespace NodeMarker

/-! ### Identifiers -/

theorem digitsValue_eq (digits : List Char) : digitsValue digits = Nat.ofDigitChars 10 digits 0 :=
  Nat.ofDigitChars_eq_foldl.symm

/-- The identifier that digits spell is their value, and there are digits and nothing else. -/
theorem parseId?_eq_some_iff {digits : List Char} {id : UInt64} :
    parseId? digits = some id ↔
      digits ≠ [] ∧ (∀ c ∈ digits, c.isDigit = true) ∧
        Nat.ofDigitChars 10 digits 0 = id.toNat := by
  have hall : digits.all isDigit = true ↔ ∀ c ∈ digits, c.isDigit = true := List.all_eq_true
  unfold parseId?
  rw [digitsValue_eq, ← hall]
  constructor
  · intro h
    split at h
    · next hid =>
      obtain ⟨hne, hdigits, hlt⟩ := hid
      cases h
      exact ⟨hne, hdigits, (UInt64.toNat_ofNat_of_lt' hlt).symm⟩
    · cases h
  · rintro ⟨hne, hdigits, hvalue⟩
    rw [hvalue, if_pos ⟨hne, hdigits, id.toNat_lt⟩, UInt64.ofNat_toNat]

/-- An identifier is read back from its digits. -/
theorem parseId?_idDigits (id : UInt64) : parseId? (idDigits id) = some id :=
  parseId?_eq_some_iff.2 ⟨Nat.toDigits_ne_nil,
    fun _ hc => Nat.isDigit_of_mem_toDigits (by decide) (by decide) hc,
    Nat.ofDigitChars_ten_toDigits⟩

/-- No digit is a comma. -/
theorem comma_notMem_of_parseId? {digits : List Char} {id : UInt64}
    (h : parseId? digits = some id) : ',' ∉ digits := by
  intro hcomma
  have hdigit := (parseId?_eq_some_iff.1 h).2.1 _ hcomma
  cases hdigit

/-! ### Keys in their pieces -/

theorem parseSide_append (side : Side) (rest : List Char) :
    parseSide (slash side ++ (beforeId ++ rest)) = (side, beforeId ++ rest) := by
  cases side with
  | opening => rfl
  | closing => rfl

theorem eq_slash_append_parseSide (key : List Char) :
    key = slash (parseSide key).1 ++ (parseSide key).2 := by
  unfold parseSide
  split
  · rfl
  · rfl

/-- A key in its pieces is read piece by piece. -/
theorem parseSpelling?_append {digits : List Char} {id : UInt64} (hid : parseId? digits = some id)
    (side : Side) (name : List Char) :
    parseSpelling? (slash side ++ beforeId ++ digits ++ beforeName ++ name ++ afterName) =
      if '\'' ∈ name then none else some ⟨side, id, String.ofList name⟩ := by
  have hbefore : Text.before? afterName (digits ++ (beforeName ++ (name ++ afterName))) =
      some (digits ++ (beforeName ++ name)) :=
    Text.before?_eq_some_iff.2 (by simp only [List.append_assoc])
  have haround : Text.around? beforeName (digits ++ (beforeName ++ name)) = some (digits, name) :=
    Text.around?_append (comma_notMem_of_parseId? hid) name
  unfold parseSpelling?
  simp only [List.append_assoc]
  rw [parseSide_append]
  simp only [Text.after?_eq_some_iff.2 rfl, hbefore, haround, hid, Option.bind_eq_bind,
    Option.bind_some, List.contains_iff_mem]

/-- A key that is read is made of the pieces of a key. -/
theorem exists_digits_of_parseSpelling? {key : List Char} {m : NodeMarker}
    (h : parseSpelling? key = some m) :
    ∃ digits, parseId? digits = some m.id ∧ '\'' ∉ m.name.toList ∧
      key = slash m.side ++ beforeId ++ digits ++ beforeName ++ m.name.toList ++ afterName := by
  simp only [parseSpelling?, Option.bind_eq_bind, Option.bind_eq_some_iff] at h
  obtain ⟨rest, hafter, front, hbefore, ⟨digits, name⟩, haround, id, hid, h⟩ := h
  split at h
  · cases h
  · next hquote =>
    cases h
    rw [List.contains_iff_mem] at hquote
    have hkey := eq_slash_append_parseSide key
    rw [Text.after?_eq_some_iff.1 hafter, Text.before?_eq_some_iff.1 hbefore,
      Text.eq_append_of_around? haround] at hkey
    refine ⟨digits, hid, by rwa [String.toList_ofList], ?_⟩
    simpa only [String.toList_ofList, List.append_assoc] using hkey

/-! ### Keys and markers -/

/-- The key spells the marker: a slash if it closes the node, digits of which the identifier is the
value, and the name, which holds no quote. -/
def HasKey (m : NodeMarker) (key : String) : Prop :=
  ∃ digits : List Char, digits ≠ [] ∧ (∀ c ∈ digits, c.isDigit = true) ∧
    Nat.ofDigitChars 10 digits 0 = m.id.toNat ∧ '\'' ∉ m.name.toList ∧
    key = (if m.side = .closing then "/" else "") ++ "RenderNode(id=" ++ String.ofList digits ++
      ", name='" ++ m.name ++ "')"

/-- The characters of a key in its pieces. -/
theorem eq_append_iff_toList {key : String} {side : Side} {digits : List Char} {name : String} :
    key = (if side = .closing then "/" else "") ++ "RenderNode(id=" ++ String.ofList digits ++
        ", name='" ++ name ++ "')" ↔
      key.toList = slash side ++ beforeId ++ digits ++ beforeName ++ name.toList ++ afterName := by
  have hslash : (if side = .closing then "/" else "").toList = slash side := by
    cases side with
    | opening => rfl
    | closing => rfl
  rw [← String.toList_inj]
  simp only [String.toList_append, String.toList_ofList, hslash]
  rfl

theorem parse?_text_eq (m : NodeMarker) :
    parse? m.text = if '\'' ∈ m.name.toList then none else some m := by
  unfold parse? text spelling
  rw [String.toList_ofList, parseSpelling?_append (parseId?_idDigits m.id), String.ofList_toList]

/-- **A marker is read back from its key,** if its name holds no quote. -/
theorem parse?_text {m : NodeMarker} (h : '\'' ∉ m.name.toList) : parse? m.text = some m := by
  rw [parse?_text_eq, if_neg h]

/-- **A key is read exactly as the marker that it spells,** so it spells one marker at most.  The key
that a marker prints is read as that marker if the name holds no quote, and otherwise it is read as
none. -/
theorem parse?_eq_some_iff_hasKey :
    (∀ key m, parse? key = some m ↔ m.HasKey key) ∧
      ∀ m, parse? m.text = if '\'' ∈ m.name.toList then none else some m := by
  refine ⟨fun key m => ?_, parse?_text_eq⟩
  constructor
  · intro h
    obtain ⟨digits, hid, hquote, hkey⟩ := exists_digits_of_parseSpelling? h
    obtain ⟨hne, hdigits, hvalue⟩ := parseId?_eq_some_iff.1 hid
    exact ⟨digits, hne, hdigits, hvalue, hquote, eq_append_iff_toList.2 hkey⟩
  · rintro ⟨digits, hne, hdigits, hvalue, hquote, hkey⟩
    have hid := parseId?_eq_some_iff.2 ⟨hne, hdigits, hvalue⟩
    unfold parse?
    rw [eq_append_iff_toList.1 hkey, parseSpelling?_append hid, if_neg hquote,
      String.ofList_toList]

end NodeMarker

end PictureTape

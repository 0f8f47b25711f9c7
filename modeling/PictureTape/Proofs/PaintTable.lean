/-
**The paint table.**

While a picture is encoded its paints are entered into a table one after the other.  Looking for a
paint in the table finds what looking for it among the paints themselves would find: the first one
that agrees with it.  Entries are never moved, so a position that was given out stays valid, and it
stands for the first paint that agrees with the one that was entered.

Main definitions:

* `PaintTable.enterAll` — a list of paints entered one after the other;
* `Paint.firstIn` — the first paint in a list that agrees with the given one;
* `Paint.rounded` — the paint with its color rounded to bytes;
* `PaintTable.Distinct` — no two entries of the table agree.

Main results:

* `PaintTable.find?_enterAll` — **searching the table is searching the paints that were entered;**
* `PaintTable.getElem?_enter` — **the position of a paint is that of the first one that agrees with
  it,** in the table it was entered into and in every later one;
* `PaintTable.nodup_enterAll` — no entry occurs twice, unless its stroke width is a NaN;
* `PaintTable.distinct_enterAll`, `PaintTable.enterAll_of_distinct` — **no two entries agree,** and
  if no two of the paints agree, all of them are entries;
* `Paint.rounded_firstIn` — all that is lost of a paint is part of its color and the sign of a zero.
-/

import PictureTape.Picture.Encoding
import PictureTape.Proofs.Agreement

set_option autoImplicit false
set_option relaxedAutoImplicit false

namespace PictureTape

/-! ### The first paint that agrees -/

namespace Paint

/-- The first paint in the list that agrees with `p`, or `p` itself if none does. -/
def firstIn (paints : List Paint) (p : Paint) : Paint := (paints.find? (·.agrees p)).getD p

/-- The paint with its color rounded to bytes. -/
def rounded (p : Paint) : Paint := { p with color := .ofArgb p.color.toArgb }

/-- Two lists in which the same paint is found first. -/
theorem firstIn_congr {paints others : List Paint} {p : Paint}
    (h : paints.find? (·.agrees p) = others.find? (·.agrees p)) :
    p.firstIn paints = p.firstIn others := by
  unfold firstIn
  rw [h]

/-- The first paint that agrees with `p` does not stand behind `p`. -/
theorem firstIn_append_cons (before after : List Paint) (p : Paint) :
    p.firstIn (before ++ p :: after) = p.firstIn before := by
  unfold firstIn
  rw [List.find?_append]
  cases hfound : before.find? (·.agrees p) with
  | some q => rfl
  | none =>
      rw [Option.none_or, List.find?_cons]
      cases hself : p.agrees p with
      | true => rfl
      | false =>
          -- a paint that does not agree with itself agrees with none
          have hnone : after.find? (·.agrees p) = none := by
            rw [List.find?_eq_none]
            intro q _ hq
            have hpq : p.agrees q = true := by rw [agrees_comm]; exact hq
            rw [agrees_trans hpq hq] at hself
            cases hself
          simp [hnone]

/-- The first paint that agrees with `p` is `p`, or it agrees with `p`. -/
theorem firstIn_eq_self_or_agrees (paints : List Paint) (p : Paint) :
    p.firstIn paints = p ∨ (p.firstIn paints).agrees p = true := by
  unfold firstIn
  cases hfound : paints.find? (·.agrees p) with
  | none => exact Or.inl rfl
  | some q =>
      have hq : q.agrees p = true := by simpa using List.find?_some hfound
      exact Or.inr hq

theorem firstIn_mem {paints : List Paint} {p : Paint} (h : p ∈ paints) :
    p.firstIn paints ∈ paints := by
  unfold firstIn
  cases hfound : paints.find? (·.agrees p) with
  | none => exact h
  | some q => exact List.mem_of_find?_eq_some hfound

/-- The width of the first paint that agrees with `p` is finite when that of `p` is. -/
theorem isFinite_strokeWidth_firstIn (paints : List Paint) (p : Paint) :
    (p.firstIn paints).strokeWidth.isFinite = p.strokeWidth.isFinite := by
  rcases firstIn_eq_self_or_agrees paints p with h | h
  · rw [h]
  · have hwidth := (agrees_iff.1 h).2.2.2
    rw [Bool.eq_iff_iff]
    constructor
    · exact Binary32.isFinite_of_agrees hwidth
    · rw [Binary32.agrees_comm] at hwidth
      exact Binary32.isFinite_of_agrees hwidth

/-- The first paint that agrees with `p` differs from `p` in its color and its width only, and in
its color only as far as a rounded color does not show. -/
theorem rounded_firstIn (paints : List Paint) (p : Paint) :
    (p.firstIn paints).rounded =
      { p with color := .ofArgb p.color.toArgb
               strokeWidth := (p.firstIn paints).strokeWidth } := by
  rcases firstIn_eq_self_or_agrees paints p with h | h
  · rw [h]
    rfl
  · obtain ⟨hcolor, hstyle, hsmooth, -⟩ := agrees_iff.1 h
    simp only [rounded, Color.toArgb_eq_of_agrees hcolor, hstyle, hsmooth]

end Paint

/-! ### Entering paints -/

namespace PaintTable

/-- The table with the paints entered one after the other. -/
def enterAll (paints : List Paint) (table : PaintTable) : PaintTable :=
  paints.foldl (fun table p => (enter p table).2) table

@[simp] theorem enterAll_nil (table : PaintTable) : enterAll [] table = table := rfl

@[simp] theorem enterAll_cons (p : Paint) (paints : List Paint) (table : PaintTable) :
    enterAll (p :: paints) table = enterAll paints (enter p table).2 := rfl

theorem enterAll_append (paints more : List Paint) (table : PaintTable) :
    enterAll (paints ++ more) table = enterAll more (enterAll paints table) :=
  List.foldl_append

/-- An entry that agrees with the paint is used again. -/
theorem enter_of_findIdx?_eq_some {p : Paint} {table : PaintTable} {i : Nat}
    (h : table.findIdx? (·.agrees p) = some i) : enter p table = (i, table) := by
  simp only [enter, h]

/-- Without such an entry the paint becomes the last one. -/
theorem enter_of_findIdx?_eq_none {p : Paint} {table : PaintTable}
    (h : table.findIdx? (·.agrees p) = none) : enter p table = (table.length, table ++ [p]) := by
  simp only [enter, h]

/-- Entering a paint adds at most one entry, at the end. -/
theorem enter_snd_eq_or (p : Paint) (table : PaintTable) :
    (enter p table).2 = table ∨ (enter p table).2 = table ++ [p] := by
  cases hfound : table.findIdx? (·.agrees p) with
  | some i => exact Or.inl (by rw [enter_of_findIdx?_eq_some hfound])
  | none => exact Or.inr (by rw [enter_of_findIdx?_eq_none hfound])

theorem prefix_enter (p : Paint) (table : PaintTable) : table <+: (enter p table).2 := by
  rcases enter_snd_eq_or p table with h | h
  · exact ⟨[], by rw [h, List.append_nil]⟩
  · exact ⟨[p], h.symm⟩

theorem prefix_enterAll (paints : List Paint) (table : PaintTable) :
    table <+: enterAll paints table := by
  induction paints generalizing table with
  | nil => exact List.prefix_refl table
  | cons p paints ih => exact (prefix_enter p table).trans (ih (enter p table).2)

/-- Entries come from the table or from the paints that were entered. -/
theorem mem_enterAll {paints : List Paint} {table : PaintTable} {q : Paint}
    (h : q ∈ enterAll paints table) : q ∈ table ∨ q ∈ paints := by
  induction paints generalizing table with
  | nil => exact Or.inl h
  | cons p paints ih =>
      rw [enterAll_cons] at h
      rcases ih h with hq | hq
      · rcases enter_snd_eq_or p table with heq | heq
        · rw [heq] at hq
          exact Or.inl hq
        · rw [heq] at hq
          rcases List.mem_append.1 hq with hold | hnew
          · exact Or.inl hold
          · exact Or.inr (by rw [List.mem_singleton.1 hnew]; exact List.mem_cons_self)
      · exact Or.inr (List.mem_cons_of_mem p hq)

theorem length_enter_le (p : Paint) (table : PaintTable) :
    (enter p table).2.length ≤ table.length + 1 := by
  rcases enter_snd_eq_or p table with h | h <;> simp [h]

/-- There are not more entries than paints. -/
theorem length_enterAll_le (paints : List Paint) (table : PaintTable) :
    (enterAll paints table).length ≤ table.length + paints.length := by
  induction paints generalizing table with
  | nil => simp
  | cons p paints ih =>
      have hstep := length_enter_le p table
      have hrest := ih (enter p table).2
      simp only [enterAll_cons, List.length_cons]
      omega

/-! ### Searching the table -/

theorem find?_enter (p q : Paint) (table : PaintTable) :
    (enter p table).2.find? (·.agrees q) = (table ++ [p]).find? (·.agrees q) := by
  cases hfound : table.findIdx? (·.agrees p) with
  | none => rw [enter_of_findIdx?_eq_none hfound]
  | some i =>
      obtain ⟨hi, hagrees, -⟩ := List.findIdx?_eq_some_iff_getElem.1 hfound
      rw [enter_of_findIdx?_eq_some hfound, List.find?_append]
      cases hq : table.find? (·.agrees q) with
      | some r => rfl
      | none =>
          -- what agrees with `p` would agree with the entry at `i` too, and have been found
          have hpq : p.agrees q = false := by
            rw [Bool.eq_false_iff]
            intro hpq
            exact List.find?_eq_none.1 hq _ (List.getElem_mem hi) (Paint.agrees_trans hagrees hpq)
          simp [hpq]

/-- A table that answers for some paints answers for one more when it has been entered. -/
theorem find?_enter_of_find? {before : List Paint} {table : PaintTable}
    (hfind : ∀ q : Paint, table.find? (·.agrees q) = before.find? (·.agrees q)) (p q : Paint) :
    (enter p table).2.find? (·.agrees q) = (before ++ [p]).find? (·.agrees q) := by
  rw [find?_enter, List.find?_append, List.find?_append, hfind q]

/-- **Searching the table is searching the paints that were entered.** -/
theorem find?_enterAll (paints : List Paint) (table : PaintTable) (q : Paint) :
    (enterAll paints table).find? (·.agrees q) = (table ++ paints).find? (·.agrees q) := by
  induction paints generalizing table with
  | nil => simp
  | cons p paints ih =>
      rw [enterAll_cons, ih, List.find?_append, find?_enter, ← List.find?_append, List.append_assoc,
        List.singleton_append]

/-- Each of the paints agrees with an entry. -/
theorem exists_agrees_of_mem {p : Paint} {paints : List Paint} (hp : p.strokeWidth.isNaN = false)
    (hmem : p ∈ paints) (table : PaintTable) :
    ∃ q ∈ enterAll paints table, q.agrees p = true := by
  have hself : p.agrees p = true := by
    rw [Paint.agrees_self, hp]
    rfl
  have hsome : ((table ++ paints).find? (·.agrees p)).isSome = true :=
    List.find?_isSome.2 ⟨p, List.mem_append_right table hmem, hself⟩
  rw [← find?_enterAll] at hsome
  exact List.find?_isSome.1 hsome

/-- **The position of a paint is that of the first one that agrees with it.** -/
theorem getElem?_enter (p : Paint) (table : PaintTable) :
    (enter p table).2[(enter p table).1]? = some (p.firstIn table) := by
  unfold Paint.firstIn
  cases hfound : table.findIdx? (·.agrees p) with
  | none =>
      rw [List.findIdx?_eq_none_iff] at hfound
      have hnone : table.find? (·.agrees p) = none :=
        List.find?_eq_none.2 fun q hq => by simp [hfound q hq]
      rw [enter_of_findIdx?_eq_none (List.findIdx?_eq_none_iff.2 hfound), hnone]
      simp
  | some i =>
      rw [enter_of_findIdx?_eq_some hfound]
      obtain ⟨hi, hagrees, hfirst⟩ := List.findIdx?_eq_some_iff_getElem.1 hfound
      have hsome : table.find? (·.agrees p) = some table[i] := by
        rw [List.find?_eq_some_iff_getElem]
        exact ⟨hagrees, i, hi, rfl, fun j hj => by simpa using hfirst j hj⟩
      rw [hsome, List.getElem?_eq_getElem hi]
      rfl

theorem getElem?_of_findIdx?_eq_some {p : Paint} {table : PaintTable} {i : Nat}
    (h : table.findIdx? (·.agrees p) = some i) : table[i]? = some (p.firstIn table) := by
  have hentry := getElem?_enter p table
  rwa [enter_of_findIdx?_eq_some h] at hentry

theorem firstIn_of_findIdx?_eq_none {p : Paint} {table : PaintTable}
    (h : table.findIdx? (·.agrees p) = none) : p.firstIn table = p := by
  have hentry := getElem?_enter p table
  rw [enter_of_findIdx?_eq_none h, List.getElem?_concat_length] at hentry
  exact (Option.some.inj hentry).symm

/-- Later paints do not move the entries. -/
theorem getElem?_enterAll_of_getElem? {paints : List Paint} {table : PaintTable} {i : Nat}
    {q : Paint} (h : table[i]? = some q) : (enterAll paints table)[i]? = some q := by
  obtain ⟨more, hmore⟩ := prefix_enterAll paints table
  obtain ⟨hi, hq⟩ := List.getElem?_eq_some_iff.1 h
  rw [← hmore, List.getElem?_append_left hi]
  exact h

/-! ### Entries are distinct -/

theorem nodup_enter {p : Paint} {table : PaintTable} (hp : p.strokeWidth.isNaN = false)
    (h : table.Nodup) : (enter p table).2.Nodup := by
  cases hfound : table.findIdx? (·.agrees p) with
  | some i =>
      rw [enter_of_findIdx?_eq_some hfound]
      exact h
  | none =>
      -- if it were an entry already, it would have been found: it agrees with itself
      have hnew : p ∉ table := by
        intro hmem
        have hself := List.findIdx?_eq_none_iff.1 hfound p hmem
        rw [Paint.agrees_self, hp] at hself
        cases hself
      rw [enter_of_findIdx?_eq_none hfound, List.nodup_append]
      refine ⟨h, by simp, ?_⟩
      intro q hq r hr heq
      rw [List.mem_singleton.1 hr] at heq
      exact hnew (heq ▸ hq)

/-- **No entry occurs twice,** unless its stroke width is a NaN. -/
theorem nodup_enterAll {paints : List Paint} {table : PaintTable}
    (hp : ∀ p ∈ paints, p.strokeWidth.isNaN = false) (h : table.Nodup) :
    (enterAll paints table).Nodup := by
  induction paints generalizing table with
  | nil => exact h
  | cons p paints ih =>
      refine ih (fun q hq => hp q (List.mem_cons_of_mem p hq)) ?_
      exact nodup_enter (hp p List.mem_cons_self) h

/-! ### Entries that do not agree -/

/-- No entry agrees with one before it. -/
def Distinct (table : PaintTable) : Prop := table.Pairwise fun p q => p.agrees q = false

/-- A paint that agrees with no entry becomes the last one. -/
theorem enter_of_distinct_append {p : Paint} {table : PaintTable} (h : Distinct (table ++ [p])) :
    enter p table = (table.length, table ++ [p]) := by
  refine enter_of_findIdx?_eq_none (List.findIdx?_eq_none_iff.2 fun q hq => ?_)
  exact (List.pairwise_append.1 h).2.2 q hq p List.mem_cons_self

/-- An entry is found where it stands. -/
theorem enter_of_getElem? {p : Paint} {table : PaintTable} {i : Nat} (h : Distinct table)
    (hp : p.strokeWidth.isNaN = false) (hi : table[i]? = some p) : enter p table = (i, table) := by
  obtain ⟨hlt, rfl⟩ := List.getElem?_eq_some_iff.1 hi
  refine enter_of_findIdx?_eq_some (List.findIdx?_eq_some_iff_getElem.2 ⟨hlt, ?_, ?_⟩)
  · rw [Paint.agrees_self, hp]
    rfl
  · intro j hj hagrees
    have hbefore := List.pairwise_iff_getElem.1 h j i (by omega) hlt hj
    rw [hbefore] at hagrees
    cases hagrees

theorem distinct_enter {p : Paint} {table : PaintTable} (h : Distinct table) :
    Distinct (enter p table).2 := by
  cases hfound : table.findIdx? (·.agrees p) with
  | some i =>
      rw [enter_of_findIdx?_eq_some hfound]
      exact h
  | none =>
      rw [enter_of_findIdx?_eq_none hfound]
      refine List.pairwise_append.2 ⟨h, List.pairwise_singleton _ p, fun q hq r hr => ?_⟩
      rw [List.mem_singleton.1 hr]
      exact List.findIdx?_eq_none_iff.1 hfound q hq

/-- **No two entries agree.** -/
theorem distinct_enterAll (paints : List Paint) {table : PaintTable} (h : Distinct table) :
    Distinct (enterAll paints table) := by
  induction paints generalizing table with
  | nil => exact h
  | cons p paints ih => exact ih (distinct_enter h)

/-- If no two images of the entries agree, then entries whose images agree are the same one. -/
theorem eq_of_distinct_map {image : Paint → Paint} {table : PaintTable}
    (h : Distinct (table.map image)) {p q : Paint} (hp : p ∈ table) (hq : q ∈ table)
    (hagrees : (image p).agrees (image q) = true) : p = q := by
  induction table with
  | nil => cases hp
  | cons r table ih =>
      obtain ⟨hfirst, hrest⟩ := List.pairwise_cons.1 h
      rcases List.mem_cons.1 hp with rfl | hptail
      · rcases List.mem_cons.1 hq with rfl | hqtail
        · rfl
        · rw [hfirst _ (List.mem_map_of_mem hqtail)] at hagrees
          cases hagrees
      · rcases List.mem_cons.1 hq with rfl | hqtail
        · rw [Paint.agrees_comm, hfirst _ (List.mem_map_of_mem hptail)] at hagrees
          cases hagrees
        · exact ih hrest hptail hqtail

/-- Entries that agree are one entry. -/
theorem eq_of_agrees {table : PaintTable} {i j : Nat} {p q : Paint} (h : Distinct table)
    (hi : table[i]? = some p) (hj : table[j]? = some q) (hagrees : p.agrees q = true) : i = j := by
  obtain ⟨hilt, rfl⟩ := List.getElem?_eq_some_iff.1 hi
  obtain ⟨hjlt, rfl⟩ := List.getElem?_eq_some_iff.1 hj
  rcases Nat.lt_trichotomy i j with hlt | heq | hlt
  · rw [List.pairwise_iff_getElem.1 h i j hilt hjlt hlt] at hagrees
    cases hagrees
  · exact heq
  · rw [Paint.agrees_comm, List.pairwise_iff_getElem.1 h j i hjlt hilt hlt] at hagrees
    cases hagrees

/-- Paints are left out, and the others stay in order. -/
theorem enterAll_sublist (paints : List Paint) (table : PaintTable) :
    (enterAll paints table).Sublist (table ++ paints) := by
  induction paints generalizing table with
  | nil => exact List.sublist_append_left table []
  | cons p paints ih =>
      rcases enter_snd_eq_or p table with hold | hnew
      · rw [enterAll_cons, hold]
        exact (ih table).trans ((List.sublist_cons_self p paints).append_left table)
      · have hrest := ih (table ++ [p])
        rwa [List.append_assoc, List.singleton_append, ← hnew] at hrest

/-- If no two of them agree, then no paint is left out. -/
theorem enterAll_of_distinct {paints : List Paint} {table : PaintTable}
    (h : Distinct (table ++ paints)) : enterAll paints table = table ++ paints := by
  induction paints generalizing table with
  | nil => rw [enterAll_nil, List.append_nil]
  | cons p paints ih =>
      rw [← List.singleton_append, ← List.append_assoc] at h ⊢
      have hfront : Distinct (table ++ [p]) := (List.pairwise_append.1 h).1
      rw [List.singleton_append, enterAll_cons, enter_of_distinct_append hfront, ih h]

/-- A paint that is among those entered is not entered again. -/
theorem enter_snd_enterAll_of_mem {p : Paint} {paints : List Paint}
    (hp : p.strokeWidth.isNaN = false) (hmem : p ∈ paints) (table : PaintTable) :
    (enter p (enterAll paints table)).2 = enterAll paints table := by
  obtain ⟨q, hq, hagrees⟩ := exists_agrees_of_mem hp hmem table
  cases hfound : (enterAll paints table).findIdx? (·.agrees p) with
  | some i => rw [enter_of_findIdx?_eq_some hfound]
  | none =>
      rw [List.findIdx?_eq_none_iff.1 hfound q hq] at hagrees
      cases hagrees

end PaintTable

end PictureTape

/-
**Matching saves and restores.**

Saves and restores are brackets.  In a list of commands in which no restore lacks its save, the
saves without a restore cut the list into pieces that are balanced.  From this follows which saves
are matched and how often the two kinds of brackets occur, in the list and in the fronts of it.

Main definitions:

* `Command.Matched` — the positions of a save and of the restore that undoes it;
* `Command.Nested` — a list of commands, and the positions of the saves that are open at its end.

Main results:

* `Command.Nested.count_le_of_prefix` — no front of such a list has more restores than saves;
* `Command.Nested.mem_iff` — **the open saves are those that are not matched;**
* `Command.Nested.matched_append_restore_iff` — **one more restore matches the innermost open
  save,** and no other save;
* `Command.Nested.balanced_append_replicate` — as many restores as there are open saves make the
  list balanced.
-/

import PictureTape.Proofs.Flattening

set_option autoImplicit false
set_option relaxedAutoImplicit false

namespace PictureTape

namespace Command

/-! ### Counting brackets -/

section

variable (commands : List Command)

@[simp] theorem count_save_save_cons :
    (save :: commands).count save = commands.count save + 1 := List.count_cons_self

@[simp] theorem count_save_restore_cons :
    (restore :: commands).count save = commands.count save := List.count_cons_of_ne (by decide)

@[simp] theorem count_restore_save_cons :
    (save :: commands).count restore = commands.count restore := List.count_cons_of_ne (by decide)

@[simp] theorem count_restore_restore_cons :
    (restore :: commands).count restore = commands.count restore + 1 := List.count_cons_self

end

/-- A front of a list that is put together is a front of its first part, or holds all of it. -/
theorem prefix_append_cases {front first second : List Command} (h : front <+: first ++ second) :
    front <+: first ∨ ∃ rest, rest <+: second ∧ front = first ++ rest := by
  rcases List.prefix_or_prefix_of_prefix h (List.prefix_append first second) with h' | ⟨rest, rfl⟩
  · exact .inl h'
  · exact .inr ⟨rest, (List.prefix_append_right_inj first).1 h, rfl⟩

namespace Balanced

variable {commands : List Command}

/-- Balanced commands have as many saves as restores. -/
theorem count_save_eq (h : Balanced commands) : commands.count save = commands.count restore := by
  induction h with
  | nil => rfl
  | plain hsave hrestore _ ih =>
      rw [List.count_cons_of_ne hsave, List.count_cons_of_ne hrestore, ih]
  | bracket _ _ ihinside ih =>
      simp only [List.count_append, count_save_save_cons, count_save_restore_cons,
        count_restore_save_cons, count_restore_restore_cons, ihinside, ih]
      omega

/-- No front of balanced commands has more restores than saves. -/
theorem count_le_of_prefix (h : Balanced commands) {front : List Command}
    (hfront : front <+: commands) : front.count restore ≤ front.count save := by
  induction h generalizing front with
  | nil =>
      rw [List.prefix_nil.1 hfront]
      exact Nat.le_refl 0
  | plain hsave hrestore _ ih =>
      rcases List.prefix_cons_iff.1 hfront with rfl | ⟨rest, rfl, hrest⟩
      · exact Nat.le_refl 0
      · rw [List.count_cons_of_ne hsave, List.count_cons_of_ne hrestore]
        exact ih hrest
  | @bracket inside commands hinside _ ihinside ih =>
      rcases List.prefix_cons_iff.1 hfront with rfl | ⟨rest, rfl, hrest⟩
      · exact Nat.le_refl 0
      · rw [count_save_save_cons, count_restore_save_cons]
        rcases prefix_append_cases hrest with hshort | ⟨after, hafter, rfl⟩
        · exact Nat.le_succ_of_le (ihinside hshort)
        · -- the inside is balanced, and the save in front of it makes up for the next restore
          rw [List.count_append, List.count_append, hinside.count_save_eq]
          rcases List.prefix_cons_iff.1 hafter with rfl | ⟨after, rfl, hback⟩
          · exact Nat.le_succ _
          · have hle := ih hback
            rw [count_save_restore_cons, count_restore_restore_cons]
            omega

/-- Behind a save among balanced commands stand more restores than saves. -/
theorem not_balanced_of_append_save {front inside : List Command}
    (h : Balanced (front ++ save :: inside)) : ¬ Balanced inside := by
  intro hinside
  have htotal := h.count_save_eq
  have hfront := h.count_le_of_prefix (List.prefix_append front _)
  rw [List.count_append, List.count_append, count_save_save_cons, count_restore_save_cons,
    hinside.count_save_eq] at htotal
  omega

/-- If two saves are both followed by balanced commands up to the end, then they are the same. -/
theorem eq_of_append_save_eq {front front' inside inside' : List Command} (h : Balanced inside)
    (h' : Balanced inside') (heq : front ++ save :: inside = front' ++ save :: inside') :
    front = front' := by
  rcases List.append_eq_append_iff.1 heq with ⟨middle, hfront, htail⟩ | ⟨middle, hfront, htail⟩
  · cases middle with
    | nil => rw [hfront, List.append_nil]
    | cons c middle =>
        obtain ⟨rfl, rfl⟩ := List.cons.inj htail
        exact absurd h' h.not_balanced_of_append_save
  · cases middle with
    | nil => rw [hfront, List.append_nil]
    | cons c middle =>
        obtain ⟨rfl, rfl⟩ := List.cons.inj htail
        exact absurd h h'.not_balanced_of_append_save

end Balanced

/-! ### Matching brackets -/

/-- The save at position `i` and the restore at position `j` match: what stands between them is
balanced. -/
def Matched (commands : List Command) (i j : Nat) : Prop :=
  ∃ front inside back, commands = front ++ save :: (inside ++ restore :: back) ∧
    Balanced inside ∧ front.length = i ∧ front.length + inside.length + 1 = j

namespace Matched

variable {commands : List Command} {i j : Nat}

/-- Brackets that match do so within longer lists. -/
theorem append (h : Matched commands i j) (front back : List Command) :
    Matched (front ++ commands ++ back) (front.length + i) (front.length + j) := by
  obtain ⟨before, inside, after, rfl, hinside, rfl, rfl⟩ := h
  refine ⟨front ++ before, inside, after ++ back, by simp, hinside, List.length_append, ?_⟩
  rw [List.length_append]
  omega

theorem append_right (h : Matched commands i j) (back : List Command) :
    Matched (commands ++ back) i j := by
  simpa using h.append [] back

theorem append_left (h : Matched commands i j) (front : List Command) :
    Matched (front ++ commands) (front.length + i) (front.length + j) := by
  simpa using h.append front []

/-- If no front of what follows a save has more restores than saves, then the save is not
matched. -/
theorem not_of_count_le {front rest : List Command}
    (h : ∀ middle, middle <+: rest → middle.count restore ≤ middle.count save) (j : Nat) :
    ¬ Matched (front ++ save :: rest) front.length j := by
  rintro ⟨front', inside, back, heq, hinside, hlength, -⟩
  obtain ⟨rfl, htail⟩ := List.append_inj heq hlength.symm
  cases htail
  -- up to its restore, what follows the save has one restore too many
  have hle := h (inside ++ [restore]) ⟨back, by simp⟩
  rw [List.count_append, List.count_append, hinside.count_save_eq, count_save_restore_cons,
    count_restore_restore_cons, List.count_nil, List.count_nil] at hle
  omega

end Matched

/-- Every save among balanced commands is matched. -/
theorem Balanced.exists_matched {commands : List Command} (h : Balanced commands) {i : Nat}
    (hi : commands[i]? = some save) : ∃ j, Matched commands i j := by
  induction h generalizing i with
  | nil => cases hi
  | @plain c commands hsave _ _ ih =>
      cases i with
      | zero => exact absurd (Option.some.inj hi) hsave
      | succ i =>
          obtain ⟨j, hj⟩ := ih hi
          exact ⟨_, by simpa [Nat.add_comm] using hj.append_left [c]⟩
  | @bracket inside commands hinside _ ihinside ih =>
      cases i with
      | zero => exact ⟨_, [], inside, commands, rfl, hinside, rfl, rfl⟩
      | succ i =>
          have hi : (inside ++ restore :: commands)[i]? = some save := hi
          rcases Nat.lt_or_ge i inside.length with hlt | hge
          · rw [List.getElem?_append_left hlt] at hi
            obtain ⟨j, hj⟩ := ihinside hi
            exact ⟨_, by simpa [Nat.add_comm] using hj.append [save] (restore :: commands)⟩
          · rw [List.getElem?_append_right hge] at hi
            obtain ⟨k, hk⟩ : ∃ k, i = inside.length + k := ⟨_, (Nat.add_sub_cancel' hge).symm⟩
            subst hk
            rw [Nat.add_sub_cancel_left] at hi
            cases k with
            | zero => cases hi
            | succ k =>
                obtain ⟨j, hj⟩ := ih hi
                have hmatched := hj.append_left (save :: (inside ++ [restore]))
                have hk : inside.length + (k + 1) + 1 =
                    (save :: (inside ++ [restore])).length + k := by
                  simp only [List.length_cons, List.length_append, List.length_nil]
                  omega
                rw [List.cons_append, List.append_assoc, List.singleton_append, ← hk] at hmatched
                exact ⟨_, hmatched⟩

/-! ### Open saves -/

/-- The commands are balanced pieces with a save between each two of them.  The positions of these
saves are listed from the last one to the first. -/
inductive Nested : List Command → List Nat → Prop
  | balanced {commands : List Command} (h : Balanced commands) : Nested commands []
  | opened {commands inside : List Command} {openSaves : List Nat}
      (hfront : Nested commands openSaves) (hinside : Balanced inside) :
      Nested (commands ++ save :: inside) (commands.length :: openSaves)

namespace Nested

variable {commands : List Command} {openSaves : List Nat}

/-- Balanced commands leave the open saves as they were. -/
theorem append_balanced (h : Nested commands openSaves) {others : List Command}
    (hothers : Balanced others) : Nested (commands ++ others) openSaves := by
  cases h with
  | balanced h => exact .balanced (h.append hothers)
  | opened hfront hinside =>
      rw [List.append_assoc]
      exact .opened hfront (hinside.append hothers)

/-- One more save is open. -/
theorem append_save (h : Nested commands openSaves) :
    Nested (commands ++ [save]) (commands.length :: openSaves) := .opened h .nil

/-- One more restore undoes the innermost open save. -/
theorem append_restore {i : Nat} (h : Nested commands (i :: openSaves)) :
    Nested (commands ++ [restore]) openSaves := by
  cases h with
  | opened hfront hinside =>
      rw [List.append_assoc]
      exact hfront.append_balanced (.bracket hinside .nil)

/-- There are as many open saves as there are saves more than restores. -/
theorem length_add_count (h : Nested commands openSaves) :
    openSaves.length + commands.count restore = commands.count save := by
  induction h with
  | balanced h => rw [List.length_nil, Nat.zero_add, h.count_save_eq]
  | opened _ hinside ih =>
      rw [List.length_cons, List.count_append, List.count_append, count_save_save_cons,
        count_restore_save_cons, hinside.count_save_eq, ← ih]
      omega

/-- No front of the commands has more restores than saves. -/
theorem count_le_of_prefix (h : Nested commands openSaves) {front : List Command}
    (hfront : front <+: commands) : front.count restore ≤ front.count save := by
  induction h generalizing front with
  | balanced h => exact h.count_le_of_prefix hfront
  | opened hnested hinside ih =>
      rcases prefix_append_cases hfront with hshort | ⟨back, hback, rfl⟩
      · exact ih hshort
      · have hlength := hnested.length_add_count
        rw [List.count_append, List.count_append]
        rcases List.prefix_cons_iff.1 hback with rfl | ⟨rest, rfl, hrest⟩
        · rw [List.count_nil, List.count_nil]
          omega
        · have hle := hinside.count_le_of_prefix hrest
          rw [count_save_save_cons, count_restore_save_cons]
          omega

/-- The open saves are among the commands. -/
theorem lt_length (h : Nested commands openSaves) : ∀ i ∈ openSaves, i < commands.length := by
  induction h with
  | balanced _ => simp
  | opened _ _ ih =>
      intro i hi
      rw [List.length_append, List.length_cons]
      rcases List.mem_cons.1 hi with rfl | hi
      · omega
      · have hlt := ih i hi
        omega

/-- The open saves are listed from the last one to the first. -/
theorem pairwise (h : Nested commands openSaves) : openSaves.Pairwise (· > ·) := by
  induction h with
  | balanced _ => exact .nil
  | opened hfront _ ih => exact .cons hfront.lt_length ih

/-- Behind an open save there is no front with more restores than saves. -/
theorem exists_eq_append_of_mem (h : Nested commands openSaves) {i : Nat} (hi : i ∈ openSaves) :
    ∃ front rest, commands = front ++ save :: rest ∧ front.length = i ∧
      ∀ middle, middle <+: rest → middle.count restore ≤ middle.count save := by
  induction h with
  | balanced _ => cases hi
  | @opened commands inside openSaves hfront hinside ih =>
      rcases List.mem_cons.1 hi with rfl | hi
      · exact ⟨commands, inside, rfl, rfl, fun _ hmiddle => hinside.count_le_of_prefix hmiddle⟩
      · obtain ⟨front, rest, rfl, rfl, hrest⟩ := ih hi
        refine ⟨front, rest ++ save :: inside, by simp, rfl, fun middle hmiddle => ?_⟩
        rcases prefix_append_cases hmiddle with hshort | ⟨back, hback, rfl⟩
        · exact hrest middle hshort
        · have hle := hrest rest (List.prefix_refl rest)
          rw [List.count_append, List.count_append]
          rcases List.prefix_cons_iff.1 hback with rfl | ⟨after, rfl, hafter⟩
          · rw [List.count_nil, List.count_nil]
            omega
          · have hle' := hinside.count_le_of_prefix hafter
            rw [count_save_save_cons, count_restore_save_cons]
            omega

/-- **The open saves are those that are not matched.** -/
theorem mem_iff (h : Nested commands openSaves) {i : Nat} :
    i ∈ openSaves ↔ commands[i]? = some save ∧ ∀ j, ¬ Matched commands i j := by
  constructor
  · intro hi
    obtain ⟨front, rest, rfl, rfl, hrest⟩ := h.exists_eq_append_of_mem hi
    exact ⟨by simp, Matched.not_of_count_le hrest⟩
  · rintro ⟨hsave, hunmatched⟩
    induction h with
    | balanced h =>
        obtain ⟨j, hj⟩ := h.exists_matched hsave
        exact absurd hj (hunmatched j)
    | @opened commands inside openSaves hfront hinside ih =>
        rcases Nat.lt_trichotomy i commands.length with hlt | rfl | hgt
        · rw [List.getElem?_append_left hlt] at hsave
          exact List.mem_cons_of_mem _
            (ih hsave fun j hj => hunmatched j (hj.append_right (save :: inside)))
        · exact List.mem_cons_self
        · -- a save behind the last open one is matched in the balanced piece there
          obtain ⟨k, rfl⟩ : ∃ k, i = commands.length + (k + 1) :=
            ⟨i - commands.length - 1, by omega⟩
          rw [List.getElem?_append_right (Nat.le_add_right ..), Nat.add_sub_cancel_left] at hsave
          obtain ⟨j, hj⟩ := hinside.exists_matched hsave
          have hmatched := hj.append_left (commands ++ [save])
          rw [List.append_assoc, List.singleton_append, List.length_append, List.length_singleton,
            Nat.add_assoc, Nat.add_comm 1 k] at hmatched
          exact absurd hmatched (hunmatched _)

/-- **One more restore matches the innermost open save,** and no other save. -/
theorem matched_append_restore_iff {i : Nat} (h : Nested commands (i :: openSaves)) {k : Nat} :
    Matched (commands ++ [restore]) k commands.length ↔ k = i := by
  obtain _ | ⟨hfront, hinside⟩ := h
  rename_i front inside
  constructor
  · rintro ⟨front', inside', back, heq, hinside', rfl, hposition⟩
    -- the restore is the last command, so nothing stands behind it
    have hback : back = [] := by
      have hlength := congrArg List.length heq
      simp only [List.length_append, List.length_cons, List.length_nil] at hlength hposition
      exact List.eq_nil_of_length_eq_zero (by omega)
    subst hback
    rw [← List.cons_append, ← List.append_assoc] at heq
    have hcommands := List.append_inj_left' heq rfl
    rw [hinside.eq_of_append_save_eq hinside' hcommands]
  · rintro rfl
    exact ⟨front, inside, [], by simp, hinside, rfl, by simp [Nat.add_assoc]⟩

/-- As many restores as there are open saves make the commands balanced. -/
theorem balanced_append_replicate (h : Nested commands openSaves) :
    Balanced (commands ++ List.replicate openSaves.length restore) := by
  induction openSaves generalizing commands with
  | nil =>
      cases h with
      | balanced h => simpa using h
  | cons i openSaves ih =>
      have hbalanced := ih h.append_restore
      rwa [List.append_assoc, List.singleton_append, ← List.replicate_succ] at hbalanced

end Nested

end Command

end PictureTape

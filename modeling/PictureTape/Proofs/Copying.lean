/-
**Playing back on a recorder.**

A recorder that a picture is played back on keeps the commands of the picture up to the first
restore for which no save is open, be it a save of the picture or one that was open before.  So what
it keeps is known beforehand: it is the longest front of the commands that never undoes more saves
than there are.

Main definitions:

* `Command.Admissible` — commands that can be kept while `k` saves are open;
* `Script.recorded` — the picture that any steps on a new recorder leave.

Main results:

* `Command.admissible_cons_iff` — what one more command in front asks for;
* `Recorder.afterAll_cases` — **a recorder keeps all commands, or those before a restore for which
  no save is open;**
* `Recorder.admissible_of_afterAll` — commands that are kept are admissible;
* `Picture.playback_recording` — **playing back on a recorder copies the longest admissible front;**
  pictures that were recorded are copied as they are.
-/

import PictureTape.Proofs.OpenSaves

set_option autoImplicit false
set_option relaxedAutoImplicit false

namespace PictureTape

/-! ### Admissible commands -/

namespace Command

/-- No front of the commands has more than `k` restores more than saves: they can be carried out
while `k` saves are open. -/
def Admissible (k : Nat) (commands : List Command) : Prop :=
  ∀ front, front <+: commands → front.count restore ≤ k + front.count save

variable {k l : Nat} {c : Command} {front commands : List Command}

theorem admissible_nil (k : Nat) : Admissible k [] := by
  intro front hfront
  rw [List.prefix_nil.1 hfront]
  exact Nat.zero_le _

/-- If a command changes the number of open saves from `k` to `l`, then what follows it has to be
admissible for `l`. -/
theorem admissible_cons_iff (h : k + [c].count save = l + [c].count restore) :
    Admissible k (c :: commands) ↔ Admissible l commands := by
  constructor
  · intro hall front hfront
    have hle := hall ([c] ++ front) ((List.prefix_append_right_inj [c]).2 hfront)
    rw [List.count_append, List.count_append] at hle
    omega
  · intro hall front hfront
    rcases List.prefix_cons_iff.1 hfront with rfl | ⟨rest, rfl, hrest⟩
    · exact Nat.zero_le _
    · have hle := hall rest hrest
      rw [← List.singleton_append, List.count_append, List.count_append]
      omega

/-- If the commands in front use up all open saves, then no more of the commands are admissible when
a restore follows. -/
theorem Admissible.prefix_of_restore {longer tail : List Command}
    (hcount : front.count restore = k + front.count save) (h : Admissible k longer)
    (hlonger : longer <+: front ++ restore :: tail) : longer <+: front := by
  -- with the restore the front would undo one save too many
  have hnot : ¬ Admissible k (front ++ [restore]) := by
    intro hfront
    have hle := hfront _ (List.prefix_refl _)
    rw [List.count_append, List.count_append, count_restore_restore_cons, count_save_restore_cons,
      List.count_nil, List.count_nil] at hle
    omega
  have hrestore : front ++ [restore] <+: front ++ restore :: tail := ⟨tail, by simp⟩
  rcases List.prefix_or_prefix_of_prefix hlonger hrestore with hshort | hlong
  · rcases List.prefix_concat_iff.1 hshort with heq | hfront
    · rw [heq] at h
      exact absurd h hnot
    · exact hfront
  · exact absurd (fun first hfirst => h first (hfirst.trans hlong)) hnot

end Command

/-! ### What a recorder keeps -/

namespace Recorder

open Command (Admissible)

variable {r r' : Recorder} {c : Command} {commands : List Command}

/-- A command opens one more save, or undoes one, or leaves the open saves as they are. -/
theorem length_openSaves_of_after? (h : r.after? c = some r') :
    r.openSaves.length + [c].count .save = r'.openSaves.length + [c].count .restore := by
  obtain ⟨rfl, rfl⟩ | ⟨rfl, position, openSaves, hopen, rfl⟩ | ⟨⟨hsave, hrestore⟩, rfl⟩ :=
    after?_cases h
  · rfl
  · rw [hopen]
    rfl
  · rw [List.count_cons_of_ne hsave, List.count_cons_of_ne hrestore]
    rfl

/-- Only a restore is refused, and only while no save is open. -/
theorem eq_restore_of_after?_eq_none (h : r.after? c = none) :
    c = .restore ∧ r.openSaves = [] := by
  cases c with
  | restore =>
      cases hopen : r.openSaves with
      | nil => exact ⟨rfl, rfl⟩
      | cons position openSaves => simp [after?, hopen] at h
  | save => cases h
  | translate v => cases h
  | drawRect rect paint => cases h
  | annotate area key value => cases h

theorem afterAll_cons_eq_ok_iff :
    r.afterAll (c :: commands) = (.ok (), r') ↔
      ∃ next, r.after? c = some next ∧ next.afterAll commands = (.ok (), r') := by
  cases hafter : r.after? c with
  | none => simp [afterAll, hafter]
  | some next => simp [afterAll, hafter]

/-- Commands that are kept stand behind those that were there. -/
theorem toList_commands_of_afterAll (h : r.afterAll commands = (.ok (), r')) :
    r'.commands.toList = r.commands.toList ++ commands := by
  induction commands generalizing r with
  | nil =>
      cases h
      rw [List.append_nil]
  | cons c commands ih =>
      obtain ⟨next, hafter, hrest⟩ := afterAll_cons_eq_ok_iff.1 h
      rw [ih hrest, toList_commands_of_after? hafter, List.append_assoc, List.singleton_append]

/-- Commands that are kept change the number of open saves by their saves and restores. -/
theorem length_openSaves_of_afterAll (h : r.afterAll commands = (.ok (), r')) :
    r.openSaves.length + commands.count .save =
      r'.openSaves.length + commands.count .restore := by
  induction commands generalizing r with
  | nil =>
      cases h
      rfl
  | cons c commands ih =>
      obtain ⟨next, hafter, hrest⟩ := afterAll_cons_eq_ok_iff.1 h
      have hstep := length_openSaves_of_after? hafter
      have hlength := ih hrest
      rw [← List.singleton_append, List.count_append, List.count_append]
      omega

/-- **Commands that are kept are admissible** for the saves that were open before. -/
theorem admissible_of_afterAll (h : r.afterAll commands = (.ok (), r')) :
    Admissible r.openSaves.length commands := by
  induction commands generalizing r with
  | nil => exact Command.admissible_nil _
  | cons c commands ih =>
      obtain ⟨next, hafter, hrest⟩ := afterAll_cons_eq_ok_iff.1 h
      exact (Command.admissible_cons_iff (length_openSaves_of_after? hafter)).2 (ih hrest)

/-- **A recorder keeps all commands, or those before a restore for which no save is open.** -/
theorem afterAll_cases (r : Recorder) (commands : List Command) :
    (∃ r', r.afterAll commands = (.ok (), r')) ∨
      ∃ front tail r', commands = front ++ .restore :: tail ∧ r.afterAll front = (.ok (), r') ∧
        r'.openSaves = [] ∧ r.afterAll commands = (.error .unbalancedRestore, r') := by
  induction commands generalizing r with
  | nil => exact .inl ⟨r, rfl⟩
  | cons c commands ih =>
      cases hafter : r.after? c with
      | none =>
          obtain ⟨rfl, hopen⟩ := eq_restore_of_after?_eq_none hafter
          refine .inr ⟨[], commands, r, rfl, rfl, hopen, ?_⟩
          rw [afterAll, hafter]
      | some next =>
          rw [afterAll_cons hafter]
          rcases ih next with hall | ⟨front, tail, r', rfl, hfront, hopen, herror⟩
          · exact .inl hall
          · exact .inr ⟨c :: front, tail, r', rfl, (afterAll_cons hafter front).trans hfront, hopen,
              herror⟩

end Recorder

/-! ### Playing back -/

/-- The picture that a script leaves on a new recorder. -/
def Script.recorded (bounds : Rect) (steps : List Step) (j j' : Journal) : Picture :=
  ((stateAfter .recording steps (.start bounds) j).finish.run j').1

theorem Script.balanced_recorded (bounds : Rect) (steps : List Step) (j j' : Journal) :
    Command.Balanced (recorded bounds steps j j').commands :=
  (Recorder.consistent_stateAfter bounds steps j).balanced j'

theorem Script.bounds_recorded (bounds : Rect) (steps : List Step) (j j' : Journal) :
    (recorded bounds steps j j').bounds = bounds := by
  have hfinish := (Recorder.consistent_stateAfter bounds steps j).finish_eq j'
  unfold recorded
  rw [hfinish]

namespace Picture

open Command (Admissible Balanced)

/-- A recorder keeps the longest admissible front of the commands, and fails if there are more. -/
theorem exists_front_of_playback (p : Picture) (r : Recorder) (j : Journal) :
    ∃ front rest r' j', p.commands = front ++ rest ∧
      r.afterAll front = (.ok (), r') ∧
      (∀ longer, longer <+: p.commands → Admissible r.openSaves.length longer →
        longer <+: front) ∧
      (rest = [] ∨ ∃ tail, rest = .restore :: tail) ∧
      (p.playback .recording).outcome r j =
        ((if rest = [] then .ok () else .error .unbalancedRestore, r'), j') := by
  obtain ⟨j', hrun⟩ := Recorder.exists_outcome_forM p.commands r j
  rcases r.afterAll_cases p.commands with
    ⟨r', hall⟩ | ⟨front, tail, r', hsplit, hfront, hopen, hall⟩
  · rw [hall] at hrun
    exact ⟨p.commands, [], r', j', (List.append_nil _).symm, hall, fun _ hlonger _ => hlonger,
      .inl rfl, hrun⟩
  · have hlength := Recorder.length_openSaves_of_afterAll hfront
    rw [hopen, List.length_nil, Nat.zero_add] at hlength
    rw [hall] at hrun
    refine ⟨front, .restore :: tail, r', j', hsplit, hfront, ?_, .inr ⟨tail, rfl⟩, hrun⟩
    intro longer hlonger hadmissible
    rw [hsplit] at hlonger
    exact hadmissible.prefix_of_restore hlength.symm hlonger

/-- A recorder keeps a picture with balanced commands. -/
theorem exists_outcome_playback_of_balanced {p : Picture} (h : Balanced p.commands) (r : Recorder)
    (j : Journal) :
    ∃ j', (p.playback .recording).outcome r j = ((.ok (), r.pushAll p.commands), j') := by
  obtain ⟨j', hrun⟩ := Recorder.exists_outcome_forM p.commands r j
  rw [Recorder.afterAll_of_balanced h] at hrun
  exact ⟨j', hrun⟩

/-- The picture of a new recorder that has kept a whole picture is this picture. -/
theorem picture_pushAll_start (p : Picture) :
    ((Recorder.start p.bounds).pushAll p.commands).picture = p := by
  simp [Recorder.picture, Recorder.start]

/-- **Playing back on a recorder copies the longest admissible front** of the commands: what is left
out, if anything, starts with a restore, and then this restore is what fails.  A picture that was
recorded, whatever the steps were, is copied as it is and leaves the open saves where they were; on
a new recorder with the same bounds it comes out again. -/
theorem playback_recording (p : Picture) (r : Recorder) (j : Journal) :
    (∃ front rest r' j', p.commands = front ++ rest ∧
      Admissible (Canvas.recording.openSaves r) front ∧
      (∀ longer, longer <+: p.commands → Admissible (Canvas.recording.openSaves r) longer →
        longer <+: front) ∧
      (rest = [] ∨ ∃ tail, rest = .restore :: tail) ∧
      (p.playback .recording).outcome r j =
        ((if rest = [] then .ok () else .error .unbalancedRestore, r'), j') ∧
      r'.bounds = r.bounds ∧ r'.commands.toList = r.commands.toList ++ front ∧
      Canvas.recording.openSaves r' + front.count .restore =
        Canvas.recording.openSaves r + front.count .save) ∧
    ∀ (bounds : Rect) (steps : List Step) (j₁ j₂ : Journal),
      (∃ r' j', ((Script.recorded bounds steps j₁ j₂).playback .recording).outcome r j =
          ((.ok (), r'), j') ∧
        r'.bounds = r.bounds ∧
        r'.commands.toList = r.commands.toList ++ (Script.recorded bounds steps j₁ j₂).commands ∧
        r'.openSaves = r.openSaves) ∧
      ∃ r' j',
        ((Script.recorded bounds steps j₁ j₂).playback .recording).outcome (.start bounds) j =
          ((.ok (), r'), j') ∧
        (r'.finish.run j').1 = Script.recorded bounds steps j₁ j₂ := by
  constructor
  · obtain ⟨front, rest, r', j', hsplit, hfront, hlongest, hrest, hrun⟩ :=
      p.exists_front_of_playback r j
    have hlength := Recorder.length_openSaves_of_afterAll hfront
    exact ⟨front, rest, r', j', hsplit, Recorder.admissible_of_afterAll hfront, hlongest, hrest,
      hrun, Recorder.Reaches.bounds_eq ⟨_, hfront⟩, Recorder.toList_commands_of_afterAll hfront,
      hlength.symm⟩
  · intro bounds steps j₁ j₂
    have hbalanced := Script.balanced_recorded bounds steps j₁ j₂
    have hpicture := picture_pushAll_start (Script.recorded bounds steps j₁ j₂)
    rw [Script.bounds_recorded] at hpicture
    obtain ⟨j', hrun⟩ := exists_outcome_playback_of_balanced hbalanced r j
    obtain ⟨j'', hnew⟩ := exists_outcome_playback_of_balanced hbalanced (.start bounds) j
    refine ⟨⟨_, j', hrun, rfl, Recorder.toList_commands_pushAll _ r, rfl⟩, _, j'', hnew, ?_⟩
    rw [Recorder.fst_finish]
    exact hpicture

/-- A picture with restores that lack their saves, on a recorder with one open save: the first of
them undoes this save, and the second one is refused. -/
theorem playback_recording_unmatched :
    ∃ r' j', (Picture.playback ⟨⟨0, 0, 9, 9⟩, [.restore, .save, .restore, .restore, .save]⟩
        .recording).outcome ⟨⟨0, 0, 9, 9⟩, #[.save], [0]⟩ #[] =
          ((.error .unbalancedRestore, r'), j') ∧
      r'.commands.toList = [.save, .restore, .save, .restore] ∧ r'.openSaves.length = 0 := by
  obtain ⟨⟨front, rest, r', j', hsplit, hadmissible, hlongest, -, hrun, -, hcommands, hlength⟩,
      -⟩ :=
    playback_recording ⟨⟨0, 0, 9, 9⟩, [.restore, .save, .restore, .restore, .save]⟩
      ⟨⟨0, 0, 9, 9⟩, #[.save], [0]⟩ #[]
  -- three commands are kept by this recorder, and a fourth one would be a restore too many
  have hkept : [.restore, .save, .restore] <+: front := by
    refine hlongest _ ⟨[.restore, .save], rfl⟩ ?_
    exact Recorder.admissible_of_afterAll (r := ⟨⟨0, 0, 9, 9⟩, #[.save], [0]⟩) rfl
  obtain ⟨more, rfl⟩ := hkept
  cases more with
  | nil =>
      cases hsplit
      exact ⟨r', j', hrun, hcommands, by simpa [Canvas.recording] using hlength⟩
  | cons c more =>
      obtain ⟨rfl, -⟩ : Command.restore = c ∧ _ := List.cons.inj (by simpa using hsplit)
      have hle := hadmissible [.restore, .save, .restore, .restore] ⟨more, by simp⟩
      exact absurd hle (by decide)

end Picture

end PictureTape

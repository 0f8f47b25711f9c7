/-
**The open saves of a recording.**

However a recorder is drawn on, and also if it refuses some of the restores on the way, its commands
are a list of brackets in which no restore lacks its save, and the positions that it remembers are
those of the saves that are not matched.

Main definitions:

* `Recorder.Reaches` — a recording that comes from another one by commands that were kept;
* `Script.stateAfter` — the state that a script leaves;
* `Recorder.Consistent` — the commands, the remembered positions and the end of a recording fit
  together.

Main results:

* `Recorder.nested_of_after?` — one more command keeps the positions right;
* `Step.reaches` — whatever is drawn on a recorder, some commands are kept and that is all;
* `Recorder.consistent_stateAfter` — **a recording is consistent after every script.**
-/

import PictureTape.Proofs.Brackets
import PictureTape.Proofs.Recording
import PictureTape.Script

set_option autoImplicit false
set_option relaxedAutoImplicit false

namespace PictureTape

open Command (Nested Balanced Matched)

/-! ### Commands that were kept -/

namespace Recorder

variable {r r' r'' : Recorder}

/-- What is recorded when one more command is kept. -/
theorem after?_cases {c : Command} (h : r.after? c = some r') :
    (c = .save ∧ r' = { r.push .save with openSaves := r.commands.size :: r.openSaves }) ∨
    (c = .restore ∧ ∃ position openSaves, r.openSaves = position :: openSaves ∧
      r' = { r.push .restore with openSaves }) ∨
    ((c ≠ .save ∧ c ≠ .restore) ∧ r' = r.push c) := by
  by_cases hsave : c = .save
  · subst hsave
    exact .inl ⟨rfl, (Option.some.inj h).symm⟩
  by_cases hrestore : c = .restore
  · subst hrestore
    simp only [after?] at h
    split at h
    · cases h
    · next position openSaves hopen =>
      exact .inr (.inl ⟨rfl, position, openSaves, hopen, (Option.some.inj h).symm⟩)
  · rw [after?_of_ne hsave hrestore] at h
    exact .inr (.inr ⟨⟨hsave, hrestore⟩, (Option.some.inj h).symm⟩)

theorem bounds_of_after? {c : Command} (h : r.after? c = some r') : r'.bounds = r.bounds := by
  obtain ⟨-, rfl⟩ | ⟨-, _, _, -, rfl⟩ | ⟨-, rfl⟩ := after?_cases h
  · rfl
  · rfl
  · rfl

theorem toList_commands_of_after? {c : Command} (h : r.after? c = some r') :
    r'.commands.toList = r.commands.toList ++ [c] := by
  obtain ⟨rfl, rfl⟩ | ⟨rfl, _, _, -, rfl⟩ | ⟨-, rfl⟩ := after?_cases h
  · exact toList_commands_push .save r
  · exact toList_commands_push .restore r
  · exact toList_commands_push c r

/-- One more command keeps the remembered positions right. -/
theorem nested_of_after? {c : Command} (h : r.after? c = some r')
    (hr : Nested r.commands.toList r.openSaves) : Nested r'.commands.toList r'.openSaves := by
  rw [toList_commands_of_after? h]
  obtain ⟨rfl, rfl⟩ | ⟨rfl, position, openSaves, hopen, rfl⟩ | ⟨⟨hsave, hrestore⟩, rfl⟩ :=
    after?_cases h
  · exact hr.append_save
  · rw [hopen] at hr
    exact hr.append_restore
  · exact hr.append_balanced (.plain hsave hrestore .nil)

/-- The second recording comes from the first one by commands that were kept. -/
def Reaches (r r' : Recorder) : Prop := ∃ kept, r.afterAll kept = (.ok (), r')

namespace Reaches

theorem refl (r : Recorder) : r.Reaches r := ⟨[], rfl⟩

theorem trans (h : r.Reaches r') (h' : r'.Reaches r'') : r.Reaches r'' := by
  obtain ⟨kept, hkept⟩ := h
  obtain ⟨kept', hkept'⟩ := h'
  exact ⟨kept ++ kept', (afterAll_append hkept kept').trans hkept'⟩

theorem of_after? {c : Command} (h : r.after? c = some r') : r.Reaches r' :=
  ⟨[c], afterAll_cons h []⟩

/-- What every command that is kept preserves is preserved. -/
theorem induction {P : Recorder → Prop} (h : r.Reaches r') (hr : P r)
    (hstep : ∀ {r r' c}, after? r c = some r' → P r → P r') : P r' := by
  obtain ⟨kept, hkept⟩ := h
  induction kept generalizing r with
  | nil =>
      cases hkept
      exact hr
  | cons c kept ih =>
      cases hafter : r.after? c with
      | none =>
          rw [afterAll, hafter] at hkept
          cases hkept
      | some next =>
          rw [afterAll_cons hafter] at hkept
          exact ih (hstep hafter hr) hkept

theorem bounds_eq (h : r.Reaches r') : r'.bounds = r.bounds :=
  h.induction (P := fun r' => r'.bounds = r.bounds) rfl
    fun hafter hr => (bounds_of_after? hafter).trans hr

/-- The commands only grow at the end. -/
theorem prefix_commands (h : r.Reaches r') : r.commands.toList <+: r'.commands.toList := by
  refine h.induction (P := fun r' => r.commands.toList <+: r'.commands.toList)
    (List.prefix_refl _) fun hafter hr => ?_
  rw [toList_commands_of_after? hafter]
  exact hr.trans (List.prefix_append _ _)

/-- The remembered positions stay right. -/
theorem nested (h : r.Reaches r') (hr : Nested r.commands.toList r.openSaves) :
    Nested r'.commands.toList r'.openSaves :=
  h.induction hr nested_of_after?

end Reaches

/-- Also if a command is refused, those before it were kept. -/
theorem reaches_afterAll (r : Recorder) (commands : List Command) :
    r.Reaches (r.afterAll commands).2 := by
  induction commands generalizing r with
  | nil => exact .refl r
  | cons c commands ih =>
      cases hafter : r.after? c with
      | none =>
          rw [afterAll, hafter]
          exact .refl r
      | some next =>
          rw [afterAll_cons hafter]
          exact (Reaches.of_after? hafter).trans (ih next)

theorem reaches_outcome_forM (commands : List Command) (r : Recorder) (j : Journal) :
    r.Reaches (Action.outcome (forM commands (Command.perform .recording)) r j).1.2 := by
  obtain ⟨j', hrun⟩ := exists_outcome_forM commands r j
  rw [hrun]
  exact r.reaches_afterAll commands

end Recorder

/-! ### Scripts -/

/-- Loading a picture leaves the surface as it was. -/
theorem Picture.exists_outcome_load {σ : Type} (bytes : Bytes) (s : σ) (j : Journal) :
    ∃ j', (Picture.load bytes : Action σ Picture).outcome s j =
      ((Picture.decode bytes, s), j') := by
  unfold Picture.load Picture.decode
  cases Contents.decode bytes with
  | error e => exact ⟨j, rfl⟩
  | ok contents =>
      cases hevent : contents.event? with
      | none =>
          refine ⟨j, ?_⟩
          simp only [Action.ofExcept, hevent, pure_bind]
          rfl
      | some event =>
          refine ⟨j.push event, ?_⟩
          simp only [Action.ofExcept, hevent, pure_bind]
          rfl

/-- Whatever is drawn on a recorder, some commands are kept and that is all. -/
theorem Step.reaches (step : Step) (r : Recorder) (j : Journal) :
    r.Reaches ((step.perform .recording).outcome r j).1.2 := by
  have hcommand : ∀ c : Command, r.Reaches ((c.perform .recording).outcome r j).1.2 := by
    intro c
    have hrun := Recorder.reaches_outcome_forM [c] r j
    rwa [List.forM_cons, List.forM_nil, bind_pure_unit] at hrun
  cases step with
  | save => exact hcommand .save
  | restore => exact hcommand .restore
  | translate dx dy => exact hcommand (.translate ⟨dx, dy⟩)
  | translateBy v => exact hcommand (.translate v)
  | drawRect rect paint => exact hcommand (.drawRect rect paint)
  | drawRects rects paint =>
      have hrun := Recorder.reaches_outcome_forM (rects.map (.drawRect · paint)) r j
      rwa [List.forM_map] at hrun
  | annotate area key value => exact hcommand (.annotate area key value)
  | boxes =>
      have hrun := Recorder.reaches_outcome_forM (Boxes.root.commands Boxes.paint) r j
      rwa [← Panel.draw_eq_forM] at hrun
  | panel tree paint =>
      have hrun := Recorder.reaches_outcome_forM (tree.commands paint) r j
      rwa [← Panel.draw_eq_forM] at hrun
  | play bytes =>
      obtain ⟨j', hload⟩ := Picture.exists_outcome_load bytes r j
      unfold Step.perform
      cases hdecode : Picture.decode bytes with
      | error e =>
          rw [hdecode] at hload
          rw [Action.outcome_bind_of_error hload]
          exact .refl r
      | ok picture =>
          rw [hdecode] at hload
          rw [Action.outcome_bind_of_ok hload]
          exact Recorder.reaches_outcome_forM picture.commands r j'

namespace Script

variable {σ : Type}

/-- The state that a script leaves. -/
def stateAfter (canvas : Canvas σ) (steps : List Step) (s : σ) (j : Journal) : σ :=
  (((run canvas steps).run s).run j).1.2

theorem exists_stateAfter_cons (canvas : Canvas σ) (step : Step) (steps : List Step) (s : σ)
    (j : Journal) : ∃ j', stateAfter canvas (step :: steps) s j =
      stateAfter canvas steps ((step.perform canvas).outcome s j).1.2 j' := by
  unfold stateAfter run
  rw [List.mapM_cons]
  exact ⟨_, rfl⟩

/-- A script leaves a recording that has kept some commands more. -/
theorem reaches_stateAfter (steps : List Step) (r : Recorder) (j : Journal) :
    r.Reaches (stateAfter .recording steps r j) := by
  induction steps generalizing r j with
  | nil => exact .refl r
  | cons step steps ih =>
      obtain ⟨j', hcons⟩ := exists_stateAfter_cons .recording step steps r j
      rw [hcons]
      exact (step.reaches r j).trans (ih _ j')

end Script

/-! ### Consistent recordings -/

namespace Recorder

variable {r : Recorder}

/-- Every command but a restore is kept behind the others, and a save opens one more. -/
theorem exists_outcome_perform (r : Recorder) {c : Command} (h : c ≠ .restore) (j : Journal) :
    ∃ r', (c.perform .recording).outcome r j = ((.ok (), r'), j.push (.recorded c)) ∧
      r'.commands.toList = r.commands.toList ++ [c] ∧
      r'.openSaves.length = r.openSaves.length + [c].count .save := by
  have hstep := c.outcome_perform_recording r j
  cases c with
  | restore => exact absurd rfl h
  | save => exact ⟨_, hstep, toList_commands_push .save r, rfl⟩
  | translate v => exact ⟨_, hstep, toList_commands_push (.translate v) r, rfl⟩
  | drawRect rect paint => exact ⟨_, hstep, toList_commands_push (.drawRect rect paint) r, rfl⟩
  | annotate area key value =>
      exact ⟨_, hstep, toList_commands_push (.annotate area key value) r, rfl⟩

/-- A restore is refused while no save is open. -/
theorem outcome_restore_of_nil (h : r.openSaves = []) (j : Journal) :
    Canvas.recording.restore.outcome r j = ((.error .unbalancedRestore, r), j) := by
  have hstep := Command.outcome_perform_recording .restore r j
  simp only [after?, events, h] at hstep
  exact hstep

/-- A restore undoes the innermost open save and puts its position down. -/
theorem outcome_restore_of_cons {position : Nat} {openSaves : List Nat}
    (h : r.openSaves = position :: openSaves) (j : Journal) :
    Canvas.recording.restore.outcome r j =
      ((.ok (), { r.push .restore with openSaves }),
        (j.push (.restoring position)).push (.recorded .restore)) := by
  have hstep := Command.outcome_perform_recording .restore r j
  simp only [after?, events, h] at hstep
  exact hstep

/-- Up to as many restores as there are open saves succeed, and the picture stays the same. -/
theorem exists_afterAll_replicate {n : Nat} (h : n ≤ r.openSaves.length) :
    ∃ r', r.afterAll (List.replicate n .restore) = (.ok (), r') ∧
      r'.openSaves.length = r.openSaves.length - n ∧ r'.picture = r.picture := by
  induction n generalizing r with
  | zero => exact ⟨r, rfl, rfl, rfl⟩
  | succ n ih =>
      cases hopen : r.openSaves with
      | nil =>
          rw [hopen] at h
          cases h
      | cons position openSaves =>
          rw [hopen, List.length_cons] at h
          let restored : Recorder := { r.push .restore with openSaves }
          have hafter : r.after? .restore = some restored := by simp only [after?, hopen, restored]
          have hpicture : restored.picture = r.picture := by
            simp [picture, restored, hopen, push, List.replicate_succ]
          obtain ⟨r', hrun, hlength, hsame⟩ := ih (r := restored) (Nat.le_of_succ_le_succ h)
          refine ⟨r', ?_, ?_, hsame.trans hpicture⟩
          · rw [List.replicate_succ, afterAll_cons hafter, hrun]
          · rw [hlength, List.length_cons, Nat.add_sub_add_right]

theorem fst_finish (r : Recorder) (j : Journal) : (r.finish.run j).1 = r.picture := by
  unfold finish
  split
  · rfl
  · rfl

/-- The commands, the remembered positions and the end of a recording fit together. -/
structure Consistent (bounds : Rect) (r : Recorder) : Prop where
  bounds_eq : r.bounds = bounds
  /-- Every command but a restore is kept behind the others, and a save opens one more. -/
  perform_of_ne {c : Command} (h : c ≠ .restore) (j : Journal) :
    ∃ r', (c.perform .recording).outcome r j = ((.ok (), r'), j.push (.recorded c)) ∧
      r'.commands.toList = r.commands.toList ++ [c] ∧
      Canvas.recording.openSaves r' = Canvas.recording.openSaves r + [c].count .save
  /-- Whatever is drawn next, the commands only grow at the end. -/
  prefix_stateAfter (steps : List Step) (j : Journal) :
    r.commands.toList <+: (Script.stateAfter .recording steps r j).commands.toList
  count_le_of_prefix {front : List Command} (h : front <+: r.commands.toList) :
    front.count .restore ≤ front.count .save
  openSaves_eq : Canvas.recording.openSaves r =
    r.commands.toList.count .save - r.commands.toList.count .restore
  pairwise_reverse : r.openSaves.reverse.Pairwise (· < ·)
  mem_openSaves_iff {i : Nat} : i ∈ r.openSaves ↔
    r.commands.toList[i]? = some .save ∧ ∀ k, ¬ Matched r.commands.toList i k
  /-- A restore is refused if no save is open, and the recording stays as it was. -/
  restore_of_openSaves_eq (h : Canvas.recording.openSaves r = 0) (j : Journal) :
    Canvas.recording.restore.outcome r j = ((.error .unbalancedRestore, r), j)
  /-- Otherwise the position that is remembered last is put down and forgotten; it is that of the
  save that the new restore matches. -/
  restore_of_openSaves_ne (h : Canvas.recording.openSaves r ≠ 0) (j : Journal) :
    ∃ position openSaves, r.openSaves = position :: openSaves ∧
      Canvas.recording.restore.outcome r j =
        ((.ok (), { r.push .restore with openSaves }),
          (j.push (.restoring position)).push (.recorded .restore)) ∧
      ∀ i, Matched (r.push .restore).commands.toList i r.commands.size ↔ i = position
  /-- The picture has the commands, and a restore for each open save. -/
  finish_eq (j : Journal) : (r.finish.run j).1 =
    ⟨bounds, r.commands.toList ++ List.replicate (Canvas.recording.openSaves r) .restore⟩
  balanced (j : Journal) : Balanced (r.finish.run j).1.commands
  /-- It makes no difference to undo open saves before the end, one after the other: every restore
  succeeds until no save is open, and the picture is the same. -/
  finish_restored {n : Nat} (h : n ≤ Canvas.recording.openSaves r) (j : Journal) :
    ∃ r' j', Action.outcome (forM (List.replicate n .restore) (Command.perform .recording)) r j =
        ((.ok (), r'), j') ∧
      Canvas.recording.openSaves r' = Canvas.recording.openSaves r - n ∧
      (r'.finish.run j').1 = (r.finish.run j).1

/-- A recording is consistent if its commands are nested as it remembers. -/
theorem consistent_of_nested (h : Nested r.commands.toList r.openSaves) :
    Consistent r.bounds r where
  bounds_eq := rfl
  perform_of_ne hne j := r.exists_outcome_perform hne j
  prefix_stateAfter steps j := (Script.reaches_stateAfter steps r j).prefix_commands
  count_le_of_prefix hfront := h.count_le_of_prefix hfront
  openSaves_eq := by
    have hlength := h.length_add_count
    change r.openSaves.length = _
    omega
  pairwise_reverse := List.pairwise_reverse.2 h.pairwise
  mem_openSaves_iff := h.mem_iff
  restore_of_openSaves_eq hzero j := outcome_restore_of_nil (List.eq_nil_of_length_eq_zero hzero) j
  restore_of_openSaves_ne hne j := by
    cases hopen : r.openSaves with
    | nil => exact absurd (congrArg List.length hopen) hne
    | cons position openSaves =>
        refine ⟨position, openSaves, rfl, outcome_restore_of_cons hopen j, fun i => ?_⟩
        rw [hopen] at h
        rw [toList_commands_push, ← Array.length_toList]
        exact h.matched_append_restore_iff
  finish_eq j := fst_finish r j
  balanced j := by
    rw [fst_finish]
    exact h.balanced_append_replicate
  finish_restored hle j := by
    obtain ⟨r', hrun, hlength, hpicture⟩ := exists_afterAll_replicate hle
    obtain ⟨j', houtcome⟩ := exists_outcome_forM (List.replicate _ .restore) r j
    rw [hrun] at houtcome
    exact ⟨r', j', houtcome, hlength, by rw [fst_finish, fst_finish, hpicture]⟩

/-- **A recording is consistent after every script:** whatever is drawn on a new recorder, and
whichever of the steps fail. -/
theorem consistent_stateAfter (bounds : Rect) (steps : List Step) (j : Journal) :
    Consistent bounds (Script.stateAfter .recording steps (start bounds) j) := by
  have hreaches := Script.reaches_stateAfter steps (start bounds) j
  have hnested := hreaches.nested (.balanced .nil)
  have hconsistent := consistent_of_nested hnested
  rwa [hreaches.bounds_eq] at hconsistent

end Recorder

end PictureTape

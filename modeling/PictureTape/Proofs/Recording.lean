/-
**Recording commands.**

A recorder keeps every command it is given, unless it is asked for a restore while no save is open.
Balanced commands are all kept, and they leave the open saves as they were.

Main definitions:

* `Action.outcome` — how an action ends, and the state and the journal that it leaves;
* `Recorder.after?` — the recording with one more command, unless the command is refused;
* `Recorder.events` — the entries that recording a command leaves in the journal;
* `Recorder.afterAll` — how recording several commands ends;
* `Recorder.pushAll` — the recording with more commands, and the same open saves.

Main results:

* `Command.outcome_perform_recording` — **what a recorder does with a command;**
* `Recorder.exists_outcome_forM` — **what it does with several commands;**
* `Recorder.afterAll_of_balanced` — balanced commands are kept, and none of their saves stays open;
* `Recorder.exists_outcome_capture_of_balanced` — **the picture of balanced commands has these
  commands and no more.**
-/

import PictureTape.Proofs.Flattening
import PictureTape.Recorder

set_option autoImplicit false
set_option relaxedAutoImplicit false

namespace PictureTape

/-! ### The outcome of an action -/

namespace Action

variable {σ α β : Type}

/-- How an action ends, and the state and the journal that it leaves. -/
def outcome (act : Action σ α) (s : σ) (j : Journal) : (Except PictureError α × σ) × Journal :=
  (act.run.run s).run j

/-- Actions that end in the same way from every state are the same. -/
theorem ext_outcome {act act' : Action σ α}
    (h : ∀ s j, act.outcome s j = act'.outcome s j) : act = act' :=
  funext fun s => funext fun j => h s j

/-- An action that only writes into the journal. -/
theorem outcome_liftM (act : Logged α) (s : σ) (j : Journal) :
    outcome (liftM act : Action σ α) s j = ((.ok (act.run j).1, s), (act.run j).2) := rfl

theorem outcome_bind_of_ok {first : Action σ α} {next : α → Action σ β} {s s' : σ} {j j' : Journal}
    {a : α} (h : first.outcome s j = ((.ok a, s'), j')) :
    outcome (first >>= next) s j = (next a).outcome s' j' := by
  unfold outcome at *
  rw [ExceptT.run_bind, StateT.run_bind, StateT.run_bind, h]
  rfl

theorem outcome_bind_of_error {first : Action σ α} {next : α → Action σ β} {s s' : σ}
    {j j' : Journal} {e : PictureError} (h : first.outcome s j = ((.error e, s'), j')) :
    outcome (first >>= next) s j = ((.error e, s'), j') := by
  unfold outcome at *
  rw [ExceptT.run_bind, StateT.run_bind, StateT.run_bind, h]
  rfl

end Action

/-! ### One more command -/

namespace Recorder

/-- The recording with one more command; a restore is refused while no save is open. -/
def after? (r : Recorder) : Command → Option Recorder
  | .save => some { r.push .save with openSaves := r.commands.size :: r.openSaves }
  | .restore =>
    match r.openSaves with
    | [] => none
    | _ :: openSaves => some { r.push .restore with openSaves }
  | c => some (r.push c)

/-- The entries that recording one more command leaves in the journal. -/
def events (r : Recorder) : Command → List Event
  | .restore =>
    match r.openSaves with
    | [] => []
    | position :: _ => [.restoring position, .recorded .restore]
  | c => [.recorded c]

theorem after?_of_ne {r : Recorder} {c : Command} (hsave : c ≠ .save) (hrestore : c ≠ .restore) :
    r.after? c = some (r.push c) := by
  cases c with
  | save => exact absurd rfl hsave
  | restore => exact absurd rfl hrestore
  | translate v => rfl
  | drawRect rect paint => rfl
  | annotate area key value => rfl

end Recorder

/-- **What a recorder does with a command:** it keeps it, or refuses it and stays as it was. -/
theorem Command.outcome_perform_recording (c : Command) (r : Recorder) (j : Journal) :
    (c.perform .recording).outcome r j =
      (match r.after? c with
        | some r' => (.ok (), r')
        | none => (.error .unbalancedRestore, r), (r.events c).foldl Array.push j) := by
  cases c with
  | restore =>
      obtain ⟨bounds, commands, openSaves⟩ := r
      cases openSaves with
      | nil => rfl
      | cons position openSaves => rfl
  | save => rfl
  | translate v => rfl
  | drawRect rect paint => rfl
  | annotate area key value => rfl

/-! ### Several commands -/

namespace Recorder

/-- How recording the commands ends: with all of them, or at the first that is refused. -/
def afterAll (r : Recorder) : List Command → Except PictureError Unit × Recorder
  | [] => (.ok (), r)
  | c :: cs =>
    match r.after? c with
    | some r' => r'.afterAll cs
    | none => (.error .unbalancedRestore, r)

theorem afterAll_cons {r r' : Recorder} {c : Command} (h : r.after? c = some r')
    (cs : List Command) : r.afterAll (c :: cs) = r'.afterAll cs := by
  rw [afterAll, h]

theorem afterAll_append {r r' : Recorder} {commands : List Command}
    (h : r.afterAll commands = (.ok (), r')) (others : List Command) :
    r.afterAll (commands ++ others) = r'.afterAll others := by
  induction commands generalizing r with
  | nil =>
      cases h
      rfl
  | cons c commands ih =>
      cases hafter : r.after? c with
      | none =>
          rw [afterAll, hafter] at h
          cases h
      | some next =>
          rw [afterAll_cons hafter] at h
          rw [List.cons_append, afterAll_cons hafter]
          exact ih h

/-- **What a recorder does with several commands:** it records them one by one, and stops at the
first that it refuses. -/
theorem exists_outcome_forM (commands : List Command) (r : Recorder) (j : Journal) :
    ∃ j', Action.outcome (forM commands (Command.perform .recording)) r j =
      (r.afterAll commands, j') := by
  induction commands generalizing r j with
  | nil => exact ⟨j, rfl⟩
  | cons c commands ih =>
      have hstep := c.outcome_perform_recording r j
      rw [List.forM_cons, afterAll]
      cases hafter : r.after? c with
      | none =>
          rw [hafter] at hstep
          exact ⟨_, Action.outcome_bind_of_error hstep⟩
      | some next =>
          rw [hafter] at hstep
          rw [Action.outcome_bind_of_ok hstep]
          exact ih next _

/-! ### Balanced commands -/

/-- Recordings with the same commands and the same open saves are equal. -/
theorem eq_of_toList_commands {r r' : Recorder} (hbounds : r.bounds = r'.bounds)
    (hcommands : r.commands.toList = r'.commands.toList) (hsaves : r.openSaves = r'.openSaves) :
    r = r' := by
  cases r
  cases r'
  rw [mk.injEq]
  exact ⟨hbounds, Array.toList_inj.1 hcommands, hsaves⟩

/-- The recording with more commands, and the same open saves. -/
def pushAll (commands : List Command) (r : Recorder) : Recorder :=
  { r with commands := r.commands ++ commands.toArray }

@[simp] theorem bounds_pushAll (commands : List Command) (r : Recorder) :
    (r.pushAll commands).bounds = r.bounds := rfl

@[simp] theorem openSaves_pushAll (commands : List Command) (r : Recorder) :
    (r.pushAll commands).openSaves = r.openSaves := rfl

@[simp] theorem toList_commands_pushAll (commands : List Command) (r : Recorder) :
    (r.pushAll commands).commands.toList = r.commands.toList ++ commands := by
  simp [pushAll]

/-- **Balanced commands are all kept,** and they leave the open saves as they were. -/
theorem afterAll_of_balanced {commands : List Command} (h : Command.Balanced commands)
    (r : Recorder) : r.afterAll commands = (.ok (), r.pushAll commands) := by
  induction h generalizing r with
  | nil =>
      have hsame : r.pushAll [] = r := eq_of_toList_commands rfl (by simp) rfl
      rw [hsame]
      rfl
  | @plain c commands hsave hrestore _ ih =>
      have hnext : (r.push c).pushAll commands = r.pushAll (c :: commands) :=
        eq_of_toList_commands rfl (by simp) rfl
      rw [afterAll_cons (after?_of_ne hsave hrestore), ih, hnext]
  | @bracket inside commands _ _ ihinside ih =>
      -- the save is the innermost open one again when its restore comes
      let saved : Recorder := { r.push .save with openSaves := r.commands.size :: r.openSaves }
      let restored : Recorder := { (saved.pushAll inside).push .restore with openSaves := r.openSaves }
      have hsave : r.after? .save = some saved := rfl
      have hrestore : (saved.pushAll inside).after? .restore = some restored := rfl
      have hnext : restored.pushAll commands =
          r.pushAll (.save :: (inside ++ .restore :: commands)) :=
        eq_of_toList_commands rfl (by simp [restored, saved, push, pushAll]) rfl
      rw [afterAll_cons hsave, afterAll_append (ihinside saved), afterAll_cons hrestore, ih, hnext]

/-! ### Captured pictures -/

/-- A recording ends with its picture, whatever is put down in the journal. -/
theorem exists_outcome_finish {σ : Type} (r : Recorder) (s : σ) (j : Journal) :
    ∃ j', Action.outcome (liftM r.finish : Action σ Picture) s j = ((.ok r.picture, s), j') := by
  rw [Action.outcome_liftM]
  unfold finish
  split
  · exact ⟨_, rfl⟩
  · exact ⟨_, rfl⟩

/-- What an action draws on a new recorder is what is captured. -/
theorem exists_outcome_capture {σ : Type} {act : Action Recorder Unit} {bounds : Rect}
    {r : Recorder} {j j' : Journal}
    (h : act.outcome (start bounds) (j.push (.began bounds)) = ((.ok (), r), j')) (s : σ) :
    ∃ j'', (capture bounds act).outcome s j = ((.ok r.picture, s), j'') := by
  have hbegin : Action.outcome (liftM (begin bounds) : Action σ Recorder) s j =
      ((.ok (start bounds), s), j.push (.began bounds)) := rfl
  have hact : Action.outcome (liftM (act.run.run (start bounds)) : Action σ _) s _ = _ :=
    Action.outcome_liftM _ s (j.push (.began bounds))
  unfold Action.outcome at h
  rw [h] at hact
  obtain ⟨j'', hfinish⟩ := exists_outcome_finish r s j'
  refine ⟨j'', ?_⟩
  unfold capture
  rw [Action.outcome_bind_of_ok hbegin, Action.outcome_bind_of_ok hact]
  exact hfinish

/-- **The picture of balanced commands** has these commands and no more. -/
theorem exists_outcome_capture_of_balanced {commands : List Command}
    (h : Command.Balanced commands) {σ : Type} (bounds : Rect) (s : σ) (j : Journal) :
    ∃ j', (capture bounds (forM commands (Command.perform .recording))).outcome s j =
      ((.ok ⟨bounds, commands⟩, s), j') := by
  have hpicture : ((start bounds).pushAll commands).picture = ⟨bounds, commands⟩ := by
    simp [picture, start]
  obtain ⟨j', hrun⟩ := exists_outcome_forM commands (start bounds) (j.push (.began bounds))
  rw [afterAll_of_balanced h] at hrun
  rw [← hpicture]
  exact exists_outcome_capture hrun s

end Recorder

end PictureTape

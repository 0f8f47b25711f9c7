/-
**The first failure.**

Whatever is drawn, the calls are made one after the other, and the first of them that fails is the
last one.  This can be seen by making a call fail on purpose: the calls before it are made as they
would have been without it, and none is made after it, neither one that would undo a save nor one
that would close a marker.

Main definitions:

* `Canvas.listingCalls` — the surface that also lists the calls it gets;
* `Canvas.failingAtCall` — the surface whose call with the given number fails;
* `Canvas.calls` — the calls that carrying out commands comes to;
* `PictureTape.StopsAtFirstFailure` — drawing that stops at the first call that fails.

Main results:

* `Canvas.outcome_forM_listingCalls` — **the calls that are listed** are those up to the first that
  fails;
* `Canvas.exists_outcome_forM_failingAtCall` — **a call that fails on purpose ends the drawing,**
  and leaves what the calls before it made;
* `stopsAtFirstFailure` — **playing back, drawing a panel and drawing rectangles stop at the first
  failure;** the calls are the primitive ones if shifts by an offset are made of these.
-/

import PictureTape.Canvas.Failing
import PictureTape.Canvas.Trace
import PictureTape.Proofs.Replay

set_option autoImplicit false
set_option relaxedAutoImplicit false

namespace PictureTape

/-! ### Surfaces that list their calls and surfaces that fail -/

namespace Canvas

variable {σ : Type}

/-- The surface that also lists the calls it gets.  A shift by an offset is one call, also on a
surface that has its own way of shifting by an offset. -/
def listingCalls (canvas : Canvas σ) : Canvas (Watched σ) :=
  { canvas.watched with
    translateBy := fun v => Watched.call (.translate v) (canvas.translateBy v) }

/-- The surface whose call with the number `failing` fails; calls are counted from zero, and a shift
by an offset is one call. -/
def failingAtCall (canvas : Canvas σ) (failing : Option Nat) (error : Nat → PictureError) :
    Canvas (Counted σ) :=
  { canvas.failingAt failing error with
    translateBy := fun v => Counted.call failing error (canvas.translateBy v) }

/-- If shifts by an offset are made of the primitive ones, then the calls that are listed are the
primitive ones. -/
theorem listingCalls_borrowed (canvas : Canvas σ) :
    canvas.borrowed.listingCalls = canvas.watched := rfl

/-- So is then the call that fails. -/
theorem failingAtCall_borrowed (canvas : Canvas σ) (failing : Option Nat)
    (error : Nat → PictureError) :
    canvas.borrowed.failingAtCall failing error = canvas.failingAt failing error := rfl

end Canvas

/-! ### One call -/

section

variable {σ τ α : Type} {act : Action σ α} {s s' : σ} {j j' : Journal}
  {result : Except PictureError α}

/-- An action on a part changes this part only. -/
theorem Action.outcome_onPart {part : τ → σ} {putBack : σ → τ → τ} {t : τ}
    (h : act.outcome (part t) j = ((result, s'), j')) :
    (act.onPart part putBack).outcome t j = ((result, putBack s' t), j') := by
  have hpart : (act.onPart part putBack).outcome t j =
      (((act.outcome (part t) j).1.1, putBack (act.outcome (part t) j).1.2 t),
        (act.outcome (part t) j).2) := rfl
  rw [hpart, h]

/-- A call that is listed. -/
theorem Watched.outcome_call {act : Action σ Unit} {result : Except PictureError Unit} (c : Command)
    (before : List Command) (h : act.outcome s j = ((result, s'), j')) :
    (Watched.call c act).outcome ⟨before, s⟩ j = ((result, ⟨before ++ [c], s'⟩), j') := by
  have hcall : (Watched.call c act).outcome ⟨before, s⟩ j =
      (act.onPart Watched.inner fun changed whole => { whole with inner := changed }).outcome
        ⟨before ++ [c], s⟩ j := rfl
  rw [hcall]
  exact Action.outcome_onPart h

/-- A call that is counted and is not the one that fails. -/
theorem Counted.outcome_call_of_ne {number n : Nat} (error : Nat → PictureError) (hne : number ≠ n)
    (h : act.outcome s j = ((result, s'), j')) :
    (Counted.call (some number) error act).outcome ⟨n, s⟩ j = ((result, ⟨n + 1, s'⟩), j') := by
  have hcall : (Counted.call (some number) error act).outcome ⟨n, s⟩ j =
      (if some number = some n then throw (error n) else Counted.lift act).outcome
        ⟨n + 1, s⟩ j := rfl
  rw [hcall, if_neg (Option.some.injEq number n ▸ hne)]
  exact Action.outcome_onPart h

/-- The call that fails has no effect. -/
theorem Counted.outcome_call_self (error : Nat → PictureError) (act : Action σ α) (n : Nat) (s : σ)
    (j : Journal) :
    (Counted.call (some n) error act).outcome ⟨n, s⟩ j =
      ((.error (error n), ⟨n + 1, s⟩), j) := by
  have hcall : (Counted.call (some n) error act).outcome ⟨n, s⟩ j =
      (if some n = some n then throw (error n) else Counted.lift act).outcome ⟨n + 1, s⟩ j := rfl
  rw [hcall, if_pos rfl]
  rfl

end

namespace Command

variable {σ : Type} {canvas : Canvas σ} {s s' : σ} {j j' : Journal}
  {result : Except PictureError Unit}

/-- What is listed of a command is the command. -/
theorem outcome_perform_listingCalls (c : Command) (before : List Command)
    (h : (c.perform canvas).outcome s j = ((result, s'), j')) :
    (c.perform canvas.listingCalls).outcome ⟨before, s⟩ j =
      ((result, ⟨before ++ [c], s'⟩), j') := by
  cases c with
  | save => exact Watched.outcome_call .save before h
  | restore => exact Watched.outcome_call .restore before h
  | translate v => exact Watched.outcome_call (.translate v) before h
  | drawRect rect paint => exact Watched.outcome_call (.drawRect rect paint) before h
  | annotate area key value => exact Watched.outcome_call (.annotate area key value) before h

/-- A command is one call, and is carried out unless this is the call that fails. -/
theorem outcome_perform_failingAtCall_of_ne (c : Command) {number n : Nat}
    (error : Nat → PictureError) (hne : number ≠ n)
    (h : (c.perform canvas).outcome s j = ((result, s'), j')) :
    (c.perform (canvas.failingAtCall (some number) error)).outcome ⟨n, s⟩ j =
      ((result, ⟨n + 1, s'⟩), j') := by
  cases c with
  | save => exact Counted.outcome_call_of_ne error hne h
  | restore => exact Counted.outcome_call_of_ne error hne h
  | translate v => exact Counted.outcome_call_of_ne error hne h
  | drawRect rect paint => exact Counted.outcome_call_of_ne error hne h
  | annotate area key value => exact Counted.outcome_call_of_ne error hne h

theorem outcome_perform_failingAtCall_self (c : Command) (canvas : Canvas σ)
    (error : Nat → PictureError) (n : Nat) (s : σ) (j : Journal) :
    (c.perform (canvas.failingAtCall (some n) error)).outcome ⟨n, s⟩ j =
      ((.error (error n), ⟨n + 1, s⟩), j) := by
  cases c with
  | save => exact Counted.outcome_call_self error _ n s j
  | restore => exact Counted.outcome_call_self error _ n s j
  | translate v => exact Counted.outcome_call_self error _ n s j
  | drawRect rect paint => exact Counted.outcome_call_self error _ n s j
  | annotate area key value => exact Counted.outcome_call_self error _ n s j

end Command

/-! ### Several calls -/

namespace Canvas

variable {σ : Type}

/-- The calls that carrying out the commands comes to: all of them, or those up to the first that
fails, this one included. -/
def calls (canvas : Canvas σ) : List Command → σ → Journal → List Command
  | [], _, _ => []
  | c :: commands, s, j =>
    match (c.perform canvas).outcome s j with
    | ((.ok _, s'), j') => c :: calls canvas commands s' j'
    | ((.error _, _), _) => [c]

variable {canvas : Canvas σ} {c : Command} {commands : List Command} {s s' : σ} {j j' : Journal}

theorem calls_cons_of_ok (h : (c.perform canvas).outcome s j = ((.ok (), s'), j')) :
    canvas.calls (c :: commands) s j = c :: canvas.calls commands s' j' := by
  rw [calls, h]

theorem calls_cons_of_error {e : PictureError}
    (h : (c.perform canvas).outcome s j = ((.error e, s'), j')) :
    canvas.calls (c :: commands) s j = [c] := by
  rw [calls, h]

/-- Carrying out the calls is carrying out the commands. -/
theorem outcome_forM_calls (canvas : Canvas σ) (commands : List Command) (s : σ) (j : Journal) :
    Action.outcome (forM (canvas.calls commands s j) (Command.perform canvas)) s j =
      Action.outcome (forM commands (Command.perform canvas)) s j := by
  induction commands generalizing s j with
  | nil => rfl
  | cons c commands ih =>
      rcases hstep : (c.perform canvas).outcome s j with ⟨⟨_ | _, s'⟩, j'⟩
      · rw [calls_cons_of_error hstep, List.forM_cons, List.forM_cons,
          Action.outcome_bind_of_error hstep, Action.outcome_bind_of_error hstep]
      · rw [calls_cons_of_ok hstep, List.forM_cons, List.forM_cons, Action.outcome_bind_of_ok hstep,
          Action.outcome_bind_of_ok hstep, ih]

/-- **The calls that are listed** are those up to the first that fails; to list them changes nothing
else. -/
theorem outcome_forM_listingCalls {result : Except PictureError Unit}
    (h : Action.outcome (forM commands (Command.perform canvas)) s j = ((result, s'), j'))
    (before : List Command) :
    Action.outcome (forM commands (Command.perform canvas.listingCalls)) ⟨before, s⟩ j =
      ((result, ⟨before ++ canvas.calls commands s j, s'⟩), j') := by
  induction commands generalizing s j before with
  | nil =>
      cases h
      rw [calls, List.append_nil]
      rfl
  | cons c commands ih =>
      rw [List.forM_cons] at h ⊢
      rcases hstep : (c.perform canvas).outcome s j with ⟨⟨e | _, s₁⟩, j₁⟩
      · rw [Action.outcome_bind_of_error hstep] at h
        cases h
        rw [calls_cons_of_error hstep,
          Action.outcome_bind_of_error (c.outcome_perform_listingCalls before hstep)]
      · rw [Action.outcome_bind_of_ok hstep] at h
        rw [calls_cons_of_ok hstep,
          Action.outcome_bind_of_ok (c.outcome_perform_listingCalls before hstep), ih h,
          List.append_assoc, List.singleton_append]

/-- The surface whose call with the number `n` fails gets the calls up to this one. -/
theorem calls_failingAtCall (canvas : Canvas σ) (commands : List Command)
    (error : Nat → PictureError) (m n : Nat) (s : σ) (j : Journal) :
    (canvas.failingAtCall (some (m + n)) error).calls commands ⟨m, s⟩ j =
      (canvas.calls commands s j).take (n + 1) := by
  induction commands generalizing m n s j with
  | nil => rfl
  | cons c commands ih =>
      cases n with
      | zero =>
          have hfail := c.outcome_perform_failingAtCall_self canvas error m s j
          rw [Nat.add_zero, calls_cons_of_error hfail]
          rcases hstep : (c.perform canvas).outcome s j with ⟨⟨_ | _, s'⟩, j'⟩
          · rw [calls_cons_of_error hstep]
            rfl
          · rw [calls_cons_of_ok hstep]
            rfl
      | succ n =>
          have hne : m + (n + 1) ≠ m := by omega
          rcases hstep : (c.perform canvas).outcome s j with ⟨⟨e | _, s'⟩, j'⟩
          · rw [calls_cons_of_error hstep,
              calls_cons_of_error (c.outcome_perform_failingAtCall_of_ne error hne hstep)]
            rfl
          · rw [calls_cons_of_ok hstep,
              calls_cons_of_ok (c.outcome_perform_failingAtCall_of_ne error hne hstep),
              List.take_succ_cons, ← ih, Nat.add_right_comm, Nat.add_assoc m n 1]

/-- **A call that fails on purpose ends the drawing,** and leaves what the calls before it made. -/
theorem exists_outcome_forM_failingAtCall (error : Nat → PictureError) {m n : Nat}
    (h : n < (canvas.calls commands s j).length) :
    ∃ s' j',
      Action.outcome (forM ((canvas.calls commands s j).take n) (Command.perform canvas)) s j =
        ((.ok (), s'), j') ∧
      Action.outcome (forM commands (Command.perform (canvas.failingAtCall (some (m + n)) error)))
          ⟨m, s⟩ j = ((.error (error (m + n)), ⟨m + n + 1, s'⟩), j') := by
  induction commands generalizing m n s j with
  | nil => cases h
  | cons c commands ih =>
      cases n with
      | zero =>
          have hfail := c.outcome_perform_failingAtCall_self canvas error m s j
          rw [List.forM_cons]
          exact ⟨s, j, rfl, Action.outcome_bind_of_error hfail⟩
      | succ n =>
          have hne : m + (n + 1) ≠ m := by omega
          rcases hstep : (c.perform canvas).outcome s j with ⟨⟨e | _, s₁⟩, j₁⟩
          · -- the call before already fails, so this one is not made
            rw [calls_cons_of_error hstep] at h
            exact absurd (Nat.lt_of_succ_lt_succ h) (Nat.not_lt_zero n)
          · rw [calls_cons_of_ok hstep] at h ⊢
            obtain ⟨s', j', hbefore, hfails⟩ := ih (m := m + 1) (Nat.lt_of_succ_lt_succ h)
            rw [Nat.add_right_comm, Nat.add_assoc m n 1] at hfails
            refine ⟨s', j', ?_, ?_⟩
            · rw [List.take_succ_cons, List.forM_cons, Action.outcome_bind_of_ok hstep, hbefore]
            · rw [List.forM_cons, Action.outcome_bind_of_ok
                (c.outcome_perform_failingAtCall_of_ne error hne hstep), hfails]

/-- If fewer calls are made, then no call is made to fail. -/
theorem outcome_forM_failingAtCall_of_le {result : Except PictureError Unit}
    (h : Action.outcome (forM commands (Command.perform canvas)) s j = ((result, s'), j'))
    (error : Nat → PictureError) {m n : Nat} (hle : (canvas.calls commands s j).length ≤ n) :
    Action.outcome (forM commands (Command.perform (canvas.failingAtCall (some (m + n)) error)))
        ⟨m, s⟩ j = ((result, ⟨m + (canvas.calls commands s j).length, s'⟩), j') := by
  induction commands generalizing m n s j with
  | nil =>
      cases h
      rfl
  | cons c commands ih =>
      rw [List.forM_cons] at h ⊢
      rcases hstep : (c.perform canvas).outcome s j with ⟨⟨e | _, s₁⟩, j₁⟩
      · rw [calls_cons_of_error hstep] at hle ⊢
        rw [List.length_singleton] at hle
        have hne : m + n ≠ m := by omega
        rw [Action.outcome_bind_of_error hstep] at h
        cases h
        exact Action.outcome_bind_of_error (c.outcome_perform_failingAtCall_of_ne error hne hstep)
      · rw [calls_cons_of_ok hstep, List.length_cons] at hle ⊢
        obtain ⟨k, rfl⟩ : ∃ k, n = k + 1 := ⟨n - 1, by omega⟩
        have hne : m + (k + 1) ≠ m := by omega
        rw [Action.outcome_bind_of_ok hstep] at h
        have hrest := ih h (m := m + 1) (Nat.le_of_succ_le_succ hle)
        rw [Nat.add_right_comm, Nat.add_assoc m k 1] at hrest
        rw [Action.outcome_bind_of_ok (c.outcome_perform_failingAtCall_of_ne error hne hstep),
          hrest, Nat.add_right_comm, Nat.add_assoc m _ 1]

end Canvas

/-! ### Drawing -/

/-- Drawing stops at the first call that fails, on every surface and from every state.  Say that it
makes the calls `calls`.  If the call with the number `n` is made to fail, then the calls before it
are made as before, that one is the last, and its failure is the failure of the drawing; if there is
no such call, then nothing is different. -/
def StopsAtFirstFailure (draw : (σ : Type) → Canvas σ → Action σ Unit) : Prop :=
  ∀ (σ : Type) (canvas : Canvas σ) (s : σ) (j : Journal), ∃ result calls s' j',
    (draw σ canvas).outcome s j = ((result, s'), j') ∧
    (draw (Watched σ) canvas.listingCalls).outcome ⟨[], s⟩ j = ((result, ⟨calls, s'⟩), j') ∧
    Action.outcome (forM calls (Command.perform canvas)) s j = ((result, s'), j') ∧
    ∀ (n : Nat) (e : PictureError),
      (n < calls.length → ∃ s₁ j₁,
        Action.outcome (forM (calls.take n) (Command.perform canvas)) s j = ((.ok (), s₁), j₁) ∧
        (draw (Watched (Counted σ)) (canvas.failingAtCall (some n) fun _ => e).listingCalls).outcome
            ⟨[], ⟨0, s⟩⟩ j =
          ((.error e, ⟨calls.take (n + 1), ⟨n + 1, s₁⟩⟩), j₁)) ∧
      (calls.length ≤ n →
        (draw (Watched (Counted σ)) (canvas.failingAtCall (some n) fun _ => e).listingCalls).outcome
            ⟨[], ⟨0, s⟩⟩ j =
          ((result, ⟨calls, ⟨calls.length, s'⟩⟩), j'))

/-- Carrying out commands stops at the first failure. -/
theorem StopsAtFirstFailure.of_forM {draw : (σ : Type) → Canvas σ → Action σ Unit}
    (commands : List Command)
    (h : ∀ (σ : Type) (canvas : Canvas σ), draw σ canvas = forM commands (Command.perform canvas)) :
    StopsAtFirstFailure draw := by
  intro σ canvas s j
  rcases hrun : Action.outcome (forM commands (Command.perform canvas)) s j with ⟨⟨result, s'⟩, j'⟩
  have hlisted := Canvas.outcome_forM_listingCalls hrun []
  rw [List.nil_append] at hlisted
  refine ⟨result, canvas.calls commands s j, s', j', ?_, ?_, ?_,
    fun n e => ⟨fun hlt => ?_, fun hle => ?_⟩⟩
  · rw [h, hrun]
  · rw [h, hlisted]
  · rw [Canvas.outcome_forM_calls, hrun]
  · obtain ⟨s₁, j₁, hbefore, hfails⟩ :=
      Canvas.exists_outcome_forM_failingAtCall (m := 0) (fun _ => e) hlt
    have hcalls := Canvas.calls_failingAtCall canvas commands (fun _ => e) 0 n s j
    rw [Nat.zero_add] at hfails hcalls
    have hfailed := Canvas.outcome_forM_listingCalls hfails []
    rw [List.nil_append, hcalls] at hfailed
    exact ⟨s₁, j₁, hbefore, by rw [h, hfailed]⟩
  · have hsame := Canvas.outcome_forM_failingAtCall_of_le hrun (fun _ => e) (m := 0) hle
    have hcalls := Canvas.calls_failingAtCall canvas commands (fun _ => e) 0 n s j
    rw [Nat.zero_add, List.take_of_length_le (Nat.le_succ_of_le hle)] at hcalls
    rw [Nat.zero_add, Nat.zero_add] at hsame
    have hlisted := Canvas.outcome_forM_listingCalls hsame []
    rw [List.nil_append, hcalls] at hlisted
    rw [h, hlisted]

/-- **The first failure stops everything:** playing back a picture, drawing a panel, and drawing
rectangles one by one.  On a surface whose shifts by an offset are made of the primitive ones, the
calls that are listed and the call that is made to fail are primitive calls. -/
theorem stopsAtFirstFailure :
    (∀ p : Picture, StopsAtFirstFailure fun _ canvas => p.playback canvas) ∧
    (∀ (p : Panel) (paint : Paint), StopsAtFirstFailure fun _ canvas => p.draw canvas paint) ∧
    (∀ (rects : List Rect) (paint : Paint),
      StopsAtFirstFailure fun _ canvas => canvas.borrowed.drawRects rects paint) ∧
    ∀ (σ : Type) (canvas : Canvas σ), canvas.borrowed.listingCalls = canvas.watched ∧
      ∀ failing error,
        canvas.borrowed.failingAtCall failing error = canvas.failingAt failing error := by
  refine ⟨fun p => ?_, fun p paint => ?_, fun rects paint => ?_, fun σ canvas =>
    ⟨canvas.listingCalls_borrowed, canvas.failingAtCall_borrowed⟩⟩
  · exact StopsAtFirstFailure.of_forM p.commands fun _ _ => rfl
  · exact StopsAtFirstFailure.of_forM (p.commands paint) fun _ canvas => p.draw_eq_forM canvas paint
  · have hforM : ∀ (σ : Type) (canvas : Canvas σ), canvas.borrowed.drawRects rects paint =
        forM (rects.map (.drawRect · paint)) (Command.perform canvas) := by
      intro σ canvas
      rw [List.forM_map]
      rfl
    exact StopsAtFirstFailure.of_forM _ hforM

/-- The fill of a panel inside another one fails: neither is its saved space restored, nor are the
markers of the two panels closed. -/
theorem stopsAtFirstFailure_betweenBytes :
    ∃ t j, (Panel.betweenBytes.draw
        (Canvas.tracing.failingAtCall (some 5) fun _ => .nonFinite).listingCalls
        (.fill .black)).outcome ⟨[], ⟨0, .start⟩⟩ #[] =
      ((.error .nonFinite, ⟨(Panel.betweenBytes.commands (.fill .black)).take 6, ⟨6, t⟩⟩), j) ∧
      t.saved.length = 1 := by
  obtain ⟨result, calls, t', j', -, hlisted, -, hfails⟩ :=
    stopsAtFirstFailure.2.1 Panel.betweenBytes (.fill .black) Trace Canvas.tracing .start #[]
  have hcalls : calls = Panel.betweenBytes.commands (.fill .black) := by
    have hrun : ((Panel.betweenBytes.draw Canvas.tracing.listingCalls (.fill .black)).outcome
        ⟨[], .start⟩ #[]).1.2.calls = Panel.betweenBytes.commands (.fill .black) := by
      decide +kernel
    rwa [hlisted] at hrun
  have hlength : 5 < calls.length := by
    rw [hcalls]
    decide
  obtain ⟨t, j, hbefore, hfailed⟩ := (hfails 5 .nonFinite).1 hlength
  have hsaved : ((Action.outcome (forM ((Panel.betweenBytes.commands (.fill .black)).take 5)
      (Command.perform Canvas.tracing)) .start #[]).1.2.saved).length = 1 := by
    decide +kernel
  rw [hcalls] at hbefore hfailed
  rw [hbefore] at hsaved
  exact ⟨t, j, hfailed, hsaved⟩

end PictureTape

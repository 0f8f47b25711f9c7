/-
**Surfaces behind references.**

A reference to a surface hands on six of the eight calls.  The two that come with bodies of their
own get these bodies back, whatever the surface has put in their place.  So a reference does what
the surface does exactly if the surface has left the two bodies as they were; a surface that has
not is told apart from a reference to it by any request that comes to one of the two calls, and by
nothing else.  Drawing a panel that has another one inside comes to such a call, and so does playing
back a shift.

Main definitions:

* `PictureTape.Request` — one of the eight calls, or one of the operations that are made of them;
* `Request.answerAll` — what a surface answers to requests;
* `Request.usesBodies` — whether a request comes to one of the two calls that have bodies;
* `Canvas.HasUsualBodies` — the two bodies are as they were;
* `Canvas.checking` — a surface that has replaced them.

Main results:

* `Request.answerAll_borrowed` — **when a reference to a surface answers like the surface,** for one
  surface and all requests, and for given requests on all surfaces;
* `Request.not_forall_answerAll_borrowed` — not every surface is answered for by its references.
-/

import PictureTape.Proofs.OpenSaves

set_option autoImplicit false
set_option relaxedAutoImplicit false

namespace PictureTape

variable {σ : Type}

/-! ### Requests -/

/-- What code that is written for any surface can do with one. -/
inductive Request where
  /-- One of the calls that draw, the four boxes, a panel, or a stored picture. -/
  | step (step : Step)
  /-- Play back a picture. -/
  | playback (p : Picture)
  /-- Ask how many saves are open. -/
  | openSaves

/-- What comes back. -/
inductive Answer where
  | ended (outcome : Except PictureError Unit)
  | count (n : Nat)

namespace Request

/-- What a surface does with a request. -/
def answer (canvas : Canvas σ) : Request → StateT σ Logged Answer
  | step s => .ended <$> (s.perform canvas).run
  | playback p => .ended <$> (p.playback canvas).run
  | openSaves => return .count (canvas.openSaves (← get))

/-- What a surface answers to one request after the other, whatever the answers are. -/
def answerAll (canvas : Canvas σ) (requests : List Request) : StateT σ Logged (List Answer) :=
  requests.mapM (answer canvas)

end Request

/-! ### The two calls that have bodies -/

/-- Is it a shift of the coordinate space? -/
def Command.isTranslate : Command → Bool
  | translate _ => true
  | _ => false

/-- Does a step come to one of the two calls that have bodies? -/
def Step.usesBodies : Step → Bool
  | translateBy _ => true
  | drawRects _ _ => true
  | boxes => true
  | panel tree _ => !tree.children.isEmpty
  | play bytes =>
    match Picture.decode bytes with
    | .ok p => p.commands.any Command.isTranslate
    | .error _ => false
  | _ => false

/-- Does a request come to one of the two calls that have bodies? -/
def Request.usesBodies : Request → Bool
  | step s => s.usesBodies
  | playback p => p.commands.any Command.isTranslate
  | openSaves => false

/-- The two calls that have bodies do what these say. -/
structure Canvas.HasUsualBodies (canvas : Canvas σ) : Prop where
  translateBy (v : Offset) : canvas.translateBy v = canvas.translate v.x v.y
  drawRects (rects : List Rect) (paint : Paint) :
    canvas.drawRects rects paint = rects.forM fun rect => canvas.drawRect rect paint

/-- A surface that has left the two bodies as they were is its own reference. -/
theorem Canvas.borrowed_eq_self {canvas : Canvas σ} (h : canvas.HasUsualBodies) :
    canvas.borrowed = canvas := by
  obtain ⟨save, restore, translate, drawRect, annotate, openSaves, translateBy, drawRects⟩ := canvas
  have htranslate := funext h.translateBy
  have hrects := funext fun rects => funext (h.drawRects rects)
  simp only at htranslate hrects
  rw [htranslate, hrects]
  rfl

/-! ### Requests that come to neither call -/

namespace Command

theorem perform_borrowed {c : Command} (h : c.isTranslate = false) (canvas : Canvas σ) :
    c.perform canvas.borrowed = c.perform canvas := by
  cases c with
  | translate v => cases h
  | save => rfl
  | restore => rfl
  | drawRect rect paint => rfl
  | annotate area key value => rfl

theorem forM_perform_borrowed {commands : List Command}
    (h : commands.any isTranslate = false) (canvas : Canvas σ) :
    forM commands (perform canvas.borrowed) = forM commands (perform canvas) := by
  induction commands with
  | nil => rfl
  | cons c commands ih =>
      rw [List.any_cons, Bool.or_eq_false_iff] at h
      rw [List.forM_cons, List.forM_cons, perform_borrowed h.1, ih h.2]

end Command

theorem Picture.playback_borrowed {p : Picture}
    (h : p.commands.any Command.isTranslate = false) (canvas : Canvas σ) :
    p.playback canvas.borrowed = p.playback canvas :=
  Command.forM_perform_borrowed h canvas

/-- A panel is shifted exactly if it is inside another one. -/
theorem Panel.any_isTranslate_commands (p : Panel) (paint : Paint) :
    (p.commands paint).any Command.isTranslate = !p.children.isEmpty := by
  obtain ⟨face, children⟩ := p
  cases children with
  | nil => rfl
  | cons child children =>
      obtain ⟨inner, others⟩ := child
      simp [commands, Panel.children, commandsOfAll, commandsInside, Face.markCommand,
        Face.fillCommand, Command.isTranslate]

theorem Step.perform_borrowed {step : Step} (h : step.usesBodies = false) (canvas : Canvas σ) :
    step.perform canvas.borrowed = step.perform canvas := by
  cases step with
  | translateBy v => cases h
  | drawRects rects paint => cases h
  | boxes => cases h
  | save => rfl
  | restore => rfl
  | translate dx dy => rfl
  | drawRect rect paint => rfl
  | annotate area key value => rfl
  | panel tree paint =>
      have hcommands : (tree.commands paint).any Command.isTranslate = false := by
        rw [Panel.any_isTranslate_commands]
        exact h
      simp only [perform, Panel.draw_eq_forM]
      exact Command.forM_perform_borrowed hcommands canvas
  | play bytes =>
      refine Action.ext_outcome fun s j => ?_
      obtain ⟨j', hload⟩ := Picture.exists_outcome_load bytes s j
      unfold perform
      cases hdecode : Picture.decode bytes with
      | error e =>
          rw [hdecode] at hload
          rw [Action.outcome_bind_of_error hload, Action.outcome_bind_of_error hload]
      | ok p =>
          rw [hdecode] at hload
          rw [Action.outcome_bind_of_ok hload, Action.outcome_bind_of_ok hload]
          simp only [usesBodies, hdecode] at h
          rw [Picture.playback_borrowed h]

namespace Request

theorem answer_borrowed {request : Request} (h : request.usesBodies = false) (canvas : Canvas σ) :
    request.answer canvas.borrowed = request.answer canvas := by
  cases request with
  | step s => rw [answer, answer, Step.perform_borrowed h]
  | playback p => rw [answer, answer, Picture.playback_borrowed h]
  | openSaves => rfl

theorem answerAll_borrowed_of_forall {requests : List Request}
    (h : ∀ request ∈ requests, request.usesBodies = false) (canvas : Canvas σ) :
    answerAll canvas.borrowed requests = answerAll canvas requests := by
  induction requests with
  | nil => rfl
  | cons request requests ih =>
      obtain ⟨hfirst, hrest⟩ := List.forall_mem_cons.1 h
      have hagain := ih hrest
      unfold answerAll at hagain ⊢
      rw [List.mapM_cons, List.mapM_cons, answer_borrowed hfirst, hagain]

end Request

/-! ### Requests that come to one of the calls -/

namespace Canvas

/-- A surface without states, on which every call succeeds. -/
def idle : Canvas Unit where
  save := pure ()
  restore := pure ()
  translate _ _ := pure ()
  drawRect _ _ := pure ()
  annotate _ _ _ := pure ()
  openSaves _ := 0

/-- The same, but for two calls that have failing bodies. -/
def refusing : Canvas Unit :=
  { idle with
    translateBy := fun _ => throw .nonFinite
    drawRects := fun _ _ => throw .nonFinite }

theorem borrowed_refusing : refusing.borrowed = idle := rfl

end Canvas

namespace Command

theorem forM_perform_idle (commands : List Command) :
    forM commands (perform .idle) = pure () := by
  induction commands with
  | nil => rfl
  | cons c commands ih =>
      have hc : c.perform .idle = pure () := by cases c <;> rfl
      rw [List.forM_cons, hc, ih]
      rfl

theorem forM_perform_refusing {commands : List Command} (h : commands.any isTranslate = true) :
    forM commands (perform .refusing) = throw .nonFinite := by
  induction commands with
  | nil => cases h
  | cons c commands ih =>
      rw [List.any_cons, Bool.or_eq_true] at h
      rw [List.forM_cons]
      cases hc : c.isTranslate with
      | true =>
          have hfails : c.perform .refusing = throw .nonFinite := by
            cases c with
            | translate v => rfl
            | _ => cases hc
          rw [hfails]
          rfl
      | false =>
          have hsucceeds : c.perform .refusing = pure () := by
            cases c with
            | translate v => cases hc
            | _ => rfl
          rw [hsucceeds, ih (h.resolve_left (by rw [hc]; nofun))]
          rfl

end Command

/-- Commands with a shift succeed on the one surface and fail on the other. -/
theorem Command.outcome_forM_of_isTranslate {commands : List Command}
    (h : commands.any isTranslate = true) (j : Journal) :
    Action.outcome (forM commands (perform .idle)) () j = ((.ok (), ()), j) ∧
      Action.outcome (forM commands (perform .refusing)) () j =
        ((.error .nonFinite, ()), j) := by
  rw [forM_perform_idle, forM_perform_refusing h]
  exact ⟨rfl, rfl⟩

/-- A step that comes to one of the calls succeeds on the one surface and fails on the other. -/
theorem Step.exists_outcome_of_usesBodies {step : Step} (h : step.usesBodies = true)
    (j : Journal) :
    ∃ j', (step.perform .idle).outcome () j = ((.ok (), ()), j') ∧
      (step.perform .refusing).outcome () j = ((.error .nonFinite, ()), j') := by
  cases step with
  | translateBy v => exact ⟨j, rfl, rfl⟩
  | drawRects rects paint =>
      have hidle := Command.forM_perform_idle (rects.map (.drawRect · paint))
      rw [List.forM_map] at hidle
      exact ⟨j, congrArg (fun act => Action.outcome act () j) hidle, rfl⟩
  | boxes =>
      simp only [perform, Boxes.draw, Panel.draw_eq_forM]
      have hshift := Panel.any_isTranslate_commands Boxes.root Boxes.paint
      exact ⟨j, Command.outcome_forM_of_isTranslate hshift j⟩
  | panel tree paint =>
      simp only [perform, Panel.draw_eq_forM]
      have hshift := (Panel.any_isTranslate_commands tree paint).trans h
      exact ⟨j, Command.outcome_forM_of_isTranslate hshift j⟩
  | play bytes =>
      obtain ⟨j', hload⟩ := Picture.exists_outcome_load bytes () j
      unfold perform
      cases hdecode : Picture.decode bytes with
      | error e =>
          rw [usesBodies, hdecode] at h
          cases h
      | ok p =>
          rw [hdecode] at hload
          simp only [usesBodies, hdecode] at h
          rw [Action.outcome_bind_of_ok hload, Action.outcome_bind_of_ok hload]
          exact ⟨j', Command.outcome_forM_of_isTranslate h j'⟩
  | _ => cases h

namespace Request

variable {canvas : Canvas σ} {s s' : σ} {j j' : Journal}

theorem run_ended {act : Action σ Unit} {result : Except PictureError Unit}
    (h : act.outcome s j = ((result, s'), j')) :
    ((Answer.ended <$> act.run).run s).run j = ((.ended result, s'), j') := by
  unfold Action.outcome at h
  rw [StateT.run_map, StateT.run_map, h]
  rfl

/-- The two surfaces answer a request that comes to one of the calls differently. -/
theorem exists_answer_of_usesBodies {request : Request} (h : request.usesBodies = true)
    (j : Journal) :
    ∃ j', ((request.answer .idle).run ()).run j = ((.ended (.ok ()), ()), j') ∧
      ((request.answer .refusing).run ()).run j = ((.ended (.error .nonFinite), ()), j') := by
  cases request with
  | step s =>
      obtain ⟨j', hidle, hrefusing⟩ := Step.exists_outcome_of_usesBodies h j
      exact ⟨j', run_ended hidle, run_ended hrefusing⟩
  | playback p =>
      obtain ⟨hidle, hrefusing⟩ := Command.outcome_forM_of_isTranslate h j
      exact ⟨j, run_ended hidle, run_ended hrefusing⟩
  | openSaves => cases h

/-- The first answer is given first, and the others from the state that it leaves. -/
theorem run_answerAll_cons {request : Request} {a : Answer}
    (h : ((request.answer canvas).run s).run j = ((a, s'), j')) (requests : List Request) :
    ((answerAll canvas (request :: requests)).run s).run j =
      (fun rest => ((a :: rest.1.1, rest.1.2), rest.2))
        (((answerAll canvas requests).run s').run j') := by
  unfold answerAll
  rw [List.mapM_cons, StateT.run_bind, StateT.run_bind, h]
  rfl

/-- Requests that the two surfaces answer in the same way come to neither call. -/
theorem usesBodies_eq_false_of_mem {requests : List Request} {j : Journal}
    (h : ((answerAll .idle requests).run ()).run j =
      ((answerAll .refusing requests).run ()).run j) :
    ∀ request ∈ requests, request.usesBodies = false := by
  induction requests generalizing j with
  | nil => exact nofun
  | cons request requests ih =>
      cases huses : request.usesBodies with
      | true =>
          obtain ⟨j', hidle, hrefusing⟩ := exists_answer_of_usesBodies huses j
          rw [run_answerAll_cons hidle, run_answerAll_cons hrefusing] at h
          have hfirst := congrArg (fun r : (List Answer × Unit) × Journal => r.1.1.head?) h
          cases hfirst
      | false =>
          have hsame := answer_borrowed huses .refusing
          rw [Canvas.borrowed_refusing] at hsame
          obtain ⟨a, j', hfirst⟩ : ∃ a j',
              ((request.answer .refusing).run ()).run j = ((a, ()), j') := ⟨_, _, rfl⟩
          rw [run_answerAll_cons hfirst, run_answerAll_cons (hsame ▸ hfirst)] at h
          have hrest := congrArg
            (fun r : (List Answer × Unit) × Journal => ((r.1.1.tail, r.1.2), r.2)) h
          exact List.forall_mem_cons.2 ⟨huses, ih hrest⟩

/-- Surfaces that answer a step in the same way do the same. -/
theorem perform_eq_of_answerAll_eq {canvas other : Canvas σ} {step : Step}
    (h : answerAll canvas [.step step] = answerAll other [.step step]) :
    step.perform canvas = step.perform other := by
  have hrun : ∀ (canvas : Canvas σ) (s : σ) (j : Journal),
      ((answerAll canvas [.step step]).run s).run j =
        (fun r => (([.ended r.1.1], r.1.2), r.2)) ((step.perform canvas).outcome s j) := by
    intro canvas s j
    have hanswer : ((answer canvas (.step step)).run s).run j = _ := run_ended rfl
    exact run_answerAll_cons hanswer []
  refine Action.ext_outcome fun s j => ?_
  have hsame := hrun other s j
  rw [← h, hrun canvas s j] at hsame
  obtain ⟨⟨⟨result, s'⟩, j'⟩, hresult⟩ : ∃ r, (step.perform canvas).outcome s j = r := ⟨_, rfl⟩
  obtain ⟨⟨⟨result', t'⟩, k'⟩, hresult'⟩ : ∃ r, (step.perform other).outcome s j = r := ⟨_, rfl⟩
  rw [hresult, hresult'] at hsame ⊢
  cases hsame
  rfl

/-! ### References -/

/-- **When a reference to a surface answers like the surface.**  A surface is answered for by its
references, whatever it is asked, exactly if the two calls that have bodies have their usual bodies.
Requests get the same answers through a reference from every surface, and leave it in the same
state, exactly if none of them comes to one of the two calls. -/
theorem answerAll_borrowed (canvas : Canvas σ) (requests : List Request) :
    ((∀ others : List Request,
        answerAll canvas.borrowed others = answerAll canvas others) ↔ canvas.HasUsualBodies) ∧
    ((∀ (τ : Type) (other : Canvas τ),
        answerAll other.borrowed requests = answerAll other requests) ↔
      ∀ request ∈ requests, request.usesBodies = false) := by
  refine ⟨⟨fun h => ⟨?_, ?_⟩, ?_⟩, ?_, ?_⟩
  · intro v
    exact (perform_eq_of_answerAll_eq (h [.step (.translateBy v)])).symm
  · intro rects paint
    exact (perform_eq_of_answerAll_eq (h [.step (.drawRects rects paint)])).symm
  · intro h others
    rw [Canvas.borrowed_eq_self h]
  · intro h
    have hsame := h Unit .refusing
    rw [Canvas.borrowed_refusing] at hsame
    exact usesBodies_eq_false_of_mem (j := #[]) (by rw [hsame])
  · intro h τ other
    exact answerAll_borrowed_of_forall h other

end Request

/-- A surface that looks at all numbers before it begins: it refuses an offset that is not finite,
and draws no rectangle of a row in which one is not finite. -/
def Canvas.checking (canvas : Canvas σ) : Canvas σ :=
  { canvas with
    translateBy := fun v => if v.isFinite then canvas.translateBy v else throw .nonFinite
    drawRects := fun rects paint =>
      if rects.all Rect.isFinite then canvas.drawRects rects paint else throw .nonFinite }

/-- A panel with another one inside that is infinitely far away. -/
def Panel.infinitelyFar : Panel :=
  .node ⟨1, "outer", 100, 50, .zero, .white⟩
    [.node ⟨2, "inner", 10, 10, ⟨⟨0x7f800000⟩, 0⟩, .black⟩ []]

/-- Not every surface is answered for by its references: this panel is refused by a recorder that
looks at all numbers, and is recorded through a reference to it. -/
theorem Request.not_forall_answerAll_borrowed :
    ¬ ∀ (σ : Type) (canvas : Canvas σ) (requests : List Request),
      answerAll canvas.borrowed requests = answerAll canvas requests := by
  intro h
  have hsame := perform_eq_of_answerAll_eq
    (h Recorder Canvas.recording.checking [.step (.panel .infinitelyFar .plain)])
  have hended := congrArg (fun act => (act.outcome (.start ⟨0, 0, 100, 50⟩) #[]).1.1.isOk) hsame
  revert hended
  decide +kernel

end PictureTape

/-
**Replaying what was recorded.**

The picture of a panel is the panel's list of commands, and playing it back carries these commands
out.  So it makes no difference to a surface whether a panel is drawn on it or recorded first and
played back on it, whatever the surface does and wherever it fails.  If the picture was stored in
between, then each color is rounded, and that is the only difference.

Main definitions:

* `Canvas.watched` — the surface that also lists the calls it gets;
* `Canvas.roundingColors` — the surface that rounds the colors it is given;
* `Panel.isFinite` — every number that a panel draws with is finite.

Main results:

* `Panel.playback_capture` — **recording and playing back is drawing;** after storing and loading it
  is drawing in rounded colors.
-/

import PictureTape.Proofs.Recording
import PictureTape.Proofs.RoundTrip

set_option autoImplicit false
set_option relaxedAutoImplicit false

namespace PictureTape

/-! ### Surfaces that watch and that round -/

/-- The state of a surface, and the primitive calls so far. -/
structure Watched (σ : Type) where
  calls : List Command
  inner : σ

/-- Lists a call and carries it out. -/
def Watched.call {σ : Type} (command : Command) (act : Action σ Unit) :
    Action (Watched σ) Unit := do
  modify fun w => { w with calls := w.calls ++ [command] }
  act.onPart inner fun changed whole => { whole with inner := changed }

namespace Canvas

variable {σ : Type}

/-- The surface that also lists the primitive calls it gets, whether they fail or not. -/
def watched (canvas : Canvas σ) : Canvas (Watched σ) where
  save := Watched.call .save canvas.save
  restore := Watched.call .restore canvas.restore
  translate dx dy := Watched.call (.translate ⟨dx, dy⟩) (canvas.translate dx dy)
  drawRect rect paint := Watched.call (.drawRect rect paint) (canvas.drawRect rect paint)
  annotate area key value := Watched.call (.annotate area key value) (canvas.annotate area key value)
  openSaves w := canvas.openSaves w.inner

/-- The surface that draws in rounded colors. -/
def roundingColors (canvas : Canvas σ) : Canvas σ where
  save := canvas.save
  restore := canvas.restore
  translate := canvas.translate
  drawRect rect paint := canvas.drawRect rect paint.rounded
  annotate := canvas.annotate
  openSaves := canvas.openSaves
  translateBy := canvas.translateBy

end Canvas

/-! ### What is stored of a panel -/

namespace Panel

/-- Every size in the panel is finite, and every offset but that of the outermost panel, which is
not drawn with. -/
def isFinite (p : Panel) : Bool :=
  p.faces.all (fun f => f.width.isFinite && f.height.isFinite) &&
    (facesOfAll p.children).all fun f => f.offset.isFinite

/-- The commands of a finite panel are finite. -/
theorem isFinite_of_mem_commands {p : Panel} {paint : Paint} (h : p.isFinite = true)
    (hwidth : paint.strokeWidth.isFinite = true) :
    ∀ c ∈ p.commands paint, c.isFinite = true := by
  simp only [isFinite, Bool.and_eq_true, List.all_eq_true] at h
  obtain ⟨hsizes, hoffsets⟩ := h
  refine forall_mem_commands (P := fun c => c.isFinite = true) rfl rfl p ?_ hoffsets
  intro f hf
  have hrect : f.localRect.isFinite = true := by
    obtain ⟨hw, hh⟩ := hsizes f hf
    simp only [Face.localRect, Rect.isFinite, hw, hh]
    rfl
  refine ⟨fun side => hrect, ?_⟩
  simp only [Face.fillCommand, Command.isFinite, hrect, Paint.strokeWidth_withColor, hwidth]
  rfl

/-- The paints of a panel differ in their colors only. -/
theorem strokeWidth_of_mem_paintsOf {p : Panel} {paint : Paint} :
    ∀ q ∈ Command.paintsOf (p.commands paint), q.strokeWidth = paint.strokeWidth := by
  have hpaint : ∀ c ∈ p.commands paint, ∀ q, c.paint? = some q →
      q.strokeWidth = paint.strokeWidth := by
    refine forall_mem_commands nofun nofun p ?_ fun _ _ => nofun
    intro f _
    refine ⟨fun _ => nofun, fun q hq => ?_⟩
    cases hq
    rfl
  intro q hq
  obtain ⟨c, hc, hsome⟩ := List.mem_filterMap.1 hq
  exact hpaint c hc q hsome

end Panel

/-- If all widths are the same, all that storing does to a paint is to round its color. -/
theorem Paint.normal_eq_rounded {paints : List Paint} {width : Binary32}
    (h : ∀ q ∈ paints, q.strokeWidth = width) {p : Paint} (hp : p ∈ paints) :
    p.normal paints = p.rounded := by
  -- the first paint that agrees is one of them, and so has the same width
  have hwidth : (p.firstIn paints).strokeWidth = p.strokeWidth :=
    (h _ (firstIn_mem hp)).trans (h p hp).symm
  unfold Paint.normal Paint.rounded
  rw [hwidth]

/-- Commands that are changed one by one are carried out like the others if each of them is. -/
theorem Command.forM_map_perform {σ : Type} {canvas other : Canvas σ} {change : Command → Command}
    {commands : List Command}
    (h : ∀ c ∈ commands, (change c).perform canvas = c.perform other) :
    forM (commands.map change) (perform canvas) = forM commands (perform other) := by
  induction commands with
  | nil => rfl
  | cons c commands ih =>
      rw [List.map_cons, List.forM_cons, List.forM_cons, h c List.mem_cons_self,
        ih fun d hd => h d (List.mem_cons_of_mem c hd)]

/-- If all widths are the same, what is left of a picture is drawn like the picture itself, but in
rounded colors. -/
theorem Picture.playback_normal {p : Picture} {width : Binary32}
    (h : ∀ q ∈ p.paints, q.strokeWidth = width) {σ : Type} (canvas : Canvas σ) :
    p.normal.playback canvas = p.playback canvas.roundingColors := by
  have hperform : ∀ c ∈ p.commands, (c.normal p.paints).perform canvas =
      c.perform canvas.roundingColors := by
    intro c hc
    cases c with
    | drawRect rect paint =>
        have hmem : paint ∈ p.paints := Command.mem_paintsOf.2 ⟨rect, hc⟩
        simp only [Command.normal, Paint.normal_eq_rounded h hmem]
        rfl
    | save => rfl
    | restore => rfl
    | translate v => rfl
    | annotate area key value => rfl
  exact Command.forM_map_perform hperform

/-! ### Recording and playing back -/

/-- **Recording and playing back is drawing.**  Drawing a panel on a new recorder gives a picture;
playing it back on a surface is the same action as drawing the panel on it: the calls are the same,
and so are the state that is left and the failure, if there is one.  If every number is finite and
the picture can be stored, then what is loaded again is drawn in the same way in rounded colors. -/
theorem Panel.playback_capture (p : Panel) (paint : Paint) (bounds : Rect) :
    ∃ picture : Picture,
      (∀ {σ : Type} (s : σ) (j : Journal), ∃ j',
        (Recorder.capture bounds (p.draw .recording paint)).outcome s j =
          ((.ok picture, s), j')) ∧
      (∀ {σ : Type} (canvas : Canvas σ),
        picture.playback canvas = p.draw canvas paint ∧
        picture.playback canvas.watched = p.draw canvas.watched paint) ∧
      (bounds.isFinite = true → p.isFinite = true → paint.strokeWidth.isFinite = true →
        ∀ body d, picture.body = .ok body → body.commands.length < UInt32.size →
          picture.encode = .ok d →
        ∃ q, Picture.decode d = .ok q ∧ ∀ {σ : Type} (canvas : Canvas σ),
          q.playback canvas = p.draw canvas.roundingColors paint ∧
          q.playback canvas.watched = p.draw canvas.watched.roundingColors paint) := by
  have hplayback : ∀ {σ : Type} (canvas : Canvas σ),
      (Picture.mk bounds (p.commands paint)).playback canvas = p.draw canvas paint :=
    fun canvas => (p.draw_eq_forM canvas paint).symm
  refine ⟨⟨bounds, p.commands paint⟩, ?_, ?_, ?_⟩
  · intro σ s j
    rw [draw_eq_forM]
    exact Recorder.exists_outcome_capture_of_balanced (p.balanced_commands paint) bounds s j
  · exact fun canvas => ⟨hplayback canvas, hplayback canvas.watched⟩
  · intro hbounds hp hwidth body d hbody hlength hd
    have hfinite : (Picture.mk bounds (p.commands paint)).isFinite = true := by
      have hcommands := isFinite_of_mem_commands hp hwidth
      simp only [Picture.isFinite, hbounds, Bool.true_and, List.all_eq_true]
      exact hcommands
    -- all that storing does to this picture is to round the colors of its paints
    obtain ⟨body', hbody', rfl⟩ := Picture.encode_eq_ok_iff.1 hd
    rw [hbody] at hbody'
    cases hbody'
    have hdecode := Picture.decode_withHead hbody hlength
    rw [hfinite] at hdecode
    have hwidths : ∀ q ∈ (Picture.mk bounds (p.commands paint)).paints,
        q.strokeWidth = paint.strokeWidth := strokeWidth_of_mem_paintsOf
    refine ⟨_, hdecode, fun canvas => ⟨?_, ?_⟩⟩
    · rw [Picture.playback_normal hwidths, hplayback]
    · rw [Picture.playback_normal hwidths, hplayback]

/-- A panel in a color that is between two packed ones, with another panel in it.  The offset of the
outer one is not a number. -/
def Panel.betweenBytes : Panel :=
  .node ⟨1, "outer", 100, 50, ⟨⟨0x7fc00000⟩, 0⟩, ⟨⟨1 / 2, by decide +kernel⟩, .zero, .zero, .one⟩⟩
    [.node ⟨2, "inner", 10, 10, ⟨5, 1 / 2⟩, .black⟩ []]

/-- It can be recorded, stored and loaded; the rounding of its color is seen. -/
theorem Panel.playback_capture_betweenBytes :
    ∃ picture d q, (∃ j', (Recorder.capture ⟨0, 0, 100, 50⟩
        (betweenBytes.draw .recording (.fill .black))).outcome () #[] = ((.ok picture, ()), j')) ∧
      picture.encode = .ok d ∧ Picture.decode d = .ok q ∧
      betweenBytes.face.color ≠ .ofArgb betweenBytes.face.color.toArgb ∧
      ∀ {σ : Type} (canvas : Canvas σ),
        q.playback canvas = betweenBytes.draw canvas.roundingColors (.fill .black) := by
  obtain ⟨picture, hcapture, -, hstored⟩ :=
    playback_capture betweenBytes (.fill .black) ⟨0, 0, 100, 50⟩
  obtain ⟨j, hrun⟩ := hcapture () #[]
  obtain ⟨j', hcommands⟩ := Recorder.exists_outcome_capture_of_balanced
    (betweenBytes.balanced_commands (.fill .black)) ⟨0, 0, 100, 50⟩ () #[]
  rw [← draw_eq_forM, hrun] at hcommands
  cases hcommands
  have hsize : ∀ c ∈ betweenBytes.commands (.fill .black), c.size ≤ Command.largestSize := by
    decide +kernel
  have hbody := (Picture.body_eq_ok_iff (p := ⟨⟨0, 0, 100, 50⟩, _⟩)).2 ⟨hsize, rfl⟩
  have hlength : (Command.pieces [] (betweenBytes.commands (.fill .black))).flatten.length <
      UInt32.size := by
    rw [Command.length_flatten_pieces]
    decide +kernel
  have hencode := Picture.encode_eq_ok_iff.2 ⟨_, hbody, rfl⟩
  obtain ⟨q, hdecode, hplayed⟩ := hstored (by decide +kernel) (by decide +kernel)
    (by decide +kernel) _ _ hbody hlength hencode
  exact ⟨_, _, q, ⟨j, hrun⟩, hencode, hdecode, by decide +kernel,
    fun canvas => (hplayed canvas).1⟩

end PictureTape

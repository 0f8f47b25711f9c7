/-
**What drawing a panel comes to.**

Drawing a panel walks through a tree and stops at the first failure.  It comes to carrying out a list
of commands in order, up to the first that fails, and the list does not depend on the surface.  The
saves and restores in it are brackets that match.

Main definitions:

* `Panel.commands`, `Panel.commandsInside` — the commands that a panel comes to, as the outermost
  one and inside another one;
* `Command.Balanced` — lists of commands in which saves and restores match.

Main results:

* `Panel.draw_eq_forM` — **drawing a panel is carrying out its commands, on every surface;**
* `Panel.balanced_commands` — the commands of a panel are balanced.
-/

import PictureTape.Panel.Drawing

set_option autoImplicit false
set_option relaxedAutoImplicit false

namespace PictureTape

/-! ### The commands of a panel -/

namespace Face

/-- The command that puts one of the two markers of a panel at its rectangle. -/
def markCommand (side : Side) (f : Face) : Command :=
  .annotate f.localRect (f.marker side).text none

/-- The command that fills the rectangle of a panel. -/
def fillCommand (paint : Paint) (f : Face) : Command :=
  .drawRect f.localRect (paint.withColor f.color)

end Face

namespace Panel

mutual

/-- The commands of a panel inside another one. -/
def commandsInside (paint : Paint) : Panel → List Command
  | node face children =>
    face.markCommand .opening :: .save :: .translate face.offset :: face.fillCommand paint ::
      (commandsOfAll paint children ++ [.restore, face.markCommand .closing])

/-- The commands of a row of panels inside another one. -/
def commandsOfAll (paint : Paint) : List Panel → List Command
  | [] => []
  | p :: ps => commandsInside paint p ++ commandsOfAll paint ps

end

/-- The commands of a panel at the origin of the coordinate space. -/
def commands (paint : Paint) (p : Panel) : List Command :=
  p.face.markCommand .opening :: p.face.fillCommand paint ::
    (commandsOfAll paint p.children ++ [p.face.markCommand .closing])

/-! ### Drawing is carrying out commands -/

variable {σ : Type}

mutual

theorem drawInside_eq_forM (canvas : Canvas σ) (paint : Paint) (p : Panel) :
    drawInside canvas paint p = forM (commandsInside paint p) (Command.perform canvas) := by
  cases p with
  | node face children =>
      rw [drawInside, drawAll_eq_forM canvas paint children, commandsInside]
      simp only [List.forM_cons, List.forM_append, List.forM_nil, bind_pure_unit]
      rfl

/-- A row of panels is drawn by carrying out their commands one after the other. -/
theorem drawAll_eq_forM (canvas : Canvas σ) (paint : Paint) (ps : List Panel) :
    drawAll canvas paint ps = forM (commandsOfAll paint ps) (Command.perform canvas) := by
  cases ps with
  | nil => rfl
  | cons p ps =>
      rw [drawAll, drawInside_eq_forM canvas paint p, drawAll_eq_forM canvas paint ps,
        commandsOfAll, List.forM_append]

end

/-- **Drawing a panel is carrying out its commands,** on every surface: the same actions in the same
order, up to the first that fails. -/
theorem draw_eq_forM (canvas : Canvas σ) (paint : Paint) (p : Panel) :
    p.draw canvas paint = forM (p.commands paint) (Command.perform canvas) := by
  rw [draw, drawAll_eq_forM canvas paint p.children, commands]
  simp only [List.forM_cons, List.forM_append, List.forM_nil, bind_pure_unit]
  rfl

end Panel

/-! ### What the commands are made of -/

namespace Panel

variable {P : Command → Prop} {paint : Paint}

mutual

/-- Every command of a panel inside another one is a bracket or comes from one of the faces. -/
theorem forall_mem_commandsInside (hsave : P .save) (hrestore : P .restore) (p : Panel)
    (hfaces : ∀ f ∈ p.faces, (∀ side, P (f.markCommand side)) ∧ P (f.fillCommand paint) ∧
      P (.translate f.offset)) : ∀ c ∈ commandsInside paint p, P c := by
  cases p with
  | node face children =>
      obtain ⟨hmark, hfill, htranslate⟩ := hfaces face List.mem_cons_self
      have hinside := forall_mem_commandsOfAll hsave hrestore children
        fun f hf => hfaces f (List.mem_cons_of_mem face hf)
      intro c hc
      simp only [commandsInside, List.mem_cons, List.mem_append, List.not_mem_nil, or_false] at hc
      rcases hc with rfl | rfl | rfl | rfl | hc | rfl | rfl
      · exact hmark .opening
      · exact hsave
      · exact htranslate
      · exact hfill
      · exact hinside c hc
      · exact hrestore
      · exact hmark .closing

theorem forall_mem_commandsOfAll (hsave : P .save) (hrestore : P .restore) (ps : List Panel)
    (hfaces : ∀ f ∈ facesOfAll ps, (∀ side, P (f.markCommand side)) ∧ P (f.fillCommand paint) ∧
      P (.translate f.offset)) : ∀ c ∈ commandsOfAll paint ps, P c := by
  cases ps with
  | nil => exact fun _ hc => absurd hc List.not_mem_nil
  | cons p ps =>
      intro c hc
      rcases List.mem_append.1 hc with hc | hc
      · exact forall_mem_commandsInside hsave hrestore p
          (fun f hf => hfaces f (List.mem_append_left _ hf)) c hc
      · exact forall_mem_commandsOfAll hsave hrestore ps
          (fun f hf => hfaces f (List.mem_append_right _ hf)) c hc

end

/-- The offset of the outermost panel is not among the commands. -/
theorem forall_mem_commands (hsave : P .save) (hrestore : P .restore) (p : Panel)
    (hfaces : ∀ f ∈ p.faces, (∀ side, P (f.markCommand side)) ∧ P (f.fillCommand paint))
    (hinside : ∀ f ∈ facesOfAll p.children, P (.translate f.offset)) :
    ∀ c ∈ p.commands paint, P c := by
  cases p with
  | node face children =>
      obtain ⟨hmark, hfill⟩ := hfaces face List.mem_cons_self
      have hchildren : ∀ c ∈ commandsOfAll paint children, P c := by
        refine forall_mem_commandsOfAll hsave hrestore children fun f hf => ?_
        obtain ⟨hmark, hfill⟩ := hfaces f (List.mem_cons_of_mem face hf)
        exact ⟨hmark, hfill, hinside f hf⟩
      intro c hc
      simp only [commands, Panel.face, Panel.children, List.mem_cons, List.mem_append,
        List.not_mem_nil, or_false] at hc
      rcases hc with rfl | rfl | hc | rfl
      · exact hmark .opening
      · exact hfill
      · exact hchildren c hc
      · exact hmark .closing

end Panel

/-! ### Brackets -/

namespace Command

/-- The saves and restores in a list of commands are brackets that match. -/
inductive Balanced : List Command → Prop
  | nil : Balanced []
  | plain {c : Command} {commands : List Command} (hsave : c ≠ save) (hrestore : c ≠ restore)
      (h : Balanced commands) : Balanced (c :: commands)
  | bracket {inside commands : List Command} (hinside : Balanced inside)
      (h : Balanced commands) : Balanced (save :: (inside ++ restore :: commands))

theorem Balanced.append {commands others : List Command} (h : Balanced commands)
    (hothers : Balanced others) : Balanced (commands ++ others) := by
  induction h with
  | nil => exact hothers
  | plain hsave hrestore _ ih => exact .plain hsave hrestore ih
  | bracket hinside _ _ ih =>
      rw [List.cons_append, List.append_assoc, List.cons_append]
      exact .bracket hinside ih

end Command

open Command (Balanced)

theorem Face.balanced_mark (side : Side) (f : Face) {commands : List Command}
    (h : Balanced commands) : Balanced (f.markCommand side :: commands) :=
  .plain nofun nofun h

theorem Face.balanced_fill (paint : Paint) (f : Face) {commands : List Command}
    (h : Balanced commands) : Balanced (f.fillCommand paint :: commands) :=
  .plain nofun nofun h

namespace Panel

mutual

theorem balanced_commandsInside (paint : Paint) (p : Panel) :
    Balanced (commandsInside paint p) := by
  cases p with
  | node face children =>
      have hinside := face.balanced_fill paint (balanced_commandsOfAll paint children)
      have htranslated : Balanced (.translate face.offset :: face.fillCommand paint ::
        commandsOfAll paint children) := .plain nofun nofun hinside
      rw [commandsInside]
      exact face.balanced_mark .opening (.bracket htranslated (face.balanced_mark .closing .nil))

theorem balanced_commandsOfAll (paint : Paint) (ps : List Panel) :
    Balanced (commandsOfAll paint ps) := by
  cases ps with
  | nil => exact .nil
  | cons p ps =>
      rw [commandsOfAll]
      exact (balanced_commandsInside paint p).append (balanced_commandsOfAll paint ps)

end

/-- The commands of a panel are balanced. -/
theorem balanced_commands (paint : Paint) (p : Panel) : Balanced (p.commands paint) := by
  have hclosing := p.face.balanced_mark .closing .nil
  have hinside := (balanced_commandsOfAll paint p.children).append hclosing
  exact p.face.balanced_mark .opening (p.face.balanced_fill paint hinside)

end Panel

end PictureTape

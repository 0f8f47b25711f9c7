/-
**Coordinate spaces along a list of commands.**

A surface that keeps an origin and a stack of saved origins goes through one coordinate space after
the other while it carries out commands.  Which they are depends on the commands alone, and on how
numbers are added; every surface that keeps an origin in this way can be described by what it makes
of the commands and of the spaces in which it meets them.

Main definitions:

* `Offset.plus`, `Rect.shifted` — sums by components, for any addition of numbers;
* `PictureTape.Space`, `Space.after?` — an origin and the saved ones, and what a command makes of
  them;
* `PictureTape.Sighting`, `Space.track` — a command and the space in which it is met, for all
  commands of a list;
* `Canvas.tracingWith` — the surface that lists what is drawn where, for any addition of numbers;
* `Canvas.surveying` — the surface that lists every command with the space in which it is met;
* `Panel.sightings` — what is seen of a panel.

Main results:

* `Canvas.tracingWith_add` — with the sum of numbers this is the surface of the program;
* `Space.outcome_forM_of_track` — **what a surface makes of the commands that are tracked;**
* `Panel.track_commands` — **behind a panel, the space is what it was before it.**
-/

import PictureTape.Canvas.Trace
import PictureTape.Proofs.Recording

set_option autoImplicit false
set_option relaxedAutoImplicit false

namespace PictureTape

/-! ### Sums by components -/

/-- The sum of two offsets, when numbers are added in the given way. -/
def Offset.plus (add : Binary32 → Binary32 → Binary32) (a b : Offset) : Offset :=
  ⟨add a.x b.x, add a.y b.y⟩

/-- The rectangle shifted by an offset, when numbers are added in the given way. -/
def Rect.shifted (add : Binary32 → Binary32 → Binary32) (r : Rect) (v : Offset) : Rect :=
  ⟨add r.x v.x, add r.y v.y, r.width, r.height⟩

/-! ### Spaces and what is seen in them -/

/-- The origin of a coordinate space, and those that were saved, the last one first. -/
structure Space where
  origin : Offset
  saved : List Offset
deriving DecidableEq, Repr

/-- A command, and the space in which it is met. -/
structure Sighting where
  space : Space
  command : Command
deriving DecidableEq, Repr

namespace Space

variable (add : Binary32 → Binary32 → Binary32)

/-- The space behind a command; there is none behind a restore without a saved origin. -/
def after? (s : Space) : Command → Option Space
  | .save => some { s with saved := s.origin :: s.saved }
  | .restore =>
    match s.saved with
    | [] => none
    | origin :: saved => some ⟨origin, saved⟩
  | .translate v => some { s with origin := s.origin.plus add v }
  | .drawRect _ _ => some s
  | .annotate _ _ _ => some s

/-- The commands with the spaces in which they are met, and the space behind the last one. -/
def track (s : Space) : List Command → Option (List Sighting × Space)
  | [] => some ([], s)
  | c :: commands =>
    match s.after? add c with
    | none => none
    | some next =>
      match next.track commands with
      | none => none
      | some (seen, last) => some (⟨s, c⟩ :: seen, last)

variable {add}

theorem track_cons {s next last : Space} {c : Command} {commands : List Command}
    {seen : List Sighting} (h : s.after? add c = some next)
    (htrack : next.track add commands = some (seen, last)) :
    s.track add (c :: commands) = some (⟨s, c⟩ :: seen, last) := by
  rw [track, h]
  simp only [htrack]

theorem track_append {s next last : Space} {commands others : List Command}
    {seen seen' : List Sighting} (h : s.track add commands = some (seen, next))
    (hothers : next.track add others = some (seen', last)) :
    s.track add (commands ++ others) = some (seen ++ seen', last) := by
  induction commands generalizing s seen with
  | nil =>
      cases h
      exact hothers
  | cons c commands ih =>
      simp only [track] at h
      split at h
      · cases h
      · next middle hafter =>
        split at h
        · cases h
        · next seen₁ next₁ htrack =>
          cases h
          exact track_cons hafter (ih htrack)

/-- The commands that are seen are those that are tracked. -/
theorem map_command_of_track {s last : Space} {commands : List Command} {seen : List Sighting}
    (h : s.track add commands = some (seen, last)) : seen.map Sighting.command = commands := by
  induction commands generalizing s seen with
  | nil =>
      cases h
      rfl
  | cons c commands ih =>
      simp only [track] at h
      split at h
      · cases h
      · split at h
        · cases h
        · next htrack =>
          cases h
          rw [List.map_cons, ih htrack]

/-- **What a surface makes of the commands that are tracked.**  If the state of a surface is a
function of the current space and of what was seen so far, and stays so with each command, then this
is how it ends. -/
theorem outcome_forM_of_track {σ : Type} (canvas : Canvas σ) (state : List Sighting → Space → σ)
    (hstep : ∀ seen s next c j, after? add s c = some next →
      (c.perform canvas).outcome (state seen s) j = ((.ok (), state (seen ++ [⟨s, c⟩]) next), j))
    {s last : Space} {commands : List Command} {seen : List Sighting}
    (h : s.track add commands = some (seen, last)) (before : List Sighting) (j : Journal) :
    Action.outcome (forM commands (Command.perform canvas)) (state before s) j =
      ((.ok (), state (before ++ seen) last), j) := by
  induction commands generalizing s seen before with
  | nil =>
      cases h
      rw [List.append_nil]
      rfl
  | cons c commands ih =>
      simp only [track] at h
      split at h
      · cases h
      · next next hafter =>
        split at h
        · cases h
        · next seen₁ last₁ htrack =>
          cases h
          rw [List.forM_cons, Action.outcome_bind_of_ok (hstep before s next c j hafter),
            ih htrack, List.append_assoc, List.singleton_append]

end Space

/-! ### The surface that lists its calls -/

/-- What the surface that lists its calls makes of a command that it meets. -/
def Sighting.call (add : Binary32 → Binary32 → Binary32) (s : Sighting) : Call :=
  match s.command with
  | .save => .save
  | .restore => .restore
  | .translate v => .translate v
  | .drawRect rect paint => .drawRect (rect.shifted add s.space.origin) paint
  | .annotate area key value => .annotate area key value

namespace Canvas

variable (add : Binary32 → Binary32 → Binary32)

/-- The surface that lists its calls, when numbers are added in the given way. -/
def tracingWith : Canvas Trace where
  save := modify fun t => { t with saved := t.origin :: t.saved }.list .save
  restore := do
    match (← get).saved with
    | [] => throw .unbalancedRestore
    | origin :: saved => modify fun t => { t with origin, saved }.list .restore
  translate dx dy := modify fun t =>
    { t with origin := t.origin.plus add ⟨dx, dy⟩ }.list (.translate ⟨dx, dy⟩)
  drawRect rect paint := modify fun t => t.list (.drawRect (rect.shifted add t.origin) paint)
  annotate area key value := modify fun t => t.list (.annotate area key value)
  openSaves t := t.saved.length

/-- With the sum of numbers this is the surface of the program. -/
theorem tracingWith_add : tracingWith (· + ·) = tracing := rfl

/-- What the listing surface makes of the commands that are tracked. -/
theorem outcome_forM_tracingWith {s last : Space} {commands : List Command} {seen : List Sighting}
    (h : s.track add commands = some (seen, last)) (calls : Array Call) (j : Journal) :
    Action.outcome (forM commands (Command.perform (tracingWith add)))
        ⟨s.origin, s.saved, calls⟩ j =
      ((.ok (), ⟨last.origin, last.saved, calls ++ (seen.map (Sighting.call add)).toArray⟩),
        j) := by
  have hrun := Space.outcome_forM_of_track (tracingWith add)
    (fun seen s => ⟨s.origin, s.saved, calls ++ (seen.map (Sighting.call add)).toArray⟩) ?_ h [] j
  · simpa using hrun
  intro seen s next c j hafter
  have hcalls : ∀ call, (calls ++ (seen.map (Sighting.call add)).toArray).push call =
      calls ++ (seen.map (Sighting.call add) ++ [call]).toArray := by simp
  simp only [List.map_append, List.map_cons, List.map_nil, ← hcalls]
  cases c with
  | save =>
      cases hafter
      rfl
  | restore =>
      obtain ⟨origin, saved⟩ := s
      cases saved with
      | nil => cases hafter
      | cons origin' saved =>
          cases hafter
          rfl
  | translate v =>
      cases hafter
      rfl
  | drawRect rect paint =>
      cases hafter
      rfl
  | annotate area key value =>
      cases hafter
      rfl

end Canvas

/-! ### The surface that lists where it meets its commands -/

/-- The coordinate space of a surface, those that are remembered, and all that was met so far. -/
structure Survey where
  space : Space
  seen : List Sighting

/-- Changes the space and adds a command to the list. -/
def Survey.meet (command : Command) (next : Space) (s : Survey) : Survey :=
  ⟨next, s.seen ++ [⟨s.space, command⟩]⟩

namespace Canvas

variable (add : Binary32 → Binary32 → Binary32)

/-- The surface that lists every command with the space in which it meets it, when numbers are added
in the given way. -/
def surveying : Canvas Survey where
  save := modify fun s => s.meet .save { s.space with saved := s.space.origin :: s.space.saved }
  restore := do
    match (← get).space.saved with
    | [] => throw .unbalancedRestore
    | origin :: saved => modify fun s => s.meet .restore ⟨origin, saved⟩
  translate dx dy := modify fun s =>
    s.meet (.translate ⟨dx, dy⟩) { s.space with origin := s.space.origin.plus add ⟨dx, dy⟩ }
  drawRect rect paint := modify fun s => s.meet (.drawRect rect paint) s.space
  annotate area key value := modify fun s => s.meet (.annotate area key value) s.space
  openSaves s := s.space.saved.length

/-- What the surveying surface makes of the commands that are tracked. -/
theorem outcome_forM_surveying {s last : Space} {commands : List Command} {seen : List Sighting}
    (h : s.track add commands = some (seen, last)) (j : Journal) :
    Action.outcome (forM commands (Command.perform (surveying add))) ⟨s, []⟩ j =
      ((.ok (), ⟨last, seen⟩), j) := by
  refine Space.outcome_forM_of_track (surveying add) (fun seen s => ⟨s, seen⟩) ?_ h [] j
  intro seen s next c j hafter
  cases c with
  | save =>
      cases hafter
      rfl
  | restore =>
      obtain ⟨origin, saved⟩ := s
      cases saved with
      | nil => cases hafter
      | cons origin' saved =>
          cases hafter
          rfl
  | translate v =>
      cases hafter
      rfl
  | drawRect rect paint =>
      cases hafter
      rfl
  | annotate area key value =>
      cases hafter
      rfl

end Canvas

/-! ### What is seen of a panel -/

namespace Panel

variable (add : Binary32 → Binary32 → Binary32) (paint : Paint)

mutual

/-- What is seen of a panel inside another one that is met in the space `s`. -/
def sightingsInside (s : Space) : Panel → List Sighting
  | node face children =>
    let inside : Space := ⟨s.origin.plus add face.offset, s.origin :: s.saved⟩
    ⟨s, face.markCommand .opening⟩ :: ⟨s, .save⟩ ::
      ⟨⟨s.origin, s.origin :: s.saved⟩, .translate face.offset⟩ ::
        ⟨inside, face.fillCommand paint⟩ ::
          (sightingsOfAll inside children ++ [⟨inside, .restore⟩, ⟨s, face.markCommand .closing⟩])

/-- What is seen of a row of panels inside another one. -/
def sightingsOfAll (s : Space) : List Panel → List Sighting
  | [] => []
  | p :: ps => sightingsInside s p ++ sightingsOfAll s ps

end

/-- What is seen of a panel as the outermost one. -/
def sightings (s : Space) (p : Panel) : List Sighting :=
  ⟨s, p.face.markCommand .opening⟩ :: ⟨s, p.face.fillCommand paint⟩ ::
    (sightingsOfAll add paint s p.children ++ [⟨s, p.face.markCommand .closing⟩])

mutual

/-- Behind a panel inside another one, the space is what it was before it. -/
theorem track_commandsInside (s : Space) (p : Panel) :
    s.track add (commandsInside paint p) = some (sightingsInside add paint s p, s) := by
  cases p with
  | node face children =>
      have hchildren := track_commandsOfAll
        ⟨s.origin.plus add face.offset, s.origin :: s.saved⟩ children
      have hend : Space.track add ⟨s.origin.plus add face.offset, s.origin :: s.saved⟩
          [.restore, face.markCommand .closing] =
          some ([⟨⟨s.origin.plus add face.offset, s.origin :: s.saved⟩, .restore⟩,
            ⟨s, face.markCommand .closing⟩], s) := rfl
      rw [commandsInside, sightingsInside]
      exact Space.track_cons rfl (Space.track_cons rfl (Space.track_cons rfl
        (Space.track_cons rfl (Space.track_append hchildren hend))))

theorem track_commandsOfAll (s : Space) (ps : List Panel) :
    s.track add (commandsOfAll paint ps) = some (sightingsOfAll add paint s ps, s) := by
  cases ps with
  | nil => rfl
  | cons p ps =>
      rw [commandsOfAll, sightingsOfAll]
      exact Space.track_append (track_commandsInside s p) (track_commandsOfAll s ps)

end

/-- Behind a panel, the space is what it was before it. -/
theorem track_commands (s : Space) (p : Panel) :
    s.track add (p.commands paint) = some (p.sightings add paint s, s) := by
  have hclosing : s.track add [p.face.markCommand .closing] =
      some ([⟨s, p.face.markCommand .closing⟩], s) := rfl
  exact Space.track_cons rfl (Space.track_cons rfl
    (Space.track_append (track_commandsOfAll add paint s p.children) hclosing))

end Panel

end PictureTape

/-
**The tree of panels rebuilt from its markers.**

Whoever reads what a panel has drawn, in order and with a stack, learns from the markers alone which
panels there are and which one is around which: an opening marker goes on the stack, and a closing
marker takes the opening one from it.  The reader here is strict.  It gives up at a key that is no
marker, at an annotation with a value, at a closing marker without its own opening marker on top of
the stack, and unless one rectangle is filled between each opening marker and the next marker.

Main definitions:

* `PictureTape.Outline`, `PictureTape.Figure` — what the opening marker of a panel tells, and that
  with the rectangle that was filled for it;
* `PictureTape.OpenMarker` — an opening marker on the stack, with its place and its space;
* `PictureTape.Nesting`, `Nesting.next` — the reader, and one step of it.

Main results:

* `Nesting.next_opening`, `Nesting.next_fill`, `Nesting.next_closing` — the steps at a panel;
* `Panel.foldlM_sightingsInside` — a panel inside another one leaves the stack as it was;
* `Panel.draw_surveying` — **the markers alone rebuild the tree.**
-/

import PictureTape.Panel.Placement
import PictureTape.Proofs.MarkerText
import PictureTape.Proofs.Spaces

set_option autoImplicit false
set_option relaxedAutoImplicit false

namespace PictureTape

/-! ### The reader -/

/-- What the opening marker of a panel tells. -/
structure Outline where
  id : UInt64
  name : String
  /-- The identifier of the opening marker below it on the stack. -/
  parent : Option UInt64
  area : Rect
deriving DecidableEq, Repr

/-- An outline, and the rectangle that was filled for it. -/
structure Figure extends Outline where
  rect : Rect
  paint : Paint
deriving DecidableEq, Repr

/-- An opening marker that was not closed yet. -/
structure OpenMarker where
  id : UInt64
  name : String
  area : Rect
  /-- The coordinate space in which it was met. -/
  space : Space
deriving DecidableEq, Repr

/-- What a reader of markers knows. -/
structure Nesting where
  /-- The stack of the markers that are open, the innermost first. -/
  opened : List OpenMarker
  /-- The outline for which no rectangle was filled yet, if the last marker was an opening one. -/
  unfilled : Option Outline
  figures : List Figure
deriving DecidableEq, Repr

namespace Nesting

/-- A reader that has read nothing. -/
def start : Nesting := ⟨[], none, []⟩

/-- Reads a marker. -/
def mark? (n : Nesting) (area : Rect) (space : Space) (m : NodeMarker) : Option Nesting :=
  match n.unfilled, m.side with
  | some _, _ => none
  | none, .opening => some
    { n with
      opened := ⟨m.id, m.name, area, space⟩ :: n.opened
      unfilled := some ⟨m.id, m.name, n.opened.head?.map OpenMarker.id, area⟩ }
  | none, .closing =>
    match n.opened with
    | [] => none
    | top :: below =>
      if top = ⟨m.id, m.name, area, space⟩ then some { n with opened := below } else none

/-- Reads a filled rectangle. -/
def fill? (n : Nesting) (rect : Rect) (paint : Paint) : Option Nesting :=
  n.unfilled.map fun outline =>
    { n with unfilled := none, figures := n.figures ++ [⟨outline, rect, paint⟩] }

/-- Reads a command. -/
def next (n : Nesting) (s : Sighting) : Option Nesting :=
  match s.command with
  | .annotate area key none => (NodeMarker.parse? key).bind (n.mark? area s.space)
  | .annotate _ _ (some _) => none
  | .drawRect rect paint => n.fill? rect paint
  | .save => some n
  | .restore => some n
  | .translate _ => some n

end Nesting

/-! ### The steps at a panel -/

namespace Face

/-- The outline of the panel when it is inside the panel `parent`. -/
def outline (f : Face) (parent : Option UInt64) : Outline := ⟨f.id, f.name, parent, f.localRect⟩

/-- The opening marker of the panel when it is met in the space `s`. -/
def openMarker (f : Face) (s : Space) : OpenMarker := ⟨f.id, f.name, f.localRect, s⟩

/-- The figure of the panel when it is inside the panel `parent`. -/
def figure (f : Face) (parent : Option UInt64) (paint : Paint) : Figure :=
  ⟨f.outline parent, f.localRect, { paint with color := f.color }⟩

end Face

/-- The figure of a placed panel. -/
def Placement.figure (paint : Paint) (q : Placement) : Figure := q.face.figure q.parent paint

namespace Nesting

theorem foldlM_cons {n n' : Nesting} {t : Sighting} (h : n.next t = some n')
    (seen : List Sighting) : (t :: seen).foldlM next n = seen.foldlM next n' := by
  rw [List.foldlM_cons, h]
  rfl

theorem foldlM_append {n n' : Nesting} {front : List Sighting}
    (h : front.foldlM next n = some n') (seen : List Sighting) :
    (front ++ seen).foldlM next n = seen.foldlM next n' := by
  rw [List.foldlM_append, h]
  rfl

theorem next_save (n : Nesting) (s : Space) : n.next ⟨s, .save⟩ = some n := rfl

theorem next_restore (n : Nesting) (s : Space) : n.next ⟨s, .restore⟩ = some n := rfl

theorem next_translate (n : Nesting) (s : Space) (v : Offset) :
    n.next ⟨s, .translate v⟩ = some n := rfl

variable {f : Face} {s : Space} {opened : List OpenMarker} {figures : List Figure}

theorem next_markCommand (h : '\'' ∉ f.name.toList) (n : Nesting) (side : Side) :
    n.next ⟨s, f.markCommand side⟩ = n.mark? f.localRect s (f.marker side) := by
  have hparse : NodeMarker.parse? (f.marker side).text = some (f.marker side) :=
    NodeMarker.parse?_text h
  rw [next, Face.markCommand]
  simp only [hparse, Option.bind_some]

/-- The opening marker of a panel goes on the stack. -/
theorem next_opening (h : '\'' ∉ f.name.toList) :
    next ⟨opened, none, figures⟩ ⟨s, f.markCommand .opening⟩ =
      some ⟨f.openMarker s :: opened, some (f.outline (opened.head?.map OpenMarker.id)), figures⟩ :=
  next_markCommand h ..

/-- The rectangle of the panel completes its figure. -/
theorem next_fill (parent : Option UInt64) (paint : Paint) :
    next ⟨opened, some (f.outline parent), figures⟩ ⟨s, f.fillCommand paint⟩ =
      some ⟨opened, none, figures ++ [f.figure parent paint]⟩ := rfl

/-- The closing marker of the panel takes the opening one from the stack. -/
theorem next_closing (h : '\'' ∉ f.name.toList) :
    next ⟨f.openMarker s :: opened, none, figures⟩ ⟨s, f.markCommand .closing⟩ =
      some ⟨opened, none, figures⟩ :=
  (next_markCommand h ..).trans (if_pos rfl)

end Nesting

/-! ### Reading a panel -/

namespace Panel

variable (add : Binary32 → Binary32 → Binary32) (paint : Paint)

mutual

/-- A panel inside another one leaves the stack as it was, and adds the figures of its
placements. -/
theorem foldlM_sightingsInside (origin : Offset) (s : Space) (p : Panel)
    (h : ∀ f ∈ p.faces, '\'' ∉ f.name.toList) (opened : List OpenMarker) (figures : List Figure) :
    (sightingsInside add paint s p).foldlM Nesting.next ⟨opened, none, figures⟩ =
      some ⟨opened, none, figures ++
        (p.placementsAt (opened.head?.map OpenMarker.id) origin).map (Placement.figure paint)⟩ := by
  cases p with
  | node face children =>
      have hface := h face List.mem_cons_self
      have hrow := foldlM_sightingsOfAll origin
        ⟨s.origin.plus add face.offset, s.origin :: s.saved⟩ children
        (fun f hf => h f (List.mem_cons_of_mem face hf)) (face.openMarker s) opened
      rw [sightingsInside, Nesting.foldlM_cons (Nesting.next_opening hface),
        Nesting.foldlM_cons (Nesting.next_save ..), Nesting.foldlM_cons (Nesting.next_translate ..),
        Nesting.foldlM_cons (Nesting.next_fill _ paint), Nesting.foldlM_append (hrow _),
        Nesting.foldlM_cons (Nesting.next_restore ..),
        Nesting.foldlM_cons (Nesting.next_closing hface), List.append_assoc]
      rfl

theorem foldlM_sightingsOfAll (origin : Offset) (s : Space) (ps : List Panel)
    (h : ∀ f ∈ facesOfAll ps, '\'' ∉ f.name.toList) (top : OpenMarker) (below : List OpenMarker)
    (figures : List Figure) :
    (sightingsOfAll add paint s ps).foldlM Nesting.next ⟨top :: below, none, figures⟩ =
      some ⟨top :: below, none, figures ++
        (placementsInside top.id origin ps).map (Placement.figure paint)⟩ := by
  cases ps with
  | nil => rw [placementsInside, List.map_nil, List.append_nil]; rfl
  | cons p ps =>
      have hp := foldlM_sightingsInside (origin + p.face.offset) s p
        (fun f hf => h f (List.mem_append_left _ hf)) (top :: below) figures
      have hps := foldlM_sightingsOfAll origin s ps (fun f hf => h f (List.mem_append_right _ hf))
        top below (figures ++
          (p.placementsAt (some top.id) (origin + p.face.offset)).map (Placement.figure paint))
      rw [sightingsOfAll, placementsInside, List.foldlM_append, hp, List.map_append,
        ← List.append_assoc]
      exact hps

end

/-- Reading a panel with an empty stack, one ends with an empty stack and the figures of the
placements. -/
theorem foldlM_sightings (s : Space) {p : Panel} (h : ∀ f ∈ p.faces, '\'' ∉ f.name.toList) :
    (p.sightings add paint s).foldlM Nesting.next .start =
      some ⟨[], none, p.placements.map (Placement.figure paint)⟩ := by
  cases p with
  | node face children =>
      have hface := h face List.mem_cons_self
      have hrow := foldlM_sightingsOfAll add paint .zero s children
        (fun f hf => h f (List.mem_cons_of_mem face hf)) (face.openMarker s) []
      rw [sightings, Panel.face, Panel.children, Nesting.start,
        Nesting.foldlM_cons (Nesting.next_opening hface),
        Nesting.foldlM_cons (Nesting.next_fill _ paint), Nesting.foldlM_append (hrow _),
        Nesting.foldlM_cons (Nesting.next_closing hface)]
      rfl

/-- Every annotation of a panel is one of the markers of a panel in the tree, at its rectangle. -/
theorem exists_marker_of_mem_commands {p : Panel} (h : ∀ f ∈ p.faces, '\'' ∉ f.name.toList)
    {area : Rect} {key : String} {value : Option Bytes}
    (hc : .annotate area key value ∈ p.commands paint) :
    value = none ∧ ∃ f ∈ p.faces, ∃ side,
      area = f.localRect ∧ NodeMarker.parse? key = some (f.marker side) := by
  suffices hall : ∀ c ∈ p.commands paint, ∀ area key value, c = .annotate area key value →
      value = none ∧ ∃ f ∈ p.faces, ∃ side,
        area = f.localRect ∧ NodeMarker.parse? key = some (f.marker side) from
    hall _ hc area key value rfl
  refine p.forall_mem_commands ?save ?restore (fun f hf => ⟨fun side => ?mark, ?fill⟩)
    fun f hf => ?translate
  case mark =>
      rintro area key value ⟨⟩
      exact ⟨rfl, f, hf, side, rfl, NodeMarker.parse?_text (h f hf)⟩
  -- the other commands are no annotations
  all_goals rintro area key value ⟨⟩

/-- **The markers alone rebuild the tree,** if no name holds a quote.  On a surface that is met in
any space, every annotation is a marker at the rectangle of its panel, without a value.  Read in
order with a stack, each closing marker meets its own opening one on top of it, with the same area
and in the same space; the stack ends empty; and the opening markers, with the one below each on the
stack and the one rectangle that is filled before the next marker, are those of the placements. -/
theorem draw_surveying (add : Binary32 → Binary32 → Binary32) (paint : Paint) {p : Panel}
    (h : ∀ f ∈ p.faces, '\'' ∉ f.name.toList) (s : Space) (j : Journal) :
    ∃ seen : List Sighting,
      (p.draw (.surveying add) paint).outcome ⟨s, []⟩ j = ((.ok (), ⟨s, seen⟩), j) ∧
      (∀ t ∈ seen, ∀ area key value, t.command = .annotate area key value →
        value = none ∧ ∃ f ∈ p.faces, ∃ side,
          area = f.localRect ∧ NodeMarker.parse? key = some (f.marker side)) ∧
      seen.foldlM Nesting.next .start =
        some ⟨[], none, p.placements.map (Placement.figure paint)⟩ := by
  have htrack := track_commands add paint s p
  refine ⟨p.sightings add paint s, ?_, ?_, foldlM_sightings add paint s h⟩
  · rw [draw_eq_forM]
    exact Canvas.outcome_forM_surveying add htrack j
  · intro t ht area key value hcommand
    refine exists_marker_of_mem_commands paint h ?_
    rw [← Space.map_command_of_track htrack, ← hcommand]
    exact List.mem_map_of_mem ht

/-- Three panels of one identifier, two of them inside the third, with a fourth one further inside;
the name of the outermost holds what stands before a name. -/
def sameIds : Panel :=
  .node ⟨7, "a, name=b", 9, 6, ⟨1, 1⟩, .black⟩
    [.node ⟨7, "b", 4, 3, ⟨1, 2⟩, .black⟩ [.node ⟨8, "", 1, 1, ⟨2, 1⟩, .black⟩ []],
      .node ⟨7, "c", 2, 5, ⟨6, 0⟩, .black⟩ []]

/-- They are told apart by the stack, on a surface that is met with a saved origin. -/
theorem draw_surveying_sameIds :
    ∃ seen : List Sighting,
      (sameIds.draw (.surveying (· + ·)) (.fill .black)).outcome ⟨⟨⟨3, 4⟩, [.zero]⟩, []⟩ #[] =
        ((.ok (), ⟨⟨⟨3, 4⟩, [.zero]⟩, seen⟩), #[]) ∧
      seen.foldlM Nesting.next .start = some ⟨[], none,
        [⟨⟨7, "a, name=b", none, ⟨0, 0, 9, 6⟩⟩, ⟨0, 0, 9, 6⟩, .fill .black⟩,
          ⟨⟨7, "b", some 7, ⟨0, 0, 4, 3⟩⟩, ⟨0, 0, 4, 3⟩, .fill .black⟩,
          ⟨⟨8, "", some 7, ⟨0, 0, 1, 1⟩⟩, ⟨0, 0, 1, 1⟩, .fill .black⟩,
          ⟨⟨7, "c", some 7, ⟨0, 0, 2, 5⟩⟩, ⟨0, 0, 2, 5⟩, .fill .black⟩]⟩ := by
  obtain ⟨seen, hrun, -, hread⟩ := draw_surveying (· + ·) (.fill .black) (p := sameIds)
    (by decide +kernel) ⟨⟨3, 4⟩, [.zero]⟩ #[]
  exact ⟨seen, hrun, hread⟩

end Panel

end PictureTape

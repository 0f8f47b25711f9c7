/-
**Where panels are drawn.**

There are two ways to say where a panel ends up.  Its placement adds up the offsets on the way to
it; drawing it relies on a surface that shifts its origin and restores it.  Both come to the same
rectangles in the same order, bit by bit and for any addition of numbers, because the offsets are
added from the left to the right in both.

Main definitions:

* `Spot.origin`, `Spot.bounds` — the sum of the offsets on the way to a panel, without that of the
  outermost one, and the rectangle of the panel there;
* `Panel.placementsWith` — the placements, for any addition of numbers;
* `Trace.fills` — the rectangles that a surface has listed, and their paints.

Main results:

* `Panel.placementsWith_eq` — the placements are those of the spots;
* `Panel.fills_sightings` — so are the rectangles that are drawn, and the colors are those of the
  panels;
* `Panel.draw_tracing` — **a panel is drawn where it is placed, and the surface is left as it was.**
-/

import PictureTape.Panel.Placement
import PictureTape.Proofs.Spaces
import PictureTape.Proofs.Spots

set_option autoImplicit false
set_option relaxedAutoImplicit false

namespace PictureTape

/-! ### Sums along the way -/

namespace Spot

variable (add : Binary32 → Binary32 → Binary32)

/-- The sum, from the left to the right, of a first origin and of all offsets on the way. -/
def originInside (first : Offset) (s : Spot) : Offset :=
  (s.lineage.map Face.offset).foldl (Offset.plus add) first

/-- The same sum without the offset of the outermost panel. -/
def origin (first : Offset) (s : Spot) : Offset :=
  (s.lineage.tail.map Face.offset).foldl (Offset.plus add) first

/-- The rectangle of the panel on a surface that is met with its origin at `first`: it has the size
of the panel, and stands at the origin of its own space, shifted by the sum. -/
def bounds (first : Offset) (s : Spot) : Rect :=
  Rect.shifted add ⟨0, 0, s.face.width, s.face.height⟩ (s.origin add first)

/-- The identifier of the panel around it. -/
def parent (s : Spot) : Option UInt64 := s.around.getLast?.map Face.id

variable {add}

/-- The offset of the outermost panel is not added. -/
theorem origin_within (face : Face) (first : Offset) (s : Spot) :
    (s.within face).origin add first = s.originInside add first := rfl

/-- Inside another panel it is added first. -/
theorem originInside_within (face : Face) (first : Offset) (s : Spot) :
    (s.within face).originInside add first = s.originInside add (first.plus add face.offset) := rfl

/-- A panel with no other panel around it gets one. -/
theorem parent_within (face : Face) (s : Spot) :
    (s.within face).parent = some (s.parent.getD face.id) := by
  unfold parent within
  rw [List.getLast?_cons]
  cases s.around.getLast? with
  | none => rfl
  | some outer => rfl

end Spot

/-! ### Placements -/

namespace Panel

variable (add : Binary32 → Binary32 → Binary32)

mutual

/-- The placements of a panel whose origin is `origin`, when numbers are added in the given way. -/
def placementsAtWith (parent : Option UInt64) (origin : Offset) : Panel → List Placement
  | node face children =>
    ⟨face, parent, face.localRect.shifted add origin⟩ ::
      placementsInsideWith face.id origin children

/-- The placements of the panels inside the panel `parent`, whose origin is `origin`. -/
def placementsInsideWith (parent : UInt64) (origin : Offset) : List Panel → List Placement
  | [] => []
  | p :: ps =>
    placementsAtWith (some parent) (origin.plus add p.face.offset) p ++
      placementsInsideWith parent origin ps

end

/-- The placements of a panel and of all panels inside it, when numbers are added in the given
way. -/
def placementsWith (p : Panel) : List Placement := p.placementsAtWith add none .zero

mutual

theorem placementsAtWith_add (parent : Option UInt64) (origin : Offset) (p : Panel) :
    p.placementsAtWith (· + ·) parent origin = p.placementsAt parent origin := by
  cases p with
  | node face children =>
      rw [placementsAtWith, placementsAt, placementsInsideWith_add face.id origin children]
      rfl

theorem placementsInsideWith_add (parent : UInt64) (origin : Offset) (ps : List Panel) :
    placementsInsideWith (· + ·) parent origin ps = placementsInside parent origin ps := by
  cases ps with
  | nil => rfl
  | cons p ps =>
      rw [placementsInsideWith, placementsInside, placementsAtWith_add,
        placementsInsideWith_add parent origin ps]
      rfl

end

/-- With the sum of numbers these are the placements of the program. -/
theorem placementsWith_add (p : Panel) : p.placementsWith (· + ·) = p.placements :=
  p.placementsAtWith_add none .zero

mutual

/-- The placements of a panel inside another one, whose origin is `first`. -/
theorem placementsAtWith_eq (outer : UInt64) (first : Offset) (p : Panel) :
    p.placementsAtWith add (some outer) (first.plus add p.face.offset) =
      p.spots.map fun s => ⟨s.face, some (s.parent.getD outer),
        s.face.localRect.shifted add (s.originInside add first)⟩ := by
  cases p with
  | node face children =>
      rw [placementsAtWith, spots, List.map_cons, List.map_map]
      have hrow := placementsInsideWith_eq face.id (first.plus add face.offset) 0 children
      refine congrArg (List.cons _) (hrow.trans (List.map_congr_left fun s _ => ?_))
      rw [Function.comp_apply, Spot.parent_within, Spot.originInside_within, Option.getD_some]
      rfl

theorem placementsInsideWith_eq (outer : UInt64) (first : Offset) (i : Nat) (ps : List Panel) :
    placementsInsideWith add outer first ps =
      (spotsOfAll i ps).map fun s => ⟨s.face, some (s.parent.getD outer),
        s.face.localRect.shifted add (s.originInside add first)⟩ := by
  cases ps with
  | nil => rfl
  | cons p ps =>
      rw [placementsInsideWith, spotsOfAll, List.map_append, List.map_map,
        placementsAtWith_eq outer first p, placementsInsideWith_eq outer first (i + 1) ps]
      rfl

end

/-- The placements are those of the spots. -/
theorem placementsWith_eq (p : Panel) :
    p.placementsWith add = p.spots.map fun s => ⟨s.face, s.parent, s.bounds add .zero⟩ := by
  cases p with
  | node face children =>
      have hrow := placementsInsideWith_eq add face.id .zero 0 children
      rw [placementsWith, placementsAtWith, spots, List.map_cons, List.map_map]
      refine congrArg (List.cons _) (hrow.trans (List.map_congr_left fun s _ => ?_))
      rw [Function.comp_apply, Spot.parent_within, Spot.bounds, Spot.origin_within]
      rfl

end Panel

/-! ### Drawn rectangles -/

/-- The rectangle that a call has drawn, and its paint. -/
def Call.fill? : Call → Option (Rect × Paint)
  | .drawRect rect paint => some (rect, paint)
  | _ => none

/-- The rectangles that a surface has listed, and their paints. -/
def Trace.fills (t : Trace) : List (Rect × Paint) := t.calls.toList.filterMap Call.fill?

/-- The rectangle that is drawn by a command, and its paint. -/
def Sighting.fill? (add : Binary32 → Binary32 → Binary32) (s : Sighting) : Option (Rect × Paint) :=
  (s.call add).fill?

theorem Sighting.fill?_fillCommand (add : Binary32 → Binary32 → Binary32) (paint : Paint)
    (s : Space) (f : Face) : Sighting.fill? add ⟨s, f.fillCommand paint⟩ =
      some (f.localRect.shifted add s.origin, { paint with color := f.color }) := rfl

namespace Panel

variable (add : Binary32 → Binary32 → Binary32) (paint : Paint)

mutual

theorem fills_sightingsInside (s : Space) (p : Panel) :
    (sightingsInside add paint s p).filterMap (Sighting.fill? add) =
      p.spots.map fun t => (t.face.localRect.shifted add (t.originInside add s.origin),
        { paint with color := t.face.color }) := by
  cases p with
  | node face children =>
      have hrow :=
        fills_sightingsOfAll ⟨s.origin.plus add face.offset, s.origin :: s.saved⟩ 0 children
      rw [sightingsInside, spots, List.map_cons, List.map_map, List.filterMap_cons_none rfl,
        List.filterMap_cons_none rfl, List.filterMap_cons_none rfl,
        List.filterMap_cons_some (Sighting.fill?_fillCommand add paint _ face),
        List.filterMap_append, List.filterMap_cons_none rfl, List.filterMap_cons_none rfl,
        List.filterMap_nil, List.append_nil]
      exact congrArg (List.cons _) hrow

theorem fills_sightingsOfAll (s : Space) (i : Nat) (ps : List Panel) :
    (sightingsOfAll add paint s ps).filterMap (Sighting.fill? add) =
      (spotsOfAll i ps).map fun t => (t.face.localRect.shifted add (t.originInside add s.origin),
        { paint with color := t.face.color }) := by
  cases ps with
  | nil => rfl
  | cons p ps =>
      rw [sightingsOfAll, spotsOfAll, List.filterMap_append, List.map_append, List.map_map,
        fills_sightingsInside s p, fills_sightingsOfAll s (i + 1) ps]
      rfl

end

/-- The rectangles that are drawn are those of the spots, each in the color of its panel. -/
theorem fills_sightings (s : Space) (p : Panel) :
    (p.sightings add paint s).filterMap (Sighting.fill? add) =
      p.spots.map fun t => (t.bounds add s.origin, { paint with color := t.face.color }) := by
  cases p with
  | node face children =>
      have hrow := fills_sightingsOfAll add paint s 0 children
      rw [sightings, spots, List.map_cons, List.map_map, List.filterMap_cons_none rfl,
        List.filterMap_cons_some (Sighting.fill?_fillCommand add paint s _), List.filterMap_append,
        List.filterMap_cons_none rfl, List.filterMap_nil, List.append_nil]
      exact congrArg (List.cons _) hrow

/-- A panel is drawn where its spots are, in their colors, on a surface that is met with any origin
and any saved ones, and both are left as they were. -/
theorem exists_outcome_draw (p : Panel) (origin : Offset) (saved : List Offset) (calls : Array Call)
    (j : Journal) : ∃ listed : List Call,
      (p.draw (.tracingWith add) paint).outcome ⟨origin, saved, calls⟩ j =
        ((.ok (), ⟨origin, saved, calls ++ listed.toArray⟩), j) ∧
      listed.filterMap Call.fill? =
        p.spots.map fun s => (s.bounds add origin, { paint with color := s.face.color }) := by
  refine ⟨(p.sightings add paint ⟨origin, saved⟩).map (Sighting.call add), ?_, ?_⟩
  · rw [draw_eq_forM]
    exact Canvas.outcome_forM_tracingWith add (track_commands add paint ⟨origin, saved⟩ p) calls j
  · rw [List.filterMap_map]
    exact fills_sightings add paint ⟨origin, saved⟩ p

/-- **A panel is drawn where it is placed, and the surface is left as it was.**  For any addition of
numbers, the spots are all panels of the tree, each once and from the outside in; the placements list
them with the panels around them; and drawing fills the rectangle of each spot in the color of its
panel, with the sum of the offsets on the way added to the origin in which the surface was met.  So
what is drawn on a new surface are the placed rectangles in the colors of their panels.  With the sum
of numbers, surface and placements are those of the program. -/
theorem draw_tracing (add : Binary32 → Binary32 → Binary32) (paint : Paint) (p : Panel) :
    (p.spots.Pairwise fun s t => s.address < t.address) ∧
    (∀ s, s ∈ p.spots ↔ p.lineage? s.address = some s.lineage) ∧
    (p.placementsWith add = p.spots.map fun s => ⟨s.face, s.parent, s.bounds add ⟨0, 0⟩⟩) ∧
    (∀ origin saved calls j, ∃ listed : List Call,
      (p.draw (.tracingWith add) paint).outcome ⟨origin, saved, calls⟩ j =
        ((.ok (), ⟨origin, saved, calls ++ listed.toArray⟩), j) ∧
      listed.filterMap Call.fill? =
        p.spots.map fun s => (s.bounds add origin, { paint with color := s.face.color })) ∧
    (∀ j, ∃ t, (p.draw (.tracingWith add) paint).outcome .start j = ((.ok (), t), j) ∧
      t.fills =
        (p.placementsWith add).map fun q => (q.bounds, { paint with color := q.face.color })) ∧
    Canvas.tracingWith (· + ·) = .tracing ∧ p.placementsWith (· + ·) = p.placements := by
  refine ⟨p.pairwise_spots, p.mem_spots_iff, p.placementsWith_eq add,
    fun origin saved calls j => exists_outcome_draw add paint p origin saved calls j, fun j => ?_,
    Canvas.tracingWith_add, p.placementsWith_add⟩
  obtain ⟨listed, hrun, hfills⟩ := exists_outcome_draw add paint p .zero [] #[] j
  refine ⟨_, hrun, ?_⟩
  rw [placementsWith_eq, List.map_map]
  simpa [Trace.fills, Function.comp_def] using hfills

end Panel

end PictureTape

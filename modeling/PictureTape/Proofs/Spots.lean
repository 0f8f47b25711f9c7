/-
**The panels of a tree, one by one.**

A panel in a tree has an address: its position among its siblings, that of the panel around it among
its siblings, and so on, from the outermost panel inwards.  A panel comes before the panels inside
it, and these come one after the other; this is the lexicographic order of the addresses.

Main definitions:

* `PictureTape.Spot` — the address of a panel, its face, and the faces of the panels around it;
* `Panel.spots` — the spots of all panels in a tree;
* `Panel.lineage?` — the faces from the outermost panel to the one at an address.

Main results:

* `Panel.pairwise_spots` — **the addresses of the spots are in lexicographic order;**
* `Panel.mem_spots_iff` — **there is one spot for each panel,** with its own face and those around
  it.
-/

import PictureTape.Panel.Basic

set_option autoImplicit false
set_option relaxedAutoImplicit false

namespace PictureTape

/-- Where a panel is in a tree. -/
structure Spot where
  /-- The positions among their siblings of the panels on the way, from the outside in. -/
  address : List Nat
  /-- The faces of the panels around it, from the outside in. -/
  around : List Face
  face : Face
deriving DecidableEq, Repr

namespace Spot

/-- The spot in a tree of which its panel is in the child at position `i`. -/
def under (i : Nat) (s : Spot) : Spot := { s with address := i :: s.address }

/-- The spot with one more panel around everything. -/
def within (face : Face) (s : Spot) : Spot := { s with around := face :: s.around }

/-- The faces on the way to the panel, its own included. -/
def lineage (s : Spot) : List Face := s.around ++ [s.face]

end Spot

namespace Panel

mutual

/-- The spots of a panel and of all panels inside it, from the outside in. -/
def spots : Panel → List Spot
  | node face children => ⟨[], [], face⟩ :: (spotsOfAll 0 children).map (.within face)

/-- The spots of a row of panels of which the first is at position `i`. -/
def spotsOfAll (i : Nat) : List Panel → List Spot
  | [] => []
  | p :: ps => p.spots.map (.under i) ++ spotsOfAll (i + 1) ps

end

/-- The faces from the outermost panel to the one at an address, if there is one. -/
def lineage? : Panel → List Nat → Option (List Face)
  | node face _, [] => some [face]
  | node face children, i :: address =>
    children[i]?.bind fun child => (child.lineage? address).map (face :: ·)

/-! ### Order -/

/-- The addresses in a row start with a position in the row. -/
theorem exists_address_of_mem {i : Nat} {ps : List Panel} {s : Spot} (h : s ∈ spotsOfAll i ps) :
    ∃ k address, i ≤ k ∧ s.address = k :: address := by
  induction ps generalizing i with
  | nil => cases h
  | cons p ps ih =>
      rcases List.mem_append.1 h with h | h
      · obtain ⟨t, -, rfl⟩ := List.mem_map.1 h
        exact ⟨i, t.address, Nat.le_refl i, rfl⟩
      · obtain ⟨k, address, hk, haddress⟩ := ih h
        exact ⟨k, address, Nat.le_of_succ_le hk, haddress⟩

mutual

/-- The addresses of the spots are in lexicographic order. -/
theorem pairwise_spots (p : Panel) : p.spots.Pairwise fun s t => s.address < t.address := by
  cases p with
  | node face children =>
      refine .cons ?_ (List.pairwise_map.2 (pairwise_spotsOfAll 0 children))
      intro s hs
      obtain ⟨t, ht, rfl⟩ := List.mem_map.1 hs
      obtain ⟨k, address, -, haddress⟩ := exists_address_of_mem ht
      change [] < t.address
      rw [haddress]
      exact List.nil_lt_cons ..

theorem pairwise_spotsOfAll (i : Nat) (ps : List Panel) :
    (spotsOfAll i ps).Pairwise fun s t => s.address < t.address := by
  cases ps with
  | nil => exact .nil
  | cons p ps =>
      refine List.pairwise_append.2 ⟨?_, pairwise_spotsOfAll (i + 1) ps, ?_⟩
      · refine List.pairwise_map.2 ((pairwise_spots p).imp fun {s t} hlt => ?_)
        exact List.cons_lt_cons_iff.2 (.inr ⟨rfl, hlt⟩)
      · intro s hs t ht
        obtain ⟨s', -, rfl⟩ := List.mem_map.1 hs
        obtain ⟨k, address, hk, haddress⟩ := exists_address_of_mem ht
        rw [haddress]
        exact List.cons_lt_cons_iff.2 (.inl hk)

end

/-! ### One spot for each panel -/

theorem mem_spotsOfAll_iff {i : Nat} {ps : List Panel} {s : Spot} :
    s ∈ spotsOfAll i ps ↔
      ∃ (k : Nat) (p : Panel) (t : Spot), ps[k]? = some p ∧ t ∈ p.spots ∧ s = t.under (i + k) := by
  induction ps generalizing i with
  | nil => simp [spotsOfAll]
  | cons p ps ih =>
      rw [spotsOfAll, List.mem_append, List.mem_map, ih]
      constructor
      · rintro (⟨t, ht, rfl⟩ | ⟨k, q, t, hq, ht, rfl⟩)
        · exact ⟨0, p, t, rfl, ht, rfl⟩
        · exact ⟨k + 1, q, t, hq, ht, by rw [Nat.add_assoc, Nat.add_comm 1 k]⟩
      · rintro ⟨k, q, t, hq, ht, rfl⟩
        cases k with
        | zero =>
            cases hq
            exact .inl ⟨t, ht, rfl⟩
        | succ k => exact .inr ⟨k, q, t, hq, ht, by rw [Nat.add_assoc, Nat.add_comm 1 k]⟩

/-- On the way to a panel there is at least the outermost one. -/
theorem ne_nil_of_lineage? {p : Panel} {address : List Nat} {faces : List Face}
    (h : p.lineage? address = some faces) : faces ≠ [] := by
  obtain ⟨face, children⟩ := p
  cases address with
  | nil =>
      cases h
      exact List.cons_ne_nil _ _
  | cons i address =>
      obtain ⟨child, -, hfaces⟩ := Option.bind_eq_some_iff.1 h
      obtain ⟨rest, -, rfl⟩ := Option.map_eq_some_iff.1 hfaces
      exact List.cons_ne_nil _ _

/-- **There is one spot for each panel,** with its own face and those around it. -/
theorem mem_spots_iff (p : Panel) (s : Spot) :
    s ∈ p.spots ↔ p.lineage? s.address = some s.lineage := by
  obtain ⟨address, around, own⟩ := s
  induction address generalizing p around with
  | nil =>
      obtain ⟨face, children⟩ := p
      rw [spots, List.mem_cons, lineage?]
      constructor
      · rintro (h | h)
        · cases h
          rfl
        · -- every other spot has an address that is not empty
          obtain ⟨t, ht, hs⟩ := List.mem_map.1 h
          obtain ⟨k, address, -, haddress⟩ := exists_address_of_mem ht
          have hempty : t.address = [] := congrArg Spot.address hs
          cases haddress.symm.trans hempty
      · intro h
        have hfaces : [] ++ [face] = around ++ [own] := Option.some.inj h
        obtain ⟨rfl, hown⟩ := List.append_inj' hfaces rfl
        cases hown
        exact .inl rfl
  | cons i address ih =>
      obtain ⟨face, children⟩ := p
      rw [spots, List.mem_cons, lineage?]
      constructor
      · rintro (h | h)
        · cases h
        · obtain ⟨t, ht, hs⟩ := List.mem_map.1 h
          obtain ⟨k, child, u, hchild, hu, rfl⟩ := mem_spotsOfAll_iff.1 ht
          obtain ⟨address', around', own'⟩ := u
          cases hs
          have hlineage := (ih child around').1 hu
          rw [Nat.zero_add, hchild, Option.bind_some, hlineage]
          rfl
      · intro h
        obtain ⟨child, hchild, hfaces⟩ := Option.bind_eq_some_iff.1 h
        obtain ⟨faces, hlineage, heq⟩ := Option.map_eq_some_iff.1 hfaces
        cases around with
        | nil =>
            obtain ⟨-, rfl⟩ := List.cons.inj heq
            exact absurd rfl (ne_nil_of_lineage? hlineage)
        | cons outer around =>
            obtain ⟨rfl, rfl⟩ := List.cons.inj heq
            have hmem := (ih child around).2 hlineage
            have hrow := (mem_spotsOfAll_iff (i := 0)).2 ⟨i, child, _, hchild, hmem, rfl⟩
            rw [Nat.zero_add] at hrow
            exact .inr (List.mem_map.2 ⟨_, hrow, rfl⟩)

end Panel

end PictureTape

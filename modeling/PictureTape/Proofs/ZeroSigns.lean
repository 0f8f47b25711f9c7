/-
**Equal pictures are stored alike.**

Pictures that agree are the same but for the signs of zeros, and the signs of the zeros in colors do
not show in a packed color.  While two such pictures are encoded, their paint tables hold entries
that agree, so a paint is found in one of them exactly where its counterpart is found in the other.
What is stored then differs only where the sign of a zero is stored: in the highest byte of a
coordinate, of a size, of an offset or of a stroke width.

Main definitions:

* `Wire.Alike` — byte strings that differ only in the signs of zeros at certain places;
* `Command.numberPlaces`, `Picture.numberPlaces` — where the numbers of a command and of a picture
  are stored;
* `PaintTable.Agrees` — tables whose entries agree one by one;
* `Picture.SameFields` — what is stored beside numbers is the same in two encodings.

Main results:

* `PaintTable.enter_agrees` — paints that agree are given the same position in tables that agree;
* `Command.alike_pieces` — commands that agree one by one are stored alike;
* `Picture.encode_of_agrees` — **pictures that agree are stored alike,** and decoded alike, or
  refused for the same reason.
-/

import Mathlib.Data.List.Forall2
import PictureTape.Proofs.Sizes

set_option autoImplicit false
set_option relaxedAutoImplicit false

namespace PictureTape

/-! ### Bytes that differ in the signs of zeros -/

namespace Wire

/-- A zero is stored at the place; it may have either sign. -/
def HasZeroAt (d : Bytes) (place : Nat) : Prop :=
  ∃ x : Binary32, x.magnitudeBits = 0 ∧ number x <+: d.drop place

/-- Byte strings of the same length that differ only in the signs of zeros which are stored at the
places.  The sign is in the last of the four bytes of a number. -/
structure Alike (places : List Nat) (d e : Bytes) : Prop where
  length_eq : d.length = e.length
  byte_eq_or (k : Nat) : d[k]? = e[k]? ∨
    ∃ place ∈ places, k = place + 3 ∧ HasZeroAt d place ∧ HasZeroAt e place

theorem HasZeroAt.append_right {d : Bytes} {place : Nat} (h : HasZeroAt d place) (rest : Bytes) :
    HasZeroAt (d ++ rest) place := by
  obtain ⟨x, hx, hprefix⟩ := h
  have hlength := hprefix.length_le
  rw [length_number, List.length_drop] at hlength
  refine ⟨x, hx, ?_⟩
  rw [List.drop_append_of_le_length (by omega)]
  exact hprefix.trans (List.prefix_append _ _)

theorem HasZeroAt.append_left {d : Bytes} {place : Nat} (h : HasZeroAt d place) (front : Bytes) :
    HasZeroAt (front ++ d) (front.length + place) := by
  obtain ⟨x, hx, hprefix⟩ := h
  refine ⟨x, hx, ?_⟩
  rwa [List.drop_length_add_append]

namespace Alike

variable {places others : List Nat} {d e d' e' : Bytes}

theorem refl (d : Bytes) : Alike [] d d := ⟨rfl, fun _ => .inl rfl⟩

theorem mono (h : Alike places d e) (hplaces : ∀ place ∈ places, place ∈ others) :
    Alike others d e := by
  refine ⟨h.length_eq, fun k => (h.byte_eq_or k).imp_right ?_⟩
  rintro ⟨place, hplace, hk⟩
  exact ⟨place, hplaces place hplace, hk⟩

/-- What follows is stored at places further back. -/
theorem append (h : Alike places d e) (h' : Alike others d' e') :
    Alike (places ++ others.map (d.length + ·)) (d ++ d') (e ++ e') := by
  refine ⟨by rw [List.length_append, List.length_append, h.length_eq, h'.length_eq], fun k => ?_⟩
  rcases Nat.lt_or_ge k d.length with hlt | hge
  · rw [List.getElem?_append_left hlt, List.getElem?_append_left (h.length_eq ▸ hlt)]
    refine (h.byte_eq_or k).imp_right ?_
    rintro ⟨place, hplace, hk, hd, he⟩
    exact ⟨place, List.mem_append_left _ hplace, hk, hd.append_right d', he.append_right e'⟩
  · rw [List.getElem?_append_right hge, List.getElem?_append_right (h.length_eq ▸ hge),
      ← h.length_eq]
    refine (h'.byte_eq_or (k - d.length)).imp_right ?_
    rintro ⟨place, hplace, hk, hd, he⟩
    refine ⟨d.length + place, ?_, by omega, hd.append_left d, ?_⟩
    · exact List.mem_append_right _ (List.mem_map_of_mem hplace)
    · rw [h.length_eq]
      exact he.append_left e

theorem append_left (front : Bytes) (h : Alike places d e) :
    Alike (places.map (front.length + ·)) (front ++ d) (front ++ e) := (refl front).append h

theorem append_right (h : Alike places d e) (rest : Bytes) :
    Alike places (d ++ rest) (e ++ rest) := by
  have happend := h.append (refl rest)
  rwa [List.map_nil, List.append_nil] at happend

end Alike

/-- Numbers that agree are stored alike. -/
theorem alike_number {x y : Binary32} (h : x.agrees y = true) :
    Alike [0] (number x) (number y) := by
  rcases Binary32.eq_or_magnitudeBits_eq_zero h with rfl | ⟨hx, hy⟩
  · exact (Alike.refl _).mono nofun
  · have hzeros : HasZeroAt (number x) 0 ∧ HasZeroAt (number y) 0 :=
      ⟨⟨x, hx, List.prefix_refl _⟩, ⟨y, hy, List.prefix_refl _⟩⟩
    refine ⟨rfl, fun k => ?_⟩
    by_cases hk : k = 3
    · exact .inr ⟨0, List.mem_singleton_self 0, hk, hzeros⟩
    · -- the two zeros have the same bytes below the sign
      left
      have hbytes : ∀ z : Binary32, z.magnitudeBits = 0 → (number z)[k]? = [0, 0, 0][k]? := by
        intro z hz
        rcases Binary32.eq_zero_or_negative_zero hz with rfl | rfl
        · match k, hk with
          | 0, _ => rfl
          | 1, _ => rfl
          | 2, _ => rfl
          | k + 4, _ => rfl
        · match k, hk with
          | 0, _ => rfl
          | 1, _ => rfl
          | 2, _ => rfl
          | k + 4, _ => rfl
      rw [hbytes x hx, hbytes y hy]

theorem alike_offset {v w : Offset} (h : v.agrees w = true) :
    Alike [0, 4] (offset v) (offset w) := by
  simp only [Offset.agrees, Bool.and_eq_true] at h
  exact (alike_number h.1).append (alike_number h.2)

theorem alike_rect {r s : Rect} (h : r.agrees s = true) :
    Alike [0, 4, 8, 12] (rect r) (rect s) := by
  simp only [Rect.agrees, Bool.and_eq_true] at h
  obtain ⟨⟨⟨hx, hy⟩, hwidth⟩, hheight⟩ := h
  exact (((alike_number hx).append (alike_number hy)).append (alike_number hwidth)).append
    (alike_number hheight)

end Wire

/-! ### Tables that agree -/

namespace PaintTable

/-- The entries of the tables agree one by one. -/
def Agrees (table table' : PaintTable) : Prop :=
  List.Forall₂ (fun p q : Paint => p.agrees q = true) table table'

variable {table table' : PaintTable} {p q : Paint}

/-- Paints that agree are found at the same position in tables that agree. -/
theorem findIdx?_of_agrees (htable : Agrees table table') (h : p.agrees q = true) :
    table.findIdx? (·.agrees p) = table'.findIdx? (·.agrees q) := by
  induction htable with
  | nil => rfl
  | @cons a b table table' hab _ ih =>
      have hentry : a.agrees p = b.agrees q := by
        rw [Paint.agrees_congr hab, Paint.agrees_comm b p, Paint.agrees_congr h,
          Paint.agrees_comm q b]
      rw [List.findIdx?_cons, List.findIdx?_cons, hentry, ih]

/-- Paints that agree are given the same position, and the tables agree again. -/
theorem enter_agrees (htable : Agrees table table') (h : p.agrees q = true) :
    (enter p table).1 = (enter q table').1 ∧ Agrees (enter p table).2 (enter q table').2 := by
  have hfound := findIdx?_of_agrees htable h
  cases hp : table.findIdx? (·.agrees p) with
  | some i =>
      rw [hp] at hfound
      rw [enter_of_findIdx?_eq_some hp, enter_of_findIdx?_eq_some hfound.symm]
      exact ⟨rfl, htable⟩
  | none =>
      rw [hp] at hfound
      rw [enter_of_findIdx?_eq_none hp, enter_of_findIdx?_eq_none hfound.symm]
      exact ⟨htable.length_eq, List.rel_append htable (.cons h .nil)⟩

end PaintTable

/-! ### Commands that agree -/

namespace Command

/-- Where the numbers of a stored command stand, behind its first word. -/
def payloadPlaces : Command → List Nat
  | save => []
  | restore => []
  | translate _ => [0, 4]
  | drawRect _ _ => [4, 8, 12, 16]
  | annotate _ _ _ => [0, 4, 8, 12]

/-- Where the numbers of a stored command stand, behind its start. -/
def numberPlaces (c : Command) : List Nat := c.payloadPlaces.map (4 + ·)

/-- Where the numbers of the commands in a stream stand, behind its start. -/
def numberPlacesOf : List Command → List Nat
  | [] => []
  | c :: cs => c.numberPlaces ++ (numberPlacesOf cs).map (c.size + ·)

/-- The commands agree one by one. -/
def AgreeAll (cs cs' : List Command) : Prop :=
  List.Forall₂ (fun c c' : Command => c.agrees c' = true) cs cs'

variable {c c' : Command} {cs cs' : List Command} {table table' : PaintTable}

theorem agreeAll_of_isEqv (h : cs.isEqv cs' agrees = true) : AgreeAll cs cs' := by
  induction cs generalizing cs' with
  | nil =>
      cases cs' with
      | nil => exact .nil
      | cons c' cs' => cases h
  | cons c cs ih =>
      cases cs' with
      | nil => cases h
      | cons c' cs' =>
          rw [List.isEqv_cons_cons, Bool.and_eq_true] at h
          exact .cons h.1 (ih h.2)

theorem code_eq_of_agrees (h : c.agrees c' = true) : c.code = c'.code := by
  cases agreeing_of_agrees h <;> rfl

theorem size_eq_of_agrees (h : c.agrees c' = true) : c.size = c'.size := by
  cases agreeing_of_agrees h <;> rfl

/-- Commands that agree are stored alike behind their first words, with the same position. -/
theorem alike_payload (h : c.agrees c' = true) (i : Nat) :
    Wire.Alike c.payloadPlaces (c.payload i) (c'.payload i) := by
  cases agreeing_of_agrees h with
  | save => exact .refl []
  | restore => exact .refl []
  | translate hv => exact Wire.alike_offset hv
  | drawRect hr hpaint => exact (Wire.alike_rect hr).append_left (Wire.word (.ofNat i))
  | annotate hr key value => exact (Wire.alike_rect hr).append_right _

/-- Commands that agree are stored alike, with the same position. -/
theorem alike_stored (h : c.agrees c' = true) (i : Nat) :
    Wire.Alike c.numberPlaces (c.stored i) (c'.stored i) := by
  unfold stored
  rw [← code_eq_of_agrees h, ← size_eq_of_agrees h]
  exact (alike_payload h i).append_left (Wire.word (header c.code c.size))

/-- The paints of commands that agree are given the same position, and the tables agree again. -/
theorem enterPaint_agrees (htable : PaintTable.Agrees table table') (h : c.agrees c' = true) :
    (c.enterPaint table).1 = (c'.enterPaint table').1 ∧
      PaintTable.Agrees (c.enterPaint table).2 (c'.enterPaint table').2 := by
  cases agreeing_of_agrees h with
  | save => exact ⟨rfl, htable⟩
  | restore => exact ⟨rfl, htable⟩
  | translate hv => exact ⟨rfl, htable⟩
  | drawRect hr hpaint => exact PaintTable.enter_agrees htable hpaint
  | annotate hr key value => exact ⟨rfl, htable⟩

/-- The tables that commands leave agree if the commands do. -/
theorem enterAll_agrees (htable : PaintTable.Agrees table table') (h : AgreeAll cs cs') :
    PaintTable.Agrees (PaintTable.enterAll (paintsOf cs) table)
      (PaintTable.enterAll (paintsOf cs') table') := by
  induction h generalizing table table' with
  | nil => exact htable
  | cons hc _ ih =>
      rw [enterAll_paintsOf_cons, enterAll_paintsOf_cons]
      exact ih (enterPaint_agrees htable hc).2

/-- **Commands that agree one by one are stored alike.** -/
theorem alike_pieces (htable : PaintTable.Agrees table table') (h : AgreeAll cs cs') :
    Wire.Alike (numberPlacesOf cs) (pieces table cs).flatten (pieces table' cs').flatten := by
  induction h generalizing table table' with
  | nil => exact .refl []
  | @cons c c' cs cs' hc _ ih =>
      obtain ⟨hindex, hnext⟩ := enterPaint_agrees htable hc
      have hfirst := alike_stored hc (c.enterPaint table).1
      have hall := hfirst.append (ih hnext)
      rw [length_stored] at hall
      rw [pieces, pieces, List.flatten_cons, List.flatten_cons, ← hindex]
      exact hall

theorem totalSize_eq_of_agreeAll (h : AgreeAll cs cs') : totalSize cs = totalSize cs' := by
  induction h with
  | nil => rfl
  | cons hc _ ih => rw [totalSize, totalSize, size_eq_of_agrees hc, ih]

/-- What stands before a command, the command, and what stands behind it. -/
theorem exists_append_cons_of_agreeAll {before after : List Command}
    (h : AgreeAll (before ++ c :: after) cs') :
    ∃ before' c' after', cs' = before' ++ c' :: after' ∧ AgreeAll before before' ∧
      c.agrees c' = true ∧ AgreeAll after after' := by
  induction before generalizing cs' with
  | nil =>
      obtain ⟨c', after', hc, hafter, rfl⟩ := List.forall₂_cons_left_iff.1 h
      exact ⟨[], c', after', rfl, .nil, hc, hafter⟩
  | cons b before ih =>
      obtain ⟨b', rest, hb, hrest, rfl⟩ := List.forall₂_cons_left_iff.1 h
      obtain ⟨before', c', after', rfl, hbefore, hc, hafter⟩ := ih hrest
      exact ⟨b' :: before', c', after', rfl, .cons hb hbefore, hc, hafter⟩

/-- Where a command stands in the one stream, its counterpart stands in the other, and their paints
have the same position. -/
theorem exists_stored_of_agreeAll {d e rest rest' : Bytes} {position : Nat}
    {before after : List Command} (htable : PaintTable.Agrees table table') (h : AgreeAll cs cs')
    (hsplit : cs = before ++ c :: after)
    (hd : d.drop position = (pieces table cs).flatten ++ rest)
    (he : e.drop position = (pieces table' cs').flatten ++ rest') :
    ∃ c' i behind behind', c.agrees c' = true ∧
      d.drop (position + totalSize before) = c.stored i ++ behind ∧
      e.drop (position + totalSize before) = c'.stored i ++ behind' := by
  rw [hsplit] at h
  obtain ⟨before', c', after', hsplit', hbefore, hc, -⟩ := exists_append_cons_of_agreeAll h
  obtain ⟨behind, hat⟩ := drop_pieces_append_cons hsplit hd
  obtain ⟨behind', hat'⟩ := drop_pieces_append_cons hsplit' he
  obtain ⟨hindex, -⟩ := enterPaint_agrees (enterAll_agrees htable hbefore) hc
  rw [← totalSize_eq_of_agreeAll hbefore, ← hindex] at hat'
  exact ⟨c', _, behind, behind', hc, hat, hat'⟩

theorem size_le_of_agreeAll (h : AgreeAll cs cs') (hsize : ∀ c ∈ cs, c.size ≤ largestSize) :
    ∀ c ∈ cs', c.size ≤ largestSize := by
  induction h with
  | nil => exact nofun
  | cons hc _ ih =>
      obtain ⟨hfirst, hrest⟩ := List.forall_mem_cons.1 hsize
      rw [size_eq_of_agrees hc] at hfirst
      exact List.forall_mem_cons.2 ⟨hfirst, ih hrest⟩

end Command

/-! ### Entries that agree -/

theorem Paint.toArgb_eq_of_agrees {p q : Paint} (h : p.agrees q = true) :
    p.color.toArgb = q.color.toArgb := Color.toArgb_eq_of_agrees (agrees_iff.1 h).1

theorem Paint.alike_stored {p q : Paint} (h : p.agrees q = true) :
    Wire.Alike [4] p.stored q.stored := by
  obtain ⟨-, hstyle, hsmooth, hwidth⟩ := agrees_iff.1 h
  unfold stored
  rw [toArgb_eq_of_agrees h, hstyle, hsmooth]
  exact ((Wire.alike_number hwidth).append_right _).append_left (Wire.word q.color.toArgb)

/-- Where the widths in a table of so many entries stand, behind its start. -/
def PaintTable.widthPlaces (entries : Nat) : List Nat := (List.range entries).map (12 * · + 4)

theorem PaintTable.alike_stored {table table' : PaintTable} (h : Agrees table table') :
    Wire.Alike (widthPlaces table.length) (table.flatMap Paint.stored)
      (table'.flatMap Paint.stored) := by
  induction h with
  | nil => exact .refl []
  | @cons p q table table' hpq _ ih =>
      rw [List.flatMap_cons, List.flatMap_cons]
      refine ((Paint.alike_stored hpq).append ih).mono ?_
      rw [Paint.length_stored]
      intro place hplace
      simp only [widthPlaces, List.mem_append, List.mem_singleton, List.mem_map, List.mem_range,
        List.length_cons] at hplace ⊢
      rcases hplace with rfl | ⟨_, ⟨i, hi, rfl⟩, rfl⟩
      · exact ⟨0, by omega, rfl⟩
      · exact ⟨i + 1, by omega, by omega⟩

/-- The entries of tables that agree have the same packed colors. -/
theorem PaintTable.wordAt_of_agrees {table table' : PaintTable} {d e rest rest' : Bytes}
    {position : Nat} (h : Agrees table table')
    (hd : d.drop position = table.flatMap Paint.stored ++ rest)
    (he : e.drop position = table'.flatMap Paint.stored ++ rest') :
    ∀ i < table.length,
      Wire.wordAt d (position + 12 * i) = Wire.wordAt e (position + 12 * i) := by
  induction h generalizing position with
  | nil => exact nofun
  | @cons p q table table' hpq _ ih =>
      rw [List.flatMap_cons, List.append_assoc] at hd he
      intro i hi
      cases i with
      | zero =>
          rw [Paint.stored, List.append_assoc] at hd he
          rw [Nat.mul_zero, Nat.add_zero, Wire.wordAt_of_drop hd, Wire.wordAt_of_drop he,
            Paint.toArgb_eq_of_agrees hpq]
      | succ i =>
          have hbehind := Wire.drop_add_length hd
          have hbehind' := Wire.drop_add_length he
          rw [Paint.length_stored] at hbehind hbehind'
          have hposition : position + 12 * (i + 1) = position + 12 + 12 * i := by omega
          rw [hposition]
          exact ih hbehind hbehind' i (Nat.lt_of_succ_lt_succ hi)

/-! ### Pictures that agree -/

/-- Bodies with streams that are alike and with tables that agree make stored pictures that are
alike. -/
theorem Body.alike_withHead {places : List Nat} {bounds bounds' : Rect} {body body' : Body}
    (hbounds : bounds.agrees bounds' = true)
    (hstream : Wire.Alike places body.commands body'.commands)
    (htable : PaintTable.Agrees body.paints body'.paints) :
    Wire.Alike
      ([12, 16, 20, 24] ++ places.map (37 + ·) ++
        (PaintTable.widthPlaces body.paints.length).map (45 + body.commands.length + ·))
      (body.withHead bounds) (body'.withHead bounds') := by
  have hsplit : ∀ (r : Rect) (b : Body), b.withHead r =
      (Picture.magic ++ Wire.word Picture.version) ++ (Wire.rect r ++
        ((1 :: (Wire.word Picture.commandTag ++ Wire.word (.ofNat b.commands.length))) ++
          (b.commands ++ ((Wire.word Picture.paintTag ++ Wire.word (.ofNat b.paints.length)) ++
            (b.paints.flatMap Paint.stored ++ Wire.word Picture.endTag))))) := fun _ _ => rfl
  have hentries := (PaintTable.alike_stored htable).append_right (Wire.word Picture.endTag)
  have htail := hentries.append_left
    (Wire.word Picture.paintTag ++ Wire.word (.ofNat body.paints.length))
  have hbehind := (hstream.append htail).append_left
    (1 :: (Wire.word Picture.commandTag ++ Wire.word (.ofNat body.commands.length)))
  have hall := ((Wire.alike_rect hbounds).append hbehind).append_left
    (Picture.magic ++ Wire.word Picture.version)
  rw [hsplit, hsplit, ← hstream.length_eq, ← htable.length_eq]
  refine hall.mono ?_
  have hfront : (Picture.magic ++ Wire.word Picture.version).length = 12 := rfl
  simp only [List.map_append, List.map_map, hfront, List.length_cons, List.length_append,
    Wire.length_word, Wire.length_rect, List.mem_append, List.mem_map, Function.comp_apply]
  rintro place (⟨start, hstart, rfl⟩ | ⟨start, hstart, rfl⟩ | ⟨start, hstart, rfl⟩)
  · exact .inl (.inl (List.mem_map_of_mem (f := (12 + ·)) hstart))
  · exact .inl (.inr ⟨start, hstart, by omega⟩)
  · exact .inr ⟨start, hstart, by omega⟩

namespace Picture

/-- Where the numbers of an encoded picture stand: those of the bounds, those of the commands, and
the widths in the paint table. -/
def numberPlaces (p : Picture) : List Nat :=
  [12, 16, 20, 24] ++ (Command.numberPlacesOf p.commands).map (37 + ·) ++
    (PaintTable.widthPlaces (PaintTable.enterAll p.paints []).length).map
      (45 + Command.totalSize p.commands + ·)

/-- What is stored beside numbers is the same in both strings of bytes: the first word of each
command, the position of each paint, the keys and the values, the number of paints, and the packed
color of each. -/
structure SameFields (p : Picture) (d e : Bytes) : Prop where
  header : ∀ before c after, p.commands = before ++ c :: after →
    Wire.wordAt d (37 + Command.totalSize before) = Wire.wordAt e (37 + Command.totalSize before)
  index : ∀ before r paint after, p.commands = before ++ .drawRect r paint :: after →
    Wire.wordAt d (37 + Command.totalSize before + 4) =
      Wire.wordAt e (37 + Command.totalSize before + 4)
  strings : ∀ before r key value after, p.commands = before ++ .annotate r key value :: after →
    Wire.HoldsStrings d (37 + Command.totalSize before + 20) (Wire.ofText key) value ∧
      Wire.HoldsStrings e (37 + Command.totalSize before + 20) (Wire.ofText key) value
  count : Wire.wordAt d (41 + Command.totalSize p.commands) =
    Wire.wordAt e (41 + Command.totalSize p.commands)
  argb : ∀ i < (PaintTable.enterAll p.paints []).length,
    Wire.wordAt d (45 + Command.totalSize p.commands + 12 * i) =
      Wire.wordAt e (45 + Command.totalSize p.commands + 12 * i)

variable {p q : Picture} {body body' : Body}

theorem agreeAll_of_agrees (h : p.agrees q = true) :
    p.bounds.agrees q.bounds = true ∧ Command.AgreeAll p.commands q.commands := by
  rw [agrees, Bool.and_eq_true] at h
  exact ⟨h.1, Command.agreeAll_of_isEqv h.2⟩

/-- A picture is refused for the same reason as one that agrees with it. -/
theorem encode_eq_error_of_agrees (h : p.agrees q = true) {e : PictureError}
    (hp : p.encode = .error e) : q.encode = .error e := by
  obtain ⟨before, c, after, hsplit, hfits, hlarge, rfl⟩ := encode_eq_error_iff.1 hp
  obtain ⟨-, hcommands⟩ := agreeAll_of_agrees h
  rw [hsplit] at hcommands
  obtain ⟨before', c', after', hsplit', hbefore, hc, -⟩ :=
    Command.exists_append_cons_of_agreeAll hcommands
  have hsize := Command.size_eq_of_agrees hc
  refine encode_eq_error_iff.2 ⟨before', c', after', hsplit', ?_, ?_, ?_⟩
  · exact Command.size_le_of_agreeAll hbefore hfits
  · rwa [← hsize]
  · rw [hsize]

/-- The streams are alike, and the tables agree. -/
theorem exists_body_of_agrees (h : p.agrees q = true) (hbody : p.body = .ok body) :
    ∃ body', q.body = .ok body' ∧
      Wire.Alike (Command.numberPlacesOf p.commands) body.commands body'.commands ∧
      PaintTable.Agrees body.paints body'.paints := by
  obtain ⟨hfits, rfl⟩ := body_eq_ok_iff.1 hbody
  obtain ⟨-, hcommands⟩ := agreeAll_of_agrees h
  have hempty : PaintTable.Agrees [] [] := .nil
  exact ⟨_, body_eq_ok_iff.2 ⟨Command.size_le_of_agreeAll hcommands hfits, rfl⟩,
    Command.alike_pieces hempty hcommands, Command.enterAll_agrees hempty hcommands⟩

theorem sameFields_of_agrees (h : p.agrees q = true) (hbody : p.body = .ok body)
    (hbody' : q.body = .ok body') :
    p.SameFields (body.withHead p.bounds) (body'.withHead q.bounds) := by
  obtain ⟨hfits, rfl⟩ := body_eq_ok_iff.1 hbody
  obtain ⟨hfits', rfl⟩ := body_eq_ok_iff.1 hbody'
  obtain ⟨-, hcommands⟩ := agreeAll_of_agrees h
  have hempty : PaintTable.Agrees [] [] := .nil
  have htables := Command.enterAll_agrees hempty hcommands
  obtain ⟨-, hstream, hcount⟩ := drop_withHead p.bounds
    ⟨(Command.pieces [] p.commands).flatten, PaintTable.enterAll p.paints []⟩
  obtain ⟨-, hstream', hcount'⟩ := drop_withHead q.bounds
    ⟨(Command.pieces [] q.commands).flatten, PaintTable.enterAll q.paints []⟩
  simp only [Command.length_flatten_pieces] at hcount hcount'
  rw [← Command.totalSize_eq_of_agreeAll hcommands] at hcount'
  have hentries := Wire.drop_add_length hcount
  have hentries' := Wire.drop_add_length hcount'
  rw [Wire.length_word, Nat.add_right_comm] at hentries hentries'
  refine ⟨?_, ?_, ?_, ?_, ?_⟩
  · intro before c after hsplit
    obtain ⟨c', i, rest, rest', hc, hat, hat'⟩ :=
      Command.exists_stored_of_agreeAll hempty hcommands hsplit hstream hstream'
    rw [Command.stored, List.append_assoc] at hat hat'
    rw [Wire.wordAt_of_drop hat, Wire.wordAt_of_drop hat', Command.code_eq_of_agrees hc,
      Command.size_eq_of_agrees hc]
  · intro before r paint after hsplit
    obtain ⟨c', i, rest, rest', hc, hat, hat'⟩ :=
      Command.exists_stored_of_agreeAll hempty hcommands hsplit hstream hstream'
    cases Command.agreeing_of_agrees hc
    rw [Wire.wordAt_of_drop (Command.drop_drawRect hat),
      Wire.wordAt_of_drop (Command.drop_drawRect hat')]
  · intro before r key value after hsplit
    obtain ⟨c', i, rest, rest', hc, hat, hat'⟩ :=
      Command.exists_stored_of_agreeAll hempty hcommands hsplit hstream hstream'
    have hsize : (Command.annotate r key value).size ≤ Command.largestSize :=
      hfits _ (hsplit ▸ List.mem_append_right before List.mem_cons_self)
    have hsize' := Command.size_eq_of_agrees hc ▸ hsize
    cases Command.agreeing_of_agrees hc
    exact ⟨Command.holdsStrings_of_drop hsize hat, Command.holdsStrings_of_drop hsize' hat'⟩
  · rw [Wire.wordAt_of_drop hcount, Wire.wordAt_of_drop hcount']
    exact congrArg (fun n => (UInt32.ofNat n).toNat) htables.length_eq
  · exact PaintTable.wordAt_of_agrees htables hentries hentries'

end Picture

/-! ### What is left of pictures that agree -/

/-- What is left of paints that agree agrees. -/
theorem Paint.normal_agrees_normal {p q : Paint} (h : p.agrees q = true)
    (hp : p.strokeWidth.isFinite = true) (paints paints' : List Paint) :
    (p.normal paints).agrees (q.normal paints') = true := by
  have hargb := toArgb_eq_of_agrees h
  obtain ⟨-, hstyle, hsmooth, hwidth⟩ := agrees_iff.1 h
  have hq : q.strokeWidth.isFinite = true := Binary32.isFinite_of_agrees hwidth hp
  have hfirst := strokeWidth_firstIn_agrees hp paints
  have hfirst' := strokeWidth_firstIn_agrees hq paints'
  rw [Binary32.agrees_comm] at hfirst'
  refine agrees_iff.2 ⟨?_, hstyle, hsmooth, ?_⟩
  · simp only [normal, hargb]
    exact Color.agrees_refl _
  · exact Binary32.agrees_trans (Binary32.agrees_trans hfirst hwidth) hfirst'

namespace Command

variable {c c' : Command} {cs cs' : List Command}

theorem all_isFinite_eq_of_agreeAll (h : AgreeAll cs cs') :
    cs.all isFinite = cs'.all isFinite := by
  induction h with
  | nil => rfl
  | cons hc _ ih => rw [List.all_cons, List.all_cons, isFinite_eq_of_agrees hc, ih]

/-- What is left of finite commands that agree agrees. -/
theorem normal_agrees_normal (h : c.agrees c' = true) (hc : c.isFinite = true)
    (paints paints' : List Paint) : (c.normal paints).agrees (c'.normal paints') = true := by
  cases agreeing_of_agrees h with
  | save => rfl
  | restore => rfl
  | translate hv => exact hv
  | drawRect hr hpaint =>
      rw [isFinite, Bool.and_eq_true] at hc
      rw [normal, normal, agrees, Bool.and_eq_true]
      exact ⟨hr, Paint.normal_agrees_normal hpaint hc.2 paints paints'⟩
  | annotate hr key value => exact h

theorem isEqv_map_normal_map_normal (h : AgreeAll cs cs') (hcs : cs.all isFinite = true)
    (paints paints' : List Paint) :
    (cs.map (normal paints)).isEqv (cs'.map (normal paints')) agrees = true := by
  induction h with
  | nil => rfl
  | cons hc _ ih =>
      rw [List.all_cons, Bool.and_eq_true] at hcs
      rw [List.map_cons, List.map_cons, List.isEqv_cons_cons, Bool.and_eq_true]
      exact ⟨normal_agrees_normal hc hcs.1 paints paints', ih hcs.2⟩

end Command

namespace Picture

variable {p q : Picture} {body body' : Body}

theorem isFinite_eq_of_agrees (h : p.agrees q = true) : p.isFinite = q.isFinite := by
  obtain ⟨hbounds, hcommands⟩ := agreeAll_of_agrees h
  rw [isFinite, isFinite, Rect.isFinite_eq_of_agrees hbounds,
    Command.all_isFinite_eq_of_agreeAll hcommands]

theorem normal_agrees_normal (h : p.agrees q = true) (hp : p.isFinite = true) :
    p.normal.agrees q.normal = true := by
  obtain ⟨hbounds, hcommands⟩ := agreeAll_of_agrees h
  rw [isFinite, Bool.and_eq_true] at hp
  rw [agrees, Bool.and_eq_true]
  exact ⟨hbounds, Command.isEqv_map_normal_map_normal hcommands hp.2 p.paints q.paints⟩

/-- The bytes of pictures that agree are decoded to pictures that agree, or both refused for a
number that is not finite. -/
theorem decode_withHead_of_agrees (h : p.agrees q = true) (hbody : p.body = .ok body)
    (hbody' : q.body = .ok body') (hlength : body.commands.length < UInt32.size)
    (hlength' : body'.commands.length < UInt32.size) :
    (∃ p' q', Picture.decode (body.withHead p.bounds) = .ok p' ∧
      Picture.decode (body'.withHead q.bounds) = .ok q' ∧ p'.agrees q' = true) ∨
    (Picture.decode (body.withHead p.bounds) = .error .nonFinite ∧
      Picture.decode (body'.withHead q.bounds) = .error .nonFinite) := by
  rw [decode_withHead hbody hlength, decode_withHead hbody' hlength', ← isFinite_eq_of_agrees h]
  cases hfinite : p.isFinite with
  | true => exact .inl ⟨p.normal, q.normal, rfl, rfl, normal_agrees_normal h hfinite⟩
  | false => exact .inr ⟨rfl, rfl⟩

/-- **Pictures that agree are stored alike.**  Either both are refused for a command of the same
size.  Or their encodings are equally long and differ only in the sign of a zero, in the bounds, in
an offset or an area or in the width of an entry; the first words of the commands, the positions of
paints, the keys and the values, the number of paints and the packed colors are the same.  If the
length of the stream fits in a word, then decoding both gives pictures that agree, or refuses both
for a number that is not finite. -/
theorem encode_of_agrees {p q : Picture} (h : p.agrees q = true) :
    (∃ size, p.encode = .error (.commandTooLarge size) ∧
      q.encode = .error (.commandTooLarge size)) ∨
    ∃ body d e, p.body = .ok body ∧ p.encode = .ok d ∧ q.encode = .ok e ∧
      d.length = e.length ∧
      (∀ k, d[k]? = e[k]? ∨ ∃ place ∈ p.numberPlaces, k = place + 3 ∧
        Wire.HasZeroAt d place ∧ Wire.HasZeroAt e place) ∧
      p.SameFields d e ∧
      (body.commands.length < UInt32.size →
        (∃ p' q', Picture.decode d = .ok p' ∧ Picture.decode e = .ok q' ∧ p'.agrees q' = true) ∨
        (Picture.decode d = .error .nonFinite ∧ Picture.decode e = .error .nonFinite)) := by
  cases hp : p.encode with
  | error e =>
      obtain ⟨_, c, _, -, -, -, rfl⟩ := encode_eq_error_iff.1 hp
      exact .inl ⟨c.size, rfl, encode_eq_error_of_agrees h hp⟩
  | ok d =>
      obtain ⟨body, hbody, rfl⟩ := encode_eq_ok_iff.1 hp
      obtain ⟨body', hbody', hstream, htable⟩ := exists_body_of_agrees h hbody
      have halike := Body.alike_withHead (agreeAll_of_agrees h).1 hstream htable
      have hplaces : p.numberPlaces = [12, 16, 20, 24] ++
          (Command.numberPlacesOf p.commands).map (37 + ·) ++
          (PaintTable.widthPlaces body.paints.length).map (45 + body.commands.length + ·) := by
        obtain ⟨-, rfl⟩ := body_eq_ok_iff.1 hbody
        rw [numberPlaces, Command.length_flatten_pieces]
      rw [← hplaces] at halike
      refine .inr ⟨body, _, _, hbody, rfl, encode_eq_ok_iff.2 ⟨body', hbody', rfl⟩,
        halike.length_eq, halike.byte_eq_or, sameFields_of_agrees h hbody hbody', ?_⟩
      intro hlength
      exact decode_withHead_of_agrees h hbody hbody' hlength (hstream.length_eq ▸ hlength)

/-- The intensity `-0`. -/
def negativeZero : Intensity := ⟨⟨0x80000000⟩, by decide +kernel⟩

/-- A picture with a given zero wherever a number is stored, and in a channel of a color. -/
def withZeros (zero : Intensity) : Picture where
  bounds := ⟨zero.value, 0, 100, 100⟩
  commands :=
    [.translate ⟨5, zero.value⟩,
      .drawRect ⟨1, zero.value, 8, 8⟩ ⟨⟨.one, zero, .zero, .one⟩, .stroke, true, zero.value⟩,
      .drawRect ⟨2, 2, 6, 6⟩ ⟨⟨.one, .zero, .zero, .one⟩, .stroke, true, 0⟩,
      .annotate ⟨0, zero.value, 8, 8⟩ "key" (some [7])]

/-- The two zeros are stored in different bytes, and both encodings are decoded. -/
theorem encode_of_agrees_withZeros :
    (withZeros .zero).agrees (withZeros negativeZero) = true ∧
    ∃ d e, (withZeros .zero).encode = .ok d ∧ (withZeros negativeZero).encode = .ok e ∧
      d[15]? = some 0 ∧ e[15]? = some 0x80 ∧ d.length = e.length ∧
      (withZeros .zero).SameFields d e ∧
      ∃ p q, Picture.decode d = .ok p ∧ Picture.decode e = .ok q ∧ p.agrees q = true := by
  have hagrees : (withZeros .zero).agrees (withZeros negativeZero) = true := by decide +kernel
  have hsize : ∀ c ∈ (withZeros .zero).commands, c.size ≤ Command.largestSize := by decide +kernel
  obtain ⟨body, hbody, hd, hlength⟩ := exists_encode_eq_ok hsize
  have hfits : body.commands.length < UInt32.size := by
    rw [hlength]
    decide +kernel
  have hdecode := decode_withHead_of_isFinite hbody hfits (by decide +kernel)
  rcases encode_of_agrees hagrees with
    ⟨size, herror, -⟩ | ⟨body', d, e, hbody', hd', he, hsame, -, hfields, hdecoded⟩
  · rw [hd] at herror
    cases herror
  · rw [hbody] at hbody'
    cases hbody'
    rw [hd] at hd'
    cases hd'
    refine ⟨hagrees, _, e, hd, he, rfl, ?_, hsame, hfields, ?_⟩
    · obtain ⟨body', -, rfl⟩ := encode_eq_ok_iff.1 he
      rfl
    · rcases hdecoded hfits with hpictures | ⟨hrefused, -⟩
      · exact hpictures
      · rw [hdecode] at hrefused
        cases hrefused

end Picture

end PictureTape

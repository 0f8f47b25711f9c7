/-
**What encoding writes.**

Encoding threads the paint table through the commands, and stops at the first command that is too
large.  If none is, the stream is one piece for each command, each of the size that the command
alone determines, and the table is what the paints leave when they are entered in order.

Main definitions:

* `Command.enterPaint` — the position of the paint of a command, and the table with it;
* `Command.stored`, `Command.pieces` — the bytes of a command, and those of a list of commands;
* `Command.totalSize` — the sizes of a list of commands, added up;
* `Paint.normal`, `Command.normal`, `Picture.normal` — what is left of a paint, a command and a
  picture once it has been stored.

Main results:

* `Command.mapM_encode_eq` — **the commands are encoded exactly when none is too large;** otherwise
  the first that is too large is reported;
* `Picture.body_eq_ok_iff`, `Picture.encode_eq_ok_iff` — the bytes of a picture;
* `Picture.encode_eq_error_iff` — **a picture is refused exactly for the first of its commands that
  is too large;**
* `Command.length_flatten_pieces` — the length of the stream is the sum of the sizes.
-/

import PictureTape.Proofs.PaintTable

set_option autoImplicit false
set_option relaxedAutoImplicit false

namespace PictureTape

/-! ### Sequences of encoders -/

namespace Encoder

variable {α β : Type} {first : Encoder α} {next : α → Encoder β} {table table' : PaintTable}

theorem bind_of_ok {a : α} (h : first table = .ok (a, table')) :
    (first >>= next) table = next a table' := by
  change (first table).bind (fun r => next r.1 r.2) = _
  rw [h]
  rfl

theorem bind_of_error {e : PictureError} (h : first table = .error e) :
    (first >>= next) table = .error e := by
  change (first table).bind (fun r => next r.1 r.2) = _
  rw [h]
  rfl

end Encoder

/-! ### One command -/

namespace Command

/-- The position of the paint of a command, and the table with the paint entered. -/
def enterPaint (c : Command) (table : PaintTable) : Nat × PaintTable :=
  match c.paint? with
  | some paint => PaintTable.enter paint table
  | none => (0, table)

/-- The bytes of a command whose paint has the given position. -/
def stored (index : Nat) (c : Command) : Bytes :=
  Wire.word (header c.code c.size) ++ c.payload index

@[simp] theorem length_stored (index : Nat) (c : Command) : (c.stored index).length = c.size := by
  have h := length_payload index c
  simp only [stored, List.length_append, Wire.length_word]
  omega

theorem four_le_size (c : Command) : 4 ≤ c.size := by
  have h := length_payload 0 c
  omega

/-- If a command is not too large, then its strings are shorter than the length that an absent one
is given. -/
theorem length_lt_absent_of_size_le {r : Rect} {key : String} {value : Option Bytes}
    (h : (annotate r key value).size ≤ largestSize) :
    (Wire.ofText key).length < Wire.absent.toNat ∧
      ∀ content, value = some content → content.length < Wire.absent.toNat := by
  have hmax : largestSize < Wire.absent.toNat := by decide
  have hkey : (Wire.ofText key).length ≤ Wire.roundedUp (Wire.ofText key).length :=
    Nat.le_add_right _ _
  refine ⟨?_, ?_⟩
  · simp only [size] at h
    omega
  · rintro content rfl
    have hvalue : content.length ≤ Wire.roundedUp content.length := Nat.le_add_right _ _
    simp only [size, Option.elim] at h
    omega

theorem paintIndex_eq (c : Command) (table : PaintTable) :
    c.paintIndex table = .ok (c.enterPaint table) := by
  cases c with
  | drawRect r paint => rfl
  | save => rfl
  | restore => rfl
  | translate v => rfl
  | annotate r key value => rfl

/-- A command is encoded exactly when its size fits; the outcome does not depend on the table. -/
theorem encode_eq (c : Command) (table : PaintTable) :
    c.encode table =
      if largestSize < c.size then .error (.commandTooLarge c.size)
      else .ok (c.stored (c.enterPaint table).1, (c.enterPaint table).2) := by
  unfold encode
  rw [Encoder.bind_of_ok (paintIndex_eq c table)]
  simp only [length_payload, stored]
  split
  · rfl
  · rfl

/-! ### A list of commands -/

/-- The bytes of each command, when the commands before them left `table`. -/
def pieces : PaintTable → List Command → List Bytes
  | _, [] => []
  | table, c :: cs => c.stored (c.enterPaint table).1 :: pieces (c.enterPaint table).2 cs

/-- Is the command too large for the field that its size is stored in? -/
def isTooLarge (c : Command) : Bool := decide (largestSize < c.size)

theorem enterAll_paintsOf_cons (c : Command) (cs : List Command) (table : PaintTable) :
    PaintTable.enterAll (paintsOf (c :: cs)) table =
      PaintTable.enterAll (paintsOf cs) (c.enterPaint table).2 := by
  cases c with
  | drawRect r paint => rfl
  | save => rfl
  | restore => rfl
  | translate v => rfl
  | annotate r key value => rfl

/-- **The commands are encoded exactly when none is too large;** otherwise the size of the first
that is too large is reported. -/
theorem mapM_encode_eq (commands : List Command) (table : PaintTable) :
    (commands.mapM encode) table =
      match commands.find? isTooLarge with
      | some c => .error (.commandTooLarge c.size)
      | none => .ok (pieces table commands, PaintTable.enterAll (paintsOf commands) table) := by
  induction commands generalizing table with
  | nil => rfl
  | cons c cs ih =>
      have hstep := encode_eq c table
      rw [List.mapM_cons, List.find?_cons]
      by_cases hsize : largestSize < c.size
      · -- the first command that is too large ends the encoding
        rw [if_pos hsize] at hstep
        rw [Encoder.bind_of_error hstep]
        simp only [isTooLarge, hsize, decide_true]
      · rw [if_neg hsize] at hstep
        rw [Encoder.bind_of_ok hstep]
        simp only [isTooLarge, hsize, decide_false]
        have hrest := ih (c.enterPaint table).2
        cases hfound : cs.find? isTooLarge with
        | some d =>
            simp only [hfound] at hrest
            exact Encoder.bind_of_error hrest
        | none =>
            simp only [hfound] at hrest
            rw [Encoder.bind_of_ok hrest, enterAll_paintsOf_cons]
            rfl

theorem pieces_append (table : PaintTable) (before after : List Command) :
    pieces table (before ++ after) =
      pieces table before ++ pieces (PaintTable.enterAll (paintsOf before) table) after := by
  induction before generalizing table with
  | nil => rfl
  | cons c before ih => rw [List.cons_append, pieces, pieces, ih, enterAll_paintsOf_cons,
      List.cons_append]

/-- The sizes of the commands, added up. -/
def totalSize : List Command → Nat
  | [] => 0
  | c :: cs => c.size + totalSize cs

/-- The length of the stream is the sum of the sizes. -/
theorem length_flatten_pieces (table : PaintTable) (commands : List Command) :
    (pieces table commands).flatten.length = totalSize commands := by
  induction commands generalizing table with
  | nil => rfl
  | cons c cs ih =>
      rw [pieces, List.flatten_cons, List.length_append, length_stored, ih, totalSize]

/-- There are not more paints than bytes in the stream. -/
theorem length_paintsOf_le (table : PaintTable) (commands : List Command) :
    (paintsOf commands).length ≤ (pieces table commands).flatten.length := by
  rw [length_flatten_pieces]
  induction commands with
  | nil => simp [paintsOf]
  | cons c cs ih =>
      have hc : (paintsOf (c :: cs)).length ≤ (paintsOf cs).length + 1 := by
        unfold paintsOf
        rw [List.filterMap_cons]
        split <;> simp
      have hsize := four_le_size c
      rw [totalSize]
      omega

end Command

/-! ### Pictures -/

namespace Picture

/-- What encoding a picture leaves between its head and its end tag. -/
theorem body_eq (p : Picture) :
    p.body =
      match p.commands.find? Command.isTooLarge with
      | some c => .error (.commandTooLarge c.size)
      | none => .ok ⟨(Command.pieces [] p.commands).flatten, PaintTable.enterAll p.paints []⟩ := by
  have hbody : p.body = ((p.commands.mapM Command.encode) []).map
      fun r => ⟨r.1.flatten, r.2⟩ := by
    unfold Picture.body
    change ((p.commands.mapM Command.encode) []).bind _ = _
    cases (p.commands.mapM Command.encode) [] <;> rfl
  rw [hbody, Command.mapM_encode_eq]
  cases p.commands.find? Command.isTooLarge <;> rfl

theorem body_eq_ok_iff {p : Picture} {body : Body} :
    p.body = .ok body ↔
      (∀ c ∈ p.commands, c.size ≤ Command.largestSize) ∧
        body = ⟨(Command.pieces [] p.commands).flatten, PaintTable.enterAll p.paints []⟩ := by
  rw [body_eq]
  cases hfound : p.commands.find? Command.isTooLarge with
  | some c =>
      have hlarge : Command.largestSize < c.size := by
        simpa [Command.isTooLarge] using List.find?_some hfound
      constructor
      · intro h
        cases h
      · rintro ⟨hall, -⟩
        have hsmall := hall c (List.mem_of_find?_eq_some hfound)
        omega
  | none =>
      have hall : ∀ c ∈ p.commands, c.size ≤ Command.largestSize := by
        intro c hc
        simpa [Command.isTooLarge] using List.find?_eq_none.1 hfound c hc
      constructor
      · intro h
        cases h
        exact ⟨hall, rfl⟩
      · rintro ⟨-, rfl⟩
        rfl

theorem encode_eq_ok_iff {p : Picture} {d : Bytes} :
    p.encode = .ok d ↔ ∃ body, p.body = .ok body ∧ d = body.withHead p.bounds := by
  unfold encode
  change p.body.bind _ = _ ↔ _
  cases p.body with
  | error e => simp [Except.bind]
  | ok body =>
      constructor
      · intro h
        cases h
        exact ⟨body, rfl, rfl⟩
      · rintro ⟨_, ⟨⟩, rfl⟩
        rfl

/-- **A picture is refused exactly for the first of its commands that is too large.** -/
theorem encode_eq_error_iff {p : Picture} {e : PictureError} :
    p.encode = .error e ↔
      ∃ before c after, p.commands = before ++ c :: after ∧
        (∀ b ∈ before, b.size ≤ Command.largestSize) ∧ Command.largestSize < c.size ∧
          e = .commandTooLarge c.size := by
  have hencode : p.encode = .error e ↔
      ∃ c, p.commands.find? Command.isTooLarge = some c ∧ e = .commandTooLarge c.size := by
    unfold encode
    rw [body_eq]
    cases p.commands.find? Command.isTooLarge with
    | none => exact iff_of_false nofun nofun
    | some c =>
        constructor
        · intro h
          cases h
          exact ⟨c, rfl, rfl⟩
        · rintro ⟨_, ⟨⟩, rfl⟩
          rfl
  rw [hencode]
  simp only [List.find?_eq_some_iff_append, Command.isTooLarge, decide_eq_true_eq,
    Bool.not_eq_true', decide_eq_false_iff_not, Nat.not_lt]
  constructor
  · rintro ⟨c, ⟨hlarge, before, after, hsplit, hfits⟩, rfl⟩
    exact ⟨before, c, after, hsplit, hfits, hlarge, rfl⟩
  · rintro ⟨before, c, after, hsplit, hfits, hlarge, rfl⟩
    exact ⟨c, ⟨hlarge, before, after, hsplit, hfits⟩, rfl⟩

/-- Without a command that is too large a picture is encoded, in a stream that is as long as the
commands are together. -/
theorem exists_encode_eq_ok {p : Picture}
    (h : ∀ c ∈ p.commands, c.size ≤ Command.largestSize) :
    ∃ body, p.body = .ok body ∧ p.encode = .ok (body.withHead p.bounds) ∧
      body.commands.length = Command.totalSize p.commands := by
  have hbody := body_eq_ok_iff.2 ⟨h, rfl⟩
  exact ⟨_, hbody, encode_eq_ok_iff.2 ⟨_, hbody, rfl⟩, Command.length_flatten_pieces [] p.commands⟩

end Picture

/-! ### What is left of a picture -/

/-- What is left of a paint, `paints` being those of the whole picture: its color is rounded to
bytes, and its width is that of the first paint that agrees with it. -/
def Paint.normal (paints : List Paint) (p : Paint) : Paint :=
  { p with color := .ofArgb p.color.toArgb
           strokeWidth := (p.firstIn paints).strokeWidth }

/-- What is left of a command: only its paint can change. -/
def Command.normal (paints : List Paint) : Command → Command
  | drawRect r paint => drawRect r (paint.normal paints)
  | c => c

/-- What is left of a picture. -/
def Picture.normal (p : Picture) : Picture :=
  { p with commands := p.commands.map (Command.normal p.paints) }

theorem Paint.normal_eq (paints : List Paint) (p : Paint) :
    p.normal paints = (p.firstIn paints).rounded := (rounded_firstIn paints p).symm

/-- Storing a command does not make it finite or infinite. -/
@[simp] theorem Command.isFinite_normal (paints : List Paint) (c : Command) :
    (c.normal paints).isFinite = c.isFinite := by
  cases c with
  | drawRect r paint =>
      simp only [normal, isFinite, Paint.normal, Paint.isFinite_strokeWidth_firstIn]
  | save => rfl
  | restore => rfl
  | translate v => rfl
  | annotate r key value => rfl

/-- Storing a command does not change its size. -/
@[simp] theorem Command.size_normal (paints : List Paint) (c : Command) :
    (c.normal paints).size = c.size := by
  cases c with
  | drawRect r paint => rfl
  | save => rfl
  | restore => rfl
  | translate v => rfl
  | annotate r key value => rfl

@[simp] theorem Command.totalSize_map_normal (paints : List Paint) (commands : List Command) :
    totalSize (commands.map (normal paints)) = totalSize commands := by
  induction commands with
  | nil => rfl
  | cons c cs ih => rw [List.map_cons, totalSize, totalSize, size_normal, ih]

end PictureTape

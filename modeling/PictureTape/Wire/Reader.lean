/-
**Reading fields.**

A reader takes what it needs from the front of the bytes and leaves the rest.  If the bytes end
before it has what it needs, it fails with the number of those that are missing.

Main definitions:

* `PictureTape.Wire.Reader` — readers of a value;
* `Reader.take` — the next so many bytes;
* `Reader.word`, `Reader.number`, `Reader.finite`, `Reader.rect` — words and numbers;
* `Reader.padded`, `Reader.optional` — strings of bytes, and strings that may be absent;
* `Reader.times` — the same field several times.

Main results:

* `Reader.take_eq` — what `take` does in terms of the length of the input;
* `Reader.take_eq_ok_iff` — what it takes and leaves makes up the input;
* `Reader.word_append`, `Reader.rect_append`, `Reader.padded_append`,
  `Reader.optional_append_some` — **a field that was written is read back, whatever follows it.**
-/

import PictureTape.PictureError
import PictureTape.Wire.Writer

set_option autoImplicit false
set_option relaxedAutoImplicit false

namespace PictureTape

namespace Wire

/-- A reader of a value: it takes bytes from the front, and may fail. -/
abbrev Reader (α : Type) : Type := StateT Bytes (Except PictureError) α

namespace Reader

/-! ### Sequences of readers -/

theorem bind_eq_ok_iff {α β : Type} {first : Reader α} {next : α → Reader β} {input : Bytes}
    {result : β × Bytes} :
    (first >>= next) input = .ok result ↔
      ∃ a rest, first input = .ok (a, rest) ∧ next a rest = .ok result := by
  change (first input).bind (fun p => next p.1 p.2) = .ok result ↔ _
  rcases first input with e | ⟨a, rest⟩
  · simp [Except.bind]
  · constructor
    · exact fun h => ⟨a, rest, rfl, h⟩
    · rintro ⟨_, _, ⟨⟩, h⟩
      exact h

theorem bind_of_ok {α β : Type} {first : Reader α} {next : α → Reader β} {input rest : Bytes}
    {a : α} (h : first input = .ok (a, rest)) : (first >>= next) input = next a rest := by
  change (first input).bind (fun p => next p.1 p.2) = _
  rw [h]
  rfl

/-- The reader that takes nothing and has this outcome. -/
def ofExcept {α : Type} (outcome : Except PictureError α) : Reader α := fun input =>
  outcome.map (·, input)

theorem ofExcept_eq_ok_iff {α : Type} {outcome : Except PictureError α} {input rest : Bytes}
    {a : α} : ofExcept outcome input = .ok (a, rest) ↔ outcome = .ok a ∧ rest = input := by
  cases outcome <;> simp [ofExcept, Except.map, eq_comm]

/-! ### Bytes -/

/-- Moves `n` bytes from the front of the input to the front part, which is kept backwards. -/
def moveFront : Nat → Bytes → Bytes → Except PictureError (Bytes × Bytes)
  | 0, front, rest => .ok (front.reverse, rest)
  | n + 1, _, [] => .error (.truncated (n + 1))
  | n + 1, front, b :: rest => moveFront n (b :: front) rest

/-- The next `n` bytes. -/
def take (n : Nat) : Reader Bytes := fun input => moveFront n [] input

theorem moveFront_eq (n : Nat) (front input : Bytes) :
    moveFront n front input =
      if n ≤ input.length then .ok (front.reverse ++ input.take n, input.drop n)
      else .error (.truncated (n - input.length)) := by
  induction n generalizing front input with
  | zero => simp [moveFront]
  | succ n ih =>
    cases input with
    | nil => simp [moveFront]
    | cons b rest => simp [moveFront, ih]

/-- **The next `n` bytes are there exactly when the input has as many;** otherwise the number of
those that are missing is reported. -/
theorem take_eq (n : Nat) (input : Bytes) :
    take n input =
      if n ≤ input.length then .ok (input.take n, input.drop n)
      else .error (.truncated (n - input.length)) := by
  simpa [take] using moveFront_eq n [] input

theorem take_eq_ok_iff {n : Nat} {input front rest : Bytes} :
    take n input = .ok (front, rest) ↔ input = front ++ rest ∧ front.length = n := by
  rw [take_eq]
  constructor
  · intro h
    split at h
    next hn =>
      cases h
      exact ⟨(List.take_append_drop n input).symm, List.length_take_of_le hn⟩
    next => cases h
  · rintro ⟨rfl, rfl⟩
    simp

/-- The next byte. -/
def byte : Reader UInt8
  | [] => .error (.truncated 1)
  | b :: rest => .ok (b, rest)

/-! ### Words and numbers -/

/-- The number that bytes spell, the lowest first. -/
def littleEndian (bytes : Bytes) : Nat := bytes.foldr (fun b n => b.toNat + 0x100 * n) 0

/-- The next word. -/
def word : Reader UInt32 := do
  let bytes ← take 4
  return .ofNat (littleEndian bytes)

theorem word_eq_ok_iff {input rest : Bytes} {w : UInt32} :
    word input = .ok (w, rest) ↔
      ∃ bytes, input = bytes ++ rest ∧ bytes.length = 4 ∧ w = .ofNat (littleEndian bytes) := by
  unfold word
  rw [bind_eq_ok_iff]
  constructor
  · rintro ⟨bytes, _, htake, ⟨⟩⟩
    obtain ⟨hinput, hlength⟩ := take_eq_ok_iff.1 htake
    exact ⟨bytes, hinput, hlength, rfl⟩
  · rintro ⟨bytes, hinput, hlength, rfl⟩
    exact ⟨bytes, rest, take_eq_ok_iff.2 ⟨hinput, hlength⟩, rfl⟩

/-- The next number, which may be infinite or a NaN. -/
def number : Reader Binary32 := do
  let bits ← word
  return ⟨bits⟩

/-- The next number, which has to be finite. -/
def finite : Reader Binary32 := do
  let x ← number
  if x.isFinite then return x else throw .nonFinite

/-- An offset of finite numbers. -/
def offset : Reader Offset := do
  let x ← finite
  let y ← finite
  return ⟨x, y⟩

/-- A rectangle of finite numbers. -/
def rect : Reader Rect := do
  let x ← finite
  let y ← finite
  let width ← finite
  let height ← finite
  return ⟨x, y, width, height⟩

/-- The tag that has to come next. -/
def tag (expected : UInt32) : Reader Unit := do
  let found ← word
  if found = expected then return () else throw (.badTag expected found)

/-! ### Strings of bytes -/

/-- The bytes of a string of length `n`, and what fills it up. -/
def paddedBody (n : Nat) : Reader Bytes := do
  let bytes ← take n
  let _ ← take (padding n)
  return bytes

/-- A string of bytes; what it is filled up with does not matter. -/
def padded : Reader Bytes := do
  let n ← word
  paddedBody n.toNat

/-- A string of bytes that may be absent. -/
def optional : Reader (Option Bytes) := do
  let n ← word
  if n = absent then return none
  else
    let bytes ← paddedBody n.toNat
    return some bytes

/-! ### Repetition -/

/-- The field `n` more times, after those in `done`, which are kept backwards. -/
def timesAfter {α : Type} (field : Reader α) (done : List α) : Nat → Reader (List α)
  | 0 => pure done.reverse
  | n + 1 => do
    let a ← field
    timesAfter field (a :: done) n

/-- The same field `n` times. -/
def times {α : Type} (n : Nat) (field : Reader α) : Reader (List α) := timesAfter field [] n

/-! ### Reading what was written -/

theorem take_append (front rest : Bytes) :
    take front.length (front ++ rest) = .ok (front, rest) :=
  take_eq_ok_iff.2 ⟨rfl, rfl⟩

theorem littleEndian_word (w : UInt32) : littleEndian (Wire.word w) = w.toNat := by
  have h := w.toNat_lt
  simp only [littleEndian, Wire.word, List.foldr_cons, List.foldr_nil, UInt8.toNat_ofNat',
    Nat.reducePow] at *
  omega

theorem word_append (w : UInt32) (rest : Bytes) :
    word (Wire.word w ++ rest) = .ok (w, rest) :=
  word_eq_ok_iff.2 ⟨Wire.word w, rfl, rfl, by rw [littleEndian_word, UInt32.ofNat_toNat]⟩

theorem number_append (x : Binary32) (rest : Bytes) :
    number (Wire.number x ++ rest) = .ok (x, rest) :=
  bind_of_ok (word_append x.bits rest)

theorem finite_append {x : Binary32} (h : x.isFinite = true) (rest : Bytes) :
    finite (Wire.number x ++ rest) = .ok (x, rest) := by
  unfold finite
  rw [bind_of_ok (number_append x rest), if_pos h]
  rfl

theorem rect_append {r : Rect} (h : r.isFinite = true) (rest : Bytes) :
    rect (Wire.rect r ++ rest) = .ok (r, rest) := by
  simp only [Rect.isFinite, Bool.and_eq_true] at h
  obtain ⟨⟨⟨hx, hy⟩, hw⟩, hh⟩ := h
  unfold rect Wire.rect
  simp only [List.append_assoc]
  rw [bind_of_ok (finite_append hx _), bind_of_ok (finite_append hy _),
    bind_of_ok (finite_append hw _), bind_of_ok (finite_append hh _)]
  rfl

theorem paddedBody_append (bytes filling rest : Bytes)
    (h : filling.length = padding bytes.length) :
    paddedBody bytes.length (bytes ++ (filling ++ rest)) = .ok (bytes, rest) := by
  unfold paddedBody
  rw [bind_of_ok (take_append bytes _), bind_of_ok (take_eq_ok_iff.2 ⟨rfl, h⟩)]
  rfl

theorem padded_append {bytes : Bytes} (h : bytes.length < UInt32.size) (rest : Bytes) :
    padded (Wire.padded bytes ++ rest) = .ok (bytes, rest) := by
  unfold padded Wire.padded
  simp only [List.append_assoc]
  rw [bind_of_ok (word_append _ _), UInt32.toNat_ofNat_of_lt' h]
  exact paddedBody_append bytes _ rest (List.length_replicate ..)

theorem optional_append_none (rest : Bytes) :
    optional (Wire.optional none ++ rest) = .ok (none, rest) := by
  unfold optional Wire.optional
  rw [bind_of_ok (word_append absent rest), if_pos rfl]
  rfl

theorem optional_append_some {bytes : Bytes} (h : bytes.length < absent.toNat) (rest : Bytes) :
    optional (Wire.optional (some bytes) ++ rest) = .ok (some bytes, rest) := by
  have hsize : bytes.length < UInt32.size := Nat.lt_trans h (by decide)
  have hne : UInt32.ofNat bytes.length ≠ absent := by
    intro heq
    have hnat := congrArg UInt32.toNat heq
    rw [UInt32.toNat_ofNat_of_lt' hsize] at hnat
    omega
  unfold optional Wire.optional Wire.padded
  simp only [List.append_assoc]
  rw [bind_of_ok (word_append _ _), if_neg hne, UInt32.toNat_ofNat_of_lt' hsize,
    bind_of_ok (paddedBody_append bytes _ rest (List.length_replicate ..))]
  rfl

end Reader

end Wire

end PictureTape

/-
**A decoder that checks its own steps.**

Some steps of a decoder have a domain: a difference of two lengths must not be negative, a split
must not be behind the end, a byte or a word must be there when it is taken, and a paint must be in
the table when it is looked up.  Here the decoder is written with such steps, each of them behind
the check that is made before it, and with a limit for the turns of each of its two loops.  A step
outside its domain, or a turn too many, is a fault: no outcome at all.  The decoder has no faults,
since it does what the readers of the fields do.

Main definitions:

* `PictureTape.Guarded` — readers that may have a fault;
* `Guarded.difference?`, `Guarded.splitAt?`, `Guarded.byte?`, `Guarded.word?` — steps that have a
  domain;
* `Guarded.Follows` — a reader without faults that does what another reader does;
* `Guarded.decode` — the decoder, with limits for the turns of its loops.

Main results:

* `Guarded.Follows.bind` — readers without faults one after the other are one;
* `Guarded.times_eq_some`, `Guarded.commands_eq_some` — **the loops end,** since each turn takes
  bytes;
* `Picture.decode_guarded` — **no step of the decoder is outside its domain,** whatever the bytes
  are.
-/

import PictureTape.Proofs.Acceptance

set_option autoImplicit false
set_option relaxedAutoImplicit false

namespace PictureTape

open Wire (Reader)

/-- Readers that may take a step outside its domain: then there is no outcome. -/
abbrev Guarded (α : Type) : Type := StateT Bytes (ExceptT PictureError Option) α

namespace Guarded

variable {α β : Type}

/-! ### Steps that have a domain -/

/-- A difference that is not negative. -/
def difference? (m n : Nat) : Option Nat := if n ≤ m then some (m - n) else none

/-- The first `n` bytes and those behind them, if there are as many. -/
def splitAt? (n : Nat) (bytes : Bytes) : Option (Bytes × Bytes) :=
  if n ≤ bytes.length then some (bytes.splitAt n) else none

/-- The first byte, if there is one. -/
def byte? : Bytes → Option (UInt8 × Bytes)
  | [] => none
  | b :: rest => some (b, rest)

/-- The word in the first four bytes, if there are as many. -/
def word? : Bytes → Option (UInt32 × Bytes)
  | a :: b :: c :: d :: rest => some (.ofNat (Reader.littleEndian [a, b, c, d]), rest)
  | _ => none

/-- Takes nothing, and has a fault if there is no value. -/
def value (v : Option α) : Guarded α := fun input => v.map fun a => .ok (a, input)

/-- Takes a step on the input. -/
def step (f : Bytes → Option (α × Bytes)) : Guarded α := fun input => (f input).map .ok

/-! ### The readers of the fields -/

/-- Are there `n` more bytes?  If not, it fails with the number of those that are missing. -/
def ensure (n : Nat) : Guarded Unit := do
  let input ← get
  if input.length < n then
    let missing ← value (difference? n input.length)
    throw (.truncated missing)

def byte : Guarded UInt8 := do
  ensure 1
  step byte?

def word : Guarded UInt32 := do
  ensure 4
  step word?

def take (n : Nat) : Guarded Bytes := do
  ensure n
  step (splitAt? n)

def number : Guarded Binary32 := do
  let bits ← word
  return ⟨bits⟩

def finite : Guarded Binary32 := do
  let x ← number
  if x.isFinite then return x else throw .nonFinite

def offset : Guarded Offset := do
  let x ← finite
  let y ← finite
  return ⟨x, y⟩

def rect : Guarded Rect := do
  let x ← finite
  let y ← finite
  let width ← finite
  let height ← finite
  return ⟨x, y, width, height⟩

def tag (expected : UInt32) : Guarded Unit := do
  let found ← word
  if found = expected then return () else throw (.badTag expected found)

def paddedBody (n : Nat) : Guarded Bytes := do
  let bytes ← take n
  let gap ← value (difference? 4 (n % 4))
  let _ ← take (gap % 4)
  return bytes

def padded : Guarded Bytes := do
  let n ← word
  paddedBody n.toNat

def optional : Guarded (Option Bytes) := do
  let n ← word
  if n = Wire.absent then return none
  else
    let bytes ← paddedBody n.toNat
    return some bytes

/-- The same field `n` times, in no more turns than the limit. -/
def times (field : Guarded α) : (limit n : Nat) → Guarded (List α)
  | _, 0 => pure []
  | 0, _ + 1 => value none
  | limit + 1, n + 1 => do
    let a ← field
    let as ← times field limit n
    return a :: as

/-! ### The readers of paints, commands and pictures -/

def paint : Guarded Paint := do
  let argb ← word
  let strokeWidth ← finite
  let styleByte ← byte
  let some style := PaintStyle.ofByte? styleByte | throw (.badPaintStyle styleByte)
  let flags ← byte
  let _ ← take 2
  return ⟨.ofArgb argb, style, flags.toNat % 2 = 1, strokeWidth⟩

/-- The paint at a position, which is looked up if it is in the table. -/
def lookup (paints : Array Paint) (index : Nat) : Guarded Paint :=
  if index < paints.size then value paints[index]? else throw (.missingPaint index)

def payload (paints : Array Paint) (code : UInt8) : Guarded Command :=
  if code = 30 then pure .save
  else if code = 28 then pure .restore
  else if code = 35 then do
    let v ← offset
    return .translate v
  else if code = 21 then do
    let index ← word
    let paint ← lookup paints index.toNat
    let r ← rect
    return .drawRect r paint
  else if code = 60 then do
    let r ← rect
    let bytes ← padded
    let some key := Wire.toText? bytes | throw .invalidKey
    let value ← optional
    return .annotate r key value
  else throw (.unknownCommand code)

/-- Reads other bytes than the input; what is left of them is given, too. -/
def reading (bytes : Bytes) (field : Guarded α) : Guarded (α × Bytes) := fun input =>
  Option.map (Except.map fun r => (r, input)) (field bytes)

def sized (paints : Array Paint) (code : UInt8) (size : Nat) : Guarded Command :=
  if size < 4 then throw (.badCommandSize code size)
  else do
    let n ← value (difference? size 4)
    let bytes ← take n
    let (c, rest) ← reading bytes (payload paints code)
    if rest.isEmpty then return c else throw (.badCommandSize code size)

def command (paints : Array Paint) : Guarded Command := do
  let first ← word
  sized paints (Command.headerCode first) (Command.headerSize first)

/-- All commands up to the end of the input, in no more turns than the limit. -/
def commands (paints : Array Paint) : (limit : Nat) → Guarded (List Command)
  | 0 => do
    let input ← get
    if input.isEmpty then return [] else value none
  | limit + 1 => do
    let input ← get
    if input.isEmpty then return []
    else
      let c ← command paints
      let cs ← commands paints limit
      return c :: cs

/-- All commands in other bytes than the input. -/
def stream (paints : Array Paint) (limit : Nat) (bytes : Bytes) : Guarded (List Command) := do
  let (cs, _) ← reading bytes (commands paints limit)
  return cs

/-- A body, with limits for the entries of the table and, for each stream, for the commands in
it. -/
def body (entryLimit : Nat) (commandLimit : Bytes → Nat) (bounds : Rect) : Guarded Contents := do
  tag Picture.commandTag
  let length ← word
  let bytes ← take length.toNat
  tag Picture.paintTag
  let count ← word
  let paints ← times paint entryLimit count.toNat
  tag Picture.endTag
  let cs ← stream paints.toArray (commandLimit bytes) bytes
  return ⟨bounds, some (paints, cs)⟩

/-- The data of a picture, with limits for the turns of the loops. -/
def contents (entryLimit : Nat) (commandLimit : Bytes → Nat) : Guarded Contents := do
  let start ← take Picture.magic.length
  if start ≠ Picture.magic then throw .badMagic
  let version ← word
  if version ≠ Picture.version then throw (.unsupportedVersion version)
  let bounds ← rect
  let hasBody ← byte
  if hasBody = 0 then return ⟨bounds, none⟩
  body entryLimit commandLimit bounds

/-- The picture that bytes stand for, unless there is a fault. -/
def decode (entryLimit : Nat) (commandLimit : Bytes → Nat) (bytes : Bytes) :
    Option (Except PictureError Picture) :=
  Option.map (Except.map fun r => r.1.picture) (contents entryLimit commandLimit bytes)

/-! ### Sequences -/

theorem bind_of_ok {first : Guarded α} {next : α → Guarded β} {input rest : Bytes} {a : α}
    (h : first input = some (.ok (a, rest))) : (first >>= next) input = next a rest := by
  change (first input >>= fun r => next r.1 r.2) = _
  rw [h]
  rfl

theorem bind_of_error {first : Guarded α} {next : α → Guarded β} {input : Bytes}
    {e : PictureError} (h : first input = some (.error e)) :
    (first >>= next) input = some (.error e) := by
  change (first input >>= fun r => next r.1 r.2) = _
  rw [h]
  rfl

/-- If a first step has no fault, and none of the steps that may come next has one, then there is
none in the sequence. -/
theorem bind_eq_some {first : Guarded α} {first' : Reader α} {next : α → Guarded β}
    {next' : α → Reader β} {input : Bytes} (hfirst : first input = some (first' input))
    (hnext : ∀ a rest, first' input = .ok (a, rest) → next a rest = some (next' a rest)) :
    (first >>= next) input = some ((first' >>= next') input) := by
  cases hread : first' input with
  | error e =>
      rw [hread] at hfirst
      rw [bind_of_error hfirst, Reader.bind_of_error hread]
  | ok r =>
      obtain ⟨a, rest⟩ := r
      rw [hread] at hfirst
      rw [bind_of_ok hfirst, Reader.bind_of_ok hread]
      exact hnext a rest hread

/-- On inputs that are not too long there is no fault, and what is done is what the other reader
does; it does not make the input longer. -/
structure Follows (longest : Nat) (g : Guarded α) (r : Reader α) : Prop where
  eq_some {input : Bytes} (h : input.length ≤ longest) : g input = some (r input)
  length_le {input rest : Bytes} {a : α} (h : r input = .ok (a, rest)) :
    rest.length ≤ input.length

variable {longest : Nat}

namespace Follows

theorem pure (a : α) : Follows longest (Pure.pure a) (Pure.pure a) where
  eq_some _ := rfl
  length_le h := by
    cases h
    exact Nat.le_refl _

theorem throw (e : PictureError) : Follows longest (throw e : Guarded α) (throw e) where
  eq_some _ := rfl
  length_le := nofun

/-- **Readers without faults one after the other have no faults.** -/
theorem bind {first : Guarded α} {first' : Reader α} {next : α → Guarded β}
    {next' : α → Reader β} (hfirst : Follows longest first first')
    (hnext : ∀ a, Follows longest (next a) (next' a)) :
    Follows longest (first >>= next) (first' >>= next') where
  eq_some h := bind_eq_some (hfirst.eq_some h) fun a _ hread =>
    (hnext a).eq_some (Nat.le_trans (hfirst.length_le hread) h)
  length_le h := by
    obtain ⟨a, middle, hread, hrest⟩ := Reader.bind_eq_ok_iff.1 h
    exact Nat.le_trans ((hnext a).length_le hrest) (hfirst.length_le hread)

theorem ite {condition : Prop} [Decidable condition] {g g' : Guarded α} {r r' : Reader α}
    (h : Follows longest g r) (h' : Follows longest g' r') :
    Follows longest (if condition then g else g') (if condition then r else r') := by
  split
  · exact h
  · exact h'

end Follows

/-! ### The readers of the fields have no faults -/

theorem ensure_of_le {n : Nat} {input : Bytes} (h : n ≤ input.length) :
    ensure n input = some (.ok ((), input)) := by
  unfold ensure
  rw [bind_of_ok rfl, if_neg (Nat.not_lt.2 h)]
  rfl

theorem ensure_of_lt {n : Nat} {input : Bytes} (h : input.length < n) :
    ensure n input = some (.error (.truncated (n - input.length))) := by
  have hmissing : (value (difference? n input.length) : Guarded Nat) input =
      some (.ok (n - input.length, input)) := by
    simp [value, difference?, Nat.le_of_lt h]
  unfold ensure
  rw [bind_of_ok rfl, if_pos h, bind_of_ok hmissing]
  rfl

theorem follows_take (n : Nat) : Follows longest (take n) (Reader.take n) where
  eq_some {input} _ := by
    rw [Reader.take_eq]
    split
    next h =>
      rw [take, bind_of_ok (ensure_of_le h)]
      simp [step, splitAt?, h]
    next h => exact bind_of_error (ensure_of_lt (Nat.lt_of_not_le h))
  length_le h := by
    obtain ⟨rfl, -⟩ := Reader.take_eq_ok_iff.1 h
    rw [List.length_append]
    exact Nat.le_add_left _ _

theorem follows_byte : Follows longest byte Reader.byte where
  eq_some {input} _ := by
    cases input with
    | nil => rfl
    | cons b rest => rfl
  length_le h := by
    rw [Reader.byte_eq_ok_iff.1 h]
    exact Nat.le_add_right _ _

theorem follows_word : Follows longest word Reader.word where
  eq_some {input} _ := by
    match input with
    | [] => rfl
    | [_] => rfl
    | [_, _] => rfl
    | [_, _, _] => rfl
    | _ :: _ :: _ :: _ :: _ => rfl
  length_le h := by
    rw [Reader.word_eq_ok_iff_word.1 h, List.length_append]
    exact Nat.le_add_left _ _

theorem follows_finite : Follows longest finite Reader.finite :=
  have hnumber : Follows longest number Reader.number := follows_word.bind fun _ => .pure _
  hnumber.bind fun x => .ite (.pure x) (.throw .nonFinite)

theorem follows_offset : Follows longest offset Reader.offset :=
  follows_finite.bind fun _ => follows_finite.bind fun _ => .pure _

theorem follows_rect : Follows longest rect Reader.rect :=
  follows_finite.bind fun _ => follows_finite.bind fun _ => follows_finite.bind fun _ =>
    follows_finite.bind fun _ => .pure _

theorem follows_tag (expected : UInt32) : Follows longest (tag expected) (Reader.tag expected) :=
  follows_word.bind fun _ => .ite (.pure ()) (.throw _)

/-- The gap behind a string is not negative. -/
theorem follows_paddedBody (n : Nat) :
    Follows longest (paddedBody n) (Reader.paddedBody n) := by
  refine (follows_take n).bind fun bytes => ?_
  have hgap : difference? 4 (n % 4) = some (4 - n % 4) :=
    if_pos (Nat.le_of_lt (Nat.mod_lt n (by decide)))
  rw [hgap]
  exact (follows_take _).bind fun _ => .pure bytes

theorem follows_padded : Follows longest padded Reader.padded :=
  follows_word.bind fun n => follows_paddedBody n.toNat

theorem follows_optional : Follows longest optional Reader.optional :=
  follows_word.bind fun n =>
    .ite (.pure none) ((follows_paddedBody n.toNat).bind fun bytes => .pure (some bytes))

theorem follows_paint : Follows longest paint Paint.read := by
  refine follows_word.bind fun argb => follows_finite.bind fun width =>
    follows_byte.bind fun styleByte => ?_
  cases PaintStyle.ofByte? styleByte with
  | none => exact .throw _
  | some style => exact follows_byte.bind fun flags => (follows_take 2).bind fun _ => .pure _

/-! ### The loop over the entries -/

/-- **The loop over a table ends:** each entry that is read takes some bytes. -/
theorem times_eq_some {field : Guarded α} {field' : Reader α} {size limit : Nat}
    (hfield : Follows longest field field') (hsize : 0 < size)
    (htakes : ∀ {input rest : Bytes} {a : α}, field' input = .ok (a, rest) →
      rest.length + size = input.length) {input : Bytes} (hinput : input.length ≤ longest)
    (hlimit : input.length / size < limit) (n : Nat) :
    times field limit n input = some (Reader.times n field' input) := by
  induction limit generalizing input n with
  | zero => exact absurd hlimit (Nat.not_lt_zero _)
  | succ limit ih =>
      cases n with
      | zero => rfl
      | succ n =>
          rw [Reader.times_succ]
          refine bind_eq_some (hfield.eq_some hinput) fun a rest hread => ?_
          have htaken := htakes hread
          have hturns : input.length / size = rest.length / size + 1 := by
            rw [← htaken, Nat.add_div_right _ hsize]
          have hagain : times field limit n rest = some (Reader.times n field' rest) :=
            ih (by omega) (by omega) n
          exact bind_eq_some hagain fun _ _ _ => rfl

theorem length_le_of_times {field : Reader α}
    (hfield : ∀ {input rest : Bytes} {a : α}, field input = .ok (a, rest) →
      rest.length ≤ input.length) {n : Nat} {input rest : Bytes} {as : List α}
    (h : Reader.times n field input = .ok (as, rest)) : rest.length ≤ input.length := by
  induction n generalizing input as with
  | zero =>
      cases h
      exact Nat.le_refl _
  | succ n ih =>
      rw [Reader.times_succ] at h
      obtain ⟨a, middle, hfirst, h⟩ := Reader.bind_eq_ok_iff.1 h
      obtain ⟨as, after, hrest, ⟨⟩⟩ := Reader.bind_eq_ok_iff.1 h
      exact Nat.le_trans (ih hrest) (hfield hfirst)

/-- A paint table is read in no more turns than there is room for entries, whatever its number of
entries is said to be. -/
theorem follows_paints {limit : Nat} (hlimit : longest / 12 < limit) (n : Nat) :
    Follows longest (times paint limit n) (Reader.times n Paint.read) where
  eq_some {input} h := by
    have htakes : ∀ {input rest : Bytes} {p : Paint}, Paint.read input = .ok (p, rest) →
        rest.length + 12 = input.length := by
      intro input rest p hread
      obtain ⟨hlength, rfl⟩ := Paint.eq_drop_of_read hread
      rw [List.length_drop]
      omega
    exact times_eq_some follows_paint (by decide) htakes h (by omega) n
  length_le h := by
    have hpaint : Follows longest paint Paint.read := follows_paint
    exact length_le_of_times hpaint.length_le h

/-! ### The loop over the commands -/

variable (paints : Array Paint)

/-- A paint is looked up only if it is in the table. -/
theorem lookup_eq (index : Nat) :
    lookup paints index =
      match paints[index]? with
      | some p => pure p
      | none => throw (.missingPaint index) := by
  unfold lookup
  split
  next h =>
    rw [Array.getElem?_eq_getElem h]
    rfl
  next h => rw [Array.getElem?_eq_none (Nat.le_of_not_lt h)]

theorem follows_payload (code : UInt8) :
    Follows longest (payload paints code) (Command.readPayload paints code) := by
  unfold payload Command.readPayload
  refine .ite (.pure _) (.ite (.pure _) (.ite ?_ (.ite ?_ (.ite ?_ (.throw _)))))
  · exact follows_offset.bind fun v => .pure _
  · refine follows_word.bind fun index => ?_
    rw [lookup_eq]
    cases paints[index.toNat]? with
    | none => exact .throw _
    | some p =>
        simp only [pure_bind]
        exact follows_rect.bind fun r => .pure _
  · refine follows_rect.bind fun r => follows_padded.bind fun bytes => ?_
    cases Wire.toText? bytes with
    | none => exact .throw _
    | some key => exact follows_optional.bind fun value => .pure _

theorem reading_eq_some {field : Guarded α} {bytes : Bytes}
    {outcome : Except PictureError (α × Bytes)} (h : field bytes = some outcome)
    (input : Bytes) :
    reading bytes field input = some (outcome.map fun r => (r, input)) := by
  unfold reading
  rw [h]
  rfl

/-- A payload that was cut out is read to its end. -/
theorem follows_ofPayload (code : UInt8) (size : Nat) (bytes : Bytes) :
    Follows longest
      (do
        let (c, rest) ← reading bytes (payload paints code)
        if rest.isEmpty then return c else throw (.badCommandSize code size))
      (Reader.ofExcept (Command.ofPayload paints code size bytes)) where
  eq_some {input} _ := by
    have hpayload := (follows_payload paints code).eq_some (Nat.le_refl bytes.length)
    have hreading := reading_eq_some hpayload input
    unfold Command.ofPayload
    cases hread : Command.readPayload paints code bytes with
    | error e =>
        rw [hread] at hreading
        rw [bind_of_error hreading]
        rfl
    | ok r =>
        obtain ⟨c, rest⟩ := r
        rw [hread] at hreading
        rw [bind_of_ok hreading]
        cases rest with
        | nil => rfl
        | cons b rest => rfl
  length_le h := by
    obtain ⟨-, rfl⟩ := Reader.ofExcept_eq_ok_iff.1 h
    exact Nat.le_refl _

/-- Four is taken from a size only if the size is not below four. -/
theorem follows_sized (code : UInt8) (size : Nat) :
    Follows longest (sized paints code size) (Command.readSized paints code size) := by
  unfold sized Command.readSized
  split
  next h => exact .throw _
  next h =>
    have hdifference : difference? size 4 = some (size - 4) := if_pos (Nat.le_of_not_lt h)
    rw [hdifference]
    exact (follows_take _).bind fun bytes => follows_ofPayload paints code size bytes

theorem follows_command : Follows longest (command paints) (Command.read paints) :=
  follows_word.bind fun _ => follows_sized paints _ _

/-- **The loop over a stream ends:** each command that is read takes at least four bytes. -/
theorem commands_eq_some {limit : Nat} {input : Bytes} (hlimit : input.length / 4 < limit) :
    commands paints limit input = some ((Command.readAll paints input).map fun cs => (cs, [])) := by
  induction limit generalizing input with
  | zero => exact absurd hlimit (Nat.not_lt_zero _)
  | succ limit ih =>
      cases input with
      | nil =>
          rw [Command.readAll_nil]
          rfl
      | cons b bytes =>
          have hstep : commands paints (limit + 1) (b :: bytes) =
              (do
                let c ← command paints
                let cs ← commands paints limit
                return c :: cs : Guarded (List Command)) (b :: bytes) := rfl
          have hfirst := (follows_command paints).eq_some (Nat.le_refl (b :: bytes).length)
          cases hread : Command.read paints (b :: bytes) with
          | error e =>
              rw [hread] at hfirst
              rw [hstep, bind_of_error hfirst,
                Command.readAll_of_error (List.cons_ne_nil b bytes) hread]
              rfl
          | ok r =>
              obtain ⟨c, rest⟩ := r
              obtain ⟨size, hsize, hlength⟩ := Command.length_add_of_read hread
              have hagain : commands paints limit rest = _ := ih (by omega)
              rw [hread] at hfirst
              rw [hstep, bind_of_ok hfirst, Command.readAll_of_ok hread]
              cases hrest : Command.readAll paints rest with
              | error e =>
                  rw [hrest] at hagain
                  exact bind_of_error hagain
              | ok cs =>
                  rw [hrest] at hagain
                  exact bind_of_ok hagain

/-! ### Pictures -/

variable {entryLimit : Nat} {commandLimit : Bytes → Nat}

theorem follows_stream {limit : Nat} {bytes : Bytes} (hlimit : bytes.length / 4 < limit) :
    Follows longest (stream paints limit bytes)
      (Reader.ofExcept (Command.readAll paints bytes)) where
  eq_some {input} _ := by
    have hreading := reading_eq_some (commands_eq_some paints hlimit) input
    unfold stream
    cases hread : Command.readAll paints bytes with
    | error e =>
        rw [hread] at hreading
        exact bind_of_error hreading
    | ok cs =>
        rw [hread] at hreading
        exact bind_of_ok hreading
  length_le h := by
    obtain ⟨-, rfl⟩ := Reader.ofExcept_eq_ok_iff.1 h
    exact Nat.le_refl _

theorem follows_body (hentries : longest / 12 < entryLimit)
    (hcommands : ∀ bytes, bytes.length / 4 < commandLimit bytes) (bounds : Rect) :
    Follows longest (body entryLimit commandLimit bounds) (Contents.readBody bounds) :=
  (follows_tag _).bind fun _ => follows_word.bind fun _ =>
    (follows_take _).bind fun bytes => (follows_tag _).bind fun _ =>
    follows_word.bind fun _ => (follows_paints hentries _).bind fun _ =>
    (follows_tag _).bind fun _ => (follows_stream _ (hcommands bytes)).bind fun _ => .pure _

/-- The decoder has no faults, if there are turns for the entries and the commands that the bytes
have room for. -/
theorem follows_contents (hentries : longest / 12 < entryLimit)
    (hcommands : ∀ bytes, bytes.length / 4 < commandLimit bytes) :
    Follows longest (contents entryLimit commandLimit) Contents.read := by
  refine (follows_take _).bind fun start => ?_
  split
  next h => exact .throw _
  next h =>
    refine follows_word.bind fun version => ?_
    split
    next h => exact .throw _
    next h =>
      exact follows_rect.bind fun bounds => follows_byte.bind fun mark =>
        .ite (.pure _) (follows_body hentries hcommands bounds)

end Guarded

/-! ### Decoding has no faults -/

/-- A command that is read takes the bytes that its first word says, which are at least four and not
more than there are. -/
theorem Command.exists_headerSize_of_read {paints : Array Paint} {input rest : Bytes} {c : Command}
    (h : Command.read paints input = .ok (c, rest)) :
    ∃ first, Wire.word first <+: input ∧ 4 ≤ headerSize first ∧
      headerSize first ≤ input.length ∧ rest = input.drop (headerSize first) := by
  obtain ⟨first, payload, rfl, hsize, -⟩ := read_eq_ok_iff.1 h
  refine ⟨first, List.prefix_append _ _, by omega, ?_, ?_⟩
  · simp only [List.length_append, Wire.length_word]
    omega
  · have hlength : headerSize first = (Wire.word first ++ payload).length := by
      rw [List.length_append, Wire.length_word]
      omega
    rw [hlength, ← List.append_assoc, List.drop_left]

theorem Command.ReadsUpTo.length_add_le {paints : Array Paint} {commands : List Command}
    {input rest : Bytes} (h : ReadsUpTo paints commands input rest) :
    4 * commands.length + rest.length ≤ input.length := by
  induction h with
  | nil rest => exact Nat.le_of_eq (Nat.zero_add _)
  | cons hread _ ih =>
      obtain ⟨size, hsize, hlength⟩ := length_add_of_read hread
      rw [List.length_cons]
      omega

namespace Picture

/-- **No step of the decoder is outside its domain, and its loops end.**  Whatever the bytes are,
the decoder that checks its steps has an outcome, a picture or an error, and it is the one of
`decode`; its loops need no more turns than there are twelve bytes for in all the bytes, and four in
the stream, and one that ends them.  A command that is read takes the bytes that its first word
says, at least four and not more than there are, so a stream has a command for each four bytes at
most; an entry of the paint table that is read takes twelve bytes. -/
theorem decode_guarded :
    (∀ d, Guarded.decode (d.length / 12 + 1) (fun stream => stream.length / 4 + 1) d =
      some (Picture.decode d)) ∧
    (∀ paints input c rest, Command.read paints input = .ok (c, rest) →
      ∃ first, Wire.word first <+: input ∧ 4 ≤ Command.headerSize first ∧
        Command.headerSize first ≤ input.length ∧
        rest = input.drop (Command.headerSize first)) ∧
    (∀ paints stream commands, Command.readAll paints stream = .ok commands →
      commands.length ≤ stream.length / 4) ∧
    ∀ input paint rest, Paint.read input = .ok (paint, rest) →
      12 ≤ input.length ∧ rest = input.drop 12 := by
  refine ⟨?_, ?_, ?_, ?_⟩
  · intro d
    have hcontents := (Guarded.follows_contents (Nat.lt_succ_self (d.length / 12))
      (fun bytes => Nat.lt_succ_self (bytes.length / 4))).eq_some (Nat.le_refl d.length)
    unfold Guarded.decode Picture.decode Contents.decode
    rw [hcontents]
    cases Contents.read d with
    | error e => rfl
    | ok r => rfl
  · intro paints input c rest h
    exact Command.exists_headerSize_of_read h
  · intro paints stream commands h
    have hlength := (Command.readAll_eq_ok_iff.1 h).length_add_le
    rw [List.length_nil] at hlength
    omega
  · intro input paint rest h
    exact Paint.eq_drop_of_read h

/-- A picture with a single command, and with thirty bytes for a table that is said to have as many
entries as a word can tell. -/
def manyEntries : Bytes :=
  head ⟨0, 0, 1, 1⟩ ++ (1 :: (Wire.word commandTag ++ (Wire.word 4 ++ ([4, 0, 0, 30] ++
    (Wire.word paintTag ++ (Wire.word 0xffffffff ++ List.replicate 30 0))))))

/-- The table ends in its third entry, so two turns are too few for it; a save in front of another
byte, and two commands. -/
theorem decode_guarded_manyEntries :
    Guarded.decode 7 (fun stream => stream.length / 4 + 1) manyEntries =
      some (.error (.truncated 2)) ∧
    Guarded.decode 2 (fun stream => stream.length / 4 + 1) manyEntries = none ∧
    (∃ first, Wire.word first <+: [4, 0, 0, 30, 7] ∧ 4 ≤ Command.headerSize first ∧
      Command.headerSize first ≤ 5 ∧
        ([7] : Bytes) = [4, 0, 0, 30, 7].drop (Command.headerSize first)) ∧
    [Command.save, .restore].length ≤ 8 / 4 ∧
    12 ≤ (List.replicate 13 0 : Bytes).length ∧ [0] = (List.replicate 13 0 : Bytes).drop 12 := by
  obtain ⟨houtcome, hcommand, hstream, hentry⟩ := decode_guarded
  have hcommands : Command.readAll #[] [4, 0, 0, 30, 4, 0, 0, 28] = .ok [.save, .restore] :=
    Command.readAll_eq_ok_iff.2 (.cons rfl (.cons rfl (.nil [])))
  exact ⟨houtcome manyEntries, rfl, hcommand #[] [4, 0, 0, 30, 7] .save [7] rfl,
    hstream #[] _ _ hcommands, hentry (List.replicate 13 0) _ [0] rfl⟩

end Picture

end PictureTape
/-
**What a wrong size is reported as.**

The payload of a command is cut out by its size before the fields are read from it.  If the size is
too large and stays inside the stream, then bytes are left over, and the size is reported.  If it is
too small, or leads out of the stream, then the fields run out of bytes first.  What is reported in
that case is that the bytes end too early, also where the picture is complete up to its end tag and
nothing is missing but a right size.

Main results:

* `Wire.Reader.Steady.exists_truncated` — bytes that are a field to their end are cut off at every
  point before it;
* `Command.read_of_surplus`, `Command.exists_read_of_missing` — a payload that is followed by more
  bytes, and one that is cut off;
* `Picture.decode_of_isFramed` — **which fault a wrong size leads to,** and what it is for a complete
  picture that it ends too early.
-/

import PictureTape.Proofs.Extension

set_option autoImplicit false
set_option relaxedAutoImplicit false

namespace PictureTape

/-- Bytes that are a field to their end are cut off at every point before it. -/
theorem Wire.Reader.Steady.exists_truncated {α : Type} {field : Reader α} (hsteady : field.Steady)
    {front missing : Bytes} {a : α} (h : field (front ++ missing) = .ok (a, []))
    (hmissing : missing ≠ []) :
    ∃ n, 0 < n ∧ n ≤ missing.length ∧ field front = .error (.truncated n) := by
  cases hfront : field front with
  | ok r =>
      -- the field would end before the missing bytes
      obtain ⟨b, rest⟩ := r
      rw [hsteady.ok hfront missing] at h
      have hrest : rest ++ missing = [] := congrArg Prod.snd (Except.ok.inj h)
      exact absurd (List.append_eq_nil_iff.1 hrest).2 hmissing
  | error e =>
      rcases e.eq_truncated_or_ne with ⟨n, rfl⟩ | hne
      · obtain ⟨hpos, hmore⟩ := hsteady.truncated hfront
        refine ⟨n, hpos, Nat.not_lt.1 fun hlt => ?_, rfl⟩
        rw [hmore missing hlt] at h
        cases h
      · rw [hsteady.error hfront hne missing] at h
        cases h

/-! ### Where a payload is cut -/

namespace Wire

section

variable {payload rest : Bytes} (h : payload <+: rest ∨ rest <+: payload) {k : Nat}
include h

/-- More bytes are taken than a payload has. -/
theorem exists_surplus (hk : payload.length < k) (hrest : k ≤ rest.length) :
    ∃ surplus after, rest = payload ++ surplus ++ after ∧ surplus ≠ [] ∧
      (payload ++ surplus).length = k := by
  obtain ⟨more, rfl⟩ : payload <+: rest := h.elim id fun hprefix => by
    have hlength := hprefix.length_le
    omega
  rw [List.length_append] at hrest
  refine ⟨more.take (k - payload.length), more.drop (k - payload.length), ?_, ?_, ?_⟩
  · rw [List.append_assoc, List.take_append_drop]
  · rw [ne_eq, ← List.length_eq_zero_iff, List.length_take]
    omega
  · rw [List.length_append, List.length_take]
    omega

/-- Fewer bytes are taken than a payload has. -/
theorem exists_missing (hk : k < payload.length) (hrest : k ≤ rest.length) :
    ∃ front missing after, payload = front ++ missing ∧ rest = front ++ after ∧
      front.length = k ∧ missing.length = payload.length - k := by
  have htake : payload.take k = rest.take k := by
    rcases h with ⟨more, rfl⟩ | ⟨more, rfl⟩
    · rw [List.take_append_of_le_length (Nat.le_of_lt hk)]
    · rw [List.take_append_of_le_length hrest]
  refine ⟨payload.take k, payload.drop k, rest.drop k, (List.take_append_drop k payload).symm, ?_,
    List.length_take_of_le (Nat.le_of_lt hk), List.length_drop⟩
  rw [htake, List.take_append_drop]

end

end Wire

/-! ### Commands -/

namespace Command

variable {paints : List Paint} {c : Command} {w : UInt32}

/-- Commands that are spelled in turn are read one after the other, if their numbers are finite. -/
theorem readsUpTo_of_inTurn (hpaints : ∀ paint ∈ paints, paint.strokeWidth.isFinite = true)
    {commands : List Command} {front : Bytes} (h : Wire.InTurn (IsPiece paints) commands front)
    (hfinite : ∀ b ∈ commands, b.isFinite = true) (rest : Bytes) :
    ReadsUpTo paints.toArray commands (front ++ rest) rest := by
  induction h with
  | nil => exact .nil rest
  | @cons b commands piece front hpiece _ ih =>
      obtain ⟨hb, hfinite⟩ := List.forall_mem_cons.1 hfinite
      have hread := read_append_of_isPiece hpiece hpaints (front ++ rest)
      rw [hb, ← List.append_assoc] at hread
      exact .cons hread (ih hfinite)

/-- A payload that is followed by more bytes of the same command. -/
theorem read_of_surplus (hpaints : ∀ paint ∈ paints, paint.strokeWidth.isFinite = true)
    (hc : c.isFinite = true) (hcode : headerCode w = c.code) {payload surplus : Bytes}
    (hpayload : IsPayload paints c payload) (hsurplus : surplus ≠ [])
    (hsize : (payload ++ surplus).length + 4 = headerSize w) (rest : Bytes) :
    read paints.toArray (Wire.word w ++ (payload ++ surplus ++ rest)) =
      .error (.badCommandSize c.code (headerSize w)) := by
  have hfields := readPayload_append_of_isPayload hpayload hpaints surplus
  rw [hc] at hfields
  obtain ⟨b, surplus', rfl⟩ := List.exists_cons_of_ne_nil hsurplus
  rw [read_word_append, ← hsize, readSized_append, hcode, ofPayload, hfields]
  rfl

/-- A payload that is cut off where the command ends by its size. -/
theorem exists_read_of_missing (hpaints : ∀ paint ∈ paints, paint.strokeWidth.isFinite = true)
    (hc : c.isFinite = true) (hcode : headerCode w = c.code) {front missing : Bytes}
    (hpayload : IsPayload paints c (front ++ missing)) (hmissing : missing ≠ [])
    (hsize : front.length + 4 = headerSize w) (rest : Bytes) :
    ∃ n, 0 < n ∧ n ≤ missing.length ∧
      read paints.toArray (Wire.word w ++ (front ++ rest)) = .error (.truncated n) := by
  have hfields := readPayload_append_of_isPayload hpayload hpaints []
  rw [hc, List.append_nil] at hfields
  obtain ⟨n, hpos, hn, hfront⟩ :=
    (steady_readPayload paints.toArray c.code).exists_truncated hfields hmissing
  rw [← hcode] at hfront
  have hne : Wire.word w ++ (front ++ rest) ≠ [] := by simp [Wire.word]
  exact ⟨n, hpos, hn, (read_eq_truncated_iff hne).2 (.payload hsize hfront)⟩

end Command

/-! ### Pictures -/

namespace Picture

variable {paints : List Paint} {stream d : Bytes}

theorem IsFramed.isFinite (h : IsFramed paints stream d) :
    ∀ paint ∈ paints, paint.strokeWidth.isFinite = true := by
  cases h
  assumption

/-- If the frame of a picture is there, then what is reported is the fault of the command behind
those that can be read. -/
theorem IsFramed.decode_eq_error {commands : List Command} {front rest : Bytes} {e : PictureError}
    (hframed : IsFramed paints (front ++ rest) d)
    (hfront : Wire.InTurn (Command.IsPiece paints) commands front)
    (hfinite : ∀ b ∈ commands, b.isFinite = true) (hne : rest ≠ [])
    (h : Command.read paints.toArray rest = .error e) : decode d = .error e :=
  (decode_eq_error_iff_of_isFramed hframed).2 (Command.readAll_eq_error_iff.2
    ⟨commands, rest, Command.readsUpTo_of_inTurn hframed.isFinite hfront hfinite rest, hne, h⟩)

/-- A picture that is complete up to its end tag ends too early exactly if the first command that
cannot be read is cut off. -/
theorem decode_eq_truncated_iff_of_isFramed (hframed : IsFramed paints stream d) {n : Nat} :
    decode d = .error (.truncated n) ↔
      ∃ commands front rest, stream = front ++ rest ∧
        Wire.InTurn (Command.IsPiece paints) commands front ∧
        (∀ b ∈ commands, b.isFinite = true) ∧ Command.EndsEarly paints.toArray rest n := by
  constructor
  · intro h
    obtain ⟨commands, rest, hreads, hne, hread⟩ :=
      Command.readAll_eq_error_iff.1 ((decode_eq_error_iff_of_isFramed hframed).1 h)
    obtain ⟨front, hstream, hfront, hfinite⟩ :=
      Command.exists_inTurn_of_readsUpTo hframed.isFinite hreads
    exact ⟨commands, front, rest, hstream, hfront, hfinite,
      (Command.read_eq_truncated_iff hne).1 hread⟩
  · rintro ⟨commands, front, rest, rfl, hfront, hfinite, hends⟩
    have hne := hends.ne_nil
    exact hframed.decode_eq_error hfront hfinite hne ((Command.read_eq_truncated_iff hne).2 hends)

/-- **Which fault a wrong size leads to.**  A picture that is complete up to its end tag ends too
early exactly if the first command that cannot be read is cut off, be it by the end of the stream or
by its own size.  If that command has a known code, and what stands behind its first word starts with
a payload of it or is the front of one, then its size is reported if it leaves no room for the first
word, or if it is too large and stays inside the stream.  If it leads out of the stream, then the
bytes up to where it leads are missing; if it is too small, then some of those that it leaves out
are. -/
theorem decode_of_isFramed (hframed : IsFramed paints stream d) :
    (∀ n, decode d = .error (.truncated n) ↔
      ∃ commands front rest, stream = front ++ rest ∧
        Wire.InTurn (Command.IsPiece paints) commands front ∧
        (∀ b ∈ commands, b.isFinite = true) ∧ Command.EndsEarly paints.toArray rest n) ∧
    ∀ (commands : List Command) (front : Bytes) (w : UInt32) (rest : Bytes) (c : Command)
        (payload : Bytes),
      stream = front ++ (Wire.word w ++ rest) →
      Wire.InTurn (Command.IsPiece paints) commands front →
      (∀ b ∈ commands, b.isFinite = true) →
      Command.headerCode w = c.code → Command.IsPayload paints c payload → c.isFinite = true →
      (payload <+: rest ∨ rest <+: payload) →
      (Command.headerSize w < 4 →
        decode d = .error (.badCommandSize c.code (Command.headerSize w))) ∧
      (c.size < Command.headerSize w → Command.headerSize w ≤ rest.length + 4 →
        decode d = .error (.badCommandSize c.code (Command.headerSize w))) ∧
      (rest.length + 4 < Command.headerSize w →
        decode d = .error (.truncated (Command.headerSize w - (rest.length + 4)))) ∧
      (4 ≤ Command.headerSize w → Command.headerSize w < c.size →
        Command.headerSize w ≤ rest.length + 4 →
        ∃ n, 0 < n ∧ n ≤ c.size - Command.headerSize w ∧ decode d = .error (.truncated n)) := by
  refine ⟨fun n => decode_eq_truncated_iff_of_isFramed hframed, ?_⟩
  intro commands front w rest c payload hstream hfront hfinite hcode hpayload hc hrest
  subst hstream
  have hpaints := hframed.isFinite
  have hlength := Command.length_of_isPayload hpayload
  have hreport : ∀ {e}, Command.read paints.toArray (Wire.word w ++ rest) = .error e →
      decode d = .error e :=
    hframed.decode_eq_error hfront hfinite (by simp [Wire.word])
  refine ⟨fun hsize => ?_, fun hsize hstays => ?_, fun hleads => ?_, fun hword hsize hstays => ?_⟩
  · apply hreport
    rw [Command.read_word_append, Command.readSized_of_lt_four hsize, hcode]
  · obtain ⟨surplus, after, rfl, hne, hsurplus⟩ :=
      Wire.exists_surplus hrest (k := Command.headerSize w - 4) (by omega) (by omega)
    exact hreport (Command.read_of_surplus hpaints hc hcode hpayload hne (by omega) after)
  · apply hreport
    rw [Command.read_word_append, Command.readSized_of_length_lt (by omega) hleads]
  · obtain ⟨kept, missing, after, rfl, rfl, hkept, hmissing⟩ :=
      Wire.exists_missing hrest (k := Command.headerSize w - 4) (by omega) (by omega)
    have hne : missing ≠ [] := by
      rw [ne_eq, ← List.length_eq_zero_iff]
      omega
    obtain ⟨n, hpos, hn, hread⟩ :=
      Command.exists_read_of_missing hpaints hc hcode hpayload hne (by omega) after
    exact ⟨n, hpos, by omega, hreport hread⟩

/-- A move, which is twelve bytes long, with a size of its own choice, and a save behind it. -/
def sizedMove (size : Nat) : Bytes :=
  Wire.word (Command.header 35 size) ++ (Wire.offset ⟨1, 2⟩ ++ Wire.word (Command.header 30 4))

/-- The picture with this stream, complete up to its end tag. -/
def withSizedMove (size : Nat) : Bytes :=
  head ⟨0, 0, 1, 1⟩ ++ (1 :: (Wire.word commandTag ++ (Wire.word (.ofNat (sizedMove size).length) ++
    (sizedMove size ++ (Wire.word paintTag ++ (Wire.word (.ofNat 0) ++ ([] ++
      (Wire.word endTag ++ []))))))))

theorem isFramed_withSizedMove (size : Nat) :
    IsFramed [] (sizedMove size) (withSizedMove size) :=
  .intro [] (by decide +kernel) (by decide) .nil nofun
    (by simp [sizedMove, UInt32.size]) (by decide)

theorem isFinite_translate_one_two : (Command.translate ⟨1, 2⟩).isFinite = true := by
  decide +kernel

/-- All four kinds of wrong sizes: one that is too small for the first word, one that counts the
save to the move, one that leads out of the stream, and one that leaves out half of the offset. -/
theorem decode_withSizedMove :
    decode (withSizedMove 2) = .error (.badCommandSize 35 2) ∧
      decode (withSizedMove 16) = .error (.badCommandSize 35 16) ∧
      decode (withSizedMove 20) = .error (.truncated 4) ∧
      ∃ n, 0 < n ∧ n ≤ 4 ∧ decode (withSizedMove 8) = .error (.truncated n) := by
  have hmove := fun (size : Nat) (hsize : size ≤ Command.largestSize) =>
    (decode_of_isFramed (isFramed_withSizedMove size)).2 [] [] (Command.header 35 size)
      (Wire.offset ⟨1, 2⟩ ++ Wire.word (Command.header 30 4)) (.translate ⟨1, 2⟩)
      (Wire.offset ⟨1, 2⟩) (List.nil_append _).symm .nil nofun (Command.headerCode_header hsize)
      (.translate ⟨1, 2⟩) isFinite_translate_one_two (.inl (List.prefix_append ..))
  have hsize : ∀ {size}, size ≤ Command.largestSize →
      Command.headerSize (Command.header 35 size) = size := Command.headerSize_header
  refine ⟨?_, ?_, ?_, ?_⟩
  · have h := (hmove 2 (by decide)).1
    rw [hsize (by decide)] at h
    exact h (by decide)
  · have h := (hmove 16 (by decide)).2.1
    rw [hsize (by decide)] at h
    exact h (by decide) (by decide)
  · have h := (hmove 20 (by decide)).2.2.1
    rw [hsize (by decide)] at h
    exact h (by decide)
  · have h := (hmove 8 (by decide)).2.2.2
    rw [hsize (by decide)] at h
    exact h (by decide) (by decide) (by decide)

theorem decode_withSizedMove_eight : decode (withSizedMove 8) = .error (.truncated 4) := by
  have hframed := isFramed_withSizedMove 8
  have hread : Command.read #[] (sizedMove 8) = .error (.truncated 4) := rfl
  rw [← List.nil_append (sizedMove 8)] at hframed
  exact hframed.decode_eq_error .nil nofun (by simp [sizedMove, Wire.word]) hread

/-- A picture that is complete up to its end tag may be taken to end too early, and not every wrong
size is reported: the move is known, and its payload is there. -/
theorem not_forall_badCommandSize :
    (¬ ∀ paints stream d n, IsFramed paints stream d → decode d ≠ .error (.truncated n)) ∧
    ¬ ∀ paints w rest c payload d, IsFramed paints (Wire.word w ++ rest) d →
      Command.headerCode w = c.code → Command.IsPayload paints c payload → c.isFinite = true →
      payload <+: rest → Command.headerSize w ≠ c.size →
      decode d = .error (.badCommandSize c.code (Command.headerSize w)) := by
  have hframed := isFramed_withSizedMove 8
  refine ⟨fun h => h _ _ _ 4 hframed decode_withSizedMove_eight, fun h => ?_⟩
  have hreported := h _ _ _ (.translate ⟨1, 2⟩) _ _ hframed
    (Command.headerCode_header (by decide)) (.translate ⟨1, 2⟩) isFinite_translate_one_two
    (List.prefix_append ..) (by decide)
  rw [decode_withSizedMove_eight] at hreported
  cases hreported

end Picture

end PictureTape

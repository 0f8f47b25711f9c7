/-
**How large an encoded picture is.**

The size of a command can be told from its kind and from the lengths of its strings.  It is what
decides whether the command can be encoded, what its first word says, how far apart the commands
stand in the stream, and, added up, what the length of the encoded picture is.  The field for it has
24 bits, so a size that is checked cannot spill into the code that stands above it.

Main results:

* `Command.wordAt_stored` — **the first word of a stored command is its code and its size;**
* `Picture.encode_sizes` — a picture is refused exactly for the first of its commands that is too
  large, and otherwise **its length, the places of its commands and their first words are the ones
  that the sizes give.**
-/

import PictureTape.Proofs.Lengths
import PictureTape.Proofs.Reencoding

set_option autoImplicit false
set_option relaxedAutoImplicit false

namespace PictureTape

/-! ### The first word of a command -/

namespace Command

/-- A size that fits leaves the code in the highest byte alone. -/
theorem toNat_header {code : UInt8} {size : Nat} (h : size ≤ largestSize) :
    (header code size).toNat = code.toNat * 0x1000000 + size := by
  have hcode := code.toNat_lt
  unfold largestSize at h
  refine UInt32.toNat_ofNat_of_lt' ?_
  simp only [UInt32.size, Nat.reducePow] at hcode ⊢
  omega

/-- **The first word of a stored command is its code and its size.** -/
theorem wordAt_stored {d rest : Bytes} {position index : Nat} {c : Command}
    (hsize : c.size ≤ largestSize) (h : d.drop position = c.stored index ++ rest) :
    Wire.wordAt d position % 0x1000000 = c.size ∧
      Wire.wordAt d position / 0x1000000 = c.code.toNat := by
  have hword : Wire.wordAt d position = c.code.toNat * 0x1000000 + c.size := by
    rw [stored, List.append_assoc] at h
    rw [Wire.wordAt_of_drop h, toNat_header hsize]
  unfold largestSize at hsize
  omega

end Command

/-! ### Pictures -/

namespace Picture

/-- **The size of a command is exact.**  A picture is refused exactly if a command is too large, for
the size of the first one that is, and for nothing else.  Otherwise the length of its encoding is
that of the fixed fields, of the commands by their sizes, and of twelve bytes for each entry of the
paint table; each command stands behind as many bytes as the commands before it have by their sizes,
and its first word has its size in the lower 24 bits and its code in the upper eight. -/
theorem encode_sizes (p : Picture) :
    (∀ e, p.encode = .error e ↔
      ∃ before c after, p.commands = before ++ c :: after ∧
        (∀ b ∈ before, b.size ≤ Command.largestSize) ∧ Command.largestSize < c.size ∧
          e = .commandTooLarge c.size) ∧
    ((∀ c ∈ p.commands, c.size ≤ Command.largestSize) →
      ∃ body d, p.body = .ok body ∧ p.encode = .ok d ∧
        d.length = 49 + Command.totalSize p.commands + 12 * body.paints.length ∧
        d.drop (45 + Command.totalSize p.commands) =
          body.paints.flatMap Paint.stored ++ Wire.word endTag ∧
        ∀ before c after, p.commands = before ++ c :: after →
          Wire.wordAt d (37 + Command.totalSize before) % 0x1000000 = c.size ∧
            Wire.wordAt d (37 + Command.totalSize before) / 0x1000000 = c.code.toNat) := by
  refine ⟨fun e => encode_eq_error_iff, fun hfits => ?_⟩
  obtain ⟨body, hbody, hd, htotal⟩ := exists_encode_eq_ok hfits
  obtain ⟨-, hstreamAt, hcountAt⟩ := drop_withHead p.bounds body
  have hentriesAt := Wire.drop_add_length hcountAt
  rw [Wire.length_word, Nat.add_right_comm, htotal] at hentriesAt
  refine ⟨body, _, hbody, hd, ?_, hentriesAt, ?_⟩
  · rw [length_withHead, htotal]
  · intro before c after hsplit
    have hmem : c ∈ p.commands := by
      rw [hsplit]
      exact List.mem_append_right before List.mem_cons_self
    obtain ⟨-, rfl⟩ := body_eq_ok_iff.1 hbody
    obtain ⟨index, rest, hat⟩ := Command.drop_of_eq_append_cons hsplit hstreamAt
    exact Command.wordAt_stored (hfits c hmem) hat

theorem totalSize_longNote (n : Nat) :
    Command.totalSize (longNote n).commands = 36 + Wire.roundedUp n := by
  have hsize := size_longNote n
  have hsave : Command.save.size = 4 := rfl
  have hrestore : Command.restore.size = 4 := rfl
  simp only [longNote, Command.totalSize]
  omega

theorem size_le_of_mem_longNote {n : Nat} (h : 28 + Wire.roundedUp n ≤ Command.largestSize) :
    ∀ c ∈ (longNote n).commands, c.size ≤ Command.largestSize := by
  simp only [longNote, List.forall_mem_cons, size_longNote]
  exact ⟨by decide, h, by decide, nofun⟩

/-- The longest value that fits, and one more byte. -/
theorem encode_sizes_longNote :
    (longNote 0xffffe1).encode = .error (.commandTooLarge 0x1000000) ∧
    ∃ d, (longNote 0xffffe0).encode = .ok d ∧ d.length = 49 + 0x1000004 ∧
      Wire.wordAt d 41 % 0x1000000 = 0xfffffc ∧ Wire.wordAt d 41 / 0x1000000 = 60 := by
  have hlarge := ((encode_sizes (longNote 0xffffe1)).1 (.commandTooLarge 0x1000000)).2
    ⟨[.save], _, [.restore], rfl, by decide, by rw [size_longNote]; decide,
      by rw [size_longNote]; rfl⟩
  obtain ⟨body, d, hbody, hd, hlength, -, hwords⟩ :=
    (encode_sizes (longNote 0xffffe0)).2 (size_le_of_mem_longNote (by decide))
  obtain ⟨hword, hcode⟩ := hwords [.save] _ [.restore] rfl
  have hpaints : body.paints.length = 0 := by rw [paints_of_body hbody]; rfl
  rw [totalSize_longNote, hpaints] at hlength
  rw [size_longNote] at hword
  exact ⟨hlarge, d, hd, hlength, hword, hcode⟩

end Picture

end PictureTape

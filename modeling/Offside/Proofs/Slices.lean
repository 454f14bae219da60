/-
  The text between two offsets.

  A slice asks one question of the bytes between its ends: whether they are valid.  It never looks
  for the ends of characters, so that the answer is right rests on how UTF-8 is made: a run of bytes
  out of a text is valid exactly if it is empty or both its ends stand between characters.

  1. **Ends** — offsets behind the text count as its end, and a start behind the stop counts as the
     stop (`slice_clamped`).
  2. **One slice** — between characters it has the bytes between its ends (`bytes_slice`), and
     otherwise it is empty (`slice_of_not_between`).
  3. **Slices of one text** — two that meet make up one, and the slice of everything is the text.
  4. **The image** — cut out of the image a slice is the same, and the range for it is always there.
-/
import Offside.Proofs.Spelling
import Offside.Source.Pointer

namespace Offside.Source

variable {text : String} {start stop : Nat}

/-! ## Ends

  The rest of the file is about offsets that are in the text and in order.  This lemma brings any
  others there. -/

/-- With both ends brought into the text the slice is the same. -/
theorem slice_clamped (text : String) (start stop : Nat) :
    let last := min stop (bytes text).length
    slice text (min start last) last = slice text start stop := by
  intro last
  rw [slice_of_le (Nat.min_le_right start last) (Nat.min_le_right ..)]
  rfl

/-! ## One slice

  If the ends stand between characters the bytes are those of a text, and it is the slice.
  Conversely, bytes that make a text start with the first byte of a character and end with a whole
  one. -/

/-- If an end stands within a character, no text is between them. -/
theorem slice_of_not_between (h : start ≤ stop) (hs : stop ≤ (bytes text).length)
    (within : ¬(Token.BetweenChars text start ∧ Token.BetweenChars text stop)) :
    slice text start stop = "" := by
  rw [slice_of_le h hs]
  cases found : String.fromUTF8? (text.toByteArray.extract start stop) with
  | none => rfl
  | some part =>
    have spelled : text.toByteArray.extract start stop = part.toByteArray :=
      fromUTF8?_eq_some_iff.mp found
    have valid : (text.toByteArray.extract start stop).IsValidUTF8 := by
      rw [spelled]
      exact part.isValidUTF8
    rcases (String.Pos.Raw.isValidUTF8_extract_iff ⟨start⟩ ⟨stop⟩ h hs).mp valid with same | ends
    · -- nothing is between an offset and itself
      have same : start = stop := congrArg String.Pos.Raw.byteIdx same
      have nothing : part.toByteArray = "".toByteArray := by
        rw [← spelled, same]
        simp
      exact String.toByteArray_inj.mp nothing
    · exact absurd ends within

/-! ## Slices of one text

  Texts are the same if their bytes are, so both follow from the bytes of a slice. -/

/-- Two slices that meet between two characters make up one. -/
theorem slice_append {first middle last : Nat} (h : first ≤ middle) (h' : middle ≤ last)
    (hf : Token.BetweenChars text first) (hm : Token.BetweenChars text middle)
    (hl : Token.BetweenChars text last) :
    slice text first middle ++ slice text middle last = slice text first last := by
  apply eq_of_bytes
  have front : (bytes text).take middle = ((bytes text).take last).take middle := by
    rw [List.take_take, Nat.min_eq_left h']
  have size : first ≤ (((bytes text).take last).take middle).length := by
    have := (betweenChars_iff.mp hm).1
    rw [← front, List.length_take]
    omega
  rw [bytes_append, bytes_slice h hf hm, bytes_slice h' hm hl, bytes_slice (Nat.le_trans h h') hf hl,
    front, ← List.drop_append_of_le_length size, List.take_append_drop]

/-- The slice of everything is the text. -/
theorem slice_all (text : String) : slice text 0 (bytes text).length = text := by
  apply eq_of_bytes
  rw [bytes_slice (Nat.zero_le _) (betweenChars_zero text) (betweenChars_size text), List.take_length,
    List.drop_zero]

/-! ## The image

  The range is asked for after the ends have been brought into the text, and there the image is the
  text. -/

/-- Cut out of the image, a slice is cut out of the text. -/
theorem slice?_eq (text : String) (start stop : Nat) :
    slice? text start stop = some (slice text start stop) := by
  have inside : min stop (bytes text).length ≤ (bytes text).length := Nat.min_le_right ..
  have order : min start (min stop (bytes text).length) ≤ min stop (bytes text).length :=
    Nat.min_le_right ..
  have cut_out (first last : Nat) : (((bytes text).take last).drop first).toByteArray =
      text.toByteArray.extract first last := by
    apply ByteArray.ext
    rw [← Array.toList_inj, toList_extract, List.toList_data_toByteArray]
  rw [← slice_clamped, slice_of_le order inside, slice?, range?_of_le order inside, Option.map_some,
    cut_out]

/-- **The text between two offsets.**  Offsets behind the text count as its end, and a start behind
    the stop counts as the stop.  If both then stand between two characters, the slice is the text
    of exactly the bytes between them; otherwise it is empty.  It is cut out of the image, where a
    range for it always is.  So slices that meet between characters make up one, and the slice of
    everything is the text. -/
theorem slice_between (text : String) :
    (∀ start stop,
      let last := min stop (bytes text).length
      let first := min start last
      slice? text start stop = some (slice text start stop) ∧
      (Token.BetweenChars text first ∧ Token.BetweenChars text last →
        bytes (slice text start stop) = ((bytes text).take last).drop first) ∧
      (¬(Token.BetweenChars text first ∧ Token.BetweenChars text last) →
        slice text start stop = "")) ∧
    (∀ a b c, a ≤ b → b ≤ c → Token.BetweenChars text a → Token.BetweenChars text b →
      Token.BetweenChars text c → slice text a b ++ slice text b c = slice text a c) ∧
    slice text 0 (bytes text).length = text := by
  refine ⟨?_, ?_, slice_all text⟩
  · intro start stop last first
    -- once clamped, the offsets are in order and in the text, and mean the same slice
    have order : first ≤ last := Nat.min_le_right start last
    have inside : last ≤ (bytes text).length := Nat.min_le_right ..
    have same : slice text first last = slice text start stop := slice_clamped text start stop
    refine ⟨slice?_eq text start stop, ?_, ?_⟩
    · rintro ⟨front, back⟩
      rw [← same]
      exact bytes_slice order front back
    · intro within
      rw [← same]
      exact slice_of_not_between order inside within
  · intro a b c hab hbc ha hb hc
    exact slice_append hab hbc ha hb hc

/-- The bytes of a letter of two bytes: from its first to behind the text, from its second on, and
    in two parts with what follows it. -/
theorem slice_between_letter :
    (Token.BetweenChars "aéb" 1 ∧ Token.BetweenChars "aéb" 4 ∧
      bytes (slice "aéb" 1 9) = [0xC3, 0xA9, 98]) ∧
    (¬Token.BetweenChars "aéb" 2 ∧ slice "aéb" 2 9 = "") ∧
    (Token.BetweenChars "aéb" 3 ∧ slice "aéb" 1 3 ++ slice "aéb" 3 4 = slice "aéb" 1 4) := by
  obtain ⟨ends, parts, _⟩ := slice_between "aéb"
  have one : Token.BetweenChars "aéb" 1 := by decide
  have two : ¬Token.BetweenChars "aéb" 2 := by decide
  have three : Token.BetweenChars "aéb" 3 := by decide
  have four : Token.BetweenChars "aéb" 4 := by decide
  have letters : bytes (slice "aéb" 1 9) = [0xC3, 0xA9, 98] := (ends 1 9).2.1 ⟨one, four⟩
  have nothing : slice "aéb" 2 9 = "" := (ends 2 9).2.2 fun both => two both.1
  have whole : slice "aéb" 1 3 ++ slice "aéb" 3 4 = slice "aéb" 1 4 :=
    parts 1 3 4 (by decide) (by decide) one three four
  exact ⟨⟨one, four, letters⟩, ⟨two, nothing⟩, three, whole⟩

end Offside.Source

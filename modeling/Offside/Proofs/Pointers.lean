/-
  A pointer goes where a reader goes.

  A reader cannot fail: it has the bytes ahead of it in hand.  A pointer has two numbers and looks
  things up in the image of the text, and each look can be refused.  That it never is, when the
  pointer is that of a reader, and that it then finds what the reader has, is shown here for each
  look and for each way to go on.  What holds of readers then holds of pointers without a proof of
  its own.

  1. **Readers in a text** — a reader that stands in a text is the reader before the text, moved
     byte by byte to its offset (`Reader.At`).  So its bytes, its line and its column are those of
     the offset, and it stays in the text whatever it passes (`At.steps`).
  2. **Looking** — the offset is never behind the text, and the image has a byte more than the text.
     So the byte at the pointer is there, and so is every range that ends with the text.
  3. **Going** — each way to go on is answered, and leads the pointer of a reader to the pointer of
     the reader that went the same way.

  `Reader.At` says less than `Reader.On`: the place may be within a character.
-/
import Offside.Proofs.Pieces
import Offside.Proofs.Probing
import Offside.Source.Pointer

namespace Offside

/-! ## Readers in a text

  A reader carries an offset and a line start beside the bytes ahead, and nothing in its type ties
  the three together.  `Reader.At` does: it is the state that so many steps from the start of the
  text lead to. -/

/-- The reader stands in a text, maybe within a character: it is what the reader before the text
    becomes when it is moved byte by byte to this offset, and the offset is in the text. -/
structure Reader.At (text : String) (r : Reader) : Prop where
  reached : r = (start text).steps r.offset
  le : r.offset ≤ (Source.bytes text).length

namespace Reader

variable {text : String} {r : Reader}

theorem at_start (text : String) : (start text).At text := ⟨rfl, Nat.zero_le _⟩

theorem At.rest_eq (h : r.At text) : r.rest = Token.ahead text r.offset := by
  have place := congrArg Reader.rest h.reached
  rwa [rest_steps] at place

theorem At.length_rest (h : r.At text) :
    r.offset + r.rest.length = (Source.bytes text).length := by
  have := h.le
  rw [h.rest_eq, Token.ahead, List.length_drop]
  omega

/-- Passing any number of bytes keeps a reader in its text, for the steps add up. -/
theorem At.steps (h : r.At text) (n : Nat) : (r.steps n).At text := by
  have size := h.length_rest
  have place := offset_steps n r
  refine ⟨?_, by omega⟩
  rw [place]
  rcases Nat.le_total n r.rest.length with within | behind
  · rw [Nat.min_eq_left within, steps_add, ← h.reached]
  · -- the rest of the text is passed, and then the reader stays
    have passed : (r.steps r.rest.length).rest = [] := by rw [rest_steps, List.drop_length]
    rw [Nat.min_eq_right behind, steps_add, ← h.reached,
      show n = r.rest.length + (n - r.rest.length) by omega, steps_add, steps_of_nil passed]

/-- The column of a reader is told by the bytes in front of its offset: it is the number of bytes
    behind the last line feed among them. -/
theorem At.column_eq (h : r.At text) : r.column = Source.column text r.offset := by
  have place := congrArg Reader.column h.reached
  rwa [column_steps] at place

theorem At.lineStart_le (h : r.At text) : r.lineStart ≤ r.offset := by
  have before : (start text).lineStart ≤ (start text).offset := Nat.le_refl 0
  have behind := lineStart_le_steps r.offset before
  rwa [← h.reached] at behind

theorem At.atEnd_iff (h : r.At text) :
    r.atEnd = true ↔ r.offset = (Source.bytes text).length := by
  have size := h.length_rest
  rw [Reader.atEnd_iff, ← List.length_eq_zero_iff]
  omega

theorem At.current_eq (h : r.At text) : r.current = (Source.bytes text).getD r.offset 0 := by
  rw [current, h.rest_eq, Token.ahead, List.headD_eq_head?_getD, List.head?_drop,
    List.getD_eq_getElem?_getD]

theorem At.peek_eq (h : r.At text) : r.peek = (Source.bytes text).getD (r.offset + 1) 0 := by
  rw [peek, h.rest_eq, Token.ahead, List.tail_drop, List.headD_eq_head?_getD, List.head?_drop,
    List.getD_eq_getElem?_getD]

end Reader

namespace Pointer

variable {text : String} {r : Reader}

/-! ## Looking

  What is seen at the pointer of a reader is what the reader sees.  Each look says in addition that
  there is an answer, where there could be none. -/

theorem atEnd_pointer (h : r.At text) : r.pointer.atEnd text = r.atEnd := by
  have size := h.length_rest
  rw [Bool.eq_iff_iff, h.atEnd_iff]
  show decide ((Source.bytes text).length ≤ r.offset) = true ↔ _
  rw [decide_eq_true_iff]
  omega

/-- There is a byte of the image at the pointer, and it is the byte under the reader: at the end of
    the text both are zero, the one because the image has a zero there. -/
theorem current?_pointer (h : r.At text) : r.pointer.current? text = some r.current := by
  have within : r.offset < (Source.image text).length := Source.lt_length_image h.le
  have byte := Source.getD_image text r.offset
  rw [List.getD_eq_getElem?_getD, List.getElem?_eq_getElem within, Option.getD_some] at byte
  show (Source.image text)[r.offset]? = _
  rw [List.getElem?_eq_getElem within, byte, h.current_eq]

theorem peek_pointer (h : r.At text) : r.pointer.peek text = r.peek :=
  (Source.getD_image text (r.offset + 1)).trans h.peek_eq.symm

theorem column?_pointer (h : r.At text) : r.pointer.column? = some r.column :=
  if_pos h.lineStart_le

/-- A range of bytes from the place on that does not go past the end of the text is in the image,
    and has the bytes ahead of the reader. -/
theorem range?_pointer (h : r.At text) {n : Nat} (hn : n ≤ r.rest.length) :
    Source.range? text r.offset (r.offset + n) = some (r.rest.take n) := by
  have size := h.length_rest
  rw [Source.range?_of_le (Nat.le_add_right ..) (by omega), h.rest_eq, Token.ahead, List.drop_take,
    Nat.add_sub_cancel_left]

/-! ## Going

  The ways to go on are loops over bytes.  Each is followed round by round: a round leads from the
  pointer of a reader to the pointer of the reader one step on, which is in the text again. -/

theorem step?_pointer (h : r.At text) : r.pointer.step? text = some r.step.pointer := by
  unfold step?
  rw [atEnd_pointer h, current?_pointer h]
  match hr : r.rest with
  | [] =>
    rw [if_pos (Reader.atEnd_iff.mpr hr), Reader.step_of_nil hr]
  | b :: bs =>
    have ahead : ¬r.atEnd = true := by rw [Reader.atEnd_iff, hr]; exact List.cons_ne_nil b bs
    rw [if_neg ahead, Reader.current_of_cons hr, Reader.step, hr]
    rfl

/-- So many single steps are all answered, and lead to the pointer of the reader that passes so many
    bytes. -/
theorem steps?_pointer (h : r.At text) (n : Nat) :
    r.pointer.steps? text n = some (r.steps n).pointer := by
  induction n generalizing r with
  | zero => rfl
  | succ n ih =>
    rw [steps?, step?_pointer h]
    exact ih (h.steps 1)

/-- The step over a character asks the byte at the pointer how far to go, and so goes as far as the
    reader. -/
theorem stepChar?_pointer (h : r.At text) :
    r.pointer.stepChar? text = some r.stepChar.pointer := by
  rw [stepChar?, current?_pointer h]
  exact steps?_pointer h (Reader.leadWidth r.current)

/-- The loop passes the accepted bytes ahead, one in each round, and stops where the reader stops:
    at a byte that is not accepted, or at the end of the text. -/
theorem skipWhile?_pointer {r : Reader} (h : r.At text) (accept : UInt8 → Bool) :
    r.pointer.skipWhile? text accept = some (r.skipWhile accept).pointer := by
  match hr : r.rest with
  | [] =>
    have ended : r.pointer.atEnd text = true := by rw [atEnd_pointer h, Reader.atEnd_iff, hr]
    have stays : r.skipWhile accept = r := by rw [Reader.skipWhile, hr]; rfl
    rw [skipWhile?_of_atEnd ended, stays]
  | b :: bs =>
    have ahead : ¬r.pointer.atEnd text = true := by
      rw [atEnd_pointer h, Reader.atEnd_iff, hr]
      exact List.cons_ne_nil b bs
    rw [skipWhile?_of_current ahead (current?_pointer h), Reader.current_of_cons hr,
      step?_pointer h]
    by_cases accepted : accept b = true
    · have shorter : r.step.rest.length < r.rest.length := by
        rw [Reader.rest_step, hr]
        exact Nat.lt_succ_self _
      -- the reader passes all of them at once; so it passes the first, and then the others
      have later : r.skipWhile accept = r.step.skipWhile accept := by
        rw [Reader.skipWhile, Reader.skipWhile, Reader.rest_step, hr,
          List.takeWhile_cons_of_pos accepted]
        rfl
      rw [if_pos accepted, later]
      exact skipWhile?_pointer (h.steps 1) accept
    · have stays : r.skipWhile accept = r := by
        rw [Reader.skipWhile, hr, List.takeWhile_cons_of_neg accepted]
        rfl
      rw [if_neg accepted, stays]
termination_by r.rest.length

/-- The index of the first line feed, or the number of all bytes if there is none, is the number of
    bytes in front of the first line feed. -/
theorem getD_idxOf?_lineFeed (bs : List UInt8) :
    (bs.idxOf? Reader.lineFeed).getD bs.length =
      (bs.takeWhile (· != Reader.lineFeed)).length := by
  induction bs with
  | nil => rfl
  | cons b bs ih =>
    rw [List.idxOf?_cons, List.takeWhile_cons]
    by_cases hb : b = Reader.lineFeed
    · simp [hb]
    · rw [if_neg (by simpa using hb), if_pos (by simpa using hb), List.length_cons,
        List.length_cons, ← ih]
      cases bs.idxOf? Reader.lineFeed <;> rfl

/-- The jump to the end of the line is answered, and leads as far as the reader goes byte by
    byte. -/
theorem toLineEnd?_pointer (h : r.At text) :
    r.pointer.toLineEnd? text = some r.toLineEnd.pointer := by
  have size := h.length_rest
  have rest : Source.range? text r.offset (Source.bytes text).length = some r.rest := by
    rw [← size, range?_pointer h (Nat.le_refl _), List.take_length]
  have distance := getD_idxOf?_lineFeed r.rest
  show (Source.range? text r.offset (Source.bytes text).length).map _ = _
  rw [rest, Option.map_some]
  show some _ = some (⟨r.offset + (r.rest.takeWhile (· != Reader.lineFeed)).length, _⟩ : Pointer)
  rw [← distance]
  cases r.rest.idxOf? Reader.lineFeed with
  | none =>
    show some (⟨(Source.bytes text).length, _⟩ : Pointer) = some ⟨r.offset + r.rest.length, _⟩
    rw [size]
    rfl
  | some distance => rfl

end Pointer

end Offside

/-
  A reader: a place in a source text, with the bytes still ahead of it.

  1. **State** — the bytes ahead, the offset of the first of them, and the offset at which the line
     began.
  2. **Steps** — by bytes (`step`, `steps`), by characters (`stepChar`), over a run of accepted
     bytes (`skipWhile`) and straight to the end of the line (`toLineEnd`).  Only a line feed that
     is stepped over begins a line, so the jump to the end of the line leaves the line start alone.
  3. **Views** — the byte under the reader, the one after it, the character there, the column.
     Past the end every byte reads as zero.

  A reader may come to stand inside a character, since it can be moved byte by byte; the character
  there then reads as U+FFFD.

  A reader stands for a cursor over a text in store, and so for texts of less than 2 ^ 32 bytes: a
  store keeps the size of a text in 32 bits and counts a greater one as the largest
  (`Source.store?`), and a cursor over it would end there.  Here the end is the end of the bytes,
  and an offset is any natural number.  Below that size the two are the same
  (`Source.start_eq_store?`).
-/
import Offside.Source

namespace Offside

/-- A place in a text: what is still ahead, its offset, and the offset of the line's first byte. -/
structure Reader where
  rest : List UInt8
  offset : Nat
  lineStart : Nat
  deriving DecidableEq, Repr, Inhabited

namespace Reader

/-- The reader before the first byte. -/
def start (text : String) : Reader := ⟨Source.bytes text, 0, 0⟩

/-! ## Views

  None of these can fail: at the end of the text there is a zero to be seen, and no character. -/

/-- The byte under the reader, zero at the end. -/
def current (r : Reader) : UInt8 := r.rest.headD 0

/-- The byte after the one under the reader, zero past the end. -/
def peek (r : Reader) : UInt8 := r.rest.tail.headD 0

/-- Whether nothing is ahead. -/
def atEnd (r : Reader) : Bool := r.rest.isEmpty

/-- How many bytes lie between the start of the line and the reader. -/
def column (r : Reader) : Nat := r.offset - r.lineStart

/-- The character that starts under the reader, U+FFFD if none starts there, nothing at the end. -/
def char? (r : Reader) : Option Char :=
  if r.atEnd then none
  else some (((r.rest.take 4).toByteArray.utf8DecodeChar? 0).getD '\uFFFD')

/-! ## Steps

  All moves are made of `step`, except the jump to the end of the line, which passes bytes without
  looking for line feeds among them, since there are none. -/

/-- The line feed. -/
def lineFeed : UInt8 := 10

/-- Passes one byte; at the end it stays. -/
def step (r : Reader) : Reader :=
  match r.rest with
  | [] => r
  | b :: bs => ⟨bs, r.offset + 1, if b = lineFeed then r.offset + 1 else r.lineStart⟩

/-- Passes up to `n` bytes. -/
def steps : Nat → Reader → Reader
  | 0, r => r
  | n + 1, r => steps n r.step

/-- How many bytes a character has whose first byte is `b`; one for a byte that starts none. -/
def leadWidth (b : UInt8) : Nat :=
  if 0xC0 ≤ b ∧ b ≤ 0xDF then 2
  else if 0xE0 ≤ b ∧ b ≤ 0xEF then 3
  else if 0xF0 ≤ b ∧ b ≤ 0xF7 then 4
  else 1

/-- Passes one character, as wide as the byte under the reader announces. -/
def stepChar (r : Reader) : Reader := steps (leadWidth r.current) r

/-- Passes characters, `n` of them. -/
def stepChars : Nat → Reader → Reader
  | 0, r => r
  | n + 1, r => stepChars n r.stepChar

/-- Passes bytes until the offset is at least `target`. -/
def seek (target : Nat) (r : Reader) : Reader :=
  steps (min (target - r.offset) r.rest.length) r

/-- Passes the bytes ahead that `accept` holds of, up to the first other byte. -/
def skipWhile (accept : UInt8 → Bool) (r : Reader) : Reader :=
  steps (r.rest.takeWhile accept).length r

/-- Passes spaces and tabs. -/
def skipBlanks (r : Reader) : Reader := r.skipWhile fun b => b == 32 || b == 9

/-- Jumps to the next line feed, or to the end if there is none.  No line feed is passed, so the
    line start stays. -/
def toLineEnd (r : Reader) : Reader :=
  let line := r.rest.takeWhile (· != lineFeed)
  { r with rest := r.rest.dropWhile (· != lineFeed), offset := r.offset + line.length }

/-! ## What a step does to the bytes ahead

  A reader that passes bytes has fewer of them ahead, and how many is all that the bytes are asked
  for. -/

theorem atEnd_iff {r : Reader} : r.atEnd = true ↔ r.rest = [] := by
  simp [atEnd]

/-- The byte under a reader is the first of those ahead. -/
theorem current_of_cons {r : Reader} {b : UInt8} {bs : List UInt8} (h : r.rest = b :: bs) :
    r.current = b := by
  rw [current, h, List.headD_cons]

/-- At the end a reader stays. -/
theorem step_of_nil {r : Reader} (h : r.rest = []) : r.step = r := by
  rw [step, h]

theorem steps_of_nil {r : Reader} (h : r.rest = []) (n : Nat) : r.steps n = r := by
  induction n with
  | zero => rfl
  | succ n ih => rw [steps, step_of_nil h, ih]

@[simp] theorem rest_step (r : Reader) : r.step.rest = r.rest.drop 1 := by
  unfold step
  cases h : r.rest with
  | nil => simp [h]
  | cons b bs => rfl

@[simp] theorem rest_steps (n : Nat) (r : Reader) : (r.steps n).rest = r.rest.drop n := by
  induction n generalizing r with
  | zero => rfl
  | succ n ih => rw [steps, ih, rest_step, List.drop_drop, Nat.add_comm]

theorem drop_length_takeWhile (accept : UInt8 → Bool) (bs : List UInt8) :
    bs.drop (bs.takeWhile accept).length = bs.dropWhile accept := by
  conv => lhs; arg 2; rw [← List.takeWhile_append_dropWhile (p := accept) (l := bs)]
  rw [List.drop_left]

@[simp] theorem rest_skipWhile (accept : UInt8 → Bool) (r : Reader) :
    (r.skipWhile accept).rest = r.rest.dropWhile accept := by
  rw [skipWhile, rest_steps, drop_length_takeWhile]

theorem rest_toLineEnd (r : Reader) :
    r.toLineEnd.rest = r.rest.drop (r.rest.takeWhile (· != lineFeed)).length :=
  (drop_length_takeWhile ..).symm

theorem leadWidth_pos (b : UInt8) : 0 < leadWidth b := by
  unfold leadWidth; repeat' split
  all_goals omega

/-- Where something is ahead, a step over a character leaves less of it, also within a character. -/
theorem rest_stepChar_lt {r : Reader} (h : r.rest ≠ []) :
    r.stepChar.rest.length < r.rest.length := by
  have hw := leadWidth_pos r.current
  have hr := List.length_pos_iff.mpr h
  rw [stepChar, rest_steps, List.length_drop]
  omega

theorem char?_isSome_iff {r : Reader} : r.char?.isSome = true ↔ r.rest ≠ [] := by
  unfold char? atEnd
  cases r.rest <;> simp

/-! ## Where steps lead

  The offset grows by the bytes passed, and stops at the end of the text.  The line start follows
  the line feeds among them. -/

theorem offset_step (r : Reader) : r.step.offset = r.offset + min 1 r.rest.length := by
  unfold step
  cases h : r.rest with
  | nil => simp
  | cons b bs => simp

theorem offset_steps (n : Nat) (r : Reader) :
    (r.steps n).offset = r.offset + min n r.rest.length := by
  induction n generalizing r with
  | zero => simp [steps]
  | succ n ih =>
    rw [steps, ih, offset_step, rest_step, List.length_drop]
    omega

/-- From the start of a text each offset in it is reached in as many steps. -/
theorem offset_steps_start {text : String} {offset : Nat}
    (h : offset ≤ (Source.bytes text).length) : ((start text).steps offset).offset = offset := by
  rw [offset_steps]
  show 0 + min offset (Source.bytes text).length = offset
  omega

theorem offset_le_stepChar (r : Reader) : r.offset ≤ r.stepChar.offset := by
  rw [stepChar, offset_steps]
  omega

theorem offset_skipWhile (accept : UInt8 → Bool) (r : Reader) :
    (r.skipWhile accept).offset = r.offset + (r.rest.takeWhile accept).length := by
  have := (List.takeWhile_prefix (l := r.rest) accept).length_le
  rw [skipWhile, offset_steps]
  omega

theorem steps_add (m n : Nat) (r : Reader) : r.steps (m + n) = (r.steps m).steps n := by
  induction m generalizing r with
  | zero => rw [Nat.zero_add]; rfl
  | succ m ih => rw [Nat.add_right_comm, steps, ih, steps]

/-- If the line starts at or before the place of a reader, it does so after any number of steps. -/
theorem lineStart_le_steps {r : Reader} (n : Nat) (h : r.lineStart ≤ r.offset) :
    (r.steps n).lineStart ≤ (r.steps n).offset := by
  induction n generalizing r with
  | zero => exact h
  | succ n ih =>
    refine ih ?_
    unfold step
    split
    · exact h
    · simp only
      split <;> omega

/-- Bytes that are no line feed leave the line start where it is. -/
theorem lineStart_steps_of_ne {r : Reader} (n : Nat) (h : ∀ b ∈ r.rest.take n, b ≠ 10) :
    (r.steps n).lineStart = r.lineStart := by
  induction n generalizing r with
  | zero => rfl
  | succ n ih =>
    match hr : r.rest with
    | [] =>
      rw [steps, step_of_nil hr]
      exact ih (by rw [hr]; simp)
    | b :: bs =>
      rw [hr, List.take_succ_cons] at h
      have hb : b ≠ lineFeed := h b List.mem_cons_self
      have same : r.step = ⟨bs, r.offset + 1, r.lineStart⟩ := by rw [step, hr]; simp only [if_neg hb]
      rw [steps, ih (by rw [same]; exact fun b' hb' => h b' (List.mem_cons_of_mem b hb')), same]

/-- Further on in the same line the column is not zero, since the line starts at or before the place
    that was left. -/
theorem column_ne_zero {r r' : Reader} (h : r.lineStart ≤ r.offset) (hs : r'.lineStart = r.lineStart)
    (ho : r.offset < r'.offset) : r'.column ≠ 0 := by
  rw [column, hs]
  omega

/-! ## Small cases -/

example : ((start "é\nb").steps 3).column = 0 := by decide
example : ((start "é").steps 1).char? = some '\uFFFD' := by decide
example : ((start "éb").stepChar).char? = some 'b' := by decide
example : (start "ab\nc").toLineEnd = (start "ab\nc").steps 2 := by decide

end Reader

end Offside

/-
  A pointer: a place in a text kept as two indices into the image of the text.

  A reader holds the bytes ahead of it, so it cannot look where nothing is.  A pointer holds no
  bytes.  It looks at the image, and both can go wrong there that cannot go wrong for a reader: an
  index can be out of range, and the start of the line can lie behind the place.  Then there is no
  answer (`none`).

  1. **Looking** — the byte at the place, the byte after it, the column, and the character, which is
     decoded from as many bytes as its first byte announces, cut off at the end of the text.
  2. **Going** — by bytes, by characters, over a run of bytes, and straight to the end of the line,
     for which the next line feed is looked up in the rest of the text.
  3. **Cutting** — a slice that is cut out of the image (`Source.slice?`), for which a range can be
     out of range as well.

  Nothing but the offset tells a pointer that it stands at the end of the text: a zero byte inside
  the text is a byte like any other, and a zero of the image behind the text looks the same.

  Like a reader, a pointer stands for a cursor over a text of less than 2 ^ 32 bytes.  The image it
  looks at is then what is in store, cell by cell, and the number of bytes at which it ends is the
  size in store (`Source.start_eq_store?`, `Source.current?_eq_store?`).  A larger text has its size
  cut to 32 bits when it is stored (`Source.store?`), and what a cursor does there is not told by a
  pointer.
-/
import Offside.Source.Reader

namespace Offside

namespace Source

/-- The bytes of the image of a text between two indices, if both are in range and in order. -/
def range? (text : String) (start stop : Nat) : Option (List UInt8) :=
  if start ≤ stop ∧ stop ≤ (image text).length then some (((image text).take stop).drop start)
  else none

/-- There is a byte of the image behind each byte of the text. -/
theorem lt_length_image {text : String} {i : Nat} (h : i ≤ (bytes text).length) :
    i < (image text).length := by
  have room := lt_imageSize (bytes text).length
  rw [length_image]
  omega

/-- Behind the text the image reads as zero, inside its last block and past it. -/
theorem getD_image (text : String) (i : Nat) :
    (image text).getD i 0 = (bytes text).getD i 0 := by
  rw [List.getD_eq_getElem?_getD, List.getD_eq_getElem?_getD]
  show ((bytes text ++ List.replicate _ 0)[i]?).getD 0 = _
  rw [List.getElem?_append]
  split
  · rfl
  · next behind =>
    rw [List.getElem?_eq_none (Nat.not_lt.mp behind), List.getElem?_replicate]
    split <;> rfl

/-- In the text a range of the image is one of the text. -/
theorem range?_of_le {text : String} {start stop : Nat} (h : start ≤ stop)
    (hs : stop ≤ (bytes text).length) :
    range? text start stop = some (((bytes text).take stop).drop start) := by
  rw [range?, if_pos ⟨h, Nat.le_of_lt (lt_length_image hs)⟩]
  show some (((bytes text ++ List.replicate _ 0).take stop).drop start) = _
  rw [List.take_append_of_le_length hs]

/-- The text between two offsets, cut out of the image: no answer if the image does not have the
    range, and the empty text if its bytes spell none.  The stop is brought into the text first, and
    then the start in front of the stop. -/
def slice? (text : String) (start stop : Nat) : Option String :=
  let stop := min stop (bytes text).length
  (range? text (min start stop) stop).map fun bs => (String.fromUTF8? bs.toByteArray).getD ""

end Source

/-- A place in the image of a text: its index, and the index of the first byte of its line. -/
structure Pointer where
  offset : Nat
  lineStart : Nat
  deriving DecidableEq, Repr, Inhabited

/-- What can be seen from a place. -/
structure View where
  atEnd : Bool
  current : UInt8
  peek : UInt8
  column : Nat
  char? : Option Char
  deriving DecidableEq, Repr

/-- What a reader sees. -/
def Reader.view (r : Reader) : View := ⟨r.atEnd, r.current, r.peek, r.column, r.char?⟩

/-- The place of a reader. -/
def Reader.pointer (r : Reader) : Pointer := ⟨r.offset, r.lineStart⟩

namespace Pointer

/-- The pointer at the first byte. -/
def zero : Pointer := ⟨0, 0⟩

variable (text : String) (p : Pointer)

/-! ## Looking

  For the byte at the place an index out of range means that there is no answer.  The byte after it
  may lie past the image, and then it reads as zero. -/

/-- Whether the text ends here. -/
def atEnd : Bool := decide ((Source.bytes text).length ≤ p.offset)

/-- The byte of the image here. -/
def current? : Option UInt8 := (Source.image text)[p.offset]?

/-- The byte of the image after this one, zero where the image ends. -/
def peek : UInt8 := (Source.image text).getD (p.offset + 1) 0

/-- The distance from the start of the line. -/
def column? : Option Nat := if p.lineStart ≤ p.offset then some (p.offset - p.lineStart) else none

/-- The first character that some bytes spell, U+FFFD if they spell none. -/
def decode (bs : List UInt8) : Char :=
  ((String.fromUTF8? bs.toByteArray).bind (·.toList.head?)).getD '\uFFFD'

/-- The character here, nothing at the end. -/
def char? : Option (Option Char) :=
  if p.atEnd text then some none
  else do
    let b ← p.current? text
    if b.toNat < 128 then return some (Char.ofNat b.toNat)
    let stop := min (p.offset + Reader.leadWidth b) (Source.bytes text).length
    return some (decode (← Source.range? text p.offset stop))

/-- All that can be seen from here. -/
def view? : Option View := do
  return ⟨p.atEnd text, ← p.current? text, p.peek text, ← p.column?, ← p.char? text⟩

/-! ## Going

  Each move looks before it goes, and so has no answer where the look has none.  All of them end at
  the size of the text, not at a zero. -/

/-- Passes one byte; at the end it stays. -/
def step? : Option Pointer :=
  if p.atEnd text then some p
  else do
    let b ← p.current? text
    return ⟨p.offset + 1, if b = Reader.lineFeed then p.offset + 1 else p.lineStart⟩

/-- Passes `n` bytes. -/
def steps? : Nat → Pointer → Option Pointer
  | 0, p => some p
  | n + 1, p => do steps? n (← p.step? text)

/-- Passes one character, as wide as the byte here announces. -/
def stepChar? : Option Pointer := do steps? text (Reader.leadWidth (← p.current? text)) p

variable {text p} in
theorem offset_step? {q : Pointer} (h : p.step? text = some q) (hp : p.atEnd text = false) :
    p.offset < (Source.bytes text).length ∧ q.offset = p.offset + 1 := by
  unfold step? at h
  rw [if_neg (by simp [hp])] at h
  match hb : p.current? text with
  | none => simp [hb] at h
  | some b =>
    rw [hb] at h
    cases h
    unfold atEnd at hp
    simp only [decide_eq_false_iff_not, Nat.not_le] at hp
    exact ⟨hp, rfl⟩

/-- Passes bytes while `accept` holds of the byte here, at most to the end. -/
def skipWhile? (accept : UInt8 → Bool) (p : Pointer) : Option Pointer :=
  if _hp : p.atEnd text = true then some p
  else
    match p.current? text with
    | none => none
    | some b =>
      if accept b then
        match _hq : p.step? text with
        | none => none
        | some q => skipWhile? accept q
      else some p
termination_by (Source.bytes text).length - p.offset
decreasing_by
  have := offset_step? _hq (by simpa using _hp)
  omega

variable {text p} in
theorem skipWhile?_of_atEnd (h : p.atEnd text = true) (accept : UInt8 → Bool) :
    p.skipWhile? text accept = some p := by
  rw [skipWhile?, dif_pos h]

variable {text p} in
theorem skipWhile?_of_current {b : UInt8} (h : ¬p.atEnd text = true)
    (hb : p.current? text = some b) (accept : UInt8 → Bool) :
    p.skipWhile? text accept =
      if accept b then (p.step? text).bind (skipWhile? text accept) else some p := by
  rw [skipWhile?, dif_neg h, hb]
  simp only
  split
  · split
    · next hq => rw [hq]; rfl
    · next q hq => rw [hq]; rfl
  · rfl

/-- Passes spaces and tabs. -/
def skipBlanks? : Option Pointer := p.skipWhile? text fun b => b == 32 || b == 9

/-- Jumps to the first line feed in the rest of the text, or to the end if there is none. -/
def toLineEnd? : Option Pointer :=
  (Source.range? text p.offset (Source.bytes text).length).map fun rest =>
    match rest.idxOf? Reader.lineFeed with
    | some distance => { p with offset := p.offset + distance }
    | none => { p with offset := (Source.bytes text).length }

/-! ## Small cases -/

-- a place that no reader has: the image of one byte ends before it, and its line starts behind it
example : (⟨64, 0⟩ : Pointer).current? "a" = none ∧ (⟨64, 0⟩ : Pointer).toLineEnd? "a" = none ∧
    (⟨0, 1⟩ : Pointer).column? = none := by decide

example : (⟨1, 0⟩ : Pointer).char? "aé" = some (some 'é') ∧
    (⟨2, 0⟩ : Pointer).char? "aé" = some (some '\uFFFD') := by decide

end Pointer

end Offside

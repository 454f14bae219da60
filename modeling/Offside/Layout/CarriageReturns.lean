/-
  Texts in which a carriage return stands in front of every line feed.

  To a scan a carriage return is the start of text, to the tokenizer it is white space.  So behind a
  piece of text the scan stops at the end of the line, and the white space is passed over with the
  line feed in it: no line is announced but the first, and the end of the text, if no carriage
  return is left in front of it.

  1. **Words** — the longest runs of bytes that are no white space.  Without comments they are the
     content of the text.
  2. **Both ends** — the depth of the first line, and the white space behind the last word.
-/
import Mathlib.Data.List.DropRight
import Offside.Layout.Lines

namespace Offside.Layout

/-- Every line feed stands right behind a carriage return. -/
def Paired (bs : List UInt8) : Prop :=
  ∀ front back, bs = front ++ 10 :: back → front.getLast? = some 13

/-- It can be checked at each index: the bytes in front of a line feed end with a carriage
    return. -/
theorem paired_iff {bs : List UInt8} :
    Paired bs ↔ ∀ i < bs.length, bs[i]? = some 10 → (bs.take i).getLast? = some 13 := by
  constructor
  · intro h i hi hb
    refine h (bs.take i) (bs.drop (i + 1)) ?_
    rw [List.getElem?_eq_getElem hi, Option.some.injEq] at hb
    rw [← hb, List.getElem_cons_drop, List.take_append_drop]
  · rintro h front back rfl
    have last := h front.length (by simp) (by simp)
    rwa [List.take_left] at last

instance (bs : List UInt8) : Decidable (Paired bs) := decidable_of_iff' _ paired_iff

/-! ## Words

  Words do not depend on lines, which is why they tell the content of a text whose lines are not
  announced. -/

/-- The runs of bytes between white space, without those that are empty. -/
def words (bs : List UInt8) : List (List UInt8) :=
  (bs.splitOnP Lexeme.isSpace).filter (!·.isEmpty)

theorem words_nil : words [] = [] := rfl

/-- White space is in no word, so a byte of it in front changes nothing. -/
theorem words_cons_of_space {b : UInt8} (hs : Lexeme.isSpace b = true) (bs : List UInt8) :
    words (b :: bs) = words bs := by
  have split := List.splitOnP_append_cons [] bs hs
  rw [List.nil_append, List.splitOnP_nil] at split
  rw [words, split]
  rfl

/-- Bytes without white space, up to white space or to the end, are one word. -/
theorem words_append {word bs : List UInt8} (hne : word ≠ [])
    (ht : ∀ b ∈ word, Lexeme.isSpace b = false) (hs : ∀ b ∈ bs.head?, Lexeme.isSpace b = true) :
    words (word ++ bs) = word :: words bs := by
  have kept : (!word.isEmpty) = true := by simpa using hne
  match bs with
  | [] =>
    rw [List.append_nil, words, List.splitOnP_eq_singleton ht, List.filter_cons, if_pos kept,
      List.filter_nil, words_nil]
  | b :: bs =>
    have hb : Lexeme.isSpace b = true := hs b rfl
    rw [words_cons_of_space hb, words, List.splitOnP_append_cons_of_forall_mem ht b hb,
      List.filter_cons, if_pos kept]
    rfl

/-- With the white space in front taken away, bytes have the same words. -/
theorem words_dropWhile (bs : List UInt8) : words (bs.dropWhile Lexeme.isSpace) = words bs := by
  induction bs with
  | nil => rfl
  | cons b bs ih =>
    rw [List.dropWhile_cons]
    split
    · next hs => rw [ih, words_cons_of_space hs]
    · rfl

/-- Where there is nothing but white space, there are no words. -/
theorem words_eq_nil {bs : List UInt8} (h : bs.dropWhile Lexeme.isSpace = []) : words bs = [] := by
  rw [← words_dropWhile, h, words_nil]

/-! ## Both ends

  Only two depths play a part in such a text: that of its first line, and depth zero at the end. -/

/-- The depth of the first line.  A text of spaces and tabs alone counts as its end, of depth
    zero. -/
def firstDepth (bs : List UInt8) : Nat :=
  if bs.all Line.isIndent then 0 else min 65535 ((bs.takeWhile Line.isIndent).count 9)

/-- The white space behind the last word. -/
def ending (bs : List UInt8) : List UInt8 := bs.rtakeWhile Lexeme.isSpace

/-- Behind a byte that is no white space the rest of a text, if it is all white space, is the ending
    of the text. -/
theorem ending_append {front bs : List UInt8} {b : UInt8} (hf : front.getLast? = some b)
    (hb : Lexeme.isSpace b = false) (hs : ∀ b ∈ bs, Lexeme.isSpace b = true) :
    ending (front ++ bs) = bs := by
  obtain ⟨front, rfl⟩ := List.getLast?_eq_some_iff.mp hf
  rw [ending, List.rtakeWhile, List.reverse_append, List.reverse_append, List.reverse_singleton,
    List.singleton_append, List.takeWhile_append_of_pos (by simpa using hs),
    List.takeWhile_cons_of_neg (by simp [hb]), List.append_nil, List.reverse_reverse]

/-! ## Small cases -/

example : Paired [97, 13, 10, 13] ∧ ¬Paired [97, 13, 10, 10] := by decide
example : words "a bc\r\n\td".toUTF8.data.toList = [[97], [98, 99], [100]] := by decide +kernel
example : firstDepth [9, 32, 9, 120] = 2 ∧ firstDepth [9, 32] = 0 ∧ firstDepth [9, 13] = 1 := by
  decide

end Offside.Layout

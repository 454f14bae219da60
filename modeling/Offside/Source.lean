/-
  Source texts, seen as the bytes of their UTF-8 form.

  1. **Bytes** — all offsets of this library count bytes of `Source.bytes text`.
  2. **Image** — what a reader that wants a zero after the last byte is given: the bytes, then
     zeros up to the next multiple of `Source.blockSize`, at least one.
  3. **Flaws** — signs that a text has been through the wrong encoder: a byte order mark in front,
     or zero bytes inside.  A flaw is reported and never mended.
  4. **Slices** — the text between two offsets, which exists when both stand between characters.
  5. **Columns** — how far an offset stands from the start of its line.
-/
import Offside.Source.Span

namespace Offside.Source

/-! ## Bytes

  The bytes are given as a list, since most of what is said about them goes from one to the next. -/

/-- The UTF-8 bytes of a text. -/
def bytes (text : String) : List UInt8 := text.toByteArray.data.toList

/-- The bytes of a text are those of its characters, one character after another. -/
theorem bytes_eq_flatMap (text : String) :
    bytes text = text.toList.flatMap String.utf8EncodeChar := by
  rw [bytes, ← String.utf8Encode_toList]
  simp [List.utf8Encode]

@[simp] theorem length_bytes (text : String) : (bytes text).length = text.utf8ByteSize := rfl

theorem bytes_append (front rest : String) : bytes (front ++ rest) = bytes front ++ bytes rest := by
  simp [bytes]

/-- Texts are the same if their bytes are. -/
theorem eq_of_bytes {a b : String} (h : bytes a = bytes b) : a = b := by
  apply String.toByteArray_inj.mp
  exact ByteArray.ext (Array.toList_inj.mp h)

/-! ## The padded image

  There is room for one zero at least, also where the bytes fill their last block. -/

/-- Images are whole blocks of this many bytes. -/
def blockSize : Nat := 64

/-- The size of the image of `size` bytes: the smallest number of whole blocks that leaves room for
    one byte more. -/
def imageSize (size : Nat) : Nat := (size / blockSize + 1) * blockSize

/-- The bytes of a text with zeros after them, up to the next whole block. -/
def image (text : String) : List UInt8 :=
  let all := bytes text
  all ++ List.replicate (imageSize all.length - all.length) 0

theorem lt_imageSize (size : Nat) : size < imageSize size := by
  unfold imageSize blockSize; omega

@[simp] theorem length_image (text : String) :
    (image text).length = imageSize (bytes text).length := by
  have := lt_imageSize (bytes text).length
  simp only [image, List.length_append, List.length_replicate]
  omega

/-! ## Flaws

  Each flaw names the bytes that show it, by the offset of the first and their number. -/

/-- What can be wrong with the encoding of a text. -/
inductive Flaw.Kind
  | utf8Mark
  | utf16LittleMark
  | utf16BigMark
  | nullByte
  deriving DecidableEq, Repr, Inhabited

/-- The words of a warning. -/
def Flaw.Kind.describe : Flaw.Kind → String
  | .utf8Mark => "UTF-8 byte order mark"
  | .utf16LittleMark => "UTF-16 little-endian byte order mark"
  | .utf16BigMark => "UTF-16 big-endian byte order mark"
  | .nullByte => "null byte in source"

/-- A flaw and the bytes that show it. -/
structure Flaw where
  kind : Flaw.Kind
  offset : Nat
  length : Nat
  deriving DecidableEq, Repr, Inhabited

/-- The byte order mark at the front, if there is one. -/
def orderMark? : List UInt8 → Option Flaw
  | 0xEF :: 0xBB :: 0xBF :: _ => some ⟨.utf8Mark, 0, 3⟩
  | 0xFF :: 0xFE :: _ => some ⟨.utf16LittleMark, 0, 2⟩
  | 0xFE :: 0xFF :: _ => some ⟨.utf16BigMark, 0, 2⟩
  | _ => none

/-- One flaw for each zero byte, from the first to the last. -/
def nullBytes (all : List UInt8) : List Flaw :=
  (all.zipIdx.filter (·.1 == 0)).map fun found => ⟨.nullByte, found.2, 1⟩

/-- All flaws of a text: the byte order mark first, then the zero bytes in order. -/
def flaws (text : String) : List Flaw :=
  let all := bytes text
  (orderMark? all).toList ++ nullBytes all

/-! ## Slices

  Offsets need not be in order nor in the text; they are brought there first.  A slice that would
  cut a character in two is empty. -/

/-- The text that the bytes of `utf8` between two offsets spell, or the empty text if they spell
    none.  Offsets past the end count as the end, and a start past the stop counts as the stop. -/
def cut (utf8 : ByteArray) (start stop : Nat) : String :=
  let stop := min stop utf8.size
  (String.fromUTF8? (utf8.extract (min start stop) stop)).getD ""

/-- The part of a text between two offsets: empty unless both stand between characters. -/
def slice (text : String) (start stop : Nat) : String := cut text.toByteArray start stop

/-- Where both offsets are in the text and in order, nothing is brought into the text. -/
theorem slice_of_le {text : String} {start stop : Nat} (h : start ≤ stop)
    (hs : stop ≤ (bytes text).length) :
    slice text start stop = (String.fromUTF8? (text.toByteArray.extract start stop)).getD "" := by
  have last : min stop text.toByteArray.size = stop := Nat.min_eq_left hs
  rw [slice, cut, last, Nat.min_eq_left h]

/-! ## Columns

  A column counts bytes, so a character may be several columns wide, and a tab is one. -/

/-- The distance of an offset from the start of its line: the bytes in front of it, back to the last
    line feed. -/
def column (text : String) (offset : Nat) : Nat :=
  (((bytes text).take offset).reverse.takeWhile (· != 10)).length

/-! ## Small cases -/

example : column "a\n\tb" 3 = 1 ∧ column "a\n\tb" 2 = 0 ∧ column "é" 1 = 1 := by decide
example : bytes "a\té" = [97, 9, 195, 169] := by decide
example : imageSize 0 = 64 ∧ imageSize 63 = 64 ∧ imageSize 64 = 128 := by decide
example : flaws "\x00a\x00" = [⟨.nullByte, 0, 1⟩, ⟨.nullByte, 2, 1⟩] := by decide
example : slice "aéb" 1 3 = "é" ∧ slice "aéb" 2 3 = "" ∧ slice "aéb" 1 9 = "éb" := by decide

end Offside.Source

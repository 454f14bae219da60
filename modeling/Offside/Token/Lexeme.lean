/-
  Pieces of text: white space, comments and content.

  White space separates.  A comment starts with two slashes, also in the middle of a word, and lasts
  to the end of its line.  Everything else is content.

  Content is given twice: as a walk of the reader over characters, which is how it is passed, and as
  a length counted on bytes, which is what proofs about places calculate with.
-/
import Offside.Source.Reader
import Offside.Token

namespace Offside.Lexeme

/-- Whether a byte is white space: space, tab, line feed or carriage return. -/
def isSpace (b : UInt8) : Bool := b == 32 || b == 9 || b == 10 || b == 13

/-- Whether a comment starts in front of these bytes. -/
def startsComment : List UInt8 → Bool
  | 47 :: 47 :: _ => true
  | _ => false

theorem startsComment_iff {bs : List UInt8} :
    startsComment bs = true ↔ ∃ more, bs = 47 :: 47 :: more := by
  constructor
  · intro h
    unfold startsComment at h
    split at h
    · exact ⟨_, rfl⟩
    · simp at h
  · rintro ⟨more, rfl⟩
    rfl

/-- Passes content, character by character: up to white space, a comment or the end.  The first byte
    of each character decides, since white space and slashes are characters of one byte. -/
def passContent (r : Reader) : Reader :=
  if r.rest = [] then r
  else if isSpace r.current || startsComment r.rest then r
  else passContent r.stepChar
termination_by r.rest.length
decreasing_by exact Reader.rest_stepChar_lt ‹_›

/-- The length of the content in front of these bytes.  White space and comments are told by single
    bytes below 128, so characters need not be looked at.  `length` is what was counted before. -/
def contentLength (length : Nat) : List UInt8 → Nat
  | [] => length
  | b :: bs =>
    if isSpace b || startsComment (b :: bs) then length else contentLength (length + 1) bs

/-- Counting content adds to what was counted before. -/
theorem le_contentLength (n : Nat) (bs : List UInt8) : n ≤ contentLength n bs := by
  induction bs generalizing n with
  | nil => exact Nat.le_refl n
  | cons b bs ih =>
    unfold contentLength
    split
    · exact Nat.le_refl n
    · exact Nat.le_of_succ_le (ih (n + 1))

/-- Content that starts with a byte that is no white space and starts no comment is not empty. -/
theorem contentLength_pos {b : UInt8} {bs : List UInt8} (hb : isSpace b = false)
    (hc : startsComment (b :: bs) = false) : 0 < contentLength 0 (b :: bs) := by
  unfold contentLength
  simp only [hb, hc, Bool.or_self, Bool.false_eq_true, if_false]
  exact le_contentLength 1 bs

/-- Passing content never leaves more ahead than there was. -/
theorem rest_passContent_le (r : Reader) : (passContent r).rest.length ≤ r.rest.length := by
  fun_induction passContent r with
  | case1 => exact Nat.le_refl _
  | case2 => exact Nat.le_refl _
  | case3 r hne _ ih =>
    have := Reader.rest_stepChar_lt hne
    omega

/-- Passing content leaves less ahead where there is content to pass, that is in front of a byte
    that is no white space and starts no comment. -/
theorem rest_passContent_lt {r : Reader} {b : UInt8} {bs : List UInt8} (hr : r.rest = b :: bs)
    (hb : isSpace b = false) (hc : startsComment (b :: bs) = false) :
    (passContent r).rest.length < r.rest.length := by
  have hne : r.rest ≠ [] := by simp [hr]
  have hcur : r.current = b := by simp [Reader.current, hr]
  rw [passContent, if_neg hne, if_neg (by simp [hcur, hr, hb, hc])]
  exact Nat.lt_of_le_of_lt (rest_passContent_le _) (Reader.rest_stepChar_lt hne)

example : contentLength 0 [97, 47, 98, 47, 47, 99] = 3 ∧ contentLength 0 [47] = 1 := by decide

end Offside.Lexeme

/-
  Byte ranges of a source text.

  Every token says where it stands by a half-open range of byte offsets.  Structural tokens stand
  between two bytes: their range is empty.
-/

namespace Offside

/-- A half-open range of byte offsets: `start` belongs to it, `stop` does not. -/
structure Span where
  start : Nat
  stop : Nat
  deriving DecidableEq, Repr, Inhabited

namespace Span

/-- The empty range at one offset. -/
def point (offset : Nat) : Span := ⟨offset, offset⟩

/-- How many bytes the range holds. -/
def length (s : Span) : Nat := s.stop - s.start

/-- Whether the range holds no byte. -/
def isEmpty (s : Span) : Bool := s.start == s.stop

/-- The written form: both ends in decimal with two dots between them. -/
def text (s : Span) : String := s.start.repr ++ ".." ++ s.stop.repr

@[simp] theorem isEmpty_point (offset : Nat) : (point offset).isEmpty = true := by
  simp [point, isEmpty]

@[simp] theorem length_point (offset : Nat) : (point offset).length = 0 := by
  simp [point, length]

example : text ⟨3, 11⟩ = "3..11" := by decide +kernel

end Span

end Offside

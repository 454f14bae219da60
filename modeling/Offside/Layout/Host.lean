/-
  The host of a scan: whoever holds the text that is scanned.

  A scan looks at one character at a time and passes it, either as part of the token or as skipped
  text in front of it; it may mark the place where the token ends; and it asks once in which column
  it stands.  `Host` is that interface.  A host has a finite text: `remaining` counts what is left
  of it and falls with every character skipped, so reading ahead ends.

  `Script` is the plainest host: a list of characters and a fixed column, with a record of what was
  asked of it.
-/

namespace Offside

/-- Access to a text from a place in it. -/
class Host (σ : Type) where
  /-- The character at the place, if the text goes on. -/
  next? : σ → Option Char
  /-- Passes a character as part of the token. -/
  take : σ → σ
  /-- Passes a character in front of the token. -/
  skip : σ → σ
  /-- Marks the place as the end of the token. -/
  markEnd : σ → σ
  /-- The distance of the place from the start of its line. -/
  column : σ → Nat
  /-- A bound on the characters left. -/
  remaining : σ → Nat
  /-- Skipping a character leaves fewer. -/
  remaining_skip : ∀ h, (next? h).isSome = true → remaining (skip h) < remaining h

/-- What can be asked of a host that changes it. -/
inductive Host.Call
  | markEnd
  | skip
  | take
  deriving DecidableEq, Repr, Inhabited

/-- A host over a list of characters.  It answers every question for its column with the same
    number. -/
structure Script where
  rest : List Char
  column : Nat
  /-- What was asked so far, the latest first. -/
  asked : List Host.Call
  deriving DecidableEq, Repr, Inhabited

namespace Script

/-- The host at the start of a text. -/
def start (text : List Char) (column : Nat) : Script := ⟨text, column, []⟩

/-- What was asked of the host, in order. -/
def calls (s : Script) : List Host.Call := s.asked.reverse

/-- How many characters were passed. -/
def passed (s : Script) : Nat := s.asked.countP (· != .markEnd)

instance : Host Script where
  next? s := s.rest.head?
  take s := { s with rest := s.rest.tail, asked := .take :: s.asked }
  skip s := { s with rest := s.rest.tail, asked := .skip :: s.asked }
  markEnd s := { s with asked := .markEnd :: s.asked }
  column s := s.column
  remaining s := s.rest.length
  remaining_skip := by
    rintro ⟨rest, column, asked⟩ h
    cases rest with
    | nil => simp at h
    | cons c cs => simp

end Script

end Offside

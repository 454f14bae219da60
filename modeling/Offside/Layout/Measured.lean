/-
  What a scan answers, said without reading.

  A scan depends on the text only through its blank front, the longest piece of line feeds, tabs
  and spaces that it starts with.  `measured` reads the depth off that front, and `answer` says for
  every state and every set of boundaries what the scan decides, which counters it leaves, and what
  it asks of its host.
-/
import Offside.Layout.Depths
import Offside.Layout.Host

namespace Offside.Scan

/-- Whether a character can stand in front of the text of a line. -/
def isFront (c : Char) : Bool := c == '\n' || c == '\t' || c == ' '

/-- The blank front of a text. -/
def front (text : List Char) : List Char := text.takeWhile isFront

/-- The tabs after the last line feed, or all of them if there is none. -/
def tabs (front : List Char) : Nat := (front.reverse.takeWhile (· != '\n')).count '\t'

/-- The depth measured in front of a text, in a column. -/
def measured (column : Nat) (text : List Char) : Option Nat :=
  if (front text).length = text.length then some 0
  else if column ≠ 0 ∧ '\n' ∉ front text then none
  else some (min 65535 (tabs (front text)))

/-- What a scan decides, the counters after it, and what it asks of its host. -/
structure Answer where
  decision? : Option Decision
  depths : Depths
  calls : List Host.Call
  deriving DecidableEq, Repr

/-- The answer of a scan. -/
def answer (d : Depths) (allowed : Allowed) (column : Nat) (text : List Char) : Answer :=
  let reading := .markEnd :: List.replicate (front text).length .skip
  if allowed.opening ∧ d.current < d.target then
    ⟨some (.opening ⟨d.current + 1, d.target⟩), ⟨d.current + 1, d.target⟩, []⟩
  else if allowed.closing ∧ d.target < d.current then
    ⟨some (.closing ⟨d.current - 1, d.target⟩), ⟨d.current - 1, d.target⟩, []⟩
  else if allowed = .none then ⟨none, d, []⟩
  else
    match measured column text with
    | none => ⟨none, d, reading⟩
    | some depth =>
      let target := UInt16.ofNat depth
      if allowed.level ∧ depth = d.current.toNat then ⟨some (.level target), d, reading⟩
      else if allowed.opening ∧ d.current < target then
        ⟨some (.opening ⟨d.current + 1, target⟩), ⟨d.current + 1, target⟩, reading⟩
      else if allowed.closing ∧ target < d.current then
        ⟨some (.closing ⟨d.current - 1, target⟩), ⟨d.current - 1, target⟩, reading⟩
      else ⟨none, ⟨d.current, target⟩, reading⟩

example : measured 3 "\n\t \t// x".toList = some 2 ∧ measured 3 "\tx".toList = none := by decide

end Offside.Scan

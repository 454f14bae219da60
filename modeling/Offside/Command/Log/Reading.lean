/-
  Reading a line of the log back.

  How a line begins is the business of whoever writes it (`Log.Writer`): it may hold a path, and a
  path may hold anything, words that look like those of a decision included.  So a line is read from
  its end.  It is cut at its spaces, and its last words are looked at first:

    `… level depth=D`                    the depth of a line that begins,
    `… open current=C target=T`          the counters behind a block that was opened,
    `… close current=C target=T`         the counters behind a block that was closed.

  A number has to fit a counter, and nothing may stand behind it.  What ends in another way tells of
  no decision (`none`).
-/
import Offside.Command.Log
import Offside.Dump.Reading

namespace Offside.Command.Log

/-! ## One word

  A field is read off a single word: its name, an equals sign, and a number that a counter can
  hold. -/

/-- The number that a word gives to a field, as `depth=3` gives it to `depth`. -/
def readField (name : String) (word : List Char) : Option UInt16 := do
  let digits ← Dump.readText (name.toList ++ ['=']) word
  let (value, rest) ← Dump.readNumber digits
  if rest = [] ∧ value < UInt16.size then some (UInt16.ofNat value) else none

/-- The counters of a step, from the two words that give them. -/
def readCounters (current target : List Char) : Option Depths := do
  return ⟨← readField "current" current, ← readField "target" target⟩

/-! ## One line

  The words are looked at from the back, where those of the event stand.  How many of them there are
  depends on the event: two for a level, three for a step. -/

/-- The decision that the last words of a line tell of, the last of them first. -/
def decisionOfWords : List (List Char) → Option Decision
  | last :: second :: words =>
    if second = "level".toList then (readField "depth" last).map .level
    else match words with
      | third :: _ =>
        if third = "open".toList then (readCounters second last).map .opening
        else if third = "close".toList then (readCounters second last).map .closing
        else none
      | [] => none
  | _ => none

/-- The decision that a line tells of, if it does. -/
def readDecision (line : String) : Option Decision :=
  decisionOfWords (Text.piecesOf ' ' line.toList).reverse

/-! ## Small cases -/

example : readDecision "TRACE lucent_lexer_core::indent: open current=1 target=2" =
    some (.opening ⟨1, 2⟩) := by decide +kernel

-- a path that looks like a decision is not taken for one
example : readDecision "DEBUG lex_file\x7bpath=\"level depth=3\"\x7d: a: read source bytes=4" = none := by
  decide +kernel

example : readField "depth" "depth=65536".toList = none := by decide +kernel

end Offside.Command.Log

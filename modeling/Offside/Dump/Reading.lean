/-
  Reading a dump back.

  1. **One line** — `readLine` takes a line of a dump apart: the name of the token, its span, its
     text if it is content or a comment, and the counters if they are shown.  It does not ask which
     characters were hidden when the line was written.
  2. **Whole dumps** — a dump is cut at its line feeds; the lines of text are told from the others,
     and the counters are taken off, by the look of a line alone.
  3. **Counters** — what the counters on the lines should tell of the lines: the first is the depth
     that the lines so far lead to, the second that of the next level line.
-/
import Offside.Dump
import Offside.Text.Pieces

namespace Offside.Dump

/-- What a line of a dump says. -/
structure Entry where
  token : Token
  text? : Option (List Char)
  state? : Option (Nat × Nat)
  deriving DecidableEq, Repr

/-- What the line of a token should say: the token, the bytes of the source text in its span unless
    it is structural, and the counters after it if they are shown. -/
structure Entry.Describes (options : Options) (text : String) (e : Emission) (entry : Entry) :
    Prop where
  token : entry.token = e.token
  text : entry.text?.map (fun cs => Source.bytes (String.ofList cs)) =
    if e.token.kind.isStructural then none
    else some (((Source.bytes text).take e.token.span.stop).drop e.token.span.start)
  state : entry.state? =
    if options.showState then some (e.depths.current.toNat, e.depths.target.toNat) else none

/-! ## One line

  Each part of a line is taken off the front of what is left of it, and a line is read only if
  nothing is left behind the last part. -/

/-- Takes a given text off the front. -/
def readText (expected : List Char) (line : List Char) : Option (List Char) :=
  if expected.isPrefixOf line then some (line.drop expected.length) else none

/-- Takes a decimal number off the front. -/
def readNumber (line : List Char) : Option (Nat × List Char) :=
  match line.takeWhile Char.isDigit with
  | [] => none
  | digits => some (Nat.ofDigitChars 10 digits 0, line.dropWhile Char.isDigit)

/-- Takes the padded name of a kind off the front. -/
def readKind (line : List Char) : Option (Token.Kind × List Char) :=
  Token.Kind.all.findSome? fun k =>
    (readText (padded nameWidth k.name.toList ++ [' ']) line).map fun rest => (k, rest)

/-- Takes the text of a token, quoted after a space, off the front; structural tokens have none. -/
def readTokenText (kind : Token.Kind) (line : List Char) :
    Option (Option (List Char) × List Char) :=
  if kind.isStructural then some (none, line)
  else do
    let line ← readText [' '] line
    let (text, line) ← Text.Quoted.decode line
    return (some text, line)

/-- Takes the counters, in brackets after a space, off the front, if they are shown. -/
def readState (showState : Bool) (line : List Char) : Option (Option (Nat × Nat) × List Char) :=
  if showState then do
    let line ← readText [' ', '['] line
    let (current, line) ← readNumber line
    let line ← readText ['/'] line
    let (target, line) ← readNumber line
    let line ← readText [']'] line
    return (some (current, target), line)
  else some (none, line)

/-- Reads a line that was written with or without the counters. -/
def readLine (showState : Bool) (line : List Char) : Option Entry := do
  let (kind, line) ← readKind line
  let (start, line) ← readNumber line
  let line ← readText ['.', '.'] line
  let (stop, line) ← readNumber line
  let (text?, line) ← readTokenText kind line
  let (state?, line) ← readState showState line
  if line.isEmpty then some ⟨⟨kind, ⟨start, stop⟩⟩, text?, state?⟩ else none

/-! ## Whole dumps

  These say what becomes of a dump as a whole when options are changed: which lines are left out,
  and what is cut off the others. -/

/-- The lines of a text in which each line is ended by a line feed. -/
def linesOf (dump : String) : List (List Char) := (Text.piecesOf '\n' dump.toList).dropLast

/-- Whether a line is that of content or of a comment. -/
def isTextLine (line : List Char) : Bool := (readKind line).any (!·.1.isStructural)

/-- A line without the counters at its end: they start with the last opening bracket, and a space
    stands in front of it. -/
def dropState (line : List Char) : List Char :=
  ((line.reverse.dropWhile (· != '[')).drop 2).reverse

/-! ## Counters

  A reader of a dump has no tokenizer.  All that is said here about the counters is said in terms of
  the lines, by counting those of each kind. -/

/-- How many lines stand for one boundary. -/
def countOf (b : Boundary) (entries : List Entry) : Nat :=
  entries.countP (·.token.kind == .boundary b)

/-- Whether a line is that of a step. -/
def Entry.IsStep (entry : Entry) : Prop :=
  entry.token.kind = .boundary .opening ∨ entry.token.kind = .boundary .closing

/-- After a line come, perhaps, more lines of its kind, and then a level line.  The lines of its
    kind have one second counter, and both counters of the level line are equal to it. -/
def Entry.LeadsToLevel (entry : Entry) (back : List Entry) : Prop :=
  ∃ depth run level later, back = run ++ level :: later ∧
    (∀ step ∈ entry :: run, step.token.kind = entry.token.kind ∧
      ∃ current, step.state? = some (current, depth)) ∧
    level.token.kind = .boundary .level ∧ level.state? = some (depth, depth)

/-- The counters on some lines tell what the lines say.  `before` is the depth in front of them. -/
structure Replays (before : Nat) (entries : List Entry) : Prop where
  /-- On each line the first counter is the depth: it grows with each block opened up to this line,
      and falls with each block closed. -/
  counted : ∀ front entry back, entries = front ++ entry :: back →
    ∃ current target, entry.state? = some (current, target) ∧
      current + countOf .closing (front ++ [entry]) = before + countOf .opening (front ++ [entry])
  /-- Both counters are equal except on a step. -/
  reached : ∀ entry ∈ entries, ¬entry.IsStep → ∃ depth, entry.state? = some (depth, depth)
  /-- A run of steps leads to the level line that its second counter tells. -/
  leads : ∀ front entry back, entries = front ++ entry :: back → entry.IsStep →
    entry.LeadsToLevel back

/-! ## Small cases -/

example : readLine true "CONTENT  3..4 \"\\t\" [1/20]".toList =
    some ⟨⟨.content, ⟨3, 4⟩⟩, some ['\t'], some (1, 20)⟩ := by decide +kernel

example : readLine false "OPEN     0..0 [1/2]".toList = none := by decide +kernel

example : dropState "CONTENT  0..4 \"[1/2]\" [0/0]".toList = "CONTENT  0..4 \"[1/2]\"".toList := by
  decide +kernel

end Offside.Dump

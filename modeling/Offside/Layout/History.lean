/-
  Histories: what was asked of a host.

  Whoever scans asks a host for three things that change it, in any order and number: to pass a
  character as part of the token, to pass one in front of it, and to mark the end of the token.  A
  `History` is the list of what was asked.

  1. **Asking** — the host after a history (`askAll`), whichever host it is.
  2. **Places in a text** — the same history on a plain reader, which passes characters and keeps no
     accounts: where the reader stands (`Reader.behind`), where it stood when the end was marked
     last (`tokenEnd`), and where it stood after the last character in front of the token
     (`tokenStart`).
  3. **Tokens in a row** — each has a history of its own, and starts from where the one before
     ended.
-/
import Mathlib.Data.List.DropRight
import Offside.Layout.Probe

namespace Offside

/-- What was asked of a host, in order. -/
abbrev History : Type := List Host.Call

/-- The history up to the last call of one kind, with that call; empty if there is no such call. -/
def History.upToLast (call : Host.Call) (history : History) : History :=
  history.rdropWhile (· != call)

/-! ## Asking

  A host is whatever can be asked.  A history lists its calls in the order in which they were made,
  the earliest first. -/

namespace Host

variable {σ : Type} [Host σ]

/-- The host after one call. -/
def ask (h : σ) : Call → σ
  | .markEnd => markEnd h
  | .skip => skip h
  | .take => take h

/-- The host after a history. -/
def askAll (h : σ) (history : History) : σ := history.foldl ask h

end Host

/-! ## Places in a text

  Each place is told by a part of the history: all of it, the part up to the last mark, or the part
  up to the last skip.  Only the number of characters in that part matters. -/

namespace Reader

/-- The reader behind the characters that were passed. -/
def behind (history : History) (r : Reader) : Reader :=
  r.stepChars (history.countP (· != .markEnd))

/-- The reader where the token ends: where the end was marked last, or else behind everything. -/
def tokenEnd (history : History) (r : Reader) : Reader :=
  if .markEnd ∈ history then r.behind (history.upToLast .markEnd) else r.behind history

/-- The offset behind the last character in front of the token, or where it all started if there is
    none. -/
def tokenStart (history : History) (r : Reader) : Nat := (r.behind (history.upToLast .skip)).offset

end Reader

/-! ## Tokens in a row

  The end that was marked is where the next token starts, so what a probe has passed behind its mark
  is passed once more. -/

/-- The spans of tokens with these histories, where each token starts from the end of the one
    before. -/
def Probe.spansFrom (r : Reader) : List History → List Span
  | [] => []
  | history :: later =>
    let token := (Host.askAll (start r) history).finish
    token.1 :: spansFrom token.2 later

/-! ## Small cases -/

example : History.upToLast .markEnd [.take, .markEnd, .skip, .markEnd, .take] =
    [.take, .markEnd, .skip, .markEnd] := by decide

-- the end is marked in front of the line feed, and what follows belongs to the next token
example : Probe.spansFrom (Reader.start "a\n\tbc")
    [[.take, .markEnd, .take, .take], [.skip, .skip, .take, .take]] = [⟨0, 1⟩, ⟨3, 5⟩] := by decide

-- skipped behind the mark: the token is empty
example : Probe.spansFrom (Reader.start "a\n\tbc") [[.take, .markEnd, .skip, .skip]] = [⟨1, 1⟩] := by
  decide

end Offside

/-
  A probe: a reader sent ahead of the text that has been used up.

  It is the host of a scan over a source text.  It remembers where the token would start (after the
  last character skipped) and, once marked, where the token ends; `finish` gives the span of the
  token and the reader from which the text goes on.  Reading ahead is free: what lies after the mark
  is read again.
-/
import Offside.Layout.Host
import Offside.Source.Reader

namespace Offside

/-- A reader on its way, the offset where the token starts, and the end of the token if marked. -/
structure Probe where
  reader : Reader
  tokenStart : Nat
  marked : Option Reader
  deriving DecidableEq, Repr, Inhabited

namespace Probe

/-- A probe about to leave from a place. -/
def start (r : Reader) : Probe := ⟨r, r.offset, none⟩

/-- Passes a character as part of the token. -/
def take (p : Probe) : Probe := { p with reader := p.reader.stepChar }

/-- Passes a character in front of the token: the token starts after it. -/
def skip (p : Probe) : Probe :=
  let reader := p.reader.stepChar
  { p with reader := reader, tokenStart := reader.offset }

/-- Marks the place as the end of the token. -/
def markEnd (p : Probe) : Probe := { p with marked := some p.reader }

/-- The span of the token and the place after it.  The token ends at the mark, or where the probe
    is if nothing was marked.  Text skipped after the mark does not move the start past the end. -/
def finish (p : Probe) : Span × Reader :=
  let stop := p.marked.getD p.reader
  (⟨min p.tokenStart stop.offset, stop.offset⟩, stop)

instance : Host Probe where
  next? p := p.reader.char?
  take := take
  skip := skip
  markEnd := markEnd
  column p := p.reader.column
  remaining p := p.reader.rest.length
  remaining_skip _ h := Reader.rest_stepChar_lt (Reader.char?_isSome_iff.mp h)

example : (start (Reader.start "  ab")).skip.skip.take.finish.1 = ⟨2, 3⟩ := by decide
example : (start (Reader.start "  ab")).markEnd.skip.skip.finish.1 = ⟨0, 0⟩ := by decide

end Probe

end Offside

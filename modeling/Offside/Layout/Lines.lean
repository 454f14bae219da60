/-
  Layout by lines: what the token stream of a text is, said line by line.

  1. **Lines** — the pieces between line feeds.  A line of spaces and tabs alone is blank and has no
     part in the layout; any other line has a depth, the number of tabs it starts with (spaces
     between them are passed over).
  2. **Announcements** — a line is announced by one token for each block that it opens or closes
     and by a level token after them.  All of them stand at the end of the text before.
  3. **Statements** — a line without content, that is with a comment alone, does not use up its
     announcement: the next line is then not announced, whatever its depth.  The end of the text is
     announced as a line of depth zero, on the same condition.

  The rule is for texts without carriage returns.  A carriage return is white space, but it is not
  blank, so a scan stops at it.
-/
import Offside.Source
import Offside.Token.Lexeme

namespace Offside

/-- A line: its bytes, and the offset of the first of them. -/
structure Line where
  start : Nat
  bytes : List UInt8
  deriving DecidableEq, Repr, Inhabited

namespace Line

/-! ## Lines

  A text has one line more than it has line feeds, so the last line may be empty.  The line feeds
  themselves belong to no line. -/

/-- Whether a byte can stand in front of the text of a line. -/
def isIndent (b : UInt8) : Bool := b == 9 || b == 32

/-- The lines of a run of bytes that starts at an offset. -/
def split (start : Nat) : List UInt8 → List Line
  | [] => [⟨start, []⟩]
  | b :: bs =>
    if b = 10 then ⟨start, []⟩ :: split (start + 1) bs
    else
      match split (start + 1) bs with
      | [] => [⟨start, [b]⟩]
      | line :: lines => ⟨start, b :: line.bytes⟩ :: lines

/-- The first line goes up to the first line feed, and is all there is if there is none. -/
theorem split_eq (start : Nat) (bs : List UInt8) :
    split start bs = ⟨start, bs.takeWhile (· != 10)⟩ :: (split start bs).tail := by
  induction bs generalizing start with
  | nil => rfl
  | cons b bs ih =>
    unfold split
    split
    · next h => subst h; rfl
    · next h =>
      rw [ih (start + 1), List.takeWhile_cons_of_pos (by rwa [bne_iff_ne])]
      rfl

/-- The other lines do not depend on what the first one starts with. -/
theorem tail_split_append {pre : List UInt8} (h : ∀ b ∈ pre, b ≠ 10) (start : Nat)
    (bs : List UInt8) :
    (split start (pre ++ bs)).tail = (split (start + pre.length) bs).tail := by
  induction pre generalizing start with
  | nil => rfl
  | cons b pre ih =>
    have hb : b ≠ 10 := h b List.mem_cons_self
    have later := ih (fun b' hb' => h b' (List.mem_cons_of_mem b hb')) (start + 1)
    rw [List.length_cons, show start + (pre.length + 1) = start + 1 + pre.length by omega, ← later,
      List.cons_append, split, if_neg hb, split_eq (start + 1)]
    rfl

/-- The bytes of the lines are bytes of what was split: splitting only leaves out line feeds. -/
theorem mem_of_mem_split {start : Nat} {bs : List UInt8} {l : Line} {b : UInt8}
    (hl : l ∈ split start bs) (hb : b ∈ l.bytes) : b ∈ bs := by
  induction bs generalizing start l with
  | nil =>
    obtain rfl := List.mem_singleton.mp hl
    exact hb
  | cons b' bs ih =>
    unfold split at hl
    split at hl
    · rcases List.mem_cons.mp hl with rfl | hl
      · simp at hb
      · exact List.mem_cons_of_mem b' (ih hl hb)
    · rw [split_eq (start + 1)] at hl
      rcases List.mem_cons.mp hl with rfl | hl
      · rcases List.mem_cons.mp hb with rfl | hb
        · exact List.mem_cons_self
        · exact List.mem_cons_of_mem b' ((List.takeWhile_sublist _).mem hb)
      · exact List.mem_cons_of_mem b' (ih (List.mem_of_mem_tail hl) hb)

/-- Whether a line has no part in the layout. -/
def isBlank (l : Line) : Bool := l.bytes.all isIndent

/-- The number of tabs that a line starts with, up to the largest depth. -/
def depth (l : Line) : Nat := min 65535 ((l.bytes.takeWhile isIndent).count 9)

/-- The content and comments of a line that goes on at an offset. -/
def piecesFrom (offset : Nat) : List UInt8 → List Token
  | [] => []
  | b :: bs =>
    if Lexeme.isSpace b then piecesFrom (offset + 1) bs
    else if hc : Lexeme.startsComment (b :: bs) then
      [⟨.comment, ⟨offset, offset + (b :: bs).length⟩⟩]
    else
      let length := Lexeme.contentLength 0 bs + 1
      ⟨.content, ⟨offset, offset + length⟩⟩ :: piecesFrom (offset + length) (bs.drop (length - 1))
termination_by bs => bs.length
decreasing_by all_goals simp only [List.length_cons, List.length_drop]; omega

/-- The content and comments of a line. -/
def pieces (l : Line) : List Token := piecesFrom l.start l.bytes

end Line

namespace Layout

/-! ## Announcements

  From here on a text is a list of lines, and its tokens are written down by one recursion over
  them. -/

/-- The boundaries between a line of one depth and a line of another. -/
def boundaries (before depth : Nat) : List Boundary :=
  List.replicate (depth - before) .opening ++ List.replicate (before - depth) .closing ++ [.level]

/-- The structural tokens between a line of one depth and a line of another, at an offset. -/
def announce (before depth offset : Nat) : List Token :=
  (boundaries before depth).map fun b => ⟨.boundary b, .point offset⟩

/-- Whether there is content among some tokens. -/
def hasContent (ts : List Token) : Bool := ts.any (·.kind == .content)

/-- The tokens of the lines left.  `before` is the depth of the last line announced, `announced`
    tells whether its content is still to come, and `last` is where the text so far ended. -/
def tokensFrom (before : Nat) (announced : Bool) (last : Nat) : List Line → List Token
  | [] => if announced then [] else announce before 0 last
  | line :: lines =>
    if line.isBlank then tokensFrom before announced last lines
    else
      let pieces := line.pieces
      let stop := (pieces.getLast?.map (·.span.stop)).getD last
      if announced then pieces ++ tokensFrom before (!hasContent pieces) stop lines
      else
        announce before line.depth last ++
          (pieces ++ tokensFrom line.depth (!hasContent pieces) stop lines)

/-- The tokens of a text, line by line. -/
def tokens (text : String) : List Token :=
  tokensFrom 0 false 0 (Line.split 0 (Source.bytes text))

/-! ## Small cases -/

example : (tokens "a\n\tb").map (·.kind.name) =
    ["LEVEL", "CONTENT", "OPEN", "LEVEL", "CONTENT", "CLOSE", "LEVEL"] := by decide +kernel

example : (tokens "\t//c\n\n\t\tx").map (·.kind.name) =
    ["OPEN", "LEVEL", "COMMENT", "CONTENT", "CLOSE", "LEVEL"] := by decide +kernel

end Layout

end Offside

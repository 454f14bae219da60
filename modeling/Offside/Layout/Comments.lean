/-
  Texts with their comments blanked.

  To blank a text is to put a space for each byte of its comments.  Offsets stay as they are, so the
  tokens of the blanked text can be laid beside those of the text.

  1. **Blanking** — on characters, since a text is made of them: a character gives as many spaces as
     it has bytes.  `Source.blankBytes` is the same on bytes.
  2. **Outlines** — the kinds of some tokens, with the place of each content.  A text in which the
     comments make no difference to the outline is transparent.
  3. **Announced comments** — a line with a comment alone is announced like any other, unless
     content is still to come.  It does not use up its announcement, so the next line with content
     is then not announced: its blocks are those of the comment.  A blanked line is not announced at
     all.
-/
import Offside.Layout.Lines
import Offside.Tokenizer

namespace Offside

/-! ## Blanking

  What is hidden is a question put to an offset, so the same test serves for characters and for
  bytes. -/

/-- Whether the byte at an offset belongs to a token that is a comment. -/
def Token.hides (offset : Nat) (t : Token) : Bool :=
  t.kind == .comment && decide (t.span.start ≤ offset ∧ offset < t.span.stop)

/-- Whether the byte at an offset belongs to a comment among some tokens. -/
def Token.hidden (ts : List Token) (offset : Nat) : Bool := ts.any (hides offset)

namespace Source

/-- Characters, from an offset on, with a space for each byte of those that are hidden. -/
def blankChars (hidden : Nat → Bool) (offset : Nat) : List Char → List Char
  | [] => []
  | c :: cs =>
    (if hidden offset then List.replicate c.utf8Size ' ' else [c]) ++
      blankChars hidden (offset + c.utf8Size) cs

/-- Bytes, from an offset on, with a space for each of those that are hidden. -/
def blankBytes (hidden : Nat → Bool) (offset : Nat) : List UInt8 → List UInt8
  | [] => []
  | b :: bs => (if hidden offset then 32 else b) :: blankBytes hidden (offset + 1) bs

/-- A text with a space for each byte of its comments. -/
def blanked (text : String) : String :=
  String.ofList (blankChars (Token.hidden (tokenize text)) 0 text.toList)

end Source

namespace Layout

/-! ## Outlines

  Structural tokens of a blanked text can stand elsewhere than those of the text, for they stand
  where the text before them ends, and a comment is text.  So an outline keeps their kinds and
  leaves out their places. -/

/-- The tokens that are no comments. -/
def withoutComments (ts : List Token) : List Token := ts.filter (·.kind != .comment)

/-- The kinds of some tokens, with the place of each content. -/
def outline (ts : List Token) : List (Token.Kind × Option Span) :=
  ts.map fun t => (t.kind, if t.kind == .content then some t.span else none)

/-- Whether the comments of a text make no difference to the outline of its other tokens. -/
def Transparent (text : String) : Prop :=
  outline (tokenize (Source.blanked text)) = outline (withoutComments (tokenize text))

instance (text : String) : Decidable (Transparent text) := inferInstanceAs (Decidable (_ = _))

/-! ## Announced comments

  These are the lines on which a text and its blanked form can differ: each is announced in the text
  and is blank in the other. -/

/-- The depth of the first line with content, if there is one. -/
def depthAhead? (ls : List Line) : Option Nat := (ls.find? (hasContent ·.pieces)).map (·.depth)

/-- The lines with a comment alone that are announced: the depth of each, and that of the next line
    with content.  `awaits` tells whether content is still to come in front of the lines. -/
def announcedComments (awaits : Bool) : List Line → List (Nat × Option Nat)
  | [] => []
  | l :: ls =>
    if l.isBlank then announcedComments awaits ls
    else if hasContent l.pieces then announcedComments false ls
    else if awaits then announcedComments true ls
    else (l.depth, depthAhead? ls) :: announcedComments true ls

/-! ## Small cases -/

example : Source.blanked "a//é\n//\tb" = "a    \n    " := by decide +kernel

example : announcedComments false (Line.split 0 (Source.bytes "//c\n\tx")) = [(0, some 1)] := by
  decide +kernel

end Layout

end Offside

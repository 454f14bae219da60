/-
  The dump of a token stream: a line of text for each token.

  A line has the name of the token, padded to eight columns, then its span; content and comments
  are followed by their text in quotes; and on demand by the counters after the token, in brackets.
  Which characters are hidden between the quotes, and written by number, is a parameter of all but
  `render`, which hides what is unprintable.
-/
import Offside.Text.Quoted
import Offside.Text.Unprintable
import Offside.Tokenizer

namespace Offside.Dump

/-- What a dump shows. -/
structure Options where
  /-- Leave out content and comments. -/
  hideContent : Bool := false
  /-- Add the counters to each line. -/
  showState : Bool := false
  deriving DecidableEq, Repr, Inhabited

/-- The width of the column of names. -/
def nameWidth : Nat := 8

/-- A text with spaces after it, up to a width. -/
def padded (width : Nat) (text : List Char) : List Char :=
  text ++ List.replicate (width - text.length) ' '

/-- The counters in brackets, with a slash between them. -/
def stateText (d : Depths) : String :=
  "[" ++ d.current.toNat.repr ++ "/" ++ d.target.toNat.repr ++ "]"

/-- A piece of text in quotes. -/
def quotedText (text : String) : List Char := Text.Quoted.encode Text.isUnprintable text.toList

/-- The line of a token, without its line feed.  `utf8` is the source text. -/
def line (hidden : Char → Bool) (options : Options) (utf8 : ByteArray) (e : Emission) :
    List Char :=
  padded nameWidth e.token.kind.name.toList ++ ' ' :: e.token.span.text.toList ++
    (if e.token.kind.isStructural then []
      else ' ' :: Text.Quoted.encode hidden
        (Source.cut utf8 e.token.span.start e.token.span.stop).toList) ++
    (if options.showState then ' ' :: (stateText e.depths).toList else [])

/-- Whether a dump has a line for a token. -/
def shows (options : Options) (e : Emission) : Bool :=
  !options.hideContent || e.token.kind.isStructural

/-- The lines of the dump of a text. -/
def lines (hidden : Char → Bool) (options : Options) (text : String) : List (List Char) :=
  let utf8 := text.toByteArray
  ((emissions text).filter (shows options)).map (line hidden options utf8)

/-- Lines as one text, each ended by a line feed. -/
def joinLines (ls : List (List Char)) : String := String.ofList (ls.flatMap (· ++ ['\n']))

/-- The dump of a text in which some characters are hidden. -/
def renderHiding (hidden : Char → Bool) (options : Options) (text : String) : String :=
  joinLines (lines hidden options text)

/-- The dump of a text. -/
def render (options : Options) (text : String) : String :=
  renderHiding Text.isUnprintable options text

example : render ⟨false, true⟩ "a" =
    "LEVEL    0..0 [0/0]\nCONTENT  0..1 \"a\" [0/0]\nLEVEL    1..1 [0/0]\n" := by decide +kernel

end Offside.Dump

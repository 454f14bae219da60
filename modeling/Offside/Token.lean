/-
  The tokens of a source text.

  Beside the three structural tokens there are two ordinary ones: content, a run of text without
  white space, and comments, which start with two slashes and last to the end of their line.
-/
import Offside.Layout.Boundary
import Offside.Source.Span

namespace Offside

/-- What a token is: one of the three boundaries, or one of the two kinds of text. -/
inductive Token.Kind
  | boundary (which : Boundary)
  | content
  | comment
  deriving DecidableEq, Repr, Inhabited

/-- A token and where it stands.  A structural token has an empty span: it stands in front of a
    byte. -/
structure Token where
  kind : Token.Kind
  span : Span
  deriving DecidableEq, Repr, Inhabited

namespace Token.Kind

/-- Every kind: the structural ones first, then content, then comments. -/
def all : List Kind := Boundary.all.map .boundary ++ [.content, .comment]

/-- The name of a kind in a listing.  No two kinds share one, so a listing can be read back. -/
def name : Kind → String
  | .boundary .opening => "OPEN"
  | .boundary .closing => "CLOSE"
  | .boundary .level => "LEVEL"
  | .content => "CONTENT"
  | .comment => "COMMENT"

/-- Whether tokens of the kind are structure and not text. -/
def isStructural : Kind → Bool
  | .boundary _ => true
  | .content | .comment => false

theorem mem_all (k : Kind) : k ∈ all := by
  rcases k with (_ | _ | _) | _ | _ <;> decide

theorem name_inj {a b : Kind} : a.name = b.name ↔ a = b := by
  constructor
  · rcases a with (_ | _ | _) | _ | _ <;> rcases b with (_ | _ | _) | _ | _ <;> simp [name]
  · exact congrArg name

end Token.Kind

end Offside

/-
  The grammar of a token stream.

  1. **Heads** — a run of steps, all opening or all closing, and the level token that ends it.  The
     run may be empty, and what comes next is never another head.
  2. **Blocks** — a head, the comments in front of its content, and the content, after which content
     and comments may go on.
  3. **Streams** — blocks, one at least.  Only the last may lack its content.
-/
import Offside.Token

namespace Offside.Token

/-- Steps in one direction, and the level token they lead to. -/
inductive IsHead : List Kind → Prop
  | opening (n : Nat) : IsHead (List.replicate n (.boundary .opening) ++ [.boundary .level])
  | closing (n : Nat) : IsHead (List.replicate n (.boundary .closing) ++ [.boundary .level])

/-- A head and comments: a block whose content is still to come. -/
def IsAnnounced (ks : List Kind) : Prop :=
  ∃ head comments, ks = head ++ comments ∧ IsHead head ∧ ∀ k ∈ comments, k = .comment

/-- A block with its content. -/
def IsBlock (ks : List Kind) : Prop :=
  ∃ front text, ks = front ++ .content :: text ∧ IsAnnounced front ∧
    ∀ k ∈ text, k.isStructural = false

/-- The kinds of a whole stream. -/
inductive IsStream : List Kind → Prop
  | announced {ks : List Kind} : IsAnnounced ks → IsStream ks
  | last {ks : List Kind} : IsBlock ks → IsStream ks
  | block {ks rest : List Kind} : IsBlock ks → IsStream rest → IsStream (ks ++ rest)

/-- Whether a level token waits for its content after one more token. -/
def awaitsAfter (waits : Bool) : Kind → Bool
  | .boundary .level => true
  | .content => false
  | _ => waits

/-- Whether, after tokens of some kinds, a level token still waits for its content. -/
def awaitsContent (ks : List Kind) : Bool := ks.foldl awaitsAfter false

end Offside.Token

/-
  Edits: what of a token stream outlives a change of the text.

  A piece of text ends where it does because of what stands behind it: white space, two slashes, or
  the end of the text.  That is two bytes at most.  So if a text is changed from some offset on, a
  piece that ends two bytes before it is `isSettled`, and with it every token in front of it, also
  the structural ones, for which the scan has read ahead up to that piece.

  1. **Settled tokens** — those up to the last settled piece.
  2. **Moving over** — a place in the stream of one text, taken as a place in the stream of another.
     Only the bytes ahead are exchanged.
-/
import Mathlib.Data.List.DropRight
import Offside.Token.Tiling
import Offside.Tokenizer

namespace Offside

namespace Token

/-! ## Settled tokens

  A structural token settles nothing by itself: what counts is the last piece of text that ends
  early enough, and all that comes before it is kept with it. -/

/-- A piece of text that ends two bytes before an offset. -/
def isSettled (limit : Nat) (t : Token) : Bool :=
  !t.kind.isStructural && decide (t.span.stop + 2 ≤ limit)

/-- The tokens up to the last settled piece; none if there is no such piece. -/
def settled (limit : Nat) (ts : List Token) : List Token := ts.rdropWhile (!isSettled limit ·)

theorem settled_eq_nil {limit : Nat} {ts : List Token}
    (h : ∀ t ∈ ts, isSettled limit t = false) : settled limit ts = [] := by
  rw [settled, List.rdropWhile_eq_nil_iff]
  intro t ht
  rw [h t ht]
  rfl

/-- A token in front stays if a settled piece follows, or if it is one. -/
theorem settled_cons (limit : Nat) (t : Token) (ts : List Token) :
    settled limit (t :: ts) =
      if settled limit ts = [] ∧ isSettled limit t = false then [] else t :: settled limit ts := by
  simp only [settled, List.rdropWhile, List.reverse_cons, List.dropWhile_append,
    List.reverse_eq_nil_iff, List.isEmpty_iff]
  by_cases h : ts.reverse.dropWhile (!isSettled limit ·) = []
  · rw [if_pos h, h]
    cases ht : isSettled limit t <;> simp [ht]
  · rw [if_neg h, if_neg fun both => h both.1, List.reverse_append, List.reverse_singleton]
    rfl

example : settled 5 [⟨.boundary .level, ⟨0, 0⟩⟩, ⟨.content, ⟨0, 3⟩⟩, ⟨.content, ⟨4, 5⟩⟩] =
    [⟨.boundary .level, ⟨0, 0⟩⟩, ⟨.content, ⟨0, 3⟩⟩] := by decide

end Token

/-! ## Moving over

  The counters, the flags and the place in the text are kept as they are. -/

/-- The same place in the stream of another text. -/
def Tokenizer.moved (text : String) (t : Tokenizer) : Tokenizer :=
  { t with reader := { t.reader with rest := Token.ahead text t.reader.offset } }

end Offside

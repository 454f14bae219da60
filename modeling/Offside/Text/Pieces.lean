/-
  Cutting a text at a separator.

  The pieces are what stands between the separators, empty pieces included, so there is always one
  piece more than there are separators.
-/

namespace Offside.Text

/-- The pieces of a list of characters. -/
def piecesOf (separator : Char) : List Char → List (List Char)
  | [] => [[]]
  | c :: cs =>
    match piecesOf separator cs with
    | [] => [[c]]
    | piece :: pieces => if c = separator then [] :: piece :: pieces else (c :: piece) :: pieces

/-- The pieces of a text. -/
def pieces (separator : Char) (text : String) : List String :=
  (piecesOf separator text.toList).map String.ofList

theorem length_piecesOf (separator : Char) (cs : List Char) :
    (piecesOf separator cs).length = cs.count separator + 1 := by
  induction cs with
  | nil => rfl
  | cons c cs ih =>
    unfold piecesOf
    split
    · next h => rw [h] at ih; simp at ih
    · next h =>
      rw [h] at ih
      by_cases hc : c = separator
      · simp only [hc, if_true, List.length_cons, List.count_cons_self] at ih ⊢; omega
      · simp only [hc, if_false, List.length_cons, List.count_cons_of_ne hc] at ih ⊢; omega

/-- There is always a piece, so the case of none in `piecesOf` is never met. -/
theorem piecesOf_ne_nil (separator : Char) (cs : List Char) : piecesOf separator cs ≠ [] := by
  have some_piece := length_piecesOf separator cs
  rw [← List.length_pos_iff]
  omega

/-- A separator cuts a text in two, and the pieces of the two halves are the pieces of the whole.
    The induction is on the first half: each of its characters either opens a piece of its own or is
    put in front of the first piece so far, and neither touches the second half. -/
theorem piecesOf_append (separator : Char) (front back : List Char) :
    piecesOf separator (front ++ separator :: back) =
      piecesOf separator front ++ piecesOf separator back := by
  induction front with
  | nil =>
    show piecesOf separator (separator :: back) = [] :: piecesOf separator back
    rw [piecesOf]
    split
    · next hn => exact absurd hn (piecesOf_ne_nil separator back)
    · next hs => rw [if_pos rfl, hs]
  | cons c front ih =>
    cases hf : piecesOf separator front with
    | nil => exact absurd hf (piecesOf_ne_nil separator front)
    | cons piece pieces =>
      simp only [List.cons_append, piecesOf, ih, hf]
      split <;> rfl

/-- A text without a separator is a single piece. -/
theorem piecesOf_of_notMem {separator : Char} {piece : List Char} (h : separator ∉ piece) :
    piecesOf separator piece = [piece] := by
  induction piece with
  | nil => rfl
  | cons c piece ih =>
    rw [List.mem_cons, not_or] at h
    rw [piecesOf, ih h.2]
    exact if_neg (Ne.symm h.1)

/-- What stands in front of a separator is a piece if there is no other in it. -/
theorem piecesOf_append_cons {separator : Char} {piece : List Char} (h : separator ∉ piece)
    (cs : List Char) : piecesOf separator (piece ++ separator :: cs) = piece :: piecesOf separator cs := by
  rw [piecesOf_append, piecesOf_of_notMem h, List.singleton_append]

/-- Pieces that are each ended by a separator, and the empty piece behind the last. -/
theorem piecesOf_flatMap_append {separator : Char} {ls : List (List Char)}
    (h : ∀ l ∈ ls, separator ∉ l) :
    piecesOf separator (ls.flatMap (· ++ [separator])) = ls ++ [[]] := by
  induction ls with
  | nil => rfl
  | cons l ls ih =>
    rw [List.flatMap_cons, List.append_assoc, List.singleton_append,
      piecesOf_append_cons (h l List.mem_cons_self),
      ih fun l' hl' => h l' (List.mem_cons_of_mem l hl')]
    rfl

example : pieces ',' "" = [""] ∧ pieces ',' "a,,b" = ["a", "", "b"] := by decide

end Offside.Text

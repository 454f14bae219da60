/-
  Two ways to the end of a line.

  The end of the line can be reached byte by byte, with a look at each, or by one jump to where a
  search has found the next line feed.  The bytes passed are the same.  The jump tells nobody that
  they were passed, and nothing is lost by that: none of them is a line feed, so the line is still
  the same one.

  1. **Readers** — the jump is the loop, from any place (`toLineEnd_eq_skipWhile`), and it goes to
     the first line feed from there on, or to the end of the text (`At.isLeast_toLineEnd`).
  2. **Pointers** — a pointer that jumps by a search goes where the reader goes, as long as the
     search finds first places.
-/
import Mathlib.Order.Bounds.Defs
import Offside.Proofs.Trails
import Offside.Source.Search

namespace Offside

variable {text : String} {r : Reader}

/-! ## Readers

  A reader that jumps keeps the start of its line, and one that goes byte by byte sets it behind
  each line feed it passes.  Up to the line feed there is none to pass. -/

namespace Reader

theorem toLineEnd_eq_skipWhile (r : Reader) : r.toLineEnd = r.skipWhile (· != lineFeed) :=
  toLineEnd_eq_steps r

/-- The number of bytes in front of the first line feed is the least index at which a line feed
    stands or the bytes end. -/
theorem isLeast_length_takeWhile (bs : List UInt8) :
    IsLeast {i | i = bs.length ∨ bs[i]? = some lineFeed}
      (bs.takeWhile (· != lineFeed)).length := by
  rw [← Pointer.getD_idxOf?_lineFeed]
  cases hd : bs.idxOf? lineFeed with
  | none =>
    have absent : lineFeed ∉ bs := findsFirst_idxOf?.missed hd
    refine ⟨Or.inl rfl, ?_⟩
    rintro i (rfl | here)
    · exact Nat.le_refl _
    · exact absurd (List.mem_of_getElem? here) absent
  | some distance =>
    obtain ⟨here, before⟩ := findsFirst_idxOf?.found hd
    refine ⟨Or.inr here, ?_⟩
    rintro i (rfl | later)
    · exact Nat.le_of_lt (List.getElem?_eq_some_iff.mp here).1
    · exact Nat.le_of_not_lt fun less => before i less later

/-- The jump goes to the least offset, from the reader on, at which a line feed stands or the text
    ends. -/
theorem At.isLeast_toLineEnd (h : r.At text) :
    IsLeast {i | r.offset ≤ i ∧
        (i = (Source.bytes text).length ∨ (Source.bytes text)[i]? = some lineFeed)}
      r.toLineEnd.offset := by
  have size := h.length_rest
  have ahead (i : Nat) : r.rest[i]? = (Source.bytes text)[r.offset + i]? := by
    rw [h.rest_eq, Token.ahead, List.getElem?_drop]
  obtain ⟨reached, least⟩ := isLeast_length_takeWhile r.rest
  show IsLeast _ (r.offset + (r.rest.takeWhile (· != lineFeed)).length)
  refine ⟨⟨Nat.le_add_right .., ?_⟩, ?_⟩
  · rcases reached with ended | fed
    · exact Or.inl (by omega)
    · exact Or.inr ((ahead _).symm.trans fed)
  · rintro i ⟨behind, stops⟩
    have from_reader : r.offset + (i - r.offset) = i := by omega
    have further := least (a := i - r.offset) <| by
      rcases stops with ended | fed
      · exact Or.inl (by omega)
      · exact Or.inr (by rw [ahead, from_reader, fed])
    omega

end Reader

/-! ## Pointers

  For pointers the jump is a search in a range of the image.  The search is a parameter, and is
  relied on for finding the first place. -/

namespace Pointer

variable {find? : UInt8 → List UInt8 → Option Nat}

/-- The jump by a search leads the pointer of a reader to the end of the line, where the jump leads
    the reader. -/
theorem toLineEndBy?_pointer (hf : FindsFirst find?) (h : r.At text) :
    r.pointer.toLineEndBy? find? text = some r.toLineEnd.pointer := by
  rw [toLineEndBy?_eq hf, toLineEnd?_pointer h]

/-- With a search in place of the jump, each way to go on still leads a pointer where it leads the
    reader. -/
theorem goBy_pointer (hf : FindsFirst find?) (h : r.At text) (way : Way) :
    goBy find? text way (some r.pointer) = some (Reader.go way r).pointer := by
  rw [goBy_eq hf, go_pointer h]

end Pointer

/-- **Two ways to the end of a line.**  Wherever a pointer has come to by moves from the start of a
    text, with jumps by a search that finds first places, it can go on to the end of the line in
    either way, and both lead to one and the same pointer: that at the first line feed from there
    on, or at the end of the text.  The line has not changed, and the column is still the distance
    from the last line feed.  Readers, whose moves these are, go there in either way as well. -/
theorem lineEnd_either_way {find? : UInt8 → List UInt8 → Option Nat} (h : FindsFirst find?)
    (text : String) (moves : List Move) :
    let pointers := (Trail.start (some Pointer.zero)).walk (Pointer.goBy find? text) moves
    let readers := (Trail.start (Reader.start text)).walk Reader.go moves
    pointers = readers.map (fun r => some r.pointer) ∧
    (∀ p? ∈ pointers.places, ∃ p q, p? = some p ∧
      p.toLineEndBy? find? text = some q ∧
      p.skipWhile? text (· != Reader.lineFeed) = some q ∧
      IsLeast {i | p.offset ≤ i ∧ (i = (Source.bytes text).length ∨
        (Source.bytes text)[i]? = some Reader.lineFeed)} q.offset ∧
      q.lineStart = p.lineStart ∧ q.column? = some (Source.column text q.offset)) ∧
    ∀ r ∈ readers.places, r.toLineEnd = r.skipWhile (· != Reader.lineFeed) := by
  intro pointers readers
  have start : ∀ r ∈ (Trail.start (Reader.start text)).places, r.At text :=
    List.forall_mem_singleton.mpr (Reader.at_start text)
  have stays (way : Way) (r : Reader) (hr : r.At text) : (Reader.go way r).At text := hr.go way
  have same : pointers = readers.map (fun r => some r.pointer) :=
    Trail.walk_map (fun way r hr => Pointer.goBy_pointer h hr way) stays start moves
  refine ⟨same, ?_, fun r _ => r.toLineEnd_eq_skipWhile⟩
  intro p? hp
  rw [same] at hp
  obtain ⟨r, hr, rfl⟩ : ∃ r ∈ readers.places, some r.pointer = p? := List.mem_map.mp hp
  -- what holds of the reader at a place holds of the pointer, its image
  have place : r.At text := Trail.places_walk stays start moves r hr
  have there : r.toLineEnd.At text := place.go .line
  refine ⟨r.pointer, r.toLineEnd.pointer, rfl, Pointer.toLineEndBy?_pointer h place, ?_,
    place.isLeast_toLineEnd, rfl, ?_⟩
  · rw [Reader.toLineEnd_eq_skipWhile]
    exact Pointer.skipWhile?_pointer place _
  · rw [Pointer.column?_pointer there, there.column_eq]
    rfl

/-- From within a letter of two bytes on the second line, both ways lead to the line feed of that
    line. -/
theorem lineEnd_either_way_letter :
    FindsFirst (fun b bs => bs.idxOf? b) ∧
    (⟨4, 3⟩ : Pointer).toLineEndBy? (fun b bs => bs.idxOf? b) "ab\néc\n" = some ⟨6, 3⟩ ∧
    (⟨4, 3⟩ : Pointer).skipWhile? "ab\néc\n" (· != Reader.lineFeed) = some ⟨6, 3⟩ ∧
    (⟨6, 3⟩ : Pointer).column? = some (Source.column "ab\néc\n" 6) := by
  obtain ⟨_, either, _⟩ := lineEnd_either_way findsFirst_idxOf? "ab\néc\n" [.go .line, .go .byte, .go .byte]
  obtain ⟨p, q, hp, jump, loop, _, _, column⟩ := either (some ⟨4, 3⟩) (by decide)
  cases hp
  have place : (⟨4, 3⟩ : Pointer).toLineEndBy? (fun b bs => bs.idxOf? b) "ab\néc\n" = some ⟨6, 3⟩ := by
    decide
  cases jump.symm.trans place
  exact ⟨findsFirst_idxOf?, place, loop, column⟩

end Offside

/-
  A place that is moved about stays in its text.

  Each way to go on passes some bytes, one by one as far as the outcome is concerned: the jump to
  the end of a line as well, since it passes no line feed (`go_eq_steps`).  So a reader that is
  moved about, kept and brought back stands in its text at all times, and what it shows there is
  told by its offset.  A pointer that is moved in the same way is at the same place, and what it
  shows is what the reader shows; in particular there always is an answer, so no index is ever out
  of range.
-/
import Offside.Proofs.Characters
import Offside.Source.Trail

namespace Offside

variable {text : String} {r : Reader}

/-- Each way to go on passes a number of bytes and does nothing else. -/
theorem Reader.go_eq_steps (way : Way) (r : Reader) : ∃ n, go way r = r.steps n := by
  cases way with
  | byte => exact ⟨1, rfl⟩
  | char => exact ⟨leadWidth r.current, rfl⟩
  | run accept => exact ⟨(r.rest.takeWhile accept).length, rfl⟩
  | blanks => exact ⟨_, rfl⟩
  | line => exact ⟨_, toLineEnd_eq_steps r⟩

theorem Reader.At.go (h : r.At text) (way : Way) : (Reader.go way r).At text := by
  obtain ⟨n, passed⟩ := Reader.go_eq_steps way r
  rw [passed]
  exact h.steps n

theorem Reader.offset_le_go (way : Way) (r : Reader) : r.offset ≤ (go way r).offset := by
  obtain ⟨n, passed⟩ := go_eq_steps way r
  rw [passed, offset_steps]
  exact Nat.le_add_right ..

/-- A pointer goes on, in whichever way, to the place that the reader goes on to, and is never
    without an answer. -/
theorem Pointer.go_pointer (h : r.At text) (way : Way) :
    go text way (some r.pointer) = some (Reader.go way r).pointer := by
  cases way with
  | byte => exact step?_pointer h
  | char => exact stepChar?_pointer h
  | run accept => exact skipWhile?_pointer h accept
  | blanks => exact skipWhile?_pointer h _
  | line => exact toLineEnd?_pointer h

/-- A pointer shows what the reader at the same place shows, in all parts of the view. -/
theorem Pointer.view?_pointer (h : r.At text) : r.pointer.view? text = some r.view := by
  rw [view?, atEnd_pointer h, current?_pointer h, peek_pointer h, column?_pointer h,
    char?_pointer h]
  rfl

/-- **A place that is moved about.**  Whatever moves are made from the start of a text, pointers
    make them too: none looks for a byte or a range that the image does not have, and each is where
    the reader is.  Every place reached or kept is in the text, its line starts at or before it, and
    what can be seen from it is told by its offset: the column is the distance from the last line
    feed, the end of the text is there exactly if the offset is the size of the text, and the byte
    at the place and the one after it are those of the text, or zero where it has none.  Going on
    never leads back. -/
theorem walk_views (text : String) (moves : List Move) :
    let readers := (Trail.start (Reader.start text)).walk Reader.go moves
    let pointers := (Trail.start (some Pointer.zero)).walk (Pointer.go text) moves
    pointers = readers.map (fun r => some r.pointer) ∧
    (∀ r ∈ readers.places,
      r.pointer.view? text = some r.view ∧
      r.offset ≤ (Source.bytes text).length ∧
      r.lineStart ≤ r.offset ∧ r.column = Source.column text r.offset ∧
      (r.atEnd = true ↔ r.offset = (Source.bytes text).length) ∧
      r.current = (Source.bytes text).getD r.offset 0 ∧
      r.peek = (Source.bytes text).getD (r.offset + 1) 0) ∧
    ∀ way, readers.here.offset ≤ (Reader.go way readers.here).offset := by
  intro readers pointers
  have start : ∀ r ∈ (Trail.start (Reader.start text)).places, r.At text :=
    List.forall_mem_singleton.mpr (Reader.at_start text)
  have stays (way : Way) (r : Reader) (h : r.At text) : (Reader.go way r).At text := h.go way
  refine ⟨?_, ?_, ?_⟩
  · have agree (way : Way) (r : Reader) (h : r.At text) :
        Pointer.go text way (some r.pointer) = some (Reader.go way r).pointer :=
      Pointer.go_pointer h way
    exact Trail.walk_map agree stays start moves
  · intro r hr
    have place : r.At text := Trail.places_walk stays start moves r hr
    exact ⟨Pointer.view?_pointer place, place.le, place.lineStart_le, place.column_eq,
      place.atEnd_iff, place.current_eq, place.peek_eq⟩
  · intro way
    exact Reader.offset_le_go way _

/-- Behind a letter of two bytes, back from the next line. -/
theorem walk_views_back :
    let readers := (Trail.start (Reader.start "é\n\tb")).walk Reader.go
      [.go .line, .keep, .go .byte, .go .blanks, .goTo 0]
    readers.here ∈ readers.places ∧ readers.here.view = ⟨false, 10, 9, 2, some '\n'⟩ ∧
      readers.here.pointer.view? "é\n\tb" = some readers.here.view ∧
      readers.here.column = Source.column "é\n\tb" readers.here.offset := by
  intro readers
  obtain ⟨_, shown, _⟩ := walk_views "é\n\tb" [.go .line, .keep, .go .byte, .go .blanks, .goTo 0]
  have member : readers.here ∈ readers.places := List.mem_cons_self
  obtain ⟨same, _, _, column, _⟩ := shown readers.here member
  exact ⟨member, by decide, same, column⟩

end Offside

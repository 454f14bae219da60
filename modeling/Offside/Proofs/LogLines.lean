/-
  What a line of the log tells.

  1. **Words** — no word of an event holds a space, so the words of a message are the last pieces of
     the line that ends with it, whatever stands in front: the line is cut at the space behind its
     colon, and the pieces of the front come last when it is read from its end.
  2. **Decisions** — from these words the decision is got back, with its counters
     (`readDecision_line`).  An event that is no decision is not taken for one.
  3. **One line** — the texts of records, as this library writes them, keep what is relied on
     (`Filter.plain_writer`): the path is quoted, so a line feed in it is written as an escape, and
     nothing else in a record can hold one.
-/
import Offside.Command.Log.Reading
import Offside.Proofs.Dumps

namespace Offside.Command.Log

/-! ## Words

  The words of each event are written down here, one lemma for each form.  They are the cuts at
  spaces, and no space stands in a name or a number. -/

/-- A number is read off the word that gives it to a field: the digits end with the word, and a
    counter fits itself. -/
theorem readField_word (name : String) (value : UInt16) :
    readField name (name.toList ++ ['='] ++ value.toNat.repr.toList) = some value := by
  have digits : Dump.readNumber (value.toNat.repr.toList ++ []) = some (value.toNat, []) :=
    Dump.readNumber_repr value.toNat (by simp)
  rw [List.append_nil] at digits
  simp only [readField, Dump.readText_append, digits, Option.bind_eq_bind, Option.bind_some]
  rw [if_pos ⟨trivial, value.toNat_lt_size⟩, UInt16.ofNat_toNat]

/-- Both counters are read off their words. -/
theorem readCounters_words (d : Depths) :
    readCounters ("current".toList ++ ['='] ++ d.current.toNat.repr.toList)
      ("target".toList ++ ['='] ++ d.target.toNat.repr.toList) = some d := by
  simp only [readCounters, readField_word, Option.bind_eq_bind, Option.bind_some, Option.pure_def]

/-- A word that gives a number to a field is one word if the name of the field is. -/
theorem space_notMem_word {name : String} (h : ' ' ∉ name.toList) (value : Nat) :
    ' ' ∉ name.toList ++ ['='] ++ value.repr.toList := by
  rw [List.mem_append, List.mem_append, not_or, not_or, Nat.toList_repr]
  exact ⟨⟨h, by decide⟩, Dump.notMem_toDigits rfl value⟩

/-- The words of a step are its name and the two words of its counters. -/
theorem piecesOf_step (name : String) (h : ' ' ∉ name.toList) (d : Depths) :
    Text.piecesOf ' ' (name ++ " current=" ++ d.current.toNat.repr ++ " target=" ++
        d.target.toNat.repr).toList =
      [name.toList, "current".toList ++ ['='] ++ d.current.toNat.repr.toList,
        "target".toList ++ ['='] ++ d.target.toNat.repr.toList] := by
  have words : (name ++ " current=" ++ d.current.toNat.repr ++ " target=" ++
      d.target.toNat.repr).toList =
      name.toList ++ ' ' :: ("current".toList ++ ['='] ++ d.current.toNat.repr.toList ++
        ' ' :: ("target".toList ++ ['='] ++ d.target.toNat.repr.toList)) := by
    simp
  rw [words, Text.piecesOf_append_cons h,
    Text.piecesOf_append_cons (space_notMem_word (by decide) _),
    Text.piecesOf_of_notMem (space_notMem_word (by decide) _)]

/-- The words of a level are its name and the word of its depth. -/
theorem piecesOf_level (depth : Nat) :
    Text.piecesOf ' ' ("level depth=" ++ depth.repr).toList =
      ["level".toList, "depth".toList ++ ['='] ++ depth.repr.toList] := by
  have words : ("level depth=" ++ depth.repr).toList =
      "level".toList ++ ' ' :: ("depth".toList ++ ['='] ++ depth.repr.toList) := by
    simp
  have name : ' ' ∉ "level".toList := by decide
  rw [words, Text.piecesOf_append_cons name,
    Text.piecesOf_of_notMem (space_notMem_word (by decide) _)]

/-- The words that tell that a file was read are three, and the last is the word of its size. -/
theorem piecesOf_sourceRead (size : Nat) :
    Text.piecesOf ' ' ("read source bytes=" ++ size.repr).toList =
      ["read".toList, "source".toList, "bytes".toList ++ ['='] ++ size.repr.toList] := by
  have words : ("read source bytes=" ++ size.repr).toList =
      "read".toList ++ ' ' :: ("source".toList ++ ' ' ::
        ("bytes".toList ++ ['='] ++ size.repr.toList)) := by
    simp
  have first : ' ' ∉ "read".toList := by decide
  have second : ' ' ∉ "source".toList := by decide
  rw [words, Text.piecesOf_append_cons first, Text.piecesOf_append_cons second,
    Text.piecesOf_of_notMem (space_notMem_word (by decide) _)]

/-! ## Decisions

  Nothing is asked of what stands in front of the words of an event but that a space ends it, which
  is the space behind the colon. -/

/-- The last words of a line are those of its event, and they tell the decision of the event,
    whatever words stand in front. -/
theorem decisionOfWords_message (e : Event) (front : List (List Char)) :
    decisionOfWords ((Text.piecesOf ' ' e.message.toList).reverse ++ front) = e.decision? := by
  -- read from the back, the words of the event come first, and nothing is asked of the others
  match e with
  | .sourceRead size =>
    have words : Text.piecesOf ' ' (Event.sourceRead size).message.toList = _ :=
      piecesOf_sourceRead size
    rw [words]
    rfl
  | .decided (.opening after) =>
    have words : Text.piecesOf ' ' (Event.decided (.opening after)).message.toList = _ :=
      piecesOf_step "open" (by decide) after
    rw [words]
    show (readCounters _ _).map Decision.opening = _
    rw [readCounters_words]
    rfl
  | .decided (.closing after) =>
    have words : Text.piecesOf ' ' (Event.decided (.closing after)).message.toList = _ :=
      piecesOf_step "close" (by decide) after
    rw [words]
    show (readCounters _ _).map Decision.closing = _
    rw [readCounters_words]
    rfl
  | .decided (.level depth) =>
    have words : Text.piecesOf ' ' (Event.decided (.level depth)).message.toList = _ :=
      piecesOf_level depth.toNat
    rw [words]
    show (readField "depth" _).map Decision.level = _
    rw [readField_word]
    rfl

/-- A line that ends with the words of an event, behind a colon and a space, tells its decision. -/
theorem readDecision_append (front : String) (e : Event) :
    readDecision (front ++ ": " ++ e.message) = e.decision? := by
  have cut : (front ++ ": " ++ e.message).toList =
      (front.toList ++ [':']) ++ ' ' :: e.message.toList := by
    simp
  rw [readDecision, cut, Text.piecesOf_append, List.reverse_append, decisionOfWords_message]

/-- **A line of the log reads back**: whoever wrote it, it tells the decision of its event, and none
    if the event is no decision. -/
theorem readDecision_line {w : Writer} (h : w.Plain) (r : Record) :
    readDecision (w.line r) = r.event.decision? := by
  obtain ⟨front, line⟩ := h.tells r
  rw [line, readDecision_append]

/-! ## One line

  What is written in front of an event is made of names and of a path, and the path is the only part
  that could hold a line feed. -/

theorem lineFeed_notMem_append {a b : String} (ha : '\n' ∉ a.toList) (hb : '\n' ∉ b.toList) :
    '\n' ∉ (a ++ b).toList := by
  rw [String.toList_append, List.mem_append, not_or]
  exact ⟨ha, hb⟩

/-- The words of an event are fixed but for numbers, and a number is written in digits. -/
theorem Event.lineFeed_notMem_message (e : Event) : '\n' ∉ e.message.toList := by
  have number (n : Nat) : '\n' ∉ n.repr.toList := by
    rw [Nat.toList_repr]
    exact Dump.notMem_toDigits rfl n
  have counters (front : String) (h : '\n' ∉ front.toList) (d : Depths) :
      '\n' ∉ (front ++ d.current.toNat.repr ++ " target=" ++ d.target.toNat.repr).toList :=
    lineFeed_notMem_append (lineFeed_notMem_append (lineFeed_notMem_append h (number _)) (by decide))
      (number _)
  match e with
  | .sourceRead size => exact lineFeed_notMem_append (by decide) (number size)
  | .decided (.opening after) => exact counters "open current=" (by decide) after
  | .decided (.closing after) => exact counters "close current=" (by decide) after
  | .decided (.level depth) => exact lineFeed_notMem_append (by decide) (number _)

/-- The text of a record is one line, whatever the path of its listing. -/
theorem Record.lineFeed_notMem_text (r : Record) : '\n' ∉ r.text.toList := by
  obtain ⟨listing?, event⟩ := r
  have name (level : Level) : '\n' ∉ level.name.toList := by
    cases level <;> decide
  have target : '\n' ∉ event.target.toList := by
    cases event with
    | sourceRead => exact (by decide : '\n' ∉ listingTarget.toList)
    | decided => exact (by decide : '\n' ∉ scanTarget.toList)
  have behind (span : String) (h : '\n' ∉ span.toList) : '\n' ∉ (event.level.name ++ " " ++ span ++
      event.target ++ ": " ++ event.message).toList := by
    apply lineFeed_notMem_append _ event.lineFeed_notMem_message
    apply lineFeed_notMem_append _ (by decide)
    apply lineFeed_notMem_append _ target
    apply lineFeed_notMem_append _ h
    exact lineFeed_notMem_append (name event.level) (by decide)
  cases listing? with
  | none => exact behind "" List.not_mem_nil
  | some path =>
    apply behind
    apply lineFeed_notMem_append _ (by decide)
    apply lineFeed_notMem_append (by decide)
    -- the path is quoted, and a line feed in it is written as an escape
    rw [String.toList_ofList]
    exact Text.Quoted.lineFeed_notMem_encode Text.isUnprintable path.toList

/-- Whatever a filter lets through, the lines of its writer keep what a reader of the log relies
    on. -/
theorem Filter.plain_writer (filter : Filter) : filter.writer.Plain where
  oneLine := Record.lineFeed_notMem_text
  tells _ := ⟨_, rfl⟩

end Offside.Command.Log

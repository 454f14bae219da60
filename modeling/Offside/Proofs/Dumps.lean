/-
  A dump reads back.

  A line of a dump is a row of fields without a fixed width, and one of them is a piece of the
  source text.  So it is not plain that a line can be taken apart in one way only, nor that the text
  in it could not look like another line.  Both are shown by reading: a function that knows nothing
  of the token gets back everything that the line was written from.

  1. **Fields** — each field of a line is read off whatever follows it: names have one width, so
     none starts another; a number ends in front of a character that is no digit; and quoted text
     ends at its own closing quote, so nothing within it is taken for a span or for counters.
  2. **Lines** — a line says exactly what it was written for (`readLine_line`), and has no line
     feed.
  3. **Text** — content and comments lie between the characters of the source text, so that what a
     line quotes are the bytes of its span, and never the empty text that stands for a bad slice.
  4. **Counters** — the counters that come with a token are those of the stream behind it.
-/
import Mathlib.Data.List.Forall2
import Offside.Dump.Reading
import Offside.Proofs.Quoting
import Offside.Proofs.Sessions
import Offside.Proofs.Tiling

namespace Offside

/-! ## Fields

  For each reader of a field there is a lemma that it undoes the writer, in front of whatever stands
  next; a number has a condition on what that is. -/

namespace Dump

/-- A text in front of others is taken off the front. -/
theorem readText_append (expected rest : List Char) :
    readText expected (expected ++ rest) = some rest := by
  rw [readText, if_pos (List.isPrefixOf_iff_prefix.mpr (List.prefix_append ..)), List.drop_left]

/-- The name of a kind is read off a line and taken for no other, for all names are padded to one
    width. -/
theorem readKind_padded (k : Token.Kind) (rest : List Char) :
    readKind (padded nameWidth k.name.toList ++ ' ' :: rest) = some (k, rest) := by
  rcases k with (_ | _ | _) | _ | _ <;> rfl

/-- A character that is no digit does not occur in a number. -/
theorem notMem_toDigits {c : Char} (h : c.isDigit = false) (n : Nat) : c ∉ Nat.toDigits 10 n := by
  intro hc
  rw [Nat.isDigit_of_mem_toDigits (by decide) (by decide) hc] at h
  cases h

/-- A number is read off a line if what follows it is no digit. -/
theorem readNumber_repr (n : Nat) {rest : List Char}
    (h : ∀ c ∈ rest.head?, c.isDigit = false) :
    readNumber (n.repr.toList ++ rest) = some (n, rest) := by
  have digits : ∀ c ∈ Nat.toDigits 10 n, c.isDigit = true :=
    fun _ => Nat.isDigit_of_mem_toDigits (by decide) (by decide)
  have stop : rest.takeWhile Char.isDigit = [] ∧ rest.dropWhile Char.isDigit = rest := by
    cases rest with
    | nil => exact ⟨rfl, rfl⟩
    | cons c rest =>
      have hc : ¬c.isDigit = true := by rw [h c rfl]; exact Bool.false_ne_true
      exact ⟨List.takeWhile_cons_of_neg hc, List.dropWhile_cons_of_neg hc⟩
  rw [readNumber, Nat.toList_repr, List.takeWhile_append_of_pos digits,
    List.dropWhile_append_of_pos digits, stop.1, stop.2, List.append_nil]
  match hd : Nat.toDigits 10 n with
  | [] => exact absurd hd Nat.toDigits_ne_nil
  | d :: ds =>
    show some (Nat.ofDigitChars 10 (d :: ds) 0, rest) = some (n, rest)
    rw [← hd, Nat.ofDigitChars_ten_toDigits]

/-- The counters at the end of a line, if they are shown. -/
def stateSuffix (options : Options) (d : Depths) : List Char :=
  if options.showState then ' ' :: (stateText d).toList else []

/-- The counters at the end of a line are read back, if they are shown, and nothing is left of the
    line. -/
theorem readState_stateSuffix (options : Options) (d : Depths) :
    readState options.showState (stateSuffix options d) =
      some (if options.showState then some (d.current.toNat, d.target.toNat) else none, []) := by
  unfold readState stateSuffix
  cases options.showState with
  | false => rfl
  | true =>
    have fields : ' ' :: (stateText d).toList =
        [' ', '['] ++ (d.current.toNat.repr.toList ++ (['/'] ++
          (d.target.toNat.repr.toList ++ ([']'] ++ [])))) := by
      simp [stateText]
    have slash : ∀ c ∈ (['/'] ++ (d.target.toNat.repr.toList ++ ([']'] ++ []))).head?,
        c.isDigit = false := by
      rintro c ⟨rfl⟩
      decide
    have bracket : ∀ c ∈ ([']'] ++ ([] : List Char)).head?, c.isDigit = false := by
      rintro c ⟨rfl⟩
      decide
    simp only [if_true, fields, readText_append, readNumber_repr _ slash,
      readNumber_repr _ bracket, Option.bind_eq_bind, Option.bind_some, Option.pure_def]

/-- What the line of a token is to say: the token, its slice of the text if it is not structural,
    and the counters if they are shown. -/
def entryOf (options : Options) (text : String) (e : Emission) : Entry where
  token := e.token
  text? :=
    if e.token.kind.isStructural then none
    else some (Source.slice text e.token.span.start e.token.span.stop).toList
  state? := if options.showState then some (e.depths.current.toNat, e.depths.target.toNat) else none

/-- The text of a token as it is quoted behind the span, if it has one. -/
def quotedSuffix (hidden : Char → Bool) (text : String) (t : Token) : List Char :=
  if t.kind.isStructural then []
  else ' ' :: Text.Quoted.encode hidden (Source.slice text t.span.start t.span.stop).toList

/-- The quoted text is read back, whichever characters are hidden in it, and what stands behind it
    is left. -/
theorem readTokenText_quotedSuffix (hidden : Char → Bool) (text : String) (t : Token)
    (rest : List Char) :
    readTokenText t.kind (quotedSuffix hidden text t ++ rest) =
      some (if t.kind.isStructural then none
        else some (Source.slice text t.span.start t.span.stop).toList, rest) := by
  unfold readTokenText quotedSuffix
  cases t.kind.isStructural with
  | true => rfl
  | false =>
    have space (more : List Char) : readText [' '] (' ' :: more) = some more :=
      readText_append [' '] more
    simp only [Bool.false_eq_true, if_false, List.cons_append, space, Text.Quoted.decode_encode,
      Option.bind_eq_bind, Option.bind_some, Option.pure_def]

/-! ## Lines

  A line is written as one expression and read field by field.  It is first put into the order in
  which it is read (`line_eq`). -/

/-- A line is its fields one behind the other: the name, the two ends of the span, the quoted text,
    the counters. -/
theorem line_eq (hidden : Char → Bool) (options : Options) (text : String) (e : Emission) :
    line hidden options text.toByteArray e =
      padded nameWidth e.token.kind.name.toList ++ ' ' ::
        (e.token.span.start.repr.toList ++ (['.', '.'] ++ (e.token.span.stop.repr.toList ++
          (quotedSuffix hidden text e.token ++ stateSuffix options e.depths)))) := by
  simp [line, quotedSuffix, stateSuffix, Span.text, Source.slice]

/-- What follows the span on a line is a space or nothing, and so is no digit of its second
    number. -/
theorem head_suffix (hidden : Char → Bool) (options : Options) (text : String) (e : Emission) :
    ∀ c ∈ (quotedSuffix hidden text e.token ++ stateSuffix options e.depths).head?,
      c.isDigit = false := by
  intro c hc
  unfold quotedSuffix stateSuffix at hc
  split at hc
  · split at hc
    · cases hc; decide
    · cases hc
  · cases hc; decide

/-- **A line reads back**: whatever is hidden in it, it says the token, its text, and the counters
    if they are shown. -/
theorem readLine_line (hidden : Char → Bool) (options : Options) (text : String) (e : Emission) :
    readLine options.showState (line hidden options text.toByteArray e) =
      some (entryOf options text e) := by
  -- a field ends where what follows it cannot be part of it
  have dot : ∀ c ∈ (['.', '.'] ++ (e.token.span.stop.repr.toList ++
      (quotedSuffix hidden text e.token ++ stateSuffix options e.depths))).head?,
      c.isDigit = false := by
    rintro c ⟨rfl⟩
    decide
  rw [line_eq, readLine]
  simp only [readKind_padded, readNumber_repr _ dot, readText_append,
    readNumber_repr _ (head_suffix hidden options text e), readTokenText_quotedSuffix,
    readState_stateSuffix, Option.bind_eq_bind, Option.bind_some]
  rfl

/-- A line has no line feed: one in the text of a token is written as an escape. -/
theorem lineFeed_notMem_line (hidden : Char → Bool) (options : Options) (text : String)
    (e : Emission) : '\n' ∉ line hidden options text.toByteArray e := by
  have name : '\n' ∉ padded nameWidth e.token.kind.name.toList := by
    rcases e.token.kind with (_ | _ | _) | _ | _ <;> decide
  have number := notMem_toDigits (c := '\n') rfl
  have quoted : '\n' ∉ quotedSuffix hidden text e.token := by
    unfold quotedSuffix
    split
    · exact List.not_mem_nil
    · rw [List.mem_cons, not_or]
      exact ⟨by decide, Text.Quoted.lineFeed_notMem_encode hidden _⟩
  have state : '\n' ∉ stateSuffix options e.depths := by
    unfold stateSuffix stateText
    split
    · simp [number]
    · exact List.not_mem_nil
  rw [line_eq]
  simp [name, number, quoted, state]

/-- Lines without line feeds are got back from the text that they were joined to, each ended by a
    line feed. -/
theorem linesOf_joinLines {ls : List (List Char)} (h : ∀ l ∈ ls, '\n' ∉ l) :
    linesOf (joinLines ls) = ls := by
  rw [linesOf, joinLines, String.toList_ofList, Text.piecesOf_flatMap_append h, List.dropLast_concat]

theorem linesOf_renderHiding (hidden : Char → Bool) (options : Options) (text : String) :
    linesOf (renderHiding hidden options text) = lines hidden options text := by
  refine linesOf_joinLines ?_
  intro l hl
  obtain ⟨e, _, rfl⟩ := List.mem_map.mp hl
  exact lineFeed_notMem_line hidden options text e

end Dump

/-! ## Text

  What a line quotes is a slice of the source, and a slice between two offsets that do not stand
  between characters is empty.  The tiling of the text by its tokens rules that out. -/

/-- Content and comments among tokens that tile a text have their ends in order, and both between
    characters. -/
theorem Token.Tiles.between {text : String} {offset : Nat} {ts : List Token} {t : Token}
    (h : Tiles text offset ts) (ht : t ∈ ts) (hk : t.kind.isStructural = false) :
    t.span.start ≤ t.span.stop ∧ BetweenChars text t.span.start ∧
      BetweenChars text t.span.stop := by
  obtain ⟨place, later, here⟩ := h.from_mem ht
  obtain ⟨kind, span⟩ := t
  cases kind with
  | boundary => cases hk
  | content | comment =>
    obtain ⟨_, forward, _, _, start, stop, _, _⟩ := here
    exact ⟨forward.le, start, stop⟩

/-- What the line of a token of a text says is so: the bytes quoted are those of the text in the
    span. -/
theorem Dump.describes_entryOf {text : String} {e : Emission} (he : e ∈ emissions text)
    (options : Options) : (entryOf options text e).Describes options text e where
  token := rfl
  text := by
    have tiles := ((Tokenizer.stream_emissions text).tiles (Reader.on_start text)).1
    have ht : e.token ∈ (emissions text).map (·.token) := List.mem_map.mpr ⟨e, he, rfl⟩
    unfold entryOf
    cases hk : e.token.kind.isStructural with
    | true => rfl
    | false =>
      -- both ends stand between characters, so this is no bad slice
      obtain ⟨forward, start, stop⟩ := tiles.between ht hk
      show some (Source.bytes (String.ofList _)) = some _
      rw [String.ofList_toList, Source.bytes_slice forward start stop]
  state := rfl

/-! ## Counters

  A token leaves the tokenizer together with the counters after it.  So the counters on the `n`-th
  line are those of the state behind the `n`-th call. -/

namespace Tokenizer

/-- A token comes with the counters of the state that its call leaves. -/
theorem depths_next {t : Tokenizer} {e : Emission} (h : t.next.1 = some e) :
    t.next.2.depths = e.depths := by
  rcases next_cases t with ⟨_, hn⟩ | ⟨_, _, _, hn⟩ | ⟨_, _, hn⟩ | ⟨_, _, hn⟩ | ⟨_, _, hn⟩ <;>
    rw [hn] at h ⊢ <;> cases h <;> rfl

/-- The counters that come with the tokens of a text are those of the stream after one call, two
    calls, and so on. -/
theorem depths_emissions (text : String) :
    (emissions text).map (·.depths) = (List.range (tokenize text).length).map fun n =>
      ((start text).advance (n + 1)).depths := by
  refine List.ext_getElem? ?_
  intro n
  -- call `n` gives token `n`, and leaves the counters with which it comes
  have token : ((start text).advance n).next.1 = (emissions text)[n]? := next_advance n (start text)
  rw [List.getElem?_map, List.getElem?_map]
  match he : (emissions text)[n]? with
  | some e =>
    have within : n < (tokenize text).length := by
      rw [tokenize, List.length_map]
      exact (List.getElem?_eq_some_iff.mp he).1
    rw [List.getElem?_range within, Option.map_some, Option.map_some, advance_succ]
    rw [he] at token
    rw [depths_next token]
  | none =>
    have beyond : (tokenize text).length ≤ n := by
      rw [tokenize, List.length_map]
      exact List.getElem?_eq_none_iff.mp he
    rw [List.getElem?_eq_none (by rwa [List.length_range])]
    rfl

end Tokenizer

/-- The tokens that a dump shows are all of them, or the structural ones alone, in their order. -/
theorem Dump.token_shown (options : Dump.Options) (text : String) :
    ((emissions text).filter (Dump.shows options)).map (·.token) =
      (tokenize text).filter (fun t => !options.hideContent || t.kind.isStructural) := by
  rw [tokenize, List.filter_map]
  rfl

end Offside

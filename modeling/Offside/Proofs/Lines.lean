/-
  The token stream of a text, line by line.

  An induction on the derivation of the stream shows that each place of it is a place of the account
  by lines, resumed there.  Its invariant: the reader stands between two characters, and behind a
  piece of text, so not at the start of a line, unless a level token was just given.  So a scan is
  fresh only at the start of the text, and everywhere else it measures nothing before a line feed.

  The work is done in the account by lines (`Layout.Margin.resume` and its lemmas), which moves over
  bytes and pieces as the tokenizer does.  What remains is to say which of its moves each rule of
  the derivation is.
-/
import Offside.Proofs.Resuming

namespace Offside

/-! ## Columns

  The account by lines asks whether a place is in the middle of a line, and the tokenizer asks
  whether the column is zero.  The two agree because text never takes a reader to the start of a
  line. -/

/-- Content stays on its line: passing it begins no line, for it has no line feed. -/
theorem Reader.lineStart_passContent {r : Reader} (h : Spells r.rest) :
    (Lexeme.passContent r).lineStart = r.lineStart := by
  rw [Lexeme.passContent_eq_steps h]
  exact lineStart_steps_of_ne _ fun _ => Lexeme.ne_of_mem_take_contentLength

/-! ## Simulation

  A rule that announces nothing is a quiet place, and resumes behind the white space; a rule that
  announces is where a depth is measured. -/

namespace Tokenizer

variable {text : String} {r : Reader} {c : UInt16} {awaits : Bool} {es : List Emission}
  {t : Tokenizer}

/-- Within a line a scan is not fresh, so it measures nothing until it has passed a line feed. -/
theorem lineDepth?_of_column (h : r.column ≠ 0) :
    lineDepth? r = Layout.depthFrom false 0 r.rest := by
  rw [lineDepth?_eq, beq_eq_false_iff_ne.mpr h]

/-- Where a stream gives no announcement, the account that is resumed there gives none either: it
    may not, or no depth is measured. -/
theorem quiet_of_column (quiet : awaits = true ∨ lineDepth? r = none)
    (hc : awaits = true ∨ r.column ≠ 0) :
    (Layout.Margin.mk c.toNat awaits false r.offset).announces = false ∨
      Layout.depthFrom false 0 r.rest = none := by
  cases awaits with
  | true => exact .inl rfl
  | false =>
    have hn := quiet.resolve_left Bool.false_ne_true
    rw [lineDepth?_of_column (hc.resolve_left Bool.false_ne_true)] at hn
    exact .inr hn

/-- Where nothing is announced, the white space in front of the next piece is passed over in the
    account by lines, and maybe a carriage return in it hides the next line. -/
theorem resume_front {front : Reader} (quiet : awaits = true ∨ lineDepth? r = none)
    (hc : awaits = true ∨ r.column ≠ 0) (hf : front = r.skipWhile Lexeme.isSpace) :
    ∃ hidden, (front.rest = [] → awaits = true ∨ hidden = true) ∧
      (Layout.Margin.mk c.toNat awaits false r.offset).resume r.offset r.rest =
        (Layout.Margin.mk c.toNat awaits hidden r.offset).resume front.offset front.rest := by
  subst hf
  obtain ⟨hidden, hend, same⟩ :=
    Layout.Margin.resume_skipSpace (quiet_of_column (c := c) quiet hc) r.offset
  rw [← Reader.rest_skipWhile, ← Reader.offset_skipWhile] at same
  rw [← Reader.rest_skipWhile] at hend
  refine ⟨hidden, ?_, same⟩
  intro he
  have := hend he
  rwa [Layout.Margin.announces, Bool.and_eq_false_iff, Bool.not_eq_false', Bool.not_eq_false']
    at this

/-- A stream is the account by lines from its reader on: it has the same tokens, and leaves the same
    depth. -/
theorem Stream.resume (h : Stream r c awaits es t) (hr : r.On text)
    (hl : r.lineStart ≤ r.offset) (hc : awaits = true ∨ r.column ≠ 0) :
    (Layout.Margin.mk c.toNat awaits false r.offset).resume r.offset r.rest =
      (es.map (·.token), t.depths.current.toNat) := by
  induction h with
  | @finish r c awaits quiet hend =>
    obtain ⟨hidden, quiet', same⟩ := resume_front quiet hc rfl
    have declined : (Layout.Margin.mk c.toNat awaits hidden r.offset).announces = false := by
      rcases quiet' hend with rfl | rfl
      · rfl
      · exact Bool.and_false _
    rw [same, hend, Layout.Margin.resume_nil, Layout.Margin.outcome, Layout.Margin.endTokens,
      Layout.Margin.endDepth, declined]
    rfl
  | @announce r c depth es t hm later ih =>
    rw [lineDepth?_of_column (hc.resolve_left Bool.false_ne_true)] at hm
    have announced := Layout.Margin.resume_of_depthFrom
      (m := ⟨c.toNat, false, false, r.offset⟩) rfl hm r.offset
    rw [announced, Layout.Margin.announced, ih hr hl (.inl rfl), List.map_append,
      token_announcement]
    rfl
  | @comment r front c awaits es t quiet hf hs later ih =>
    obtain ⟨hidden, _, same⟩ := resume_front quiet hc hf
    have place : front.On text := hf ▸ hr.skipSpace
    have behind : front.lineStart ≤ front.offset := hf ▸ Reader.lineStart_le_steps _ hl
    -- the jump to the end of the line begins no line
    have forward := Reader.offset_lt_toLineEnd hs
    have column : front.toLineEnd.column ≠ 0 := Reader.column_ne_zero behind rfl forward
    have rest := ih place.toLineEnd (Nat.le_trans behind forward.le) (.inr column)
    have step := Layout.Margin.resume_comment hs ⟨c.toNat, awaits, hidden, r.offset⟩ front.offset
    rw [same, step]
    exact congrArg (Prod.map (_ :: ·) id) rest
  | @content r front c awaits es t quiet hf hne hs later ih =>
    obtain ⟨hidden, _, same⟩ := resume_front quiet hc hf
    have place : front.On text := hf ▸ hr.skipSpace
    have behind : front.lineStart ≤ front.offset := hf ▸ Reader.lineStart_le_steps _ hl
    have forward := Reader.offset_lt_passContent hf hne place.spells hs
    have sameLine := Reader.lineStart_passContent place.spells
    have column := Reader.column_ne_zero behind sameLine forward
    have rest := ih place.passContent (by rw [sameLine]; omega) (.inr column)
    obtain ⟨b, bs, hb⟩ := List.exists_cons_of_ne_nil hne
    have blank : Lexeme.isSpace b = false := Reader.isSpace_head_skipSpace (hf ▸ hb)
    have step := Layout.Margin.resume_content blank (hb ▸ hs) ⟨c.toNat, awaits, hidden, r.offset⟩
      front.offset
    rw [Reader.offset_passContent place.spells, Reader.rest_passContent place.spells] at rest
    rw [← hb] at step
    rw [same, step]
    simp only [Reader.offset_passContent place.spells, List.map_cons]
    exact congrArg (Prod.map (_ :: ·) id) rest

end Tokenizer

/-- **The stream, line by line.**  The tokens of any text, and the depth that its end leaves, are
    those of the account by lines, in which a carriage return behind text hides the lines up to the
    next text. -/
theorem tokenize_eq_outcome (text : String) :
    (tokenize text, (Tokenizer.start text).drain.2.depths.current.toNat) =
      Layout.outcome text := by
  obtain ⟨depth, es, hm, he, later⟩ := Tokenizer.emissions_eq text
  have rest := later.resume (Reader.on_start text) (Nat.le_refl 0) (.inl rfl)
  rw [Tokenizer.lineDepth?_eq] at hm
  -- the whole text is the first line and those after it, of which no byte was passed
  have nothing : ([] : List UInt8).all Line.isIndent = true := rfl
  have announced := Layout.Margin.outcome_of_depthFrom (m := .start) rfl nothing (k := 0) rfl hm 0
  rw [List.nil_append,
    Layout.Margin.outcome_split (Layout.Margin.announces_announced ..)] at announced
  have whole : Layout.outcome text = Prod.map (Layout.announce 0 depth.toNat 0 ++ ·) id
      (es.map (·.token), (Tokenizer.start text).drain.2.depths.current.toNat) := by
    rw [← rest]
    exact announced
  rw [whole, tokenize, he, List.map_append, Tokenizer.token_announcement]
  rfl

theorem tokenize_eq_fst_outcome (text : String) : tokenize text = (Layout.outcome text).1 := by
  rw [← tokenize_eq_outcome]

/-- **The stream of a text without carriage returns, line by line.** The tokens are those that are
    written down by lines, kind by kind and span by span: each line that is not blank is announced,
    unless content is still awaited, and has its own pieces; and so is the end of the text. -/
theorem tokenize_eq_tokens (text : String) (h : 13 ∉ Source.bytes text) :
    tokenize text = Layout.tokens text := by
  rw [tokenize_eq_fst_outcome]
  exact Layout.outcome_fst h

/-- A comment line, a blank line, and a line that goes deeper while content is awaited and so is not
    announced. -/
theorem tokenize_eq_tokens_comment :
    13 ∉ Source.bytes "\t//c\n\n\t\tx" ∧
      tokenize "\t//c\n\n\t\tx" = Layout.tokens "\t//c\n\n\t\tx" :=
  ⟨by decide, tokenize_eq_tokens _ (by decide)⟩

end Offside

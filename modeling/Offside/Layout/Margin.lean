/-
  Layout by lines, with carriage returns.

  `Layout.tokens` is what a text without carriage returns is, line by line.  In general one thing is
  added.  A carriage return is white space to the tokenizer and the start of text to a scan, so a
  scan that starts behind some text and meets one before the line feed takes itself to be in the
  middle of a line.  The white space is then passed over, with all line feeds in it, and the line
  with the next text is **hidden**: it is not announced.

  1. **Hiding** — whether a carriage return stands in the white space that follows the last piece
     of a line.
  2. **Margins** — what the lines so far leave for the next one: the depth last announced, whether
     its content is still to come, whether a carriage return hides the next line, and where the text
     so far ended.  The end of the text is announced, as a line of depth zero, like any other line:
     neither while content is still to come nor when it is hidden.
  3. **No carriage returns** — then nothing is hidden, and this is `Layout.tokens`.
-/
import Offside.Layout.Lines

namespace Offside

namespace Line

/-! ## Hiding

  A piece of text takes the question back: what hides the next line stands behind the last piece,
  not in front of it. -/

/-- Whether the lines after some bytes are hidden: behind a piece of text if a carriage return
    follows it, and without text as they were before. -/
def hidesFrom (hidden : Bool) : List UInt8 → Bool
  | [] => hidden
  | b :: bs =>
    if Lexeme.isSpace b then hidesFrom (hidden || b == 13) bs
    else if Lexeme.startsComment (b :: bs) then false
    else hidesFrom false (bs.drop (Lexeme.contentLength 0 bs))
termination_by bs => bs.length
decreasing_by all_goals simp only [List.length_cons, List.length_drop]; omega

/-- If the next line is hidden behind some bytes, it was hidden in front of them, or there is a
    carriage return among them. -/
theorem mem_of_hidesFrom {hidden : Bool} {bs : List UInt8} (h : hidesFrom hidden bs = true) :
    hidden = true ∨ 13 ∈ bs := by
  fun_induction hidesFrom hidden bs with
  | case1 hidden => exact .inl h
  | case2 hidden b bs _ ih =>
    rcases ih h with hb | hm
    · rw [Bool.or_eq_true, beq_iff_eq] at hb
      rcases hb with hb | rfl
      · exact .inl hb
      · exact .inr List.mem_cons_self
    · exact .inr (List.mem_cons_of_mem b hm)
  | case3 => simp at h
  | case4 hidden b bs _ _ ih =>
    rcases ih h with hb | hm
    · simp at hb
    · exact .inr (List.mem_cons_of_mem b (List.mem_of_mem_drop hm))

end Line

namespace Layout

/-! ## Margins

  A margin is passed from line to line.  Each line takes from it whether it is announced and from
  which depth, and leaves one for the next. -/

/-- What the lines so far leave for the next one. -/
structure Margin where
  /-- The depth announced last. -/
  depth : Nat
  /-- Its content is still to come. -/
  awaits : Bool
  /-- A carriage return keeps the scan from the next line. -/
  hidden : Bool
  /-- Where the text so far ended. -/
  last : Nat
  deriving DecidableEq, Repr, Inhabited

namespace Margin

/-- Before the first line. -/
def start : Margin := ⟨0, false, false, 0⟩

/-- Whether the next line is announced. -/
def announces (m : Margin) : Bool := !m.awaits && !m.hidden

/-- A line of some depth was announced. -/
def announced (m : Margin) (depth : Nat) : Margin := { m with depth := depth, awaits := true }

/-- Behind the content and comments of a line. -/
def after (m : Margin) (l : Line) : Margin :=
  { m with
    awaits := m.awaits && !hasContent l.pieces
    hidden := Line.hidesFrom m.hidden l.bytes
    last := (l.pieces.getLast?.map (·.span.stop)).getD m.last }

/-- Behind a line. -/
def pass (m : Margin) (l : Line) : Margin :=
  if l.isBlank then m
  else if m.announces then (m.announced l.depth).after l
  else m.after l

/-- The tokens of a line. -/
def lineTokens (m : Margin) (l : Line) : List Token :=
  if l.isBlank then []
  else if m.announces then announce m.depth l.depth m.last ++ l.pieces
  else l.pieces

/-- The tokens at the end of the text. -/
def endTokens (m : Margin) : List Token := if m.announces then announce m.depth 0 m.last else []

/-- The depth at the end of the text. -/
def endDepth (m : Margin) : Nat := if m.announces then 0 else m.depth

/-- The tokens of the lines left, and the depth after them. -/
def outcome (m : Margin) : List Line → List Token × Nat
  | [] => (m.endTokens, m.endDepth)
  | l :: ls => (m.lineTokens l ++ ((m.pass l).outcome ls).1, ((m.pass l).outcome ls).2)

/-! ## No carriage returns

  The flag `hidden` is then never raised, and without it a margin is what `Layout.tokensFrom`
  carries along. -/

/-- Behind a line without carriage returns the next line is not hidden if this one was not. -/
theorem hidden_pass {m : Margin} {l : Line} (hm : m.hidden = false) (hl : 13 ∉ l.bytes) :
    (m.pass l).hidden = false := by
  have same (m : Margin) (hm : m.hidden = false) : (m.after l).hidden = false := by
    rw [Bool.eq_false_iff]
    intro h
    rcases Line.mem_of_hidesFrom h with h | h
    · simp [hm] at h
    · exact hl h
  unfold pass
  split
  · exact hm
  · split
    · exact same (m.announced l.depth) hm
    · exact same m hm

/-- Where no line has a carriage return and none is hidden from before, the tokens are those of
    `Layout.tokensFrom`. -/
theorem outcome_of_not_mem {m : Margin} {ls : List Line} (hm : m.hidden = false)
    (hl : ∀ l ∈ ls, 13 ∉ l.bytes) : (m.outcome ls).1 = tokensFrom m.depth m.awaits m.last ls := by
  induction ls generalizing m with
  | nil =>
    obtain ⟨depth, awaits, hidden, last⟩ := m
    subst hm
    cases awaits <;> rfl
  | cons l ls ih =>
    have later := ih (hidden_pass hm (hl l List.mem_cons_self))
      fun l' hl' => hl l' (List.mem_cons_of_mem l hl')
    obtain ⟨depth, awaits, hidden, last⟩ := m
    subst hm
    rw [outcome, later, tokensFrom]
    by_cases hb : l.isBlank = true
    · simp only [lineTokens, pass, hb, if_true, List.nil_append]
    · cases awaits with
      | true => simp [lineTokens, pass, announces, after, hb]
      | false => simp [lineTokens, pass, announces, announced, after, hb]

end Margin

/-- The tokens of a text, line by line, and the depth after them. -/
def outcome (text : String) : List Token × Nat :=
  Margin.start.outcome (Line.split 0 (Source.bytes text))

/-- In a text without carriage returns the tokens are those that `Layout.tokens` tells line by
    line. -/
theorem outcome_fst {text : String} (h : 13 ∉ Source.bytes text) :
    (outcome text).1 = tokens text := by
  refine Margin.outcome_of_not_mem rfl ?_
  intro l hl hb
  exact h (Line.mem_of_mem_split hl hb)

/-- What the lines of a text leave for its end. -/
def endMargin (text : String) : Margin :=
  (Line.split 0 (Source.bytes text)).foldl Margin.pass .start

/-- The depth after the tokens: zero if the end is announced, and else that of the line announced
    last. -/
theorem outcome_snd (text : String) : (outcome text).2 = (endMargin text).endDepth := by
  have fold (m : Margin) (ls : List Line) : (m.outcome ls).2 = (ls.foldl Margin.pass m).endDepth := by
    induction ls generalizing m with
    | nil => rfl
    | cons l ls ih => exact ih (m.pass l)
  exact fold .start _

/-! ## Small cases -/

example : (endMargin "\tx\n").endDepth = 0 ∧ (endMargin "\tx\r\n").endDepth = 1 ∧
    (endMargin "\t//c").endDepth = 1 := by decide +kernel

end Layout

end Offside

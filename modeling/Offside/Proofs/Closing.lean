/-
  What is closed when the stream ends.

  1. **Balance** — along any stream the opening tokens less the closing ones are the depth gained,
     and the last structural token is a level token at the depth where the stream ends.  Both are
     inductions on the derivation; only an announcement has structural tokens.
  2. **The end** — so every block is closed at the end exactly if the depth there is zero.  The
     account by lines says when: the end of the text is announced, as a line of depth zero, unless a
     level token still waits for its content or a carriage return behind the last text hides the end
     from the scan.  Then blocks stay open, if the line announced last is deeper than zero.

  That blocks can stay open is a fact about the tokenizer, not about texts that are cut off: the
  text ends with white space or a comment, and whoever reads the tokens has to close the blocks that
  are left.
-/
import Offside.Proofs.Lines

namespace Offside

namespace Tokenizer

/-! ## The last structural token

  Text gives no structural token, so the last one is that of the last announcement. -/

/-- The kind of the last structural token among some emissions, and the counters after it. -/
def lastBoundary? (es : List Emission) : Option (Token.Kind × Depths) :=
  (es.filter (·.token.kind.isStructural)).getLast?.map fun e => (e.token.kind, e.depths)

/-- The last structural token of two lists is that of the second, or that of the first if the second
    has none. -/
theorem lastBoundary?_append (before after : List Emission) :
    lastBoundary? (before ++ after) = (lastBoundary? after).or (lastBoundary? before) := by
  rw [lastBoundary?, lastBoundary?, lastBoundary?, List.filter_append, List.getLast?_append,
    Option.map_or]

/-- A piece of text in front makes no difference to the last structural token. -/
theorem lastBoundary?_cons {e : Emission} (he : e.token.kind.isStructural = false)
    (es : List Emission) : lastBoundary? (e :: es) = lastBoundary? es := by
  rw [lastBoundary?, lastBoundary?, List.filter_cons, he, if_neg Bool.false_ne_true]

/-- The last structural token of an announcement is a level token, at the depth announced. -/
theorem lastBoundary?_announcement (offset : Nat) (d : Depths) :
    lastBoundary? (announcement offset d) =
      some (.boundary .level, ⟨d.target, d.target⟩) := by
  fun_induction announcement offset d with
  | case1 d decision after h _ ih =>
    rw [← List.singleton_append, lastBoundary?_append, ih, Depths.target_of_step h]
    rfl
  | case2 d after h =>
    have reached : d.current = d.target := Depths.step_all_eq_none_iff.mp (by rw [h])
    obtain ⟨current, target⟩ := d
    cases reached
    rfl

/-! ## Balance

  What is opened and closed is counted for each announcement; between them nothing changes. -/

/-- How many tokens of some emissions are one boundary. -/
def countOf (b : Boundary) (es : List Emission) : Nat := (kinds es).count (.boundary b)

theorem countOf_append (b : Boundary) (before after : List Emission) :
    countOf b (before ++ after) = countOf b before + countOf b after := by
  rw [countOf, kinds, List.map_append, List.count_append]
  rfl

theorem countOf_cons {e : Emission} (he : e.token.kind.isStructural = false) (b : Boundary)
    (es : List Emission) : countOf b (e :: es) = countOf b es := by
  have other : (e.token.kind == .boundary b) = false := by
    rw [beq_eq_false_iff_ne]
    intro h
    rw [h] at he
    simp [Token.Kind.isStructural] at he
  rw [countOf, kinds, List.map_cons, List.count_cons, other]
  rfl

/-- An announcement opens as many blocks as its depth is greater than the one before, and closes as
    many as it is less. -/
theorem countOf_announcement (offset : Nat) (d : Depths) :
    countOf .opening (announcement offset d) = d.target.toNat - d.current.toNat ∧
      countOf .closing (announcement offset d) = d.current.toNat - d.target.toNat := by
  rw [countOf, countOf, kinds_announcement, Layout.boundaries]
  constructor
  · simp [List.count_replicate]
  · simp [List.count_replicate]

/-- Along a stream the counters say what was opened and not closed, and the last structural token
    leaves them as they are at its end; or there is none, and they are as they were. -/
theorem Stream.balance {r : Reader} {c : UInt16} {awaits : Bool} {es : List Emission}
    {t : Tokenizer} (h : Stream r c awaits es t) :
    countOf .opening es + c.toNat = countOf .closing es + t.depths.current.toNat ∧
      (lastBoundary? es).getD (.boundary .level, ⟨c, c⟩) = (.boundary .level, t.depths) ∧
      t.depths.current = t.depths.target := by
  induction h with
  | finish => exact ⟨rfl, rfl, rfl⟩
  | @announce r c depth es t _ _ ih =>
    obtain ⟨balanced, last, reached⟩ := ih
    obtain ⟨opened, closed⟩ := countOf_announcement r.offset ⟨c, depth⟩
    refine ⟨?_, ?_, reached⟩
    · simp only [countOf_append]
      simp only at opened closed
      omega
    · -- the last boundary behind the announcement counts, and if there is none, its level token
      rw [lastBoundary?_append, lastBoundary?_announcement, Option.or_some, Option.getD_some]
      exact last
  | comment _ _ _ _ ih =>
    rw [countOf_cons rfl, countOf_cons rfl, lastBoundary?_cons rfl]
    exact ih
  | content _ _ _ _ _ ih =>
    rw [countOf_cons rfl, countOf_cons rfl, lastBoundary?_cons rfl]
    exact ih

/-! ## The end

  Three things could be meant by everything being closed, and `Closed` asks for all of them.  They
  come to the same, namely that the depth at the end is zero. -/

/-- Everything is closed: the counters are back at zero, as many blocks were closed as were opened,
    and the last structural token is a level token at depth zero. -/
structure Closed (es : List Emission) (t : Tokenizer) : Prop where
  depths : t.depths = .zero
  balanced : (kinds es).count (.boundary .opening) = (kinds es).count (.boundary .closing)
  level : lastBoundary? es = some (.boundary .level, .zero)

/-- In a text there is a structural token, since its first line or its end is announced, and the
    last one is a level token that leaves the counters as they stay. -/
theorem lastBoundary?_emissions (text : String) :
    lastBoundary? (emissions text) = some (.boundary .level, (start text).drain.2.depths) := by
  obtain ⟨depth, es, _, he, later⟩ := emissions_eq text
  obtain ⟨_, last, _⟩ := later.balance
  rw [he, lastBoundary?_append, lastBoundary?_announcement, Option.or_some, last]

end Tokenizer

/-- **What stays open.**  At the end of a text everything is closed exactly if the end is announced,
    that is if no level token waits for its content and no carriage return hides the end, or if the
    line announced last has depth zero. -/
theorem closed_iff (text : String) :
    Tokenizer.Closed (emissions text) (Tokenizer.start text).drain.2 ↔
      ((Layout.endMargin text).awaits = false ∧ (Layout.endMargin text).hidden = false) ∨
        (Layout.endMargin text).depth = 0 := by
  have depth : (Tokenizer.start text).drain.2.depths.current.toNat =
      (Layout.endMargin text).endDepth := by
    rw [← Layout.outcome_snd, ← tokenize_eq_outcome]
  have last := Tokenizer.lastBoundary?_emissions text
  obtain ⟨balanced, _, reached⟩ := (Tokenizer.stream_emissions text).balance
  have zero_iff : (Layout.endMargin text).endDepth = 0 ↔
      ((Layout.endMargin text).awaits = false ∧ (Layout.endMargin text).hidden = false) ∨
        (Layout.endMargin text).depth = 0 := by
    rw [Layout.Margin.endDepth, Layout.Margin.announces]
    cases (Layout.endMargin text).awaits <;> cases (Layout.endMargin text).hidden <;> simp
  rw [← zero_iff, ← depth]
  -- all three parts of `Closed` follow from the counters at the end
  generalize (Tokenizer.start text).drain.2 = t at *
  constructor
  · intro h
    rw [h.depths]
    rfl
  · intro h
    have zero : t.depths = .zero := by
      obtain ⟨r, ⟨current, target⟩, awaits, finished⟩ := t
      cases reached
      cases UInt16.toNat_inj.mp (h.trans UInt16.toNat_zero.symm)
      rfl
    refine ⟨zero, ?_, zero ▸ last⟩
    rw [h] at balanced
    exact balanced

/-- A carriage return behind the last text hides the end from the scan and leaves a block open. -/
theorem not_closed_carriageReturn :
    ¬Tokenizer.Closed (emissions "\tx\r\n") (Tokenizer.start "\tx\r\n").drain.2 := by
  intro h
  have left : (Tokenizer.start "\tx\r\n").drain.2.depths = ⟨1, 1⟩ := by decide +kernel
  rw [h.depths] at left
  exact absurd left (by decide)

end Offside

/-
  The token stream as a derivation.

  `Tokenizer.drain` calls `next` until nothing is left, and `next` takes one step between two depths
  at a time.  Most facts about a whole stream do not look at single steps, so this file puts them
  together once.

  1. **Announcements** — from a place where a line of some depth was measured, the stream goes
     through all the steps to that depth and the level token after them (`drain_announcement`).  The
     scan measures again at each step; it finds the same depth because no step moves the reader.
  2. **Streams** — a stream in which no step is pending goes on with an announcement, a comment or
     content, or is at its end.  `Stream` is that as an inductive relation, with one rule for each,
     and `stream_drain` says that what `drain` gives is derivable.  A fact about whole streams is
     then an induction on the derivation.
  3. **Prefixes** — the tokens that `take` gives are the first of those of `drain`.

  Two layers lie below: what the token of a scan is, and what the next piece of text is.
  `next_cases` sums them up for one call.  All that comes later speaks of `next_cases`, of `Stream`,
  or of both; no proof of another module opens a scan to learn about the stream.
-/
import Offside.Layout.Lines
import Offside.Tokenizer

namespace Offside

namespace Tokenizer

/-! ## The token of a scan

  A boundary is empty and stands where the scan started, although the scan may have read on over
  many lines: the end is marked before anything is read, and reading on counts as skipped, which
  would move the start past the end and is put back. -/

/-- While a scan reads on, the start of its token moves forward only, and so stays behind the place
    it started from. -/
theorem le_tokenStart_measureFrom {offset : Nat} (fresh : Bool) (depth : UInt16) (p : Probe)
    (hs : offset ≤ p.tokenStart) (hr : offset ≤ p.reader.offset) :
    offset ≤ (Scan.measureFrom fresh depth p).2.tokenStart := by
  fun_induction Scan.measureFrom fresh depth p with
  | case1 => exact hs
  | case2 _ _ p _ _ ih | case3 _ _ p _ _ _ ih | case4 _ _ p _ _ _ _ ih =>
    have := Nat.le_trans hr (Reader.offset_le_stepChar p.reader)
    exact ih this this
  | case5 => exact hs

/-- The token of a scan is empty and stands at the place scanned, whatever the scan has read. -/
theorem span_finish_scan (d : Depths) (allowed : Allowed) (r : Reader) :
    (d.scan allowed (Probe.start r)).host.finish.1 = .point r.offset := by
  have marked := marked_measureFrom (Host.column (Host.markEnd (Probe.start r)) == 0) 0
    (Host.markEnd (Probe.start r))
  have behind := le_tokenStart_measureFrom (Host.column (Host.markEnd (Probe.start r)) == 0) 0
    (Host.markEnd (Probe.start r)) (Nat.le_refl r.offset) (Nat.le_refl r.offset)
  have point (p : Probe) (hm : p.marked = some r) (hs : r.offset ≤ p.tokenStart) :
      p.finish.1 = .point r.offset := by
    simp [Probe.finish, hm, Span.point, Nat.min_eq_right hs]
  unfold Depths.scan
  split
  · simp [Probe.finish, Probe.start, Span.point]
  · split
    · simp [Probe.finish, Probe.start, Span.point]
    · unfold Scan.measure
      split
      · next h => rw [h] at marked behind; exact point _ marked behind
      · next h =>
        rw [h] at marked behind
        split <;> exact point _ marked behind

/-- Where no content is awaited, the structural token is what the scan decides, at the place of the
    reader; the reader stays, the counters are those of the scan, and content is awaited behind a
    level. -/
theorem structural_eq (r : Reader) (d : Depths) (finished : Bool) :
    structural ⟨r, d, false, finished⟩ =
      ((d.scan .all (Probe.start r)).decision?.map fun decision =>
          ⟨⟨.boundary decision.boundary, .point r.offset⟩, some decision,
            (d.scan .all (Probe.start r)).depths⟩,
        ⟨r, (d.scan .all (Probe.start r)).depths,
          (d.scan .all (Probe.start r)).decision?.any (·.boundary == .level), finished⟩) := by
  have span := span_finish_scan d .all r
  have place := finish_scan d .all r
  unfold structural allowed
  simp only [Bool.false_eq_true, if_false, show Allowed.all.isEmpty = false from rfl]
  split
  · next h => simp [h]
  · next decision h => simp [h, span, place]

/-- A step that is due is the next token, whatever stands ahead: nothing is measured for it. -/
theorem next_of_step {r : Reader} {d after : Depths} {decision : Decision}
    (h : d.step .all = (some decision, after)) :
    next ⟨r, d, false, false⟩ =
      (some ⟨⟨.boundary decision.boundary, .point r.offset⟩, some decision, after⟩,
        ⟨r, after, false, false⟩) := by
  have notLevel := Depths.boundary_of_step_ne_level h
  rcases scan_all_cases d r with ⟨_, hd, hc⟩ | ⟨heq, _⟩ | ⟨heq, _⟩ | ⟨_, heq, _⟩
  · rw [h] at hd hc
    simp [next, structural_eq, hd, hc, notLevel]
  all_goals
    have := Depths.step_all_eq_none_iff.mpr heq
    simp [h] at this

/-- A line at the depth that is reached is announced by a level token, and its content is
    awaited. -/
theorem next_of_level {r : Reader} {d : Depths} (hd : d.current = d.target)
    (hm : lineDepth? r = some d.current) :
    next ⟨r, d, false, false⟩ =
      (some ⟨⟨.boundary .level, .point r.offset⟩, some (.level d.current), d⟩,
        ⟨r, d, true, false⟩) := by
  rcases scan_all_cases d r with ⟨hs, _⟩ | ⟨_, hn, _⟩ | ⟨_, _, hl, hc⟩ | ⟨depth, _, hm', hne, _⟩
  · rw [Depths.step_all_eq_none_iff.mpr hd] at hs; simp at hs
  · rw [hm] at hn; simp at hn
  · simp [next, structural_eq, hl, hc, Decision.boundary]
  · rw [hm] at hm'; exact absurd (Option.some.inj hm').symm hne

/-- A line at another depth makes that depth the target, and the next token is as if it had been the
    target before. -/
theorem next_of_turn {r : Reader} {c depth : UInt16} (hm : lineDepth? r = some depth)
    (hne : depth ≠ c) : next ⟨r, ⟨c, c⟩, false, false⟩ = next ⟨r, ⟨c, depth⟩, false, false⟩ := by
  rcases scan_all_cases ⟨c, c⟩ r with ⟨hs, _⟩ | ⟨_, hn, _⟩ | ⟨_, hm', _⟩ | ⟨depth', _, hm', _, hl, hc⟩
  · rw [Depths.step_all_eq_none_iff.mpr rfl] at hs; simp at hs
  · rw [hm] at hn; simp at hn
  · rw [hm] at hm'; exact absurd (Option.some.inj hm') hne
  · -- the scan takes the depth as its target and goes the first step at once
    rw [hm] at hm'; cases hm'
    match h : Depths.step .all ⟨c, depth⟩ with
    | (none, after) =>
      exact absurd (Depths.step_all_eq_none_iff.mp (by rw [h])).symm hne
    | (some decision, after) =>
      rw [next_of_step h]
      have notLevel := Depths.boundary_of_step_ne_level h
      rw [h] at hl hc
      simp [next, structural_eq, hl, hc, notLevel]

/-- A scan that decides nothing, or is not made because content is awaited, leaves the tokenizer as
    it was. -/
theorem structural_of_quiet {t : Tokenizer}
    (quiet : t.awaitsContent = true ∨ (t.depths.scan .all (Probe.start t.reader)).decision? = none) :
    t.structural = (none, t) := by
  obtain ⟨r, d, awaits, finished⟩ := t
  cases awaits with
  | true => rfl
  | false =>
    have hn := quiet.resolve_left Bool.false_ne_true
    simp only at hn
    have same : (d.scan .all (Probe.start r)).depths = d := by
      rcases scan_all_cases d r with ⟨hs, hd, _⟩ | ⟨_, _, _, hc⟩ | ⟨_, _, _, hc⟩ |
        ⟨depth, _, _, hne, hd, _⟩
      · rw [← hd, hn] at hs; simp at hs
      · exact hc
      · exact hc
      · -- a line at another depth would have given a step
        rw [hn] at hd
        exact absurd (Depths.step_all_eq_none_iff.mp hd.symm).symm hne
    simp [structural_eq, hn, same]

/-! ## The next piece of text

  Behind the white space there is nothing, or a comment, or content.  One equation for each, and
  then all that a call of `next` can do. -/

theorem ordinary_of_nil {t : Tokenizer} (hr : (t.reader.skipWhile Lexeme.isSpace).rest = []) :
    t.ordinary = (none, { t with reader := t.reader.skipWhile Lexeme.isSpace }) := by
  unfold ordinary
  simp only [Reader.atEnd_iff.mpr hr, if_true]

theorem ordinary_of_comment {t : Tokenizer} {front : Reader}
    (hf : front = t.reader.skipWhile Lexeme.isSpace)
    (hc : Lexeme.startsComment front.rest = true) :
    t.ordinary = (some ⟨⟨.comment, ⟨front.offset, front.toLineEnd.offset⟩⟩, none, t.depths⟩,
      { t with reader := front.toLineEnd }) := by
  subst hf
  have hr : (t.reader.skipWhile Lexeme.isSpace).atEnd = false := by
    rw [Bool.eq_false_iff]
    intro h
    rw [Reader.atEnd_iff.mp h] at hc
    simp [Lexeme.startsComment] at hc
  unfold ordinary
  simp only [hr, hc, if_true, Bool.false_eq_true, if_false]

theorem ordinary_of_content {t : Tokenizer} {front : Reader}
    (hf : front = t.reader.skipWhile Lexeme.isSpace) (hr : front.rest ≠ [])
    (hc : Lexeme.startsComment front.rest = false) :
    t.ordinary =
      (some ⟨⟨.content, ⟨front.offset, (Lexeme.passContent front).offset⟩⟩, none, t.depths⟩,
        { t with reader := Lexeme.passContent front, awaitsContent := false }) := by
  subst hf
  have hr : (t.reader.skipWhile Lexeme.isSpace).atEnd = false :=
    Bool.eq_false_iff.mpr fun h => hr (Reader.atEnd_iff.mp h)
  unfold ordinary
  simp only [hr, hc, Bool.false_eq_true, if_false]

/-- What `next` can do: nothing once it has finished, or give a boundary if content was not awaited,
    or come to the end, or give a piece of text.  Only a boundary changes the depths, and only
    content answers a level. -/
theorem next_cases (t : Tokenizer) :
    (t.finished = true ∧ t.next = (none, t)) ∨
    (∃ decision after, t.awaitsContent = false ∧
      t.next = (some ⟨⟨.boundary decision.boundary, .point t.reader.offset⟩, some decision, after⟩,
        ⟨t.reader, after, decision.boundary == .level, false⟩)) ∨
    (∃ front : Reader, front.rest = [] ∧
      t.next = (none, ⟨front, t.depths, t.awaitsContent, true⟩)) ∨
    (∃ span reader, t.next = (some ⟨⟨.comment, span⟩, none, t.depths⟩,
      ⟨reader, t.depths, t.awaitsContent, false⟩)) ∨
    (∃ span reader, t.next = (some ⟨⟨.content, span⟩, none, t.depths⟩,
      ⟨reader, t.depths, false, false⟩)) := by
  obtain ⟨r, d, awaits, finished⟩ := t
  cases finished with
  | true => exact .inl ⟨rfl, rfl⟩
  | false =>
    refine .inr ?_
    by_cases quiet : awaits = true ∨ (d.scan .all (Probe.start r)).decision? = none
    · refine .inr ?_
      -- no boundary comes, so what comes is a piece of text, or the end
      have declined : structural ⟨r, d, awaits, false⟩ = _ := structural_of_quiet quiet
      unfold next
      simp only [declined, Bool.false_eq_true, if_false]
      by_cases hr : (r.skipWhile Lexeme.isSpace).rest = []
      · rw [ordinary_of_nil hr]
        exact .inl ⟨_, hr, rfl⟩
      · refine .inr ?_
        by_cases hc : Lexeme.startsComment (r.skipWhile Lexeme.isSpace).rest = true
        · rw [ordinary_of_comment rfl hc]
          exact .inl ⟨_, _, rfl⟩
        · rw [ordinary_of_content rfl hr (Bool.eq_false_iff.mpr hc)]
          exact .inr ⟨_, _, rfl⟩
    · rw [not_or, Bool.not_eq_true] at quiet
      obtain ⟨ha, hs⟩ := quiet
      subst ha
      obtain ⟨decision, hd⟩ := Option.ne_none_iff_exists'.mp hs
      refine .inl ⟨decision, (d.scan .all (Probe.start r)).depths, rfl, ?_⟩
      simp [next, structural_eq, hd]

/-! ## Announcements

  The list of tokens that lead from one depth to another is written down without a reader, by
  recursion on the steps.  That the stream gives these tokens one by one is the first induction over
  calls of `next`. -/

/-- The tokens that lead to a line: the steps from `current` to `target` one after another, and the
    level token at the end. -/
def announcement (offset : Nat) (d : Depths) : List Emission :=
  match h : d.step .all with
  | (some decision, after) =>
    have := Depths.distance_of_step h
    ⟨⟨.boundary decision.boundary, .point offset⟩, some decision, after⟩ ::
      announcement offset after
  | (none, _) => [⟨⟨.boundary .level, .point offset⟩, some (.level d.target), d⟩]
termination_by d.distance d.target

/-- The tokens of an announcement are the boundaries between the two depths, all at one place. -/
theorem token_announcement (offset : Nat) (d : Depths) :
    (announcement offset d).map (·.token) =
      Layout.announce d.current.toNat d.target.toNat offset := by
  fun_induction announcement offset d with
  | case1 d decision after h _ ih =>
    rw [List.map_cons, ih]
    rcases Depths.step_cases .all d with ⟨_, hlt, e⟩ | ⟨_, hlt, e⟩ | ⟨_, _, e⟩ <;>
      rw [e] at h <;> cases h
    · -- a step deeper is the first of the openings; no closing is due before it or after it
      have := UInt16.lt_iff_toNat_lt.mp hlt
      rw [Depths.toNat_current_succ hlt, Layout.announce, Layout.announce, Layout.boundaries,
        Layout.boundaries,
        show d.target.toNat - d.current.toNat = d.target.toNat - (d.current.toNat + 1) + 1 by omega,
        show d.current.toNat - d.target.toNat = 0 by omega,
        show d.current.toNat + 1 - d.target.toNat = 0 by omega]
      rfl
    · have := UInt16.lt_iff_toNat_lt.mp hlt
      rw [Depths.toNat_current_pred hlt, Layout.announce, Layout.announce, Layout.boundaries,
        Layout.boundaries,
        show d.current.toNat - d.target.toNat = d.current.toNat - 1 - d.target.toNat + 1 by omega,
        show d.target.toNat - d.current.toNat = 0 by omega,
        show d.target.toNat - (d.current.toNat - 1) = 0 by omega]
      rfl
  | case2 d after h =>
    have reached : d.current = d.target := Depths.step_all_eq_none_iff.mp (by rw [h])
    simp [Layout.announce, Layout.boundaries, reached]

/-- The kinds of some emissions. -/
def kinds (es : List Emission) : List Token.Kind := es.map (·.token.kind)

theorem kinds_announcement (offset : Nat) (d : Depths) :
    kinds (announcement offset d) =
      (Layout.boundaries d.current.toNat d.target.toNat).map .boundary := by
  have := congrArg (List.map Token.kind) (token_announcement offset d)
  simpa [kinds, Layout.announce, Function.comp_def] using this

/-- A tokenizer in which no step is pending: both counters are equal. -/
def settled (r : Reader) (c : UInt16) (awaits : Bool) : Tokenizer := ⟨r, ⟨c, c⟩, awaits, false⟩

/-- Steps that are due are all taken and end in a level, since the reader does not move and each
    scan measures the same depth. -/
theorem drain_announcement {r : Reader} (d : Depths) (hm : lineDepth? r = some d.target) :
    drain ⟨r, d, false, false⟩ =
      (announcement r.offset d ++ (settled r d.target true).drain.1,
        (settled r d.target true).drain.2) := by
  fun_induction announcement r.offset d with
  | case1 d decision after h _ ih =>
    -- the reader has not moved, so what is measured is still the target
    have target := Depths.target_of_step h
    rw [drain_of_next_eq_some (next_of_step h), ih (by rw [target, hm]), target]
    rfl
  | case2 d after h =>
    have reached : d.current = d.target := Depths.step_all_eq_none_iff.mp (by rw [h])
    obtain ⟨current, target⟩ := d
    simp only at reached hm ⊢
    subst reached
    rw [drain_of_next_eq_some (next_of_level rfl hm)]
    rfl

/-- From a place where no step is pending and a line is measured, the stream announces the line and
    goes on with no step pending. -/
theorem drain_of_lineDepth {r : Reader} {c depth : UInt16} (hm : lineDepth? r = some depth) :
    (settled r c false).drain =
      (announcement r.offset ⟨c, depth⟩ ++ (settled r depth true).drain.1,
        (settled r depth true).drain.2) := by
  rw [← drain_announcement ⟨c, depth⟩ hm]
  -- at the same depth the target was right before the scan
  by_cases h : depth = c
  · rw [h]; rfl
  · have same := next_of_turn (c := c) hm h
    unfold settled
    match hn : next ⟨r, ⟨c, depth⟩, false, false⟩ with
    | (none, t) =>
      rw [drain_of_next_eq_none (same.trans hn), drain_of_next_eq_none hn]
    | (some e, t) =>
      rw [drain_of_next_eq_some (same.trans hn), drain_of_next_eq_some hn]

/-! ## Streams

  The rules of `Stream` are the ways in which a stream can go on when no step is pending.  A
  derivation follows the stream to its end; its index `c` is the depth reached, and `awaits` the
  state behind a level token. -/

/-- The rest of a stream from a reader on, in which no step is pending: `c` is the depth, and
    `awaits` tells whether a line was announced and its content is still to come.  A derivation
    ends in the tokenizer that the end of the text leaves. -/
inductive Stream : Reader → UInt16 → Bool → List Emission → Tokenizer → Prop
  /-- Nothing but white space is left, and the end is not announced. -/
  | finish {r : Reader} {c : UInt16} {awaits : Bool} (quiet : awaits = true ∨ lineDepth? r = none)
      (hr : (r.skipWhile Lexeme.isSpace).rest = []) :
      Stream r c awaits [] ⟨r.skipWhile Lexeme.isSpace, ⟨c, c⟩, awaits, true⟩
  /-- A line, or the end of the text, is announced. -/
  | announce {r : Reader} {c depth : UInt16} {es : List Emission} {t : Tokenizer}
      (hm : lineDepth? r = some depth) (later : Stream r depth true es t) :
      Stream r c false (announcement r.offset ⟨c, depth⟩ ++ es) t
  /-- A comment is next. -/
  | comment {r front : Reader} {c : UInt16} {awaits : Bool} {es : List Emission} {t : Tokenizer}
      (quiet : awaits = true ∨ lineDepth? r = none) (hf : front = r.skipWhile Lexeme.isSpace)
      (hc : Lexeme.startsComment front.rest = true) (later : Stream front.toLineEnd c awaits es t) :
      Stream r c awaits
        (⟨⟨.comment, ⟨front.offset, front.toLineEnd.offset⟩⟩, none, ⟨c, c⟩⟩ :: es) t
  /-- Content is next. -/
  | content {r front : Reader} {c : UInt16} {awaits : Bool} {es : List Emission} {t : Tokenizer}
      (quiet : awaits = true ∨ lineDepth? r = none) (hf : front = r.skipWhile Lexeme.isSpace)
      (hr : front.rest ≠ []) (hc : Lexeme.startsComment front.rest = false)
      (later : Stream (Lexeme.passContent front) c false es t) :
      Stream r c awaits
        (⟨⟨.content, ⟨front.offset, (Lexeme.passContent front).offset⟩⟩, none, ⟨c, c⟩⟩ :: es) t

/-- Where nothing is announced, the next token is the next piece of text, or there is none. -/
theorem next_of_quiet {r : Reader} {c : UInt16} {awaits : Bool}
    (quiet : awaits = true ∨ lineDepth? r = none) :
    (settled r c awaits).next =
      match (settled r c awaits).ordinary with
      | (some e, t) => (some e, t)
      | (none, t) => (none, { t with finished := true }) := by
  have declined : (settled r c awaits).structural = (none, settled r c awaits) := by
    refine structural_of_quiet (quiet.imp_right fun hn => ?_)
    show (Depths.scan ⟨c, c⟩ .all (Probe.start r)).decision? = none
    rcases scan_all_cases ⟨c, c⟩ r with ⟨hs, _⟩ | ⟨_, _, hl, _⟩ | ⟨_, hm, _⟩ | ⟨_, _, hm, _⟩
    · rw [Depths.step_all_eq_none_iff.mpr rfl] at hs; simp at hs
    · exact hl
    · rw [hn] at hm; simp at hm
    · rw [hn] at hm; simp at hm
  unfold next
  rw [declined]
  rfl

/-- What `drain` gives from a state in which no step is pending is a stream.  The recursion is on
    the work that is left, and an announcement is taken as a whole. -/
theorem stream_drain (r : Reader) (c : UInt16) (awaits : Bool) :
    Stream r c awaits (settled r c awaits).drain.1 (settled r c awaits).drain.2 := by
  by_cases quiet : awaits = true ∨ lineDepth? r = none
  · have hn := next_of_quiet (c := c) quiet
    by_cases hr : (r.skipWhile Lexeme.isSpace).rest = []
    · rw [ordinary_of_nil hr] at hn
      rw [drain_of_next_eq_none hn]
      exact .finish quiet hr
    · by_cases hc : Lexeme.startsComment (r.skipWhile Lexeme.isSpace).rest = true
      · rw [ordinary_of_comment rfl hc] at hn
        have := work_next hn
        rw [drain_of_next_eq_some hn]
        exact .comment quiet rfl hc (stream_drain _ c awaits)
      · rw [Bool.not_eq_true] at hc
        rw [ordinary_of_content rfl hr hc] at hn
        have := work_next hn
        rw [drain_of_next_eq_some hn]
        exact .content quiet rfl hr hc (stream_drain _ c false)
  · -- an announcement passes no byte, but it raises the flag, which is less work
    rw [not_or, Bool.not_eq_true] at quiet
    obtain ⟨ha, hm⟩ := quiet
    subst ha
    obtain ⟨depth, hm⟩ := Option.ne_none_iff_exists'.mp hm
    rw [drain_of_lineDepth hm]
    exact .announce hm (stream_drain r depth true)
termination_by (settled r c awaits).work
decreasing_by
  · exact this
  · exact this
  · simp [work, settled, ha]

/-- The tokens of a text are a stream, from its start and from depth zero. -/
theorem stream_emissions (text : String) :
    Stream (Reader.start text) 0 false (emissions text) (start text).drain.2 :=
  stream_drain (Reader.start text) 0 false

/-! ## Prefixes

  `take` stops after a number of tokens and `drain` does not; until then they make the same
  calls. -/

/-- What was taken before stays in front, and has no part in what is taken then. -/
theorem takeOnto_eq (taken : Array Emission) (n : Nat) (t : Tokenizer) :
    takeOnto taken n t = (taken ++ (takeOnto #[] n t).1, (takeOnto #[] n t).2) := by
  induction n generalizing taken t with
  | zero => simp [takeOnto]
  | succ n ih =>
    unfold takeOnto
    split
    · simp
    · next e after _ =>
      rw [ih (taken.push e), ih (#[].push e)]
      simp

theorem take_zero (t : Tokenizer) : t.take 0 = ([], t) := rfl

theorem take_succ_of_next_eq_none {t after : Tokenizer} (n : Nat) (h : t.next = (none, after)) :
    t.take (n + 1) = ([], after) := by
  simp [take, takeOnto, h]

theorem take_succ_of_next_eq_some {t after : Tokenizer} {e : Emission} (n : Nat)
    (h : t.next = (some e, after)) : t.take (n + 1) = (e :: (after.take n).1, (after.take n).2) := by
  simp only [take, takeOnto, h]
  rw [takeOnto_eq]
  simp

/-- Taking some tokens takes the first of all that are left, or all of them if there are fewer. -/
theorem take_fst (n : Nat) (t : Tokenizer) : (t.take n).1 = t.drain.1.take n := by
  induction n generalizing t with
  | zero => rw [take_zero, List.take_zero]
  | succ n ih =>
    match h : t.next with
    | (none, after) =>
      rw [take_succ_of_next_eq_none n h, drain_of_next_eq_none h, List.take_nil]
    | (some e, after) =>
      rw [take_succ_of_next_eq_some n h, drain_of_next_eq_some h, List.take_succ_cons, ih]

end Tokenizer

end Offside

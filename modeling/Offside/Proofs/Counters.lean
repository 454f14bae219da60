/-
  The counters of a dump.

  Each line of a dump can show the two counters of the scanner after its token.  They are written as
  they stand, token by token; that they tell a consistent story when the lines are read one after
  another is shown here: the first follows the blocks opened and closed, and the second announces
  where a run of such lines will end.

  1. **Announcements** — all steps of an announcement go the same way, and have the depth announced
     as their target; the level token at the end has reached it (`announcement_run`).
  2. **Streams** — so each token of a stream tells by its counters what was opened and closed up to
     it.  The induction is on the derivation, with one lemma for a line put in front of others
     (`Replays.cons`).  Content and comments leave the counters, so it makes no difference whether
     their lines are there.
  3. **Lines** — the lines that are hidden, and the counters that are not shown, can be taken off a
     dump that has them.
-/
import Offside.Proofs.Dumps

namespace Offside

/-! ## Announcements

  An announcement is the list of steps that are due, and a level.  The target of a step is fixed
  when the depth is measured, and no step changes it. -/

/-- Two steps in a row go the same way: the first goes towards the target and not past it, so the
    second does not turn back. -/
theorem Depths.boundary_of_step_step {d d₁ d₂ : Depths} {first second : Decision}
    (h₁ : d.step .all = (some first, d₁)) (h₂ : d₁.step .all = (some second, d₂)) :
    second.boundary = first.boundary := by
  rcases step_cases .all d with ⟨_, lt, e⟩ | ⟨_, lt, e⟩ | ⟨_, _, e⟩ <;> rw [e] at h₁ <;> cases h₁
  · -- one step up leads at most to the target, so none leads down from there
    have one := toNat_current_succ lt
    have below := UInt16.lt_iff_toNat_lt.mp lt
    rcases step_cases .all ⟨d.current + 1, d.target⟩ with ⟨_, _, e⟩ | ⟨_, back, e⟩ | ⟨_, _, e⟩ <;>
      rw [e] at h₂ <;> cases h₂
    · rfl
    · have above := UInt16.lt_iff_toNat_lt.mp back
      simp only at above
      omega
  · -- and one step down leads at least to the target
    have one := toNat_current_pred lt
    have above := UInt16.lt_iff_toNat_lt.mp lt
    rcases step_cases .all ⟨d.current - 1, d.target⟩ with ⟨_, back, e⟩ | ⟨_, _, e⟩ | ⟨_, _, e⟩ <;>
      rw [e] at h₂ <;> cases h₂
    · have below := UInt16.lt_iff_toNat_lt.mp back
      simp only at below
      omega
    · rfl

namespace Tokenizer

/-- After a step come the other steps that are due, which go the same way and have the same target,
    and then the level token, which has reached it. -/
theorem announcement_run {d after : Depths} {decision : Decision}
    (h : d.step .all = (some decision, after)) (offset : Nat) :
    ∃ run level, announcement offset after = run ++ [level] ∧
      (∀ e ∈ run, e.token.kind = .boundary decision.boundary ∧
        e.depths.target = after.target) ∧
      level.token.kind = .boundary .level ∧ level.depths = ⟨after.target, after.target⟩ := by
  fun_induction announcement offset after generalizing d decision with
  | case1 d₁ second d₂ h₂ _ ih =>
    obtain ⟨run, level, he, hrun, hk, hd⟩ := ih h₂
    have same := Depths.boundary_of_step_step h h₂
    have target := Depths.target_of_step h₂
    rw [target] at hrun hd
    refine ⟨_ :: run, level, congrArg (_ :: ·) he, ?_, hk, hd⟩
    intro e hm
    rcases List.mem_cons.mp hm with rfl | hm
    · exact ⟨congrArg _ same, target⟩
    · rw [← same]
      exact hrun e hm
  | case2 d₁ _ hn =>
    have reached : d₁.current = d₁.target := Depths.step_all_eq_none_iff.mp (by rw [hn])
    refine ⟨[], _, rfl, ?_, rfl, ?_⟩
    · intro e hm
      cases hm
    · obtain ⟨current, target⟩ := d₁
      cases reached
      rfl

/-- All tokens of an announcement are structural. -/
theorem isStructural_announcement {offset : Nat} {d : Depths} {e : Emission}
    (h : e ∈ announcement offset d) : e.token.kind.isStructural = true := by
  have hk : e.token.kind ∈ kinds (announcement offset d) := List.mem_map_of_mem h
  rw [kinds_announcement, List.mem_map] at hk
  obtain ⟨b, _, hb⟩ := hk
  rw [← hb]
  rfl

end Tokenizer

/-! ## Lines in front of others

  `Replays` is a statement about each line of a list and the lines in front of it and behind it.  A
  list of lines is built from its end, and so a line has to be put in front: the counts of all lines
  behind it grow by what it stands for, and the depth they are reckoned from changes by as much. -/

namespace Dump

theorem countOf_append (b : Boundary) (before after : List Entry) :
    countOf b (before ++ after) = countOf b before + countOf b after := List.countP_append

/-- A line in front of others: if its own counters are right and it leads to a level line, if it is
    a step, and the lines behind it replay from the depth after it, then all of them replay from the
    depth in front of it. -/
theorem Replays.cons {before current target : Nat} {entry : Entry} {entries : List Entry}
    (hs : entry.state? = some (current, target))
    (hc : current + countOf .closing [entry] = before + countOf .opening [entry])
    (hr : ¬entry.IsStep → current = target) (hl : entry.IsStep → entry.LeadsToLevel entries)
    (later : Replays current entries) : Replays before (entry :: entries) where
  counted := by
    intro front e back he
    -- the line asked for is this one, or one of those behind it
    rcases List.cons_eq_append_iff.mp he with ⟨rfl, here⟩ | ⟨front, rfl, behind⟩
    · cases here
      exact ⟨current, target, hs, hc⟩
    · obtain ⟨c, t, hst, sum⟩ := later.counted front e back behind
      refine ⟨c, t, hst, ?_⟩
      rw [List.cons_append, ← List.singleton_append, countOf_append, countOf_append .opening]
      omega
  reached := by
    intro e he step
    rcases List.mem_cons.mp he with rfl | he
    · exact ⟨target, by rw [hs, hr step]⟩
    · exact later.reached e he step
  leads := by
    intro front e back he step
    rcases List.cons_eq_append_iff.mp he with ⟨rfl, here⟩ | ⟨front, rfl, behind⟩
    · cases here
      exact hl step
    · exact later.leads front e back behind step

/-- No lines tell nothing, and nothing of it is wrong, whatever depth was reached in front of
    them. -/
theorem replays_nil (before : Nat) : Replays before [] where
  counted front entry back he := by simp at he
  reached entry he := by cases he
  leads front entry back he := by simp at he

/-! ## Streams

  The derivation of a stream has a case for an announcement and one for each kind of text; the depth
  between them is that of the line announced last. -/

/-- The entries of some tokens, as a dump with counters has them. -/
def entriesOf (hide : Bool) (text : String) (es : List Emission) : List Entry :=
  (es.filter (shows ⟨hide, true⟩)).map (entryOf ⟨hide, true⟩ text)

/-- The lines of an announcement are all shown, so they stand in front of those of the other
    tokens. -/
theorem entriesOf_announcement_append (hide : Bool) (text : String) (offset : Nat) (d : Depths)
    (es : List Emission) :
    entriesOf hide text (Tokenizer.announcement offset d ++ es) =
      (Tokenizer.announcement offset d).map (entryOf ⟨hide, true⟩ text) ++ entriesOf hide text es := by
  have all : (Tokenizer.announcement offset d).filter (shows ⟨hide, true⟩) =
      Tokenizer.announcement offset d := by
    rw [List.filter_eq_self]
    intro e he
    rw [shows, Tokenizer.isStructural_announcement he, Bool.or_true]
  rw [entriesOf, List.filter_append, all, List.map_append]
  rfl

/-- A step of an announcement leads to its level line: the other steps due stand in between, with
    the same name and the same second counter. -/
theorem leadsToLevel_of_step (hide : Bool) (text : String) {d after : Depths} {decision : Decision}
    (h : d.step .all = (some decision, after)) (offset : Nat) (entries : List Entry) :
    (entryOf ⟨hide, true⟩ text
        ⟨⟨.boundary decision.boundary, .point offset⟩, some decision, after⟩).LeadsToLevel
      ((Tokenizer.announcement offset after).map (entryOf ⟨hide, true⟩ text) ++ entries) := by
  obtain ⟨run, level, he, hrun, hk, hd⟩ := Tokenizer.announcement_run h offset
  refine ⟨after.target.toNat, run.map (entryOf ⟨hide, true⟩ text), entryOf ⟨hide, true⟩ text level,
    entries, ?_, ?_, hk, ?_⟩
  · rw [he, List.map_append, List.append_assoc]
    rfl
  · intro step hm
    rcases List.mem_cons.mp hm with rfl | hm
    · exact ⟨rfl, _, rfl⟩
    · obtain ⟨e, inside, rfl⟩ := List.mem_map.mp hm
      obtain ⟨kind, target⟩ := hrun e inside
      refine ⟨kind, e.depths.current.toNat, ?_⟩
      rw [← target]
      rfl
  · show some (level.depths.current.toNat, level.depths.target.toNat) = _
    rw [hd]

/-- An announcement in front of lines that replay from the depth announced replays from the depth in
    front of it, step by step. -/
theorem Replays.announcement {hide : Bool} {text : String} {entries : List Entry} (offset : Nat)
    (d : Depths) (later : Replays d.target.toNat entries) :
    Replays d.current.toNat
      ((Tokenizer.announcement offset d).map (entryOf ⟨hide, true⟩ text) ++ entries) := by
  fun_induction Tokenizer.announcement offset d with
  | case1 d decision after h _ ih =>
    -- behind a step the rest is an announcement from the depth after it, with the same target
    have leads := leadsToLevel_of_step hide text h offset entries
    rw [← Depths.target_of_step h] at later
    rcases Depths.step_cases .all d with ⟨_, hlt, hs⟩ | ⟨_, hlt, hs⟩ | ⟨_, _, hs⟩ <;>
      rw [hs] at h <;> cases h
    · have one := Depths.toNat_current_succ hlt
      refine .cons rfl ?_ ?_ (fun _ => leads) (ih later)
      · show (d.current + 1).toNat + 0 = d.current.toNat + 1
        omega
      · intro step
        exact absurd (.inl rfl) step
    · have one := Depths.toNat_current_pred hlt
      have positive := UInt16.lt_iff_toNat_lt.mp hlt
      refine .cons rfl ?_ ?_ (fun _ => leads) (ih later)
      · show (d.current - 1).toNat + 1 = d.current.toNat + 0
        omega
      · intro step
        exact absurd (.inr rfl) step
  | case2 d _ h =>
    have reached : d.current = d.target := Depths.step_all_eq_none_iff.mp (by rw [h])
    have here : d.current.toNat = d.target.toNat := by rw [reached]
    refine .cons rfl rfl (fun _ => here) ?_ (here ▸ later)
    rintro (step | step) <;> cases step

/-- The line of a piece of text leaves the counters as they are, so it makes no difference whether
    it is shown. -/
theorem Replays.text {hide : Bool} {text : String} {es : List Emission} {e : Emission} {c : UInt16}
    (hk : e.token.kind.isStructural = false) (hd : e.depths = ⟨c, c⟩)
    (later : Replays c.toNat (entriesOf hide text es)) :
    Replays c.toNat (entriesOf hide text (e :: es)) := by
  have other (b : Boundary) : (e.token.kind == .boundary b) = false := by
    rw [beq_eq_false_iff_ne]
    intro h
    rw [h] at hk
    cases hk
  -- the line stands for no boundary, so no count changes
  have none_counted (b : Boundary) : countOf b [entryOf ⟨hide, true⟩ text e] = 0 := by
    show [entryOf ⟨hide, true⟩ text e].countP (·.token.kind == .boundary b) = 0
    rw [List.countP_singleton, if_neg]
    exact Bool.eq_false_iff.mp (other b)
  unfold entriesOf at later ⊢
  rw [List.filter_cons]
  split
  · have here : (entryOf ⟨hide, true⟩ text e).state? = some (c.toNat, c.toNat) := by
      show some (e.depths.current.toNat, e.depths.target.toNat) = _
      rw [hd]
    refine .cons here ?_ (fun _ => rfl) ?_ later
    · rw [none_counted, none_counted]
    · rintro (step | step)
      · have step : e.token.kind = .boundary .opening := step
        rw [step] at hk
        cases hk
      · have step : e.token.kind = .boundary .closing := step
        rw [step] at hk
        cases hk
  · exact later

/-- Along a stream the counters tell what the lines say, from the depth on at which the stream
    starts. -/
theorem replays_stream {hide : Bool} {text : String} {r : Reader} {c : UInt16} {awaits : Bool}
    {es : List Emission} {t : Tokenizer} (h : Tokenizer.Stream r c awaits es t) :
    Replays c.toNat (entriesOf hide text es) := by
  induction h with
  | finish => exact replays_nil _
  | @announce r c depth es t _ _ ih =>
    rw [entriesOf_announcement_append]
    exact Replays.announcement r.offset ⟨c, depth⟩ ih
  | comment _ _ _ _ ih => exact ih.text rfl rfl
  | content _ _ _ _ _ ih => exact ih.text rfl rfl

/-! ## Lines

  Whether a line is of text, and where its counters begin, has to be seen by the look of the line,
  since the quoted text in between can hold anything, brackets and names included. -/

/-- The lines of content and comments are told from the others by the names in front, which the
    quoted text does not reach. -/
theorem isTextLine_line (hidden : Char → Bool) (options : Options) (text : String) (e : Emission) :
    isTextLine (line hidden options text.toByteArray e) = !e.token.kind.isStructural := by
  rw [isTextLine, line_eq, readKind_padded]
  rfl

/-- The counters are got off a line by the last bracket that opens: none stands within the
    counters. -/
theorem dropState_append (l : List Char) (d : Depths) :
    dropState (l ++ ' ' :: (stateText d).toList) = l := by
  have digit (n : Nat) : ∀ c ∈ Nat.toDigits 10 n, (c != '[') = true := by
    intro c hc
    rw [bne_iff_ne]
    rintro rfl
    exact notMem_toDigits rfl n hc
  have fields : ' ' :: (stateText d).toList =
      ' ' :: '[' :: (Nat.toDigits 10 d.current.toNat ++ '/' ::
        (Nat.toDigits 10 d.target.toNat ++ [']'])) := by
    simp [stateText]
  -- so the first bracket from the end of the line is the one that opens the counters
  have inner : ∀ c ∈ (Nat.toDigits 10 d.current.toNat ++ '/' ::
      (Nat.toDigits 10 d.target.toNat ++ [']'])).reverse, (c != '[') = true := by
    intro c hc
    rw [List.mem_reverse, List.mem_append, List.mem_cons, List.mem_append, List.mem_singleton] at hc
    rcases hc with hc | rfl | hc | rfl
    · exact digit _ c hc
    · decide
    · exact digit _ c hc
    · decide
  rw [dropState, fields, List.reverse_append, List.reverse_cons, List.reverse_cons,
    List.append_assoc, List.append_assoc, List.dropWhile_append_of_pos inner]
  show (('[' :: ' ' :: l.reverse).drop 2).reverse = l
  exact List.reverse_reverse l

/-- A line with counters is the same line without them, a space, and the counters. -/
theorem line_append_stateText (hidden : Char → Bool) (hide : Bool) (text : String) (e : Emission) :
    line hidden ⟨hide, true⟩ text.toByteArray e =
      line hidden ⟨hide, false⟩ text.toByteArray e ++ ' ' :: (stateText e.depths).toList := by
  simp [line]

end Dump

/-- **The counters replay the dump.**  With or without the lines of text, the counters on the lines
    of a dump tell what the lines say: the first is the number of blocks opened so far less those
    closed; both are equal except on a step; and along a run of steps the second stays the same, and
    is what both are on the level line at the end of the run.  The dump without the lines of text is
    the dump with them, less these lines; and the dump without counters is the dump with them, less
    the counters on each line. -/
theorem render_replays (hide showState : Bool) (text : String) :
    (∃ entries, (Dump.linesOf (Dump.render ⟨hide, true⟩ text)).map (Dump.readLine true) =
        entries.map some ∧ Dump.Replays 0 entries) ∧
    Dump.render ⟨true, showState⟩ text = Dump.joinLines
      ((Dump.linesOf (Dump.render ⟨false, showState⟩ text)).filter (!Dump.isTextLine ·)) ∧
    Dump.render ⟨hide, false⟩ text = Dump.joinLines
      ((Dump.linesOf (Dump.render ⟨hide, true⟩ text)).map Dump.dropState) := by
  refine ⟨⟨Dump.entriesOf hide text (emissions text), ?_, ?_⟩, ?_, ?_⟩
  · rw [Dump.render, Dump.linesOf_renderHiding, Dump.lines, Dump.entriesOf, List.map_map,
      List.map_map]
    refine List.map_congr_left ?_
    intro e _
    exact Dump.readLine_line Text.isUnprintable ⟨hide, true⟩ text e
  · exact Dump.replays_stream (Tokenizer.stream_emissions text)
  · rw [Dump.render, Dump.render, Dump.linesOf_renderHiding, Dump.renderHiding, Dump.lines,
      Dump.lines, List.filter_map, List.filter_filter]
    congr 2
    refine List.filter_congr ?_
    intro e _
    simp [Dump.shows, Dump.isTextLine_line]
  · rw [Dump.render, Dump.render, Dump.linesOf_renderHiding, Dump.renderHiding, Dump.lines,
      Dump.lines, List.map_map]
    congr 1
    refine List.map_congr_left ?_
    intro e _
    rw [Function.comp_apply, Dump.line_append_stateText, Dump.dropState_append]

end Offside

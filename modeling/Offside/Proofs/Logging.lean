/-
  A log does not disturb the run that it tells of.

  1. **Two runs** — a writer decides which records stand between the other notices of a run, and how
     they are worded, and nothing else: a run less its records is the run without a filter
     (`withoutLog_runWith`).  What stands in the log is what the writer made of a record
     (`eq_record_of_mem_runWith`), so what was shown of such lines (`Log.readDecision_line`) holds
     of it.
  2. **Scans** — a call of the stream makes one scan at most, and what that decides is the token of
     the call (`scanned?_eq`).  So no decision is thrown away, and no structural token is without
     one.
  3. **Decisions** — along a stream a decision tells the counters that its token leaves, which are
     the blocks opened so far less those closed (`depth_emissions`).

  The log is raised within the scan, and the dump is made of the tokens, so the two could differ: a
  scan could decide and its decision be thrown away, or a token come about without a scan.  That
  neither happens is the second part.  The third is about the order: the `n`-th token is looked at
  together with the counters behind the `n`-th call.
-/
import Offside.Command.Program
import Offside.Proofs.Counters
import Offside.Proofs.LogLines

namespace Offside

/-! ## Two runs

  The two runs compared have the same arguments and the same files, and differ in the writer.
  Nothing but the notices of a listing depends on it, and of these only the records. -/

namespace Command

/-- Notices of events are records, so nothing is left of them without the log. -/
theorem filter_noted (writer : Log.Writer) (path : String) (events : List Log.Event) :
    (noted writer path events).filter (!·.isRecord) = [] := by
  rw [noted, List.filter_map, List.map_eq_nil_iff, List.filter_eq_nil_iff]
  intro r _
  exact Bool.false_ne_true

/-- Warnings are no records, so all of them are left without the log. -/
theorem filter_map_warning (path : String) (flaws : List Source.Flaw) :
    (flaws.map (Notice.warning path)).filter (!·.isRecord) = flaws.map (Notice.warning path) := by
  rw [List.filter_eq_self]
  intro n hn
  obtain ⟨flaw, _, rfl⟩ := List.mem_map.mp hn
  rfl

/-- Nothing is noted of any events where the filter has no directive. -/
theorem noted_nil (path : String) (events : List Log.Event) :
    noted (Log.Filter.writer []) path events = [] := by
  rw [noted, Log.Filter.records_nil, List.map_nil]

/-- A listing less its records is the listing without a filter: the warnings are left, in their
    order. -/
theorem withoutLog_listWith (writer : Log.Writer) (request : Request) (text : String) :
    (listWith writer request text).withoutLog = list [] request text := by
  simp only [list, listWith, Outcome.withoutLog, List.filter_append, filter_noted,
    filter_map_warning, noted_nil]

/-- **A run less its log is the run without a filter.**  Only a listing has a log, and there the
    records stand between notices that are the same for every writer. -/
theorem withoutLog_runWith (writer : Log.Writer) (read : String → Except ReadError ByteArray)
    (words : List String) : (runWith writer read words).withoutLog = run [] read words := by
  unfold run runWith
  split
  · rfl
  · rfl
  · rfl
  · split
    · rfl
    · exact withoutLog_listWith writer _ _

/-- A notice of some events is the record of one of them, with the line that the writer made of
    it. -/
theorem mem_noted {writer : Log.Writer} {path : String} {events : List Log.Event} {n : Notice}
    (h : n ∈ noted writer path events) :
    ∃ r, n = .record r (writer.line r) ∧ r.event ∈ events := by
  obtain ⟨r, hr, rfl⟩ := List.mem_map.mp h
  obtain ⟨e, he, rfl⟩ := List.mem_map.mp hr
  exact ⟨_, rfl, (List.mem_filter.mp he).1⟩

/-- What stands in the log of a run is what its writer made of a record, and nothing else. -/
theorem eq_record_of_mem_runWith {writer : Log.Writer}
    {read : String → Except ReadError ByteArray} {words : List String} {n : Notice}
    (hn : n ∈ (runWith writer read words).notices) (hr : n.isRecord = true) :
    ∃ r, n = .record r (writer.line r) := by
  -- a run that failed has one notice, which is no record
  have failed (cause : Failure) (h : n ∈ (Outcome.failed cause).notices) :
      ∃ r, n = .record r (writer.line r) := by
    rw [List.mem_singleton.mp h] at hr
    cases hr
  unfold runWith at hn
  split at hn
  · exact failed _ hn
  · cases hn
  · cases hn
  · split at hn
    · exact failed _ hn
    · rcases List.mem_append.mp hn with hn | hn
      · rcases List.mem_append.mp hn with hn | hn
        · obtain ⟨r, same, _⟩ := mem_noted hn
          exact ⟨r, same⟩
        · obtain ⟨flaw, _, rfl⟩ := List.mem_map.mp hn
          cases hr
      · obtain ⟨r, same, _⟩ := mem_noted hn
        exact ⟨r, same⟩

end Command

/-! ## Scans

  `scanned?` looks at a state of the tokenizer from outside and says what the scan of the next call
  will decide, if the call comes to make one.  A call makes none when the stream has ended and when
  a level token waits for its content, for then no boundary is allowed. -/

namespace Tokenizer

/-- What the scan of the next call decides, if that call makes a scan: the stream has not ended, and
    some boundary is allowed. -/
def scanned? (t : Tokenizer) : Option Decision :=
  if t.finished || t.allowed.isEmpty then none
  else (t.depths.scan t.allowed (Probe.start t.reader)).decision?

/-- A piece of text, or the end of the stream, comes without a decision. -/
theorem decision?_ordinary (t : Tokenizer) : t.ordinary.1.bind (·.decision?) = none := by
  unfold ordinary
  dsimp only
  split
  · rfl
  · split <;> rfl

/-- The structural token of a call is what its scan decides, if one is made: none is where no
    boundary is allowed. -/
theorem decision?_structural (t : Tokenizer) :
    t.structural.1.bind (·.decision?) =
      if t.allowed.isEmpty then none
      else (t.depths.scan t.allowed (Probe.start t.reader)).decision? := by
  unfold structural
  dsimp only
  split
  · rfl
  · split
    · next h => rw [h]; rfl
    · next h => rw [h]; rfl

/-- **What a scan decides is the token of its call**, and no other token has a decision. -/
theorem scanned?_eq (t : Tokenizer) : t.scanned? = t.next.1.bind (·.decision?) := by
  have here := decision?_structural t
  unfold scanned? next
  by_cases hf : t.finished = true
  · rw [hf, if_pos rfl, Bool.true_or, if_pos rfl]
    rfl
  · rw [Bool.not_eq_true] at hf
    rw [hf, Bool.false_or, ← here, if_neg Bool.false_ne_true]
    match t.structural with
    | (some e, after) => rfl
    | (none, after) =>
      have text := decision?_ordinary after
      dsimp only
      match ho : after.ordinary with
      | (some e, last) =>
        rw [ho] at text
        exact text.symm
      | (none, last) => rfl

/-- To look up the values of a list at all its indices, and at one index behind them, is to take the
    values of the list. -/
theorem filterMap_range_getElem? {α β : Type} (f : α → Option β) (xs : List α) :
    (List.range (xs.length + 1)).filterMap (fun n => xs[n]?.bind f) = xs.filterMap f := by
  induction xs with
  | nil => rfl
  | cons x xs ih =>
    rw [List.length_cons, List.range_succ_eq_map, List.filterMap_cons, List.filterMap_map,
      List.filterMap_cons, ← ih]
    rfl

/-- The decisions of the tokens of a text are those of all scans that its stream makes, up to the
    call that finds no more tokens. -/
theorem decisions_emissions (text : String) :
    (emissions text).filterMap (·.decision?) =
      (List.range ((tokenize text).length + 1)).filterMap fun n =>
        ((start text).advance n).scanned? := by
  rw [tokenize, List.length_map, ← filterMap_range_getElem?]
  refine List.filterMap_congr ?_
  intro n _
  rw [scanned?_eq, next_advance]
  rfl

end Tokenizer

/-! ## Decisions

  The decision of a token is kept with it, so that what the two say can be compared.  Boundaries are
  made from decisions, and so agree with them by construction; that the depth of a level is the
  number of blocks opened less those closed is a fact about the stream up to there, and is taken
  from the lines of a dump with counters, for which it was shown. -/

/-- A token comes with the decision behind it if it is structural, and the decision tells of the
    counters after it. -/
def Emission.Agrees (e : Emission) : Prop :=
  match e.decision? with
  | none => e.token.kind.isStructural = false
  | some (.opening after) => e.token.kind = .boundary .opening ∧ after = e.depths
  | some (.closing after) => e.token.kind = .boundary .closing ∧ after = e.depths
  | some (.level depth) => e.token.kind = .boundary .level ∧ depth = e.depths.current

namespace Tokenizer

/-- The tokens of an announcement agree with their decisions.  An announcement ends with a level
    when no step is left, and then both counters are equal. -/
theorem agrees_announcement {offset : Nat} {d : Depths} {e : Emission}
    (he : e ∈ announcement offset d) : e.Agrees := by
  fun_induction announcement offset d with
  | case1 d decision after h _ ih =>
    rcases List.mem_cons.mp he with rfl | he
    · rcases Depths.step_cases .all d with ⟨_, _, hs⟩ | ⟨_, _, hs⟩ | ⟨_, _, hs⟩ <;>
        rw [hs] at h <;> cases h <;> exact ⟨rfl, rfl⟩
    · exact ih he
  | case2 d _ h =>
    have reached : d.current = d.target := Depths.step_all_eq_none_iff.mp (by rw [h])
    rw [List.mem_singleton] at he
    subst he
    exact ⟨rfl, reached.symm⟩

/-- All tokens of a stream agree with their decisions: those of announcements do, and a piece of
    text has no decision and is not structural. -/
theorem Stream.agrees {r : Reader} {c : UInt16} {awaits : Bool} {es : List Emission}
    {t : Tokenizer} (h : Stream r c awaits es t) {e : Emission} (he : e ∈ es) : e.Agrees := by
  induction h with
  | finish => cases he
  | announce _ _ ih =>
    rcases List.mem_append.mp he with he | he
    · exact agrees_announcement he
    · exact ih he
  | comment _ _ _ _ ih | content _ _ _ _ _ ih =>
    rcases List.mem_cons.mp he with rfl | he
    · rfl
    · exact ih he

/-- At a token the depth is the number of blocks opened less those closed, the token itself counted
    in. -/
theorem depth_emissions {text : String} {n : Nat} {e : Emission}
    (he : (emissions text)[n]? = some e) :
    e.depths.current.toNat +
        ((tokenize text).take (n + 1)).countP (·.kind == .boundary .closing) =
      ((tokenize text).take (n + 1)).countP (·.kind == .boundary .opening) := by
  -- a dump with all lines and the counters has a line for each token
  have all : Dump.entriesOf false text (emissions text) =
      (emissions text).map (Dump.entryOf ⟨false, true⟩ text) := by
    rw [Dump.entriesOf, List.filter_eq_self.mpr]
    intro e _
    rfl
  have replays : Dump.Replays 0 (Dump.entriesOf false text (emissions text)) :=
    Dump.replays_stream (stream_emissions text)
  rw [all] at replays
  generalize hes : (emissions text).map (Dump.entryOf ⟨false, true⟩ text) = entries at replays
  have front : entries.take n ++ [Dump.entryOf ⟨false, true⟩ text e] = entries.take (n + 1) := by
    rw [List.take_add_one, ← hes, List.getElem?_map, he]
    rfl
  have count (b : Boundary) : Dump.countOf b (entries.take (n + 1)) =
      ((tokenize text).take (n + 1)).countP (·.kind == .boundary b) := by
    rw [← hes, tokenize, ← List.map_take, ← List.map_take, Dump.countOf, List.countP_map,
      List.countP_map]
    rfl
  obtain ⟨current, target, hs, sum⟩ := replays.counted (entries.take n)
    (Dump.entryOf ⟨false, true⟩ text e) (entries.drop (n + 1)) (by
      rw [← List.singleton_append, ← List.append_assoc, front, List.take_append_drop])
  rw [front, count, count, Nat.zero_add] at sum
  cases hs
  exact sum

end Tokenizer

/-- What a decision in the log of a text says of the `n`-th token: that it is structural, of which
    kind it is, and the counters of the stream after it or, in front of a line, the number of blocks
    opened so far less those closed. -/
def Decision.Mirrors (text : String) (decision : Decision) (t : Token) (n : Nat) : Prop :=
  t.kind = .boundary decision.boundary ∧
  match decision with
  | .opening after | .closing after => after = ((Tokenizer.start text).advance (n + 1)).depths
  | .level depth =>
    depth.toNat + ((tokenize text).take (n + 1)).countP (·.kind == .boundary .closing) =
      ((tokenize text).take (n + 1)).countP (·.kind == .boundary .opening)

/-- The structural tokens of a text, each with its place among all tokens. -/
def structuralTokens (text : String) : List (Token × Nat) :=
  (tokenize text).zipIdx.filter (·.1.kind.isStructural)

/-- The decision of the token at an index tells of this token.  Its boundary is the kind of the
    token; a step tells the counters after the call that gave the token, and a level how many blocks
    are open. -/
theorem Decision.mirrors {text : String} {n : Nat} {e : Emission} {decision : Decision}
    (he : (emissions text)[n]? = some e) (hd : e.decision? = some decision) :
    decision.Mirrors text e.token n := by
  have agrees := (Tokenizer.stream_emissions text).agrees (List.mem_of_getElem? he)
  have after : ((Tokenizer.start text).advance (n + 1)).depths = e.depths := by
    rw [Tokenizer.advance_succ]
    exact Tokenizer.depths_next ((Tokenizer.next_advance n (.start text)).trans he)
  have depth := Tokenizer.depth_emissions he
  unfold Emission.Agrees at agrees
  rw [hd] at agrees
  match decision with
  | .opening d | .closing d => exact ⟨agrees.1, agrees.2.trans after.symm⟩
  | .level d =>
    refine ⟨agrees.1, ?_⟩
    rw [agrees.2]
    exact depth

/-- Of two lists made from one, by whether its elements have a value and by whether they pass a
    test, the elements go together if those that have one pass. -/
theorem forall₂_filterMap_filter {α β γ : Type} {R : β → γ → Prop} {f : α → Option β} {g : α → γ}
    {p : γ → Bool} {xs : List α} (h : ∀ x ∈ xs, (f x = none ∧ p (g x) = false) ∨
      ∃ y, f x = some y ∧ p (g x) = true ∧ R y (g x)) :
    List.Forall₂ R (xs.filterMap f) ((xs.map g).filter p) := by
  induction xs with
  | nil => exact .nil
  | cons x xs ih =>
    have later := ih fun x' hx => h x' (List.mem_cons_of_mem x hx)
    rw [List.map_cons]
    rcases h x List.mem_cons_self with ⟨hf, hp⟩ | ⟨y, hf, hp, hr⟩
    · rw [List.filterMap_cons_none hf, List.filter_cons_of_neg (Bool.eq_false_iff.mp hp)]
      exact later
    · rw [List.filterMap_cons_some hf, List.filter_cons_of_pos hp]
      exact .cons hr later

/-- The decisions of a text and its structural tokens go together, one by one. -/
theorem forall₂_mirrors (text : String) :
    List.Forall₂ (fun decision found => decision.Mirrors text found.1 found.2)
      ((emissions text).filterMap (·.decision?)) (structuralTokens text) := by
  have decisions : (emissions text).filterMap (·.decision?) =
      (emissions text).zipIdx.filterMap (·.1.decision?) := by
    conv_lhs => rw [← List.zipIdx_map_fst 0 (emissions text)]
    rw [List.filterMap_map]
    rfl
  rw [decisions, structuralTokens, tokenize, List.zipIdx_map]
  refine forall₂_filterMap_filter ?_
  rintro ⟨e, n⟩ hm
  have he : (emissions text)[n]? = some e := List.mk_mem_zipIdx_iff_getElem?.mp hm
  have agrees := (Tokenizer.stream_emissions text).agrees (List.mem_of_getElem? he)
  -- a token without a decision is not structural, and one with a decision is
  cases hd : e.decision? with
  | none =>
    unfold Emission.Agrees at agrees
    rw [hd] at agrees
    exact .inl ⟨rfl, agrees⟩
  | some decision =>
    have mirrors := Decision.mirrors he hd
    refine .inr ⟨decision, rfl, ?_, mirrors⟩
    show e.token.kind.isStructural = true
    rw [mirrors.1]
    rfl

/-! ## The log of a run

  What is noted of a listing is put together from three lists, of which only the last has decisions
  in it.  If the writer lets them through, they are the decisions of all tokens. -/

namespace Command

/-- Where a writer lets decisions through, what is noted of them is all of them, in their order. -/
theorem decisions_noted {writer : Log.Writer} (h : writer.enables Log.scanTarget .trace = true)
    (path : String) (decisions : List Decision) :
    (noted writer path (decisions.map .decided)).filterMap Notice.decision? = decisions := by
  have all : (decisions.map Log.Event.decided).filter (fun e => writer.enables e.target e.level) =
      decisions.map .decided := by
    rw [List.filter_eq_self]
    intro e he
    obtain ⟨decision, _, rfl⟩ := List.mem_map.mp he
    exact h
  rw [noted, Log.Writer.records, all, List.map_map, List.map_map, List.filterMap_map]
  exact List.filterMap_some

/-- The decisions in the log of a listing are those that the tokens of the text come with: neither
    what was read nor a warning tells of one. -/
theorem decisions_listWith {writer : Log.Writer} (h : writer.enables Log.scanTarget .trace = true)
    (request : Request) (text : String) :
    (listWith writer request text).decisions = (emissions text).filterMap (·.decision?) := by
  have size : (noted writer request.path [.sourceRead text.utf8ByteSize]).filterMap
      Notice.decision? = [] := by
    rw [List.filterMap_eq_nil_iff]
    intro n hn
    obtain ⟨r, rfl, he⟩ := mem_noted hn
    show r.event.decision? = none
    rw [List.mem_singleton.mp he]
    rfl
  have warnings : ((Source.flaws text).map (Notice.warning request.path)).filterMap
      Notice.decision? = [] := by
    rw [List.filterMap_eq_nil_iff]
    intro n hn
    obtain ⟨flaw, _, rfl⟩ := List.mem_map.mp hn
    rfl
  simp only [listWith, Outcome.decisions, List.filterMap_append, size, warnings, List.nil_append,
    decisions_noted h]

end Command

end Offside

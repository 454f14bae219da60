/-
  The token that a probe finishes, whatever was asked of it.

  A probe is asked by its owner to take characters, to skip characters, and to mark the end of the
  token, in any order and any number.  The owner is not known here.  So what a probe does is told
  for each list of calls, a history, and the answer is given in terms of the history alone.

  1. **One call more** — what a probe has kept after a history is told by the history alone
     (`Probe.Asked`), and each kind of call keeps it so (`Asked.ask`).  The induction is from the
     end of the history, one call more at a time.
  2. **In order** — a reader that passes more characters is not further back.  So the token starts
     and ends between the place where the probe left and the place where it is, and the start is
     never behind the end, since it is put back to the end if the history has led past it.
  3. **Tokens in a row** — each starts at or behind the end of the one before, because each probe
     leaves from where the one before has finished.
-/
import Offside.Layout.History
import Offside.Proofs.Pointers

namespace Offside

/-! ## One call more

  A probe keeps three things: where it is, where the token starts, and where the end was marked
  last, if it was.  In terms of the history, they are the characters passed by all calls, by the
  calls up to the last skip, and by the calls up to the last mark. -/

namespace History

variable {history : History} {call : Host.Call}

theorem upToLast_concat_self (call : Host.Call) (history : History) :
    upToLast call (history ++ [call]) = history ++ [call] := by
  apply List.rdropWhile_concat_neg
  simp

theorem upToLast_concat_of_ne {last : Host.Call} (h : last ≠ call) (history : History) :
    upToLast call (history ++ [last]) = upToLast call history := by
  apply List.rdropWhile_concat_pos
  simpa using h

theorem upToLast_prefix (call : Host.Call) (history : History) :
    upToLast call history <+: history := List.rdropWhile_prefix _ _

end History

namespace Reader

variable {r : Reader} {history : History}

theorem behind_concat_of_ne {call : Host.Call} (h : call ≠ .markEnd) (history : History)
    (r : Reader) : r.behind (history ++ [call]) = (r.behind history).stepChar := by
  have passes : (call != .markEnd) = true := by simpa using h
  rw [behind, List.countP_append, List.countP_singleton, if_pos passes, stepChars_succ]
  rfl

theorem behind_concat_markEnd (history : History) (r : Reader) :
    r.behind (history ++ [.markEnd]) = r.behind history := by
  rw [behind, List.countP_append]
  rfl

end Reader

namespace Probe

/-- A probe that left from a reader and was asked a history: where it is, where the token starts,
    and where the end was marked last. -/
structure Asked (r : Reader) (history : History) (p : Probe) : Prop where
  reader : p.reader = r.behind history
  tokenStart : p.tokenStart = r.tokenStart history
  marked : p.marked =
    if .markEnd ∈ history then some (r.behind (history.upToLast .markEnd)) else none

variable {r : Reader} {history : History} {p : Probe}

theorem asked_start (r : Reader) : Asked r [] (start r) := ⟨rfl, rfl, rfl⟩

/-- If a probe has been asked a history, it has been asked one call more after the call.  There is
    one case for each kind of call. -/
theorem Asked.ask (h : Asked r history p) (call : Host.Call) :
    Asked r (history ++ [call]) (Host.ask p call) := by
  cases call with
  | markEnd =>
    refine ⟨?_, ?_, ?_⟩
    · show p.reader = _
      rw [h.reader, Reader.behind_concat_markEnd]
    · show p.tokenStart = (r.behind _).offset
      rw [h.tokenStart, History.upToLast_concat_of_ne (by decide)]
      rfl
    · show some p.reader = _
      rw [if_pos (by simp), h.reader, History.upToLast_concat_self, Reader.behind_concat_markEnd]
  | skip =>
    have reader : p.reader.stepChar = r.behind (history ++ [.skip]) := by
      rw [h.reader, Reader.behind_concat_of_ne (by decide)]
    refine ⟨reader, ?_, ?_⟩
    · show p.reader.stepChar.offset = (r.behind _).offset
      rw [reader, History.upToLast_concat_self]
    · show p.marked = _
      rw [h.marked, History.upToLast_concat_of_ne (by decide)]
      simp
  | take =>
    refine ⟨?_, ?_, ?_⟩
    · show p.reader.stepChar = _
      rw [h.reader, Reader.behind_concat_of_ne (by decide)]
    · show p.tokenStart = (r.behind _).offset
      rw [h.tokenStart, History.upToLast_concat_of_ne (by decide)]
      rfl
    · show p.marked = _
      rw [h.marked, History.upToLast_concat_of_ne (by decide)]
      simp

/-- A probe that left from a reader and was asked all calls of a history has kept what the history
    tells. -/
theorem asked_askAll (r : Reader) (history : History) :
    Asked r history (Host.askAll (start r) history) := by
  induction history using List.reverseRecOn with
  | nil => exact asked_start r
  | append_singleton history call ih =>
    have later : Host.askAll (start r) (history ++ [call]) =
        Host.ask (Host.askAll (start r) history) call := List.foldl_concat ..
    rw [later]
    exact ih.ask call

end Probe

/-! ## In order

  Places are compared by how many characters are passed to get there, and a history passes no fewer
  than its front does. -/

namespace Reader

variable {text : String} {r : Reader} {history front : History}

theorem stepChars_add (m n : Nat) (r : Reader) :
    r.stepChars (m + n) = (r.stepChars m).stepChars n := by
  induction n with
  | zero => rfl
  | succ n ih =>
    show r.stepChars (m + n + 1) = _
    rw [stepChars_succ, stepChars_succ, ih]

theorem offset_le_stepChars (n : Nat) (r : Reader) : r.offset ≤ (r.stepChars n).offset := by
  induction n with
  | zero => exact Nat.le_refl _
  | succ n ih =>
    rw [stepChars_succ]
    exact Nat.le_trans ih (offset_le_stepChar _)

theorem At.stepChars (h : r.At text) (n : Nat) : (r.stepChars n).At text := by
  induction n with
  | zero => exact h
  | succ n ih =>
    rw [stepChars_succ]
    exact ih.steps _

/-- Behind the front of a history a reader is not further on than behind the whole of it. -/
theorem offset_behind_le (h : front <+: history) (r : Reader) :
    (r.behind front).offset ≤ (r.behind history).offset := by
  obtain ⟨later, rfl⟩ := h
  rw [behind, behind, List.countP_append, stepChars_add]
  exact offset_le_stepChars ..

/-- A token does not start in front of the place where the probe left. -/
theorem le_tokenStart (history : History) (r : Reader) : r.offset ≤ r.tokenStart history :=
  offset_le_stepChars ..

theorem le_tokenEnd (history : History) (r : Reader) : r.offset ≤ (r.tokenEnd history).offset := by
  unfold tokenEnd
  split <;> exact offset_le_stepChars ..

/-- A token does not end behind the place where the probe is. -/
theorem tokenEnd_le (history : History) (r : Reader) :
    (r.tokenEnd history).offset ≤ (r.behind history).offset := by
  unfold tokenEnd
  split
  · exact offset_behind_le (history.upToLast_prefix .markEnd) r
  · exact Nat.le_refl _

/-- The place where a token ends is a place in the text. -/
theorem At.tokenEnd (h : r.At text) (history : History) : (r.tokenEnd history).At text := by
  unfold Reader.tokenEnd
  split <;> exact h.stepChars _

end Reader

namespace Probe

/-- The span of a token, and the reader with which the text goes on, are told by the history: the
    token ends where the end was marked last, or where the probe is, and starts behind the last
    character skipped, unless that is behind its end. -/
theorem finish_askAll (r : Reader) (history : History) :
    (Host.askAll (start r) history).finish =
      (⟨min (r.tokenStart history) (r.tokenEnd history).offset, (r.tokenEnd history).offset⟩,
        r.tokenEnd history) := by
  have asked := asked_askAll r history
  have stop : (Host.askAll (start r) history).marked.getD (Host.askAll (start r) history).reader =
      r.tokenEnd history := by
    rw [asked.marked, asked.reader, Reader.tokenEnd]
    split <;> rfl
  rw [finish, stop, asked.tokenStart]

/-! ## Tokens in a row

  The probes of `spansFrom` leave one after another, each from where the text goes on behind the
  token of the one before.  The induction is on the list of histories, with the place as its
  parameter. -/

variable {text : String} {r : Reader}

/-- Each token lies behind the place where the first probe left, has its ends in order, and lies in
    the text. -/
theorem within_spansFrom (h : r.At text) (histories : List History) :
    ∀ s ∈ spansFrom r histories,
      r.offset ≤ s.start ∧ s.start ≤ s.stop ∧ s.stop ≤ (Source.bytes text).length := by
  induction histories generalizing r with
  | nil =>
    intro s hs
    exact absurd hs List.not_mem_nil
  | cons history histories ih =>
    intro s hs
    have start := r.le_tokenStart history
    have stop := r.le_tokenEnd history
    rw [spansFrom, finish_askAll] at hs
    rcases List.mem_cons.mp hs with rfl | later
    · refine ⟨?_, Nat.min_le_right .., (h.tokenEnd history).le⟩
      show r.offset ≤ min _ _
      omega
    · obtain ⟨front, order, back⟩ := ih (h.tokenEnd history) s later
      exact ⟨Nat.le_trans stop front, order, back⟩

/-- Of two tokens the later one starts at or behind the end of the earlier one. -/
theorem pairwise_spansFrom (h : r.At text) (histories : List History) :
    (spansFrom r histories).Pairwise fun s t => s.stop ≤ t.start := by
  induction histories generalizing r with
  | nil => exact List.Pairwise.nil
  | cons history histories ih =>
    rw [spansFrom, finish_askAll]
    apply List.pairwise_cons.mpr
    constructor
    · intro t ht
      exact (within_spansFrom (h.tokenEnd history) histories t ht).1
    · exact ih (h.tokenEnd history)

end Probe

/-- **The token of a history.**  A probe leaves from any byte of a text and is asked anything in any
    order.  Then the text goes on from the reader that stood where the end was marked last, or from
    where the probe is if it was not marked.  The token ends there.  It starts behind the last
    character in front of it, or where the probe left if there is none, but not behind its end.  So
    start, end and probe are in order and in the text; and tokens that are read in a row, each with
    a history of its own and each from the end of the one before, follow each other without
    overlap. -/
theorem finish_history (text : String) (offset : Nat) (h : offset ≤ (Source.bytes text).length)
    (history : History) (histories : List History) :
    let place := (Reader.start text).steps offset
    let probe := Host.askAll (Probe.start place) history
    let span := probe.finish.1
    let stop := probe.finish.2
    (place.offset = offset ∧ probe.reader = place.behind history) ∧
    (stop = place.tokenEnd history ∧ stop.column = Source.column text stop.offset) ∧
    (span.stop = stop.offset ∧ span.start = min (place.tokenStart history) span.stop) ∧
    (offset ≤ span.start ∧ span.start ≤ span.stop ∧ span.stop ≤ probe.reader.offset ∧
      probe.reader.offset ≤ (Source.bytes text).length) ∧
    ((Probe.spansFrom place histories).Pairwise fun s t => s.stop ≤ t.start) ∧
    ∀ s ∈ Probe.spansFrom place histories,
      offset ≤ s.start ∧ s.start ≤ s.stop ∧ s.stop ≤ (Source.bytes text).length := by
  intro place probe span stop
  have inText : place.At text := (Reader.at_start text).steps offset
  have here : place.offset = offset := Reader.offset_steps_start h
  have reader : probe.reader = place.behind history := (Probe.asked_askAll place history).reader
  have finish := Probe.finish_askAll place history
  have spanIs : span = ⟨min (place.tokenStart history) (place.tokenEnd history).offset,
      (place.tokenEnd history).offset⟩ := congrArg Prod.fst finish
  have stopIs : stop = place.tokenEnd history := congrArg Prod.snd finish
  have start := place.le_tokenStart history
  have front := place.le_tokenEnd history
  have back := place.tokenEnd_le history
  have room : (place.behind history).offset ≤ (Source.bytes text).length := (inText.stepChars _).le
  refine ⟨⟨here, reader⟩, ⟨stopIs, ?_⟩, ⟨?_, ?_⟩, ?_, Probe.pairwise_spansFrom inText histories, ?_⟩
  · rw [stopIs]
    exact (inText.tokenEnd history).column_eq
  · rw [spanIs, stopIs]
  · rw [spanIs]
  · rw [spanIs, reader]
    refine ⟨?_, Nat.min_le_right .., back, room⟩
    show offset ≤ min _ _
    omega
  · rw [← here]
    exact Probe.within_spansFrom inText histories

/-- In a letter of two bytes: the probe skips its second byte, marks the end behind the letter that
    follows, and skips the line feed as well, so that the token is empty, and the next one starts
    from there. -/
theorem finish_history_letter :
    2 ≤ (Source.bytes "aéb\n\tc").length ∧
      let place := (Reader.start "aéb\n\tc").steps 2
      let marked : History := [.skip, .take, .markEnd, .skip]
      let spans := Probe.spansFrom place [marked, [.skip, .skip, .take]]
      (Host.askAll (Probe.start place) marked).finish.2 = place.tokenEnd marked ∧
        (place.tokenEnd marked).offset = 4 ∧ place.tokenStart marked = 5 ∧
        spans = [⟨4, 4⟩, ⟨6, 7⟩] ∧ ⟨6, 7⟩ ∈ spans ∧
        (spans.Pairwise fun s t => s.stop ≤ t.start) ∧ 2 ≤ (⟨6, 7⟩ : Span).start := by
  have within : 2 ≤ (Source.bytes "aéb\n\tc").length := by decide
  refine ⟨within, ?_⟩
  intro place marked spans
  obtain ⟨_, ⟨stop, _⟩, _, _, apart, inside⟩ :=
    finish_history "aéb\n\tc" 2 within marked [marked, [.skip, .skip, .take]]
  have read : spans = [⟨4, 4⟩, ⟨6, 7⟩] := by decide
  have second : ⟨6, 7⟩ ∈ spans := by
    rw [read]
    decide
  exact ⟨stop, by decide, by decide, read, second, apart, (inside ⟨6, 7⟩ second).1⟩

end Offside

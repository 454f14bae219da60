/-
  The tokenizer: the token stream of a source text.

  1. **One token** (`next`) — a structural token if the scan finds one at the place reached, else
     the next piece of text.  All three boundaries are allowed, except between a level token and the
     content that it announces: there none is.  Comments do not count as that content.
  2. **All tokens** (`drain`, `tokenize`) — `next` until nothing is left.  Structural tokens use up
     no text, so the bytes ahead alone do not bound the stream.  `work` does: it counts the bytes
     ahead, each worth more than any way between two depths, and then the steps that the scan still
     has to take at this place.
  3. **Bookmarks** — a place in the stream to which it can be taken back.  The counters travel in
     them as four bytes.
-/
import Offside.Layout.Probe
import Offside.Layout.Scan
import Offside.Layout.Snapshot
import Offside.Token
import Offside.Token.Lexeme

namespace Offside

/-- The state of a token stream: where it is, what the scan has counted, and two facts about the
    tokens produced so far.  All that the next token depends on is here, so a copy of it is a place
    to which the stream can be taken back. -/
structure Tokenizer where
  reader : Reader
  depths : Depths
  /-- A level token was produced, and no content since. -/
  awaitsContent : Bool
  /-- Nothing is left. -/
  finished : Bool
  deriving DecidableEq, Repr, Inhabited

/-- A token as it leaves the tokenizer: with the decision behind it if it is structural, and with
    the counters after it. -/
structure Emission where
  token : Token
  decision? : Option Decision
  depths : Depths
  deriving DecidableEq, Repr

namespace Tokenizer

/-- The tokenizer before a text. -/
def start (text : String) : Tokenizer := ⟨Reader.start text, .zero, false, false⟩

/-- The boundaries that may come next: all of them, or none while a level token waits for the
    content that it announces. -/
def allowed (t : Tokenizer) : Allowed := if t.awaitsContent then .none else .all

/-- The structural token at the place reached, if there is one.

    The scan reads ahead from this place, with the boundaries that are allowed.  What it finds has
    the span that it marked, and the counters are those of the scan also where it finds nothing. -/
def structural (t : Tokenizer) : Option Emission × Tokenizer :=
  if t.allowed.isEmpty then (none, t)
  else
    let scan := t.depths.scan t.allowed (Probe.start t.reader)
    match scan.decision? with
    | none => (none, { t with depths := scan.depths })
    | some decision =>
      let (span, reader) := scan.host.finish
      (some ⟨⟨.boundary decision.boundary, span⟩, some decision, scan.depths⟩,
        { t with
          reader := reader
          depths := scan.depths
          awaitsContent := decision.boundary == .level })

/-- The next piece of text: white space is passed over, then comes a comment or content.

    Only content ends the wait behind a level token; a comment leaves `awaitsContent` as it was.  At
    the end of the text there is no piece, but the white space in front of the end has been
    passed. -/
def ordinary (t : Tokenizer) : Option Emission × Tokenizer :=
  let front := t.reader.skipWhile Lexeme.isSpace
  if front.atEnd then (none, { t with reader := front })
  else if Lexeme.startsComment front.rest then
    let after := front.toLineEnd
    (some ⟨⟨.comment, ⟨front.offset, after.offset⟩⟩, none, t.depths⟩, { t with reader := after })
  else
    let after := Lexeme.passContent front
    (some ⟨⟨.content, ⟨front.offset, after.offset⟩⟩, none, t.depths⟩,
      { t with reader := after, awaitsContent := false })

/-- The next token, if one is left.  Structure is looked for first, text only where there is none.
    Once neither is found the stream is finished and stays so, whatever is asked of it later. -/
def next (t : Tokenizer) : Option Emission × Tokenizer :=
  if t.finished then (none, t)
  else
    match t.structural with
    | (some e, t) => (some e, t)
    | (none, t) =>
      match t.ordinary with
      | (some e, t) => (some e, t)
      | (none, t) => (none, { t with finished := true })

/-! ## The stream ends

  Each token has to be paid for by something that gets less.  A piece of text uses up bytes; a
  boundary uses up a step towards the target, or it is a level, behind which no boundary is allowed
  until content has come. -/

/-- The depth that a scan measures at a place, if it measures one. -/
def lineDepth? (r : Reader) : Option UInt16 :=
  (Scan.measure (Host.markEnd (Probe.start r))).1

/-- A bound on the tokens left: each byte ahead counts for more than two ways between any two
    depths, and to that come the steps that are left at this place. -/
def work (t : Tokenizer) : Nat :=
  131072 * t.reader.rest.length +
    if t.awaitsContent then 0
    else t.depths.distance ((lineDepth? t.reader).getD t.depths.target) + 1

/-- While a scan reads on, the end that was marked stays where it is. -/
theorem marked_measureFrom (fresh : Bool) (depth : UInt16) (p : Probe) :
    (Scan.measureFrom fresh depth p).2.marked = p.marked := by
  fun_induction Scan.measureFrom fresh depth p with
  | case1 => rfl
  | case2 _ _ _ _ _ ih => exact ih
  | case3 _ _ _ _ _ _ ih => exact ih
  | case4 _ _ _ _ _ _ _ ih => exact ih
  | case5 => rfl

/-- A scan ahead of a place ends where it began: what it has read is not taken off the text. -/
theorem finish_scan (d : Depths) (allowed : Allowed) (r : Reader) :
    (d.scan allowed (Probe.start r)).host.finish.2 = r := by
  have marked := marked_measureFrom (Host.column (Host.markEnd (Probe.start r)) == 0) 0
    (Host.markEnd (Probe.start r))
  unfold Depths.scan
  split
  · rfl
  · split
    · rfl
    · unfold Scan.measure
      split
      · next h =>
        rw [h] at marked
        simp_all [Probe.finish, Host.markEnd, Probe.markEnd, Probe.start]
      · next h =>
        rw [h] at marked
        split <;> simp_all [Probe.finish, Host.markEnd, Probe.markEnd, Probe.start]

/-- With everything allowed a scan takes a pending step; or else it finds the middle of a line and
    nothing, a line at the current depth, or a line at another depth, to which it takes a step. -/
theorem scan_all_cases (d : Depths) (r : Reader) :
    ((d.step .all).1.isSome = true ∧ (d.scan .all (Probe.start r)).decision? = (d.step .all).1 ∧
      (d.scan .all (Probe.start r)).depths = (d.step .all).2) ∨
    (d.current = d.target ∧ lineDepth? r = none ∧
      (d.scan .all (Probe.start r)).decision? = none ∧
      (d.scan .all (Probe.start r)).depths = d) ∨
    (d.current = d.target ∧ lineDepth? r = some d.current ∧
      (d.scan .all (Probe.start r)).decision? = some (.level d.current) ∧
      (d.scan .all (Probe.start r)).depths = d) ∨
    (∃ depth, d.current = d.target ∧ lineDepth? r = some depth ∧ depth ≠ d.current ∧
      (d.scan .all (Probe.start r)).decision? = (Depths.step .all ⟨d.current, depth⟩).1 ∧
      (d.scan .all (Probe.start r)).depths = (Depths.step .all ⟨d.current, depth⟩).2) := by
  unfold Depths.scan lineDepth?
  split
  · next decision after h => exact .inl (by simp [h])
  · next after h =>
    have reached : d.current = d.target := Depths.step_all_eq_none_iff.mp (by rw [h])
    simp only [show Allowed.all.isEmpty = false from rfl, Bool.false_eq_true, if_false]
    split
    · next h => exact .inr (.inl ⟨reached, by rw [h], rfl, rfl⟩)
    · next depth host h =>
      split
      · next he =>
        obtain ⟨_, rfl⟩ := he
        exact .inr (.inr (.inl ⟨reached, by rw [h], rfl, rfl⟩))
      · next hne =>
        exact .inr (.inr (.inr ⟨depth, reached, by rw [h],
          fun e => hne ⟨rfl, e⟩, rfl, rfl⟩))

/-- A structural token leaves less work: a step less to go, or no more boundaries at this place.
    The cases are those of `scan_all_cases`, of which the one that finds nothing does not arise. -/
theorem work_structural {t after : Tokenizer} {e : Emission}
    (h : t.structural = (some e, after)) : after.work < t.work := by
  unfold structural allowed at h
  by_cases ha : t.awaitsContent = true
  · simp [ha, Allowed.none, Allowed.isEmpty] at h
  · have here := finish_scan t.depths .all t.reader
    simp only [ha, Bool.false_eq_true, if_false, show Allowed.all.isEmpty = false from rfl] at h
    rcases scan_all_cases t.depths t.reader with ⟨hs, hd, hc⟩ | ⟨_, _, hd, _⟩ | ⟨heq, _, hd, hc⟩ |
      ⟨depth, heq, hm, hne, hd, hc⟩
    · rw [hd] at h
      obtain ⟨decision, hstep⟩ := Option.isSome_iff_exists.mp hs
      -- a pending step: the target stays, and the way to it is one step shorter
      have shorter := Depths.distance_step ((lineDepth? t.reader).getD t.depths.target) hs
      have target := Depths.target_step .all t.depths
      have notLevel := Depths.boundary_of_step_ne_level
        (Prod.ext hstep rfl : t.depths.step .all = (_, _))
      simp only [hstep, hc, here, Prod.mk.injEq] at h
      obtain ⟨_, rfl⟩ := h
      simp only [work, ha, notLevel, target, Bool.false_eq_true, if_false]
      omega
    · rw [hd] at h; simp at h
    · simp only [hd, here, Prod.mk.injEq] at h
      obtain ⟨_, rfl⟩ := h
      simp [work, ha, Decision.boundary]
    · rw [hd] at h
      have hs : (Depths.step .all ⟨t.depths.current, depth⟩).1.isSome = true := by
        rw [Option.isSome_iff_ne_none]
        exact fun hn => hne (Depths.step_all_eq_none_iff.mp hn).symm
      obtain ⟨decision, hstep⟩ := Option.isSome_iff_exists.mp hs
      -- a line at another depth: the way to it was counted before, and the first step is taken
      have shorter := Depths.distance_step depth hs
      have notLevel := Depths.boundary_of_step_ne_level
        (Prod.ext hstep rfl : Depths.step .all ⟨t.depths.current, depth⟩ = (_, _))
      simp only [hstep, hc, here, Prod.mk.injEq] at h
      obtain ⟨_, rfl⟩ := h
      have same : (Depths.distance ⟨t.depths.current, depth⟩ depth) = t.depths.distance depth := by
        simp only [Depths.distance, heq]; omega
      simp only [work, ha, notLevel, hm, Option.getD_some, Bool.false_eq_true, if_false]
      omega

/-- A piece of text leaves less of the text ahead: a comment has two slashes at least, and content
    one byte. -/
theorem rest_ordinary_lt {t after : Tokenizer} {e : Emission}
    (h : t.ordinary = (some e, after)) : after.reader.rest.length < t.reader.rest.length := by
  have front : (t.reader.skipWhile Lexeme.isSpace).rest = t.reader.rest.dropWhile Lexeme.isSpace :=
    Reader.rest_skipWhile ..
  have shorter := (List.dropWhile_suffix (l := t.reader.rest) Lexeme.isSpace).length_le
  unfold ordinary at h
  simp only [Reader.atEnd_iff] at h
  split at h
  · simp at h
  · next hne =>
    obtain ⟨b, bs, hbs⟩ := List.exists_cons_of_ne_nil hne
    have blank : Lexeme.isSpace b = false := by
      have := List.head_dropWhile_not Lexeme.isSpace (by rw [← front]; exact hne)
      simp only [← front, hbs] at this
      simpa using this
    split at h
    · next hc =>
      simp only [Prod.mk.injEq] at h
      obtain ⟨_, rfl⟩ := h
      rw [hbs] at hc
      obtain ⟨rfl, bs', rfl⟩ : b = 47 ∧ ∃ bs', bs = 47 :: bs' := by
        unfold Lexeme.startsComment at hc
        split at hc <;> simp_all
      -- the jump leads to the line feed, and neither slash is one
      have := (List.dropWhile_suffix (l := bs') (· != Reader.lineFeed)).length_le
      rw [← front, hbs] at shorter
      have jump : ((t.reader.skipWhile Lexeme.isSpace).toLineEnd).rest =
          (47 :: 47 :: bs').dropWhile (· != Reader.lineFeed) := by
        rw [← hbs]; rfl
      show ((t.reader.skipWhile Lexeme.isSpace).toLineEnd).rest.length < _
      rw [jump]
      have slash : ((47 : UInt8) != Reader.lineFeed) = true := rfl
      simp only [List.dropWhile_cons, slash, if_true]
      simp only [List.length_cons] at shorter
      omega
    · next hc =>
      simp only [Prod.mk.injEq] at h
      obtain ⟨_, rfl⟩ := h
      simp only [hbs, Bool.not_eq_true] at hc
      have less := Lexeme.rest_passContent_lt hbs blank hc
      rw [← front] at shorter
      exact Nat.lt_of_lt_of_le less shorter

/-- Every token leaves less work, so the stream comes to an end.  A boundary does so at its place; a
    piece of text uses up a byte, which outweighs any number of steps that the next place may ask
    for. -/
theorem work_next {t after : Tokenizer} {e : Emission} (h : t.next = (some e, after)) :
    after.work < t.work := by
  unfold next at h
  split at h
  · simp at h
  · split at h
    · next hs =>
      simp only [Prod.mk.injEq, Option.some.injEq] at h
      obtain ⟨rfl, rfl⟩ := h
      exact work_structural hs
    · next u hs =>
      split at h
      · next e' v ho =>
        simp only [Prod.mk.injEq, Option.some.injEq] at h
        obtain ⟨rfl, rfl⟩ := h
        have same : u.reader = t.reader := by
          unfold structural at hs
          split at hs
          · cases hs; rfl
          · simp only at hs
            split at hs
            · cases hs; rfl
            · simp at hs
        have less := rest_ordinary_lt ho
        rw [same] at less
        have bound := v.depths.distance_lt ((lineDepth? v.reader).getD v.depths.target)
        simp only [work]
        split <;> omega
      · simp at h

/-! ## All tokens

  Tokens are gathered in an array, from the front.  The lemmas take the first token off, which is
  the form in which later proofs use them. -/

/-- Takes all tokens that are left, after those already `taken`.  It ends because each token leaves
    less work than there was. -/
def drainOnto (taken : Array Emission) (t : Tokenizer) : Array Emission × Tokenizer :=
  match h : t.next with
  | (none, t) => (taken, t)
  | (some e, after) =>
    have := work_next h
    drainOnto (taken.push e) after
termination_by t.work

/-- All tokens that are left, and the tokenizer after the last of them. -/
def drain (t : Tokenizer) : List Emission × Tokenizer :=
  let all := drainOnto #[] t
  (all.1.toList, all.2)

/-- Takes up to `n` tokens, after those already `taken`. -/
def takeOnto (taken : Array Emission) : Nat → Tokenizer → Array Emission × Tokenizer
  | 0, t => (taken, t)
  | n + 1, t =>
    match t.next with
    | (none, t) => (taken, t)
    | (some e, after) => takeOnto (taken.push e) n after

/-- Up to `n` tokens, fewer if the stream ends, and the tokenizer after the last of them. -/
def take (n : Nat) (t : Tokenizer) : List Emission × Tokenizer :=
  let some := takeOnto #[] n t
  (some.1.toList, some.2)

theorem drainOnto_of_next_eq_none {t after : Tokenizer} (taken : Array Emission)
    (h : t.next = (none, after)) : drainOnto taken t = (taken, after) := by
  rw [drainOnto]; split <;> simp_all

theorem drainOnto_of_next_eq_some {t after : Tokenizer} {e : Emission} (taken : Array Emission)
    (h : t.next = (some e, after)) : drainOnto taken t = drainOnto (taken.push e) after := by
  rw [drainOnto]; split <;> simp_all

/-- What was taken before stays in front, and has no part in what is taken then. -/
theorem drainOnto_eq (taken : Array Emission) (t : Tokenizer) :
    drainOnto taken t = (taken ++ (drainOnto #[] t).1, (drainOnto #[] t).2) := by
  match h : t.next with
  | (none, after) => simp [drainOnto_of_next_eq_none _ h]
  | (some e, after) =>
    have := work_next h
    rw [drainOnto_of_next_eq_some _ h, drainOnto_of_next_eq_some _ h, drainOnto_eq _ after,
      drainOnto_eq (#[].push e) after]
    generalize drainOnto #[] after = later
    simp
termination_by t.work

theorem drain_of_next_eq_none {t after : Tokenizer} (h : t.next = (none, after)) :
    t.drain = ([], after) := by
  simp [drain, drainOnto_of_next_eq_none _ h]

theorem drain_of_next_eq_some {t after : Tokenizer} {e : Emission} (h : t.next = (some e, after)) :
    t.drain = (e :: after.drain.1, after.drain.2) := by
  unfold drain
  rw [drainOnto_of_next_eq_some _ h, drainOnto_eq]
  generalize drainOnto #[] after = later
  simp

/-! ## Bookmarks

  A bookmark holds all that a tokenizer is, but the counters travel as four bytes.  To go back to a
  place is to restore them, which is why the state that is left has a part in `rewind`. -/

end Tokenizer

/-- A place in a token stream, as it is kept outside the tokenizer: the same facts, with the
    counters as bytes. -/
structure Bookmark where
  reader : Reader
  snapshot : Snapshot
  awaitsContent : Bool
  finished : Bool
  deriving DecidableEq

namespace Tokenizer

/-- The place where the stream is. -/
def bookmark (t : Tokenizer) : Bookmark :=
  ⟨t.reader, t.depths.toSnapshot, t.awaitsContent, t.finished⟩

/-- Takes the stream to a place.  The counters are read back onto those of the stream, as a host
    does it; since a bookmark has all four bytes, nothing of the old ones is left. -/
def rewind (t : Tokenizer) (b : Bookmark) : Tokenizer :=
  ⟨b.reader, t.depths.restore b.snapshot.toList, b.awaitsContent, b.finished⟩

end Tokenizer

/-- All tokens of a text, with what is known about each.  This is what the proofs speak of; a
    listing of the tokens drops the rest. -/
def emissions (text : String) : List Emission := (Tokenizer.start text).drain.1

/-- All tokens of a text. -/
def tokenize (text : String) : List Token := (emissions text).map (·.token)

/-! ## Small cases -/

example : (tokenize "a\n\tb").map (·.kind.name) =
    ["LEVEL", "CONTENT", "OPEN", "LEVEL", "CONTENT", "CLOSE", "LEVEL"] := by decide +kernel

example : (tokenize "\t//c").map (·.kind.name) = ["OPEN", "LEVEL", "COMMENT"] := by decide +kernel

end Offside

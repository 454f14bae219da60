/-
  A session is a position in the list of all tokens.

  A stream can be asked for its next token, for several, or for all that are left; it can be
  bookmarked and taken back, and started again.  Whatever is asked in whatever order, the replies
  are those of a list with an index that is moved about.

  1. **Counting calls** — the tokens left after `n` calls of `next` are all but the first `n`
     (`drain_advance`), and the call that finds none finishes the stream, after which nothing
     changes any more (`advance_eq`).  `take` and `drain` are so many calls.
  2. **Bookmarks** — the four bytes of a bookmark give back both counters, whatever the counters of
     the stream that is taken to it (`rewind_bookmark`).
  3. **Simulation** — one request keeps a session and a position together and is answered alike
     (`Follows.serve`); any number of requests does so by induction.

  The index counts calls and not tokens.  The two differ at the end: the call that finds no token
  changes the stream once more, since it passes the white space that is left and finishes.  So an
  index goes up to one more than the number of tokens.
-/
import Offside.Proofs.Snapshots
import Offside.Proofs.Stream
import Offside.Session

namespace Offside

/-! ## Counting calls

  A state of the stream is the start of the text and a number of calls.  All ways to take tokens are
  put into this form. -/

namespace Tokenizer

theorem advance_succ (n : Nat) (t : Tokenizer) : t.advance (n + 1) = (t.advance n).next.2 := by
  induction n generalizing t with
  | zero => rfl
  | succ n ih => rw [advance, ih t.next.2, advance]

theorem advance_add (m n : Nat) (t : Tokenizer) :
    t.advance (m + n) = (t.advance m).advance n := by
  induction n with
  | zero => rfl
  | succ n ih => rw [← Nat.add_assoc, advance_succ, ih, advance_succ]

/-- A call to a finished stream finds no token and leaves the stream as it is. -/
theorem next_of_finished {t : Tokenizer} (h : t.finished = true) : t.next = (none, t) := by
  rw [next, if_pos h]

/-- The call that finds no token finishes the stream, so that no later call looks for one again. -/
theorem finished_of_next_eq_none {t after : Tokenizer} (h : t.next = (none, after)) :
    after.finished = true := by
  rcases next_cases t with ⟨hf, hn⟩ | ⟨_, _, _, hn⟩ | ⟨_, _, hn⟩ | ⟨_, _, hn⟩ | ⟨_, _, hn⟩ <;>
    rw [hn] at h <;> cases h
  · exact hf
  · rfl

theorem drain_of_finished {t : Tokenizer} (h : t.finished = true) : t.drain = ([], t) :=
  drain_of_next_eq_none (next_of_finished h)

/-- The next token is the first of those that are left, if any are. -/
theorem next_fst (t : Tokenizer) : t.next.1 = t.drain.1.head? := by
  match h : t.next with
  | (none, after) => rw [drain_of_next_eq_none h]; rfl
  | (some e, after) => rw [drain_of_next_eq_some h]; rfl

/-- A call takes the first token away, and what is left then leads to the same end. -/
theorem drain_next (t : Tokenizer) : t.next.2.drain = (t.drain.1.tail, t.drain.2) := by
  match h : t.next with
  | (none, after) =>
    rw [drain_of_next_eq_none h, drain_of_finished (finished_of_next_eq_none h)]
    rfl
  | (some e, after) => rw [drain_of_next_eq_some h]; rfl

/-- So many calls take so many tokens away, and the end stays the same. -/
theorem drain_advance (n : Nat) (t : Tokenizer) :
    (t.advance n).drain = (t.drain.1.drop n, t.drain.2) := by
  induction n generalizing t with
  | zero => rfl
  | succ n ih => rw [advance, ih, drain_next, ← List.drop_one, List.drop_drop, Nat.add_comm]

/-- The token of a call is the one with its number, if there are so many. -/
theorem next_advance (n : Nat) (t : Tokenizer) : (t.advance n).next.1 = t.drain.1[n]? := by
  rw [next_fst, drain_advance, List.head?_drop]

/-- The state that all tokens leave behind is that after as many calls as there are tokens, and one
    more. -/
theorem drain_snd (t : Tokenizer) : t.drain.2 = t.advance (t.drain.1.length + 1) := by
  have nothing : (t.advance t.drain.1.length).next.1 = none := by
    rw [next_advance, List.getElem?_eq_none (Nat.le_refl _)]
  rw [advance_succ]
  match h : (t.advance t.drain.1.length).next with
  | (none, after) =>
    have last := drain_advance t.drain.1.length t
    rw [drain_of_next_eq_none h] at last
    exact (congrArg Prod.snd last).symm
  | (some e, after) => rw [h] at nothing; simp at nothing

theorem finished_drain (t : Tokenizer) : t.drain.2.finished = true := by
  rw [drain_snd, advance_succ]
  refine finished_of_next_eq_none (t := t.advance t.drain.1.length) (Prod.ext ?_ rfl)
  rw [next_advance, List.getElem?_eq_none (Nat.le_refl _)]

theorem advance_of_finished (n : Nat) {t : Tokenizer} (h : t.finished = true) :
    t.advance n = t := by
  induction n with
  | zero => rfl
  | succ n ih => rw [advance, next_of_finished h, ih]

/-- Calls behind the one that finds no token change nothing, so of `n` calls only as many count as
    there are tokens, and one more. -/
theorem advance_eq (n : Nat) (t : Tokenizer) :
    t.advance n = t.advance (min (t.drain.1.length + 1) n) := by
  rcases Nat.le_total n (t.drain.1.length + 1) with h | h
  · rw [Nat.min_eq_right h]
  · obtain ⟨more, rfl⟩ := Nat.exists_eq_add_of_le h
    rw [Nat.min_eq_left h, advance_add, ← drain_snd, advance_of_finished more (finished_drain t)]

/-- Taking `n` tokens leaves the stream as `n` calls do, also if it ends before. -/
theorem take_snd (n : Nat) (t : Tokenizer) : (t.take n).2 = t.advance n := by
  induction n generalizing t with
  | zero => rfl
  | succ n ih =>
    match h : t.next with
    | (none, after) =>
      rw [take_succ_of_next_eq_none n h, advance, h,
        advance_of_finished n (finished_of_next_eq_none h)]
    | (some e, after) => rw [take_succ_of_next_eq_some n h, ih, advance, h]

end Tokenizer

/-! ## Bookmarks

  A bookmark has the reader and the flags as they are, and the counters as bytes. -/

/-- A stream that is taken to a bookmark is the stream from which the bookmark was taken. -/
theorem Tokenizer.rewind_bookmark (t saved : Tokenizer) : t.rewind saved.bookmark = saved := by
  rw [rewind, bookmark, Depths.restore_toSnapshot]

/-! ## Simulation

  `Follows` ties a session to a position: its tokenizer to the index, and each bookmark to the index
  at which it was taken.  A request is then one case each. -/

namespace Session

/-- A session is at a position: so many calls were made, and so many had been made when each
    bookmark was taken. -/
structure Follows (text : String) (s : Session) (p : Position) : Prop where
  tokenizer : s.tokenizer = (Tokenizer.start text).advance p.index
  bookmarks : s.bookmarks = p.marks.map fun k => ((Tokenizer.start text).advance k).bookmark
  index_le : p.index ≤ (tokenize text).length + 1
  marks_le : ∀ k ∈ p.marks, k ≤ (tokenize text).length + 1

variable {text : String} {s : Session} {p : Position}

/-- The tokens left in a session are those behind its position in the list of all tokens. -/
theorem Follows.drain_fst (h : Follows text s p) :
    s.tokenizer.drain.1.map (·.token) = (tokenize text).drop p.index := by
  rw [h.tokenizer, Tokenizer.drain_advance, tokenize, emissions, List.map_drop]

theorem length_tokenize (text : String) :
    (tokenize text).length = (Tokenizer.start text).drain.1.length :=
  List.length_map ..

/-- If so many calls are made, the position is so much further on, or at the end. -/
theorem Follows.forward (h : Follows text s p) (n : Nat) {t : Tokenizer}
    (ht : t = s.tokenizer.advance n) :
    Follows text { s with tokenizer := t } (p.forward (tokenize text).length n) where
  tokenizer := by
    rw [ht, h.tokenizer, ← Tokenizer.advance_add, Tokenizer.advance_eq, ← length_tokenize]
    rfl
  bookmarks := h.bookmarks
  index_le := Nat.min_le_left ..
  marks_le := h.marks_le

/-- One request is answered from the list as from the stream, and keeps session and position
    together. -/
theorem Follows.serve (h : Follows text s p) (q : Request) :
    (Session.serve text q s).1 = (p.serve (tokenize text) q).1 ∧
      Follows text (Session.serve text q s).2 (p.serve (tokenize text) q).2 := by
  cases q with
  | next =>
    refine ⟨?_, h.forward 1 rfl⟩
    simp only [Session.serve, Position.serve]
    rw [Tokenizer.next_fst, ← List.head?_map, h.drain_fst, List.head?_drop]
  | take n =>
    refine ⟨?_, h.forward n (Tokenizer.take_snd n _)⟩
    simp only [Session.serve, Position.serve]
    rw [Tokenizer.take_fst, List.map_take, h.drain_fst]
  | rest =>
    refine ⟨?_, ?_, h.bookmarks, Nat.le_refl _, h.marks_le⟩
    · simp only [Session.serve, Position.serve]
      rw [h.drain_fst]
    · -- wherever the stream was, it ends in the same state
      simp only [Session.serve, Position.serve]
      rw [h.tokenizer, Tokenizer.drain_advance, Tokenizer.drain_snd, length_tokenize]
  | bookmark =>
    refine ⟨rfl, h.tokenizer, ?_, h.index_le, ?_⟩
    · simp only [Session.serve, Position.serve]
      rw [h.bookmarks, h.tokenizer, List.map_append]
      rfl
    · intro k hk
      rcases List.mem_append.mp hk with hk | hk
      · exact h.marks_le k hk
      · rw [List.mem_singleton.mp hk]
        exact h.index_le
  | rewind which =>
    -- the bookmark of a number is the one taken where the position noted under it was
    have same : s.bookmarks[which]? =
        p.marks[which]?.map fun k => ((Tokenizer.start text).advance k).bookmark := by
      rw [h.bookmarks, List.getElem?_map]
    simp only [Session.serve, Position.serve]
    match hk : p.marks[which]? with
    | none =>
      rw [hk] at same
      rw [same]
      exact ⟨rfl, h⟩
    | some k =>
      rw [hk] at same
      rw [same]
      refine ⟨rfl, ?_, h.bookmarks, h.marks_le k (List.mem_of_getElem? hk), h.marks_le⟩
      exact Tokenizer.rewind_bookmark ..
  | restart => exact ⟨rfl, rfl, h.bookmarks, Nat.zero_le _, h.marks_le⟩

/-- Any number of requests is answered alike, and keeps session and position together. -/
theorem Follows.serveAll (h : Follows text s p) (qs : List Request) :
    (Session.serveAll (Session.serve text) qs s).1 =
        (Session.serveAll (Position.serve (tokenize text)) qs p).1 ∧
      Follows text (Session.serveAll (Session.serve text) qs s).2
        (Session.serveAll (Position.serve (tokenize text)) qs p).2 := by
  induction qs generalizing s p with
  | nil => exact ⟨rfl, h⟩
  | cons q qs ih =>
    obtain ⟨reply, after⟩ := h.serve q
    obtain ⟨replies, last⟩ := ih after
    refine ⟨?_, last⟩
    simp only [Session.serveAll]
    rw [reply, replies]

theorem follows_start (text : String) : Follows text (.start text) .start :=
  ⟨rfl, rfl, Nat.zero_le _, List.forall_mem_nil _⟩

end Session

/-- **A session is a position.**  Whatever is asked of the stream of a text, in any order and
    number, every reply is read off the list of all tokens at an index that is kept beside; and the
    whole state of the stream, with its bookmarks, is the one that a new stream reaches in as many
    calls as the index says. -/
theorem session_follows (text : String) (requests : List Session.Request) :
    let session := Session.serveAll (Session.serve text) requests (.start text)
    let position := Session.serveAll (Session.Position.serve (tokenize text)) requests .start
    session.1 = position.1 ∧
      session.2.tokenizer = (Tokenizer.start text).advance position.2.index ∧
      session.2.bookmarks =
        position.2.marks.map (fun k => ((Tokenizer.start text).advance k).bookmark) ∧
      position.2.index ≤ (tokenize text).length + 1 := by
  intro session position
  obtain ⟨replies, last⟩ := (Session.follows_start text).serveAll requests
  exact ⟨replies, last.tokenizer, last.bookmarks, last.index_le⟩

end Offside

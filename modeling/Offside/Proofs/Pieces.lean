/-
  The next piece of text.

  A piece is a comment or a run of content.  In bytes both are a length (`pieceLength`), so what the
  tokenizer does with the next one is a single statement: it passes the white space and so many
  bytes (`ordinary_eq`).  `reach` counts both together.

  1. **Lengths** — how long the next piece is, and how far it goes from the place reached.
  2. **One call** — a call of `next` that gives a token either gives a boundary and stays, or gives
     a piece and goes as far as it reaches (`next_some_cases`).
  3. **Order** — so no piece that is given later ends before the next one does (`reach_le_stop`).

  This is the account of the tokenizer for those who ask how far it goes and not what it finds.
-/
import Mathlib.Data.List.TakeWhile
import Offside.Proofs.Sessions
import Offside.Proofs.Spelling

namespace Offside

namespace Lexeme

/-! ## Lengths

  Both kinds of piece are measured from where they start.  A comment is as long as its line, and
  content is counted byte by byte. -/

/-- The length of the piece in front of some bytes. -/
def pieceLength (bs : List UInt8) : Nat :=
  if startsComment bs then (bs.takeWhile (· != 10)).length else contentLength 0 bs

/-- The kind of the piece in front of some bytes. -/
def pieceKind (bs : List UInt8) : Token.Kind := if startsComment bs then .comment else .content

/-- How far the next piece goes: the white space in front of it and its length. -/
def reach (bs : List UInt8) : Nat :=
  (bs.takeWhile isSpace).length + pieceLength (bs.dropWhile isSpace)

theorem pieceLength_le (bs : List UInt8) : pieceLength bs ≤ bs.length := by
  unfold pieceLength
  split
  · exact (List.takeWhile_prefix _).length_le
  · exact contentLength_le bs

/-- White space and what is left behind it are all bytes together. -/
theorem length_takeWhile_add (bs : List UInt8) :
    (bs.takeWhile isSpace).length + (bs.dropWhile isSpace).length = bs.length := by
  rw [← List.length_append, List.takeWhile_append_dropWhile]

theorem reach_le (bs : List UInt8) : reach bs ≤ bs.length := by
  have := pieceLength_le (bs.dropWhile isSpace)
  have := length_takeWhile_add bs
  unfold reach
  omega

theorem isStructural_pieceKind (bs : List UInt8) : (pieceKind bs).isStructural = false := by
  unfold pieceKind
  split <;> rfl

end Lexeme

namespace Reader

/-- The jump to the end of a line passes the bytes of the line, one by one, and starts no new
    line. -/
theorem toLineEnd_eq_steps (r : Reader) :
    r.toLineEnd = r.steps (r.rest.takeWhile (· != lineFeed)).length := by
  have front := List.prefix_iff_eq_take.mp (List.takeWhile_prefix (l := r.rest) (· != lineFeed))
  have within : ∀ b ∈ r.rest.take (r.rest.takeWhile (· != lineFeed)).length, b ≠ 10 := by
    rw [← front]
    intro b hb
    have := List.mem_takeWhile_imp hb
    rwa [bne_iff_ne] at this
  have length := (List.takeWhile_prefix (l := r.rest) (· != lineFeed)).length_le
  have rest := rest_steps (r.rest.takeWhile (· != lineFeed)).length r
  have offset := offset_steps (r.rest.takeWhile (· != lineFeed)).length r
  have lineStart := lineStart_steps_of_ne _ within
  rw [drop_length_takeWhile] at rest
  rw [Nat.min_eq_left length] at offset
  show (⟨_, _, _⟩ : Reader) = ⟨(r.steps _).rest, (r.steps _).offset, (r.steps _).lineStart⟩
  rw [rest, offset, lineStart]

/-- If the bytes ahead are those of characters, those behind the next piece are too. -/
theorem spells_drop_reach {r : Reader} (h : Spells r.rest) :
    Spells (r.rest.drop (Lexeme.reach r.rest)) := by
  have front := h.dropWhile fun _ => Lexeme.lt_of_isSpace
  rw [Lexeme.reach, ← List.drop_drop, drop_length_takeWhile, Lexeme.pieceLength]
  split
  · rw [drop_length_takeWhile]
    refine front.dropWhile_of_high ?_
    intro b hb
    rw [bne_iff_ne]
    rintro rfl
    exact absurd hb (by decide)
  · exact Lexeme.spells_drop_contentLength front

end Reader

namespace Tokenizer

variable {t after : Tokenizer} {e : Emission}

/-! ## One call

  A boundary takes nothing off the text, and a piece takes what it reaches over.  The end of the
  stream gives no token and is left out. -/

/-- The next piece of text, in bytes: nothing if there is only white space ahead, and else the bytes
    that it reaches over.  Content answers a level token, a comment does not. -/
theorem ordinary_eq (h : Spells t.reader.rest) :
    t.ordinary =
      if t.reader.rest.dropWhile Lexeme.isSpace = [] then
        (none, { t with reader := t.reader.skipWhile Lexeme.isSpace })
      else
        (some ⟨⟨Lexeme.pieceKind (t.reader.rest.dropWhile Lexeme.isSpace),
            ⟨(t.reader.skipWhile Lexeme.isSpace).offset,
              (t.reader.steps (Lexeme.reach t.reader.rest)).offset⟩⟩, none, t.depths⟩,
          { t with
            reader := t.reader.steps (Lexeme.reach t.reader.rest)
            awaitsContent := t.awaitsContent &&
              Lexeme.startsComment (t.reader.rest.dropWhile Lexeme.isSpace) }) := by
  have rest := Reader.rest_skipWhile Lexeme.isSpace t.reader
  have after : t.reader.steps (Lexeme.reach t.reader.rest) =
      (t.reader.skipWhile Lexeme.isSpace).steps
        (Lexeme.pieceLength (t.reader.rest.dropWhile Lexeme.isSpace)) :=
    Reader.steps_add ..
  rw [after, ← rest]
  by_cases hr : (t.reader.skipWhile Lexeme.isSpace).rest = []
  · rw [if_pos hr, ordinary_of_nil hr]
  · rw [if_neg hr]
    -- a comment leaves the flag as it is, and content lowers it
    by_cases hc : Lexeme.startsComment (t.reader.skipWhile Lexeme.isSpace).rest = true
    · rw [ordinary_of_comment rfl hc, Reader.toLineEnd_eq_steps, Lexeme.pieceLength,
        Lexeme.pieceKind, hc, Bool.and_true]
      rfl
    · rw [Bool.not_eq_true] at hc
      have spells : Spells (t.reader.skipWhile Lexeme.isSpace).rest := by
        rw [rest]
        exact h.dropWhile fun _ => Lexeme.lt_of_isSpace
      rw [ordinary_of_content rfl hr hc, Lexeme.passContent_eq_steps spells, Lexeme.pieceLength,
        Lexeme.pieceKind, hc, Bool.and_false]
      rfl

/-- Looking for a boundary leaves the reader where it is, and finds nothing but boundaries. -/
theorem reader_structural (t : Tokenizer) :
    t.structural.2.reader = t.reader ∧
      ∀ e, t.structural.1 = some e → e.token.kind.isStructural = true := by
  obtain ⟨r, d, awaits, finished⟩ := t
  cases awaits with
  | true =>
    refine ⟨rfl, ?_⟩
    intro e he
    cases he
  | false =>
    rw [structural_eq]
    match (d.scan .all (Probe.start r)).decision? with
    | none =>
      refine ⟨rfl, ?_⟩
      intro e he
      cases he
    | some decision =>
      refine ⟨rfl, ?_⟩
      rintro e ⟨rfl⟩
      rfl

/-- A call that gives a token either gives a boundary and leaves the reader where it is, or gives
    the next piece and moves the reader as far as that reaches, which is where the piece ends. -/
theorem next_some_cases (hs : Spells t.reader.rest) (h : t.next = (some e, after)) :
    (e.token.kind.isStructural = true ∧ after.reader = t.reader) ∨
    (e.token.kind.isStructural = false ∧
      after.reader = t.reader.steps (Lexeme.reach t.reader.rest) ∧
      e.token.span.stop = after.reader.offset) := by
  obtain ⟨reader, boundary⟩ := reader_structural t
  unfold next at h
  split at h
  · simp at h
  · match hn : t.structural with
    | (some e', u) =>
      rw [hn] at h reader boundary
      cases h
      exact .inl ⟨boundary e rfl, reader⟩
    | (none, u) =>
      rw [hn] at h reader
      simp only at h reader
      -- no boundary was found, and the reader is still where it was
      have spells : Spells u.reader.rest := by rwa [reader]
      rw [ordinary_eq spells] at h
      by_cases hr : u.reader.rest.dropWhile Lexeme.isSpace = []
      · rw [if_pos hr] at h
        simp at h
      · rw [if_neg hr] at h
        cases h
        rw [reader]
        exact .inr ⟨Lexeme.isStructural_pieceKind _, rfl, rfl⟩

/-- The offset behind the next piece is the offset in front of it, and what the piece reaches
    over. -/
theorem offset_steps_reach (r : Reader) :
    (r.steps (Lexeme.reach r.rest)).offset = r.offset + Lexeme.reach r.rest := by
  have := Lexeme.reach_le r.rest
  rw [Reader.offset_steps]
  omega

/-- A call that gives a token leaves the reader of the stream between two characters of its text. -/
theorem on_next {text : String} (ht : t.reader.On text) (h : t.next = (some e, after)) :
    after.reader.On text := by
  rcases next_some_cases ht.spells h with ⟨_, reader⟩ | ⟨_, reader, _⟩
  · rwa [reader]
  · rw [reader]
    refine ht.of_drop (Lexeme.reach_le _) (Reader.rest_steps ..) (offset_steps_reach _) ?_
    rw [Reader.rest_steps]
    exact Reader.spells_drop_reach ht.spells

/-- A call that gives a token leaves bytes ahead that are those of characters. -/
theorem spells_next (hs : Spells t.reader.rest) (h : t.next = (some e, after)) :
    Spells after.reader.rest := by
  rcases next_some_cases hs h with ⟨_, reader⟩ | ⟨_, reader, _⟩
  · rwa [reader]
  · rw [reader, Reader.rest_steps]
    exact Reader.spells_drop_reach hs

/-! ## Order

  Pieces come in the order of the text, so the first of them ends first. -/

/-- No piece that a stream gives ends before the end of the next piece ahead.  The induction is on
    the work left. -/
theorem reach_le_stop (t : Tokenizer) (hs : Spells t.reader.rest) :
    ∀ e ∈ t.drain.1, e.token.kind.isStructural = false →
      t.reader.offset + Lexeme.reach t.reader.rest ≤ e.token.span.stop := by
  match h : t.next with
  | (none, after) =>
    rw [drain_of_next_eq_none h]
    exact List.forall_mem_nil _
  | (some e, after) =>
    have := work_next h
    have later := reach_le_stop after (spells_next hs h)
    rw [drain_of_next_eq_some h, List.forall_mem_cons]
    rcases next_some_cases hs h with ⟨boundary, reader⟩ | ⟨_, reader, stop⟩
    · rw [reader] at later
      refine ⟨?_, later⟩
      intro text
      rw [boundary] at text
      simp at text
    · -- this piece ends where the pieces behind it start at the earliest
      have place := offset_steps_reach t.reader
      rw [← reader] at place
      constructor
      · intro _
        exact Nat.le_of_eq (stop.trans place).symm
      · intro e' he' text
        have := later e' he' text
        omega
termination_by t.work

end Tokenizer

end Offside

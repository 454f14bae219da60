/-
  The tokens of a text tile it.

  1. **Runs of bytes** — what a place passes over: white space up to the next token, the bytes of
     content, the bytes of a comment.  Each is a fact about a list of bytes, carried to the offsets
     of a text by `Token.between_ahead`.
  2. **Tokens** — an induction on the derivation of the stream.  The invariant is `Reader.On`: the
     reader stands between two characters, with the rest of the text ahead.  An announcement does
     not move it, so its tokens stand where the text before them ended.

  `Token.Tiles` is stated from an offset on, so that the induction can hand it from one piece to the
  next: what is tiled behind a piece and the piece in front of it are tiled together.
-/
import Mathlib.Data.List.TakeWhile
import Offside.Proofs.Stream
import Offside.Proofs.Spelling

namespace Offside

namespace Token

/-! ## Runs of bytes

  A run is a property of each byte between two offsets.  On the bytes ahead of a reader it is a
  `takeWhile`, or the count of content. -/

variable {text : String}

/-- If the first bytes behind an offset all pass a test, so do the bytes between the offset and the
    end of the run. -/
theorem between_ahead {offset n : Nat} {test : UInt8 → Bool}
    (h : ∀ i < n, ∃ b, (ahead text offset)[i]? = some b ∧ test b = true) :
    Between text offset (offset + n) test := by
  intro i hlo hhi
  obtain ⟨b, hb, ht⟩ := h (i - offset) (by omega)
  refine ⟨b, ?_, ht⟩
  rw [ahead, List.getElem?_drop] at hb
  rw [← hb]
  congr 1
  omega

/-- The bytes ahead of a later offset are those ahead, less as many as lie between. -/
theorem ahead_add (offset n : Nat) : ahead text (offset + n) = (ahead text offset).drop n := by
  rw [ahead, ahead, List.drop_drop]

/-- All bytes of the run that a test accepts pass the test. -/
theorem between_takeWhile (offset : Nat) (test : UInt8 → Bool) :
    Between text offset (offset + ((ahead text offset).takeWhile test).length) test := by
  refine between_ahead ?_
  intro i hi
  refine ⟨_, ?_, List.mem_takeWhile_imp (List.getElem_mem hi)⟩
  have front := List.takeWhile_prefix (l := ahead text offset) test
  rw [front.getElem hi, List.getElem?_eq_getElem]

/-- Every byte of content is no white space and starts no comment. -/
theorem drop_of_lt_contentLength {bs : List UInt8} {i : Nat}
    (h : i < Lexeme.contentLength 0 bs) :
    ∃ b more, bs.drop i = b :: more ∧ Lexeme.isSpace b = false ∧
      Lexeme.startsComment (b :: more) = false := by
  induction bs generalizing i with
  | nil => exact absurd h (Nat.not_lt_zero i)
  | cons b bs ih =>
    unfold Lexeme.contentLength at h
    split at h
    · exact absurd h (Nat.not_lt_zero i)
    · next hgo =>
      rw [Bool.not_eq_true, Bool.or_eq_false_iff] at hgo
      rw [Lexeme.contentLength_eq_add] at h
      cases i with
      | zero => exact ⟨b, bs, rfl, hgo⟩
      | succ i => exact ih (by omega)

/-- Content ends in front of white space, or in front of a comment, or with the text. -/
theorem head_drop_contentLength {bs more : List UInt8} {b : UInt8}
    (h : bs.drop (Lexeme.contentLength 0 bs) = b :: more) :
    Lexeme.isSpace b = true ∨ Lexeme.startsComment (b :: more) = true := by
  induction bs with
  | nil => simp at h
  | cons b' bs ih =>
    unfold Lexeme.contentLength at h
    split at h
    · next hstop =>
      rw [List.drop_zero, List.cons.injEq] at h
      obtain ⟨rfl, rfl⟩ := h
      exact (Bool.or_eq_true _ _).mp hstop
    · rw [Lexeme.contentLength_eq_add, Nat.add_comm, List.drop_succ_cons] at h
      exact ih h

/-- What the count of content passes over is a span of content: it goes on until white space or a
    comment, and no further. -/
theorem isContent_of_contentLength (offset : Nat) :
    IsContent text ⟨offset, offset + Lexeme.contentLength 0 (ahead text offset)⟩ := by
  refine ⟨between_ahead ?_, ?_, ?_⟩
  · intro i hi
    obtain ⟨b, more, hd, hs, _⟩ := drop_of_lt_contentLength hi
    refine ⟨b, ?_, by rw [hs]; rfl⟩
    rw [← List.head?_drop, hd, List.head?_cons]
  · intro i hlo hhi
    simp only at hlo hhi
    have inside : i - offset < Lexeme.contentLength 0 (ahead text offset) := by omega
    obtain ⟨b, more, hd, _, hc⟩ := drop_of_lt_contentLength inside
    rw [← hd, ← ahead_add] at hc
    rwa [show offset + (i - offset) = i by omega] at hc
  · intro b hb
    simp only [ahead_add] at hb ⊢
    match hd : (ahead text offset).drop (Lexeme.contentLength 0 (ahead text offset)) with
    | [] => rw [hd] at hb; simp at hb
    | b' :: more =>
      rw [hd, List.head?_cons, Option.mem_some] at hb
      subst hb
      exact head_drop_contentLength hd

/-- What the jump to the end of the line passes over, in front of a comment, is a span of a
    comment. -/
theorem isComment_of_takeWhile {offset : Nat}
    (hc : Lexeme.startsComment (ahead text offset) = true) :
    IsComment text ⟨offset,
      offset + ((ahead text offset).takeWhile (· != Reader.lineFeed)).length⟩ := by
  refine ⟨hc, between_takeWhile offset _, ?_⟩
  intro b hb
  simp only [ahead_add, Reader.drop_length_takeWhile] at hb
  have := List.head?_dropWhile_not (· != Reader.lineFeed) (ahead text offset)
  rw [Option.mem_def.mp hb] at this
  simpa [Reader.lineFeed] using this

/-! ## Tokens

  Between two pieces there is white space alone, and boundaries are empty and stand at the end of
  the first. -/

/-- Boundaries at the place reached can be put in front of tokens that tile the text from there
    on. -/
theorem tiles_announce_append {offset before depth : Nat} {ts : List Token}
    (h : Tiles text offset ts) :
    Tiles text offset (Layout.announce before depth offset ++ ts) := by
  unfold Layout.announce
  induction Layout.boundaries before depth with
  | nil => exact h
  | cons b bs ih => exact ⟨rfl, ih⟩

end Token

namespace Tokenizer

variable {text : String} {r : Reader} {c : UInt16} {awaits : Bool} {es : List Emission}
  {t : Tokenizer}

/-- What is skipped in front of the next token is white space. -/
theorem between_skipSpace (hr : r.On text) :
    Token.Between text r.offset (r.skipWhile Lexeme.isSpace).offset Lexeme.isSpace := by
  rw [Reader.offset_skipWhile, hr.rest_eq]
  exact Token.between_takeWhile r.offset Lexeme.isSpace

/-- The tokens of a stream tile the text from its reader on; the reader that is left is on the text,
    and nothing of it is ahead. -/
theorem Stream.tiles (h : Stream r c awaits es t) (hr : r.On text) :
    Token.Tiles text r.offset (es.map (·.token)) ∧ t.reader.On text ∧ t.reader.rest = [] := by
  induction h with
  | @finish r c awaits _ hend =>
    -- the white space left goes up to the end of the text
    refine ⟨?_, hr.skipSpace, hend⟩
    have white := between_skipSpace hr
    have whole := hr.skipSpace.length_rest
    rw [hend, List.length_nil, Nat.add_zero] at whole
    rwa [whole] at white
  | @announce r c depth es t _ _ ih =>
    -- the reader stays, so the tokens stand where the text before them ended
    obtain ⟨tiles, rest⟩ := ih hr
    refine ⟨?_, rest⟩
    rw [List.map_append, token_announcement]
    exact Token.tiles_announce_append tiles
  | @comment r front c awaits es t _ hf hc _ ih =>
    subst hf
    have place := hr.skipSpace
    obtain ⟨tiles, rest⟩ := ih place.toLineEnd
    refine ⟨⟨r.offset_le_skipSpace, Reader.offset_lt_toLineEnd hc, place.toLineEnd.le,
      between_skipSpace hr, place.betweenChars, place.toLineEnd.betweenChars, ?_, tiles⟩, rest⟩
    rw [place.rest_eq] at hc
    have comment := Token.isComment_of_takeWhile hc
    rwa [← place.rest_eq] at comment
  | @content r front c awaits es t _ hf hne hc _ ih =>
    subst hf
    have place := hr.skipSpace
    obtain ⟨tiles, rest⟩ := ih place.passContent
    refine ⟨⟨r.offset_le_skipSpace, Reader.offset_lt_passContent rfl hne place.spells hc,
      place.passContent.le, between_skipSpace hr, place.betweenChars,
      place.passContent.betweenChars, ?_, tiles⟩, rest⟩
    have content : Token.IsContent text _ :=
      Token.isContent_of_contentLength (r.skipWhile Lexeme.isSpace).offset
    rwa [← place.rest_eq, ← Reader.offset_passContent place.spells] at content

end Tokenizer

/-- **Nothing is lost.**  Content and comments lie one after another on any text, between its
    characters and with white space alone outside them, and each goes as far as its kind allows;
    structural tokens are empty and stand where the text before them ended; and after the last token
    the reader is at the end of the text. -/
theorem tokenize_tiles (text : String) :
    Token.Tiles text 0 (tokenize text) ∧
      (Tokenizer.start text).drain.2.reader.rest = [] ∧
      (Tokenizer.start text).drain.2.reader.offset = (Source.bytes text).length := by
  obtain ⟨tiles, place, rest⟩ :=
    (Tokenizer.stream_emissions text).tiles (Reader.on_start text)
  refine ⟨tiles, rest, ?_⟩
  have whole := place.length_rest
  rwa [rest, List.length_nil, Nat.add_zero] at whole

end Offside

/-
  Tokens in front of an edit.

  Two texts with a common front are compared by way of the front alone: its stream is set beside
  that of the front with more bytes behind (`Tokenizer.extend`).  What holds for any bytes behind
  the front holds for both texts, so neither has to be compared with the other.

  1. **Locality** — whether the next piece ends two bytes before the end of the front can be told
     from the front alone, and if it does, the bytes behind have no part in it (`reach_append`).
     The depth measured depends on no byte behind the first that is not white space
     (`depthFrom_append`).
  2. **One call** — where the next piece is settled, a call gives the same token with and without
     the bytes behind, and leaves the same state but for these bytes (`next_extend`).
  3. **Runs** — an induction along the stream of the front.  Once the next piece is not settled,
     none behind it is, since none ends before it.
  4. **The front of a text** — a stream of one text is moved over to the other by exchanging the
     bytes behind the front, and there it is the stream of the other text.

  Two bytes are needed because a comment is known by two slashes: with one byte behind it, a piece
  of content that ends with the front could have been the start of a comment, had another slash
  followed.
-/
import Offside.Edit
import Offside.Proofs.Measuring
import Offside.Proofs.Pieces

namespace Offside

/-! ## Locality

  A byte is read to know what the bytes in front of it are: white space or a comment ends content, a
  second slash makes a comment.  How far such looks go beyond a piece is what decides which pieces
  an edit behind them can change. -/

namespace Lexeme

variable {bs : List UInt8} (more : List UInt8)

/-- Whether a comment starts is told by two bytes, so if there are two, more bytes behind them do
    not matter. -/
theorem startsComment_append (h : 2 ≤ bs.length) :
    startsComment (bs ++ more) = startsComment bs := by
  match bs with
  | b :: b' :: bs =>
    rw [Bool.eq_iff_iff, startsComment_iff, startsComment_iff]
    constructor
    · rintro ⟨_, he⟩
      simp only [List.cons_append, List.cons.injEq] at he
      exact ⟨bs, by rw [he.1, he.2.1]⟩
    · rintro ⟨_, he⟩
      simp only [List.cons.injEq] at he
      exact ⟨bs ++ more, by rw [he.1, he.2.1]; rfl⟩

/-- Content either is as long with more bytes behind, or it ends less than two bytes before the end
    of the bytes in both cases. -/
theorem contentLength_append (bs : List UInt8) :
    contentLength 0 (bs ++ more) = contentLength 0 bs ∨
      (bs.length < contentLength 0 (bs ++ more) + 2 ∧ bs.length < contentLength 0 bs + 2) := by
  induction bs with
  | nil => exact .inr ⟨by simp, by simp⟩
  | cons b bs ih =>
    by_cases short : bs.length = 0
    · refine .inr ?_
      rw [List.length_cons]
      omega
    · have long : 2 ≤ (b :: bs).length := by
        rw [List.length_cons]
        omega
      have same : startsComment (b :: (bs ++ more)) = startsComment (b :: bs) :=
        startsComment_append more long
      rw [List.cons_append, contentLength, contentLength, same]
      split
      · exact .inl rfl
      · rw [contentLength_eq_add, contentLength_eq_add (0 + 1) bs, List.length_cons]
        omega

/-- A piece either is of the same kind and as long with more bytes behind, or it ends less than two
    bytes before the end of the bytes in both cases. -/
theorem pieceLength_append (bs : List UInt8) :
    (pieceLength (bs ++ more) = pieceLength bs ∧
      startsComment (bs ++ more) = startsComment bs) ∨
    (bs.length < pieceLength (bs ++ more) + 2 ∧ bs.length < pieceLength bs + 2) := by
  by_cases long : 2 ≤ bs.length
  · have same := startsComment_append more long
    simp only [pieceLength, same, and_true]
    split
    · rw [List.takeWhile_append]
      split
      · next whole =>
        refine .inr ?_
        rw [List.length_append, whole]
        omega
      · exact .inl rfl
    · exact contentLength_append more bs
  · exact .inr ⟨by omega, by omega⟩

/-- White space with text behind it is shorter than all there is. -/
theorem length_takeWhile_lt (h : bs.dropWhile isSpace ≠ []) :
    (bs.takeWhile isSpace).length < bs.length := by
  have := length_takeWhile_add bs
  have := List.length_pos_iff.mpr h
  omega

/-- If the next piece ends two bytes before the end, there is such a piece, and with more bytes
    behind it has the same length and the same kind: what stands behind has no part in it. -/
theorem reach_append (h : reach bs + 2 ≤ bs.length) :
    bs.dropWhile isSpace ≠ [] ∧ reach (bs ++ more) = reach bs ∧
      startsComment (bs.dropWhile isSpace ++ more) = startsComment (bs.dropWhile isSpace) := by
  have whole := length_takeWhile_add bs
  have text : bs.dropWhile isSpace ≠ [] := by
    intro he
    rw [he, List.length_nil] at whole
    unfold reach at h
    omega
  refine ⟨text, ?_⟩
  unfold reach at h ⊢
  rw [List.takeWhile_append, if_neg (length_takeWhile_lt text).ne, List.dropWhile_append,
    if_neg (by rwa [List.isEmpty_iff])]
  rcases pieceLength_append more (bs.dropWhile isSpace) with ⟨same, comment⟩ | ⟨_, far⟩
  · exact ⟨by rw [same], comment⟩
  · omega

/-- A piece that ends less than two bytes before the end, or is cut off by it, does so whatever
    stands behind. -/
theorem lt_reach_append (h : bs.length < reach bs + 2) : bs.length < reach (bs ++ more) + 2 := by
  have whole := length_takeWhile_add bs
  by_cases text : bs.dropWhile isSpace = []
  · rw [text, List.length_nil, Nat.add_zero] at whole
    rw [reach, List.takeWhile_append, if_pos whole, List.length_append]
    omega
  · unfold reach at h ⊢
    rw [List.takeWhile_append, if_neg (length_takeWhile_lt text).ne, List.dropWhile_append,
      if_neg (by rwa [List.isEmpty_iff])]
    rcases pieceLength_append more (bs.dropWhile isSpace) with ⟨same, _⟩ | ⟨far, _⟩
    · rwa [same]
    · omega

end Lexeme

/-- If there is text behind the white space, the depth measured is told by the white space and the
    first byte of the text, and more bytes behind do not matter. -/
theorem Layout.depthFrom_append {fresh : Bool} {k : UInt16} {bs : List UInt8}
    (more : List UInt8) (h : bs.dropWhile Lexeme.isSpace ≠ []) :
    depthFrom fresh k (bs ++ more) = depthFrom fresh k bs := by
  induction bs generalizing fresh k with
  | nil => exact absurd rfl h
  | cons b bs ih =>
    have later (hs : Lexeme.isSpace b = true) : bs.dropWhile Lexeme.isSpace ≠ [] := by
      rwa [List.dropWhile_cons_of_pos hs] at h
    rw [List.cons_append, depthFrom, depthFrom]
    split
    · next hb => exact ih (later (by rw [hb]; rfl))
    · split
      · next hb => exact ih (later (by rw [hb]; rfl))
      · split
        · next hb => exact ih (later (by rw [hb]; rfl))
        · rfl

/-! ## One call

  A call measures, and then passes a piece of text if no boundary was due.  Both parts have just
  been shown not to look behind a settled piece. -/

/-- The same place, with more bytes at the end of the text. -/
def Reader.extend (more : List UInt8) (r : Reader) : Reader := { r with rest := r.rest ++ more }

/-- The same stream, at the same place, with more bytes at the end of the text. -/
def Tokenizer.extend (more : List UInt8) (t : Tokenizer) : Tokenizer :=
  { t with reader := t.reader.extend more }

theorem Reader.steps_extend (more : List UInt8) {n : Nat} {r : Reader} (h : n ≤ r.rest.length) :
    (r.extend more).steps n = (r.steps n).extend more := by
  induction n generalizing r with
  | zero => rfl
  | succ n ih =>
    have one : (r.extend more).step = r.step.extend more := by
      unfold step extend
      match hr : r.rest with
      | [] => rw [hr] at h; simp at h
      | b :: bs => rfl
    rw [steps, steps, one, ih (by rw [rest_step, List.length_drop]; omega)]

theorem Spells.append {bs more : List UInt8} (h : Spells bs) (hm : Spells more) :
    Spells (bs ++ more) := by
  obtain ⟨cs, rfl⟩ := h
  obtain ⟨cs', rfl⟩ := hm
  exact ⟨cs ++ cs', by rw [List.flatMap_append]⟩

namespace Tokenizer

variable {t : Tokenizer} {more : List UInt8}

/-- If there is text ahead, a scan finds the same boundary with more bytes at the end, and leaves
    the same counters. -/
theorem structural_extend (h : t.reader.rest.dropWhile Lexeme.isSpace ≠ []) :
    (t.extend more).structural = (t.structural.1, t.structural.2.extend more) := by
  obtain ⟨r, d, awaits, finished⟩ := t
  cases awaits with
  | true => rfl
  | false =>
    have measured : lineDepth? (r.extend more) = lineDepth? r := by
      rw [lineDepth?_eq, lineDepth?_eq]
      exact Layout.depthFrom_append more h
    obtain ⟨decision, depths⟩ := Depths.scan_congr d .all measured
    have unfolded : extend more ⟨r, d, false, finished⟩ = ⟨r.extend more, d, false, finished⟩ := rfl
    rw [unfolded, structural_eq, structural_eq, decision, depths]
    rfl

/-- A piece that is settled is there, and is passed in the same way with more bytes at the end of
    the text. -/
theorem ordinary_extend (hs : Spells t.reader.rest) (hm : Spells more)
    (h : Lexeme.reach t.reader.rest + 2 ≤ t.reader.rest.length) :
    (t.extend more).ordinary = (t.ordinary.1, t.ordinary.2.extend more) ∧
      t.ordinary.1.isSome = true := by
  obtain ⟨text, reach, comment⟩ := Lexeme.reach_append more h
  have rest : (t.extend more).reader.rest = t.reader.rest ++ more := rfl
  have ahead : (t.reader.rest ++ more).dropWhile Lexeme.isSpace =
      t.reader.rest.dropWhile Lexeme.isSpace ++ more := by
    rw [List.dropWhile_append, if_neg (by rwa [List.isEmpty_iff])]
  have goes_on : (t.extend more).reader.rest.dropWhile Lexeme.isSpace ≠ [] := by
    rw [rest, ahead]
    exact List.append_ne_nil_of_left_ne_nil text more
  have kind : Lexeme.pieceKind (t.reader.rest.dropWhile Lexeme.isSpace ++ more) =
      Lexeme.pieceKind (t.reader.rest.dropWhile Lexeme.isSpace) := by
    rw [Lexeme.pieceKind, Lexeme.pieceKind, comment]
  have front : ((t.extend more).reader.skipWhile Lexeme.isSpace).offset =
      (t.reader.skipWhile Lexeme.isSpace).offset := by
    have length := Lexeme.length_takeWhile_lt text
    rw [Reader.offset_skipWhile, Reader.offset_skipWhile, rest, List.takeWhile_append,
      if_neg length.ne]
    rfl
  have after : (t.extend more).reader.steps (Lexeme.reach (t.extend more).reader.rest) =
      (t.reader.steps (Lexeme.reach t.reader.rest)).extend more := by
    rw [rest, reach]
    exact Reader.steps_extend more (by omega)
  rw [ordinary_eq (hs.append hm), ordinary_eq hs, if_neg text, if_neg goes_on, after, front, rest,
    ahead, kind, comment]
  exact ⟨rfl, rfl⟩

/-- Where the next piece is settled, a call gives a token, gives the same one with more bytes at the
    end of the text, and leaves the same state but for these bytes. -/
theorem next_extend (hf : t.finished = false) (hs : Spells t.reader.rest) (hm : Spells more)
    (h : Lexeme.reach t.reader.rest + 2 ≤ t.reader.rest.length) :
    ∃ e after, t.next = (some e, after) ∧
      (t.extend more).next = (some e, after.extend more) := by
  have text := (Lexeme.reach_append more h).1
  obtain ⟨reader, _⟩ := reader_structural t
  have finished : (t.extend more).finished = false := hf
  unfold next
  simp only [hf, finished, structural_extend text, Bool.false_eq_true, if_false]
  match hn : t.structural with
  | (some e, after) => exact ⟨e, after, rfl, rfl⟩
  | (none, u) =>
    rw [hn] at reader
    simp only at reader ⊢
    rw [← reader] at hs h
    obtain ⟨same, found⟩ := ordinary_extend hs hm h
    rw [same]
    match ho : u.ordinary with
    | (some e, after) => exact ⟨e, after, rfl, rfl⟩
    | (none, _) => rw [ho] at found; simp at found

/-! ## Runs

  The tokens kept are those up to the last settled piece.  That no token behind an unsettled piece
  is kept is what makes the induction stop: `reach_le_stop` says that no piece given later ends
  before the next one. -/

/-- Where the next piece goes past the limit, or ends less than two bytes before it, no token that
    is still to come is kept. -/
theorem settled_of_reach {limit : Nat} (hs : Spells t.reader.rest)
    (h : limit < t.reader.offset + Lexeme.reach t.reader.rest + 2) :
    Token.settled limit (t.drain.1.map (·.token)) = [] := by
  refine Token.settled_eq_nil ?_
  intro token ht
  obtain ⟨e, he, rfl⟩ := List.mem_map.mp ht
  rw [Token.isSettled, Bool.and_eq_false_iff, Bool.not_eq_false', decide_eq_false_iff_not]
  match hk : e.token.kind.isStructural with
  | true => exact .inl rfl
  | false =>
    have := reach_le_stop t hs e he hk
    exact .inr (by omega)

/-- Where the stream has finished or the next piece is not settled, no token is kept, with or
    without more bytes at the end of the text. -/
theorem settled_of_far {limit : Nat} (hs : Spells t.reader.rest) (hm : Spells more)
    (hl : t.reader.offset + t.reader.rest.length = limit)
    (far : t.finished = true ∨ t.reader.rest.length < Lexeme.reach t.reader.rest + 2) :
    Token.settled limit (t.drain.1.map (·.token)) = [] ∧
      Token.settled limit ((t.extend more).drain.1.map (·.token)) = [] := by
  rcases far with ended | far
  · have ended' : (t.extend more).finished = true := ended
    rw [drain_of_finished ended, drain_of_finished ended']
    exact ⟨rfl, rfl⟩
  · have far' := Lexeme.lt_reach_append more far
    have place : (t.extend more).reader.offset = t.reader.offset := rfl
    have rest : (t.extend more).reader.rest = t.reader.rest ++ more := rfl
    refine ⟨settled_of_reach hs (by omega), ?_⟩
    exact settled_of_reach (t := t.extend more) (hs.append hm) (by rw [place, rest]; omega)

/-- The tokens of a front that are kept are those of the text, and as long as they last the streams
    differ by nothing but the bytes behind the front. -/
theorem settled_extend {front : String} (t : Tokenizer) (ht : t.reader.On front)
    (hm : Spells more) :
    let kept := Token.settled (Source.bytes front).length (t.drain.1.map (·.token))
    Token.settled (Source.bytes front).length ((t.extend more).drain.1.map (·.token)) = kept ∧
      ∀ n ≤ kept.length, (t.advance n).reader.On front ∧
        (t.extend more).advance n = (t.advance n).extend more := by
  intro kept
  by_cases far : t.finished = true ∨ t.reader.rest.length < Lexeme.reach t.reader.rest + 2
  · -- no token is kept, so nothing is left to compare
    obtain ⟨nothing, nothing'⟩ := settled_of_far ht.spells hm ht.length_rest far
    refine ⟨nothing'.trans nothing.symm, ?_⟩
    intro n hn
    simp only [kept, nothing, List.length_nil, Nat.le_zero] at hn
    subst hn
    exact ⟨ht, rfl⟩
  · rw [not_or, Bool.not_eq_true, Nat.not_lt] at far
    -- the next piece is settled, so both streams give the same first token, and then go on alike
    obtain ⟨e, after, next, next'⟩ := next_extend far.1 ht.spells hm far.2
    have := work_next next
    obtain ⟨same, places⟩ := settled_extend after (on_next ht next) hm
    have first : kept = Token.settled (Source.bytes front).length
        (e.token :: after.drain.1.map (·.token)) := by
      simp only [kept, drain_of_next_eq_some next]
      rfl
    constructor
    · rw [drain_of_next_eq_some next', first, List.map_cons, Token.settled_cons, same,
        ← Token.settled_cons]
    · intro n hn
      cases n with
      | zero => exact ⟨ht, rfl⟩
      | succ n =>
        have shorter : kept.length ≤ (Token.settled (Source.bytes front).length
            (after.drain.1.map (·.token))).length + 1 := by
          rw [first, Token.settled_cons]
          split
          · exact Nat.zero_le _
          · exact Nat.le_refl _
        rw [advance, advance, next, next']
        exact places n (by omega)
termination_by t.work

end Tokenizer

/-! ## The front of a text

  What was shown of the front and more bytes is now read as a statement about two texts with this
  front. -/

namespace Tokenizer

/-- The stream of a text is that of its front, with the bytes behind the front at the end. -/
theorem start_append (front rest : String) :
    start (front ++ rest) = (start front).extend (Source.bytes rest) := by
  unfold start extend Reader.start Reader.extend
  rw [Source.bytes_append]

/-- A place on the front that belongs to one text is moved over to another with the same front by
    exchanging the bytes behind it. -/
theorem moved_extend {front : String} {t : Tokenizer} (ht : t.reader.On front)
    (more : List UInt8) (rest : String) :
    (t.extend more).moved (front ++ rest) = t.extend (Source.bytes rest) := by
  have ahead : Token.ahead (front ++ rest) t.reader.offset = t.reader.rest ++ Source.bytes rest := by
    rw [Token.ahead, Source.bytes_append, List.drop_append_of_le_length ht.le, ht.rest_eq,
      Token.ahead]
  unfold moved extend Reader.extend
  rw [ahead]

/-- The tokens that are kept, and behind them those that the stream still gives from there, are all
    tokens. -/
theorem settled_append_drain (limit : Nat) (t : Tokenizer) :
    let kept := Token.settled limit (t.drain.1.map (·.token))
    t.drain.1.map (·.token) = kept ++ (t.advance kept.length).drain.1.map (·.token) := by
  intro kept
  have front : kept <+: t.drain.1.map (·.token) := List.rdropWhile_prefix ..
  rw [drain_advance, List.map_drop]
  exact (List.prefix_iff_eq_append.mp front).symm

end Tokenizer

/-- **Tokens in front of an edit.**  Of two texts with a common front, the tokens up to the last
    piece that ends two bytes before the end of the front are the same; and so are the places in the
    two streams behind these tokens: offset, column, counters, the boundaries allowed, and all else
    but the bytes ahead.  So a stream of the one text that is moved over to the other there goes on
    with the rest of the tokens of the other. -/
theorem settled_tokens (front rest₁ rest₂ : String) :
    let kept := Token.settled (Source.bytes front).length (tokenize (front ++ rest₁))
    let here := (Tokenizer.start (front ++ rest₁)).advance kept.length
    let there := (Tokenizer.start (front ++ rest₂)).advance kept.length
    Token.settled (Source.bytes front).length (tokenize (front ++ rest₂)) = kept ∧
      here.reader.offset = there.reader.offset ∧ here.reader.column = there.reader.column ∧
      here.depths = there.depths ∧ here.allowed = there.allowed ∧
      here.moved (front ++ rest₂) = there ∧
      tokenize (front ++ rest₂) =
        kept ++ (here.moved (front ++ rest₂)).drain.1.map (·.token) := by
  intro kept here there
  obtain ⟨same₁, places₁⟩ := Tokenizer.settled_extend (Tokenizer.start front)
    (Reader.on_start front) (spells_bytes rest₁)
  obtain ⟨same₂, places₂⟩ := Tokenizer.settled_extend (Tokenizer.start front)
    (Reader.on_start front) (spells_bytes rest₂)
  rw [← Tokenizer.start_append] at same₁ same₂
  have same : Token.settled (Source.bytes front).length (tokenize (front ++ rest₂)) = kept :=
    same₂.trans same₁.symm
  have length : kept.length ≤ (Token.settled (Source.bytes front).length
      ((Tokenizer.start front).drain.1.map (·.token))).length := by
    rw [← same₁]
    exact Nat.le_refl _
  -- both places are the one on the front, each with its own bytes behind
  obtain ⟨place, here_eq⟩ := places₁ kept.length length
  obtain ⟨_, there_eq⟩ := places₂ kept.length length
  rw [← Tokenizer.start_append] at here_eq there_eq
  have exchanged : here.moved (front ++ rest₂) = there := by
    simp only [here, there, here_eq, there_eq]
    exact Tokenizer.moved_extend place ..
  have whole := Tokenizer.settled_append_drain (Source.bytes front).length
    (Tokenizer.start (front ++ rest₂))
  refine ⟨same, ?_, ?_, ?_, ?_, exchanged, ?_⟩
  · rw [← exchanged]; rfl
  · rw [← exchanged]; rfl
  · rw [← exchanged]; rfl
  · rw [← exchanged]; rfl
  · rw [exchanged]
    rw [show Token.settled (Source.bytes front).length
      ((Tokenizer.start (front ++ rest₂)).drain.1.map (·.token)) = kept from same] at whole
    exact whole

end Offside

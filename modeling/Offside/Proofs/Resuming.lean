/-
  The account by lines, taken up in the middle of a line.

  The tokenizer never sees lines: it measures again from the end of each token.  The account by
  lines (`Layout.Margin`) reads each line from its start.  This file is the bridge, still without
  the tokenizer.

  1. **Resuming** — `Margin.resume` is the account from an offset on, with what is left of the line
     there as a line of its own.  It goes on byte by byte over white space and piece by piece over
     text (`resume_space`, `resume_lineFeed`, `resume_comment`, `resume_content`).
  2. **Quiet places** — where nothing is announced, white space leads to text or to an end of the
     text that is not announced either (`resume_skipSpace`): if no depth is measured, a carriage
     return or text stands before the line feed, and the carriage return hides what follows.
  3. **Announcements** — where some depth is measured, the next line that is not blank has that
     depth and is announced, or the end of the text is (`resume_of_depthFrom`).

  The difficulty is that a depth is measured at one place and belongs to another.  A scan that
  starts at the end of a line passes the line feed, blank lines and the indentation of the next line
  before it knows the depth; the tokenizer, once the line is announced, passes the same bytes again
  as white space.  In the account by lines the announcement stands in front of the line to which it
  belongs.  So the two have to be compared while the bytes between are passed, and the tabs passed
  so far are carried along (`pre`, `k` in `outcome_of_depthFrom`): they are the front of the line
  that is being looked at, of which only the rest is ahead.
-/
import Mathlib.Data.List.TakeWhile
import Offside.Layout.Margin
import Offside.Proofs.Measuring

namespace Offside

/-! ## Text within a line

  A line is cut off at its line feed before its pieces are taken, and the tokenizer takes pieces of
  the text as it goes on behind the line.  That makes no difference: a comment is two slashes and
  runs to the line feed, and content has no white space in it. -/

/-- Behind the run of elements that pass a test, none that passes comes first. -/
theorem takeWhile_dropWhile_self (p : UInt8 → Bool) (bs : List UInt8) :
    (bs.dropWhile p).takeWhile p = [] := by
  induction bs with
  | nil => rfl
  | cons b bs ih =>
    rw [List.dropWhile_cons]
    split
    · exact ih
    · next h => exact List.takeWhile_cons_of_neg h

/-- Bytes without a line feed in front of others lengthen the line on which these start. -/
theorem takeWhile_append_of_ne {pre : List UInt8} (h : ∀ b ∈ pre, b ≠ 10) (bs : List UInt8) :
    (pre ++ bs).takeWhile (· != 10) = pre ++ bs.takeWhile (· != 10) := by
  refine List.takeWhile_append_of_pos ?_
  intro b hb
  rw [bne_iff_ne]
  exact h b hb

namespace Lexeme

/-- Both slashes of a comment stand on one line, so a line starts a comment if the text does. -/
theorem startsComment_takeWhile (bs : List UInt8) :
    startsComment (bs.takeWhile (· != 10)) = startsComment bs := by
  rw [Bool.eq_iff_iff, startsComment_iff, startsComment_iff]
  constructor
  · rintro ⟨more, h⟩
    obtain ⟨rest, hr⟩ := List.takeWhile_prefix (l := bs) (· != 10)
    rw [h] at hr
    exact ⟨more ++ rest, hr.symm⟩
  · rintro ⟨more, rfl⟩
    exact ⟨more.takeWhile (· != 10), rfl⟩

/-- Content ends at white space, and so within its line: cut off at the line feed it is as long. -/
theorem contentLength_takeWhile (bs : List UInt8) :
    contentLength 0 (bs.takeWhile (· != 10)) = contentLength 0 bs := by
  induction bs with
  | nil => rfl
  | cons b bs ih =>
    by_cases hb : b = 10
    · subst hb; rfl
    · have slash := startsComment_takeWhile (b :: bs)
      rw [List.takeWhile_cons_of_pos (by rwa [bne_iff_ne])] at slash ⊢
      rw [contentLength, contentLength, slash]
      split
      · rfl
      · rw [contentLength_eq_add, ih, ← contentLength_eq_add]

/-- No byte of content is white space, for content ends in front of the first one that is. -/
theorem isSpace_of_mem_take_contentLength {bs : List UInt8} {b : UInt8}
    (h : b ∈ bs.take (contentLength 0 bs)) : isSpace b = false := by
  induction bs with
  | nil => simp at h
  | cons b' bs ih =>
    unfold contentLength at h
    split at h
    · simp at h
    · next hgo =>
      rw [Bool.not_eq_true, Bool.or_eq_false_iff] at hgo
      rw [contentLength_eq_add, Nat.add_comm, List.take_succ_cons] at h
      rcases List.mem_cons.mp h with rfl | h
      · exact hgo.1
      · exact ih h

/-- No byte of content is a line feed, for that is white space. -/
theorem ne_of_mem_take_contentLength {bs : List UInt8} {b : UInt8}
    (h : b ∈ bs.take (contentLength 0 bs)) : b ≠ 10 := by
  rintro rfl
  exact absurd (isSpace_of_mem_take_contentLength h) (by decide)

/-- The line on which content stands is the content and what is left of the line behind it. -/
theorem takeWhile_content (bs : List UInt8) :
    bs.takeWhile (· != 10) = bs.take (contentLength 0 bs) ++
      (bs.drop (contentLength 0 bs)).takeWhile (· != 10) := by
  rw [← takeWhile_append_of_ne fun _ => ne_of_mem_take_contentLength, List.take_append_drop]

theorem length_take_contentLength (bs : List UInt8) :
    (bs.take (contentLength 0 bs)).length = contentLength 0 bs := by
  have := contentLength_le bs
  rw [List.length_take]
  omega

end Lexeme

namespace Line

variable {offset : Nat} {bs : List UInt8}

theorem isSpace_of_isIndent {b : UInt8} (h : isIndent b = true) :
    Lexeme.isSpace b = true ∧ (b == 13) = false := by
  simp only [isIndent, Bool.or_eq_true, beq_iff_eq] at h
  rcases h with rfl | rfl <;> exact ⟨rfl, rfl⟩

theorem piecesFrom_comment (hc : Lexeme.startsComment bs = true) :
    piecesFrom offset bs = [⟨.comment, ⟨offset, offset + bs.length⟩⟩] := by
  obtain ⟨more, rfl⟩ := Lexeme.startsComment_iff.mp hc
  rw [piecesFrom, if_neg (by decide)]
  exact dif_pos hc

theorem hidesFrom_comment {hidden : Bool} (hc : Lexeme.startsComment bs = true) :
    hidesFrom hidden bs = false := by
  obtain ⟨more, rfl⟩ := Lexeme.startsComment_iff.mp hc
  rw [hidesFrom, if_neg (by decide), if_pos hc]

theorem piecesFrom_content {b : UInt8} (hs : Lexeme.isSpace b = false)
    (hc : Lexeme.startsComment (b :: bs) = false) :
    let n := Lexeme.contentLength 0 (b :: bs)
    piecesFrom offset (b :: bs) =
      ⟨.content, ⟨offset, offset + n⟩⟩ :: piecesFrom (offset + n) ((b :: bs).drop n) := by
  intro n
  have hn : n = Lexeme.contentLength 0 bs + 1 := Lexeme.contentLength_cons hs hc
  rw [piecesFrom, if_neg (Bool.eq_false_iff.mp hs), dif_neg (Bool.eq_false_iff.mp hc), hn]
  rfl

theorem hidesFrom_content {hidden : Bool} {b : UInt8} (hs : Lexeme.isSpace b = false)
    (hc : Lexeme.startsComment (b :: bs) = false) :
    hidesFrom hidden (b :: bs) =
      hidesFrom false ((b :: bs).drop (Lexeme.contentLength 0 (b :: bs))) := by
  rw [hidesFrom, if_neg (Bool.eq_false_iff.mp hs), if_neg (Bool.eq_false_iff.mp hc),
    Lexeme.contentLength_cons hs hc]
  rfl

theorem isBlank_of_text {b : UInt8} (pre : List UInt8) (hi : isIndent b = false) (start : Nat)
    (more : List UInt8) : isBlank ⟨start, pre ++ b :: more⟩ = false := by
  rw [isBlank, List.all_append, List.all_cons, hi, Bool.false_and, Bool.and_false]

/-- The depth of a line that is not blank is the number of tabs in front of the first byte of its
    text, up to the largest that a counter holds. -/
theorem depth_of_indent {pre : List UInt8} {b : UInt8} (hp : pre.all isIndent = true)
    (hi : isIndent b = false) (start : Nat) (more : List UInt8) :
    depth ⟨start, pre ++ b :: more⟩ = min 65535 (pre.count 9) := by
  have front : (pre ++ b :: more).takeWhile isIndent = pre := by
    rw [List.takeWhile_append_of_pos (List.all_eq_true.mp hp),
      List.takeWhile_cons_of_neg (Bool.eq_false_iff.mp hi), List.append_nil]
  rw [depth, front]

/-- A line of spaces and tabs alone has no pieces. -/
theorem piecesFrom_of_blank (h : bs.all isIndent = true) : piecesFrom offset bs = [] := by
  induction bs generalizing offset with
  | nil => rw [piecesFrom]
  | cons b bs ih =>
    rw [List.all_cons, Bool.and_eq_true] at h
    rw [piecesFrom, if_pos (isSpace_of_isIndent h.1).1, ih h.2]

/-- A line of spaces and tabs alone hides the next line if it was hidden itself, and not
    otherwise. -/
theorem hidesFrom_of_blank {hidden : Bool} (h : bs.all isIndent = true) :
    hidesFrom hidden bs = hidden := by
  induction bs with
  | nil => rw [hidesFrom]
  | cons b bs ih =>
    rw [List.all_cons, Bool.and_eq_true] at h
    obtain ⟨hs, hr⟩ := isSpace_of_isIndent h.1
    rw [hidesFrom, if_pos hs, hr, Bool.or_false, ih h.2]

/-- Bytes without a line feed in front of others stand on the first line, and the lines behind it
    are the same. -/
theorem split_append {pre : List UInt8} (h : ∀ b ∈ pre, b ≠ 10) (start : Nat) (bs : List UInt8) :
    split start (pre ++ bs) =
      ⟨start, pre ++ bs.takeWhile (· != 10)⟩ :: (split (start + pre.length) bs).tail := by
  rw [split_eq, takeWhile_append_of_ne h, tail_split_append h]

end Line

/-! ## The depth measured, byte by byte

  One equation for each kind of byte at which a scan can stand, and what one more byte of
  indentation does to the count.  The counter stops at its largest value, so it is related to the
  tabs by a minimum. -/

namespace Layout

variable {fresh : Bool} {k : UInt16} {b : UInt8} {bs : List UInt8}

/-- A tab that is passed makes the depth one greater, a space leaves it. -/
theorem depthFrom_indent (hi : Line.isIndent b = true) :
    depthFrom fresh k (b :: bs) = depthFrom fresh (if b = 9 then Depths.deeper k else k) bs := by
  simp only [Line.isIndent, Bool.or_eq_true, beq_iff_eq] at hi
  rcases hi with rfl | rfl <;> rfl

/-- At the first byte of text the depth is known, if the scan came from the start of the line, and
    otherwise nothing is measured. -/
theorem depthFrom_text (hb : b ≠ 10) (hi : Line.isIndent b = false) :
    depthFrom fresh k (b :: bs) = if fresh then some k else none := by
  simp only [Line.isIndent, Bool.or_eq_false_iff, beq_eq_false_iff_ne] at hi
  rw [depthFrom, if_neg hb, if_neg hi.1, if_neg hi.2]

/-- If a counter stands for the tabs of some bytes, it stands for them with one more byte of
    indentation when that byte is counted. -/
theorem toNat_indent {pre : List UInt8} (hk : k.toNat = min 65535 (pre.count 9)) :
    (if b = 9 then Depths.deeper k else k).toNat = min 65535 ((pre ++ [b]).count 9) := by
  rw [List.count_append, List.count_singleton]
  split
  · next h =>
    subst h
    rw [Depths.toNat_deeper, hk, beq_self_eq_true, if_pos rfl]
    omega
  · next h =>
    rw [hk, if_neg (by rwa [beq_iff_eq])]
    rfl

end Layout

namespace Layout.Margin

variable {m : Margin}

theorem announces_announced (m : Margin) (depth : Nat) :
    (m.announced depth).announces = false := by
  rw [announces, announced, Bool.not_true, Bool.false_and]

/-! ## Resuming in the middle of a line

  `resume` cuts the account by lines open at an offset.  What is left of the line becomes a line of
  its own that is never announced, whatever stands on it, since its announcement is behind; the
  margin `m` is the one that stood in front of what is left.  Each lemma moves the cut over one byte
  of white space, or over one piece of text. -/

/-- The tokens from the middle of a line on, and the depth after them: what is left of the line,
    without an announcement, and then the lines behind it. -/
def resume (m : Margin) (offset : Nat) (bs : List UInt8) : List Token × Nat :=
  let line : Line := ⟨offset, bs.takeWhile (· != 10)⟩
  let later := (m.after line).outcome (Line.split offset bs).tail
  (line.pieces ++ later.1, later.2)

/-- Behind a line on which nothing stands the margin is what it was. -/
theorem after_nil (m : Margin) (offset : Nat) : m.after ⟨offset, []⟩ = m := by
  simp [after, Line.pieces, Line.piecesFrom, Line.hidesFrom, hasContent]

/-- At the end of the text what is left is the announcement of the end. -/
theorem resume_nil (m : Margin) (offset : Nat) : m.resume offset [] = m.outcome [] := by
  rw [resume, List.takeWhile_nil, after_nil, Line.pieces, Line.piecesFrom]
  rfl

/-- At a line feed the account is that of the lines behind it. -/
theorem resume_lineFeed (m : Margin) (offset : Nat) (bs : List UInt8) :
    m.resume offset (10 :: bs) = m.outcome (Line.split (offset + 1) bs) := by
  rw [resume, List.takeWhile_cons_of_neg (by decide), after_nil, Line.pieces, Line.piecesFrom]
  rfl

/-- A byte of white space within a line is passed over; if it is a carriage return, the next line is
    hidden from there on. -/
theorem resume_space {b : UInt8} (hs : Lexeme.isSpace b = true) (hb : b ≠ 10) (m : Margin)
    (offset : Nat) (bs : List UInt8) :
    m.resume offset (b :: bs) = { m with hidden := m.hidden || b == 13 }.resume (offset + 1) bs := by
  have later : (Line.split offset (b :: bs)).tail = (Line.split (offset + 1) bs).tail :=
    Line.tail_split_append (List.forall_mem_singleton.mpr hb) offset bs
  have pieces (l : List UInt8) : Line.pieces ⟨offset, b :: l⟩ = Line.pieces ⟨offset + 1, l⟩ := by
    rw [Line.pieces, Line.piecesFrom, if_pos hs]
    rfl
  have same (l : List UInt8) : m.after ⟨offset, b :: l⟩ =
      { m with hidden := m.hidden || b == 13 }.after ⟨offset + 1, l⟩ := by
    rw [after, after, pieces, Line.hidesFrom, if_pos hs]
  rw [resume, resume, List.takeWhile_cons_of_pos (by rwa [bne_iff_ne]), later, pieces, same]

/-- A piece of text is passed over as a whole, and becomes the first token.  Behind it nothing is
    hidden, the text so far ends with the piece, and if it was content, no content is waited for. -/
theorem resume_append {pre bs : List UInt8} {piece : Token} {offset : Nat} (m : Margin)
    (hn : ∀ b ∈ pre, b ≠ 10)
    (hp : Line.piecesFrom offset (pre ++ bs.takeWhile (· != 10)) =
      piece :: Line.piecesFrom (offset + pre.length) (bs.takeWhile (· != 10)))
    (hh : Line.hidesFrom m.hidden (pre ++ bs.takeWhile (· != 10)) =
      Line.hidesFrom false (bs.takeWhile (· != 10))) :
    m.resume offset (pre ++ bs) = Prod.map (piece :: ·) id
      ((Margin.mk m.depth (m.awaits && !(piece.kind == .content)) false piece.span.stop).resume
        (offset + pre.length) bs) := by
  have same : m.after ⟨offset, pre ++ bs.takeWhile (· != 10)⟩ =
      (Margin.mk m.depth (m.awaits && !(piece.kind == .content)) false piece.span.stop).after
        ⟨offset + pre.length, bs.takeWhile (· != 10)⟩ := by
    have last (ps : List Token) : ((piece :: ps).getLast?.map (·.span.stop)).getD m.last =
        (ps.getLast?.map (·.span.stop)).getD piece.span.stop := by
      rw [List.getLast?_cons]
      cases ps.getLast? <;> rfl
    have content (ps : List Token) : (m.awaits && !hasContent (piece :: ps)) =
        (m.awaits && !(piece.kind == .content) && !hasContent ps) := by
      rw [hasContent, List.any_cons, Bool.not_or, Bool.and_assoc, hasContent]
    simp only [after, Line.pieces, hp, hh, last, content]
  rw [resume, takeWhile_append_of_ne hn, Line.tail_split_append hn, same]
  simp only [Line.pieces, hp]
  rfl

/-- A space or a tab is passed over, and the margin is what it was. -/
theorem resume_indent {b : UInt8} (hi : Line.isIndent b = true) (m : Margin) (offset : Nat)
    (bs : List UInt8) : m.resume offset (b :: bs) = m.resume (offset + 1) bs := by
  obtain ⟨hs, hr⟩ := Line.isSpace_of_isIndent hi
  have hb : b ≠ 10 := by
    rintro rfl
    exact absurd hi (by decide)
  rw [resume_space hs hb, hr, Bool.or_false]

/-- A comment is passed over to the end of its line.  If content was waited for, it still is. -/
theorem resume_comment {bs : List UInt8} (hc : Lexeme.startsComment bs = true) (m : Margin)
    (offset : Nat) :
    let stop := offset + (bs.takeWhile (· != 10)).length
    m.resume offset bs = Prod.map (⟨.comment, ⟨offset, stop⟩⟩ :: ·) id
      ((Margin.mk m.depth m.awaits false stop).resume stop (bs.dropWhile (· != 10))) := by
  have line : Lexeme.startsComment (bs.takeWhile (· != 10)) = true := by
    rw [Lexeme.startsComment_takeWhile, hc]
  -- behind the comment there is a line feed, or nothing
  have nothing := takeWhile_dropWhile_self (· != 10) bs
  have within : ∀ b ∈ bs.takeWhile (· != 10), b ≠ 10 := by
    intro b hb
    have := List.mem_takeWhile_imp hb
    rwa [bne_iff_ne] at this
  intro stop
  have pieces : Line.piecesFrom offset
      (bs.takeWhile (· != 10) ++ (bs.dropWhile (· != 10)).takeWhile (· != 10)) =
      ⟨.comment, ⟨offset, stop⟩⟩ ::
        Line.piecesFrom stop ((bs.dropWhile (· != 10)).takeWhile (· != 10)) := by
    rw [nothing, List.append_nil, Line.piecesFrom_comment line, Line.piecesFrom]
  have hides : Line.hidesFrom m.hidden
      (bs.takeWhile (· != 10) ++ (bs.dropWhile (· != 10)).takeWhile (· != 10)) =
      Line.hidesFrom false ((bs.dropWhile (· != 10)).takeWhile (· != 10)) := by
    rw [nothing, List.append_nil, Line.hidesFrom_comment line, Line.hidesFrom]
  have step := m.resume_append within pieces hides
  rw [List.takeWhile_append_dropWhile] at step
  rw [step, show (Token.Kind.comment == Token.Kind.content) = false from rfl, Bool.not_false,
    Bool.and_true]

/-- Content is passed over to where it ends, within its line, and no content is waited for behind
    it. -/
theorem resume_content {b : UInt8} {bs : List UInt8} (hs : Lexeme.isSpace b = false)
    (hc : Lexeme.startsComment (b :: bs) = false) (m : Margin) (offset : Nat) :
    let stop := offset + Lexeme.contentLength 0 (b :: bs)
    m.resume offset (b :: bs) = Prod.map (⟨.content, ⟨offset, stop⟩⟩ :: ·) id
      ((Margin.mk m.depth false false stop).resume stop
        ((b :: bs).drop (Lexeme.contentLength 0 (b :: bs)))) := by
  have front : (b :: bs).takeWhile (· != 10) = b :: bs.takeWhile (· != 10) := by
    have hb : (b != 10) = true := by
      rw [bne_iff_ne]
      rintro rfl
      exact absurd hs (by decide)
    exact List.takeWhile_cons_of_pos hb
  have line := Lexeme.takeWhile_content (b :: bs)
  have long := Lexeme.length_take_contentLength (b :: bs)
  have within : ∀ b' ∈ (b :: bs).take (Lexeme.contentLength 0 (b :: bs)), b' ≠ 10 :=
    fun _ => Lexeme.ne_of_mem_take_contentLength
  have noComment := Lexeme.startsComment_takeWhile (b :: bs)
  have length := Lexeme.contentLength_takeWhile (b :: bs)
  rw [hc, front] at noComment
  rw [front] at length line
  -- from here on the length is any number of which these facts hold
  generalize Lexeme.contentLength 0 (b :: bs) = n at *
  have rest : ((b :: bs).drop n).takeWhile (· != 10) = (b :: bs.takeWhile (· != 10)).drop n := by
    rw [line, List.drop_left' long]
  intro stop
  have pieces : Line.piecesFrom offset
      ((b :: bs).take n ++ ((b :: bs).drop n).takeWhile (· != 10)) =
      ⟨.content, ⟨offset, stop⟩⟩ :: Line.piecesFrom (offset + ((b :: bs).take n).length)
        (((b :: bs).drop n).takeWhile (· != 10)) := by
    rw [← line, Line.piecesFrom_content hs noComment, length, ← rest, long]
  have hides : Line.hidesFrom m.hidden
      ((b :: bs).take n ++ ((b :: bs).drop n).takeWhile (· != 10)) =
      Line.hidesFrom false (((b :: bs).drop n).takeWhile (· != 10)) := by
    rw [← line, Line.hidesFrom_content hs noComment, length, ← rest]
  have step := m.resume_append within pieces hides
  rw [List.take_append_drop, long] at step
  rw [step, show (Token.Kind.content == Token.Kind.content) = true from rfl, Bool.not_true,
    Bool.and_false]

/-- A line in front of which nothing is announced goes on like the rest of a line. -/
theorem outcome_split (hm : m.announces = false) (offset : Nat) (bs : List UInt8) :
    m.outcome (Line.split offset bs) = m.resume offset bs := by
  rw [Line.split_eq, outcome, resume, lineTokens, pass, hm]
  split
  · next hb =>
    have blank : (bs.takeWhile (· != 10)).all Line.isIndent = true := hb
    have pieces : Line.pieces ⟨offset, bs.takeWhile (· != 10)⟩ = [] :=
      Line.piecesFrom_of_blank blank
    have same : m.after ⟨offset, bs.takeWhile (· != 10)⟩ = m := by
      rw [after, pieces, Line.hidesFrom_of_blank blank]
      simp [hasContent]
    rw [pieces, same]
  · simp only [Bool.false_eq_true, if_false]

/-! ## Where nothing is announced

  There are two reasons for which nothing is announced at a place: the margin does not let it
  (content is still to come, or the line is hidden), or no depth is measured there.  Over white
  space the one can turn into the other: a scan that stops at a carriage return measures nothing,
  and once the carriage return is passed, it is the margin that hides the next line. -/

/-- If nothing is announced in front of a byte of white space within a line, nothing is behind it,
    be it for another reason. -/
theorem quiet_of_space {d : UInt16} {b : UInt8} {bs : List UInt8} (hs : Lexeme.isSpace b = true)
    (hb : b ≠ 10) (quiet : m.announces = false ∨ depthFrom false d (b :: bs) = none) :
    ∃ d', { m with hidden := m.hidden || b == 13 }.announces = false ∨
      depthFrom false d' bs = none := by
  rcases quiet with hm | hn
  · refine ⟨0, .inl ?_⟩
    obtain ⟨depth, awaits, hidden, last⟩ := m
    cases awaits <;> cases hidden <;> simp_all [announces]
  · simp only [Lexeme.isSpace, Bool.or_eq_true, beq_iff_eq] at hs
    rcases hs with ((rfl | rfl) | rfl) | rfl
    · exact ⟨d, .inr hn⟩
    · exact ⟨Depths.deeper d, .inr hn⟩
    · exact absurd rfl hb
    · -- the carriage return itself hides what follows
      exact ⟨0, .inl (by simp [announces])⟩

/-- If nothing is announced at a place, the white space ahead leads to text, with the account going
    on from there, or to an end of the text that is not announced either. -/
theorem resume_skipSpace {d : UInt16} {bs : List UInt8}
    (quiet : m.announces = false ∨ depthFrom false d bs = none) (offset : Nat) :
    ∃ hidden, (bs.dropWhile Lexeme.isSpace = [] → { m with hidden := hidden }.announces = false) ∧
      m.resume offset bs = { m with hidden := hidden }.resume
        (offset + (bs.takeWhile Lexeme.isSpace).length) (bs.dropWhile Lexeme.isSpace) := by
  induction bs generalizing m d offset with
  | nil =>
    refine ⟨m.hidden, ?_, rfl⟩
    intro _
    rcases quiet with hm | hn
    · exact hm
    · simp [depthFrom] at hn
  | cons b bs ih =>
    by_cases hs : Lexeme.isSpace b = true
    · rw [List.dropWhile_cons_of_pos hs, List.takeWhile_cons_of_pos hs, List.length_cons,
        show offset + ((bs.takeWhile Lexeme.isSpace).length + 1) =
          offset + 1 + (bs.takeWhile Lexeme.isSpace).length by omega]
      by_cases hb : b = 10
      · -- behind the line feed a line would be measured
        subst hb
        have hm : m.announces = false :=
          quiet.resolve_right fun hn => depthFrom_true_ne_none 0 bs hn
        rw [resume_lineFeed, outcome_split hm]
        exact ih (d := 0) (.inl hm) (offset + 1)
      · rw [resume_space hs hb]
        obtain ⟨d', quiet'⟩ := quiet_of_space hs hb quiet
        exact ih quiet' (offset + 1)
    · rw [List.dropWhile_cons_of_neg hs, List.takeWhile_cons_of_neg hs]
      refine ⟨m.hidden, ?_, rfl⟩
      intro h
      exact absurd h (List.cons_ne_nil b bs)

/-! ## Where a line is announced

  Here a depth is measured, and the margin lets it be announced.  The account by lines announces the
  next line that is not blank, so it has to be shown that this line has the depth that was measured,
  and that blank lines in between, with whatever tabs they have, count for nothing on either
  side. -/

/-- The end of the text is announced as a line of depth zero, and then it is not announced again. -/
theorem outcome_nil (hm : m.announces = true) :
    m.outcome [] = Prod.map (announce m.depth 0 m.last ++ ·) id ((m.announced 0).outcome []) := by
  rw [outcome, outcome, endTokens, endDepth, endTokens, endDepth, hm, announces_announced]
  simp [announced]

/-- A line that is not blank is announced with its depth, and then goes on as a line that has been
    announced. -/
theorem outcome_cons (hm : m.announces = true) {l : Line} (hb : l.isBlank = false)
    (ls : List Line) :
    m.outcome (l :: ls) = Prod.map (announce m.depth l.depth m.last ++ ·) id
      ((m.announced l.depth).outcome (l :: ls)) := by
  rw [outcome, outcome, lineTokens, lineTokens, pass, pass, hm, announces_announced, hb]
  simp

/-- A blank line has no part in the layout: neither tokens nor a depth come of it. -/
theorem outcome_blank {l : Line} (hb : l.isBlank = true) (m : Margin) (ls : List Line) :
    m.outcome (l :: ls) = m.outcome ls := by
  rw [outcome, lineTokens, pass, if_pos hb, if_pos hb]
  rfl

/-- From the start of a line: if `k` counts the tabs of the indentation `pre` that was passed, and
    `d` is measured behind it, then a line of depth `d` is announced in front of the line that
    starts with `pre`, or in front of a later one if that line is blank. -/
theorem outcome_of_depthFrom {k d : UInt16} {pre bs : List UInt8} (hm : m.announces = true)
    (hp : pre.all Line.isIndent = true) (hk : k.toNat = min 65535 (pre.count 9))
    (hd : depthFrom true k bs = some d) (offset : Nat) :
    m.outcome (Line.split offset (pre ++ bs)) =
      Prod.map (announce m.depth d.toNat m.last ++ ·) id
        ((m.announced d.toNat).outcome (Line.split offset (pre ++ bs))) := by
  have within : ∀ b ∈ pre, b ≠ 10 := by
    rintro b hb rfl
    exact absurd (List.all_eq_true.mp hp 10 hb) (by decide)
  induction bs generalizing k pre offset with
  | nil =>
    -- the last line is blank
    cases hd
    have blank : Line.isBlank ⟨offset, pre ++ []⟩ = true := by rwa [List.append_nil]
    rw [Line.split_append within, List.takeWhile_nil, outcome_blank blank, outcome_blank blank]
    exact outcome_nil hm
  | cons b bs ih =>
    by_cases hb : b = 10
    · -- the line is blank, and the tabs count anew behind it
      subst hb
      have blank : Line.isBlank ⟨offset, pre ++ []⟩ = true := by rwa [List.append_nil]
      rw [Line.split_append within, List.takeWhile_cons_of_neg (by decide), outcome_blank blank,
        outcome_blank blank]
      have none_yet : ([] : List UInt8).all Line.isIndent = true := rfl
      exact ih none_yet (k := 0) rfl hd (offset + pre.length + 1) (List.forall_mem_nil _)
    · by_cases hi : Line.isIndent b = true
      · rw [depthFrom_indent hi] at hd
        have all : (pre ++ [b]).all Line.isIndent = true := by simp [hp, hi]
        have count := toNat_indent (b := b) hk
        have longer : ∀ b' ∈ pre ++ [b], b' ≠ 10 := by
          intro b' hb'
          rcases List.mem_append.mp hb' with h | h
          · exact within b' h
          · rwa [List.mem_singleton.mp h]
        have step := ih all count hd offset longer
        rwa [List.append_assoc, List.singleton_append] at step
      · rw [Bool.not_eq_true] at hi
        rw [depthFrom_text hb hi] at hd
        cases hd
        have line : (b :: bs).takeWhile (· != 10) = b :: bs.takeWhile (· != 10) :=
          List.takeWhile_cons_of_pos (bne_iff_ne.mpr hb)
        have depth := Line.depth_of_indent hp hi offset (bs.takeWhile (· != 10))
        have step := outcome_cons hm (Line.isBlank_of_text pre hi offset (bs.takeWhile (· != 10)))
          (Line.split (offset + pre.length) (b :: bs)).tail
        rw [Line.split_append within, line]
        rwa [depth, ← hk] at step

/-- From the middle of a line: if `d` is measured there, then nothing but white space is left of the
    line, and the tokens from there on are the announcement of a line of depth `d` and what comes
    once it is announced. -/
theorem resume_of_depthFrom {k d : UInt16} {bs : List UInt8} (hm : m.announces = true)
    (hd : depthFrom false k bs = some d) (offset : Nat) :
    m.resume offset bs = Prod.map (announce m.depth d.toNat m.last ++ ·) id
      ((m.announced d.toNat).resume offset bs) := by
  induction bs generalizing k offset with
  | nil =>
    cases hd
    rw [resume_nil, resume_nil]
    exact outcome_nil hm
  | cons b bs ih =>
    by_cases hb : b = 10
    · subst hb
      rw [resume_lineFeed, resume_lineFeed]
      exact outcome_of_depthFrom (k := 0) hm List.all_nil rfl hd (offset + 1)
    · by_cases hi : Line.isIndent b = true
      · rw [depthFrom_indent hi] at hd
        rw [resume_indent hi, resume_indent hi]
        exact ih hd (offset + 1)
      · rw [depthFrom_text hb (Bool.eq_false_iff.mpr hi)] at hd
        simp at hd

end Layout.Margin

end Offside

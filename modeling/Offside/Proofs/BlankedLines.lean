/-
  Blanked texts, line by line.

  A blanked text has a space for each byte of a comment.  That it has the tokens of the text less
  the comments is not said of the text as a whole at once: it is shown of one line, then of the
  lines side by side, and last of the text, whose tokens say which bytes are hidden.

  1. **Pieces** — a comment goes to the end of its line, so content ends in front of it as it ends
     in front of a space.  The bytes of a line that are hidden are those of its comments
     (`Line.HidesComments`), and so a blanked line has the content of the line and nothing else
     (`Line.piecesFrom_blankBytes`).
  2. **Lines** — no line feed belongs to a comment, so each line is blanked where it stands
     (`Line.split_blankBytes`).  A line with content keeps its indentation, and one without becomes
     a blank line, which is what `Line.BlankedBy` says.
  3. **Texts** — lines have no byte in common, so what the tokens of a text hide on a line is what
     its own pieces hide (`Line.hidesComments`).

  `HidesComments` is the invariant of the walk along a line.  It is told for the bytes from a place
  to the end of the line, and each case of `piecesFrom` hands it on: behind white space
  (`HidesComments.tail`) and behind content (`HidesComments.drop`); a comment ends the walk.
-/
import Offside.Proofs.Blanking
import Offside.Proofs.Lines

namespace Offside

variable {text : String} {hidden : Nat → Bool} {offset : Nat}

/-! ## Pieces

  How far content goes is decided by the bytes behind it, and those are changed where a comment
  follows.  So it has to be shown that content neither grows nor shrinks when what stands behind it
  is replaced by white space, and that no comment comes about at the seam, where a slash could have
  met another one. -/

namespace Lexeme

/-- A comment starts with a slash, so none starts with white space. -/
theorem startsComment_of_space {b : UInt8} (hs : isSpace b = true) (bs : List UInt8) :
    startsComment (b :: bs) = false := by
  rw [Bool.eq_false_iff]
  intro hc
  obtain ⟨more, he⟩ := startsComment_iff.mp hc
  cases he
  exact absurd hs (by decide)

/-- Content with white space put behind it starts no comment if it started none before: the second
    slash would have to be the first byte behind the content, or a byte of the content itself. -/
theorem startsComment_take_append {b : UInt8} {bs back : List UInt8}
    (hc : startsComment (b :: bs) = false) (hb : ∀ b ∈ back.head?, isSpace b = true) :
    startsComment (b :: (bs.take (contentLength 0 bs) ++ back)) = false := by
  rw [Bool.eq_false_iff]
  intro hs
  obtain ⟨more, he⟩ := startsComment_iff.mp hs
  rw [List.cons.injEq] at he
  obtain ⟨rfl, he⟩ := he
  match hk : bs.take (contentLength 0 bs) with
  | [] =>
    rw [hk, List.nil_append] at he
    have space : isSpace 47 = true := hb 47 (by rw [he]; rfl)
    exact absurd space (by decide)
  | b' :: word =>
    rw [hk, List.cons_append, List.cons.injEq] at he
    obtain ⟨rfl, _⟩ := he
    obtain ⟨later, hl⟩ := List.take_prefix (contentLength 0 bs) bs
    rw [hk, List.cons_append] at hl
    rw [← hl] at hc
    simp [startsComment] at hc

/-- Where white space or nothing stands, content has no length. -/
theorem contentLength_of_space {bs : List UInt8} (hb : ∀ b ∈ bs.head?, isSpace b = true) :
    contentLength 0 bs = 0 := by
  cases bs with
  | nil => rfl
  | cons b bs =>
    have space : isSpace b = true := hb b rfl
    rw [contentLength, space, Bool.true_or, if_pos rfl]

/-- Content that is cut off where it ends, with white space put behind it, is as long as it was.
    The induction is on the bytes, and each byte passed asks again whether a comment starts at
    it. -/
theorem contentLength_take_append {bs back : List UInt8}
    (hb : ∀ b ∈ back.head?, isSpace b = true) :
    contentLength 0 (bs.take (contentLength 0 bs) ++ back) = contentLength 0 bs := by
  induction bs with
  | nil => exact contentLength_of_space hb
  | cons b bs ih =>
    by_cases hs : (isSpace b || startsComment (b :: bs)) = true
    · have stop : contentLength 0 (b :: bs) = 0 := by rw [contentLength, if_pos hs]
      rw [stop]
      exact contentLength_of_space hb
    · rw [Bool.not_eq_true, Bool.or_eq_false_iff] at hs
      obtain ⟨hs, hc⟩ := hs
      rw [contentLength_cons hs hc, List.take_succ_cons, List.cons_append,
        contentLength_cons hs (startsComment_take_append hc hb), ih]

end Lexeme

namespace Line

variable {bs : List UInt8}

/-- A byte that the pieces of a line hide is a byte of that line: it stands behind the place where
    the pieces start, and in front of the end of the line. -/
theorem range_of_hidden {i : Nat} (h : Token.hidden (piecesFrom offset bs) i = true) :
    offset ≤ i ∧ i < offset + bs.length := by
  fun_induction piecesFrom offset bs with
  | case1 => simp [Token.hidden] at h
  | case2 offset b bs _ ih =>
    have := ih h
    rw [List.length_cons]
    omega
  | case3 offset b bs _ _ =>
    rw [Token.hidden, List.any_cons, List.any_nil, Bool.or_false, Token.hides_iff] at h
    exact h.2
  | case4 offset b bs _ _ length ih =>
    rw [Token.hidden, List.any_cons, Bool.or_eq_true, Token.hides_iff] at h
    have within := ih (h.resolve_left (by simp))
    have := Lexeme.contentLength_le bs
    rw [List.length_drop] at within
    rw [List.length_cons]
    omega

/-- From a place to the end of its line, the bytes hidden are those of the comments that start there
    or further on. -/
def HidesComments (hidden : Nat → Bool) (offset : Nat) (bs : List UInt8) : Prop :=
  ∀ i, offset ≤ i → i < offset + bs.length → hidden i = Token.hidden (piecesFrom offset bs) i

/-- The first byte of what is left of a line is hidden exactly if a comment starts at it, for any
    comment further on stands behind it. -/
theorem HidesComments.head {b : UInt8} (h : HidesComments hidden offset (b :: bs)) :
    hidden offset = Lexeme.startsComment (b :: bs) := by
  have here := h offset (Nat.le_refl _) (by simp)
  have behind {n : Nat} (hn : 0 < n) (bs : List UInt8) :
      Token.hidden (piecesFrom (offset + n) bs) offset = false := by
    rw [Bool.eq_false_iff]
    intro hh
    have := range_of_hidden hh
    omega
  rw [here]
  by_cases hs : Lexeme.isSpace b = true
  · rw [piecesFrom, if_pos hs, behind Nat.one_pos, Lexeme.startsComment_of_space hs]
  · rw [Bool.not_eq_true] at hs
    by_cases hc : Lexeme.startsComment (b :: bs) = true
    · rw [piecesFrom_comment hc, hc, Token.hidden, List.any_cons, List.any_nil, Bool.or_false,
        Token.hides_iff]
      exact ⟨rfl, Nat.le_refl _, by simp⟩
    · rw [Bool.not_eq_true] at hc
      have long := Lexeme.contentLength_pos hs hc
      rw [piecesFrom_content hs hc, hc, Token.hidden, List.any_cons, Bool.or_eq_false_iff]
      exact ⟨rfl, behind long _⟩

/-- Behind a byte of white space the same bytes are hidden, for the pieces are the same. -/
theorem HidesComments.tail {b : UInt8} (h : HidesComments hidden offset (b :: bs))
    (hs : Lexeme.isSpace b = true) : HidesComments hidden (offset + 1) bs := by
  intro i hlo hhi
  have same := h i (by omega) (by rw [List.length_cons]; omega)
  rwa [piecesFrom, if_pos hs] at same

/-- No byte of content is hidden, and behind the content the bytes hidden are those of the comments
    that are left. -/
theorem HidesComments.drop {b : UInt8} (h : HidesComments hidden offset (b :: bs))
    (hs : Lexeme.isSpace b = false) (hc : Lexeme.startsComment (b :: bs) = false) :
    let n := Lexeme.contentLength 0 (b :: bs)
    (∀ i < n, hidden (offset + i) = false) ∧
      HidesComments hidden (offset + n) ((b :: bs).drop n) := by
  intro n
  have le := Lexeme.contentLength_le (b :: bs)
  have later : ∀ i, Token.hidden (piecesFrom offset (b :: bs)) i =
      Token.hidden (piecesFrom (offset + n) ((b :: bs).drop n)) i := by
    intro i
    rw [piecesFrom_content hs hc, Token.hidden, List.any_cons]
    exact Bool.false_or _
  constructor
  · intro i hi
    rw [h _ (Nat.le_add_right ..) (by omega), later, Bool.eq_false_iff]
    intro hh
    have := range_of_hidden hh
    omega
  · intro i hlo hhi
    rw [List.length_drop] at hhi
    rw [h i (by omega) (by omega), later]

/-- Where content ended, the blanked line has white space or ends.  Content ends in front of white
    space, which is shown, or in front of a comment, which is written as spaces. -/
theorem HidesComments.isSpace_head (h : HidesComments hidden offset bs)
    (stop : ∀ b more, bs = b :: more →
      Lexeme.isSpace b = true ∨ Lexeme.startsComment (b :: more) = true) :
    ∀ b ∈ (Source.blankBytes hidden offset bs).head?, Lexeme.isSpace b = true := by
  match bs with
  | [] => simp [Source.blankBytes]
  | b :: bs =>
    rw [Source.blankBytes, h.head, List.head?_cons]
    rintro _ ⟨rfl⟩
    split
    · rfl
    · next no => exact (stop b bs rfl).resolve_right no

/-- A line that starts with content starts with the same content when it is blanked, and goes on
    with the rest of the line, blanked. -/
theorem HidesComments.blankBytes_content {b : UInt8} (h : HidesComments hidden offset (b :: bs))
    (hs : Lexeme.isSpace b = false) (hc : Lexeme.startsComment (b :: bs) = false) :
    let n := Lexeme.contentLength 0 (b :: bs)
    Source.blankBytes hidden offset (b :: bs) =
      (b :: bs).take n ++ Source.blankBytes hidden (offset + n) ((b :: bs).drop n) := by
  intro n
  have size : ((b :: bs).take n).length = n := Lexeme.length_take_contentLength _
  have shown : ∀ i < ((b :: bs).take n).length, hidden (offset + i) = false := by
    rw [size]
    exact (h.drop hs hc).1
  have parts : Source.blankBytes hidden offset ((b :: bs).take n ++ (b :: bs).drop n) = _ :=
    Source.blankBytes_append _ _
  rwa [List.take_append_drop, size, Source.blankBytes_of_shown shown] at parts

/-- In front of white space the content of a line is the piece that it was, and the pieces behind it
    are those of what was put there. -/
theorem piecesFrom_take_append {b : UInt8} {back : List UInt8} (hs : Lexeme.isSpace b = false)
    (hc : Lexeme.startsComment (b :: bs) = false)
    (hb : ∀ b ∈ back.head?, Lexeme.isSpace b = true) :
    let n := Lexeme.contentLength 0 (b :: bs)
    piecesFrom offset ((b :: bs).take n ++ back) =
      ⟨.content, ⟨offset, offset + n⟩⟩ :: piecesFrom (offset + n) back := by
  intro n
  have size : ((b :: bs).take n).length = n := Lexeme.length_take_contentLength _
  have long : Lexeme.contentLength 0 ((b :: bs).take n ++ back) = n :=
    Lexeme.contentLength_take_append hb
  have text : (b :: bs).take n ++ back =
      b :: (bs.take (Lexeme.contentLength 0 bs) ++ back) := by
    show (b :: bs).take (Lexeme.contentLength 0 (b :: bs)) ++ back = _
    rw [Lexeme.contentLength_cons hs hc]
    rfl
  have behind : ((b :: bs).take n ++ back).drop n = back := List.drop_left' size
  rw [text] at long behind ⊢
  rw [piecesFrom_content hs (Lexeme.startsComment_take_append hc hb), long, behind]

/-- The pieces of a blanked line are the pieces of the line less its comments, each in its place.
    The cases are those of `piecesFrom`: the end of the line, white space, a comment, content. -/
theorem piecesFrom_blankBytes (h : HidesComments hidden offset bs) :
    piecesFrom offset (Source.blankBytes hidden offset bs) =
      Layout.withoutComments (piecesFrom offset bs) := by
  fun_induction piecesFrom offset bs with
  | case1 => rw [Source.blankBytes, piecesFrom]; rfl
  | case2 offset b bs hs ih =>
    rw [Source.blankBytes, h.head, Lexeme.startsComment_of_space hs, if_neg Bool.false_ne_true,
      piecesFrom, if_pos hs, ih (h.tail hs)]
  | case3 offset b bs hs hc =>
    -- a comment leaves spaces up to the end of the line
    have all : ∀ i < (b :: bs).length, hidden (offset + i) = true := by
      intro i hi
      rw [h _ (Nat.le_add_right ..) (by omega), piecesFrom_comment hc, Token.hidden, List.any_cons,
        List.any_nil, Bool.or_false, Token.hides_iff]
      exact ⟨rfl, Nat.le_add_right .., by simpa using hi⟩
    rw [Source.blankBytes_of_hidden all, piecesFrom_of_blank (by simp [isIndent])]
    rfl
  | case4 offset b bs hs hc length ih =>
    rw [Bool.not_eq_true] at hs hc
    have count : Lexeme.contentLength 0 (b :: bs) = length := Lexeme.contentLength_cons hs hc
    have later := (h.drop hs hc).2
    have space := later.isSpace_head fun _ _ => Token.head_drop_contentLength
    rw [h.blankBytes_content hs hc, piecesFrom_take_append hs hc space]
    rw [count] at later ⊢
    exact congrArg (_ :: ·) (ih later)

/-- On a line without line feeds and carriage returns, white space is spaces and tabs. -/
theorem isIndent_of_isSpace {b : UInt8} (hs : Lexeme.isSpace b = true) (hb : b ≠ 10 ∧ b ≠ 13) :
    isIndent b = true := by
  simp only [Lexeme.isSpace, Bool.or_eq_true, beq_iff_eq] at hs
  rcases hs with ((rfl | rfl) | rfl) | rfl
  · rfl
  · rfl
  · exact absurd rfl hb.1
  · exact absurd rfl hb.2

/-- A line with content keeps the spaces and tabs in front of it when it is blanked: a comment in
    front of its text would go to the end of the line and leave no content. -/
theorem takeWhile_blankBytes (h : HidesComments hidden offset bs)
    (hb : ∀ b ∈ bs, b ≠ 10 ∧ b ≠ 13) (hc : Layout.hasContent (piecesFrom offset bs) = true) :
    (Source.blankBytes hidden offset bs).takeWhile isIndent = bs.takeWhile isIndent := by
  fun_induction piecesFrom offset bs with
  | case1 => simp [Layout.hasContent] at hc
  | case2 offset b bs hs ih =>
    have indent : isIndent b = true := isIndent_of_isSpace hs (hb b List.mem_cons_self)
    have later := ih (h.tail hs) (fun b' hb' => hb b' (List.mem_cons_of_mem b hb')) hc
    rw [Source.blankBytes, h.head, Lexeme.startsComment_of_space hs, if_neg Bool.false_ne_true,
      List.takeWhile_cons_of_pos indent, List.takeWhile_cons_of_pos indent, later]
  | case3 => simp [Layout.hasContent] at hc
  | case4 offset b bs hs hno length _ =>
    rw [Bool.not_eq_true] at hno
    have text : ¬isIndent b = true := fun hi => hs (isSpace_of_isIndent hi).1
    rw [Source.blankBytes, h.head, hno, if_neg Bool.false_ne_true,
      List.takeWhile_cons_of_neg text, List.takeWhile_cons_of_neg text]

/-- A line without carriage returns that has no pieces is made of spaces and tabs. -/
theorem all_isIndent_of_piecesFrom (hb : ∀ b ∈ bs, b ≠ 10 ∧ b ≠ 13)
    (hp : piecesFrom offset bs = []) : bs.all isIndent = true := by
  fun_induction piecesFrom offset bs with
  | case1 => rfl
  | case2 offset b bs hs ih =>
    have indent : isIndent b = true := isIndent_of_isSpace hs (hb b List.mem_cons_self)
    rw [List.all_cons, indent, Bool.true_and]
    exact ih (fun b' hb' => hb b' (List.mem_cons_of_mem b hb')) hp
  | case3 => simp at hp
  | case4 => simp at hp

/-- Nothing is left of the pieces of a line without its comments exactly if none of them is
    content. -/
theorem withoutComments_eq_nil_iff :
    Layout.withoutComments (piecesFrom offset bs) = [] ↔
      Layout.hasContent (piecesFrom offset bs) = false := by
  fun_induction piecesFrom offset bs with
  | case1 => simp [Layout.withoutComments, Layout.hasContent]
  | case2 _ _ _ _ ih => exact ih
  | case3 => simp [Layout.withoutComments, Layout.hasContent]
  | case4 => simp [Layout.withoutComments, Layout.hasContent]

/-! ## Lines

  Blanking works on the bytes of a whole text and does not know of lines.  It does not move line
  feeds and makes none, so cutting a blanked text into lines gives the lines of the text, each
  blanked where it stands.  The rest of the section says where lines stand: in order, and with no
  byte in common. -/

/-- A line with a space for each hidden byte, at the same place. -/
def blank (hidden : Nat → Bool) (l : Line) : Line :=
  ⟨l.start, Source.blankBytes hidden l.start l.bytes⟩

/-- A blanked line has the content of the line, and its depth.  Without content it is blank, and
    then it has no depth that would count. -/
structure BlankedBy (hidden : Nat → Bool) (l : Line) : Prop where
  pieces : (l.blank hidden).pieces = Layout.withoutComments l.pieces
  isBlank : (l.blank hidden).isBlank = !Layout.hasContent l.pieces
  depth : Layout.hasContent l.pieces = true → (l.blank hidden).depth = l.depth

/-- A line without carriage returns whose comments are hidden is blanked to its content: its pieces
    are those of content, it is blank if it has none, and otherwise it is as deep as it was. -/
theorem blankedBy {l : Line} (h : HidesComments hidden l.start l.bytes)
    (hb : ∀ b ∈ l.bytes, b ≠ 10 ∧ b ≠ 13) : l.BlankedBy hidden := by
  have pieces := piecesFrom_blankBytes h
  refine ⟨pieces, ?_, ?_⟩
  · match hc : Layout.hasContent l.pieces with
    | false =>
      rw [Bool.not_false]
      refine all_isIndent_of_piecesFrom ?_ (pieces.trans (withoutComments_eq_nil_iff.mpr hc))
      intro b hm
      rcases Source.mem_blankBytes hm with rfl | hm
      · decide
      · exact hb b hm
    | true =>
      rw [Bool.not_true, Bool.eq_false_iff]
      intro blank
      have nothing := withoutComments_eq_nil_iff.mp (pieces.symm.trans (piecesFrom_of_blank blank))
      rw [show Layout.hasContent l.pieces = false from nothing] at hc
      simp at hc
  · intro hc
    rw [depth, depth, blank, takeWhile_blankBytes h hb hc]

/-- Where no line feed is hidden, the lines of a blanked text are the lines of the text, each
    blanked.  A byte that is blanked becomes a space and so does not cut a line in two. -/
theorem split_blankBytes {start : Nat} {bs : List UInt8}
    (h : ∀ i, bs[i]? = some 10 → hidden (start + i) = false) :
    split start (Source.blankBytes hidden start bs) = (split start bs).map (blank hidden) := by
  induction bs generalizing start with
  | nil => rfl
  | cons b bs ih =>
    have later : split (start + 1) (Source.blankBytes hidden (start + 1) bs) =
        (split (start + 1) bs).map (blank hidden) := by
      refine ih ?_
      intro i hi
      rw [Nat.add_right_comm]
      exact h (i + 1) hi
    by_cases hb : b = 10
    · subst hb
      have shown : hidden start = false := h 0 rfl
      rw [Source.blankBytes, shown, if_neg Bool.false_ne_true, split, if_pos rfl, later, split,
        if_pos rfl]
      rfl
    · -- blanked or not, the byte ends no line, so it goes in front of the first line of the rest
      have other : ∀ b' ∈ [if hidden start then 32 else b], b' ≠ 10 := by
        intro b' hb'
        rw [List.mem_singleton] at hb'
        subst hb'
        split
        · decide
        · exact hb
      have first : ∀ b' ∈ [b], b' ≠ 10 := by simpa using hb
      rw [split_eq (start + 1) bs, split_eq, List.map_cons, List.cons.injEq] at later
      obtain ⟨head, tail⟩ := later
      have bytes := congrArg Line.bytes head
      have blanked := split_append other start (Source.blankBytes hidden (start + 1) bs)
      have whole := split_append first start bs
      rw [List.singleton_append] at blanked whole
      rw [Source.blankBytes, blanked, whole, List.map_cons]
      exact congrArg₂ _ (congrArg (Line.mk start ∘ (_ :: ·)) bytes) tail

/-- No line starts in front of the place where the first one starts, and none has a line feed on
    it. -/
theorem of_mem_split {start : Nat} {bs : List UInt8} {l : Line} (hl : l ∈ split start bs) :
    start ≤ l.start ∧ ∀ b ∈ l.bytes, b ≠ 10 := by
  induction bs generalizing start l with
  | nil =>
    obtain rfl := List.mem_singleton.mp hl
    exact ⟨Nat.le_refl start, List.forall_mem_nil _⟩
  | cons b bs ih =>
    unfold split at hl
    split at hl
    · rcases List.mem_cons.mp hl with rfl | hl
      · exact ⟨Nat.le_refl start, List.forall_mem_nil _⟩
      · exact (ih hl).imp_left Nat.le_of_succ_le
    · next hne =>
      rw [split_eq (start + 1)] at hl
      rcases List.mem_cons.mp hl with rfl | hl
      · refine ⟨Nat.le_refl start, List.forall_mem_cons.mpr ⟨hne, ?_⟩⟩
        intro b' hb'
        exact bne_iff_ne.mp (List.mem_takeWhile_imp (p := (· != 10)) hb')
      · exact (ih (List.mem_of_mem_tail hl)).imp_left Nat.le_of_succ_le

/-- A line ends before the next one starts: the line feed between them belongs to neither. -/
theorem pairwise_split (start : Nat) (bs : List UInt8) :
    (split start bs).Pairwise fun l l' => l.start + l.bytes.length < l'.start := by
  induction bs generalizing start with
  | nil => exact List.pairwise_singleton ..
  | cons b bs ih =>
    have later := ih (start + 1)
    unfold split
    split
    · refine List.pairwise_cons.mpr ⟨?_, later⟩
      intro l hl
      exact (of_mem_split hl).1
    · rw [split_eq (start + 1)] at later ⊢
      obtain ⟨first, rest⟩ := List.pairwise_cons.mp later
      refine List.pairwise_cons.mpr ⟨?_, rest⟩
      intro l hl
      have := first l hl
      simp only [List.length_cons] at this ⊢
      omega

/-- Two different lines of a text have no byte in common, for one of them ends in front of the
    other. -/
theorem apart_of_mem_split {start : Nat} {bs : List UInt8} {l l' : Line}
    (hl : l ∈ split start bs) (hl' : l' ∈ split start bs) (hne : l ≠ l') :
    l.start + l.bytes.length < l'.start ∨ l'.start + l'.bytes.length < l.start := by
  have order := List.pairwise_iff_getElem.mp (pairwise_split start bs)
  obtain ⟨i, hi, rfl⟩ := List.mem_iff_getElem.mp hl
  obtain ⟨j, hj, rfl⟩ := List.mem_iff_getElem.mp hl'
  rcases Nat.lt_trichotomy i j with hlt | rfl | hlt
  · exact .inl (order i j hi hj hlt)
  · exact absurd rfl hne
  · exact .inr (order j i hj hi hlt)

end Line

/-! ## Texts

  What is hidden in a text is told by all its tokens.  Boundaries hide nothing, and the other tokens
  are the pieces of the lines, so a byte is hidden if the pieces of some line hide it; and that line
  is the one on which the byte stands. -/

namespace Token

theorem hidden_append (ts us : List Token) :
    Token.hidden (ts ++ us) offset = (Token.hidden ts offset || Token.hidden us offset) :=
  List.any_append

theorem hidden_announce (before depth place : Nat) :
    Token.hidden (Layout.announce before depth place) offset = false := by
  rw [Token.hidden, Layout.announce, List.any_map, List.any_eq_false]
  intro b _
  simp [hides]

end Token

namespace Layout.Margin

/-- The tokens of a line hide what its pieces hide: boundaries are empty, and a blank line has no
    pieces. -/
theorem hidden_lineTokens (m : Margin) (l : Line) :
    Token.hidden (m.lineTokens l) offset = Token.hidden l.pieces offset := by
  unfold lineTokens
  split
  · next hb =>
    have nothing : l.pieces = [] := Line.piecesFrom_of_blank hb
    rw [nothing]
  · split
    · rw [Token.hidden_append, Token.hidden_announce, Bool.false_or]
    · rfl

/-- The tokens of some lines hide what the pieces of one of the lines hide. -/
theorem hidden_outcome (m : Margin) (ls : List Line) :
    Token.hidden (m.outcome ls).1 offset = ls.any fun l => Token.hidden l.pieces offset := by
  induction ls generalizing m with
  | nil =>
    rw [outcome, endTokens]
    split
    · exact Token.hidden_announce ..
    · rfl
  | cons l ls ih =>
    rw [outcome, Token.hidden_append, hidden_lineTokens, ih, List.any_cons]

end Layout.Margin

/-- What the tokens of a text hide on one of its lines is what the pieces of that line hide. -/
theorem Line.hidesComments {l : Line} (hl : l ∈ Line.split 0 (Source.bytes text)) :
    HidesComments (Token.hidden (tokenize text)) l.start l.bytes := by
  intro i hlo hhi
  rw [tokenize_eq_fst_outcome, Layout.outcome, Layout.Margin.hidden_outcome, Bool.eq_iff_iff,
    List.any_eq_true]
  constructor
  · rintro ⟨l', hl', hh⟩
    have within := range_of_hidden hh
    by_cases he : l' = l
    · exact he ▸ hh
    · -- another line has no byte there
      have := apart_of_mem_split hl' hl he
      omega
  · intro hh
    exact ⟨l, hl, hh⟩

/-- The lines of a blanked text are the lines of the text, each blanked, for no comment holds a line
    feed. -/
theorem Line.split_blanked (text : String) :
    Line.split 0 (Source.bytes (Source.blanked text)) =
      (Line.split 0 (Source.bytes text)).map (Line.blank (Token.hidden (tokenize text))) := by
  rw [Source.bytes_blanked]
  refine Line.split_blankBytes ?_
  intro i hi
  rw [Nat.zero_add, Bool.eq_false_iff]
  intro hh
  obtain ⟨t, mem, hides⟩ := List.any_eq_true.mp hh
  obtain ⟨kind, start, stop⟩ := Token.hides_iff.mp hides
  obtain ⟨b, hb, pass⟩ := (comment_mem_tokenize mem kind).2.2 i start stop
  rw [hi, Option.some.injEq] at hb
  rw [← hb] at pass
  simp at pass

/-- In a text without carriage returns each line is blanked to its content. -/
theorem Line.blankedBy_of_mem_split (h : 13 ∉ Source.bytes text) {l : Line}
    (hl : l ∈ Line.split 0 (Source.bytes text)) :
    l.BlankedBy (Token.hidden (tokenize text)) := by
  refine blankedBy (hidesComments hl) ?_
  intro b hb
  refine ⟨(of_mem_split hl).2 b hb, ?_⟩
  rintro rfl
  exact h (mem_of_mem_split hl hb)

end Offside

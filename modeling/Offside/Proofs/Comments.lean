/-
  What comments do to the structure of a text.

  A comment is no content, but a line that has only a comment on it is announced like any other,
  with the depth of its indentation.  Whether that makes a difference to what comes later is the
  question of this file; the answer compares a text with the text in which all comments are blanked.

  1. **Heads** — an announcement without the places of its tokens.  The depth before and the head
     together tell the depth announced, whatever follows (`head_append_inj`).
  2. **Blanked texts** — a blanked line has content or is blank, so the outline is that of the lines
     with content alone: for each its head, from the depth of the one before, and its content.
  3. **Texts** — one induction on the lines, with two cases for where the stream stands.  If no
     content is awaited, a line with a comment alone is announced, and then the outline goes on as
     that of the blanked text only if the next line with content has the same depth.  If content is
     awaited, it already has its head, and a line with a comment alone gives nothing.

  The outline leaves out the places of structural tokens, for these do move: where a comment is
  taken away, an announcement stands behind the text in front of it.
-/
import Offside.Proofs.BlankedLines

namespace Offside

namespace Layout

/-! ## Heads

  Two outlines are compared from the front.  An outline begins with the head of a line, and what
  follows could in principle make up for a difference in the heads; that it cannot is
  `head_append_inj`. -/

/-- The outline of an announcement. -/
def head (before depth : Nat) : List (Token.Kind × Option Span) :=
  (boundaries before depth).map fun b => (.boundary b, none)

theorem outline_append (ts us : List Token) : outline (ts ++ us) = outline ts ++ outline us :=
  List.map_append

/-- The outline of an announcement is the head between its two depths, wherever it stands. -/
theorem outline_announce (before depth offset : Nat) :
    outline (announce before depth offset) = head before depth := by
  rw [outline, announce, List.map_map]
  rfl

theorem withoutComments_append (ts us : List Token) :
    withoutComments (ts ++ us) = withoutComments ts ++ withoutComments us :=
  List.filter_append ..

/-- There are no comments in an announcement, so leaving out comments leaves all of it. -/
theorem withoutComments_announce (before depth offset : Nat) :
    withoutComments (announce before depth offset) = announce before depth offset := by
  rw [withoutComments, List.filter_eq_self]
  intro t ht
  obtain ⟨b, _, rfl⟩ := List.mem_map.mp ht
  rfl

/-- The boundaries in front of the first level of a head are as many openings as the depth grows by,
    or as many closings as it falls by. -/
theorem takeWhile_head_append (before depth : Nat) (items : List (Token.Kind × Option Span)) :
    (head before depth ++ items).takeWhile (·.1 != .boundary .level) =
      List.replicate (depth - before) (.boundary .opening, none) ++
        List.replicate (before - depth) (.boundary .closing, none) := by
  have steps : ∀ i ∈ List.replicate (depth - before) (Token.Kind.boundary .opening, none) ++
      List.replicate (before - depth) (Token.Kind.boundary .closing, (none : Option Span)),
      (i.1 != .boundary .level) = true := by
    intro i hi
    rcases List.mem_append.mp hi with hi | hi <;> rw [List.eq_of_mem_replicate hi] <;> rfl
  rw [head, boundaries, List.map_append, List.map_append, List.map_replicate, List.map_replicate,
    List.append_assoc, List.takeWhile_append_of_pos steps]
  exact List.append_nil _

/-- From one depth two heads with something behind them are equal only if the depths announced are
    equal, and what stands behind them too. -/
theorem head_append_inj {before depth depth' : Nat}
    {items items' : List (Token.Kind × Option Span)} :
    head before depth ++ items = head before depth' ++ items' ↔
      depth = depth' ∧ items = items' := by
  constructor
  · intro h
    have steps := congrArg (List.takeWhile (·.1 != .boundary .level)) h
    rw [takeWhile_head_append, takeWhile_head_append] at steps
    have openings := congrArg (List.count (.boundary .opening, none)) steps
    have closings := congrArg (List.count (.boundary .closing, none)) steps
    have same : depth = depth' := by
      simp only [List.count_append, List.count_replicate, beq_iff_eq, Prod.mk.injEq,
        Token.Kind.boundary.injEq, reduceCtorEq, and_true, if_true, if_false] at openings closings
      omega
    subst same
    exact ⟨rfl, List.append_cancel_left h⟩
  · rintro ⟨rfl, rfl⟩
    rfl

/-! ## Blanked texts

  In a blanked text all lines have content or are blank, and there are no comments.  So lines with
  content are announced one after another, and `body` and `nextDepth` tell the outline by recursion
  on the lines. -/

/-- The depth of the first line with content, or zero, which is that of the end of the text, if
    there is none. -/
def nextDepth (ls : List Line) : Nat := (depthAhead? ls).getD 0

/-- The outline of lines blanked, behind the head of the first of them that has content. -/
def body : List Line → List (Token.Kind × Option Span)
  | [] => []
  | l :: ls =>
    if hasContent l.pieces then
      outline (withoutComments l.pieces) ++ (head l.depth (nextDepth ls) ++ body ls)
    else body ls

section
variable {l : Line} {ls : List Line}

theorem nextDepth_of_content (h : hasContent l.pieces = true) : nextDepth (l :: ls) = l.depth := by
  simp [nextDepth, depthAhead?, h]

theorem nextDepth_of_noContent (h : hasContent l.pieces = false) :
    nextDepth (l :: ls) = nextDepth ls := by
  simp [nextDepth, depthAhead?, h]

theorem body_of_content (h : hasContent l.pieces = true) :
    body (l :: ls) =
      outline (withoutComments l.pieces) ++ (head l.depth (nextDepth ls) ++ body ls) := by
  rw [body, if_pos h]

theorem body_of_noContent (h : hasContent l.pieces = false) : body (l :: ls) = body ls := by
  rw [body, if_neg (by rw [h]; exact Bool.false_ne_true)]

/-- A blank line has no content. -/
theorem hasContent_of_blank (h : l.isBlank = true) : hasContent l.pieces = false := by
  rw [show l.pieces = [] from Line.piecesFrom_of_blank h]
  rfl

/-- Leaving out comments leaves the question whether there is content. -/
theorem hasContent_withoutComments (ts : List Token) :
    hasContent (withoutComments ts) = hasContent ts := by
  induction ts with
  | nil => rfl
  | cons t ts ih =>
    obtain ⟨kind, span⟩ := t
    cases kind with
    | comment => exact ih
    | boundary b => exact ih
    | content => rfl

end

/-- The outline of lines blanked is the head of the first line with content, and then the body. -/
theorem outline_blanked {hidden : Nat → Bool} {ls : List Line}
    (h : ∀ l ∈ ls, l.BlankedBy hidden) (before last : Nat) :
    outline (tokensFrom before false last (ls.map (·.blank hidden))) =
      head before (nextDepth ls) ++ body ls := by
  induction ls generalizing before last with
  | nil =>
    rw [List.map_nil, tokensFrom, if_neg Bool.false_ne_true, outline_announce, body]
    exact (List.append_nil _).symm
  | cons l ls ih =>
    have line := h l List.mem_cons_self
    have later := ih fun l' hl' => h l' (List.mem_cons_of_mem l hl')
    rw [List.map_cons, tokensFrom, line.isBlank]
    cases hc : hasContent l.pieces with
    | false =>
      -- without content nothing is left on the blanked line, and it has no part in the outline
      rw [Bool.not_false, if_pos rfl, later, nextDepth_of_noContent hc, body_of_noContent hc]
    | true =>
      have content : hasContent (l.blank hidden).pieces = true := by
        rw [line.pieces, hasContent_withoutComments, hc]
      rw [Bool.not_true, if_neg Bool.false_ne_true, if_neg Bool.false_ne_true, content,
        outline_append, outline_announce, outline_append, Bool.not_true, later, line.depth hc,
        line.pieces, nextDepth_of_content hc, body_of_content hc]

/-! ## Texts

  Both outlines are now told by recursion on the same lines.  `awaits` says whether the line last
  announced still waits for content; if it does, the depth before is that of the next line with
  content. -/

/-- The outline of lines without their comments is that of the lines blanked exactly if each comment
    that is announced has the depth of the line with content that follows. -/
theorem outline_tokensFrom_iff {ls : List Line} {before : Nat} {awaits : Bool}
    (ha : awaits = true → before = nextDepth ls) (last : Nat) :
    outline (withoutComments (tokensFrom before awaits last ls)) =
        (if awaits then [] else head before (nextDepth ls)) ++ body ls ↔
      ∀ p ∈ announcedComments awaits ls, p.2.getD 0 = p.1 := by
  induction ls generalizing before awaits last with
  | nil =>
    refine iff_of_true ?_ (List.forall_mem_nil _)
    cases awaits with
    | true => rfl
    | false =>
      show outline (withoutComments (announce before 0 last)) = head before 0 ++ []
      rw [withoutComments_announce, outline_announce, List.append_nil]
  | cons l ls ih =>
    rw [tokensFrom, announcedComments]
    by_cases hb : l.isBlank = true
    · have hc := hasContent_of_blank hb
      rw [nextDepth_of_noContent hc] at ha ⊢
      rw [if_pos hb, if_pos hb, body_of_noContent hc]
      exact ih ha last
    rw [if_neg hb, if_neg hb]
    dsimp only
    generalize (l.pieces.getLast?.map (·.span.stop)).getD last = stop
    -- behind the line, where the next one is announced, and where it is not
    have behind (depth : Nat) :
        outline (withoutComments (tokensFrom depth false stop ls)) =
            head depth (nextDepth ls) ++ body ls ↔
          ∀ p ∈ announcedComments false ls, p.2.getD 0 = p.1 :=
      ih (fun e => absurd e Bool.false_ne_true) stop
    have waiting {depth : Nat} (hd : depth = nextDepth ls) :
        outline (withoutComments (tokensFrom depth true stop ls)) = body ls ↔
          ∀ p ∈ announcedComments true ls, p.2.getD 0 = p.1 :=
      ih (fun _ => hd) stop
    cases hc : hasContent l.pieces with
    | true =>
      rw [nextDepth_of_content hc] at ha ⊢
      rw [body_of_content hc, if_pos rfl, Bool.not_true]
      cases awaits with
      | true =>
        rw [ha rfl, if_pos rfl, if_pos rfl, withoutComments_append, outline_append,
          List.nil_append, List.append_cancel_left_eq, behind]
      | false =>
        rw [if_neg Bool.false_ne_true, if_neg Bool.false_ne_true, withoutComments_append,
          withoutComments_append, withoutComments_announce, outline_append, outline_append,
          outline_announce, List.append_cancel_left_eq, List.append_cancel_left_eq, behind]
    | false =>
      have nothing : withoutComments l.pieces = [] := Line.withoutComments_eq_nil_iff.mpr hc
      rw [nextDepth_of_noContent hc] at ha ⊢
      rw [body_of_noContent hc, if_neg Bool.false_ne_true, Bool.not_false]
      cases awaits with
      | true =>
        rw [if_pos rfl, if_pos rfl, if_pos rfl, withoutComments_append, nothing, List.nil_append,
          List.nil_append, waiting (ha rfl)]
      | false =>
        -- the comment is announced, and the line with content that follows is not
        rw [if_neg Bool.false_ne_true, if_neg Bool.false_ne_true, if_neg Bool.false_ne_true,
          withoutComments_append, withoutComments_append, withoutComments_announce, nothing,
          List.nil_append, outline_append, outline_announce, head_append_inj, List.forall_mem_cons]
        constructor
        · rintro ⟨hd, same⟩
          exact ⟨hd.symm, (waiting hd).mp same⟩
        · rintro ⟨hd, same⟩
          exact ⟨hd.symm, (waiting hd.symm).mpr same⟩

end Layout

/-- Comments make no difference to a text without carriage returns exactly if each line with a
    comment alone that is announced has the depth of the next line with content, or depth zero at
    the end of the text. -/
theorem transparent_iff {text : String} (h : 13 ∉ Source.bytes text) :
    Layout.Transparent text ↔
      ∀ p ∈ Layout.announcedComments false (Line.split 0 (Source.bytes text)),
        p.2.getD 0 = p.1 := by
  have lines (text : String) (h : 13 ∉ Source.bytes text) :
      tokenize text = Layout.tokensFrom 0 false 0 (Line.split 0 (Source.bytes text)) := by
    rw [tokenize_eq_fst_outcome]
    exact Layout.outcome_fst h
  have blanked : 13 ∉ Source.bytes (Source.blanked text) := by
    rw [Source.bytes_blanked]
    intro hb
    rcases Source.mem_blankBytes hb with hb | hb
    · exact absurd hb (by decide)
    · exact h hb
  have blank : ∀ l ∈ Line.split 0 (Source.bytes text),
      l.BlankedBy (Token.hidden (tokenize text)) := fun _ => Line.blankedBy_of_mem_split h
  rw [Layout.Transparent, lines _ blanked, Line.split_blanked, Layout.outline_blanked blank,
    lines text h, eq_comm]
  exact Layout.outline_tokensFrom_iff (fun e => absurd e Bool.false_ne_true) 0

/-- **Comments and structure.**  In a text without carriage returns, comments make no difference to
    the structural tokens and the content, except those that are alone on a line and announced: such
    a line has to be as deep as the next line with content, and at depth zero if there is none.  If
    the next line with content has another depth, comments do make a difference. -/
theorem transparent_of_same_depth (text : String) (h : 13 ∉ Source.bytes text) :
    let comments := Layout.announcedComments false (Line.split 0 (Source.bytes text))
    ((∀ p ∈ comments, p.2.getD 0 = p.1) → Layout.Transparent text) ∧
      (Layout.Transparent text → ∀ p ∈ comments, ∀ depth ∈ p.2, depth = p.1) := by
  intro comments
  refine ⟨(transparent_iff h).mpr, ?_⟩
  intro same p hp depth hd
  have depths := (transparent_iff h).mp same p hp
  rwa [Option.mem_def.mp hd, Option.getD_some] at depths

/-- A comment behind content, one on a line of its own as deep as the next, and one while content is
    awaited. -/
theorem transparent_of_same_depth_three :
    13 ∉ Source.bytes "a//b\n\t//c\n//d\n\tx" ∧
      Layout.announcedComments false (Line.split 0 (Source.bytes "a//b\n\t//c\n//d\n\tx")) =
        [(1, some 1)] ∧
      Layout.Transparent "a//b\n\t//c\n//d\n\tx" := by
  have none : 13 ∉ Source.bytes "a//b\n\t//c\n//d\n\tx" := by decide
  have announced : Layout.announcedComments false
      (Line.split 0 (Source.bytes "a//b\n\t//c\n//d\n\tx")) = [(1, some 1)] := by
    decide +kernel
  refine ⟨none, announced, (transparent_of_same_depth _ none).1 ?_⟩
  rw [announced]
  decide

/-- The comment is announced at depth zero, so the deeper line behind it opens no block. -/
theorem not_transparent_deeper :
    13 ∉ Source.bytes "//c\n\tx" ∧ ¬Layout.Transparent "//c\n\tx" := by
  refine ⟨by decide, ?_⟩
  decide +kernel

end Offside

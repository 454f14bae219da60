/-
  How long a token stream is.

  Most tokens use up no bytes, so they are charged to bytes that are passed later.

  1. **Tabs** — a line is at most as deep as there are tabs in the white space in front of its text
     (`toNat_le_tabs`), so the tokens that open blocks can be charged to these tabs.  Each stretch
     of white space is charged once: behind an announcement the stream awaits content, and announces
     nothing until that is passed.
  2. **Charges** — each byte can pay for two tokens.  An opening and a piece of content take two,
     a comment one (`Stream.charge`).  That leaves one for what is closed, which was opened before
     (`Stream.closing_le`), and one for the level token that the content answers, but the last level
     token may have no content (`Stream.level_le`).
  3. **Bounds** — together at most two tokens for each byte, and one.  Tabs with a letter behind
     them need as many, up to the largest depth (`length_tokenize_tabbed`).

  All charges are counts of kinds along the derivation of the stream, each by an induction of its
  own, and only `Stream.length_le` puts them together.
-/
import Offside.Proofs.Closing
import Offside.Proofs.Pieces

namespace Offside

/-! ## Tabs

  A tab in white space is measured or not, but never twice: a line feed sets the count back. -/

/-- The depth measured is at most the tabs counted before, and those in the white space ahead. -/
theorem Layout.toNat_le_tabs {fresh : Bool} {k d : UInt16} {bs : List UInt8}
    (h : depthFrom fresh k bs = some d) :
    d.toNat ≤ k.toNat + (bs.takeWhile Lexeme.isSpace).count 9 := by
  induction bs generalizing fresh k with
  | nil =>
    cases h
    exact Nat.zero_le _
  | cons b bs ih =>
    unfold depthFrom at h
    split at h
    · next hb =>
      -- a line feed: the tabs counted before it do not count for the line behind it
      subst hb
      have := ih h
      rw [List.takeWhile_cons_of_pos rfl, List.count_cons_of_ne (by decide)]
      have : (0 : UInt16).toNat = 0 := rfl
      omega
    · split at h
      · next hb =>
        subst hb
        have := ih h
        have := Depths.toNat_deeper k
        rw [List.takeWhile_cons_of_pos rfl, List.count_cons_self]
        omega
      · split at h
        · next hb =>
          subst hb
          have := ih h
          rw [List.takeWhile_cons_of_pos rfl, List.count_cons_of_ne (by decide)]
          exact this
        · split at h
          · cases h
            exact Nat.le_add_right ..
          · simp at h

namespace Tokenizer

variable {text : String} {r : Reader} {c : UInt16} {awaits : Bool} {es : List Emission}
  {t : Tokenizer}

/-! ## Charges

  The bytes that can still be charged are those ahead, less the white space that an announcement has
  been charged to.  They are passed with the next piece of text. -/

/-- The bytes ahead that nothing was charged to.  Behind an announcement the white space is not
    among them, for its tabs have paid for the openings. -/
def unpaid (awaits : Bool) (bs : List UInt8) : List UInt8 :=
  if awaits then bs.dropWhile Lexeme.isSpace else bs

/-- Behind a piece of text fewer bytes are unpaid than in front of it, and not more tabs. -/
theorem unpaid_of_piece {front after : Reader} (before later : Bool)
    (hf : front = r.skipWhile Lexeme.isSpace) (place : front.On text) (there : after.On text)
    (forward : front.offset < after.offset) :
    (unpaid later after.rest).count 9 ≤ (unpaid before r.rest).count 9 ∧
      (unpaid later after.rest).length < (unpaid before r.rest).length := by
  -- what is unpaid behind the piece is a back part of what was unpaid in front of it
  have behind : unpaid later after.rest <:+ after.rest := by
    unfold unpaid
    split
    · exact List.dropWhile_suffix _
    · exact List.suffix_refl _
  have passed : after.rest <:+ front.rest := by
    rw [there.rest_eq, place.rest_eq]
    exact List.drop_suffix_drop_left _ forward.le
  have ahead : front.rest <:+ unpaid before r.rest := by
    rw [hf, Reader.rest_skipWhile, unpaid]
    split
    · exact List.suffix_refl _
    · exact List.dropWhile_suffix _
  have := behind.length_le
  have := ahead.length_le
  have := place.length_rest
  have := there.length_rest
  exact ⟨(behind.trans (passed.trans ahead)).sublist.count_le 9, by omega⟩

theorem kinds_append (before after : List Emission) :
    kinds (before ++ after) = kinds before ++ kinds after := List.map_append

theorem count_kinds_cons (k : Token.Kind) (e : Emission) (es : List Emission) :
    (kinds (e :: es)).count k = (kinds es).count k + if e.token.kind == k then 1 else 0 :=
  List.count_cons ..

/-- An announcement consists of as many openings or closings as lead from one depth to the other,
    and a level. -/
theorem count_kinds_announcement (offset : Nat) (c depth : UInt16) :
    let ks := kinds (announcement offset ⟨c, depth⟩)
    ks.count (.boundary .opening) = depth.toNat - c.toNat ∧
      ks.count (.boundary .closing) = c.toNat - depth.toNat ∧
      ks.count (.boundary .level) = 1 ∧ ks.count .content = 0 ∧ ks.count .comment = 0 := by
  intro ks
  obtain ⟨opening, closing⟩ := countOf_announcement offset ⟨c, depth⟩
  refine ⟨opening, closing, ?_, ?_, ?_⟩ <;>
    simp [ks, kinds_announcement, Layout.boundaries, List.count_replicate]

/-- The openings of a stream are at most the tabs that are unpaid; and openings and content at two
    bytes' worth, with comments at one, are at most twice the bytes that are unpaid. -/
theorem Stream.charge (h : Stream r c awaits es t) (hr : r.On text) :
    (kinds es).count (.boundary .opening) ≤ (unpaid awaits r.rest).count 9 ∧
      2 * (kinds es).count (.boundary .opening) + 2 * (kinds es).count .content +
        (kinds es).count .comment ≤ 2 * (unpaid awaits r.rest).length := by
  induction h with
  | finish => exact ⟨Nat.zero_le _, Nat.zero_le _⟩
  | @announce r c depth es t hm _ ih =>
    obtain ⟨tabs, bytes⟩ := ih hr
    obtain ⟨opening, _, _, content, comment⟩ := count_kinds_announcement r.offset c depth
    -- the tabs in the white space pay for the openings, and the bytes behind it for the rest
    rw [lineDepth?_eq] at hm
    have deep := Layout.toNat_le_tabs hm
    have space := Lexeme.length_takeWhile_add r.rest
    have most := List.count_le_length (a := (9 : UInt8)) (l := r.rest.takeWhile Lexeme.isSpace)
    have split_tabs : (r.rest.takeWhile Lexeme.isSpace).count 9 +
        (r.rest.dropWhile Lexeme.isSpace).count 9 = r.rest.count 9 := by
      rw [← List.count_append, List.takeWhile_append_dropWhile]
    have zero : (0 : UInt16).toNat = 0 := rfl
    simp only [unpaid, if_true, Bool.false_eq_true, if_false] at tabs bytes ⊢
    simp only [kinds_append, List.count_append]
    omega
  | @comment r front c awaits es t _ hf hc _ ih =>
    have place : front.On text := hf ▸ hr.skipSpace
    obtain ⟨tabs, bytes⟩ := ih place.toLineEnd
    obtain ⟨fewer, less⟩ := unpaid_of_piece awaits awaits hf place place.toLineEnd
      (Reader.offset_lt_toLineEnd hc)
    simp only [count_kinds_cons, reduceCtorEq, beq_iff_eq, if_true, if_false]
    omega
  | @content r front c awaits es t _ hf hne hc _ ih =>
    have place : front.On text := hf ▸ hr.skipSpace
    obtain ⟨tabs, bytes⟩ := ih place.passContent
    obtain ⟨fewer, less⟩ := unpaid_of_piece awaits false hf place place.passContent
      (Reader.offset_lt_passContent hf hne place.spells hc)
    simp only [count_kinds_cons, reduceCtorEq, beq_iff_eq, if_true, if_false]
    omega

/-- Each level token of a stream is answered by content, except perhaps the last one. -/
theorem Stream.level_le (h : Stream r c awaits es t) :
    (kinds es).count (.boundary .level) + (if awaits then 1 else 0) ≤
      (kinds es).count .content + 1 := by
  induction h with
  | finish =>
    split
    · exact Nat.le_refl 1
    · exact Nat.zero_le 1
  | @announce r c depth es t _ _ ih =>
    obtain ⟨_, _, level, content, _⟩ := count_kinds_announcement r.offset c depth
    simp only [kinds_append, List.count_append, if_true, Bool.false_eq_true, if_false] at ih ⊢
    omega
  | comment _ _ _ _ ih =>
    simp only [count_kinds_cons, reduceCtorEq, beq_iff_eq, if_false]
    exact ih
  | @content r front c awaits es t _ _ _ _ _ ih =>
    simp only [count_kinds_cons, reduceCtorEq, beq_iff_eq, if_true, if_false, Bool.false_eq_true] at ih ⊢
    split <;> omega

/-- At no point of a stream has more been closed than was opened up to there, or was open at its
    start. -/
theorem Stream.closing_le (h : Stream r c awaits es t) (n : Nat) :
    ((kinds es).take n).count (.boundary .closing) ≤
      ((kinds es).take n).count (.boundary .opening) + c.toNat := by
  induction h generalizing n with
  | finish =>
    rw [kinds, List.map_nil, List.take_nil]
    exact Nat.zero_le _
  | @announce r c depth es t _ _ ih =>
    obtain ⟨opening, closing, _⟩ := count_kinds_announcement r.offset c depth
    rw [kinds_append, List.take_append, List.count_append, List.count_append]
    have later := ih (n - (kinds (announcement r.offset ⟨c, depth⟩)).length)
    rcases Nat.le_total n (kinds (announcement r.offset ⟨c, depth⟩)).length with short | long
    · -- within the announcement no more is closed than it closes in all
      have part := (List.take_sublist n (kinds (announcement r.offset ⟨c, depth⟩))).count_le
        (.boundary .closing)
      rw [Nat.sub_eq_zero_of_le short, List.take_zero, List.count_nil, List.count_nil]
      omega
    · rw [List.take_of_length_le long]
      omega
  | comment _ _ _ _ ih =>
    cases n with
    | zero => exact Nat.zero_le _
    | succ n => exact ih n
  | content _ _ _ _ _ ih =>
    cases n with
    | zero => exact Nat.zero_le _
    | succ n => exact ih n

/-! ## Bounds

  The five kinds of token are put together.  Closings are at most the openings, and levels at most
  the contents and one, so twice the openings and twice the contents bound them all. -/

/-- Every token is of one of five kinds, so the kinds counted together are all tokens. -/
theorem length_eq_counts (ks : List Token.Kind) :
    ks.length = ks.count (.boundary .opening) + ks.count (.boundary .closing) +
      ks.count (.boundary .level) + ks.count .content + ks.count .comment := by
  induction ks with
  | nil => rfl
  | cons k ks ih =>
    rw [List.length_cons, ih]
    rcases k with (_ | _ | _) | _ | _ <;>
      simp only [List.count_cons, beq_iff_eq, reduceCtorEq, Token.Kind.boundary.injEq, if_true,
        if_false] <;> omega

/-- A stream that starts with every block closed has at most two tokens for each byte ahead, and
    one. -/
theorem Stream.length_le (h : Stream r 0 false es t) (hr : r.On text) :
    es.length ≤ 2 * r.rest.length + 1 := by
  have sum := length_eq_counts (kinds es)
  have bytes := (h.charge hr).2
  have level := h.level_le
  have closing := h.closing_le (kinds es).length
  have zero : (0 : UInt16).toNat = 0 := rfl
  rw [List.take_length] at closing
  rw [kinds, List.length_map, ← kinds] at sum
  simp only [unpaid, Bool.false_eq_true, if_false] at bytes level
  omega

end Tokenizer

/-! ## The longest streams

  The bound is reached: each tab opens a block that the end closes, and the letter behind them gives
  a content and a level, with one level more at the end. -/

namespace Layout

/-- In the account by lines, spaces and tabs in the middle of a line are passed over. -/
theorem Margin.resume_indentation (m : Margin) {pre : List UInt8} (hp : pre.all Line.isIndent = true)
    (offset : Nat) (bs : List UInt8) :
    m.resume offset (pre ++ bs) = m.resume (offset + pre.length) bs := by
  induction pre generalizing offset with
  | nil => rfl
  | cons b pre ih =>
    rw [List.all_cons, Bool.and_eq_true] at hp
    rw [List.cons_append, resume_indent hp.1, ih hp.2, List.length_cons, Nat.add_right_comm,
      Nat.add_assoc]

end Layout

/-- Some tabs, and a letter behind them. -/
def tabbed (k : Nat) : String := String.ofList (List.replicate k '\t' ++ ['x'])

theorem bytes_tabbed (k : Nat) : Source.bytes (tabbed k) = List.replicate k 9 ++ [120] := by
  rw [Source.bytes_eq_flatMap, tabbed, String.toList_ofList, List.flatMap_append,
    List.flatMap_replicate]
  induction k with
  | zero => rfl
  | succ k ih => rw [List.replicate_succ, List.flatten_cons, List.append_assoc, ih]; rfl

/-- The tokens of tabs with a letter behind them: one line goes as deep as there are tabs, and the
    end closes everything again. -/
theorem outcome_tabbed (k : Nat) :
    (Layout.outcome (tabbed k)).1 =
      Layout.announce 0 (min 65535 k) 0 ++
        ⟨.content, ⟨k, k + 1⟩⟩ :: Layout.announce (min 65535 k) 0 (k + 1) := by
  have indent : (List.replicate k (9 : UInt8)).all Line.isIndent = true := by
    rw [List.all_replicate]
    split <;> rfl
  have within : ∀ b ∈ List.replicate k (9 : UInt8), b ≠ 10 := by
    intro b hb
    rw [List.eq_of_mem_replicate hb]
    decide
  have line : Line.split 0 (List.replicate k 9 ++ [120]) = [⟨0, List.replicate k 9 ++ [120]⟩] :=
    Line.split_append within 0 [120]
  have depth : Line.depth ⟨0, List.replicate k 9 ++ [120]⟩ = min 65535 k := by
    rw [Line.depth_of_indent indent rfl, List.count_replicate_self]
  have text : Line.isBlank ⟨0, List.replicate k 9 ++ [120]⟩ = false :=
    Line.isBlank_of_text _ rfl 0 []
  have one : Lexeme.contentLength 0 [120] = 1 := by decide
  rw [Layout.outcome, bytes_tabbed, line, Layout.Margin.outcome_cons rfl text, depth, ← line,
    Layout.Margin.outcome_split (Layout.Margin.announces_announced ..),
    Layout.Margin.resume_indentation _ indent, Layout.Margin.resume_content rfl rfl,
    List.length_replicate, Nat.zero_add, one, List.drop_one, List.tail_cons,
    Layout.Margin.resume_nil]
  rfl

/-- Up to the largest depth each byte of such a text costs two tokens, and one more comes at the
    end. -/
theorem length_tokenize_tabbed {k : Nat} (hk : k ≤ 65535) :
    (tokenize (tabbed k)).length = 2 * (k + 1) + 1 := by
  have announce (before depth offset : Nat) : (Layout.announce before depth offset).length =
      (depth - before) + (before - depth) + 1 := by
    rw [Layout.announce, Layout.boundaries, List.length_map, List.length_append, List.length_append,
      List.length_replicate, List.length_replicate, List.length_singleton]
  rw [tokenize_eq_fst_outcome, outcome_tabbed, List.length_append, List.length_cons, announce,
    announce]
  omega

/-- **The size of a stream.**  For any text, calls of `next` give tokens up to the length of its
    list of tokens and none from then on; that length is at most two for each byte, and one.  No
    more blocks are opened than there are tabs, no more level tokens come than one for each content
    and one, and at no point has more been closed than opened.  Up to the largest depth there are
    texts of any size with so many tokens. -/
theorem tokenize_size :
    (∀ text : String,
      let kinds := (tokenize text).map (·.kind)
      (∀ k, ((Tokenizer.start text).advance k).next.1 = none ↔ (tokenize text).length ≤ k) ∧
      (tokenize text).length ≤ 2 * (Source.bytes text).length + 1 ∧
      kinds.count (.boundary .opening) ≤ (Source.bytes text).count 9 ∧
      kinds.count (.boundary .level) ≤ kinds.count .content + 1 ∧
      ∀ front, front <+: kinds →
        front.count (.boundary .closing) ≤ front.count (.boundary .opening)) ∧
    ∀ n ≤ 65536, ∃ text, (Source.bytes text).length = n ∧ (tokenize text).length = 2 * n + 1 := by
  constructor
  · intro text kinds
    have stream := Tokenizer.stream_emissions text
    have place := Reader.on_start text
    have same : kinds = Tokenizer.kinds (emissions text) := List.map_map
    have length : (tokenize text).length = (emissions text).length := List.length_map ..
    rw [same, length]
    refine ⟨?_, stream.length_le place, (stream.charge place).1, stream.level_le, ?_⟩
    · intro k
      rw [Tokenizer.next_advance]
      exact List.getElem?_eq_none_iff
    · intro front hf
      rw [List.prefix_iff_eq_take.mp hf]
      exact stream.closing_le front.length
  · intro n hn
    cases n with
    | zero => exact ⟨"", rfl, by decide +kernel⟩
    | succ k =>
      -- tabs and a letter: each tab costs an opening and a closing, the letter itself and a level
      refine ⟨tabbed k, ?_, length_tokenize_tabbed (by omega)⟩
      rw [bytes_tabbed, List.length_append, List.length_replicate, List.length_singleton]

end Offside

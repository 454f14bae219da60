/-
  The stream of a text with a carriage return in front of every line feed.

  A scan takes a carriage return for the start of text, and the tokenizer takes it for white space.
  In a text that has one in front of every line feed the two never agree on where a line begins,
  behind the first: when the tokenizer is done with the last piece of a line, the scan stops at the
  carriage return and finds itself in the middle of a line, and the white space that is passed next
  holds the line feed.  So no later line is announced, however deep it is, and all words of the text
  come as if they stood on one line.

  1. **What is measured** — the tabs of the first line, if it is fresh; and behind a piece of text
     nothing, since a carriage return or more text comes before any line feed, unless nothing but
     spaces and tabs is left.
  2. **The stream** — an induction on the derivation.  Its invariant: unless a level token waits for
     its content, the byte in front of the reader belongs to a word.  So the only announcement that
     is met behind the first is that of the end.
  3. **The whole text** — the announcement of the first line, and the stream behind it.  The depths
     of both announcements are known, so each is a run of equal boundaries and a level token.

  Texts with a comment are left out.  A comment goes to the line feed, carriage return included, so
  behind it the scan does see the line feed, and the next line is announced.
-/
import Offside.Layout.CarriageReturns
import Offside.Proofs.Lines
import Offside.Proofs.Tiling

namespace Offside

namespace Layout

variable {k : UInt16} {pre bs : List UInt8}

/-! ## What is measured

  `Layout.depthFrom` tells what a scan measures from some bytes on.  It passes spaces, tabs and line
  feeds and stops at the first other byte, a carriage return among them. -/

/-- Spaces and tabs alone are the end of the text, which is measured as depth zero, wherever a scan
    starts. -/
theorem depthFrom_of_indent (hp : pre.all Line.isIndent = true) (fresh : Bool) :
    depthFrom fresh k pre = some 0 := by
  induction pre generalizing k with
  | nil => rfl
  | cons b pre ih =>
    rw [List.all_cons, Bool.and_eq_true] at hp
    rw [depthFrom_indent hp.1]
    exact ih hp.2

/-- In front of text on the same line the tabs passed are the depth, up to the largest that a
    counter holds; but only if the scan started at the start of the line. -/
theorem depthFrom_of_text {b : UInt8} (hp : pre.all Line.isIndent = true) (hb : b ≠ 10)
    (hi : Line.isIndent b = false) (fresh : Bool) (bs : List UInt8) :
    ∃ depth, depth.toNat = min 65535 (k.toNat + pre.count 9) ∧
      depthFrom fresh k (pre ++ b :: bs) = if fresh then some depth else none := by
  induction pre generalizing k with
  | nil =>
    have := k.toNat_lt
    refine ⟨k, ?_, depthFrom_text hb hi⟩
    rw [List.count_nil]
    omega
  | cons b' pre ih =>
    rw [List.all_cons, Bool.and_eq_true] at hp
    rw [List.cons_append, depthFrom_indent hp.1]
    obtain ⟨depth, hd, he⟩ := ih (k := if b' = 9 then Depths.deeper k else k) hp.2
    refine ⟨depth, ?_, he⟩
    rw [hd, List.count_cons]
    by_cases h9 : b' = 9
    · have := Depths.toNat_deeper k
      simp only [h9, if_true, beq_self_eq_true]
      omega
    · simp only [h9, if_false, beq_iff_eq, Nat.add_zero]

/-- Either all bytes are spaces and tabs, or a first other byte stands behind those in front. -/
theorem indent_or_text (bs : List UInt8) :
    bs.all Line.isIndent = true ∨
      ∃ b more, bs = bs.takeWhile Line.isIndent ++ b :: more ∧ Line.isIndent b = false := by
  have whole := List.takeWhile_append_dropWhile (p := Line.isIndent) (l := bs)
  match hd : bs.dropWhile Line.isIndent with
  | [] =>
    left
    rw [List.dropWhile_eq_nil_iff] at hd
    exact List.all_eq_true.mpr hd
  | b :: more =>
    right
    refine ⟨b, more, ?_, ?_⟩
    · rw [← hd]
      exact whole.symm
    · have := List.head?_dropWhile_not Line.isIndent bs
      rw [hd, List.head?_cons] at this
      simpa using this

/-- In a text with paired line feeds, behind a byte that is no carriage return, the first byte
    behind some spaces and tabs is no line feed: what stands in front of it is no carriage return
    either. -/
theorem Paired.ne_lineFeed {front : List UInt8} {b : UInt8} (h : Paired (front ++ (pre ++ b :: bs)))
    (hf : front.getLast? ≠ some 13) (hp : pre.all Line.isIndent = true) : b ≠ 10 := by
  rintro rfl
  have last := h (front ++ pre) bs (by rw [List.append_assoc])
  rw [List.getLast?_append] at last
  match hl : pre.getLast? with
  | none =>
    rw [hl, Option.none_or] at last
    exact hf last
  | some b =>
    rw [hl, Option.some_or] at last
    cases last
    have indent := List.all_eq_true.mp hp 13 (List.mem_of_getLast? hl)
    exact absurd indent (by decide)

/-- In a text with paired line feeds, behind a byte that is no carriage return, nothing is measured
    in the middle of a line but the end of the text. -/
theorem Paired.depthFrom_false {front : List UInt8} (h : Paired (front ++ bs))
    (hf : front.getLast? ≠ some 13) :
    depthFrom false k bs = if bs.all Line.isIndent then some 0 else none := by
  rcases indent_or_text bs with all | ⟨b, more, he, hi⟩
  · rw [if_pos all]
    exact depthFrom_of_indent all false
  · have indent : (bs.takeWhile Line.isIndent).all Line.isIndent = true := List.all_takeWhile
    have text : bs.all Line.isIndent = false := by
      rw [he, List.all_append, List.all_cons, hi, Bool.false_and, Bool.and_false]
    rw [he] at h
    obtain ⟨depth, _, measured⟩ := depthFrom_of_text (k := k) indent
      (h.ne_lineFeed hf indent) hi false more
    rw [text, he]
    exact measured

/-- In front of a whole text with paired line feeds the depth of its first line is measured. -/
theorem Paired.depthFrom_true (h : Paired bs) :
    ∃ depth, depth.toNat = firstDepth bs ∧ depthFrom true 0 bs = some depth := by
  rcases indent_or_text bs with all | ⟨b, more, he, hi⟩
  · refine ⟨0, ?_, depthFrom_of_indent all true⟩
    rw [firstDepth, if_pos all]
    rfl
  · have indent : (bs.takeWhile Line.isIndent).all Line.isIndent = true := List.all_takeWhile
    have text : bs.all Line.isIndent = false := by
      rw [he, List.all_append, List.all_cons, hi, Bool.false_and, Bool.and_false]
    have first : b ≠ 10 := by
      rw [he] at h
      have whole : Paired ([] ++ (bs.takeWhile Line.isIndent ++ b :: more)) := h
      exact whole.ne_lineFeed (by simp) indent
    obtain ⟨depth, hd, measured⟩ := depthFrom_of_text (k := 0) indent first hi true more
    refine ⟨depth, ?_, ?_⟩
    · rw [firstDepth, text, hd, UInt16.toNat_zero, Nat.zero_add]
      rfl
    · rw [he]
      exact measured

end Layout

/-! ## The stream

  `BehindWord` is the invariant.  It says of a place what `Paired.depthFrom_false` asks of the byte
  in front of it, and every piece of text that is passed establishes it anew, for there are no
  comments and the last byte of content is not white space. -/

namespace Tokenizer

variable {text : String} {r : Reader} {c : UInt16} {awaits : Bool} {es : List Emission}
  {t : Tokenizer}

/-- The byte in front of an offset of a text belongs to a word: there is one, and it is no white
    space. -/
def BehindWord (text : String) (offset : Nat) : Prop :=
  ∃ b, ((Source.bytes text).take offset).getLast? = some b ∧ Lexeme.isSpace b = false

/-- The bytes of a text are those in front of a reader and those ahead of it. -/
theorem bytes_eq_append (hr : r.On text) :
    Source.bytes text = (Source.bytes text).take r.offset ++ r.rest := by
  rw [hr.rest_eq, Token.ahead, List.take_append_drop]

/-- Where nothing but white space is left behind a word, what is left is the ending of the text. -/
theorem ending_eq_rest (hr : r.On text) (hb : BehindWord text r.offset)
    (hs : r.rest.dropWhile Lexeme.isSpace = []) : Layout.ending (Source.bytes text) = r.rest := by
  obtain ⟨b, last, word⟩ := hb
  have space := List.dropWhile_eq_nil_iff.mp hs
  have ending := Layout.ending_append last word space
  rwa [← bytes_eq_append hr] at ending

/-- Behind a word of a text with paired line feeds nothing but the end of the text is measured, and
    that only if spaces and tabs alone are left. -/
theorem paired_depthFrom (hr : r.On text) (hb : BehindWord text r.offset)
    (hp : Layout.Paired (Source.bytes text)) (k : UInt16) :
    Layout.depthFrom false k r.rest = if r.rest.all Line.isIndent then some 0 else none := by
  obtain ⟨b, last, word⟩ := hb
  rw [bytes_eq_append hr] at hp
  refine hp.depthFrom_false ?_
  rw [last]
  rintro ⟨rfl⟩
  exact absurd word (by decide)

/-- If two slashes in a row occur nowhere in a text, no comment starts in front of the bytes at its
    end. -/
theorem not_startsComment {bs all : List UInt8} (hn : ¬[47, 47] <:+: all) (hs : bs <:+ all) :
    Lexeme.startsComment bs = false := by
  rw [Bool.eq_false_iff]
  intro hc
  obtain ⟨more, rfl⟩ := Lexeme.startsComment_iff.mp hc
  have slashes : [47, 47] <+: 47 :: 47 :: more := ⟨more, rfl⟩
  exact hn (slashes.isInfix.trans hs.isInfix)

/-- Where there are no comments, the next content is the next word: its first byte is no white
    space, and it goes on to the next white space or to the end. -/
theorem words_eq_cons {front : Reader} (hf : front = r.skipWhile Lexeme.isSpace)
    (hr : front.On text) (hne : front.rest ≠ []) (hn : ¬[47, 47] <:+: Source.bytes text) :
    Layout.words r.rest =
      front.rest.take (Lexeme.contentLength 0 front.rest) ::
        Layout.words (Lexeme.passContent front).rest := by
  have ahead : front.rest <:+ Source.bytes text := by
    rw [hr.rest_eq]
    exact List.drop_suffix ..
  obtain ⟨b, bs, hb⟩ := List.exists_cons_of_ne_nil hne
  have blank : Lexeme.isSpace b = false := Reader.isSpace_head_skipSpace (hf ▸ hb)
  have long := Lexeme.length_take_contentLength front.rest
  -- content is not empty, for its first byte is no white space and starts no comment
  have some_word : front.rest.take (Lexeme.contentLength 0 front.rest) ≠ [] := by
    have positive := Lexeme.contentLength_pos blank (hb ▸ not_startsComment hn ahead)
    rw [← hb] at positive
    intro he
    rw [he, List.length_nil] at long
    omega
  have stop : ∀ b ∈ (front.rest.drop (Lexeme.contentLength 0 front.rest)).head?,
      Lexeme.isSpace b = true := by
    intro b' hb'
    obtain ⟨more, hm⟩ := List.head?_eq_some_iff.mp hb'
    have behind : b' :: more <:+ Source.bytes text := hm ▸ (List.drop_suffix ..).trans ahead
    rcases Token.head_drop_contentLength hm with hs | hc
    · exact hs
    · rw [not_startsComment hn behind] at hc
      simp at hc
  have split := Layout.words_append some_word
    (fun _ => Lexeme.isSpace_of_mem_take_contentLength) stop
  rw [List.take_append_drop, ← Reader.rest_passContent hr.spells] at split
  rw [← split, hf, Reader.rest_skipWhile, Layout.words_dropWhile]

/-- Behind content the byte in front of the reader belongs to a word, namely the last byte of the
    content. -/
theorem behindWord_passContent {front : Reader} (hr : front.On text)
    (forward : front.offset < (Lexeme.passContent front).offset) :
    BehindWord text (Lexeme.passContent front).offset := by
  have place := Reader.offset_passContent hr.spells
  have long := Lexeme.length_take_contentLength front.rest
  have split : (Source.bytes text).take (Lexeme.passContent front).offset =
      (Source.bytes text).take front.offset ++
        front.rest.take (Lexeme.contentLength 0 front.rest) := by
    rw [place, List.take_add, hr.rest_eq, Token.ahead]
  cases hl : (front.rest.take (Lexeme.contentLength 0 front.rest)).getLast? with
  | none =>
    rw [List.getLast?_eq_none_iff.mp hl, List.length_nil] at long
    omega
  | some b =>
    refine ⟨b, ?_, Lexeme.isSpace_of_mem_take_contentLength (List.mem_of_getLast? hl)⟩
    rw [split, List.getLast?_append, hl, Option.some_or]

/-- In a text with paired line feeds and without comments, the tokens of a stream are a content for
    each word ahead, and behind the last of them the end, if it is announced.  The end is announced
    if only spaces and tabs are left behind the last word, and if no level token waits for content
    that never comes. -/
theorem Stream.paired (h : Stream r c awaits es t) (hr : r.On text) (hl : r.lineStart ≤ r.offset)
    (hb : awaits = true ∨ (r.column ≠ 0 ∧ BehindWord text r.offset))
    (hp : Layout.Paired (Source.bytes text)) (hn : ¬[47, 47] <:+: Source.bytes text) :
    let ending := Layout.ending (Source.bytes text)
    ∃ texts : List Token,
      texts.map (·.kind) = List.replicate (Layout.words r.rest).length .content ∧
      es.map (·.token) = texts ++
        if (awaits = false ∨ Layout.words r.rest ≠ []) ∧ ending.all Line.isIndent = true then
          Layout.announce c.toNat 0 ((Source.bytes text).length - ending.length)
        else [] := by
  intro ending
  induction h with
  | @finish r c awaits quiet hend =>
    rw [Reader.rest_skipWhile] at hend
    have nothing : Layout.words r.rest = [] := Layout.words_eq_nil hend
    refine ⟨[], by rw [nothing]; rfl, ?_⟩
    rw [if_neg]
    · rfl
    · rintro ⟨here, indent⟩
      have ha : awaits = false := here.resolve_right fun some_word => some_word nothing
      obtain ⟨column, behind⟩ := hb.resolve_left (by rw [ha]; exact Bool.false_ne_true)
      have measured := quiet.resolve_left (by rw [ha]; exact Bool.false_ne_true)
      have rest : ending = r.rest := ending_eq_rest hr behind hend
      rw [rest] at indent
      rw [lineDepth?_of_column column, Layout.depthFrom_of_indent indent] at measured
      simp at measured
  | @announce r c depth es t hm later ih =>
    obtain ⟨column, behind⟩ := hb.resolve_left Bool.false_ne_true
    -- only the end of the text is measured here, and nothing comes behind it
    have measured := (lineDepth?_of_column column).symm.trans hm
    rw [paired_depthFrom hr behind hp] at measured
    split at measured
    · next indent =>
      cases measured
      have space : r.rest.dropWhile Lexeme.isSpace = [] := by
        rw [List.dropWhile_eq_nil_iff]
        intro b hb
        exact (Line.isSpace_of_isIndent (List.all_eq_true.mp indent b hb)).1
      have nothing : Layout.words r.rest = [] := Layout.words_eq_nil space
      have rest : ending = r.rest := ending_eq_rest hr behind space
      obtain ⟨texts, kinds, tokens⟩ := ih hr hl (.inl rfl)
      rw [nothing, List.length_nil, List.replicate_zero, List.map_eq_nil_iff] at kinds
      subst kinds
      rw [nothing] at tokens
      refine ⟨[], by rw [nothing]; rfl, ?_⟩
      have stop : (Source.bytes text).length - ending.length = r.offset := by
        rw [← hr.length_rest, rest]
        omega
      rw [List.map_append, token_announcement, tokens, stop, rest, indent]
      simp
    · simp at measured
  | @comment r front c awaits es t quiet hf hs later ih =>
    have place : front.On text := hf ▸ hr.skipSpace
    have ahead : front.rest <:+ Source.bytes text := by
      rw [place.rest_eq]
      exact List.drop_suffix ..
    rw [not_startsComment hn ahead] at hs
    simp at hs
  | @content r front c awaits es t quiet hf hne hs later ih =>
    have place : front.On text := hf ▸ hr.skipSpace
    have start : front.lineStart ≤ front.offset := hf ▸ Reader.lineStart_le_steps _ hl
    have forward := Reader.offset_lt_passContent hf hne place.spells hs
    have sameLine := Reader.lineStart_passContent place.spells
    have column := Reader.column_ne_zero start sameLine forward
    have words := words_eq_cons hf place hne hn
    obtain ⟨texts, kinds, tokens⟩ := ih place.passContent (by rw [sameLine]; omega)
      (.inr ⟨column, behindWord_passContent place forward⟩)
    refine ⟨⟨.content, ⟨front.offset, (Lexeme.passContent front).offset⟩⟩ :: texts, ?_, ?_⟩
    · rw [words, List.length_cons, List.replicate_succ, List.map_cons, kinds]
    · rw [List.map_cons, tokens, words]
      simp

end Tokenizer

/-! ## The whole text

  The first line is announced from depth zero and the end is announced with depth zero, so in either
  case one of the two depths between which the boundaries lead is nothing. -/

namespace Layout

theorem kind_announce (before depth offset : Nat) :
    (announce before depth offset).map (·.kind) = (boundaries before depth).map .boundary := by
  rw [announce, List.map_map]
  rfl

/-- From depth zero the boundaries of a line are an opening for each of its tabs, and a level. -/
theorem boundaries_zero_left (depth : Nat) :
    boundaries 0 depth = List.replicate depth .opening ++ [.level] := by
  rw [boundaries, Nat.sub_zero, Nat.zero_sub, List.replicate_zero, List.append_nil]

/-- Back to depth zero they are a closing for each block that is open, and a level. -/
theorem boundaries_zero_right (before : Nat) :
    boundaries before 0 = List.replicate before .closing ++ [.level] := by
  rw [boundaries, Nat.sub_zero, Nat.zero_sub, List.replicate_zero, List.nil_append]

theorem span_of_mem_announce {before depth offset : Nat} {t : Token}
    (h : t ∈ announce before depth offset) : t.span = .point offset := by
  obtain ⟨b, _, rfl⟩ := List.mem_map.mp h
  rfl

end Layout

/-- **A carriage return in front of every line feed.**  If there is no comment in such a text, the
    first line alone is announced, with a block for each of its tabs; then comes a content for each
    word, whatever line it stands on; and if there is a word, and only spaces and tabs stand behind
    the last one, the end closes the blocks of the first line.  All structural tokens stand in front
    of the text or behind its last word. -/
theorem tokenize_paired (text : String) (hp : Layout.Paired (Source.bytes text))
    (hn : ¬[47, 47] <:+: Source.bytes text) :
    let bs := Source.bytes text
    let d := Layout.firstDepth bs
    let k := (Layout.words bs).length
    let ending := Layout.ending bs
    (tokenize text).map (·.kind) =
        List.replicate d (.boundary .opening) ++ [.boundary .level] ++ List.replicate k .content ++
          (if 0 < k ∧ ending.all Line.isIndent = true then
            List.replicate d (.boundary .closing) ++ [.boundary .level] else []) ∧
      ∀ t ∈ tokenize text, t.kind.isStructural = true →
        t.span = .point 0 ∨ t.span = .point (bs.length - ending.length) := by
  intro bs d k ending
  obtain ⟨depth, es, hm, he, later⟩ := Tokenizer.emissions_eq text
  obtain ⟨first, depth_first, measured⟩ := hp.depthFrom_true
  -- the stream begins with the announcement of the first line
  rw [Tokenizer.lineDepth?_eq] at hm
  cases hm.symm.trans measured
  obtain ⟨texts, kinds, tokens⟩ :=
    later.paired (Reader.on_start text) (Nat.le_refl 0) (.inl rfl) hp hn
  rw [depth_first] at tokens
  have all : tokenize text = Layout.announce 0 d 0 ++ (texts ++
      if 0 < k ∧ ending.all Line.isIndent = true then
        Layout.announce d 0 (bs.length - ending.length) else []) := by
    have some_word : (true = false ∨ Layout.words (Reader.start text).rest ≠ []) ↔ 0 < k := by
      rw [List.length_pos_iff]
      simp
      rfl
    simp only [some_word] at tokens
    rw [tokenize, he, List.map_append, Tokenizer.token_announcement, tokens]
    show Layout.announce 0 depth.toNat 0 ++ _ = _
    rw [depth_first]
  constructor
  · rw [all, List.map_append, List.map_append, kinds, Layout.kind_announce,
      Layout.boundaries_zero_left, ← List.append_assoc, List.map_append, List.map_replicate]
    split
    · rw [Layout.kind_announce, Layout.boundaries_zero_right, List.map_append, List.map_replicate]
      rfl
    · rfl
  · intro t ht structural
    rw [all, List.mem_append, List.mem_append] at ht
    rcases ht with ht | ht | ht
    · exact .inl (Layout.span_of_mem_announce ht)
    · -- a content is not structural
      have kind : t.kind ∈ texts.map (·.kind) := List.mem_map_of_mem ht
      rw [kinds] at kind
      rw [List.eq_of_mem_replicate kind] at structural
      simp [Token.Kind.isStructural] at structural
    · split at ht
      · exact .inr (Layout.span_of_mem_announce ht)
      · simp at ht

/-- Three lines of which only the first is announced, and an end with no carriage return in front of
    it that closes the block of the first line. -/
theorem tokenize_paired_three :
    Layout.Paired (Source.bytes "\tx\r\n\t\ty\r\nz ") ∧
      ¬[47, 47] <:+: Source.bytes "\tx\r\n\t\ty\r\nz " ∧
      (tokenize "\tx\r\n\t\ty\r\nz ").map (·.kind) =
        [.boundary .opening, .boundary .level, .content, .content, .content, .boundary .closing,
          .boundary .level] := by
  have paired : Layout.Paired (Source.bytes "\tx\r\n\t\ty\r\nz ") := by decide
  have noComment : ¬[47, 47] <:+: Source.bytes "\tx\r\n\t\ty\r\nz " := by decide
  refine ⟨paired, noComment, ?_⟩
  rw [(tokenize_paired _ paired noComment).1]
  decide +kernel

end Offside

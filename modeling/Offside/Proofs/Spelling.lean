/-
  Characters and their bytes.

  The library works on bytes and steps by characters.  This file says how the two go together.

  1. **One character** — a character is one byte below 128, or two to four bytes that are all at
     least 128, the first of which announces how many they are (`utf8EncodeChar_cases`).
  2. **Runs of bytes** — `Spells bs` says that the bytes are those of some characters.  The bytes
     after an offset of a text do so exactly when the offset stands between two characters, and
     taking a byte below 128 off the front keeps it so.
  3. **Readers** — over such bytes a character step passes one character, so content that is passed
     character by character is the content that is counted byte by byte.
  4. **Readers on a text** — `Reader.On text r` says that the reader stands between two characters
     of a text.  Everything the tokenizer does to its reader keeps that.

  All tests of the tokenizer are for bytes below 128: white space, the line feed, the slash.  Such a
  byte is a character of its own and is never part of another, so a search for it in the bytes of a
  text cannot stop in the middle of a character.  That is the one fact behind all lemmas on spans in
  this library.
-/
import Offside.Token.Lexeme
import Offside.Token.Tiling

namespace Offside

/-! ## One character

  The first byte of a character tells its width by ranges of values.  The three ranges are gone
  through by computation; which of them a character falls into is decided by its code point. -/

theorem leadWidth_two : ∀ n < 0x20, Reader.leadWidth (UInt8.ofNat (n + 0xC0)) = 2 := by decide

theorem leadWidth_three : ∀ n < 0x10, Reader.leadWidth (UInt8.ofNat (n + 0xE0)) = 3 := by decide

theorem leadWidth_four : ∀ n < 0x08, Reader.leadWidth (UInt8.ofNat (n + 0xF0)) = 4 := by decide

/-- A byte below 128 announces nothing but itself. -/
theorem leadWidth_one {b : UInt8} (h : b.toNat < 128) : Reader.leadWidth b = 1 := by
  simp only [Reader.leadWidth, UInt8.le_iff_toNat_le, UInt8.reduceToNat]
  rw [if_neg (by omega), if_neg (by omega), if_neg (by omega)]

/-- The bytes of a character: one below 128, which is its code point, or as many as the first of
    them announces, and none of them below 128. -/
theorem utf8EncodeChar_cases (c : Char) :
    (c.toNat < 128 ∧ String.utf8EncodeChar c = [UInt8.ofNat c.toNat]) ∨
      ∃ b bs, String.utf8EncodeChar c = b :: bs ∧ Reader.leadWidth b = bs.length + 1 ∧
        ∀ x ∈ b :: bs, 128 ≤ x.toNat := by
  have high (n : Nat) (h₁ : 128 ≤ n) (h₂ : n < 256) : 128 ≤ (UInt8.ofNat n).toNat := by
    rw [UInt8.toNat_ofNat']
    omega
  unfold String.utf8EncodeChar
  simp only
  -- one case for each number of bytes
  split
  · next h => exact .inl ⟨by show c.val.toNat < 128; omega, rfl⟩
  · refine .inr ?_
    split
    · refine ⟨_, _, rfl, leadWidth_two _ (by omega), ?_⟩
      simp only [List.mem_cons, List.not_mem_nil, or_false]
      rintro x (rfl | rfl) <;> exact high _ (by omega) (by omega)
    · split
      · refine ⟨_, _, rfl, leadWidth_three _ (by omega), ?_⟩
        simp only [List.mem_cons, List.not_mem_nil, or_false]
        rintro x (rfl | rfl | rfl) <;> exact high _ (by omega) (by omega)
      · refine ⟨_, _, rfl, leadWidth_four _ (by omega), ?_⟩
        simp only [List.mem_cons, List.not_mem_nil, or_false]
        rintro x (rfl | rfl | rfl | rfl) <;> exact high _ (by omega) (by omega)

/-! ## Runs of bytes

  `Spells` speaks of bytes without saying which characters they are, and so can be handed on when
  the first of them are passed.  It is the same as being valid (`spells_iff`), and it is what the
  library asks of the bytes ahead of a reader. -/

/-- The bytes are those of some characters. -/
def Spells (bs : List UInt8) : Prop := ∃ cs : List Char, bs = cs.flatMap String.utf8EncodeChar

/-- If some bytes are those of characters and the first is below 128, it is a character of its own,
    and the bytes behind it are those of characters too. -/
theorem Spells.tail {b : UInt8} {bs : List UInt8} (h : Spells (b :: bs)) (hb : b.toNat < 128) :
    Spells bs := by
  obtain ⟨cs, h⟩ := h
  cases cs with
  | nil => simp at h
  | cons c cs =>
    rw [List.flatMap_cons] at h
    rcases utf8EncodeChar_cases c with ⟨_, he⟩ | ⟨b', bs', he, _, hall⟩
    · rw [he, List.singleton_append, List.cons.injEq] at h
      exact ⟨cs, h.2⟩
    · -- no longer character starts with a byte below 128
      rw [he, List.cons_append, List.cons.injEq] at h
      have := hall b' List.mem_cons_self
      rw [← h.1] at this
      omega

/-- Bytes below 128 that pass a test can be taken off the front, and the rest is still the bytes of
    characters. -/
theorem Spells.dropWhile {bs : List UInt8} {p : UInt8 → Bool}
    (hp : ∀ b, p b = true → b.toNat < 128) (h : Spells bs) : Spells (bs.dropWhile p) := by
  induction bs with
  | nil => exact h
  | cons b bs ih =>
    rw [List.dropWhile_cons]
    split
    · next hb => exact ih (h.tail (hp b hb))
    · exact h

/-- A test that all bytes from 128 on pass is not failed in the middle of a character, so what is
    left from the first byte that fails it is the bytes of characters. -/
theorem Spells.dropWhile_of_high {bs : List UInt8} {p : UInt8 → Bool}
    (hp : ∀ b, 128 ≤ b.toNat → p b = true) (h : Spells bs) : Spells (bs.dropWhile p) := by
  obtain ⟨cs, rfl⟩ := h
  induction cs with
  | nil => exact ⟨[], rfl⟩
  | cons c cs ih =>
    rw [List.flatMap_cons]
    rcases utf8EncodeChar_cases c with ⟨_, he⟩ | ⟨b, bs, he, _, hall⟩
    · rw [he, List.singleton_append, List.dropWhile_cons]
      split
      · exact ih
      · exact ⟨c :: cs, by rw [List.flatMap_cons, he]; rfl⟩
    · -- all its bytes pass
      rw [he, List.dropWhile_append_of_pos fun x hx => hp x (hall x hx)]
      exact ih

theorem spells_bytes (text : String) : Spells (Source.bytes text) :=
  ⟨text.toList, Source.bytes_eq_flatMap text⟩

/-- Bytes are those of some characters exactly when they are valid as UTF-8. -/
theorem spells_iff {utf8 : ByteArray} : Spells utf8.data.toList ↔ utf8.IsValidUTF8 := by
  constructor
  · rintro ⟨cs, h⟩
    refine ⟨cs, ByteArray.ext (Array.toList_inj.mp ?_)⟩
    rw [h, List.utf8Encode, List.toList_data_toByteArray]
  · rintro ⟨cs, h⟩
    exact ⟨cs, by rw [h, List.utf8Encode, List.toList_data_toByteArray]⟩

/-- Bytes are read as a text exactly if they are the bytes of that text. -/
theorem fromUTF8?_eq_some_iff {utf8 : ByteArray} {text : String} :
    String.fromUTF8? utf8 = some text ↔ utf8 = text.toByteArray := by
  unfold String.fromUTF8?
  constructor
  · intro h
    split at h
    · cases h
      rfl
    · cases h
  · rintro rfl
    rw [dif_pos text.isValidUTF8]
    rfl

/-- The bytes of some characters are as many as the text of these characters has. -/
theorem length_flatMap_encode (cs : List Char) :
    (cs.flatMap String.utf8EncodeChar).length = (String.ofList cs).utf8ByteSize := by
  rw [← Source.length_bytes, Source.bytes_eq_flatMap, String.toList_ofList]

/-- The bytes of a text that are cut out between two offsets are those in front of the second, less
    those in front of the first. -/
theorem toList_extract (text : String) (start stop : Nat) :
    (text.toByteArray.extract start stop).data.toList =
      ((Source.bytes text).take stop).drop start := by
  rw [ByteArray.data_extract, Array.toList_extract, List.extract_eq_take_drop, List.drop_take]
  rfl

/-- The bytes of a text that are cut out from an offset to the end are those ahead of the offset. -/
theorem toList_extract_ahead (text : String) (offset : Nat) :
    (text.toByteArray.extract offset text.utf8ByteSize).data.toList = Token.ahead text offset := by
  rw [toList_extract, ← Source.length_bytes, List.take_length]
  rfl

/-- An offset stands between two characters of a text exactly when it is in the text and the bytes
    behind it are those of characters. -/
theorem betweenChars_iff {text : String} {offset : Nat} :
    Token.BetweenChars text offset ↔
      offset ≤ (Source.bytes text).length ∧ Spells (Token.ahead text offset) := by
  rw [Token.BetweenChars, String.Pos.Raw.isValid_iff_isValidUTF8_extract_utf8ByteSize,
    ← toList_extract_ahead, spells_iff, String.Pos.Raw.le_iff]
  rfl

theorem betweenChars_zero (text : String) : Token.BetweenChars text 0 := String.Pos.Raw.isValid_zero

theorem betweenChars_size (text : String) :
    Token.BetweenChars text (Source.bytes text).length := String.Pos.Raw.isValid_rawEndPos

/-- The slice between two offsets that stand between characters has the bytes between them, none
    more and none less. -/
theorem Source.bytes_slice {text : String} {start stop : Nat} (h : start ≤ stop)
    (hs : Token.BetweenChars text start) (he : Token.BetweenChars text stop) :
    bytes (slice text start stop) = ((bytes text).take stop).drop start := by
  have le : stop ≤ (bytes text).length := (betweenChars_iff.mp he).1
  have valid : (text.toByteArray.extract start stop).IsValidUTF8 :=
    (String.Pos.Raw.isValidUTF8_extract_iff ⟨start⟩ ⟨stop⟩ h le).mpr (.inr ⟨hs, he⟩)
  rw [slice_of_le h le, String.fromUTF8?, dif_pos valid, Option.getD_some]
  exact toList_extract text start stop

/-! ## Readers

  The loop that passes content takes a character at a time, as wide as its first byte announces, and
  asks in front of each whether content ends there.  The count (`contentLength`) asks in front of
  each byte. -/

namespace Reader

/-- The first byte of a character announces as many bytes as the character has. -/
theorem leadWidth_encode (c : Char) (more : List UInt8) :
    leadWidth ((String.utf8EncodeChar c ++ more).headD 0) = (String.utf8EncodeChar c).length := by
  rcases utf8EncodeChar_cases c with ⟨hc, he⟩ | ⟨b, bs, he, hw, _⟩
  · have : (UInt8.ofNat c.toNat).toNat < 128 := by rw [UInt8.toNat_ofNat']; omega
    rw [he, List.singleton_append, List.headD_cons, leadWidth_one this]
    rfl
  · rw [he, List.cons_append, List.headD_cons, hw]
    rfl

/-- In front of the bytes of a character, a character step passes exactly these bytes. -/
theorem stepChar_of_encode {r : Reader} {c : Char} {more : List UInt8}
    (h : r.rest = String.utf8EncodeChar c ++ more) :
    r.stepChar = r.steps (String.utf8EncodeChar c).length := by
  rw [stepChar, current, h, leadWidth_encode]

end Reader

namespace Lexeme

/-- White space is told by bytes below 128. -/
theorem lt_of_isSpace {b : UInt8} (h : isSpace b = true) : b.toNat < 128 := by
  simp only [isSpace, Bool.or_eq_true, beq_iff_eq] at h
  rcases h with ((rfl | rfl) | rfl) | rfl <;> decide

/-- The count of content goes on from any number, and the number is only added. -/
theorem contentLength_eq_add (n : Nat) (bs : List UInt8) :
    contentLength n bs = n + contentLength 0 bs := by
  induction bs generalizing n with
  | nil => rfl
  | cons b bs ih =>
    unfold contentLength
    split
    · rfl
    · rw [ih (n + 1), ih (0 + 1)]
      omega

/-- A byte that is no white space and starts no comment makes content one byte longer. -/
theorem contentLength_cons {b : UInt8} {bs : List UInt8} (hs : isSpace b = false)
    (hc : startsComment (b :: bs) = false) :
    contentLength 0 (b :: bs) = contentLength 0 bs + 1 := by
  rw [contentLength, hs, hc, Bool.or_self, if_neg Bool.false_ne_true, contentLength_eq_add,
    Nat.add_comm]

theorem contentLength_le (bs : List UInt8) : contentLength 0 bs ≤ bs.length := by
  induction bs with
  | nil => exact Nat.le_refl 0
  | cons b bs ih =>
    unfold contentLength
    split
    · exact Nat.zero_le _
    · rw [contentLength_eq_add, List.length_cons]
      omega

/-- Bytes from 128 on are content whatever stands behind them: they are no white space, and no
    slash. -/
theorem contentLength_append_of_high {bs more : List UInt8} (h : ∀ x ∈ bs, 128 ≤ x.toNat) :
    contentLength 0 (bs ++ more) = bs.length + contentLength 0 more := by
  induction bs with
  | nil => simp
  | cons b bs ih =>
    have hb := h b List.mem_cons_self
    have blank : isSpace b = false := by
      rw [Bool.eq_false_iff]
      intro hs
      have := lt_of_isSpace hs
      omega
    have slash : startsComment (b :: (bs ++ more)) = false := by
      rw [Bool.eq_false_iff]
      intro hc
      obtain ⟨_, he⟩ := startsComment_iff.mp hc
      rw [(List.cons.injEq ..).mp he |>.1] at hb
      exact absurd hb (by decide)
    have later := ih fun x hx => h x (List.mem_cons_of_mem b hx)
    rw [List.cons_append, contentLength_cons blank slash, later, List.length_cons]
    omega

/-- If content does not end in front of a character, it does not end within it, and goes on behind
    it. -/
theorem contentLength_encode_append {c : Char} {more : List UInt8} {b : UInt8} {bs : List UInt8}
    (h : String.utf8EncodeChar c ++ more = b :: bs) (hs : isSpace b = false)
    (hc : startsComment (b :: bs) = false) :
    contentLength 0 (b :: bs) = (String.utf8EncodeChar c).length + contentLength 0 more := by
  rcases utf8EncodeChar_cases c with ⟨_, he⟩ | ⟨b', bs', he, _, hall⟩
  · rw [he, List.singleton_append, List.cons.injEq] at h
    rw [contentLength_cons hs hc, he, h.2, Nat.add_comm]
    rfl
  · rw [← h, he]
    exact contentLength_append_of_high hall

/-- In front of the bytes of characters, content that is passed character by character is the
    content that is counted byte by byte. -/
theorem passContent_eq_steps {r : Reader} (h : Spells r.rest) :
    passContent r = r.steps (contentLength 0 r.rest) := by
  obtain ⟨cs, h⟩ := h
  -- character by character: the loop and the count stop in front of the same one
  induction cs generalizing r with
  | nil =>
    have hr : r.rest = [] := h
    rw [passContent, if_pos hr, hr]
    rfl
  | cons c cs ih =>
    rw [List.flatMap_cons] at h
    obtain ⟨b, bs, hr⟩ := List.exists_cons_of_ne_nil
      (show r.rest ≠ [] by
        rw [h]
        intro e
        have nothing := congrArg List.length e
        have := c.utf8Size_pos
        rw [List.length_append, String.length_utf8EncodeChar, List.length_nil] at nothing
        omega)
    rw [passContent, if_neg (by rw [hr]; exact List.cons_ne_nil b bs), Reader.current_of_cons hr, hr]
    split
    · next hstop =>
      rw [contentLength, if_pos hstop]
      rfl
    · next hgo =>
      rw [Bool.not_eq_true, Bool.or_eq_false_iff] at hgo
      rw [contentLength_encode_append (h.symm.trans hr) hgo.1 hgo.2, Reader.steps_add,
        Reader.stepChar_of_encode h]
      have later : (r.steps (String.utf8EncodeChar c).length).rest =
          cs.flatMap String.utf8EncodeChar := by
        rw [Reader.rest_steps, h, List.drop_left]
      rw [ih later, later]

/-- Content ends in front of a character, so the bytes behind it are those of characters too. -/
theorem spells_drop_contentLength {bs : List UInt8} (h : Spells bs) :
    Spells (bs.drop (contentLength 0 bs)) := by
  obtain ⟨cs, rfl⟩ := h
  induction cs with
  | nil => exact ⟨[], rfl⟩
  | cons c cs ih =>
    rw [List.flatMap_cons]
    match hb : String.utf8EncodeChar c ++ cs.flatMap String.utf8EncodeChar with
    | [] => exact ⟨[], rfl⟩
    | b :: bs =>
      by_cases hstop : (isSpace b || startsComment (b :: bs)) = true
      · rw [contentLength, if_pos hstop, List.drop_zero, ← hb]
        exact ⟨c :: cs, by rw [List.flatMap_cons]⟩
      · rw [Bool.not_eq_true, Bool.or_eq_false_iff] at hstop
        rw [contentLength_encode_append hb hstop.1 hstop.2, ← hb, ← List.drop_drop, List.drop_left]
        exact ih

end Lexeme

/-! ## Readers on a text

  The invariant of the tokenizer's reader.  Three things happen to it: white space is skipped, it
  jumps to the end of the line, and content is passed; each leads between two characters again. -/

/-- The reader stands in a text, between two characters: what is ahead of it are the bytes of the
    text from its offset on, and they are those of characters. -/
structure Reader.On (text : String) (r : Reader) : Prop where
  rest_eq : r.rest = Token.ahead text r.offset
  le : r.offset ≤ (Source.bytes text).length
  spells : Spells r.rest

namespace Reader

variable {text : String} {r : Reader}

theorem on_start (text : String) : (start text).On text :=
  ⟨rfl, Nat.zero_le _, spells_bytes text⟩

theorem On.betweenChars (h : r.On text) : Token.BetweenChars text r.offset :=
  betweenChars_iff.mpr ⟨h.le, by rw [← h.rest_eq]; exact h.spells⟩

theorem On.length_rest (h : r.On text) :
    r.offset + r.rest.length = (Source.bytes text).length := by
  have := h.le
  rw [h.rest_eq, Token.ahead, List.length_drop]
  omega

/-- A reader that has passed some of the bytes ahead is on the text still, if those left are the
    bytes of characters. -/
theorem On.of_drop (h : r.On text) {r' : Reader} {n : Nat} (hn : n ≤ r.rest.length)
    (hr : r'.rest = r.rest.drop n) (ho : r'.offset = r.offset + n) (hs : Spells r'.rest) :
    r'.On text := by
  refine ⟨?_, ?_, hs⟩
  · rw [hr, h.rest_eq, Token.ahead, Token.ahead, List.drop_drop, ho]
  · have := h.length_rest
    omega

theorem On.skipSpace (h : r.On text) : (r.skipWhile Lexeme.isSpace).On text := by
  refine h.of_drop (List.takeWhile_prefix (l := r.rest) Lexeme.isSpace).length_le ?_
    (offset_skipWhile ..) ?_
  · rw [skipWhile, rest_steps]
  · rw [rest_skipWhile]
    exact h.spells.dropWhile fun _ => Lexeme.lt_of_isSpace

theorem On.toLineEnd (h : r.On text) : r.toLineEnd.On text := by
  refine h.of_drop (List.takeWhile_prefix (l := r.rest) (· != lineFeed)).length_le
    (rest_toLineEnd r) rfl ?_
  refine h.spells.dropWhile_of_high ?_
  intro b hb
  rw [bne_iff_ne]
  rintro rfl
  exact absurd hb (by decide)

theorem offset_passContent (h : Spells r.rest) :
    (Lexeme.passContent r).offset = r.offset + Lexeme.contentLength 0 r.rest := by
  have := Lexeme.contentLength_le r.rest
  rw [Lexeme.passContent_eq_steps h, offset_steps]
  omega

theorem rest_passContent (h : Spells r.rest) :
    (Lexeme.passContent r).rest = r.rest.drop (Lexeme.contentLength 0 r.rest) := by
  rw [Lexeme.passContent_eq_steps h, rest_steps]

theorem On.passContent (h : r.On text) : (Lexeme.passContent r).On text := by
  refine h.of_drop (Lexeme.contentLength_le r.rest) (rest_passContent h.spells)
    (offset_passContent h.spells) ?_
  rw [rest_passContent h.spells]
  exact Lexeme.spells_drop_contentLength h.spells

/-- What is left behind skipped white space does not start with white space. -/
theorem isSpace_head_skipSpace {b : UInt8} {bs : List UInt8}
    (h : (r.skipWhile Lexeme.isSpace).rest = b :: bs) : Lexeme.isSpace b = false := by
  have := List.head?_dropWhile_not Lexeme.isSpace r.rest
  rw [← rest_skipWhile, h, List.head?_cons] at this
  simpa using this

/-- Skipping white space does not take a reader back. -/
theorem offset_le_skipSpace (r : Reader) : r.offset ≤ (r.skipWhile Lexeme.isSpace).offset := by
  rw [offset_skipWhile]
  exact Nat.le_add_right ..

/-- A comment is not empty, since its first slash is not a line feed, so the jump over it goes
    forward. -/
theorem offset_lt_toLineEnd {front : Reader} (hc : Lexeme.startsComment front.rest = true) :
    front.offset < front.toLineEnd.offset := by
  show front.offset < front.offset + (front.rest.takeWhile (· != lineFeed)).length
  obtain ⟨more, h⟩ := Lexeme.startsComment_iff.mp hc
  rw [h, List.takeWhile_cons_of_pos (by decide), List.length_cons]
  omega

/-- Content is not empty where text is ahead that is no comment, so passing it goes forward. -/
theorem offset_lt_passContent {front : Reader} (hf : front = r.skipWhile Lexeme.isSpace)
    (hne : front.rest ≠ []) (hs : Spells front.rest)
    (hc : Lexeme.startsComment front.rest = false) :
    front.offset < (Lexeme.passContent front).offset := by
  obtain ⟨b, bs, hr⟩ := List.exists_cons_of_ne_nil hne
  have hb : Lexeme.isSpace b = false := isSpace_head_skipSpace (hf ▸ hr)
  rw [offset_passContent hs, hr]
  rw [hr] at hc
  have := Lexeme.contentLength_pos hb hc
  omega

end Reader

end Offside

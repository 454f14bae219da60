/-
  The bytes of a blanked text.

  To blank a text is to put spaces in place of its comments: characters in place of characters,
  since the outcome is a text again.  What the tokenizer sees of it are bytes.  So the two have to
  be brought together: a character of a comment gives as many spaces as it has bytes, each space has
  one byte, and the offsets of all that is not hidden stay as they were.

  A comment starts and stops between two characters, so a character belongs to it with all of its
  bytes or with none (`Source.Whole`).  So the characters of a blanked text spell the blanked bytes
  of the text (`Source.bytes_blanked`).  From there on blanked texts are looked at as bytes alone.
-/
import Offside.Layout.Comments
import Offside.Proofs.Tiling

namespace Offside

variable {text : String} {hidden : Nat → Bool} {offset : Nat}

/-! ## Where comments stand

  That a comment stands between characters was shown of the tiling of a text by its tokens.  Here it
  is put into a form that speaks of one character: no comment starts or stops within it. -/

namespace Token

/-- A token hides a byte if it is a comment and the byte is in its span. -/
theorem hides_iff {t : Token} :
    t.hides offset = true ↔
      t.kind = .comment ∧ t.span.start ≤ offset ∧ offset < t.span.stop := by
  rw [hides, Bool.and_eq_true, beq_iff_eq, decide_eq_true_iff]

/-- A comment among tokens that tile a text stands between characters on both sides, and no line
    feed belongs to it. -/
theorem Tiles.comment {ts : List Token} {t : Token} (h : Tiles text offset ts) (ht : t ∈ ts)
    (hk : t.kind = .comment) :
    BetweenChars text t.span.start ∧ BetweenChars text t.span.stop ∧
      Between text t.span.start t.span.stop (· != 10) := by
  obtain ⟨place, later, here⟩ := h.from_mem ht
  obtain ⟨kind, span⟩ := t
  cases hk
  obtain ⟨_, _, _, _, start, stop, comment, _⟩ := here
  exact ⟨start, stop, comment.2.1⟩

/-- An offset between two characters of a text is not within a third: it stands in front of the
    first byte of that character, or behind its last one. -/
theorem BetweenChars.not_within {place : Nat} {front back : List Char} {c : Char}
    (h : BetweenChars text place) (ht : text.toList = front ++ c :: back) :
    let start := (front.flatMap String.utf8EncodeChar).length
    place ≤ start ∨ start + c.utf8Size ≤ place := by
  obtain ⟨s₁, s₂, rfl, hp⟩ := String.Pos.Raw.isValid_iff_exists_append.mp h
  have size : place = (s₁.toList.flatMap String.utf8EncodeChar).length := by
    rw [← Source.bytes_eq_flatMap]
    exact congrArg String.Pos.Raw.byteIdx hp
  rw [String.toList_append, List.append_eq_append_iff] at ht
  rcases ht with ⟨more, rfl, _⟩ | ⟨more, he, hc⟩
  · left
    rw [size, List.flatMap_append, List.length_append]
    exact Nat.le_add_right ..
  · -- the first text reaches up to the character, or over it
    rw [he, List.flatMap_append, List.length_append] at size
    rcases List.cons_eq_append_iff.mp hc with ⟨rfl, _⟩ | ⟨more, rfl, _⟩
    · left
      exact Nat.le_of_eq size
    · right
      rw [size, List.flatMap_cons, List.length_append, String.length_utf8EncodeChar]
      omega

end Token

/-- A comment of a text stands between its characters on both sides, and no line feed belongs to
    it. -/
theorem comment_mem_tokenize {t : Token} (ht : t ∈ tokenize text) (hk : t.kind = .comment) :
    Token.BetweenChars text t.span.start ∧ Token.BetweenChars text t.span.stop ∧
      Token.Between text t.span.start t.span.stop (· != 10) :=
  ((Tokenizer.stream_emissions text).tiles (Reader.on_start text)).1.comment ht hk

/-! ## Blanked bytes

  Blanking is by byte (`blankBytes`) or by character (`blankChars`); both ask the same question,
  whether an offset is hidden.  The two agree where all bytes of a character give the same
  answer. -/

namespace Source

/-- The bytes of each character are hidden together or shown together, from an offset on. -/
def Whole (hidden : Nat → Bool) (offset : Nat) : List Char → Prop
  | [] => True
  | c :: cs =>
    (∀ i < c.utf8Size, hidden (offset + i) = hidden offset) ∧ Whole hidden (offset + c.utf8Size) cs

/-- Bytes one after another are blanked each at its own place. -/
theorem blankBytes_append (bs more : List UInt8) :
    blankBytes hidden offset (bs ++ more) =
      blankBytes hidden offset bs ++ blankBytes hidden (offset + bs.length) more := by
  induction bs generalizing offset with
  | nil => rfl
  | cons b bs ih =>
    rw [List.cons_append, blankBytes, ih, List.length_cons, blankBytes,
      show offset + 1 + bs.length = offset + (bs.length + 1) by omega]
    rfl

/-- Bytes that are all hidden become spaces, and bytes that are all shown stay as they are. -/
theorem blankBytes_of_constant {bs : List UInt8} {value : Bool}
    (h : ∀ i < bs.length, hidden (offset + i) = value) :
    blankBytes hidden offset bs = bs.map fun b => if value then 32 else b := by
  induction bs generalizing offset with
  | nil => rfl
  | cons b bs ih =>
    have first : hidden offset = value := h 0 (by simp)
    have later : ∀ i < bs.length, hidden (offset + 1 + i) = value := by
      intro i hi
      rw [Nat.add_right_comm]
      exact h (i + 1) (by simpa using hi)
    rw [blankBytes, first, ih later]
    rfl

theorem blankBytes_of_shown {bs : List UInt8} (h : ∀ i < bs.length, hidden (offset + i) = false) :
    blankBytes hidden offset bs = bs := by
  rw [blankBytes_of_constant h]
  exact List.map_id bs

theorem blankBytes_of_hidden {bs : List UInt8} (h : ∀ i < bs.length, hidden (offset + i) = true) :
    blankBytes hidden offset bs = List.replicate bs.length 32 := by
  rw [blankBytes_of_constant h]
  exact List.map_const' ..

/-- A byte of a blanked text is a space or a byte of the text. -/
theorem mem_blankBytes {b : UInt8} {bs : List UInt8} (h : b ∈ blankBytes hidden offset bs) :
    b = 32 ∨ b ∈ bs := by
  induction bs generalizing offset with
  | nil => simp [blankBytes] at h
  | cons b' bs ih =>
    rw [blankBytes] at h
    rcases List.mem_cons.mp h with rfl | h
    · split
      · exact .inl rfl
      · exact .inr List.mem_cons_self
    · exact (ih h).imp_right (List.mem_cons_of_mem b')

/-- Where no character is hidden in part, blanked characters have the blanked bytes. -/
theorem flatMap_blankChars {cs : List Char} (h : Whole hidden offset cs) :
    (blankChars hidden offset cs).flatMap String.utf8EncodeChar =
      blankBytes hidden offset (cs.flatMap String.utf8EncodeChar) := by
  induction cs generalizing offset with
  | nil => rfl
  | cons c cs ih =>
    obtain ⟨same, later⟩ := h
    have size := String.length_utf8EncodeChar c
    rw [blankChars, List.flatMap_append, ih later, List.flatMap_cons, blankBytes_append, size]
    -- the first character is hidden as a whole or shown as a whole
    congr 1
    split
    · next hh =>
      rw [blankBytes_of_hidden, size, List.flatMap_replicate]
      · exact List.flatten_replicate_singleton
      · intro i hi
        rw [same i (size ▸ hi), hh]
    · next hs =>
      rw [blankBytes_of_shown, List.flatMap_singleton]
      intro i hi
      rw [same i (size ▸ hi)]
      exact Bool.eq_false_iff.mpr hs

/-- No comment of a text starts or stops within a character, so each character is hidden as a whole
    or not at all. -/
theorem whole_toList (text : String) : Whole (Token.hidden (tokenize text)) 0 text.toList := by
  have within (front back : List Char) (ht : text.toList = front ++ back) :
      Whole (Token.hidden (tokenize text)) (front.flatMap String.utf8EncodeChar).length back := by
    induction back generalizing front with
    | nil => trivial
    | cons c back ih =>
      constructor
      · intro i hi
        -- each comment has the whole character, or nothing of it
        have same : ∀ t ∈ tokenize text,
            t.hides ((front.flatMap String.utf8EncodeChar).length + i) =
              t.hides (front.flatMap String.utf8EncodeChar).length := by
          intro t mem
          rw [Bool.eq_iff_iff, Token.hides_iff, Token.hides_iff]
          refine and_congr_right fun hk => ?_
          obtain ⟨start, stop, _⟩ := comment_mem_tokenize mem hk
          have := start.not_within ht
          have := stop.not_within ht
          omega
        rw [Token.hidden, Token.hidden, Bool.eq_iff_iff, List.any_eq_true, List.any_eq_true]
        exact exists_congr fun t => and_congr_right fun mem => by rw [same t mem]
      · have next := ih (front ++ [c]) (by rw [ht, List.append_assoc]; rfl)
        rwa [List.flatMap_append, List.length_append, List.flatMap_singleton,
          String.length_utf8EncodeChar] at next
  exact within [] text.toList rfl

/-- The bytes of a blanked text are the blanked bytes of the text, where those of its comments are
    hidden. -/
theorem bytes_blanked (text : String) :
    bytes (blanked text) = blankBytes (Token.hidden (tokenize text)) 0 (bytes text) := by
  rw [bytes_eq_flatMap, bytes_eq_flatMap, blanked, String.toList_ofList,
    flatMap_blankChars (whole_toList text)]

end Source

end Offside

/-
  Quoted text reads back.

  A text between quotes can hold anything, quotes, backslashes and line feeds included, and
  characters that leave no mark.  So some characters are written as escapes, and which ones are,
  beyond those that must be, is a parameter (`hidden`).  Reading does not ask for it.

  1. **Numbers** — the hexadecimal digits of a number give back the number, digit by digit.
  2. **One character** — each way to write a character is told apart by how it starts: a short
     escape by the letter after the backslash, which is never `u`; a number by `u`; and what stands
     for itself is neither the quote nor the backslash, for both have a short escape.
  3. **Texts** — so reading takes exactly one character off what writing put in front, whichever
     characters are hidden (`decodeBody_escape`), and stops at the quote that writing put at the
     end.  A line feed has a short escape, so no quoted text has one.
-/
import Offside.Text.Quoted

namespace Offside.Text.Quoted

/-! ## Numbers

  A code point is written in hexadecimal digits, between braces. -/

theorem isHexDigit_digitChar : ∀ n < 16, isHexDigit n.digitChar = true := by decide

theorem hexValue_digitChar : ∀ n < 16, hexValue n.digitChar = n := by decide

theorem isHexDigit_of_mem_toDigits {n : Nat} {c : Char} (h : c ∈ Nat.toDigits 16 n) :
    isHexDigit c = true := by
  induction n using Nat.strongRecOn with
  | ind n ih =>
    rw [Nat.toDigits_eq_if (by decide)] at h
    split at h
    · next small =>
      rw [List.mem_singleton] at h
      rw [h]
      exact isHexDigit_digitChar n small
    · next large =>
      rcases List.mem_append.mp h with h | h
      · exact ih (n / 16) (by omega) h
      · rw [List.mem_singleton] at h
        rw [h]
        exact isHexDigit_digitChar (n % 16) (by omega)

/-- The hexadecimal digits of a number, read from the left, give the number back. -/
theorem ofHexDigits_toDigits (n : Nat) : ofHexDigits (Nat.toDigits 16 n) = n := by
  induction n using Nat.strongRecOn with
  | ind n ih =>
    rw [Nat.toDigits_eq_if (by decide)]
    split
    · next small =>
      show 16 * 0 + hexValue n.digitChar = n
      rw [hexValue_digitChar n small]
      omega
    · next large =>
      have front := ih (n / 16) (by omega)
      have last := hexValue_digitChar (n % 16) (by omega)
      unfold ofHexDigits at front ⊢
      rw [List.foldl_append, front]
      show 16 * (n / 16) + hexValue (n % 16).digitChar = n
      omega

/-! ## One character

  Writing a character chooses one of three forms.  There is a lemma for reading each, and
  `decodeBody_escape` puts them together without saying which it was. -/

/-- The letter of a short escape is one of six, and `u` is none of them. -/
theorem ne_u_of_shortEscape? {c letter : Char} (h : shortEscape? c = some letter) :
    letter ≠ 'u' := by
  unfold shortEscape? at h
  repeat' split at h
  all_goals first | cases h; decide | simp at h

/-- The letter of a short escape is read as the character that it stands for. -/
theorem readEscape_letter {c letter : Char} (h : shortEscape? c = some letter)
    (more : List Char) : readEscape (letter :: more) = some (c, more) := by
  have back := ofShortEscape?_of_shortEscape? h
  unfold readEscape
  split
  · next he =>
    -- the other kind of escape starts with a `u`
    rw [List.cons.injEq] at he
    exact absurd he.1 (ne_u_of_shortEscape? h)
  · next he =>
    rw [List.cons.injEq] at he
    rw [← he.1, ← he.2, back]
    rfl
  · next he => cases he

/-- A code point between braces is read as its character, whatever comes behind the closing
    brace. -/
theorem readEscape_number (c : Char) (more : List Char) :
    readEscape ('u' :: '\x7b' :: (Nat.toDigits 16 c.toNat ++ '\x7d' :: more)) =
      some (c, more) := by
  have digits : ∀ d ∈ Nat.toDigits 16 c.toNat, isHexDigit d = true :=
    fun _ => isHexDigit_of_mem_toDigits
  have brace : isHexDigit '\x7d' = false := by decide
  have number : (Nat.toDigits 16 c.toNat ++ '\x7d' :: more).takeWhile isHexDigit =
      Nat.toDigits 16 c.toNat := by
    rw [List.takeWhile_append_of_pos digits, List.takeWhile_cons_of_neg (by simp [brace]),
      List.append_nil]
  have rest : (Nat.toDigits 16 c.toNat ++ '\x7d' :: more).dropWhile isHexDigit =
      '\x7d' :: more := by
    rw [List.dropWhile_append_of_pos digits, List.dropWhile_cons_of_neg (by simp [brace])]
  rw [readEscape, rest, number, ofHexDigits_toDigits, Char.ofNat_toNat]
  rfl

/-- What follows a backslash is read as an escape, and then reading goes on behind it. -/
theorem decodeBody_backslash {text after : List Char} {c : Char}
    (h : readEscape text = some (c, after)) :
    decodeBody ('\\' :: text) = (decodeBody after).map fun read => (c :: read.1, read.2) := by
  rw [decodeBody, if_neg (by decide), if_pos rfl]
  split
  · next hn => rw [h] at hn; cases hn
  · next hs => rw [h] at hs; cases hs; rfl

/-- A character without a short escape is neither the quote nor the backslash nor the line feed, so
    it can stand for itself. -/
theorem ne_of_shortEscape?_eq_none {c : Char} (h : shortEscape? c = none) :
    c ≠ '"' ∧ c ≠ '\\' ∧ c ≠ '\n' := by
  refine ⟨?_, ?_, ?_⟩ <;> rintro rfl <;> simp [shortEscape?] at h

/-- Reading takes one character off, in whichever way it was written, and goes on behind it. -/
theorem decodeBody_escape (hidden : Char → Bool) (c : Char) (more : List Char) :
    decodeBody (escape hidden c ++ more) =
      (decodeBody more).map fun read => (c :: read.1, read.2) := by
  unfold escape
  split
  · next letter h => exact decodeBody_backslash (readEscape_letter h more)
  · next h =>
    split
    · have number := decodeBody_backslash (readEscape_number c more)
      simpa [List.append_assoc] using number
    · -- the character stands for itself
      obtain ⟨quote, backslash, _⟩ := ne_of_shortEscape?_eq_none h
      rw [List.singleton_append, decodeBody, if_neg quote, if_neg backslash]

/-! ## Texts

  One induction on the text, with the closing quote behind the last character. -/

/-- **Quoted text reads back**, whatever is hidden in it and whatever follows the closing quote. -/
theorem decode_encode (hidden : Char → Bool) (text more : List Char) :
    decode (encode hidden text ++ more) = some (text, more) := by
  have body (text : List Char) :
      decodeBody (text.flatMap (escape hidden) ++ '"' :: more) = some (text, more) := by
    induction text with
    | nil => rw [List.flatMap_nil, List.nil_append, decodeBody, if_pos rfl]
    | cons c text ih =>
      rw [List.flatMap_cons, List.append_assoc, decodeBody_escape, ih]
      rfl
  rw [encode, List.cons_append, List.append_assoc]
  exact body text

/-- A hexadecimal digit is no line feed. -/
theorem ne_lineFeed_of_isHexDigit {c : Char} (h : isHexDigit c = true) : c ≠ '\n' := by
  rintro rfl
  exact absurd h (by decide)

/-- No character is written with a line feed in it: the line feed itself has a letter of its own,
    and what is hidden is written in digits. -/
theorem lineFeed_notMem_escape (hidden : Char → Bool) (c : Char) : '\n' ∉ escape hidden c := by
  unfold escape
  split
  · next letter h =>
    have back := ofShortEscape?_of_shortEscape? h
    intro hm
    rw [List.mem_cons, List.mem_singleton] at hm
    rcases hm with hm | rfl
    · exact absurd hm (by decide)
    · simp [ofShortEscape?] at back
  · next h =>
    split
    · intro hm
      simp only [List.mem_append, List.mem_cons, List.not_mem_nil, or_false] at hm
      rcases hm with (((hm | hm | hm) | hm) | hm)
      · exact absurd hm (by decide)
      · exact absurd hm (by decide)
      · exact absurd hm (by decide)
      · exact ne_lineFeed_of_isHexDigit (isHexDigit_of_mem_toDigits hm) rfl
      · exact absurd hm (by decide)
    · intro hm
      rw [List.mem_singleton] at hm
      exact (ne_of_shortEscape?_eq_none h).2.2 hm.symm

/-- Quoted text is on one line, whatever the text is and whatever is hidden in it. -/
theorem lineFeed_notMem_encode (hidden : Char → Bool) (text : List Char) :
    '\n' ∉ encode hidden text := by
  intro hm
  rw [encode, List.mem_cons, List.mem_append, List.mem_singleton, List.mem_flatMap] at hm
  rcases hm with hm | ⟨c, _, hm⟩ | hm
  · exact absurd hm (by decide)
  · exact lineFeed_notMem_escape hidden c hm
  · exact absurd hm (by decide)

end Offside.Text.Quoted

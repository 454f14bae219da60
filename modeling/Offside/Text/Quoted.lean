/-
  Quoted text: text between double quotes, on one line and without unprintable characters.

  1. **Writing** (`encode`) — six characters have a short escape: NUL, tab, line feed, carriage
     return, the double quote and the backslash.  Of the others, those that are `hidden` are written
     by their number, in hexadecimal between braces after `\u`; all the rest stand for themselves.
     Which characters are hidden is left open here.
  2. **Reading** (`decode`) — gives back the text up to the closing quote, and what comes after it.
-/

namespace Offside.Text.Quoted

/-- The letter that follows the backslash in the short escape of a character, if it has one. -/
def shortEscape? (c : Char) : Option Char :=
  if c = '\x00' then some '0'
  else if c = '\t' then some 't'
  else if c = '\n' then some 'n'
  else if c = '\r' then some 'r'
  else if c = '"' then some '"'
  else if c = '\\' then some '\\'
  else none

/-- The character whose short escape has a letter. -/
def ofShortEscape? (letter : Char) : Option Char :=
  if letter = '0' then some '\x00'
  else if letter = 't' then some '\t'
  else if letter = 'n' then some '\n'
  else if letter = 'r' then some '\r'
  else if letter = '"' then some '"'
  else if letter = '\\' then some '\\'
  else none

/-- One character as it is written between the quotes. -/
def escape (hidden : Char → Bool) (c : Char) : List Char :=
  match shortEscape? c with
  | some letter => ['\\', letter]
  | none =>
    if hidden c then ['\\', 'u', '\x7b'] ++ Nat.toDigits 16 c.toNat ++ ['\x7d'] else [c]

/-- A text in double quotes. -/
def encode (hidden : Char → Bool) (text : List Char) : List Char :=
  '"' :: (text.flatMap (escape hidden) ++ ['"'])

/-- Whether a character is a digit of a hexadecimal number. -/
def isHexDigit (c : Char) : Bool := c.isDigit || ('a' ≤ c && c ≤ 'f')

/-- The value of a digit of a hexadecimal number. -/
def hexValue (c : Char) : Nat :=
  if c.isDigit then c.toNat - '0'.toNat else c.toNat - 'a'.toNat + 10

/-- The number of some hexadecimal digits. -/
def ofHexDigits (digits : List Char) : Nat := digits.foldl (fun n c => 16 * n + hexValue c) 0

/-- Reads what follows a backslash: the character meant, and what comes after it. -/
def readEscape : List Char → Option (Char × List Char)
  | 'u' :: '\x7b' :: rest =>
    match rest.dropWhile isHexDigit with
    | '\x7d' :: after =>
      some (Char.ofNat (ofHexDigits (rest.takeWhile isHexDigit)), after)
    | _ => none
  | letter :: rest => (ofShortEscape? letter).map fun c => (c, rest)
  | [] => none

/-- Reading an escape takes at least one character off, so the reading of a quoted text comes to its
    end. -/
theorem readEscape_lt {text after : List Char} {c : Char} (h : readEscape text = some (c, after)) :
    after.length < text.length := by
  unfold readEscape at h
  split at h
  · next rest =>
    have := (List.dropWhile_suffix (l := rest) isHexDigit).length_le
    split at h
    · next he =>
      simp only [Option.some.injEq, Prod.mk.injEq] at h
      obtain ⟨_, rfl⟩ := h
      rw [he] at this
      simp only [List.length_cons] at this ⊢
      omega
    · simp at h
  · simp only [Option.map_eq_some_iff, Prod.mk.injEq] at h
    obtain ⟨_, _, _, rfl⟩ := h
    simp
  · simp at h

/-- Reads up to the closing quote. -/
def decodeBody : List Char → Option (List Char × List Char)
  | [] => none
  | c :: rest =>
    if c = '"' then some ([], rest)
    else if c = '\\' then
      match h : readEscape rest with
      | none => none
      | some (c, after) =>
        have := readEscape_lt h
        (decodeBody after).map fun read => (c :: read.1, read.2)
    else (decodeBody rest).map fun read => (c :: read.1, read.2)
termination_by text => text.length
decreasing_by all_goals simp only [List.length_cons]; omega

/-- Reads a text in double quotes: the text, and what comes after the closing quote. -/
def decode : List Char → Option (List Char × List Char)
  | '"' :: rest => decodeBody rest
  | _ => none

/-- The letter of a short escape is that of the character alone, so the character is read back from
    it. -/
theorem ofShortEscape?_of_shortEscape? {c letter : Char} (h : shortEscape? c = some letter) :
    ofShortEscape? letter = some c := by
  unfold shortEscape? at h
  repeat' split at h
  all_goals simp_all
  all_goals subst h; rfl

example : encode (· == '\x7f') "a\t\"\x7f".toList = "\"a\\t\\\"\\u\x7b7f\x7d\"".toList := by
  decide +kernel

example : decode "\"a\\t\\u\x7b7f\x7d\" [".toList = some ("a\t\x7f".toList, " [".toList) := by
  decide +kernel

end Offside.Text.Quoted

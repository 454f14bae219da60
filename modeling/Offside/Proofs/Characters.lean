/-
  A text read character by character.

  A reader can be moved byte by byte, so it can come to stand where no character starts.  What it
  sees then, and that it sees each character of the text when it is moved by characters, rests on
  one property of the encoding: whether a byte is the first of a character can be told from the
  byte.

  1. **First bytes** — a byte at which a character starts is told from the others by its bits alone,
     so within a character nothing is decoded (`utf8DecodeChar?_of_not_first`), and a byte within a
     character announces a width of one (`leadWidth_of_not_first`).
  2. **At an offset** — a reader that was moved there byte by byte sees the character that starts
     there, or U+FFFD if the offset is within a character (`char?_of_between`, `char?_of_within`).
  3. **One after another** — a reader that is moved by characters stands behind so many characters
     of its text (`rest_stepChars`), and so it shows all of them in order.
  4. **Pointers** — a pointer decodes only the bytes that the first one announces, and only if they
     are valid as a whole.  It sees the same (`char?_pointer`).
-/
import Offside.Proofs.Pointers

namespace Offside

/-! ## First bytes

  The bits of a byte tell whether it starts a character; the table of widths is by ranges of values.
  A byte that starts none has its first bit set and the second not, and lies in none of the
  ranges. -/

/-- A byte that starts no character announces a width of one, so a step over it goes to the next
    byte. -/
theorem leadWidth_of_not_first {b : UInt8} (h : ¬b.IsUTF8FirstByte) : Reader.leadWidth b = 1 := by
  have all : ∀ n < 256, ¬(UInt8.ofNat n).IsUTF8FirstByte → Reader.leadWidth (UInt8.ofNat n) = 1 := by
    decide +kernel
  have width := all b.toNat b.toNat_lt
  rw [UInt8.ofNat_toNat] at width
  exact width h

/-- Where the first byte starts no character, nothing is decoded, whatever stands behind it. -/
theorem utf8DecodeChar?_of_not_first {b : UInt8} {bs : List UInt8} (h : ¬b.IsUTF8FirstByte) :
    (b :: bs).toByteArray.utf8DecodeChar? 0 = none := by
  rw [← Option.not_isSome_iff_eq_none]
  intro found
  have first := ByteArray.isUTF8FirstByte_of_isSome_utf8DecodeChar? found
  rw [List.getElem_toByteArray] at first
  exact h first

/-- An offset within a text stands between two characters exactly if the byte behind it starts
    one. -/
theorem betweenChars_iff_first {text : String} {offset : Nat} {b : UInt8} {bs : List UInt8}
    (h : Token.ahead text offset = b :: bs) :
    Token.BetweenChars text offset ↔ b.IsUTF8FirstByte := by
  have within : offset < (Source.bytes text).length := by
    have size := congrArg List.length h
    rw [Token.ahead, List.length_drop, List.length_cons] at size
    omega
  have here : (Source.bytes text)[offset] = b := by
    rw [Token.ahead, List.drop_eq_getElem_cons within] at h
    exact (List.cons.inj h).1
  have byte (lt : (⟨offset⟩ : String.Pos.Raw) < text.rawEndPos) :
      text.getUTF8Byte ⟨offset⟩ lt = b := by
    rw [← here]
    rfl
  rw [Token.BetweenChars, String.Pos.Raw.isValid_iff_isUTF8FirstByte]
  constructor
  · rintro (atEnd | ⟨lt, first⟩)
    · have := congrArg String.Pos.Raw.byteIdx atEnd
      exact absurd within (by rw [Source.length_bytes]; exact Nat.not_lt.mpr (Nat.le_of_eq this.symm))
    · rwa [byte] at first
  · intro first
    have lt : (⟨offset⟩ : String.Pos.Raw) < text.rawEndPos := within
    exact .inr ⟨lt, by rwa [byte]⟩

/-! ## At an offset

  A text falls into the characters in front of an offset and those behind it, if the offset stands
  between two of them; and within a character it does not. -/

/-- An offset of a text between two characters parts its characters in two, and its bytes with
    them. -/
theorem exists_parts {text : String} {offset : Nat} (h : Token.BetweenChars text offset) :
    ∃ front back : List Char, text.toList = front ++ back ∧
      (String.ofList front).utf8ByteSize = offset ∧
      Token.ahead text offset = back.flatMap String.utf8EncodeChar := by
  obtain ⟨front, back, rfl, place⟩ := String.Pos.Raw.isValid_iff_exists_append.mp h
  have size : (String.ofList front.toList).utf8ByteSize = offset := by
    rw [String.ofList_toList]
    exact (congrArg String.Pos.Raw.byteIdx place).symm
  refine ⟨front.toList, back.toList, String.toList_append, size, ?_⟩
  rw [Token.ahead, Source.bytes_eq_flatMap, String.toList_append, List.flatMap_append, ← size,
    ← length_flatMap_encode, List.drop_left]

namespace Reader

variable {text : String} {r : Reader}

/-- Between two characters a reader sees the one that starts there, with as many bytes in front as
    its offset says. -/
theorem char?_of_between (hr : r.At text) (hne : r.rest ≠ [])
    (h : Token.BetweenChars text r.offset) :
    ∃ front c back, text.toList = front ++ c :: back ∧
      (String.ofList front).utf8ByteSize = r.offset ∧ r.char? = some c := by
  obtain ⟨front, back, parts, size, bytes⟩ := exists_parts h
  cases back with
  | nil => exact absurd (hr.rest_eq.trans bytes) hne
  | cons c back =>
    rw [List.flatMap_cons] at bytes
    exact ⟨front, c, back, parts, size, char?_of_encode (hr.rest_eq.trans bytes)⟩

/-- Within a character, in front of one of its later bytes, a reader sees U+FFFD. -/
theorem char?_of_within (hr : r.At text) (hne : r.rest ≠ [])
    (h : ¬Token.BetweenChars text r.offset) : r.char? = some '\uFFFD' := by
  obtain ⟨b, bs, rest⟩ := List.exists_cons_of_ne_nil hne
  have not_first : ¬b.IsUTF8FirstByte := mt (betweenChars_iff_first (hr.rest_eq.symm.trans rest)).mpr h
  rw [char?, if_neg (by simpa [atEnd_iff] using hne), rest, List.take_succ_cons,
    utf8DecodeChar?_of_not_first not_first]
  rfl

/-! ## One after another

  A step by characters asks the byte under the reader how far to go.  In front of a character it
  goes behind it, so a reader that starts in front of the text never stands within one. -/

/-- Moved by characters, a reader passes the bytes of so many of the characters ahead. -/
theorem stepChars_eq_steps {cs : List Char} (hr : r.rest = cs.flatMap String.utf8EncodeChar)
    (n : Nat) : r.stepChars n = r.steps ((cs.take n).flatMap String.utf8EncodeChar).length := by
  induction n generalizing r cs with
  | zero => rfl
  | succ n ih =>
    cases cs with
    | nil =>
      have stays : r.stepChar = r := steps_of_nil hr _
      have nothing : r.rest = ([] : List Char).flatMap String.utf8EncodeChar := hr
      rw [stepChars, stays, ih nothing, List.take_nil, List.take_nil]
    | cons c cs =>
      rw [List.flatMap_cons] at hr
      have later : r.stepChar.rest = cs.flatMap String.utf8EncodeChar := by
        rw [stepChar_of_encode hr, rest_steps, hr, List.drop_left]
      rw [stepChars, ih later, stepChar_of_encode hr, ← steps_add, List.take_succ_cons,
        List.flatMap_cons, List.length_append]

/-- A reader that was moved by characters has those behind them ahead, and its offset is as many
    bytes further on as they have. -/
theorem rest_stepChars {cs : List Char} (hr : r.rest = cs.flatMap String.utf8EncodeChar) (n : Nat) :
    (r.stepChars n).rest = (cs.drop n).flatMap String.utf8EncodeChar ∧
      (r.stepChars n).offset = r.offset + (String.ofList (cs.take n)).utf8ByteSize := by
  have parts : r.rest = (cs.take n).flatMap String.utf8EncodeChar ++
      (cs.drop n).flatMap String.utf8EncodeChar := by
    rw [← List.flatMap_append, List.take_append_drop, hr]
  rw [stepChars_eq_steps hr n]
  constructor
  · rw [rest_steps, parts, List.drop_left]
  · rw [offset_steps, parts, List.length_append, ← length_flatMap_encode]
    omega

end Reader

/-! ## Pointers

  A reader decodes from the bytes ahead, of which there may be more than the character needs.  A
  pointer cuts out a slice as wide as the first byte announces and reads that as a text. -/

namespace Pointer

/-- The bytes of one character are decoded as this character. -/
theorem decode_encode (c : Char) : decode (String.utf8EncodeChar c) = c := by
  have bytes : (String.utf8EncodeChar c).toByteArray = (String.ofList [c]).toByteArray := by
    rw [String.toByteArray_ofList, List.utf8Encode, List.flatMap_singleton]
  rw [decode, fromUTF8?_eq_some_iff.mpr bytes, Option.bind_some, String.toList_ofList]
  rfl

/-- A byte that starts no character is not decoded. -/
theorem decode_of_not_first {b : UInt8} (h : ¬b.IsUTF8FirstByte) : decode [b] = '\uFFFD' := by
  cases valid : String.fromUTF8? [b].toByteArray with
  | none =>
    rw [decode, valid]
    rfl
  | some text =>
    have ahead : Token.ahead text 0 = [b] := by
      have bytes := congrArg (·.data.toList) (fromUTF8?_eq_some_iff.mp valid)
      simp only [List.toList_data_toByteArray] at bytes
      exact bytes.symm
    have start : Token.BetweenChars text 0 := String.Pos.Raw.isValid_zero
    exact absurd ((betweenChars_iff_first ahead).mp start) h

variable {text : String} {r : Reader} {b : UInt8} {bs : List UInt8}

/-- What a reader sees at a place is decoded from as many bytes as the first one announces. -/
theorem char?_eq_decode (h : r.At text) (hr : r.rest = b :: bs) :
    r.char? = some (decode (r.rest.take (Reader.leadWidth b))) := by
  have hne : r.rest ≠ [] := by rw [hr]; exact List.cons_ne_nil b bs
  by_cases between : Token.BetweenChars text r.offset
  · obtain ⟨_, back, _, _, bytes⟩ := exists_parts between
    rw [← h.rest_eq] at bytes
    cases back with
    | nil => exact absurd bytes hne
    | cons c back =>
      rw [List.flatMap_cons] at bytes
      have width := Reader.leadWidth_encode c (back.flatMap String.utf8EncodeChar)
      rw [← bytes, hr, List.headD_cons] at width
      rw [Reader.char?_of_encode bytes, width, bytes, List.take_left, decode_encode]
  · have not_first : ¬b.IsUTF8FirstByte :=
      mt (betweenChars_iff_first (h.rest_eq.symm.trans hr)).mpr between
    rw [Reader.char?_of_within h hne between, leadWidth_of_not_first not_first, hr]
    exact congrArg some (decode_of_not_first not_first).symm

/-- A pointer sees the character that a reader sees at the same place, and finds every byte that it
    needs. -/
theorem char?_pointer (h : r.At text) : r.pointer.char? text = some r.char? := by
  unfold char?
  rw [atEnd_pointer h, current?_pointer h]
  match hr : r.rest with
  | [] =>
    have ended : r.atEnd = true := Reader.atEnd_iff.mpr hr
    rw [if_pos ended, Reader.char?, if_pos ended]
  | b :: bs =>
    have hne : r.rest ≠ [] := by rw [hr]; exact List.cons_ne_nil b bs
    rw [if_neg (by rwa [Reader.atEnd_iff]), Reader.current_of_cons hr]
    show (if b.toNat < 128 then some (some (Char.ofNat b.toNat)) else
      (Source.range? text r.offset
        (min (r.offset + Reader.leadWidth b) (Source.bytes text).length)).bind _) = _
    by_cases small : b.toNat < 128
    · -- a byte below 128 is a character, and no other bytes are looked at
      have ascii : ∀ n < 128, (Char.ofNat n).toNat = n := by decide
      have same := ascii b.toNat small
      have single : r.char? = some (Char.ofNat b.toNat) := by
        rw [Reader.char?_eq_ascii_iff (by omega), same, UInt8.ofNat_toNat]
        exact ⟨bs, hr⟩
      rw [if_pos small, single]
    · have size := h.length_rest
      have stop : min (r.offset + Reader.leadWidth b) (Source.bytes text).length =
          r.offset + min (Reader.leadWidth b) r.rest.length := by omega
      rw [if_neg small, stop, range?_pointer h (Nat.min_le_right ..), ← List.take_eq_take_min,
        char?_eq_decode h hr]
      rfl

end Pointer

/-- **The characters of a text.**  A reader that is moved by characters sees each character of the
    text in order, at an offset between two characters, and then the end of the text, behind all its
    bytes.  A reader that is moved byte by byte sees the character that starts at its offset, and
    U+FFFD if it stands within a character.  A pointer at the same place decodes the same, and finds
    every byte of the image that it looks at. -/
theorem char?_walk (text : String) :
    (∀ n, let r := (Reader.start text).stepChars n
      r.char? = text.toList[n]? ∧ r.pointer.char? text = some r.char? ∧
      r.offset = (String.ofList (text.toList.take n)).utf8ByteSize ∧
      Token.BetweenChars text r.offset) ∧
    ((Reader.start text).stepChars text.toList.length).offset = (Source.bytes text).length ∧
    ∀ n < (Source.bytes text).length, let r := (Reader.start text).steps n
      r.offset = n ∧ r.pointer.char? text = some r.char? ∧
      (Token.BetweenChars text n → ∃ front c back, text.toList = front ++ c :: back ∧
        (String.ofList front).utf8ByteSize = n ∧ r.char? = some c) ∧
      (¬Token.BetweenChars text n → r.char? = some '\uFFFD') := by
  have spelled : (Reader.start text).rest = text.toList.flatMap String.utf8EncodeChar :=
    Source.bytes_eq_flatMap text
  have behind (n : Nat) : ((Reader.start text).stepChars n).offset =
      (String.ofList (text.toList.take n)).utf8ByteSize := by
    rw [(Reader.rest_stepChars spelled n).2]
    exact Nat.zero_add _
  refine ⟨?_, ?_, ?_⟩
  · intro n r
    have ahead : r.rest = (text.toList.drop n).flatMap String.utf8EncodeChar :=
      (Reader.rest_stepChars spelled n).1
    -- steps by characters lead where some number of steps by bytes leads as well
    have place : r.At text := by
      show ((Reader.start text).stepChars n).At text
      rw [Reader.stepChars_eq_steps spelled]
      exact (Reader.at_start text).steps _
    have between : Token.BetweenChars text r.offset :=
      betweenChars_iff.mpr ⟨place.le, _, place.rest_eq.symm.trans ahead⟩
    refine ⟨?_, Pointer.char?_pointer place, behind n, between⟩
    rw [Reader.char?_of_flatMap ahead, List.head?_drop]
  · rw [behind, List.take_length, String.ofList_toList, Source.length_bytes]
  · intro n hn r
    have place : r.At text := (Reader.at_start text).steps n
    have here : r.offset = n := by
      show ((Reader.start text).steps n).offset = n
      rw [Reader.offset_steps]
      show 0 + min n (Source.bytes text).length = n
      omega
    have more : r.rest ≠ [] := by
      have size := place.length_rest
      rw [← List.length_pos_iff]
      omega
    refine ⟨here, Pointer.char?_pointer place, ?_, ?_⟩
    · intro between
      rw [← here] at between ⊢
      exact Reader.char?_of_between place more between
    · intro within
      rw [← here] at within
      exact Reader.char?_of_within place more within

/-- The second byte of a letter of two bytes, and the first. -/
theorem char?_walk_letter :
    (2 < (Source.bytes "aé").length ∧ ¬Token.BetweenChars "aé" 2 ∧
      ((Reader.start "aé").steps 2).char? = some '\uFFFD') ∧
    (1 < (Source.bytes "aé").length ∧ Token.BetweenChars "aé" 1 ∧
      ∃ front c back, "aé".toList = front ++ c :: back ∧
        (String.ofList front).utf8ByteSize = 1 ∧ ((Reader.start "aé").steps 1).char? = some c) := by
  have second : 2 < (Source.bytes "aé").length := by decide
  have first : 1 < (Source.bytes "aé").length := by decide
  have ahead₂ : Token.ahead "aé" 2 = [0xA9] := by decide
  have ahead₁ : Token.ahead "aé" 1 = [0xC3, 0xA9] := by decide
  have within : ¬Token.BetweenChars "aé" 2 := by
    rw [betweenChars_iff_first ahead₂]
    decide
  have between : Token.BetweenChars "aé" 1 := by
    rw [betweenChars_iff_first ahead₁]
    decide
  obtain ⟨_, _, bytes⟩ := char?_walk "aé"
  exact ⟨⟨second, within, (bytes 2 second).2.2.2 within⟩,
    ⟨first, between, (bytes 1 first).2.2.1 between⟩⟩

end Offside

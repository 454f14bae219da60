/-
  The flaws of a text, in terms of its characters.

  Flaws are looked for among the bytes.  In UTF-8 a byte order mark can only be that of UTF-8, for
  no character starts with a byte from 248 on; and its three bytes are those of one character, which
  is then the first.  A zero byte is always a character of its own.

  So the flaws of a text are told by its characters (`flaws_eq`): the mark if it is the first of
  them, and then one flaw for each zero character, at the byte offset where it stands.  That the
  offsets are all and in order is the meaning of `ZerosAt`.
-/
import Offside.Proofs.Measuring
import Offside.Proofs.Spelling
import Offside.Source.Search

namespace Offside.Source

/-! ## The byte order mark

  Three marks are looked for.  Two of them start with a byte that starts no character and so are
  never found in a text; the third is the encoding of U+FEFF, and no other character starts with its
  bytes. -/

/-- The first byte of a character is below 248, which neither byte of the two marks of UTF-16 is. -/
theorem utf8EncodeChar_eq_cons (c : Char) :
    ∃ b bs, String.utf8EncodeChar c = b :: bs ∧ b.toNat < 0xF8 := by
  have low (n : Nat) (h : n < 0xF8) : (UInt8.ofNat n).toNat < 0xF8 := by
    rw [UInt8.toNat_ofNat']
    omega
  unfold String.utf8EncodeChar
  simp only
  split
  · exact ⟨_, _, rfl, low _ (by omega)⟩
  · split
    · exact ⟨_, _, rfl, low _ (by omega)⟩
    · split
      · exact ⟨_, _, rfl, low _ (by omega)⟩
      · exact ⟨_, _, rfl, low _ (by omega)⟩

/-- Bytes start with those of one character only, so two characters that both stand in front are the
    same. -/
theorem eq_of_utf8EncodeChar_append {c d : Char} (xs ys : List UInt8)
    (h : String.utf8EncodeChar c ++ xs = String.utf8EncodeChar d ++ ys) : c = d := by
  let r : Reader := { (Reader.start "") with rest := String.utf8EncodeChar c ++ xs }
  have first : r.char? = some c := Reader.char?_of_encode rfl
  have second : r.char? = some d := Reader.char?_of_encode h
  exact Option.some.inj (first.symm.trans second)

/-- The character that marks the order of bytes. -/
def markChar : Char := '\uFEFF'

/-- A text has a byte order mark exactly if its first character is one, and then it is that of
    UTF-8. -/
theorem orderMark?_bytes (text : String) :
    orderMark? (bytes text) =
      if text.toList.head? = some markChar then some ⟨.utf8Mark, 0, 3⟩ else none := by
  rw [bytes_eq_flatMap]
  match text.toList with
  | [] => rfl
  | c :: cs =>
    obtain ⟨b, bs, he, small⟩ := utf8EncodeChar_eq_cons c
    -- the other marks start with a byte that no character starts with
    have other {x : UInt8} (hx : 0xF8 ≤ x.toNat) (more : List UInt8) :
        String.utf8EncodeChar c ++ cs.flatMap String.utf8EncodeChar ≠ x :: more := by
      intro hm
      rw [he, List.cons_append, List.cons.injEq] at hm
      rw [hm.1] at small
      omega
    rw [List.flatMap_cons]
    split
    · next h =>
      cases h
      rfl
    · next h =>
      unfold orderMark?
      split
      · next more hm =>
        have same : c = markChar := eq_of_utf8EncodeChar_append _ more hm
        exact absurd (congrArg some same) h
      · next hm => exact absurd hm (other (by decide) _)
      · next hm => exact absurd hm (other (by decide) _)
      · rfl

/-! ## Zero bytes

  The bytes of a character are all zero or none is, since a character of several bytes has none
  below 128. -/

/-- A character with a zero byte is the zero character, for in a character of several bytes each is
    at least 128. -/
theorem zero_mem_utf8EncodeChar {c : Char} (h : 0 ∈ String.utf8EncodeChar c) : c = '\x00' := by
  rcases utf8EncodeChar_cases c with ⟨hc, he⟩ | ⟨b, bs, he, _, high⟩
  · rw [he, List.mem_singleton] at h
    have zero := congrArg UInt8.toNat h
    rw [UInt8.toNat_ofNat', UInt8.toNat_zero] at zero
    exact Char.toNat_inj.mp (by omega : c.toNat = 0)
  · have := high 0 (he ▸ h)
    exact absurd this (by decide)

/-- A zero byte at an index is a zero character, with so many bytes of characters in front of it. -/
theorem getElem?_flatMap_eq_zero_iff {cs : List Char} {n : Nat} :
    (cs.flatMap String.utf8EncodeChar)[n]? = some 0 ↔
      ∃ front back, cs = front ++ '\x00' :: back ∧
        (front.flatMap String.utf8EncodeChar).length = n := by
  constructor
  · intro h
    induction cs generalizing n with
    | nil => simp at h
    | cons c cs ih =>
      rw [List.flatMap_cons, List.getElem?_append] at h
      -- the zero is a byte of the first character, or of those behind it
      split at h
      · next inside =>
        have zero := zero_mem_utf8EncodeChar (List.mem_of_getElem? h)
        subst zero
        have first : n < 1 := inside
        exact ⟨[], cs, rfl, by rw [List.flatMap_nil, List.length_nil]; omega⟩
      · next behind =>
        obtain ⟨front, back, rfl, size⟩ := ih h
        refine ⟨c :: front, back, rfl, ?_⟩
        rw [List.flatMap_cons, List.length_append, size]
        omega
  · rintro ⟨front, back, rfl, rfl⟩
    rw [List.flatMap_append, List.getElem?_append_right (Nat.le_refl _), Nat.sub_self]
    rfl

/-- The offsets of the zero characters of a text: each once, and in order. -/
structure ZerosAt (text : String) (offsets : List Nat) : Prop where
  ascending : offsets.Pairwise (· < ·)
  mem_iff : ∀ n, n ∈ offsets ↔ ∃ front back, text.toList = front ++ '\x00' :: back ∧
    (String.ofList front).utf8ByteSize = n

theorem nullBytes_eq (all : List UInt8) : nullBytes all = (places 0 all).map (⟨.nullByte, ·, 1⟩) := by
  rw [nullBytes, places, List.map_map]
  rfl

/-- The zero bytes that are told of are the zero characters of the text, at their offsets and in
    their order. -/
theorem nullBytes_bytes (text : String) :
    ∃ zeros, ZerosAt text zeros ∧ nullBytes (bytes text) = zeros.map (⟨.nullByte, ·, 1⟩) := by
  refine ⟨places 0 (bytes text), ⟨findsAll_places.ascending 0 (bytes text), ?_⟩, nullBytes_eq _⟩
  intro n
  simp only [← length_flatMap_encode]
  rw [← getElem?_flatMap_eq_zero_iff, ← bytes_eq_flatMap]
  exact findsAll_places.mem_iff

/-! ## All flaws

  The two parts are put together in the order in which they are reported. -/

/-- **The flaws of a text** are a byte order mark, if that is its first character, and then its zero
    characters. -/
theorem flaws_eq (text : String) :
    ∃ zeros, ZerosAt text zeros ∧
      flaws text = (if text.toList.head? = some markChar then [⟨.utf8Mark, 0, 3⟩] else []) ++
        zeros.map (⟨.nullByte, ·, 1⟩) := by
  obtain ⟨zeros, at_zeros, hn⟩ := nullBytes_bytes text
  refine ⟨zeros, at_zeros, ?_⟩
  show (orderMark? (bytes text)).toList ++ nullBytes (bytes text) = _
  rw [hn, orderMark?_bytes]
  congr 1
  split <;> rfl

end Offside.Source

/-
  A text in store is its image, with its flaws.

  Texts of less than 2 ^ 32 bytes are far from where words wrap around, and every offset in them has
  32 bits.  So a text is stored as it was meant to be.

  1. **Sizes** — the size of an image is the least number of whole blocks with room for one byte
     more (`isLeast_imageSize`).  To clear the low bits of a word is to round it down
     (`toNat_and_not`), and so the size that is found in words is that size (`toNat_blockUp`).
  2. **Cells** — zeros with the bytes of a text written over the first of them are the image.
  3. **Flaws** — whatever the search, the zero bytes are found in order, and every flaw is within
     the text.
  4. **Cursors** — readers and pointers are told of the bytes of a text and of its image, not of
     what is stored.  Below 2 ^ 32 bytes these are one thing: the size that is stored is the number
     of bytes (`start_eq_store?`), and the cells are the image (`current?_eq_store?`).
-/
import Mathlib.Algebra.Group.Nat.Defs
import Mathlib.Data.List.Sort
import Mathlib.Order.Bounds.Defs
import Offside.Proofs.Flaws
import Offside.Source.Storage

namespace Offside

/-- There is one search for all places only: two lists in order with the same members are the same
    list. -/
theorem FindsAll.unique {findAll findAll' : UInt8 → List UInt8 → List Nat} (h : FindsAll findAll)
    (h' : FindsAll findAll') : findAll = findAll' := by
  funext b bs
  refine (h.ascending b bs).eq_of_mem_iff (h'.ascending b bs) ?_
  intro i
  rw [h.mem_iff, h'.mem_iff]

namespace Source

variable {text : String}

/-! ## Sizes

  In numbers, the size of an image is a quotient and a product.  In words, it is a sum with its low
  bits cleared.  Clearing the bits below a power of two is dividing by it and multiplying again,
  which is shown bit by bit: below the mask, within the word, and beyond its width. -/

/-- The size of the image of so many bytes is the least number of whole blocks that has more. -/
theorem isLeast_imageSize (size : Nat) :
    IsLeast {m | blockSize ∣ m ∧ size < m} (imageSize size) := by
  refine ⟨⟨Nat.dvd_mul_left .., lt_imageSize size⟩, ?_⟩
  rintro m ⟨⟨blocks, rfl⟩, more⟩
  unfold imageSize blockSize at *
  omega

/-- With its lowest bits cleared a word is rounded down to a multiple of their power of two. -/
theorem toNat_and_not {word mask : UInt64} {k : Nat} (h : mask.toNat = 2 ^ k - 1) :
    (word &&& ~~~mask).toNat = word.toNat / 2 ^ k * 2 ^ k := by
  have width : word.toNat < 2 ^ 64 := word.toNat_lt
  have inverse : (~~~mask).toNat = 2 ^ 64 - (mask.toNat + 1) := by
    have size : UInt64.size = 2 ^ 64 := rfl
    rw [UInt64.toNat_not, size]
    omega
  apply Nat.eq_of_testBit_eq
  intro i
  rw [UInt64.toNat_and, Nat.testBit_and, inverse, Nat.testBit_two_pow_sub_succ mask.toNat_lt, h,
    Nat.testBit_two_pow_sub_one, Nat.testBit_mul_two_pow, Nat.testBit_div_two_pow]
  by_cases low : i < k
  · rw [decide_eq_true low, decide_eq_false (Nat.not_le.mpr low)]
    simp
  · have high : k ≤ i := Nat.not_lt.mp low
    rw [Nat.sub_add_cancel high, decide_eq_false low, decide_eq_true high]
    by_cases within : i < 64
    · simp [within]
    · -- a word has no bits beyond its width
      have wide : 2 ^ 64 ≤ 2 ^ i := Nat.pow_le_pow_right (by decide) (Nat.not_lt.mp within)
      rw [Nat.testBit_lt_two_pow (Nat.lt_of_lt_of_le width wide)]
      simp

/-- The size that is found in words is the size of the image, unless a sum wraps around. -/
theorem toNat_blockUp {size : UInt64} (h : size.toNat + blockSize < 2 ^ 64) :
    (blockUp size).toNat = imageSize size.toNat := by
  have mask : (UInt64.ofNat blockSize - 1).toNat = 2 ^ 6 - 1 := by decide
  have sum : (size + 1 + UInt64.ofNat blockSize - 1).toNat = size.toNat + blockSize := by
    rw [UInt64.add_assoc, UInt64.add_comm 1, ← UInt64.add_assoc, UInt64.add_sub_cancel,
      UInt64.toNat_add]
    exact Nat.mod_eq_of_lt h
  unfold blockUp
  rw [toNat_and_not mask, sum]
  unfold imageSize blockSize
  omega

/-! ## Cells

  A text is stored by asking for zeros and writing over the first of them.  There are more zeros
  than bytes, so it fits, and what is left of the zeros is what stands behind the text. -/

/-- The bytes of a text, written over as many zeros as its image has, are the image. -/
theorem writeOver?_zeros (text : String) :
    writeOver? (List.replicate (imageSize (bytes text).length) 0) (bytes text) =
      some (image text) := by
  have room := lt_imageSize (bytes text).length
  rw [writeOver?, if_pos (by rw [List.length_replicate]; omega), List.drop_replicate]
  rfl

/-- Behind the bytes of the text the image has nothing but zeros. -/
theorem eq_zero_of_mem_drop_image {b : UInt8} (h : b ∈ (image text).drop (bytes text).length) :
    b = 0 := by
  have behind : (image text).drop (bytes text).length = List.replicate _ 0 := List.drop_left ..
  rw [behind] at h
  exact List.eq_of_mem_replicate h

/-! ## Flaws

  A flaw is told of with an offset of 32 bits.  In a text that offsets have room for, all zero bytes
  have one, and none is left out. -/

theorem offset?_of_lt {n : Nat} (h : n < 2 ^ 32) : offset? n = some (UInt32.ofNat n) := if_pos h

/-- A byte order mark does not go past the end of the bytes in which it was found. -/
theorem orderMark?_le {all : List UInt8} {flaw : Flaw} (h : orderMark? all = some flaw) :
    flaw.offset + flaw.length ≤ all.length := by
  unfold orderMark? at h
  split at h
  case h_4 => cases h
  all_goals
    cases h
    exact Nat.le_add_left ..

/-- A flaw of a text is within its bytes, from its first byte to its last. -/
theorem le_of_mem_flaws {flaw : Flaw} (h : flaw ∈ flaws text) :
    flaw.offset + flaw.length ≤ (bytes text).length := by
  rcases List.mem_append.mp h with mark | null
  · exact orderMark?_le (Option.mem_toList.mp mark)
  · rw [nullBytes_eq] at null
    obtain ⟨i, hi, rfl⟩ := List.mem_map.mp null
    exact (List.getElem?_eq_some_iff.mp (findsAll_places.mem_iff.mp hi)).1

variable {findAll : UInt8 → List UInt8 → List Nat}

/-- The zero bytes that are told of are all of them, if offsets have room for the text. -/
theorem map_filterMap_offset? (h : FindsAll findAll) {all : List UInt8} (small : all.length < 2 ^ 32) :
    ((findAll 0 all).filterMap offset?).map (fun offset => ⟨.nullByte, offset.toNat, 1⟩) =
      nullBytes all := by
  have fits : ∀ i ∈ findAll 0 all,
      (offset? i).map (fun offset => (⟨.nullByte, offset.toNat, 1⟩ : Flaw)) =
        some ⟨.nullByte, i, 1⟩ := by
    intro i hi
    have inside : i < all.length := (List.getElem?_eq_some_iff.mp (h.mem_iff.mp hi)).1
    have word : i < 2 ^ 32 := Nat.lt_trans inside small
    rw [offset?_of_lt word, Option.map_some, UInt32.toNat_ofNat_of_lt' word]
  rw [List.map_filterMap, List.filterMap_congr fits, h.unique findsAll_places, nullBytes_eq]
  exact congrFun List.filterMap_eq_map' _

/-- A text that offsets have room for can be stored, and what is stored are its image, its size and
    its flaws, whatever the search. -/
theorem store?_eq (h : FindsAll findAll) (small : (bytes text).length < 2 ^ 32) :
    store? findAll text =
      some ⟨image text, UInt32.ofNatClamp (bytes text).length, flaws text⟩ := by
  have word : (UInt64.ofNat (bytes text).length).toNat = (bytes text).length :=
    UInt64.toNat_ofNat_of_lt' (Nat.lt_trans small (by decide))
  have size : (blockUp (UInt64.ofNat (bytes text).length)).toNat = imageSize (bytes text).length := by
    rw [toNat_blockUp (by rw [word]; unfold blockSize; omega), word]
  show (writeOver? (List.replicate (blockUp (UInt64.ofNat (bytes text).length)).toNat 0)
    (bytes text)).map _ = _
  rw [size, writeOver?_zeros, Option.map_some, map_filterMap_offset? h small]
  rfl

/-- **A text in store.**  If offsets have room for a text, it can be stored, and what is stored are
    its image, its size and its flaws.  The image has the least number of whole blocks of 64 bytes
    that leaves room for one byte more; the bytes of the text come first in it, and all others are
    zero.  The flaws are a byte order mark of three bytes, if that is the first character, and then
    one byte for each zero character, where it stands, from the first to the last.  None is behind
    the text. -/
theorem store?_layout (h : FindsAll findAll) (small : (bytes text).length < 2 ^ 32) :
    ∃ s zeros, store? findAll text = some s ∧
      (s.cells = image text ∧ s.size.toNat = (bytes text).length ∧ s.flaws = flaws text) ∧
      IsLeast {m | 64 ∣ m ∧ (bytes text).length < m} s.cells.length ∧
      s.cells.take (bytes text).length = bytes text ∧
      (∀ b ∈ s.cells.drop (bytes text).length, b = 0) ∧
      ZerosAt text zeros ∧
      s.flaws = (if text.toList.head? = some markChar then [⟨.utf8Mark, 0, 3⟩] else []) ++
        zeros.map (⟨.nullByte, ·, 1⟩) ∧
      ∀ flaw ∈ s.flaws, flaw.offset + flaw.length ≤ (bytes text).length := by
  obtain ⟨zeros, at_zeros, told⟩ := flaws_eq text
  have size : (UInt32.ofNatClamp (bytes text).length).toNat = (bytes text).length :=
    UInt32.toNat_ofNatClamp_of_lt small
  refine ⟨_, zeros, store?_eq h small, ⟨rfl, size, rfl⟩, ?_, ?_, ?_, at_zeros, told, ?_⟩
  · show IsLeast _ (image text).length
    rw [length_image]
    exact isLeast_imageSize (bytes text).length
  · exact List.take_left ..
  · intro b hb
    exact eq_zero_of_mem_drop_image hb
  · intro flaw hf
    exact le_of_mem_flaws hf

/-- A byte order mark and two zeros, in one block. -/
theorem store?_layout_flawed :
    FindsAll places ∧ (bytes "\uFEFF\x00b\x00").length < 2 ^ 32 ∧
    ∃ s, store? places "\uFEFF\x00b\x00" = some s ∧ s.cells.length = 64 ∧
      s.cells.take 6 = [0xEF, 0xBB, 0xBF, 0, 98, 0] ∧
      s.flaws = [⟨.utf8Mark, 0, 3⟩, ⟨.nullByte, 3, 1⟩, ⟨.nullByte, 5, 1⟩] := by
  have small : (bytes "\uFEFF\x00b\x00").length < 2 ^ 32 := by decide
  obtain ⟨s, _, stored, ⟨cells, _, told⟩, _, front, _⟩ := store?_layout findsAll_places small
  refine ⟨findsAll_places, small, s, stored, ?_, front, ?_⟩
  · rw [cells]
    decide
  · rw [told]
    decide

/-! ## Cursors over what is stored

  The definitions of readers and pointers do not mention a store.  Here they are read as cursors
  over one: the cells for the image, and the size for the number of bytes. -/

/-- A cursor over stored cells ends where their size says: a reader starts with as many of the cells
    ahead as the size has, and a pointer is at the end from the offset on that is the size. -/
theorem start_eq_store? (h : FindsAll findAll) (small : (bytes text).length < 2 ^ 32) {s : Stored}
    (stored : store? findAll text = some s) :
    Reader.start text = ⟨s.cells.take s.size.toNat, 0, 0⟩ ∧
      ∀ p : Pointer, p.atEnd text = decide (s.size.toNat ≤ p.offset) := by
  rw [store?_eq h small] at stored
  cases stored
  have size : (UInt32.ofNatClamp (bytes text).length).toNat = (bytes text).length :=
    UInt32.toNat_ofNatClamp_of_lt small
  have front : (image text).take (bytes text).length = bytes text := List.take_left ..
  constructor
  · show Reader.mk (bytes text) 0 0 = ⟨(image text).take _, 0, 0⟩
    rw [size, front]
  · intro p
    show decide ((bytes text).length ≤ p.offset) = _
    rw [size]

/-- The bytes that a pointer looks at are those of the cells: the one here, the one after it, and
    those of a range. -/
theorem current?_eq_store? (h : FindsAll findAll) (small : (bytes text).length < 2 ^ 32) {s : Stored}
    (stored : store? findAll text = some s) (p : Pointer) :
    p.current? text = s.cells[p.offset]? ∧ p.peek text = s.cells.getD (p.offset + 1) 0 ∧
      ∀ start stop, range? text start stop =
        if start ≤ stop ∧ stop ≤ s.cells.length then some ((s.cells.take stop).drop start)
        else none := by
  rw [store?_eq h small] at stored
  cases stored
  exact ⟨rfl, rfl, fun _ _ => rfl⟩

end Source

end Offside

/-
  Searching bytes for one of a kind.

  Two things are looked up in the bytes of a text as a whole instead of byte by byte: the next line
  feed, and all zero bytes.  How such a search goes about it is its own affair, so what is relied on
  is written down here, and a search is then a parameter.

  1. **The first place** (`FindsFirst`) — the index found has the byte, no index in front of it
     does, and nothing is found only where the byte does not occur.
  2. **All places** (`FindsAll`) — the indices of the byte, all of them, in order.
  3. **Pointers** — the jump to the end of the line by a search (`Pointer.toLineEndBy?`), and a
     pointer that is moved on with it.

  Either condition leaves a search no choice (`FindsFirst.unique` here, `FindsAll.unique` with the
  proofs).
-/
import Offside.Source.Trail

namespace Offside

/-! ## The first place

  `found` says that a place is right and that it is the first, and `missed` that one is found if
  there is any. -/

/-- A search for the first place of a byte. -/
structure FindsFirst (find? : UInt8 → List UInt8 → Option Nat) : Prop where
  found : ∀ {b bs i}, find? b bs = some i → bs[i]? = some b ∧ ∀ j < i, bs[j]? ≠ some b
  missed : ∀ {b bs}, find? b bs = none → b ∉ bs

/-- There is one such search only: where two find something they find the same, and where one finds
    nothing there is nothing to be found. -/
theorem FindsFirst.unique {find? find?' : UInt8 → List UInt8 → Option Nat} (h : FindsFirst find?)
    (h' : FindsFirst find?') : find? = find?' := by
  funext b bs
  cases hi : find? b bs with
  | none =>
    cases hj : find?' b bs with
    | none => rfl
    | some j => exact absurd (List.mem_of_getElem? (h'.found hj).1) (h.missed hi)
  | some i =>
    obtain ⟨at_i, before_i⟩ := h.found hi
    cases hj : find?' b bs with
    | none => exact absurd (List.mem_of_getElem? at_i) (h'.missed hj)
    | some j =>
      obtain ⟨at_j, before_j⟩ := h'.found hj
      -- the lesser of two different indices would stand in front of the other
      rcases Nat.lt_trichotomy i j with less | same | more
      · exact absurd at_i (before_j i less)
      · rw [same]
      · exact absurd at_j (before_i j more)

/-- The plain search, from the front. -/
theorem findsFirst_idxOf? : FindsFirst fun b bs => bs.idxOf? b where
  found {b bs i} h := by
    obtain ⟨bound, here, before⟩ := List.findIdx?_eq_some_iff_getElem.mp h
    refine ⟨by rw [List.getElem?_eq_getElem bound, eq_of_beq here], ?_⟩
    intro j hj at_j
    obtain ⟨_, byte⟩ := List.getElem?_eq_some_iff.mp at_j
    exact before j hj (by rw [byte]; exact beq_self_eq_true b)
  missed := List.idxOf?_eq_none_iff.mp

/-! ## All places

  The order is strict, so no place is listed twice. -/

/-- A search for all places of a byte. -/
structure FindsAll (findAll : UInt8 → List UInt8 → List Nat) : Prop where
  ascending : ∀ b bs, (findAll b bs).Pairwise (· < ·)
  mem_iff : ∀ {b bs i}, i ∈ findAll b bs ↔ bs[i]? = some b

/-- The plain search, through all bytes. -/
def places (b : UInt8) (bs : List UInt8) : List Nat := (bs.zipIdx.filter (·.1 == b)).map (·.2)

theorem findsAll_places : FindsAll places where
  ascending b bs := by
    have all : (bs.zipIdx.map (·.2)).Pairwise (· < ·) := by
      rw [List.zipIdx_map_snd]
      exact List.pairwise_lt_range'
    exact all.sublist (List.filter_sublist.map _)
  mem_iff {b bs i} := by
    constructor
    · intro h
      obtain ⟨⟨c, _⟩, hc, rfl⟩ := List.mem_map.mp h
      obtain ⟨found, same⟩ := List.mem_filter.mp hc
      rw [← eq_of_beq same]
      exact List.mk_mem_zipIdx_iff_getElem?.mp found
    · intro h
      have found : (b, i) ∈ bs.zipIdx := List.mk_mem_zipIdx_iff_getElem?.mpr h
      exact List.mem_map.mpr ⟨(b, i), List.mem_filter.mpr ⟨found, beq_self_eq_true b⟩, rfl⟩

/-! ## Pointers

  The search is given the bytes from the pointer on and answers with a distance from there. -/

namespace Pointer

/-- Jumps to the line feed that a search finds first in the rest of the text, or to the end if it
    finds none. -/
def toLineEndBy? (find? : UInt8 → List UInt8 → Option Nat) (text : String) (p : Pointer) :
    Option Pointer :=
  (Source.range? text p.offset (Source.bytes text).length).map fun rest =>
    match find? Reader.lineFeed rest with
    | some distance => { p with offset := p.offset + distance }
    | none => { p with offset := (Source.bytes text).length }

/-- Moves a pointer on, by a search where it goes to the end of its line. -/
def goBy (find? : UInt8 → List UInt8 → Option Nat) (text : String) :
    Way → Option Pointer → Option Pointer
  | .line, p? => p?.bind (toLineEndBy? find? text)
  | way, p? => go text way p?

variable {find? : UInt8 → List UInt8 → Option Nat}

/-- Whatever the search, the jump is the same as that by the plain search from the front. -/
theorem toLineEndBy?_eq (h : FindsFirst find?) (text : String) (p : Pointer) :
    p.toLineEndBy? find? text = p.toLineEnd? text := by
  rw [h.unique findsFirst_idxOf?]
  rfl

theorem goBy_eq (h : FindsFirst find?) (text : String) (way : Way) (p? : Option Pointer) :
    goBy find? text way p? = go text way p? := by
  cases way with
  | line =>
    cases p? with
    | none => rfl
    | some p => exact toLineEndBy?_eq h text p
  | byte => rfl
  | char => rfl
  | run accept => rfl
  | blanks => rfl

end Pointer

end Offside

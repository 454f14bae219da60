/-
  Texts in store.

  The image of a text is its bytes with zeros behind them, and its flaws stand at natural numbers.
  A machine that puts a text into store works with words.  It finds the size of the image by adding
  and by clearing bits; it asks for so many zeros, and writes the bytes over the first of them; and
  the offsets it keeps have 32 bits.  Each step can go wrong where `Source.image` and `Source.flaws`
  cannot: a sum of words can wrap around, there can be fewer zeros than bytes, and an offset can be
  too large.

  1. **Words** — the size of an image (`blockUp`), and an offset of 32 bits (`offset?`).
  2. **Cells** — bytes written over others (`writeOver?`).
  3. **Storing** — the image, the size and the flaws of a text, with the zero bytes looked up by a
     search (`store?`).
-/
import Offside.Source.Search

namespace Offside.Source

/-! ## Words

  All sums are those of machine words.  What they come to for a text of a size that can occur is a
  theorem, not a definition. -/

/-- The size of the image of `size` bytes.  A block is a power of two, so the bits of whole blocks
    are left when those below the block are cleared. -/
def blockUp (size : UInt64) : UInt64 :=
  let block := UInt64.ofNat blockSize
  (size + 1 + block - 1) &&& ~~~(block - 1)

/-- A number as an offset, if it has no more than 32 bits. -/
def offset? (n : Nat) : Option UInt32 := if n < UInt32.size then some (UInt32.ofNat n) else none

/-! ## Cells

  To write is to copy: the cells behind the last byte written keep what they had. -/

/-- Writes bytes over the first of some cells, if there are enough. -/
def writeOver? (cells all : List UInt8) : Option (List UInt8) :=
  if all.length ≤ cells.length then some (all ++ cells.drop all.length) else none

/-! ## Storing

  The store is the outcome of one copy.  The size and the flaws are kept beside it and are not read
  off the cells later. -/

/-- A text in store. -/
structure Stored where
  cells : List UInt8
  size : UInt32
  flaws : List Flaw
  deriving DecidableEq, Repr

/-- Puts a text into store.  A size of more than 32 bits counts as the largest, and a zero byte too
    far out for an offset is not told of. -/
def store? (findAll : UInt8 → List UInt8 → List Nat) (text : String) : Option Stored :=
  let all := bytes text
  let zeros := List.replicate (blockUp (UInt64.ofNat all.length)).toNat 0
  (writeOver? zeros all).map fun cells =>
    { cells
      size := UInt32.ofNatClamp all.length
      flaws := (orderMark? all).toList ++
        ((findAll 0 all).filterMap offset?).map fun offset => ⟨.nullByte, offset.toNat, 1⟩ }

/-! ## Small cases -/

example : blockUp 63 = 64 ∧ blockUp 64 = 128 := by decide

-- near the largest word the sum wraps around, and no image is left
example : blockUp 0xFFFFFFFFFFFFFFC0 = 0 := by decide

example : writeOver? [0, 0, 0] [97, 98] = some [97, 98, 0] ∧ writeOver? [0] [97, 98] = none := by decide

end Offside.Source

/-
  The counters as bytes, for hosts that keep the state of a scan for its owner.

  Four bytes: `current`, then `target`, each with its low byte first.  Saving writes them to the
  front of a buffer that the host provides and fails if they do not fit.  Restoring is lenient: a
  buffer that is too short replaces only the bytes it has, and one that is longer is read in front.
  `ofBuffer` is strict.
-/
import Offside.Layout.Depths

namespace Offside

/-- How many bytes a saved state has. -/
def Snapshot.size : Nat := 4

/-- How many bytes a host sets aside for a state. -/
def Snapshot.hostCapacity : Nat := 1024

/-- The counters as bytes. -/
abbrev Snapshot : Type := Vector UInt8 Snapshot.size

/-- Why a state was not saved or read, with the length that was needed and the one that was
    found. -/
inductive SnapshotError
  | bufferTooSmall (needed available : Nat)
  | wrongLength (expected found : Nat)
  deriving DecidableEq, Repr

/-- The words of an error. -/
def SnapshotError.message : SnapshotError → String
  | .bufferTooSmall needed available =>
    "serialization buffer too small: need " ++ needed.repr ++ " bytes, have " ++ available.repr
  | .wrongLength expected found =>
    "scanner state must be exactly " ++ expected.repr ++ " bytes, got " ++ found.repr

namespace Depths

/-- The low byte of a depth. -/
def lowByte (depth : UInt16) : UInt8 := UInt8.ofNat (depth.toNat % 256)

/-- The high byte of a depth. -/
def highByte (depth : UInt16) : UInt8 := UInt8.ofNat (depth.toNat / 256)

/-- The depth of two bytes. -/
def ofTwoBytes (low high : UInt8) : UInt16 := UInt16.ofNat (low.toNat + 256 * high.toNat)

/-- The counters as bytes. -/
def toSnapshot (d : Depths) : Snapshot :=
  #v[lowByte d.current, highByte d.current, lowByte d.target, highByte d.target]

/-- The counters of four bytes. -/
def ofSnapshot (s : Snapshot) : Depths := ⟨ofTwoBytes s[0] s[1], ofTwoBytes s[2] s[3]⟩

/-- Writes the counters to the front of a buffer.  Gives the number of bytes written, and the
    buffer afterwards. -/
def save (d : Depths) (buffer : List UInt8) : Except SnapshotError Nat × List UInt8 :=
  if buffer.length < Snapshot.size then
    (.error (.bufferTooSmall Snapshot.size buffer.length), buffer)
  else
    (.ok Snapshot.size, d.toSnapshot.toList ++ buffer.drop Snapshot.size)

/-- The counters after the front of a buffer has replaced as many of their bytes as it has.  So an
    empty buffer restores nothing, and a host that saved nothing finds its scanner unchanged. -/
def restore (d : Depths) (buffer : List UInt8) : Depths :=
  ofSnapshot (Vector.ofFn fun i => buffer.getD i d.toSnapshot[i])

/-- The counters of a buffer of exactly four bytes.  Any other length is refused, with the length
    found. -/
def ofBuffer (buffer : List UInt8) : Except SnapshotError Depths :=
  if h : buffer.toArray.size = Snapshot.size then .ok (ofSnapshot ⟨buffer.toArray, h⟩)
  else .error (.wrongLength Snapshot.size buffer.length)

/-! ## Both ways

  A byte for the low half and one for the high half say all of a word, and any two bytes are those
  of some word.  So nothing is refused when four bytes are read. -/

/-- A depth is what its two bytes make up. -/
theorem ofTwoBytes_bytes (depth : UInt16) :
    ofTwoBytes (lowByte depth) (highByte depth) = depth := by
  have h := depth.toNat_lt
  apply UInt16.toNat_inj.mp
  simp only [ofTwoBytes, lowByte, highByte, UInt16.toNat_ofNat', UInt8.toNat_ofNat']
  omega

theorem toNat_ofTwoBytes (low high : UInt8) :
    (ofTwoBytes low high).toNat = low.toNat + 256 * high.toNat := by
  have := low.toNat_lt
  have := high.toNat_lt
  simp only [ofTwoBytes, UInt16.toNat_ofNat']
  omega

theorem lowByte_ofTwoBytes (low high : UInt8) : lowByte (ofTwoBytes low high) = low := by
  have := low.toNat_lt
  apply UInt8.toNat_inj.mp
  simp only [lowByte, UInt8.toNat_ofNat', toNat_ofTwoBytes]
  omega

theorem highByte_ofTwoBytes (low high : UInt8) : highByte (ofTwoBytes low high) = high := by
  have := low.toNat_lt
  have := high.toNat_lt
  apply UInt8.toNat_inj.mp
  simp only [highByte, UInt8.toNat_ofNat', toNat_ofTwoBytes]
  omega

@[simp] theorem ofSnapshot_toSnapshot (d : Depths) : ofSnapshot d.toSnapshot = d := by
  show (⟨ofTwoBytes (lowByte d.current) (highByte d.current),
    ofTwoBytes (lowByte d.target) (highByte d.target)⟩ : Depths) = d
  rw [ofTwoBytes_bytes, ofTwoBytes_bytes]

/-- Four bytes are what their counters are saved as, so that saving loses nothing and adds
    nothing. -/
@[simp] theorem toSnapshot_ofSnapshot (s : Snapshot) : (ofSnapshot s).toSnapshot = s := by
  have bytes : (ofSnapshot s).toSnapshot = #v[s[0], s[1], s[2], s[3]] := by
    show #v[lowByte (ofTwoBytes s[0] s[1]), highByte (ofTwoBytes s[0] s[1]),
      lowByte (ofTwoBytes s[2] s[3]), highByte (ofTwoBytes s[2] s[3])] = _
    rw [lowByte_ofTwoBytes, highByte_ofTwoBytes, lowByte_ofTwoBytes, highByte_ofTwoBytes]
  rw [bytes]
  ext i hi
  have place : i = 0 ∨ i = 1 ∨ i = 2 ∨ i = 3 := by omega
  rcases place with rfl | rfl | rfl | rfl <;> rfl

/-! ## Small cases -/

example : (toSnapshot ⟨258, 772⟩).toList = [2, 1, 4, 3] := by decide
example : restore ⟨258, 772⟩ [0xFF] = ⟨0x1FF, 772⟩ := by decide
example : (save ⟨1, 2⟩ [9, 9, 9, 9, 9]).2 = [1, 0, 2, 0, 9] := by decide

end Depths

end Offside

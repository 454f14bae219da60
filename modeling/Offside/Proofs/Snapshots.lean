/-
  Counters saved to a buffer, and restored from one.

  All that is said of the ways to write and read is said of the four bytes of the counters, since
  the bytes determine the counters (`eq_of_bytes`).  So two pairs of counters are shown to be the
  same byte by byte, and arithmetic with words is needed only where the bytes of a counter are
  defined.

  1. **Restoring** — a byte is that of the buffer, or stays if the buffer has none
     (`getElem_restore`).  So what was restored is forgotten once at least as many bytes are
     restored again.
  2. **Saving** — the bytes go to the front of the buffer, and everything behind them stays.
  3. **Strictly** — a buffer of exactly four bytes leaves nothing of what there was, so to read it
     is to restore from it.
-/
import Offside.Layout.Snapshot

namespace Offside.Depths

variable {d e : Depths} {buffer later : List UInt8} {i : Nat}

/-- Counters are the same if each of their four bytes is, which is how two of them are compared
    here. -/
theorem eq_of_bytes (h : ∀ i (hi : i < Snapshot.size), d.toSnapshot[i] = e.toSnapshot[i]) :
    d = e := by
  have same : d.toSnapshot = e.toSnapshot := Vector.ext h
  rw [← ofSnapshot_toSnapshot d, same, ofSnapshot_toSnapshot]

theorem length_toList_toSnapshot (d : Depths) : d.toSnapshot.toList.length = Snapshot.size :=
  Vector.length_toList

/-! ## Restoring

  A buffer of any length can be restored from.  It may be too short, and then the counters keep the
  bytes for which it has none; it may be too long, and then the rest is not looked at. -/

/-- After restoring, each byte of the counters is that of the buffer at the same index, or what it
    was if the buffer has none there. -/
theorem getElem_restore (d : Depths) (buffer : List UInt8) (hi : i < Snapshot.size) :
    (d.restore buffer).toSnapshot[i] = buffer[i]?.getD d.toSnapshot[i] := by
  have bytes : (d.restore buffer).toSnapshot =
      Vector.ofFn fun i : Fin Snapshot.size => buffer.getD i d.toSnapshot[i] :=
    toSnapshot_ofSnapshot _
  simp only [bytes, Vector.getElem_ofFn, List.getD_eq_getElem?_getD]
  rfl

/-- The bytes after restoring are those of the buffer, four at most, and behind them those for which
    it has none, as they were. -/
theorem toList_restore (d : Depths) (buffer : List UInt8) :
    (d.restore buffer).toSnapshot.toList =
      buffer.take Snapshot.size ++ d.toSnapshot.toList.drop (min buffer.length Snapshot.size) := by
  have size := length_toList_toSnapshot d
  apply List.ext_getElem
  · rw [length_toList_toSnapshot, List.length_append, List.length_take, List.length_drop, size]
    omega
  · intro i hi _
    rw [length_toList_toSnapshot] at hi
    rw [Vector.getElem_toList, getElem_restore d buffer hi, List.getElem_append]
    split
    · next replaced =>
      rw [List.length_take] at replaced
      rw [List.getElem_take, List.getElem?_eq_getElem (by omega), Option.getD_some]
    · next kept =>
      rw [List.length_take, Nat.not_lt] at kept
      have behind : buffer.length ≤ i := by omega
      have place : min buffer.length Snapshot.size + (i - (buffer.take Snapshot.size).length) = i := by
        rw [List.length_take]
        omega
      rw [List.getElem?_eq_none behind, Option.getD_none, List.getElem_drop]
      simp only [place, Vector.getElem_toList]

/-- What was restored first has no effect if at least as many bytes are restored again. -/
theorem restore_restore (d : Depths) (h : min buffer.length Snapshot.size ≤ later.length) :
    (d.restore buffer).restore later = d.restore later := by
  apply eq_of_bytes
  intro i hi
  rw [getElem_restore _ _ hi, getElem_restore _ _ hi, getElem_restore _ _ hi]
  rcases Nat.lt_or_ge i later.length with again | behind
  · rw [List.getElem?_eq_getElem again, Option.getD_some, Option.getD_some]
  · -- the first buffer was no longer, so it had no byte here either
    have untouched : buffer.length ≤ i := by omega
    rw [List.getElem?_eq_none untouched, Option.getD_none]

/-- If the buffer has all bytes of some counters at its front, these counters are restored, whatever
    was there. -/
theorem restore_eq_of_bytes (d : Depths)
    (h : ∀ i (hi : i < Snapshot.size), buffer[i]? = some e.toSnapshot[i]) :
    d.restore buffer = e := by
  apply eq_of_bytes
  intro i hi
  rw [getElem_restore d buffer hi, h i hi, Option.getD_some]

/-- From the bytes of a snapshot the counters of the snapshot are restored, whatever was there. -/
theorem restore_toSnapshot (d saved : Depths) : d.restore saved.toSnapshot.toList = saved := by
  apply restore_eq_of_bytes
  intro i hi
  rw [Vector.getElem?_toList, Vector.getElem?_eq_getElem hi]

/-! ## Saving

  A buffer has room for the four bytes or it does not.  In the first case they are written over its
  front; in the second nothing is written. -/

theorem save_of_lt (d : Depths) (h : buffer.length < Snapshot.size) :
    d.save buffer = (.error (.bufferTooSmall Snapshot.size buffer.length), buffer) := by
  rw [save, if_pos h]

theorem save_of_le (d : Depths) (h : Snapshot.size ≤ buffer.length) :
    d.save buffer = (.ok Snapshot.size, d.toSnapshot.toList ++ buffer.drop Snapshot.size) := by
  rw [save, if_neg (Nat.not_lt.mpr h)]

theorem length_save (d : Depths) (h : Snapshot.size ≤ buffer.length) :
    (d.save buffer).2.length = buffer.length := by
  rw [save_of_le d h, List.length_append, length_toList_toSnapshot, List.length_drop]
  omega

/-- After saving, the first four bytes of the buffer are those of the counters. -/
theorem getElem?_save_of_lt (d : Depths) (h : Snapshot.size ≤ buffer.length)
    (hi : i < Snapshot.size) : (d.save buffer).2[i]? = some d.toSnapshot[i] := by
  have front : i < d.toSnapshot.toList.length := by rwa [length_toList_toSnapshot]
  rw [save_of_le d h, List.getElem?_append_left front, List.getElem?_eq_getElem front,
    Vector.getElem_toList]

/-- After saving, the buffer behind the first four bytes is as it was. -/
theorem getElem?_save_of_le (d : Depths) (h : Snapshot.size ≤ buffer.length)
    (hi : Snapshot.size ≤ i) : (d.save buffer).2[i]? = buffer[i]? := by
  have behind : d.toSnapshot.toList.length ≤ i := by rwa [length_toList_toSnapshot]
  have place : Snapshot.size + (i - Snapshot.size) = i := by omega
  rw [save_of_le d h, List.getElem?_append_right behind, length_toList_toSnapshot,
    List.getElem?_drop, place]

/-- What was saved is restored, also from any part of the buffer that begins where it begins and has
    the four bytes. -/
theorem restore_take_save (d r : Depths) (h : Snapshot.size ≤ buffer.length) {n : Nat}
    (hn : Snapshot.size ≤ n) : r.restore ((d.save buffer).2.take n) = d := by
  apply restore_eq_of_bytes
  intro i hi
  rw [List.getElem?_take_of_lt (Nat.lt_of_lt_of_le hi hn), getElem?_save_of_lt d h hi]

/-! ## Strictly

  The strict way refuses every buffer that has not exactly four bytes, and names its length. -/

/-- A buffer of four bytes is read as what is restored from it, whatever was there before; any other
    is refused with its length. -/
theorem ofBuffer_eq (d : Depths) (buffer : List UInt8) :
    ofBuffer buffer = if buffer.length = Snapshot.size then .ok (d.restore buffer)
      else .error (.wrongLength Snapshot.size buffer.length) := by
  unfold ofBuffer
  by_cases size : buffer.length = Snapshot.size
  · have array : buffer.toArray.size = Snapshot.size := by rwa [List.size_toArray]
    rw [dif_pos array, if_pos size]
    congr 1
    apply Eq.symm
    apply restore_eq_of_bytes
    intro i hi
    rw [toSnapshot_ofSnapshot, List.getElem?_eq_getElem (by omega)]
    rfl
  · have array : ¬buffer.toArray.size = Snapshot.size := by rwa [List.size_toArray]
    rw [dif_neg array, if_neg size]

/-- **Counters in a buffer.**  The four bytes and the counters determine each other; each counter
    has its low byte first.  Saving fails in a buffer of less than four bytes, which stays as it is;
    otherwise the first four bytes of the buffer are those of the counters, the others stay, and the
    counters are restored from every front of it that has these four.  Restoring replaces exactly
    the bytes that the buffer has, so that nothing is left of it once as many are restored again.
    The strict way reads buffers of four bytes and no others, and then as restoring does. -/
theorem restore_save (d : Depths) (buffer : List UInt8) :
    (buffer.length < 4 →
      d.save buffer = (.error (.bufferTooSmall 4 buffer.length), buffer)) ∧
    (4 ≤ buffer.length →
      (d.save buffer).1 = .ok 4 ∧
      (d.save buffer).2.length = buffer.length ∧
      (∀ i (hi : i < 4), (d.save buffer).2[i]? = some d.toSnapshot[i]) ∧
      (∀ i, 4 ≤ i → (d.save buffer).2[i]? = buffer[i]?) ∧
      ∀ (r : Depths) (n : Nat), 4 ≤ n → r.restore ((d.save buffer).2.take n) = d) ∧
    (d.restore buffer).toSnapshot.toList =
      buffer.take 4 ++ d.toSnapshot.toList.drop (min buffer.length 4) ∧
    (∀ later : List UInt8, min buffer.length 4 ≤ later.length →
      (d.restore buffer).restore later = d.restore later) ∧
    (∀ e, ofBuffer buffer = .ok e ↔ buffer.length = 4 ∧ d.restore buffer = e) ∧
    ofSnapshot d.toSnapshot = d ∧
    ∀ s : Snapshot, (ofSnapshot s).toSnapshot = s ∧
      (ofSnapshot s).current.toNat = s[0].toNat + 256 * s[1].toNat ∧
      (ofSnapshot s).target.toNat = s[2].toNat + 256 * s[3].toNat := by
  refine ⟨?_, ?_, toList_restore d buffer, ?_, ?_, ofSnapshot_toSnapshot d, ?_⟩
  · intro short
    exact save_of_lt d short
  · intro enough
    refine ⟨?_, length_save d enough, ?_, ?_, ?_⟩
    · rw [save_of_le d enough]
      rfl
    · intro i hi
      exact getElem?_save_of_lt d enough hi
    · intro i hi
      exact getElem?_save_of_le d enough hi
    · intro r n hn
      exact restore_take_save d r enough hn
  · intro later more
    exact restore_restore d more
  · intro e
    rw [ofBuffer_eq d buffer]
    show (if buffer.length = 4 then _ else _) = _ ↔ _
    by_cases size : buffer.length = 4 <;> simp [size]
  · intro s
    exact ⟨toSnapshot_ofSnapshot s, toNat_ofTwoBytes s[0] s[1], toNat_ofTwoBytes s[2] s[3]⟩

/-- A buffer of five bytes is saved to, one of a byte is not; and two bytes are restored behind
    one. -/
theorem restore_save_five :
    (4 ≤ [9, 9, 9, 9, 9].length ∧ (save ⟨258, 772⟩ [9, 9, 9, 9, 9]).1 = .ok 4 ∧
      (save ⟨258, 772⟩ [9, 9, 9, 9, 9]).2[4]? = some 9 ∧
      restore ⟨65535, 0⟩ ((save ⟨258, 772⟩ [9, 9, 9, 9, 9]).2.take 4) = ⟨258, 772⟩) ∧
    ([9].length < 4 ∧ save ⟨258, 772⟩ [9] = (.error (.bufferTooSmall 4 1), [9])) ∧
    (min [9].length 4 ≤ [7, 8].length ∧
      restore (restore ⟨258, 772⟩ [9]) [7, 8] = restore ⟨258, 772⟩ [7, 8]) := by
  obtain ⟨_, long, _⟩ := restore_save ⟨258, 772⟩ [9, 9, 9, 9, 9]
  obtain ⟨short, _, _, again, _⟩ := restore_save ⟨258, 772⟩ [9]
  obtain ⟨written, _, _, kept, back⟩ := long (by decide)
  exact ⟨⟨by decide, written, kept 4 (by decide), back ⟨65535, 0⟩ 4 (by decide)⟩,
    ⟨by decide, short (by decide)⟩, by decide, again [7, 8] (by decide)⟩

end Offside.Depths

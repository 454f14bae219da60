/-
  What a scan measures, on bytes.

  A scan reads characters from a probe.  Line feeds, tabs and spaces are single bytes, also where
  the probe stands inside a character, so the depth that it measures can be read off the bytes
  ahead: `Layout.depthFrom` is the same loop on a list of bytes, and `lineDepth?_eq` says that the
  tokenizer's `lineDepth?` is that loop, started at zero and fresh in column zero.

  A fresh scan always measures something, so the stream of a text begins with an announcement
  (`emissions_eq`).  What a scan decides depends on its host only by the depth measured
  (`scan_congr`).

  So a scan is known by one number or none.  Proofs about tokens ask which depth the bytes ahead
  have, and forget about characters, probes and hosts.
-/
import Offside.Proofs.Spelling
import Offside.Proofs.Stream

namespace Offside

/-! ## What a scan asks of its host

  A scan is written for any host, and the host answers with characters.  Between the answers and the
  decision stands the depth that was measured, and nothing else gets through. -/

namespace Depths

/-- What a scan decides, and the counters it leaves, depend on its host only by the depth measured:
    two hosts of which the same is measured get the same answer. -/
theorem scan_congr {σ τ : Type} [Host σ] [Host τ] {h : σ} {h' : τ} (d : Depths) (allowed : Allowed)
    (same : (Scan.measure (Host.markEnd h)).1 = (Scan.measure (Host.markEnd h')).1) :
    (d.scan allowed h).decision? = (d.scan allowed h').decision? ∧
      (d.scan allowed h).depths = (d.scan allowed h').depths := by
  unfold scan
  split
  · exact ⟨rfl, rfl⟩
  · split
    · exact ⟨rfl, rfl⟩
    · match hm : Scan.measure (Host.markEnd h), hm' : Scan.measure (Host.markEnd h') with
      | (none, _), (none, _) => exact ⟨rfl, rfl⟩
      | (some depth, _), (some depth', _) =>
        rw [hm, hm'] at same
        cases same
        simp only
        split <;> exact ⟨rfl, rfl⟩
      | (none, _), (some _, _) => rw [hm, hm'] at same; simp at same
      | (some _, _), (none, _) => rw [hm, hm'] at same; simp at same

/-- A scan leaves its host untouched if a step was pending or nothing is allowed, and otherwise
    where the measuring ended. -/
theorem host_scan {σ : Type} [Host σ] (d : Depths) (allowed : Allowed) (h : σ) :
    (d.scan allowed h).host =
      if (d.step allowed).1.isSome || allowed.isEmpty then h
      else (Scan.measure (Host.markEnd h)).2 := by
  unfold scan
  match d.step allowed with
  | (some decision, after) => rfl
  | (none, after) =>
    simp only [Option.isSome_none, Bool.false_or]
    split
    · rfl
    · match Scan.measure (Host.markEnd h) with
      | (none, _) => rfl
      | (some depth, _) =>
        simp only
        split <;> rfl

end Depths

/-! ## Single bytes that are characters

  The three characters that a scan asks about are one byte each.  To see one of them is to see its
  byte, and that also where the bytes ahead begin in the middle of a character. -/

namespace Reader

/-- In front of the bytes of a character the reader sees this character. -/
theorem char?_of_encode {r : Reader} {c : Char} {more : List UInt8}
    (h : r.rest = String.utf8EncodeChar c ++ more) : r.char? = some c := by
  have len := String.length_utf8EncodeChar c
  have hne : r.rest ≠ [] := by
    have := c.utf8Size_pos
    intro e
    rw [e] at h
    have := congrArg List.length h
    simp only [List.length_nil, List.length_append] at this
    omega
  have four := c.utf8Size_le_four
  rw [char?, if_neg (by simpa [atEnd_iff] using hne), h, List.take_append,
    List.take_of_length_le (by omega), List.toByteArray_append,
    ByteArray.utf8DecodeChar?_utf8EncodeChar_append]
  rfl

/-- In front of the bytes of some characters the reader sees the first of them, or nothing if there
    is none. -/
theorem char?_of_flatMap {r : Reader} {cs : List Char}
    (h : r.rest = cs.flatMap String.utf8EncodeChar) : r.char? = cs.head? := by
  cases cs with
  | nil =>
    rw [char?, if_pos (atEnd_iff.mpr h)]
    rfl
  | cons c cs =>
    rw [List.flatMap_cons] at h
    exact char?_of_encode h

theorem utf8EncodeChar_ascii {c : Char} (hc : c.toNat < 128) :
    String.utf8EncodeChar c = [UInt8.ofNat c.toNat] := by
  unfold String.utf8EncodeChar
  exact if_pos (Nat.le_of_lt_succ hc)

/-- A reader sees a character below 128 exactly if the byte under it is that of the character,
    wherever the reader stands. -/
theorem char?_eq_ascii_iff {r : Reader} {c : Char} (hc : c.toNat < 128) :
    r.char? = some c ↔ ∃ bs, r.rest = UInt8.ofNat c.toNat :: bs := by
  constructor
  · intro h
    unfold char? at h
    split at h
    · simp at h
    · match hd : (r.rest.take 4).toByteArray.utf8DecodeChar? 0 with
      | none =>
        rw [hd] at h
        cases h
        exact absurd hc (by decide)
      | some c' =>
        rw [hd] at h
        cases h
        -- what is decoded stands in front of the bytes in its encoding
        obtain ⟨l, hl⟩ := ByteArray.exists_of_utf8DecodeChar?_eq_some hd
        have front := congrArg (·.data.toList) hl
        simp only [List.toList_data_toByteArray, ByteArray.data_append, Array.toList_append,
          Option.getD_some] at front hc
        rw [utf8EncodeChar_ascii hc, List.singleton_append] at front
        refine ⟨l.data.toList ++ r.rest.drop 4, ?_⟩
        rw [Option.getD_some, ← List.cons_append, ← front, List.take_append_drop]
  · rintro ⟨bs, h⟩
    exact char?_of_encode (by rw [h, utf8EncodeChar_ascii hc]; rfl)

theorem stepChar_of_ascii {r : Reader} {b : UInt8} {bs : List UInt8} (h : r.rest = b :: bs)
    (hb : b.toNat < 128) : r.stepChar.rest = bs := by
  rw [stepChar, current, h, List.headD_cons, leadWidth_one hb, rest_steps, h]
  rfl

end Reader

/-! ## The loop of a scan on bytes

  The loop has a case for the end, one for each of the three characters, and one for the text of a
  line.  On bytes it has the same cases. -/

/-- Reads on to the text of a line: the depth found there, if the line is `fresh`, and zero at the
    end of the text.  `depth` tabs were passed on the line before. -/
def Layout.depthFrom (fresh : Bool) (depth : UInt16) : List UInt8 → Option UInt16
  | [] => some 0
  | b :: bs =>
    if b = 10 then depthFrom true 0 bs
    else if b = 9 then depthFrom fresh (Depths.deeper depth) bs
    else if b = 32 then depthFrom fresh depth bs
    else if fresh then some depth else none

namespace Tokenizer

/-- The depth that a scan measures on a probe is the one that the loop finds in the bytes ahead. -/
theorem measureFrom_eq (fresh : Bool) (depth : UInt16) (p : Probe) :
    (Scan.measureFrom fresh depth p).1 = Layout.depthFrom fresh depth p.reader.rest := by
  -- the place after one of the three characters
  have past {p : Probe} {c : Char} (hc : Host.next? p = some c) (hb : c.toNat < 128) :
      ∃ bs, p.reader.rest = UInt8.ofNat c.toNat :: bs ∧ (Host.skip p).reader.rest = bs := by
    obtain ⟨bs, hr⟩ := (Reader.char?_eq_ascii_iff hb).mp hc
    have small : (UInt8.ofNat c.toNat).toNat < 128 := by rw [UInt8.toNat_ofNat']; omega
    exact ⟨bs, hr, Reader.stepChar_of_ascii hr small⟩
  fun_induction Scan.measureFrom fresh depth p with
  | case1 fresh depth p hc =>
    have hr : p.reader.rest = [] := by
      have := Reader.char?_isSome_iff (r := p.reader)
      rw [show p.reader.char? = none from hc] at this
      simpa using this
    rw [hr]
    rfl
  | case2 fresh depth p hc _ ih =>
    obtain ⟨bs, hr, hs⟩ := past hc (by decide)
    rw [ih, hs, hr]
    rfl
  | case3 fresh depth p hc _ _ ih =>
    obtain ⟨bs, hr, hs⟩ := past hc (by decide)
    rw [ih, hs, hr]
    rfl
  | case4 fresh depth p hc _ _ _ ih =>
    obtain ⟨bs, hr, hs⟩ := past hc (by decide)
    rw [ih, hs, hr]
    rfl
  | case5 fresh depth p c hc _ h₁ h₂ h₃ =>
    obtain ⟨b, bs, hr⟩ := List.exists_cons_of_ne_nil (Reader.char?_isSome_iff.mp
      (show p.reader.char?.isSome = true by rw [show p.reader.char? = some c from hc]; rfl))
    -- the text of the line: none of the three bytes, since none of the three characters
    have other (c' : Char) (hb : c'.toNat < 128) (hne : c ≠ c') : b ≠ UInt8.ofNat c'.toNat := by
      intro e
      have := (Reader.char?_eq_ascii_iff hb).mpr ⟨bs, by rw [hr, e]⟩
      rw [show p.reader.char? = some c from hc] at this
      exact hne (Option.some.inj this)
    have notLineFeed : b ≠ 10 := other '\n' (by decide) h₁
    have notTab : b ≠ 9 := other '\t' (by decide) h₂
    have notSpace : b ≠ 32 := other ' ' (by decide) h₃
    rw [hr, Layout.depthFrom, if_neg notLineFeed, if_neg notTab, if_neg notSpace]

/-- The depth measured at a place is found in the bytes ahead, with no tab counted yet, and the line
    is fresh if the place is in column zero. -/
theorem lineDepth?_eq (r : Reader) :
    lineDepth? r = Layout.depthFrom (r.column == 0) 0 r.rest :=
  measureFrom_eq (r.column == 0) 0 (Host.markEnd (Probe.start r))

end Tokenizer

/-! ## Fresh lines

  In column zero the scan need not see a line feed first, so whatever comes is measured. -/

namespace Layout

/-- From the start of a line some depth is measured, be it that of the end of the text. -/
theorem depthFrom_true_ne_none (depth : UInt16) (bs : List UInt8) :
    depthFrom true depth bs ≠ none := by
  induction bs generalizing depth with
  | nil => simp [depthFrom]
  | cons b bs ih =>
    unfold depthFrom
    split
    · exact ih 0
    · split
      · exact ih _
      · split
        · exact ih depth
        · simp

end Layout

namespace Tokenizer

/-- In front of a text a line is measured, or the end of the text. -/
theorem lineDepth?_start (text : String) : lineDepth? (Reader.start text) ≠ none := by
  rw [lineDepth?_eq]
  exact Layout.depthFrom_true_ne_none 0 _

/-- The stream of a text begins with the announcement of its first line, or of its end, and behind
    it content is awaited. -/
theorem emissions_eq (text : String) :
    ∃ depth es, lineDepth? (Reader.start text) = some depth ∧
      emissions text = announcement 0 ⟨0, depth⟩ ++ es ∧
      Stream (Reader.start text) depth true es (start text).drain.2 := by
  have h := stream_emissions text
  have measured := lineDepth?_start text
  generalize emissions text = es at h
  generalize (start text).drain.2 = t at h
  cases h with
  | finish quiet _ => exact absurd (quiet.resolve_left Bool.false_ne_true) measured
  | announce hm later => exact ⟨_, _, hm, rfl, later⟩
  | comment quiet _ _ _ => exact absurd (quiet.resolve_left Bool.false_ne_true) measured
  | content quiet _ _ _ _ => exact absurd (quiet.resolve_left Bool.false_ne_true) measured

end Tokenizer

end Offside

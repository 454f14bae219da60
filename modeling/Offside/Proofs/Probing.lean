/-
  A scan of a source text, and a scan of its characters.

  A probe reads bytes, its column moves with it, and it keeps accounts of where a token would start
  and end.  A script has a list of characters and one column for ever.  A scan does the same on
  both.

  1. **Hosts alike** — two hosts in a relation that keeps the next character the same, and that is
     kept by marking and by skipping white space, answer a scan alike (`Host.Alike.scan`).  The
     column is no part of the relation: a scan asks for it once, before anything is skipped.
  2. **Probes and scripts** — between a probe over the bytes of some characters and a script of
     these characters there is such a relation (`Probe.Follows`).  It counts: only single bytes are
     skipped, so a probe is as many bytes further on as characters were passed.
  3. **Places** — the column of a reader that was moved byte by byte is that of its offset
     (`column_steps`), and the bytes from an offset between two characters on are those of a slice
     (`bytes_slice_end`).
-/
import Offside.Layout.Measured
import Offside.Proofs.Measuring

namespace Offside

/-! ## Hosts alike

  A scan uses a host in three ways: it asks for the column once, marks the end, and then looks and
  skips until it has seen a character that is not white space.  Only the second and third go on
  while it reads. -/

/-- A relation between two hosts under which they show the same character, and which is kept by
    marking the end and by skipping white space. -/
structure Host.Alike {σ τ : Type} [Host σ] [Host τ] (R : σ → τ → Prop) : Prop where
  next : ∀ {h h'}, R h h' → Host.next? h = Host.next? h'
  markEnd : ∀ {h h'}, R h h' → R (Host.markEnd h) (Host.markEnd h')
  skip : ∀ {h h' c}, R h h' → Host.next? h = some c → Scan.isFront c = true →
    R (Host.skip h) (Host.skip h')

namespace Host.Alike

variable {σ τ : Type} [Host σ] [Host τ] {R : σ → τ → Prop} {h : σ} {h' : τ}

/-- Two hosts that are alike are read to places that are alike, and the same depth is found
    there. -/
theorem measureFrom (alike : Alike R) (fresh : Bool) (depth : UInt16) (hR : R h h') :
    (Scan.measureFrom fresh depth h).1 = (Scan.measureFrom fresh depth h').1 ∧
      R (Scan.measureFrom fresh depth h).2 (Scan.measureFrom fresh depth h').2 := by
  fun_induction Scan.measureFrom fresh depth h generalizing h' with
  | case1 fresh depth h hc =>
    rw [Scan.measureFrom_of_none ((alike.next hR).symm.trans hc)]
    exact ⟨rfl, hR⟩
  | case2 fresh depth h hc _ ih =>
    rw [Scan.measureFrom_of_some ((alike.next hR).symm.trans hc)]
    exact ih (alike.skip hR hc rfl)
  | case3 fresh depth h hc _ _ ih =>
    rw [Scan.measureFrom_of_some ((alike.next hR).symm.trans hc)]
    exact ih (alike.skip hR hc rfl)
  | case4 fresh depth h hc _ _ _ ih =>
    rw [Scan.measureFrom_of_some ((alike.next hR).symm.trans hc)]
    exact ih (alike.skip hR hc rfl)
  | case5 fresh depth h c hc _ h₁ h₂ h₃ =>
    rw [Scan.measureFrom_of_some ((alike.next hR).symm.trans hc), if_neg h₁, if_neg h₂, if_neg h₃]
    exact ⟨rfl, hR⟩

/-- If two hosts are alike and have the same column, scans of them decide the same, leave the same
    counters, and leave the hosts alike. -/
theorem scan (alike : Alike R) (hR : R h h')
    (hc : Host.column (Host.markEnd h) = Host.column (Host.markEnd h')) (d : Depths)
    (allowed : Allowed) :
    (d.scan allowed h).decision? = (d.scan allowed h').decision? ∧
      (d.scan allowed h).depths = (d.scan allowed h').depths ∧
      R (d.scan allowed h).host (d.scan allowed h').host := by
  obtain ⟨same, reached⟩ := alike.measureFrom (Host.column (Host.markEnd h) == 0) 0
    (alike.markEnd hR)
  have measured : (Scan.measure (Host.markEnd h)).1 = (Scan.measure (Host.markEnd h')).1 := by
    rw [Scan.measure, Scan.measure, ← hc]
    exact same
  obtain ⟨decision, depths⟩ := d.scan_congr allowed measured
  refine ⟨decision, depths, ?_⟩
  rw [Depths.host_scan, Depths.host_scan]
  split
  · exact hR
  · rw [Scan.measure, Scan.measure, ← hc]
    exact reached

end Host.Alike

/-! ## Probes and scripts

  A probe reads bytes and decodes them; a script has the characters.  What is skipped are line
  feeds, tabs and spaces, of one byte each, so bytes and characters are counted alike. -/

theorem Reader.stepChars_succ (n : Nat) (r : Reader) :
    r.stepChars (n + 1) = (r.stepChars n).stepChar := by
  induction n generalizing r with
  | zero => rfl
  | succ n ih => exact ih r.stepChar

/-- The characters in front of the text of a line are line feeds, tabs and spaces, all below 128. -/
theorem Scan.lt_of_isFront {c : Char} (h : isFront c = true) : c.toNat < 128 := by
  simp only [isFront, Bool.or_eq_true, beq_iff_eq] at h
  rcases h with (rfl | rfl) | rfl <;> decide

namespace Probe

variable {r : Reader}

/-- A probe that left from a reader, and a script: what is ahead of the one are the bytes of what is
    left of the other, and the probe has passed as many characters as the script, each one byte. -/
structure Follows (r : Reader) (p : Probe) (s : Script) : Prop where
  spells : p.reader.rest = s.rest.flatMap String.utf8EncodeChar
  reader : p.reader = r.stepChars s.passed
  offset : p.reader.offset = r.offset + s.passed

theorem follows_start {chars : List Char} (h : r.rest = chars.flatMap String.utf8EncodeChar)
    (column : Nat) : Follows r (start r) (Script.start chars column) :=
  ⟨h, rfl, rfl⟩

theorem Follows.next {p : Probe} {s : Script} (h : Follows r p s) :
    Host.next? p = Host.next? s :=
  Reader.char?_of_flatMap h.spells

/-- When both skip a character of white space, the probe still follows the script. -/
theorem Follows.skip {p : Probe} {s : Script} {c : Char} (h : Follows r p s)
    (hc : Host.next? p = some c) (hf : Scan.isFront c = true) :
    Follows r (Host.skip p) (Host.skip s) := by
  obtain ⟨cs, hs⟩ : ∃ cs, s.rest = c :: cs := by
    rw [h.next] at hc
    exact List.head?_eq_some_iff.mp hc
  have rest : p.reader.rest = UInt8.ofNat c.toNat :: cs.flatMap String.utf8EncodeChar := by
    rw [h.spells, hs, List.flatMap_cons, Reader.utf8EncodeChar_ascii (Scan.lt_of_isFront hf)]
    rfl
  -- white space is one byte, so that a step by a character is a step by a byte
  have step : p.reader.stepChar = p.reader.steps 1 := by
    rw [Reader.stepChar_of_encode (by rw [h.spells, hs, List.flatMap_cons]),
      Reader.utf8EncodeChar_ascii (Scan.lt_of_isFront hf)]
    rfl
  have passed : (Host.skip s).passed = s.passed + 1 :=
    List.countP_cons_of_pos (p := (· != Host.Call.markEnd)) rfl
  refine ⟨?_, ?_, ?_⟩
  · show p.reader.stepChar.rest = s.rest.tail.flatMap String.utf8EncodeChar
    rw [step, Reader.rest_steps, rest, hs]
    rfl
  · show p.reader.stepChar = _
    rw [passed, Reader.stepChars_succ, ← h.reader]
  · show p.reader.stepChar.offset = _
    rw [step, Reader.offset_steps, h.offset, passed, rest, List.length_cons]
    omega

/-- A scan cannot tell a probe from a script that it follows. -/
theorem alike_follows (r : Reader) : Host.Alike (Follows r) where
  next := Follows.next
  markEnd h := ⟨h.spells, h.reader, h.offset⟩
  skip := Follows.skip

end Probe

/-! ## Places

  A reader finds the start of its line as it passes line feeds; a column is defined by looking back
  from an offset.  The two agree after any number of steps. -/

/-- If the line start is told by the bytes passed, it still is after one byte more: a line feed
    begins a line, and any other byte is one more on its line. -/
theorem Reader.lineStart_step {r : Reader} {passed : List UInt8} {b : UInt8} {bs : List UInt8}
    (h : r.lineStart + (passed.reverse.takeWhile (· != 10)).length = r.offset)
    (hr : r.rest = b :: bs) :
    r.step.lineStart + ((passed ++ [b]).reverse.takeWhile (· != 10)).length = r.step.offset := by
  rw [step, hr, List.reverse_append, List.reverse_singleton, List.singleton_append]
  by_cases hb : b = 10
  · subst hb
    rfl
  · show (if b = 10 then r.offset + 1 else r.lineStart) + _ = r.offset + 1
    rw [if_neg hb, List.takeWhile_cons_of_pos (by rwa [bne_iff_ne]), List.length_cons]
    omega

/-- If the line start is told by the bytes passed, it still is after any number of bytes more. -/
theorem Reader.lineStart_steps {r : Reader} {passed : List UInt8}
    (h : r.lineStart + (passed.reverse.takeWhile (· != 10)).length = r.offset) (n : Nat) :
    (r.steps n).lineStart +
        ((passed ++ r.rest.take n).reverse.takeWhile (· != 10)).length = (r.steps n).offset := by
  induction n generalizing r passed with
  | zero => rwa [List.take_zero, List.append_nil]
  | succ n ih =>
    match hr : r.rest with
    | [] =>
      have later := ih h
      rw [hr, List.take_nil] at later
      rwa [List.take_nil, steps, step_of_nil hr]
    | b :: bs =>
      have later := ih (lineStart_step h hr)
      rw [rest_step, hr, List.append_assoc] at later
      exact later

/-- The column of a reader that was moved byte by byte is that of its offset. -/
theorem Reader.column_steps (text : String) (n : Nat) :
    ((start text).steps n).column = Source.column text n := by
  have nothing : (start text).lineStart +
      (([] : List UInt8).reverse.takeWhile (· != 10)).length = (start text).offset := rfl
  have place := lineStart_steps nothing n
  rw [List.nil_append] at place
  rw [column, ← place]
  exact Nat.add_sub_cancel_left ..

/-- The slice from an offset between two characters to the end has the bytes ahead of the offset. -/
theorem Source.bytes_slice_end {text : String} {offset : Nat}
    (h : Token.BetweenChars text offset) :
    bytes (slice text offset (bytes text).length) = Token.ahead text offset := by
  rw [bytes_slice (betweenChars_iff.mp h).1 h (betweenChars_size text), List.take_length]
  rfl

/-- **A scan ahead of a place.**  A scan over a probe that starts at any byte of a text, also within
    a character, gives the empty token there, and the text goes on from the same reader, whether a
    boundary was found or not.  If the place is between two characters, the scan decides what it
    decides over the characters from there on, in the column of the place; it leaves the same
    counters, and the probe has passed as many characters, and stands so many bytes behind the
    place. -/
theorem scan_probe (text : String) (offset : Nat) (h : offset ≤ (Source.bytes text).length)
    (d : Depths) (allowed : Allowed) :
    let place := (Reader.start text).steps offset
    let scan := d.scan allowed (Probe.start place)
    (place.offset = offset ∧ scan.host.finish = (.point offset, place)) ∧
    (Token.BetweenChars text offset →
      let chars := (Source.slice text offset (Source.bytes text).length).toList
      let plain := d.scan allowed (Script.start chars (Source.column text offset))
      scan.decision? = plain.decision? ∧ scan.depths = plain.depths ∧
        scan.host.reader = place.stepChars plain.host.passed ∧
        scan.host.reader.offset = offset + plain.host.passed) := by
  intro place scan
  have here : place.offset = offset := by
    show ((Reader.start text).steps offset).offset = offset
    rw [Reader.offset_steps]
    show 0 + min offset (Source.bytes text).length = offset
    omega
  constructor
  · refine ⟨here, ?_⟩
    rw [← here]
    exact Prod.ext (Tokenizer.span_finish_scan ..) (Tokenizer.finish_scan ..)
  · intro between chars plain
    have rest : place.rest = chars.flatMap String.utf8EncodeChar := by
      rw [← Source.bytes_eq_flatMap, Source.bytes_slice_end between]
      exact Reader.rest_steps ..
    have column : place.column = Source.column text offset := Reader.column_steps text offset
    -- a scan cannot tell the probe from the script of the characters ahead
    obtain ⟨decision, depths, reached⟩ := (Probe.alike_follows place).scan
      (Probe.follows_start rest (Source.column text offset)) column d allowed
    refine ⟨decision, depths, reached.reader, ?_⟩
    rw [← here]
    exact reached.offset

/-- Behind a letter of two bytes: the scan goes over a line feed and two tabs, and the token stands
    in front of them. -/
theorem scan_probe_letter :
    2 ≤ (Source.bytes "é\n\t\tx").length ∧ Token.BetweenChars "é\n\t\tx" 2 ∧
      let place := (Reader.start "é\n\t\tx").steps 2
      let scan := Depths.zero.scan .all (Probe.start place)
      let plain := Depths.zero.scan .all (Script.start "\n\t\tx".toList 2)
      scan.host.finish = (.point 2, place) ∧ plain.decision? = some (.opening ⟨1, 2⟩) ∧
        scan.decision? = plain.decision? ∧ scan.depths = plain.depths ∧
        scan.host.reader.offset = 5 := by
  have within : 2 ≤ (Source.bytes "é\n\t\tx").length := by decide
  have between : Token.BetweenChars "é\n\t\tx" 2 :=
    betweenChars_iff.mpr ⟨within, "\n\t\tx".toList, by decide⟩
  obtain ⟨⟨_, finish⟩, same⟩ := scan_probe "é\n\t\tx" 2 within .zero .all
  have chars : (Source.slice "é\n\t\tx" 2 (Source.bytes "é\n\t\tx").length).toList =
      "\n\t\tx".toList := by decide +kernel
  have column : Source.column "é\n\t\tx" 2 = 2 := by decide
  obtain ⟨decision, depths, _, offset⟩ := same between
  rw [chars, column] at decision depths offset
  refine ⟨within, between, finish, by decide +kernel, decision, depths, ?_⟩
  rw [offset]
  decide +kernel

end Offside

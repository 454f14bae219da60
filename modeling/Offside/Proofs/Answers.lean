/-
  A scan gives the answer that is read off the blank front of its text.

  A scan passes one character after the other with a count of tabs, which a line feed sets back to
  zero and which stays at 65535 once it is there.  `Scan.answer` knows nothing of this: it speaks of
  the longest blank front, and of the tabs behind the last line feed in it.

  1. **Tabs** — one character more in front of a blank front counts only if it is a tab and no line
     feed follows (`tabs_cons`).
  2. **Reading on** — `measuredFrom` is `measured` with a count at hand.  It takes characters off
     the front as the loop does, and it cannot tell a count that was held at 65535 from one that was
     not.  So the loop, by induction on what it reads, finds `measuredFrom` (`measureFrom_script`).
  3. **Answers** — what is left is to go through the decisions of one scan.

  The host is a script here, a list of characters that writes down what it is asked.  A scan is
  written for any host, so what it asks is part of its answer, and is told with the rest.
-/
import Offside.Layout.Measured
import Offside.Proofs.Measuring
import Offside.Proofs.Replaying
import Mathlib.Data.List.TakeWhile

namespace Offside

namespace Scan

/-! ## Tabs

  The tabs that count are those behind the last line feed.  Reading goes from the front, where the
  last line feed is not known yet, and so it matters what follows. -/

/-- A character in front of some others counts one more if it is a tab and no line feed follows, and
    otherwise changes nothing. -/
theorem tabs_cons (c : Char) (cs : List Char) :
    tabs (c :: cs) = if '\n' ∉ cs ∧ c = '\t' then tabs cs + 1 else tabs cs := by
  unfold tabs
  rw [List.reverse_cons, List.takeWhile_append]
  by_cases h : '\n' ∈ cs
  · -- the line feed stops the count before the character is reached
    have short : (cs.reverse.takeWhile (· != '\n')).length ≠ cs.reverse.length := by
      intro same
      have all := (List.takeWhile_prefix (l := cs.reverse) (· != '\n')).eq_of_length same
      have := List.mem_takeWhile_imp (all ▸ List.mem_reverse.mpr h)
      simp at this
    rw [if_neg short, if_neg (by simp [h])]
  · have all : cs.reverse.takeWhile (· != '\n') = cs.reverse := by
      rw [List.takeWhile_eq_self_iff]
      intro x hx
      rw [bne_iff_ne]
      rintro rfl
      exact h (List.mem_reverse.mp hx)
    rw [all, if_pos rfl, List.count_append]
    by_cases hc : c = '\t'
    · subst hc
      simp [h]
    · rw [if_neg (by simp [hc])]
      show _ + List.count '\t' (List.takeWhile (· != '\n') [c]) = _
      have none : '\t' ∉ List.takeWhile (· != '\n') [c] := by
        intro ht
        have := (List.takeWhile_prefix (· != '\n')).subset ht
        rw [List.mem_singleton] at this
        exact hc this.symm
      rw [List.count_eq_zero.mpr none, Nat.add_zero]

/-! ## Reading on

  `measuredFrom` takes the two things that the loop carries, whether a line feed was passed
  (`fresh`) and the count so far.  Each lemma is the case of one character, and together they are
  the recursion of the loop. -/

/-- The depth measured in front of a text, if `count` tabs were passed on the line before, and
    `fresh` tells whether this line was seen from its start. -/
def measuredFrom (fresh : Bool) (count : Nat) (text : List Char) : Option Nat :=
  if (front text).length = text.length then some 0
  else if fresh = false ∧ '\n' ∉ front text then none
  else some (min 65535 ((if '\n' ∈ front text then 0 else count) + tabs (front text)))

/-- In front of a text nothing is counted yet, and the line is fresh in column zero. -/
theorem measured_eq (column : Nat) (text : List Char) :
    measured column text = measuredFrom (column == 0) 0 text := by
  unfold measured measuredFrom
  simp only [ite_self, Nat.zero_add, beq_eq_false_iff_ne]

variable {c : Char} (fresh : Bool) (count : Nat) (cs : List Char)

/-- A line feed starts a fresh line with no tabs, whatever was counted before. -/
theorem measuredFrom_lineFeed : measuredFrom fresh count ('\n' :: cs) = measuredFrom true 0 cs := by
  have passed : front ('\n' :: cs) = '\n' :: front cs := rfl
  unfold measuredFrom
  rw [passed, tabs_cons]
  simp

/-- A tab adds one to the count, be it of a fresh line or not. -/
theorem measuredFrom_tab :
    measuredFrom fresh count ('\t' :: cs) = measuredFrom fresh (count + 1) cs := by
  have passed : front ('\t' :: cs) = '\t' :: front cs := rfl
  have sum : (if '\n' ∈ front cs then 0 else count) + tabs ('\t' :: front cs) =
      (if '\n' ∈ front cs then 0 else count + 1) + tabs (front cs) := by
    rw [tabs_cons]
    by_cases h : '\n' ∈ front cs
    · simp [h]
    · simp [h]
      omega
  unfold measuredFrom
  rw [passed]
  simp [sum]

/-- A space leaves the count and the line as they are. -/
theorem measuredFrom_space :
    measuredFrom fresh count (' ' :: cs) = measuredFrom fresh count cs := by
  have passed : front (' ' :: cs) = ' ' :: front cs := rfl
  unfold measuredFrom
  rw [passed, tabs_cons]
  simp

/-- At any other character the line is measured, if it is a fresh one, and the depth is the count up
    to 65535. -/
theorem measuredFrom_text (h : isFront c = false) :
    measuredFrom fresh count (c :: cs) = if fresh then some (min 65535 count) else none := by
  have stopped : front (c :: cs) = [] := List.takeWhile_cons_of_neg (by simp [h])
  unfold measuredFrom
  rw [stopped]
  cases fresh <;> simp [tabs]

/-- A count that was held at 65535 does as well as the true one, since only the lesser of the two
    comes out. -/
theorem measuredFrom_min :
    measuredFrom fresh (min 65535 count) cs = measuredFrom fresh count cs := by
  unfold measuredFrom
  have same : min 65535 ((if '\n' ∈ front cs then 0 else min 65535 count) + tabs (front cs)) =
      min 65535 ((if '\n' ∈ front cs then 0 else count) + tabs (front cs)) := by
    split <;> omega
  rw [same]

/-- A depth that is measured fits a counter of sixteen bits, since tabs beyond the largest are not
    counted. -/
theorem measured_le {column depth : Nat} {text : List Char} (h : measured column text = some depth) :
    depth ≤ 65535 := by
  unfold measured at h
  split at h
  · cases h
    omega
  · split at h
    · cases h
    · cases h
      omega

/-- A script with its blank front skipped, one character after the other. -/
def skipFront (s : Script) : Script :=
  { s with
    rest := s.rest.dropWhile isFront
    asked := List.replicate (front s.rest).length .skip ++ s.asked }

/-- To skip the first character of a front and then the front that is left is to skip the front. -/
theorem skipFront_skip {s : Script} {c : Char} {cs : List Char} (hr : s.rest = c :: cs)
    (h : isFront c = true) : skipFront (Host.skip s) = skipFront s := by
  have rest : (Host.skip s).rest = cs := congrArg List.tail hr
  have longer : front (c :: cs) = c :: front cs := List.takeWhile_cons_of_pos h
  unfold skipFront
  rw [rest, hr, longer, List.dropWhile_cons_of_pos h, List.length_cons, List.replicate_succ',
    List.append_assoc]
  rfl

/-- Where no front is ahead, nothing is skipped. -/
theorem skipFront_of_front {s : Script} (h : front s.rest = []) : skipFront s = s := by
  have stays : s.rest.dropWhile isFront = s.rest := by
    have split := List.takeWhile_append_dropWhile (p := isFront) (l := s.rest)
    rw [show s.rest.takeWhile isFront = [] from h, List.nil_append] at split
    exact split
  unfold skipFront
  rw [stays, h]
  rfl

/-- The loop of a scan over a script finds the depth that is read off the front, skips the front,
    and does nothing else.  The induction is on what is left of the script. -/
theorem measureFrom_script (fresh : Bool) (depth : UInt16) (s : Script) :
    (measureFrom fresh depth s).1.map UInt16.toNat = measuredFrom fresh depth.toNat s.rest ∧
      (measureFrom fresh depth s).2 = skipFront s := by
  have ahead {s : Script} {c : Char} (hc : Host.next? s = some c) :
      s.rest = c :: (Host.skip s).rest := by
    obtain ⟨cs, hr⟩ := List.head?_eq_some_iff.mp hc
    rw [hr]
    exact congrArg (c :: ·) (congrArg List.tail hr).symm
  fun_induction measureFrom fresh depth s with
  | case1 fresh depth s hc =>
    have hr : s.rest = [] := List.head?_eq_none_iff.mp hc
    have none : front s.rest = [] := by rw [hr]; rfl
    constructor
    · rw [hr]
      rfl
    · exact (skipFront_of_front none).symm
  | case2 fresh depth s hc _ ih =>
    have hr := ahead hc
    constructor
    · rw [ih.1, hr, measuredFrom_lineFeed]
      rfl
    · rw [ih.2, skipFront_skip hr rfl]
  | case3 fresh depth s hc _ _ ih =>
    have hr := ahead hc
    constructor
    · rw [ih.1, hr, measuredFrom_tab, Depths.toNat_deeper, measuredFrom_min]
    · rw [ih.2, skipFront_skip hr rfl]
  | case4 fresh depth s hc _ _ _ ih =>
    have hr := ahead hc
    constructor
    · rw [ih.1, hr, measuredFrom_space]
    · rw [ih.2, skipFront_skip hr rfl]
  | case5 fresh depth s c hc _ h₁ h₂ h₃ =>
    have hr := ahead hc
    have text : isFront c = false := by simp [isFront, h₁, h₂, h₃]
    have none : front s.rest = [] := by
      rw [hr]
      exact List.takeWhile_cons_of_neg (by simp [text])
    -- a counter fits its word, so the bound on the tabs counted so far changes nothing
    have small := depth.toNat_lt
    constructor
    · rw [hr, measuredFrom_text fresh depth.toNat _ text, Nat.min_eq_right (by omega)]
      cases fresh <;> rfl
    · exact (skipFront_of_front none).symm

/-- Measuring a script finds the depth that is read off its front in its column, and skips the
    front. -/
theorem measure_eq (s : Script) :
    measure s = ((measured s.column s.rest).map UInt16.ofNat, skipFront s) := by
  obtain ⟨depth, host⟩ := measureFrom_script (s.column == 0) 0 s
  have words (found : Option UInt16) : (found.map UInt16.toNat).map UInt16.ofNat = found := by
    cases found <;> simp
  refine Prod.ext ?_ host
  show (measureFrom (s.column == 0) 0 s).1 = _
  rw [measured_eq, ← words (measureFrom _ _ _).1, depth]
  rfl

end Scan

/-! ## Answers

  A scan reads or it does not.  If it does not, a pending step answers, or nothing is allowed.  If
  it does, the line it finds is at the depth reached, and a level answers if it may; or it is at
  another, and the first step towards it answers if it may. -/

theorem Allowed.isEmpty_iff_eq_none {allowed : Allowed} :
    allowed.isEmpty = true ↔ allowed = .none := by
  obtain ⟨o, c, l⟩ := allowed
  cases o <;> cases c <;> cases l <;> decide

namespace Depths

variable {d : Depths} {allowed : Allowed} {column : Nat} {text : List Char}

/-- Whether a scan reads: no step is pending that it may take, and some boundary is allowed. -/
def reads (d : Depths) (allowed : Allowed) : Bool := !((d.step allowed).1.isSome || allowed.isEmpty)

/-- A scan of a script measures what is read off the front of the script, if it reads. -/
theorem measured?_script (d : Depths) (allowed : Allowed) (column : Nat) (text : List Char) :
    d.measured? allowed (Script.start text column) =
      if d.reads allowed then (Scan.measured column text).map UInt16.ofNat else none := by
  unfold measured? reads
  rw [Scan.measure_eq]
  cases (d.step allowed).1.isSome || allowed.isEmpty <;> rfl

/-- A scan that reads marks the end and then skips the blank front, character by character; one that
    does not read asks nothing. -/
theorem calls_scan (d : Depths) (allowed : Allowed) (column : Nat) (text : List Char) :
    (d.scan allowed (Script.start text column)).host.calls =
      if d.reads allowed then .markEnd :: List.replicate (Scan.front text).length .skip
      else [] := by
  unfold reads
  rw [host_scan, Scan.measure_eq]
  cases (d.step allowed).1.isSome || allowed.isEmpty
  · show (List.replicate (Scan.front text).length Host.Call.skip ++ [Host.Call.markEnd]).reverse = _
    rw [List.reverse_append, List.reverse_replicate]
    rfl
  · rfl

/-- A scan reads if it may neither open towards the target nor close towards it, and the set allowed
    is not empty. -/
theorem reads_iff :
    d.reads allowed = true ↔ ¬(allowed.opening = true ∧ d.current < d.target) ∧
      ¬(allowed.closing = true ∧ d.target < d.current) ∧ allowed ≠ .none := by
  unfold reads
  rcases step_cases allowed d with ⟨ha, hlt, e⟩ | ⟨ha, hlt, e⟩ | ⟨no_opening, no_closing, e⟩ <;> rw [e]
  · simp [ha, hlt]
  · simp [ha, hlt]
  · simp only [no_opening, no_closing, not_false_eq_true, true_and]
    rw [ne_eq, ← Allowed.isEmpty_iff_eq_none]
    simp

theorem step_of_reads (h : d.reads allowed = true) : d.step allowed = (none, d) := by
  obtain ⟨no_opening, no_closing, _⟩ := reads_iff.mp h
  rcases step_cases allowed d with ⟨ha, hlt, _⟩ | ⟨ha, hlt, _⟩ | ⟨_, _, e⟩
  · exact absurd ⟨ha, hlt⟩ no_opening
  · exact absurd ⟨ha, hlt⟩ no_closing
  · exact e

/-- A scan that does not read answers with the pending step, or with nothing, and has asked
    nothing. -/
theorem answer_of_not_reads (h : d.reads allowed = false) :
    Scan.answer d allowed column text = ⟨(d.step allowed).1, (d.step allowed).2, []⟩ := by
  unfold Scan.answer
  rcases step_cases allowed d with ⟨ha, hlt, e⟩ | ⟨ha, hlt, e⟩ | ⟨no_opening, no_closing, e⟩
  · rw [e, if_pos ⟨ha, hlt⟩]
  · have no_opening : ¬(allowed.opening = true ∧ d.current < d.target) := fun h =>
      absurd (UInt16.lt_trans h.2 hlt) (UInt16.lt_irrefl _)
    rw [e, if_neg no_opening, if_pos ⟨ha, hlt⟩]
  · have none_allowed : allowed = .none := by
      by_contra some_allowed
      rw [reads_iff.mpr ⟨no_opening, no_closing, some_allowed⟩] at h
      cases h
    rw [e, if_neg no_opening, if_neg no_closing, if_pos none_allowed]

/-- A scan that reads and finds no line answers with nothing, and leaves the counters. -/
theorem answer_of_no_line (h : d.reads allowed = true) (hm : Scan.measured column text = none) :
    Scan.answer d allowed column text =
      ⟨none, d, .markEnd :: List.replicate (Scan.front text).length .skip⟩ := by
  obtain ⟨no_opening, no_closing, some_allowed⟩ := reads_iff.mp h
  unfold Scan.answer
  rw [if_neg no_opening, if_neg no_closing, if_neg some_allowed, hm]

/-- A scan that reads and finds a line answers with a level token if the line is at the depth
    reached, or makes its depth the target and answers with the first step towards it. -/
theorem answer_of_line (h : d.reads allowed = true) {depth : Nat}
    (hm : Scan.measured column text = some depth) :
    Scan.answer d allowed column text =
      if allowed.level = true ∧ UInt16.ofNat depth = d.current then
        ⟨some (.level (UInt16.ofNat depth)), d,
          .markEnd :: List.replicate (Scan.front text).length .skip⟩
      else
        ⟨(step allowed ⟨d.current, UInt16.ofNat depth⟩).1,
          (step allowed ⟨d.current, UInt16.ofNat depth⟩).2,
          .markEnd :: List.replicate (Scan.front text).length .skip⟩ := by
  obtain ⟨no_opening, no_closing, some_allowed⟩ := reads_iff.mp h
  have word : UInt16.ofNat depth = d.current ↔ depth = d.current.toNat := by
    have small := Scan.measured_le hm
    rw [← UInt16.toNat_inj, UInt16.toNat_ofNat', Nat.mod_eq_of_lt (by omega)]
  unfold Scan.answer
  rw [if_neg no_opening, if_neg no_closing, if_neg some_allowed, hm]
  simp only [word]
  split
  · rfl
  · unfold step
    simp only [Allowed.permits, gt_iff_lt]
    split
    · rfl
    · split <;> rfl

end Depths

/-- **A scan answers.**  A scan of any characters, in any column, from any counters and with any set
    of boundaries allowed, decides what `Scan.answer` says, leaves the counters it says, and asks of
    its host what it says: nothing for a pending step or if no boundary is allowed, and else the end
    is marked and the blank front skipped, character by character.  In the counters a boundary is
    one more or one less in whole numbers, for it never wraps. -/
theorem scan_eq_answer (d : Depths) (allowed : Allowed) (column : Nat) (text : List Char) :
    let scan := d.scan allowed (Script.start text column)
    (⟨scan.decision?, scan.depths, scan.host.calls⟩ : Scan.Answer) =
        Scan.answer d allowed column text ∧
      Depths.Counts d scan.depths scan.boundary? := by
  refine ⟨?_, (Depths.counts_scan d allowed _).1⟩
  show (⟨(d.scan allowed (Script.start text column)).decision?,
    (d.scan allowed (Script.start text column)).depths,
    (d.scan allowed (Script.start text column)).host.calls⟩ : Scan.Answer) = _
  have measured := Depths.measured?_script d allowed column text
  rw [Depths.calls_scan]
  -- what could be measured has a part in the answer only if the scan reads at all
  by_cases reads : d.reads allowed = true
  · rw [if_pos reads] at measured ⊢
    match hm : Scan.measured column text with
    | none =>
      rw [hm] at measured
      obtain ⟨decision, depths⟩ := Depths.scan_of_not_measured measured
      rw [decision, depths, Depths.step_of_reads reads, Depths.answer_of_no_line reads hm]
    | some depth =>
      rw [hm] at measured
      rw [Depths.answer_of_line reads hm]
      rcases Depths.scan_of_measured measured with ⟨level, reached, decision, depths⟩ |
        ⟨no_level, decision, depths⟩
      · rw [decision, depths, if_pos ⟨level, reached⟩]
      · rw [decision, depths, if_neg no_level]
  · rw [if_neg reads] at measured ⊢
    obtain ⟨decision, depths⟩ := Depths.scan_of_not_measured measured
    rw [Bool.not_eq_true] at reads
    rw [decision, depths, Depths.answer_of_not_reads reads]

end Offside

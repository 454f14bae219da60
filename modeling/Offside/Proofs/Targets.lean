/-
  What the target says about the line measured last.

  The target is meant to be the depth of the line that a scan has measured last.  A scan that finds
  the line at the depth reached does not set it, since it is thought to be there already.  So the
  question is when it is.

  1. **One scan** — a scan that measures a line either announces it by a level token, and then
     leaves both counters as they are, or makes its depth the target and goes on with a step
     (`scan_of_measured`); a scan that measures none leaves the target (`target_of_not_measured`).
  2. **Runs** — so the target is the depth measured last as long as a level token is given only
     where the target is reached.  It is given elsewhere exactly if a step is pending that is not
     allowed while the level token is; and then the target stays that of an older line, and later
     scans step towards it without reading.
-/
import Offside.Layout.Visits
import Offside.Proofs.Stream

namespace Offside

namespace Depths

variable {σ : Type} [Host σ] {d : Depths} {allowed : Allowed} {h : σ} {depth : UInt16}

/-! ## One scan

  Whether a scan measures is decided before it reads: no step may be left that it could take, and
  some boundary must be allowed.  A step that is left and not allowed does not keep it from
  measuring. -/

/-- A scan that measures a line found no step that it could take, and some boundary allowed, and
    read the depth of the line off its host. -/
theorem step_of_measured (hm : d.measured? allowed h = some depth) :
    d.step allowed = (none, d) ∧ allowed.isEmpty = false ∧
      (Scan.measure (Host.markEnd h)).1 = some depth := by
  unfold measured? at hm
  split at hm
  · simp at hm
  · next hgo =>
    rw [Bool.not_eq_true, Bool.or_eq_false_iff] at hgo
    refine ⟨?_, hgo.2, hm⟩
    rcases step_cases allowed d with ⟨_, _, e⟩ | ⟨_, _, e⟩ | ⟨_, _, e⟩
    · rw [e] at hgo; simp at hgo
    · rw [e] at hgo; simp at hgo
    · exact e

/-- A line that is measured is announced by a level token, which leaves both counters, or its depth
    becomes the target, and the first step towards it is taken if it is allowed. -/
theorem scan_of_measured (hm : d.measured? allowed h = some depth) :
    (allowed.level = true ∧ depth = d.current ∧
      (d.scan allowed h).decision? = some (.level depth) ∧ (d.scan allowed h).depths = d) ∨
    (¬(allowed.level = true ∧ depth = d.current) ∧
      (d.scan allowed h).decision? = (step allowed ⟨d.current, depth⟩).1 ∧
      (d.scan allowed h).depths = (step allowed ⟨d.current, depth⟩).2) := by
  obtain ⟨quiet, some_allowed, measured⟩ := step_of_measured hm
  unfold scan
  simp only [quiet, some_allowed, Bool.false_eq_true, if_false]
  split
  · next hs => rw [hs] at measured; simp at measured
  · next depth' host hs =>
    rw [hs] at measured
    cases measured
    split
    · next he => exact .inl ⟨he.1, he.2, rfl, rfl⟩
    · next hne => exact .inr ⟨hne, rfl, rfl⟩

/-- A scan that measures no line takes the step that is pending, or does nothing if there is none
    that it could take. -/
theorem scan_of_not_measured (hm : d.measured? allowed h = none) :
    (d.scan allowed h).decision? = (d.step allowed).1 ∧
      (d.scan allowed h).depths = (d.step allowed).2 := by
  unfold measured? at hm
  unfold scan
  rcases step_cases allowed d with ⟨_, _, e⟩ | ⟨_, _, e⟩ | ⟨_, _, e⟩ <;> rw [e] at hm ⊢
  · exact ⟨rfl, rfl⟩
  · exact ⟨rfl, rfl⟩
  · -- no step is left, so a line would have been measured
    rw [Option.isSome_none, Bool.false_or] at hm
    by_cases he : allowed.isEmpty = true
    · simp only [he, if_true, and_self]
    · rw [if_neg he] at hm
      simp only [he, Bool.false_eq_true, if_false]
      match hn : Scan.measure (Host.markEnd h) with
      | (none, _) => exact ⟨rfl, rfl⟩
      | (some depth, _) => rw [hn] at hm; simp at hm

/-- A scan that measures no line leaves the target as it was. -/
theorem target_of_not_measured (hm : d.measured? allowed h = none) :
    (d.scan allowed h).depths.target = d.target := by
  rw [(scan_of_not_measured hm).2, target_step]

/-- After a scan that measures a line, the target is the depth of that line, except behind a level
    token that left a step pending. -/
theorem target_scan_iff (hm : d.measured? allowed h = some depth) :
    (d.scan allowed h).depths.target = depth ↔
      ¬((d.scan allowed h).decision? = some (.level depth) ∧ d.target ≠ d.current) := by
  rcases scan_of_measured hm with ⟨_, reached, hd, hc⟩ | ⟨_, hd, hc⟩
  · rw [hd, hc, reached]
    simp
  · rw [hd, hc, target_step]
    simp [step_ne_level]

/-! ## Runs

  A run is a list of visits, each with its own text, column and set of boundaries.  The depth
  measured last is found by recursion from the end of the list. -/

/-- A set of boundaries that has both steps if it has the level token. -/
def StepsWithLevel (allowed : Allowed) : Prop :=
  allowed.level = true → allowed.opening = true ∧ allowed.closing = true

/-- If both steps are allowed with the level token, no step is left where a line is measured that
    may be announced by it. -/
theorem current_eq_target_of_measured (ha : StepsWithLevel allowed)
    (hm : d.measured? allowed h = some depth) (hl : allowed.level = true) :
    d.current = d.target := by
  obtain ⟨opening, closing⟩ := ha hl
  have all : allowed = .all := by
    obtain ⟨o, c, l⟩ := allowed
    cases opening; cases closing; cases hl
    rfl
  have quiet := (step_of_measured hm).1
  rw [all] at quiet
  exact step_all_eq_none_iff.mp (by rw [quiet])

/-- If both steps are allowed with the level token, the target is the depth of the line just
    measured. -/
theorem target_scan_of_stepsWithLevel (ha : StepsWithLevel allowed)
    (hm : d.measured? allowed h = some depth) : (d.scan allowed h).depths.target = depth := by
  rw [target_scan_iff hm]
  rintro ⟨level, pending⟩
  have hl : allowed.level = true := by
    rcases scan_of_measured hm with ⟨hl, _⟩ | ⟨_, hd, _⟩
    · exact hl
    · rw [hd] at level
      exact absurd level (step_ne_level _ _ _)
  exact pending (current_eq_target_of_measured ha hm hl).symm

/-- Along visits that allow both steps with the level token, the target is the depth measured last,
    or what it was if nothing was measured. -/
theorem target_visits_of_stepsWithLevel {vs : List Visit}
    (hv : ∀ v ∈ vs, StepsWithLevel v.allowed) (d : Depths) :
    (d.visits vs).target = (d.lastMeasured? vs).getD d.target := by
  induction vs generalizing d with
  | nil => rfl
  | cons v vs ih =>
    have later := ih (fun v' hv' => hv v' (List.mem_cons_of_mem v hv')) (d.visit v).depths
    rw [show d.visits (v :: vs) = (d.visit v).depths.visits vs from rfl, later, lastMeasured?]
    match hl : (d.visit v).depths.lastMeasured? vs with
    | some depth => rfl
    | none =>
      -- no line was measured later, so this visit decides
      rw [Option.none_or, Option.getD_none]
      match hm : d.measured? v.allowed v.host with
      | none => exact target_of_not_measured hm
      | some depth => exact target_scan_of_stepsWithLevel (hv v List.mem_cons_self) hm

end Depths

/-- **The target along a run.**  After any visits, a scan that measures a line leaves the target at
    the depth of that line, unless it announces the line by a level token while a step is pending:
    exactly then the target stays that of an older line.  This cannot happen where both steps are
    allowed with the level token, and if that is so in all visits, the target is at any time the
    depth of the line measured last, and zero before the first. -/
theorem target_visits (vs : List Visit) :
    (∀ v depth, (Depths.zero.visits vs).measured? v.allowed v.host = some depth →
      (((Depths.zero.visits vs).visit v).depths.target = depth ↔
        ¬(((Depths.zero.visits vs).visit v).decision? = some (.level depth) ∧
          (Depths.zero.visits vs).target ≠ (Depths.zero.visits vs).current))) ∧
    ((∀ v ∈ vs, Depths.StepsWithLevel v.allowed) →
      (Depths.zero.visits vs).target = (Depths.zero.lastMeasured? vs).getD 0) := by
  constructor
  · intro v depth hm
    exact Depths.target_scan_iff hm
  · intro hv
    exact Depths.target_visits_of_stepsWithLevel hv .zero

/-- A level token behind a step that was not allowed: the line measured last has depth zero, and the
    target stays at one. -/
theorem target_stays_behind_level :
    ¬∀ (vs : List Visit) (v : Visit) (depth : UInt16),
      (Depths.zero.visits vs).measured? v.allowed v.host = some depth →
        ((Depths.zero.visits vs).visit v).depths.target = depth := by
  intro h
  have measured := h [⟨.only .level, 0, "\tx\ny".toList⟩] ⟨.only .level, 0, "y".toList⟩ 0
    (by decide +kernel)
  have left : ((Depths.zero.visits [⟨.only .level, 0, "\tx\ny".toList⟩]).visit
      ⟨.only .level, 0, "y".toList⟩).depths.target = 1 := by decide +kernel
  rw [left] at measured
  exact absurd measured (by decide)

end Offside

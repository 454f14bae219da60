/-
  The two counters of indentation, and the steps between them.

  `current` is the depth announced so far: blocks opened less blocks closed.  `target` is the depth
  that the steps are on the way to.  A line far from the current depth is reached one block at a
  time, so the distance still to go has to be kept between two tokens, and these two counters are
  all that is kept.

  Depths are 16-bit words.  A step is taken only towards the target, so it never wraps; a line with
  more tabs than fit counts as 65535 deep (`deeper`).

  What a step can be is said once, by `step_cases`.  All that is said about steps further on, in
  whole numbers and without, goes back to it: that the target stays, that a step is no level token,
  and that the way to the target gets shorter by one.
-/
import Offside.Layout.Boundary

namespace Offside

/-- The depth announced so far and the depth that the steps lead to. -/
structure Depths where
  current : UInt16
  target : UInt16
  deriving DecidableEq, Repr, Inhabited

/-- A boundary that was decided on, with what the counters say about it: after a step both of them,
    at a line start the depth of the line. -/
inductive Decision
  | opening (after : Depths)
  | closing (after : Depths)
  | level (depth : UInt16)
  deriving DecidableEq, Repr, Inhabited

/-- The token that a decision stands for. -/
def Decision.boundary : Decision → Boundary
  | .opening _ => .opening
  | .closing _ => .closing
  | .level _ => .level

namespace Depths

/-- The counters before any text. -/
def zero : Depths := ⟨0, 0⟩

/-- One tab more, up to the largest depth. -/
def deeper (depth : UInt16) : UInt16 := if depth = 65535 then 65535 else depth + 1

/-- One step of `current` towards `target`, if there is a way to go and its direction is allowed. -/
def step (allowed : Allowed) (d : Depths) : Option Decision × Depths :=
  if allowed.permits .opening ∧ d.current < d.target then
    let after := { d with current := d.current + 1 }
    (some (.opening after), after)
  else if allowed.permits .closing ∧ d.current > d.target then
    let after := { d with current := d.current - 1 }
    (some (.closing after), after)
  else (none, d)

/-- How many steps lead from `current` to `target`, and on from there to `depth`. -/
def distance (d : Depths) (depth : UInt16) : Nat :=
  (d.target.toNat - d.current.toNat) + (d.current.toNat - d.target.toNat) +
    (depth.toNat - d.target.toNat) + (d.target.toNat - depth.toNat)

/-! ## A step taken, in numbers

  Each step is towards a depth that is itself a word, so adding or taking away one never wraps. -/

/-- One tab more is one more in numbers, up to the largest depth. -/
theorem toNat_deeper (depth : UInt16) : (deeper depth).toNat = min 65535 (depth.toNat + 1) := by
  have := depth.toNat_lt
  unfold deeper
  split
  · next h => subst h; rfl
  · next h =>
    have : depth.toNat ≠ 65535 := fun e => h (UInt16.toNat_inj.mp e)
    rw [UInt16.toNat_add]
    simp only [UInt16.reduceToNat]
    omega

/-- An opening step raises `current` by one, to at most `target`. -/
theorem toNat_current_succ {d : Depths} (h : d.current < d.target) :
    (d.current + 1).toNat = d.current.toNat + 1 := by
  have h' := UInt16.lt_iff_toNat_lt.mp h
  have := d.target.toNat_lt
  rw [UInt16.toNat_add]
  simp only [UInt16.reduceToNat]
  omega

/-- A closing step lowers `current` by one, to at least `target`. -/
theorem toNat_current_pred {d : Depths} (h : d.target < d.current) :
    (d.current - 1).toNat = d.current.toNat - 1 := by
  have h' := UInt16.lt_iff_toNat_lt.mp h
  have : (1 : UInt16) ≤ d.current := by
    rw [UInt16.le_iff_toNat_le]; simp only [UInt16.reduceToNat]; omega
  rw [UInt16.toNat_sub_of_le _ _ this]
  rfl

/-- What a step can be: it opens, if that is allowed and the target is deeper; it closes, if that is
    allowed and the target is less deep; or nothing is done. -/
theorem step_cases (allowed : Allowed) (d : Depths) :
    (allowed.opening = true ∧ d.current < d.target ∧
      step allowed d = (some (.opening ⟨d.current + 1, d.target⟩), ⟨d.current + 1, d.target⟩)) ∨
    (allowed.closing = true ∧ d.target < d.current ∧
      step allowed d = (some (.closing ⟨d.current - 1, d.target⟩), ⟨d.current - 1, d.target⟩)) ∨
    (¬(allowed.opening = true ∧ d.current < d.target) ∧
      ¬(allowed.closing = true ∧ d.target < d.current) ∧ step allowed d = (none, d)) := by
  unfold step
  simp only [Allowed.permits, gt_iff_lt]
  split
  · next h => exact .inl ⟨h.1, h.2, rfl⟩
  · next h =>
    split
    · next h' => exact .inr (.inl ⟨h'.1, h'.2, rfl⟩)
    · next h' => exact .inr (.inr ⟨h, h', rfl⟩)

/-- With every boundary allowed, no step is left exactly when the target is reached. -/
theorem step_all_eq_none_iff {d : Depths} :
    (step .all d).1 = none ↔ d.current = d.target := by
  rcases step_cases .all d with ⟨_, h, e⟩ | ⟨_, h, e⟩ | ⟨h, h', e⟩ <;> rw [e]
  · simp [UInt16.ne_of_lt h]
  · simp [(UInt16.ne_of_lt h).symm]
  · simp only [true_iff]
    simp only [Allowed.all, true_and, UInt16.not_lt] at h h'
    exact UInt16.le_antisymm h' h

/-- A step that is taken leaves one step less to go, to its target and on from there. -/
theorem distance_step {allowed : Allowed} {d : Depths} (depth : UInt16)
    (h : (step allowed d).1.isSome) :
    (step allowed d).2.distance depth + 1 = d.distance depth := by
  rcases step_cases allowed d with ⟨_, hlt, e⟩ | ⟨_, hlt, e⟩ | ⟨_, _, e⟩ <;> rw [e] at h ⊢
  · have := UInt16.lt_iff_toNat_lt.mp hlt
    simp only [distance, toNat_current_succ hlt]; omega
  · have := UInt16.lt_iff_toNat_lt.mp hlt
    simp only [distance, toNat_current_pred hlt]; omega
  · simp at h

theorem distance_lt (d : Depths) (depth : UInt16) : d.distance depth < 131071 := by
  have := d.current.toNat_lt
  have := d.target.toNat_lt
  have := depth.toNat_lt
  unfold distance; omega

/-! ## What a step leaves alone

  A step moves one of the two counters by one, towards the other.  That is all that later proofs
  have to know of it: the target stays, the boundary is no level, and the way that is left gets
  shorter. -/

variable {allowed : Allowed} {d after : Depths} {decision : Decision}

/-- A step does not change the target, whether it is taken or not: only measuring does. -/
theorem target_step (allowed : Allowed) (d : Depths) : (step allowed d).2.target = d.target := by
  rcases step_cases allowed d with ⟨_, _, e⟩ | ⟨_, _, e⟩ | ⟨_, _, e⟩ <;> rw [e]

theorem target_of_step (h : d.step allowed = (some decision, after)) :
    after.target = d.target := by
  rw [← target_step allowed d, h]

/-- A step that is taken opens a block or closes one; which of the two is told by the counters. -/
theorem boundary_of_step (h : d.step allowed = (some decision, after)) :
    decision.boundary = .opening ∨ decision.boundary = .closing := by
  rcases step_cases allowed d with ⟨_, _, e⟩ | ⟨_, _, e⟩ | ⟨_, _, e⟩ <;>
    rw [e] at h <;> cases h
  · exact .inl rfl
  · exact .inr rfl

theorem boundary_of_step_ne_level (h : d.step allowed = (some decision, after)) :
    (decision.boundary == .level) = false := by
  rcases boundary_of_step h with e | e <;> rw [e] <;> rfl

/-- What a step decides is no level token, at whatever depth. -/
theorem step_ne_level (allowed : Allowed) (d : Depths) (depth : UInt16) :
    (step allowed d).1 ≠ some (.level depth) := by
  intro level
  have boundary := boundary_of_step_ne_level (Prod.ext level rfl : step allowed d = (_, _))
  simp [Decision.boundary] at boundary

/-- After a step there is one less to go, so the steps towards a target come to an end. -/
theorem distance_of_step (h : d.step allowed = (some decision, after)) :
    after.distance after.target < d.distance d.target := by
  have shorter := @distance_step allowed d d.target (by rw [h]; rfl)
  simp only [h] at shorter
  rw [target_of_step h]
  omega

/-! ## Small cases -/

example : step .all ⟨1, 3⟩ = (some (.opening ⟨2, 3⟩), ⟨2, 3⟩) := by decide
example : step (.only .opening) ⟨3, 1⟩ = (none, ⟨3, 1⟩) := by decide

end Depths

end Offside

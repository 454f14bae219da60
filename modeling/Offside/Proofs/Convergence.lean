/-
  Scans of one place come to rest.

  A host that leaves the text where it is may scan it again and again, all boundaries allowed.  The
  counters are whatever an earlier text has left, so `target` may have nothing to do with the line
  that is measured there.

  1. **One scan** — while the current depth is not the one aimed at, a scan is a step to it
     (`scan_towards`).  A depth is aimed at if it is the target, or if the target is reached and it
     is the depth measured: that one becomes the target, and its first step is taken at once.
  2. **A way** — a step keeps the aim, so as many scans as there are levels between lead all the
     way, in one direction (`stepsFrom`).  This is used twice: to the target that is pending, and
     from there to the line.
  3. **Rest** — where the line is reached, every scan is its level token; in the middle of a line,
     where nothing is measured, every scan finds nothing.  Either way the counters stay.

  The two ways may go in different directions, and no scan is lost between them: the scan that would
  have found the old target reached measures the line instead.
-/
import Offside.Proofs.Answers

namespace Offside

namespace Depths

/-! ## One scan

  Whether a scan takes a step that is pending or finds a new target first makes no difference to the
  step.  `AimsAt` is what both have in common, and it is all that the way needs. -/

/-- The depth that scans of a host lead to next: the target, or the depth measured where the target
    is reached. -/
def AimsAt {σ : Type} [Host σ] (d : Depths) (h : σ) (b : UInt16) : Prop :=
  d.target = b ∨ d.current = d.target ∧ (Scan.measure (Host.markEnd h)).1 = some b

/-- With everything allowed, a line is measured exactly where no step is left. -/
theorem measured?_all {σ : Type} [Host σ] (d : Depths) (h : σ) :
    d.measured? .all h =
      if d.current = d.target then (Scan.measure (Host.markEnd h)).1 else none := by
  unfold measured?
  by_cases reached : d.current = d.target
  · rw [if_pos reached, step_all_eq_none_iff.mpr reached]
    rfl
  · have pending : (step .all d).1 ≠ none := mt step_all_eq_none_iff.mp reached
    rw [if_neg reached, if_pos (by simp [Option.isSome_iff_ne_none, pending])]

section

variable {σ : Type} [Host σ] {d : Depths} {h : σ} {b : UInt16}

/-- While the depth is not the one that is aimed at, a scan decides on the first step to that depth,
    and makes it the target. -/
theorem scan_towards (aim : d.AimsAt h b) (away : d.current ≠ b) :
    (d.scan .all h).decision? = (step .all ⟨d.current, b⟩).1 ∧
      (d.scan .all h).depths = (step .all ⟨d.current, b⟩).2 := by
  have measured := measured?_all d h
  rcases aim with rfl | ⟨reached, hm⟩
  · rw [if_neg away] at measured
    exact scan_of_not_measured measured
  · rw [if_pos reached, hm] at measured
    rcases scan_of_measured measured with ⟨_, here, _⟩ | ⟨_, decision, depths⟩
    · exact absurd here.symm away
    · exact ⟨decision, depths⟩

end

/-- A step to another depth opens if that is greater and closes if it is less, and in numbers is one
    level on the way. -/
theorem step_towards {a b : UInt16} (away : a ≠ b) :
    (step .all ⟨a, b⟩).1.map (·.boundary) = some (if a < b then .opening else .closing) ∧
      (step .all ⟨a, b⟩).2.current.toNat = onTheWay a b 1 := by
  unfold onTheWay
  rcases step_cases .all ⟨a, b⟩ with ⟨_, hlt, e⟩ | ⟨_, hlt, e⟩ | ⟨not_below, not_above, e⟩ <;> rw [e]
  · rw [if_pos hlt, if_pos hlt]
    exact ⟨rfl, toNat_current_succ (d := ⟨a, b⟩) hlt⟩
  · have not_below : ¬a < b := fun h => UInt16.lt_irrefl _ (UInt16.lt_trans h hlt)
    rw [if_neg not_below, if_neg not_below]
    exact ⟨rfl, toNat_current_pred (d := ⟨a, b⟩) hlt⟩
  · simp only [Allowed.all, true_and, UInt16.not_lt] at not_below not_above
    exact absurd (UInt16.le_antisymm not_above not_below) away

/-! ## A way

  The number of visits is the number of levels passed.  The induction is on the levels, and carries
  the place on the way and the aim. -/

variable {d : Depths} {v : Visit} {a b : UInt16}

theorem visits_replicate_succ (d : Depths) (v : Visit) (n : Nat) :
    d.visits (List.replicate (n + 1) v) = (d.rescan v n).depths := by
  rw [List.replicate_succ', visits, List.foldl_append]
  rfl

/-- Before the end of the way the end is not reached; it lies in the direction in which it lay
    first, and one level more is one level nearer. -/
theorem on_the_way {c : UInt16} {n : Nat} (hn : n < gap a b) (hc : c.toNat = onTheWay a b n) :
    c ≠ b ∧ (c < b ↔ a < b) ∧ onTheWay c b 1 = onTheWay a b (n + 1) := by
  unfold gap at hn
  unfold onTheWay at hc ⊢
  by_cases up : a < b
  · rw [if_pos up] at hc
    have levels := UInt16.lt_iff_toNat_lt.mp up
    have below : c < b := UInt16.lt_iff_toNat_lt.mpr (by omega)
    rw [if_pos below, if_pos up]
    exact ⟨UInt16.ne_of_lt below, iff_of_true below up, by omega⟩
  · rw [if_neg up] at hc
    have levels : b.toNat ≤ a.toNat := UInt16.le_iff_toNat_le.mp (UInt16.not_lt.mp up)
    have above : b < c := UInt16.lt_iff_toNat_lt.mpr (by omega)
    have not_below : ¬c < b := fun h => UInt16.lt_irrefl _ (UInt16.lt_trans h above)
    rw [if_neg not_below, if_neg up]
    exact ⟨(UInt16.ne_of_lt above).symm, iff_of_false not_below up, by omega⟩

/-- As many levels on the way as lie between lead to the other end. -/
theorem onTheWay_gap (a b : UInt16) : onTheWay a b (gap a b) = b.toNat := by
  unfold onTheWay gap
  split
  · next up =>
    have levels := UInt16.lt_iff_toNat_lt.mp up
    omega
  · next up =>
    have levels : b.toNat ≤ a.toNat := UInt16.le_iff_toNat_le.mp (UInt16.not_lt.mp up)
    omega

/-- One more visit on the way steps in its direction, is one level more, and aims at the same
    depth. -/
theorem rescan_on_the_way (all : v.allowed = .all) {k n : Nat} (hn : n < gap a b)
    (here : (d.visits (List.replicate k v)).current.toNat = onTheWay a b n)
    (aim : (d.visits (List.replicate k v)).AimsAt v.host b) :
    (d.rescan v k).boundary? = some (if a < b then .opening else .closing) ∧
      (d.rescan v k).depths.current.toNat = onTheWay a b (n + 1) ∧
      (d.rescan v k).depths.target = b := by
  obtain ⟨away, direction, further⟩ := on_the_way hn here
  obtain ⟨decision, depths⟩ := scan_towards aim away
  rw [← all] at decision depths
  obtain ⟨boundary, current⟩ := step_towards away
  simp only [direction] at boundary
  refine ⟨?_, ?_, ?_⟩
  · show ((d.visits (List.replicate k v)).scan v.allowed v.host).decision?.map (·.boundary) = _
    rw [decision, all]
    exact boundary
  · show ((d.visits (List.replicate k v)).scan v.allowed v.host).depths.current.toNat = _
    rw [depths, all]
    exact current.trans further
  · show ((d.visits (List.replicate k v)).scan v.allowed v.host).depths.target = b
    rw [depths, target_step]

/-- As many visits as levels on the way lead there, one level each, and the aim is kept. -/
theorem visits_on_the_way (all : v.allowed = .all) {k : Nat}
    (here : (d.visits (List.replicate k v)).current = a)
    (aim : (d.visits (List.replicate k v)).AimsAt v.host b) {n : Nat} (hn : n ≤ gap a b) :
    (d.visits (List.replicate (k + n) v)).current.toNat = onTheWay a b n ∧
      (d.visits (List.replicate (k + n) v)).AimsAt v.host b := by
  induction n with
  | zero =>
    refine ⟨?_, aim⟩
    rw [Nat.add_zero, here]
    unfold onTheWay
    split <;> rfl
  | succ n ih =>
    obtain ⟨current, aim⟩ := ih (by omega)
    obtain ⟨_, further, target⟩ := rescan_on_the_way all (by omega) current aim
    rw [← Nat.add_assoc, visits_replicate_succ]
    exact ⟨further, .inl target⟩

/-- **A way.** Visits to a place lead from the current depth to the one that is aimed at, a step in
    its direction at each visit, and as many visits as there are levels between. -/
theorem stepsFrom (all : v.allowed = .all) {k : Nat}
    (here : (d.visits (List.replicate k v)).current = a)
    (aim : (d.visits (List.replicate k v)).AimsAt v.host b) : d.StepsFrom v k a b where
  boundary n hn := by
    obtain ⟨current, aim⟩ := visits_on_the_way all here aim (Nat.le_of_lt hn)
    exact (rescan_on_the_way all hn current aim).1
  depths n hn := by
    obtain ⟨current, aim⟩ := visits_on_the_way all here aim (Nat.le_of_lt hn)
    exact (rescan_on_the_way all hn current aim).2
  arrived := by
    obtain ⟨current, aim⟩ := visits_on_the_way all here aim (Nat.le_refl _)
    have reached : (d.visits (List.replicate (k + gap a b) v)).current = b := by
      rw [← UInt16.toNat_inj, current, onTheWay_gap]
    have target : (d.visits (List.replicate (k + gap a b) v)).target = b := by
      rcases aim with h | ⟨h, _⟩
      · exact h
      · rw [← h, reached]
    generalize d.visits (List.replicate (k + gap a b) v) = after at reached target
    obtain ⟨c, t⟩ := after
    cases reached
    cases target
    rfl

/-! ## Rest

  At rest a scan changes nothing, so the next scan finds what it found. -/

/-- Counters that one scan of a place leaves as they are, are left by every later scan of it. -/
theorem visits_of_rest {k : Nat} {rest : Depths} (here : d.visits (List.replicate k v) = rest)
    (stays : (rest.visit v).depths = rest) (n : Nat) :
    d.visits (List.replicate (k + n) v) = rest := by
  induction n with
  | zero => exact here
  | succ n ih =>
    rw [← Nat.add_assoc, visits_replicate_succ]
    show ((d.visits (List.replicate (k + n) v)).visit v).depths = rest
    rw [ih, stays]

/-- In the middle of a line, with no step left, a scan finds nothing and leaves the counters. -/
theorem visit_of_no_line (all : v.allowed = .all) (hm : (Scan.measure (Host.markEnd v.host)).1 = none)
    (b : UInt16) :
    ((⟨b, b⟩ : Depths).visit v).decision? = none ∧ ((⟨b, b⟩ : Depths).visit v).depths = ⟨b, b⟩ := by
  have measured := measured?_all ⟨b, b⟩ v.host
  rw [if_pos rfl, hm] at measured
  obtain ⟨decision, depths⟩ := scan_of_not_measured measured
  have reached : (⟨b, b⟩ : Depths).reads .all = true :=
    reads_iff.mpr ⟨fun h => UInt16.lt_irrefl b h.2, fun h => UInt16.lt_irrefl b h.2, by decide⟩
  unfold visit
  rw [all, decision, depths, step_of_reads reached]
  exact ⟨rfl, rfl⟩

/-- In front of a line at the depth reached, a scan finds the level token of the line and leaves the
    counters. -/
theorem visit_of_line (all : v.allowed = .all)
    (hm : (Scan.measure (Host.markEnd v.host)).1 = some b) :
    ((⟨b, b⟩ : Depths).visit v).decision? = some (.level b) ∧
      ((⟨b, b⟩ : Depths).visit v).depths = ⟨b, b⟩ := by
  have measured := measured?_all ⟨b, b⟩ v.host
  rw [if_pos rfl, hm] at measured
  unfold visit
  rw [all]
  rcases scan_of_measured measured with ⟨_, _, decision, depths⟩ | ⟨not_here, _⟩
  · exact ⟨decision, depths⟩
  · exact absurd ⟨rfl, rfl⟩ not_here

end Depths

/-- **Scans of one place come to rest.**  From any counters, scans of one place with everything
    allowed first step, level by level and in one direction, to the target that is pending.  In the
    middle of a line every later scan then finds nothing, and the counters stay.  In front of a
    line, or at the end of the text, the scans that follow step in one direction to the depth
    measured, and every scan after these gives a level token for it, and leaves both counters
    there. -/
theorem rescan_converges (d : Depths) (column : Nat) (text : List Char) :
    let place : Visit := ⟨.all, column, text⟩
    let pending := Depths.gap d.current d.target
    d.StepsFrom place 0 d.current d.target ∧
    ((Scan.measure place.host).1 = none →
      ∀ n, (d.rescan place (pending + n)).decision? = none ∧
        (d.rescan place (pending + n)).depths = ⟨d.target, d.target⟩) ∧
    ∀ depth, (Scan.measure place.host).1 = some depth →
      d.StepsFrom place pending d.target depth ∧
      ∀ n, (d.rescan place (pending + Depths.gap d.target depth + n)).decision? =
          some (.level depth) ∧
        (d.rescan place (pending + Depths.gap d.target depth + n)).depths = ⟨depth, depth⟩ := by
  intro place pending
  have all : place.allowed = .all := rfl
  -- the mark that a scan sets first does not matter to what is measured
  have marked : (Scan.measure (Host.markEnd place.host)).1 = (Scan.measure place.host).1 := by
    rw [Scan.measure_eq, Scan.measure_eq]
    rfl
  rw [← marked]
  have first : d.StepsFrom place 0 d.current d.target := Depths.stepsFrom all rfl (.inl rfl)
  have between : d.visits (List.replicate pending place) = ⟨d.target, d.target⟩ := by
    have arrived := first.arrived
    rwa [Nat.zero_add] at arrived
  refine ⟨first, ?_, ?_⟩
  · intro hm n
    have stays := Depths.visit_of_no_line all hm d.target
    unfold Depths.rescan
    rw [Depths.visits_of_rest between stays.2]
    exact stays
  · intro depth hm
    have second : d.StepsFrom place pending d.target depth := by
      refine Depths.stepsFrom all (by rw [between]) (.inr ?_)
      rw [between]
      exact ⟨rfl, hm⟩
    refine ⟨second, ?_⟩
    intro n
    have stays := Depths.visit_of_line all hm
    unfold Depths.rescan
    rw [Depths.visits_of_rest second.arrived stays.2]
    exact stays

/-- The counters of an older line are on their way up, and the line that is there now wants them
    down again; in the middle of a line they stay where the way up has led. -/
theorem rescan_converges_turning :
    (Scan.measure (Script.start "\tx".toList 0)).1 = some 1 ∧
    (Scan.measure (Script.start "\tx".toList 3)).1 = none ∧
    let d : Depths := ⟨2, 4⟩
    (d.StepsFrom ⟨.all, 0, "\tx".toList⟩ 0 2 4 ∧ d.StepsFrom ⟨.all, 0, "\tx".toList⟩ 2 4 1 ∧
      (d.rescan ⟨.all, 0, "\tx".toList⟩ 1000).decision? = some (.level 1)) ∧
    (d.rescan ⟨.all, 3, "\tx".toList⟩ 1000).decision? = none := by
  have line : (Scan.measure (Script.start "\tx".toList 0)).1 = some 1 := by decide +kernel
  have within : (Scan.measure (Script.start "\tx".toList 3)).1 = none := by decide +kernel
  obtain ⟨up, _, in_front⟩ := rescan_converges ⟨2, 4⟩ 0 "\tx".toList
  obtain ⟨down, stays⟩ := in_front 1 line
  obtain ⟨_, in_the_middle, _⟩ := rescan_converges ⟨2, 4⟩ 3 "\tx".toList
  exact ⟨line, within, ⟨up, down, (stays 995).1⟩, (in_the_middle within 998).1⟩

end Offside

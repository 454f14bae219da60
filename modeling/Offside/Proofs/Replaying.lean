/-
  The counters as a record of the tokens given.

  Whatever a run of scans is asked, in front of whatever texts and with whatever boundaries allowed,
  its counters say how many blocks it has opened and closed.

  1. **One scan** — a scan either gives a level token and leaves both counters, or is a step towards
     the target it had or towards the line it measured (`scan_cases`).  So each boundary tells what
     became of the counters (`Counts`), and none is given that is not allowed.
  2. **Runs** — a block opened is one more, a block closed one less, and nothing else changes the
     current depth (`current_visits`).  The sums are those of whole numbers: a step goes towards a
     depth that is itself a 16-bit word, so it never wraps.
-/
import Offside.Proofs.Targets

namespace Offside

namespace Depths

variable {σ : Type} [Host σ]

/-! ## One scan

  A scan is taken apart into its cases once.  Whatever it does to the current depth is a single
  step, taken from the counters as they were with the target they had, or with one that was just
  measured. -/

/-- What a scan can be: a level token in front of a line at the current depth, or a step, or no
    step, towards the target it had or towards the line it measured. -/
theorem scan_cases (d : Depths) (allowed : Allowed) (h : σ) :
    (allowed.level = true ∧ (d.scan allowed h).decision? = some (.level d.current) ∧
      (d.scan allowed h).depths = d) ∨
    (∃ target, (target = d.target ∨ d.measured? allowed h = some target) ∧
      (d.scan allowed h).decision? = (step allowed ⟨d.current, target⟩).1 ∧
      (d.scan allowed h).depths = (step allowed ⟨d.current, target⟩).2) := by
  match hm : d.measured? allowed h with
  | none =>
    obtain ⟨hd, hc⟩ := scan_of_not_measured hm
    exact .inr ⟨d.target, .inl rfl, hd, hc⟩
  | some depth =>
    rcases scan_of_measured hm with ⟨hl, reached, hd, hc⟩ | ⟨_, hd, hc⟩
    · rw [reached] at hd
      exact .inl ⟨hl, hd, hc⟩
    · exact .inr ⟨depth, .inr rfl, hd, hc⟩

/-- What a boundary, or that there was none, says of the counters before and after: a step is one
    step and does not go past the target, and anything else leaves the current depth. -/
def Counts (before after : Depths) : Option Boundary → Prop
  | some .opening =>
    after.current.toNat = before.current.toNat + 1 ∧ after.current ≤ after.target
  | some .closing =>
    after.current.toNat + 1 = before.current.toNat ∧ after.target ≤ after.current
  | some .level => after = before
  | none => after.current = before.current

/-- A step tells in its boundary what became of the counters, whatever the target was before, and
    its boundary is one that is allowed. -/
theorem counts_step (allowed : Allowed) (d : Depths) (target : UInt16) :
    Counts d (step allowed ⟨d.current, target⟩).2
        ((step allowed ⟨d.current, target⟩).1.map (·.boundary)) ∧
      ∀ b ∈ (step allowed ⟨d.current, target⟩).1.map (·.boundary), allowed.permits b = true := by
  rcases step_cases allowed ⟨d.current, target⟩ with ⟨ha, hlt, e⟩ | ⟨ha, hlt, e⟩ | ⟨_, _, e⟩ <;> rw [e]
  · have one : (d.current + 1).toNat = d.current.toNat + 1 :=
      toNat_current_succ (d := ⟨d.current, target⟩) hlt
    have below : d.current.toNat < target.toNat := UInt16.lt_iff_toNat_lt.mp hlt
    refine ⟨⟨one, ?_⟩, ?_⟩
    · show d.current + 1 ≤ target
      rw [UInt16.le_iff_toNat_le]
      omega
    · rintro b ⟨rfl⟩
      exact ha
  · have one : (d.current - 1).toNat = d.current.toNat - 1 :=
      toNat_current_pred (d := ⟨d.current, target⟩) hlt
    have above : target.toNat < d.current.toNat := UInt16.lt_iff_toNat_lt.mp hlt
    refine ⟨⟨?_, ?_⟩, ?_⟩
    · show (d.current - 1).toNat + 1 = d.current.toNat
      omega
    · show target ≤ d.current - 1
      rw [UInt16.le_iff_toNat_le]
      omega
    · rintro b ⟨rfl⟩
      exact ha
  · refine ⟨rfl, ?_⟩
    intro b hb
    cases hb

/-- Every scan tells in its boundary what became of the counters, gives no boundary that is not
    allowed, and keeps its target or takes it from the line it measured. -/
theorem counts_scan (d : Depths) (allowed : Allowed) (h : σ) :
    Counts d (d.scan allowed h).depths (d.scan allowed h).boundary? ∧
      (∀ b ∈ (d.scan allowed h).boundary?, allowed.permits b = true) ∧
      ((d.scan allowed h).depths.target = d.target ∨
        d.measured? allowed h = some (d.scan allowed h).depths.target) := by
  rcases scan_cases d allowed h with ⟨hl, hd, hc⟩ | ⟨target, hm, hd, hc⟩
  · rw [Scan.boundary?, hd, hc]
    refine ⟨rfl, ?_, .inl rfl⟩
    rintro b ⟨rfl⟩
    exact hl
  · obtain ⟨counts, permitted⟩ := counts_step allowed d target
    rw [Scan.boundary?, hd, hc, target_step]
    exact ⟨counts, permitted, hm⟩

/-! ## Runs

  The induction is on the visits, with the counters as its parameter.  The sums are sums of whole
  numbers, so that a counter that wrapped around would break them. -/

/-- Along a run the current depth is that of the start, and the blocks opened since less those
    closed. -/
theorem current_visits (d : Depths) (vs : List Visit) :
    (d.visits vs).current.toNat + (d.found vs).count .closing =
      d.current.toNat + (d.found vs).count .opening := by
  induction vs generalizing d with
  | nil => rfl
  | cons v vs ih =>
    have later := ih (d.visit v).depths
    have counts := (counts_scan d v.allowed v.host).1
    rw [show d.visits (v :: vs) = (d.visit v).depths.visits vs from rfl, found, List.count_append,
      List.count_append]
    change Counts d (d.visit v).depths (d.visit v).boundary? at counts
    -- the first visit goes one deeper, one less deep, or stays where it is
    match hb : (d.visit v).boundary? with
    | some .opening =>
      rw [hb] at counts
      have one : (d.visit v).depths.current.toNat = d.current.toNat + 1 := counts.1
      rw [Option.toList_some, List.count_singleton_self, List.count_singleton, if_neg (by decide)]
      omega
    | some .closing =>
      rw [hb] at counts
      have one : (d.visit v).depths.current.toNat + 1 = d.current.toNat := counts.1
      rw [Option.toList_some, List.count_singleton_self, List.count_singleton, if_neg (by decide)]
      omega
    | some .level =>
      rw [hb] at counts
      have same : (d.visit v).depths = d := counts
      rw [same] at later ⊢
      simpa using later
    | none =>
      rw [hb] at counts
      have same : (d.visit v).depths.current = d.current := counts
      rw [same] at later
      simpa using later

end Depths

/-- **The counters replay the tokens.**  After any visits from any counters, the current depth is
    that of the start and the blocks opened since less those closed, reckoned in whole numbers, and
    it fits a 16-bit word.  The next scan gives no boundary that is not allowed: if the set allowed
    was made from a table, its entry for the boundary is there and true; if it was made from a
    number, the bit of the boundary is set.  An opening is one deeper than before and at most as
    deep as its target, a closing one less deep and at least as deep; a level token leaves both
    counters, and where there is no boundary the current depth stays.  The target is what it was, or
    the depth of a line that this scan measured. -/
theorem visits_replay (d : Depths) (vs : List Visit) :
    let before := d.visits vs
    let depth : Int := d.current.toNat + (d.found vs).count .opening - (d.found vs).count .closing
    (before.current.toNat = depth ∧ 0 ≤ depth ∧ depth ≤ 65535) ∧
    ∀ v : Visit,
      let scan := before.visit v
      (∀ b ∈ scan.boundary?, v.allowed.permits b = true ∧
        (∀ table, v.allowed = .ofTable table → table[b.index]? = some true) ∧
        (∀ n, v.allowed = .ofLowBits n → n.testBit b.index = true)) ∧
      Depths.Counts before scan.depths scan.boundary? ∧
      (scan.depths.target = before.target ∨
        before.measured? v.allowed v.host = some scan.depths.target) := by
  intro before depth
  constructor
  · -- a sum in natural numbers says the difference in whole ones, since nothing was cut off
    have sum : before.current.toNat + (d.found vs).count .closing =
        d.current.toNat + (d.found vs).count .opening := Depths.current_visits d vs
    have small := before.current.toNat_lt
    omega
  · intro v scan
    obtain ⟨counts, permitted, target⟩ := Depths.counts_scan before v.allowed v.host
    refine ⟨?_, counts, target⟩
    intro b hb
    have allowed := permitted b hb
    refine ⟨allowed, ?_, ?_⟩
    · intro table ht
      rw [ht] at allowed
      exact (Allowed.permits_ofTable table b).mp allowed
    · intro n hn
      rwa [hn, Allowed.permits_ofLowBits] at allowed

end Offside

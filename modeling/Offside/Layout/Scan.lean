/-
  The scan: which structural token, if any, stands at a place in a text.

  1. **Pending steps first** — while `current` has not reached `target` and the direction is
     allowed, the scan takes one step and reads nothing.
  2. **Measure** — otherwise it reads over line feeds, tabs and spaces.  The depth of the line found
     is the number of tabs since its line feed; blank lines are passed over, and the end of the text
     counts as a line of depth zero.  From the middle of a line with more text on it nothing is
     measured.
  3. **Decide** — a line at the current depth is a level token; any other depth becomes the target,
     and the first step to it is taken at once.

  Structural tokens are empty.  The end is marked before anything is read, so that what the scan
  passes over is still there for the next one.
-/
import Offside.Layout.Depths
import Offside.Layout.Host

namespace Offside

/-- What came of one scan. -/
structure Scan (σ : Type) where
  decision? : Option Decision
  depths : Depths
  host : σ

/-- The boundary that a scan gives, if it gives one. -/
def Scan.boundary? {σ : Type} (s : Scan σ) : Option Boundary := s.decision?.map (·.boundary)

namespace Scan

variable {σ : Type} [Host σ]

/-- Reads on to the text of a line.  `fresh` tells whether the line has started, `depth` counts its
    tabs so far. -/
def measureFrom (fresh : Bool) (depth : UInt16) (h : σ) : Option UInt16 × σ :=
  match hc : Host.next? h with
  | none => (some 0, h)
  | some c =>
    have : Host.remaining (Host.skip h) < Host.remaining h := Host.remaining_skip h (by simp [hc])
    if c = '\n' then measureFrom true 0 (Host.skip h)
    else if c = '\t' then measureFrom fresh (Depths.deeper depth) (Host.skip h)
    else if c = ' ' then measureFrom fresh depth (Host.skip h)
    else (if fresh then some depth else none, h)
termination_by Host.remaining h

theorem measureFrom_of_none {h : σ} (hc : Host.next? h = none) (fresh : Bool) (depth : UInt16) :
    measureFrom fresh depth h = (some 0, h) := by
  rw [measureFrom]
  split
  · rfl
  · next hc' => rw [hc] at hc'; simp at hc'

theorem measureFrom_of_some {h : σ} {c : Char} (hc : Host.next? h = some c) (fresh : Bool)
    (depth : UInt16) :
    measureFrom fresh depth h =
      if c = '\n' then measureFrom true 0 (Host.skip h)
      else if c = '\t' then measureFrom fresh (Depths.deeper depth) (Host.skip h)
      else if c = ' ' then measureFrom fresh depth (Host.skip h)
      else (if fresh then some depth else none, h) := by
  rw [measureFrom]
  split
  · next hc' => rw [hc] at hc'; simp at hc'
  · next c' hc' =>
    rw [hc] at hc'
    cases hc'
    rfl

/-- The depth of the line that starts at the place, or of the next one with text on it; nothing if
    the place is in the middle of a line and text follows on it. -/
def measure (h : σ) : Option UInt16 × σ := measureFrom (Host.column h == 0) 0 h

end Scan

/-- One scan from a place in a text. -/
def Depths.scan {σ : Type} [Host σ] (d : Depths) (allowed : Allowed) (h : σ) : Scan σ :=
  match d.step allowed with
  | (some decision, after) => ⟨some decision, after, h⟩
  | (none, _) =>
    if allowed.isEmpty then ⟨none, d, h⟩
    else
      match Scan.measure (Host.markEnd h) with
      | (none, h) => ⟨none, d, h⟩
      | (some depth, h) =>
        if allowed.permits .level ∧ depth = d.current then ⟨some (.level depth), d, h⟩
        else
          let (decision?, after) := Depths.step allowed { d with target := depth }
          ⟨decision?, after, h⟩

namespace Scan

/-! ## Small cases -/

example : (measure (Script.start "\n\t \t// x".toList 3)).1 = some 2 := by decide +kernel
example : (measure (Script.start "\tx".toList 3)).1 = none := by decide +kernel
example : (Depths.scan ⟨0, 0⟩ .all (Script.start "\tx".toList 0)).decision? =
    some (.opening ⟨1, 1⟩) := by decide +kernel

end Scan

end Offside

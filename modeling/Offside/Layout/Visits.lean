/-
  Runs of scans.

  Whoever uses the scan keeps the counters from one scan to the next, and asks for each with the
  boundaries that it can use there and in front of the text that it has there.  A `Visit` is one
  such place; nothing ties a visit to the one before it.

  Not every scan measures a line: a pending step that is allowed is taken without reading, nothing
  is read if no boundary is allowed, and from the middle of a line nothing is found.  `measured?` is
  the depth of the line that a scan measures, and `lastMeasured?` that of the last one in a run.
  `found` are the boundaries that a run gives, in order.

  Nothing is used up by a visit, so a place can be visited again: `rescan` is what one more visit to
  the same place gives, and `StepsFrom` says that some visits in a row go from one depth to another,
  level by level.
-/
import Offside.Layout.Scan

namespace Offside

/-- A place where a scan is asked for: the boundaries allowed, and the column and the text there. -/
structure Visit where
  allowed : Allowed
  column : Nat
  text : List Char
  deriving DecidableEq, Repr

/-- The host of a visit. -/
def Visit.host (v : Visit) : Script := .start v.text v.column

namespace Depths

/-- The scan of a visit. -/
def visit (d : Depths) (v : Visit) : Scan Script := d.scan v.allowed v.host

/-- The counters after some visits. -/
def visits (d : Depths) (vs : List Visit) : Depths := vs.foldl (fun d v => (d.visit v).depths) d

/-- The depth of the line that a scan measures, if it measures one. -/
def measured? {σ : Type} [Host σ] (d : Depths) (allowed : Allowed) (h : σ) : Option UInt16 :=
  if (d.step allowed).1.isSome || allowed.isEmpty then none
  else (Scan.measure (Host.markEnd h)).1

/-- The depth of the line that was measured last in some visits, if any was. -/
def lastMeasured? (d : Depths) : List Visit → Option UInt16
  | [] => none
  | v :: vs => ((d.visit v).depths.lastMeasured? vs).or (d.measured? v.allowed v.host)

/-- The boundaries that some visits give. -/
def found (d : Depths) : List Visit → List Boundary
  | [] => []
  | v :: vs => (d.visit v).boundary?.toList ++ (d.visit v).depths.found vs

/-! ## The same place again

  One visit does not settle a place: it takes one step, and the next visit finds the same text with
  other counters. -/

/-- The scan of a place that was visited `n` times before. -/
def rescan (d : Depths) (v : Visit) (n : Nat) : Scan Script :=
  (d.visits (List.replicate n v)).visit v

/-- How many levels lie between two depths. -/
def gap (a b : UInt16) : Nat := (a.toNat - b.toNat) + (b.toNat - a.toNat)

/-- The depth `n` levels on the way from one depth to another. -/
def onTheWay (a b : UInt16) (n : Nat) : Nat := if a < b then a.toNat + n else a.toNat - n

/-- Behind `k` visits to a place, those that follow step from the depth `a` to the depth `b`: all of
    them opening blocks, or all closing blocks, one level each, until both counters are `b`. -/
structure StepsFrom (d : Depths) (v : Visit) (k : Nat) (a b : UInt16) : Prop where
  boundary : ∀ n < gap a b,
    (d.rescan v (k + n)).boundary? = some (if a < b then .opening else .closing)
  depths : ∀ n < gap a b, (d.rescan v (k + n)).depths.current.toNat = onTheWay a b (n + 1) ∧
    (d.rescan v (k + n)).depths.target = b
  arrived : d.visits (List.replicate (k + gap a b) v) = ⟨b, b⟩

/-! ## Small cases -/

example : zero.visits [⟨.all, 0, "\t\tx".toList⟩, ⟨.none, 2, "x".toList⟩] = ⟨1, 2⟩ := by
  decide +kernel

example : zero.found [⟨.all, 0, "\t\tx".toList⟩, ⟨.none, 2, "x".toList⟩, ⟨.all, 2, "x".toList⟩] =
    [.opening, .opening] := by decide +kernel

example : zero.lastMeasured? [⟨.all, 0, "\tx".toList⟩, ⟨.all, 3, "\n\ty".toList⟩] = some 1 := by
  decide +kernel

-- an older line at depth 2 is still on its way when the new one, at depth 1, is found
example : (List.range 4).map (fun n => ((⟨0, 2⟩ : Depths).rescan ⟨.all, 0, "\tx".toList⟩ n).boundary?) =
    [some .opening, some .opening, some .closing, some .level] := by decide +kernel

end Depths

end Offside

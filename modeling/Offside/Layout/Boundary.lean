/-
  The three structural tokens of a text whose blocks are marked by indentation.

  A line that stands deeper than the one before it opens a block for each level; one that stands
  less deep closes as many; and after that each line is announced by one token that says "the line
  stands at the depth reached".  A consumer that knows where it is in its grammar permits only some
  of the three: that is a set, `Allowed`.
-/

namespace Offside

/-- A structural token: a block opens, a block closes, or a line starts at the depth reached. -/
inductive Boundary
  | opening
  | closing
  | level
  deriving DecidableEq, Repr, Inhabited

namespace Boundary

/-- All three, in the order of their indices. -/
def all : List Boundary := [.opening, .closing, .level]

/-- The place of a boundary in `Boundary.all`. -/
def index : Boundary → Nat
  | .opening => 0
  | .closing => 1
  | .level => 2

/-- The boundary at a place of `Boundary.all`. -/
def ofIndex? : Nat → Option Boundary
  | 0 => some .opening
  | 1 => some .closing
  | 2 => some .level
  | _ => none

/-- The name by which a grammar refers to a boundary. -/
def symbol : Boundary → String
  | .opening => "_open"
  | .closing => "_close"
  | .level => "_level"

/-- The boundary at an index is the one with this index, and no other. -/
theorem ofIndex?_eq_some_iff {i : Nat} {b : Boundary} : ofIndex? i = some b ↔ i = b.index := by
  constructor
  · intro h
    unfold ofIndex? at h
    split at h <;> simp_all <;> subst h <;> rfl
  · rintro rfl; cases b <;> rfl

/-- The boundary at an index is the one at this place of the list, and none behind its end. -/
theorem ofIndex?_eq_getElem? (i : Nat) : ofIndex? i = all[i]? := by
  match i with
  | 0 | 1 | 2 => rfl
  | n + 3 => simp [ofIndex?, all]

end Boundary

/-- A set of boundaries: those that the consumer can use where it stands. -/
structure Allowed where
  opening : Bool
  closing : Bool
  level : Bool
  deriving DecidableEq, Repr, Inhabited

namespace Allowed

/-- No boundary. -/
def none : Allowed := ⟨false, false, false⟩

/-- Every boundary. -/
def all : Allowed := ⟨true, true, true⟩

/-- Exactly one boundary. -/
def only : Boundary → Allowed
  | .opening => ⟨true, false, false⟩
  | .closing => ⟨false, true, false⟩
  | .level => ⟨false, false, true⟩

/-- Whether a boundary is in the set. -/
def permits (a : Allowed) : Boundary → Bool
  | .opening => a.opening
  | .closing => a.closing
  | .level => a.level

/-- Whether no boundary is in the set. -/
def isEmpty (a : Allowed) : Bool := !(a.opening || a.closing || a.level)

/-- The set as a number: the boundary of index `i` is the bit of weight `2 ^ i`. -/
def bits (a : Allowed) : Nat := a.opening.toNat + 2 * a.closing.toNat + 4 * a.level.toNat

/-- The set of a number, with the bits that stand for no boundary left out. -/
def ofLowBits (n : Nat) : Allowed := ⟨n.testBit 0, n.testBit 1, n.testBit 2⟩

/-- The set of a number, if each of its bits stands for a boundary. -/
def ofBits? (n : Nat) : Option Allowed := if n < 8 then some (ofLowBits n) else Option.none

/-- The set of the boundaries whose entry in a table, by index, is true.  A table that is too short
    says no, and entries past the third say nothing. -/
def ofTable (table : List Bool) : Allowed :=
  ⟨table.getD 0 false, table.getD 1 false, table.getD 2 false⟩

/-- The set of a table has a boundary exactly if the table has a true entry at its index. -/
theorem permits_ofTable (table : List Bool) (b : Boundary) :
    (ofTable table).permits b = true ↔ table[b.index]? = some true := by
  have entry (o : Option Bool) : o.getD false = true ↔ o = some true := by
    cases o <;> simp
  cases b <;> simp [ofTable, permits, Boundary.index, List.getD_eq_getElem?_getD, entry]

/-- The set of a number has a boundary exactly if the bit at its index is set. -/
theorem permits_ofLowBits (n : Nat) (b : Boundary) :
    (ofLowBits n).permits b = n.testBit b.index := by
  cases b <;> rfl

theorem permits_only (a b : Boundary) : (only a).permits b = true ↔ a = b := by
  cases a <;> cases b <;> simp [only, permits]

theorem isEmpty_iff {a : Allowed} : a.isEmpty = true ↔ ∀ b, a.permits b = false := by
  constructor
  · intro h b; cases b <;> simp_all [isEmpty, permits]
  · intro h
    have h₁ := h .opening; have h₂ := h .closing; have h₃ := h .level
    simp_all [isEmpty, permits]

/-- A set is got back from its number, so different sets have different numbers. -/
theorem ofLowBits_bits (a : Allowed) : ofLowBits a.bits = a := by
  obtain ⟨o, c, l⟩ := a
  cases o <;> cases c <;> cases l <;> rfl

example : ofBits? 5 = some ⟨true, false, true⟩ ∧ ofBits? 8 = Option.none := by decide

end Allowed

end Offside

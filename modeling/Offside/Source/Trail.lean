/-
  Trails: a place in a text that is moved about.

  A place is moved on in one of five ways, and it is a value: it can be kept, and whoever has kept
  it can go back to it, or forward.  A `Trail` is a place with the places that were kept on the way;
  what a place is and how it moves are parameters, so that readers and pointers leave trails by the
  same moves.

  Two lemmas serve all later proofs.  What is kept by each way to go on holds of every place of a
  trail (`places_walk`); and if one kind of place, seen as another, goes on as the other does, then
  so does a whole trail (`walk_map`).
-/
import Offside.Source.Pointer

namespace Offside

/-- Ways to go on. -/
inductive Way
  | byte
  | char
  | run (accept : UInt8 → Bool)
  | blanks
  | line

/-- Moves on a trail.  Places are numbered in the order in which they were kept. -/
inductive Move
  | go (way : Way)
  | keep
  | goTo (which : Nat)

/-- A place, and the places kept so far. -/
structure Trail (σ : Type) where
  here : σ
  kept : List σ

namespace Trail

variable {σ τ : Type}

/-- The trail that starts at a place. -/
def start (s : σ) : Trail σ := ⟨s, []⟩

/-- Makes one move.  A place that was never kept cannot be gone to. -/
def move (go : Way → σ → σ) (t : Trail σ) : Move → Trail σ
  | .go way => { t with here := go way t.here }
  | .keep => { t with kept := t.kept ++ [t.here] }
  | .goTo which => { t with here := t.kept.getD which t.here }

/-- Makes some moves, one after another. -/
def walk (go : Way → σ → σ) (t : Trail σ) (moves : List Move) : Trail σ := moves.foldl (move go) t

/-- The trail with every place seen as another. -/
def map (f : σ → τ) (t : Trail σ) : Trail τ := ⟨f t.here, t.kept.map f⟩

/-- All places of a trail. -/
def places (t : Trail σ) : List σ := t.here :: t.kept

end Trail

/-- Moves a reader on. -/
def Reader.go : Way → Reader → Reader
  | .byte, r => r.step
  | .char, r => r.stepChar
  | .run accept, r => r.skipWhile accept
  | .blanks, r => r.skipBlanks
  | .line, r => r.toLineEnd

/-- Moves a pointer on.  Once there was no answer there is no pointer any more, and it cannot be
    moved. -/
def Pointer.go (text : String) (way : Way) (p? : Option Pointer) : Option Pointer :=
  p?.bind fun p =>
    match way with
    | .byte => p.step? text
    | .char => p.stepChar? text
    | .run accept => p.skipWhile? text accept
    | .blanks => p.skipBlanks? text
    | .line => p.toLineEnd? text

namespace Trail

variable {σ τ : Type} {P : σ → Prop} {go : Way → σ → σ} {t : Trail σ}

/-! ## All places of a trail

  The places of a trail are the one where it is and those that were kept.  A move makes at most one
  new place, and that from the one where the trail is. -/

/-- What is kept by every way to go on and holds of all places of a trail, holds of them after a
    move. -/
theorem places_move (step : ∀ way s, P s → P (go way s)) (h : ∀ s ∈ t.places, P s) (m : Move) :
    ∀ s ∈ (t.move go m).places, P s := by
  obtain ⟨here, kept⟩ := t
  obtain ⟨now, before⟩ := List.forall_mem_cons.mp h
  refine List.forall_mem_cons.mpr ?_
  cases m with
  | go way => exact ⟨step way here now, before⟩
  | keep =>
    refine ⟨now, ?_⟩
    show ∀ s ∈ kept ++ [here], P s
    rw [List.forall_mem_append]
    exact ⟨before, List.forall_mem_singleton.mpr now⟩
  | goTo which =>
    refine ⟨?_, before⟩
    show P (kept.getD which here)
    rw [List.getD_eq_getElem?_getD]
    cases found : kept[which]? with
    | none => exact now
    | some s => exact before s (List.mem_of_getElem? found)

/-- What is kept by every way to go on and holds of all places of a trail, holds of them after any
    moves. -/
theorem places_walk (step : ∀ way s, P s → P (go way s)) (h : ∀ s ∈ t.places, P s)
    (moves : List Move) : ∀ s ∈ (t.walk go moves).places, P s := by
  induction moves generalizing t with
  | nil => exact h
  | cons m moves ih => exact ih (places_move step h m)

/-! ## A trail seen as another

  The condition `P` is what two kinds of place need to agree: a pointer agrees with a reader where
  the reader is in its text. -/

variable {f : σ → τ} {go' : Way → τ → τ}

/-- If a place seen as another goes on as the other does, then a trail of such places makes a move
    as the other trail does. -/
theorem move_map (agree : ∀ way s, P s → go' way (f s) = f (go way s))
    (h : ∀ s ∈ t.places, P s) (m : Move) : (t.map f).move go' m = (t.move go m).map f := by
  cases m with
  | go way =>
    have now : P t.here := h _ List.mem_cons_self
    exact congrArg (Trail.mk · (t.kept.map f)) (agree way t.here now)
  | keep =>
    show Trail.mk (f t.here) (t.kept.map f ++ [f t.here]) = ⟨f t.here, (t.kept ++ [t.here]).map f⟩
    rw [List.map_append, List.map_singleton]
  | goTo which =>
    show Trail.mk ((t.kept.map f).getD which (f t.here)) _ = ⟨f (t.kept.getD which t.here), _⟩
    rw [List.getD_eq_getElem?_getD, List.getD_eq_getElem?_getD, List.getElem?_map,
      Option.getD_map]
    rfl

/-- If in addition the condition under which they agree is kept, a trail makes any moves as the
    other trail does. -/
theorem walk_map (agree : ∀ way s, P s → go' way (f s) = f (go way s))
    (step : ∀ way s, P s → P (go way s)) (h : ∀ s ∈ t.places, P s) (moves : List Move) :
    (t.map f).walk go' moves = (t.walk go moves).map f := by
  induction moves generalizing t with
  | nil => rfl
  | cons m moves ih =>
    show ((t.map f).move go' m).walk go' moves = ((t.move go m).walk go moves).map f
    rw [move_map agree h m]
    exact ih (places_move step h m)

/-! ## Small cases -/

example : ((start (Reader.start "ab\nc")).walk Reader.go
    [.keep, .go .line, .go .byte, .keep, .goTo 0, .go .byte]).places.map Reader.offset =
    [1, 0, 3] := by decide

end Trail

end Offside

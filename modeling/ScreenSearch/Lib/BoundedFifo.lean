import Mathlib.Data.List.Basic

/-!
# Bounded queues

A first-in first-out queue that never holds more than its capacity, and that drops what
comes while it is full.

Main result: `drain_eq` — draining to the newest item leaves an empty queue.
-/

namespace ScreenSearch

structure BoundedFifo (α : Type*) (capacity : Nat) where
  items : List α
  bounded : items.length ≤ capacity
  deriving DecidableEq, Repr

namespace BoundedFifo

variable {α : Type*} {capacity : Nat}

def empty : BoundedFifo α capacity := ⟨[], Nat.zero_le _⟩

/-- A full queue drops the item. -/
def push (q : BoundedFifo α capacity) (a : α) : BoundedFifo α capacity :=
  if h : q.items.length < capacity then ⟨q.items ++ [a], by rw [List.length_append]; exact h⟩ else q

/-- The oldest item. -/
def tryNext (q : BoundedFifo α capacity) : Option (α × BoundedFifo α capacity) :=
  match h : q.items with
  | a :: rest => some (a, ⟨rest, by
      have := q.bounded
      rw [h, List.length_cons] at this
      omega⟩)
  | [] => none

/-- Takes the items one by one, at most so many, and keeps the last. -/
def drain : Nat → BoundedFifo α capacity → Option α → Option α × BoundedFifo α capacity
  | 0, q, kept => (kept, q)
  | n + 1, q, kept =>
    match q.tryNext with
    | some (a, rest) => drain n rest (some a)
    | none => (kept, q)

theorem tryNext_nil {h : ([] : List α).length ≤ capacity} :
    tryNext (⟨[], h⟩ : BoundedFifo α capacity) = none := rfl

theorem tryNext_cons {a : α} {rest : List α} {h : (a :: rest).length ≤ capacity} :
    tryNext (⟨a :: rest, h⟩ : BoundedFifo α capacity) =
      some (a, ⟨rest, Nat.le_of_succ_le h⟩) := rfl

theorem drain_eq (n : Nat) (q : BoundedFifo α capacity) (kept : Option α)
    (h : q.items.length < n) : drain n q kept = (q.items.getLast?.or kept, empty) := by
  obtain ⟨items, hBounded⟩ := q
  induction items generalizing n kept with
  | nil =>
    rcases n with - | n
    · rfl
    · unfold drain
      rw [tryNext_nil]
      rfl
  | cons a rest ih =>
    rcases n with - | n
    · cases h
    unfold drain
    rw [tryNext_cons]
    dsimp only
    rw [ih n (some a) (Nat.le_of_succ_le hBounded) (by simpa using h)]
    rcases rest with - | ⟨b, rest⟩
    · rfl
    · rw [List.getLast?_cons_cons, List.getLast?_cons]
      rfl

end BoundedFifo

end ScreenSearch

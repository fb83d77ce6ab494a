import Mathlib.Data.List.Basic

/-!
A bounded first-in first-out queue, the abstract view of a fixed-size buffer.

The bound is a field, so a queue above its capacity cannot be built. Appending is
all-or-nothing; looking at the front changes nothing; removing takes what is there.
-/

namespace Lib

/-- A queue of at most `cap` items, oldest first. -/
@[ext] structure Fifo (α : Type) (cap : Nat) where
  items : List α
  bounded : items.length ≤ cap

namespace Fifo

variable {α : Type} {cap : Nat}

def empty : Fifo α cap := ⟨[], Nat.zero_le _⟩

/-- Room left in the queue. -/
def free (q : Fifo α cap) : Nat := cap - q.items.length

/-- Append all of `xs`, or nothing when they do not fit; the count is what was taken. -/
def push (q : Fifo α cap) (xs : List α) : Fifo α cap × Nat :=
  if h : xs.length ≤ q.free then
    (⟨q.items ++ xs, by
      have hq := q.bounded
      unfold free at h
      rw [List.length_append]
      omega⟩, xs.length)
  else (q, 0)

/-- The first `n` items, or all of them when there are fewer. -/
def peek (q : Fifo α cap) (n : Nat) : List α := q.items.take n

/-- Remove the first `n` items, or all of them when there are fewer. -/
def pop (q : Fifo α cap) (n : Nat) : Fifo α cap × Nat :=
  (⟨q.items.drop n, by
    have hq := q.bounded
    rw [List.length_drop]
    omega⟩, min n q.items.length)

@[simp] theorem empty_items : (empty : Fifo α cap).items = [] := rfl

theorem push_fits {q : Fifo α cap} {xs : List α} (h : xs.length ≤ q.free) :
    (q.push xs).1.items = q.items ++ xs ∧ (q.push xs).2 = xs.length := by
  simp [push, h]

theorem push_full {q : Fifo α cap} {xs : List α} (h : ¬ xs.length ≤ q.free) :
    q.push xs = (q, 0) := by
  simp [push, h]

@[simp] theorem pop_items (q : Fifo α cap) (n : Nat) : (q.pop n).1.items = q.items.drop n := rfl

end Fifo

end Lib

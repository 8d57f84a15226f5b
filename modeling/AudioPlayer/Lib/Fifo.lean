import Mathlib

/-!
# A bounded first-in first-out queue

The queue carries its bound, so a value that holds too much cannot be built: `push?` has no value
where the items do not fit. `pop` takes at most `n` items from the front.
-/

namespace Lib

variable {α : Type*} {cap n m : Nat} {xs ys : List α}

/-- At most `cap` items, oldest first. -/
@[ext] structure Fifo (α : Type*) (cap : Nat) where
  items : List α
  bound : items.length ≤ cap
deriving DecidableEq

namespace Fifo

def empty : Fifo α cap := ⟨[], Nat.zero_le _⟩

def free (q : Fifo α cap) : Nat := cap - q.items.length

/-- All of `xs` or nothing. -/
def push? (q : Fifo α cap) (xs : List α) : Option (Fifo α cap) :=
  if h : xs.length ≤ q.free then
    some ⟨q.items ++ xs, by have := q.bound; simp only [free, List.length_append] at *; omega⟩
  else none

/-- As much of `xs` as fits. -/
def pushPrefix (q : Fifo α cap) (xs : List α) : Fifo α cap :=
  ⟨q.items ++ xs.take q.free, by have := q.bound; simp only [free, List.length_append, List.length_take]; omega⟩

def pop (q : Fifo α cap) (n : Nat) : List α × Fifo α cap :=
  (q.items.take n, ⟨q.items.drop n, by have := q.bound; simp; omega⟩)

@[simp] theorem empty_items : (empty : Fifo α cap).items = [] := rfl

@[simp] theorem pushPrefix_items (q : Fifo α cap) (xs : List α) :
    (q.pushPrefix xs).items = q.items ++ xs.take q.free := rfl

@[simp] theorem pop_fst (q : Fifo α cap) (n : Nat) : (q.pop n).1 = q.items.take n := rfl

@[simp] theorem pop_items (q : Fifo α cap) (n : Nat) : (q.pop n).2.items = q.items.drop n := rfl

theorem length_add_free (q : Fifo α cap) : q.items.length + q.free = cap := by
  have := q.bound; unfold free; omega

theorem push?_eq_some {q r : Fifo α cap} :
    q.push? xs = some r ↔ xs.length ≤ q.free ∧ r.items = q.items ++ xs := by
  unfold push?
  split
  · simp only [Option.some.injEq, Fifo.ext_iff, *, true_and]; exact eq_comm
  · simp [*]

theorem push?_eq_none {q : Fifo α cap} : q.push? xs = none ↔ q.free < xs.length := by
  unfold push?; split <;> simp <;> omega

/-- What a pop hands out and what it leaves make up the queue. -/
theorem pop_append (q : Fifo α cap) (n : Nat) : (q.pop n).1 ++ (q.pop n).2.items = q.items :=
  List.take_append_drop _ _

end Fifo

end Lib

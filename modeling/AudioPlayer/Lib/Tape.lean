import Mathlib

/-!
# A tape

What is written goes behind what was written, and what is read stays where it is: until the tape is rewound,
its free part is what is behind everything written. A tape can be lengthened at any time.
-/

namespace Lib

variable {α : Type*} {n : Nat} {xs : List α}

/-- What was written since the last rewind, how much of it was read, and how much the tape holds. -/
@[ext] structure Tape (α : Type*) where
  written : List α
  read    : Nat
  size    : Nat
  read_le    : read ≤ written.length
  written_le : written.length ≤ size
deriving DecidableEq

namespace Tape

def blank (size : Nat) : Tape α := ⟨[], 0, size, Nat.le_refl 0, Nat.zero_le size⟩

def unread (t : Tape α) : List α := t.written.drop t.read

def free (t : Tape α) : Nat := t.size - t.written.length

/-- As much of `xs` as fits. -/
def push (t : Tape α) (xs : List α) : Tape α where
  written := t.written ++ xs.take t.free
  read := t.read
  size := t.size
  read_le := by have := t.read_le; rw [List.length_append]; omega
  written_le := by
    have := t.written_le
    simp only [free, List.length_append, List.length_take]
    omega

/-- At most `n` are read. -/
def pop (t : Tape α) (n : Nat) : Tape α where
  written := t.written
  read := min (t.read + n) t.written.length
  size := t.size
  read_le := Nat.min_le_right _ _
  written_le := t.written_le

/-- The tape holds at least `n`. -/
def grow (t : Tape α) (n : Nat) : Tape α where
  written := t.written
  read := t.read
  size := max t.size n
  read_le := t.read_le
  written_le := t.written_le.trans (Nat.le_max_left _ _)

def rewind (t : Tape α) : Tape α := blank t.size

@[simp] theorem unread_blank : (blank n : Tape α).unread = [] := rfl

@[simp] theorem unread_push (t : Tape α) (xs : List α) : (t.push xs).unread = t.unread ++ xs.take t.free :=
  List.drop_append_of_le_length t.read_le

@[simp] theorem unread_pop (t : Tape α) (n : Nat) : (t.pop n).unread = t.unread.drop n := by
  simp only [unread, pop, List.drop_drop]
  by_cases h : t.read + n ≤ t.written.length
  · rw [Nat.min_eq_left h]
  · rw [Nat.min_eq_right (by omega), List.drop_length, List.drop_eq_nil_of_le (by omega)]

@[simp] theorem unread_grow (t : Tape α) (n : Nat) : (t.grow n).unread = t.unread := rfl

@[simp] theorem unread_rewind (t : Tape α) : t.rewind.unread = [] := rfl

theorem length_unread (t : Tape α) : t.unread.length = t.written.length - t.read := List.length_drop

/-- More than there is cannot be popped. -/
theorem pop_length_take (t : Tape α) (n : Nat) : t.pop (t.unread.take n).length = t.pop n := by
  ext1
  · rfl
  · have h := t.read_le
    simp only [pop, List.length_take, length_unread]
    omega
  · rfl

/-- What a pop hands out and what it leaves make up what was unread. -/
theorem pop_append (t : Tape α) (n : Nat) : t.unread.take n ++ (t.pop n).unread = t.unread := by
  rw [unread_pop, List.take_append_drop]

end Tape

end Lib

import Mathlib

/-!
# Windows of a content

A content is a list that is read at positions. `Window R p xs` says that `xs` stands in `R` from position `p` on: a
buffer that was filled from `p` is such a window, what is taken from its front is one, what is left is one further on,
and what is fetched behind it makes it longer. `fetch R p n` is what a read of `n` at `p` gives.
-/

namespace Lib

variable {α : Type*} {R xs ys : List α} {p n k : Nat}

/-- `xs` stands in `R` from `p` on. -/
def Window (R : List α) (p : Nat) (xs : List α) : Prop := xs <+: R.drop p

/-- At most `n` from `p` on. -/
def fetch (R : List α) (p n : Nat) : List α := (R.drop p).take n

theorem fetch_length (R : List α) (p n : Nat) : (fetch R p n).length = min n (R.length - p) := by
  rw [fetch, List.length_take, List.length_drop]

theorem fetch_window (R : List α) (p n : Nat) : Window R p (fetch R p n) := List.take_prefix _ _

@[simp] theorem fetch_zero (R : List α) (p : Nat) : fetch R p 0 = [] := List.take_zero

/-- Reading on where a read has ended is reading more at once. -/
theorem fetch_add (R : List α) (p n k : Nat) : fetch R p (n + k) = fetch R p n ++ fetch R (p + n) k := by
  rw [fetch, fetch, fetch, List.take_add, List.drop_drop]

/-- A read that got less than it asked for has got all. -/
theorem fetch_all (h : R.length ≤ p + n) : fetch R p n = R.drop p :=
  List.take_of_length_le (by rw [List.length_drop]; omega)

/-- A read in two parts, of which the first may already have met the end. -/
theorem fetch_split (R : List α) (p : Nat) (hn : n ≤ k) :
    fetch R p k = fetch R p n ++ fetch R (p + (fetch R p n).length) (k - (fetch R p n).length) := by
  rw [fetch_length]
  rcases le_total n (R.length - p) with hle | hle
  · rw [min_eq_left hle, ← fetch_add, Nat.add_sub_cancel' hn]
  · have hend : fetch R (p + (R.length - p)) (k - (R.length - p)) = [] := by
      rw [fetch, List.drop_eq_nil_of_le (by omega), List.take_nil]
    rw [min_eq_right hle, hend, List.append_nil, fetch_all (n := n) (by omega), fetch_all (n := k) (by omega)]

namespace Window

theorem nil (R : List α) (p : Nat) : Window R p [] := List.nil_prefix

theorem length_le (h : Window R p xs) : xs.length ≤ R.length - p := by
  have hle := List.IsPrefix.length_le h
  rwa [List.length_drop] at hle

theorem eq_fetch (h : Window R p xs) : xs = fetch R p xs.length := List.prefix_iff_eq_take.1 h

/-- What is taken from its front is what a read gives, if there is enough. -/
theorem take (h : Window R p xs) (hn : n ≤ xs.length) : xs.take n = fetch R p n := by
  rw [h.eq_fetch, fetch, List.take_take, min_eq_left hn, fetch]

/-- What is left stands further on. -/
theorem drop (h : Window R p xs) (hn : n ≤ xs.length) : Window R (p + n) (xs.drop n) := by
  obtain ⟨rest, hrest⟩ := h
  refine ⟨rest, ?_⟩
  rw [← List.drop_drop, ← hrest, List.drop_append_of_le_length hn]

/-- What is fetched behind it makes it longer. -/
theorem append (h : Window R p xs) (hys : Window R (p + xs.length) ys) : Window R p (xs ++ ys) := by
  obtain ⟨rest, hrest⟩ := h
  have hdrop : R.drop (p + xs.length) = rest := by rw [← List.drop_drop, ← hrest, List.drop_left]
  rw [Window, hdrop] at hys
  rw [Window, ← hrest]
  exact (List.prefix_append_right_inj xs).2 hys

/-- A window that reaches the end is the rest of the content. -/
theorem all (h : Window R p xs) (hend : R.length ≤ p + xs.length) : xs = R.drop p := by
  rw [← fetch_all hend]
  exact h.eq_fetch

/-- Also where there is less than was asked for, if the window reaches the end. -/
theorem take_all (h : Window R p xs) (hend : n ≤ xs.length ∨ R.length ≤ p + xs.length) : xs.take n = fetch R p n := by
  rcases hend with hn | hend
  · exact h.take hn
  · rw [h.all hend, fetch]

/-- What a window holds is read through it. -/
theorem fetch (h : Window R p xs) (hk : k + n ≤ xs.length) : fetch R (p + k) n = fetch xs k n := by
  obtain ⟨rest, hrest⟩ := h
  rw [Lib.fetch, Lib.fetch, ← List.drop_drop, ← hrest, List.drop_append_of_le_length (by omega),
    List.take_append_of_le_length (by rw [List.length_drop]; omega)]

end Window

end Lib

import Mathlib

/-!
# Items of lists that follow each other

`Located lens x i j`: of parts with the lengths `lens`, item `x` of all is item `j` of part `i`. Where parts of one
length follow each other this is division with remainder (`Located.replicate`), and what is in front of parts is
counted first (`Located.right`).
-/

namespace Lib

variable {α : Type*}

structure Located (lens : List Nat) (x i j : Nat) : Prop where
  part   : ∃ n, lens[i]? = some n ∧ j < n
  before : (lens.take i).sum + j = x

namespace Located
variable {lens as bs : List Nat} {x i j : Nat}

theorem lt (h : Located lens x i j) : i < lens.length := by
  obtain ⟨n, hn, _⟩ := h.part
  exact (List.getElem?_eq_some_iff.1 hn).1

theorem replicate {m s : Nat} (hx : x < m * s) : Located (List.replicate m s) x (x / s) (x % s) := by
  have hs : 0 < s := by
    rcases Nat.eq_zero_or_pos s with rfl | hs
    · rw [Nat.mul_zero] at hx
      exact absurd hx (Nat.not_lt_zero x)
    · exact hs
  have hi : x / s < m := (Nat.div_lt_iff_lt_mul hs).2 hx
  refine ⟨⟨s, ?_, Nat.mod_lt x hs⟩, ?_⟩
  · rw [List.getElem?_replicate, if_pos hi]
  · rw [List.take_replicate, min_eq_left hi.le, List.sum_replicate, smul_eq_mul, Nat.div_add_mod' x s]

theorem left (h : Located as x i j) (bs : List Nat) : Located (as ++ bs) x i j := by
  refine ⟨?_, ?_⟩
  · rw [List.getElem?_append_left h.lt]
    exact h.part
  · rw [List.take_append_of_le_length h.lt.le]
    exact h.before

theorem right (h : Located bs x i j) (as : List Nat) : Located (as ++ bs) (as.sum + x) (as.length + i) j := by
  refine ⟨?_, ?_⟩
  · rw [List.getElem?_append_right (Nat.le_add_right _ _), Nat.add_sub_cancel_left]
    exact h.part
  · have hbefore := h.before
    rw [List.take_length_add_append, List.sum_append]
    omega

/-- What is in front is not in the part. -/
theorem le (h : Located lens x i j) : (lens.take i).sum ≤ x := by
  have := h.before
  omega

end Located

/-- Where an item of parts that follow each other is found. -/
theorem flatten_getElem? (xss : List (List α)) {x i j : Nat} (h : Located (xss.map List.length) x i j) :
    xss.flatten[x]? = xss[i]?.bind fun xs => xs[j]? := by
  induction xss generalizing x i with
  | nil => exact absurd h.lt (Nat.not_lt_zero i)
  | cons xs xss ih =>
    obtain ⟨⟨n, hn, hj⟩, hbefore⟩ := h
    cases i with
    | zero =>
      simp only [List.map_cons, List.getElem?_cons_zero, Option.some.injEq, List.take_zero, List.sum_nil,
        Nat.zero_add] at hn hbefore
      subst hbefore
      rw [List.flatten_cons, List.getElem?_append_left (by omega), List.getElem?_cons_zero, Option.bind_some]
    | succ i =>
      simp only [List.map_cons, List.getElem?_cons_succ, List.take_succ_cons, List.sum_cons] at hn hbefore
      have hrest : Located (xss.map List.length) (x - xs.length) i j := ⟨⟨n, hn, hj⟩, by omega⟩
      rw [List.flatten_cons, List.getElem?_append_right (by omega), List.getElem?_cons_succ]
      exact ih hrest

/-- And what is behind the items in front of its part. -/
theorem flatten_drop {xss : List (List α)} {xs : List α} {x i j : Nat} (h : Located (xss.map List.length) x i j)
    (hi : xss[i]? = some xs) : xss.flatten.drop (x - j) = xs ++ (xss.drop (i + 1)).flatten := by
  have hlt : i < xss.length := (List.getElem?_eq_some_iff.1 hi).1
  have hbefore : x - j = (xss.take i).flatten.length := by
    rw [List.length_flatten, List.map_take]
    have := h.before
    omega
  have hsplit : xss = xss.take i ++ xs :: xss.drop (i + 1) := by
    obtain ⟨hlt, rfl⟩ := List.getElem?_eq_some_iff.1 hi
    rw [List.getElem_cons_drop hlt, List.take_append_drop]
  rw [hbefore]
  conv_lhs => rw [hsplit]
  rw [List.flatten_append, List.flatten_cons, List.take_append_of_le_length (by rw [List.length_take]; omega),
    List.take_take, min_self, List.drop_left]

end Lib

import Mathlib

/-!
# A cursor that runs through a list and leaves it at both ends

A cursor on `n` items stands on one of them or on none. Moving on from none comes to the first item and moving on from
the last comes to none, and moving back is the same the other way round. `position` numbers the places from 0 (none)
to `n`; there the two moves add and subtract 1 modulo `n + 1`, and the laws of the moves are those of this addition.
-/

namespace Lib.Cursor

variable {n : Nat}

/-- The next place. -/
def next : Option (Fin n) → Option (Fin n)
  | none => if h : 0 < n then some ⟨0, h⟩ else none
  | some i => if h : i + 1 < n then some ⟨i + 1, h⟩ else none

/-- The place before. -/
def prev : Option (Fin n) → Option (Fin n)
  | none => if h : 0 < n then some ⟨n - 1, by omega⟩ else none
  | some i => if 0 < i.val then some ⟨i - 1, by omega⟩ else none

/-- The number of a place. -/
def position : Option (Fin n) ≃ Fin (n + 1) := (finSuccEquiv n).symm

@[simp] theorem position_none : position (none : Option (Fin n)) = 0 := finSuccEquiv_symm_none

@[simp] theorem position_some (i : Fin n) : position (some i) = i.succ := finSuccEquiv_symm_some i

theorem val_add_one_mod (a : Fin (n + 1)) : (a + 1).val = (a.val + 1) % (n + 1) := by
  rw [Fin.val_add, Fin.coe_ofNat_eq_mod, Nat.add_mod_mod]

theorem position_next (c : Option (Fin n)) : position (next c) = position c + 1 := by
  apply Fin.ext
  rw [val_add_one_mod]
  cases c with
  | none =>
    by_cases h : 0 < n
    · simp only [next, dif_pos h, position_some, Fin.val_succ, position_none, Fin.val_zero]
      exact (Nat.mod_eq_of_lt (by omega)).symm
    · simp only [next, dif_neg h, position_none, Fin.val_zero]
      rw [show 0 + 1 = n + 1 by omega, Nat.mod_self]
  | some i =>
    by_cases h : i.val + 1 < n
    · simp only [next, dif_pos h, position_some, Fin.val_succ]
      exact (Nat.mod_eq_of_lt (by omega)).symm
    · simp only [next, dif_neg h, position_none, Fin.val_zero, position_some, Fin.val_succ]
      rw [show i.val + 1 + 1 = n + 1 by omega, Nat.mod_self]

theorem position_prev (c : Option (Fin n)) : position (prev c) + 1 = position c := by
  apply Fin.ext
  rw [val_add_one_mod]
  cases c with
  | none =>
    by_cases h : 0 < n
    · simp only [prev, dif_pos h, position_some, Fin.val_succ, position_none, Fin.val_zero]
      rw [show n - 1 + 1 + 1 = n + 1 by omega, Nat.mod_self]
    · simp only [prev, dif_neg h, position_none, Fin.val_zero]
      rw [show 0 + 1 = n + 1 by omega, Nat.mod_self]
  | some i =>
    by_cases h : 0 < i.val
    · simp only [prev, if_pos h, position_some, Fin.val_succ]
      rw [Nat.mod_eq_of_lt (by omega)]
      omega
    · simp only [prev, if_neg h, position_none, Fin.val_zero, position_some, Fin.val_succ]
      rw [Nat.mod_eq_of_lt (by omega)]
      omega

/-- Moving on and back. -/
theorem prev_next (c : Option (Fin n)) : prev (next c) = c :=
  position.injective (add_right_cancel ((position_prev (next c)).trans (position_next c)))

/-- Moving back and on. -/
theorem next_prev (c : Option (Fin n)) : next (prev c) = c :=
  position.injective ((position_next (prev c)).trans (position_prev c))

theorem position_iterate_next (k : Nat) (c : Option (Fin n)) :
    (position (next^[k] c)).val = ((position c).val + k) % (n + 1) := by
  induction k with
  | zero => exact (Nat.mod_eq_of_lt (position c).isLt).symm
  | succ k ih => rw [Function.iterate_succ_apply', position_next, val_add_one_mod, ih, Nat.mod_add_mod, Nat.add_assoc]

theorem position_iterate_prev (k : Nat) (c : Option (Fin n)) :
    ((position (prev^[k] c)).val + k) % (n + 1) = (position c).val := by
  induction k with
  | zero => exact Nat.mod_eq_of_lt (position c).isLt
  | succ k ih =>
    rw [Function.iterate_succ_apply', Nat.add_comm k 1, ← Nat.add_assoc, ← Nat.mod_add_mod, ← val_add_one_mod,
      position_prev, ih]

/-- Once around. -/
theorem iterate_next_succ (c : Option (Fin n)) : next^[n + 1] c = c := by
  apply position.injective
  apply Fin.ext
  rw [position_iterate_next, Nat.add_mod_right, Nat.mod_eq_of_lt (position c).isLt]

/-- Once around the other way. -/
theorem iterate_prev_succ (c : Option (Fin n)) : prev^[n + 1] c = c := by
  apply position.injective
  apply Fin.ext
  have h := position_iterate_prev (n + 1) c
  rwa [Nat.add_mod_right, Nat.mod_eq_of_lt (position _).isLt] at h

/-- From none, the `k`-th move comes to the `k`-th item. -/
theorem iterate_next_none {k : Nat} (hk : k < n) : next^[k + 1] (none : Option (Fin n)) = some ⟨k, hk⟩ := by
  apply position.injective
  apply Fin.ext
  rw [position_iterate_next, position_none, position_some, Fin.val_zero, Nat.zero_add, Fin.val_succ,
    Nat.mod_eq_of_lt (by omega)]

/-- From none, the `k`-th move back comes to the `k`-th item from the end. -/
theorem iterate_prev_none {k : Nat} (hk : k < n) :
    prev^[k + 1] (none : Option (Fin n)) = some ⟨n - 1 - k, by omega⟩ := by
  -- going on as often as it went back comes to none again
  have h : next^[k + 1] (some ⟨n - 1 - k, by omega⟩ : Option (Fin n)) = none := by
    apply position.injective
    apply Fin.ext
    rw [position_iterate_next, position_none, position_some, Fin.val_zero, Fin.val_succ,
      show n - 1 - k + 1 + (k + 1) = n + 1 by omega, Nat.mod_self]
  rw [← h]
  exact Function.LeftInverse.iterate prev_next (k + 1) _

end Lib.Cursor

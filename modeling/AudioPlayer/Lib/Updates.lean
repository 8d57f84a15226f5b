import Mathlib

/-!
# Folds where the last update wins

A state component that every element of a list overwrites (`upd a = some v`) or leaves alone (`none`) ends
up as what the last overwriting element says: `foldl_lastOf`. That does not depend on the order exactly
where the elements agree: `decides_lastOf`.
-/

namespace Lib

variable {α β σ : Type*} {upd : α → Option β} {as : List α} {d v : β}

/-- What the last element that says something says. -/
def lastOf (upd : α → Option β) : List α → Option β
  | [] => none
  | a :: as => (lastOf upd as).or (upd a)

/-- All elements that say something say the same. -/
def Agree (upd : α → Option β) (as : List α) : Prop :=
  ∀ a ∈ as, ∀ b ∈ as, ∀ v w, upd a = some v → upd b = some w → v = w

/-- `v` is what every element that says something says, and `d` where none does. -/
def Decides (upd : α → Option β) (as : List α) (d v : β) : Prop :=
  (∀ a ∈ as, ∀ w, upd a = some w → v = w) ∧ ((∀ a ∈ as, upd a = none) → v = d)

theorem agree_of_said (h : ∀ a ∈ as, upd a = none ∨ upd a = some v) : Agree upd as := by
  intro a ha b hb w w' hw hw'
  rcases h a ha with hnone | hsome
  · cases hnone.symm.trans hw
  · rcases h b hb with hnone' | hsome'
    · cases hnone'.symm.trans hw'
    · exact Option.some.inj (hw.symm.trans (hsome.trans (hsome'.symm.trans hw')))

theorem lastOf_mem (h : lastOf upd as = some v) : ∃ a ∈ as, upd a = some v := by
  induction as with
  | nil => simp [lastOf] at h
  | cons a as ih =>
    rw [lastOf, Option.or_eq_some_iff] at h
    rcases h with h | ⟨-, h⟩
    · obtain ⟨b, hb, hv⟩ := ih h
      exact ⟨b, List.mem_cons_of_mem _ hb, hv⟩
    · exact ⟨a, List.mem_cons_self, h⟩

theorem lastOf_eq_none : lastOf upd as = none ↔ ∀ a ∈ as, upd a = none := by
  induction as with
  | nil => simp [lastOf]
  | cons a as ih => rw [lastOf, Option.or_eq_none_iff, ih, List.forall_mem_cons, and_comm]

theorem lastOf_eq (h : ∀ a ∈ as, ∀ w, upd a = some w → w = v) (hex : ∃ a ∈ as, upd a ≠ none) :
    lastOf upd as = some v := by
  cases hl : lastOf upd as with
  | none =>
    obtain ⟨a, ha, hne⟩ := hex
    exact absurd (lastOf_eq_none.1 hl a ha) hne
  | some w =>
    obtain ⟨a, ha, hw⟩ := lastOf_mem hl
    rw [h a ha w hw]

/-- The last word is everybody's word exactly where all agree. -/
theorem decides_lastOf : Decides upd as d ((lastOf upd as).getD d) ↔ Agree upd as := by
  constructor
  · rintro ⟨h, -⟩ a ha b hb v w hv hw
    exact (h a ha v hv).symm.trans (h b hb w hw)
  · intro h
    cases hl : lastOf upd as with
    | none =>
      refine ⟨fun a ha w hw => ?_, fun _ => rfl⟩
      rw [lastOf_eq_none.1 hl a ha] at hw
      cases hw
    | some v =>
      obtain ⟨b, hb, hv⟩ := lastOf_mem hl
      refine ⟨fun a ha w hw => h b hb a ha v w hv hw, fun hn => ?_⟩
      rw [hn b hb] at hv
      cases hv

/-- **The last update wins**: by induction on the list, from what one step does. -/
theorem foldl_lastOf {step : σ → α → σ} (get : σ → β) (hstep : ∀ s a, get (step s a) = (upd a).getD (get s)) (s : σ) :
    get (as.foldl step s) = (lastOf upd as).getD (get s) := by
  induction as generalizing s with
  | nil => rfl
  | cons a as ih =>
    rw [List.foldl_cons, ih, hstep, lastOf]
    cases lastOf upd as <;> rfl

theorem lastOf_congr {upd' : α → Option β} (h : ∀ a ∈ as, upd a = upd' a) : lastOf upd as = lastOf upd' as := by
  induction as with
  | nil => rfl
  | cons a as ih =>
    rw [lastOf, lastOf, h a List.mem_cons_self, ih fun b hb => h b (List.mem_cons_of_mem _ hb)]

/-- A flag that is only ever set. -/
theorem foldl_flag {step : σ → α → σ} (get : σ → Bool) {p : α → Bool}
    (hstep : ∀ s a, get (step s a) = if p a then true else get s) (s : σ) :
    get (as.foldl step s) = true ↔ get s = true ∨ ∃ a ∈ as, p a = true := by
  induction as generalizing s with
  | nil => simp
  | cons a as ih =>
    rw [List.foldl_cons, ih, hstep]
    by_cases ha : p a <;> simp [ha]

/-- A component no step touches. -/
theorem foldl_frame (step : σ → α → σ) (get : σ → β) (hstep : ∀ s a, get (step s a) = get s) (s : σ) :
    get (as.foldl step s) = get s := by
  induction as generalizing s with
  | nil => rfl
  | cons a as ih => rw [List.foldl_cons, ih, hstep]

end Lib

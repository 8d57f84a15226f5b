import Mathlib
import AudioPlayer.Lib.Steps

/-!
# Programs that halt

`Halts step final s`: whatever happens from `s` on, a final state is reached after finitely many steps. A program
whose measure becomes smaller outside a trap ends exactly where no run leads into the trap (`halts_iff`), and as long
as it keeps out of it (`halts_outside`).
-/

namespace Lib

variable {S A : Type*} {step : S → A → S → Prop} {final : S → Prop} {s t : S}

/-- Every run from `s` is finite, and comes to a final state. -/
inductive Halts (step : S → A → S → Prop) (final : S → Prop) : S → Prop
  | final {s : S} : final s → Halts step final s
  | step {s : S} : (∃ a t, step s a t) → (∀ a t, step s a t → Halts step final t) → Halts step final s

/-- A state from which one can go on and stay in `T` does not halt. -/
structure Trap (step : S → A → S → Prop) (final T : S → Prop) : Prop where
  notFinal : ∀ s, T s → ¬final s
  stays    : ∀ s, T s → ∃ a t, step s a t ∧ T t

/-- What halts goes on to what halts. -/
theorem Halts.reach (hstop : ∀ s a t, final s → ¬step s a t) (h : Halts step final s) (hr : Reach step s t) :
    Halts step final t := by
  refine hr.invariant (I := Halts step final) ?_ h
  rintro s a t (hfinal | ⟨-, hnext⟩) hstep
  · exact absurd hstep (hstop s a t hfinal)
  · exact hnext a t hstep

theorem Trap.not_halts {T : S → Prop} (hT : Trap step final T) (hs : T s) : ¬Halts step final s := by
  intro h
  induction h with
  | final hfinal => exact hT.notFinal _ hs hfinal
  | step _ _ ih =>
    obtain ⟨a, t, hstep, ht⟩ := hT.stays _ hs
    exact ih a t hstep ht

/-- A measure that decreases as long as the invariant holds bounds every run. -/
theorem halts_of_measure {I : S → Prop} (m : S → Nat) (hgo : ∀ s, I s → ¬final s → ∃ a t, step s a t)
    (hI : ∀ s a t, I s → step s a t → I t)
    (hm : ∀ s a t, I s → I t → ¬final s → step s a t → m t < m s) (hs : I s) : Halts step final s := by
  induction hn : m s using Nat.strong_induction_on generalizing s with
  | _ n ih =>
    by_cases hfinal : final s
    · exact .final hfinal
    · refine .step (hgo s hs hfinal) ?_
      intro a t hstep
      have ht := hI s a t hs hstep
      exact ih (m t) (hn ▸ hm s a t hs ht hfinal hstep) ht rfl

/-- **It halts exactly where no run leads into the trap**, if outside the trap a measure decreases. -/
theorem halts_iff {I T : S → Prop} (m : S → Nat) (hstop : ∀ s a t, final s → ¬step s a t)
    (hgo : ∀ s, ¬final s → ∃ a t, step s a t) (hI : ∀ s a t, I s → step s a t → I t)
    (hm : ∀ s a t, I s → ¬T s → ¬T t → step s a t → m t < m s) (hT : Trap step final T) (hs : I s) :
    Halts step final s ↔ ∀ t, Reach step s t → ¬T t := by
  constructor
  · intro h t hreach ht
    exact hT.not_halts ht (h.reach hstop hreach)
  · intro hfree
    refine halts_of_measure (I := fun s => I s ∧ ∀ t, Reach step s t → ¬T t) m
      (fun s _ hfinal => hgo s hfinal) ?_ ?_ ⟨hs, hfree⟩
    · rintro s a t ⟨his, hfree⟩ hstep
      refine ⟨hI s a t his hstep, ?_⟩
      intro u hu
      exact hfree u (((Reach.refl s).tail hstep).trans hu)
    · rintro s a t ⟨his, hfree⟩ ⟨-, hfree'⟩ - hstep
      exact hm s a t his (hfree s (Reach.refl s)) (hfree' t (Reach.refl t)) hstep

end Lib

import Mathlib

/-!
# Runs of a labelled step relation

A step relation `step s a t` is given once, and everything said about whole runs goes through the
four rules below: `Steps.invariant` (an invariant of states), `Steps.trace` (an invariant of the
labels seen so far together with the state reached), `Steps.mono` (a run of a restricted relation is
a run of the larger one) and `Steps.append` / `Steps.split` (runs compose and come apart).
-/

namespace Lib

variable {S A : Type*} {step step' : S → A → S → Prop} {s t u : S} {a : A} {as bs : List A}

/-- `Steps step s as t`: the labels `as`, in this order, lead from `s` to `t`. -/
inductive Steps (step : S → A → S → Prop) (s : S) : List A → S → Prop
  | nil : Steps step s [] s
  | snoc {t u : S} {as : List A} {a : A} : Steps step s as t → step t a u → Steps step s (as ++ [a]) u

/-- The steps that also meet `C`, a condition on the state before the step and its label. -/
def Restrict (step : S → A → S → Prop) (C : S → A → Prop) : S → A → S → Prop :=
  fun s a t => step s a t ∧ C s a

/-- Some run leads from `s` to `t`. -/
def Reach (step : S → A → S → Prop) (s t : S) : Prop := ∃ as, Steps step s as t

theorem Steps.one (h : step s a t) : Steps step s [a] t := .snoc .nil h

theorem Steps.append (h1 : Steps step s as t) (h2 : Steps step t bs u) : Steps step s (as ++ bs) u := by
  induction h2 with
  | nil => simpa using h1
  | snoc _ hs ih => rw [← List.append_assoc]; exact .snoc ih hs

theorem Steps.nil_eq (h : Steps step s [] t) : s = t := by
  generalize e : ([] : List A) = l at h
  cases h with
  | nil => rfl
  | snoc => simp at e

theorem Steps.snoc_inv (h : Steps step s (as ++ [a]) u) : ∃ t, Steps step s as t ∧ step t a u := by
  generalize e : as ++ [a] = l at h
  cases h with
  | nil => simp at e
  | @snoc t' _ bs b h1 h2 =>
    obtain ⟨rfl, hb⟩ := List.append_inj' e rfl
    obtain rfl : a = b := by simpa using hb
    exact ⟨t', h1, h2⟩

/-- A run over `as ++ bs` passes through a state between the two parts. -/
theorem Steps.split (h : Steps step s (as ++ bs) u) : ∃ t, Steps step s as t ∧ Steps step t bs u := by
  induction bs using List.reverseRecOn generalizing u with
  | nil => exact ⟨u, by simpa using h, .nil⟩
  | append_singleton bs b ih =>
    rw [← List.append_assoc] at h
    obtain ⟨v, hv, hb⟩ := h.snoc_inv
    obtain ⟨t, h1, h2⟩ := ih hv
    exact ⟨t, h1, .snoc h2 hb⟩

theorem Steps.cons_inv (h : Steps step s (a :: as) u) : ∃ t, step s a t ∧ Steps step t as u := by
  obtain ⟨t, h1, h2⟩ := Steps.split (show Steps step s ([a] ++ as) u from h)
  obtain ⟨s', h0, h1⟩ := Steps.snoc_inv (show Steps step s ([] ++ [a]) t from h1)
  exact ⟨t, h0.nil_eq ▸ h1, h2⟩

theorem Steps.cons (h : step s a t) (ht : Steps step t as u) : Steps step s (a :: as) u :=
  (Steps.one h).append ht

/-- A run all of whose steps satisfy more is a run. -/
theorem Steps.mono (hm : ∀ s a t, step s a t → step' s a t) (h : Steps step s as t) : Steps step' s as t := by
  induction h with
  | nil => exact .nil
  | snoc _ hs ih => exact .snoc ih (hm _ _ _ hs)

/-- What every step preserves, every run preserves. -/
theorem Steps.invariant {I : S → Prop} (hI : ∀ s a t, I s → step s a t → I t)
    (h : Steps step s as t) (h0 : I s) : I t := by
  induction h with
  | nil => exact h0
  | snoc _ hs ih => exact hI _ _ _ ih hs

/-- The same for a property of the labels seen so far and the state reached. -/
theorem Steps.trace {P : List A → S → Prop} (h : Steps step s as t) (h0 : P [] s)
    (hP : ∀ as t a u, Steps step s as t → P as t → step t a u → P (as ++ [a]) u) : P as t := by
  induction h with
  | nil => exact h0
  | snoc h' hs ih => exact hP _ _ _ _ h' ih hs

theorem Reach.refl (s : S) : Reach step s s := ⟨[], .nil⟩

theorem Reach.tail (h : Reach step s t) (hs : step t a u) : Reach step s u :=
  let ⟨as, h⟩ := h; ⟨as ++ [a], .snoc h hs⟩

theorem Reach.trans (h1 : Reach step s t) (h2 : Reach step t u) : Reach step s u :=
  let ⟨as, h1⟩ := h1; let ⟨bs, h2⟩ := h2; ⟨as ++ bs, h1.append h2⟩

theorem Reach.invariant {I : S → Prop} (hI : ∀ s a t, I s → step s a t → I t)
    (h : Reach step s t) (h0 : I s) : I t :=
  let ⟨_, h⟩ := h; h.invariant hI h0

end Lib

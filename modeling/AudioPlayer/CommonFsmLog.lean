import Mathlib
import AudioPlayer.CommonFsm

/-!
# What a state machine does outside (`utils/common_fsm.c`)

Actions call what is not theirs: a user's callback, the sound device, the heap. `comFsmLogged` runs a state machine
whose actions tell which calls they make. A listener hears only the calls and follows them with a partial step
`follow`; `Followed.dispatch` is the rule that it stays right over a turn, from what each row of the table does.
-/

namespace AudioPlayer

variable {A U V L D : Type*}

/-- The new state, as `com_fsm_task` takes the answer `next` of an action (`common_fsm.c:83-87`). -/
def settled (old next : Word) : Word := if next = comFsmHoldState then old else next

/-- The action with its calls behind those made so far. -/
def comFsmLogged (exec : A → U → (U × Word) × List L) (a : A) (u : U × List L) : (U × List L) × Word :=
  (((exec a u.1).1.1, u.2 ++ (exec a u.1).2), (exec a u.1).1.2)

/-- Where a listener that is at `d` is after `log`; `none` if it heard what it cannot follow. -/
def follows (follow : D → L → Option D) (d : D) (log : List L) : Option D := log.foldlM follow d

section
variable {exec : A → U → (U × Word) × List L} {lookup : List (ComFsmLookup A)} {s E : Word}
  {follow : D → L → Option D} {d : D}

theorem follows_append (follow : D → L → Option D) (d : D) (xs ys : List L) :
    follows follow d (xs ++ ys) = (follows follow d xs).bind (follows follow · ys) := List.foldlM_append

/-- What a turn comes to: nothing, or the action of one row for the state. -/
theorem comFsmDispatch_cases (exec : A → U → U × Word) (lookup : List (ComFsmLookup A)) (s : Word) (u : U)
    (E : Word) : comFsmDispatch exec lookup s u E = (s, u, []) ∨ ∃ l ∈ lookup, l.state = s ∧
      comFsmDispatch exec lookup s u E = (settled s (exec l.action u).2, (exec l.action u).1, [l.action]) := by
  unfold comFsmDispatch
  split
  · exact .inl rfl
  cases hl : comFsmSelect lookup s E with
  | none => exact .inl rfl
  | some l =>
    obtain ⟨hmem, hstate⟩ := comFsmSelect_mem hl
    refine .inr ⟨l, hmem, hstate, ?_⟩
    unfold settled
    dsimp only
    by_cases hhold : (exec l.action u).2 = comFsmHoldState
    · rw [if_neg fun h' => h'.1 hhold, if_pos hhold]
    · rw [if_neg hhold]
      by_cases heq : (exec l.action u).2 = s
      · rw [if_neg fun h' => h'.2 heq, heq]
      · rw [if_pos ⟨hhold, heq⟩]

/-- The calls change nothing. -/
theorem comFsmLogged_dispatch (exec : A → U → (U × Word) × List L) (lookup : List (ComFsmLookup A)) (s : Word)
    (u : U × List L) (E : Word) : comFsmDispatch (fun a u => (exec a u).1) lookup s u.1 E =
      ((comFsmDispatch (comFsmLogged exec) lookup s u E).1, (comFsmDispatch (comFsmLogged exec) lookup s u E).2.1.1,
        (comFsmDispatch (comFsmLogged exec) lookup s u E).2.2) := by
  unfold comFsmDispatch
  split
  · rfl
  cases comFsmSelect lookup s E with
  | none => rfl
  | some l => rfl

/-- **A listener that every row keeps right is right after every turn**: `speaks` is what it knows of a state. -/
theorem Followed.dispatch (speaks : Word → D) {u : U × List L}
    (hrow : ∀ l ∈ lookup, l.state = s →
      follows follow (speaks s) (exec l.action u.1).2 = some (speaks (settled s (exec l.action u.1).1.2)))
    (h : follows follow d u.2 = some (speaks s)) :
    follows follow d (comFsmDispatch (comFsmLogged exec) lookup s u E).2.1.2 =
      some (speaks (comFsmDispatch (comFsmLogged exec) lookup s u E).1) := by
  rcases comFsmDispatch_cases (comFsmLogged exec) lookup s u E with hnone | ⟨l, hl, hstate, hres⟩
  · rw [hnone]
    exact h
  · rw [hres]
    unfold comFsmLogged
    rw [follows_append, h]
    exact hrow l hl hstate

end

end AudioPlayer

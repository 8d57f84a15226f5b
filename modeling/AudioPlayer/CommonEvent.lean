import Mathlib

/-!
# Event groups (`src/common_event.c`, `os/typedefs.h:118-125`)

`xEventGroupSetBits`, `xEventGroupWaitBits` and `xEventGroupClearBits` are the three functions below,
each run under the group's mutex, so each is one step on the event word. `commonWaitEvent` is the part
of `common_wait_event` that looks at the word: what it finds of its mask, and the word it leaves
behind. Whoever calls it decides when it runs: a wait returns only at a moment when what it finds is
not zero, or by its timeout (`common_event.c:52-54`), which leaves the word alone.
-/

namespace AudioPlayer

/-- `uint32_t` -/
abbrev Word := BitVec 32

/-- `common_set_event` (`common_event.c:16-24`). -/
def commonSetEvent (event events : Word) : Word := event ||| events

/-- `common_wait_event` at the moment it looks (`common_event.c:32`, `:61-63`): the bits it returns and
the word it leaves. -/
def commonWaitEvent (event events : Word) : Word × Word :=
  let ret := event &&& events
  (ret, event &&& ~~~ret)

/-- `common_clear_event` (`common_event.c:74-81`). -/
def commonClearEvent (event events : Word) : Word := event &&& ~~~events

variable {event events : Word} {i : Nat}

@[simp] theorem bit_commonSetEvent :
    (commonSetEvent event events).getLsbD i = (event.getLsbD i || events.getLsbD i) := by
  simp [commonSetEvent]

@[simp] theorem bit_commonWaitEvent_fst :
    (commonWaitEvent event events).1.getLsbD i = (event.getLsbD i && events.getLsbD i) := by
  simp [commonWaitEvent]

@[simp] theorem bit_commonWaitEvent_snd :
    (commonWaitEvent event events).2.getLsbD i = (event.getLsbD i && !events.getLsbD i) := by
  by_cases hi : i < 32
  · simp only [commonWaitEvent, BitVec.getLsbD_and, BitVec.getLsbD_not, hi, decide_true, Bool.true_and]
    cases event.getLsbD i <;> simp
  · simp [BitVec.getLsbD_of_ge _ _ (Nat.le_of_not_lt hi)]

@[simp] theorem bit_commonClearEvent :
    (commonClearEvent event events).getLsbD i = (event.getLsbD i && !events.getLsbD i) := by
  by_cases hi : i < 32
  · simp [commonClearEvent, hi]
  · simp [BitVec.getLsbD_of_ge _ _ (Nat.le_of_not_lt hi)]

/-- Two masks share a bit exactly when their conjunction is not zero. -/
theorem and_ne_zero_iff {a b : Word} : a &&& b ≠ 0 ↔ ∃ i, a.getLsbD i ∧ b.getLsbD i := by
  constructor
  · intro h
    by_contra hn
    refine h (BitVec.eq_of_getLsbD_eq fun i _ => ?_)
    have : ¬ (a.getLsbD i = true ∧ b.getLsbD i = true) := fun hi => hn ⟨i, hi⟩
    simpa using this
  · rintro ⟨i, ha, hb⟩ h
    have : (a &&& b).getLsbD i = true := by simp [ha, hb]
    simp [h] at this

end AudioPlayer

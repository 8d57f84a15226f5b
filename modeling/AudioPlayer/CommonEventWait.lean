import Mathlib
import AudioPlayer.Lib.Steps
import AudioPlayer.CommonEvent

/-!
# Threads that wait on one event group (`src/common_event.c`)

| step | there |
| --- | --- |
| `set e`      | `common_set_event`: the bits, then `pthread_cond_signal` (`:16-24`) |
| `clear e`    | `common_clear_event` (`:74-81`) |
| `wait t m d` | `t` calls `common_wait_event` with mask `m`, a timeout above zero iff `d` (`:26-32`) |
| `recheck t`  | `t` has the mutex again after a wake-up (`:55-57`) |
| `timeout t`  | `pthread_cond_timedwait` returns `ETIMEDOUT` (`:52-53`) |

Every call holds the mutex from its first access to its last or to the moment it sleeps, so each is one step.
`pthread_cond_signal` wakes any one sleeper; a woken thread is on its way until it re-checks.

A waiter that finds bits hands the signal on if bits are left (`:65-67`), but one that finds none sleeps again
and keeps it. `commonEvent_not_stranded` says that no set bit is slept through where such a thread waits for all that
the sleepers wait for, as where all masks are one.
-/

namespace AudioPlayer
open Lib

variable {T : Type*}

/-- Where a thread stands: outside, asleep on the condition variable, or woken and about to look again. -/
inductive WaiterPc
  | outside
  | blocked (events : Word)
  | woken (events : Word)
deriving DecidableEq, Repr

/-- `common_event_t` and the threads that use it. -/
structure EventGroup (T : Type*) where
  event : Word
  pc    : T → WaiterPc

inductive EventAct (T : Type*)
  | set (events : Word)
  | clear (events : Word)
  | wait (t : T) (events : Word) (timeout : Bool)
  | recheck (t : T)
  | timeout (t : T)

/-- `common_create_event` (`:3-14`). -/
def commonCreateEvent : EventGroup T := ⟨0, fun _ => .outside⟩

section
variable [DecidableEq T]

/-- `pthread_cond_signal`. -/
inductive Signal : (T → WaiterPc) → (T → WaiterPc) → Prop
  | wake {pc t m} : pc t = .blocked m → Signal pc (Function.update pc t (.woken m))
  | nobody {pc} : (∀ t m, pc t ≠ .blocked m) → Signal pc pc

/-- Handing the signal on, if bits are left. -/
inductive PassOn (event : Word) : (T → WaiterPc) → (T → WaiterPc) → Prop
  | signal {pc pc'} : event ≠ 0 → Signal pc pc' → PassOn event pc pc'
  | empty {pc} : event = 0 → PassOn event pc pc

inductive EventStep : EventGroup T → EventAct T → EventGroup T → Prop
  | set {s e pc'} : Signal s.pc pc' → EventStep s (.set e) ⟨commonSetEvent s.event e, pc'⟩
  | clear {s e} : EventStep s (.clear e) { s with event := commonClearEvent s.event e }
  | waitFound {s t m d pc'} : s.pc t = .outside → (commonWaitEvent s.event m).1 ≠ 0 →
      PassOn (commonWaitEvent s.event m).2 s.pc pc' →
      EventStep s (.wait t m d) ⟨(commonWaitEvent s.event m).2, pc'⟩
  | waitBlock {s t m} : s.pc t = .outside → (commonWaitEvent s.event m).1 = 0 →
      EventStep s (.wait t m true) { s with pc := Function.update s.pc t (.blocked m) }
  | waitReturn {s t m} : s.pc t = .outside → (commonWaitEvent s.event m).1 = 0 →
      EventStep s (.wait t m false) s
  | found {s t m pc'} : s.pc t = .woken m → (commonWaitEvent s.event m).1 ≠ 0 →
      PassOn (commonWaitEvent s.event m).2 (Function.update s.pc t .outside) pc' →
      EventStep s (.recheck t) ⟨(commonWaitEvent s.event m).2, pc'⟩
  | sleep {s t m} : s.pc t = .woken m → (commonWaitEvent s.event m).1 = 0 →
      EventStep s (.recheck t) { s with pc := Function.update s.pc t (.blocked m) }
  | timeout {s t m} : s.pc t = .blocked m →
      EventStep s (.timeout t) { s with pc := Function.update s.pc t .outside }

end

/-! ## Nobody sleeps through a bit -/

/-- Some thread has been woken and has not looked yet. -/
def SomeoneWoken (pc : T → WaiterPc) : Prop := ∃ u m, pc u = .woken m

/-- A thread sleeps although a bit it waits for is set, and nobody is on the way. -/
def Stranded (s : EventGroup T) : Prop :=
  (∃ t m, s.pc t = .blocked m ∧ s.event &&& m ≠ 0) ∧ ¬ SomeoneWoken s.pc

/-- A woken thread that finds none of its bits keeps no signal meant for others: no bit is set at all, or whoever
sleeps waits only for bits that it waits for itself. -/
def KeepsNoSignal (s : EventGroup T) : EventAct T → Prop
  | .recheck t => ∀ m, s.pc t = .woken m → s.event &&& m = 0 →
      s.event = 0 ∨ ∀ u m', s.pc u = .blocked m' → m' &&& ~~~m = 0
  | _ => True

section
variable [DecidableEq T] {s s' : EventGroup T} {a : EventAct T} {pc pc' : T → WaiterPc} {event e : Word} {t : T}

/-- After a signal somebody is on the way, or nobody sleeps. -/
theorem Signal.woken (h : Signal pc pc') : SomeoneWoken pc' ∨ ∀ t m, pc' t ≠ .blocked m := by
  cases h with
  | @wake t m => exact .inl ⟨t, m, by simp⟩
  | nobody h => exact .inr h

theorem Signal.not_stranded (h : Signal pc pc') (event : Word) : ¬ Stranded ⟨event, pc'⟩ := by
  rintro ⟨⟨t, m, hb, -⟩, hno⟩
  exact h.woken.elim hno fun hnone => hnone t m hb

theorem PassOn.not_stranded (h : PassOn event pc pc') : ¬ Stranded ⟨event, pc'⟩ := by
  cases h with
  | signal _ hs => exact hs.not_stranded event
  | empty h0 =>
    rintro ⟨⟨t, m, -, hm⟩, -⟩
    exact hm (by subst h0; exact BitVec.zero_and)

theorem clear_and_ne_zero {m : Word} (h : commonClearEvent event e &&& m ≠ 0) : event &&& m ≠ 0 := by
  obtain ⟨i, hi, hm⟩ := and_ne_zero_iff.1 h
  simp only [bit_commonClearEvent, Bool.and_eq_true] at hi
  exact and_ne_zero_iff.2 ⟨i, hi.1, hm⟩

/-- Who waits only for bits of `m` finds nothing where `m` finds nothing. -/
theorem and_eq_zero_of_subset {m m' : Word} (h : event &&& m = 0) (hm : m' &&& ~~~m = 0) : event &&& m' = 0 := by
  by_contra hne
  obtain ⟨i, hi, hi'⟩ := and_ne_zero_iff.1 hne
  by_cases him : m.getLsbD i = true
  · exact and_ne_zero_iff.2 ⟨i, hi, him⟩ h
  · have hlt : i < 32 := BitVec.lt_of_getLsbD hi'
    refine and_ne_zero_iff.2 ⟨i, hi', ?_⟩ hm
    rw [BitVec.getLsbD_not, decide_eq_true hlt, Bool.true_and, Bool.eq_false_of_not_eq_true him, Bool.not_false]

/-- Nobody is stranded by a thread that starts or stops sleeping, as long as no bit it sleeps on is set. -/
theorem not_stranded_update {x : WaiterPc} (h : ¬ Stranded s) (ht : ∀ m, s.pc t ≠ .woken m)
    (hx : ∀ m, x = .blocked m → s.event &&& m = 0) : ¬ Stranded { s with pc := Function.update s.pc t x } := by
  rintro ⟨⟨u, m, hb, hm⟩, hno⟩
  dsimp only at hb hm hno
  have hut : u ≠ t := by
    rintro rfl
    rw [Function.update_self] at hb
    exact hm (hx m hb)
  rw [Function.update_of_ne hut] at hb
  refine h ⟨⟨u, m, hb, hm⟩, ?_⟩
  rintro ⟨v, k, hv⟩
  have hvt : v ≠ t := by
    rintro rfl
    exact ht k hv
  exact hno ⟨v, k, by rwa [Function.update_of_ne hvt]⟩

/-- **One step** that keeps to the condition strands nobody. -/
theorem EventStep.not_stranded (hs : EventStep s a s') (hk : KeepsNoSignal s a) (h : ¬ Stranded s) :
    ¬ Stranded s' := by
  cases hs with
  | set hsig => exact hsig.not_stranded _
  | clear =>
    rintro ⟨⟨t, m, hb, hm⟩, hno⟩
    exact h ⟨⟨t, m, hb, clear_and_ne_zero hm⟩, hno⟩
  | waitFound _ _ hpass => exact hpass.not_stranded
  | waitBlock hpc h0 =>
    refine not_stranded_update h (by simp [hpc]) fun m hm => ?_
    cases hm
    exact h0
  | waitReturn => exact h
  | found _ _ hpass => exact hpass.not_stranded
  | @sleep t m hpc h0 =>
    -- whoever sleeps afterwards, `t` included, waits for nothing that is set
    rintro ⟨⟨u, mu, hu, hmu⟩, -⟩
    dsimp only at hu hmu
    rcases hk m hpc h0 with hzero | hsub
    · rw [hzero] at hmu
      exact hmu BitVec.zero_and
    · by_cases hut : u = t
      · subst hut
        rw [Function.update_self] at hu
        cases hu
        exact hmu h0
      · rw [Function.update_of_ne hut] at hu
        exact hmu (and_eq_zero_of_subset h0 (hsub u mu hu))
  | timeout hpc => exact not_stranded_update h (by simp [hpc]) fun _ hm => by cases hm

/-- **No set bit is slept through**, with any number of threads and masks and whoever a signal wakes, in
every run in which no woken thread keeps a signal from another. -/
theorem commonEvent_not_stranded {acts : List (EventAct T)}
    (h : Steps (Restrict EventStep KeepsNoSignal) commonCreateEvent acts s) : ¬ Stranded s := by
  refine h.invariant (I := fun s => ¬ Stranded s) (fun s a s' hn hs => hs.1.not_stranded hs.2 hn) ?_
  rintro ⟨⟨t, m, hb, -⟩, -⟩
  cases hb

end

/-- Two threads sleep with masks 3 and 1. Bit 4 wakes the first, which sleeps again; bit 1 then wakes the second, which
takes it and wakes the first for bit 4, again in vain. -/
theorem commonEvent_not_stranded_woken :
    ∃ s : EventGroup Bool, s.event = 4 ∧ s.pc false = .blocked 3 ∧ s.pc true = .outside ∧ ¬ Stranded s := by
  have hrun : Steps (Restrict EventStep KeepsNoSignal) (commonCreateEvent : EventGroup Bool)
      [.wait false 3 true, .wait true 1 true, .set 4, .recheck false, .set 1, .recheck true, .recheck false] _ :=
    .cons ⟨.waitBlock rfl rfl, trivial⟩ <| .cons ⟨.waitBlock rfl rfl, trivial⟩ <|
    .cons ⟨.set (@Signal.wake _ _ _ false 3 rfl), trivial⟩ <|
    .cons ⟨@EventStep.sleep _ _ _ false 3 rfl rfl, by
      rintro m hm -
      cases hm
      refine .inr fun u m' hu => ?_
      cases u <;> cases hu
      decide⟩ <|
    .cons ⟨.set (@Signal.wake _ _ _ true 1 rfl), trivial⟩ <|
    .cons ⟨@EventStep.found _ _ _ true 1 _ rfl (by decide) (.signal (by decide) (@Signal.wake _ _ _ false 3 rfl)), by
      rintro m hm h0
      cases hm
      exact absurd h0 (by decide)⟩ <|
    .one ⟨@EventStep.sleep _ _ _ false 3 rfl rfl, by
      rintro m hm -
      cases hm
      refine .inr fun u m' hu => ?_
      cases u <;> cases hu⟩
  exact ⟨_, rfl, rfl, rfl, commonEvent_not_stranded hrun⟩

/-- Two threads with different masks sleep. The signal for the second one's bit wakes the first, which goes
back to sleep; the second sleeps on. -/
theorem commonEvent_slept_through : ¬ ∀ (acts : List (EventAct Bool)) (s : EventGroup Bool),
    Steps EventStep commonCreateEvent acts s → ¬ Stranded s := by
  intro h
  have hrun : Steps EventStep (commonCreateEvent : EventGroup Bool)
      [.wait false 1 true, .wait true 2 true, .set 2, .recheck false] _ :=
    .cons (.waitBlock rfl rfl) (.cons (.waitBlock rfl rfl) (.cons (.set (@Signal.wake _ _ _ false 1 rfl))
      (.one (@EventStep.sleep _ _ _ false 1 rfl rfl))))
  refine h _ _ hrun ⟨⟨true, 2, rfl, by decide⟩, ?_⟩
  rintro ⟨u, m, hu⟩
  cases u <;> cases hu

end AudioPlayer

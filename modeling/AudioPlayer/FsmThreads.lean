import Mathlib
import AudioPlayer.Lib.Steps
import AudioPlayer.CommonFsm

/-!
# The state machine and the threads that drive it

`com_fsm_task` (`utils/common_fsm.c:48-102`) against any number of threads `T` inside
`com_fsm_set_event` and `com_fsm_clear_event` (`:155-181`). Every access to an event group runs under
that group's mutex, so it is one step; between two of them anything may happen.

| step | there |
| --- | --- |
| `setEvent t e`    | `t` enters `com_fsm_set_event(e, timeout > 0)`: the bits are set (`:160`) |
| `ackWake t ret`   | its `xEventGroupWaitBits` on the ack group returns `ret` (`:163`) |
| `ackTimeout t`    | it returns nothing |
| `post e`          | `com_fsm_set_event(e, 0)` or `com_fsm_set_event_from_isr` (`:166-172`) |
| `clearEvent t e`, `clearEventAck t` | the two halves of `com_fsm_clear_event(e)` (`:179-180`) |
| `takeBits E`      | the task's own wait returns `E` (`:66`); `0` is its timeout |
| `finish`          | the turn's action has run and `cur_state` is stored (`:77-90`) |
| `setAck`          | the taken set is acknowledged (`:92-93`) |

`acked_by_own_dispatch` and `no_stalled_waiter` are about every run from `com_fsm_create`; what a call
may be told and who may be left waiting is read off the labels of the run.
-/

namespace AudioPlayer
open Lib

variable {A U T : Type*}

/-- Where `com_fsm_task` stands in its loop. -/
inductive TaskPc
  | waitBits
  | dispatch (events : Word)
  | ackBits (events : Word)
  | exited
deriving DecidableEq, Repr

/-- Where a thread stands: outside, waiting for an ack, or between the halves of a clear. -/
inductive CallPc
  | idle
  | waitAck (event : Word)
  | clearAck (event : Word)
deriving DecidableEq, Repr

/-- `com_fsm_t` with its task and the calling threads. -/
structure FsmSys (U T : Type*) where
  event     : Word
  eventAck  : Word
  curState  : Word
  userParam : U
  task      : TaskPc
  pc        : T → CallPc

inductive FsmAct (T : Type*)
  | setEvent (t : T) (event : Word)
  | ackWake (t : T) (ret : Word)
  | ackTimeout (t : T)
  | post (event : Word)
  | clearEvent (t : T) (event : Word)
  | clearEventAck (t : T)
  | takeBits (events : Word)
  | finish
  | setAck

/-- `com_fsm_create` (`common_fsm.c:104-143`) with `cur_state` and user parameter given. -/
def comFsmCreate (curState : Word) (u : U) : FsmSys U T :=
  ⟨0, 0, curState, u, .waitBits, fun _ => .idle⟩

section
variable [DecidableEq T] (exec : A → U → U × Word) (lookup : List (ComFsmLookup A))

/-- One step of the task or of a thread. -/
inductive FsmStep : FsmSys U T → FsmAct T → FsmSys U T → Prop
  | setEvent {s t e} : s.pc t = .idle →
      FsmStep s (.setEvent t e)
        { s with event := commonSetEvent s.event e, pc := Function.update s.pc t (.waitAck e) }
  | ackWake {s t e} : s.pc t = .waitAck e → (commonWaitEvent s.eventAck e).1 ≠ 0 →
      FsmStep s (.ackWake t (commonWaitEvent s.eventAck e).1)
        { s with eventAck := (commonWaitEvent s.eventAck e).2, pc := Function.update s.pc t .idle }
  | ackTimeout {s t e} : s.pc t = .waitAck e →
      FsmStep s (.ackTimeout t) { s with pc := Function.update s.pc t .idle }
  | post {s e} : FsmStep s (.post e) { s with event := commonSetEvent s.event e }
  | clearEvent {s t e} : s.pc t = .idle →
      FsmStep s (.clearEvent t e)
        { s with event := commonClearEvent s.event e, pc := Function.update s.pc t (.clearAck e) }
  | clearEventAck {s t e} : s.pc t = .clearAck e →
      FsmStep s (.clearEventAck t)
        { s with eventAck := commonClearEvent s.eventAck e, pc := Function.update s.pc t .idle }
  | takeBits {s} : s.task = .waitBits → (commonWaitEvent s.event comFsmEventAll).1 ≠ 0 →
      FsmStep s (.takeBits (commonWaitEvent s.event comFsmEventAll).1)
        { s with event := (commonWaitEvent s.event comFsmEventAll).2,
                 task := .dispatch (commonWaitEvent s.event comFsmEventAll).1 }
  | takeNone {s} : s.task = .waitBits →
      FsmStep s (.takeBits comFsmEventNone) { s with task := .dispatch comFsmEventNone }
  | finish {s E} : s.task = .dispatch E →
      FsmStep s .finish
        { s with curState := (comFsmDispatch exec lookup s.curState s.userParam E).1,
                 userParam := (comFsmDispatch exec lookup s.curState s.userParam E).2.1,
                 task := .ackBits E }
  | setAck {s E} : s.task = .ackBits E →
      FsmStep s .setAck
        { s with eventAck := if E ≠ comFsmEventNone then commonSetEvent s.eventAck E else s.eventAck,
                 task := if comFsmEventExit &&& E ≠ 0 then .exited else .waitBits }

end

/-! ## Calls and dispatches, read off a run -/

/-- The label ends `t`'s call of `com_fsm_set_event`. -/
def EndsCall (t : T) : FsmAct T → Prop
  | .ackWake t' _ | .ackTimeout t' => t' = t
  | _ => False

/-- Within `acts` the task takes a set with bit `i` and has not finished its turn. -/
def TakenIn (acts : List (FsmAct T)) (i : Nat) : Prop :=
  ∃ p q E, acts = p ++ .takeBits E :: q ∧ E.getLsbD i ∧ .finish ∉ q

/-- Within `acts` the task takes a set with bit `i` and finishes that turn. -/
def ServedIn (acts : List (FsmAct T)) (i : Nat) : Prop :=
  ∃ p q r E, acts = p ++ .takeBits E :: q ++ .finish :: r ∧ E.getLsbD i ∧ .finish ∉ q

theorem ServedIn.snoc {acts : List (FsmAct T)} {i : Nat} (h : ServedIn acts i) (a : FsmAct T) :
    ServedIn (acts ++ [a]) i := by
  obtain ⟨p, q, r, E, rfl, hi, hq⟩ := h
  exact ⟨p, q, r ++ [a], E, by simp, hi, hq⟩

theorem TakenIn.snoc {acts : List (FsmAct T)} {i : Nat} (h : TakenIn acts i) {a : FsmAct T}
    (ha : a ≠ .finish) : TakenIn (acts ++ [a]) i := by
  obtain ⟨p, q, E, rfl, hi, hq⟩ := h
  exact ⟨p, q ++ [a], E, by simp, hi, by simp [hq, ha.symm]⟩

theorem TakenIn.finish {acts : List (FsmAct T)} {i : Nat} (h : TakenIn acts i) :
    ServedIn (acts ++ [.finish]) i := by
  obtain ⟨p, q, E, rfl, hi, hq⟩ := h
  exact ⟨p, q, [], E, by simp, hi, hq⟩

theorem takenIn_take (acts : List (FsmAct T)) {E : Word} {i : Nat} (hi : E.getLsbD i) :
    TakenIn (acts ++ [.takeBits E]) i := ⟨acts, [], E, by simp, hi, by simp⟩

/-! ## An ack and the dispatch it stands for -/

/-- No bit of `e` is in the ack group, nor on its way there from a turn already under way. -/
def Quiet (s : FsmSys U T) (e : Word) : Prop :=
  s.eventAck &&& e = 0 ∧ ∀ E, s.task = .dispatch E ∨ s.task = .ackBits E → E &&& e = 0

/-- Every call of `com_fsm_set_event` that waits is made in a quiet state. -/
def QuietCalls (s : FsmSys U T) : FsmAct T → Prop
  | .setEvent _ e => Quiet s e
  | _ => True

/-- In every run of `step` from `s₀`, a call that returns bits of the ack group returns only bits that
the task took after the call had set them, and whose turn it has finished. -/
def AckedByOwnDispatch (step : FsmSys U T → FsmAct T → FsmSys U T → Prop) (s₀ : FsmSys U T) : Prop :=
  ∀ pre t e mid ret s, Steps step s₀ (pre ++ .setEvent t e :: mid ++ [.ackWake t ret]) s →
    (∀ a ∈ mid, ¬ EndsCall t a) → ∀ i, ret.getLsbD i → ServedIn mid i

/-- What a run `mid` since `t` has set `e` in a quiet state keeps. -/
structure OwnAck (t : T) (e : Word) (mid : List (FsmAct T)) (s : FsmSys U T) : Prop where
  waiting : s.pc t = .waitAck e
  acked   : ∀ i, e.getLsbD i → s.eventAck.getLsbD i → ServedIn mid i
  taken   : ∀ E i, s.task = .dispatch E → e.getLsbD i → E.getLsbD i → TakenIn mid i
  turned  : ∀ E i, s.task = .ackBits E → e.getLsbD i → E.getLsbD i → ServedIn mid i

section
variable [DecidableEq T] {exec : A → U → U × Word} {lookup : List (ComFsmLookup A)}
  {s s' : FsmSys U T} {a : FsmAct T} {t : T} {e : Word} {mid : List (FsmAct T)}

/-- A step that does not end `t`'s call leaves `t` waiting. -/
theorem FsmStep.waiting (h : FsmStep exec lookup s a s') (ha : ¬ EndsCall t a)
    (hw : s.pc t = .waitAck e) : s'.pc t = .waitAck e := by
  have hne : ∀ {t' : T}, s.pc t' ≠ .waitAck e → t ≠ t' := fun h' he => h' (he ▸ hw)
  cases h with
  | setEvent hp => exact (Function.update_of_ne (hne (by simp [hp])) _ _).trans hw
  | ackWake | ackTimeout => exact (Function.update_of_ne (Ne.symm ha) _ _).trans hw
  | clearEvent hp | clearEventAck hp => exact (Function.update_of_ne (hne (by simp [hp])) _ _).trans hw
  | post | takeBits | takeNone | finish | setAck => exact hw

theorem OwnAck.start (hq : Quiet s e) (h : FsmStep exec lookup s (.setEvent t e) s') :
    OwnAck t e [] s' := by
  have no : ∀ {w : Word} {i : Nat}, w &&& e = 0 → e.getLsbD i → w.getLsbD i → False :=
    fun h0 he hw => and_ne_zero_iff.2 ⟨_, hw, he⟩ h0
  cases h with
  | setEvent hp =>
    refine ⟨by simp, fun i he hi => (no hq.1 he hi).elim, ?_, ?_⟩
    · exact fun E i ht he hi => (no (hq.2 E (.inl ht)) he hi).elim
    · exact fun E i ht he hi => (no (hq.2 E (.inr ht)) he hi).elim

/-- One step keeps `OwnAck`: only the task puts bits into the ack group, and only those of its turn. -/
theorem OwnAck.step (h : OwnAck t e mid s) (hs : FsmStep exec lookup s a s') (ha : ¬ EndsCall t a) :
    OwnAck t e (mid ++ [a]) s' := by
  refine ⟨hs.waiting ha h.waiting, ?_, ?_, ?_⟩
  · intro i he hi
    cases hs with
    | setAck ht =>
      by_cases hE : (s.eventAck.getLsbD i) = true
      · exact (h.acked i he hE).snoc _
      · refine (h.turned _ i ht he ?_).snoc _
        dsimp only at hi
        split at hi
        · simpa [hE] using hi
        · exact absurd hi hE
    | ackWake => exact (h.acked i he (by simp at hi; exact hi.1)).snoc _
    | clearEventAck => exact (h.acked i he (by simp at hi; exact hi.1)).snoc _
    | _ => exact (h.acked i he hi).snoc _
  · intro E i ht he hi
    cases hs with
    | takeBits => cases ht; exact takenIn_take _ hi
    | takeNone => cases ht; exact takenIn_take _ hi
    | finish => cases ht
    | setAck => dsimp only at ht; split at ht <;> cases ht
    | _ => exact (h.taken E i ht he hi).snoc (by simp)
  · intro E i ht he hi
    cases hs with
    | takeBits => cases ht
    | takeNone => cases ht
    | finish hd => cases ht; exact (h.taken _ i hd he hi).finish
    | setAck => dsimp only at ht; split at ht <;> cases ht
    | _ => exact (h.turned E i ht he hi).snoc _

theorem OwnAck.run (h : OwnAck t e [] s) (hs : Steps (FsmStep exec lookup) s mid s')
    (hm : ∀ a ∈ mid, ¬ EndsCall t a) : OwnAck t e mid s' := by
  refine hs.trace (P := fun as s => (∀ a ∈ as, ¬ EndsCall t a) → OwnAck t e as s) (fun _ => h) ?_ hm
  intro as s a u _ ih hu hall
  exact (ih fun b hb => hall b (by simp [hb])).step hu (hall a (by simp))

/-- In a run whose steps all meet `C`, the state in which `t` calls is one where `C` holds of the call. -/
theorem call_state {C : FsmSys U T → FsmAct T → Prop} {pre : List (FsmAct T)} {s₀ : FsmSys U T}
    (h : Steps (Restrict (FsmStep exec lookup) C) s₀ (pre ++ .setEvent t e :: mid) s) :
    ∃ s₁ s₂, FsmStep exec lookup s₁ (.setEvent t e) s₂ ∧ C s₁ (.setEvent t e) ∧
      Steps (Restrict (FsmStep exec lookup) C) s₂ mid s := by
  obtain ⟨s₁, _, h₂⟩ := h.split
  obtain ⟨s₂, hset, hrest⟩ := h₂.cons_inv
  exact ⟨s₁, s₂, hset.1, hset.2, hrest⟩

end

section
variable [DecidableEq T] (exec : A → U → U × Word) (lookup : List (ComFsmLookup A))

/-- **An ack means the request was handled**, in every run whose waiting calls are all made in a quiet
state. -/
theorem acked_by_own_dispatch (s₀ : FsmSys U T) :
    AckedByOwnDispatch (Restrict (FsmStep exec lookup) QuietCalls) s₀ := by
  intro pre t e mid ret s h hmid i hi
  obtain ⟨s₃, h, hwake⟩ := h.snoc_inv
  obtain ⟨s₁, s₂, hset, hquiet, hrun⟩ := call_state h
  have hown := (OwnAck.start hquiet hset).run (hrun.mono fun _ _ _ hs => hs.1) hmid
  -- what the wake-up returns was in the ack group
  cases hwake.1 with
  | @ackWake _ e' hp _ =>
    obtain rfl : e = e' := by simpa [hown.waiting] using hp
    simp only [bit_commonWaitEvent_fst, Bool.and_eq_true] at hi
    exact hown.acked i hi.2 hi.1

/-- The condition is exact: a call made in any other state can return with nothing done for it. -/
theorem exists_false_ack {s : FsmSys U T} {t : T} {e : Word} (hp : s.pc t = .idle) (hq : ¬ Quiet s e) :
    ∃ mid ret s', Steps (FsmStep exec lookup) s (.setEvent t e :: mid ++ [.ackWake t ret]) s' ∧
      (∀ a ∈ mid, ¬ EndsCall t a) ∧ ∃ i, ret.getLsbD i ∧ ¬ ServedIn mid i := by
  have unserved : ∀ {mid : List (FsmAct T)} {i}, (∀ E, .takeBits E ∉ mid) → ¬ ServedIn mid i := by
    rintro mid i hno ⟨p, q, r, E, rfl, -, -⟩
    exact hno E (by simp)
  -- whoever reaches a state where `t` waits and a bit of `e` is acked is woken by that bit
  have wake : ∀ {mid : List (FsmAct T)} {s₂ s₃ : FsmSys U T}, FsmStep exec lookup s (.setEvent t e) s₂ →
      Steps (FsmStep exec lookup) s₂ mid s₃ → s₃.pc t = .waitAck e → s₃.eventAck &&& e ≠ 0 →
      (∀ E, .takeBits E ∉ mid) → (∀ a ∈ mid, ¬ EndsCall t a) →
      ∃ mid ret s', Steps (FsmStep exec lookup) s (.setEvent t e :: mid ++ [.ackWake t ret]) s' ∧
        (∀ a ∈ mid, ¬ EndsCall t a) ∧ ∃ i, ret.getLsbD i ∧ ¬ ServedIn mid i := by
    intro mid s₂ s₃ h₁ h₂ h₃ h₄ hno hend
    obtain ⟨i, hi, he⟩ := and_ne_zero_iff.1 h₄
    exact ⟨mid, _, _, (Steps.cons h₁ h₂).snoc (.ackWake h₃ h₄), hend, i, by simp [hi, he], unserved hno⟩
  have hset : FsmStep exec lookup s (.setEvent t e) _ := .setEvent hp
  by_cases hack : s.eventAck &&& e = 0
  · -- the bit is on its way from a turn that took it before the call
    obtain ⟨E, ht, hE⟩ : ∃ E, (s.task = .dispatch E ∨ s.task = .ackBits E) ∧ E &&& e ≠ 0 := by
      by_contra hno
      exact hq ⟨hack, fun E ht => by_contra fun hE => hno ⟨E, ht, hE⟩⟩
    have hE0 : E ≠ comFsmEventNone := by rintro rfl; exact hE (by simp [comFsmEventNone])
    have hbit : ∀ w : Word, commonSetEvent w E &&& e ≠ 0 := by
      intro w
      obtain ⟨i, hi, he⟩ := and_ne_zero_iff.1 hE
      exact and_ne_zero_iff.2 ⟨i, by simp [hi], he⟩
    rcases ht with ht | ht
    · exact wake hset (.snoc (.one (.finish ht)) (.setAck rfl)) (by simp) (by simpa [hE0] using hbit _)
        (by simp) (by simp [EndsCall])
    · exact wake hset (.one (.setAck ht)) (by simp) (by simpa [hE0] using hbit _) (by simp) (by simp [EndsCall])
  · exact wake hset .nil (by simp) hack (by simp) (by simp)

end

/-- A pause sent from the PCM task (which does not wait) leaves its ack behind; the next pause that
waits is told at once that it is done. -/
theorem mp3Decoder_false_ack :
    ¬ AckedByOwnDispatch (FsmStep mp3DecoderExec mp3DecoderLookup)
      (comFsmCreate mp3DecoderStaRun () : FsmSys Unit Unit) := by
  intro h
  have hrun : ∃ s, Steps (FsmStep mp3DecoderExec mp3DecoderLookup)
      (comFsmCreate mp3DecoderStaRun () : FsmSys Unit Unit)
      ([.post mp3DecoderEventPause, .takeBits mp3DecoderEventPause, .finish, .setAck] ++
        .setEvent () mp3DecoderEventPause :: [] ++ [.ackWake () mp3DecoderEventPause]) s :=
    ⟨_, .cons .post (.cons (.takeBits rfl (by decide)) (.cons (.finish rfl) (.cons (.setAck rfl)
      (.cons (.setEvent rfl) (.one (.ackWake (e := mp3DecoderEventPause) rfl (by decide)))))))⟩
  obtain ⟨s, hrun⟩ := hrun
  obtain ⟨p, q, r, E, he, -, -⟩ := h _ _ _ _ _ s hrun (by simp) 2 (by decide)
  simp at he

/-! ## Nobody waits for an answer that was given -/

/-- The step takes no bit out of the ack group that a thread other than the one it serves waits for. -/
def KeepsAcks (s : FsmSys U T) : FsmAct T → Prop
  | .ackWake t _ => ∀ e t' e', s.pc t = .waitAck e → t' ≠ t → s.pc t' = .waitAck e' →
      s.eventAck &&& e &&& e' = 0
  | .clearEventAck t => ∀ e t' e', s.pc t = .clearAck e → s.pc t' = .waitAck e' →
      s.eventAck &&& e &&& e' = 0
  | _ => True

/-- In every run of `step` from `s₀`: whenever the task waits with nothing pending, a thread still
inside a call for an event the task has dispatched since finds one of its bits in the ack group. -/
def NoStalledWaiter (step : FsmSys U T → FsmAct T → FsmSys U T → Prop) (s₀ : FsmSys U T) : Prop :=
  ∀ pre t e mid s, Steps step s₀ (pre ++ .setEvent t e :: mid) s → (∀ a ∈ mid, ¬ EndsCall t a) →
    s.task = .waitBits → s.event &&& comFsmEventAll = 0 →
    (∃ i, e.getLsbD i ∧ ServedIn mid i) → s.eventAck &&& e ≠ 0

theorem servedIn_snoc {acts : List (FsmAct T)} {a : FsmAct T} {i : Nat} (h : ServedIn (acts ++ [a]) i) :
    ServedIn acts i ∨ a = .finish ∧ TakenIn acts i := by
  obtain ⟨p, q, r, E, he, hi, hq⟩ := h
  rcases List.eq_nil_or_concat r with rfl | ⟨r, b, rfl⟩
  · obtain ⟨rfl, ha⟩ := List.append_inj' he rfl
    exact .inr ⟨by simpa using ha, p, q, E, rfl, hi, hq⟩
  · have he' : acts ++ [a] = (p ++ .takeBits E :: q ++ .finish :: r) ++ [b] := by simpa using he
    obtain ⟨rfl, -⟩ := List.append_inj' he' rfl
    exact .inl ⟨p, q, r, E, rfl, hi, hq⟩

theorem takenIn_snoc {acts : List (FsmAct T)} {a : FsmAct T} {i : Nat} (h : TakenIn (acts ++ [a]) i) :
    a ≠ .finish ∧ TakenIn acts i ∨ ∃ E, a = .takeBits E ∧ E.getLsbD i := by
  obtain ⟨p, q, E, he, hi, hq⟩ := h
  rcases List.eq_nil_or_concat q with rfl | ⟨q, b, rfl⟩
  · obtain ⟨-, ha⟩ := List.append_inj' he rfl
    exact .inr ⟨E, by simpa using ha, hi⟩
  · have he' : acts ++ [a] = (p ++ .takeBits E :: q) ++ [b] := by simpa using he
    obtain ⟨rfl, hb⟩ := List.append_inj' he' rfl
    obtain rfl : a = b := by simpa using hb
    simp only [List.concat_eq_append, List.mem_append, List.mem_singleton, not_or] at hq
    exact .inl ⟨fun h => hq.2 h.symm, p, q, E, rfl, hi, hq.1⟩

/-- What a run `mid` since `t` has set `e` keeps when no step takes others' acks: a dispatched bit of `e`
is in the ack group or about to be put there. -/
structure AckKept (t : T) (e : Word) (mid : List (FsmAct T)) (s : FsmSys U T) : Prop where
  waiting : s.pc t = .waitAck e
  taken   : ∀ i, TakenIn mid i → ∃ E, s.task = .dispatch E ∧ E.getLsbD i
  served  : ∀ i, e.getLsbD i → ServedIn mid i →
    s.eventAck.getLsbD i ∨ ∃ E, s.task = .ackBits E ∧ E.getLsbD i

section
variable [DecidableEq T] {exec : A → U → U × Word} {lookup : List (ComFsmLookup A)}
  {s s' : FsmSys U T} {a : FsmAct T} {t : T} {e : Word} {mid : List (FsmAct T)}

/-- A bit that is not in a mask survives the removal of that mask. -/
theorem bit_survives {w m e : Word} {i : Nat} (h0 : w &&& m &&& e = 0) (hw : w.getLsbD i)
    (he : e.getLsbD i) : m.getLsbD i = false := by
  by_contra hm
  exact and_ne_zero_iff.2 ⟨i, by simp [hw, hm], he⟩ h0

theorem AckKept.taken_step (h : AckKept t e mid s) (hs : FsmStep exec lookup s a s') {i : Nat}
    (hi : TakenIn (mid ++ [a]) i) : ∃ E, s'.task = .dispatch E ∧ E.getLsbD i := by
  rcases takenIn_snoc hi with ⟨hf, hm⟩ | ⟨E, rfl, hE⟩
  · obtain ⟨E, ht, hE⟩ := h.taken i hm
    cases hs with
    | takeBits hw | takeNone hw => simp [hw] at ht
    | finish => exact absurd rfl hf
    | setAck hw => simp [hw] at ht
    | _ => exact ⟨E, ht, hE⟩
  · cases hs with
    | takeBits | takeNone => exact ⟨_, rfl, hE⟩

/-- One step keeps `AckKept`. -/
theorem AckKept.step (h : AckKept t e mid s) (hs : FsmStep exec lookup s a s') (hk : KeepsAcks s a)
    (ha : ¬ EndsCall t a) : AckKept t e (mid ++ [a]) s' := by
  refine ⟨hs.waiting ha h.waiting, fun i hi => h.taken_step hs hi, fun i he hi => ?_⟩
  rcases servedIn_snoc hi with hm | ⟨rfl, hm⟩
  · have hsv := h.served i he hm
    cases hs with
    | ackWake hp =>
      refine hsv.imp (fun hack => ?_) id
      simp [hack, bit_survives (hk _ t e hp (Ne.symm ha) h.waiting) hack he]
    | clearEventAck hp =>
      refine hsv.imp (fun hack => ?_) id
      simp [hack, bit_survives (hk _ t e hp h.waiting) hack he]
    | takeBits hw | takeNone hw => exact .inl (hsv.resolve_right (by simp [hw]))
    | finish hw => exact .inl (hsv.resolve_right (by simp [hw]))
    | @setAck E hw =>
      left
      rcases hsv with hack | ⟨E', ht, hE⟩
      · dsimp only; split <;> simp [hack]
      · obtain rfl : E = E' := by simpa [hw] using ht
        have hE0 : E ≠ comFsmEventNone := by rintro rfl; simp [comFsmEventNone] at hE
        simp [hE0, hE]
    | _ => exact hsv
  · -- the turn that took the bit has just finished
    obtain ⟨E, ht, hE⟩ := h.taken i hm
    cases hs with
    | @finish E' hw =>
      obtain rfl : E' = E := by simpa [hw] using ht
      exact .inr ⟨E', rfl, hE⟩

theorem AckKept.start (h : FsmStep exec lookup s (.setEvent t e) s') : AckKept t e [] s' := by
  cases h with
  | setEvent =>
    refine ⟨by simp, ?_, ?_⟩
    · rintro i ⟨p, q, E, he, -⟩; simp at he
    · rintro i - ⟨p, q, r, E, he, -⟩; simp at he

theorem AckKept.run (h : AckKept t e [] s)
    (hs : Steps (Restrict (FsmStep exec lookup) KeepsAcks) s mid s')
    (hm : ∀ a ∈ mid, ¬ EndsCall t a) : AckKept t e mid s' := by
  refine hs.trace (P := fun as s => (∀ a ∈ as, ¬ EndsCall t a) → AckKept t e as s) (fun _ => h) ?_ hm
  intro as s a u _ ih hu hall
  exact (ih fun b hb => hall b (by simp [hb])).step hu.1 hu.2 (hall a (by simp))

end

/-- **No answered caller keeps waiting**, in every run none of whose steps takes an ack out of the group
that another thread waits for. -/
theorem no_stalled_waiter [DecidableEq T] (exec : A → U → U × Word) (lookup : List (ComFsmLookup A))
    (s₀ : FsmSys U T) : NoStalledWaiter (Restrict (FsmStep exec lookup) KeepsAcks) s₀ := by
  intro pre t e mid s h hmid htask _ ⟨i, hi, hserved⟩
  obtain ⟨s₁, s₂, hset, -, hrun⟩ := call_state h
  have hkept := (AckKept.start hset).run hrun hmid
  have hack := (hkept.served i hi hserved).resolve_right (by simp [htask])
  exact and_ne_zero_iff.2 ⟨i, hack, hi⟩

/-- Two decoder threads ask the PCM task to resume at once: it resumes and acknowledges once, the first
thread consumes the ack, and the second stays in its call although its request is done. -/
theorem pcmTrans_second_resume_stalls :
    ¬ NoStalledWaiter (FsmStep pcmTransExecTx pcmTransLookupTx)
      (comFsmCreate pcmTransStaTxPause true : FsmSys Bool Bool) := by
  intro h
  have hrun : Steps (FsmStep pcmTransExecTx pcmTransLookupTx)
      (comFsmCreate pcmTransStaTxPause true : FsmSys Bool Bool)
      ([.setEvent false pcmTransEventResume] ++ .setEvent true pcmTransEventResume ::
        [.takeBits pcmTransEventResume, .finish, .setAck, .ackWake false pcmTransEventResume]) _ :=
    .cons (.setEvent rfl) (.cons (.setEvent rfl) (.cons (.takeBits rfl (by decide))
      (.cons (.finish rfl) (.cons (.setAck rfl)
        (.one (.ackWake (e := pcmTransEventResume) rfl (by decide)))))))
  refine h _ _ _ _ _ hrun (by simp [EndsCall]) rfl (by decide) ⟨1, by decide, ?_⟩ (by decide)
  exact ⟨[], [], [.setAck, .ackWake false pcmTransEventResume], pcmTransEventResume, rfl, by decide, by simp⟩

end AudioPlayer

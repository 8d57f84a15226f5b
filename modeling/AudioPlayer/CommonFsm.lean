import Mathlib
import AudioPlayer.CommonEvent

/-!
# The table-driven state machine (`utils/common_fsm.c`)

| here | there |
| --- | --- |
| `ComFsmLookup`     | `com_fsm_lookup_t` (`common_fsm.h:18-24`), the action a name in `A` |
| `comFsmGetLookup`  | `com_fsm_get_lookup` (`common_fsm.c:4-26`), the `for` loop as its first hit |
| `comFsmDispatch`   | one turn of `com_fsm_task` after its wait, up to the new `cur_state` (`:69-90`) |
| `comFsmTurn`       | the same with the acknowledgement (`:92-93`), as the list of what it does |
| `mp3DecoderLookup` | the table of `mp3_decoder_init` (`src/mp3_decoder.c:276-286`) |

A row matches a non-empty set as soon as all bits of its event are in it, so a row for
`COM_FSM_EVENT_NONE` matches every set. One turn runs the first matching row and acknowledges the
whole set: `comFsmTurn_carriesOut_iff` says for which table, state and set nothing asked for is lost.
-/

namespace AudioPlayer

def comFsmHoldState : Word := 0xFFFFFF#32
def comFsmEventNone : Word := 0#32
def comFsmEventAll  : Word := 0xFFFFFF#32
def comFsmEventExit : Word := 0x800000#32

/-- `com_fsm_lookup_t`. -/
structure ComFsmLookup (A : Type*) where
  event   : Word
  state   : Word
  action  : A
  timeout : Word := 0
deriving DecidableEq, Repr

variable {A U : Type*}

/-- The test of `com_fsm_get_lookup` on one row (`common_fsm.c:13-21`). -/
def lookupMatches (state event : Word) (lookup : ComFsmLookup A) : Bool :=
  state == lookup.state &&
    (if comFsmEventNone == event then event == lookup.event
     else lookup.event == event &&& lookup.event)

/-- `com_fsm_get_lookup`: the first row that matches. -/
def comFsmGetLookup (lookup : List (ComFsmLookup A)) (state event : Word) : Option (ComFsmLookup A) :=
  lookup.find? (lookupMatches state event)

/-- The row a turn runs on the taken set `events` (`common_fsm.c:77-81`). -/
def comFsmSelect (lookup : List (ComFsmLookup A)) (curState events : Word) : Option (ComFsmLookup A) :=
  match comFsmGetLookup lookup curState events with
  | some l => some l
  | none => if comFsmEventNone == events then comFsmGetLookup lookup curState comFsmEventNone else none

/-- A turn of `com_fsm_task` on the taken set `events`: the new `cur_state`, the user parameter and the
actions run (`common_fsm.c:69-90`). `exec` runs an action on the user parameter. -/
def comFsmDispatch (exec : A → U → U × Word) (lookup : List (ComFsmLookup A)) (curState : Word) (u : U)
    (events : Word) : Word × U × List A :=
  if comFsmEventExit &&& events ≠ 0 then (curState, u, [])
  else
    match comFsmSelect lookup curState events with
    | none => (curState, u, [])
    | some l =>
      let (u', state) := exec l.action u
      (if state ≠ comFsmHoldState ∧ state ≠ curState then state else curState, u', [l.action])

/-- What a turn does, in order. -/
inductive FsmOut (A : Type*)
  | action (a : A)
  | ack (events : Word)
deriving DecidableEq, Repr

/-- The whole turn: the dispatch, then `xEventGroupSetBits` on the ack group (`common_fsm.c:92-93`). -/
def comFsmTurn (exec : A → U → U × Word) (lookup : List (ComFsmLookup A)) (curState : Word) (u : U)
    (events : Word) : Word × U × List (FsmOut A) :=
  let (s, u', as) := comFsmDispatch exec lookup curState u events
  (s, u', as.map .action ++ if events ≠ comFsmEventNone then [.ack events] else [])

/-! ## Which row is selected -/

variable {lookup : List (ComFsmLookup A)} {s E : Word} {exec : A → U → U × Word} {u : U}

/-- All event bits of the row are in `E`: the row is for state `s` and `E` contains what it asks for. -/
def Applies (s E : Word) (r : ComFsmLookup A) : Prop := r.state = s ∧ E &&& r.event = r.event

instance : DecidablePred (Applies (A := A) s E) := fun _ => inferInstanceAs (Decidable (_ ∧ _))

theorem lookupMatches_iff (hE : E ≠ 0) (r : ComFsmLookup A) : lookupMatches s E r ↔ Applies s E r := by
  have h0 : ¬ (comFsmEventNone = E) := fun h => hE h.symm
  simp only [lookupMatches, Applies, Bool.and_eq_true, beq_iff_eq, h0, if_false]
  exact ⟨fun h => ⟨h.1.symm, h.2.symm⟩, fun h => ⟨h.1.symm, h.2.symm⟩⟩

theorem comFsmSelect_eq (hE : E ≠ 0) :
    comFsmSelect lookup s E = lookup.find? (fun r => decide (Applies s E r)) := by
  have hf : lookupMatches s E = fun r : ComFsmLookup A => decide (Applies s E r) := by
    funext r
    rw [Bool.eq_iff_iff, decide_eq_true_iff, lookupMatches_iff hE]
  have h0 : (comFsmEventNone == E) = false := beq_false_of_ne fun h => hE h.symm
  simp only [comFsmSelect, comFsmGetLookup, hf, h0]
  cases lookup.find? (fun r => decide (Applies s E r)) <;> rfl

/-- Whatever the set, the row that runs is one of the table's for this state. -/
theorem comFsmSelect_mem {l : ComFsmLookup A} (h : comFsmSelect lookup s E = some l) : l ∈ lookup ∧ l.state = s := by
  have found : ∀ {E' : Word}, comFsmGetLookup lookup s E' = some l → l ∈ lookup ∧ l.state = s := by
    intro E' h'
    have hm := List.find?_some h'
    simp only [lookupMatches, Bool.and_eq_true, beq_iff_eq] at hm
    exact ⟨List.mem_of_find?_eq_some h', hm.1.symm⟩
  unfold comFsmSelect at h
  split at h
  · rename_i l' h'
    cases h
    exact found h'
  · split at h
    · exact found h
    · cases h

/-- A turn on a non-empty set without `COM_FSM_EVENT_EXIT` runs at most the selected row, and
acknowledges the set last. -/
theorem comFsmTurn_out (hE : E ≠ 0) (hx : comFsmEventExit &&& E = 0) :
    (comFsmTurn exec lookup s u E).2.2 =
      ((lookup.find? fun r => decide (Applies s E r)).map fun r => FsmOut.action r.action).toList ++
        [.ack E] := by
  simp only [comFsmTurn, comFsmDispatch, hx, ne_eq, not_true, if_false, comFsmSelect_eq hE]
  have h0 : ¬ E = comFsmEventNone := hE
  cases lookup.find? (fun r => decide (Applies s E r)) <;> simp [h0]

/-! ## Nothing asked for is lost -/

/-- `e` is one event bit. -/
def IsBit (e : Word) : Prop := ∃ i < 32, e = BitVec.twoPow 32 i

instance : DecidablePred IsBit := fun _ => inferInstanceAs (Decidable (∃ i < 32, _))

theorem IsBit.ne_zero {e : Word} (h : IsBit e) : e ≠ 0 := by
  obtain ⟨i, hi, rfl⟩ := h
  intro h0
  have := congrArg (fun w => BitVec.getLsbD w i) h0
  simp [hi] at this

/-- Every bit of `E` that the table has a row for in state `s` has that row's action run before the bit
is acknowledged. -/
def CarriesOut (lookup : List (ComFsmLookup A)) (s E : Word) (out : List (FsmOut A)) : Prop :=
  ∀ r ∈ lookup, r.state = s → IsBit r.event → E &&& r.event = r.event →
    ∃ pre post, out = pre ++ .ack E :: post ∧ .action r.action ∈ pre

/-- The first row that applies has the action of every row that is for one bit of `E`. -/
def OneAction (lookup : List (ComFsmLookup A)) (s E : Word) : Prop :=
  ∀ r ∈ lookup, IsBit r.event → Applies s E r →
    ∀ r₀ ∈ (lookup.filter fun l => decide (Applies s E l)).head?, r₀.action = r.action

instance [DecidableEq A] : Decidable (OneAction lookup s E) :=
  inferInstanceAs (Decidable (∀ r ∈ lookup, IsBit r.event → Applies s E r → _))

theorem append_ack_inj {as pre post : List (FsmOut A)} (has : ∀ o ∈ as, ∃ a, o = .action a)
    (h : as ++ [.ack E] = pre ++ .ack E :: post) : pre = as := by
  induction as generalizing pre with
  | nil =>
    cases pre with
    | nil => rfl
    | cons p pre => simp at h
  | cons o as ih =>
    obtain ⟨a, rfl⟩ := has o (by simp)
    cases pre with
    | nil => simp at h
    | cons p pre =>
      simp only [List.cons_append, List.cons.injEq] at h
      rw [ih (fun o ho => has o (by simp [ho])) h.2, h.1]

/-- **Which sets are carried out.** One turn of `com_fsm_task` on a set `E` without
`COM_FSM_EVENT_EXIT` executes the action of every row for a bit of `E` before acknowledging that bit
exactly when the first row that applies has all these actions. -/
theorem comFsmTurn_carriesOut_iff (exec : A → U → U × Word) (lookup : List (ComFsmLookup A))
    (s : Word) (u : U) (E : Word) (hx : comFsmEventExit &&& E = 0) :
    CarriesOut lookup s E (comFsmTurn exec lookup s u E).2.2 ↔ OneAction lookup s E := by
  by_cases hE : E = 0
  · -- no bit is in the empty set
    subst hE
    refine ⟨fun _ r _ hb ha => absurd ?_ hb.ne_zero, fun _ r _ _ hb ha => absurd ?_ hb.ne_zero⟩
    · exact ha.2.symm.trans BitVec.zero_and
    · exact ha.symm.trans BitVec.zero_and
  rw [comFsmTurn_out hE hx]
  simp only [OneAction, List.head?_filter]
  cases hf : lookup.find? (fun r => decide (Applies s E r)) with
  | none =>
    have hno : ∀ r ∈ lookup, ¬ Applies s E r := by simpa using hf
    exact ⟨fun _ r hr _ ha => absurd ha (hno r hr), fun _ r hr hs _ ha => absurd ⟨hs, ha⟩ (hno r hr)⟩
  | some r₀ =>
    simp only [Option.map_some, Option.toList_some]
    constructor
    · intro h r hr hb ha r₁ h₁
      obtain ⟨pre, post, he, hm⟩ := h r hr ha.1 hb ha.2
      rw [append_ack_inj (by simp) he] at hm
      obtain rfl : r₀ = r₁ := by simpa using h₁
      simpa [eq_comm] using hm
    · intro h r hr hs hb ha
      have := h r hr hb ⟨hs, ha⟩ r₀ rfl
      exact ⟨[.action r₀.action], [], rfl, by simp [this]⟩

/-! ## The decoder's table -/

/-- The actions of `mp3_decoder.c`, by name. -/
inductive Mp3DecoderAction
  | start | stop | pause | resume | seek | runPoll
deriving DecidableEq, Repr

def mp3DecoderEventStart  : Word := 0x01#32
def mp3DecoderEventResume : Word := 0x02#32
def mp3DecoderEventPause  : Word := 0x04#32
def mp3DecoderEventStop   : Word := 0x10#32
def mp3DecoderEventSeek   : Word := 0x20#32

def mp3DecoderStaIdle  : Word := 0#32
def mp3DecoderStaRun   : Word := 1#32
def mp3DecoderStaPause : Word := 2#32

/-- `lookup` of `mp3_decoder_init` (`src/mp3_decoder.c:276-286`). -/
def mp3DecoderLookup : List (ComFsmLookup Mp3DecoderAction) := [
  { event := mp3DecoderEventStart,  state := mp3DecoderStaIdle,  action := .start },
  { event := mp3DecoderEventStop,   state := mp3DecoderStaRun,   action := .stop },
  { event := mp3DecoderEventStop,   state := mp3DecoderStaPause, action := .stop },
  { event := mp3DecoderEventPause,  state := mp3DecoderStaRun,   action := .pause },
  { event := mp3DecoderEventSeek,   state := mp3DecoderStaRun,   action := .seek },
  { event := mp3DecoderEventSeek,   state := mp3DecoderStaPause, action := .seek },
  { event := mp3DecoderEventResume, state := mp3DecoderStaPause, action := .resume },
  { event := comFsmEventNone,       state := mp3DecoderStaRun,   action := .runPoll } ]

/-- What the actions whose state change matters here answer: pausing and resuming. -/
def mp3DecoderExec (a : Mp3DecoderAction) (u : Unit) : Unit × Word :=
  match a with
  | .start | .resume => (u, mp3DecoderStaRun)
  | .stop => (u, mp3DecoderStaIdle)
  | .pause => (u, mp3DecoderStaPause)
  | .seek | .runPoll => (u, comFsmHoldState)

/-- A running decoder that finds a pause, a resume and a start together pauses; it has no row for the others. -/
theorem mp3Decoder_pause_carriesOut :
    CarriesOut mp3DecoderLookup mp3DecoderStaRun
      (mp3DecoderEventPause ||| mp3DecoderEventResume ||| mp3DecoderEventStart)
      (comFsmTurn mp3DecoderExec mp3DecoderLookup mp3DecoderStaRun ()
        (mp3DecoderEventPause ||| mp3DecoderEventResume ||| mp3DecoderEventStart)).2.2 :=
  (comFsmTurn_carriesOut_iff _ _ _ _ _ (by decide)).2 (by decide)

/-- A paused decoder that finds a seek and a resume together seeks, acknowledges both, and never
resumes. -/
theorem mp3Decoder_resume_lost :
    ¬ CarriesOut mp3DecoderLookup mp3DecoderStaPause (mp3DecoderEventSeek ||| mp3DecoderEventResume)
      (comFsmTurn mp3DecoderExec mp3DecoderLookup mp3DecoderStaPause ()
        (mp3DecoderEventSeek ||| mp3DecoderEventResume)).2.2 := by
  intro h
  obtain ⟨pre, post, he, hm⟩ := h ⟨mp3DecoderEventResume, mp3DecoderStaPause, .resume, 0⟩
    (by decide) rfl (by decide) (by decide)
  have hout : (comFsmTurn mp3DecoderExec mp3DecoderLookup mp3DecoderStaPause ()
      (mp3DecoderEventSeek ||| mp3DecoderEventResume)).2.2 =
      [.action .seek] ++ [.ack (mp3DecoderEventSeek ||| mp3DecoderEventResume)] := by decide
  rw [append_ack_inj (by simp) (hout.symm.trans he)] at hm
  simp at hm

/-! ## The table of the PCM output task -/

/-- The actions of `pcm_trans.c` on the output side, by name. -/
inductive PcmTransTxAction
  | start | stop | resume | runPoll
deriving DecidableEq, Repr

def pcmTransEventStart  : Word := 0x01#32
def pcmTransEventResume : Word := 0x02#32
def pcmTransEventStop   : Word := 0x08#32

def pcmTransStaIdle    : Word := 0#32
def pcmTransStaTxRun   : Word := 2#32
def pcmTransStaTxPause : Word := 4#32
def pcmTransStaTxDone  : Word := 5#32

/-- `lookup_tx` of `pcm_trans_init` (`src/pcm_trans.c:180-188`). -/
def pcmTransLookupTx : List (ComFsmLookup PcmTransTxAction) := [
  { event := pcmTransEventStart,  state := pcmTransStaIdle,    action := .start },
  { event := pcmTransEventStop,   state := pcmTransStaTxRun,   action := .stop },
  { event := pcmTransEventStop,   state := pcmTransStaTxPause, action := .stop },
  { event := pcmTransEventStop,   state := pcmTransStaTxDone,  action := .stop },
  { event := pcmTransEventResume, state := pcmTransStaTxPause, action := .resume },
  { event := comFsmEventNone,     state := pcmTransStaTxRun,   action := .runPoll } ]

/-- The states the actions answer; `snd_pcm` and the data callback do not show in them, except that
`run_poll` may also pause, which is left to the callback's value `u`: does it still deliver data. -/
def pcmTransExecTx (a : PcmTransTxAction) (u : Bool) : Bool × Word :=
  match a with
  | .start | .resume => (u, pcmTransStaTxRun)
  | .stop => (u, pcmTransStaIdle)
  | .runPoll => (u, if u then comFsmHoldState else pcmTransStaTxPause)

end AudioPlayer

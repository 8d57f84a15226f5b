import Mathlib
import AudioPlayer.Lib.Steps

/-!
# Players and the one PCM output (`src/common_player.c`)

`g_pcm_trans_holder` says which `com_player_t` feeds the PCM task. `com_player_start` tests it, starts the
decoder, waits up to 15 s for its first output, and only then registers its callback and takes it, without
another test.

| here | there |
| --- | --- |
| `comPlayerStartTest` | `com_player_start` up to the wait (`common_player.c:66-112`) |
| `comPlayerStartTake` | from what the wait returned to the end (`:114-130`) |
| `comPlayerStop`, `comPlayerPause`, `comPlayerResume` | `:133-209` |
| `ComPlayerStep` | any number of players `P`, each call one step but for the wait inside a start |

The decoders and the event group are outside; `StartWait` is what the wait returned. A seek is a pause and a
resume (`audio_player_process.c:138-147`); `com_player_seek` between them leaves the output alone.
-/

namespace AudioPlayer
open Lib

variable {P : Type*}

/-- `com_player_type_t` -/
inductive ComPlayerType
  | mp3 | aac | m4a
deriving DecidableEq, Repr

/-- `com_player_return_t` -/
inductive ComPlayerReturn
  | success | errParam | errPcmTrans | errExit | errTimeout | errSeek
deriving DecidableEq, Repr

/-- `com_player_t`; `converter` says whether the pointer is not `NULL`. -/
structure ComPlayer where
  decoderType        : ComPlayerType := .mp3
  inputDone          : Bool := false
  waitDecoder        : Bool := false
  consumed           : Nat := 0
  enablePcmOrDecoder : Bool := false
  converter          : Bool := false
deriving DecidableEq, Repr

/-- `g_pcm_trans_holder` and the callback parameter registered with the PCM task. -/
structure PcmOutput (P : Type*) where
  holder   : Option P
  callback : Option P
deriving DecidableEq

/-- What `com_player_wait_event` came back with. -/
inductive StartWait
  | decoder | exit | timeout
deriving DecidableEq, Repr

/-- `pcm_trans_start_tx` has one return value, `PCM_TRANS_SUCCESS` (`pcm_trans.c:229-241`). -/
def pcmTransStartTx : Bool := true

section
variable [DecidableEq P]

/-- `com_player_start` up to its wait: an error, or none and the decoder is started. `alloc` is the outcome of
`com_player_convert_alloc`. -/
def comPlayerStartTest (type : ComPlayerType) (alloc : Bool) (out : PcmOutput P) (c : ComPlayer) :
    Option ComPlayerReturn × ComPlayer :=
  let c := { c with
    inputDone := false
    waitDecoder := true
    consumed := 0
    enablePcmOrDecoder := true
    converter := false
    decoderType := type }
  if out.holder ≠ none then (some .errPcmTrans, c)
  else if !alloc then (some .errPcmTrans, c)
  else (none, { c with converter := true })

/-- `com_player_start` from its wait on. -/
def comPlayerStartTake (self : P) (events : StartWait) (out : PcmOutput P) (c : ComPlayer) :
    ComPlayerReturn × PcmOutput P × ComPlayer :=
  match events with
  | .decoder =>
    let out := { out with callback := some self }
    if !pcmTransStartTx then (.errPcmTrans, out, c)
    else (.success, { out with holder := some self }, { c with waitDecoder := false })
  | .exit => (.errExit, out, c)
  | .timeout => (.errTimeout, out, c)

/-- The output is given back by the player that holds it (`:137-142`, `:174-179`). -/
def comPlayerRelease (self : P) (out : PcmOutput P) : PcmOutput P :=
  if out.holder = some self then { holder := none, callback := none } else out

/-- `com_player_stop` -/
def comPlayerStop (self : P) (out : PcmOutput P) (c : ComPlayer) : PcmOutput P × ComPlayer :=
  (comPlayerRelease self out, { c with enablePcmOrDecoder := false, converter := false })

/-- `com_player_pause` -/
def comPlayerPause (self : P) (out : PcmOutput P) (c : ComPlayer) : PcmOutput P × ComPlayer :=
  (comPlayerRelease self out, { c with enablePcmOrDecoder := false })

/-- `com_player_resume` -/
def comPlayerResume (self : P) (out : PcmOutput P) (c : ComPlayer) : ComPlayerReturn × PcmOutput P × ComPlayer :=
  if out.holder ≠ none then (.errPcmTrans, out, c)
  else
    let c := { c with enablePcmOrDecoder := true }
    let out := { out with callback := some self }
    if !pcmTransStartTx then (.errPcmTrans, out, c) else (.success, { out with holder := some self }, c)

/-! ## Several players -/

/-- The players, the output, who is inside the wait of a start, and whose last successful start or resume has
not been followed by a pause or stop of its own (which no function reads). -/
structure ComPlayerSys (P : Type*) where
  out     : PcmOutput P
  player  : P → ComPlayer
  waiting : P → Bool
  active  : P → Bool

inductive ComPlayerAct (P : Type*)
  | startTest (p : P) (type : ComPlayerType) (alloc : Bool)
  | startTake (p : P) (events : StartWait)
  | stop (p : P)
  | pause (p : P)
  | resume (p : P)

/-- Nobody plays. -/
def comPlayerInit : ComPlayerSys P := ⟨⟨none, none⟩, fun _ => {}, fun _ => false, fun _ => false⟩

/-- One step of a player's thread; a thread inside a start does nothing else. -/
inductive ComPlayerStep : ComPlayerSys P → ComPlayerAct P → ComPlayerSys P → Prop
  | startTest {s p type alloc} : s.waiting p = false →
      ComPlayerStep s (.startTest p type alloc)
        { s with
          player := Function.update s.player p (comPlayerStartTest type alloc s.out (s.player p)).2
          waiting := Function.update s.waiting p (comPlayerStartTest type alloc s.out (s.player p)).1.isNone }
  | startTake {s p events} : s.waiting p = true →
      ComPlayerStep s (.startTake p events)
        { out := (comPlayerStartTake p events s.out (s.player p)).2.1
          player := Function.update s.player p (comPlayerStartTake p events s.out (s.player p)).2.2
          waiting := Function.update s.waiting p false
          active := if (comPlayerStartTake p events s.out (s.player p)).1 = .success
            then Function.update s.active p true else s.active }
  | stop {s p} : s.waiting p = false →
      ComPlayerStep s (.stop p)
        { s with
          out := (comPlayerStop p s.out (s.player p)).1
          player := Function.update s.player p (comPlayerStop p s.out (s.player p)).2
          active := Function.update s.active p false }
  | pause {s p} : s.waiting p = false →
      ComPlayerStep s (.pause p)
        { s with
          out := (comPlayerPause p s.out (s.player p)).1
          player := Function.update s.player p (comPlayerPause p s.out (s.player p)).2
          active := Function.update s.active p false }
  | resume {s p} : s.waiting p = false →
      ComPlayerStep s (.resume p)
        { s with
          out := (comPlayerResume p s.out (s.player p)).2.1
          player := Function.update s.player p (comPlayerResume p s.out (s.player p)).2.2
          active := if (comPlayerResume p s.out (s.player p)).1 = .success
            then Function.update s.active p true else s.active }

end

/-- At most one player is active, and `g_pcm_trans_holder` is that player, or `NULL`. -/
def ComPlayerSys.Exclusive (s : ComPlayerSys P) : Prop :=
  (∀ p q, s.active p = true → s.active q = true → p = q) ∧ ∀ p, s.out.holder = some p ↔ s.active p = true

/-- The holder decides: the rest follows. -/
theorem exclusive_of_holder {s : ComPlayerSys P} (h : ∀ p, s.out.holder = some p ↔ s.active p = true) : s.Exclusive := by
  refine ⟨fun p q hp hq => ?_, h⟩
  have := ((h p).2 hp).symm.trans ((h q).2 hq)
  simpa using this

/-- A start whose decoder came up finds the output still free. -/
def TakesFree (s : ComPlayerSys P) : ComPlayerAct P → Prop
  | .startTake _ .decoder => s.out.holder = none
  | _ => True

section
variable [DecidableEq P] {s s' : ComPlayerSys P} {a : ComPlayerAct P} {p : P}

theorem take_iff (h : ∀ q, s.out.holder = some q ↔ s.active q = true) (hfree : s.out.holder = none) (q : P) :
    some p = some q ↔ Function.update s.active p true q = true := by
  by_cases hq : q = p
  · subst hq
    simp
  · rw [Function.update_of_ne hq, ← h q, hfree]
    simp [Ne.symm hq]

theorem release_iff (h : ∀ q, s.out.holder = some q ↔ s.active q = true) (q : P) :
    (comPlayerRelease p s.out).holder = some q ↔ Function.update s.active p false q = true := by
  unfold comPlayerRelease
  by_cases hq : q = p
  · subst hq
    rw [Function.update_self]
    by_cases hh : s.out.holder = some q
    · simp [hh]
    · simp [hh]
  · rw [Function.update_of_ne hq, ← h q]
    by_cases hh : s.out.holder = some p
    · simp [hh, Ne.symm hq]
    · rw [if_neg hh]

theorem ComPlayerStep.exclusive (h : s.Exclusive) (hs : ComPlayerStep s a s') (hc : TakesFree s a) :
    s'.Exclusive := by
  have hholder := h.2
  cases hs with
  | startTest => exact exclusive_of_holder hholder
  | @startTake p events =>
    cases events with
    | decoder => exact exclusive_of_holder fun q => take_iff hholder hc q
    | exit => exact exclusive_of_holder hholder
    | timeout => exact exclusive_of_holder hholder
  | stop => exact exclusive_of_holder fun q => release_iff hholder q
  | pause => exact exclusive_of_holder fun q => release_iff hholder q
  | @resume p =>
    by_cases hfree : s.out.holder = none
    · have hres : comPlayerResume p s.out (s.player p) =
          (.success, ⟨some p, some p⟩, { s.player p with enablePcmOrDecoder := true }) := by
        simp [comPlayerResume, hfree, pcmTransStartTx]
      rw [hres]
      exact exclusive_of_holder fun q => take_iff hholder hfree q
    · have hres : comPlayerResume p s.out (s.player p) = (.errPcmTrans, s.out, s.player p) := by
        simp [comPlayerResume, hfree]
      rw [hres]
      exact exclusive_of_holder hholder

/-- A start that takes an output which somebody else holds makes two players active. -/
theorem startTake_not_exclusive {q : P} (h : s.Exclusive) (hp : s.active p = false) (hq : s.out.holder = some q)
    (hs : ComPlayerStep s (.startTake p .decoder) s') : ¬ s'.Exclusive := by
  have hactive := (h.2 q).1 hq
  have hne : q ≠ p := by
    rintro rfl
    exact absurd hactive (by simp [hp])
  cases hs with
  | startTake =>
    intro h'
    refine hne (h'.1 q p ?_ ?_)
    · change Function.update s.active p true q = true
      rwa [Function.update_of_ne hne]
    · change Function.update s.active p true p = true
      exact Function.update_self _ _ _

/-- **One player at a time** in every run in which each start whose decoder came up finds the output still
free. -/
theorem comPlayer_exclusive {acts : List (ComPlayerAct P)}
    (h : Steps (Restrict ComPlayerStep TakesFree) comPlayerInit acts s) : s.Exclusive :=
  h.invariant (I := ComPlayerSys.Exclusive) (fun _ _ _ hi hs => hs.1.exclusive hi hs.2)
    (exclusive_of_holder fun p => by simp [comPlayerInit])

end

theorem comPlayer_exclusive_resumed : ∃ s : ComPlayerSys Bool, s.Exclusive ∧ s.out.holder = some true := by
  have hrun : Steps (Restrict ComPlayerStep TakesFree) (comPlayerInit : ComPlayerSys Bool)
      [.startTest true .mp3 true, .startTake true .decoder, .pause true, .resume true] _ :=
    .cons ⟨.startTest rfl, trivial⟩ (.cons ⟨.startTake rfl, rfl⟩
      (.cons ⟨.pause rfl, trivial⟩ (.one ⟨.resume rfl, trivial⟩)))
  exact ⟨_, comPlayer_exclusive hrun, rfl⟩

/-- Both players test the free output, then both take it. -/
theorem comPlayer_two_active : ¬ ∀ (acts : List (ComPlayerAct Bool)) (s : ComPlayerSys Bool),
    Steps ComPlayerStep comPlayerInit acts s → s.Exclusive := by
  intro h
  have hrun : Steps ComPlayerStep (comPlayerInit : ComPlayerSys Bool)
      [.startTest false .mp3 true, .startTest true .mp3 true, .startTake true .decoder,
        .startTake false .decoder] _ :=
    .cons (.startTest rfl) (.cons (.startTest rfl) (.cons (.startTake rfl) (.one (.startTake rfl))))
  exact absurd ((h _ _ hrun).1 false true rfl rfl) (by decide)

end AudioPlayer

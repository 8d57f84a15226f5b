import Mathlib
import AudioPlayer.CommonFsmLog
import AudioPlayer.AudioPlayerProcess

/-!
# What the player tells its user (`src/audio_player_process.c`)

`audio_player_callback` is called inside the actions, some of which fail after they have called it. A listener that
only hears these calls follows the state machine with `audioPlayerFollow`: `audioPlayer_told` says that it is never
surprised and always right, and that each start, also one that fails, is answered by one STOP.

| here | there |
|---|---|
| `AudioPlayerCallback`   | the events the callback is called with (`audio_player_process.h:33-43`) |
| `audioPlayer…Told`      | the actions with the calls they make, in order (`audio_player_process.c:213-331`) |
| `ToldSys`, `ToldStep`   | runs with these calls; a callback is registered |
| `audioPlayerFollow`     | the listener |
-/

namespace AudioPlayer
open Lib

variable {P : Type*}

/-- The events of `audio_player_event_t` that are told. -/
inductive AudioPlayerCallback
  | start | stop | pause | resume | break | progress
deriving DecidableEq, Repr

/-! ## The actions -/

section
variable [DecidableEq P] (self : P) (env : AudioPlayerEnv)

/-- `audioPlayerEnd` after the calls `told`: `audio_player_proc_stop` ends with STOP (`:119-121`). -/
def audioPlayerEndTold (told : List AudioPlayerCallback) (ret : AudioPlayerReturn) (state : Word)
    (a : AudioPlayerProc) (out : PcmOutput P) : ((AudioPlayerProc × PcmOutput P) × Word) × List AudioPlayerCallback :=
  let a := audioPlayerUpdateLastError env.reported (audioPlayerUpdateLastError ret a)
  if a.lastError ≠ .success then ((audioPlayerProcStop self env a out, audioPlayerStaIdle), told ++ [.stop])
  else (((a, out), state), told)

/-- `audio_player_proc_start_action`: START is told once `com_player_start` has succeeded (`:103-105`). -/
def audioPlayerStartTold (u : AudioPlayerProc × PcmOutput P) :
    ((AudioPlayerProc × PcmOutput P) × Word) × List AudioPlayerCallback :=
  let (ret, a, out) := audioPlayerProcStart self env u.1 u.2
  let told := if ret = .success then [.start] else []
  let a := audioPlayerUpdateLastError env.reported (audioPlayerUpdateLastError ret a)
  if a.lastError = .success then (((a, out), audioPlayerStaPlay), told)
  else ((audioPlayerProcStop self env a out, comFsmHoldState), told ++ [.stop])

/-- `audio_player_proc_stop_action` -/
def audioPlayerStopTold (u : AudioPlayerProc × PcmOutput P) :
    ((AudioPlayerProc × PcmOutput P) × Word) × List AudioPlayerCallback :=
  (audioPlayerProcStopAction self env u, [.stop])

/-- `audio_player_proc_pause_action`: PAUSE is told before it is known whether there was an error (`:131-133`). -/
def audioPlayerPauseTold (state : Word) (u : AudioPlayerProc × PcmOutput P) :
    ((AudioPlayerProc × PcmOutput P) × Word) × List AudioPlayerCallback :=
  if state = audioPlayerStaBreak then ((u, audioPlayerStaPause), [.pause])
  else
    let (ret, a, out) := audioPlayerProcPause self env u.1 u.2
    audioPlayerEndTold self env [.pause] ret audioPlayerStaPause a out

/-- `audio_player_proc_break_action`, BREAK likewise. -/
def audioPlayerBreakTold (u : AudioPlayerProc × PcmOutput P) :
    ((AudioPlayerProc × PcmOutput P) × Word) × List AudioPlayerCallback :=
  let (ret, a, out) := audioPlayerProcPause self env u.1 u.2
  audioPlayerEndTold self env [.break] ret audioPlayerStaBreak a out

/-- `audio_player_proc_resume_action`: RESUME is told if both parts succeed (`:161-163`). -/
def audioPlayerResumeTold (u : AudioPlayerProc × PcmOutput P) :
    ((AudioPlayerProc × PcmOutput P) × Word) × List AudioPlayerCallback :=
  let (ret, a, out) := audioPlayerProcResume self env u.1 u.2
  audioPlayerEndTold self env (if ret = .success then [.resume] else []) ret audioPlayerStaPlay a out

/-- `audio_player_proc_seek_action` -/
def audioPlayerSeekTold (u : AudioPlayerProc × PcmOutput P) :
    ((AudioPlayerProc × PcmOutput P) × Word) × List AudioPlayerCallback :=
  let (ret, a, out) := audioPlayerProcSeek self u.1 u.2
  audioPlayerEndTold self env [] ret comFsmHoldState a out

/-- `audio_player_proc_play_poll`; `progress` says that the interval is over and the progress known (`:170-180`). -/
def audioPlayerPlayPollTold (progress : Bool) (u : AudioPlayerProc × PcmOutput P) :
    ((AudioPlayerProc × PcmOutput P) × Word) × List AudioPlayerCallback :=
  audioPlayerEndTold self env (if progress then [.progress] else []) (audioPlayerProcMonitor env) comFsmHoldState
    u.1 u.2

def audioPlayerExecTold (progress : Bool) (state : Word) : AudioPlayerAction → AudioPlayerProc × PcmOutput P →
    ((AudioPlayerProc × PcmOutput P) × Word) × List AudioPlayerCallback
  | .start => audioPlayerStartTold self env
  | .stop => audioPlayerStopTold self env
  | .pause => audioPlayerPauseTold self env state
  | .break => audioPlayerBreakTold self env
  | .resume => audioPlayerResumeTold self env
  | .seek => audioPlayerSeekTold self env
  | .playPoll => audioPlayerPlayPollTold self env progress

end

/-! ## Runs -/

/-- The player, what was told so far, and how many starts its task has taken on. -/
structure ToldSys (P : Type*) where
  sys    : AudioPlayerSys P
  told   : List AudioPlayerCallback
  starts : Nat

/-- One turn of `com_fsm_task` on the set `events`. -/
def ToldSys.turn [DecidableEq P] (self : P) (s : ToldSys P) (events : Word) (env : AudioPlayerEnv) (progress : Bool) :
    ToldSys P :=
  let (state, ((proc, out), told), actions) :=
    comFsmDispatch (comFsmLogged (audioPlayerExecTold self env progress s.sys.curState)) audioPlayerLookup
      s.sys.curState ((s.sys.proc, s.sys.out), s.told) events
  ⟨⟨state, proc, out⟩, told, s.starts + actions.count .start⟩

inductive ToldStep [DecidableEq P] (self : P) : ToldSys P → AudioPlayerAct P → ToldSys P → Prop
  | turn {s events env progress} : ToldStep self s (.turn events env) (s.turn self events env progress)
  | other {s act sys} : (∀ events env, act ≠ .turn events env) → AudioPlayerStep self s.sys act sys →
      ToldStep self s act { s with sys }

def ToldSys.init (out : PcmOutput P) : ToldSys P := ⟨audioPlayerInit out, [], 0⟩

/-- What a call means to a listener that takes the player to be in `state`; `none` where it cannot be. -/
def audioPlayerFollow (state : Word) : AudioPlayerCallback → Option Word
  | .start => if state = audioPlayerStaIdle then some audioPlayerStaPlay else none
  | .stop => some audioPlayerStaIdle
  | .pause => if state = audioPlayerStaPlay ∨ state = audioPlayerStaBreak then some audioPlayerStaPause else none
  | .break => if state = audioPlayerStaPlay then some audioPlayerStaBreak else none
  | .resume => if state = audioPlayerStaPause ∨ state = audioPlayerStaBreak then some audioPlayerStaPlay else none
  | .progress => if state = audioPlayerStaPlay then some audioPlayerStaPlay else none

/-- Where a listener in `state` is after `told`. -/
def audioPlayerFollows (state : Word) (told : List AudioPlayerCallback) : Option Word :=
  follows audioPlayerFollow state told

/-- 1 while something is played, paused or broken off. -/
def audioPlayerBusy (state : Word) : Nat := if state = audioPlayerStaIdle then 0 else 1

section
variable [DecidableEq P] {self : P} {env : AudioPlayerEnv} {s t : ToldSys P} {act : AudioPlayerAct P}
  {u : AudioPlayerProc × PcmOutput P} {a : AudioPlayerProc} {out : PcmOutput P} {state old : Word}
  {told : List AudioPlayerCallback} {ret : AudioPlayerReturn} {events : Word}

/-! ## The same state machine -/

theorem endTold_fst :
    (audioPlayerEndTold self env told ret state a out).1 = audioPlayerEnd self env ret state a out := by
  unfold audioPlayerEndTold audioPlayerEnd
  dsimp only
  split <;> rfl

/-- The calls change nothing. -/
theorem execTold_fst (progress : Bool) (action : AudioPlayerAction) :
    (audioPlayerExecTold self env progress state action u).1 = audioPlayerExec self env state action u := by
  cases action with
  | start =>
    unfold audioPlayerExecTold audioPlayerExec audioPlayerStartTold audioPlayerProcStartAction
    dsimp only
    split <;> rfl
  | stop => rfl
  | pause =>
    unfold audioPlayerExecTold audioPlayerExec audioPlayerPauseTold audioPlayerProcPauseAction
    dsimp only
    split
    · rfl
    · exact endTold_fst
  | «break» => exact endTold_fst
  | resume => exact endTold_fst
  | seek => exact endTold_fst
  | playPoll => exact endTold_fst

/-- Runs with the calls are runs of the player. -/
theorem ToldStep.player (h : ToldStep self s act t) : AudioPlayerStep self s.sys act t.sys := by
  cases h with
  | @turn events env progress =>
    have hexec : (fun action u => (audioPlayerExecTold self env progress s.sys.curState action u).1) =
        audioPlayerExec self env s.sys.curState := by
      funext action u
      exact execTold_fst progress action
    have hturn : (s.turn self events env progress).sys = s.sys.turn self events env := by
      unfold ToldSys.turn AudioPlayerSys.turn
      dsimp only
      rw [← hexec, comFsmLogged_dispatch _ _ _ ((s.sys.proc, s.sys.out), s.told)]
    rw [hturn]
    exact .turn
  | other _ h => exact h

/-! ## What the listener hears -/

/-- An action, called in `old`, ends where the listener takes it to be, and answers the start that is under way with
one STOP or goes on. -/
def Heard (old next : Word) (told : List AudioPlayerCallback) : Prop :=
  audioPlayerFollows old told = some (settled old next) ∧ told.count .stop + audioPlayerBusy (settled old next) = 1

instance (old next : Word) (told : List AudioPlayerCallback) : Decidable (Heard old next told) :=
  inferInstanceAs (Decidable (_ ∧ _))

/-- A STOP is heard in every state. -/
theorem Heard.stop {next : Word} (hcount : told.count .stop = 0) (h : audioPlayerFollows old told = some next) :
    Heard old audioPlayerStaIdle (told ++ [.stop]) := by
  refine ⟨?_, ?_⟩
  · rw [audioPlayerFollows, follows_append, ← audioPlayerFollows, h]
    rfl
  · rw [List.count_append, hcount]
    rfl

/-- **The common end of the actions**: either way the listener hears it, if the calls before it are understood and fit
the state to go on in. -/
theorem endTold_heard {next : Word} (hcount : told.count .stop = 0)
    (hfollow : audioPlayerFollows old told = some next) (hnext : ret = .success → settled old state = next)
    (hbusy : next ≠ audioPlayerStaIdle) : Heard old (audioPlayerEndTold self env told ret state a out).1.2
      (audioPlayerEndTold self env told ret state a out).2 := by
  unfold audioPlayerEndTold
  dsimp only
  split
  · exact .stop hcount hfollow
  · rename_i hsuccess
    have hret : ret = .success := by
      by_contra hne
      exact hsuccess (updateLastError_ne hne env.reported)
    refine ⟨?_, ?_⟩
    · rw [hnext hret]
      exact hfollow
    · rw [hnext hret, hcount, audioPlayerBusy, if_neg hbusy]

theorem startTold_heard :
    Heard audioPlayerStaIdle (audioPlayerStartTold self env u).1.2 (audioPlayerStartTold self env u).2 := by
  unfold audioPlayerStartTold
  generalize audioPlayerProcStart self env u.1 u.2 = res
  obtain ⟨ret, a, out⟩ := res
  dsimp only
  by_cases hret : ret = .success
  · rw [if_pos hret]
    split
    · exact show Heard audioPlayerStaIdle audioPlayerStaPlay [.start] by decide
    · exact show Heard audioPlayerStaIdle comFsmHoldState [.start, .stop] by decide
  · rw [if_neg hret, if_neg (updateLastError_ne hret env.reported)]
    exact show Heard audioPlayerStaIdle comFsmHoldState [.stop] by decide

theorem pauseTold_heard :
    Heard audioPlayerStaPlay (audioPlayerPauseTold self env audioPlayerStaPlay u).1.2
      (audioPlayerPauseTold self env audioPlayerStaPlay u).2 :=
  endTold_heard (by decide) (show _ = some audioPlayerStaPause by decide) (fun _ => rfl) (by decide)

theorem breakTold_heard :
    Heard audioPlayerStaPlay (audioPlayerBreakTold self env u).1.2 (audioPlayerBreakTold self env u).2 :=
  endTold_heard (by decide) (show _ = some audioPlayerStaBreak by decide) (fun _ => rfl) (by decide)

/-- A resume that fails is not told. -/
theorem resumeTold_heard (hold : old = audioPlayerStaPause ∨ old = audioPlayerStaBreak) :
    Heard old (audioPlayerResumeTold self env u).1.2 (audioPlayerResumeTold self env u).2 := by
  have hbusy : old ≠ audioPlayerStaIdle := by
    rcases hold with rfl | rfl <;> decide
  have hresume : audioPlayerFollows old [.resume] = some audioPlayerStaPlay := by
    rcases hold with rfl | rfl <;> decide
  unfold audioPlayerResumeTold
  generalize audioPlayerProcResume self env u.1 u.2 = res
  obtain ⟨ret, a, out⟩ := res
  dsimp only
  by_cases hret : ret = .success
  · rw [if_pos hret]
    exact endTold_heard (by decide) hresume (fun _ => rfl) (by decide)
  · rw [if_neg hret]
    exact endTold_heard rfl (show audioPlayerFollows old [] = some old from rfl) (fun h => absurd h hret) hbusy

theorem seekTold_heard :
    Heard audioPlayerStaPlay (audioPlayerSeekTold self env u).1.2 (audioPlayerSeekTold self env u).2 :=
  endTold_heard rfl (show _ = some audioPlayerStaPlay by decide) (fun _ => rfl) (by decide)

theorem playPollTold_heard (progress : Bool) :
    Heard audioPlayerStaPlay (audioPlayerPlayPollTold self env progress u).1.2
      (audioPlayerPlayPollTold self env progress u).2 := by
  refine endTold_heard ?_ (show _ = some audioPlayerStaPlay from ?_) (fun _ => rfl) (by decide)
  · cases progress <;> rfl
  · cases progress <;> rfl

/-- **Each row of the table, in its state.** -/
theorem execTold_heard {l : ComFsmLookup AudioPlayerAction} (hl : l ∈ audioPlayerLookup) (progress : Bool) :
    Heard l.state (audioPlayerExecTold self env progress l.state l.action u).1.2
      (audioPlayerExecTold self env progress l.state l.action u).2 := by
  simp only [audioPlayerLookup, List.mem_cons, List.not_mem_nil, or_false] at hl
  rcases hl with rfl | rfl | rfl | rfl | rfl | rfl | rfl | rfl | rfl | rfl | rfl
  · exact startTold_heard
  · exact show Heard audioPlayerStaPlay audioPlayerStaIdle [.stop] by decide
  · exact show Heard audioPlayerStaBreak audioPlayerStaIdle [.stop] by decide
  · exact show Heard audioPlayerStaPause audioPlayerStaIdle [.stop] by decide
  · exact pauseTold_heard
  · exact show Heard audioPlayerStaBreak audioPlayerStaPause [.pause] by decide
  · exact breakTold_heard
  · exact resumeTold_heard (.inl rfl)
  · exact resumeTold_heard (.inr rfl)
  · exact seekTold_heard
  · exact playPollTold_heard progress

/-- Only the row for START is for IDLE. -/
theorem start_idle {l : ComFsmLookup AudioPlayerAction} (hl : l ∈ audioPlayerLookup) :
    [l.action].count .start + audioPlayerBusy l.state = 1 := by
  simp only [audioPlayerLookup, List.mem_cons, List.not_mem_nil, or_false] at hl
  rcases hl with rfl | rfl | rfl | rfl | rfl | rfl | rfl | rfl | rfl | rfl | rfl <;> decide

/-- What the listener knows of the player. -/
structure Told (s : ToldSys P) : Prop where
  follows : audioPlayerFollows audioPlayerStaIdle s.told = some s.sys.curState
  stops   : s.told.count .stop + audioPlayerBusy s.sys.curState = s.starts

theorem Told.turn (h : Told s) (progress : Bool) : Told (s.turn self events env progress) := by
  refine ⟨?_, ?_⟩
  · refine Followed.dispatch id (fun l hl hstate => ?_) h.follows
    rw [← hstate]
    exact (execTold_heard hl progress).1
  · unfold ToldSys.turn
    dsimp only
    rcases comFsmDispatch_cases (comFsmLogged (audioPlayerExecTold self env progress s.sys.curState))
      audioPlayerLookup s.sys.curState ((s.sys.proc, s.sys.out), s.told) events with hnone | ⟨l, hl, hstate, hres⟩
    · rw [hnone]
      exact h.stops
    · have hheard : Heard l.state
          (audioPlayerExecTold self env progress l.state l.action (s.sys.proc, s.sys.out)).1.2 _ :=
        execTold_heard hl progress
      have hcount := hheard.2
      have hstart := start_idle hl
      have hstops := h.stops
      rw [hstate] at hcount hstart
      rw [hres]
      unfold comFsmLogged
      dsimp only
      rw [List.count_append]
      omega

end

/-- **A listener is never surprised, and always right.** In every run the calls of the callback are ones it can
follow, it takes the player to be in the state it is in, and as many STOPs were told as starts were taken on, less the
one under way. -/
theorem audioPlayer_told [DecidableEq P] {self : P} {out : PcmOutput P} {acts : List (AudioPlayerAct P)}
    {t : ToldSys P} (h : Steps (ToldStep self) (ToldSys.init out) acts t) :
    audioPlayerFollows audioPlayerStaIdle t.told = some t.sys.curState ∧
      t.told.count .stop + audioPlayerBusy t.sys.curState = t.starts := by
  have htold : Told t := by
    refine h.invariant ?_ ⟨rfl, rfl⟩
    intro s act t hs hstep
    cases hstep with
    | @turn events env progress => exact hs.turn progress
    | other hact hplayer =>
      -- between turns the state stays as it is
      cases hplayer with
      | turn => exact absurd rfl (hact _ _)
      | report => exact ⟨hs.follows, hs.stops⟩
      | input => exact ⟨hs.follows, hs.stops⟩
      | startInfo => exact ⟨hs.follows, hs.stops⟩
      | take => exact ⟨hs.follows, hs.stops⟩
      | release => exact ⟨hs.follows, hs.stops⟩
  exact ⟨htold.follows, htold.stops⟩

/-- A pause in which the decoder reports an error is told, and so is the stop it ends in. -/
theorem audioPlayer_told_reported :
    let s := ((ToldSys.init ⟨none, none⟩).turn () audioPlayerEventStart .fine false).turn () audioPlayerEventPause
      { AudioPlayerEnv.fine with reported := .errAudioType } false
    (audioPlayerFollows audioPlayerStaIdle s.told = some s.sys.curState ∧
      s.told.count .stop + audioPlayerBusy s.sys.curState = s.starts) ∧ s.told = [.start, .pause, .stop] :=
  ⟨audioPlayer_told (.snoc (.snoc .nil .turn) .turn), by decide⟩

end AudioPlayer

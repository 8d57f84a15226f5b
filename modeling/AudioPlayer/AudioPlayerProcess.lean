import Mathlib
import AudioPlayer.Lib.Steps
import AudioPlayer.CommonFsm
import AudioPlayer.AudioFile
import AudioPlayer.ComPlayer

/-!
# The player's state machine (`src/audio_player_process.c`)

| here | there |
| --- | --- |
| `audioPlayerProcStart`, `…Stop`, `…Pause`, `…Seek`, `…Resume`, `…Monitor` | `audio_player_process.c:69-201` |
| `audioPlayerProc…Action`, `audioPlayerProcPlayPoll` | `:213-331`, the new state last |
| `audioPlayerLookup` | the table of `audio_player_init` (`:335-350`) |
| `AudioPlayerStep`   | turns on any set, errors reported by the decoder thread, another player between turns |

The user's callback, the log and the progress ticks are left out. `audioPlayer_fits` is what each state says
about the file, the converter and the PCM output.
-/

namespace AudioPlayer
open Lib

variable {P : Type*}

/-- `audio_player_return_t` -/
inductive AudioPlayerReturn
  | success | allEnd | errParam | errOverflow | errPlayerStart | errOpenFile | errCloseFile | errEmptyFile
  | errReadFile | errAudioType | errWebTimeout | errNoPause | errNoPlay | errBreak | errResume
deriving DecidableEq, Repr

def audioPlayerStaIdle  : Word := 0#32
def audioPlayerStaPlay  : Word := 1#32
def audioPlayerStaBreak : Word := 2#32
def audioPlayerStaPause : Word := 3#32

def audioPlayerEventStart  : Word := 0x01#32
def audioPlayerEventStop   : Word := 0x02#32
def audioPlayerEventPause  : Word := 0x04#32
def audioPlayerEventResume : Word := 0x08#32
def audioPlayerEventBreak  : Word := 0x10#32
def audioPlayerEventSeek   : Word := 0x80#32

/-- `audio_player_proc_t`; of `player_info` the source and whether it is a prompt. -/
structure AudioPlayerProc where
  source    : AudioFileType := .web
  isPrompt  : Bool := false
  comPlayer : ComPlayer := {}
  audioFile : Option AudioFile := none
  lastError : AudioPlayerReturn := .success
deriving DecidableEq, Repr

/-- What one action meets: the file's calls, the eight bytes the header is taken from and the bytes of them
that were read ahead, the outcome of
`com_player_convert_alloc`, of the wait for the decoder and of `pcm_trans_is_tx_done`, and what the decoder
thread reports before the action looks at `last_error`. -/
structure AudioPlayerEnv where
  file     : AudioFileEnv
  header   : List Byte
  preread  : List Byte
  alloc    : Bool
  wait     : StartWait
  done     : Bool
  reported : AudioPlayerReturn

/-- `com_player_get_audio_type_by_header` (`common_player.c:363-383`). -/
def comPlayerGetAudioTypeByHeader (buf : List Byte) : ComPlayerType :=
  if buf.take 3 = bytes "ID3" then .mp3
  else if (buf.drop 4).take 4 = bytes "ftyp" then .m4a
  else if buf.take 4 = bytes "ADIF" then .aac
  else if buf.headD 0 = 0xFF ∧ (buf.getD 1 0) &&& 0xF6 = 0xF0 then .aac
  else .mp3

/-- `audio_player_update_last_error` (`:16-21`). -/
def audioPlayerUpdateLastError (ret : AudioPlayerReturn) (a : AudioPlayerProc) : AudioPlayerProc :=
  if a.lastError = .success ∧ ret ≠ .success then { a with lastError := ret } else a

section
variable [DecidableEq P] (self : P) (env : AudioPlayerEnv)

/-- `com_player_start`, undisturbed by other players. -/
def comPlayerStart (type : ComPlayerType) (out : PcmOutput P) (c : ComPlayer) :
    ComPlayerReturn × PcmOutput P × ComPlayer :=
  match comPlayerStartTest type env.alloc out c with
  | (some ret, c) => (ret, out, c)
  | (none, c) => comPlayerStartTake self env.wait out c

/-- `audio_player_proc_start` (`:69-108`). -/
def audioPlayerProcStart (a : AudioPlayerProc) (out : PcmOutput P) :
    AudioPlayerReturn × AudioPlayerProc × PcmOutput P :=
  match audioFileOpen env.file a.source (!a.isPrompt) with
  | none => (.errOpenFile, { a with audioFile := none }, out)
  | some f =>
    let audioFile := some { f with preread := env.preread }
    let (ret, out, comPlayer) := comPlayerStart self env (comPlayerGetAudioTypeByHeader env.header) out a.comPlayer
    (if ret = .success then .success else .errPlayerStart, { a with audioFile, comPlayer }, out)

/-- `audio_player_proc_stop` (`:110-124`). -/
def audioPlayerProcStop (a : AudioPlayerProc) (out : PcmOutput P) : AudioPlayerProc × PcmOutput P :=
  let (out, comPlayer) := comPlayerStop self out a.comPlayer
  ({ a with comPlayer, audioFile := (audioFileClose env.file a.audioFile).2 }, out)

/-- `audio_player_proc_pause` (`:126-136`). -/
def audioPlayerProcPause (a : AudioPlayerProc) (out : PcmOutput P) :
    AudioPlayerReturn × AudioPlayerProc × PcmOutput P :=
  let (out, comPlayer) := comPlayerPause self out a.comPlayer
  (.success, { a with comPlayer, audioFile := (audioFilePause env.file a.audioFile).2 }, out)

/-- `audio_player_proc_seek` (`:138-147`). -/
def audioPlayerProcSeek (a : AudioPlayerProc) (out : PcmOutput P) :
    AudioPlayerReturn × AudioPlayerProc × PcmOutput P :=
  let (out, comPlayer) := comPlayerPause self out a.comPlayer
  let (_, out, comPlayer) := comPlayerResume self out comPlayer
  (.success, { a with comPlayer }, out)

/-- `audio_player_proc_resume` (`:149-166`). -/
def audioPlayerProcResume (a : AudioPlayerProc) (out : PcmOutput P) :
    AudioPlayerReturn × AudioPlayerProc × PcmOutput P :=
  let (ret, audioFile) := audioFileResume env.file a.audioFile
  if ret ≠ 0 then (.errResume, { a with audioFile }, out)
  else
    let (ret, out, comPlayer) := comPlayerResume self out a.comPlayer
    (if ret = .success then .success else .errResume, { a with audioFile, comPlayer }, out)

/-- What `audio_player_proc_monitor` answers (`:168-201`). -/
def audioPlayerProcMonitor : AudioPlayerReturn := if env.done then .allEnd else .success

/-! ## The actions -/

/-- Stop with an error, or go on in `state`: how the actions end (`:255-264`, `:273-281`, …). -/
def audioPlayerEnd (ret : AudioPlayerReturn) (state : Word) (a : AudioPlayerProc) (out : PcmOutput P) :
    (AudioPlayerProc × PcmOutput P) × Word :=
  let a := audioPlayerUpdateLastError env.reported (audioPlayerUpdateLastError ret a)
  if a.lastError ≠ .success then (audioPlayerProcStop self env a out, audioPlayerStaIdle) else ((a, out), state)

/-- `audio_player_proc_start_action` (`:213-228`). -/
def audioPlayerProcStartAction (u : AudioPlayerProc × PcmOutput P) : (AudioPlayerProc × PcmOutput P) × Word :=
  let (ret, a, out) := audioPlayerProcStart self env u.1 u.2
  let a := audioPlayerUpdateLastError env.reported (audioPlayerUpdateLastError ret a)
  if a.lastError = .success then ((a, out), audioPlayerStaPlay)
  else (audioPlayerProcStop self env a out, comFsmHoldState)

/-- `audio_player_proc_stop_action` (`:230-238`). -/
def audioPlayerProcStopAction (u : AudioPlayerProc × PcmOutput P) : (AudioPlayerProc × PcmOutput P) × Word :=
  (audioPlayerProcStop self env u.1 u.2, audioPlayerStaIdle)

/-- `audio_player_proc_pause_action` (`:240-265`); `state` is `cur_state`. -/
def audioPlayerProcPauseAction (state : Word) (u : AudioPlayerProc × PcmOutput P) :
    (AudioPlayerProc × PcmOutput P) × Word :=
  if state = audioPlayerStaBreak then (u, audioPlayerStaPause)
  else
    let (ret, a, out) := audioPlayerProcPause self env u.1 u.2
    audioPlayerEnd self env ret audioPlayerStaPause a out

/-- `audio_player_proc_break_action` (`:267-282`). -/
def audioPlayerProcBreakAction (u : AudioPlayerProc × PcmOutput P) : (AudioPlayerProc × PcmOutput P) × Word :=
  let (ret, a, out) := audioPlayerProcPause self env u.1 u.2
  audioPlayerEnd self env ret audioPlayerStaBreak a out

/-- `audio_player_proc_resume_action` (`:284-299`). -/
def audioPlayerProcResumeAction (u : AudioPlayerProc × PcmOutput P) : (AudioPlayerProc × PcmOutput P) × Word :=
  let (ret, a, out) := audioPlayerProcResume self env u.1 u.2
  audioPlayerEnd self env ret audioPlayerStaPlay a out

/-- `audio_player_proc_seek_action` (`:301-315`). -/
def audioPlayerProcSeekAction (u : AudioPlayerProc × PcmOutput P) : (AudioPlayerProc × PcmOutput P) × Word :=
  let (ret, a, out) := audioPlayerProcSeek self u.1 u.2
  audioPlayerEnd self env ret comFsmHoldState a out

/-- `audio_player_proc_play_poll` (`:317-331`). -/
def audioPlayerProcPlayPoll (u : AudioPlayerProc × PcmOutput P) : (AudioPlayerProc × PcmOutput P) × Word :=
  audioPlayerEnd self env (audioPlayerProcMonitor env) comFsmHoldState u.1 u.2

/-- The actions of the table, by name. -/
inductive AudioPlayerAction
  | start | stop | pause | break | resume | seek | playPoll
deriving DecidableEq, Repr

def audioPlayerExec (state : Word) :
    AudioPlayerAction → AudioPlayerProc × PcmOutput P → (AudioPlayerProc × PcmOutput P) × Word
  | .start => audioPlayerProcStartAction self env
  | .stop => audioPlayerProcStopAction self env
  | .pause => audioPlayerProcPauseAction self env state
  | .break => audioPlayerProcBreakAction self env
  | .resume => audioPlayerProcResumeAction self env
  | .seek => audioPlayerProcSeekAction self env
  | .playPoll => audioPlayerProcPlayPoll self env

end

/-- `lookup` of `audio_player_init`. -/
def audioPlayerLookup : List (ComFsmLookup AudioPlayerAction) := [
  { event := audioPlayerEventStart,  state := audioPlayerStaIdle,  action := .start },
  { event := audioPlayerEventStop,   state := audioPlayerStaPlay,  action := .stop },
  { event := audioPlayerEventStop,   state := audioPlayerStaBreak, action := .stop },
  { event := audioPlayerEventStop,   state := audioPlayerStaPause, action := .stop },
  { event := audioPlayerEventPause,  state := audioPlayerStaPlay,  action := .pause },
  { event := audioPlayerEventPause,  state := audioPlayerStaBreak, action := .pause },
  { event := audioPlayerEventBreak,  state := audioPlayerStaPlay,  action := .break },
  { event := audioPlayerEventResume, state := audioPlayerStaPause, action := .resume },
  { event := audioPlayerEventResume, state := audioPlayerStaBreak, action := .resume },
  { event := audioPlayerEventSeek,   state := audioPlayerStaPlay,  action := .seek },
  { event := comFsmEventNone,        state := audioPlayerStaPlay,  action := .playPoll, timeout := 300#32 } ]

/-! ## Runs -/

structure AudioPlayerSys (P : Type*) where
  curState : Word
  proc     : AudioPlayerProc
  out      : PcmOutput P

inductive AudioPlayerAct (P : Type*)
  | turn (events : Word) (env : AudioPlayerEnv)
  | report (error : AudioPlayerReturn)
  | input (readPos : Nat) (preread : List Byte)
  | startInfo (source : AudioFileType) (isPrompt : Bool)
  | take (q : P)
  | release (q : P)

/-- One turn of `com_fsm_task` on the set `events`. -/
def AudioPlayerSys.turn [DecidableEq P] (self : P) (s : AudioPlayerSys P) (events : Word) (env : AudioPlayerEnv) :
    AudioPlayerSys P :=
  let (state, (proc, out), _) :=
    comFsmDispatch (audioPlayerExec self env s.curState) audioPlayerLookup s.curState (s.proc, s.out) events
  ⟨state, proc, out⟩

/-- A turn on any set; the decoder thread reports an error (`__player_input_callback`, `__player_error_callback`)
or reads; `audio_player_start` fills in what to play; another player takes the free output or gives it back. -/
inductive AudioPlayerStep [DecidableEq P] (self : P) : AudioPlayerSys P → AudioPlayerAct P → AudioPlayerSys P → Prop
  | turn {s events env} : AudioPlayerStep self s (.turn events env) (s.turn self events env)
  | report {s error} : AudioPlayerStep self s (.report error)
      { s with proc := audioPlayerUpdateLastError error s.proc }
  | input {s readPos preread} : AudioPlayerStep self s (.input readPos preread)
      { s with proc := { s.proc with audioFile := s.proc.audioFile.map fun f => { f with readPos, preread } } }
  | startInfo {s source isPrompt} : AudioPlayerStep self s (.startInfo source isPrompt)
      { s with proc := { s.proc with source, isPrompt, lastError := .success } }
  | take {s q} : q ≠ self → s.out.holder = none → AudioPlayerStep self s (.take q) { s with out := ⟨some q, some q⟩ }
  | release {s q} : q ≠ self → s.out.holder = some q → AudioPlayerStep self s (.release q) { s with out := ⟨none, none⟩ }

/-- `audio_player_init`, with the output in any hands but its own. -/
def audioPlayerInit (out : PcmOutput P) : AudioPlayerSys P := ⟨audioPlayerStaIdle, {}, out⟩

/-! ## What each state says -/

/-- File, converter and output are as the state says. -/
structure Fits (p : P) (state : Word) (u : AudioPlayerProc × PcmOutput P) : Prop where
  states : state ∈ [audioPlayerStaIdle, audioPlayerStaPlay, audioPlayerStaBreak, audioPlayerStaPause]
  idle   : state = audioPlayerStaIdle →
    u.1.audioFile = none ∧ u.1.comPlayer.converter = false ∧ u.2.holder ≠ some p
  play   : state = audioPlayerStaPlay →
    (∃ f, u.1.audioFile = some f ∧ f.fileState = .open) ∧ u.2.holder = some p
  rest   : state = audioPlayerStaPause ∨ state = audioPlayerStaBreak →
    u.1.audioFile ≠ none ∧ u.2.holder ≠ some p

section
variable {self : P} {env : AudioPlayerEnv} {a : AudioPlayerProc} {out : PcmOutput P} {state : Word}
  {u : AudioPlayerProc × PcmOutput P}

theorem Fits.idle_mk (h : a.audioFile = none ∧ a.comPlayer.converter = false ∧ out.holder ≠ some self) :
    Fits self audioPlayerStaIdle (a, out) :=
  ⟨by simp, fun _ => h, fun h => absurd h (by decide), fun h => absurd h (by decide)⟩

theorem Fits.play_mk (h : (∃ f, a.audioFile = some f ∧ f.fileState = .open) ∧ out.holder = some self) :
    Fits self audioPlayerStaPlay (a, out) :=
  ⟨by simp, fun h => absurd h (by decide), fun _ => h, fun h => absurd h (by decide)⟩

theorem Fits.rest_mk (hs : state = audioPlayerStaPause ∨ state = audioPlayerStaBreak)
    (h : a.audioFile ≠ none ∧ out.holder ≠ some self) : Fits self state (a, out) := by
  refine ⟨?_, ?_, ?_, fun _ => h⟩
  · rcases hs with rfl | rfl <;> simp
  · rcases hs with rfl | rfl <;> exact fun h => absurd h (by decide)
  · rcases hs with rfl | rfl <;> exact fun h => absurd h (by decide)

@[simp] theorem updateLastError_audioFile (ret : AudioPlayerReturn) :
    (audioPlayerUpdateLastError ret a).audioFile = a.audioFile := by
  unfold audioPlayerUpdateLastError
  split <;> rfl

@[simp] theorem updateLastError_comPlayer (ret : AudioPlayerReturn) :
    (audioPlayerUpdateLastError ret a).comPlayer = a.comPlayer := by
  unfold audioPlayerUpdateLastError
  split <;> rfl

/-- An error does not change what a state says. -/
theorem Fits.update (ret : AudioPlayerReturn) (h : Fits self state (a, out)) :
    Fits self state (audioPlayerUpdateLastError ret a, out) :=
  ⟨h.states, by simpa using h.idle, by simpa using h.play, by simpa using h.rest⟩

/-- An own error sticks: the action then ends in a stop. -/
theorem updateLastError_ne {ret : AudioPlayerReturn} (h : ret ≠ .success) (reported : AudioPlayerReturn) :
    (audioPlayerUpdateLastError reported (audioPlayerUpdateLastError ret a)).lastError ≠ .success := by
  have sticks : ∀ {a : AudioPlayerProc} {r}, a.lastError ≠ .success →
      (audioPlayerUpdateLastError r a).lastError ≠ .success := by
    intro a r ha
    unfold audioPlayerUpdateLastError
    rw [if_neg fun h' => ha h'.1]
    exact ha
  refine sticks ?_
  unfold audioPlayerUpdateLastError
  by_cases ha : a.lastError = .success
  · rw [if_pos ⟨ha, h⟩]
    exact h
  · rw [if_neg fun h' => ha h'.1]
    exact ha

/-- What an action answers, as `com_fsm_task` takes it: holding keeps the state `s`. -/
def Settles (self : P) (s : Word) (res : (AudioPlayerProc × PcmOutput P) × Word) : Prop :=
  Fits self (if res.2 = comFsmHoldState then s else res.2) res.1

theorem startTake_success {c : ComPlayer} {type : ComPlayerType} (h : (comPlayerStart self env type out c).1 = .success) :
    (comPlayerStart self env type out c).2.1.holder = some self := by
  unfold comPlayerStart at h ⊢
  cases hres : comPlayerStartTest type env.alloc out c with
  | mk err c' =>
    rw [hres] at h
    cases err with
    | some ret =>
      -- a failed test is an error
      exfalso
      unfold comPlayerStartTest at hres
      dsimp only at hres h
      split at hres
      · cases hres; cases h
      · split at hres
        · cases hres; cases h
        · cases hres
    | none =>
      dsimp only at h ⊢
      unfold comPlayerStartTake at h ⊢
      cases he : env.wait with
      | decoder => rfl
      | exit =>
        rw [he] at h
        cases h
      | timeout =>
        rw [he] at h
        cases h

/-- A successful resume takes the output. -/
theorem resume_success {c : ComPlayer} (h : (comPlayerResume self out c).1 = .success) :
    (comPlayerResume self out c).2.1.holder = some self := by
  unfold comPlayerResume at h ⊢
  by_cases hfree : out.holder ≠ none
  · rw [if_pos hfree] at h
    cases h
  · rw [if_neg hfree]
    rfl

theorem resume_of_free {c : ComPlayer} (h : out.holder = none) : (comPlayerResume self out c).1 = .success := by
  unfold comPlayerResume
  rw [if_neg (not_not_intro h)]
  rfl

/-- A successful `audio_player_proc_resume` has opened the file again and taken the output. -/
theorem procResume_success (h : (audioPlayerProcResume self env a out).1 = .success) :
    (∃ f, (audioPlayerProcResume self env a out).2.1.audioFile = some f ∧ f.fileState = .open) ∧
      (audioPlayerProcResume self env a out).2.2.holder = some self := by
  unfold audioPlayerProcResume at h ⊢
  dsimp only at h ⊢
  by_cases hfile : (audioFileResume env.file a.audioFile).1 = 0
  · rw [if_neg (not_not_intro hfile)] at h ⊢
    refine ⟨audioFileResume_open hfile, resume_success ?_⟩
    by_contra hne
    dsimp only at h
    rw [if_neg hne] at h
    cases h
  · rw [if_pos hfile] at h
    cases h

variable [DecidableEq P]

@[simp] theorem release_holder_ne (out : PcmOutput P) : (comPlayerRelease self out).holder ≠ some self := by
  unfold comPlayerRelease
  split
  · simp
  · assumption

/-- Whatever a stop finds, it leaves what IDLE says. -/
theorem stop_fits (a : AudioPlayerProc) (out : PcmOutput P) :
    Fits self audioPlayerStaIdle (audioPlayerProcStop self env a out) :=
  .idle_mk ⟨audioFileClose_snd _, rfl, release_holder_ne out⟩

theorem stop_settles (s : Word) : Settles self s (audioPlayerProcStop self env a out, audioPlayerStaIdle) :=
  stop_fits a out

/-- The common end of the actions: without an error of its own the new state must fit. -/
theorem end_settles {ret : AudioPlayerReturn} {s : Word}
    (h : ret = .success → Fits self (if state = comFsmHoldState then s else state) (a, out)) :
    Settles self s (audioPlayerEnd self env ret state a out) := by
  unfold audioPlayerEnd
  dsimp only
  by_cases hret : ret = .success
  · split
    · exact stop_settles s
    · exact ((h hret).update ret).update env.reported
  · rw [if_pos (updateLastError_ne hret env.reported)]
    exact stop_settles s

/-! ## The actions, one by one -/

theorem startAction_settles :
    Settles self audioPlayerStaIdle (audioPlayerProcStartAction self env u) := by
  unfold audioPlayerProcStartAction
  generalize hres : audioPlayerProcStart self env u.1 u.2 = res
  obtain ⟨ret, a, out⟩ := res
  dsimp only
  by_cases hret : ret = .success
  · split
    · refine (Fits.update _ (Fits.update _ (.play_mk ?_)))
      -- the file was opened and the output taken
      unfold audioPlayerProcStart at hres
      cases hopen : audioFileOpen env.file u.1.source (!u.1.isPrompt) with
      | none =>
        rw [hopen] at hres
        cases hres
        cases hret
      | some f =>
        rw [hopen] at hres
        dsimp only at hres
        generalize hstart : comPlayerStart self env (comPlayerGetAudioTypeByHeader env.header) u.2 u.1.comPlayer = st at hres
        obtain ⟨r, out', c'⟩ := st
        cases hres
        have hr : r = .success := by
          by_contra hr
          rw [if_neg hr] at hret
          cases hret
        have hsuccess : (comPlayerStart self env (comPlayerGetAudioTypeByHeader env.header) u.2 u.1.comPlayer).1 =
            .success := by rw [hstart]; exact hr
        have hhold := startTake_success hsuccess
        rw [hstart] at hhold
        exact ⟨⟨_, rfl, (audioFileOpen_state hopen :)⟩, hhold⟩
    · exact stop_fits _ _
  · rw [if_neg (updateLastError_ne hret env.reported)]
    exact stop_fits _ _

/-- After a pause the file is still there and the output is not this player's. -/
theorem pause_fits {s : Word} (hs : s = audioPlayerStaPause ∨ s = audioPlayerStaBreak)
    (h : Fits self audioPlayerStaPlay u) :
    Fits self s ((audioPlayerProcPause self env u.1 u.2).2.1, (audioPlayerProcPause self env u.1 u.2).2.2) := by
  obtain ⟨⟨f, hf, -⟩, -⟩ := h.play rfl
  refine .rest_mk hs ⟨?_, release_holder_ne _⟩
  have : (audioFilePause env.file u.1.audioFile).2.isSome = u.1.audioFile.isSome := audioFilePause_isSome _
  rw [hf] at this
  intro hnone
  change (audioFilePause env.file u.1.audioFile).2 = none at hnone
  rw [hf] at hnone
  rw [hnone] at this
  cases this

theorem pauseAction_settles (h : Fits self state u)
    (hs : state = audioPlayerStaPlay ∨ state = audioPlayerStaBreak) :
    Settles self state (audioPlayerProcPauseAction self env state u) := by
  unfold audioPlayerProcPauseAction
  rcases hs with rfl | rfl
  · rw [if_neg (by decide)]
    exact end_settles fun _ => pause_fits (.inl rfl) h
  · rw [if_pos rfl]
    exact .rest_mk (.inl rfl) (h.rest (.inr rfl))

theorem breakAction_settles (h : Fits self audioPlayerStaPlay u) :
    Settles self audioPlayerStaPlay (audioPlayerProcBreakAction self env u) :=
  end_settles fun _ => pause_fits (.inr rfl) h

theorem resumeAction_settles {s : Word} : Settles self s (audioPlayerProcResumeAction self env u) := by
  unfold audioPlayerProcResumeAction
  exact end_settles fun hret => .play_mk (procResume_success hret)

/-- Between its pause and its resume a seek leaves the output free, so the resume takes it again. -/
theorem seekAction_settles (h : Fits self audioPlayerStaPlay u) :
    Settles self audioPlayerStaPlay (audioPlayerProcSeekAction self env u) := by
  refine end_settles fun _ => .play_mk ⟨(h.play rfl).1, ?_⟩
  have hhold := (h.play rfl).2
  have hfree : (comPlayerPause self u.2 u.1.comPlayer).1.holder = none := by
    simp [comPlayerPause, comPlayerRelease, hhold]
  exact resume_success (resume_of_free hfree)

/-- Each row of the table, in its state. -/
theorem exec_settles {l : ComFsmLookup AudioPlayerAction} (hl : l ∈ audioPlayerLookup) (h : Fits self l.state u) :
    Settles self l.state (audioPlayerExec self env l.state l.action u) := by
  simp only [audioPlayerLookup, List.mem_cons, List.not_mem_nil, or_false] at hl
  rcases hl with rfl | rfl | rfl | rfl | rfl | rfl | rfl | rfl | rfl | rfl | rfl
  · exact startAction_settles
  · exact stop_settles _
  · exact stop_settles _
  · exact stop_settles _
  · exact pauseAction_settles h (.inl rfl)
  · exact pauseAction_settles h (.inr rfl)
  · exact breakAction_settles h
  · exact resumeAction_settles
  · exact resumeAction_settles
  · exact seekAction_settles h
  · exact end_settles fun _ => h

theorem turn_fits {s : AudioPlayerSys P} {events : Word} (h : Fits self s.curState (s.proc, s.out)) :
    Fits self (s.turn self events env).curState ((s.turn self events env).proc, (s.turn self events env).out) := by
  unfold AudioPlayerSys.turn comFsmDispatch
  by_cases hx : comFsmEventExit &&& events ≠ 0
  · rw [if_pos hx]
    exact h
  · rw [if_neg hx]
    cases hl : comFsmSelect audioPlayerLookup s.curState events with
    | none => exact h
    | some l =>
      obtain ⟨hmem, hstate⟩ := comFsmSelect_mem hl
      have hset : Settles self l.state (audioPlayerExec self env l.state l.action (s.proc, s.out)) :=
        exec_settles hmem (hstate ▸ h)
      rw [hstate] at hset
      unfold Settles at hset
      dsimp only
      generalize audioPlayerExec self env s.curState l.action (s.proc, s.out) = res at hset ⊢
      obtain ⟨⟨a, out⟩, state⟩ := res
      dsimp only at hset ⊢
      by_cases hhold : state = comFsmHoldState
      · rw [if_neg fun h' => h'.1 hhold]
        rwa [if_pos hhold] at hset
      · rw [if_neg hhold] at hset
        by_cases heq : state = s.curState
        · rw [if_neg fun h' => h'.2 heq, ← heq]
          exact hset
        · rw [if_pos ⟨hhold, heq⟩]
          exact hset

theorem AudioPlayerStep.fits {s s' : AudioPlayerSys P} {act : AudioPlayerAct P}
    (h : Fits self s.curState (s.proc, s.out)) (hs : AudioPlayerStep self s act s') :
    Fits self s'.curState (s'.proc, s'.out) := by
  cases hs with
  | turn => exact turn_fits h
  | report => exact h.update _
  | input =>
    refine ⟨h.states, fun hi => ⟨?_, (h.idle hi).2⟩, fun hp => ⟨?_, (h.play hp).2⟩, fun hr => ⟨?_, (h.rest hr).2⟩⟩
    · simpa using (h.idle hi).1
    · obtain ⟨f, hf, ho⟩ := (h.play hp).1
      exact ⟨_, congrArg (Option.map _) hf, ho⟩
    · simpa using (h.rest hr).1
  | startInfo => exact ⟨h.states, h.idle, h.play, h.rest⟩
  | take hq hfree =>
    have hne : ¬ (some _ : Option P) = some self := fun he => hq (Option.some.inj he)
    refine ⟨h.states, fun hi => ⟨(h.idle hi).1, (h.idle hi).2.1, hne⟩, fun hp => ?_, fun hr => ⟨(h.rest hr).1, hne⟩⟩
    exact absurd (hfree.symm.trans (h.play hp).2) (by simp)
  | release hq hhold =>
    refine ⟨h.states, fun hi => ⟨(h.idle hi).1, (h.idle hi).2.1, by simp⟩, fun hp => ?_,
      fun hr => ⟨(h.rest hr).1, by simp⟩⟩
    exact absurd (Option.some.inj (hhold.symm.trans (h.play hp).2)) hq

/-- **Every state of the player says what it holds**: in IDLE no file, no converter, not the output; in PLAY an
open file and the output; in PAUSE and BREAK a file and not the output. -/
theorem audioPlayer_fits {acts : List (AudioPlayerAct P)} {s : AudioPlayerSys P} (hout : out.holder ≠ some self)
    (h : Steps (AudioPlayerStep self) (audioPlayerInit out) acts s) : Fits self s.curState (s.proc, s.out) :=
  h.invariant (I := fun s : AudioPlayerSys P => Fits self s.curState (s.proc, s.out))
    (fun _ _ _ hi hs => hs.fits hi) (.idle_mk ⟨rfl, rfl, hout⟩)

end

/-- Everything succeeds. -/
def AudioPlayerEnv.fine : AudioPlayerEnv where
  file := ⟨true, true, some (0, 5), some 5, true, true⟩
  header := bytes "ID3aaaaa"
  preread := bytes "ID3aa"
  alloc := true
  wait := .decoder
  done := false
  reported := .success

/-- A player that was started, paused and resumed plays. -/
theorem audioPlayer_fits_playing : ∃ s : AudioPlayerSys Bool, s.curState = audioPlayerStaPlay ∧
    Fits true s.curState (s.proc, s.out) := by
  have hrun : Steps (AudioPlayerStep true) (audioPlayerInit (⟨none, none⟩ : PcmOutput Bool))
      [.startInfo .sdCard true, .turn audioPlayerEventStart .fine, .turn audioPlayerEventPause .fine,
        .turn audioPlayerEventResume .fine] _ := .cons .startInfo (.cons .turn (.cons .turn (.one .turn)))
  exact ⟨_, by decide, audioPlayer_fits (by simp) hrun⟩

end AudioPlayer

import Mathlib
import AudioPlayer.AacDecoder
import AudioPlayer.ComPlayer

/-!
# The decoders with the player's callbacks (`src/audio_player_process.c:23-67`)

`Mp3Decoder` and `AacDecoder` leave the callbacks outside. Here they are those `audio_player_proc_start`
registers: the input callback reads the file and reports its end through `com_player_set_done`, the error
callback reports the end too, and both set `input_done` while the poll that called them is still running.

`events`, `obtained`, `consumed` and `setDone` are not in the code: they record what the polls asked for and
what came of it.

| here | there |
|---|---|
| `playerInputCallback` | `__player_input_callback` (`audio_player_process.c:23-51`) |
| `mp3PlayerRunPoll`    | `mp3_decoder_run_poll` (`mp3_decoder.c:161-272`) with these callbacks |
| `aacPlayerRunPoll`    | `aac_decoder_run_poll` (`aac_decoder.c:285-383`) with these callbacks |
| `SourceStep`          | a turn of the task on any set of events, or `mp3_decoder_start` and `aac_decoder_start` |

The file is read at `filePos`, which the seek callback moves. mp4ff reads an m4a file at the offsets of its
samples; `readLen` is then the least of what its reads return.
-/

namespace AudioPlayer
open Lib

/-- What a decoder asks for: bytes at a position of the file, a sample, or nothing more. -/
inductive InputEvent
  | read (filePos size : Int)
  | sample (sampleId : Int)
  | ended
deriving DecidableEq, Repr

/-- `__player_input_callback` (`audio_player_process.c:23-51`) after `audio_file_read` returned `readLen`: what
it returns, and whether it calls `com_player_set_done`. -/
def playerInputCallback (type : ComPlayerType) (size readLen : Int) : Int × Bool :=
  let inputDone := if type = .m4a then decide (size = 0) else decide (readLen = 0)
  (if readLen < 0 then 0 else readLen, inputDone || decide (readLen < 0))

def mp3DecoderInputSize : Int := 10 * 1024
def aacDecoderInputSize : Int := 768 * 6

/-! ## mp3 -/

/-- An mp3 decoder and its file. -/
structure Mp3Source where
  dec     : Mp3Decoder := {}
  filePos : Int := 0
  events  : List InputEvent := []
  setDone : Nat := 0

/-- The error callback is called (`mp3_decoder.c:108-113`). -/
def mp3DecoderComplains (d : Mp3Decoder) (mem : Mp3DecoderMemory) : Bool :=
  decide (mem.decoderError ≥ mp3DecoderMaxErrCount ∨ d.outputDone = true ∧ mem.outputTotal ≤ 0)

/-- `mp3_decoder_error_handler` with `__player_error_callback` (`audio_player_process.c:59-67`). -/
def mp3PlayerErrorHandler (t : Mp3Source) (mem : Mp3DecoderMemory) : Mp3Source :=
  if mp3DecoderComplains t.dec mem then
    { t with dec := { mp3DecoderErrorHandler t.dec mem with inputDone := true }, setDone := t.setDone + 1 }
  else t

/-- Step 1 (`mp3_decoder.c:175-204`); libmad has `remain` bytes of its window left. -/
def mp3PlayerInput (env : Mp3Env) (remain readLen : Int) (t : Mp3Source) (mem : Mp3DecoderMemory) :
    Mp3Source × Option Mp3DecoderMemory :=
  let (inputSize, done) := playerInputCallback .mp3 (mp3DecoderInputSize - remain) readLen
  let (dec, next) := mp3DecoderInput { env with inputSize } t.dec mem
  if mem.streamBuffer = false ∨ mem.streamError = madErrorBuflen then
    if t.dec.inputDone then ({ t with dec, events := t.events ++ [.ended] }, next)
    else
      ({ dec := { dec with inputDone := done }
         filePos := t.filePos + inputSize
         events := t.events ++ [.read t.filePos inputSize]
         setDone := if done then t.setDone + 1 else t.setDone }, next)
  else ({ t with dec }, next)

def mp3PlayerRunPoll (env : Mp3Env) (remain readLen : Int) (t : Mp3Source) : Option (Mp3Source × Word) := do
  let mem ← t.dec.mem
  let t := mp3PlayerErrorHandler t mem
  let (out, dec) ← mp3DecoderOutputHandler env.accepts t.dec mem
  if out = false then some ({ t with dec }, mp3DecoderStaPause)
  else do
    let mem ← dec.mem
    match mp3PlayerInput env remain readLen { t with dec } mem with
    | (t, none) => some (t, mp3DecoderStaPause)
    | (t, some mem) => do
      let (dec, state) ← mp3DecoderDecode env t.dec (mp3DecoderTag env mem)
      some ({ t with dec }, state)

/-- `mp3_decoder_seek_handler` with `__player_seek_callback` (`mp3_decoder.c:57-65`). -/
def mp3PlayerSeekHandler (seekPosition : Int) (t : Mp3Source) : Mp3Source :=
  if t.dec.mem.isSome then { t with dec := mp3DecoderSeekHandler t.dec, filePos := seekPosition } else t

/-! ## aac and m4a -/

/-- An aac decoder and its file. -/
structure AacSource where
  dec      : AacDecoder
  filePos  : Int := 0
  events   : List InputEvent := []
  setDone  : Nat := 0
  /-- What the input callback has returned, of an aac file. -/
  obtained : Int := 0
  /-- What `NeAACDecDecode` has consumed of it. -/
  consumed : Int := 0

/-- The error callback is called (`aac_decoder.c:212-217`). -/
def aacDecoderComplains (d : AacDecoder) (mem : AacDecoderMemory) : Bool :=
  decide (mem.decoderError ≥ aacDecoderMaxErrCount ∨ d.outputDone = true ∧ mem.outputTotal ≤ 0)

/-- `aac_decoder_error_handler` with `__player_error_callback`. -/
def aacPlayerErrorHandler (t : AacSource) (mem : AacDecoderMemory) : AacSource :=
  if aacDecoderComplains t.dec mem then
    { t with dec := { aacDecoderErrorHandler t.dec mem with inputDone := true }, setDone := t.setDone + 1 }
  else t

/-- Input and initialisation (`aac_decoder.c:299-324`). -/
def aacPlayerInput (env : AacEnv) (readLen : Int) (t : AacSource) (mem : AacDecoderMemory) :
    AacSource × AacDecoderMemory × Option Word :=
  let (inputSize, done) := playerInputCallback .aac (aacDecoderInputSize - mem.inputRemain) readLen
  let (dec, mem, next) := aacDecoderInput { env with inputSize } t.dec mem
  if t.dec.inputDone then ({ t with dec, events := t.events ++ [.ended] }, mem, next)
  else if t.dec.isM4a then
    -- `mp4ff_open_read` reads and seeks the file before the first sample; a read of 0 bytes is taken for its end
    let done := !t.dec.initialized && (env.emptyRead || decide (readLen < 0))
    ({ t with dec := { dec with inputDone := done }, setDone := if done then t.setDone + 1 else t.setDone },
      mem, next)
  else
    ({ t with
       dec := { dec with inputDone := done }
       filePos := t.filePos + inputSize
       events := t.events ++ [.read t.filePos inputSize]
       setDone := if done then t.setDone + 1 else t.setDone
       obtained := t.obtained + inputSize }, mem, next)

/-- Decoding (`aac_decoder.c:326-358`): the sample is read through the input callback, or a part of the window
is consumed. -/
def aacPlayerDecode (env : AacEnv) (readLen : Int) (t : AacSource) (mem : AacDecoderMemory) :
    Option (AacSource × AacDecoderMemory) := do
  let next ← aacDecoderDecode env t.dec mem
  if t.dec.isM4a then
    let done := decide (readLen < 0)
    some ({ t with
      dec := { t.dec with inputDone := t.dec.inputDone || done }
      events := t.events ++ [.sample mem.sampleId]
      setDone := if done then t.setDone + 1 else t.setDone }, next)
  else some ({ t with consumed := t.consumed + env.frame.bytesconsumed }, next)

def aacPlayerRunPoll (env : AacEnv) (readLen : Int) (t : AacSource) : Option (AacSource × Word) := do
  let mem ← t.dec.mem
  let t := aacPlayerErrorHandler t mem
  let (out, dec) ← aacDecoderOutputHandler env.accepts t.dec mem
  if out = false then some ({ t with dec }, mp3DecoderStaPause)
  else do
    let mem ← dec.mem
    match aacPlayerInput env readLen { t with dec } mem with
    | (t, mem, some state) => some ({ t with dec := { t.dec with mem := some mem } }, state)
    | (t, mem, none) => do
      let (t, mem) ← aacPlayerDecode env readLen t mem
      let (dec, state) ← aacDecoderOutput env t.dec mem
      some ({ t with dec }, state)

/-! ## The task -/

def mp3PlayerRun (env : Mp3Env) (remain readLen seekTo : Int) (a : Mp3DecoderAction) :
    Option Mp3Source → Option Mp3Source × Word
  | none => (none, comFsmHoldState)
  | some t =>
    match a with
    | .start => (some { t with dec := { t.dec with mem := some {} } }, mp3DecoderStaRun)
    | .stop => (some { t with dec := { t.dec with mem := none } }, mp3DecoderStaIdle)
    | .pause => (some t, mp3DecoderStaPause)
    | .resume => (some t, mp3DecoderStaRun)
    | .seek => (some (mp3PlayerSeekHandler seekTo t), comFsmHoldState)
    | .runPoll =>
      match mp3PlayerRunPoll env remain readLen t with
      | none => (none, comFsmHoldState)
      | some (t, state) => (some t, state)

def aacPlayerRun (env : AacEnv) (readLen seekTo : Int) (a : Mp3DecoderAction) :
    Option AacSource → Option AacSource × Word
  | none => (none, comFsmHoldState)
  | some t =>
    match a with
    | .start =>
      (some { t with dec := { t.dec with mem := some {}, initialized := false }, obtained := 0, consumed := 0 },
        mp3DecoderStaRun)
    | .stop => (some { t with dec := { t.dec with mem := none } }, mp3DecoderStaIdle)
    | .pause => (some t, mp3DecoderStaPause)
    | .resume => (some t, mp3DecoderStaRun)
    | .seek => (some { t with dec := aacDecoderSeekHandler seekTo t.dec }, comFsmHoldState)
    | .runPoll =>
      match aacPlayerRunPoll env readLen t with
      | none => (none, comFsmHoldState)
      | some (t, state) => (some t, state)

/-- The action a turn on `events` runs. -/
def decoderTurnAction (lookup : List (ComFsmLookup Mp3DecoderAction)) (state events : Word) :
    Option Mp3DecoderAction :=
  if comFsmEventExit &&& events ≠ 0 then none else (comFsmSelect lookup state events).map ComFsmLookup.action

/-- What the calls of a turn answer, and the events it takes. -/
inductive Mp3SourceAct
  | turn (env : Mp3Env) (remain readLen seekTo : Int) (events : Word)
  | start

inductive AacSourceAct
  | turn (env : AacEnv) (readLen seekTo : Int) (events : Word)
  | start

/-- A turn, or the flags of `mp3_decoder_start` (`mp3_decoder.c:311-318`). -/
inductive Mp3SourceStep : DecoderSys Mp3Source → Mp3SourceAct → DecoderSys Mp3Source → Prop
  | turn {s : DecoderSys Mp3Source} {env : Mp3Env} {remain readLen seekTo : Int} {events : Word} :
    Mp3SourceStep s (.turn env remain readLen seekTo events)
      (s.turn (mp3PlayerRun env remain readLen seekTo) mp3DecoderLookup events)
  | start {s : DecoderSys Mp3Source} :
    Mp3SourceStep s .start
      { s with dec := s.dec.map fun t => { t with dec := { t.dec with inputDone := false, outputDone := false } } }

/-- A turn, or the flags of `aac_decoder_start` (`aac_decoder.c:422-430`) for another file of the same kind. -/
inductive AacSourceStep : DecoderSys AacSource → AacSourceAct → DecoderSys AacSource → Prop
  | turn {s : DecoderSys AacSource} {env : AacEnv} {readLen seekTo : Int} {events : Word} :
    AacSourceStep s (.turn env readLen seekTo events)
      (s.turn (aacPlayerRun env readLen seekTo) aacDecoderLookup events)
  | start {s : DecoderSys AacSource} :
    AacSourceStep s .start
      { s with dec := s.dec.map fun t => { t with dec := { t.dec with inputDone := false, outputDone := false } } }

/-- `mp3_decoder_init`, with the file at its start. -/
def mp3SourceInit : DecoderSys Mp3Source := ⟨mp3DecoderStaIdle, some {}⟩

def aacSourceInit (isM4a : Bool) : DecoderSys AacSource := ⟨mp3DecoderStaIdle, some { dec := { isM4a } }⟩

theorem DecoderSys.turn_dec {D : Type} (exec : Mp3DecoderAction → Option D → Option D × Word)
    (lookup : List (ComFsmLookup Mp3DecoderAction)) (s : DecoderSys D) (events : Word) :
    (s.turn exec lookup events).dec = match decoderTurnAction lookup s.curState events with
      | none => s.dec
      | some a => (exec a s.dec).1 := by
  unfold DecoderSys.turn comFsmDispatch decoderTurnAction
  by_cases hexit : comFsmEventExit &&& events ≠ 0
  · rw [if_pos hexit, if_pos hexit]
  · rw [if_neg hexit, if_neg hexit]
    cases comFsmSelect lookup s.curState events <;> rfl

/-! ## What a poll does to the input -/

/-- What the polls of an aac decoder do their input by. -/
structure AacInputState where
  isM4a       : Bool
  inputDone   : Bool
  outputDone  : Bool
  inputRemain : Int
  sampleId    : Int
  filePos     : Int
  events      : List InputEvent
  setDone     : Nat
  obtained    : Int
  consumed    : Int
deriving DecidableEq

def AacSource.input (t : AacSource) (mem : AacDecoderMemory) : AacInputState where
  isM4a := t.dec.isM4a
  inputDone := t.dec.inputDone
  outputDone := t.dec.outputDone
  inputRemain := mem.inputRemain
  sampleId := mem.sampleId
  filePos := t.filePos
  events := t.events
  setDone := t.setDone
  obtained := t.obtained
  consumed := t.consumed

/-- `n` bytes more are in the window. -/
def AacInputState.topUp (c : AacInputState) (n : Int) : AacInputState :=
  { c with
    inputRemain := c.inputRemain + n
    filePos := c.filePos + n
    events := c.events ++ [.read c.filePos n]
    obtained := c.obtained + n }

/-- The PCM the poll finds is all taken, so that it comes to its input. -/
def AacDecoderMemory.AllOut (accepts : Takes) (mem : AacDecoderMemory) : Prop :=
  mem.outputBuffer = none ∨ mem.outputSize ≤ accepts.val mem.outputSize

/-- A poll after its error handler, by what it does to the input. -/
inductive AacPoll (env : AacEnv) (readLen : Int) (allOut : Prop) : AacInputState → AacInputState → Prop
  /-- The PCM is not all taken. -/
  | full {c : AacInputState} : AacPoll env readLen allOut c c
  | ended {c : AacInputState} (hdone : c.inputDone = true) :
    AacPoll env readLen allOut c { c with outputDone := true, events := c.events ++ [.ended] }
  /-- The file has ended, or its read has failed. -/
  | empty {c : AacInputState} (hout : allOut) (hdone : c.inputDone = false) (haac : c.isM4a = false)
    (hread : readLen ≤ 0) :
    AacPoll env readLen allOut c
      { c with inputDone := true, events := c.events ++ [.read c.filePos 0], setDone := c.setDone + 1 }
  /-- `NeAACDecInit` has failed. -/
  | refused {c : AacInputState} (hdone : c.inputDone = false) (haac : c.isM4a = false) (hread : 0 < readLen) :
    AacPoll env readLen allOut c (c.topUp readLen)
  | decoded {c : AacInputState} (hdone : c.inputDone = false) (haac : c.isM4a = false)
    (hread : 0 < readLen) :
    AacPoll env readLen allOut c
      { c.topUp readLen with
        inputRemain := if env.frame.error = 0 then c.inputRemain + readLen - env.frame.bytesconsumed else 0
        consumed := c.consumed + env.frame.bytesconsumed }
  /-- An m4a file could not be opened. -/
  | unopened {c : AacInputState} {ended : Bool} {setDone : Nat} (hdone : c.inputDone = false)
    (hm4a : c.isM4a = true) (hset : if ended then c.setDone < setDone else setDone = c.setDone) :
    AacPoll env readLen allOut c { c with inputDone := ended, setDone }
  /-- A sample of an m4a file. -/
  | sample {c : AacInputState} {ended : Bool} {inputRemain : Int} {setDone : Nat} (hdone : c.inputDone = false)
    (hm4a : c.isM4a = true) (hset : if ended then c.setDone < setDone else setDone = c.setDone) :
    AacPoll env readLen allOut c
      { c with
        inputDone := ended, events := c.events ++ [.sample c.sampleId], setDone
        sampleId := c.sampleId + 1, inputRemain }

section
variable {env : AacEnv} {readLen : Int} {t t' : AacSource} {d d' : AacDecoder} {mem mem' : AacDecoderMemory}

theorem aacDecoderOutputHandler_cases {accepts : Takes} {out : Bool}
    (h : aacDecoderOutputHandler accepts d mem = some (out, d')) : ∃ accepted outputBuffer outputSize outputTotal,
    d' = { d with accepted, mem := some { mem with outputBuffer, outputSize, outputTotal } } ∧
    (out = true → mem.AllOut accepts) := by
  unfold aacDecoderOutputHandler at h
  split at h
  case h_1 hnone =>
    obtain ⟨rfl, rfl⟩ := Prod.mk.inj (Option.some.inj h)
    exact ⟨d.accepted, mem.outputBuffer, mem.outputSize, mem.outputTotal, rfl, fun _ => .inl hnone⟩
  case h_2 buffer hbuffer =>
    simp only [Option.bind_eq_bind, Option.bind_eq_some_iff] at h
    obtain ⟨offered, -, h⟩ := h
    split at h
    case isTrue =>
      simp only [Option.bind_eq_some_iff] at h
      obtain ⟨outputBuffer, -, h⟩ := h
      obtain ⟨rfl, rfl⟩ := Prod.mk.inj (Option.some.inj h)
      exact ⟨_, _, _, _, rfl, by intro h; cases h⟩
    case isFalse hall =>
      obtain ⟨rfl, rfl⟩ := Prod.mk.inj (Option.some.inj h)
      exact ⟨_, _, _, _, rfl, fun _ => .inr (by omega)⟩

theorem aacDecoderOutput_cases {state : Word} (h : aacDecoderOutput env d mem = some (d', state)) :
    ∃ accepted decoded mem', d' = { d with accepted, decoded, mem := some mem' } ∧
      mem'.inputRemain = (if env.frame.error = 0 then mem.inputRemain else 0) ∧ mem'.sampleId = mem.sampleId := by
  unfold aacDecoderOutput at h
  split at h
  case isTrue herror =>
    obtain ⟨rfl, rfl⟩ := Prod.mk.inj (Option.some.inj h)
    exact ⟨_, _, _, rfl, by rw [if_neg herror], rfl⟩
  case isFalse herror =>
    rw [if_pos (by omega)]
    split at h
    · simp only [Option.bind_eq_bind, Option.bind_eq_some_iff] at h
      obtain ⟨⟨out, d₁⟩, hhandler, h⟩ := h
      obtain ⟨rfl, rfl⟩ := Prod.mk.inj (Option.some.inj h)
      obtain ⟨accepted, outputBuffer, outputSize, outputTotal, rfl, -⟩ := aacDecoderOutputHandler_cases hhandler
      exact ⟨_, _, _, rfl, rfl, rfl⟩
    · obtain ⟨rfl, rfl⟩ := Prod.mk.inj (Option.some.inj h)
      exact ⟨_, _, _, rfl, rfl, rfl⟩

theorem playerInputCallback_stream {type : ComPlayerType} (htype : type ≠ .m4a) (size : Int) :
    playerInputCallback type size readLen = (if 0 < readLen then readLen else 0, decide (readLen ≤ 0)) := by
  unfold playerInputCallback
  rw [if_neg htype]
  by_cases hpos : 0 < readLen
  · simp [hpos, show ¬ readLen < 0 by omega, show readLen ≠ 0 by omega]
  · by_cases hneg : readLen < 0
    · simp [hneg, hpos, show readLen ≤ 0 by omega]
    · simp [show readLen = 0 by omega]

/-- The error handler reports the end, or does nothing. -/
theorem aacPlayerErrorHandler_eq (t : AacSource) (mem : AacDecoderMemory) : ∃ errors,
    aacPlayerErrorHandler t mem =
      { t with
        dec := { t.dec with errors, inputDone := t.dec.inputDone || aacDecoderComplains t.dec mem }
        setDone := if aacDecoderComplains t.dec mem then t.setDone + 1 else t.setDone } := by
  unfold aacPlayerErrorHandler
  cases hcomplains : aacDecoderComplains t.dec mem with
  | false => exact ⟨t.dec.errors, by simp⟩
  | true =>
    obtain ⟨errors, herrors⟩ := aacDecoderErrorHandler_eq t.dec mem
    exact ⟨errors, by simp [herrors]⟩

/-- With input there, the window is topped up, and the decoder is initialised or is not. -/
theorem aacDecoderInput_open (hdone : d.inputDone = false) (hsize : d.isM4a = true ∨ 0 < env.inputSize) :
    ∃ initialized decoderInfo numSamples decoderError next,
      aacDecoderInput env d mem =
        ({ d with initialized },
          { mem with
            inputRemain := if d.isM4a then mem.inputRemain else mem.inputRemain + env.inputSize
            decoderInfo, numSamples, decoderError }, next) ∧
      (next ≠ none → d.initialized = false) := by
  have htop : (if d.isM4a then mem else { mem with inputRemain := mem.inputRemain + env.inputSize }) =
      { mem with inputRemain := if d.isM4a then mem.inputRemain else mem.inputRemain + env.inputSize } := by
    split <;> rfl
  unfold aacDecoderInput
  have hmore : ¬ (d.isM4a = false ∧ env.inputSize ≤ 0) := by
    rintro ⟨haac, hle⟩
    rcases hsize with hm4a | hpos
    · rw [haac] at hm4a
      cases hm4a
    · omega
  rw [if_neg (by rw [hdone]; exact Bool.false_ne_true), if_neg hmore, htop]
  dsimp only
  split
  case isTrue => exact ⟨d.initialized, _, _, _, _, rfl, fun h => absurd rfl h⟩
  case isFalse hinit =>
    cases env.init with
    | none => exact ⟨d.initialized, _, _, _, _, rfl, fun _ => eq_false_of_ne_true hinit⟩
    | some info => exact ⟨true, _, _, _, _, rfl, fun h => absurd rfl h⟩

/-- What the input leads to: the poll ends, or it has bytes or a sample to decode. -/
theorem aacPlayerInput_cases {allOut : Prop} (hout : allOut) {next : Option Word}
    (h : aacPlayerInput env readLen t mem = (t', mem', next)) :
    (next ≠ none ∧ AacPoll env readLen allOut (t.input mem) (t'.input mem')) ∨
    (next = none ∧ t.dec.inputDone = false ∧ t.dec.isM4a = false ∧ 0 < readLen ∧
      t'.input mem' = (t.input mem).topUp readLen) ∨
    (next = none ∧ t.dec.inputDone = false ∧ t.dec.isM4a = true ∧
      ∃ setDone done, t'.input mem' = { t.input mem with setDone, inputDone := done } ∧
        (if done then t.setDone < setDone else setDone = t.setDone)) := by
  unfold aacPlayerInput at h
  rw [playerInputCallback_stream (show ComPlayerType.aac ≠ .m4a by decide)] at h
  dsimp only at h
  cases hdone : t.dec.inputDone with
  | true =>
    have hin : ∀ inputSize, aacDecoderInput { env with inputSize } t.dec mem =
        ({ t.dec with outputDone := true }, mem, some mp3DecoderStaPause) := by
      intro inputSize
      unfold aacDecoderInput
      rw [if_pos hdone]
    rw [hin, if_pos hdone] at h
    obtain ⟨rfl, rfl, rfl⟩ := h
    exact .inl ⟨Option.some_ne_none _, .ended hdone⟩
  | false =>
    have hnot : ¬ t.dec.inputDone = true := by rw [hdone]; exact Bool.false_ne_true
    rw [if_neg hnot] at h
    cases hm4a : t.dec.isM4a with
    | false =>
      have haac : ¬ t.dec.isM4a = true := by rw [hm4a]; exact Bool.false_ne_true
      rw [if_neg haac] at h
      by_cases hread : 0 < readLen
      · obtain ⟨initialized, decoderInfo, numSamples, decoderError, next', hin, -⟩ :=
          @aacDecoderInput_open { env with inputSize := readLen } t.dec mem hdone (.inr hread)
        rw [if_pos hread, decide_eq_false (by omega), hin, if_neg haac] at h
        obtain ⟨rfl, rfl, rfl⟩ := h
        have hinput : AacSource.input { t with
              dec := { t.dec with initialized, inputDone := false }, filePos := t.filePos + readLen
              events := t.events ++ [.read t.filePos readLen], obtained := t.obtained + readLen }
            { mem with inputRemain := mem.inputRemain + readLen, decoderInfo, numSamples, decoderError } =
            (t.input mem).topUp readLen := by
          rw [AacInputState.topUp, AacSource.input, AacSource.input, hdone]
        cases next' with
        | some state =>
          have hpoll : ∀ c, c = (t.input mem).topUp readLen → AacPoll env readLen allOut (t.input mem) c := by
            rintro _ rfl
            exact .refused hdone hm4a hread
          exact .inl ⟨Option.some_ne_none _, hpoll _ hinput⟩
        | none => exact .inr (.inl ⟨rfl, rfl, rfl, hread, hinput⟩)
      · have hin : aacDecoderInput { env with inputSize := 0 } t.dec mem =
            (t.dec, mem, some mp3DecoderStaPause) := by
          unfold aacDecoderInput
          rw [if_neg hnot, if_pos ⟨hm4a, Int.le_refl 0⟩]
        rw [if_neg hread, decide_eq_true (by omega), hin] at h
        obtain ⟨rfl, rfl, rfl⟩ := h
        refine .inl ⟨Option.some_ne_none _, ?_⟩
        have hfile : t.filePos + 0 = t.filePos := Int.add_zero _
        have hobtained : t.obtained + 0 = t.obtained := Int.add_zero _
        have hempty : AacPoll env readLen allOut (t.input mem) _ := .empty hout hdone hm4a (by omega)
        rw [hfile, hobtained]
        exact hempty
    | true =>
      obtain ⟨initialized, decoderInfo, numSamples, decoderError, next', hin, hunopened⟩ :=
        @aacDecoderInput_open { env with inputSize := if 0 < readLen then readLen else 0 } t.dec mem hdone
          (.inl hm4a)
      rw [hin, if_pos hm4a, if_pos hm4a] at h
      obtain ⟨rfl, rfl, rfl⟩ := h
      have hset : ∀ done : Bool, if done then t.setDone < (if done then t.setDone + 1 else t.setDone)
          else (if done then t.setDone + 1 else t.setDone) = t.setDone := by
        intro done
        cases done
        · exact rfl
        · exact Nat.lt_succ_self _
      cases next' with
      | some state => exact .inl ⟨Option.some_ne_none _, .unopened hdone hm4a (hset _)⟩
      | none => exact .inr (.inr ⟨rfl, rfl, rfl, _, _, rfl, hset _⟩)

/-- Decoding takes a part of the window, or reads the next sample. -/
theorem aacPlayerDecode_cases (h : aacPlayerDecode env readLen t mem = some (t', mem')) :
    ((t.input mem).isM4a = false ∧ t'.input mem' = { t.input mem with
      inputRemain := (t.input mem).inputRemain - env.frame.bytesconsumed
      consumed := (t.input mem).consumed + env.frame.bytesconsumed }) ∨
    ((t.input mem).isM4a = true ∧ t'.input mem' = { t.input mem with
      inputDone := (t.input mem).inputDone || decide (readLen < 0)
      events := (t.input mem).events ++ [.sample (t.input mem).sampleId]
      setDone := if readLen < 0 then (t.input mem).setDone + 1 else (t.input mem).setDone
      sampleId := (t.input mem).sampleId + 1 }) := by
  unfold aacPlayerDecode at h
  simp only [Option.bind_eq_bind, Option.bind_eq_some_iff] at h
  obtain ⟨next, hdecode, h⟩ := h
  unfold aacDecoderDecode at hdecode
  cases hm4a : t.dec.isM4a with
  | false =>
    have haac : ¬ t.dec.isM4a = true := by rw [hm4a]; exact Bool.false_ne_true
    rw [if_neg haac] at h hdecode
    obtain ⟨rfl, rfl⟩ := Prod.mk.inj (Option.some.inj h)
    obtain rfl := Option.some.inj hdecode
    exact .inl ⟨hm4a, rfl⟩
  | true =>
    rw [if_pos hm4a] at h hdecode
    split at hdecode
    · cases hdecode
    · obtain ⟨rfl, rfl⟩ := Prod.mk.inj (Option.some.inj h)
      obtain rfl := Option.some.inj hdecode
      refine .inr ⟨hm4a, ?_⟩
      simp only [AacSource.input, decide_eq_true_eq]

/-- **A poll is one of `AacPoll`**, after the error handler. -/
theorem aacPlayerRunPoll_cases {state : Word} (hmem : t.dec.mem = some mem)
    (h : aacPlayerRunPoll env readLen t = some (t', state)) :
    ∃ mem', t'.dec.mem = some mem' ∧
      AacPoll env readLen (mem.AllOut env.accepts) ((aacPlayerErrorHandler t mem).input mem) (t'.input mem') := by
  unfold aacPlayerRunPoll at h
  rw [hmem] at h
  simp only [Option.bind_eq_bind, Option.bind_some, Option.bind_eq_some_iff] at h
  obtain ⟨⟨out, dec⟩, hhandler, h⟩ := h
  generalize aacPlayerErrorHandler t mem = t₁ at h hhandler ⊢
  obtain ⟨accepted, outputBuffer, outputSize, outputTotal, rfl, hout⟩ := aacDecoderOutputHandler_cases hhandler
  split at h
  case isTrue =>
    obtain ⟨rfl, rfl⟩ := Prod.mk.inj (Option.some.inj h)
    exact ⟨_, rfl, .full⟩
  case isFalse hfull =>
    have hout := hout (by simpa using hfull)
    simp only [Option.bind_some] at h
    split at h
    case h_1 t₂ mem₂ state' hinput =>
      obtain ⟨rfl, rfl⟩ := Prod.mk.inj (Option.some.inj h)
      refine ⟨mem₂, rfl, ?_⟩
      rcases aacPlayerInput_cases hout hinput with ⟨-, hpoll⟩ | ⟨hnone, -⟩ | ⟨hnone, -⟩
      · exact hpoll
      · cases hnone
      · cases hnone
    case h_2 t₂ mem₂ hinput =>
      simp only [Option.bind_eq_some_iff] at h
      obtain ⟨⟨t₃, mem₃⟩, hdecode, ⟨dec, state'⟩, houtput, h⟩ := h
      obtain ⟨rfl, rfl⟩ := Prod.mk.inj (Option.some.inj h)
      obtain ⟨accepted', decoded, mem₄, rfl, hremain, hid⟩ := aacDecoderOutput_cases houtput
      refine ⟨mem₄, rfl, ?_⟩
      have hnext : AacSource.input { t₃ with dec := { t₃.dec with accepted := accepted', decoded, mem := some mem₄ } }
          mem₄ = { t₃.input mem₃ with
            inputRemain := if env.frame.error = 0 then (t₃.input mem₃).inputRemain else 0 } := by
        rw [AacSource.input, AacSource.input, hremain, hid]
      rw [hnext]
      rcases aacPlayerInput_cases hout hinput with ⟨hsome, -⟩ | ⟨-, hdone, haac, hread, hinput⟩ |
        ⟨-, hdone, hm4a, setDone, done, hinput, hset⟩
      · exact absurd rfl hsome
      · rcases aacPlayerDecode_cases hdecode with ⟨-, hdecoded⟩ | ⟨hm4a, -⟩
        · rw [hdecoded, hinput]
          exact AacPoll.decoded (c := t₁.input mem) hdone haac hread
        · rw [hinput] at hm4a
          exact absurd (hm4a.symm.trans haac) (by decide)
      · rcases aacPlayerDecode_cases hdecode with ⟨haac, -⟩ | ⟨-, hdecoded⟩
        · rw [hinput] at haac
          exact absurd (hm4a.symm.trans haac) (by decide)
        · rw [hdecoded, hinput]
          refine AacPoll.sample (c := t₁.input mem) hdone hm4a ?_
          by_cases hread : readLen < 0
          · rw [decide_eq_true hread, Bool.or_true, if_pos rfl, if_pos hread]
            split at hset
            · exact Nat.lt_succ_of_lt hset
            · exact Nat.lt_succ_of_le (le_of_eq hset.symm)
          · rwa [decide_eq_false hread, Bool.or_false, if_neg hread]

end

/-- What the polls of an mp3 decoder do their input by. -/
structure Mp3InputState where
  inputDone  : Bool
  outputDone : Bool
  filePos    : Int
  events     : List InputEvent
  setDone    : Nat
deriving DecidableEq

def Mp3Source.input (t : Mp3Source) : Mp3InputState where
  inputDone := t.dec.inputDone
  outputDone := t.dec.outputDone
  filePos := t.filePos
  events := t.events
  setDone := t.setDone

/-- A poll after its error handler, by what it does to the input. -/
inductive Mp3Poll (readLen : Int) : Mp3InputState → Mp3InputState → Prop
  /-- The PCM is not all taken, or libmad's window is not used up. -/
  | same {c : Mp3InputState} : Mp3Poll readLen c c
  | ended {c : Mp3InputState} (hdone : c.inputDone = true) :
    Mp3Poll readLen c { c with outputDone := true, events := c.events ++ [.ended] }
  | read {c : Mp3InputState} (hdone : c.inputDone = false) (hread : 0 < readLen) :
    Mp3Poll readLen c { c with filePos := c.filePos + readLen, events := c.events ++ [.read c.filePos readLen] }
  | empty {c : Mp3InputState} (hdone : c.inputDone = false) (hread : readLen ≤ 0) :
    Mp3Poll readLen c
      { c with inputDone := true, events := c.events ++ [.read c.filePos 0], setDone := c.setDone + 1 }

section
variable {env : Mp3Env} {remain readLen : Int} {t t' : Mp3Source} {d d' : Mp3Decoder} {mem mem' : Mp3DecoderMemory}

/-- The output handler touches the output only. -/
theorem mp3DecoderOutputHandler_cases {accepts : Takes} {out : Bool}
    (h : mp3DecoderOutputHandler accepts d mem = some (out, d')) : ∃ accepted mem',
    d' = { d with accepted, mem := some mem' } ∧ mem'.streamBuffer = mem.streamBuffer ∧
      mem'.streamError = mem.streamError := by
  unfold mp3DecoderOutputHandler at h
  dsimp only at h
  split at h
  · obtain ⟨-, rfl⟩ := Prod.mk.inj (Option.some.inj h)
    exact ⟨d.accepted, mem, rfl, rfl, rfl⟩
  · simp only [Option.bind_eq_bind, Option.bind_eq_some_iff] at h
    obtain ⟨buffer, -, h⟩ := h
    split at h
    · obtain ⟨-, rfl⟩ := Prod.mk.inj (Option.some.inj h)
      exact ⟨_, _, rfl, rfl, rfl⟩
    · obtain ⟨-, rfl⟩ := Prod.mk.inj (Option.some.inj h)
      exact ⟨_, _, rfl, rfl, rfl⟩

/-- Decoding has nothing to do with the input. -/
theorem mp3DecoderDecode_cases {state : Word} (h : mp3DecoderDecode env d mem = some (d', state)) :
    ∃ accepted decoded mem', d' = { d with accepted, decoded, mem := some mem' } := by
  unfold mp3DecoderDecode at h
  split at h
  · obtain ⟨rfl, -⟩ := Prod.mk.inj (Option.some.inj h)
    exact ⟨_, _, _, rfl⟩
  · simp only [Option.bind_eq_bind, Option.bind_eq_some_iff, mp3DecoderOutput] at h
    obtain ⟨⟨d₁, mem₁⟩, ⟨b, -, b', -, houtput⟩, ⟨out, d₂⟩, hhandler, h⟩ := h
    obtain ⟨rfl, rfl⟩ := Prod.mk.inj (Option.some.inj houtput)
    obtain ⟨rfl, -⟩ := Prod.mk.inj (Option.some.inj h)
    obtain ⟨accepted, mem', rfl, -, -⟩ := mp3DecoderOutputHandler_cases hhandler
    exact ⟨_, _, _, rfl⟩

/-- The error handler reports the end, or does nothing. -/
theorem mp3PlayerErrorHandler_eq (t : Mp3Source) (mem : Mp3DecoderMemory) : ∃ errors,
    mp3PlayerErrorHandler t mem =
      { t with
        dec := { t.dec with errors, inputDone := t.dec.inputDone || mp3DecoderComplains t.dec mem }
        setDone := if mp3DecoderComplains t.dec mem then t.setDone + 1 else t.setDone } := by
  unfold mp3PlayerErrorHandler
  cases hcomplains : mp3DecoderComplains t.dec mem with
  | false => exact ⟨t.dec.errors, by simp⟩
  | true =>
    obtain ⟨errors, herrors⟩ := mp3DecoderErrorHandler_eq t.dec mem
    exact ⟨errors, by simp [herrors]⟩

/-- Step 1 sets `output_done` when the input is done. -/
theorem mp3DecoderInput_fst (env : Mp3Env) (d : Mp3Decoder) (mem : Mp3DecoderMemory) :
    (mp3DecoderInput env d mem).1 =
      if (mem.streamBuffer = false ∨ mem.streamError = madErrorBuflen) ∧ d.inputDone = true
      then { d with outputDone := true } else d := by
  unfold mp3DecoderInput
  by_cases hneed : mem.streamBuffer = false ∨ mem.streamError = madErrorBuflen
  · rw [if_pos hneed]
    by_cases hdone : d.inputDone = true
    · rw [if_pos hdone, if_pos ⟨hneed, hdone⟩]
    · have hboth : ¬ ((mem.streamBuffer = false ∨ mem.streamError = madErrorBuflen) ∧ d.inputDone = true) :=
        fun h => hdone h.2
      rw [if_neg hdone, if_neg hboth]
      split <;> rfl
  · rw [if_neg hneed, if_neg (fun hboth => hneed hboth.1)]

/-- Step 1 ends the output, asks for input, or has some left. -/
theorem mp3PlayerInput_cases {next : Option Mp3DecoderMemory}
    (h : mp3PlayerInput env remain readLen t mem = (t', next)) :
    Mp3Poll readLen t.input t'.input ∧ t'.dec.mem = t.dec.mem := by
  unfold mp3PlayerInput at h
  rw [playerInputCallback_stream (show ComPlayerType.mp3 ≠ .m4a by decide)] at h
  dsimp only at h
  rw [mp3DecoderInput_fst] at h
  by_cases hneed : mem.streamBuffer = false ∨ mem.streamError = madErrorBuflen
  · rw [if_pos hneed] at h
    cases hdone : t.dec.inputDone with
    | true =>
      rw [if_pos hdone, if_pos ⟨hneed, hdone⟩] at h
      obtain ⟨rfl, -⟩ := Prod.mk.inj h
      exact ⟨.ended hdone, rfl⟩
    | false =>
      have hnot : ¬ t.dec.inputDone = true := by rw [hdone]; exact Bool.false_ne_true
      rw [if_neg hnot, if_neg (fun hboth => hnot hboth.2)] at h
      obtain ⟨rfl, -⟩ := Prod.mk.inj h
      refine ⟨?_, rfl⟩
      by_cases hread : 0 < readLen
      · have hpoll := Mp3Poll.read (c := t.input) hdone hread
        rw [if_pos hread, decide_eq_false (by omega)]
        rw [Mp3Source.input, hdone] at hpoll ⊢
        exact hpoll
      · have hpoll := Mp3Poll.empty (c := t.input) hdone (show readLen ≤ 0 by omega)
        rw [if_neg hread, decide_eq_true (by omega), Int.add_zero]
        exact hpoll
  · rw [if_neg hneed, if_neg (fun hboth => hneed hboth.1)] at h
    obtain ⟨rfl, -⟩ := Prod.mk.inj h
    exact ⟨.same, rfl⟩

/-- **A poll is one of `Mp3Poll`**, after the error handler. -/
theorem mp3PlayerRunPoll_cases {state : Word} (hmem : t.dec.mem = some mem)
    (h : mp3PlayerRunPoll env remain readLen t = some (t', state)) :
    Mp3Poll readLen (mp3PlayerErrorHandler t mem).input t'.input ∧ t'.dec.mem.isSome = true := by
  unfold mp3PlayerRunPoll at h
  rw [hmem] at h
  simp only [Option.bind_eq_bind, Option.bind_some, Option.bind_eq_some_iff] at h
  obtain ⟨⟨out, dec⟩, hhandler, h⟩ := h
  generalize mp3PlayerErrorHandler t mem = t₁ at h hhandler ⊢
  obtain ⟨accepted, mem₁, rfl, -, -⟩ := mp3DecoderOutputHandler_cases hhandler
  split at h
  case isTrue =>
    obtain ⟨rfl, rfl⟩ := Prod.mk.inj (Option.some.inj h)
    exact ⟨.same, rfl⟩
  case isFalse =>
    simp only [Option.bind_some] at h
    split at h
    case h_1 t₂ hinput =>
      obtain ⟨rfl, rfl⟩ := Prod.mk.inj (Option.some.inj h)
      obtain ⟨hpoll, hmem₂⟩ := mp3PlayerInput_cases hinput
      exact ⟨hpoll, by rw [hmem₂]; rfl⟩
    case h_2 t₂ mem₂ hinput =>
      simp only [Option.bind_eq_some_iff] at h
      obtain ⟨⟨dec, state'⟩, hdecode, h⟩ := h
      obtain ⟨rfl, rfl⟩ := Prod.mk.inj (Option.some.inj h)
      obtain ⟨accepted', decoded, mem₃, rfl⟩ := mp3DecoderDecode_cases hdecode
      exact ⟨(mp3PlayerInput_cases hinput).1, rfl⟩

end

/-! ## Runs -/

section
variable {u u' : DecoderSys Mp3Source} {a : Mp3SourceAct} {t v : Mp3Source}

/-- What every action preserves, every turn preserves. -/
theorem Mp3SourceStep.preserves {I : Mp3Source → Prop} (hstep : Mp3SourceStep u a u')
    (h : ∀ v, u.dec = some v → I v)
    (hstart : a = .start → ∀ v, I v → I { v with dec := { v.dec with inputDone := false, outputDone := false } })
    (hact : ∀ env remain readLen seekTo events action, a = .turn env remain readLen seekTo events →
      decoderTurnAction mp3DecoderLookup u.curState events = some action → ∀ v, u.dec = some v → I v → ∀ v',
        (mp3PlayerRun env remain readLen seekTo action (some v)).1 = some v' → I v') :
    ∀ v', u'.dec = some v' → I v' := by
  intro v' hv'
  cases hstep with
  | start =>
    obtain ⟨v, hv, rfl⟩ := Option.map_eq_some_iff.1 hv'
    exact hstart rfl v (h v hv)
  | @turn env remain readLen seekTo events =>
    rw [DecoderSys.turn_dec] at hv'
    split at hv'
    case h_1 => exact h v' hv'
    case h_2 action haction =>
      cases hdec : u.dec with
      | none =>
        rw [hdec] at hv'
        cases hv'
      | some v =>
        rw [hdec] at hv'
        exact hact env remain readLen seekTo events action rfl haction v hdec (h v hdec) v' hv'

/-- A poll of an allocated decoder. -/
theorem mp3PlayerRun_poll {env : Mp3Env} {remain readLen seekTo : Int}
    (h : (mp3PlayerRun env remain readLen seekTo .runPoll (some t)).1 = some v) :
    ∃ mem, t.dec.mem = some mem ∧ Mp3Poll readLen (mp3PlayerErrorHandler t mem).input v.input := by
  simp only [mp3PlayerRun] at h
  split at h
  case h_1 => cases h
  case h_2 hpoll =>
    obtain rfl := Option.some.inj h
    cases hmem : t.dec.mem with
    | none =>
      unfold mp3PlayerRunPoll at hpoll
      rw [hmem] at hpoll
      cases hpoll
    | some mem => exact ⟨mem, rfl, (mp3PlayerRunPoll_cases hmem hpoll).1⟩

end

section
variable {u u' : DecoderSys AacSource} {a : AacSourceAct} {t v : AacSource}

/-- What every action preserves, every turn preserves. -/
theorem AacSourceStep.preserves {I : AacSource → Prop} (hstep : AacSourceStep u a u')
    (h : ∀ v, u.dec = some v → I v)
    (hstart : a = .start → ∀ v, I v → I { v with dec := { v.dec with inputDone := false, outputDone := false } })
    (hact : ∀ env readLen seekTo events action, a = .turn env readLen seekTo events →
      decoderTurnAction aacDecoderLookup u.curState events = some action → ∀ v, u.dec = some v → I v → ∀ v',
        (aacPlayerRun env readLen seekTo action (some v)).1 = some v' → I v') :
    ∀ v', u'.dec = some v' → I v' := by
  intro v' hv'
  cases hstep with
  | start =>
    obtain ⟨v, hv, rfl⟩ := Option.map_eq_some_iff.1 hv'
    exact hstart rfl v (h v hv)
  | @turn env readLen seekTo events =>
    rw [DecoderSys.turn_dec] at hv'
    split at hv'
    case h_1 => exact h v' hv'
    case h_2 action haction =>
      cases hdec : u.dec with
      | none =>
        rw [hdec] at hv'
        cases hv'
      | some v =>
        rw [hdec] at hv'
        exact hact env readLen seekTo events action rfl haction v hdec (h v hdec) v' hv'

/-- A poll of an allocated decoder. -/
theorem aacPlayerRun_poll {env : AacEnv} {readLen seekTo : Int}
    (h : (aacPlayerRun env readLen seekTo .runPoll (some t)).1 = some v) :
    ∃ mem mem', t.dec.mem = some mem ∧ v.dec.mem = some mem' ∧
      AacPoll env readLen (mem.AllOut env.accepts) ((aacPlayerErrorHandler t mem).input mem) (v.input mem') := by
  simp only [aacPlayerRun] at h
  split at h
  case h_1 => cases h
  case h_2 hpoll =>
    obtain rfl := Option.some.inj h
    cases hmem : t.dec.mem with
    | none =>
      unfold aacPlayerRunPoll at hpoll
      rw [hmem] at hpoll
      cases hpoll
    | some mem =>
      obtain ⟨mem', hmem', hcases⟩ := aacPlayerRunPoll_cases hmem hpoll
      exact ⟨mem, mem', rfl, hmem', hcases⟩

end

end AudioPlayer

import Mathlib
import AudioPlayer.Lib.Steps
import AudioPlayer.CommonFsm
import AudioPlayer.DirectBuffer

/-!
# The mp3 decoder (`src/mp3_decoder.c`)

The decoder task turns one mp3 frame at a time into PCM in `output_buffer` and hands it to the output
callback, which may take any part of it. What libmad, the id3 library and the callbacks answer in a poll is
an `Mp3Env`; the bytes of the mp3 stream are read by libmad alone.

`errors`, `accepted` and `decoded` are not in the code: they record what the error callback was told, what the
output callback took, and the PCM of every frame that came to the output. A step of the task is labelled with the PCM
that libmad gives in it, which a poll asks for where `asks` says so, whatever the decoder makes of it.

| here | there |
|---|---|
| `MadPcm`                  | `struct mad_pcm` with the bounds of its array (`libmad/synth.h`) |
| `mp3DecoderOutputHandler` | `mp3_decoder_output_handler` (`mp3_decoder.c:82-101`) |
| `mp3DecoderRunPoll`       | `mp3_decoder_run_poll` (`:161-272`) |
| `mp3DecoderRun`           | the actions of the table `mp3DecoderLookup` |
-/

namespace AudioPlayer
open Lib

/-- `audio_decoder_info_t` -/
structure AudioDecoderInfo where
  tagSize    : Int := 0
  sampleRate : Int := 0
  bitRate    : Int := 0
  channels   : Int := 0
deriving DecidableEq

/-- What `mad_synth_frame` leaves, with the header fields that are read: `samples` is `mad_fixed_t[2][1152]`. -/
structure MadPcm where
  samples     : Nat → Nat → Int
  channels    : Nat
  length      : Nat
  samplerate  : Int
  bitrate     : Int
  channels_le : channels ≤ 2
  length_le   : length ≤ 1152

/-- `MAD_OPTION_HALFSAMPLERATE` is in `frame.options` (`mp3_decoder.c:239-243`); `mad_frame_decode` takes it out again
(`libmad/frame.c:440`). -/
def MadPcm.halved (pcm : MadPcm) : Bool := 44100 ≤ pcm.samplerate

def madErrorNone     : Nat := 0x0000
def madErrorBuflen   : Nat := 0x0001
def madErrorLostsync : Nat := 0x0101

/-- `MAD_RECOVERABLE` (`libmad/stream.h:59`). -/
def madRecoverable (error : Nat) : Bool := (error &&& 0xff00) != 0

/-- How much of what it is offered a callback takes. -/
abbrev Takes : Type := { f : Int → Int // ∀ n, 0 ≤ n → 0 ≤ f n ∧ f n ≤ n }

/-- It takes everything. -/
def takesAll : Takes := ⟨id, fun _ h => ⟨h, Int.le_refl _⟩⟩

/-- What the calls of one poll answer. -/
structure Mp3Env where
  accepts      : Takes
  acceptsAgain : Takes
  inputSize    : Int
  /-- `id3_tag_query` before the frame is decoded. -/
  tagSize      : Int
  decode       : Except Nat MadPcm

/-- `mp3_decoder_memory_t`; of the stream, whether it has a buffer, and its error. -/
structure Mp3DecoderMemory where
  streamBuffer : Bool := false
  streamError  : Nat := madErrorNone
  decoderInfo  : AudioDecoderInfo := {}
  outputBuffer : DirectBuffer := directBufferCreate 512
  outputTotal  : Int := 0
  decoderError : Int := 0

/-- `mp3_decoder_t`, and the records. -/
structure Mp3Decoder where
  inputDone  : Bool := false
  outputDone : Bool := false
  mem        : Option Mp3DecoderMemory := none
  errors     : List Nat := []
  accepted   : List (Option Byte) := []
  decoded    : List Byte := []

/-- `scale` (`mp3_decoder.c:67-80`): round, clip, quantize; the sum is stored in 32 bits. -/
def scale (sample : Int) : Int :=
  let sample := toI32 (sample + 4096)
  let sample := if sample ≥ 268435456 then 268435455 else if sample < -268435456 then -268435456 else sample
  sample >>> (13 : Nat)

/-- The frame as interleaved 16-bit samples, lower bytes first. -/
def MadPcm.bytes (pcm : MadPcm) : List Byte :=
  (List.range pcm.length).flatMap fun i => (List.range pcm.channels).flatMap fun j =>
    le16 (BitVec.ofInt 16 (scale (pcm.samples j i)))

/-- The loops of `mp3_decoder_run_poll` (`mp3_decoder.c:257-264`). -/
def mp3DecoderPushFrame (b : DirectBuffer) (pcm : MadPcm) : Option DirectBuffer :=
  (List.range pcm.length).foldlM (fun b i =>
    (List.range pcm.channels).foldlM (fun b j => do
      let tmp := scale (pcm.samples j i)
      let b ← directBufferPushOne b (toByte tmp)
      directBufferPushOne b (toByte (tmp >>> (8 : Nat)))) b) b

/-- `mp3_decoder_output_handler` (`mp3_decoder.c:82-101`): is everything out? -/
def mp3DecoderOutputHandler (accepts : Takes) (d : Mp3Decoder) (mem : Mp3DecoderMemory) :
    Option (Bool × Mp3Decoder) :=
  let count := directBufferGetCount mem.outputBuffer
  if count ≤ 0 then some (true, { d with mem })
  else do
    let buffer ← memread? mem.outputBuffer.buffer mem.outputBuffer.read count
    let count := accepts.val count
    let d := { d with accepted := d.accepted ++ buffer.take count.toNat }
    let outputBuffer := directBufferPopOnly mem.outputBuffer count
    let outputTotal := toI32 (mem.outputTotal + count)
    if directBufferGetCount outputBuffer > 0 then
      some (false, { d with mem := some { mem with outputBuffer, outputTotal } })
    else some (true, { d with mem := some { mem with outputBuffer := directBufferClear outputBuffer, outputTotal } })

def mp3DecoderMaxErrCount : Int := 20

/-- `mp3_decoder_error_handler` (`mp3_decoder.c:103-114`). -/
def mp3DecoderErrorHandler (d : Mp3Decoder) (mem : Mp3DecoderMemory) : Mp3Decoder :=
  if mem.decoderError ≥ mp3DecoderMaxErrCount ∨ d.outputDone = true ∧ mem.outputTotal ≤ 0 then
    { d with errors := d.errors ++ [mem.streamError] }
  else d

/-- Step 1 (`mp3_decoder.c:175-204`): the memory to go on with, or none to pause. -/
def mp3DecoderInput (env : Mp3Env) (d : Mp3Decoder) (mem : Mp3DecoderMemory) :
    Mp3Decoder × Option Mp3DecoderMemory :=
  if mem.streamBuffer = false ∨ mem.streamError = madErrorBuflen then
    if d.inputDone then ({ d with outputDone := true }, none)
    else if env.inputSize > 0 then (d, some { mem with streamBuffer := true, streamError := madErrorNone })
    else (d, none)
  else (d, some mem)

/-- A frame that is not decoded (`mp3_decoder.c:213-231`): whether the poll pauses. After a lost sync libmad
skips a tag. -/
def mp3DecoderBadFrame (mem : Mp3DecoderMemory) (error : Nat) : Mp3DecoderMemory × Bool :=
  let mem := { mem with streamError := error }
  if error = madErrorBuflen then (mem, false)
  else if error = madErrorLostsync then ({ mem with decoderError := mem.decoderError + 1 }, false)
  else if madRecoverable error then (mem, false)
  else ({ mem with decoderError := mem.decoderError + 1 }, true)

/-- Step 3 (`mp3_decoder.c:244-264`): the frame goes into the output buffer. -/
def mp3DecoderOutput (d : Mp3Decoder) (mem : Mp3DecoderMemory) (pcm : MadPcm) :
    Option (Mp3Decoder × Mp3DecoderMemory) := do
  let sampleRate := if pcm.halved then pcm.samplerate.tdiv 2 else pcm.samplerate
  let decoderInfo := { mem.decoderInfo with sampleRate, bitRate := pcm.bitrate, channels := pcm.channels }
  let outputBuffer ← directBufferResize mem.outputBuffer ((pcm.length * pcm.channels * 2 : Nat) : Int)
  let outputBuffer ← mp3DecoderPushFrame (directBufferClear outputBuffer) pcm
  some ({ d with decoded := d.decoded ++ pcm.bytes }, { mem with decoderInfo, outputBuffer })

/-- The tag's size is asked for until there is one (`mp3_decoder.c:206-208`). -/
def mp3DecoderTag (env : Mp3Env) (mem : Mp3DecoderMemory) : Mp3DecoderMemory :=
  if mem.decoderInfo.tagSize ≤ 0 then
    { mem with decoderInfo := { mem.decoderInfo with tagSize := env.tagSize } }
  else mem

/-- Steps 2 and 3 (`mp3_decoder.c:211-271`). -/
def mp3DecoderDecode (env : Mp3Env) (d : Mp3Decoder) (mem : Mp3DecoderMemory) : Option (Mp3Decoder × Word) :=
  match env.decode with
  | .error error =>
    let bad := mp3DecoderBadFrame mem error
    some ({ d with mem := some bad.1 }, if bad.2 then mp3DecoderStaPause else comFsmHoldState)
  | .ok pcm => do
    let (d, mem) ← mp3DecoderOutput d { mem with decoderError := 0 } pcm
    let (out, d) ← mp3DecoderOutputHandler env.acceptsAgain d mem
    some (d, if out = false then mp3DecoderStaPause else comFsmHoldState)

/-- `mp3_decoder_run_poll` (`mp3_decoder.c:161-272`). -/
def mp3DecoderRunPoll (env : Mp3Env) (d : Mp3Decoder) : Option (Mp3Decoder × Word) := do
  let mem ← d.mem
  let (out, d) ← mp3DecoderOutputHandler env.accepts (mp3DecoderErrorHandler d mem) mem
  if out = false then some (d, mp3DecoderStaPause)
  else do
    let mem ← d.mem
    match mp3DecoderInput env d mem with
    | (d, none) => some (d, mp3DecoderStaPause)
    | (d, some mem) => mp3DecoderDecode env d (mp3DecoderTag env mem)

/-- `mp3_decoder_seek_handler` (`mp3_decoder.c:57-65`); the callback moves the input. -/
def mp3DecoderSeekHandler (d : Mp3Decoder) : Mp3Decoder :=
  { d with mem := d.mem.map fun mem => { mem with outputBuffer := directBufferClear mem.outputBuffer } }

/-- The actions (`mp3_decoder.c:116-272`); allocations succeed, and none is what undefined behaviour leaves. -/
def mp3DecoderRun (env : Mp3Env) (a : Mp3DecoderAction) : Option Mp3Decoder → Option Mp3Decoder × Word
  | none => (none, comFsmHoldState)
  | some d =>
    match a with
    | .start => (some { d with mem := some {} }, mp3DecoderStaRun)
    | .stop => (some { d with mem := none }, mp3DecoderStaIdle)
    | .pause => (some d, mp3DecoderStaPause)
    | .resume => (some d, mp3DecoderStaRun)
    | .seek => (some (mp3DecoderSeekHandler d), comFsmHoldState)
    | .runPoll =>
      match mp3DecoderRunPoll env d with
      | none => (none, comFsmHoldState)
      | some (d, state) => (some d, state)

/-! ## The task -/

/-- A decoder task: its state and the decoder, none after undefined behaviour. -/
structure DecoderSys (D : Type) where
  curState : Word
  dec      : Option D

/-- One turn of `com_fsm_task` on the set `events`. -/
def DecoderSys.turn {D : Type} (exec : Mp3DecoderAction → Option D → Option D × Word)
    (lookup : List (ComFsmLookup Mp3DecoderAction)) (s : DecoderSys D) (events : Word) : DecoderSys D :=
  let (state, dec, _) := comFsmDispatch exec lookup s.curState s.dec events
  ⟨state, dec⟩

/-- The set with these requests in it. -/
def decoderEvents (start pause resume : Bool) : Word :=
  (if start then mp3DecoderEventStart else 0) ||| (if pause then mp3DecoderEventPause else 0) |||
    (if resume then mp3DecoderEventResume else 0)

def decoderStates : List Word := [mp3DecoderStaIdle, mp3DecoderStaRun, mp3DecoderStaPause]

/-- The action a turn runs without a seek and a stop in its set. -/
def decoderAction (state : Word) (start pause resume : Bool) : Option Mp3DecoderAction :=
  if state = mp3DecoderStaIdle then if start then some .start else none
  else if state = mp3DecoderStaRun then if pause then some .pause else some .runPoll
  else if resume then some .resume else none

/-- What the library gives in a turn, if it gives `frame` in a poll. -/
def DecoderSys.gives {D : Type} (frame : D → List Byte) (s : DecoderSys D) (start pause resume : Bool) : List Byte :=
  if decoderAction s.curState start pause resume = some .runPoll then (s.dec.map frame).getD [] else []

/-- A poll comes to `mad_frame_decode` (`mp3_decoder.c:211`): the callback takes all that is left, and the stream has
something to decode or is given it. -/
def Mp3Decoder.asks (env : Mp3Env) (d : Mp3Decoder) : Bool :=
  match d.mem with
  | none => false
  | some mem =>
    env.accepts.val (directBufferGetCount mem.outputBuffer) = directBufferGetCount mem.outputBuffer &&
      (mem.streamBuffer && mem.streamError ≠ madErrorBuflen || !d.inputDone && 0 < env.inputSize)

/-- The PCM of the frame libmad answers with. -/
def Mp3Env.pcm (env : Mp3Env) : List Byte :=
  match env.decode with
  | .ok pcm => pcm.bytes
  | .error _ => []

def Mp3Decoder.frame (env : Mp3Env) (d : Mp3Decoder) : List Byte := if d.asks env then env.pcm else []

/-- A turn on any set without a seek and a stop; `mp3_decoder_start` and `mp3_decoder_set_input_done` set their
flags (`mp3_decoder.c:311-318`, `:359-362`). -/
inductive Mp3DecoderStep : DecoderSys Mp3Decoder → List Byte → DecoderSys Mp3Decoder → Prop
  | turn {s : DecoderSys Mp3Decoder} {start pause resume : Bool} {env : Mp3Env} :
    Mp3DecoderStep s (s.gives (Mp3Decoder.frame env) start pause resume)
      (s.turn (mp3DecoderRun env) mp3DecoderLookup (decoderEvents start pause resume))
  | flags {s : DecoderSys Mp3Decoder} {inputDone outputDone : Bool} :
    Mp3DecoderStep s [] { s with dec := s.dec.map fun d => { d with inputDone, outputDone } }

/-- A table that selects as the tables of the decoders do. -/
def SelectsDecoder (lookup : List (ComFsmLookup Mp3DecoderAction)) : Prop :=
  ∀ s ∈ decoderStates, ∀ start pause resume,
    (comFsmSelect lookup s (decoderEvents start pause resume)).map ComFsmLookup.action =
      decoderAction s start pause resume

theorem mp3DecoderLookup_selects : SelectsDecoder mp3DecoderLookup := by
  intro s hs start pause resume
  simp only [decoderStates, List.mem_cons, List.not_mem_nil, or_false] at hs
  rcases hs with rfl | rfl | rfl <;> cases start <;> cases pause <;> cases resume <;> rfl

theorem exit_decoderEvents (start pause resume : Bool) :
    comFsmEventExit &&& decoderEvents start pause resume = 0 := by
  cases start <;> cases pause <;> cases resume <;> rfl

theorem decoderAction_runPoll {state : Word} {start pause resume : Bool}
    (h : decoderAction state start pause resume = some .runPoll) : state = mp3DecoderStaRun := by
  unfold decoderAction at h
  split at h
  · split at h <;> cases h
  split at h
  · assumption
  · split at h <;> cases h

section
variable {D : Type} {exec : Mp3DecoderAction → Option D → Option D × Word}
  {lookup : List (ComFsmLookup Mp3DecoderAction)} {s : DecoderSys D} {start pause resume : Bool}

/-- A turn runs that action and takes the state it names. -/
theorem DecoderSys.turn_eq (hsel : SelectsDecoder lookup) (hs : s.curState ∈ decoderStates) :
    s.turn exec lookup (decoderEvents start pause resume) =
      match decoderAction s.curState start pause resume with
      | none => s
      | some a => ⟨if (exec a s.dec).2 ≠ comFsmHoldState ∧ (exec a s.dec).2 ≠ s.curState then (exec a s.dec).2
          else s.curState, (exec a s.dec).1⟩ := by
  rw [← hsel s.curState hs start pause resume]
  unfold DecoderSys.turn comFsmDispatch
  rw [if_neg (fun h => h (exit_decoderEvents start pause resume))]
  cases comFsmSelect lookup s.curState (decoderEvents start pause resume) <;> rfl

/-- **One rule for both decoders**: what starting sets up, and polls, pauses and resumes preserve, every turn
preserves. -/
theorem DecoderSys.turn_preserves {I : Bool → Option D → Prop} (hsel : SelectsDecoder lookup)
    (hs : s.curState ∈ decoderStates) (h : I (s.curState != mp3DecoderStaIdle) s.dec)
    (hstart : ∀ o, I false o → (exec .start o).2 = mp3DecoderStaRun ∧ I true (exec .start o).1)
    (hpause : ∀ o, I true o → (exec .pause o).2 = mp3DecoderStaPause ∧ I true (exec .pause o).1)
    (hresume : ∀ o, I true o → (exec .resume o).2 = mp3DecoderStaRun ∧ I true (exec .resume o).1)
    (hpoll : decoderAction s.curState start pause resume = some .runPoll → I true s.dec →
      ((exec .runPoll s.dec).2 = mp3DecoderStaPause ∨ (exec .runPoll s.dec).2 = comFsmHoldState) ∧
        I true (exec .runPoll s.dec).1) :
    (s.turn exec lookup (decoderEvents start pause resume)).curState ∈ decoderStates ∧
      I ((s.turn exec lookup (decoderEvents start pause resume)).curState != mp3DecoderStaIdle)
        (s.turn exec lookup (decoderEvents start pause resume)).dec := by
  rw [DecoderSys.turn_eq hsel hs]
  obtain ⟨state, dec⟩ := s
  simp only [decoderStates, List.mem_cons, List.not_mem_nil, or_false] at hs
  dsimp only at hs h hpoll ⊢
  -- the state a result leads to
  have next : ∀ (res : Option D × Word) (state : Word), I true res.1 → state ∈ decoderStates →
      state ≠ mp3DecoderStaIdle ∨ (res.2 ∈ decoderStates ∧ res.2 ≠ mp3DecoderStaIdle) →
      res.2 ∈ [comFsmHoldState, mp3DecoderStaRun, mp3DecoderStaPause] →
      (if res.2 ≠ comFsmHoldState ∧ res.2 ≠ state then res.2 else state) ∈ decoderStates ∧
        I ((if res.2 ≠ comFsmHoldState ∧ res.2 ≠ state then res.2 else state) != mp3DecoderStaIdle) res.1 := by
    intro res state hI hstate hne hres
    have hout : (if res.2 ≠ comFsmHoldState ∧ res.2 ≠ state then res.2 else state) ∈ decoderStates ∧
        (if res.2 ≠ comFsmHoldState ∧ res.2 ≠ state then res.2 else state) ≠ mp3DecoderStaIdle := by
      generalize res.2 = out at hne hres
      simp only [decoderStates, List.mem_cons, List.not_mem_nil, or_false] at hstate hres hne ⊢
      rcases hres with rfl | rfl | rfl <;> rcases hstate with rfl | rfl | rfl <;> revert hne <;> decide
    exact ⟨hout.1, by rwa [bne_iff_ne.2 hout.2]⟩
  rcases hs with rfl | rfl | rfl
  · cases start with
    | false => exact ⟨.head _, h⟩
    | true =>
      obtain ⟨hstate, hI⟩ := hstart dec h
      exact next _ _ hI (.head _) (.inr (by rw [hstate]; decide)) (by rw [hstate]; decide)
  · cases pause with
    | false =>
      obtain ⟨hstate, hI⟩ := hpoll rfl h
      refine next _ _ hI (by decide) (.inl (by decide)) ?_
      rcases hstate with hstate | hstate <;> rw [hstate] <;> decide
    | true =>
      obtain ⟨hstate, hI⟩ := hpause dec h
      exact next _ _ hI (by decide) (.inl (by decide)) (by rw [hstate]; decide)
  · cases resume with
    | false => exact ⟨.tail _ (.tail _ (.head _)), h⟩
    | true =>
      obtain ⟨hstate, hI⟩ := hresume dec h
      exact next _ _ hI (by decide) (.inl (by decide)) (by rw [hstate]; decide)

/-- **What is given is what the record grows by**, if it does so in a poll and stays in the other actions. -/
theorem DecoderSys.turn_gives {r f : D → List Byte} {d d' : D} (hsel : SelectsDecoder lookup)
    (hs : s.curState ∈ decoderStates) (hd : s.dec = some d)
    (hother : ∀ a ∈ [Mp3DecoderAction.start, .pause, .resume], (exec a (some d)).1.map r = some (r d))
    (hpoll : s.curState = mp3DecoderStaRun →
      ∀ d', (exec .runPoll (some d)).1 = some d' → r d' = r d ++ f d)
    (hd' : (s.turn exec lookup (decoderEvents start pause resume)).dec = some d') :
    r d' = r d ++ s.gives f start pause resume := by
  rw [DecoderSys.turn_eq hsel hs] at hd'
  unfold DecoderSys.gives
  have hsame : ∀ a ∈ [Mp3DecoderAction.start, .pause, .resume], (exec a s.dec).1 = some d' → r d' = r d := by
    intro a ha hexec
    have hkept := hother a ha
    rw [← hd, hexec] at hkept
    exact Option.some.inj hkept
  cases haction : decoderAction s.curState start pause resume with
  | none =>
    rw [haction] at hd'
    obtain rfl : d = d' := Option.some.inj (hd.symm.trans hd')
    rw [if_neg (by simp), List.append_nil]
  | some a =>
    rw [haction] at hd'
    dsimp only at hd'
    cases a with
    | runPoll =>
      rw [if_pos rfl, hd]
      rw [hd] at hd'
      exact hpoll (decoderAction_runPoll haction) d' hd'
    | start => rw [if_neg (by simp), List.append_nil, hsame .start (by simp) hd']
    | pause => rw [if_neg (by simp), List.append_nil, hsame .pause (by simp) hd']
    | resume => rw [if_neg (by simp), List.append_nil, hsame .resume (by simp) hd']
    | stop =>
      unfold decoderAction at haction
      split at haction
      · split at haction <;> cases haction
      split at haction
      · split at haction <;> cases haction
      · split at haction <;> cases haction
    | seek =>
      unfold decoderAction at haction
      split at haction
      · split at haction <;> cases haction
      split at haction
      · split at haction <;> cases haction
      · split at haction <;> cases haction

end

/-- PCM that is decoded and not accepted yet. -/
def Mp3Decoder.left (d : Mp3Decoder) : List (Option Byte) :=
  match d.mem with
  | none => []
  | some mem => mem.outputBuffer.contents

/-- What was accepted and what is left make up what was decoded. -/
def HandedOver (accepted left : List (Option Byte)) (decoded : List Byte) : Prop :=
  accepted ++ left = decoded.map some

section
variable {accepted left : List (Option Byte)} {decoded : List Byte}

/-- Accepting a part keeps the order. -/
theorem HandedOver.accept (h : HandedOver accepted left decoded) (n : Nat) :
    HandedOver (accepted ++ left.take n) (left.drop n) decoded := by
  unfold HandedOver at *
  rw [List.append_assoc, List.take_append_drop]
  exact h

/-- A frame is decoded when everything before it is out. -/
theorem HandedOver.decode (h : HandedOver accepted [] decoded) (pcm : List Byte) :
    HandedOver accepted (pcm.map some) (decoded ++ pcm) := by
  unfold HandedOver at *
  rw [List.append_nil] at h
  rw [h, List.map_append]

end

/-- The decoder has memory with a well-formed buffer, and has lost and repeated nothing. -/
structure Mp3Decoder.Running (d : Mp3Decoder) (left : List (Option Byte)) : Prop where
  mem    : ∃ mem, d.mem = some mem ∧ mem.outputBuffer.Valid ∧ mem.outputBuffer.contents = left
  handed : HandedOver d.accepted left d.decoded

section
variable {d : Mp3Decoder} {mem : Mp3DecoderMemory} {left : List (Option Byte)}

/-- The handler keeps what was not accepted, and says whether that is nothing. -/
theorem mp3DecoderOutputHandler_spec (accepts : Takes) (hvalid : mem.outputBuffer.Valid)
    (hover : HandedOver d.accepted mem.outputBuffer.contents d.decoded) :
    ∃ out d' left, mp3DecoderOutputHandler accepts d mem = some (out, d') ∧ d'.Running left ∧
      (out = true → left = []) := by
  have hlen := hvalid.length_contents
  unfold mp3DecoderOutputHandler
  dsimp only
  split
  case isTrue hempty =>
    refine ⟨true, _, _, rfl, ⟨⟨mem, rfl, hvalid, rfl⟩, hover⟩, fun _ => ?_⟩
    exact List.eq_nil_of_length_eq_zero (by omega)
  case isFalse hcount =>
    obtain ⟨h0, hle⟩ := accepts.2 (directBufferGetCount mem.outputBuffer) (by omega)
    rw [hvalid.memread, Option.bind_eq_bind, Option.bind_some]
    generalize accepts.val (directBufferGetCount mem.outputBuffer) = n at h0 hle ⊢
    obtain ⟨hpop, hcontents⟩ := directBufferPopOnly_spec hvalid h0 hle
    have hrest := hover.accept n.toNat
    have hlen' := hpop.length_contents
    rw [hcontents] at hlen'
    split
    case isTrue hmore =>
      exact ⟨false, _, _, rfl, ⟨⟨_, rfl, hpop, hcontents⟩, hrest⟩, by intro h; cases h⟩
    case isFalse hnone =>
      have hnil : mem.outputBuffer.contents.drop n.toNat = [] := List.eq_nil_of_length_eq_zero (by omega)
      obtain ⟨hclear, hempty, -⟩ := directBufferClear_spec hpop
      rw [hnil] at hrest
      exact ⟨true, _, [], rfl, ⟨⟨_, rfl, hclear, hempty⟩, hrest⟩, fun _ => rfl⟩

/-- The loops push the frame's bytes: each sample with its lower byte first, a sample of each channel in turn. -/
theorem mp3DecoderPushFrame_eq (b : DirectBuffer) (pcm : MadPcm) :
    mp3DecoderPushFrame b pcm = directBufferPushAll b pcm.bytes := by
  refine foldlM_pushAll (fun b i => ?_) _ b
  refine foldlM_pushAll (fun b j => ?_) _ b
  rw [le16_ofInt]
  simp [directBufferPushAll]

theorem MadPcm.length_bytes (pcm : MadPcm) : pcm.bytes.length = pcm.length * pcm.channels * 2 := by
  simp [MadPcm.bytes, le16, List.length_flatMap]
  ring

/-- A frame goes into an empty buffer as a whole. -/
theorem mp3DecoderOutput_spec (hvalid : mem.outputBuffer.Valid) (hempty : mem.outputBuffer.contents = [])
    (hover : HandedOver d.accepted [] d.decoded) (pcm : MadPcm) :
    ∃ d' mem', mp3DecoderOutput d mem pcm = some (d', mem') ∧ mem'.outputBuffer.Valid ∧
      HandedOver d'.accepted mem'.outputBuffer.contents d'.decoded ∧ d'.decoded = d.decoded ++ pcm.bytes := by
  obtain ⟨b, hresize, hclear, hsize⟩ := directBufferResize_spec hvalid hempty
    (Int.natCast_nonneg (pcm.length * pcm.channels * 2))
  have hlen := pcm.length_bytes
  obtain ⟨b', hpush, hb', hcontents⟩ := directBufferPushAll_spec hclear pcm.bytes (by
    dsimp only [directBufferClear]
    omega)
  have hout : mp3DecoderOutput d mem pcm = some ({ d with decoded := d.decoded ++ pcm.bytes }, { mem with
      decoderInfo := { mem.decoderInfo with
        sampleRate := if pcm.halved then pcm.samplerate.tdiv 2 else pcm.samplerate
        bitRate := pcm.bitrate, channels := pcm.channels }
      outputBuffer := b' }) := by
    simp only [mp3DecoderOutput, hresize, mp3DecoderPushFrame_eq, hpush, Option.bind_eq_bind, Option.bind_some]
  refine ⟨_, _, hout, hb', ?_, rfl⟩
  have hnil : (directBufferClear b).contents = [] := by simp [directBufferClear, DirectBuffer.contents]
  dsimp only
  rw [hcontents, hnil, List.nil_append]
  exact hover.decode pcm.bytes

/-- What the handler says of the error changes nothing that is handed over. -/
theorem mp3DecoderErrorHandler_eq (d : Mp3Decoder) (mem : Mp3DecoderMemory) :
    ∃ errors, mp3DecoderErrorHandler d mem = { d with errors } := by
  unfold mp3DecoderErrorHandler
  split
  · exact ⟨_, rfl⟩
  · exact ⟨d.errors, rfl⟩

/-- Reading input leaves the output alone. -/
theorem mp3DecoderInput_eq (env : Mp3Env) (d : Mp3Decoder) (mem : Mp3DecoderMemory) :
    ∃ outputDone next, mp3DecoderInput env d mem = ({ d with outputDone }, next) ∧
      ∀ mem', next = some mem' → mem'.outputBuffer = mem.outputBuffer := by
  unfold mp3DecoderInput
  split
  · split
    · exact ⟨true, none, rfl, by intro _ h; cases h⟩
    · split
      · exact ⟨d.outputDone, _, rfl, by rintro _ ⟨⟩; rfl⟩
      · exact ⟨d.outputDone, none, rfl, by intro _ h; cases h⟩
  · exact ⟨d.outputDone, _, rfl, by rintro _ ⟨⟩; rfl⟩

theorem mp3DecoderBadFrame_output (mem : Mp3DecoderMemory) (error : Nat) :
    (mp3DecoderBadFrame mem error).1.outputBuffer = mem.outputBuffer := by
  unfold mp3DecoderBadFrame
  dsimp only
  split
  · rfl
  · split
    · rfl
    · split <;> rfl

theorem mp3DecoderTag_output (env : Mp3Env) (mem : Mp3DecoderMemory) :
    (mp3DecoderTag env mem).outputBuffer = mem.outputBuffer := by
  unfold mp3DecoderTag
  split <;> rfl

/-- With the buffer empty, a frame is decoded and what the callback does not take of it stays. -/
theorem mp3DecoderDecode_spec (env : Mp3Env) (hvalid : mem.outputBuffer.Valid)
    (hempty : mem.outputBuffer.contents = []) (hover : HandedOver d.accepted [] d.decoded) :
    ∃ d' state left', mp3DecoderDecode env d mem = some (d', state) ∧ d'.Running left' ∧
      (state = mp3DecoderStaPause ∨ state = comFsmHoldState) := by
  unfold mp3DecoderDecode
  cases env.decode with
  | error error =>
    have hsame := mp3DecoderBadFrame_output mem error
    refine ⟨{ d with mem := some (mp3DecoderBadFrame mem error).1 }, _, [], rfl,
      ⟨⟨_, rfl, by rwa [hsame], by rwa [hsame]⟩, hover⟩, ?_⟩
    cases (mp3DecoderBadFrame mem error).2
    · exact .inr rfl
    · exact .inl rfl
  | ok pcm =>
    obtain ⟨d₁, mem₁, houtput, hvalid₁, hover₁, -⟩ :=
      @mp3DecoderOutput_spec d { mem with decoderError := 0 } hvalid hempty hover pcm
    obtain ⟨out, d₂, left₂, hhandler, hrun, -⟩ := mp3DecoderOutputHandler_spec env.acceptsAgain hvalid₁ hover₁
    simp only [houtput, hhandler, Option.bind_eq_bind, Option.bind_some]
    refine ⟨_, _, left₂, rfl, hrun, ?_⟩
    cases out
    · exact .inl rfl
    · exact .inr rfl

/-- **A poll** is defined and hands over what it decodes. -/
theorem mp3DecoderRunPoll_spec (env : Mp3Env) (h : d.Running left) :
    ∃ d' state left', mp3DecoderRunPoll env d = some (d', state) ∧ d'.Running left' ∧
      (state = mp3DecoderStaPause ∨ state = comFsmHoldState) := by
  obtain ⟨⟨mem, hmem, hvalid, rfl⟩, hover⟩ := h
  obtain ⟨errors, herrors⟩ := mp3DecoderErrorHandler_eq d mem
  obtain ⟨out, d₁, left₁, hhandler, hrun₁, hout⟩ :=
    mp3DecoderOutputHandler_spec (d := { d with errors }) env.accepts hvalid hover
  unfold mp3DecoderRunPoll
  rw [hmem]
  simp only [Option.bind_eq_bind, Option.bind_some]
  rw [herrors, hhandler, Option.bind_some]
  cases out with
  | false => exact ⟨d₁, _, left₁, rfl, hrun₁, .inl rfl⟩
  | true =>
    obtain rfl := hout rfl
    obtain ⟨⟨mem₁, hmem₁, hvalid₁, hempty₁⟩, hover₁⟩ := hrun₁
    obtain ⟨outputDone, next, hinput, hnext⟩ := mp3DecoderInput_eq env d₁ mem₁
    simp only [hmem₁, hinput, Option.bind_some, Bool.true_eq_false, if_false]
    cases next with
    | none => exact ⟨_, _, [], rfl, ⟨⟨mem₁, rfl, hvalid₁, hempty₁⟩, hover₁⟩, .inl rfl⟩
    | some mem₂ =>
      have hsame : (mp3DecoderTag env mem₂).outputBuffer = mem₁.outputBuffer :=
        (mp3DecoderTag_output env mem₂).trans (hnext mem₂ rfl)
      exact mp3DecoderDecode_spec env (hsame ▸ hvalid₁) (hsame ▸ hempty₁) hover₁

/-! ### What is decoded -/

/-- The handler is done exactly if the callback takes all that is left, and leaves the input and the record alone. -/
theorem mp3DecoderOutputHandler_out {accepts : Takes} {out : Bool} {d' : Mp3Decoder} (hvalid : mem.outputBuffer.Valid)
    (h : mp3DecoderOutputHandler accepts d mem = some (out, d')) :
    (out = true ↔ accepts.val (directBufferGetCount mem.outputBuffer) = directBufferGetCount mem.outputBuffer) ∧
      d'.decoded = d.decoded ∧ d'.inputDone = d.inputDone ∧
      ∃ mem', d'.mem = some mem' ∧ mem'.streamBuffer = mem.streamBuffer ∧ mem'.streamError = mem.streamError := by
  have hlen := hvalid.length_contents
  obtain ⟨h0, hle⟩ := accepts.2 (directBufferGetCount mem.outputBuffer) (by omega)
  unfold mp3DecoderOutputHandler at h
  dsimp only at h
  split at h
  case isTrue hempty =>
    cases h
    exact ⟨iff_of_true rfl (by omega), rfl, rfl, mem, rfl, rfl, rfl⟩
  case isFalse hcount =>
    rw [hvalid.memread, Option.bind_eq_bind, Option.bind_some] at h
    obtain ⟨hpop, hcontents⟩ := directBufferPopOnly_spec hvalid h0 hle
    have hrest := hpop.length_contents
    rw [hcontents, List.length_drop] at hrest
    generalize accepts.val (directBufferGetCount mem.outputBuffer) = n at h0 hle h hrest
    split at h
    case isTrue hmore =>
      cases h
      exact ⟨iff_of_false Bool.false_ne_true (by omega), rfl, rfl, _, rfl, rfl, rfl⟩
    case isFalse hnone =>
      cases h
      exact ⟨iff_of_true rfl (by omega), rfl, rfl, _, rfl, rfl, rfl⟩

/-- The input is there exactly if the stream has something to decode or is given it. -/
theorem mp3DecoderInput_next (env : Mp3Env) (d : Mp3Decoder) (mem : Mp3DecoderMemory) :
    (mp3DecoderInput env d mem).1.decoded = d.decoded ∧ ((mp3DecoderInput env d mem).2.isSome =
      (mem.streamBuffer && mem.streamError ≠ madErrorBuflen || !d.inputDone && 0 < env.inputSize)) := by
  unfold mp3DecoderInput
  by_cases hstream : mem.streamBuffer = false ∨ mem.streamError = madErrorBuflen
  · rw [if_pos hstream]
    have hnone : (mem.streamBuffer && decide (mem.streamError ≠ madErrorBuflen)) = false := by
      rcases hstream with hbuffer | herror
      · rw [hbuffer, Bool.false_and]
      · rw [herror, decide_eq_false (by simp), Bool.and_false]
    rw [hnone, Bool.false_or]
    split
    · rename_i hdone
      rw [hdone]
      exact ⟨rfl, rfl⟩
    · rename_i hdone
      rw [Bool.eq_false_of_not_eq_true hdone, Bool.not_false, Bool.true_and]
      split
      · rename_i hsize
        exact ⟨rfl, (decide_eq_true hsize).symm⟩
      · rename_i hsize
        exact ⟨rfl, (decide_eq_false hsize).symm⟩
  · rw [if_neg hstream]
    obtain ⟨hbuffer, herror⟩ := not_or.1 hstream
    rw [Bool.eq_true_of_not_eq_false hbuffer, decide_eq_true herror]
    exact ⟨rfl, rfl⟩

/-- What libmad answers goes into the record, and its frame as a whole into the output. -/
theorem mp3DecoderDecode_decoded {env : Mp3Env} {d' : Mp3Decoder} {state : Word}
    (h : mp3DecoderDecode env d mem = some (d', state)) (hvalid : mem.outputBuffer.Valid)
    (hempty : mem.outputBuffer.contents = []) (hover : HandedOver d.accepted [] d.decoded) :
    d'.decoded = d.decoded ++ env.pcm := by
  unfold mp3DecoderDecode at h
  unfold Mp3Env.pcm
  cases hdecode : env.decode with
  | error error =>
    rw [hdecode] at h
    cases h
    exact (List.append_nil _).symm
  | ok pcm =>
    rw [hdecode] at h
    obtain ⟨d₁, mem₁, houtput, hvalid₁, -, hgiven⟩ :=
      @mp3DecoderOutput_spec d { mem with decoderError := 0 } hvalid hempty hover pcm
    simp only [houtput, Option.bind_eq_bind, Option.bind_some] at h
    obtain ⟨⟨out, d₂⟩, hhandler, hres⟩ := Option.bind_eq_some_iff.1 h
    cases hres
    rw [(mp3DecoderOutputHandler_out hvalid₁ hhandler).2.1, hgiven]

theorem Mp3Decoder.asks_of_mem (env : Mp3Env) (hmem : d.mem = some mem) : d.asks env =
    (decide (env.accepts.val (directBufferGetCount mem.outputBuffer) = directBufferGetCount mem.outputBuffer) &&
      (mem.streamBuffer && mem.streamError ≠ madErrorBuflen || !d.inputDone && 0 < env.inputSize)) := by
  unfold Mp3Decoder.asks
  rw [hmem]

/-- **A poll** records what libmad gives in it. -/
theorem mp3DecoderRunPoll_decoded {env : Mp3Env} {d' : Mp3Decoder} {state : Word} (h : d.Running left)
    (hpoll : mp3DecoderRunPoll env d = some (d', state)) : d'.decoded = d.decoded ++ d.frame env := by
  obtain ⟨⟨mem, hmem, hvalid, rfl⟩, hover⟩ := h
  obtain ⟨errors, herrors⟩ := mp3DecoderErrorHandler_eq d mem
  obtain ⟨out, d₁, left₁, hhandler, hrun₁, hout⟩ :=
    mp3DecoderOutputHandler_spec (d := { d with errors }) env.accepts hvalid hover
  obtain ⟨hiff, hdecoded, hdone, mem₁, hmem₁, hbuffer, herror⟩ := mp3DecoderOutputHandler_out hvalid hhandler
  unfold mp3DecoderRunPoll at hpoll
  rw [hmem] at hpoll
  simp only [Option.bind_eq_bind, Option.bind_some] at hpoll
  rw [herrors, hhandler, Option.bind_some] at hpoll
  have hasks := Mp3Decoder.asks_of_mem env hmem
  unfold Mp3Decoder.frame
  cases out with
  | false =>
    cases hpoll
    rw [decide_eq_false (fun hall => Bool.false_ne_true (hiff.2 hall)), Bool.false_and] at hasks
    rw [hasks, if_neg Bool.false_ne_true, List.append_nil]
    exact hdecoded
  | true =>
    obtain rfl := hout rfl
    obtain ⟨⟨mem₁', hmem₁', hvalid₁, hempty₁⟩, hover₁⟩ := hrun₁
    obtain rfl := Option.some.inj (hmem₁.symm.trans hmem₁')
    obtain ⟨outputDone, next, hinput, hnext⟩ := mp3DecoderInput_eq env d₁ mem₁
    have hasked := (mp3DecoderInput_next env d₁ mem₁).2
    rw [hinput, hbuffer, herror, hdone] at hasked
    rw [decide_eq_true (hiff.1 rfl), Bool.true_and, ← hasked] at hasks
    rw [hasks]
    simp only [hmem₁, hinput, Option.bind_some, Bool.true_eq_false, if_false] at hpoll
    cases next with
    | none =>
      cases hpoll
      exact hdecoded.trans (List.append_nil _).symm
    | some mem₂ =>
      have hsame : (mp3DecoderTag env mem₂).outputBuffer = mem₁.outputBuffer :=
        (mp3DecoderTag_output env mem₂).trans (hnext mem₂ rfl)
      have hgiven := mp3DecoderDecode_decoded hpoll (hsame ▸ hvalid₁) (hsame ▸ hempty₁) hover₁
      dsimp only at hgiven
      rw [hgiven, hdecoded]
      rfl

/-- What holds of the decoder in IDLE and beyond. -/
def Mp3Decoder.Keeps : Bool → Option Mp3Decoder → Prop
  | false, o => ∃ d, o = some d ∧ d.mem = none ∧ HandedOver d.accepted [] d.decoded
  | true, o => ∃ d left, o = some d ∧ d.Running left

/-- Whether it runs or not, what was accepted and what is left is what was decoded. -/
theorem Mp3Decoder.Keeps.handed {running : Bool} {o : Option Mp3Decoder} (h : Mp3Decoder.Keeps running o) :
    ∃ d, o = some d ∧ HandedOver d.accepted d.left d.decoded := by
  cases running with
  | false =>
    obtain ⟨d, rfl, hmem, hover⟩ := h
    refine ⟨d, rfl, ?_⟩
    rw [Mp3Decoder.left, hmem]
    exact hover
  | true =>
    obtain ⟨d, left, rfl, ⟨mem, hmem, -, rfl⟩, hover⟩ := h
    refine ⟨d, rfl, ?_⟩
    rw [Mp3Decoder.left, hmem]
    exact hover

theorem Mp3Decoder.Keeps.step {s t : DecoderSys Mp3Decoder} {given : List Byte} (hstep : Mp3DecoderStep s given t)
    (h : s.curState ∈ decoderStates ∧ Mp3Decoder.Keeps (s.curState != mp3DecoderStaIdle) s.dec) :
    t.curState ∈ decoderStates ∧ Mp3Decoder.Keeps (t.curState != mp3DecoderStaIdle) t.dec := by
  obtain ⟨hs, hkeeps⟩ := h
  cases hstep with
  | flags =>
    refine ⟨hs, ?_⟩
    dsimp only
    generalize (s.curState != mp3DecoderStaIdle) = running at hkeeps
    cases running with
    | false =>
      obtain ⟨d, hd, hmem, hover⟩ := hkeeps
      rw [hd]
      exact ⟨_, rfl, hmem, hover⟩
    | true =>
      obtain ⟨d, left, hd, hrun⟩ := hkeeps
      rw [hd]
      exact ⟨_, left, rfl, hrun.mem, hrun.handed⟩
  | @turn start pause resume env =>
    refine DecoderSys.turn_preserves mp3DecoderLookup_selects hs hkeeps ?_ ?_ ?_ ?_
    · rintro o ⟨d, rfl, hmem, hover⟩
      obtain ⟨hvalid, hempty⟩ := @directBufferCreate_spec 512 (by decide)
      exact ⟨rfl, _, [], rfl, ⟨⟨{}, rfl, hvalid, hempty⟩, hover⟩⟩
    · rintro o ⟨d, left, rfl, hrun⟩
      exact ⟨rfl, d, left, rfl, hrun⟩
    · rintro o ⟨d, left, rfl, hrun⟩
      exact ⟨rfl, d, left, rfl, hrun⟩
    · rintro - ⟨d, left, hd, hrun⟩
      obtain ⟨d', state, left', hpoll, hrun', hstate⟩ := mp3DecoderRunPoll_spec env hrun
      have hres : mp3DecoderRun env .runPoll s.dec = (some d', state) := by
        simp only [hd, mp3DecoderRun, hpoll]
      rw [hres]
      exact ⟨hstate, d', left', rfl, hrun'⟩

/-- A step records what libmad gives in it. -/
theorem Mp3Decoder.Keeps.gives {s t : DecoderSys Mp3Decoder} {given : List Byte} {d d' : Mp3Decoder}
    (hstep : Mp3DecoderStep s given t)
    (h : s.curState ∈ decoderStates ∧ Mp3Decoder.Keeps (s.curState != mp3DecoderStaIdle) s.dec)
    (hd : s.dec = some d) (hd' : t.dec = some d') : d'.decoded = d.decoded ++ given := by
  obtain ⟨hs, hkeeps⟩ := h
  cases hstep with
  | flags =>
    rw [hd] at hd'
    cases hd'
    exact (List.append_nil _).symm
  | @turn start pause resume env =>
    refine DecoderSys.turn_gives (r := Mp3Decoder.decoded) mp3DecoderLookup_selects hs hd ?_ ?_ hd'
    · intro a ha
      simp only [List.mem_cons, List.not_mem_nil, or_false] at ha
      rcases ha with rfl | rfl | rfl <;> rfl
    · intro hstate d'' hpoll
      rw [bne_iff_ne.2 (by rw [hstate]; decide)] at hkeeps
      obtain ⟨d₁, left, hd₁, hrun⟩ := hkeeps
      obtain rfl := Option.some.inj (hd.symm.trans hd₁)
      unfold mp3DecoderRun at hpoll
      dsimp only at hpoll
      cases hres : mp3DecoderRunPoll env d with
      | none =>
        rw [hres] at hpoll
        cases hpoll
      | some res =>
        rw [hres] at hpoll
        cases hpoll
        exact mp3DecoderRunPoll_decoded hrun hres

end

end AudioPlayer

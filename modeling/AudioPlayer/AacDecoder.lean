import Mathlib
import AudioPlayer.Mp3Decoder

/-!
# The aac decoder (`src/aac_decoder.c`), and what both decoders hand over

The same task as the mp3 decoder's, with another buffer: each frame gets a block of its own, which shrinks
to its front as it is accepted and is freed when it is empty. What faad2 and mp4ff answer in a poll is an
`AacEnv`.

| here | there |
|---|---|
| `NeAACDecFrameInfo`       | the fields that are read of the struct of that name, with the samples (`faad2/neaacdec.h:173`) |
| `aacDecoderOutputHandler` | `aac_decoder_output_handler` (`aac_decoder.c:185-205`) |
| `aacDecoderRunPoll`       | `aac_decoder_run_poll` (`:285-383`) |
| `aacDecoderLookup`        | the table of `aac_decoder_init` (`:387-397`) |

A poll of an m4a file behind its last sample reads a frame info that nothing has filled in; it has no value. A step is
labelled with the PCM that faad2 gives in it.
-/

namespace AudioPlayer
open Lib

structure NeAACDecFrameInfo where
  error         : Int
  samples       : List (BitVec 16)
  bytesconsumed : Int
  /-- A frame of faad2 is far below this. -/
  small         : 2 * samples.length < 2147483648

/-- No sample came out. -/
def noSamples (consumed : Int) : NeAACDecFrameInfo := ⟨0, [], consumed, by decide⟩

/-- What the calls of one poll answer. -/
structure AacEnv where
  accepts      : Takes
  acceptsAgain : Takes
  inputSize    : Int
  /-- `aac_decoder_init_handler`, when it succeeds: the info and the number of samples. -/
  init         : Option (AudioDecoderInfo × Int)
  /-- Opening an m4a file reads 0 bytes somewhere, of an empty tag or an empty descriptor. -/
  emptyRead    : Bool := false
  frame        : NeAACDecFrameInfo

/-- `aac_decoder_memory_t` -/
structure AacDecoderMemory where
  decoderInfo  : AudioDecoderInfo := {}
  numSamples   : Int := 0
  sampleId     : Int := 0
  inputRemain  : Int := 0
  outputBuffer : Option (List (Option Byte)) := none
  outputSize   : Int := 0
  outputTotal  : Int := 0
  decoderError : Int := 0

/-- `aac_decoder_t`, and the records. -/
structure AacDecoder where
  isM4a       : Bool
  inputDone   : Bool := false
  outputDone  : Bool := false
  initialized : Bool := false
  mem         : Option AacDecoderMemory := none
  errors      : List Int := []
  accepted    : List (Option Byte) := []
  decoded     : List Byte := []

/-- The frame as 16-bit samples, lower bytes first. -/
def NeAACDecFrameInfo.bytes (frame : NeAACDecFrameInfo) : List Byte := frame.samples.flatMap le16

/-- The loop that fills the block (`aac_decoder.c:369-372`); the samples are unsigned there. -/
def aacDecoderFill (samples : List (BitVec 16)) : List (Option Byte) :=
  samples.flatMap fun (s : BitVec 16) => [some ⟨s.setWidth 8⟩, some ⟨(s >>> 8).setWidth 8⟩]

/-- `aac_decoder_output_handler` (`aac_decoder.c:185-205`): is everything out? -/
def aacDecoderOutputHandler (accepts : Takes) (d : AacDecoder) (mem : AacDecoderMemory) :
    Option (Bool × AacDecoder) :=
  match mem.outputBuffer with
  | none => some (true, { d with mem })
  | some buffer => do
    let offered ← memread? buffer 0 mem.outputSize
    let size := accepts.val mem.outputSize
    let d := { d with accepted := d.accepted ++ offered.take size.toNat }
    let outputTotal := toI32 (mem.outputTotal + size)
    if size < mem.outputSize then do
      let outputSize := mem.outputSize - size
      let outputBuffer ← memcpy? buffer 0 (buffer.drop size.toNat) outputSize
      some (false, { d with mem := some { mem with outputBuffer, outputSize, outputTotal } })
    else some (true, { d with mem := some { mem with outputBuffer := none, outputSize := 0, outputTotal } })

def aacDecoderMaxErrCount : Int := 20

/-- `aac_decoder_error_handler` (`aac_decoder.c:207-218`). -/
def aacDecoderErrorHandler (d : AacDecoder) (mem : AacDecoderMemory) : AacDecoder :=
  if mem.decoderError ≥ aacDecoderMaxErrCount ∨ d.outputDone = true ∧ mem.outputTotal ≤ 0 then
    { d with errors := d.errors ++ [mem.decoderError] }
  else d

/-- Input and initialisation (`aac_decoder.c:299-324`): the decoder and the memory to go on with, or the
state the poll ends in. -/
def aacDecoderInput (env : AacEnv) (d : AacDecoder) (mem : AacDecoderMemory) :
    AacDecoder × AacDecoderMemory × Option Word :=
  if d.inputDone then ({ d with outputDone := true }, mem, some mp3DecoderStaPause)
  else if d.isM4a = false ∧ env.inputSize ≤ 0 then (d, mem, some mp3DecoderStaPause)
  else
    let mem := if d.isM4a then mem else { mem with inputRemain := mem.inputRemain + env.inputSize }
    if d.initialized then (d, mem, none)
    else
      match env.init with
      | none => (d, { mem with decoderError := aacDecoderMaxErrCount }, some comFsmHoldState)
      | some (decoderInfo, numSamples) =>
        ({ d with initialized := true }, { mem with decoderInfo, numSamples }, none)

/-- Decoding (`aac_decoder.c:326-358`): none where the frame info is not filled in. -/
def aacDecoderDecode (env : AacEnv) (d : AacDecoder) (mem : AacDecoderMemory) : Option AacDecoderMemory :=
  if d.isM4a then
    if mem.sampleId ≥ mem.numSamples then none else some { mem with sampleId := mem.sampleId + 1 }
  else some { mem with inputRemain := mem.inputRemain - env.frame.bytesconsumed }

/-- The frame goes into a block (`aac_decoder.c:360-382`). -/
def aacDecoderOutput (env : AacEnv) (d : AacDecoder) (mem : AacDecoderMemory) : Option (AacDecoder × Word) :=
  if env.frame.error ≠ 0 then
    let mem := { mem with inputRemain := 0, decoderError := aacDecoderMaxErrCount }
    some ({ d with mem := some mem }, comFsmHoldState)
  else if env.frame.samples.length > 0 then do
    let d := { d with decoded := d.decoded ++ env.frame.bytes }
    let mem := { mem with
      outputSize := (env.frame.samples.length * 2 : Nat)
      outputBuffer := some (aacDecoderFill env.frame.samples)
      decoderError := 0 }
    let (out, d) ← aacDecoderOutputHandler env.acceptsAgain d mem
    some (d, if out = false then mp3DecoderStaPause else comFsmHoldState)
  else some ({ d with mem := some mem }, comFsmHoldState)

/-- `aac_decoder_run_poll` (`aac_decoder.c:285-383`). -/
def aacDecoderRunPoll (env : AacEnv) (d : AacDecoder) : Option (AacDecoder × Word) := do
  let mem ← d.mem
  let (out, d) ← aacDecoderOutputHandler env.accepts (aacDecoderErrorHandler d mem) mem
  if out = false then some (d, mp3DecoderStaPause)
  else do
    let mem ← d.mem
    match aacDecoderInput env d mem with
    | (d, mem, some state) => some ({ d with mem := some mem }, state)
    | (d, mem, none) => do
      let mem ← aacDecoderDecode env d mem
      aacDecoderOutput env d mem

/-- `aac_decoder_seek_handler` (`aac_decoder.c:220-237`) to the sample `sampleId`. -/
def aacDecoderSeekHandler (sampleId : Int) (d : AacDecoder) : AacDecoder :=
  { d with mem := d.mem.map fun mem => { mem with
      outputBuffer := none, outputSize := 0
      sampleId := if d.isM4a = true ∧ mem.numSamples > 0 then sampleId else mem.sampleId } }

/-- The actions (`aac_decoder.c:239-383`); allocations succeed. -/
def aacDecoderRun (env : AacEnv) (seekTo : Int) (a : Mp3DecoderAction) : Option AacDecoder → Option AacDecoder × Word
  | none => (none, comFsmHoldState)
  | some d =>
    match a with
    | .start => (some { d with mem := some {}, initialized := false }, mp3DecoderStaRun)
    | .stop => (some { d with mem := none }, mp3DecoderStaIdle)
    | .pause => (some d, mp3DecoderStaPause)
    | .resume => (some d, mp3DecoderStaRun)
    | .seek => (some (aacDecoderSeekHandler seekTo d), comFsmHoldState)
    | .runPoll =>
      match aacDecoderRunPoll env d with
      | none => (none, comFsmHoldState)
      | some (d, state) => (some d, state)

/-- `lookup` of `aac_decoder_init` (`aac_decoder.c:387-397`); states, events and actions are numbered and named
as those of the mp3 decoder. -/
def aacDecoderLookup : List (ComFsmLookup Mp3DecoderAction) := [
  { event := mp3DecoderEventStart,  state := mp3DecoderStaIdle,  action := .start },
  { event := mp3DecoderEventStop,   state := mp3DecoderStaRun,   action := .stop },
  { event := mp3DecoderEventStop,   state := mp3DecoderStaPause, action := .stop },
  { event := mp3DecoderEventPause,  state := mp3DecoderStaRun,   action := .pause },
  { event := mp3DecoderEventResume, state := mp3DecoderStaPause, action := .resume },
  { event := mp3DecoderEventSeek,   state := mp3DecoderStaRun,   action := .seek },
  { event := mp3DecoderEventSeek,   state := mp3DecoderStaPause, action := .seek },
  { event := comFsmEventNone,       state := mp3DecoderStaRun,   action := .runPoll } ]

theorem aacDecoderLookup_selects : SelectsDecoder aacDecoderLookup := by
  intro s hs start pause resume
  simp only [decoderStates, List.mem_cons, List.not_mem_nil, or_false] at hs
  rcases hs with rfl | rfl | rfl <;> cases start <;> cases pause <;> cases resume <;> rfl

/-- The next poll would ask for a sample behind the last one of an m4a file. -/
def AacDecoder.pastLast (env : AacEnv) (d : AacDecoder) : Bool :=
  d.isM4a && match d.mem with
    | none => false
    | some mem =>
      if d.initialized then decide (mem.sampleId ≥ mem.numSamples)
      else match env.init with
        | none => false
        | some (_, numSamples) => decide (mem.sampleId ≥ numSamples)

/-- A poll comes to `NeAACDecDecode`: the callback takes all that is left, the input goes on, and the decoder is
initialized or comes to be. -/
def AacDecoder.asks (env : AacEnv) (d : AacDecoder) : Bool :=
  match d.mem with
  | none => false
  | some mem =>
    (mem.outputBuffer = none || env.accepts.val mem.outputSize = mem.outputSize) &&
      (!d.inputDone && (d.isM4a || 0 < env.inputSize) && (d.initialized || env.init.isSome))

/-- The PCM of the frame faad2 answers with. -/
def AacEnv.pcm (env : AacEnv) : List Byte := if env.frame.error = 0 then env.frame.bytes else []

def AacDecoder.frame (env : AacEnv) (d : AacDecoder) : List Byte := if d.asks env then env.pcm else []

/-- A turn on any set without a seek and a stop, up to the last sample of an m4a file; `aac_decoder_start` and
`aac_decoder_set_input_done` set their flags. -/
inductive AacDecoderStep : DecoderSys AacDecoder → List Byte → DecoderSys AacDecoder → Prop
  | turn {s : DecoderSys AacDecoder} {start pause resume : Bool} {env : AacEnv} {seekTo : Int}
    (hlast : ∀ d, s.dec = some d → decoderAction s.curState start pause resume = some .runPoll →
      d.pastLast env = false) :
    AacDecoderStep s (s.gives (AacDecoder.frame env) start pause resume)
      (s.turn (aacDecoderRun env seekTo) aacDecoderLookup (decoderEvents start pause resume))
  | flags {s : DecoderSys AacDecoder} {inputDone outputDone : Bool} :
    AacDecoderStep s [] { s with dec := s.dec.map fun d => { d with inputDone, outputDone } }

/-- PCM that is decoded and not accepted yet. -/
def AacDecoder.left (d : AacDecoder) : List (Option Byte) :=
  match d.mem with
  | none => []
  | some mem => (mem.outputBuffer.getD []).take mem.outputSize.toNat

/-! ## What is handed over -/

/-- The decoder has memory whose block holds what is left, and has lost and repeated nothing. -/
structure AacDecoder.Running (d : AacDecoder) (left : List (Option Byte)) : Prop where
  mem    : ∃ mem, d.mem = some mem ∧ 0 ≤ mem.outputSize ∧
    mem.outputSize ≤ (mem.outputBuffer.getD []).length ∧
    (mem.outputBuffer.getD []).take mem.outputSize.toNat = left
  handed : HandedOver d.accepted left d.decoded

section
variable {d : AacDecoder} {mem : AacDecoderMemory} {left : List (Option Byte)}

theorem aacDecoderFill_eq (samples : List (BitVec 16)) :
    aacDecoderFill samples = (samples.flatMap le16).map some := by
  have hshift : ∀ s : BitVec 16, (s >>> 8).setWidth 8 = (s.sshiftRight 8).setWidth 8 := by
    intro s
    apply BitVec.eq_of_getElem_eq
    intro i hi
    simp only [BitVec.getElem_setWidth, BitVec.getLsbD_ushiftRight, BitVec.getLsbD_sshiftRight]
    have h1 : 8 + i < 16 := by omega
    simp [h1, show ¬ 16 ≤ i by omega]
  rw [List.map_flatMap]
  unfold aacDecoderFill
  congr 1
  funext s
  rw [hshift s]
  rfl

theorem length_aacDecoderFill (samples : List (BitVec 16)) :
    (aacDecoderFill samples).length = samples.length * 2 := by
  simp [aacDecoderFill, List.length_flatMap]

/-- The handler keeps what was not accepted, and says whether that is nothing. -/
theorem aacDecoderOutputHandler_spec (accepts : Takes) (h0 : 0 ≤ mem.outputSize)
    (hsize : mem.outputSize ≤ (mem.outputBuffer.getD []).length)
    (hover : HandedOver d.accepted ((mem.outputBuffer.getD []).take mem.outputSize.toNat) d.decoded) :
    ∃ out d' left, aacDecoderOutputHandler accepts d mem = some (out, d') ∧ d'.Running left ∧
      d'.isM4a = d.isM4a ∧ d'.initialized = d.initialized ∧ (out = true → left = []) ∧
      ∃ mem', d'.mem = some mem' ∧ mem'.sampleId = mem.sampleId ∧ mem'.numSamples = mem.numSamples := by
  unfold aacDecoderOutputHandler
  cases hbuffer : mem.outputBuffer with
  | none =>
    rw [hbuffer] at hsize hover
    refine ⟨true, { d with mem := some mem }, [], rfl, ⟨⟨mem, rfl, h0, ?_, ?_⟩, ?_⟩, rfl, rfl, fun _ => rfl,
      mem, rfl, rfl, rfl⟩
    · rwa [hbuffer]
    · rw [hbuffer]; simp
    · simpa using hover
  | some buffer =>
    rw [hbuffer] at hsize hover
    rw [Option.getD_some] at hsize hover
    obtain ⟨size, hnat⟩ : ∃ size : Nat, mem.outputSize = size := ⟨mem.outputSize.toNat, by omega⟩
    obtain ⟨htake0, htake⟩ := accepts.2 mem.outputSize h0
    dsimp only
    generalize accepts.val mem.outputSize = n at htake0 htake ⊢
    lift n to Nat using htake0
    rw [hnat] at hsize hover htake ⊢
    have hread : memread? buffer (0 : Nat) size = _ := memread?_eq (by omega)
    rw [Int.toNat_natCast] at hover
    have hrest := hover.accept n
    rw [show (0 : Int) = ((0 : Nat) : Int) from rfl, hread, List.drop_zero, Option.bind_eq_bind, Option.bind_some,
      Int.toNat_natCast]
    split
    case isTrue hmore =>
      have hmove : memcpy? buffer (0 : Nat) (buffer.drop n) (size - n : Nat) = _ :=
        memcpy?_eq (by omega) (by rw [List.length_drop]; omega)
      rw [show (size : Int) - n = (size - n : Nat) by omega, hmove, Option.bind_some]
      refine ⟨false, _, (buffer.take size).drop n, rfl, ⟨⟨_, rfl, by dsimp only; omega, ?_, ?_⟩, hrest⟩, rfl, rfl,
        (by intro h; cases h), _, rfl, rfl, rfl⟩
      · simp only [Option.getD_some, List.length_append, List.length_take, List.length_drop]
        omega
      · simp only [Option.getD_some, Int.toNat_natCast, List.take_zero, List.nil_append]
        rw [List.take_append_of_le_length (by simp; omega), List.take_take, Nat.min_self, List.drop_take]
    case isFalse hall =>
      have hnil : (buffer.take size).drop n = [] := List.drop_eq_nil_of_le (by simp; omega)
      rw [hnil] at hrest
      exact ⟨true, _, [], rfl, ⟨⟨_, rfl, Int.le_refl 0, Int.le_refl 0, rfl⟩, hrest⟩, rfl, rfl, fun _ => rfl,
        _, rfl, rfl, rfl⟩

/-- What the handler says of the error changes nothing that is handed over. -/
theorem aacDecoderErrorHandler_eq (d : AacDecoder) (mem : AacDecoderMemory) :
    ∃ errors, aacDecoderErrorHandler d mem = { d with errors } := by
  unfold aacDecoderErrorHandler
  split
  · exact ⟨_, rfl⟩
  · exact ⟨d.errors, rfl⟩

/-- An m4a file has a sample to decode, once it is known how many it has. -/
def AacDecoder.HasSample (env : AacEnv) (d : AacDecoder) (mem : AacDecoderMemory) : Prop :=
  d.isM4a = true →
    if d.initialized then mem.sampleId < mem.numSamples
    else ∀ info n, env.init = some (info, n) → mem.sampleId < n

theorem AacDecoder.hasSample_of_pastLast {env : AacEnv} (hmem : d.mem = some mem) (h : d.pastLast env = false) :
    d.HasSample env mem := by
  intro hm4a
  unfold AacDecoder.pastLast at h
  rw [hm4a, hmem, Bool.true_and] at h
  dsimp only at h
  split at h
  · rw [if_pos ‹_›]
    have := of_decide_eq_false h
    omega
  · rw [if_neg ‹_›]
    intro info n hinit
    rw [hinit] at h
    have := of_decide_eq_false h
    omega

/-- Input and initialisation leave the output alone, and go on only with a sample to decode. -/
theorem aacDecoderInput_spec (env : AacEnv) (hsample : d.HasSample env mem) :
    ∃ outputDone initialized mem' next,
      aacDecoderInput env d mem = ({ d with outputDone, initialized }, mem', next) ∧
      mem'.outputBuffer = mem.outputBuffer ∧ mem'.outputSize = mem.outputSize ∧
      (∀ state, next = some state → state = mp3DecoderStaPause ∨ state = comFsmHoldState) ∧
      (next = none → d.isM4a = true → mem'.sampleId < mem'.numSamples) := by
  have hid : ∀ m : AacDecoderMemory,
      (if d.isM4a = true then m else { m with inputRemain := m.inputRemain + env.inputSize }).sampleId = m.sampleId ∧
      (if d.isM4a = true then m else { m with inputRemain := m.inputRemain + env.inputSize }).numSamples =
        m.numSamples ∧
      (if d.isM4a = true then m else { m with inputRemain := m.inputRemain + env.inputSize }).outputBuffer =
        m.outputBuffer ∧
      (if d.isM4a = true then m else { m with inputRemain := m.inputRemain + env.inputSize }).outputSize =
        m.outputSize := by
    intro m
    split <;> exact ⟨rfl, rfl, rfl, rfl⟩
  obtain ⟨h1, h2, h3, h4⟩ := hid mem
  unfold aacDecoderInput
  split
  · exact ⟨true, d.initialized, mem, _, rfl, rfl, rfl, by rintro _ ⟨⟩; exact .inl rfl, by intro h; cases h⟩
  · split
    · exact ⟨d.outputDone, d.initialized, mem, _, rfl, rfl, rfl, by rintro _ ⟨⟩; exact .inl rfl,
        by intro h; cases h⟩
    · dsimp only
      split
      case isTrue hinit =>
        refine ⟨d.outputDone, d.initialized, _, none, rfl, h3, h4, (by intro _ h; cases h), fun _ hm4a => ?_⟩
        have := hsample hm4a
        rw [if_pos hinit] at this
        rw [h1, h2]
        exact this
      case isFalse hinit =>
        cases hcase : env.init with
        | none =>
          exact ⟨d.outputDone, d.initialized, _, _, rfl, h3, h4, by rintro _ ⟨⟩; exact .inr rfl,
            by intro h; cases h⟩
        | some info =>
          refine ⟨d.outputDone, true, _, none, rfl, h3, h4, (by intro _ h; cases h), fun _ hm4a => ?_⟩
          have := hsample hm4a
          rw [if_neg hinit] at this
          dsimp only
          rw [h1]
          exact this _ _ hcase

/-- A frame is put into a block, and what the callback does not take of it stays. -/
theorem aacDecoderOutput_spec (env : AacEnv) (h0 : 0 ≤ mem.outputSize)
    (hsize : mem.outputSize ≤ (mem.outputBuffer.getD []).length)
    (hempty : (mem.outputBuffer.getD []).take mem.outputSize.toNat = [])
    (hover : HandedOver d.accepted [] d.decoded) :
    ∃ d' state left', aacDecoderOutput env d mem = some (d', state) ∧ d'.Running left' ∧
      (state = mp3DecoderStaPause ∨ state = comFsmHoldState) := by
  unfold aacDecoderOutput
  split
  · exact ⟨_, _, [], rfl, ⟨⟨_, rfl, h0, hsize, hempty⟩, hover⟩, .inr rfl⟩
  · split
    · have hfill := length_aacDecoderFill env.frame.samples
      have hpcm := hover.decode env.frame.bytes
      obtain ⟨out, d₁, left₁, hhandler, hrun, -⟩ := @aacDecoderOutputHandler_spec
        { d with decoded := d.decoded ++ env.frame.bytes }
        { mem with
          outputSize := (env.frame.samples.length * 2 : Nat)
          outputBuffer := some (aacDecoderFill env.frame.samples), decoderError := 0 }
        env.acceptsAgain (Int.natCast_nonneg _)
        (by simp only [Option.getD_some]; omega)
        (by
          simp only [Option.getD_some, Int.toNat_natCast]
          rw [List.take_of_length_le (by omega), aacDecoderFill_eq]
          exact hpcm)
      simp only [hhandler, Option.bind_eq_bind, Option.bind_some]
      refine ⟨_, _, left₁, rfl, hrun, ?_⟩
      cases out
      · exact .inl rfl
      · exact .inr rfl
    · exact ⟨_, _, [], rfl, ⟨⟨mem, rfl, h0, hsize, hempty⟩, hover⟩, .inr rfl⟩

/-- **A poll** up to the last sample is defined and hands over what it decodes. -/
theorem aacDecoderRunPoll_spec (env : AacEnv) (h : d.Running left) (hlast : d.pastLast env = false) :
    ∃ d' state left', aacDecoderRunPoll env d = some (d', state) ∧ d'.Running left' ∧
      (state = mp3DecoderStaPause ∨ state = comFsmHoldState) := by
  obtain ⟨⟨mem, hmem, h0, hsize, rfl⟩, hover⟩ := h
  have hsample := AacDecoder.hasSample_of_pastLast hmem hlast
  obtain ⟨errors, herrors⟩ := aacDecoderErrorHandler_eq d mem
  obtain ⟨out, d₁, left₁, hhandler, hrun₁, hm4a₁, hinit₁, hout, mem₁, hmem₁, hid, hnum⟩ :=
    aacDecoderOutputHandler_spec (d := { d with errors }) env.accepts h0 hsize hover
  unfold aacDecoderRunPoll
  rw [hmem]
  simp only [Option.bind_eq_bind, Option.bind_some]
  rw [herrors, hhandler, Option.bind_some]
  cases out with
  | false => exact ⟨d₁, _, left₁, rfl, hrun₁, .inl rfl⟩
  | true =>
    obtain rfl := hout rfl
    obtain ⟨⟨mem₁', hmem₁', h0₁, hsize₁, hempty₁⟩, hover₁⟩ := hrun₁
    obtain rfl := Option.some.inj (hmem₁.symm.trans hmem₁')
    have hsample₁ : d₁.HasSample env mem₁ := by
      unfold AacDecoder.HasSample at hsample ⊢
      rw [hm4a₁, hinit₁, hid, hnum]
      exact hsample
    obtain ⟨outputDone, initialized, mem₂, next, hinput, hbuffer, hlen, hstate, hmore⟩ :=
      aacDecoderInput_spec env hsample₁
    rw [← hbuffer, ← hlen] at hsize₁ hempty₁
    rw [← hlen] at h0₁
    simp only [hmem₁, Option.bind_some, Bool.true_eq_false, if_false]
    rw [hinput]
    cases next with
    | some state => exact ⟨_, state, [], rfl, ⟨⟨mem₂, rfl, h0₁, hsize₁, hempty₁⟩, hover₁⟩, hstate state rfl⟩
    | none =>
      -- a frame is decoded; the output of the memory stays as it is
      have hdecode : ∃ mem₃, aacDecoderDecode env { d₁ with outputDone, initialized } mem₂ = some mem₃ ∧
          mem₃.outputBuffer = mem₂.outputBuffer ∧ mem₃.outputSize = mem₂.outputSize := by
        unfold aacDecoderDecode
        dsimp only
        split
        · rw [if_neg (by have := hmore rfl ‹_›; omega)]
          exact ⟨_, rfl, rfl, rfl⟩
        · exact ⟨_, rfl, rfl, rfl⟩
      obtain ⟨mem₃, hdecode, hbuffer₃, hlen₃⟩ := hdecode
      rw [← hbuffer₃, ← hlen₃] at hsize₁ hempty₁
      rw [← hlen₃] at h0₁
      dsimp only
      rw [hdecode, Option.bind_some]
      exact aacDecoderOutput_spec env h0₁ hsize₁ hempty₁ hover₁

/-! ### What is decoded -/

/-- The handler is done exactly if nothing is left or the callback takes it all, and leaves the rest alone. -/
theorem aacDecoderOutputHandler_out {accepts : Takes} {out : Bool} {d' : AacDecoder} (h0 : 0 ≤ mem.outputSize)
    (h : aacDecoderOutputHandler accepts d mem = some (out, d')) :
    (out = true ↔ mem.outputBuffer = none ∨ accepts.val mem.outputSize = mem.outputSize) ∧
      d'.decoded = d.decoded ∧ d'.inputDone = d.inputDone ∧ d'.isM4a = d.isM4a ∧ d'.initialized = d.initialized := by
  obtain ⟨-, hle⟩ := accepts.2 mem.outputSize h0
  unfold aacDecoderOutputHandler at h
  cases hbuffer : mem.outputBuffer with
  | none =>
    rw [hbuffer] at h
    cases h
    exact ⟨iff_of_true rfl (.inl rfl), rfl, rfl, rfl, rfl⟩
  | some buffer =>
    rw [hbuffer] at h
    obtain ⟨offered, -, h⟩ := Option.bind_eq_some_iff.1 h
    dsimp only at h
    split at h
    · rename_i hless
      obtain ⟨moved, -, h⟩ := Option.bind_eq_some_iff.1 h
      cases h
      exact ⟨iff_of_false Bool.false_ne_true (by simp only [reduceCtorEq, false_or]; omega), rfl, rfl, rfl, rfl⟩
    · rename_i hall
      cases h
      exact ⟨iff_of_true rfl (.inr (by omega)), rfl, rfl, rfl, rfl⟩

theorem aacDecoderInput_next (env : AacEnv) (d : AacDecoder) (mem : AacDecoderMemory) :
    (aacDecoderInput env d mem).1.decoded = d.decoded ∧ (aacDecoderInput env d mem).2.2.isNone =
      (!d.inputDone && (d.isM4a || 0 < env.inputSize) && (d.initialized || env.init.isSome)) := by
  unfold aacDecoderInput
  split
  · rename_i hdone
    rw [hdone]
    exact ⟨rfl, rfl⟩
  rename_i hdone
  rw [Bool.eq_false_of_not_eq_true hdone]
  split
  · rename_i hnone
    rw [hnone.1, decide_eq_false (by omega)]
    exact ⟨rfl, rfl⟩
  rename_i hsome
  have hgoes : (d.isM4a || decide (0 < env.inputSize)) = true := by
    cases hm4a : d.isM4a with
    | true => rfl
    | false =>
      have hpos : 0 < env.inputSize := by
        by_contra hsize
        exact hsome ⟨hm4a, by omega⟩
      rw [decide_eq_true hpos, Bool.or_true]
  rw [hgoes]
  dsimp only
  cases hinit : d.initialized with
  | true => exact ⟨rfl, rfl⟩
  | false =>
    cases env.init with
    | none => exact ⟨rfl, rfl⟩
    | some info => exact ⟨rfl, rfl⟩

theorem aacDecoderOutput_decoded {env : AacEnv} {d' : AacDecoder} {state : Word}
    (h : aacDecoderOutput env d mem = some (d', state)) : d'.decoded = d.decoded ++ env.pcm := by
  unfold aacDecoderOutput at h
  unfold AacEnv.pcm NeAACDecFrameInfo.bytes
  split at h
  · rename_i herror
    cases h
    rw [if_neg herror, List.append_nil]
  rename_i herror
  rw [if_pos (not_not.1 herror)]
  split at h
  · obtain ⟨⟨out, d₁⟩, hhandler, h⟩ := Option.bind_eq_some_iff.1 h
    cases h
    exact (aacDecoderOutputHandler_out (Int.natCast_nonneg _) hhandler).2.1
  · rename_i hnone
    cases h
    rw [List.length_eq_zero_iff.1 (by omega : env.frame.samples.length = 0)]
    exact (List.append_nil _).symm

/-- **A poll** records what faad2 gives in it. -/
theorem aacDecoderRunPoll_decoded {env : AacEnv} {d' : AacDecoder} {state : Word} (h : d.Running left)
    (hpoll : aacDecoderRunPoll env d = some (d', state)) : d'.decoded = d.decoded ++ d.frame env := by
  obtain ⟨⟨mem, hmem, h0, -, -⟩, -⟩ := h
  obtain ⟨errors, herrors⟩ := aacDecoderErrorHandler_eq d mem
  unfold aacDecoderRunPoll at hpoll
  rw [hmem] at hpoll
  simp only [Option.bind_eq_bind, Option.bind_some] at hpoll
  rw [herrors] at hpoll
  obtain ⟨⟨out, d₁⟩, hhandler, hpoll⟩ := Option.bind_eq_some_iff.1 hpoll
  obtain ⟨hiff, hdecoded, hdone, hm4a, hinit⟩ := aacDecoderOutputHandler_out h0 hhandler
  have hasks : d.asks env = ((mem.outputBuffer = none || env.accepts.val mem.outputSize = mem.outputSize) &&
      (!d.inputDone && (d.isM4a || 0 < env.inputSize) && (d.initialized || env.init.isSome)) : Bool) := by
    unfold AacDecoder.asks
    rw [hmem]
  rw [← Bool.decide_or] at hasks
  unfold AacDecoder.frame
  dsimp only at hpoll
  cases out with
  | false =>
    cases hpoll
    rw [decide_eq_false (fun hall => Bool.false_ne_true (hiff.2 hall)), Bool.false_and] at hasks
    rw [hasks, if_neg Bool.false_ne_true, List.append_nil]
    exact hdecoded
  | true =>
    rw [decide_eq_true (hiff.1 rfl), Bool.true_and] at hasks
    rw [if_neg (by simp)] at hpoll
    obtain ⟨mem₁, -, hpoll⟩ := Option.bind_eq_some_iff.1 hpoll
    obtain ⟨hkept, hnext⟩ := aacDecoderInput_next env d₁ mem₁
    rw [hdone, hm4a, hinit, ← hasks] at hnext
    generalize aacDecoderInput env d₁ mem₁ = res at hkept hnext hpoll
    obtain ⟨d₂, mem₂, next⟩ := res
    dsimp only at hkept hnext hpoll
    cases next with
    | some state' =>
      cases hpoll
      rw [← hnext]
      exact (hkept.trans hdecoded).trans (List.append_nil _).symm
    | none =>
      obtain ⟨mem₃, -, hpoll⟩ := Option.bind_eq_some_iff.1 hpoll
      rw [aacDecoderOutput_decoded hpoll, hkept, hdecoded, ← hnext]
      rfl

/-- What holds of the decoder in IDLE and beyond. -/
def AacDecoder.Keeps : Bool → Option AacDecoder → Prop
  | false, o => ∃ d, o = some d ∧ d.mem = none ∧ HandedOver d.accepted [] d.decoded
  | true, o => ∃ d left, o = some d ∧ d.Running left

theorem AacDecoder.Keeps.handed {running : Bool} {o : Option AacDecoder} (h : AacDecoder.Keeps running o) :
    ∃ d, o = some d ∧ HandedOver d.accepted d.left d.decoded := by
  cases running with
  | false =>
    obtain ⟨d, rfl, hmem, hover⟩ := h
    refine ⟨d, rfl, ?_⟩
    rw [AacDecoder.left, hmem]
    exact hover
  | true =>
    obtain ⟨d, left, rfl, ⟨mem, hmem, -, -, rfl⟩, hover⟩ := h
    refine ⟨d, rfl, ?_⟩
    rw [AacDecoder.left, hmem]
    exact hover

theorem AacDecoder.Keeps.step {s t : DecoderSys AacDecoder} {given : List Byte} (hstep : AacDecoderStep s given t)
    (h : s.curState ∈ decoderStates ∧ AacDecoder.Keeps (s.curState != mp3DecoderStaIdle) s.dec) :
    t.curState ∈ decoderStates ∧ AacDecoder.Keeps (t.curState != mp3DecoderStaIdle) t.dec := by
  obtain ⟨hs, hkeeps⟩ := h
  cases hstep with
  | flags =>
    refine ⟨hs, ?_⟩
    dsimp only
    generalize (s.curState != mp3DecoderStaIdle) = running at hkeeps
    cases running with
    | false =>
      obtain ⟨d, hd, hmem, hover⟩ := hkeeps
      rw [hd]
      exact ⟨_, rfl, hmem, hover⟩
    | true =>
      obtain ⟨d, left, hd, hrun⟩ := hkeeps
      rw [hd]
      exact ⟨_, left, rfl, hrun.mem, hrun.handed⟩
  | @turn start pause resume env seekTo hlast =>
    refine DecoderSys.turn_preserves aacDecoderLookup_selects hs hkeeps ?_ ?_ ?_ ?_
    · rintro o ⟨d, rfl, hmem, hover⟩
      exact ⟨rfl, _, [], rfl, ⟨⟨{}, rfl, Int.le_refl 0, Int.le_refl 0, rfl⟩, hover⟩⟩
    · rintro o ⟨d, left, rfl, hrun⟩
      exact ⟨rfl, d, left, rfl, hrun⟩
    · rintro o ⟨d, left, rfl, hrun⟩
      exact ⟨rfl, d, left, rfl, hrun⟩
    · rintro hact ⟨d, left, hd, hrun⟩
      obtain ⟨d', state, left', hpoll, hrun', hstate⟩ := aacDecoderRunPoll_spec env hrun (hlast d hd hact)
      have hres : aacDecoderRun env seekTo .runPoll s.dec = (some d', state) := by
        simp only [hd, aacDecoderRun, hpoll]
      rw [hres]
      exact ⟨hstate, d', left', rfl, hrun'⟩

/-- A step records what faad2 gives in it. -/
theorem AacDecoder.Keeps.gives {s t : DecoderSys AacDecoder} {given : List Byte} {d d' : AacDecoder}
    (hstep : AacDecoderStep s given t)
    (h : s.curState ∈ decoderStates ∧ AacDecoder.Keeps (s.curState != mp3DecoderStaIdle) s.dec)
    (hd : s.dec = some d) (hd' : t.dec = some d') : d'.decoded = d.decoded ++ given := by
  obtain ⟨hs, hkeeps⟩ := h
  cases hstep with
  | flags =>
    rw [hd] at hd'
    cases hd'
    exact (List.append_nil _).symm
  | @turn start pause resume env seekTo hlast =>
    refine DecoderSys.turn_gives (r := AacDecoder.decoded) aacDecoderLookup_selects hs hd ?_ ?_ hd'
    · intro a ha
      simp only [List.mem_cons, List.not_mem_nil, or_false] at ha
      rcases ha with rfl | rfl | rfl <;> rfl
    · intro hstate d'' hpoll
      rw [bne_iff_ne.2 (by rw [hstate]; decide)] at hkeeps
      obtain ⟨d₁, left, hd₁, hrun⟩ := hkeeps
      obtain rfl := Option.some.inj (hd.symm.trans hd₁)
      unfold aacDecoderRun at hpoll
      dsimp only at hpoll
      cases hres : aacDecoderRunPoll env d with
      | none =>
        rw [hres] at hpoll
        cases hpoll
      | some res =>
        rw [hres] at hpoll
        cases hpoll
        exact aacDecoderRunPoll_decoded hrun hres

end

end AudioPlayer

import Mathlib
import AudioPlayer.DecoderCallbacks

/-!
# The end of an m4a track (`src/aac_decoder.c:285-383`)

Behind the last sample a poll only tells the player that the input is done; then it looks at `frame_info` all the
same, which is on the stack and was not written in this poll. What is there is `stack`: a frame info and what its
samples read through `sample_buffer`, or nothing that can be read. A sample without bytes leads there too: faad2
leaves `frame_info` as it is when its buffer is NULL.

| here | there |
|---|---|
| `M4aBuffer`        | `buffer` behind `mp4ff_read_sample` (`faad2/mp4ff.c:419-447`) |
| `m4aDecode`        | `:326-347`, with the input callback of a size of 0 behind the last sample |
| `m4aRunPoll`       | `aac_decoder_run_poll` of an m4a file, with the player's callbacks |
| `M4aAct.Plays`     | the file of `N` samples is read, none of them is empty, and sample `i` decodes to `frames i` |
| `M4aAct.StackClear`| behind the last sample `frame_info` says that there is no error and no sample |

A sample for which the decoder reports an error ends the track: the error callback sets `input_done`.
-/

namespace AudioPlayer
open Lib

/-- What `buffer` points to when `mp4ff_read_sample` is back. -/
inductive M4aBuffer
  /-- The sample. -/
  | bytes
  /-- Nothing: the read has failed, or the sample is empty and there was NULL on the stack. -/
  | null
  /-- The sample is empty, and something else was on the stack. -/
  | stray
deriving DecidableEq, Repr

/-- Decoding, and the frame info that is looked at afterwards. -/
def m4aDecode (env : AacEnv) (stack : Option NeAACDecFrameInfo) (buffer : M4aBuffer) (readLen : Int) (t : AacSource)
    (mem : AacDecoderMemory) : Option (AacSource × AacDecoderMemory × NeAACDecFrameInfo) :=
  if mem.sampleId ≥ mem.numSamples then
    stack.map fun frame =>
      ({ t with dec := { t.dec with inputDone := true }, setDone := t.setDone + 1 }, mem, frame)
  else do
    let (t, mem) ← aacPlayerDecode env readLen t mem
    match buffer with
    | .bytes => some (t, mem, env.frame)
    -- `NeAACDecDecode` returns NULL at once (`faad2/decoder.c:849-852`), and samples would be read through that
    | .null => do
      let frame ← stack
      if frame.error = 0 ∧ 0 < frame.samples.length then none else some (t, mem, frame)
    -- it is decoded and freed all the same (`:338-343`)
    | .stray => none

/-- What the poll does when all the PCM is taken (`:298-382`). -/
def m4aRunPollStep1 (env : AacEnv) (stack : Option NeAACDecFrameInfo) (buffer : M4aBuffer) (readLen : Int)
    (t : AacSource) (mem : AacDecoderMemory) : Option (AacSource × Word) :=
  match aacPlayerInput env readLen t mem with
  | (t, mem, some state) => some ({ t with dec := { t.dec with mem := some mem } }, state)
  | (t, mem, none) => do
    let (t, mem, frame) ← m4aDecode env stack buffer readLen t mem
    let (dec, state) ← aacDecoderOutput { env with frame } t.dec mem
    some ({ t with dec }, state)

def m4aRunPoll (env : AacEnv) (stack : Option NeAACDecFrameInfo) (buffer : M4aBuffer) (readLen : Int)
    (t : AacSource) : Option (AacSource × Word) := do
  let mem ← t.dec.mem
  let t := aacPlayerErrorHandler t mem
  let (out, dec) ← aacDecoderOutputHandler env.accepts t.dec mem
  if out = false then some ({ t with dec }, mp3DecoderStaPause)
  else do
    let mem ← dec.mem
    m4aRunPollStep1 env stack buffer readLen { t with dec } mem

def m4aRun (env : AacEnv) (stack : Option NeAACDecFrameInfo) (buffer : M4aBuffer) (readLen : Int)
    (a : Mp3DecoderAction) (o : Option AacSource) : Option AacSource × Word :=
  match a, o with
  | .runPoll, some t =>
    match m4aRunPoll env stack buffer readLen t with
    | none => (none, comFsmHoldState)
    | some (t, state) => (some t, state)
  | a, o => aacPlayerRun env readLen 0 a o

/-- What the calls of a turn answer, what is on the stack, and the events it takes. -/
inductive M4aAct
  | turn (env : AacEnv) (stack : Option NeAACDecFrameInfo) (buffer : M4aBuffer) (readLen : Int)
    (start pause resume : Bool)

/-- A turn on any set without a seek and a stop. -/
inductive M4aStep : DecoderSys AacSource → M4aAct → DecoderSys AacSource → Prop
  | turn {s : DecoderSys AacSource} {env : AacEnv} {stack : Option NeAACDecFrameInfo} {buffer : M4aBuffer}
    {readLen : Int} {start pause resume : Bool} :
    M4aStep s (.turn env stack buffer readLen start pause resume)
      (s.turn (m4aRun env stack buffer readLen) aacDecoderLookup (decoderEvents start pause resume))

/-- The file of `N` samples is read without failure and can be opened, and nothing in its head is empty. -/
structure M4aReads (N : Nat) (env : AacEnv) (readLen : Int) : Prop where
  read : 0 ≤ readLen
  full : env.emptyRead = false
  init : ∃ info, env.init = some (info, (N : Int))

/-- In a poll: the file is read and opened, the sample is not empty, and it decodes to its frame. -/
def M4aAct.Plays (frames : Nat → NeAACDecFrameInfo) (N : Nat) (s : DecoderSys AacSource) : M4aAct → Prop
  | .turn env _ buffer readLen start pause resume =>
    decoderAction s.curState start pause resume = some .runPoll →
      ∀ t mem, s.dec = some t → t.dec.mem = some mem →
        M4aReads N env readLen ∧ ∀ k : Nat, mem.sampleId = k → k < N → buffer = .bytes ∧ env.frame = frames k

/-- In a poll that comes to `frame_info` without a sample left, there is nothing in it. -/
def M4aAct.StackClear (N : Nat) (s : DecoderSys AacSource) : M4aAct → Prop
  | .turn env stack _ _ start pause resume =>
    decoderAction s.curState start pause resume = some .runPoll →
      ∀ t mem, s.dec = some t → t.dec.mem = some mem →
        aacDecoderComplains t.dec mem = false → t.dec.inputDone = false → mem.AllOut env.accepts →
          (N : Int) ≤ mem.sampleId → ∃ frame, stack = some frame ∧ frame.error = 0 ∧ frame.samples = []

/-- The PCM of one sample; there is none where the decoder reports an error. -/
def NeAACDecFrameInfo.pcm (frame : NeAACDecFrameInfo) : List Byte := if frame.error = 0 then frame.bytes else []

/-- The PCM of the samples before the `k`-th. -/
def m4aPcm (frames : Nat → NeAACDecFrameInfo) (k : Nat) : List Byte := (List.range k).flatMap fun i => (frames i).pcm

/-- The track plays up to its `k`-th sample: that is where it ends, or the first for which an error is reported. -/
structure M4aEnd (frames : Nat → NeAACDecFrameInfo) (N k : Nat) : Prop where
  le    : k ≤ N
  fine  : ∀ i < k, (frames i).error = 0
  error : k < N → (frames k).error ≠ 0

/-- What was handed over is what the samples decode to, each once and in order, and all of it in the end. -/
structure M4aHandsOver (frames : Nat → NeAACDecFrameInfo) (N : Nat) (d : AacDecoder) : Prop where
  played : ∃ k ≤ N, (∀ i < k, (frames i).error = 0) ∧ HandedOver d.accepted d.left (m4aPcm frames k)
  done   : d.outputDone = true → ∃ k, M4aEnd frames N k ∧ d.accepted = (m4aPcm frames k).map some
  quiet  : d.outputDone = false → d.errors = []

/-- A track that has decoded its samples before the `k`-th. -/
structure M4aPlaying (frames : Nat → NeAACDecFrameInfo) (N k : Nat) (d : AacDecoder) (mem : AacDecoderMemory) :
    Prop where
  m4a     : d.isM4a = true
  memory  : d.mem = some mem
  le      : k ≤ N
  fine    : ∀ i < k, (frames i).error = 0
  input   : d.inputDone = false
  output  : d.outputDone = false
  errors  : d.errors = []
  error   : mem.decoderError = 0
  id      : mem.sampleId = k
  num     : d.initialized = true → mem.numSamples = N
  decoded : d.decoded = m4aPcm frames k

/-- Where a running track is. -/
inductive M4aPhase (frames : Nat → NeAACDecFrameInfo) (N : Nat) (d : AacDecoder) (mem : AacDecoderMemory) : Prop
  | playing {k : Nat} (h : M4aPlaying frames N k d mem)
  /-- The decoder has reported an error, which the next poll tells the player. -/
  | failed {k : Nat} (hend : M4aEnd frames N k) (hk : k < N) (hout : d.outputDone = false) (herrors : d.errors = [])
    (herror : mem.decoderError = aacDecoderMaxErrCount) (hbuf : mem.outputBuffer = none)
    (hdecoded : d.decoded = m4aPcm frames k)
  /-- The player has been told that the input is done. -/
  | ended (hend : M4aEnd frames N N) (hin : d.inputDone = true) (hout : d.outputDone = false)
    (herrors : d.errors = []) (herror : mem.decoderError = 0)
    (hbuf : mem.outputBuffer = none) (hdecoded : d.decoded = m4aPcm frames N)
  | done {k : Nat} (hend : M4aEnd frames N k) (hin : d.inputDone = true) (hout : d.outputDone = true)
    (hbuf : mem.outputBuffer = none) (hdecoded : d.decoded = m4aPcm frames k)

/-- A decoder that plays the track. -/
structure M4aRuns (frames : Nat → NeAACDecFrameInfo) (N : Nat) (d : AacDecoder) : Prop where
  m4a   : d.isM4a = true
  phase : ∃ mem left, d.mem = some mem ∧ d.Running left ∧ M4aPhase frames N d mem

section
variable {frames : Nat → NeAACDecFrameInfo} {N k : Nat} {d d' : AacDecoder} {mem : AacDecoderMemory} {t : AacSource}
  {env : AacEnv} {stack : Option NeAACDecFrameInfo} {buffer : M4aBuffer} {readLen : Int} {left : List (Option Byte)}

theorem m4aPcm_succ : m4aPcm frames (k + 1) = m4aPcm frames k ++ (frames k).pcm := by
  unfold m4aPcm
  rw [List.range_succ, List.flatMap_append]
  simp

theorem AacDecoder.Running.left_eq (h : d.Running left) : d.left = left := by
  obtain ⟨mem, hmem, -, -, hleft⟩ := h.mem
  unfold AacDecoder.left
  rw [hmem]
  exact hleft

theorem AacDecoder.Running.drained (h : d.Running left) (hmem : d.mem = some mem) (hbuf : mem.outputBuffer = none) :
    left = [] := by
  obtain ⟨mem', hmem', -, -, hleft⟩ := h.mem
  obtain rfl := Option.some.inj (hmem.symm.trans hmem')
  rw [← hleft, hbuf]
  exact List.take_nil

theorem M4aRuns.handsOver (h : M4aRuns frames N d) : M4aHandsOver frames N d := by
  obtain ⟨-, mem, left, hmem, hrun, hphase⟩ := h
  have hleft := hrun.left_eq
  have hover := hrun.handed
  rw [← hleft] at hover
  cases hphase with
  | playing h =>
    rw [h.decoded] at hover
    exact ⟨⟨_, h.le, h.fine, hover⟩, fun hd => absurd (h.output.symm.trans hd) Bool.false_ne_true, fun _ => h.errors⟩
  | failed hend hk hout herrors herror hbuf hdecoded =>
    rw [hdecoded] at hover
    exact ⟨⟨_, hend.le, hend.fine, hover⟩, fun hd => absurd (hout.symm.trans hd) Bool.false_ne_true, fun _ => herrors⟩
  | ended hend hin hout herrors herror hbuf hdecoded =>
    rw [hdecoded] at hover
    exact ⟨⟨_, hend.le, hend.fine, hover⟩, fun hd => absurd (hout.symm.trans hd) Bool.false_ne_true, fun _ => herrors⟩
  | done hend hin hout hbuf hdecoded =>
    rw [hdecoded] at hover
    refine ⟨⟨_, hend.le, hend.fine, hover⟩, fun _ => ⟨_, hend, ?_⟩,
      fun hd => absurd (hd.symm.trans hout) Bool.false_ne_true⟩
    have hall := hover
    rw [hleft, hrun.drained hmem hbuf] at hall
    unfold HandedOver at hall
    rwa [List.append_nil] at hall

theorem aacDecoderOutputHandler_gone {accepts : Takes} (h : aacDecoderOutputHandler accepts d mem = some (true, d')) :
    ∃ mem', d'.mem = some mem' ∧ mem'.outputBuffer = none := by
  unfold aacDecoderOutputHandler at h
  split at h
  · rename_i hnone
    cases h
    exact ⟨mem, rfl, hnone⟩
  · obtain ⟨offered, -, h⟩ := Option.bind_eq_some_iff.1 h
    dsimp only at h
    split at h
    · obtain ⟨outputBuffer, -, h⟩ := Option.bind_eq_some_iff.1 h
      cases h
    · cases h
      exact ⟨_, rfl, rfl⟩

theorem aacDecoderOutputHandler_none {accepts : Takes} (hbuf : mem.outputBuffer = none) :
    aacDecoderOutputHandler accepts d mem = some (true, { d with mem := some mem }) := by
  unfold aacDecoderOutputHandler
  rw [hbuf]

/-- With a frame that is in order the memory gets its PCM; with an error it gets nothing. -/
theorem aacDecoderOutput_frame {state : Word} (h : aacDecoderOutput env d mem = some (d', state)) :
    ∃ accepted outputBuffer outputSize outputTotal inputRemain decoderError,
      d' = { d with
        accepted, decoded := d.decoded ++ env.frame.pcm
        mem := some { mem with outputBuffer, outputSize, outputTotal, inputRemain, decoderError } } ∧
      (env.frame.error = 0 → mem.decoderError = 0 → decoderError = 0) ∧
      (env.frame.error ≠ 0 → decoderError = aacDecoderMaxErrCount) ∧
      (env.frame.error ≠ 0 ∨ env.frame.samples = [] → outputBuffer = mem.outputBuffer) := by
  unfold aacDecoderOutput at h
  unfold NeAACDecFrameInfo.pcm
  split at h
  case isTrue herror =>
    obtain ⟨rfl, -⟩ := Prod.mk.inj (Option.some.inj h)
    rw [if_neg herror, List.append_nil]
    exact ⟨_, _, _, _, _, _, rfl, fun h => absurd h herror, fun _ => rfl, fun _ => rfl⟩
  case isFalse herror =>
    rw [if_pos (not_not.1 herror)]
    split at h
    case isTrue hsamples =>
      simp only [Option.bind_eq_bind, Option.bind_eq_some_iff] at h
      obtain ⟨⟨out, d₁⟩, hhandler, h⟩ := h
      obtain ⟨rfl, -⟩ := Prod.mk.inj (Option.some.inj h)
      obtain ⟨accepted, outputBuffer, outputSize, outputTotal, rfl, -⟩ := aacDecoderOutputHandler_cases hhandler
      refine ⟨_, _, _, _, _, _, rfl, fun _ _ => rfl, fun h => absurd h herror, ?_⟩
      rintro (h | h)
      · exact absurd h herror
      · rw [h] at hsamples
        exact absurd hsamples (Nat.lt_irrefl 0)
    case isFalse hsamples =>
      obtain ⟨rfl, -⟩ := Prod.mk.inj (Option.some.inj h)
      have hnil : env.frame.samples = [] := List.eq_nil_of_length_eq_zero (by omega)
      rw [NeAACDecFrameInfo.bytes, hnil, List.flatMap_nil, List.append_nil]
      exact ⟨_, _, _, _, _, _, rfl, fun _ h => h, fun h => absurd h herror, fun _ => rfl⟩

/-- An open track that is read without failure is initialised, and goes on. -/
theorem aacPlayerInput_m4a (hm4a : t.dec.isM4a = true) (hin : t.dec.inputDone = false)
    (hreads : M4aReads N env readLen) (hnum : t.dec.initialized = true → mem.numSamples = N) : ∃ decoderInfo,
    aacPlayerInput env readLen t mem =
      ({ t with dec := { t.dec with initialized := true } }, { mem with decoderInfo, numSamples := N }, none) := by
  obtain ⟨hread, hfull, info, hinit⟩ := hreads
  obtain ⟨⟨isM4a, inputDone, outputDone, initialized, dmem, errors, accepted, decoded⟩, filePos, events, setDone,
    obtained, consumed⟩ := t
  dsimp only at hm4a hin hnum
  subst hm4a hin
  have hdone : decide (readLen < 0) = false := decide_eq_false (by omega)
  cases initialized with
  | true => exact ⟨mem.decoderInfo, by simp [aacPlayerInput, aacDecoderInput, ← hnum rfl]⟩
  | false => exact ⟨info, by simp [aacPlayerInput, aacDecoderInput, hinit, hfull, hdone]⟩

/-- A sample is decoded, and the next one is counted. -/
theorem m4aDecode_sample (hm4a : t.dec.isM4a = true) (hread : 0 ≤ readLen) (hid : mem.sampleId < mem.numSamples) :
    ∃ events, m4aDecode env stack .bytes readLen t mem =
      some ({ t with events }, { mem with sampleId := mem.sampleId + 1 }, env.frame) := by
  have hdone : decide (readLen < 0) = false := decide_eq_false (by omega)
  unfold m4aDecode aacPlayerDecode aacDecoderDecode
  rw [if_neg (by omega), if_pos hm4a, if_neg (by omega)]
  simp only [Option.bind_eq_bind, Option.bind_some, if_pos hm4a, hdone, Bool.or_false, Bool.false_eq_true, if_false]
  exact ⟨_, rfl⟩

theorem m4aDecode_ended {frame : NeAACDecFrameInfo} (hid : mem.numSamples ≤ mem.sampleId)
    (hstack : stack = some frame) :
    m4aDecode env stack buffer readLen t mem =
      some ({ t with dec := { t.dec with inputDone := true }, setDone := t.setDone + 1 }, mem, frame) := by
  unfold m4aDecode
  rw [if_pos hid, hstack, Option.map_some]

theorem m4aRunPoll_done (hmem : t.dec.mem = some mem) (hbuf : mem.outputBuffer = none)
    (hdone : (aacPlayerErrorHandler t mem).dec.inputDone = true) : ∃ t',
    m4aRunPoll env stack buffer readLen t = some (t', mp3DecoderStaPause) ∧
      t'.dec = { (aacPlayerErrorHandler t mem).dec with outputDone := true, mem := some mem } := by
  unfold m4aRunPoll
  rw [hmem]
  simp only [Option.bind_eq_bind, Option.bind_some]
  rw [aacDecoderOutputHandler_none hbuf]
  simp only [Option.bind_some, Bool.true_eq_false, if_false]
  unfold m4aRunPollStep1 aacPlayerInput aacDecoderInput
  dsimp only
  rw [if_pos hdone, if_pos hdone]
  exact ⟨_, rfl, rfl⟩

/-- What a poll of a running track comes to. -/
structure M4aPolled (frames : Nat → NeAACDecFrameInfo) (N : Nat) (t t' : AacSource) (state : Word) : Prop where
  runs  : M4aRuns frames N t'.dec
  state : state = mp3DecoderStaPause ∨ state = comFsmHoldState
  quiet : t.dec.outputDone = false → t'.dec.errors = [] ∨ ∃ i < N, (frames i).error ≠ 0

theorem M4aRuns.poll_done (h : M4aRuns frames N t.dec) (hmem : t.dec.mem = some mem) (hbuf : mem.outputBuffer = none)
    (hend : M4aEnd frames N k) (hdecoded : t.dec.decoded = m4aPcm frames k)
    (hdone : (aacPlayerErrorHandler t mem).dec.inputDone = true)
    (hquiet : t.dec.outputDone = false →
      (aacPlayerErrorHandler t mem).dec.errors = [] ∨ ∃ i < N, (frames i).error ≠ 0) :
    ∃ t' state, m4aRunPoll env stack buffer readLen t = some (t', state) ∧ M4aPolled frames N t t' state := by
  obtain ⟨hm4a, mem', left, hmem', hrun, -⟩ := h
  obtain ⟨t', hpoll, hdec⟩ := m4aRunPoll_done hmem hbuf hdone
  refine ⟨t', _, hpoll, ?_, .inl rfl, ?_⟩
  · obtain ⟨errors, herrors⟩ := aacPlayerErrorHandler_eq t mem
    rw [herrors] at hdec hdone
    rw [hdec]
    obtain ⟨mem₀, hmem₀, h0, hsize, hleft⟩ := hrun.mem
    obtain rfl := Option.some.inj (hmem.symm.trans hmem₀)
    exact ⟨hm4a, mem, left, rfl, ⟨⟨mem, rfl, h0, hsize, hleft⟩, hrun.handed⟩, .done hend hdone rfl hbuf hdecoded⟩
  · rw [hdec]
    exact hquiet

/-- With nothing left of the frame before, a frame info adds its PCM, or makes the decoder fail. -/
theorem aacDecoderOutput_track (hrun : ({ d with mem := some mem } : AacDecoder).Running [])
    (hbuf : mem.outputBuffer = none) (herror : mem.decoderError = 0) :
    ∃ accepted mem' left state, aacDecoderOutput env d mem = some ({ d with
        accepted, decoded := d.decoded ++ env.frame.pcm, mem := some mem' }, state) ∧
      (state = mp3DecoderStaPause ∨ state = comFsmHoldState) ∧
      ({ d with accepted, decoded := d.decoded ++ env.frame.pcm, mem := some mem' } : AacDecoder).Running left ∧
      mem'.sampleId = mem.sampleId ∧ mem'.numSamples = mem.numSamples ∧
      (env.frame.error = 0 → mem'.decoderError = 0) ∧
      (env.frame.error ≠ 0 → mem'.decoderError = aacDecoderMaxErrCount) ∧
      (env.frame.error ≠ 0 ∨ env.frame.samples = [] → mem'.outputBuffer = none) := by
  obtain ⟨⟨mem₀, hmem₀, h0, hsize, hempty⟩, hover⟩ := hrun
  obtain rfl := Option.some.inj hmem₀
  obtain ⟨d'', state, left, houtput, hrun', hstate⟩ := aacDecoderOutput_spec (d := d) env h0 hsize hempty hover
  obtain ⟨accepted, outputBuffer, outputSize, outputTotal, inputRemain, decoderError, rfl, hfine, hbad, hsame⟩ :=
    aacDecoderOutput_frame houtput
  rw [← hbuf]
  exact ⟨accepted, _, left, state, houtput, hstate, hrun', rfl, rfl, fun h => hfine h herror, hbad, hsame⟩

theorem aacDecoderComplains_eq_false (herror : mem.decoderError = 0) (hout : d.outputDone = false) :
    aacDecoderComplains d mem = false := by
  unfold aacDecoderComplains
  rw [herror, hout]
  simp [aacDecoderMaxErrCount]

theorem aacPlayerErrorHandler_silent (h : aacDecoderComplains t.dec mem = false) :
    aacPlayerErrorHandler t mem = t := by
  unfold aacPlayerErrorHandler
  rw [h, if_neg Bool.false_ne_true]

theorem M4aPlaying.outputHandler {accepts : Takes} {out : Bool} (h : M4aPlaying frames N k d mem)
    (hhandler : aacDecoderOutputHandler accepts d mem = some (out, d')) :
    ∃ mem', M4aPlaying frames N k d' mem' ∧ (out = true → mem.AllOut accepts ∧ mem'.outputBuffer = none) := by
  obtain ⟨accepted, outputBuffer, outputSize, outputTotal, rfl, hall⟩ := aacDecoderOutputHandler_cases hhandler
  refine ⟨_, ⟨h.m4a, rfl, h.le, h.fine, h.input, h.output, h.errors, h.error, h.id, h.num, h.decoded⟩, ?_⟩
  rintro rfl
  obtain ⟨mem₁, hmem₁, hbuf⟩ := aacDecoderOutputHandler_gone hhandler
  obtain rfl := Option.some.inj hmem₁
  exact ⟨hall rfl, hbuf⟩

theorem M4aPlaying.sample (h : M4aPlaying frames N k t.dec mem) (hrun : t.dec.Running [])
    (hbuf : mem.outputBuffer = none) (hreads : M4aReads N env readLen) (hk : k < N) (hframe : env.frame = frames k) :
    ∃ t' state, m4aRunPollStep1 env stack .bytes readLen t mem = some (t', state) ∧ M4aRuns frames N t'.dec ∧
      (state = mp3DecoderStaPause ∨ state = comFsmHoldState) ∧ t'.dec.errors = [] := by
  have hid := h.id
  obtain ⟨decoderInfo, hinput⟩ := aacPlayerInput_m4a h.m4a h.input hreads h.num
  obtain ⟨events, hdecode⟩ := @m4aDecode_sample
    { mem with decoderInfo, numSamples := (N : Int) } { t with dec := { t.dec with initialized := true } }
    env stack readLen h.m4a hreads.read (by dsimp only; omega)
  obtain ⟨mem₀, hmem₀, h0, hsize, hempty⟩ := hrun.mem
  obtain rfl := Option.some.inj (h.memory.symm.trans hmem₀)
  obtain ⟨accepted, mem', left, state, houtput, hstate, hrun', hid', hnum', hgood, hbad, hnone⟩ :=
    @aacDecoderOutput_track { t.dec with initialized := true }
      { mem with decoderInfo, numSamples := (N : Int), sampleId := mem.sampleId + 1 } env
      ⟨⟨_, rfl, h0, hsize, hempty⟩, hrun.handed⟩ hbuf h.error
  unfold m4aRunPollStep1
  rw [hinput]
  dsimp only
  rw [hdecode]
  simp only [Option.bind_eq_bind, Option.bind_some]
  dsimp only at houtput
  rw [houtput, Option.bind_some]
  rw [hframe] at hgood hbad hnone hrun' ⊢
  refine ⟨_, state, rfl, ⟨h.m4a, mem', left, rfl, hrun', ?_⟩, hstate, h.errors⟩
  by_cases herr : (frames k).error = 0
  · refine .playing (k := k + 1) ⟨h.m4a, rfl, hk, ?_, h.input, h.output, h.errors, hgood herr, ?_, fun _ => hnum', ?_⟩
    · intro i hi
      rcases Nat.lt_succ_iff_lt_or_eq.1 hi with hi | rfl
      · exact h.fine i hi
      · exact herr
    · rw [hid']
      dsimp only
      omega
    · rw [m4aPcm_succ, ← h.decoded]
  · refine .failed (k := k) ⟨hk.le, h.fine, fun _ => herr⟩ hk h.output h.errors (hbad herr) (hnone (.inl herr)) ?_
    rw [NeAACDecFrameInfo.pcm, if_neg herr, List.append_nil]
    exact h.decoded

/-- Behind the last sample it tells the player so, and finds nothing on the stack. -/
theorem M4aPlaying.last {frame : NeAACDecFrameInfo} (h : M4aPlaying frames N N t.dec mem) (hrun : t.dec.Running [])
    (hbuf : mem.outputBuffer = none) (hreads : M4aReads N env readLen)
    (hstack : stack = some frame) (hframe : frame.error = 0) (hsamples : frame.samples = []) :
    ∃ t' state, m4aRunPollStep1 env stack buffer readLen t mem = some (t', state) ∧ M4aRuns frames N t'.dec ∧
      (state = mp3DecoderStaPause ∨ state = comFsmHoldState) ∧ t'.dec.errors = [] := by
  have hid := h.id
  obtain ⟨decoderInfo, hinput⟩ := aacPlayerInput_m4a h.m4a h.input hreads h.num
  obtain ⟨mem₀, hmem₀, h0, hsize, hempty⟩ := hrun.mem
  obtain rfl := Option.some.inj (h.memory.symm.trans hmem₀)
  obtain ⟨accepted, mem', left, state, houtput, hstate, hrun', hid', hnum', hgood, hbad, hnone⟩ :=
    @aacDecoderOutput_track { t.dec with initialized := true, inputDone := true }
      { mem with decoderInfo, numSamples := (N : Int) } { env with frame }
      ⟨⟨_, rfl, h0, hsize, hempty⟩, hrun.handed⟩ hbuf h.error
  unfold m4aRunPollStep1
  rw [hinput]
  dsimp only
  rw [m4aDecode_ended (le_of_eq hid.symm) hstack]
  simp only [Option.bind_eq_bind, Option.bind_some]
  dsimp only at houtput
  rw [houtput, Option.bind_some]
  have hpcm : frame.pcm = [] := by
    rw [NeAACDecFrameInfo.pcm, if_pos hframe, NeAACDecFrameInfo.bytes, hsamples, List.flatMap_nil]
  dsimp only at hrun' ⊢
  rw [hpcm, List.append_nil] at hrun' ⊢
  refine ⟨_, state, rfl, ⟨h.m4a, mem', left, rfl, hrun', ?_⟩, hstate, h.errors⟩
  exact .ended ⟨le_rfl, h.fine, fun hlt => absurd hlt (lt_irrefl N)⟩ rfl h.output h.errors (hgood hframe)
    (hnone (.inr hsamples)) h.decoded

/-- **A poll of a track that plays** pushes what is left, and decodes the next sample when all of it is taken. -/
theorem M4aPlaying.poll (h : M4aPlaying frames N k t.dec mem) (hrun : t.dec.Running left)
    (hreads : M4aReads N env readLen) (hframe : k < N → buffer = .bytes ∧ env.frame = frames k)
    (hclear : mem.AllOut env.accepts → N ≤ k → ∃ frame, stack = some frame ∧ frame.error = 0 ∧ frame.samples = []) :
    ∃ t' state, m4aRunPoll env stack buffer readLen t = some (t', state) ∧ M4aPolled frames N t t' state := by
  obtain ⟨mem₀, hmem₀, h0, hsize, rfl⟩ := hrun.mem
  obtain rfl := Option.some.inj (h.memory.symm.trans hmem₀)
  obtain ⟨out, d₁, left₁, hhandler, hrun₁, -, -, hleft, -⟩ :=
    aacDecoderOutputHandler_spec (d := t.dec) env.accepts h0 hsize hrun.handed
  obtain ⟨mem₁, h₁, hall⟩ := h.outputHandler hhandler
  unfold m4aRunPoll
  rw [h.memory]
  simp only [Option.bind_eq_bind, Option.bind_some]
  rw [aacPlayerErrorHandler_silent (aacDecoderComplains_eq_false h.error h.output), hhandler, Option.bind_some]
  cases out with
  | false =>
    exact ⟨_, _, rfl, ⟨h₁.m4a, mem₁, left₁, h₁.memory, hrun₁, .playing h₁⟩, .inl rfl, fun _ => .inl h₁.errors⟩
  | true =>
    obtain rfl := hleft rfl
    obtain ⟨hall, hbuf⟩ := hall rfl
    simp only [h₁.memory, Option.bind_some, Bool.true_eq_false, if_false]
    rcases Nat.lt_or_ge k N with hlt | hge
    · obtain ⟨rfl, henv⟩ := hframe hlt
      obtain ⟨t', state, hpoll, hruns, hstate, herrors⟩ := M4aPlaying.sample (t := { t with dec := d₁ }) h₁ hrun₁
        hbuf hreads hlt henv
      exact ⟨t', state, hpoll, hruns, hstate, fun _ => .inl herrors⟩
    · obtain rfl : k = N := Nat.le_antisymm h.le hge
      obtain ⟨frame, hstack, hframe0, hnone⟩ := hclear hall hge
      obtain ⟨t', state, hpoll, hruns, hstate, herrors⟩ := M4aPlaying.last (t := { t with dec := d₁ })
        h₁ hrun₁ hbuf hreads hstack hframe0 hnone
      exact ⟨t', state, hpoll, hruns, hstate, fun _ => .inl herrors⟩

/-- **A poll of a running track** is defined, and keeps it running. -/
theorem M4aRuns.poll (h : M4aRuns frames N t.dec) (hmem : t.dec.mem = some mem) (hreads : M4aReads N env readLen)
    (hframe : ∀ k : Nat, mem.sampleId = k → k < N → buffer = .bytes ∧ env.frame = frames k)
    (hclear : aacDecoderComplains t.dec mem = false → t.dec.inputDone = false → mem.AllOut env.accepts →
      (N : Int) ≤ mem.sampleId → ∃ frame, stack = some frame ∧ frame.error = 0 ∧ frame.samples = []) :
    ∃ t' state, m4aRunPoll env stack buffer readLen t = some (t', state) ∧ M4aPolled frames N t t' state := by
  have hruns := h
  obtain ⟨hm4a, mem₀, left, hmem₀, hrun, hphase⟩ := h
  obtain rfl := Option.some.inj (hmem.symm.trans hmem₀)
  cases hphase with
  | @playing k hplay =>
    refine hplay.poll hrun hreads (hframe k hplay.id) fun hall hk => ?_
    refine hclear (aacDecoderComplains_eq_false hplay.error hplay.output) hplay.input hall ?_
    rw [hplay.id]
    omega
  | failed hend hk hout herrors herror hbuf hdecoded =>
    refine hruns.poll_done hmem hbuf hend hdecoded ?_ fun _ => .inr ⟨_, hk, hend.error hk⟩
    have hcomplains : aacDecoderComplains t.dec mem = true := decide_eq_true (.inl (le_of_eq herror.symm))
    unfold aacPlayerErrorHandler
    rw [if_pos hcomplains]
  | ended hend hin hout herrors herror hbuf hdecoded =>
    have hsilent := aacPlayerErrorHandler_silent (aacDecoderComplains_eq_false herror hout)
    exact hruns.poll_done hmem hbuf hend hdecoded (by rw [hsilent]; exact hin)
      fun _ => .inl (by rw [hsilent]; exact herrors)
  | done hend hin hout hbuf hdecoded =>
    refine hruns.poll_done hmem hbuf hend hdecoded ?_ fun h => absurd (h.symm.trans hout) Bool.false_ne_true
    obtain ⟨errors, herrors⟩ := aacPlayerErrorHandler_eq t mem
    rw [herrors]
    exact Bool.or_eq_true_iff.2 (.inl hin)

theorem M4aRuns.start : M4aRuns frames N { isM4a := true, mem := some {} } :=
  ⟨rfl, {}, [], rfl, ⟨⟨{}, rfl, Int.le_refl 0, Int.le_refl 0, rfl⟩, rfl⟩,
    .playing (k := 0) ⟨rfl, rfl, Nat.zero_le N, fun i hi => absurd hi (Nat.not_lt_zero i), rfl, rfl, rfl, rfl, rfl,
      (by intro h; cases h), rfl⟩⟩

end

/-- What holds of a track before and after its start. -/
def M4aKeeps (frames : Nat → NeAACDecFrameInfo) (N : Nat) : Bool → Option AacSource → Prop
  | false, o => ∃ t, o = some t ∧ t.dec = { isM4a := true }
  | true, o => ∃ t, o = some t ∧ M4aRuns frames N t.dec

/-- Before `output_done` an error is reported only where the decoder has reported one of a sample. -/
def M4aQuiet (frames : Nat → NeAACDecFrameInfo) (N : Nat) (before after : Option AacSource) : Prop :=
  ∀ t t', before = some t → after = some t' → t.dec.outputDone = false →
    t'.dec.errors = [] ∨ ∃ i < N, (frames i).error ≠ 0

section
variable {frames : Nat → NeAACDecFrameInfo} {N : Nat} {s s' : DecoderSys AacSource} {a : M4aAct}

theorem M4aKeeps.handsOver {running : Bool} {o : Option AacSource} (h : M4aKeeps frames N running o) :
    ∃ t, o = some t ∧ M4aHandsOver frames N t.dec := by
  cases running with
  | false =>
    obtain ⟨t, rfl, ht⟩ := h
    refine ⟨t, rfl, ⟨0, Nat.zero_le N, fun i hi => absurd hi (Nat.not_lt_zero i), ?_⟩, ?_, ?_⟩
    · rw [ht]
      rfl
    · rw [ht]
      intro hd
      cases hd
    · rw [ht]
      exact fun _ => rfl
  | true =>
    obtain ⟨t, rfl, ht⟩ := h
    exact ⟨t, rfl, ht.handsOver⟩

/-- A step keeps the track playing, and before the end it reports an error only of a sample. -/
theorem M4aKeeps.step (hstep : M4aStep s a s') (hplays : a.Plays frames N s) (hclear : a.StackClear N s)
    (h : s.curState ∈ decoderStates ∧ M4aKeeps frames N (s.curState != mp3DecoderStaIdle) s.dec) :
    s'.curState ∈ decoderStates ∧ M4aKeeps frames N (s'.curState != mp3DecoderStaIdle) s'.dec ∧
      M4aQuiet frames N s.dec s'.dec := by
  obtain ⟨hs, hkeeps⟩ := h
  have hquiet : M4aQuiet frames N s.dec s.dec := by
    intro t t' ht ht' hout
    obtain rfl := Option.some.inj (ht.symm.trans ht')
    obtain ⟨t₀, ht₀, hover⟩ := hkeeps.handsOver
    obtain rfl := Option.some.inj (ht.symm.trans ht₀)
    exact .inl (hover.quiet hout)
  cases hstep with
  | @turn env stack buffer readLen start pause resume =>
    refine DecoderSys.turn_preserves (I := fun running o => M4aKeeps frames N running o ∧ M4aQuiet frames N s.dec o)
      aacDecoderLookup_selects hs ⟨hkeeps, hquiet⟩ ?_ ?_ ?_ ?_
    · rintro o ⟨⟨t, rfl, ht⟩, hquiet⟩
      refine ⟨rfl, ⟨_, rfl, ?_⟩, ?_⟩
      · dsimp only
        rw [ht]
        exact M4aRuns.start
      · rintro t₀ _ ht₀ ⟨⟩ hout
        exact hquiet t₀ t ht₀ rfl hout
    · rintro o ⟨⟨t, rfl, ht⟩, hquiet⟩
      exact ⟨rfl, ⟨t, rfl, ht⟩, hquiet⟩
    · rintro o ⟨⟨t, rfl, ht⟩, hquiet⟩
      exact ⟨rfl, ⟨t, rfl, ht⟩, hquiet⟩
    · rintro hact ⟨⟨t, hdec, ht⟩, -⟩
      obtain ⟨mem, left, hmem, -⟩ := ht.phase
      obtain ⟨hreads, hframe⟩ := hplays hact t mem hdec hmem
      obtain ⟨t', state, hpoll, hpolled⟩ := ht.poll hmem hreads hframe (hclear hact t mem hdec hmem)
      have hres : m4aRun env stack buffer readLen .runPoll s.dec = (some t', state) := by
        rw [hdec]
        simp only [m4aRun, hpoll]
      rw [hres]
      refine ⟨hpolled.state, ⟨t', rfl, hpolled.runs⟩, ?_⟩
      rintro t₀ _ ht₀ ⟨⟩ hout
      obtain rfl := Option.some.inj (hdec.symm.trans ht₀)
      exact hpolled.quiet hout

end

/-- **The samples of an m4a track are handed over once and in order**, all of them where none fails, in every run in
which behind the last one there is nothing on the stack; until it ends, only a sample makes it report an error. -/
theorem m4aTrack_handsOver {frames : Nat → NeAACDecFrameInfo} {N : Nat} {acts : List M4aAct}
    {s : DecoderSys AacSource}
    (hrun : Steps (Restrict (Restrict M4aStep (M4aAct.Plays frames N)) (M4aAct.StackClear N)) (aacSourceInit true)
      acts s) :
    (∃ t, s.dec = some t ∧ M4aHandsOver frames N t.dec ∧
      ((∀ i < N, (frames i).error = 0) → t.dec.outputDone = true →
        t.dec.accepted = (m4aPcm frames N).map some)) ∧
    ∀ a s', Restrict (Restrict M4aStep (M4aAct.Plays frames N)) (M4aAct.StackClear N) s a s' →
      M4aQuiet frames N s.dec s'.dec := by
  have hinit : (aacSourceInit true).curState ∈ decoderStates ∧
      M4aKeeps frames N ((aacSourceInit true).curState != mp3DecoderStaIdle) (aacSourceInit true).dec :=
    ⟨.head _, { dec := { isM4a := true } }, rfl, rfl⟩
  have hkeeps := hrun.invariant
    (I := fun s => s.curState ∈ decoderStates ∧ M4aKeeps frames N (s.curState != mp3DecoderStaIdle) s.dec)
    (fun _ _ _ h hs => have hstep := M4aKeeps.step hs.1.1 hs.1.2 hs.2 h; ⟨hstep.1, hstep.2.1⟩) hinit
  refine ⟨?_, fun a s' hs => (M4aKeeps.step hs.1.1 hs.1.2 hs.2 hkeeps).2.2⟩
  obtain ⟨t, ht, hover⟩ := hkeeps.2.handsOver
  refine ⟨t, ht, hover, fun hfine hdone => ?_⟩
  obtain ⟨k, hend, hall⟩ := hover.done hdone
  rcases Nat.lt_or_ge k N with hlt | hge
  · exact absurd (hfine k hlt) (hend.error hlt)
  · obtain rfl := Nat.le_antisymm hend.le hge
    exact hall

/-! ## A track of one sample -/

/-- One stereo sample. -/
def m4aFrame : NeAACDecFrameInfo := ⟨0, [1, 2], 0, by decide⟩

/-- The callback takes everything, and the only sample of the file decodes to that frame. -/
def m4aEnv : AacEnv where
  accepts := takesAll
  acceptsAgain := takesAll
  inputSize := 0
  init := some ({}, 1)
  frame := m4aFrame

/-- The decoder, when the frame has been decoded `n` times. -/
def m4aPlayed (state : Word) (n : Nat) (inputDone outputDone : Bool) (events : List InputEvent) (setDone : Nat) :
    DecoderSys AacSource :=
  ⟨state, some
    { dec :=
        { isM4a := true, inputDone, outputDone, initialized := true
          mem := some { numSamples := 1, sampleId := 1, outputTotal := (fun total => toI32 (total + 4))^[n] 0 }
          accepted := (List.replicate n m4aFrame.bytes).flatten.map some
          decoded := (List.replicate n m4aFrame.bytes).flatten }
      events, setDone }⟩

/-- The frame info on the stack: nothing, or the sample that was decoded last. -/
def m4aStack (stale : Bool) : NeAACDecFrameInfo := if stale then m4aFrame else noSamples 0

theorem m4aPlayed_run (stale : Bool) :
    Steps (Restrict (Restrict M4aStep (M4aAct.Plays (fun _ => m4aFrame) 1))
        fun s a => stale = false → a.StackClear 1 s) (aacSourceInit true)
      [.turn m4aEnv none .bytes 0 true false false, .turn m4aEnv none .bytes 0 false false false,
        .turn m4aEnv (some (m4aStack stale)) .bytes 0 false false false, .turn m4aEnv none .bytes 0 false false false]
      (m4aPlayed mp3DecoderStaPause (if stale then 2 else 1) true true [.sample 0, .ended] 1) := by
  have hstart : M4aStep (aacSourceInit true) (.turn m4aEnv none .bytes 0 true false false)
      ⟨mp3DecoderStaRun, some { dec := { isM4a := true, mem := some {} } }⟩ := .turn
  have hsample : M4aStep ⟨mp3DecoderStaRun, some { dec := { isM4a := true, mem := some {} } }⟩
      (.turn m4aEnv none .bytes 0 false false false) (m4aPlayed mp3DecoderStaRun 1 false false [.sample 0] 0) := .turn
  have hlast : M4aStep (m4aPlayed mp3DecoderStaRun 1 false false [.sample 0] 0)
      (.turn m4aEnv (some (m4aStack stale)) .bytes 0 false false false)
      (m4aPlayed mp3DecoderStaRun (if stale then 2 else 1) true false [.sample 0] 1) := by
    cases stale
    · exact .turn
    · exact .turn
  have hdone : M4aStep (m4aPlayed mp3DecoderStaRun (if stale then 2 else 1) true false [.sample 0] 1)
      (.turn m4aEnv none .bytes 0 false false false)
      (m4aPlayed mp3DecoderStaPause (if stale then 2 else 1) true true [.sample 0, .ended] 1) := by
    cases stale
    · exact .turn
    · exact .turn
  have hplays : ∀ {s : DecoderSys AacSource} {stack : Option NeAACDecFrameInfo} {start : Bool},
      (M4aAct.turn m4aEnv stack .bytes 0 start false false).Plays (fun _ => m4aFrame) 1 s :=
    fun _ _ _ _ _ => ⟨⟨Int.le_refl 0, rfl, _, rfl⟩, fun _ _ _ => ⟨rfl, rfl⟩⟩
  refine .cons ⟨⟨hstart, hplays⟩, ?_⟩ (.cons ⟨⟨hsample, hplays⟩, ?_⟩ (.cons ⟨⟨hlast, hplays⟩, ?_⟩
    (.one ⟨⟨hdone, hplays⟩, ?_⟩)))
  · exact fun _ hact => absurd hact (by decide)
  · rintro - - t mem ⟨⟩ ⟨⟩ - - - hid
    exact absurd hid (by decide)
  · rintro rfl - t mem ⟨⟩ ⟨⟩ - - - -
    exact ⟨_, rfl, rfl, rfl⟩
  · rintro - - t mem ⟨⟩ ⟨⟩ - hin
    cases hin

theorem m4aTrack_handsOver_once :
    (m4aPlayed mp3DecoderStaPause 1 true true [.sample 0, .ended] 1).dec.map (fun t => t.dec.accepted) =
      some (m4aFrame.bytes.map some) := by
  obtain ⟨⟨t, ht, -, hall⟩, -⟩ := m4aTrack_handsOver ((m4aPlayed_run false).mono fun _ _ _ h => ⟨h.1, h.2 rfl⟩)
  cases ht
  exact congrArg some (hall (fun _ _ => rfl) rfl)

/-- With the frame info of the sample still there it is handed over twice. -/
theorem m4aTrack_handsOver_twice : ¬ ∀ (acts : List M4aAct) (s : DecoderSys AacSource),
    Steps (Restrict M4aStep (M4aAct.Plays (fun _ => m4aFrame) 1)) (aacSourceInit true) acts s →
      ∀ t, s.dec = some t → t.dec.outputDone = true → t.dec.accepted = (m4aPcm (fun _ => m4aFrame) 1).map some := by
  intro hall
  have htwice := hall _ _ ((m4aPlayed_run true).mono fun _ _ _ h => h.1) _ rfl rfl
  exact absurd (congrArg List.length htwice) (by decide)

end AudioPlayer

import Mathlib
import AudioPlayer.DirectBufferCalls
import AudioPlayer.DecoderCallbacks

/-!
# The mp3 decoder without memory for its PCM (`src/mp3_decoder.c:238-268`)

`mp3_decoder_run_poll` asks for room for a frame, clears the buffer and fills it with an unchecked macro. What
`direct_buffer_resize` returns is not looked at, so when its `malloc` fails the loops run over the block there
was, of 512 bytes at first. In `DecoderCallbacks` that allocation succeeds; here each turn says whether it does.

| here | there |
|---|---|
| `mp3DecoderOutputAlloc`  | step 3 up to the loops (`mp3_decoder.c:238-264`) |
| `mp3DecoderDecodeAlloc`  | steps 2 and 3 (`:211-271`) |
| `mp3PlayerRunPollAlloc`  | `mp3_decoder_run_poll` (`:161-272`) with the player's callbacks |
| `Mp3Source.Decodes`      | a poll comes to a frame |
| `DecoderSys.InBlock`     | nothing was written behind the block, and the positions are in it |
-/

namespace AudioPlayer
open Lib

/-- `mp3DecoderOutput`, with the outcome of the allocation. -/
def mp3DecoderOutputAlloc (allocated : Bool) (d : Mp3Decoder) (mem : Mp3DecoderMemory) (pcm : MadPcm) :
    Option (Mp3Decoder × Mp3DecoderMemory) := do
  let sampleRate := if pcm.halved then pcm.samplerate.tdiv 2 else pcm.samplerate
  let decoderInfo := { mem.decoderInfo with sampleRate, bitRate := pcm.bitrate, channels := pcm.channels }
  let (outputBuffer, _) ←
    directBufferResizeAlloc allocated mem.outputBuffer ((pcm.length * pcm.channels * 2 : Nat) : Int)
  let outputBuffer ← mp3DecoderPushFrame (directBufferClear outputBuffer) pcm
  some ({ d with decoded := d.decoded ++ pcm.bytes }, { mem with decoderInfo, outputBuffer })

/-- `mp3DecoderDecode`, with the outcome of the allocation. -/
def mp3DecoderDecodeAlloc (allocated : Bool) (env : Mp3Env) (d : Mp3Decoder) (mem : Mp3DecoderMemory) :
    Option (Mp3Decoder × Word) :=
  match env.decode with
  | .error error =>
    let bad := mp3DecoderBadFrame mem error
    some ({ d with mem := some bad.1 }, if bad.2 then mp3DecoderStaPause else comFsmHoldState)
  | .ok pcm => do
    let (d, mem) ← mp3DecoderOutputAlloc allocated d { mem with decoderError := 0 } pcm
    let (out, d) ← mp3DecoderOutputHandler env.acceptsAgain d mem
    some (d, if out = false then mp3DecoderStaPause else comFsmHoldState)

/-- `mp3PlayerRunPoll`, with the outcome of the allocation. -/
def mp3PlayerRunPollAlloc (allocated : Bool) (env : Mp3Env) (remain readLen : Int) (t : Mp3Source) :
    Option (Mp3Source × Word) := do
  let mem ← t.dec.mem
  let t := mp3PlayerErrorHandler t mem
  let (out, dec) ← mp3DecoderOutputHandler env.accepts t.dec mem
  if out = false then some ({ t with dec }, mp3DecoderStaPause)
  else do
    let mem ← dec.mem
    match mp3PlayerInput env remain readLen { t with dec } mem with
    | (t, none) => some (t, mp3DecoderStaPause)
    | (t, some mem) => do
      let (dec, state) ← mp3DecoderDecodeAlloc allocated env t.dec (mp3DecoderTag env mem)
      some ({ t with dec }, state)

/-- `mp3PlayerRun`, with the outcome of the allocation. -/
def mp3PlayerRunAlloc (allocated : Bool) (env : Mp3Env) (remain readLen seekTo : Int) (a : Mp3DecoderAction) :
    Option Mp3Source → Option Mp3Source × Word
  | none => (none, comFsmHoldState)
  | some t =>
    if a = .runPoll then
      match mp3PlayerRunPollAlloc allocated env remain readLen t with
      | none => (none, comFsmHoldState)
      | some (t, state) => (some t, state)
    else mp3PlayerRun env remain readLen seekTo a (some t)

inductive Mp3AllocAct
  | turn (allocated : Bool) (env : Mp3Env) (remain readLen seekTo : Int) (events : Word)
  | start

/-- A turn on any set of events, or the flags of `mp3_decoder_start`. -/
inductive Mp3AllocStep : DecoderSys Mp3Source → Mp3AllocAct → DecoderSys Mp3Source → Prop
  | turn {s : DecoderSys Mp3Source} {allocated : Bool} {env : Mp3Env} {remain readLen seekTo : Int}
    {events : Word} :
    Mp3AllocStep s (.turn allocated env remain readLen seekTo events)
      (s.turn (mp3PlayerRunAlloc allocated env remain readLen seekTo) mp3DecoderLookup events)
  | start {s : DecoderSys Mp3Source} :
    Mp3AllocStep s .start
      { s with dec := s.dec.map fun t => { t with dec := { t.dec with inputDone := false, outputDone := false } } }

/-- There is a decoder, so no loop has left the block, and its positions are in order and in the block. -/
def DecoderSys.InBlock (s : DecoderSys Mp3Source) : Prop :=
  ∃ t, s.dec = some t ∧ ∀ mem, t.dec.mem = some mem → 0 ≤ mem.outputBuffer.read ∧
    mem.outputBuffer.read ≤ mem.outputBuffer.write ∧ mem.outputBuffer.write ≤ mem.outputBuffer.size

/-- A poll comes to the frame `pcm`: the PCM there was is taken, and libmad has input or gets some. -/
structure Mp3Source.Decodes (env : Mp3Env) (readLen : Int) (t : Mp3Source) (mem : Mp3DecoderMemory)
    (pcm : MadPcm) : Prop where
  mem_eq : t.dec.mem = some mem
  taken  : directBufferGetCount mem.outputBuffer ≤ 0 ∨
    env.accepts.val (directBufferGetCount mem.outputBuffer) = directBufferGetCount mem.outputBuffer
  input  : (mem.streamBuffer = true ∧ mem.streamError ≠ madErrorBuflen) ∨
    (t.dec.inputDone = false ∧ mp3DecoderComplains t.dec mem = false ∧ 0 < readLen)
  decode : env.decode = .ok pcm

/-- The frame is given memory or needs none. -/
def FrameFits (allocated : Bool) (mem : Mp3DecoderMemory) (pcm : MadPcm) : Prop :=
  allocated = true ∨ ((pcm.length * pcm.channels * 2 : Nat) : Int) ≤ mem.outputBuffer.size

/-- The condition on a turn: a poll that comes to a frame is given memory for it, or needs none. -/
def Mp3AllocAct.Fits (s : DecoderSys Mp3Source) : Mp3AllocAct → Prop
  | .turn allocated env _ readLen _ events =>
    decoderTurnAction mp3DecoderLookup s.curState events = some .runPoll →
      ∀ t mem pcm, s.dec = some t → t.Decodes env readLen mem pcm → FrameFits allocated mem pcm
  | .start => True

/-! ## The loops -/

section
variable {b : DirectBuffer}

/-- One more byte than the block has is written behind it. -/
theorem directBufferPushOne_none (h : b.Valid) (x : Byte) (hfull : b.size ≤ b.write) :
    directBufferPushOne b x = none := by
  have hlen := h.length_eq
  unfold directBufferPushOne memcpy?
  rw [if_neg (by omega)]
  rfl

theorem directBufferPushAll_none (h : b.Valid) (xs : List Byte) (hfull : b.size < b.write + xs.length) :
    directBufferPushAll b xs = none := by
  induction xs generalizing b with
  | nil =>
    have := h.write_le
    simp only [List.length_nil, Nat.cast_zero] at hfull
    omega
  | cons x xs ih =>
    rw [List.length_cons] at hfull
    simp only [directBufferPushAll, List.foldlM_cons]
    by_cases hroom : b.write < b.size
    · obtain ⟨b₁, hpush, h₁, -, hwrite, hsize⟩ := directBufferPushOne_spec h x hroom
      rw [hpush]
      exact ih h₁ (by omega)
    · rw [directBufferPushOne_none h x (by omega)]
      rfl

end

section
variable {allocated : Bool} {env : Mp3Env} {remain readLen seekTo : Int} {d : Mp3Decoder} {mem : Mp3DecoderMemory}
  {t : Mp3Source} {pcm : MadPcm}

/-- With memory, it is the decoder of `DecoderCallbacks`. -/
theorem mp3PlayerRunAlloc_true (a : Mp3DecoderAction) :
    mp3PlayerRunAlloc true env remain readLen seekTo a = mp3PlayerRun env remain readLen seekTo a := by
  have houtput : mp3DecoderOutputAlloc true = mp3DecoderOutput := by
    funext d mem pcm
    have hnot : ¬ (mem.outputBuffer.size < ((pcm.length * pcm.channels * 2 : Nat) : Int) ∧ true = false) := by simp
    simp only [mp3DecoderOutputAlloc, mp3DecoderOutput, directBufferResizeAlloc, hnot, if_false]
    cases directBufferResize mem.outputBuffer ((pcm.length * pcm.channels * 2 : Nat) : Int) <;> rfl
  have hdecode : mp3DecoderDecodeAlloc true = mp3DecoderDecode := by
    funext env d mem
    unfold mp3DecoderDecodeAlloc mp3DecoderDecode
    generalize mp3DecoderOutputAlloc true = output at houtput
    subst houtput
    rfl
  have hpoll : mp3PlayerRunPollAlloc true = mp3PlayerRunPoll := by
    funext env remain readLen t
    unfold mp3PlayerRunPollAlloc mp3PlayerRunPoll
    generalize mp3DecoderDecodeAlloc true = decode at hdecode
    subst hdecode
    rfl
  funext o
  cases o with
  | none => rfl
  | some t =>
    unfold mp3PlayerRunAlloc
    rw [hpoll]
    cases a <;> rfl

/-- **The loops stay in the block exactly if the frame fits it.** -/
theorem mp3DecoderOutputAlloc_spec (hvalid : mem.outputBuffer.Valid) (hempty : mem.outputBuffer.contents = []) :
    (FrameFits allocated mem pcm → ∃ d' mem', mp3DecoderOutputAlloc allocated d mem pcm = some (d', mem') ∧
      mem'.outputBuffer.Valid) ∧
    (¬ FrameFits allocated mem pcm → mp3DecoderOutputAlloc allocated d mem pcm = none) := by
  have hlen := pcm.length_bytes
  unfold mp3DecoderOutputAlloc directBufferResizeAlloc FrameFits
  constructor
  · intro hfits
    obtain ⟨b, hresize, hclear, hsize⟩ := directBufferResize_spec hvalid hempty
      (Int.natCast_nonneg (pcm.length * pcm.channels * 2))
    obtain ⟨b', hpush, hb', -⟩ := directBufferPushAll_spec hclear pcm.bytes (by
      dsimp only [directBufferClear]
      omega)
    have hnot : ¬ (mem.outputBuffer.size < ((pcm.length * pcm.channels * 2 : Nat) : Int) ∧ allocated = false) := by
      rintro ⟨hsmall, rfl⟩
      rcases hfits with h | h
      · cases h
      · omega
    simp only [hnot, if_false, hresize, mp3DecoderPushFrame_eq, hpush, Option.bind_eq_bind, Option.bind_some]
    exact ⟨_, _, rfl, hb'⟩
  · intro hnot
    obtain ⟨hfails, hsmall⟩ := not_or.1 hnot
    have hboth : mem.outputBuffer.size < ((pcm.length * pcm.channels * 2 : Nat) : Int) ∧ allocated = false :=
      ⟨by omega, Bool.eq_false_iff.2 hfails⟩
    have hnone := directBufferPushAll_none (directBufferClear_spec hvalid).1 pcm.bytes (by
      dsimp only [directBufferClear]
      omega)
    simp only [if_pos hboth, mp3DecoderPushFrame_eq, hnone, Option.bind_eq_bind, Option.bind_some, Option.bind_none]

/-- The handler keeps the buffer well formed, whatever is taken. -/
theorem mp3DecoderOutputHandler_valid (accepts : Takes) (hvalid : mem.outputBuffer.Valid) :
    ∃ out accepted outputBuffer outputTotal, mp3DecoderOutputHandler accepts d mem =
        some (out, { d with accepted, mem := some { mem with outputBuffer, outputTotal } }) ∧
      outputBuffer.Valid ∧ outputBuffer.size = mem.outputBuffer.size ∧
      (out = true → outputBuffer.contents = []) ∧
      (out = true ↔ directBufferGetCount mem.outputBuffer ≤ 0 ∨
        accepts.val (directBufferGetCount mem.outputBuffer) = directBufferGetCount mem.outputBuffer) := by
  have hlen := hvalid.length_contents
  unfold mp3DecoderOutputHandler
  dsimp only
  by_cases hempty : directBufferGetCount mem.outputBuffer ≤ 0
  · rw [if_pos hempty]
    refine ⟨true, d.accepted, mem.outputBuffer, mem.outputTotal, rfl, hvalid, rfl, fun _ => ?_, by simp [hempty]⟩
    exact List.eq_nil_of_length_eq_zero (by omega)
  · obtain ⟨h0, hle⟩ := accepts.2 (directBufferGetCount mem.outputBuffer) (by omega)
    rw [if_neg hempty, hvalid.memread, Option.bind_eq_bind, Option.bind_some]
    generalize accepts.val (directBufferGetCount mem.outputBuffer) = n at h0 hle ⊢
    obtain ⟨hpop, -⟩ := directBufferPopOnly_spec hvalid h0 hle
    have hleft : directBufferGetCount (directBufferPopOnly mem.outputBuffer n) =
        directBufferGetCount mem.outputBuffer - n := by
      simp only [directBufferGetCount, directBufferPopOnly]
      omega
    rw [hleft]
    by_cases hmore : directBufferGetCount mem.outputBuffer - n > 0
    · rw [if_pos hmore]
      refine ⟨false, _, _, _, rfl, hpop, rfl, fun h => absurd h Bool.false_ne_true, ?_⟩
      simp only [Bool.false_eq_true, false_iff]
      omega
    · rw [if_neg hmore]
      obtain ⟨hclear, hnil, -⟩ := directBufferClear_spec hpop
      refine ⟨true, _, _, _, rfl, hclear, rfl, fun _ => hnil, ?_⟩
      simp only [true_iff]
      omega

/-- Step 1 gets on only with input. -/
theorem mp3DecoderInput_isSome (env : Mp3Env) (d : Mp3Decoder) (mem : Mp3DecoderMemory) :
    (mp3DecoderInput env d mem).2.isSome = true ↔
      (mem.streamBuffer = true ∧ mem.streamError ≠ madErrorBuflen) ∨ (d.inputDone = false ∧ 0 < env.inputSize) := by
  unfold mp3DecoderInput
  by_cases hneed : mem.streamBuffer = false ∨ mem.streamError = madErrorBuflen
  · have hused : ¬ (mem.streamBuffer = true ∧ mem.streamError ≠ madErrorBuflen) := by
      rintro ⟨hbuffer, herror⟩
      rcases hneed with h | h
      · rw [h] at hbuffer
        cases hbuffer
      · exact herror h
    rw [if_pos hneed, or_iff_right hused]
    cases d.inputDone with
    | true => simp
    | false =>
      by_cases hread : env.inputSize > 0
      · simp [hread]
      · simp [hread]
  · rw [if_neg hneed]
    obtain ⟨hbuffer, herror⟩ := not_or.1 hneed
    exact iff_of_true rfl (.inl ⟨Bool.eq_true_of_not_eq_false hbuffer, herror⟩)

/-- It leaves the PCM as it is. -/
theorem mp3PlayerInput_next (t : Mp3Source) (mem : Mp3DecoderMemory) :
    ∃ t' next, mp3PlayerInput env remain readLen t mem = (t', next) ∧ t'.dec.mem = t.dec.mem ∧
      (∀ mem', next = some mem' → mem'.outputBuffer = mem.outputBuffer) ∧
      (next.isSome = true ↔ (mem.streamBuffer = true ∧ mem.streamError ≠ madErrorBuflen) ∨
        (t.dec.inputDone = false ∧ 0 < readLen)) := by
  obtain ⟨t', next, hinput⟩ : ∃ t' next, mp3PlayerInput env remain readLen t mem = (t', next) := ⟨_, _, rfl⟩
  have hnext : next = (mp3DecoderInput { env with inputSize := if 0 < readLen then readLen else 0 } t.dec mem).2 := by
    unfold mp3PlayerInput at hinput
    rw [playerInputCallback_stream (show ComPlayerType.mp3 ≠ .m4a by decide)] at hinput
    dsimp only at hinput
    split at hinput
    · split at hinput <;> exact (Prod.mk.inj hinput).2.symm
    · exact (Prod.mk.inj hinput).2.symm
  refine ⟨t', next, hinput, (mp3PlayerInput_cases hinput).2, ?_, ?_⟩
  · obtain ⟨outputDone, next', hread, hkeeps⟩ :=
      mp3DecoderInput_eq { env with inputSize := if 0 < readLen then readLen else 0 } t.dec mem
    rw [hread] at hnext
    rw [hnext]
    exact hkeeps
  · rw [hnext, mp3DecoderInput_isSome]
    dsimp only
    by_cases hread : 0 < readLen
    · rw [if_pos hread]
    · simp [hread]

/-- With the buffer empty, steps 2 and 3 are defined exactly if the frame fits, and keep the buffer well formed. -/
theorem mp3DecoderDecodeAlloc_spec (hvalid : mem.outputBuffer.Valid) (hempty : mem.outputBuffer.contents = []) :
    ((∀ pcm, env.decode = .ok pcm → FrameFits allocated mem pcm) → ∃ d' mem' state,
      mp3DecoderDecodeAlloc allocated env d mem = some (d', state) ∧ d'.mem = some mem' ∧
      mem'.outputBuffer.Valid ∧ (state = mp3DecoderStaPause ∨ state = comFsmHoldState)) ∧
    ∀ pcm, env.decode = .ok pcm → ¬ FrameFits allocated mem pcm →
      mp3DecoderDecodeAlloc allocated env d mem = none := by
  unfold mp3DecoderDecodeAlloc
  cases hdecode : env.decode with
  | error error =>
    refine ⟨fun _ => ⟨_, _, _, rfl, rfl, by rwa [mp3DecoderBadFrame_output], ?_⟩, by intro _ h; cases h⟩
    cases (mp3DecoderBadFrame mem error).2
    · exact .inr rfl
    · exact .inl rfl
  | ok pcm =>
    obtain ⟨hfits, hnot⟩ := @mp3DecoderOutputAlloc_spec allocated d { mem with decoderError := 0 } pcm hvalid hempty
    refine ⟨fun h => ?_, ?_⟩
    · obtain ⟨d₁, mem₁, houtput, hvalid₁⟩ := hfits (h pcm rfl)
      obtain ⟨out, accepted, outputBuffer, outputTotal, hhandler, hvalid₂, -⟩ :=
        @mp3DecoderOutputHandler_valid d₁ mem₁ env.acceptsAgain hvalid₁
      simp only [houtput, hhandler, Option.bind_eq_bind, Option.bind_some]
      refine ⟨_, _, _, rfl, rfl, hvalid₂, ?_⟩
      cases out
      · exact .inl rfl
      · exact .inr rfl
    · rintro _ ⟨⟩ h
      simp only [hnot h, Option.bind_eq_bind, Option.bind_none]

/-- **A poll** stays in the block exactly if a frame it comes to fits. -/
theorem mp3PlayerRunPollAlloc_spec (hmem : t.dec.mem = some mem) (hvalid : mem.outputBuffer.Valid) :
    ((∀ pcm, t.Decodes env readLen mem pcm → FrameFits allocated mem pcm) → ∃ t' mem' state,
      mp3PlayerRunPollAlloc allocated env remain readLen t = some (t', state) ∧ t'.dec.mem = some mem' ∧
      mem'.outputBuffer.Valid ∧ (state = mp3DecoderStaPause ∨ state = comFsmHoldState)) ∧
    ∀ pcm, t.Decodes env readLen mem pcm → ¬ FrameFits allocated mem pcm →
      mp3PlayerRunPollAlloc allocated env remain readLen t = none := by
  obtain ⟨errors, herrors⟩ := mp3PlayerErrorHandler_eq t mem
  obtain ⟨out, accepted, outputBuffer, outputTotal, hhandler, hvalid₁, hsize, hnil, hout⟩ :=
    @mp3DecoderOutputHandler_valid (mp3PlayerErrorHandler t mem).dec mem env.accepts hvalid
  unfold mp3PlayerRunPollAlloc
  simp only [hmem, hhandler, Option.bind_eq_bind, Option.bind_some]
  cases out with
  | false =>
    refine ⟨fun _ => ⟨_, _, _, rfl, rfl, hvalid₁, .inl rfl⟩, ?_⟩
    intro pcm hdecodes _
    exact absurd (hout.2 hdecodes.taken) Bool.false_ne_true
  | true =>
    have htaken := hout.1 rfl
    obtain ⟨t₂, next, hinput, hmem₂, hkeeps, hnext⟩ := @mp3PlayerInput_next env remain readLen
      { mp3PlayerErrorHandler t mem with
        dec := { (mp3PlayerErrorHandler t mem).dec with accepted, mem := some { mem with outputBuffer, outputTotal } } }
      { mem with outputBuffer, outputTotal }
    have hdone : (mp3PlayerErrorHandler t mem).dec.inputDone = false ↔
        t.dec.inputDone = false ∧ mp3DecoderComplains t.dec mem = false := by
      rw [herrors]
      simp
    simp only [Bool.true_eq_false, if_false, hinput]
    dsimp only at hnext
    rw [hdone, and_assoc] at hnext
    cases next with
    | none =>
      refine ⟨fun _ => ⟨t₂, _, _, rfl, hmem₂, hvalid₁, .inl rfl⟩, ?_⟩
      intro pcm hdecodes _
      exact absurd (hnext.2 hdecodes.input) Bool.false_ne_true
    | some mem₂ =>
      have hsame : (mp3DecoderTag env mem₂).outputBuffer = outputBuffer :=
        (mp3DecoderTag_output env mem₂).trans (hkeeps mem₂ rfl)
      have hdecodes : ∀ pcm, env.decode = .ok pcm → t.Decodes env readLen mem pcm :=
        fun pcm hdecode => ⟨hmem, htaken, hnext.1 rfl, hdecode⟩
      have hfits : ∀ pcm, FrameFits allocated (mp3DecoderTag env mem₂) pcm ↔ FrameFits allocated mem pcm := by
        intro pcm
        unfold FrameFits
        rw [hsame, hsize]
      obtain ⟨hdefined, hundefined⟩ := @mp3DecoderDecodeAlloc_spec allocated env t₂.dec (mp3DecoderTag env mem₂)
        (hsame ▸ hvalid₁) (hsame ▸ hnil rfl)
      dsimp only
      refine ⟨fun h => ?_, ?_⟩
      · obtain ⟨d', mem', state, hdec, hmem', hvalid', hstate⟩ :=
          hdefined fun pcm hdecode => (hfits pcm).2 (h pcm (hdecodes pcm hdecode))
        exact ⟨{ t₂ with dec := d' }, mem', state, by rw [hdec]; rfl, hmem', hvalid', hstate⟩
      · intro pcm hd hnot
        rw [hundefined pcm hd.decode fun h => hnot ((hfits pcm).1 h)]
        rfl

end

/-! ## Runs -/

/-- A turn on any set runs an action its table has for the state, or nothing. -/
theorem DecoderSys.turn_cases {D : Type} (exec : Mp3DecoderAction → Option D → Option D × Word)
    (lookup : List (ComFsmLookup Mp3DecoderAction)) (s : DecoderSys D) (events : Word) :
    (decoderTurnAction lookup s.curState events = none ∧ s.turn exec lookup events = s) ∨
    ∃ l ∈ lookup, l.state = s.curState ∧ decoderTurnAction lookup s.curState events = some l.action ∧
      s.turn exec lookup events =
        ⟨if (exec l.action s.dec).2 ≠ comFsmHoldState ∧ (exec l.action s.dec).2 ≠ s.curState
          then (exec l.action s.dec).2 else s.curState, (exec l.action s.dec).1⟩ := by
  unfold decoderTurnAction DecoderSys.turn comFsmDispatch
  by_cases hexit : comFsmEventExit &&& events ≠ 0
  · rw [if_pos hexit, if_pos hexit]
    exact .inl ⟨rfl, rfl⟩
  · rw [if_neg hexit, if_neg hexit]
    cases hselect : comFsmSelect lookup s.curState events with
    | none => exact .inl ⟨rfl, rfl⟩
    | some l =>
      obtain ⟨hmem, hstate⟩ := comFsmSelect_mem hselect
      exact .inr ⟨l, hmem, hstate, rfl, rfl⟩

/-- Beyond IDLE there is memory, and the buffer in it is well formed. -/
structure Mp3Source.Buffered (state : Word) (t : Mp3Source) : Prop where
  state_mem : state ∈ decoderStates
  idle      : t.dec.mem = none → state = mp3DecoderStaIdle
  valid     : ∀ mem, t.dec.mem = some mem → mem.outputBuffer.Valid

/-- The state a turn leads to. -/
def decoderNextState (state out : Word) : Word := if out ≠ comFsmHoldState ∧ out ≠ state then out else state

section
variable {s u : DecoderSys Mp3Source} {a : Mp3AllocAct} {acts : List Mp3AllocAct} {t v : Mp3Source}
  {state : Word} {allocated : Bool} {env : Mp3Env} {remain readLen seekTo : Int}

theorem Mp3Source.Buffered.inBlock (h : t.Buffered s.curState) (ht : s.dec = some t) : s.InBlock :=
  ⟨t, ht, fun mem hmem => ⟨(h.valid mem hmem).read_nonneg, (h.valid mem hmem).read_le, (h.valid mem hmem).write_le⟩⟩

/-- The seek clears the buffer. -/
theorem Mp3Source.Buffered.seek (h : t.Buffered state) : (mp3PlayerSeekHandler seekTo t).Buffered state := by
  unfold mp3PlayerSeekHandler
  split
  case isFalse => exact h
  case isTrue =>
    refine ⟨h.state_mem, fun hnone => h.idle ?_, ?_⟩
    · exact Option.map_eq_none_iff.1 hnone
    · intro mem hmem
      obtain ⟨mem₀, hmem₀, rfl⟩ := Option.map_eq_some_iff.1 hmem
      exact (directBufferClear_spec (h.valid mem₀ hmem₀)).1

/-- An action of the table but the poll. -/
theorem mp3PlayerRun_buffered {l : ComFsmLookup Mp3DecoderAction} (hl : l ∈ mp3DecoderLookup)
    (hpoll : l.action ≠ .runPoll) (h : t.Buffered l.state) :
    ∃ t' out, mp3PlayerRun env remain readLen seekTo l.action (some t) = (some t', out) ∧
      t'.Buffered (decoderNextState l.state out) := by
  simp only [mp3DecoderLookup, List.mem_cons, List.not_mem_nil, or_false] at hl
  have same : ∀ {out : Word}, out ∈ decoderStates → t.dec.mem ≠ none → t.Buffered out :=
    fun hout hmem => ⟨hout, fun hnone => absurd hnone hmem, h.valid⟩
  have stopped : ({ t with dec := { t.dec with mem := none } } : Mp3Source).Buffered mp3DecoderStaIdle :=
    ⟨.head _, fun _ => rfl, by intro _ h; cases h⟩
  rcases hl with rfl | rfl | rfl | rfl | rfl | rfl | rfl | rfl
  · refine ⟨_, _, rfl, by decide, fun hnone => absurd hnone (Option.some_ne_none _), ?_⟩
    rintro _ ⟨⟩
    exact (directBufferCreate_spec (by decide)).1
  · exact ⟨_, _, rfl, stopped⟩
  · exact ⟨_, _, rfl, stopped⟩
  · exact ⟨_, _, rfl, same (by decide) fun hnone => absurd (h.idle hnone) (by decide)⟩
  · exact ⟨_, _, rfl, h.seek⟩
  · exact ⟨_, _, rfl, h.seek⟩
  · exact ⟨_, _, rfl, same (by decide) fun hnone => absurd (h.idle hnone) (by decide)⟩
  · exact absurd rfl hpoll

/-- A poll is only made with memory. -/
theorem Mp3Source.Buffered.poll_mem {l : ComFsmLookup Mp3DecoderAction} (h : t.Buffered l.state)
    (hl : l ∈ mp3DecoderLookup) (hpoll : l.action = .runPoll) : ∃ mem, t.dec.mem = some mem := by
  have hrows : ∀ l ∈ mp3DecoderLookup, l.action = .runPoll → l.state ≠ mp3DecoderStaIdle := by decide
  cases hmem : t.dec.mem with
  | none => exact absurd (h.idle hmem) (hrows l hl hpoll)
  | some mem => exact ⟨mem, rfl⟩

/-- A step whose frame fits keeps the buffer well formed. -/
theorem Mp3Source.Buffered.step (hstep : Mp3AllocStep s a u) (ht : s.dec = some t) (h : t.Buffered s.curState)
    (hfits : a.Fits s) : ∃ v, u.dec = some v ∧ v.Buffered u.curState := by
  cases hstep with
  | start => exact ⟨_, congrArg (Option.map _) ht, h.state_mem, h.idle, h.valid⟩
  | @turn allocated env remain readLen seekTo events =>
    rcases DecoderSys.turn_cases (mp3PlayerRunAlloc allocated env remain readLen seekTo) mp3DecoderLookup s events
      with ⟨-, hsame⟩ | ⟨l, hl, hstate, haction, hturn⟩
    · rw [hsame]
      exact ⟨t, ht, h⟩
    · rw [hturn, ht]
      rw [← hstate] at h ⊢
      by_cases hpoll : l.action = .runPoll
      · obtain ⟨mem, hmem⟩ := h.poll_mem hl hpoll
        obtain ⟨t', mem', out, hrun, hmem', hvalid', hout⟩ :=
          (@mp3PlayerRunPollAlloc_spec allocated env remain readLen mem t hmem (h.valid mem hmem)).1
            fun pcm hdecodes => hfits (hpoll ▸ haction) t mem pcm ht hdecodes
        have hrun' : mp3PlayerRunAlloc allocated env remain readLen seekTo l.action (some t) = (some t', out) := by
          simp only [mp3PlayerRunAlloc, if_pos hpoll, hrun]
        rw [hrun']
        refine ⟨t', rfl, ?_, fun hnone => absurd (hmem'.symm.trans hnone) (Option.some_ne_none _), ?_⟩
        · have hstate := h.state_mem
          dsimp only
          split
          case isTrue hmoves =>
            rcases hout with rfl | rfl
            · decide
            · exact absurd rfl hmoves.1
          case isFalse => exact hstate
        · intro mem₁ hmem₁
          obtain rfl := Option.some.inj (hmem'.symm.trans hmem₁)
          exact hvalid'
      · obtain ⟨t', out, hrun, h'⟩ := @mp3PlayerRun_buffered t env remain readLen seekTo l hl hpoll h
        have hrun' : mp3PlayerRunAlloc allocated env remain readLen seekTo l.action (some t) = (some t', out) := by
          simp only [mp3PlayerRunAlloc, if_neg hpoll, hrun]
        rw [hrun']
        exact ⟨t', rfl, h'⟩

/-- What is gone stays gone. -/
theorem Mp3AllocStep.none (hstep : Mp3AllocStep s a u) (hs : s.dec = none) : u.dec = none := by
  cases hstep with
  | start => exact congrArg (Option.map _) hs
  | turn =>
    rw [DecoderSys.turn_dec, hs]
    split <;> rfl

/-- After a poll whose frame does not fit, nothing is known of the decoder. -/
theorem Mp3Source.Buffered.lost {events : Word} {mem : Mp3DecoderMemory} {pcm : MadPcm} (ht : s.dec = some t)
    (h : t.Buffered s.curState) (haction : decoderTurnAction mp3DecoderLookup s.curState events = some .runPoll)
    (hdecodes : t.Decodes env readLen mem pcm) (hnot : ¬ FrameFits allocated mem pcm) :
    (s.turn (mp3PlayerRunAlloc allocated env remain readLen seekTo) mp3DecoderLookup events).dec = none := by
  have hnone := (@mp3PlayerRunPollAlloc_spec allocated env remain readLen mem t hdecodes.mem_eq
    (h.valid mem hdecodes.mem_eq)).2 pcm hdecodes hnot
  rw [DecoderSys.turn_dec, haction, ht]
  simp only [mp3PlayerRunAlloc, hnone, if_true]

/-- A step that keeps the decoder is one whose frame fits. -/
theorem Mp3Source.Buffered.fits (hstep : Mp3AllocStep s a u) (ht : s.dec = some t) (h : t.Buffered s.curState)
    (hu : u.dec ≠ none) : a.Fits s := by
  cases hstep with
  | start => exact trivial
  | @turn allocated env remain readLen seekTo events =>
    intro haction t' mem pcm ht' hdecodes
    obtain rfl := Option.some.inj (ht.symm.trans ht')
    by_contra hnot
    exact hu (h.lost ht haction hdecodes hnot)

theorem mp3Source_buffered (hrun : Steps (Restrict Mp3AllocStep fun s a => a.Fits s) mp3SourceInit acts s) :
    ∃ t, s.dec = some t ∧ t.Buffered s.curState := by
  refine hrun.invariant (I := fun s => ∃ t, s.dec = some t ∧ t.Buffered s.curState) ?_ ?_
  · rintro s a u ⟨t, ht, h⟩ ⟨hstep, hfits⟩
    exact h.step hstep ht hfits
  · exact ⟨{}, rfl, .head _, fun _ => rfl, by intro _ h; cases h⟩

/-- A run that has not left the block is one whose frames all fit. -/
theorem mp3Source_fits (hrun : Steps Mp3AllocStep mp3SourceInit acts s) (hs : s.dec ≠ none) :
    Steps (Restrict Mp3AllocStep fun s a => a.Fits s) mp3SourceInit acts s := by
  induction hrun with
  | nil => exact .nil
  | @snoc s u acts a hrun hstep ih =>
    have hrest := ih fun hnone => hs (hstep.none hnone)
    obtain ⟨t, ht, h⟩ := mp3Source_buffered hrest
    exact .snoc hrest ⟨hstep, h.fits hstep ht hs⟩

end

/-- **The fill loops stay in the block exactly as long as every frame fits.** In a run of the task on any sets of
events, with any input, frames and takings of the output callback, nothing has been written behind the output
buffer's block, and its positions are in order and in it, if and only if each poll that came to a frame had a
block large enough for it or got one. -/
theorem mp3Decoder_inBlock_iff {acts : List Mp3AllocAct} {s : DecoderSys Mp3Source}
    (hrun : Steps Mp3AllocStep mp3SourceInit acts s) :
    s.InBlock ↔ Steps (Restrict Mp3AllocStep fun s a => a.Fits s) mp3SourceInit acts s := by
  constructor
  · rintro ⟨t, ht, -⟩
    exact mp3Source_fits hrun (by rw [ht]; exact Option.some_ne_none t)
  · intro hfits
    obtain ⟨t, ht, h⟩ := mp3Source_buffered hfits
    exact h.inBlock ht

/-- A frame of 4608 bytes of PCM. -/
def stereoFrame : MadPcm where
  samples _ _ := 0
  channels := 2
  length := 1152
  samplerate := 32000
  bitrate := 128000
  channels_le := Nat.le_refl 2
  length_le := Nat.le_refl 1152

def stereoEnv : Mp3Env := ⟨takesAll, takesAll, 0, 0, .ok stereoFrame⟩

/-- The decoder is started, and its first poll decodes a stereo frame. -/
def stereoActs (allocated : Bool) : List Mp3AllocAct :=
  [.turn true stereoEnv 0 1 0 mp3DecoderEventStart, .turn allocated stereoEnv 0 1 0 0]

def stereoStarted : DecoderSys Mp3Source :=
  mp3SourceInit.turn (mp3PlayerRunAlloc true stereoEnv 0 1 0) mp3DecoderLookup mp3DecoderEventStart

theorem stereo_run (allocated : Bool) : Steps Mp3AllocStep mp3SourceInit (stereoActs allocated)
    (stereoStarted.turn (mp3PlayerRunAlloc allocated stereoEnv 0 1 0) mp3DecoderLookup 0) :=
  .snoc (.snoc .nil .turn) .turn

theorem mp3Decoder_inBlock_iff_stereo :
    (stereoStarted.turn (mp3PlayerRunAlloc true stereoEnv 0 1 0) mp3DecoderLookup 0).InBlock ↔
      Steps (Restrict Mp3AllocStep fun s a => a.Fits s) mp3SourceInit (stereoActs true)
        (stereoStarted.turn (mp3PlayerRunAlloc true stereoEnv 0 1 0) mp3DecoderLookup 0) :=
  mp3Decoder_inBlock_iff (stereo_run true)

/-- The first poll does not get the 4608 bytes it asks for, and fills the 512 there are. -/
theorem mp3Decoder_leaves_block :
    ¬ ∀ acts s, Steps Mp3AllocStep mp3SourceInit acts s → s.InBlock := by
  intro h
  obtain ⟨t, ht, -⟩ := h _ _ (stereo_run false)
  have hbuffered : ({ dec := { mem := some {} } } : Mp3Source).Buffered stereoStarted.curState := by
    refine ⟨by decide, fun hnone => absurd hnone (Option.some_ne_none _), ?_⟩
    rintro _ ⟨⟩
    exact (directBufferCreate_spec (by decide)).1
  have hdecodes : ({ dec := { mem := some {} } } : Mp3Source).Decodes stereoEnv 1 {} stereoFrame :=
    ⟨rfl, .inl (by decide), .inr ⟨rfl, by decide, by decide⟩, rfl⟩
  have hnot : ¬ FrameFits false {} stereoFrame := by
    rintro (h | h)
    · cases h
    · exact absurd h (by decide)
  have hlost := @Mp3Source.Buffered.lost stereoStarted _ false stereoEnv 0 1 0 0 _ _ rfl hbuffered (by decide) hdecodes
    hnot
  rw [hlost] at ht
  cases ht

end AudioPlayer

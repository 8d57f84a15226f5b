import Mathlib
import AudioPlayer.Lib.Bytes
import AudioPlayer.RingBufferSpsc

/-!
# From the decoder to the sound card (`src/samplerate_convert.c`, `src/common_player.c`)

The decoder thread resamples what it decoded and pushes it into `com_player.output_buffer`; the PCM thread
asks for blocks and pops them. With two channels a frame is four bytes, and nothing in the code checks that
a block starts with one: a single byte too many or too few would swap the channels from there on.

The two threads run on the ring of `RingBufferSpsc`, statement by statement, so that a request may come
between the free count that bounds a conversion and the push of its result, and a push between the count a
request reads and its pop. The float samples and the ratio are read by nothing but `src_process`, which may
answer with any frames it has room for.

| here | there |
|---|---|
| `ConvertPc` | the decoder thread inside `samplerate_convert_process` (`samplerate_convert.c:112-187`) |
| `RequestPc` | the PCM thread inside `__pcm_trans_data_request_callback` (`common_player.c:413-462`), or the player thread while `com_player_seek` clears the ring |
| `PcmFrame` | a left and a right sample of `src_process`, as `int16_t` |
| `PcmBlock` | what a request was answered with |
-/

namespace AudioPlayer
open Lib

def comPlayerFixedChannels : Int := 2
def comPlayerOutputSize : Nat := 32 * 1024
def samplerateConvertInputSize : Int := 1024
def samplerateConvertOutputSize : Int := samplerateConvertInputSize * 2

structure PcmFrame where
  left  : BitVec 16
  right : BitVec 16
deriving DecidableEq, Repr

/-- A frame as it lies in `output_bytes`, left before right, each sample with its lower byte first
(`samplerate_convert.c:173-177`). -/
def PcmFrame.bytes (f : PcmFrame) : List Byte := le16 f.left ++ le16 f.right

/-- `output_bytes` (`samplerate_convert.c:171-178`). -/
def outputBytes (frames : List PcmFrame) : List Byte := frames.flatMap PcmFrame.bytes

/-- What `samplerate_convert_input_stereo` converts of `srcLen` bytes (`samplerate_convert.c:87-91`, `:108-109`):
how many frames, and how many bytes they were. -/
def samplerateConvertInputStereo (srcLen dstLen channels : Int) : Int × Int :=
  let frameSize := 2 * channels
  let frameCount := srcLen.tdiv frameSize
  let frameCount := if frameCount > dstLen then dstLen else frameCount
  (frameCount, frameCount * frameSize)

/-- Arguments of `samplerate_convert_process` and how much of them is done. -/
structure ConvertCall where
  channels : Int
  len      : Int
  consumed : Int := 0
deriving DecidableEq, Repr

/-- The next statement of `samplerate_convert_process`. -/
inductive ConvertPc
  | idle
  /-- At the head of the loop (`:129`). -/
  | loop (call : ConvertCall)
  /-- The free space is known and enough for a frame (`:135`). -/
  | convert (call : ConvertCall) (outputFrames : Int)
  /-- Inside `ring_buffer_push` (`:180`). -/
  | push (call : ConvertCall)

/-- The loop goes on only with room for a frame (`samplerate_convert.c:130-133`). -/
def convertLoop (call : ConvertCall) (free : Int) : ConvertPc :=
  let outputFrames := (free.tdiv comPlayerFixedChannels).tdiv 2
  if outputFrames ≤ 0 then .idle else .convert call outputFrames

/-- How many frames `src_process` may generate (`samplerate_convert.c:152-153`). -/
def convertOutputFrames (outputFrames : Int) : Int :=
  let most := samplerateConvertOutputSize.tdiv comPlayerFixedChannels
  if outputFrames > most then most else outputFrames

/-- The bytes and frames that are in before `src_process` is called (`samplerate_convert.c:129`, `:144-155`). -/
def convertInput (call : ConvertCall) (inputFrames : Int) : ConvertCall × Int :=
  let room := samplerateConvertInputSize.tdiv comPlayerFixedChannels - inputFrames
  let (frames, used) := samplerateConvertInputStereo (call.len - call.consumed) room call.channels
  ({ call with consumed := call.consumed + used }, inputFrames + frames)

/-- Where the loop goes after a push (`samplerate_convert.c:182-183`). -/
def convertPushed (call : ConvertCall) : ConvertPc := if call.consumed ≥ call.len then .idle else .loop call

/-- The next statement of `__pcm_trans_data_request_callback`, with its locals; `before` is how much had been
popped when the pop began. -/
inductive RequestPc
  | idle
  | entered (size : Int)
  | counted (size ringCount : Int)
  | ready (size ringCount ringFree : Int)
  | pop (size silence ringCount ringFree : Int) (outputDone : Bool) (before : Nat)
  /-- `com_player_seek` is clearing the ring, with the PCM thread stopped. -/
  | clear

/-- `not_enough_th` (`common_player.c:417`). -/
def notEnoughTh (size : Int) : Int := toU32 (((size.tdiv 3).tdiv 4) * 4)

/-- How much silence comes first (`common_player.c:437-440`): `ring_count` is compared as unsigned. -/
def requestSilence (consumed size ringCount : Int) : Int :=
  if consumed ≤ 0 ∧ toU32 ringCount < notEnoughTh size then notEnoughTh size else 0

/-- The answer to a request: the first `count` bytes of `buf`, and what it told the other threads. -/
structure PcmBlock where
  size   : Int
  bytes  : List (Option Byte)
  /-- `pcm_trans_set_tx_no_data` was called (`:432`). -/
  noData : Bool
  /-- The decoder was resumed (`:449-459`). -/
  resume : Bool

/-- The ring with its two threads, and what both have done so far. -/
structure ComPlayerOutput where
  spsc        : RingSpsc Byte
  convert     : ConvertPc := .idle
  /-- `src_data.input_frames` -/
  inputFrames : Int := 0
  request     : RequestPc := .idle
  consumed    : Int := 0
  frames      : List PcmFrame := []
  blocks      : List PcmBlock := []

/-- One statement of one of the threads. -/
inductive PcmStep : ComPlayerOutput → Unit → ComPlayerOutput → Prop
  /-- `__decoder_output_callback` (`common_player.c:390`), of any size and rate. -/
  | output {s : ComPlayerOutput} {channels len : Int} (hidle : s.convert = .idle)
    (hchannels : channels = 1 ∨ channels = 2) :
    PcmStep s () { s with convert := .loop { channels, len } }
  /-- The free count (`samplerate_convert.c:130`). -/
  | free {s : ComPlayerOutput} {call : ConvertCall} {free : Int} (hpc : s.convert = .loop call)
    (hfree : ringBufferGetFreeCount s.spsc.ring = some free) :
    PcmStep s () { s with convert := convertLoop call free }
  /-- `src_process` used no frame (`:160-165`): nothing is pushed, whatever it generated. -/
  | unused {s : ComPlayerOutput} {call : ConvertCall} {outputFrames used : Int}
    (hpc : s.convert = .convert call outputFrames) (hused : used ≤ 0) :
    PcmStep s () { s with
      convert := .idle, inputFrames := (convertInput call s.inputFrames).2 - used }
  /-- `src_process` used and generated frames, which are given to `ring_buffer_push` (`:160-180`). -/
  | process {s : ComPlayerOutput} {call : ConvertCall} {outputFrames used : Int} {frames : List PcmFrame}
    {spsc : RingSpsc Byte} {h : (outputBytes frames).length < 4294967296}
    (hpc : s.convert = .convert call outputFrames) (hused : 0 < used)
    (hgen : frames.length ≤ convertOutputFrames outputFrames)
    (hpush : SpscStep s.spsc (.push ⟨outputBytes frames, h⟩) spsc) :
    PcmStep s () { s with
      convert := .push (convertInput call s.inputFrames).1
      inputFrames := (convertInput call s.inputFrames).2 - used
      spsc, frames := s.frames ++ frames }
  | pushed {s : ComPlayerOutput} {call : ConvertCall} (hpc : s.convert = .push call)
    (hret : s.spsc.producer = .idle) : PcmStep s () { s with convert := convertPushed call }
  | producer {s : ComPlayerOutput} {spsc : RingSpsc Byte} (h : SpscStep s.spsc .producer spsc) :
    PcmStep s () { s with spsc }
  | consumer {s : ComPlayerOutput} {spsc : RingSpsc Byte} (h : SpscStep s.spsc .consumer spsc) :
    PcmStep s () { s with spsc }
  /-- `pcm_trans_tx_run_poll` asks for a block (`pcm_trans.c:89`). -/
  | request {s : ComPlayerOutput} {size : Int} (hidle : s.request = .idle) (hsize : 0 ≤ size)
    (hint : size < 2147483648) (hframes : 4 ∣ size) : PcmStep s () { s with request := .entered size }
  | ringCount {s : ComPlayerOutput} {size ringCount : Int} (hpc : s.request = .entered size)
    (hcount : ringBufferGetCount s.spsc.ring = some ringCount) :
    PcmStep s () { s with request := .counted size ringCount }
  | ringFree {s : ComPlayerOutput} {size ringCount ringFree : Int} (hpc : s.request = .counted size ringCount)
    (hfree : ringBufferGetFreeCount s.spsc.ring = some ringFree) :
    PcmStep s () { s with request := .ready size ringCount ringFree }
  /-- The decoder is done and the ring empty (`common_player.c:431-434`). -/
  | noData {s : ComPlayerOutput} {size ringCount ringFree : Int} (hpc : s.request = .ready size ringCount ringFree)
    (hcount : ringCount ≤ 0) :
    PcmStep s () { s with request := .idle, blocks := s.blocks ++ [⟨size, [], true, false⟩] }
  /-- Silence, then the call of `ring_buffer_pop` (`:437-442`). -/
  | pop {s : ComPlayerOutput} {size ringCount ringFree : Int} {outputDone : Bool} {n : Fin 4294967296}
    {spsc : RingSpsc Byte} (hpc : s.request = .ready size ringCount ringFree)
    (hdone : ¬ (outputDone = true ∧ ringCount ≤ 0))
    (hn : (n : Nat) = toU32 (size - requestSilence s.consumed size ringCount))
    (hpop : SpscStep s.spsc (.pop true n) spsc) :
    PcmStep s () { s with
      spsc
      request := .pop size (requestSilence s.consumed size ringCount) ringCount ringFree outputDone
        s.spsc.popped.length }
  /-- `ring_buffer_pop` has returned (`:444-461`). -/
  | popped {s : ComPlayerOutput} {size silence ringCount ringFree : Int} {outputDone enabled : Bool} {before : Nat}
    (hpc : s.request = .pop size silence ringCount ringFree outputDone before) (hret : s.spsc.consumer = .idle) :
    PcmStep s () { s with
      request := .idle
      consumed := toU32 (s.consumed + (s.spsc.popped.drop before).length)
      blocks := s.blocks ++ [⟨size, List.replicate silence.toNat (some 0) ++ s.spsc.popped.drop before, false,
        !outputDone && enabled && decide (ringCount - (s.spsc.popped.drop before).length <
          ringFree + (s.spsc.popped.drop before).length)⟩] }
  /-- `com_player_seek` (`common_player.c:211-255`) between `com_player_pause` and `com_player_resume`
  (`audio_player_process.c:142-144`): no request is being answered; the decoder may be pushing. In
  `com_player_stop` both threads are stopped. -/
  | seek {s : ComPlayerOutput} {consumed : Int} {spsc : RingSpsc Byte} (hidle : s.request = .idle)
    (hclear : SpscStep s.spsc .clear spsc) :
    PcmStep s () { s with spsc, request := .clear, consumed }
  | cleared {s : ComPlayerOutput} (hpc : s.request = .clear) (hret : s.spsc.consumer = .idle) :
    PcmStep s () { s with request := .idle }
  /-- `com_player_start` of the next track, with a new converter (`common_player.c:76-90`). -/
  | start {s : ComPlayerOutput} (hconvert : s.convert = .idle) (hrequest : s.request = .idle) :
    PcmStep s () { s with inputFrames := 0, consumed := 0 }

/-! ## Whole frames -/

@[simp] theorem length_frame_bytes (f : PcmFrame) : f.bytes.length = 4 := rfl

@[simp] theorem length_outputBytes (frames : List PcmFrame) : (outputBytes frames).length = 4 * frames.length := by
  induction frames with
  | nil => rfl
  | cons f frames ih =>
    rw [outputBytes, List.flatMap_cons, List.length_append, length_frame_bytes, ← outputBytes, ih,
      List.length_cons]
    omega

theorem outputBytes_append (xs ys : List PcmFrame) : outputBytes (xs ++ ys) = outputBytes xs ++ outputBytes ys :=
  List.flatMap_append

theorem outputBytes_drop (frames : List PcmFrame) (n : Nat) :
    (outputBytes frames).drop (4 * n) = outputBytes (frames.drop n) := by
  by_cases hn : n ≤ frames.length
  · have hlen : (outputBytes (frames.take n)).length = 4 * n := by
      rw [length_outputBytes, List.length_take, Nat.min_eq_left hn]
    conv_lhs => rw [← List.take_append_drop n frames, outputBytes_append, ← hlen]
    exact List.drop_left
  · rw [List.drop_eq_nil_of_le (by rw [length_outputBytes]; omega), List.drop_eq_nil_of_le (by omega)]
    rfl

theorem outputBytes_take (frames : List PcmFrame) (n : Nat) :
    (outputBytes frames).take (4 * n) = outputBytes (frames.take n) := by
  by_cases hn : n ≤ frames.length
  · have hlen : (outputBytes (frames.take n)).length = 4 * n := by
      rw [length_outputBytes, List.length_take, Nat.min_eq_left hn]
    conv_lhs => rw [← List.take_append_drop n frames, outputBytes_append, ← hlen]
    exact List.take_left
  · rw [List.take_of_length_le (by rw [length_outputBytes]; omega), List.take_of_length_le (by omega)]

theorem silence_frames (n : Nat) :
    List.replicate (4 * n) (some (0 : Byte)) = (outputBytes (List.replicate n ⟨0, 0⟩)).map some := by
  induction n with
  | zero => rfl
  | succ n ih =>
    have hsucc : List.replicate (n + 1) (⟨0, 0⟩ : PcmFrame) = List.replicate n ⟨0, 0⟩ ++ [⟨0, 0⟩] :=
      List.replicate_succ'
    rw [show 4 * (n + 1) = 4 * n + 4 by omega, List.replicate_add, ih, hsucc, outputBytes_append, List.map_append]
    rfl

/-- The block is silence and then frames of the stream, one after the other, each from its left sample on. -/
structure PcmBlock.Aligned (frames : List PcmFrame) (b : PcmBlock) : Prop where
  length_le : (b.bytes.length : Int) ≤ b.size
  whole     : 4 ∣ b.bytes.length
  starts    : ∃ silent skipped n, skipped + n ≤ frames.length ∧
    b.bytes = (outputBytes (List.replicate silent ⟨0, 0⟩ ++ (frames.drop skipped).take n)).map some

structure ComPlayerOutput.Aligned (s : ComPlayerOutput) : Prop where
  count : ∃ count, ringBufferGetCount s.spsc.ring = some count ∧ 4 ∣ count
  /-- No push is cut: what is about to be stored is all that was given. -/
  push_whole : ∀ src count, s.spsc.producer = .store src count → count = src.length
  blocks : ∀ b, b ∈ s.blocks → b.Aligned s.frames

/-! ## The invariant -/

/-- What is given to a push that has not returned. -/
def SpscPush.source {α : Type} : SpscPush α → List α
  | .idle => []
  | .entered src => src
  | .sized src _ => src
  | .copy src _ _ => src
  | .copyRest src _ _ => src
  | .store src _ => src

/-- The consumer takes at most `n` bytes in this call, of which `moved` are taken. -/
def SpscPop.AtMost {α : Type} (n moved : Int) : SpscPop α → Prop
  | .idle => moved ≤ n
  | .entered _ size => moved = 0 ∧ size = n
  | .sized _ size _ => moved = 0 ∧ size = n
  | .copy _ count => moved = 0 ∧ count ≤ n
  | .copyRest _ _ count => moved = 0 ∧ count ≤ n
  | .store _ count => moved = 0 ∧ count ≤ n
  | .clear => False
  | .clearStore _ => False

def comPlayerCells : Nat := comPlayerOutputSize + 1

/-- The decoder thread is in no push unless it called one, and what it may generate fits. -/
def ConvertPc.Ok (s : RingSpsc Byte) : ConvertPc → Prop
  | .idle => s.producer = .idle
  | .loop _ => s.producer = .idle
  | .convert _ outputFrames => s.producer = .idle ∧
      (s.pushed.length : Int) + 4 * outputFrames < s.popped.length + comPlayerCells
  | .push _ => True

/-- The consumer is in no call unless a request made one, and takes no more than was asked for. -/
def RequestPc.Ok (s : RingSpsc Byte) : RequestPc → Prop
  | .idle => s.consumer = .idle
  | .entered size => s.consumer = .idle ∧ 0 ≤ size ∧ size < 2147483648 ∧ 4 ∣ size
  | .counted size _ => s.consumer = .idle ∧ 0 ≤ size ∧ size < 2147483648 ∧ 4 ∣ size
  | .ready size _ _ => s.consumer = .idle ∧ 0 ≤ size ∧ size < 2147483648 ∧ 4 ∣ size
  | .pop size silence _ _ _ before => 0 ≤ silence ∧ 4 ∣ silence ∧ 4 ∣ before ∧ before ≤ s.popped.length ∧
      s.consumer.AtMost (size - silence) (s.popped.length - before)
  | .clear => True

structure ComPlayerOutput.Inv (s : ComPlayerOutput) : Prop where
  ring    : s.spsc.Inv comPlayerCells
  whole   : s.spsc.Whole 4 comPlayerCells
  convert : s.convert.Ok s.spsc
  request : s.request.Ok s.spsc
  stream  : s.spsc.pushed ++ s.spsc.producer.source = outputBytes s.frames
  blocks  : ∀ b, b ∈ s.blocks → b.Aligned s.frames

section
variable {g S W R : Nat} {n moved : Int} {k : Nat}

theorem PushTurn.source {α : Type} {p p' : SpscPush α} {xs : List α} (h : PushTurn S W R p p' xs)
    (hfits : p.Fits g S W R) : xs ++ p'.source = p.source := by
  cases h with
  | store =>
    obtain ⟨-, rfl⟩ := hfits
    simp [SpscPush.source]
  | _ => rfl

theorem PopTurn.atMost {α : Type} {c c' : SpscPop α} (h : PopTurn S W R c c' k) (hc : c.AtMost n moved) :
    c'.AtMost n (moved + k) := by
  have h0 : moved + ((0 : Nat) : Int) = moved := by omega
  cases h with
  | @sized dst size tmp =>
    obtain ⟨hmoved, rfl⟩ := hc
    have hmin : ((min (W - R) size : Nat) : Int) ≤ size := by omega
    rw [h0]
    cases dst
    · exact ⟨hmoved, hmin⟩
    · exact ⟨hmoved, hmin⟩
  | store =>
    obtain ⟨rfl, hcount⟩ := hc
    simpa [SpscPop.AtMost] using hcount
  | clear => exact hc.elim
  | clearStore => exact hc.elim
  | _ => rw [h0]; exact hc

theorem PcmBlock.Aligned.append {frames more : List PcmFrame} {b : PcmBlock} (h : b.Aligned frames) :
    b.Aligned (frames ++ more) := by
  obtain ⟨hle, hwhole, silent, skipped, n, hn, hbytes⟩ := h
  refine ⟨hle, hwhole, silent, skipped, n, by rw [List.length_append]; omega, ?_⟩
  rw [hbytes, List.drop_append_of_le_length (by omega), List.take_append_of_le_length (by simp; omega)]

theorem notEnoughTh_spec {size : Int} (h0 : 0 ≤ size) (h1 : size < 2147483648) :
    0 ≤ notEnoughTh size ∧ notEnoughTh size ≤ size ∧ 4 ∣ notEnoughTh size := by
  have h3 : (size.tdiv 3).tdiv 4 = size / 3 / 4 := by
    rw [Int.tdiv_eq_ediv_of_nonneg h0, Int.tdiv_eq_ediv_of_nonneg (by omega)]
  unfold notEnoughTh
  rw [h3, toU32_eq (by omega) (by omega)]
  omega

theorem requestSilence_spec {consumed size ringCount : Int} (h0 : 0 ≤ size) (h1 : size < 2147483648) :
    0 ≤ requestSilence consumed size ringCount ∧ requestSilence consumed size ringCount ≤ size ∧
      4 ∣ requestSilence consumed size ringCount := by
  unfold requestSilence
  split
  · exact notEnoughTh_spec h0 h1
  · exact ⟨Int.le_refl 0, h0, 0, rfl⟩

theorem tdiv_two_pos {x : Int} (h : 0 < x.tdiv 2) : 2 * x.tdiv 2 ≤ x := by
  rcases Int.le_total 0 x with hx | hx
  · rw [Int.tdiv_eq_ediv_of_nonneg hx] at h ⊢
    omega
  · have hneg := Int.neg_tdiv x 2
    rw [Int.tdiv_eq_ediv_of_nonneg (show 0 ≤ -x by omega)] at hneg
    omega

theorem convertLoop_spec {call call' : ConvertCall} {free outputFrames : Int}
    (h : convertLoop call free = .convert call' outputFrames) : 0 < outputFrames ∧ 4 * outputFrames ≤ free := by
  unfold convertLoop comPlayerFixedChannels at h
  dsimp only at h
  split at h
  · cases h
  · injection h with _ hframes
    subst hframes
    have hframes : 0 < (free.tdiv 2).tdiv 2 := by omega
    have houter := tdiv_two_pos hframes
    have hinner := tdiv_two_pos (x := free) (by omega)
    exact ⟨hframes, by omega⟩

theorem convertOutputFrames_le (outputFrames : Int) : convertOutputFrames outputFrames ≤ outputFrames := by
  unfold convertOutputFrames
  dsimp only
  split <;> omega

end

section
variable {s t : ComPlayerOutput} {spsc : RingSpsc Byte}

theorem ConvertPc.Ok.consumer {ring spsc' : RingSpsc Byte} {pc : ConvertPc} (h : pc.Ok ring)
    (hproducer : spsc'.producer = ring.producer) (hpushed : spsc'.pushed = ring.pushed)
    (hpopped : ring.popped.length ≤ spsc'.popped.length) : pc.Ok spsc' := by
  cases pc with
  | idle => exact hproducer.trans h
  | loop => exact hproducer.trans h
  | convert call outputFrames => exact ⟨hproducer.trans h.1, by have := h.2; rw [hpushed]; omega⟩
  | push => trivial

theorem ComPlayerOutput.Inv.producer (h : s.Inv) (hstep : SpscStep s.spsc .producer spsc) :
    ({ s with spsc } : ComPlayerOutput).Inv := by
  obtain ⟨hring, hwhole, hconvert, hrequest, hstream, hblocks⟩ := h
  refine ⟨hring.step hstep, hwhole.step hring hstep trivial, ?_, ?_, ?_, hblocks⟩ <;>
    cases hstep with | @producer r p hstep => ?_
  · -- outside a push there is nothing to execute
    have hidle : s.spsc.producer = .idle → p = .idle ∧ s.spsc.producer.accepted = [] := by
      intro hidle
      rw [hidle] at hstep ⊢
      exact ⟨(Prod.mk.inj (Option.some.inj hstep)).2.symm, rfl⟩
    cases hpc : s.convert with
    | idle => rw [hpc] at hconvert; exact (hidle hconvert).1
    | loop => rw [hpc] at hconvert; exact (hidle hconvert).1
    | convert call outputFrames =>
      rw [hpc] at hconvert
      obtain ⟨hp, hacc⟩ := hidle hconvert.1
      refine ⟨hp, ?_⟩
      dsimp only
      rw [hacc, List.append_nil]
      exact hconvert.2
    | push => trivial
  · cases hpc : s.request <;> rw [hpc] at hrequest <;> exact hrequest
  · dsimp only
    rw [List.append_assoc, (pushStep_turn hring.published hring.producer hstep).source hwhole.producer]
    exact hstream

theorem ComPlayerOutput.Inv.consumer (h : s.Inv) (hstep : SpscStep s.spsc .consumer spsc) :
    ({ s with spsc } : ComPlayerOutput).Inv := by
  obtain ⟨hring, hwhole, hconvert, hrequest, hstream, hblocks⟩ := h
  refine ⟨hring.step hstep, hwhole.step hring hstep trivial, ?_, ?_, ?_, hblocks⟩ <;>
    cases hstep with | @consumer r c hstep => ?_
  · exact hconvert.consumer rfl rfl (by simp)
  · have hturn := popStep_turn hring.published hring.consumer hstep
    have hidle : s.spsc.consumer = .idle → c = .idle := by
      intro hidle
      rw [hidle] at hstep
      exact (Prod.mk.inj (Option.some.inj hstep)).2.symm
    cases hpc : s.request with
    | idle => rw [hpc] at hrequest; exact hidle hrequest
    | entered => rw [hpc] at hrequest; exact ⟨hidle hrequest.1, hrequest.2⟩
    | counted => rw [hpc] at hrequest; exact ⟨hidle hrequest.1, hrequest.2⟩
    | ready => rw [hpc] at hrequest; exact ⟨hidle hrequest.1, hrequest.2⟩
    | pop size silence ringCount ringFree outputDone before =>
      rw [hpc] at hrequest
      obtain ⟨h0, h4, hb4, hble, hmost⟩ := hrequest
      have hnext := hturn.atMost hmost
      refine ⟨h0, h4, hb4, by simp only [List.length_append]; omega, ?_⟩
      simp only [List.length_append]
      rw [show ((s.spsc.popped.length + (s.spsc.consumer.taken s.spsc.ring).length : Nat) : Int) - before =
        s.spsc.popped.length - before + (s.spsc.consumer.taken s.spsc.ring).length by omega]
      exact hnext
    | clear => trivial
  · exact hstream

theorem ComPlayerOutput.Inv.popped_eq (h : s.Inv) {before count : Nat}
    (hlen : 4 * (before + count) = s.spsc.popped.length) : before + count ≤ s.frames.length ∧
      s.spsc.popped.drop (4 * before) = (outputBytes ((s.frames.drop before).take count)).map some := by
  have hprefix : s.spsc.popped <+: (outputBytes s.frames).map some := by
    rw [← h.stream, List.map_append]
    exact h.ring.in_order.trans (List.prefix_append _ _)
  have hle := hprefix.length_le
  rw [List.length_map, length_outputBytes] at hle
  refine ⟨by omega, ?_⟩
  rw [List.prefix_iff_eq_take.1 hprefix, ← hlen, ← List.map_take, outputBytes_take, ← List.map_drop,
    outputBytes_drop, List.drop_take, Nat.add_sub_cancel_left]

theorem ComPlayerOutput.Inv.block (h : s.Inv) {size silence ringCount ringFree : Int} {outputDone noData resume : Bool}
    {before : Nat} (hpc : s.request = .pop size silence ringCount ringFree outputDone before)
    (hret : s.spsc.consumer = .idle) :
    PcmBlock.Aligned s.frames
      ⟨size, List.replicate silence.toNat (some 0) ++ s.spsc.popped.drop before, noData, resume⟩ := by
  have hrequest := h.request
  rw [hpc] at hrequest
  obtain ⟨h0, ⟨z, rfl⟩, ⟨b, rfl⟩, hble, hmost⟩ := hrequest
  obtain ⟨m, hm⟩ := h.whole.popped
  rw [hret] at hmost
  have hmost : (s.spsc.popped.length : Int) - (4 * b : Nat) ≤ size - 4 * z := hmost
  obtain ⟨hfit, hpopped⟩ := h.popped_eq (show 4 * (b + (m - b)) = _ by omega)
  have hz : (4 * z).toNat = 4 * z.toNat := by omega
  rw [hz, silence_frames, hpopped, ← List.map_append, ← outputBytes_append]
  refine ⟨?_, ?_, z.toNat, b, m - b, hfit, rfl⟩
  · simp only [List.length_map, length_outputBytes, List.length_append, List.length_replicate, List.length_take,
      List.length_drop]
    omega
  · simp only [List.length_map, length_outputBytes]
    exact Dvd.intro _ rfl

theorem ComPlayerOutput.Inv.step (h : s.Inv) (hstep : PcmStep s () t) : t.Inv := by
  cases hstep with
  | producer hstep => exact h.producer hstep
  | consumer hstep => exact h.consumer hstep
  | output hidle hchannels =>
    have hconvert := h.convert
    rw [hidle] at hconvert
    exact ⟨h.ring, h.whole, hconvert, h.request, h.stream, h.blocks⟩
  | @free call free hpc hfree =>
    have hconvert := h.convert
    rw [hpc] at hconvert
    refine ⟨h.ring, h.whole, ?_, h.request, h.stream, h.blocks⟩
    dsimp only
    have hpub := h.ring.published
    have hlt := hpub.lt
    have hle := hpub.le
    rw [show ringBufferGetFreeCount s.spsc.ring = _ from hpub.circ.free, ← RingBuffer.count, hpub.count,
      hpub.size] at hfree
    have hfree := Option.some.inj hfree
    cases hnext : convertLoop call free with
    | convert call' outputFrames =>
      have := (convertLoop_spec hnext).2
      exact ⟨hconvert, by omega⟩
    | idle => exact hconvert
    | loop => exact hconvert
    | push => trivial
  | unused hpc hused =>
    have hconvert := h.convert
    rw [hpc] at hconvert
    exact ⟨h.ring, h.whole, hconvert.1, h.request, h.stream, h.blocks⟩
  | @process call outputFrames used frames spsc hlen hpc hused hgen hpush =>
    have hconvert := h.convert
    rw [hpc] at hconvert
    obtain ⟨hidle, hfits⟩ := hconvert
    have hgen := hgen.trans (convertOutputFrames_le outputFrames)
    have hact : (SpscAct.push ⟨outputBytes frames, hlen⟩).Whole 4 comPlayerCells s.spsc := by
      refine ⟨⟨frames.length, length_outputBytes frames⟩, ?_⟩
      dsimp only
      rw [length_outputBytes]
      omega
    refine ⟨h.ring.step hpush, h.whole.step h.ring hpush hact, trivial, ?_, ?_,
      fun b hb => (h.blocks b hb).append⟩ <;> cases hpush
    · have hrequest := h.request
      cases hr : s.request <;> rw [hr] at hrequest <;> exact hrequest
    · have hstream := h.stream
      rw [hidle, show (SpscPush.idle : SpscPush Byte).source = [] from rfl, List.append_nil] at hstream
      dsimp only [SpscPush.source]
      rw [hstream, outputBytes_append]
  | @pushed call hpc hret =>
    refine ⟨h.ring, h.whole, ?_, h.request, h.stream, h.blocks⟩
    dsimp only
    unfold convertPushed
    split
    · exact hret
    · exact hret
  | request hidle hsize hint hframes =>
    have hrequest := h.request
    rw [hidle] at hrequest
    exact ⟨h.ring, h.whole, h.convert, ⟨hrequest, hsize, hint, hframes⟩, h.stream, h.blocks⟩
  | ringCount hpc hcount =>
    have hrequest := h.request
    rw [hpc] at hrequest
    exact ⟨h.ring, h.whole, h.convert, hrequest, h.stream, h.blocks⟩
  | ringFree hpc hfree =>
    have hrequest := h.request
    rw [hpc] at hrequest
    exact ⟨h.ring, h.whole, h.convert, hrequest, h.stream, h.blocks⟩
  | @noData size ringCount ringFree hpc hcount =>
    have hrequest := h.request
    rw [hpc] at hrequest
    refine ⟨h.ring, h.whole, h.convert, hrequest.1, h.stream, ?_⟩
    intro b hb
    rcases List.mem_append.1 hb with hb | hb
    · exact h.blocks b hb
    · obtain rfl := List.mem_singleton.1 hb
      exact ⟨hrequest.2.1, dvd_zero 4, 0, 0, 0, Nat.zero_le _, rfl⟩
  | @pop size ringCount ringFree outputDone n spsc hpc hdone hn hpop =>
    have hrequest := h.request
    rw [hpc] at hrequest
    obtain ⟨hidle, h0, hint, h4⟩ := hrequest
    obtain ⟨hs0, hsle, hs4⟩ := @requestSilence_spec s.consumed size ringCount h0 hint
    rw [toU32_eq (by omega) (by omega)] at hn
    have hn4 : 4 ∣ (n : Nat) := by
      have : (4 : Int) ∣ (n : Nat) := by rw [hn]; exact dvd_sub h4 hs4
      omega
    refine ⟨h.ring.step hpop, h.whole.step h.ring hpop hn4, ?_, ?_, ?_, h.blocks⟩ <;> cases hpop
    · exact h.convert.consumer rfl rfl (Nat.le_refl _)
    · exact ⟨hs0, hs4, h.whole.popped, Nat.le_refl _, by simp, hn⟩
    · exact h.stream
  | popped hpc hret =>
    refine ⟨h.ring, h.whole, h.convert, hret, h.stream, ?_⟩
    intro b hb
    rcases List.mem_append.1 hb with hb | hb
    · exact h.blocks b hb
    · obtain rfl := List.mem_singleton.1 hb
      exact h.block hpc hret
  | seek hidle hclear =>
    refine ⟨h.ring.step hclear, h.whole.step h.ring hclear trivial, ?_, trivial, ?_, h.blocks⟩ <;> cases hclear
    · exact h.convert.consumer rfl rfl (Nat.le_refl _)
    · exact h.stream
  | cleared hpc hret => exact ⟨h.ring, h.whole, h.convert, hret, h.stream, h.blocks⟩
  | start hconvert hrequest => exact ⟨h.ring, h.whole, h.convert, h.request, h.stream, h.blocks⟩

theorem ComPlayerOutput.Inv.aligned (h : s.Inv) : s.Aligned := by
  refine ⟨?_, ?_, h.blocks⟩
  · have hpub := h.ring.published
    refine ⟨_, hpub.circ.count, ?_⟩
    rw [← RingBuffer.count, hpub.count]
    exact Int.natCast_dvd_natCast.2 (Nat.dvd_sub h.whole.pushed h.whole.popped)
  · intro src count hstore
    have hfits := h.whole.producer
    rw [hstore] at hfits
    exact hfits.2

end

theorem comPlayerOutput_inv {r : RingBuffer Byte} {t : ComPlayerOutput}
    (hinit : ringBufferInit comPlayerOutputSize = some r) (ht : Reach PcmStep { spsc := RingSpsc.started r } t) :
    t.Inv := by
  obtain ⟨r', hinit', hpub⟩ := @ringBufferInit_published Byte comPlayerOutputSize (by decide)
  obtain rfl := Option.some.inj (hinit.symm.trans hinit')
  have hstart : ComPlayerOutput.Inv { spsc := RingSpsc.started r } :=
    ⟨⟨hpub, trivial, trivial, List.prefix_rfl⟩, ⟨dvd_zero 4, dvd_zero 4, trivial, trivial⟩, rfl, rfl, rfl,
      by intro b hb; cases hb⟩
  exact ht.invariant (fun _ _ _ hi hs => hi.step hs) hstart

/-- **The channels are never swapped**, whatever the two threads do. -/
theorem comPlayerOutput_aligned : ∃ r, ringBufferInit comPlayerOutputSize = some r ∧
    ∀ t, Reach PcmStep { spsc := RingSpsc.started r } t → t.Aligned := by
  obtain ⟨r, hinit, -⟩ := @ringBufferInit_published Byte comPlayerOutputSize (by decide)
  exact ⟨r, hinit, fun t ht => (comPlayerOutput_inv hinit ht).aligned⟩

end AudioPlayer

import Mathlib
import AudioPlayer.Lib.Steps
import AudioPlayer.Lib.Halts
import AudioPlayer.SamplerateConvert

/-!
# Runs of the converter (`src/samplerate_convert.c:83-187`)

With one or two channels a conversion writes two samples for each frame, so that frames and samples stay in step
(`ConvertRun.Ok`). Then every call returns, and what was used and what is pending are together the decoding of all that
was reported as consumed (`samplerateConvert_accounts`). What is generated is pushed, but for a call of `src_process`
that generates without using a frame, behind which the loop is left first (`samplerateConvert_pushes`). With more
channels each frame writes more than two samples, over the end of `input_buffer` (`samplerateConvert_inStep`).
-/

namespace AudioPlayer
open Lib

/-! ## Frames of samples and of bytes -/

section
variable {channels frames : Nat} {src bs cs : List Byte} {xs ys : List (BitVec 16)} {n : Nat}

theorem bufferFrames_append (h : xs.length = 2 * n) : bufferFrames (xs ++ ys) = bufferFrames xs ++ bufferFrames ys := by
  induction n generalizing xs with
  | zero =>
    obtain rfl := List.length_eq_zero_iff.1 h
    rfl
  | succ n ih =>
    match xs, h with
    | left :: right :: xs, h =>
      have hlen : xs.length = 2 * n := by
        simp only [List.length_cons] at h
        omega
      simp only [List.cons_append, bufferFrames, ih hlen]

theorem bufferFrames_length (xs : List (BitVec 16)) : (bufferFrames xs).length = xs.length / 2 := by
  match xs with
  | [] => rfl
  | [_] => simp [bufferFrames]
  | left :: right :: xs =>
    simp only [bufferFrames, List.length_cons, bufferFrames_length xs]
    omega

theorem bufferFrames_take (xs : List (BitVec 16)) (n : Nat) :
    bufferFrames (xs.take (2 * n)) = (bufferFrames xs).take n := by
  match xs, n with
  | [], n => simp [bufferFrames]
  | [_], 0 => rfl
  | [_], n + 1 => rfl
  | left :: right :: xs, 0 => rfl
  | left :: right :: xs, n + 1 =>
    rw [show 2 * (n + 1) = 2 * n + 1 + 1 by omega]
    simp only [List.take_succ_cons, bufferFrames, bufferFrames_take xs n]

theorem bufferFrames_drop (xs : List (BitVec 16)) (n : Nat) :
    bufferFrames (xs.drop (2 * n)) = (bufferFrames xs).drop n := by
  match xs, n with
  | [], n => simp [bufferFrames]
  | [_], 0 => rfl
  | [_], n + 1 =>
    rw [List.drop_eq_nil_of_le (by simp; omega)]
    simp [bufferFrames]
  | left :: right :: xs, 0 => rfl
  | left :: right :: xs, n + 1 =>
    rw [show 2 * (n + 1) = 2 * n + 1 + 1 by omega]
    simp only [List.drop_succ_cons, bufferFrames, bufferFrames_drop xs n]

/-- A source frame is two samples of a mono or stereo source, and else a sample for each channel. -/
theorem stereoSamples_length (channels frames : Nat) (src : List Byte) :
    (stereoSamples channels frames src).length = frames * if channels = 1 then 2 else channels := by
  unfold stereoSamples
  rw [List.length_flatMap]
  split
  · rename_i hmono
    subst hmono
    simp
  · simp

/-- The first frame comes from the first bytes. -/
theorem stereoSamples_succ (channels frames : Nat) (src : List Byte) :
    stereoSamples channels (frames + 1) src =
      stereoSamples channels 1 src ++ stereoSamples channels frames (src.drop (2 * channels)) := by
  unfold stereoSamples
  rw [List.range_succ_eq_map, List.flatMap_cons, List.flatMap_map]
  simp only [List.range_one, List.flatMap_cons, List.flatMap_nil, List.append_nil]
  congr 1
  apply List.flatMap_congr
  intro i _
  apply List.flatMap_congr
  intro j _
  simp only [List.getD_eq_getElem?_getD, List.getElem?_drop]
  rw [show (i + 1) * (2 * channels) + j * 2 = 2 * channels + (i * (2 * channels) + j * 2) by ring,
    show 2 * channels + (i * (2 * channels) + j * 2) + 1 = 2 * channels + (i * (2 * channels) + j * 2 + 1) by ring]

theorem decodeMono_append (h : bs.length = 2 * n) : decodeMono (bs ++ cs) = decodeMono bs ++ decodeMono cs := by
  induction n generalizing bs with
  | zero =>
    obtain rfl := List.length_eq_zero_iff.1 h
    rfl
  | succ n ih =>
    match bs, h with
    | lo :: hi :: bs, h =>
      have hlen : bs.length = 2 * n := by
        simp only [List.length_cons] at h
        omega
      simp only [List.cons_append, decodeMono, ih hlen]

theorem decodeStereo_append (h : bs.length = 4 * n) : decodeStereo (bs ++ cs) = decodeStereo bs ++ decodeStereo cs := by
  induction n generalizing bs with
  | zero =>
    obtain rfl := List.length_eq_zero_iff.1 h
    rfl
  | succ n ih =>
    match bs, h with
    | lo :: hi :: lo' :: hi' :: bs, h =>
      have hlen : bs.length = 4 * n := by
        simp only [List.length_cons] at h
        omega
      simp only [List.cons_append, decodeStereo, ih hlen]

theorem decodePcm_append (hchannels : channels = 1 ∨ channels = 2) (h : bs.length = n * (2 * channels)) :
    decodePcm channels (bs ++ cs) = decodePcm channels bs ++ decodePcm channels cs := by
  rcases hchannels with rfl | rfl
  · exact decodeMono_append (n := n) (by omega)
  · exact decodeStereo_append (n := n) (by omega)

theorem bufferFrames_one (hchannels : channels = 1 ∨ channels = 2) (h : 2 * channels ≤ src.length) :
    bufferFrames (stereoSamples channels 1 src) = decodePcm channels (src.take (2 * channels)) := by
  rcases hchannels with rfl | rfl
  · match src, h with
    | lo :: hi :: src, _ => simp [stereoSamples, bufferFrames, decodePcm, decodeMono]
  · match src, h with
    | lo :: hi :: lo' :: hi' :: src, _ =>
      simp [stereoSamples, List.range_succ, bufferFrames, decodePcm, decodeStereo]

/-- **The conversion decodes.** -/
theorem bufferFrames_stereoSamples (hchannels : channels = 1 ∨ channels = 2)
    (h : frames * (2 * channels) ≤ src.length) :
    bufferFrames (stereoSamples channels frames src) = decodePcm channels (src.take (frames * (2 * channels))) := by
  induction frames generalizing src with
  | zero =>
    rcases hchannels with rfl | rfl <;> simp [stereoSamples, bufferFrames, decodePcm, decodeMono, decodeStereo]
  | succ frames ih =>
    have hone : (stereoSamples channels 1 src).length = 2 * 1 := by
      rw [stereoSamples_length]
      rcases hchannels with rfl | rfl <;> rfl
    have hsplit : (frames + 1) * (2 * channels) = 2 * channels + frames * (2 * channels) := by ring
    rw [hsplit] at h ⊢
    rw [stereoSamples_succ, bufferFrames_append hone, ih (by rw [List.length_drop]; omega), List.take_add,
      decodePcm_append (n := 1) hchannels (by rw [List.length_take]; omega)]
    rw [bufferFrames_one hchannels (by omega)]

end

/-! ## A turn -/

/-- Between two turns. -/
structure SamplerateConvert.Ok (conv : SamplerateConvert) : Prop where
  ring   : conv.ring.Valid
  length : conv.inputBuffer.length = 1024
  frames : 0 ≤ conv.inputFrames ∧ conv.inputFrames ≤ 512

structure Converting.Ok (C : Nat → Prop) (call : Converting) : Prop where
  channels : C call.channels
  consumed : call.consumed ≤ call.buffer.length
  whole    : 2 * call.channels ∣ call.consumed

/-- How many frames a conversion takes: as many as are left, and there is room for. -/
def convertFrames (call : Converting) (conv : SamplerateConvert) : Nat :=
  min ((call.buffer.length - call.consumed) / (2 * call.channels)) (512 - conv.inputFrames.toNat)

section
variable {C : Nat → Prop} {call : Converting} {conv conv' : SamplerateConvert} {used n consumed : Nat} {left : Bool}
  {gen : List PcmFrame} {w : InputWrite} {buf buf' : List (BitVec 16)}

theorem samplerateConvertInput_eq (hok : conv.Ok) (hconsumed : call.consumed ≤ call.buffer.length) :
    samplerateConvertInput call conv =
      { pos := 2 * conv.inputFrames.toNat
        frames := convertFrames call conv
        used := (convertFrames call conv * (2 * call.channels) : Nat)
        samples := stereoSamples call.channels (convertFrames call conv) (call.buffer.drop call.consumed) } := by
  obtain ⟨p, hp⟩ := Int.eq_ofNat_of_zero_le hok.frames.1
  have hmax := hok.frames.2
  have hframes : samplerateConvertInputStereo (call.buffer.length - call.consumed)
      (samplerateConvertInputSize.tdiv comPlayerFixedChannels - conv.inputFrames) call.channels =
        ((convertFrames call conv : Int), ((convertFrames call conv * (2 * call.channels) : Nat) : Int)) := by
    have hroom : samplerateConvertInputSize.tdiv comPlayerFixedChannels = 512 := by decide
    have hdiv : ((call.buffer.length : Int) - call.consumed).tdiv (2 * (call.channels : Int)) =
        ((call.buffer.length - call.consumed) / (2 * call.channels) : Nat) := by
      rw [show (call.buffer.length : Int) - call.consumed = ((call.buffer.length - call.consumed : Nat) : Int) by omega,
        show 2 * (call.channels : Int) = ((2 * call.channels : Nat) : Int) by push_cast; rfl]
      rfl
    unfold samplerateConvertInputStereo convertFrames
    dsimp only
    rw [hroom, hdiv, hp, Int.toNat_natCast]
    generalize (call.buffer.length - call.consumed) / (2 * call.channels) = m
    have hmin : (if (m : Int) > 512 - (p : Int) then 512 - (p : Int) else m) = (min m (512 - p) : Nat) := by
      split <;> omega
    rw [hmin]
    push_cast
    rfl
  unfold samplerateConvertInput
  dsimp only
  rw [hframes]
  dsimp only
  congr 1
  rw [hp]
  unfold comPlayerFixedChannels
  omega

theorem convertFrames_le (call : Converting) (conv : SamplerateConvert) :
    call.consumed + convertFrames call conv * (2 * call.channels) ≤ call.consumed + (call.buffer.length - call.consumed) ∧
      convertFrames call conv + conv.inputFrames.toNat ≤ max 512 conv.inputFrames.toNat := by
  have hdiv := Nat.div_mul_le_self (call.buffer.length - call.consumed) (2 * call.channels)
  have hmin : convertFrames call conv ≤ (call.buffer.length - call.consumed) / (2 * call.channels) := Nat.min_le_left _ _
  have hroom : convertFrames call conv ≤ 512 - conv.inputFrames.toNat := Nat.min_le_right _ _
  have hmul := Nat.mul_le_mul_right (2 * call.channels) hmin
  omega

theorem InputWrite.apply_length (h : w.apply buf = some buf') : buf'.length = buf.length := by
  unfold InputWrite.apply at h
  split at h
  · cases h
    simp only [List.length_append, List.length_take, List.length_drop]
    omega
  · cases h

theorem convertMove_length (h : 2 * (used + n) ≤ buf.length) : (convertMove used n buf).length = buf.length := by
  have htwo : comPlayerFixedChannels.toNat = 2 := by decide
  unfold convertMove
  simp only [htwo, List.length_append, List.length_take, List.length_drop]
  omega

/-- A push of frames that there is room for takes them all. -/
theorem ringBufferPush_frames {ring : RingBuffer Byte} (hring : ring.Valid) (hgen : 4 * gen.length ≤ ring.free) :
    ∃ len ring', ringBufferPush ring (outputBytes gen) = some (len, ring') ∧ ring'.Valid ∧ ring'.size = ring.size ∧
      ring'.cells = ring.cells ++ (outputBytes gen).map some := by
  have hlen := length_outputBytes gen
  have hsmall := hring.circ.small
  have hfree : (ring.free : Int) ≤ ring.size := by
    unfold RingBuffer.free
    have := hring.count_lt
    omega
  obtain ⟨ring', hpush, hvalid, hsize, hcells⟩ := @ringBufferPush_spec _ _ hring (outputBytes gen) (by omega)
  rw [Nat.min_eq_right (by omega), List.take_length] at hcells
  exact ⟨_, ring', hpush, hvalid, hsize, hcells⟩

theorem bufferFrames_convertMove (h : 2 * (used + n) ≤ buf.length) :
    (bufferFrames (convertMove used n buf)).take n = ((bufferFrames buf).drop used).take n := by
  have htwo : comPlayerFixedChannels.toNat = 2 := by decide
  have hlen : ((buf.drop (2 * used)).take (2 * n)).length = 2 * n := by
    simp only [List.length_take, List.length_drop]
    omega
  unfold convertMove
  rw [htwo, Nat.mul_comm used, Nat.mul_comm n, bufferFrames_append hlen, List.take_append_of_le_length, bufferFrames_take,
    bufferFrames_drop, List.take_take, Nat.min_self]
  rw [bufferFrames_length, hlen]
  omega

/-- What a turn leaves that was offered `frames`. -/
structure ConvertTurned (call : Converting) (conv : SamplerateConvert) (frames : List PcmFrame) (used : Nat)
    (gen : List PcmFrame) (left : Bool) (conv' : SamplerateConvert) : Prop where
  ok          : conv'.Ok
  inputFrames : conv'.inputFrames = ((frames.length - used : Nat) : Int)
  pending     : conv'.pending = frames.drop used
  size        : conv'.ring.size = conv.ring.size
  cells       : conv'.ring.cells = conv.ring.cells ++ (outputBytes (if used = 0 then [] else gen)).map some
  left_eq     : left = decide (used = 0 ∨
    call.buffer.length ≤ call.consumed + convertFrames call conv * (2 * call.channels))

/-- Whatever the number of channels, if the conversion writes to the buffer only. -/
theorem convertTurn_spec (hok : conv.Ok) (hconsumed : call.consumed ≤ call.buffer.length)
    (hused : used ≤ conv.inputFrames.toNat + convertFrames call conv) (hgen : 4 * gen.length ≤ conv.ring.free)
    (h : (samplerateConvertInput call conv).apply conv.inputBuffer = some buf) :
    ∃ left conv', convertTurn call used gen conv =
        some (left, call.consumed + convertFrames call conv * (2 * call.channels), conv') ∧
      ConvertTurned call conv ((bufferFrames buf).take (conv.inputFrames.toNat + convertFrames call conv)) used gen left
        conv' := by
  have hbuf : buf.length = 1024 := (InputWrite.apply_length h).trans hok.length
  have hroom := (convertFrames_le call conv).2
  have hpending : conv.inputFrames.toNat ≤ 512 := by
    have := hok.frames.2
    omega
  have hlen : ((bufferFrames buf).take (conv.inputFrames.toNat + convertFrames call conv)).length =
      conv.inputFrames.toNat + convertFrames call conv := by
    rw [List.length_take, bufferFrames_length, hbuf]
    omega
  have hinput : conv.inputFrames = conv.inputFrames.toNat := (Int.toNat_of_nonneg hok.frames.1).symm
  unfold convertTurn
  rw [samplerateConvertInput_eq hok hconsumed] at h ⊢
  simp only [h, Option.bind_eq_bind, Option.bind_some]
  have hconsumed' : ((call.consumed : Int) + ((convertFrames call conv * (2 * call.channels) : Nat) : Int)).toNat =
      call.consumed + convertFrames call conv * (2 * call.channels) := by omega
  have hleft : conv.inputFrames + (convertFrames call conv : Int) - used =
      ((conv.inputFrames.toNat + convertFrames call conv - used : Nat) : Int) := by omega
  rw [hconsumed', hleft]
  generalize hf : convertFrames call conv = f at *
  generalize hp : conv.inputFrames.toNat = p at *
  split
  · rename_i hzero
    obtain rfl : used = 0 := by omega
    refine ⟨_, _, rfl, ?_⟩
    constructor
    · exact ⟨hok.ring, hbuf, by dsimp only; omega⟩
    · rw [hlen]
    · rfl
    · rfl
    · simp [outputBytes]
    · simp
  · rename_i hpos
    obtain ⟨len, ring', hpush, hvalid, hsize, hcells⟩ := ringBufferPush_frames hok.ring hgen
    simp only [hpush, Option.bind_some]
    refine ⟨_, _, rfl, ?_⟩
    constructor
    · refine ⟨hvalid, ?_, by dsimp only; omega⟩
      dsimp only
      rw [Int.toNat_natCast, convertMove_length (by omega), hbuf]
    · rw [hlen]
    · unfold SamplerateConvert.pending
      dsimp only
      rw [Int.toNat_natCast, bufferFrames_convertMove (by omega), List.drop_take]
    · exact hsize
    · rw [if_neg (by omega)]
      exact hcells
    · rw [hf]
      simp only [show used ≠ 0 by omega, false_or]

/-- With one or two channels the conversion writes what it decodes, and to the buffer only. -/
theorem samplerateConvertInput_stereo (hok : conv.Ok) (hconsumed : call.consumed ≤ call.buffer.length)
    (hchannels : call.channels = 1 ∨ call.channels = 2) :
    ∃ buf, (samplerateConvertInput call conv).apply conv.inputBuffer = some buf ∧
      (bufferFrames buf).take (conv.inputFrames.toNat + convertFrames call conv) = convertOffered call conv ∧
      bufferFrames (samplerateConvertInput call conv).samples =
        decodePcm call.channels ((call.buffer.drop call.consumed).take (convertFrames call conv * (2 * call.channels))) := by
  obtain ⟨hbytes, hroom⟩ := convertFrames_le call conv
  have hmax := hok.frames.2
  have hbuf := hok.length
  unfold convertOffered SamplerateConvert.pending
  rw [samplerateConvertInput_eq hok hconsumed]
  dsimp only
  generalize convertFrames call conv = f at *
  generalize hp : conv.inputFrames.toNat = p at *
  have hsamples : (stereoSamples call.channels f (call.buffer.drop call.consumed)).length = 2 * f := by
    rw [stereoSamples_length]
    rcases hchannels with h | h
    · rw [h, if_pos rfl]
      omega
    · rw [h, if_neg (by omega)]
      omega
  refine ⟨_, if_pos (by dsimp only; omega), ?_, ?_⟩
  · have htake : (conv.inputBuffer.take (2 * p)).length = 2 * p := by
      rw [List.length_take]
      omega
    rw [List.append_assoc, bufferFrames_append htake, bufferFrames_append hsamples, ← List.append_assoc]
    have hfront : (bufferFrames (conv.inputBuffer.take (2 * p)) ++
        bufferFrames (stereoSamples call.channels f (call.buffer.drop call.consumed))).length = p + f := by
      rw [List.length_append, bufferFrames_length, bufferFrames_length, htake, hsamples]
      omega
    rw [List.take_append_of_le_length hfront.ge, List.take_of_length_le hfront.le, bufferFrames_take]
  · rw [bufferFrames_stereoSamples hchannels]
    rw [List.length_drop]
    omega

end

/-! ## Every run -/

/-- One or two channels. -/
def MonoOrStereo (channels : Nat) : Prop := channels = 1 ∨ channels = 2

/-- A run begins: any ring, and nothing converted. -/
def ConvertRun.start (ring : RingBuffer Byte) : ConvertRun := { conv := samplerateConvertAlloc ring }

/-- What holds in every state. -/
structure ConvertRun.Ok (C : Nat → Prop) (s : ConvertRun) : Prop where
  conv  : s.conv.Ok
  call  : ∀ call, s.call = some call → call.Ok C ∧ call.buffer.length < 2147483648
  calls : ∀ call ∈ s.calls, call.Ok C

/-- All that was reported as consumed, and what the call under way will report. -/
def ConvertRun.input (s : ConvertRun) : List PcmFrame := (s.calls ++ s.call.toList).flatMap Converting.frames

/-- **What a step does**, whatever the number of channels. -/
inductive ConvertOutcome (C : Nat → Prop) (s : ConvertRun) : ConvertAct → ConvertRun → Prop
  | enter {channels buffer} : s.call = none → C channels → buffer.length < 2147483648 →
      ConvertOutcome C s (.enter channels buffer)
        { s with conv := { s.conv with srcState := true }, call := some { channels, buffer } }
  | noState {channels buffer} : s.call = none → C channels →
      ConvertOutcome C s (.noState channels buffer) { s with calls := s.calls ++ [{ channels, buffer }] }
  | full {call n out ring} : s.call = some call → ring.Valid → ring.size = s.conv.ring.size →
      out ++ ring.cells = s.conv.ring.cells →
      ConvertOutcome C s (.full n)
        (({ s with conv := { s.conv with ring }, popped := s.popped ++ out } : ConvertRun).after true call)
  | turn {call n gen out ring left conv buf} {used : Nat} : s.call = some call →
      (samplerateConvertInput call s.conv).apply s.conv.inputBuffer = some buf →
      ring.Valid → ring.size = s.conv.ring.size → out ++ ring.cells = s.conv.ring.cells →
      used ≤ s.conv.inputFrames.toNat + convertFrames call s.conv →
      ConvertTurned call { s.conv with ring }
        ((bufferFrames buf).take (s.conv.inputFrames.toNat + convertFrames call s.conv)) used gen left conv →
      ConvertOutcome C s (.turn n used gen)
        (({ s with conv, popped := s.popped ++ out, used := s.used ++ (convertOffered call s.conv).take used } :
            ConvertRun).after left
          { call with consumed := call.consumed + convertFrames call s.conv * (2 * call.channels) })

theorem samplerateConvertAlloc_ok {ring : RingBuffer Byte} (h : ring.Valid) : (samplerateConvertAlloc ring).Ok where
  ring := h
  length := by
    unfold samplerateConvertAlloc samplerateConvertInputSize
    rw [List.length_replicate]
    rfl
  frames := by
    unfold samplerateConvertAlloc
    exact ⟨le_rfl, show (0 : Int) ≤ 512 by omega⟩

section
variable {C : Nat → Prop} {s t : ConvertRun} {a : ConvertAct} {call : Converting} {ring : RingBuffer Byte}
  {n used consumed : Nat} {out : List (Option Byte)} {len free : Int} {gen : List PcmFrame}

/-- There is room for a frame in each four bytes. -/
theorem convertRoom_eq {free : Int} (h : 0 ≤ free) : convertRoom free = free / 4 := by
  have htwo : comPlayerFixedChannels = 2 := rfl
  unfold convertRoom
  rw [htwo, Int.tdiv_eq_ediv_of_nonneg h, Int.tdiv_eq_ediv_of_nonneg (by omega)]
  omega

/-- What the consumer takes, it takes from the front, and then there is room for what `src_process` may generate. -/
theorem pop_room (hvalid : s.conv.ring.Valid) (hn : n < 4294967296)
    (hpop : ringBufferPop s.conv.ring true (n : Nat) = some (out, len, ring))
    (hfree : ringBufferGetFreeCount ring = some free) :
    ring.Valid ∧ ring.size = s.conv.ring.size ∧ out ++ ring.cells = s.conv.ring.cells ∧
      ((gen.length : Int) ≤ convertOutputFrames (convertRoom free) → 4 * gen.length ≤ ring.free) := by
  obtain ⟨ring', hpop', hvalid', hsize, hcells⟩ := ringBufferPop_spec hvalid true hn
  rw [hpop'] at hpop
  cases hpop
  refine ⟨hvalid', hsize, ?_, ?_⟩
  · rw [hcells]
    exact List.take_append_drop _ _
  · intro hgen
    rw [hvalid'.getFreeCount] at hfree
    cases hfree
    have hlt := hvalid'.count_lt
    have hroom := @convertRoom_eq (ring.size - 1 - ring.count) (by omega)
    have hmin : convertOutputFrames (convertRoom (ring.size - 1 - ring.count)) ≤
        convertRoom (ring.size - 1 - ring.count) := by
      unfold convertOutputFrames
      dsimp only
      split <;> omega
    unfold RingBuffer.free
    omega

/-- A turn that has a value wrote to the buffer only. -/
theorem convertTurn_apply {conv conv' : SamplerateConvert} {left : Bool}
    (h : convertTurn call used gen conv = some (left, consumed, conv')) :
    ∃ buf, (samplerateConvertInput call conv).apply conv.inputBuffer = some buf := by
  unfold convertTurn at h
  cases hbuf : (samplerateConvertInput call conv).apply conv.inputBuffer with
  | none =>
    simp only [hbuf, Option.bind_eq_bind, Option.bind_none] at h
    cases h
  | some buf => exact ⟨buf, rfl⟩

theorem ConvertStep.outcome (hs : s.Ok C) (h : ConvertStep C s a t) : ConvertOutcome C s a t := by
  cases h with
  | enter hcall hchannels hlen => exact .enter hcall hchannels hlen
  | noState hcall hchannels _ => exact .noState hcall hchannels
  | full hcall hn hpop hfree _ =>
    obtain ⟨hvalid, hsize, hcells, -⟩ := @pop_room s _ _ _ _ _ [] hs.conv.ring hn hpop hfree
    exact .full hcall hvalid hsize hcells
  | @turn call n gen out len ring free left consumed conv used hcall hn hpop hfree _ hused hgen hturn =>
    obtain ⟨hvalid, hsize, hcells, hroom⟩ := @pop_room s _ _ _ _ _ gen hs.conv.ring hn hpop hfree
    have hok : ({ s.conv with ring } : SamplerateConvert).Ok := ⟨hvalid, hs.conv.length, hs.conv.frames⟩
    have hconsumed := (hs.call call hcall).1.consumed
    have hnonneg := hs.conv.frames.1
    obtain ⟨buf, hbuf⟩ := convertTurn_apply hturn
    rw [samplerateConvertInput_eq hs.conv hconsumed] at hused
    dsimp only at hused
    have hused' : used ≤ s.conv.inputFrames.toNat + convertFrames call s.conv := by omega
    obtain ⟨left', conv', hturn', hturned⟩ := convertTurn_spec hok hconsumed hused' (hroom hgen) hbuf
    rw [hturn'] at hturn
    cases hturn
    exact .turn hcall hbuf hvalid hsize hcells hused' hturned

/-- Every step keeps the invariant. -/
theorem ConvertStep.ok (hs : s.Ok C) (h : ConvertStep C s a t) : t.Ok C := by
  have hreturned : ∀ call, s.call = some call → ∀ call' ∈ s.calls ++ [call], call'.Ok C := by
    intro call hcall call' hmem
    rcases List.mem_append.1 hmem with hmem | hmem
    · exact hs.calls call' hmem
    · obtain rfl := List.mem_singleton.1 hmem
      exact (hs.call _ hcall).1
  cases h.outcome hs with
  | @enter channels buffer hcall hchannels hlen =>
    refine ⟨⟨hs.conv.ring, hs.conv.length, hs.conv.frames⟩, ?_, hs.calls⟩
    intro call hnew
    cases hnew
    exact ⟨⟨hchannels, Nat.zero_le _, dvd_zero _⟩, hlen⟩
  | @noState channels buffer hcall hchannels =>
    refine ⟨hs.conv, hs.call, ?_⟩
    intro call hmem
    rcases List.mem_append.1 hmem with hmem | hmem
    · exact hs.calls call hmem
    · obtain rfl := List.mem_singleton.1 hmem
      exact ⟨hchannels, Nat.zero_le _, dvd_zero _⟩
  | @full call n out ring hcall hvalid hsize hcells =>
    refine ⟨⟨hvalid, hs.conv.length, hs.conv.frames⟩, ?_, hreturned call hcall⟩
    intro call' hnew
    cases hnew
  | @turn call n gen out ring left conv buf used hcall hbuf hvalid hsize hcells hused hturned =>
    obtain ⟨⟨hchannels, hconsumed, hwhole⟩, hlen⟩ := hs.call call hcall
    have hbytes := (convertFrames_le call s.conv).1
    have hcall' : Converting.Ok C
        { call with consumed := call.consumed + convertFrames call s.conv * (2 * call.channels) } := by
      refine ⟨hchannels, ?_, Nat.dvd_add hwhole (Nat.dvd_mul_left _ _)⟩
      dsimp only
      omega
    cases left with
    | false =>
      refine ⟨hturned.ok, ?_, hs.calls⟩
      intro call' hnew
      cases hnew
      exact ⟨hcall', hlen⟩
    | true =>
      refine ⟨hturned.ok, ?_, ?_⟩
      · intro call' hnew
        cases hnew
      · intro call' hmem
        rcases List.mem_append.1 hmem with hmem | hmem
        · exact hs.calls call' hmem
        · obtain rfl := List.mem_singleton.1 hmem
          exact hcall'

theorem convertRun_ok (hring : ring.Valid) (h : Reach (ConvertStep C) (.start ring) s) : s.Ok C := by
  refine h.invariant (I := ConvertRun.Ok C) (fun _ _ _ hs hstep => hstep.ok hs) ?_
  refine ⟨samplerateConvertAlloc_ok hring, ?_, ?_⟩
  · intro call hcall
    cases hcall
  · intro call hmem
    cases hmem

/-! ## What is consumed -/

theorem convertRun_after_input (s : ConvertRun) (left : Bool) (call : Converting) :
    (s.after left call).input = s.calls.flatMap Converting.frames ++ call.frames := by
  unfold ConvertRun.after ConvertRun.input
  cases left <;> simp

/-- `k` more bytes are decoded behind those that were. -/
theorem frames_more (hcall : call.Ok MonoOrStereo) {k : Nat} :
    Converting.frames { call with consumed := call.consumed + k } =
      call.frames ++ decodePcm call.channels ((call.buffer.drop call.consumed).take k) := by
  obtain ⟨m, hm⟩ := hcall.whole
  have hconsumed := hcall.consumed
  unfold Converting.frames
  dsimp only
  rw [List.take_add, decodePcm_append (n := m) hcall.channels]
  rw [List.length_take, Nat.min_eq_left hconsumed, hm, Nat.mul_comm]

theorem ConvertStep.input (hs : s.Ok MonoOrStereo) (hinput : s.used ++ s.conv.pending = s.input)
    (h : ConvertStep MonoOrStereo s a t) : t.used ++ t.conv.pending = t.input := by
  cases h.outcome hs with
  | @enter channels buffer hcall hchannels hlen =>
    have hnone : Converting.frames { channels, buffer } = [] := by
      rcases hchannels with rfl | rfl <;> rfl
    refine Eq.trans hinput ?_
    unfold ConvertRun.input
    rw [hcall]
    simp [hnone]
  | @noState channels buffer hcall hchannels =>
    have hnone : Converting.frames { channels, buffer } = [] := by
      rcases hchannels with rfl | rfl <;> rfl
    refine Eq.trans hinput ?_
    unfold ConvertRun.input
    rw [hcall]
    simp [hnone]
  | @full call n out ring hcall hvalid hsize hcells =>
    rw [convertRun_after_input]
    refine Eq.trans hinput ?_
    unfold ConvertRun.input
    rw [hcall]
    simp
  | @turn call n gen out ring left conv buf used hcall hbuf hvalid hsize hcells hused hturned =>
    have hok := (hs.call call hcall).1
    obtain ⟨buf', hbuf', hoffered, hsamples⟩ := samplerateConvertInput_stereo hs.conv hok.consumed hok.channels
    obtain rfl : buf = buf' := Option.some.inj (hbuf.symm.trans hbuf')
    have hbefore : s.input = s.calls.flatMap Converting.frames ++ call.frames := by
      unfold ConvertRun.input
      rw [hcall]
      simp
    have hafter : ∀ r : ConvertRun, (r.after left
        { call with consumed := call.consumed + convertFrames call s.conv * (2 * call.channels) }).used = r.used ∧
        (r.after left
          { call with consumed := call.consumed + convertFrames call s.conv * (2 * call.channels) }).conv = r.conv := by
      intro r
      unfold ConvertRun.after
      cases left <;> exact ⟨rfl, rfl⟩
    rw [convertRun_after_input, (hafter _).1, (hafter _).2, frames_more hok]
    dsimp only
    rw [hturned.pending, hoffered, List.append_assoc, List.take_append_drop, ← List.append_assoc, ← hbefore, ← hinput,
      ← hsamples, List.append_assoc]
    rfl

/-- How much a call can still do. -/
def ConvertRun.left (s : ConvertRun) : Nat :=
  match s.call with
  | none => 0
  | some call => 1 + s.conv.inputFrames.toNat + (call.buffer.length - call.consumed) / (2 * call.channels)

theorem left_after_true (s : ConvertRun) (call : Converting) : (s.after true call).left = 0 := rfl

theorem left_after_false (s : ConvertRun) (call : Converting) :
    (s.after false call).left =
      1 + s.conv.inputFrames.toNat + (call.buffer.length - call.consumed) / (2 * call.channels) := rfl

theorem ConvertStep.left_lt (hs : s.Ok C) (hcall : s.call ≠ none) (h : ConvertStep C s a t) : t.left < s.left := by
  cases h.outcome hs with
  | enter hnone => exact absurd hnone hcall
  | noState hnone => exact absurd hnone hcall
  | @full call n out ring hcall =>
    rw [left_after_true]
    unfold ConvertRun.left
    rw [hcall]
    exact Nat.lt_add_right _ (Nat.lt_add_right _ Nat.one_pos)
  | @turn call n gen out ring left conv buf used hcall hbuf hvalid hsize hcells hused hturned =>
    have hbefore : s.left =
        1 + s.conv.inputFrames.toNat + (call.buffer.length - call.consumed) / (2 * call.channels) := by
      unfold ConvertRun.left
      rw [hcall]
    rw [hbefore]
    cases left with
    | true =>
      rw [left_after_true]
      exact Nat.lt_add_right _ (Nat.lt_add_right _ Nat.one_pos)
    | false =>
      have hpos := not_or.1 (of_decide_eq_false hturned.left_eq.symm)
      have hinput := hturned.inputFrames
      have hlen : ((bufferFrames buf).take (s.conv.inputFrames.toNat + convertFrames call s.conv)).length ≤
          s.conv.inputFrames.toNat + convertFrames call s.conv := List.length_take_le _ _
      have hmin : convertFrames call s.conv ≤ (call.buffer.length - call.consumed) / (2 * call.channels) :=
        Nat.min_le_left _ _
      have hrest : (call.buffer.length - (call.consumed + convertFrames call s.conv * (2 * call.channels))) /
          (2 * call.channels) = (call.buffer.length - call.consumed) / (2 * call.channels) - convertFrames call s.conv := by
        rw [← Nat.sub_sub, Nat.mul_comm (convertFrames call s.conv), Nat.sub_mul_div]
      rw [left_after_false]
      dsimp only
      rw [hrest, hinput]
      omega

/-- A call can always go on. -/
theorem convertStep_exists (hs : s.Ok MonoOrStereo) (hcall : s.call ≠ none) : ∃ a t, ConvertStep MonoOrStereo s a t := by
  obtain ⟨call, hcall⟩ := Option.ne_none_iff_exists'.1 hcall
  have hok := (hs.call call hcall).1
  obtain ⟨ring, hpop, hvalid, -, -⟩ := ringBufferPop_spec hs.conv.ring true (k := 0) (by omega)
  by_cases hroom : convertRoom (ring.size - 1 - ring.count) ≤ 0
  · exact ⟨_, _, .full hcall (by omega) hpop hvalid.getFreeCount hroom⟩
  · obtain ⟨buf, hbuf, -⟩ := samplerateConvertInput_stereo hs.conv hok.consumed hok.channels
    have hring : ({ s.conv with ring } : SamplerateConvert).Ok := ⟨hvalid, hs.conv.length, hs.conv.frames⟩
    obtain ⟨left, conv', hturn, -⟩ :=
      @convertTurn_spec call _ 0 [] _ hring hok.consumed (Nat.zero_le _) (Nat.zero_le _) hbuf
    have hnonneg := hs.conv.frames.1
    refine ⟨_, _, .turn hcall (by omega) hpop hvalid.getFreeCount (by omega) ?_ ?_ hturn⟩
    · rw [samplerateConvertInput_eq hs.conv hok.consumed]
      dsimp only
      omega
    · have hmost : samplerateConvertOutputSize.tdiv comPlayerFixedChannels = 1024 := by decide
      unfold convertOutputFrames
      dsimp only
      rw [List.length_nil, hmost]
      split <;> omega

end

/-- **Every call returns, what it reports is whole frames of its buffer, and what was used and what is pending is all
that was reported.** -/
theorem samplerateConvert_accounts {ring : RingBuffer Byte} (hring : ring.Valid) {s : ConvertRun}
    (h : Reach (ConvertStep MonoOrStereo) (.start ring) s) :
    Halts (ConvertStep MonoOrStereo) (fun t => t.call = none) s ∧
      (∀ call ∈ s.calls, call.consumed ≤ call.buffer.length ∧ 2 * call.channels ∣ call.consumed) ∧
      s.used ++ s.conv.pending = (s.calls ++ s.call.toList).flatMap Converting.frames := by
  have hs : s.Ok MonoOrStereo := convertRun_ok hring h
  refine ⟨?_, ?_, ?_⟩
  · refine halts_of_measure (I := ConvertRun.Ok MonoOrStereo) ConvertRun.left ?_ ?_ ?_ hs
    · intro t ht hcall
      exact convertStep_exists ht hcall
    · intro t a u ht hstep
      exact hstep.ok ht
    · intro t a u ht _ hcall hstep
      exact hstep.left_lt ht hcall
  · intro call hmem
    exact ⟨(hs.calls call hmem).consumed, (hs.calls call hmem).whole⟩
  · have hinput : s.Ok MonoOrStereo ∧ s.used ++ s.conv.pending = s.input := by
      refine h.invariant (I := fun s => s.Ok MonoOrStereo ∧ s.used ++ s.conv.pending = s.input) ?_ ?_
      · rintro t a u ⟨ht, hinput⟩ hstep
        exact ⟨hstep.ok ht, hstep.input ht hinput⟩
      · exact ⟨convertRun_ok hring (Reach.refl _), rfl⟩
    exact hinput.2

/-- A ring of eight bytes. -/
def eightRing : RingBuffer Byte := ⟨0, 0, 9, List.replicate 9 none⟩

theorem eightRing_valid : eightRing.Valid := by
  refine ⟨⟨by decide, by decide, by decide, by decide, by decide⟩, by decide⟩

/-- A call with two stereo frames, of which one is used; one with a mono frame, in which the other and that one are. -/
def pendingActs : List ConvertAct :=
  [.enter 2 [1, 0, 2, 0, 3, 0, 4, 0], .turn 0 1 [⟨1, 2⟩], .enter 1 [5, 0], .turn 4 2 [⟨3, 4⟩, ⟨5, 5⟩]]

set_option maxRecDepth 20000 in
theorem pendingActs_run : ∃ t, Steps (ConvertStep MonoOrStereo) (.start eightRing) pendingActs t ∧
    t.calls = [⟨2, [1, 0, 2, 0, 3, 0, 4, 0], 8⟩, ⟨1, [5, 0], 2⟩] ∧ t.call = none := by
  have henter : Steps (ConvertStep MonoOrStereo) (.start eightRing) [.enter 2 [1, 0, 2, 0, 3, 0, 4, 0]] _ :=
    .one (.enter rfl (.inr rfl) (by decide))
  have hturn := Steps.snoc henter (show ConvertStep MonoOrStereo _ (.turn 0 1 [⟨1, 2⟩]) _ from
    .turn rfl (by decide) rfl rfl (by decide) (by decide) (by decide) rfl)
  have henter' := Steps.snoc hturn (show ConvertStep MonoOrStereo _ (.enter 1 [5, 0]) _ from
    .enter rfl (.inl rfl) (by decide))
  have hturn' := Steps.snoc henter' (show ConvertStep MonoOrStereo _ (.turn 4 2 [⟨3, 4⟩, ⟨5, 5⟩]) _ from
    .turn rfl (by decide) rfl rfl (by decide) (by decide) (by decide) rfl)
  exact ⟨_, hturn', rfl, rfl⟩

theorem samplerateConvert_accounts_pending :
    ∃ t, t.calls = [⟨2, [1, 0, 2, 0, 3, 0, 4, 0], 8⟩, ⟨1, [5, 0], 2⟩] ∧
      Halts (ConvertStep MonoOrStereo) (fun t => t.call = none) t ∧
      (∀ call ∈ t.calls, call.consumed ≤ call.buffer.length ∧ 2 * call.channels ∣ call.consumed) ∧
      t.used ++ t.conv.pending = [⟨1, 2⟩, ⟨3, 4⟩, ⟨5, 5⟩] := by
  obtain ⟨t, hrun, hcalls, hcall⟩ := pendingActs_run
  obtain ⟨hhalts, hwhole, hframes⟩ := samplerateConvert_accounts eightRing_valid ⟨_, hrun⟩
  refine ⟨t, hcalls, hhalts, hwhole, ?_⟩
  rw [hframes, hcalls, hcall]
  decide

/-! ## What is generated -/

/-- What `src_process` generates in a step. -/
def ConvertAct.generated : ConvertAct → List PcmFrame
  | .turn _ _ gen => gen
  | _ => []

/-- What is pushed in it. -/
def ConvertAct.pushed : ConvertAct → List PcmFrame
  | .turn _ used gen => if used = 0 then [] else gen
  | _ => []

/-- `src_process` generates frames and uses none. -/
def ConvertAct.Unused : ConvertAct → Prop
  | .turn _ used gen => used = 0 ∧ gen ≠ []
  | _ => False

section
variable {C : Nat → Prop} {s t : ConvertRun} {a : ConvertAct} {as : List ConvertAct} {ring : RingBuffer Byte}

/-- The bytes that went into the ring, as far as they are seen. -/
def ConvertRun.stream (s : ConvertRun) : List (Option Byte) := s.popped ++ s.conv.ring.cells

theorem ConvertStep.stream (hs : s.Ok C) (h : ConvertStep C s a t) :
    t.stream = s.stream ++ (outputBytes a.pushed).map some := by
  unfold ConvertRun.stream
  cases h.outcome hs with
  | enter => simp [ConvertAct.pushed, outputBytes]
  | noState => simp [ConvertAct.pushed, outputBytes]
  | @full call n out ring hcall hvalid hsize hcells =>
    show (s.popped ++ out) ++ ring.cells = _
    rw [List.append_assoc, hcells]
    simp [ConvertAct.pushed, outputBytes]
  | @turn call n gen out ring left conv buf used hcall hbuf hvalid hsize hcells hused hturned =>
    have hafter : ∀ r : ConvertRun, ∀ call, (r.after left call).popped = r.popped ∧ (r.after left call).conv = r.conv := by
      intro r call
      unfold ConvertRun.after
      cases left <;> exact ⟨rfl, rfl⟩
    rw [(hafter _ _).1, (hafter _ _).2]
    dsimp only
    rw [hturned.cells, List.append_assoc, ← List.append_assoc out, hcells, ← List.append_assoc]
    rfl

theorem convertRun_stream (hring : ring.Valid) (h : Steps (ConvertStep C) (.start ring) as s) :
    s.stream = ring.cells ++ (outputBytes (as.flatMap ConvertAct.pushed)).map some := by
  refine h.trace (P := fun as s => s.stream = ring.cells ++ (outputBytes (as.flatMap ConvertAct.pushed)).map some) ?_ ?_
  · simp [ConvertRun.stream, ConvertRun.start, samplerateConvertAlloc, outputBytes]
  · intro as t a u hrun hstream hstep
    rw [hstep.stream (convertRun_ok hring ⟨as, hrun⟩), hstream]
    simp [outputBytes]

theorem pushed_length_le (a : ConvertAct) : a.pushed.length ≤ a.generated.length := by
  cases a with
  | turn popped used gen =>
    simp only [ConvertAct.pushed, ConvertAct.generated]
    split
    · exact Nat.zero_le _
    · exact le_rfl
  | _ => exact le_rfl

theorem pushed_eq_iff (a : ConvertAct) : a.pushed.length = a.generated.length ↔ ¬a.Unused := by
  cases a with
  | turn popped used gen =>
    simp only [ConvertAct.pushed, ConvertAct.generated, ConvertAct.Unused]
    by_cases hused : used = 0
    · simp only [hused, if_true, List.length_nil, true_and, ne_eq, not_not]
      exact ⟨fun h => List.length_eq_zero_iff.1 h.symm, fun h => by rw [h]; rfl⟩
    · simp [hused]
  | _ => exact ⟨fun _ h => h, fun _ => rfl⟩

theorem flatMap_pushed_le (as : List ConvertAct) :
    (as.flatMap ConvertAct.pushed).length ≤ (as.flatMap ConvertAct.generated).length := by
  induction as with
  | nil => exact le_rfl
  | cons a as ih =>
    have := pushed_length_le a
    simp only [List.flatMap_cons, List.length_append]
    omega

/-- As much is pushed as is generated exactly if no step loses anything. -/
theorem flatMap_pushed_iff (as : List ConvertAct) :
    (as.flatMap ConvertAct.pushed).length = (as.flatMap ConvertAct.generated).length ↔ ∀ a ∈ as, ¬a.Unused := by
  induction as with
  | nil => simp
  | cons a as ih =>
    have hle := pushed_length_le a
    have hles := flatMap_pushed_le as
    rw [List.forall_mem_cons, ← ih, ← pushed_eq_iff]
    simp only [List.flatMap_cons, List.length_append]
    omega

theorem flatMap_pushed_eq (h : ∀ a ∈ as, ¬a.Unused) : as.flatMap ConvertAct.pushed = as.flatMap ConvertAct.generated := by
  apply List.flatMap_congr
  intro a ha
  cases a with
  | turn popped used gen =>
    have hnot := h _ ha
    simp only [ConvertAct.Unused, not_and, not_not] at hnot
    simp only [ConvertAct.pushed, ConvertAct.generated]
    split
    · rename_i hused
      exact (hnot hused).symm
    · rfl
  | _ => rfl

end

/-- **All that `src_process` generated is pushed, in order, exactly if it never generated without using a frame.** -/
theorem samplerateConvert_pushes {ring : RingBuffer Byte} (hring : ring.Valid) {as : List ConvertAct} {s : ConvertRun}
    (h : Steps (ConvertStep MonoOrStereo) (.start ring) as s) :
    s.popped ++ s.conv.ring.cells = ring.cells ++ (outputBytes (as.flatMap ConvertAct.generated)).map some ↔
      ∀ a ∈ as, ¬a.Unused := by
  have hstream : s.popped ++ s.conv.ring.cells = _ := convertRun_stream hring h
  rw [hstream]
  constructor
  · intro heq
    have hlen := congrArg List.length heq
    simp only [List.length_append, List.length_map, length_outputBytes] at hlen
    exact (flatMap_pushed_iff as).1 (by omega)
  · intro hnot
    rw [flatMap_pushed_eq hnot]

theorem samplerateConvert_pushes_pending : ∃ t, Steps (ConvertStep MonoOrStereo) (.start eightRing) pendingActs t ∧
    t.popped ++ t.conv.ring.cells = (outputBytes [⟨1, 2⟩, ⟨3, 4⟩, ⟨5, 5⟩]).map some := by
  obtain ⟨t, hrun, -⟩ := pendingActs_run
  refine ⟨t, hrun, (samplerateConvert_pushes eightRing_valid hrun).2 ?_⟩
  intro a ha
  simp only [pendingActs, List.mem_cons, List.not_mem_nil, or_false] at ha
  rcases ha with rfl | rfl | rfl | rfl
  · exact id
  · exact fun h => absurd h.1 (by decide)
  · exact id
  · exact fun h => absurd h.1 (by decide)

set_option maxRecDepth 20000 in
/-- A frame that is generated while none is used is lost: the ring stays empty. -/
theorem samplerateConvert_pushes_unused :
    ∃ s, Steps (ConvertStep MonoOrStereo) (.start eightRing) [.enter 2 [1, 0, 2, 0], .turn 0 0 [⟨1, 2⟩]] s ∧
      s.popped ++ s.conv.ring.cells = [] := by
  have henter : Steps (ConvertStep MonoOrStereo) (.start eightRing) [.enter 2 [1, 0, 2, 0]] _ :=
    .one (.enter rfl (.inr rfl) (by decide))
  have hturn := Steps.snoc henter (show ConvertStep MonoOrStereo _ (.turn 0 0 [⟨1, 2⟩]) _ from
    .turn rfl (by decide) rfl rfl (by decide) (by decide) (by decide) rfl)
  exact ⟨_, hturn, rfl⟩

/-! ## More than two channels -/

/-- What a turn that finds room writes to `input_buffer`. -/
inductive ConvertRun.Writes (s : ConvertRun) : InputWrite → Prop
  | mk {call n out len ring free} : s.call = some call → n < 4294967296 →
      ringBufferPop s.conv.ring true (n : Nat) = some (out, len, ring) → ringBufferGetFreeCount ring = some free →
      0 < convertRoom free → s.Writes (samplerateConvertInput call s.conv)

/-- It stays in the buffer, and is `COM_PLAYER_FIXED_CHANNELS` samples for each frame. -/
structure InputWrite.InStep (w : InputWrite) : Prop where
  within  : w.pos + w.samples.length ≤ samplerateConvertInputSize
  samples : (w.samples.length : Int) = comPlayerFixedChannels * w.frames

/-- The turns of one call. -/
def CallStep : ConvertRun → ConvertAct → ConvertRun → Prop :=
  Restrict (ConvertStep fun channels => 1 ≤ channels) fun s _ => s.call ≠ none

/-- In the call with `channels` channels on `buffer`. -/
structure ConvertRun.In (channels : Nat) (buffer : List Byte) (s : ConvertRun) : Prop where
  ok   : s.Ok fun channels => 1 ≤ channels
  call : ∀ call, s.call = some call → call.channels = channels ∧ call.buffer = buffer

section
variable {s t : ConvertRun} {a : ConvertAct} {channels : Nat} {buffer : List Byte} {w : InputWrite} {conv : SamplerateConvert}

theorem CallStep.within (hs : s.In channels buffer) (h : CallStep s a t) : t.In channels buffer := by
  obtain ⟨hstep, hcall⟩ := h
  refine ⟨hstep.ok hs.ok, ?_⟩
  intro call' hcall'
  cases hstep.outcome hs.ok with
  | enter hnone => exact absurd hnone hcall
  | noState hnone => exact absurd hnone hcall
  | full hsome => cases hcall'
  | @turn call n gen out ring left conv buf used hsome =>
    cases left with
    | true => cases hcall'
    | false =>
      cases hcall'
      exact hs.call call hsome

/-- A conversion that is of at most two channels, or has no frame to convert, stays in step. -/
theorem writes_inStep (hs : s.In channels buffer) (hchannels : channels ≤ 2 ∨ buffer.length < 2 * channels)
    (h : s.Writes w) : w.InStep := by
  obtain ⟨hcall, -, -, -, -⟩ := h
  rename_i call n out len ring free
  obtain ⟨rfl, rfl⟩ := hs.call call hcall
  have hok := (hs.ok.call call hcall).1
  have hpos := hok.channels
  have hmax := hs.ok.conv.frames.2
  have hroom := (convertFrames_le call s.conv).2
  have htwo : comPlayerFixedChannels = 2 := rfl
  have hsize : samplerateConvertInputSize = 1024 := rfl
  have hlen : (stereoSamples call.channels (convertFrames call s.conv) (call.buffer.drop call.consumed)).length =
      2 * convertFrames call s.conv := by
    rw [stereoSamples_length]
    rcases hchannels with htwo | hshort
    · split <;> rename_i hone
      · omega
      · rw [show call.channels = 2 by omega]
        omega
    · have hzero : convertFrames call s.conv = 0 := by
        unfold convertFrames
        rw [Nat.div_eq_of_lt (by omega)]
        omega
      rw [hzero]
      omega
  rw [samplerateConvertInput_eq hs.ok.conv hok.consumed]
  constructor
  · dsimp only
    rw [hlen, hsize]
    omega
  · dsimp only
    rw [hlen, htwo]
    omega

/-- When the consumer takes all there is, there is room for a frame. -/
theorem pop_all (hring : conv.ring.Valid) (hsize : 4 < conv.ring.size) :
    ∃ n out len ring free, n < 4294967296 ∧ ringBufferPop conv.ring true (n : Nat) = some (out, len, ring) ∧
      ring.Valid ∧ ring.size = conv.ring.size ∧ ringBufferGetFreeCount ring = some free ∧ 0 < convertRoom free := by
  have hcount := hring.length_cells
  have hlt := hring.count_lt
  have hsmall := hring.circ.small
  obtain ⟨ring, hpop, hvalid, hsize', hcells⟩ := ringBufferPop_spec hring true (k := conv.ring.cells.length) (by omega)
  have hempty : ring.count = 0 := by
    rw [← hvalid.length_cells, hcells, List.drop_length]
    rfl
  refine ⟨_, _, _, ring, _, by omega, hpop, hvalid, hsize', hvalid.getFreeCount, ?_⟩
  rw [hempty, hsize']
  rw [convertRoom_eq (by omega)]
  omega

/-- With more than two channels, a frame that is converted leaves the step. -/
theorem writes_outOfStep (hs : s.In channels buffer) {call : Converting} (hcall : s.call = some call)
    (hmany : 2 < channels) (hconsumed : call.consumed + 2 * channels ≤ buffer.length) (hpending : s.conv.inputFrames < 512)
    (hsize : 4 < s.conv.ring.size) : ∃ w, s.Writes w ∧ ¬w.InStep := by
  obtain ⟨rfl, rfl⟩ := hs.call call hcall
  have hnonneg := hs.ok.conv.frames.1
  obtain ⟨n, out, len, ring, free, hn, hpop, -, -, hfree, hroom⟩ := pop_all hs.ok.conv.ring hsize
  refine ⟨_, .mk hcall hn hpop hfree hroom, ?_⟩
  intro hstep
  have hsamples := hstep.samples
  have htwo : comPlayerFixedChannels = 2 := rfl
  have hdiv : 1 ≤ (call.buffer.length - call.consumed) / (2 * call.channels) :=
    (Nat.one_le_div_iff (by omega)).2 (by omega)
  have hframes : 1 ≤ convertFrames call s.conv := by
    unfold convertFrames
    omega
  rw [samplerateConvertInput_eq hs.ok.conv (by omega)] at hsamples
  dsimp only at hsamples
  rw [stereoSamples_length, if_neg (by omega), htwo] at hsamples
  have hmul : convertFrames call s.conv * 2 < convertFrames call s.conv * call.channels :=
    Nat.mul_lt_mul_of_pos_left hmany hframes
  omega

/-- A turn on a full buffer of which one frame is used. -/
theorem full_turn (hs : s.In channels buffer) {call : Converting} (hcall : s.call = some call)
    (hconsumed : call.consumed < buffer.length) (hpending : s.conv.inputFrames = 512) (hsize : 4 < s.conv.ring.size) :
    ∃ a t, CallStep s a t ∧ t.call = some call ∧ t.conv.inputFrames = 511 ∧ t.conv.ring.size = s.conv.ring.size := by
  obtain ⟨rfl, rfl⟩ := hs.call call hcall
  have hok := (hs.ok.call call hcall).1
  obtain ⟨n, out, len, ring, free, hn, hpop, hvalid, hsize', hfree, hroom⟩ := pop_all hs.ok.conv.ring hsize
  have hring : ({ s.conv with ring } : SamplerateConvert).Ok := ⟨hvalid, hs.ok.conv.length, hs.ok.conv.frames⟩
  have hzero : convertFrames call s.conv = 0 := by
    unfold convertFrames
    rw [hpending]
    exact Nat.min_zero _
  have hbuf : (samplerateConvertInput call s.conv).apply s.conv.inputBuffer = some s.conv.inputBuffer := by
    rw [samplerateConvertInput_eq hs.ok.conv hok.consumed, hzero, hpending]
    unfold InputWrite.apply
    have hlen := hs.ok.conv.length
    have hnil : stereoSamples call.channels 0 (call.buffer.drop call.consumed) = [] := rfl
    dsimp only
    rw [hnil, if_pos (by rw [hlen]; decide)]
    simp
  have hone : (1 : Nat) ≤ ({ s.conv with ring } : SamplerateConvert).inputFrames.toNat +
      convertFrames call { s.conv with ring } := by
    dsimp only
    omega
  obtain ⟨left, conv', hturn, hturned⟩ := @convertTurn_spec call _ 1 [] _ hring hok.consumed hone (Nat.zero_le _) hbuf
  have hsame : convertFrames call { s.conv with ring } = 0 := hzero
  rw [hsame, Nat.zero_mul, Nat.add_zero] at hturn
  have hleft : left = false := by
    rw [hturned.left_eq, hsame]
    simp only [decide_eq_false_iff_not]
    omega
  subst hleft
  have hinput := hturned.inputFrames
  have hlen : ((bufferFrames s.conv.inputBuffer).take (s.conv.inputFrames.toNat + 0)).length = 512 := by
    rw [List.length_take, bufferFrames_length, hs.ok.conv.length, hpending]
    rfl
  refine ⟨_, _, ⟨.turn hcall hn hpop hfree hroom ?_ ?_ hturn, ?_⟩, rfl, ?_, ?_⟩
  · rw [samplerateConvertInput_eq hs.ok.conv hok.consumed, hzero, hpending]
    dsimp only
    omega
  · have hmost : samplerateConvertOutputSize.tdiv comPlayerFixedChannels = 1024 := by decide
    unfold convertOutputFrames
    dsimp only
    rw [List.length_nil, hmost]
    split <;> omega
  · intro hnone
    rw [hcall] at hnone
    cases hnone
  · refine Eq.trans hinput ?_
    rw [hsame]
    dsimp only
    rw [hlen]
    rfl
  · exact hturned.size.trans hsize'

end

/-- **A call keeps its samples in step, and in `input_buffer`, exactly if it has at most two channels or not a frame to
convert**, whatever is pending, the consumer takes and `src_process` does. -/
theorem samplerateConvert_inStep (conv : SamplerateConvert) (hconv : conv.Ok) (hroom : 4 < conv.ring.size)
    (channels : Nat) (hchannels : 1 ≤ channels) (buffer : List Byte) (hlen : buffer.length < 2147483648) :
    (∀ t w, Reach CallStep { conv, call := some { channels, buffer } } t → t.Writes w → w.InStep) ↔
      channels ≤ 2 ∨ buffer.length < 2 * channels := by
  have hstart : ConvertRun.In channels buffer { conv, call := some { channels, buffer } } := by
    refine ⟨⟨hconv, ?_, ?_⟩, ?_⟩
    · intro call hcall
      cases hcall
      exact ⟨⟨hchannels, Nat.zero_le _, dvd_zero _⟩, hlen⟩
    · intro call hmem
      cases hmem
    · intro call hcall
      cases hcall
      exact ⟨rfl, rfl⟩
  constructor
  · intro hall
    by_contra hnot
    obtain ⟨hmany, hlong⟩ := not_or.1 hnot
    have hmax := hconv.frames.2
    rcases lt_or_eq_of_le hmax with hpending | hpending
    · obtain ⟨w, hwrites, hout⟩ :=
        writes_outOfStep hstart rfl (by omega) (show 0 + 2 * channels ≤ buffer.length by omega) hpending hroom
      exact hout (hall _ w (Reach.refl _) hwrites)
    · obtain ⟨a, t, hstep, hcall, hinput, hsize⟩ :=
        full_turn hstart rfl (show 0 < buffer.length by omega) hpending hroom
      obtain ⟨w, hwrites, hout⟩ := writes_outOfStep (hstep.within hstart) hcall (by omega)
        (show 0 + 2 * channels ≤ buffer.length by omega) (by omega) (by rw [hsize]; exact hroom)
      exact hout (hall t w ((Reach.refl _).tail hstep) hwrites)
  · intro hfew t w hreach hwrites
    have ht : t.In channels buffer := hreach.invariant (fun _ _ _ hs hstep => hstep.within hs) hstart
    exact writes_inStep ht hfew hwrites

/-- A stereo frame. -/
theorem samplerateConvert_inStep_stereo :
    (∀ t w, Reach CallStep { conv := samplerateConvertAlloc eightRing, call := some { channels := 2, buffer := [1, 0, 2, 0] } } t →
      t.Writes w → w.InStep) ↔ 2 ≤ 2 ∨ [1, 0, 2, 0].length < 2 * 2 :=
  samplerateConvert_inStep (samplerateConvertAlloc eightRing) (samplerateConvertAlloc_ok eightRing_valid) (by decide) 2
    (by decide) [1, 0, 2, 0] (by decide)

/-- 171 frames of six channels end two samples behind `input_buffer`. -/
theorem samplerateConvert_inStep_six :
    ∃ w, ConvertRun.Writes
        { conv := samplerateConvertAlloc eightRing, call := some { channels := 6, buffer := List.replicate 2052 0 } } w ∧
      w.frames = 171 ∧ w.samples.length = 1026 ∧ ¬w.InStep := by
  have hwrites := ConvertRun.Writes.mk
    (s := { conv := samplerateConvertAlloc eightRing, call := some { channels := 6, buffer := List.replicate 2052 0 } })
    (n := 0) rfl (by decide) rfl rfl (by decide)
  rw [samplerateConvertInput_eq (samplerateConvertAlloc_ok eightRing_valid) (Nat.zero_le _)] at hwrites
  have hframes : convertFrames { channels := 6, buffer := List.replicate 2052 0 } (samplerateConvertAlloc eightRing) = 171 := by
    unfold convertFrames
    rw [List.length_replicate]
    rfl
  rw [hframes] at hwrites
  have hlen : (stereoSamples 6 171 ((List.replicate 2052 (0 : Byte)).drop 0)).length = 1026 := by
    rw [stereoSamples_length]
    rfl
  refine ⟨_, hwrites, rfl, hlen, ?_⟩
  intro hstep
  have hsamples := hstep.samples
  dsimp only at hsamples
  rw [hlen] at hsamples
  revert hsamples
  decide

end AudioPlayer

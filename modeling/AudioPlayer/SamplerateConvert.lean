import Mathlib
import AudioPlayer.Lib.Steps
import AudioPlayer.Lib.Bytes
import AudioPlayer.ComPlayerOutput

/-!
# The samples that are resampled (`src/samplerate_convert.c:83-187`)

`ComPlayerOutput` has the converter as far as frames are counted. Here are its samples: what
`samplerate_convert_input_stereo` writes to `input_buffer`, what of it `src_process` uses, and what stays for the next
turn of the loop or the next call.

| here | there |
|---|---|
| `SamplerateConvert`      | `samplerate_convert_t`, of `output_bytes` what is pushed |
| `samplerateConvertInput` | `:129` and `:144-149`, what the conversion writes, and where |
| `convertTurn`            | a turn of the loop behind the test of `:132`, on the answer of `src_process` |
| `ConvertStep`            | the calls, turn by turn, and the thread that empties the ring |

A sample is an `int16_t`, which a `float` holds exactly. What the consumer takes between two reads of the free space is
taken at the head of a turn: behind that it only makes more room for the push.
-/

namespace AudioPlayer
open Lib

/-- `tmp16` of two bytes (`samplerate_convert.c:98-100`). -/
def int16 (lo hi : Byte) : BitVec 16 := (hi.toBitVec.setWidth 16 <<< 8) ||| lo.toBitVec.setWidth 16

/-- What the two loops of `samplerate_convert_input_stereo` write (`samplerate_convert.c:94-106`). -/
def stereoSamples (channels frames : Nat) (src : List Byte) : List (BitVec 16) :=
  (List.range frames).flatMap fun i => (List.range channels).flatMap fun j =>
    let tmp16 := int16 (src.getD (i * (2 * channels) + j * 2) 0) (src.getD (i * (2 * channels) + j * 2 + 1) 0)
    if channels = 1 then [tmp16, tmp16] else [tmp16]

structure SamplerateConvert where
  srcState    : Bool := false
  inputFrames : Int := 0
  inputBuffer : List (BitVec 16)
  ring        : RingBuffer Byte

/-- `samplerate_convert_alloc` -/
def samplerateConvertAlloc (ring : RingBuffer Byte) : SamplerateConvert where
  inputBuffer := List.replicate samplerateConvertInputSize.toNat 0
  ring

/-- A call, and how much of its buffer is consumed; a call that has returned reported that. -/
structure Converting where
  channels : Nat
  buffer   : List Byte
  consumed : Nat := 0
deriving DecidableEq, Repr

/-- What a conversion writes: `samples` from index `pos` on, for `frames` frames and `used` bytes of the source. -/
structure InputWrite where
  pos     : Nat
  frames  : Int
  used    : Int
  samples : List (BitVec 16)
deriving DecidableEq, Repr

def samplerateConvertInput (call : Converting) (conv : SamplerateConvert) : InputWrite :=
  let room := samplerateConvertInputSize.tdiv comPlayerFixedChannels - conv.inputFrames
  let (frames, used) := samplerateConvertInputStereo (call.buffer.length - call.consumed) room call.channels
  { pos := (conv.inputFrames * comPlayerFixedChannels).toNat, frames, used
    samples := stereoSamples call.channels frames.toNat (call.buffer.drop call.consumed) }

/-- The buffer after it; there is none if it was written to past its end. -/
def InputWrite.apply (w : InputWrite) (inputBuffer : List (BitVec 16)) : Option (List (BitVec 16)) :=
  if w.pos + w.samples.length ≤ inputBuffer.length then
    some (inputBuffer.take w.pos ++ w.samples ++ inputBuffer.drop (w.pos + w.samples.length))
  else none

/-- `output_frames` (`samplerate_convert.c:130`). -/
def convertRoom (free : Int) : Int := (free.tdiv comPlayerFixedChannels).tdiv 2

/-- `memmove` (`samplerate_convert.c:167-169`). -/
def convertMove (used inputFrames : Nat) (inputBuffer : List (BitVec 16)) : List (BitVec 16) :=
  (inputBuffer.drop (used * comPlayerFixedChannels.toNat)).take (inputFrames * comPlayerFixedChannels.toNat) ++
    inputBuffer.drop (inputFrames * comPlayerFixedChannels.toNat)

/-- A turn whose `src_process` uses `used` frames and generates `gen`: is the loop left, how much is consumed, and what
is the converter then? -/
def convertTurn (call : Converting) (used : Nat) (gen : List PcmFrame) (conv : SamplerateConvert) :
    Option (Bool × Nat × SamplerateConvert) := do
  let w := samplerateConvertInput call conv
  let inputBuffer ← w.apply conv.inputBuffer
  let consumed := (call.consumed + w.used).toNat
  let inputFrames := conv.inputFrames + w.frames - used
  if used ≤ 0 then some (true, consumed, { conv with inputFrames, inputBuffer })
  else
    let (_, ring) ← ringBufferPush conv.ring (outputBytes gen)
    some (decide (call.buffer.length ≤ consumed), consumed,
      { conv with inputFrames, inputBuffer := convertMove used inputFrames.toNat inputBuffer, ring })

/-- The frames in a buffer of samples. -/
def bufferFrames : List (BitVec 16) → List PcmFrame
  | left :: right :: rest => ⟨left, right⟩ :: bufferFrames rest
  | _ => []

/-- The frames that wait for `src_process`. -/
def SamplerateConvert.pending (conv : SamplerateConvert) : List PcmFrame :=
  (bufferFrames conv.inputBuffer).take conv.inputFrames.toNat

/-- The frames that `src_process` is given in a turn. -/
def convertOffered (call : Converting) (conv : SamplerateConvert) : List PcmFrame :=
  conv.pending ++ bufferFrames (samplerateConvertInput call conv).samples

/-- The converter, the call under way, and what has happened: the calls that have returned, the frames that
`src_process` used, and the bytes that the consumer took. -/
structure ConvertRun where
  conv   : SamplerateConvert
  call   : Option Converting := none
  calls  : List Converting := []
  used   : List PcmFrame := []
  popped : List (Option Byte) := []

/-- A call is entered, without a `src_state` (then it returns at once); a turn finds no room, or `src_process` is called
in it, after the consumer took `popped` bytes. -/
inductive ConvertAct
  | enter (channels : Nat) (buffer : List Byte)
  | noState (channels : Nat) (buffer : List Byte)
  | full (popped : Nat)
  | turn (popped used : Nat) (gen : List PcmFrame)

/-- The call goes on, or returns. -/
def ConvertRun.after (s : ConvertRun) (left : Bool) (call : Converting) : ConvertRun :=
  if left then { s with call := none, calls := s.calls ++ [call] } else { s with call := some call }

/-- A step, of calls whose number of channels is in `C`. -/
inductive ConvertStep (C : Nat → Prop) : ConvertRun → ConvertAct → ConvertRun → Prop
  | enter {s channels buffer} : s.call = none → C channels → buffer.length < 2147483648 →
      ConvertStep C s (.enter channels buffer)
        { s with conv := { s.conv with srcState := true }, call := some { channels, buffer } }
  | noState {s channels buffer} : s.call = none → C channels → s.conv.srcState = false →
      ConvertStep C s (.noState channels buffer) { s with calls := s.calls ++ [{ channels, buffer }] }
  | full {s call n out len ring free} : s.call = some call → n < 4294967296 →
      ringBufferPop s.conv.ring true (n : Nat) = some (out, len, ring) → ringBufferGetFreeCount ring = some free →
      convertRoom free ≤ 0 →
      ConvertStep C s (.full n)
        (({ s with conv := { s.conv with ring }, popped := s.popped ++ out } : ConvertRun).after true call)
  | turn {s call n gen out len ring free left consumed conv} {used : Nat} : s.call = some call → n < 4294967296 →
      ringBufferPop s.conv.ring true (n : Nat) = some (out, len, ring) → ringBufferGetFreeCount ring = some free →
      0 < convertRoom free → (used : Int) ≤ s.conv.inputFrames + (samplerateConvertInput call s.conv).frames →
      (gen.length : Int) ≤ convertOutputFrames (convertRoom free) →
      convertTurn call used gen { s.conv with ring } = some (left, consumed, conv) →
      ConvertStep C s (.turn n used gen)
        (({ s with conv, popped := s.popped ++ out, used := s.used ++ (convertOffered call s.conv).take used } :
            ConvertRun).after left { call with consumed })

/-! ## What the bytes of a call stand for -/

/-- The frames of 16-bit little-endian mono PCM; a sample is for both channels. -/
def decodeMono : List Byte → List PcmFrame
  | lo :: hi :: bs => ⟨int16 lo hi, int16 lo hi⟩ :: decodeMono bs
  | _ => []

/-- And of stereo PCM. -/
def decodeStereo : List Byte → List PcmFrame
  | lo :: hi :: lo' :: hi' :: bs => ⟨int16 lo hi, int16 lo' hi'⟩ :: decodeStereo bs
  | _ => []

def decodePcm (channels : Nat) (bs : List Byte) : List PcmFrame :=
  if channels = 1 then decodeMono bs else decodeStereo bs

/-- The frames of the bytes that a call has consumed. -/
def Converting.frames (call : Converting) : List PcmFrame := decodePcm call.channels (call.buffer.take call.consumed)

end AudioPlayer

import Mathlib
import AudioPlayer.ComPlayer
import AudioPlayer.ComPlayerOutput
import AudioPlayer.Mp3Decoder

/-!
# Seeking and the progress of a track (`src/common_player.c:211-255`, `:302-333`)

`seek_progress` is a percentage, as `audio_player_get_progress` reports it. For an mp3 file it is scaled by
`/100.0`; for an m4a file it is used as it is, both for `consumed` and for the sample the decoder is sent to.
Doubles are exact here, and converted to `int` by dropping the fraction.

| here | there |
|---|---|
| `comPlayerSeek`        | `com_player_seek` (`common_player.c:211-255`) |
| `comPlayerGetProgress` | `com_player_get_progress` (`:302-333`) |
| `aacSeekSample`        | the sample of `aac_decoder_seek_handler` (`aac_decoder.c:231-235`) |

The fields of `audio_decoder_info_t` are `uint32_t`. `tag_size` of an m4a file is its duration.
-/

namespace AudioPlayer
open Lib

def comPlayerFixedSamplerate : Int := 32000

/-- A double without its fraction. -/
def ratTrunc (x : ℚ) : Int := if 0 ≤ x then ⌊x⌋ else ⌈x⌉

/-- Conversion of a double to `int`, undefined where it does not fit. -/
def ratToInt? (x : ℚ) : Option Int := int32? (ratTrunc x)

/-- What the decoder is told: `mp3_decoder_seek` a position, `aac_decoder_seek` the progress itself. -/
inductive DecoderSeek
  | none
  | mp3 (seekPosition : Int)
  | m4a (seekPosition : ℚ)
deriving DecidableEq

/-- What `com_player_seek` returns, `consumed` behind it, and its call of the decoder. -/
structure ComPlayerSought where
  ret      : ComPlayerReturn
  consumed : Int
  seek     : DecoderSeek
deriving DecidableEq

/-- `com_player_seek` (`common_player.c:211-255`); none where a double does not fit into an `int`. -/
def comPlayerSeek (type : ComPlayerType) (info : AudioDecoderInfo) (consumed totalLen : Int) (seekProgress : ℚ) :
    Option ComPlayerSought :=
  if totalLen ≤ 0 ∨ info.bitRate = 0 ∨ info.sampleRate = 0 ∨ info.channels = 0 then
    some ⟨.errSeek, consumed, .none⟩
  else
    match type with
    | .mp3 => do
      let curPos ← ratToInt? (toU32 (totalLen - info.tagSize) * seekProgress / 100)
      let tmp : ℚ := comPlayerFixedChannels * comPlayerFixedSamplerate * 2
      let tmp := tmp * curPos * 8 / info.bitRate
      let consumed ← ratToInt? tmp
      let curPos := toI32 (toU32 (curPos + info.tagSize))
      let curPos := if curPos ≥ totalLen then totalLen - 1 else curPos
      some ⟨.success, toU32 consumed, .mp3 curPos⟩
    | .m4a => do
      let tmp := seekProgress * info.tagSize / info.sampleRate
      let tmp := tmp * comPlayerFixedChannels * comPlayerFixedSamplerate * 2
      let consumed ← ratToInt? tmp
      some ⟨.success, toU32 consumed, .m4a seekProgress⟩
    | .aac => some ⟨.success, consumed, .none⟩

/-- The sample of `aac_decoder_seek_handler` (`aac_decoder.c:233`). -/
def aacSeekSample (seekPosition : ℚ) (numSamples : Int) : Int := ratTrunc (seekPosition * numSamples)

/-- `com_player_get_progress` (`common_player.c:302-333`): `cur_time` and `all_time`. -/
def comPlayerGetProgress (type : ComPlayerType) (info : AudioDecoderInfo) (consumed curPos totalLen : Int) :
    Option (Int × Int) :=
  if type = .mp3 ∧ toU32 curPos < info.tagSize then none
  else if totalLen ≤ 0 ∨ info.bitRate = 0 ∨ info.sampleRate = 0 ∨ info.channels = 0 then none
  else
    let curTime := toI32 (consumed / comPlayerFixedChannels / 2 / comPlayerFixedSamplerate)
    let allTime := match type with
      | .mp3 => toU32 (toU32 (totalLen - info.tagSize) * 8) / info.bitRate
      | .m4a => info.tagSize / info.sampleRate
      | .aac => toU32 (totalLen * 8) / info.bitRate
    some (curTime, toI32 allTime)

/-- The decoder is sent to `p` percent of the track, rounded down as the code rounds. -/
def DecoderSeek.AtPercent (info : AudioDecoderInfo) (numSamples totalLen : Int) (p : ℚ) : DecoderSeek → Prop
  | .none => False
  | .mp3 pos => info.tagSize ≤ pos ∧ pos < totalLen ∧
      pos = min (info.tagSize + ⌊(totalLen - info.tagSize) * p / 100⌋) (totalLen - 1)
  | .m4a q => 0 ≤ aacSeekSample q numSamples ∧ aacSeekSample q numSamples ≤ numSamples ∧
      aacSeekSample q numSamples = ⌊p * numSamples / 100⌋

/-- Where the file is behind the seek; an m4a file may be anywhere. -/
def DecoderSeek.filePos : DecoderSeek → Int
  | .mp3 pos => pos
  | _ => 0

/-- The seek succeeds, and the progress that is reported behind it is `p` percent of the time, but for 3 of 100. -/
def SeeksToPercent (type : ComPlayerType) (info : AudioDecoderInfo) (numSamples consumed totalLen : Int) (p : ℚ) :
    Prop :=
  ∃ sought, comPlayerSeek type info consumed totalLen p = some sought ∧ sought.ret = .success ∧
    sought.seek.AtPercent info numSamples totalLen p ∧
    ∀ curPos, sought.seek.filePos ≤ curPos → curPos < 2147483648 → ∃ curTime allTime,
      comPlayerGetProgress type info sought.consumed curPos totalLen = some (curTime, allTime) ∧
      |100 * (curTime : ℚ) - p * allTime| ≤ 300

/-- A track and a percentage of it, with nothing in the computation beyond `2^31`. -/
structure SeekDomain (type : ComPlayerType) (info : AudioDecoderInfo) (numSamples totalLen : Int) (p : ℚ) :
    Prop where
  kind       : type = .mp3 ∨ type = .m4a
  percent    : 0 ≤ p ∧ p ≤ 100
  total      : 0 < totalLen ∧ totalLen < 2147483648
  tag        : 0 ≤ info.tagSize ∧ info.tagSize < 2147483648
  bitRate    : 8 ≤ info.bitRate
  sampleRate : 1 ≤ info.sampleRate
  channels   : 1 ≤ info.channels
  samples    : 0 < numSamples
  mp3        : type = .mp3 → info.tagSize < totalLen ∧ (totalLen - info.tagSize) * 8 < 2147483648 ∧
    128000 * (⌊(totalLen - info.tagSize) * p / 100⌋ : ℚ) * 8 / info.bitRate < 2147483648
  m4a        : type = .m4a → p * info.tagSize / info.sampleRate * 128000 < 2147483648

section
variable {x : ℚ}

theorem ratTrunc_eq (h : 0 ≤ x) : ratTrunc x = ⌊x⌋ := if_pos h

theorem ratToInt?_eq (h0 : 0 ≤ x) (h : x < 2147483648) : ratToInt? x = some ⌊x⌋ := by
  have hfloor : 0 ≤ ⌊x⌋ := Int.floor_nonneg.2 h0
  have hlt : ⌊x⌋ < 2147483648 := Int.floor_lt.2 (by exact_mod_cast h)
  rw [ratToInt?, ratTrunc_eq h0, int32?_eq (by omega) hlt]

/-- The samples of `x` seconds are `x` seconds, without the fraction (`common_player.c:316`). -/
theorem samples_seconds (x : ℚ) :
    ⌊x * 128000⌋ / comPlayerFixedChannels / 2 / comPlayerFixedSamplerate = ⌊x⌋ := by
  have hall : ⌊x * 128000⌋ / comPlayerFixedChannels / 2 / comPlayerFixedSamplerate = ⌊x * 128000⌋ / 128000 := by
    rw [Int.ediv_ediv_of_nonneg (by decide), Int.ediv_ediv_of_nonneg (by decide)]
    rfl
  rw [hall]
  exact_mod_cast Int.mul_natCast_floor_div_cancel (show 128000 ≠ 0 by decide) x

/-- Division of integers is that of doubles, without the fraction. -/
theorem ediv_eq_floor {a b : Int} (hb : 0 ≤ b) : a / b = ⌊(a : ℚ) / b⌋ := by
  rw [Int.floor_div_cast_of_nonneg hb, Int.floor_intCast]

/-- The time of an mp3 file is `p` percent of all of it: each of the two roundings costs at most 100. -/
theorem mp3_percent {size bitRate : Int} {p : ℚ} (hsize : 0 ≤ size) (hrate : 8 ≤ bitRate) (hp0 : 0 ≤ p)
    (hp : p ≤ 100) :
    |100 * (⌊(⌊size * p / 100⌋ : ℚ) * 8 / bitRate⌋ : ℚ) - p * (size * 8 / bitRate : Int)| ≤ 300 := by
  have hrate' : (8 : ℚ) ≤ bitRate := by exact_mod_cast hrate
  have hpos : (0 : ℚ) < bitRate := by linarith
  have hsize' : (0 : ℚ) ≤ size := by exact_mod_cast hsize
  have hall : ((size * 8 / bitRate : Int) : ℚ) = ⌊(size : ℚ) * 8 / bitRate⌋ := by
    rw [ediv_eq_floor (by omega)]
    push_cast
    rfl
  rw [hall]
  -- a second is `8 / bitRate` of a byte, which is at most one
  have hsecond : ∀ y : ℚ, y * 8 / bitRate = y * (8 / bitRate) := fun y => mul_div_assoc y 8 _
  rw [hsecond, hsecond]
  have hr0 : 0 < 8 / (bitRate : ℚ) := by positivity
  have hr1 : 8 / (bitRate : ℚ) ≤ 1 := (div_le_one hpos).2 hrate'
  generalize 8 / (bitRate : ℚ) = r at hr0 hr1 ⊢
  have hcp1 := Int.floor_le ((size : ℚ) * p / 100)
  have hcp2 := Int.lt_floor_add_one ((size : ℚ) * p / 100)
  generalize (⌊(size : ℚ) * p / 100⌋ : ℚ) = cp at hcp1 hcp2 ⊢
  have hcur1 := Int.floor_le (cp * r)
  have hcur2 := Int.lt_floor_add_one (cp * r)
  generalize (⌊cp * r⌋ : ℚ) = cur at hcur1 hcur2 ⊢
  have hall1 := Int.floor_le (size * r)
  have hall2 := Int.lt_floor_add_one (size * r)
  generalize (⌊size * r⌋ : ℚ) = all at hall1 hall2 ⊢
  have hbytes1 : cp * r ≤ size * p / 100 * r := mul_le_mul_of_nonneg_right hcp1 hr0.le
  have hbytes2 : (size * p / 100 - 1) * r ≤ cp * r := mul_le_mul_of_nonneg_right (by linarith) hr0.le
  have htime1 : p * all ≤ p * (size * r) := mul_le_mul_of_nonneg_left hall1 hp0
  have htime2 : p * (size * r - 1) ≤ p * all := mul_le_mul_of_nonneg_left (by linarith) hp0
  have hsame : size * p / 100 * r * 100 = p * (size * r) := by ring
  rw [abs_le]
  constructor
  · linarith
  · linarith

/-- The time of an m4a file is 100 times what it should be, and in the bound only below four seconds. -/
theorem m4a_percent {duration sampleRate : Int} {p : ℚ} (hduration : 0 ≤ duration) (hrate : 1 ≤ sampleRate)
    (hp0 : 0 ≤ p) :
    |100 * (⌊p * duration / sampleRate⌋ : ℚ) - p * (duration / sampleRate : Int)| ≤ 300 ↔
      p * duration / sampleRate < 4 := by
  have hrate' : (1 : ℚ) ≤ sampleRate := by exact_mod_cast hrate
  have hduration' : (0 : ℚ) ≤ duration := by exact_mod_cast hduration
  have hall1 : ((duration / sampleRate : Int) : ℚ) ≤ duration / sampleRate := by
    rw [ediv_eq_floor (by omega)]
    exact Int.floor_le _
  have hall0 : (0 : ℚ) ≤ (duration / sampleRate : Int) := by
    exact_mod_cast Int.ediv_nonneg hduration (by omega)
  have htime : p * (duration / sampleRate : Int) ≤ p * duration / sampleRate := by
    rw [mul_div_assoc]
    exact mul_le_mul_of_nonneg_left hall1 hp0
  have htime0 : 0 ≤ p * (duration / sampleRate : Int) := mul_nonneg hp0 hall0
  generalize p * ((duration / sampleRate : Int) : ℚ) = t at htime htime0 ⊢
  have hx0 : 0 ≤ p * duration / sampleRate := htime0.trans htime
  generalize p * (duration : ℚ) / sampleRate = x at htime hx0 ⊢
  have hfloor1 := Int.floor_le x
  have hfloor2 := Int.lt_floor_add_one x
  rw [abs_le]
  constructor
  · rintro ⟨-, hle⟩
    by_contra hfour
    have hcur : (4 : Int) ≤ ⌊x⌋ := Int.le_floor.2 (by push_cast; linarith)
    have hcur : (4 : ℚ) ≤ ⌊x⌋ := by exact_mod_cast hcur
    linarith
  · intro hfour
    have hcur : ⌊x⌋ ≤ 3 := Int.lt_add_one_iff.1 (Int.floor_lt.2 (by push_cast; linarith))
    have hcur : (⌊x⌋ : ℚ) ≤ 3 := by exact_mod_cast hcur
    have hcur0 : (0 : ℚ) ≤ ⌊x⌋ := by exact_mod_cast Int.floor_nonneg.2 hx0
    constructor
    · linarith
    · linarith

/-- The sample is 100 times too far, unless it is the first one. -/
theorem m4a_sample {numSamples : Int} {p : ℚ} (hsamples : 0 < numSamples) (hp0 : 0 ≤ p) :
    (0 ≤ aacSeekSample p numSamples ∧ aacSeekSample p numSamples ≤ numSamples ∧
      aacSeekSample p numSamples = ⌊p * numSamples / 100⌋) ↔ p * numSamples < 1 := by
  have hsamples' : (0 : ℚ) < numSamples := by exact_mod_cast hsamples
  have hx0 : 0 ≤ p * numSamples := by positivity
  unfold aacSeekSample
  rw [ratTrunc_eq hx0]
  generalize p * (numSamples : ℚ) = x at hx0 ⊢
  have hpart1 := Int.floor_le (x / 100)
  have hfloor2 := Int.lt_floor_add_one x
  constructor
  · rintro ⟨-, -, hsame⟩
    by_contra hone
    have hfirst : (1 : Int) ≤ ⌊x⌋ := Int.le_floor.2 (by push_cast; linarith)
    have hfirst : (1 : ℚ) ≤ ⌊x⌋ := by exact_mod_cast hfirst
    rw [← hsame] at hpart1
    linarith
  · intro hone
    have hzero : ⌊x⌋ = 0 := Int.floor_eq_zero_iff.2 ⟨hx0, hone⟩
    have hpart : ⌊x / 100⌋ = 0 := Int.floor_eq_zero_iff.2 ⟨by positivity, by linarith⟩
    rw [hzero, hpart]
    exact ⟨le_rfl, hsamples.le, rfl⟩

end

section
variable {info : AudioDecoderInfo} {numSamples consumed totalLen : Int} {p : ℚ}

/-- The guard both functions have (`common_player.c:216-222`, `:309-315`). -/
theorem SeekDomain.guard {type : ComPlayerType} (h : SeekDomain type info numSamples totalLen p) :
    ¬(totalLen ≤ 0 ∨ info.bitRate = 0 ∨ info.sampleRate = 0 ∨ info.channels = 0) := by
  obtain ⟨-, -, ⟨_, _⟩, -, _, _, _, -, -, -⟩ := h
  omega

/-- For an mp3 file all of it is `p` percent. -/
theorem mp3_seeksToPercent (h : SeekDomain .mp3 info numSamples totalLen p) :
    SeeksToPercent .mp3 info numSamples consumed totalLen p := by
  have hguard := h.guard
  obtain ⟨-, ⟨hp0, hp⟩, ⟨_, _⟩, ⟨_, _⟩, hrate, -, -, -, hmp3, -⟩ := h
  obtain ⟨htag, hsize, hconsumed⟩ := hmp3 rfl
  obtain ⟨size, hsize_eq⟩ : ∃ size, totalLen - info.tagSize = size := ⟨_, rfl⟩
  have hcast : (totalLen : ℚ) - info.tagSize = size := by exact_mod_cast hsize_eq
  have hsize0 : (0 : ℚ) ≤ size := by exact_mod_cast (show 0 ≤ size by omega)
  have hsize28 : (size : ℚ) < 268435456 := by exact_mod_cast (show size < 268435456 by omega)
  rw [hcast] at hconsumed
  -- the byte is in the audio data
  have hbyte0 : 0 ≤ size * p / 100 := by positivity
  have hbyte : size * p / 100 ≤ size := by
    have := mul_le_mul_of_nonneg_left hp hsize0
    linarith
  have hcp0 : 0 ≤ ⌊size * p / 100⌋ := Int.floor_nonneg.2 hbyte0
  have hcp : ⌊size * p / 100⌋ ≤ size := by
    exact_mod_cast (Int.floor_le _).trans hbyte
  have hbit : (0 : ℚ) < info.bitRate := by exact_mod_cast (show 0 < info.bitRate by omega)
  have hcpq : (0 : ℚ) ≤ ⌊size * p / 100⌋ := by exact_mod_cast hcp0
  have htime0 : 0 ≤ 128000 * (⌊size * p / 100⌋ : ℚ) * 8 / info.bitRate := by positivity
  have hsamples : 128000 * (⌊size * p / 100⌋ : ℚ) * 8 / info.bitRate =
      (⌊size * p / 100⌋ : ℚ) * 8 / info.bitRate * 128000 := by ring
  have hratio : ((comPlayerFixedChannels : ℚ) * comPlayerFixedSamplerate * 2) = 128000 := by
    norm_num [comPlayerFixedChannels, comPlayerFixedSamplerate]
  have hseek : comPlayerSeek .mp3 info consumed totalLen p = some
      ⟨.success, ⌊(⌊size * p / 100⌋ : ℚ) * 8 / info.bitRate * 128000⌋,
        .mp3 (min (info.tagSize + ⌊size * p / 100⌋) (totalLen - 1))⟩ := by
    simp only [comPlayerSeek, if_neg hguard, hsize_eq]
    rw [toU32_eq (by omega) (by omega), ratToInt?_eq hbyte0 (by linarith), hratio]
    simp only [Option.bind_eq_bind, Option.bind_some]
    rw [ratToInt?_eq htime0 hconsumed]
    simp only [Option.bind_some]
    have hint : ⌊128000 * (⌊size * p / 100⌋ : ℚ) * 8 / info.bitRate⌋ < 2147483648 :=
      Int.floor_lt.2 (by exact_mod_cast hconsumed)
    have hint0 := Int.floor_nonneg.2 htime0
    rw [toU32_eq (x := ⌊128000 * (⌊size * p / 100⌋ : ℚ) * 8 / info.bitRate⌋) hint0 (by omega),
      toU32_eq (by omega) (by omega), toI32_eq (by omega) (by omega), hsamples, add_comm _ info.tagSize]
    congr 3
    split <;> omega
  refine ⟨_, hseek, rfl, ?_, ?_⟩
  · simp only [DecoderSeek.AtPercent, hcast, and_true]
    omega
  · intro curPos hcur _
    simp only [DecoderSeek.filePos] at hcur
    refine ⟨_, _, ?_, mp3_percent (show 0 ≤ size by omega) hrate hp0 hp⟩
    have hcur0 : info.tagSize ≤ curPos := by omega
    have hall : 0 ≤ size * 8 / info.bitRate := Int.ediv_nonneg (by omega) (by omega)
    have hall' : size * 8 / info.bitRate ≤ size * 8 := Int.ediv_le_self _ (by omega)
    have hcurTime0 : 0 ≤ ⌊(⌊size * p / 100⌋ : ℚ) * 8 / info.bitRate⌋ := Int.floor_nonneg.2 (by positivity)
    have hcurTime : ⌊(⌊size * p / 100⌋ : ℚ) * 8 / info.bitRate⌋ < 2147483648 := by
      rw [hsamples] at hconsumed
      refine Int.floor_lt.2 ?_
      have : 0 ≤ (⌊size * p / 100⌋ : ℚ) * 8 / info.bitRate := by positivity
      push_cast
      linarith
    simp only [comPlayerGetProgress, hsize_eq, samples_seconds, if_neg hguard]
    rw [toU32_eq (by omega) (by omega), if_neg (by omega), toU32_eq (x := size) (by omega) (by omega),
      toU32_eq (by omega) (by omega), toI32_eq (by omega) hcurTime, toI32_eq (by omega) (by omega)]

/-- For an m4a file it is not, but at the very start. -/
theorem m4a_seeksToPercent (h : SeekDomain .m4a info numSamples totalLen p) :
    SeeksToPercent .m4a info numSamples consumed totalLen p ↔
      p * info.tagSize / info.sampleRate < 4 ∧ p * numSamples < 1 := by
  have hguard := h.guard
  obtain ⟨-, ⟨hp0, hp⟩, ⟨_, _⟩, ⟨_, _⟩, -, hrate, -, hnum, -, hm4a⟩ := h
  have hconsumed := hm4a rfl
  have hsr : (0 : ℚ) < info.sampleRate := by exact_mod_cast (show 0 < info.sampleRate by omega)
  have htag : (0 : ℚ) ≤ info.tagSize := by exact_mod_cast (show 0 ≤ info.tagSize by omega)
  have htime0 : 0 ≤ p * info.tagSize / info.sampleRate := by positivity
  have hratio : p * info.tagSize / info.sampleRate * comPlayerFixedChannels * comPlayerFixedSamplerate * 2 =
      p * info.tagSize / info.sampleRate * 128000 := by
    norm_num [comPlayerFixedChannels, comPlayerFixedSamplerate]
    ring
  have hsamples0 : 0 ≤ p * info.tagSize / info.sampleRate * 128000 := by positivity
  have hseek : comPlayerSeek .m4a info consumed totalLen p = some
      ⟨.success, ⌊p * info.tagSize / info.sampleRate * 128000⌋, .m4a p⟩ := by
    simp only [comPlayerSeek, if_neg hguard, hratio]
    rw [ratToInt?_eq hsamples0 hconsumed]
    simp only [Option.bind_eq_bind, Option.bind_some]
    have hint : ⌊p * info.tagSize / info.sampleRate * 128000⌋ < 2147483648 :=
      Int.floor_lt.2 (by exact_mod_cast hconsumed)
    have hint0 := Int.floor_nonneg.2 hsamples0
    rw [toU32_eq hint0 (by omega)]
  have hcurTime0 : 0 ≤ ⌊p * info.tagSize / info.sampleRate⌋ := Int.floor_nonneg.2 htime0
  have hcurTime : ⌊p * info.tagSize / info.sampleRate⌋ < 2147483648 := by
    refine Int.floor_lt.2 ?_
    push_cast
    linarith
  have hall : 0 ≤ info.tagSize / info.sampleRate := Int.ediv_nonneg (by omega) (by omega)
  have hall' : info.tagSize / info.sampleRate ≤ info.tagSize := Int.ediv_le_self _ (by omega)
  have hprogress : ∀ curPos, comPlayerGetProgress .m4a info ⌊p * info.tagSize / info.sampleRate * 128000⌋ curPos
      totalLen = some (⌊p * info.tagSize / info.sampleRate⌋, info.tagSize / info.sampleRate) := by
    intro curPos
    simp only [comPlayerGetProgress, samples_seconds, if_neg hguard]
    rw [if_neg (by simp), toI32_eq (by omega) hcurTime, toI32_eq (by omega) (by omega)]
  rw [← m4a_percent (by omega) hrate hp0, ← m4a_sample hnum hp0]
  unfold SeeksToPercent
  rw [hseek]
  constructor
  · rintro ⟨sought, hsought, -, hat, htime⟩
    cases hsought
    obtain ⟨curTime, allTime, hget, hle⟩ := htime 0 le_rfl (by decide)
    rw [hprogress] at hget
    cases hget
    exact ⟨hle, hat⟩
  · rintro ⟨hle, hat⟩
    exact ⟨_, rfl, rfl, hat, fun curPos _ _ => ⟨_, _, hprogress curPos, hle⟩⟩

/-- **A seek goes to `p` percent, and the progress says so, for every mp3 file, and for an m4a file exactly at the
first sample.** -/
theorem comPlayer_seeksToPercent {type : ComPlayerType} (h : SeekDomain type info numSamples totalLen p) :
    SeeksToPercent type info numSamples consumed totalLen p ↔
      (type = .m4a → p * info.tagSize / info.sampleRate < 4 ∧ p * numSamples < 1) := by
  rcases h.kind with rfl | rfl
  · exact iff_of_true (mp3_seeksToPercent h) (fun hm4a => by cases hm4a)
  · rw [m4a_seeksToPercent h]
    simp

/-- The end of an mp3 file of a thousand bytes, and the start of an m4a file of ten seconds. -/
theorem comPlayer_seeksToPercent_two :
    SeeksToPercent .mp3 ⟨100, 44100, 8000, 2⟩ 1 0 1100 100 ∧
      SeeksToPercent .m4a ⟨441000, 44100, 8000, 2⟩ 430 0 90000 0 := by
  have hmp3 : SeekDomain .mp3 ⟨100, 44100, 8000, 2⟩ 1 1100 100 := by
    constructor <;> norm_num
  have hm4a : SeekDomain .m4a ⟨441000, 44100, 8000, 2⟩ 430 90000 0 := by
    constructor <;> norm_num
    decide
  constructor
  · exact (comPlayer_seeksToPercent hmp3).2 (fun h => by cases h)
  · exact (comPlayer_seeksToPercent hm4a).2 (fun _ => by norm_num)

/-- The middle of an m4a file of ten seconds, 430 samples: sample 21500, and 500 seconds of 10. -/
theorem comPlayer_seek_notScaled :
    SeekDomain .m4a ⟨441000, 44100, 8000, 2⟩ 430 90000 50 ∧
      comPlayerSeek .m4a ⟨441000, 44100, 8000, 2⟩ 0 90000 50 = some ⟨.success, 64000000, .m4a 50⟩ ∧
      comPlayerGetProgress .m4a ⟨441000, 44100, 8000, 2⟩ 64000000 0 90000 = some (500, 10) ∧
      aacSeekSample 50 430 = 21500 ∧
      ¬SeeksToPercent .m4a ⟨441000, 44100, 8000, 2⟩ 430 0 90000 50 := by
  have hdomain : SeekDomain .m4a ⟨441000, 44100, 8000, 2⟩ 430 90000 50 := by
    constructor <;> norm_num
    decide
  refine ⟨hdomain, by decide +kernel, by decide +kernel, by decide +kernel, ?_⟩
  rw [m4a_seeksToPercent hdomain]
  norm_num

end

end AudioPlayer

import Mathlib
import AudioPlayer.ComPlayerSeek

/-!
# The time of all of a track (`src/common_player.c:302-333`, `src/audio_player_process.c:514-531`)

`com_player_get_progress` tests what it divides by, not what comes out: the caller divides by that. The sizes are made
bits first, in 32 of them, with a sign for an aac file (`total_len * 8`) and without for an mp3 file, where `tag_size`
is a `uint32_t`.

| here | there |
|---|---|
| `audioPlayerGetProgress` | `audio_player_get_progress` (`audio_player_process.c:514-531`) |
| `exactAllTime`           | the quotient that is meant, in ℤ |
| `AllTimeFits`            | when it is what the code computes |
-/

namespace AudioPlayer
open Lib

/-- Division of doubles; none for one by zero. -/
def ratDiv? (a b : ℚ) : Option ℚ := if b = 0 then none else some (a / b)

/-- `audio_player_get_progress`: none where it returns false, and in it the quotient. `file` is what
`audio_file_tell` and `audio_file_size` answer, where there is a file. -/
def audioPlayerGetProgress (type : ComPlayerType) (info : AudioDecoderInfo) (consumed : Int)
    (file : Option (Int × Int)) : Option (Option ℚ) := do
  let (curPos, totalLen) ← file
  let (cur, all) ← comPlayerGetProgress type info consumed curPos totalLen
  some (ratDiv? (100 * cur) all)

/-- Seconds: the bits behind the tag by the rate, or the duration by that of the samples. -/
def exactAllTime (type : ComPlayerType) (info : AudioDecoderInfo) (totalLen : Int) : Int :=
  match type with
  | .mp3 => 8 * (totalLen - info.tagSize) / info.bitRate
  | .m4a => info.tagSize / info.sampleRate
  | .aac => 8 * totalLen / info.bitRate

/-- No product of two `int`s that does not fit: only `total_len * 8` is one. -/
def SignedFits (type : ComPlayerType) (totalLen : Int) : Prop := type = .aac → isInt (totalLen * 8)

/-- Where the progress is reported, the time is exact and not 0, and the caller's division is one. -/
def ReportsAllTime (type : ComPlayerType) (info : AudioDecoderInfo) (consumed curPos totalLen : Int) : Prop :=
  ∀ curTime allTime, comPlayerGetProgress type info consumed curPos totalLen = some (curTime, allTime) →
    SignedFits type totalLen ∧ allTime = exactAllTime type info totalLen ∧ 1 ≤ allTime ∧
    audioPlayerGetProgress type info consumed (some (curPos, totalLen)) =
      some (some (100 * curTime / allTime : ℚ))

/-- The bits fit, a second of them is there, and the seconds are an `int`. -/
def AllTimeFits (type : ComPlayerType) (info : AudioDecoderInfo) (totalLen : Int) : Prop :=
  match type with
  | .mp3 => 8 * (totalLen - info.tagSize) < 4294967296 ∧ info.bitRate ≤ 8 * (totalLen - info.tagSize) ∧
      8 * (totalLen - info.tagSize) < 2147483648 * info.bitRate
  | .m4a => info.sampleRate ≤ info.tagSize
  | .aac => 8 * totalLen < 2147483648 ∧ info.bitRate ≤ 8 * totalLen

section
variable {type : ComPlayerType} {info : AudioDecoderInfo} {consumed curPos totalLen bits rate : Int}

/-- Bits that do not fit lose at least one second, as a second is less than what they lose. -/
theorem wrapped_ediv_lt (hrate : 0 < rate) (hrate' : rate < 4294967296) (hbits : 4294967296 ≤ bits) :
    toU32 bits / rate < bits / rate := by
  have hwrap : toU32 bits + rate ≤ bits := by
    unfold toU32
    omega
  have hmul := Int.ediv_mul_le (toU32 bits) (show rate ≠ 0 by omega)
  rw [Int.lt_iff_add_one_le, Int.le_ediv_iff_mul_le hrate, add_mul, one_mul]
  omega

theorem seconds_exact_iff (hbits : 0 ≤ bits) (hrate : 0 < rate) (hrate' : rate < 4294967296) :
    (toI32 (toU32 bits / rate) = bits / rate ∧ 1 ≤ toI32 (toU32 bits / rate)) ↔
      bits < 4294967296 ∧ rate ≤ bits ∧ bits < 2147483648 * rate := by
  have hsecond : 1 ≤ bits / rate ↔ rate ≤ bits := by
    rw [Int.le_ediv_iff_mul_le hrate, one_mul]
  have hint : bits / rate < 2147483648 ↔ bits < 2147483648 * rate := Int.ediv_lt_iff_lt_mul hrate
  rw [← hsecond, ← hint]
  have hwrapped : toU32 bits / rate ≤ toU32 bits := Int.ediv_le_self _ (Int.emod_nonneg _ (by decide))
  have hpos : 0 ≤ toU32 bits / rate := Int.ediv_nonneg (Int.emod_nonneg _ (by decide)) hrate.le
  have hlt : toU32 bits < 4294967296 := Int.emod_lt_of_pos _ (by decide)
  rcases lt_or_ge bits 4294967296 with hfit | hwide
  · rw [toU32_eq hbits hfit] at hwrapped hpos hlt ⊢
    unfold toI32
    omega
  · have hless := wrapped_ediv_lt hrate hrate' hwide
    unfold toI32
    omega

theorem reportsAllTime_iff {curTime allTime : Int}
    (hget : comPlayerGetProgress type info consumed curPos totalLen = some (curTime, allTime)) :
    ReportsAllTime type info consumed curPos totalLen ↔
      SignedFits type totalLen ∧ allTime = exactAllTime type info totalLen ∧ 1 ≤ allTime := by
  constructor
  · intro h
    obtain ⟨hsigned, hexact, hone, -⟩ := h _ _ hget
    exact ⟨hsigned, hexact, hone⟩
  · rintro ⟨hsigned, hexact, hone⟩ cur all hcur
    obtain ⟨rfl, rfl⟩ := Prod.mk.inj (Option.some.inj (hcur.symm.trans hget))
    refine ⟨hsigned, hexact, hone, ?_⟩
    have hall : (all : ℚ) ≠ 0 := by exact_mod_cast (show all ≠ 0 by omega)
    simp only [audioPlayerGetProgress, Option.bind_eq_bind, Option.bind_some, hget, ratDiv?, if_neg hall]

/-- **The time is exact and can be divided by exactly where the bits fit and the track has a second.** -/
theorem comPlayerGetProgress_exact (htag : 0 ≤ info.tagSize) (hcur : info.tagSize ≤ curPos)
    (htotal : curPos ≤ totalLen) (htotal' : totalLen < 2147483648) (hrate : 0 < info.bitRate)
    (hrate' : info.bitRate < 4294967296) (hsample : 0 < info.sampleRate) :
    ReportsAllTime type info consumed curPos totalLen ↔
      totalLen = 0 ∨ info.channels = 0 ∨ AllTimeFits type info totalLen := by
  by_cases hguard : totalLen ≤ 0 ∨ info.bitRate = 0 ∨ info.sampleRate = 0 ∨ info.channels = 0
  · -- false is returned
    have hnone : comPlayerGetProgress type info consumed curPos totalLen = none := by
      unfold comPlayerGetProgress
      rw [if_pos hguard, ite_self]
    refine iff_of_true ?_ ?_
    · intro curTime allTime hget
      rw [hnone] at hget
      cases hget
    · rcases hguard with h | h | h | h
      · exact .inl (by omega)
      · omega
      · omega
      · exact .inr (.inl h)
  · have hcurU32 : toU32 curPos = curPos := toU32_eq (by omega) (by omega)
    have hget : comPlayerGetProgress type info consumed curPos totalLen = some
        (toI32 (consumed / comPlayerFixedChannels / 2 / comPlayerFixedSamplerate), toI32 (match type with
          | .mp3 => toU32 (toU32 (totalLen - info.tagSize) * 8) / info.bitRate
          | .m4a => info.tagSize / info.sampleRate
          | .aac => toU32 (totalLen * 8) / info.bitRate)) := by
      have hbehind : ¬ (type = .mp3 ∧ toU32 curPos < info.tagSize) := by omega
      unfold comPlayerGetProgress
      exact (if_neg hbehind).trans (if_neg hguard)
    have hfalse : ¬ (totalLen = 0) ∧ ¬ (info.channels = 0) := by omega
    rw [reportsAllTime_iff hget, or_iff_right hfalse.1, or_iff_right hfalse.2]
    cases type with
    | mp3 =>
      have hsize : toU32 (totalLen - info.tagSize) = totalLen - info.tagSize := toU32_eq (by omega) (by omega)
      simp only [SignedFits, exactAllTime, AllTimeFits, hsize, mul_comm _ (8 : Int)]
      rw [← seconds_exact_iff (by omega) hrate hrate']
      simp
    | m4a =>
      have hdiv : info.tagSize / info.sampleRate ≤ info.tagSize := Int.ediv_le_self _ htag
      have hdiv0 : 0 ≤ info.tagSize / info.sampleRate := Int.ediv_nonneg htag hsample.le
      simp only [SignedFits, exactAllTime, AllTimeFits]
      rw [toI32_eq (by omega) (by omega), Int.le_ediv_iff_mul_le hsample, one_mul]
      simp
    | aac =>
      have hsigned : SignedFits .aac totalLen ↔ 8 * totalLen < 2147483648 := by
        simp only [SignedFits, true_implies, isInt_iff]
        omega
      simp only [hsigned, exactAllTime, AllTimeFits, mul_comm totalLen (8 : Int)]
      rw [seconds_exact_iff (by omega) hrate hrate']
      constructor
      · rintro ⟨hfit, -, hsecond, -⟩
        exact ⟨hfit, hsecond⟩
      · rintro ⟨hfit, hsecond⟩
        exact ⟨hfit, by omega, hsecond, by omega⟩

theorem comPlayerGetProgress_exact_minute : ReportsAllTime .mp3 ⟨20, 44100, 128000, 2⟩ 0 20 960020 :=
  (comPlayerGetProgress_exact (by decide) (by decide) (by decide) (by decide) (by decide) (by decide)
    (by decide)).2 (.inr (.inr ⟨by decide, by decide, by decide⟩))

/-- A track of 1000 bytes has no second: the caller divides by 0. Of 600 MB the bits wrap, and 37500 seconds become
3945. -/
theorem comPlayerGetProgress_zero :
    comPlayerGetProgress .mp3 ⟨0, 44100, 128000, 2⟩ 0 0 1000 = some (0, 0) ∧
      audioPlayerGetProgress .mp3 ⟨0, 44100, 128000, 2⟩ 0 (some (0, 1000)) = some none ∧
      ¬ ReportsAllTime .mp3 ⟨0, 44100, 128000, 2⟩ 0 0 1000 ∧
      comPlayerGetProgress .mp3 ⟨0, 44100, 128000, 2⟩ 0 0 600000000 = some (0, 3945) ∧
      ¬ ReportsAllTime .mp3 ⟨0, 44100, 128000, 2⟩ 0 0 600000000 := by
  have hshort : comPlayerGetProgress .mp3 ⟨0, 44100, 128000, 2⟩ 0 0 1000 = some (0, 0) := by decide
  have hlarge : comPlayerGetProgress .mp3 ⟨0, 44100, 128000, 2⟩ 0 0 600000000 = some (0, 3945) := by decide
  refine ⟨hshort, ?_, ?_, hlarge, ?_⟩
  · simp [audioPlayerGetProgress, hshort, ratDiv?]
  · intro h
    obtain ⟨-, -, hone, -⟩ := h _ _ hshort
    omega
  · intro h
    obtain ⟨-, hexact, -⟩ := h _ _ hlarge
    exact absurd hexact (by decide)

end

end AudioPlayer

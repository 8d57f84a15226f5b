import Mathlib
import AudioPlayer.Lib.Bytes
import AudioPlayer.ComPlayerSeek

/-!
# The tag of an mp3 file, and where a seek goes (`src/id3tag.c`, `src/mp3_decoder.c:206-208`)

`id3_tag_query` answers with a negative number where the bytes are the footer of a tag that ends there. The decoder
stores the answer in a `uint32_t`, and `com_player_seek` subtracts that from the length of the file and adds it again.

| here | there |
|---|---|
| `id3TagQuery`     | `id3_tag_query` (`id3tag.c:75-104`) of the bytes from `this_frame` to `bufend` |
| `Id3Tag.At`       | what the query looks for: a tag that begins at these bytes, or the footer of one |
| `SeeksIntoFile`   | `com_player_seek` (`common_player.c:211-240`) hands `mp3_decoder_seek` a position in the file |

`unsigned long` has 32 bits. A conversion from `double` to `int` that does not fit is undefined, and no seek succeeds
there.
-/

namespace AudioPlayer
open Lib

inductive TagType
  | none | id3v1 | id3v2 | id3v2Footer
deriving DecidableEq, Repr

/-- `id3_parse_syncsafe` of four bytes (`id3tag.c:29-45`). -/
def id3ParseSyncsafe (ptr : List Byte) : Nat :=
  (ptr.take 4).foldl (fun value b => value <<< 7 ||| (b.toNat &&& 0x7f)) 0

/-- `tagtype` (`id3tag.c:47-62`); the length is that of the list. -/
def tagtype (data : List Byte) : TagType :=
  let at' := fun i => (data.getD i 0).toNat
  if data.length ≥ 3 ∧ at' 0 = 0x54 ∧ at' 1 = 0x41 ∧ at' 2 = 0x47 then .id3v1
  else if data.length ≥ 10 ∧
      (at' 0 = 0x49 ∧ at' 1 = 0x44 ∧ at' 2 = 0x33 ∨ at' 0 = 0x33 ∧ at' 1 = 0x44 ∧ at' 2 = 0x49) ∧
      at' 3 < 0xff ∧ at' 4 < 0xff ∧ at' 6 < 0x80 ∧ at' 7 < 0x80 ∧ at' 8 < 0x80 ∧ at' 9 < 0x80 then
    if at' 0 = 0x49 then .id3v2 else .id3v2Footer
  else .none

def id3TagFlagFooterpresent : Nat := 0x10

/-- `parse_header` (`id3tag.c:64-73`): the flags and the size; the version is not used. -/
def parseHeader (data : List Byte) : Nat × Nat :=
  ((data.getD 5 0).toNat, id3ParseSyncsafe (data.drop 6))

/-- `id3_tag_query` (`id3tag.c:75-104`). -/
def id3TagQuery (data : List Byte) : Int :=
  match tagtype data with
  | .id3v1 => 128
  | .id3v2 =>
    let (flags, size) := parseHeader data
    let size := if flags &&& id3TagFlagFooterpresent ≠ 0 then size + 10 else size
    toI32 (toU32 (10 + size))
  | .id3v2Footer =>
    let (_, size) := parseHeader data
    toI32 (toU32 (toU32 (-size) - 10))
  | .none => 0

/-! ## The tags it finds -/

/-- A tag: one of 128 bytes, one of `size` bytes behind its header and maybe before a footer, or one of `size` bytes
between its header and the footer that is found. -/
inductive Id3Tag
  | v1
  | v2 (size : Nat) (footer : Bool)
  | before (size : Nat)

def Id3Tag.length : Id3Tag → Nat
  | .v1 => 128
  | .v2 size footer => 10 + size + if footer then 10 else 0
  | .before size => 10 + size + 10

/-- A header or a footer of ten bytes: the identifier, a version, flags, and four digits to the base of 128. -/
structure Id3Header (data : List Byte) (id : List Byte) (size : Nat) : Prop where
  length  : 10 ≤ data.length
  id      : data.take 3 = id
  version : (data.getD 3 0).toNat < 255 ∧ (data.getD 4 0).toNat < 255
  digits  : ∀ i, 6 ≤ i → i < 10 → (data.getD i 0).toNat < 128
  size    : size = (((data.getD 6 0).toNat * 128 + (data.getD 7 0).toNat) * 128 + (data.getD 8 0).toNat) * 128 +
    (data.getD 9 0).toNat

/-- The tag is at these bytes: it begins there, or the bytes are its footer. -/
def Id3Tag.At (data : List Byte) : Id3Tag → Prop
  | .v1 => data.take 3 = bytes "TAG"
  | .v2 size footer => Id3Header data (bytes "ID3") size ∧ footer = (data.getD 5 0).toNat.testBit 4
  | .before size => Id3Header data (bytes "3DI") size

/-- `tagSize` is the length of a tag at these bytes, or there is none and it is 0. -/
def IsTagLength (data : List Byte) (tagSize : Int) : Prop :=
  (tagSize = 0 ∧ ∀ tag, ¬ Id3Tag.At data tag) ∨ ∃ tag, Id3Tag.At data tag ∧ tagSize = tag.length

/-- The seek succeeds with a position in the file. -/
def SeeksIntoFile (info : AudioDecoderInfo) (consumed totalLen : Int) (p : ℚ) : Prop :=
  ∃ sought pos, comPlayerSeek .mp3 info consumed totalLen p = some sought ∧ sought.seek = .mp3 pos ∧
    0 ≤ pos ∧ pos < totalLen

/-- The condition: a tag that is not longer than the file, or a seek so near to the start that the difference, which
has wrapped, makes no negative position of it; and less than 2 GiB of samples before the byte. -/
def SeekFits (tagSize bitRate totalLen : Int) (p : ℚ) : Prop :=
  (tagSize ≤ totalLen ∨ (4294967296 + totalLen - tagSize) * p < 100 * (2147483648 - tagSize)) ∧
    1024000 * ⌊toU32 (totalLen - tagSize) * p / 100⌋ < 2147483648 * bitRate

section
variable {data : List Byte} {size : Nat}

theorem take_three (h : 3 ≤ data.length) : data.take 3 = [data.getD 0 0, data.getD 1 0, data.getD 2 0] := by
  match data, h with
  | a :: b :: c :: _, _ => rfl

theorem syncsafe_step (value : Nat) (b : Byte) (hb : b.toNat < 128) :
    value <<< 7 ||| (b.toNat &&& 0x7f) = value * 128 + b.toNat := by
  rw [show (0x7f : Nat) = 2 ^ 7 - 1 from rfl, Nat.and_two_pow_sub_one_eq_mod, Nat.mod_eq_of_lt (by omega),
    ← Nat.shiftLeft_add_eq_or_of_lt (by omega), Nat.shiftLeft_eq]

theorem drop_six (h : 10 ≤ data.length) :
    (data.drop 6).take 4 = [data.getD 6 0, data.getD 7 0, data.getD 8 0, data.getD 9 0] := by
  match data, h with
  | _ :: _ :: _ :: _ :: _ :: _ :: a :: b :: c :: d :: _, _ => rfl

/-- The four digits make a number of 28 bits. -/
theorem Id3Header.parse {id : List Byte} (h : Id3Header data id size) :
    (parseHeader data).2 = size ∧ size < 268435456 := by
  have h6 := h.digits 6 le_rfl (by omega)
  have h7 := h.digits 7 (by omega) (by omega)
  have h8 := h.digits 8 (by omega) (by omega)
  have h9 := h.digits 9 (by omega) (by omega)
  constructor
  · unfold parseHeader id3ParseSyncsafe
    dsimp only
    rw [drop_six h.length, h.size]
    simp only [List.foldl_cons, List.foldl_nil]
    rw [syncsafe_step 0 _ h6, syncsafe_step _ _ h7, syncsafe_step _ _ h8, syncsafe_step _ _ h9, Nat.zero_mul,
      Nat.zero_add]
  · rw [h.size]
    omega

/-- The bit of the footer. -/
theorem footerpresent_iff (flags : Nat) : (flags &&& id3TagFlagFooterpresent ≠ 0) ↔ flags.testBit 4 = true := by
  rw [id3TagFlagFooterpresent, show (0x10 : Nat) = 2 ^ 4 from rfl, Nat.and_two_pow]
  cases flags.testBit 4 <;> simp

theorem take_three_iff (h : 3 ≤ data.length) (x y z : Byte) : data.take 3 = [x, y, z] ↔
    (data.getD 0 0).toNat = x.toNat ∧ (data.getD 1 0).toNat = y.toNat ∧ (data.getD 2 0).toNat = z.toNat := by
  rw [take_three h]
  simp [UInt8.toNat_inj]

theorem length_of_take_three {x y z : Byte} (h : data.take 3 = [x, y, z]) : 3 ≤ data.length := by
  have hlen := congrArg List.length h
  rw [List.length_take] at hlen
  simp only [List.length_cons, List.length_nil] at hlen
  omega

/-- A header is what `tagtype` tests, and its size is the only one. -/
theorem id3Header_iff (x y z : Byte) : (∃ size, Id3Header data [x, y, z] size) ↔
    10 ≤ data.length ∧ ((data.getD 0 0).toNat = x.toNat ∧ (data.getD 1 0).toNat = y.toNat ∧
      (data.getD 2 0).toNat = z.toNat) ∧ (data.getD 3 0).toNat < 255 ∧ (data.getD 4 0).toNat < 255 ∧
      (data.getD 6 0).toNat < 128 ∧ (data.getD 7 0).toNat < 128 ∧ (data.getD 8 0).toNat < 128 ∧
      (data.getD 9 0).toNat < 128 := by
  constructor
  · rintro ⟨size, hlen, hid, ⟨h3, h4⟩, hdigits, -⟩
    exact ⟨hlen, (take_three_iff (by omega) x y z).1 hid, h3, h4, hdigits 6 le_rfl (by omega),
      hdigits 7 (by omega) (by omega), hdigits 8 (by omega) (by omega), hdigits 9 (by omega) (by omega)⟩
  · rintro ⟨hlen, hid, h3, h4, h6, h7, h8, h9⟩
    refine ⟨_, hlen, (take_three_iff (by omega) x y z).2 hid, ⟨h3, h4⟩, ?_, rfl⟩
    intro i hi hi'
    interval_cases i
    · exact h6
    · exact h7
    · exact h8
    · exact h9

/-- What `tagtype` answers is what is there. -/
theorem tagtype_spec (data : List Byte) :
    (tagtype data = .id3v1 ∧ Id3Tag.At data .v1) ∨
    (tagtype data = .id3v2 ∧ ∃ size, Id3Header data (bytes "ID3") size) ∨
    (tagtype data = .id3v2Footer ∧ ∃ size, Id3Header data (bytes "3DI") size) ∨
    (tagtype data = .none ∧ ∀ tag, ¬ Id3Tag.At data tag) := by
  have htag : bytes "TAG" = [0x54, 0x41, 0x47] := rfl
  have hid3 : bytes "ID3" = [0x49, 0x44, 0x33] := rfl
  have h3di : bytes "3DI" = [0x33, 0x44, 0x49] := rfl
  rw [hid3, h3di, id3Header_iff, id3Header_iff]
  by_cases h1 : data.length ≥ 3 ∧ (data.getD 0 0).toNat = 0x54 ∧ (data.getD 1 0).toNat = 0x41 ∧
      (data.getD 2 0).toNat = 0x47
  · refine .inl ⟨if_pos h1, ?_⟩
    rw [Id3Tag.At, htag, take_three_iff h1.1]
    exact h1.2
  · have hrest : tagtype data = if data.length ≥ 10 ∧
        ((data.getD 0 0).toNat = 0x49 ∧ (data.getD 1 0).toNat = 0x44 ∧ (data.getD 2 0).toNat = 0x33 ∨
          (data.getD 0 0).toNat = 0x33 ∧ (data.getD 1 0).toNat = 0x44 ∧ (data.getD 2 0).toNat = 0x49) ∧
        (data.getD 3 0).toNat < 0xff ∧ (data.getD 4 0).toNat < 0xff ∧ (data.getD 6 0).toNat < 0x80 ∧
        (data.getD 7 0).toNat < 0x80 ∧ (data.getD 8 0).toNat < 0x80 ∧ (data.getD 9 0).toNat < 0x80 then
        if (data.getD 0 0).toNat = 0x49 then .id3v2 else .id3v2Footer else .none := if_neg h1
    by_cases h2 : 10 ≤ data.length ∧ ((data.getD 0 0).toNat = (0x49 : Byte).toNat ∧
        (data.getD 1 0).toNat = (0x44 : Byte).toNat ∧ (data.getD 2 0).toNat = (0x33 : Byte).toNat) ∧
        (data.getD 3 0).toNat < 255 ∧ (data.getD 4 0).toNat < 255 ∧ (data.getD 6 0).toNat < 128 ∧
        (data.getD 7 0).toNat < 128 ∧ (data.getD 8 0).toNat < 128 ∧ (data.getD 9 0).toNat < 128
    · refine .inr (.inl ⟨?_, h2⟩)
      rw [hrest, if_pos ⟨h2.1, .inl h2.2.1, h2.2.2⟩]
      exact if_pos h2.2.1.1
    · by_cases h3 : 10 ≤ data.length ∧ ((data.getD 0 0).toNat = (0x33 : Byte).toNat ∧
          (data.getD 1 0).toNat = (0x44 : Byte).toNat ∧ (data.getD 2 0).toNat = (0x49 : Byte).toNat) ∧
          (data.getD 3 0).toNat < 255 ∧ (data.getD 4 0).toNat < 255 ∧ (data.getD 6 0).toNat < 128 ∧
          (data.getD 7 0).toNat < 128 ∧ (data.getD 8 0).toNat < 128 ∧ (data.getD 9 0).toNat < 128
      · refine .inr (.inr (.inl ⟨?_, h3⟩))
        rw [hrest, if_pos ⟨h3.1, .inr h3.2.1, h3.2.2⟩]
        refine if_neg ?_
        rw [h3.2.1.1]
        decide
      · refine .inr (.inr (.inr ⟨?_, ?_⟩))
        · rw [hrest]
          refine if_neg ?_
          rintro ⟨hlen, hid | hid, hrest⟩
          · exact h2 ⟨hlen, hid, hrest⟩
          · exact h3 ⟨hlen, hid, hrest⟩
        · intro tag htagAt
          cases tag with
          | v1 =>
            rw [Id3Tag.At, htag] at htagAt
            have hlen := length_of_take_three htagAt
            exact h1 ⟨hlen, (take_three_iff hlen _ _ _).1 htagAt⟩
          | v2 size footer => exact h2 ((id3Header_iff _ _ _).1 ⟨size, htagAt.1⟩)
          | before size => exact h3 ((id3Header_iff _ _ _).1 ⟨size, htagAt⟩)

theorem Id3Tag.At.length_le {tag : Id3Tag} (h : Id3Tag.At data tag) : (tag.length : Int) ≤ 268435475 := by
  cases tag with
  | v1 => simp [Id3Tag.length]
  | v2 size footer =>
    have hsize := h.1.parse.2
    simp only [Id3Tag.length]
    split <;> omega
  | before size =>
    have hsize := (show Id3Header data _ size from h).parse.2
    simp only [Id3Tag.length]
    omega

/-- The footer of a tag makes the answer negative; else it is the length of the tag, or 0 where there is none. -/
theorem id3TagQuery_spec (data : List Byte) :
    (∃ size : Nat, Id3Tag.At data (.before size) ∧ size < 268435456 ∧ id3TagQuery data = -(size + 10)) ∨
    ((∀ size, ¬ Id3Tag.At data (.before size)) ∧ IsTagLength data (id3TagQuery data)) := by
  have hother : ∀ {id : List Byte} {other : Nat}, data.take 3 = id → id ≠ bytes "3DI" →
      ¬ Id3Tag.At data (.before other) := by
    intro id other hid hne hat
    exact hne (hid.symm.trans hat.id)
  rcases tagtype_spec data with ⟨htype, hat⟩ | ⟨htype, size, hheader⟩ | ⟨htype, size, hheader⟩ | ⟨htype, hnone⟩
  · refine .inr ⟨fun other => hother hat (by decide), .inr ⟨.v1, hat, ?_⟩⟩
    simp [id3TagQuery, htype, Id3Tag.length]
  · refine .inr ⟨fun other => hother hheader.id (by decide), .inr
      ⟨.v2 size ((data.getD 5 0).toNat.testBit 4), ⟨hheader, rfl⟩, ?_⟩⟩
    obtain ⟨hparse, hsize⟩ := hheader.parse
    have hflags : (parseHeader data).1 = (data.getD 5 0).toNat := rfl
    simp only [id3TagQuery, htype, hparse, hflags, footerpresent_iff, Id3Tag.length]
    cases (data.getD 5 0).toNat.testBit 4 with
    | false =>
      simp only [Bool.false_eq_true, if_false]
      rw [toU32_eq (by omega) (by omega), toI32_eq (by omega) (by omega)]
      omega
    | true =>
      simp only [if_true]
      rw [toU32_eq (by omega) (by omega), toI32_eq (by omega) (by omega)]
      omega
  · refine .inl ⟨size, hheader, hheader.parse.2, ?_⟩
    obtain ⟨hparse, hsize⟩ := hheader.parse
    simp only [id3TagQuery, htype, hparse, toU32, toI32]
    omega
  · refine .inr ⟨fun size => hnone _, .inl ⟨?_, hnone⟩⟩
    simp [id3TagQuery, htype]

/-- The value that is stored is the length of a tag unless the bytes are a footer. -/
theorem stored_isTagLength (data : List Byte) :
    (IsTagLength data (toU32 (id3TagQuery data)) ∧ toU32 (id3TagQuery data) ≤ 268435475) ∧
      (∀ size, ¬ Id3Tag.At data (.before size)) ∨
    ¬ IsTagLength data (toU32 (id3TagQuery data)) ∧ ∃ size, Id3Tag.At data (.before size) := by
  rcases id3TagQuery_spec data with ⟨size, hat, hsize, hquery⟩ | ⟨hnone, hlength⟩
  · refine .inr ⟨?_, size, hat⟩
    rw [hquery]
    rintro (⟨-, hno⟩ | ⟨tag, htag, heq⟩)
    · exact hno _ hat
    · -- the answer is negative, and so wraps to a number that no tag is as long as
      have hle := htag.length_le
      rw [← heq, toU32] at hle
      omega
  · have hrange : 0 ≤ id3TagQuery data ∧ id3TagQuery data ≤ 268435475 := by
      rcases hlength with ⟨hzero, -⟩ | ⟨tag, htag, heq⟩
      · omega
      · have hle := htag.length_le
        omega
    rw [toU32_eq hrange.1 (by omega)]
    exact .inl ⟨⟨hlength, hrange.2⟩, hnone⟩

end

/-! ## The position -/

section
variable {info : AudioDecoderInfo} {consumed totalLen : Int} {p : ℚ}

/-- Conversion to `int` where the fraction is cut off a number that is not negative. -/
theorem ratToInt?_some {x : ℚ} (h : 0 ≤ x) {n : Int} : ratToInt? x = some n ↔ x < 2147483648 ∧ n = ⌊x⌋ := by
  constructor
  · intro hsome
    have hlt : x < 2147483648 := by
      by_contra hge
      have hfloor : (2147483648 : Int) ≤ ⌊x⌋ := Int.le_floor.2 (by push_cast; linarith)
      rw [ratToInt?, ratTrunc_eq h, int32?, if_neg (by omega)] at hsome
      cases hsome
    rw [ratToInt?_eq h hlt] at hsome
    exact ⟨hlt, (Option.some.inj hsome).symm⟩
  · rintro ⟨hlt, rfl⟩
    exact ratToInt?_eq h hlt

/-- What `com_player_seek` does for an mp3 file: the byte has to fit, and the samples; the position is cut at the end
of the file, so that only its sign is left. -/
theorem seeksIntoFile_iff (htotal : 0 < totalLen) (hrate : 0 < info.bitRate) (hsample : 0 < info.sampleRate)
    (hchannels : 0 < info.channels) (hp0 : 0 ≤ p) :
    SeeksIntoFile info consumed totalLen p ↔
      toU32 (totalLen - info.tagSize) * p / 100 < 2147483648 ∧
      1024000 * ⌊toU32 (totalLen - info.tagSize) * p / 100⌋ < 2147483648 * info.bitRate ∧
      0 ≤ toI32 (toU32 (⌊toU32 (totalLen - info.tagSize) * p / 100⌋ + info.tagSize)) := by
  have hguard : ¬(totalLen ≤ 0 ∨ info.bitRate = 0 ∨ info.sampleRate = 0 ∨ info.channels = 0) := by omega
  have hsize : (0 : ℚ) ≤ toU32 (totalLen - info.tagSize) := by
    exact_mod_cast Int.emod_nonneg _ (by decide)
  have hbyte : 0 ≤ toU32 (totalLen - info.tagSize) * p / 100 := by positivity
  have hbit : (0 : ℚ) < info.bitRate := by exact_mod_cast hrate
  unfold SeeksIntoFile comPlayerSeek
  simp only [if_neg hguard]
  generalize (toU32 (totalLen - info.tagSize) : ℚ) * p / 100 = byte at hbyte ⊢
  have hfloor : (0 : ℚ) ≤ ⌊byte⌋ := by exact_mod_cast Int.floor_nonneg.2 hbyte
  have hratio : (comPlayerFixedChannels : ℚ) * comPlayerFixedSamplerate * 2 * ⌊byte⌋ * 8 / info.bitRate =
      1024000 * ⌊byte⌋ / info.bitRate := by
    norm_num [comPlayerFixedChannels, comPlayerFixedSamplerate]
    ring
  have hsamples : 0 ≤ 1024000 * (⌊byte⌋ : ℚ) / info.bitRate := by positivity
  have hfits : 1024000 * (⌊byte⌋ : ℚ) / info.bitRate < 2147483648 ↔ 1024000 * ⌊byte⌋ < 2147483648 * info.bitRate := by
    rw [div_lt_iff₀ hbit]
    exact_mod_cast Iff.rfl
  simp only [Option.bind_eq_bind, Option.bind_eq_some_iff]
  constructor
  · rintro ⟨sought, pos, ⟨curPos, hcur, samples, hsome, heq⟩, hseek, hpos⟩
    obtain ⟨hlt, rfl⟩ := (ratToInt?_some hbyte).1 hcur
    rw [hratio] at hsome
    refine ⟨hlt, hfits.1 ((ratToInt?_some hsamples).1 hsome).1, ?_⟩
    rw [← Option.some.inj heq] at hseek
    have hval := DecoderSeek.mp3.inj hseek
    split at hval <;> omega
  · rintro ⟨hlt, hint, hsign⟩
    have hsome := ratToInt?_eq hsamples (hfits.2 hint)
    rw [← hratio] at hsome
    refine ⟨_, _, ⟨⌊byte⌋, ratToInt?_eq hbyte hlt, _, hsome, rfl⟩, rfl, ?_⟩
    split <;> omega

/-- For a tag that the query can find, the sign is lost only where the tag is longer than the file. -/
theorem seeksIntoFile_iff_seekFits (htotal : 0 < totalLen) (htotal' : totalLen < 2147483648)
    (hrate : 0 < info.bitRate) (hsample : 0 < info.sampleRate) (hchannels : 0 < info.channels) (hp0 : 0 ≤ p)
    (hp : p ≤ 100) (htag : 0 ≤ info.tagSize) (htag' : info.tagSize ≤ 268435475) :
    SeeksIntoFile info consumed totalLen p ↔ SeekFits info.tagSize info.bitRate totalLen p := by
  rw [seeksIntoFile_iff htotal hrate hsample hchannels hp0]
  generalize info.tagSize = tagSize at htag htag' ⊢
  unfold SeekFits
  by_cases hlong : tagSize ≤ totalLen
  · -- the byte is one behind the tag
    have hsize : toU32 (totalLen - tagSize) = totalLen - tagSize := toU32_eq (by omega) (by omega)
    rw [hsize]
    obtain ⟨size, hsize'⟩ : ∃ size, totalLen - tagSize = size := ⟨_, rfl⟩
    rw [hsize']
    have hsize0 : (0 : ℚ) ≤ size := by exact_mod_cast (show 0 ≤ size by omega)
    have hbyte0 : 0 ≤ size * p / 100 := by positivity
    have hbyte : size * p / 100 ≤ size := by
      have := mul_le_mul_of_nonneg_left hp hsize0
      linarith
    have hfloor0 := Int.floor_nonneg.2 hbyte0
    have hfloor : ⌊size * p / 100⌋ ≤ size := by exact_mod_cast (Int.floor_le _).trans hbyte
    have hlt : size * p / 100 < 2147483648 :=
      hbyte.trans_lt (by exact_mod_cast (show size < 2147483648 by omega))
    rw [toU32_eq (by omega) (by omega), toI32_eq (by omega) (by omega)]
    constructor
    · exact fun h => ⟨.inl hlong, h.2.1⟩
    · exact fun h => ⟨hlt, h.2, by omega⟩
  · -- the difference has wrapped
    have hsize : toU32 (totalLen - tagSize) = 4294967296 + totalLen - tagSize := by
      unfold toU32
      omega
    rw [hsize]
    obtain ⟨size, hsize'⟩ : ∃ size, 4294967296 + totalLen - tagSize = size := ⟨_, rfl⟩
    have hcast : (4294967296 : ℚ) + totalLen - tagSize = size := by exact_mod_cast hsize'
    rw [hsize', hcast]
    have hsize0 : (0 : ℚ) ≤ size := by exact_mod_cast (show 0 ≤ size by omega)
    have hbyte0 : 0 ≤ size * p / 100 := by positivity
    have hfloor0 := Int.floor_nonneg.2 hbyte0
    have hfits : size * p < 100 * (2147483648 - tagSize) ↔ ⌊size * p / 100⌋ < 2147483648 - tagSize := by
      rw [Int.floor_lt, div_lt_iff₀ (by norm_num)]
      push_cast
      rw [mul_comm (100 : ℚ)]
    rw [hfits]
    constructor
    · rintro ⟨hlt, hint, hsign⟩
      have hfloor : ⌊size * p / 100⌋ < 2147483648 := Int.floor_lt.2 (by exact_mod_cast hlt)
      refine ⟨.inr ?_, hint⟩
      rw [toU32_eq (by omega) (by omega), toI32] at hsign
      omega
    · rintro ⟨hshort | hnear, hint⟩
      · exact absurd hshort hlong
      · refine ⟨?_, hint, ?_⟩
        · have hfloor := Int.lt_floor_add_one (size * p / 100)
          have hnear' : ((⌊size * p / 100⌋ : Int) : ℚ) + 1 ≤ 2147483648 := by exact_mod_cast (by omega)
          linarith
        · rw [toU32_eq (by omega) (by omega), toI32_eq (by omega) (by omega)]
          omega

/-- There is one tag at most. -/
theorem IsTagLength.unique {data : List Byte} {a b : Int} (ha : IsTagLength data a) (hb : IsTagLength data b) :
    a = b := by
  have hids : bytes "ID3" ≠ bytes "3DI" ∧ bytes "TAG" ≠ bytes "ID3" ∧ bytes "TAG" ≠ bytes "3DI" := by decide
  rcases ha with ⟨rfl, hnone⟩ | ⟨tag, htag, rfl⟩ <;> rcases hb with ⟨rfl, hnone'⟩ | ⟨tag', htag', rfl⟩
  · rfl
  · exact absurd htag' (hnone tag')
  · exact absurd htag (hnone' tag)
  · cases tag with
    | v1 =>
      cases tag' with
      | v1 => rfl
      | v2 size' footer' => exact absurd (htag.symm.trans htag'.1.id) hids.2.1
      | before size' => exact absurd (htag.symm.trans htag'.id) hids.2.2
    | v2 size footer =>
      cases tag' with
      | v1 => exact absurd (htag'.symm.trans htag.1.id) hids.2.1
      | v2 size' footer' =>
        obtain ⟨hheader, rfl⟩ := htag
        obtain ⟨hheader', rfl⟩ := htag'
        rw [hheader.size, hheader'.size]
      | before size' => exact absurd (htag.1.id.symm.trans htag'.id) hids.1
    | before size =>
      cases tag' with
      | v1 => exact absurd (htag'.symm.trans htag.id) hids.2.2
      | v2 size' footer' => exact absurd (htag'.1.id.symm.trans htag.id) hids.1
      | before size' =>
        rw [show Id3Tag.before size = Id3Tag.before size' from
          congrArg Id3Tag.before (htag.size.trans htag'.size.symm)]

/-- **The stored size is the length of a tag, and a seek hands over a position in the file, exactly where the bytes
are no footer, and the tag fits the file or the seek is near to the start.** -/
theorem mp3_seeksIntoFile {data : List Byte} {env : Mp3Env} {mem : Mp3DecoderMemory}
    (hmem : mem.decoderInfo.tagSize = 0) (henv : env.tagSize = toU32 (id3TagQuery data))
    (hinfo : info.tagSize = (mp3DecoderTag env mem).decoderInfo.tagSize) (htotal : 0 < totalLen)
    (htotal' : totalLen < 2147483648) (hrate : 0 < info.bitRate) (hsample : 0 < info.sampleRate)
    (hchannels : 0 < info.channels) (hp0 : 0 ≤ p) (hp : p ≤ 100) :
    (IsTagLength data info.tagSize ∧ SeeksIntoFile info consumed totalLen p) ↔
      (∀ size, ¬ Id3Tag.At data (.before size)) ∧
      ∀ tagSize, IsTagLength data tagSize → SeekFits tagSize info.bitRate totalLen p := by
  have hstored : info.tagSize = toU32 (id3TagQuery data) := by
    rw [hinfo, mp3DecoderTag, if_pos (by omega)]
    exact henv
  rcases stored_isTagLength data with ⟨⟨hlength, hle⟩, hnone⟩ | ⟨hlength, size, hat⟩
  · rw [← hstored] at hlength hle
    have h0 : 0 ≤ info.tagSize := by
      rw [hstored]
      exact Int.emod_nonneg _ (by decide)
    rw [seeksIntoFile_iff_seekFits htotal htotal' hrate hsample hchannels hp0 hp h0 hle]
    constructor
    · rintro ⟨-, hfits⟩
      refine ⟨hnone, ?_⟩
      intro tagSize htag
      rw [htag.unique hlength]
      exact hfits
    · rintro ⟨-, hfits⟩
      exact ⟨hlength, hfits _ hlength⟩
  · rw [hstored]
    exact ⟨fun h => absurd h.1 hlength, fun h => absurd hat (h.1 size)⟩

/-- A tag of 20 bytes at the start of 1000, and the middle of what is behind it. -/
theorem mp3_seeksIntoFile_tag :
    IsTagLength [0x49, 0x44, 0x33, 3, 0, 0, 0, 0, 0, 10] 20 ∧ SeeksIntoFile ⟨20, 44100, 128000, 2⟩ 0 1000 50 := by
  have hat : Id3Tag.At [0x49, 0x44, 0x33, 3, 0, 0, 0, 0, 0, 10] (.v2 10 false) := by
    refine ⟨⟨by decide, rfl, by decide, ?_, rfl⟩, rfl⟩
    intro i hi hi'
    interval_cases i <;> decide
  have hlength : IsTagLength [0x49, 0x44, 0x33, 3, 0, 0, 0, 0, 0, 10] 20 := .inr ⟨_, hat, rfl⟩
  refine (@mp3_seeksIntoFile ⟨20, 44100, 128000, 2⟩ 0 1000 50 _ ⟨takesAll, takesAll, 0, 20, .error 0⟩ {} rfl rfl rfl
    (by decide) (by decide) (by decide) (by decide) (by decide) (by norm_num) (by norm_num)).2 ⟨?_, ?_⟩
  · intro size hbefore
    exact absurd hbefore.id (by decide)
  · intro tagSize htag
    rw [htag.unique hlength]
    refine ⟨.inl (by norm_num), ?_⟩
    norm_num [toU32]

/-- The footer of an empty tag at the start of 1000 bytes: the size is `2^32 - 10`, and a seek to the start is one to
byte `-10`. -/
theorem mp3_seek_footer :
    id3TagQuery [0x33, 0x44, 0x49, 3, 0, 0, 0, 0, 0, 0] = -10 ∧ toU32 (-10) = 4294967286 ∧
      ¬ IsTagLength [0x33, 0x44, 0x49, 3, 0, 0, 0, 0, 0, 0] 4294967286 ∧
      comPlayerSeek .mp3 ⟨4294967286, 44100, 128000, 2⟩ 0 1000 0 = some ⟨.success, 0, .mp3 (-10)⟩ := by
  refine ⟨by decide, by decide, ?_, by decide +kernel⟩
  rintro (⟨hzero, -⟩ | ⟨tag, htag, heq⟩)
  · exact absurd hzero (by decide)
  · have hle := htag.length_le
    omega

end

end AudioPlayer

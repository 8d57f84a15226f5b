import Mathlib
import AudioPlayer.Mp4ff.Sample

/-!
# Opening an m4a file (`faad2-2.7/common/mp4ff/mp4atom.c`, `mp4ff.c:35-222`)

A file is a sequence of atoms, each with its size and a name of four characters in front; what is in an atom of some of
the names is a sequence of atoms again. `mp4ff_open_read` goes through all of them and keeps the tables of each track.

| here | there |
|---|---|
| `AtomType`, `mp4AtomNames` | `ATOM_…` (`mp4ffint.h:48-126`), `mp4ff_atom_name_to_type` (`mp4atom.c:75-229`) |
| `mp4ffAtomReadHeader`      | `mp4atom.c:232-257` |
| `mp4ffReadStsz`, `…Stts`, `…Ctts`, `…Stsc`, `…Stco`, `…Stsd`, `…Mp4a`, `…Esds`, `…Mvhd`, `…Mdhd` | `:259-621` |
| `mp4ffReadMeta`            | `:623-647`, with `mp4ff_parse_metadata` and `mp4ff_parse_tag` (`mp4meta.c:221-343`) |
| `mp4ffAtomRead`            | `mp4atom.c:650-689` |
| `mp4ffParseSubAtoms`, `mp4ffParseAtoms` | `mp4ff.c:141-222`, with `meta_only` 0 |

The loops take a number of turns; what has not come to an end in them has no value. The tags are read and left out:
nothing in the player asks for them. A block that `malloc` did not give has no value where it is written to.
-/

namespace AudioPlayer
open Lib

inductive AtomType
  | moov | trak | edts | mdia | minf | stbl | udta | ilst | title | artist | writer | album | date | tool | comment
  | genre1 | track | disc | compilation | genre2 | tempo | cover | drms | sinf | schi
  | ftyp | mdat | mvhd | tkhd | tref | mdhd | vmhd | smhd | hmhd | stsd | stts | stsz | stz2 | stco | stsc | mp4a | mp4v
  | mp4s | esds | metaAtom | name | data | ctts | frma | iviv | priv | user | key | albumArtist | contentgroup | lyrics
  | description | network | showAtom | episodename | sorttitle | sortalbum | sortartist | sortalbumartist | sortwriter
  | sortshow | season | episode | podcast | unknown
deriving DecidableEq

/-- Below `SUBATOMIC`: the atom consists of atoms. -/
def AtomType.subatomic : AtomType → Bool
  | .moov | .trak | .edts | .mdia | .minf | .stbl | .udta | .ilst | .title | .artist | .writer | .album | .date | .tool
  | .comment | .genre1 | .track | .disc | .compilation | .genre2 | .tempo | .cover | .drms | .sinf | .schi => true
  | _ => false

def mp4AtomNames : List (List Byte × AtomType) :=
  [(bytes "moov", .moov), (bytes "minf", .minf), (bytes "mdia", .mdia), (bytes "mdat", .mdat), (bytes "mdhd", .mdhd),
   (bytes "mvhd", .mvhd), (bytes "mp4a", .mp4a), (bytes "mp4v", .mp4v), (bytes "mp4s", .mp4s), (bytes "meta", .metaAtom),
   (bytes "trak", .trak), (bytes "tkhd", .tkhd), (bytes "tref", .tref), (bytes "trkn", .track), (bytes "tmpo", .tempo),
   (bytes "tvnn", .network), (bytes "tvsh", .showAtom), (bytes "tven", .episodename), (bytes "tvsn", .season),
   (bytes "tves", .episode), (bytes "stbl", .stbl), (bytes "smhd", .smhd), (bytes "stsd", .stsd), (bytes "stts", .stts),
   (bytes "stco", .stco), (bytes "stsc", .stsc), (bytes "stsz", .stsz), (bytes "stz2", .stz2), (bytes "skip", .unknown),
   (bytes "sinf", .sinf), (bytes "schi", .schi), (bytes "sonm", .sorttitle), (bytes "soal", .sortalbum),
   (bytes "soar", .sortartist), (bytes "soaa", .sortalbumartist), (bytes "soco", .sortwriter), (bytes "sosn", .sortshow),
   (169 :: bytes "nam", .title), (169 :: bytes "ART", .artist), (169 :: bytes "wrt", .writer), (169 :: bytes "alb", .album),
   (169 :: bytes "day", .date), (169 :: bytes "too", .tool), (169 :: bytes "cmt", .comment), (169 :: bytes "gen", .genre1),
   (169 :: bytes "grp", .contentgroup), (169 :: bytes "lyr", .lyrics), (bytes "edts", .edts), (bytes "esds", .esds),
   (bytes "ftyp", .ftyp), (bytes "free", .unknown), (bytes "hmhd", .hmhd), (bytes "vmhd", .vmhd), (bytes "udta", .udta),
   (bytes "ilst", .ilst), (bytes "name", .name), (bytes "data", .data), (bytes "disk", .disc), (bytes "gnre", .genre2),
   (bytes "covr", .cover), (bytes "cpil", .compilation), (bytes "ctts", .ctts), (bytes "drms", .drms), (bytes "frma", .frma),
   (bytes "priv", .priv), (bytes "iviv", .iviv), (bytes "user", .user), (bytes "key ", .key), (bytes "aART", .albumArtist),
   (bytes "desc", .description), (bytes "pcst", .podcast)]

def mp4ffAtomNameToType (name : List Byte) : AtomType :=
  ((mp4AtomNames.find? fun e => e.1 = name).map Prod.snd).getD .unknown

structure AtomHeader where
  size       : Nat := 0
  type       : AtomType := .unknown
  headerSize : Nat := 0
deriving DecidableEq

section
variable (alloc : Mp4Alloc) (R : List Byte)

/-- The size and its kind; at the end of the file the size is 0 and the rest as it was. -/
def mp4ffAtomReadHeader (h : AtomHeader) : Mp4Scan AtomHeader := do
  let header ← mp4ffReadData R 8
  if header.length ≠ 8 then pure { h with size := 0 }
  else if toU64 (toI32 (ofBeBytes (header.take 4))) = 1 then do
    let size ← mp4ffReadInt64 R
    pure ⟨size, mp4ffAtomNameToType (header.drop 4), 16⟩
  else pure ⟨toU64 (toI32 (ofBeBytes (header.take 4))), mp4ffAtomNameToType (header.drop 4), 8⟩

/-- The version and the flags in front of a table. -/
def mp4ffReadVersion : Mp4Scan Unit := do
  let _ ← mp4ffReadChar R
  let _ ← mp4ffReadInt24 R
  pure ()

/-- `count` entries, into an array of `size` bytes that may not be there. -/
def mp4ffReadArray {α : Type} (size count : Int) (entry : Mp4Scan α) : Mp4Scan (List α) :=
  if count ≤ 0 then pure [] else if alloc size then times entry count.toNat else failure

def mp4ffReadStsz (t : Mp4ffTrack) : Mp4Scan Mp4ffTrack := do
  mp4ffReadVersion R
  let stszSampleSize ← mp4ffReadSigned R
  let stszSampleCount ← mp4ffReadSigned R
  if stszSampleSize = 0 then do
    let stszTable ← mp4ffReadArray alloc (4 * stszSampleCount) stszSampleCount (mp4ffReadSigned R)
    pure { t with stszSampleSize, stszSampleCount, stszTable }
  else pure { t with stszSampleSize, stszSampleCount }

def mp4ffReadPair : Mp4Scan (Int × Int) := do
  let a ← mp4ffReadSigned R
  let b ← mp4ffReadSigned R
  pure (a, b)

/-- The entries of `stts` and `ctts`, none if there is no memory for them. -/
def mp4ffReadPairs : Mp4Scan (Int × List (Int × Int)) := do
  mp4ffReadVersion R
  let count ← mp4ffReadSigned R
  if alloc (4 * count) then do
    let entries ← times (mp4ffReadPair R) count.toNat
    pure (count, entries)
  else pure (0, [])

def mp4ffReadStts (t : Mp4ffTrack) : Mp4Scan Mp4ffTrack :=
  if t.sttsEntryCount ≠ 0 then pure t
  else do
    let (count, entries) ← mp4ffReadPairs alloc R
    pure { t with sttsEntryCount := count, stts := entries }

def mp4ffReadCtts (t : Mp4ffTrack) : Mp4Scan Mp4ffTrack :=
  if t.cttsEntryCount ≠ 0 then pure t
  else do
    let (count, entries) ← mp4ffReadPairs alloc R
    pure { t with cttsEntryCount := count, ctts := entries }

def mp4ffReadStscEntry : Mp4Scan StscEntry := do
  let firstChunk ← mp4ffReadSigned R
  let samplesPerChunk ← mp4ffReadSigned R
  let sampleDescIndex ← mp4ffReadSigned R
  pure { firstChunk, samplesPerChunk, sampleDescIndex }

def mp4ffReadStsc (t : Mp4ffTrack) : Mp4Scan Mp4ffTrack := do
  mp4ffReadVersion R
  let count ← mp4ffReadSigned R
  let stsc ← mp4ffReadArray alloc (4 * count) count (mp4ffReadStscEntry R)
  pure { t with stscEntryCount := count, stsc }

def mp4ffReadStco (t : Mp4ffTrack) : Mp4Scan Mp4ffTrack := do
  mp4ffReadVersion R
  let count ← mp4ffReadSigned R
  let stcoChunkOffset ← mp4ffReadArray alloc (4 * count) count (mp4ffReadSigned R)
  pure { t with stcoEntryCount := count, stcoChunkOffset }

/-- The decoder configuration: its length, and if there is a block for it, its bytes. -/
def mp4ffReadDecoderConfig (t : Mp4ffTrack) : Mp4Scan Mp4ffTrack := do
  let length ← mp4ffReadMp4DescrLength R
  if alloc length then do
    let decoderConfig ← mp4ffReadData R length
    if decoderConfig.length = length then pure { t with decoderConfig } else failure
  else pure { t with decoderConfig := [] }

def mp4ffReadDecoderDescr (t : Mp4ffTrack) : Mp4Scan Mp4ffTrack := do
  let tag ← mp4ffReadChar R
  if tag ≠ 4 then pure t
  else do
    let length ← mp4ffReadMp4DescrLength R
    if length < 13 then pure t
    else do
      let audioType ← mp4ffReadChar R
      let _ ← mp4ffReadInt32 R
      let maxBitrate ← mp4ffReadInt32 R
      let avgBitrate ← mp4ffReadInt32 R
      let tag ← mp4ffReadChar R
      if tag ≠ 5 then pure { t with audioType, maxBitrate, avgBitrate }
      else mp4ffReadDecoderConfig alloc R { t with audioType, maxBitrate, avgBitrate }

def mp4ffReadEsds (t : Mp4ffTrack) : Mp4Scan Mp4ffTrack := do
  mp4ffReadVersion R
  let tag ← mp4ffReadChar R
  if tag = 3 then do
    let length ← mp4ffReadMp4DescrLength R
    if length < 20 then pure t
    else do
      let _ ← mp4ffReadInt24 R
      mp4ffReadDecoderDescr alloc R t
  else do
    let _ ← mp4ffReadInt16 R
    mp4ffReadDecoderDescr alloc R t

def mp4ffReadMp4a (t : Mp4ffTrack) : Mp4Scan Mp4ffTrack := do
  let _ ← times (mp4ffReadChar R) 6
  let _ ← mp4ffReadInt16 R
  let _ ← mp4ffReadInt32 R
  let _ ← mp4ffReadInt32 R
  let channelCount ← mp4ffReadInt16 R
  let sampleSize ← mp4ffReadInt16 R
  let _ ← mp4ffReadInt16 R
  let _ ← mp4ffReadInt16 R
  let sampleRate ← mp4ffReadInt16 R
  let _ ← mp4ffReadInt16 R
  let h ← mp4ffAtomReadHeader R {}
  if h.type = .esds then mp4ffReadEsds alloc R { t with channelCount, sampleSize, sampleRate }
  else pure { t with channelCount, sampleSize, sampleRate }

/-- What a sample description says of its track. -/
def mp4ffReadStsdEntry (type : AtomType) (t : Mp4ffTrack) : Mp4Scan Mp4ffTrack :=
  match type with
  | .mp4a => mp4ffReadMp4a alloc R { t with type := .audio }
  | .mp4v => pure { t with type := .video }
  | .mp4s => pure { t with type := .system }
  | _ => pure { t with type := .unknown }

/-- A turn of the loop: a description, and a seek behind it. -/
def mp4ffStsdTurn (t : Mp4ffTrack) : Mp4Scan Mp4ffTrack := do
  let skip ← mp4ffPosition
  let h ← mp4ffAtomReadHeader R {}
  let t ← mp4ffReadStsdEntry alloc R h.type t
  mp4ffSetPosition R (toI64 (skip + h.size))
  pure t

def mp4ffStsdLoop : Nat → Mp4ffTrack → Mp4Scan Mp4ffTrack
  | 0, t => pure t
  | n + 1, t => do
    let t ← mp4ffStsdTurn alloc R t
    mp4ffStsdLoop n t

def mp4ffReadStsd (t : Mp4ffTrack) : Mp4Scan Mp4ffTrack := do
  mp4ffReadVersion R
  let stsdEntryCount ← mp4ffReadSigned R
  mp4ffStsdLoop alloc R stsdEntryCount.toNat { t with stsdEntryCount }

/-- `time_scale` and `duration` of the file. -/
def mp4ffReadMvhd : Mp4Scan (Int × Int) := do
  mp4ffReadVersion R
  let _ ← mp4ffReadInt32 R
  let _ ← mp4ffReadInt32 R
  let timeScale ← mp4ffReadSigned R
  let duration ← mp4ffReadSigned R
  let _ ← mp4ffReadInt32 R
  let _ ← mp4ffReadInt16 R
  let _ ← times (mp4ffReadChar R) 10
  let _ ← times (mp4ffReadInt32 R) 9
  let _ ← times (mp4ffReadInt32 R) 7
  pure (timeScale, duration)

/-- The time scale and the duration, behind the two times. -/
def mp4ffReadMdhdTimes (version : Nat) : Mp4Scan (Nat × Nat) :=
  if version = 1 then do
    let _ ← mp4ffReadInt64 R
    let _ ← mp4ffReadInt64 R
    let timeScale ← mp4ffReadInt32 R
    let duration ← mp4ffReadInt64 R
    pure (timeScale, duration)
  else do
    let _ ← mp4ffReadInt32 R
    let _ ← mp4ffReadInt32 R
    let timeScale ← mp4ffReadInt32 R
    let temp ← mp4ffReadInt32 R
    pure (timeScale, if temp = 4294967295 then 18446744073709551615 else temp)

def mp4ffReadMdhd (t : Mp4ffTrack) : Mp4Scan Mp4ffTrack := do
  let version ← mp4ffReadInt32 R
  let (timeScale, duration) ← mp4ffReadMdhdTimes R version
  let _ ← mp4ffReadInt16 R
  let _ ← mp4ffReadInt16 R
  pure { t with timeScale, duration }

/-! ## The tags -/

def mp4ffReadString (length : Nat) : Mp4Scan Unit :=
  if alloc ((length + 1) % 4294967296) then do
    let _ ← mp4ffReadData R length
    pure ()
  else pure ()

/-- The value of a tag, and whether the tag is done with it. -/
def mp4ffReadTagData (parent : AtomType) (h : AtomHeader) : Mp4Scan Bool := do
  mp4ffReadVersion R
  let _ ← mp4ffReadInt32 R
  if parent = .genre2 ∨ parent = .tempo then
    if 10 ≤ toU64 (h.size - h.headerSize) then do
      let _ ← mp4ffReadInt16 R
      pure true
    else pure false
  else if parent = .track ∨ parent = .disc then
    if 14 ≤ toU64 (h.size - h.headerSize) then do
      let _ ← times (mp4ffReadInt16 R) 3
      pure true
    else pure false
  else do
    mp4ffReadString alloc R (toU32 (h.size - (h.headerSize + 8))).toNat
    pure false

def mp4ffReadTagAtom (parent : AtomType) (h : AtomHeader) : Mp4Scan Bool :=
  match h.type with
  | .data => mp4ffReadTagData alloc R parent h
  | .name => do
    mp4ffReadVersion R
    mp4ffReadString alloc R (toU32 (h.size - (h.headerSize + 4))).toNat
    pure false
  | _ => pure false

/-- The loop of `mp4ff_parse_tag`: once the tag is done, `sumsize` stays what it is. -/
def mp4ffTagLoop (parent : AtomType) (size : Nat) : Nat → AtomHeader → Nat → Bool → Mp4Scan Unit
  | 0, _, _, _ => failure
  | fuel + 1, h, sumsize, done =>
    if sumsize < size then do
      let h ← mp4ffAtomReadHeader R h
      let position ← mp4ffPosition
      if done then mp4ffTagLoop parent size fuel h sumsize done
      else do
        let done ← mp4ffReadTagAtom alloc R parent h
        mp4ffSetPosition R (toI64 (position + h.size - h.headerSize))
        mp4ffTagLoop parent size fuel h ((sumsize + h.size) % 18446744073709551616) done
    else pure ()

/-- The loop of `mp4ff_parse_metadata`. -/
def mp4ffMetadataLoop (size : Nat) : Nat → AtomHeader → Nat → Mp4Scan Unit
  | 0, _, _ => failure
  | fuel + 1, h, sumsize =>
    if sumsize < size then do
      let h ← mp4ffAtomReadHeader R h
      if h.size = 0 then pure ()
      else do
        mp4ffTagLoop alloc R h.type (toU64 (toI32 (h.size - h.headerSize))) fuel {} 0 false
        mp4ffMetadataLoop size fuel h ((sumsize + h.size) % 18446744073709551616)
    else pure ()

/-- The loop of `mp4ff_read_meta`. -/
def mp4ffMetaLoop (size : Nat) : Nat → AtomHeader → Nat → Mp4Scan Unit
  | 0, _, _ => failure
  | fuel + 1, h, sumsize =>
    if sumsize < toU64 (size - (h.headerSize + 4)) then do
      let h ← mp4ffAtomReadHeader R h
      if h.size ≤ h.headerSize + 4 then pure ()
      else do
        if h.type = .ilst then
          mp4ffMetadataLoop alloc R (toU64 (toI32 (h.size - (h.headerSize + 4)))) fuel {} 0
        else do
          let position ← mp4ffPosition
          mp4ffSetPosition R (toI64 (position + h.size - h.headerSize))
        mp4ffMetaLoop size fuel h ((sumsize + h.size) % 18446744073709551616)
    else pure ()

def mp4ffReadMeta (size : Nat) (fuel : Nat) : Mp4Scan Unit := do
  mp4ffReadVersion R
  mp4ffMetaLoop alloc R size fuel {} 0

end

/-! ## The atoms of a file -/

/-- `mp4ff_t`; what only writes tags reads is left out. -/
structure Mp4ff where
  stream    : Mp4Stream := {}
  timeScale : Int := 0
  duration  : Int := 0
  tracks    : List Mp4ffTrack := []
deriving DecidableEq

def mp4MaxTracks : Nat := 1024

def mp4ffTrackAdd (f : Mp4ff) : Option Mp4ff :=
  if f.tracks.length < mp4MaxTracks then some { f with tracks := f.tracks ++ [{}] } else none

/-- What is read for the newest track; there has to be one. -/
def Mp4ff.readTrack (f : Mp4ff) (m : Mp4ffTrack → Mp4Scan Mp4ffTrack) : Option Mp4ff := do
  let t ← f.tracks.getLast?
  let (t, stream) ← m t f.stream
  some { f with stream, tracks := f.tracks.dropLast ++ [t] }

def Mp4ff.scan (f : Mp4ff) (m : Mp4Scan Unit) : Option Mp4ff := do
  let (_, stream) ← m f.stream
  some { f with stream }

section
variable (alloc : Mp4Alloc) (R : List Byte)

def mp4ffReadAtomData (fuel : Nat) (size : Int) (type : AtomType) (f : Mp4ff) : Option Mp4ff :=
  match type with
  | .stsz => f.readTrack (mp4ffReadStsz alloc R)
  | .stts => f.readTrack (mp4ffReadStts alloc R)
  | .ctts => f.readTrack (mp4ffReadCtts alloc R)
  | .stsc => f.readTrack (mp4ffReadStsc alloc R)
  | .stco => f.readTrack (mp4ffReadStco alloc R)
  | .stsd => f.readTrack (mp4ffReadStsd alloc R)
  | .mvhd => do
    let ((timeScale, duration), stream) ← mp4ffReadMvhd R f.stream
    some { f with stream, timeScale, duration }
  | .mdhd => f.readTrack (mp4ffReadMdhd R)
  | .metaAtom => f.scan (mp4ffReadMeta alloc R (toU64 size) fuel)
  | _ => some f

/-- An atom without atoms in it: what is read of it, and a seek to its end. -/
def mp4ffAtomRead (fuel : Nat) (size : Int) (type : AtomType) (f : Mp4ff) : Option Mp4ff := do
  let dest := toI64 (f.stream.currentPosition + size - 8)
  let f ← mp4ffReadAtomData alloc R fuel size type f
  f.scan (mp4ffSetPosition R dest)

/-- The loop of `parse_sub_atoms`, with `counted_size`. -/
def mp4ffParseSubAtoms : Nat → Nat → Nat → Mp4ff → Option Mp4ff
  | 0, _, _, _ => none
  | fuel + 1, totalSize, countedSize, f =>
    if countedSize < totalSize then do
      let (h, stream) ← mp4ffAtomReadHeader R {} f.stream
      if h.size = 0 then some { f with stream }
      else do
        let f ← if h.type = .trak then mp4ffTrackAdd { f with stream } else some { f with stream }
        let f ← if h.type.subatomic then mp4ffParseSubAtoms fuel (toU64 (h.size - h.headerSize)) 0 f
          else mp4ffAtomRead alloc R fuel (toI32 h.size) h.type f
        mp4ffParseSubAtoms fuel totalSize ((countedSize + h.size) % 18446744073709551616) f
    else some f

/-- The loop of `parse_atoms`: the root atoms that do not consist of atoms are skipped. -/
def mp4ffParseAtoms : Nat → Mp4ff → Option Mp4ff
  | 0, _ => none
  | fuel + 1, f => do
    let (h, stream) ← mp4ffAtomReadHeader R {} f.stream
    if h.size = 0 then some { f with stream }
    else do
      let next := toI64 (stream.currentPosition + h.size - h.headerSize)
      let f ← if h.type.subatomic then
          mp4ffParseSubAtoms alloc R fuel (toU64 (h.size - h.headerSize)) 0 { f with stream }
        else ({ f with stream } : Mp4ff).scan (mp4ffSetPosition R next)
      mp4ffParseAtoms fuel f

def mp4ffOpenRead (fuel : Nat) : Option Mp4ff := mp4ffParseAtoms alloc R fuel {}

end

end AudioPlayer

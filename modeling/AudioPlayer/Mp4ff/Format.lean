import Mathlib
import AudioPlayer.Mp4ff.Atom

/-!
# What an m4a file says

A file is a list of root atoms; those that consist of atoms are trees (`Mp4Atoms`), and at their leaves are the tables
of the tracks. `bytes` is the file, and `apply` is what a reader should make of each part: a track for each `trak`, and
the tables in the track they stand in.

| part | |
|---|---|
| `Mp4Table`        | what stands in an atom that is read, behind its version |
| `Mp4SampleDesc`   | an entry of `stsd`, `Mp4Esds` the configuration of the decoder in it |
| `Mp4MetaAtom`, `Mp4Tag`, `Mp4TagAtom` | the tags in `meta` |
| `rest`            | what a reader leaves of an atom behind that |

`unread` is the end of the file that is left when the last atom is read, `asksNothing` whether something in it is
empty, so that mp4ff asks the player for no bytes at all. `Fits` is that the numbers have room in their fields.
-/

namespace AudioPlayer
open Lib

/-- A number of a table. -/
def be32 (x : Int) : List Byte := beBytes 4 (toU32 x).toNat

/-- An atom; a large one has a size of 64 bits. -/
def atomBytes (large : Bool) (name payload : List Byte) : List Byte :=
  if large then beBytes 4 1 ++ name ++ beBytes 8 (16 + payload.length) ++ payload
  else beBytes 4 (8 + payload.length) ++ name ++ payload

def pairBytes (e : Int × Int) : List Byte := be32 e.1 ++ be32 e.2

def stscBytes (e : StscEntry) : List Byte := be32 e.firstChunk ++ (be32 e.samplesPerChunk ++ be32 e.sampleDescIndex)

def IsPair (e : Int × Int) : Prop := isInt e.1 ∧ isInt e.2

def IsStscEntry (e : StscEntry) : Prop := isInt e.firstChunk ∧ isInt e.samplesPerChunk ∧ isInt e.sampleDescIndex

/-- The length of a descriptor. -/
def IsDescr (ds : List Nat) : Prop := ds ≠ [] ∧ ds.length ≤ 4 ∧ ∀ d ∈ ds, d < 128

/-! ## The sample description -/

structure Mp4Esds where
  version      : List Byte
  length       : List Nat
  id           : List Byte
  configDescr  : List Nat
  audioType    : Nat
  streamType   : List Byte
  maxBitrate   : Nat
  avgBitrate   : Nat
  configLength : List Nat
  config       : List Byte

def Mp4Esds.bytes (e : Mp4Esds) : List Byte :=
  e.version ++ (beBytes 1 3 ++ (descrBytes e.length ++ (e.id ++ (beBytes 1 4 ++ (descrBytes e.configDescr ++
    (beBytes 1 e.audioType ++ (e.streamType ++ (beBytes 4 e.maxBitrate ++ (beBytes 4 e.avgBitrate ++ (beBytes 1 5 ++
      (descrBytes e.configLength ++ e.config)))))))))))

structure Mp4Esds.Fits (e : Mp4Esds) : Prop where
  version      : e.version.length = 4
  length       : IsDescr e.length ∧ 20 ≤ descrLength e.length
  id           : e.id.length = 3
  configDescr  : IsDescr e.configDescr ∧ 13 ≤ descrLength e.configDescr
  audioType    : e.audioType < 256
  streamType   : e.streamType.length = 4
  maxBitrate   : e.maxBitrate < 4294967296
  avgBitrate   : e.avgBitrate < 4294967296
  configLength : IsDescr e.configLength ∧ descrLength e.configLength = e.config.length

def Mp4Esds.apply (e : Mp4Esds) (t : Mp4ffTrack) : Mp4ffTrack :=
  { t with audioType := e.audioType, maxBitrate := e.maxBitrate, avgBitrate := e.avgBitrate, decoderConfig := e.config }

inductive Mp4SampleDesc
  /-- The atom of the decoder configuration follows the fixed fields; its size is not looked at. -/
  | mp4a (reserved : List Byte) (channelCount sampleSize : Nat) (between : List Byte) (sampleRate : Nat)
    (fraction : List Byte) (esdsSize : Nat) (esds : Mp4Esds) (rest : List Byte)
  | other (name rest : List Byte)

namespace Mp4SampleDesc

def name : Mp4SampleDesc → List Byte
  | .mp4a .. => bytes "mp4a"
  | .other name _ => name

/-- What is read of it, behind its header. -/
def body : Mp4SampleDesc → List Byte
  | .mp4a reserved channelCount sampleSize between sampleRate fraction esdsSize esds _ =>
    reserved ++ (beBytes 2 channelCount ++ (beBytes 2 sampleSize ++ (between ++ (beBytes 2 sampleRate ++ (fraction ++
      ((beBytes 4 esdsSize ++ Lib.bytes "esds") ++ esds.bytes))))))
  | .other .. => []

def rest : Mp4SampleDesc → List Byte
  | .mp4a _ _ _ _ _ _ _ _ rest => rest
  | .other _ rest => rest

def bytes (d : Mp4SampleDesc) : List Byte := atomBytes false d.name (d.body ++ d.rest)

def Fits : Mp4SampleDesc → Prop
  | .mp4a reserved channelCount sampleSize between sampleRate fraction esdsSize esds _ =>
    reserved.length = 16 ∧ channelCount < 65536 ∧ sampleSize < 65536 ∧ between.length = 4 ∧ sampleRate < 65536 ∧
      fraction.length = 2 ∧ (esdsSize < 2147483648 ∧ esdsSize ≠ 1) ∧ esds.Fits
  | .other name _ => name.length = 4 ∧ mp4ffAtomNameToType name ≠ .mp4a

theorem Fits.name_length {d : Mp4SampleDesc} (h : d.Fits) : d.name.length = 4 := by
  cases d with
  | mp4a => exact (by decide : (Lib.bytes "mp4a").length = 4)
  | other => exact h.1

def apply : Mp4SampleDesc → Mp4ffTrack → Mp4ffTrack
  | .mp4a _ channelCount sampleSize _ sampleRate _ _ esds _, t =>
    esds.apply { t with type := .audio, channelCount, sampleSize, sampleRate }
  | .other name _, t =>
    { t with type := if mp4ffAtomNameToType name = .mp4v then .video
        else if mp4ffAtomNameToType name = .mp4s then .system else .unknown }

def asksNothing : Mp4SampleDesc → Bool
  | .mp4a _ _ _ _ _ _ _ esds _ => esds.config.isEmpty
  | .other .. => false

end Mp4SampleDesc

/-! ## The tags -/

inductive Mp4TagAtom
  | data (version reserved value : List Byte)
  | name (version value : List Byte)
  | other (label rest : List Byte)

structure Mp4Tag where
  name  : List Byte
  atoms : List Mp4TagAtom

inductive Mp4MetaAtom
  | ilst (tags : List Mp4Tag)
  | other (name rest : List Byte)

namespace Mp4TagAtom

def bytes : Mp4TagAtom → List Byte
  | .data version reserved value => atomBytes false (Lib.bytes "data") (version ++ (reserved ++ value))
  | .name version value => atomBytes false (Lib.bytes "name") (version ++ value)
  | .other label rest => atomBytes false label rest

def label : Mp4TagAtom → List Byte
  | .data .. => Lib.bytes "data"
  | .name .. => Lib.bytes "name"
  | .other label _ => label

/-- How many bytes of a value are numbers; a tag that has none is a text. -/
def numbers (parent : AtomType) : Option Nat :=
  if parent = .genre2 ∨ parent = .tempo then some 2 else if parent = .track ∨ parent = .disc then some 6 else none

/-- How many bytes of a value are read. -/
def taken (parent : AtomType) (value : List Byte) : Nat :=
  match numbers parent with
  | some n => if n ≤ value.length then n else 0
  | none => value.length

/-- What is read of it, behind its header. -/
def body (parent : AtomType) : Mp4TagAtom → List Byte
  | .data version reserved value => version ++ (reserved ++ value.take (taken parent value))
  | .name version value => version ++ value
  | .other .. => []

def rest (parent : AtomType) : Mp4TagAtom → List Byte
  | .data _ _ value => value.drop (taken parent value)
  | .name .. => []
  | .other _ rest => rest

/-- The value ends the tag. -/
def ends (parent : AtomType) : Mp4TagAtom → Bool
  | .data _ _ value => match numbers parent with
    | some n => decide (n ≤ value.length)
    | none => false
  | _ => false

def asksNothing (parent : AtomType) : Mp4TagAtom → Bool
  | .data _ _ value => (numbers parent).isNone && value.isEmpty
  | .name _ value => value.isEmpty
  | .other .. => false

def Fits : Mp4TagAtom → Prop
  | .data version reserved _ => version.length = 4 ∧ reserved.length = 4
  | .name version _ => version.length = 4
  | .other label _ => label.length = 4 ∧ mp4ffAtomNameToType label ≠ .data ∧ mp4ffAtomNameToType label ≠ .name

theorem Fits.label_length {a : Mp4TagAtom} (h : a.Fits) : a.label.length = 4 := by
  cases a with
  | data => exact (by decide : (Lib.bytes "data").length = 4)
  | name => exact (by decide : (Lib.bytes "name").length = 4)
  | other => exact h.1

theorem bytes_eq (a : Mp4TagAtom) (parent : AtomType) :
    a.bytes = atomBytes false a.label (a.body parent ++ a.rest parent) := by
  cases a with
  | data version reserved value =>
    rw [bytes, label, body, rest, List.append_assoc, List.append_assoc, List.take_append_drop]
  | name version value => rw [bytes, label, body, rest, List.append_nil]
  | other label rest => rfl

end Mp4TagAtom

namespace Mp4Tag

def type (g : Mp4Tag) : AtomType := mp4ffAtomNameToType g.name

def payload (g : Mp4Tag) : List Byte := g.atoms.flatMap Mp4TagAtom.bytes

def bytes (g : Mp4Tag) : List Byte := atomBytes false g.name g.payload

/-- A tag that is done with a value has nothing behind it: the loop that reads it does not end otherwise. -/
structure Fits (g : Mp4Tag) : Prop where
  name  : g.name.length = 4
  atoms : ∀ a ∈ g.atoms, a.Fits
  ends  : ∀ a ∈ g.atoms.dropLast, a.ends g.type = false

def asksNothing (g : Mp4Tag) : Bool := g.atoms.any fun a => a.asksNothing g.type

def unread (g : Mp4Tag) : Nat := (g.atoms.getLast?.map fun a => (a.rest g.type).length).getD 0

end Mp4Tag

namespace Mp4MetaAtom

def payload : Mp4MetaAtom → List Byte
  | .ilst tags => tags.flatMap Mp4Tag.bytes
  | .other _ rest => rest

def name : Mp4MetaAtom → List Byte
  | .ilst _ => Lib.bytes "ilst"
  | .other name _ => name

def bytes (a : Mp4MetaAtom) : List Byte := atomBytes false a.name a.payload

/-- The first atom that is empty or nearly so ends the loop. -/
def Fits : Mp4MetaAtom → Prop
  | .ilst tags => tags ≠ [] ∧ ∀ g ∈ tags, g.Fits
  | .other name rest => name.length = 4 ∧ mp4ffAtomNameToType name ≠ .ilst ∧ 4 < rest.length

theorem Fits.name_length {a : Mp4MetaAtom} (h : a.Fits) : a.name.length = 4 := by
  cases a with
  | ilst => exact (by decide : (Lib.bytes "ilst").length = 4)
  | other => exact h.1

def asksNothing : Mp4MetaAtom → Bool
  | .ilst tags => tags.any Mp4Tag.asksNothing
  | .other .. => false

def unread : Mp4MetaAtom → Nat
  | .ilst tags => (tags.getLast?.map Mp4Tag.unread).getD 0
  | .other _ rest => rest.length

end Mp4MetaAtom

/-! ## The tables -/

inductive Mp4Table
  | stszOne (size count : Int)
  | stszEach (sizes : List Int)
  | stts (entries : List (Int × Int))
  | ctts (entries : List (Int × Int))
  | stsc (entries : List StscEntry)
  | stco (offsets : List Int)
  | stsd (entries : List Mp4SampleDesc)
  | mvhd (times : List Byte) (timeScale duration : Int) (more : List Byte)
  | mdhd (times : List Byte) (timeScale duration : Nat) (more : List Byte)
  | mdhdLarge (times : List Byte) (timeScale duration : Nat) (more : List Byte)
  | metaAtom (atoms : List Mp4MetaAtom)
  /-- An atom that is not read. -/
  | other (name : List Byte)

/-- What is read of one track is kept in the newest. -/
def Mp4ff.onTrack (g : Mp4ffTrack → Mp4ffTrack) (f : Mp4ff) : Mp4ff :=
  { f with tracks := f.tracks.dropLast ++ (f.tracks.getLast?.map g).toList }

namespace Mp4Table

def name : Mp4Table → List Byte
  | .stszOne .. | .stszEach .. => Lib.bytes "stsz"
  | .stts .. => Lib.bytes "stts"
  | .ctts .. => Lib.bytes "ctts"
  | .stsc .. => Lib.bytes "stsc"
  | .stco .. => Lib.bytes "stco"
  | .stsd .. => Lib.bytes "stsd"
  | .mvhd .. => Lib.bytes "mvhd"
  | .mdhd .. | .mdhdLarge .. => Lib.bytes "mdhd"
  | .metaAtom .. => Lib.bytes "meta"
  | .other name => name

/-- What is read, behind the version. -/
def body : Mp4Table → List Byte
  | .stszOne size count => be32 size ++ be32 count
  | .stszEach sizes => be32 0 ++ (be32 sizes.length ++ sizes.flatMap be32)
  | .stts entries | .ctts entries => be32 entries.length ++ entries.flatMap pairBytes
  | .stsc entries => be32 entries.length ++ entries.flatMap stscBytes
  | .stco offsets => be32 offsets.length ++ offsets.flatMap be32
  | .stsd entries => be32 entries.length ++ entries.flatMap Mp4SampleDesc.bytes
  | .mvhd times timeScale duration more => times ++ (be32 timeScale ++ (be32 duration ++ more))
  | .mdhd times timeScale duration more => times ++ (beBytes 4 timeScale ++ (beBytes 4 duration ++ more))
  | .mdhdLarge times timeScale duration more => times ++ (beBytes 4 timeScale ++ (beBytes 8 duration ++ more))
  | .metaAtom atoms => atoms.flatMap Mp4MetaAtom.bytes
  | .other _ => []

def apply : Mp4Table → Mp4ff → Mp4ff
  | .stszOne size count => .onTrack fun t => { t with stszSampleSize := size, stszSampleCount := count }
  | .stszEach sizes =>
    .onTrack fun t => { t with stszSampleSize := 0, stszSampleCount := sizes.length, stszTable := sizes }
  | .stts entries => .onTrack fun t => { t with sttsEntryCount := entries.length, stts := entries }
  | .ctts entries => .onTrack fun t => { t with cttsEntryCount := entries.length, ctts := entries }
  | .stsc entries => .onTrack fun t => { t with stscEntryCount := entries.length, stsc := entries }
  | .stco offsets => .onTrack fun t => { t with stcoEntryCount := offsets.length, stcoChunkOffset := offsets }
  | .stsd entries => .onTrack fun t => entries.foldl (fun t d => d.apply t) { t with stsdEntryCount := entries.length }
  | .mvhd _ timeScale duration _ => fun f => { f with timeScale, duration }
  | .mdhd _ timeScale duration _ => .onTrack fun t =>
    { t with timeScale, duration := if duration = 4294967295 then 18446744073709551615 else duration }
  | .mdhdLarge _ timeScale duration _ => .onTrack fun t => { t with timeScale, duration }
  | .metaAtom _ | .other _ => id

/-- The types of the atoms that are read in a track. -/
def readTypes : List AtomType := [.stsz, .stts, .ctts, .stsc, .stco, .stsd, .mvhd, .mdhd, .metaAtom]

def Fits (version : List Byte) : Mp4Table → Mp4ff → Prop
  | .stszOne size count, f => f.tracks ≠ [] ∧ isInt size ∧ isInt count ∧ size ≠ 0
  | .stszEach sizes, f => f.tracks ≠ [] ∧ ∀ x ∈ sizes, isInt x
  | .stts entries, f => (∃ t, f.tracks.getLast? = some t ∧ t.sttsEntryCount = 0) ∧ ∀ e ∈ entries, IsPair e
  | .ctts entries, f => (∃ t, f.tracks.getLast? = some t ∧ t.cttsEntryCount = 0) ∧ ∀ e ∈ entries, IsPair e
  | .stsc entries, f => f.tracks ≠ [] ∧ ∀ e ∈ entries, IsStscEntry e
  | .stco offsets, f => f.tracks ≠ [] ∧ ∀ x ∈ offsets, isInt x
  | .stsd entries, f => f.tracks ≠ [] ∧ ∀ d ∈ entries, d.Fits
  | .mvhd times timeScale duration more, _ =>
    times.length = 8 ∧ isInt timeScale ∧ isInt duration ∧ more.length = 80
  | .mdhd times timeScale duration more, f => f.tracks ≠ [] ∧ ofBeBytes version ≠ 1 ∧ times.length = 8 ∧
    timeScale < 4294967296 ∧ duration < 4294967296 ∧ more.length = 4
  | .mdhdLarge times timeScale duration more, f => f.tracks ≠ [] ∧ ofBeBytes version = 1 ∧ times.length = 16 ∧
    timeScale < 4294967296 ∧ duration < 18446744073709551616 ∧ more.length = 4
  | .metaAtom atoms, _ => atoms ≠ [] ∧ ∀ a ∈ atoms, a.Fits
  | .other name, _ => name.length = 4 ∧ (mp4ffAtomNameToType name).subatomic = false ∧ mp4ffAtomNameToType name ∉ readTypes

/-- It is read to the end of its atom. -/
def whole : Mp4Table → Bool
  | .metaAtom _ => true
  | _ => false

/-- What is left of the body when its last seek is refused. -/
def unread : Mp4Table → Nat
  | .stsd entries => (entries.getLast?.map fun d => d.rest.length).getD 0
  | .metaAtom atoms => (atoms.getLast?.map Mp4MetaAtom.unread).getD 0
  | _ => 0

def asksNothing : Mp4Table → Bool
  | .stsd entries => entries.any Mp4SampleDesc.asksNothing
  | .metaAtom atoms => atoms.any Mp4MetaAtom.asksNothing
  | _ => false

end Mp4Table

/-! ## The atoms -/

inductive Mp4Atoms
  | nil
  | table (table : Mp4Table) (version rest : List Byte) (next : Mp4Atoms)
  | parent (large : Bool) (name : List Byte) (inner next : Mp4Atoms)

namespace Mp4Atoms

/-- What an atom begins with, if it is one of those that are read. -/
def versionOf (x : Mp4Table) (version : List Byte) : List Byte :=
  match x with
  | .other _ => []
  | _ => version

def bytes : Mp4Atoms → List Byte
  | .nil => []
  | .table x version rest next => atomBytes false x.name ((versionOf x version ++ x.body) ++ rest) ++ next.bytes
  | .parent large name inner next => atomBytes large name inner.bytes ++ next.bytes

/-- A new track for a `trak`. -/
def enter (name : List Byte) (f : Mp4ff) : Mp4ff :=
  if mp4ffAtomNameToType name = .trak then { f with tracks := f.tracks ++ [{}] } else f

def apply : Mp4Atoms → Mp4ff → Mp4ff
  | .nil, f => f
  | .table x _ _ next, f => next.apply (x.apply f)
  | .parent _ name inner next, f => next.apply (inner.apply (enter name f))

def Fits : Mp4Atoms → Mp4ff → Prop
  | .nil, _ => True
  | .table x version rest next, f =>
    (version.length = 4 ∧ x.Fits version f ∧ (x.whole = true → rest = [])) ∧ next.Fits (x.apply f)
  | .parent _ name inner next, f =>
    (name.length = 4 ∧ (mp4ffAtomNameToType name).subatomic = true ∧
      (mp4ffAtomNameToType name = .trak → f.tracks.length < mp4MaxTracks)) ∧
    inner.Fits (enter name f) ∧ next.Fits (inner.apply (enter name f))

/-- What is left behind the last of them, and `u` if there is none. -/
def unread (u : Nat) : Mp4Atoms → Nat
  | .nil => u
  | .table x _ rest next => next.unread (if rest = [] then x.unread else rest.length)
  | .parent _ _ inner next => next.unread (inner.unread 0)

def asksNothing : Mp4Atoms → Bool
  | .nil => false
  | .table x _ _ next => x.asksNothing || next.asksNothing
  | .parent _ _ inner next => inner.asksNothing || next.asksNothing

end Mp4Atoms

/-- A root atom; one that does not consist of atoms is skipped. -/
inductive Mp4Root
  | parent (large : Bool) (name : List Byte) (inner : Mp4Atoms)
  | skipped (large : Bool) (name rest : List Byte)

namespace Mp4Root

def bytes : Mp4Root → List Byte
  | .parent large name inner => atomBytes large name inner.bytes
  | .skipped large name rest => atomBytes large name rest

def apply : Mp4Root → Mp4ff → Mp4ff
  | .parent _ _ inner => inner.apply
  | .skipped .. => id

def Fits : Mp4Root → Mp4ff → Prop
  | .parent _ name inner, f => (name.length = 4 ∧ (mp4ffAtomNameToType name).subatomic = true) ∧ inner.Fits f
  | .skipped _ name _, _ => name.length = 4 ∧ (mp4ffAtomNameToType name).subatomic = false

def unread : Mp4Root → Nat
  | .parent _ _ inner => inner.unread 0
  | .skipped _ _ rest => rest.length

def asksNothing : Mp4Root → Bool
  | .parent _ _ inner => inner.asksNothing
  | .skipped .. => false

end Mp4Root

/-- The roots one after the other. -/
def mp4Apply (roots : List Mp4Root) (f : Mp4ff) : Mp4ff := roots.foldl (fun f r => r.apply f) f

def Mp4Fits : List Mp4Root → Mp4ff → Prop
  | [], _ => True
  | r :: rs, f => r.Fits f ∧ Mp4Fits rs (r.apply f)

/-- How much of the end of the file is left when its last atom has been read. -/
def mp4Unread (roots : List Mp4Root) : Nat := roots.foldl (fun _ r => r.unread) 0

/-- What is left there is read as headers, eight bytes at a time, until the size is 0 or not all of them are there.
`position` is where mp4ff takes itself to be; no size leads back into the file. -/
inductive Mp4Skipped (L : Nat) : Int → List Byte → Prop
  | short {position : Int} {tail : List Byte} (h : tail.length < 8) : Mp4Skipped L position tail
  | zero {position : Int} {size name tail : List Byte} (hsize : size.length = 4) (hname : name.length = 4)
    (h : ofBeBytes size = 0) : Mp4Skipped L position (size ++ name ++ tail)
  | skip {position : Int} {size name tail : List Byte} (hsize : size.length = 4) (hname : name.length = 4)
    (hzero : ofBeBytes size ≠ 0) (hone : ofBeBytes size ≠ 1) (htype : (mp4ffAtomNameToType name).subatomic = false)
    (hseek : ¬(0 ≤ toI32 (position + toI32 (ofBeBytes size)) ∧ toI32 (position + toI32 (ofBeBytes size)) < L))
    (h : Mp4Skipped L (position + toI32 (ofBeBytes size)) tail) : Mp4Skipped L position (size ++ name ++ tail)

end AudioPlayer

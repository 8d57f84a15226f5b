import Mathlib
import AudioPlayer.Lib.CInt
import AudioPlayer.AudioFile
import AudioPlayer.AudioFile.Web

/-!
# Reading and seeking (`src/audio_file.c:181-431`)

| here | there |
|---|---|
| `OpenFile`               | an `audio_file_t` with what lies behind it: the download, and `fptr` of the `FIL` |
| `AudioMedia`             | the flash memory and the file on the card |
| `AudioFileAnswers`       | what the calls below the file answer in one call |
| `audioFileWaitBuffer`    | `:181-200`, on what `WebTurn` says of the download meanwhile |
| `audioFilePushPreread`, `audioFilePopPreread` | `:203-251` |
| `audioFileReadPass`, `audioFileReadWeb` | `:275-296`, one pass of the loop, and the loop |
| `audioFileSkipPass`, `audioFileSkip` | `:371-384` likewise |
| `audioFileRead`, `…Seek`, `…Size`, `…Tell`, `…Preread` | `:254-431` for a file that is not `NULL` |

A loop takes one `WebTurn` for each pass. A call is `none` while it has not returned.
-/

namespace AudioPlayer
open Lib

def audioFileWait10kTimeout  : Nat := 5000
def audioFileWaitHttpTimeout : Nat := 5000
def audioFileHttpMaxSeek     : Nat := 100 * 1024

structure AudioMedia where
  flash : List Byte
  card  : List Byte

structure OpenFile where
  file     : AudioFile
  download : WebDownload
  fptr     : Nat
deriving DecidableEq, Repr

/-- The download during a pass: before `http_download_is_finish`, between that and the count, before the wait, how it
starts again, while it is waited for, and before the pop. -/
structure WebTurn where
  before  : List WebEvent := []
  counted : List WebEvent := []
  waiting : List WebEvent := []
  start   : WebStart := .runs
  polls   : List WebPoll := []
  after   : List WebEvent := []
deriving DecidableEq, Repr

/-- `flashRead` says whether a prompt is read; `fRead` and `fLseek` are `none` for `FR_OK` and else where the file
pointer is left. `length` and `stored` happen before the total length is asked for, and asked for again, `stopping`
before a download is stopped for a seek, and `start` is how it starts then. -/
structure AudioFileAnswers where
  turns     : List WebTurn := []
  length    : List WebEvent := []
  stored    : List WebEvent := []
  stopping  : List WebEvent := []
  start     : WebStart := .runs
  flashRead : Bool := true
  fRead     : Option Nat := none
  fLseek    : Option Nat := none
  malloc    : Bool := true
deriving DecidableEq, Repr

/-- `timeout` in `audio_file_wait_buffer`. -/
def audioFileWaitTimeout (size : Nat) : Nat :=
  audioFileWaitHttpTimeout + size * (audioFileWait10kTimeout / 100) / 10240 * 100

/-- The download when the wait begins: one that an error stopped is started again (`:186-193`). -/
def audioFileWaitStart (turn : WebTurn) (f : AudioFile) (d : WebDownload) : WebDownload :=
  let d := d.applies turn.waiting
  if httpDownloadIsStopped d && !httpDownloadIsFinish d then
    httpDownloadStartSeek turn.start (toI32 (d.buffer.length + f.readPos)) (httpDownloadStop d)
  else d

/-- `audio_file_wait_buffer` -/
def audioFileWaitBuffer (turn : WebTurn) (size : Nat) (f : AudioFile) (d : WebDownload) : Option (Bool × WebDownload) :=
  (httpDownloadWaitBuffer size (audioFileWaitTimeout size) turn.polls 0 (audioFileWaitStart turn f d)).map
    fun (ret, d) => (ret = .success, d)

/-- `audio_file_push_preread`: there is no block of a negative size. -/
def audioFilePushPreread (malloc : Bool) (readLen : Int) (bs : List Byte) (f : AudioFile) : AudioFile :=
  if malloc ∧ 0 ≤ readLen then { f with preread := f.preread ++ bs } else f

/-- `audio_file_pop_preread` -/
def audioFilePopPreread (size : Nat) (f : AudioFile) : List Byte × AudioFile :=
  (f.preread.take size, { f with preread := f.preread.drop size })

/-- How a pass of the loop in `audio_file_read` ends. -/
inductive ReadPass
  | leaves (d : WebDownload)
  | fails (d : WebDownload)
  | pops (bs : List Byte) (d : WebDownload)
deriving DecidableEq, Repr

def audioFileReadPass (turn : WebTurn) (readLen : Nat) (f : AudioFile) (d : WebDownload) : Option ReadPass :=
  let pops (d : WebDownload) : ReadPass :=
    let (bs, d) := (d.applies turn.after).pop readLen
    .pops bs d
  let d := d.applies turn.before
  if httpDownloadIsFinish d then
    let d := d.applies turn.counted
    if d.buffer.length = 0 then some (.leaves d) else some (pops d)
  else
    let d := d.applies turn.counted
    if d.buffer.length < readLen then
      match audioFileWaitBuffer turn readLen f d with
      | none => none
      | some (false, d) => some (.fails d)
      | some (true, d) => some (pops d)
    else some (pops d)

/-- The loop in `audio_file_read`, and whether it was left without `return -2`. -/
def audioFileReadWeb :
    List WebTurn → Nat → List Byte → AudioFile → WebDownload → Option (Bool × List Byte × AudioFile × WebDownload)
  | [], size, bs, f, d => if size = 0 then some (true, bs, f, d) else none
  | turn :: turns, size, bs, f, d =>
    if size = 0 then some (true, bs, f, d)
    else
      match audioFileReadPass turn (min size audioFileHttpMaxSeek) f d with
      | none => none
      | some (.leaves d) => some (true, bs, f, d)
      | some (.fails d) => some (false, bs, f, d)
      | some (.pops popped d) =>
        audioFileReadWeb turns (size - popped.length) (bs ++ popped)
          { f with readPos := (f.readPos + popped.length) % 4294967296 } d

/-- The end of it, where the total length is taken over; `-1` is compared as 4294967295. -/
def audioFileReadLength (env : AudioFileAnswers) (f : AudioFile) (d : WebDownload) : AudioFile × WebDownload :=
  let d := d.applies env.length
  if (f.totalLength : Int) < toU32 d.totalLength then
    let d := d.applies env.stored
    ({ f with totalLength := (toU32 d.totalLength).toNat }, d)
  else (f, d)

/-- How much of a prompt is read (`:303-308`). -/
def audioFileFlashLen (size : Nat) (f : AudioFile) : Nat :=
  if (size + f.readPos) % 4294967296 > f.totalLength then (toU32 ((f.totalLength : Int) - f.readPos)).toNat else size

/-- And from flash memory (`:310-315`). -/
def audioFileReadFlash (m : AudioMedia) (env : AudioFileAnswers) (size : Nat) (bs : List Byte) (f : AudioFile) :
    List Byte × AudioFile :=
  let readLen := audioFileFlashLen size f
  let offset := (f.promptOffset + f.readPos) % 4294967296
  if readLen = 0 ∨ env.flashRead = false ∨ m.flash.length < offset + readLen then (bs, f)
  else (bs ++ (m.flash.drop offset).take readLen, { f with readPos := (f.readPos + readLen) % 4294967296 })

/-- `f_read` on the card (`:319-325`). -/
def audioFileReadCard (m : AudioMedia) (env : AudioFileAnswers) (size : Nat) (bs : List Byte) (f : AudioFile)
    (fptr : Nat) : List Byte × AudioFile × Nat :=
  match env.fRead with
  | some fptr => (bs, f, fptr)
  | none =>
    let read := (m.card.drop fptr).take size
    (bs ++ read, { f with readPos := (f.readPos + read.length) % 4294967296 }, fptr + read.length)

/-- `audio_file_read`: what it returns, and what it leaves in `buf`. -/
def audioFileRead (m : AudioMedia) (env : AudioFileAnswers) (size : Nat) (s : OpenFile) :
    Option (Int × List Byte × OpenFile) :=
  let (bs, f) := audioFilePopPreread size s.file
  let size := size - bs.length
  if size = 0 then some (bs.length, bs, { s with file := f })
  else
    match f.fileType with
    | .web =>
      match audioFileReadWeb env.turns size bs f s.download with
      | none => none
      | some (false, bs, f, d) => some (-2, bs, { s with file := f, download := d })
      | some (true, bs, f, d) =>
        let (f, d) := audioFileReadLength env f d
        some (bs.length, bs, { s with file := f, download := d })
    | .flash =>
      let (bs, f) := audioFileReadFlash m env size bs f
      some (bs.length, bs, { s with file := f })
    | .sdCard =>
      let (bs, f, fptr) := audioFileReadCard m env size bs f s.fptr
      some (bs.length, bs, { s with file := f, fptr })

/-- A pass of the loop in `audio_file_seek`: `none` inside where the wait fails. -/
def audioFileSkipPass (turn : WebTurn) (diff : Nat) (f : AudioFile) (d : WebDownload) :
    Option (Bool × Nat × WebDownload) :=
  let waitSize := min diff audioFileHttpMaxSeek
  match audioFileWaitBuffer turn waitSize f d with
  | none => none
  | some (false, d) => some (false, diff, d)
  | some (true, d) =>
    let (bs, d) := (d.applies turn.after).pop waitSize
    some (true, diff - bs.length, d)

/-- The loop, and whether it was left without `return -1`. -/
def audioFileSkip : List WebTurn → Nat → AudioFile → WebDownload → Option (Bool × WebDownload)
  | [], diff, _, d => if diff = 0 then some (true, d) else none
  | turn :: turns, diff, f, d =>
    if diff = 0 then some (true, d)
    else
      match audioFileSkipPass turn diff f d with
      | none => none
      | some (false, _, d) => some (false, d)
      | some (true, diff, d) => audioFileSkip turns diff f d

/-- `audio_file_seek` -/
def audioFileSeek (m : AudioMedia) (env : AudioFileAnswers) (position : Int) (s : OpenFile) : Option (Int × OpenFile) :=
  if position < 0 then some (-1, s)
  else if 0 < s.file.totalLength ∧ (s.file.totalLength : Int) ≤ position then some (-1, s)
  else
    let diff := toI32 (position - s.file.readPos)
    if diff < 0 ∧ -diff ≤ s.file.preread.length then
      some (0, { s with file := (audioFilePopPreread (s.file.preread.length + diff).toNat s.file).2 })
    else
      let f := (audioFilePopPreread s.file.preread.length s.file).2
      let moved : AudioFile := { f with readPos := position.toNat }
      if diff = 0 then some (0, { s with file := f })
      else
        match f.fileType with
        | .web =>
          if diff < 0 ∨ diff > audioFileHttpMaxSeek then
            let d := httpDownloadStop (s.download.applies env.stopping)
            let d := httpDownloadStartSeek env.start position d.clear
            some (0, { s with file := moved, download := d })
          else
            match audioFileSkip env.turns diff.toNat f s.download with
            | none => none
            | some (false, d) => some (-1, { s with file := f, download := d })
            | some (true, d) => some (0, { s with file := moved, download := d })
        | .flash => some (0, { s with file := moved })
        | .sdCard =>
          match env.fLseek with
          | some fptr => some (-1, { s with file := f, fptr })
          | none => some (0, { s with file := moved, fptr := min position.toNat m.card.length })

/-- `audio_file_size`; its wait is the first turn, and whether it succeeds does not matter. -/
def audioFileSize (env : AudioFileAnswers) (s : OpenFile) : Option (Int × OpenFile) :=
  if s.file.fileType = .web ∧ s.file.totalLength = 0 then
    match env.turns with
    | [] => none
    | turn :: _ =>
      match audioFileWaitBuffer turn 1 s.file s.download with
      | none => none
      | some (_, d) =>
        let d := d.applies env.length
        let f := { s.file with totalLength := (toU32 d.totalLength).toNat }
        some (toI32 f.totalLength, { s with file := f, download := d })
  else some (toI32 s.file.totalLength, s)

/-- `audio_file_tell` -/
def audioFileTell (s : OpenFile) : Int := toI32 s.file.readPos

/-- `audio_file_preread` -/
def audioFilePreread (m : AudioMedia) (env : AudioFileAnswers) (size : Nat) (s : OpenFile) :
    Option (Int × List Byte × OpenFile) :=
  match audioFileRead m env size s with
  | none => none
  | some (readLen, bs, s) =>
    let f := audioFilePushPreread env.malloc readLen bs s.file
    some (f.preread.length, bs, { s with file := f })

/-- A file as `audio_file_open` leaves it; `start` is how the download of a WEB file starts. -/
def OpenFile.opened (f : AudioFile) (start : WebStart) : OpenFile where
  file := f
  download := if f.fileType = .web then httpDownloadStartSeek start 0 .init else .init
  fptr := 0

/-- A call of the player. -/
inductive AudioFileCall
  | read (size : Nat)
  | seek (position : Int)
  | size
  | tell
  | preread (size : Nat)
deriving DecidableEq, Repr

/-- What a call returns, and what it leaves in `buf`. -/
structure AudioFileResult where
  ret   : Int
  bytes : List Byte := []
deriving DecidableEq, Repr

def OpenFile.call (m : AudioMedia) (env : AudioFileAnswers) : AudioFileCall → OpenFile → Option (AudioFileResult × OpenFile)
  | .read size, s => (audioFileRead m env size s).map fun (ret, bytes, s) => (⟨ret, bytes⟩, s)
  | .seek position, s => (audioFileSeek m env position s).map fun (ret, s) => ({ ret }, s)
  | .size, s => (audioFileSize env s).map fun (ret, s) => ({ ret }, s)
  | .tell, s => some ({ ret := audioFileTell s }, s)
  | .preread size, s => (audioFilePreread m env size s).map fun (ret, bytes, s) => (⟨ret, bytes⟩, s)

/-- Calls one after the other, as far as each returns. -/
def OpenFile.calls (m : AudioMedia) :
    List (AudioFileCall × AudioFileAnswers) → OpenFile → Option (List AudioFileResult × OpenFile)
  | [], s => some ([], s)
  | (c, env) :: cs, s =>
    match s.call m env c with
    | none => none
    | some (r, s) => (s.calls m cs).map fun (rs, s) => (r :: rs, s)

end AudioPlayer

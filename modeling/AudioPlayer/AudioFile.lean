import Mathlib
import AudioPlayer.Lib.Bytes

/-!
# Opening, pausing and closing an audio file (`src/audio_file.c`)

`AudioFileEnv` is what the calls below the file answer: `malloc`, `http_download_start`,
`prompt_addr_info_get`, and FatFs. A pointer that may be `NULL` is an `Option`.
-/

namespace AudioPlayer
open Lib

/-- `audio_file_type_t` -/
inductive AudioFileType
  | web | flash | sdCard
deriving DecidableEq, Repr

/-- `audio_file_state_t` -/
inductive AudioFileState
  | close | open | pause
deriving DecidableEq, Repr

/-- `audio_file_t` without its path and the download behind it; `preread` is `preread_buf[0 .. preread_len)`. -/
structure AudioFile where
  fileState    : AudioFileState
  fileType     : AudioFileType
  totalLength  : Nat := 0
  promptOffset : Nat := 0
  readPos      : Nat := 0
  rangeEnable  : Bool
  preread      : List Byte := []
deriving DecidableEq, Repr

/-- What an open, a pause or a resume meets: `promptInfo` is the offset and length of a prompt, `fOpen` the size
of the file that `f_open` opens. -/
structure AudioFileEnv where
  malloc     : Bool
  httpStart  : Bool
  promptInfo : Option (Nat × Nat)
  fOpen      : Option Nat
  fLseek     : Bool
  fClose     : Bool

/-- `audio_file_open` (`:13-62`). -/
def audioFileOpen (env : AudioFileEnv) (type : AudioFileType) (rangeEnable : Bool) : Option AudioFile :=
  if !env.malloc then none
  else
    let f : AudioFile := { fileState := .open, fileType := type, rangeEnable }
    match type with
    | .web => if env.httpStart then some f else none
    | .flash =>
      match env.promptInfo with
      | some (offset, len) => if len = 0 then none else some { f with promptOffset := offset, totalLength := len }
      | none => none
    | .sdCard =>
      match env.fOpen with
      | some size => if size % 4294967296 = 0 then none else some { f with totalLength := size % 4294967296 }
      | none => none

/-- `audio_file_close` (`:64-99`): the pointer is `NULL` afterwards in any case. -/
def audioFileClose (env : AudioFileEnv) : Option AudioFile → Int × Option AudioFile
  | none => (-1, none)
  | some f => (if f.fileType = .sdCard ∧ f.fileState = .open ∧ env.fClose = false then -1 else 0, none)

/-- `audio_file_pause` (`:101-127`). -/
def audioFilePause (env : AudioFileEnv) : Option AudioFile → Int × Option AudioFile
  | none => (-1, none)
  | some f =>
    if f.fileState = .pause then (0, some f)
    else if f.fileType = .sdCard ∧ env.fClose = false then (-1, some f)
    else (0, some { f with fileState := .pause })

/-- `audio_file_resume` (`:129-159`). -/
def audioFileResume (env : AudioFileEnv) : Option AudioFile → Int × Option AudioFile
  | none => (-1, none)
  | some f =>
    if f.fileState = .open then (0, some f)
    else if f.fileType = .sdCard ∧ (env.fOpen = none ∨ env.fLseek = false) then (-1, some f)
    else (0, some { f with fileState := .open })

section
variable {env : AudioFileEnv} {f f' : AudioFile}

theorem audioFileOpen_state {type : AudioFileType} {rangeEnable : Bool}
    (h : audioFileOpen env type rangeEnable = some f) : f.fileState = .open := by
  unfold audioFileOpen at h
  split at h
  · cases h
  · cases type with
    | web =>
      dsimp only at h
      split at h
      · cases h; rfl
      · cases h
    | flash =>
      dsimp only at h
      split at h
      · split at h
        · cases h
        · cases h; rfl
      · cases h
    | sdCard =>
      dsimp only at h
      split at h
      · split at h
        · cases h
        · cases h; rfl
      · cases h

@[simp] theorem audioFileClose_snd (o : Option AudioFile) : (audioFileClose env o).2 = none := by
  cases o <;> rfl

theorem audioFilePause_isSome (o : Option AudioFile) : (audioFilePause env o).2.isSome = o.isSome := by
  cases o with
  | none => rfl
  | some f =>
    unfold audioFilePause
    dsimp only
    split
    · rfl
    · split <;> rfl

/-- A file that was resumed is open. -/
theorem audioFileResume_open {o : Option AudioFile} (h : (audioFileResume env o).1 = 0) :
    ∃ f, (audioFileResume env o).2 = some f ∧ f.fileState = .open := by
  cases o with
  | none => exact absurd h (show (-1 : Int) ≠ 0 by decide)
  | some f =>
    unfold audioFileResume at h ⊢
    dsimp only at h ⊢
    split
    · exact ⟨f, rfl, ‹_›⟩
    · rename_i hne
      rw [if_neg hne] at h
      split
      · rename_i hfail
        rw [if_pos hfail] at h
        exact absurd h (show (-1 : Int) ≠ 0 by decide)
      · exact ⟨_, rfl, rfl⟩

end

end AudioPlayer

import Mathlib
import AudioPlayer.AudioFile.Failures

/-!
# What a preread changes (`src/audio_file.c:203-251`, `:416-430`)

`audio_file_preread` reads and then puts what it read behind what is left in the preread buffer. If it read less than
was in there, the buffer comes out rotated; if it read on from the source, `read_pos` has moved, which
`audio_file_seek` allows for and `audio_file_tell` does not; and if it failed, the buffer is gone.

`Transparent` is that no later call can tell, `PrereadMet` that the preread gives back what it takes, where it took it,
and that the source gives nothing (`Dry`). Two files that differ are told apart by one to three calls
(`preread_eq`, `readPos_eq`, `fptr_eq`, `totalLength_eq`).
-/

namespace AudioPlayer
open Lib

/-- The calls of a user that only reads, with arguments that are an `int`. -/
def AudioFileCall.Later : AudioFileCall → Prop
  | .read n | .preread n => n < 2147483648
  | .seek position => position < 2147483648
  | .tell => True
  | .size => False

/-- What these calls return. -/
def OpenFile.results (m : AudioMedia) (cs : List (AudioFileCall × AudioFileAnswers)) (s : OpenFile) :
    Option (List AudioFileResult) :=
  (s.calls m cs).map Prod.fst

/-- Later calls return the same as if the file had been left alone and only its download had gone on. -/
def Transparent (m : AudioMedia) (s s' : OpenFile) : Prop :=
  ∃ d, Untaken s.download d ∧ ∀ cs : List (AudioFileCall × AudioFileAnswers), (∀ c ∈ cs, c.1.Later) →
    s'.results m cs = OpenFile.results m cs { s with download := d }

/-- A download that has finished, with nothing left in `http_buffer` and no length above the one stored. -/
structure WebDownload.Drained (d : WebDownload) (totalLength : Nat) : Prop where
  finished : httpDownloadIsFinish d = true
  empty    : d.buffer = []
  length   : toU32 d.totalLength ≤ totalLength

/-- The source gives nothing: the download is drained when the read begins or when its first wait ends, or that wait
fails and nothing was preread; the prompt is at its end or cannot be read; the card is at its end, or `f_read` fails
and leaves the file pointer. -/
def OpenFile.Dry (m : AudioMedia) (env : AudioFileAnswers) (n : Nat) (s : OpenFile) : Prop :=
  match s.file.fileType with
  | .web => ∃ turn turns, env.turns = turn :: turns ∧
      ((s.download.applies turn.before).Drained s.file.totalLength ∨
        ∃ ok d, Waits turn (min n audioFileHttpMaxSeek) s.file s.download ok d ∧
          if ok then d.Drained s.file.totalLength else s.file.preread = [])
  | .flash => s.file.readPos = s.file.totalLength ∨ env.flashRead = false ∨
      m.flash.length < (s.file.promptOffset + s.file.readPos) % 4294967296 + min n (s.file.totalLength - s.file.readPos)
  | .sdCard => env.fRead = some s.fptr ∨ env.fRead = none ∧ m.card.length ≤ s.fptr

/-- The preread asks for nothing, or for a part of the preread buffer with which it looks the same rotated, or for all
of it and more, of which nothing comes. -/
def OpenFile.PrereadMet (m : AudioMedia) (env : AudioFileAnswers) (n : Nat) (s : OpenFile) : Prop :=
  if n ≤ s.file.preread.length then
    n = 0 ∨ env.malloc = true ∧ s.file.preread.rotate n = s.file.preread
  else (env.malloc = true ∨ s.file.preread = []) ∧ s.Dry m env (n - s.file.preread.length)

/-- What holds of every file whose position is an `int`, with a preread buffer that leaves room for a skip. -/
structure OpenFile.Fits (m : AudioMedia) (s : OpenFile) : Prop where
  readPos     : s.file.readPos < 2147483648
  preread     : s.file.preread.length + audioFileHttpMaxSeek + 1 < 2147483648
  prompt      : s.file.fileType = .flash → s.file.readPos ≤ s.file.totalLength
  card        : s.file.fileType = .sdCard → s.fptr ≤ m.card.length ∧
    s.file.preread.length + m.card.length + 1 < 2147483648
  totalLength : s.file.fileType = .web → s.file.totalLength < 2147483648 ∨ s.file.totalLength = 4294967295

/-! ## Telling files apart -/

section
variable {m : AudioMedia} {s s' : OpenFile} {env : AudioFileAnswers} {n : Nat}

theorem dry_web (htype : s.file.fileType = .web) : s.Dry m env n ↔ ∃ turn turns, env.turns = turn :: turns ∧
    ((s.download.applies turn.before).Drained s.file.totalLength ∨
      ∃ ok d, Waits turn (min n audioFileHttpMaxSeek) s.file s.download ok d ∧
        if ok then d.Drained s.file.totalLength else s.file.preread = []) := by
  unfold OpenFile.Dry
  rw [htype]

theorem dry_flash (htype : s.file.fileType = .flash) : s.Dry m env n ↔ s.file.readPos = s.file.totalLength ∨
    env.flashRead = false ∨ m.flash.length <
      (s.file.promptOffset + s.file.readPos) % 4294967296 + min n (s.file.totalLength - s.file.readPos) := by
  unfold OpenFile.Dry
  rw [htype]

theorem dry_card (htype : s.file.fileType = .sdCard) :
    s.Dry m env n ↔ env.fRead = some s.fptr ∨ env.fRead = none ∧ m.card.length ≤ s.fptr := by
  unfold OpenFile.Dry
  rw [htype]

theorem results_one {c : AudioFileCall} :
    s.results m [(c, env)] = (s.call m env c).map fun (r, _) => [r] := by
  unfold OpenFile.results OpenFile.calls
  cases s.call m env c with
  | none => rfl
  | some res => rfl

theorem results_cons {c : AudioFileCall} {cs : List (AudioFileCall × AudioFileAnswers)} {r : AudioFileResult}
    (h : s.call m env c = some (r, s')) :
    s.results m ((c, env) :: cs) = (s'.results m cs).map fun rs => r :: rs := by
  unfold OpenFile.results
  rw [OpenFile.calls, h]
  dsimp only
  cases s'.calls m cs with
  | none => rfl
  | some res => rfl

theorem call_seek {position ret : Int} (h : audioFileSeek m env position s = some (ret, s')) :
    s.call m env (.seek position) = some ({ ret }, s') := by
  rw [OpenFile.call, h]
  rfl

theorem call_read {ret : Int} {bytes : List Byte} (h : audioFileRead m env n s = some (ret, bytes, s')) :
    s.call m env (.read n) = some (⟨ret, bytes⟩, s') := by
  rw [OpenFile.call, h]
  rfl

theorem results_two {c1 c2 : AudioFileCall} {env1 env2 : AudioFileAnswers} {r1 r2 : AudioFileResult} {s1 s2 : OpenFile}
    (h1 : s.call m env1 c1 = some (r1, s1)) (h2 : s1.call m env2 c2 = some (r2, s2))
    (cs : List (AudioFileCall × AudioFileAnswers)) :
    s.results m ((c1, env1) :: (c2, env2) :: cs) = (s2.results m cs).map fun rs => r1 :: r2 :: rs := by
  rw [results_cons h1, results_cons h2, Option.map_map]
  rfl

/-- Nothing answers. -/
def AudioFileAnswers.dead : AudioFileAnswers := { flashRead := false, fRead := some 0 }

/-- Then a read returns what was preread, and a longer one of a web file does not return. -/
theorem results_read_dead : s.results m [(.read n, .dead)] =
    if n ≤ s.file.preread.length then some [⟨n, s.file.preread.take n⟩]
    else if s.file.fileType = .web then none
    else some [⟨s.file.preread.length, s.file.preread⟩] := by
  rw [results_one]
  unfold OpenFile.call audioFileRead
  simp only [audioFilePopPreread, List.length_take]
  split
  · rename_i hn
    have hle : n ≤ s.file.preread.length := by omega
    rw [if_pos hle, min_eq_left hle]
    rfl
  · rename_i hn
    have hlen : s.file.preread.length ≤ n := by omega
    have hnot : ¬n ≤ s.file.preread.length := by omega
    rw [if_neg hnot, List.take_of_length_le hlen, min_eq_right hlen]
    split
    · rename_i htype
      rw [if_pos htype]
      simp only [AudioFileAnswers.dead, audioFileReadWeb, if_neg (show n - s.file.preread.length ≠ 0 by omega)]
      rfl
    · rename_i htype
      rw [if_neg (by simp [htype])]
      simp only [audioFileReadFlash, AudioFileAnswers.dead, true_or, or_true, if_true]
      rfl
    · rename_i htype
      rw [if_neg (by simp [htype])]
      rfl

/-- Files of one type with different preread buffers are told apart by a read. -/
theorem preread_eq (htype : s'.file.fileType = s.file.fileType)
    (h : ∀ n, n ≤ s.file.preread.length + 1 → s'.results m [(.read n, .dead)] = s.results m [(.read n, .dead)]) :
    s'.file.preread = s.file.preread := by
  have hall := h s.file.preread.length (Nat.le_succ _)
  have hmore := h (s.file.preread.length + 1) le_rfl
  simp only [results_read_dead, htype, if_pos (le_refl s.file.preread.length), List.take_length,
    if_neg (Nat.not_succ_le_self s.file.preread.length)] at hall hmore
  split at hall
  · have hbytes := (AudioFileResult.mk.inj (List.cons.inj (Option.some.inj hall)).1).2
    split at hmore
    · -- the longer one is read whole, and the other has not as much
      split at hmore
      · cases hmore
      · have hlen := (AudioFileResult.mk.inj (List.cons.inj (Option.some.inj hmore)).1).1
        omega
    · rw [← hbytes, List.take_of_length_le (by omega)]
  · split at hall
    · cases hall
    · exact (AudioFileResult.mk.inj (List.cons.inj (Option.some.inj hall)).1).2

/-- Files at different positions are told apart by a tell. -/
theorem readPos_eq (hpos : s.file.readPos < 4294967296) (hpos' : s'.file.readPos < 4294967296)
    (h : s'.results m [(.tell, env)] = s.results m [(.tell, env)]) : s'.file.readPos = s.file.readPos := by
  rw [results_one, results_one] at h
  have htell : toI32 s'.file.readPos = toI32 s.file.readPos :=
    (AudioFileResult.mk.inj (List.cons.inj (Option.some.inj h)).1).1
  unfold toI32 at htell
  omega

/-- Cards at different places are told apart by a read to the end. -/
theorem fptr_eq (htype : s.file.fileType = .sdCard) (htype' : s'.file.fileType = .sdCard)
    (hfptr : s.fptr ≤ m.card.length) (hfptr' : s'.fptr ≤ m.card.length) (hpreread : s'.file.preread = s.file.preread)
    (h : s'.results m [(.read (s.file.preread.length + m.card.length + 1), {})] =
      s.results m [(.read (s.file.preread.length + m.card.length + 1), {})]) : s'.fptr = s.fptr := by
  have hread : ∀ s0 : OpenFile, s0.file.fileType = .sdCard → s0.file.preread = s.file.preread →
      s0.results m [(.read (s.file.preread.length + m.card.length + 1), {})] =
        some [⟨(s.file.preread ++ m.card.drop s0.fptr).length, s.file.preread ++ m.card.drop s0.fptr⟩] := by
    intro s0 hcard hsame
    rw [results_one]
    unfold OpenFile.call audioFileRead
    simp only [audioFilePopPreread, hsame]
    rw [List.take_of_length_le (by omega), if_neg (by omega)]
    split
    · rename_i hweb
      rw [hcard] at hweb
      cases hweb
    · rename_i hflash
      rw [hcard] at hflash
      cases hflash
    · simp only [audioFileReadCard]
      rw [List.take_of_length_le (by rw [List.length_drop]; omega)]
      rfl
  rw [hread s' htype' hpreread, hread s htype rfl] at h
  have hlen := (AudioFileResult.mk.inj (List.cons.inj (Option.some.inj h)).1).1
  rw [List.length_append, List.length_append, List.length_drop, List.length_drop] at hlen
  omega

/-- Files that refuse different positions are told apart by a seek. -/
theorem refuses_iff {position : Int} (htype : s.file.fileType = .web) (htype' : s'.file.fileType = .web)
    (h : s'.results m [(.seek position, {})] = s.results m [(.seek position, {})]) :
    s'.Refuses (.seek position) ↔ s.Refuses (.seek position) := by
  have hseek : ∀ s0 : OpenFile, s0.file.fileType = .web →
      (s0.results m [(.seek position, {})] = some [{ ret := -1 }] ↔ s0.Refuses (.seek position)) := by
    intro s0 hweb
    rw [results_one]
    constructor
    · intro hresults
      obtain ⟨⟨r, s1⟩, hcall, hr⟩ := Option.map_eq_some_iff.1 hresults
      obtain rfl : r = { ret := -1 } := (List.cons.inj hr).1
      obtain ⟨⟨ret, s2⟩, hseek, hres⟩ := Option.map_eq_some_iff.1 hcall
      cases hres
      rcases audioFileSeek_failed hseek (by decide) with ⟨hrefuses, -⟩ | ⟨-, hfailure⟩
      · exact hrefuses
      cases hfailure with
      | skip _ hdiff hskip =>
        rw [audioFileSkip, if_neg (by omega)] at hskip
        cases hskip
      | lseek hcard _ =>
        rw [hweb] at hcard
        cases hcard
    · intro hrefuses
      simp only [OpenFile.call, audioFileSeek_refused hrefuses]
      rfl
  rw [← hseek s' htype', ← hseek s htype, h]

/-- A position that starts the download again: too far ahead to skip to, or before what is in the preread buffer. -/
def OpenFile.Far (s : OpenFile) (position : Nat) : Prop :=
  s.file.readPos + audioFileHttpMaxSeek < position ∨ position + s.file.preread.length < s.file.readPos

theorem audioFileSeek_far {position : Nat} (htype : s.file.fileType = .web) (hfar : s.Far position)
    (hpos : s.file.readPos < 2147483648) (hsmall : position < 2147483648)
    (hrefuses : ¬s.Refuses (.seek position)) : audioFileSeek m {} position s =
      some (0, { s with
        file := { s.file with preread := [], readPos := position }
        download := httpDownloadStartSeek .runs position (httpDownloadStop s.download).clear }) := by
  have hdiff : toI32 ((position : Int) - s.file.readPos) = (position : Int) - s.file.readPos :=
    toI32_eq (by omega) (by omega)
  have hmax : 0 < audioFileHttpMaxSeek := by decide
  unfold OpenFile.Far at hfar
  unfold audioFileSeek
  rw [if_neg (by omega), if_neg (fun hhigh => hrefuses (.inr hhigh)), hdiff]
  simp only [audioFilePopPreread, List.drop_length, Int.toNat_natCast]
  rw [if_neg (by omega), if_neg (by omega)]
  split
  · rw [if_pos (by omega)]
    rfl
  · rename_i hflash
    rw [htype] at hflash
    cases hflash
  · rename_i hcard
    rw [htype] at hcard
    cases hcard

/-- The head of a resource of one byte, and the byte. -/
def WebTurn.oneByte : WebTurn := { before := [.length 1, .push [0]] }

/-- A pass of a read in which that comes. -/
theorem audioFileReadPass_oneByte {f : AudioFile} {d : WebDownload} (hstate : d.state = httpDownloadStaRecv)
    (hbuffer : d.buffer = []) :
    ∃ d', audioFileReadPass .oneByte 1 f d = some (.pops [0] d') ∧ d'.totalLength = 1 := by
  have hidle : httpDownloadStaRecv ≠ httpDownloadStaIdle := by decide
  have hcome : d.applies [.length 1, .push [0]] =
      { d with totalLength := 1, buffer := [0], preDownloadPos := d.preDownloadPos + 1 } := by
    simp [WebDownload.applies, WebDownload.apply, hstate, hidle, hbuffer]
  have hnot : httpDownloadIsFinish { d with
      totalLength := 1, buffer := [0], preDownloadPos := d.preDownloadPos + 1 } = false := by
    simp [httpDownloadIsFinish, hstate, hidle]
  have hempty : ∀ d : WebDownload, d.applies [] = d := fun _ => rfl
  unfold audioFileReadPass
  simp only [WebTurn.oneByte, hcome, hnot, hempty, Bool.false_eq_true, if_false]
  exact ⟨_, rfl, rfl⟩

theorem audioFileReadLength_one {f : AudioFile} {d : WebDownload} {turns : List WebTurn} (h : d.totalLength = 1) :
    audioFileReadLength { turns } f d = ({ f with totalLength := max 1 f.totalLength }, d) := by
  have hnone : ∀ d : WebDownload, d.applies [] = d := fun _ => rfl
  have hone : toU32 1 = 1 := by decide
  unfold audioFileReadLength
  simp only [hnone, h, hone]
  split
  · rw [max_eq_left (by omega)]
    rfl
  · rw [max_eq_right (by omega)]

/-- A read just after a restart takes the length over, unless a longer one is there. -/
theorem audioFileRead_oneByte {f : AudioFile} {d : WebDownload} {fptr : Nat} (htype : f.fileType = .web)
    (hpreread : f.preread = []) (hstate : d.state = httpDownloadStaRecv) (hbuffer : d.buffer = []) :
    ∃ d', audioFileRead m { turns := [.oneByte] } 1 ⟨f, d, fptr⟩ = some (1, [0], ⟨{ f with
      totalLength := max 1 f.totalLength, readPos := (f.readPos + 1) % 4294967296 }, d', fptr⟩) := by
  obtain ⟨d', hpass, hlength⟩ := @audioFileReadPass_oneByte f d hstate hbuffer
  have hmin : min 1 audioFileHttpMaxSeek = 1 := by decide
  have hweb : audioFileReadWeb [.oneByte] 1 [] f d =
      some (true, [0], { f with readPos := (f.readPos + 1) % 4294967296 }, d') := by
    rw [audioFileReadWeb, if_neg (by omega), hmin, hpass]
    rfl
  have hfile : { f with preread := f.preread.drop 1 } = f := by
    rw [hpreread, List.drop_nil]
    exact file_of_preread_nil hpreread
  refine ⟨d', ?_⟩
  unfold audioFileRead
  simp only [audioFilePopPreread, hfile]
  rw [hpreread, List.take_nil, if_neg (by decide)]
  split
  · rw [List.length_nil, Nat.sub_zero, hweb]
    dsimp only
    rw [audioFileReadLength_one hlength]
    simp only [hpreread]
    rfl
  · rename_i hflash
    rw [htype] at hflash
    cases hflash
  · rename_i hcard
    rw [htype] at hcard
    cases hcard

/-- A seek far ahead, and the only byte of what is there. -/
def farCalls (position : Nat) : List (AudioFileCall × AudioFileAnswers) :=
  [(.seek position, {}), (.read 1, { turns := [.oneByte] })]

/-- A seek to the end of that resource. -/
def lengthCall : List (AudioFileCall × AudioFileAnswers) := [(.seek (1 : Nat), {})]

/-- The two return the same on any file, but leave a length that is at least one. -/
theorem calls_far {position : Nat} (htype : s.file.fileType = .web)
    (hfar : s.Far position) (hpos : s.file.readPos < 2147483648) (hsmall : position < 2147483648)
    (hrefuses : ¬s.Refuses (.seek position)) (cs : List (AudioFileCall × AudioFileAnswers)) :
    ∃ s1 : OpenFile, s1.file.fileType = .web ∧ s1.file.totalLength = max 1 s.file.totalLength ∧
      s.results m (farCalls position ++ cs) = (s1.results m cs).map fun rs => { ret := 0 } :: ⟨1, [0]⟩ :: rs := by
  have hseek := @audioFileSeek_far m s position htype hfar hpos hsmall hrefuses
  have hempty : (httpDownloadStartSeek .runs position (httpDownloadStop s.download).clear).buffer = [] := by
    rw [startSeek_buffer]
    rfl
  obtain ⟨d, hread⟩ := @audioFileRead_oneByte m { s.file with preread := [], readPos := position }
    (httpDownloadStartSeek .runs position (httpDownloadStop s.download).clear) s.fptr htype rfl rfl hempty
  refine ⟨_, ?_, ?_, results_two (call_seek hseek) (call_read hread) cs⟩
  · exact htype
  · rfl

theorem later_seek {position : Nat} (hsmall : position < 2147483648) :
    ∀ c ∈ [((.seek position, {}) : AudioFileCall × AudioFileAnswers)], c.1.Later := by
  intro c hc
  rw [List.mem_singleton.1 hc]
  exact Int.ofNat_lt.2 hsmall

/-- Web files with different lengths are told apart by a seek, or by a seek after the byte of another resource. -/
theorem totalLength_eq (hfits : s.Fits m) (htype : s.file.fileType = .web)
    (hfile : s'.file = { s.file with totalLength := s'.file.totalLength })
    (htop : s.file.totalLength = 4294967295 → s'.file.totalLength = s.file.totalLength)
    (h : ∀ cs : List (AudioFileCall × AudioFileAnswers), (∀ c ∈ cs, c.1.Later) → s'.results m cs = s.results m cs) :
    s'.file.totalLength = s.file.totalLength := by
  have hreadPos := hfits.readPos
  have htype' : s'.file.fileType = .web := by rw [hfile, htype]
  have hpos' : s'.file.readPos = s.file.readPos := by rw [hfile]
  have hrefuse : ∀ position : Nat, position < 2147483648 →
      ((0 < s'.file.totalLength ∧ s'.file.totalLength ≤ position) ↔
        (0 < s.file.totalLength ∧ s.file.totalLength ≤ position)) := by
    intro position hsmall
    have hiff := refuses_iff htype htype' (h [(.seek position, {})] (later_seek hsmall))
    simp only [OpenFile.Refuses] at hiff
    omega
  by_cases hsmall : s.file.totalLength < 2147483648
  case neg => exact htop ((hfits.totalLength htype).resolve_left hsmall)
  by_cases hsmall' : s'.file.totalLength < 2147483648
  · -- a seek to a length is refused, and none before it
    have := hrefuse s.file.totalLength hsmall
    have := hrefuse s'.file.totalLength hsmall'
    omega
  by_cases hpos : 0 < s.file.totalLength
  · have := hrefuse s.file.totalLength hsmall
    omega
  -- a length no position is refused for: only the next one that is taken over shows it
  exfalso
  obtain ⟨position, hfar, hposition⟩ : ∃ position, s.Far position ∧ position < 2147483648 := by
    have hpreread := hfits.preread
    unfold OpenFile.Far audioFileHttpMaxSeek at *
    by_cases hroom : s.file.readPos + 100 * 1024 + 1 < 2147483648
    · exact ⟨_, .inl (Nat.lt_succ_self _), hroom⟩
    · exact ⟨0, .inr (by omega), by omega⟩
  have hfar' : s'.Far position := by
    unfold OpenFile.Far
    rw [hfile]
    exact hfar
  obtain ⟨s1, htype1, htotal1, hresults1⟩ := @calls_far m s position htype hfar hreadPos hposition
    (by simp only [OpenFile.Refuses]; omega) lengthCall
  obtain ⟨s2, htype2, htotal2, hresults2⟩ := @calls_far m s' position htype' hfar' (by omega) hposition
    (by simp only [OpenFile.Refuses]; omega) lengthCall
  have hsame := h (farCalls position ++ lengthCall) (by
    intro c hc
    simp only [farCalls, lengthCall, List.cons_append, List.nil_append, List.mem_cons, List.not_mem_nil, or_false] at hc
    rcases hc with rfl | rfl | rfl
    · exact Int.ofNat_lt.2 (by omega)
    · exact show 1 < 2147483648 by omega
    · exact show (1 : Int) < 2147483648 by omega)
  rw [hresults1, hresults2] at hsame
  have hlast : s2.results m lengthCall = s1.results m lengthCall := by
    refine Option.map_injective ?_ hsame
    intro rs rs' hrs
    exact (List.cons.inj (List.cons.inj hrs).2).2
  have hiff := refuses_iff htype1 htype2 hlast
  simp only [OpenFile.Refuses] at hiff
  omega

/-! ## What a preread does -/

theorem push_file (malloc : Bool) (readLen : Int) (bs : List Byte) (f : AudioFile) :
    audioFilePushPreread malloc readLen bs f =
      { f with preread := (audioFilePushPreread malloc readLen bs f).preread } := by
  unfold audioFilePushPreread
  split <;> rfl

@[simp] theorem push_readPos (malloc : Bool) (readLen : Int) (bs : List Byte) (f : AudioFile) :
    (audioFilePushPreread malloc readLen bs f).readPos = f.readPos := by
  rw [push_file]

@[simp] theorem push_totalLength (malloc : Bool) (readLen : Int) (bs : List Byte) (f : AudioFile) :
    (audioFilePushPreread malloc readLen bs f).totalLength = f.totalLength := by
  rw [push_file]

/-- What the read in it leaves, whatever is put back after it. -/
structure ReadKeeps (m : AudioMedia) (s s' : OpenFile) : Prop where
  file        : s'.file = { s.file with
    totalLength := s'.file.totalLength, readPos := s'.file.readPos, preread := s'.file.preread }
  totalLength : s.file.fileType ≠ .web ∨ s.file.totalLength = 4294967295 → s'.file.totalLength = s.file.totalLength
  fptr        : s.file.fileType ≠ .sdCard → s'.fptr = s.fptr
  card        : s.fptr ≤ m.card.length → s'.fptr ≤ m.card.length
  readPos     : s.file.readPos < 4294967296 → s'.file.readPos < 4294967296
  untaken     : s.file.readPos < 4294967296 → s'.file.readPos = s.file.readPos → Untaken s.download s'.download

theorem readLength_file (f : AudioFile) (d : WebDownload) :
    (audioFileReadLength env f d).1 = { f with totalLength := (audioFileReadLength env f d).1.totalLength } := by
  unfold audioFileReadLength
  dsimp only
  split <;> rfl

/-- There is none above `(uint32_t)-1`. -/
theorem readLength_top {f : AudioFile} (hf : f.totalLength = 4294967295) (d : WebDownload) :
    (audioFileReadLength env f d).1.totalLength = 4294967295 := by
  unfold audioFileReadLength toU32
  dsimp only
  rw [if_neg (by omega)]
  exact hf

theorem readLength_untaken (f : AudioFile) (d : WebDownload) : Untaken d (audioFileReadLength env f d).2 := by
  have hlength : Untaken d (d.applies env.length) :=
    reach_untaken (applies_reach (C := fun _ => True) f.readPos (fun _ _ => trivial) d)
  unfold audioFileReadLength
  dsimp only
  split
  · exact hlength.trans (reach_untaken (applies_reach (C := fun _ => True) f.readPos (fun _ _ => trivial) _))
  · exact hlength

theorem readFlash_file (size : Nat) (bs : List Byte) (f : AudioFile) :
    (audioFileReadFlash m env size bs f).2 =
      { f with readPos := (audioFileReadFlash m env size bs f).2.readPos } ∧
    (f.readPos < 4294967296 → (audioFileReadFlash m env size bs f).2.readPos < 4294967296) := by
  unfold audioFileReadFlash
  dsimp only
  split
  · exact ⟨rfl, id⟩
  · exact ⟨rfl, fun _ => Nat.mod_lt _ (by omega)⟩

theorem readCard_file (size : Nat) (bs : List Byte) (f : AudioFile) (fptr : Nat) :
    (audioFileReadCard m env size bs f fptr).2.1 =
      { f with readPos := (audioFileReadCard m env size bs f fptr).2.1.readPos } ∧
    (f.readPos < 4294967296 → (audioFileReadCard m env size bs f fptr).2.1.readPos < 4294967296) ∧
    ((∀ k, env.fRead = some k → k ≤ m.card.length) → fptr ≤ m.card.length →
      (audioFileReadCard m env size bs f fptr).2.2 ≤ m.card.length) := by
  unfold audioFileReadCard
  split
  · rename_i k hk
    exact ⟨rfl, id, fun hread _ => hread k hk⟩
  · refine ⟨rfl, fun _ => Nat.mod_lt _ (by omega), fun _ hfptr => ?_⟩
    show fptr + ((m.card.drop fptr).take size).length ≤ m.card.length
    rw [List.length_take, List.length_drop]
    omega

theorem audioFileRead_keeps {ret : Int} {bs : List Byte} (hsize : n < 4294967296)
    (hread : ∀ k, env.fRead = some k → k ≤ m.card.length) (h : audioFileRead m env n s = some (ret, bs, s')) :
    ReadKeeps m s s' := by
  have hrun : ∀ {ok bs f d}, audioFileReadWeb env.turns (n - s.file.preread.length) s.file.preread
      { s.file with preread := [] } s.download = some (ok, bs, f, d) →
      f = { s.file with preread := [], readPos := f.readPos } ∧
      (s.file.readPos < 4294967296 → f.readPos < 4294967296) ∧
      (s.file.readPos < 4294967296 → f.readPos = s.file.readPos → Untaken s.download d) := by
    intro ok bs f d hweb
    obtain ⟨popped, hrun⟩ := audioFileReadWeb_run (fun turn _ => turn.all_true) hweb
    have hle := hrun.le
    have hpos := hrun.readPos
    dsimp only at hpos
    refine ⟨hrun.file, ?_, ?_⟩
    · intro hlt
      rw [hpos hlt]
      exact Nat.mod_lt _ (by omega)
    · intro hlt hsame
      have hnone : popped = [] := List.length_eq_zero_iff.1 (by have := hpos hlt; omega)
      have hbuffer := hrun.buffer
      have hcount := hrun.readCount
      rw [hnone] at hbuffer hcount
      exact ⟨hcount, hbuffer⟩
  cases audioFileRead_cases h with
  | preread _ => exact ⟨rfl, fun _ => rfl, fun _ => rfl, id, id, fun _ _ => .refl _⟩
  | @failed bs f d _ _ hweb =>
    obtain ⟨hfile, hlt, huntaken⟩ := hrun hweb
    refine ⟨?_, fun _ => ?_, fun _ => rfl, id, hlt, huntaken⟩
    · show f = _
      rw [hfile]
    · show f.totalLength = _
      rw [hfile]
  | @web bs f d _ htype hweb =>
    obtain ⟨hfile, hlt, huntaken⟩ := hrun hweb
    have hlength := @readLength_file env f d
    have hpos : (audioFileReadLength env f d).1.readPos = f.readPos := by rw [hlength]
    refine ⟨?_, ?_, fun _ => rfl, id, ?_, ?_⟩
    · show (audioFileReadLength env f d).1 = _
      rw [hlength, hfile]
    · rintro (hnot | htop)
      · exact absurd htype hnot
      · rw [htop]
        exact readLength_top (by rw [hfile, htop]) d
    · intro hpos32
      show (audioFileReadLength env f d).1.readPos < _
      rw [hpos]
      exact hlt hpos32
    · intro hpos32 hsame
      refine (huntaken hpos32 ?_).trans (readLength_untaken f d)
      rw [← hpos]
      exact hsame
  | @flash bs f _ htype hflash =>
    obtain ⟨hfile, hlt⟩ := @readFlash_file m env (n - s.file.preread.length) s.file.preread { s.file with preread := [] }
    rw [hflash] at hfile hlt
    dsimp only at hfile
    refine ⟨?_, fun _ => ?_, fun _ => rfl, id, hlt, fun _ _ => .refl _⟩
    · show f = _
      rw [hfile]
    · show f.totalLength = _
      rw [hfile]
  | @card bs f fptr _ htype hcard =>
    obtain ⟨hfile, hlt, hfptr⟩ :=
      @readCard_file m env (n - s.file.preread.length) s.file.preread { s.file with preread := [] } s.fptr
    rw [hcard] at hfile hlt hfptr
    dsimp only at hfile
    refine ⟨?_, fun _ => ?_, fun hnot => absurd htype hnot, hfptr hread, hlt, fun _ _ => .refl _⟩
    · show f = _
      rw [hfile]
    · show f.totalLength = _
      rw [hfile]

/-- A preread is a read, and then only the preread buffer changes. -/
theorem audioFilePreread_cases {r : AudioFileResult} (h : s.call m env (.preread n) = some (r, s')) :
    ∃ ret bs s1, audioFileRead m env n s = some (ret, bs, s1) ∧
      s' = { s1 with file := audioFilePushPreread env.malloc ret bs s1.file } := by
  obtain ⟨⟨ret, bs, s2⟩, hpreread, hr⟩ := Option.map_eq_some_iff.1 h
  cases hr
  unfold audioFilePreread at hpreread
  cases hread : audioFileRead m env n s with
  | none =>
    rw [hread] at hpreread
    cases hpreread
  | some res =>
    obtain ⟨ret1, bs1, s1⟩ := res
    rw [hread] at hpreread
    cases hpreread
    exact ⟨ret1, _, s1, rfl, rfl⟩

theorem ReadKeeps.push {malloc : Bool} {ret : Int} {bs : List Byte} (h : ReadKeeps m s s') :
    ReadKeeps m s { s' with file := audioFilePushPreread malloc ret bs s'.file } := by
  have hfile := h.file
  have hpush := push_file malloc ret bs s'.file
  refine ⟨?_, ?_, h.fptr, h.card, ?_, ?_⟩
  · show audioFilePushPreread malloc ret bs s'.file = _
    rw [hpush, hfile]
  · show _ → (audioFilePushPreread malloc ret bs s'.file).totalLength = _
    rw [hpush]
    exact h.totalLength
  · show _ → (audioFilePushPreread malloc ret bs s'.file).readPos < _
    rw [hpush]
    exact h.readPos
  · show _ → (audioFilePushPreread malloc ret bs s'.file).readPos = _ → _
    rw [hpush]
    exact h.untaken

/-- But for its download the file is what it was. -/
def Unchanged (s s' : OpenFile) : Prop := s' = { s with download := s'.download } ∧ Untaken s.download s'.download

theorem ReadKeeps.unchanged_iff (h : ReadKeeps m s s') (hpos : s.file.readPos < 4294967296) :
    Unchanged s s' ↔ s'.file.preread = s.file.preread ∧ s'.file.readPos = s.file.readPos ∧
      s'.file.totalLength = s.file.totalLength ∧ s'.fptr = s.fptr := by
  constructor
  · rintro ⟨hs, -⟩
    rw [hs]
    exact ⟨rfl, rfl, rfl, rfl⟩
  · rintro ⟨hpreread, hreadPos, htotal, hfptr⟩
    refine ⟨?_, h.untaken hpos hreadPos⟩
    have hfile := h.file
    obtain ⟨f, d, fptr⟩ := s'
    dsimp only at *
    rw [hfptr, hfile, hpreread, hreadPos, htotal]

/-- **No later call can tell exactly where nothing has changed.** -/
theorem ReadKeeps.transparent_iff (h : ReadKeeps m s s') (hfits : s.Fits m) :
    Transparent m s s' ↔ Unchanged s s' := by
  have hreadPos := hfits.readPos
  have hpos32 : s.file.readPos < 4294967296 := by omega
  constructor
  · rintro ⟨d, -, hresults⟩
    have hone : ∀ c env, AudioFileCall.Later c →
        s'.results m [(c, env)] = OpenFile.results m [(c, env)] { s with download := d } := by
      intro c env hc
      refine hresults [(c, env)] ?_
      intro c' hc'
      rw [List.mem_singleton.1 hc']
      exact hc
    have htype : s'.file.fileType = s.file.fileType := by rw [h.file]
    have hpos : s'.file.readPos = s.file.readPos :=
      @readPos_eq m { s with download := d } s' {} hpos32 (h.readPos hpos32) (hone .tell {} trivial)
    have hpreread : s'.file.preread = s.file.preread := by
      refine preread_eq (m := m) (s := { s with download := d }) htype ?_
      intro n hn
      have hroom := hfits.preread
      have hmax : 0 < audioFileHttpMaxSeek := by decide
      have hlen : n ≤ s.file.preread.length + 1 := hn
      exact hone (.read n) .dead (show n < 2147483648 by omega)
    rw [h.unchanged_iff hpos32]
    refine ⟨hpreread, hpos, ?_, ?_⟩
    · by_cases hweb : s.file.fileType = .web
      · refine totalLength_eq (m := m) (s := { s with download := d }) ⟨hfits.1, hfits.2, hfits.3, hfits.4, hfits.5⟩ hweb ?_
          (fun htop => h.totalLength (.inr htop)) hresults
        have hfile := h.file
        rw [hpreread, hpos] at hfile
        exact hfile
      · exact h.totalLength (.inl hweb)
    · by_cases hcard : s.file.fileType = .sdCard
      · obtain ⟨hle, hlen⟩ := hfits.card hcard
        exact fptr_eq (m := m) (s := { s with download := d }) hcard (htype.trans hcard) hle (h.card hle) hpreread
          (hone (.read (s.file.preread.length + m.card.length + 1)) {} hlen)
      · exact h.fptr hcard
  · rintro ⟨hs, huntaken⟩
    refine ⟨s'.download, huntaken, ?_⟩
    intro cs _
    rw [← hs]

/-- From flash memory something comes exactly where the position moves. -/
theorem readFlash_none {size : Nat} {bs : List Byte} {f : AudioFile} (hsize : size < 4294967296) :
    (audioFileReadFlash m env size bs f).1 = bs ↔ (audioFileReadFlash m env size bs f).2.readPos = f.readPos := by
  have hlen : audioFileFlashLen size f < 4294967296 := by
    unfold audioFileFlashLen toU32
    split <;> omega
  unfold audioFileReadFlash
  generalize audioFileFlashLen size f = len at hlen
  dsimp only
  split
  · exact iff_of_true rfl rfl
  · rename_i hread
    obtain ⟨hne, hread⟩ := not_or.1 hread
    obtain ⟨-, hfits⟩ := not_or.1 hread
    refine iff_of_false ?_ ?_
    · intro hnone
      have hnil := congrArg List.length (List.append_right_eq_self.1 hnone)
      rw [List.length_take, List.length_drop, List.length_nil] at hnil
      omega
    · show (f.readPos + len) % 4294967296 ≠ f.readPos
      omega

/-- From the card likewise. -/
theorem readCard_none {size fptr : Nat} {bs : List Byte} {f : AudioFile} (hsize : size < 4294967296)
    (hpos : f.readPos < 4294967296) :
    (audioFileReadCard m env size bs f fptr).1 = bs ↔
      (audioFileReadCard m env size bs f fptr).2.1.readPos = f.readPos := by
  unfold audioFileReadCard
  split
  · exact iff_of_true rfl rfl
  · dsimp only
    rw [List.append_right_eq_self]
    have hlen : ((m.card.drop fptr).take size).length ≤ size := List.length_take_le _ _
    rw [← List.length_eq_zero_iff]
    omega

/-- From the download likewise. -/
theorem readWeb_none {size : Nat} {bs bs' : List Byte} {ok : Bool} {f f' : AudioFile} {d d' : WebDownload}
    (hsize : size < 4294967296) (hpos : f.readPos < 4294967296)
    (h : audioFileReadWeb env.turns size bs f d = some (ok, bs', f', d')) : bs' = bs ↔ f'.readPos = f.readPos := by
  obtain ⟨popped, hrun⟩ := audioFileReadWeb_run (fun turn _ => turn.all_true) h
  have hle := hrun.le
  rw [hrun.bytes, hrun.readPos hpos, List.append_right_eq_self, ← List.length_eq_zero_iff]
  omega

/-- From flash memory nothing comes at the end of the prompt, or where it cannot be read; -/
theorem readFlash_dry {size : Nat} {bs : List Byte} {f : AudioFile} (hsize : size ≠ 0) (hsmall : size < 2147483648)
    (hpos : f.readPos < 2147483648) (hprompt : f.readPos ≤ f.totalLength) :
    (audioFileReadFlash m env size bs f).1 = bs ↔ f.readPos = f.totalLength ∨ env.flashRead = false ∨
      m.flash.length < (f.promptOffset + f.readPos) % 4294967296 + min size (f.totalLength - f.readPos) := by
  have hlen : audioFileFlashLen size f = min size (f.totalLength - f.readPos) := by
    unfold audioFileFlashLen
    split
    · rw [toU32_eq (by omega) (by omega)]
      omega
    · omega
  rw [readFlash_none (by omega)]
  unfold audioFileReadFlash
  rw [hlen]
  dsimp only
  split
  · rename_i hnone
    refine iff_of_true rfl (hnone.imp_left fun hzero => ?_)
    omega
  · rename_i hread
    obtain ⟨hne, hread⟩ := not_or.1 hread
    obtain ⟨hcan, hfits⟩ := not_or.1 hread
    refine iff_of_false ?_ ?_
    · intro hsame
      have hmoved : (f.readPos + min size (f.totalLength - f.readPos)) % 4294967296 = f.readPos := hsame
      omega
    · rintro (hend | hflash | hshort)
      · omega
      · exact hcan hflash
      · exact hfits hshort

/-- from the card nothing, and the file pointer stays, at its end, or where `f_read` fails and leaves it; -/
theorem readCard_dry {size fptr : Nat} {bs : List Byte} {f : AudioFile} (hsize : size ≠ 0) :
    ((audioFileReadCard m env size bs f fptr).1 = bs ∧ (audioFileReadCard m env size bs f fptr).2.2 = fptr) ↔
      env.fRead = some fptr ∨ env.fRead = none ∧ m.card.length ≤ fptr := by
  unfold audioFileReadCard
  cases env.fRead with
  | some k => simp
  | none =>
    have hlen : ((m.card.drop fptr).take size).length = min size (m.card.length - fptr) := by
      rw [List.length_take, List.length_drop]
    simp only [reduceCtorEq, false_or, true_and, List.append_right_eq_self, ← List.length_eq_zero_iff, hlen]
    omega

theorem pop_empty {d : WebDownload} (h : d.buffer = []) (n : Nat) : d.pop n = ([], d) := by
  obtain ⟨state, lastError, totalLength, preDownloadPos, attached, buffer, readCount⟩ := d
  cases h
  simp [WebDownload.pop]

/-- and from a download that is drained. -/
theorem readWeb_drained {turns : List WebTurn} {size : Nat} {bs bs' : List Byte} {ok : Bool} {f f' : AudioFile}
    {d d' : WebDownload} (hsize : size ≠ 0) (hfinish : httpDownloadIsFinish d = true) (hempty : d.buffer = [])
    (h : audioFileReadWeb turns size bs f d = some (ok, bs', f', d')) : ok = true ∧ bs' = bs ∧ f' = f ∧ d' = d := by
  have hsame := applies_idle (finish_idle hfinish)
  cases turns with
  | nil =>
    rw [audioFileReadWeb, if_neg hsize] at h
    cases h
  | cons turn turns =>
    have hpass : audioFileReadPass turn (min size audioFileHttpMaxSeek) f d = some (.leaves d) := by
      unfold audioFileReadPass
      simp only [hsame, hfinish, hempty, if_true, List.length_nil]
    rw [audioFileReadWeb, if_neg hsize, hpass] at h
    cases h
    exact ⟨rfl, rfl, rfl, rfl⟩

/-- A finished download brings a length exactly if it is above the one stored. -/
theorem readLength_finished {f : AudioFile} {d : WebDownload} (hfinish : httpDownloadIsFinish d = true) :
    (audioFileReadLength env f d).1.totalLength = f.totalLength ↔ toU32 d.totalLength ≤ f.totalLength := by
  unfold audioFileReadLength
  simp only [applies_idle (finish_idle hfinish)]
  split
  · rename_i hlt
    dsimp only
    omega
  · rename_i hle
    exact iff_of_true rfl (not_lt.1 hle)

/-- A pass that leaves the loop found the download finished and the buffer empty. -/
theorem readPass_leaves {turn : WebTurn} {len : Nat} {f : AudioFile} {d d1 : WebDownload}
    (h : audioFileReadPass turn len f d = some (.leaves d1)) :
    d1 = d.applies turn.before ∧ httpDownloadIsFinish d1 = true ∧ d1.buffer = [] := by
  unfold audioFileReadPass at h
  dsimp only at h
  split at h
  · rename_i hfinish
    rw [applies_idle (finish_idle hfinish)] at h
    split at h
    · rename_i hempty
      cases h
      exact ⟨rfl, hfinish, List.length_eq_zero_iff.1 hempty⟩
    · cases h
  · split at h
    · split at h <;> cases h
    · cases h

/-- One that pops nothing waited until the download had finished. -/
theorem readPass_pops_nil {turn : WebTurn} {len : Nat} {f : AudioFile} {d d1 : WebDownload} (hlen : len ≠ 0)
    (h : audioFileReadPass turn len f d = some (.pops [] d1)) :
    Waits turn len f d true d1 ∧ httpDownloadIsFinish d1 = true ∧ d1.buffer = [] := by
  have hnone : ∀ d2 : WebDownload, (d2.pop len).1 = [] → d2.buffer = [] := by
    intro d2 hpop
    have hzero : (d2.buffer.take len).length = 0 := List.length_eq_zero_iff.2 hpop
    rw [List.length_take] at hzero
    exact List.length_eq_zero_iff.1 (by omega)
  unfold audioFileReadPass at h
  dsimp only at h
  split at h
  · rename_i hfinish
    rw [applies_idle (finish_idle hfinish)] at h
    split at h
    · cases h
    · rename_i hfull
      rw [applies_idle (finish_idle hfinish)] at h
      have hpop := (ReadPass.pops.inj (Option.some.inj h)).1
      exact absurd (hnone _ hpop) (fun hempty => hfull (by rw [hempty, List.length_nil]))
  rename_i hgoing
  split at h
  · rename_i hshort
    cases hwait : audioFileWaitBuffer turn len f ((d.applies turn.before).applies turn.counted) with
    | none =>
      rw [hwait] at h
      cases h
    | some res =>
      obtain ⟨ok, d2⟩ := res
      rw [hwait] at h
      cases ok with
      | false => cases h
      | true =>
        obtain ⟨hpop, hd⟩ := ReadPass.pops.inj (Option.some.inj h)
        have hafter := after_reach f.readPos turn d2
        have hempty := hnone _ hpop
        have hempty2 : d2.buffer = [] := by
          have hprefix := (reach_untaken hafter).buffer
          rw [hempty] at hprefix
          exact List.prefix_nil.1 hprefix
        have hfinish := (audioFileWaitBuffer_true hwait).resolve_left (by rw [hempty2, List.length_nil]; omega)
        rw [reach_finish hafter hfinish, pop_empty hempty2] at hd
        rw [← hd]
        exact ⟨⟨Bool.eq_false_of_not_eq_true hgoing, hshort, hwait⟩, hfinish, hempty2⟩
  · rename_i henough
    have hpop := (ReadPass.pops.inj (Option.some.inj h)).1
    have hafter := after_reach f.readPos turn
      ((d.applies turn.before).applies turn.counted)
    have hgrown := (reach_untaken hafter).buffer.length_le
    rw [hnone _ hpop, List.length_nil] at hgrown
    omega

theorem readPass_of_waits {turn : WebTurn} {len : Nat} {f : AudioFile} {d d1 : WebDownload}
    (h : Waits turn len f d true d1) (hfinish : httpDownloadIsFinish d1 = true) (hempty : d1.buffer = []) :
    audioFileReadPass turn len f d = some (.pops [] d1) := by
  unfold audioFileReadPass
  dsimp only
  rw [h.going, if_neg Bool.false_ne_true, if_pos h.short, h.answer]
  dsimp only
  rw [applies_idle (finish_idle hfinish), pop_empty hempty]

/-- The download is drained when the first pass begins or when its wait ends, or that fails where `P` holds. -/
def DryPass (turn : WebTurn) (len : Nat) (f : AudioFile) (d : WebDownload) (P : Prop) : Prop :=
  (d.applies turn.before).Drained f.totalLength ∨
    ∃ ok d1, Waits turn len f d ok d1 ∧ if ok then d1.Drained f.totalLength else P

section
variable {turn : WebTurn} {len : Nat} {f : AudioFile} {d d1 : WebDownload} {popped : List Byte} {P : Prop}

theorem readPass_of_drained (h : (d.applies turn.before).Drained f.totalLength) :
    audioFileReadPass turn len f d = some (.leaves (d.applies turn.before)) := by
  unfold audioFileReadPass
  simp only [h.finished, if_true, applies_idle (finish_idle h.finished), h.empty, List.length_nil]

theorem dryPass_leaves (hpass : audioFileReadPass turn len f d = some (.leaves d1)) :
    DryPass turn len f d P ↔ toU32 d1.totalLength ≤ f.totalLength := by
  obtain ⟨rfl, hfinish, hempty⟩ := readPass_leaves hpass
  constructor
  · rintro (hdry | ⟨ok, d1, hwaits, -⟩)
    · exact hdry.length
    · rw [hwaits.going] at hfinish
      cases hfinish
  · intro hlength
    exact .inl ⟨hfinish, hempty, hlength⟩

theorem dryPass_fails (hpass : audioFileReadPass turn len f d = some (.fails d1)) : DryPass turn len f d P ↔ P := by
  have hwaits := audioFileReadPass_fails.1 hpass
  constructor
  · rintro (hdry | ⟨ok, d2, hwaits', hdry⟩)
    · have hfinish := hdry.finished
      rw [hwaits.going] at hfinish
      cases hfinish
    · cases hwaits.answer.symm.trans hwaits'.answer
      exact hdry
  · intro hP
    exact .inr ⟨false, _, hwaits, hP⟩

theorem dryPass_pops (hlen : len ≠ 0) (hpass : audioFileReadPass turn len f d = some (.pops popped d1)) :
    DryPass turn len f d P ↔ popped = [] ∧ d1.Drained f.totalLength := by
  constructor
  · rintro (hdry | ⟨ok, d2, hwaits, hdry⟩)
    · rw [readPass_of_drained hdry] at hpass
      cases hpass
    cases ok with
    | false =>
      rw [audioFileReadPass_fails.2 hwaits] at hpass
      cases hpass
    | true =>
      have hdry : d2.Drained f.totalLength := hdry
      rw [readPass_of_waits hwaits hdry.finished hdry.empty] at hpass
      cases hpass
      exact ⟨rfl, hdry⟩
  · rintro ⟨rfl, hdry⟩
    exact .inr ⟨true, d1, (readPass_pops_nil hlen hpass).1, hdry⟩

end

/-- **A read of a download takes nothing exactly where that is drained or the first wait fails.** -/
theorem readWeb_dry {turns : List WebTurn} {size : Nat} {bs bs' : List Byte} {ok : Bool} {f f' : AudioFile}
    {d d' : WebDownload} {P : Prop} (hsize : size ≠ 0)
    (h : audioFileReadWeb turns size bs f d = some (ok, bs', f', d')) :
    (bs' = bs ∧ (ok = true → (audioFileReadLength env f' d').1.totalLength = f.totalLength) ∧ (ok = false → P)) ↔
      ∃ turn rest, turns = turn :: rest ∧ DryPass turn (min size audioFileHttpMaxSeek) f d P := by
  have hmin : min size audioFileHttpMaxSeek ≠ 0 := by
    unfold audioFileHttpMaxSeek
    omega
  cases turns with
  | nil =>
    rw [audioFileReadWeb, if_neg hsize] at h
    cases h
  | cons turn turns =>
    rw [audioFileReadWeb, if_neg hsize] at h
    have hfirst : (∃ turn' rest, turn :: turns = turn' :: rest ∧ DryPass turn' (min size audioFileHttpMaxSeek) f d P) ↔
        DryPass turn (min size audioFileHttpMaxSeek) f d P := by
      constructor
      · rintro ⟨turn', rest, hturns, hdry⟩
        cases hturns
        exact hdry
      · intro hdry
        exact ⟨turn, turns, rfl, hdry⟩
    rw [hfirst]
    cases hpass : audioFileReadPass turn (min size audioFileHttpMaxSeek) f d with
    | none =>
      rw [hpass] at h
      cases h
    | some pass =>
      rw [hpass] at h
      cases pass with
      | leaves d1 =>
        cases h
        rw [dryPass_leaves hpass, readLength_finished (readPass_leaves hpass).2.1]
        exact ⟨fun hmet => hmet.2.1 rfl, fun hlength => ⟨rfl, fun _ => hlength, nofun⟩⟩
      | fails d1 =>
        cases h
        rw [dryPass_fails hpass]
        exact ⟨fun hmet => hmet.2.2 rfl, fun hP => ⟨rfl, nofun, fun _ => hP⟩⟩
      | pops popped d1 =>
        dsimp only at h
        rw [dryPass_pops hmin hpass]
        constructor
        · rintro ⟨hbytes, hlength, -⟩
          obtain ⟨more, hrun⟩ := audioFileReadWeb_run (fun turn _ => turn.all_true) h
          have hall := hrun.bytes
          rw [hbytes, List.append_assoc, List.self_eq_append_right, List.append_eq_nil_iff] at hall
          obtain ⟨rfl, -⟩ := hall
          obtain ⟨-, hfinish, hempty⟩ := readPass_pops_nil hmin hpass
          obtain ⟨rfl, -, rfl, rfl⟩ := readWeb_drained (by simpa using hsize) hfinish hempty h
          have hshort := (@readLength_finished env _ _ hfinish).1 (hlength rfl)
          exact ⟨rfl, hfinish, hempty, hshort⟩
        · rintro ⟨rfl, hdry⟩
          obtain ⟨rfl, rfl, rfl, rfl⟩ := readWeb_drained (by simpa using hsize) hdry.finished hdry.empty h
          exact ⟨List.append_nil _, fun _ => (readLength_finished hdry.finished).2 hdry.length, nofun⟩

/-- The source of a web file gives nothing exactly where the loop takes nothing and brings no length, and where it fails
nothing was preread. -/
theorem dry_iff {bs : List Byte} {ok : Bool} {f : AudioFile} {d : WebDownload} (htype : s.file.fileType = .web)
    (hn : n ≠ 0)
    (h : audioFileReadWeb env.turns n s.file.preread { s.file with preread := [] } s.download = some (ok, bs, f, d)) :
    s.Dry m env n ↔ bs = s.file.preread ∧
      (ok = true → (audioFileReadLength env f d).1.totalLength = s.file.totalLength) ∧
      (ok = false → s.file.preread = []) := by
  rw [dry_web htype]
  refine Iff.trans ?_ (readWeb_dry hn h).symm
  -- a wait looks at `read_pos` only
  constructor
  · rintro ⟨turn, rest, hturns, hmet⟩
    refine ⟨turn, rest, hturns, hmet.imp_right ?_⟩
    rintro ⟨ok, d1, ⟨hgoing, hshort, hwait⟩, hend⟩
    exact ⟨ok, d1, ⟨hgoing, hshort, hwait⟩, hend⟩
  · rintro ⟨turn, rest, hturns, hmet⟩
    refine ⟨turn, rest, hturns, hmet.imp_right ?_⟩
    rintro ⟨ok, d1, ⟨hgoing, hshort, hwait⟩, hend⟩
    exact ⟨ok, d1, ⟨hgoing, hshort, hwait⟩, hend⟩

/-- A preread buffer of which all was taken is put back if there is memory for it, and nothing was in it else. -/
theorem push_all {malloc : Bool} {P : List Byte} {f : AudioFile} (hf : f.preread = []) :
    (audioFilePushPreread malloc P.length P f).preread = P ↔ malloc = true ∨ P = [] := by
  unfold audioFilePushPreread
  cases malloc with
  | true => simp [hf]
  | false => simp [hf, eq_comm]

theorem push_neg (malloc : Bool) (bs : List Byte) (f : AudioFile) : audioFilePushPreread malloc (-2) bs f = f := by
  unfold audioFilePushPreread
  rw [if_neg (fun h => absurd h.2 (by decide))]

/-- A part of it is put back behind the rest. -/
theorem push_part {malloc : Bool} {f : AudioFile} (hn : n ≤ f.preread.length) :
    (audioFilePushPreread malloc n (f.preread.take n) { f with preread := f.preread.drop n }).preread = f.preread ↔
      n = 0 ∨ malloc = true ∧ f.preread.rotate n = f.preread := by
  rw [List.rotate_eq_drop_append_take hn]
  unfold audioFilePushPreread
  cases malloc with
  | true =>
    simp only [Int.natCast_nonneg, and_self, if_true, true_and]
    constructor
    · exact .inr
    · rintro (rfl | hrotate)
      · simp
      · exact hrotate
  | false =>
    simp only [Bool.false_eq_true, false_and, if_false, or_false]
    constructor
    · intro hdrop
      have hlen := congrArg List.length hdrop
      rw [List.length_drop] at hlen
      omega
    · rintro rfl
      exact List.drop_zero

/-- **Nothing has changed exactly where the condition is met.** -/
theorem preread_unchanged_iff {r : AudioFileResult} (hfits : s.Fits m) (hn : n < 2147483648)
    (hread : ∀ k, env.fRead = some k → k ≤ m.card.length) (h : s.call m env (.preread n) = some (r, s')) :
    Unchanged s s' ↔ s.PrereadMet m env n := by
  have hreadPos := hfits.readPos
  have hpos32 : s.file.readPos < 4294967296 := by omega
  obtain ⟨ret, bs, s1, hcall, rfl⟩ := audioFilePreread_cases h
  have hkeeps := audioFileRead_keeps (by omega) hread hcall
  rw [hkeeps.push.unchanged_iff hpos32]
  unfold OpenFile.PrereadMet
  simp only [push_readPos, push_totalLength]
  cases audioFileRead_cases hcall with
  | preread hle =>
    rw [if_pos hle, push_part hle]
    simp only [and_self, and_true]
  | @failed bs f d hlt htype hweb =>
    have hnone := readWeb_none (f := { s.file with preread := [] }) (by omega) hpos32 hweb
    obtain ⟨popped, hrun⟩ := audioFileReadWeb_run (fun turn _ => turn.all_true) hweb
    have hfile := hrun.file
    have hnil : f.preread = [] := by rw [hfile]
    have htotal : f.totalLength = s.file.totalLength := by rw [hfile]
    rw [if_neg (by omega), dry_iff htype (by omega) hweb, push_neg, hnil]
    constructor
    · rintro ⟨hpreread, hsame, -, -⟩
      exact ⟨.inr hpreread.symm, hnone.2 hsame, nofun, fun _ => hpreread.symm⟩
    · rintro ⟨-, hbytes, -, hpreread⟩
      exact ⟨(hpreread rfl).symm, hnone.1 hbytes, htotal, rfl⟩
  | @web bs f d hlt htype hweb =>
    have hnone := readWeb_none (f := { s.file with preread := [] }) (by omega) hpos32 hweb
    obtain ⟨popped, hrun⟩ := audioFileReadWeb_run (fun turn _ => turn.all_true) hweb
    have hfile := hrun.file
    have hlength := @readLength_file env f d
    have hnil : (audioFileReadLength env f d).1.preread = [] := by rw [hlength, hfile]
    have hpos : (audioFileReadLength env f d).1.readPos = f.readPos := by rw [hlength]
    rw [if_neg (by omega), dry_iff htype (by omega) hweb, hpos]
    constructor
    · rintro ⟨hpreread, hsame, htotal, -⟩
      obtain rfl : bs = s.file.preread := hnone.2 hsame
      exact ⟨(push_all hnil).1 hpreread, rfl, fun _ => htotal, nofun⟩
    · rintro ⟨hmalloc, rfl, htotal, -⟩
      exact ⟨(push_all hnil).2 hmalloc, hnone.1 rfl, htotal rfl, rfl⟩
  | @flash bs f hlt htype hflash =>
    have hnone := @readFlash_none m env (n - s.file.preread.length) s.file.preread { s.file with preread := [] } (by omega)
    have hdry := @readFlash_dry m env (n - s.file.preread.length) s.file.preread { s.file with preread := [] } (by omega)
      (by omega) hreadPos (hfits.prompt htype)
    have hfile := (@readFlash_file m env (n - s.file.preread.length) s.file.preread { s.file with preread := [] }).1
    rw [hflash] at hnone hdry hfile
    dsimp only at hdry hfile
    have hnil : f.preread = [] := by rw [hfile]
    have htotal : f.totalLength = s.file.totalLength := by rw [hfile]
    rw [if_neg (by omega), dry_flash htype, ← hdry]
    constructor
    · rintro ⟨hpreread, hsame, -, -⟩
      obtain rfl : bs = s.file.preread := hnone.2 hsame
      exact ⟨(push_all hnil).1 hpreread, rfl⟩
    · rintro ⟨hmalloc, rfl⟩
      exact ⟨(push_all hnil).2 hmalloc, hnone.1 rfl, htotal, rfl⟩
  | @card bs f fptr hlt htype hcard =>
    have hnone := @readCard_none m env (n - s.file.preread.length) s.fptr s.file.preread { s.file with preread := [] }
      (by omega) hpos32
    have hdry := @readCard_dry m env (n - s.file.preread.length) s.fptr s.file.preread { s.file with preread := [] }
      (by omega)
    have hfile := (@readCard_file m env (n - s.file.preread.length) s.file.preread { s.file with preread := [] } s.fptr).1
    rw [hcard] at hnone hdry hfile
    dsimp only at hdry hfile
    have hnil : f.preread = [] := by rw [hfile]
    have htotal : f.totalLength = s.file.totalLength := by rw [hfile]
    rw [if_neg (by omega), dry_card htype, ← hdry]
    constructor
    · rintro ⟨hpreread, hsame, -, hfptr⟩
      obtain rfl : bs = s.file.preread := hnone.2 hsame
      exact ⟨(push_all hnil).1 hpreread, rfl, hfptr⟩
    · rintro ⟨hmalloc, rfl, hfptr⟩
      exact ⟨(push_all hnil).2 hmalloc, hnone.1 rfl, htotal, hfptr⟩

end

/-- **A preread is transparent exactly where it gives back what it took, where it took it, and nothing comes from the
source.** -/
theorem audioFilePreread_transparent (m : AudioMedia) (env : AudioFileAnswers) {n : Nat} {s s' : OpenFile}
    {r : AudioFileResult} (hfits : s.Fits m) (hn : n < 2147483648)
    (hread : ∀ k, env.fRead = some k → k ≤ m.card.length) (h : s.call m env (.preread n) = some (r, s')) :
    Transparent m s s' ↔ s.PrereadMet m env n := by
  obtain ⟨ret, bs, s1, hcall, hs⟩ := audioFilePreread_cases h
  have hkeeps : ReadKeeps m s s' := by
    rw [hs]
    exact (audioFileRead_keeps (by omega) hread hcall).push
  rw [hkeeps.transparent_iff hfits, preread_unchanged_iff hfits hn hread h]

/-- A web file of which eight bytes were preread when it was opened. -/
def headerFile : OpenFile where
  file := { fileState := .open, fileType := .web, totalLength := 1000, readPos := 8, rangeEnable := true,
            preread := bytes "RIFFWAVE" }
  download := { state := httpDownloadStaRecv, lastError := .success, totalLength := 1000, preDownloadPos := 8,
                attached := true, buffer := [], readCount := 8 }
  fptr := 0

/-- Prereading the same eight bytes again is transparent. -/
theorem audioFilePreread_transparent_header :
    headerFile.call ⟨[], []⟩ {} (.preread 8) = some (⟨8, bytes "RIFFWAVE"⟩, headerFile) ∧
      Transparent ⟨[], []⟩ headerFile headerFile := by
  have hcall : headerFile.call ⟨[], []⟩ {} (.preread 8) = some (⟨8, bytes "RIFFWAVE"⟩, headerFile) := by decide
  have hfits : headerFile.Fits ⟨[], []⟩ := ⟨by decide, by decide, nofun, nofun, fun _ => .inl (by decide)⟩
  have hmet : headerFile.PrereadMet ⟨[], []⟩ {} 8 := .inr ⟨rfl, rfl⟩
  exact ⟨hcall, (audioFilePreread_transparent ⟨[], []⟩ {} hfits (by decide) nofun hcall).2 hmet⟩

/-- Prereading four of them makes the file start with the other four. -/
theorem audioFilePreread_rotates :
    let header : AudioFileAnswers := { turns := [{ polls := [{ before := [.length 1000, .push (bytes "RIFFWAVE")] }] }] }
    ∃ s', webFile.call ⟨[], []⟩ header (.preread 8) = some (⟨8, bytes "RIFFWAVE"⟩, headerFile) ∧
      headerFile.call ⟨[], []⟩ {} (.preread 4) = some (⟨8, bytes "RIFF"⟩, s') ∧ ¬Transparent ⟨[], []⟩ headerFile s' := by
  refine ⟨{ headerFile with file := { headerFile.file with preread := bytes "WAVERIFF" } }, by decide, by decide, ?_⟩
  rintro ⟨d, -, hsame⟩
  have hread := hsame [(.read 8, {})] (by
    intro c hc
    rw [List.mem_singleton.1 hc]
    exact show 8 < 2147483648 by decide)
  have hbytes : bytes "WAVERIFF" = bytes "RIFFWAVE" :=
    (AudioFileResult.mk.inj (List.cons.inj (Option.some.inj hread)).1).2
  exact absurd hbytes (by decide)

end AudioPlayer

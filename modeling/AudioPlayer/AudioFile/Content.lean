import Mathlib
import AudioPlayer.Lib.Content
import AudioPlayer.AudioFile.TotalLength

/-!
# The three sources as one cursor (`src/audio_file.c:254-414`)

What a file is for does not depend on where its bytes are: `contentCall` is a cursor that moves over a content, and a
web file, a prompt in flash memory and a file on the card that hold this content answer as it does, as long as no call
reports a failure. The three keep the place differently: a preread shifts all of them, a web file is at `read_pos`,
with the bytes up to `pre_download_pos` buffered, and a file on the card has a file pointer besides.

| here | there |
|---|---|
| `contentCall`      | what a call is for |
| `Serves`           | what a download of the content does: it pushes what comes next, and ends at the end |
| `OpenFile.Served`  | that the download does this, and the calls below the file succeed, during a call |
| `WebDownload.At`   | a download behind a file that has read up to a position |
| `OpenFile.Shows`   | a file with the cursor at a position |
-/

namespace AudioPlayer
open Lib

/-- What a call is for, on a content with the cursor at `pos`. -/
def contentCall (R : List Byte) (pos : Nat) : AudioFileCall → AudioFileResult × Nat
  | .read n => (⟨(fetch R pos n).length, fetch R pos n⟩, pos + (fetch R pos n).length)
  | .seek position =>
    if 0 ≤ position ∧ position < R.length then ({ ret := 0 }, position.toNat) else ({ ret := -1 }, pos)
  | .size => ({ ret := R.length }, pos)
  | .tell => ({ ret := pos }, pos)
  | .preread n => (⟨(fetch R pos n).length, fetch R pos n⟩, pos)

def contentCalls (R : List Byte) : List AudioFileCall → Nat → List AudioFileResult
  | [], _ => []
  | c :: cs, pos => (contentCall R pos c).1 :: contentCalls R cs (contentCall R pos c).2

/-- A failure is a negative value, but for a seek to where nothing is; a preread returns how much there is. -/
def AudioFileCall.Succeeds (R : List Byte) (r : AudioFileResult) : AudioFileCall → Prop
  | .seek position => 0 ≤ position → position < R.length → 0 ≤ r.ret
  | .preread _ => 0 < r.ret
  | _ => 0 ≤ r.ret

/-- The calls a cursor answers; the size of a read is an `int`. -/
def AudioFileCall.OnContent : AudioFileCall → Prop
  | .read n => n < 2147483648
  | .seek _ | .size => True
  | .tell | .preread _ => False

/-- An event of a download of `R`. -/
def Serves (R : List Byte) (d : WebDownload) : WebEvent → Prop
  | .length n => n = R.length
  | .push bs => d.totalLength = R.length ∧ Window R d.preDownloadPos.toNat bs
  | .enters state ret => state = httpDownloadStaIdle → ret = .success ∨ ret = .allEnd →
      d.totalLength = R.length ∧ d.preDownloadPos = R.length

/-- The file that is opened holds `R`; there is memory for the URL of a download. -/
def AudioFileEnv.Holds (m : AudioMedia) (R : List Byte) (start : WebStart) (env : AudioFileEnv) : AudioFileType → Prop
  | .web => start ≠ .noUrl
  | .flash =>
    ∃ offset, env.promptInfo = some (offset, R.length) ∧ Window m.flash offset R ∧ m.flash.length < 4294967296
  | .sdCard => env.fOpen = some R.length ∧ m.card = R

/-! ## During a call -/

/-- Each event where it happens; in IDLE none does. -/
def WebDownload.Served (R : List Byte) : List WebEvent → WebDownload → Prop
  | [], _ => True
  | e :: es, d => (d.state ≠ httpDownloadStaIdle → Serves R d e) ∧ (d.apply e).Served R es

structure WebPoll.Served (R : List Byte) (poll : WebPoll) (d : WebDownload) : Prop where
  before  : d.Served R poll.before
  counted : (d.applies poll.before).Served R poll.counted
  paused  : ((d.applies poll.before).applies poll.counted).Served R poll.paused

def WebDownload.PollsServed (R : List Byte) (size timeout : Nat) : List WebPoll → Nat → WebDownload → Prop
  | [], _, _ => True
  | poll :: polls, elapsed, d => poll.Served R d ∧
      ∀ d', httpDownloadWaitPass size timeout (elapsed + poll.ticks) poll d = some (.goesOn d') →
        d'.PollsServed R size timeout polls (elapsed + poll.ticks)

/-- During a wait, and between it and the pop. -/
structure WebTurn.WaitServed (R : List Byte) (turn : WebTurn) (size : Nat) (f : AudioFile) (d : WebDownload) :
    Prop where
  waiting : d.Served R turn.waiting
  polls   : (audioFileWaitStart turn f d).PollsServed R size (audioFileWaitTimeout size) turn.polls 0
  after   : ∀ d', audioFileWaitBuffer turn size f d = some (true, d') → d'.Served R turn.after

structure WebTurn.ReadServed (R : List Byte) (turn : WebTurn) (readLen : Nat) (f : AudioFile) (d : WebDownload) :
    Prop where
  before  : d.Served R turn.before
  counted : (d.applies turn.before).Served R turn.counted
  enough  : httpDownloadIsFinish (d.applies turn.before) = true ∨
      readLen ≤ ((d.applies turn.before).applies turn.counted).buffer.length →
    ((d.applies turn.before).applies turn.counted).Served R turn.after
  short   : httpDownloadIsFinish (d.applies turn.before) = false →
      ((d.applies turn.before).applies turn.counted).buffer.length < readLen →
    turn.WaitServed R readLen f ((d.applies turn.before).applies turn.counted)

/-- During the loop of a read. -/
def ReadServed (R : List Byte) : List WebTurn → Nat → AudioFile → WebDownload → Prop
  | [], _, _, _ => True
  | turn :: turns, size, f, d => size = 0 ∨ turn.ReadServed R (min size audioFileHttpMaxSeek) f d ∧
      ∀ popped d', audioFileReadPass turn (min size audioFileHttpMaxSeek) f d = some (.pops popped d') →
        ReadServed R turns (size - popped.length) { f with readPos := (f.readPos + popped.length) % 4294967296 } d'

/-- During the loop of a seek. -/
def SkipServed (R : List Byte) : List WebTurn → Nat → AudioFile → WebDownload → Prop
  | [], _, _, _ => True
  | turn :: turns, diff, f, d => diff = 0 ∨ turn.WaitServed R (min diff audioFileHttpMaxSeek) f d ∧
      ∀ diff' d', audioFileSkipPass turn diff f d = some (true, diff', d') → SkipServed R turns diff' f d'

/-- The source of a read serves it. -/
def OpenFile.ReadServed (R : List Byte) (env : AudioFileAnswers) (n : Nat) (s : OpenFile) : Prop :=
  match s.file.fileType with
  | .web => s.file.preread.length < n →
      AudioPlayer.ReadServed R env.turns (n - s.file.preread.length) { s.file with preread := [] } s.download ∧
      ∀ bs f d, audioFileReadWeb env.turns (n - s.file.preread.length) s.file.preread { s.file with preread := [] }
          s.download = some (true, bs, f, d) →
        d.Served R env.length ∧ (d.applies env.length).Served R env.stored
  | .flash => env.flashRead = true
  | .sdCard => env.fRead = none

/-- And that of a seek; there is memory for the URL if the download is started again. -/
def OpenFile.SeekServed (R : List Byte) (env : AudioFileAnswers) (position : Int) (s : OpenFile) : Prop :=
  match s.file.fileType with
  | .web =>
    if toI32 (position - s.file.readPos) < 0 ∨ toI32 (position - s.file.readPos) > audioFileHttpMaxSeek then
      s.download.Served R env.stopping ∧ env.start ≠ .noUrl
    else SkipServed R env.turns (toI32 (position - s.file.readPos)).toNat { s.file with preread := [] } s.download
  | .flash => True
  | .sdCard => env.fLseek = none

def OpenFile.Served (R : List Byte) (env : AudioFileAnswers) : AudioFileCall → OpenFile → Prop
  | .read n, s => s.ReadServed R env n
  | .preread n, s => s.ReadServed R env n ∧ env.malloc = true
  | .seek position, s => s.SeekServed R env position
  | .size, _ | .tell, _ => True

/-- During all the calls. -/
def OpenFile.AllServed (m : AudioMedia) (R : List Byte) : List (AudioFileCall × AudioFileAnswers) → OpenFile → Prop
  | [], _ => True
  | (c, env) :: cs, s => s.Served R env c ∧ ∀ r t, s.call m env c = some (r, t) → t.AllServed m R cs

/-! ## The download -/

/-- A download behind a file that has read `R` up to `p`; `k` is a reason to know the length. -/
structure WebDownload.At (R : List Byte) (p : Nat) (k : Prop) (d : WebDownload) : Prop where
  pos    : d.preDownloadPos = p + d.buffer.length
  buffer : Window R p d.buffer
  finish : httpDownloadIsFinish d = true → d.preDownloadPos = R.length
  length : d.totalLength = R.length ∨ d.totalLength ≤ 0 ∧ d.buffer = [] ∧ httpDownloadIsFinish d = false
  known  : k → d.totalLength = R.length

section
variable {R : List Byte} {p size timeout elapsed : Nat} {k k' : Prop} {d d' : WebDownload} {e : WebEvent}
  {es : List WebEvent} {f : AudioFile} {turn : WebTurn} {polls : List WebPoll} {poll : WebPoll} {start : WebStart}

theorem WebDownload.At.weaken (h : d.At R p k) (hk : k' → k) : d.At R p k' := ⟨h.pos, h.buffer, h.finish, h.length,
  fun hk' => h.known (hk hk')⟩

theorem busy_not_finish (h : d.state ≠ httpDownloadStaIdle) : httpDownloadIsFinish d = false := by
  simp [httpDownloadIsFinish, h]

/-- **What a download of `R` does keeps it where the file is.** -/
theorem WebDownload.At.apply (h : d.At R p k) (he : d.state ≠ httpDownloadStaIdle → Serves R d e) :
    (d.apply e).At R p k := by
  by_cases hidle : d.state = httpDownloadStaIdle
  · rwa [apply_idle hidle]
  have hserves := he hidle
  have hbusy := busy_not_finish hidle
  unfold WebDownload.apply
  rw [if_neg hidle]
  cases e with
  | length n =>
    obtain rfl : n = R.length := hserves
    refine ⟨h.pos, h.buffer, ?_, .inl rfl, fun _ => rfl⟩
    intro hfinish
    exact absurd (finish_idle hfinish) hidle
  | push bs =>
    obtain ⟨hlength, hwindow⟩ := hserves
    have hpos := h.pos
    refine ⟨?_, ?_, ?_, .inl hlength, fun _ => hlength⟩
    · simp only [List.length_append, Nat.cast_add]
      omega
    · apply h.buffer.append
      rwa [hpos, show ((p : Int) + d.buffer.length).toNat = p + d.buffer.length by omega] at hwindow
    · intro hfinish
      exact absurd (finish_idle hfinish) hidle
  | enters state ret =>
    have hend : httpDownloadIsFinish { d with state, lastError := ret } = true →
        d.totalLength = R.length ∧ d.preDownloadPos = R.length := by
      intro hfinish
      simp only [httpDownloadIsFinish, Bool.and_eq_true, Bool.or_eq_true, decide_eq_true_eq] at hfinish
      exact hserves hfinish.1 hfinish.2
    refine ⟨h.pos, h.buffer, fun hfinish => (hend hfinish).2, ?_, h.known⟩
    rcases h.length with hlength | ⟨hunknown, hempty, -⟩
    · exact .inl hlength
    · by_cases hfinish : httpDownloadIsFinish { d with state, lastError := ret } = true
      · exact .inl (hend hfinish).1
      · exact .inr ⟨hunknown, hempty, Bool.eq_false_iff.2 hfinish⟩

theorem WebDownload.At.applies (h : d.At R p k) (hes : d.Served R es) : (d.applies es).At R p k := by
  unfold WebDownload.applies
  induction es generalizing d with
  | nil => exact h
  | cons e es ih =>
    rw [List.foldl_cons]
    exact ih (h.apply hes.1) hes.2

/-- A download that an error stopped goes on where the buffer ends. -/
theorem WebDownload.At.restart (h : d.At R p k) (hp : p ≤ R.length) (hR : R.length < 2147483648) (hk : k → 0 < p)
    (hstopped : httpDownloadIsStopped d = true) :
    (httpDownloadStartSeek start (toI32 (d.buffer.length + p)) (httpDownloadStop d)).At R p k := by
  have hidle : d.state = httpDownloadStaIdle := of_decide_eq_true hstopped
  have hlen := h.buffer.length_le
  have hpos := h.pos
  have hseek : toI32 (d.buffer.length + p) = p + d.buffer.length := by
    rw [toI32_eq (by omega) (by omega)]
    omega
  have hstop : httpDownloadStop (httpDownloadStop d) = { d with attached := false } := by
    simp [httpDownloadStop, hidle]
  have hunknown : d.totalLength = R.length ∨ d.totalLength ≤ 0 ∧ d.buffer = [] := by
    rcases h.length with hlength | ⟨hunknown, hempty, -⟩
    · exact .inl hlength
    · exact .inr ⟨hunknown, hempty⟩
  unfold httpDownloadStartSeek
  rw [hstop, hseek]
  cases start with
  | noUrl => exact ⟨h.pos, h.buffer, h.finish, h.length, h.known⟩
  | noMemory =>
    refine ⟨rfl, h.buffer, ?_, ?_, h.known⟩
    · intro hfinish
      exact absurd hfinish (by simp [httpDownloadIsFinish])
    · rcases hunknown with hlength | ⟨hunknown, hempty⟩
      · exact .inl hlength
      · exact .inr ⟨hunknown, hempty, by simp [httpDownloadIsFinish]⟩
  | runs =>
    have hbusy : (httpDownloadStaRecv : Word) ≠ httpDownloadStaIdle := by decide
    have hempty : (p : Int) + d.buffer.length ≤ 0 → d.buffer = [] ∧ p = 0 := by
      intro hzero
      exact ⟨List.length_eq_zero_iff.1 (by omega), by omega⟩
    refine ⟨rfl, h.buffer, ?_, ?_, ?_⟩
    · intro hfinish
      exact absurd (finish_idle hfinish) hbusy
    · dsimp only
      split
      · rename_i hzero
        exact .inr ⟨by decide, (hempty hzero).1, busy_not_finish hbusy⟩
      · rcases hunknown with hlength | ⟨hunknown, hnil⟩
        · exact .inl hlength
        · exact .inr ⟨hunknown, hnil, busy_not_finish hbusy⟩
    · intro hk'
      have := hk hk'
      dsimp only
      rw [if_neg (by omega)]
      exact h.known hk'

/-- And one that is started for a seek, at the position. -/
theorem at_seek (hlength : d.totalLength = R.length ∨ d.totalLength ≤ 0) (hstart : start ≠ .noUrl) :
    (httpDownloadStartSeek start p (httpDownloadStop d).clear).At R p False := by
  have hstop : ∀ d : WebDownload, (httpDownloadStop d).state = httpDownloadStaIdle := by
    intro d
    unfold httpDownloadStop
    split <;> first | assumption | rfl
  have hagain : httpDownloadStop (httpDownloadStop d).clear = { (httpDownloadStop d).clear with attached := false } :=
    if_pos (hstop d)
  unfold httpDownloadStartSeek
  rw [hagain]
  cases start with
  | noUrl => exact absurd rfl hstart
  | noMemory =>
    refine ⟨rfl, .nil R p, ?_, ?_, False.elim⟩
    · intro hfinish
      exact absurd hfinish (by simp [httpDownloadIsFinish])
    · show (httpDownloadStop d).totalLength = _ ∨ (httpDownloadStop d).totalLength ≤ _ ∧ _
      rw [stop_totalLength]
      exact hlength.imp_right fun hneg => ⟨hneg, rfl, by simp [httpDownloadIsFinish]⟩
  | runs =>
    have hbusy : (httpDownloadStaRecv : Word) ≠ httpDownloadStaIdle := by decide
    refine ⟨rfl, .nil R p, ?_, ?_, False.elim⟩
    · intro hfinish
      exact absurd (finish_idle hfinish) hbusy
    · dsimp only
      split
      · exact .inr ⟨by decide, rfl, busy_not_finish hbusy⟩
      · show (httpDownloadStop d).totalLength = _ ∨ (httpDownloadStop d).totalLength ≤ _ ∧ _
        rw [stop_totalLength]
        exact hlength.imp_right fun hneg => ⟨hneg, rfl, busy_not_finish hbusy⟩

theorem WebDownload.At.waitStart (h : d.At R f.readPos k) (hp : f.readPos ≤ R.length) (hR : R.length < 2147483648)
    (hk : k → 0 < f.readPos) (hserved : d.Served R turn.waiting) :
    (audioFileWaitStart turn f d).At R f.readPos k := by
  have hwaiting := h.applies hserved
  unfold audioFileWaitStart
  dsimp only
  split
  · rename_i hstopped
    simp only [Bool.and_eq_true] at hstopped
    exact hwaiting.restart hp hR hk hstopped.1
  · exact hwaiting

theorem WebDownload.At.waitPass {pass : WaitPass} (h : d.At R p k) (hserved : poll.Served R d)
    (hpass : httpDownloadWaitPass size timeout elapsed poll d = some pass) : pass.download.At R p k := by
  have hbefore := h.applies hserved.before
  have hcounted := hbefore.applies hserved.counted
  have hpaused := hcounted.applies hserved.paused
  unfold httpDownloadWaitPass at hpass
  dsimp only at hpass
  split at hpass
  · cases hpass
    exact hbefore
  split at hpass
  · cases hpass
    exact hcounted
  split at hpass
  · cases hpass
    exact hcounted
  split at hpass
  · split at hpass
    · cases hpass
    · cases hpass
      exact hpaused
  · cases hpass
    exact hcounted

theorem WebDownload.At.waitBuffer {ret : HttpDownloadProcReturn} (h : d.At R p k)
    (hserved : d.PollsServed R size timeout polls elapsed)
    (hwait : httpDownloadWaitBuffer size timeout polls elapsed d = some (ret, d')) : d'.At R p k := by
  induction polls generalizing d elapsed with
  | nil => cases hwait
  | cons poll polls ih =>
    unfold httpDownloadWaitBuffer at hwait
    cases hpass : httpDownloadWaitPass size timeout (elapsed + poll.ticks) poll d with
    | none =>
      rw [hpass] at hwait
      cases hwait
    | some pass =>
      have hkept := h.waitPass hserved.1 hpass
      rw [hpass] at hwait
      cases pass with
      | returns ret d1 =>
        cases hwait
        exact hkept
      | goesOn d1 => exact ih hkept (hserved.2 d1 hpass) hwait

/-- **So does a wait.** -/
theorem WebDownload.At.wait {ok : Bool} (h : d.At R f.readPos k) (hp : f.readPos ≤ R.length)
    (hR : R.length < 2147483648) (hk : k → 0 < f.readPos) (hserved : turn.WaitServed R size f d)
    (hwait : audioFileWaitBuffer turn size f d = some (ok, d')) : d'.At R f.readPos k := by
  unfold audioFileWaitBuffer at hwait
  obtain ⟨⟨ret, d2⟩, hret, hd⟩ := Option.map_eq_some_iff.1 hwait
  obtain ⟨-, rfl⟩ := Prod.mk.inj hd
  exact (h.waitStart hp hR hk hserved.waiting).waitBuffer hserved.polls hret

/-- Where there is enough, or nothing more comes, a pop takes what a read gives, and the length is known. -/
theorem WebDownload.At.pop {n : Nat} (h : d.At R p k) (hne : R ≠ []) (hn : 0 < n)
    (henough : n ≤ d.buffer.length ∨ httpDownloadIsFinish d = true) :
    (d.pop n).1 = fetch R p n ∧ (d.pop n).2.At R (p + (fetch R p n).length) True ∧ 0 < p + (fetch R p n).length := by
  have hpos := h.pos
  have hR : 0 < R.length := List.length_pos_iff.2 hne
  have hend : n ≤ d.buffer.length ∨ R.length ≤ p + d.buffer.length := by
    rcases henough with hlen | hfinish
    · exact .inl hlen
    · have := h.finish hfinish
      omega
  have htake : d.buffer.take n = fetch R p n := h.buffer.take_all hend
  have hlen : (fetch R p n).length = min n d.buffer.length := by rw [← htake, List.length_take]
  have hknown : d.totalLength = R.length := by
    rcases h.length with hlength | ⟨-, hempty, hnot⟩
    · exact hlength
    · rcases henough with henough | hfinish
      · rw [hempty] at henough
        exact absurd henough (by simp only [List.length_nil]; omega)
      · rw [hfinish] at hnot
        cases hnot
  refine ⟨htake, ?_, ?_⟩
  · have hdrop : d.buffer.drop n = d.buffer.drop (fetch R p n).length := by
      rw [hlen]
      rcases le_total n d.buffer.length with hle | hle
      · rw [min_eq_left hle]
      · rw [min_eq_right hle, List.drop_length, List.drop_eq_nil_of_le hle]
    refine ⟨?_, ?_, h.finish, .inl hknown, fun _ => hknown⟩
    · show d.preDownloadPos = (p + (fetch R p n).length : Nat) + ((d.buffer.drop n).length : Nat)
      rw [hdrop, List.length_drop]
      omega
    · show Window R _ (d.buffer.drop n)
      rw [hdrop]
      exact h.buffer.drop (by omega)
  · rcases hend with hle | hle <;> omega

end

/-! ## The loops -/

section
variable {R : List Byte} {readLen diff size : Nat} {k : Prop} {d d' : WebDownload} {f f' : AudioFile} {turn : WebTurn}
  {turns : List WebTurn} {bs bs' : List Byte} {ok : Bool}

/-- How a pass of the loop in `audio_file_read` goes. -/
def ReadPass.At (R : List Byte) (p : Nat) (k : Prop) (readLen : Nat) : ReadPass → Prop
  | .leaves d => d.At R p k ∧ httpDownloadIsFinish d = true ∧ d.buffer = []
  | .fails _ => True
  | .pops bs d => ∃ d1 : WebDownload, d1.At R p k ∧ (readLen ≤ d1.buffer.length ∨ httpDownloadIsFinish d1 = true) ∧
      bs = (d1.pop readLen).1 ∧ d = (d1.pop readLen).2

theorem served_reach {es : List WebEvent} : Untaken d (d.applies es) :=
  reach_untaken (applies_reach (C := fun _ => True) 0 (fun _ _ => trivial) d)

theorem audioFileReadPass_at {pass : ReadPass} (h : d.At R f.readPos k) (hp : f.readPos ≤ R.length)
    (hR : R.length < 2147483648) (hk : k → 0 < f.readPos) (hserved : turn.ReadServed R readLen f d)
    (hpass : audioFileReadPass turn readLen f d = some pass) : pass.At R f.readPos k readLen := by
  have hbefore := h.applies hserved.before
  have hcounted := hbefore.applies hserved.counted
  unfold audioFileReadPass at hpass
  dsimp only at hpass
  split at hpass
  · rename_i hfinish
    have hafter := hcounted.applies (hserved.enough (.inl hfinish))
    rw [applies_idle (finish_idle hfinish)] at hpass hafter
    split at hpass
    · rename_i hempty
      cases hpass
      exact ⟨hbefore, hfinish, List.length_eq_zero_iff.1 hempty⟩
    · rw [applies_idle (finish_idle hfinish)] at hpass hafter
      cases hpass
      exact ⟨_, hafter, .inr hfinish, rfl, rfl⟩
  · rename_i hfinish
    split at hpass
    · rename_i hshort
      have hturn := hserved.short (Bool.eq_false_iff.2 hfinish) hshort
      cases hwait : audioFileWaitBuffer turn readLen f ((d.applies turn.before).applies turn.counted) with
      | none =>
        rw [hwait] at hpass
        cases hpass
      | some res =>
        obtain ⟨ok, d2⟩ := res
        have hwaited := hcounted.wait hp hR hk hturn hwait
        rw [hwait] at hpass
        cases ok with
        | false =>
          cases hpass
          trivial
        | true =>
          cases hpass
          refine ⟨_, hwaited.applies (hturn.after d2 hwait), ?_, rfl, rfl⟩
          rcases audioFileWaitBuffer_true hwait with hsize | hfinish
          · exact .inl (hsize.trans served_reach.buffer.length_le)
          · rw [applies_idle (finish_idle hfinish)]
            exact .inr hfinish
    · rename_i hsize
      cases hpass
      exact ⟨_, hcounted.applies (hserved.enough (.inr (not_lt.1 hsize))),
        .inl ((not_lt.1 hsize).trans served_reach.buffer.length_le), rfl, rfl⟩

/-- **A loop that does not fail reads what stands at the position.** -/
theorem audioFileReadWeb_at (hne : R ≠ []) (hR : R.length < 2147483648) (h : d.At R f.readPos k)
    (hp : f.readPos ≤ R.length) (hk : k → 0 < f.readPos) (hserved : ReadServed R turns size f d)
    (hloop : audioFileReadWeb turns size bs f d = some (true, bs', f', d')) :
    bs' = bs ++ fetch R f.readPos size ∧ f' = { f with readPos := f.readPos + (fetch R f.readPos size).length } ∧
      d'.At R (f.readPos + (fetch R f.readPos size).length) (k ∨ 0 < size) := by
  have hdone : ∀ {f : AudioFile} {d : WebDownload} {k : Prop} {bs : List Byte}, d.At R f.readPos k →
      bs = bs ++ fetch R f.readPos 0 ∧ f = { f with readPos := f.readPos + (fetch R f.readPos 0).length } ∧
        d.At R (f.readPos + (fetch R f.readPos 0).length) (k ∨ 0 < 0) := by
    intro f d k bs h
    rw [fetch_zero, List.append_nil]
    exact ⟨rfl, rfl, h.weaken fun hk => hk.resolve_right (lt_irrefl 0)⟩
  induction turns generalizing size bs f d k with
  | nil =>
    unfold audioFileReadWeb at hloop
    split at hloop
    · rename_i hzero
      cases hloop
      rw [hzero]
      exact hdone h
    · cases hloop
  | cons turn turns ih =>
    unfold audioFileReadWeb at hloop
    split at hloop
    · rename_i hzero
      cases hloop
      rw [hzero]
      exact hdone h
    rename_i hsize
    obtain ⟨hturn, hrest⟩ := hserved.resolve_left hsize
    have hmin : 0 < min size audioFileHttpMaxSeek := by
      unfold audioFileHttpMaxSeek
      omega
    cases hpass : audioFileReadPass turn (min size audioFileHttpMaxSeek) f d with
    | none =>
      rw [hpass] at hloop
      cases hloop
    | some pass =>
      have hat := audioFileReadPass_at h hp hR hk hturn hpass
      rw [hpass] at hloop
      cases pass with
      | fails d1 => cases hloop
      | leaves d1 =>
        -- the end was reached: there is nothing to read
        obtain ⟨hd1, hfinish, hempty⟩ := hat
        have hend := hd1.finish hfinish
        have hpos := hd1.pos
        rw [hempty, List.length_nil] at hpos
        have hnone : fetch R f.readPos size = [] := by
          apply List.length_eq_zero_iff.1
          rw [fetch_length]
          omega
        have hknown : d1.totalLength = R.length := by
          rcases hd1.length with hlength | ⟨-, -, hnot⟩
          · exact hlength
          · rw [hfinish] at hnot
            cases hnot
        rw [hnone, List.append_nil]
        cases hloop
        exact ⟨rfl, rfl, hd1.pos, hd1.buffer, hd1.finish, hd1.length, fun _ => hknown⟩
      | pops popped d2 =>
        obtain ⟨d1, hd1, henough, hpopped, rfl⟩ := hat
        obtain ⟨hfetch, hd2, hmoved⟩ := hd1.pop hne hmin henough
        obtain rfl : popped = fetch R f.readPos (min size audioFileHttpMaxSeek) := hpopped.trans hfetch
        have hlen := fetch_length R f.readPos (min size audioFileHttpMaxSeek)
        have hsmall : (f.readPos + (fetch R f.readPos (min size audioFileHttpMaxSeek)).length) % 4294967296 =
            f.readPos + (fetch R f.readPos (min size audioFileHttpMaxSeek)).length := Nat.mod_eq_of_lt (by omega)
        have hserved' := hrest _ _ hpass
        dsimp only at hloop
        rw [hsmall] at hloop hserved'
        obtain ⟨hbs, hf, hd'⟩ := ih (f := { f with readPos :=
          f.readPos + (fetch R f.readPos (min size audioFileHttpMaxSeek)).length }) hd2 (by dsimp only; omega)
          (fun _ => hmoved) hserved' hloop
        have hsplit := fetch_split R f.readPos (min_le_left size audioFileHttpMaxSeek)
        refine ⟨?_, ?_, ?_⟩
        · rw [hbs, hsplit, List.append_assoc]
        · rw [hf, hsplit, List.length_append, ← Nat.add_assoc]
        · rw [hsplit, List.length_append, ← Nat.add_assoc]
          exact hd'.weaken fun _ => .inl trivial

/-- **A skip to a position before the end comes there.** -/
theorem audioFileSkip_at (hne : R ≠ []) (hR : R.length < 2147483648) (h : d.At R f.readPos k)
    (hp : f.readPos + diff ≤ R.length) (hk : k → 0 < f.readPos) (hdiff : 0 < diff)
    (hmax : diff ≤ audioFileHttpMaxSeek)
    (hserved : SkipServed R turns diff f d) (hloop : audioFileSkip turns diff f d = some (true, d')) :
    d'.At R (f.readPos + diff) True := by
  cases turns with
  | nil =>
    unfold audioFileSkip at hloop
    rw [if_neg (by omega)] at hloop
    cases hloop
  | cons turn turns =>
    obtain ⟨hturn, -⟩ := hserved.resolve_left (by omega)
    unfold audioFileSkip at hloop
    rw [if_neg (by omega)] at hloop
    have hall : min diff audioFileHttpMaxSeek = diff := min_eq_left hmax
    have hfull : (fetch R f.readPos diff).length = diff := by
      rw [fetch_length]
      omega
    unfold audioFileSkipPass at hloop
    dsimp only at hloop
    rw [hall] at hloop hturn
    cases hwait : audioFileWaitBuffer turn diff f d with
    | none =>
      rw [hwait] at hloop
      cases hloop
    | some res =>
      obtain ⟨ok, d1⟩ := res
      have hd1 := h.wait (by omega) hR hk hturn hwait
      rw [hwait] at hloop
      cases ok with
      | false => cases hloop
      | true =>
        have hafter := hd1.applies (hturn.after d1 hwait)
        have henough : diff ≤ (d1.applies turn.after).buffer.length ∨
            httpDownloadIsFinish (d1.applies turn.after) = true := by
          rcases audioFileWaitBuffer_true hwait with hsize | hfinish
          · exact .inl (hsize.trans served_reach.buffer.length_le)
          · rw [applies_idle (finish_idle hfinish)]
            exact .inr hfinish
        obtain ⟨hfetch, hd2, -⟩ := hafter.pop hne hdiff henough
        dsimp only at hloop
        rw [hfetch, hfull, Nat.sub_self] at hloop
        rw [hfull] at hd2
        unfold audioFileSkip at hloop
        cases turns with
        | nil =>
          cases hloop
          exact hd2
        | cons turn' turns' =>
          cases hloop
          exact hd2

end

/-! ## A call -/

/-- What is behind a file that has read `R` up to `read_pos`. -/
def OpenFile.SourceAt (m : AudioMedia) (R : List Byte) (s : OpenFile) : Prop :=
  match s.file.fileType with
  | .web => s.download.At R s.file.readPos False
  | .flash => Window m.flash s.file.promptOffset R ∧ m.flash.length < 4294967296
  | .sdCard => m.card = R ∧ s.fptr = s.file.readPos

/-- The file shows `R` with the cursor at `pos`. A web file may not know the length yet. -/
structure OpenFile.Shows (m : AudioMedia) (R : List Byte) (pos : Nat) (s : OpenFile) : Prop where
  preread : Window R pos s.file.preread
  readPos : s.file.readPos = pos + s.file.preread.length
  le      : s.file.readPos ≤ R.length
  total   : s.file.totalLength = R.length ∨ s.file.fileType = .web ∧ s.file.totalLength = 0
  source  : s.SourceAt m R

section
variable {m : AudioMedia} {R : List Byte} {pos n : Nat} {s t : OpenFile} {env : AudioFileAnswers} {ret : Int}
  {bs : List Byte} {f : AudioFile} {d : WebDownload} {k : Prop}

theorem OpenFile.Shows.web (h : s.Shows m R pos) (htype : s.file.fileType = .web) :
    s.download.At R s.file.readPos False := by
  have hsource := h.source
  unfold OpenFile.SourceAt at hsource
  rwa [htype] at hsource

theorem OpenFile.Shows.flash (h : s.Shows m R pos) (htype : s.file.fileType = .flash) :
    Window m.flash s.file.promptOffset R ∧ m.flash.length < 4294967296 := by
  have hsource := h.source
  unfold OpenFile.SourceAt at hsource
  rwa [htype] at hsource

theorem OpenFile.Shows.card (h : s.Shows m R pos) (htype : s.file.fileType = .sdCard) :
    m.card = R ∧ s.fptr = s.file.readPos := by
  have hsource := h.source
  unfold OpenFile.SourceAt at hsource
  rwa [htype] at hsource

theorem OpenFile.SourceAt.ofWeb (htype : s.file.fileType = .web) (h : s.download.At R s.file.readPos False) :
    s.SourceAt m R := by
  unfold OpenFile.SourceAt
  rwa [htype]

theorem OpenFile.SourceAt.ofFlash (htype : s.file.fileType = .flash)
    (h : Window m.flash s.file.promptOffset R ∧ m.flash.length < 4294967296) : s.SourceAt m R := by
  unfold OpenFile.SourceAt
  rwa [htype]

theorem OpenFile.SourceAt.ofCard (htype : s.file.fileType = .sdCard) (h : m.card = R ∧ s.fptr = s.file.readPos) :
    s.SourceAt m R := by
  unfold OpenFile.SourceAt
  rwa [htype]

/-- What was preread and what is read behind it is what is read. -/
theorem OpenFile.Shows.behind (h : s.Shows m R pos) (hn : s.file.preread.length < n) :
    s.file.preread ++ fetch R s.file.readPos (n - s.file.preread.length) = fetch R pos n := by
  have hsplit := fetch_add R pos s.file.preread.length (n - s.file.preread.length)
  rw [Nat.add_sub_cancel' hn.le, ← h.preread.eq_fetch, ← h.readPos] at hsplit
  exact hsplit.symm

/-- The length of the content is taken over. -/
theorem readLength_content (hne : R ≠ []) (hR : R.length < 2147483648) (h : d.At R n k) (hk : k)
    (hf : f.totalLength = R.length ∨ f.totalLength = 0) (hlength : d.Served R env.length)
    (hstored : (d.applies env.length).Served R env.stored) :
    (audioFileReadLength env f d).1 = { f with totalLength := R.length } ∧
      (audioFileReadLength env f d).2.At R n k := by
  have hpos : 0 < R.length := List.length_pos_iff.2 hne
  have hd1 := h.applies hlength
  have hd2 := hd1.applies hstored
  have hu32 : toU32 (R.length : Int) = R.length := toU32_eq (by omega) (by omega)
  unfold audioFileReadLength
  dsimp only
  rw [hd1.known hk, hd2.known hk, hu32]
  split
  · exact ⟨rfl, hd2⟩
  · rename_i hlt
    rcases hf with hf | hf
    · rw [← hf]
      exact ⟨rfl, hd1⟩
    · rw [hf] at hlt
      exact absurd hlt (by omega)

theorem audioFileReadFlash_content {size : Nat} (hR : R.length < 2147483648)
    (hflash : Window m.flash f.promptOffset R) (hm : m.flash.length < 4294967296) (hread : env.flashRead = true)
    (htotal : f.totalLength = R.length) (hpos : f.readPos ≤ R.length) (hsize : size < 2147483648) :
    audioFileReadFlash m env size bs f = (bs ++ fetch R f.readPos size,
      { f with readPos := f.readPos + (fetch R f.readPos size).length }) := by
  have hfit := hflash.length_le
  have hlen : audioFileFlashLen size f = (fetch R f.readPos size).length := by
    rw [fetch_length]
    unfold audioFileFlashLen
    rw [Nat.mod_eq_of_lt (by omega), htotal, toU32_eq (by omega) (by omega)]
    split <;> omega
  have hle := fetch_length R f.readPos size
  unfold audioFileReadFlash
  dsimp only
  rw [hlen]
  split
  · rename_i hnone
    have hempty : (fetch R f.readPos size).length = 0 := by
      rcases hnone with hzero | hfail | hshort
      · exact hzero
      · rw [hread] at hfail
        cases hfail
      · by_contra hne
        rw [Nat.mod_eq_of_lt (by omega)] at hshort
        omega
    rw [List.length_eq_zero_iff.1 hempty, List.append_nil]
    rfl
  · rename_i hsome
    obtain ⟨hsome, -⟩ := not_or.1 hsome
    have hoff : (f.promptOffset + f.readPos) % 4294967296 = f.promptOffset + f.readPos := Nat.mod_eq_of_lt (by omega)
    have hbytes : (m.flash.drop (f.promptOffset + f.readPos)).take (fetch R f.readPos size).length =
        fetch R f.readPos size := by
      have hthrough := hflash.fetch (k := f.readPos) (n := (fetch R f.readPos size).length) (by omega)
      rw [fetch] at hthrough
      rw [hthrough, ← (fetch_window R f.readPos size).eq_fetch]
    rw [hoff, hbytes, Nat.mod_eq_of_lt (by omega)]

theorem audioFileReadCard_content {size : Nat} (hR : R.length < 2147483648) (hread : env.fRead = none)
    (hm : m.card = R) (hpos : f.readPos ≤ R.length) :
    audioFileReadCard m env size bs f f.readPos = (bs ++ fetch R f.readPos size,
      { f with readPos := f.readPos + (fetch R f.readPos size).length },
      f.readPos + (fetch R f.readPos size).length) := by
  have hlen := fetch_length R f.readPos size
  have hmod : (f.readPos + (fetch R f.readPos size).length) % 4294967296 =
      f.readPos + (fetch R f.readPos size).length := Nat.mod_eq_of_lt (by omega)
  unfold audioFileReadCard
  rw [hread, hm]
  dsimp only
  rw [← fetch, hmod]

theorem OpenFile.Shows.total_eq (h : s.Shows m R pos) (htype : s.file.fileType ≠ .web) :
    s.file.totalLength = R.length :=
  h.total.resolve_right fun hweb => htype hweb.1

/-- Where the file is behind a read that went past the preread bytes. -/
theorem OpenFile.Shows.moved (h : s.Shows m R pos) (hlt : s.file.preread.length < n)
    (hfile : t.file = { s.file with
      preread := [], totalLength := R.length
      readPos := s.file.readPos + (fetch R s.file.readPos (n - s.file.preread.length)).length })
    (hsource : t.SourceAt m R) :
    t.Shows m R (pos + (fetch R pos n).length) ∧ t.file.preread = s.file.preread.drop n ∧
      (s.file.preread.length < n ∨ s.file.totalLength = R.length → t.file.totalLength = R.length) := by
  have hreadPos := h.readPos
  have hle := h.le
  have hfetch := fetch_length R s.file.readPos (n - s.file.preread.length)
  have hlen : (fetch R pos n).length = s.file.preread.length +
      (fetch R s.file.readPos (n - s.file.preread.length)).length := by rw [← h.behind hlt, List.length_append]
  refine ⟨⟨?_, ?_, ?_, .inl ?_, hsource⟩, ?_, fun _ => ?_⟩
  · rw [hfile]
    exact .nil R _
  · rw [hfile]
    simp only [List.length_nil]
    omega
  · rw [hfile]
    dsimp only
    omega
  · rw [hfile]
  · rw [hfile]
    exact (List.drop_eq_nil_of_le hlt.le).symm
  · rw [hfile]

/-- **A read that does not fail reads what stands at the cursor, and moves it.** -/
theorem OpenFile.Shows.read (hne : R ≠ []) (hR : R.length < 2147483648) (h : s.Shows m R pos) (hn : n < 2147483648)
    (hserved : s.ReadServed R env n) (hcall : audioFileRead m env n s = some (ret, bs, t)) (hok : 0 ≤ ret) :
    bs = fetch R pos n ∧ ret = bs.length ∧ t.Shows m R (pos + (fetch R pos n).length) ∧
      t.file.preread = s.file.preread.drop n ∧
      (s.file.preread.length < n ∨ s.file.totalLength = R.length → t.file.totalLength = R.length) := by
  unfold OpenFile.ReadServed at hserved
  cases audioFileRead_cases hcall with
  | preread hshort =>
    have hreadPos := h.readPos
    have hbs : s.file.preread.take n = fetch R pos n := h.preread.take hshort
    have hlen : (fetch R pos n).length = n := by rw [← hbs, List.length_take, min_eq_left hshort]
    refine ⟨hbs, by rw [hbs, hlen], ⟨?_, ?_, h.le, h.total, h.source⟩, rfl, ?_⟩
    · rw [hlen]
      exact h.preread.drop hshort
    · simp only [List.length_drop]
      omega
    · rintro (hlt | htotal)
      · omega
      · exact htotal
  | failed hlt htype hweb => exact absurd hok (by decide)
  | @web bs' f d hlt htype hweb =>
    rw [htype] at hserved
    obtain ⟨hloop, hlength⟩ := hserved hlt
    obtain ⟨hbs, hf, hd⟩ := audioFileReadWeb_at (k := False) (f := { s.file with preread := [] }) hne hR
      (h.web htype) h.le False.elim hloop hweb
    obtain ⟨hserved1, hserved2⟩ := hlength _ _ _ hweb
    have htotal : f.totalLength = R.length ∨ f.totalLength = 0 := by
      rw [hf]
      exact h.total.imp_right And.right
    obtain ⟨hfile, hdown⟩ := readLength_content hne hR hd (.inr (by omega)) htotal hserved1 hserved2
    dsimp only at hbs hf
    subst hf
    rw [hfile, hbs, h.behind hlt]
    exact ⟨rfl, rfl, h.moved hlt rfl (.ofWeb htype (hdown.weaken False.elim))⟩
  | @flash bs' f hlt htype hflash =>
    have htotal := h.total_eq (by rw [htype]; decide)
    obtain ⟨hwindow, hm⟩ := h.flash htype
    rw [htype] at hserved
    rw [audioFileReadFlash_content (f := { s.file with preread := [] }) hR hwindow hm hserved htotal h.le
      (by omega)] at hflash
    obtain ⟨rfl, rfl⟩ := Prod.mk.inj hflash
    rw [h.behind hlt]
    exact ⟨rfl, rfl, h.moved hlt (by rw [← htotal]) (.ofFlash htype ⟨hwindow, hm⟩)⟩
  | @card bs' f fptr hlt htype hcard =>
    have htotal := h.total_eq (by rw [htype]; decide)
    obtain ⟨hm, hfptr⟩ := h.card htype
    rw [htype] at hserved
    rw [hfptr, audioFileReadCard_content (f := { s.file with preread := [] }) hR hserved hm h.le] at hcard
    obtain ⟨rfl, hrest⟩ := Prod.mk.inj hcard
    obtain ⟨rfl, rfl⟩ := Prod.mk.inj hrest
    rw [h.behind hlt]
    exact ⟨rfl, rfl, h.moved hlt (by rw [← htotal]) (.ofCard htype ⟨hm, rfl⟩)⟩

theorem contentCall_seek_in {position : Int} (h : 0 ≤ position ∧ position < R.length) :
    contentCall R pos (.seek position) = ({ ret := 0 }, position.toNat) := if_pos h

theorem contentCall_seek_out {position : Int} (h : ¬(0 ≤ position ∧ position < R.length)) :
    contentCall R pos (.seek position) = ({ ret := -1 }, pos) := if_neg h

/-- **A seek that does not fail moves the cursor to where it is asked to, and refuses what is not in the content.** -/
theorem OpenFile.Shows.seek {position : Int} (hne : R ≠ []) (hR : R.length < 2147483648) (h : s.Shows m R pos)
    (htotal : s.file.totalLength = R.length) (hserved : s.SeekServed R env position)
    (hcall : audioFileSeek m env position s = some (ret, t)) (hok : 0 ≤ position → position < R.length → 0 ≤ ret) :
    (contentCall R pos (.seek position)).1 = { ret } ∧ t.Shows m R (contentCall R pos (.seek position)).2 ∧
      t.file.totalLength = R.length := by
  have hpos : 0 < R.length := List.length_pos_iff.2 hne
  have hreadPos := h.readPos
  have hle := h.le
  rcases audioFileSeek_cases hcall with ⟨hrefuses, rfl, rfl⟩ | ⟨hallowed, hseek⟩
  · have hout : ¬(0 ≤ position ∧ position < R.length) := by
      rcases hrefuses with hlow | ⟨-, hhigh⟩ <;> omega
    rw [contentCall_seek_out hout]
    exact ⟨rfl, h, htotal⟩
  have hin : 0 ≤ position ∧ position < R.length := by
    obtain ⟨hlow, hhigh⟩ := not_or.1 hallowed
    rw [htotal] at hhigh
    omega
  have hret := hok hin.1 hin.2
  have hdiff : toI32 (position - s.file.readPos) = position - s.file.readPos := toI32_eq (by omega) (by omega)
  rw [contentCall_seek_in hin]
  unfold OpenFile.SeekServed at hserved
  rw [hdiff] at hserved
  have hmoved : ∀ {t : OpenFile}, t.file.preread = [] → t.file.readPos = position.toNat →
      t.file.totalLength = R.length → t.SourceAt m R → t.Shows m R position.toNat := by
    intro t hnil hto htotal hsource
    refine ⟨?_, ?_, by omega, .inl htotal, hsource⟩
    · rw [hnil]
      exact .nil R _
    · rw [hnil, hto]
      rfl
  cases hseek with
  | preread hback hnear =>
    rw [hdiff] at hback hnear ⊢
    have hdrop : (s.file.preread.length + (position - s.file.readPos)).toNat ≤ s.file.preread.length := by omega
    have hto : pos + (s.file.preread.length + (position - s.file.readPos)).toNat = position.toNat := by omega
    refine ⟨rfl, ⟨?_, ?_, h.le, h.total, h.source⟩, htotal⟩
    · dsimp only
      rw [← hto]
      exact h.preread.drop hdrop
    · simp only [List.length_drop]
      omega
  | here hsame =>
    rw [hdiff] at hsame
    exact ⟨rfl, hmoved rfl (by dsimp only; omega) htotal h.source, htotal⟩
  | restart htype hfar =>
    rw [htype] at hserved
    rw [hdiff] at hfar
    dsimp only at hserved
    rw [if_pos (hfar.imp_left And.left)] at hserved
    have hat := at_seek (R := R) (p := position.toNat) (((h.web htype).applies hserved.1).length.imp_right And.left)
      hserved.2
    rw [Int.toNat_of_nonneg hin.1] at hat
    exact ⟨rfl, hmoved rfl rfl htotal (.ofWeb htype hat), htotal⟩
  | skipFailed => exact absurd hret (by decide)
  | skipped htype hlow hhigh hskip =>
    rw [htype] at hserved
    rw [hdiff] at hlow hhigh hskip
    dsimp only at hserved
    rw [if_neg (by omega)] at hserved
    have hat := audioFileSkip_at (k := False) (f := { s.file with preread := [] }) hne hR (h.web htype)
      (by dsimp only; omega) False.elim (by omega) (by omega) hserved hskip
    have hto : s.file.readPos + (position - s.file.readPos).toNat = position.toNat := by omega
    dsimp only at hat
    rw [hto] at hat
    exact ⟨rfl, hmoved rfl rfl htotal (.ofWeb htype (hat.weaken False.elim)), htotal⟩
  | flash htype => exact ⟨rfl, hmoved rfl rfl htotal (.ofFlash htype (h.flash htype)), htotal⟩
  | lseekFailed htype _ hfail =>
    rw [htype] at hserved
    rw [hserved] at hfail
    cases hfail
  | lseek htype =>
    obtain ⟨hm, -⟩ := h.card htype
    refine ⟨rfl, hmoved rfl rfl htotal (.ofCard htype ⟨hm, ?_⟩), htotal⟩
    rw [hm]
    exact min_eq_left (by omega)

/-- **A call that does not fail is what the cursor does.** -/
theorem OpenFile.Shows.call {c : AudioFileCall} {r : AudioFileResult} (hne : R ≠ []) (hR : R.length < 2147483648)
    (h : s.Shows m R pos) (htotal : s.file.totalLength = R.length) (hc : c.OnContent) (hserved : s.Served R env c)
    (hcall : s.call m env c = some (r, t)) (hok : c.Succeeds R r) :
    r = (contentCall R pos c).1 ∧ t.Shows m R (contentCall R pos c).2 ∧ t.file.totalLength = R.length := by
  cases c with
  | read n =>
    obtain ⟨⟨ret, bs, t'⟩, hread, heq⟩ := Option.map_eq_some_iff.1 hcall
    obtain ⟨rfl, rfl⟩ := Prod.mk.inj heq
    obtain ⟨hbs, hret, hshows, -, hknown⟩ := h.read hne hR hc hserved hread hok
    exact ⟨by rw [hret, hbs]; rfl, hshows, hknown (.inr htotal)⟩
  | seek position =>
    obtain ⟨⟨ret, t'⟩, hseek, heq⟩ := Option.map_eq_some_iff.1 hcall
    obtain ⟨rfl, rfl⟩ := Prod.mk.inj heq
    obtain ⟨hret, hshows, hknown⟩ := h.seek hne hR htotal hserved hseek hok
    exact ⟨hret.symm, hshows, hknown⟩
  | size =>
    have hpos : 0 < R.length := List.length_pos_iff.2 hne
    obtain ⟨⟨ret, t'⟩, hsize, heq⟩ := Option.map_eq_some_iff.1 hcall
    obtain ⟨rfl, rfl⟩ := Prod.mk.inj heq
    unfold audioFileSize at hsize
    rw [if_neg (by omega), htotal, toI32_eq (by omega) (by omega)] at hsize
    cases hsize
    exact ⟨rfl, h, htotal⟩
  | tell => exact hc.elim
  | preread n => exact hc.elim

theorem OpenFile.Shows.calls {cs : List (AudioFileCall × AudioFileAnswers)} {rs : List AudioFileResult} (hne : R ≠ [])
    (hR : R.length < 2147483648) (h : s.Shows m R pos) (htotal : s.file.totalLength = R.length)
    (hcs : ∀ c ∈ cs, c.1.OnContent) (hserved : s.AllServed m R cs) (hrun : s.calls m cs = some (rs, t))
    (hok : List.Forall₂ (fun c r => c.1.Succeeds R r) cs rs) : rs = contentCalls R (cs.map Prod.fst) pos := by
  induction cs generalizing s pos rs with
  | nil =>
    cases hok
    rfl
  | cons call cs ih =>
    obtain ⟨c, env⟩ := call
    unfold OpenFile.calls at hrun
    cases hcall : s.call m env c with
    | none =>
      rw [hcall] at hrun
      cases hrun
    | some res =>
      obtain ⟨r, s1⟩ := res
      rw [hcall] at hrun
      obtain ⟨⟨rs1, t1⟩, hrest, heq⟩ := Option.map_eq_some_iff.1 hrun
      obtain ⟨rfl, rfl⟩ := Prod.mk.inj heq
      obtain ⟨hone, hmore⟩ := List.forall₂_cons.1 hok
      obtain ⟨rfl, hshows, htotal'⟩ := h.call hne hR htotal (hcs _ (.head _)) hserved.1 hcall hone
      have htail := ih hshows htotal' (fun c' hc' => hcs c' (.tail _ hc')) (hserved.2 _ _ hcall) hrest hmore
      rw [htail]
      rfl

/-- An opened file shows its content from the start on. -/
theorem opened_shows {aenv : AudioFileEnv} {type : AudioFileType} {rangeEnable : Bool} {start : WebStart}
    (hR : R.length < 2147483648) (hopen : audioFileOpen aenv type rangeEnable = some f)
    (hholds : aenv.Holds m R start type) :
    (OpenFile.opened f start).Shows m R 0 ∧ f.preread = [] := by
  unfold audioFileOpen at hopen
  split at hopen
  · cases hopen
  cases type with
  | web =>
    obtain ⟨-, hf⟩ := Option.ite_none_right_eq_some.1 hopen
    cases hf
    have hat := at_seek (R := R) (p := 0) (d := .init) (.inr le_rfl) hholds
    exact ⟨⟨.nil R 0, rfl, Nat.zero_le _, .inr ⟨rfl, rfl⟩, .ofWeb rfl hat⟩, rfl⟩
  | flash =>
    obtain ⟨offset, hinfo, hwindow, hm⟩ := hholds
    dsimp only at hopen
    rw [hinfo] at hopen
    dsimp only at hopen
    split at hopen
    · cases hopen
    · cases hopen
      exact ⟨⟨.nil R 0, rfl, Nat.zero_le _, .inl rfl, .ofFlash rfl ⟨hwindow, hm⟩⟩, rfl⟩
  | sdCard =>
    obtain ⟨hsize, hm⟩ := hholds
    dsimp only at hopen
    rw [hsize] at hopen
    dsimp only at hopen
    rw [Nat.mod_eq_of_lt (by omega)] at hopen
    split at hopen
    · cases hopen
    · cases hopen
      exact ⟨⟨.nil R 0, rfl, Nat.zero_le _, .inl rfl, .ofCard rfl ⟨hm, rfl⟩⟩, rfl⟩

/-- The preread at the beginning does not move the cursor. -/
theorem OpenFile.Shows.first {r : AudioFileResult} (hne : R ≠ []) (hR : R.length < 2147483648) (h : s.Shows m R 0)
    (hnil : s.file.preread = []) (hn : 0 < n) (hn' : n < 2147483648) (hserved : s.Served R env (.preread n))
    (hcall : s.call m env (.preread n) = some (r, t)) (hok : 0 < r.ret) :
    r = (contentCall R 0 (.preread n)).1 ∧ t.Shows m R 0 ∧ t.file.totalLength = R.length := by
  obtain ⟨hread', hmalloc⟩ := hserved
  obtain ⟨⟨plen, bs', t'⟩, hpreread, heq⟩ := Option.map_eq_some_iff.1 hcall
  obtain ⟨rfl, rfl⟩ := Prod.mk.inj heq
  unfold audioFilePreread at hpreread
  cases hread : audioFileRead m env n s with
  | none =>
    rw [hread] at hpreread
    cases hpreread
  | some res =>
    obtain ⟨ret, bs, s1⟩ := res
    rw [hread] at hpreread
    cases hpreread
    by_cases hret : 0 ≤ ret
    · obtain ⟨hbs, hlen, hshows, hdrop, hknown⟩ := h.read hne hR hn' hread' hread hret
      have hempty : s1.file.preread = [] := by rw [hdrop, hnil, List.drop_nil]
      have hreadPos := hshows.readPos
      rw [hempty, List.length_nil, Nat.zero_add, Nat.add_zero] at hreadPos
      have hpush : audioFilePushPreread env.malloc ret bs' s1.file = { s1.file with preread := bs' } := by
        unfold audioFilePushPreread
        rw [if_pos ⟨hmalloc, hret⟩, hempty, List.nil_append]
      rw [hpush, hbs]
      refine ⟨rfl, ⟨fetch_window R 0 n, ?_, hshows.le, hshows.total, hshows.source⟩, ?_⟩
      · rw [hreadPos, Nat.zero_add]
      · exact hknown (.inl (by rw [hnil]; exact hn))
    · -- a read that failed took nothing from the preread buffer, and puts nothing back
      exfalso
      cases audioFileRead_cases hread with
      | failed hlt _ hweb =>
        obtain ⟨popped, hrun⟩ := audioFileReadWeb_run (fun turn _ => turn.all_true) hweb
        dsimp only at hok
        rw [push_neg, hrun.file] at hok
        exact lt_irrefl 0 hok
      | preread => exact hret (Int.natCast_nonneg _)
      | web => exact hret (Int.natCast_nonneg _)
      | flash => exact hret (Int.natCast_nonneg _)
      | card => exact hret (Int.natCast_nonneg _)

end

/-- **Whatever its source, a file that is opened and preread as the player does answers like a cursor over its
content, as long as no call fails.** -/
theorem audioFile_content (m : AudioMedia) {R : List Byte} (hne : R ≠ []) (hR : R.length < 2147483648)
    {aenv : AudioFileEnv} {type : AudioFileType} {rangeEnable : Bool} {f : AudioFile} {start : WebStart}
    (hopen : audioFileOpen aenv type rangeEnable = some f) (hholds : aenv.Holds m R start type)
    {env : AudioFileAnswers} {cs : List (AudioFileCall × AudioFileAnswers)} {rs : List AudioFileResult} {t : OpenFile}
    (hcs : ∀ c ∈ cs, c.1.OnContent) (hserved : (OpenFile.opened f start).AllServed m R ((.preread 8, env) :: cs))
    (hrun : (OpenFile.opened f start).calls m ((.preread 8, env) :: cs) = some (rs, t))
    (hok : List.Forall₂ (fun c r => c.1.Succeeds R r) ((.preread 8, env) :: cs) rs) :
    rs = contentCalls R (.preread 8 :: cs.map Prod.fst) 0 := by
  obtain ⟨hshows, hnil⟩ := opened_shows hR hopen hholds
  unfold OpenFile.calls at hrun
  cases hcall : (OpenFile.opened f start).call m env (.preread 8) with
  | none =>
    rw [hcall] at hrun
    cases hrun
  | some res =>
    obtain ⟨r, s1⟩ := res
    rw [hcall] at hrun
    obtain ⟨⟨rs1, t1⟩, hrest, heq⟩ := Option.map_eq_some_iff.1 hrun
    obtain ⟨rfl, rfl⟩ := Prod.mk.inj heq
    obtain ⟨hone, hmore⟩ := List.forall₂_cons.1 hok
    obtain ⟨rfl, hshows', htotal⟩ := hshows.first hne hR hnil (by decide) (by decide) hserved.1 hcall hone
    rw [hshows'.calls hne hR htotal hcs (hserved.2 _ _ hcall) hrest hmore]
    rfl

theorem OpenFile.SeekServed.far {R : List Byte} {env : AudioFileAnswers} {position : Int} {s : OpenFile}
    (htype : s.file.fileType = .web)
    (hfar : toI32 (position - s.file.readPos) < 0 ∨ toI32 (position - s.file.readPos) > audioFileHttpMaxSeek)
    (hstopping : s.download.Served R env.stopping) (hstart : env.start ≠ .noUrl) : s.SeekServed R env position := by
  unfold OpenFile.SeekServed
  rw [htype]
  dsimp only
  rw [if_pos hfar]
  exact ⟨hstopping, hstart⟩

/-- A web file of twelve bytes; the first eight are preread, the last four come when they are read. -/
def twelveFile : AudioFile := { fileState := .open, fileType := .web, rangeEnable := true }

def twelveAnswers : AudioFileAnswers :=
  { turns := [{ polls := [{ before := [.length 12, .push (bytes "RIFFWAVE")] }] }] }

/-- Within the preread bytes, and on into what the download brings. -/
def twelveCalls : List (AudioFileCall × AudioFileAnswers) :=
  [(.read 4, {}), (.seek 6, {}), (.read 6, { turns := [{ counted := [.push (bytes "data")] }] })]

/-- What is left of the preread bytes; the download has brought no more. -/
def twelveLeft (preread : List Byte) : OpenFile where
  file := { twelveFile with totalLength := 12, readPos := 8, preread }
  download := { state := httpDownloadStaRecv, lastError := .success, totalLength := 12, preDownloadPos := 8,
                attached := true, buffer := [], readCount := 8 }
  fptr := 0

theorem twelve_served :
    (OpenFile.opened twelveFile .runs).AllServed ⟨[], []⟩ (bytes "RIFFWAVEdata")
      ((.preread 8, twelveAnswers) :: twelveCalls) := by
  have hnext : ∀ {s : OpenFile} (t' : OpenFile) {c : AudioFileCall} {env : AudioFileAnswers} {P : OpenFile → Prop},
      (s.call ⟨[], []⟩ env c).map Prod.snd = some t' → P t' → ∀ r t, s.call ⟨[], []⟩ env c = some (r, t) → P t := by
    intro s t' c env P h hP r t hcall
    rw [hcall] at h
    obtain rfl : t = t' := Option.some.inj h
    exact hP
  refine ⟨⟨fun _ => ⟨.inr ⟨⟨trivial, trivial, fun _ => trivial, fun _ _ => ⟨trivial, ?_, fun _ _ => trivial⟩⟩,
    fun _ _ _ => trivial⟩, fun _ _ _ _ => ⟨trivial, trivial⟩⟩, rfl⟩,
    hnext (twelveLeft (bytes "RIFFWAVE")) (by decide) ?_⟩
  · exact ⟨⟨⟨fun _ => rfl, fun _ => ⟨rfl, bytes "data", by decide⟩, trivial⟩, trivial, trivial⟩, fun _ _ => trivial⟩
  refine ⟨fun hlt => absurd hlt (by decide), hnext (twelveLeft (bytes "WAVE")) (by decide) ?_⟩
  have hseek : (twelveLeft (bytes "WAVE")).SeekServed (bytes "RIFFWAVEdata") {} 6 :=
    .far rfl (by decide) trivial (by decide)
  refine ⟨hseek, hnext (twelveLeft (bytes "VE")) (by decide) ?_⟩
  refine ⟨fun _ => ⟨.inr ⟨⟨trivial, ⟨fun _ => ⟨rfl, [], by decide⟩, trivial⟩, fun _ => trivial, ?_⟩,
    fun _ _ _ => trivial⟩, fun _ _ _ _ => ⟨trivial, trivial⟩⟩, fun _ _ _ => trivial⟩
  exact fun _ hlt => absurd hlt (by decide)

theorem audioFile_content_twelve :
    [⟨8, bytes "RIFFWAVE"⟩, ⟨4, bytes "RIFF"⟩, ⟨0, []⟩, ⟨6, bytes "VEdata"⟩] =
      contentCalls (bytes "RIFFWAVEdata") [.preread 8, .read 4, .seek 6, .read 6] 0 := by
  have hresults : (OpenFile.opened twelveFile .runs).results ⟨[], []⟩ ((.preread 8, twelveAnswers) :: twelveCalls) =
      some [⟨8, bytes "RIFFWAVE"⟩, ⟨4, bytes "RIFF"⟩, ⟨0, []⟩, ⟨6, bytes "VEdata"⟩] := by decide
  obtain ⟨⟨rs, t⟩, hrun, rfl⟩ := Option.map_eq_some_iff.1 hresults
  have hopen : audioFileOpen ⟨true, true, none, none, true, true⟩ .web true = some twelveFile := rfl
  refine audioFile_content ⟨[], []⟩ (by decide) (by decide) hopen (show WebStart.runs ≠ WebStart.noUrl by decide) ?_
    twelve_served hrun ?_
  · intro c hc
    simp only [twelveCalls, List.mem_cons, List.not_mem_nil, or_false] at hc
    rcases hc with rfl | rfl | rfl
    · exact show 4 < 2147483648 by decide
    · trivial
    · exact show 6 < 2147483648 by decide
  · refine .cons ?_ (.cons ?_ (.cons ?_ (.cons ?_ .nil)))
    · exact show (0 : Int) < 8 by decide
    · exact show (0 : Int) ≤ 4 by decide
    · exact fun _ _ => le_rfl
    · exact show (0 : Int) ≤ 6 by decide

end AudioPlayer

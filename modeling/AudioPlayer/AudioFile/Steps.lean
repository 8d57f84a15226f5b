import Mathlib
import AudioPlayer.Lib.Steps
import AudioPlayer.AudioFile.Calls

/-!
# What the calls do to a download

Between two pops a download changes by events and, where `audio_file_wait_buffer` finds it stopped by an error, by a
restart at the end of what is buffered: a run of `WebStep`. Every wait is such a run (`audioFileWaitBuffer_reach`), and
every pass of the two loops is one and then a pop (`audioFileReadPass_cases`, `audioFileSkipPass_cases`). What the steps
keep, the calls keep.
-/

namespace AudioPlayer
open Lib

inductive WebAct
  | event (e : WebEvent)
  | restart (start : WebStart)

/-- A step of a download behind a file at `readPos`, with events of `C`. -/
inductive WebStep (C : WebEvent → Prop) (readPos : Nat) : WebDownload → WebAct → WebDownload → Prop
  | event {d e} : C e → WebStep C readPos d (.event e) (d.apply e)
  | restart {d start} : httpDownloadIsStopped d = true → httpDownloadIsFinish d = false →
      WebStep C readPos d (.restart start)
        (httpDownloadStartSeek start (toI32 (d.buffer.length + readPos)) (httpDownloadStop d))

/-- All that happens in a pass is in `C`. -/
structure WebTurn.All (C : WebEvent → Prop) (turn : WebTurn) : Prop where
  before  : ∀ e ∈ turn.before, C e
  counted : ∀ e ∈ turn.counted, C e
  waiting : ∀ e ∈ turn.waiting, C e
  polls   : ∀ poll ∈ turn.polls, poll.All C
  after   : ∀ e ∈ turn.after, C e

/-- Nothing has left `http_buffer`. -/
structure Untaken (d d' : WebDownload) : Prop where
  readCount : d'.readCount = d.readCount
  buffer    : d.buffer <+: d'.buffer

section
variable {C : WebEvent → Prop} {d d' d'' : WebDownload} {es : List WebEvent} {start : WebStart} {seekPos : Int}
  {readPos : Nat} {a : WebAct}

@[simp] theorem stop_buffer (d : WebDownload) : (httpDownloadStop d).buffer = d.buffer := by
  unfold httpDownloadStop
  split <;> rfl

@[simp] theorem stop_readCount (d : WebDownload) : (httpDownloadStop d).readCount = d.readCount := by
  unfold httpDownloadStop
  split <;> rfl

@[simp] theorem stop_totalLength (d : WebDownload) : (httpDownloadStop d).totalLength = d.totalLength := by
  unfold httpDownloadStop
  split <;> rfl

@[simp] theorem startSeek_buffer : (httpDownloadStartSeek start seekPos d).buffer = d.buffer := by
  cases start <;> simp [httpDownloadStartSeek]

@[simp] theorem startSeek_readCount : (httpDownloadStartSeek start seekPos d).readCount = d.readCount := by
  cases start <;> simp [httpDownloadStartSeek]

theorem finish_idle (h : httpDownloadIsFinish d = true) : d.state = httpDownloadStaIdle := by
  simp only [httpDownloadIsFinish, Bool.and_eq_true, decide_eq_true_eq] at h
  exact h.1

theorem Untaken.refl (d : WebDownload) : Untaken d d := ⟨rfl, List.prefix_refl _⟩

theorem Untaken.trans (h1 : Untaken d d') (h2 : Untaken d' d'') : Untaken d d'' :=
  ⟨h2.readCount.trans h1.readCount, h1.buffer.trans h2.buffer⟩

theorem apply_untaken (d : WebDownload) (e : WebEvent) : Untaken d (d.apply e) := by
  unfold WebDownload.apply
  split
  · exact .refl d
  · cases e with
    | length n => exact ⟨rfl, List.prefix_refl _⟩
    | push bs => exact ⟨rfl, List.prefix_append _ _⟩
    | enters state ret => exact ⟨rfl, List.prefix_refl _⟩

theorem WebStep.untaken (h : WebStep C readPos d a d') : Untaken d d' := by
  cases h with
  | event _ => exact apply_untaken _ _
  | restart _ _ => exact ⟨by simp, by simp⟩

theorem reach_untaken (h : Reach (WebStep C readPos) d d') : Untaken d d' :=
  h.invariant (I := Untaken d) (fun _ _ _ hd hstep => hd.trans hstep.untaken) (.refl d)

/-- A finished download stays as it is. -/
theorem reach_finish (h : Reach (WebStep C readPos) d d') (hfinish : httpDownloadIsFinish d = true) : d' = d := by
  refine h.invariant (I := fun d' => d' = d) ?_ rfl
  rintro d' a d'' rfl hstep
  cases hstep with
  | event _ => exact apply_idle (finish_idle hfinish) _
  | restart _ hnot =>
    rw [hfinish] at hnot
    cases hnot

theorem applies_reach (readPos : Nat) (hes : ∀ e ∈ es, C e) (d : WebDownload) : Reach (WebStep C readPos) d (d.applies es) :=
  applies_keeps (I := Reach (WebStep C readPos) d) (fun _ _ he hd => hd.tail (.event he)) hes (Reach.refl d)

theorem after_reach (readPos : Nat) (turn : WebTurn) (d : WebDownload) :
    Reach (WebStep (fun _ => True) readPos) d (d.applies turn.after) :=
  applies_reach readPos (fun _ _ => trivial) d

end

section
variable {C : WebEvent → Prop} {d d' : WebDownload} {f : AudioFile} {turn : WebTurn} {size readLen diff diff' : Nat}
  {ok : Bool} {pass : ReadPass}

theorem audioFileWaitStart_reach (hturn : turn.All C) : Reach (WebStep C f.readPos) d (audioFileWaitStart turn f d) := by
  have hwaiting : Reach (WebStep C f.readPos) d (d.applies turn.waiting) := applies_reach f.readPos hturn.waiting d
  unfold audioFileWaitStart
  dsimp only
  split
  · rename_i hstopped
    simp only [Bool.and_eq_true, Bool.not_eq_true'] at hstopped
    exact hwaiting.tail (.restart hstopped.1 hstopped.2)
  · exact hwaiting

/-- **A wait is a run.** -/
theorem audioFileWaitBuffer_reach (hturn : turn.All C) (h : audioFileWaitBuffer turn size f d = some (ok, d')) :
    Reach (WebStep C f.readPos) d d' := by
  unfold audioFileWaitBuffer at h
  obtain ⟨⟨ret, d2⟩, hwait, hd⟩ := Option.map_eq_some_iff.1 h
  obtain ⟨-, rfl⟩ := Prod.mk.inj hd
  exact httpDownloadWaitBuffer_keeps (I := Reach (WebStep C f.readPos) d)
    (fun _ _ he hd => hd.tail (.event he)) hturn.polls hwait (audioFileWaitStart_reach hturn)

/-- It succeeds where there is enough or the download has finished. -/
theorem audioFileWaitBuffer_true (h : audioFileWaitBuffer turn size f d = some (true, d')) :
    size ≤ d'.buffer.length ∨ httpDownloadIsFinish d' = true := by
  unfold audioFileWaitBuffer at h
  obtain ⟨⟨ret, d2⟩, hwait, hd⟩ := Option.map_eq_some_iff.1 h
  obtain ⟨hret, rfl⟩ := Prod.mk.inj hd
  have hret := of_decide_eq_true hret
  rcases httpDownloadWaitBuffer_ret hwait with ⟨-, -, hsize⟩ | ⟨-, hfinish⟩ | htime | ⟨hfailed, -⟩
  · exact .inl hsize
  · exact .inr hfinish
  · rw [htime] at hret
    cases hret
  · rw [hfailed] at hret
    cases hret

/-- How a pass of the loop in `audio_file_read` goes. -/
inductive ReadPassOutcome (C : WebEvent → Prop) (readLen readPos : Nat) (d : WebDownload) : ReadPass → Prop
  | leaves {d1 : WebDownload} : Reach (WebStep C readPos) d d1 → httpDownloadIsFinish d1 = true → d1.buffer = [] →
      ReadPassOutcome C readLen readPos d (.leaves d1)
  | fails {d1 : WebDownload} : Reach (WebStep C readPos) d d1 → httpDownloadIsFinish d = false →
      ReadPassOutcome C readLen readPos d (.fails d1)
  | pops {d1 : WebDownload} : Reach (WebStep C readPos) d d1 → readLen ≤ d1.buffer.length ∨ httpDownloadIsFinish d1 = true →
      ReadPassOutcome C readLen readPos d (.pops (d1.pop readLen).1 (d1.pop readLen).2)

theorem audioFileReadPass_cases (hturn : turn.All C) (h : audioFileReadPass turn readLen f d = some pass) :
    ReadPassOutcome C readLen f.readPos d pass := by
  have hbefore : Reach (WebStep C f.readPos) d (d.applies turn.before) := applies_reach f.readPos hturn.before d
  have hcounted := hbefore.trans (applies_reach f.readPos hturn.counted (d.applies turn.before))
  unfold audioFileReadPass at h
  dsimp only at h
  split at h
  · rename_i hfinish
    have hidle := finish_idle hfinish
    rw [applies_idle hidle] at h
    split at h
    · rename_i hempty
      cases h
      exact .leaves hbefore hfinish (List.length_eq_zero_iff.1 hempty)
    · rw [applies_idle hidle] at h
      cases h
      exact .pops hbefore (.inr hfinish)
  · rename_i hfinish
    have hnot : httpDownloadIsFinish d = false := by
      cases hd : httpDownloadIsFinish d with
      | false => rfl
      | true =>
        rw [reach_finish hbefore hd] at hfinish
        exact absurd hd hfinish
    split at h
    · cases hwait : audioFileWaitBuffer turn readLen f ((d.applies turn.before).applies turn.counted) with
      | none =>
        rw [hwait] at h
        cases h
      | some res =>
        obtain ⟨ok, d2⟩ := res
        have hreach := hcounted.trans (audioFileWaitBuffer_reach hturn hwait)
        rw [hwait] at h
        cases ok with
        | false =>
          cases h
          exact .fails hreach hnot
        | true =>
          cases h
          have hafter := applies_reach f.readPos hturn.after d2
          refine .pops (hreach.trans hafter) ?_
          rcases audioFileWaitBuffer_true hwait with hsize | hfinish
          · exact .inl (hsize.trans (reach_untaken hafter).buffer.length_le)
          · rw [reach_finish hafter hfinish]
            exact .inr hfinish
    · rename_i hsize
      cases h
      have hafter := applies_reach f.readPos hturn.after ((d.applies turn.before).applies turn.counted)
      exact .pops (hcounted.trans hafter) (.inl ((not_lt.1 hsize).trans (reach_untaken hafter).buffer.length_le))

/-- How a pass of the loop in `audio_file_seek` goes. -/
inductive SkipPassOutcome (C : WebEvent → Prop) (diff readPos : Nat) (d : WebDownload) :
    Bool × Nat × WebDownload → Prop
  | fails {d1 : WebDownload} : Reach (WebStep C readPos) d d1 → SkipPassOutcome C diff readPos d (false, diff, d1)
  | pops {d1 : WebDownload} : Reach (WebStep C readPos) d d1 →
      min diff audioFileHttpMaxSeek ≤ d1.buffer.length ∨ httpDownloadIsFinish d1 = true →
      SkipPassOutcome C diff readPos d (true, diff - (d1.pop (min diff audioFileHttpMaxSeek)).1.length,
        (d1.pop (min diff audioFileHttpMaxSeek)).2)

theorem audioFileSkipPass_cases {res : Bool × Nat × WebDownload} (hturn : turn.All C)
    (h : audioFileSkipPass turn diff f d = some res) : SkipPassOutcome C diff f.readPos d res := by
  unfold audioFileSkipPass at h
  dsimp only at h
  cases hwait : audioFileWaitBuffer turn (min diff audioFileHttpMaxSeek) f d with
  | none =>
    rw [hwait] at h
    cases h
  | some waited =>
    obtain ⟨ok, d2⟩ := waited
    have hreach := audioFileWaitBuffer_reach hturn hwait
    rw [hwait] at h
    cases ok with
    | false =>
      cases h
      exact .fails hreach
    | true =>
      cases h
      have hafter := applies_reach f.readPos hturn.after d2
      refine .pops (hreach.trans hafter) ?_
      rcases audioFileWaitBuffer_true hwait with hsize | hfinish
      · exact .inl (hsize.trans (reach_untaken hafter).buffer.length_le)
      · rw [reach_finish hafter hfinish]
        exact .inr hfinish

end

/-! ## Reads and seeks -/

/-- The position is refused: it is negative, or not below the length that is known. -/
def OpenFile.Refuses (s : OpenFile) : AudioFileCall → Prop
  | .seek position => position < 0 ∨ 0 < s.file.totalLength ∧ (s.file.totalLength : Int) ≤ position
  | _ => False

section
variable {m : AudioMedia} {env : AudioFileAnswers} {s s' : OpenFile} {ret : Int} {bs : List Byte} {size : Nat}
  {position : Int}

/-- How a read goes: it is served from the preread buffer, or takes all of that and goes on. -/
inductive ReadOutcome (m : AudioMedia) (env : AudioFileAnswers) (size : Nat) (s : OpenFile) :
    Int → List Byte → OpenFile → Prop
  | preread : size ≤ s.file.preread.length →
      ReadOutcome m env size s size (s.file.preread.take size)
        { s with file := { s.file with preread := s.file.preread.drop size } }
  | failed {bs : List Byte} {f : AudioFile} {d : WebDownload} : s.file.preread.length < size → s.file.fileType = .web →
      audioFileReadWeb env.turns (size - s.file.preread.length) s.file.preread { s.file with preread := [] } s.download =
        some (false, bs, f, d) →
      ReadOutcome m env size s (-2) bs { s with file := f, download := d }
  | web {bs : List Byte} {f : AudioFile} {d : WebDownload} : s.file.preread.length < size → s.file.fileType = .web →
      audioFileReadWeb env.turns (size - s.file.preread.length) s.file.preread { s.file with preread := [] } s.download =
        some (true, bs, f, d) →
      ReadOutcome m env size s bs.length bs
        { s with file := (audioFileReadLength env f d).1, download := (audioFileReadLength env f d).2 }
  | flash {bs : List Byte} {f : AudioFile} : s.file.preread.length < size → s.file.fileType = .flash →
      audioFileReadFlash m env (size - s.file.preread.length) s.file.preread { s.file with preread := [] } = (bs, f) →
      ReadOutcome m env size s bs.length bs { s with file := f }
  | card {bs : List Byte} {f : AudioFile} {fptr : Nat} : s.file.preread.length < size → s.file.fileType = .sdCard →
      audioFileReadCard m env (size - s.file.preread.length) s.file.preread { s.file with preread := [] } s.fptr =
        (bs, f, fptr) →
      ReadOutcome m env size s bs.length bs { s with file := f, fptr }

theorem audioFileRead_cases (h : audioFileRead m env size s = some (ret, bs, s')) :
    ReadOutcome m env size s ret bs s' := by
  unfold audioFileRead at h
  simp only [audioFilePopPreread, List.length_take] at h
  split at h
  · have hle : size ≤ s.file.preread.length := by omega
    rw [min_eq_left hle] at h
    cases h
    exact .preread hle
  have hlt : s.file.preread.length < size := by omega
  rw [List.take_of_length_le hlt.le, List.drop_eq_nil_of_le hlt.le, min_eq_right hlt.le] at h
  split at h
  · rename_i htype
    cases hweb : audioFileReadWeb env.turns (size - s.file.preread.length) s.file.preread
        { s.file with preread := [] } s.download with
    | none =>
      rw [hweb] at h
      cases h
    | some res =>
      obtain ⟨ok, bs1, f, d⟩ := res
      rw [hweb] at h
      cases ok with
      | false =>
        cases h
        exact .failed hlt htype hweb
      | true =>
        cases h
        exact .web hlt htype hweb
  · rename_i htype
    cases h
    exact .flash hlt htype rfl
  · rename_i htype
    cases h
    exact .card hlt htype rfl

/-- How a seek to an allowed position goes: within the preread buffer, to where the source is, or further. -/
inductive SeekOutcome (m : AudioMedia) (env : AudioFileAnswers) (position : Int) (s : OpenFile) :
    Int → OpenFile → Prop
  | preread : toI32 (position - s.file.readPos) < 0 → -toI32 (position - s.file.readPos) ≤ s.file.preread.length →
      SeekOutcome m env position s 0 { s with file := { s.file with
        preread := s.file.preread.drop (s.file.preread.length + toI32 (position - s.file.readPos)).toNat } }
  | here : toI32 (position - s.file.readPos) = 0 → 0 ≤ position →
      SeekOutcome m env position s 0 { s with file := { s.file with preread := [] } }
  | restart : s.file.fileType = .web →
      toI32 (position - s.file.readPos) < 0 ∧ (s.file.preread.length : Int) < -toI32 (position - s.file.readPos) ∨
        toI32 (position - s.file.readPos) > audioFileHttpMaxSeek → 0 ≤ position →
      SeekOutcome m env position s 0 { s with
        file := { s.file with preread := [], readPos := position.toNat }
        download := httpDownloadStartSeek env.start position
          (httpDownloadStop (s.download.applies env.stopping)).clear }
  | skipFailed {d : WebDownload} : s.file.fileType = .web → 0 < toI32 (position - s.file.readPos) →
      toI32 (position - s.file.readPos) ≤ audioFileHttpMaxSeek →
      audioFileSkip env.turns (toI32 (position - s.file.readPos)).toNat { s.file with preread := [] } s.download =
        some (false, d) →
      SeekOutcome m env position s (-1) { s with file := { s.file with preread := [] }, download := d }
  | skipped {d : WebDownload} : s.file.fileType = .web → 0 < toI32 (position - s.file.readPos) →
      toI32 (position - s.file.readPos) ≤ audioFileHttpMaxSeek →
      audioFileSkip env.turns (toI32 (position - s.file.readPos)).toNat { s.file with preread := [] } s.download =
        some (true, d) →
      SeekOutcome m env position s 0 { s with
        file := { s.file with preread := [], readPos := position.toNat }, download := d }
  | flash : s.file.fileType = .flash → toI32 (position - s.file.readPos) ≠ 0 →
      SeekOutcome m env position s 0 { s with file := { s.file with preread := [], readPos := position.toNat } }
  | lseekFailed {fptr : Nat} : s.file.fileType = .sdCard → toI32 (position - s.file.readPos) ≠ 0 →
      env.fLseek = some fptr →
      SeekOutcome m env position s (-1) { s with file := { s.file with preread := [] }, fptr }
  | lseek : s.file.fileType = .sdCard → toI32 (position - s.file.readPos) ≠ 0 → env.fLseek = none →
      SeekOutcome m env position s 0 { s with
        file := { s.file with preread := [], readPos := position.toNat }
        fptr := min position.toNat m.card.length }

theorem audioFileSeek_refused (h : s.Refuses (.seek position)) : audioFileSeek m env position s = some (-1, s) := by
  unfold audioFileSeek
  by_cases hlow : position < 0
  · rw [if_pos hlow]
  · rw [if_neg hlow, if_pos (h.resolve_left hlow)]

theorem audioFileSeek_cases (h : audioFileSeek m env position s = some (ret, s')) :
    s.Refuses (.seek position) ∧ ret = -1 ∧ s' = s ∨
      ¬s.Refuses (.seek position) ∧ SeekOutcome m env position s ret s' := by
  by_cases hrefuses : s.Refuses (.seek position)
  · rw [audioFileSeek_refused hrefuses] at h
    cases h
    exact .inl ⟨hrefuses, rfl, rfl⟩
  refine .inr ⟨hrefuses, ?_⟩
  obtain ⟨hlow, hhigh⟩ := not_or.1 hrefuses
  have hpos : 0 ≤ position := by omega
  unfold audioFileSeek at h
  rw [if_neg hlow, if_neg hhigh] at h
  simp only [audioFilePopPreread, List.drop_length] at h
  split at h
  · rename_i hback
    cases h
    exact .preread hback.1 hback.2
  rename_i hback
  split at h
  · rename_i hdiff
    cases h
    exact .here hdiff hpos
  rename_i hdiff
  split at h
  · rename_i htype
    split at h
    · rename_i hfar
      cases h
      exact .restart htype (by omega) hpos
    rename_i hnear
    cases hskip : audioFileSkip env.turns (toI32 (position - s.file.readPos)).toNat { s.file with preread := [] }
        s.download with
    | none =>
      rw [hskip] at h
      cases h
    | some res =>
      obtain ⟨ok, d⟩ := res
      rw [hskip] at h
      cases ok with
      | false =>
        cases h
        exact .skipFailed htype (by omega) (by omega) hskip
      | true =>
        cases h
        exact .skipped htype (by omega) (by omega) hskip
  · rename_i htype
    cases h
    exact .flash htype hdiff
  · rename_i htype
    cases hlseek : env.fLseek with
    | some fptr =>
      rw [hlseek] at h
      cases h
      exact .lseekFailed htype hdiff hlseek
    | none =>
      rw [hlseek] at h
      cases h
      exact .lseek htype hdiff hlseek

end

end AudioPlayer

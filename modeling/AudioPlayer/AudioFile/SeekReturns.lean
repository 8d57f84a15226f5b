import Mathlib
import AudioPlayer.Lib.Halts
import AudioPlayer.AudioFile.Failures

/-!
# When a seek returns (`src/audio_file.c:361-386`, `utils/http_download_process.c:665-708`)

A seek ahead by at most 100 KiB waits and pops until it has skipped all of it. `SkipStep` is this loop with the loop of
the wait inside it, pass by pass; between two passes of the wait `vTaskDelay` takes 50 ticks, and a loop over PAUSE is
left once the download is resumed.

A wait ends: enough is there, the time is over, or the download has stopped. But a wait for a download that has
finished succeeds with whatever is there, and after that with nothing, and the loop goes on without end. So the seek
returns as long as the download does not finish short of what is still to skip (`audioFileSeek_returns`).
`audioFileSeek_reach` ties the passes to `audio_file_seek`.
-/

namespace AudioPlayer
open Lib

/-- Where the loop is: at its test, in a wait before its first or a later pass, or left. -/
inductive SkipState
  | looping (diff : Nat) (d : WebDownload)
  | entered (diff : Nat) (d : WebDownload)
  | waiting (diff elapsed : Nat) (d : WebDownload)
  | returned (ok : Bool) (d : WebDownload)
deriving DecidableEq, Repr

inductive SkipAct
  | leave
  | enter (turn : WebTurn)
  | poll (poll : WebPoll) (after : List WebEvent)

/-- A pass of the wait, and the pop after a wait that succeeds. -/
def audioFileSkipPoll (diff elapsed : Nat) (poll : WebPoll) (after : List WebEvent) (d : WebDownload) :
    Option SkipState :=
  let waitSize := min diff audioFileHttpMaxSeek
  match httpDownloadWaitPass waitSize (audioFileWaitTimeout waitSize) elapsed poll d with
  | none => none
  | some (.goesOn d) => some (.waiting diff elapsed d)
  | some (.returns ret d) =>
    if ret = .success then
      let (bs, d) := (d.applies after).pop waitSize
      some (.looping (diff - bs.length) d)
    else some (.returned false d)

inductive SkipStep (f : AudioFile) : SkipState → SkipAct → SkipState → Prop
  | leave {d} : SkipStep f (.looping 0 d) .leave (.returned true d)
  | enter {diff d turn} : diff ≠ 0 →
      SkipStep f (.looping diff d) (.enter turn) (.entered diff (audioFileWaitStart turn f d))
  | first {diff d poll after t} : audioFileSkipPoll diff poll.ticks poll after d = some t →
      SkipStep f (.entered diff d) (.poll poll after) t
  | later {diff elapsed d poll after t} : 50 ≤ poll.ticks →
      audioFileSkipPoll diff (elapsed + poll.ticks) poll after d = some t →
      SkipStep f (.waiting diff elapsed d) (.poll poll after) t

/-- The download has finished, and there is less of it than is still to skip. -/
def SkipState.Starved : SkipState → Prop
  | .looping diff d | .entered diff d => httpDownloadIsFinish d = true ∧ d.buffer.length < diff
  | _ => False

/-- A seek that skips. -/
def OpenFile.Skips (position : Int) (s : OpenFile) : Prop :=
  ¬s.Refuses (.seek position) ∧ s.file.fileType = .web ∧ 0 < toI32 (position - s.file.readPos) ∧
    toI32 (position - s.file.readPos) ≤ audioFileHttpMaxSeek

/-- How long a run can last that is never starved. -/
def SkipState.left : SkipState → Nat
  | .looping diff _ => diff * 60000 + 59999
  | .entered diff _ => diff * 60000 + 59998
  | .waiting diff elapsed _ => diff * 60000 + (55001 - elapsed)
  | .returned _ _ => 0

section
variable {f : AudioFile} {s t : SkipState} {a : SkipAct} {diff elapsed : Nat} {d d' : WebDownload} {poll : WebPoll}
  {after : List WebEvent} {turn : WebTurn}

theorem audioFileWaitTimeout_le (diff : Nat) : audioFileWaitTimeout (min diff audioFileHttpMaxSeek) ≤ 55000 := by
  unfold audioFileWaitTimeout audioFileWaitHttpTimeout audioFileWait10kTimeout audioFileHttpMaxSeek
  omega

/-- What a pass of the wait comes to. -/
theorem audioFileSkipPoll_cases (h : audioFileSkipPoll diff elapsed poll after d = some t) :
    (∃ d1, t = .waiting diff elapsed d1 ∧ elapsed ≤ 55000) ∨ (∃ d1, t = .returned false d1) ∨
      ∃ d1, t = .looping (diff - (d1.pop (min diff audioFileHttpMaxSeek)).1.length)
          (d1.pop (min diff audioFileHttpMaxSeek)).2 ∧
        (min diff audioFileHttpMaxSeek ≤ d1.buffer.length ∨ httpDownloadIsFinish d1 = true) := by
  unfold audioFileSkipPoll at h
  dsimp only at h
  cases hpass : httpDownloadWaitPass (min diff audioFileHttpMaxSeek)
      (audioFileWaitTimeout (min diff audioFileHttpMaxSeek)) elapsed poll d with
  | none =>
    rw [hpass] at h
    cases h
  | some pass =>
    rw [hpass] at h
    cases pass with
    | goesOn d1 =>
      cases h
      exact .inl ⟨d1, rfl, (httpDownloadWaitPass_goesOn hpass).trans (audioFileWaitTimeout_le diff)⟩
    | returns ret d1 =>
      dsimp only at h
      split at h
      · rename_i hret
        cases h
        refine .inr (.inr ⟨_, rfl, ?_⟩)
        have hafter : Reach (WebStep (fun _ => True) 0) d1 (d1.applies after) :=
          applies_reach 0 (fun _ _ => trivial) d1
        rcases httpDownloadWaitPass_ret hpass with ⟨-, -, hsize⟩ | ⟨-, hfinish⟩ | htime | ⟨hfailed, -⟩
        · exact .inl (hsize.trans (reach_untaken hafter).buffer.length_le)
        · rw [reach_finish hafter hfinish]
          exact .inr hfinish
        · rw [htime] at hret
          cases hret
        · rw [hfailed] at hret
          cases hret
      · cases h
        exact .inr (.inl ⟨d1, rfl⟩)

/-- Of what was popped, nothing is missing unless the download has finished, and then it is short now. -/
theorem pop_starved {d1 : WebDownload} (hdiff : diff ≠ 0)
    (hsize : min diff audioFileHttpMaxSeek ≤ d1.buffer.length ∨ httpDownloadIsFinish d1 = true)
    (hnot : ¬SkipState.Starved (.looping (diff - (d1.pop (min diff audioFileHttpMaxSeek)).1.length)
      (d1.pop (min diff audioFileHttpMaxSeek)).2)) :
    0 < (d1.pop (min diff audioFileHttpMaxSeek)).1.length := by
  have hmax : 0 < audioFileHttpMaxSeek := by decide
  have hlen : (d1.pop (min diff audioFileHttpMaxSeek)).1.length = min (min diff audioFileHttpMaxSeek) d1.buffer.length :=
    List.length_take
  by_contra hzero
  have hempty : d1.buffer.length = 0 := by omega
  rcases hsize with hsize | hfinish
  · omega
  · apply hnot
    refine ⟨hfinish, ?_⟩
    simp only [WebDownload.pop, List.length_drop, List.length_take]
    omega

/-- In a wait, there is something to wait for. -/
def SkipState.Asks : SkipState → Prop
  | .looping diff _ => diff ≤ audioFileHttpMaxSeek
  | .entered diff _ | .waiting diff _ _ => diff ≠ 0 ∧ diff ≤ audioFileHttpMaxSeek
  | .returned _ _ => True

theorem SkipStep.asks (hs : s.Asks) (h : SkipStep f s a t) : t.Asks := by
  have hpoll : ∀ {diff elapsed poll after d t}, diff ≠ 0 ∧ diff ≤ audioFileHttpMaxSeek →
      audioFileSkipPoll diff elapsed poll after d = some t → t.Asks := by
    intro diff elapsed poll after d t hdiff hpoll
    rcases audioFileSkipPoll_cases hpoll with ⟨d1, rfl, -⟩ | ⟨d1, rfl⟩ | ⟨d1, rfl, -⟩
    · exact hdiff
    · trivial
    · exact (Nat.sub_le _ _).trans hdiff.2
  cases h with
  | leave => trivial
  | enter hdiff => exact ⟨hdiff, hs⟩
  | first h => exact hpoll hs h
  | later _ h => exact hpoll hs h

/-- Every step outside the starved states brings the end nearer. -/
theorem SkipStep.left_lt (hs : s.Asks) (ht : ¬t.Starved) (h : SkipStep f s a t) : t.left < s.left := by
  cases h with
  | leave =>
    simp only [SkipState.left]
    omega
  | enter =>
    simp only [SkipState.left]
    omega
  | @first diff d poll after t hpoll =>
    rcases audioFileSkipPoll_cases hpoll with ⟨d1, rfl, htime⟩ | ⟨d1, rfl⟩ | ⟨d1, rfl, hsize⟩
    · simp only [SkipState.left]
      omega
    · simp only [SkipState.left]
      omega
    · have hdiff : diff ≠ 0 := hs.1
      have hpop := pop_starved hdiff hsize ht
      simp only [SkipState.left]
      omega
  | @later diff elapsed d poll after t hticks hpoll =>
    rcases audioFileSkipPoll_cases hpoll with ⟨d1, rfl, htime⟩ | ⟨d1, rfl⟩ | ⟨d1, rfl, hsize⟩
    · simp only [SkipState.left]
      omega
    · have hdiff : diff ≠ 0 := hs.1
      simp only [SkipState.left]
      omega
    · have hdiff : diff ≠ 0 := hs.1
      have hpop := pop_starved hdiff hsize ht
      simp only [SkipState.left]
      omega

/-- Where a wait leads. -/
def SkipState.waited (diff : Nat) (after : List WebEvent) (ret : HttpDownloadProcReturn) (d : WebDownload) : SkipState :=
  if ret = .success then
    .looping (diff - ((d.applies after).pop (min diff audioFileHttpMaxSeek)).1.length)
      ((d.applies after).pop (min diff audioFileHttpMaxSeek)).2
  else .returned false d

theorem audioFileSkipPoll_returns {ret : HttpDownloadProcReturn}
    (h : httpDownloadWaitPass (min diff audioFileHttpMaxSeek) (audioFileWaitTimeout (min diff audioFileHttpMaxSeek))
      elapsed poll d = some (.returns ret d')) :
    audioFileSkipPoll diff elapsed poll after d = some (.waited diff after ret d') := by
  unfold audioFileSkipPoll SkipState.waited
  dsimp only
  rw [h]
  dsimp only
  split <;> rfl

theorem audioFileSkipPoll_goesOn
    (h : httpDownloadWaitPass (min diff audioFileHttpMaxSeek) (audioFileWaitTimeout (min diff audioFileHttpMaxSeek))
      elapsed poll d = some (.goesOn d')) :
    audioFileSkipPoll diff elapsed poll after d = some (.waiting diff elapsed d') := by
  unfold audioFileSkipPoll
  dsimp only
  rw [h]

/-- From its second pass on, each a `vTaskDelay` after the one before, a wait is steps of the loop. -/
theorem waiting_reach {polls : List WebPoll} {ret : HttpDownloadProcReturn} (hticks : ∀ poll ∈ polls, 50 ≤ poll.ticks)
    (h : httpDownloadWaitBuffer (min diff audioFileHttpMaxSeek) (audioFileWaitTimeout (min diff audioFileHttpMaxSeek))
      polls elapsed d = some (ret, d')) :
    Reach (SkipStep f) (.waiting diff elapsed d) (.waited diff after ret d') := by
  induction polls generalizing d elapsed with
  | nil => cases h
  | cons poll polls ih =>
    have hpoll : 50 ≤ poll.ticks := hticks poll (.head _)
    unfold httpDownloadWaitBuffer at h
    cases hpass : httpDownloadWaitPass (min diff audioFileHttpMaxSeek)
        (audioFileWaitTimeout (min diff audioFileHttpMaxSeek)) (elapsed + poll.ticks) poll d with
    | none =>
      rw [hpass] at h
      cases h
    | some pass =>
      rw [hpass] at h
      cases pass with
      | returns ret d1 =>
        cases h
        exact (Reach.refl _).tail (.later hpoll (audioFileSkipPoll_returns hpass))
      | goesOn d1 =>
        have hnext := (Reach.refl _).tail (SkipStep.later (f := f) hpoll (@audioFileSkipPoll_goesOn _ _ _ _ _ after hpass))
        exact hnext.trans (ih (fun poll' hpoll' => hticks poll' (.tail _ hpoll')) h)

theorem entered_reach {polls : List WebPoll} {ret : HttpDownloadProcReturn}
    (hticks : ∀ poll ∈ polls.tail, 50 ≤ poll.ticks)
    (h : httpDownloadWaitBuffer (min diff audioFileHttpMaxSeek) (audioFileWaitTimeout (min diff audioFileHttpMaxSeek))
      polls 0 d = some (ret, d')) :
    Reach (SkipStep f) (.entered diff d) (.waited diff after ret d') := by
  cases polls with
  | nil => cases h
  | cons poll polls =>
    unfold httpDownloadWaitBuffer at h
    rw [Nat.zero_add] at h
    cases hpass : httpDownloadWaitPass (min diff audioFileHttpMaxSeek)
        (audioFileWaitTimeout (min diff audioFileHttpMaxSeek)) poll.ticks poll d with
    | none =>
      rw [hpass] at h
      cases h
    | some pass =>
      rw [hpass] at h
      cases pass with
      | returns ret d1 =>
        cases h
        exact (Reach.refl _).tail (.first (audioFileSkipPoll_returns hpass))
      | goesOn d1 =>
        have hnext := (Reach.refl _).tail (SkipStep.first (f := f) (@audioFileSkipPoll_goesOn _ _ _ _ _ after hpass))
        exact hnext.trans (waiting_reach hticks h)

/-- **A loop that is left is a run to the end.** -/
theorem audioFileSkip_reach {turns : List WebTurn} {ok : Bool}
    (hticks : ∀ turn ∈ turns, ∀ poll ∈ turn.polls.tail, 50 ≤ poll.ticks)
    (h : audioFileSkip turns diff f d = some (ok, d')) : Reach (SkipStep f) (.looping diff d) (.returned ok d') := by
  induction turns generalizing diff d with
  | nil =>
    unfold audioFileSkip at h
    split at h
    · rename_i hdiff
      cases h
      subst hdiff
      exact (Reach.refl _).tail .leave
    · cases h
  | cons turn turns ih =>
    unfold audioFileSkip at h
    split at h
    · rename_i hdiff
      cases h
      subst hdiff
      exact (Reach.refl _).tail .leave
    · rename_i hdiff
      have henter := (Reach.refl _).tail (@SkipStep.enter f _ d turn hdiff)
      unfold audioFileSkipPass audioFileWaitBuffer at h
      dsimp only at h
      cases hwait : httpDownloadWaitBuffer (min diff audioFileHttpMaxSeek)
          (audioFileWaitTimeout (min diff audioFileHttpMaxSeek)) turn.polls 0 (audioFileWaitStart turn f d) with
      | none =>
        rw [hwait] at h
        cases h
      | some res =>
        obtain ⟨ret, d1⟩ := res
        have hwaited := henter.trans (@entered_reach _ _ _ _ turn.after _ _ (hticks turn (.head _)) hwait)
        rw [hwait] at h
        by_cases hret : ret = .success
        · subst hret
          exact hwaited.trans (ih (fun turn' hturn => hticks turn' (.tail _ hturn)) h)
        · simp only [Option.map_some, hret, decide_false] at h
          cases h
          rw [SkipState.waited, if_neg hret] at hwaited
          exact hwaited

end

/-! ## When it returns -/

instance (position : Int) (s : OpenFile) : Decidable (s.Skips position) := by
  unfold OpenFile.Skips OpenFile.Refuses
  infer_instance

/-- A seek where it comes to its loop, and where it does without it. -/
def audioFileSeekBegin (position : Int) (s : OpenFile) : SkipState :=
  if s.Skips position then .looping (toI32 (position - s.file.readPos)).toNat s.download else .returned true s.download

section
variable {m : AudioMedia} {env : AudioFileAnswers} {s s' : OpenFile} {position ret : Int}

/-- Where it does not skip, it returns at once. -/
theorem audioFileSeek_isSome (h : ¬s.Skips position) : (audioFileSeek m env position s).isSome := by
  by_cases hrefuses : s.Refuses (.seek position)
  · rw [audioFileSeek_refused hrefuses]
    rfl
  obtain ⟨hlow, hhigh⟩ := not_or.1 hrefuses
  unfold audioFileSeek
  rw [if_neg hlow, if_neg hhigh]
  simp only [audioFilePopPreread, List.drop_length]
  split
  · rfl
  rename_i hback
  split
  · rfl
  rename_i hzero
  split
  · rename_i htype
    split
    · rfl
    · rename_i hfar
      exact absurd ⟨hrefuses, htype, by omega, by omega⟩ h
  · rfl
  · split <;> rfl

/-- One that skips, and returns, comes to the end of its loop. -/
theorem audioFileSeek_skips (hskips : s.Skips position)
    (hticks : ∀ turn ∈ env.turns, ∀ poll ∈ turn.polls.tail, 50 ≤ poll.ticks)
    (h : audioFileSeek m env position s = some (ret, s')) :
    Reach (SkipStep { s.file with preread := [] }) (audioFileSeekBegin position s)
      (.returned (decide (ret = 0)) s'.download) := by
  unfold audioFileSeekBegin
  rw [if_pos hskips]
  obtain ⟨hrefuses, htype, hpos, hmax⟩ := hskips
  obtain ⟨hlow, hhigh⟩ := not_or.1 hrefuses
  unfold audioFileSeek at h
  rw [if_neg hlow, if_neg hhigh] at h
  simp only [audioFilePopPreread, List.drop_length] at h
  rw [if_neg (by omega), if_neg (by omega)] at h
  split at h
  · rw [if_neg (by omega)] at h
    split at h
    · cases h
    · rename_i d hskip
      cases h
      exact audioFileSkip_reach hticks hskip
    · rename_i d hskip
      cases h
      exact audioFileSkip_reach hticks hskip
  · rename_i hflash
    rw [htype] at hflash
    cases hflash
  · rename_i hcard
    rw [htype] at hcard
    cases hcard

/-- **What `audio_file_seek` returns, its loop comes to**; where it does not come to the loop, it returns. -/
theorem audioFileSeek_reach (position : Int) (s : OpenFile)
    (hticks : ∀ turn ∈ env.turns, ∀ poll ∈ turn.polls.tail, 50 ≤ poll.ticks) :
    (¬s.Skips position → (audioFileSeek m env position s).isSome) ∧
      ∀ ret s', s.Skips position → audioFileSeek m env position s = some (ret, s') →
        Reach (SkipStep { s.file with preread := [] }) (audioFileSeekBegin position s)
          (.returned (decide (ret = 0)) s'.download) :=
  ⟨audioFileSeek_isSome, fun _ _ hskips => audioFileSeek_skips hskips hticks⟩

end

end AudioPlayer

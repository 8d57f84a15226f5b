import Mathlib
import AudioPlayer.HttpDownload.Process

/-!
# A download as the calls above see it (`utils/http_download_process.c:590-743`)

The file, the player and their threads look at a download through these values and change it through
`http_download_start_seek` and `http_download_stop`. In between the download task goes on: `WebEvent` is what it can do
to these values, and it does nothing in IDLE, where it waits for START.

| here | there |
|---|---|
| `WebDownload`              | `http_proc` and `http_buffer`, the latter as the bytes it holds |
| `httpDownloadStop`         | `:636-651`, the task takes STOP before the call returns |
| `httpDownloadStartSeek`    | `:590-624`, `:631-634`, START likewise; `WebStart` says how far it comes |
| `httpDownloadWaitPass`, `httpDownloadWaitBuffer` | `:665-708`, on one `WebPoll` for each pass of its loop |
| `httpDownloadIsFinish`, `httpDownloadIsStopped` | `:710-726` |

A tick is a millisecond. The loop over PAUSE inside a pass does not count towards the timeout.
-/

namespace AudioPlayer
open Lib

/-- What is seen of a download; `attached` says that `http_proc->http_buffer` is not `NULL`, `readCount` is how many
bytes ever left the buffer. -/
structure WebDownload where
  state          : Word
  lastError      : HttpDownloadProcReturn
  totalLength    : Int
  preDownloadPos : Int
  attached       : Bool
  buffer         : List Byte
  readCount      : Nat
deriving DecidableEq, Repr

/-- What the task does outside IDLE: it learns the length, pushes, or enters a state with a `last_error`. -/
inductive WebEvent
  | length (n : Int)
  | push (bs : List Byte)
  | enters (state : Word) (ret : HttpDownloadProcReturn)
deriving DecidableEq, Repr

/-- How a start goes: `malloc` has no memory for the URL, `http_download_proc_start` none for its blocks, or the
download runs. -/
inductive WebStart
  | noUrl | noMemory | runs
deriving DecidableEq, Repr

/-- A pass of the loop: what happens before it and after it counted, the ticks since the pass before, and what
happens in its loop over PAUSE. -/
structure WebPoll where
  before  : List WebEvent := []
  counted : List WebEvent := []
  ticks   : Nat := 50
  paused  : List WebEvent := []
deriving DecidableEq, Repr

namespace WebDownload

def apply (d : WebDownload) (e : WebEvent) : WebDownload :=
  if d.state = httpDownloadStaIdle then d
  else
    match e with
    | .length n => { d with totalLength := n }
    | .push bs => { d with buffer := d.buffer ++ bs, preDownloadPos := d.preDownloadPos + bs.length }
    | .enters state ret => { d with state, lastError := ret }

def applies (d : WebDownload) (es : List WebEvent) : WebDownload := es.foldl apply d

/-- `common_buffer_pop(http_buffer, …)` -/
def pop (n : Nat) (d : WebDownload) : List Byte × WebDownload :=
  (d.buffer.take n, { d with buffer := d.buffer.drop n, readCount := d.readCount + (d.buffer.take n).length })

/-- `common_buffer_clear(http_buffer)` -/
def clear (d : WebDownload) : WebDownload := { d with buffer := [], readCount := d.readCount + d.buffer.length }

end WebDownload

/-- `http_download_init` -/
def WebDownload.init : WebDownload where
  state := httpDownloadStaIdle
  lastError := .success
  totalLength := 0
  preDownloadPos := 0
  attached := false
  buffer := []
  readCount := 0

/-- `http_download_is_stopped` -/
def httpDownloadIsStopped (d : WebDownload) : Bool := d.state = httpDownloadStaIdle

/-- `http_download_is_finish` -/
def httpDownloadIsFinish (d : WebDownload) : Bool :=
  d.state = httpDownloadStaIdle && (d.lastError = .success || d.lastError = .allEnd)

/-- `http_download_stop`: STOP counts outside IDLE only. -/
def httpDownloadStop (d : WebDownload) : WebDownload :=
  if d.state = httpDownloadStaIdle then { d with attached := false }
  else { d with state := httpDownloadStaIdle, lastError := .success, attached := false }

/-- `http_download_start_seek` -/
def httpDownloadStartSeek (start : WebStart) (seekPos : Int) (d : WebDownload) : WebDownload :=
  let d := httpDownloadStop d
  match start with
  | .noUrl => d
  | .noMemory => { d with lastError := .errMalloc, attached := true, preDownloadPos := seekPos }
  | .runs =>
    { d with
      state := httpDownloadStaRecv
      lastError := .success
      totalLength := if seekPos ≤ 0 then -1 else d.totalLength
      attached := true
      preDownloadPos := seekPos }

/-- How a pass of the loop in `http_download_wait_buffer` ends. -/
inductive WaitPass
  | returns (ret : HttpDownloadProcReturn) (d : WebDownload)
  | goesOn (d : WebDownload)
deriving DecidableEq, Repr

/-- A pass, `elapsed` ticks after the call; `none` while it is in its loop over PAUSE. -/
def httpDownloadWaitPass (size timeout elapsed : Nat) (poll : WebPoll) (d : WebDownload) : Option WaitPass :=
  let d := d.applies poll.before
  if d.attached ∧ size ≤ d.buffer.length then some (.returns .success d)
  else
    let d := d.applies poll.counted
    if timeout < elapsed then some (.returns .errTimeout d)
    else if d.state = httpDownloadStaIdle then
      some (.returns (if d.lastError = .success ∨ d.lastError = .allEnd then .success else .errDownloadFailed) d)
    else if d.state = httpDownloadStaPause then
      let d := d.applies poll.paused
      if d.state = httpDownloadStaPause then none else some (.goesOn d)
    else some (.goesOn d)

/-- `http_download_wait_buffer`; `none` while it has not returned. -/
def httpDownloadWaitBuffer (size timeout : Nat) :
    List WebPoll → Nat → WebDownload → Option (HttpDownloadProcReturn × WebDownload)
  | [], _, _ => none
  | poll :: polls, elapsed, d =>
    match httpDownloadWaitPass size timeout (elapsed + poll.ticks) poll d with
    | none => none
    | some (.returns ret d) => some (ret, d)
    | some (.goesOn d) => httpDownloadWaitBuffer size timeout polls (elapsed + poll.ticks) d

/-! ## What a wait leaves -/

/-- All that happens in the pass is in `C`. -/
structure WebPoll.All (C : WebEvent → Prop) (poll : WebPoll) : Prop where
  before  : ∀ e ∈ poll.before, C e
  counted : ∀ e ∈ poll.counted, C e
  paused  : ∀ e ∈ poll.paused, C e

section
variable {C : WebEvent → Prop} {I : WebDownload → Prop} {d d' : WebDownload} {es : List WebEvent}
  {polls : List WebPoll} {size timeout elapsed : Nat} {ret : HttpDownloadProcReturn}

theorem apply_idle (h : d.state = httpDownloadStaIdle) (e : WebEvent) : d.apply e = d := by
  unfold WebDownload.apply
  rw [if_pos h]

theorem applies_idle (h : d.state = httpDownloadStaIdle) (es : List WebEvent) : d.applies es = d := by
  unfold WebDownload.applies
  induction es with
  | nil => rfl
  | cons e es ih => rw [List.foldl_cons, apply_idle h, ih]

/-- What every event keeps, all of them keep. -/
theorem applies_keeps (hI : ∀ d e, C e → I d → I (d.apply e)) (hes : ∀ e ∈ es, C e) (h : I d) : I (d.applies es) := by
  unfold WebDownload.applies
  induction es generalizing d with
  | nil => exact h
  | cons e es ih =>
    rw [List.foldl_cons]
    exact ih (fun e' he' => hes e' (.tail _ he')) (hI d e (hes e (.head _)) h)

/-- What a pass leaves. -/
def WaitPass.download : WaitPass → WebDownload
  | .returns _ d | .goesOn d => d

theorem httpDownloadWaitPass_keeps {pass : WaitPass} {poll : WebPoll} (hI : ∀ d e, C e → I d → I (d.apply e))
    (hall : poll.All C) (h : httpDownloadWaitPass size timeout elapsed poll d = some pass) (hd : I d) :
    I pass.download := by
  have hbefore : I (d.applies poll.before) := applies_keeps hI hall.before hd
  have hcounted : I ((d.applies poll.before).applies poll.counted) := applies_keeps hI hall.counted hbefore
  have hpaused : I (((d.applies poll.before).applies poll.counted).applies poll.paused) :=
    applies_keeps hI hall.paused hcounted
  unfold httpDownloadWaitPass at h
  dsimp only at h
  split at h
  · cases h
    exact hbefore
  split at h
  · cases h
    exact hcounted
  split at h
  · cases h
    exact hcounted
  split at h
  · split at h
    · cases h
    · cases h
      exact hpaused
  · cases h
    exact hcounted

/-- A pass succeeds where there is enough or the download has finished, and fails for the time or for the download. -/
theorem httpDownloadWaitPass_ret {poll : WebPoll}
    (h : httpDownloadWaitPass size timeout elapsed poll d = some (.returns ret d')) :
    ret = .success ∧ d'.attached = true ∧ size ≤ d'.buffer.length ∨ ret = .success ∧ httpDownloadIsFinish d' = true ∨
      ret = .errTimeout ∨ ret = .errDownloadFailed ∧ httpDownloadIsStopped d' = true ∧ httpDownloadIsFinish d' = false := by
  unfold httpDownloadWaitPass at h
  dsimp only at h
  split at h
  · rename_i hcount
    cases h
    exact .inl ⟨rfl, hcount⟩
  split at h
  · cases h
    exact .inr (.inr (.inl rfl))
  split at h
  · rename_i hidle
    split at h
    · rename_i herr
      cases h
      refine .inr (.inl ⟨rfl, ?_⟩)
      simp only [httpDownloadIsFinish, hidle, decide_true, Bool.true_and, Bool.or_eq_true, decide_eq_true_eq]
      exact herr
    · rename_i herr
      cases h
      refine .inr (.inr (.inr ⟨rfl, decide_eq_true hidle, ?_⟩))
      simp only [httpDownloadIsFinish, hidle, decide_true, Bool.true_and, Bool.or_eq_false_iff, decide_eq_false_iff_not]
      exact not_or.1 herr
  split at h
  · split at h <;> cases h
  · cases h

/-- It goes on only in time. -/
theorem httpDownloadWaitPass_goesOn {poll : WebPoll}
    (h : httpDownloadWaitPass size timeout elapsed poll d = some (.goesOn d')) : elapsed ≤ timeout := by
  unfold httpDownloadWaitPass at h
  dsimp only at h
  split at h
  · cases h
  split at h
  · cases h
  · rename_i htime
    exact not_lt.1 htime

/-- What every event keeps, a wait keeps. -/
theorem httpDownloadWaitBuffer_keeps (hI : ∀ d e, C e → I d → I (d.apply e)) (hpolls : ∀ poll ∈ polls, poll.All C)
    (h : httpDownloadWaitBuffer size timeout polls elapsed d = some (ret, d')) (hd : I d) : I d' := by
  induction polls generalizing d elapsed with
  | nil => cases h
  | cons poll polls ih =>
    unfold httpDownloadWaitBuffer at h
    cases hpass : httpDownloadWaitPass size timeout (elapsed + poll.ticks) poll d with
    | none =>
      rw [hpass] at h
      cases h
    | some pass =>
      have hkept : I pass.download := httpDownloadWaitPass_keeps hI (hpolls poll (.head _)) hpass hd
      rw [hpass] at h
      cases pass with
      | returns ret d1 =>
        cases h
        exact hkept
      | goesOn d1 => exact ih (fun poll' hpoll => hpolls poll' (.tail _ hpoll)) h hkept

theorem httpDownloadWaitBuffer_ret (h : httpDownloadWaitBuffer size timeout polls elapsed d = some (ret, d')) :
    ret = .success ∧ d'.attached = true ∧ size ≤ d'.buffer.length ∨ ret = .success ∧ httpDownloadIsFinish d' = true ∨
      ret = .errTimeout ∨ ret = .errDownloadFailed ∧ httpDownloadIsStopped d' = true ∧ httpDownloadIsFinish d' = false := by
  induction polls generalizing d elapsed with
  | nil => cases h
  | cons poll polls ih =>
    unfold httpDownloadWaitBuffer at h
    cases hpass : httpDownloadWaitPass size timeout (elapsed + poll.ticks) poll d with
    | none =>
      rw [hpass] at h
      cases h
    | some pass =>
      rw [hpass] at h
      cases pass with
      | returns ret d1 =>
        cases h
        exact httpDownloadWaitPass_ret hpass
      | goesOn d1 => exact ih h

end

end AudioPlayer

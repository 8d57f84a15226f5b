import Mathlib
import AudioPlayer.FsmThreads
import AudioPlayer.HttpDownload.Resources

/-!
# Pausing and resuming a running download

`http_download_pause` and `http_download_resume` (`utils/http_download_process.c:653-663`) set a bit and
do not wait, unlike `http_download_start_inner` and `http_download_stop` (`:618`, `:625`), which wait for
the answer. The task takes whatever is pending at its next wait, as one set whose order is gone, and runs
one action for it: in PAUSE a resume counts and a pause does not, in the other states a pause counts and a
resume does not. So of a pause and a resume that are taken together the one that changes the state wins,
and in a state of a running download that is the pause, whichever was called last.

| here | there |
| --- | --- |
| `RunningStep.pause`, `.resume` | the two calls, by any thread at any time |
| `RunningStep.fsm`              | the task takes a set or acknowledges it, or the caller of START is told |
| `RunningStep.finish`           | an action has run; it connects, and the download goes on |
| `RunningStep.pop`              | the consumer takes bytes out of `http_buffer` |
| `DownloadCalls.lastPause`      | whether the last of the calls was `http_download_pause` |
-/

namespace AudioPlayer
open Lib

variable {cap : Nat} {T : Type*}

/-- A download's state machine and the last of the calls; no function reads the latter. -/
structure DownloadCalls (cap : Nat) (T : Type*) where
  fsm       : FsmSys (HttpDownloadProc cap) T
  lastPause : Bool := false

inductive RunningAct (T : Type*)
  | pause
  | resume
  | fsm (a : FsmAct T)
  | finish (env : HttpEnv)
  | pop (n : Nat)

/-- A step of the task other than its action, or the end of an earlier call that waits. -/
def OfTask : FsmAct T → Prop
  | .takeBits _ | .setAck | .ackWake _ _ | .ackTimeout _ => True
  | _ => False

/-- A step while a download is running: connects succeed, and it neither ends nor is stopped. -/
inductive RunningStep [DecidableEq T] : DownloadCalls cap T → RunningAct T → DownloadCalls cap T → Prop
  | pause {s} : RunningStep s .pause
      ⟨{ s.fsm with event := commonSetEvent s.fsm.event httpDownloadEventPause }, true⟩
  | resume {s} : RunningStep s .resume
      ⟨{ s.fsm with event := commonSetEvent s.fsm.event httpDownloadEventResume }, false⟩
  | fsm {s env a fsm'} : OfTask a → FsmStep (httpDownloadExec env) httpDownloadLookup s.fsm a fsm' →
      RunningStep s (.fsm a) { s with fsm := fsm' }
  | finish {s env fsm'} : env.connect = .ok →
      FsmStep (httpDownloadExec env) httpDownloadLookup s.fsm .finish fsm' →
      fsm'.curState ≠ httpDownloadStaIdle → RunningStep s (.finish env) { s with fsm := fsm' }
  | pop {s n} : RunningStep s (.pop n)
      { s with fsm := { s.fsm with userParam := s.fsm.userParam.pop n } }

/-- A download is running and none of its requests is pending, or the turn that starts it is under way. -/
def IsRunning (s : FsmSys (HttpDownloadProc cap) T) : Prop :=
  s.event = 0 ∧
    (s.task = .dispatch httpDownloadEventStart ∧ s.curState = httpDownloadStaIdle ∨
      s.task = .waitBits ∧ s.curState ∈ [httpDownloadStaRecv, httpDownloadStaWaitFree, httpDownloadStaWaitRange])

/-- Between two actions with neither request pending, the state is PAUSE if and only if the last call
was a pause. -/
def FollowsCalls (step : DownloadCalls cap T → RunningAct T → DownloadCalls cap T → Prop)
    (s₀ : DownloadCalls cap T) : Prop :=
  ∀ s, Reach step s₀ s → (∀ E, s.fsm.task ≠ .dispatch E) →
    s.fsm.event &&& (httpDownloadEventPause ||| httpDownloadEventResume) = 0 →
    (s.fsm.curState = httpDownloadStaPause ↔ s.lastPause = true)

/-- Of two requests taken together the one that changes the state was made last, and a resume gets its
request out. -/
def LastCallCounts (s : DownloadCalls cap T) : RunningAct T → Prop
  | .fsm (.takeBits E) => E &&& httpDownloadEventPause ≠ 0 → E &&& httpDownloadEventResume ≠ 0 →
      (s.lastPause = true ↔ s.fsm.curState ≠ httpDownloadStaPause)
  | .finish env => ∀ E, s.fsm.task = .dispatch E → E &&& httpDownloadEventResume ≠ 0 →
      s.fsm.curState = httpDownloadStaPause → env.send.failed = false
  | _ => True

/-! ## Where a turn leads -/

section
variable {env : HttpEnv} {p : HttpDownloadProc cap} {s : DownloadSys cap} {pause resume : Bool}

theorem idle_ne_pause : httpDownloadStaIdle ≠ httpDownloadStaPause := by decide
theorem recv_ne_pause : httpDownloadStaRecv ≠ httpDownloadStaPause := by decide
theorem waitFree_ne_pause : httpDownloadStaWaitFree ≠ httpDownloadStaPause := by decide
theorem waitRange_ne_pause : httpDownloadStaWaitRange ≠ httpDownloadStaPause := by decide
theorem hold_ne_pause : comFsmHoldState ≠ httpDownloadStaPause := by decide

theorem connAction_ne_pause : (httpDownloadProcConnAction env p).2 ≠ httpDownloadStaPause := by
  rw [connAction_word]
  split
  · exact recv_ne_pause
  · exact idle_ne_pause
  · exact idle_ne_pause
  · exact hold_ne_pause

theorem pushAction_ne_pause : (httpDownloadProcPushAction p).2 ≠ httpDownloadStaPause := by
  unfold httpDownloadProcPushAction
  dsimp only
  split
  · exact recv_ne_pause
  · split
    · exact waitFree_ne_pause
    · split
      · exact waitRange_ne_pause
      · exact idle_ne_pause

theorem recvPoll_ne_pause : (httpDownloadProcRecvPoll env p).2 ≠ httpDownloadStaPause := by
  unfold httpDownloadProcRecvPoll
  dsimp only
  split
  · exact pushAction_ne_pause
  · split
    · exact hold_ne_pause
    · split
      · exact connAction_ne_pause
      · exact idle_ne_pause

/-- No action but the pause action leads to PAUSE. -/
theorem exec_ne_pause {a : HttpDownloadAction} (ha : a ≠ .pause) :
    (httpDownloadExec env a p).2 ≠ httpDownloadStaPause := by
  cases a with
  | start =>
    unfold httpDownloadExec httpDownloadProcStartAction
    dsimp only
    split
    · exact connAction_ne_pause
    · exact hold_ne_pause
  | stop => exact idle_ne_pause
  | pause => exact absurd rfl ha
  | conn => exact connAction_ne_pause
  | recvPoll => exact recvPoll_ne_pause
  | waitFreePoll =>
    unfold httpDownloadExec httpDownloadProcWaitFreePoll
    dsimp only
    split
    · exact pushAction_ne_pause
    · exact hold_ne_pause
  | waitRangePoll =>
    unfold httpDownloadExec httpDownloadProcWaitRangePoll
    dsimp only
    split
    · exact connAction_ne_pause
    · exact hold_ne_pause

/-- With the connection there and the request sent, the connect action does not hold the state. -/
theorem connAction_leaves (h : Opens env p) (hsend : env.send.failed = false) :
    (httpDownloadProcConnAction env p).2 ≠ comFsmHoldState := by
  rw [connAction_word]
  by_cases hg : Given p
  · rw [conn_of_opens hg h, hsend, if_neg Bool.false_ne_true]
    dsimp only
    decide
  · have herr : (httpDownloadProcConn env p).1 = .errParam := by
      unfold httpDownloadProcConn
      rw [if_pos (by simpa only [Given, ne_eq, not_and_or, not_not] using hg)]
    rw [herr]
    dsimp only
    decide

theorem after_ne_pause {res : HttpDownloadProc cap × Word} (h : s.curState ≠ httpDownloadStaPause)
    (hres : res.2 ≠ httpDownloadStaPause) : (s.after res).curState ≠ httpDownloadStaPause := by
  unfold DownloadSys.after
  dsimp only
  split
  · exact hres
  · exact h

/-- A turn leaves PAUSE by a resume alone, and gets there by a pause alone. -/
theorem turn_pause_iff (hs : s.curState ∈ downloadStates) (h0 : s.curState ≠ httpDownloadStaIdle)
    (hopen : env.connect = .ok)
    (hsend : resume = true → s.curState = httpDownloadStaPause → env.send.failed = false) :
    (s.turn env (downloadEvents false false pause resume)).curState = httpDownloadStaPause ↔
      if s.curState = httpDownloadStaPause then resume = false else pause = true := by
  have hturn : Turn s env pause resume (s.turn env (downloadEvents false false pause resume)) := turn_cases hs
  generalize s.turn env (downloadEvents false false pause resume) = s' at hturn
  cases hturn with
  | idle hcur => exact absurd hcur h0
  | stay hcur hr => simp only [hcur, hr, if_true]
  | resume hcur hr =>
    have hleaves := connAction_leaves (p := s.proc) (.inr hopen) (hsend hr hcur)
    have hne : (httpDownloadProcConnAction env s.proc).2 ≠ httpDownloadStaPause := connAction_ne_pause
    rw [if_pos hcur, hr]
    refine iff_of_false ?_ Bool.noConfusion
    unfold DownloadSys.after
    rw [hcur]
    dsimp only
    rw [if_pos ⟨hleaves, hne⟩]
    exact hne
  | pause _ hcur hp =>
    rw [if_neg hcur]
    refine iff_of_true ?_ hp
    unfold DownloadSys.after httpDownloadProcPauseAction
    exact if_pos ⟨hold_ne_pause.symm, Ne.symm hcur⟩
  | recv hcur hp =>
    have hne : s.curState ≠ httpDownloadStaPause := hcur ▸ recv_ne_pause
    rw [if_neg hne, hp]
    exact iff_of_false (after_ne_pause hne recvPoll_ne_pause) Bool.noConfusion
  | waitFree hcur hp =>
    have hne : s.curState ≠ httpDownloadStaPause := hcur ▸ waitFree_ne_pause
    rw [if_neg hne, hp]
    exact iff_of_false (after_ne_pause hne (@exec_ne_pause _ env s.proc .waitFreePoll nofun)) Bool.noConfusion
  | waitRange hcur hp =>
    have hne : s.curState ≠ httpDownloadStaPause := hcur ▸ waitRange_ne_pause
    rw [if_neg hne, hp]
    exact iff_of_false (after_ne_pause hne (exec_ne_pause (a := .waitRangePoll) nofun)) Bool.noConfusion

theorem start_turn_ne_pause (h : s.curState = httpDownloadStaIdle) :
    (s.turn env httpDownloadEventStart).curState ≠ httpDownloadStaPause := by
  have hturn : (s.turn env httpDownloadEventStart) = s.after (httpDownloadProcStartAction env s.proc) := by
    rw [turn_eq (by decide), h]
    rfl
  rw [hturn]
  exact after_ne_pause (h ▸ idle_ne_pause) (@exec_ne_pause _ env s.proc .start nofun)

end

/-! ## What a run keeps -/

/-- Whether the machine is in PAUSE once the turn under way is over. -/
def LeadsToPause (s : FsmSys (HttpDownloadProc cap) T) : Prop :=
  match s.task with
  | .dispatch E =>
    if s.curState = httpDownloadStaPause then E &&& httpDownloadEventResume = 0
    else E &&& httpDownloadEventPause ≠ 0
  | _ => s.curState = httpDownloadStaPause

/-- One pending request is the last call; with none pending the turn under way, or the state, is what the
last call asked for. -/
structure CallsInv (s : DownloadCalls cap T) : Prop where
  settles  : ∃ pause resume, s.fsm.event = downloadEvents false false pause resume ∧
    (pause ≠ resume → s.lastPause = pause) ∧
    (pause = false → resume = false → (LeadsToPause s.fsm ↔ s.lastPause = true))
  turning  : ∀ E, s.fsm.task = .dispatch E → E = httpDownloadEventStart ∧ s.fsm.curState = httpDownloadStaIdle ∨
    (∃ pause resume, E = downloadEvents false false pause resume) ∧
      s.fsm.curState ∈ downloadStates ∧ s.fsm.curState ≠ httpDownloadStaIdle
  resting  : (∀ E, s.fsm.task ≠ .dispatch E) →
    s.fsm.curState ∈ downloadStates ∧ s.fsm.curState ≠ httpDownloadStaIdle

section
variable {s s' : DownloadCalls cap T} {fsm' : FsmSys (HttpDownloadProc cap) T} {env : HttpEnv} {E : Word}
  {pause resume : Bool}

theorem set_pause : commonSetEvent (downloadEvents false false pause resume) httpDownloadEventPause =
    downloadEvents false false true resume := by
  cases pause <;> cases resume <;> rfl

theorem set_resume : commonSetEvent (downloadEvents false false pause resume) httpDownloadEventResume =
    downloadEvents false false pause true := by
  cases pause <;> cases resume <;> rfl

theorem wait_all : commonWaitEvent (downloadEvents false false pause resume) comFsmEventAll =
    (downloadEvents false false pause resume, downloadEvents false false false false) := by
  cases pause <;> cases resume <;> rfl

theorem has_pause : downloadEvents false false pause resume &&& httpDownloadEventPause ≠ 0 ↔ pause = true := by
  cases pause <;> cases resume <;> decide

theorem has_resume : downloadEvents false false pause resume &&& httpDownloadEventResume ≠ 0 ↔ resume = true := by
  cases pause <;> cases resume <;> decide

theorem none_pending : downloadEvents false false pause resume &&&
    (httpDownloadEventPause ||| httpDownloadEventResume) = 0 ↔ pause = false ∧ resume = false := by
  cases pause <;> cases resume <;> decide

/-- A call leaves its own bit pending; alone it is the last call, and with the other nothing is said. -/
theorem CallsInv.call (h : CallsInv s) :
    CallsInv ⟨{ s.fsm with event := commonSetEvent s.fsm.event httpDownloadEventPause }, true⟩ ∧
      CallsInv ⟨{ s.fsm with event := commonSetEvent s.fsm.event httpDownloadEventResume }, false⟩ := by
  obtain ⟨p, r, hevent, -, -⟩ := h.settles
  refine ⟨⟨⟨true, r, ?_, fun _ => rfl, fun h => Bool.noConfusion h⟩, h.turning, h.resting⟩,
    ⟨⟨p, true, ?_, ?_, fun _ h => Bool.noConfusion h⟩, h.turning, h.resting⟩⟩
  · rw [← set_pause, ← hevent]
  · rw [← set_resume, ← hevent]
  · intro hne
    cases p
    · rfl
    · exact absurd rfl hne

/-- Taking a set leaves nothing pending, and the turn under way is the one the last call asked for. -/
theorem CallsInv.take (h : CallsInv s) (hrest : s.fsm.task = .waitBits)
    (hevent : s.fsm.event = downloadEvents false false pause resume)
    (hlast : pause = true → resume = true → (s.lastPause = true ↔ s.fsm.curState ≠ httpDownloadStaPause)) :
    CallsInv { s with fsm := { s.fsm with
      event := downloadEvents false false false false, task := .dispatch (downloadEvents false false pause resume) } } := by
  have hstate := h.resting (fun E hE => by rw [hrest] at hE; cases hE)
  obtain ⟨p, r, hevent', hone, hnone⟩ := h.settles
  obtain ⟨rfl, rfl⟩ : p = pause ∧ r = resume := by
    have heq := hevent'.symm.trans hevent
    refine ⟨?_, ?_⟩
    · rw [Bool.eq_iff_iff, ← has_pause, ← @has_pause pause resume, heq]
    · rw [Bool.eq_iff_iff, ← @has_resume p, ← @has_resume pause, heq]
  refine ⟨⟨false, false, rfl, fun hne => absurd rfl hne, fun _ _ => ?_⟩, ?_, fun hno => absurd rfl (hno _)⟩
  · have hleads : LeadsToPause s.fsm ↔ s.fsm.curState = httpDownloadStaPause := by
      unfold LeadsToPause
      rw [hrest]
    unfold LeadsToPause
    dsimp only
    rw [has_pause]
    by_cases hcur : s.fsm.curState = httpDownloadStaPause
    · rw [if_pos hcur, ← not_iff_not, ← ne_eq, has_resume]
      cases p <;> cases r
      · simpa [hleads, hcur] using hnone rfl rfl
      · simpa using hone Bool.noConfusion
      · simpa using hone Bool.noConfusion
      · simpa [hcur] using hlast rfl rfl
    · rw [if_neg hcur]
      cases p <;> cases r
      · simpa [hleads, hcur] using hnone rfl rfl
      · simpa using hone Bool.noConfusion
      · simpa using hone Bool.noConfusion
      · simpa [hcur] using hlast rfl rfl
  · rintro E hE
    obtain rfl : downloadEvents false false p r = E := TaskPc.dispatch.inj hE
    exact .inr ⟨⟨p, r, rfl⟩, hstate⟩

/-- The action of a turn ends where `LeadsToPause` said. -/
theorem CallsInv.finish [DecidableEq T] (h : CallsInv s) (hopen : env.connect = .ok)
    (hfin : FsmStep (httpDownloadExec env) httpDownloadLookup s.fsm .finish fsm')
    (hgoes : fsm'.curState ≠ httpDownloadStaIdle) (hcount : LastCallCounts s (.finish env)) :
    CallsInv { s with fsm := fsm' } := by
  obtain ⟨p, r, hevent, hone, hnone⟩ := h.settles
  cases hfin with
  | @finish E htask =>
    set t : DownloadSys cap := DownloadSys.turn ⟨s.fsm.curState, s.fsm.userParam⟩ env E with ht
    have hcur : t.curState = (comFsmDispatch (httpDownloadExec env) httpDownloadLookup s.fsm.curState
      s.fsm.userParam E).1 := rfl
    rw [← hcur] at hgoes
    have hleads : t.curState ∈ downloadStates ∧
        (t.curState = httpDownloadStaPause ↔ LeadsToPause s.fsm) := by
      unfold LeadsToPause
      rw [htask]
      dsimp only
      rcases h.turning E htask with ⟨rfl, hidle⟩ | ⟨⟨p', r', rfl⟩, hmem, h0⟩
      · refine ⟨turn_mem (by rw [hidle]; exact idle_mem) (by decide), ?_⟩
        rw [hidle, if_neg idle_ne_pause]
        exact iff_of_false (start_turn_ne_pause hidle) (fun hne => hne (by decide))
      · refine ⟨turn_mem hmem exit_downloadEvents, ?_⟩
        rw [has_pause, ht, turn_pause_iff hmem h0 hopen
          (fun hr => hcount _ htask (has_resume.2 hr))]
        dsimp only
        by_cases hp : s.fsm.curState = httpDownloadStaPause
        · rw [if_pos hp, if_pos hp, ← not_iff_not, ← ne_eq (_ &&& _), has_resume, Bool.not_eq_false]
        · rw [if_neg hp, if_neg hp]
    refine ⟨⟨p, r, hevent, hone, fun hp hr => ?_⟩, ?_, fun _ => ⟨hleads.1, hgoes⟩⟩
    · rw [← hnone hp hr, ← hleads.2]
      rfl
    · rintro E' hE
      cases hE

/-- One step keeps the invariant. -/
theorem CallsInv.step [DecidableEq T] {a : RunningAct T} (h : CallsInv s)
    (hs : Restrict RunningStep LastCallCounts s a s') : CallsInv s' := by
  obtain ⟨hs, hcount⟩ := hs
  cases hs with
  | pause => exact h.call.1
  | resume => exact h.call.2
  | finish hopen hfin hgoes => exact h.finish hopen hfin hgoes hcount
  | pop => exact ⟨h.settles, h.turning, h.resting⟩
  | fsm htask hstep =>
    obtain ⟨p, r, hevent, hone, hnone⟩ := h.settles
    cases hstep with
    | setEvent | post | clearEvent | clearEventAck | finish => exact htask.elim
    | ackWake | ackTimeout => exact ⟨h.settles, h.turning, h.resting⟩
    | takeBits hrest hne =>
      simp only [hevent, wait_all] at hcount ⊢
      exact h.take hrest hevent fun hp hr => hcount (has_pause.2 hp) (has_resume.2 hr)
    | takeNone hrest =>
      -- the wait timed out; what was set since stays pending
      have hstate := h.resting (fun E hE => by rw [hrest] at hE; cases hE)
      refine ⟨⟨p, r, hevent, hone, fun hp hr => ?_⟩, ?_, fun hno => absurd rfl (hno _)⟩
      · rw [← hnone hp hr]
        unfold LeadsToPause
        rw [hrest]
        dsimp only
        split
        · rename_i hcur
          exact iff_of_true (by decide) hcur
        · rename_i hcur
          exact iff_of_false (fun hne => hne (by decide)) hcur
      · rintro E hE
        obtain rfl : comFsmEventNone = E := TaskPc.dispatch.inj hE
        exact .inr ⟨⟨false, false, rfl⟩, hstate⟩
    | setAck hack =>
      have hstate := h.resting (fun E hE => by rw [hack] at hE; cases hE)
      refine ⟨⟨p, r, hevent, hone, fun hp hr => ?_⟩, ?_, fun _ => hstate⟩
      · rw [← hnone hp hr]
        unfold LeadsToPause
        rw [hack]
        dsimp only
        split
        · rename_i hE
          split at hE <;> cases hE
        · rfl
      · rintro E' hE
        dsimp only at hE
        split at hE <;> cases hE

/-- What a running download starts from. -/
theorem CallsInv.start {fsm : FsmSys (HttpDownloadProc cap) T} (h : IsRunning fsm) :
    CallsInv ⟨fsm, false⟩ := by
  obtain ⟨hevent, ⟨htask, hcur⟩ | ⟨htask, hcur⟩⟩ := h
  · refine ⟨⟨false, false, hevent, fun hne => absurd rfl hne, fun _ _ => ?_⟩, ?_, fun hno => absurd htask (hno _)⟩
    · unfold LeadsToPause
      rw [htask]
      dsimp only
      rw [hcur, if_neg idle_ne_pause]
      exact iff_of_false (fun hne => hne (by decide)) Bool.noConfusion
    · rintro E hE
      obtain rfl : httpDownloadEventStart = E := TaskPc.dispatch.inj (htask.symm.trans hE)
      exact .inl ⟨rfl, hcur⟩
  · have hne : fsm.curState ≠ httpDownloadStaPause ∧ fsm.curState ∈ downloadStates ∧
        fsm.curState ≠ httpDownloadStaIdle := by
      simp only [List.mem_cons, List.not_mem_nil, or_false] at hcur
      rcases hcur with hcur | hcur | hcur <;> rw [hcur] <;> decide
    refine ⟨⟨false, false, hevent, fun hne => absurd rfl hne, fun _ _ => ?_⟩, ?_, fun _ => hne.2⟩
    · unfold LeadsToPause
      rw [htask]
      exact iff_of_false hne.1 Bool.noConfusion
    · rintro E hE
      rw [htask] at hE
      cases hE

end

/-- **The last call counts**, in every run in which no turn takes a pause and a resume together of which
the wrong one changes the state, and the request of a resumed download is sent. -/
theorem httpDownload_follows_calls [DecidableEq T] {fsm : FsmSys (HttpDownloadProc cap) T}
    (h : IsRunning fsm) : FollowsCalls (Restrict RunningStep LastCallCounts) ⟨fsm, false⟩ := by
  intro s hreach hno hpending
  have hinv : CallsInv s := hreach.invariant (fun _ _ _ => CallsInv.step) (CallsInv.start h)
  obtain ⟨p, r, hevent, -, hnone⟩ := hinv.settles
  rw [hevent, none_pending] at hpending
  rw [← hnone hpending.1 hpending.2]
  unfold LeadsToPause
  split
  · rename_i E htask
    exact absurd htask (hno E)
  · rfl

/-- A download whose first connection was just made, with nothing else done yet. -/
def downloadJustStarted : FsmSys (HttpDownloadProc 64) Unit where
  event := 0
  eventAck := 0
  curState := httpDownloadStaIdle
  userParam := httpDownloadStartInner ⟨[], by decide⟩ (bytes "http://a/b") true 0 httpDownloadInit
  task := .dispatch httpDownloadEventStart
  pc := fun _ => .waitAck httpDownloadEventStart

theorem downloadJustStarted_running : IsRunning downloadJustStarted := ⟨rfl, .inl ⟨rfl, rfl⟩⟩

/-- A resume and then a pause are called while the download connects, and one turn takes both. -/
def pausedActs : List (RunningAct Unit) :=
  [.finish .accepting, .fsm .setAck, .resume, .pause, .fsm (.takeBits (downloadEvents false false true true)),
    .finish .accepting, .fsm .setAck]

/-- Then a resume is. -/
def resumedActs : List (RunningAct Unit) :=
  [.resume, .fsm (.takeBits (downloadEvents false false false true)), .finish .accepting, .fsm .setAck]

/-- The download pauses, and is resumed. -/
theorem httpDownload_follows_calls_paused : ∃ s t : DownloadCalls 64 Unit,
    Steps (Restrict RunningStep LastCallCounts) ⟨downloadJustStarted, false⟩ pausedActs s ∧
      s.fsm.curState = httpDownloadStaPause ∧
      Steps (Restrict RunningStep LastCallCounts) ⟨downloadJustStarted, false⟩ (pausedActs ++ resumedActs) t ∧
      t.fsm.curState ≠ httpDownloadStaPause := by
  have hsetAck : ∀ {s fsm' : FsmSys (HttpDownloadProc 64) Unit} {l : Bool},
      FsmStep (httpDownloadExec HttpEnv.accepting) httpDownloadLookup s .setAck fsm' →
      Restrict RunningStep LastCallCounts ⟨s, l⟩ (.fsm .setAck) ⟨fsm', l⟩ :=
    fun h => ⟨.fsm trivial h, trivial⟩
  have htake : ∀ {s fsm' : FsmSys (HttpDownloadProc 64) Unit} {l : Bool} {E : Word},
      FsmStep (httpDownloadExec HttpEnv.accepting) httpDownloadLookup s (.takeBits E) fsm' →
      (E &&& httpDownloadEventPause ≠ 0 → E &&& httpDownloadEventResume ≠ 0 →
        (l = true ↔ s.curState ≠ httpDownloadStaPause)) →
      Restrict RunningStep LastCallCounts ⟨s, l⟩ (.fsm (.takeBits E)) ⟨fsm', l⟩ :=
    fun h hlast => ⟨.fsm trivial h, hlast⟩
  have hfinish : ∀ {s fsm' : FsmSys (HttpDownloadProc 64) Unit} {l : Bool},
      FsmStep (httpDownloadExec HttpEnv.accepting) httpDownloadLookup s .finish fsm' →
      fsm'.curState ≠ httpDownloadStaIdle →
      Restrict RunningStep LastCallCounts ⟨s, l⟩ (.finish HttpEnv.accepting) ⟨fsm', l⟩ :=
    fun h hrun => ⟨.finish rfl h hrun, fun _ _ _ _ => rfl⟩
  have hcalled : Steps (Restrict RunningStep LastCallCounts) ⟨downloadJustStarted, false⟩ _ _ :=
    .snoc (.snoc (.snoc (.one (hfinish (.finish rfl) (by decide))) (hsetAck (.setAck rfl))) ⟨.resume, trivial⟩)
      ⟨.pause, trivial⟩
  have hpaused := Steps.snoc (.snoc (.snoc hcalled (htake (.takeBits rfl (by decide)) fun _ _ => by decide))
    (hfinish (.finish rfl) (by decide))) (hsetAck (.setAck rfl))
  have hresumed := Steps.snoc (.snoc (.snoc (.snoc hpaused ⟨.resume, trivial⟩)
    (htake (.takeBits rfl (by decide)) fun _ _ => by decide)) (hfinish (.finish rfl) (by decide)))
    (hsetAck (.setAck rfl))
  have hfollows := @httpDownload_follows_calls 64 Unit _ _ downloadJustStarted_running
  refine ⟨_, _, hpaused, ?_, hresumed, ?_⟩
  · exact (hfollows _ ⟨_, hpaused⟩ (fun _ => TaskPc.noConfusion) (by decide)).2 rfl
  · exact fun hpause => Bool.noConfusion
      ((hfollows _ ⟨_, hresumed⟩ (fun _ => TaskPc.noConfusion) (by decide)).1 hpause)

section
variable [DecidableEq T] {s : DownloadCalls cap T}

/-- The condition is exact for a set taken in a state of a running download: when the resume was the last
call, one turn later the machine is in PAUSE with nothing pending. -/
theorem exists_lost_resume (htask : s.fsm.task = .waitBits)
    (hcur : s.fsm.curState ∈ [httpDownloadStaRecv, httpDownloadStaWaitFree, httpDownloadStaWaitRange])
    (hevent : s.fsm.event = downloadEvents false false true true) (hlast : s.lastPause = false) :
    ∃ s', Reach RunningStep s s' ∧ (∀ E, s'.fsm.task ≠ .dispatch E) ∧
      s'.fsm.event &&& (httpDownloadEventPause ||| httpDownloadEventResume) = 0 ∧
      s'.fsm.curState = httpDownloadStaPause ∧ s'.lastPause = false := by
  have hne : s.fsm.curState ≠ httpDownloadStaPause ∧ s.fsm.curState ∈ downloadStates ∧
      s.fsm.curState ≠ httpDownloadStaIdle := by
    simp only [List.mem_cons, List.not_mem_nil, or_false] at hcur
    rcases hcur with hcur | hcur | hcur <;> rw [hcur] <;> decide
  -- both are taken, and the pause action runs
  let taken : FsmSys (HttpDownloadProc cap) T := { s.fsm with
    event := downloadEvents false false false false, task := .dispatch (downloadEvents false false true true) }
  have htake : RunningStep s (.fsm (.takeBits (downloadEvents false false true true))) { s with fsm := taken } := by
    have hstep : FsmStep (httpDownloadExec HttpEnv.accepting) httpDownloadLookup s.fsm _ _ :=
      .takeBits htask (by rw [hevent, wait_all]; decide)
    rw [hevent, wait_all] at hstep
    exact .fsm trivial hstep
  have hpause : (DownloadSys.turn ⟨s.fsm.curState, s.fsm.userParam⟩ HttpEnv.accepting
      (downloadEvents false false true true)).curState = httpDownloadStaPause := by
    rw [turn_pause_iff hne.2.1 hne.2.2 rfl fun _ h => absurd h hne.1]
    exact (if_neg hne.1).mpr rfl
  have hfinish : RunningStep { s with fsm := taken } (.finish HttpEnv.accepting) _ :=
    .finish rfl (.finish rfl) fun h0 => idle_ne_pause (h0.symm.trans hpause)
  exact ⟨_, ((Reach.refl s).tail htake).tail hfinish, fun _ hE => TaskPc.noConfusion hE,
    none_pending.2 ⟨rfl, rfl⟩, hpause, hlast⟩

end

/-- A pause and a resume called during one receive: the download stays in PAUSE. -/
theorem httpDownload_resume_lost : ¬ ∀ fsm : FsmSys (HttpDownloadProc 64) Unit, IsRunning fsm →
    FollowsCalls RunningStep ⟨fsm, false⟩ := by
  intro h
  obtain ⟨s, ⟨as, hs⟩, htask, hcur, hevent, hlast⟩ : ∃ s, Reach RunningStep ⟨downloadJustStarted, false⟩ s ∧
      s.fsm.task = .waitBits ∧
      s.fsm.curState ∈ [httpDownloadStaRecv, httpDownloadStaWaitFree, httpDownloadStaWaitRange] ∧
      s.fsm.event = downloadEvents false false true true ∧ s.lastPause = false := by
    have hfinish : RunningStep ⟨downloadJustStarted, false⟩ (.finish HttpEnv.accepting) _ :=
      .finish rfl (.finish rfl) (by decide)
    have hstarted := (Reach.refl _).tail hfinish
    have hrest := hstarted.tail (.fsm (show OfTask (FsmAct.setAck : FsmAct Unit) from trivial)
      (show FsmStep (httpDownloadExec HttpEnv.accepting) httpDownloadLookup _ _ _ from .setAck rfl))
    exact ⟨_, (hrest.tail .pause).tail .resume, rfl, by decide, rfl, rfl⟩
  obtain ⟨s', ⟨bs, hs'⟩, hno, hpending, hpause, hlast'⟩ := exists_lost_resume htask hcur hevent hlast
  have hiff := h downloadJustStarted downloadJustStarted_running s' ⟨_, hs.append hs'⟩ hno hpending
  exact Bool.noConfusion (hlast'.symm.trans (hiff.1 hpause))

end AudioPlayer

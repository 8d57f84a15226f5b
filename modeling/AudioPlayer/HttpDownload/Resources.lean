import Mathlib
import AudioPlayer.HttpDownload.Run

/-!
# What a download holds, and whether it goes on

START allocates `recv_buf` and `client_data_ext` and opens the connection; whatever ends a download frees
and closes them (`httpDownloadProcStop`). The connect action asks for another try by holding the state it
was called in (`http_download_process.c:427-428`). That is right in the states with a poll, but the start
action calls it in IDLE and the table calls it in PAUSE, where nothing runs it again.

| here | states |
| --- | --- |
| `httpDownload_idle_released` | every state of IDLE in a run, under the condition on each START |
| `httpDownload_retries_iff`   | one START in IDLE or RESUME in PAUSE: exactly when it is not parked |
-/

namespace AudioPlayer
open Lib

variable {cap : Nat}

/-- Both blocks are freed and no connection is open. -/
structure HttpDownloadProc.Released (p : HttpDownloadProc cap) : Prop where
  recvBuf       : p.recvBuf = none
  clientDataExt : p.clientDataExt = none
  closed        : p.httpOpened = false

section
variable {p : HttpDownloadProc cap} {env : HttpEnv}

@[simp] theorem closeClient_httpOpened : (httpDownloadProcCloseClient p).httpOpened = false := by
  unfold httpDownloadProcCloseClient
  split <;> simp_all

theorem stop_released (p : HttpDownloadProc cap) : (httpDownloadProcStop p).Released :=
  ⟨rfl, rfl, closeClient_httpOpened⟩

/-! ## Where the actions lead -/

/-- An action answers a state of a download or holds, and what it leaves in IDLE is released. -/
def Ends (res : HttpDownloadProc cap × Word) : Prop :=
  (res.2 = comFsmHoldState ∨ res.2 ∈ downloadStates) ∧ (res.2 = httpDownloadStaIdle → res.1.Released)

theorem hold_ne_idle : comFsmHoldState ≠ httpDownloadStaIdle := by decide

theorem idle_mem : httpDownloadStaIdle ∈ downloadStates := .head _

theorem Ends.idle (p : HttpDownloadProc cap) : Ends (httpDownloadProcStop p, httpDownloadStaIdle) :=
  ⟨.inr idle_mem, fun _ => stop_released p⟩

theorem Ends.hold (p : HttpDownloadProc cap) : Ends (p, comFsmHoldState) := ⟨.inl rfl, fun h => absurd h hold_ne_idle⟩

theorem Ends.other {state : Word} (h : state ∈ downloadStates) (h0 : state ≠ httpDownloadStaIdle)
    (p : HttpDownloadProc cap) : Ends (p, state) := ⟨.inr h, fun h' => absurd h' h0⟩

theorem connAction_ends : Ends (httpDownloadProcConnAction env p) := by
  unfold httpDownloadProcConnAction
  dsimp only
  split
  · exact .other (by decide) (by decide) _
  · split
    · exact .idle _
    · exact .hold _

theorem pushAction_ends : Ends (httpDownloadProcPushAction p) := by
  unfold httpDownloadProcPushAction
  dsimp only
  split
  · exact .other (by decide) (by decide) _
  · split
    · exact .other (by decide) (by decide) _
    · split
      · exact .other (by decide) (by decide) _
      · exact .idle _

theorem recvPoll_ends : Ends (httpDownloadProcRecvPoll env p) := by
  unfold httpDownloadProcRecvPoll
  dsimp only
  split
  · exact pushAction_ends
  · split
    · exact .hold _
    · split
      · exact connAction_ends
      · exact .idle _

theorem startAction_ends : Ends (httpDownloadProcStartAction env p) := by
  unfold httpDownloadProcStartAction
  dsimp only
  split
  · exact connAction_ends
  · exact .hold _

theorem exec_ends (a : HttpDownloadAction) : Ends (httpDownloadExec env a p) := by
  cases a with
  | start => exact startAction_ends
  | stop => exact .idle _
  | pause => exact .other (by decide) (by decide) _
  | conn => exact connAction_ends
  | recvPoll => exact recvPoll_ends
  | waitFreePoll =>
    unfold httpDownloadExec httpDownloadProcWaitFreePoll
    dsimp only
    split
    · exact pushAction_ends
    · exact .hold _
  | waitRangePoll =>
    unfold httpDownloadExec httpDownloadProcWaitRangePoll
    dsimp only
    split
    · exact connAction_ends
    · exact .hold _

theorem after_mem {s : DownloadSys cap} {res : HttpDownloadProc cap × Word} (hs : s.curState ∈ downloadStates) (h : Ends res) :
    (s.after res).curState ∈ downloadStates := by
  unfold DownloadSys.after
  dsimp only
  split
  · rename_i hc
    exact h.1.resolve_left hc.1
  · exact hs

theorem turn_mem {s : DownloadSys cap} (hs : s.curState ∈ downloadStates) {E : Word} (hx : comFsmEventExit &&& E = 0) :
    (s.turn env E).curState ∈ downloadStates := by
  rw [turn_eq hx]
  split
  · exact hs
  · exact after_mem hs (exec_ends _)

/-! ## What connecting comes to -/

/-- The connection is there, or `httpclient_connect` makes it. -/
def Opens (env : HttpEnv) (p : HttpDownloadProc cap) : Prop := p.httpOpened = true ∨ env.connect = .ok

instance : Decidable (Opens env p) := inferInstanceAs (Decidable (_ ∨ _))

/-- `http_download_proc_conn` finds what it needs: a URL and a buffer. -/
def Given (p : HttpDownloadProc cap) : Prop := p.url ≠ none ∧ p.httpBuffer ≠ none

theorem openClient_of_opens (h : Opens env p) : (httpDownloadProcOpenClient env p).1 = .success := by
  unfold httpDownloadProcOpenClient
  by_cases ho : p.httpOpened = true
  · rw [if_pos ho]
  · have hc : ¬ env.connect ≠ .ok := fun hc => hc (h.resolve_left ho)
    rw [if_neg ho, if_neg hc]

theorem openClient_of_not_opens (h : ¬ Opens env p) : httpDownloadProcOpenClient env p =
    (if p.errConnCount + 1 ≥ httpDownloadMaxErrConnCount then .errTryConn else .errConn,
      { p with url := p.url.map httpDownloadProcUrlPreprocess, client := .closed, errConnCount := p.errConnCount + 1 }) := by
  unfold httpDownloadProcOpenClient
  rw [if_neg fun ho => h (.inl ho), if_pos fun hc => h (.inr hc)]

theorem conn_of_opens (hg : Given p) (h : Opens env p) :
    (httpDownloadProcConn env p).1 = if env.send.failed then .errSend else .success := by
  have hnot : ¬ (p.url = none ∨ p.httpBuffer = none) := fun h' => h'.elim hg.1 hg.2
  have hopen := openClient_of_opens h
  unfold httpDownloadProcConn
  rw [if_neg hnot]
  generalize httpDownloadProcOpenClient env p = res at hopen
  obtain ⟨ret, q⟩ := res
  obtain rfl : ret = .success := hopen
  dsimp only
  split <;> rfl

theorem conn_of_not_opens (hg : Given p) (h : ¬ Opens env p) :
    httpDownloadProcConn env p = httpDownloadProcOpenClient env p := by
  have hnot : ¬ (p.url = none ∨ p.httpBuffer = none) := fun h' => h'.elim hg.1 hg.2
  unfold httpDownloadProcConn
  rw [if_neg hnot, openClient_of_not_opens h]
  by_cases hc : p.errConnCount + 1 ≥ httpDownloadMaxErrConnCount <;> simp [hc]

/-- Which state the connect action answers. -/
theorem connAction_word (env : HttpEnv) (p : HttpDownloadProc cap) : (httpDownloadProcConnAction env p).2 =
    match (httpDownloadProcConn env p).1 with
    | .success => httpDownloadStaRecv
    | .errTryConn | .errParam => httpDownloadStaIdle
    | _ => comFsmHoldState := by
  unfold httpDownloadProcConnAction
  generalize httpDownloadProcConn env p = res
  obtain ⟨ret, q⟩ := res
  cases ret <;> rfl

theorem connAction_lastError (env : HttpEnv) (p : HttpDownloadProc cap) :
    (httpDownloadProcConnAction env p).1.lastError = (httpDownloadProcConn env p).1 := by
  unfold httpDownloadProcConnAction httpDownloadProcStop httpDownloadProcCloseClient
  dsimp only
  split
  · rfl
  · split
    · split <;> rfl
    · split <;> rfl

theorem connAction_errConnCount (env : HttpEnv) (p : HttpDownloadProc cap) :
    (httpDownloadProcConnAction env p).1.errConnCount = (httpDownloadProcConn env p).2.errConnCount := by
  unfold httpDownloadProcConnAction httpDownloadProcStop httpDownloadProcCloseClient
  dsimp only
  split
  · rfl
  · split
    · split <;> rfl
    · split <;> rfl

/-- A START that gets as far as connecting starts it from zero. -/
theorem startAction_eq (h : env.malloc 0 = true ∧ env.malloc 1 = true) : ∃ q : HttpDownloadProc cap,
    httpDownloadProcStartAction env p = httpDownloadProcConnAction env q ∧ q.httpOpened = false ∧
      q.errConnCount = 0 ∧ (Given q ↔ Given p) := by
  unfold httpDownloadProcStartAction httpDownloadProcStart
  simp only [h.1, h.2, Bool.not_true, Bool.false_eq_true, if_false, if_true]
  exact ⟨_, rfl, rfl, rfl, Iff.rfl⟩

theorem startAction_of_not_malloc (h : ¬ (env.malloc 0 = true ∧ env.malloc 1 = true)) :
    (httpDownloadProcStartAction env p).2 = comFsmHoldState ∧
      (httpDownloadProcStartAction env p).1.lastError = .errMalloc ∧
      (httpDownloadProcStartAction env p).1.Released := by
  have hret : (httpDownloadProcStart env p).1 = .errMalloc := by
    unfold httpDownloadProcStart
    by_cases h0 : env.malloc 0 = true
    · have h1 : env.malloc 1 = false := by simpa [h0] using h
      rw [h0, h1]; rfl
    · rw [Bool.not_eq_true] at h0
      rw [h0]; rfl
  unfold httpDownloadProcStartAction
  generalize httpDownloadProcStart env p = res at hret
  obtain ⟨ret, q⟩ := res
  obtain rfl : ret = .errMalloc := hret
  refine ⟨rfl, ?_, stop_released _⟩
  change (httpDownloadProcStop { q with lastError := .errMalloc }).lastError = .errMalloc
  unfold httpDownloadProcStop httpDownloadProcCloseClient
  dsimp only
  split <;> rfl

end

/-! ## IDLE holds nothing -/

/-- A turn on any set, or another thread's writes: `http_download_start_inner` and `http_download_stop` set
these fields, and the consumer empties the buffer. -/
inductive HttpDownloadAct (cap : Nat)
  | turn (start stop pause resume : Bool) (env : HttpEnv)
  | write (url : Option (List Byte)) (httpBuffer : Option (HttpBuffer cap)) (rangeEnable : Bool)
      (preDownloadPos : Int) (lastError : HttpDownloadProcReturn)

/-- Any order of events, with any outcome of every call an action makes. -/
inductive HttpDownloadStep : DownloadSys cap → HttpDownloadAct cap → DownloadSys cap → Prop
  | turn {s start stop pause resume env} :
      HttpDownloadStep s (.turn start stop pause resume env) (s.turn env (downloadEvents start stop pause resume))
  | write {s url httpBuffer rangeEnable preDownloadPos lastError} :
      HttpDownloadStep s (.write url httpBuffer rangeEnable preDownloadPos lastError)
        { s with proc := { s.proc with url, httpBuffer, rangeEnable, preDownloadPos, lastError } }

/-- A START in IDLE that gets as far as connecting connects, and its request goes out. -/
def StartConnects (s : DownloadSys cap) : HttpDownloadAct cap → Prop
  | .turn start _ _ _ env => start = true → s.curState = httpDownloadStaIdle →
      env.malloc 0 = true ∧ env.malloc 1 = true → Given s.proc → env.connect = .ok ∧ env.send.failed = false
  | .write .. => True

section
variable {s s' : DownloadSys cap} {a : HttpDownloadAct cap} {env : HttpEnv} {p : HttpDownloadProc cap}

/-- What every state between actions is like. -/
def IdleReleased (s : DownloadSys cap) : Prop :=
  s.curState ∈ downloadStates ∧ (s.curState = httpDownloadStaIdle → s.proc.Released)

/-- An action that does not hold IDLE with something in its hands. -/
theorem IdleReleased.after {res : HttpDownloadProc cap × Word} (hs : s.curState ∈ downloadStates) (h : Ends res)
    (hidle : s.curState = httpDownloadStaIdle → res.2 = comFsmHoldState → res.1.Released) :
    IdleReleased (s.after res) := by
  obtain ⟨q, state⟩ := res
  obtain ⟨hmem, hrel⟩ := h
  dsimp only at hmem hrel hidle
  simp only [DownloadSys.after, IdleReleased]
  by_cases hold : state = comFsmHoldState
  · rw [if_neg fun h' => h'.1 hold]
    exact ⟨hs, fun h' => hidle h' hold⟩
  · have hmem := hmem.resolve_left hold
    by_cases heq : state = s.curState
    · rw [if_neg fun h' => h'.2 heq, ← heq]
      exact ⟨hmem, hrel⟩
    · rw [if_pos ⟨hold, heq⟩]
      exact ⟨hmem, hrel⟩

/-- The start action holds only where START may not be refused a connection. -/
theorem startAction_hold (hc : env.malloc 0 = true ∧ env.malloc 1 = true → Given p →
      env.connect = .ok ∧ env.send.failed = false)
    (hhold : (httpDownloadProcStartAction env p).2 = comFsmHoldState) :
    (httpDownloadProcStartAction env p).1.Released := by
  by_cases hm : env.malloc 0 = true ∧ env.malloc 1 = true
  · obtain ⟨q, hq, -, -, hgiven⟩ := startAction_eq (p := p) hm
    rw [hq, connAction_word] at hhold
    by_cases hg : Given q
    · obtain ⟨hconn, hsend⟩ := hc hm (hgiven.1 hg)
      rw [conn_of_opens hg (.inr hconn), hsend] at hhold
      exact absurd hhold (by decide)
    · have hparam : (httpDownloadProcConn env q).1 = .errParam := by
        unfold httpDownloadProcConn
        rw [if_pos (by by_contra hno; exact hg ⟨fun h => hno (.inl h), fun h => hno (.inr h)⟩)]
      rw [hparam] at hhold
      exact absurd hhold (by decide)
  · exact (startAction_of_not_malloc hm).2.2

theorem HttpDownloadStep.idleReleased (h : IdleReleased s) (hs : Restrict HttpDownloadStep StartConnects s a s') :
    IdleReleased s' := by
  obtain ⟨hstep, hcond⟩ := hs
  cases hstep with
  | write =>
    exact ⟨h.1, fun hi => ⟨(h.2 hi).recvBuf, (h.2 hi).clientDataExt, (h.2 hi).closed⟩⟩
  | @turn start stop pause resume env =>
    rw [turn_eq exit_downloadEvents]
    by_cases hidle : s.curState = httpDownloadStaIdle
    · rw [select_download h.1]
      by_cases hstart : start = true
      · rw [if_pos ⟨hstart, hidle⟩]
        exact .after h.1 startAction_ends fun _ => startAction_hold (hcond hstart hidle)
      · rw [if_neg fun h' => hstart h'.1, if_neg fun h' => h'.2 hidle, if_neg fun h' => h'.2.1 hidle, hidle,
          if_neg fun h' => absurd h'.2 (by decide)]
        exact h
    · cases httpDownloadSelect s.curState (downloadEvents start stop pause resume) with
      | none => exact h
      | some a => exact .after h.1 (exec_ends a) fun hi => absurd hi hidle

/-- **IDLE holds nothing**, in every run of the state machine in which each START that gets as far as
connecting connects and sends its request. -/
theorem httpDownload_idle_released {acts : List (HttpDownloadAct cap)}
    (h : Steps (Restrict HttpDownloadStep StartConnects) ⟨httpDownloadStaIdle, httpDownloadInit⟩ acts s)
    (hidle : s.curState = httpDownloadStaIdle) : s.proc.Released :=
  (h.invariant (I := IdleReleased) (fun _ _ _ => HttpDownloadStep.idleReleased) ⟨idle_mem, fun _ => ⟨rfl, rfl, rfl⟩⟩).2 hidle

end

/-- A download that is started and stopped. -/
theorem httpDownload_idle_released_stopped : (DownloadSys.turn (DownloadSys.turn
      ⟨httpDownloadStaIdle, httpDownloadStartInner (.empty : Fifo Byte 4) (bytes "http://a/") true 0 httpDownloadInit⟩
      HttpEnv.accepting (downloadEvents true false false false))
    HttpEnv.accepting (downloadEvents false true false false)).proc.Released :=
  httpDownload_idle_released
    (.cons ⟨@HttpDownloadStep.write _ _ (some (bytes "http://a/")) (some { queue := .empty }) true 0 .success, trivial⟩
      (.cons ⟨.turn, fun _ _ _ _ => ⟨rfl, rfl⟩⟩ (.one ⟨.turn, fun h => absurd h (by decide)⟩)))
    (by decide)

/-- A START whose connection is refused leaves the machine in IDLE with both blocks allocated. -/
theorem httpDownload_refused_keeps : ¬ ∀ (acts : List (HttpDownloadAct 4)) (s : DownloadSys 4),
    Steps HttpDownloadStep ⟨httpDownloadStaIdle, httpDownloadInit⟩ acts s →
      s.curState = httpDownloadStaIdle → s.proc.Released := by
  intro h
  have hrun : Steps HttpDownloadStep (⟨httpDownloadStaIdle, httpDownloadInit⟩ : DownloadSys 4)
      [.write (some (bytes "http://a/")) (some { queue := .empty }) true 0 .success,
        .turn true false false false .refusing] _ := .cons .write (.one .turn)
  have := (h _ _ hrun (by decide)).clientDataExt
  exact absurd this (by decide)

/-! ## Nobody is parked -/

/-- The state polls, or the fifth connect failure in a row has ended the download. -/
def Retries (s : DownloadSys cap) : Prop :=
  (comFsmGetLookup httpDownloadLookup s.curState comFsmEventNone).isSome = true ∨
    s.curState = httpDownloadStaIdle ∧ s.proc.lastError = .errTryConn ∧ s.proc.Released ∧
      httpDownloadMaxErrConnCount ≤ s.proc.errConnCount

section
variable {s : DownloadSys cap} {env : HttpEnv} {p : HttpDownloadProc cap}

/-- In IDLE and PAUSE nothing polls. -/
theorem retries_parked (hs : s.curState = httpDownloadStaIdle ∨ s.curState = httpDownloadStaPause) :
    Retries s ↔ s.curState = httpDownloadStaIdle ∧ s.proc.lastError = .errTryConn ∧ s.proc.Released ∧
      httpDownloadMaxErrConnCount ≤ s.proc.errConnCount := by
  have hpoll : (comFsmGetLookup httpDownloadLookup s.curState comFsmEventNone).isSome = false := by
    rcases hs with hs | hs <;> rw [hs] <;> rfl
  simp [Retries, hpoll]

/-- The connect action, called where nothing polls. -/
theorem retries_connAction (hs : s.curState = httpDownloadStaIdle ∨ s.curState = httpDownloadStaPause) :
    Retries (s.after (httpDownloadProcConnAction env p)) ↔
      Given p ∧ (Opens env p ∧ env.send.failed = false ∨
        ¬ Opens env p ∧ httpDownloadMaxErrConnCount ≤ p.errConnCount + 1) := by
  have hword := connAction_word env p
  have herror := connAction_lastError env p
  have hends : Ends (httpDownloadProcConnAction env p) := connAction_ends
  have hcount := connAction_errConnCount env p
  generalize httpDownloadProcConnAction env p = res at *
  obtain ⟨q, state⟩ := res
  dsimp only at hword herror hcount
  -- what holds is parked, whatever its error
  have parked : state = comFsmHoldState → q.lastError ≠ .errTryConn → ¬ Retries (s.after (q, state)) := by
    intro hhold herr hr
    subst hhold
    rw [retries_parked (by simpa [DownloadSys.after] using hs)] at hr
    exact herr hr.2.1
  by_cases hg : Given p
  swap
  · have hparam : (httpDownloadProcConn env p).1 = .errParam := by
      unfold httpDownloadProcConn
      rw [if_pos (by by_contra hno; exact hg ⟨fun h => hno (.inl h), fun h => hno (.inr h)⟩)]
    rw [hparam] at hword herror
    subst hword
    have hidle : (s.after (q, httpDownloadStaIdle)).curState = httpDownloadStaIdle := by
      rcases hs with hs | hs <;> simp [DownloadSys.after, hs]
      exact fun h => absurd h (by decide)
    refine iff_of_false (fun hr => ?_) fun h => hg h.1
    rw [retries_parked (.inl hidle)] at hr
    exact absurd (herror.symm.trans hr.2.1) (by decide)
  by_cases ho : Opens env p
  · rw [conn_of_opens hg ho] at hword herror
    cases hsend : env.send.failed with
    | true =>
      rw [hsend] at hword herror
      refine iff_of_false (parked hword ?_) ?_
      · rw [herror]; decide
      · rintro ⟨-, h | h⟩
        · exact absurd h.2 (by decide)
        · exact h.1 ho
    | false =>
      rw [hsend] at hword
      obtain rfl : state = httpDownloadStaRecv := hword
      have hrecv : (s.after (q, httpDownloadStaRecv)).curState = httpDownloadStaRecv := by
        rcases hs with hs | hs <;> rw [DownloadSys.after, hs] <;> rfl
      refine iff_of_true (.inl ?_) ⟨hg, .inl ⟨ho, rfl⟩⟩
      rw [hrecv]; rfl
  · rw [conn_of_not_opens hg ho, openClient_of_not_opens ho] at hword herror hcount
    dsimp only at hword herror hcount
    by_cases hlim : p.errConnCount + 1 ≥ httpDownloadMaxErrConnCount
    · rw [if_pos hlim] at hword herror
      obtain rfl : state = httpDownloadStaIdle := hword
      have hidle : (s.after (q, httpDownloadStaIdle)).curState = httpDownloadStaIdle := by
        rcases hs with hs | hs <;> rw [DownloadSys.after, hs] <;> rfl
      refine iff_of_true (.inr ⟨hidle, herror, hends.2 rfl, ?_⟩) ⟨hg, .inr ⟨ho, hlim⟩⟩
      exact hcount ▸ hlim
    · rw [if_neg hlim] at hword herror
      refine iff_of_false (parked hword ?_) ?_
      · rw [herror]; decide
      · rintro ⟨-, h | h⟩
        · exact ho h.1
        · exact hlim h.2

end

/-- **When a download is not parked.** After a START in IDLE it is exactly when the blocks could be
allocated, URL and buffer are there, the connection is made and the request goes out; after a RESUME in
PAUSE (without a STOP beside it), exactly when the same holds of connection and request or the connection
fails for the fifth time in a row. -/
theorem httpDownload_retries_iff (p : HttpDownloadProc cap) (env : HttpEnv) (start stop pause resume : Bool) :
    (Retries (DownloadSys.turn ⟨httpDownloadStaIdle, p⟩ env (downloadEvents true stop pause resume)) ↔
      (env.malloc 0 = true ∧ env.malloc 1 = true) ∧ Given p ∧ env.connect = .ok ∧ env.send.failed = false) ∧
    (Retries (DownloadSys.turn ⟨httpDownloadStaPause, p⟩ env (downloadEvents start false pause true)) ↔
      Given p ∧ (Opens env p ∧ env.send.failed = false ∨
        ¬ Opens env p ∧ httpDownloadMaxErrConnCount ≤ p.errConnCount + 1)) := by
  constructor
  · rw [turn_eq exit_downloadEvents, select_download idle_mem, if_pos ⟨rfl, rfl⟩]
    change Retries (DownloadSys.after ⟨httpDownloadStaIdle, p⟩ (httpDownloadProcStartAction env p)) ↔ _
    by_cases hm : env.malloc 0 = true ∧ env.malloc 1 = true
    · obtain ⟨q, hq, hopened, hcount, hgiven⟩ := startAction_eq (p := p) hm
      rw [hq, retries_connAction (.inl rfl), hgiven, hcount]
      have hopens : Opens env q ↔ env.connect = .ok := by simp [Opens, hopened]
      have hlim : ¬ httpDownloadMaxErrConnCount ≤ 0 + 1 := by decide
      simp only [hopens, hlim, and_false, or_false]
      exact ⟨fun h => ⟨hm, h⟩, fun h => h.2⟩
    · obtain ⟨hword, herror, -⟩ := startAction_of_not_malloc (p := p) hm
      refine iff_of_false (fun hr => ?_) fun h => hm h.1
      rw [retries_parked (.inl (by simp [DownloadSys.after, hword]))] at hr
      exact absurd (herror.symm.trans hr.2.1) (by decide)
  · rw [turn_eq exit_downloadEvents, select_download (.tail _ (.head _)), if_neg fun h => absurd h.2 (by decide),
      if_neg fun h => absurd h.1 (by decide), if_neg fun h => h.2.2 rfl, if_pos ⟨rfl, rfl⟩]
    exact retries_connAction (.inr rfl)

/-- A START whose first connect fails leaves the download in IDLE with `ERR_CONN`, and nothing tries again. -/
theorem httpDownload_refused_parks : ¬ Retries (DownloadSys.turn
    ⟨httpDownloadStaIdle, httpDownloadStartInner (.empty : Fifo Byte 4) (bytes "http://a/") true 0 httpDownloadInit⟩
    HttpEnv.refusing (downloadEvents true false false false)) := by
  rw [retries_parked (.inl (by decide))]
  intro h
  exact absurd h.2.1 (by decide)

end AudioPlayer

import Mathlib
import AudioPlayer.Lib.Steps
import AudioPlayer.HttpDownload.Process

/-!
# Runs of a download

A run starts with the turn that finds START and goes on with turns of the state machine, which may find a
pause, a resume, both or nothing, and with pops of the consumer. An action reads the buffer's fill once
before it acts on it, and a pop only makes more room, so a pop inside an action is one before or after it.

`Hands` is what `httpclient_recv_response` does with the replies a peer `answers`: it fails, or it hands
over the next 2048 bytes with `HTTPCLIENT_RETRIEVE_MORE_DATA`, or what is left (less than 2048 bytes, maybe
none) with `HTTPCLIENT_OK`.

`turn_cases` says which action a turn runs, `connAction_cases`, `recvPoll_cases` and `pushAction_cases` what
the actions come to; the invariants of runs are proved from these.
-/

namespace AudioPlayer
open Lib

variable {cap : Nat}

/-- The block a call hands over, the first of `rest`. -/
structure HandsBlock (p : HttpDownloadProc cap) (r : HttpReply) (rest : List Byte) (isRange : Bool) (rangeLen : Int)
    (env : HttpEnv) : Prop where
  ret     : env.recvRet = if 2048 ≤ rest.length then .retrieveMoreData else .ok
  conn    : env.recvConn = if 2048 ≤ rest.length then .answering r (rest.drop 2048) else .open
  block   : rest.take 2048 <+: env.recvData.responseBuf
  chunked : env.recvData.isChunked = r.chunked
  len     : env.recvData.responseContentLen = r.body.length ∨ r.chunked ∧ 2048 ≤ rest.length ∧
    (r.body.length : Int) - rest.length + 2048 ≤ env.recvData.responseContentLen ∧
    env.recvData.responseContentLen ≤ r.body.length
  ext     : ∃ ext, env.recvData.ext = some ext ∧ ext.isRange = isRange ∧ ext.rangeLen = rangeLen ∧
    ext.location = p.ext.location

/-- What a call may come back with: of a chunked body it knows the length of the chunks it has begun. -/
inductive Hands (answers : HttpRequest → HttpReply → Prop) (p : HttpDownloadProc cap) (env : HttpEnv) : Prop
  | failed : env.recvRet.failed → (env.recvData.ext.getD {}).location = p.ext.location → Hands answers p env
  | first {req r} : p.client = .asked req → answers req r →
      HandsBlock p r r.body r.isRange r.rangeLen env → Hands answers p env
  | next {r rest} : p.client = .answering r rest →
      HandsBlock p r rest p.ext.isRange p.ext.rangeLen env → Hands answers p env

/-- The state machine's state beside the process it drives. -/
structure DownloadSys (cap : Nat) where
  curState : Word
  proc     : HttpDownloadProc cap
deriving DecidableEq

inductive DownloadAct
  | turn (pause resume : Bool) (env : HttpEnv)
  | pop (n : Nat)

/-- The set that holds these requests. -/
def downloadEvents (start stop pause resume : Bool) : Word :=
  (if start then httpDownloadEventStart else 0) ||| (if stop then httpDownloadEventStop else 0) |||
    (if pause then httpDownloadEventPause else 0) ||| (if resume then httpDownloadEventResume else 0)

/-- One turn of `com_fsm_task` on the set `E`. -/
def DownloadSys.turn (s : DownloadSys cap) (env : HttpEnv) (E : Word) : DownloadSys cap :=
  let (state, proc, _) := comFsmDispatch (httpDownloadExec env) httpDownloadLookup s.curState s.proc E
  ⟨state, proc⟩

/-- The consumer takes up to `n` bytes out of `http_buffer`. -/
def HttpDownloadProc.pop (p : HttpDownloadProc cap) (n : Nat) : HttpDownloadProc cap :=
  { p with httpBuffer := p.httpBuffer.map fun b => { b with queue := (b.queue.pop n).2 } }

/-- A step of a run; allocations succeed. -/
inductive DownloadStep (answers : HttpRequest → HttpReply → Prop) :
    DownloadSys cap → DownloadAct → DownloadSys cap → Prop
  | turn {s pause resume env} : (∀ k, env.malloc k) → Hands answers s.proc env →
      DownloadStep answers s (.turn pause resume env) (s.turn env (downloadEvents false false pause resume))
  | pop {s n} : DownloadStep answers s (.pop n) { s with proc := s.proc.pop n }

/-- The state after the first turn of a download from `seekPos`; `p` is what an earlier one left. -/
def DownloadSys.started (queue : Fifo Byte cap) (url : List Byte) (rangeEnable : Bool) (seekPos : Int)
    (p : HttpDownloadProc cap) (pause resume : Bool) (env : HttpEnv) : DownloadSys cap :=
  DownloadSys.turn ⟨httpDownloadStaIdle, httpDownloadStartInner queue url rangeEnable seekPos p⟩ env
    (downloadEvents true false pause resume)

/-- Every call succeeds, except that nothing is received. -/
def HttpEnv.accepting : HttpEnv where
  malloc := fun _ => true
  connect := .ok
  send := .ok
  recvRet := .errorConn
  recvData := { responseBufLen := 2049, ext := some {} }
  recvConn := .closed
  urlRest := []

/-- The peer refuses the connection. -/
def HttpEnv.refusing : HttpEnv := { HttpEnv.accepting with connect := .errorConn }

/-! ## Which action a turn runs -/

/-- What `com_fsm_task` makes of an action's result. -/
def DownloadSys.after (s : DownloadSys cap) (res : HttpDownloadProc cap × Word) : DownloadSys cap :=
  ⟨if res.2 ≠ comFsmHoldState ∧ res.2 ≠ s.curState then res.2 else s.curState, res.1⟩

/-- What a turn in one of the states of a download does. -/
inductive Turn (s : DownloadSys cap) (env : HttpEnv) (pause resume : Bool) : DownloadSys cap → Prop
  | idle : s.curState = httpDownloadStaIdle → Turn s env pause resume s
  | stay : s.curState = httpDownloadStaPause → resume = false → Turn s env pause resume s
  | resume : s.curState = httpDownloadStaPause → resume = true →
      Turn s env pause resume (s.after (httpDownloadProcConnAction env s.proc))
  | pause : s.curState ≠ httpDownloadStaIdle → s.curState ≠ httpDownloadStaPause → pause = true →
      Turn s env pause resume (s.after (httpDownloadProcPauseAction s.proc))
  | recv : s.curState = httpDownloadStaRecv → pause = false →
      Turn s env pause resume (s.after (httpDownloadProcRecvPoll env s.proc))
  | waitFree : s.curState = httpDownloadStaWaitFree → pause = false →
      Turn s env pause resume (s.after (httpDownloadProcWaitFreePoll s.proc))
  | waitRange : s.curState = httpDownloadStaWaitRange → pause = false →
      Turn s env pause resume (s.after (httpDownloadProcWaitRangePoll env s.proc))

/-- The states of a download; no action leads to `HTTP_DOWNLOAD_STA_CONN`. -/
def downloadStates : List Word :=
  [httpDownloadStaIdle, httpDownloadStaPause, httpDownloadStaRecv, httpDownloadStaWaitFree, httpDownloadStaWaitRange]

/-- The action for a state and a set. -/
def httpDownloadSelect (state E : Word) : Option HttpDownloadAction :=
  (comFsmSelect httpDownloadLookup state E).map ComFsmLookup.action

section
variable {s : DownloadSys cap} {env : HttpEnv} {start stop pause resume : Bool} {E : Word}

theorem turn_eq (hx : comFsmEventExit &&& E = 0) : s.turn env E =
    match httpDownloadSelect s.curState E with
    | none => s
    | some a => s.after (httpDownloadExec env a s.proc) := by
  simp only [DownloadSys.turn, comFsmDispatch, httpDownloadSelect, hx, ne_eq, not_true, if_false]
  cases comFsmSelect httpDownloadLookup s.curState E with
  | none => rfl
  | some l => rfl

theorem exit_downloadEvents : comFsmEventExit &&& downloadEvents start stop pause resume = 0 := by
  cases start <;> cases stop <;> cases pause <;> cases resume <;> rfl

/-- A start counts in IDLE, a stop outside it, a pause outside IDLE and PAUSE, a resume in PAUSE, in this
order; without any that counts the state's poll runs. -/
theorem select_download {state : Word} (hs : state ∈ downloadStates) :
    httpDownloadSelect state (downloadEvents start stop pause resume) =
      if start ∧ state = httpDownloadStaIdle then some .start
      else if stop ∧ state ≠ httpDownloadStaIdle then some .stop
      else if pause ∧ state ≠ httpDownloadStaIdle ∧ state ≠ httpDownloadStaPause then some .pause
      else if resume ∧ state = httpDownloadStaPause then some .conn
      else httpDownloadSelect state comFsmEventNone := by
  simp only [downloadStates, List.mem_cons, List.not_mem_nil, or_false] at hs
  rcases hs with rfl | rfl | rfl | rfl | rfl <;> cases start <;> cases stop <;> cases pause <;> cases resume <;> rfl

theorem turn_cases (hs : s.curState ∈ downloadStates) :
    Turn s env pause resume (s.turn env (downloadEvents false false pause resume)) := by
  rw [turn_eq exit_downloadEvents, select_download hs, if_neg (by simp), if_neg (by simp)]
  by_cases hp : pause = true ∧ s.curState ≠ httpDownloadStaIdle ∧ s.curState ≠ httpDownloadStaPause
  · rw [if_pos hp]
    exact .pause hp.2.1 hp.2.2 hp.1
  rw [if_neg hp]
  by_cases hr : resume = true ∧ s.curState = httpDownloadStaPause
  · rw [if_pos hr]
    exact .resume hr.2 hr.1
  rw [if_neg hr]
  obtain ⟨state, p⟩ := s
  simp only [downloadStates, List.mem_cons, List.not_mem_nil, or_false] at hs
  rcases hs with rfl | rfl | rfl | rfl | rfl
  · exact .idle rfl
  · exact .stay rfl (by simpa using hr)
  · exact .recv rfl (by simpa [httpDownloadStaRecv, httpDownloadStaIdle, httpDownloadStaPause] using hp)
  · exact .waitFree rfl (by simpa [httpDownloadStaWaitFree, httpDownloadStaIdle, httpDownloadStaPause] using hp)
  · exact .waitRange rfl (by simpa [httpDownloadStaWaitRange, httpDownloadStaIdle, httpDownloadStaPause] using hp)

/-- The first turn runs the start action. -/
theorem started_eq (queue : Fifo Byte cap) (url : List Byte) (rangeEnable : Bool) (seekPos : Int)
    (p : HttpDownloadProc cap) : DownloadSys.started queue url rangeEnable seekPos p pause resume env =
    DownloadSys.after ⟨httpDownloadStaIdle, httpDownloadStartInner queue url rangeEnable seekPos p⟩
      (httpDownloadProcStartAction env (httpDownloadStartInner queue url rangeEnable seekPos p)) := by
  rw [DownloadSys.started, turn_eq exit_downloadEvents, select_download (by simp [downloadStates])]
  rfl

end

end AudioPlayer

import Mathlib
import AudioPlayer.CommonFsm
import AudioPlayer.Lib.CInt
import AudioPlayer.Lib.Fifo
import AudioPlayer.Httpclient.Retrieve

/-!
# The download state machine (`utils/http_download_process.c`)

| here | there |
| --- | --- |
| `HttpDownloadProc`        | `http_download_proc_t` (`http_download_process.h:58-88`), less what only the log reads |
| `httpDownloadProcStart`, `…Stop`, `…Conn`, `…Recv`, `…PushData` | `:78`, `:113`, `:132`, `:213`, `:340` |
| `httpDownloadWaitFree`, `httpDownloadWaitRange` | `:390`, `:401` |
| `httpDownloadProc…Action`, `httpDownloadProc…Poll` | `:411-544`, the new state beside the process |
| `httpDownloadLookup`      | the table of `http_download_init` (`:548-565`) |
| `HttpEnv`                 | what `httpclient_connect`, `…send_request`, `…recv_response` and `malloc` answer in one action |

`client_data.ext` and `client_data_ext` point to one block, and so do `client_data.response_buf` and
`recv_buf`: the process keeps the blocks (`none` for `NULL`), and `clientData` is what the last call was
given and left. `http_buffer` is the queue that `common_buffer.c` implements as long as its counts are `int`s, that is
with a capacity below 2^30. A sum of `int`s that overflows is undefined; `toI32` gives it the value that the build has
for it, and `RangeOk` counts it as wrong.

`client` is the connection as its peer sees it: what it was asked, or which of its replies is under way.
No function reads it; only closing, connecting, sending and receiving change it.
-/

namespace AudioPlayer
open Lib

/-- `http_download_proc_return_t`. -/
inductive HttpDownloadProcReturn
  | success | allEnd | rangeEnd | redirect | errParam | errMalloc | errConn | errTryConn | errSend | errRecv
  | errRecvSkip | errResponse | errBufTooSmall | errTryRecv | errTimeout | errDownloadFailed
  | errDownloadPause
deriving DecidableEq, Repr

def httpDownloadStaIdle      : Word := 0#32
def httpDownloadStaPause     : Word := 1#32
def httpDownloadStaConn      : Word := 2#32
def httpDownloadStaRecv      : Word := 3#32
def httpDownloadStaWaitFree  : Word := 5#32
def httpDownloadStaWaitRange : Word := 6#32

def httpDownloadEventStart  : Word := 1#32
def httpDownloadEventStop   : Word := 2#32
def httpDownloadEventPause  : Word := 4#32
def httpDownloadEventResume : Word := 8#32

def httpDownloadMaxErrConnCount : Nat := 5
def httpDownloadMaxErrRecvCount : Nat := 15
def httpDownloadRecvBufSize : Nat := 2049

/-- The code is below zero. -/
def HttpclientResult.failed : HttpclientResult → Bool
  | .ok | .retrieveMoreData => false
  | _ => true

/-- A GET as it goes out: the first and last byte asked for and the `If-Range` field. -/
structure HttpRequest where
  range   : Option (Nat × Option Nat) := none
  ifRange : Option (List Byte) := none
deriving DecidableEq, Repr

/-- `httpclient_send_header` on `begin`, `end` and `if_range` (`httpclient.c:408-430`): without a positive
`end` the range is open. -/
def httpclientRangeRequest (first last : Int) (ifRange : Option (List Byte)) : HttpRequest :=
  if 0 ≤ first then ⟨some (first.toNat, if 0 < last then some last.toNat else none), ifRange⟩ else {}

/-- A reply: its status, whether an `Accept-Ranges` or `Content-Range` field is in its head, the complete
length its `Content-Range` gives (else 0), how the body is framed, and the body. -/
structure HttpReply where
  status   : Nat
  isRange  : Bool
  rangeLen : Int
  chunked  : Bool
  body     : List Byte
deriving DecidableEq, Repr

/-- A connection: nothing asked, a request without a reply, or `rest` still to be handed over. -/
inductive HttpConn
  | closed
  | open
  | asked (req : HttpRequest)
  | answering (reply : HttpReply) (rest : List Byte)
deriving DecidableEq, Repr

/-- `common_buffer_t` as the queue it is, and all that was ever pushed into it since START. -/
structure HttpBuffer (cap : Nat) where
  queue  : Fifo Byte cap
  pushed : List Byte := []
deriving DecidableEq

/-- `http_download_proc_t`. -/
structure HttpDownloadProc (cap : Nat) where
  url            : Option (List Byte)
  httpBuffer     : Option (HttpBuffer cap)
  client         : HttpConn
  clientData     : HttpclientData
  clientDataExt  : Option HttpclientDataExt
  httpOpened     : Bool
  errConnCount   : Nat
  errRecvCount   : Nat
  recvBuf        : Option (List Byte)
  recvLen        : Int
  readPos        : Int
  preDownloadPos : Int
  curDownloadPos : Int
  rangeEnable    : Bool
  rangeForecast  : Bool
  rangeEnd       : Int
  closeIfRangEnd : Bool
  redirect       : Bool
  isChunked      : Bool
  lengthReceived : Bool
  totalLength    : Int
  httpRet        : HttpclientResult
  lastError      : HttpDownloadProcReturn
deriving DecidableEq

/-- What the calls of one action answer; `urlRest` is what the block after a copied `location` held. -/
structure HttpEnv where
  malloc   : Nat → Bool
  connect  : HttpclientResult
  send     : HttpclientResult
  recvRet  : HttpclientResult
  recvData : HttpclientData
  recvConn : HttpConn
  urlRest  : List Byte

variable {cap : Nat}

namespace HttpDownloadProc

/-- `*client_data_ext` -/
def ext (p : HttpDownloadProc cap) : HttpclientDataExt := p.clientDataExt.getD {}

/-- `common_buffer_get_free_count(http_buffer)` -/
def freeCount (p : HttpDownloadProc cap) : Int := (p.httpBuffer.map fun b => b.queue.free).getD 0

/-- `common_buffer_get_count(http_buffer)` -/
def count (p : HttpDownloadProc cap) : Int := (p.httpBuffer.map fun b => b.queue.items.length).getD 0

/-- All bytes pushed since START. -/
def pushed (p : HttpDownloadProc cap) : List Byte := (p.httpBuffer.map HttpBuffer.pushed).getD []

/-- `recv_buf[read_pos .. recv_len)` -/
def unread (p : HttpDownloadProc cap) : List Byte :=
  ((p.recvBuf.getD []).drop p.readPos.toNat).take (p.recvLen - p.readPos).toNat

end HttpDownloadProc

/-- `common_buffer_push`: all of it or nothing. -/
def HttpBuffer.push (b : HttpBuffer cap) (bs : List Byte) : HttpBuffer cap :=
  match b.queue.push? bs with
  | some queue => ⟨queue, b.pushed ++ bs⟩
  | none => b

/-- `http_download_proc_url_preprocess` (`:18-34`): "https" loses its `s`, in a URL of 2048 bytes or more at
the cost of the byte that follows the moved ones. -/
def httpDownloadProcUrlPreprocess (url : List Byte) : List Byte :=
  if caseEq (url.take 5) (bytes "https") then
    if url.length < 2048 then url.eraseIdx 4 else url.take 4 ++ ((url.drop 5).take 2043 ++ url.drop 2047)
  else url

/-- `http_download_proc_open_client` (`:36-66`). -/
def httpDownloadProcOpenClient (env : HttpEnv) (p : HttpDownloadProc cap) :
    HttpDownloadProcReturn × HttpDownloadProc cap :=
  if p.httpOpened then (.success, p)
  else if env.connect ≠ .ok then
    (if p.errConnCount + 1 ≥ httpDownloadMaxErrConnCount then .errTryConn else .errConn,
      { p with url := p.url.map httpDownloadProcUrlPreprocess, client := .closed, errConnCount := p.errConnCount + 1 })
  else
    (.success,
      { p with url := p.url.map httpDownloadProcUrlPreprocess, client := .open, httpOpened := true, errConnCount := 0 })

/-- `http_download_proc_close_client` (`:68-76`). -/
def httpDownloadProcCloseClient (p : HttpDownloadProc cap) : HttpDownloadProc cap :=
  if p.httpOpened then { p with client := .closed, httpOpened := false } else p

/-- `http_download_proc_start` (`:78-111`). -/
def httpDownloadProcStart (env : HttpEnv) (p : HttpDownloadProc cap) :
    HttpDownloadProcReturn × HttpDownloadProc cap :=
  if !env.malloc 0 then (.errMalloc, { p with recvBuf := none })
  else if !env.malloc 1 then (.errMalloc, { p with recvBuf := some [], clientDataExt := none })
  else
    (.success,
      { p with
        recvBuf := some (List.replicate httpDownloadRecvBufSize 0)
        clientDataExt := some {}
        totalLength := if p.preDownloadPos ≤ 0 then -1 else p.totalLength
        lengthReceived := if p.preDownloadPos ≤ 0 then false else p.lengthReceived
        errConnCount := 0
        errRecvCount := 0
        redirect := false
        isChunked := false
        httpOpened := false
        httpRet := .ok
        rangeForecast := p.rangeEnable
        closeIfRangEnd := false })

/-- `http_download_proc_stop` (`:113-130`). -/
def httpDownloadProcStop (p : HttpDownloadProc cap) : HttpDownloadProc cap :=
  let p := httpDownloadProcCloseClient p
  { p with clientDataExt := none, recvBuf := none }

/-- How many bytes the next range asks for (`:159-177`). -/
def httpDownloadRangeCount (p : HttpDownloadProc cap) : Int :=
  if p.lengthReceived then
    if p.freeCount > p.totalLength - p.preDownloadPos then p.totalLength - p.preDownloadPos else p.freeCount
  else if p.rangeForecast then p.freeCount
  else 1024

/-- The request (`:157-204`), and the `range_end` that goes with it. -/
def httpDownloadRequest (p : HttpDownloadProc cap) : HttpRequest × Int :=
  if p.rangeEnable then
    let ifRange := if p.ext.isRange ∧ p.ext.ifRange ≠ [] then some p.ext.ifRange else none
    let rangeEnd := toI32 (p.preDownloadPos + httpDownloadRangeCount p)
    (httpclientRangeRequest p.preDownloadPos (toI32 (rangeEnd - 1)) ifRange, rangeEnd)
  else ({}, p.rangeEnd)

/-- `http_download_proc_conn` (`:132-211`). -/
def httpDownloadProcConn (env : HttpEnv) (p : HttpDownloadProc cap) :
    HttpDownloadProcReturn × HttpDownloadProc cap :=
  if p.url = none ∨ p.httpBuffer = none then (.errParam, p)
  else
    match httpDownloadProcOpenClient env p with
    | (.success, p) =>
      let clientDataExt := p.clientDataExt.map fun ext => { ext with remainData := [] }
      let clientData :=
        { responseBufLen := httpDownloadRecvBufSize, responseBuf := p.recvBuf.getD [], ext := clientDataExt }
      let (req, rangeEnd) := httpDownloadRequest p
      let p := { p with clientData, clientDataExt, curDownloadPos := 0, rangeEnd, httpRet := env.send }
      if env.send.failed then (.errSend, p) else (.success, { p with client := .asked req })
    | (ret, p) => (ret, p)

/-- The bookkeeping for a block that is not thrown away: the total length, the length of the block and
where in the resource it belongs (`:288-337`). -/
def httpDownloadProcRecvBlock (p : HttpDownloadProc cap) : HttpDownloadProcReturn × HttpDownloadProc cap :=
  let len := p.clientData.responseContentLen
  let p : HttpDownloadProc cap :=
    if p.clientData.isChunked then { p with isChunked := true, totalLength := len }
    else if p.lengthReceived then p
    else
      { p with
        totalLength := if p.ext.isRange ∧ 0 < p.ext.rangeLen then p.ext.rangeLen else len
        lengthReceived := true }
  let recvLen := if p.httpRet = .retrieveMoreData then 2048 else len.tmod 2048
  let p : HttpDownloadProc cap :=
    if p.ext.isRange then
      { p with recvLen, readPos := 0, curDownloadPos := max p.curDownloadPos p.preDownloadPos }
    else
      let count := min (p.preDownloadPos - p.curDownloadPos) recvLen
      { p with recvLen, readPos := count, curDownloadPos := toI32 (p.curDownloadPos + count) }
  if p.readPos ≥ p.recvLen then (.errRecvSkip, p) else (.success, p)

/-- `http_download_proc_recv` (`:213-338`). -/
def httpDownloadProcRecv (env : HttpEnv) (p : HttpDownloadProc cap) :
    HttpDownloadProcReturn × HttpDownloadProc cap :=
  let p := { p with
    httpRet := env.recvRet
    clientData := env.recvData
    clientDataExt := env.recvData.ext
    recvBuf := some env.recvData.responseBuf
    client := env.recvConn }
  if env.recvRet.failed then
    let p := if env.recvRet ≠ .errorConn then { p with errRecvCount := p.errRecvCount + 1 } else p
    (if p.errRecvCount ≥ httpDownloadMaxErrRecvCount then .errTryRecv else .errRecv, p)
  else if !p.redirect && p.ext.location ≠ [] then
    -- `strncpy` copies no NUL
    if env.malloc 0 then (.redirect, { p with url := some (p.ext.location ++ env.urlRest), redirect := true })
    else (.errMalloc, { p with url := none })
  else if p.clientData.responseContentLen ≤ 0 then
    (if p.errRecvCount + 1 ≥ httpDownloadMaxErrRecvCount then .errResponse else .errRecv,
      { p with closeIfRangEnd := true, errRecvCount := p.errRecvCount + 1 })
  else if !p.rangeEnable then
    httpDownloadProcRecvBlock { p with clientDataExt := p.clientDataExt.map fun ext => { ext with isRange := false } }
  else if p.rangeForecast && !p.ext.isRange then (.errRecv, { p with rangeForecast := false })
  else httpDownloadProcRecvBlock p

/-- `http_download_proc_push_data` (`:340-388`). -/
def httpDownloadProcPushData (p : HttpDownloadProc cap) : HttpDownloadProcReturn × HttpDownloadProc cap :=
  let len := p.recvLen - p.readPos
  if p.freeCount < len then (.errBufTooSmall, p)
  else
    let p := { p with
      httpBuffer := p.httpBuffer.map fun b => b.push p.unread
      preDownloadPos := toI32 (p.preDownloadPos + len)
      curDownloadPos := toI32 (p.curDownloadPos + len)
      readPos := p.readPos + len }
    if !p.ext.isRange && p.httpRet ≠ .retrieveMoreData then (.allEnd, p)
    else if !p.isChunked && p.preDownloadPos ≥ p.totalLength then (.allEnd, p)
    else if p.ext.isRange && p.preDownloadPos ≥ p.rangeEnd then (.rangeEnd, p)
    else (.success, p)

/-- `http_download_wait_free` (`:390-399`). -/
def httpDownloadWaitFree (p : HttpDownloadProc cap) : HttpDownloadProcReturn :=
  if p.freeCount < p.recvLen - p.readPos then .errBufTooSmall else .success

/-- `http_download_wait_range` (`:401-408`). -/
def httpDownloadWaitRange (p : HttpDownloadProc cap) : HttpDownloadProcReturn :=
  if p.freeCount ≤ p.count then .errBufTooSmall else .success

/-! ## The actions -/

/-- `http_download_proc_conn_action` (`:411-429`). -/
def httpDownloadProcConnAction (env : HttpEnv) (p : HttpDownloadProc cap) : HttpDownloadProc cap × Word :=
  let (ret, p) := httpDownloadProcConn env p
  let p := { p with lastError := ret }
  if ret = .success then (p, httpDownloadStaRecv)
  else if ret = .errTryConn ∨ ret = .errParam then (httpDownloadProcStop p, httpDownloadStaIdle)
  else (httpDownloadProcCloseClient p, comFsmHoldState)

/-- `http_download_proc_push_action` (`:431-458`). -/
def httpDownloadProcPushAction (p : HttpDownloadProc cap) : HttpDownloadProc cap × Word :=
  let (ret, p) := httpDownloadProcPushData p
  let p := { p with lastError := ret }
  if ret = .success then (p, httpDownloadStaRecv)
  else if ret = .errBufTooSmall then (p, httpDownloadStaWaitFree)
  else if ret = .rangeEnd then
    (if p.closeIfRangEnd then httpDownloadProcCloseClient p else p, httpDownloadStaWaitRange)
  else (httpDownloadProcStop p, httpDownloadStaIdle)

/-- `http_download_proc_start_action` (`:460-472`). -/
def httpDownloadProcStartAction (env : HttpEnv) (p : HttpDownloadProc cap) : HttpDownloadProc cap × Word :=
  let (ret, p) := httpDownloadProcStart env p
  let p := { p with lastError := ret }
  if ret = .success then httpDownloadProcConnAction env p
  else (httpDownloadProcStop p, comFsmHoldState)

/-- `http_download_proc_stop_action` (`:474-483`). -/
def httpDownloadProcStopAction (p : HttpDownloadProc cap) : HttpDownloadProc cap × Word :=
  (httpDownloadProcStop { p with lastError := .success }, httpDownloadStaIdle)

/-- `http_download_proc_pause_action` (`:485-493`). -/
def httpDownloadProcPauseAction (p : HttpDownloadProc cap) : HttpDownloadProc cap × Word :=
  (httpDownloadProcCloseClient p, httpDownloadStaPause)

/-- `http_download_proc_recv_poll` (`:495-518`). -/
def httpDownloadProcRecvPoll (env : HttpEnv) (p : HttpDownloadProc cap) : HttpDownloadProc cap × Word :=
  let (ret, p) := httpDownloadProcRecv env p
  let p := { p with lastError := ret }
  if ret = .success then httpDownloadProcPushAction p
  else if ret = .errRecvSkip then (p, comFsmHoldState)
  else if ret = .errRecv ∨ ret = .redirect then httpDownloadProcConnAction env (httpDownloadProcCloseClient p)
  else (httpDownloadProcStop p, httpDownloadStaIdle)

/-- `http_download_proc_wait_free_poll` (`:520-531`). -/
def httpDownloadProcWaitFreePoll (p : HttpDownloadProc cap) : HttpDownloadProc cap × Word :=
  let p := { p with lastError := httpDownloadWaitFree p }
  if p.lastError = .success then httpDownloadProcPushAction p else (p, comFsmHoldState)

/-- `http_download_proc_wait_range_poll` (`:533-544`). -/
def httpDownloadProcWaitRangePoll (env : HttpEnv) (p : HttpDownloadProc cap) : HttpDownloadProc cap × Word :=
  let p := { p with lastError := httpDownloadWaitRange p }
  if p.lastError = .success then httpDownloadProcConnAction env p else (p, comFsmHoldState)

/-- The actions of the table, by name. -/
inductive HttpDownloadAction
  | start | stop | pause | conn | recvPoll | waitFreePoll | waitRangePoll
deriving DecidableEq, Repr

def httpDownloadExec (env : HttpEnv) : HttpDownloadAction → HttpDownloadProc cap → HttpDownloadProc cap × Word
  | .start => httpDownloadProcStartAction env
  | .stop => httpDownloadProcStopAction
  | .pause => httpDownloadProcPauseAction
  | .conn => httpDownloadProcConnAction env
  | .recvPoll => httpDownloadProcRecvPoll env
  | .waitFreePoll => httpDownloadProcWaitFreePoll
  | .waitRangePoll => httpDownloadProcWaitRangePoll env

/-- `lookup` of `http_download_init`; a tick is a millisecond. -/
def httpDownloadLookup : List (ComFsmLookup HttpDownloadAction) := [
  { event := httpDownloadEventStart,  state := httpDownloadStaIdle,      action := .start },
  { event := httpDownloadEventStop,   state := httpDownloadStaPause,     action := .stop },
  { event := httpDownloadEventStop,   state := httpDownloadStaConn,      action := .stop },
  { event := httpDownloadEventStop,   state := httpDownloadStaRecv,      action := .stop },
  { event := httpDownloadEventStop,   state := httpDownloadStaWaitFree,  action := .stop },
  { event := httpDownloadEventStop,   state := httpDownloadStaWaitRange, action := .stop },
  { event := httpDownloadEventPause,  state := httpDownloadStaConn,      action := .pause },
  { event := httpDownloadEventPause,  state := httpDownloadStaRecv,      action := .pause },
  { event := httpDownloadEventPause,  state := httpDownloadStaWaitFree,  action := .pause },
  { event := httpDownloadEventPause,  state := httpDownloadStaWaitRange, action := .pause },
  { event := httpDownloadEventResume, state := httpDownloadStaPause,     action := .conn },
  { event := comFsmEventNone, state := httpDownloadStaConn,      action := .conn,          timeout := 500#32 },
  { event := comFsmEventNone, state := httpDownloadStaRecv,      action := .recvPoll,      timeout := 0#32 },
  { event := comFsmEventNone, state := httpDownloadStaWaitFree,  action := .waitFreePoll,  timeout := 100#32 },
  { event := comFsmEventNone, state := httpDownloadStaWaitRange, action := .waitRangePoll, timeout := 100#32 } ]

/-- `http_download_init` (`:567-570`): everything zero but `range_enable`. -/
def httpDownloadInit : HttpDownloadProc cap where
  url := none
  httpBuffer := none
  client := .closed
  clientData := { responseBufLen := 0, ext := none }
  clientDataExt := none
  httpOpened := false
  errConnCount := 0
  errRecvCount := 0
  recvBuf := none
  recvLen := 0
  readPos := 0
  preDownloadPos := 0
  curDownloadPos := 0
  rangeEnable := true
  rangeForecast := false
  rangeEnd := 0
  closeIfRangEnd := false
  redirect := false
  isChunked := false
  lengthReceived := false
  totalLength := 0
  httpRet := .ok
  lastError := .success

/-- `http_download_start_inner` up to the START event (`:607-619`), on a buffer that holds `queue`. -/
def httpDownloadStartInner (queue : Fifo Byte cap) (url : List Byte) (rangeEnable : Bool) (seekPos : Int)
    (p : HttpDownloadProc cap) : HttpDownloadProc cap :=
  { p with
    url := some url
    httpBuffer := some { queue }
    lastError := .success
    rangeEnable
    preDownloadPos := seekPos }

end AudioPlayer

import Mathlib
import AudioPlayer.HttpDownload.Run

/-!
# What the actions of a download come to

Each action is read once: what the process may be afterwards and in which state, with the fields the
invariants of runs speak of. `SameData` is the frame of everything that only connects and closes.

| here | there |
| --- | --- |
| `ConnOutcome`, `connAction_cases` | `http_download_proc_conn_action` (`http_download_process.c:411-429`) |
| `RecvOutcome`, `recvPoll_cases`   | `http_download_proc_recv_poll` (`:495-518`) |
| `PushOutcome`, `pushAction_cases` | `http_download_proc_push_action` (`:431-458`) |
| `Filed`, `Took`                   | the bookkeeping for a block (`:288-337`), from its head and from the reply it is part of |
-/

namespace AudioPlayer
open Lib

variable {cap : Nat}

/-- The next byte asked for is the one at `pre_download_pos`. -/
def HttpDownloadProc.Asks (p : HttpDownloadProc cap) (req : HttpRequest) : Prop :=
  req.range = none ∨ p.rangeEnable = true ∧ ∃ last, req.range = some (p.preDownloadPos.toNat, last)

/-- What connecting and closing leave alone. -/
structure SameData (p q : HttpDownloadProc cap) : Prop where
  httpBuffer     : q.httpBuffer = p.httpBuffer
  preDownloadPos : q.preDownloadPos = p.preDownloadPos
  rangeEnable    : q.rangeEnable = p.rangeEnable
  isChunked      : q.isChunked = p.isChunked
  lengthReceived : q.lengthReceived = p.lengthReceived
  totalLength    : q.totalLength = p.totalLength
  location       : p.ext.location = [] → q.ext.location = []

namespace SameData
variable {p q r : HttpDownloadProc cap} {env : HttpEnv}

theorem refl (p : HttpDownloadProc cap) : SameData p p := ⟨rfl, rfl, rfl, rfl, rfl, rfl, id⟩

theorem trans (h1 : SameData p q) (h2 : SameData q r) : SameData p r :=
  ⟨h2.httpBuffer.trans h1.httpBuffer, h2.preDownloadPos.trans h1.preDownloadPos,
    h2.rangeEnable.trans h1.rangeEnable, h2.isChunked.trans h1.isChunked,
    h2.lengthReceived.trans h1.lengthReceived, h2.totalLength.trans h1.totalLength, h2.location ∘ h1.location⟩

theorem closeClient (p : HttpDownloadProc cap) : SameData p (httpDownloadProcCloseClient p) := by
  unfold httpDownloadProcCloseClient
  split
  · exact ⟨rfl, rfl, rfl, rfl, rfl, rfl, id⟩
  · exact refl p

theorem stop (p : HttpDownloadProc cap) : SameData p (httpDownloadProcStop p) := by
  have h := closeClient p
  exact ⟨h.httpBuffer, h.preDownloadPos, h.rangeEnable, h.isChunked, h.lengthReceived, h.totalLength, fun _ => rfl⟩

theorem lastError (h : SameData p q) (ret : HttpDownloadProcReturn) : SameData p { q with lastError := ret } :=
  ⟨h.httpBuffer, h.preDownloadPos, h.rangeEnable, h.isChunked, h.lengthReceived, h.totalLength, h.location⟩

theorem openClient : SameData p (httpDownloadProcOpenClient env p).2 := by
  unfold httpDownloadProcOpenClient
  split
  · exact refl p
  · split <;> exact ⟨rfl, rfl, rfl, rfl, rfl, rfl, id⟩

end SameData

/-- What the connect action comes to: the request is out, the download is given up, or the next turn tries
again. -/
inductive ConnOutcome (p : HttpDownloadProc cap) : HttpDownloadProc cap × Word → Prop
  | sent {q req} : SameData p q → q.lastError = .success → q.curDownloadPos = 0 → q.client = .asked req →
      p.Asks req → ConnOutcome p (q, httpDownloadStaRecv)
  | gaveUp {q} : SameData p q → q.lastError ≠ .allEnd → ConnOutcome p (q, httpDownloadStaIdle)
  | held {q} : SameData p q → q.lastError ≠ .allEnd → q.client = .closed → ConnOutcome p (q, comFsmHoldState)

section
variable {p : HttpDownloadProc cap} {env : HttpEnv}

/-- Every request that is made asks from `pre_download_pos` on, or for everything. -/
theorem asks_request (p : HttpDownloadProc cap) : p.Asks (httpDownloadRequest p).1 := by
  unfold httpDownloadRequest
  split
  · rename_i hr
    dsimp only
    unfold httpclientRangeRequest
    split
    · exact .inr ⟨hr, _, rfl⟩
    · exact .inl rfl
  · exact .inl rfl

/-- A closed connection after `httpclient_connect` or `httpclient_send_request` has failed. -/
theorem closed_openClient (h : (httpDownloadProcOpenClient env p).1 ≠ .success) :
    (httpDownloadProcCloseClient (httpDownloadProcOpenClient env p).2).client = .closed := by
  unfold httpDownloadProcOpenClient at h ⊢
  split
  · rename_i ho
    rw [if_pos ho] at h
    exact absurd rfl h
  · rename_i ho
    rw [if_neg ho] at h
    split
    · unfold httpDownloadProcCloseClient
      rw [if_neg (by simpa using ho)]
    · rename_i hc
      rw [if_neg hc] at h
      exact absurd rfl h

theorem opened_openClient (h : (httpDownloadProcOpenClient env p).1 = .success) :
    (httpDownloadProcOpenClient env p).2.httpOpened = true := by
  unfold httpDownloadProcOpenClient at h ⊢
  split
  · rename_i ho
    exact ho
  · rename_i ho
    rw [if_neg ho] at h
    split
    · rename_i hc
      rw [if_pos hc] at h
      dsimp only at h
      split at h <;> cases h
    · rfl

/-- What `http_download_proc_conn` answers when it does not connect. -/
theorem openClient_ret (h : (httpDownloadProcOpenClient env p).1 ≠ .success) :
    (httpDownloadProcOpenClient env p).1 = .errTryConn ∨ (httpDownloadProcOpenClient env p).1 = .errConn := by
  unfold httpDownloadProcOpenClient at h ⊢
  split
  · rename_i ho
    rw [if_pos ho] at h
    exact absurd rfl h
  · split
    · dsimp only
      split
      · exact .inl rfl
      · exact .inr rfl
    · rename_i ho hc
      rw [if_neg ho, if_neg hc] at h
      exact absurd rfl h

/-- The connect action from what `http_download_proc_conn` answers. -/
theorem connAction_of {ret : HttpDownloadProcReturn} {q : HttpDownloadProc cap}
    (h : httpDownloadProcConn env p = (ret, q)) : httpDownloadProcConnAction env p =
      if ret = .success then ({ q with lastError := ret }, httpDownloadStaRecv)
      else if ret = .errTryConn ∨ ret = .errParam then (httpDownloadProcStop { q with lastError := ret }, httpDownloadStaIdle)
      else (httpDownloadProcCloseClient { q with lastError := ret }, comFsmHoldState) := by
  unfold httpDownloadProcConnAction
  rw [h]

theorem closeClient_client (h : p.httpOpened = true) : (httpDownloadProcCloseClient p).client = .closed := by
  unfold httpDownloadProcCloseClient
  rw [if_pos h]

theorem stop_lastError (p : HttpDownloadProc cap) : (httpDownloadProcStop p).lastError = p.lastError := by
  unfold httpDownloadProcStop httpDownloadProcCloseClient
  split <;> rfl

theorem closeClient_lastError (p : HttpDownloadProc cap) :
    (httpDownloadProcCloseClient p).lastError = p.lastError := by
  unfold httpDownloadProcCloseClient
  split <;> rfl

/-- With the connection there, the request is prepared, and goes out or does not. -/
theorem conn_of_opened {q : HttpDownloadProc cap} (hparam : ¬ (p.url = none ∨ p.httpBuffer = none))
    (hopen : httpDownloadProcOpenClient env p = (.success, q)) : ∃ q', httpDownloadProcConn env p =
      (if env.send.failed then .errSend else .success, q') ∧ SameData q q' ∧ q'.httpOpened = q.httpOpened ∧
        q'.curDownloadPos = 0 ∧ (env.send.failed = false → q'.client = .asked (httpDownloadRequest q).1) := by
  have hloc : ∀ ext : Option HttpclientDataExt,
      (ext.getD {}).location = [] →
      ((ext.map fun e : HttpclientDataExt => { e with remainData := [] }).getD {}).location = [] := by
    intro ext h
    cases ext with
    | none => rfl
    | some e => exact h
  unfold httpDownloadProcConn
  rw [if_neg hparam, hopen]
  dsimp only
  cases hsend : env.send.failed with
  | true => exact ⟨_, rfl, ⟨rfl, rfl, rfl, rfl, rfl, rfl, hloc _⟩, rfl, rfl, fun h => absurd h (by decide)⟩
  | false => exact ⟨_, rfl, ⟨rfl, rfl, rfl, rfl, rfl, rfl, hloc _⟩, rfl, rfl, fun _ => rfl⟩

theorem connAction_cases (env : HttpEnv) (p : HttpDownloadProc cap) :
    ConnOutcome p (httpDownloadProcConnAction env p) := by
  by_cases hparam : p.url = none ∨ p.httpBuffer = none
  · have hconn : httpDownloadProcConn env p = (.errParam, p) := by
      unfold httpDownloadProcConn
      rw [if_pos hparam]
    rw [connAction_of hconn, if_neg (by simp), if_pos (.inr rfl)]
    refine .gaveUp (((SameData.refl p).lastError _).trans (.stop _)) ?_
    rw [stop_lastError]
    simp
  obtain ⟨ret, q, hopen⟩ : ∃ ret q, httpDownloadProcOpenClient env p = (ret, q) := ⟨_, _, rfl⟩
  have hsame : SameData p q := by
    have h : SameData p (httpDownloadProcOpenClient env p).2 := .openClient
    rwa [hopen] at h
  by_cases hret : ret = .success
  · subst hret
    have hopened : q.httpOpened = true := by
      have h := @opened_openClient _ p env
      rw [hopen] at h
      exact h rfl
    have hq := asks_request q
    obtain ⟨q', hconn, hsame', hopened', hcur, hclient⟩ := conn_of_opened hparam hopen
    cases hsend : env.send.failed with
    | true =>
      rw [hsend, if_pos rfl] at hconn
      rw [connAction_of hconn, if_neg (by simp), if_neg (by simp)]
      refine .held (((hsame.trans hsame').lastError _).trans (.closeClient _)) ?_
        (closeClient_client (hopened'.trans hopened))
      rw [closeClient_lastError]
      simp
    | false =>
      rw [hsend, if_neg Bool.false_ne_true] at hconn
      rw [connAction_of hconn, if_pos rfl]
      refine .sent ((hsame.trans hsame').lastError _) rfl hcur (hclient hsend) ?_
      exact hq.imp id fun h => ⟨hsame.rangeEnable ▸ h.1, hsame.preDownloadPos ▸ h.2⟩
  · have hconn : httpDownloadProcConn env p = (ret, q) := by
      unfold httpDownloadProcConn
      rw [if_neg hparam, hopen]
      cases ret <;> first | rfl | exact absurd rfl hret
    have hret' := @openClient_ret _ p env
    have hclosed := @closed_openClient _ p env
    rw [hopen] at hret' hclosed
    rw [connAction_of hconn, if_neg hret]
    rcases hret' hret with rfl | rfl
    · rw [if_pos (.inl rfl)]
      refine .gaveUp ((hsame.lastError _).trans (.stop _)) ?_
      rw [stop_lastError]
      simp
    · rw [if_neg (by simp)]
      refine .held ((hsame.lastError _).trans (.closeClient _)) ?_ ?_
      · rw [closeClient_lastError]
        simp
      · have h := hclosed (by simp)
        unfold httpDownloadProcCloseClient at h ⊢
        split at h <;> simp_all

/-! ## What receiving comes to -/

/-- What `httpDownloadProcRecvBlock` makes of a block's head, field by field. -/
structure Filed (p q : HttpDownloadProc cap) : Prop where
  httpBuffer     : q.httpBuffer = p.httpBuffer
  preDownloadPos : q.preDownloadPos = p.preDownloadPos
  rangeEnable    : q.rangeEnable = p.rangeEnable
  client         : q.client = p.client
  clientDataExt  : q.clientDataExt = p.clientDataExt
  recvBuf        : q.recvBuf = p.recvBuf
  httpRet        : q.httpRet = p.httpRet
  recvLen        : q.recvLen =
    if p.httpRet = .retrieveMoreData then 2048 else p.clientData.responseContentLen.tmod 2048
  readPos        : q.readPos = if p.ext.isRange then 0 else min (p.preDownloadPos - p.curDownloadPos) q.recvLen
  curDownloadPos : q.curDownloadPos =
    if p.ext.isRange then max p.curDownloadPos p.preDownloadPos else toI32 (p.curDownloadPos + q.readPos)
  isChunked      : q.isChunked = (p.isChunked || p.clientData.isChunked)
  lengthReceived : q.lengthReceived = (p.lengthReceived || !p.clientData.isChunked)
  totalLength    : p.clientData.isChunked = false → q.totalLength =
    if p.lengthReceived then p.totalLength
    else if p.ext.isRange ∧ 0 < p.ext.rangeLen then p.ext.rangeLen else p.clientData.responseContentLen

theorem recvBlock_filed (p : HttpDownloadProc cap) : ∃ q, Filed p q ∧
    httpDownloadProcRecvBlock p = (if q.recvLen ≤ q.readPos then .errRecvSkip else .success, q) := by
  have pair : ∀ (c : Prop) [Decidable c] (q : HttpDownloadProc cap),
      (if c then (HttpDownloadProcReturn.errRecvSkip, q) else (.success, q)) =
        (if c then .errRecvSkip else .success, q) := by
    intro c _ q
    split <;> rfl
  unfold httpDownloadProcRecvBlock
  dsimp only
  rw [pair]
  refine ⟨_, ?_, rfl⟩
  -- three independent tests: the framing, whether the length is known, and what the place is counted from
  have hext : p.ext = p.clientDataExt.getD {} := rfl
  by_cases hc : p.clientData.isChunked = true
  · simp only [if_pos hc, HttpDownloadProc.ext]
    by_cases hr : (p.clientDataExt.getD {}).isRange = true
    · simp only [if_pos hr]
      constructor <;> simp [hext, hc, hr]
    · simp only [if_neg hr]
      constructor <;> simp [hext, hc, hr]
  · by_cases hl : p.lengthReceived = true
    · simp only [if_neg hc, if_pos hl]
      by_cases hr : p.ext.isRange = true
      · simp only [if_pos hr]
        constructor <;> simp [hc, hl, hr]
      · simp only [if_neg hr]
        constructor <;> simp [hc, hl, hr]
    · simp only [if_neg hc, if_neg hl, HttpDownloadProc.ext]
      by_cases hr : (p.clientDataExt.getD {}).isRange = true
      · simp only [if_pos hr]
        constructor <;> simp [hext, hc, hl, hr]
      · simp only [if_neg hr]
        constructor <;> simp [hext, hc, hl, hr]

/-- The reply a block belongs to, what is left of it, and what the block's head says. -/
inductive Due (answers : HttpRequest → HttpReply → Prop) (p : HttpDownloadProc cap) (r : HttpReply) :
    List Byte → Bool → Int → Prop
  | first {req} : p.client = .asked req → answers req r → Due answers p r r.body r.isRange r.rangeLen
  | next {rest} : p.client = .answering r rest → Due answers p r rest p.ext.isRange p.ext.rangeLen

/-- The first block of `rest` has been taken in. -/
structure Took (p : HttpDownloadProc cap) (r : HttpReply) (rest : List Byte) (isRange : Bool) (rangeLen : Int)
    (q : HttpDownloadProc cap) : Prop where
  httpBuffer     : q.httpBuffer = p.httpBuffer
  preDownloadPos : q.preDownloadPos = p.preDownloadPos
  rangeEnable    : q.rangeEnable = p.rangeEnable
  client         : q.client = if 2048 ≤ rest.length then .answering r (rest.drop 2048) else .open
  httpRet        : q.httpRet = if 2048 ≤ rest.length then .retrieveMoreData else .ok
  location       : q.ext.location = []
  isRange        : q.ext.isRange = (p.rangeEnable && isRange)
  rangeLen       : q.ext.rangeLen = rangeLen
  block          : rest.take 2048 <+: q.recvBuf.getD []
  recvLen        : q.recvLen = (rest.take 2048).length
  readPos        : q.readPos = if q.ext.isRange then 0 else min (p.preDownloadPos - p.curDownloadPos) q.recvLen
  curDownloadPos : q.curDownloadPos =
    if q.ext.isRange then max p.curDownloadPos p.preDownloadPos else toI32 (p.curDownloadPos + q.readPos)
  isChunked      : q.isChunked = (p.isChunked || r.chunked)
  lengthReceived : q.lengthReceived = (p.lengthReceived || !r.chunked)
  totalLength    : r.chunked = false → q.totalLength =
    if p.lengthReceived then p.totalLength
    else if q.ext.isRange ∧ 0 < q.ext.rangeLen then q.ext.rangeLen else r.body.length

/-- A reply that is not thrown away: a plain one counts as a failure once, where ranges are expected. -/
def HttpDownloadProc.Keeps (p : HttpDownloadProc cap) (isRange : Bool) : Prop :=
  p.rangeEnable = true → p.rangeForecast = true → isRange = true

/-- Whole blocks of the reply under way have been handed over. -/
def WholeBlocks (p : HttpDownloadProc cap) : Prop :=
  ∀ r rest, p.client = .answering r rest → ∃ k, r.body.length = rest.length + 2048 * k

variable {answers : HttpRequest → HttpReply → Prop} {r : HttpReply} {rest : List Byte} {isRange : Bool} {rangeLen : Int}

/-- What `http_download_proc_recv` stores before it looks at it. -/
def HttpDownloadProc.handed (p : HttpDownloadProc cap) (env : HttpEnv) : HttpDownloadProc cap :=
  { p with
    httpRet := env.recvRet
    clientData := env.recvData
    clientDataExt := env.recvData.ext
    recvBuf := some env.recvData.responseBuf
    client := env.recvConn }

theorem SameData.handed (h : (env.recvData.ext.getD {}).location = p.ext.location) : SameData p (p.handed env) :=
  ⟨rfl, rfl, rfl, rfl, rfl, rfl, fun hloc => h.trans hloc⟩

/-- `http_download_proc_recv` on a call that did not fail, without a redirect. -/
theorem recv_of_ok (hfail : env.recvRet.failed = false) (hloc : (p.handed env).ext.location = []) :
    httpDownloadProcRecv env p =
      if env.recvData.responseContentLen ≤ 0 then
        (if p.errRecvCount + 1 ≥ httpDownloadMaxErrRecvCount then .errResponse else .errRecv,
          { p.handed env with closeIfRangEnd := true, errRecvCount := p.errRecvCount + 1 })
      else if p.rangeEnable = false then
        httpDownloadProcRecvBlock { p.handed env with
          clientDataExt := (p.handed env).clientDataExt.map fun ext => { ext with isRange := false } }
      else if p.rangeForecast = true ∧ (p.handed env).ext.isRange = false then
        (.errRecv, { p.handed env with rangeForecast := false })
      else httpDownloadProcRecvBlock (p.handed env) := by
  unfold httpDownloadProcRecv
  dsimp only
  rw [if_neg (by rw [hfail]; decide), if_neg]
  · change (if env.recvData.responseContentLen ≤ 0 then _ else _) = _
    simp only [Bool.not_eq_true', Bool.and_eq_true]
    rfl
  · change ¬ (!p.redirect && decide ((p.handed env).ext.location ≠ [])) = true
    simp [hloc]

/-- The length of a block that is handed over. -/
theorem handed_len (hk : ∃ k, r.body.length = rest.length + 2048 * k) (hb : HandsBlock p r rest isRange rangeLen env) :
    (if env.recvRet = .retrieveMoreData then 2048 else env.recvData.responseContentLen.tmod 2048) =
      ((rest.take 2048).length : Int) := by
  rw [hb.ret, List.length_take]
  by_cases h : 2048 ≤ rest.length
  · rw [if_pos h, if_pos rfl, Nat.min_eq_left h]
    rfl
  · obtain ⟨k, hk⟩ := hk
    have hlen : env.recvData.responseContentLen = r.body.length := by
      rcases hb.len with h' | h'
      · exact h'
      · exact absurd h'.2.1 h
    have hmod : ((r.body.length : Nat) : Int).tmod 2048 = ((r.body.length % 2048 : Nat) : Int) := by
      rw [Int.tmod_eq_emod_of_nonneg (by omega)]
      rfl
    rw [if_neg h, if_neg (by decide), hlen, hmod]
    congr 1
    omega

theorem took_of_filed (ext : HttpclientDataExt) {q : HttpDownloadProc cap}
    (hk : ∃ k, r.body.length = rest.length + 2048 * k) (hb : HandsBlock p r rest isRange rangeLen env)
    (hloc : ext.location = []) (hrange : ext.isRange = (p.rangeEnable && isRange)) (hlen : ext.rangeLen = rangeLen)
    (hf : Filed { p.handed env with clientDataExt := some ext } q) : Took p r rest isRange rangeLen q := by
  have hext : q.ext = ext := by
    unfold HttpDownloadProc.ext
    rw [hf.clientDataExt]
    rfl
  have hretq : q.httpRet = if 2048 ≤ rest.length then .retrieveMoreData else .ok := hf.httpRet.trans hb.ret
  exact {
    httpBuffer := hf.httpBuffer
    preDownloadPos := hf.preDownloadPos
    rangeEnable := hf.rangeEnable
    client := hf.client.trans hb.conn
    httpRet := hretq
    location := hext ▸ hloc
    isRange := hext ▸ hrange
    rangeLen := hext ▸ hlen
    block := by
      rw [hf.recvBuf]
      exact hb.block
    recvLen := by
      rw [hf.recvLen]
      exact handed_len hk hb
    readPos := by
      rw [hf.readPos, hext]
      rfl
    curDownloadPos := by
      rw [hf.curDownloadPos, hext]
      rfl
    isChunked := by
      rw [hf.isChunked, ← hb.chunked]
      rfl
    lengthReceived := by
      rw [hf.lengthReceived, ← hb.chunked]
      rfl
    totalLength := by
      intro hc
      rw [hf.totalLength (hb.chunked.trans hc), hext]
      have hlen' : env.recvData.responseContentLen = r.body.length := by
        rcases hb.len with h | h
        · exact h
        · exact absurd (hc.symm.trans h.1) Bool.false_ne_true
      rw [← hlen']
      rfl }

/-- A block that is handed over is thrown away with its connection, or taken in. -/
theorem recv_of_handed (hloc : p.ext.location = []) (hk : ∃ k, r.body.length = rest.length + 2048 * k)
    (hb : HandsBlock p r rest isRange rangeLen env) :
    (∃ ret q, httpDownloadProcRecv env p = (ret, q) ∧ (ret = .errRecv ∨ ret = .errResponse) ∧ SameData p q) ∨
    (p.Keeps isRange ∧ ∃ q, Took p r rest isRange rangeLen q ∧
      httpDownloadProcRecv env p = (if q.recvLen ≤ q.readPos then .errRecvSkip else .success, q)) := by
  obtain ⟨ext, hext, hrange, hlen, hextloc⟩ := hb.ext
  have hfail : env.recvRet.failed = false := by
    rw [hb.ret]
    split <;> rfl
  have hhanded : (p.handed env).ext = ext := by simp [HttpDownloadProc.handed, HttpDownloadProc.ext, hext]
  have hsame : SameData p (p.handed env) := .handed (by rw [hext]; exact hextloc)
  rw [recv_of_ok hfail (hhanded ▸ hextloc.trans hloc)]
  by_cases h0 : env.recvData.responseContentLen ≤ 0
  · left
    rw [if_pos h0]
    refine ⟨_, _, rfl, ?_, ⟨rfl, rfl, rfl, rfl, rfl, rfl, hsame.location⟩⟩
    split
    · exact .inr rfl
    · exact .inl rfl
  rw [if_neg h0]
  by_cases hre : p.rangeEnable = false
  · right
    rw [if_pos hre]
    obtain ⟨q, hf, hq⟩ := recvBlock_filed { p.handed env with
      clientDataExt := (p.handed env).clientDataExt.map fun ext => { ext with isRange := false } }
    refine ⟨fun h => absurd h (by simp [hre]), q, ?_, hq⟩
    have hmap : (p.handed env).clientDataExt.map (fun ext => { ext with isRange := false }) =
        some { ext with isRange := false } := by
      rw [HttpDownloadProc.handed, hext]
      rfl
    rw [hmap] at hf
    exact took_of_filed { ext with isRange := false } hk hb (hextloc.trans hloc) (by simp [hre]) hlen hf
  rw [if_neg hre]
  rw [Bool.not_eq_false] at hre
  by_cases hfc : p.rangeForecast = true ∧ (p.handed env).ext.isRange = false
  · left
    rw [if_pos hfc]
    exact ⟨_, _, rfl, .inl rfl, ⟨rfl, rfl, rfl, rfl, rfl, rfl, hsame.location⟩⟩
  · right
    rw [if_neg hfc]
    obtain ⟨q, hf, hq⟩ := recvBlock_filed (p.handed env)
    refine ⟨fun _ hf => ?_, q, ?_, hq⟩
    · rw [hhanded, hrange] at hfc
      simpa [hf] using hfc
    · have hsome : p.handed env = { p.handed env with clientDataExt := some ext } := by
        rw [← hext]
        rfl
      rw [hsome] at hf
      exact took_of_filed ext hk hb (hextloc.trans hloc) (by simp [hre, hrange]) hlen hf

/-- What the receive poll comes to: the connection is given up or made anew, or a block is taken in, and
thrown away or pushed. -/
inductive RecvOutcome (answers : HttpRequest → HttpReply → Prop) (p : HttpDownloadProc cap) :
    HttpDownloadProc cap × Word → Prop
  | lost {res} : ConnOutcome p res → RecvOutcome answers p res
  | skip {r rest isRange rangeLen q} : Due answers p r rest isRange rangeLen → p.Keeps isRange →
      Took p r rest isRange rangeLen q → q.recvLen ≤ q.readPos → q.lastError = .errRecvSkip →
      RecvOutcome answers p (q, comFsmHoldState)
  | block {r rest isRange rangeLen q} : Due answers p r rest isRange rangeLen → p.Keeps isRange →
      Took p r rest isRange rangeLen q → q.readPos < q.recvLen →
      RecvOutcome answers p (httpDownloadProcPushAction q)

theorem Took.setError {q : HttpDownloadProc cap} (h : Took p r rest isRange rangeLen q) (ret : HttpDownloadProcReturn) :
    Took p r rest isRange rangeLen { q with lastError := ret } :=
  ⟨h.httpBuffer, h.preDownloadPos, h.rangeEnable, h.client, h.httpRet, h.location, h.isRange, h.rangeLen, h.block,
    h.recvLen, h.readPos, h.curDownloadPos, h.isChunked, h.lengthReceived, h.totalLength⟩

theorem ConnOutcome.of_sameData {q : HttpDownloadProc cap} {res} (h : SameData p q) (hres : ConnOutcome q res) :
    ConnOutcome p res := by
  cases hres with
  | sent h1 h2 h3 h4 h5 =>
    exact .sent (h.trans h1) h2 h3 h4 (h5.imp id fun h' => ⟨h.rangeEnable ▸ h'.1, h.preDownloadPos ▸ h'.2⟩)
  | gaveUp h1 h2 => exact .gaveUp (h.trans h1) h2
  | held h1 h2 h3 => exact .held (h.trans h1) h2 h3

/-- The receive poll from what `http_download_proc_recv` answers. -/
theorem recvPoll_of {ret : HttpDownloadProcReturn} {q : HttpDownloadProc cap}
    (h : httpDownloadProcRecv env p = (ret, q)) : httpDownloadProcRecvPoll env p =
      if ret = .success then httpDownloadProcPushAction { q with lastError := ret }
      else if ret = .errRecvSkip then ({ q with lastError := ret }, comFsmHoldState)
      else if ret = .errRecv ∨ ret = .redirect then
        httpDownloadProcConnAction env (httpDownloadProcCloseClient { q with lastError := ret })
      else (httpDownloadProcStop { q with lastError := ret }, httpDownloadStaIdle) := by
  unfold httpDownloadProcRecvPoll
  rw [h]

/-- A connection that failed is made anew, or the download ends. -/
theorem recvPoll_lost {ret : HttpDownloadProcReturn} {q : HttpDownloadProc cap}
    (h : httpDownloadProcRecv env p = (ret, q)) (hret : ret = .errRecv ∨ ret = .errResponse ∨ ret = .errTryRecv)
    (hsame : SameData p q) : ConnOutcome p (httpDownloadProcRecvPoll env p) := by
  rw [recvPoll_of h]
  have again := ConnOutcome.of_sameData ((hsame.lastError ret).trans (.closeClient _))
    (connAction_cases env (httpDownloadProcCloseClient { q with lastError := ret }))
  have idle : ret ≠ .allEnd → ConnOutcome p (httpDownloadProcStop { q with lastError := ret }, httpDownloadStaIdle) := by
    intro hne
    refine .gaveUp ((hsame.lastError ret).trans (.stop _)) ?_
    rw [stop_lastError]
    exact hne
  rcases hret with rfl | rfl | rfl
  · exact again
  · exact idle (by simp)
  · exact idle (by simp)

theorem recvPoll_cases (h : Hands answers p env) (hloc : p.ext.location = []) (hk : WholeBlocks p) :
    RecvOutcome answers p (httpDownloadProcRecvPoll env p) := by
  -- a block that is handed over, of either kind
  have handed : ∀ {r rest isRange rangeLen}, Due answers p r rest isRange rangeLen →
      (∃ k, r.body.length = rest.length + 2048 * k) → HandsBlock p r rest isRange rangeLen env →
      RecvOutcome answers p (httpDownloadProcRecvPoll env p) := by
    intro r rest isRange rangeLen hdue hk hb
    rcases recv_of_handed hloc hk hb with ⟨ret, q, hq, hret, hsame⟩ | ⟨hkeep, q, htook, hq⟩
    · exact .lost (recvPoll_lost hq (hret.imp id .inl) hsame)
    · by_cases hskip : q.recvLen ≤ q.readPos
      · rw [if_pos hskip] at hq
        rw [recvPoll_of hq]
        exact .skip hdue hkeep (htook.setError _) hskip rfl
      · rw [if_neg hskip] at hq
        rw [recvPoll_of hq]
        exact .block hdue hkeep (htook.setError _) (lt_of_not_ge hskip)
  cases h with
  | failed hfail hlocation =>
    have hsame : SameData p (p.handed env) := .handed hlocation
    have hrecv : ∃ ret q, httpDownloadProcRecv env p = (ret, q) ∧ (ret = .errRecv ∨ ret = .errTryRecv) ∧
        SameData p q := by
      unfold httpDownloadProcRecv
      dsimp only
      rw [if_pos hfail]
      refine ⟨_, _, rfl, (ite_eq_or_eq _ _ _).symm, ?_⟩
      · split
        · exact ⟨rfl, rfl, rfl, rfl, rfl, rfl, hsame.location⟩
        · exact hsame
    obtain ⟨ret, q, hq, hret, hq'⟩ := hrecv
    exact .lost (recvPoll_lost hq (hret.imp id .inr) hq')
  | first hc ha hb => exact handed (.first hc ha) ⟨0, rfl⟩ hb
  | next hc hb => exact handed (.next hc) (hk _ _ hc) hb

/-! ## What pushing comes to -/

/-- The block that was waiting in `recv_buf` is in `http_buffer`. -/
structure Pushed (p q : HttpDownloadProc cap) : Prop where
  pushed         : q.pushed = p.pushed ++ p.unread
  preDownloadPos : q.preDownloadPos = toI32 (p.preDownloadPos + p.unread.length)
  rangeEnable    : q.rangeEnable = p.rangeEnable
  isChunked      : q.isChunked = p.isChunked
  lengthReceived : q.lengthReceived = p.lengthReceived
  totalLength    : q.totalLength = p.totalLength
  location       : p.ext.location = [] → q.ext.location = []

/-- The two tests for the end of the resource (`:368-379`), with `pos` for the new `pre_download_pos`. -/
def HttpDownloadProc.AtEnd (p : HttpDownloadProc cap) (pos : Int) : Prop :=
  p.ext.isRange = false ∧ p.httpRet ≠ .retrieveMoreData ∨ p.isChunked = false ∧ p.totalLength ≤ pos

/-- What the push action comes to: the block does not fit, or it is pushed and the resource, the range or
neither is at its end. -/
inductive PushOutcome (p : HttpDownloadProc cap) : HttpDownloadProc cap × Word → Prop
  | full : PushOutcome p ({ p with lastError := .errBufTooSmall }, httpDownloadStaWaitFree)
  | ended {q} : Pushed p q → p.AtEnd q.preDownloadPos → q.lastError = .allEnd →
      PushOutcome p (q, httpDownloadStaIdle)
  | rangeEnd {q} : Pushed p q → ¬ p.AtEnd q.preDownloadPos → q.lastError = .rangeEnd →
      PushOutcome p (q, httpDownloadStaWaitRange)
  | more {q} : Pushed p q → ¬ p.AtEnd q.preDownloadPos → q.lastError = .success → q.client = p.client →
      q.ext = p.ext → q.curDownloadPos = toI32 (p.curDownloadPos + p.unread.length) →
      PushOutcome p (q, httpDownloadStaRecv)

theorem Pushed.of_sameData {q q' : HttpDownloadProc cap} (h : Pushed p q) (hs : SameData q q') : Pushed p q' where
  pushed := by
    rw [← h.pushed]
    simp only [HttpDownloadProc.pushed, hs.httpBuffer]
  preDownloadPos := hs.preDownloadPos.trans h.preDownloadPos
  rangeEnable := hs.rangeEnable.trans h.rangeEnable
  isChunked := hs.isChunked.trans h.isChunked
  lengthReceived := hs.lengthReceived.trans h.lengthReceived
  totalLength := hs.totalLength.trans h.totalLength
  location := fun hl => hs.location (h.location hl)

/-- The process once the block is in `http_buffer`. -/
def HttpDownloadProc.advanced (p : HttpDownloadProc cap) : HttpDownloadProc cap :=
  { p with
    httpBuffer := p.httpBuffer.map fun b => b.push p.unread
    preDownloadPos := toI32 (p.preDownloadPos + (p.recvLen - p.readPos))
    curDownloadPos := toI32 (p.curDownloadPos + (p.recvLen - p.readPos))
    readPos := p.readPos + (p.recvLen - p.readPos) }

theorem advanced_pushed (hlen : (p.unread.length : Int) = p.recvLen - p.readPos) (hpos : p.readPos < p.recvLen)
    (hroom : p.recvLen - p.readPos ≤ p.freeCount) : Pushed p p.advanced := by
  obtain ⟨b, hb⟩ : ∃ b, p.httpBuffer = some b := by
    cases hb : p.httpBuffer with
    | none =>
      have h0 : p.freeCount = 0 := by simp [HttpDownloadProc.freeCount, hb]
      omega
    | some b => exact ⟨b, rfl⟩
  have hfree : p.freeCount = b.queue.free := by simp [HttpDownloadProc.freeCount, hb]
  have hpush : (b.push p.unread).pushed = b.pushed ++ p.unread := by
    unfold HttpBuffer.push
    cases h : b.queue.push? p.unread with
    | none => exact absurd (Fifo.push?_eq_none.1 h) (by omega)
    | some queue => rfl
  refine ⟨?_, ?_, rfl, rfl, rfl, rfl, id⟩
  · simp only [HttpDownloadProc.pushed, HttpDownloadProc.advanced, hb, Option.map_some, Option.getD_some]
    exact hpush
  · rw [hlen]
    rfl

/-- `http_download_proc_push_data` with room for the block. -/
theorem pushData_of_room (hroom : p.recvLen - p.readPos ≤ p.freeCount) :
    ∃ ret, httpDownloadProcPushData p = (ret, p.advanced) ∧
      (ret = .allEnd ∧ p.AtEnd p.advanced.preDownloadPos ∨
        (ret = .rangeEnd ∨ ret = .success) ∧ ¬ p.AtEnd p.advanced.preDownloadPos) := by
  have hpush : httpDownloadProcPushData p =
      if !p.ext.isRange && p.httpRet ≠ .retrieveMoreData then (.allEnd, p.advanced)
      else if !p.isChunked && p.advanced.preDownloadPos ≥ p.totalLength then (.allEnd, p.advanced)
      else if p.ext.isRange && p.advanced.preDownloadPos ≥ p.rangeEnd then (.rangeEnd, p.advanced)
      else (.success, p.advanced) := by
    unfold httpDownloadProcPushData
    dsimp only
    rw [if_neg (by omega)]
    rfl
  rw [hpush]
  by_cases h1 : (!p.ext.isRange && decide (p.httpRet ≠ .retrieveMoreData)) = true
  · rw [if_pos h1]
    exact ⟨_, rfl, .inl ⟨rfl, .inl (by simpa using h1)⟩⟩
  rw [if_neg h1]
  by_cases h2 : (!p.isChunked && decide (p.advanced.preDownloadPos ≥ p.totalLength)) = true
  · rw [if_pos h2]
    exact ⟨_, rfl, .inl ⟨rfl, .inr (by simpa using h2)⟩⟩
  rw [if_neg h2]
  have hend : ¬ p.AtEnd p.advanced.preDownloadPos := by
    rintro (h | h)
    · exact h1 (by simpa using h)
    · exact h2 (by simpa using h)
  split
  · exact ⟨_, rfl, .inr ⟨.inl rfl, hend⟩⟩
  · exact ⟨_, rfl, .inr ⟨.inr rfl, hend⟩⟩

/-- The push action from what `http_download_proc_push_data` answers. -/
theorem pushAction_of {ret : HttpDownloadProcReturn} {q : HttpDownloadProc cap}
    (h : httpDownloadProcPushData p = (ret, q)) : httpDownloadProcPushAction p =
      if ret = .success then ({ q with lastError := ret }, httpDownloadStaRecv)
      else if ret = .errBufTooSmall then ({ q with lastError := ret }, httpDownloadStaWaitFree)
      else if ret = .rangeEnd then
        (if q.closeIfRangEnd then httpDownloadProcCloseClient { q with lastError := ret } else { q with lastError := ret },
          httpDownloadStaWaitRange)
      else (httpDownloadProcStop { q with lastError := ret }, httpDownloadStaIdle) := by
  unfold httpDownloadProcPushAction
  rw [h]

theorem pushAction_cases (hlen : (p.unread.length : Int) = p.recvLen - p.readPos) (hpos : p.readPos < p.recvLen) :
    PushOutcome p (httpDownloadProcPushAction p) := by
  by_cases hroom : p.recvLen - p.readPos ≤ p.freeCount
  · have hadv := advanced_pushed hlen hpos hroom
    obtain ⟨ret, hdata, hret⟩ := pushData_of_room hroom
    have herror := hadv.of_sameData ((SameData.refl _).lastError ret)
    rw [pushAction_of hdata]
    rcases hret with ⟨rfl, hend⟩ | ⟨rfl | rfl, hend⟩
    · rw [if_neg (by simp), if_neg (by simp), if_neg (by simp)]
      refine .ended (herror.of_sameData (.stop _)) ?_ (stop_lastError _)
      rw [(SameData.stop _).preDownloadPos]
      exact hend
    · rw [if_neg (by simp), if_neg (by simp), if_pos rfl]
      split
      · refine .rangeEnd (herror.of_sameData (.closeClient _)) ?_ (closeClient_lastError _)
        rw [(SameData.closeClient _).preDownloadPos]
        exact hend
      · exact .rangeEnd herror hend rfl
    · rw [if_pos rfl]
      refine .more herror hend rfl rfl rfl ?_
      rw [hlen]
      rfl
  · have hdata : httpDownloadProcPushData p = (.errBufTooSmall, p) := by
      unfold httpDownloadProcPushData
      dsimp only
      rw [if_pos (by omega)]
    rw [pushAction_of hdata, if_neg (by simp), if_pos rfl]
    exact .full

end

end AudioPlayer

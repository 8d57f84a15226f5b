import Mathlib
import AudioPlayer.HttpDownload.Position

/-!
# The ranges that are asked for (`utils/http_download_process.c:157-204`)

`http_download_proc_conn` is reached from START, RESUME, a failed receive, a redirect and the end of a range. It asks
for as many bytes as `http_buffer` has room for, from `pre_download_pos` on, and hands the last of them to
`httpclient_send_request_with_range`, which leaves it out of the field unless it is above zero
(`utils/httpclient.c:408-423`).

| here | there |
|---|---|
| `httpDownloadSends`  | the call of `httpclient_send_request_with_range` an action makes, with what the process is then |
| `rangeArgs`          | `begin` and `end` of the call (`:184-192`) |
| `RangeOk`            | the range is one, is within the resource and fits, and the field says the same |
| `RangeMet`           | there is room, but not for the first byte alone, something is missing, and `range_end` is an `int` |

With a full buffer the range is empty: RESUME and a failed receive connect whether there is room or not. The range of
the first byte alone is `0-0`, and `bytes=0-` is everything. While the length is not known, nothing keeps
`pre_download_pos + range_count` below 2^31: the sum of `int`s is then undefined (here it wraps, and is never right).

The positions and the length of the resource are `int`s, and so are the sums in the counts of `http_buffer`, twice its
`max_size` at most.
-/

namespace AudioPlayer
open Lib

variable {cap : Nat}

/-- The process that `http_download_proc_conn` hands a request over for. -/
def httpDownloadConnSends (env : HttpEnv) (p : HttpDownloadProc cap) : Option (HttpDownloadProc cap) :=
  if p.url = none ∨ p.httpBuffer = none then none
  else
    match httpDownloadProcOpenClient env p with
    | (.success, p) => some p
    | _ => none

/-- The same for the action that calls it. -/
def httpDownloadSends (env : HttpEnv) : HttpDownloadAction → HttpDownloadProc cap → Option (HttpDownloadProc cap)
  | .start, p =>
    let (ret, p) := httpDownloadProcStart env p
    if ret = .success then httpDownloadConnSends env { p with lastError := ret } else none
  | .conn, p => httpDownloadConnSends env p
  | .recvPoll, p =>
    let (ret, p) := httpDownloadProcRecv env p
    if ret = .errRecv ∨ ret = .redirect then
      httpDownloadConnSends env (httpDownloadProcCloseClient { p with lastError := ret })
    else none
  | .waitRangePoll, p =>
    let p := { p with lastError := httpDownloadWaitRange p }
    if p.lastError = .success then httpDownloadConnSends env p else none
  | .stop, _ | .pause, _ | .waitFreePoll, _ => none

namespace HttpDownloadProc

/-- `begin` and `end`. -/
def rangeArgs (q : HttpDownloadProc cap) : Int × Int :=
  (q.preDownloadPos, toI32 ((httpDownloadRequest q).2 - 1))

/-- A range from `pre_download_pos` on, not empty, within the length that is known and the room there is, with a
`range_end` (one behind its last byte) that is an `int`, and the field denotes it. -/
def RangeOk (q : HttpDownloadProc cap) : Prop :=
  ∃ first last : Nat, q.rangeArgs = ((first : Int), (last : Int)) ∧ q.preDownloadPos = first ∧ first ≤ last ∧
    (last : Int) + 1 < 2147483648 ∧
    (q.lengthReceived = true → (last : Int) < q.totalLength ∧ (last : Int) - first + 1 ≤ q.freeCount) ∧
    (httpDownloadRequest q).1.range = some (first, some last)

/-- The bytes the field can ask for, at least: `0-0` it cannot. -/
def rangeLeast (q : HttpDownloadProc cap) : Int := if q.preDownloadPos = 0 then 2 else 1

/-- There is room, something is missing, and where the length is not known what is asked for ends within an `int`. -/
def RangeMet (q : HttpDownloadProc cap) : Prop :=
  (q.lengthReceived = true ∨ q.rangeForecast = true → q.rangeLeast ≤ q.freeCount) ∧
    (q.lengthReceived = true → q.preDownloadPos + q.rangeLeast ≤ q.totalLength) ∧
    (q.lengthReceived = false →
      q.preDownloadPos + (if q.rangeForecast then q.freeCount else 1024) < 2147483648)

end HttpDownloadProc

/-! ## One request -/

section
variable {q : HttpDownloadProc cap}

theorem freeCount_nonneg (q : HttpDownloadProc cap) : 0 ≤ q.freeCount := by
  unfold HttpDownloadProc.freeCount
  cases q.httpBuffer with
  | none => exact le_rfl
  | some b => exact Int.natCast_nonneg _

theorem freeCount_le (q : HttpDownloadProc cap) : q.freeCount ≤ cap := by
  unfold HttpDownloadProc.freeCount
  cases q.httpBuffer with
  | none => exact Int.natCast_nonneg _
  | some b =>
    simp only [Option.map_some, Option.getD_some, Fifo.free]
    omega

/-- How much is asked for, and that it is enough, and no more than there is, exactly under the condition. -/
theorem rangeCount_spec (h0 : 0 ≤ q.preDownloadPos) (hlow : -1 ≤ q.totalLength) (hhigh : q.totalLength < 2147483648) :
    -1 ≤ q.preDownloadPos + httpDownloadRangeCount q ∧ httpDownloadRangeCount q ≤ max (cap : Int) 1024 ∧
      (q.lengthReceived = true → q.preDownloadPos + httpDownloadRangeCount q ≤ q.totalLength ∧
        httpDownloadRangeCount q ≤ q.freeCount) ∧
      (q.rangeLeast ≤ httpDownloadRangeCount q ∧ q.preDownloadPos + httpDownloadRangeCount q < 2147483648 ↔
        q.RangeMet) := by
  have hfree := freeCount_nonneg q
  have hcap := freeCount_le q
  have hleast : q.rangeLeast = 1 ∨ q.rangeLeast = 2 := by
    unfold HttpDownloadProc.rangeLeast
    split
    · exact .inr rfl
    · exact .inl rfl
  unfold httpDownloadRangeCount HttpDownloadProc.RangeMet
  generalize q.rangeLeast = least at hleast
  cases q.lengthReceived with
  | true =>
    simp only [if_true, true_or, forall_const, Bool.true_eq_false, false_implies, and_true]
    split <;> omega
  | false =>
    cases q.rangeForecast with
    | true =>
      simp only [Bool.false_eq_true, if_false, if_true, or_true, forall_true_left, false_implies, true_and]
      exact ⟨by omega, by omega, trivial⟩
    | false =>
      simp only [Bool.false_eq_true, if_false, or_self, false_implies, forall_true_left, true_and]
      omega

/-- What goes out, where `range_end` is an `int`. -/
theorem rangeArgs_of_int (hrange : q.rangeEnable = true) (h0 : 0 ≤ q.preDownloadPos)
    (hlow : -1 ≤ q.preDownloadPos + httpDownloadRangeCount q)
    (hint : q.preDownloadPos + httpDownloadRangeCount q < 2147483648) :
    q.rangeArgs = (q.preDownloadPos, q.preDownloadPos + httpDownloadRangeCount q - 1) ∧
      (httpDownloadRequest q).1.range = some (q.preDownloadPos.toNat,
        if 0 < q.preDownloadPos + httpDownloadRangeCount q - 1 then
          some (q.preDownloadPos + httpDownloadRangeCount q - 1).toNat else none) := by
  have hlast : toI32 (toI32 (q.preDownloadPos + httpDownloadRangeCount q) - 1) =
      q.preDownloadPos + httpDownloadRangeCount q - 1 := by
    rw [toI32_eq (x := q.preDownloadPos + _) (by omega) (by omega), toI32_eq (by omega) (by omega)]
  constructor
  · simp only [HttpDownloadProc.rangeArgs, httpDownloadRequest, hrange, if_true, hlast]
  · simp only [httpDownloadRequest, hrange, if_true, httpclientRangeRequest, if_pos h0, hlast]

/-- A range that is right has a `range_end` that is an `int`: one that wraps is negative, or ends at 2^31 - 1. -/
theorem int_of_rangeOk (hrange : q.rangeEnable = true) (hpos : q.preDownloadPos < 2147483648)
    (hcount : httpDownloadRangeCount q < 2147483648) (h : q.RangeOk) :
    q.preDownloadPos + httpDownloadRangeCount q < 2147483648 := by
  obtain ⟨first, last, hpair, -, -, hlast, -, -⟩ := h
  have hlarge : q.preDownloadPos + httpDownloadRangeCount q < 4294967296 := by omega
  obtain ⟨-, hargs⟩ := Prod.mk.inj hpair
  simp only [httpDownloadRequest, hrange, if_true] at hargs
  generalize q.preDownloadPos + httpDownloadRangeCount q = rangeEnd at *
  by_contra hnot
  have hwraps : toI32 rangeEnd = rangeEnd - 4294967296 := by
    unfold toI32
    omega
  rw [hwraps] at hargs
  unfold toI32 at hargs
  omega

/-- **A range is right exactly under the condition.** -/
theorem rangeOk_iff (hrange : q.rangeEnable = true) (h0 : 0 ≤ q.preDownloadPos) (hpos : q.preDownloadPos < 2147483648)
    (hcap : 2 * (cap + 1) ≤ 2147483648) (hlow : -1 ≤ q.totalLength) (hhigh : q.totalLength < 2147483648) :
    q.RangeOk ↔ q.RangeMet := by
  obtain ⟨hbelow, hmost, hknown, hmet⟩ := rangeCount_spec h0 hlow hhigh
  rw [← hmet]
  constructor
  · intro hok
    have hint := int_of_rangeOk hrange hpos (by omega) hok
    obtain ⟨hargs, hfield⟩ := rangeArgs_of_int hrange h0 hbelow hint
    obtain ⟨first, last, hpair, hfirst, hle, -, -, hline⟩ := hok
    rw [hargs] at hpair
    rw [hfield] at hline
    generalize httpDownloadRangeCount q = count at *
    obtain ⟨-, hlast⟩ := Prod.mk.inj hpair
    have hend : 0 < q.preDownloadPos + count - 1 := by
      by_contra hnot
      rw [if_neg hnot] at hline
      cases hline
    refine ⟨?_, hint⟩
    unfold HttpDownloadProc.rangeLeast
    split <;> omega
  · rintro ⟨hleast, hint⟩
    obtain ⟨hargs, hfield⟩ := rangeArgs_of_int hrange h0 hbelow hint
    unfold HttpDownloadProc.RangeOk
    rw [hargs, hfield]
    generalize httpDownloadRangeCount q = count at *
    have hend : 0 < q.preDownloadPos + count - 1 ∧ 1 ≤ count := by
      unfold HttpDownloadProc.rangeLeast at hleast
      split at hleast <;> omega
    refine ⟨q.preDownloadPos.toNat, (q.preDownloadPos + count - 1).toNat, ?_, by omega, by omega, by omega, ?_, ?_⟩
    · rw [Int.toNat_of_nonneg h0, Int.toNat_of_nonneg (by omega)]
    · intro hlen
      have := hknown hlen
      omega
    · rw [if_pos hend.1]

end

/-! ## Runs -/

/-- A server that honours ranges: to a range it sends its bytes, as a range, or none if the resource has none
there. What it answers to anything else is not known. -/
def HonoursRanges (R : List Byte) (req : HttpRequest) (r : HttpReply) : Prop :=
  ∀ first last, req.range = some (first, some last) → first ≤ last →
    r.body = req.slice R ∧ (r.body ≠ [] → r.status = 206 ∧ r.isRange = true ∧ r.rangeLen = R.length)

/-- What a receive comes back with: what the server sends, a failure, or a redirect. -/
inductive Receives (R : List Byte) (p : HttpDownloadProc cap) (env : HttpEnv) : Prop
  | hands : Hands (HonoursRanges R) p env → Receives R p env
  | failed : env.recvRet.failed = true → Receives R p env
  | redirected : p.redirect = false → (env.recvData.ext.getD {}).location ≠ [] → Receives R p env

/-- `http_download_start_seek` on a stopped download, a turn on any other events, or a pop. -/
inductive RangedAct (cap : Nat)
  | start (queue : Fifo Byte cap) (url : List Byte) (seekPos : Nat) (pause resume : Bool) (env : HttpEnv)
  | turn (stop pause resume : Bool) (env : HttpEnv)
  | pop (n : Nat)

/-- A step with `range_enable`; every start is within the resource. -/
inductive RangedStep (R : List Byte) : DownloadSys cap → RangedAct cap → DownloadSys cap → Prop
  | start {s queue url seekPos pause resume env} : s.curState = httpDownloadStaIdle → seekPos < R.length →
      RangedStep R s (.start queue url seekPos pause resume env)
        (DownloadSys.started queue url true seekPos s.proc pause resume env)
  | turn {s stop pause resume env} : Receives R s.proc env →
      RangedStep R s (.turn stop pause resume env) (s.turn env (downloadEvents false stop pause resume))
  | pop {s n} : RangedStep R s (.pop n) { s with proc := s.proc.pop n }

/-- The request of a step. -/
def rangedSends (s : DownloadSys cap) : RangedAct cap → Option (HttpDownloadProc cap)
  | .start queue url seekPos _ _ env => httpDownloadSends env .start (httpDownloadStartInner queue url true seekPos s.proc)
  | .turn stop pause resume env =>
    (httpDownloadSelect s.curState (downloadEvents false stop pause resume)).bind fun a => httpDownloadSends env a s.proc
  | .pop _ => none

/-- Where a step sends a request, there is room and something is missing. -/
def RangesMet (s : DownloadSys cap) (a : RangedAct cap) : Prop := ∀ q, rangedSends s a = some q → q.RangeMet

/-- The positions are within the resource. -/
structure Bounded (R : List Byte) (q : HttpDownloadProc cap) : Prop where
  rangeEnable : q.rangeEnable = true
  nonneg      : 0 ≤ q.preDownloadPos
  le_len      : q.preDownloadPos ≤ R.length
  total       : -1 ≤ q.totalLength
  total_le    : q.totalLength ≤ R.length

/-- A ranged reply under way, with `held` bytes taken in, ends within the resource. -/
structure Under (R : List Byte) (q : HttpDownloadProc cap) (held : Nat) (r : HttpReply) (rest : List Byte) :
    Prop where
  ranged : q.ext.isRange = true
  known  : q.ext.rangeLen = R.length
  part   : r.body.length ≤ R.length
  whole  : ∃ k, r.body.length = rest.length + 2048 * k
  fits   : q.preDownloadPos + held + rest.length ≤ R.length

/-- In RECV. -/
structure Asking (R : List Byte) (q : HttpDownloadProc cap) : Prop where
  asked  : ∀ req, q.client = .asked req →
    ∃ last, req.range = some (q.preDownloadPos.toNat, some last) ∧ q.preDownloadPos.toNat ≤ last
  coming : ∀ r rest, q.client = .answering r rest → Under R q 0 r rest

/-- A block that is not pushed yet. -/
structure Taken (R : List Byte) (q : HttpDownloadProc cap) : Prop where
  len    : (q.unread.length : Int) = q.recvLen - q.readPos
  pos    : q.readPos < q.recvLen
  fits   : q.preDownloadPos + q.unread.length ≤ R.length
  asked  : ∀ req, q.client ≠ .asked req
  coming : ∀ r rest, q.client = .answering r rest → Under R q q.unread.length r rest

/-- What the state says of the process. -/
structure AtState (R : List Byte) (state : Word) (q : HttpDownloadProc cap) : Prop where
  recv     : state = httpDownloadStaRecv → Asking R q
  waitFree : state = httpDownloadStaWaitFree → Taken R q

/-- The invariant. -/
structure InRange (R : List Byte) (s : DownloadSys cap) : Prop where
  mem     : s.curState ∈ downloadStates
  bounded : Bounded R s.proc
  atState : AtState R s.curState s.proc

section
variable {p q : HttpDownloadProc cap} {env : HttpEnv} {R : List Byte} {s : DownloadSys cap}
  {r : HttpReply} {rest : List Byte} {rangeLen : Int}

theorem Bounded.of_sameData (h : Bounded R p) (hs : SameData p q) : Bounded R q where
  rangeEnable := hs.rangeEnable.trans h.rangeEnable
  nonneg := hs.preDownloadPos ▸ h.nonneg
  le_len := hs.preDownloadPos ▸ h.le_len
  total := hs.totalLength ▸ h.total
  total_le := hs.totalLength ▸ h.total_le

theorem asking_closed (h : q.client = .closed) : Asking R q := by
  constructor
  · intro req hc
    rw [h] at hc
    cases hc
  · intro r rest hc
    rw [h] at hc
    cases hc

/-- The request that goes out is that of the process it is handed over for. -/
theorem connAction_asked (hrecv : (httpDownloadProcConnAction env p).2 = httpDownloadStaRecv) :
    ∃ q, httpDownloadConnSends env p = some q ∧ SameData p q ∧
      (httpDownloadProcConnAction env p).1.client = .asked (httpDownloadRequest q).1 := by
  by_cases hparam : p.url = none ∨ p.httpBuffer = none
  · have hconn : httpDownloadProcConn env p = (.errParam, p) := by
      unfold httpDownloadProcConn
      rw [if_pos hparam]
    rw [connAction_of hconn, if_neg (by simp), if_pos (.inr rfl)] at hrecv
    exact absurd hrecv (show httpDownloadStaIdle ≠ httpDownloadStaRecv by decide)
  obtain ⟨ret, q, hopen⟩ : ∃ ret q, httpDownloadProcOpenClient env p = (ret, q) := ⟨_, _, rfl⟩
  by_cases hret : ret = .success
  · subst hret
    obtain ⟨q', hconn, -, -, -, hclient⟩ := conn_of_opened hparam hopen
    have hsends : httpDownloadConnSends env p = some q := by
      unfold httpDownloadConnSends
      rw [if_neg hparam, hopen]
    have hsame : SameData p q := by
      have h : SameData p (httpDownloadProcOpenClient env p).2 := .openClient
      rwa [hopen] at h
    refine ⟨q, hsends, hsame, ?_⟩
    cases hsend : env.send.failed with
    | true =>
      rw [hsend, if_pos rfl] at hconn
      rw [connAction_of hconn, if_neg (by simp), if_neg (by simp)] at hrecv
      exact absurd hrecv recv_ne_hold.symm
    | false =>
      rw [hsend, if_neg Bool.false_ne_true] at hconn
      rw [connAction_of hconn, if_pos rfl]
      exact hclient hsend
  · have hconn : httpDownloadProcConn env p = (ret, q) := by
      unfold httpDownloadProcConn
      rw [if_neg hparam, hopen]
      cases ret <;> first | rfl | exact absurd rfl hret
    rw [connAction_of hconn, if_neg hret] at hrecv
    split at hrecv
    · exact absurd hrecv (show httpDownloadStaIdle ≠ httpDownloadStaRecv by decide)
    · exact absurd hrecv recv_ne_hold.symm

/-- What is asked for in range is answered within the resource. -/
theorem asking_of_asked {req : HttpRequest} (hasked : q.client = .asked req) (hok : p.RangeOk)
    (hreq : req = (httpDownloadRequest p).1) (hpos : q.preDownloadPos = p.preDownloadPos) : Asking R q := by
  obtain ⟨first, last, -, hfirst, hle, -, -, hrange⟩ := hok
  constructor
  · intro req' hc
    rw [hasked] at hc
    cases hc
    refine ⟨last, ?_, by omega⟩
    rw [hreq, hrange, hpos, hfirst]
    rfl
  · intro r rest hc
    rw [hasked] at hc
    cases hc

theorem atState_recv (h : Asking R q) : AtState R httpDownloadStaRecv q :=
  ⟨fun _ => h, fun h' => absurd h' (by decide)⟩

theorem atState_waitFree (h : Taken R q) : AtState R httpDownloadStaWaitFree q :=
  ⟨fun h' => absurd h' (by decide), fun _ => h⟩

theorem atState_idle : AtState R httpDownloadStaIdle q :=
  ⟨fun h => absurd h (by decide), fun h => absurd h (by decide)⟩

theorem atState_pause : AtState R httpDownloadStaPause q :=
  ⟨fun h => absurd h (by decide), fun h => absurd h (by decide)⟩

theorem atState_waitRange : AtState R httpDownloadStaWaitRange q :=
  ⟨fun h => absurd h (by decide), fun h => absurd h (by decide)⟩

theorem InRange.after {res : HttpDownloadProc cap × Word} (h : s.curState ∈ downloadStates) (hends : Ends res)
    (hb : Bounded R res.1) (hat : AtState R (if res.2 = comFsmHoldState then s.curState else res.2) res.1) :
    InRange R (s.after res) := by
  refine ⟨after_mem h hends, hb, ?_⟩
  rw [after_curState]
  exact hat

theorem connSends_sameData (h : httpDownloadConnSends env p = some q) : SameData p q := by
  unfold httpDownloadConnSends at h
  split at h
  · cases h
  · have hsame : SameData p (httpDownloadProcOpenClient env p).2 := .openClient
    generalize httpDownloadProcOpenClient env p = res at h hsame
    obtain ⟨ret, q'⟩ := res
    cases ret <;> cases h
    exact hsame

/-- A process within bounds that asks where there is room asks for a range. -/
theorem Bounded.rangeOk_iff (h : Bounded R q) (hsmall : R.length < 2147483648 ∧ 2 * (cap + 1) ≤ 2147483648) :
    q.RangeOk ↔ q.RangeMet :=
  AudioPlayer.rangeOk_iff h.rangeEnable h.nonneg (by have := h.le_len; omega) hsmall.2 h.total
    (by have := h.total_le; omega)

/-- A connection that is made, or not, from anywhere but WAIT_FREE. -/
theorem InRange.conn (hsmall : R.length < 2147483648 ∧ 2 * (cap + 1) ≤ 2147483648)
    (h : s.curState ∈ downloadStates) (hne : s.curState ≠ httpDownloadStaWaitFree) (hb : Bounded R p)
    (hmet : ∀ q, httpDownloadConnSends env p = some q → q.RangeMet) :
    InRange R (s.after (httpDownloadProcConnAction env p)) := by
  have hends : Ends (httpDownloadProcConnAction env p) := connAction_ends
  have hout := connAction_cases env p
  have hasked := @connAction_asked cap p env
  generalize httpDownloadProcConnAction env p = res at hends hout hasked
  cases hout with
  | @sent q' req h1 h2 h3 h4 h5 =>
    obtain ⟨q, hsends, hsame, hclient⟩ := hasked rfl
    rw [h4] at hclient
    have hreq : req = (httpDownloadRequest q).1 := by injection hclient
    have hok := ((hb.of_sameData hsame).rangeOk_iff hsmall).2 (hmet q hsends)
    refine .after h hends (hb.of_sameData h1) ?_
    rw [if_neg recv_ne_hold]
    exact atState_recv (asking_of_asked h4 hok hreq (h1.preDownloadPos.trans hsame.preDownloadPos.symm))
  | gaveUp h1 =>
    refine .after h hends (hb.of_sameData h1) ?_
    rw [if_neg hold_ne_idle.symm]
    exact atState_idle
  | held h1 h2 h3 =>
    refine .after h hends (hb.of_sameData h1) ?_
    rw [if_pos rfl]
    exact ⟨fun _ => asking_closed h3, fun hwait => absurd hwait hne⟩

/-! ### A block -/

theorem recvBlock_total (hlow : -1 ≤ p.totalLength) (hhigh : p.totalLength ≤ R.length)
    (hlen : 0 < p.clientData.responseContentLen) (hpart : p.clientData.responseContentLen ≤ R.length)
    (hknown : p.ext.rangeLen ≤ R.length) : -1 ≤ (httpDownloadProcRecvBlock p).2.totalLength ∧
      (httpDownloadProcRecvBlock p).2.totalLength ≤ R.length := by
  have hpair : ∀ (c : Prop) [Decidable c] (q : HttpDownloadProc cap),
      (if c then (HttpDownloadProcReturn.errRecvSkip, q) else (.success, q)).2 = q := by
    intro c _ q
    split <;> rfl
  have hset : ∀ (c : Prop) [Decidable c] (q q' : HttpDownloadProc cap),
      -1 ≤ q.totalLength ∧ q.totalLength ≤ R.length → -1 ≤ q'.totalLength ∧ q'.totalLength ≤ R.length →
      -1 ≤ (if c then q else q').totalLength ∧ (if c then q else q').totalLength ≤ R.length := by
    intro c _ q q' hq hq'
    split
    · exact hq
    · exact hq'
  unfold httpDownloadProcRecvBlock
  simp only []
  rw [hpair]
  have hbefore := hset p.clientData.isChunked
    { p with isChunked := true, totalLength := p.clientData.responseContentLen }
    (if p.lengthReceived then p
    else { p with totalLength := if p.ext.isRange ∧ 0 < p.ext.rangeLen then p.ext.rangeLen
                    else p.clientData.responseContentLen, lengthReceived := true })
    ⟨by simp only []; omega, hpart⟩ (hset _ _ _ ⟨hlow, hhigh⟩ (by simp only []; split <;> omega))
  exact hset _ _ _ hbefore hbefore

/-- A block of a ranged reply that is taken in whole. -/
structure Whole (R : List Byte) (p : HttpDownloadProc cap) (r : HttpReply) (rest : List Byte)
    (q : HttpDownloadProc cap) : Prop where
  bounded : Bounded R q
  pos     : q.preDownloadPos = p.preDownloadPos
  client  : q.client = if 2048 ≤ rest.length then .answering r (rest.drop 2048) else .open
  ranged  : q.ext.isRange = true
  known   : q.ext.rangeLen = R.length
  recvLen : q.recvLen = (rest.take 2048).length
  readPos : q.readPos = 0
  block   : q.unread = rest.take 2048

theorem recvBlock_whole (hb : Bounded R p) (hlen : 0 < env.recvData.responseContentLen)
    (hhands : HandsBlock p r rest true R.length env)
    (hk : r.body.length ≤ R.length ∧ ∃ k, r.body.length = rest.length + 2048 * k) :
    ∃ q, Whole R p r rest q ∧ httpDownloadProcRecvBlock (p.handed env) =
      (if q.recvLen ≤ q.readPos then .errRecvSkip else .success, q) := by
  obtain ⟨q, hf, hq⟩ := recvBlock_filed (p.handed env)
  obtain ⟨ext, hext, hrange, hknown, -⟩ := hhands.ext
  have hextq : q.ext = ext := by
    unfold HttpDownloadProc.ext
    rw [hf.clientDataExt]
    exact congrArg (Option.getD · {}) hext
  have heq : (p.handed env).ext = ext := by simp [HttpDownloadProc.handed, HttpDownloadProc.ext, hext]
  have hhanded : (p.handed env).ext.isRange = true := by
    rw [heq, hrange]
  have hpart : env.recvData.responseContentLen ≤ R.length := by
    rcases hhands.len with hall | ⟨-, -, -, hle⟩ <;> omega
  have htotal := recvBlock_total (R := R) (p := p.handed env) hb.total hb.total_le hlen hpart (by rw [heq, hknown])
  rw [hq] at htotal
  have hread : q.readPos = 0 := by
    rw [hf.readPos, if_pos hhanded]
  have hrecvLen : q.recvLen = (rest.take 2048).length := by
    rw [hf.recvLen]
    exact handed_len hk.2 hhands
  have hunread : q.unread = rest.take 2048 := by
    obtain ⟨tail, htail⟩ := hhands.block
    have hbuf : q.recvBuf = some env.recvData.responseBuf := hf.recvBuf
    unfold HttpDownloadProc.unread
    rw [hbuf, hread, hrecvLen, ← htail]
    simp only [Option.getD_some, Int.toNat_zero, List.drop_zero, sub_zero, Int.toNat_natCast, List.take_left]
  exact ⟨q, ⟨⟨hf.rangeEnable.trans hb.rangeEnable, hf.preDownloadPos ▸ hb.nonneg, hf.preDownloadPos ▸ hb.le_len,
    htotal.1, htotal.2⟩, hf.preDownloadPos, hf.client.trans hhands.conn, hextq ▸ hrange, hextq ▸ hknown, hrecvLen, hread,
    hunread⟩, hq⟩

/-- The connection behind a block. -/
theorem Whole.coming (h : Whole R p r rest q) (hk : r.body.length ≤ R.length ∧ ∃ k, r.body.length = rest.length + 2048 * k)
    (hfit : p.preDownloadPos + rest.length ≤ R.length) :
    (∀ req, q.client ≠ .asked req) ∧
      ∀ r' rest', q.client = .answering r' rest' → Under R q (rest.take 2048).length r' rest' := by
  constructor
  · intro req hc
    rw [h.client] at hc
    split at hc <;> cases hc
  · intro r' rest' hc
    rw [h.client] at hc
    split at hc
    case isFalse => cases hc
    case isTrue hfull =>
      cases hc
      obtain ⟨hpart, k, hk⟩ := hk
      refine ⟨h.ranged, h.known, hpart, ⟨k + 1, ?_⟩, ?_⟩
      · rw [List.length_drop]
        omega
      · rw [h.pos, List.length_drop, List.length_take]
        omega

/-- A block with something in it waits to be pushed. -/
theorem Whole.taken (h : Whole R p r rest q) (hk : r.body.length ≤ R.length ∧ ∃ k, r.body.length = rest.length + 2048 * k)
    (hfit : p.preDownloadPos + rest.length ≤ R.length) (hpos : ¬q.recvLen ≤ q.readPos) : Taken R q := by
  obtain ⟨hasked, hcoming⟩ := h.coming hk hfit
  have hblock := h.block
  have hlen := h.recvLen
  have hread := h.readPos
  refine ⟨?_, by omega, ?_, hasked, ?_⟩
  · rw [hblock]
    omega
  · rw [hblock, h.pos, List.length_take]
    omega
  · rw [hblock]
    exact hcoming

/-- One without is thrown away. -/
theorem Whole.asking (h : Whole R p r rest q) (hk : r.body.length ≤ R.length ∧ ∃ k, r.body.length = rest.length + 2048 * k)
    (hfit : p.preDownloadPos + rest.length ≤ R.length) (hpos : q.recvLen ≤ q.readPos) : Asking R q := by
  obtain ⟨hasked, hcoming⟩ := h.coming hk hfit
  have hlen := h.recvLen
  have hread := h.readPos
  refine ⟨fun req hc => absurd hc (hasked req), ?_⟩
  intro r' rest' hc
  have hunder := hcoming r' rest' hc
  have hnone : (rest.take 2048).length = 0 := by omega
  rwa [hnone] at hunder

/-- What a reply that is under way or begins comes to, block by block. -/
theorem Receives.block (h : Receives R p env) (ha : Asking R p) (hb : Bounded R p) (hok : env.recvRet.failed = false)
    (hdirect : ¬(!p.redirect && decide ((p.handed env).ext.location ≠ [])) = true)
    (hlen : 0 < env.recvData.responseContentLen) :
    ∃ r rest, HandsBlock p r rest true R.length env ∧
      (r.body.length ≤ R.length ∧ ∃ k, r.body.length = rest.length + 2048 * k) ∧
      p.preDownloadPos + rest.length ≤ R.length := by
  cases h with
  | failed hfail => exact absurd hfail (by rw [hok]; decide)
  | redirected hredirect hloc =>
    refine absurd ?_ hdirect
    simp only [hredirect, Bool.not_false, Bool.true_and, decide_eq_true_eq]
    exact hloc
  | hands hhands =>
    cases hhands with
    | failed hfail => exact absurd hfail (by rw [hok]; decide)
    | @first req r hc hanswers hblock =>
      obtain ⟨last, hrange, hle⟩ := ha.asked req hc
      obtain ⟨hbody, hsome⟩ := hanswers _ _ hrange hle
      have hne : r.body ≠ [] := by
        intro hnil
        rcases hblock.len with hlen' | ⟨-, hlong, -⟩
        · rw [hnil] at hlen'
          simp at hlen'
          omega
        · simp [hnil] at hlong
      rw [(hsome hne).2.1, (hsome hne).2.2] at hblock
      have hslice : r.body.length ≤ R.length - p.preDownloadPos.toNat := by
        rw [hbody, HttpRequest.slice, hrange]
        simp only [List.length_take, List.length_drop]
        omega
      refine ⟨r, r.body, hblock, ⟨by omega, 0, rfl⟩, ?_⟩
      have := hb.nonneg
      have := hb.le_len
      omega
    | @next r rest hc hblock =>
      have hunder := ha.coming r rest hc
      rw [hunder.ranged, hunder.known] at hblock
      exact ⟨r, rest, hblock, ⟨hunder.part, hunder.whole⟩, by have := hunder.fits; omega⟩

/-- What `http_download_proc_recv` comes to: a block to push, one without bytes, or nothing. -/
structure Comes (R : List Byte) (res : HttpDownloadProcReturn × HttpDownloadProc cap) : Prop where
  bounded : Bounded R res.2
  success : res.1 = .success → Taken R res.2
  skip    : res.1 = .errRecvSkip → Asking R res.2

theorem Comes.lost {ret : HttpDownloadProcReturn} (hq : Bounded R q) (hsuccess : ret ≠ .success)
    (hskip : ret ≠ .errRecvSkip) : Comes R (ret, q) :=
  ⟨hq, fun h => absurd h hsuccess, fun h => absurd h hskip⟩

theorem Whole.comes (h : Whole R p r rest q) (hk : r.body.length ≤ R.length ∧ ∃ k, r.body.length = rest.length + 2048 * k)
    (hfit : p.preDownloadPos + rest.length ≤ R.length) :
    Comes R (if q.recvLen ≤ q.readPos then .errRecvSkip else .success, q) := by
  refine ⟨h.bounded, ?_, ?_⟩
  · intro hret
    refine h.taken hk hfit ?_
    intro hskip
    simp [if_pos hskip] at hret
  · intro hret
    refine h.asking hk hfit ?_
    by_contra hpos
    simp [if_neg hpos] at hret

theorem recv_comes (h : Receives R p env) (ha : Asking R p) (hb : Bounded R p) :
    Comes R (httpDownloadProcRecv env p) := by
  obtain ⟨h1, h2, h3, h4, h5⟩ := hb
  unfold httpDownloadProcRecv
  simp only []
  split
  case isTrue =>
    have hret : ∀ c : Prop, ∀ [Decidable c], (if c then HttpDownloadProcReturn.errTryRecv else .errRecv) ≠ .success ∧
        (if c then HttpDownloadProcReturn.errTryRecv else .errRecv) ≠ .errRecvSkip := by
      intro c _
      split <;> simp
    refine .lost ?_ (hret _).1 (hret _).2
    split <;> exact ⟨h1, h2, h3, h4, h5⟩
  rename_i hok
  split
  case isTrue => split <;> exact .lost ⟨h1, h2, h3, h4, h5⟩ (by simp) (by simp)
  rename_i hdirect
  split
  case isTrue =>
    refine .lost ⟨h1, h2, h3, h4, h5⟩ ?_ ?_
    · split <;> simp
    · split <;> simp
  rename_i hlen
  split
  case isTrue hdisabled => exact absurd hdisabled (by simp [h1])
  split
  case isTrue => exact .lost ⟨h1, h2, h3, h4, h5⟩ (by simp) (by simp)
  obtain ⟨r, rest, hhands, hk, hfit⟩ :=
    h.block ha ⟨h1, h2, h3, h4, h5⟩ (by simpa using hok) hdirect (Int.not_le.1 hlen)
  obtain ⟨q, hq, hres⟩ := recvBlock_whole ⟨h1, h2, h3, h4, h5⟩ (Int.not_le.1 hlen) hhands hk
  have hcomes := hq.comes hk hfit
  rw [← hres] at hcomes
  exact hcomes

/-! ### Pushing it -/

theorem Taken.of_same (h : Taken R p) (hs : SameBlock p q) : Taken R q where
  len := by
    rw [hs.unread, hs.recvLen, hs.readPos]
    exact h.len
  pos := by
    rw [hs.recvLen, hs.readPos]
    exact h.pos
  fits := by
    rw [hs.unread, hs.preDownloadPos]
    exact h.fits
  asked := by
    rw [hs.client]
    exact h.asked
  coming := by
    rw [hs.client, hs.unread]
    intro r rest hc
    obtain ⟨h1, h2, h3, h4, h5⟩ := h.coming r rest hc
    exact ⟨hs.ext ▸ h1, hs.ext ▸ h2, h3, h4, hs.preDownloadPos ▸ h5⟩

theorem Asking.of_same (h : Asking R p) (hs : SameBlock p q) : Asking R q where
  asked := by
    rw [hs.client, hs.preDownloadPos]
    exact h.asked
  coming := by
    rw [hs.client]
    intro r rest hc
    obtain ⟨h1, h2, h3, h4, h5⟩ := h.coming r rest hc
    exact ⟨hs.ext ▸ h1, hs.ext ▸ h2, h3, h4, hs.preDownloadPos ▸ h5⟩

theorem Pushed.bounded (h : Pushed p q) (hb : Bounded R p) (ht : Taken R p) (hR : (R.length : Int) < 2147483648) :
    Bounded R q ∧ q.preDownloadPos = p.preDownloadPos + p.unread.length := by
  have hfits := ht.fits
  have h0 := hb.nonneg
  have hpos : q.preDownloadPos = p.preDownloadPos + p.unread.length := by
    rw [h.preDownloadPos, toI32_eq] <;> omega
  exact ⟨⟨h.rangeEnable.trans hb.rangeEnable, by omega, by omega, h.totalLength ▸ hb.total, h.totalLength ▸ hb.total_le⟩,
    hpos⟩

theorem InRange.push (hR : (R.length : Int) < 2147483648) (h : s.curState ∈ downloadStates) (hb : Bounded R p)
    (ht : Taken R p) : InRange R (s.after (httpDownloadProcPushAction p)) := by
  have hends : Ends (httpDownloadProcPushAction p) := pushAction_ends
  have hout := pushAction_cases ht.len ht.pos
  generalize httpDownloadProcPushAction p = res at hends hout
  have hgo := hout.ne_hold
  cases hout with
  | full =>
    refine .after h hends (hb.of_sameData ((SameData.refl p).lastError _)) ?_
    rw [if_neg hgo]
    exact atState_waitFree (ht.of_same (.setError p _))
  | ended hp =>
    refine .after h hends (hp.bounded hb ht hR).1 ?_
    rw [if_neg hgo]
    exact atState_idle
  | rangeEnd hp =>
    refine .after h hends (hp.bounded hb ht hR).1 ?_
    rw [if_neg hgo]
    exact atState_waitRange
  | @more q hp _ _ hclient hext =>
    obtain ⟨hq, hpos⟩ := hp.bounded hb ht hR
    refine .after h hends hq ?_
    rw [if_neg hgo]
    refine atState_recv ⟨fun req hc => absurd (hclient ▸ hc) (ht.asked req), ?_⟩
    intro r rest hc
    obtain ⟨h1, h2, h3, h4, h5⟩ := ht.coming r rest (hclient ▸ hc)
    exact ⟨hext ▸ h1, hext ▸ h2, h3, h4, by rw [hpos]; omega⟩

/-- The receive poll, in RECV. -/
theorem InRange.recvPoll (hsmall : R.length < 2147483648 ∧ 2 * (cap + 1) ≤ 2147483648) (h : InRange R s)
    (hcur : s.curState = httpDownloadStaRecv) (hrecv : Receives R s.proc env)
    (hmet : ∀ q, httpDownloadSends env .recvPoll s.proc = some q → q.RangeMet) :
    InRange R (s.after (httpDownloadProcRecvPoll env s.proc)) := by
  have hends : Ends (httpDownloadProcRecvPoll env s.proc) := recvPoll_ends
  have hcomes := recv_comes hrecv (h.atState.recv hcur) h.bounded
  have hne : s.curState ≠ httpDownloadStaWaitFree := by rw [hcur]; decide
  unfold httpDownloadSends at hmet
  obtain ⟨ret, q, hres⟩ : ∃ ret q, httpDownloadProcRecv env s.proc = (ret, q) := ⟨_, _, rfl⟩
  rw [hres] at hcomes
  simp only [hres] at hmet
  have hsame : SameData q { q with lastError := ret } := (SameData.refl q).lastError ret
  rw [recvPoll_of hres] at hends ⊢
  by_cases hsuccess : ret = .success
  · rw [if_pos hsuccess]
    refine .push (by omega) h.mem (hcomes.bounded.of_sameData hsame) ?_
    exact (hcomes.success hsuccess).of_same (.setError q _)
  rw [if_neg hsuccess] at hends ⊢
  by_cases hskip : ret = .errRecvSkip
  · rw [if_pos hskip] at hends ⊢
    refine .after h.mem hends (hcomes.bounded.of_sameData hsame) ?_
    rw [if_pos rfl, hcur]
    exact atState_recv ((hcomes.skip hskip).of_same (.setError q _))
  rw [if_neg hskip] at hends ⊢
  have hclose := (hsame.trans (.closeClient { q with lastError := ret }))
  by_cases hagain : ret = .errRecv ∨ ret = .redirect
  · rw [if_pos hagain]
    rw [if_pos hagain] at hmet
    exact .conn hsmall h.mem hne (hcomes.bounded.of_sameData hclose) hmet
  · rw [if_neg hagain] at hends ⊢
    refine .after h.mem hends (hcomes.bounded.of_sameData (hsame.trans (.stop _))) ?_
    rw [if_neg hold_ne_idle.symm]
    exact atState_idle

/-- Where each action runs that a START does not. -/
theorem select_running {state : Word} {stop pause resume : Bool} {a : HttpDownloadAction} (hs : state ∈ downloadStates)
    (h : httpDownloadSelect state (downloadEvents false stop pause resume) = some a) :
    a = .stop ∨ a = .pause ∨ a = .conn ∧ state = httpDownloadStaPause ∨ a = .recvPoll ∧ state = httpDownloadStaRecv ∨
      a = .waitFreePoll ∧ state = httpDownloadStaWaitFree ∨ a = .waitRangePoll ∧ state = httpDownloadStaWaitRange := by
  rw [select_download hs, if_neg (by simp)] at h
  split at h
  · cases h
    exact .inl rfl
  split at h
  · cases h
    exact .inr (.inl rfl)
  split at h
  · rename_i hresume
    cases h
    exact .inr (.inr (.inl ⟨rfl, hresume.2⟩))
  simp only [downloadStates, List.mem_cons, List.not_mem_nil, or_false] at hs
  rcases hs with rfl | rfl | rfl | rfl | rfl
  · cases h
  · cases h
  · cases h
    exact .inr (.inr (.inr (.inl ⟨rfl, rfl⟩)))
  · cases h
    exact .inr (.inr (.inr (.inr (.inl ⟨rfl, rfl⟩))))
  · cases h
    exact .inr (.inr (.inr (.inr (.inr ⟨rfl, rfl⟩))))

/-- An action keeps the positions within the resource. -/
theorem InRange.exec (hsmall : R.length < 2147483648 ∧ 2 * (cap + 1) ≤ 2147483648) (h : InRange R s)
    {stop pause resume : Bool} {a : HttpDownloadAction} (hrecv : Receives R s.proc env)
    (hselect : httpDownloadSelect s.curState (downloadEvents false stop pause resume) = some a)
    (hmet : ∀ q, httpDownloadSends env a s.proc = some q → q.RangeMet) :
    InRange R (s.after (httpDownloadExec env a s.proc)) := by
  have hends : Ends (httpDownloadExec env a s.proc) := exec_ends a
  rcases select_running h.mem hselect with
    rfl | rfl | ⟨rfl, hcur⟩ | ⟨rfl, hcur⟩ | ⟨rfl, hcur⟩ | ⟨rfl, hcur⟩
  · have hsame : SameData s.proc (httpDownloadProcStopAction s.proc).1 :=
      ((SameData.refl _).lastError _).trans (.stop _)
    exact .after h.mem hends (h.bounded.of_sameData hsame) atState_idle
  · exact .after h.mem hends (h.bounded.of_sameData (.closeClient _)) atState_pause
  · exact .conn hsmall h.mem (by rw [hcur]; decide) h.bounded hmet
  · exact h.recvPoll hsmall hcur hrecv hmet
  · have ht := (h.atState.waitFree hcur).of_same (.setError s.proc (httpDownloadWaitFree s.proc))
    have hb := h.bounded.of_sameData ((SameData.refl s.proc).lastError (httpDownloadWaitFree s.proc))
    unfold httpDownloadExec httpDownloadProcWaitFreePoll at hends ⊢
    simp only [] at hends ⊢
    split at hends
    case isTrue hfree =>
      rw [if_pos hfree]
      exact .push (by omega) h.mem hb ht
    case isFalse hfree =>
      rw [if_neg hfree]
      refine .after h.mem hends hb ?_
      rw [if_pos rfl, hcur]
      exact atState_waitFree ht
  · have hb := h.bounded.of_sameData ((SameData.refl s.proc).lastError (httpDownloadWaitRange s.proc))
    unfold httpDownloadExec httpDownloadProcWaitRangePoll at hends ⊢
    unfold httpDownloadSends at hmet
    simp only [] at hends hmet ⊢
    split at hends
    case isTrue hfree =>
      rw [if_pos hfree] at hmet ⊢
      exact .conn hsmall h.mem (by rw [hcur]; decide) hb hmet
    case isFalse hfree =>
      rw [if_neg hfree]
      refine .after h.mem hends hb ?_
      rw [if_pos rfl, hcur]
      exact atState_waitRange

/-- What START makes of the process it finds. -/
theorem start_bounded {queue : Fifo Byte cap} {url : List Byte} {seekPos : Nat} (hseek : seekPos < R.length)
    (hlow : -1 ≤ p.totalLength) (hhigh : p.totalLength ≤ R.length) :
    Bounded R (httpDownloadProcStart env (httpDownloadStartInner queue url true seekPos p)).2 := by
  unfold httpDownloadProcStart httpDownloadStartInner
  split
  · exact ⟨rfl, Int.natCast_nonneg _, by simp only []; omega, hlow, hhigh⟩
  split
  · exact ⟨rfl, Int.natCast_nonneg _, by simp only []; omega, hlow, hhigh⟩
  · refine ⟨rfl, Int.natCast_nonneg _, by simp only []; omega, ?_, ?_⟩
    · simp only []
      split <;> omega
    · simp only []
      split <;> omega

theorem InRange.started (hsmall : R.length < 2147483648 ∧ 2 * (cap + 1) ≤ 2147483648) {queue : Fifo Byte cap}
    {url : List Byte} {seekPos : Nat} {pause resume : Bool} (hseek : seekPos < R.length) (hlow : -1 ≤ p.totalLength)
    (hhigh : p.totalLength ≤ R.length)
    (hmet : ∀ q, httpDownloadSends env .start (httpDownloadStartInner queue url true seekPos p) = some q → q.RangeMet) :
    InRange R (DownloadSys.started queue url true seekPos p pause resume env) := by
  have hb := @start_bounded cap p env R queue url seekPos hseek hlow hhigh
  have hends : Ends (httpDownloadProcStartAction env (httpDownloadStartInner queue url true seekPos p)) :=
    @exec_ends _ _ env .start
  obtain ⟨ret, q, hres⟩ :
      ∃ ret q, httpDownloadProcStart env (httpDownloadStartInner queue url true seekPos p) = (ret, q) := ⟨_, _, rfl⟩
  have haction : httpDownloadProcStartAction env (httpDownloadStartInner queue url true seekPos p) =
      if ret = .success then httpDownloadProcConnAction env { q with lastError := ret }
      else (httpDownloadProcStop { q with lastError := ret }, comFsmHoldState) := by
    unfold httpDownloadProcStartAction
    rw [hres]
  rw [hres] at hb
  simp only [httpDownloadSends, hres] at hmet
  rw [haction] at hends
  rw [started_eq, haction]
  have hidle : httpDownloadStaIdle ≠ httpDownloadStaWaitFree := by decide
  have hsame : SameData q { q with lastError := ret } := (SameData.refl q).lastError ret
  by_cases hsuccess : ret = .success
  · rw [if_pos hsuccess] at hmet ⊢
    exact .conn hsmall idle_mem hidle (hb.of_sameData hsame) hmet
  · rw [if_neg hsuccess] at hends ⊢
    refine .after idle_mem hends (hb.of_sameData (hsame.trans (.stop _))) ?_
    rw [if_pos rfl]
    exact atState_idle

/-- **One step keeps the positions within the resource**, if it asks where there is room. -/
theorem InRange.step (hsmall : R.length < 2147483648 ∧ 2 * (cap + 1) ≤ 2147483648) {a : RangedAct cap}
    {t : DownloadSys cap} (h : InRange R s) (hs : Restrict (RangedStep R) RangesMet s a t) : InRange R t := by
  obtain ⟨hstep, hmet⟩ := hs
  cases hstep with
  | pop =>
    obtain ⟨hmem, ⟨h1, h2, h3, h4, h5⟩, hat⟩ := h
    exact ⟨hmem, ⟨h1, h2, h3, h4, h5⟩, fun hc => (hat.recv hc).of_same (.pop _ _),
      fun hc => (hat.waitFree hc).of_same (.pop _ _)⟩
  | start hidle hseek => exact .started hsmall hseek h.bounded.total h.bounded.total_le hmet
  | @turn stop pause resume env hrecv =>
    rw [turn_eq exit_downloadEvents]
    cases hselect : httpDownloadSelect s.curState (downloadEvents false stop pause resume) with
    | none => exact h
    | some a =>
      refine h.exec hsmall hrecv hselect ?_
      intro q hq
      refine hmet q ?_
      simp only [rangedSends, hselect, Option.bind_some]
      exact hq

/-- A request is handed over for a process within bounds. -/
theorem InRange.sends {a : RangedAct cap} {t : DownloadSys cap} (h : InRange R s) (hs : RangedStep R s a t)
    (hq : rangedSends s a = some q) : Bounded R q := by
  have hconn : ∀ p' : HttpDownloadProc cap, Bounded R p' → ∀ env, httpDownloadConnSends env p' = some q → Bounded R q :=
    fun _ hb _ hq => hb.of_sameData (connSends_sameData hq)
  cases hs with
  | pop => cases hq
  | @start queue url seekPos pause resume env hidle hseek =>
    have hb := @start_bounded cap s.proc env R queue url seekPos hseek h.bounded.total h.bounded.total_le
    simp only [rangedSends, httpDownloadSends] at hq
    split at hq
    · exact hconn _ (hb.of_sameData ((SameData.refl _).lastError _)) env hq
    · cases hq
  | @turn stop pause resume env hrecv =>
    obtain ⟨a, hselect, hq⟩ := Option.bind_eq_some_iff.1 hq
    rcases select_running h.mem hselect with
      rfl | rfl | ⟨rfl, hcur⟩ | ⟨rfl, hcur⟩ | ⟨rfl, hcur⟩ | ⟨rfl, hcur⟩
    · cases hq
    · cases hq
    · exact hconn _ h.bounded env hq
    · have hcomes := recv_comes hrecv (h.atState.recv hcur) h.bounded
      simp only [httpDownloadSends] at hq
      split at hq
      · exact hconn _ (hcomes.bounded.of_sameData (((SameData.refl _).lastError _).trans (.closeClient _))) env hq
      · cases hq
    · cases hq
    · simp only [httpDownloadSends] at hq
      split at hq
      · exact hconn _ (h.bounded.of_sameData ((SameData.refl s.proc).lastError _)) env hq
      · cases hq

end

/-- **Every range that is asked for is right exactly under the condition**, in every run in which it held before: there
is room, something is missing, and `range_end` is an `int`. -/
theorem httpDownload_ranges {R : List Byte} (hR : R.length < 2147483648) (hcap : 2 * (cap + 1) ≤ 2147483648)
    {s t : DownloadSys cap} {a : RangedAct cap} {q : HttpDownloadProc cap}
    (h : Reach (Restrict (RangedStep R) RangesMet) ⟨httpDownloadStaIdle, httpDownloadInit⟩ s)
    (hstep : RangedStep R s a t) (hq : rangedSends s a = some q) : q.RangeOk ↔ q.RangeMet := by
  have hinit : InRange R (⟨httpDownloadStaIdle, httpDownloadInit⟩ : DownloadSys cap) :=
    ⟨idle_mem, ⟨rfl, le_rfl, Int.natCast_nonneg _, show (-1 : Int) ≤ 0 by omega, Int.natCast_nonneg _⟩, atState_idle⟩
  have hinv : InRange R s := h.invariant (fun _ _ _ hs hstep => hs.step ⟨hR, hcap⟩ hstep) hinit
  exact (hinv.sends hstep hq).rangeOk_iff ⟨hR, hcap⟩

/-- A download of eight bytes into an empty buffer of four starts with the first four. -/
theorem httpDownload_ranges_start :
    let p := httpDownloadStartInner (.empty : Fifo Byte 4) (bytes "http://a/") true (0 : Nat) httpDownloadInit
    ∃ q, httpDownloadSends .accepting .start p = some q ∧ q.rangeArgs = (0, 3) ∧ q.RangeOk ∧ q.RangeMet := by
  have hiff := httpDownload_ranges (by decide) (by decide) (.refl _)
    (@RangedStep.start 4 (bytes "abcdefgh") _ .empty (bytes "http://a/") 0 false false .accepting rfl (by decide)) rfl
  have hmet := hiff.2 ⟨fun _ => by decide, fun h => absurd h (by decide), fun _ => by decide⟩
  exact ⟨_, rfl, by decide, hmet, hiff.1 hmet⟩

/-- The first four of eight bytes fill the buffer; a pause and a resume then ask for bytes 4 to 3. -/
theorem httpDownload_ranges_full : ∃ (s t : DownloadSys 4) (a : RangedAct 4) (q : HttpDownloadProc 4),
    Reach (RangedStep (bytes "abcdefgh")) ⟨httpDownloadStaIdle, httpDownloadInit⟩ s ∧
      RangedStep (bytes "abcdefgh") s a t ∧ rangedSends s a = some q ∧ q.rangeArgs = (4, 3) ∧ ¬ q.RangeOk := by
  have hreply : HonoursRanges (bytes "abcdefgh") ⟨some (0, some 3), none⟩ ⟨206, true, 8, false, bytes "abcd"⟩ := by
    intro first last hrange hle
    cases hrange
    exact ⟨by decide, fun _ => ⟨rfl, rfl, rfl⟩⟩
  have hrecv : Receives (bytes "abcdefgh") (DownloadSys.started (.empty : Fifo Byte 4) (bytes "http://a/") true (0 : Nat)
      httpDownloadInit false false .accepting).proc (.handing 8 (bytes "abcd")) :=
    .hands (.first (by decide) hreply ⟨by decide, by decide, by decide, by decide, by decide, _, rfl, by decide⟩)
  have hidle : Reach (RangedStep (bytes "abcdefgh")) ⟨httpDownloadStaIdle, httpDownloadInit⟩
      (⟨httpDownloadStaIdle, httpDownloadInit⟩ : DownloadSys 4) := .refl _
  have hstart := hidle.tail
    (@RangedStep.start 4 _ _ .empty (bytes "http://a/") 0 false false .accepting rfl (by decide))
  have hreach := hstart.tail (@RangedStep.turn _ _ _ false false false _ hrecv)
  have hpause := hreach.tail (@RangedStep.turn _ _ _ false true false .accepting (.failed rfl))
  have hsends : (rangedSends (DownloadSys.turn (DownloadSys.turn (DownloadSys.started (.empty : Fifo Byte 4)
      (bytes "http://a/") true (0 : Nat) httpDownloadInit false false .accepting) (.handing 8 (bytes "abcd"))
      (downloadEvents false false false false)) .accepting (downloadEvents false false true false))
      (.turn false false true .accepting)).map HttpDownloadProc.rangeArgs = some (4, 3) := by
    decide
  obtain ⟨q, hq, hargs⟩ := Option.map_eq_some_iff.1 hsends
  refine ⟨_, _, _, q, hpause, .turn (.failed rfl), hq, hargs, ?_⟩
  rintro ⟨first, last, hpair, -, hle, -⟩
  have h43 : (first : Int) = 4 ∧ (last : Int) = 3 := Prod.mk.inj (hpair.symm.trans hargs)
  omega

end AudioPlayer

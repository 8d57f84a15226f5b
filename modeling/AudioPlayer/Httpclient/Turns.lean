import Mathlib
import AudioPlayer.Lib.Halts
import AudioPlayer.Httpclient.Response

/-!
# A call ends (`httpclient_recv_response`, `utils/httpclient.c:1163-1193`)

The loops of a call turn by turn, with no bound on the turns: a turn calls `httpclient_recv` at most twice. A
conversion or a sum that the language leaves undefined stores any number (`Unspecified`).

| here | there |
|---|---|
| `.headers`     | a turn of the loop over the header lines (`:957-1049`) |
| `.chunkHeader` | a turn of the loop that reads a chunk's size line (`:739-767`) |
| `.body`        | a turn of the loop that fills the response buffer (`:801-853`), with the line end behind a chunk (`:855-871`) |
| `.readToClose` | a turn of the loop of a body without a length (`:698-729`) |

`httpclientRecvResponse_reach`: what the functions of `Httpclient.Retrieve` and `Httpclient.Parse` return, the turns
come to. `httpclientCall_halts_iff`: every turn uses up input, but for one that waits for the end of a size line that
does not come (or does not fit). That one asks for no bytes at least, so the close does not end it.

`Httpclient.Ends` says on which streams a call comes to such a line.
-/

namespace AudioPlayer
open Lib

/-- Where a call is; `data` is the filled part of the receive buffer. -/
inductive HttpclientPoint
  | headers (cd : HttpclientData) (data : List Byte)
  | chunkHeader (cd : HttpclientData) (out data : List Byte)
  | body (cd : HttpclientData) (out data : List Byte) (readLen : Nat)
  | readToClose (cd : HttpclientData) (out data : List Byte)
  | returned (ret : HttpclientResult)
deriving DecidableEq

/-- What the program stores where the language does not say. -/
structure Unspecified where
  contentLen  : Int
  retrieveLen : Int
  readLen     : Int
  rangeBeg    : Int
  rangeEnd    : Int
  rangeLen    : Int
deriving Inhabited

/-- A header line's numbers where one of them does not fit. -/
def HttpclientData.unspecified (cd : HttpclientData) (u : Unspecified) : HttpclientData :=
  { cd with
    responseContentLen := u.contentLen, retrieveLen := u.contentLen
    ext := cd.ext.map fun ext =>
      { ext with rangeBeg := u.rangeBeg, rangeEnd := u.rangeEnd, rangeLen := u.rangeLen } }

/-- The test behind most calls of `httpclient_recv`. -/
def HttpclientPoint.recvd (ret : HttpclientResult) (new : List Byte) (p : HttpclientPoint) : HttpclientPoint :=
  if ret = .errorConn ∨ ret = .closed ∧ new = [] then .returned ret else p

/-- The start of the loop over the chunks (`httpclient.c:732-788`). -/
def httpclientNext (cd : HttpclientData) (out data : List Byte) : HttpclientPoint :=
  if cd.isChunked ∧ cd.retrieveLen ≤ 0 then .chunkHeader cd out data
  else .body cd out data (toSize .lp64 cd.retrieveLen)

/-- `httpclient_retrieve_content` up to its loops. -/
def httpclientContent (cd : HttpclientData) (data : List Byte) : HttpclientPoint :=
  let (data, cd) := httpclientTakeRemain data { cd with isMore := true }
  if cd.responseContentLen = -1 ∧ cd.isChunked = false then .readToClose cd [] data else httpclientNext cd [] data

/-- Behind the loop that fills the response buffer (`httpclient.c:855-876`). -/
def httpclientBodyEnd (cd : HttpclientData) (out data : List Byte) (s : Socket) : HttpclientPoint × Socket :=
  if cd.isChunked then
    match httpclientChunkEnd cd.responseBufLen out data s with
    | .ret ret s => (.returned ret, s)
    | .found data s => (httpclientNext cd out data, s)
  else (.returned .ok, s)

/-- One turn. -/
def httpclientTurn (expired : Socket → Bool) (u : Unspecified) :
    HttpclientPoint → Socket → HttpclientPoint × Socket
  | .headers cd data, s =>
    match strstr crlf (cstr data) with
    | none =>
      if data.length < httpclientChunkSize - 1 then
        let (ret, new, s) := httpclientRecv 1 (httpclientChunkSize - data.length - 1) s
        (.recvd ret new (.headers cd (data ++ new)), s)
      else (.returned .error, s)
    | some pos =>
      if pos = 0 then (httpclientContent cd (data.drop 2), s)
      else
        match strstr (bytes ": ") (cstr data) with
        | none => (.returned .error, s)
        | some colon =>
          let cd := (httpclientField cd (cstr data) colon (pos - colon - 2)).getD (cd.unspecified u)
          (.headers cd (data.drop (pos + 2)), s)
  | .chunkHeader cd out data, s =>
    match strstr crlf data.dropLast with
    | some pos =>
      match scanHex (cstr (data.take pos)) with
      | none => (.returned .errorPrtcl, s)
      | some (n, _) =>
        let readLen := toSize .lp64 (if n ≤ -18446744073709551616 ∨ 18446744073709551616 ≤ n then u.readLen else n)
        let retrieveLen := toI32 readLen
        let responseContentLen := (int32? (cd.responseContentLen + retrieveLen)).getD u.contentLen
        if readLen = 0 then (.returned .ok, s)
        else (.body { cd with retrieveLen, responseContentLen } out (data.drop (pos + 2)) readLen, s)
    | none =>
      if data.length < httpclientChunkSize then
        let maxRecv := min cd.responseBufLen httpclientChunkSize
        let (ret, new, s) := httpclientRecv 0 (maxRecv - data.length - 1) s
        (.recvd ret new (.chunkHeader cd out (data ++ new)), s)
      else (.returned .error, s)
  | .body cd out data readLen, s =>
    if expired s then (.returned .errorConn, s)
    else
      let templen := min data.length readLen
      if out.length + templen < cd.responseBufLen - 1 then
        let out := out ++ data.take templen
        if readLen ≤ data.length then httpclientBodyEnd { cd with retrieveLen := 0 } out (data.drop readLen) s
        else
          let retrieveLen := (int32? (cd.retrieveLen - templen)).getD u.retrieveLen
          let readLen := readLen - data.length
          let maxLen := min (min (httpclientChunkSize - 1) (cd.responseBufLen - 1 - out.length)) readLen
          let (ret, data, s) := httpclientRecv 1 maxLen s
          (.recvd ret data (.body { cd with retrieveLen } out data readLen), s)
      else (.returned .retrieveMoreData, s)
  | .readToClose cd out data, s =>
    if out.length + data.length < cd.responseBufLen - 1 then
      let out := out ++ data
      let maxLen := min (httpclientChunkSize - 1) (cd.responseBufLen - 1 - out.length)
      let (ret, data, s) := httpclientRecv 1 maxLen s
      if ret = .errorConn then (.returned ret, s)
      else if data = [] then (.returned .ok, s)
      else (.readToClose cd out data, s)
    else (.returned .retrieveMoreData, s)
  | .returned ret, s => (.returned ret, s)

/-- The start of a call, with a socket that is not below zero. -/
def httpclientCall (cd : HttpclientData) (s : Socket) : HttpclientPoint × Socket :=
  if cd.isMore then (httpclientContent { cd with responseBuf := cd.responseBuf.set 0 0 } [], s)
  else
    let (ret, data, s) := httpclientRecv 1 (httpclientChunkSize - 1) s
    if ret ≠ .ok ∧ ret ≠ .closed then (.returned ret, s)
    else if data ≠ [] then
      match strstr crlf (cstr data) with
      | none => (.returned .errorPrtcl, s)
      | some pos =>
        match httpclientStatusLine (data.take pos) with
        | none => (.returned .errorPrtcl, s)
        | some _ => (.headers cd.headStart (data.drop (pos + 2)), s)
    else (.returned ret, s)

/-- The call has returned. -/
def HttpclientReturned (at' : HttpclientPoint × Socket) : Prop := ∃ ret, at'.1 = .returned ret

/-- A call turn by turn. -/
def HttpclientTurn (expired : Socket → Bool) (p : HttpclientPoint × Socket) (u : Unspecified)
    (q : HttpclientPoint × Socket) : Prop :=
  ¬HttpclientReturned p ∧ q = httpclientTurn expired u p.1 p.2

/-! ## What the loops compute, the turns do -/

section
variable {cd cd' : HttpclientData} {out out' data data' line : List Byte} {s s' : Socket} {fuel readLen : Nat}
  {expired : Socket → Bool} {res : HttpclientResult × HttpclientData × Socket} {ret : HttpclientResult}
  {q : HttpclientPoint × Socket}

theorem reach_turn {p : HttpclientPoint} (hgo : ∀ ret, p ≠ .returned ret) :
    Reach (HttpclientTurn expired) (p, s) (httpclientTurn expired default p s) :=
  (Reach.refl _).tail (a := default) ⟨fun ⟨ret, hret⟩ => hgo ret hret, rfl⟩

theorem HttpclientPoint.recvd_ne {new : List Byte} {p : HttpclientPoint}
    (h : ¬(ret = .errorConn ∨ ret = .closed ∧ new = [])) : HttpclientPoint.recvd ret new p = p :=
  if_neg h

theorem HttpclientPoint.recvd_eq {new : List Byte} {p : HttpclientPoint}
    (h : ret = .errorConn ∨ ret = .closed ∧ new = []) : HttpclientPoint.recvd ret new p = .returned ret :=
  if_pos h

/-- Where the loop over the header lines comes to. -/
def ParsedHead.point : ParsedHead → HttpclientPoint × Socket
  | .done _ cd data s => (httpclientContent cd data, s)
  | .ret ret _ _ s => (.returned ret, s)

theorem headers_reach {code : Int} {parsed : ParsedHead} (h : httpclientHeaders code fuel cd data s = some parsed) :
    Reach (HttpclientTurn expired) (.headers cd data, s) parsed.point := by
  induction fuel generalizing cd data s with
  | zero => cases h
  | succ fuel ih =>
    have hgo := @reach_turn s expired (.headers cd data) (fun _ => HttpclientPoint.noConfusion)
    unfold httpclientHeaders at h
    simp only [httpclientTurn] at hgo
    split at h
    case h_1 hcrlf =>
      simp only [hcrlf] at h hgo
      split at h
      case isTrue hroom =>
        rw [if_pos hroom] at hgo
        split at h
        case isTrue hret =>
          cases h
          rw [HttpclientPoint.recvd_eq hret] at hgo
          exact hgo
        case isFalse hret =>
          rw [HttpclientPoint.recvd_ne hret] at hgo
          exact hgo.trans (ih h)
      case isFalse hroom =>
        rw [if_neg hroom] at hgo
        cases h
        exact hgo
    case h_2 pos hcrlf =>
      simp only [hcrlf] at h hgo
      split at h
      case isTrue hpos =>
        rw [if_pos hpos] at hgo
        cases h
        exact hgo
      case isFalse hpos =>
        rw [if_neg hpos] at hgo
        split at h
        case h_1 hcolon =>
          simp only [hcolon] at hgo
          cases h
          exact hgo
        case h_2 colon hcolon =>
          obtain ⟨cd', hfield, h⟩ := Option.bind_eq_some_iff.1 h
          simp only [hcolon, hfield, Option.getD_some] at hgo
          exact hgo.trans (ih h)

/-- Where the loop over a size line comes to: the line is found in what has come by then. -/
def ChunkHeader.At (expired : Socket → Bool) (cd : HttpclientData) (out data : List Byte) (s : Socket) :
    ChunkHeader → Prop
  | .found line rest s' => ∃ data' pos, Reach (HttpclientTurn expired) (.chunkHeader cd out data, s)
      (.chunkHeader cd out data', s') ∧ strstr crlf data'.dropLast = some pos ∧ line = data'.take pos ∧
        rest = data'.drop (pos + 2)
  | .ret ret s' => Reach (HttpclientTurn expired) (.chunkHeader cd out data, s) (.returned ret, s')

theorem chunkHeader_reach {header : ChunkHeader}
    (h : httpclientChunkHeader cd.responseBufLen fuel data s = some header) : header.At expired cd out data s := by
  induction fuel generalizing data s with
  | zero => cases h
  | succ fuel ih =>
    have hgo := @reach_turn s expired (.chunkHeader cd out data) (fun _ => HttpclientPoint.noConfusion)
    unfold httpclientChunkHeader at h
    simp only [httpclientTurn] at hgo
    split at h
    case h_1 pos hcrlf =>
      cases h
      exact ⟨data, pos, Reach.refl _, hcrlf, rfl, rfl⟩
    case h_2 hcrlf =>
      simp only [hcrlf] at h hgo
      split at h
      case isTrue hroom =>
        rw [if_pos hroom] at hgo
        split at h
        · cases h
        split at h
        case isTrue hret =>
          cases h
          rw [HttpclientPoint.recvd_eq hret] at hgo
          exact hgo
        case isFalse hret =>
          rw [HttpclientPoint.recvd_ne hret] at hgo
          have hat := ih h
          cases header with
          | found line rest s' =>
            obtain ⟨data', pos, hreach, hfound⟩ := hat
            exact ⟨data', pos, hgo.trans hreach, hfound⟩
          | ret ret s' => exact hgo.trans hat
      case isFalse hroom =>
        rw [if_neg hroom] at hgo
        cases h
        exact hgo

/-- Where the size line as a whole leads. -/
def ReadLen.point (out : List Byte) : ReadLen → HttpclientPoint × Socket
  | .read cd data readLen s => (.body cd out data readLen, s)
  | .ret res => (.returned res.1, res.2.2)

theorem readLen_reach {next : ReadLen} (h : httpclientReadLen cd out data s = some next) :
    Reach (HttpclientTurn expired) (httpclientNext cd out data, s) (next.point out) := by
  unfold httpclientReadLen at h
  unfold httpclientNext
  split at h
  case isTrue hchunk =>
    rw [if_pos hchunk]
    obtain ⟨header, hheader, h⟩ := Option.bind_eq_some_iff.1 h
    have hat := @chunkHeader_reach cd out data s _ expired header hheader
    cases header with
    | ret ret s' =>
      cases h
      exact hat
    | found line rest s' =>
      obtain ⟨data', pos, hreach, hcrlf, rfl, rfl⟩ := hat
      refine hreach.trans ?_
      have hgo := @reach_turn s' expired (.chunkHeader cd out data') (fun _ => HttpclientPoint.noConfusion)
      simp only [httpclientTurn, hcrlf] at hgo
      simp only [] at h
      split at h
      case h_1 hscan =>
        cases h
        simp only [hscan] at hgo
        exact hgo
      case h_2 n rest hscan =>
        simp only [hscan] at hgo
        split at h
        · cases h
        case isFalse hfits =>
          rw [if_neg hfits] at hgo
          obtain ⟨contentLen, hsum, h⟩ := Option.bind_eq_some_iff.1 h
          rw [hsum] at hgo
          split at h
          case isTrue hlast =>
            rw [if_pos hlast] at hgo
            cases h
            exact hgo
          case isFalse hlast =>
            rw [if_neg hlast] at hgo
            cases h
            exact hgo
  case isFalse hchunk =>
    rw [if_neg hchunk]
    cases h
    exact Reach.refl _

/-- Where the loop that fills the response buffer comes to. -/
def RetrieveBody.point : RetrieveBody → HttpclientPoint × Socket
  | .done cd out data s => httpclientBodyEnd cd out data s
  | .ret res => (.returned res.1, res.2.2)

theorem body_reach {done : RetrieveBody}
    (h : httpclientRetrieveBody expired fuel cd out data readLen s = some done) :
    Reach (HttpclientTurn expired) (.body cd out data readLen, s) done.point := by
  induction fuel generalizing cd out data readLen s with
  | zero => cases h
  | succ fuel ih =>
    have hgo := @reach_turn s expired (.body cd out data readLen) (fun _ => HttpclientPoint.noConfusion)
    unfold httpclientRetrieveBody at h
    simp only [httpclientTurn] at hgo
    split at h
    case isTrue htimer =>
      rw [if_pos htimer] at hgo
      cases h
      exact hgo
    rename_i htimer
    rw [if_neg htimer] at hgo
    simp only [] at h
    split at h
    case isTrue hroom =>
      rw [if_pos hroom] at hgo
      obtain ⟨retrieveLen, hlen, h⟩ := Option.bind_eq_some_iff.1 h
      split at h
      case isTrue hall =>
        rw [if_pos hall] at hgo
        cases h
        exact hgo
      case isFalse hall =>
        rw [if_neg hall, hlen, Option.getD_some] at hgo
        split at h
        case isTrue hret =>
          cases h
          rw [HttpclientPoint.recvd_eq hret] at hgo
          exact hgo
        case isFalse hret =>
          rw [HttpclientPoint.recvd_ne hret] at hgo
          exact hgo.trans (ih h)
    case isFalse hroom =>
      rw [if_neg hroom] at hgo
      obtain ⟨retrieveLen, hlen, h⟩ := Option.bind_eq_some_iff.1 h
      cases h
      exact hgo

theorem retrieveLoop_reach (h : httpclientRetrieveLoop expired fuel cd out data s = some res) :
    Reach (HttpclientTurn expired) (httpclientNext cd out data, s) (.returned res.1, res.2.2) := by
  induction fuel generalizing cd out data s with
  | zero => cases h
  | succ fuel ih =>
    unfold httpclientRetrieveLoop at h
    obtain ⟨next, hnext, h⟩ := Option.bind_eq_some_iff.1 h
    have hnext := @readLen_reach cd out data s expired next hnext
    cases next with
    | ret res =>
      cases h
      exact hnext
    | read cd data readLen s =>
      obtain ⟨done, hdone, h⟩ := Option.bind_eq_some_iff.1 h
      have hdone := hnext.trans (body_reach hdone)
      cases done with
      | ret res =>
        cases h
        exact hdone
      | done cd out data s =>
        refine hdone.trans ?_
        unfold RetrieveBody.point httpclientBodyEnd
        simp only [] at h ⊢
        split at h
        case isTrue hchunk =>
          rw [if_pos hchunk]
          cases hend : httpclientChunkEnd cd.responseBufLen out data s with
          | ret ret s =>
            rw [hend] at h
            cases h
            exact Reach.refl _
          | found data s =>
            rw [hend] at h
            exact ih h
        case isFalse hchunk =>
          rw [if_neg hchunk]
          cases h
          exact Reach.refl _

theorem readToClose_reach (h : httpclientReadToClose fuel cd out data s = some res) :
    Reach (HttpclientTurn expired) (.readToClose cd out data, s) (.returned res.1, res.2.2) := by
  induction fuel generalizing cd out data s with
  | zero => cases h
  | succ fuel ih =>
    have hgo := @reach_turn s expired (.readToClose cd out data) (fun _ => HttpclientPoint.noConfusion)
    unfold httpclientReadToClose at h
    simp only [httpclientTurn] at hgo
    split at h
    case isTrue hroom =>
      rw [if_pos hroom] at hgo
      simp only [] at h
      split at h
      case isTrue hret =>
        rw [if_pos hret] at hgo
        cases h
        exact hgo
      case isFalse hret =>
        rw [if_neg hret] at hgo
        split at h
        case isTrue hclose =>
          rw [if_pos hclose] at hgo
          cases h
          exact hgo
        case isFalse hclose =>
          rw [if_neg hclose] at hgo
          exact hgo.trans (ih h)
    case isFalse hroom =>
      rw [if_neg hroom] at hgo
      cases h
      exact hgo

theorem content_reach (h : httpclientRetrieveContent expired data cd s = some res) :
    Reach (HttpclientTurn expired) (httpclientContent cd data, s) (.returned res.1, res.2.2) := by
  unfold httpclientRetrieveContent at h
  unfold httpclientContent
  split at h
  · cases h
  simp only [] at h ⊢
  split at h
  case isTrue hclose =>
    rw [if_pos hclose]
    exact readToClose_reach h
  case isFalse hclose =>
    rw [if_neg hclose]
    exact retrieveLoop_reach h

/-- **What `httpclientRecvResponse` returns, the turns come to.** -/
theorem httpclientRecvResponse_reach {code code' : Int} {left : Option Socket}
    (h : httpclientRecvResponse expired code cd (some s) = some (ret, code', cd', left)) :
    ∃ s', left = some s' ∧ Reach (HttpclientTurn expired) (httpclientCall cd s) (.returned ret, s') := by
  unfold httpclientRecvResponse at h
  unfold httpclientCall
  simp only [] at h
  split at h
  case isTrue hmore =>
    rw [if_pos hmore]
    obtain ⟨⟨ret', cd₁, s'⟩, hcontent, h⟩ := Option.bind_eq_some_iff.1 h
    cases h
    exact ⟨s', rfl, content_reach hcontent⟩
  rename_i hmore
  rw [if_neg hmore]
  simp only []
  split at h
  case isTrue hret =>
    rw [if_pos hret]
    cases h
    exact ⟨_, rfl, Reach.refl _⟩
  rename_i hret
  rw [if_neg hret]
  split at h
  case isFalse hdata =>
    rw [if_neg hdata]
    cases h
    exact ⟨_, rfl, Reach.refl _⟩
  rename_i hdata
  rw [if_pos hdata]
  obtain ⟨⟨ret', code₁, cd₁, s'⟩, hparse, h⟩ := Option.bind_eq_some_iff.1 h
  cases h
  obtain ⟨parsed, hhead, hparse⟩ := Option.bind_eq_some_iff.1 hparse
  refine ⟨s', rfl, ?_⟩
  unfold httpclientParseHead at hhead
  simp only [] at hhead
  cases hcrlf : strstr crlf (cstr (httpclientRecv 1 (httpclientChunkSize - 1) s).2.1) with
  | none =>
    rw [hcrlf] at hhead
    cases hhead
    cases hparse
    exact Reach.refl _
  | some pos =>
    rw [hcrlf] at hhead
    simp only [] at hhead ⊢
    cases hstatus : httpclientStatusLine ((httpclientRecv 1 (httpclientChunkSize - 1) s).2.1.take pos) with
    | none =>
      rw [hstatus] at hhead
      cases hhead
      cases hparse
      exact Reach.refl _
    | some status =>
      rw [hstatus] at hhead
      obtain ⟨code₂, -, hhead⟩ := Option.bind_eq_some_iff.1 hhead
      have hhead := @headers_reach _ _ _ _ expired _ _ hhead
      cases parsed with
      | ret ret code cd s =>
        cases hparse
        exact hhead
      | done code cd data s =>
        obtain ⟨⟨ret₂, cd₂, s₂⟩, hcontent, hparse⟩ := Option.bind_eq_some_iff.1 hparse
        cases hparse
        exact hhead.trans (content_reach hcontent)

end

/-! ## What a turn uses up -/

/-- The bytes left over by the last call (`remain_data_len`). -/
def HttpclientData.remain (cd : HttpclientData) : Nat := (cd.ext.map fun ext => ext.remainData.length).getD 0

namespace HttpclientPoint

/-- `response_buf_len`; a call that has returned needs none. -/
def bufLen : HttpclientPoint → Nat
  | headers cd _ | chunkHeader cd _ _ | body cd _ _ _ | readToClose cd _ _ => cd.responseBufLen
  | returned _ => httpclientChunkSize

/-- The input that is left, with what the last call left over. -/
def input : HttpclientPoint → Socket → Nat
  | headers cd data, s => load data s + cd.remain + 2
  | chunkHeader _ _ data, s | body _ _ data _, s | readToClose _ _ data, s => load data s + 1
  | returned _, _ => 0

/-- The end of the size line does not come with a byte behind it, or not within the buffer. -/
def Stuck : HttpclientPoint → Socket → Prop
  | chunkHeader _ _ data, s => data.length < httpclientChunkSize ∧
      strstr crlf ((data ++ s.bytes).take (httpclientChunkSize - 1)).dropLast = none
  | _, _ => False

end HttpclientPoint

/-- A turn is over, with less than `n` left. -/
structure TurnOver (n : Nat) (q : HttpclientPoint × Socket) : Prop where
  noFail : q.2.NoFail
  bufLen : httpclientChunkSize ≤ q.1.bufLen
  less   : q.1.input q.2 < n

section
variable {s : Socket} {cd : HttpclientData} {out data : List Byte} {minLen maxLen n readLen : Nat}
  {expired : Socket → Bool} {u : Unspecified}

theorem turnOver_returned {ret : HttpclientResult} (hs : s.NoFail) (hn : 0 < n) :
    TurnOver n (.returned ret, s) :=
  ⟨hs, le_rfl, hn⟩

/-- Behind `httpclient_recv` for at least a byte there is one, or the call returns. -/
theorem turnOver_recvd {p : List Byte → HttpclientPoint} (hs : s.NoFail) (hmin : 1 ≤ minLen)
    (hle : minLen ≤ maxLen) (hn : 0 < n) (hbuf : ∀ new, httpclientChunkSize ≤ (p new).bufLen)
    (hless : ∀ new s', s'.NoFail → new ≠ [] → new.length + s'.weight ≤ s.weight → (p new).input s' < n) :
    TurnOver n (.recvd (httpclientRecv minLen maxLen s).1 (httpclientRecv minLen maxLen s).2.1
      (p (httpclientRecv minLen maxLen s).2.1), (httpclientRecv minLen maxLen s).2.2) := by
  obtain ⟨ret, new, s', hrecv, hbytes, hs', -, hret, hweight, -⟩ := httpclientRecv_spec hs hle
  rw [hrecv]
  unfold HttpclientPoint.recvd
  split
  case isTrue => exact turnOver_returned hs' hn
  case isFalse hgo =>
    have hnew : new ≠ [] := by
      rintro rfl
      rcases hret with ⟨-, hlen⟩ | ⟨rfl, -⟩
      · simp at hlen
        omega
      · exact hgo (.inr ⟨rfl, rfl⟩)
    exact ⟨hs', hbuf new, hless new s' hs' hnew hweight⟩

theorem httpclientNext_bufLen : (httpclientNext cd out data).bufLen = cd.responseBufLen := by
  unfold httpclientNext
  split <;> rfl

theorem httpclientNext_input : (httpclientNext cd out data).input s = load data s + 1 := by
  unfold httpclientNext
  split <;> rfl

/-- What the last call left over is taken instead of nothing. -/
theorem httpclientContent_over (hbuf : httpclientChunkSize ≤ cd.responseBufLen) (hs : s.NoFail)
    (hn : load data s + cd.remain + 1 < n) : TurnOver n (httpclientContent cd data, s) := by
  have htake : ∃ data' cd', httpclientTakeRemain data { cd with isMore := true } = (data', cd') ∧
      cd'.responseBufLen = cd.responseBufLen ∧ data'.length ≤ data.length + cd.remain := by
    unfold httpclientTakeRemain
    cases hext : cd.ext with
    | none => exact ⟨data, _, rfl, rfl, by omega⟩
    | some ext =>
      simp only []
      split
      · exact ⟨_, _, rfl, rfl, by simp [HttpclientData.remain, hext]⟩
      · exact ⟨data, _, rfl, rfl, by omega⟩
  obtain ⟨data', cd', htake, hbuf', hlen⟩ := htake
  unfold httpclientContent
  rw [htake]
  simp only []
  have hload : load data' s + 1 < n := by
    unfold load at hn ⊢
    omega
  split
  · exact ⟨hs, by simpa [HttpclientPoint.bufLen, hbuf'] using hbuf, hload⟩
  · exact ⟨hs, by rwa [httpclientNext_bufLen, hbuf'], by rwa [httpclientNext_input]⟩

theorem httpclientContentRange_keeps {ext ext' : HttpclientDataExt} (h : httpclientContentRange data ext = some ext') :
    ext'.remainData = ext.remainData := by
  simp only [httpclientContentRange, Option.bind_eq_bind, Option.bind_eq_some_iff] at h
  obtain ⟨rangeBeg, -, rangeEnd, -, rangeLen, -, h⟩ := h
  cases h
  rfl

/-- A header line leaves the buffer and what the last call left over. -/
theorem httpclientField_keeps {keyLen : Nat} {valueLen : Int} {cd' : HttpclientData}
    (h : httpclientField cd data keyLen valueLen = some cd') :
    cd'.responseBufLen = cd.responseBufLen ∧ cd'.remain = cd.remain := by
  unfold httpclientField at h
  simp only [Option.bind_eq_bind] at h
  split at h
  · obtain ⟨n, -, h⟩ := Option.bind_eq_some_iff.1 h
    cases h
    exact ⟨rfl, rfl⟩
  split at h
  · split at h <;> (cases h; exact ⟨rfl, rfl⟩)
  cases hext : cd.ext with
  | none =>
    simp only [hext, ite_self] at h
    cases h
    exact ⟨rfl, rfl⟩
  | some ext =>
    simp only [hext] at h
    split at h
    · split at h
      · obtain ⟨ext', hrange, h⟩ := Option.bind_eq_some_iff.1 h
        cases h
        have hkeeps := httpclientContentRange_keeps hrange
        exact ⟨rfl, by simp [HttpclientData.remain, hext, hkeeps]⟩
      · cases h
        exact ⟨rfl, by simp [HttpclientData.remain, hext]⟩
    split at h
    · split at h
      · obtain ⟨ifRange, -, h⟩ := Option.bind_eq_some_iff.1 h
        cases h
        exact ⟨rfl, by simp [HttpclientData.remain, hext]⟩
      · cases h
        exact ⟨rfl, rfl⟩
    split at h
    · split at h
      · obtain ⟨location, -, h⟩ := Option.bind_eq_some_iff.1 h
        cases h
        exact ⟨rfl, by simp [HttpclientData.remain, hext]⟩
      · cases h
        exact ⟨rfl, rfl⟩
    · cases h
      exact ⟨rfl, rfl⟩

theorem unspecified_keeps : (cd.unspecified u).responseBufLen = cd.responseBufLen ∧
    (cd.unspecified u).remain = cd.remain := by
  refine ⟨rfl, ?_⟩
  simp only [HttpclientData.remain, HttpclientData.unspecified, Option.map_map, Function.comp_def]

theorem getField_keeps (keyLen : Nat) (valueLen : Int) :
    ((httpclientField cd data keyLen valueLen).getD (cd.unspecified u)).responseBufLen = cd.responseBufLen ∧
      ((httpclientField cd data keyLen valueLen).getD (cd.unspecified u)).remain = cd.remain := by
  cases hfield : httpclientField cd data keyLen valueLen with
  | none => exact unspecified_keeps
  | some cd' => exact httpclientField_keeps hfield

theorem headers_over (hs : s.NoFail) (hbuf : httpclientChunkSize ≤ cd.responseBufLen) :
    TurnOver ((HttpclientPoint.headers cd data).input s) (httpclientTurn expired u (.headers cd data) s) := by
  have hinput : (HttpclientPoint.headers cd data).input s = load data s + cd.remain + 2 := rfl
  have hcstr : (cstr data).length ≤ data.length := cstr_length
  cases hcrlf : strstr crlf (cstr data) with
  | none =>
    simp only [httpclientTurn, hcrlf]
    split
    case isTrue hroom =>
      refine turnOver_recvd (p := fun new => .headers cd (data ++ new)) hs le_rfl ?_ (by omega) (fun _ => hbuf) ?_
      · omega
      · intro new s' hs' hnew hweight
        have := List.length_pos_iff.2 hnew
        simp only [HttpclientPoint.input, load, List.length_append]
        omega
    case isFalse => exact turnOver_returned hs (by omega)
  | some pos =>
    have hpos : pos + 2 ≤ (cstr data).length := strstr_length hcrlf
    simp only [httpclientTurn, hcrlf]
    split
    · refine httpclientContent_over hbuf hs ?_
      simp only [hinput, load, List.length_drop]
      omega
    · cases hcolon : strstr (bytes ": ") (cstr data) with
      | none => exact turnOver_returned hs (by omega)
      | some colon =>
        obtain ⟨hbuf', hremain⟩ := @getField_keeps cd (cstr data) u colon (pos - colon - 2)
        refine ⟨hs, ?_, ?_⟩
        · simp only [HttpclientPoint.bufLen, hbuf']
          exact hbuf
        · simp only [HttpclientPoint.input, load, hremain, List.length_drop]
          omega

theorem readToClose_over (hs : s.NoFail) (hbuf : httpclientChunkSize ≤ cd.responseBufLen) :
    TurnOver ((HttpclientPoint.readToClose cd out data).input s)
      (httpclientTurn expired u (.readToClose cd out data) s) := by
  have hinput : (HttpclientPoint.readToClose cd out data).input s = load data s + 1 := rfl
  have hchunk : httpclientChunkSize = 2048 := rfl
  simp only [httpclientTurn]
  split
  case isTrue hroom =>
    have hle : 1 ≤ min (httpclientChunkSize - 1) (cd.responseBufLen - 1 - (out ++ data).length) := by
      simp only [List.length_append]
      omega
    obtain ⟨ret, new, s', hrecv, -, hs', -, -, hweight, -⟩ := httpclientRecv_spec hs hle
    rw [hrecv]
    simp only []
    split
    case isTrue => exact turnOver_returned hs' (by omega)
    case isFalse =>
      split
      case isTrue => exact turnOver_returned hs' (by omega)
      case isFalse hnew =>
        have hpos := List.length_pos_iff.2 hnew
        refine ⟨hs', hbuf, ?_⟩
        simp only [HttpclientPoint.input, load]
        omega
  case isFalse => exact turnOver_returned hs (by omega)

/-- The two bytes behind a chunk are taken from the buffer or from the socket. -/
theorem chunkEnd_uses {bufLen : Nat} (hs : s.NoFail) :
    (∃ ret s', httpclientChunkEnd bufLen out data s = .ret ret s' ∧ s'.NoFail) ∨
      ∃ data' s', httpclientChunkEnd bufLen out data s = .found data' s' ∧ s'.NoFail ∧
        load data' s' + 2 ≤ load data s := by
  have hcheck : ∀ (data' : List Byte) s', s'.NoFail → load data' s' ≤ load data s →
      ∀ r, (if crlf <+: data' then ChunkEnd.found (data'.drop 2) s' else .ret .errorPrtcl s') = r →
      (∃ ret s', r = .ret ret s' ∧ s'.NoFail) ∨
        ∃ data' s', r = .found data' s' ∧ s'.NoFail ∧ load data' s' + 2 ≤ load data s := by
    rintro data' s' hs' hload _ rfl
    split
    case isTrue hcrlf =>
      have hlen : 2 ≤ data'.length := hcrlf.length_le
      refine .inr ⟨_, _, rfl, hs', ?_⟩
      simp only [load, List.length_drop] at hload ⊢
      omega
    case isFalse => exact .inl ⟨_, _, rfl, hs'⟩
  have hchunk : httpclientChunkSize = 2048 := rfl
  unfold httpclientChunkEnd
  simp only []
  split
  case isTrue hshort =>
    have hle : 2 - data.length ≤ min (bufLen - 1 - out.length + 2) (httpclientChunkSize - data.length - 1) := by
      omega
    obtain ⟨ret, new, s', hrecv, -, hs', -, -, hweight, -⟩ := httpclientRecv_spec hs hle
    rw [hrecv]
    simp only []
    split
    case isTrue => exact .inl ⟨_, _, rfl, hs'⟩
    case isFalse =>
      refine hcheck _ s' hs' ?_ _ rfl
      simp only [load, List.length_append]
      omega
  case isFalse => exact hcheck data s hs le_rfl _ rfl

theorem bodyEnd_over (hs : s.NoFail) (hbuf : httpclientChunkSize ≤ cd.responseBufLen) (hn : load data s < n) :
    TurnOver n (httpclientBodyEnd cd out data s) := by
  unfold httpclientBodyEnd
  split
  case isTrue =>
    rcases @chunkEnd_uses s out data cd.responseBufLen hs with ⟨ret, s', hend, hs'⟩ | ⟨data', s', hend, hs', hload⟩
    · rw [hend]
      exact turnOver_returned hs' (by omega)
    · rw [hend]
      refine ⟨hs', ?_, ?_⟩
      · simp only [httpclientNext_bufLen]
        exact hbuf
      · simp only [httpclientNext_input]
        omega
  case isFalse => exact turnOver_returned hs (by omega)

theorem body_over (hs : s.NoFail) (hbuf : httpclientChunkSize ≤ cd.responseBufLen) :
    TurnOver ((HttpclientPoint.body cd out data readLen).input s)
      (httpclientTurn expired u (.body cd out data readLen) s) := by
  have hinput : (HttpclientPoint.body cd out data readLen).input s = load data s + 1 := rfl
  have hchunk : httpclientChunkSize = 2048 := rfl
  simp only [httpclientTurn]
  split
  case isTrue => exact turnOver_returned hs (by omega)
  split
  case isTrue hroom =>
    split
    case isTrue hall =>
      refine bodyEnd_over hs hbuf ?_
      simp only [hinput, load, List.length_drop]
      omega
    case isFalse hmore =>
      refine turnOver_recvd (p := fun new => .body _ _ new _) hs le_rfl ?_ (by omega) (fun _ => hbuf) ?_
      · simp only [List.length_append, List.length_take]
        omega
      · intro new s' hs' hnew hweight
        have := List.length_pos_iff.2 hnew
        simp only [HttpclientPoint.input, load]
        omega
  case isFalse => exact turnOver_returned hs (by omega)

theorem dropLast_mono {xs ys : List Byte} (h : xs <+: ys) : xs.dropLast <+: ys.dropLast := by
  obtain ⟨t, rfl⟩ := h
  cases t with
  | nil => rw [List.append_nil]
  | cons b t =>
    rw [List.dropLast_append_of_ne_nil (List.cons_ne_nil b t)]
    have hdrop := List.dropLast_prefix xs
    exact hdrop.trans (List.prefix_append _ _)

/-- A size line that is not stuck has not come yet, but fits. -/
theorem not_stuck (hcrlf : strstr crlf data.dropLast = none) (hroom : data.length < httpclientChunkSize)
    (hstuck : ¬(HttpclientPoint.chunkHeader cd out data).Stuck s) :
    data.length < httpclientChunkSize - 1 ∧ s.bytes ≠ [] := by
  have hpart : ¬((data ++ s.bytes).take (httpclientChunkSize - 1)) <+: data := by
    intro hpre
    exact hstuck ⟨hroom, strstr_prefix (dropLast_mono hpre) hcrlf⟩
  constructor
  · by_contra hfull
    apply hpart
    rw [List.take_append_of_le_length (by omega)]
    exact List.take_prefix _ _
  · intro hnil
    apply hpart
    rw [hnil, List.append_nil]
    exact List.take_prefix _ _

/-- Without the line end in the buffer the turn adds what has come to it: at the close too, where that is nothing. -/
theorem chunkHeader_waits (hs : s.NoFail) (hbuf : httpclientChunkSize ≤ cd.responseBufLen)
    (hroom : data.length < httpclientChunkSize) (hcrlf : strstr crlf data.dropLast = none) : ∃ new s',
    httpclientTurn expired u (.chunkHeader cd out data) s = (.chunkHeader cd out (data ++ new), s') ∧
      new ++ s'.bytes = s.bytes ∧ s'.NoFail ∧ (data ++ new).length < httpclientChunkSize ∧
      new.length + s'.weight ≤ s.weight ∧
      (data.length < httpclientChunkSize - 1 → s ≠ [] → s'.weight < s.weight) := by
  have hchunk : httpclientChunkSize = 2048 := rfl
  have hmax : min cd.responseBufLen httpclientChunkSize - data.length - 1 = httpclientChunkSize - 1 - data.length := by
    omega
  obtain ⟨ret, new, s', hrecv, hbytes, hs', hlen, hret, hweight, hless, -⟩ :=
    httpclientRecv_spec hs (Nat.zero_le (httpclientChunkSize - 1 - data.length))
  have hok : ret = .ok := by
    rcases hret with ⟨hok, -⟩ | ⟨-, hlt⟩
    · exact hok
    · omega
  simp only [httpclientTurn, hcrlf, if_pos hroom, hmax, hrecv, hok]
  refine ⟨new, s', rfl, hbytes, hs', ?_, hweight, fun hfull hne => hless rfl (by omega) hne⟩
  rw [List.length_append]
  omega

theorem chunkHeader_over (hs : s.NoFail) (hbuf : httpclientChunkSize ≤ cd.responseBufLen)
    (hstuck : ¬(HttpclientPoint.chunkHeader cd out data).Stuck s) :
    TurnOver ((HttpclientPoint.chunkHeader cd out data).input s)
      (httpclientTurn expired u (.chunkHeader cd out data) s) := by
  have hinput : (HttpclientPoint.chunkHeader cd out data).input s = load data s + 1 := rfl
  have hchunk : httpclientChunkSize = 2048 := rfl
  cases hcrlf : strstr crlf data.dropLast with
  | some pos =>
    have hpos : pos + 2 ≤ data.dropLast.length := strstr_length hcrlf
    rw [List.length_dropLast] at hpos
    simp only [httpclientTurn, hcrlf]
    cases scanHex (cstr (data.take pos)) with
    | none => exact turnOver_returned hs (by omega)
    | some num =>
      simp only []
      generalize toSize .lp64
        (if num.1 ≤ -18446744073709551616 ∨ 18446744073709551616 ≤ num.1 then u.readLen else num.1) = readLen
      split
      case isTrue => exact turnOver_returned hs (by omega)
      case isFalse =>
        refine ⟨hs, hbuf, ?_⟩
        simp only [HttpclientPoint.input, load, List.length_drop]
        omega
  | none =>
    by_cases hroom : data.length < httpclientChunkSize
    · -- the line end is still to come, and there is room for it
      obtain ⟨hfull, hmore⟩ := not_stuck hcrlf hroom hstuck
      obtain ⟨new, s', hturn, -, hs', -, hweight, hless⟩ := @chunkHeader_waits s cd out data expired u hs hbuf hroom hcrlf
      have hless : s'.weight < s.weight := hless hfull (by rintro rfl; exact hmore rfl)
      rw [hturn]
      refine ⟨hs', hbuf, ?_⟩
      simp only [HttpclientPoint.input, load, List.length_append]
      omega
    · simp only [httpclientTurn, hcrlf, if_neg hroom]
      exact turnOver_returned hs (by omega)

/-- From a size line whose end does not come, the loop goes on with one. -/
theorem stuck_stays (hs : s.NoFail) (hbuf : httpclientChunkSize ≤ cd.responseBufLen)
    (hstuck : (HttpclientPoint.chunkHeader cd out data).Stuck s) :
    ∃ new s', httpclientTurn expired u (.chunkHeader cd out data) s = (.chunkHeader cd out (data ++ new), s') ∧
      s'.NoFail ∧ (HttpclientPoint.chunkHeader cd out (data ++ new)).Stuck s' := by
  obtain ⟨hroom, hnone⟩ := hstuck
  have hchunk : httpclientChunkSize = 2048 := rfl
  have hcrlf : strstr crlf data.dropLast = none := by
    refine strstr_prefix (dropLast_mono ?_) hnone
    rw [List.take_append, List.take_of_length_le (by omega : data.length ≤ httpclientChunkSize - 1)]
    exact List.prefix_append _ _
  obtain ⟨new, s', hturn, hbytes, hs', hlen, -⟩ := @chunkHeader_waits s cd out data expired u hs hbuf hroom hcrlf
  refine ⟨new, s', hturn, hs', hlen, ?_⟩
  rw [List.append_assoc, hbytes]
  exact hnone

/-- What every turn keeps (the caller's buffer has 2049 bytes, `http_download_process.c:10`). -/
def CallInv (p : HttpclientPoint × Socket) : Prop := p.2.NoFail ∧ httpclientChunkSize ≤ p.1.bufLen

theorem HttpclientTurn.over {p q : HttpclientPoint × Socket} (h : HttpclientTurn expired p u q) (hp : CallInv p)
    (hstuck : ¬p.1.Stuck p.2) : TurnOver (p.1.input p.2) q := by
  obtain ⟨point, s⟩ := p
  obtain ⟨hs, hbuf⟩ := hp
  obtain ⟨hgo, rfl⟩ := h
  cases point with
  | headers cd data => exact headers_over hs hbuf
  | chunkHeader cd out data => exact chunkHeader_over hs hbuf hstuck
  | body cd out data readLen => exact body_over hs hbuf
  | readToClose cd out data => exact readToClose_over hs hbuf
  | returned ret => exact absurd ⟨ret, rfl⟩ hgo

/-- A stuck call waits on. -/
theorem HttpclientTurn.stuck {p : HttpclientPoint × Socket} (hp : CallInv p) (hstuck : p.1.Stuck p.2) :
    ¬HttpclientReturned p ∧ CallInv (httpclientTurn expired u p.1 p.2) ∧
      (httpclientTurn expired u p.1 p.2).1.Stuck (httpclientTurn expired u p.1 p.2).2 := by
  obtain ⟨point, s⟩ := p
  obtain ⟨hs, hbuf⟩ := hp
  cases point with
  | chunkHeader cd out data =>
    obtain ⟨new, s', hturn, hs', hstuck'⟩ := @stuck_stays s cd out data expired u hs hbuf hstuck
    simp only [hturn]
    refine ⟨?_, ⟨hs', hbuf⟩, hstuck'⟩
    rintro ⟨ret, hret⟩
    cases hret
  | headers | body | readToClose | returned => exact hstuck.elim

theorem CallInv.turn {p q : HttpclientPoint × Socket} (hp : CallInv p) (h : HttpclientTurn expired p u q) :
    CallInv q := by
  by_cases hstuck : p.1.Stuck p.2
  · rw [h.2]
    exact (HttpclientTurn.stuck hp hstuck).2.1
  · have hover := h.over hp hstuck
    exact ⟨hover.noFail, hover.bufLen⟩

theorem callInv_call (hs : s.NoFail) (hbuf : httpclientChunkSize ≤ cd.responseBufLen) :
    CallInv (httpclientCall cd s) := by
  have hcontent : ∀ (cd' : HttpclientData) data' s', cd'.responseBufLen = cd.responseBufLen → s'.NoFail →
      CallInv (httpclientContent cd' data', s') := by
    intro cd' data' s' hbuf' hs'
    have hover := httpclientContent_over (hbuf'.symm ▸ hbuf) hs' (Nat.lt_succ_self (load data' s' + cd'.remain + 1))
    exact ⟨hover.noFail, hover.bufLen⟩
  unfold httpclientCall
  split
  · exact hcontent _ _ _ rfl hs
  · obtain ⟨ret, new, s', hrecv, -, hs', -⟩ :=
      httpclientRecv_spec hs (by decide : 1 ≤ httpclientChunkSize - 1)
    rw [hrecv]
    simp only []
    split
    · exact ⟨hs', le_rfl⟩
    split
    · split
      · exact ⟨hs', le_rfl⟩
      split
      · exact ⟨hs', le_rfl⟩
      · exact ⟨hs', hbuf⟩
    · exact ⟨hs', le_rfl⟩

theorem callTrap : Trap (HttpclientTurn expired) HttpclientReturned fun p => CallInv p ∧ p.1.Stuck p.2 := by
  constructor
  · rintro p ⟨hp, hstuck⟩
    exact (@HttpclientTurn.stuck expired default p hp hstuck).1
  · rintro p ⟨hp, hstuck⟩
    obtain ⟨hgo, hnext⟩ := @HttpclientTurn.stuck expired default p hp hstuck
    exact ⟨default, _, ⟨hgo, rfl⟩, hnext⟩

theorem not_turn_returned (p : HttpclientPoint × Socket) (u : Unspecified) (q : HttpclientPoint × Socket)
    (h : HttpclientReturned p) : ¬HttpclientTurn expired p u q :=
  fun hturn => hturn.1 h

/-- A call returns exactly where the loop over a size line is never entered, or gone on with, when the end of the line
does not come. -/
theorem httpclientCall_halts_iff (hs : s.NoFail) (hbuf : httpclientChunkSize ≤ cd.responseBufLen) :
    Halts (HttpclientTurn expired) HttpclientReturned (httpclientCall cd s) ↔
      ∀ p s', Reach (HttpclientTurn expired) (httpclientCall cd s) (p, s') → ¬p.Stuck s' := by
  have hinv := @callInv_call s cd hs hbuf
  rw [halts_iff (I := CallInv) (fun p => p.1.input p.2) not_turn_returned ?_ (fun _ _ _ hp h => hp.turn h) ?_
    callTrap hinv]
  · constructor
    · intro hfree p s' hreach hstuck
      have hp : CallInv (p, s') := hreach.invariant (fun _ _ _ hp h => hp.turn h) hinv
      exact hfree (p, s') hreach ⟨hp, hstuck⟩
    · rintro hfree ⟨p, s'⟩ hreach ⟨-, hstuck⟩
      exact hfree p s' hreach hstuck
  · intro p hgo
    exact ⟨default, _, hgo, rfl⟩
  · intro p u q hp hstuck _ h
    exact (h.over hp (fun hs => hstuck ⟨hp, hs⟩)).less

end

end AudioPlayer

import Mathlib
import AudioPlayer.HttpDownload.Outcomes
import AudioPlayer.HttpDownload.Resources

/-!
# Where a received block belongs

The place of a block in the resource is kept in five fields. A reply that counts as ranged starts where the
request asked for it, so its next block belongs at `pre_download_pos`; any other reply starts at 0, and
`cur_download_pos` counts its blocks until they reach `pre_download_pos`. `Follows` says this of a reply
under way, with the bytes that are taken in but not pushed before what is still to come.

| here | there |
| --- | --- |
| `Stored`    | what was pushed is the resource from the start position to `pre_download_pos` |
| `Receiving` | RECV: the next block belongs where `Follows` says |
| `Holding`   | WAIT_FREE: so does the block in `recv_buf`, and it has not been pushed |
| `Fits`      | a reply is the resource from the place it is taken to start at |

`Placed.step` keeps these for any peer whose replies fit; the server of `ServesSlices` is one.
-/

namespace AudioPlayer
open Lib

variable {cap : Nat}

/-- The bytes of the resource that a request asks for. -/
def HttpRequest.slice (R : List Byte) (req : HttpRequest) : List Byte :=
  match req.range with
  | none => R
  | some (first, none) => R.drop first
  | some (first, some last) => (R.drop first).take (last + 1 - first)

/-- A server that answers a request with 206 and the first bytes of what it asks for, or with 200 and
everything, always with a `Content-Length`. -/
inductive ServesSlices (R : List Byte) (req : HttpRequest) : HttpReply → Prop
  | partialContent {rangeLen body} : req.range ≠ none → body ≠ [] → body <+: req.slice R →
      ServesSlices R req ⟨206, true, rangeLen, false, body⟩
  | ok : ServesSlices R req ⟨200, false, 0, false, R⟩

/-- What was pushed since START. -/
structure Stored (R : List Byte) (start : Nat) (q : HttpDownloadProc cap) : Prop where
  start_le : start ≤ q.preDownloadPos
  le_len   : q.preDownloadPos ≤ R.length
  pushed   : q.pushed = (R.drop start).take (q.preDownloadPos.toNat - start)
  location : q.ext.location = []

/-- The bytes of a reply that are taken in or still to come, `held ++ rest`, belong where they are counted
from. -/
structure Follows (R : List Byte) (q : HttpDownloadProc cap) (held : List Byte) (r : HttpReply)
    (rest : List Byte) : Prop where
  whole  : ∃ k, r.body.length = rest.length + 2048 * k
  cur_nonneg : 0 ≤ q.curDownloadPos
  cur_le : q.curDownloadPos ≤ q.preDownloadPos
  ranged : q.ext.isRange = true → q.rangeEnable = true ∧ held ++ rest <+: R.drop q.preDownloadPos.toNat
  plain  : q.ext.isRange = false → held ++ rest = R.drop q.curDownloadPos.toNat

/-- Where the rest of a reply belongs before its next block is taken in; `ranged` is what that block will
count as. -/
structure Belongs (R : List Byte) (p : HttpDownloadProc cap) (r : HttpReply) (rest : List Byte)
    (ranged : Bool) : Prop where
  whole      : ∃ k, r.body.length = rest.length + 2048 * k
  cur_nonneg : 0 ≤ p.curDownloadPos
  cur_le     : p.curDownloadPos ≤ p.preDownloadPos
  onward     : ranged = true → rest <+: R.drop p.preDownloadPos.toNat
  fromStart  : ranged = false → rest = R.drop p.curDownloadPos.toNat

/-- In RECV: what is asked for, or still to come of a reply. -/
def Receiving (R : List Byte) (q : HttpDownloadProc cap) : Prop :=
  match q.client with
  | .closed | .open => True
  | .asked req => q.curDownloadPos = 0 ∧ q.Asks req
  | .answering r rest => Follows R q [] r rest

/-- In WAIT_FREE: a block is held. -/
structure Holding (R : List Byte) (q : HttpDownloadProc cap) : Prop where
  len   : (q.unread.length : Int) = q.recvLen - q.readPos
  pos   : q.readPos < q.recvLen
  cur   : q.curDownloadPos = q.preDownloadPos
  here  : q.unread <+: R.drop q.preDownloadPos.toNat
  last  : q.ext.isRange = false → q.httpRet ≠ .retrieveMoreData → q.unread = R.drop q.preDownloadPos.toNat
  asked : ∀ req, q.client ≠ .asked req
  conn  : ∀ r rest, q.client = .answering r rest → Follows R q q.unread r rest

/-- A reply is the resource from where it is taken to start. -/
def HttpDownloadProc.Fits (R : List Byte) (p : HttpDownloadProc cap) (r : HttpReply) : Prop :=
  if p.rangeEnable = true ∧ r.isRange = true then r.body <+: R.drop p.preDownloadPos.toNat else r.body = R

/-- What the state says of the process. -/
def InState (R : List Byte) (state : Word) (q : HttpDownloadProc cap) : Prop :=
  (state = httpDownloadStaRecv → Receiving R q) ∧ (state = httpDownloadStaWaitFree → Holding R q)

/-- The invariant of a download that started at `start`. -/
structure Placed (R : List Byte) (start : Nat) (s : DownloadSys cap) : Prop where
  mem     : s.curState ∈ downloadStates
  stored  : Stored R start s.proc
  inState : InState R s.curState s.proc

section
variable {p q : HttpDownloadProc cap} {env : HttpEnv} {R : List Byte} {start : Nat}
  {answers : HttpRequest → HttpReply → Prop} {r : HttpReply} {rest : List Byte} {isRange : Bool} {rangeLen : Int}

/-! ## Taking a block in -/

theorem Stored.of_sameData (h : Stored R start p) (hs : SameData p q) : Stored R start q where
  start_le := hs.preDownloadPos ▸ h.start_le
  le_len := hs.preDownloadPos ▸ h.le_len
  pushed := by
    rw [hs.preDownloadPos, ← h.pushed]
    simp only [HttpDownloadProc.pushed, hs.httpBuffer]
  location := hs.location h.location

/-- Where the rest of a reply belongs, of which a block is due. -/
theorem Due.placed (h : Due answers p r rest isRange rangeLen) (hr : Receiving R p) (hkeep : p.Keeps isRange)
    (hpos : 0 ≤ p.preDownloadPos)
    (hfit : ∀ req, p.Asks req → p.Keeps r.isRange → answers req r → p.Fits R r) :
    Belongs R p r rest (p.rangeEnable && isRange) := by
  unfold Receiving at hr
  cases h with
  | @first req hc ha =>
    rw [hc] at hr
    obtain ⟨hcur, hasks⟩ := hr
    have hfits := hfit req hasks hkeep ha
    unfold HttpDownloadProc.Fits at hfits
    refine ⟨⟨0, rfl⟩, by omega, by omega, fun h => ?_, fun h => ?_⟩
    · rwa [if_pos (by simpa using h)] at hfits
    · rw [if_neg (by simpa using h)] at hfits
      rw [hcur]
      exact hfits
  | next hc =>
    rw [hc] at hr
    refine ⟨hr.whole, hr.cur_nonneg, hr.cur_le, fun h => ?_, fun h => ?_⟩
    · rw [Bool.and_eq_true] at h
      exact (hr.ranged h.2).2
    · refine hr.plain ?_
      by_contra hx
      rw [Bool.not_eq_false] at hx
      rw [hx, (hr.ranged hx).1] at h
      exact absurd h (by decide)

/-- Where the first byte of the block that is not thrown away stands in the block. -/
theorem Took.readPos_nonneg (h : Took p r rest isRange rangeLen q) (hcur : p.curDownloadPos ≤ p.preDownloadPos) :
    0 ≤ q.readPos := by
  rw [h.readPos, h.recvLen]
  split <;> omega

/-- The bytes of the block that are not thrown away. -/
theorem Took.unread (h : Took p r rest isRange rangeLen q) (hcur : p.curDownloadPos ≤ p.preDownloadPos) :
    q.unread = (rest.take 2048).drop q.readPos.toNat := by
  obtain ⟨tail, htail⟩ := h.block
  have hpos := h.readPos_nonneg hcur
  unfold HttpDownloadProc.unread
  rw [← htail, h.recvLen]
  by_cases hle : q.readPos.toNat ≤ (rest.take 2048).length
  · rw [List.drop_append_of_le_length hle, List.take_append_of_le_length (by simp; omega), List.take_of_length_le]
    simp; omega
  · have h0 : ((rest.take 2048).length - q.readPos : Int).toNat = 0 := by omega
    rw [h0, List.take_zero, List.drop_of_length_le (by omega)]

theorem Took.curDownloadPos_eq (h : Took p r rest isRange rangeLen q) (hcur : 0 ≤ p.curDownloadPos)
    (hle : p.curDownloadPos ≤ p.preDownloadPos) (hpre : p.preDownloadPos < 2147483648) :
    q.curDownloadPos = if (p.rangeEnable && isRange) = true then p.preDownloadPos else p.curDownloadPos + q.readPos := by
  rw [h.curDownloadPos, h.isRange]
  have hlen := h.recvLen
  have hpos := h.readPos
  rw [h.isRange] at hpos
  by_cases hr : (p.rangeEnable && isRange) = true
  · rw [if_pos hr, if_pos hr]
    omega
  · rw [if_neg hr] at hpos
    rw [if_neg hr, if_neg hr, toI32_eq] <;> omega

/-- The connection after a block. -/
theorem Took.answering (h : Took p r rest isRange rangeLen q) {r' rest'} (hc : q.client = .answering r' rest') :
    2048 ≤ rest.length ∧ r = r' ∧ rest.drop 2048 = rest' := by
  rw [h.client] at hc
  split at hc
  · rename_i hle
    injection hc with h1 h2
    exact ⟨hle, h1, h2⟩
  · cases hc

/-- A block that is to be pushed. -/
theorem Took.holding (h : Took p r rest isRange rangeLen q) (hpre : p.preDownloadPos < 2147483648)
    (hb : Belongs R p r rest (p.rangeEnable && isRange)) (hpos : q.readPos < q.recvLen) : Holding R q := by
  obtain ⟨⟨k, hk⟩, hcur, hle, honward, hfrom⟩ := hb
  have hunread := h.unread hle
  have hcurq := h.curDownloadPos_eq hcur hle hpre
  have hread := h.readPos
  have hread0 := h.readPos_nonneg hle
  have hlen := h.recvLen
  rw [h.isRange] at hread
  -- the bytes from the first that is not thrown away on
  have hall : q.curDownloadPos = q.preDownloadPos ∧ (q.ext.isRange = true → q.readPos = 0) ∧
      (q.ext.isRange = false → rest.drop q.readPos.toNat = R.drop q.preDownloadPos.toNat) := by
    rw [hcurq, h.preDownloadPos, h.isRange]
    cases hr : (p.rangeEnable && isRange) with
    | true =>
      rw [hr, if_pos rfl] at hread
      exact ⟨if_pos rfl, fun _ => hread, fun h => absurd h (by decide)⟩
    | false =>
      rw [hr, if_neg Bool.false_ne_true] at hread
      rw [if_neg Bool.false_ne_true]
      refine ⟨by omega, fun h => absurd h (by decide), fun _ => ?_⟩
      have hadd : p.curDownloadPos.toNat + q.readPos.toNat = p.preDownloadPos.toNat := by omega
      rw [hfrom hr, List.drop_drop, hadd]
  obtain ⟨hcureq, hzero, hdrop⟩ := hall
  have hjoin : q.unread ++ rest.drop 2048 = rest.drop q.readPos.toNat := by
    rw [hunread, ← List.drop_append_of_le_length (by omega), List.take_append_drop]
  have hhere : rest.drop q.readPos.toNat <+: R.drop q.preDownloadPos.toNat := by
    cases hr : q.ext.isRange with
    | true =>
      rw [hzero hr, h.preDownloadPos]
      exact honward (h.isRange ▸ hr)
    | false =>
      rw [hdrop hr]
  exact {
    len := by
      rw [hunread, List.length_drop]
      omega
    pos := hpos
    cur := hcureq
    here := (hjoin ▸ List.prefix_append _ _).trans hhere
    last := by
      intro hr hret
      rw [h.httpRet] at hret
      have hshort : rest.drop 2048 = [] := by
        refine List.drop_of_length_le ?_
        by_contra hlong
        exact hret (if_pos (by omega))
      rw [← hdrop hr, ← hjoin, hshort, List.append_nil]
    asked := by
      intro req hc
      rw [h.client] at hc
      split at hc <;> cases hc
    conn := by
      intro r' rest' hc
      obtain ⟨hfull, rfl, rfl⟩ := h.answering hc
      refine ⟨⟨k + 1, ?_⟩, ?_, hcureq.le, fun hr => ⟨?_, ?_⟩, fun hr => ?_⟩
      · rw [List.length_drop]
        omega
      · rw [hcureq, h.preDownloadPos]
        omega
      · rw [h.rangeEnable]
        rw [h.isRange, Bool.and_eq_true] at hr
        exact hr.1
      · rw [hjoin]
        exact hhere
      · rw [hjoin, hcureq]
        exact hdrop hr }

/-- A block that is thrown away. -/
theorem Took.receiving (h : Took p r rest isRange rangeLen q) (hpre : p.preDownloadPos < 2147483648)
    (hb : Belongs R p r rest (p.rangeEnable && isRange)) (hskip : q.recvLen ≤ q.readPos) : Receiving R q := by
  obtain ⟨⟨k, hk⟩, hcur, hle, -, hfrom⟩ := hb
  have hcurq := h.curDownloadPos_eq hcur hle hpre
  have hread := h.readPos
  have hlen := h.recvLen
  rw [h.isRange] at hread
  unfold Receiving
  cases hc : q.client with
  | closed => trivial
  | «open» => trivial
  | asked req =>
    rw [h.client] at hc
    split at hc <;> cases hc
  | answering r' rest' =>
    obtain ⟨hfull, rfl, rfl⟩ := h.answering hc
    have htake : (rest.take 2048).length = 2048 := by simp; omega
    -- a whole block of a ranged reply is never thrown away
    have hr : (p.rangeEnable && isRange) = false := by
      by_contra hr
      rw [Bool.not_eq_false] at hr
      rw [hr, if_pos rfl] at hread
      omega
    rw [hr, if_neg Bool.false_ne_true] at hread hcurq
    refine ⟨⟨k + 1, ?_⟩, ?_, ?_, fun hx => ?_, fun _ => ?_⟩
    · rw [List.length_drop]
      omega
    · omega
    · rw [h.preDownloadPos]
      omega
    · rw [h.isRange, hr] at hx
      exact absurd hx (by decide)
    · rw [List.nil_append, hfrom hr, List.drop_drop, hcurq]
      congr 1
      omega

/-! ## Pushing it -/

/-- The bytes pushed and those that follow them. -/
theorem Stored.push (h : Stored R start p) (hR : R.length < 2147483648)
    (hhere : p.unread <+: R.drop p.preDownloadPos.toNat) (hp : Pushed p q) :
    Stored R start q ∧ q.preDownloadPos = p.preDownloadPos + p.unread.length := by
  have h1 := h.start_le
  have h2 := h.le_len
  have hlen := hhere.length_le
  rw [List.length_drop] at hlen
  have hpos : q.preDownloadPos = p.preDownloadPos + p.unread.length := by
    rw [hp.preDownloadPos, toI32_eq] <;> omega
  refine ⟨⟨by omega, by omega, ?_, hp.location h.location⟩, hpos⟩
  have hsum : q.preDownloadPos.toNat - start = (p.preDownloadPos.toNat - start) + p.unread.length := by omega
  have hdrop : start + (p.preDownloadPos.toNat - start) = p.preDownloadPos.toNat := by omega
  rw [hp.pushed, h.pushed, hsum, List.take_add, List.drop_drop, hdrop, ← List.prefix_iff_eq_take.1 hhere]

theorem Follows.push (hf : Follows R p p.unread r rest) (hcur : p.curDownloadPos = p.preDownloadPos)
    (hpos : q.preDownloadPos = p.preDownloadPos + p.unread.length) (hcurq : q.curDownloadPos = q.preDownloadPos)
    (hext : q.ext = p.ext) (hrange : q.rangeEnable = p.rangeEnable) : Follows R q [] r rest := by
  have hnn := hf.cur_nonneg
  have hadd : q.preDownloadPos.toNat = p.preDownloadPos.toNat + p.unread.length := by omega
  refine ⟨hf.whole, by omega, by omega, fun hr => ⟨?_, ?_⟩, fun hr => ?_⟩
  · rw [hrange]
    exact (hf.ranged (hext ▸ hr)).1
  · obtain ⟨tail, htail⟩ := (hf.ranged (hext ▸ hr)).2
    refine ⟨tail, ?_⟩
    rw [hadd, ← List.drop_drop, ← htail, List.append_assoc, List.append_assoc, List.drop_left, List.nil_append]
  · have h := hf.plain (hext ▸ hr)
    rw [hcurq, hadd, ← List.drop_drop, ← hcur, ← h, List.drop_left, List.nil_append]

theorem InState.recv (h : Receiving R q) : InState R httpDownloadStaRecv q :=
  ⟨fun _ => h, fun h' => absurd h' (by decide)⟩

theorem InState.waitFree (h : Holding R q) : InState R httpDownloadStaWaitFree q :=
  ⟨fun h' => absurd h' (by decide), fun _ => h⟩

theorem InState.other {state : Word} (h1 : state ≠ httpDownloadStaRecv) (h2 : state ≠ httpDownloadStaWaitFree) :
    InState R state q := ⟨fun h => absurd h h1, fun h => absurd h h2⟩

theorem InState.idle : InState R httpDownloadStaIdle q := .other (by decide) (by decide)
theorem InState.pause : InState R httpDownloadStaPause q := .other (by decide) (by decide)
theorem InState.waitRange : InState R httpDownloadStaWaitRange q := .other (by decide) (by decide)

/-- What the places of the bytes depend on. -/
structure SameBlock (p q : HttpDownloadProc cap) : Prop where
  client         : q.client = p.client
  httpRet        : q.httpRet = p.httpRet
  ext            : q.ext = p.ext
  unread         : q.unread = p.unread
  recvLen        : q.recvLen = p.recvLen
  readPos        : q.readPos = p.readPos
  preDownloadPos : q.preDownloadPos = p.preDownloadPos
  curDownloadPos : q.curDownloadPos = p.curDownloadPos
  rangeEnable    : q.rangeEnable = p.rangeEnable

theorem SameBlock.setError (p : HttpDownloadProc cap) (ret : HttpDownloadProcReturn) :
    SameBlock p { p with lastError := ret } := ⟨rfl, rfl, rfl, rfl, rfl, rfl, rfl, rfl, rfl⟩

theorem SameBlock.pop (p : HttpDownloadProc cap) (n : Nat) : SameBlock p (p.pop n) :=
  ⟨rfl, rfl, rfl, rfl, rfl, rfl, rfl, rfl, rfl⟩

theorem Follows.of_same {held : List Byte} (hf : Follows R p held r rest) (h : SameBlock p q) :
    Follows R q held r rest where
  whole := hf.whole
  cur_nonneg := h.curDownloadPos ▸ hf.cur_nonneg
  cur_le := h.curDownloadPos ▸ h.preDownloadPos ▸ hf.cur_le
  ranged := by
    rw [h.ext, h.rangeEnable, h.preDownloadPos]
    exact hf.ranged
  plain := by
    rw [h.ext, h.curDownloadPos]
    exact hf.plain

theorem Receiving.of_same (hr : Receiving R p) (h : SameBlock p q) : Receiving R q := by
  unfold Receiving at hr ⊢
  rw [h.client]
  cases hc : p.client with
  | closed => trivial
  | «open» => trivial
  | asked req =>
    rw [hc] at hr
    unfold HttpDownloadProc.Asks
    rw [h.curDownloadPos, h.rangeEnable, h.preDownloadPos]
    exact hr
  | answering r rest =>
    rw [hc] at hr
    exact hr.of_same h

theorem Holding.of_same (hw : Holding R p) (h : SameBlock p q) : Holding R q where
  len := by
    rw [h.unread, h.recvLen, h.readPos]
    exact hw.len
  pos := by
    rw [h.recvLen, h.readPos]
    exact hw.pos
  cur := by
    rw [h.curDownloadPos, h.preDownloadPos]
    exact hw.cur
  here := by
    rw [h.unread, h.preDownloadPos]
    exact hw.here
  last := by
    rw [h.ext, h.httpRet, h.unread, h.preDownloadPos]
    exact hw.last
  asked := by
    rw [h.client]
    exact hw.asked
  conn := by
    rw [h.client, h.unread]
    exact fun r rest hc => (hw.conn r rest hc).of_same h

theorem InState.of_same {state : Word} (hi : InState R state p) (h : SameBlock p q) : InState R state q :=
  ⟨fun hs => (hi.1 hs).of_same h, fun hs => (hi.2 hs).of_same h⟩

/-- What the push action makes of a held block. -/
theorem Holding.push (h : Holding R p) (hs : Stored R start p) (hR : R.length < 2147483648) {res}
    (ho : PushOutcome p res) : Stored R start res.1 ∧ InState R res.2 res.1 := by
  cases ho with
  | full => exact ⟨hs.of_sameData ((SameData.refl p).lastError _), .waitFree (h.of_same (.setError p _))⟩
  | ended hp => exact ⟨(hs.push hR h.here hp).1, .idle⟩
  | rangeEnd hp => exact ⟨(hs.push hR h.here hp).1, .waitRange⟩
  | @more q hp _ _ hclient hext hcur =>
    obtain ⟨hs', hpos⟩ := hs.push hR h.here hp
    refine ⟨hs', .recv ?_⟩
    have hcurq : q.curDownloadPos = q.preDownloadPos := by rw [hcur, hp.preDownloadPos, h.cur]
    unfold Receiving
    cases hc : q.client with
    | closed => trivial
    | «open» => trivial
    | asked req => exact absurd (hclient ▸ hc) (h.asked req)
    | answering r rest => exact (h.conn r rest (hclient ▸ hc)).push h.cur hpos hcurq hext hp.rangeEnable

/-! ## Runs -/

theorem after_curState (s : DownloadSys cap) (res : HttpDownloadProc cap × Word) :
    (s.after res).curState = if res.2 = comFsmHoldState then s.curState else res.2 := by
  unfold DownloadSys.after
  dsimp only
  by_cases h : res.2 = comFsmHoldState
  · rw [if_neg fun h' => h'.1 h, if_pos h]
  · rw [if_neg h]
    by_cases h' : res.2 = s.curState
    · rw [if_neg fun hx => hx.2 h', h']
    · rw [if_pos ⟨h, h'⟩]

theorem Placed.after {s : DownloadSys cap} {res : HttpDownloadProc cap × Word} (h : s.curState ∈ downloadStates)
    (hends : Ends res) (hs : Stored R start res.1)
    (hin : InState R (if res.2 = comFsmHoldState then s.curState else res.2) res.1) : Placed R start (s.after res) := by
  refine ⟨after_mem h hends, hs, ?_⟩
  rw [after_curState]
  exact hin

theorem recv_ne_hold : httpDownloadStaRecv ≠ comFsmHoldState := by decide

/-- A connection that is made anew, or not. -/
theorem Placed.conn {s : DownloadSys cap} {res} (h : s.curState ∈ downloadStates) (hends : Ends res)
    (hs : Stored R start p) (hne : s.curState ≠ httpDownloadStaWaitFree) (ho : ConnOutcome p res) :
    Placed R start (s.after res) := by
  cases ho with
  | sent h1 h2 h3 h4 h5 =>
    refine .after h hends (hs.of_sameData h1) ?_
    rw [if_neg recv_ne_hold]
    refine .recv ?_
    unfold Receiving
    rw [h4]
    exact ⟨h3, h5.imp id fun h' => ⟨h1.rangeEnable.symm ▸ h'.1, h1.preDownloadPos.symm ▸ h'.2⟩⟩
  | gaveUp h1 =>
    refine .after h hends (hs.of_sameData h1) ?_
    rw [if_neg hold_ne_idle.symm]
    exact .idle
  | held h1 h2 h3 =>
    refine .after h hends (hs.of_sameData h1) ?_
    rw [if_pos rfl]
    refine ⟨fun _ => ?_, fun h' => absurd h' hne⟩
    unfold Receiving
    rw [h3]
    trivial

theorem PushOutcome.ne_hold {res} (h : PushOutcome p res) : res.2 ≠ comFsmHoldState := by
  cases h with
  | full => exact (by decide : httpDownloadStaWaitFree ≠ comFsmHoldState)
  | ended => exact hold_ne_idle.symm
  | rangeEnd => exact (by decide : httpDownloadStaWaitRange ≠ comFsmHoldState)
  | more => exact recv_ne_hold

/-- The push action, called in RECV or WAIT_FREE, on a block that is held. -/
theorem Placed.push {s : DownloadSys cap} (h : s.curState ∈ downloadStates) (hs : Stored R start p)
    (hR : R.length < 2147483648) (hold : Holding R p) : Placed R start (s.after (httpDownloadProcPushAction p)) := by
  have ho := pushAction_cases hold.len hold.pos
  obtain ⟨hs', hin⟩ := hold.push hs hR ho
  refine .after h pushAction_ends hs' ?_
  rw [if_neg ho.ne_hold]
  exact hin

theorem Stored.took (h : Stored R start p) (ht : Took p r rest isRange rangeLen q) : Stored R start q where
  start_le := ht.preDownloadPos ▸ h.start_le
  le_len := ht.preDownloadPos ▸ h.le_len
  pushed := by
    rw [ht.preDownloadPos, ← h.pushed]
    simp only [HttpDownloadProc.pushed, ht.httpBuffer]
  location := ht.location

theorem Receiving.wholeBlocks (h : Receiving R p) : WholeBlocks p := by
  intro r rest hc
  unfold Receiving at h
  rw [hc] at h
  exact h.whole

/-- The receive poll in RECV. -/
theorem Placed.recv {s : DownloadSys cap} {res} (h : Placed R start s) (hR : R.length < 2147483648)
    (hcur : s.curState = httpDownloadStaRecv) (hends : Ends res) (ho : RecvOutcome answers s.proc res)
    (hfit : ∀ req r, s.proc.Asks req → s.proc.Keeps r.isRange → answers req r → s.proc.Fits R r) :
    Placed R start (s.after res) := by
  have hr := h.inState.1 hcur
  have h1 := h.stored.start_le
  have h2 := h.stored.le_len
  cases ho with
  | lost hc => exact .conn h.mem hends h.stored (by rw [hcur]; decide) hc
  | skip hdue hkeep htook hskip =>
    have hb := hdue.placed hr hkeep (by omega) fun req => hfit req _
    refine .after h.mem hends (h.stored.took htook) ?_
    rw [if_pos rfl, hcur]
    exact .recv (htook.receiving (by omega) hb hskip)
  | block hdue hkeep htook hpos =>
    have hb := hdue.placed hr hkeep (by omega) fun req => hfit req _
    exact .push h.mem (h.stored.took htook) hR (htook.holding (by omega) hb hpos)

theorem Stored.setError (h : Stored R start p) (ret : HttpDownloadProcReturn) :
    Stored R start { p with lastError := ret } := h.of_sameData ((SameData.refl p).lastError ret)

theorem Stored.pop (h : Stored R start p) (n : Nat) : Stored R start (p.pop n) where
  start_le := h.start_le
  le_len := h.le_len
  pushed := by
    rw [show (p.pop n).preDownloadPos = p.preDownloadPos from rfl, ← h.pushed]
    unfold HttpDownloadProc.pushed HttpDownloadProc.pop
    cases p.httpBuffer <;> rfl
  location := h.location

/-- **One step keeps every byte in its place**, if the replies fit. -/
theorem Placed.step {s s' : DownloadSys cap} {a : DownloadAct} (hR : R.length < 2147483648)
    (hfit : ∀ req r, s.proc.Asks req → s.proc.Keeps r.isRange → answers req r → s.proc.Fits R r)
    (h : Placed R start s) (hs : DownloadStep answers s a s') : Placed R start s' := by
  cases hs with
  | @pop n => exact ⟨h.mem, h.stored.pop n, h.inState.of_same (.pop _ n)⟩
  | @turn pause resume env hm hh =>
    have hturn : Turn s env pause resume (s.turn env (downloadEvents false false pause resume)) := turn_cases h.mem
    generalize s.turn env (downloadEvents false false pause resume) = s' at hturn
    cases hturn with
    | idle => exact h
    | stay => exact h
    | resume hcur => exact .conn h.mem connAction_ends h.stored (by rw [hcur]; decide) (connAction_cases _ _)
    | pause hidle hpause =>
      have hends : Ends (httpDownloadProcPauseAction s.proc) := @exec_ends _ _ env .pause
      refine .after h.mem hends (h.stored.of_sameData (.closeClient _)) ?_
      exact .pause
    | recv hcur =>
      exact h.recv hR hcur recvPoll_ends
        (recvPoll_cases hh h.stored.location (h.inState.1 hcur).wholeBlocks) hfit
    | waitFree hcur =>
      have hends : Ends (httpDownloadProcWaitFreePoll s.proc) := @exec_ends _ _ env .waitFreePoll
      have hsame := SameBlock.setError s.proc (httpDownloadWaitFree s.proc)
      have hold := (h.inState.2 hcur).of_same hsame
      have hs' := h.stored.setError (httpDownloadWaitFree s.proc)
      unfold httpDownloadProcWaitFreePoll at hends ⊢
      dsimp only at hends ⊢
      split
      · exact .push h.mem hs' hR hold
      · rename_i hne
        rw [if_neg hne] at hends
        exact .after h.mem hends hs' (h.inState.of_same hsame)
    | waitRange hcur =>
      have hends : Ends (httpDownloadProcWaitRangePoll env s.proc) := exec_ends .waitRangePoll
      have hs' := h.stored.setError (httpDownloadWaitRange s.proc)
      unfold httpDownloadProcWaitRangePoll at hends ⊢
      dsimp only at hends ⊢
      split
      · exact .conn h.mem connAction_ends hs' (by rw [hcur]; decide) (connAction_cases _ _)
      · rename_i hne
        rw [if_neg hne] at hends
        exact .after h.mem hends hs' (h.inState.of_same (.setError _ _))

/-- The first turn of a download leaves nothing pushed. -/
theorem Placed.started {queue : Fifo Byte cap} {url : List Byte} {rangeEnable pause resume : Bool}
    (hstart : start ≤ R.length) (hm : ∀ k, env.malloc k) :
    Placed R start (DownloadSys.started queue url rangeEnable start p pause resume env) := by
  rw [started_eq]
  have hstarted : ∃ q, httpDownloadProcStartAction env (httpDownloadStartInner queue url rangeEnable start p) =
      httpDownloadProcConnAction env q ∧ Stored R start q := by
    unfold httpDownloadProcStartAction httpDownloadProcStart
    simp only [hm, Bool.not_true, Bool.false_eq_true, if_false, if_true]
    refine ⟨_, rfl, ⟨le_refl _, ?_, ?_, rfl⟩⟩
    · exact Int.ofNat_le.2 hstart
    · simp [HttpDownloadProc.pushed, httpDownloadStartInner]
  obtain ⟨q, hq, hs⟩ := hstarted
  rw [hq]
  have hne : httpDownloadStaIdle ≠ httpDownloadStaWaitFree := by decide
  exact .conn idle_mem connAction_ends hs hne (connAction_cases env q)

/-- A range that is asked for starts at `pre_download_pos`. -/
theorem HttpDownloadProc.Asks.slice_prefix {req : HttpRequest} (hasks : p.Asks req) (hrange : req.range ≠ none) :
    p.rangeEnable = true ∧ req.slice R <+: R.drop p.preDownloadPos.toNat := by
  obtain ⟨hre, last, hlast⟩ := hasks.resolve_left hrange
  refine ⟨hre, ?_⟩
  unfold HttpRequest.slice
  rw [hlast]
  cases last with
  | none => exact List.prefix_refl _
  | some last => exact List.take_prefix _ _

/-- The replies of such a server fit. -/
theorem ServesSlices.fits {req : HttpRequest} (h : ServesSlices R req r) (hasks : p.Asks req) : p.Fits R r := by
  unfold HttpDownloadProc.Fits
  cases h with
  | ok => rw [if_neg (by simp)]
  | partialContent hrange hne hbody =>
    obtain ⟨hre, hslice⟩ := hasks.slice_prefix hrange
    rw [if_pos ⟨hre, rfl⟩]
    exact hbody.trans hslice

end

/-- A call that hands over one short block, the only one of a ranged reply. -/
def HttpEnv.handing (rangeLen : Int) (block : List Byte) : HttpEnv :=
  { HttpEnv.accepting with
    recvRet := .ok
    recvData := { responseBufLen := 2049, responseContentLen := block.length, responseBuf := block,
                  ext := some { isRange := true, rangeLen } }
    recvConn := .open }

end AudioPlayer

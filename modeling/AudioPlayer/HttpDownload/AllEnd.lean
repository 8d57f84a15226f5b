import Mathlib
import AudioPlayer.HttpDownload.Position

/-!
# The end of the resource

`http_download_proc_push_data` has three tests for an end (`utils/http_download_process.c:368-384`): the last
block of a plain reply, the total length, the end of the range. The second is off once a reply was chunked,
the third only asks for the next range, and a last block that is empty is thrown away before any of them
(`:330-335`), so a chunked reply that counts as ranged, or a plain one that fills its last block, ends
nowhere. `EndSeen` says of a reply that it is none of these and that the total length it leaves is right.

| here | there |
| --- | --- |
| `ServesResource` | a server with either framing, with or without `Accept-Ranges` and a complete length |
| `EndsRight`      | `HTTP_DOWNLOAD_PROC_ALL_END` exactly when nothing is missing |
| `Coming`, `Ending` | what is still to come of a reply, and what a held block leaves, against the total length |
-/

namespace AudioPlayer
open Lib

variable {cap : Nat}

/-- A server that answers a request with 206 and the first bytes of what it asks for, or with 200 and
everything. -/
inductive ServesResource (R : List Byte) (req : HttpRequest) : HttpReply → Prop
  | partialContent {rangeLen chunked body} : req.range ≠ none → body ≠ [] → body <+: req.slice R →
      rangeLen = 0 ∨ rangeLen = R.length → ServesResource R req ⟨206, true, rangeLen, chunked, body⟩
  | ok {isRange chunked} : ServesResource R req ⟨200, isRange, 0, chunked, R⟩

/-- `ALL_END` is reported only with everything pushed, and is reported once everything is pushed and the
reply is over. -/
def EndsRight (R : List Byte) (start : Nat) (s : DownloadSys cap) : Prop :=
  (s.proc.lastError = .allEnd → s.proc.pushed = R.drop start) ∧
    (s.proc.pushed = R.drop start → (∀ r rest, s.proc.client ≠ .answering r rest) →
      s.curState = httpDownloadStaIdle ∧ s.proc.lastError = .allEnd)

/-- A reply whose end the tests see, where the process is. -/
structure EndSeen (R : List Byte) (p : HttpDownloadProc cap) (r : HttpReply) : Prop where
  /-- A 200 that counts as ranged is one from the start. -/
  start  : (p.rangeEnable && r.isRange) = true → r.status ≠ 206 → p.preDownloadPos ≤ 0
  /-- The first total length is that of the resource. -/
  total  : r.chunked = false → p.isChunked = false → p.lengthReceived = false →
    (if (p.rangeEnable && r.isRange) = true ∧ 0 < r.rangeLen then r.rangeLen else r.body.length) = (R.length : Int)
  /-- With chunks, a ranged reply does not reach the end, -/
  ranged : (p.isChunked || r.chunked) = true → (p.rangeEnable && r.isRange) = true →
    p.preDownloadPos + r.body.length ≠ R.length
  /-- and the last block of a plain one is not empty. -/
  plain  : (p.isChunked || r.chunked) = true → (p.rangeEnable && r.isRange) = false → ¬ 2048 ∣ R.length

/-- A step in which the reply that begins, if it is not thrown away, is one whose end is seen. -/
def SeenStep (R : List Byte) (s : DownloadSys cap) (a : DownloadAct) (t : DownloadSys cap) : Prop :=
  DownloadStep (fun req r => ServesResource R req r ∧ (s.proc.Keeps r.isRange → EndSeen R s.proc r)) s a t

/-- A reply under way, of which `n` bytes are held and `rest` is still to come. -/
structure Coming (R : List Byte) (q : HttpDownloadProc cap) (n : Nat) (r : HttpReply) (rest : List Byte) : Prop where
  sticky : r.chunked = true → q.isChunked = true
  known  : r.chunked = false → q.lengthReceived = true
  all    : q.ext.isRange = false → r.body.length = R.length
  ranged : q.isChunked = true → q.ext.isRange = true → q.preDownloadPos + n + rest.length ≠ R.length
  plain  : q.isChunked = true → q.ext.isRange = false → ¬ 2048 ∣ R.length

/-- A held block. -/
structure Ending (R : List Byte) (q : HttpDownloadProc cap) : Prop where
  chunked : q.isChunked = true → q.ext.isRange = true ∨ q.httpRet = .retrieveMoreData →
    q.preDownloadPos + q.unread.length ≠ R.length
  total   : q.isChunked = false → q.totalLength = R.length
  coming  : ∀ r rest, q.client = .answering r rest → Coming R q q.unread.length r rest

/-- The invariant beside `Placed`. -/
structure Counting (R : List Byte) (state : Word) (q : HttpDownloadProc cap) : Prop where
  counted  : q.isChunked = false → q.lengthReceived = true → q.totalLength = R.length
  reached  : state = httpDownloadStaIdle ∧ q.lastError = .allEnd ∧ q.preDownloadPos = R.length ∨
    q.preDownloadPos < R.length ∧ q.lastError ≠ .allEnd
  recv     : state = httpDownloadStaRecv → ∀ r rest, q.client = .answering r rest → Coming R q 0 r rest
  waitFree : state = httpDownloadStaWaitFree → Ending R q

/-- What is known of a reply before its next block is taken in. -/
structure Awaited (R : List Byte) (p : HttpDownloadProc cap) (r : HttpReply) (rest : List Byte) (ranged : Bool)
    (rangeLen : Int) : Prop where
  all    : ranged = false → r.body.length = R.length
  total  : r.chunked = false → p.isChunked = false →
    (if p.lengthReceived then p.totalLength
      else if ranged = true ∧ 0 < rangeLen then rangeLen else r.body.length) = (R.length : Int)
  onward : (p.isChunked || r.chunked) = true → ranged = true → p.preDownloadPos + rest.length ≠ R.length
  plain  : (p.isChunked || r.chunked) = true → ranged = false → ¬ 2048 ∣ R.length

section
variable {p q : HttpDownloadProc cap} {env : HttpEnv} {R : List Byte} {start : Nat} {state : Word}
  {r : HttpReply} {rest : List Byte} {isRange : Bool} {rangeLen : Int} {answers : HttpRequest → HttpReply → Prop}

/-! ## Taking a block in -/

/-- The replies fit where they are taken to belong. -/
theorem ServesResource.fits {req : HttpRequest} (h : ServesResource R req r) (hasks : p.Asks req)
    (hpos : 0 ≤ p.preDownloadPos) (hseen : EndSeen R p r) : p.Fits R r := by
  unfold HttpDownloadProc.Fits
  cases h with
  | @ok isRange chunked =>
    split
    · rename_i hr
      have h0 := hseen.start (by simpa using hr) (by simp)
      have h0' : p.preDownloadPos.toNat = 0 := by omega
      rw [h0', List.drop_zero]
    · rfl
  | partialContent hrange hne hbody _ =>
    obtain ⟨hre, hslice⟩ := hasks.slice_prefix hrange
    rw [if_pos ⟨hre, rfl⟩]
    exact hbody.trans hslice

theorem Due.awaited (h : Due answers p r rest isRange rangeLen) (hr : Receiving R p) (hkeep : p.Keeps isRange)
    (hc : Counting R httpDownloadStaRecv p)
    (hseen : ∀ req, p.Asks req → p.Keeps r.isRange → answers req r → p.Fits R r ∧ EndSeen R p r) :
    Awaited R p r rest (p.rangeEnable && isRange) rangeLen := by
  unfold Receiving at hr
  cases h with
  | @first req hclient ha =>
    rw [hclient] at hr
    obtain ⟨hfits, hend⟩ := hseen req hr.2 hkeep ha
    refine ⟨fun h => ?_, fun h1 h2 => ?_, hend.ranged, hend.plain⟩
    · unfold HttpDownloadProc.Fits at hfits
      rw [if_neg (by simpa using h)] at hfits
      rw [hfits]
    · cases hl : p.lengthReceived with
      | true => exact hc.counted h2 hl
      | false => exact hend.total h1 h2 hl
  | next hclient =>
    rw [hclient] at hr
    have hcom := hc.recv rfl _ _ hclient
    -- what is known of the earlier blocks does not change
    have hrg : (p.rangeEnable && p.ext.isRange) = p.ext.isRange := by
      cases hx : p.ext.isRange with
      | true => rw [(hr.ranged hx).1]; rfl
      | false => rw [Bool.and_false]
    have hsticky : (p.isChunked || r.chunked) = true → p.isChunked = true := by
      intro h
      rcases Bool.or_eq_true_iff.1 h with h | h
      · exact h
      · exact hcom.sticky h
    rw [hrg]
    refine ⟨hcom.all, fun h1 h2 => ?_, fun h => by simpa using hcom.ranged (hsticky h), fun h => hcom.plain (hsticky h)⟩
    have hl := hcom.known h1
    rw [if_pos hl]
    exact hc.counted h2 hl

/-- The total length after a block. -/
theorem Took.counted (h : Took p r rest isRange rangeLen q)
    (ha : Awaited R p r rest (p.rangeEnable && isRange) rangeLen) (hc : q.isChunked = false) :
    q.totalLength = R.length := by
  rw [h.isChunked, Bool.or_eq_false_iff] at hc
  rw [h.totalLength hc.2, h.isRange, h.rangeLen]
  exact ha.total hc.2 hc.1

/-- What holds of the rest of a reply, whatever `n` is, when its block has been taken in. -/
theorem Took.comingOf (h : Took p r rest isRange rangeLen q)
    (ha : Awaited R p r rest (p.rangeEnable && isRange) rangeLen) {n : Nat} {r' rest'}
    (hc : q.client = .answering r' rest')
    (hn : q.ext.isRange = true → n + rest'.length = rest.length) : Coming R q n r' rest' := by
  obtain ⟨-, rfl, rfl⟩ := h.answering hc
  have hchunked := h.isChunked
  have hrange := h.isRange
  refine ⟨fun h' => ?_, fun h' => ?_, fun h' => ?_, fun h1 h2 => ?_, fun h1 h2 => ?_⟩
  · rw [hchunked, h', Bool.or_true]
  · rw [h.lengthReceived, h', Bool.not_false, Bool.or_true]
  · exact ha.all (hrange ▸ h')
  · have hne := ha.onward (hchunked ▸ h1) (hrange ▸ h2)
    have hlen := hn h2
    rw [h.preDownloadPos]
    omega
  · exact ha.plain (hchunked ▸ h1) (hrange ▸ h2)

/-- A block that is thrown away. -/
theorem Took.coming (h : Took p r rest isRange rangeLen q)
    (ha : Awaited R p r rest (p.rangeEnable && isRange) rangeLen) (hskip : q.recvLen ≤ q.readPos) {r' rest'}
    (hc : q.client = .answering r' rest') : Coming R q 0 r' rest' := by
  refine h.comingOf ha hc fun hr => ?_
  -- a whole block of a ranged reply is never thrown away
  obtain ⟨hfull, -, -⟩ := h.answering hc
  have hread := h.readPos
  have hlen := h.recvLen
  rw [if_pos hr] at hread
  rw [List.length_take] at hlen
  omega

/-- A block that is to be pushed. -/
theorem Took.ending (h : Took p r rest isRange rangeLen q) (hw : Holding R q)
    (hb : Belongs R p r rest (p.rangeEnable && isRange))
    (ha : Awaited R p r rest (p.rangeEnable && isRange) rangeLen) (hlt : p.preDownloadPos < R.length) :
    Ending R q := by
  have hlen := hw.len
  have hrecv := h.recvLen
  have hread := h.readPos
  rw [List.length_take] at hrecv
  have hcur := hb.cur_nonneg
  have hle := hb.cur_le
  refine ⟨fun h1 h2 => ?_, h.counted ha, fun r' rest' hc => h.comingOf ha hc fun hr => ?_⟩
  · have h1' := h.isChunked ▸ h1
    rw [h.preDownloadPos]
    cases hr : q.ext.isRange with
    | true =>
      rw [if_pos hr] at hread
      have hpre := (hb.onward (h.isRange ▸ hr)).length_le
      have hne := ha.onward h1' (h.isRange ▸ hr)
      rw [List.length_drop] at hpre
      omega
    | false =>
      -- a full block of a plain reply, whose last one is not empty
      have hmore := h2.resolve_left (by rw [hr]; decide)
      rw [h.httpRet] at hmore
      have hfull : 2048 ≤ rest.length := by
        by_contra hshort
        rw [if_neg hshort] at hmore
        cases hmore
      have hnd := ha.plain h1' (h.isRange ▸ hr)
      have hall := ha.all (h.isRange ▸ hr)
      have hrest := hb.fromStart (h.isRange ▸ hr)
      obtain ⟨k, hk⟩ := hb.whole
      have hlenrest := congrArg List.length hrest
      rw [List.length_drop] at hlenrest
      have hne : rest.length ≠ 2048 := fun h' => hnd ⟨k + 1, by omega⟩
      rw [if_neg (by rw [hr]; decide)] at hread
      omega
  · obtain ⟨hfull, -, rfl⟩ := h.answering hc
    rw [if_pos hr] at hread
    rw [List.length_drop]
    omega

/-! ## Pushing it -/

/-- The tests see the end exactly where it is. -/
theorem Ending.atEnd_iff (h : Ending R p) (hw : Holding R p) (hlt : p.preDownloadPos < R.length)
    (h0 : 0 ≤ p.preDownloadPos) :
    p.AtEnd (p.preDownloadPos + p.unread.length) ↔ p.preDownloadPos + p.unread.length = R.length := by
  have hle := hw.here.length_le
  rw [List.length_drop] at hle
  constructor
  · rintro (⟨hr, hret⟩ | ⟨hc, htotal⟩)
    · have hlast := congrArg List.length (hw.last hr hret)
      rw [List.length_drop] at hlast
      omega
    · have := h.total hc
      omega
  · intro heq
    cases hc : p.isChunked with
    | false => exact .inr ⟨hc, by have := h.total hc; omega⟩
    | true =>
      left
      by_contra hx
      refine h.chunked hc ?_ heq
      by_contra hy
      rw [not_or] at hy
      exact hx ⟨by simpa using hy.1, hy.2⟩

theorem Ending.setError (h : Ending R p) (ret : HttpDownloadProcReturn) : Ending R { p with lastError := ret } :=
  ⟨h.chunked, h.total, fun r rest hc => have hcom := h.coming r rest hc; ⟨hcom.sticky, hcom.known, hcom.all, hcom.ranged, hcom.plain⟩⟩

/-- A state in which nothing of a reply is taken in. -/
theorem Counting.other (hc : q.isChunked = false → q.lengthReceived = true → q.totalLength = R.length)
    (hreach : state = httpDownloadStaIdle ∧ q.lastError = .allEnd ∧ q.preDownloadPos = R.length ∨
      q.preDownloadPos < R.length ∧ q.lastError ≠ .allEnd)
    (h1 : state ≠ httpDownloadStaRecv) (h2 : state ≠ httpDownloadStaWaitFree) : Counting R state q :=
  ⟨hc, hreach, fun h => absurd h h1, fun h => absurd h h2⟩

theorem idle_ne_recv : httpDownloadStaIdle ≠ httpDownloadStaRecv := by decide
theorem idle_ne_waitFree : httpDownloadStaIdle ≠ httpDownloadStaWaitFree := by decide
theorem waitRange_ne_recv : httpDownloadStaWaitRange ≠ httpDownloadStaRecv := by decide
theorem waitRange_ne_waitFree : httpDownloadStaWaitRange ≠ httpDownloadStaWaitFree := by decide
theorem recv_ne_waitFree : httpDownloadStaRecv ≠ httpDownloadStaWaitFree := by decide

/-- What the push action makes of a held block. -/
theorem Ending.push (h : Ending R p) (hw : Holding R p) (hs : Stored R start p) (hR : R.length < 2147483648)
    (hlt : p.preDownloadPos < R.length) {res} (ho : PushOutcome p res) : Counting R res.2 res.1 := by
  have hstart := hs.start_le
  have hend := h.atEnd_iff hw hlt (by omega)
  -- the total length, and where a push that is not at the end stands
  have htotal : ∀ {q}, Pushed p q → q.isChunked = false → q.lengthReceived = true → q.totalLength = R.length := by
    intro q hp hc _
    rw [hp.totalLength]
    exact h.total (hp.isChunked ▸ hc)
  have hbefore : ∀ {q}, Pushed p q → ¬ p.AtEnd q.preDownloadPos → q.preDownloadPos < R.length := by
    intro q hp hat
    obtain ⟨hs', hpos⟩ := hs.push hR hw.here hp
    have hle := hs'.le_len
    rw [hpos] at hat hle ⊢
    exact lt_of_le_of_ne hle fun heq => hat (hend.2 heq)
  cases ho with
  | full =>
    refine ⟨fun hc _ => h.total hc, .inr ⟨hlt, by simp⟩, fun h' => ?_, fun _ => h.setError _⟩
    exact absurd h'.symm recv_ne_waitFree
  | @ended q hp hat herr =>
    obtain ⟨-, hpos⟩ := hs.push hR hw.here hp
    rw [hpos] at hat
    exact .other (htotal hp) (.inl ⟨rfl, herr, hpos.trans (hend.1 hat)⟩) idle_ne_recv idle_ne_waitFree
  | @rangeEnd q hp hat herr =>
    exact .other (htotal hp) (.inr ⟨hbefore hp hat, by rw [herr]; simp⟩) waitRange_ne_recv waitRange_ne_waitFree
  | @more q hp hat herr hclient hext hcur =>
    obtain ⟨-, hpos⟩ := hs.push hR hw.here hp
    refine ⟨htotal hp, .inr ⟨hbefore hp hat, by rw [herr]; simp⟩, fun _ r rest hc => ?_, fun h' => absurd h' recv_ne_waitFree⟩
    have hcom := h.coming r rest (hclient ▸ hc)
    refine ⟨fun h' => hp.isChunked ▸ hcom.sticky h', fun h' => hp.lengthReceived ▸ hcom.known h', ?_, ?_, ?_⟩
    · rw [hext]
      exact hcom.all
    · rw [hp.isChunked, hext, hpos]
      simpa using hcom.ranged
    · rw [hp.isChunked, hext]
      exact hcom.plain

/-! ## Runs -/

theorem Counting.conn {s : DownloadSys cap} {res} (hc : p.isChunked = false → p.lengthReceived = true → p.totalLength = R.length)
    (hlt : p.preDownloadPos < R.length) (hne : s.curState ≠ httpDownloadStaWaitFree) (ho : ConnOutcome p res) :
    Counting R (s.after res).curState (s.after res).proc := by
  have hcounted : ∀ {q}, SameData p q → q.isChunked = false → q.lengthReceived = true → q.totalLength = R.length := by
    intro q hs h1 h2
    rw [hs.totalLength]
    exact hc (hs.isChunked ▸ h1) (hs.lengthReceived ▸ h2)
  have hlt' : ∀ {q}, SameData p q → q.preDownloadPos < R.length := fun hs => hs.preDownloadPos ▸ hlt
  rw [after_curState]
  cases ho with
  | sent h1 h2 h3 h4 h5 =>
    rw [if_neg recv_ne_hold]
    refine ⟨hcounted h1, .inr ⟨hlt' h1, fun h' => ?_⟩, fun _ r rest hclient => ?_, fun h' => absurd h' recv_ne_waitFree⟩
    · cases h2.symm.trans h'
    · cases h4.symm.trans hclient
  | gaveUp h1 h2 =>
    rw [if_neg hold_ne_idle.symm]
    exact .other (hcounted h1) (.inr ⟨hlt' h1, h2⟩) idle_ne_recv idle_ne_waitFree
  | held h1 h2 h3 =>
    rw [if_pos rfl]
    refine ⟨hcounted h1, .inr ⟨hlt' h1, h2⟩, fun _ r rest hclient => ?_, fun h' => absurd h' hne⟩
    cases h3.symm.trans hclient

theorem waitFree_ne_allEnd : httpDownloadWaitFree p ≠ .allEnd := by
  unfold httpDownloadWaitFree
  split <;> simp

theorem waitRange_ne_allEnd : httpDownloadWaitRange p ≠ .allEnd := by
  unfold httpDownloadWaitRange
  split <;> simp

/-- The push action, called in RECV or WAIT_FREE, on a block that is held. -/
theorem Counting.push {s : DownloadSys cap} (h : Ending R p) (hw : Holding R p) (hs : Stored R start p)
    (hR : R.length < 2147483648) (hlt : p.preDownloadPos < R.length) :
    Counting R (s.after (httpDownloadProcPushAction p)).curState (s.after (httpDownloadProcPushAction p)).proc := by
  have ho := pushAction_cases hw.len hw.pos
  rw [after_curState, if_neg ho.ne_hold]
  exact h.push hw hs hR hlt ho

/-- The receive poll in RECV. -/
theorem Counting.recvPoll {s : DownloadSys cap} {res} (h : Placed R start s) (hc : Counting R s.curState s.proc)
    (hR : R.length < 2147483648) (hcur : s.curState = httpDownloadStaRecv) (hlt : s.proc.preDownloadPos < R.length)
    (ho : RecvOutcome answers s.proc res)
    (hseen : ∀ req r, s.proc.Asks req → s.proc.Keeps r.isRange → answers req r → s.proc.Fits R r ∧ EndSeen R s.proc r) :
    Counting R (s.after res).curState (s.after res).proc := by
  have hr := h.inState.1 hcur
  have h1 := h.stored.start_le
  rw [hcur] at hc
  cases ho with
  | lost hconn => exact .conn hc.counted hlt (by rw [hcur]; exact recv_ne_waitFree) hconn
  | @skip r rest isRange rangeLen q hdue hkeep htook hskip herr =>
    have ha := hdue.awaited hr hkeep hc fun req => hseen req r
    rw [after_curState, if_pos rfl, hcur]
    refine ⟨fun h2 _ => htook.counted ha h2, .inr ⟨?_, fun h' => ?_⟩, fun _ r rest hclient => htook.coming ha hskip hclient,
      fun h' => absurd h' recv_ne_waitFree⟩
    · exact htook.preDownloadPos ▸ hlt
    · cases herr.symm.trans h'
  | @block r rest isRange rangeLen q hdue hkeep htook hpos =>
    have ha := hdue.awaited hr hkeep hc fun req => hseen req r
    have hb := hdue.placed hr hkeep (by omega) fun req h2 h3 h4 => (hseen req r h2 h3 h4).1
    have hw := htook.holding (by omega) hb hpos
    exact .push (htook.ending hw hb ha hlt) hw (h.stored.took htook) hR (htook.preDownloadPos ▸ hlt)

theorem Counting.step {s s' : DownloadSys cap} {a : DownloadAct} (hR : R.length < 2147483648)
    (h : Placed R start s) (hc : Counting R s.curState s.proc)
    (hseen : ∀ req r, s.proc.Asks req → s.proc.Keeps r.isRange → answers req r → s.proc.Fits R r ∧ EndSeen R s.proc r)
    (hs : DownloadStep answers s a s') : Counting R s'.curState s'.proc := by
  -- outside IDLE something is missing
  have hmissing : s.curState ≠ httpDownloadStaIdle →
      s.proc.preDownloadPos < R.length ∧ s.proc.lastError ≠ .allEnd := fun hne => hc.reached.resolve_left fun h' => hne h'.1
  cases hs with
  | @pop n =>
    refine ⟨hc.counted, hc.reached, fun hcur r rest hclient => ?_, fun hcur => ?_⟩
    · have hcom := hc.recv hcur r rest hclient
      exact ⟨hcom.sticky, hcom.known, hcom.all, hcom.ranged, hcom.plain⟩
    · have hend := hc.waitFree hcur
      exact ⟨hend.chunked, hend.total, fun r rest hclient =>
        have hcom := hend.coming r rest hclient
        ⟨hcom.sticky, hcom.known, hcom.all, hcom.ranged, hcom.plain⟩⟩
  | @turn pause resume env hm hh =>
    have hturn : Turn s env pause resume (s.turn env (downloadEvents false false pause resume)) := turn_cases h.mem
    generalize s.turn env (downloadEvents false false pause resume) = s' at hturn
    cases hturn with
    | idle => exact hc
    | stay => exact hc
    | resume hcur =>
      obtain ⟨hlt, -⟩ := hmissing (by rw [hcur]; decide)
      exact .conn hc.counted hlt (by rw [hcur]; decide) (connAction_cases _ _)
    | pause hidle =>
      obtain ⟨hlt, hne⟩ := hmissing hidle
      have hsame := SameData.closeClient s.proc
      rw [after_curState]
      change Counting R httpDownloadStaPause _
      refine .other (fun h1 h2 => ?_) (.inr ⟨hsame.preDownloadPos ▸ hlt, fun h' => hne ?_⟩) (by decide) (by decide)
      · exact hsame.totalLength.trans (hc.counted (hsame.isChunked ▸ h1) (hsame.lengthReceived ▸ h2))
      · exact (closeClient_lastError _).symm.trans h'
    | recv hcur =>
      obtain ⟨hlt, -⟩ := hmissing (by rw [hcur]; decide)
      exact hc.recvPoll h hR hcur hlt
        (recvPoll_cases hh h.stored.location (h.inState.1 hcur).wholeBlocks) hseen
    | waitFree hcur =>
      obtain ⟨hlt, hne⟩ := hmissing (by rw [hcur]; decide)
      have hend := (hc.waitFree hcur).setError (httpDownloadWaitFree s.proc)
      have hw := (h.inState.2 hcur).of_same (.setError s.proc (httpDownloadWaitFree s.proc))
      unfold httpDownloadProcWaitFreePoll
      dsimp only
      split
      · exact .push hend hw (h.stored.setError _) hR hlt
      · rw [after_curState, if_pos rfl, hcur]
        exact ⟨hc.counted, .inr ⟨hlt, waitFree_ne_allEnd⟩, fun h' => absurd h'.symm recv_ne_waitFree, fun _ => hend⟩
    | waitRange hcur =>
      obtain ⟨hlt, hne⟩ := hmissing (by rw [hcur]; decide)
      unfold httpDownloadProcWaitRangePoll
      dsimp only
      split
      · refine Counting.conn (p := { s.proc with lastError := httpDownloadWaitRange s.proc }) hc.counted hlt ?_
          (connAction_cases _ _)
        rw [hcur]
        exact waitRange_ne_waitFree
      · rw [after_curState, if_pos rfl, hcur]
        exact .other hc.counted (.inr ⟨hlt, waitRange_ne_allEnd⟩) waitRange_ne_recv waitRange_ne_waitFree

/-- The first turn of a download finds the whole resource missing. -/
theorem Counting.started {queue : Fifo Byte cap} {url : List Byte} {rangeEnable pause resume : Bool}
    (hstart : start < R.length) (hm : ∀ k, env.malloc k)
    (hstale : 0 < start → p.lengthReceived = true → p.totalLength = R.length) :
    Counting R (DownloadSys.started queue url rangeEnable start p pause resume env).curState
      (DownloadSys.started queue url rangeEnable start p pause resume env).proc := by
  rw [started_eq]
  have hstarted : ∃ q, httpDownloadProcStartAction env (httpDownloadStartInner queue url rangeEnable start p) =
      httpDownloadProcConnAction env q ∧ q.preDownloadPos = start ∧
        (q.isChunked = false → q.lengthReceived = true → q.totalLength = R.length) := by
    unfold httpDownloadProcStartAction httpDownloadProcStart
    simp only [hm, Bool.not_true, Bool.false_eq_true, if_false, if_true]
    refine ⟨_, rfl, rfl, fun _ hl => ?_⟩
    change (if (start : Int) ≤ 0 then false else p.lengthReceived) = true at hl
    change (if (start : Int) ≤ 0 then -1 else p.totalLength) = R.length
    by_cases h0 : (start : Int) ≤ 0
    · rw [if_pos h0] at hl
      cases hl
    · rw [if_neg h0] at hl ⊢
      exact hstale (by omega) hl
  obtain ⟨q, hq, hpos, hcounted⟩ := hstarted
  rw [hq]
  exact .conn hcounted (by omega) idle_ne_waitFree (connAction_cases env q)

/-- With both invariants the end is reported exactly where it is. -/
theorem Counting.endsRight {s : DownloadSys cap} (h : Placed R start s) (hc : Counting R s.curState s.proc) :
    EndsRight R start s := by
  have h1 := h.stored.start_le
  have h2 := h.stored.le_len
  have hpushed := h.stored.pushed
  refine ⟨fun herr => ?_, fun hall _ => ?_⟩
  · rcases hc.reached with ⟨-, -, hpos⟩ | ⟨-, hne⟩
    · rw [hpushed, hpos, Int.toNat_natCast, List.take_of_length_le (by simp)]
    · exact absurd herr hne
  · have hlen := congrArg List.length (hpushed.symm.trans hall)
    rw [List.length_take, List.length_drop] at hlen
    rcases hc.reached with ⟨hidle, herr, -⟩ | ⟨hlt, -⟩
    · exact ⟨hidle, herr⟩
    · omega

end

/-- **`ALL_END` exactly at the end**, in every run whose kept replies are ones whose end the tests see. -/
theorem httpDownload_endsRight {R : List Byte} {start : Nat} (hR : R.length < 2147483648)
    (hstart : start < R.length) (queue : Fifo Byte cap) (url : List Byte) (rangeEnable : Bool)
    (p : HttpDownloadProc cap) (hstale : 0 < start → p.lengthReceived = true → p.totalLength = R.length)
    (pause resume : Bool) {env : HttpEnv} (hm : ∀ k, env.malloc k) {t : DownloadSys cap}
    (h : Reach (SeenStep R) (DownloadSys.started queue url rangeEnable start p pause resume env) t) :
    EndsRight R start t := by
  have hinv : Placed R start t ∧ Counting R t.curState t.proc := by
    refine h.invariant (I := fun s => Placed R start s ∧ Counting R s.curState s.proc) ?_
      ⟨.started hstart.le hm, .started hstart hm hstale⟩
    rintro s a s' ⟨hp, hc⟩ hstep
    have h0 := hp.stored.start_le
    have hseen : ∀ req r, s.proc.Asks req → s.proc.Keeps r.isRange →
        ServesResource R req r ∧ (s.proc.Keeps r.isRange → EndSeen R s.proc r) →
        s.proc.Fits R r ∧ EndSeen R s.proc r :=
      fun req r hasks hkeep hserves =>
        ⟨hserves.1.fits hasks (by omega) (hserves.2 hkeep), hserves.2 hkeep⟩
    exact ⟨hp.step hR (fun req r h1 h2 h3 => (hseen req r h1 h2 h3).1) hstep, hc.step hR hp hseen hstep⟩
  exact hinv.2.endsRight hinv.1

/-- The ranged download of four bytes that a first reply brings in full. -/
theorem httpDownload_endsRight_full :
    let s := DownloadSys.started (.empty : Fifo Byte 4) (bytes "http://a/") true 0 httpDownloadInit false false .accepting
    EndsRight (bytes "abcd") 0 (s.turn (.handing 4 (bytes "abcd")) (downloadEvents false false false false)) := by
  have hserves : ServesResource (bytes "abcd") ⟨some (0, some 3), none⟩ ⟨206, true, 4, false, bytes "abcd"⟩ :=
    .partialContent (by decide) (by decide) (by decide) (by decide)
  have hhands := @Hands.first 4 (fun req r => ServesResource (bytes "abcd") req r ∧ ((DownloadSys.started
      (.empty : Fifo Byte 4) (bytes "http://a/") true 0 httpDownloadInit false false .accepting).proc.Keeps r.isRange →
      EndSeen (bytes "abcd") (DownloadSys.started (.empty : Fifo Byte 4) (bytes "http://a/")
      true 0 httpDownloadInit false false .accepting).proc r))
    (DownloadSys.started (.empty : Fifo Byte 4) (bytes "http://a/") true 0 httpDownloadInit false false .accepting).proc
    (.handing 4 (bytes "abcd")) _ _ (by decide)
    ⟨hserves, fun _ => ⟨by decide, by decide, by decide, by decide⟩⟩
    ⟨by decide, by decide, by decide, by decide, by decide, _, rfl, by decide⟩
  have hstale : 0 < 0 → (httpDownloadInit : HttpDownloadProc 4).lengthReceived = true →
      (httpDownloadInit : HttpDownloadProc 4).totalLength = (bytes "abcd").length := fun h => absurd h (by decide)
  exact httpDownload_endsRight (by decide) (by decide) _ _ _ _ hstale _ _ (fun _ => rfl)
    (.tail (.refl _) (.turn (fun _ => rfl) hhands))

/-- A call that hands over one short block, all of a chunked 200 with an `Accept-Ranges` field. -/
def HttpEnv.handingChunked (block : List Byte) : HttpEnv :=
  { HttpEnv.accepting with
    recvRet := .ok
    recvData := { isChunked := true, responseBufLen := 2049, responseContentLen := block.length,
                  responseBuf := block, ext := some { isRange := true } }
    recvConn := .open }

/-- After such a reply everything is pushed and the state machine goes on receiving. -/
theorem httpDownload_chunked_unended : ¬ ∀ (R : List Byte) (start : Nat) (t : DownloadSys 8),
    R.length < 2147483648 → start < R.length →
    Reach (DownloadStep (ServesResource R))
      (DownloadSys.started .empty (bytes "http://a/") true start httpDownloadInit false false .accepting) t →
    EndsRight R start t := by
  intro h
  have hhands : Hands (ServesResource (bytes "abcd"))
      (DownloadSys.started (.empty : Fifo Byte 8) (bytes "http://a/") true (0 : Nat) httpDownloadInit false false
        .accepting).proc (.handingChunked (bytes "abcd")) :=
    @Hands.first _ _ _ _ ⟨some (0, some 7), none⟩ ⟨200, true, 0, true, bytes "abcd"⟩ (by decide) .ok
      ⟨by decide, by decide, by decide, by decide, by decide, _, rfl, by decide⟩
  have hends := h (bytes "abcd") 0 _ (by decide) (by decide)
    (.tail (.refl _) (@DownloadStep.turn _ _ _ false false _ (fun _ => rfl) hhands))
  have hidle := (hends.2 (by decide) fun r rest hc => by cases hc).1
  exact absurd hidle (by decide)

end AudioPlayer

import Mathlib
import AudioPlayer.HttpDownload.AllEnd
import AudioPlayer.AudioFile.Content

/-!
# The download behind a file (`utils/http_download_process.c:590-651`)

A file sees `WebDownload`: seven values, which change in its own calls and, between them, by `WebEvent`s. Here the
state machine takes the place of the events. `DownloadLife` is the task with what its owner does to it, from
`http_download_init` on: any number of starts and stops, and pops at any time. What is seen of a step is the owner's
call followed by events of a download that serves the resource.

| here | there |
|---|---|
| `DownloadLife`           | `http_proc`, and the buffer its owner lends it from start to stop |
| `DownloadLife.stop`      | `http_download_stop` (`:636-651`), the turn that takes STOP included |
| `DownloadLife.startSeek` | `http_download_start_inner` (`:590-624`), the turn that takes START included |
| `ServesPlain`            | a server with `Content-Length` framing, whose replies end where the tests see it |
| `Shown`                  | what a turn does to the values that are seen |
-/

namespace AudioPlayer
open Lib

variable {cap : Nat}

/-- The task, the buffer while `http_buffer` is `NULL`, and how many bytes its owner ever took. -/
structure DownloadLife (cap : Nat) where
  sys       : DownloadSys cap
  kept      : Fifo Byte cap
  readCount : Nat

/-- A turn of the task: what else is pending, and what its calls answer. -/
structure FsmTurn where
  pause  : Bool
  resume : Bool
  env    : HttpEnv

inductive LifeAct
  | turn (turn : FsmTurn)
  | pop (n : Nat)
  | stop (turn : FsmTurn)
  | startSeek (stopping starting : FsmTurn) (hasUrl : Bool) (url : List Byte) (rangeEnable : Bool) (seekPos : Nat)

namespace DownloadLife

/-- Everything after `http_download_init`. -/
def init : DownloadLife cap := ⟨⟨httpDownloadStaIdle, httpDownloadInit⟩, .empty, 0⟩

/-- The owner's buffer. -/
def queue (s : DownloadLife cap) : Fifo Byte cap :=
  match s.sys.proc.httpBuffer with
  | some b => b.queue
  | none => s.kept

/-- `common_buffer_pop` -/
def pop (n : Nat) (s : DownloadLife cap) : DownloadLife cap where
  sys := { s.sys with proc := s.sys.proc.pop n }
  kept := (s.queue.pop n).2
  readCount := s.readCount + (s.queue.pop n).1.length

def stop (turn : FsmTurn) (s : DownloadLife cap) : DownloadLife cap :=
  let sys := s.sys.turn turn.env (downloadEvents false true turn.pause turn.resume)
  { s with sys := { sys with proc := { sys.proc with url := none, httpBuffer := none } }, kept := s.queue }

/-- `hasUrl` says that there is memory for the URL. -/
def startSeek (stopping starting : FsmTurn) (hasUrl : Bool) (url : List Byte) (rangeEnable : Bool) (seekPos : Int)
    (s : DownloadLife cap) : DownloadLife cap :=
  let s := s.stop stopping
  if hasUrl then
    { s with
      sys := DownloadSys.turn ⟨s.sys.curState, httpDownloadStartInner s.queue url rangeEnable seekPos s.sys.proc⟩
        starting.env (downloadEvents true false starting.pause starting.resume) }
  else s

/-- What is seen of it. -/
def view (s : DownloadLife cap) : WebDownload where
  state := s.sys.curState
  lastError := s.sys.proc.lastError
  totalLength := s.sys.proc.totalLength
  preDownloadPos := s.sys.proc.preDownloadPos
  attached := s.sys.proc.httpBuffer.isSome
  buffer := s.queue.items
  readCount := s.readCount

end DownloadLife

/-- How far a start comes. -/
def webStart (hasUrl : Bool) (env : HttpEnv) : WebStart :=
  if !hasUrl then .noUrl else if env.malloc 0 && env.malloc 1 then .runs else .noMemory

/-- A plain reply, whose end is seen unless it is thrown away. -/
structure ServesPlain (R : List Byte) (p : HttpDownloadProc cap) (req : HttpRequest) (r : HttpReply) : Prop where
  serves : ServesResource R req r
  plain  : r.chunked = false
  seen   : p.Keeps r.isRange → EndSeen R p r

/-- A step of a download's life; what is started, is started within the resource. -/
inductive LifeStep (R : List Byte) : DownloadLife cap → LifeAct → DownloadLife cap → Prop
  | turn {s turn sys} : DownloadStep (ServesPlain R s.sys.proc) s.sys (.turn turn.pause turn.resume turn.env) sys →
      LifeStep R s (.turn turn) { s with sys }
  | pop {s n} : LifeStep R s (.pop n) (s.pop n)
  | stop {s turn} : LifeStep R s (.stop turn) (s.stop turn)
  | startSeek {s stopping starting hasUrl url rangeEnable seekPos} : seekPos < R.length →
      LifeStep R s (.startSeek stopping starting hasUrl url rangeEnable seekPos)
        (s.startSeek stopping starting hasUrl url rangeEnable seekPos)

/-- The call of the owner, as the file knows it. -/
def LifeAct.web : LifeAct → WebDownload → WebDownload
  | .turn _, d => d
  | .pop n, d => (d.pop n).2
  | .stop _, d => httpDownloadStop d
  | .startSeek _ starting hasUrl _ _ seekPos, d => httpDownloadStartSeek (webStart hasUrl starting.env) seekPos d

/-- What a file that reads `R` may see of a step: the call, and then what a download of `R` does. -/
def ServedStep (R : List Byte) (d : WebDownload) (a : LifeAct) (d' : WebDownload) : Prop :=
  ∃ es, (a.web d).Served R es ∧ d' = (a.web d).applies es

/-- The invariant of a download's life. -/
structure DownloadLife.Inv (R : List Byte) (s : DownloadLife cap) : Prop where
  mem     : s.sys.curState ∈ downloadStates
  plain   : s.sys.proc.isChunked = false
  counted : s.sys.proc.lengthReceived = true → s.sys.proc.totalLength = R.length
  running : s.sys.curState ≠ httpDownloadStaIdle → s.sys.proc.httpBuffer.isSome = true ∧
    ∃ start, Placed R start s.sys ∧ Counting R s.sys.curState s.sys.proc

/-- What a turn does to the values that are seen: `bs` is pushed. -/
structure Shown (R : List Byte) (s t : DownloadSys cap) (bs : List Byte) : Prop where
  buffer : t.proc.httpBuffer.map (fun b => b.queue.items) = s.proc.httpBuffer.map fun b => b.queue.items ++ bs
  pos    : t.proc.preDownloadPos = s.proc.preDownloadPos + bs.length
  here   : Window R s.proc.preDownloadPos.toNat bs
  total  : t.proc.totalLength = R.length ∨ t.proc.totalLength = s.proc.totalLength ∧ bs = []
  error  : t.curState = httpDownloadStaIdle → t.proc.lastError ≠ .success
  plain  : t.proc.isChunked = false

section
variable {R : List Byte} {start : Nat} {p q : HttpDownloadProc cap} {env : HttpEnv} {s t : DownloadSys cap}
  {r : HttpReply} {rest : List Byte} {isRange : Bool} {rangeLen : Int} {pause resume : Bool}

/-! ## Which error a download ends with -/

/-- The connect action succeeds on its way to RECV only. -/
theorem connAction_error (env : HttpEnv) (p : HttpDownloadProc cap)
    (h : (httpDownloadProcConnAction env p).2 ≠ httpDownloadStaRecv) :
    (httpDownloadProcConnAction env p).1.lastError ≠ .success := by
  rw [connAction_word] at h
  rw [connAction_lastError]
  intro hret
  rw [hret] at h
  exact h rfl

theorem pushAction_error (h : (httpDownloadProcPushAction p).2 = httpDownloadStaIdle) :
    (httpDownloadProcPushAction p).1.lastError ≠ .success := by
  unfold httpDownloadProcPushAction at h ⊢
  dsimp only at h ⊢
  split at h
  · cases h
  split at h
  · cases h
  split at h
  · cases h
  rename_i hret hfull hend
  rw [if_neg hret, if_neg hfull, if_neg hend, stop_lastError]
  exact hret

theorem recvPoll_error (h : (httpDownloadProcRecvPoll env p).2 = httpDownloadStaIdle) :
    (httpDownloadProcRecvPoll env p).1.lastError ≠ .success := by
  unfold httpDownloadProcRecvPoll at h ⊢
  dsimp only at h ⊢
  split
  · rename_i hret
    rw [if_pos hret] at h
    exact pushAction_error h
  rename_i hret
  rw [if_neg hret] at h
  split
  · rename_i hskip
    rw [if_pos hskip] at h
    cases h
  rename_i hskip
  rw [if_neg hskip] at h
  split
  · rename_i hagain
    rw [if_pos hagain] at h
    exact connAction_error _ _ (by rw [h]; decide)
  · rw [stop_lastError]
    exact hret

/-- Only STOP ends a download without an error or the end. -/
theorem exec_error {a : HttpDownloadAction} (ha : a ≠ .stop)
    (h : (httpDownloadExec env a p).2 = httpDownloadStaIdle) :
    (httpDownloadExec env a p).1.lastError ≠ .success := by
  cases a with
  | start =>
    unfold httpDownloadExec httpDownloadProcStartAction at h ⊢
    dsimp only at h ⊢
    split
    · rename_i hret
      rw [if_pos hret] at h
      exact connAction_error _ _ (by rw [h]; decide)
    · rename_i hret
      rw [if_neg hret] at h
      cases h
  | stop => exact absurd rfl ha
  | pause => cases h
  | conn =>
    unfold httpDownloadExec at h ⊢
    exact connAction_error _ _ (by rw [h]; decide)
  | recvPoll => exact recvPoll_error h
  | waitFreePoll =>
    unfold httpDownloadExec httpDownloadProcWaitFreePoll at h ⊢
    dsimp only at h ⊢
    split
    · rename_i hret
      rw [if_pos hret] at h
      exact pushAction_error h
    · rename_i hret
      rw [if_neg hret] at h
      cases h
  | waitRangePoll =>
    unfold httpDownloadExec httpDownloadProcWaitRangePoll at h ⊢
    dsimp only at h ⊢
    split
    · rename_i hret
      rw [if_pos hret] at h
      exact connAction_error _ _ (by rw [h]; decide)
    · rename_i hret
      rw [if_neg hret] at h
      cases h

theorem after_error (env : HttpEnv) (p : HttpDownloadProc cap) {a : HttpDownloadAction}
    (hne : s.curState ≠ httpDownloadStaIdle) (ha : a ≠ .stop)
    (h : (s.after (httpDownloadExec env a p)).curState = httpDownloadStaIdle) :
    (s.after (httpDownloadExec env a p)).proc.lastError ≠ .success := by
  rw [after_curState] at h
  split at h
  · exact absurd h hne
  · exact exec_error ha h

/-! ## What a turn shows -/

/-- What connecting and closing show is nothing. -/
theorem Shown.same (hsame : SameData s.proc t.proc) (hplain : s.proc.isChunked = false)
    (herror : t.curState = httpDownloadStaIdle → t.proc.lastError ≠ .success) : Shown R s t [] where
  buffer := by
    rw [hsame.httpBuffer]
    simp only [List.append_nil]
  pos := by rw [hsame.preDownloadPos, List.length_nil, Nat.cast_zero, add_zero]
  here := .nil R _
  total := .inr ⟨hsame.totalLength, rfl⟩
  error := herror
  plain := hsame.isChunked.trans hplain

theorem push_items {b : HttpBuffer cap} {bs : List Byte} (h : bs.length ≤ b.queue.free) :
    (b.push bs).queue.items = b.queue.items ++ bs := by
  unfold HttpBuffer.push
  cases hpush : b.queue.push? bs with
  | none => exact absurd (Fifo.push?_eq_none.1 hpush) (by omega)
  | some queue => exact (Fifo.push?_eq_some.1 hpush).2

/-- The push action leaves the buffer alone, or puts the block behind what is there. -/
theorem pushAction_buffer (hlen : (p.unread.length : Int) = p.recvLen - p.readPos) (hpos : p.readPos < p.recvLen) :
    SameData p (httpDownloadProcPushAction p).1 ∨ Pushed p (httpDownloadProcPushAction p).1 ∧
      (httpDownloadProcPushAction p).1.httpBuffer.map (fun b => b.queue.items) =
        p.httpBuffer.map fun b => b.queue.items ++ p.unread := by
  by_cases hroom : p.recvLen - p.readPos ≤ p.freeCount
  · right
    obtain ⟨ret, hdata, -⟩ := pushData_of_room hroom
    have hadvanced := advanced_pushed hlen hpos hroom
    have hitems : p.advanced.httpBuffer.map (fun b => b.queue.items) =
        p.httpBuffer.map fun b => b.queue.items ++ p.unread := by
      unfold HttpDownloadProc.advanced
      unfold HttpDownloadProc.freeCount at hroom
      cases hb : p.httpBuffer with
      | none => rfl
      | some b =>
        rw [hb] at hroom
        have hfree : p.recvLen - p.readPos ≤ (b.queue.free : Int) := hroom
        simp only [Option.map_some, Option.some.injEq]
        exact push_items (by omega)
    have hsame : ∀ q, SameData p.advanced q →
        Pushed p q ∧
          q.httpBuffer.map (fun b => b.queue.items) = p.httpBuffer.map fun b => b.queue.items ++ p.unread :=
      fun q h => ⟨hadvanced.of_sameData h, by rw [h.httpBuffer]; exact hitems⟩
    have hset := (SameData.refl p.advanced).lastError ret
    rw [pushAction_of hdata]
    split
    · exact hsame _ hset
    split
    · exact hsame _ hset
    split
    · split
      · exact hsame _ (hset.trans (.closeClient _))
      · exact hsame _ hset
    · exact hsame _ (hset.trans (.stop _))
  · left
    have hdata : httpDownloadProcPushData p = (.errBufTooSmall, p) := by
      unfold httpDownloadProcPushData
      dsimp only
      rw [if_pos (by omega)]
    rw [pushAction_of hdata, if_neg (by simp), if_pos rfl]
    exact (SameData.refl p).lastError _

/-- What the push action shows of a held block; `p` differs from what is seen of `s` in the length, which is known. -/
theorem shown_push (hold : Holding R p) (hs : Stored R start p) (hR : R.length < 2147483648)
    (hbuffer : p.httpBuffer = s.proc.httpBuffer) (hpos : p.preDownloadPos = s.proc.preDownloadPos)
    (htotal : p.totalLength = R.length) (hplain : p.isChunked = false) (hne : s.curState ≠ httpDownloadStaIdle) :
    ∃ bs, Shown R s (s.after (httpDownloadProcPushAction p)) bs := by
  have herror : (s.after (httpDownloadProcPushAction p)).curState = httpDownloadStaIdle →
      (s.after (httpDownloadProcPushAction p)).proc.lastError ≠ .success := by
    intro h
    rw [after_curState] at h
    split at h
    · exact absurd h hne
    · exact pushAction_error h
  rcases pushAction_buffer hold.len hold.pos with hsame | ⟨hpushed, hitems⟩
  · refine ⟨[], ?_, ?_, .nil R _, .inl (hsame.totalLength.trans htotal), herror, hsame.isChunked.trans hplain⟩
    · show (httpDownloadProcPushAction p).1.httpBuffer.map _ = _
      rw [hsame.httpBuffer, hbuffer]
      simp only [List.append_nil]
    · show (httpDownloadProcPushAction p).1.preDownloadPos = _
      rw [hsame.preDownloadPos, hpos, List.length_nil, Nat.cast_zero, add_zero]
  · obtain ⟨-, hmoved⟩ := hs.push hR hold.here hpushed
    refine ⟨p.unread, ?_, ?_, ?_, .inl (hpushed.totalLength.trans htotal), herror, hpushed.isChunked.trans hplain⟩
    · rw [← hbuffer]
      exact hitems
    · rw [← hpos]
      exact hmoved
    · rw [← hpos]
      exact hold.here

/-- The replies under way are plain. -/
theorem Due.plain {p' : HttpDownloadProc cap} (h : Due (ServesPlain R p') p r rest isRange rangeLen)
    (hc : Counting R httpDownloadStaRecv p) (hplain : p.isChunked = false) : r.chunked = false := by
  cases h with
  | first _ ha => exact ha.plain
  | next hclient =>
    by_contra hchunked
    have hsticky := (hc.recv rfl _ _ hclient).sticky (by simpa using hchunked)
    rw [hplain] at hsticky
    cases hsticky

theorem serves_seen (hpos : 0 ≤ p.preDownloadPos) (req : HttpRequest) (r : HttpReply) (hasks : p.Asks req)
    (hkeep : p.Keeps r.isRange) (h : ServesPlain R p req r) : p.Fits R r ∧ EndSeen R p r :=
  ⟨h.serves.fits hasks hpos (h.seen hkeep), h.seen hkeep⟩

/-- What the receive poll shows. -/
theorem shown_recv (hR : R.length < 2147483648) (hp : Placed R start s) (hc : Counting R s.curState s.proc)
    (hplain : s.proc.isChunked = false) (hcur : s.curState = httpDownloadStaRecv)
    (hh : Hands (ServesPlain R s.proc) s.proc env) :
    ∃ bs, Shown R s (s.after (httpDownloadProcRecvPoll env s.proc)) bs := by
  have hne : s.curState ≠ httpDownloadStaIdle := by
    rw [hcur]
    decide
  have hr := hp.inState.1 hcur
  have h1 := hp.stored.start_le
  have h2 := hp.stored.le_len
  have hseen := serves_seen (R := R) (p := s.proc) (by omega)
  have herror := after_error env s.proc (a := .recvPoll) hne (by decide)
  have hcases := recvPoll_cases hh hp.stored.location hr.wholeBlocks
  have hc' : Counting R httpDownloadStaRecv s.proc := hcur ▸ hc
  unfold httpDownloadExec at herror
  dsimp only at herror
  generalize httpDownloadProcRecvPoll env s.proc = res at herror hcases ⊢
  cases hcases with
  | lost hconn =>
    have hsame : SameData s.proc (s.after res).proc := by
      cases hconn with
      | sent h => exact h
      | gaveUp h => exact h
      | held h => exact h
    exact ⟨[], .same hsame hplain herror⟩
  | @skip r rest isRange rangeLen q hdue hkeep htook hskip =>
    have hq : q.isChunked = false := by rw [htook.isChunked, hplain, hdue.plain hc' hplain, Bool.or_false]
    have ha := hdue.awaited hr hkeep hc' fun req => hseen req _
    refine ⟨[], ?_, ?_, .nil R _, .inl (htook.counted ha hq), herror, hq⟩
    · show q.httpBuffer.map _ = _
      rw [htook.httpBuffer]
      simp only [List.append_nil]
    · show q.preDownloadPos = _
      rw [htook.preDownloadPos, List.length_nil, Nat.cast_zero, add_zero]
  | @block r rest isRange rangeLen q hdue hkeep htook hpos =>
    have hq : q.isChunked = false := by rw [htook.isChunked, hplain, hdue.plain hc' hplain, Bool.or_false]
    have ha := hdue.awaited hr hkeep hc' fun req => hseen req _
    have hb := hdue.placed hr hkeep (by omega) fun req h3 h4 h5 => (hseen req _ h3 h4 h5).1
    exact shown_push (htook.holding (by omega) hb hpos) (hp.stored.took htook) hR htook.httpBuffer
      htook.preDownloadPos (htook.counted ha hq) hq hne

/-- **What a turn shows**: nothing, the length of the resource, or what comes next in it. -/
theorem turn_shown (hR : R.length < 2147483648) (hp : Placed R start s) (hc : Counting R s.curState s.proc)
    (hplain : s.proc.isChunked = false) (hne : s.curState ≠ httpDownloadStaIdle)
    (hstep : DownloadStep (ServesPlain R s.proc) s (.turn pause resume env) t) : ∃ bs, Shown R s t bs := by
  have hconn : ∀ {q : HttpDownloadProc cap} {res}, SameData s.proc q → ConnOutcome q res →
      SameData s.proc (s.after res).proc := by
    intro q res hsame hres
    cases hres with
    | sent h => exact hsame.trans h
    | gaveUp h => exact hsame.trans h
    | held h => exact hsame.trans h
  cases hstep with
  | turn hm hh =>
    have hturn : Turn s env pause resume (s.turn env (downloadEvents false false pause resume)) := turn_cases hp.mem
    generalize s.turn env (downloadEvents false false pause resume) = t at hturn
    cases hturn with
    | idle hcur => exact absurd hcur hne
    | stay => exact ⟨[], .same (.refl _) hplain fun h => absurd h hne⟩
    | resume =>
      exact ⟨[], .same (hconn (.refl _) (connAction_cases _ _)) hplain (after_error _ _ (a := .conn) hne (by decide))⟩
    | pause =>
      exact ⟨[], .same (.closeClient _) hplain (after_error env _ (a := .pause) hne (by decide))⟩
    | recv hcur => exact shown_recv hR hp hc hplain hcur hh
    | waitFree hcur =>
      have hold := (hp.inState.2 hcur).of_same (.setError s.proc (httpDownloadWaitFree s.proc))
      unfold httpDownloadProcWaitFreePoll
      dsimp only
      split
      · exact shown_push hold (hp.stored.setError _) hR rfl rfl ((hc.waitFree hcur).total hplain) hplain hne
      · refine ⟨[], .same ((SameData.refl _).lastError _) hplain fun h => absurd h ?_⟩
        rw [after_curState, if_pos rfl]
        exact hne
    | waitRange hcur =>
      have hpoll := after_error env s.proc (a := .waitRangePoll) hne (by decide)
      unfold httpDownloadExec httpDownloadProcWaitRangePoll at hpoll
      unfold httpDownloadProcWaitRangePoll
      dsimp only at hpoll ⊢
      split
      · rename_i hret
        rw [if_pos hret] at hpoll
        exact ⟨[], .same (hconn ((SameData.refl _).lastError _) (connAction_cases _ _)) hplain hpoll⟩
      · rename_i hret
        rw [if_neg hret] at hpoll
        exact ⟨[], .same ((SameData.refl _).lastError _) hplain hpoll⟩

end

/-! ## The life of a download -/

section
variable {R : List Byte} {s t : DownloadLife cap} {sys : DownloadSys cap} {bs : List Byte} {d : WebDownload}
  {p : HttpDownloadProc cap} {env : HttpEnv} {input stopping starting : FsmTurn} {url : List Byte}
  {hasUrl rangeEnable : Bool} {seekPos : Nat} {a : LifeAct}

/-- A turn that learns the length, pushes and enters a state, and one that only enters a state. -/
theorem applies_turn (hne : d.state ≠ httpDownloadStaIdle) (n : Int) (bs : List Byte) (state : Word)
    (ret : HttpDownloadProcReturn) : d.applies [.length n, .push bs, .enters state ret] =
      { d with
        state := state
        lastError := ret
        totalLength := n
        preDownloadPos := d.preDownloadPos + bs.length
        buffer := d.buffer ++ bs } := by
  simp [WebDownload.applies, WebDownload.apply, hne]

theorem applies_enters (hne : d.state ≠ httpDownloadStaIdle) (state : Word) (ret : HttpDownloadProcReturn) :
    d.applies [.enters state ret] = { d with state := state, lastError := ret } := if_neg hne

theorem served_turn {state : Word} {ret : HttpDownloadProcReturn} (hne : d.state ≠ httpDownloadStaIdle)
    (hbs : Window R d.preDownloadPos.toNat bs)
    (hend : state = httpDownloadStaIdle → ret = .success ∨ ret = .allEnd → d.preDownloadPos + bs.length = R.length) :
    d.Served R [.length R.length, .push bs, .enters state ret] := by
  have hlength : d.apply (.length R.length) = { d with totalLength := R.length } := if_neg hne
  have hpush : ({ d with totalLength := R.length } : WebDownload).apply (.push bs) =
      { d with
        totalLength := R.length
        buffer := d.buffer ++ bs
        preDownloadPos := d.preDownloadPos + bs.length } := if_neg hne
  refine ⟨fun _ => rfl, ?_⟩
  rw [hlength]
  refine ⟨fun _ => ⟨rfl, hbs⟩, ?_⟩
  rw [hpush]
  exact ⟨fun _ hidle herr => ⟨rfl, hend hidle herr⟩, trivial⟩

/-- What is seen after a turn. -/
theorem Shown.view (h : Shown R s.sys sys bs) (hlent : s.sys.proc.httpBuffer.isSome = true) :
    ({ s with sys } : DownloadLife cap).view =
      { s.view with
        state := sys.curState
        lastError := sys.proc.lastError
        totalLength := sys.proc.totalLength
        preDownloadPos := s.view.preDownloadPos + bs.length
        buffer := s.view.buffer ++ bs } := by
  have hbuffer := h.buffer
  have hpos := h.pos
  obtain ⟨b, hb⟩ := Option.isSome_iff_exists.1 hlent
  rw [hb, Option.map_some] at hbuffer
  obtain ⟨b', hb', hitems⟩ := Option.map_eq_some_iff.1 hbuffer
  simp only [DownloadLife.view, DownloadLife.queue, hb, hb', hpos, hitems, Option.isSome_some]

/-- The events of a turn, and that a download of the resource makes them. -/
theorem Shown.served (h : Shown R s.sys sys bs) (hlent : s.sys.proc.httpBuffer.isSome = true)
    (hne : s.sys.curState ≠ httpDownloadStaIdle) (hlt : s.sys.proc.preDownloadPos < R.length)
    (ht : Counting R sys.curState sys.proc) :
    ∃ es, s.view.Served R es ∧ ({ s with sys } : DownloadLife cap).view = s.view.applies es := by
  have hpos := h.pos
  -- a turn that ends the download without an error has pushed what was missing
  have hend : sys.curState = httpDownloadStaIdle → sys.proc.lastError = .success ∨ sys.proc.lastError = .allEnd →
      sys.proc.preDownloadPos = R.length := by
    intro hidle herr
    have hall := herr.resolve_left (h.error hidle)
    exact (ht.reached.resolve_right fun hmissing => hmissing.2 hall).2.2
  rw [h.view hlent]
  rcases h.total with htotal | ⟨htotal, rfl⟩
  · refine ⟨[.length R.length, .push bs, .enters sys.curState sys.proc.lastError],
      served_turn hne h.here fun hidle herr => hpos.symm.trans (hend hidle herr), ?_⟩
    rw [applies_turn hne, htotal]
  · rw [List.length_nil, Nat.cast_zero, add_zero] at hpos
    refine ⟨[.enters sys.curState sys.proc.lastError], ⟨fun _ hidle herr => ?_, trivial⟩, ?_⟩
    · have hall := hend hidle herr
      omega
    · rw [applies_enters hne, htotal, List.append_nil, List.length_nil, Nat.cast_zero, add_zero]
      rfl

/-- **A turn of the task.** -/
theorem DownloadLife.Inv.turn (hR : R.length < 2147483648) (h : s.Inv R)
    (hstep : DownloadStep (ServesPlain R s.sys.proc) s.sys (.turn input.pause input.resume input.env) sys) :
    ({ s with sys } : DownloadLife cap).Inv R ∧
      ServedStep R s.view (.turn input) ({ s with sys } : DownloadLife cap).view := by
  by_cases hidle : s.sys.curState = httpDownloadStaIdle
  · have hsame : sys = s.sys := by
      cases hstep with
      | turn hm hh =>
        have hturn : Turn s.sys input.env input.pause input.resume _ := turn_cases h.mem
        generalize s.sys.turn input.env (downloadEvents false false input.pause input.resume) = sys at hturn
        cases hturn with
        | idle => rfl
        | stay => rfl
        | resume hcur => exact absurd (hidle.symm.trans hcur) (by decide)
        | pause hne => exact absurd hidle hne
        | recv hcur => exact absurd (hidle.symm.trans hcur) (by decide)
        | waitFree hcur => exact absurd (hidle.symm.trans hcur) (by decide)
        | waitRange hcur => exact absurd (hidle.symm.trans hcur) (by decide)
    subst hsame
    exact ⟨h, [], trivial, rfl⟩
  · obtain ⟨hlent, start, hp, hc⟩ := h.running hidle
    have h0 := hp.stored.start_le
    have hlt := (hc.reached.resolve_left fun hend => hidle hend.1).1
    have hseen := serves_seen (R := R) (p := s.sys.proc) (by omega)
    obtain ⟨bs, hshown⟩ := turn_shown hR hp hc h.plain hidle hstep
    have hp' := hp.step hR (fun req r h1 h2 h3 => (hseen req r h1 h2 h3).1) hstep
    have hc' := hc.step hR hp hseen hstep
    have hlent' : sys.proc.httpBuffer.isSome = true := by
      have hbuffer := congrArg Option.isSome hshown.buffer
      rwa [Option.isSome_map, Option.isSome_map, hlent] at hbuffer
    exact ⟨⟨hp'.mem, hshown.plain, hc'.counted hshown.plain, fun _ => ⟨hlent', start, hp', hc'⟩⟩,
      hshown.served hlent hidle hlt hc'⟩

/-- The turn that takes STOP. -/
theorem stop_turn (hmem : sys.curState ∈ downloadStates) {pause resume : Bool} :
    sys.turn env (downloadEvents false true pause resume) =
      if sys.curState = httpDownloadStaIdle then sys
      else ⟨httpDownloadStaIdle, httpDownloadProcStop { sys.proc with lastError := .success }⟩ := by
  rw [turn_eq exit_downloadEvents, select_download hmem, if_neg (by simp)]
  by_cases hidle : sys.curState = httpDownloadStaIdle
  · have hpause : httpDownloadStaIdle ≠ httpDownloadStaPause := by decide
    rw [if_neg (by simp [hidle]), if_neg (by simp [hidle]), if_neg (by simp [hidle, hpause]), if_pos hidle, hidle]
    rfl
  · rw [if_pos ⟨rfl, hidle⟩, if_neg hidle]
    show sys.after (httpDownloadProcStop { sys.proc with lastError := .success }, httpDownloadStaIdle) = _
    unfold DownloadSys.after
    dsimp only
    rw [if_pos ⟨hold_ne_idle.symm, Ne.symm hidle⟩]

/-- **A stop**: what is seen is that of `http_download_stop`, and the buffer goes back to its owner. -/
theorem DownloadLife.Inv.stop (h : s.Inv R) (input : FsmTurn) :
    (s.stop input).Inv R ∧ (s.stop input).view = httpDownloadStop s.view ∧
      (s.stop input).sys.curState = httpDownloadStaIdle := by
  have hturn : s.sys.turn input.env (downloadEvents false true input.pause input.resume) = _ := stop_turn h.mem
  have hstop := (SameData.refl s.sys.proc).lastError .success |>.trans (.stop _)
  unfold DownloadLife.stop
  rw [hturn]
  by_cases hidle : s.sys.curState = httpDownloadStaIdle
  · rw [if_pos hidle]
    refine ⟨⟨h.mem, h.plain, h.counted, fun hne => absurd hidle hne⟩, ?_, hidle⟩
    unfold httpDownloadStop DownloadLife.view
    rw [if_pos hidle]
    rfl
  · rw [if_neg hidle]
    refine ⟨⟨idle_mem, hstop.isChunked.trans h.plain, fun hl => ?_, fun hne => absurd rfl hne⟩, ?_, rfl⟩
    · exact hstop.totalLength.trans (h.counted (hstop.lengthReceived ▸ hl))
    · have htotal : (httpDownloadProcStop { s.sys.proc with lastError := .success }).totalLength = _ :=
        hstop.totalLength
      have hpos : (httpDownloadProcStop { s.sys.proc with lastError := .success }).preDownloadPos = _ :=
        hstop.preDownloadPos
      have herror : (httpDownloadProcStop { s.sys.proc with lastError := .success }).lastError = .success :=
        stop_lastError _
      rw [show httpDownloadStop s.view = { s.view with
        state := httpDownloadStaIdle, lastError := .success, attached := false } from if_neg hidle]
      simp only [DownloadLife.view, DownloadLife.queue, htotal, hpos, herror, Option.isSome_none]

/-- A start without memory. -/
theorem startAction_noMemory (p : HttpDownloadProc cap) (h : ¬(env.malloc 0 = true ∧ env.malloc 1 = true)) :
    ∃ q, httpDownloadProcStartAction env p = (q, comFsmHoldState) ∧ SameData p q ∧ q.lastError = .errMalloc := by
  obtain ⟨hhold, herror, -⟩ := startAction_of_not_malloc (p := p) h
  refine ⟨(httpDownloadProcStartAction env p).1, Prod.ext rfl hhold, ?_, herror⟩
  unfold httpDownloadProcStartAction httpDownloadProcStart
  by_cases h0 : env.malloc 0 = true
  · have h1 : env.malloc 1 = false := by simpa [h0] using h
    simp only [h0, h1, Bool.not_true, Bool.not_false, Bool.false_eq_true, if_false, if_true]
    refine SameData.trans ?_ (.stop _)
    exact ⟨rfl, rfl, rfl, rfl, rfl, rfl, fun _ => rfl⟩
  · simp only [h0, Bool.not_false, if_true]
    refine SameData.trans ?_ (.stop _)
    exact ⟨rfl, rfl, rfl, rfl, rfl, rfl, id⟩

/-- And one with memory: it connects, from a process whose length is forgotten at the beginning of the resource. -/
theorem startAction_runs (p : HttpDownloadProc cap) (h : env.malloc 0 = true ∧ env.malloc 1 = true) :
    ∃ q, httpDownloadProcStartAction env p = httpDownloadProcConnAction env q ∧ q.httpBuffer = p.httpBuffer ∧
      q.preDownloadPos = p.preDownloadPos ∧
      q.totalLength = (if p.preDownloadPos ≤ 0 then -1 else p.totalLength) ∧ q.isChunked = false := by
  unfold httpDownloadProcStartAction httpDownloadProcStart
  simp only [h.1, h.2, Bool.not_true, Bool.false_eq_true, if_false, if_true]
  exact ⟨_, rfl, rfl, rfl, rfl, rfl⟩

/-- Only the two blocks of a start are allocated. -/
theorem started_malloc (h : env.malloc 0 = true ∧ env.malloc 1 = true) (queue : Fifo Byte cap) (start : Int)
    (pause resume : Bool) :
    DownloadSys.started queue url rangeEnable start p pause resume env =
      DownloadSys.started queue url rangeEnable start p pause resume { env with malloc := fun _ => true } := by
  rw [started_eq, started_eq]
  unfold httpDownloadProcStartAction httpDownloadProcStart
  simp only [h.1, h.2, Bool.not_true, Bool.false_eq_true, if_false, if_true]
  rfl

/-- A start that runs, on the buffer of an owner whose download is stopped. -/
theorem DownloadLife.Inv.runs (h : s.Inv R) (hseek : seekPos < R.length)
    (hm : env.malloc 0 = true ∧ env.malloc 1 = true) {pause resume : Bool}
    (hsys : sys = DownloadSys.started s.queue url rangeEnable seekPos s.sys.proc pause resume env) :
    ({ s with sys } : DownloadLife cap).Inv R ∧
      ∃ es, ({ s.view with
        state := httpDownloadStaRecv
        lastError := .success
        totalLength := if (seekPos : Int) ≤ 0 then -1 else s.view.totalLength
        attached := true
        preDownloadPos := seekPos } : WebDownload).Served R es ∧ ({ s with sys } : DownloadLife cap).view =
      ({ s.view with
        state := httpDownloadStaRecv
        lastError := .success
        totalLength := if (seekPos : Int) ≤ 0 then -1 else s.view.totalLength
        attached := true
        preDownloadPos := seekPos } : WebDownload).applies es := by
  have hmalloc : ∀ k, ({ env with malloc := fun _ => true } : HttpEnv).malloc k = true := fun _ => rfl
  have hall := hsys.trans (started_malloc hm s.queue seekPos pause resume)
  have hp : Placed R seekPos sys := hall ▸ .started hseek.le hmalloc
  have hc : Counting R sys.curState sys.proc := hall ▸ .started hseek hmalloc fun _ => h.counted
  obtain ⟨q, hq, hbuffer, hpos, htotal, hplain⟩ := startAction_runs
    (httpDownloadStartInner s.queue url rangeEnable seekPos s.sys.proc) hm
  have hcases := connAction_cases env q
  have herror := connAction_error env q
  rw [started_eq, hq] at hsys
  generalize httpDownloadProcConnAction env q = res at hsys hcases herror
  have hsame : SameData q sys.proc := by
    rw [hsys]
    cases hcases with
    | sent h => exact h
    | gaveUp h => exact h
    | held h => exact h
  have hlent : sys.proc.httpBuffer = some { queue := s.queue } := hsame.httpBuffer.trans hbuffer
  have hseekPos : sys.proc.preDownloadPos = seekPos := hsame.preDownloadPos.trans hpos
  refine ⟨⟨hp.mem, hsame.isChunked.trans hplain, hc.counted (hsame.isChunked.trans hplain), fun _ => ?_⟩, ?_⟩
  · exact ⟨by rw [hlent]; rfl, seekPos, hp, hc⟩
  refine ⟨[.enters sys.curState sys.proc.lastError], ⟨fun _ hidle herr => ?_, trivial⟩, ?_⟩
  · exfalso
    rcases herr with herr | herr
    · rw [hsys] at herr
      refine herror (fun hrecv => ?_) herr
      rw [hsys, after_curState, hrecv, if_neg recv_ne_hold] at hidle
      exact absurd hidle idle_ne_recv.symm
    · have hlast := (hc.reached.resolve_right fun hmissing => hmissing.2 herr).2.2
      omega
  · rw [applies_enters (Ne.symm idle_ne_recv)]
    have htotal' : sys.proc.totalLength = if (seekPos : Int) ≤ 0 then -1 else s.sys.proc.totalLength :=
      hsame.totalLength.trans htotal
    simp only [DownloadLife.view, DownloadLife.queue, hlent, hseekPos, htotal', Option.isSome_some]

/-- **A start**: it begins with a stop, and if it comes so far the task connects. -/
theorem DownloadLife.Inv.startSeek (h : s.Inv R) (hseek : seekPos < R.length) :
    (s.startSeek stopping starting hasUrl url rangeEnable seekPos).Inv R ∧
      ServedStep R s.view (.startSeek stopping starting hasUrl url rangeEnable seekPos)
        (s.startSeek stopping starting hasUrl url rangeEnable seekPos).view := by
  obtain ⟨hinv, hview, hidle⟩ := h.stop stopping
  unfold ServedStep LifeAct.web httpDownloadStartSeek DownloadLife.startSeek webStart
  dsimp only
  rw [← hview, hidle]
  generalize s.stop stopping = s at hinv hidle
  cases hasUrl with
  | false => exact ⟨hinv, [], trivial, rfl⟩
  | true =>
    simp only [Bool.not_true, Bool.false_eq_true, if_true, if_false]
    by_cases hm : starting.env.malloc 0 = true ∧ starting.env.malloc 1 = true
    · rw [if_pos (by simpa using hm)]
      exact hinv.runs hseek hm rfl
    · rw [if_neg (by simpa using hm)]
      have hstarted : DownloadSys.started s.queue url rangeEnable seekPos s.sys.proc starting.pause starting.resume
        starting.env = _ := started_eq ..
      obtain ⟨q, hq, hsame, herror⟩ := startAction_noMemory
        (httpDownloadStartInner s.queue url rangeEnable seekPos s.sys.proc) hm
      rw [hq] at hstarted
      unfold DownloadSys.started at hstarted
      rw [hstarted]
      have hcur : (DownloadSys.after ⟨httpDownloadStaIdle, httpDownloadStartInner s.queue url rangeEnable seekPos
          s.sys.proc⟩ (q, comFsmHoldState)).curState = httpDownloadStaIdle := by rw [after_curState, if_pos rfl]
      have hlent : q.httpBuffer = some { queue := s.queue } := hsame.httpBuffer
      have hpos : q.preDownloadPos = seekPos := hsame.preDownloadPos
      have htotal : q.totalLength = s.sys.proc.totalLength := hsame.totalLength
      refine ⟨⟨?_, hsame.isChunked.trans hinv.plain, fun hl => ?_, fun hne => absurd hcur hne⟩, [], trivial, ?_⟩
      · rw [hcur]
        exact idle_mem
      · exact htotal.trans (hinv.counted (hsame.lengthReceived.symm.trans hl))
      · simp only [DownloadLife.view, DownloadLife.queue, hidle, WebDownload.applies, List.foldl_nil]
        simp only [DownloadSys.after, hlent, hpos, htotal, herror, Option.isSome_some, ne_eq, not_true_eq_false,
          false_and, if_false]
        rfl

/-- A pop moves nothing but the buffer. -/
theorem DownloadLife.Inv.pop (hR : R.length < 2147483648) (h : s.Inv R) (n : Nat) :
    (s.pop n).Inv R ∧ ServedStep R s.view (.pop n) (s.pop n).view := by
  refine ⟨⟨h.mem, h.plain, h.counted, fun hne => ?_⟩, [], trivial, ?_⟩
  · obtain ⟨hlent, start, hp, hc⟩ := h.running hne
    have hstep : DownloadStep (fun _ _ => False) s.sys (.pop n) (s.pop n).sys := .pop
    refine ⟨?_, start, hp.step hR (fun _ _ _ _ => False.elim) hstep, hc.step hR hp (fun _ _ _ _ => False.elim) hstep⟩
    show (s.sys.proc.httpBuffer.map _).isSome = true
    rwa [Option.isSome_map]
  · show _ = (s.view.pop n).2
    unfold DownloadLife.pop DownloadLife.view WebDownload.pop DownloadLife.queue HttpDownloadProc.pop
    cases s.sys.proc.httpBuffer <;> rfl

theorem DownloadLife.Inv.step (hR : R.length < 2147483648) (h : s.Inv R) (hstep : LifeStep R s a t) :
    t.Inv R ∧ ServedStep R s.view a t.view := by
  cases hstep with
  | turn hturn => exact h.turn hR hturn
  | pop => exact h.pop hR _
  | stop =>
    obtain ⟨hinv, hview, -⟩ := h.stop _
    exact ⟨hinv, [], trivial, hview⟩
  | startSeek hseek => exact h.startSeek hseek

end

/-- **The download task is a download as the file needs it**, over its whole life: what is seen of every run, with the
owner's calls in it, are these calls and in between the events of a download that serves the resource. -/
theorem httpDownload_serves {R : List Byte} (hR : R.length < 2147483648) {as : List LifeAct} {t : DownloadLife cap}
    (h : Steps (LifeStep R) .init as t) : Steps (ServedStep R) .init as t.view := by
  have hinit : (DownloadLife.init : DownloadLife cap).Inv R :=
    ⟨idle_mem, rfl, fun hl => absurd hl Bool.false_ne_true, fun hne => absurd rfl hne⟩
  suffices hall : t.Inv R ∧ Steps (ServedStep R) .init as t.view from hall.2
  refine h.trace (P := fun as t => t.Inv R ∧ Steps (ServedStep R) .init as t.view) ⟨hinit, .nil⟩ ?_
  rintro as t a u - ⟨hinv, hsteps⟩ hstep
  obtain ⟨hinv', hserved⟩ := hinv.step hR hstep
  exact ⟨hinv', .snoc hsteps hserved⟩

/-- A download from the beginning that has asked for what fits in its buffer. -/
def DownloadLife.asking : DownloadLife 4 :=
  DownloadLife.init.startSeek ⟨false, false, .accepting⟩ ⟨false, false, .accepting⟩ true (bytes "http://a/") true 0

/-- A first reply brings it in full; two bytes are taken out. -/
theorem httpDownload_serves_full :
    Steps (ServedStep (bytes "abcd")) .init
      [.startSeek ⟨false, false, .accepting⟩ ⟨false, false, .accepting⟩ true (bytes "http://a/") true 0,
        .turn ⟨false, false, .handing 4 (bytes "abcd")⟩, .pop 2]
      ⟨httpDownloadStaIdle, .allEnd, 4, 4, true, bytes "cd", 2⟩ := by
  have hserves : ServesResource (bytes "abcd") ⟨some (0, some 3), none⟩ ⟨206, true, 4, false, bytes "abcd"⟩ :=
    .partialContent (by decide) (by decide) (by decide) (by decide)
  have hstart : LifeStep (bytes "abcd") .init _ DownloadLife.asking := .startSeek (by decide)
  have hhands : Hands (ServesPlain (bytes "abcd") DownloadLife.asking.sys.proc) DownloadLife.asking.sys.proc
      (.handing 4 (bytes "abcd")) :=
    .first (by decide) ⟨hserves, rfl, fun _ => ⟨by decide, by decide, by decide, by decide⟩⟩
      ⟨by decide, by decide, by decide, by decide, by decide, _, rfl, by decide⟩
  have hturn : LifeStep (bytes "abcd") DownloadLife.asking (.turn ⟨false, false, .handing 4 (bytes "abcd")⟩) _ :=
    .turn (.turn (fun _ => rfl) hhands)
  have hrun := httpDownload_serves (by decide) (.snoc (.snoc (.snoc .nil hstart) hturn) (.pop (n := 2)))
  have hview : (DownloadLife.pop 2 { DownloadLife.asking with
      sys := DownloadLife.asking.sys.turn (.handing 4 (bytes "abcd"))
        (downloadEvents false false false false) }).view =
      ⟨httpDownloadStaIdle, .allEnd, 4, 4, true, bytes "cd", 2⟩ := by decide
  rwa [hview] at hrun

end AudioPlayer

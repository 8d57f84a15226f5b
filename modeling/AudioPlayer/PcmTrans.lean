import Mathlib
import AudioPlayer.CommonFsmLog
import AudioPlayer.ComPlayerSeek
import AudioPlayer.Lib.Steps

/-!
# The sound device (`src/pcm_trans.c`)

One state machine plays and another records, each with a handle to the device and a buffer that live from START to
STOP. The turns that play ask a callback for a block and write it; those that record read a block and hand it on.

| here | there |
|---|---|
| `PcmTrans`                               | `pcm_trans_t` (`:20-32`); the handle and the buffer are in the calls made |
| `PcmCall`                                | what is asked of ALSA, the heap and the callback |
| `pcmTransTx…Action`, `pcmTransTxRunPoll` | `:40-113` |
| `pcmTransRx…Action`, `pcmTransRxRunPoll` | `:115-173` |
| `pcmTransLookup`                         | the tables of `pcm_trans_init` (`:180-197`) |
| `PcmTransStep`                           | turns, and what other threads do in between (`:229-316`) |
| `pcmFollow`                              | which call the device and the heap allow |

What `snd_pcm_open`, `snd_pcm_set_params` and `malloc` answer is logged at most: after a failed open the next call
already goes to a handle that is not open, and after a failed `malloc` the callback is given `NULL`. A device that
`snd_pcm_set_params` did not set up fails in `snd_pcm_writei` and `snd_pcm_readi`.
-/

namespace AudioPlayer
open Lib

inductive PcmSide
  | tx | rx
deriving DecidableEq, Repr

structure PcmTrans where
  sampleRate : Nat := 0
  channels   : Nat := 0
  noData     : Bool := false
  pcmSize    : Nat := 0
  /-- `pcm_buffer`, `pcm_callback` are not `NULL`. -/
  pcmBuffer  : Bool := false
  registered : Bool := false
deriving DecidableEq, Repr

/-- `ok` is what the call answers, `buffer` whether it is given one and not `NULL`; `handed` is what the callback has
put into the buffer, `notified` how many bytes it is told there are. -/
inductive PcmCall
  | open (ok : Bool) | setParams (channels rate : Nat) (ok : Bool) | malloc (size : Nat) (ok : Bool)
  | free (buffer : Bool)
  | handed (bs : List Byte) | writei (bs : List Byte) | recover
  | readi (frames : Nat) | prepare | notified (size : Int)
  | drop | close
deriving DecidableEq, Repr

/-- What the calls of one action answer: whether open, set-up and allocation succeed, the block of the callback (empty
where it returns no positive number), and the number of frames, or the error, of `snd_pcm_writei` or `snd_pcm_readi`;
`brokenPipe` is `-EPIPE`. -/
structure PcmEnv where
  opens      : Bool := true
  sets       : Bool := true
  allocates  : Bool := true
  block      : List Byte
  frames     : Int
  brokenPipe : Bool

/-- `I2S_DATA_REQUEST_SIZE`, `I2S_DATA_NOTIFY_SIZE` -/
def i2sDataRequestSize : Nat := 4096 * 4
def i2sDataNotifySize  : Nat := 1024 * 4

/-- `frame_size` of the side that plays (`:83`). -/
def pcmFrameSize : Nat := comPlayerFixedChannels.toNat * 2

/-- The whole frames of a block. -/
def wholeFrames (bs : List Byte) : List Byte := bs.take (bs.length / pcmFrameSize * pcmFrameSize)

/-! ## The actions -/

def pcmTransStaRxRun   : Word := 1#32
def pcmTransStaRxPause : Word := 3#32

/-- `pcm_trans_tx_start_action`; `sample_rate` and `channels` are not looked at. -/
def pcmTransTxStartAction (env : PcmEnv) (p : PcmTrans) : (PcmTrans × Word) × List PcmCall :=
  (({ p with pcmSize := i2sDataRequestSize, pcmBuffer := env.allocates }, pcmTransStaTxRun),
    [.open env.opens, .setParams comPlayerFixedChannels.toNat comPlayerFixedSamplerate.toNat env.sets,
      .malloc i2sDataRequestSize env.allocates])

/-- `pcm_trans_tx_stop_action`, `pcm_trans_rx_stop_action`: the pointers stay as they are. -/
def pcmTransStopAction (p : PcmTrans) : (PcmTrans × Word) × List PcmCall :=
  ((p, pcmTransStaIdle), [.free p.pcmBuffer, .drop, .close])

/-- `pcm_trans_tx_run_poll` -/
def pcmTransTxRunPoll (env : PcmEnv) (p : PcmTrans) : (PcmTrans × Word) × List PcmCall :=
  if !p.registered then ((p, pcmTransStaTxPause), [])
  else if 0 < env.block.length then
    ((p, comFsmHoldState),
      [.handed env.block, .writei (wholeFrames env.block)] ++ if env.frames < 0 then [.recover] else [])
  else if p.noData then ((p, pcmTransStaTxDone), [.handed env.block])
  else ((p, pcmTransStaTxPause), [.handed env.block])

/-- `pcm_trans_rx_start_action` -/
def pcmTransRxStartAction (env : PcmEnv) (p : PcmTrans) : (PcmTrans × Word) × List PcmCall :=
  (({ p with pcmSize := i2sDataNotifySize, pcmBuffer := env.allocates }, pcmTransStaRxRun),
    [.open env.opens, .setParams 1 p.sampleRate env.sets, .malloc i2sDataNotifySize env.allocates])

/-- `pcm_trans_rx_run_poll`: the callback is called after an error, too. -/
def pcmTransRxRunPoll (env : PcmEnv) (p : PcmTrans) : (PcmTrans × Word) × List PcmCall :=
  ((p, comFsmHoldState),
    [.readi (p.pcmSize / 2)] ++ (if env.brokenPipe then [.prepare] else []) ++
      if p.registered then [.notified (env.frames * 2)] else [])

def pcmTransExec (env : PcmEnv) : PcmSide → PcmTransTxAction → PcmTrans → (PcmTrans × Word) × List PcmCall
  | .tx, .start => pcmTransTxStartAction env
  | .rx, .start => pcmTransRxStartAction env
  | _, .stop => pcmTransStopAction
  | _, .resume => fun p => ((p, pcmTransStaTxRun), [])
  | .tx, .runPoll => pcmTransTxRunPoll env
  | .rx, .runPoll => pcmTransRxRunPoll env

/-- `lookup_tx` and `lookup_rx` of `pcm_trans_init`. -/
def pcmTransLookup : PcmSide → List (ComFsmLookup PcmTransTxAction)
  | .tx => pcmTransLookupTx
  | .rx => [
    { event := pcmTransEventStart, state := pcmTransStaIdle,    action := .start },
    { event := pcmTransEventStop,  state := pcmTransStaRxRun,   action := .stop },
    { event := pcmTransEventStop,  state := pcmTransStaRxPause, action := .stop },
    { event := comFsmEventNone,    state := pcmTransStaRxRun,   action := .runPoll } ]

/-! ## Runs -/

structure PcmTransSys where
  curState : Word
  proc     : PcmTrans
  calls    : List PcmCall

/-- `pcm_trans_init` -/
def PcmTransSys.init : PcmTransSys := ⟨pcmTransStaIdle, {}, []⟩

def PcmTransSys.turn (side : PcmSide) (s : PcmTransSys) (events : Word) (env : PcmEnv) : PcmTransSys :=
  let (curState, (proc, calls), _) :=
    comFsmDispatch (comFsmLogged (pcmTransExec env side)) (pcmTransLookup side) s.curState (s.proc, s.calls) events
  ⟨curState, proc, calls⟩

inductive PcmTransAct
  | turn (events : Word) (env : PcmEnv)
  | start (sampleRate channels : Nat)
  | register (registered : Bool)
  | setTxNoData

/-- A turn on any set, or what `pcm_trans_start_tx` (`pcm_trans_start_rx`), the registration and
`pcm_trans_set_tx_no_data` write. -/
inductive PcmTransStep (side : PcmSide) : PcmTransSys → PcmTransAct → PcmTransSys → Prop
  | turn {s events env} : PcmTransStep side s (.turn events env) (s.turn side events env)
  | start {s sampleRate channels} : PcmTransStep side s (.start sampleRate channels)
      { s with proc := { s.proc with sampleRate, channels, noData := if side = .tx then false else s.proc.noData } }
  | register {s registered} : PcmTransStep side s (.register registered) { s with proc := { s.proc with registered } }
  | setTxNoData {s} : PcmTransStep side s .setTxNoData { s with proc := { s.proc with noData := true } }

/-- Is the device open, and is the buffer allocated: `none` for a call that uses what is not there. -/
def pcmFollow : Bool × Bool → PcmCall → Option (Bool × Bool)
  | (device, buffer), call =>
    match call with
    | .open ok => if device then none else some (ok, buffer)
    | .malloc _ ok => if buffer then none else some (device, ok)
    | .free false => some (device, buffer)
    | .free true => if buffer then some (device, false) else none
    | .close => if device then some (false, buffer) else none
    | .handed _ | .notified _ => if buffer then some (device, buffer) else none
    | .writei _ | .readi _ => if device && buffer then some (device, buffer) else none
    | .setParams .. | .recover | .prepare | .drop => if device then some (device, buffer) else none

/-- `snd_pcm_open` or `malloc` failed. -/
def PcmCall.failed : PcmCall → Bool
  | .open ok | .malloc _ ok => !ok
  | _ => false

def PcmGranted (calls : List PcmCall) : Prop := ∀ call ∈ calls, call.failed = false

instance (calls : List PcmCall) : Decidable (PcmGranted calls) :=
  inferInstanceAs (Decidable (∀ call ∈ calls, call.failed = false))

/-- What the device was given, and what the callback has handed over. -/
def pcmPlayed (calls : List PcmCall) : List Byte :=
  calls.flatMap fun | .writei bs => bs | _ => []

def pcmHanded (calls : List PcmCall) : List (List Byte) :=
  calls.filterMap fun | .handed bs => some bs | _ => none

/-- Device and buffer are there outside IDLE. -/
def pcmBusy (state : Word) : Bool × Bool := (state ≠ pcmTransStaIdle, state ≠ pcmTransStaIdle)

section
variable {side : PcmSide} {env : PcmEnv} {p : PcmTrans} {s t : PcmTransSys} {act : PcmTransAct}
  {calls more : List PcmCall} {events : Word}

/-! ## What one action does -/

theorem pcmBusy_idle : pcmBusy pcmTransStaIdle = (false, false) := rfl

theorem pcmBusy_of_ne {state : Word} (h : state ≠ pcmTransStaIdle) : pcmBusy state = (true, true) := by
  unfold pcmBusy
  simp only [h, ne_eq, not_false_eq_true, decide_true]

theorem PcmGranted.append : PcmGranted (calls ++ more) ↔ PcmGranted calls ∧ PcmGranted more :=
  List.forall_mem_append

/-- What the rows of a table are: START in IDLE, and outside it STOP and those that use what is there. -/
theorem pcmTransExec_cases (env : PcmEnv) (p : PcmTrans) {l : ComFsmLookup PcmTransTxAction}
    (hl : l ∈ pcmTransLookup side) :
    (l.state = pcmTransStaIdle ∧ settled l.state (pcmTransExec env side l.action p).1.2 ≠ pcmTransStaIdle ∧
      (pcmTransExec env side l.action p).1.1.pcmBuffer = env.allocates ∧
      ∃ channels rate size, (pcmTransExec env side l.action p).2 =
        [.open env.opens, .setParams channels rate env.sets, .malloc size env.allocates]) ∨
    (l.state ≠ pcmTransStaIdle ∧ settled l.state (pcmTransExec env side l.action p).1.2 = pcmTransStaIdle ∧
      (pcmTransExec env side l.action p).2 = [.free p.pcmBuffer, .drop, .close]) ∨
    (l.state ≠ pcmTransStaIdle ∧ settled l.state (pcmTransExec env side l.action p).1.2 ≠ pcmTransStaIdle ∧
      (pcmTransExec env side l.action p).1.1 = p ∧ PcmGranted (pcmTransExec env side l.action p).2 ∧
      follows pcmFollow (true, true) (pcmTransExec env side l.action p).2 = some (true, true)) := by
  have hnone : PcmGranted [] := by decide
  cases side with
  | tx =>
    have hstart : settled pcmTransStaIdle pcmTransStaTxRun ≠ pcmTransStaIdle := by decide
    have hresume : settled pcmTransStaTxPause pcmTransStaTxRun ≠ pcmTransStaIdle := by decide
    have hpause : settled pcmTransStaTxRun pcmTransStaTxPause ≠ pcmTransStaIdle := by decide
    have hdone : settled pcmTransStaTxRun pcmTransStaTxDone ≠ pcmTransStaIdle := by decide
    have hhold : settled pcmTransStaTxRun comFsmHoldState ≠ pcmTransStaIdle := by decide
    have hhanded : PcmGranted [.handed env.block] := by simp [PcmGranted, PcmCall.failed]
    simp only [pcmTransLookup, pcmTransLookupTx, List.mem_cons, List.not_mem_nil, or_false] at hl
    rcases hl with rfl | rfl | rfl | rfl | rfl | rfl
    · exact .inl ⟨rfl, hstart, rfl, _, _, _, rfl⟩
    · exact .inr (.inl ⟨by decide, rfl, rfl⟩)
    · exact .inr (.inl ⟨by decide, rfl, rfl⟩)
    · exact .inr (.inl ⟨by decide, rfl, rfl⟩)
    · exact .inr (.inr ⟨by decide, hresume, rfl, hnone, rfl⟩)
    · refine .inr (.inr ⟨by decide, ?_⟩)
      unfold pcmTransExec pcmTransTxRunPoll
      dsimp only
      split
      · exact ⟨hpause, rfl, hnone, rfl⟩
      split
      · refine ⟨hhold, rfl, ?_, ?_⟩
        · split <;> simp [PcmGranted, PcmCall.failed]
        · split <;> rfl
      split
      · exact ⟨hdone, rfl, hhanded, rfl⟩
      · exact ⟨hpause, rfl, hhanded, rfl⟩
  | rx =>
    have hstart : settled pcmTransStaIdle pcmTransStaRxRun ≠ pcmTransStaIdle := by decide
    have hhold : settled pcmTransStaRxRun comFsmHoldState ≠ pcmTransStaIdle := by decide
    simp only [pcmTransLookup, List.mem_cons, List.not_mem_nil, or_false] at hl
    rcases hl with rfl | rfl | rfl | rfl
    · exact .inl ⟨rfl, hstart, rfl, _, _, _, rfl⟩
    · exact .inr (.inl ⟨by decide, rfl, rfl⟩)
    · exact .inr (.inl ⟨by decide, rfl, rfl⟩)
    · refine .inr (.inr ⟨by decide, ?_⟩)
      unfold pcmTransExec pcmTransRxRunPoll
      dsimp only
      refine ⟨hhold, rfl, ?_, ?_⟩
      · split <;> split <;> simp [PcmGranted, PcmCall.failed]
      · split <;> split <;> rfl

/-- **Each row of a table, in its state**: it opens what is closed, uses what is open, and closes all that is open. -/
theorem pcmTransExec_follows {l : ComFsmLookup PcmTransTxAction} (hl : l ∈ pcmTransLookup side)
    (hbuffer : l.state ≠ pcmTransStaIdle → p.pcmBuffer = true)
    (hgranted : PcmGranted (pcmTransExec env side l.action p).2) :
    follows pcmFollow (pcmBusy l.state) (pcmTransExec env side l.action p).2 =
      some (pcmBusy (settled l.state (pcmTransExec env side l.action p).1.2)) := by
  obtain ⟨hidle, hbusy, -, channels, rate, size, hcalls⟩ | ⟨hbusy, hidle, hcalls⟩ | ⟨hbusy, hstays, -, -, huses⟩ :=
    pcmTransExec_cases env p hl
  · rw [hcalls] at hgranted ⊢
    obtain ⟨hopens, hallocates⟩ : env.opens = true ∧ env.allocates = true := by
      simpa [PcmGranted, PcmCall.failed] using hgranted
    rw [pcmBusy_of_ne hbusy, hidle, pcmBusy_idle, hopens, hallocates]
    rfl
  · rw [pcmBusy_of_ne hbusy, hidle, pcmBusy_idle, hcalls, hbuffer hbusy]
    rfl
  · rw [pcmBusy_of_ne hbusy, pcmBusy_of_ne hstays, huses]

/-- The buffer of a start lives on until IDLE. -/
theorem pcmTransExec_buffer {l : ComFsmLookup PcmTransTxAction} (hl : l ∈ pcmTransLookup side)
    (hbuffer : l.state ≠ pcmTransStaIdle → p.pcmBuffer = true)
    (hgranted : PcmGranted (pcmTransExec env side l.action p).2)
    (hstate : settled l.state (pcmTransExec env side l.action p).1.2 ≠ pcmTransStaIdle) :
    (pcmTransExec env side l.action p).1.1.pcmBuffer = true := by
  obtain ⟨-, -, hbuf, channels, rate, size, hcalls⟩ | ⟨-, hidle, -⟩ | ⟨hbusy, -, hsame, -⟩ :=
    pcmTransExec_cases env p hl
  · have hmalloc := hgranted (.malloc size env.allocates) (by rw [hcalls]; simp)
    rw [hbuf]
    simpa [PcmCall.failed] using hmalloc
  · exact absurd hidle hstate
  · rw [hsame]
    exact hbuffer hbusy

/-- A failed open is followed by a call on the handle. -/
theorem pcmTransExec_unopened {l : ComFsmLookup PcmTransTxAction} (hl : l ∈ pcmTransLookup side)
    (h : .open false ∈ (pcmTransExec env side l.action p).2) (d : Bool × Bool) :
    follows pcmFollow d (pcmTransExec env side l.action p).2 = none := by
  obtain ⟨device, buffer⟩ := d
  obtain ⟨-, -, -, channels, rate, size, hcalls⟩ | ⟨-, -, hcalls⟩ | ⟨-, -, -, hgranted, -⟩ :=
    pcmTransExec_cases env p hl
  · rw [hcalls] at h ⊢
    have hopens : env.opens = false := by simpa using h
    rw [hopens]
    cases device <;> rfl
  · rw [hcalls] at h
    simp at h
  · have hfailed := hgranted _ h
    contradiction

/-- Everything handed over is played, but for a last frame that is not whole. -/
def PlaysWhole (calls : List PcmCall) : Prop := pcmPlayed calls = (pcmHanded calls).flatMap wholeFrames

theorem PlaysWhole.append (h : PlaysWhole calls) (hmore : PlaysWhole more) : PlaysWhole (calls ++ more) := by
  unfold PlaysWhole pcmPlayed pcmHanded at *
  rw [List.flatMap_append, List.filterMap_append, List.flatMap_append, h, hmore]

theorem pcmTransExec_playsWhole (action : PcmTransTxAction) : PlaysWhole (pcmTransExec env side action p).2 := by
  have hempty : ∀ {bs : List Byte}, ¬0 < bs.length → wholeFrames bs = [] := by
    intro bs hbs
    rw [List.length_eq_zero_iff.1 (by omega : bs.length = 0)]
    rfl
  cases action with
  | start => cases side <;> rfl
  | stop => cases side <;> rfl
  | resume => cases side <;> rfl
  | runPoll =>
    cases side with
    | rx =>
      unfold pcmTransExec pcmTransRxRunPoll
      dsimp only
      split <;> split <;> rfl
    | tx =>
      unfold pcmTransExec pcmTransTxRunPoll
      dsimp only
      split
      · rfl
      split
      · split <;> rfl
      rename_i hblock
      have hnone : PlaysWhole [.handed env.block] := (hempty hblock).symm.trans (List.append_nil _).symm
      split
      · exact hnone
      · exact hnone

/-! ## Runs -/

/-- What holds between turns. -/
structure PcmTransInv (s : PcmTransSys) : Prop where
  follows  : PcmGranted s.calls → follows pcmFollow (false, false) s.calls = some (pcmBusy s.curState)
  buffer   : PcmGranted s.calls → s.curState ≠ pcmTransStaIdle → s.proc.pcmBuffer = true
  unopened : .open false ∈ s.calls → AudioPlayer.follows pcmFollow (false, false) s.calls = none
  plays    : PlaysWhole s.calls

/-- A turn does nothing, or the action of one row. -/
theorem PcmTransSys.turn_cases (side : PcmSide) (s : PcmTransSys) (events : Word) (env : PcmEnv) :
    s.turn side events env = s ∨ ∃ l ∈ pcmTransLookup side, l.state = s.curState ∧ s.turn side events env =
      ⟨settled s.curState (pcmTransExec env side l.action s.proc).1.2, (pcmTransExec env side l.action s.proc).1.1,
        s.calls ++ (pcmTransExec env side l.action s.proc).2⟩ := by
  unfold PcmTransSys.turn
  dsimp only
  rcases comFsmDispatch_cases (comFsmLogged (pcmTransExec env side)) (pcmTransLookup side) s.curState
    (s.proc, s.calls) events with hnone | ⟨l, hl, hstate, hres⟩
  · rw [hnone]
    exact .inl rfl
  · rw [hres]
    exact .inr ⟨l, hl, hstate, rfl⟩

theorem PcmTransInv.turn (h : PcmTransInv s) : PcmTransInv (s.turn side events env) := by
  rcases s.turn_cases side events env with hsame | ⟨l, hl, hstate, hres⟩
  · rw [hsame]
    exact h
  rw [hres, ← hstate]
  refine ⟨fun hgranted => ?_, fun hgranted hbusy => ?_, fun hopen => ?_, ?_⟩
  · obtain ⟨hold, hnew⟩ := PcmGranted.append.1 hgranted
    dsimp only
    rw [follows_append, h.follows hold, ← hstate]
    exact pcmTransExec_follows hl (fun hne => h.buffer hold (hstate ▸ hne)) hnew
  · obtain ⟨hold, hnew⟩ := PcmGranted.append.1 hgranted
    exact pcmTransExec_buffer hl (fun hne => h.buffer hold (hstate ▸ hne)) hnew hbusy
  · dsimp only at hopen ⊢
    rw [follows_append]
    rcases List.mem_append.1 hopen with hold | hnew
    · rw [h.unopened hold]
      rfl
    · cases AudioPlayer.follows pcmFollow (false, false) s.calls with
      | none => rfl
      | some d => exact pcmTransExec_unopened hl hnew d
  · exact h.plays.append (pcmTransExec_playsWhole l.action)

end

/-- **The device is used only while it is open.** In every run of either side in which no `snd_pcm_open` and no `malloc`
fails, the calls are ones that the device and the heap allow, and both are there exactly outside IDLE; once an open
has failed they are not. What is given to `snd_pcm_writei` is what the callback handed over, block by block and in
order, each cut to whole frames. -/
theorem pcmTrans_device {side : PcmSide} {acts : List PcmTransAct} {t : PcmTransSys}
    (h : Steps (PcmTransStep side) .init acts t) :
    (PcmGranted t.calls → follows pcmFollow (false, false) t.calls = some (pcmBusy t.curState)) ∧
      (.open false ∈ t.calls → follows pcmFollow (false, false) t.calls = none) ∧
      pcmPlayed t.calls = (pcmHanded t.calls).flatMap wholeFrames := by
  have hinv : PcmTransInv t := by
    refine h.invariant ?_ ⟨fun _ => rfl, fun _ hne => absurd rfl hne, fun hopen => absurd hopen (by decide), rfl⟩
    intro s act t hs hstep
    cases hstep with
    | turn => exact hs.turn
    | start => exact ⟨hs.follows, hs.buffer, hs.unopened, hs.plays⟩
    | register => exact ⟨hs.follows, hs.buffer, hs.unopened, hs.plays⟩
    | setTxNoData => exact ⟨hs.follows, hs.buffer, hs.unopened, hs.plays⟩
  exact ⟨hinv.follows, hinv.unopened, hinv.plays⟩

/-- A block of five bytes, of which one whole frame is played, and the end; then a start whose open fails. -/
theorem pcmTrans_device_five :
    let s := PcmTransSys.init.turn .tx pcmTransEventStart { block := [], frames := 0, brokenPipe := false }
    let s := { s with proc := { s.proc with registered := true } }
    let s := s.turn .tx 0 { block := [1, 2, 3, 4, 5], frames := 1, brokenPipe := false }
    let s := s.turn .tx pcmTransEventStop { block := [], frames := 0, brokenPipe := false }
    let t := s.turn .tx pcmTransEventStart { opens := false, block := [], frames := 0, brokenPipe := false }
    (follows pcmFollow (false, false) s.calls = some (pcmBusy s.curState) ∧ pcmPlayed s.calls = [1, 2, 3, 4]) ∧
      follows pcmFollow (false, false) t.calls = none :=
  have hrun := Steps.snoc (.snoc (.snoc (.snoc .nil .turn) .register) .turn) .turn
  ⟨⟨(pcmTrans_device hrun).1 (by decide), by decide⟩, (pcmTrans_device (.snoc hrun .turn)).2.1 (by decide)⟩

end AudioPlayer

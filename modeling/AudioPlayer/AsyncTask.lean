import Mathlib
import AudioPlayer.Lib.Bytes
import AudioPlayer.Lib.CInt
import AudioPlayer.CommonFsm
import AudioPlayer.CommonBufferPush

/-!
# Callbacks run by a task (`utils/async_task.c`)

`async_task_add` pushes a record into a byte queue and sets one event bit; the task takes the bit, runs one record,
and sets the bit again if there is another. Any number of threads `T` add, a callback that adds is one of them.

| step | there |
| --- | --- |
| `push t x ok`          | `t` enters `async_task_add` and pushes the record `x` (`async_task.c:83-89`) |
| `setEvent t`           | it sets the event and returns (`:90-92`) |
| `takeBits E`           | the task's wait returns `E` (`common_fsm.c:64-66`); `0` is its timeout |
| `dispatch`             | it looks up the action (`:68-84`) |
| `count`, `pop`         | is there a record, and it is taken (`async_task.c:15-21`) |
| `callback x`           | its callback runs (`:23`) |
| `recheck`, `rearm`     | is there another, and the event is set for it (`:26-29`, `:36-37`) |
| `setAck`               | after `COM_FSM_HOLD_STATE` the set is acknowledged (`common_fsm.c:86-93`) |

A record is three pointers, and the nodes of the queue are no multiple of that long. `ok` says which allocations of a
push succeed. `async_task_destroy` is not one of the steps.
-/

namespace AudioPlayer
open Lib

abbrev Pointer (abi : Abi) := BitVec (8 * abi.ptr)

/-- `async_execute_t` (`async_task.h:7-12`). -/
structure AsyncExecute (abi : Abi) where
  userData  : Pointer abi
  userData2 : Pointer abi
  callback  : Pointer abi
deriving DecidableEq

variable {abi : Abi} {T : Type*}

/-- `sizeof(async_execute_t)`. -/
def AsyncExecute.sizeof (abi : Abi) : Nat := 3 * abi.ptr

/-- The record in memory. -/
def AsyncExecute.bytes (x : AsyncExecute abi) : List Byte :=
  leBytes abi.ptr x.userData.toNat ++ leBytes abi.ptr x.userData2.toNat ++ leBytes abi.ptr x.callback.toNat

/-- The record that this memory is. -/
def AsyncExecute.ofBytes (abi : Abi) (bs : List Byte) : AsyncExecute abi :=
  let pointer := fun i => BitVec.ofNat (8 * abi.ptr) (ofLeBytes ((bs.drop (i * abi.ptr)).take abi.ptr))
  ⟨pointer 0, pointer 1, pointer 2⟩

def asyncTaskEventExe : Word := 0x000001#32
def asyncTaskStaIdle  : Word := 0#32

inductive AsyncTaskAction
  | exe
deriving DecidableEq, Repr

/-- `lookup` of `async_task_create` (`async_task.c:46-48`). -/
def asyncTaskLookup : List (ComFsmLookup AsyncTaskAction) :=
  [{ event := asyncTaskEventExe, state := asyncTaskStaIdle, action := .exe }]

/-- The test of `async_task_exe` (`async_task.c:15`, `:26`); `sizeof` is unsigned. -/
def asyncTaskHasRecord (abi : Abi) (queue : CommonBuffer Byte) : Option Bool := do
  let count ← commonBufferGetCount queue
  some ((AsyncExecute.sizeof abi : Int) ≤ toU32 count)

/-- The record is popped (`async_task.c:17-21`); a failed assertion has no value. -/
def asyncTaskPop (abi : Abi) (queue : CommonBuffer Byte) : Option (AsyncExecute abi × CommonBuffer Byte) := do
  let (_, out, size, queue) ← commonBufferPop queue true (AsyncExecute.sizeof abi)
  if (AsyncExecute.sizeof abi : Int) = size then some (.ofBytes abi (← out.mapM id), queue) else none

/-- The push of `async_task_add` (`async_task.c:83-89`): its result is not looked at. -/
def asyncTaskPush (ok : Nat → Bool) (queue : CommonBuffer Byte) (x : AsyncExecute abi) : Option (CommonBuffer Byte) :=
  (commonBufferPush ok queue x.bytes).map Prod.snd

/-- `async_task_add` on the queue and the event (`async_task.c:81-93`). -/
def asyncTaskAdd (ok : Nat → Bool) (queue : CommonBuffer Byte) (event : Word) (x : AsyncExecute abi) :
    Option (Int × CommonBuffer Byte × Word) := do
  let queue ← asyncTaskPush ok queue x
  some (0, queue, commonSetEvent event asyncTaskEventExe)

/-! ## The task and the threads -/

/-- Where the task stands, with the set it has taken. -/
inductive AsyncPc (abi : Abi)
  | waitBits
  | dispatch (events : Word)
  | count (events : Word)
  | pop (events : Word)
  | callback (events : Word) (x : AsyncExecute abi)
  | recheck (events : Word)
  | rearm (events : Word)
  | ackBits (events : Word)
  | exited

/-- `async_task_t` with its state machine; `adding t` says that `t` has pushed and not yet set the event. -/
structure AsyncTask (abi : Abi) (T : Type*) where
  queue    : CommonBuffer Byte
  event    : Word
  eventAck : Word
  curState : Word
  task     : AsyncPc abi
  adding   : T → Bool

inductive AsyncAct (abi : Abi) (T : Type*)
  | push (t : T) (x : AsyncExecute abi) (ok : Nat → Bool)
  | setEvent (t : T)
  | takeBits (events : Word)
  | dispatch
  | count
  | pop
  | callback (x : AsyncExecute abi)
  | recheck
  | rearm
  | setAck

/-- `async_task_create` (`async_task.c:42-66`). -/
def asyncTaskCreate : AsyncTask abi T :=
  ⟨commonBufferInit (10240 : Nat) (655360 : Nat), 0, 0, asyncTaskStaIdle, .waitBits, fun _ => false⟩

/-- What the task does with a set (`common_fsm.c:68-84`). -/
def asyncTaskDispatch (curState events : Word) : AsyncPc abi :=
  if comFsmEventExit &&& events ≠ 0 then .exited
  else
    match comFsmSelect asyncTaskLookup curState events with
    | some _ => .count events
    | none => .ackBits events

/-- One step of the task or of a thread. -/
inductive AsyncStep [DecidableEq T] : AsyncTask abi T → AsyncAct abi T → AsyncTask abi T → Prop
  | push {s t x ok queue} : s.adding t = false → asyncTaskPush ok s.queue x = some queue →
      AsyncStep s (.push t x ok) { s with queue, adding := Function.update s.adding t true }
  | setEvent {s t} : s.adding t = true →
      AsyncStep s (.setEvent t)
        { s with event := commonSetEvent s.event asyncTaskEventExe, adding := Function.update s.adding t false }
  | takeBits {s} : s.task = .waitBits → (commonWaitEvent s.event comFsmEventAll).1 ≠ 0 →
      AsyncStep s (.takeBits (commonWaitEvent s.event comFsmEventAll).1)
        { s with event := (commonWaitEvent s.event comFsmEventAll).2,
                 task := .dispatch (commonWaitEvent s.event comFsmEventAll).1 }
  | takeNone {s} : s.task = .waitBits →
      AsyncStep s (.takeBits comFsmEventNone) { s with task := .dispatch comFsmEventNone }
  | dispatch {s E} : s.task = .dispatch E →
      AsyncStep s .dispatch { s with task := asyncTaskDispatch s.curState E }
  | count {s E has} : s.task = .count E → asyncTaskHasRecord abi s.queue = some has →
      AsyncStep s .count { s with task := if has then .pop E else .recheck E }
  | pop {s E x queue} : s.task = .pop E → asyncTaskPop abi s.queue = some (x, queue) →
      AsyncStep s .pop { s with queue, task := .callback E x }
  | callback {s E x} : s.task = .callback E x → AsyncStep s (.callback x) { s with task := .recheck E }
  | recheck {s E has} : s.task = .recheck E → asyncTaskHasRecord abi s.queue = some has →
      AsyncStep s .recheck { s with task := if has then .rearm E else .ackBits E }
  | rearm {s E} : s.task = .rearm E →
      AsyncStep s .rearm { s with event := commonSetEvent s.event asyncTaskEventExe, task := .ackBits E }
  | setAck {s E} : s.task = .ackBits E →
      AsyncStep s .setAck
        { s with eventAck := if E ≠ comFsmEventNone then commonSetEvent s.eventAck E else s.eventAck,
                 task := .waitBits }

/-! ## What was added and what has run -/

/-- The records added, in the order of their pushes. -/
def asyncAdded (acts : List (AsyncAct abi T)) : List (AsyncExecute abi) :=
  acts.filterMap fun
    | .push _ x _ => some x
    | _ => none

/-- The callbacks run, each with its arguments. -/
def asyncExecuted (acts : List (AsyncAct abi T)) : List (AsyncExecute abi) :=
  acts.filterMap fun
    | .callback x => some x
    | _ => none

/-- The record that the task has popped and whose callback it is about to run. -/
def AsyncPc.inHand : AsyncPc abi → List (AsyncExecute abi)
  | .callback _ x => [x]
  | _ => []

/-- The task is between two actions: it waits, or acknowledges what it has taken. -/
def AsyncPc.Between : AsyncPc abi → Prop
  | .waitBits | .ackBits _ => True
  | _ => False

/-- The records make up the queue. -/
def HoldsRecords (queue : CommonBuffer Byte) (records : List (AsyncExecute abi)) : Prop :=
  commonBufferBytes queue = some ((records.flatMap AsyncExecute.bytes).map some)

/-- The push of an add succeeds. -/
def PushSucceeds (s : AsyncTask abi T) : AsyncAct abi T → Prop
  | .push _ x ok => ∃ queue, commonBufferPush ok s.queue x.bytes = some (.success, queue)
  | _ => True

/-! ## Records as bytes -/

theorem AsyncExecute.sizeof_bounds (abi : Abi) : 0 < sizeof abi ∧ sizeof abi < 32 := by cases abi <;> decide

@[simp] theorem AsyncExecute.bytes_length (x : AsyncExecute abi) : x.bytes.length = sizeof abi := by
  simp only [bytes, sizeof, List.length_append, leBytes_length]
  omega

/-- A pointer is read back from its bytes. -/
theorem ofLeBytes_pointer (p : Pointer abi) :
    BitVec.ofNat (8 * abi.ptr) (ofLeBytes (leBytes abi.ptr p.toNat)) = p := by
  have hpow : 256 ^ abi.ptr = 2 ^ (8 * abi.ptr) := by rw [Nat.pow_mul]
  rw [ofLeBytes_leBytes, hpow, Nat.mod_eq_of_lt p.isLt, BitVec.ofNat_toNat, BitVec.setWidth_eq]

/-- A record is read back from its bytes. -/
theorem AsyncExecute.ofBytes_bytes (x : AsyncExecute abi) : ofBytes abi x.bytes = x := by
  have hlen := fun p : Pointer abi => leBytes_length abi.ptr p.toNat
  have h0 : (x.bytes.drop (0 * abi.ptr)).take abi.ptr = leBytes abi.ptr x.userData.toNat := by
    rw [Nat.zero_mul, List.drop_zero, bytes, List.append_assoc, List.take_left' (hlen _)]
  have h1 : (x.bytes.drop (1 * abi.ptr)).take abi.ptr = leBytes abi.ptr x.userData2.toNat := by
    rw [Nat.one_mul, bytes, List.append_assoc, List.drop_left' (hlen _), List.take_left' (hlen _)]
  have h2 : (x.bytes.drop (2 * abi.ptr)).take abi.ptr = leBytes abi.ptr x.callback.toNat := by
    rw [bytes, List.drop_left' (by rw [List.length_append, hlen, hlen]; omega), List.take_of_length_le (hlen _).le]
  simp only [ofBytes, h0, h1, h2, ofLeBytes_pointer]

theorem records_length (xs : List (AsyncExecute abi)) :
    (xs.flatMap AsyncExecute.bytes).length = AsyncExecute.sizeof abi * xs.length := by
  induction xs with
  | nil => rfl
  | cons x xs ih =>
    rw [List.flatMap_cons, List.length_append, ih, AsyncExecute.bytes_length, List.length_cons, Nat.mul_succ,
      Nat.add_comm]

theorem mapM_some (bs : List Byte) : (bs.map some).mapM id = some bs := by
  induction bs with
  | nil => rfl
  | cons b bs ih =>
    simp only [List.map_cons, List.mapM_cons, ih, id_eq, Option.bind_eq_bind, Option.bind_some, Option.pure_def]

/-! ## The queue under the records -/

section
variable {queue : CommonBuffer Byte} {xs : List (AsyncExecute abi)}

/-- What the queue of a task is, whatever has happened to it. -/
abbrev CommonBuffer.OfTask (queue : CommonBuffer Byte) : Prop := queue.Made 10240 655360

theorem HoldsRecords.cells {ns : List (Nat × CommonNode Byte)} (h : HoldsRecords queue xs) (hns : queue.Holds ns) :
    nodesCells ns = (xs.flatMap AsyncExecute.bytes).map some :=
  Option.some.inj (hns.bytes.symm.trans h)

/-- There is a record exactly if the queue is not empty. -/
theorem asyncTaskHasRecord_eq (hmade : queue.OfTask) (h : HoldsRecords queue xs) :
    asyncTaskHasRecord abi queue = some (decide (xs ≠ [])) := by
  obtain ⟨ns, hns⟩ := hmade.holds
  have hlt := hns.length_lt
  have hsmall := hns.circ.small
  have hsize := AsyncExecute.sizeof_bounds abi
  have hlen := congrArg List.length (h.cells hns)
  rw [List.length_map, records_length] at hlen
  simp only [asyncTaskHasRecord, hns.getCount, Option.bind_eq_bind, Option.bind_some, Option.some.injEq,
    decide_eq_decide]
  rw [toU32_eq (by omega) (by omega), hlen]
  cases xs with
  | nil => simp only [List.length_nil, Nat.mul_zero, ne_eq, not_true, iff_false]; omega
  | cons x xs =>
    rw [List.length_cons, Nat.mul_succ]
    simp only [ne_eq, reduceCtorEq, not_false_eq_true, iff_true]
    omega

/-- The oldest record is popped, whole. -/
theorem asyncTaskPop_eq {x : AsyncExecute abi} (hmade : queue.OfTask) (h : HoldsRecords queue (x :: xs)) :
    ∃ queue', asyncTaskPop abi queue = some (x, queue') ∧ queue'.OfTask ∧ HoldsRecords queue' xs := by
  obtain ⟨ns, hns⟩ := hmade.holds
  have hsize := AsyncExecute.sizeof_bounds abi
  have hcells := h.cells hns
  have hbytes : x.bytes.length = AsyncExecute.sizeof abi := AsyncExecute.bytes_length x
  have hlen := congrArg List.length hcells
  rw [List.flatMap_cons, List.length_map, List.length_append, hbytes] at hlen
  obtain ⟨ret, queue', ns', hpop, hns', hnode, hmax', hrest⟩ :=
    commonBufferPop_spec hns true (k := AsyncExecute.sizeof abi) (by omega)
  rw [if_pos rfl, Nat.min_eq_left (by omega)] at hpop
  have hout : (nodesCells ns).take (AsyncExecute.sizeof abi) = x.bytes.map some := by
    rw [hcells, List.flatMap_cons, List.map_append, List.take_left' (by rw [List.length_map, hbytes])]
  rw [hcells, List.flatMap_cons, List.map_append, List.drop_left' (by rw [List.length_map, hbytes])] at hrest
  refine ⟨queue', ?_, ⟨⟨ns', hns'⟩, hnode.trans hmade.node, hmax'.trans hmade.max⟩, ?_⟩
  · simp only [asyncTaskPop, hpop, hout, Option.bind_eq_bind, Option.bind_some, mapM_some, if_true,
      AsyncExecute.ofBytes_bytes]
  · exact hns'.bytes.trans (congrArg some hrest)

/-- A push that succeeds has put the whole record behind the others. -/
theorem asyncTaskPush_eq {ok : Nat → Bool} {x : AsyncExecute abi} {queue' : CommonBuffer Byte} (hmade : queue.OfTask)
    (h : HoldsRecords queue xs) (hpush : commonBufferPush ok queue x.bytes = some (.success, queue')) :
    queue'.OfTask ∧ HoldsRecords queue' (xs ++ [x]) := by
  obtain ⟨ns, hns⟩ := hmade.holds
  have hsize := AsyncExecute.sizeof_bounds abi
  have hcells := h.cells hns
  rcases commonBufferPush_stores ok hns (show x.bytes.length < 4294967296 by rw [AsyncExecute.bytes_length]; omega) with
    ⟨-, hrefused⟩ | ⟨-, ret, cb', ns', k, hstored, hns', hnode, hmax', hrest, hend⟩
  · rw [hrefused] at hpush
    cases hpush
  · rw [hstored] at hpush
    obtain ⟨rfl, rfl⟩ := Prod.mk.inj (Option.some.inj hpush)
    cases hend with
    | stored =>
      refine ⟨⟨⟨ns', hns'⟩, hnode.trans hmade.node, hmax'.trans hmade.max⟩, hns'.bytes.trans ?_⟩
      rw [hrest, hcells, List.take_length, List.flatMap_append, List.map_append, List.flatMap_singleton]

/-- Where a push stores all of its source. -/
def CommonBuffer.HasRoom (queue : CommonBuffer Byte) (ok : Nat → Bool) (len : Nat) : Prop :=
  (∃ free, commonBufferGetFreeCount queue = some free ∧ (len : Int) ≤ free) ∧
    ∀ k, FirstFails ok queue.heap.length k → len ≤ queue.tailFree + k * queue.nodeSize.toNat

/-- A push stores everything if there is room for it and memory for the nodes it needs, and less otherwise. -/
theorem commonBufferPush_room {src : List Byte} (ok : Nat → Bool) (hmade : queue.OfTask)
    (hsrc : src.length < 4294967296) :
    ∃ ret queue' k, commonBufferPush ok queue src = some (ret, queue') ∧ queue'.OfTask ∧
      commonBufferBytes queue' = (commonBufferBytes queue).map (· ++ (src.take k).map some) ∧ k ≤ src.length ∧
      (ret = .success ↔ queue.HasRoom ok src.length) ∧ (k = src.length ↔ queue.HasRoom ok src.length) := by
  obtain ⟨ns, hns⟩ := hmade.holds
  rcases commonBufferPush_stores ok hns hsrc with
    ⟨hlarge, hrefused⟩ | ⟨hfit, ret, queue', ns', k, hstored, hns', hnode, hmax', hrest, hend⟩
  · have hno : ¬ queue.HasRoom ok src.length := by
      rintro ⟨⟨free, hfree, hle⟩, -⟩
      rw [hns.getFreeCount] at hfree
      cases hfree
      omega
    have hlt := hns.length_lt
    refine ⟨.errSize, queue, 0, hrefused, hmade, ?_, Nat.zero_le _, ⟨?_, fun h => absurd h hno⟩,
      ⟨fun h => ?_, fun h => absurd h hno⟩⟩
    · rw [hns.bytes, Option.map_some, List.take_zero, List.map_nil, List.append_nil]
    · rintro ⟨⟩
    · omega
  · have hbytes : commonBufferBytes queue' = (commonBufferBytes queue).map (· ++ (src.take k).map some) := by
      rw [hns.bytes, hns'.bytes, hrest, Option.map_some]
    have hfree : ∃ free, commonBufferGetFreeCount queue = some free ∧ (src.length : Int) ≤ free :=
      ⟨_, hns.getFreeCount, by omega⟩
    have hmade' : queue'.OfTask := ⟨⟨ns', hns'⟩, hnode.trans hmade.node, hmax'.trans hmade.max⟩
    cases hend with
    | stored hall =>
      exact ⟨.success, queue', _, hstored, hmade', hbytes, le_rfl, ⟨fun _ => ⟨hfree, hall⟩, fun _ => rfl⟩,
        ⟨fun _ => ⟨hfree, hall⟩, fun _ => rfl⟩⟩
    | failed hfirst hlt =>
      have hno : ¬ queue.HasRoom ok src.length := fun h => absurd (h.2 _ hfirst) (by omega)
      refine ⟨.errMalloc, queue', _, hstored, hmade', hbytes, hlt.le, ⟨?_, fun h => absurd h hno⟩,
        ⟨fun h => absurd h hlt.ne, fun h => absurd h hno⟩⟩
      rintro ⟨⟩

end

/-! ## No wake-up is lost -/

/-- The task is in a turn that looks at the queue before it waits again. -/
def AsyncPc.Working : AsyncPc abi → Prop
  | .dispatch E => E = asyncTaskEventExe
  | .count _ | .pop _ | .callback _ _ | .recheck _ | .rearm _ => True
  | .waitBits | .ackBits _ | .exited => False

/-- Something will make the task look at the queue. -/
def AsyncTask.Awake (s : AsyncTask abi T) : Prop :=
  s.event = asyncTaskEventExe ∨ s.task.Working ∨ ∃ t, s.adding t = true

/-- What holds in every state of a run whose pushes succeed: the records not yet run are in the queue, and while there
is one, something is under way. -/
structure AsyncInv (acts : List (AsyncAct abi T)) (s : AsyncTask abi T) (queued : List (AsyncExecute abi)) :
    Prop where
  made     : s.queue.OfTask
  records  : HoldsRecords s.queue queued
  order    : asyncExecuted acts ++ s.task.inHand ++ queued = asyncAdded acts
  event    : s.event = 0 ∨ s.event = asyncTaskEventExe
  taken    : ∀ E, s.task = .dispatch E → E = 0 ∨ E = asyncTaskEventExe
  curState : s.curState = asyncTaskStaIdle
  runs     : s.task ≠ .exited
  pops     : ∀ E, s.task = .pop E → queued ≠ []
  awake    : queued ≠ [] → s.Awake

theorem asyncTaskDispatch_none : (asyncTaskDispatch asyncTaskStaIdle 0 : AsyncPc abi) = .ackBits 0 := rfl

theorem asyncTaskDispatch_exe :
    (asyncTaskDispatch asyncTaskStaIdle asyncTaskEventExe : AsyncPc abi) = .count asyncTaskEventExe := rfl

theorem commonSetEvent_exe {event : Word} (h : event = 0 ∨ event = asyncTaskEventExe) :
    commonSetEvent event asyncTaskEventExe = asyncTaskEventExe := by
  rcases h with rfl | rfl <;> decide

theorem commonWaitEvent_exe {event : Word} (h : event = 0 ∨ event = asyncTaskEventExe)
    (hne : (commonWaitEvent event comFsmEventAll).1 ≠ 0) :
    commonWaitEvent event comFsmEventAll = (asyncTaskEventExe, 0) := by
  rcases h with rfl | rfl
  · exact absurd (by decide) hne
  · decide

theorem asyncTaskCreate_inv : AsyncInv [] (asyncTaskCreate : AsyncTask abi T) [] where
  made := commonBuffer_made (by decide) (by decide) (by decide) (Reach.refl _)
  records := (commonBufferInit_holds (by decide) (by decide) (by decide) (by decide)).bytes
  order := rfl
  event := .inl rfl
  taken := by rintro E ⟨⟩
  curState := rfl
  runs := by rintro ⟨⟩
  pops := by rintro E ⟨⟩
  awake := fun h => absurd rfl h

theorem asyncExecuted_snoc (acts : List (AsyncAct abi T)) (a : AsyncAct abi T) :
    asyncExecuted (acts ++ [a]) = asyncExecuted acts ++ asyncExecuted [a] := List.filterMap_append

theorem asyncAdded_snoc (acts : List (AsyncAct abi T)) (a : AsyncAct abi T) :
    asyncAdded (acts ++ [a]) = asyncAdded acts ++ asyncAdded [a] := List.filterMap_append

/-- A task that is not at work is woken by the event or by a thread. -/
theorem AsyncTask.Awake.keep {s s' : AsyncTask abi T} (h : s.Awake) (hidle : ¬ s.task.Working)
    (hevent : s'.event = s.event) (hadding : s'.adding = s.adding) : s'.Awake := by
  rcases h with hset | hworking | hadd
  · exact .inl (hevent.trans hset)
  · exact absurd hworking hidle
  · exact .inr (.inr (hadding ▸ hadd))

section
variable {acts : List (AsyncAct abi T)} {s s' : AsyncTask abi T} {a : AsyncAct abi T}
  {queued : List (AsyncExecute abi)}

/-- A step that neither adds nor runs a callback, and leaves the queue: what is under way may change. -/
theorem AsyncInv.turn (h : AsyncInv acts s queued) (hrun : asyncExecuted [a] = []) (hadd : asyncAdded [a] = [])
    (hqueue : s'.queue = s.queue) (hhand : s'.task.inHand = s.task.inHand) (hcur : s'.curState = s.curState)
    (hevent : s'.event = 0 ∨ s'.event = asyncTaskEventExe)
    (htaken : ∀ E, s'.task = .dispatch E → E = 0 ∨ E = asyncTaskEventExe) (hruns : s'.task ≠ .exited)
    (hpops : ∀ E, s'.task = .pop E → queued ≠ []) (hawake : queued ≠ [] → s'.Awake) :
    AsyncInv (acts ++ [a]) s' queued where
  made := hqueue ▸ h.made
  records := hqueue ▸ h.records
  order := by
    rw [asyncExecuted_snoc, asyncAdded_snoc, hrun, hadd, hhand, List.append_nil, List.append_nil]
    exact h.order
  event := hevent
  taken := htaken
  curState := hcur.trans h.curState
  runs := hruns
  pops := hpops
  awake := hawake

/-- Where an add finds room for its record, and memory for the node that it may need. -/
def AddHasRoom (s : AsyncTask abi T) : AsyncAct abi T → Prop
  | .push _ _ ok => s.queue.HasRoom ok (AsyncExecute.sizeof abi)
  | _ => True

/-- Where there is room, the push succeeds. -/
theorem AddHasRoom.succeeds (hmade : s.queue.OfTask) (h : AddHasRoom s a) : PushSucceeds s a := by
  cases a with
  | push t x ok =>
    have hsize := AsyncExecute.sizeof_bounds abi
    obtain ⟨ret, queue', k, hpush, -, -, -, hret, -⟩ :=
      commonBufferPush_room ok hmade (show x.bytes.length < 4294967296 by rw [AsyncExecute.bytes_length]; omega)
    rw [AsyncExecute.bytes_length] at hret
    obtain rfl := hret.2 h
    exact ⟨queue', hpush⟩
  | _ => trivial

variable [DecidableEq T]

/-- Every step keeps what holds. -/
theorem AsyncInv.step (h : AsyncInv acts s queued) (hs : AsyncStep s a s') (hok : PushSucceeds s a) :
    ∃ queued', AsyncInv (acts ++ [a]) s' queued' := by
  cases hs with
  | @push t x ok queue hidle hpush =>
    obtain ⟨queue', hq⟩ := hok
    obtain rfl : queue' = queue := by
      rw [asyncTaskPush, hq] at hpush
      exact Option.some.inj hpush
    obtain ⟨hmade, hrec⟩ := asyncTaskPush_eq h.made h.records hq
    refine ⟨queued ++ [x], hmade, hrec, ?_, h.event, h.taken, h.curState, h.runs, ?_, fun _ => ?_⟩
    · rw [asyncExecuted_snoc, asyncAdded_snoc, ← h.order]
      simp [asyncExecuted, asyncAdded]
    · simp
    · exact .inr (.inr ⟨t, Function.update_self ..⟩)
  | @setEvent t hadding =>
    have hset := commonSetEvent_exe h.event
    exact ⟨queued, h.turn rfl rfl rfl rfl rfl (.inr hset) h.taken h.runs h.pops fun _ => .inl hset⟩
  | takeBits htask hne =>
    have hwait := commonWaitEvent_exe h.event hne
    refine ⟨queued, h.turn rfl rfl rfl (by rw [htask]; rfl) rfl (.inl ?_) ?_ ?_ ?_ fun _ => .inr (.inl ?_)⟩
    · rw [hwait]
    · rintro E ⟨⟩
      exact .inr (by rw [hwait])
    · rintro ⟨⟩
    · rintro E ⟨⟩
    · exact congrArg Prod.fst hwait
  | takeNone htask =>
    refine ⟨queued, h.turn rfl rfl rfl (by rw [htask]; rfl) rfl h.event ?_ ?_ ?_ fun hne => ?_⟩
    · rintro E ⟨⟩
      exact .inl rfl
    · rintro ⟨⟩
    · rintro E ⟨⟩
    · exact (h.awake hne).keep (by rw [htask]; exact id) rfl rfl
  | @dispatch E htask =>
    rcases h.taken E htask with rfl | rfl
    · -- a timeout runs nothing
      have hgo : asyncTaskDispatch s.curState 0 = (.ackBits 0 : AsyncPc abi) := by
        rw [h.curState, asyncTaskDispatch_none]
      refine ⟨queued, h.turn rfl rfl rfl (by rw [htask, hgo]; rfl) rfl h.event ?_ ?_ ?_ fun hne => ?_⟩
      · rw [hgo]; rintro E ⟨⟩
      · rw [hgo]; rintro ⟨⟩
      · rw [hgo]; rintro E ⟨⟩
      · exact (h.awake hne).keep (by rw [htask]; exact fun h0 => by cases h0) rfl rfl
    · have hgo : asyncTaskDispatch s.curState asyncTaskEventExe = (.count asyncTaskEventExe : AsyncPc abi) := by
        rw [h.curState, asyncTaskDispatch_exe]
      refine ⟨queued, h.turn rfl rfl rfl (by rw [htask, hgo]; rfl) rfl h.event ?_ ?_ ?_ fun _ => .inr (.inl ?_)⟩
      · rw [hgo]; rintro E ⟨⟩
      · rw [hgo]; rintro ⟨⟩
      · rw [hgo]; rintro E ⟨⟩
      · rw [hgo]; trivial
  | @count E has htask hhas =>
    rw [asyncTaskHasRecord_eq h.made h.records] at hhas
    obtain rfl := Option.some.inj hhas
    by_cases hne : queued = []
    · refine ⟨queued, h.turn rfl rfl rfl ?_ rfl h.event ?_ ?_ ?_ fun hne' => absurd hne hne'⟩ <;>
        simp [hne, htask, AsyncPc.inHand]
    · refine ⟨queued, h.turn rfl rfl rfl ?_ rfl h.event ?_ ?_ (fun _ _ => hne) fun _ => .inr (.inl ?_)⟩ <;>
        simp [hne, htask, AsyncPc.inHand, AsyncPc.Working]
  | @pop E x queue htask hpop =>
    cases queued with
    | nil => exact absurd rfl (h.pops E htask)
    | cons y queued =>
      obtain ⟨queue', hpop', hmade, hrec⟩ := asyncTaskPop_eq h.made h.records
      rw [hpop'] at hpop
      obtain ⟨rfl, rfl⟩ := Prod.mk.inj (Option.some.inj hpop)
      refine ⟨queued, hmade, hrec, ?_, h.event, ?_, h.curState, ?_, ?_, fun _ => .inr (.inl trivial)⟩
      · have horder := h.order
        rw [htask] at horder
        rw [asyncExecuted_snoc, asyncAdded_snoc, ← horder]
        simp [asyncExecuted, asyncAdded, AsyncPc.inHand]
      · rintro E ⟨⟩
      · rintro ⟨⟩
      · rintro E ⟨⟩
  | @callback E x htask =>
    refine ⟨queued, h.made, h.records, ?_, h.event, ?_, h.curState, ?_, ?_, fun _ => .inr (.inl trivial)⟩
    · have horder := h.order
      rw [htask] at horder
      rw [asyncExecuted_snoc, asyncAdded_snoc, ← horder]
      simp [asyncExecuted, asyncAdded, AsyncPc.inHand]
    · rintro E ⟨⟩
    · rintro ⟨⟩
    · rintro E ⟨⟩
  | @recheck E has htask hhas =>
    rw [asyncTaskHasRecord_eq h.made h.records] at hhas
    obtain rfl := Option.some.inj hhas
    by_cases hne : queued = []
    · refine ⟨queued, h.turn rfl rfl rfl ?_ rfl h.event ?_ ?_ ?_ fun hne' => absurd hne hne'⟩ <;>
        simp [hne, htask, AsyncPc.inHand]
    · refine ⟨queued, h.turn rfl rfl rfl ?_ rfl h.event ?_ ?_ (fun _ _ => hne) fun _ => .inr (.inl ?_)⟩ <;>
        simp [hne, htask, AsyncPc.inHand, AsyncPc.Working]
  | @rearm E htask =>
    have hset := commonSetEvent_exe h.event
    refine ⟨queued, h.turn rfl rfl rfl (by rw [htask]; rfl) rfl (.inr hset) ?_ ?_ ?_ fun _ => .inl hset⟩
    · rintro E ⟨⟩
    · rintro ⟨⟩
    · rintro E ⟨⟩
  | @setAck E htask =>
    refine ⟨queued, h.turn rfl rfl rfl (by rw [htask]; rfl) rfl h.event ?_ ?_ ?_ fun hne => ?_⟩
    · rintro E ⟨⟩
    · rintro ⟨⟩
    · rintro E ⟨⟩
    · exact (h.awake hne).keep (by rw [htask]; exact id) rfl rfl

theorem asyncTask_inv (h : Steps (Restrict AsyncStep PushSucceeds) asyncTaskCreate acts s) :
    ∃ queued, AsyncInv acts s queued := by
  refine h.trace (P := fun acts s => ∃ queued, AsyncInv acts s queued) ⟨[], asyncTaskCreate_inv⟩ ?_
  rintro acts s a s' - ⟨queued, hinv⟩ ⟨hstep, hok⟩
  exact hinv.step hstep hok

/-- **No wake-up is lost**: whatever the order of the steps, the callbacks run and the records in the queue are those
added, and whenever the task is between two actions with no event set and no add between its two steps, the queue is
empty. -/
theorem asyncTask_no_wakeup_lost (h : Steps (Restrict AsyncStep PushSucceeds) asyncTaskCreate acts s) :
    ∃ queued, HoldsRecords s.queue queued ∧ asyncExecuted acts ++ s.task.inHand ++ queued = asyncAdded acts ∧
      (s.task.Between → s.event &&& asyncTaskEventExe = 0 → (∀ t, s.adding t = false) →
        queued = [] ∧ commonBufferGetCount s.queue = some 0) := by
  obtain ⟨queued, hinv⟩ := asyncTask_inv h
  refine ⟨queued, hinv.records, hinv.order, fun hbetween hevent hadding => ?_⟩
  have hempty : queued = [] := by
    by_contra hne
    rcases hinv.awake hne with hev | hw | ⟨t, ht⟩
    · rw [hev] at hevent
      exact absurd hevent (by decide)
    · cases htask : s.task <;> simp_all [AsyncPc.Between, AsyncPc.Working]
    · rw [hadding t] at ht
      cases ht
  refine ⟨hempty, ?_⟩
  obtain ⟨ns, hns⟩ := hinv.made.holds
  rw [hns.getCount, hinv.records.cells hns, hempty]
  rfl

/-- In a turn: the event is taken, the task stands at `pc`. -/
def AsyncTask.inTurn (s : AsyncTask abi T) (queue : CommonBuffer Byte) (pc : AsyncPc abi) : AsyncTask abi T :=
  { s with queue, event := 0, task := pc }

/-- A task that is woken runs the oldest record, and sets the event again exactly if there is another. -/
theorem AsyncTask.woken_runs {x : AsyncExecute abi} {xs : List (AsyncExecute abi)} (htask : s.task = .waitBits)
    (hevent : s.event = asyncTaskEventExe) (hcur : s.curState = asyncTaskStaIdle) (hmade : s.queue.OfTask)
    (hrec : HoldsRecords s.queue (x :: xs)) :
    ∃ queue, queue.OfTask ∧ HoldsRecords queue xs ∧ Steps (Restrict AsyncStep PushSucceeds) s
      [.takeBits asyncTaskEventExe, .dispatch, .count, .pop, .callback x, .recheck]
      (s.inTurn queue (if xs ≠ [] then .rearm asyncTaskEventExe else .ackBits asyncTaskEventExe)) := by
  obtain ⟨queue, hpop, hmade', hrec'⟩ := asyncTaskPop_eq hmade hrec
  have hwait : commonWaitEvent s.event comFsmEventAll = (asyncTaskEventExe, 0) := by rw [hevent]; decide
  have htake : AsyncStep s (.takeBits asyncTaskEventExe) (s.inTurn s.queue (.dispatch asyncTaskEventExe)) := by
    have h := AsyncStep.takeBits htask (by rw [hwait]; decide)
    rwa [hwait] at h
  have hdispatch : AsyncStep (s.inTurn s.queue (.dispatch asyncTaskEventExe)) .dispatch
      (s.inTurn s.queue (asyncTaskDispatch s.curState asyncTaskEventExe)) := .dispatch rfl
  rw [hcur, asyncTaskDispatch_exe] at hdispatch
  have hcount : AsyncStep (s.inTurn s.queue (.count asyncTaskEventExe)) .count
      (s.inTurn s.queue (if decide (x :: xs ≠ []) then .pop asyncTaskEventExe else .recheck asyncTaskEventExe)) :=
    .count rfl (asyncTaskHasRecord_eq hmade hrec)
  rw [if_pos (by simp)] at hcount
  have hpopped : AsyncStep (s.inTurn s.queue (.pop asyncTaskEventExe)) .pop
      (s.inTurn queue (.callback asyncTaskEventExe x)) := .pop rfl hpop
  have hcall : AsyncStep (s.inTurn queue (.callback asyncTaskEventExe x)) (.callback x)
      (s.inTurn queue (.recheck asyncTaskEventExe)) := .callback rfl
  have hrecheck : AsyncStep (s.inTurn queue (.recheck asyncTaskEventExe)) .recheck
      (s.inTurn queue (if decide (xs ≠ []) then .rearm asyncTaskEventExe else .ackBits asyncTaskEventExe)) :=
    .recheck rfl (asyncTaskHasRecord_eq hmade' hrec')
  simp only [decide_eq_true_eq] at hrecheck
  exact ⟨queue, hmade', hrec', .cons ⟨htake, trivial⟩ (.cons ⟨hdispatch, trivial⟩ (.cons ⟨hcount, trivial⟩
    (.cons ⟨hpopped, trivial⟩ (.cons ⟨hcall, trivial⟩ (.one ⟨hrecheck, trivial⟩)))))⟩

/-- With memory for its nodes a record is pushed while there is room for it. -/
theorem asyncTaskPush_room {queue : CommonBuffer Byte} {xs : List (AsyncExecute abi)} (x : AsyncExecute abi)
    (hmade : queue.OfTask) (hrec : HoldsRecords queue xs)
    (hroom : AsyncExecute.sizeof abi * xs.length + AsyncExecute.sizeof abi ≤ 655360) :
    ∃ queue', commonBufferPush (fun _ => true) queue x.bytes = some (.success, queue') ∧ queue'.OfTask ∧
      HoldsRecords queue' (xs ++ [x]) := by
  obtain ⟨ns, hns⟩ := hmade.holds
  have hsize := AsyncExecute.sizeof_bounds abi
  have hlen := AsyncExecute.bytes_length x
  obtain ⟨ret, queue', k, hpush, -, -, -, hret, -⟩ :=
    commonBufferPush_room (fun _ => true) hmade (show x.bytes.length < 4294967296 by omega)
  obtain rfl : ret = .success := by
    refine hret.2 ⟨⟨_, hns.getFreeCount, ?_⟩, ?_⟩
    · rw [hmade.max, hrec.cells hns, List.length_map, records_length, hlen]
      omega
    · rintro k ⟨-, ⟨⟩⟩
  exact ⟨queue', hpush, asyncTaskPush_eq hmade hrec hpush⟩

/-- Two records for a 32-bit task. -/
def oneAdded : AsyncExecute .ilp32 := ⟨0x20001000#32, 7#32, 0x08004321#32⟩
def otherAdded : AsyncExecute .ilp32 := ⟨0x20002000#32, 8#32, 0x08004321#32⟩

/-- Two threads add them before the task looks, so that both set the one bit; it wakes the task once, which runs the
first record, sets the bit again and runs the other. -/
def mergedActs : List (AsyncAct .ilp32 Bool) :=
  [.push false oneAdded fun _ => true, .push true otherAdded fun _ => true, .setEvent false, .setEvent true] ++
    [.takeBits asyncTaskEventExe, .dispatch, .count, .pop, .callback oneAdded, .recheck] ++ [.rearm, .setAck] ++
    [.takeBits asyncTaskEventExe, .dispatch, .count, .pop, .callback otherAdded, .recheck]

theorem merged_run : ∃ s : AsyncTask .ilp32 Bool,
    Steps (Restrict AsyncStep PushSucceeds) asyncTaskCreate mergedActs s ∧ s.task = .ackBits asyncTaskEventExe ∧
      s.event = 0 ∧ ∀ t, s.adding t = false := by
  have hinv : AsyncInv [] (asyncTaskCreate : AsyncTask .ilp32 Bool) [] := asyncTaskCreate_inv
  obtain ⟨queue₁, hpush₁, hmade₁, hrec₁⟩ := asyncTaskPush_room oneAdded hinv.made hinv.records (by decide)
  obtain ⟨queue₂, hpush₂, hmade₂, hrec₂⟩ := asyncTaskPush_room otherAdded hmade₁ hrec₁ (by decide)
  -- both have pushed, and one after the other they set the event
  let a₁ := Function.update (fun _ : Bool => false) false true
  let a₂ := Function.update a₁ true true
  let s₁ : AsyncTask .ilp32 Bool := ⟨queue₁, 0, 0, asyncTaskStaIdle, .waitBits, a₁⟩
  let s₂ : AsyncTask .ilp32 Bool := ⟨queue₂, 0, 0, asyncTaskStaIdle, .waitBits, a₂⟩
  let s₃ : AsyncTask .ilp32 Bool :=
    ⟨queue₂, commonSetEvent 0 asyncTaskEventExe, 0, asyncTaskStaIdle, .waitBits, Function.update a₂ false false⟩
  let s₄ : AsyncTask .ilp32 Bool :=
    ⟨queue₂, commonSetEvent (commonSetEvent 0 asyncTaskEventExe) asyncTaskEventExe, 0, asyncTaskStaIdle, .waitBits,
      Function.update (Function.update a₂ false false) true false⟩
  have h₁ : AsyncStep asyncTaskCreate (.push false oneAdded fun _ => true) s₁ :=
    .push rfl (congrArg (Option.map Prod.snd) hpush₁)
  have h₂ : AsyncStep s₁ (.push true otherAdded fun _ => true) s₂ :=
    .push rfl (congrArg (Option.map Prod.snd) hpush₂)
  have h₃ : AsyncStep s₂ (.setEvent false) s₃ := .setEvent rfl
  have h₄ : AsyncStep s₃ (.setEvent true) s₄ := .setEvent rfl
  have hadds : Steps (Restrict AsyncStep PushSucceeds) asyncTaskCreate _ s₄ :=
    .cons ⟨h₁, queue₁, hpush₁⟩ (.cons ⟨h₂, queue₂, hpush₂⟩ (.cons ⟨h₃, trivial⟩ (.one ⟨h₄, trivial⟩)))
  obtain ⟨queue₃, hmade₃, hrec₃, hfirst⟩ := @AsyncTask.woken_runs _ _ s₄ _ _ _ rfl
    (commonSetEvent_exe (.inr (commonSetEvent_exe (.inl rfl)))) rfl hmade₂ hrec₂
  -- the task sets the event again for the other record
  let s₅ := s₄.inTurn queue₃ (.rearm asyncTaskEventExe)
  let s₆ : AsyncTask .ilp32 Bool :=
    { s₅ with event := commonSetEvent 0 asyncTaskEventExe, task := .ackBits asyncTaskEventExe }
  let s₇ : AsyncTask .ilp32 Bool := { s₆ with
    eventAck := if asyncTaskEventExe ≠ comFsmEventNone then commonSetEvent 0 asyncTaskEventExe else 0
    task := .waitBits }
  have h₅ : AsyncStep s₅ .rearm s₆ := .rearm rfl
  have h₆ : AsyncStep s₆ .setAck s₇ := .setAck rfl
  have hrearm : Steps (Restrict AsyncStep PushSucceeds) s₅ _ s₇ := .cons ⟨h₅, trivial⟩ (.one ⟨h₆, trivial⟩)
  obtain ⟨queue₄, -, -, hsecond⟩ := @AsyncTask.woken_runs _ _ s₇ _ _ _ rfl
    (commonSetEvent_exe (.inl rfl)) rfl hmade₃ hrec₃
  refine ⟨_, ((hadds.append hfirst).append hrearm).append hsecond, rfl, rfl, ?_⟩
  intro t
  cases t <;> rfl

theorem asyncTask_no_wakeup_lost_merged :
    ∃ s : AsyncTask .ilp32 Bool, Steps (Restrict AsyncStep PushSucceeds) asyncTaskCreate mergedActs s ∧
      asyncExecuted mergedActs = [oneAdded, otherAdded] ∧ commonBufferGetCount s.queue = some 0 := by
  obtain ⟨s, hs, htask, hevent, hadding⟩ := merged_run
  obtain ⟨queued, -, horder, hempty⟩ := asyncTask_no_wakeup_lost hs
  have hbetween : s.task.Between := by
    rw [htask]
    trivial
  obtain ⟨rfl, hcount⟩ := hempty hbetween (by rw [hevent]; rfl) hadding
  exact ⟨s, hs, rfl, hcount⟩

/-! ## Records that are added in part -/

/-- An add returns 0 only if it has put its whole record behind what was queued. -/
def AddsWhole (ok : Nat → Bool) (queue : CommonBuffer Byte) (event : Word) (x : AsyncExecute abi) : Prop :=
  ∃ ret queue' event', asyncTaskAdd ok queue event x = some (ret, queue', event') ∧
    (ret = 0 → commonBufferBytes queue' = (commonBufferBytes queue).map (· ++ x.bytes.map some))

/-- In every run, adds that return 0 have added their records, what is queued is made of whole records that were
added, and the callbacks that run are those of adds. -/
def WholeRecords (step : AsyncTask abi T → AsyncAct abi T → AsyncTask abi T → Prop) : Prop :=
  ∀ acts s, Steps step asyncTaskCreate acts s →
    (∀ t x ok s', step s (.push t x ok) s' → AddsWhole ok s.queue s.event x) ∧
      ∃ queued, HoldsRecords s.queue queued ∧ asyncExecuted acts ++ s.task.inHand ++ queued = asyncAdded acts

/-- An add always returns 0, so that its record must be queued: it is where there was room for it. -/
theorem addsWhole_iff {queue : CommonBuffer Byte} (hmade : queue.OfTask) (ok : Nat → Bool) (event : Word)
    (x : AsyncExecute abi) : AddsWhole ok queue event x ↔ queue.HasRoom ok (AsyncExecute.sizeof abi) := by
  have hsize := AsyncExecute.sizeof_bounds abi
  have hlen := AsyncExecute.bytes_length x
  obtain ⟨ret, queue', k, hpush, -, hbytes, hle, -, hroom⟩ :=
    commonBufferPush_room ok hmade (show x.bytes.length < 4294967296 by omega)
  rw [hlen] at hroom
  have hadd : asyncTaskAdd ok queue event x = some (0, queue', commonSetEvent event asyncTaskEventExe) := by
    simp only [asyncTaskAdd, asyncTaskPush, hpush, Option.map_some, Option.bind_eq_bind, Option.bind_some]
  have hwhole : AddsWhole ok queue event x ↔
      commonBufferBytes queue' = (commonBufferBytes queue).map (· ++ x.bytes.map some) := by
    constructor
    · rintro ⟨ret, queue1, event1, hadd', h⟩
      rw [hadd] at hadd'
      cases hadd'
      exact h rfl
    · exact fun h => ⟨0, queue', _, hadd, fun _ => h⟩
  rw [hwhole, hbytes, ← hroom]
  obtain ⟨ns, hns⟩ := hmade.holds
  rw [hns.bytes, Option.map_some, Option.map_some, Option.some.injEq]
  constructor
  · intro heq
    have := congrArg List.length heq
    simp only [List.length_append, List.length_map, List.length_take] at this
    omega
  · rintro rfl
    rw [List.take_of_length_le (by omega)]

/-- Whatever is added in part, the queue itself stays well formed. -/
theorem AsyncStep.made (h : s.queue.OfTask) (hs : AsyncStep s a s') : s'.queue.OfTask := by
  have hsize := AsyncExecute.sizeof_bounds abi
  cases hs with
  | @push t x ok queue _ hpush =>
    obtain ⟨ret, queue', k, hpush', hmade, -⟩ :=
      commonBufferPush_room ok h (show x.bytes.length < 4294967296 by rw [AsyncExecute.bytes_length]; omega)
    rw [asyncTaskPush, hpush'] at hpush
    exact Option.some.inj hpush ▸ hmade
  | @pop E x queue _ hpop =>
    obtain ⟨ns, hns⟩ := h.holds
    obtain ⟨ret, queue', ns', hpop', hns', hnode, hmax, -⟩ :=
      commonBufferPop_spec hns true (k := AsyncExecute.sizeof abi) (by omega)
    simp only [asyncTaskPop, hpop', Option.bind_eq_bind, Option.bind_some] at hpop
    split at hpop
    · obtain ⟨out, -, hq⟩ := Option.bind_eq_some_iff.1 hpop
      obtain ⟨-, rfl⟩ := Prod.mk.inj (Option.some.inj hq)
      exact ⟨⟨ns', hns'⟩, hnode.trans h.node, hmax.trans h.max⟩
    · cases hpop
  | _ => exact h

/-- **Whole records**: in every run in which each add finds room and memory for its record, the queue is made of whole
records and every callback runs with the arguments of its add; in every state, an add that does not find them returns
0 and has not added its record. -/
theorem asyncTask_whole_records (abi : Abi) (T : Type*) [DecidableEq T] :
    WholeRecords (Restrict (AsyncStep : AsyncTask abi T → AsyncAct abi T → AsyncTask abi T → Prop) AddHasRoom) ∧
      ∀ s : AsyncTask abi T, Reach AsyncStep asyncTaskCreate s → ∀ ok (x : AsyncExecute abi),
        (AddsWhole ok s.queue s.event x ↔ s.queue.HasRoom ok (AsyncExecute.sizeof abi)) := by
  have hmade0 : (asyncTaskCreate : AsyncTask abi T).queue.OfTask := asyncTaskCreate_inv.made
  constructor
  · intro acts s hrun
    have hinv : ∃ queued, AsyncInv acts s queued := by
      refine hrun.trace (P := fun acts s => ∃ queued, AsyncInv acts s queued) ⟨[], asyncTaskCreate_inv⟩ ?_
      rintro acts s a s' - ⟨queued, hinv⟩ ⟨hstep, hroom⟩
      exact hinv.step hstep (hroom.succeeds hinv.made)
    obtain ⟨queued, hinv⟩ := hinv
    refine ⟨?_, queued, hinv.records, hinv.order⟩
    rintro t x ok s' ⟨-, hroom⟩
    exact (addsWhole_iff hinv.made ok s.event x).2 hroom
  · intro s hreach ok x
    have hmade := hreach.invariant (I := fun s => s.queue.OfTask) (fun _ _ _ hm hs => AsyncStep.made hm hs) hmade0
    exact addsWhole_iff hmade ok s.event x

/-- With no memory for the first node the first add returns 0, and nothing is queued. -/
theorem asyncTask_record_dropped :
    ¬ WholeRecords (AsyncStep : AsyncTask .ilp32 Unit → AsyncAct .ilp32 Unit → AsyncTask .ilp32 Unit → Prop) := by
  intro h
  have hstep : AsyncStep (asyncTaskCreate : AsyncTask .ilp32 Unit) (.push () oneAdded fun _ => false) _ :=
    .push rfl rfl
  have hwhole := (h [] asyncTaskCreate .nil).1 () oneAdded (fun _ => false) _ hstep
  rw [addsWhole_iff asyncTaskCreate_inv.made] at hwhole
  have := hwhole.2 0 ⟨by simp, rfl⟩
  exact absurd this (by decide)

end

end AudioPlayer

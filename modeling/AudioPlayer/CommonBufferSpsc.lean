import Mathlib
import AudioPlayer.Lib.Steps
import AudioPlayer.CommonBuffer
import AudioPlayer.RingBufferSpsc

/-!
# One producer and one consumer on the chained buffer (`utils/common_buffer.c:72-172`)

The download thread pushes into `http_buffer` and the player thread pops from it, without a lock. Here the
two calls are cut into their reads and writes of shared fields, one a step, with `ring_buffer_push` and
`ring_buffer_pop` in the steps of `RingBufferSpsc`, and the two threads take them in any order. A node is
never allocated at the address of a freed one, so an access to a freed node has no value.

| here | there |
| --- | --- |
| `CommonPush`, `commonPushStep` | the thread inside `common_buffer_push_inner` (`:72-111`) |
| `CommonPop`, `commonPopStep`   | the thread inside `common_buffer_pop_inner` (`:123-172`) |
| `PopCall`                      | what a pop was asked for, its locals, and the bytes it has delivered |

The popper frees the head when it has read a count of zero from it (`CommonPop.headCount`) and after that
a tail that is another node (`CommonPop.tailCompare`). The count says nothing any more once the pusher has
put bytes into that node, and the tail is another node once it has filled it: `FoundEmptyStaysEmpty`
excludes just the step that makes both happen in between.
-/

namespace AudioPlayer
open Lib

variable {α : Type}

/-- A call of `common_buffer_pop_inner`: its parameters, the count read at entry, `size` and `pos`, and the
bytes delivered so far (or passed over, without a destination). -/
structure PopCall (α : Type) where
  dst       : Bool
  requested : Nat
  count     : Int
  size      : Nat
  pos       : Nat := 0
  out       : List (Option α) := []
deriving DecidableEq

/-- The next statement of `common_buffer_push_inner`, with its locals; `rest` is `buffer[pos .. size)`. -/
inductive CommonPush (α : Type)
  | idle
  | entered (src : List α)
  | loop (rest : List α)
  | tailLoad (rest : List α)
  | tailFree (rest : List α) (tail : Nat)
  | create (rest : List α)
  | headCheck (rest : List α) (tmp : Nat)
  | firstTail (rest : List α) (tmp : Nat)
  | firstHead (rest : List α) (tmp : Nat)
  | lastLoad (rest : List α) (tmp : Nat)
  | link (rest : List α) (tmp tail : Nat)
  | tailStore (rest : List α) (tmp : Nat)
  | fillLoad (rest : List α)
  | fill (tail : Nat) (p : SpscPush α)
  | count (rest : List α) (len : Int)

/-- The next statement of `common_buffer_pop_inner`. -/
inductive CommonPop (α : Type)
  | idle
  | entered (dst : Bool) (requested : Nat)
  | headCheck (call : PopCall α)
  | loop (call : PopCall α)
  | drainLoad (call : PopCall α)
  | drain (call : PopCall α) (head : Nat) (c : SpscPop α)
  | count (call : PopCall α) (len : Int)
  | countLoad (call : PopCall α)
  | headCount (call : PopCall α) (head : Nat)
  | headLoad (call : PopCall α)
  | tailCompare (call : PopCall α) (head : Option Nat)
  | tmpLoad (call : PopCall α)
  | nextHead (call : PopCall α) (tmp : Nat)
  | nextLoad (call : PopCall α) (tmp head : Nat)
  | headStore (call : PopCall α) (tmp : Nat) (next : Option Nat)
  | nullCheck (call : PopCall α) (tmp : Nat)
  | tailClear (call : PopCall α) (tmp : Nat)
  | destroy (call : PopCall α) (tmp : Nat)
  | ret (call : PopCall α) (value : CommonBufferReturn)

/-- Where the pusher goes on after the statement `p` of `ring_buffer_push` that leads to `p'`. -/
def SpscPush.back (tail : Nat) : SpscPush α → SpscPush α → CommonPush α
  | .store src len, _ => .count (src.drop len.toNat) len
  | _, p' => .fill tail p'

/-- Where the popper goes on after the statement `c` of `ring_buffer_pop` that leads to `c'` and takes
`taken`. -/
def SpscPop.back (call : PopCall α) (head : Nat) (taken : List (Option α)) : SpscPop α → SpscPop α → CommonPop α
  | .store _ len, _ => .count { call with pos := call.pos + len.toNat, out := call.out ++ taken } len
  | _, c' => .drain call head c'

/-- One statement of `common_buffer_push_inner`; allocations succeed. -/
def commonPushStep (cb : CommonBuffer α) : CommonPush α → Option (CommonBuffer α × CommonPush α)
  | .idle => some (cb, .idle)
  -- `:77-82`
  | .entered src => do
    let freeCount ← commonBufferGetFreeCount cb
    some (cb, if src.length > toU32 freeCount then .idle else .loop src)
  -- `:84-86`
  | .loop [] => some (cb, .idle)
  | .loop (b :: rest) => some (cb, if cb.tail = none then .create (b :: rest) else .tailLoad (b :: rest))
  | .tailLoad rest => do
    let tail ← cb.tail
    some (cb, .tailFree rest tail)
  | .tailFree rest tail => do
    let free ← ringBufferGetFreeCount (← load? cb.heap tail).buffer
    some (cb, if free ≤ 0 then .create rest else .fillLoad rest)
  -- `:88-93`
  | .create rest => do
    let node ← commonBufferCreateNode true (toU32 cb.nodeSize)
    some ({ cb with heap := cb.heap ++ [some node] }, .headCheck rest cb.heap.length)
  -- `:95-100`; the right assignment of `head = tail = tmp` comes first
  | .headCheck rest tmp => some (cb, if cb.head = none then .firstTail rest tmp else .lastLoad rest tmp)
  | .firstTail rest tmp => some ({ cb with tail := some tmp }, .firstHead rest tmp)
  | .firstHead rest tmp => some ({ cb with head := some tmp }, .fillLoad rest)
  | .lastLoad rest tmp => do
    let tail ← cb.tail
    some (cb, .link rest tmp tail)
  | .link rest tmp tail => do
    let last ← load? cb.heap tail
    let heap ← store? cb.heap tail { last with next := some tmp }
    some ({ cb with heap }, .tailStore rest tmp)
  | .tailStore rest tmp => some ({ cb with tail := some tmp }, .fillLoad rest)
  -- `:104-106`
  | .fillLoad rest => do
    let tail ← cb.tail
    some (cb, .fill tail (.entered rest))
  | .fill tail p => do
    let node ← load? cb.heap tail
    let (buffer, p') ← pushStep node.buffer p
    let heap ← store? cb.heap tail { node with buffer }
    some ({ cb with heap }, p.back tail p')
  | .count rest len => do
    let writeCount ← counterAdd cb.writeCount len cb.maxSize
    some ({ cb with writeCount }, .loop rest)

/-- One statement of `common_buffer_pop_inner`. -/
def commonPopStep (cb : CommonBuffer α) : CommonPop α → Option (CommonBuffer α × CommonPop α)
  | .idle => some (cb, .idle)
  -- `:129-136`
  | .entered dst requested => do
    let count ← commonBufferGetCount cb
    let size := if (requested : Int) > toU32 count then (toU32 count).toNat else requested
    some (cb, .headCheck { dst, requested, count, size })
  | .headCheck call => some (cb, if cb.head = none then .ret call .errEmpty else .loop call)
  -- `:141-146`
  | .loop call =>
    if call.pos < call.size then
      some (cb, if cb.head = none then .ret call .errEmpty else .drainLoad call)
    else some (cb, .ret call .success)
  -- `:148-154`
  | .drainLoad call => do
    let head ← cb.head
    some (cb, .drain call head (.entered call.dst (call.size - call.pos : Nat)))
  | .drain call head c => do
    let node ← load? cb.heap head
    let (buffer, c') ← popStep node.buffer c
    let heap ← store? cb.heap head { node with buffer }
    some ({ cb with heap }, c.back call head (c.taken node.buffer) c')
  | .count call len => do
    let readCount ← counterAdd cb.readCount len cb.maxSize
    some ({ cb with readCount }, .countLoad call)
  -- `:156`
  | .countLoad call => do
    let head ← cb.head
    some (cb, .headCount call head)
  | .headCount call head => do
    let count ← ringBufferGetCount (← load? cb.heap head).buffer
    some (cb, if count ≤ 0 then .headLoad call else .loop call)
  | .headLoad call => some (cb, .tailCompare call cb.head)
  | .tailCompare call head => some (cb, if head ≠ cb.tail then .tmpLoad call else .loop call)
  -- `:158-165`
  | .tmpLoad call => do
    let tmp ← cb.head
    some (cb, .nextHead call tmp)
  | .nextHead call tmp => do
    let head ← cb.head
    some (cb, .nextLoad call tmp head)
  | .nextLoad call tmp head => do
    let node ← load? cb.heap head
    some (cb, .headStore call tmp node.next)
  | .headStore call tmp next => some ({ cb with head := next }, .nullCheck call tmp)
  | .nullCheck call tmp => some (cb, if cb.head = none then .tailClear call tmp else .destroy call tmp)
  | .tailClear call tmp => some ({ cb with tail := none }, .destroy call tmp)
  | .destroy call tmp => do
    let heap ← free? cb.heap tmp
    some ({ cb with heap }, .loop call)
  -- `:169-171`
  | .ret _ _ => some (cb, .idle)

def CommonPush.accepted : CommonPush α → List α
  | .fill _ p => p.accepted
  | _ => []

def CommonPop.taken (cb : CommonBuffer α) : CommonPop α → List (Option α)
  | .drain _ head c => ((load? cb.heap head).map fun node => c.taken node.buffer).getD []
  | _ => []

def CommonPop.ended : CommonPop α → List (PopCall α)
  | .ret call _ => [call]
  | _ => []

/-- A chained buffer, the two threads on it, the bytes moved so far and the pops that have returned. -/
structure CommonSpsc (α : Type) where
  buffer   : CommonBuffer α
  producer : CommonPush α
  consumer : CommonPop α
  pushed   : List α
  popped   : List (Option α)
  returned : List (PopCall α)

def CommonSpsc.produce (s : CommonSpsc α) : Option (CommonSpsc α) :=
  (commonPushStep s.buffer s.producer).map fun r =>
    { s with buffer := r.1, producer := r.2, pushed := s.pushed ++ s.producer.accepted }

def CommonSpsc.consume (s : CommonSpsc α) : Option (CommonSpsc α) :=
  (commonPopStep s.buffer s.consumer).map fun r =>
    { s with
      buffer := r.1
      consumer := r.2
      popped := s.popped ++ s.consumer.taken s.buffer
      returned := s.returned ++ s.consumer.ended }

/-- Who takes a step. Sizes are `uint32_t`. -/
inductive CommonSpscAct (α : Type)
  | push (src : { l : List α // l.length < 4294967296 })
  | pop (dst : Bool) (size : Fin 4294967296)
  | producer
  | consumer

/-- A thread that is in no call makes one, or a thread in a call executes its next statement. -/
inductive CommonSpscStep : CommonSpsc α → CommonSpscAct α → CommonSpsc α → Prop
  | push {s : CommonSpsc α} {src : { l : List α // l.length < 4294967296 }} (h : s.producer = .idle) :
    CommonSpscStep s (.push src) { s with producer := .entered src }
  | pop {s : CommonSpsc α} {dst : Bool} {size : Fin 4294967296} (h : s.consumer = .idle) :
    CommonSpscStep s (.pop dst size) { s with consumer := .entered dst size }
  | producer {s t : CommonSpsc α} (h : s.produce = some t) : CommonSpscStep s .producer t
  | consumer {s t : CommonSpsc α} (h : s.consume = some t) : CommonSpscStep s .consumer t

def CommonSpsc.started (cb : CommonBuffer α) : CommonSpsc α := ⟨cb, .idle, .idle, [], [], []⟩

/-- What the two threads may rely on in a state. -/
structure CommonSpsc.Safe (s : CommonSpsc α) : Prop where
  push_defined : s.produce.isSome
  pop_defined  : s.consume.isSome
  /-- What was popped is a beginning of what was pushed, and is what the calls have delivered. -/
  in_order     : s.popped <+: s.pushed.map some
  no_early_free : ∀ call tmp node, s.consumer = .destroy call tmp → load? s.buffer.heap tmp = some node →
    node.buffer.count = 0
  /-- A pop that has returned has delivered what it was asked for, or what it counted at entry if that is
  less. -/
  delivered    : ∀ call ∈ s.returned, 0 ≤ call.count ∧ call.out.length = min call.requested call.count.toNat
  /-- The pops have delivered the popped bytes, one after the other. -/
  out_order    : s.returned.flatMap PopCall.out <+: s.popped

def IsConsumer : CommonSpscAct α → Bool
  | .consumer => true
  | _ => false

/-- In every run of `step` from `s`, the pop under way has returned after so many steps of its thread. -/
def CommonSpsc.Returns (step : CommonSpsc α → CommonSpscAct α → CommonSpsc α → Prop) (s : CommonSpsc α) : Prop :=
  ∃ n, ∀ as t, Steps step s as t → n < as.countP IsConsumer → s.returned.length < t.returned.length

/-- Between its two tests of the head the popper has read a count of zero from it. -/
def CommonPop.FoundEmpty : CommonPop α → Prop
  | .headLoad _ | .tailCompare _ _ => True
  | _ => False

/-- The pusher does not move the tail off the node that the popper has found empty, if it has put bytes
into that node since. -/
def FoundEmptyStaysEmpty (s : CommonSpsc α) : CommonSpscAct α → Prop
  | .producer => ∀ rest tmp head node, s.producer = .tailStore rest tmp → s.consumer.FoundEmpty →
      s.buffer.head = some head → s.buffer.tail = some head → load? s.buffer.heap head = some node →
      node.buffer.count = 0
  | _ => True

end AudioPlayer

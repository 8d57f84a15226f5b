import Mathlib
import AudioPlayer.Lib.CInt
import AudioPlayer.Lib.Cursor
import AudioPlayer.Lib.Heap

/-!
# The play queue (`src/audio_queue.c`)

| here | there |
| --- | --- |
| `AudioQueue`, `AudioQueueNode` | `audio_queue_t`, `audio_queue_node_t` (`audio_queue.h:17-32`), with their heap |
| `audioQueueClear`              | `audio_queue_clear` (`audio_queue.c:39-63`) |
| `audioQueuePush`               | `audio_queue_push` (`:65-101`) |
| `audioQueuePop`                | `audio_queue_pop` (`:103-140`) |
| `audioQueueGetCurrent`         | `audio_queue_get_current` (`:147-169`) |
| `audioQueueMovePrev`, `audioQueueMoveNext` | `audio_queue_move_prev`, `audio_queue_move_next` (`:171-223`) |

Every call holds the queue's mutex, so calls do not overlap. A read of a freed node has no value, nor has a `count`
that leaves `int`; a value means that the call returned. `P` is what a `player_info` pointer points to.

`PlayQueue` is what the queue is for: a list and a place in it. `audioQueueRun_refines` is about every sequence of
calls.
-/

namespace AudioPlayer
open Lib

variable {P : Type}

inductive AudioQueueReturn
  | success | errEmpty | errParam | errMalloc | errMove
deriving DecidableEq, Repr

/-- `audio_queue_node_t`. -/
structure AudioQueueNode (P : Type) where
  playerInfo : Option P
  pre        : Option Nat
  next       : Option Nat
deriving DecidableEq

/-- `audio_queue_t` and the heap of nodes. -/
structure AudioQueue (P : Type) where
  count : Int
  head  : Option Nat
  tail  : Option Nat
  curr  : Option Nat
  heap  : List (Option (AudioQueueNode P))
deriving DecidableEq

/-- `audio_queue_init` (`audio_queue.c:6-15`). -/
def audioQueueInit : AudioQueue P := ⟨0, none, none, none, []⟩

/-- What a call answers: its return value, what it writes through `pp_player_info`, and what it frees. -/
structure AudioQueueAnswer (P : Type) where
  ret        : AudioQueueReturn
  playerInfo : Option (Option P) := none
  freed      : List P := []
deriving DecidableEq

/-- The loop of `audio_queue_clear` (`audio_queue.c:45-54`): the infos freed. -/
def audioQueueClearLoop : Nat → AudioQueue P → Option (List P × AudioQueue P)
  | 0, queue => if queue.head = none then some ([], queue) else none
  | fuel + 1, queue =>
    match queue.head with
    | none => some ([], queue)
    | some tmp => do
      let node ← load? queue.heap tmp
      let heap ← free? queue.heap tmp
      let (freed, queue) ← audioQueueClearLoop fuel { queue with heap, head := node.next }
      some (node.playerInfo.toList ++ freed, queue)

/-- `audio_queue_clear`. -/
def audioQueueClear (queue : AudioQueue P) : Option (AudioQueueAnswer P × AudioQueue P) := do
  let (freed, queue) ← audioQueueClearLoop queue.heap.length queue
  some ({ ret := .success, freed }, { queue with count := 0, head := none, tail := none, curr := none })

/-- The new node behind the tail (`audio_queue.c:82-92`). -/
def audioQueueLink (queue : AudioQueue P) (playerInfo : P) : Option (AudioQueue P) :=
  let tmp := queue.heap.length
  let heap := queue.heap ++ [some ⟨some playerInfo, queue.tail, none⟩]
  match queue.head with
  | none => some { queue with heap, head := some tmp, tail := some tmp }
  | some _ => do
    let tail ← queue.tail
    let last ← load? heap tail
    let heap ← store? heap tail { last with next := some tmp }
    some { queue with heap, tail := some tmp }

/-- `audio_queue_push`; `ok` says whether its allocation succeeds. -/
def audioQueuePush (ok : Bool) (queue : AudioQueue P) (playerInfo : Option P) :
    Option (AudioQueueAnswer P × AudioQueue P) :=
  match playerInfo with
  | none => some ({ ret := .errParam }, queue)
  | some playerInfo =>
    if ok then do
      let queue ← audioQueueLink queue playerInfo
      let count ← int32? (queue.count + 1)
      some ({ ret := .success }, { queue with count })
    else some ({ ret := .errMalloc }, queue)

/-- `audio_queue_pop`; `dst` says whether `pp_player_info` is given. -/
def audioQueuePop (queue : AudioQueue P) (dst : Bool) : Option (AudioQueueAnswer P × AudioQueue P) :=
  match queue.head with
  | none => some ({ ret := .errEmpty }, queue)
  | some tmp => do
    let node ← load? queue.heap tmp
    let queue ← match node.next with
      | none => some { queue with head := none, tail := none }
      | some head => do
        let first ← load? queue.heap head
        let heap ← store? queue.heap head { first with pre := none }
        some { queue with heap, head := some head }
    let count ← int32? (queue.count - 1)
    let node ← load? queue.heap tmp
    let curr := if some tmp = queue.curr then none else queue.curr
    let heap ← free? queue.heap tmp
    some ({ ret := .success, playerInfo := if dst then some node.playerInfo else none },
      { queue with count, curr, heap })

/-- What `curr` points to, through `pp_player_info` (`audio_queue.c:162-163`, `:190-192`, `:217-219`). -/
def audioQueueInfo (queue : AudioQueue P) (curr : Nat) (dst : Bool) : Option (AudioQueueAnswer P) :=
  if dst then do
    let node ← load? queue.heap curr
    some { ret := .success, playerInfo := some node.playerInfo }
  else some { ret := .success }

/-- `audio_queue_get_current`. -/
def audioQueueGetCurrent (queue : AudioQueue P) (dst : Bool) : Option (AudioQueueAnswer P × AudioQueue P) :=
  if dst then
    match queue.curr with
    | none => some ({ ret := .errEmpty }, queue)
    | some curr => (audioQueueInfo queue curr dst).map (·, queue)
  else some ({ ret := .errParam }, queue)

/-- The end of both moves, from the new `curr` (`audio_queue.c:184-192`, `:210-219`). -/
def audioQueueMoved (queue : AudioQueue P) (dst : Bool) : Option (AudioQueueAnswer P × AudioQueue P) :=
  match queue.curr with
  | none => some ({ ret := .errMove }, queue)
  | some curr => (audioQueueInfo queue curr dst).map (·, queue)

/-- `audio_queue_move_prev`. -/
def audioQueueMovePrev (queue : AudioQueue P) (dst : Bool) : Option (AudioQueueAnswer P × AudioQueue P) := do
  let curr ← match queue.curr with
    | some curr => (load? queue.heap curr).map AudioQueueNode.pre
    | none => some queue.tail
  audioQueueMoved { queue with curr } dst

/-- `audio_queue_move_next`. -/
def audioQueueMoveNext (queue : AudioQueue P) (dst : Bool) : Option (AudioQueueAnswer P × AudioQueue P) := do
  let curr ← match queue.curr with
    | some curr => (load? queue.heap curr).map AudioQueueNode.next
    | none => some queue.head
  audioQueueMoved { queue with curr } dst

inductive AudioQueueCall (P : Type)
  | push (ok : Bool) (playerInfo : Option P)
  | pop (dst : Bool)
  | clear
  | moveNext (dst : Bool)
  | movePrev (dst : Bool)
  | getCurrent (dst : Bool)

def audioQueueCall (queue : AudioQueue P) : AudioQueueCall P → Option (AudioQueueAnswer P × AudioQueue P)
  | .push ok playerInfo => audioQueuePush ok queue playerInfo
  | .pop dst => audioQueuePop queue dst
  | .clear => audioQueueClear queue
  | .moveNext dst => audioQueueMoveNext queue dst
  | .movePrev dst => audioQueueMovePrev queue dst
  | .getCurrent dst => audioQueueGetCurrent queue dst

/-- The calls one after the other. -/
def audioQueueRun (queue : AudioQueue P) : List (AudioQueueCall P) → Option (List (AudioQueueAnswer P) × AudioQueue P)
  | [] => some ([], queue)
  | call :: calls => do
    let (answer, queue) ← audioQueueCall queue call
    let (answers, queue) ← audioQueueRun queue calls
    some (answer :: answers, queue)

/-! ## A list and a place in it -/

/-- The items, oldest first, and the one that is played, if any. -/
structure PlayQueue (P : Type) where
  items  : List P
  cursor : Option (Fin items.length)

namespace PlayQueue

def empty : PlayQueue P := ⟨[], none⟩

def push (s : PlayQueue P) (x : P) : PlayQueue P :=
  ⟨s.items ++ [x], s.cursor.map fun i => i.castLE (by simp)⟩

/-- Without the oldest item. -/
def rest (s : PlayQueue P) : PlayQueue P :=
  ⟨s.items.tail, s.cursor.bind fun i =>
    if h : 0 < i.val then some ⟨i.val - 1, by rw [List.length_tail]; omega⟩ else none⟩

/-- The item that is played. -/
def current (s : PlayQueue P) : Option P := s.cursor.map fun i => s.items[i]

def moveTo (s : PlayQueue P) (cursor : Option (Fin s.items.length)) (dst : Bool) : AudioQueueAnswer P × PlayQueue P :=
  let s : PlayQueue P := ⟨s.items, cursor⟩
  match s.current with
  | none => ({ ret := .errMove }, s)
  | some x => ({ ret := .success, playerInfo := if dst then some (some x) else none }, s)

def call (s : PlayQueue P) : AudioQueueCall P → AudioQueueAnswer P × PlayQueue P
  | .push _ none => ({ ret := .errParam }, s)
  | .push false (some _) => ({ ret := .errMalloc }, s)
  | .push true (some x) => ({ ret := .success }, s.push x)
  | .pop dst =>
    match s.items.head? with
    | none => ({ ret := .errEmpty }, s)
    | some x => ({ ret := .success, playerInfo := if dst then some (some x) else none }, s.rest)
  | .clear => ({ ret := .success, freed := s.items }, empty)
  | .moveNext dst => s.moveTo (Cursor.next s.cursor) dst
  | .movePrev dst => s.moveTo (Cursor.prev s.cursor) dst
  | .getCurrent true =>
    match s.current with
    | none => ({ ret := .errEmpty }, s)
    | some x => ({ ret := .success, playerInfo := some (some x) }, s)
  | .getCurrent false => ({ ret := .errParam }, s)

def run (s : PlayQueue P) : List (AudioQueueCall P) → List (AudioQueueAnswer P) × PlayQueue P
  | [] => ([], s)
  | call :: calls =>
    let (answer, s) := s.call call
    let (answers, s) := s.run calls
    (answer :: answers, s)

end PlayQueue

/-! ## The nodes under the list -/

/-- `queue` is `s`, made of the nodes `ns`: linked one way from the head and the other way from the tail, with the
items in them, as many as `count` says, and `curr` is the node at the cursor. -/
structure AudioQueue.Holds (queue : AudioQueue P) (s : PlayQueue P) (ns : List (Nat × AudioQueueNode P)) : Prop where
  forward  : Linked AudioQueueNode.next queue.heap queue.head ns
  backward : Linked AudioQueueNode.pre queue.heap queue.tail ns.reverse
  nodup    : (ns.map Prod.fst).Nodup
  infos    : ns.map (fun n => n.2.playerInfo) = s.items.map some
  count    : queue.count = s.items.length
  curr     : queue.curr = s.cursor.bind fun i => (ns.map Prod.fst)[i.val]?
  small    : s.items.length < 2147483648

theorem audioQueueInit_holds : (audioQueueInit : AudioQueue P).Holds .empty [] :=
  ⟨rfl, rfl, .nil, rfl, rfl, rfl, by simp [PlayQueue.empty]⟩

section
variable {queue queue' : AudioQueue P} {s s' : PlayQueue P} {ns : List (Nat × AudioQueueNode P)}

namespace AudioQueue.Holds

theorem length_eq (h : queue.Holds s ns) : ns.length = s.items.length := by
  simpa using congrArg List.length h.infos

/-- The node at a place of the list, and what it links to. -/
theorem node (h : queue.Holds s ns) (i : Fin s.items.length) :
    ∃ a n, (ns.map Prod.fst)[i.val]? = some a ∧ load? queue.heap a = some n ∧ n.playerInfo = some s.items[i] ∧
      n.next = (ns.map Prod.fst)[i.val + 1]? ∧ n.pre = if 0 < i.val then (ns.map Prod.fst)[i.val - 1]? else none := by
  have hlen := h.length_eq
  have hi : i.val < ns.length := by omega
  rcases hn : ns[i.val] with ⟨a, n⟩
  have hget : ns[i.val]? = some (a, n) := by rw [List.getElem?_eq_getElem hi, hn]
  refine ⟨a, n, ?_, h.forward.load (List.mem_of_getElem? hget), ?_, h.forward.next_eq hget, ?_⟩
  · rw [List.getElem?_map, hget, Option.map_some]
  · have hinfo := congrArg (·[i.val]?) h.infos
    simp only [List.getElem?_map, hget, Option.map_some] at hinfo
    rw [List.getElem?_eq_getElem i.isLt, Option.map_some, Option.some.injEq] at hinfo
    exact hinfo
  · have hrev : ns.reverse[ns.length - 1 - i.val]? = some (a, n) := by
      rw [List.getElem?_reverse (by omega), ← hget]
      congr 1
      omega
    rw [h.backward.next_eq hrev, List.map_reverse]
    split
    · rw [List.getElem?_reverse (by rw [List.length_map]; omega), List.length_map]
      congr 1
      omega
    · rw [List.getElem?_eq_none]
      rw [List.length_reverse, List.length_map]
      omega

/-- The list from the other end. -/
theorem tail_eq (h : queue.Holds s ns) : queue.tail = (ns.map Prod.fst).getLast? := by
  rw [h.backward.head_eq, List.map_reverse, ← List.head?_eq_getElem?, List.head?_reverse]

/-- Where the cursor is none, so is `curr`. -/
theorem curr_none (h : queue.Holds s ns) : queue.curr = none ↔ s.cursor = none := by
  rw [h.curr]
  cases hc : s.cursor with
  | none => simp
  | some i =>
    obtain ⟨a, n, ha, -⟩ := h.node i
    rw [Option.bind_some, ha]
    simp

end AudioQueue.Holds

/-- The new node is linked both ways. -/
theorem audioQueueLink_spec (h : queue.Holds s ns) (x : P) :
    ∃ queue' ns', audioQueueLink queue x = some queue' ∧ queue'.count = queue.count ∧ queue'.curr = queue.curr ∧
      Linked AudioQueueNode.next queue'.heap queue'.head ns' ∧
      Linked AudioQueueNode.pre queue'.heap queue'.tail ns'.reverse ∧
      ns'.map Prod.fst = ns.map Prod.fst ++ [queue.heap.length] ∧
      ns'.map (fun n => n.2.playerInfo) = ns.map (fun n => n.2.playerInfo) ++ [some x] := by
  rcases List.eq_nil_or_concat ns with rfl | ⟨ms, ⟨t, last⟩, rfl⟩
  · have hhead : queue.head = none := h.forward
    have htail : queue.tail = none := h.backward
    have hlink : audioQueueLink queue x = some { queue with
        heap := queue.heap ++ [some ⟨some x, none, none⟩], head := some queue.heap.length,
        tail := some queue.heap.length } := by
      simp only [audioQueueLink, hhead, htail]
    refine ⟨_, [(queue.heap.length, ⟨some x, none, none⟩)], hlink, rfl, rfl, ?_, ?_, rfl, rfl⟩
    · exact ⟨rfl, load?_append_self, rfl⟩
    · exact ⟨rfl, load?_append_self, rfl⟩
  · rw [List.concat_eq_append] at h ⊢
    have htail : queue.tail = some t := by rw [h.tail_eq]; simp
    have hload : load? queue.heap t = some last := h.forward.load (by simp)
    have ht : t ∉ ms.map Prod.fst := by
      have := h.nodup
      simp only [List.map_append, List.map_cons, List.map_nil, List.nodup_append] at this
      exact fun hmem => this.2.2 t hmem t (by simp) rfl
    obtain ⟨head, hhead⟩ : ∃ head, queue.head = some head := by
      rw [h.forward.head_eq]
      exact ⟨_, List.getElem?_eq_getElem (by simp)⟩
    have hback := h.backward
    rw [List.reverse_append, List.reverse_singleton, List.singleton_append] at hback
    have hforward : Linked AudioQueueNode.next
        ((queue.heap ++ [some (⟨some x, some t, none⟩ : AudioQueueNode P)]).set t
          (some { last with next := some queue.heap.length })) queue.head
        (ms ++ [(t, { last with next := some queue.heap.length }), (queue.heap.length, ⟨some x, some t, none⟩)]) :=
      h.forward.alloc_snoc ht rfl rfl
    have hlink : audioQueueLink queue x = some { queue with
        heap := (queue.heap ++ [some (⟨some x, some t, none⟩ : AudioQueueNode P)]).set t
          (some { last with next := some queue.heap.length }),
        tail := some queue.heap.length } := by
      simp only [audioQueueLink, hhead, htail, Option.bind_eq_bind, Option.bind_some, load?_append hload,
        store?_eq (load?_append hload _)]
    refine ⟨_, _, hlink, rfl, rfl, hforward, ?_, ?_, ?_⟩
    · rw [List.reverse_append, List.reverse_cons, List.reverse_singleton, List.append_assoc]
      have hlt := load?_lt hload
      refine ⟨rfl, (load?_set_ne (by omega) _).trans load?_append_self, ?_⟩
      exact htail ▸ (hback.append _).store_head (by simpa using ht) rfl
    · simp
    · simp

/-- **Push**: one more item at the end. -/
theorem audioQueuePush_spec (h : queue.Holds s ns) (x : P) (hsmall : s.items.length + 1 < 2147483648) :
    ∃ queue' ns', audioQueuePush true queue (some x) = some ({ ret := .success }, queue') ∧
      queue'.Holds (s.push x) ns' := by
  obtain ⟨queue1, ns', hlink, hcount, hcurr, hforward, hbackward, haddr, hinfos⟩ := audioQueueLink_spec h x
  have hint : int32? (queue1.count + 1) = some (queue1.count + 1) := by
    have := h.count
    exact int32?_eq (by omega) (by omega)
  have hpush : audioQueuePush true queue (some x) =
      some ({ ret := .success }, { queue1 with count := queue1.count + 1 }) := by
    simp only [audioQueuePush, if_true, hlink, Option.bind_eq_bind, Option.bind_some, hint]
  refine ⟨_, ns', hpush, hforward, hbackward, ?_, ?_, ?_, ?_, ?_⟩
  · rw [haddr]
    refine List.nodup_append.2 ⟨h.nodup, by simp, ?_⟩
    rintro i hi _ hj rfl
    rw [List.mem_singleton] at hj
    exact absurd (h.forward.lt hi) (by omega)
  · rw [hinfos, h.infos, PlayQueue.push, List.map_append, List.map_singleton]
  · have := h.count
    simp only [PlayQueue.push, List.length_append, List.length_singleton]
    push_cast
    omega
  · have hlen := h.length_eq
    change queue1.curr = _
    rw [hcurr, h.curr, haddr, PlayQueue.push]
    cases s.cursor with
    | none => rfl
    | some i =>
      have hi := i.isLt
      simp only [Option.map_some, Option.bind_some, Fin.val_castLE]
      rw [List.getElem?_append_left (by rw [List.length_map]; omega)]
  · simpa [PlayQueue.push] using hsmall

/-- One more than an `int` counts. -/
theorem audioQueuePush_overflow (h : queue.Holds s ns) (x : P) (hlarge : 2147483648 ≤ s.items.length + 1) :
    audioQueuePush true queue (some x) = none := by
  obtain ⟨queue1, ns', hlink, hcount, -⟩ := audioQueueLink_spec h x
  have hint : int32? (queue1.count + 1) = none := by
    have := h.count
    have := h.small
    rw [int32?, if_neg (by omega)]
  simp only [audioQueuePush, if_true, hlink, Option.bind_eq_bind, Option.bind_some, hint, Option.bind_none]

/-- **Pop**: the oldest item, and a cursor on it is lost. -/
theorem audioQueuePop_spec (h : queue.Holds s ns) (dst : Bool) :
    ∃ queue' ns', audioQueuePop queue dst = some ((s.call (.pop dst)).1, queue') ∧
      queue'.Holds (s.call (.pop dst)).2 ns' := by
  have hinfos := h.infos
  rcases ns with _ | ⟨⟨i, n⟩, ms⟩
  · have hhead : queue.head = none := h.forward
    have hitems : s.items = [] := by simpa using hinfos.symm
    have hcall : s.call (.pop dst) = ({ ret := .errEmpty }, s) := by
      simp only [PlayQueue.call, hitems, List.head?_nil]
    rw [hcall]
    refine ⟨queue, [], ?_, h⟩
    simp only [audioQueuePop, hhead]
  · have hhead : queue.head = some i := h.forward.1
    have hload : load? queue.heap i = some n := h.forward.2.1
    obtain ⟨hi, hnd⟩ := List.nodup_cons.1 h.nodup
    obtain ⟨x, xs, hitems⟩ : ∃ x xs, s.items = x :: xs := by
      cases hxs : s.items with
      | nil => rw [hxs] at hinfos; simp at hinfos
      | cons x xs => exact ⟨x, xs, rfl⟩
    rw [hitems, List.map_cons, List.map_cons, List.cons.injEq] at hinfos
    have hcall : s.call (.pop dst) =
        ({ ret := .success, playerInfo := if dst then some (some x) else none }, s.rest) := by
      simp only [PlayQueue.call, hitems, List.head?_cons]
    have hcount : int32? (queue.count - 1) = some (queue.count - 1) := by
      have hlen := h.count
      have := h.small
      rw [hitems, List.length_cons] at *
      exact int32?_eq (by omega) (by omega)
    -- the cursor moves down with the items
    have hcursor : (if some i = queue.curr then none else queue.curr) =
        s.rest.cursor.bind fun k => (ms.map Prod.fst)[k.val]? := by
      rw [h.curr, PlayQueue.rest]
      cases s.cursor with
      | none => simp
      | some k =>
        have hk := k.isLt
        have hlen := h.length_eq
        rw [List.length_cons] at hlen
        simp only [Option.bind_some, List.map_cons]
        by_cases h0 : 0 < k.val
        · obtain ⟨j, hj⟩ : ∃ j, k.val = j + 1 := ⟨k.val - 1, by omega⟩
          have hjlt : j < (ms.map Prod.fst).length := by
            rw [List.length_map]
            omega
          have hget : (ms.map Prod.fst)[j]? = some (ms.map Prod.fst)[j] := List.getElem?_eq_getElem hjlt
          rw [dif_pos h0, Option.bind_some]
          simp only [hj, List.getElem?_cons_succ, Nat.add_sub_cancel]
          rw [if_neg]
          rw [hget, Option.some.injEq]
          rintro rfl
          exact hi (List.getElem_mem _)
        · have hk0 : k.val = 0 := by omega
          rw [dif_neg h0]
          simp [hk0]
    have hrest : s.rest.items.length = ms.length := by
      have hlen := h.length_eq
      rw [List.length_cons] at hlen
      rw [PlayQueue.rest, List.length_tail]
      omega
    have hrestInfos : ms.map (fun n => n.2.playerInfo) = s.rest.items.map some := by
      change _ = s.items.tail.map some
      rw [hitems]
      exact hinfos.2
    have hinfo : n.playerInfo = some x := hinfos.1
    have hrestCount : queue.count - 1 = s.rest.items.length := by
      have hlen := h.length_eq
      rw [List.length_cons] at hlen
      rw [h.count, hrest]
      omega
    have hrestSmall : s.rest.items.length < 2147483648 := by
      have := h.small
      have hlen := h.length_eq
      rw [List.length_cons] at hlen
      omega
    rw [hcall]
    rcases ms with _ | ⟨⟨j, m⟩, rest⟩
    · have hnext : n.next = none := h.forward.2.2
      have hpop : audioQueuePop queue dst =
          some ({ ret := .success, playerInfo := if dst then some (some x) else none },
            { queue with count := queue.count - 1, head := none, tail := none,
                         curr := if some i = queue.curr then none else queue.curr,
                         heap := queue.heap.set i none }) := by
        simp only [audioQueuePop, hhead, hload, hnext, hcount, free?_eq hload, hinfo, Option.bind_eq_bind,
          Option.bind_some]
      exact ⟨_, [], hpop, rfl, rfl, .nil, hrestInfos, hrestCount, hcursor, hrestSmall⟩
    · have hnext : n.next = some j := h.forward.2.2.1
      have hloadj : load? queue.heap j = some m := h.forward.2.2.2.1
      have hij : j ≠ i := fun hji => hi (by simp [hji])
      obtain ⟨hj, -⟩ := List.nodup_cons.1 hnd
      have hload' : load? (queue.heap.set j (some { m with pre := none })) i = some n :=
        (load?_set_ne hij _).trans hload
      have hpop : audioQueuePop queue dst =
          some ({ ret := .success, playerInfo := if dst then some (some x) else none },
            { queue with count := queue.count - 1, head := some j,
                         curr := if some i = queue.curr then none else queue.curr,
                         heap := (queue.heap.set j (some { m with pre := none })).set i none }) := by
        simp only [audioQueuePop, hhead, hload, hnext, hloadj, store?_eq hloadj, hcount, hload', free?_eq hload',
          hinfo, Option.bind_eq_bind, Option.bind_some]
      have hback := h.backward
      rw [List.reverse_cons, List.reverse_cons, List.append_assoc, List.singleton_append] at hback
      have hforward : Linked AudioQueueNode.next (queue.heap.set j (some { m with pre := none })) (some j)
          ((j, { m with pre := none }) :: rest) := (hnext ▸ h.forward.2.2).store_head hj rfl
      have hbackward : Linked AudioQueueNode.pre (queue.heap.set j (some { m with pre := none })) queue.tail
          (rest.reverse ++ [(j, { m with pre := none })]) := hback.cut (by simpa using hj) rfl
      refine ⟨_, (j, { m with pre := none }) :: rest, hpop, hforward.store hi none, ?_, hnd, hrestInfos, hrestCount,
        hcursor, hrestSmall⟩
      rw [List.reverse_cons]
      refine hbackward.store ?_ none
      simpa [and_comm, or_comm, eq_comm] using hi

theorem audioQueueClearLoop_spec {fuel : Nat} (hfuel : ns.length ≤ fuel)
    (h : Linked AudioQueueNode.next queue.heap queue.head ns) (hnd : (ns.map Prod.fst).Nodup) :
    ∃ heap, audioQueueClearLoop fuel queue =
      some (ns.flatMap fun n => n.2.playerInfo.toList, { queue with heap, head := none }) := by
  induction fuel generalizing queue ns with
  | zero =>
    obtain rfl : ns = [] := List.length_eq_zero_iff.1 (by omega)
    have hhead : queue.head = none := h
    exact ⟨queue.heap, by cases queue; simp_all [audioQueueClearLoop]⟩
  | succ fuel ih =>
    rcases ns with _ | ⟨⟨i, n⟩, ns⟩
    · have hhead : queue.head = none := h
      exact ⟨queue.heap, by cases queue; simp_all [audioQueueClearLoop]⟩
    · have hhead : queue.head = some i := h.1
      obtain ⟨hi, hnd⟩ := List.nodup_cons.1 hnd
      obtain ⟨heap, hloop⟩ := @ih { queue with heap := queue.heap.set i none, head := n.next } ns
        (by simpa using hfuel) (h.free_head hi) hnd
      refine ⟨heap, ?_⟩
      simp only [audioQueueClearLoop, hhead, h.2.1, free?_eq h.2.1, hloop, Option.bind_eq_bind, Option.bind_some,
        List.flatMap_cons]

/-- **Clear**: every item is freed, oldest first. -/
theorem audioQueueClear_spec (h : queue.Holds s ns) :
    ∃ queue', audioQueueClear queue = some ({ ret := .success, freed := s.items }, queue') ∧
      queue'.Holds .empty [] := by
  obtain ⟨heap, hloop⟩ := audioQueueClearLoop_spec (h.forward.length_le h.nodup) h.forward h.nodup
  have hfreed : (ns.flatMap fun n => n.2.playerInfo.toList) = s.items := by
    have hmap : (ns.flatMap fun n => n.2.playerInfo.toList) =
        (ns.map fun n => n.2.playerInfo).flatMap Option.toList := by rw [List.flatMap_map]
    rw [hmap, h.infos, List.flatMap_map]
    exact List.flatMap_singleton' s.items
  refine ⟨{ queue with count := 0, head := none, tail := none, curr := none, heap }, ?_, rfl, rfl, .nil, rfl, rfl,
    rfl, by simp [PlayQueue.empty]⟩
  simp only [audioQueueClear, hloop, hfreed, Option.bind_eq_bind, Option.bind_some]

/-- The cursor elsewhere. -/
theorem AudioQueue.Holds.withCurr (h : queue.Holds s ns) {curr : Option Nat} {cursor : Option (Fin s.items.length)}
    (hcurr : curr = cursor.bind fun i => (ns.map Prod.fst)[i.val]?) :
    AudioQueue.Holds { queue with curr } ⟨s.items, cursor⟩ ns :=
  ⟨h.forward, h.backward, h.nodup, h.infos, h.count, hcurr, h.small⟩

/-- The end of a move, with the cursor moved. -/
theorem audioQueueMoved_spec (h : queue.Holds s ns) (dst : Bool) :
    audioQueueMoved queue dst = some ((s.moveTo s.cursor dst).1, queue) := by
  have hcurr := h.curr
  cases hc : s.cursor with
  | none =>
    rw [hc, Option.bind_none] at hcurr
    simp only [audioQueueMoved, hcurr, PlayQueue.moveTo, PlayQueue.current, Option.map_none]
  | some i =>
    obtain ⟨a, n, ha, hload, hinfo, -⟩ := h.node i
    rw [hc, Option.bind_some, ha] at hcurr
    cases dst <;>
      simp [audioQueueMoved, hcurr, audioQueueInfo, hload, hinfo, PlayQueue.moveTo, PlayQueue.current]

theorem PlayQueue.moveTo_snd (s : PlayQueue P) (cursor : Option (Fin s.items.length)) (dst : Bool) :
    (s.moveTo cursor dst).2 = ⟨s.items, cursor⟩ := by
  unfold PlayQueue.moveTo
  dsimp only
  split <;> rfl

/-- What a move comes to, from what it sets `curr` to. -/
theorem AudioQueue.Holds.moved (h : queue.Holds s ns) {curr : Option Nat} {cursor : Option (Fin s.items.length)}
    (hcurr : curr = cursor.bind fun i => (ns.map Prod.fst)[i.val]?) (dst : Bool) :
    audioQueueMoved { queue with curr } dst = some ((s.moveTo cursor dst).1, { queue with curr }) ∧
      AudioQueue.Holds { queue with curr } (s.moveTo cursor dst).2 ns := by
  have h' := h.withCurr hcurr
  rw [PlayQueue.moveTo_snd]
  exact ⟨audioQueueMoved_spec h' dst, h'⟩

/-- **Move on.** -/
theorem audioQueueMoveNext_spec (h : queue.Holds s ns) (dst : Bool) :
    ∃ curr, audioQueueMoveNext queue dst = some ((s.call (.moveNext dst)).1, { queue with curr }) ∧
      AudioQueue.Holds { queue with curr } (s.call (.moveNext dst)).2 ns := by
  have hlen := h.length_eq
  have hcurr := h.curr
  cases hc : s.cursor with
  | none =>
    rw [hc, Option.bind_none] at hcurr
    have hhead : queue.head = (Cursor.next s.cursor).bind fun i => (ns.map Prod.fst)[i.val]? := by
      rw [h.forward.head_eq, hc]
      by_cases h0 : 0 < s.items.length
      · rw [Cursor.next, dif_pos h0, Option.bind_some]
      · rw [Cursor.next, dif_neg h0, Option.bind_none, List.getElem?_eq_none]
        rw [List.length_map]
        omega
    obtain ⟨hmoved, hholds⟩ := h.moved hhead dst
    refine ⟨queue.head, ?_, hholds⟩
    simp only [audioQueueMoveNext, hcurr, Option.bind_eq_bind, Option.bind_some]
    exact hmoved
  | some i =>
    obtain ⟨a, n, ha, hload, -, hnext, -⟩ := h.node i
    rw [hc, Option.bind_some, ha] at hcurr
    have hmove : n.next = (Cursor.next s.cursor).bind fun i => (ns.map Prod.fst)[i.val]? := by
      rw [hnext, hc]
      by_cases h1 : i.val + 1 < s.items.length
      · rw [Cursor.next, dif_pos h1, Option.bind_some]
      · rw [Cursor.next, dif_neg h1, Option.bind_none, List.getElem?_eq_none]
        rw [List.length_map]
        omega
    obtain ⟨hmoved, hholds⟩ := h.moved hmove dst
    refine ⟨n.next, ?_, hholds⟩
    simp only [audioQueueMoveNext, hcurr, hload, Option.map_some, Option.bind_eq_bind, Option.bind_some]
    exact hmoved

/-- **Move back.** -/
theorem audioQueueMovePrev_spec (h : queue.Holds s ns) (dst : Bool) :
    ∃ curr, audioQueueMovePrev queue dst = some ((s.call (.movePrev dst)).1, { queue with curr }) ∧
      AudioQueue.Holds { queue with curr } (s.call (.movePrev dst)).2 ns := by
  have hlen := h.length_eq
  have hcurr := h.curr
  cases hc : s.cursor with
  | none =>
    rw [hc, Option.bind_none] at hcurr
    have htail : queue.tail = (Cursor.prev s.cursor).bind fun i => (ns.map Prod.fst)[i.val]? := by
      rw [h.tail_eq, List.getLast?_eq_getElem?, List.length_map, hlen, hc]
      by_cases h0 : 0 < s.items.length
      · rw [Cursor.prev, dif_pos h0, Option.bind_some]
      · rw [Cursor.prev, dif_neg h0, Option.bind_none, List.getElem?_eq_none]
        rw [List.length_map]
        omega
    obtain ⟨hmoved, hholds⟩ := h.moved htail dst
    refine ⟨queue.tail, ?_, hholds⟩
    simp only [audioQueueMovePrev, hcurr, Option.bind_eq_bind, Option.bind_some]
    exact hmoved
  | some i =>
    obtain ⟨a, n, ha, hload, -, -, hpre⟩ := h.node i
    rw [hc, Option.bind_some, ha] at hcurr
    have hmove : n.pre = (Cursor.prev s.cursor).bind fun i => (ns.map Prod.fst)[i.val]? := by
      rw [hpre, hc]
      by_cases h0 : 0 < i.val
      · rw [Cursor.prev, if_pos h0, if_pos h0, Option.bind_some]
      · rw [Cursor.prev, if_neg h0, if_neg h0, Option.bind_none]
    obtain ⟨hmoved, hholds⟩ := h.moved hmove dst
    refine ⟨n.pre, ?_, hholds⟩
    simp only [audioQueueMovePrev, hcurr, hload, Option.map_some, Option.bind_eq_bind, Option.bind_some]
    exact hmoved

/-- **The current item.** -/
theorem audioQueueGetCurrent_spec (h : queue.Holds s ns) (dst : Bool) :
    audioQueueGetCurrent queue dst = some ((s.call (.getCurrent dst)).1, queue) ∧
      (s.call (.getCurrent dst)).2 = s := by
  have hcurr := h.curr
  cases dst with
  | false => exact ⟨rfl, rfl⟩
  | true =>
    cases hc : s.cursor with
    | none =>
      rw [hc, Option.bind_none] at hcurr
      simp [audioQueueGetCurrent, hcurr, PlayQueue.call, PlayQueue.current, hc]
    | some i =>
      obtain ⟨a, n, ha, hload, hinfo, -⟩ := h.node i
      rw [hc, Option.bind_some, ha] at hcurr
      simp [audioQueueGetCurrent, hcurr, audioQueueInfo, hload, hinfo, PlayQueue.call, PlayQueue.current, hc]

/-! ## Every sequence of calls -/

/-- A call answers as the list does, unless it would be the `2^31`-th item. -/
theorem audioQueueCall_spec (h : queue.Holds s ns) (call : AudioQueueCall P)
    (hsmall : (s.call call).2.items.length < 2147483648) :
    ∃ queue' ns', audioQueueCall queue call = some ((s.call call).1, queue') ∧ queue'.Holds (s.call call).2 ns' := by
  cases call with
  | push ok playerInfo =>
    cases playerInfo with
    | none => exact ⟨queue, ns, rfl, h⟩
    | some x =>
      cases ok with
      | false => exact ⟨queue, ns, rfl, h⟩
      | true => exact audioQueuePush_spec h x (by simpa [PlayQueue.call, PlayQueue.push] using hsmall)
  | pop dst => exact audioQueuePop_spec h dst
  | clear =>
    obtain ⟨queue', hclear, h'⟩ := audioQueueClear_spec h
    exact ⟨queue', [], hclear, h'⟩
  | moveNext dst =>
    obtain ⟨curr, hmove, h'⟩ := audioQueueMoveNext_spec h dst
    exact ⟨_, ns, hmove, h'⟩
  | movePrev dst =>
    obtain ⟨curr, hmove, h'⟩ := audioQueueMovePrev_spec h dst
    exact ⟨_, ns, hmove, h'⟩
  | getCurrent dst =>
    obtain ⟨hget, hs⟩ := audioQueueGetCurrent_spec h dst
    exact ⟨queue, ns, hget, hs.symm ▸ h⟩

/-- A call that returns has left what an `int` can count. -/
theorem audioQueueCall_returns (h : queue.Holds s ns) {call : AudioQueueCall P} {answer : AudioQueueAnswer P}
    (hcall : audioQueueCall queue call = some (answer, queue')) : (s.call call).2.items.length < 2147483648 := by
  by_contra hlarge
  cases call with
  | push ok playerInfo =>
    rcases playerInfo with _ | x
    · exact hlarge h.small
    · cases ok with
      | false => exact hlarge h.small
      | true =>
        have := audioQueuePush_overflow h x (by simpa [PlayQueue.call, PlayQueue.push] using hlarge)
        rw [audioQueueCall, this] at hcall
        cases hcall
  | pop dst =>
    obtain ⟨_, _, -, h'⟩ := audioQueuePop_spec h dst
    exact hlarge h'.small
  | clear => exact hlarge (by simp [PlayQueue.call, PlayQueue.empty])
  | moveNext dst =>
    obtain ⟨_, -, h'⟩ := audioQueueMoveNext_spec h dst
    exact hlarge h'.small
  | movePrev dst =>
    obtain ⟨_, -, h'⟩ := audioQueueMovePrev_spec h dst
    exact hlarge h'.small
  | getCurrent dst =>
    rw [(audioQueueGetCurrent_spec h dst).2] at hlarge
    exact hlarge h.small

/-- Calls that return have kept what holds, and answered as the list does. -/
theorem audioQueueRun_holds {calls : List (AudioQueueCall P)} {answers : List (AudioQueueAnswer P)}
    (h : queue.Holds s ns) (hrun : audioQueueRun queue calls = some (answers, queue')) :
    answers = (s.run calls).1 ∧ ∃ ns', queue'.Holds (s.run calls).2 ns' := by
  induction calls generalizing queue s ns answers with
  | nil =>
    obtain ⟨rfl, rfl⟩ := Prod.mk.inj (Option.some.inj hrun)
    exact ⟨rfl, ns, h⟩
  | cons call calls ih =>
    simp only [audioQueueRun, Option.bind_eq_bind, Option.bind_eq_some_iff, Prod.exists, Option.some.injEq,
      Prod.mk.injEq] at hrun
    obtain ⟨answer, queue1, hcall, answers1, queue2, hrest, rfl, rfl⟩ := hrun
    obtain ⟨queue3, ns', hcall', h'⟩ := audioQueueCall_spec h call (audioQueueCall_returns h hcall)
    rw [hcall] at hcall'
    obtain ⟨rfl, rfl⟩ := Prod.mk.inj (Option.some.inj hcall')
    obtain ⟨rfl, hns⟩ := ih h' hrest
    exact ⟨rfl, hns⟩

/-- At no point of the calls are there `2^31` items. -/
def PlayQueue.Countable (s : PlayQueue P) (calls : List (AudioQueueCall P)) : Prop :=
  ∀ pre, pre <+: calls → (s.run pre).2.items.length < 2147483648

theorem audioQueueRun_spec {calls : List (AudioQueueCall P)} (h : queue.Holds s ns) (hsmall : s.Countable calls) :
    ∃ queue' ns', audioQueueRun queue calls = some ((s.run calls).1, queue') ∧ queue'.Holds (s.run calls).2 ns' := by
  induction calls generalizing queue s ns with
  | nil => exact ⟨queue, ns, rfl, h⟩
  | cons call calls ih =>
    obtain ⟨queue1, ns1, hcall, h1⟩ :=
      audioQueueCall_spec h call (hsmall [call] (List.cons_prefix_cons.2 ⟨rfl, List.nil_prefix⟩))
    obtain ⟨queue', ns', hrun, h'⟩ :=
      ih h1 fun pre hpre => hsmall (call :: pre) (List.cons_prefix_cons.2 ⟨rfl, hpre⟩)
    refine ⟨queue', ns', ?_, h'⟩
    simp only [audioQueueRun, hcall, hrun, Option.bind_eq_bind, Option.bind_some]
    rfl

/-- A call adds at most one item. -/
theorem PlayQueue.call_length_le (s : PlayQueue P) (call : AudioQueueCall P) :
    (s.call call).2.items.length ≤ s.items.length + 1 := by
  cases call with
  | push ok playerInfo =>
    rcases playerInfo with _ | x
    · simp [PlayQueue.call]
    · cases ok <;> simp [PlayQueue.call, PlayQueue.push]
  | pop dst =>
    cases hx : s.items.head? with
    | none => simp [PlayQueue.call, hx]
    | some x => simp only [PlayQueue.call, hx, PlayQueue.rest, List.length_tail]; omega
  | clear => simp [PlayQueue.call, PlayQueue.empty]
  | moveNext dst => simp [PlayQueue.call, PlayQueue.moveTo_snd]
  | movePrev dst => simp [PlayQueue.call, PlayQueue.moveTo_snd]
  | getCurrent dst =>
    cases dst with
    | false => simp [PlayQueue.call]
    | true => cases hx : s.current <;> simp [PlayQueue.call, hx]

/-- Fewer than `2^31` calls stay countable. -/
theorem PlayQueue.countable_of_length {calls : List (AudioQueueCall P)}
    (h : s.items.length + calls.length < 2147483648) : s.Countable calls := by
  intro pre hpre
  have hle : ∀ (calls : List (AudioQueueCall P)) (s : PlayQueue P),
      (s.run calls).2.items.length ≤ s.items.length + calls.length := by
    intro calls
    induction calls with
    | nil => exact fun _ => le_rfl
    | cons call calls ih =>
      intro s
      have h1 := s.call_length_le call
      have h2 := ih (s.call call).2
      change ((s.call call).2.run calls).2.items.length ≤ _
      rw [List.length_cons]
      omega
  have := hle pre s
  have := hpre.length_le
  omega

theorem PlayQueue.run_pushes (s : PlayQueue P) (x : P) (k : Nat) :
    (s.run (List.replicate k (.push true (some x)))).2.items.length = s.items.length + k := by
  induction k generalizing s with
  | zero => rfl
  | succ k ih =>
    change ((s.push x).run (List.replicate k (.push true (some x)))).2.items.length = _
    rw [ih, PlayQueue.push, List.length_append, List.length_singleton]
    omega

/-- **The play queue is a list with a place in it**: as long as there are fewer than `2^31` items, every sequence of
calls returns, answers as the list does, and leaves the nodes linked both ways in the order of the items. -/
theorem audioQueueRun_refines (calls : List (AudioQueueCall P)) (hsmall : PlayQueue.empty.Countable calls) :
    ∃ queue ns, audioQueueRun audioQueueInit calls = some ((PlayQueue.empty.run calls).1, queue) ∧
      queue.Holds (PlayQueue.empty.run calls).2 ns :=
  audioQueueRun_spec audioQueueInit_holds hsmall

/-- Two items, a cursor on the first that is popped, and a push of nothing. -/
def cursorPopped : List (AudioQueueCall Nat) :=
  [.push true (some 1), .push true (some 2), .moveNext true, .pop true, .getCurrent true, .push true none]

theorem audioQueueRun_refines_popped :
    ∃ queue ns, audioQueueRun (audioQueueInit : AudioQueue Nat) cursorPopped =
        some ((PlayQueue.empty.run cursorPopped).1, queue) ∧
      queue.Holds (PlayQueue.empty.run cursorPopped).2 ns :=
  audioQueueRun_refines cursorPopped (PlayQueue.countable_of_length (by decide))

/-- The push of the `2^31`-th item takes `count` out of `int`. -/
theorem audioQueueRun_overflow :
    audioQueueRun (audioQueueInit : AudioQueue Unit) (List.replicate 2147483648 (.push true (some ()))) = none := by
  have hlength := PlayQueue.run_pushes (.empty : PlayQueue Unit) () 2147483648
  generalize hcalls : List.replicate 2147483648 (AudioQueueCall.push true (some ())) = calls at hlength ⊢
  cases hrun : audioQueueRun audioQueueInit calls with
  | none => rfl
  | some r =>
    obtain ⟨-, ns, h⟩ := audioQueueRun_holds audioQueueInit_holds hrun
    have := h.small
    omega

/-! ## The laws of the cursor -/

/-- What a move to a place of the list answers. -/
def PlayQueue.answerAt (items : List P) (cursor : Option (Fin items.length)) (dst : Bool) : AudioQueueAnswer P :=
  (PlayQueue.moveTo ⟨items, none⟩ cursor dst).1

/-- The call moves the cursor by `f` and changes nothing else. -/
def Moves (items : List P) (ns : List (Nat × AudioQueueNode P)) (dst : Bool) (call : AudioQueueCall P)
    (f : Option (Fin items.length) → Option (Fin items.length)) : Prop :=
  ∀ (queue : AudioQueue P) c, queue.Holds ⟨items, c⟩ ns →
    ∃ curr, audioQueueCall queue call = some (PlayQueue.answerAt items (f c) dst, { queue with curr }) ∧
      AudioQueue.Holds { queue with curr } ⟨items, f c⟩ ns

theorem moves_next (items : List P) (ns : List (Nat × AudioQueueNode P)) (dst : Bool) :
    Moves items ns dst (.moveNext dst) Cursor.next := by
  intro queue c h
  obtain ⟨curr, hcall, h'⟩ := audioQueueMoveNext_spec h dst
  rw [PlayQueue.call, PlayQueue.moveTo_snd] at h'
  exact ⟨curr, hcall, h'⟩

theorem moves_prev (items : List P) (ns : List (Nat × AudioQueueNode P)) (dst : Bool) :
    Moves items ns dst (.movePrev dst) Cursor.prev := by
  intro queue c h
  obtain ⟨curr, hcall, h'⟩ := audioQueueMovePrev_spec h dst
  rw [PlayQueue.call, PlayQueue.moveTo_snd] at h'
  exact ⟨curr, hcall, h'⟩

/-- The cursor decides `curr`. -/
theorem AudioQueue.Holds.curr_eq {curr : Option Nat} (h : queue.Holds s ns)
    (h' : AudioQueue.Holds { queue with curr } s ns) : { queue with curr } = queue := by
  have hcurr : curr = queue.curr := h'.curr.trans h.curr.symm
  rw [hcurr]

section
variable {items : List P} {dst dst' : Bool} {call call' : AudioQueueCall P}
  {f g : Option (Fin items.length) → Option (Fin items.length)} {c : Option (Fin items.length)}

/-- A move and one that undoes it. -/
theorem Moves.inverse (hf : Moves items ns dst call f) (hg : Moves items ns dst' call' g) (hgf : ∀ c, g (f c) = c)
    (h : queue.Holds ⟨items, c⟩ ns) :
    ∃ answer answer' queue', audioQueueCall queue call = some (answer, queue') ∧
      audioQueueCall queue' call' = some (answer', queue) := by
  obtain ⟨curr, hcall, h1⟩ := hf queue c h
  obtain ⟨curr', hcall', h2⟩ := hg _ _ h1
  rw [hgf] at h2
  have hback : { queue with curr := curr' } = queue := h.curr_eq h2
  exact ⟨_, _, _, hcall, hcall'.trans (by rw [hback])⟩

/-- The same move over and over. -/
theorem Moves.iterate (hf : Moves items ns dst call f) (k : Nat) (h : queue.Holds ⟨items, c⟩ ns) :
    ∃ curr, audioQueueRun queue (List.replicate k call) =
        some ((List.range k).map fun j => PlayQueue.answerAt items (f^[j + 1] c) dst, { queue with curr }) ∧
      AudioQueue.Holds { queue with curr } ⟨items, f^[k] c⟩ ns := by
  induction k generalizing queue c with
  | zero => exact ⟨queue.curr, rfl, h⟩
  | succ k ih =>
    obtain ⟨curr, hcall, h1⟩ := hf queue c h
    obtain ⟨curr', hrun, h2⟩ := ih h1
    refine ⟨curr', ?_, h2⟩
    simp only [List.replicate_succ, audioQueueRun, hcall, hrun, Option.bind_eq_bind, Option.bind_some,
      List.range_succ_eq_map, List.map_cons, List.map_map]
    rfl

/-- Around as many places as there are. -/
theorem Moves.around (hf : Moves items ns dst call f) (hround : ∀ c, f^[items.length + 1] c = c)
    (h : queue.Holds ⟨items, c⟩ ns) :
    ∃ answers, audioQueueRun queue (List.replicate (items.length + 1) call) = some (answers, queue) := by
  obtain ⟨curr, hrun, h'⟩ := hf.iterate (items.length + 1) h
  rw [hround] at h'
  rw [h.curr_eq h'] at hrun
  exact ⟨_, hrun⟩

end

/-- From none, the moves come to the items one after the other, and then to none. -/
theorem Moves.visit {items xs : List P} {call : AudioQueueCall P}
    {f : Option (Fin items.length) → Option (Fin items.length)} (hf : Moves items ns true call f)
    (hround : ∀ c, f^[items.length + 1] c = c) (hlen : xs.length = items.length)
    (hxs : ∀ k, k < items.length → ∃ i : Fin items.length, f^[k + 1] none = some i ∧ xs[k]? = some items[i])
    (h : queue.Holds ⟨items, none⟩ ns) :
    audioQueueRun queue (List.replicate (items.length + 1) call) =
      some (xs.map (fun x => { ret := .success, playerInfo := some (some x) }) ++ [{ ret := .errMove }], queue) := by
  obtain ⟨curr, hrun, h'⟩ := hf.iterate (items.length + 1) h
  rw [hround] at h'
  rw [h.curr_eq h'] at hrun
  rw [hrun, List.range_succ, List.map_append, List.map_singleton, hround]
  have hvisit : (List.range items.length).map (fun j => PlayQueue.answerAt items (f^[j + 1] none) true) =
      xs.map fun x => { ret := .success, playerInfo := some (some x) } := by
    apply List.ext_getElem?
    intro k
    by_cases hk : k < items.length
    · obtain ⟨i, hi, hx⟩ := hxs k hk
      rw [List.getElem?_map, List.getElem?_map, List.getElem?_range hk, hx, Option.map_some, Option.map_some, hi]
      rfl
    · rw [List.getElem?_eq_none (by rw [List.length_map, List.length_range]; omega),
        List.getElem?_eq_none (by rw [List.length_map]; omega)]
  rw [hvisit]
  rfl

/-- The laws of the cursor of a queue of these items: moving on and moving back undo each other, one more move than
there are items comes around, and from none the moves on come to the items in order, the moves back in the reverse
order, and the next one fails. -/
structure AudioQueue.CursorLaws (queue : AudioQueue P) (items : List P) : Prop where
  next_prev   : ∀ dst dst', ∃ answer answer' queue', audioQueueCall queue (.moveNext dst) = some (answer, queue') ∧
    audioQueueCall queue' (.movePrev dst') = some (answer', queue)
  prev_next   : ∀ dst dst', ∃ answer answer' queue', audioQueueCall queue (.movePrev dst) = some (answer, queue') ∧
    audioQueueCall queue' (.moveNext dst') = some (answer', queue)
  around_next : ∀ dst, ∃ answers,
    audioQueueRun queue (List.replicate (items.length + 1) (.moveNext dst)) = some (answers, queue)
  around_prev : ∀ dst, ∃ answers,
    audioQueueRun queue (List.replicate (items.length + 1) (.movePrev dst)) = some (answers, queue)
  visit_next  : queue.curr = none →
    audioQueueRun queue (List.replicate (items.length + 1) (.moveNext true)) =
      some (items.map (fun x => { ret := .success, playerInfo := some (some x) }) ++ [{ ret := .errMove }], queue)
  visit_prev  : queue.curr = none →
    audioQueueRun queue (List.replicate (items.length + 1) (.movePrev true)) =
      some (items.reverse.map (fun x => { ret := .success, playerInfo := some (some x) }) ++ [{ ret := .errMove }],
        queue)

/-- **The laws of the cursor** hold in every queue that calls lead to, whatever its cursor. -/
theorem audioQueue_cursor {calls : List (AudioQueueCall P)} {answers : List (AudioQueueAnswer P)}
    (hreach : audioQueueRun audioQueueInit calls = some (answers, queue)) :
    ∃ s ns, queue.Holds s ns ∧ queue.CursorLaws s.items := by
  obtain ⟨-, ns, h⟩ := audioQueueRun_holds audioQueueInit_holds hreach
  generalize (PlayQueue.empty.run calls).2 = s at h
  obtain ⟨items, cursor⟩ := s
  refine ⟨_, ns, h, ?_, ?_, ?_, ?_, ?_, ?_⟩
  · exact fun dst dst' => (moves_next items ns dst).inverse (moves_prev items ns dst') Cursor.prev_next h
  · exact fun dst dst' => (moves_prev items ns dst).inverse (moves_next items ns dst') Cursor.next_prev h
  · exact fun dst => (moves_next items ns dst).around Cursor.iterate_next_succ h
  · exact fun dst => (moves_prev items ns dst).around Cursor.iterate_prev_succ h
  · intro hcurr
    obtain rfl : cursor = none := h.curr_none.1 hcurr
    refine (moves_next items ns true).visit Cursor.iterate_next_succ rfl ?_ h
    exact fun k hk => ⟨_, Cursor.iterate_next_none hk, List.getElem?_eq_getElem hk⟩
  · intro hcurr
    obtain rfl : cursor = none := h.curr_none.1 hcurr
    refine (moves_prev items ns true).visit Cursor.iterate_prev_succ List.length_reverse ?_ h
    intro k hk
    refine ⟨_, Cursor.iterate_prev_none hk, ?_⟩
    rw [List.getElem?_reverse hk]
    exact List.getElem?_eq_getElem _

/-- Two items, pushed after another one was popped with the cursor on it. -/
def twoQueued : List (AudioQueueCall Nat) :=
  [.push true (some 9), .moveNext true, .pop true, .push true (some 1), .push true (some 2)]

theorem audioQueue_cursor_two :
    ∃ queue answers, audioQueueRun (audioQueueInit : AudioQueue Nat) twoQueued = some (answers, queue) ∧
      ∃ s ns, queue.Holds s ns ∧ queue.CursorLaws s.items := by
  refine ⟨_, _, rfl, ?_⟩
  exact @audioQueue_cursor _ _ twoQueued _ rfl

end

end AudioPlayer

import Mathlib
import AudioPlayer.Lib.Fifo
import AudioPlayer.Lib.Heap
import AudioPlayer.RingBuffer

/-!
# The chained buffer (`utils/common_buffer.c`)

| here | there |
| --- | --- |
| `CommonBuffer`, `CommonNode`  | `common_buffer_t`, `common_node_t` (`common_buffer.h:17-30`), with the heap the nodes live in |
| `commonBufferCreateNode`      | `common_buffer_create_node` (`common_buffer.c:23-46`) |
| `commonBufferPushLoop`        | the `while` of `common_buffer_push_inner` (`:84-107`) |
| `commonBufferPopLoop`         | the `while` of `common_buffer_pop_inner` (`:141-167`) |
| `commonBufferClear`           | `common_buffer_clear` (`:55-70`) |

A loop that does not end in the turns it is given has no value, like undefined behaviour: a value means
that the call returned. `ok` says which of a call's allocations succeed.

The bytes live in the nodes and the length in two counters. `CommonBuffer.Holds cb ns` ties both to the
list `ns` of nodes, and `commonBuffer_behaves` reads the calls as those of one bounded queue.
-/

namespace AudioPlayer
open Lib

variable {α : Type}

inductive CommonBufferReturn
  | success | errEmpty | errMalloc | errSize
deriving DecidableEq, Repr

/-- `common_node_t`. -/
structure CommonNode (α : Type) where
  buffer : RingBuffer α
  next   : Option Nat
deriving DecidableEq

/-- `common_buffer_t` and the heap of nodes. -/
structure CommonBuffer (α : Type) where
  readCount  : Int
  writeCount : Int
  nodeSize   : Int
  maxSize    : Int
  head       : Option Nat
  tail       : Option Nat
  heap       : List (Option (CommonNode α))
deriving DecidableEq

/-- `common_buffer_init` (`common_buffer.c:4-14`). -/
def commonBufferInit (nodeSize maxSize : Int) : CommonBuffer α :=
  ⟨0, 0, toI32 nodeSize, toI32 (toU32 (maxSize + 1)), none, none, []⟩

/-- `common_buffer_get_count` (`common_buffer.c:184-192`). -/
def commonBufferGetCount (cb : CommonBuffer α) : Option Int :=
  circCount? cb.maxSize cb.readCount cb.writeCount

/-- `common_buffer_get_free_count` (`common_buffer.c:194-202`). -/
def commonBufferGetFreeCount (cb : CommonBuffer α) : Option Int :=
  circFree? cb.maxSize cb.readCount cb.writeCount

/-- A counter after `len` more bytes (`common_buffer.c:106`, `:156`): the sum is unsigned. -/
def counterAdd (count len maxSize : Int) : Option Int :=
  (u32Mod? (toU32 (count + len)) (toU32 maxSize)).map toI32

/-- `common_buffer_create_node`; no node is `COMMON_BUF_ERR_MALLOC`. -/
def commonBufferCreateNode (ok : Bool) (size : Int) : Option (CommonNode α) :=
  if ok then (ringBufferInit size).map fun r => ⟨r, none⟩ else none

/-- A new node behind the tail (`common_buffer.c:93-101`). -/
def commonBufferLink (cb : CommonBuffer α) (node : CommonNode α) : Option (CommonBuffer α) :=
  let tmp := cb.heap.length
  let heap := cb.heap ++ [some node]
  match cb.head with
  | none => some { cb with heap, head := some tmp, tail := some tmp }
  | some _ => do
    let tail ← cb.tail
    let last ← load? heap tail
    let heap ← store? heap tail { last with next := some tmp }
    some { cb with heap, tail := some tmp }

/-- Is there no tail, or no room in it (`common_buffer.c:86`)? -/
def commonBufferTailFull (cb : CommonBuffer α) : Option Bool :=
  match cb.tail with
  | none => some true
  | some tail => do
    let free ← ringBufferGetFreeCount (← load? cb.heap tail).buffer
    some (free ≤ 0)

/-- `ring_buffer_push` on the tail (`common_buffer.c:104-106`): what of `src` is left. -/
def commonBufferFill (cb : CommonBuffer α) (src : List α) : Option (CommonBuffer α × List α) := do
  let tail ← cb.tail
  let node ← load? cb.heap tail
  let (len, buffer) ← ringBufferPush node.buffer src
  let heap ← store? cb.heap tail { node with buffer }
  let writeCount ← counterAdd cb.writeCount len cb.maxSize
  some ({ cb with heap, writeCount }, src.drop len.toNat)

/-- The loop of `common_buffer_push_inner` on what is left of the source. -/
def commonBufferPushLoop (ok : Nat → Bool) : Nat → CommonBuffer α → List α →
    Option (CommonBufferReturn × CommonBuffer α)
  | _, cb, [] => some (.success, cb)
  | 0, _, _ :: _ => none
  | fuel + 1, cb, src => do
    if ← commonBufferTailFull cb then
      match commonBufferCreateNode (ok cb.heap.length) (toU32 cb.nodeSize) with
      | none => some (.errMalloc, cb)
      | some node =>
        let (cb, rest) ← commonBufferFill (← commonBufferLink cb node) src
        commonBufferPushLoop ok fuel cb rest
    else
      let (cb, rest) ← commonBufferFill cb src
      commonBufferPushLoop ok fuel cb rest

/-- `common_buffer_push_inner` (`common_buffer.c:72-111`). -/
def commonBufferPush (ok : Nat → Bool) (cb : CommonBuffer α) (src : List α) :
    Option (CommonBufferReturn × CommonBuffer α) := do
  let freeCount ← commonBufferGetFreeCount cb
  if src.length > toU32 freeCount then some (.errSize, cb)
  else commonBufferPushLoop ok src.length cb src

/-- `ring_buffer_pop` on the head (`common_buffer.c:148-156`). -/
def commonBufferDrain (cb : CommonBuffer α) (head : Nat) (dst : Bool) (size : Int) :
    Option (List (Option α) × Int × CommonBuffer α) := do
  let node ← load? cb.heap head
  let (out, len, buffer) ← ringBufferPop node.buffer dst size
  let heap ← store? cb.heap head { node with buffer }
  let readCount ← counterAdd cb.readCount len cb.maxSize
  some (out, len, { cb with heap, readCount })

/-- An emptied head that is not the tail is unlinked and freed (`common_buffer.c:158-166`). -/
def commonBufferUnlink (cb : CommonBuffer α) (head : Nat) : Option (CommonBuffer α) := do
  let node ← load? cb.heap head
  if (← ringBufferGetCount node.buffer) ≤ 0 ∧ cb.head ≠ cb.tail then
    let heap ← free? cb.heap head
    some { cb with heap, head := node.next, tail := if node.next = none then none else cb.tail }
  else some cb

/-- The loop of `common_buffer_pop_inner` with `size - pos` bytes to go: the return value and the bytes
delivered. -/
def commonBufferPopLoop (dst : Bool) : Nat → CommonBuffer α → Int →
    Option (CommonBufferReturn × List (Option α) × CommonBuffer α)
  | 0, cb, size => if size ≤ 0 then some (.success, [], cb) else none
  | fuel + 1, cb, size =>
    if size ≤ 0 then some (.success, [], cb)
    else
      match cb.head with
      | none => some (.errEmpty, [], cb)
      | some head => do
        let (out, len, cb) ← commonBufferDrain cb head dst size
        let cb ← commonBufferUnlink cb head
        let (ret, rest, cb) ← commonBufferPopLoop dst fuel cb (size - len)
        some (ret, out ++ rest, cb)

/-- `common_buffer_pop_inner` (`common_buffer.c:123-172`): the return value, the bytes written to the
destination, `*p_size`. Every turn of the loop takes a byte or a node, so these turns are enough. -/
def commonBufferPop (cb : CommonBuffer α) (dst : Bool) (size : Int) :
    Option (CommonBufferReturn × List (Option α) × Int × CommonBuffer α) := do
  let count ← commonBufferGetCount cb
  let size := if size > toU32 count then toU32 count else size
  match cb.head with
  | none => some (.errEmpty, [], size, cb)
  | some _ =>
    let (ret, out, cb) ← commonBufferPopLoop dst (size.toNat + cb.heap.length) cb size
    some (ret, out, size, cb)

/-- The loop of `common_buffer_clear`. -/
def commonBufferClearLoop : Nat → CommonBuffer α → Option (CommonBuffer α)
  | 0, cb => if cb.head = none then some cb else none
  | fuel + 1, cb =>
    match cb.head with
    | none => some cb
    | some tmp => do
      let node ← load? cb.heap tmp
      let heap ← free? cb.heap tmp
      commonBufferClearLoop fuel { cb with heap, head := node.next }

/-- `common_buffer_clear` (`common_buffer.c:55-70`). -/
def commonBufferClear (cb : CommonBuffer α) : Option (CommonBufferReturn × CommonBuffer α) := do
  let cb ← commonBufferClearLoop cb.heap.length cb
  some (.success, { cb with readCount := cb.writeCount, head := none, tail := none })

/-! ## The nodes and the counters -/

/-- The cells stored in the nodes `ns`, oldest first. -/
def nodesCells (ns : List (Nat × CommonNode α)) : List (Option α) := ns.flatMap fun n => n.2.buffer.cells

/-- `cb` is made of the nodes `ns`: they are linked from head to tail, all between the two are full, the
counters are as far apart as there are cells, and no other node is allocated. -/
structure CommonBuffer.Holds (cb : CommonBuffer α) (ns : List (Nat × CommonNode α)) : Prop where
  linked     : Linked CommonNode.next cb.heap cb.head ns
  nodup      : (ns.map Prod.fst).Nodup
  tail_eq    : cb.tail = (ns.map Prod.fst).getLast?
  ring       : ∀ n ∈ ns, n.2.buffer.Valid
  size_eq    : ∀ n ∈ ns, n.2.buffer.size = cb.nodeSize + 1
  full       : ∀ n ∈ ns.dropLast.tail, n.2.buffer.free = 0
  circ       : Circ cb.maxSize cb.readCount cb.writeCount
  count      : circDist cb.maxSize cb.readCount cb.writeCount = (nodesCells ns).length
  owned      : live cb.heap = ns.length
  node_pos   : 1 ≤ cb.nodeSize
  node_small : 2 * (cb.nodeSize + 1) ≤ 2147483648

theorem commonBufferInit_holds {nodeSize maxSize : Int} (h1 : 1 ≤ nodeSize)
    (h2 : 2 * (nodeSize + 1) ≤ 2147483648) (h3 : 0 ≤ maxSize) (h4 : 2 * (maxSize + 1) ≤ 2147483648) :
    (commonBufferInit nodeSize maxSize : CommonBuffer α).Holds [] := by
  unfold commonBufferInit
  rw [toI32_eq (by omega) (by omega), toU32_eq (by omega) (by omega), toI32_eq (by omega) (by omega)]
  exact ⟨rfl, .nil, rfl, by simp, by simp, by simp, ⟨by simp, by dsimp; omega, by simp, by dsimp; omega, h4⟩,
    by simp [circDist, nodesCells], rfl, h1, h2⟩

/-- A counter moves on modulo `maxSize`. -/
theorem counterAdd_eq {count maxSize : Int} {k : Nat} (h0 : 0 ≤ count) (h1 : count < maxSize)
    (h2 : (k : Int) ≤ maxSize) (h3 : 2 * maxSize ≤ 2147483648) :
    counterAdd count k maxSize = some ((count + k) % maxSize) := by
  have hm := Int.emod_nonneg (count + k) (by omega : maxSize ≠ 0)
  have hm' := Int.emod_lt_of_pos (count + k) (by omega : 0 < maxSize)
  unfold counterAdd
  rw [toU32_eq (by omega) (by omega), toU32_eq (by omega) (by omega), u32Mod?_eq (by omega), Option.map_some,
    toI32_eq (by omega) (by omega)]

namespace CommonBuffer.Holds
variable {cb : CommonBuffer α} {ns : List (Nat × CommonNode α)} {i : Nat} {n : CommonNode α} {src : List α}

/-- How much is stored. -/
theorem getCount (h : cb.Holds ns) : commonBufferGetCount cb = some ((nodesCells ns).length : Int) :=
  h.count ▸ h.circ.count

theorem getFreeCount (h : cb.Holds ns) :
    commonBufferGetFreeCount cb = some (cb.maxSize - 1 - (nodesCells ns).length) :=
  h.count ▸ h.circ.free

theorem length_lt (h : cb.Holds ns) : ((nodesCells ns).length : Int) < cb.maxSize :=
  h.count ▸ h.circ.dist_lt

end CommonBuffer.Holds

@[simp] theorem nodesCells_nil : nodesCells ([] : List (Nat × CommonNode α)) = [] := rfl

@[simp] theorem nodesCells_cons (n : Nat × CommonNode α) (ns : List (Nat × CommonNode α)) :
    nodesCells (n :: ns) = n.2.buffer.cells ++ nodesCells ns := rfl

@[simp] theorem nodesCells_append (ms ns : List (Nat × CommonNode α)) :
    nodesCells (ms ++ ns) = nodesCells ms ++ nodesCells ns := List.flatMap_append

/-! ## Push -/

section
variable {cb : CommonBuffer α} {ns : List (Nat × CommonNode α)} {i : Nat} {n : CommonNode α} {src : List α}

/-- Filling the tail: what fits into it is stored, and both counts of it move together. -/
theorem commonBufferFill_spec (h : cb.Holds (ns ++ [(i, n)])) (hsrc : src.length < 4294967296)
    (hfit : ((nodesCells (ns ++ [(i, n)])).length : Int) + src.length < cb.maxSize) :
    ∃ cb' n', commonBufferFill cb src = some (cb', src.drop (min n.buffer.free src.length)) ∧
      cb'.Holds (ns ++ [(i, n')]) ∧ cb'.nodeSize = cb.nodeSize ∧ cb'.maxSize = cb.maxSize ∧
      n'.buffer.cells = n.buffer.cells ++ (src.take (min n.buffer.free src.length)).map some := by
  obtain ⟨r', hpush, hvalid, hsize, hcells⟩ := ringBufferPush_spec (h.ring (i, n) (by simp)) hsrc
  have hload : load? cb.heap i = some n := h.linked.load (by simp)
  have htail : cb.tail = some i := by rw [h.tail_eq]; simp
  have hi : i ∉ ns.map Prod.fst := by
    have := h.nodup
    simp only [List.map_append, List.map_cons, List.map_nil, List.nodup_append] at this
    exact fun hm => this.2.2 i hm i (by simp) rfl
  generalize hk : min n.buffer.free src.length = k at *
  have hlen := congrArg List.length hcells
  simp only [List.length_append, List.length_map, List.length_take] at hlen
  have hdist := h.count
  have hadd := counterAdd_eq (k := k) h.circ.write_nonneg h.circ.write_lt
    (by simp at hfit; omega) h.circ.small
  have hmove := h.circ.write_add (k := k) (by rw [h.count]; omega)
  refine ⟨{ cb with heap := cb.heap.set i (some ⟨r', n.next⟩), writeCount := (cb.writeCount + k) % cb.maxSize },
    ⟨r', n.next⟩, ?_, ?_, rfl, rfl, hcells⟩
  · simp only [commonBufferFill, htail, hload, hpush, store?_eq hload, hadd, Option.bind_eq_bind,
      Option.bind_some, Int.toNat_natCast]
  · refine ⟨h.linked.store_last hi h.linked.next_last, ?_, ?_, ?_, ?_, ?_, hmove.1, ?_, ?_, h.node_pos,
      h.node_small⟩
    · simpa using h.nodup
    · simpa using h.tail_eq
    · intro m hm
      rcases List.mem_append.1 hm with hm | hm
      · exact h.ring m (by simp [hm])
      · obtain rfl := List.mem_singleton.1 hm; exact hvalid
    · intro m hm
      rcases List.mem_append.1 hm with hm | hm
      · exact h.size_eq m (by simp [hm])
      · obtain rfl := List.mem_singleton.1 hm; exact hsize.trans (h.size_eq (i, n) (by simp))
    · have := h.full; simpa using this
    · dsimp only
      rw [hmove.2, h.count]
      simp [hcells]
      omega
    · exact (live_store hload).trans (by simpa using h.owned)

/-- A new node goes behind a full tail, or becomes the only one. -/
theorem commonBufferLink_spec (h : cb.Holds ns) (hfull : ∀ x ∈ ns.getLast?, x.2.buffer.free = 0)
    (hr : n.buffer.Valid) (hs : n.buffer.size = cb.nodeSize + 1) (hnext : n.next = none)
    (hempty : n.buffer.cells = []) :
    ∃ cb' ns', commonBufferLink cb n = some cb' ∧ cb'.Holds (ns' ++ [(cb.heap.length, n)]) ∧
      nodesCells ns' = nodesCells ns ∧ cb'.nodeSize = cb.nodeSize ∧ cb'.maxSize = cb.maxSize := by
  rcases List.eq_nil_or_concat ns with rfl | ⟨ms, x, rfl⟩
  · have hhead : cb.head = none := h.linked
    refine ⟨{ cb with heap := cb.heap ++ [some n], head := some cb.heap.length, tail := some cb.heap.length },
      [], by simp [commonBufferLink, hhead], ?_, rfl, rfl, rfl⟩
    refine ⟨⟨rfl, load?_append_self, hnext⟩, by simp, by simp, ?_, ?_, by simp, h.circ, ?_, ?_, h.node_pos,
      h.node_small⟩
    · simpa using hr
    · simpa using hs
    · simpa [hempty] using h.count
    · simpa using h.owned
  · obtain ⟨i, m⟩ := x
    rw [List.concat_eq_append] at h hfull ⊢
    have hload : load? cb.heap i = some m := h.linked.load (by simp)
    have htail : cb.tail = some i := by rw [h.tail_eq]; simp
    have hnd := h.nodup
    simp only [List.map_append, List.map_cons, List.map_nil] at hnd
    have hi : i ∉ ms.map Prod.fst := fun hm => (List.nodup_append.1 hnd).2.2 i hm i (by simp) rfl
    have hfresh : cb.heap.length ∉ ms.map Prod.fst ++ [i] := by
      intro hm
      have := h.linked.lt (i := cb.heap.length) (by simpa using hm)
      omega
    have hload' : load? (cb.heap ++ [some n]) i = some m := load?_append hload _
    obtain ⟨j, hhead⟩ : ∃ j, cb.head = some j := by
      cases ms with
      | nil => exact ⟨_, h.linked.1⟩
      | cons y ms => exact ⟨_, h.linked.1⟩
    refine ⟨{ cb with heap := (cb.heap ++ [some n]).set i (some ⟨m.buffer, some cb.heap.length⟩),
                      tail := some cb.heap.length },
      ms ++ [(i, ⟨m.buffer, some cb.heap.length⟩)], ?_, ?_, by simp, rfl, rfl⟩
    · simp [commonBufferLink, hhead, htail, hload', store?_eq hload']
    · refine ⟨?_, ?_, by simp, ?_, ?_, ?_, h.circ, ?_, ?_, h.node_pos, h.node_small⟩
      · simpa using h.linked.alloc_snoc hi rfl hnext
      · have := List.nodup_append.2 ⟨hnd, List.nodup_singleton cb.heap.length, fun a ha b hb hab =>
          hfresh (by obtain rfl := List.mem_singleton.1 hb; exact hab ▸ ha)⟩
        simpa using this
      · intro x hx
        simp only [List.mem_append, List.mem_singleton] at hx
        rcases hx with (hx | rfl) | rfl
        · exact h.ring x (by simp [hx])
        · exact h.ring (i, m) (by simp)
        · exact hr
      · intro x hx
        simp only [List.mem_append, List.mem_singleton] at hx
        rcases hx with (hx | rfl) | rfl
        · exact h.size_eq x (by simp [hx])
        · exact h.size_eq (i, m) (by simp)
        · exact hs
      · -- between the ends now also lies the old tail
        intro x hx
        have hold := h.full
        rw [List.dropLast_concat] at hx hold
        cases ms with
        | nil => simp at hx
        | cons y ms =>
          rcases List.mem_append.1 (show x ∈ ms ++ [(i, _)] by simpa using hx) with hx | hx
          · exact hold x (by simpa using hx)
          · obtain rfl := List.mem_singleton.1 hx
            exact hfull (i, m) (by rw [List.getLast?_concat]; rfl)
      · have := h.count
        simpa [hempty] using this
      · have := h.owned
        rw [live_store hload', live_append_some, this]
        simp

/-- Is the tail full? -/
theorem commonBufferTailFull_spec (h : cb.Holds ns) :
    ∃ b, commonBufferTailFull cb = some b ∧
      (b = true → ∀ x ∈ ns.getLast?, x.2.buffer.free = 0) ∧
      (b = false → ∃ ms i n, ns = ms ++ [(i, n)] ∧ 0 < n.buffer.free) := by
  rcases List.eq_nil_or_concat ns with rfl | ⟨ms, ⟨i, n⟩, rfl⟩
  · have htail : cb.tail = none := h.tail_eq
    exact ⟨true, by simp [commonBufferTailFull, htail], by simp, by simp⟩
  · rw [List.concat_eq_append] at h ⊢
    have hload : load? cb.heap i = some n := h.linked.load (by simp)
    have htail : cb.tail = some i := by rw [h.tail_eq]; simp
    have hr := h.ring (i, n) (by simp)
    have hlt := hr.count_lt
    have hf : (n.buffer.free : Int) = n.buffer.size - 1 - n.buffer.count := by
      unfold RingBuffer.free; dsimp only at hlt; omega
    refine ⟨decide ((n.buffer.free : Int) ≤ 0), ?_, ?_, ?_⟩
    · have hfree := hr.getFreeCount
      dsimp only at hfree
      simp only [commonBufferTailFull, htail, hload, Option.bind_eq_bind, Option.bind_some, hfree, hf]
    · intro hb x hx
      obtain rfl : (i, n) = x := by simpa using hx
      simpa using hb
    · intro hb
      exact ⟨ms, i, n, rfl, by simp at hb; omega⟩

theorem commonBufferPushLoop_succ {ok : Nat → Bool} {fuel : Nat} (hne : src ≠ []) :
    commonBufferPushLoop ok (fuel + 1) cb src = (do
      if ← commonBufferTailFull cb then
        match commonBufferCreateNode (ok cb.heap.length) (toU32 cb.nodeSize) with
        | none => some (.errMalloc, cb)
        | some node =>
          let (cb, rest) ← commonBufferFill (← commonBufferLink cb node) src
          commonBufferPushLoop ok fuel cb rest
      else
        let (cb, rest) ← commonBufferFill cb src
        commonBufferPushLoop ok fuel cb rest) := by
  cases src with
  | nil => exact absurd rfl hne
  | cons => rfl

/-- The room in the tail node. -/
def CommonBuffer.tailFree (cb : CommonBuffer α) : Nat :=
  ((cb.tail.bind (load? cb.heap)).map fun node => node.buffer.free).getD 0

/-- The allocation `base + k` is the first that fails. -/
def FirstFails (ok : Nat → Bool) (base k : Nat) : Prop := (∀ j < k, ok (base + j) = true) ∧ ok (base + k) = false

/-- How many of `len` bytes a push stores, where the tail has room for `room` and the nodes that it makes, from
allocation `base` on, for `nodeSize` each: all, or what there is room for before the first allocation that fails. -/
inductive PushEnd (ok : Nat → Bool) (nodeSize base room len : Nat) : CommonBufferReturn → Nat → Prop
  | stored : (∀ k, FirstFails ok base k → len ≤ room + k * nodeSize) → PushEnd ok nodeSize base room len .success len
  | failed {k : Nat} : FirstFails ok base k → room + k * nodeSize < len →
      PushEnd ok nodeSize base room len .errMalloc (room + k * nodeSize)

/-- With `k` bytes more in front that the tail has room for. -/
theorem PushEnd.fill {ok : Nat → Bool} {nodeSize base room len k n : Nat} {ret : CommonBufferReturn} (hroom : k ≤ room)
    (hlen : k ≤ len) (h : PushEnd ok nodeSize base (room - k) (len - k) ret n) :
    PushEnd ok nodeSize base room len ret (k + n) := by
  cases h with
  | stored hall =>
    rw [Nat.add_sub_cancel' hlen]
    refine .stored ?_
    intro j hj
    have := hall j hj
    omega
  | @failed j hj hlt =>
    rw [show k + (room - k + j * nodeSize) = room + j * nodeSize by omega]
    exact .failed hj (by omega)

/-- Behind a full tail, a node is made first. -/
theorem PushEnd.link {ok : Nat → Bool} {nodeSize base len n : Nat} {ret : CommonBufferReturn} (hok : ok base = true)
    (h : PushEnd ok nodeSize (base + 1) nodeSize len ret n) : PushEnd ok nodeSize base 0 len ret n := by
  cases h with
  | stored hall =>
    refine .stored ?_
    rintro k ⟨hbefore, hfails⟩
    cases k with
    | zero =>
      rw [Nat.add_zero, hok] at hfails
      cases hfails
    | succ k =>
      have := hall k ⟨fun j hj => by rw [Nat.add_right_comm]; exact hbefore (j + 1) (by omega),
        by rw [Nat.add_right_comm]; exact hfails⟩
      rw [Nat.succ_mul]
      omega
  | @failed k hk hlt =>
    rw [show nodeSize + k * nodeSize = 0 + (k + 1) * nodeSize by rw [Nat.succ_mul]; omega] at hlt ⊢
    refine .failed ⟨?_, ?_⟩ hlt
    · intro j hj
      cases j with
      | zero => exact hok
      | succ j =>
        have := hk.1 j (by omega)
        rwa [Nat.add_right_comm] at this
    · have := hk.2
      rwa [Nat.add_right_comm] at this

theorem CommonBuffer.Holds.tailFree_eq (h : cb.Holds (ns ++ [(i, n)])) : cb.tailFree = n.buffer.free := by
  have hload : load? cb.heap i = some n := h.linked.load (by simp)
  have htail : cb.tail = some i := by rw [h.tail_eq]; simp
  simp only [CommonBuffer.tailFree, htail, Option.bind_some, hload, Option.map_some, Option.getD_some]

theorem commonBufferFill_heap {cb' : CommonBuffer α} {rest : List α} (h : commonBufferFill cb src = some (cb', rest)) :
    cb'.heap.length = cb.heap.length := by
  simp only [commonBufferFill, Option.bind_eq_bind, Option.bind_eq_some_iff, store?, Option.map_eq_some_iff] at h
  obtain ⟨tail, -, node, -, ⟨len, buffer⟩, -, heap, ⟨_, -, rfl⟩, writeCount, -, hcb⟩ := h
  cases hcb
  simp

theorem commonBufferLink_heap {cb' : CommonBuffer α} (h : commonBufferLink cb n = some cb') :
    cb'.heap.length = cb.heap.length + 1 := by
  unfold commonBufferLink at h
  cases hhead : cb.head with
  | none =>
    simp only [hhead, Option.some.injEq] at h
    subst h
    simp
  | some head =>
    simp only [hhead, Option.bind_eq_bind, Option.bind_eq_some_iff, store?, Option.map_eq_some_iff] at h
    obtain ⟨tail, -, last, -, heap, ⟨_, -, rfl⟩, hcb⟩ := h
    cases hcb
    simp

/-- The loop stores all that the counters have room for, or what it had room for when an allocation failed. Induction on
the turns: each one stores at least a byte. -/
theorem commonBufferPushLoop_stores {ok : Nat → Bool} {fuel : Nat} (hfuel : src.length ≤ fuel) (h : cb.Holds ns)
    (hsrc : src.length < 4294967296) (hfit : ((nodesCells ns).length : Int) + src.length < cb.maxSize) :
    ∃ ret cb' ns' k, commonBufferPushLoop ok fuel cb src = some (ret, cb') ∧ cb'.Holds ns' ∧
      cb'.nodeSize = cb.nodeSize ∧ cb'.maxSize = cb.maxSize ∧
      nodesCells ns' = nodesCells ns ++ (src.take k).map some ∧
      PushEnd ok cb.nodeSize.toNat cb.heap.length cb.tailFree src.length ret k := by
  induction fuel generalizing cb ns src with
  | zero =>
    obtain rfl : src = [] := List.length_eq_zero_iff.1 (by omega)
    exact ⟨.success, cb, ns, 0, by simp [commonBufferPushLoop], h, rfl, rfl, by simp, .stored (by simp)⟩
  | succ fuel ih =>
    by_cases hne : src = []
    · subst hne
      exact ⟨.success, cb, ns, 0, by simp [commonBufferPushLoop], h, rfl, rfl, by simp, .stored (by simp)⟩
    · have hpos : 0 < src.length := List.length_pos_iff.2 hne
      have hnp := h.node_pos
      have hns := h.node_small
      -- one turn on a buffer whose tail has room
      have turn : ∀ {cb₁ : CommonBuffer α} {ms i n}, cb₁.Holds (ms ++ [(i, n)]) → 0 < n.buffer.free →
          nodesCells (ms ++ [(i, n)]) = nodesCells ns → cb₁.nodeSize = cb.nodeSize →
          cb₁.maxSize = cb.maxSize →
          ∃ cb₂ rest, commonBufferFill cb₁ src = some (cb₂, rest) ∧
            ∃ ret cb' ns' k, commonBufferPushLoop ok fuel cb₂ rest = some (ret, cb') ∧
              cb'.Holds ns' ∧ cb'.nodeSize = cb.nodeSize ∧ cb'.maxSize = cb.maxSize ∧
              nodesCells ns' = nodesCells ns ++ (src.take k).map some ∧
              PushEnd ok cb.nodeSize.toNat cb₁.heap.length n.buffer.free src.length ret k := by
        intro cb₁ ms i n h₁ hfree hcells hnode hmax
        obtain ⟨cb₂, n', hfill, h₂, hnode₂, hmax₂, hcells₂⟩ :=
          commonBufferFill_spec h₁ hsrc (by rw [hcells, hmax]; exact hfit)
        have hheap := commonBufferFill_heap hfill
        have hr := h₁.ring (i, n) (by simp)
        have hr' := h₂.ring (i, n') (by simp)
        have hsize := h₁.size_eq (i, n) (by simp)
        have hsize' := h₂.size_eq (i, n') (by simp)
        have hlen := congrArg List.length hcells₂
        have hlt := hr.count_lt
        have hlt' := hr'.count_lt
        have hc := hr.length_cells
        have hc' := hr'.length_cells
        simp only [List.length_append, List.length_map, List.length_take] at hlen
        have htail : cb₂.tailFree = n.buffer.free - min n.buffer.free src.length := by
          rw [h₂.tailFree_eq]
          unfold RingBuffer.free at *
          dsimp only at *
          omega
        have hk : min n.buffer.free src.length ≤ src.length := Nat.min_le_right _ _
        have hk0 : min n.buffer.free src.length ≤ n.buffer.free := Nat.min_le_left _ _
        have hk' : 0 < min n.buffer.free src.length := by omega
        generalize min n.buffer.free src.length = k at *
        have hall : nodesCells (ms ++ [(i, n')]) = nodesCells ns ++ (src.take k).map some := by
          rw [← hcells]; simp [hcells₂]
        obtain ⟨ret, cb', ns', k', hloop, h', hnode', hmax', hcells', hend⟩ :=
          @ih cb₂ _ (src.drop k) (by simp; omega) h₂ (by simp; omega)
            (by rw [hall, hmax₂, hmax]; simp; omega)
        refine ⟨cb₂, _, hfill, ret, cb', ns', k + k', hloop, h', by omega, by omega, ?_, ?_⟩
        · rw [hcells', hall, List.append_assoc, ← List.map_append, List.take_add]
        · rw [hnode₂, hnode, hheap, htail, List.length_drop] at hend
          exact hend.fill hk0 hk
      obtain ⟨b, hb, hyes, hno⟩ := commonBufferTailFull_spec h
      cases b with
      | false =>
        obtain ⟨ms, i, n, rfl, hfree⟩ := hno rfl
        obtain ⟨cb₂, rest, hfill, ret, cb', ns', k, hloop, h', hnode', hmax', hcells', hend⟩ := turn h hfree rfl rfl rfl
        refine ⟨ret, cb', ns', k, ?_, h', hnode', hmax', hcells', ?_⟩
        · simpa [commonBufferPushLoop_succ hne, hb, hfill] using hloop
        · rw [h.tailFree_eq]
          exact hend
      | true =>
        have htail : cb.tailFree = 0 := by
          rcases List.eq_nil_or_concat ns with rfl | ⟨ms, ⟨i, n⟩, rfl⟩
          · have htail : cb.tail = none := h.tail_eq
            simp [CommonBuffer.tailFree, htail]
          · rw [List.concat_eq_append] at h hyes
            rw [h.tailFree_eq]
            exact hyes rfl (i, n) (by simp)
        rw [htail]
        cases hok : ok cb.heap.length with
        | false =>
          -- the first allocation fails, and nothing is stored
          have hfirst : FirstFails ok cb.heap.length 0 := ⟨fun j hj => absurd hj (Nat.not_lt_zero j), hok⟩
          refine ⟨.errMalloc, cb, ns, 0, ?_, h, rfl, rfl, by simp, ?_⟩
          · simp [commonBufferPushLoop_succ hne, hb, commonBufferCreateNode, hok]
          · have hend := @PushEnd.failed ok cb.nodeSize.toNat cb.heap.length 0 src.length 0 hfirst (by omega)
            simpa using hend
        | true =>
          obtain ⟨r, hr, hvalid, hsize, hempty⟩ :=
            @ringBufferInit_spec α cb.nodeSize.toNat (by omega)
          have hcreate : commonBufferCreateNode true (toU32 cb.nodeSize) = some (⟨r, none⟩ : CommonNode α) := by
            rw [show toU32 cb.nodeSize = (cb.nodeSize.toNat : Int) by
              rw [toU32_eq (by omega) (by omega)]; omega]
            simp only [commonBufferCreateNode, hr, Option.map_some, if_true]
          obtain ⟨cb₁, ms, hlink, h₁, hcells₁, hnode₁, hmax₁⟩ :=
            commonBufferLink_spec (n := ⟨r, none⟩) h (hyes rfl) hvalid (by dsimp only; omega) rfl hempty
          have hheap := commonBufferLink_heap hlink
          have hcount : r.count = 0 := by rw [← hvalid.length_cells, hempty]; rfl
          have hfree : r.free = cb.nodeSize.toNat := by unfold RingBuffer.free; omega
          obtain ⟨cb₂, rest, hfill, ret, cb', ns', k, hloop, h', hnode', hmax', hcells', hend⟩ :=
            turn h₁ (by dsimp only; omega) (by simp [hcells₁, hempty]) hnode₁ hmax₁
          refine ⟨ret, cb', ns', k, ?_, h', hnode', hmax', hcells', ?_⟩
          · simpa [commonBufferPushLoop_succ hne, hb, hok, hcreate, hlink, hfill] using hloop
          · rw [hheap] at hend
            dsimp only at hend
            rw [hfree] at hend
            exact hend.link hok

/-- Where every allocation succeeds, the loop stores everything. -/
theorem commonBufferPushLoop_spec {fuel : Nat} (hfuel : src.length ≤ fuel) (h : cb.Holds ns)
    (hsrc : src.length < 4294967296) (hfit : ((nodesCells ns).length : Int) + src.length < cb.maxSize) :
    ∃ cb' ns', commonBufferPushLoop (fun _ => true) fuel cb src = some (.success, cb') ∧ cb'.Holds ns' ∧
      cb'.nodeSize = cb.nodeSize ∧ cb'.maxSize = cb.maxSize ∧
      nodesCells ns' = nodesCells ns ++ src.map some := by
  obtain ⟨ret, cb', ns', k, hloop, h', hnode, hmax, hcells, hend⟩ :=
    @commonBufferPushLoop_stores _ _ _ _ (fun _ => true) _ hfuel h hsrc hfit
  cases hend with
  | stored =>
    rw [List.take_length] at hcells
    exact ⟨cb', ns', hloop, h', hnode, hmax, hcells⟩
  | failed hfirst =>
    have hfails := hfirst.2
    cases hfails

/-- **Push**: all of the source if it fits, nothing otherwise. -/
theorem commonBufferPush_spec (h : cb.Holds ns) (hsrc : src.length < 4294967296) :
    if ((nodesCells ns).length : Int) + src.length < cb.maxSize then
      ∃ cb' ns', commonBufferPush (fun _ => true) cb src = some (.success, cb') ∧ cb'.Holds ns' ∧
        cb'.nodeSize = cb.nodeSize ∧ cb'.maxSize = cb.maxSize ∧
        nodesCells ns' = nodesCells ns ++ src.map some
    else commonBufferPush (fun _ => true) cb src = some (.errSize, cb) := by
  have hlt := h.length_lt
  have hsmall := h.circ.small
  have hu : toU32 (cb.maxSize - 1 - (nodesCells ns).length) = cb.maxSize - 1 - (nodesCells ns).length :=
    toU32_eq (by omega) (by omega)
  split
  case isTrue hfit =>
    obtain ⟨cb', ns', hloop, hrest⟩ := commonBufferPushLoop_spec le_rfl h hsrc hfit
    refine ⟨cb', ns', ?_, hrest⟩
    simp only [commonBufferPush, h.getFreeCount, Option.bind_eq_bind, Option.bind_some, hu]
    rw [if_neg (by omega), hloop]
  case isFalse hfit =>
    simp only [commonBufferPush, h.getFreeCount, Option.bind_eq_bind, Option.bind_some, hu]
    rw [if_pos (by omega)]

/-! ## Pop -/

/-- Draining the head: at most `k` bytes, from the front, and both counts move together. -/
theorem commonBufferDrain_spec (h : cb.Holds ((i, n) :: ns)) (dst : Bool) {k : Nat} (hk : k < 4294967296) :
    ∃ cb' n', commonBufferDrain cb i dst k = some (if dst then n.buffer.cells.take k else [],
        ((min k n.buffer.cells.length : Nat) : Int), cb') ∧
      cb'.Holds ((i, n') :: ns) ∧ cb'.nodeSize = cb.nodeSize ∧ cb'.maxSize = cb.maxSize ∧
      cb'.heap.length = cb.heap.length ∧ n'.next = n.next ∧ n'.buffer.cells = n.buffer.cells.drop k := by
  obtain ⟨r', hpop, hvalid, hsize, hcells⟩ := ringBufferPop_spec (h.ring (i, n) (by simp)) dst hk
  have hload : load? cb.heap i = some n := h.linked.load (by simp)
  have hi : i ∉ ns.map Prod.fst := (List.nodup_cons.1 h.nodup).1
  have hcount := h.count
  rw [nodesCells_cons, List.length_append] at hcount
  dsimp only at hpop hcount hcells
  have hm : min k n.buffer.cells.length ≤ n.buffer.cells.length := Nat.min_le_right _ _
  have hlen : n.buffer.cells.length - min k n.buffer.cells.length = (n.buffer.cells.drop k).length := by
    simp; omega
  generalize min k n.buffer.cells.length = m at *
  have hlt := h.circ.dist_lt
  have hadd := counterAdd_eq (k := m) h.circ.read_nonneg h.circ.read_lt (by omega) h.circ.small
  have hmove := h.circ.read_add (k := m) (by omega)
  refine ⟨{ cb with heap := cb.heap.set i (some ⟨r', n.next⟩), readCount := (cb.readCount + m) % cb.maxSize },
    ⟨r', n.next⟩, ?_, ?_, rfl, rfl, by simp, rfl, hcells⟩
  · simp only [commonBufferDrain, hload, hpop, store?_eq hload, hadd, Option.bind_eq_bind, Option.bind_some]
  · refine ⟨h.linked.store_head hi rfl, h.nodup, h.tail_eq, ?_, ?_, ?_, hmove.1, ?_, ?_, h.node_pos,
      h.node_small⟩
    · intro x hx
      rcases List.mem_cons.1 hx with rfl | hx
      · exact hvalid
      · exact h.ring x (by simp [hx])
    · intro x hx
      rcases List.mem_cons.1 hx with rfl | hx
      · exact hsize.trans (h.size_eq (i, n) (by simp))
      · exact h.size_eq x (by simp [hx])
    · have := h.full
      cases ns with
      | nil => simp
      | cons y ns => simpa using this
    · dsimp only
      rw [hmove.2, hcount, nodesCells_cons, List.length_append, hcells, ← hlen]
      omega
    · exact (live_store hload).trans h.owned

/-- An emptied head goes unless it is the only node. -/
theorem commonBufferUnlink_spec (h : cb.Holds ((i, n) :: ns)) :
    ∃ cb' ns', commonBufferUnlink cb i = some cb' ∧ cb'.Holds ns' ∧ cb'.nodeSize = cb.nodeSize ∧
      cb'.maxSize = cb.maxSize ∧ cb'.heap.length = cb.heap.length ∧
      nodesCells ns' = nodesCells ((i, n) :: ns) ∧ (n.buffer.cells = [] → ns ≠ [] → ns' = ns) := by
  have hload : load? cb.heap i = some n := h.linked.load (by simp)
  have hi : i ∉ ns.map Prod.fst := (List.nodup_cons.1 h.nodup).1
  have hr := h.ring (i, n) (by simp)
  have hlen := hr.length_cells
  have hcount := hr.getCount
  dsimp only at hlen hcount
  by_cases hdrop : n.buffer.cells = [] ∧ ns ≠ []
  · obtain ⟨hempty, hne⟩ := hdrop
    obtain ⟨⟨j, m⟩, ns, rfl⟩ := List.exists_cons_of_ne_nil hne
    have hcond : ((n.buffer.count : Int) ≤ 0 ∧ cb.head ≠ cb.tail) := by
      refine ⟨by rw [← hlen, hempty]; simp, ?_⟩
      rw [h.linked.1, h.tail_eq, List.map_cons, List.getLast?_cons_of_ne_nil (by simp)]
      intro he
      exact hi (List.mem_of_getLast? he.symm)
    have hnext : n.next = some j := h.linked.2.2.1
    refine ⟨{ cb with heap := cb.heap.set i none, head := n.next }, (j, m) :: ns, ?_, ?_, rfl, rfl, by simp,
      by simp [hempty], fun _ _ => rfl⟩
    · simp only [commonBufferUnlink, hload, hcount, Option.bind_eq_bind, Option.bind_some]
      rw [if_pos hcond, free?_eq hload]
      simp [hnext]
    · refine ⟨h.linked.free_head hi, (List.nodup_cons.1 h.nodup).2, ?_, fun x hx => h.ring x (by simp [hx]),
        fun x hx => h.size_eq x (by simp [hx]), ?_, h.circ, ?_, ?_, h.node_pos, h.node_small⟩
      · dsimp only
        rw [h.tail_eq, List.map_cons, List.getLast?_cons_of_ne_nil (by simp)]
      · intro x hx
        exact h.full x (by simpa using List.mem_of_mem_tail hx)
      · have := h.count
        simpa [hempty] using this
      · exact Nat.succ.inj ((live_free hload).trans h.owned)
  · refine ⟨cb, (i, n) :: ns, ?_, h, rfl, rfl, rfl, rfl, fun h1 h2 => absurd ⟨h1, h2⟩ hdrop⟩
    simp only [commonBufferUnlink, hload, hcount, Option.bind_eq_bind, Option.bind_some]
    rw [if_neg]
    rintro ⟨hc, hht⟩
    have hempty : n.buffer.cells = [] := List.length_eq_zero_iff.1 (by omega)
    refine hht ?_
    obtain rfl : ns = [] := by_contra fun hne => hdrop ⟨hempty, hne⟩
    rw [h.linked.1, h.tail_eq]; rfl

/-- The loop delivers what is asked for. Induction on the turns: each one takes a byte or a node. -/
theorem commonBufferPopLoop_spec {fuel k : Nat} (dst : Bool) (hfuel : k + ns.length ≤ fuel)
    (h : cb.Holds ns) (hk : k ≤ (nodesCells ns).length) (hk' : k < 4294967296) :
    ∃ cb' ns', commonBufferPopLoop dst fuel cb k =
        some (.success, if dst then (nodesCells ns).take k else [], cb') ∧
      cb'.Holds ns' ∧ cb'.nodeSize = cb.nodeSize ∧ cb'.maxSize = cb.maxSize ∧
      nodesCells ns' = (nodesCells ns).drop k := by
  have done : ∀ (fuel : Nat) (cb : CommonBuffer α),
      commonBufferPopLoop dst fuel cb (0 : Nat) = some (.success, [], cb) := by
    intro fuel cb; cases fuel <;> simp [commonBufferPopLoop]
  rcases Nat.eq_zero_or_pos k with rfl | hpos
  · exact ⟨cb, ns, by simpa using done fuel cb, h, rfl, rfl, by simp⟩
  induction fuel generalizing cb ns k with
  | zero => omega
  | succ fuel ih =>
    cases ns with
    | nil => simp at hk; omega
    | cons x ns =>
      obtain ⟨i, n⟩ := x
      obtain ⟨cb₁, n', hdrain, h₁, hnode₁, hmax₁, -, -, hcells₁⟩ := commonBufferDrain_spec h dst hk'
      obtain ⟨cb₂, ns₂, hunlink, h₂, hnode₂, hmax₂, -, hcells₂, hgone⟩ := commonBufferUnlink_spec h₁
      have hhead : cb.head = some i := h.linked.1
      have hlen : ((nodesCells ((i, n) :: ns)).length) = n.buffer.cells.length + (nodesCells ns).length := by
        simp
      have hsub : (k : Int) - (min k n.buffer.cells.length : Nat) = (k - n.buffer.cells.length : Nat) := by omega
      have hstep : ∀ res, commonBufferPopLoop dst fuel cb₂ (k - n.buffer.cells.length : Nat) = some res →
          commonBufferPopLoop dst (fuel + 1) cb k =
            some (res.1, (if dst then n.buffer.cells.take k else []) ++ res.2.1, res.2.2) := by
        intro res hres
        have hk0 : ¬ ((k : Int) ≤ 0) := by omega
        simp only [commonBufferPopLoop, hk0, if_false, hhead, hdrain, hunlink, Option.bind_eq_bind,
          Option.bind_some, hsub, hres]
      rw [nodesCells_cons, hcells₁] at hcells₂
      by_cases hall : k ≤ n.buffer.cells.length
      · -- the head has it all
        refine ⟨cb₂, ns₂, ?_, h₂, by omega, by omega, ?_⟩
        · have h0 := done fuel cb₂
          rw [show 0 = k - n.buffer.cells.length by omega] at h0
          rw [hstep _ h0, nodesCells_cons, List.take_append_of_le_length hall, List.append_nil]
        · rw [hcells₂, nodesCells_cons, List.drop_append_of_le_length hall]
      · -- the head is used up and goes
        have hdrop : n.buffer.cells.drop k = [] := List.drop_eq_nil_of_le (by omega)
        have hne : ns ≠ [] := by rintro rfl; rw [nodesCells_nil, List.length_nil] at hlen; omega
        obtain rfl := hgone (hcells₁.trans hdrop) hne
        obtain ⟨cb', ns', hloop, h', hnode', hmax', hcells'⟩ :=
          ih (k := k - n.buffer.cells.length) (by simp at hfuel; omega) h₂ (by omega) (by omega) (by omega)
        refine ⟨cb', ns', ?_, h', by omega, by omega, ?_⟩
        · rw [hstep _ hloop, nodesCells_cons, List.take_append]
          cases dst <;> simp
        · rw [hcells', nodesCells_cons, List.drop_append, hdrop, List.nil_append]

/-- **Pop**: the oldest bytes, as many as asked for and there are. -/
theorem commonBufferPop_spec (h : cb.Holds ns) (dst : Bool) {k : Nat} (hk : k < 4294967296) :
    ∃ ret cb' ns', commonBufferPop cb dst k = some (ret, if dst then (nodesCells ns).take k else [],
        ((min k (nodesCells ns).length : Nat) : Int), cb') ∧
      cb'.Holds ns' ∧ cb'.nodeSize = cb.nodeSize ∧ cb'.maxSize = cb.maxSize ∧
      nodesCells ns' = (nodesCells ns).drop k := by
  have hlt := h.length_lt
  have hsmall := h.circ.small
  have hsize : (if (k : Int) > toU32 ((nodesCells ns).length : Int) then toU32 ((nodesCells ns).length : Int)
      else k) = (min k (nodesCells ns).length : Nat) := by
    rw [toU32_eq (by omega) (by omega)]; split <;> omega
  have htake : (nodesCells ns).take (min k (nodesCells ns).length) = (nodesCells ns).take k := by
    rw [List.take_eq_take_iff]; omega
  have hdrop : (nodesCells ns).drop (min k (nodesCells ns).length) = (nodesCells ns).drop k := by
    rw [List.drop_eq_drop_iff]; omega
  cases ns with
  | nil =>
    have hhead : cb.head = none := h.linked
    refine ⟨.errEmpty, cb, [], ?_, h, rfl, rfl, by simp⟩
    simp only [commonBufferPop, h.getCount, Option.bind_eq_bind, Option.bind_some, hsize, hhead]
    simp
  | cons x ns =>
    have hhead : cb.head = some x.1 := h.linked.1
    have hnodes := h.linked.length_le h.nodup
    have hturns : min k (nodesCells (x :: ns)).length + (x :: ns).length ≤
        min k (nodesCells (x :: ns)).length + cb.heap.length := by omega
    obtain ⟨cb', ns', hloop, hrest⟩ := commonBufferPopLoop_spec dst hturns h (by omega) (by omega)
    rw [htake] at hloop
    rw [hdrop] at hrest
    refine ⟨.success, cb', ns', ?_, hrest⟩
    simp only [commonBufferPop, h.getCount, Option.bind_eq_bind, Option.bind_some, hsize, hhead,
      Int.toNat_natCast, hloop]

/-! ## Clear -/

theorem commonBufferClearLoop_spec {fuel : Nat} (hfuel : ns.length ≤ fuel)
    (h : Linked CommonNode.next cb.heap cb.head ns) (hnd : (ns.map Prod.fst).Nodup) :
    ∃ heap, commonBufferClearLoop fuel cb = some { cb with heap, head := none } ∧
      live heap + ns.length = live cb.heap := by
  induction fuel generalizing cb ns with
  | zero =>
    obtain rfl : ns = [] := List.length_eq_zero_iff.1 (by omega)
    have hhead : cb.head = none := h
    exact ⟨cb.heap, by cases cb; simp_all [commonBufferClearLoop], rfl⟩
  | succ fuel ih =>
    cases ns with
    | nil =>
      have hhead : cb.head = none := h
      exact ⟨cb.heap, by cases cb; simp_all [commonBufferClearLoop], rfl⟩
    | cons x ns =>
      obtain ⟨i, n⟩ := x
      obtain ⟨heap, hloop, hlive⟩ := @ih { cb with heap := cb.heap.set i none, head := n.next } ns
        (by simpa using hfuel) (h.free_head (List.nodup_cons.1 hnd).1) (List.nodup_cons.1 hnd).2
      have hhead : cb.head = some i := h.1
      have hfree := live_free h.2.1
      refine ⟨heap, by simpa [commonBufferClearLoop, hhead, h.2.1, free?_eq h.2.1] using hloop, ?_⟩
      rw [List.length_cons]
      dsimp only at hlive
      omega

/-- **Clear**: nothing is left. -/
theorem commonBufferClear_spec (h : cb.Holds ns) :
    ∃ cb', commonBufferClear cb = some (.success, cb') ∧ cb'.Holds [] ∧ cb'.nodeSize = cb.nodeSize ∧
      cb'.maxSize = cb.maxSize := by
  obtain ⟨heap, hloop, hlive⟩ := commonBufferClearLoop_spec (h.linked.length_le h.nodup) h.linked h.nodup
  refine ⟨{ cb with heap, readCount := cb.writeCount, head := none, tail := none },
    by simp [commonBufferClear, hloop], ?_, rfl, rfl⟩
  have hc := h.circ
  refine ⟨rfl, .nil, rfl, by simp, by simp, by simp,
    ⟨hc.write_nonneg, hc.write_lt, hc.write_nonneg, hc.write_lt, hc.small⟩, by simp [circDist], ?_, h.node_pos,
    h.node_small⟩
  have := h.owned
  dsimp only
  rw [List.length_nil]
  omega

end

/-! ## One bounded queue -/

/-- A call on a buffer; lengths and sizes are `uint32_t`. -/
inductive CommonBufferCall (α : Type)
  | push (src : { l : List α // l.length < 4294967296 })
  | pop (dst : Bool) (size : Fin 4294967296)
  | clear

/-- From here on `cb` answers as the queue `q` of capacity `cap` does: the counts are those of `q`, a push
stores all or (`COMMON_BUF_ERR_SIZE`) changes nothing, a pop delivers from the front and reports how much. -/
def CommonBuffer.Behaves {cap : Nat} (q : Fifo α cap) (cb : CommonBuffer α) :
    List (CommonBufferCall α) → Prop
  | [] => commonBufferGetCount cb = some (q.items.length : Int) ∧ commonBufferGetFreeCount cb = some (q.free : Int)
  | .push src :: calls =>
    match q.push? src with
    | some q' => ∃ cb', commonBufferPush (fun _ => true) cb src = some (.success, cb') ∧ cb'.Behaves q' calls
    | none => commonBufferPush (fun _ => true) cb src = some (.errSize, cb) ∧ cb.Behaves q calls
  | .pop dst size :: calls =>
    ∃ ret cb', commonBufferPop cb dst size = some (ret, if dst then (q.pop size).1.map some else [],
        ((q.pop size).1.length : Int), cb') ∧ cb'.Behaves (q.pop size).2 calls
  | .clear :: calls =>
    ∃ cb', commonBufferClear cb = some (.success, cb') ∧ cb'.Behaves (Fifo.empty : Fifo α cap) calls

theorem CommonBuffer.Holds.behaves {cap : Nat} {q : Fifo α cap} {cb : CommonBuffer α}
    {ns : List (Nat × CommonNode α)} (h : cb.Holds ns) (hq : nodesCells ns = q.items.map some)
    (hcap : cb.maxSize = cap + 1) (hmax : 2 * cb.maxSize < 2147483648) (calls : List (CommonBufferCall α)) :
    cb.Behaves q calls := by
  have hlen : (nodesCells ns).length = q.items.length := by rw [hq, List.length_map]
  have hroom := q.length_add_free
  induction calls generalizing cb ns q with
  | nil =>
    refine ⟨hlen ▸ h.getCount, h.getFreeCount.trans ?_⟩
    congr 1; omega
  | cons call calls ih =>
    cases call with
    | push src =>
      have hpush := commonBufferPush_spec h src.2
      cases hp : q.push? src with
      | some q' =>
        obtain ⟨hle, hq'⟩ := Fifo.push?_eq_some.1 hp
        rw [if_pos (by omega)] at hpush
        obtain ⟨cb', ns', hpush, h', hnode, hmax', hcells⟩ := hpush
        have hq'' : nodesCells ns' = q'.items.map some := by rw [hcells, hq, hq', List.map_append]
        simp only [CommonBuffer.Behaves, hp]
        exact ⟨cb', hpush, ih h' hq'' (by omega) (by omega) (by rw [hq'', List.length_map])
          q'.length_add_free⟩
      | none =>
        have hle := Fifo.push?_eq_none.1 hp
        rw [if_neg (by omega)] at hpush
        simp only [CommonBuffer.Behaves, hp]
        exact ⟨hpush, ih h hq hcap hmax hlen hroom⟩
    | pop dst size =>
      obtain ⟨ret, cb', ns', hpop, h', hnode, hmax', hcells⟩ := commonBufferPop_spec h dst size.2
      have hq' : nodesCells ns' = (q.pop size).2.items.map some := by
        rw [hcells, hq, Fifo.pop_items, List.map_drop]
      refine ⟨ret, cb', ?_, ih h' hq' (by omega) (by omega) (by rw [hq', List.length_map])
        (q.pop size).2.length_add_free⟩
      rw [hpop, hq, Fifo.pop_fst, List.map_take, List.length_take, List.length_map]
    | clear =>
      obtain ⟨cb', hclear, h', hnode, hmax'⟩ := commonBufferClear_spec h
      exact ⟨cb', hclear, ih h' rfl (by omega) (by omega) rfl Fifo.empty.length_add_free⟩

/-- **The chained buffer is a bounded queue**, whatever is called on it, as long as no ring is so large
that the sums of its positions leave `int`. -/
theorem commonBuffer_behaves (nodeSize maxSize : Nat) (h1 : 1 ≤ nodeSize)
    (h2 : 2 * (nodeSize + 1) ≤ 2147483648) (h3 : 2 * (maxSize + 1) < 2147483648)
    (calls : List (CommonBufferCall α)) :
    (commonBufferInit nodeSize maxSize : CommonBuffer α).Behaves (Fifo.empty : Fifo α maxSize) calls := by
  have hmax : (commonBufferInit nodeSize maxSize : CommonBuffer α).maxSize = maxSize + 1 := by
    simp only [commonBufferInit]
    rw [toU32_eq (by omega) (by omega), toI32_eq (by omega) (by omega)]
  exact (commonBufferInit_holds (by omega) (by omega) (by omega) (by omega)).behaves rfl hmax (by omega) calls

/-- Five bytes through nodes of three, in a buffer of eight. -/
theorem commonBuffer_behaves_small :
    (commonBufferInit 3 8 : CommonBuffer Nat).Behaves (Fifo.empty : Fifo Nat 8)
      [.push ⟨[1, 2, 3, 4, 5], by decide⟩, .pop true 4, .clear] :=
  commonBuffer_behaves 3 8 (by decide) (by decide) (by decide) _

/-- A node of `2^32 - 1` bytes is made from a ring of size 0: the first push writes outside its block and
divides by zero. -/
theorem commonBuffer_wrapped_node :
    ¬ ∀ (nodeSize maxSize : Nat) (calls : List (CommonBufferCall Nat)), 1 ≤ nodeSize → nodeSize < 4294967296 →
      2 * (maxSize + 1) < 2147483648 →
      (commonBufferInit nodeSize maxSize : CommonBuffer Nat).Behaves (Fifo.empty : Fifo Nat maxSize) calls := by
  intro h
  have h0 := h 4294967295 10 [.push ⟨[7], by decide⟩] (by decide) (by decide) (by decide)
  have hpush : commonBufferPush (fun _ => true) (commonBufferInit 4294967295 10 : CommonBuffer Nat) [7] = none := by
    decide
  obtain ⟨cb', hcb, -⟩ := h0
  simp [hpush] at hcb

end AudioPlayer

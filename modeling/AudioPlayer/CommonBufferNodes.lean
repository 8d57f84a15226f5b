import Mathlib
import AudioPlayer.CommonBufferPush

/-!
# The nodes of the chained buffer (`utils/common_buffer.h:17-31`)

`CommonBuffer.Holds` is what the proofs of the calls carry. `CommonBuffer.Nodes` says the same in what the code itself
computes, `ring_buffer_get_count` and `ring_buffer_get_free_count` of each node and `common_buffer_get_count`, and adds
what it is for: how many nodes there are at most.

Both sizes are kept in an `int` with 1 added, and the counts add up to twice that before they subtract. From `2^30` on
such a sum leaves `int`: `commonBuffer_nodes_overflow` is at the first size of either kind.
-/

namespace AudioPlayer
open Lib

variable {α : Type} {cb cb' : CommonBuffer α} {ns : List (Nat × CommonNode α)}

/-- The nodes of a buffer made with `nodeSize`, in the order in which `head` leads to them. -/
structure CommonBuffer.Nodes (nodeSize : Nat) (cb : CommonBuffer α) (ns : List (Nat × CommonNode α)) : Prop where
  linked : Linked CommonNode.next cb.heap cb.head ns
  /-- A node other than the first and the last is full. -/
  full   : ∀ n ∈ ns.dropLast.tail, ringBufferGetFreeCount n.2.buffer = some 0
  counts : ∃ counts, ns.mapM (fun n => ringBufferGetCount n.2.buffer) = some counts ∧
    commonBufferGetCount cb = some counts.sum
  null   : cb.head = none ↔ cb.tail = none
  last   : cb.tail = (ns.map Prod.fst).getLast?
  /-- No other node is allocated, -/
  owned  : live cb.heap = ns.length
  /-- and not many are. -/
  few    : ∃ count, commonBufferGetCount cb = some count ∧ (live cb.heap : Int) ≤ count / nodeSize + 2

/-! ## What the nodes hold -/

theorem length_nodesCells (hring : ∀ n ∈ ns, n.2.buffer.Valid) :
    (nodesCells ns).length = (ns.map fun n => n.2.buffer.count).sum := by
  induction ns with
  | nil => rfl
  | cons n ns ih =>
    rw [nodesCells_cons, List.length_append, (hring n (by simp)).length_cells, List.map_cons, List.sum_cons,
      ih fun m hm => hring m (by simp [hm])]

theorem mapM_getCount (hring : ∀ n ∈ ns, n.2.buffer.Valid) :
    ns.mapM (fun n => ringBufferGetCount n.2.buffer) = some (ns.map fun n => (n.2.buffer.count : Int)) := by
  induction ns with
  | nil => rfl
  | cons n ns ih =>
    simp only [List.mapM_cons, (hring n (by simp)).getCount, ih fun m hm => hring m (by simp [hm]),
      Option.bind_eq_bind, Option.bind_some, Option.pure_def, List.map_cons]

/-- Full nodes hold `nodeSize` bytes each. -/
theorem length_full {nodeSize : Nat} (hring : ∀ n ∈ ns, n.2.buffer.Valid)
    (hcount : ∀ n ∈ ns, n.2.buffer.count = nodeSize) : (nodesCells ns).length = ns.length * nodeSize := by
  rw [length_nodesCells hring, List.map_congr_left hcount, List.map_const', List.sum_replicate, smul_eq_mul]

theorem CommonBuffer.Holds.nodes {nodeSize : Nat} (h : cb.Holds ns) (hnode : cb.nodeSize = nodeSize) :
    cb.Nodes nodeSize ns := by
  have hpos := h.node_pos
  have hinner : ns.dropLast.tail.Sublist ns := (List.tail_sublist _).trans (List.dropLast_sublist ns)
  have hfree : ∀ n ∈ ns.dropLast.tail, n.2.buffer.Valid ∧ n.2.buffer.count = nodeSize := by
    intro n hn
    have hr := h.ring n (hinner.subset hn)
    have hsize := h.size_eq n (hinner.subset hn)
    have hlt := hr.count_lt
    have hfull := h.full n hn
    unfold RingBuffer.free at hfull
    exact ⟨hr, by omega⟩
  refine ⟨h.linked, ?_, ?_, ?_, h.tail_eq, h.owned, _, h.getCount, ?_⟩
  · intro n hn
    obtain ⟨hr, hcount⟩ := hfree n hn
    rw [hr.getFreeCount, hcount, h.size_eq n (hinner.subset hn), hnode]
    congr 1
    omega
  · refine ⟨_, mapM_getCount h.ring, ?_⟩
    rw [h.getCount, length_nodesCells h.ring]
    simp [Function.comp_def]
  · rw [h.linked.head_eq, h.tail_eq]
    simp
  · have hle := (hinner.flatMap (f := fun n => n.2.buffer.cells)).length_le
    have hlen := length_full (fun n hn => (hfree n hn).1) fun n hn => (hfree n hn).2
    have hfew : ns.dropLast.tail.length = ns.length - 1 - 1 := by simp
    have hdiv : ns.length - 1 - 1 ≤ (nodesCells ns).length / nodeSize := by
      rw [Nat.le_div_iff_mul_le (by omega), ← hfew, ← hlen]
      exact hle
    rw [h.owned]
    have : ((nodesCells ns).length : Int) / nodeSize = ((nodesCells ns).length / nodeSize : Nat) := rfl
    omega

/-! ## Every run -/

/-- A call on a buffer that is well formed returns. -/
theorem CommonBuffer.Made.returns {nodeSize maxSize : Nat} (h : cb.Made nodeSize maxSize)
    (a : CommonBufferCall α × (Nat → Bool)) : ∃ cb', CommonBufferStep cb a cb' := by
  obtain ⟨ns, hns⟩ := h.holds
  obtain ⟨call, ok⟩ := a
  cases call with
  | push src =>
    rcases commonBufferPush_stores ok hns src.2 with ⟨-, hpush⟩ | ⟨-, ret, cb', ns', k, hpush, -⟩
    · exact ⟨cb, .push hpush⟩
    · exact ⟨cb', .push hpush⟩
  | pop dst size =>
    obtain ⟨ret, cb', ns', hpop, -⟩ := commonBufferPop_spec hns dst size.2
    exact ⟨cb', .pop hpop⟩
  | clear =>
    obtain ⟨cb', hclear, -⟩ := commonBufferClear_spec hns
    exact ⟨cb', .clear hclear⟩

theorem CommonBuffer.Made.run {nodeSize maxSize : Nat} (h : cb.Made nodeSize maxSize)
    (calls : List (CommonBufferCall α × (Nat → Bool))) : ∃ cb', Steps CommonBufferStep cb calls cb' := by
  induction calls generalizing cb with
  | nil => exact ⟨cb, .nil⟩
  | cons a calls ih =>
    obtain ⟨cb₁, hstep⟩ := h.returns a
    obtain ⟨cb', hrun⟩ := ih (hstep.made h)
    exact ⟨cb', .cons hstep hrun⟩

/-- **The representation invariant**: whatever is called, and whichever allocations succeed, the calls return and leave
`CommonBuffer.Nodes`. -/
theorem commonBuffer_nodes (nodeSize maxSize : Nat) (h1 : 1 ≤ nodeSize) (h2 : 2 * (nodeSize + 1) ≤ 2147483648)
    (h3 : 2 * (maxSize + 1) ≤ 2147483648) (calls : List (CommonBufferCall α × (Nat → Bool))) :
    (∃ cb, Steps CommonBufferStep (commonBufferInit nodeSize maxSize : CommonBuffer α) calls cb) ∧
    ∀ cb, Steps CommonBufferStep (commonBufferInit nodeSize maxSize : CommonBuffer α) calls cb →
      ∃ ns, cb.Nodes nodeSize ns := by
  constructor
  · exact (commonBuffer_made h1 h2 h3 (Reach.refl _)).run calls
  · intro cb hrun
    obtain ⟨⟨ns, hns⟩, hnode, -⟩ := commonBuffer_made h1 h2 h3 ⟨calls, hrun⟩
    exact ⟨ns, hns.nodes hnode⟩

/-- Five bytes through nodes of two; three of them are popped, and the rest is cleared. -/
theorem commonBuffer_nodes_five :
    (∃ cb, Steps CommonBufferStep (commonBufferInit (2 : Nat) (8 : Nat) : CommonBuffer Nat)
      [(.push ⟨[1, 2, 3, 4, 5], by decide⟩, fun _ => true), (.pop true 3, fun _ => true), (.clear, fun _ => true)] cb) ∧
    ∀ cb, Steps CommonBufferStep (commonBufferInit (2 : Nat) (8 : Nat) : CommonBuffer Nat)
      [(.push ⟨[1, 2, 3, 4, 5], by decide⟩, fun _ => true), (.pop true 3, fun _ => true), (.clear, fun _ => true)] cb →
      ∃ ns, cb.Nodes 2 ns :=
  commonBuffer_nodes 2 8 (by decide) (by decide) (by decide) _

/-! ## Larger sizes -/

/-- With both positions at 0, no sum is larger than the size. -/
theorem circFree?_zero {n : Int} (h0 : 0 < n) (hn : n < 2147483648) : circFree? n 0 0 = some (n - 1) := by
  simp only [circFree?]
  rw [int32?_eq (by omega) (by omega), Option.bind_eq_bind, Option.bind_some, int32?_eq (by omega) (by omega)]
  simp only [Option.bind_some]
  rw [if_neg (by omega), int32?_eq (by omega) (by omega)]
  simp

/-- A ring that is only filled once keeps within `int` up to a size of `2^31 - 1`. -/
theorem ringBufferPush_first {n : Nat} {src : List α} (hn : n < 2147483648) (hsrc : src.length < n) :
    ringBufferPush ⟨0, 0, n, List.replicate n none⟩ src =
      some ((src.length : Int),
        ⟨0, src.length, n, src.map some ++ List.replicate (n - src.length) none⟩) := by
  have hfree : ringBufferGetFreeCount (⟨0, 0, n, List.replicate n none⟩ : RingBuffer α) = some ((n : Int) - 1) :=
    @circFree?_zero n (by omega) (by omega)
  have hcount : (if toU32 ((n : Int) - 1) > src.length then toI32 src.length else (n : Int) - 1) = src.length := by
    rw [toU32_eq (by omega) (by omega), toI32_eq (by omega) (by omega)]
    split <;> omega
  have hcopy := @memcpy?_eq _ (List.replicate n (none : Option α)) (src.map some) 0 src.length (by simp; omega) (by simp)
  simp only [List.take_zero, List.nil_append, Nat.zero_add, List.drop_replicate, Nat.cast_zero] at hcopy
  rw [List.take_of_length_le (by simp)] at hcopy
  have htmp : int32? (n : Int) = some (n : Int) := int32?_eq (by omega) (by omega)
  unfold ringBufferPush
  simp only [Int.sub_zero, Int.zero_add, htmp, hfree, Option.bind_eq_bind, Option.bind_some, hcount,
    ringBufferCopyIn]
  rw [if_pos (by omega), hcopy, Option.bind_some, int32?_eq (by omega) (by omega), Option.bind_some,
    intMod?_eq (by omega) (by omega) (by omega), Option.bind_some, toU32_eq (by omega) (by omega),
    Int.emod_eq_of_lt (by omega) (by omega)]

theorem commonBufferCreateNode_eq {nodeSize : Nat} (hnode : nodeSize + 1 < 2147483648) :
    commonBufferCreateNode true (toU32 nodeSize) =
      some (⟨⟨0, 0, (nodeSize + 1 : Nat), List.replicate (nodeSize + 1) none⟩, none⟩ : CommonNode α) := by
  have hsize : toI32 (toU32 (toU32 (nodeSize : Int) + 1)) = (nodeSize + 1 : Nat) := by
    rw [@toU32_eq (nodeSize : Int) (by omega) (by omega), toU32_eq (by omega) (by omega),
      toI32_eq (by omega) (by omega)]
    omega
  simp only [commonBufferCreateNode, ringBufferInit, hsize, if_true]
  rw [if_pos (by omega)]
  simp only [Option.map_some, Int.toNat_natCast]

/-- It is filled. -/
theorem commonBufferFill_only {r r' : RingBuffer α} {src : List α} {len readCount writeCount nodeSize maxSize : Int}
    (hpush : ringBufferPush r src = some (len, r')) :
    commonBufferFill ⟨readCount, writeCount, nodeSize, maxSize, some 0, some 0, [some ⟨r, none⟩]⟩ src =
      (counterAdd writeCount len maxSize).map fun writeCount =>
        (⟨readCount, writeCount, nodeSize, maxSize, some 0, some 0, [some ⟨r', none⟩]⟩, src.drop len.toNat) := by
  have hload : ∀ node : CommonNode α, load? [some node] 0 = some node := fun _ => rfl
  simp only [commonBufferFill, Option.bind_eq_bind, Option.bind_some, hload, hpush, store?_eq (hload _),
    List.set_cons_zero]
  cases counterAdd writeCount len maxSize <;> rfl

/-- A push into a buffer without nodes that is stored in one. -/
theorem commonBufferPush_only {r r' : RingBuffer α} {src : List α} {readCount writeCount nodeSize maxSize free count : Int}
    (hne : src ≠ []) (hfree : circFree? maxSize readCount writeCount = some free) (hfit : src.length ≤ toU32 free)
    (hcreate : commonBufferCreateNode true (toU32 nodeSize) = some ⟨r, none⟩)
    (hpush : ringBufferPush r src = some ((src.length : Int), r'))
    (hcount : counterAdd writeCount src.length maxSize = some count) :
    commonBufferPush (fun _ => true) ⟨readCount, writeCount, nodeSize, maxSize, none, none, []⟩ src =
      some (.success, ⟨readCount, count, nodeSize, maxSize, some 0, some 0, [some ⟨r', none⟩]⟩) := by
  have hpos := List.length_pos_iff.2 hne
  obtain ⟨fuel, hfuel⟩ : ∃ fuel, src.length = fuel + 1 := ⟨src.length - 1, by omega⟩
  have hfill := @commonBufferFill_only α r r' src src.length readCount writeCount nodeSize maxSize hpush
  rw [hcount, Option.map_some, Int.toNat_natCast, List.drop_length] at hfill
  have hdone : ∀ cb : CommonBuffer α, commonBufferPushLoop (fun _ => true) fuel cb [] = some (.success, cb) := by
    intro cb
    cases fuel <;> rfl
  have hget : commonBufferGetFreeCount (⟨readCount, writeCount, nodeSize, maxSize, none, none, []⟩ : CommonBuffer α) =
      some free := hfree
  unfold commonBufferPush
  rw [hget, Option.bind_eq_bind, Option.bind_some, if_neg (by omega), hfuel]
  refine (commonBufferPushLoop_succ hne).trans ?_
  simp only [commonBufferTailFull, hcreate, commonBufferLink, hfill, hdone, Option.bind_eq_bind, Option.bind_some,
    if_true, List.length_nil, List.nil_append]

/-- The node of a first push, filled. -/
def firstNode (nodeSize : Nat) (src : List α) : CommonNode α :=
  ⟨⟨0, src.length, (nodeSize + 1 : Nat), src.map some ++ List.replicate (nodeSize + 1 - src.length) none⟩, none⟩

/-- A first push that one node can take: the sums it makes are within `int` up to sizes of `2^31 - 2`. -/
theorem commonBufferPush_first {nodeSize maxSize : Nat} {src : List α} (hne : src ≠ [])
    (hnode : nodeSize + 1 < 2147483648) (hmax : maxSize + 1 < 2147483648) (hlen : src.length ≤ nodeSize)
    (hfit : src.length ≤ maxSize) :
    commonBufferPush (fun _ => true) (commonBufferInit nodeSize maxSize) src = some (.success,
      ⟨0, src.length, nodeSize, (maxSize + 1 : Nat), some 0, some 0, [some (firstNode nodeSize src)]⟩) := by
  have hinit : (commonBufferInit nodeSize maxSize : CommonBuffer α) =
      ⟨0, 0, nodeSize, (maxSize + 1 : Nat), none, none, []⟩ := by
    unfold commonBufferInit
    rw [toI32_eq (by omega) (by omega), toU32_eq (by omega) (by omega), toI32_eq (by omega) (by omega)]
    rfl
  have hfree := @circFree?_zero ((maxSize + 1 : Nat) : Int) (by omega) (by omega)
  have hcount : counterAdd 0 src.length ((maxSize + 1 : Nat) : Int) = some (src.length : Int) := by
    unfold counterAdd
    rw [toU32_eq (by omega) (by omega), toU32_eq (by omega) (by omega), u32Mod?_eq (by omega), Option.map_some,
      Int.zero_add, Int.emod_eq_of_lt (by omega) (by omega), toI32_eq (by omega) (by omega)]
  rw [hinit]
  refine commonBufferPush_only hne hfree ?_ (commonBufferCreateNode_eq hnode)
    (ringBufferPush_first hnode (by omega)) hcount
  rw [toU32_eq (by omega) (by omega)]
  omega

/-- The sum of a size and a position that leaves `int`. -/
theorem circCount?_overflow {n len : Nat} (h : 2147483648 ≤ n + len) : circCount? (n : Int) 0 len = none := by
  have hsum : int32? ((n : Int) + len) = none := by
    unfold int32?
    rw [if_neg (by omega)]
  simp only [circCount?, hsum, Option.bind_eq_bind, Option.bind_none]

/-- A count is reached that has no value: of the node, or of the buffer. -/
theorem commonBuffer_first_overflow {nodeSize maxSize : Nat} (hnode : nodeSize + 1 < 2147483648)
    (hmax : maxSize + 1 < 2147483648) {src : { l : List α // l.length < 4294967296 }} (hne : src.1 ≠ [])
    (hlen : src.1.length ≤ nodeSize) (hfit : src.1.length ≤ maxSize) :
    ∃ cb : CommonBuffer α,
      Steps CommonBufferStep (commonBufferInit nodeSize maxSize) [(.push src, fun _ => true)] cb ∧
      (2147483648 ≤ nodeSize + 1 + src.1.length → ∃ i node, cb.head = some i ∧ load? cb.heap i = some node ∧
        ringBufferGetCount node.buffer = none) ∧
      (2147483648 ≤ maxSize + 1 + src.1.length → commonBufferGetCount cb = none) := by
  refine ⟨_, .one (.push (commonBufferPush_first hne hnode hmax hlen hfit)), fun h => ?_, fun h => ?_⟩
  · exact ⟨0, firstNode nodeSize src.1, rfl, rfl, circCount?_overflow h⟩
  · exact circCount?_overflow h

/-- **At `2^30` the counts overflow**, in the one direction and the other: with nodes of `2^30` bytes, a push of one byte
less leaves a node that cannot be counted, and with a capacity of `2^30` a buffer that cannot be. -/
theorem commonBuffer_nodes_overflow :
    (∃ calls, ∃ cb : CommonBuffer Nat,
      Steps CommonBufferStep (commonBufferInit (1073741824 : Nat) (1073741823 : Nat)) calls cb ∧
      ∃ i node, cb.head = some i ∧ load? cb.heap i = some node ∧ ringBufferGetCount node.buffer = none) ∧
    ∃ calls, ∃ cb : CommonBuffer Nat,
      Steps CommonBufferStep (commonBufferInit (1073741823 : Nat) (1073741824 : Nat)) calls cb ∧
      commonBufferGetCount cb = none := by
  obtain ⟨src, hsrc⟩ : ∃ src : List Nat, src.length = 1073741823 := ⟨List.replicate _ 0, List.length_replicate⟩
  have hne : src ≠ [] := List.length_pos_iff.1 (by omega)
  constructor
  · obtain ⟨cb, hrun, hnode, -⟩ := @commonBuffer_first_overflow Nat 1073741824 1073741823 (by omega) (by omega)
      ⟨src, by omega⟩ hne (by dsimp only; omega) (by dsimp only; omega)
    exact ⟨_, cb, hrun, hnode (by dsimp only; omega)⟩
  · obtain ⟨cb, hrun, -, hcount⟩ := @commonBuffer_first_overflow Nat 1073741823 1073741824 (by omega) (by omega)
      ⟨src, by omega⟩ hne (by dsimp only; omega) (by dsimp only; omega)
    exact ⟨_, cb, hrun, hcount (by dsimp only; omega)⟩

end AudioPlayer

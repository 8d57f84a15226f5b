import Mathlib
import AudioPlayer.CommonBufferSpsc

/-!
# Every run of the chained buffer's two threads

Nodes are allocated by one thread and linked in that order, so the node at address `i` is the `i`-th: `H`
of them have been unlinked and `M` of them linked, the head is `H` and the tail `M - 1`. `stream i` is what
was ever pushed into node `i`, and `R` how much of node `H` was popped. `CommonSpsc.InvAt` says everything
in terms of these; `InvAt.produce` and `InvAt.consume` are the two step lemmas.

That a pop returns is `CommonPop.rank`: each turn of its loop delivers a byte or frees a node, and no two
turns in a row deliver nothing.
-/

namespace AudioPlayer
open Lib

variable {α : Type}

/-- The first `n` streams, one after the other. -/
def upTo (stream : Nat → List α) (n : Nat) : List α := (List.range n).flatMap stream

@[simp] theorem upTo_zero (stream : Nat → List α) : upTo stream 0 = [] := rfl

theorem upTo_succ (stream : Nat → List α) (n : Nat) : upTo stream (n + 1) = upTo stream n ++ stream n := by
  unfold upTo
  rw [List.range_succ, List.flatMap_append, List.flatMap_singleton]

theorem upTo_congr {f g : Nat → List α} {n : Nat} (h : ∀ i, i < n → f i = g i) : upTo f n = upTo g n := by
  induction n with
  | zero => rfl
  | succ n ih => rw [upTo_succ, upTo_succ, ih fun i hi => h i (by omega), h n (by omega)]

theorem upTo_mono (stream : Nat → List α) {m n : Nat} (h : m ≤ n) : upTo stream m <+: upTo stream n := by
  induction n with
  | zero =>
    obtain rfl : m = 0 := by omega
    exact List.prefix_rfl
  | succ n ih =>
    rcases Nat.lt_or_ge m (n + 1) with hm | hm
    · rw [upTo_succ]
      exact (ih (by omega)).trans (List.prefix_append _ _)
    · obtain rfl : m = n + 1 := by omega
      exact List.prefix_rfl

/-! ## Where the two threads are -/

namespace CommonPush

/-- A node was made and is not the tail yet. -/
def pending : CommonPush α → Bool
  | .headCheck _ _ | .firstTail _ _ | .firstHead _ _ | .lastLoad _ _ | .link _ _ _ | .tailStore _ _ => true
  | _ => false

/-- The new node is linked behind the tail. -/
def linked : CommonPush α → Bool
  | .tailStore _ _ => true
  | _ => false

/-- The tail while there is no head. -/
def firstNode : CommonPush α → Option Nat
  | .firstHead _ tmp => some tmp
  | _ => none

/-- Bytes that lie in a node and are not counted in `write_count`. -/
def uncounted : CommonPush α → Nat
  | .count _ len => len.toNat
  | _ => 0

/-- How many bytes of the call are still to be stored. -/
def todo : CommonPush α → Nat
  | .idle | .entered _ => 0
  | .loop rest | .tailLoad rest | .tailFree rest _ | .create rest | .headCheck rest _ | .firstTail rest _
  | .firstHead rest _ | .lastLoad rest _ | .link rest _ _ | .tailStore rest _ | .fillLoad rest
  | .count rest _ => rest.length
  | .fill _ p =>
    match p with
    | .idle => 0
    | .entered src | .sized src _ | .copy src _ _ | .copyRest src _ _ | .store src _ => src.length

/-- The tail, if there is one, was filled. -/
def TailUsed (M : Nat) (stream : Nat → List α) : Prop := ∀ k, k + 1 = M → stream k ≠ []

/-- What the pusher knows where it is; `rd` is how much of the tail was popped. -/
def Ok (S : Nat) (heap : List (Option (CommonNode α))) (M rd : Nat) (stream : Nat → List α) : CommonPush α → Prop
  | .idle | .loop _ => True
  | .entered src => src.length < 4294967296
  | .tailLoad _ | .fillLoad _ => M ≠ 0
  | .tailFree _ tail => tail + 1 = M
  | .create _ => TailUsed M stream
  | .headCheck _ tmp => tmp = M ∧ TailUsed M stream
  | .firstTail _ tmp | .firstHead _ tmp => tmp = 0 ∧ M = 0
  | .lastLoad _ tmp | .tailStore _ tmp => tmp = M ∧ M ≠ 0 ∧ TailUsed M stream
  | .link _ tmp tail => tmp = M ∧ tail + 1 = M ∧ TailUsed M stream
  | .fill tail p => tail + 1 = M ∧ p ≠ .idle ∧
      ∀ node, load? heap tail = some node → p.Ok S node.buffer.buffer (stream tail).length rd
  | .count _ len => ∃ n : Nat, len = n

end CommonPush

/-- What a call's locals always satisfy. -/
structure PopCall.Ok (c : PopCall α) : Prop where
  size  : c.size = min c.requested c.count.toNat
  count : 0 ≤ c.count
  pos   : c.pos = c.out.length
  le    : c.pos ≤ c.size
  small : c.size < 4294967296

/-- The ring's pop takes at most `rem` bytes, and if it has found none there will be none. -/
def SpscPop.Within (rem : Nat) (drained : Prop) : SpscPop α → Prop
  | .entered _ size | .sized _ size _ => size = rem
  | .copy _ count | .copyRest _ _ count | .store _ count => count ≤ rem ∧ (count = 0 → drained)
  | .idle | .clear | .clearStore _ => False

namespace CommonPop

/-- Bytes that were taken out of a node and are not counted in `read_count`. -/
def uncounted : CommonPop α → Nat
  | .count _ len => len.toNat
  | _ => 0

/-- The call under way. -/
def call? : CommonPop α → Option (PopCall α)
  | .idle | .entered _ _ => none
  | .headCheck call | .loop call | .drainLoad call | .drain call _ _ | .count call _ | .countLoad call
  | .headCount call _ | .headLoad call | .tailCompare call _ | .tmpLoad call | .nextHead call _
  | .nextLoad call _ _ | .headStore call _ _ | .nullCheck call _ | .tailClear call _ | .destroy call _
  | .ret call _ => some call

/-- How many bytes of the call are still to be delivered. -/
def remaining (c : CommonPop α) : Nat := (c.call?.map fun call => call.size - call.pos).getD 0

/-- What the call under way has delivered. -/
def out (c : CommonPop α) : List (Option α) := (c.call?.map PopCall.out).getD []

/-- The head is used up and there is another node. -/
def Drained (H M R : Nat) (stream : Nat → List α) : Prop := H + 1 < M ∧ R = (stream H).length

/-- The node that was the head is unlinked and was read to its end. -/
def Dying (S : Nat) (heap : List (Option (CommonNode α))) (H M R : Nat) (stream : Nat → List α) (tmp : Nat) : Prop :=
  M ≠ 0 ∧ R = 0 ∧ tmp + 1 = H ∧
    ∃ r next, load? heap tmp = some ⟨r, next⟩ ∧ Published S r (stream tmp) (stream tmp).length

/-- What the popper knows where it is. -/
def Ok (S : Nat) (heap : List (Option (CommonNode α))) (H M R : Nat) (stream : Nat → List α) : CommonPop α → Prop
  | .idle | .headCheck _ | .loop _ => True
  | .entered _ requested => requested < 4294967296
  | .drainLoad call => call.pos < call.size
  | .drain call head c => head = H ∧ M ≠ 0 ∧ call.pos < call.size ∧ c.Ok S (stream H) R ∧
      c.Within (call.size - call.pos) (Drained H M R stream)
  | .count _ len => M ≠ 0 ∧ ∃ n : Nat, len = n
  | .countLoad _ => M ≠ 0
  | .headCount _ head => M ≠ 0 ∧ head = H
  | .headLoad _ => M ≠ 0 ∧ (R = (stream H).length ∨ H + 1 = M)
  | .tailCompare _ head => M ≠ 0 ∧ (R = (stream H).length ∨ H + 1 = M) ∧ head = some H
  | .tmpLoad _ => Drained H M R stream
  | .nextHead _ tmp => Drained H M R stream ∧ tmp = H
  | .nextLoad _ tmp head => Drained H M R stream ∧ tmp = H ∧ head = H
  | .headStore _ tmp next => Drained H M R stream ∧ tmp = H ∧ next = some (H + 1)
  | .nullCheck _ tmp | .destroy _ tmp => Dying S heap H M R stream tmp
  | .tailClear _ _ => False
  | .ret call _ => call.pos = call.size

end CommonPop

/-- The invariant of a run: nodes of `S` cells, counters modulo `C`. -/
structure CommonSpsc.InvAt (S C : Nat) (s : CommonSpsc α) (H M R : Nat) (stream : Nat → List α) : Prop where
  maxSize    : s.buffer.maxSize = C
  nodeSize   : s.buffer.nodeSize = S - 1
  heap       : s.buffer.heap.length = M + if s.producer.pending then 1 else 0
  head       : s.buffer.head = if M = 0 then none else some H
  tail       : s.buffer.tail = if M = 0 then s.producer.firstNode else some (M - 1)
  bound      : H < M ∨ M = 0 ∧ H = 0 ∧ R = 0
  node       : ∀ i, H ≤ i → i < M → ∃ r,
    load? s.buffer.heap i = some ⟨r, if i + 1 < M ∨ s.producer.linked then some (i + 1) else none⟩ ∧
      Published S r (stream i) (if i = H then R else 0)
  fresh      : s.producer.pending = true → ∃ r, load? s.buffer.heap M = some ⟨r, none⟩ ∧ Published S r [] 0
  used       : ∀ i, i + 1 < M → stream i ≠ []
  later      : ∀ i, M ≤ i → stream i = []
  pushed     : s.pushed = upTo stream M
  popped     : s.popped = (upTo stream H ++ (stream H).take R).map some
  writeCount : s.buffer.writeCount = ((s.pushed.length - s.producer.uncounted) % C : Nat)
  readCount  : s.buffer.readCount = ((s.popped.length - s.consumer.uncounted) % C : Nat)
  readLe     : s.consumer.uncounted ≤ s.popped.length
  room       : s.pushed.length + s.producer.todo < s.popped.length - s.consumer.uncounted + C
  avail      : s.popped.length + s.consumer.remaining + s.producer.uncounted ≤ s.pushed.length
  producer   : s.producer.Ok S s.buffer.heap M (if H + 1 = M then R else 0) stream
  consumer   : s.consumer.Ok S s.buffer.heap H M R stream
  call       : ∀ call, s.consumer.call? = some call → call.Ok
  log        : s.popped = s.returned.flatMap PopCall.out ++ s.consumer.out
  returned   : ∀ call ∈ s.returned, 0 ≤ call.count ∧ call.out.length = min call.requested call.count.toNat

section
variable {S C H M R : Nat} {s : CommonSpsc α} {stream : Nat → List α} {heap heap' : List (Option (CommonNode α))}

/-! ## What the popper knows survives the pusher -/

namespace CommonPop
variable {c : CommonPop α}

/-- Nodes that were unlinked are not written. -/
theorem Ok.frame (h : c.Ok S heap H M R stream)
    (hheap : ∀ i n, i < H → load? heap i = some n → load? heap' i = some n) : c.Ok S heap' H M R stream := by
  have dying : ∀ {tmp}, Dying S heap H M R stream tmp → Dying S heap' H M R stream tmp := by
    rintro tmp ⟨hM, hR, htmp, r, next, hload, hpub⟩
    exact ⟨hM, hR, htmp, r, next, hheap _ _ (by omega) hload, hpub⟩
  cases c with
  | nullCheck | destroy => exact dying h
  | _ => exact h

/-- Only the stream of the tail grows, and only while it is the tail. -/
theorem Ok.append (h : c.Ok S heap H M R stream) (hbound : H < M) (xs : List α) :
    c.Ok S heap H M R (Function.update stream (M - 1) (stream (M - 1) ++ xs)) := by
  have other : ∀ i, i + 1 < M → Function.update stream (M - 1) (stream (M - 1) ++ xs) i = stream i :=
    fun i hi => Function.update_of_ne (by omega) _ _
  have drained : Drained H M R stream →
      Drained H M R (Function.update stream (M - 1) (stream (M - 1) ++ xs)) :=
    fun hd => ⟨hd.1, by rw [other H hd.1]; exact hd.2⟩
  have found : (R = (stream H).length ∨ H + 1 = M) →
      (R = (Function.update stream (M - 1) (stream (M - 1) ++ xs) H).length ∨ H + 1 = M) := by
    intro hf
    rcases Nat.lt_or_ge (H + 1) M with hlt | hge
    · rw [other H hlt]; exact hf
    · exact .inr (by omega)
  have dying : ∀ {tmp}, Dying S heap H M R stream tmp →
      Dying S heap H M R (Function.update stream (M - 1) (stream (M - 1) ++ xs)) tmp := by
    rintro tmp ⟨hM, hR, htmp, r, next, hload, hpub⟩
    refine ⟨hM, hR, htmp, r, next, hload, ?_⟩
    rw [other tmp (by omega)]
    exact hpub
  cases c with
  | drain call head c =>
    obtain ⟨hhead, hM, hpos, hc, hwithin⟩ := h
    refine ⟨hhead, hM, hpos, ?_, ?_⟩
    · by_cases hH : H = M - 1
      · rw [hH, Function.update_self]
        rw [hH] at hc
        exact hc.append
      · rw [Function.update_of_ne hH]
        exact hc
    · cases c with
      | copy | copyRest | store => exact ⟨hwithin.1, fun h0 => drained (hwithin.2 h0)⟩
      | _ => exact hwithin
  | headLoad => exact ⟨h.1, found h.2⟩
  | tailCompare => exact ⟨h.1, found h.2.1, h.2.2⟩
  | tmpLoad => exact drained h
  | nextHead => exact ⟨drained h.1, h.2⟩
  | nextLoad => exact ⟨drained h.1, h.2⟩
  | headStore => exact ⟨drained h.1, h.2⟩
  | nullCheck | destroy => exact dying h
  | _ => exact h

/-- The tail moves on, off a node that is empty if the popper has found it so. -/
theorem Ok.grow (h : c.Ok S heap H M R stream)
    (hfound : c.FoundEmpty → M ≠ 0 → H + 1 = M → R = (stream H).length) : c.Ok S heap H (M + 1) R stream := by
  have drained : Drained H M R stream → Drained H (M + 1) R stream := fun hd => ⟨Nat.lt_succ_of_lt hd.1, hd.2⟩
  have dying : ∀ {tmp}, Dying S heap H M R stream tmp → Dying S heap H (M + 1) R stream tmp :=
    fun hd => ⟨Nat.succ_ne_zero _, hd.2⟩
  cases c with
  | drain call head c =>
    obtain ⟨hhead, hM, hpos, hc, hwithin⟩ := h
    refine ⟨hhead, Nat.succ_ne_zero _, hpos, hc, ?_⟩
    cases c with
    | copy | copyRest | store => exact ⟨hwithin.1, fun h0 => drained (hwithin.2 h0)⟩
    | _ => exact hwithin
  | count => exact ⟨Nat.succ_ne_zero _, h.2⟩
  | countLoad => exact Nat.succ_ne_zero _
  | headCount => exact ⟨Nat.succ_ne_zero _, h.2⟩
  | headLoad => exact ⟨Nat.succ_ne_zero _, .inl (h.2.elim id (hfound trivial h.1))⟩
  | tailCompare => exact ⟨Nat.succ_ne_zero _, .inl (h.2.1.elim id (hfound trivial h.1)), h.2.2⟩
  | tmpLoad => exact drained h
  | nextHead => exact ⟨drained h.1, h.2⟩
  | nextLoad => exact ⟨drained h.1, h.2⟩
  | headStore => exact ⟨drained h.1, h.2⟩
  | nullCheck | destroy => exact dying h
  | _ => exact h

end CommonPop

/-! ## One statement of the pusher -/

/-- The sizes: a node has room for a byte, and no sum of two positions overflows. -/
structure SpscSizes (S C : Nat) : Prop where
  node       : 2 ≤ S
  node_small : 2 * S ≤ 2147483648
  max        : 1 ≤ C
  max_small  : 2 * C ≤ 2147483648

/-- A counter moves on by `n`. -/
theorem counterAdd_mod {a n : Nat} (hC : 1 ≤ C) (hsmall : 2 * C ≤ 2147483648) (hn : n ≤ C) :
    counterAdd ((a % C : Nat) : Int) n C = some (((a + n) % C : Nat) : Int) := by
  have ha := Nat.mod_lt a hC
  rw [counterAdd_eq (by omega) (by omega) (by omega) (by omega), ← Nat.mod_add_mod]
  rfl

/-- A statement of the pusher is defined and keeps the invariant, and the head's stream does not get shorter. -/
def CommonSpsc.PushKeeps (S C : Nat) (s : CommonSpsc α) (H R : Nat) (stream : Nat → List α) : Prop :=
  ∃ cb p M' stream', commonPushStep s.buffer s.producer = some (cb, p) ∧
    CommonSpsc.InvAt S C { s with buffer := cb, producer := p, pushed := s.pushed ++ s.producer.accepted }
      H M' R stream' ∧ (stream H).length ≤ (stream' H).length

/-- No node is linked and nothing is stored. -/
theorem CommonSpsc.PushKeeps.stay {cb' : CommonBuffer α} {p : CommonPush α}
    (heq : commonPushStep s.buffer s.producer = some (cb', p))
    (hinv : CommonSpsc.InvAt S C
      { s with buffer := cb', producer := p, pushed := s.pushed ++ s.producer.accepted } H M R stream) :
    s.PushKeeps S C H R stream := ⟨cb', p, M, stream, heq, hinv, Nat.le_refl _⟩

/-- No stream gets shorter when one of them grows. -/
theorem stream_le_update (stream : Nat → List α) (xs : List α) (i j : Nat) :
    (stream j).length ≤ (Function.update stream i (stream i ++ xs) j).length := by
  by_cases hj : j = i
  · rw [hj, Function.update_self, List.length_append]
    exact Nat.le_add_right _ _
  · rw [Function.update_of_ne hj]

namespace CommonSpsc.InvAt

/-- The pusher goes on without having written anything. -/
theorem setProducer (h : s.InvAt S C H M R stream) {p : CommonPush α}
    (hpending : p.pending = s.producer.pending) (hlinked : p.linked = s.producer.linked)
    (hfirst : M = 0 → p.firstNode = s.producer.firstNode) (hunc : p.uncounted = s.producer.uncounted)
    (hroom : s.pushed.length + p.todo < s.popped.length - s.consumer.uncounted + C)
    (hok : p.Ok S s.buffer.heap M (if H + 1 = M then R else 0) stream) :
    InvAt S C { s with producer := p, pushed := s.pushed ++ [] } H M R stream := by
  rw [List.append_nil]
  refine { h with
    heap := by rw [hpending]; exact h.heap
    tail := ?_
    node := by rw [hlinked]; exact h.node
    fresh := by rw [hpending]; exact h.fresh
    writeCount := by rw [hunc]; exact h.writeCount
    room := hroom
    avail := by rw [hunc]; exact h.avail
    producer := hok }
  rw [h.tail]
  split
  · exact (hfirst ‹_›).symm
  · rfl

theorem popped_length (h : s.InvAt S C H M R stream) : s.popped.length = (upTo stream H).length + R := by
  rw [h.popped, List.length_map, List.length_append, List.length_take]
  rcases h.bound with hH | ⟨rfl, rfl, rfl⟩
  · obtain ⟨r, -, hpub⟩ := h.node H (Nat.le_refl H) hH
    rw [if_pos rfl] at hpub
    have := hpub.le
    omega
  · rw [Nat.zero_min]

theorem read_le (h : s.InvAt S C H M R stream) : R ≤ (stream H).length := by
  rcases h.bound with hH | ⟨rfl, rfl, rfl⟩
  · obtain ⟨r, -, hpub⟩ := h.node H (Nat.le_refl H) hH
    rw [if_pos rfl] at hpub
    exact hpub.le
  · exact Nat.zero_le _

/-- The tail's node. -/
theorem tailNode (h : s.InvAt S C H M R stream) {tail : Nat} (htail : tail + 1 = M) : ∃ r,
    load? s.buffer.heap tail = some ⟨r, if s.producer.linked then some (tail + 1) else none⟩ ∧
      Published S r (stream tail) (if H + 1 = M then R else 0) := by
  have hbound := h.bound
  obtain ⟨r, hload, hpub⟩ := h.node tail (by omega) (by omega)
  refine ⟨r, ?_, ?_⟩
  · rw [hload]
    congr 3
    rw [eq_iff_iff]
    exact or_iff_right (by omega)
  · convert hpub using 2
    omega

variable {cb : CommonBuffer α} {consumer : CommonPop α} {pushed rest : List α} {popped : List (Option α)}
  {returned : List (PopCall α)} {tmp tail : Nat}

/-- A node of one byte or more is made. -/
theorem create (hsz : SpscSizes S C)
    (h : InvAt S C ⟨cb, .create rest, consumer, pushed, popped, returned⟩ H M R stream) :
    PushKeeps S C ⟨cb, .create rest, consumer, pushed, popped, returned⟩ H R stream := by
  obtain ⟨n, rfl⟩ : ∃ n, S = n + 1 := ⟨S - 1, by have := hsz.node; omega⟩
  have hsmall := hsz.node_small
  obtain ⟨r, hinit, hpub⟩ := @ringBufferInit_published α n (by omega)
  have hsize : toU32 cb.nodeSize = n := by
    rw [show cb.nodeSize = _ from h.nodeSize, toU32_eq (by omega) (by omega)]
    omega
  have hlen : cb.heap.length = M := h.heap
  refine ⟨{ cb with heap := cb.heap ++ [some ⟨r, none⟩] }, .headCheck rest cb.heap.length, M, stream, ?_, ?_,
    Nat.le_refl _⟩
  · simp only [commonPushStep, commonBufferCreateNode, hsize, hinit, if_true, Option.map_some,
      Option.bind_eq_bind, Option.bind_some]
  · show InvAt _ C ⟨_, _, _, pushed ++ [], _, _⟩ _ _ _ _
    rw [List.append_nil]
    exact { h with
      heap := by rw [List.length_append, hlen]; rfl
      node := by
        intro i h1 h2
        obtain ⟨r', hload, hpub'⟩ := h.node i h1 h2
        exact ⟨r', load?_append hload _, hpub'⟩
      fresh := fun _ => ⟨r, by rw [← hlen]; exact load?_append_self, hpub⟩
      producer := ⟨hlen, h.producer⟩
      consumer := h.consumer.frame fun i _ _ hload => load?_append hload _ }

/-- The first node becomes the head. -/
theorem firstHead (h : InvAt S C ⟨cb, .firstHead rest tmp, consumer, pushed, popped, returned⟩ H M R stream) :
    InvAt S C ⟨{ cb with head := some tmp }, .fillLoad rest, consumer, pushed ++ [], popped, returned⟩
      H (M + 1) R stream := by
  rw [List.append_nil]
  obtain ⟨rfl, rfl⟩ : tmp = 0 ∧ M = 0 := h.producer
  obtain ⟨rfl, rfl⟩ : H = 0 ∧ R = 0 := by
    rcases h.bound with hH | hH
    · omega
    · exact hH.2
  have hempty : stream 0 = [] := h.later 0 (Nat.le_refl 0)
  obtain ⟨r, hload, hpub⟩ := h.fresh rfl
  exact { h with
    head := rfl
    tail := h.tail
    bound := .inl (Nat.lt_succ_self 0)
    node := by
      intro i _ hi
      obtain rfl : i = 0 := by omega
      refine ⟨r, hload, ?_⟩
      rw [hempty, if_pos rfl]
      exact hpub
    fresh := fun hp => Bool.noConfusion hp
    used := fun i hi => absurd hi (by omega)
    later := fun i _ => h.later i (Nat.zero_le i)
    pushed := by
      rw [upTo_succ, hempty, List.append_nil]
      exact h.pushed
    producer := Nat.succ_ne_zero 0
    consumer := h.consumer.grow fun _ h0 => absurd rfl h0 }

/-- The new node is linked behind the tail. -/
theorem link (h : InvAt S C ⟨cb, .link rest tmp tail, consumer, pushed, popped, returned⟩ H M R stream) :
    PushKeeps S C ⟨cb, .link rest tmp tail, consumer, pushed, popped, returned⟩ H R stream := by
  obtain ⟨rfl, htail, hused⟩ : tmp = M ∧ tail + 1 = M ∧ _ := h.producer
  obtain ⟨r, hload, hpub⟩ := h.tailNode htail
  have hbound := h.bound
  have hload : load? cb.heap tail = some ⟨r, none⟩ := hload
  refine ⟨{ cb with heap := cb.heap.set tail (some ⟨r, some tmp⟩) }, .tailStore rest tmp, tmp, stream, ?_, ?_,
    Nat.le_refl _⟩
  · simp only [commonPushStep, hload, store?_eq hload, Option.bind_eq_bind, Option.bind_some]
  · show InvAt S C ⟨_, _, _, pushed ++ [], _, _⟩ _ _ _ _
    rw [List.append_nil]
    exact { h with
      heap := by rw [List.length_set]; exact h.heap
      node := by
        intro i h1 h2
        obtain ⟨r', hload', hpub'⟩ := h.node i h1 h2
        rcases Nat.lt_or_ge i tail with hi | hi
        · refine ⟨r', ?_, hpub'⟩
          rw [load?_set_ne (by omega), hload', if_pos (.inl (by omega)), if_pos (.inl (by omega))]
        · obtain rfl : i = tail := by omega
          refine ⟨r, ?_, ?_⟩
          · rw [load?_set_self (load?_lt hload), if_pos (.inr rfl), htail]
          · obtain rfl : r = r' := by
              rw [hload] at hload'
              exact (CommonNode.mk.inj (Option.some.inj hload')).1
            exact hpub'
      fresh := by
        intro _
        obtain ⟨r', hload', hpub'⟩ := h.fresh rfl
        exact ⟨r', (load?_set_ne (by omega) _).trans hload', hpub'⟩
      producer := ⟨rfl, by omega, hused⟩
      consumer := h.consumer.frame fun i n hi hn => (load?_set_ne (by omega) _).trans hn }

/-- The tail moves on to the new node. -/
theorem tailStore (h : InvAt S C ⟨cb, .tailStore rest tmp, consumer, pushed, popped, returned⟩ H M R stream)
    (hkeep : FoundEmptyStaysEmpty ⟨cb, .tailStore rest tmp, consumer, pushed, popped, returned⟩ .producer) :
    InvAt S C ⟨{ cb with tail := some tmp }, .fillLoad rest, consumer, pushed ++ [], popped, returned⟩
      H (M + 1) R stream := by
  rw [List.append_nil]
  obtain ⟨rfl, hM, hused⟩ : tmp = M ∧ M ≠ 0 ∧ _ := h.producer
  have hH : H < tmp := h.bound.resolve_right fun h0 => hM h0.1
  obtain ⟨r, hload, hpub⟩ := h.fresh rfl
  have hempty : stream tmp = [] := h.later tmp (Nat.le_refl tmp)
  exact { h with
    heap := h.heap
    head := by
      rw [if_neg (Nat.succ_ne_zero tmp)]
      exact h.head.trans (if_neg hM)
    tail := by
      rw [if_neg (Nat.succ_ne_zero tmp)]
      rfl
    bound := .inl (by omega)
    node := by
      intro i h1 h2
      rcases Nat.lt_or_ge i tmp with hi | hi
      · obtain ⟨r', hload', hpub'⟩ := h.node i h1 hi
        refine ⟨r', ?_, hpub'⟩
        rw [if_pos (.inl (by omega))]
        exact hload'.trans (by rw [if_pos (.inr rfl)])
      · obtain rfl : i = tmp := by omega
        refine ⟨r, ?_, ?_⟩
        · rw [if_neg (by rintro (h0 | h0) <;> [omega; exact Bool.noConfusion h0])]
          exact hload
        · rw [hempty, if_neg (by omega)]
          exact hpub
    fresh := fun hp => Bool.noConfusion hp
    used := by
      intro i hi
      rcases Nat.lt_or_ge (i + 1) tmp with hlt | hge
      · exact h.used i hlt
      · exact hused i (by omega)
    later := fun i hi => h.later i (by omega)
    pushed := by
      rw [upTo_succ, hempty, List.append_nil]
      exact h.pushed
    producer := Nat.succ_ne_zero tmp
    consumer := by
      refine h.consumer.grow fun hfound _ htail => ?_
      -- the head is the tail: what was found empty is empty
      obtain ⟨r', hload', hpub'⟩ := h.node H (Nat.le_refl H) hH
      rw [if_pos rfl] at hpub'
      have hcount := hkeep rest tmp H _ rfl hfound (h.head.trans (if_neg hM))
        ((h.tail.trans (if_neg hM)).trans (by congr 1; omega)) hload'
      dsimp only at hcount
      rw [hpub'.count] at hcount
      have := hpub'.le
      omega }

/-- The ring of the tail has taken a step, and its stream has grown by what the step stores. -/
theorem filled {p : SpscPush α} {q : CommonPush α} {r r' : RingBuffer α}
    (h : InvAt S C ⟨cb, .fill (M - 1) p, consumer, pushed, popped, returned⟩ H M R stream) (hbound : H < M)
    (hload : load? cb.heap (M - 1) = some ⟨r, none⟩)
    (hpub : Published S r' (stream (M - 1) ++ p.accepted) (if H + 1 = M then R else 0))
    (hpending : q.pending = false) (hlinked : q.linked = false) (hunc : q.uncounted = p.accepted.length)
    (htodo : p.accepted.length + q.todo ≤ (CommonPush.fill (M - 1) p).todo)
    (hq : q.Ok S (cb.heap.set (M - 1) (some ⟨r', none⟩)) M (if H + 1 = M then R else 0)
      (Function.update stream (M - 1) (stream (M - 1) ++ p.accepted))) :
    InvAt S C ⟨{ cb with heap := cb.heap.set (M - 1) (some ⟨r', none⟩) }, q, consumer, pushed ++ p.accepted,
      popped, returned⟩ H M R (Function.update stream (M - 1) (stream (M - 1) ++ p.accepted)) := by
  set grown := Function.update stream (M - 1) (stream (M - 1) ++ p.accepted) with hgrown
  have hself : grown (M - 1) = stream (M - 1) ++ p.accepted := Function.update_self ..
  have hother : ∀ i, i ≠ M - 1 → grown i = stream i := fun i hi => Function.update_of_ne hi _ _
  have hread : (stream H).take R = (grown H).take R := by
    by_cases hH : H = M - 1
    · rw [hH, hself, List.take_append_of_le_length]
      rw [← hH]
      exact h.read_le
    · rw [hother H hH]
  exact { h with
    heap := by
      rw [List.length_set, hpending]
      exact h.heap
    tail := h.tail.trans (by rw [if_neg (by omega), if_neg (by omega)])
    node := by
      intro i h1 h2
      rw [hlinked]
      by_cases hi : i = M - 1
      · subst hi
        refine ⟨r', ?_, ?_⟩
        · rw [load?_set_self (load?_lt hload), if_neg (by rintro (h0 | h0) <;> [omega; cases h0])]
        · rw [hself]
          convert hpub using 2
          omega
      · rw [load?_set_ne (Ne.symm hi), hother i hi]
        exact h.node i h1 h2
    fresh := fun h0 => by rw [hpending] at h0; cases h0
    used := by
      intro i hi
      rw [hother i (by omega)]
      exact h.used i hi
    later := by
      intro i hi
      rw [hother i (by omega)]
      exact h.later i hi
    pushed := by
      rw [show M = M - 1 + 1 by omega, upTo_succ, hself, upTo_congr fun i hi => hother i (by omega),
        ← List.append_assoc, ← upTo_succ, show M - 1 + 1 = M by omega]
      exact congrArg (· ++ _) h.pushed
    popped := by
      rw [← hread, upTo_congr fun i hi => hother i (by omega)]
      exact h.popped
    writeCount := by
      rw [hunc, List.length_append, Nat.add_sub_cancel]
      exact h.writeCount
    room := by
      rw [List.length_append, Nat.add_assoc]
      exact Nat.lt_of_le_of_lt (Nat.add_le_add_left htodo _) h.room
    avail := by
      rw [hunc, List.length_append]
      have : popped.length + consumer.remaining + 0 ≤ pushed.length := h.avail
      dsimp only
      omega
    producer := hq
    consumer := (h.consumer.append hbound _).frame fun i n hi hn =>
      (load?_set_ne (by omega) _).trans hn }

/-- The ring of the tail takes a step; its stream grows by what the step stores. -/
theorem fill {p : SpscPush α} (h : InvAt S C ⟨cb, .fill tail p, consumer, pushed, popped, returned⟩ H M R stream) :
    PushKeeps S C ⟨cb, .fill tail p, consumer, pushed, popped, returned⟩ H R stream := by
  obtain ⟨htail, hidle, hp⟩ : tail + 1 = M ∧ p ≠ .idle ∧ _ := h.producer
  obtain rfl : tail = M - 1 := by omega
  have hbound : H < M := h.bound.resolve_right fun h0 => by omega
  obtain ⟨r, hload, hpub⟩ := h.tailNode htail
  have hload : load? cb.heap (M - 1) = some ⟨r, none⟩ := hload
  have hok := hp _ hload
  obtain ⟨r', p', hstep, hpub', hok'⟩ := pushStep_spec hpub hok
  have hturn := pushStep_turn hpub hok hstep
  have inside : p.accepted = [] → p' ≠ .idle → (CommonPush.fill (M - 1) p').todo = (CommonPush.fill (M - 1) p).todo →
      InvAt S C ⟨{ cb with heap := cb.heap.set (M - 1) (some ⟨r', none⟩) }, .fill (M - 1) p', consumer,
        pushed ++ p.accepted, popped, returned⟩ H M R
        (Function.update stream (M - 1) (stream (M - 1) ++ p.accepted)) := by
    intro hacc hp' htodo
    refine h.filled hbound hload hpub' rfl rfl (by rw [hacc]; rfl) ?_ ⟨htail, hp', fun node hnode => ?_⟩
    · rw [hacc, htodo]
      exact Nat.le_of_eq (Nat.zero_add _)
    rw [load?_set_self (load?_lt hload)] at hnode
    obtain rfl := Option.some.inj hnode
    rw [Function.update_self]
    exact hok'
  refine ⟨{ cb with heap := cb.heap.set (M - 1) (some ⟨r', none⟩) }, p.back (M - 1) p', M, _, ?_, ?_,
    stream_le_update stream p.accepted (M - 1) H⟩
  · simp only [commonPushStep, hload, hstep, store?_eq hload, Option.bind_eq_bind, Option.bind_some]
  · show InvAt S C ⟨_, _, _, pushed ++ p.accepted, _, _⟩ _ _ _ _
    obtain ⟨xs, hxs⟩ : ∃ xs, xs = p.accepted := ⟨_, rfl⟩
    rw [← hxs] at hturn
    cases hturn with
    | idle => exact absurd rfl hidle
    | entered | sized | copy | copyMore | copyRest => exact inside rfl nofun rfl
    | @store src count =>
      obtain ⟨n, rfl, hn, -⟩ := hok
      have hacc : (SpscPush.store src (n : Int)).accepted.length = n := by
        simp only [SpscPush.accepted, List.length_take, Int.toNat_natCast]
        omega
      refine h.filled (q := .count (src.drop (n : Int).toNat) n) hbound hload hpub' rfl rfl ?_ ?_ ⟨n, rfl⟩
      · rw [hacc]
        rfl
      · rw [hacc]
        simp only [CommonPush.todo, List.length_drop, Int.toNat_natCast]
        omega

/-- The bytes of a turn are counted. -/
theorem count {len : Int} (hsz : SpscSizes S C)
    (h : InvAt S C ⟨cb, .count rest len, consumer, pushed, popped, returned⟩ H M R stream) :
    PushKeeps S C ⟨cb, .count rest len, consumer, pushed, popped, returned⟩ H R stream := by
  obtain ⟨n, rfl⟩ : ∃ n : Nat, len = n := h.producer
  have hroom : pushed.length + rest.length < popped.length - consumer.uncounted + C := h.room
  have havail : popped.length + consumer.remaining + n ≤ pushed.length := h.avail
  have hwrite : cb.writeCount = ((pushed.length - n) % C : Nat) := h.writeCount
  have hadd := @counterAdd_mod C (pushed.length - n) n hsz.max hsz.max_small (by omega)
  rw [show pushed.length - n + n = pushed.length by omega] at hadd
  refine ⟨{ cb with writeCount := (pushed.length % C : Nat) }, .loop rest, M, stream, ?_, ?_, Nat.le_refl _⟩
  · simp only [commonPushStep, hwrite, show cb.maxSize = _ from h.maxSize, hadd, Option.bind_eq_bind, Option.bind_some]
  · show InvAt S C ⟨_, _, _, pushed ++ [], _, _⟩ _ _ _ _
    rw [List.append_nil]
    exact { h with
      heap := h.heap
      tail := h.tail
      node := h.node
      fresh := fun hp => Bool.noConfusion hp
      writeCount := rfl
      room := hroom
      avail := (by omega : popped.length + consumer.remaining + 0 ≤ pushed.length)
      producer := trivial }

/-- A push begins only if the free count has room for all of it. -/
theorem pushEntered {src : List α} (hsz : SpscSizes S C)
    (h : InvAt S C ⟨cb, .entered src, consumer, pushed, popped, returned⟩ H M R stream) :
    PushKeeps S C ⟨cb, .entered src, consumer, pushed, popped, returned⟩ H R stream := by
  have hsrc : src.length < 4294967296 := h.producer
  have hmax := hsz.max_small
  have havail : popped.length + consumer.remaining + 0 ≤ pushed.length := h.avail
  have hroom : pushed.length + 0 < popped.length - consumer.uncounted + C := h.room
  have hcirc : Circ (C : Nat) _ _ := circ_mod (a := popped.length - consumer.uncounted) (b := pushed.length)
    hsz.max hmax
  have hfree : commonBufferGetFreeCount cb = some (((C - 1 - (pushed.length -
      (popped.length - consumer.uncounted)) : Nat)) : Int) := by
    unfold commonBufferGetFreeCount
    rw [show cb.maxSize = _ from h.maxSize, show cb.readCount = _ from h.readCount,
      show cb.writeCount = _ from h.writeCount, show CommonPush.uncounted (.entered src) = 0 from rfl, Nat.sub_zero,
      hcirc.free, circDist_mod (by omega) (by omega)]
    congr 1
    omega
  refine .stay (M := M) (by simp only [commonPushStep, hfree, Option.bind_eq_bind, Option.bind_some]; rfl) ?_
  rw [toU32_eq (by omega) (by omega)]
  split
  · exact h.setProducer rfl rfl (fun _ => rfl) rfl hroom trivial
  · refine h.setProducer rfl rfl (fun _ => rfl) rfl ?_ trivial
    show pushed.length + src.length < popped.length - consumer.uncounted + C
    omega

/-- Another turn of the loop, if bytes are left. -/
theorem pushLoop (h : InvAt S C ⟨cb, .loop rest, consumer, pushed, popped, returned⟩ H M R stream) :
    PushKeeps S C ⟨cb, .loop rest, consumer, pushed, popped, returned⟩ H R stream := by
  have htail : cb.tail = if M = 0 then none else some (M - 1) := h.tail
  cases rest with
  | nil => exact .stay rfl (h.setProducer rfl rfl (fun _ => rfl) rfl h.room trivial)
  | cons b rest =>
    refine .stay (M := M) rfl ?_
    by_cases hM : M = 0
    · rw [if_pos (by rw [htail, if_pos hM])]
      exact h.setProducer rfl rfl (fun _ => rfl) rfl h.room fun k hk => absurd hk (by omega)
    · rw [if_neg (by rw [htail, if_neg hM]; exact Option.some_ne_none _)]
      exact h.setProducer rfl rfl (fun _ => rfl) rfl h.room hM

theorem tailLoad (h : InvAt S C ⟨cb, .tailLoad rest, consumer, pushed, popped, returned⟩ H M R stream) :
    PushKeeps S C ⟨cb, .tailLoad rest, consumer, pushed, popped, returned⟩ H R stream := by
  have hM : M ≠ 0 := h.producer
  have htail : cb.tail = some (M - 1) := h.tail.trans (if_neg hM)
  refine .stay (M := M) (by simp only [commonPushStep, htail, Option.bind_eq_bind, Option.bind_some]; rfl) ?_
  exact h.setProducer rfl rfl (fun _ => rfl) rfl h.room (by show M - 1 + 1 = M; omega)

/-- A node without room has been used. -/
theorem tailFree (hsz : SpscSizes S C)
    (h : InvAt S C ⟨cb, .tailFree rest tail, consumer, pushed, popped, returned⟩ H M R stream) :
    PushKeeps S C ⟨cb, .tailFree rest tail, consumer, pushed, popped, returned⟩ H R stream := by
  have htail : tail + 1 = M := h.producer
  obtain ⟨r, hload, hpub⟩ := h.tailNode htail
  have hload : load? cb.heap tail = some ⟨r, none⟩ := hload
  have hnode := hsz.node
  generalize (if H + 1 = M then R else 0) = rd at hpub
  refine .stay (M := M) (by
    simp only [commonPushStep, hload, hpub.getFreeCount, Option.bind_eq_bind, Option.bind_some]
    rfl) ?_
  split
  · rename_i hfull
    refine h.setProducer rfl rfl (fun _ => rfl) rfl h.room fun k hk hnil => ?_
    obtain rfl : k = tail := by omega
    rw [hnil, List.length_nil] at hfull
    omega
  · exact h.setProducer rfl rfl (fun _ => rfl) rfl h.room (by show M ≠ 0; omega)

/-- The first node goes another way than the later ones. -/
theorem pushHeadCheck (h : InvAt S C ⟨cb, .headCheck rest tmp, consumer, pushed, popped, returned⟩ H M R stream) :
    PushKeeps S C ⟨cb, .headCheck rest tmp, consumer, pushed, popped, returned⟩ H R stream := by
  obtain ⟨rfl, hused⟩ : tmp = M ∧ _ := h.producer
  have hhead : cb.head = if tmp = 0 then none else some H := h.head
  refine .stay (M := tmp) rfl ?_
  by_cases hM : tmp = 0
  · rw [if_pos (by rw [hhead, if_pos hM])]
    exact h.setProducer rfl rfl (fun _ => rfl) rfl h.room ⟨hM, hM⟩
  · rw [if_neg (by rw [hhead, if_neg hM]; exact Option.some_ne_none _)]
    exact h.setProducer rfl rfl (fun _ => rfl) rfl h.room ⟨rfl, hM, hused⟩

theorem firstTail (h : InvAt S C ⟨cb, .firstTail rest tmp, consumer, pushed, popped, returned⟩ H M R stream) :
    PushKeeps S C ⟨cb, .firstTail rest tmp, consumer, pushed, popped, returned⟩ H R stream := by
  obtain ⟨rfl, rfl⟩ : tmp = 0 ∧ M = 0 := h.producer
  refine .stay (M := 0) rfl ?_
  dsimp only [CommonPush.accepted]
  rw [List.append_nil]
  exact { h with
    heap := h.heap
    tail := rfl
    node := h.node
    fresh := h.fresh
    room := h.room
    producer := ⟨rfl, rfl⟩ }

theorem lastLoad (h : InvAt S C ⟨cb, .lastLoad rest tmp, consumer, pushed, popped, returned⟩ H M R stream) :
    PushKeeps S C ⟨cb, .lastLoad rest tmp, consumer, pushed, popped, returned⟩ H R stream := by
  obtain ⟨rfl, hM, hused⟩ : tmp = M ∧ M ≠ 0 ∧ _ := h.producer
  have htail : cb.tail = some (tmp - 1) := h.tail.trans (if_neg hM)
  refine .stay (M := tmp) (by simp only [commonPushStep, htail, Option.bind_eq_bind, Option.bind_some]; rfl) ?_
  exact h.setProducer rfl rfl (fun h0 => absurd h0 hM) rfl h.room ⟨rfl, by omega, hused⟩

theorem fillLoad (hsz : SpscSizes S C)
    (h : InvAt S C ⟨cb, .fillLoad rest, consumer, pushed, popped, returned⟩ H M R stream) :
    PushKeeps S C ⟨cb, .fillLoad rest, consumer, pushed, popped, returned⟩ H R stream := by
  have hM : M ≠ 0 := h.producer
  have htail : cb.tail = some (M - 1) := h.tail.trans (if_neg hM)
  have hmax := hsz.max_small
  have havail : popped.length + consumer.remaining + 0 ≤ pushed.length := h.avail
  have hroom : pushed.length + rest.length < popped.length - consumer.uncounted + C := h.room
  refine .stay (M := M) (by simp only [commonPushStep, htail, Option.bind_eq_bind, Option.bind_some]; rfl) ?_
  refine h.setProducer rfl rfl (fun _ => rfl) rfl hroom ⟨by omega, nofun, fun _ _ => ?_⟩
  show rest.length < 4294967296
  omega

/-- One statement of the pusher keeps the invariant: one lemma per statement. -/
theorem pushKeeps (hsz : SpscSizes S C) (h : s.InvAt S C H M R stream) (hkeep : FoundEmptyStaysEmpty s .producer) :
    s.PushKeeps S C H R stream := by
  obtain ⟨cb, producer, consumer, pushed, popped, returned⟩ := s
  cases producer with
  | idle => exact .stay rfl (h.setProducer rfl rfl (fun _ => rfl) rfl h.room h.producer)
  | entered src => exact h.pushEntered hsz
  | loop rest => exact h.pushLoop
  | tailLoad rest => exact h.tailLoad
  | tailFree rest tail => exact h.tailFree hsz
  | create rest => exact h.create hsz
  | headCheck rest tmp => exact h.pushHeadCheck
  | firstTail rest tmp => exact h.firstTail
  | firstHead rest tmp => exact ⟨_, _, _, _, rfl, h.firstHead, Nat.le_refl _⟩
  | lastLoad rest tmp => exact h.lastLoad
  | link rest tmp tail => exact h.link
  | tailStore rest tmp => exact ⟨_, _, _, _, rfl, h.tailStore hkeep, Nat.le_refl _⟩
  | fillLoad rest => exact h.fillLoad hsz
  | fill tail p => exact h.fill
  | count rest len => exact h.count hsz

/-- **One statement of the pusher** is defined and keeps the invariant. -/
theorem produce (hsz : SpscSizes S C) (h : s.InvAt S C H M R stream) (hkeep : FoundEmptyStaysEmpty s .producer) :
    ∃ t M' stream', s.produce = some t ∧ t.InvAt S C H M' R stream' ∧ t.consumer = s.consumer ∧
      t.returned = s.returned ∧ (stream H).length ≤ (stream' H).length := by
  obtain ⟨cb, p, M', stream', heq, hinv, hlen⟩ := h.pushKeeps hsz hkeep
  refine ⟨_, M', stream', ?_, hinv, rfl, rfl, hlen⟩
  unfold CommonSpsc.produce
  rw [heq]
  rfl

/-! ## One statement of the popper -/

/-- The popper goes on without having written anything. -/
theorem setConsumer (h : s.InvAt S C H M R stream) {c : CommonPop α} (hunc : c.uncounted = s.consumer.uncounted)
    (havail : s.popped.length + c.remaining + s.producer.uncounted ≤ s.pushed.length)
    (hout : c.out = s.consumer.out) (hcall : ∀ call, c.call? = some call → call.Ok)
    (hok : c.Ok S s.buffer.heap H M R stream) :
    InvAt S C { s with consumer := c, popped := s.popped ++ [], returned := s.returned ++ [] } H M R stream := by
  rw [List.append_nil, List.append_nil]
  exact { h with
    readCount := by rw [hunc]; exact h.readCount
    readLe := by rw [hunc]; exact h.readLe
    room := by rw [hunc]; exact h.room
    avail := havail
    consumer := hok
    call := hcall
    log := by rw [hout]; exact h.log }

/-- What is still to be delivered out of the only node lies in it. -/
theorem unread (h : s.InvAt S C H M R stream) (htail : H + 1 = M) :
    R + s.consumer.remaining ≤ (stream H).length := by
  have havail := h.avail
  have hpushed := congrArg List.length h.pushed
  rw [← htail, upTo_succ, List.length_append] at hpushed
  have := h.popped_length
  omega

/-- While bytes are still to be delivered there is a node. -/
theorem linked_of_remaining (h : s.InvAt S C H M R stream) (hrem : 0 < s.consumer.remaining) : M ≠ 0 := by
  rintro rfl
  have havail := h.avail
  have hpushed := congrArg List.length h.pushed
  rw [upTo_zero, List.length_nil] at hpushed
  omega

/-- The head's node. -/
theorem headNode (h : s.InvAt S C H M R stream) (hM : M ≠ 0) : ∃ r next,
    load? s.buffer.heap H = some ⟨r, next⟩ ∧ (H + 1 < M → next = some (H + 1)) ∧ Published S r (stream H) R := by
  have hH : H < M := h.bound.resolve_right fun h0 => hM h0.1
  obtain ⟨r, hload, hpub⟩ := h.node H (Nat.le_refl H) hH
  rw [if_pos rfl] at hpub
  exact ⟨r, _, hload, fun hlt => if_pos (.inl hlt), hpub⟩

end CommonSpsc.InvAt

/-- Every next statement inside `ring_buffer_pop` is closer to its end. -/
def SpscPop.place : SpscPop α → Nat
  | .entered _ _ => 5
  | .sized _ _ _ => 4
  | .copy _ _ => 3
  | .copyRest _ _ _ => 2
  | .store _ _ => 1
  | _ => 0

namespace CommonPop

/-- In the part of the loop's turn up to the ring's pop. -/
def Searching : CommonPop α → Bool
  | .headCheck _ | .loop _ | .drainLoad _ | .drain _ _ _ => true
  | _ => false

/-- How far the statement is from the end of its turn. -/
def place : CommonPop α → Nat
  | .idle => 0
  | .entered _ requested => 80 * requested + 100
  | .headCheck _ => 20
  | .loop _ => 18
  | .drainLoad _ => 17
  | .drain _ _ c => 11 + c.place
  | .count _ _ => 32
  | .countLoad _ => 31
  | .headCount _ _ => 30
  | .headLoad _ => 29
  | .tailCompare _ _ => 28
  | .tmpLoad _ => 27
  | .nextHead _ _ => 26
  | .nextLoad _ _ _ => 25
  | .headStore _ _ _ => 24
  | .nullCheck _ _ => 23
  | .tailClear _ _ => 22
  | .destroy _ _ => 21
  | .ret _ _ => 1

/-- A bound on the statements the call still takes: a turn delivers a byte, or finds the head used up
(`empty`) and frees it, and then the next one does not. -/
def rank (empty : Prop) [Decidable empty] (c : CommonPop α) : Nat :=
  80 * c.remaining + (if c.Searching ∧ 0 < c.remaining ∧ empty then 40 else 0) + c.place

section
variable {e e' : Prop} [Decidable e] [Decidable e'] {c : CommonPop α}

/-- Past the ring's pop, or with bytes in the head, no turn is lost. -/
theorem rank_eq (h : c.Searching = true → 0 < c.remaining → ¬ e) : c.rank e = 80 * c.remaining + c.place := by
  unfold rank
  rw [if_neg fun hc => h hc.1 hc.2.1 hc.2.2]
  omega

theorem rank_of_empty (h : c.Searching = true) (hrem : 0 < c.remaining) (he : e) :
    c.rank e = 80 * c.remaining + 40 + c.place := by
  unfold rank
  rw [if_pos ⟨h, hrem, he⟩]

theorem rank_ge : 80 * c.remaining + c.place ≤ c.rank e := by
  unfold rank
  omega

theorem rank_le : c.rank e ≤ 80 * c.remaining + 40 + c.place := by
  unfold rank
  split <;> omega

/-- Finding bytes in the head only lowers the bound. -/
theorem rank_mono (h : e → e') : c.rank e ≤ c.rank e' := by
  by_cases he : c.Searching ∧ 0 < c.remaining ∧ e
  · rw [rank_of_empty he.1 he.2.1 he.2.2, rank_of_empty he.1 he.2.1 (h he.2.2)]
  · rw [rank_eq fun h1 h2 h3 => he ⟨h1, h2, h3⟩]
    exact rank_ge

/-- On to the next turn, with bytes in the head if some are still to be delivered. -/
theorem rank_next {c' : CommonPop α} (hrem : c'.remaining = c.remaining) (hplace : c'.place < c.place)
    (he : 0 < c'.remaining → ¬ e) : c'.rank e < c.rank e' := by
  rw [rank_eq fun _ => he, hrem]
  exact Nat.lt_of_lt_of_le (by omega) rank_ge

/-- The same call at a later place of the same part of its turn. -/
theorem rank_lt {c' : CommonPop α} (hsearch : c'.Searching = c.Searching) (hrem : c'.remaining = c.remaining)
    (hplace : c'.place < c.place) : c'.rank e < c.rank e := by
  unfold rank
  rw [hsearch, hrem]
  omega

end

end CommonPop

/-- What the pusher knows survives the popper: cells are not written, and the tail's room only grows. -/
theorem CommonPush.Ok.frame {p : CommonPush α} {rd rd' : Nat} (h : p.Ok S heap M rd stream) (hrd : rd ≤ rd')
    (hheap : ∀ i n', i + 1 = M → load? heap' i = some n' →
      ∃ n, load? heap i = some n ∧ n'.buffer.buffer = n.buffer.buffer) : p.Ok S heap' M rd' stream := by
  cases p with
  | fill tail p =>
    obtain ⟨htail, hidle, hp⟩ := h
    refine ⟨htail, hidle, fun n' hn' => ?_⟩
    obtain ⟨n, hn, hbuf⟩ := hheap tail n' htail hn'
    rw [hbuf]
    exact (hp n hn).mono hrd
  | _ => exact h

/-- A statement of a pop under way is defined, keeps the invariant and brings the call closer to its end. -/
def CommonSpsc.PopKeeps (S C : Nat) (s : CommonSpsc α) (H M R : Nat) (stream : Nat → List α) : Prop :=
  ∃ cb c H' R', commonPopStep s.buffer s.consumer = some (cb, c) ∧
    CommonSpsc.InvAt S C { s with
      buffer := cb, consumer := c, popped := s.popped ++ s.consumer.taken s.buffer,
      returned := s.returned ++ s.consumer.ended } H' M R' stream ∧
    s.consumer.ended = [] ∧ c ≠ .idle ∧
    c.rank (R' = (stream H').length) < s.consumer.rank (R = (stream H).length)

theorem CommonSpsc.PopKeeps.consume (h : s.PopKeeps S C H M R stream) : ∃ t H' R', s.consume = some t ∧
    t.InvAt S C H' M R' stream ∧ t.consumer ≠ .idle ∧ t.returned = s.returned ∧
    t.consumer.rank (R' = (stream H').length) < s.consumer.rank (R = (stream H).length) := by
  obtain ⟨cb, c, H', R', heq, hinv, hended, hidle, hrank⟩ := h
  refine ⟨_, H', R', ?_, hinv, hidle, ?_, hrank⟩
  · unfold CommonSpsc.consume
    rw [heq]
    rfl
  · dsimp only
    rw [hended, List.append_nil]

namespace CommonSpsc.InvAt
variable {cb : CommonBuffer α} {producer : CommonPush α} {pushed : List α} {popped : List (Option α)}
  {returned : List (PopCall α)} {call : PopCall α} {head tmp : Nat}

/-- The ring of the head has taken a step; the bytes it takes are the next of its stream. -/
theorem taken {c : SpscPop α} {q : CommonPop α} {n : Nat} {r r' : RingBuffer α} {next : Option Nat}
    (h : InvAt S C ⟨cb, producer, .drain call H c, pushed, popped, returned⟩ H M R stream) (hH : H < M)
    (hnext : (if H + 1 < M ∨ producer.linked = true then some (H + 1) else none) = next)
    (hload : load? cb.heap H = some ⟨r, next⟩) (hbuf : r'.buffer = r.buffer)
    (htaken : c.taken r = (((stream H).drop R).take n).map some) (hlen : (c.taken r).length = n)
    (hpub : Published S r' (stream H) (R + n))
    (hunc : q.uncounted = n) (hrem : q.remaining + n ≤ call.size - call.pos) (hout : q.out = call.out ++ c.taken r)
    (hcall : ∀ call', q.call? = some call' → call'.Ok)
    (hq : q.Ok S (cb.heap.set H (some ⟨r', next⟩)) H M (R + n) stream) :
    InvAt S C ⟨{ cb with heap := cb.heap.set H (some ⟨r', next⟩) }, producer, q, pushed, popped ++ c.taken r,
      returned ++ []⟩ H M (R + n) stream := by
  have havail : popped.length + (call.size - call.pos) + producer.uncounted ≤ pushed.length := h.avail
  have hroom : pushed.length + producer.todo < popped.length - 0 + C := h.room
  rw [List.append_nil]
  exact { h with
    heap := by
      rw [List.length_set]
      exact h.heap
    bound := .inl hH
    node := by
      intro i h1 h2
      by_cases hi : i = H
      · subst hi
        refine ⟨r', ?_, ?_⟩
        · rw [load?_set_self (load?_lt hload)]
          exact congrArg (fun nx => some (CommonNode.mk r' nx)) hnext.symm
        · rw [if_pos rfl]
          exact hpub
      · rw [load?_set_ne (Ne.symm hi), if_neg hi]
        have := h.node i h1 h2
        rwa [if_neg hi] at this
    fresh := by
      intro hp
      obtain ⟨r₀, hload₀, hpub₀⟩ := h.fresh hp
      exact ⟨r₀, (load?_set_ne (by omega) _).trans hload₀, hpub₀⟩
    popped := by
      rw [htaken, List.take_add, ← List.append_assoc, List.map_append]
      exact congrArg (· ++ _) h.popped
    readCount := by
      rw [hunc, List.length_append, hlen, Nat.add_sub_cancel]
      exact h.readCount
    readLe := by
      rw [hunc, List.length_append, hlen]
      exact Nat.le_add_left _ _
    room := by
      rw [hunc, List.length_append, hlen, Nat.add_sub_cancel]
      exact hroom
    avail := by
      rw [List.length_append, hlen]
      dsimp only
      omega
    producer := by
      refine h.producer.frame ?_ ?_
      · split
        · exact Nat.le_add_right _ _
        · exact Nat.le_refl _
      · intro i n' hi hn'
        by_cases hih : i = H
        · subst hih
          rw [load?_set_self (load?_lt hload)] at hn'
          obtain rfl := Option.some.inj hn'
          exact ⟨_, hload, hbuf⟩
        · rw [load?_set_ne (Ne.symm hih)] at hn'
          exact ⟨n', hn', rfl⟩
    consumer := hq
    call := hcall
    log := by
      rw [hout, ← List.append_assoc]
      exact congrArg (· ++ _) h.log }

/-- A pop that finds nothing in the head has read it to its end, and there is another node. -/
theorem drained_of_none {c : SpscPop α}
    (h : InvAt S C ⟨cb, producer, .drain call H c, pushed, popped, returned⟩ H M R stream) (hH : H < M)
    (hpos : call.pos < call.size) (hnone : min ((stream H).length - R) (call.size - call.pos) = 0) :
    CommonPop.Drained H M R stream := by
  have hle := h.read_le
  refine ⟨?_, by omega⟩
  -- what is still to be delivered lies in later nodes
  by_contra hlast
  have hunread : R + (call.size - call.pos) ≤ (stream H).length := h.unread (by omega)
  omega

/-- The turn that the ring's pop ends delivers a byte, or the head was read to its end before it. -/
theorem rank_store {e e' : Prop} [Decidable e] [Decidable e'] {n : Nat} {out : Option (List (Option α))}
    {xs : List (Option α)} (hpos : call.pos < call.size) (hzero : n = 0 → e) :
    CommonPop.rank e' (.count { call with pos := call.pos + n, out := call.out ++ xs } n) <
      CommonPop.rank e (.drain call head (.store out n)) := by
  rw [CommonPop.rank_eq (fun h0 => Bool.noConfusion h0)]
  show 80 * (call.size - (call.pos + n)) + 32 < _
  rcases Nat.eq_zero_or_pos n with rfl | hn0
  · rw [CommonPop.rank_of_empty (c := .drain call head (.store out (0 : Nat))) rfl
      (show 0 < call.size - call.pos by omega) (hzero rfl)]
    show _ < 80 * (call.size - call.pos) + 40 + 12
    omega
  · refine Nat.lt_of_lt_of_le ?_ CommonPop.rank_ge
    show _ < 80 * (call.size - call.pos) + 12
    omega

/-- The ring of the head takes a step. -/
theorem drain {c : SpscPop α}
    (h : InvAt S C ⟨cb, producer, .drain call head c, pushed, popped, returned⟩ H M R stream) :
    PopKeeps S C ⟨cb, producer, .drain call head c, pushed, popped, returned⟩ H M R stream := by
  obtain ⟨hhead, hM, hpos, hc, hwithin⟩ : head = H ∧ M ≠ 0 ∧ call.pos < call.size ∧ _ ∧ _ := h.consumer
  subst hhead
  have hH : head < M := h.bound.resolve_right fun h0 => hM h0.1
  obtain ⟨r, hload, hpub⟩ := h.node head (Nat.le_refl head) hH
  rw [if_pos rfl] at hpub
  dsimp only at hload
  obtain ⟨r', c', hstep, hbuf, n, htaken, hn, hpub', hc'⟩ := popStep_spec hpub hc
  have hturn := popStep_turn hpub hc hstep
  have hlen : (c.taken r).length = n := by
    rw [htaken, List.length_map, List.length_take, List.length_drop]
    omega
  rw [hlen] at hturn
  have htaken' : (CommonPop.drain call head c).taken cb = c.taken r := by
    simp only [CommonPop.taken, hload, Option.map_some, Option.getD_some]
  have hcall : call.Ok := h.call call rfl
  generalize hnext : (if head + 1 < M ∨ producer.linked = true then some (head + 1) else none) = next at hload
  have heq : commonPopStep cb (.drain call head c) =
      some ({ cb with heap := cb.heap.set head (some ⟨r', next⟩) }, c.back call head (c.taken r) c') := by
    simp only [commonPopStep, hload, hstep, store?_eq hload, Option.bind_eq_bind, Option.bind_some]
  have inside : n = 0 → c.back call head (c.taken r) c' = .drain call head c' →
      c'.Within (call.size - call.pos) (CommonPop.Drained head M R stream) → c'.place < c.place →
      PopKeeps S C ⟨cb, producer, .drain call head c, pushed, popped, returned⟩ head M R stream := by
    intro h0 hback hin hplace
    subst h0
    have hnil : c.taken r = [] := List.eq_nil_of_length_eq_zero hlen
    refine ⟨_, _, head, R, heq, ?_, rfl, by rw [hback]; nofun, ?_⟩
    · rw [hback, htaken']
      refine h.taken hH hnext hload hbuf htaken hlen hpub' rfl (Nat.le_refl _) ?_ h.call
        ⟨rfl, hM, hpos, hc', hin⟩
      rw [hnil, List.append_nil]
      rfl
    · rw [hback]
      exact CommonPop.rank_lt rfl rfl (Nat.add_lt_add_left hplace 11)
  cases hturn with
  | idle | clear | clearStore => exact hwithin.elim
  | entered => exact inside rfl rfl hwithin (Nat.lt_succ_self _)
  | @sized dst k tmp =>
    obtain rfl : k = call.size - call.pos := Int.ofNat.inj hwithin
    have hin : (min ((stream head).length - R) (call.size - call.pos) : Nat) ≤ ((call.size - call.pos : Nat) : Int) ∧
        (((min ((stream head).length - R) (call.size - call.pos) : Nat) : Int) = 0 →
          CommonPop.Drained head M R stream) :=
      ⟨by omega, fun h0 => h.drained_of_none hH hpos (Int.ofNat.inj h0)⟩
    cases dst with
    | true => exact inside rfl rfl hin (Nat.lt_succ_self _)
    | false => exact inside rfl rfl hin (show 1 < 4 by decide)
  | copyMore | copyRest => exact inside rfl rfl hwithin (Nat.lt_succ_self _)
  | copy => exact inside rfl rfl hwithin (show 1 < 3 by decide)
  | @store out =>
    obtain ⟨hle, hzero⟩ := hwithin
    refine ⟨_, _, head, R + n, heq, ?_, rfl, nofun, rank_store hpos fun h0 => (hzero (by omega)).2⟩
    rw [htaken']
    refine h.taken hH hnext hload hbuf htaken hlen hpub' rfl ?_ rfl ?_ ⟨hM, n, rfl⟩
    · show call.size - (call.pos + n) + n ≤ call.size - call.pos
      omega
    · rintro call' ⟨rfl⟩
      refine ⟨hcall.size, hcall.count, ?_, ?_, hcall.small⟩
      · show call.pos + n = (call.out ++ _).length
        rw [List.length_append, hlen, hcall.pos]
      · show call.pos + n ≤ call.size
        omega

/-- The bytes of a turn are counted. -/
theorem countRead {len : Int} (hsz : SpscSizes S C)
    (h : InvAt S C ⟨cb, producer, .count call len, pushed, popped, returned⟩ H M R stream) :
    PopKeeps S C ⟨cb, producer, .count call len, pushed, popped, returned⟩ H M R stream := by
  obtain ⟨hM, n, rfl⟩ : M ≠ 0 ∧ ∃ n : Nat, len = n := h.consumer
  have hroom : pushed.length + producer.todo < popped.length - n + C := h.room
  have havail : popped.length + (call.size - call.pos) + producer.uncounted ≤ pushed.length := h.avail
  have hle : n ≤ popped.length := h.readLe
  have hread : cb.readCount = ((popped.length - n) % C : Nat) := h.readCount
  have hadd := @counterAdd_mod C (popped.length - n) n hsz.max hsz.max_small (by omega)
  rw [show popped.length - n + n = popped.length by omega] at hadd
  refine ⟨{ cb with readCount := (popped.length % C : Nat) }, .countLoad call, H, R, ?_, ?_, rfl, nofun,
    CommonPop.rank_lt rfl rfl (show 31 < 32 by decide)⟩
  · simp only [commonPopStep, hread, show cb.maxSize = _ from h.maxSize, hadd, Option.bind_eq_bind, Option.bind_some]
  · show InvAt S C ⟨_, _, _, _, popped ++ [], returned ++ []⟩ _ _ _ _
    rw [List.append_nil, List.append_nil]
    exact { h with
      readCount := rfl
      readLe := Nat.zero_le _
      room := (by omega : pushed.length + producer.todo < popped.length - 0 + C)
      avail := havail
      consumer := hM
      call := h.call
      log := h.log }

/-- The head is unlinked. -/
theorem headStore {next : Option Nat}
    (h : InvAt S C ⟨cb, producer, .headStore call tmp next, pushed, popped, returned⟩ H M R stream) :
    PopKeeps S C ⟨cb, producer, .headStore call tmp next, pushed, popped, returned⟩ H M R stream := by
  obtain ⟨⟨hlt, hR⟩, rfl, rfl⟩ : CommonPop.Drained H M R stream ∧ tmp = H ∧ next = some (H + 1) := h.consumer
  obtain ⟨r, next, hload, -, hpub⟩ := h.headNode (by omega)
  refine ⟨_, _, tmp + 1, 0, rfl, ?_, rfl, nofun, ?_⟩
  · show InvAt S C ⟨_, _, _, _, popped ++ [], returned ++ []⟩ _ _ _ _
    rw [List.append_nil, List.append_nil]
    exact { h with
      head := by rw [if_neg (by omega)]
      bound := .inl hlt
      node := by
        intro i h1 h2
        have := h.node i (by omega) h2
        rw [if_neg (by omega : i ≠ tmp)] at this
        rwa [ite_self]
      popped := by
        rw [upTo_succ, List.take_zero, List.append_nil]
        have := h.popped
        rwa [List.take_of_length_le (by omega)] at this
      producer := by
        have := h.producer
        rw [if_neg (by omega : ¬ tmp + 1 = M)] at this
        rwa [ite_self]
      consumer := by
        refine ⟨by omega, rfl, rfl, r, next, hload, ?_⟩
        rw [hR] at hpub
        exact hpub
      call := h.call
      log := h.log }
  · rw [CommonPop.rank_eq (fun h0 => Bool.noConfusion h0), CommonPop.rank_eq (fun h0 => Bool.noConfusion h0)]
    exact Nat.add_lt_add_left (show 23 < 24 by decide) _

/-- The unlinked node is freed. -/
theorem destroy (h : InvAt S C ⟨cb, producer, .destroy call tmp, pushed, popped, returned⟩ H M R stream) :
    PopKeeps S C ⟨cb, producer, .destroy call tmp, pushed, popped, returned⟩ H M R stream := by
  obtain ⟨hM, hR, htmp, r, next, hload, hpub⟩ : CommonPop.Dying S cb.heap H M R stream tmp := h.consumer
  have hH : H < M := h.bound.resolve_right fun h0 => hM h0.1
  refine ⟨{ cb with heap := cb.heap.set tmp none }, .loop call, H, R, ?_, ?_, rfl, nofun,
    CommonPop.rank_next rfl (show 18 < 21 by decide) fun hrem hempty => ?_⟩
  · simp only [commonPopStep, free?_eq hload, Option.bind_eq_bind, Option.bind_some]
  · show InvAt S C ⟨_, _, _, _, popped ++ [], returned ++ []⟩ _ _ _ _
    rw [List.append_nil, List.append_nil]
    exact { h with
      heap := by
        rw [List.length_set]
        exact h.heap
      node := by
        intro i h1 h2
        rw [load?_set_ne (by omega)]
        exact h.node i h1 h2
      fresh := by
        intro hp
        rw [load?_set_ne (by omega)]
        exact h.fresh hp
      producer := h.producer.frame (Nat.le_refl _) fun i n' hi hn' => by
        rw [load?_set_ne (by omega)] at hn'
        exact ⟨n', hn', rfl⟩
      consumer := trivial
      call := h.call
      log := h.log }
  -- the new head is the tail, with the bytes that are left, or was filled before the tail moved on
  · by_cases hlast : H + 1 = M
    · have := h.unread hlast
      have hrem : 0 < CommonPop.remaining (.destroy call tmp) := hrem
      dsimp only at this
      omega
    · exact h.used H (by omega) (List.eq_nil_of_length_eq_zero (by rw [← hempty, hR]))

/-- How many bytes the call gets is fixed when it begins. -/
theorem popEntered {dst : Bool} {requested : Nat} (hsz : SpscSizes S C)
    (h : InvAt S C ⟨cb, producer, .entered dst requested, pushed, popped, returned⟩ H M R stream) :
    PopKeeps S C ⟨cb, producer, .entered dst requested, pushed, popped, returned⟩ H M R stream := by
  have hreq : requested < 4294967296 := h.consumer
  have hmax := hsz.max_small
  have hstored : popped.length + 0 + producer.uncounted ≤ pushed.length := h.avail
  have hroom : pushed.length + producer.todo < popped.length - 0 + C := h.room
  have hcirc : Circ (C : Nat) _ _ :=
    circ_mod (a := popped.length) (b := pushed.length - producer.uncounted) hsz.max hmax
  have hcount : commonBufferGetCount cb =
      some ((pushed.length - producer.uncounted - popped.length : Nat) : Int) := by
    unfold commonBufferGetCount
    rw [show cb.maxSize = _ from h.maxSize, show cb.readCount = _ from h.readCount,
      show cb.writeCount = _ from h.writeCount, show CommonPop.uncounted (.entered dst requested) = 0 from rfl,
      Nat.sub_zero, hcirc.count, circDist_mod (by omega) (by omega)]
  generalize hk : pushed.length - producer.uncounted - popped.length = k at hcount
  have heq : commonPopStep cb (.entered dst requested) =
      some (cb, .headCheck { dst, requested, count := k, size := min requested k }) := by
    simp only [commonPopStep, hcount, Option.bind_eq_bind, Option.bind_some]
    rw [toU32_eq (by omega) (by omega), Int.toNat_natCast]
    congr 4
    split <;> omega
  refine ⟨_, _, H, R, heq, h.setConsumer rfl ?_ rfl ?_ trivial, rfl, nofun, ?_⟩
  · show popped.length + (min requested k - 0) + producer.uncounted ≤ pushed.length
    omega
  · rintro call ⟨rfl⟩
    exact ⟨rfl, Int.natCast_nonneg k, rfl, Nat.zero_le _, by dsimp only; omega⟩
  · refine Nat.lt_of_le_of_lt CommonPop.rank_le (Nat.lt_of_lt_of_le ?_ CommonPop.rank_ge)
    show 80 * (min requested k - 0) + 40 + 20 < 80 * 0 + (80 * requested + 100)
    omega

/-- Without a head the call has nothing to deliver. -/
theorem popHeadCheck (h : InvAt S C ⟨cb, producer, .headCheck call, pushed, popped, returned⟩ H M R stream) :
    PopKeeps S C ⟨cb, producer, .headCheck call, pushed, popped, returned⟩ H M R stream := by
  have hhead : cb.head = if M = 0 then none else some H := h.head
  by_cases hM : M = 0
  · have heq : commonPopStep cb (.headCheck call) = some (cb, .ret call .errEmpty) := by
      simp only [commonPopStep, hhead, if_pos hM, if_true]
    have hnone : ¬ 0 < call.size - call.pos := fun h0 => h.linked_of_remaining h0 hM
    have hle := (h.call call rfl).le
    refine ⟨_, _, H, R, heq, h.setConsumer rfl h.avail rfl h.call ?_, rfl, nofun, ?_⟩
    · show call.pos = call.size
      omega
    · exact CommonPop.rank_next rfl (show 1 < 20 by decide) fun h0 => absurd h0 hnone
  · have heq : commonPopStep cb (.headCheck call) = some (cb, .loop call) := by
      simp only [commonPopStep, hhead, if_neg hM, reduceCtorEq, if_false]
    exact ⟨_, _, H, R, heq, h.setConsumer rfl h.avail rfl h.call trivial, rfl, nofun,
      CommonPop.rank_lt rfl rfl (show 18 < 20 by decide)⟩

/-- Another turn of the loop, if bytes are still to be delivered. -/
theorem popLoop (h : InvAt S C ⟨cb, producer, .loop call, pushed, popped, returned⟩ H M R stream) :
    PopKeeps S C ⟨cb, producer, .loop call, pushed, popped, returned⟩ H M R stream := by
  have hhead : cb.head = if M = 0 then none else some H := h.head
  by_cases hpos : call.pos < call.size
  · have hM : M ≠ 0 := h.linked_of_remaining (show 0 < call.size - call.pos by omega)
    have heq : commonPopStep cb (.loop call) = some (cb, .drainLoad call) := by
      simp only [commonPopStep, hhead, if_neg hM, if_pos hpos, reduceCtorEq, if_false]
    exact ⟨_, _, H, R, heq, h.setConsumer rfl h.avail rfl h.call hpos, rfl, nofun,
      CommonPop.rank_lt rfl rfl (show 17 < 18 by decide)⟩
  · have heq : commonPopStep cb (.loop call) = some (cb, .ret call .success) := by
      simp only [commonPopStep, if_neg hpos]
    have hle := (h.call call rfl).le
    refine ⟨_, _, H, R, heq, h.setConsumer rfl h.avail rfl h.call ?_, rfl, nofun, ?_⟩
    · show call.pos = call.size
      omega
    · exact CommonPop.rank_next rfl (show 1 < 18 by decide) fun h0 =>
        absurd h0 (by show ¬ 0 < call.size - call.pos; omega)

theorem drainLoad (h : InvAt S C ⟨cb, producer, .drainLoad call, pushed, popped, returned⟩ H M R stream) :
    PopKeeps S C ⟨cb, producer, .drainLoad call, pushed, popped, returned⟩ H M R stream := by
  have hpos : call.pos < call.size := h.consumer
  have hM : M ≠ 0 := h.linked_of_remaining (show 0 < call.size - call.pos by omega)
  have hhead : cb.head = some H := h.head.trans (if_neg hM)
  have hsmall := (h.call call rfl).small
  have heq : commonPopStep cb (.drainLoad call) =
      some (cb, .drain call H (.entered call.dst (call.size - call.pos : Nat))) := by
    simp only [commonPopStep, hhead, Option.bind_eq_bind, Option.bind_some]
  refine ⟨_, _, H, R, heq, ?_, rfl, nofun, CommonPop.rank_lt rfl rfl (show 16 < 17 by decide)⟩
  exact h.setConsumer rfl h.avail rfl h.call ⟨rfl, hM, hpos, ⟨_, rfl, by omega⟩, rfl⟩

theorem countLoad (h : InvAt S C ⟨cb, producer, .countLoad call, pushed, popped, returned⟩ H M R stream) :
    PopKeeps S C ⟨cb, producer, .countLoad call, pushed, popped, returned⟩ H M R stream := by
  have hM : M ≠ 0 := h.consumer
  have hhead : cb.head = some H := h.head.trans (if_neg hM)
  have heq : commonPopStep cb (.countLoad call) = some (cb, .headCount call H) := by
    simp only [commonPopStep, hhead, Option.bind_eq_bind, Option.bind_some]
  exact ⟨_, _, H, R, heq, h.setConsumer rfl h.avail rfl h.call ⟨hM, rfl⟩, rfl, nofun,
    CommonPop.rank_lt rfl rfl (show 30 < 31 by decide)⟩

/-- The head's count is read: zero is the end of what the pusher has put in so far. -/
theorem headCount (h : InvAt S C ⟨cb, producer, .headCount call head, pushed, popped, returned⟩ H M R stream) :
    PopKeeps S C ⟨cb, producer, .headCount call head, pushed, popped, returned⟩ H M R stream := by
  obtain ⟨hM, rfl⟩ : M ≠ 0 ∧ head = H := h.consumer
  obtain ⟨r, next, hload, -, hpub⟩ := h.headNode hM
  have hload : load? cb.heap head = some ⟨r, next⟩ := hload
  have hle := hpub.le
  by_cases hempty : R = (stream head).length
  · have heq : commonPopStep cb (.headCount call head) = some (cb, .headLoad call) := by
      simp only [commonPopStep, hload, hpub.getCount, Option.bind_eq_bind, Option.bind_some]
      rw [if_pos (by omega)]
    exact ⟨_, _, head, R, heq, h.setConsumer rfl h.avail rfl h.call ⟨hM, .inl hempty⟩, rfl, nofun,
      CommonPop.rank_lt rfl rfl (show 29 < 30 by decide)⟩
  · have heq : commonPopStep cb (.headCount call head) = some (cb, .loop call) := by
      simp only [commonPopStep, hload, hpub.getCount, Option.bind_eq_bind, Option.bind_some]
      rw [if_neg (by omega)]
    exact ⟨_, _, head, R, heq, h.setConsumer rfl h.avail rfl h.call trivial, rfl, nofun,
      CommonPop.rank_next rfl (show 18 < 30 by decide) fun _ => hempty⟩

theorem headLoad (h : InvAt S C ⟨cb, producer, .headLoad call, pushed, popped, returned⟩ H M R stream) :
    PopKeeps S C ⟨cb, producer, .headLoad call, pushed, popped, returned⟩ H M R stream := by
  obtain ⟨hM, hfound⟩ : M ≠ 0 ∧ _ := h.consumer
  exact ⟨_, _, H, R, rfl, h.setConsumer rfl h.avail rfl h.call ⟨hM, hfound, h.head.trans (if_neg hM)⟩, rfl,
    nofun, CommonPop.rank_lt rfl rfl (show 28 < 29 by decide)⟩

/-- The tail is read after the count: only a head that is not the tail is unlinked. -/
theorem tailCompare {old : Option Nat}
    (h : InvAt S C ⟨cb, producer, .tailCompare call old, pushed, popped, returned⟩ H M R stream) :
    PopKeeps S C ⟨cb, producer, .tailCompare call old, pushed, popped, returned⟩ H M R stream := by
  obtain ⟨hM, hfound, rfl⟩ : M ≠ 0 ∧ _ ∧ old = some H := h.consumer
  have htail : cb.tail = some (M - 1) := h.tail.trans (if_neg hM)
  have hH : H < M := h.bound.resolve_right fun h0 => hM h0.1
  by_cases hlast : H + 1 = M
  · have heq : commonPopStep cb (.tailCompare call (some H)) = some (cb, .loop call) := by
      simp only [commonPopStep, htail]
      rw [if_neg (by rw [not_not]; congr 1; omega)]
    refine ⟨_, _, H, R, heq, h.setConsumer rfl h.avail rfl h.call trivial, rfl, nofun,
      CommonPop.rank_next rfl (show 18 < 28 by decide) fun hrem hempty => ?_⟩
    have := h.unread hlast
    have hrem : 0 < CommonPop.remaining (.tailCompare call (some H)) := hrem
    dsimp only at this
    omega
  · have heq : commonPopStep cb (.tailCompare call (some H)) = some (cb, .tmpLoad call) := by
      simp only [commonPopStep, htail]
      rw [if_pos (by rw [ne_eq, Option.some.injEq]; omega)]
    exact ⟨_, _, H, R, heq, h.setConsumer rfl h.avail rfl h.call ⟨by omega, hfound.resolve_right hlast⟩, rfl,
      nofun, CommonPop.rank_lt rfl rfl (show 27 < 28 by decide)⟩

theorem tmpLoad (h : InvAt S C ⟨cb, producer, .tmpLoad call, pushed, popped, returned⟩ H M R stream) :
    PopKeeps S C ⟨cb, producer, .tmpLoad call, pushed, popped, returned⟩ H M R stream := by
  have hdrained : CommonPop.Drained H M R stream := h.consumer
  have hhead : cb.head = some H := h.head.trans (if_neg (by have := hdrained.1; omega))
  have heq : commonPopStep cb (.tmpLoad call) = some (cb, .nextHead call H) := by
    simp only [commonPopStep, hhead, Option.bind_eq_bind, Option.bind_some]
  exact ⟨_, _, H, R, heq, h.setConsumer rfl h.avail rfl h.call ⟨hdrained, rfl⟩, rfl, nofun,
    CommonPop.rank_lt rfl rfl (show 26 < 27 by decide)⟩

theorem nextHead (h : InvAt S C ⟨cb, producer, .nextHead call tmp, pushed, popped, returned⟩ H M R stream) :
    PopKeeps S C ⟨cb, producer, .nextHead call tmp, pushed, popped, returned⟩ H M R stream := by
  obtain ⟨hdrained, htmp⟩ : CommonPop.Drained H M R stream ∧ tmp = H := h.consumer
  have hhead : cb.head = some H := h.head.trans (if_neg (by have := hdrained.1; omega))
  have heq : commonPopStep cb (.nextHead call tmp) = some (cb, .nextLoad call tmp H) := by
    simp only [commonPopStep, hhead, Option.bind_eq_bind, Option.bind_some]
  exact ⟨_, _, H, R, heq, h.setConsumer rfl h.avail rfl h.call ⟨hdrained, htmp, rfl⟩, rfl, nofun,
    CommonPop.rank_lt rfl rfl (show 25 < 26 by decide)⟩

theorem nextLoad (h : InvAt S C ⟨cb, producer, .nextLoad call tmp head, pushed, popped, returned⟩ H M R stream) :
    PopKeeps S C ⟨cb, producer, .nextLoad call tmp head, pushed, popped, returned⟩ H M R stream := by
  obtain ⟨hdrained, htmp, rfl⟩ : CommonPop.Drained H M R stream ∧ tmp = H ∧ head = H := h.consumer
  obtain ⟨r, next, hload, hnext, -⟩ := h.headNode (by have := hdrained.1; omega)
  have hload : load? cb.heap head = some ⟨r, next⟩ := hload
  have heq : commonPopStep cb (.nextLoad call tmp head) = some (cb, .headStore call tmp next) := by
    simp only [commonPopStep, hload, Option.bind_eq_bind, Option.bind_some]
  exact ⟨_, _, head, R, heq, h.setConsumer rfl h.avail rfl h.call ⟨hdrained, htmp, hnext hdrained.1⟩, rfl, nofun,
    CommonPop.rank_lt rfl rfl (show 24 < 25 by decide)⟩

theorem nullCheck (h : InvAt S C ⟨cb, producer, .nullCheck call tmp, pushed, popped, returned⟩ H M R stream) :
    PopKeeps S C ⟨cb, producer, .nullCheck call tmp, pushed, popped, returned⟩ H M R stream := by
  have hdying : CommonPop.Dying S cb.heap H M R stream tmp := h.consumer
  have hhead : cb.head = some H := h.head.trans (if_neg hdying.1)
  have heq : commonPopStep cb (.nullCheck call tmp) = some (cb, .destroy call tmp) := by
    simp only [commonPopStep, hhead, reduceCtorEq, if_false]
  exact ⟨_, _, H, R, heq, h.setConsumer rfl h.avail rfl h.call hdying, rfl, nofun,
    CommonPop.rank_lt rfl rfl (show 21 < 23 by decide)⟩

/-- The call returns. -/
theorem ret {value : CommonBufferReturn}
    (h : InvAt S C ⟨cb, producer, .ret call value, pushed, popped, returned⟩ H M R stream) :
    InvAt S C ⟨cb, producer, .idle, pushed, popped ++ [], returned ++ [call]⟩ H M R stream := by
  have hok := h.call call rfl
  have hpos : call.pos = call.size := h.consumer
  have havail : popped.length + (call.size - call.pos) + producer.uncounted ≤ pushed.length := h.avail
  rw [List.append_nil]
  exact { h with
    avail := (by omega : popped.length + 0 + producer.uncounted ≤ pushed.length)
    consumer := trivial
    call := nofun
    log := by
      rw [List.flatMap_append, List.flatMap_singleton]
      exact h.log.trans (List.append_nil _).symm
    returned := by
      intro c hc
      rcases List.mem_append.1 hc with hc | hc
      · exact h.returned c hc
      · obtain rfl := List.mem_singleton.1 hc
        exact ⟨hok.count, by rw [← hok.pos, hpos, hok.size]⟩ }

/-- **One statement of the popper** is defined and keeps the invariant; in a call it ends the call or brings
it closer to its end. -/
theorem consume (hsz : SpscSizes S C) (h : s.InvAt S C H M R stream) :
    ∃ t H' R', s.consume = some t ∧ t.InvAt S C H' M R' stream ∧ (s.consumer ≠ .idle →
      s.returned.length < t.returned.length ∨ t.consumer ≠ .idle ∧ t.returned = s.returned ∧
        t.consumer.rank (R' = (stream H').length) < s.consumer.rank (R = (stream H).length)) := by
  have keeps : s.PopKeeps S C H M R stream → ∃ t H' R', s.consume = some t ∧ t.InvAt S C H' M R' stream ∧
      (s.consumer ≠ .idle → s.returned.length < t.returned.length ∨ t.consumer ≠ .idle ∧ t.returned = s.returned ∧
        t.consumer.rank (R' = (stream H').length) < s.consumer.rank (R = (stream H).length)) := fun hk =>
    let ⟨t, H', R', heq, hinv, hrest⟩ := hk.consume
    ⟨t, H', R', heq, hinv, fun _ => .inr hrest⟩
  obtain ⟨cb, producer, consumer, pushed, popped, returned⟩ := s
  cases consumer with
  | idle => exact ⟨_, H, R, rfl, h.setConsumer rfl h.avail rfl h.call trivial, fun h0 => absurd rfl h0⟩
  | entered dst requested => exact keeps (h.popEntered hsz)
  | headCheck call => exact keeps h.popHeadCheck
  | loop call => exact keeps h.popLoop
  | drainLoad call => exact keeps h.drainLoad
  | drain call head c => exact keeps h.drain
  | count call len => exact keeps (h.countRead hsz)
  | countLoad call => exact keeps h.countLoad
  | headCount call head => exact keeps h.headCount
  | headLoad call => exact keeps h.headLoad
  | tailCompare call head => exact keeps h.tailCompare
  | tmpLoad call => exact keeps h.tmpLoad
  | nextHead call tmp => exact keeps h.nextHead
  | nextLoad call tmp head => exact keeps h.nextLoad
  | headStore call tmp next => exact keeps h.headStore
  | nullCheck call tmp => exact keeps h.nullCheck
  | tailClear call tmp => exact absurd h.consumer id
  | destroy call tmp => exact keeps h.destroy
  | ret call value =>
    refine ⟨_, H, R, rfl, h.ret, fun _ => .inl ?_⟩
    dsimp only [CommonPop.ended]
    rw [List.length_append]
    exact Nat.lt_succ_self _

end CommonSpsc.InvAt

/-! ## Every run -/

namespace CommonSpsc.InvAt

/-- A push is called. -/
theorem push (h : s.InvAt S C H M R stream) (hidle : s.producer = .idle) {src : List α}
    (hsrc : src.length < 4294967296) : InvAt S C { s with producer := .entered src } H M R stream := by
  have hroom := h.room
  rw [hidle] at hroom
  have := h.setProducer (p := .entered src) (by rw [hidle]; rfl) (by rw [hidle]; rfl) (fun _ => by rw [hidle]; rfl)
    (by rw [hidle]; rfl) hroom hsrc
  rwa [List.append_nil] at this

/-- A pop is called. -/
theorem pop (h : s.InvAt S C H M R stream) (hidle : s.consumer = .idle) {dst : Bool} {size : Nat}
    (hsize : size < 4294967296) : InvAt S C { s with consumer := .entered dst size } H M R stream := by
  have havail := h.avail
  rw [hidle] at havail
  have := h.setConsumer (c := .entered dst size) (by rw [hidle]; rfl) havail (by rw [hidle]; rfl) nofun hsize
  rwa [List.append_nil, List.append_nil] at this

end CommonSpsc.InvAt

def CommonSpsc.Inv (S C : Nat) (s : CommonSpsc α) : Prop := ∃ H M R stream, s.InvAt S C H M R stream

namespace CommonSpsc
variable {t : CommonSpsc α} {a : CommonSpscAct α}

theorem Inv.step (hsz : SpscSizes S C) (h : s.Inv S C) (hs : Restrict CommonSpscStep FoundEmptyStaysEmpty s a t) :
    t.Inv S C := by
  obtain ⟨H, M, R, stream, h⟩ := h
  obtain ⟨hs, hkeep⟩ := hs
  cases hs with
  | @push src hidle => exact ⟨H, M, R, stream, h.push hidle src.2⟩
  | @pop dst size hidle => exact ⟨H, M, R, stream, h.pop hidle size.2⟩
  | producer heq =>
    obtain ⟨t', M', stream', heq', hinv, -⟩ := h.produce hsz hkeep
    obtain rfl := Option.some.inj (heq.symm.trans heq')
    exact ⟨H, M', R, stream', hinv⟩
  | consumer heq =>
    obtain ⟨t', H', R', heq', hinv, -⟩ := h.consume hsz
    obtain rfl := Option.some.inj (heq.symm.trans heq')
    exact ⟨H', M, R', stream, hinv⟩

/-- In a state of the invariant both threads find what they rely on. -/
theorem Inv.safe (hsz : SpscSizes S C) (h : s.Inv S C) : s.Safe := by
  obtain ⟨H, M, R, stream, h⟩ := h
  have hprefix : upTo stream H ++ (stream H).take R <+: upTo stream M := by
    rcases h.bound with hH | ⟨rfl, rfl, rfl⟩
    · refine List.IsPrefix.trans ?_ (upTo_mono stream (m := H + 1) (by omega))
      rw [upTo_succ]
      exact (List.prefix_append_right_inj _).2 (List.take_prefix _ _)
    · exact List.prefix_rfl
  refine ⟨?_, ?_, ?_, ?_, h.returned, ?_⟩
  · cases hp : s.producer with
    | tailStore =>
      unfold produce
      rw [hp]
      rfl
    | _ =>
      obtain ⟨t, -, -, heq, -⟩ := h.produce hsz (by intro _ _ _ _ h0; rw [hp] at h0; cases h0)
      rw [heq]
      rfl
  · obtain ⟨t, -, -, heq, -⟩ := h.consume hsz
    rw [heq]
    rfl
  · rw [h.popped, h.pushed]
    exact hprefix.map some
  · intro call tmp node hc hload
    have hok := h.consumer
    rw [hc] at hok
    obtain ⟨-, -, -, r, next, hload', hpub⟩ := hok
    obtain rfl := Option.some.inj (hload.symm.trans hload')
    exact hpub.count.trans (Nat.sub_self _)
  · rw [h.log]
    exact List.prefix_append _ _

/-- Calls that have returned stay returned. -/
theorem returned_le (hs : CommonSpscStep s a t) : s.returned.length ≤ t.returned.length := by
  cases hs with
  | push | pop => exact Nat.le_refl _
  | producer heq =>
    unfold produce at heq
    obtain ⟨r, -, rfl⟩ := Option.map_eq_some_iff.1 heq
    exact Nat.le_refl _
  | consumer heq =>
    unfold consume at heq
    obtain ⟨r, -, rfl⟩ := Option.map_eq_some_iff.1 heq
    rw [List.length_append]
    exact Nat.le_add_right _ _

/-- A call under way ends after no more statements than its rank says. -/
theorem Inv.returns (hsz : SpscSizes S C) (h : s.Inv S C) (hcall : s.consumer ≠ .idle) :
    s.Returns (Restrict CommonSpscStep FoundEmptyStaysEmpty) := by
  obtain ⟨H, M, R, stream, h⟩ := h
  refine ⟨s.consumer.rank (R = (stream H).length), fun as t hrun hmany => ?_⟩
  have key : s.returned.length < t.returned.length ∨ ∃ H' M' R' stream', t.InvAt S C H' M' R' stream' ∧
      t.consumer ≠ .idle ∧ t.returned = s.returned ∧
      t.consumer.rank (R' = (stream' H').length) + as.countP IsConsumer ≤ s.consumer.rank (R = (stream H).length) := by
    refine hrun.trace (P := fun as t => s.returned.length < t.returned.length ∨ ∃ H' M' R' stream',
      t.InvAt S C H' M' R' stream' ∧ t.consumer ≠ .idle ∧ t.returned = s.returned ∧
      t.consumer.rank (R' = (stream' H').length) + as.countP IsConsumer ≤ s.consumer.rank (R = (stream H).length))
      (.inr ⟨H, M, R, stream, h, hcall, rfl, Nat.le_refl _⟩) ?_
    intro as t a u _ ih hu
    rcases ih with hret | ⟨H', M', R', stream', hinv, hin, hsame, hrank⟩
    · exact .inl (Nat.lt_of_lt_of_le hret (returned_le hu.1))
    · have hcount : (as ++ [a]).countP IsConsumer = as.countP IsConsumer + if IsConsumer a then 1 else 0 := by
        rw [List.countP_append, List.countP_singleton]
      cases hu.1 with
      | @push src hidle =>
        refine .inr ⟨H', M', R', stream', hinv.push hidle src.2, hin, hsame, ?_⟩
        rw [hcount]
        exact hrank
      | pop hidle => exact absurd hidle hin
      | producer heq =>
        obtain ⟨t', M'', stream'', heq', hinv', hc, hr, hlen⟩ := hinv.produce hsz hu.2
        obtain rfl := Option.some.inj (heq.symm.trans heq')
        refine .inr ⟨H', M'', R', stream'', hinv', by rwa [hc], hr.trans hsame, ?_⟩
        have hmono := CommonPop.rank_mono (c := t.consumer)
          (fun h0 : R' = (stream'' H').length => (show R' = (stream' H').length by have := hinv.read_le; omega))
        rw [hc, hcount]
        exact Nat.le_trans (Nat.add_le_add_right hmono _) hrank
      | consumer heq =>
        obtain ⟨t', H'', R'', heq', hinv', hdone⟩ := hinv.consume hsz
        obtain rfl := Option.some.inj (heq.symm.trans heq')
        rcases hdone hin with hret | ⟨hin', hr, hlt⟩
        · exact .inl (hsame ▸ hret)
        · refine .inr ⟨H'', M', R'', stream', hinv', hin', hr.trans hsame, ?_⟩
          rw [hcount]
          show _ + (_ + 1) ≤ _
          omega
  rcases key with hret | ⟨H', M', R', stream', -, -, -, hrank⟩
  · exact hret
  · omega

end CommonSpsc

end

/-- The two threads share the buffer: in every run of `step` they find what they rely on, and every pop
returns. -/
def SharesBuffer (step : CommonSpsc α → CommonSpscAct α → CommonSpsc α → Prop) (s₀ : CommonSpsc α) : Prop :=
  ∀ t, Reach step s₀ t → t.Safe ∧ (t.consumer ≠ .idle → t.Returns step)

/-- **The chained buffer needs no lock** between one pusher and one popper, in every run in which the tail
never moves off a node that the popper has found empty and that has got bytes since. -/
theorem commonBufferSpsc_shares (nodeSize maxSize : Nat) (h1 : 1 ≤ nodeSize)
    (h2 : 2 * (nodeSize + 1) ≤ 2147483648) (h3 : 2 * (maxSize + 1) ≤ 2147483648) :
    SharesBuffer (Restrict CommonSpscStep FoundEmptyStaysEmpty)
      (CommonSpsc.started (commonBufferInit nodeSize maxSize : CommonBuffer α)) := by
  have hsz : SpscSizes (nodeSize + 1) (maxSize + 1) := ⟨by omega, h2, by omega, h3⟩
  have hstart : (CommonSpsc.started (commonBufferInit nodeSize maxSize : CommonBuffer α)).Inv
      (nodeSize + 1) (maxSize + 1) := by
    refine ⟨0, 0, 0, fun _ => [], ?_⟩
    exact {
      maxSize := by
        show toI32 (toU32 ((maxSize : Int) + 1)) = _
        rw [toU32_eq (by omega) (by omega), toI32_eq (by omega) (by omega)]
        omega
      nodeSize := by
        show toI32 (nodeSize : Int) = _
        rw [toI32_eq (by omega) (by omega)]
        omega
      heap := rfl
      head := rfl
      tail := rfl
      bound := .inr ⟨rfl, rfl, rfl⟩
      node := fun i _ hi => absurd hi (Nat.not_lt_zero i)
      fresh := nofun
      used := fun i hi => absurd hi (Nat.not_lt_zero _)
      later := fun _ _ => rfl
      pushed := rfl
      popped := rfl
      writeCount := by simp [CommonSpsc.started, commonBufferInit]
      readCount := by simp [CommonSpsc.started, commonBufferInit]
      readLe := Nat.le_refl 0
      room := (by omega : 0 + 0 < 0 - 0 + (maxSize + 1))
      avail := Nat.le_refl 0
      producer := trivial
      consumer := trivial
      call := nofun
      log := rfl
      returned := nofun }
  intro t ht
  have hinv : t.Inv (nodeSize + 1) (maxSize + 1) := ht.invariant (fun _ _ _ hi hs => hi.step hsz hs) hstart
  exact ⟨hinv.safe hsz, hinv.returns hsz⟩

/-- The buffer of a download (`common_buffer.h:6-7`). -/
theorem commonBufferSpsc_shares_http : SharesBuffer (Restrict CommonSpscStep FoundEmptyStaysEmpty)
    (CommonSpsc.started (commonBufferInit (10240 : Nat) (655360 : Nat) : CommonBuffer (BitVec 8))) :=
  commonBufferSpsc_shares 10240 655360 (by decide) (by decide) (by decide)

/-! ## The run the condition excludes -/

/-- The step of an action, if it can be taken. -/
def CommonSpsc.next? (s : CommonSpsc α) : CommonSpscAct α → Option (CommonSpsc α)
  | .push src =>
    match s.producer with
    | .idle => some { s with producer := .entered src }
    | _ => none
  | .pop dst size =>
    match s.consumer with
    | .idle => some { s with consumer := .entered dst size }
    | _ => none
  | .producer => s.produce
  | .consumer => s.consume

theorem CommonSpsc.next?_step {s t : CommonSpsc α} {a : CommonSpscAct α} (h : s.next? a = some t) :
    CommonSpscStep s a t := by
  cases a with
  | push src =>
    simp only [next?] at h
    split at h
    · obtain rfl := Option.some.inj h
      exact .push ‹_›
    · cases h
  | pop dst size =>
    simp only [next?] at h
    split at h
    · obtain rfl := Option.some.inj h
      exact .pop ‹_›
    · cases h
  | producer => exact .producer h
  | consumer => exact .consumer h

theorem CommonSpsc.reach_of_foldlM {s t : CommonSpsc α} {as : List (CommonSpscAct α)}
    (h : as.foldlM CommonSpsc.next? s = some t) : Reach CommonSpscStep s t := by
  induction as generalizing s with
  | nil =>
    obtain rfl := Option.some.inj h
    exact Reach.refl s
  | cons a as ih =>
    rw [List.foldlM_cons, Option.bind_eq_bind, Option.bind_eq_some_iff] at h
    obtain ⟨u, hu, hrest⟩ := h
    obtain ⟨bs, hbs⟩ := ih hrest
    exact ⟨a :: bs, .cons (next?_step hu) hbs⟩

/-- Nodes of one byte. The popper takes the only byte and reads a count of zero; a push of two bytes fills
that node again, links the next one and moves the tail on; then the popper sees a tail that is another node
and frees the first with its byte. -/
theorem commonBufferSpsc_frees_unread : ¬ ∀ nodeSize maxSize : Nat, 1 ≤ nodeSize →
    SharesBuffer CommonSpscStep (CommonSpsc.started (commonBufferInit nodeSize maxSize : CommonBuffer Nat)) := by
  intro h
  let acts : List (CommonSpscAct Nat) :=
    .push ⟨[7], by decide⟩ :: List.replicate 13 .producer ++ .pop true 1 :: List.replicate 12 .consumer ++
      .push ⟨[8, 9], by decide⟩ :: List.replicate 18 .producer ++ List.replicate 6 .consumer
  obtain ⟨t, hrun, call, node, hpc, hload, hcount⟩ : ∃ t,
      acts.foldlM CommonSpsc.next? (CommonSpsc.started (commonBufferInit (1 : Nat) (3 : Nat))) = some t ∧
      ∃ call node, t.consumer = .destroy call 0 ∧ load? t.buffer.heap 0 = some node ∧ node.buffer.count = 1 :=
    ⟨_, rfl, _, _, rfl, rfl, rfl⟩
  have hsafe := (h 1 3 (Nat.le_refl 1) t (CommonSpsc.reach_of_foldlM hrun)).1
  have hempty := hsafe.no_early_free call 0 node hpc hload
  rw [hcount] at hempty
  cases hempty

end AudioPlayer

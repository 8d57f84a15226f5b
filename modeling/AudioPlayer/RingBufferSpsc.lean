import Mathlib
import AudioPlayer.Lib.Steps
import AudioPlayer.RingBuffer

/-!
# One producer and one consumer on a ring (`utils/ring_buffer.c:29-98`)

`common_player` pushes decoded samples in one thread and pops them in the PCM thread, without a lock. Here
the two calls are cut into their individual steps (the own index is read, the other side's index is read,
each segment is copied, the own index is stored) and the two threads take them in any order.

`pushed` and `popped` are not in the code: they record what the calls have put in and taken out, in order,
at the store that completes each call. Both count from the start of the run, so that `pushed.length` and
`popped.length` are the positions the two indices would have without the `%`; the invariant
`RingSpsc.Inv` says everything in terms of them.

| here | there |
|---|---|
| `SpscPush` | the thread inside `ring_buffer_push` |
| `SpscPop` | the thread inside `ring_buffer_pop` |
| `pushStep`, `popStep` | their statements, `none` where one is undefined |
-/

namespace AudioPlayer
open Lib

variable {α : Type}

/-- The next statement of `ring_buffer_push`, with its locals. -/
inductive SpscPush (α : Type)
  | idle
  | entered (src : List α)
  | sized (src : List α) (tmp : Int)
  | copy (src : List α) (tmp count : Int)
  | copyRest (src : List α) (tmp count : Int)
  | store (src : List α) (count : Int)

/-- The next statement of `ring_buffer_pop`; `out` is what was copied so far, `none` without a destination.
`ring_buffer_clear` moves the read index too, so it is a call of the consumer's side. -/
inductive SpscPop (α : Type)
  | idle
  | entered (dst : Bool) (size : Int)
  | sized (dst : Bool) (size tmp : Int)
  | copy (tmp count : Int)
  | copyRest (out : List (Option α)) (tmp count : Int)
  | store (out : Option (List (Option α))) (count : Int)
  | clear
  | clearStore (write : Int)

/-- One statement of `ring_buffer_push` (`ring_buffer.c:31-45`). -/
def pushStep (r : RingBuffer α) : SpscPush α → Option (RingBuffer α × SpscPush α)
  | .idle => some (r, .idle)
  | .entered src => do
    let tmp ← int32? (r.size - r.write)
    some (r, .sized src tmp)
  | .sized src tmp => do
    let count ← ringBufferGetFreeCount r
    let count := if toU32 count > (src.length : Int) then toI32 src.length else count
    some (r, .copy src tmp count)
  | .copy src tmp count =>
    if tmp ≥ count then do
      let buffer ← memcpy? r.buffer r.write (src.map some) count
      some ({ r with buffer }, .store src count)
    else do
      let buffer ← memcpy? r.buffer r.write (src.map some) tmp
      some ({ r with buffer }, .copyRest src tmp count)
  | .copyRest src tmp count => do
    let buffer ← memcpy? r.buffer 0 ((src.map some).drop tmp.toNat) (count - tmp)
    some ({ r with buffer }, .store src count)
  | .store _ count => do
    let write ← intMod? (← int32? (r.write + count)) r.size
    some ({ r with write }, .idle)

/-- One statement of `ring_buffer_pop` (`ring_buffer.c:52-69`) or of `ring_buffer_clear` (`:76`). -/
def popStep (r : RingBuffer α) : SpscPop α → Option (RingBuffer α × SpscPop α)
  | .idle => some (r, .idle)
  | .entered dst size => do
    let tmp ← int32? (r.size - r.read)
    some (r, .sized dst size tmp)
  | .sized dst size tmp => do
    let count ← ringBufferGetCount r
    let count := if toU32 count > size then toI32 size else count
    some (r, if dst then .copy tmp count else .store none count)
  | .copy tmp count =>
    if tmp ≥ count then do
      let out ← memread? r.buffer r.read count
      some (r, .store (some out) count)
    else do
      let out ← memread? r.buffer r.read tmp
      some (r, .copyRest out tmp count)
  | .copyRest out tmp count => do
    let rest ← memread? r.buffer 0 (count - tmp)
    some (r, .store (some (out ++ rest)) count)
  | .store _ count => do
    let read ← intMod? (← int32? (r.read + count)) r.size
    some ({ r with read }, .idle)
  | .clear => some (r, .clearStore r.write)
  | .clearStore write => some ({ r with read := write }, .idle)

/-- What the statement adds to the bytes pushed so far: those of the call it completes. -/
def SpscPush.accepted : SpscPush α → List α
  | .store src count => src.take count.toNat
  | _ => []

/-- What the statement adds to the bytes popped so far; without a destination, or when the ring is cleared,
they are those passed over. -/
def SpscPop.taken (r : RingBuffer α) : SpscPop α → List (Option α)
  | .store (some out) _ => out
  | .store none count => (ringBufferCopyOut r.buffer r.read (r.size - r.read) count).getD []
  | .clearStore write =>
    (ringBufferCopyOut r.buffer r.read (r.size - r.read) (circDist r.size r.read write)).getD []
  | _ => []

/-- Cell `i` holds a byte that is fully pushed and not popped: it lies between the two indices. -/
def RingBuffer.Unpopped (r : RingBuffer α) (i : Int) : Prop := ∃ k : Nat, k < r.count ∧ i = (r.read + k) % r.size

/-- The producer's next statement overwrites cell `i`. -/
def SpscPush.Writes (r : RingBuffer α) (i : Int) : SpscPush α → Prop
  | .copy _ tmp count => r.write ≤ i ∧ i < r.write + min tmp count
  | .copyRest _ tmp count => 0 ≤ i ∧ i < count - tmp
  | _ => False

/-- The consumer's next statement reads cell `i`. -/
def SpscPop.Reads (r : RingBuffer α) (i : Int) : SpscPop α → Prop
  | .copy tmp count => r.read ≤ i ∧ i < r.read + min tmp count
  | .copyRest _ tmp count => 0 ≤ i ∧ i < count - tmp
  | _ => False

/-- A ring, the two threads on it, and the bytes the completed calls have moved. -/
structure RingSpsc (α : Type) where
  ring     : RingBuffer α
  producer : SpscPush α
  consumer : SpscPop α
  pushed   : List α
  popped   : List (Option α)

/-- Who takes a step. Lengths and sizes are `uint32_t`. -/
inductive SpscAct (α : Type)
  | push (src : { l : List α // l.length < 4294967296 })
  | pop (dst : Bool) (size : Fin 4294967296)
  | clear
  | producer
  | consumer

/-- A thread that is in no call makes one, or a thread in a call executes its next statement. -/
inductive SpscStep : RingSpsc α → SpscAct α → RingSpsc α → Prop
  | push {s : RingSpsc α} {src : { l : List α // l.length < 4294967296 }} (h : s.producer = .idle) :
    SpscStep s (.push src) { s with producer := .entered src }
  | pop {s : RingSpsc α} {dst : Bool} {size : Fin 4294967296} (h : s.consumer = .idle) :
    SpscStep s (.pop dst size) { s with consumer := .entered dst (size : Nat) }
  | clear {s : RingSpsc α} (h : s.consumer = .idle) : SpscStep s .clear { s with consumer := .clear }
  | producer {s : RingSpsc α} {r : RingBuffer α} {p : SpscPush α} (h : pushStep s.ring s.producer = some (r, p)) :
    SpscStep s .producer { s with ring := r, producer := p, pushed := s.pushed ++ s.producer.accepted }
  | consumer {s : RingSpsc α} {r : RingBuffer α} {c : SpscPop α} (h : popStep s.ring s.consumer = some (r, c)) :
    SpscStep s .consumer { s with ring := r, consumer := c, popped := s.popped ++ s.consumer.taken s.ring }

/-- Nobody has called anything. -/
def RingSpsc.started (r : RingBuffer α) : RingSpsc α := ⟨r, .idle, .idle, [], []⟩

/-- What the two threads may rely on in a state. -/
structure RingSpsc.Safe (s : RingSpsc α) : Prop where
  /-- Neither thread's next statement is undefined. -/
  push_defined : (pushStep s.ring s.producer).isSome
  pop_defined  : (popStep s.ring s.consumer).isSome
  /-- The producer overwrites no byte that has not been popped. -/
  no_overwrite : ∀ i, s.producer.Writes s.ring i → ¬ s.ring.Unpopped i
  /-- The consumer reads no byte that has not been fully pushed. -/
  no_early_read : ∀ i, s.consumer.Reads s.ring i → s.ring.Unpopped i
  /-- What was popped is a beginning of what was pushed. -/
  in_order : s.popped <+: s.pushed.map some

/-! ## The invariant -/

/-- The ring with everything between the positions `R` and `pushed.length` published: each index is its
position modulo the size, less than one turn apart, and the cells between them hold what was pushed there. -/
structure Published (S : Nat) (r : RingBuffer α) (pushed : List α) (R : Nat) : Prop where
  small  : 2 * S ≤ 2147483648
  size   : r.size = S
  length : r.buffer.length = S
  read   : r.read = (R % S : Nat)
  write  : r.write = (pushed.length % S : Nat)
  le     : R ≤ pushed.length
  lt     : pushed.length < R + S
  cells  : ∀ k, R ≤ k → k < pushed.length → r.buffer[k % S]? = some pushed[k]?

/-- The first `n` bytes of `src` lie in the block from position `W` on. -/
def Copied (S : Nat) (buffer : List (Option α)) (W : Nat) (src : List α) (n : Nat) : Prop :=
  ∀ j, j < n → buffer[(W + j) % S]? = some src[j]?

/-- What the producer knows where it is: the count it computed still fits, whatever was popped since. -/
def SpscPush.Ok (S : Nat) (buffer : List (Option α)) (W R : Nat) : SpscPush α → Prop
  | .idle => True
  | .entered src => src.length < 4294967296
  | .sized src tmp => src.length < 4294967296 ∧ tmp = (S - W % S : Nat)
  | .copy src tmp count => ∃ n : Nat, tmp = (S - W % S : Nat) ∧ count = n ∧ n ≤ src.length ∧ W + n < R + S
  | .copyRest src tmp count => ∃ n : Nat, tmp = (S - W % S : Nat) ∧ count = n ∧ n ≤ src.length ∧
      W + n < R + S ∧ S - W % S < n ∧ Copied S buffer W src (S - W % S)
  | .store src count => ∃ n : Nat, count = n ∧ n ≤ src.length ∧ W + n < R + S ∧ Copied S buffer W src n

/-- What the consumer knows where it is: the count it computed is there, whatever was pushed since. -/
def SpscPop.Ok (S : Nat) (pushed : List α) (R : Nat) : SpscPop α → Prop
  | .idle => True
  | .entered _ size => ∃ k : Nat, size = k ∧ k < 4294967296
  | .sized _ size tmp => ∃ k : Nat, size = k ∧ k < 4294967296 ∧ tmp = (S - R % S : Nat)
  | .copy tmp count => ∃ n : Nat, tmp = (S - R % S : Nat) ∧ count = n ∧ R + n ≤ pushed.length
  | .copyRest out tmp count => ∃ n : Nat, tmp = (S - R % S : Nat) ∧ count = n ∧ R + n ≤ pushed.length ∧
      S - R % S < n ∧ out = ((pushed.drop R).take (S - R % S)).map some
  | .store out count => ∃ n : Nat, count = n ∧ R + n ≤ pushed.length ∧
      ∀ xs, out = some xs → xs = ((pushed.drop R).take n).map some
  | .clear => True
  | .clearStore write => ∃ n : Nat, R + n ≤ pushed.length ∧ write = ((R + n) % S : Nat)

namespace Published
variable {S R : Nat} {r : RingBuffer α} {pushed : List α}

theorem pos (h : Published S r pushed R) : 0 < S := by have := h.le; have := h.lt; omega

theorem circ (h : Published S r pushed R) : Circ r.size r.read r.write := by
  rw [h.size, h.read, h.write]
  exact circ_mod h.pos h.small

theorem count (h : Published S r pushed R) : r.count = pushed.length - R := by
  unfold RingBuffer.count
  rw [h.size, h.read, h.write]
  exact circDist_mod h.le h.lt

theorem getCount (h : Published S r pushed R) : ringBufferGetCount r = some ((pushed.length - R : Nat) : Int) := by
  rw [show ringBufferGetCount r = _ from h.circ.count, ← RingBuffer.count, h.count]

theorem getFreeCount (h : Published S r pushed R) :
    ringBufferGetFreeCount r = some ((S - 1 - (pushed.length - R) : Nat) : Int) := by
  have hle := h.le
  have hlt := h.lt
  rw [show ringBufferGetFreeCount r = _ from h.circ.free, ← RingBuffer.count, h.count, h.size]
  congr 1; omega

/-- The cells between the two indices are those of the positions between. -/
theorem unpopped_iff (h : Published S r pushed R) {i : Int} :
    r.Unpopped i ↔ ∃ k : Nat, R ≤ k ∧ k < pushed.length ∧ i = (k % S : Nat) := by
  have hle := h.le
  have hpos : ∀ k : Nat, (r.read + k) % r.size = ((R + k) % S : Nat) := by
    intro k
    rw [h.read, h.size, ← Nat.mod_add_mod]
    rfl
  unfold RingBuffer.Unpopped
  rw [h.count]
  constructor
  · rintro ⟨k, hk, rfl⟩
    exact ⟨R + k, by omega, by omega, hpos k⟩
  · rintro ⟨k, hk1, hk2, rfl⟩
    refine ⟨k - R, by omega, ?_⟩
    rw [hpos, show R + (k - R) = k by omega]

/-- One segment of the copy of a push: nothing published changes. -/
theorem memcpy (h : Published S r pushed R) (src : List α) {a m : Nat} (hoff : (pushed.length + a) % S + m ≤ S)
    (hsrc : a + m ≤ src.length) (hfree : pushed.length + a + m < R + S) :
    ∃ B, memcpy? r.buffer ((pushed.length + a) % S : Nat) ((src.map some).drop a) m = some B ∧
      Published S { r with buffer := B } pushed R ∧
      (Copied S r.buffer pushed.length src a → Copied S B pushed.length src (a + m)) := by
  have hle := h.le
  have hlen := h.length
  have hx : m ≤ ((src.map some).drop a).length := by simp; omega
  -- a position that is at most one turn before the segment does not lie in it
  have hout : ∀ k, k < pushed.length + a → pushed.length + a + m ≤ k + S →
      ¬ ((pushed.length + a) % S ≤ k % S ∧ k % S < (pushed.length + a) % S + m) := by
    rintro k hk1 hk2 ⟨hi1, hi2⟩
    have hwrap := add_mod_wrap (a := pushed.length + a) (j := k % S - (pushed.length + a) % S) (n := S) (by omega)
    rw [if_pos (by omega)] at hwrap
    refine mod_ne (n := S) (a := k) (b := pushed.length + a + (k % S - (pushed.length + a) % S)) (by omega)
      (by omega) ?_
    rw [hwrap]; omega
  refine ⟨_, memcpy?_eq (by omega) hx, ⟨h.small, h.size, ?_, h.read, h.write, h.le, h.lt, ?_⟩, ?_⟩
  · simp only [List.length_append, List.length_take, List.length_drop, List.length_map] at hx ⊢; omega
  · intro k hk1 hk2
    rw [getElem?_memcpy (by omega) hx, if_neg (hout k (by omega) (by omega))]
    exact h.cells k hk1 hk2
  · intro hcopied j hj
    rw [getElem?_memcpy (by omega) hx]
    by_cases hja : j < a
    · rw [if_neg (hout (pushed.length + j) (by omega) (by omega))]
      exact hcopied j hja
    · have hwrap := add_mod_wrap (a := pushed.length + a) (j := j - a) (n := S) (by omega)
      rw [if_pos (by omega), show pushed.length + a + (j - a) = pushed.length + j by omega] at hwrap
      rw [hwrap, if_pos (by omega), List.getElem?_drop, List.getElem?_map,
        show a + ((pushed.length + a) % S + (j - a) - (pushed.length + a) % S) = j by omega,
        List.getElem?_eq_getElem (by omega)]
      rfl

/-- One segment of the copy of a pop: it is what was pushed there. -/
theorem memread (h : Published S r pushed R) {a m : Nat} (hoff : (R + a) % S + m ≤ S)
    (hm : R + a + m ≤ pushed.length) :
    memread? r.buffer ((R + a) % S : Nat) m = some ((((pushed.drop R).drop a).take m).map some) := by
  have hlen := h.length
  have hlt := h.lt
  rw [memread?_eq (by omega)]
  congr 1
  apply List.ext_getElem?
  intro j
  by_cases hj : j < m
  · have hwrap := add_mod_wrap (a := R + a) (j := j) (n := S) (by omega)
    rw [if_pos (by omega)] at hwrap
    rw [List.getElem?_take_of_lt hj, List.getElem?_drop, ← hwrap, h.cells (R + a + j) (by omega) (by omega),
      List.getElem?_map, List.getElem?_take_of_lt hj, List.getElem?_drop, List.getElem?_drop,
      ← Nat.add_assoc, List.getElem?_eq_getElem (by omega)]
    rfl
  · rw [List.getElem?_eq_none (by simp; omega), List.getElem?_eq_none (by simp; omega)]

/-- The store of a push publishes what was copied. -/
theorem store_write (h : Published S r pushed R) {src : List α} {n : Nat} (hn : n ≤ src.length)
    (hfree : pushed.length + n < R + S) (hcopied : Copied S r.buffer pushed.length src n) :
    Published S { r with write := ((pushed.length + n) % S : Nat) } (pushed ++ src.take n) R := by
  have hle := h.le
  have hlen : (pushed ++ src.take n).length = pushed.length + n := by simp; omega
  refine ⟨h.small, h.size, h.length, h.read, by rw [hlen], by omega, by omega, ?_⟩
  intro k hk1 hk2
  by_cases hk : k < pushed.length
  · rw [List.getElem?_append_left hk]
    exact h.cells k hk1 hk
  · have := hcopied (k - pushed.length) (by omega)
    rw [show pushed.length + (k - pushed.length) = k by omega] at this
    rw [List.getElem?_append_right (by omega), List.getElem?_take_of_lt (by omega)]
    exact this

/-- The store of a pop gives its cells back. -/
theorem store_read (h : Published S r pushed R) {n : Nat} (hn : R + n ≤ pushed.length) :
    Published S { r with read := ((R + n) % S : Nat) } pushed (R + n) := by
  have hlt := h.lt
  exact ⟨h.small, h.size, h.length, rfl, h.write, hn, by omega,
    fun k hk1 hk2 => h.cells k (by omega) hk2⟩

end Published

section
variable {S R : Nat} {r r' : RingBuffer α} {pushed : List α} {p p' : SpscPush α} {c c' : SpscPop α}

/-- The producer's facts survive whatever is popped. -/
theorem SpscPush.Ok.mono {B : List (Option α)} {W R' : Nat} (h : p.Ok S B W R) (hR : R ≤ R') : p.Ok S B W R' := by
  cases p with
  | copy =>
    obtain ⟨n, h1, h2, h3, h4⟩ := h
    exact ⟨n, h1, h2, h3, by omega⟩
  | copyRest =>
    obtain ⟨n, h1, h2, h3, h4, h5, h6⟩ := h
    exact ⟨n, h1, h2, h3, by omega, h5, h6⟩
  | store =>
    obtain ⟨n, h1, h2, h3, h4⟩ := h
    exact ⟨n, h1, h2, by omega, h4⟩
  | _ => exact h

theorem take_drop_pushed {xs : List α} {n : Nat} (h : R + n ≤ pushed.length) :
    ((pushed ++ xs).drop R).take n = (pushed.drop R).take n := by
  rw [List.drop_append_of_le_length (by omega), List.take_append_of_le_length (by simp; omega)]

/-- The consumer's facts survive whatever is pushed. -/
theorem SpscPop.Ok.append {xs : List α} (h : c.Ok S pushed R) : c.Ok S (pushed ++ xs) R := by
  have hlen : (pushed ++ xs).length = pushed.length + xs.length := List.length_append
  cases c with
  | copy =>
    obtain ⟨n, h1, h2, h3⟩ := h
    exact ⟨n, h1, h2, by omega⟩
  | copyRest =>
    obtain ⟨n, h1, h2, h3, h4, h5⟩ := h
    exact ⟨n, h1, h2, by omega, h4, by rw [h5, take_drop_pushed (by omega)]⟩
  | store =>
    obtain ⟨n, h1, h2, h3⟩ := h
    refine ⟨n, h1, by omega, ?_⟩
    intro ys hys
    rw [h3 ys hys, take_drop_pushed h2]
  | clearStore =>
    obtain ⟨n, h1, h2⟩ := h
    exact ⟨n, by omega, h2⟩
  | _ => exact h

theorem intMod?_mod {a n : Nat} (hS : 0 < S) (hn : n < S) (hs : 2 * S ≤ 2147483648) :
    (int32? ((a % S : Nat) + (n : Int)) >>= fun x => intMod? x S) = some ((a + n) % S : Nat) := by
  have ha := Nat.mod_lt a hS
  rw [int32?_eq (by omega) (by omega), ← Nat.mod_add_mod]
  exact intMod?_eq (by omega) (by omega) (by omega)

theorem mod_rest {a : Nat} (hS : 0 < S) : (a + (S - a % S)) % S = 0 := by
  have := Nat.mod_lt a hS
  rw [← Nat.mod_add_mod, show a % S + (S - a % S) = S by omega, Nat.mod_self]

/-- How much of a push is taken: what fits beside what is not popped when the read index is loaded. -/
theorem pushStep_sized (h : Published S r pushed R) {src : List α} {tmp : Int} (hsrc : src.length < 4294967296) :
    pushStep r (.sized src tmp) =
      some (r, .copy src tmp (min (S - 1 - (pushed.length - R)) src.length : Nat)) := by
  have hlt := h.lt
  have hsmall := h.small
  simp only [pushStep, h.getFreeCount, Option.bind_eq_bind, Option.bind_some]
  rw [count_min (by omega) hsrc]

/-- How much of a pop is delivered: what is there when the write index is loaded. -/
theorem popStep_sized (h : Published S r pushed R) {dst : Bool} {k : Nat} {tmp : Int} (hk : k < 4294967296) :
    popStep r (.sized dst k tmp) = some (r, if dst then .copy tmp (min (pushed.length - R) k : Nat)
      else .store none (min (pushed.length - R) k : Nat)) := by
  have hlt := h.lt
  have hsmall := h.small
  simp only [popStep, h.getCount, Option.bind_eq_bind, Option.bind_some]
  rw [count_min (by omega) hk]

/-- **One statement of a push** is defined and keeps the invariant, on both sides. -/
theorem pushStep_spec (h : Published S r pushed R) (hp : p.Ok S r.buffer pushed.length R) :
    ∃ r' p', pushStep r p = some (r', p') ∧ Published S r' (pushed ++ p.accepted) R ∧
      p'.Ok S r'.buffer (pushed ++ p.accepted).length R := by
  have hS := h.pos
  have hsmall := h.small
  have hle := h.le
  have hW := Nat.mod_lt pushed.length hS
  cases p with
  | idle => exact ⟨r, .idle, rfl, by simpa [SpscPush.accepted] using h, trivial⟩
  | entered src =>
    refine ⟨r, .sized src (S - pushed.length % S : Nat), ?_, by simpa [SpscPush.accepted] using h, hp, ?_⟩
    · simp only [pushStep, h.size, h.write]
      rw [int32?_eq (by omega) (by omega), show (S : Int) - (pushed.length % S : Nat) =
        (S - pushed.length % S : Nat) by omega]
      rfl
    · simp only [SpscPush.accepted, List.append_nil]
  | sized src tmp =>
    obtain ⟨hsrc, htmp⟩ := hp
    refine ⟨r, _, pushStep_sized h hsrc, by simpa [SpscPush.accepted] using h, _, ?_, rfl, Nat.min_le_right _ _,
      ?_⟩
    · simpa [SpscPush.accepted] using htmp
    · have := h.lt
      simp only [SpscPush.accepted, List.append_nil]
      omega
  | copy src tmp count =>
    obtain ⟨n, rfl, rfl, hn, hfit⟩ := hp
    -- the first segment starts at the own index
    have hseg : ∀ m, m ≤ n → m ≤ S - pushed.length % S → _ := fun m h1 h2 =>
      h.memcpy src (a := 0) (m := m) (by rw [Nat.add_zero]; omega) (by omega) (by omega)
    simp only [Nat.add_zero, List.drop_zero, Nat.zero_add] at hseg
    by_cases hlast : n ≤ S - pushed.length % S
    · obtain ⟨B, hB, hpub, hcop⟩ := hseg n (Nat.le_refl n) hlast
      refine ⟨_, .store src n, ?_, by simpa [SpscPush.accepted] using hpub, n, rfl, hn, ?_, ?_⟩
      · simp only [pushStep, h.write]
        rw [if_pos (by omega), hB]
        rfl
      · simpa [SpscPush.accepted] using hfit
      · simpa [SpscPush.accepted] using hcop (fun j hj => absurd hj (Nat.not_lt_zero j))
    · obtain ⟨B, hB, hpub, hcop⟩ := hseg (S - pushed.length % S) (by omega) (Nat.le_refl _)
      refine ⟨_, .copyRest src (S - pushed.length % S : Nat) n, ?_, by simpa [SpscPush.accepted] using hpub,
        n, ?_, rfl, hn, ?_, ?_, ?_⟩
      · simp only [pushStep, h.write]
        rw [if_neg (by omega), hB]
        rfl
      · simp only [SpscPush.accepted, List.append_nil]
      · simpa [SpscPush.accepted] using hfit
      · simp only [SpscPush.accepted, List.append_nil]; omega
      · simpa [SpscPush.accepted] using hcop (fun j hj => absurd hj (Nat.not_lt_zero j))
  | copyRest src tmp count =>
    obtain ⟨n, rfl, rfl, hn, hfit, hmore, hcop⟩ := hp
    -- the second segment starts where the first ended, at the front of the block
    have hoff := mod_rest (a := pushed.length) hS
    obtain ⟨B, hB, hpub, hcop'⟩ := h.memcpy src (a := S - pushed.length % S)
      (m := n - (S - pushed.length % S)) (by have := h.lt; omega) (by omega) (by omega)
    rw [hoff] at hB
    refine ⟨_, .store src n, ?_, by simpa [SpscPush.accepted] using hpub, n, rfl, hn, ?_, ?_⟩
    · simp only [pushStep, Int.toNat_natCast]
      rw [show ((n : Int) - (S - pushed.length % S : Nat)) = (n - (S - pushed.length % S) : Nat) by omega]
      rw [show (0 : Int) = ((0 : Nat) : Int) from rfl, hB]
      rfl
    · simpa [SpscPush.accepted] using hfit
    · have := hcop' hcop
      rw [show S - pushed.length % S + (n - (S - pushed.length % S)) = n by omega] at this
      simpa [SpscPush.accepted] using this
  | store src count =>
    obtain ⟨n, rfl, hn, hfit, hcop⟩ := hp
    refine ⟨_, .idle, ?_, h.store_write hn hfit hcop, trivial⟩
    have hmod := intMod?_mod (a := pushed.length) (n := n) hS (by omega) hsmall
    simp only [Option.bind_eq_bind] at hmod
    simp only [pushStep, h.write, h.size, Option.bind_eq_bind]
    rw [← Option.bind_assoc, hmod]
    rfl

theorem take_split {xs : List α} {n k : Nat} (h : k ≤ n) :
    (xs.take k).map some ++ ((xs.drop k).take (n - k)).map some = (xs.take n).map some := by
  rw [← List.map_append, ← List.take_add, show k + (n - k) = n by omega]

theorem Published.copyOut (h : Published S r pushed R) {n : Nat} (hn : R + n ≤ pushed.length) :
    ringBufferCopyOut r.buffer r.read (r.size - r.read) n = some (((pushed.drop R).take n).map some) := by
  have hR := Nat.mod_lt R h.pos
  have hlt := h.lt
  have hseg : ∀ m, m ≤ n → m ≤ S - R % S → _ := fun m h1 h2 =>
    h.memread (a := 0) (m := m) (by rw [Nat.add_zero]; omega) (by omega)
  simp only [Nat.add_zero, List.drop_zero] at hseg
  unfold ringBufferCopyOut
  rw [h.read, h.size]
  split
  · exact hseg n (Nat.le_refl n) (by omega)
  · have hrest := h.memread (a := S - R % S) (m := n - (S - R % S)) (by rw [mod_rest h.pos]; omega) (by omega)
    rw [mod_rest h.pos] at hrest
    rw [show (S : Int) - (R % S : Nat) = (S - R % S : Nat) by omega,
      show ((n : Int) - (S - R % S : Nat)) = (n - (S - R % S) : Nat) by omega,
      hseg (S - R % S) (by omega) (Nat.le_refl _), show (0 : Int) = ((0 : Nat) : Int) from rfl, hrest]
    simp only [Option.bind_eq_bind, Option.bind_some]
    rw [take_split (by omega)]

/-- **One statement of a pop** is defined, takes the next bytes that were pushed, and keeps the invariant. -/
theorem popStep_spec (h : Published S r pushed R) (hc : c.Ok S pushed R) :
    ∃ r' c', popStep r c = some (r', c') ∧ r'.buffer = r.buffer ∧
      ∃ n, c.taken r = ((pushed.drop R).take n).map some ∧ R + n ≤ pushed.length ∧
        Published S r' pushed (R + n) ∧ c'.Ok S pushed (R + n) := by
  have hS := h.pos
  have hsmall := h.small
  have hlt := h.lt
  have hR := Nat.mod_lt R hS
  cases c with
  | idle => exact ⟨r, .idle, rfl, rfl, 0, rfl, h.le, h, trivial⟩
  | entered dst size =>
    obtain ⟨k, rfl, hk⟩ := hc
    refine ⟨r, .sized dst k (S - R % S : Nat), ?_, rfl, 0, rfl, h.le, h, k, rfl, hk, rfl⟩
    simp only [popStep, h.size, h.read]
    rw [int32?_eq (by omega) (by omega), show (S : Int) - (R % S : Nat) = (S - R % S : Nat) by omega]
    rfl
  | sized dst size tmp =>
    obtain ⟨k, rfl, hk, rfl⟩ := hc
    have hle := h.le
    refine ⟨r, _, popStep_sized h hk, rfl, 0, rfl, h.le, h, ?_⟩
    cases dst with
    | true => exact ⟨_, rfl, rfl, by omega⟩
    | false => exact ⟨_, rfl, by omega, by intro xs hxs; cases hxs⟩
  | copy tmp count =>
    obtain ⟨n, rfl, rfl, hn⟩ := hc
    have hseg : ∀ m, m ≤ n → m ≤ S - R % S → _ := fun m h1 h2 =>
      h.memread (a := 0) (m := m) (by rw [Nat.add_zero]; omega) (by omega)
    simp only [Nat.add_zero, List.drop_zero] at hseg
    by_cases hlast : n ≤ S - R % S
    · refine ⟨r, .store (some (((pushed.drop R).take n).map some)) n, ?_, rfl, 0, rfl, h.le, h, n, rfl, hn, ?_⟩
      · simp only [popStep, h.read]
        rw [if_pos (by omega), hseg n (Nat.le_refl n) hlast]
        rfl
      · intro xs hxs
        exact (Option.some.inj hxs).symm
    · refine ⟨r, .copyRest (((pushed.drop R).take (S - R % S)).map some) (S - R % S : Nat) n, ?_, rfl, 0, rfl,
        h.le, h, n, rfl, rfl, hn, Nat.lt_of_not_le hlast, rfl⟩
      simp only [popStep, h.read]
      rw [if_neg (by omega), hseg (S - R % S) (by omega) (Nat.le_refl _)]
      rfl
  | copyRest out tmp count =>
    obtain ⟨n, rfl, rfl, hn, hmore, rfl⟩ := hc
    have hrest := h.memread (a := S - R % S) (m := n - (S - R % S)) (by rw [mod_rest hS]; omega) (by omega)
    rw [mod_rest hS] at hrest
    refine ⟨r, .store (some (((pushed.drop R).take n).map some)) n, ?_, rfl, 0, rfl, h.le, h, n, rfl, hn, ?_⟩
    · simp only [popStep]
      rw [show ((n : Int) - (S - R % S : Nat)) = (n - (S - R % S) : Nat) by omega,
        show (0 : Int) = ((0 : Nat) : Int) from rfl, hrest, ← take_split (Nat.le_of_lt hmore)]
      rfl
    · intro xs hxs
      exact (Option.some.inj hxs).symm
  | store out count =>
    obtain ⟨n, rfl, hn, hout⟩ := hc
    refine ⟨{ r with read := ((R + n) % S : Nat) }, .idle, ?_, rfl, n, ?_, hn, h.store_read hn, trivial⟩
    · have hmod := intMod?_mod (a := R) (n := n) hS (by omega) hsmall
      simp only [Option.bind_eq_bind] at hmod
      simp only [popStep, h.read, h.size, Option.bind_eq_bind]
      rw [← Option.bind_assoc, hmod]
      rfl
    · cases out with
      | some xs => exact hout xs rfl
      | none =>
        simp only [SpscPop.taken]
        rw [h.copyOut hn]
        rfl
  | clear =>
    exact ⟨r, .clearStore r.write, rfl, rfl, 0, rfl, h.le, h, pushed.length - R, by have := h.le; omega, by
      rw [h.write, show R + 0 + (pushed.length - R) = pushed.length by have := h.le; omega]⟩
  | clearStore write =>
    obtain ⟨n, hn, rfl⟩ := hc
    refine ⟨_, .idle, rfl, rfl, n, ?_, hn, h.store_read hn, trivial⟩
    have hdist : circDist r.size r.read ((R + n) % S : Nat) = n := by
      rw [h.size, h.read, circDist_mod (by omega) (by omega)]
      omega
    simp only [SpscPop.taken]
    rw [hdist, h.copyOut hn]
    rfl

end

/-! ## Every run -/

/-- The invariant of a run on a block of `S` cells. -/
structure RingSpsc.Inv (S : Nat) (s : RingSpsc α) : Prop where
  published : Published S s.ring s.pushed s.popped.length
  producer  : s.producer.Ok S s.ring.buffer s.pushed.length s.popped.length
  consumer  : s.consumer.Ok S s.pushed s.popped.length
  in_order  : s.popped <+: s.pushed.map some

section
variable {S : Nat} {s t : RingSpsc α} {a : SpscAct α}

theorem RingSpsc.Inv.step (h : s.Inv S) (hstep : SpscStep s a t) : t.Inv S := by
  obtain ⟨hpub, hp, hc, hord⟩ := h
  cases hstep with
  | @push src hidle => exact ⟨hpub, src.2, hc, hord⟩
  | @pop dst size hidle => exact ⟨hpub, hp, ⟨size, rfl, size.2⟩, hord⟩
  | clear hidle => exact ⟨hpub, hp, trivial, hord⟩
  | producer hstep =>
    obtain ⟨r', p', heq, hpub', hp'⟩ := pushStep_spec hpub hp
    obtain ⟨rfl, rfl⟩ := Prod.mk.inj (Option.some.inj (hstep.symm.trans heq))
    refine ⟨hpub', hp', hc.append, ?_⟩
    dsimp only
    rw [List.map_append]
    exact hord.trans (List.prefix_append _ _)
  | consumer hstep =>
    obtain ⟨r', c', heq, hbuf, n, htaken, hn, hpub', hc'⟩ := popStep_spec hpub hc
    obtain ⟨rfl, rfl⟩ := Prod.mk.inj (Option.some.inj (hstep.symm.trans heq))
    have hlen : (s.popped ++ s.consumer.taken s.ring).length = s.popped.length + n := by
      rw [List.length_append, htaken, List.length_map, List.length_take, List.length_drop]; omega
    refine ⟨by dsimp only; rw [hlen]; exact hpub', ?_, by dsimp only; rw [hlen]; exact hc', ?_⟩
    · dsimp only
      rw [hbuf, hlen]
      exact hp.mono (by omega)
    · -- `popped` is the first part of `pushed`, and the next `n` bytes follow
      have htake := List.prefix_iff_eq_take.1 hord
      dsimp only
      rw [htaken, List.map_take, List.map_drop]
      nth_rewrite 1 [htake]
      rw [← List.take_add]
      exact List.take_prefix _ _

/-- In a state of the invariant both threads find what they rely on. -/
theorem RingSpsc.Inv.safe (h : s.Inv S) : s.Safe := by
  obtain ⟨hpub, hp, hc, hord⟩ := h
  have hS := hpub.pos
  have hW := Nat.mod_lt s.pushed.length hS
  have hR := Nat.mod_lt s.popped.length hS
  refine ⟨?_, ?_, ?_, ?_, hord⟩
  · obtain ⟨r', p', heq, -⟩ := pushStep_spec hpub hp
    rw [heq]; rfl
  · obtain ⟨r', c', heq, -⟩ := popStep_spec hpub hc
    rw [heq]; rfl
  · -- a cell the producer writes is that of a position at or behind `pushed.length`
    intro i hi hun
    obtain ⟨k, hk1, hk2, rfl⟩ := hpub.unpopped_iff.1 hun
    have hcell : ∀ j, s.pushed.length + j < s.popped.length + S → j < S →
        (k % S : Nat) ≠ (s.pushed.length + j) % S := fun j h1 _ => mod_ne (by omega) (by omega)
    cases hpc : s.producer with
    | copy src tmp count =>
      rw [hpc] at hi hp
      obtain ⟨n, rfl, rfl, hn, hfit⟩ := hp
      obtain ⟨h1, h2⟩ := hi
      rw [hpub.write] at h1 h2
      refine hcell (k % S - s.pushed.length % S) (by omega) (by omega) ?_
      rw [add_mod_wrap (by omega), if_pos (by omega)]
      omega
    | copyRest src tmp count =>
      rw [hpc] at hi hp
      obtain ⟨n, rfl, rfl, hn, hfit, hmore, hcop⟩ := hp
      obtain ⟨h1, h2⟩ := hi
      refine hcell (S - s.pushed.length % S + k % S) (by omega) (by omega) ?_
      rw [← Nat.add_assoc, ← Nat.mod_add_mod, mod_rest hS, Nat.zero_add, Nat.mod_mod]
    | idle => rw [hpc] at hi; exact hi
    | entered => rw [hpc] at hi; exact hi
    | sized => rw [hpc] at hi; exact hi
    | store => rw [hpc] at hi; exact hi
  · -- a cell the consumer reads is that of a position before `pushed.length`
    intro i hi
    have hlt := hpub.lt
    cases hpc : s.consumer with
    | copy tmp count =>
      rw [hpc] at hi hc
      obtain ⟨n, rfl, rfl, hn⟩ := hc
      obtain ⟨h1, h2⟩ := hi
      rw [hpub.read] at h1 h2
      obtain ⟨m, rfl⟩ : ∃ m : Nat, i = m := ⟨i.toNat, by omega⟩
      refine hpub.unpopped_iff.2 ⟨s.popped.length + (m - s.popped.length % S), by omega, by omega, ?_⟩
      rw [add_mod_wrap (by omega), if_pos (by omega)]
      omega
    | copyRest out tmp count =>
      rw [hpc] at hi hc
      obtain ⟨n, rfl, rfl, hn, hmore, -⟩ := hc
      obtain ⟨h1, h2⟩ := hi
      obtain ⟨m, rfl⟩ : ∃ m : Nat, i = m := ⟨i.toNat, by omega⟩
      refine hpub.unpopped_iff.2 ⟨s.popped.length + (S - s.popped.length % S + m), by omega, by omega, ?_⟩
      rw [← Nat.add_assoc, ← Nat.mod_add_mod, mod_rest hS, Nat.zero_add, Nat.mod_eq_of_lt (by omega)]
    | idle => rw [hpc] at hi; exact hi.elim
    | entered => rw [hpc] at hi; exact hi.elim
    | sized => rw [hpc] at hi; exact hi.elim
    | store => rw [hpc] at hi; exact hi.elim
    | clear => rw [hpc] at hi; exact hi.elim
    | clearStore => rw [hpc] at hi; exact hi.elim

/-! ## Calls in whole units -/

/-- The push is of whole units of `g` bytes, and all of it fits. -/
def SpscPush.Fits (g S W R : Nat) : SpscPush α → Prop
  | .idle => True
  | .entered src => g ∣ src.length ∧ W + src.length < R + S
  | .sized src _ => g ∣ src.length ∧ W + src.length < R + S
  | .copy src _ count => g ∣ src.length ∧ count = src.length
  | .copyRest src _ count => g ∣ src.length ∧ count = src.length
  | .store src count => g ∣ src.length ∧ count = src.length

/-- The pop takes whole units of `g` bytes. -/
def SpscPop.Whole (g S R : Nat) : SpscPop α → Prop
  | .idle => True
  | .entered _ size => (g : Int) ∣ size
  | .sized _ size _ => (g : Int) ∣ size
  | .copy _ count => (g : Int) ∣ count
  | .copyRest _ _ count => (g : Int) ∣ count
  | .store _ count => (g : Int) ∣ count
  | .clear => True
  | .clearStore write => ∀ n, n < S → write = ((R + n) % S : Nat) → g ∣ n

/-- Everything on the ring happens in whole units of `g` bytes. -/
structure RingSpsc.Whole (g S : Nat) (s : RingSpsc α) : Prop where
  pushed   : g ∣ s.pushed.length
  popped   : g ∣ s.popped.length
  producer : s.producer.Fits g S s.pushed.length s.popped.length
  consumer : s.consumer.Whole g S s.popped.length

/-- A call in whole units; a push is of no more than what is free when it is made. -/
def SpscAct.Whole (g S : Nat) (s : RingSpsc α) : SpscAct α → Prop
  | .push src => g ∣ src.val.length ∧ s.pushed.length + src.val.length < s.popped.length + S
  | .pop _ size => g ∣ size
  | _ => True

theorem SpscPush.Fits.mono {p : SpscPush α} {g W R R' : Nat} (h : p.Fits g S W R) (hR : R ≤ R') :
    p.Fits g S W R' := by
  cases p with
  | entered => exact ⟨h.1, by have := h.2; omega⟩
  | sized => exact ⟨h.1, by have := h.2; omega⟩
  | _ => exact h

/-- What one statement of a push does to where the producer is, and the bytes it adds. -/
inductive PushTurn (S W R : Nat) : SpscPush α → SpscPush α → List α → Prop
  | idle : PushTurn S W R .idle .idle []
  | entered {src : List α} {tmp : Int} : PushTurn S W R (.entered src) (.sized src tmp) []
  | sized {src : List α} {tmp : Int} :
    PushTurn S W R (.sized src tmp) (.copy src tmp (min (S - 1 - (W - R)) src.length : Nat)) []
  | copy {src : List α} {tmp count : Int} : PushTurn S W R (.copy src tmp count) (.store src count) []
  | copyMore {src : List α} {tmp count : Int} : PushTurn S W R (.copy src tmp count) (.copyRest src tmp count) []
  | copyRest {src : List α} {tmp count : Int} : PushTurn S W R (.copyRest src tmp count) (.store src count) []
  | store {src : List α} {count : Int} : PushTurn S W R (.store src count) .idle (src.take count.toNat)

/-- What one statement of a pop does to where the consumer is, and how many bytes it takes. -/
inductive PopTurn (S W R : Nat) : SpscPop α → SpscPop α → Nat → Prop
  | idle : PopTurn S W R .idle .idle 0
  | entered {dst : Bool} {size tmp : Int} : PopTurn S W R (.entered dst size) (.sized dst size tmp) 0
  | sized {dst : Bool} {k : Nat} {tmp : Int} : PopTurn S W R (.sized dst k tmp)
    (if dst then .copy tmp (min (W - R) k : Nat) else .store none (min (W - R) k : Nat)) 0
  | copy {out : List (Option α)} {tmp count : Int} : PopTurn S W R (.copy tmp count) (.store (some out) count) 0
  | copyMore {out : List (Option α)} {tmp count : Int} : PopTurn S W R (.copy tmp count) (.copyRest out tmp count) 0
  | copyRest {out out' : List (Option α)} {tmp count : Int} :
    PopTurn S W R (.copyRest out tmp count) (.store (some out') count) 0
  | store {out : Option (List (Option α))} {n : Nat} : PopTurn S W R (.store out n) .idle n
  | clear : PopTurn S W R .clear (.clearStore (W % S : Nat)) 0
  | clearStore {n : Nat} (hn : n < S) : PopTurn S W R (.clearStore ((R + n) % S : Nat)) .idle n

section
variable {R : Nat} {r r' : RingBuffer α} {pushed : List α} {p p' : SpscPush α} {c c' : SpscPop α}

theorem pushStep_turn (h : Published S r pushed R) (hp : p.Ok S r.buffer pushed.length R)
    (hstep : pushStep r p = some (r', p')) : PushTurn S pushed.length R p p' p.accepted := by
  cases p with
  | idle =>
    obtain ⟨rfl, rfl⟩ := Prod.mk.inj (Option.some.inj hstep)
    exact .idle
  | entered src =>
    simp only [pushStep, Option.bind_eq_bind, Option.bind_eq_some_iff] at hstep
    obtain ⟨tmp, -, hr⟩ := hstep
    obtain ⟨rfl, rfl⟩ := Prod.mk.inj (Option.some.inj hr)
    exact .entered
  | sized src tmp =>
    rw [pushStep_sized h hp.1] at hstep
    obtain ⟨rfl, rfl⟩ := Prod.mk.inj (Option.some.inj hstep)
    exact .sized
  | copy src tmp count =>
    simp only [pushStep] at hstep
    split at hstep <;> simp only [Option.bind_eq_bind, Option.bind_eq_some_iff] at hstep <;>
      obtain ⟨buffer, -, hr⟩ := hstep <;> obtain ⟨-, rfl⟩ := Prod.mk.inj (Option.some.inj hr)
    · exact .copy
    · exact .copyMore
  | copyRest src tmp count =>
    simp only [pushStep, Option.bind_eq_bind, Option.bind_eq_some_iff] at hstep
    obtain ⟨buffer, -, hr⟩ := hstep
    obtain ⟨-, rfl⟩ := Prod.mk.inj (Option.some.inj hr)
    exact .copyRest
  | store src count =>
    simp only [pushStep, Option.bind_eq_bind, Option.bind_eq_some_iff] at hstep
    obtain ⟨sum, -, write, -, hr⟩ := hstep
    obtain ⟨-, rfl⟩ := Prod.mk.inj (Option.some.inj hr)
    exact .store

theorem popStep_turn (h : Published S r pushed R) (hc : c.Ok S pushed R)
    (hstep : popStep r c = some (r', c')) : PopTurn S pushed.length R c c' (c.taken r).length := by
  cases c with
  | idle =>
    obtain ⟨rfl, rfl⟩ := Prod.mk.inj (Option.some.inj hstep)
    exact .idle
  | entered dst size =>
    simp only [popStep, Option.bind_eq_bind, Option.bind_eq_some_iff] at hstep
    obtain ⟨tmp, -, hr⟩ := hstep
    obtain ⟨rfl, rfl⟩ := Prod.mk.inj (Option.some.inj hr)
    exact .entered
  | sized dst size tmp =>
    obtain ⟨k, rfl, hk, -⟩ := hc
    rw [popStep_sized h hk] at hstep
    obtain ⟨rfl, rfl⟩ := Prod.mk.inj (Option.some.inj hstep)
    exact .sized
  | copy tmp count =>
    simp only [popStep] at hstep
    split at hstep <;> simp only [Option.bind_eq_bind, Option.bind_eq_some_iff] at hstep <;>
      obtain ⟨out, -, hr⟩ := hstep <;> obtain ⟨-, rfl⟩ := Prod.mk.inj (Option.some.inj hr)
    · exact .copy
    · exact .copyMore
  | copyRest out tmp count =>
    simp only [popStep, Option.bind_eq_bind, Option.bind_eq_some_iff] at hstep
    obtain ⟨rest, -, hr⟩ := hstep
    obtain ⟨-, rfl⟩ := Prod.mk.inj (Option.some.inj hr)
    exact .copyRest
  | store out count =>
    obtain ⟨n, rfl, hn, hout⟩ := hc
    simp only [popStep, Option.bind_eq_bind, Option.bind_eq_some_iff] at hstep
    obtain ⟨sum, -, read, -, hr⟩ := hstep
    obtain ⟨-, rfl⟩ := Prod.mk.inj (Option.some.inj hr)
    have htaken : ((SpscPop.store out n).taken r).length = n := by
      cases out with
      | some xs => simp only [SpscPop.taken, hout xs rfl, List.length_map, List.length_take, List.length_drop]; omega
      | none =>
        simp only [SpscPop.taken, h.copyOut hn, Option.getD_some, List.length_map, List.length_take,
          List.length_drop]
        omega
    rw [htaken]
    exact .store
  | clear =>
    obtain ⟨rfl, rfl⟩ := Prod.mk.inj (Option.some.inj hstep)
    rw [h.write]
    exact .clear
  | clearStore write =>
    obtain ⟨n, hn, rfl⟩ := hc
    obtain ⟨-, rfl⟩ := Prod.mk.inj (Option.some.inj hstep)
    have hlt := h.lt
    have hdist : circDist r.size r.read ((R + n) % S : Nat) = n := by
      rw [h.size, h.read, circDist_mod (by omega) (by omega)]
      omega
    have htaken : ((SpscPop.clearStore ((R + n) % S : Nat)).taken r).length = n := by
      simp only [SpscPop.taken, hdist, h.copyOut hn, Option.getD_some, List.length_map, List.length_take,
        List.length_drop]
      omega
    rw [htaken]
    exact .clearStore (by omega)

end

/-- **Whole units stay whole**, and a push that fits is never cut. -/
theorem RingSpsc.Whole.step {g : Nat} (h : s.Whole g S) (hinv : s.Inv S) (hstep : SpscStep s a t)
    (ha : a.Whole g S s) : t.Whole g S := by
  obtain ⟨ring, producer, consumer, pushed, popped⟩ := s
  obtain ⟨hpushed, hpopped, hfits, hwhole⟩ := h
  obtain ⟨hpub, hp, hc, hord⟩ := hinv
  have hle := hpub.le
  have hlt := hpub.lt
  cases hstep with
  | push hidle => exact ⟨hpushed, hpopped, ha, hwhole⟩
  | @pop dst size hidle => exact ⟨hpushed, hpopped, hfits, Int.natCast_dvd_natCast.2 ha⟩
  | clear hidle => exact ⟨hpushed, hpopped, hfits, trivial⟩
  | @producer r p hstep =>
    have hturn := pushStep_turn hpub hp hstep
    dsimp only at *
    generalize hxs : producer.accepted = xs at hturn
    cases hturn with
    | idle => exact ⟨by rwa [List.append_nil], hpopped, trivial, hwhole⟩
    | entered => exact ⟨by rwa [List.append_nil], hpopped, by rwa [List.append_nil], hwhole⟩
    | sized => exact ⟨by rwa [List.append_nil], hpopped, ⟨hfits.1, by have := hfits.2; omega⟩, hwhole⟩
    | copy => exact ⟨by rwa [List.append_nil], hpopped, hfits, hwhole⟩
    | copyMore => exact ⟨by rwa [List.append_nil], hpopped, hfits, hwhole⟩
    | copyRest => exact ⟨by rwa [List.append_nil], hpopped, hfits, hwhole⟩
    | @store src count =>
      obtain ⟨hsrc, rfl⟩ := hfits
      refine ⟨?_, hpopped, trivial, hwhole⟩
      simp only [Int.toNat_natCast, List.take_length, List.length_append]
      exact dvd_add hpushed hsrc
  | @consumer r c hstep =>
    have hturn := popStep_turn hpub hc hstep
    have hmono := hfits.mono (Nat.le_add_right _ (consumer.taken ring).length)
    have hlen : (popped ++ consumer.taken ring).length = popped.length + (consumer.taken ring).length :=
      List.length_append
    dsimp only at *
    suffices hkey : g ∣ popped.length + (consumer.taken ring).length ∧
        c.Whole g S (popped.length + (consumer.taken ring).length) by
      exact ⟨hpushed, by rw [hlen]; exact hkey.1, by rwa [hlen], by rw [hlen]; exact hkey.2⟩
    generalize (consumer.taken ring).length = n at hturn
    cases hturn with
    | idle => exact ⟨hpopped, trivial⟩
    | entered => exact ⟨hpopped, hwhole⟩
    | @sized dst k tmp =>
      -- the count is the number of stored bytes or the number asked for
      have hmin : g ∣ min (pushed.length - popped.length) k := by
        rcases Nat.le_total (pushed.length - popped.length) k with h1 | h1
        · rw [Nat.min_eq_left h1]
          exact Nat.dvd_sub hpushed hpopped
        · rw [Nat.min_eq_right h1]
          exact Int.natCast_dvd_natCast.1 hwhole
      refine ⟨hpopped, ?_⟩
      cases dst <;> exact Int.natCast_dvd_natCast.2 hmin
    | copy => exact ⟨hpopped, hwhole⟩
    | copyMore => exact ⟨hpopped, hwhole⟩
    | copyRest => exact ⟨hpopped, hwhole⟩
    | store => exact ⟨dvd_add hpopped (Int.natCast_dvd_natCast.1 hwhole), trivial⟩
    | clear =>
      refine ⟨hpopped, ?_⟩
      intro n hn hwrite
      have hmod : pushed.length % S = (popped.length + n) % S := Int.ofNat.inj hwrite
      have heq : popped.length + n = pushed.length := by
        rcases Nat.lt_trichotomy (popped.length + n) pushed.length with h1 | h1 | h1
        · exact absurd hmod.symm (mod_ne h1 (by omega))
        · exact h1
        · exact absurd hmod (mod_ne h1 (by omega))
      rw [show n = pushed.length - popped.length by omega]
      exact Nat.dvd_sub hpushed hpopped
    | clearStore hn => exact ⟨dvd_add hpopped (hwhole _ hn rfl), trivial⟩

variable {ring r : RingBuffer α} {p p' : SpscPush α} {c c' : SpscPop α} {pushed : List α} {popped : List (Option α)}

theorem SpscStep.producer_inside (h : pushStep ring p = some (r, p')) (ha : p.accepted = []) :
    SpscStep ⟨ring, p, c, pushed, popped⟩ .producer ⟨r, p', c, pushed, popped⟩ := by
  have := SpscStep.producer (s := ⟨ring, p, c, pushed, popped⟩) h
  dsimp only at this
  rwa [ha, List.append_nil] at this

theorem SpscStep.consumer_inside (h : popStep ring c = some (r, c')) (ha : c.taken ring = []) :
    SpscStep ⟨ring, p, c, pushed, popped⟩ .consumer ⟨r, p, c', pushed, popped⟩ := by
  have := SpscStep.consumer (s := ⟨ring, p, c, pushed, popped⟩) h
  dsimp only at this
  rwa [ha, List.append_nil] at this

/-- **Uninterrupted, the statements of a push are `ring_buffer_push`.** -/
theorem ringBufferPush_alone {src : { l : List α // l.length < 4294967296 }} {n : Int}
    (hidle : s.producer = .idle) (hpush : ringBufferPush s.ring src = some (n, r)) :
    ∃ t, Reach SpscStep s t ∧ t.ring = r ∧ t.producer = .idle ∧ t.consumer = s.consumer := by
  simp only [ringBufferPush, Option.bind_eq_bind, Option.bind_eq_some_iff] at hpush
  obtain ⟨tmp, htmp, count, hcount, buffer, hcopy, sum, hsum, write, hwrite, hr⟩ := hpush
  obtain ⟨-, rfl⟩ := Prod.mk.inj (Option.some.inj hr)
  generalize hc : (if toU32 count > ((src : List α).length : Int) then toI32 (src : List α).length else count) = cut
    at hcopy hsum
  obtain ⟨ring, producer, consumer, pushed, popped⟩ := s
  dsimp only at hidle htmp hcount hcopy hsum hwrite ⊢
  subst hidle
  have hsized : Reach SpscStep ⟨ring, .idle, consumer, pushed, popped⟩
      ⟨ring, .copy src tmp cut, consumer, pushed, popped⟩ := by
    have h1 : pushStep ring (.entered src) = some (ring, .sized src tmp) := by simp [pushStep, htmp]
    have h2 : pushStep ring (.sized src tmp) = some (ring, .copy src tmp cut) := by simp [pushStep, hcount, hc]
    exact (((Reach.refl _).tail (.push rfl)).tail (.producer_inside h1 rfl)).tail (.producer_inside h2 rfl)
  have hcopied : Reach SpscStep ⟨ring, .copy src tmp cut, consumer, pushed, popped⟩
      ⟨{ ring with buffer }, .store src cut, consumer, pushed, popped⟩ := by
    unfold ringBufferCopyIn at hcopy
    split at hcopy
    case isTrue hone =>
      have h1 : pushStep ring (.copy src tmp cut) = some ({ ring with buffer }, .store src cut) := by
        simp only [pushStep, if_pos hone, hcopy]; rfl
      exact (Reach.refl _).tail (.producer_inside h1 rfl)
    case isFalse htwo =>
      simp only [Option.bind_eq_bind, Option.bind_eq_some_iff] at hcopy
      obtain ⟨first, hfirst, hrest⟩ := hcopy
      have h1 : pushStep ring (.copy src tmp cut) = some ({ ring with buffer := first }, .copyRest src tmp cut) := by
        simp only [pushStep, if_neg htwo, hfirst]; rfl
      have h2 : pushStep { ring with buffer := first } (.copyRest src tmp cut) =
          some ({ ring with buffer }, .store src cut) := by
        simp only [pushStep, hrest]; rfl
      exact ((Reach.refl _).tail (.producer_inside h1 rfl)).tail (.producer_inside h2 rfl)
  have hstored : pushStep { ring with buffer } (.store src cut) = some ({ ring with write, buffer }, .idle) := by
    simp [pushStep, hsum, hwrite]
  obtain ⟨as, has⟩ := hsized
  obtain ⟨bs, hbs⟩ := hcopied
  exact ⟨_, Reach.tail ⟨_, has.append hbs⟩ (.producer hstored), rfl, rfl, rfl⟩

/-- What a pop that is defined went through. -/
theorem ringBufferPop_inv {dst : Bool} {size n : Int} {out : List (Option α)}
    (h : ringBufferPop ring dst size = some (out, n, r)) : ∃ tmp count sum read,
      int32? (ring.size - ring.read) = some tmp ∧ ringBufferGetCount ring = some count ∧
      int32? (ring.read + (if toU32 count > size then toI32 size else count)) = some sum ∧
      intMod? sum ring.size = some read ∧ r = { ring with read } ∧
      (dst = true → ringBufferCopyOut ring.buffer ring.read tmp
        (if toU32 count > size then toI32 size else count) = some out) := by
  cases dst <;>
    simp only [ringBufferPop, Option.bind_eq_bind, Option.bind_eq_some_iff, if_true, Bool.false_eq_true, if_false,
      Option.some.injEq, Prod.mk.injEq] at h
  · obtain ⟨tmp, h1, count, h2, _, -, sum, h4, read, h5, -, -, rfl⟩ := h
    exact ⟨tmp, count, sum, read, h1, h2, h4, h5, rfl, by intro h; cases h⟩
  · obtain ⟨tmp, h1, count, h2, _, h3, sum, h4, read, h5, rfl, -, rfl⟩ := h
    exact ⟨tmp, count, sum, read, h1, h2, h4, h5, rfl, fun _ => h3⟩

/-- **Uninterrupted, the statements of a pop are `ring_buffer_pop`.** -/
theorem ringBufferPop_alone {dst : Bool} {size : Fin 4294967296} {out : List (Option α)} {n : Int}
    (hidle : s.consumer = .idle)
    (hpop : ringBufferPop s.ring dst (size : Nat) = some (out, n, r)) :
    ∃ t, Reach SpscStep s t ∧ t.ring = r ∧ t.consumer = .idle ∧ t.producer = s.producer ∧
      (dst = true → t.popped = s.popped ++ out) := by
  obtain ⟨tmp, count, sum, read, htmp, hcount, hsum, hread, rfl, hcopy⟩ := ringBufferPop_inv hpop
  generalize hc : (if toU32 count > ((size : Nat) : Int) then toI32 (size : Nat) else count) = cut at hcopy hsum
  obtain ⟨ring, producer, consumer, pushed, popped⟩ := s
  dsimp only at hidle htmp hcount hcopy hsum hread ⊢
  subst hidle
  have hsized : Reach SpscStep ⟨ring, producer, .idle, pushed, popped⟩
      ⟨ring, producer, if dst then .copy tmp cut else .store none cut, pushed, popped⟩ := by
    have h1 : popStep ring (.entered dst (size : Nat)) = some (ring, .sized dst (size : Nat) tmp) := by
      simp [popStep, htmp]
    have h2 : popStep ring (.sized dst (size : Nat) tmp) =
        some (ring, if dst then .copy tmp cut else .store none cut) := by
      simp [popStep, hcount, hc]
    exact (((Reach.refl _).tail (.pop rfl)).tail (.consumer_inside h1 rfl)).tail (.consumer_inside h2 rfl)
  have hstored : ∀ o, popStep ring (.store o cut) = some ({ ring with read }, .idle) := by
    intro o
    simp [popStep, hsum, hread]
  obtain ⟨as, has⟩ := hsized
  cases dst with
  | false =>
    exact ⟨_, Reach.tail ⟨_, has⟩ (.consumer (hstored none)), rfl, rfl, rfl, by intro h; cases h⟩
  | true =>
    have hcopied : Reach SpscStep ⟨ring, producer, .copy tmp cut, pushed, popped⟩
        ⟨ring, producer, .store (some out) cut, pushed, popped⟩ := by
      replace hcopy := hcopy rfl
      unfold ringBufferCopyOut at hcopy
      split at hcopy
      case isTrue hone =>
        have h1 : popStep ring (.copy tmp cut) = some (ring, .store (some out) cut) := by
          simp only [popStep, if_pos hone, hcopy]; rfl
        exact (Reach.refl _).tail (.consumer_inside h1 rfl)
      case isFalse htwo =>
        simp only [Option.bind_eq_bind, Option.bind_eq_some_iff] at hcopy
        obtain ⟨first, hfirst, rest, hrest, hout⟩ := hcopy
        obtain rfl := Option.some.inj hout
        have h1 : popStep ring (.copy tmp cut) = some (ring, .copyRest first tmp cut) := by
          simp only [popStep, if_neg htwo, hfirst]; rfl
        have h2 : popStep ring (.copyRest first tmp cut) = some (ring, .store (some (first ++ rest)) cut) := by
          simp only [popStep, hrest]; rfl
        exact ((Reach.refl _).tail (.consumer_inside h1 rfl)).tail (.consumer_inside h2 rfl)
    obtain ⟨bs, hbs⟩ := hcopied
    exact ⟨_, Reach.tail ⟨_, has.append hbs⟩ (.consumer (hstored _)), rfl, rfl, rfl, fun _ => rfl⟩

end

theorem ringBufferInit_published {size : Nat} (h : 2 * (size + 1) ≤ 2147483648) :
    ∃ r : RingBuffer α, ringBufferInit size = some r ∧ Published (size + 1) r [] 0 := by
  obtain ⟨r, hinit, hvalid, hsize, hcells⟩ := @ringBufferInit_spec α _ h
  refine ⟨r, hinit, ?_⟩
  simp only [ringBufferInit] at hinit
  split at hinit
  · obtain rfl := Option.some.inj hinit
    dsimp only at hsize
    refine ⟨h, by push_cast; exact hsize, ?_, by simp, by simp, Nat.le_refl _, by simp, ?_⟩
    · simp only [List.length_replicate, hsize]; omega
    · intro k _ hk
      exact absurd hk (Nat.not_lt_zero k)
  · cases hinit

/-- **The ring needs no lock** between one producer and one consumer. -/
theorem ringBufferSpsc_safe (size : Nat) (h : 2 * (size + 1) ≤ 2147483648) :
    ∃ r : RingBuffer α, ringBufferInit size = some r ∧
      ∀ t, Reach SpscStep (RingSpsc.started r) t → t.Safe := by
  obtain ⟨r, hinit, hpub⟩ := @ringBufferInit_published α size h
  refine ⟨r, hinit, ?_⟩
  intro t ht
  exact (ht.invariant (I := RingSpsc.Inv (size + 1)) (fun _ _ _ hi hs => hi.step hs)
    ⟨hpub, trivial, trivial, List.prefix_rfl⟩).safe

theorem ringBufferSpsc_safe_four : ∃ r : RingBuffer Nat, ringBufferInit (4 : Nat) = some r ∧
    ∀ t, Reach SpscStep (RingSpsc.started r) t → t.Safe :=
  ringBufferSpsc_safe 4 (by decide)

/-- A capacity of `2^32 - 1` gives a block of no cells, and the first push writes behind it. -/
theorem ringBufferSpsc_no_cells : ¬ ∀ size : Fin 4294967296, ∀ r : RingBuffer Nat,
    ringBufferInit (size : Nat) = some r → ∀ t, Reach SpscStep (RingSpsc.started r) t → t.Safe := by
  intro hall
  have hinit : ringBufferInit ((4294967295 : Fin 4294967296) : Nat) = some (⟨0, 0, 0, []⟩ : RingBuffer Nat) := by
    simp [ringBufferInit, toU32, toI32]
  have h1 : pushStep (⟨0, 0, 0, []⟩ : RingBuffer Nat) (.entered [7]) = some (⟨0, 0, 0, []⟩, .sized [7] 0) := rfl
  have h2 : pushStep (⟨0, 0, 0, []⟩ : RingBuffer Nat) (.sized [7] 0) = some (⟨0, 0, 0, []⟩, .copy [7] 0 1) := rfl
  have h3 : pushStep (⟨0, 0, 0, []⟩ : RingBuffer Nat) (.copy [7] 0 1) =
    some (⟨0, 0, 0, []⟩, .copyRest [7] 0 1) := rfl
  have hrun : Reach SpscStep (RingSpsc.started (⟨0, 0, 0, []⟩ : RingBuffer Nat))
      ⟨⟨0, 0, 0, []⟩, .copyRest [7] 0 1, .idle, [], []⟩ :=
    ((((Reach.refl _).tail (@SpscStep.push _ _ ⟨[7], by simp⟩ rfl)).tail (.producer h1)).tail
      (.producer h2)).tail (.producer h3)
  have hdef := (hall _ _ hinit _ hrun).push_defined
  have hnone : pushStep (⟨0, 0, 0, []⟩ : RingBuffer Nat) (.copyRest [7] 0 1) = none := rfl
  rw [hnone] at hdef
  cases hdef

end AudioPlayer

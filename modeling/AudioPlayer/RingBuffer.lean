import Mathlib
import AudioPlayer.Lib.CInt
import AudioPlayer.Lib.Fifo

/-!
# The ring buffer (`utils/ring_buffer.c`)

One cell of the block always stays free, so a ring of `size` cells holds `size - 1` bytes. Cells are
`Option α`: `none` is a byte `malloc` returned and nobody has written. Every function is `Option`-valued
through the `int` arithmetic and the copies it does; `none` is undefined behaviour.

`RingBuffer.contents` is the byte sequence a ring stands for. `ringBufferPush_spec` and
`ringBufferPop_spec` are what the callers use: below `2^31` every call is defined, a push appends what
fits and a pop takes from the front. `ringBuffer_behaves` puts them together: whatever is called, the ring
is a queue of `size - 1` places.
-/

namespace AudioPlayer
open Lib

variable {α : Type}

/-- `ring_buffer_t` -/
structure RingBuffer (α : Type) where
  read   : Int
  write  : Int
  size   : Int
  buffer : List (Option α)
deriving DecidableEq, Repr

/-- `ring_buffer_init` (`ring_buffer.c:5-17`): `size + 1` is computed unsigned and stored in an `int`,
and `malloc` gets that `int`. A negative one is a request no allocator can serve (`:12-14`). -/
def ringBufferInit (size : Int) : Option (RingBuffer α) :=
  let n := toI32 (toU32 (size + 1))
  if 0 ≤ n then some ⟨0, 0, n, List.replicate n.toNat none⟩ else none

/-- `ring_buffer_get_count` (`ring_buffer.c:80-88`). -/
def ringBufferGetCount (r : RingBuffer α) : Option Int := circCount? r.size r.read r.write

/-- `ring_buffer_get_free_count` (`ring_buffer.c:90-98`). -/
def ringBufferGetFreeCount (r : RingBuffer α) : Option Int := circFree? r.size r.read r.write

/-- The copy of a push (`ring_buffer.c:37-43`), in one piece or around the end of the block. -/
def ringBufferCopyIn (buffer : List (Option α)) (write tmp : Int) (src : List (Option α)) (count : Int) :
    Option (List (Option α)) :=
  if tmp ≥ count then memcpy? buffer write src count
  else do
    let buffer ← memcpy? buffer write src tmp
    memcpy? buffer 0 (src.drop tmp.toNat) (count - tmp)

/-- The copy of a pop (`ring_buffer.c:60-66`). -/
def ringBufferCopyOut (buffer : List (Option α)) (read tmp count : Int) : Option (List (Option α)) :=
  if tmp ≥ count then memread? buffer read count
  else do
    let a ← memread? buffer read tmp
    let b ← memread? buffer 0 (count - tmp)
    some (a ++ b)

/-- `ring_buffer_push` (`ring_buffer.c:29-48`) of the `src.length` bytes `src`: how many it took. -/
def ringBufferPush (r : RingBuffer α) (src : List α) : Option (Int × RingBuffer α) := do
  let size : Int := src.length
  let tmp ← int32? (r.size - r.write)
  let count ← ringBufferGetFreeCount r
  let count := if toU32 count > size then toI32 size else count
  let buffer ← ringBufferCopyIn r.buffer r.write tmp (src.map some) count
  let write ← intMod? (← int32? (r.write + count)) r.size
  some (toU32 count, { r with write, buffer })

/-- `ring_buffer_pop` (`ring_buffer.c:50-72`) of at most `size` bytes: the bytes copied out (none when the
destination is `NULL`) and how many there were. -/
def ringBufferPop (r : RingBuffer α) (dst : Bool) (size : Int) :
    Option (List (Option α) × Int × RingBuffer α) := do
  let tmp ← int32? (r.size - r.read)
  let count ← ringBufferGetCount r
  let count := if toU32 count > size then toI32 size else count
  let out ← if dst then ringBufferCopyOut r.buffer r.read tmp count else some []
  let read ← intMod? (← int32? (r.read + count)) r.size
  some (out, toU32 count, { r with read })

/-- `ring_buffer_clear` (`ring_buffer.c:74-78`). -/
def ringBufferClear (r : RingBuffer α) : RingBuffer α := { r with read := r.write }

/-! ## Well-formed rings and what they hold -/

/-- The positions lie in the block and no `int` sum of them can overflow. -/
structure RingBuffer.Valid (r : RingBuffer α) : Prop where
  circ      : Circ r.size r.read r.write
  length_eq : (r.buffer.length : Int) = r.size

/-- How many bytes are stored. -/
def RingBuffer.count (r : RingBuffer α) : Nat := circDist r.size r.read r.write

/-- The stored cells, oldest first. -/
def RingBuffer.cells (r : RingBuffer α) : List (Option α) :=
  if r.read ≤ r.write then (r.buffer.drop r.read.toNat).take (r.write - r.read).toNat
  else r.buffer.drop r.read.toNat ++ r.buffer.take r.write.toNat

namespace RingBuffer.Valid
variable {r : RingBuffer α}

theorem count_lt (h : r.Valid) : (r.count : Int) < r.size := h.circ.dist_lt

theorem length_cells (h : r.Valid) : r.cells.length = r.count := by
  obtain ⟨⟨_, _, _, _, _⟩, _⟩ := h
  unfold RingBuffer.cells RingBuffer.count circDist
  split <;> simp <;> omega

theorem getCount (h : r.Valid) : ringBufferGetCount r = some (r.count : Int) := h.circ.count

theorem getFreeCount (h : r.Valid) : ringBufferGetFreeCount r = some (r.size - 1 - r.count) := h.circ.free

end RingBuffer.Valid

/-- How many bytes a push takes at most. -/
def RingBuffer.free (r : RingBuffer α) : Nat := (r.size - 1 - r.count).toNat

/-- A freshly made ring of `n` bytes is well formed and holds nothing. -/
theorem ringBufferInit_spec {n : Nat} (hn : 2 * (n + 1) ≤ 2147483648) :
    ∃ r : RingBuffer α, ringBufferInit n = some r ∧ r.Valid ∧ r.size = n + 1 ∧ r.cells = [] := by
  refine ⟨⟨0, 0, n + 1, List.replicate (n + 1) none⟩, ?_, ⟨⟨?_, ?_, ?_, ?_, ?_⟩, ?_⟩, rfl, ?_⟩
  · simp only [ringBufferInit]
    rw [toU32_eq (by omega) (by omega), toI32_eq (by omega) (by omega), if_pos (by omega)]
    rfl
  all_goals first | (simp; done) | (dsimp only; omega) | simp [RingBuffer.cells]

/-! ## Push -/

/-- The block after `xs` is written at `W`, going on at the front where the block ends. -/
def ringWrite (B : List (Option α)) (W : Nat) (xs : List (Option α)) : List (Option α) :=
  if W + xs.length ≤ B.length then B.take W ++ xs ++ B.drop (W + xs.length)
  else xs.drop (B.length - W) ++ (B.take W ++ xs.take (B.length - W)).drop (W + xs.length - B.length)

section
variable {B xs : List (Option α)} {R W : Nat}

theorem length_ringWrite (hW : W ≤ B.length) (hx : xs.length ≤ B.length) :
    (ringWrite B W xs).length = B.length := by
  unfold ringWrite; split <;> simp <;> omega

theorem cells_nat {S : Int} : RingBuffer.cells ⟨(R : Int), (W : Int), S, B⟩ =
    if R ≤ W then (B.drop R).take (W - R) else B.drop R ++ B.take W := by
  unfold RingBuffer.cells
  simp only [Int.ofNat_le, Int.toNat_natCast, show ((W : Int) - R).toNat = W - R by omega]

/-- Writing behind the read position, up to the end of the block and not over it. -/
theorem cells_ringWrite {S : Int} (hR : R < B.length) (hW : W < B.length)
    (hfit : xs.length < if R ≤ W then B.length + R - W else R - W) :
    RingBuffer.cells ⟨(R : Int), ((W + xs.length) % B.length : Nat), S, ringWrite B W xs⟩ =
      RingBuffer.cells ⟨(R : Int), (W : Int), S, B⟩ ++ xs := by
  simp only [cells_nat]
  unfold ringWrite
  split at hfit
  case isTrue hRW =>
    rw [if_pos hRW]
    by_cases hend : W + xs.length < B.length
    · rw [Nat.mod_eq_of_lt hend, if_pos (by omega), if_pos (by omega)]
      exact drop_take_over hRW (by omega)
    · -- the write ends at or goes on over the end of the block
      have hmod : (W + xs.length) % B.length = W + xs.length - B.length := by
        rw [Nat.mod_eq_sub_mod (by omega), Nat.mod_eq_of_lt (by omega)]
      rw [hmod, if_neg (by omega)]
      split
      · have hlen : W + xs.length = B.length := by omega
        rw [List.append_assoc, hlen, List.drop_length, List.append_nil, Nat.sub_self, List.take_zero,
          List.append_nil]
        exact drop_over hRW (by omega)
      · have hlen : (xs.drop (B.length - W)).length = W + xs.length - B.length := by simp; omega
        rw [← hlen, drop_overwritten (by omega), List.take_left' rfl, drop_over hRW (by omega),
          List.append_assoc, List.take_append_drop]
  case isFalse hRW =>
    rw [Nat.mod_eq_of_lt (by omega), if_neg (by omega), if_neg hRW, if_pos (by omega),
      drop_after (by omega) (by omega), take_upTo (by omega), List.append_assoc]

end

section
variable {r : RingBuffer α}

/-- The positions of a well-formed ring as natural numbers. -/
theorem RingBuffer.Valid.nat (h : r.Valid) : ∃ R W S : Nat, ∃ B : List (Option α),
    r = ⟨R, W, S, B⟩ ∧ R < S ∧ W < S ∧ B.length = S ∧ 2 * S ≤ 2147483648 ∧
      r.count = if R ≤ W then W - R else S + W - R := by
  obtain ⟨⟨hr0, hrs, hw0, hws, hsmall⟩, hlen⟩ := h
  obtain ⟨R, W, S, B⟩ := r
  dsimp only at hr0 hrs hw0 hws hlen hsmall
  lift R to Nat using hr0
  lift W to Nat using hw0
  lift S to Nat using by omega
  refine ⟨R, W, S, B, rfl, by omega, by omega, by omega, by omega, ?_⟩
  unfold RingBuffer.count circDist
  dsimp only
  split <;> split <;> omega

/-- A count is cut down to what is asked for (`ring_buffer.c:34-35`, `:55-56`). -/
theorem count_min {c k : Nat} (hc : c < 2147483648) (hk : k < 4294967296) :
    (if toU32 c > (k : Int) then toI32 k else (c : Int)) = (min c k : Nat) := by
  rw [toU32_eq (by omega) (by omega)]
  split
  · rw [toI32_eq (by omega) (by omega)]; omega
  · omega

theorem ringBufferCopyIn_eq {B : List (Option α)} {W : Nat} {src : List (Option α)} {k : Nat}
    (hW : W < B.length) (hk : k ≤ src.length) (hkB : k ≤ B.length) :
    ringBufferCopyIn B W ((B.length : Int) - W) src k = some (ringWrite B W (src.take k)) := by
  have hlen : (src.take k).length = k := by simp; omega
  unfold ringBufferCopyIn ringWrite
  rw [hlen]
  split
  · rw [memcpy?_eq (by omega) (by omega), if_pos (by omega)]
  · have hfirst : (B.take W ++ src.take (B.length - W) ++ B.drop (W + (B.length - W))).length = B.length := by
      simp; omega
    have h0 : memcpy? (B.take W ++ src.take (B.length - W) ++ B.drop (W + (B.length - W))) (0 : Nat)
        (src.drop (B.length - W)) (W + k - B.length : Nat) = _ := memcpy?_eq (by omega) (by simp; omega)
    rw [show ((B.length : Int) - W) = (B.length - W : Nat) by omega, memcpy?_eq (by omega) (by omega),
      if_neg (by omega), show ((k : Int) - (B.length - W : Nat)) = (W + k - B.length : Nat) by omega]
    refine h0.trans ?_
    have htail : (src.take k).drop (B.length - W) = (src.drop (B.length - W)).take (W + k - B.length) := by
      rw [List.drop_take]; congr 1; omega
    rw [htail, List.take_take, Nat.min_eq_left (by omega : B.length - W ≤ k),
      List.drop_eq_nil_of_le (by omega : B.length ≤ W + (B.length - W))]
    simp

theorem ringBufferCopyOut_eq {B : List (Option α)} {R W : Nat} {S : Int} {k : Nat}
    (hR : R < B.length) (hW : W < B.length) (hk : k ≤ if R ≤ W then W - R else B.length + W - R) :
    ringBufferCopyOut B R ((B.length : Int) - R) k =
      some ((RingBuffer.cells ⟨(R : Int), (W : Int), S, B⟩).take k) := by
  rw [cells_nat]
  unfold ringBufferCopyOut
  split at hk
  case isTrue h =>
    rw [if_pos (by omega), if_pos h, memread?_eq (by omega), List.take_take, Nat.min_eq_left hk]
  case isFalse h =>
    rw [if_neg h]
    split
    · rw [memread?_eq (by omega), List.take_append_of_le_length (by simp; omega)]
    · have h0 : memread? B (0 : Nat) (R + k - B.length : Nat) = _ := memread?_eq (by omega)
      rw [show ((B.length : Int) - R) = (B.length - R : Nat) by omega, memread?_eq (by omega),
        show ((k : Int) - (B.length - R : Nat)) = (R + k - B.length : Nat) by omega]
      simp only [Option.bind_eq_bind, Option.bind_some]
      rw [show (0 : Int) = (0 : Nat) from rfl, h0, Option.bind_some, List.drop_zero,
        List.take_append, List.take_take, List.length_drop,
        List.take_of_length_le (by simp : (B.drop R).length ≤ B.length - R),
        List.take_of_length_le (by simp; omega : (B.drop R).length ≤ k),
        Nat.min_eq_left (by omega : k - (B.length - R) ≤ W)]
      congr 3; omega

/-- What stays after `k` bytes are read. -/
theorem cells_read {B : List (Option α)} {R W : Nat} {S : Int} {k : Nat}
    (hR : R < B.length) (hW : W < B.length) (hk : k ≤ if R ≤ W then W - R else B.length + W - R) :
    RingBuffer.cells ⟨((R + k) % B.length : Nat), (W : Int), S, B⟩ =
      (RingBuffer.cells ⟨(R : Int), (W : Int), S, B⟩).drop k := by
  rw [cells_nat, cells_nat]
  split at hk
  case isTrue h =>
    rw [Nat.mod_eq_of_lt (by omega), if_pos (by omega), if_pos h, List.drop_take, List.drop_drop]
    congr 1; omega
  case isFalse h =>
    rw [if_neg h, List.drop_append, List.drop_drop, List.length_drop]
    by_cases hend : R + k < B.length
    · rw [Nat.mod_eq_of_lt hend, if_neg (by omega), Nat.sub_eq_zero_of_le (by omega), List.drop_zero]
    · -- only the front part is left
      have hmod : (R + k) % B.length = R + k - B.length := by
        rw [Nat.mod_eq_sub_mod (by omega), Nat.mod_eq_of_lt (by omega)]
      rw [hmod, if_pos (by omega), List.drop_eq_nil_of_le (by omega : B.length ≤ R + k), List.nil_append,
        List.drop_take]
      congr 2 <;> omega

/-- **Push**: what fits is appended, and nothing overflows. -/
theorem ringBufferPush_spec (h : r.Valid) {src : List α} (hsrc : src.length < 4294967296) :
    ∃ r', ringBufferPush r src = some (((min r.free src.length : Nat) : Int), r') ∧ r'.Valid ∧
      r'.size = r.size ∧ r'.cells = r.cells ++ (src.take (min r.free src.length)).map some := by
  have hfree := h.getFreeCount
  obtain ⟨R, W, S, B, rfl, hR, hW, rfl, hS, hcount⟩ := h.nat
  have hf : RingBuffer.free ⟨(R : Int), W, (B.length : Int), B⟩ =
      B.length - 1 - RingBuffer.count ⟨(R : Int), W, (B.length : Int), B⟩ := by
    unfold RingBuffer.free; dsimp only; omega
  dsimp only at hfree ⊢
  generalize RingBuffer.count ⟨(R : Int), W, (B.length : Int), B⟩ = c at *
  have hc : c < B.length := by split at hcount <;> omega
  rw [hf, show (B.length : Int) - 1 - c = (B.length - 1 - c : Nat) by omega] at *
  have hfit : min (B.length - 1 - c) src.length < if R ≤ W then B.length + R - W else R - W := by
    split at hcount <;> split <;> omega
  refine ⟨⟨R, ((W + min (B.length - 1 - c) src.length) % B.length : Nat), B.length,
    ringWrite B W ((src.take (min (B.length - 1 - c) src.length)).map some)⟩, ?_, ?_, rfl, ?_⟩
  · unfold ringBufferPush
    simp only [hfree, Option.bind_eq_bind, Option.bind_some]
    rw [int32?_eq (by omega) (by omega), Option.bind_some, count_min (by omega) (by omega)]
    generalize hk : min (B.length - 1 - c) src.length = k at *
    have hcopy : ringBufferCopyIn B W ((B.length : Int) - W) (src.map some) k = _ :=
      ringBufferCopyIn_eq hW (by simp; omega) (by omega)
    rw [hcopy, Option.bind_some, int32?_eq (by omega) (by omega), Option.bind_some,
      intMod?_eq (by omega) (by omega) (by omega), Option.bind_some, toU32_eq (by omega) (by omega),
      List.map_take]
    rfl
  · generalize hk : min (B.length - 1 - c) src.length = k at *
    have hx : ((src.take k).map some).length = k := by simp; omega
    have hmod := Nat.mod_lt (W + k) (show 0 < B.length by omega)
    exact ⟨⟨Int.natCast_nonneg _, Int.ofNat_lt.2 hR, Int.natCast_nonneg _, Int.ofNat_lt.2 hmod,
      by dsimp only; omega⟩, by rw [length_ringWrite (by omega) (by omega)]⟩
  · generalize hk : min (B.length - 1 - c) src.length = k at *
    have hx : ((src.take k).map some).length = k := by simp; omega
    have := cells_ringWrite (S := B.length) hR hW (hx.symm ▸ hfit)
    rwa [hx] at this

/-- **Pop**: at most `k` bytes are taken, from the front. -/
theorem ringBufferPop_spec (h : r.Valid) (dst : Bool) {k : Nat} (hk : k < 4294967296) :
    ∃ r', ringBufferPop r dst k =
        some (if dst then r.cells.take k else [], ((min k r.cells.length : Nat) : Int), r') ∧
      r'.Valid ∧ r'.size = r.size ∧ r'.cells = r.cells.drop k := by
  have hget := h.getCount
  rw [← h.length_cells] at hget
  have hlen := h.length_cells
  obtain ⟨R, W, S, B, rfl, hR, hW, rfl, hS, hcount⟩ := h.nat
  generalize hc : (RingBuffer.cells ⟨(R : Int), W, (B.length : Int), B⟩).length = c at *
  rw [hcount] at hlen
  have hfit : min c k ≤ if R ≤ W then W - R else B.length + W - R := by omega
  have hcB : c < B.length := by split at hlen <;> omega
  refine ⟨⟨((R + min c k) % B.length : Nat), W, B.length, B⟩, ?_, ?_, rfl, ?_⟩
  · unfold ringBufferPop
    simp only [hget, Option.bind_eq_bind, Option.bind_some]
    have hcopy := ringBufferCopyOut_eq (S := (B.length : Int)) hR hW hfit
    have htake : (RingBuffer.cells ⟨(R : Int), (W : Int), (B.length : Int), B⟩).take (min c k) =
        (RingBuffer.cells ⟨(R : Int), (W : Int), (B.length : Int), B⟩).take k := by
      rw [← hc, List.take_eq_take_iff]; omega
    rw [int32?_eq (by omega) (by omega), Option.bind_some, count_min (by omega) hk, hcopy, htake,
      Nat.min_comm k c]
    have hm : min c k ≤ c := Nat.min_le_left c k
    generalize min c k = m at *
    have hmod := intMod?_eq (a := (R : Int) + m) (b := B.length) (by omega) (by omega) (by omega)
    rw [toU32_eq (by omega) (by omega), int32?_eq (by omega) (by omega)]
    simp only [Option.bind_some, hmod]
    cases dst <;> rfl
  · have hmod := Nat.mod_lt (R + min c k) (show 0 < B.length by omega)
    exact ⟨⟨Int.natCast_nonneg _, Int.ofNat_lt.2 hmod, Int.natCast_nonneg _, Int.ofNat_lt.2 hW,
      by dsimp only; omega⟩, rfl⟩
  · rw [cells_read hR hW hfit, ← hc]
    simp only [List.drop_eq_drop_iff]
    omega

/-- A cleared ring holds nothing. -/
theorem ringBufferClear_spec (h : r.Valid) :
    (ringBufferClear r).Valid ∧ (ringBufferClear r).size = r.size ∧ (ringBufferClear r).cells = [] := by
  refine ⟨⟨⟨h.circ.write_nonneg, h.circ.write_lt, h.circ.write_nonneg, h.circ.write_lt, h.circ.small⟩,
    h.length_eq⟩, rfl, ?_⟩
  simp [ringBufferClear, RingBuffer.cells]

end

/-! ## One bounded queue -/

/-- A call on a ring; lengths and sizes are `uint32_t`. -/
inductive RingBufferCall (α : Type)
  | push (src : { l : List α // l.length < 4294967296 })
  | pop (dst : Bool) (size : Fin 4294967296)
  | clear

/-- From here on `r` answers as the queue `q` does: the two counts are those of `q` and make up `cap`, a push
stores what fits and reports how much, a pop delivers from the front (the same state is left whether or not
it has a destination), and no call leaves the block. -/
def RingBuffer.Behaves {cap : Nat} (q : Fifo α cap) (r : RingBuffer α) : List (RingBufferCall α) → Prop
  | [] => ∃ count free : Nat, ringBufferGetCount r = some (count : Int) ∧
      ringBufferGetFreeCount r = some (free : Int) ∧ count = q.items.length ∧ count + free = cap
  | .push src :: calls => ∃ r', ringBufferPush r src = some (((min q.free src.val.length : Nat) : Int), r') ∧
      r'.Behaves (q.pushPrefix src) calls
  | .pop dst size :: calls => ∃ r', ringBufferPop r true size =
        some ((q.pop size).1.map some, ((q.pop size).1.length : Int), r') ∧
      ringBufferPop r dst size =
        some (if dst then (q.pop size).1.map some else [], ((q.pop size).1.length : Int), r') ∧
      r'.Behaves (q.pop size).2 calls
  | .clear :: calls => (ringBufferClear r).Behaves (Fifo.empty : Fifo α cap) calls

section
variable {r : RingBuffer α}

/-- Without a destination a pop does the same to the ring. -/
theorem ringBufferPop_null {size n : Int} {out : List (Option α)} {r' : RingBuffer α}
    (h : ringBufferPop r true size = some (out, n, r')) : ringBufferPop r false size = some ([], n, r') := by
  simp only [ringBufferPop, Option.bind_eq_bind, Option.bind_eq_some_iff, if_true, Bool.false_eq_true,
    if_false, Option.some.injEq, Prod.mk.injEq] at h ⊢
  obtain ⟨tmp, h1, count, h2, out', -, sum, h4, read, h5, -, h6, h7⟩ := h
  exact ⟨tmp, h1, count, h2, [], rfl, sum, h4, read, h5, rfl, h6, h7⟩

/-- Induction on the calls: the cells of a well-formed ring are the items of the queue. -/
theorem RingBuffer.Valid.behaves {cap : Nat} {q : Fifo α cap} (h : r.Valid) (hq : r.cells = q.items.map some)
    (hcap : r.size = cap + 1) (calls : List (RingBufferCall α)) : r.Behaves q calls := by
  have hcount : r.count = q.items.length := by rw [← h.length_cells, hq, List.length_map]
  have hroom := q.length_add_free
  have hfree : r.free = q.free := by unfold RingBuffer.free; omega
  induction calls generalizing r q with
  | nil =>
    refine ⟨r.count, q.free, h.getCount, ?_, hcount, by omega⟩
    rw [h.getFreeCount]
    congr 1; omega
  | cons call calls ih =>
    have next : ∀ {r' : RingBuffer α} {q' : Fifo α cap}, r'.Valid → r'.size = r.size →
        r'.cells = q'.items.map some → r'.Behaves q' calls := by
      intro r' q' h' hsize hq'
      have hcount' : r'.count = q'.items.length := by rw [← h'.length_cells, hq', List.length_map]
      have hroom' := q'.length_add_free
      exact ih h' hq' (by omega) hcount' hroom' (by unfold RingBuffer.free; omega)
    cases call with
    | push src =>
      obtain ⟨r', hpush, h', hsize, hcells⟩ := ringBufferPush_spec h src.2
      rw [hfree] at hpush hcells
      refine ⟨r', hpush, next h' hsize ?_⟩
      have htake : src.val.take (min q.free src.val.length) = src.val.take q.free := by
        rw [← List.take_take, List.take_length]
      rw [hcells, hq, Fifo.pushPrefix_items, List.map_append, htake]
    | pop dst size =>
      obtain ⟨r', hpop, h', hsize, hcells⟩ := ringBufferPop_spec h true size.2
      have hout : r.cells.take size = (q.pop size).1.map some := by rw [hq, Fifo.pop_fst, List.map_take]
      have hlen : min size.val r.cells.length = (q.pop size).1.length := by
        rw [hq, Fifo.pop_fst, List.length_map, List.length_take]
      rw [if_pos rfl, hout, hlen] at hpop
      refine ⟨r', hpop, ?_, next h' hsize ?_⟩
      · cases dst with
        | true => exact hpop
        | false => exact ringBufferPop_null hpop
      · rw [hcells, hq, Fifo.pop_items, List.map_drop]
    | clear =>
      obtain ⟨h', hsize, hcells⟩ := ringBufferClear_spec h
      exact next h' hsize hcells

end

/-- **The ring is a bounded queue** of `size` bytes, whatever is called on it. -/
theorem ringBuffer_behaves (size : Nat) (h : 2 * (size + 1) < 2147483648) (calls : List (RingBufferCall α)) :
    ∃ r, ringBufferInit size = some r ∧ r.Behaves (Fifo.empty : Fifo α size) calls := by
  obtain ⟨r, hinit, hvalid, hsize, hcells⟩ := @ringBufferInit_spec α size (by omega)
  exact ⟨r, hinit, hvalid.behaves (by rw [hcells, Fifo.empty_items, List.map_nil]) hsize calls⟩

/-- Seven bytes into a ring of four, past the end of the block. -/
theorem ringBuffer_behaves_four : ∃ r, ringBufferInit (4 : Nat) = some r ∧ r.Behaves (Fifo.empty : Fifo Nat 4)
    [.push ⟨[1, 2, 3], by decide⟩, .pop false 2, .push ⟨[4, 5, 6, 7], by decide⟩, .pop true 9] :=
  ringBuffer_behaves 4 (by decide) _

end AudioPlayer

import Mathlib
import AudioPlayer.Lib.CInt
import AudioPlayer.Lib.Bytes

/-!
# The direct buffer (`utils/direct_buffer.c`)

A block with a read and a write position and no wrap. What lies between the two is its contents; a push
behind the end of the block is undefined, so a caller that pushes has to resize first.
-/

namespace AudioPlayer
open Lib

/-- `direct_buffer_t` -/
structure DirectBuffer where
  read   : Int
  write  : Int
  size   : Int
  buffer : List (Option Byte)
deriving DecidableEq

/-- `direct_buffer_create` (`direct_buffer.c:5-22`). -/
def directBufferCreate (size : Int) : DirectBuffer := ⟨0, 0, size, List.replicate size.toNat none⟩

/-- `direct_buffer_get_count` (`direct_buffer.h:22`). -/
def directBufferGetCount (b : DirectBuffer) : Int := b.write - b.read

/-- `direct_buffer_clear` (`direct_buffer.h:21`). -/
def directBufferClear (b : DirectBuffer) : DirectBuffer := { b with read := 0, write := 0 }

/-- `direct_buffer_pop_only` (`direct_buffer.h:19`). -/
def directBufferPopOnly (b : DirectBuffer) (n : Int) : DirectBuffer := { b with read := b.read + n }

/-- `direct_buffer_push_one` (`direct_buffer.h:18`). -/
def directBufferPushOne (b : DirectBuffer) (x : Byte) : Option DirectBuffer := do
  let buffer ← memcpy? b.buffer b.write [some x] 1
  some { b with buffer, write := b.write + 1 }

/-- `direct_buffer_resize` (`direct_buffer.c:40-59`), which only grows the block. -/
def directBufferResize (b : DirectBuffer) (size : Int) : Option DirectBuffer :=
  if b.size < size then do
    let buffer := List.replicate size.toNat none
    let count := b.write - b.read
    let buffer ← if count > 0 then do
        memcpy? buffer b.read (← memread? b.buffer b.read count) count
      else some buffer
    some { b with buffer, size }
  else some b

/-- Several pushes, one after the other. -/
def directBufferPushAll (b : DirectBuffer) (xs : List Byte) : Option DirectBuffer :=
  xs.foldlM directBufferPushOne b

/-- What lies between the positions. -/
def DirectBuffer.contents (b : DirectBuffer) : List (Option Byte) :=
  (b.buffer.drop b.read.toNat).take (b.write - b.read).toNat

/-- The positions are in order and in the block. -/
structure DirectBuffer.Valid (b : DirectBuffer) : Prop where
  read_nonneg : 0 ≤ b.read
  read_le     : b.read ≤ b.write
  write_le    : b.write ≤ b.size
  length_eq   : (b.buffer.length : Int) = b.size

section
variable {b : DirectBuffer}

theorem directBufferCreate_spec {size : Int} (h : 0 ≤ size) :
    (directBufferCreate size).Valid ∧ (directBufferCreate size).contents = [] := by
  refine ⟨⟨Int.le_refl 0, Int.le_refl 0, h, ?_⟩, by simp [directBufferCreate, DirectBuffer.contents]⟩
  simp only [directBufferCreate, List.length_replicate]
  omega

theorem DirectBuffer.Valid.length_contents (h : b.Valid) :
    (b.contents.length : Int) = directBufferGetCount b := by
  obtain ⟨h1, h2, h3, h4⟩ := h
  simp only [DirectBuffer.contents, directBufferGetCount, List.length_take, List.length_drop]
  omega

/-- What the callback is shown. -/
theorem DirectBuffer.Valid.memread (h : b.Valid) :
    memread? b.buffer b.read (directBufferGetCount b) = some b.contents := by
  obtain ⟨h1, h2, h3, h4⟩ := h
  unfold memread? directBufferGetCount DirectBuffer.contents
  rw [if_pos (by omega)]

theorem directBufferClear_spec (h : b.Valid) :
    (directBufferClear b).Valid ∧ (directBufferClear b).contents = [] ∧ (directBufferClear b).write = 0 := by
  refine ⟨⟨Int.le_refl 0, Int.le_refl 0, ?_, h.length_eq⟩, ?_, rfl⟩
  · have := h.length_eq
    dsimp only [directBufferClear]
    omega
  · simp [directBufferClear, DirectBuffer.contents]

theorem directBufferPopOnly_spec (h : b.Valid) {n : Int} (h0 : 0 ≤ n) (hn : n ≤ directBufferGetCount b) :
    (directBufferPopOnly b n).Valid ∧ (directBufferPopOnly b n).contents = b.contents.drop n.toNat := by
  obtain ⟨h1, h2, h3, h4⟩ := h
  unfold directBufferGetCount at hn
  refine ⟨⟨by dsimp only [directBufferPopOnly]; omega, by dsimp only [directBufferPopOnly]; omega, h3, h4⟩, ?_⟩
  simp only [directBufferPopOnly, DirectBuffer.contents]
  rw [List.drop_take, List.drop_drop]
  congr 1
  · omega
  · congr 1; omega

theorem directBufferPushOne_spec (h : b.Valid) (x : Byte) (hroom : b.write < b.size) :
    ∃ b', directBufferPushOne b x = some b' ∧ b'.Valid ∧ b'.contents = b.contents ++ [some x] ∧
      b'.write = b.write + 1 ∧ b'.size = b.size := by
  obtain ⟨h1, h2, h3, h4⟩ := h
  obtain ⟨read, write, size, buffer⟩ := b
  dsimp only at h1 h2 h3 h4 hroom
  lift read to Nat using h1
  lift write to Nat using by omega
  have hcopy : memcpy? buffer write [some x] (1 : Nat) = _ := memcpy?_eq (by omega) (by simp)
  refine ⟨⟨read, write + 1, size, buffer.take write ++ [some x] ++ buffer.drop (write + 1)⟩, ?_, ?_, ?_, rfl, rfl⟩
  · simp only [directBufferPushOne]
    rw [show (1 : Int) = ((1 : Nat) : Int) from rfl, hcopy]
    rfl
  · refine ⟨by dsimp only; omega, by dsimp only; omega, by dsimp only; omega, ?_⟩
    simp only [List.length_append, List.length_take, List.length_drop, List.length_cons, List.length_nil]
    omega
  · simp only [DirectBuffer.contents, Int.toNat_natCast]
    have := @drop_take_over _ buffer [some x] read write (by omega) (by simp; omega)
    rw [List.length_singleton] at this
    rw [show ((write : Int) + 1 - read).toNat = write + 1 - read by omega,
      show ((write : Int) - read).toNat = write - read by omega]
    exact this

theorem directBufferPushAll_spec (h : b.Valid) (xs : List Byte) (hroom : b.write + xs.length ≤ b.size) :
    ∃ b', directBufferPushAll b xs = some b' ∧ b'.Valid ∧ b'.contents = b.contents ++ xs.map some := by
  induction xs generalizing b with
  | nil => exact ⟨b, rfl, h, by simp⟩
  | cons x xs ih =>
    rw [List.length_cons] at hroom
    obtain ⟨b₁, hpush, h₁, hcontents, hwrite, hsize⟩ := directBufferPushOne_spec h x (by omega)
    obtain ⟨b₂, hall, h₂, hcontents₂⟩ := ih h₁ (by omega)
    refine ⟨b₂, ?_, h₂, ?_⟩
    · simp only [directBufferPushAll, List.foldlM_cons, hpush]
      exact hall
    · rw [hcontents₂, hcontents, List.map_cons, List.append_assoc, List.singleton_append]

/-- A loop whose turns each push some bytes pushes them all. -/
theorem foldlM_pushAll {ι : Type*} {step : DirectBuffer → ι → Option DirectBuffer} {f : ι → List Byte}
    (hstep : ∀ b i, step b i = directBufferPushAll b (f i)) (is : List ι) (b : DirectBuffer) :
    is.foldlM step b = directBufferPushAll b (is.flatMap f) := by
  induction is generalizing b with
  | nil => rfl
  | cons i is ih =>
    rw [List.foldlM_cons, hstep, List.flatMap_cons]
    simp only [directBufferPushAll, List.foldlM_append]
    congr 1
    funext b'
    exact ih b'

/-- An empty buffer is resized to hold what it has to. -/
theorem directBufferResize_spec (h : b.Valid) (hempty : b.contents = []) {size : Int} (h0 : 0 ≤ size) :
    ∃ b', directBufferResize b size = some b' ∧ (directBufferClear b').Valid ∧ size ≤ b'.size := by
  have hcount := h.length_contents
  rw [hempty] at hcount
  unfold directBufferGetCount at hcount
  unfold directBufferResize
  split
  · have hzero : ¬ b.write - b.read > 0 := by
      simp only [List.length_nil, Nat.cast_zero] at hcount
      omega
    refine ⟨{ b with buffer := List.replicate size.toNat none, size }, by rw [if_neg hzero]; rfl,
      ⟨Int.le_refl 0, Int.le_refl 0, h0, ?_⟩, Int.le_refl _⟩
    simp only [directBufferClear, List.length_replicate]
    omega
  · exact ⟨b, rfl, (directBufferClear_spec h).1, by omega⟩

end

end AudioPlayer

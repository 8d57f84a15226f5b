import Mathlib
import AudioPlayer.Lib.Tape
import AudioPlayer.DirectBuffer

/-!
# The calls of the direct buffer (`utils/direct_buffer.c:40-97`)

`DirectBuffer` has what the mp3 decoder uses of the buffer. Here are its other calls, an allocation that can
fail, and what the buffer is for: a `Tape`, whose unread part is what lies between the positions.

| here | there |
|---|---|
| `directBufferCreateAlloc` | `direct_buffer_create` (`direct_buffer.c:5-22`) |
| `directBufferResizeAlloc` | `direct_buffer_resize` (`:40-59`) with the outcome of its `malloc` |
| `directBufferPush`        | `direct_buffer_push` (`:61-75`) |
| `directBufferPop`         | `direct_buffer_pop` (`:77-97`) |
| `DirectBufferCall`        | a call with its arguments, the macros of `direct_buffer.h:18-23` among them |

Sizes are signed and not checked. `DirectBufferCall.Fits` asks that they are lengths, and
`directBufferPop_negative` says what becomes of one that is not. All positions stay between 0 and `size`, so no
sum leaves the range of an `int`.
-/

namespace AudioPlayer
open Lib

/-- `direct_buffer_create`: there is no block of a negative size, which is more than half of the address space
as a `size_t`. -/
def directBufferCreateAlloc (allocated : Bool) (size : Int) : Option DirectBuffer :=
  if allocated = true ∧ 0 ≤ size then some (directBufferCreate size) else none

/-- `direct_buffer_resize`, with what it returns. -/
def directBufferResizeAlloc (allocated : Bool) (b : DirectBuffer) (size : Int) : Option (DirectBuffer × Int) :=
  if b.size < size ∧ allocated = false then some (b, 0)
  else do
    let b ← directBufferResize b size
    some (b, size)

/-- `direct_buffer_push`; `buffer` is the caller's memory. -/
def directBufferPush (b : DirectBuffer) (buffer : List Byte) (size : Int) : Option (DirectBuffer × Int) :=
  let count := b.size - b.write
  if count ≤ 0 then some (b, 0)
  else do
    let count := if count > size then size else count
    let block ← memcpy? b.buffer b.write (buffer.map some) count
    some ({ b with buffer := block, write := b.write + count }, count)

/-- `direct_buffer_pop`: the place in the block that `*pp_buffer` gets, none for `NULL`, and what it returns. -/
def directBufferPop (b : DirectBuffer) (size : Int) : DirectBuffer × Option Int × Int :=
  let count := b.write - b.read
  if count ≤ 0 then (b, none, 0)
  else
    let count := if count > size then size else count
    ({ b with read := b.read + count }, some b.read, count)

inductive DirectBufferCall
  | push (buffer : List Byte) (size : Int)
  | pop (size : Int)
  | popOnly (count : Int)
  | resize (allocated : Bool) (size : Int)
  | clear
deriving DecidableEq

/-- What a call returns, where it lets the caller read, and the bytes found there. -/
structure DirectBufferAnswer where
  ret    : Int := 0
  buffer : Option Int := none
  bytes  : List (Option Byte) := []
deriving DecidableEq

/-- A call; the caller reads as many bytes behind the pointer of a pop as it returned. -/
def directBufferCall (b : DirectBuffer) : DirectBufferCall → Option (DirectBufferAnswer × DirectBuffer)
  | .push buffer size => do
    let (b, ret) ← directBufferPush b buffer size
    some ({ ret }, b)
  | .pop size =>
    match directBufferPop b size with
    | (b, none, ret) => some ({ ret }, b)
    | (b, some place, ret) => do
      let bytes ← memread? b.buffer place ret
      some ({ ret, buffer := some place, bytes }, b)
  | .popOnly count => some ({}, directBufferPopOnly b count)
  | .resize allocated size => do
    let (b, ret) ← directBufferResizeAlloc allocated b size
    some ({ ret }, b)
  | .clear => some ({}, directBufferClear b)

/-- The calls one after the other. -/
def directBufferRun (b : DirectBuffer) : List DirectBufferCall → Option (List DirectBufferAnswer × DirectBuffer)
  | [] => some ([], b)
  | call :: calls => do
    let (answer, b) ← directBufferCall b call
    let (answers, b) ← directBufferRun b calls
    some (answer :: answers, b)

/-- Sizes are lengths, of the memory pushed or wanted, and `direct_buffer_pop_only` stays within the count. -/
def DirectBufferCall.Fits (b : DirectBuffer) : DirectBufferCall → Prop
  | .push buffer size => 0 ≤ size ∧ size ≤ buffer.length
  | .pop size => 0 ≤ size
  | .popOnly count => 0 ≤ count ∧ count ≤ directBufferGetCount b
  | .resize _ _ => True
  | .clear => True

instance (b : DirectBuffer) : DecidablePred (DirectBufferCall.Fits b)
  | .push buffer size => inferInstanceAs (Decidable (0 ≤ size ∧ size ≤ buffer.length))
  | .pop size => inferInstanceAs (Decidable (0 ≤ size))
  | .popOnly count => inferInstanceAs (Decidable (0 ≤ count ∧ count ≤ directBufferGetCount b))
  | .resize _ _ => inferInstanceAs (Decidable True)
  | .clear => inferInstanceAs (Decidable True)

/-- Each call fits the buffer it is made on. -/
def DirectBuffer.Allows (b : DirectBuffer) : List DirectBufferCall → Prop
  | [] => True
  | call :: calls => call.Fits b ∧ ∀ answer b', directBufferCall b call = some (answer, b') → b'.Allows calls

/-! ## The same on a tape -/

/-- What a call does to the tape, and what it answers. -/
def tapeCall (t : Tape Byte) : DirectBufferCall → DirectBufferAnswer × Tape Byte
  | .push buffer size =>
    let accepted := (buffer.take size.toNat).take t.free
    ({ ret := accepted.length }, t.push (buffer.take size.toNat))
  | .pop size =>
    if t.unread = [] then ({}, t)
    else
      let bytes := t.unread.take size.toNat
      ({ ret := bytes.length, buffer := some t.read, bytes := bytes.map some }, t.pop size.toNat)
  | .popOnly count => ({}, t.pop count.toNat)
  | .resize allocated size =>
    if (t.size : Int) < size ∧ allocated = false then ({}, t) else ({ ret := size }, t.grow size.toNat)
  | .clear => ({}, t.rewind)

def tapeRun (t : Tape Byte) : List DirectBufferCall → List DirectBufferAnswer × Tape Byte
  | [] => ([], t)
  | call :: calls =>
    let (answer, t) := tapeCall t call
    let (answers, t) := tapeRun t calls
    (answer :: answers, t)

/-- `b` holds the tape `t`. -/
structure DirectBuffer.Holds (b : DirectBuffer) (t : Tape Byte) : Prop where
  read_eq     : b.read = t.read
  write_eq    : b.write = t.written.length
  size_eq     : b.size = t.size
  length_eq   : b.buffer.length = t.size
  contents_eq : b.contents = t.unread.map some

section
variable {b : DirectBuffer} {t : Tape Byte}

theorem DirectBuffer.Holds.valid (h : b.Holds t) : b.Valid := by
  have h1 := t.read_le
  have h2 := t.written_le
  refine ⟨?_, ?_, ?_, ?_⟩
  · rw [h.read_eq]; omega
  · rw [h.read_eq, h.write_eq]; omega
  · rw [h.write_eq, h.size_eq]; omega
  · rw [h.length_eq, h.size_eq]

theorem DirectBuffer.Holds.count (h : b.Holds t) : directBufferGetCount b = t.unread.length := by
  rw [← h.valid.length_contents, h.contents_eq, List.length_map]

theorem directBufferCreate_holds {size : Int} (h : 0 ≤ size) :
    (directBufferCreate size).Holds (Tape.blank size.toNat) := by
  refine ⟨rfl, rfl, ?_, ?_, (directBufferCreate_spec h).2⟩
  · simp only [directBufferCreate, Tape.blank]
    omega
  · simp [directBufferCreate, Tape.blank]

theorem directBufferClear_holds (h : b.Holds t) : (directBufferClear b).Holds t.rewind := by
  refine ⟨rfl, rfl, h.size_eq, h.length_eq, (directBufferClear_spec h.valid).2.1⟩

theorem directBufferPopOnly_holds (h : b.Holds t) {n : Int} (h0 : 0 ≤ n) (hn : n ≤ directBufferGetCount b) :
    (directBufferPopOnly b n).Holds (t.pop n.toNat) := by
  have hcontents := (directBufferPopOnly_spec h.valid h0 hn).2
  have hread := t.read_le
  rw [h.count, t.length_unread] at hn
  refine ⟨?_, h.write_eq, h.size_eq, h.length_eq, ?_⟩
  · simp only [directBufferPopOnly, Tape.pop, h.read_eq]
    omega
  · rw [hcontents, h.contents_eq, Tape.unread_pop, List.map_drop]

/-- A copy behind the write position goes behind the contents. -/
theorem DirectBuffer.Valid.append (h : b.Valid) {src : List (Option Byte)} {n : Nat} (hn : n ≤ src.length)
    (hroom : b.write + n ≤ b.size) :
    ∃ block, memcpy? b.buffer b.write src n = some block ∧ block.length = b.buffer.length ∧
      ({ b with buffer := block, write := b.write + n } : DirectBuffer).contents = b.contents ++ src.take n := by
  obtain ⟨h1, h2, h3, h4⟩ := h
  obtain ⟨read, write, size, buffer⟩ := b
  dsimp only at h1 h2 h3 h4 hroom
  lift read to Nat using h1
  lift write to Nat using by omega
  have htake : (src.take n).length = n := List.length_take_of_le hn
  have hover := @drop_take_over _ buffer (src.take n) read write (by omega) (by rw [htake]; omega)
  have hcopy := @memcpy?_eq _ buffer src write n (by omega) hn
  refine ⟨_, hcopy, ?_, ?_⟩
  · simp only [List.length_append, List.length_take, List.length_drop]
    omega
  · rw [htake] at hover
    simp only [DirectBuffer.contents, Int.toNat_natCast]
    rw [show ((write : Int) + n - read).toNat = write + n - read by omega,
      show ((write : Int) - read).toNat = write - read by omega]
    exact hover

/-- A push is cut to the room behind `write`. -/
theorem directBufferPush_spec (h : b.Holds t) {buffer : List Byte} {size : Int} (h0 : 0 ≤ size)
    (hsize : size ≤ buffer.length) :
    ∃ b' : DirectBuffer, directBufferPush b buffer size =
        some (b', (((buffer.take size.toNat).take t.free).length : Int)) ∧
      b'.Holds (t.push (buffer.take size.toNat)) := by
  obtain ⟨n, rfl⟩ := Int.eq_ofNat_of_zero_le h0
  have hwritten := t.written_le
  have hfree : b.size - b.write = t.free := by
    rw [h.size_eq, h.write_eq, Tape.free]
    omega
  unfold directBufferPush
  rw [hfree, Int.toNat_natCast]
  dsimp only
  by_cases hfull : t.free = 0
  · have hnone : (buffer.take n).take t.free = [] := by rw [hfull, List.take_zero]
    refine ⟨b, by rw [if_pos (by omega), hnone]; rfl, ?_⟩
    have hsame : t.push (buffer.take n) = t := by
      ext1
      · simp only [Tape.push, hnone, List.append_nil]
      · rfl
      · rfl
    rw [hsame]
    exact h
  · have hlen : ((buffer.take n).take t.free).length = min t.free n := by
      simp only [List.length_take]
      omega
    have hcut : (if (t.free : Int) > n then (n : Int) else t.free) = (min t.free n : Nat) := by
      split <;> omega
    have htake : (buffer.map some).take (min t.free n) = ((buffer.take n).take t.free).map some := by
      rw [← List.map_take, List.take_take]
    obtain ⟨block, hcopy, hblock, hcontents⟩ := @DirectBuffer.Valid.append _ h.valid (buffer.map some)
      (min t.free n) (by rw [List.length_map]; omega) (by omega)
    refine ⟨{ b with buffer := block, write := b.write + (min t.free n : Nat) }, ?_, h.read_eq, ?_, h.size_eq,
      hblock.trans h.length_eq, ?_⟩
    · rw [if_neg (by omega), hcut, hcopy, hlen]
      rfl
    · simp only [Tape.push, List.length_append, hlen, h.write_eq]
      omega
    · rw [hcontents, h.contents_eq, htake, Tape.unread_push, List.map_append]

/-- The first bytes of the contents, at the read position. -/
theorem DirectBuffer.Valid.memread_take (h : b.Valid) {n : Nat} (hn : (n : Int) ≤ directBufferGetCount b) :
    memread? b.buffer b.read n = some (b.contents.take n) := by
  obtain ⟨h1, h2, h3, h4⟩ := h
  unfold directBufferGetCount at hn
  unfold memread? DirectBuffer.contents
  rw [if_pos (by omega), List.take_take, Int.toNat_natCast, Nat.min_eq_left (by omega)]

/-- The pointer of a pop designates the bytes it reports. -/
theorem directBufferPop_spec (h : b.Holds t) {size : Int} (h0 : 0 ≤ size) :
    ∃ b', directBufferCall b (.pop size) = some ((tapeCall t (.pop size)).1, b') ∧
      b'.Holds (tapeCall t (.pop size)).2 := by
  have hcount := h.count
  unfold directBufferGetCount at hcount
  unfold directBufferCall tapeCall directBufferPop
  dsimp only
  rw [hcount]
  by_cases hempty : t.unread = []
  · have hzero : (t.unread.length : Int) ≤ 0 := by simp [hempty]
    rw [if_pos hempty, if_pos hzero]
    exact ⟨b, rfl, h⟩
  · have hpos : ¬ (t.unread.length : Int) ≤ 0 := by
      have := List.length_pos_iff.2 hempty
      omega
    have hcut : (if (t.unread.length : Int) > size then size else t.unread.length) =
        ((t.unread.take size.toNat).length : Nat) := by
      rw [List.length_take]
      split <;> omega
    rw [if_neg hempty, if_neg hpos, hcut]
    have hle : (((t.unread.take size.toNat).length : Nat) : Int) ≤ directBufferGetCount b := by
      rw [h.count, List.length_take]
      omega
    have hpop := directBufferPopOnly_holds h (Int.natCast_nonneg _) hle
    have hbytes := h.valid.memread_take hle
    rw [h.contents_eq, ← List.map_take, List.length_take, ← List.take_eq_take_min, ← List.length_take] at hbytes
    rw [Int.toNat_natCast, Tape.pop_length_take] at hpop
    refine ⟨directBufferPopOnly b (t.unread.take size.toNat).length, ?_, hpop⟩
    rw [h.read_eq] at hbytes
    simp only [hbytes, h.read_eq, directBufferPopOnly, Option.bind_eq_bind, Option.bind_some]

/-- A resize keeps what is unread, at its place. -/
theorem directBufferResize_holds (h : b.Holds t) (size : Int) :
    ∃ b', directBufferResize b size = some b' ∧ b'.Holds (t.grow size.toNat) := by
  obtain ⟨h1, h2, h3, h4⟩ := h.valid
  have hsize := h.size_eq
  unfold directBufferResize
  by_cases hgrow : b.size < size
  · have hgrown : ((t.grow size.toNat).size : Int) = size := by
      simp only [Tape.grow]
      omega
    have hfresh : (List.replicate size.toNat (none : Option Byte)).length = (t.grow size.toNat).size := by
      rw [List.length_replicate]
      omega
    rw [if_pos hgrow]
    by_cases hcount : b.write - b.read > 0
    · have hread := h.valid.memread
      have hlen := h.valid.length_contents
      unfold directBufferGetCount at hread hlen
      -- the fresh block with both positions at `read`, behind which the unread bytes are copied
      have hempty : (DirectBuffer.mk b.read b.read size (List.replicate size.toNat none)).Valid := by
        refine ⟨h1, Int.le_refl _, ?_, ?_⟩
        · dsimp only
          omega
        · rw [List.length_replicate]
          dsimp only
          omega
      obtain ⟨block, hcopy, hblock, hcontents⟩ := @DirectBuffer.Valid.append _ hempty b.contents
        b.contents.length (Nat.le_refl _) (by dsimp only; omega)
      rw [hlen] at hcopy hcontents
      rw [List.take_length] at hcontents
      have hnil : (DirectBuffer.mk b.read b.read size (List.replicate size.toNat none)).contents = [] := by
        simp [DirectBuffer.contents]
      have hwrite : b.read + (b.write - b.read) = b.write := by omega
      simp only [hnil, hwrite, List.nil_append] at hcontents
      refine ⟨{ b with buffer := block, size }, ?_, h.read_eq, h.write_eq, hgrown.symm, hblock.trans hfresh,
        hcontents.trans h.contents_eq⟩
      rw [if_pos hcount, hread]
      simp only [hcopy, Option.bind_eq_bind, Option.bind_some]
    · have hnil : t.unread = [] := by
        have := h.count
        unfold directBufferGetCount at this
        exact List.eq_nil_of_length_eq_zero (by omega)
      refine ⟨{ b with buffer := List.replicate size.toNat none, size }, ?_, h.read_eq, h.write_eq, hgrown.symm,
        hfresh, ?_⟩
      · rw [if_neg hcount]
        rfl
      · rw [Tape.unread_grow, hnil, DirectBuffer.contents, Int.toNat_of_nonpos (by dsimp only; omega)]
        rfl
  · rw [if_neg hgrow]
    have hsame : t.grow size.toNat = t := by
      ext1
      · rfl
      · rfl
      · simp only [Tape.grow]
        omega
    exact ⟨b, rfl, by rwa [hsame]⟩

/-- Whatever the allocation gives, what is unread stays. -/
theorem directBufferResizeAlloc_holds (h : b.Holds t) (allocated : Bool) (size : Int) :
    ∃ b', directBufferCall b (.resize allocated size) = some ((tapeCall t (.resize allocated size)).1, b') ∧
      b'.Holds (tapeCall t (.resize allocated size)).2 := by
  unfold directBufferCall tapeCall directBufferResizeAlloc
  dsimp only
  rw [← h.size_eq]
  by_cases hfails : b.size < size ∧ allocated = false
  · rw [if_pos hfails, if_pos hfails]
    exact ⟨b, rfl, h⟩
  · obtain ⟨b', hresize, h'⟩ := directBufferResize_holds h size
    rw [if_neg hfails, if_neg hfails, hresize]
    exact ⟨b', rfl, h'⟩

/-- **One call.** -/
theorem directBufferCall_spec (h : b.Holds t) {call : DirectBufferCall} (hfits : call.Fits b) :
    ∃ b', directBufferCall b call = some ((tapeCall t call).1, b') ∧ b'.Holds (tapeCall t call).2 := by
  cases call with
  | push buffer size =>
    obtain ⟨b', hpush, h'⟩ := directBufferPush_spec h hfits.1 hfits.2
    refine ⟨b', ?_, h'⟩
    simp only [directBufferCall, hpush, Option.bind_eq_bind, Option.bind_some]
    rfl
  | pop size => exact directBufferPop_spec h hfits
  | popOnly count => exact ⟨_, rfl, directBufferPopOnly_holds h hfits.1 hfits.2⟩
  | resize allocated size => exact directBufferResizeAlloc_holds h allocated size
  | clear => exact ⟨_, rfl, directBufferClear_holds h⟩

theorem directBufferRun_spec {calls : List DirectBufferCall} (h : b.Holds t) (hallows : b.Allows calls) :
    ∃ b', directBufferRun b calls = some ((tapeRun t calls).1, b') ∧ b'.Holds (tapeRun t calls).2 := by
  induction calls generalizing b t with
  | nil => exact ⟨b, rfl, h⟩
  | cons call calls ih =>
    obtain ⟨b₁, hcall, h₁⟩ := directBufferCall_spec h hallows.1
    obtain ⟨b', hrun, h'⟩ := ih h₁ (hallows.2 _ b₁ hcall)
    refine ⟨b', ?_, h'⟩
    simp only [directBufferRun, hcall, hrun, Option.bind_eq_bind, Option.bind_some]
    rfl

end

/-- **The direct buffer is a tape.** From its creation on, whatever calls are made and whichever allocations
fail: each answers what it answers on the tape, each pointer of a pop designates the bytes reported, and behind
all of them what lies between the positions is what was accepted since the last clear without what was popped,
which no resize changes. -/
theorem directBufferRun_refines {allocated : Bool} {size : Int} {b₀ : DirectBuffer}
    (hcreate : directBufferCreateAlloc allocated size = some b₀) (calls : List DirectBufferCall)
    (hallows : b₀.Allows calls) :
    ∃ b, directBufferRun b₀ calls = some ((tapeRun (Tape.blank size.toNat) calls).1, b) ∧
      b.contents = ((tapeRun (Tape.blank size.toNat) calls).2.written.drop
        (tapeRun (Tape.blank size.toNat) calls).2.read).map some ∧
      (0 ≤ b.read ∧ b.read ≤ b.write ∧ b.write ≤ b.size) ∧
      ∀ allocated size, ∃ b' ret, directBufferResizeAlloc allocated b size = some (b', ret) ∧
        b'.contents = b.contents := by
  unfold directBufferCreateAlloc at hcreate
  split at hcreate
  case isFalse => cases hcreate
  case isTrue hsize =>
    obtain rfl := Option.some.inj hcreate
    obtain ⟨b, hrun, h⟩ := directBufferRun_spec (directBufferCreate_holds hsize.2) hallows
    refine ⟨b, hrun, h.contents_eq, ⟨h.valid.read_nonneg, h.valid.read_le, h.valid.write_le⟩, ?_⟩
    intro allocated size
    unfold directBufferResizeAlloc
    split
    · exact ⟨b, 0, rfl, rfl⟩
    · obtain ⟨b', hresize, h'⟩ := directBufferResize_holds h size
      exact ⟨b', size, by rw [hresize]; rfl, by rw [h'.contents_eq, Tape.unread_grow, h.contents_eq]⟩

/-- Four bytes are pushed into a block of 3, popped one by one, kept by two resizes, and dropped. -/
def fourPushed : List DirectBufferCall :=
  [.push [1, 2, 3, 4] 4, .pop 1, .resize true 5, .push [5, 6, 7] 3, .popOnly 1, .resize false 9, .pop 8, .clear]

theorem directBufferRun_refines_four :
    ∃ b, directBufferRun (directBufferCreate 3) fourPushed =
        some ((tapeRun (Tape.blank (3 : Int).toNat) fourPushed).1, b) ∧
      b.contents = ((tapeRun (Tape.blank (3 : Int).toNat) fourPushed).2.written.drop
        (tapeRun (Tape.blank (3 : Int).toNat) fourPushed).2.read).map some ∧
      (0 ≤ b.read ∧ b.read ≤ b.write ∧ b.write ≤ b.size) ∧
      ∀ allocated size, ∃ b' ret, directBufferResizeAlloc allocated b size = some (b', ret) ∧
        b'.contents = b.contents := by
  refine @directBufferRun_refines true 3 _ rfl fourPushed ?_
  refine ⟨by decide, ?_⟩
  rintro _ _ ⟨⟩
  refine ⟨by decide, ?_⟩
  rintro _ _ ⟨⟩
  refine ⟨trivial, ?_⟩
  rintro _ _ ⟨⟩
  refine ⟨by decide, ?_⟩
  rintro _ _ ⟨⟩
  refine ⟨by decide, ?_⟩
  rintro _ _ ⟨⟩
  refine ⟨trivial, ?_⟩
  rintro _ _ ⟨⟩
  refine ⟨by decide, ?_⟩
  rintro _ _ ⟨⟩
  exact ⟨trivial, fun _ _ _ => trivial⟩

/-- **A negative size is not refused.** With three bytes accepted and none popped, a pop of -1 moves `read` in
front of the block: four bytes are counted as unread, and they are not the end of those accepted. -/
theorem directBufferPop_negative :
    ∃ b, directBufferRun (directBufferCreate 4) [.push [1, 2, 3] 3] = some ([{ ret := 3 }], b) ∧
      (directBufferPop b (-1)).2 = (some 0, -1) ∧ directBufferGetCount (directBufferPop b (-1)).1 = 4 ∧
      (directBufferPop b (-1)).1.read = -1 ∧
      ∀ popped : Nat, (directBufferPop b (-1)).1.contents ≠ (([1, 2, 3] : List Byte).drop popped).map some := by
  refine ⟨⟨0, 3, 4, [some 1, some 2, some 3, none]⟩, rfl, rfl, rfl, rfl, ?_⟩
  intro popped h
  have hlen := congrArg List.length h
  have hfour : (directBufferPop ⟨0, 3, 4, [some 1, some 2, some 3, none]⟩ (-1)).1.contents.length = 4 := rfl
  rw [hfour, List.length_map, List.length_drop] at hlen
  simp only [List.length_cons, List.length_nil] at hlen
  omega

end AudioPlayer

import Mathlib
import AudioPlayer.Lib.Steps
import AudioPlayer.CommonBuffer

/-!
# A push without memory (`utils/common_buffer.c:72-111`)

A push stores what the tail has room for, and makes a node for each further part. Where a node cannot be made it
returns `COMMON_BUF_ERR_MALLOC`, and what it stored before stays stored: the queue then ends with a part of the data,
and a caller that pushes it again has that part twice. `commonBufferPush_keeps` says when a push that fails has changed
nothing: the first allocation that fails comes before anything is stored.

`ok` says of each node whether both of its allocations, the node and its ring, succeed.
-/

namespace AudioPlayer
open Lib

variable {α : Type} {cb cb' : CommonBuffer α} {ns : List (Nat × CommonNode α)} {src : List α}

/-- A call that returns, with what happens to the allocations of a push. -/
inductive CommonBufferStep :
    CommonBuffer α → CommonBufferCall α × (Nat → Bool) → CommonBuffer α → Prop
  | push {cb cb' ret ok} {src : { l : List α // l.length < 4294967296 }} :
      commonBufferPush ok cb src.1 = some (ret, cb') → CommonBufferStep cb (.push src, ok) cb'
  | pop {cb cb' ret out len ok dst} {size : Fin 4294967296} :
      commonBufferPop cb dst size.val = some (ret, out, len, cb') → CommonBufferStep cb (.pop dst size, ok) cb'
  | clear {cb cb' ok ret} : commonBufferClear cb = some (ret, cb') → CommonBufferStep cb (.clear, ok) cb'

/-- The buffered bytes: what a pop of all of them delivers. -/
def commonBufferBytes (cb : CommonBuffer α) : Option (List (Option α)) :=
  (commonBufferPop cb true 4294967295).map fun r => r.2.1

/-- The bytes and both counts are the same. -/
structure CommonBuffer.Same (cb cb' : CommonBuffer α) : Prop where
  bytes : commonBufferBytes cb' = commonBufferBytes cb
  count : commonBufferGetCount cb' = commonBufferGetCount cb
  free  : commonBufferGetFreeCount cb' = commonBufferGetFreeCount cb

/-- A push of `len` bytes that fits, and of which an allocation fails, has stored nothing before. -/
def CommonBuffer.FailsFirst (ok : Nat → Bool) (len : Nat) (cb : CommonBuffer α) : Prop :=
  ∀ k, FirstFails ok cb.heap.length k → (∃ free, commonBufferGetFreeCount cb = some free ∧ (len : Int) ≤ free) →
    cb.tailFree + k * cb.nodeSize.toNat < len → cb.tailFree + k * cb.nodeSize.toNat = 0

/-- What holds between two calls: `Holds`, with the sizes that the buffer was made with. -/
structure CommonBuffer.Made (nodeSize maxSize : Nat) (cb : CommonBuffer α) : Prop where
  holds : ∃ ns, cb.Holds ns
  node  : cb.nodeSize = nodeSize
  max   : cb.maxSize = maxSize + 1

theorem CommonBuffer.Holds.bytes (h : cb.Holds ns) : commonBufferBytes cb = some (nodesCells ns) := by
  have hlt := h.length_lt
  have hsmall := h.circ.small
  obtain ⟨ret, cb', ns', hpop, -⟩ := commonBufferPop_spec h true (k := 4294967295) (by omega)
  unfold commonBufferBytes
  rw [show (4294967295 : Int) = (4294967295 : Nat) from rfl, hpop]
  simp only [Option.map_some, if_true, Option.some.injEq]
  exact List.take_of_length_le (by omega)

/-- How a push ends: it is refused for its size, or `PushEnd` says what it stores. -/
theorem commonBufferPush_stores (ok : Nat → Bool) (h : cb.Holds ns) (hsrc : src.length < 4294967296) :
    cb.maxSize ≤ ((nodesCells ns).length : Int) + src.length ∧ commonBufferPush ok cb src = some (.errSize, cb) ∨
      ((nodesCells ns).length : Int) + src.length < cb.maxSize ∧
        ∃ ret cb' ns' k, commonBufferPush ok cb src = some (ret, cb') ∧ cb'.Holds ns' ∧ cb'.nodeSize = cb.nodeSize ∧
          cb'.maxSize = cb.maxSize ∧ nodesCells ns' = nodesCells ns ++ (src.take k).map some ∧
          PushEnd ok cb.nodeSize.toNat cb.heap.length cb.tailFree src.length ret k := by
  have hlt := h.length_lt
  have hsmall := h.circ.small
  have hu : toU32 (cb.maxSize - 1 - (nodesCells ns).length) = cb.maxSize - 1 - (nodesCells ns).length :=
    toU32_eq (by omega) (by omega)
  have hpush : commonBufferPush ok cb src =
      if src.length > cb.maxSize - 1 - (nodesCells ns).length then some (.errSize, cb)
      else commonBufferPushLoop ok src.length cb src := by
    simp only [commonBufferPush, h.getFreeCount, Option.bind_eq_bind, Option.bind_some, hu]
  rw [hpush]
  by_cases hfit : ((nodesCells ns).length : Int) + src.length < cb.maxSize
  · rw [if_neg (by omega)]
    exact .inr ⟨hfit, commonBufferPushLoop_stores le_rfl h hsrc hfit⟩
  · rw [if_pos (by omega)]
    exact .inl ⟨by omega, rfl⟩

/-- Every call keeps the buffer well formed, also one that runs out of memory. -/
theorem CommonBufferStep.made {nodeSize maxSize : Nat} {a : CommonBufferCall α × (Nat → Bool)}
    (h : cb.Made nodeSize maxSize) (hstep : CommonBufferStep cb a cb') : cb'.Made nodeSize maxSize := by
  obtain ⟨⟨ns, hns⟩, hnode, hmax⟩ := h
  cases hstep with
  | @push _ ret ok src hpush =>
    rcases commonBufferPush_stores ok hns src.2 with ⟨-, hrefused⟩ |
      ⟨-, ret', cb1, ns', k, hstored, hns', hnode', hmax', -⟩
    · rw [hrefused] at hpush
      cases hpush
      exact ⟨⟨ns, hns⟩, hnode, hmax⟩
    · rw [hstored] at hpush
      cases hpush
      exact ⟨⟨ns', hns'⟩, hnode'.trans hnode, hmax'.trans hmax⟩
  | @pop _ ret out len ok dst size hpop =>
    obtain ⟨ret', cb1, ns', hpop', hns', hnode', hmax', -⟩ := commonBufferPop_spec hns dst size.2
    rw [hpop'] at hpop
    cases hpop
    exact ⟨⟨ns', hns'⟩, hnode'.trans hnode, hmax'.trans hmax⟩
  | clear hclear =>
    obtain ⟨cb1, hclear', hns', hnode', hmax'⟩ := commonBufferClear_spec hns
    rw [hclear'] at hclear
    cases hclear
    exact ⟨⟨[], hns'⟩, hnode'.trans hnode, hmax'.trans hmax⟩

theorem commonBuffer_made {nodeSize maxSize : Nat} (h1 : 1 ≤ nodeSize) (h2 : 2 * (nodeSize + 1) ≤ 2147483648)
    (h3 : 2 * (maxSize + 1) ≤ 2147483648) (h : Reach CommonBufferStep (commonBufferInit nodeSize maxSize) cb) :
    cb.Made nodeSize maxSize := by
  refine h.invariant (I := CommonBuffer.Made nodeSize maxSize) (fun _ _ _ hmade hstep => hstep.made hmade) ?_
  refine ⟨⟨[], commonBufferInit_holds (by omega) (by omega) (by omega) (by omega)⟩, ?_, ?_⟩
  · simp only [commonBufferInit]
    rw [toI32_eq (by omega) (by omega)]
  · simp only [commonBufferInit]
    rw [toU32_eq (by omega) (by omega), toI32_eq (by omega) (by omega)]

/-- **A push that fails has changed nothing exactly if it fails before it stores anything.** -/
theorem commonBufferPush_keeps (nodeSize maxSize : Nat) (h1 : 1 ≤ nodeSize) (h2 : 2 * (nodeSize + 1) ≤ 2147483648)
    (h3 : 2 * (maxSize + 1) < 2147483648) (cb : CommonBuffer α)
    (hreach : Reach CommonBufferStep (commonBufferInit nodeSize maxSize) cb) (ok : Nat → Bool) (src : List α)
    (hsrc : src.length < 4294967296) :
    ∃ ret cb', commonBufferPush ok cb src = some (ret, cb') ∧
      ((ret ≠ .success → cb.Same cb') ↔ cb.FailsFirst ok src.length) := by
  obtain ⟨⟨ns, hns⟩, hnode, hmax⟩ := commonBuffer_made h1 h2 h3.le hreach
  have hbytes := hns.bytes
  rcases commonBufferPush_stores ok hns hsrc with ⟨hlarge, hpush⟩ |
    ⟨hfit, ret, cb', ns', n, hpush, hns', hnode', hmax', hcells, hend⟩
  · refine ⟨.errSize, cb, hpush, ?_⟩
    constructor
    · rintro - k - ⟨free, hfree, hle⟩
      rw [hns.getFreeCount] at hfree
      cases hfree
      omega
    · rintro - -
      exact ⟨rfl, rfl, rfl⟩
  · refine ⟨ret, cb', hpush, ?_⟩
    cases hend with
    | stored hall =>
      constructor
      · rintro - k hk - hlt
        exact absurd (hall k hk) (by omega)
      · intro _ hret
        exact absurd rfl hret
    | @failed k hk hlt =>
      constructor
      · intro hsame j hj _ _
        -- only one allocation is the first that fails
        have hjk : j = k := by
          rcases lt_trichotomy j k with hlt' | heq | hlt'
          · have := hk.1 j hlt'
            rw [hj.2] at this
            cases this
          · exact heq
          · have := hj.1 k hlt'
            rw [hk.2] at this
            cases this
        subst hjk
        have hcount := (hsame (by decide)).count
        rw [hns'.getCount, hns.getCount, hcells] at hcount
        simp only [List.length_append, List.length_map, List.length_take, Option.some.injEq] at hcount
        omega
      · intro hfirst _
        have hzero := hfirst k hk ⟨_, hns.getFreeCount, by omega⟩ hlt
        rw [hzero, List.take_zero, List.map_nil, List.append_nil] at hcells
        refine ⟨?_, ?_, ?_⟩
        · rw [hbytes, hns'.bytes, hcells]
        · rw [hns.getCount, hns'.getCount, hcells]
        · rw [hns.getFreeCount, hns'.getFreeCount, hcells, hmax']

/-- One byte in a node of two. -/
def oneBuffered : CommonBuffer Nat :=
  ((commonBufferPush (fun _ => true) (commonBufferInit 2 8) [1]).map Prod.snd).getD (commonBufferInit 2 8)

theorem oneBuffered_reach : Reach CommonBufferStep (commonBufferInit (2 : Nat) (8 : Nat)) oneBuffered :=
  (Reach.refl _).tail (@CommonBufferStep.push _ _ _ .success (fun _ => true) ⟨[1], by decide⟩ (by decide))

/-- A node of two that is full. -/
def fullTail : CommonBuffer Nat :=
  ((commonBufferPush (fun _ => true) (commonBufferInit 2 8) [1, 2]).map Prod.snd).getD (commonBufferInit 2 8)

/-- The first byte behind a full tail needs a node; where none can be made the push fails and changes nothing. -/
theorem commonBufferPush_keeps_full :
    ∃ cb', commonBufferPush (fun _ => false) fullTail [3, 4, 5] = some (.errMalloc, cb') ∧ fullTail.Same cb' := by
  have hreach : Reach CommonBufferStep (commonBufferInit (2 : Nat) (8 : Nat)) fullTail :=
    (Reach.refl _).tail (@CommonBufferStep.push _ _ _ .success (fun _ => true) ⟨[1, 2], by decide⟩ (by decide))
  obtain ⟨ret, cb', hpush, hiff⟩ := commonBufferPush_keeps 2 8 (by decide) (by decide) (by decide) fullTail hreach
    (fun _ => false) [3, 4, 5] (by decide)
  have hret : (commonBufferPush (fun _ => false) fullTail [3, 4, 5]).map Prod.fst = some .errMalloc := by decide
  rw [hpush] at hret
  obtain rfl : ret = .errMalloc := Option.some.inj hret
  have hfirst : fullTail.FailsFirst (fun _ => false) 3 := by
    intro k hk _ _
    obtain rfl : k = 0 := Nat.eq_zero_of_not_pos fun hpos => Bool.false_ne_true (hk.1 0 hpos)
    decide
  exact ⟨cb', hpush, hiff.2 hfirst (by decide)⟩

/-- Three bytes of which one fits the tail: the push fails, and that one stays. -/
theorem commonBufferPush_keeps_torn :
    Reach CommonBufferStep (commonBufferInit (2 : Nat) (8 : Nat)) oneBuffered ∧
      ∃ cb', commonBufferPush (fun _ => false) oneBuffered [2, 3, 4] = some (.errMalloc, cb') ∧
        commonBufferBytes oneBuffered = some [some 1] ∧ commonBufferBytes cb' = some [some 1, some 2] :=
  ⟨oneBuffered_reach, _, rfl, by decide, by decide⟩

end AudioPlayer

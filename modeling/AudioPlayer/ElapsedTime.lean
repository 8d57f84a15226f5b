import Mathlib
import AudioPlayer.ComPlayerOutput
import AudioPlayer.ComPlayerSeek

/-!
# The time that has been played (`src/common_player.c:302-333`, `:413-462`)

`com_player.consumed` is a `uint32_t` that counts the bytes a track has popped from `output_buffer`. It is the time
that is reported, and a request takes 0 in it for a track that has not been heard yet. 2^32 bytes are nine hours and
nineteen minutes; then it is 0 again.

| here | there |
|---|---|
| `StartsTrack`             | `com_player_start` (`common_player.c:76-90`) |
| `PlaysOn`                 | a statement of the two threads while one track plays, without a seek |
| `ComPlayerOutput.counted` | the bytes popped so far, up to the last request that was answered |
| `TimeIsExact`             | `cur_time` of `com_player_get_progress` is their time |
-/

namespace AudioPlayer
open Lib

/-- Bytes of a second. -/
def pcmByteRate : Int := comPlayerFixedChannels * 2 * comPlayerFixedSamplerate

def StartsTrack (s t : ComPlayerOutput) : Prop :=
  s.convert = .idle ∧ s.request = .idle ∧ t = { s with inputFrames := 0, consumed := 0 }

def PlaysOn (s : ComPlayerOutput) (a : Unit) (t : ComPlayerOutput) : Prop :=
  PcmStep s a t ∧ t.request ≠ .clear ∧ ¬ StartsTrack s t

/-- While `ring_buffer_pop` moves bytes, they are not added yet (`common_player.c:442-445`). -/
def ComPlayerOutput.counted (s : ComPlayerOutput) : Nat :=
  match s.request with
  | .pop _ _ _ _ _ before => before
  | _ => s.spsc.popped.length

/-- Whatever it is asked for, `com_player_get_progress` reports the time of `n` bytes. -/
def TimeIsExact (s : ComPlayerOutput) (n : Nat) : Prop :=
  ∀ type info curPos totalLen curTime allTime,
    comPlayerGetProgress type info s.consumed curPos totalLen = some (curTime, allTime) → curTime = n / pcmByteRate

/-- No later report is of an earlier time. -/
def TimeGoesOn (s t : ComPlayerOutput) : Prop :=
  ∀ type info info' curPos curPos' totalLen totalLen' curTime curTime' allTime allTime',
    comPlayerGetProgress type info s.consumed curPos totalLen = some (curTime, allTime) →
    comPlayerGetProgress type info' t.consumed curPos' totalLen' = some (curTime', allTime') → curTime ≤ curTime'

/-- The step begins a pop behind silence. -/
def FillsSilence (s t : ComPlayerOutput) : Prop :=
  ∃ size silence ringCount ringFree outputDone before,
    s.request = .ready size ringCount ringFree ∧
    t.request = .pop size silence ringCount ringFree outputDone before ∧ 0 < silence

/-- A track plays, and the counter is a `uint32_t`. -/
structure Playing (s : ComPlayerOutput) : Prop where
  out     : s.Inv
  playing : s.request ≠ .clear
  before  : s.counted ≤ s.spsc.popped.length
  word    : 0 ≤ s.consumed ∧ s.consumed < 4294967296

/-- The bytes that were counted from `s` to `t` were added, in 32 bits. -/
structure Counts (s t : ComPlayerOutput) : Prop where
  playing  : Playing t
  le       : s.counted ≤ t.counted
  consumed : t.consumed = toU32 (s.consumed + (t.counted - s.counted : Nat))

section
variable {s t u : ComPlayerOutput} {n : Nat}

theorem toU32_add (a b : Int) : toU32 (toU32 a + b) = toU32 (a + b) := Int.emod_add_emod a 4294967296 b

theorem ComPlayerOutput.counted_of_pop {size silence ringCount ringFree : Int} {outputDone : Bool} {before : Nat}
    (h : s.request = .pop size silence ringCount ringFree outputDone before) : s.counted = before := by
  unfold counted
  rw [h]

theorem Playing.refl (h : Playing s) : Counts s s := by
  refine ⟨h, le_rfl, ?_⟩
  rw [Nat.sub_self, Nat.cast_zero, add_zero, toU32_eq h.word.1 h.word.2]

theorem Counts.trans (h : Counts s t) (h' : Counts t u) : Counts s u := by
  have hle := h.le
  have hle' := h'.le
  refine ⟨h'.playing, hle.trans hle', ?_⟩
  rw [h'.consumed, h.consumed, toU32_add]
  congr 1
  omega

/-- A statement that neither counts nor adds. -/
theorem Playing.same (h : Playing s) (ht : t.Inv) (hplaying : t.request ≠ .clear) (hcounted : t.counted = s.counted)
    (hpopped : s.spsc.popped.length ≤ t.spsc.popped.length) (hconsumed : t.consumed = s.consumed) : Counts s t := by
  refine ⟨⟨ht, hplaying, ?_, ?_⟩, hcounted.ge, ?_⟩
  · rw [hcounted]
    exact h.before.trans hpopped
  · rw [hconsumed]
    exact h.word
  · rw [hconsumed, hcounted, Nat.sub_self, Nat.cast_zero, add_zero, toU32_eq h.word.1 h.word.2]

/-- One that leaves the request and what was popped alone. -/
theorem Playing.aside (h : Playing s) (ht : t.Inv) (hrequest : t.request = s.request)
    (hpopped : t.spsc.popped = s.spsc.popped) (hconsumed : t.consumed = s.consumed) : Counts s t := by
  have hcounted : t.counted = s.counted := by
    unfold ComPlayerOutput.counted
    rw [hrequest, hpopped]
  refine h.same ht ?_ hcounted ?_ hconsumed
  · rw [hrequest]
    exact h.playing
  · rw [hpopped]

/-- Outside a pop the consumer has nothing to do. -/
theorem Playing.idle (h : Playing s)
    (hpc : ∀ size silence ringCount ringFree outputDone before,
      s.request ≠ .pop size silence ringCount ringFree outputDone before) : s.spsc.consumer = .idle := by
  have hrequest := h.out.request
  cases hs : s.request with
  | pop size silence ringCount ringFree outputDone before => exact absurd hs (hpc _ _ _ _ _ _)
  | clear => exact absurd hs h.playing
  | idle =>
    rw [hs] at hrequest
    exact hrequest
  | entered size =>
    rw [hs] at hrequest
    exact hrequest.1
  | counted size ringCount =>
    rw [hs] at hrequest
    exact hrequest.1
  | ready size ringCount ringFree =>
    rw [hs] at hrequest
    exact hrequest.1

/-- A statement of `ring_buffer_pop`. -/
theorem Playing.consumer (h : Playing s) (ht : t.Inv) (hrequest : t.request = s.request)
    (hpopped : t.spsc.popped = s.spsc.popped ++ s.spsc.consumer.taken s.spsc.ring)
    (hconsumed : t.consumed = s.consumed) : Counts s t := by
  by_cases hpc : ∀ size silence ringCount ringFree outputDone before,
      s.request ≠ .pop size silence ringCount ringFree outputDone before
  · refine h.aside ht hrequest ?_ hconsumed
    rw [hpopped, h.idle hpc]
    exact List.append_nil _
  · push Not at hpc
    obtain ⟨size, silence, ringCount, ringFree, outputDone, before, hs⟩ := hpc
    have hcounted : t.counted = s.counted := by
      rw [ComPlayerOutput.counted_of_pop hs, ComPlayerOutput.counted_of_pop (hrequest.trans hs)]
    refine h.same ht ?_ hcounted ?_ hconsumed
    · rw [hrequest]
      exact h.playing
    · rw [hpopped, List.length_append]
      exact Nat.le_add_right _ _

/-- **What a statement of a playing track does to the counter.** -/
theorem PlaysOn.counts (hstep : PlaysOn s () t) (h : Playing s) : Counts s t := by
  obtain ⟨hstep, hplaying, hstart⟩ := hstep
  have ht := h.out.step hstep
  cases hstep with
  | output _ _ => exact h.aside ht rfl rfl rfl
  | free _ _ => exact h.aside ht rfl rfl rfl
  | unused _ _ => exact h.aside ht rfl rfl rfl
  | process _ _ _ hpush =>
    cases hpush
    exact h.aside ht rfl rfl rfl
  | pushed _ _ => exact h.aside ht rfl rfl rfl
  | producer hproducer =>
    cases hproducer
    exact h.aside ht rfl rfl rfl
  | consumer hconsumer =>
    cases hconsumer
    exact h.consumer ht rfl rfl rfl
  | request hidle _ _ _ =>
    refine h.same ht hplaying ?_ le_rfl rfl
    unfold ComPlayerOutput.counted
    rw [hidle]
  | ringCount hpc _ =>
    refine h.same ht hplaying ?_ le_rfl rfl
    unfold ComPlayerOutput.counted
    rw [hpc]
  | ringFree hpc _ =>
    refine h.same ht hplaying ?_ le_rfl rfl
    unfold ComPlayerOutput.counted
    rw [hpc]
  | noData hpc _ =>
    refine h.same ht hplaying ?_ le_rfl rfl
    unfold ComPlayerOutput.counted
    rw [hpc]
  | pop hpc _ _ hpop =>
    cases hpop
    refine h.same ht hplaying ?_ le_rfl rfl
    unfold ComPlayerOutput.counted
    rw [hpc]
  | @popped size silence ringCount ringFree outputDone enabled before hpc hret =>
    -- what was popped since the pop began is counted and added
    have hs := ComPlayerOutput.counted_of_pop hpc
    have hbefore := h.before
    rw [hs] at hbefore
    refine ⟨⟨ht, hplaying, le_rfl, Int.emod_nonneg _ (by decide), Int.emod_lt_of_pos _ (by decide)⟩, ?_, ?_⟩
    · rw [hs]
      exact hbefore
    · rw [hs]
      simp [ComPlayerOutput.counted]
  | seek _ _ => exact absurd rfl hplaying
  | cleared hpc _ => exact absurd hpc h.playing
  | start hconvert hrequest => exact absurd ⟨hconvert, hrequest, rfl⟩ hstart

theorem counts_run (h : Playing s) (hrun : Reach PlaysOn s t) : Counts s t :=
  hrun.invariant (fun _ _ _ hs hstep => hs.trans (hstep.counts hs.playing)) h.refl

/-- `cur_time` is read off the counter. -/
theorem comPlayerGetProgress_curTime {type : ComPlayerType} {info : AudioDecoderInfo}
    {consumed curPos totalLen curTime allTime : Int}
    (h : comPlayerGetProgress type info consumed curPos totalLen = some (curTime, allTime)) :
    curTime = toI32 (consumed / comPlayerFixedChannels / 2 / comPlayerFixedSamplerate) := by
  unfold comPlayerGetProgress at h
  split at h
  · cases h
  split at h
  · cases h
  · exact (Prod.mk.inj (Option.some.inj h)).1.symm

/-- Three divisions are one. -/
theorem elapsed_eq (n : Nat) :
    toI32 (toU32 n / comPlayerFixedChannels / 2 / comPlayerFixedSamplerate) = toU32 n / pcmByteRate := by
  have hpos : 0 ≤ toU32 (n : Int) := Int.emod_nonneg _ (by decide)
  have hlt := Int.emod_lt_of_pos (n : Int) (show (0 : Int) < 4294967296 by decide)
  have hall : toU32 (n : Int) / comPlayerFixedChannels / 2 / comPlayerFixedSamplerate = toU32 n / 128000 := by
    rw [Int.ediv_ediv_of_nonneg (by decide), Int.ediv_ediv_of_nonneg (by decide)]
    rfl
  rw [hall, show pcmByteRate = 128000 from rfl]
  unfold toU32 at hpos ⊢
  rw [toI32_eq (by omega) (by omega)]

/-- The counter is right until it wraps. -/
theorem timeIsExact_iff (h : s.consumed = toU32 n) : TimeIsExact s n ↔ n < 4294967296 := by
  constructor
  · intro hexact
    have hget : comPlayerGetProgress .aac ⟨0, 1, 1, 1⟩ s.consumed 0 1 = some
        (toI32 (s.consumed / comPlayerFixedChannels / 2 / comPlayerFixedSamplerate), 8) := rfl
    have htime := hexact _ _ _ _ _ _ hget
    rw [h, elapsed_eq, show pcmByteRate = 128000 from rfl, toU32] at htime
    omega
  · intro hlt type info curPos totalLen curTime allTime hget
    rw [comPlayerGetProgress_curTime hget, h, elapsed_eq, toU32_eq (by omega) (by omega)]

/-- Silence comes where the counter is 0. -/
theorem FillsSilence.consumed (h : FillsSilence s t) (hstep : PlaysOn s () t) : s.consumed ≤ 0 := by
  obtain ⟨size, silence, ringCount, ringFree, outputDone, before, hs, ht, hpos⟩ := h
  obtain ⟨hstep, -, -⟩ := hstep
  cases hstep with
  | pop hpc _ _ _ =>
    obtain ⟨-, hsilence, -⟩ := RequestPc.pop.inj ht
    by_contra hne
    rw [← hsilence, requestSilence, if_neg (fun hz => hne hz.1)] at hpos
    exact absurd hpos (lt_irrefl 0)
  | request _ _ _ _ => cases ht
  | ringCount _ _ => cases ht
  | ringFree _ _ => cases ht
  | noData _ _ => cases ht
  | popped _ _ => cases ht
  | seek _ _ => cases ht
  | cleared _ _ => cases ht
  | output _ _ => cases hs.symm.trans ht
  | free _ _ => cases hs.symm.trans ht
  | unused _ _ => cases hs.symm.trans ht
  | process _ _ _ _ => cases hs.symm.trans ht
  | pushed _ _ => cases hs.symm.trans ht
  | producer _ => cases hs.symm.trans ht
  | consumer _ => cases hs.symm.trans ht
  | start _ _ => cases hs.symm.trans ht

/-- What a start leaves plays, with nothing counted yet. -/
theorem StartsTrack.playing {r : RingBuffer Byte} {p : ComPlayerOutput}
    (hinit : ringBufferInit comPlayerOutputSize = some r) (hp : Reach PcmStep { spsc := RingSpsc.started r } p)
    (h : StartsTrack p s) : Playing s ∧ s.consumed = 0 := by
  obtain ⟨hconvert, hrequest, rfl⟩ := h
  have hinv : p.Inv := comPlayerOutput_inv hinit hp
  have hidle : ({ p with inputFrames := 0, consumed := 0 } : ComPlayerOutput).counted = p.spsc.popped.length := by
    simp only [ComPlayerOutput.counted, hrequest]
  refine ⟨⟨hinv.step (.start hconvert hrequest), ?_, hidle.le, le_rfl, show (0 : Int) < 4294967296 by decide⟩, rfl⟩
  rw [hrequest]
  intro h
  cases h

/-- **The time that is reported is exact, does not go back, and silence comes before the first byte only, exactly
while fewer than 2^32 bytes have been popped.** -/
theorem comPlayer_elapsed {r : RingBuffer Byte} {p s₀ : ComPlayerOutput}
    (hinit : ringBufferInit comPlayerOutputSize = some r) (hp : Reach PcmStep { spsc := RingSpsc.started r } p)
    (hstart : StartsTrack p s₀) (hs : Reach PlaysOn s₀ s) (ht : Reach PlaysOn s t) :
    (TimeIsExact t (t.counted - s₀.counted) ∧ TimeGoesOn s t ∧
      ∀ u, PlaysOn t () u → FillsSilence t u → t.counted = s₀.counted) ↔
      t.counted - s₀.counted < 4294967296 := by
  obtain ⟨hplaying, hzero⟩ := hstart.playing hinit hp
  have h₁ := counts_run hplaying hs
  have h₂ := counts_run h₁.playing ht
  have hle := h₂.le
  have hcount := (h₁.trans h₂).consumed
  have hcount₁ := h₁.consumed
  have hle₀ := (h₁.trans h₂).le
  rw [hzero, zero_add] at hcount hcount₁
  constructor
  · rintro ⟨hexact, -, -⟩
    exact (timeIsExact_iff hcount).1 hexact
  · intro hlt
    refine ⟨(timeIsExact_iff hcount).2 hlt, ?_, ?_⟩
    · intro type info info' curPos curPos' totalLen totalLen' curTime curTime' allTime allTime' hget hget'
      rw [comPlayerGetProgress_curTime hget, comPlayerGetProgress_curTime hget', hcount, hcount₁, elapsed_eq,
        elapsed_eq, toU32_eq (by omega) (by omega), toU32_eq (by omega) (by omega)]
      exact Int.ediv_le_ediv (by decide) (by omega)
    · intro u hstep hsilence
      have hcons := hsilence.consumed hstep
      rw [hcount, toU32_eq (by omega) (by omega)] at hcons
      omega

end

/-! ## A track that plays on -/

/-- How many statements a push has before it at most. -/
def SpscPush.left {α : Type} : SpscPush α → Nat
  | .idle => 0
  | .store _ _ => 1
  | .copyRest _ _ _ => 2
  | .copy _ _ _ => 3
  | .sized _ _ => 4
  | .entered _ => 5

def SpscPop.left {α : Type} : SpscPop α → Nat
  | .idle => 0
  | .store _ _ => 1
  | .copyRest _ _ _ => 2
  | .copy _ _ => 3
  | .sized _ _ _ => 4
  | .entered _ _ => 5
  | .clearStore _ => 1
  | .clear => 2

/-- A pop that will have popped `N` bytes when it returns, if nothing is pushed. -/
def SpscPop.Gets {α : Type} (W R N : Nat) : SpscPop α → Prop
  | .idle => R = N
  | .entered _ size => ∃ k : Nat, size = k ∧ N = R + min (W - R) k
  | .sized _ size _ => ∃ k : Nat, size = k ∧ N = R + min (W - R) k
  | .copy _ count => (N : Int) = R + count
  | .copyRest _ _ count => (N : Int) = R + count
  | .store _ count => (N : Int) = R + count
  | .clear => False
  | .clearStore _ => False

section
variable {s t : ComPlayerOutput} {N : Nat}

theorem PushTurn.left {α : Type} {S W R : Nat} {p p' : SpscPush α} {xs : List α} (h : PushTurn S W R p p' xs)
    (hp : p.left ≠ 0) : p'.left < p.left := by
  cases h with
  | idle => exact absurd rfl hp
  | _ => simp [SpscPush.left]

theorem PopTurn.gets {α : Type} {S W R k : Nat} {c c' : SpscPop α} (h : PopTurn S W R c c' k) (hc : c.Gets W R N)
    (hleft : c.left ≠ 0) : c'.left < c.left ∧ c'.Gets W (R + k) N := by
  cases h with
  | idle => exact absurd rfl hleft
  | entered => exact ⟨by simp [SpscPop.left], hc⟩
  | @sized dst k tmp =>
    obtain ⟨k', hk, hN⟩ := hc
    obtain rfl := Int.ofNat.inj hk
    cases dst with
    | false => exact ⟨by simp [SpscPop.left], by simp [SpscPop.Gets, hN]⟩
    | true => exact ⟨by simp [SpscPop.left], by simp [SpscPop.Gets, hN]⟩
  | copy => exact ⟨by simp [SpscPop.left], hc⟩
  | copyMore => exact ⟨by simp [SpscPop.left], hc⟩
  | copyRest => exact ⟨by simp [SpscPop.left], hc⟩
  | store =>
    have hc : (N : Int) = R + _ := hc
    exact ⟨by simp [SpscPop.left], by simp only [SpscPop.Gets]; omega⟩
  | clear => exact hc.elim
  | clearStore => exact hc.elim

/-- A statement that moves one of the threads. -/
theorem PcmStep.playsOn (h : PcmStep s () t) (hplaying : t.request ≠ .clear)
    (hmoves : s.convert ≠ t.convert ∨ s.request ≠ t.request) : PlaysOn s () t := by
  refine ⟨h, hplaying, ?_⟩
  rintro ⟨-, -, rfl⟩
  rcases hmoves with hne | hne
  · exact hne rfl
  · exact hne rfl

/-- Where the decoder is in a push, it returns from it. -/
theorem push_returns (h : s.Inv) {call : ConvertCall} (hpush : s.convert = .push call)
    (hplaying : s.request ≠ .clear) : ∃ t, Reach PlaysOn s t ∧ t = { s with spsc := t.spsc } ∧
      t.spsc.producer = .idle ∧ t.spsc.consumer = s.spsc.consumer ∧ t.spsc.popped = s.spsc.popped := by
  generalize hn : s.spsc.producer.left = n
  induction n using Nat.strong_induction_on generalizing s with
  | _ n ih =>
    by_cases hidle : s.spsc.producer.left = 0
    · refine ⟨s, .refl s, rfl, ?_, rfl, rfl⟩
      cases hp : s.spsc.producer with
      | idle => rfl
      | _ => rw [hp] at hidle; simp [SpscPush.left] at hidle
    · obtain ⟨r, p, hstep, -, -⟩ := pushStep_spec h.ring.published h.ring.producer
      have hless := (pushStep_turn h.ring.published h.ring.producer hstep).left hidle
      have hone : PcmStep s () { s with spsc := { s.spsc with
          ring := r, producer := p, pushed := s.spsc.pushed ++ s.spsc.producer.accepted } } :=
        .producer (.producer hstep)
      have hplays : PlaysOn s () _ := ⟨hone, hplaying, fun hstart => by cases hpush.symm.trans hstart.1⟩
      obtain ⟨t, hrun, hrest⟩ := ih p.left (by omega) (h.step hone) hpush hplaying rfl
      exact ⟨t, ((Reach.refl s).tail hplays).trans hrun, hrest⟩

/-- Where a request is in a pop, it returns from it with what there was. -/
theorem pop_returns (h : s.Inv) {size silence ringCount ringFree : Int} {outputDone : Bool} {before : Nat}
    (hpop : s.request = .pop size silence ringCount ringFree outputDone before)
    (hgets : s.spsc.consumer.Gets s.spsc.pushed.length s.spsc.popped.length N) :
    ∃ t, Reach PlaysOn s t ∧ t = { s with spsc := t.spsc } ∧ t.spsc.consumer = .idle ∧
      t.spsc.pushed = s.spsc.pushed ∧ t.spsc.popped.length = N := by
  generalize hn : s.spsc.consumer.left = n
  induction n using Nat.strong_induction_on generalizing s with
  | _ n ih =>
    by_cases hidle : s.spsc.consumer.left = 0
    · have hret : s.spsc.consumer = .idle := by
        cases hc : s.spsc.consumer with
        | idle => rfl
        | _ => rw [hc] at hidle; simp [SpscPop.left] at hidle
      rw [hret] at hgets
      exact ⟨s, .refl s, rfl, hret, rfl, hgets⟩
    · obtain ⟨r, c, hstep, -⟩ := popStep_spec h.ring.published h.ring.consumer
      obtain ⟨hless, hgets'⟩ := (popStep_turn h.ring.published h.ring.consumer hstep).gets hgets hidle
      have hone : PcmStep s () { s with spsc := { s.spsc with
          ring := r, consumer := c, popped := s.spsc.popped ++ s.spsc.consumer.taken s.spsc.ring } } :=
        .consumer (.consumer hstep)
      have hplaying : s.request ≠ .clear := by
        rw [hpop]
        intro h
        cases h
      have hplays : PlaysOn s () _ := ⟨hone, hplaying, fun hstart => by cases hpop.symm.trans hstart.2.1⟩
      obtain ⟨t, hrun, hrest⟩ := ih c.left (by omega) (h.step hone) hpop
        (by rw [List.length_append]; exact hgets') rfl
      exact ⟨t, ((Reach.refl s).tail hplays).trans hrun, hrest⟩

/-- Nothing is in the ring or in the converter, and no thread in a call. -/
structure Drawn (s : ComPlayerOutput) : Prop where
  out     : s.Inv
  convert : s.convert = .idle
  request : s.request = .idle
  inputs  : s.inputFrames = 0
  empty   : s.spsc.pushed.length = s.spsc.popped.length

/-- The bytes that were pushed are those of the frames where no push is going on. -/
theorem ComPlayerOutput.Inv.pushed_eq (h : s.Inv) (hidle : s.spsc.producer = .idle) :
    s.spsc.pushed = outputBytes s.frames := by
  have hstream := h.stream
  rw [hidle] at hstream
  rw [← hstream]
  exact (List.append_nil _).symm

/-- The decoder makes a frame. -/
theorem Drawn.decodes (h : Drawn s) : ∃ t, Reach PlaysOn s t ∧ t.Inv ∧ t.convert = .idle ∧ t.request = .idle ∧
    t.inputFrames = 0 ∧ t.spsc.pushed.length = s.spsc.pushed.length + 4 ∧ t.spsc.popped = s.spsc.popped := by
  obtain ⟨hinv, hconvert, hrequest, hinputs, hempty⟩ := h
  have hplaying : s.request ≠ .clear := by
    rw [hrequest]
    intro h
    cases h
  have hproducer : s.spsc.producer = .idle := by
    have hok := hinv.convert
    rw [hconvert] at hok
    exact hok
  have hfree : ringBufferGetFreeCount s.spsc.ring = some 32768 := by
    rw [hinv.ring.published.getFreeCount, hempty, Nat.sub_self]
    rfl
  have h1 : PcmStep s () { s with convert := .loop ⟨2, 4, 0⟩ } := .output hconvert (.inr rfl)
  have h2 : PcmStep { s with convert := .loop ⟨2, 4, 0⟩ } () { s with convert := .convert ⟨2, 4, 0⟩ 8192 } :=
    .free (s := { s with convert := .loop ⟨2, 4, 0⟩ }) rfl hfree
  have hpush : SpscStep s.spsc (.push ⟨outputBytes [⟨0, 0⟩], by decide⟩)
      { s.spsc with producer := .entered (outputBytes [⟨0, 0⟩]) } := .push hproducer
  have h3 : PcmStep { s with convert := .convert ⟨2, 4, 0⟩ 8192 } () { s with
      convert := .push ⟨2, 4, 4⟩
      inputFrames := 0
      spsc := { s.spsc with producer := .entered (outputBytes [⟨0, 0⟩]) }
      frames := s.frames ++ [⟨0, 0⟩] } := by
    have hinput : convertInput ⟨2, 4, 0⟩ s.inputFrames = (⟨2, 4, 4⟩, 1) := by
      rw [hinputs]
      rfl
    have hstep := PcmStep.process (s := { s with convert := .convert ⟨2, 4, 0⟩ 8192 }) rfl
      (show (0 : Int) < 1 by decide) (show (([⟨0, 0⟩] : List PcmFrame).length : Int) ≤ _ by decide) hpush
    dsimp only at hstep
    rw [hinput] at hstep
    exact hstep
  have hinv3 := ((hinv.step h1).step h2).step h3
  obtain ⟨t, hrun, ht, hret, hconsumer, hpopped⟩ := push_returns hinv3 rfl hplaying
  have hinvt : t.Inv := hrun.invariant (fun _ _ _ h hstep => h.step hstep.1) hinv3
  have h4 : PcmStep t () { t with convert := .idle } := by
    have hpushed : t.convert = .push ⟨2, 4, 4⟩ := by rw [ht]
    have hstep := PcmStep.pushed hpushed hret
    exact hstep
  have hp1 := h1.playsOn hplaying (.inl (by rw [hconvert]; intro h; cases h))
  have hp2 := h2.playsOn hplaying (.inl (by intro h; cases h))
  have hp3 := h3.playsOn hplaying (.inl (by intro h; cases h))
  have hplaying' : t.request ≠ .clear := by
    rw [ht]
    exact hplaying
  have hp4 := h4.playsOn hplaying' (.inl (by rw [ht]; intro h; cases h))
  refine ⟨_, ((((Reach.refl s).tail hp1).tail hp2).tail hp3).trans (hrun.tail hp4), hinvt.step h4, rfl, ?_, ?_, ?_,
    hpopped⟩
  · rw [ht]
    exact hrequest
  · rw [ht]
  · show t.spsc.pushed.length = s.spsc.pushed.length + 4
    rw [hinvt.pushed_eq hret, hinv.pushed_eq hproducer, ht]
    simp only [length_outputBytes, List.length_append, List.length_cons, List.length_nil]
    omega

/-- A request takes the frame. -/
theorem request_takes (h : s.Inv) (hrequest : s.request = .idle)
    (hlength : s.spsc.pushed.length = s.spsc.popped.length + 4) :
    ∃ t, Reach PlaysOn s t ∧ t.convert = s.convert ∧ t.request = .idle ∧ t.inputFrames = s.inputFrames ∧
      t.spsc.pushed = s.spsc.pushed ∧ t.spsc.popped.length = s.spsc.popped.length + 4 := by
  have hconsumer : s.spsc.consumer = .idle := by
    have hok := h.request
    rw [hrequest] at hok
    exact hok
  have hpub := h.ring.published
  have hcount : ringBufferGetCount s.spsc.ring = some 4 := by
    rw [hpub.getCount, hlength, Nat.add_sub_cancel_left]
    rfl
  have hfree : ringBufferGetFreeCount s.spsc.ring = some 32764 := by
    rw [hpub.getFreeCount, hlength, Nat.add_sub_cancel_left]
    rfl
  -- at most a third of the request is silence
  have hsilence : 0 ≤ requestSilence s.consumed 32768 4 ∧ requestSilence s.consumed 32768 4 ≤ 10920 := by
    unfold requestSilence
    split
    · decide
    · decide
  obtain ⟨k, hk⟩ : ∃ k : Nat, (k : Int) = 32768 - requestSilence s.consumed 32768 4 :=
    ⟨_, Int.toNat_of_nonneg (by omega)⟩
  have h1 : PcmStep s () { s with request := .entered 32768 } :=
    .request hrequest (by decide) (by decide) (by decide)
  have h2 : PcmStep { s with request := .entered 32768 } () { s with request := .counted 32768 4 } :=
    .ringCount (s := { s with request := .entered 32768 }) rfl hcount
  have h3 : PcmStep { s with request := .counted 32768 4 } () { s with request := .ready 32768 4 32764 } :=
    .ringFree (s := { s with request := .counted 32768 4 }) rfl hfree
  have hcall : SpscStep s.spsc (.pop true ⟨k, by omega⟩) { s.spsc with consumer := .entered true k } := .pop hconsumer
  have h4 : PcmStep { s with request := .ready 32768 4 32764 } () { s with
      spsc := { s.spsc with consumer := .entered true k }
      request := .pop 32768 (requestSilence s.consumed 32768 4) 4 32764 false s.spsc.popped.length } := by
    have hsize : (((⟨k, by omega⟩ : Fin 4294967296) : Nat) : Int) =
        toU32 (32768 - requestSilence s.consumed 32768 4) := by
      rw [← hk, toU32_eq (by omega) (by omega)]
    exact .pop (s := { s with request := .ready 32768 4 32764 }) rfl (by simp) hsize hcall
  have hinv4 := (((h.step h1).step h2).step h3).step h4
  obtain ⟨t, hrun, ht, hret, hpushed, hpopped⟩ := pop_returns (N := s.spsc.popped.length + 4) hinv4 rfl
    ⟨k, rfl, by dsimp only; omega⟩
  have hpc : t.request = .pop 32768 (requestSilence s.consumed 32768 4) 4 32764 false s.spsc.popped.length := by
    rw [ht]
  have h5 := @PcmStep.popped t _ _ _ _ _ true _ hpc hret
  have hp1 := h1.playsOn (by intro h; cases h) (.inr (by rw [hrequest]; intro h; cases h))
  have hp2 := h2.playsOn (by intro h; cases h) (.inr (by intro h; cases h))
  have hp3 := h3.playsOn (by intro h; cases h) (.inr (by intro h; cases h))
  have hp4 := h4.playsOn (by intro h; cases h) (.inr (by intro h; cases h))
  have hp5 := h5.playsOn (by intro h; cases h) (.inr (by rw [hpc]; intro h; cases h))
  refine ⟨_, (((((Reach.refl s).tail hp1).tail hp2).tail hp3).tail hp4).trans (hrun.tail hp5), ?_, rfl, ?_, hpushed,
    hpopped⟩
  · rw [ht]
  · rw [ht]

/-- One frame more is heard. -/
theorem Drawn.frame (h : Drawn s) : ∃ t, Reach PlaysOn s t ∧ Drawn t ∧
    t.spsc.popped.length = s.spsc.popped.length + 4 := by
  obtain ⟨t, hrun, hinv, hconvert, hrequest, hinputs, hpushed, hpopped⟩ := h.decodes
  have hempty := h.empty
  obtain ⟨u, hrun', hconvert', hrequest', hinputs', hpushed', hpopped'⟩ :=
    request_takes hinv hrequest (by rw [hpushed, hpopped]; omega)
  have hinv' : u.Inv := hrun'.invariant (fun _ _ _ h hstep => h.step hstep.1) hinv
  refine ⟨u, hrun.trans hrun', ⟨hinv', ?_, hrequest', ?_, ?_⟩, ?_⟩
  · rw [hconvert', hconvert]
  · rw [hinputs', hinputs]
  · rw [hpushed', hpopped', hpushed, hpopped]
    omega
  · rw [hpopped', hpopped]

/-- And any number of them. -/
theorem Drawn.frames (h : Drawn s) (n : Nat) : ∃ t, Reach PlaysOn s t ∧ Drawn t ∧
    t.spsc.popped.length = s.spsc.popped.length + 4 * n := by
  induction n with
  | zero => exact ⟨s, .refl s, h, rfl⟩
  | succ n ih =>
    obtain ⟨t, hrun, hdrawn, hpopped⟩ := ih
    obtain ⟨u, hrun', hdrawn', hpopped'⟩ := hdrawn.frame
    exact ⟨u, hrun.trans hrun', hdrawn', by rw [hpopped', hpopped]; omega⟩

theorem Drawn.counted (h : Drawn s) : s.counted = s.spsc.popped.length := by
  unfold ComPlayerOutput.counted
  rw [h.request]

/-- The first track of a player that was just made. -/
theorem drawn_first {r : RingBuffer Byte} (hinit : ringBufferInit comPlayerOutputSize = some r) :
    StartsTrack { spsc := RingSpsc.started r } { spsc := RingSpsc.started r } ∧
      Drawn { spsc := RingSpsc.started r } ∧ ({ spsc := RingSpsc.started r } : ComPlayerOutput).counted = 0 :=
  ⟨⟨rfl, rfl, rfl⟩, ⟨comPlayerOutput_inv hinit (Reach.refl _), rfl, rfl, rfl, rfl⟩, rfl⟩

/-- Behind 40000 frames, a second and a quarter of a track, 24000 more make it two. -/
theorem comPlayer_elapsed_seconds : ∃ s t : ComPlayerOutput, Reach PlaysOn s t ∧ s.counted = 160000 ∧
    t.counted = 256000 ∧ TimeIsExact t 256000 ∧ TimeGoesOn s t := by
  obtain ⟨r, hinit, -⟩ := @ringBufferInit_published Byte comPlayerOutputSize (by decide)
  obtain ⟨hstart, hdrawn, h0⟩ := drawn_first hinit
  obtain ⟨s, hrun, hdrawn', hpopped⟩ := hdrawn.frames 40000
  obtain ⟨t, hrun', hdrawn'', hpopped'⟩ := hdrawn'.frames 24000
  have hnone : ({ spsc := RingSpsc.started r } : ComPlayerOutput).spsc.popped.length = 0 := rfl
  have hs : s.counted = 160000 := by
    rw [hdrawn'.counted, hpopped, hnone]
  have ht : t.counted = 256000 := by
    rw [hdrawn''.counted, hpopped', hpopped, hnone]
  have hexact := (comPlayer_elapsed hinit (Reach.refl _) hstart hrun hrun').2 (by rw [ht, h0]; decide)
  rw [ht, h0, Nat.sub_zero] at hexact
  exact ⟨s, t, hrun', hs, ht, hexact.1, hexact.2.1⟩

/-- After nine hours and nineteen minutes, 2^32 bytes, the time is 0 again, and a request that finds less than a third
of a block begins with silence. -/
theorem comPlayer_elapsed_wraps : ∃ (r : RingBuffer Byte) (s₀ s t : ComPlayerOutput),
    ringBufferInit comPlayerOutputSize = some r ∧ StartsTrack { spsc := RingSpsc.started r } s₀ ∧ Reach PlaysOn s₀ s ∧
      Reach PlaysOn s t ∧ s₀.counted = 0 ∧ s.counted = 4294967292 ∧ t.counted = 4294967296 ∧
      comPlayerGetProgress .aac ⟨0, 44100, 128000, 2⟩ s.consumed 0 100000000 = some (33554, 6250) ∧
      comPlayerGetProgress .aac ⟨0, 44100, 128000, 2⟩ t.consumed 0 100000000 = some (0, 6250) ∧
      ¬ TimeIsExact t 4294967296 ∧ ¬ TimeGoesOn s t ∧ requestSilence t.consumed 4096 0 = 1364 := by
  obtain ⟨r, hinit, -⟩ := @ringBufferInit_published Byte comPlayerOutputSize (by decide)
  obtain ⟨hstart, hdrawn, h0⟩ := drawn_first hinit
  obtain ⟨s, hrun, hdrawn', hpopped⟩ := hdrawn.frames 1073741823
  obtain ⟨t, hrun', hdrawn'', hpopped'⟩ := hdrawn'.frame
  have hnone : ({ spsc := RingSpsc.started r } : ComPlayerOutput).spsc.popped.length = 0 := rfl
  have hs : s.counted = 4294967292 := by
    rw [hdrawn'.counted, hpopped, hnone]
  have ht : t.counted = 4294967296 := by
    rw [hdrawn''.counted, hpopped', hpopped, hnone]
  obtain ⟨hplaying, hzero⟩ := hstart.playing hinit (Reach.refl _)
  have hcounts := counts_run hplaying hrun
  have hconsumed : s.consumed = 4294967292 := by
    rw [hcounts.consumed, hzero, hs, h0]
    decide
  have hconsumed' : t.consumed = 0 := by
    rw [(hcounts.trans (counts_run hcounts.playing hrun')).consumed, hzero, ht, h0]
    decide
  have hget : comPlayerGetProgress .aac ⟨0, 44100, 128000, 2⟩ s.consumed 0 100000000 = some (33554, 6250) := by
    rw [hconsumed]
    decide
  have hget' : comPlayerGetProgress .aac ⟨0, 44100, 128000, 2⟩ t.consumed 0 100000000 = some (0, 6250) := by
    rw [hconsumed']
    decide
  refine ⟨r, _, s, t, hinit, hstart, hrun, hrun', h0, hs, ht, hget, hget', ?_, ?_, ?_⟩
  · intro hexact
    exact absurd (hexact _ _ _ _ _ _ hget') (by decide)
  · intro hgoes
    exact absurd (hgoes _ _ _ _ _ _ _ _ _ _ _ hget hget') (by decide)
  · rw [hconsumed']
    decide

end

end AudioPlayer

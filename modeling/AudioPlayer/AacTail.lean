import Mathlib
import AudioPlayer.DecoderCallbacks

/-!
# The last window of an aac file (`src/aac_decoder.c:285-383`)

A poll tops its window up to 4608 bytes and decodes one frame of it. When the file has ended the input
callback returns 0: the poll pauses before it decodes, and the next one finds `input_done` and sets
`output_done`, whatever the window still holds. `mp3_decoder_run_poll` asks for input only when the window
holds no frame any more.

| here | there |
|---|---|
| `AacSourceAct.Delivers` | `audio_file_read` gives positive portions and 0 at the end, `NeAACDecDecode` no error |
| `DrainedAtEnd`          | `input_remain` is 0 when `com_player_set_done` is called |
| `AacSource.Tally`       | what was obtained is consumed or in `input_buffer` |
-/

namespace AudioPlayer
open Lib

/-- In a poll: the file gives a portion that fits, or 0 at its end; a frame is a part of the window. -/
def AacSourceAct.Delivers (s : DecoderSys AacSource) : AacSourceAct → Prop
  | .turn env readLen _ events =>
    decoderTurnAction aacDecoderLookup s.curState events = some .runPoll →
      ∀ t mem, s.dec = some t → t.dec.mem = some mem →
        0 ≤ readLen ∧ readLen ≤ aacDecoderInputSize - mem.inputRemain ∧ env.frame.error = 0 ∧
          (0 < readLen → 0 < env.frame.bytesconsumed ∧ env.frame.bytesconsumed ≤ mem.inputRemain + readLen)
  | .start => True

/-- In a poll that reports the end, through the input callback or the error callback, the window is empty. -/
def DrainedAtEnd (s : DecoderSys AacSource) : AacSourceAct → Prop
  | .turn env readLen _ events =>
    decoderTurnAction aacDecoderLookup s.curState events = some .runPoll →
      ∀ t mem, s.dec = some t → t.dec.mem = some mem →
        aacDecoderComplains t.dec mem = true ∨ t.dec.inputDone = false ∧ readLen = 0 ∧ mem.AllOut env.accepts →
        mem.inputRemain = 0
  | .start => True

/-- Every byte that was obtained is consumed once `output_done` is set. -/
def AacSource.Drained (s : DecoderSys AacSource) : Prop :=
  ∀ t, s.dec = some t → t.dec.outputDone = true → t.consumed = t.obtained

/-- What was obtained is consumed or in the window, and the window is empty once the input is done. -/
structure AacInputState.Tally (c : AacInputState) : Prop where
  aac    : c.isM4a = false
  done   : c.outputDone = true → c.inputDone = true
  total  : c.consumed + c.inputRemain = c.obtained
  remain : 0 ≤ c.inputRemain ∧ c.inputRemain ≤ aacDecoderInputSize
  empty  : c.inputDone = true → c.inputRemain = 0

structure AacSource.Tally (t : AacSource) : Prop where
  aac    : t.dec.isM4a = false
  done   : t.dec.outputDone = true → t.dec.inputDone = true
  ended  : t.dec.outputDone = true → t.consumed = t.obtained
  window : ∀ mem, t.dec.mem = some mem → (t.input mem).Tally

section
variable {env : AacEnv} {readLen : Int} {allOut : Prop} {c c' : AacInputState}

theorem AacPoll.tally (h : AacPoll env readLen allOut c c') (hc : c.Tally) (hread : 0 ≤ readLen)
    (hfit : readLen ≤ aacDecoderInputSize - c.inputRemain) (herror : env.frame.error = 0)
    (hframe : 0 < readLen → 0 < env.frame.bytesconsumed ∧ env.frame.bytesconsumed ≤ c.inputRemain + readLen)
    (hdrained : c.inputDone = false → readLen = 0 → allOut → c.inputRemain = 0) : c'.Tally := by
  obtain ⟨haac, hdone, htotal, hremain, hempty⟩ := hc
  cases h with
  | full => exact ⟨haac, hdone, htotal, hremain, hempty⟩
  | ended hended => exact ⟨haac, fun _ => hended, htotal, hremain, hempty⟩
  | empty hout hopen _ hle =>
    exact ⟨haac, fun _ => rfl, htotal, hremain, fun _ => hdrained hopen (by omega) hout⟩
  | refused hopen _ hpos =>
    refine ⟨haac, hdone, ?_, ?_, fun h => absurd (hopen.symm.trans h) (by decide)⟩
    · dsimp only [AacInputState.topUp]
      omega
    · dsimp only [AacInputState.topUp]
      omega
  | decoded hopen _ hpos =>
    obtain ⟨hframe0, hframe⟩ := hframe hpos
    refine ⟨haac, hdone, ?_, ?_, fun h => absurd (hopen.symm.trans h) (by decide)⟩
    · dsimp only [AacInputState.topUp]
      rw [if_pos herror]
      omega
    · dsimp only
      rw [if_pos herror]
      omega
  | unopened _ hm4a => exact absurd (haac.symm.trans hm4a) (by decide)
  | sample _ hm4a => exact absurd (haac.symm.trans hm4a) (by decide)

end

section
variable {s s' : DecoderSys AacSource} {t t' : AacSource} {a : AacSourceAct}

theorem AacSource.Tally.errorHandler (h : t.Tally) {mem : AacDecoderMemory} (hmem : t.dec.mem = some mem)
    (hdrained : aacDecoderComplains t.dec mem = true → mem.inputRemain = 0) :
    ((aacPlayerErrorHandler t mem).input mem).Tally := by
  obtain ⟨haac, hdone, htotal, hremain, hempty⟩ := h.window mem hmem
  obtain ⟨errors, herrors⟩ := aacPlayerErrorHandler_eq t mem
  rw [herrors]
  refine ⟨haac, ?_, htotal, hremain, ?_⟩
  · intro hout
    exact Bool.or_eq_true_iff.2 (.inl (hdone hout))
  · intro hin
    rcases Bool.or_eq_true_iff.1 hin with hin | hcomplains
    · exact hempty hin
    · exact hdrained hcomplains

theorem AacSource.Tally.of_input {mem : AacDecoderMemory} (hmem : t.dec.mem = some mem) (h : (t.input mem).Tally) :
    t.Tally := by
  obtain ⟨haac, hdone, htotal, hremain, hempty⟩ := h
  refine ⟨haac, hdone, ?_, ?_⟩
  · intro hout
    have hzero : mem.inputRemain = 0 := hempty (hdone hout)
    have htotal : t.consumed + mem.inputRemain = t.obtained := htotal
    omega
  · intro mem' hmem'
    obtain rfl := Option.some.inj (hmem.symm.trans hmem')
    exact ⟨haac, hdone, htotal, hremain, hempty⟩

/-- **A poll keeps the tally.** -/
theorem AacSource.Tally.runPoll {env : AacEnv} {readLen seekTo : Int} {events : Word} (h : t.Tally)
    (hs : s.dec = some t) (hact : decoderTurnAction aacDecoderLookup s.curState events = some .runPoll)
    (hdelivers : (AacSourceAct.turn env readLen seekTo events).Delivers s)
    (hdrained : DrainedAtEnd s (.turn env readLen seekTo events))
    (hpoll : (aacPlayerRun env readLen seekTo .runPoll (some t)).1 = some t') : t'.Tally := by
  obtain ⟨mem, mem', hmem, hmem', hcases⟩ := aacPlayerRun_poll hpoll
  obtain ⟨hread, hfit, herror, hframe⟩ := hdelivers hact t mem hs hmem
  have hdrained := hdrained hact t mem hs hmem
  have hhandled := h.errorHandler hmem fun hcomplains => hdrained (.inl hcomplains)
  refine AacSource.Tally.of_input hmem' (hcases.tally hhandled hread hfit herror hframe ?_)
  intro hopen hend hout
  obtain ⟨errors, herrors⟩ := aacPlayerErrorHandler_eq t mem
  rw [herrors] at hopen
  exact hdrained (.inr ⟨(Bool.or_eq_false_iff.1 hopen).1, hend, hout⟩)

theorem AacSource.Tally.step (hstep : AacSourceStep s a s') (hdelivers : a.Delivers s) (hdrained : DrainedAtEnd s a)
    (h : ∀ t, s.dec = some t → t.Tally) : ∀ t', s'.dec = some t' → t'.Tally := by
  refine hstep.preserves h ?_ ?_
  · intro _ v hv
    refine ⟨hv.aac, (by intro h; cases h), (by intro h; cases h), ?_⟩
    intro mem hmem
    obtain ⟨-, -, htotal, hremain, -⟩ := hv.window mem hmem
    exact ⟨hv.aac, (by intro h; cases h), htotal, hremain, (by intro h; cases h)⟩
  · rintro env readLen seekTo events action rfl haction v hdec hv v' hv'
    cases action with
    | start =>
      obtain rfl := Option.some.inj hv'
      refine ⟨hv.aac, hv.done, fun _ => rfl, ?_⟩
      rintro _ ⟨⟩
      exact ⟨hv.aac, hv.done, rfl, ⟨Int.le_refl 0, show 0 ≤ aacDecoderInputSize by decide⟩, fun _ => rfl⟩
    | stop =>
      obtain rfl := Option.some.inj hv'
      exact ⟨hv.aac, hv.done, hv.ended, by intro mem hmem; cases hmem⟩
    | pause =>
      obtain rfl := Option.some.inj hv'
      exact hv
    | resume =>
      obtain rfl := Option.some.inj hv'
      exact hv
    | seek =>
      obtain rfl := Option.some.inj hv'
      refine ⟨hv.aac, hv.done, hv.ended, ?_⟩
      intro mem' hmem'
      obtain ⟨mem, hmem, rfl⟩ := Option.map_eq_some_iff.1 hmem'
      obtain ⟨haac, hdone, htotal, hremain, hempty⟩ := hv.window mem hmem
      exact ⟨haac, hdone, htotal, hremain, hempty⟩
    | runPoll => exact hv.runPoll hdec haction hdelivers hdrained hv'

end

/-- **Nothing that was read of an aac file is dropped** in every run in which the window is empty whenever the
end is reported. -/
theorem aacDecoder_drained {acts : List AacSourceAct} {s : DecoderSys AacSource}
    (hrun : Steps (Restrict (Restrict AacSourceStep AacSourceAct.Delivers) DrainedAtEnd) (aacSourceInit false)
      acts s) : AacSource.Drained s := by
  intro t ht hdone
  have htally := hrun.invariant (I := fun s => ∀ t, s.dec = some t → AacSource.Tally t)
    (fun _ _ _ h hs => AacSource.Tally.step hs.1.1 hs.1.2 hs.2 h) (by
      rintro _ ⟨⟩
      exact ⟨rfl, (by intro h; cases h), (by intro h; cases h), by intro mem hmem; cases hmem⟩)
  exact (htally t ht).ended hdone

/-! ## A file of one portion -/

/-- The callback takes everything, and `NeAACDecDecode` consumes `n` bytes of a frame without samples. -/
def aacQuietEnv (n : Int) : AacEnv where
  accepts := takesAll
  acceptsAgain := takesAll
  inputSize := 0
  init := some ({}, 0)
  frame := noSamples n

/-- A running decoder that has read one portion of four bytes, and what it has consumed of it. -/
def aacPortion (state : Word) (consumed : Int) (inputDone outputDone : Bool) (events : List InputEvent)
    (setDone : Nat) : DecoderSys AacSource :=
  ⟨state, some
    { dec :=
        { isM4a := false, inputDone, outputDone, initialized := true, mem := some { inputRemain := 4 - consumed } }
      filePos := 4, events, setDone, obtained := 4, consumed }⟩

theorem aacPortion_run {n : Int} (hn : n = 1 ∨ n = 4) :
    Steps (Restrict (Restrict AacSourceStep AacSourceAct.Delivers) fun s a => n = 4 → DrainedAtEnd s a)
      (aacSourceInit false)
      [.turn (aacQuietEnv n) 0 0 mp3DecoderEventStart, .turn (aacQuietEnv n) 4 0 comFsmEventNone,
        .turn (aacQuietEnv n) 0 0 comFsmEventNone, .turn (aacQuietEnv n) 0 0 mp3DecoderEventResume,
        .turn (aacQuietEnv n) 0 0 comFsmEventNone]
      (aacPortion mp3DecoderStaPause n true true [.read 0 4, .read 4 0, .ended] 1) := by
  have hstart : AacSourceStep (aacSourceInit false) (.turn (aacQuietEnv n) 0 0 mp3DecoderEventStart)
      ⟨mp3DecoderStaRun, some { dec := { isM4a := false, mem := some {} } }⟩ := .turn
  have hread : AacSourceStep ⟨mp3DecoderStaRun, some { dec := { isM4a := false, mem := some {} } }⟩
      (.turn (aacQuietEnv n) 4 0 comFsmEventNone) (aacPortion mp3DecoderStaRun n false false [.read 0 4] 0) := by
    rcases hn with rfl | rfl
    · exact .turn
    · exact .turn
  have hend : AacSourceStep (aacPortion mp3DecoderStaRun n false false [.read 0 4] 0)
      (.turn (aacQuietEnv n) 0 0 comFsmEventNone)
      (aacPortion mp3DecoderStaPause n true false [.read 0 4, .read 4 0] 1) := by
    rcases hn with rfl | rfl
    · exact .turn
    · exact .turn
  have hresume : AacSourceStep (aacPortion mp3DecoderStaPause n true false [.read 0 4, .read 4 0] 1)
      (.turn (aacQuietEnv n) 0 0 mp3DecoderEventResume)
      (aacPortion mp3DecoderStaRun n true false [.read 0 4, .read 4 0] 1) := .turn
  have hdone : AacSourceStep (aacPortion mp3DecoderStaRun n true false [.read 0 4, .read 4 0] 1)
      (.turn (aacQuietEnv n) 0 0 comFsmEventNone)
      (aacPortion mp3DecoderStaPause n true true [.read 0 4, .read 4 0, .ended] 1) := .turn
  have hnone : ∀ {s : DecoderSys AacSource} {readLen : Int} {events : Word} {action : Mp3DecoderAction},
      decoderTurnAction aacDecoderLookup s.curState events = some action → action ≠ .runPoll →
      (AacSourceAct.turn (aacQuietEnv n) readLen 0 events).Delivers s ∧
        (n = 4 → DrainedAtEnd s (.turn (aacQuietEnv n) readLen 0 events)) := by
    intro s readLen events action hact hne
    refine ⟨fun hpoll => ?_, fun _ hpoll => ?_⟩
    · exact absurd (Option.some.inj (hact.symm.trans hpoll)) hne
    · exact absurd (Option.some.inj (hact.symm.trans hpoll)) hne
  have hwindow : 0 ≤ 4 - n ∧ 4 - n ≤ 4608 ∧ 0 < n ∧ n ≤ 4 := by omega
  refine .cons ⟨⟨hstart, ?_⟩, ?_⟩ (.cons ⟨⟨hread, ?_⟩, ?_⟩ (.cons ⟨⟨hend, ?_⟩, ?_⟩ (.cons ⟨⟨hresume, ?_⟩, ?_⟩
    (.one ⟨⟨hdone, ?_⟩, ?_⟩))))
  · exact (hnone (show decoderTurnAction _ _ _ = some .start from rfl) (by decide)).1
  · exact (hnone (show decoderTurnAction _ _ _ = some .start from rfl) (by decide)).2
  · rintro - t mem ⟨⟩ ⟨⟩
    exact ⟨by decide, by decide, rfl, fun _ => ⟨hwindow.2.2.1, show n ≤ 0 + 4 by omega⟩⟩
  · rintro - - t mem ⟨⟩ ⟨⟩ -
    rfl
  · rintro - t mem ⟨⟩ ⟨⟩
    refine ⟨Int.le_refl 0, show 0 ≤ (4608 : Int) - (4 - n) by omega, rfl, fun h => absurd h (by decide)⟩
  · rintro rfl - t mem ⟨⟩ ⟨⟩ -
    rfl
  · exact (hnone (show decoderTurnAction _ _ _ = some .resume from rfl) (by decide)).1
  · exact (hnone (show decoderTurnAction _ _ _ = some .resume from rfl) (by decide)).2
  · rintro - t mem ⟨⟩ ⟨⟩
    refine ⟨Int.le_refl 0, show 0 ≤ (4608 : Int) - (4 - n) by omega, rfl, fun h => absurd h (by decide)⟩
  · rintro rfl - t mem ⟨⟩ ⟨⟩ -
    rfl

/-- A frame of all four bytes leaves nothing behind. -/
theorem aacDecoder_drained_four :
    AacSource.Drained (aacPortion mp3DecoderStaPause 4 true true [.read 0 4, .read 4 0, .ended] 1) :=
  aacDecoder_drained ((aacPortion_run (.inr rfl)).mono fun _ _ _ h => ⟨h.1, h.2 rfl⟩)

/-- A frame of one byte leaves three, which nobody decodes. -/
theorem aacDecoder_tail_dropped : ¬ ∀ (acts : List AacSourceAct) (s : DecoderSys AacSource),
    Steps (Restrict AacSourceStep AacSourceAct.Delivers) (aacSourceInit false) acts s → AacSource.Drained s := by
  intro hall
  have hdrained := hall _ _ ((aacPortion_run (.inl rfl)).mono fun _ _ _ h => h.1)
  exact absurd (hdrained _ rfl rfl) (show (1 : Int) ≠ 4 by decide)

end AudioPlayer

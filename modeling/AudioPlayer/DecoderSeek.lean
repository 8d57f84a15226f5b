import Mathlib
import AudioPlayer.DecoderCallbacks

/-!
# Seeking with the end of the input behind (`src/mp3_decoder.c:57-65`, `src/aac_decoder.c:220-237`)

The seek handlers drop the PCM and move the input, and leave `input_done` and `output_done` as they are. A
track whose last byte has been read is still played for a while; a seek back in that time moves the file, and
the next poll that wants input finds `input_done` set, asks for nothing and ends the output.

| here | there |
|---|---|
| `ReadsFrom`, `samplesFrom` | what is obtained behind a seek |
| `Mp3SourceAct.Continues`, `AacSourceAct.Continues` | a turn that neither seeks, stops nor starts |
| `comPlayerNoData` | the test of `__pcm_trans_data_request_callback` (`common_player.c:431`) |

The end of the input is reached again when `com_player_set_done` is called, which `setDone` counts. A poll
behind the last sample of an m4a file has no value (`AacDecoder`), so no run goes on from there.
-/

namespace AudioPlayer
open Lib

/-- The end of the track is reported (`common_player.c:431`). -/
def comPlayerNoData (outputDone : Bool) (ringCount : Int) : Bool := outputDone && decide (ringCount ≤ 0)

/-- Portions of the file one behind the other, from `p` to `q`. -/
def ReadsFrom (p : Int) : List InputEvent → Int → Prop
  | [], q => q = p
  | .read r n :: es, q => r = p ∧ 0 < n ∧ ReadsFrom (p + n) es q
  | _ :: _, _ => False

/-- `n` samples one behind the other. -/
def samplesFrom (sampleId : Int) (n : Nat) : List InputEvent :=
  (List.range n).map fun (i : Nat) => .sample (sampleId + i)

/-- The turn seeks to `p`. -/
def Mp3SourceAct.Seeks (p : Int) (s : DecoderSys Mp3Source) : Mp3SourceAct → Prop
  | .turn _ _ _ seekTo events => seekTo = p ∧ decoderTurnAction mp3DecoderLookup s.curState events = some .seek
  | .start => False

def AacSourceAct.Seeks (p : Int) (s : DecoderSys AacSource) : AacSourceAct → Prop
  | .turn _ _ seekTo events => seekTo = p ∧ decoderTurnAction aacDecoderLookup s.curState events = some .seek
  | .start => False

def Mp3SourceAct.Continues (s : DecoderSys Mp3Source) : Mp3SourceAct → Prop
  | .turn _ _ _ _ events =>
    decoderTurnAction mp3DecoderLookup s.curState events ∉ [some .start, some .stop, some .seek]
  | .start => False

def AacSourceAct.Continues (s : DecoderSys AacSource) : AacSourceAct → Prop
  | .turn _ _ _ events =>
    decoderTurnAction aacDecoderLookup s.curState events ∉ [some .start, some .stop, some .seek]
  | .start => False

/-- Behind a seek of `t` to `p`, the output is not done and all input since is from there. -/
structure Mp3Source.GoesOn (v : Mp3Source) (p : Int) (t : Mp3Source) : Prop where
  notDone  : v.dec.outputDone = false
  noReport : ∀ ringCount, comPlayerNoData v.dec.outputDone ringCount = false
  reads    : ∃ es, v.events = t.events ++ es ∧ ReadsFrom p es v.filePos

/-- The same of an m4a file, from the sample `p` on. -/
structure AacSource.GoesOn (v : AacSource) (p : Int) (t : AacSource) : Prop where
  notDone  : v.dec.outputDone = false
  noReport : ∀ ringCount, comPlayerNoData v.dec.outputDone ringCount = false
  samples  : ∃ n, v.events = t.events ++ samplesFrom p n ∧ ∀ mem, v.dec.mem = some mem → mem.sampleId = p + n

/-! ## mp3 -/

theorem ReadsFrom.snoc {p q n : Int} {es : List InputEvent} (h : ReadsFrom p es q) (hn : 0 < n) :
    ReadsFrom p (es ++ [.read q n]) (q + n) := by
  induction es generalizing p with
  | nil =>
    obtain rfl : q = p := h
    exact ⟨rfl, hn, rfl⟩
  | cons e es ih =>
    cases e with
    | read r m => exact ⟨h.1, h.2.1, ih h.2.2⟩
    | sample => exact h.elim
    | ended => exact h.elim

/-- As long as the end is not reported again, the input goes on from `p`. -/
def Mp3InputState.Going (p : Int) (t : Mp3Source) (c : Mp3InputState) : Prop :=
  t.setDone ≤ c.setDone ∧ (c.setDone = t.setDone → c.inputDone = false ∧ c.outputDone = false ∧
    ∃ es, c.events = t.events ++ es ∧ ReadsFrom p es c.filePos)

section
variable {p readLen : Int} {t v : Mp3Source} {c c' : Mp3InputState}

theorem Mp3Poll.going (h : Mp3Poll readLen c c') (hc : c.Going p t) : c'.Going p t := by
  obtain ⟨hle, hgoing⟩ := hc
  cases h with
  | same => exact ⟨hle, hgoing⟩
  | ended hdone =>
    refine ⟨hle, fun hsame => ?_⟩
    obtain ⟨hopen, -⟩ := hgoing hsame
    exact absurd (hdone.symm.trans hopen) (by decide)
  | read hdone hread =>
    refine ⟨hle, fun hsame => ?_⟩
    obtain ⟨hopen, hout, es, hevents, hreads⟩ := hgoing hsame
    refine ⟨hopen, hout, es ++ [.read c.filePos readLen], ?_, hreads.snoc hread⟩
    dsimp only
    rw [hevents, List.append_assoc]
  | empty =>
    refine ⟨Nat.le_succ_of_le hle, fun hsame => ?_⟩
    dsimp only at hsame
    omega

theorem Mp3InputState.Going.errorHandler {mem : Mp3DecoderMemory} (h : v.input.Going p t) :
    (mp3PlayerErrorHandler v mem).input.Going p t := by
  obtain ⟨hle, hgoing⟩ := h
  obtain ⟨errors, herrors⟩ := mp3PlayerErrorHandler_eq v mem
  rw [herrors]
  cases mp3DecoderComplains v.dec mem with
  | false =>
    rw [Bool.or_false]
    exact ⟨hle, hgoing⟩
  | true =>
    have hle : t.setDone ≤ v.setDone := hle
    refine ⟨Nat.le_succ_of_le hle, fun hsame => ?_⟩
    have hsame : v.setDone + 1 = t.setDone := hsame
    omega

/-- `output_done` is set by a poll that finds `input_done`. -/
theorem Mp3Poll.done_of (h : Mp3Poll readLen c c') (hc : c.outputDone = true → c.inputDone = true) :
    c'.outputDone = true → c'.inputDone = true := by
  cases h with
  | same => exact hc
  | ended hdone => exact fun _ => hdone
  | read => exact hc
  | empty => exact fun _ => rfl

end

section
variable {p : Int} {s u : DecoderSys Mp3Source} {a : Mp3SourceAct} {acts : List Mp3SourceAct} {t v : Mp3Source}

theorem mp3Source_done (hrun : Steps Mp3SourceStep mp3SourceInit acts s) :
    ∀ t, s.dec = some t → t.dec.outputDone = true → t.dec.inputDone = true := by
  refine hrun.invariant (I := fun s => ∀ t, s.dec = some t → t.dec.outputDone = true → t.dec.inputDone = true)
    (fun s a s' h hs => hs.preserves h ?_ ?_) ?_
  · rintro _ ⟨⟩ h
    cases h
  · intro _ v _ h
    cases h
  · intro env remain readLen seekTo events action _ _ v _ hv v' hv'
    cases action with
    | start => obtain rfl := Option.some.inj hv'; exact hv
    | stop => obtain rfl := Option.some.inj hv'; exact hv
    | pause => obtain rfl := Option.some.inj hv'; exact hv
    | resume => obtain rfl := Option.some.inj hv'; exact hv
    | seek =>
      obtain rfl := Option.some.inj hv'
      unfold mp3PlayerSeekHandler
      split
      · exact hv
      · exact hv
    | runPoll =>
      obtain ⟨mem, -, hpoll⟩ := mp3PlayerRun_poll hv'
      refine hpoll.done_of ?_
      obtain ⟨errors, herrors⟩ := mp3PlayerErrorHandler_eq v mem
      rw [herrors]
      intro hout
      exact Bool.or_eq_true_iff.2 (.inl (hv hout))

/-- Behind a seek, the run goes on. -/
theorem mp3_going (hrun : Steps (Restrict Mp3SourceStep fun s a => a.Continues s) s acts u)
    (h : ∀ v, s.dec = some v → v.input.Going p t) : ∀ v, u.dec = some v → v.input.Going p t := by
  refine hrun.invariant (I := fun u => ∀ v, u.dec = some v → v.input.Going p t)
    (fun s a s' h hs => hs.1.preserves h ?_ ?_) h
  · rintro rfl
    exact absurd hs.2 id
  · rintro env remain readLen seekTo events action rfl haction v - hv v' hv'
    have hcontinues := hs.2
    simp only [Mp3SourceAct.Continues, haction, List.mem_cons, List.not_mem_nil, or_false, not_or] at hcontinues
    cases action with
    | start => exact absurd rfl hcontinues.1
    | stop => exact absurd rfl hcontinues.2.1
    | seek => exact absurd rfl hcontinues.2.2
    | pause => obtain rfl := Option.some.inj hv'; exact hv
    | resume => obtain rfl := Option.some.inj hv'; exact hv
    | runPoll =>
      obtain ⟨mem, -, hpoll⟩ := mp3PlayerRun_poll hv'
      exact hpoll.going hv.errorHandler

/-- The mp3 decoder goes on behind a seek before the end of its input. -/
theorem mp3_seek_going (hrun : Steps Mp3SourceStep mp3SourceInit acts s) (ht : s.dec = some t)
    (hmem : t.dec.mem ≠ none) (hopen : t.dec.inputDone = false) {s' : DecoderSys Mp3Source}
    (hseek : Mp3SourceStep s a s') (hp : a.Seeks p s) : ∀ v, s'.dec = some v → v.input.Going p t := by
  have hout : t.dec.outputDone = false := by
    cases hdone : t.dec.outputDone with
    | false => rfl
    | true => exact absurd ((mp3Source_done hrun t ht hdone).symm.trans hopen) (by decide)
  intro v hv
  cases hseek with
  | start => exact hp.elim
  | turn =>
    obtain ⟨rfl, haction⟩ := hp
    rw [DecoderSys.turn_dec, haction, ht] at hv
    obtain rfl := Option.some.inj hv
    unfold mp3PlayerSeekHandler
    rw [if_pos (Option.isSome_iff_ne_none.2 hmem)]
    exact ⟨Nat.le_refl _, fun _ => ⟨hopen, hout, [], (List.append_nil _).symm, rfl⟩⟩

/-- What goes on has not ended. -/
theorem Mp3InputState.Going.goesOn (h : v.input.Going p t) (hsame : v.setDone = t.setDone) : v.GoesOn p t := by
  obtain ⟨-, hout, hreads⟩ := h.2 hsame
  have hout : v.dec.outputDone = false := hout
  refine ⟨hout, ?_, hreads⟩
  intro ringCount
  rw [hout]
  rfl

end

/-! ## m4a -/

theorem samplesFrom_succ (p : Int) (n : Nat) : samplesFrom p (n + 1) = samplesFrom p n ++ [.sample (p + n)] := by
  rw [samplesFrom, List.range_succ, List.map_append]
  rfl

/-- As long as the end is not reported again, the samples go on from `p`. -/
def AacInputState.Going (p : Int) (t : AacSource) (c : AacInputState) : Prop :=
  c.isM4a = true ∧ t.setDone ≤ c.setDone ∧ (c.setDone = t.setDone → c.inputDone = false ∧ c.outputDone = false ∧
    ∃ n, c.events = t.events ++ samplesFrom p n ∧ c.sampleId = p + n)

section
variable {p readLen : Int} {env : AacEnv} {allOut : Prop} {t v : AacSource} {c c' : AacInputState}

theorem AacPoll.going (h : AacPoll env readLen allOut c c') (hc : c.Going p t) : c'.Going p t := by
  obtain ⟨hm4a, hle, hgoing⟩ := hc
  cases h with
  | full => exact ⟨hm4a, hle, hgoing⟩
  | ended hdone =>
    refine ⟨hm4a, hle, fun hsame => ?_⟩
    obtain ⟨hopen, -⟩ := hgoing hsame
    exact absurd (hdone.symm.trans hopen) (by decide)
  | empty _ _ haac => exact absurd (hm4a.symm.trans haac) (by decide)
  | refused _ haac => exact absurd (hm4a.symm.trans haac) (by decide)
  | decoded _ haac => exact absurd (hm4a.symm.trans haac) (by decide)
  | @unopened ended setDone _ _ hset =>
    split at hset
    · refine ⟨hm4a, (show t.setDone ≤ setDone by omega), fun hsame => ?_⟩
      have hsame : setDone = t.setDone := hsame
      omega
    · rename_i hopen
      subst hset
      refine ⟨hm4a, hle, fun hsame => ?_⟩
      obtain ⟨-, hout, hsamples⟩ := hgoing hsame
      exact ⟨eq_false_of_ne_true hopen, hout, hsamples⟩
  | @sample ended inputRemain setDone _ _ hset =>
    split at hset
    · refine ⟨hm4a, (show t.setDone ≤ setDone by omega), fun hsame => ?_⟩
      have hsame : setDone = t.setDone := hsame
      omega
    · rename_i hopen
      subst hset
      refine ⟨hm4a, hle, fun hsame => ?_⟩
      obtain ⟨-, hout, n, hevents, hid⟩ := hgoing hsame
      refine ⟨eq_false_of_ne_true hopen, hout, n + 1, ?_, ?_⟩
      · dsimp only
        rw [samplesFrom_succ, hevents, hid, List.append_assoc]
      · dsimp only
        omega

theorem AacInputState.Going.errorHandler {mem : AacDecoderMemory} (h : (v.input mem).Going p t) :
    ((aacPlayerErrorHandler v mem).input mem).Going p t := by
  obtain ⟨hm4a, hle, hgoing⟩ := h
  obtain ⟨errors, herrors⟩ := aacPlayerErrorHandler_eq v mem
  rw [herrors]
  cases aacDecoderComplains v.dec mem with
  | false =>
    rw [Bool.or_false]
    exact ⟨hm4a, hle, hgoing⟩
  | true =>
    have hle : t.setDone ≤ v.setDone := hle
    refine ⟨hm4a, Nat.le_succ_of_le hle, fun hsame => ?_⟩
    have hsame : v.setDone + 1 = t.setDone := hsame
    omega

/-- `output_done` is set by a poll that finds `input_done`; the kind of the file does not change. -/
theorem AacPoll.done_of (h : AacPoll env readLen allOut c c') (hc : c.outputDone = true → c.inputDone = true) :
    c'.isM4a = c.isM4a ∧ (c'.outputDone = true → c'.inputDone = true) := by
  cases h with
  | full => exact ⟨rfl, hc⟩
  | ended hdone => exact ⟨rfl, fun _ => hdone⟩
  | empty => exact ⟨rfl, fun _ => rfl⟩
  | refused => exact ⟨rfl, hc⟩
  | decoded => exact ⟨rfl, hc⟩
  | unopened hopen => exact ⟨rfl, fun hout => absurd (hopen.symm.trans (hc hout)) (by decide)⟩
  | sample hopen => exact ⟨rfl, fun hout => absurd (hopen.symm.trans (hc hout)) (by decide)⟩

end

section
variable {p : Int} {s u : DecoderSys AacSource} {a : AacSourceAct} {acts : List AacSourceAct} {t v : AacSource}

theorem aacSource_done {isM4a : Bool} (hrun : Steps AacSourceStep (aacSourceInit isM4a) acts s) :
    ∀ t, s.dec = some t → t.dec.isM4a = isM4a ∧ (t.dec.outputDone = true → t.dec.inputDone = true) := by
  refine hrun.invariant
    (I := fun s => ∀ t, s.dec = some t → t.dec.isM4a = isM4a ∧ (t.dec.outputDone = true → t.dec.inputDone = true))
    (fun s a s' h hs => hs.preserves h ?_ ?_) ?_
  · rintro _ ⟨⟩
    exact ⟨rfl, by intro h; cases h⟩
  · intro _ v hv
    exact ⟨hv.1, by intro h; cases h⟩
  · intro env readLen seekTo events action _ _ v _ hv v' hv'
    cases action with
    | start => obtain rfl := Option.some.inj hv'; exact hv
    | stop => obtain rfl := Option.some.inj hv'; exact hv
    | pause => obtain rfl := Option.some.inj hv'; exact hv
    | resume => obtain rfl := Option.some.inj hv'; exact hv
    | seek => obtain rfl := Option.some.inj hv'; exact hv
    | runPoll =>
      obtain ⟨mem, mem', -, -, hpoll⟩ := aacPlayerRun_poll hv'
      obtain ⟨errors, herrors⟩ := aacPlayerErrorHandler_eq v mem
      rw [herrors] at hpoll
      obtain ⟨hkind, hdone⟩ := hpoll.done_of fun hout => Bool.or_eq_true_iff.2 (.inl (hv.2 hout))
      exact ⟨hkind.trans hv.1, hdone⟩

/-- Behind a seek, the run goes on. -/
theorem m4a_going (hrun : Steps (Restrict AacSourceStep fun s a => a.Continues s) s acts u)
    (h : ∀ v, s.dec = some v → ∃ mem, v.dec.mem = some mem ∧ (v.input mem).Going p t) :
    ∀ v, u.dec = some v → ∃ mem, v.dec.mem = some mem ∧ (v.input mem).Going p t := by
  refine hrun.invariant
    (I := fun u => ∀ v, u.dec = some v → ∃ mem, v.dec.mem = some mem ∧ (v.input mem).Going p t)
    (fun s a s' h hs => hs.1.preserves h ?_ ?_) h
  · rintro rfl
    exact absurd hs.2 id
  · rintro env readLen seekTo events action rfl haction v - hv v' hv'
    have hcontinues := hs.2
    simp only [AacSourceAct.Continues, haction, List.mem_cons, List.not_mem_nil, or_false, not_or] at hcontinues
    cases action with
    | start => exact absurd rfl hcontinues.1
    | stop => exact absurd rfl hcontinues.2.1
    | seek => exact absurd rfl hcontinues.2.2
    | pause => obtain rfl := Option.some.inj hv'; exact hv
    | resume => obtain rfl := Option.some.inj hv'; exact hv
    | runPoll =>
      obtain ⟨mem, mem', hmem, hmem', hpoll⟩ := aacPlayerRun_poll hv'
      obtain ⟨mem₁, hmem₁, hgoing⟩ := hv
      obtain rfl := Option.some.inj (hmem₁.symm.trans hmem)
      exact ⟨mem', hmem', hpoll.going hgoing.errorHandler⟩

/-- The m4a decoder goes on behind a seek to one of its samples before the end of its input. -/
theorem m4a_seek_going (hrun : Steps AacSourceStep (aacSourceInit true) acts s) (ht : s.dec = some t)
    {mem : AacDecoderMemory} (hmem : t.dec.mem = some mem) (hp0 : 0 ≤ p) (hp : p < mem.numSamples)
    (hopen : t.dec.inputDone = false) {s' : DecoderSys AacSource} (hseek : AacSourceStep s a s')
    (ha : a.Seeks p s) :
    ∀ v, s'.dec = some v → ∃ mem, v.dec.mem = some mem ∧ (v.input mem).Going p t := by
  obtain ⟨hm4a, hdone⟩ := aacSource_done hrun t ht
  have hout : t.dec.outputDone = false := by
    cases hdone' : t.dec.outputDone with
    | false => rfl
    | true => exact absurd ((hdone hdone').symm.trans hopen) (by decide)
  intro v hv
  cases hseek with
  | start => exact ha.elim
  | turn =>
    obtain ⟨rfl, haction⟩ := ha
    rw [DecoderSys.turn_dec, haction, ht] at hv
    obtain rfl := Option.some.inj hv
    refine ⟨_, congrArg (Option.map _) hmem, hm4a, Nat.le_refl _, fun _ => ⟨hopen, hout, 0, ?_, ?_⟩⟩
    · exact (List.append_nil _).symm
    · change (if t.dec.isM4a = true ∧ mem.numSamples > 0 then _ else _) = _
      rw [if_pos ⟨hm4a, by omega⟩]
      exact (Int.add_zero _).symm

/-- What goes on has not ended. -/
theorem AacInputState.Going.goesOn {mem : AacDecoderMemory} (hmem : v.dec.mem = some mem)
    (h : (v.input mem).Going p t) (hsame : v.setDone = t.setDone) : v.GoesOn p t := by
  obtain ⟨-, hout, n, hevents, hid⟩ := h.2.2 hsame
  have hout : v.dec.outputDone = false := hout
  refine ⟨hout, ?_, n, hevents, ?_⟩
  · intro ringCount
    rw [hout]
    rfl
  · intro mem' hmem'
    obtain rfl := Option.some.inj (hmem.symm.trans hmem')
    exact hid

end

/-- **A seek before the end of the input goes on from there**, whatever the decoder did before and does
afterwards, until the end is reported again. -/
theorem decoder_seek_goesOn (p : Int) :
    (∀ acts s a s' t more u v, Steps Mp3SourceStep mp3SourceInit acts s → s.dec = some t → t.dec.mem ≠ none →
      t.dec.inputDone = false → Mp3SourceStep s a s' → a.Seeks p s →
      Steps (Restrict Mp3SourceStep fun s a => a.Continues s) s' more u → u.dec = some v →
      v.setDone = t.setDone → v.GoesOn p t) ∧
    ∀ acts s a s' t mem more u v, Steps AacSourceStep (aacSourceInit true) acts s → s.dec = some t →
      t.dec.mem = some mem → 0 ≤ p → p < mem.numSamples →
      t.dec.inputDone = false → AacSourceStep s a s' → a.Seeks p s →
      Steps (Restrict AacSourceStep fun s a => a.Continues s) s' more u → u.dec = some v →
      v.setDone = t.setDone → v.GoesOn p t := by
  constructor
  · intro acts s a s' t more u v hrun ht hmem hopen hseek hp hmore hv hsame
    exact (mp3_going hmore (mp3_seek_going hrun ht hmem hopen hseek hp) v hv).goesOn hsame
  · intro acts s a s' t mem more u v hrun ht hmem hp0 hp hopen hseek ha hmore hv hsame
    obtain ⟨mem', hmem', hgoing⟩ := m4a_going hmore (m4a_seek_going hrun ht hmem hp0 hp hopen hseek ha) v hv
    exact hgoing.goesOn hmem' hsame

/-! ## With the end behind -/

section
variable {readLen : Int} {env : AacEnv} {allOut : Prop} {es : List InputEvent}

/-- With `input_done` set a poll of the mp3 decoder asks for nothing. -/
theorem Mp3Poll.stuck {c c' : Mp3InputState} (h : Mp3Poll readLen c c')
    (hc : c.inputDone = true ∧ ∃ n, c.events = es ++ List.replicate n .ended) :
    c'.inputDone = true ∧ ∃ n, c'.events = es ++ List.replicate n .ended := by
  obtain ⟨hdone, n, hevents⟩ := hc
  cases h with
  | same => exact ⟨hdone, n, hevents⟩
  | ended =>
    refine ⟨hdone, n + 1, ?_⟩
    dsimp only
    rw [hevents, List.replicate_succ', List.append_assoc]
  | read hopen => exact absurd (hopen.symm.trans hdone) (by decide)
  | empty hopen => exact absurd (hopen.symm.trans hdone) (by decide)

/-- Nor does one of the aac decoder. -/
theorem AacPoll.stuck {c c' : AacInputState} (h : AacPoll env readLen allOut c c')
    (hc : c.inputDone = true ∧ ∃ n, c.events = es ++ List.replicate n .ended) :
    c'.inputDone = true ∧ ∃ n, c'.events = es ++ List.replicate n .ended := by
  obtain ⟨hdone, n, hevents⟩ := hc
  cases h with
  | full => exact ⟨hdone, n, hevents⟩
  | ended =>
    refine ⟨hdone, n + 1, ?_⟩
    dsimp only
    rw [hevents, List.replicate_succ', List.append_assoc]
  | empty _ hopen => exact absurd (hopen.symm.trans hdone) (by decide)
  | refused hopen => exact absurd (hopen.symm.trans hdone) (by decide)
  | decoded hopen => exact absurd (hopen.symm.trans hdone) (by decide)
  | unopened hopen => exact absurd (hopen.symm.trans hdone) (by decide)
  | sample hopen => exact absurd (hopen.symm.trans hdone) (by decide)

/-- **Behind the end of its input the mp3 decoder never reads again**, wherever it is sought to. -/
theorem mp3_seek_stuck {s u : DecoderSys Mp3Source} {acts : List Mp3SourceAct} {t v : Mp3Source}
    (hrun : Steps (Restrict Mp3SourceStep fun _ a => a ≠ .start) s acts u) (ht : s.dec = some t)
    (hdone : t.dec.inputDone = true) (hv : u.dec = some v) :
    v.dec.inputDone = true ∧ ∃ n, v.events = t.events ++ List.replicate n .ended := by
  refine hrun.invariant (I := fun u => ∀ v, u.dec = some v →
    v.dec.inputDone = true ∧ ∃ n, v.events = t.events ++ List.replicate n .ended)
    (fun s a s' h hs => hs.1.preserves h ?_ ?_) ?_ v hv
  · intro v hv
    obtain rfl := Option.some.inj (ht.symm.trans hv)
    exact ⟨hdone, 0, (List.append_nil _).symm⟩
  · intro hstart
    exact absurd hstart hs.2
  · intro env remain readLen seekTo events action _ _ v _ hv v' hv'
    cases action with
    | start => obtain rfl := Option.some.inj hv'; exact hv
    | stop => obtain rfl := Option.some.inj hv'; exact hv
    | pause => obtain rfl := Option.some.inj hv'; exact hv
    | resume => obtain rfl := Option.some.inj hv'; exact hv
    | seek =>
      obtain rfl := Option.some.inj hv'
      unfold mp3PlayerSeekHandler
      split
      · exact hv
      · exact hv
    | runPoll =>
      obtain ⟨mem, -, hpoll⟩ := mp3PlayerRun_poll hv'
      obtain ⟨errors, herrors⟩ := mp3PlayerErrorHandler_eq v mem
      rw [herrors] at hpoll
      exact hpoll.stuck ⟨Bool.or_eq_true_iff.2 (.inl hv.1), hv.2⟩

/-- **Nor does the aac decoder.** -/
theorem aac_seek_stuck {s u : DecoderSys AacSource} {acts : List AacSourceAct} {t v : AacSource}
    (hrun : Steps (Restrict AacSourceStep fun _ a => a ≠ .start) s acts u) (ht : s.dec = some t)
    (hdone : t.dec.inputDone = true) (hv : u.dec = some v) :
    v.dec.inputDone = true ∧ ∃ n, v.events = t.events ++ List.replicate n .ended := by
  refine hrun.invariant (I := fun u => ∀ v, u.dec = some v →
    v.dec.inputDone = true ∧ ∃ n, v.events = t.events ++ List.replicate n .ended)
    (fun s a s' h hs => hs.1.preserves h ?_ ?_) ?_ v hv
  · intro v hv
    obtain rfl := Option.some.inj (ht.symm.trans hv)
    exact ⟨hdone, 0, (List.append_nil _).symm⟩
  · intro hstart
    exact absurd hstart hs.2
  · intro env readLen seekTo events action _ _ v _ hv v' hv'
    cases action with
    | start => obtain rfl := Option.some.inj hv'; exact hv
    | stop => obtain rfl := Option.some.inj hv'; exact hv
    | pause => obtain rfl := Option.some.inj hv'; exact hv
    | resume => obtain rfl := Option.some.inj hv'; exact hv
    | seek => obtain rfl := Option.some.inj hv'; exact hv
    | runPoll =>
      obtain ⟨mem, mem', -, -, hpoll⟩ := aacPlayerRun_poll hv'
      obtain ⟨errors, herrors⟩ := aacPlayerErrorHandler_eq v mem
      rw [herrors] at hpoll
      exact hpoll.stuck ⟨Bool.or_eq_true_iff.2 (.inl hv.1), hv.2⟩

end

/-! ## A file of one portion -/

/-- The callback takes everything, and libmad finds no frame. -/
def mp3QuietEnv : Mp3Env where
  accepts := takesAll
  acceptsAgain := takesAll
  inputSize := 0
  tagSize := 0
  decode := .error madErrorBuflen

/-- A decoder whose window is used up. -/
def mp3Portion (state : Word) (inputDone outputDone : Bool) (filePos : Int) (events : List InputEvent)
    (setDone : Nat) : DecoderSys Mp3Source :=
  ⟨state, some
    { dec := { inputDone, outputDone, mem := some { streamBuffer := true, streamError := madErrorBuflen } }
      filePos, events, setDone }⟩

/-- The decoder is started and reads four bytes. -/
theorem mp3Portion_read : Steps Mp3SourceStep mp3SourceInit
    [.turn mp3QuietEnv 0 0 0 mp3DecoderEventStart, .turn mp3QuietEnv 0 4 0 comFsmEventNone]
    (mp3Portion mp3DecoderStaRun false false 4 [.read 0 4] 0) := by
  have hstart : Mp3SourceStep mp3SourceInit (.turn mp3QuietEnv 0 0 0 mp3DecoderEventStart)
      ⟨mp3DecoderStaRun, some { dec := { mem := some {} } }⟩ := .turn
  have hread : Mp3SourceStep ⟨mp3DecoderStaRun, some { dec := { mem := some {} } }⟩
      (.turn mp3QuietEnv 0 4 0 comFsmEventNone) (mp3Portion mp3DecoderStaRun false false 4 [.read 0 4] 0) := .turn
  exact .cons hstart (.one hread)

/-- A seek to the third byte, and the next portion is read from there. -/
theorem decoder_seek_goesOn_two : ∃ t v : Mp3Source, v.events = t.events ++ [.read 2 3] ∧ v.GoesOn 2 t := by
  have hpoll : decoderTurnAction mp3DecoderLookup mp3DecoderStaRun comFsmEventNone ∉
      [some .start, some .stop, some .seek] := by decide
  have hseek : Mp3SourceStep (mp3Portion mp3DecoderStaRun false false 4 [.read 0 4] 0)
      (.turn mp3QuietEnv 0 0 2 mp3DecoderEventSeek)
      (mp3Portion mp3DecoderStaRun false false 2 [.read 0 4] 0) := .turn
  have hread : Mp3SourceStep (mp3Portion mp3DecoderStaRun false false 2 [.read 0 4] 0)
      (.turn mp3QuietEnv 0 3 0 comFsmEventNone)
      (mp3Portion mp3DecoderStaRun false false 5 [.read 0 4, .read 2 3] 0) := .turn
  have hgoes := (decoder_seek_goesOn 2).1 _ _ _ _ _ _ _ _ mp3Portion_read rfl (Option.some_ne_none _) rfl hseek
    ⟨rfl, rfl⟩ (.one ⟨hread, hpoll⟩) rfl rfl
  exact ⟨_, _, rfl, hgoes⟩

/-- The file has ended; after a seek to its first byte the decoder is done without reading it. -/
theorem decoder_seek_ends : ¬ ∀ acts s a s' t p more u v, Steps Mp3SourceStep mp3SourceInit acts s →
    s.dec = some t → t.dec.mem ≠ none → Mp3SourceStep s a s' → a.Seeks p s →
    Steps (Restrict Mp3SourceStep fun s a => a.Continues s) s' more u → u.dec = some v →
    v.setDone = t.setDone → v.GoesOn p t := by
  intro hall
  have hend : Mp3SourceStep (mp3Portion mp3DecoderStaRun false false 4 [.read 0 4] 0)
      (.turn mp3QuietEnv 0 0 0 comFsmEventNone)
      (mp3Portion mp3DecoderStaPause true false 4 [.read 0 4, .read 4 0] 1) := .turn
  have hseek : Mp3SourceStep (mp3Portion mp3DecoderStaPause true false 4 [.read 0 4, .read 4 0] 1)
      (.turn mp3QuietEnv 0 0 0 mp3DecoderEventSeek)
      (mp3Portion mp3DecoderStaPause true false 0 [.read 0 4, .read 4 0] 1) := .turn
  have hresume : Mp3SourceStep (mp3Portion mp3DecoderStaPause true false 0 [.read 0 4, .read 4 0] 1)
      (.turn mp3QuietEnv 0 0 0 mp3DecoderEventResume)
      (mp3Portion mp3DecoderStaRun true false 0 [.read 0 4, .read 4 0] 1) := .turn
  have hdone : Mp3SourceStep (mp3Portion mp3DecoderStaRun true false 0 [.read 0 4, .read 4 0] 1)
      (.turn mp3QuietEnv 0 4 0 comFsmEventNone)
      (mp3Portion mp3DecoderStaPause true true 0 [.read 0 4, .read 4 0, .ended] 1) := .turn
  have hresumes : decoderTurnAction mp3DecoderLookup mp3DecoderStaPause mp3DecoderEventResume ∉
      [some .start, some .stop, some .seek] := by decide
  have hpolls : decoderTurnAction mp3DecoderLookup mp3DecoderStaRun comFsmEventNone ∉
      [some .start, some .stop, some .seek] := by decide
  have hgoes := hall _ _ _ _ _ 0 _ _ _ (mp3Portion_read.snoc hend) rfl (Option.some_ne_none _) hseek ⟨rfl, rfl⟩
    (.cons ⟨hresume, hresumes⟩ (.one ⟨hdone, hpolls⟩)) rfl rfl
  exact absurd hgoes.notDone (by decide)

end AudioPlayer

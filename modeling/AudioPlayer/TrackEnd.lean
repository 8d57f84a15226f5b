import Mathlib
import AudioPlayer.ComPlayerOutput

/-!
# The end of a track (`src/common_player.c:413-462`)

`__pcm_trans_data_request_callback` reads `ring_count` first and the decoder's `output_done` last. A frame
that is pushed between the two, with `output_done` set behind it, is not in the count any more that decides:
the PCM task goes to `PCM_TRANS_STA_TX_DONE`, and the frame stays in the ring.

The two threads are those of `ComPlayerOutput`, with the one flag they share besides the ring. The decoder
sets it in a poll that pushes nothing (`mp3_decoder.c:180-184`, `aac_decoder.c:299-303`), and from then on has
nothing to push until it is started again.

| here | there |
|---|---|
| `TrackEndStep.done`   | `output_done = true` in `mp3_decoder_run_poll` or `aac_decoder_run_poll` |
| `TrackEndStep.pop`    | the read of `output_done` (`common_player.c:422-429`), and the pop begins |
| `TrackEndStep.noData` | the same read, and `pcm_trans_set_tx_no_data` (`:431-434`) |
| `TrackEndStep.start`  | `com_player_start`, which starts the decoder and `pcm_trans` anew (`:100-121`) |
-/

namespace AudioPlayer
open Lib

/-- The two threads, and `output_done` of the decoder that plays. -/
structure TrackEnd where
  out        : ComPlayerOutput
  outputDone : Bool := false

inductive TrackEndAct
  | other | done | pop | noData | start
deriving DecidableEq, Repr

/-- One statement of one of the threads. -/
inductive TrackEndStep : TrackEnd → TrackEndAct → TrackEnd → Prop
  /-- A statement that has nothing to do with `output_done`; once it is set the decoder has no PCM. -/
  | other {s : TrackEnd} {out : ComPlayerOutput} (h : PcmStep s.out () out)
    (hquiet : s.outputDone = true → s.out.convert = .idle → out.convert = .idle)
    (hready : ∀ size ringCount ringFree, s.out.request = .ready size ringCount ringFree →
      out.request = .ready size ringCount ringFree) :
    TrackEndStep s .other { s with out }
  | done {s : TrackEnd} (hidle : s.out.convert = .idle) : TrackEndStep s .done { s with outputDone := true }
  | pop {s : TrackEnd} {out : ComPlayerOutput} {size ringCount ringFree : Int} (h : PcmStep s.out () out)
    (hpc : s.out.request = .ready size ringCount ringFree)
    (hnext : out.request = .pop size (requestSilence s.out.consumed size ringCount) ringCount ringFree s.outputDone
      s.out.spsc.popped.length) :
    TrackEndStep s .pop { s with out }
  | noData {s : TrackEnd} {out : ComPlayerOutput} {size ringCount ringFree : Int} (h : PcmStep s.out () out)
    (hpc : s.out.request = .ready size ringCount ringFree) (hdone : s.outputDone = true)
    (hnext : out.request = .idle) :
    TrackEndStep s .noData { s with out }
  | start {s : TrackEnd} (hconvert : s.out.convert = .idle) (hrequest : s.out.request = .idle) :
    TrackEndStep s .start { out := { s.out with inputFrames := 0, consumed := 0 }, outputDone := false }

/-- Everything decoded was popped, the ring is empty, and until the next start the decoder pushes nothing. -/
structure TrackEnd.Ended (s : TrackEnd) : Prop where
  popped : s.out.spsc.popped = (outputBytes s.out.frames).map some
  empty  : ringBufferGetCount s.out.spsc.ring = some 0
  quiet  : ∀ acts t, Steps TrackEndStep s acts t → .start ∉ acts →
    t.out.frames = s.out.frames ∧ t.out.spsc.pushed = s.out.spsc.pushed

/-- The `ring_count` a request has read and not decided on. -/
def RequestPc.ringCount? : RequestPc → Option Int
  | .counted _ ringCount => some ringCount
  | .ready _ ringCount _ => some ringCount
  | _ => none

/-- `output_done` is not set while a request holds the count of an empty ring and the ring is not empty. -/
def DoneInTime (s : TrackEnd) (a : TrackEndAct) : Prop :=
  a = .done → ∀ ringCount, s.out.request.ringCount? = some ringCount → ringCount ≤ 0 →
    s.out.spsc.popped.length = s.out.spsc.pushed.length

/-! ## What a request finds -/

/-- A decoder that is done has no PCM, and a request that read an empty ring finds it empty. -/
structure TrackEnd.Inv (s : TrackEnd) : Prop where
  out   : s.out.Inv
  quiet : s.outputDone = true → s.out.convert = .idle
  drawn : s.outputDone = true → ∀ ringCount, s.out.request.ringCount? = some ringCount → ringCount ≤ 0 →
    s.out.spsc.popped.length = s.out.spsc.pushed.length

section
variable {s t : ComPlayerOutput}

theorem PcmStep.pushed_of_idle (h : PcmStep s () t) (hinv : s.Inv) (hidle : s.convert = .idle) :
    t.spsc.pushed = s.spsc.pushed ∧ t.frames = s.frames := by
  have hproducer := hinv.convert
  rw [hidle] at hproducer
  cases h with
  | process hpc =>
    rw [hidle] at hpc
    cases hpc
  | producer hstep =>
    cases hstep
    dsimp only
    rw [show s.spsc.producer = .idle from hproducer]
    exact ⟨List.append_nil _, rfl⟩
  | consumer hstep => cases hstep; exact ⟨rfl, rfl⟩
  | pop _ _ _ hpop => cases hpop; exact ⟨rfl, rfl⟩
  | seek _ hclear => cases hclear; exact ⟨rfl, rfl⟩
  | _ => exact ⟨rfl, rfl⟩

theorem PcmStep.popped_le (h : PcmStep s () t) : s.spsc.popped.length ≤ t.spsc.popped.length := by
  cases h with
  | process _ _ _ hpush => cases hpush; exact Nat.le_refl _
  | producer hstep => cases hstep; exact Nat.le_refl _
  | consumer hstep =>
    cases hstep
    rw [List.length_append]
    exact Nat.le_add_right _ _
  | pop _ _ _ hpop => cases hpop; exact Nat.le_refl _
  | seek _ hclear => cases hclear; exact Nat.le_refl _
  | _ => exact Nat.le_refl _

/-- A count that a request holds after a step it held before, or it has just read it. -/
theorem PcmStep.ringCount? (h : PcmStep s () t) {ringCount : Int} (ht : t.request.ringCount? = some ringCount) :
    s.request.ringCount? = some ringCount ∨
      ringBufferGetCount s.spsc.ring = some ringCount ∧ t.spsc = s.spsc := by
  cases h with
  | ringCount _ hcount =>
    obtain rfl := Option.some.inj ht
    exact .inr ⟨hcount, rfl⟩
  | ringFree hpc =>
    rw [hpc]
    exact .inl ht
  | request => cases ht
  | noData => cases ht
  | pop => cases ht
  | popped => cases ht
  | seek => cases ht
  | cleared => cases ht
  | _ => exact .inl ht

/-- A request that decides leaves the decoder alone, and gives up only with an empty count. -/
theorem PcmStep.decided (h : PcmStep s () t) {size ringCount ringFree : Int}
    (hpc : s.request = .ready size ringCount ringFree) (hne : t.request ≠ s.request) :
    t.convert = s.convert ∧ t.frames = s.frames ∧ (t.request = .idle → ringCount ≤ 0 ∧ t.spsc = s.spsc) := by
  cases h with
  | noData hpc' hcount =>
    obtain ⟨rfl, rfl, rfl⟩ := RequestPc.ready.inj (hpc.symm.trans hpc')
    exact ⟨rfl, rfl, fun _ => ⟨hcount, rfl⟩⟩
  | pop => exact ⟨rfl, rfl, by intro h; cases h⟩
  | request hidle => cases hpc.symm.trans hidle
  | ringCount hpc' => cases hpc.symm.trans hpc'
  | ringFree hpc' => cases hpc.symm.trans hpc'
  | popped hpc' => cases hpc.symm.trans hpc'
  | cleared hpc' => cases hpc.symm.trans hpc'
  | seek hidle => cases hpc.symm.trans hidle
  | _ => exact absurd rfl hne

theorem ComPlayerOutput.Inv.popped_le (h : s.Inv) : s.spsc.popped.length ≤ s.spsc.pushed.length := by
  have := h.ring.in_order.length_le
  rwa [List.length_map] at this

end

section
variable {s t : TrackEnd} {a : TrackEndAct}

/-- The output takes a step of its own, or none. -/
theorem TrackEndStep.out (h : TrackEndStep s a t) (hinv : s.out.Inv) : t.out.Inv := by
  cases h with
  | other h => exact hinv.step h
  | done => exact hinv
  | pop h => exact hinv.step h
  | noData h => exact hinv.step h
  | start hconvert hrequest => exact hinv.step (.start hconvert hrequest)

/-- A step that leaves `output_done` set leaves what was pushed. -/
theorem TrackEndStep.quiet (h : TrackEndStep s a t) (hinv : s.out.Inv) (hdone : s.outputDone = true)
    (hidle : s.out.convert = .idle) (ha : a ≠ .start) :
    t.outputDone = true ∧ t.out.convert = .idle ∧ t.out.frames = s.out.frames ∧
      t.out.spsc.pushed = s.out.spsc.pushed := by
  cases h with
  | other h hquiet =>
    obtain ⟨hpushed, hframes⟩ := h.pushed_of_idle hinv hidle
    exact ⟨hdone, hquiet hdone hidle, hframes, hpushed⟩
  | done => exact ⟨rfl, hidle, rfl, rfl⟩
  | pop h hpc hnext =>
    obtain ⟨hpushed, hframes⟩ := h.pushed_of_idle hinv hidle
    have hconvert := (h.decided hpc (by rw [hpc, hnext]; exact RequestPc.noConfusion)).1
    exact ⟨hdone, hconvert.trans hidle, hframes, hpushed⟩
  | noData h hpc _ hnext =>
    obtain ⟨hpushed, hframes⟩ := h.pushed_of_idle hinv hidle
    have hconvert := (h.decided hpc (by rw [hpc, hnext]; exact RequestPc.noConfusion)).1
    exact ⟨hdone, hconvert.trans hidle, hframes, hpushed⟩
  | start => exact absurd rfl ha

theorem TrackEnd.quiet_run {acts : List TrackEndAct} (h : Steps TrackEndStep s acts t) (hinv : s.out.Inv)
    (hdone : s.outputDone = true) (hidle : s.out.convert = .idle) (hacts : .start ∉ acts) :
    t.out.frames = s.out.frames ∧ t.out.spsc.pushed = s.out.spsc.pushed := by
  have hall : t.out.Inv ∧ t.outputDone = true ∧ t.out.convert = .idle ∧ t.out.frames = s.out.frames ∧
      t.out.spsc.pushed = s.out.spsc.pushed := by
    induction h with
    | nil => exact ⟨hinv, hdone, hidle, rfl, rfl⟩
    | @snoc u v as a _ hstep ih =>
      rw [List.mem_append, not_or, List.mem_singleton] at hacts
      obtain ⟨hinv', hdone', hidle', hframes, hpushed⟩ := ih hacts.1
      obtain ⟨hdone'', hidle'', hframes', hpushed'⟩ := hstep.quiet hinv' hdone' hidle' (Ne.symm hacts.2)
      exact ⟨hstep.out hinv', hdone'', hidle'', hframes'.trans hframes, hpushed'.trans hpushed⟩
  exact hall.2.2.2

/-- The count a request holds is kept up to date by nothing but the decoder being done. -/
theorem TrackEnd.Inv.drawn_step {out : ComPlayerOutput} (h : s.Inv) (hdone : s.outputDone = true)
    (hstep : PcmStep s.out () out) {ringCount : Int} (hheld : out.request.ringCount? = some ringCount)
    (hle : ringCount ≤ 0) : out.spsc.popped.length = out.spsc.pushed.length := by
  have hinv := h.out.step hstep
  have hpushed := (hstep.pushed_of_idle h.out (h.quiet hdone)).1
  have hall : s.out.spsc.popped.length = s.out.spsc.pushed.length := by
    rcases hstep.ringCount? hheld with hbefore | ⟨hread, -⟩
    · exact h.drawn hdone ringCount hbefore hle
    · rw [h.out.ring.published.getCount] at hread
      have hread := Option.some.inj hread
      have := h.out.popped_le
      omega
  have hmore := hstep.popped_le
  have hmost := hinv.popped_le
  rw [hpushed] at hmost ⊢
  omega

theorem TrackEnd.Inv.step (h : s.Inv) (hstep : TrackEndStep s a t) (ha : DoneInTime s a) : t.Inv := by
  have hout := hstep.out h.out
  by_cases hstart : a = .start
  · subst hstart
    cases hstep
    exact ⟨hout, (by intro h; cases h), (by intro h; cases h)⟩
  · have hquiet := fun hdone => hstep.quiet h.out hdone (h.quiet hdone) hstart
    cases hstep with
    | other hpcm => exact ⟨hout, fun hdone => (hquiet hdone).2.1, fun hdone _ => h.drawn_step hdone hpcm⟩
    | pop hpcm => exact ⟨hout, fun hdone => (hquiet hdone).2.1, fun hdone _ => h.drawn_step hdone hpcm⟩
    | noData hpcm => exact ⟨hout, fun hdone => (hquiet hdone).2.1, fun hdone _ => h.drawn_step hdone hpcm⟩
    | done hidle => exact ⟨hout, fun _ => hidle, fun _ => ha rfl⟩
    | start => exact absurd rfl hstart

/-- A request that finds the decoder done and no byte ends the track. -/
theorem TrackEnd.Inv.ended (h : s.Inv) (hstep : TrackEndStep s .noData t) : t.Ended := by
  have hout := hstep.out h.out
  cases hstep with
  | @noData out size ringCount ringFree hpcm hpc hdone hnext =>
    obtain ⟨hconvert, hframes, hgave⟩ := hpcm.decided hpc (by rw [hpc, hnext]; exact RequestPc.noConfusion)
    obtain ⟨hcount, hspsc⟩ := hgave hnext
    have hidle := hconvert.trans (h.quiet hdone)
    have hall := h.drawn hdone ringCount (by rw [hpc]; rfl) hcount
    rw [← hspsc] at hall
    have hproducer := hout.convert
    dsimp only at hproducer hout
    rw [hidle] at hproducer
    refine ⟨?_, ?_, fun acts u hrun hacts => TrackEnd.quiet_run hrun hout hdone hidle hacts⟩
    · have hstream := hout.stream
      rw [show out.spsc.producer = .idle from hproducer, show (SpscPush.idle : SpscPush Byte).source = [] from rfl,
        List.append_nil] at hstream
      dsimp only
      rw [← hstream]
      exact hout.ring.in_order.eq_of_length (by rw [List.length_map]; exact hall)
    · rw [hout.ring.published.getCount, hall, Nat.sub_self]
      rfl

end

/-- The player with a new ring. -/
def comPlayerTrack (r : RingBuffer Byte) : TrackEnd := { out := { spsc := RingSpsc.started r } }

theorem comPlayerTrack_inv {r : RingBuffer Byte} (h : ringBufferInit comPlayerOutputSize = some r) :
    (comPlayerTrack r).Inv := by
  exact ⟨comPlayerOutput_inv h (Reach.refl _), (by intro h; cases h), (by intro h; cases h)⟩

/-- **The end of a track is the end of its PCM** in every run in which the decoder is not done between the
count of an empty ring and the decision on it. -/
theorem comPlayer_trackEnd {r : RingBuffer Byte} {acts : List TrackEndAct} {s t : TrackEnd}
    (hinit : ringBufferInit comPlayerOutputSize = some r)
    (hrun : Steps (Restrict TrackEndStep DoneInTime) (comPlayerTrack r) acts s)
    (hstep : TrackEndStep s .noData t) : t.Ended :=
  (hrun.invariant (I := TrackEnd.Inv) (fun _ _ _ h hs => h.step hs.1 hs.2) (comPlayerTrack_inv hinit)).ended hstep

/-! ## A track of one frame -/

/-- The ring of the player, with these cells and indices. -/
def pcmRing (read write : Int) (buffer : List (Option Byte)) : RingBuffer Byte := ⟨read, write, 32769, buffer⟩

theorem PcmStep.decoder {out out' : ComPlayerOutput} (h : PcmStep out () out')
    (hrequest : out'.request = out.request) :
    Restrict TrackEndStep DoneInTime ⟨out, false⟩ .other ⟨out', false⟩ := by
  refine ⟨.other h (by intro h; cases h) ?_, by intro h; cases h⟩
  intro size ringCount ringFree hpc
  exact hrequest.trans hpc

/-- The two threads at these statements. -/
def pcmThreads (spsc : RingSpsc Byte) (convert : ConvertPc) (request : RequestPc) (frames : List PcmFrame) :
    ComPlayerOutput := { spsc, convert, request, frames }

/-- The decoder decodes and pushes one frame, whatever the request is doing. -/
theorem push_one_frame {cells : List (Option Byte)} (hcells : cells.length = 32769) (q : RequestPc) :
    ∃ buffer : List (Option Byte), buffer.length = 32769 ∧
      buffer.take 4 = (outputBytes [⟨1, 1⟩]).map some ∧
      Steps (Restrict TrackEndStep DoneInTime)
        ⟨pcmThreads ⟨pcmRing 0 0 cells, .idle, .idle, [], []⟩ .idle q [], false⟩ (List.replicate 8 .other)
        ⟨pcmThreads ⟨pcmRing 0 4 buffer, .idle, .idle, outputBytes [⟨1, 1⟩], []⟩ .idle q [⟨1, 1⟩], false⟩ := by
  obtain ⟨buffer, hcopy, hlen, htake⟩ : ∃ buffer : List (Option Byte),
      memcpy? cells 0 ((outputBytes [⟨1, 1⟩]).map some) 4 = some buffer ∧
      buffer.length = 32769 ∧ buffer.take 4 = (outputBytes [⟨1, 1⟩]).map some := by
    have hfour : ((outputBytes [⟨1, 1⟩]).map some).length = 4 := rfl
    have hcopy : memcpy? cells (0 : Nat) ((outputBytes [⟨1, 1⟩]).map some) (4 : Nat) = _ :=
      memcpy?_eq (by omega) hfour.ge
    refine ⟨_, hcopy, ?_, ?_⟩
    · simp [hcells]
    · rw [List.take_zero, List.nil_append, List.take_append_of_le_length (by simp), List.take_take]
      rfl
  refine ⟨buffer, hlen, htake, ?_⟩
  have hsized : pushStep (pcmRing 0 0 cells) (.entered (outputBytes [⟨1, 1⟩])) =
      some (pcmRing 0 0 cells, .sized (outputBytes [⟨1, 1⟩]) 32769) := rfl
  have hcount : pushStep (pcmRing 0 0 cells) (.sized (outputBytes [⟨1, 1⟩]) 32769) =
      some (pcmRing 0 0 cells, .copy (outputBytes [⟨1, 1⟩]) 32769 4) := rfl
  have hcopied : pushStep (pcmRing 0 0 cells) (.copy (outputBytes [⟨1, 1⟩]) 32769 4) =
      some (pcmRing 0 0 buffer, .store (outputBytes [⟨1, 1⟩]) 4) := by
    rw [pushStep, if_pos (by decide), show (pcmRing 0 0 cells).buffer = cells from rfl,
      show (pcmRing 0 0 cells).write = 0 from rfl, hcopy]
    rfl
  have hstored : pushStep (pcmRing 0 0 buffer) (.store (outputBytes [⟨1, 1⟩]) 4) =
      some (pcmRing 0 4 buffer, .idle) := rfl
  have houtput : PcmStep (pcmThreads ⟨pcmRing 0 0 cells, .idle, .idle, [], []⟩ .idle q []) ()
      (pcmThreads ⟨pcmRing 0 0 cells, .idle, .idle, [], []⟩ (.loop ⟨2, 4, 0⟩) q []) := .output rfl (.inr rfl)
  have hfree : PcmStep (pcmThreads ⟨pcmRing 0 0 cells, .idle, .idle, [], []⟩ (.loop ⟨2, 4, 0⟩) q []) ()
      (pcmThreads ⟨pcmRing 0 0 cells, .idle, .idle, [], []⟩ (.convert ⟨2, 4, 0⟩ 8192) q []) := by
    have hloop : convertLoop ⟨2, 4, 0⟩ 32768 = .convert ⟨2, 4, 0⟩ 8192 := rfl
    rw [← hloop]
    exact .free rfl rfl
  have hprocess : PcmStep (pcmThreads ⟨pcmRing 0 0 cells, .idle, .idle, [], []⟩ (.convert ⟨2, 4, 0⟩ 8192) q []) ()
      (pcmThreads ⟨pcmRing 0 0 cells, .entered (outputBytes [⟨1, 1⟩]), .idle, [], []⟩ (.push ⟨2, 4, 4⟩) q
        [⟨1, 1⟩]) := by
    have hpush : SpscStep ⟨pcmRing 0 0 cells, .idle, .idle, [], []⟩ (.push ⟨outputBytes [⟨1, 1⟩], by decide⟩) _ :=
      .push rfl
    have h : PcmStep (pcmThreads ⟨pcmRing 0 0 cells, .idle, .idle, [], []⟩ (.convert ⟨2, 4, 0⟩ 8192) q []) () _ :=
      .process rfl Int.one_pos (by decide) hpush
    exact h
  have hinside : ∀ {r r' : RingBuffer Byte} {p p' : SpscPush Byte}, pushStep r p = some (r', p') → p.accepted = [] →
      PcmStep (pcmThreads ⟨r, p, .idle, [], []⟩ (.push ⟨2, 4, 4⟩) q [⟨1, 1⟩]) ()
        (pcmThreads ⟨r', p', .idle, [], []⟩ (.push ⟨2, 4, 4⟩) q [⟨1, 1⟩]) :=
    fun h ha => .producer (.producer_inside h ha)
  have hlast : PcmStep (pcmThreads ⟨pcmRing 0 0 buffer, .store (outputBytes [⟨1, 1⟩]) 4, .idle, [], []⟩
      (.push ⟨2, 4, 4⟩) q [⟨1, 1⟩]) ()
      (pcmThreads ⟨pcmRing 0 4 buffer, .idle, .idle, outputBytes [⟨1, 1⟩], []⟩ (.push ⟨2, 4, 4⟩) q [⟨1, 1⟩]) :=
    .producer (.producer hstored)
  have hpushed : PcmStep
      (pcmThreads ⟨pcmRing 0 4 buffer, .idle, .idle, outputBytes [⟨1, 1⟩], []⟩ (.push ⟨2, 4, 4⟩) q [⟨1, 1⟩]) ()
      (pcmThreads ⟨pcmRing 0 4 buffer, .idle, .idle, outputBytes [⟨1, 1⟩], []⟩ .idle q [⟨1, 1⟩]) := by
    have hcall : convertPushed ⟨2, 4, 4⟩ = .idle := rfl
    rw [← hcall]
    exact .pushed rfl rfl
  exact .cons (houtput.decoder rfl) (.cons (hfree.decoder rfl) (.cons (hprocess.decoder rfl)
    (.cons ((hinside hsized rfl).decoder rfl) (.cons ((hinside hcount rfl).decoder rfl)
    (.cons ((hinside hcopied rfl).decoder rfl) (.cons (hlast.decoder rfl) (.one (hpushed.decoder rfl))))))))

theorem ringBufferInit_pcm : ringBufferInit comPlayerOutputSize = some (pcmRing 0 0 (List.replicate 32769 none)) := by
  have hsize : toI32 (toU32 (comPlayerOutputSize + 1)) = 32769 := rfl
  rw [ringBufferInit, hsize, if_pos (by decide)]
  rfl

theorem PcmStep.asks {out out' : ComPlayerOutput} {done : Bool} (h : PcmStep out () out')
    (hconvert : out'.convert = out.convert)
    (hready : ∀ size ringCount ringFree, out.request ≠ .ready size ringCount ringFree) :
    Restrict TrackEndStep DoneInTime ⟨out, done⟩ .other ⟨out', done⟩ := by
  refine ⟨.other h ?_ ?_, by intro h; cases h⟩
  · intro _ hidle
    exact hconvert.trans hidle
  · intro size ringCount ringFree hpc
    exact absurd hpc (hready size ringCount ringFree)

/-- A request of 4096 bytes reads the counts. -/
theorem request_counts {r : RingBuffer Byte} {pushed : List Byte} {popped : List (Option Byte)} {consumed : Int}
    {frames : List PcmFrame} {blocks : List PcmBlock} {done : Bool} {ringCount ringFree : Int}
    (hcount : ringBufferGetCount r = some ringCount) (hfree : ringBufferGetFreeCount r = some ringFree) :
    Steps (Restrict TrackEndStep DoneInTime)
      ⟨{ spsc := ⟨r, .idle, .idle, pushed, popped⟩, consumed, frames, blocks }, done⟩ (List.replicate 3 .other)
      ⟨{ spsc := ⟨r, .idle, .idle, pushed, popped⟩, request := .ready 4096 ringCount ringFree
         consumed, frames, blocks }, done⟩ := by
  have hrequest : PcmStep { spsc := ⟨r, .idle, .idle, pushed, popped⟩, consumed, frames, blocks } ()
      { spsc := ⟨r, .idle, .idle, pushed, popped⟩, request := .entered 4096, consumed, frames, blocks } :=
    .request rfl (by decide) (by decide) (by decide)
  have hcount : PcmStep
      { spsc := ⟨r, .idle, .idle, pushed, popped⟩, request := .entered 4096, consumed, frames, blocks } ()
      { spsc := ⟨r, .idle, .idle, pushed, popped⟩, request := .counted 4096 ringCount, consumed, frames, blocks } :=
    .ringCount rfl hcount
  have hfree : PcmStep
      { spsc := ⟨r, .idle, .idle, pushed, popped⟩, request := .counted 4096 ringCount, consumed, frames, blocks } ()
      { spsc := ⟨r, .idle, .idle, pushed, popped⟩, request := .ready 4096 ringCount ringFree
        consumed, frames, blocks } :=
    .ringFree rfl hfree
  exact .cons (hrequest.asks rfl (by intro _ _ _ h; cases h)) (.cons (hcount.asks rfl (by intro _ _ _ h; cases h))
    (.one (hfree.asks rfl (by intro _ _ _ h; cases h))))

theorem comPlayer_trackEnd_one : ∃ t : TrackEnd, t.out.frames = [⟨1, 1⟩] ∧ t.Ended := by
  have hcells : (List.replicate 32769 (none : Option Byte)).length = 32769 := List.length_replicate
  have hinit := ringBufferInit_pcm
  generalize List.replicate 32769 (none : Option Byte) = cells at hcells hinit
  obtain ⟨buffer, hlen, htake, hframe⟩ := push_one_frame hcells .idle
  have hdone : Restrict TrackEndStep DoneInTime
      ⟨pcmThreads ⟨pcmRing 0 4 buffer, .idle, .idle, outputBytes [⟨1, 1⟩], []⟩ .idle .idle [⟨1, 1⟩], false⟩ .done
      ⟨pcmThreads ⟨pcmRing 0 4 buffer, .idle, .idle, outputBytes [⟨1, 1⟩], []⟩ .idle .idle [⟨1, 1⟩], true⟩ :=
    ⟨.done rfl, by intro _ _ h; cases h⟩
  have hasked := (hframe.snoc hdone).append (request_counts rfl rfl)
  -- a third of the request is silence, and the rest of it is more than the frame
  have hpop : PcmStep
      { spsc := ⟨pcmRing 0 4 buffer, .idle, .idle, outputBytes [⟨1, 1⟩], []⟩, request := .ready 4096 4 32764
        frames := [⟨1, 1⟩] } ()
      { spsc := ⟨pcmRing 0 4 buffer, .idle, .entered true 2732, outputBytes [⟨1, 1⟩], []⟩
        request := .pop 4096 1364 4 32764 true 0, frames := [⟨1, 1⟩] } := by
    have hsize : (((⟨2732, by decide⟩ : Fin 4294967296) : Nat) : Int) = toU32 (4096 - requestSilence 0 4096 4) := rfl
    have hcall : SpscStep ⟨pcmRing 0 4 buffer, .idle, .idle, outputBytes [⟨1, 1⟩], []⟩
        (.pop true ⟨2732, by decide⟩) _ := .pop rfl
    have h : PcmStep { spsc := ⟨pcmRing 0 4 buffer, .idle, .idle, outputBytes [⟨1, 1⟩], []⟩
                       request := .ready 4096 4 32764, frames := [⟨1, 1⟩] } () _ :=
      .pop rfl (show ¬ (true = true ∧ (4 : Int) ≤ 0) by decide) hsize hcall
    exact h
  have hdecides := hasked.snoc ⟨.pop hpop rfl rfl, by intro h; cases h⟩
  have hinside : ∀ {r r' : RingBuffer Byte} {c c' : SpscPop Byte}, popStep r c = some (r', c') → c.taken r = [] →
      PcmStep { spsc := ⟨r, .idle, c, outputBytes [⟨1, 1⟩], []⟩, request := .pop 4096 1364 4 32764 true 0
                frames := [⟨1, 1⟩] } ()
        { spsc := ⟨r', .idle, c', outputBytes [⟨1, 1⟩], []⟩, request := .pop 4096 1364 4 32764 true 0
          frames := [⟨1, 1⟩] } := fun h ht => .consumer (.consumer_inside h ht)
  have hsized : popStep (pcmRing 0 4 buffer) (.entered true 2732) =
      some (pcmRing 0 4 buffer, .sized true 2732 32769) := rfl
  have hcopy : popStep (pcmRing 0 4 buffer) (.sized true 2732 32769) =
      some (pcmRing 0 4 buffer, .copy 32769 4) := rfl
  have hstore : popStep (pcmRing 0 4 buffer) (.copy 32769 4) =
      some (pcmRing 0 4 buffer, .store (some ((outputBytes [⟨1, 1⟩]).map some)) 4) := by
    have hread : memread? buffer 0 4 = some ((buffer.drop 0).take 4) :=
      memread?_eq (show 0 + 4 ≤ buffer.length by omega)
    rw [List.drop_zero, htake] at hread
    rw [popStep, if_pos (by decide), show (pcmRing 0 4 buffer).buffer = buffer from rfl,
      show (pcmRing 0 4 buffer).read = 0 from rfl, hread]
    rfl
  have hgiven : PcmStep { spsc := ⟨pcmRing 0 4 buffer, .idle, .store (some ((outputBytes [⟨1, 1⟩]).map some)) 4,
        outputBytes [⟨1, 1⟩], []⟩, request := .pop 4096 1364 4 32764 true 0, frames := [⟨1, 1⟩] } ()
      { spsc := ⟨pcmRing 4 4 buffer, .idle, .idle, outputBytes [⟨1, 1⟩], (outputBytes [⟨1, 1⟩]).map some⟩
        request := .pop 4096 1364 4 32764 true 0, frames := [⟨1, 1⟩] } := .consumer (.consumer rfl)
  have hanswer : PcmStep
      { spsc := ⟨pcmRing 4 4 buffer, .idle, .idle, outputBytes [⟨1, 1⟩], (outputBytes [⟨1, 1⟩]).map some⟩
        request := .pop 4096 1364 4 32764 true 0, frames := [⟨1, 1⟩] } () _ :=
    @PcmStep.popped _ _ _ _ _ _ true _ rfl rfl
  have hpopped := (((hdecides.snoc ((hinside hsized rfl).asks rfl (by intro _ _ _ h; cases h))).snoc
    ((hinside hcopy rfl).asks rfl (by intro _ _ _ h; cases h))).snoc
    ((hinside hstore rfl).asks rfl (by intro _ _ _ h; cases h))).snoc
    (hgiven.asks rfl (by intro _ _ _ h; cases h))
  have hasked := (hpopped.snoc (hanswer.asks rfl (by intro _ _ _ h; cases h))).append (request_counts rfl rfl)
  exact ⟨_, rfl, comPlayer_trackEnd hinit hasked (.noData (.noData rfl (Int.le_refl 0)) rfl rfl rfl)⟩

/-- A frame comes and the decoder is done while a request has counted nothing: the frame stays behind. -/
theorem comPlayer_tail_lost : ¬ ∀ (r : RingBuffer Byte) (acts : List TrackEndAct) (s t : TrackEnd),
    ringBufferInit comPlayerOutputSize = some r → Steps TrackEndStep (comPlayerTrack r) acts s →
    TrackEndStep s .noData t → t.Ended := by
  intro hall
  have hcells : (List.replicate 32769 (none : Option Byte)).length = 32769 := List.length_replicate
  have hinit := ringBufferInit_pcm
  generalize List.replicate 32769 (none : Option Byte) = cells at hcells hinit
  obtain ⟨buffer, -, -, hframe⟩ := push_one_frame hcells (.ready 4096 0 32768)
  have hrequest : PcmStep (pcmThreads ⟨pcmRing 0 0 cells, .idle, .idle, [], []⟩ .idle .idle []) ()
      (pcmThreads ⟨pcmRing 0 0 cells, .idle, .idle, [], []⟩ .idle (.entered 4096) []) :=
    .request rfl (by decide) (by decide) (by decide)
  have hcount : PcmStep (pcmThreads ⟨pcmRing 0 0 cells, .idle, .idle, [], []⟩ .idle (.entered 4096) []) ()
      (pcmThreads ⟨pcmRing 0 0 cells, .idle, .idle, [], []⟩ .idle (.counted 4096 0) []) := .ringCount rfl rfl
  have hfree : PcmStep (pcmThreads ⟨pcmRing 0 0 cells, .idle, .idle, [], []⟩ .idle (.counted 4096 0) []) ()
      (pcmThreads ⟨pcmRing 0 0 cells, .idle, .idle, [], []⟩ .idle (.ready 4096 0 32768) []) := .ringFree rfl rfl
  have hread : Steps (Restrict TrackEndStep DoneInTime) (comPlayerTrack (pcmRing 0 0 cells)) _ _ :=
    .cons (hrequest.asks rfl (by intro _ _ _ h; cases h)) (.cons (hcount.asks rfl (by intro _ _ _ h; cases h))
      (.cons (hfree.asks rfl (by intro _ _ _ h; cases h)) hframe))
  have hrun := (hread.mono fun _ _ _ h => h.1).snoc (.done rfl)
  have hend := hall _ _ _ _ hinit hrun (.noData (.noData rfl (Int.le_refl 0)) rfl rfl rfl)
  cases hend.popped

end AudioPlayer

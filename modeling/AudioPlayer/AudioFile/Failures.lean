import Mathlib
import AudioPlayer.AudioFile.Steps

/-!
# What a failed call leaves (`src/audio_file.c:254-400`)

`audio_file_read` and `audio_file_seek` first take from the preread bytes, then pop from the download, and return in
the middle when a wait or `f_lseek` fails. What was taken until then is gone: it is neither handed over nor put back,
and after a failed skip `read_pos` does not even count it.

`Kept` is that nothing is gone. `FailsFirst` says of the download, of what the first wait answers and of `f_lseek` that
nothing can have been taken when the call fails.
-/

namespace AudioPlayer
open Lib

/-- The logical position: what `read_pos` is ahead of is in the preread buffer. -/
def OpenFile.position (s : OpenFile) : Int := s.file.readPos - s.file.preread.length

/-- From `s'` everything is read as from `s`, but for what the download did meanwhile. -/
structure Kept (m : AudioMedia) (s s' : OpenFile) : Prop where
  position : s'.position = s.position
  preread  : s'.file.preread = s.file.preread
  buffered : Untaken s.download s'.download
  fptr     : s'.fptr = s.fptr
  retry    : ∀ env c, s'.call m env c = { s with download := s'.download }.call m env c

/-- A pass of a read comes to its wait for `len` bytes, as the download has not finished and `http_buffer` holds less;
the wait answers `ok` and leaves the download at `d'`. -/
structure Waits (turn : WebTurn) (len : Nat) (f : AudioFile) (d : WebDownload) (ok : Bool) (d' : WebDownload) : Prop where
  going  : httpDownloadIsFinish (d.applies turn.before) = false
  short  : ((d.applies turn.before).applies turn.counted).buffer.length < len
  answer : audioFileWaitBuffer turn len f ((d.applies turn.before).applies turn.counted) = some (ok, d')

/-- The first wait of a read fails; that of a skip fails, or it ends with nothing in `http_buffer`; `f_lseek` leaves the
file pointer. -/
def OpenFile.FailsFirst (env : AudioFileAnswers) (s : OpenFile) : AudioFileCall → Prop
  | .read size => ∃ turn turns d, env.turns = turn :: turns ∧
      Waits turn (min size audioFileHttpMaxSeek) s.file s.download false d
  | .seek position =>
    (s.file.fileType = .web → ∃ turn turns ok d, env.turns = turn :: turns ∧
      audioFileWaitBuffer turn (min (toI32 (position - s.file.readPos)).toNat audioFileHttpMaxSeek) s.file s.download =
        some (ok, d) ∧ (ok = true → d.buffer = [])) ∧
    (s.file.fileType = .sdCard → env.fLseek = some s.fptr)
  | _ => False

/-- A read or a seek. -/
def AudioFileCall.Moves : AudioFileCall → Prop
  | .read _ | .seek _ => True
  | _ => False

/-! ## The two loops -/

section
variable {C : WebEvent → Prop} {turns : List WebTurn} {turn : WebTurn} {size diff : Nat} {bs bs' : List Byte}
  {f f' : AudioFile} {d d' : WebDownload} {ok : Bool}

theorem pop_finish (n : Nat) (h : httpDownloadIsFinish d = true) : httpDownloadIsFinish (d.pop n).2 = true := h

/-- A pass fails exactly where it comes to a wait that does. -/
theorem audioFileReadPass_fails {len : Nat} :
    audioFileReadPass turn len f d = some (.fails d') ↔ Waits turn len f d false d' := by
  unfold audioFileReadPass
  dsimp only
  constructor
  · intro h
    split at h
    · split at h <;> cases h
    rename_i hgoing
    split at h
    · rename_i hshort
      cases hwait : audioFileWaitBuffer turn len f ((d.applies turn.before).applies turn.counted) with
      | none =>
        rw [hwait] at h
        cases h
      | some res =>
        obtain ⟨ok, d1⟩ := res
        rw [hwait] at h
        cases ok with
        | true => cases h
        | false =>
          cases h
          exact ⟨Bool.eq_false_of_not_eq_true hgoing, hshort, hwait⟩
    · cases h
  · rintro ⟨hgoing, hshort, hwait⟩
    rw [hgoing, if_neg Bool.false_ne_true, if_pos hshort, hwait]

/-- A pass of a seek pops nothing exactly where its wait fails or ends with an empty buffer. -/
theorem audioFileSkipPass_none (hdiff : diff ≠ 0) :
    (∃ ok d1, audioFileSkipPass turn diff f d = some (ok, diff, d1)) ↔ ∃ ok d1,
      audioFileWaitBuffer turn (min diff audioFileHttpMaxSeek) f d = some (ok, d1) ∧ (ok = true → d1.buffer = []) := by
  have hmin : 0 < min diff audioFileHttpMaxSeek := by
    unfold audioFileHttpMaxSeek
    omega
  unfold audioFileSkipPass
  dsimp only
  generalize min diff audioFileHttpMaxSeek = size at hmin
  cases hwait : audioFileWaitBuffer turn size f d with
  | none =>
    constructor
    · rintro ⟨ok, d1, h⟩
      cases h
    · rintro ⟨ok, d1, h, -⟩
      cases h
  | some res =>
    obtain ⟨ok, d2⟩ := res
    cases ok with
    | false => exact iff_of_true ⟨false, d2, rfl⟩ ⟨false, d2, rfl, nofun⟩
    | true =>
      have hlen : ((d2.applies turn.after).buffer.take size).length = min size (d2.applies turn.after).buffer.length :=
        List.length_take
      have hafter := after_reach f.readPos turn d2
      constructor
      · rintro ⟨ok, d1, h⟩
        obtain ⟨-, h⟩ := Prod.mk.inj (Option.some.inj h)
        have hsub : diff - ((d2.applies turn.after).buffer.take size).length = diff := (Prod.mk.inj h).1
        refine ⟨true, d2, rfl, fun _ => List.length_eq_zero_iff.1 ?_⟩
        have := (reach_untaken hafter).buffer.length_le
        omega
      · rintro ⟨ok, d1, h, hnone⟩
        cases h
        have hempty := hnone rfl
        have hfinish := (audioFileWaitBuffer_true hwait).resolve_left (by rw [hempty, List.length_nil]; omega)
        refine ⟨true, ((d2.applies turn.after).pop size).2, ?_⟩
        have hzero : ((d2.applies turn.after).pop size).1.length = 0 := by
          show ((d2.applies turn.after).buffer.take size).length = 0
          rw [hlen, reach_finish hafter hfinish, hempty, List.length_nil, Nat.min_zero]
        simp only [hzero, Nat.sub_zero]

/-- What the loop of a read leaves: `popped` is what it took. -/
structure ReadRun (size : Nat) (bs bs' : List Byte) (f f' : AudioFile) (d d' : WebDownload) (popped : List Byte) :
    Prop where
  bytes     : bs' = bs ++ popped
  le        : popped.length ≤ size
  file      : f' = { f with readPos := f'.readPos }
  readPos   : f.readPos < 4294967296 → f'.readPos = (f.readPos + popped.length) % 4294967296
  readCount : d'.readCount = d.readCount + popped.length
  buffer    : d.buffer <+: popped ++ d'.buffer

theorem ReadRun.nil (h : Untaken d d') : ReadRun size bs bs f f d d' [] :=
  ⟨(List.append_nil bs).symm, Nat.zero_le _, rfl, fun hlt => (Nat.mod_eq_of_lt hlt).symm, h.readCount, h.buffer⟩

/-- A pop and the run after it. -/
theorem ReadRun.cons {d1 : WebDownload} {n : Nat} {popped : List Byte} (hn : n ≤ size) (h : Untaken d d1)
    (hrun : ReadRun (size - (d1.pop n).1.length) (bs ++ (d1.pop n).1) bs'
      { f with readPos := (f.readPos + (d1.pop n).1.length) % 4294967296 } f' (d1.pop n).2 d' popped) :
    ReadRun size bs bs' f f' d d' ((d1.pop n).1 ++ popped) where
  bytes := by rw [hrun.bytes, List.append_assoc]
  le := by
    have hle : (d1.pop n).1.length ≤ n := List.length_take_le _ _
    have := hrun.le
    rw [List.length_append]
    omega
  file := hrun.file
  readPos := by
    intro _
    rw [hrun.readPos (Nat.mod_lt _ (by omega)), List.length_append]
    dsimp only
    omega
  readCount := by
    rw [hrun.readCount, List.length_append]
    show d1.readCount + (d1.pop n).1.length + popped.length = _
    rw [h.readCount, Nat.add_assoc]
  buffer := by
    have hrest : d1.buffer.drop n <+: popped ++ d'.buffer := hrun.buffer
    rw [List.append_assoc]
    refine h.buffer.trans ?_
    have happend := (List.prefix_append_right_inj (d1.buffer.take n)).2 hrest
    rwa [List.take_append_drop] at happend

theorem audioFileReadWeb_run (hturns : ∀ turn ∈ turns, turn.All C)
    (h : audioFileReadWeb turns size bs f d = some (ok, bs', f', d')) :
    ∃ popped, ReadRun size bs bs' f f' d d' popped := by
  induction turns generalizing size bs f d with
  | nil =>
    unfold audioFileReadWeb at h
    split at h
    · cases h
      exact ⟨[], .nil (.refl _)⟩
    · cases h
  | cons turn turns ih =>
    unfold audioFileReadWeb at h
    split at h
    · cases h
      exact ⟨[], .nil (.refl _)⟩
    cases hpass : audioFileReadPass turn (min size audioFileHttpMaxSeek) f d with
    | none =>
      rw [hpass] at h
      cases h
    | some pass =>
      rw [hpass] at h
      cases audioFileReadPass_cases (hturns turn (.head _)) hpass with
      | leaves hreach _ _ =>
        cases h
        exact ⟨[], .nil (reach_untaken hreach)⟩
      | fails hreach _ =>
        cases h
        exact ⟨[], .nil (reach_untaken hreach)⟩
      | pops hreach _ =>
        obtain ⟨popped, hrun⟩ := ih (fun turn' hturn => hturns turn' (.tail _ hturn)) h
        exact ⟨_, hrun.cons (min_le_left _ _) (reach_untaken hreach)⟩

/-- Once the download has finished, a read does not fail. -/
theorem audioFileReadWeb_finish (hturns : ∀ turn ∈ turns, turn.All C) (hfinish : httpDownloadIsFinish d = true)
    (h : audioFileReadWeb turns size bs f d = some (ok, bs', f', d')) : ok = true := by
  induction turns generalizing size bs f d with
  | nil =>
    unfold audioFileReadWeb at h
    split at h
    · cases h
      rfl
    · cases h
  | cons turn turns ih =>
    unfold audioFileReadWeb at h
    split at h
    · cases h
      rfl
    cases hpass : audioFileReadPass turn (min size audioFileHttpMaxSeek) f d with
    | none =>
      rw [hpass] at h
      cases h
    | some pass =>
      rw [hpass] at h
      cases audioFileReadPass_cases (hturns turn (.head _)) hpass with
      | leaves _ _ _ =>
        cases h
        rfl
      | fails _ hnot =>
        rw [hfinish] at hnot
        cases hnot
      | pops hreach _ =>
        rw [reach_finish hreach hfinish] at h
        exact ih (fun turn' hturn => hturns turn' (.tail _ hturn)) (pop_finish _ hfinish) h

/-- **A read that fails has taken nothing exactly where its first pass fails.** -/
theorem audioFileReadWeb_failed (hturns : ∀ turn ∈ turns, turn.All C)
    (h : audioFileReadWeb turns size bs f d = some (false, bs', f', d')) :
    d'.readCount = d.readCount ↔ ∃ turn rest d1, turns = turn :: rest ∧
      audioFileReadPass turn (min size audioFileHttpMaxSeek) f d = some (.fails d1) := by
  cases turns with
  | nil =>
    unfold audioFileReadWeb at h
    split at h <;> cases h
  | cons turn turns =>
    unfold audioFileReadWeb at h
    split at h
    · cases h
    rename_i hsize
    cases hpass : audioFileReadPass turn (min size audioFileHttpMaxSeek) f d with
    | none =>
      rw [hpass] at h
      cases h
    | some pass =>
      rw [hpass] at h
      cases audioFileReadPass_cases (hturns turn (.head _)) hpass with
      | leaves _ _ _ => cases h
      | fails hreach _ =>
        cases h
        exact ⟨fun _ => ⟨turn, turns, _, rfl, hpass⟩, fun _ => (reach_untaken hreach).readCount⟩
      | @pops d1 hreach henough =>
        have hrest : ∀ turn ∈ turns, turn.All C := fun turn' hturn => hturns turn' (.tail _ hturn)
        obtain ⟨popped, hrun⟩ := audioFileReadWeb_run hrest h
        constructor
        · intro hcount
          have hafter : d'.readCount = d1.readCount + (d1.buffer.take (min size audioFileHttpMaxSeek)).length +
            popped.length := hrun.readCount
          rw [(reach_untaken hreach).readCount] at hafter
          have hempty : d1.buffer = [] := by
            have hzero : (d1.buffer.take (min size audioFileHttpMaxSeek)).length = 0 := by omega
            rw [List.length_take] at hzero
            have hpos : 0 < min size audioFileHttpMaxSeek := by
              unfold audioFileHttpMaxSeek
              omega
            exact List.length_eq_zero_iff.1 (by omega)
          have hfinish : httpDownloadIsFinish d1 = true := by
            rcases henough with hlen | hfinish
            · rw [hempty] at hlen
              unfold audioFileHttpMaxSeek at hlen
              simp only [List.length_nil] at hlen
              omega
            · exact hfinish
          have hok := audioFileReadWeb_finish hrest (pop_finish (min size audioFileHttpMaxSeek) hfinish) h
          cases hok
        · rintro ⟨turn', rest, d2, hcons, hfails⟩
          cases hcons
          rw [hpass] at hfails
          cases hfails

/-- What the loop of a seek leaves: `skipped` is what it popped, all that was to skip if it did not fail. -/
structure SkipRun (diff : Nat) (ok : Bool) (d d' : WebDownload) (skipped : List Byte) : Prop where
  le        : skipped.length ≤ diff
  all       : ok = true → skipped.length = diff
  readCount : d'.readCount = d.readCount + skipped.length
  buffer    : d.buffer <+: skipped ++ d'.buffer

theorem SkipRun.cons {d1 : WebDownload} {n : Nat} {skipped : List Byte} (hn : n ≤ diff) (h : Untaken d d1)
    (hrun : SkipRun (diff - (d1.pop n).1.length) ok (d1.pop n).2 d' skipped) :
    SkipRun diff ok d d' ((d1.pop n).1 ++ skipped) := by
  have hle : (d1.pop n).1.length ≤ n := List.length_take_le _ _
  have hcount : d'.readCount = d1.readCount + (d1.pop n).1.length + skipped.length := hrun.readCount
  have hrest : d1.buffer.drop n <+: skipped ++ d'.buffer := hrun.buffer
  refine ⟨?_, ?_, ?_, ?_⟩
  · have := hrun.le
    rw [List.length_append]
    omega
  · intro hok
    rw [List.length_append, hrun.all hok]
    omega
  · rw [hcount, h.readCount, List.length_append, Nat.add_assoc]
  · rw [List.append_assoc]
    refine h.buffer.trans ?_
    have happend := (List.prefix_append_right_inj (d1.buffer.take n)).2 hrest
    rwa [List.take_append_drop] at happend

theorem audioFileSkip_run (hturns : ∀ turn ∈ turns, turn.All C) (h : audioFileSkip turns diff f d = some (ok, d')) :
    ∃ skipped, SkipRun diff ok d d' skipped := by
  induction turns generalizing diff d with
  | nil =>
    unfold audioFileSkip at h
    split at h
    · rename_i hdiff
      cases h
      exact ⟨[], Nat.zero_le _, fun _ => hdiff.symm, rfl, List.prefix_refl _⟩
    · cases h
  | cons turn turns ih =>
    unfold audioFileSkip at h
    split at h
    · rename_i hdiff
      cases h
      exact ⟨[], Nat.zero_le _, fun _ => hdiff.symm, rfl, List.prefix_refl _⟩
    cases hpass : audioFileSkipPass turn diff f d with
    | none =>
      rw [hpass] at h
      cases h
    | some res =>
      rw [hpass] at h
      cases audioFileSkipPass_cases (hturns turn (.head _)) hpass with
      | fails hreach =>
        cases h
        have huntaken := reach_untaken hreach
        exact ⟨[], Nat.zero_le _, nofun, huntaken.readCount, huntaken.buffer⟩
      | pops hreach _ =>
        obtain ⟨skipped, hrun⟩ := ih (fun turn' hturn => hturns turn' (.tail _ hturn)) h
        exact ⟨_, hrun.cons (min_le_left _ _) (reach_untaken hreach)⟩

/-- Where nothing is left to come, nothing is popped. -/
theorem audioFileSkip_finish (hturns : ∀ turn ∈ turns, turn.All C) (hfinish : httpDownloadIsFinish d = true)
    (hempty : d.buffer = []) (h : audioFileSkip turns diff f d = some (ok, d')) : d' = d := by
  induction turns generalizing diff with
  | nil =>
    unfold audioFileSkip at h
    split at h
    · cases h
      rfl
    · cases h
  | cons turn turns ih =>
    unfold audioFileSkip at h
    split at h
    · cases h
      rfl
    cases hpass : audioFileSkipPass turn diff f d with
    | none =>
      rw [hpass] at h
      cases h
    | some res =>
      rw [hpass] at h
      cases audioFileSkipPass_cases (hturns turn (.head _)) hpass with
      | fails hreach =>
        cases h
        exact reach_finish hreach hfinish
      | pops hreach _ =>
        rw [reach_finish hreach hfinish] at h
        have hpop : (d.pop (min diff audioFileHttpMaxSeek)).2 = d := by
          obtain ⟨state, lastError, totalLength, preDownloadPos, attached, buffer, readCount⟩ := d
          cases hempty
          simp [WebDownload.pop]
        rw [hpop] at h
        exact ih (fun turn' hturn => hturns turn' (.tail _ hturn)) h

/-- **A seek that fails has taken nothing exactly where its first pass fails or pops nothing.** -/
theorem audioFileSkip_failed (hturns : ∀ turn ∈ turns, turn.All C) (hdiff : diff ≠ 0)
    (h : audioFileSkip turns diff f d = some (false, d')) :
    d'.readCount = d.readCount ↔ ∃ turn rest ok d1, turns = turn :: rest ∧
      audioFileSkipPass turn diff f d = some (ok, diff, d1) := by
  cases turns with
  | nil =>
    unfold audioFileSkip at h
    rw [if_neg hdiff] at h
    cases h
  | cons turn turns =>
    unfold audioFileSkip at h
    rw [if_neg hdiff] at h
    cases hpass : audioFileSkipPass turn diff f d with
    | none =>
      rw [hpass] at h
      cases h
    | some res =>
      rw [hpass] at h
      have hmin : 0 < min diff audioFileHttpMaxSeek := by
        unfold audioFileHttpMaxSeek
        omega
      cases audioFileSkipPass_cases (hturns turn (.head _)) hpass with
      | fails hreach =>
        cases h
        exact ⟨fun _ => ⟨turn, turns, false, _, rfl, hpass⟩, fun _ => (reach_untaken hreach).readCount⟩
      | @pops d1 hreach henough =>
        have hrest : ∀ turn ∈ turns, turn.All C := fun turn' hturn => hturns turn' (.tail _ hturn)
        obtain ⟨skipped, hrun⟩ := audioFileSkip_run hrest h
        have hcount : d'.readCount = d.readCount + (d1.buffer.take (min diff audioFileHttpMaxSeek)).length +
            skipped.length := by
          rw [← (reach_untaken hreach).readCount]
          exact hrun.readCount
        have hlen : (d1.buffer.take (min diff audioFileHttpMaxSeek)).length =
            min (min diff audioFileHttpMaxSeek) d1.buffer.length := List.length_take
        constructor
        · intro hsame
          have hzero : (d1.pop (min diff audioFileHttpMaxSeek)).1.length = 0 := by
            show (d1.buffer.take (min diff audioFileHttpMaxSeek)).length = 0
            omega
          rw [hzero] at hpass
          exact ⟨turn, turns, true, _, rfl, hpass⟩
        · rintro ⟨turn', rest, ok, d2, hcons, hpops⟩
          cases hcons
          rw [hpass] at hpops
          obtain ⟨-, hpops⟩ := Prod.mk.inj (Option.some.inj hpops)
          have hsub : diff - (d1.buffer.take (min diff audioFileHttpMaxSeek)).length = diff := (Prod.mk.inj hpops).1
          have hempty : d1.buffer = [] := List.length_eq_zero_iff.1 (by omega)
          have hfinish : httpDownloadIsFinish d1 = true := henough.resolve_left (by rw [hempty, List.length_nil]; omega)
          have hlast := audioFileSkip_finish hrest (pop_finish (min diff audioFileHttpMaxSeek) hfinish)
            (by show d1.buffer.drop _ = []; rw [hempty, List.drop_nil]) h
          have hnone : d'.readCount = d1.readCount + (d1.buffer.take (min diff audioFileHttpMaxSeek)).length :=
            congrArg WebDownload.readCount hlast
          rw [hnone, hempty, List.take_nil, List.length_nil, (reach_untaken hreach).readCount, Nat.add_zero]

end

/-! ## The two calls -/

section
variable {m : AudioMedia} {env : AudioFileAnswers} {s s' : OpenFile} {ret : Int} {bs : List Byte} {size : Nat}
  {position : Int}

theorem WebPoll.all_true (poll : WebPoll) : poll.All fun _ => True :=
  ⟨fun _ _ => trivial, fun _ _ => trivial, fun _ _ => trivial⟩

theorem WebTurn.all_true (turn : WebTurn) : turn.All fun _ => True :=
  ⟨fun _ _ => trivial, fun _ _ => trivial, fun _ _ => trivial, fun poll _ => poll.all_true, fun _ _ => trivial⟩

/-- A read fails in the loop, with the preread bytes taken. -/
theorem audioFileRead_failed (h : audioFileRead m env size s = some (ret, bs, s')) (hneg : ret < 0) :
    ∃ f d, audioFileReadWeb env.turns (size - s.file.preread.length) s.file.preread { s.file with preread := [] }
      s.download = some (false, bs, f, d) ∧ s' = { s with file := f, download := d } := by
  cases audioFileRead_cases h with
  | failed _ _ hweb => exact ⟨_, _, hweb, rfl⟩
  | preread _ => omega
  | web _ _ _ => omega
  | flash _ _ => omega
  | card _ _ => omega

/-- How a seek that is not refused fails. -/
inductive SeekFailure (env : AudioFileAnswers) (position : Int) (s : OpenFile) : OpenFile → Prop
  | skip {d : WebDownload} : s.file.fileType = .web → 0 < toI32 (position - s.file.readPos) →
      audioFileSkip env.turns (toI32 (position - s.file.readPos)).toNat { s.file with preread := [] } s.download =
        some (false, d) →
      SeekFailure env position s { s with file := { s.file with preread := [] }, download := d }
  | lseek {fptr : Nat} : s.file.fileType = .sdCard → env.fLseek = some fptr →
      SeekFailure env position s { s with file := { s.file with preread := [] }, fptr }

theorem audioFileSeek_failed (h : audioFileSeek m env position s = some (ret, s')) (hneg : ret < 0) :
    s.Refuses (.seek position) ∧ s' = s ∨ ¬s.Refuses (.seek position) ∧ SeekFailure env position s s' := by
  rcases audioFileSeek_cases h with ⟨hrefuses, -, hs⟩ | ⟨hnot, hsought⟩
  · exact .inl ⟨hrefuses, hs⟩
  refine .inr ⟨hnot, ?_⟩
  cases hsought with
  | skipFailed htype hdiff _ hskip => exact .skip htype hdiff hskip
  | lseekFailed htype _ hlseek => exact .lseek htype hlseek
  | preread _ _ => exact absurd hneg (by decide)
  | here _ _ => exact absurd hneg (by decide)
  | restart _ _ _ => exact absurd hneg (by decide)
  | skipped _ _ _ _ => exact absurd hneg (by decide)
  | flash _ _ => exact absurd hneg (by decide)
  | lseek _ _ _ => exact absurd hneg (by decide)

/-- The file is as it was, and the download only went on. -/
theorem Kept.of_untaken {d : WebDownload} (h : Untaken s.download d) : Kept m s { s with download := d } :=
  ⟨rfl, rfl, h, rfl, fun _ _ => rfl⟩

theorem file_of_preread_nil {f : AudioFile} (h : f.preread = []) : { f with preread := [] } = f := by
  rw [← h]

/-- A failed read has kept everything exactly where nothing was in the preread buffer and its first wait failed. -/
theorem audioFileRead_kept (h : audioFileRead m env size s = some (ret, bs, s')) (hneg : ret < 0) :
    Kept m s s' ↔ s.file.preread = [] ∧ s.FailsFirst env (.read size) := by
  obtain ⟨f, d, hweb, rfl⟩ := audioFileRead_failed h hneg
  obtain ⟨popped, hrun⟩ := audioFileReadWeb_run (fun turn _ => turn.all_true) hweb
  have hfirst := audioFileReadWeb_failed (fun turn _ => turn.all_true) hweb
  constructor
  · intro hkept
    have hpreread : s.file.preread = [] := by
      have hnone : f.preread = [] := by rw [hrun.file]
      exact hkept.preread.symm.trans hnone
    obtain ⟨turn, rest, d1, hturns, hfails⟩ := hfirst.1 hkept.buffered.readCount
    rw [hpreread, List.length_nil, Nat.sub_zero, file_of_preread_nil hpreread] at hfails
    exact ⟨hpreread, turn, rest, d1, hturns, audioFileReadPass_fails.1 hfails⟩
  · rintro ⟨hpreread, turn, rest, d1, hturns, hwaits⟩
    have hfails := audioFileReadPass_fails.2 hwaits
    cases audioFileReadPass_cases turn.all_true hfails with
    | fails hreach _ =>
      rw [hpreread, List.length_nil, Nat.sub_zero, file_of_preread_nil hpreread, hturns] at hweb
      unfold audioFileReadWeb at hweb
      split at hweb
      · cases hweb
      · rw [hfails] at hweb
        cases hweb
        exact .of_untaken (reach_untaken hreach)

/-- A failed seek has kept everything exactly where it was refused, or nothing was in the preread buffer and it failed
before it skipped. -/
theorem audioFileSeek_kept (h : audioFileSeek m env position s = some (ret, s')) (hneg : ret < 0) :
    Kept m s s' ↔ s.Refuses (.seek position) ∨ s.file.preread = [] ∧ s.FailsFirst env (.seek position) := by
  rcases audioFileSeek_failed h hneg with ⟨hrefuses, rfl⟩ | ⟨hnot, hfailure⟩
  · exact ⟨fun _ => .inl hrefuses, fun _ => .of_untaken (.refl _)⟩
  rw [or_iff_right hnot]
  cases hfailure with
  | @skip d htype hdiff hskip =>
    have hpos : (toI32 (position - s.file.readPos)).toNat ≠ 0 := by omega
    have hfirst := audioFileSkip_failed (fun turn _ => turn.all_true) hpos hskip
    constructor
    · intro hkept
      have hpreread : s.file.preread = [] := hkept.preread.symm
      obtain ⟨turn, rest, ok, d1, hturns, hpass⟩ := hfirst.1 hkept.buffered.readCount
      rw [file_of_preread_nil hpreread] at hpass
      obtain ⟨ok, d2, hwait, hnone⟩ := (audioFileSkipPass_none hpos).1 ⟨ok, d1, hpass⟩
      refine ⟨hpreread, fun _ => ⟨turn, rest, ok, d2, hturns, hwait, hnone⟩, ?_⟩
      intro hcard
      rw [htype] at hcard
      cases hcard
    · rintro ⟨hpreread, hfails, -⟩
      obtain ⟨turn, rest, ok, d2, hturns, hwait⟩ := hfails htype
      obtain ⟨ok, d1, hpass⟩ := (audioFileSkipPass_none hpos).2 ⟨ok, d2, hwait⟩
      obtain ⟨skipped, hrun⟩ := audioFileSkip_run (fun turn _ => turn.all_true) hskip
      rw [file_of_preread_nil hpreread] at hfirst ⊢
      have hcount := hfirst.2 ⟨turn, rest, ok, d1, hturns, hpass⟩
      have hnone : skipped = [] := by
        have := hrun.readCount
        exact List.length_eq_zero_iff.1 (by omega)
      have hbuffer := hrun.buffer
      rw [hnone] at hbuffer
      exact .of_untaken ⟨hcount, hbuffer⟩
  | @lseek fptr htype hlseek =>
    constructor
    · intro hkept
      refine ⟨hkept.preread.symm, ?_, fun _ => ?_⟩
      · intro hweb
        rw [htype] at hweb
        cases hweb
      · rw [hlseek, show fptr = s.fptr from hkept.fptr]
    · rintro ⟨hpreread, -, hfails⟩
      obtain rfl : fptr = s.fptr := Option.some.inj (hlseek.symm.trans (hfails htype))
      rw [file_of_preread_nil hpreread]
      exact .of_untaken (.refl _)

end

/-- **A read or seek that returns an error has kept everything exactly where it was refused or failed before it took a
byte.** -/
theorem audioFile_failed_kept (m : AudioMedia) (env : AudioFileAnswers) {c : AudioFileCall} {s s' : OpenFile}
    {r : AudioFileResult} (hc : c.Moves) (h : s.call m env c = some (r, s')) (hneg : r.ret < 0) :
    Kept m s s' ↔ s.Refuses c ∨ s.file.preread = [] ∧ s.FailsFirst env c := by
  cases c with
  | read size =>
    obtain ⟨⟨ret, bs, s1⟩, hread, hr⟩ := Option.map_eq_some_iff.1 h
    cases hr
    rw [audioFileRead_kept hread hneg]
    exact (or_iff_right (id : ¬False)).symm
  | seek position =>
    obtain ⟨⟨ret, s1⟩, hseek, hr⟩ := Option.map_eq_some_iff.1 h
    cases hr
    exact audioFileSeek_kept hseek hneg
  | size => exact hc.elim
  | tell => exact hc.elim
  | preread size => exact hc.elim

/-- A web file that was just opened. -/
def webFile : OpenFile := .opened { fileState := .open, fileType := .web, rangeEnable := true } .runs

/-- Nothing comes until a wait times out. -/
def AudioFileAnswers.late : AudioFileAnswers := { turns := [{ polls := [{ ticks := 60000 }] }] }

/-- A read on it that times out has kept everything. -/
theorem audioFile_failed_kept_opened :
    webFile.call ⟨[], []⟩ .late (.read 16) = some (⟨-2, []⟩, webFile) ∧ Kept ⟨[], []⟩ webFile webFile := by
  have hread : webFile.call ⟨[], []⟩ .late (.read 16) = some (⟨-2, []⟩, webFile) := by decide
  have hkept := audioFile_failed_kept ⟨[], []⟩ .late (show AudioFileCall.Moves (.read 16) from trivial) hread (by decide)
  exact ⟨hread, hkept.2 (.inr ⟨rfl, _, _, webFile.download, rfl, by decide, by decide, by decide⟩)⟩

/-- The header, which was preread, is gone when it is read again and more is asked for than comes in time. -/
theorem audioFile_failed_lost :
    let header : AudioFileAnswers := { turns := [{ polls := [{ before := [.length 1000, .push (bytes "RIFFWAVE")] }] }] }
    ∃ s s', webFile.call ⟨[], []⟩ header (.preread 8) = some (⟨8, bytes "RIFFWAVE"⟩, s) ∧
      s.call ⟨[], []⟩ .late (.read 16) = some (⟨-2, bytes "RIFFWAVE"⟩, s') ∧ ¬Kept ⟨[], []⟩ s s' := by
  refine ⟨_, _, rfl, rfl, ?_⟩
  intro hkept
  exact absurd hkept.preread (by decide)

end AudioPlayer

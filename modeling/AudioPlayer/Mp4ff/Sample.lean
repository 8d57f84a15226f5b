import Mathlib
import AudioPlayer.Lib.Locate
import AudioPlayer.Mp4ff.Stream

/-!
# Where the samples of an m4a file are (`faad2-2.7/common/mp4ff/mp4sample.c`)

The samples of a track lie in chunks. `stco` says where each chunk begins, `stsz` how long each sample is, and `stsc`
how many samples a chunk has, from which chunk on. `mp4ff_read_sample` goes through the runs of `stsc` to the chunk of
a sample, and through `stsz` from its first sample on.

| here | there |
|---|---|
| `Mp4ffTrack`            | `mp4ff_track_t` (`mp4ffint.h:168-218`), the arrays as lists |
| `mp4ffChunkOfSample`    | `mp4sample.c:35-79` |
| `mp4ffChunkToOffset`    | `:81-95` |
| `mp4ffSampleRangeSize`  | `:97-118` |
| `mp4ffReadSample`       | `mp4ff.c:419-449`, with `mp4ff_audio_frame_size` and `mp4ff_set_sample_position` |
| `Mp4ffTrack.Describes`  | the tables say how chunks of samples lie in the file |
-/

namespace AudioPlayer
open Lib

inductive Mp4TrackType
  | unknown | audio | video | system
deriving DecidableEq

structure StscEntry where
  firstChunk      : Int
  samplesPerChunk : Int
  sampleDescIndex : Int
deriving DecidableEq

structure Mp4ffTrack where
  type            : Mp4TrackType := .unknown
  channelCount    : Nat := 0
  sampleSize      : Nat := 0
  sampleRate      : Nat := 0
  audioType       : Nat := 0
  stsdEntryCount  : Int := 0
  stszSampleSize  : Int := 0
  stszSampleCount : Int := 0
  stszTable       : List Int := []
  sttsEntryCount  : Int := 0
  /-- `stts_sample_count` and `stts_sample_delta`. -/
  stts            : List (Int × Int) := []
  stscEntryCount  : Int := 0
  stsc            : List StscEntry := []
  stcoEntryCount  : Int := 0
  stcoChunkOffset : List Int := []
  cttsEntryCount  : Int := 0
  ctts            : List (Int × Int) := []
  decoderConfig   : List Byte := []
  maxBitrate      : Nat := 0
  avgBitrate      : Nat := 0
  timeScale       : Nat := 0
  duration        : Nat := 0
deriving DecidableEq

/-- An element of an array. -/
def at? (xs : List Int) (i : Int) : Option Int := if 0 ≤ i then xs[i.toNat]? else none

/-- The loop over that many runs: `chunk1`, `chunk1samples` and `total` when it is left. -/
def mp4ffChunkLoop (sample : Int) : Nat → List StscEntry → Int × Int × Int → Option (Int × Int × Int)
  | 0, _, st => some st
  | _ + 1, [], _ => none
  | n + 1, e :: es, (chunk1, chunk1samples, total) => do
    let rangeSamples ← int32? ((← int32? (e.firstChunk - chunk1)) * chunk1samples)
    let next ← int32? (total + rangeSamples)
    if sample < next then some (chunk1, chunk1samples, total)
    else mp4ffChunkLoop sample n es (e.firstChunk, e.samplesPerChunk, next)

/-- `chunk` and `chunk_sample`. The loop reads the first run before it looks how many there are. -/
def mp4ffChunkOfSample (t : Mp4ffTrack) (sample : Int) : Option (Int × Int) := do
  let (chunk1, chunk1samples, total) ← mp4ffChunkLoop sample (max 1 t.stscEntryCount).toNat t.stsc (1, 0, 0)
  let chunk ←
    if chunk1samples ≠ 0 then do int32? ((← int32? (Int.tdiv (← int32? (sample - total)) chunk1samples)) + chunk1)
    else some 1
  let chunkSample ← int32? (total + (← int32? ((← int32? (chunk - chunk1)) * chunk1samples)))
  some (chunk, chunkSample)

def mp4ffChunkToOffset (t : Mp4ffTrack) (chunk : Int) : Option Int :=
  if t.stcoEntryCount ≠ 0 ∧ t.stcoEntryCount < chunk then do at? t.stcoChunkOffset (← int32? (t.stcoEntryCount - 1))
  else if t.stcoEntryCount ≠ 0 then do at? t.stcoChunkOffset (← int32? (chunk - 1))
  else some 8

/-- The `for` loop: `n` elements of the table from `i` on. -/
def mp4ffTableSum (table : List Int) : Nat → Int → Int → Option Int
  | 0, _, total => some total
  | n + 1, i, total => do mp4ffTableSum table n (i + 1) (← int32? (total + (← at? table i)))

def mp4ffSampleRangeSize (t : Mp4ffTrack) (chunkSample sample : Int) : Option Int :=
  if t.stszSampleSize ≠ 0 then do int32? ((← int32? (sample - chunkSample)) * t.stszSampleSize)
  else if t.stszSampleCount ≤ sample then some 0
  else mp4ffTableSum t.stszTable (sample - chunkSample).toNat chunkSample 0

def mp4ffSampleToOffset (t : Mp4ffTrack) (sample : Int) : Option Int := do
  let (chunk, chunkSample) ← mp4ffChunkOfSample t sample
  let chunkOffset1 ← mp4ffChunkToOffset t chunk
  int32? (chunkOffset1 + (← mp4ffSampleRangeSize t chunkSample sample))

def mp4ffAudioFrameSize (t : Mp4ffTrack) (sample : Int) : Option Int :=
  if t.stszSampleSize ≠ 0 then some t.stszSampleSize else at? t.stszTable sample

/-- What `mp4ff_read_sample` leaves behind `audio_buffer`. -/
inductive Mp4Sample
  /-- The sample is empty: nothing is stored. -/
  | untouched
  /-- Nothing could be read: the block is freed and `NULL` stored. -/
  | null
  /-- A block of `size` bytes, of which these were read. -/
  | block (size : Nat) (bs : List Byte)
deriving DecidableEq

/-- `malloc` of that many bytes succeeds. -/
abbrev Mp4Alloc := Int → Bool

/-- A block that was not allocated is written to all the same. -/
def mp4ffReadSample (alloc : Mp4Alloc) (R : List Byte) (t : Mp4ffTrack) (sample : Int) : Mp4Scan Mp4Sample :=
  fun s => do
  let size ← mp4ffAudioFrameSize t sample
  let bytes := (toU32 size).toNat
  if bytes = 0 then some (.untouched, s)
  else do
    let offset ← mp4ffSampleToOffset t sample
    let (_, s) ← mp4ffSetPosition R offset s
    if alloc bytes then do
      let (bs, s) ← mp4ffReadData R bytes s
      some (if bs = [] then .null else .block bytes bs, s)
    else none

/-! ## Chunks of samples -/

/-- A chunk of a file: where it begins, and its samples. -/
structure Mp4Chunk where
  offset  : Nat
  samples : List (List Byte)
deriving DecidableEq

/-- The runs of `stsc`: from which chunk on how many samples. -/
def stscLengths (chunks : Nat) : List (Nat × Nat) → List Nat
  | [] => []
  | [(first, samples)] => List.replicate (chunks + 1 - first) samples
  | (first, samples) :: (first', samples') :: es =>
    List.replicate (first' - first) samples ++ stscLengths chunks ((first', samples') :: es)

/-- Runs in order, none of them of empty chunks. -/
def StscOrdered (chunks : Nat) : List (Nat × Nat) → Prop
  | [] => True
  | [(first, samples)] => first ≤ chunks + 1 ∧ 0 < samples
  | (first, samples) :: (first', samples') :: es =>
    first ≤ first' ∧ 0 < samples ∧ StscOrdered chunks ((first', samples') :: es)

/-- The lengths of the samples: one for all, or one for each. -/
structure Mp4ffTrack.SizesAre (t : Mp4ffTrack) (samples : List (List Byte)) : Prop where
  one   : t.stszSampleSize ≠ 0 → ∀ bs ∈ samples, (bs.length : Int) = t.stszSampleSize
  each  : t.stszSampleSize = 0 → t.stszTable = samples.map fun bs => (bs.length : Int)
  count : t.stszSampleSize = 0 → t.stszSampleCount = samples.length

/-- The tables say how `chunks` lie in the file. -/
structure Mp4ffTrack.Describes (t : Mp4ffTrack) (chunks : List Mp4Chunk) : Prop where
  stco    : t.stcoChunkOffset = chunks.map fun c => (c.offset : Int)
  count   : t.stcoEntryCount = chunks.length
  sizes   : t.SizesAre (chunks.flatMap Mp4Chunk.samples)
  entries : t.stscEntryCount = t.stsc.length
  runs    : ∃ es : List (Nat × Nat), t.stsc.map (fun e => (e.firstChunk, e.samplesPerChunk)) =
    es.map (fun e => ((e.1 : Int), (e.2 : Int))) ∧ (∀ e ∈ es.head?, e.1 = 1) ∧ StscOrdered chunks.length es ∧
    chunks.map (fun c => c.samples.length) = stscLengths chunks.length es

/-! ## The chunk of a sample -/

theorem StscOrdered.le {n : Nat} {e : Nat × Nat} {es : List (Nat × Nat)} (h : StscOrdered n (e :: es)) :
    e.1 ≤ n + 1 := by
  induction es generalizing e with
  | nil => exact h.1
  | cons e' es ih =>
    have hle : e.1 ≤ e'.1 := h.1
    exact hle.trans (ih h.2.2)

/-- What the loop comes to: the run the sample is in, and how many samples are in front of it. -/
structure ChunkFound (lens : List Nat) (first total x : Nat) (st : Int × Int × Int) (i j : Nat) : Prop where
  located : Located lens x i j
  run     : ∃ first' samples' total' : Nat, st = ((first' : Int), (samples' : Int), (total' : Int)) ∧ 0 < samples' ∧
    total' ≤ total + x ∧ first' + (total + x - total') / samples' = first + i ∧
    (total + x - total') % samples' = j

theorem mp4ffChunkLoop_spec {n : Nat} (hn : n + 1 < 2147483648) :
    ∀ {es : List (Nat × Nat)} {l : List StscEntry} {first samples : Nat} (total : Nat) {x : Nat},
      l.map (fun e => (e.firstChunk, e.samplesPerChunk)) = es.map (fun e => ((e.1 : Int), (e.2 : Int))) →
      StscOrdered n ((first, samples) :: es) → total + (stscLengths n ((first, samples) :: es)).sum < 2147483648 →
      x < (stscLengths n ((first, samples) :: es)).sum →
      ∃ st i j, mp4ffChunkLoop ((total + x : Nat) : Int) l.length l (first, samples, total) = some st ∧
        ChunkFound (stscLengths n ((first, samples) :: es)) first total x st i j := by
  intro es
  induction es with
  | nil =>
    intro l first samples total x hl hord hsum hx
    obtain rfl : l = [] := List.map_eq_nil_iff.1 hl
    obtain ⟨hfirst, hsamples⟩ := hord
    have hlens : stscLengths n [(first, samples)] = List.replicate (n + 1 - first) samples := rfl
    rw [hlens, List.sum_replicate, smul_eq_mul] at hx
    have hloc := Located.replicate hx
    rw [← hlens] at hloc
    refine ⟨_, _, _, rfl, hloc, first, samples, total, rfl, hsamples, by omega, ?_, ?_⟩
    · rw [Nat.add_sub_cancel_left]
    · rw [Nat.add_sub_cancel_left]
  | cons e es ih =>
    intro l first samples total x hl hord hsum hx
    obtain ⟨first2, samples2⟩ := e
    obtain ⟨e2, l2, rfl, he2, hl2⟩ := List.map_eq_cons_iff.1 hl
    obtain ⟨hf2, hs2⟩ := Prod.mk.inj he2
    obtain ⟨hle, hsamples, hord2⟩ := hord
    have hlens : stscLengths n ((first, samples) :: (first2, samples2) :: es) =
      List.replicate (first2 - first) samples ++ stscLengths n ((first2, samples2) :: es) := rfl
    have hrange : (List.replicate (first2 - first) samples).sum = (first2 - first) * samples := by
      rw [List.sum_replicate, smul_eq_mul]
    rw [hlens, List.sum_append, hrange] at hsum hx
    have hfirst2 : first2 ≤ n + 1 := hord2.le
    have hmul : (((first2 - first : Nat) : Int) * (samples : Int)) = (((first2 - first) * samples : Nat) : Int) := by
      push_cast
      ring
    have hsub : ((first2 : Int) - (first : Int)) = ((first2 - first : Nat) : Int) := by omega
    rw [List.length_cons]
    unfold mp4ffChunkLoop
    simp only [hf2, hs2, Option.bind_eq_bind, hsub]
    rw [int32?_eq (by omega) (by omega), Option.bind_some, hmul, int32?_eq (by omega) (by omega), Option.bind_some,
      ← Nat.cast_add, int32?_eq (by omega) (by omega), Option.bind_some]
    by_cases hin : x < (first2 - first) * samples
    · rw [if_pos (by omega)]
      have hloc := (Located.replicate hin).left (stscLengths n ((first2, samples2) :: es))
      rw [← hlens] at hloc
      refine ⟨_, _, _, rfl, hloc, first, samples, total, rfl, hsamples, by omega, ?_, ?_⟩
      · rw [Nat.add_sub_cancel_left]
      · rw [Nat.add_sub_cancel_left]
    · rw [if_neg (by omega)]
      obtain ⟨st, i, j, hrun, hfound⟩ := ih (total + (first2 - first) * samples)
        (x := x - (first2 - first) * samples) hl2 hord2 (by omega) (by omega)
      have hx' : total + (first2 - first) * samples + (x - (first2 - first) * samples) = total + x := by omega
      rw [hx'] at hrun
      obtain ⟨hloc, first', samples', total', hst, hs', htotal, hi, hj⟩ := hfound
      have hright := hloc.right (List.replicate (first2 - first) samples)
      rw [hrange, List.length_replicate, show (first2 - first) * samples + (x - (first2 - first) * samples) = x by omega,
        ← hlens] at hright
      rw [hx'] at htotal hi hj
      exact ⟨st, _, j, hrun, hright, first', samples', total', hst, hs', htotal, by omega, hj⟩

/-- The chunk of a sample, counted from 1, and the first sample in it. -/
theorem mp4ffChunkOfSample_spec {t : Mp4ffTrack} {chunks : List Mp4Chunk} (h : t.Describes chunks)
    (hchunks : chunks.length + 1 < 2147483648) (hsamples : (chunks.flatMap Mp4Chunk.samples).length < 2147483648)
    {x : Nat} (hx : x < (chunks.flatMap Mp4Chunk.samples).length) :
    ∃ i j, Located (chunks.map fun c => c.samples.length) x i j ∧
      mp4ffChunkOfSample t x = some (((i + 1 : Nat) : Int), ((x - j : Nat) : Int)) := by
  obtain ⟨es, hes, hhead, hord, hlens⟩ := h.runs
  rw [List.length_flatMap, hlens] at hsamples hx
  cases es with
  | nil => exact absurd hx (Nat.not_lt_zero x)
  | cons e es =>
    obtain ⟨first, samples⟩ := e
    obtain ⟨e1, l, hstsc, he1, hl⟩ := List.map_eq_cons_iff.1 hes
    obtain ⟨hf1, hs1⟩ := Prod.mk.inj he1
    obtain rfl : first = 1 := hhead (first, samples) rfl
    obtain ⟨st, i, j, hrun, hloc, first', samples', total', rfl, hs', htotal, hi, hj⟩ :=
      mp4ffChunkLoop_spec hchunks 0 hl hord (by omega) hx
    rw [Nat.zero_add] at hrun htotal hi hj
    have hcount : (max 1 t.stscEntryCount).toNat = l.length + 1 := by
      rw [h.entries, hstsc, List.length_cons]
      omega
    have hloop : mp4ffChunkLoop x (max 1 t.stscEntryCount).toNat t.stsc (1, 0, 0) =
        some ((first' : Int), (samples' : Int), (total' : Int)) := by
      have hzero : int32? 0 = some 0 := rfl
      have hnext : ¬(x : Int) < 0 := by omega
      rw [hcount, hstsc]
      simp only [mp4ffChunkLoop, hf1, hs1, Nat.cast_one, sub_self, hzero, Option.bind_eq_bind, Option.bind_some,
        mul_zero, add_zero, hnext, if_false]
      exact hrun
    have hlt := hloc.lt
    rw [← hlens, List.length_map] at hlt
    have hsplit := Nat.div_add_mod' (x - total') samples'
    have hdiv : Int.tdiv ((x - total' : Nat) : Int) (samples' : Int) = (((x - total') / samples' : Nat) : Int) := by
      rw [Int.tdiv_eq_ediv_of_nonneg (by omega)]
      exact (Int.natCast_ediv _ _).symm
    generalize (x - total') / samples' = q at hi hsplit hdiv
    have hmul : (q : Int) * (samples' : Int) = ((q * samples' : Nat) : Int) := (Nat.cast_mul q samples').symm
    refine ⟨i, j, hlens ▸ hloc, ?_⟩
    unfold mp4ffChunkOfSample
    simp only [hloop, Option.bind_eq_bind, Option.bind_some]
    rw [if_pos (by omega), show (x : Int) - (total' : Int) = ((x - total' : Nat) : Int) by omega,
      int32?_eq (by omega) (by omega), Option.bind_some, hdiv, int32?_eq (by omega) (by omega), Option.bind_some,
      show (q : Int) + (first' : Int) = ((i + 1 : Nat) : Int) by omega, int32?_eq (by omega) (by omega),
      Option.bind_some, show ((i + 1 : Nat) : Int) - (first' : Int) = (q : Int) by omega,
      int32?_eq (by omega) (by omega), Option.bind_some, hmul, int32?_eq (by omega) (by omega), Option.bind_some,
      show (total' : Int) + ((q * samples' : Nat) : Int) = ((x - j : Nat) : Int) by omega,
      int32?_eq (by omega) (by omega), Option.bind_some]

/-! ## The place of a sample -/

theorem at?_map {α : Type} {xs : List α} {g : α → Int} {i : Nat} {x : α} (h : xs[i]? = some x) :
    at? (xs.map g) i = some (g x) := by
  rw [at?, if_pos (by omega), Int.toNat_natCast, List.getElem?_map, h, Option.map_some]

theorem mp4ffTableSum_spec {samples : List (List Byte)} {n i total : Nat} (hi : i + n ≤ samples.length)
    (hsum : total + ((samples.drop i).take n).flatten.length < 2147483648) :
    mp4ffTableSum (samples.map fun bs => (bs.length : Int)) n i total =
      some ((total + ((samples.drop i).take n).flatten.length : Nat) : Int) := by
  induction n generalizing i total with
  | zero => simp [mp4ffTableSum]
  | succ n ih =>
    have hlt : i < samples.length := by omega
    have hdrop : samples.drop i = samples[i] :: samples.drop (i + 1) := List.drop_eq_getElem_cons hlt
    rw [hdrop, List.take_succ_cons, List.flatten_cons, List.length_append] at hsum ⊢
    rw [mp4ffTableSum, at?_map (List.getElem?_eq_getElem hlt), Option.bind_eq_bind, Option.bind_some,
      ← Nat.cast_add, int32?_eq (by omega) (by omega), Option.bind_some,
      show (i : Int) + 1 = ((i + 1 : Nat) : Int) by omega, ih (by omega) (by omega), Nat.add_assoc]

theorem flatten_length_of_one {samples : List (List Byte)} {size : Nat} (h : ∀ bs ∈ samples, bs.length = size) :
    samples.flatten.length = samples.length * size := by
  rw [List.length_flatten, List.map_congr_left h, List.map_const', List.sum_replicate, smul_eq_mul]

theorem Mp4ffTrack.SizesAre.rangeSize {t : Mp4ffTrack} {samples : List (List Byte)} (h : t.SizesAre samples) {x j : Nat}
    (hx : x < samples.length) (hlen : samples.length < 2147483648) (hj : j ≤ x)
    (hsum : ((samples.drop (x - j)).take j).flatten.length < 2147483648) :
    mp4ffSampleRangeSize t (x - j : Nat) x = some ((((samples.drop (x - j)).take j).flatten.length : Nat) : Int) := by
  have hback : (x : Int) - ((x - j : Nat) : Int) = (j : Int) := by omega
  unfold mp4ffSampleRangeSize
  by_cases hsize : t.stszSampleSize = 0
  · rw [if_neg (fun hne => hne hsize), if_neg (by rw [h.count hsize]; omega), h.each hsize, hback, Int.toNat_natCast,
      ← Nat.cast_zero, mp4ffTableSum_spec (by omega) (by omega), Nat.zero_add]
  · obtain ⟨bs, hbs⟩ : ∃ bs, bs ∈ samples := ⟨samples[x], List.getElem_mem hx⟩
    have hone : ∀ cs ∈ samples, cs.length = bs.length := by
      intro cs hcs
      have h1 := h.one hsize cs hcs
      have h2 := h.one hsize bs hbs
      omega
    have hall : ((samples.drop (x - j)).take j).flatten.length = j * bs.length := by
      rw [flatten_length_of_one fun cs hcs => hone cs (List.mem_of_mem_drop (List.mem_of_mem_take hcs)),
        List.length_take, List.length_drop, min_eq_left (by omega)]
    rw [hall] at hsum ⊢
    rw [if_pos hsize, hback, int32?_eq (by omega) (by omega), ← h.one hsize bs hbs, Option.bind_eq_bind,
      Option.bind_some, ← Nat.cast_mul, int32?_eq (by omega) (by omega)]

theorem Mp4ffTrack.SizesAre.frameSize {t : Mp4ffTrack} {samples : List (List Byte)} (h : t.SizesAre samples) {x : Nat}
    {bs : List Byte} (hx : samples[x]? = some bs) : mp4ffAudioFrameSize t x = some (bs.length : Int) := by
  unfold mp4ffAudioFrameSize
  by_cases hsize : t.stszSampleSize = 0
  · rw [if_neg (fun hne => hne hsize), h.each hsize, at?_map hx]
  · rw [if_pos hsize, h.one hsize bs (List.mem_of_getElem? hx)]

theorem Mp4ffTrack.Describes.chunkToOffset {t : Mp4ffTrack} {chunks : List Mp4Chunk} (h : t.Describes chunks)
    (hchunks : chunks.length + 1 < 2147483648) {i : Nat} {c : Mp4Chunk} (hi : chunks[i]? = some c) :
    mp4ffChunkToOffset t (i + 1 : Nat) = some (c.offset : Int) := by
  have hlt : i < chunks.length := (List.getElem?_eq_some_iff.1 hi).1
  unfold mp4ffChunkToOffset
  rw [h.count, if_neg (by omega), if_pos (by omega), show ((i + 1 : Nat) : Int) - 1 = (i : Int) by omega,
    int32?_eq (by omega) (by omega), h.stco]
  exact at?_map hi

/-- Where sample `x` is: in its chunk, behind the samples in front of it. -/
theorem mp4ffSampleToOffset_spec {t : Mp4ffTrack} {chunks : List Mp4Chunk} (h : t.Describes chunks)
    (hchunks : chunks.length + 1 < 2147483648) (hsamples : (chunks.flatMap Mp4Chunk.samples).length < 2147483648)
    {x : Nat} {bs : List Byte}
    (hend : ∀ c ∈ chunks, bs ∈ c.samples → c.offset + c.samples.flatten.length < 2147483648)
    (hx : (chunks.flatMap Mp4Chunk.samples)[x]? = some bs) :
    ∃ c ∈ chunks, ∃ front back, c.samples = front ++ bs :: back ∧
      mp4ffSampleToOffset t x = some ((c.offset + front.flatten.length : Nat) : Int) := by
  have hlt : x < (chunks.flatMap Mp4Chunk.samples).length := (List.getElem?_eq_some_iff.1 hx).1
  obtain ⟨i, j, hloc, hchunk⟩ := mp4ffChunkOfSample_spec h hchunks hsamples hlt
  have hlens : (chunks.map Mp4Chunk.samples).map List.length = chunks.map fun c => c.samples.length := List.map_map
  have hi : i < chunks.length := by
    have hlt := hloc.lt
    rwa [List.length_map] at hlt
  have hget : chunks[i]? = some chunks[i] := List.getElem?_eq_getElem hi
  have hgetSamples : (chunks.map Mp4Chunk.samples)[i]? = some chunks[i].samples := by
    rw [List.getElem?_map, hget, Option.map_some]
  rw [← hlens] at hloc
  have hj : chunks[i].samples[j]? = some bs := by
    have hitem := flatten_getElem? _ hloc
    rwa [hgetSamples, Option.bind_some, ← List.flatMap_def, hx, eq_comm] at hitem
  have hjlt : j < chunks[i].samples.length := (List.getElem?_eq_some_iff.1 hj).1
  have hfront : ((chunks.flatMap Mp4Chunk.samples).drop (x - j)).take j = chunks[i].samples.take j := by
    rw [List.flatMap_def, flatten_drop hloc hgetSamples, List.take_append_of_le_length hjlt.le]
  have hsplit : chunks[i].samples = chunks[i].samples.take j ++ bs :: chunks[i].samples.drop (j + 1) := by
    obtain ⟨hlt, rfl⟩ := List.getElem?_eq_some_iff.1 hj
    rw [List.getElem_cons_drop hlt, List.take_append_drop]
  have hmem : chunks[i] ∈ chunks := List.getElem_mem hi
  have hlength : (chunks[i].samples.take j).flatten.length ≤ chunks[i].samples.flatten.length := by
    conv_rhs => rw [hsplit]
    rw [List.flatten_append, List.length_append]
    omega
  have hroom := hend _ hmem (List.mem_of_getElem? hj)
  have hjx : j ≤ x := by
    have hbefore := hloc.before
    omega
  refine ⟨chunks[i], hmem, chunks[i].samples.take j, chunks[i].samples.drop (j + 1), hsplit, ?_⟩
  unfold mp4ffSampleToOffset
  simp only [hchunk, Option.bind_eq_bind, Option.bind_some]
  rw [h.chunkToOffset hchunks hget, Option.bind_some,
    h.sizes.rangeSize hlt hsamples hjx (by rw [hfront]; omega), hfront, Option.bind_some, ← Nat.cast_add,
    int32?_eq (by omega) (by omega)]

/-! ## Reading samples -/

/-- The chunks of a file: each of them stands where it begins. -/
structure InFile (R : List Byte) (chunks : List Mp4Chunk) : Prop where
  file   : R.length < 2147483648
  number : chunks.length + 1 < 2147483648
  count  : (chunks.flatMap Mp4Chunk.samples).length < 2147483648
  stands : ∀ c ∈ chunks, Window R c.offset c.samples.flatten

/-- What reading a sample leaves. -/
def mp4Sample (bs : List Byte) : Mp4Sample := if bs = [] then .untouched else .block bs.length bs

theorem InFile.offset_le {R : List Byte} {chunks : List Mp4Chunk} (h : InFile R chunks) {c : Mp4Chunk} (hc : c ∈ chunks)
    {bs : List Byte} (hmem : bs ∈ c.samples) (hne : bs ≠ []) : c.offset + c.samples.flatten.length ≤ R.length := by
  have hlen := (h.stands c hc).length_le
  have hle := List.Sublist.length_le (List.sublist_flatten_of_mem hmem)
  have hpositive := List.length_pos_of_ne_nil hne
  omega

theorem mp4ffReadSample_spec {alloc : Mp4Alloc} {R : List Byte} {t : Mp4ffTrack} {chunks : List Mp4Chunk}
    (h : t.Describes chunks) (hfile : InFile R chunks) {x : Nat} {bs : List Byte}
    (hx : (chunks.flatMap Mp4Chunk.samples)[x]? = some bs) (halloc : alloc bs.length = true) (s : Mp4Stream) :
    ∃ s', mp4ffReadSample alloc R t x s = some (mp4Sample bs, s') ∧ s'.inputDone = s.inputDone := by
  have hsize := h.sizes.frameSize hx
  by_cases hne : bs = []
  · subst hne
    refine ⟨s, ?_, rfl⟩
    rw [mp4ffReadSample, hsize]
    rfl
  · have hpositive := List.length_pos_of_ne_nil hne
    obtain ⟨c, hc, front, back, hsamples, hoffset⟩ := mp4ffSampleToOffset_spec h hfile.number hfile.count
      (fun c hc hmem => (hfile.offset_le hc hmem hne).trans_lt hfile.file) hx
    have hstands : Window R (c.offset + front.flatten.length) bs := by
      have hall := hfile.stands c hc
      rw [hsamples, List.flatten_append, List.flatten_cons] at hall
      exact hall.right.left
    have hlen := hstands.length_le
    have hsmall := hfile.file
    have hbytes : (toU32 (bs.length : Int)).toNat = bs.length := by
      rw [toU32_eq (by omega) (by omega), Int.toNat_natCast]
    have hread := mp4ffReadData_reads hfile.file hne (s.goto (c.offset + front.flatten.length)) _ ⟨rfl, rfl⟩ hstands
    refine ⟨mp4Scanner.move bs.length (s.goto (c.offset + front.flatten.length)), ?_, rfl⟩
    unfold mp4ffReadSample
    rw [hsize, Option.bind_eq_bind, Option.bind_some]
    dsimp only
    rw [hbytes, if_neg (by omega), hoffset, Option.bind_eq_bind, Option.bind_some,
      mp4ffSetPosition_in hsmall (by omega), Option.bind_eq_bind, Option.bind_some]
    dsimp only
    rw [if_pos halloc, hread, Option.bind_some]
    dsimp only
    rw [if_neg hne, mp4Sample, if_neg hne]

/-- **In whatever order samples are read, each read gives the bytes of its sample.** -/
theorem mp4ff_readsSamples {alloc : Mp4Alloc} {R : List Byte} {t : Mp4ffTrack} {chunks : List Mp4Chunk}
    (h : t.Describes chunks) (hfile : InFile R chunks) (halloc : ∀ n, alloc n = true) {xs : List Nat}
    {samples : List (List Byte)} (hxs : xs.map (fun x => (chunks.flatMap Mp4Chunk.samples)[x]?) = samples.map some)
    (s : Mp4Stream) :
    ∃ s', xs.mapM (fun x : Nat => mp4ffReadSample alloc R t x) s = some (samples.map mp4Sample, s') ∧
      s'.inputDone = s.inputDone := by
  induction xs generalizing samples s with
  | nil =>
    obtain rfl : samples = [] := List.map_eq_nil_iff.1 hxs.symm
    exact ⟨s, rfl, rfl⟩
  | cons x xs ih =>
    obtain ⟨bs, rest, rfl, hbs, hrest⟩ := List.map_eq_cons_iff.1 hxs.symm
    obtain ⟨s1, hread, hdone⟩ := mp4ffReadSample_spec h hfile hbs.symm (halloc bs.length) s
    obtain ⟨s2, hreads, hdone2⟩ := ih hrest.symm s1
    refine ⟨s2, ?_, hdone2.trans hdone⟩
    rw [List.mapM_cons]
    calc _ = (mp4ffReadSample alloc R t x s).bind fun r =>
          (xs.mapM (fun x : Nat => mp4ffReadSample alloc R t x) r.2).bind fun q => some (r.1 :: q.1, q.2) := rfl
      _ = _ := by rw [hread, Option.bind_some, hreads, Option.bind_some, List.map_cons]

def twoChunks : List Mp4Chunk := [⟨2, [bytes "ab", bytes "cd"]⟩, ⟨7, [bytes "efgh"]⟩]

def twoChunksTrack : Mp4ffTrack :=
  { stszSampleCount := 3, stszTable := [2, 2, 4], stscEntryCount := 2, stsc := [⟨1, 2, 1⟩, ⟨2, 1, 1⟩],
    stcoEntryCount := 2, stcoChunkOffset := [2, 7] }

theorem mp4ff_readsSamples_two :
    ∃ s', [2, 0].mapM (fun x : Nat => mp4ffReadSample (fun _ => true) (bytes "--abcd-efgh") twoChunksTrack x) {} =
      some ([.block 4 (bytes "efgh"), .block 2 (bytes "ab")], s') ∧ s'.inputDone = false := by
  have hsizes : twoChunksTrack.SizesAre (twoChunks.flatMap Mp4Chunk.samples) :=
    ⟨fun h => absurd rfl h, fun _ => by decide, fun _ => by decide⟩
  have hdescribes : twoChunksTrack.Describes twoChunks :=
    ⟨rfl, rfl, hsizes, rfl, [(1, 2), (2, 1)], rfl, fun e he => by cases he; rfl,
      ⟨by decide, by decide, by decide, by decide⟩, rfl⟩
  have hfile : InFile (bytes "--abcd-efgh") twoChunks := by
    refine ⟨by decide, by decide, by decide, fun c hc => ?_⟩
    simp only [twoChunks, List.mem_cons, List.not_mem_nil, or_false] at hc
    rcases hc with rfl | rfl
    · exact ⟨bytes "-efgh", rfl⟩
    · exact ⟨[], rfl⟩
  have hxs : [2, 0].map (fun x => (twoChunks.flatMap Mp4Chunk.samples)[x]?) =
      [bytes "efgh", bytes "ab"].map some := rfl
  exact mp4ff_readsSamples hdescribes hfile (fun _ => rfl) hxs {}

end AudioPlayer

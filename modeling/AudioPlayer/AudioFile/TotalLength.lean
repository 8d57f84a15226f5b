import Mathlib
import AudioPlayer.AudioFile.Preread

/-!
# The total length of a web file (`src/audio_file.c:298-299`, `:402-414`)

The downloader says `-1` until the head of a response is there. `audio_file_size` stores that in a `uint32_t` when its
wait ends first, and `audio_file_read` compares it as one: 4294967295 is never replaced, as it is not 0, and no length
is above it.

| here | there |
|---|---|
| `OpenFile.asked`     | the download when `http_download_get_total_length` answers what is stored |
| `OpenFile.Known`     | a run in which that is never `-1` |
| `OpenFile.Completes` | a run with a call of `audio_file_size`, or of `audio_file_read` that leaves its loop |

A read that the preread bytes serve, or that returns `-2`, does not ask.
-/

namespace AudioPlayer
open Lib

/-- Every event of the call is in `C`. -/
structure AudioFileAnswers.All (C : WebEvent → Prop) (env : AudioFileAnswers) : Prop where
  turns    : ∀ turn ∈ env.turns, turn.All C
  length   : ∀ e ∈ env.length, C e
  stored   : ∀ e ∈ env.stored, C e
  stopping : ∀ e ∈ env.stopping, C e

/-- Every head that is received has the length `L`. -/
def SaysLength (L : Int) (e : WebEvent) : Prop := ∀ n, e = .length n → n = L

/-- Where a read is behind its loop. -/
def audioFileReadAsked (env : AudioFileAnswers) (size : Nat) (s : OpenFile) : Option WebDownload :=
  if s.file.preread.length < size ∧ s.file.fileType = .web then
    match audioFileReadWeb env.turns (size - s.file.preread.length) s.file.preread { s.file with preread := [] }
        s.download with
    | some (true, _, _, d) => some ((d.applies env.length).applies env.stored)
    | _ => none
  else none

def OpenFile.asked (env : AudioFileAnswers) : AudioFileCall → OpenFile → Option WebDownload
  | .size, s =>
    if s.file.fileType = .web ∧ s.file.totalLength = 0 then
      match env.turns with
      | [] => none
      | turn :: _ => (audioFileWaitBuffer turn 1 s.file s.download).map fun (_, d) => d.applies env.length
    else none
  | .read size, s | .preread size, s => audioFileReadAsked env size s
  | .seek _, _ | .tell, _ => none

/-- The head has been received whenever a length is taken over. -/
def OpenFile.Known (m : AudioMedia) : List (AudioFileCall × AudioFileAnswers) → OpenFile → Prop
  | [], _ => True
  | (c, env) :: cs, s => (∀ d, s.asked env c = some d → d.totalLength ≠ -1) ∧
      ∀ r t, s.call m env c = some (r, t) → t.Known m cs

def OpenFile.Completes (m : AudioMedia) : List (AudioFileCall × AudioFileAnswers) → OpenFile → Prop
  | [], _ => False
  | (c, env) :: cs, s => (c = .size ∨ (s.asked env c).isSome) ∨
      ∃ r t, s.call m env c = some (r, t) ∧ t.Completes m cs

/-! ## The downloader's length -/

section
variable {C : WebEvent → Prop} {T : Set Int} {d d' : WebDownload} {e : WebEvent} {es : List WebEvent}
  {turns : List WebTurn} {size readPos diff : Nat} {bs bs' : List Byte} {f f' : AudioFile} {ok : Bool}
  {start : WebStart} {seekPos : Int}

/-- `T` has every length of an event, and that of a start. -/
structure Lengths (C : WebEvent → Prop) (T : Set Int) : Prop where
  unknown : -1 ∈ T
  length  : ∀ n, C (.length n) → n ∈ T

theorem Lengths.apply (hT : Lengths C T) (d : WebDownload) (e : WebEvent) (he : C e) (hd : d.totalLength ∈ T) :
    (d.apply e).totalLength ∈ T := by
  unfold WebDownload.apply
  split
  · exact hd
  · cases e with
    | length n => exact hT.length n he
    | push bs => exact hd
    | enters state ret => exact hd

theorem Lengths.applies (hT : Lengths C T) (hes : ∀ e ∈ es, C e) (hd : d.totalLength ∈ T) :
    (d.applies es).totalLength ∈ T :=
  applies_keeps (I := fun d => d.totalLength ∈ T) hT.apply hes hd

theorem Lengths.startSeek (hT : Lengths C T) (hd : d.totalLength ∈ T) :
    (httpDownloadStartSeek start seekPos d).totalLength ∈ T := by
  unfold httpDownloadStartSeek
  cases start with
  | noUrl => simpa using hd
  | noMemory => simpa using hd
  | runs =>
    dsimp only
    split
    · exact hT.unknown
    · simpa using hd

theorem Lengths.reach (hT : Lengths C T) (h : Reach (WebStep C readPos) d d') (hd : d.totalLength ∈ T) :
    d'.totalLength ∈ T := by
  refine h.invariant (I := fun d => d.totalLength ∈ T) ?_ hd
  intro d1 a d2 hd1 hstep
  cases hstep with
  | event he => exact hT.apply _ _ he hd1
  | restart _ _ =>
    apply hT.startSeek
    simpa using hd1

theorem Lengths.readWeb (hT : Lengths C T) (hturns : ∀ turn ∈ turns, turn.All C)
    (h : audioFileReadWeb turns size bs f d = some (ok, bs', f', d')) (hd : d.totalLength ∈ T) :
    d'.totalLength ∈ T := by
  induction turns generalizing size bs f d with
  | nil =>
    unfold audioFileReadWeb at h
    split at h
    · cases h
      exact hd
    · cases h
  | cons turn turns ih =>
    unfold audioFileReadWeb at h
    split at h
    · cases h
      exact hd
    cases hpass : audioFileReadPass turn (min size audioFileHttpMaxSeek) f d with
    | none =>
      rw [hpass] at h
      cases h
    | some pass =>
      rw [hpass] at h
      cases audioFileReadPass_cases (hturns turn (.head _)) hpass with
      | leaves hreach _ _ =>
        cases h
        exact hT.reach hreach hd
      | fails hreach _ =>
        cases h
        exact hT.reach hreach hd
      | @pops d1 hreach _ =>
        have hd1 : d1.totalLength ∈ T := hT.reach hreach hd
        exact ih (fun turn' hturn => hturns turn' (.tail _ hturn)) h hd1

theorem Lengths.skip (hT : Lengths C T) (hturns : ∀ turn ∈ turns, turn.All C)
    (h : audioFileSkip turns diff f d = some (ok, d')) (hd : d.totalLength ∈ T) : d'.totalLength ∈ T := by
  induction turns generalizing diff d with
  | nil =>
    unfold audioFileSkip at h
    split at h
    · cases h
      exact hd
    · cases h
  | cons turn turns ih =>
    unfold audioFileSkip at h
    split at h
    · cases h
      exact hd
    cases hpass : audioFileSkipPass turn diff f d with
    | none =>
      rw [hpass] at h
      cases h
    | some res =>
      rw [hpass] at h
      cases audioFileSkipPass_cases (hturns turn (.head _)) hpass with
      | fails hreach =>
        cases h
        exact hT.reach hreach hd
      | @pops d1 hreach _ =>
        have hd1 : d1.totalLength ∈ T := hT.reach hreach hd
        exact ih (fun turn' hturn => hturns turn' (.tail _ hturn)) h hd1

end

/-! ## A call -/

/-- What a call makes of the length: it does not ask; or it asks and does not take the answer, which is not above the
length it has; or it takes it. -/
inductive LengthOutcome (T : Set Int) (s t : OpenFile) : Option WebDownload → Prop
  | kept : t.file.totalLength = s.file.totalLength → LengthOutcome T s t none
  | refused {d d' : WebDownload} : d.totalLength ∈ T → d'.totalLength ∈ T →
      toU32 d.totalLength ≤ s.file.totalLength → t.file.totalLength = s.file.totalLength →
      LengthOutcome T s t (some d')
  | stored {d : WebDownload} : d.totalLength ∈ T → s.file.totalLength < 4294967295 →
      t.file.totalLength = (toU32 d.totalLength).toNat → LengthOutcome T s t (some d)

section
variable {C : WebEvent → Prop} {T : Set Int} {m : AudioMedia} {env : AudioFileAnswers} {s t : OpenFile} {ret : Int}
  {bs : List Byte} {n : Nat} {position : Int}

/-- A web file stays one, and its download in `T`. -/
structure LengthStep (T : Set Int) (s t : OpenFile) (asked : Option WebDownload) : Prop where
  fileType : t.file.fileType = .web
  download : t.download.totalLength ∈ T
  outcome  : LengthOutcome T s t asked

theorem toU32_lt (x : Int) : toU32 x < 4294967296 := Int.emod_lt_of_pos _ (by decide)

theorem Lengths.read (hT : Lengths C T) (hweb : s.file.fileType = .web) (hd : s.download.totalLength ∈ T)
    (henv : env.All C) (h : audioFileRead m env n s = some (ret, bs, t)) :
    LengthStep T s t (audioFileReadAsked env n s) := by
  cases audioFileRead_cases h with
  | preread hle =>
    rw [audioFileReadAsked, if_neg (by omega)]
    exact ⟨hweb, hd, .kept rfl⟩
  | @failed f d bs hlt htype hrun =>
    obtain ⟨popped, hpopped⟩ := audioFileReadWeb_run henv.turns hrun
    have hfile := hpopped.file
    rw [audioFileReadAsked, if_pos ⟨hlt, htype⟩, hrun]
    refine ⟨?_, hT.readWeb henv.turns hrun hd, .kept ?_⟩
    · show AudioFile.fileType _ = _
      rw [hfile]
      exact hweb
    · show AudioFile.totalLength _ = _
      rw [hfile]
  | @web bs f d hlt htype hrun =>
    obtain ⟨popped, hpopped⟩ := audioFileReadWeb_run henv.turns hrun
    have hfile := hpopped.file
    have hd1 := hT.applies henv.length (hT.readWeb henv.turns hrun hd)
    have hd2 := hT.applies henv.stored hd1
    have htotal : f.totalLength = s.file.totalLength := by rw [hfile]
    have hkind : f.fileType = .web := by
      rw [hfile]
      exact hweb
    rw [audioFileReadAsked, if_pos ⟨hlt, htype⟩, hrun]
    unfold audioFileReadLength
    dsimp only
    by_cases hless : (f.totalLength : Int) < toU32 (d.applies env.length).totalLength
    · have hmax := toU32_lt (d.applies env.length).totalLength
      rw [if_pos hless]
      exact ⟨hkind, hd2, .stored hd2 (by omega) rfl⟩
    · rw [if_neg hless]
      exact ⟨hkind, hd1, .refused hd1 hd2 (by omega) htotal⟩
  | flash hlt htype _ => rw [hweb] at htype; cases htype
  | card hlt htype _ => rw [hweb] at htype; cases htype

theorem Lengths.seek (hT : Lengths C T) (hweb : s.file.fileType = .web) (hd : s.download.totalLength ∈ T)
    (henv : env.All C) (h : audioFileSeek m env position s = some (ret, t)) : LengthStep T s t none := by
  rcases audioFileSeek_cases h with ⟨-, -, rfl⟩ | ⟨-, hseek⟩
  · exact ⟨hweb, hd, .kept rfl⟩
  cases hseek with
  | preread _ _ => exact ⟨hweb, hd, .kept rfl⟩
  | here _ _ => exact ⟨hweb, hd, .kept rfl⟩
  | restart _ _ _ =>
    refine ⟨hweb, hT.startSeek ?_, .kept rfl⟩
    show (httpDownloadStop _).totalLength ∈ T
    rw [stop_totalLength]
    exact hT.applies henv.stopping hd
  | skipFailed _ _ _ hskip => exact ⟨hweb, hT.skip henv.turns hskip hd, .kept rfl⟩
  | skipped _ _ _ hskip => exact ⟨hweb, hT.skip henv.turns hskip hd, .kept rfl⟩
  | flash htype _ => rw [hweb] at htype; cases htype
  | lseekFailed htype _ _ => rw [hweb] at htype; cases htype
  | lseek htype _ _ => rw [hweb] at htype; cases htype

theorem Lengths.size (hT : Lengths C T) (hweb : s.file.fileType = .web) (hd : s.download.totalLength ∈ T)
    (henv : env.All C) (h : audioFileSize env s = some (ret, t)) : LengthStep T s t (s.asked env .size) := by
  unfold audioFileSize at h
  simp only [OpenFile.asked]
  by_cases hzero : s.file.fileType = .web ∧ s.file.totalLength = 0
  · rw [if_pos hzero] at h ⊢
    cases hturns : env.turns with
    | nil =>
      rw [hturns] at h
      cases h
    | cons turn turns =>
      have hturn : turn.All C := henv.turns turn (by rw [hturns]; exact .head _)
      rw [hturns] at h
      dsimp only at h ⊢
      cases hwait : audioFileWaitBuffer turn 1 s.file s.download with
      | none =>
        rw [hwait] at h
        cases h
      | some waited =>
        obtain ⟨ok, d⟩ := waited
        have hd1 := hT.applies henv.length (hT.reach (audioFileWaitBuffer_reach hturn hwait) hd)
        rw [hwait] at h
        obtain ⟨-, rfl⟩ := Prod.mk.inj (Option.some.inj h)
        exact ⟨hweb, hd1, .stored hd1 (by omega) rfl⟩
  · rw [if_neg hzero] at h ⊢
    obtain ⟨-, rfl⟩ := Prod.mk.inj (Option.some.inj h)
    exact ⟨hweb, hd, .kept rfl⟩

/-- **What a call of a web file makes of its length.** -/
theorem Lengths.call (hT : Lengths C T) {c : AudioFileCall} {r : AudioFileResult} (hweb : s.file.fileType = .web)
    (hd : s.download.totalLength ∈ T) (henv : env.All C) (h : s.call m env c = some (r, t)) :
    LengthStep T s t (s.asked env c) := by
  cases c with
  | read size =>
    obtain ⟨⟨ret, bytes, t1⟩, hread, heq⟩ := Option.map_eq_some_iff.1 h
    cases heq
    exact hT.read hweb hd henv hread
  | seek position =>
    obtain ⟨⟨ret, t1⟩, hseek, heq⟩ := Option.map_eq_some_iff.1 h
    cases heq
    exact hT.seek hweb hd henv hseek
  | size =>
    obtain ⟨⟨ret, t1⟩, hsize, heq⟩ := Option.map_eq_some_iff.1 h
    cases heq
    exact hT.size hweb hd henv hsize
  | tell =>
    obtain ⟨-, rfl⟩ := Prod.mk.inj (Option.some.inj h)
    exact ⟨hweb, hd, .kept rfl⟩
  | preread size =>
    obtain ⟨ret, bytes, t1, hread, rfl⟩ := audioFilePreread_cases h
    obtain ⟨hkind, hd1, hout⟩ := hT.read hweb hd henv hread
    have hpush := push_file env.malloc ret bytes t1.file
    refine ⟨?_, hd1, ?_⟩
    · show (audioFilePushPreread env.malloc ret bytes t1.file).fileType = _
      rw [hpush]
      exact hkind
    · have htotal : (audioFilePushPreread env.malloc ret bytes t1.file).totalLength = t1.file.totalLength :=
        push_totalLength _ _ _ _
      show LengthOutcome T s _ (audioFileReadAsked env size s)
      generalize audioFileReadAsked env size s = asked at hout ⊢
      cases hout with
      | kept hkept => exact .kept (htotal.trans hkept)
      | refused h1 h2 hle hkept => exact .refused h1 h2 hle (htotal.trans hkept)
      | stored h1 hlt hstored => exact .stored h1 hlt (htotal.trans hstored)

end

/-! ## A run -/

section
variable {m : AudioMedia} {cs cs' : List (AudioFileCall × AudioFileAnswers)} {s t : OpenFile}
  {rs rs' : List AudioFileResult} {L : Int} {start : WebStart} {f : AudioFile}

/-- A run is a call and a run. -/
theorem calls_cons {c : AudioFileCall} {env : AudioFileAnswers} (h : s.calls m ((c, env) :: cs) = some (rs, t)) :
    ∃ r s1 rs1, s.call m env c = some (r, s1) ∧ s1.calls m cs = some (rs1, t) := by
  unfold OpenFile.calls at h
  cases hcall : s.call m env c with
  | none =>
    rw [hcall] at h
    cases h
  | some res =>
    obtain ⟨r, s1⟩ := res
    rw [hcall] at h
    obtain ⟨⟨rs1, t1⟩, hrun, heq⟩ := Option.map_eq_some_iff.1 h
    obtain ⟨-, rfl⟩ := Prod.mk.inj heq
    exact ⟨r, s1, rs1, rfl, hrun⟩

theorem OpenFile.Known.append (h : s.Known m (cs ++ cs')) (hrun : s.calls m cs = some (rs, t)) : t.Known m cs' := by
  induction cs generalizing s rs with
  | nil =>
    obtain ⟨-, rfl⟩ := Prod.mk.inj (Option.some.inj hrun)
    exact h
  | cons call cs ih =>
    obtain ⟨c, env⟩ := call
    obtain ⟨r, s1, rs1, hcall, hrest⟩ := calls_cons hrun
    exact ih (h.2 r s1 hcall) hrest

theorem OpenFile.Known.left (h : s.Known m (cs ++ cs')) : s.Known m cs := by
  induction cs generalizing s with
  | nil => trivial
  | cons call cs ih => exact ⟨h.1, fun r t hcall => ih (h.2 r t hcall)⟩

/-- The file has no length or `L`, and its download in `T`. -/
structure LengthInv (T : Set Int) (L : Int) (s : OpenFile) : Prop where
  fileType : s.file.fileType = .web
  download : s.download.totalLength ∈ T
  length   : (s.file.totalLength : Int) = 0 ∨ (s.file.totalLength : Int) = L

/-- The three answers, and the two once a head is there. -/
theorem lengths_any (L : Int) : Lengths (SaysLength L) {0, -1, L} where
  unknown := .inr (.inl rfl)
  length := fun n hn => .inr (.inr (hn n rfl))

theorem lengths_received (L : Int) : Lengths (SaysLength L) {-1, L} where
  unknown := .inl rfl
  length := fun n hn => .inr (hn n rfl)

/-- A call that takes no `-1` over keeps it. -/
theorem LengthInv.call {T : Set Int} {c : AudioFileCall} {env : AudioFileAnswers} {r : AudioFileResult}
    (h : LengthInv T L s) (hT : Lengths (SaysLength L) T) (hsub : T ⊆ {0, -1, L}) (hL : 0 ≤ L) (hL' : L < 2147483648)
    (henv : env.All (SaysLength L)) (hknown : ∀ d, s.asked env c = some d → d.totalLength ≠ -1)
    (hcall : s.call m env c = some (r, t)) : LengthInv T L t := by
  obtain ⟨hkind, hd, hout⟩ := hT.call h.fileType h.download henv hcall
  refine ⟨hkind, hd, ?_⟩
  generalize hasked : s.asked env c = asked at hout
  cases hout with
  | kept hkept =>
    rw [hkept]
    exact h.length
  | refused _ _ _ hkept =>
    rw [hkept]
    exact h.length
  | @stored d hdT _ hstored =>
    have hne := hknown d hasked
    rw [hstored]
    rcases hsub hdT with hzero | hminus | hlength
    · rw [hzero]
      exact .inl rfl
    · exact absurd hminus hne
    · rw [show d.totalLength = L from hlength, toU32_eq hL (by omega), Int.toNat_of_nonneg hL]
      exact .inr rfl

theorem LengthInv.calls {T : Set Int} (h : LengthInv T L s) (hT : Lengths (SaysLength L) T) (hsub : T ⊆ {0, -1, L})
    (hL : 0 ≤ L) (hL' : L < 2147483648) (henv : ∀ call ∈ cs, call.2.All (SaysLength L)) (hknown : s.Known m cs)
    (hrun : s.calls m cs = some (rs, t)) : LengthInv T L t := by
  induction cs generalizing s rs with
  | nil =>
    obtain ⟨-, rfl⟩ := Prod.mk.inj (Option.some.inj hrun)
    exact h
  | cons call cs ih =>
    obtain ⟨c, env⟩ := call
    obtain ⟨r, s1, rs1, hcall, hrest⟩ := calls_cons hrun
    have h1 := h.call hT hsub hL hL' (henv _ (.head _)) hknown.1 hcall
    exact ih h1 (fun call hmem => henv call (.tail _ hmem)) (hknown.2 r s1 hcall) hrest

/-- Behind the head, a call that asks for the length leaves it there. -/
theorem LengthInv.asks {c : AudioFileCall} {env : AudioFileAnswers} {r : AudioFileResult} (h : LengthInv {-1, L} L s)
    (hL : 0 ≤ L) (hL' : L < 2147483648) (henv : env.All (SaysLength L))
    (hknown : ∀ d, s.asked env c = some d → d.totalLength ≠ -1) (hcall : s.call m env c = some (r, t))
    (hasks : (c = .size ∨ (s.asked env c).isSome) ∨ (s.file.totalLength : Int) = L) :
    (t.file.totalLength : Int) = L := by
  obtain ⟨-, -, hout⟩ := (lengths_received L).call h.fileType h.download henv hcall
  have hlength := h.length
  generalize hasked : s.asked env c = asked at hout hasks
  cases hout with
  | kept hkept =>
    rw [hkept]
    rcases hasks with (rfl | hsome) | hlen
    · -- a length of 0 is asked for
      rcases hlength with hzero | hlen
      · simp only [OpenFile.asked] at hasked
        rw [if_pos ⟨h.fileType, by omega⟩] at hasked
        simp only [OpenFile.call, audioFileSize] at hcall
        rw [if_pos ⟨h.fileType, by omega⟩] at hcall
        cases hturns : env.turns with
        | nil =>
          rw [hturns] at hcall
          cases hcall
        | cons turn turns =>
          rw [hturns] at hcall hasked
          rw [Option.map_eq_none_iff] at hasked
          dsimp only at hcall
          rw [hasked] at hcall
          cases hcall
      · exact hlen
    · cases hsome
    · exact hlen
  | @refused d d' hd _ hle hkept =>
    rw [hkept]
    rcases hd with hminus | hlen
    · rw [hminus, toU32] at hle
      omega
    · rw [show d.totalLength = L from hlen, toU32_eq hL (by omega)] at hle
      omega
  | @stored d hd _ hstored =>
    have hlen : d.totalLength = L := hd.resolve_left (hknown d hasked)
    rw [hstored, hlen, toU32_eq hL (by omega), Int.toNat_of_nonneg hL]

theorem LengthInv.completes (h : LengthInv {-1, L} L s) (hL : 0 ≤ L) (hL' : L < 2147483648)
    (henv : ∀ call ∈ cs, call.2.All (SaysLength L)) (hknown : s.Known m cs) (hrun : s.calls m cs = some (rs, t))
    (hcs : s.Completes m cs ∨ (s.file.totalLength : Int) = L) : (t.file.totalLength : Int) = L := by
  induction cs generalizing s rs with
  | nil =>
    obtain ⟨-, rfl⟩ := Prod.mk.inj (Option.some.inj hrun)
    exact hcs.resolve_left id
  | cons call cs ih =>
    obtain ⟨c, env⟩ := call
    obtain ⟨r, s1, rs1, hcall, hrest⟩ := calls_cons hrun
    have h1 := h.call (lengths_received L) (fun _ hx => .inr hx) hL hL' (henv _ (.head _)) hknown.1 hcall
    refine ih h1 (fun call hmem => henv call (.tail _ hmem)) (hknown.2 r s1 hcall) hrest ?_
    rcases hcs with (hasks | ⟨r', s', hcall', hcompletes⟩) | hlen
    · exact .inr (h.asks hL hL' (henv _ (.head _)) hknown.1 hcall (.inl hasks))
    · obtain ⟨-, rfl⟩ := Prod.mk.inj (Option.some.inj (hcall.symm.trans hcall'))
      exact .inl hcompletes
    · exact .inr (h.asks hL hL' (henv _ (.head _)) hknown.1 hcall (.inr hlen))

/-- What `audio_file_open` leaves. -/
theorem opened_lengthInv (htype : f.fileType = .web) (hzero : f.totalLength = 0) :
    LengthInv {0, -1, L} L (OpenFile.opened f start) := by
  refine ⟨htype, ?_, .inl ?_⟩
  · unfold OpenFile.opened
    rw [if_pos htype]
    exact (lengths_any L).startSeek (.inl rfl)
  · show (f.totalLength : Int) = 0
    rw [hzero]
    rfl

/-- **Where the head is there whenever the length is taken over, the length is 0 or that of the resource, and is the
latter from the first call on that asks behind the head.** -/
theorem audioFile_totalLength (m : AudioMedia) (htype : f.fileType = .web) (hzero : f.totalLength = 0) (hL : 0 ≤ L)
    (hL' : L < 2147483648) (henv : ∀ call ∈ cs ++ cs', call.2.All (SaysLength L))
    (hknown : (OpenFile.opened f start).Known m (cs ++ cs'))
    (hrun : (OpenFile.opened f start).calls m cs = some (rs, s)) (hrun' : s.calls m cs' = some (rs', t)) :
    ((t.file.totalLength : Int) = 0 ∨ (t.file.totalLength : Int) = L) ∧
      (s.download.totalLength = L → s.Completes m cs' → (t.file.totalLength : Int) = L) := by
  have hleft : ∀ call ∈ cs, call.2.All (SaysLength L) := fun call hmem => henv call (List.mem_append_left _ hmem)
  have hright : ∀ call ∈ cs', call.2.All (SaysLength L) := fun call hmem => henv call (List.mem_append_right _ hmem)
  have hs := (opened_lengthInv htype hzero).calls (lengths_any L) subset_rfl hL hL' hleft hknown.left hrun
  have hknown' := hknown.append hrun
  constructor
  · exact (hs.calls (lengths_any L) subset_rfl hL hL' hright hknown' hrun').length
  · intro hhead hcompletes
    have hs' : LengthInv {-1, L} L s := ⟨hs.fileType, .inr hhead, hs.length⟩
    exact hs'.completes hL hL' hright hknown' hrun' (.inl hcompletes)

/-- Once it is 4294967295, no call changes it. -/
theorem totalLength_stuck (htype : s.file.fileType = .web) (hstuck : s.file.totalLength = 4294967295)
    (hrun : s.calls m cs = some (rs, t)) : t.file.totalLength = 4294967295 := by
  induction cs generalizing s rs with
  | nil =>
    obtain ⟨-, rfl⟩ := Prod.mk.inj (Option.some.inj hrun)
    exact hstuck
  | cons call cs ih =>
    obtain ⟨c, env⟩ := call
    obtain ⟨r, s1, rs1, hcall, hrest⟩ := calls_cons hrun
    have hall : Lengths (fun _ => True) Set.univ := ⟨trivial, fun _ _ => trivial⟩
    have henv : env.All fun _ => True :=
      ⟨fun turn _ => turn.all_true, fun _ _ => trivial, fun _ _ => trivial, fun _ _ => trivial⟩
    obtain ⟨hkind, -, hout⟩ := hall.call htype trivial henv hcall
    refine ih hkind ?_ hrest
    generalize s.asked env c = asked at hout
    cases hout with
    | kept hkept => exact hkept.trans hstuck
    | refused _ _ _ hkept => exact hkept.trans hstuck
    | stored _ hlt _ => omega

/-- The head of a resource of one byte and the byte come while a wait goes on. -/
def AudioFileAnswers.oneByte : AudioFileAnswers :=
  { turns := [{ waiting := [.length 1, .push [0]], polls := [{}] }] }

theorem oneByte_all : AudioFileAnswers.oneByte.All (SaysLength 1) := by
  refine ⟨?_, (by intro e he; cases he), (by intro e he; cases he), (by intro e he; cases he)⟩
  intro turn hturn
  obtain rfl := List.mem_singleton.1 hturn
  refine ⟨(by intro e he; cases he), (by intro e he; cases he), ?_, ?_, (by intro e he; cases he)⟩
  · intro e he n hn
    rcases List.mem_cons.1 he with rfl | he
    · cases hn
      rfl
    · obtain rfl := List.mem_singleton.1 he
      cases hn
  · intro poll hpoll
    obtain rfl := List.mem_singleton.1 hpoll
    exact ⟨(by intro e he; cases he), (by intro e he; cases he), (by intro e he; cases he)⟩

theorem late_all : AudioFileAnswers.late.All (SaysLength 1) := by
  refine ⟨?_, (by intro e he; cases he), (by intro e he; cases he), (by intro e he; cases he)⟩
  intro turn hturn
  obtain rfl := List.mem_singleton.1 hturn
  refine ⟨(by intro e he; cases he), (by intro e he; cases he), (by intro e he; cases he), ?_,
    (by intro e he; cases he)⟩
  intro poll hpoll
  obtain rfl := List.mem_singleton.1 hpoll
  exact ⟨(by intro e he; cases he), (by intro e he; cases he), (by intro e he; cases he)⟩

/-- What that leaves. -/
def oneByteKnown : OpenFile :=
  { webFile with
    file := { webFile.file with totalLength := 1 }
    download := { webFile.download with totalLength := 1, buffer := [0], preDownloadPos := 1 } }

/-- It comes while the size is waited for, and the size is asked for again. -/
theorem audioFile_totalLength_oneByte :
    webFile.calls ⟨[], []⟩ [(.size, .oneByte)] = some ([⟨1, []⟩], oneByteKnown) ∧
      oneByteKnown.calls ⟨[], []⟩ [(.size, .late)] = some ([⟨1, []⟩], oneByteKnown) ∧
      (oneByteKnown.file.totalLength : Int) = 1 := by
  have hsize : webFile.call ⟨[], []⟩ .oneByte .size = some (⟨1, []⟩, oneByteKnown) := by decide
  have hrun : webFile.calls ⟨[], []⟩ [(.size, .oneByte)] = some ([⟨1, []⟩], oneByteKnown) := by decide
  have hrun' : oneByteKnown.calls ⟨[], []⟩ [(.size, .late)] = some ([⟨1, []⟩], oneByteKnown) := by decide
  have hknown : webFile.Known ⟨[], []⟩ ([(.size, .oneByte)] ++ [(.size, .late)]) := by
    refine ⟨?_, ?_⟩
    · intro d hd
      cases hd
      decide
    · intro r t hcall
      rw [hsize] at hcall
      obtain ⟨-, rfl⟩ := Prod.mk.inj (Option.some.inj hcall)
      refine ⟨?_, fun _ _ _ => trivial⟩
      intro d hd
      cases hd
  refine ⟨hrun, hrun', ?_⟩
  refine (audioFile_totalLength ⟨[], []⟩ rfl rfl (by decide) (by decide) ?_ hknown hrun hrun').2 rfl (.inl (.inl rfl))
  intro call hcall
  rcases List.mem_cons.1 hcall with rfl | hcall
  · exact oneByte_all
  · obtain rfl := List.mem_singleton.1 hcall
    exact late_all

/-- The wait for the size ends before the head: the size is -1, and stays so when the head and the byte are there. -/
theorem audioFile_totalLength_lost :
    (webFile.calls ⟨[], []⟩ [(.size, .late)]).map (fun x => (x.1, x.2.file.totalLength)) =
        some ([⟨-1, []⟩], 4294967295) ∧
      (webFile.calls ⟨[], []⟩ [(.size, .late), (.read 1, { turns := [.oneByte] }), (.size, .late)]).map
        (fun x => (x.1, x.2.download.totalLength, x.2.file.totalLength)) =
        some ([⟨-1, []⟩, ⟨1, [0]⟩, ⟨-1, []⟩], 1, 4294967295) := by
  constructor <;> decide

end

end AudioPlayer

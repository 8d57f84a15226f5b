import Mathlib
import AudioPlayer.Httpclient.Turns

/-!
# The streams a call ends on (`httpclient_recv_response`, `utils/httpclient.c:1163-1193`)

Where the chunks of a body stand in the stream does not depend on how its bytes arrive, so the stream says by itself
whether a call comes to a size line without an end.

| here | there |
|---|---|
| `HeadRead`, `HeadOf`            | what the head says, line by line (`:957-1049`), and behind its status line |
| `SizeLineStalls`, `ChunkStalls` | the framing of the chunks (`:735-871`), followed to a size line whose end does not come |
| `BodyStalls`                    | the body as `httpclient_retrieve_content` finds it (`:689-703`) |

Less than a block of chunks is followed: a call that has filled the response buffer returns.
-/

namespace AudioPlayer
open Lib

/-! ## The stream -/

/-- The number `n` of a size line is taken for `len`: for any length where it is none of `size_t`. -/
def TakenForSize (n : Int) (len : Nat) : Prop :=
  if n ≤ -18446744073709551616 ∨ 18446744073709551616 ≤ n then len < 18446744073709551616 else len = toSize .lp64 n

/-- With `o` bytes in the response buffer, chunks that fit into it lead from `B` to a size line whose end does not come
with a byte behind it within the first 2047 bytes. -/
inductive SizeLineStalls (bufLen : Nat) : Nat → List Byte → Prop
  | here {o : Nat} {B : List Byte} (hnone : strstr crlf (B.take (httpclientChunkSize - 1)).dropLast = none) :
    SizeLineStalls bufLen o B
  | chunk {o len pos : Nat} {n : Int} {B rest : List Byte}
    (hcrlf : strstr crlf (B.take (httpclientChunkSize - 1)).dropLast = some pos)
    (hsize : scanHex (cstr (B.take pos)) = some (n, rest)) (hlen : TakenForSize n len) (hne : len ≠ 0)
    (hfits : o + len < bufLen - 1) (hend : crlf <+: (B.drop (pos + 2)).drop len)
    (hnext : SizeLineStalls bufLen (o + len) ((B.drop (pos + 2)).drop (len + 2))) : SizeLineStalls bufLen o B

/-- The same with `len` bytes of a chunk still to come. -/
structure ChunkStalls (bufLen o len : Nat) (B : List Byte) : Prop where
  fits : o + len < bufLen - 1
  ends : crlf <+: B.drop len
  next : SizeLineStalls bufLen (o + len) (B.drop (len + 2))

/-- The body that is to be read by `cd` from `B`. -/
def HttpclientData.Stalls (cd : HttpclientData) (B : List Byte) : Prop :=
  cd.isChunked = true ∧
    if cd.retrieveLen ≤ 0 then SizeLineStalls cd.responseBufLen 0 B
    else ChunkStalls cd.responseBufLen 0 (toSize .lp64 cd.retrieveLen) B

/-- What the last call left over comes first, where nothing is in the buffer. -/
def HttpclientData.BodyStalls (cd : HttpclientData) (data : List Byte) (s : Socket) : Prop :=
  let (data, cd) := httpclientTakeRemain data { cd with isMore := true }
  cd.Stalls (data ++ s.bytes)

/-- With `data` in the buffer the lines up to the empty one are read: they say `cd'`, and leave `data'` and `s'`. -/
inductive HeadRead : HttpclientData → List Byte → Socket → HttpclientData → List Byte → Socket → Prop
  | done {cd : HttpclientData} {data : List Byte} {s : Socket} (hcrlf : strstr crlf (cstr data) = some 0) :
    HeadRead cd data s cd (data.drop 2) s
  | line {cd cd' : HttpclientData} {data data' : List Byte} {s s' : Socket} {pos colon : Nat} (u : Unspecified)
    (hcrlf : strstr crlf (cstr data) = some pos) (hne : pos ≠ 0)
    (hcolon : strstr (bytes ": ") (cstr data) = some colon)
    (h : HeadRead ((httpclientField cd (cstr data) colon (pos - colon - 2)).getD (cd.unspecified u))
      (data.drop (pos + 2)) s cd' data' s') : HeadRead cd data s cd' data' s'
  | more {cd cd' : HttpclientData} {data new data' : List Byte} {s t s' : Socket} {ret : HttpclientResult}
    (hcrlf : strstr crlf (cstr data) = none) (hroom : data.length < httpclientChunkSize - 1)
    (hrecv : httpclientRecv 1 (httpclientChunkSize - data.length - 1) s = (ret, new, t))
    (hgot : ¬(ret = .errorConn ∨ ret = .closed ∧ new = []))
    (h : HeadRead cd (data ++ new) t cd' data' s') : HeadRead cd data s cd' data' s'

/-- The first bytes that arrive hold a status line, and the head behind it says `cd'`. -/
def HeadOf (cd : HttpclientData) (s : Socket) (cd' : HttpclientData) (data' : List Byte) (s' : Socket) : Prop :=
  ∃ ret data t pos code, httpclientRecv 1 (httpclientChunkSize - 1) s = (ret, data, t) ∧
    (ret = .ok ∨ ret = .closed) ∧ strstr crlf (cstr data) = some pos ∧
    httpclientStatusLine (data.take pos) = some code ∧ HeadRead cd.headStart (data.drop (pos + 2)) t cd' data' s'

/-- The stream of a call leads to a size line whose end does not come: behind its head, or where the last call stopped. -/
def HttpclientData.CallStalls (cd : HttpclientData) (s : Socket) : Prop :=
  if cd.isMore then cd.BodyStalls [] s
  else ∃ cd' data' s', HeadOf cd s cd' data' s' ∧ cd'.BodyStalls data' s'

namespace HttpclientPoint

/-- What is still to come leads to a size line whose end does not. -/
def Stalls : HttpclientPoint → Socket → Prop
  | headers cd data, s => ∃ cd' data' s', HeadRead cd data s cd' data' s' ∧ cd'.BodyStalls data' s'
  | chunkHeader cd out data, s => SizeLineStalls cd.responseBufLen out.length (data ++ s.bytes)
  | body cd out data readLen, s =>
    cd.isChunked = true ∧ ChunkStalls cd.responseBufLen out.length readLen (data ++ s.bytes)
  | readToClose _ _ _, _ | returned _, _ => False

/-- The receive buffer has room for the NUL behind `data`, and a size line is read in chunks only. -/
def Fits : HttpclientPoint → Prop
  | headers cd data => data.length < httpclientChunkSize ∧ cd.remain < httpclientChunkSize
  | chunkHeader cd _ data => cd.isChunked = true ∧ data.length < httpclientChunkSize
  | body _ _ data _ => data.length < httpclientChunkSize
  | readToClose _ _ _ | returned _ => True

end HttpclientPoint

/-! ## What a turn does to it -/

section
variable {cd : HttpclientData} {out data : List Byte} {s : Socket} {expired : Socket → Bool} {u : Unspecified}
  {readLen : Nat}

/-- The buffer is a start of what is to come, and the line end is found in it or not yet. -/
theorem crlf_found {pos : Nat} (hlen : data.length < httpclientChunkSize) (h : strstr crlf data.dropLast = some pos) :
    strstr crlf ((data ++ s.bytes).take (httpclientChunkSize - 1)).dropLast = some pos := by
  have hchunk : httpclientChunkSize = 2048 := rfl
  refine strstr_extend (dropLast_mono ?_) h
  rw [List.take_append, List.take_of_length_le (by omega)]
  exact List.prefix_append _ _

/-- Where the next length is known the points stall as the body does. -/
theorem httpclientContent_stalls : (httpclientContent cd data).Stalls s ↔ cd.BodyStalls data s := by
  unfold httpclientContent HttpclientData.BodyStalls
  obtain ⟨data', cd', htake⟩ : ∃ data' cd', httpclientTakeRemain data { cd with isMore := true } = (data', cd') :=
    ⟨_, _, rfl⟩
  rw [htake]
  dsimp only
  unfold HttpclientData.Stalls
  by_cases hclose : cd'.responseContentLen = -1 ∧ cd'.isChunked = false
  · rw [if_pos hclose]
    exact iff_of_false id fun h => absurd (hclose.2.symm.trans h.1) Bool.false_ne_true
  · rw [if_neg hclose]
    unfold httpclientNext
    by_cases hchunked : cd'.isChunked = true
    · by_cases hlen : cd'.retrieveLen ≤ 0
      · rw [if_pos ⟨hchunked, hlen⟩, if_pos hlen]
        exact (and_iff_right hchunked).symm
      · rw [if_neg (fun h => hlen h.2), if_neg hlen]
        exact Iff.rfl
    · rw [if_neg (fun h => hchunked h.1)]
      exact and_congr_right fun h => absurd h hchunked

/-- The line end behind a chunk is found exactly where it is what comes next. -/
theorem chunkEnd_found {bufLen : Nat} (hs : s.NoFail) (hlen : data.length < httpclientChunkSize) :
    (crlf <+: data ++ s.bytes ∧ ∃ data' s', httpclientChunkEnd bufLen out data s = .found data' s' ∧
      data' ++ s'.bytes = (data ++ s.bytes).drop 2 ∧ data'.length < httpclientChunkSize) ∨
    (¬ crlf <+: data ++ s.bytes ∧ ∃ ret s', httpclientChunkEnd bufLen out data s = .ret ret s') := by
  have hchunk : httpclientChunkSize = 2048 := rfl
  have htwo : crlf.length = 2 := rfl
  -- the check, with two bytes there or nothing more to come
  have hcheck : ∀ (data' : List Byte) s', data' ++ s'.bytes = data ++ s.bytes → data'.length < httpclientChunkSize →
      2 ≤ data'.length ∨ (data ++ s.bytes).length < 2 →
      ∀ r, (if crlf <+: data' then ChunkEnd.found (data'.drop 2) s' else .ret .errorPrtcl s') = r →
      (crlf <+: data ++ s.bytes ∧ ∃ data' s', r = .found data' s' ∧
        data' ++ s'.bytes = (data ++ s.bytes).drop 2 ∧ data'.length < httpclientChunkSize) ∨
      (¬ crlf <+: data ++ s.bytes ∧ ∃ ret s', r = .ret ret s') := by
    rintro data' s' hbytes hlen' hall _ rfl
    rw [← hbytes]
    by_cases hpre : crlf <+: data'
    · have hle := hpre.length_le
      rw [if_pos hpre]
      refine .inl ⟨hpre.trans (List.prefix_append _ _), _, _, rfl, ?_, ?_⟩
      · rw [List.drop_append_of_le_length (by omega)]
      · rw [List.length_drop]
        omega
    · rw [if_neg hpre]
      refine .inr ⟨fun hwhole => hpre ?_, _, _, rfl⟩
      rcases hall with htwo' | hfew
      · exact List.prefix_of_prefix_length_le hwhole (List.prefix_append _ _) (by omega)
      · have hle := hwhole.length_le
        rw [hbytes] at hle
        omega
  unfold httpclientChunkEnd
  dsimp only
  by_cases hshort : data.length < 2
  · rw [if_pos hshort]
    have hle : 2 - data.length ≤ min (bufLen - 1 - out.length + 2) (httpclientChunkSize - data.length - 1) := by
      omega
    obtain ⟨ret, new, s', hrecv, hbytes, hs', hnew, hret, -⟩ := httpclientRecv_spec hs hle
    rw [hrecv]
    dsimp only
    have hlen' := @List.length_append _ data new
    by_cases hgone : ret = .errorConn ∨ ret = .closed ∧ new = []
    · rw [if_pos hgone]
      refine .inr ⟨fun hwhole => ?_, _, _, rfl⟩
      have hle' := hwhole.length_le
      rw [List.length_append] at hle'
      rcases hret with ⟨rfl, -⟩ | ⟨-, hless⟩
      · rcases hgone with hgone | hgone <;> simp_all
      · omega
    · rw [if_neg hgone]
      refine hcheck _ s' (by rw [List.append_assoc, hbytes]) (by omega) ?_ _ rfl
      rcases hret with ⟨-, hmin⟩ | ⟨-, hless⟩
      · exact .inl (by omega)
      · exact .inr (by rw [List.length_append]; omega)
  · rw [if_neg hshort]
    exact hcheck data s rfl hlen (.inl (by omega)) _ rfl

theorem bodyEnd_stalls (hs : s.NoFail) (hlen : data.length < httpclientChunkSize) (hret : cd.retrieveLen ≤ 0) :
    (httpclientBodyEnd cd out data s).1.Fits ∧
    ((httpclientBodyEnd cd out data s).1.Stalls (httpclientBodyEnd cd out data s).2 ↔ cd.isChunked = true ∧
      crlf <+: data ++ s.bytes ∧ SizeLineStalls cd.responseBufLen out.length ((data ++ s.bytes).drop 2)) := by
  unfold httpclientBodyEnd
  by_cases hchunked : cd.isChunked = true
  · rw [if_pos hchunked]
    rcases @chunkEnd_found out data s cd.responseBufLen hs hlen with
      ⟨hcrlf, data', s', hend, hbytes, hlen'⟩ | ⟨hcrlf, ret, s', hend⟩
    · rw [hend]
      dsimp only
      unfold httpclientNext
      rw [if_pos ⟨hchunked, hret⟩, ← hbytes]
      exact ⟨⟨hchunked, hlen'⟩, fun h => ⟨hchunked, hcrlf, h⟩, fun h => h.2.2⟩
    · rw [hend]
      exact ⟨trivial, fun h => h.elim, fun h => hcrlf h.2.1⟩
  · rw [if_neg hchunked]
    exact ⟨trivial, fun h => h.elim, fun h => hchunked h.1⟩

/-- The bytes of a chunk that are in the response buffer already count like those still to come. -/
theorem chunkStalls_append {bufLen : Nat} {B : List Byte} (h : data.length ≤ readLen) :
    ChunkStalls bufLen out.length readLen (data ++ B) ↔
      ChunkStalls bufLen (out ++ data).length (readLen - data.length) B := by
  have hsum : (out ++ data).length + (readLen - data.length) = out.length + readLen := by
    rw [List.length_append]
    omega
  have hdrop : (data ++ B).drop readLen = B.drop (readLen - data.length) := by
    rw [List.drop_append, List.drop_of_length_le h, List.nil_append]
  have hnext : (data ++ B).drop (readLen + 2) = B.drop (readLen - data.length + 2) := by
    rw [← List.drop_drop, hdrop, List.drop_drop]
  constructor
  · intro hstalls
    refine ⟨hsum ▸ hstalls.fits, hdrop ▸ hstalls.ends, ?_⟩
    rw [hsum, ← hnext]
    exact hstalls.next
  · intro hstalls
    refine ⟨hsum ▸ hstalls.fits, hdrop ▸ hstalls.ends, ?_⟩
    rw [← hsum, hnext]
    exact hstalls.next

/-- A turn of the loop that fills the response buffer takes a part of the chunk. -/
theorem body_stalls (hs : s.NoFail) (hbuf : httpclientChunkSize ≤ cd.responseBufLen)
    (hlen : data.length < httpclientChunkSize) (htimer : expired s = false) :
    (httpclientTurn expired u (.body cd out data readLen) s).1.Fits ∧
    ((httpclientTurn expired u (.body cd out data readLen) s).1.Stalls
        (httpclientTurn expired u (.body cd out data readLen) s).2 ↔
      (HttpclientPoint.body cd out data readLen).Stalls s) := by
  have hchunk : httpclientChunkSize = 2048 := rfl
  unfold httpclientTurn
  dsimp only
  rw [htimer, if_neg Bool.false_ne_true]
  by_cases hroom : out.length + min data.length readLen < cd.responseBufLen - 1
  · rw [if_pos hroom]
    by_cases hall : readLen ≤ data.length
    · -- the chunk ends in the buffer
      have hdrop : (data.drop readLen).length < httpclientChunkSize := by
        rw [List.length_drop]
        omega
      obtain ⟨hfits, hiff⟩ := @bodyEnd_stalls { cd with retrieveLen := 0 }
        (out ++ data.take (min data.length readLen)) (data.drop readLen) s hs hdrop le_rfl
      rw [if_pos hall]
      refine ⟨hfits, hiff.trans (and_congr_right fun _ => ?_)⟩
      have hout : (out ++ data.take (min data.length readLen)).length = out.length + readLen := by
        rw [List.length_append, List.length_take]
        omega
      have hrest : data.drop readLen ++ s.bytes = (data ++ s.bytes).drop readLen :=
        (List.drop_append_of_le_length hall).symm
      rw [hout, hrest, List.drop_drop]
      exact ⟨fun h => ⟨by omega, h.1, h.2⟩, fun h => ⟨h.ends, h.next⟩⟩
    · rw [if_neg hall]
      have htake : data.take (min data.length readLen) = data := List.take_of_length_le (by omega)
      rw [htake]
      have hle : 1 ≤ min (min (httpclientChunkSize - 1) (cd.responseBufLen - 1 - (out ++ data).length))
          (readLen - data.length) := by
        rw [List.length_append]
        omega
      have happend := @chunkStalls_append out data readLen cd.responseBufLen s.bytes (by omega)
      obtain ⟨ret, new, s', hrecv, hbytes, hs', hnew, hret, -⟩ := httpclientRecv_spec hs hle
      rw [hrecv]
      dsimp only
      by_cases hgone : ret = .errorConn ∨ ret = .closed ∧ new = []
      · rw [HttpclientPoint.recvd_eq hgone]
        refine ⟨trivial, iff_of_false id ?_⟩
        rintro ⟨-, hstalls⟩
        -- nothing is left behind the close
        have hnil : s.bytes = [] := by
          rcases hret with ⟨rfl, -⟩ | ⟨-, hless⟩
          · rcases hgone with hgone | hgone <;> simp_all
          · exact List.length_eq_zero_iff.1 (by omega)
        have hends := (happend.1 hstalls).ends
        rw [hnil, List.drop_nil] at hends
        exact absurd hends.length_le (by decide)
      · rw [HttpclientPoint.recvd_ne hgone]
        refine ⟨(by change new.length < _; omega), and_congr_right fun _ => ?_⟩
        rw [happend, ← hbytes]
  · rw [if_neg hroom]
    refine ⟨trivial, iff_of_false id ?_⟩
    rintro ⟨-, hstalls⟩
    have hfits := hstalls.fits
    omega

theorem takenForSize_iff {n : Int} {len : Nat} : TakenForSize n len ↔ ∃ other, len = toSize .lp64
    (if n ≤ -18446744073709551616 ∨ 18446744073709551616 ≤ n then other else n) := by
  unfold TakenForSize
  split
  · constructor
    · intro hlen
      exact ⟨len, by simp only [toSize, Abi.ptr]; omega⟩
    · rintro ⟨other, rfl⟩
      simp only [toSize, Abi.ptr]
      omega
  · constructor
    · intro hlen
      exact ⟨0, hlen⟩
    · rintro ⟨-, hlen⟩
      exact hlen

/-- Where the line has its end the chunk is followed. -/
theorem SizeLineStalls.of_line {bufLen o pos : Nat} {n : Int} {B rest : List Byte} (h : SizeLineStalls bufLen o B)
    (hcrlf : strstr crlf (B.take (httpclientChunkSize - 1)).dropLast = some pos)
    (hsize : scanHex (cstr (B.take pos)) = some (n, rest)) :
    ∃ len, TakenForSize n len ∧ len ≠ 0 ∧ o + len < bufLen - 1 ∧ crlf <+: (B.drop (pos + 2)).drop len ∧
      SizeLineStalls bufLen (o + len) ((B.drop (pos + 2)).drop (len + 2)) := by
  cases h with
  | here hnone => exact absurd (hcrlf.symm.trans hnone) (Option.some_ne_none _)
  | chunk hcrlf' hsize' hlen hne hfits hend hnext =>
    obtain rfl := Option.some.inj (hcrlf.symm.trans hcrlf')
    cases hsize.symm.trans hsize'
    exact ⟨_, hlen, hne, hfits, hend, hnext⟩

/-- With the line end in the buffer the size is what the line says. -/
theorem sizeLine_stalls {pos : Nat} (hlen : data.length < httpclientChunkSize) (hchunked : cd.isChunked = true)
    (hcrlf : strstr crlf data.dropLast = some pos) :
    (httpclientTurn expired u (.chunkHeader cd out data) s).1.Fits ∧
    ((httpclientTurn expired u (.chunkHeader cd out data) s).1.Stalls
        (httpclientTurn expired u (.chunkHeader cd out data) s).2 →
      (HttpclientPoint.chunkHeader cd out data).Stalls s) ∧
    ((HttpclientPoint.chunkHeader cd out data).Stalls s → ∃ u,
      (httpclientTurn expired u (.chunkHeader cd out data) s).1.Stalls
        (httpclientTurn expired u (.chunkHeader cd out data) s).2) := by
  have hfound := @crlf_found data s pos hlen hcrlf
  have hpos := strstr_length hcrlf
  rw [List.length_dropLast, show crlf.length = 2 from rfl] at hpos
  have htake : (data ++ s.bytes).take pos = data.take pos := List.take_append_of_le_length (by omega)
  have hdrop : (data ++ s.bytes).drop (pos + 2) = data.drop (pos + 2) ++ s.bytes :=
    List.drop_append_of_le_length (by omega)
  simp only [httpclientTurn, hcrlf]
  cases hscan : scanHex (cstr (data.take pos)) with
  | none =>
    refine ⟨trivial, False.elim, fun hstalls => ?_⟩
    cases hstalls with
    | here hnone => exact absurd (hfound.symm.trans hnone) (Option.some_ne_none _)
    | chunk hcrlf' hsize =>
      obtain rfl := Option.some.inj (hfound.symm.trans hcrlf')
      rw [htake, hscan] at hsize
      cases hsize
  | some num =>
    obtain ⟨n, rest⟩ := num
    dsimp only
    refine and_assoc.1 ⟨?_, ?_⟩
    · by_cases hlast : toSize .lp64 (if n ≤ -18446744073709551616 ∨ 18446744073709551616 ≤ n then u.readLen else n) = 0
      · rw [if_pos hlast]
        exact ⟨trivial, False.elim⟩
      · rw [if_neg hlast]
        have hshort : (data.drop (pos + 2)).length < httpclientChunkSize := by
          rw [List.length_drop]
          omega
        refine ⟨hshort, ?_⟩
        rintro ⟨-, hfits, hends, hnext⟩
        rw [← hdrop] at hends hnext
        exact .chunk hfound (by rw [htake, hscan]) (takenForSize_iff.2 ⟨u.readLen, rfl⟩) hlast hfits hends hnext
    · intro hstalls
      obtain ⟨len, hsized, hne, hfits, hends, hnext⟩ := hstalls.of_line hfound (by rw [htake, hscan])
      obtain ⟨other, rfl⟩ := takenForSize_iff.1 hsized
      rw [hdrop] at hends hnext
      refine ⟨{ (default : Unspecified) with readLen := other }, ?_⟩
      rw [if_neg hne]
      exact ⟨hchunked, hfits, hends, hnext⟩

theorem httpclientContent_fits (hlen : data.length < httpclientChunkSize) (hremain : cd.remain < httpclientChunkSize) :
    (httpclientContent cd data).Fits := by
  have htake : (httpclientTakeRemain data { cd with isMore := true }).1.length < httpclientChunkSize := by
    unfold httpclientTakeRemain
    cases hext : cd.ext with
    | none => exact hlen
    | some ext =>
      dsimp only
      split
      · have hlast : cd.remain = ext.remainData.length := by
          unfold HttpclientData.remain
          rw [hext]
          rfl
        rwa [hlast] at hremain
      · exact hlen
  unfold httpclientContent httpclientNext
  dsimp only
  split
  · exact trivial
  · split
    case isTrue hchunked => exact ⟨hchunked.1, htake⟩
    case isFalse => exact htake

section
variable {cd' : HttpclientData} {data' : List Byte} {s' : Socket} {pos : Nat}

theorem HeadRead.of_none (h : HeadRead cd data s cd' data' s') (hcrlf : strstr crlf (cstr data) = none) :
    data.length < httpclientChunkSize - 1 ∧ ∃ ret new t,
      httpclientRecv 1 (httpclientChunkSize - data.length - 1) s = (ret, new, t) ∧
      ¬(ret = .errorConn ∨ ret = .closed ∧ new = []) ∧ HeadRead cd (data ++ new) t cd' data' s' := by
  cases h with
  | done hend => exact absurd (hend.symm.trans hcrlf) (Option.some_ne_none _)
  | line _ hend => exact absurd (hend.symm.trans hcrlf) (Option.some_ne_none _)
  | more _ hroom hrecv hgot h => exact ⟨hroom, _, _, _, hrecv, hgot, h⟩

theorem HeadRead.of_zero (h : HeadRead cd data s cd' data' s') (hcrlf : strstr crlf (cstr data) = some 0) :
    cd' = cd ∧ data' = data.drop 2 ∧ s' = s := by
  cases h with
  | done => exact ⟨rfl, rfl, rfl⟩
  | line _ hend hne => exact absurd (Option.some.inj (hend.symm.trans hcrlf)) hne
  | more hend => exact absurd (hcrlf.symm.trans hend) (Option.some_ne_none _)

theorem HeadRead.of_line (h : HeadRead cd data s cd' data' s') (hcrlf : strstr crlf (cstr data) = some pos)
    (hpos : pos ≠ 0) : ∃ colon u, strstr (bytes ": ") (cstr data) = some colon ∧
      HeadRead ((httpclientField cd (cstr data) colon (pos - colon - 2)).getD (cd.unspecified u))
        (data.drop (pos + 2)) s cd' data' s' := by
  cases h with
  | done hend => exact absurd (Option.some.inj (hcrlf.symm.trans hend)) hpos
  | line u hend _ hcolon h =>
    obtain rfl := Option.some.inj (hcrlf.symm.trans hend)
    exact ⟨_, u, hcolon, h⟩
  | more hend => exact absurd (hcrlf.symm.trans hend) (Option.some_ne_none _)

end

/-- A turn of the loop over the header lines reads a line, or more of it. -/
theorem headers_stalls (hs : s.NoFail) (hfits : (HttpclientPoint.headers cd data).Fits) :
    (httpclientTurn expired u (.headers cd data) s).1.Fits ∧
    ((httpclientTurn expired u (.headers cd data) s).1.Stalls (httpclientTurn expired u (.headers cd data) s).2 →
      (HttpclientPoint.headers cd data).Stalls s) ∧
    ((HttpclientPoint.headers cd data).Stalls s → ∃ u,
      (httpclientTurn expired u (.headers cd data) s).1.Stalls (httpclientTurn expired u (.headers cd data) s).2) := by
  obtain ⟨hlen, hremain⟩ := hfits
  cases hcrlf : strstr crlf (cstr data) with
  | none =>
    simp only [httpclientTurn, hcrlf]
    by_cases hroom : data.length < httpclientChunkSize - 1
    · have hle : 1 ≤ httpclientChunkSize - data.length - 1 := by omega
      obtain ⟨ret, new, t, hrecv, -, -, hnew, -⟩ := httpclientRecv_spec hs hle
      rw [if_pos hroom, hrecv]
      dsimp only
      by_cases hgot : ret = .errorConn ∨ ret = .closed ∧ new = []
      · rw [HttpclientPoint.recvd_eq hgot]
        refine ⟨trivial, False.elim, ?_⟩
        rintro ⟨cd', data', s', hread, -⟩
        obtain ⟨-, ret', new', t', hrecv', hgot', -⟩ := hread.of_none hcrlf
        cases hrecv.symm.trans hrecv'
        exact absurd hgot hgot'
      · rw [HttpclientPoint.recvd_ne hgot]
        refine ⟨⟨?_, hremain⟩, ?_, ?_⟩
        · rw [List.length_append]
          omega
        · rintro ⟨cd', data', s', hread, hstalls⟩
          exact ⟨cd', data', s', .more hcrlf hroom hrecv hgot hread, hstalls⟩
        · rintro ⟨cd', data', s', hread, hstalls⟩
          obtain ⟨-, ret', new', t', hrecv', -, hread⟩ := hread.of_none hcrlf
          cases hrecv.symm.trans hrecv'
          exact ⟨u, cd', data', s', hread, hstalls⟩
    · rw [if_neg hroom]
      refine ⟨trivial, False.elim, ?_⟩
      rintro ⟨cd', data', s', hread, -⟩
      exact absurd (hread.of_none hcrlf).1 hroom
  | some pos =>
    simp only [httpclientTurn, hcrlf]
    by_cases hpos : pos = 0
    · subst hpos
      have hshort : (data.drop 2).length < httpclientChunkSize := by
        rw [List.length_drop]
        omega
      rw [if_pos rfl]
      refine ⟨httpclientContent_fits hshort hremain, ?_, ?_⟩
      · intro hstalls
        exact ⟨cd, data.drop 2, s, .done hcrlf, httpclientContent_stalls.1 hstalls⟩
      · rintro ⟨cd', data', s', hread, hstalls⟩
        obtain ⟨rfl, rfl, rfl⟩ := hread.of_zero hcrlf
        exact ⟨u, httpclientContent_stalls.2 hstalls⟩
    · rw [if_neg hpos]
      cases hcolon : strstr (bytes ": ") (cstr data) with
      | none =>
        refine ⟨trivial, False.elim, ?_⟩
        rintro ⟨cd', data', s', hread, -⟩
        obtain ⟨colon, -, hcolon', -⟩ := hread.of_line hcrlf hpos
        exact absurd (hcolon'.symm.trans hcolon) (Option.some_ne_none _)
      | some colon =>
        dsimp only
        refine ⟨⟨?_, ?_⟩, ?_, ?_⟩
        · rw [List.length_drop]
          omega
        · rwa [(@getField_keeps cd (cstr data) u colon (pos - colon - 2)).2]
        · rintro ⟨cd', data', s', hread, hstalls⟩
          exact ⟨cd', data', s', .line u hcrlf hpos hcolon hread, hstalls⟩
        · rintro ⟨cd', data', s', hread, hstalls⟩
          obtain ⟨colon', u, hcolon', hread⟩ := hread.of_line hcrlf hpos
          obtain rfl := Option.some.inj (hcolon.symm.trans hcolon')
          refine ⟨u, ?_⟩
          rw [if_neg hpos]
          exact ⟨cd', data', s', hread, hstalls⟩

end

/-! ## Runs -/

section
variable {cd : HttpclientData} {s : Socket} {expired : Socket → Bool} {u : Unspecified}
  {p q : HttpclientPoint × Socket}

/-- What has arrived was to come. -/
theorem waits_stalls {out data new : List Byte} {s' : Socket} (hbytes : new ++ s'.bytes = s.bytes) :
    (HttpclientPoint.chunkHeader cd out (data ++ new)).Stalls s' ↔ (HttpclientPoint.chunkHeader cd out data).Stalls s := by
  unfold HttpclientPoint.Stalls
  dsimp only
  rw [List.append_assoc, hbytes]

/-- What every turn keeps. -/
structure CallFits (p : HttpclientPoint × Socket) : Prop where
  inv  : CallInv p
  fits : p.1.Fits

/-- **No turn leads to a size line without an end where the stream does not**, whatever the timer says. -/
theorem HttpclientTurn.stalls (h : HttpclientTurn expired p u q) (hp : CallFits p) :
    CallFits q ∧ (q.1.Stalls q.2 → p.1.Stalls p.2) := by
  have hinv := hp.inv.turn h
  obtain ⟨point, s⟩ := p
  obtain ⟨⟨hs, hbuf⟩, hfits⟩ := hp
  obtain ⟨hgo, rfl⟩ := h
  suffices hturn : (httpclientTurn expired u point s).1.Fits ∧
      ((httpclientTurn expired u point s).1.Stalls (httpclientTurn expired u point s).2 → point.Stalls s) from
    ⟨⟨hinv, hturn.1⟩, hturn.2⟩
  cases point with
  | headers cd data =>
    obtain ⟨hfits', hback, -⟩ := @headers_stalls cd data s expired u hs hfits
    exact ⟨hfits', hback⟩
  | chunkHeader cd out data =>
    obtain ⟨hchunked, hlen⟩ := hfits
    cases hcrlf : strstr crlf data.dropLast with
    | none =>
      obtain ⟨new, s', hturn, hbytes, -, hlen', -⟩ := @chunkHeader_waits s cd out data expired u hs hbuf hlen hcrlf
      rw [hturn]
      exact ⟨⟨hchunked, hlen'⟩, (waits_stalls hbytes).1⟩
    | some pos =>
      obtain ⟨hfits', hback, -⟩ := @sizeLine_stalls cd out data s expired u pos hlen hchunked hcrlf
      exact ⟨hfits', hback⟩
  | body cd out data readLen =>
    cases htimer : expired s with
    | true =>
      simp only [httpclientTurn, htimer, if_true]
      exact ⟨trivial, False.elim⟩
    | false =>
      obtain ⟨hfits', hiff⟩ := @body_stalls cd out data s expired u readLen hs hbuf hfits htimer
      exact ⟨hfits', hiff.1⟩
  | readToClose cd out data =>
    simp only [httpclientTurn]
    split
    · split
      · exact ⟨trivial, False.elim⟩
      · split <;> exact ⟨trivial, False.elim⟩
    · exact ⟨trivial, False.elim⟩
  | returned ret => exact absurd ⟨ret, rfl⟩ hgo

/-- Where the stream leads to one, the call goes on towards it while the timer has not expired. -/
theorem HttpclientPoint.Stalls.turn (h : p.1.Stalls p.2) (hp : CallFits p) (hstuck : ¬p.1.Stuck p.2) :
    ∃ u q, HttpclientTurn (fun _ => false) p u q ∧ q.1.Stalls q.2 := by
  obtain ⟨point, s⟩ := p
  obtain ⟨⟨hs, hbuf⟩, hfits⟩ := hp
  suffices hnext : ∃ u, (httpclientTurn (fun _ => false) u point s).1.Stalls
      (httpclientTurn (fun _ => false) u point s).2 by
    obtain ⟨u, hstalls⟩ := hnext
    refine ⟨u, _, ⟨?_, rfl⟩, hstalls⟩
    rintro ⟨ret, rfl⟩
    exact h
  cases point with
  | headers cd data => exact (@headers_stalls cd data s (fun _ => false) default hs hfits).2.2 h
  | chunkHeader cd out data =>
    obtain ⟨hchunked, hlen⟩ := hfits
    cases hcrlf : strstr crlf data.dropLast with
    | none =>
      obtain ⟨new, s', hturn, hbytes, -⟩ :=
        @chunkHeader_waits s cd out data (fun _ => false) default hs hbuf hlen hcrlf
      refine ⟨default, ?_⟩
      rw [hturn]
      exact (waits_stalls hbytes).2 h
    | some pos => exact (@sizeLine_stalls cd out data s (fun _ => false) default pos hlen hchunked hcrlf).2.2 h
  | body cd out data readLen =>
    exact ⟨default, (@body_stalls cd out data s (fun _ => false) default readLen hs hbuf hfits rfl).2.2 h⟩
  | readToClose cd out data => exact h.elim
  | returned ret => exact h.elim

/-- A turn that waits for a line end that does not come has such a stream before it. -/
theorem stalls_of_stuck (hstuck : p.1.Stuck p.2) : p.1.Stalls p.2 := by
  obtain ⟨point, s⟩ := p
  cases point with
  | chunkHeader cd out data => exact .here hstuck.2
  | headers | body | readToClose | returned => exact hstuck.elim

/-- **Where the stream leads to a size line without an end, the call comes to it**, if the timer does not expire.
Induction on the input that is left. -/
theorem stalls_reach (hp : CallFits p) (h : p.1.Stalls p.2) :
    ∃ q, Reach (HttpclientTurn fun _ => false) p q ∧ q.1.Stuck q.2 := by
  induction hn : p.1.input p.2 using Nat.strong_induction_on generalizing p with
  | _ n ih =>
    by_cases hstuck : p.1.Stuck p.2
    · exact ⟨p, Reach.refl p, hstuck⟩
    · obtain ⟨u, q, hturn, hstalls⟩ := h.turn hp hstuck
      have hless := (hturn.over hp.inv hstuck).less
      obtain ⟨r, hreach, hr⟩ := ih _ (hn ▸ hless) (hturn.stalls hp).1 hstalls rfl
      exact ⟨r, ((Reach.refl p).tail hturn).trans hreach, hr⟩

theorem headStart_remain : cd.headStart.remain = cd.remain := by
  unfold HttpclientData.remain HttpclientData.headStart
  cases cd.ext <;> rfl

theorem callFits_call (hs : s.NoFail) (hbuf : httpclientChunkSize ≤ cd.responseBufLen)
    (hremain : cd.remain < httpclientChunkSize) : CallFits (httpclientCall cd s) := by
  refine ⟨callInv_call hs hbuf, ?_⟩
  have hchunk : httpclientChunkSize = 2048 := rfl
  unfold httpclientCall
  split
  · exact httpclientContent_fits (by simp [hchunk]) hremain
  · obtain ⟨ret, data, s', hrecv, -, -, hlen, -⟩ := httpclientRecv_spec hs (by decide : 1 ≤ httpclientChunkSize - 1)
    rw [hrecv]
    dsimp only
    split
    · exact trivial
    split
    · split
      · exact trivial
      split
      · exact trivial
      · refine ⟨?_, ?_⟩
        · rw [List.length_drop]
          omega
        · rwa [headStart_remain]
    · exact trivial

/-- The bytes of the call lead to one where the call does. -/
theorem call_stalls : (httpclientCall cd s).1.Stalls (httpclientCall cd s).2 ↔ cd.CallStalls s := by
  unfold httpclientCall HttpclientData.CallStalls
  by_cases hmore : cd.isMore = true
  · rw [if_pos hmore, if_pos hmore]
    refine httpclientContent_stalls.trans ?_
    unfold HttpclientData.BodyStalls httpclientTakeRemain
    cases cd.ext with
    | none => exact Iff.rfl
    | some ext =>
      dsimp only
      split <;> exact Iff.rfl
  · rw [if_neg hmore, if_neg hmore]
    obtain ⟨ret, data, t, hrecv⟩ : ∃ ret data t, httpclientRecv 1 (httpclientChunkSize - 1) s = (ret, data, t) :=
      ⟨_, _, _, rfl⟩
    rw [hrecv]
    dsimp only
    -- a head that is read starts with these bytes
    have hfirst : ∀ cd' data' s', HeadOf cd s cd' data' s' → (ret = .ok ∨ ret = .closed) ∧ ∃ pos code,
        strstr crlf (cstr data) = some pos ∧ httpclientStatusLine (data.take pos) = some code ∧
          HeadRead cd.headStart (data.drop (pos + 2)) t cd' data' s' := by
      rintro cd' data' s' ⟨ret', data₁, t', pos, code, hrecv', hret, hcrlf, hstatus, hread⟩
      cases hrecv.symm.trans hrecv'
      exact ⟨hret, pos, code, hcrlf, hstatus, hread⟩
    by_cases hret : ret ≠ .ok ∧ ret ≠ .closed
    · rw [if_pos hret]
      refine iff_of_false id ?_
      rintro ⟨cd', data', s', hhead, -⟩
      exact (hfirst cd' data' s' hhead).1.elim hret.1 hret.2
    · rw [if_neg hret]
      have hgot : ret = .ok ∨ ret = .closed := by
        by_cases hok : ret = .ok
        · exact .inl hok
        · exact .inr (not_not.1 fun hclosed => hret ⟨hok, hclosed⟩)
      by_cases hdata : data ≠ []
      · rw [if_pos hdata]
        cases hcrlf : strstr crlf (cstr data) with
        | none =>
          refine iff_of_false id ?_
          rintro ⟨cd', data', s', hhead, -⟩
          obtain ⟨-, pos, code, hcrlf', -⟩ := hfirst cd' data' s' hhead
          exact absurd (hcrlf'.symm.trans hcrlf) (Option.some_ne_none _)
        | some pos =>
          dsimp only
          cases hstatus : httpclientStatusLine (data.take pos) with
          | none =>
            refine iff_of_false id ?_
            rintro ⟨cd', data', s', hhead, -⟩
            obtain ⟨-, pos', code, hcrlf', hstatus', -⟩ := hfirst cd' data' s' hhead
            obtain rfl := Option.some.inj (hcrlf.symm.trans hcrlf')
            exact absurd (hstatus'.symm.trans hstatus) (Option.some_ne_none _)
          | some code =>
            constructor
            · rintro ⟨cd', data', s', hread, hstalls⟩
              exact ⟨cd', data', s', ⟨ret, data, t, pos, code, hrecv, hgot, hcrlf, hstatus, hread⟩, hstalls⟩
            · rintro ⟨cd', data', s', hhead, hstalls⟩
              obtain ⟨-, pos', code', hcrlf', -, hread⟩ := hfirst cd' data' s' hhead
              obtain rfl := Option.some.inj (hcrlf.symm.trans hcrlf')
              exact ⟨cd', data', s', hread, hstalls⟩
      · rw [if_neg hdata]
        refine iff_of_false id ?_
        rintro ⟨cd', data', s', hhead, -⟩
        obtain ⟨-, pos, code, hcrlf, -⟩ := hfirst cd' data' s' hhead
        rw [not_not.1 hdata] at hcrlf
        cases hcrlf

end

/-! ## What a call leaves over

A part of its last receive, so less than a buffer. -/

section
variable {cd cd' : HttpclientData} {out data : List Byte} {s s' : Socket} {expired : Socket → Bool}
  {fuel minLen maxLen readLen bufLen : Nat} {code : Int} {res : HttpclientResult × HttpclientData × Socket}

/-- What has arrived and what was left over each fit into the receive buffer. -/
structure Short (cd : HttpclientData) (data : List Byte) : Prop where
  data   : data.length < httpclientChunkSize
  remain : cd.remain < httpclientChunkSize

theorem Short.keep (h : Short cd data) (hext : cd'.ext = cd.ext) : cd'.remain < httpclientChunkSize := by
  unfold HttpclientData.remain
  rw [hext]
  exact h.remain

theorem Short.drop (h : Short cd data) (n : Nat) : Short cd (data.drop n) := by
  refine ⟨?_, h.remain⟩
  rw [List.length_drop]
  exact (Nat.sub_le _ _).trans_lt h.data

theorem Short.append (h : Short cd data) (hle : minLen ≤ maxLen) (hmax : maxLen ≤ httpclientChunkSize - data.length - 1) :
    Short cd (data ++ (httpclientRecv minLen maxLen s).2.1) := by
  have hdata := h.data
  have hnew := @httpclientRecv_length minLen maxLen s hle
  refine ⟨?_, h.remain⟩
  rw [List.length_append]
  omega

theorem chunkHeader_short {line data' : List Byte} (h : Short cd data)
    (hrun : httpclientChunkHeader bufLen fuel data s = some (.found line data' s')) : Short cd data' := by
  induction fuel generalizing data s with
  | zero => cases hrun
  | succ fuel ih =>
    unfold httpclientChunkHeader at hrun
    split at hrun
    · cases hrun
      exact h.drop _
    · split at hrun
      · dsimp only at hrun
        split at hrun
        · cases hrun
        · split at hrun
          · cases hrun
          · refine ih (h.append (Nat.zero_le _) ?_) hrun
            omega
      · cases hrun

/-- The record that a call returns has less than a buffer left over. -/
def LeavesShort (res : HttpclientResult × HttpclientData × Socket) : Prop := res.2.1.remain < httpclientChunkSize

theorem httpclientFinish_leaves : LeavesShort (httpclientFinish cd out s) := by
  unfold LeavesShort HttpclientData.remain httpclientFinish
  cases cd.ext with
  | none => exact Nat.zero_lt_succ _
  | some ext => exact Nat.zero_lt_succ _

def ReadLen.Short : ReadLen → Prop
  | .read cd data _ _ => AudioPlayer.Short cd data
  | .ret res => LeavesShort res

theorem readLen_short {next : ReadLen} (h : Short cd data) (hrun : httpclientReadLen cd out data s = some next) :
    next.Short := by
  unfold httpclientReadLen at hrun
  split at hrun
  · obtain ⟨header, hheader, hrun⟩ := Option.bind_eq_some_iff.1 hrun
    cases header with
    | ret ret s =>
      cases hrun
      exact h.remain
    | found line data' s' =>
      dsimp only at hrun
      split at hrun
      · cases hrun
        exact h.remain
      · split at hrun
        · cases hrun
        · obtain ⟨responseContentLen, -, hrun⟩ := Option.bind_eq_some_iff.1 hrun
          split at hrun
          · cases hrun
            exact httpclientFinish_leaves
          · cases hrun
            exact ⟨(chunkHeader_short h hheader).data, h.keep rfl⟩
  · cases hrun
    exact h

def RetrieveBody.Short : RetrieveBody → Prop
  | .done cd _ data _ => AudioPlayer.Short cd data
  | .ret res => LeavesShort res

/-- What does not fit into the response buffer is left over. -/
theorem body_short {done : RetrieveBody} (h : Short cd data)
    (hrun : httpclientRetrieveBody expired fuel cd out data readLen s = some done) : done.Short := by
  have hchunk : httpclientChunkSize = 2048 := rfl
  induction fuel generalizing cd out data readLen s with
  | zero => cases hrun
  | succ fuel ih =>
    unfold httpclientRetrieveBody at hrun
    split at hrun
    · cases hrun
      exact h.remain
    dsimp only at hrun
    split at hrun
    case isTrue hroom =>
      obtain ⟨retrieveLen, -, hrun⟩ := Option.bind_eq_some_iff.1 hrun
      split at hrun
      · cases hrun
        exact ⟨(h.drop _).data, h.remain⟩
      case isFalse hall =>
        split at hrun
        · cases hrun
          exact h.remain
        · have htake : data.take (min data.length readLen) = data := List.take_of_length_le (by omega)
          rw [htake] at hrun
          have hle : 1 ≤ min (min (httpclientChunkSize - 1) (cd.responseBufLen - 1 - (out ++ data).length))
              (readLen - data.length) := by
            rw [List.length_append]
            omega
          have hnew := @httpclientRecv_length _ _ s hle
          refine @ih { cd with retrieveLen } _ _ _ _ ⟨lt_of_le_of_lt hnew ?_, h.remain⟩ hrun
          omega
    case isFalse hroom =>
      obtain ⟨retrieveLen, -, hrun⟩ := Option.bind_eq_some_iff.1 hrun
      cases hrun
      have hremain := h.remain
      unfold HttpclientData.remain at hremain
      change LeavesShort _
      unfold LeavesShort HttpclientData.remain
      cases hext : cd.ext with
      | none => exact Nat.zero_lt_succ _
      | some ext =>
        rw [hext] at hremain
        dsimp only [Option.map_some, Option.getD_some] at hremain ⊢
        split
        · exact (h.drop _).data
        · exact hremain

theorem chunkEnd_short {data' : List Byte} (h : Short cd data)
    (hrun : httpclientChunkEnd bufLen out data s = .found data' s') : Short cd data' := by
  unfold httpclientChunkEnd at hrun
  dsimp only at hrun
  split at hrun
  case isTrue hfew =>
    split at hrun
    · cases hrun
    · split at hrun
      · cases hrun
        refine (h.append ?_ (min_le_right _ _)).drop 2
        have hchunk : httpclientChunkSize = 2048 := rfl
        omega
      · cases hrun
  case isFalse =>
    split at hrun
    · cases hrun
      exact h.drop 2
    · cases hrun

theorem retrieveLoop_leaves (h : Short cd data) (hrun : httpclientRetrieveLoop expired fuel cd out data s = some res) :
    LeavesShort res := by
  induction fuel generalizing cd out data s with
  | zero => cases hrun
  | succ fuel ih =>
    unfold httpclientRetrieveLoop at hrun
    obtain ⟨next, hnext, hrun⟩ := Option.bind_eq_some_iff.1 hrun
    have hnext := readLen_short h hnext
    cases next with
    | ret res' =>
      cases hrun
      exact hnext
    | read cd data readLen s =>
      obtain ⟨done, hdone, hrun⟩ := Option.bind_eq_some_iff.1 hrun
      have hdone := body_short hnext hdone
      cases done with
      | ret res' =>
        cases hrun
        exact hdone
      | done cd out data s =>
        dsimp only at hrun
        split at hrun
        · cases hend : httpclientChunkEnd cd.responseBufLen out data s with
          | ret ret s' =>
            rw [hend] at hrun
            cases hrun
            exact hdone.remain
          | found data' s' =>
            rw [hend] at hrun
            exact ih (chunkEnd_short hdone hend) hrun
        · cases hrun
          exact httpclientFinish_leaves

theorem readToClose_leaves (h : cd.remain < httpclientChunkSize)
    (hrun : httpclientReadToClose fuel cd out data s = some res) : LeavesShort res := by
  induction fuel generalizing out data s with
  | zero => cases hrun
  | succ fuel ih =>
    unfold httpclientReadToClose at hrun
    split at hrun
    · dsimp only at hrun
      split at hrun
      · cases hrun
        exact h
      · split at hrun
        · cases hrun
          exact h
        · exact ih hrun
    · cases hrun
      exact h

theorem takeRemain_short (h : Short cd data) :
    Short (httpclientTakeRemain data cd).2 (httpclientTakeRemain data cd).1 := by
  have hremain := h.remain
  unfold HttpclientData.remain at hremain
  unfold httpclientTakeRemain
  cases hext : cd.ext with
  | none => exact h
  | some ext =>
    rw [hext] at hremain
    dsimp only
    split
    · exact ⟨hremain, Nat.zero_lt_succ _⟩
    · exact h

theorem content_leaves (h : Short cd data) (hrun : httpclientRetrieveContent expired data cd s = some res) :
    LeavesShort res := by
  unfold httpclientRetrieveContent at hrun
  split at hrun
  · cases hrun
  have htake := @takeRemain_short { cd with isMore := true } data ⟨h.data, h.remain⟩
  dsimp only at hrun
  split at hrun
  · exact readToClose_leaves htake.remain hrun
  · exact retrieveLoop_leaves htake hrun

def ParsedHead.Short : ParsedHead → Prop
  | .done _ cd data _ => AudioPlayer.Short cd data
  | .ret _ _ cd _ => cd.remain < httpclientChunkSize

theorem headers_short {parsed : ParsedHead} (h : Short cd data)
    (hrun : httpclientHeaders code fuel cd data s = some parsed) : parsed.Short := by
  induction fuel generalizing cd data s with
  | zero => cases hrun
  | succ fuel ih =>
    unfold httpclientHeaders at hrun
    split at hrun
    · split at hrun
      case isTrue hroom =>
        dsimp only at hrun
        split at hrun
        · cases hrun
          exact h.remain
        · exact ih (h.append (by omega) le_rfl) hrun
      case isFalse =>
        cases hrun
        exact h.remain
    · split at hrun
      · cases hrun
        exact h.drop 2
      · split at hrun
        · cases hrun
          exact h.remain
        · obtain ⟨cd', hfield, hrun⟩ := Option.bind_eq_some_iff.1 hrun
          refine ih ⟨(h.drop _).data, ?_⟩ hrun
          rw [(httpclientField_keeps hfield).2]
          exact h.remain

theorem parseHead_short {parsed : ParsedHead} (h : Short cd data)
    (hrun : httpclientParseHead code data cd s = some parsed) : parsed.Short := by
  have hstart : cd.headStart.remain < httpclientChunkSize := by
    rw [headStart_remain]
    exact h.remain
  unfold httpclientParseHead at hrun
  dsimp only at hrun
  split at hrun
  · cases hrun
    exact hstart
  · split at hrun
    · cases hrun
      exact hstart
    · obtain ⟨code', -, hrun⟩ := Option.bind_eq_some_iff.1 hrun
      exact @headers_short cd.headStart _ _ _ _ _ ⟨(h.drop _).data, hstart⟩ hrun

/-- **A call leaves less than a buffer over**, if the last one did. -/
theorem httpclientRecvResponse_remain {ret : HttpclientResult} {code' : Int} {left : Option Socket}
    (h : cd.remain < httpclientChunkSize)
    (hrun : httpclientRecvResponse expired code cd (some s) = some (ret, code', cd', left)) :
    cd'.remain < httpclientChunkSize := by
  unfold httpclientRecvResponse at hrun
  dsimp only at hrun
  split at hrun
  · obtain ⟨⟨ret', cd₁, s₁⟩, hcontent, hrun⟩ := Option.bind_eq_some_iff.1 hrun
    cases hrun
    exact @content_leaves { cd with responseBuf := cd.responseBuf.set 0 0 } [] s expired _ ⟨by decide, h⟩ hcontent
  · split at hrun
    · cases hrun
      exact h
    · split at hrun
      case isTrue hdata =>
        obtain ⟨⟨ret', code₁, cd₁, s₁⟩, hparse, hrun⟩ := Option.bind_eq_some_iff.1 hrun
        cases hrun
        obtain ⟨parsed, hhead, hparse⟩ := Option.bind_eq_some_iff.1 hparse
        have hfirst := @httpclientRecv_length 1 (httpclientChunkSize - 1) s (by decide)
        have hparsed : parsed.Short := parseHead_short ⟨hfirst.trans_lt (by decide), h⟩ hhead
        cases parsed with
        | ret ret' code' cd' s' =>
          cases hparse
          exact hparsed
        | done code' cd' data' s' =>
          obtain ⟨⟨ret', cd₂, s₂⟩, hcontent, hparse⟩ := Option.bind_eq_some_iff.1 hparse
          cases hparse
          exact content_leaves hparsed hcontent
      case isFalse =>
        cases hrun
        exact h

end

/-! ## A call -/

/-- **A call returns, however its bytes arrive and whatever the timer says, exactly where its stream does not lead to
a size line whose end does not come**: a chunk header that is cut off by the close, or one that does not fit. -/
theorem httpclientRecvResponse_ends {cd : HttpclientData} {s : Socket} (hs : s.NoFail)
    (hbuf : httpclientChunkSize ≤ cd.responseBufLen) (hremain : cd.remain < httpclientChunkSize) :
    (∀ expired, Halts (HttpclientTurn expired) HttpclientReturned (httpclientCall cd s)) ↔ ¬ cd.CallStalls s := by
  have hfits := callFits_call hs hbuf hremain
  rw [← call_stalls]
  constructor
  · intro hends hstalls
    obtain ⟨⟨p, t⟩, hreach, hstuck⟩ := stalls_reach hfits hstalls
    exact (httpclientCall_halts_iff hs hbuf).1 (hends fun _ => false) p t hreach hstuck
  · intro hfree expired
    refine (httpclientCall_halts_iff hs hbuf).2 fun p t hreach hstuck => ?_
    have hkeeps : CallFits (p, t) ∧ ¬ p.Stalls t :=
      hreach.invariant (I := fun q => CallFits q ∧ ¬ q.1.Stalls q.2)
        (fun _ _ _ h hturn => ⟨(hturn.stalls h.1).1, fun hq => h.2 ((hturn.stalls h.1).2 hq)⟩) ⟨hfits, hfree⟩
    exact hkeeps.2 (stalls_of_stuck (p := (p, t)) hstuck)

/-- A chunked answer of one byte that arrives at once. -/
def oneChunk : Socket :=
  Socket.push (bytes "HTTP/1.1 200 OK\r\nTransfer-Encoding: chunked\r\n\r\n1\r\nA\r\n0\r\n\r\n") []

/-- The chunk and the last one have their line ends. -/
theorem oneChunk_lineEnds : ¬ freshData.CallStalls oneChunk := by
  rintro ⟨cd', data', s', ⟨ret, data, t, pos, code, hrecv, -, hcrlf, -, hread⟩, hstalls⟩
  have hfirst : httpclientRecv 1 (httpclientChunkSize - 1) oneChunk = (.ok, oneChunk.bytes, []) := by decide +kernel
  cases hfirst.symm.trans hrecv
  obtain rfl : 15 = pos := Option.some.inj (Eq.trans (by decide +kernel) hcrlf)
  -- the one line of the head
  have hline : strstr crlf (cstr (oneChunk.bytes.drop 17)) = some 26 := by decide +kernel
  obtain ⟨colon, u, hcolon, hread⟩ := hread.of_line hline (by decide)
  obtain rfl : 17 = colon := Option.some.inj (Eq.trans (by decide +kernel) hcolon)
  have hfield : httpclientField freshData.headStart (cstr (oneChunk.bytes.drop 17)) 17 7 =
      some { freshData.headStart with isChunked := true, responseContentLen := 0 } := by decide +kernel
  obtain ⟨rfl, rfl, rfl⟩ := hread.of_zero (by decide +kernel)
  have hbody : SizeLineStalls 2049 0 (bytes "1\r\nA\r\n0\r\n\r\n") := by
    change HttpclientData.BodyStalls (Option.getD (httpclientField freshData.headStart
      (cstr (oneChunk.bytes.drop 17)) 17 7) _) _ _ at hstalls
    rw [hfield] at hstalls
    exact hstalls.2
  -- its chunk
  have hcrlf : strstr crlf ((bytes "1\r\nA\r\n0\r\n\r\n").take (httpclientChunkSize - 1)).dropLast = some 1 := by
    decide +kernel
  have hsize : scanHex (cstr ((bytes "1\r\nA\r\n0\r\n\r\n").take 1)) = some (1, []) := by decide +kernel
  obtain ⟨len, hlen, -, -, -, hlast⟩ := hbody.of_line hcrlf hsize
  obtain rfl : len = 1 := hlen
  -- the last one
  have hcrlf : strstr crlf ((bytes "0\r\n\r\n").take (httpclientChunkSize - 1)).dropLast = some 1 := by decide +kernel
  have hsize : scanHex (cstr ((bytes "0\r\n\r\n").take 1)) = some (0, []) := by decide +kernel
  obtain ⟨len, hlen, hne, -⟩ := hlast.of_line hcrlf hsize
  exact hne hlen

theorem httpclientRecvResponse_ends_chunked : ¬ freshData.CallStalls oneChunk ∧ ∀ expired,
    Halts (HttpclientTurn expired) HttpclientReturned (httpclientCall freshData oneChunk) :=
  ⟨oneChunk_lineEnds, (httpclientRecvResponse_ends (by simp [oneChunk, Socket.NoFail, Socket.push, bytes]) (by decide)
    (by decide)).2 oneChunk_lineEnds⟩

/-- A chunked answer that is cut off behind its head. -/
def cutOff : Socket := Socket.push (bytes "HTTP/1.1 200 OK\r\nTransfer-Encoding: chunked\r\n\r\n") []

/-- What its head says. -/
def cutOffData : HttpclientData :=
  { freshData.headStart with isChunked := true, responseContentLen := 0, retrieveLen := 0 }

/-- The loop over the first size line never ends. -/
theorem httpclientRecvResponse_hangs :
    cutOff.NoFail ∧ ¬Halts (HttpclientTurn fun _ => false) HttpclientReturned (httpclientCall freshData cutOff) := by
  have hcut : cutOff.NoFail := by simp [cutOff, Socket.NoFail, Socket.push, bytes]
  have hcall : httpclientCall freshData cutOff =
      (.headers freshData.headStart (bytes "Transfer-Encoding: chunked\r\n\r\n"), []) := by decide +kernel
  have hline : httpclientTurn (fun _ => false) default (.headers freshData.headStart
      (bytes "Transfer-Encoding: chunked\r\n\r\n")) [] = (.headers cutOffData crlf, []) := by decide +kernel
  have hend : httpclientTurn (fun _ => false) default (.headers cutOffData crlf) [] =
      (.chunkHeader { cutOffData with isMore := true } [] [], []) := by decide +kernel
  have hinv := callInv_call hcut (by decide : httpclientChunkSize ≤ freshData.responseBufLen)
  rw [hcall] at hinv ⊢
  have hgo₁ := @reach_turn [] (fun _ => false) (.headers freshData.headStart
    (bytes "Transfer-Encoding: chunked\r\n\r\n")) (fun _ => HttpclientPoint.noConfusion)
  have hgo₂ := @reach_turn [] (fun _ => false) (.headers cutOffData crlf) (fun _ => HttpclientPoint.noConfusion)
  rw [hline] at hgo₁
  rw [hend] at hgo₂
  have hreach := hgo₁.trans hgo₂
  refine ⟨hcut, ?_⟩
  intro hends
  refine callTrap.not_halts ⟨?_, ?_⟩ (hends.reach not_turn_returned hreach)
  · exact hreach.invariant (fun _ _ _ hp h => hp.turn h) hinv
  · exact ⟨by decide, rfl⟩

end AudioPlayer

import Mathlib
import AudioPlayer.Httpclient.Retrieve

/-!
# Framed bodies and how they are retrieved

A chunked body is a list of `Chunk`s and a `LastChunk`; `encodeChunks` is what the server sends.
`retrieveLoop_spec` describes one call in the middle of such a body, for every way the bytes may arrive:
the body ends (`CallOutcome.done`), or the block fills up inside a chunk and the next call goes on there
(`more`), or it fills up exactly where a chunk ends (`aligned`), and then the next call takes the line end
for a size line.
-/

namespace AudioPlayer
open Lib

/-- A chunk of at least one byte; its size may be spelled in any way that fits the receive buffer. -/
structure Chunk where
  size      : List Byte
  data      : List Byte
  size_ne   : size ≠ []
  size_hex  : ∀ b ∈ size, isHexDigit b
  size_val  : hexVal size = data.length
  size_fits : size.length ≤ 2044
  data_ne   : data ≠ []

/-- The chunk of size zero and what follows it: trailer fields, if any, and an empty line. -/
structure LastChunk where
  size       : List Byte
  trailer    : List Byte
  size_ne    : size ≠ []
  size_hex   : ∀ b ∈ size, isHexDigit b
  size_val   : hexVal size = 0
  size_fits  : size.length ≤ 2044
  trailer_ne : trailer ≠ []

def Chunk.encode (c : Chunk) : List Byte := c.size ++ crlf ++ (c.data ++ crlf)

def LastChunk.encode (l : LastChunk) : List Byte := l.size ++ crlf ++ l.trailer

def encodeChunks (cs : List Chunk) (last : LastChunk) : List Byte := cs.flatMap Chunk.encode ++ last.encode

def chunksData (cs : List Chunk) : List Byte := cs.flatMap Chunk.data

def chunkSizes (cs : List Chunk) : List Nat := cs.map fun c => c.data.length

/-- No piece of one of these sizes, laid out from `off`, ends at a multiple of the block size. -/
def Unaligned (off : Nat) : List Nat → Prop
  | [] => True
  | n :: ns => ¬ 2048 ∣ off + n ∧ Unaligned (off + n) ns

instance (off : Nat) (ns : List Nat) : Decidable (Unaligned off ns) := by
  induction ns generalizing off with
  | nil => exact .isTrue trivial
  | cons n ns ih => exact @instDecidableAnd _ _ _ (ih _)

theorem unaligned_block (off : Nat) (ns : List Nat) : Unaligned (2048 + off) ns ↔ Unaligned off ns := by
  induction ns generalizing off with
  | nil => rfl
  | cons n ns ih => rw [Unaligned, Unaligned, Nat.add_assoc, ih, Nat.dvd_add_right (Nat.dvd_refl 2048)]

/-! ## The loops of one call -/

section
variable {data rest line d out : List Byte} {s : Socket} {fuel readLen : Nat} {cd : HttpclientData}

theorem hex_no_cr {size : List Byte} (h : ∀ b ∈ size, isHexDigit b) : (13 : Byte) ∉ size :=
  fun hm => absurd (h _ hm) (by decide)

theorem hex_no_nul {size : List Byte} (h : ∀ b ∈ size, isHexDigit b) : (0 : Byte) ∉ size :=
  fun hm => absurd (h _ hm) (by decide)

/-- The size line is found as soon as it and one more byte are there. -/
theorem strstr_dropLast {new : List Byte} {x : Byte} (hl : (13 : Byte) ∉ line)
    (h : data ++ new = line ++ crlf ++ x :: rest) :
    (line.length + 3 ≤ data.length ∧ strstr crlf data.dropLast = some line.length ∧ data.take line.length = line ∧
      data.drop (line.length + 2) ++ new = x :: rest) ∨
    (data.length ≤ line.length + 2 ∧ strstr crlf data.dropLast = none) := by
  have hdata : data <+: line ++ crlf ++ x :: rest := h ▸ List.prefix_append _ _
  by_cases hlen : line.length + 3 ≤ data.length
  · left
    obtain ⟨t, rfl⟩ : line ++ crlf <+: data :=
      List.prefix_of_prefix_length_le (List.prefix_append _ _) hdata (by simp [crlf]; omega)
    have ht : t ≠ [] := by rintro rfl; simp [crlf] at hlen
    refine ⟨hlen, ?_, by simp, ?_⟩
    · rw [List.dropLast_append_of_ne_nil ht]
      exact strstr_crlf hl
    · have hd : (line ++ crlf ++ t).drop (line.length + 2) = t := by
        rw [show line.length + 2 = (line ++ crlf).length by simp [crlf], List.drop_left]
      rw [hd]
      rw [List.append_assoc] at h
      exact List.append_cancel_left h
  · right
    have hline : line ++ [13] <+: line ++ crlf ++ x :: rest := ⟨[10] ++ x :: rest, by simp [crlf]⟩
    have hdrop := List.dropLast_prefix data
    exact ⟨by omega, strstr_crlf_none hl
      (List.prefix_of_prefix_length_le (hdrop.trans hdata) hline (by simp; omega))⟩

/-- **The size line is read**, however it arrives. Induction on the turns: each one uses up a pause or
moves bytes. -/
theorem httpclientChunkHeader_spec {x : Byte} (hl : (13 : Byte) ∉ line) (hfits : line.length ≤ 2044)
    (hs : s.NoFail) (hfuel : s.weight < fuel) (hlen : data.length ≤ 2047)
    (h : data ++ s.bytes = line ++ crlf ++ x :: rest) :
    ∃ data' s', httpclientChunkHeader 2049 fuel data s = some (.found line data' s') ∧
      data' ++ s'.bytes = x :: rest ∧ s'.NoFail ∧ data'.length ≤ 2047 ∧ load data' s' < load data s ∧
      (s.Slow → data.length ≤ line.length + 3 → s'.Slow ∧ data'.length ≤ 1) := by
  induction fuel generalizing data s with
  | zero => omega
  | succ fuel ih =>
    rcases strstr_dropLast hl h with ⟨h1, h2, h3, h4⟩ | ⟨h1, h2⟩
    · refine ⟨data.drop (line.length + 2), s, by simp only [httpclientChunkHeader, h2, h3], h4, hs, by simp; omega,
        by simp [load]; omega, fun hslow hd => ⟨hslow, by simp; omega⟩⟩
    · have hne : s ≠ [] := by
        rintro rfl
        have := congrArg List.length h
        simp [crlf] at this; omega
      obtain ⟨new, s₁, g1, g2, g3, -, g4, g5, g6, g7⟩ :=
        @httpclientRecv_ok 0 (2048 - data.length - 1) s hs (Nat.zero_le _) (Nat.zero_le _)
      have hw := g6 rfl (by omega) hne
      obtain ⟨data', s', k1, k2, k3, k4, k5, k6⟩ :=
        @ih (data ++ new) s₁ g3 (by omega) (by simp; omega) (by rw [List.append_assoc, g2, h])
      refine ⟨data', s', ?_, k2, k3, k4, by simp [load] at k5 g5 ⊢; omega, fun hslow hd => ?_⟩
      · have h3 : data.length < 2048 := by omega
        have h4 : ¬ 2048 < data.length + 1 := by omega
        have h5 : min 2049 2048 = 2048 := rfl
        simpa only [httpclientChunkHeader, h2, httpclientChunkSize, h3, h4, h5, g1, if_true, if_false,
          reduceCtorEq, false_and, or_self] using k1
      · obtain ⟨g8, g9⟩ := g7 hslow
        exact k6 g8 (by simp at g9 ⊢; omega)

/-- One turn of the loop that fills the response buffer, where there is room. -/
theorem httpclientRetrieveBody_room {r : Int}
    (hroom : out.length + min data.length readLen < cd.responseBufLen - 1)
    (hr : int32? (cd.retrieveLen - (min data.length readLen : Nat)) = some r) :
    httpclientRetrieveBody (fun _ => false) (fuel + 1) cd out data readLen s =
      if readLen ≤ data.length then
        some (.done { cd with retrieveLen := 0 } (out ++ data.take (min data.length readLen))
          (data.drop readLen) s)
      else
        let out := out ++ data.take (min data.length readLen)
        let readLen := readLen - data.length
        let (ret, data, s) := httpclientRecv 1
          (min (min (httpclientChunkSize - 1) (cd.responseBufLen - 1 - out.length)) readLen) s
        if ret = .errorConn ∨ ret = .closed ∧ data = [] then
          some (.ret (ret, { cd with retrieveLen := r, responseBuf := out }, s))
        else httpclientRetrieveBody (fun _ => false) fuel { cd with retrieveLen := r } out data readLen s := by
  rw [httpclientRetrieveBody, if_neg Bool.false_ne_true]
  simp only [hroom, if_true, hr, Option.bind_eq_bind, Option.bind_some]

/-- One turn where there is none. -/
theorem httpclientRetrieveBody_full {r : Int} {ext : HttpclientDataExt}
    (hroom : ¬ out.length + min data.length readLen < cd.responseBufLen - 1) (hext : cd.ext = some ext)
    (hr : int32? (cd.retrieveLen - (cd.responseBufLen - 1 - out.length : Nat)) = some r) :
    httpclientRetrieveBody (fun _ => false) (fuel + 1) cd out data readLen s =
      some (.ret (.retrieveMoreData,
        { cd with retrieveLen := r, contentBlockLen := cd.responseBufLen - 1,
                  responseBuf := out ++ data.take (cd.responseBufLen - 1 - out.length),
                  ext := some (if cd.responseBufLen - 1 - out.length < data.length then
                    { ext with remainData := data.drop (cd.responseBufLen - 1 - out.length) } else ext) }, s)) := by
  rw [httpclientRetrieveBody, if_neg Bool.false_ne_true]
  simp only [hroom, if_false, hr, Option.bind_eq_bind, Option.bind_some, hext, Option.map_some]

/-- The state after a block is filled up from `d`, with `r` read too far. -/
def HttpclientData.filled (cd : HttpclientData) (ext : HttpclientDataExt) (out d r : List Byte) : HttpclientData :=
  { cd with
    retrieveLen := (d.length - (2048 - out.length) : Nat)
    contentBlockLen := 2048
    responseBuf := out ++ d.take (2048 - out.length)
    ext := some { ext with remainData := r } }

/-- The loop that fills the response buffer, when `d` is what is left of the chunk or content: all of `d`
goes in, or as much as there is room for. -/
theorem httpclientRetrieveBody_spec {ext : HttpclientDataExt} (hs : s.NoFail) (hfuel : s.weight < fuel)
    (hlen : data.length ≤ 2047) (hbuf : cd.responseBufLen = 2049) (hext : cd.ext = some ext)
    (hrem : ext.remainData = []) (hret : cd.retrieveLen = d.length) (hd : d.length < 2147483648)
    (hout : out.length < 2048) (h : data ++ s.bytes = d ++ rest) :
    (out.length + d.length < 2048 ∧
      ∃ data' s', httpclientRetrieveBody (fun _ => false) fuel cd out data d.length s =
          some (.done { cd with retrieveLen := 0 } (out ++ d) data' s') ∧
        data' ++ s'.bytes = rest ∧ s'.NoFail ∧ data'.length ≤ 2047 ∧ load data' s' ≤ load data s ∧
        (s.Slow → data.length ≤ 1 → d ≠ [] → s'.Slow ∧ data' = [])) ∨
    (2048 ≤ out.length + d.length ∧
      ∃ r s', httpclientRetrieveBody (fun _ => false) fuel cd out data d.length s =
          some (.ret (.retrieveMoreData, cd.filled ext out d r, s')) ∧
        r ++ s'.bytes = d.drop (2048 - out.length) ++ rest ∧ s'.NoFail ∧ r.length ≤ 2047 ∧
        (s.Slow → data.length ≤ 1 → s'.Slow ∧ r = [])) := by
  induction fuel generalizing data d out cd s with
  | zero => omega
  | succ fuel ih =>
    have hsub : ∀ k : Nat, k ≤ d.length → int32? (cd.retrieveLen - k) = some ((d.length - k : Nat) : Int) := by
      intro k hk
      rw [hret, int32?_eq (by omega) (by omega)]
      congr 1; omega
    by_cases hroom : out.length + min data.length d.length < 2048
    · -- the response buffer has room for what is there
      have hroom' : out.length + min data.length d.length < cd.responseBufLen - 1 := by omega
      rw [httpclientRetrieveBody_room hroom' (hsub _ (Nat.min_le_right _ _))]
      by_cases hall : d.length ≤ data.length
      · left
        obtain ⟨t, rfl⟩ : d <+: data :=
          List.prefix_of_prefix_length_le (List.prefix_append _ rest) (h ▸ List.prefix_append _ _) hall
        rw [List.append_assoc] at h
        have h' := List.append_cancel_left h
        rw [if_pos hall, Nat.min_eq_right hall, List.take_left, List.drop_left]
        refine ⟨by omega, t, s, rfl, h', hs, by simp at hlen; omega, by simp [load], fun hslow h1 hne => ?_⟩
        have := List.length_pos_iff.2 hne
        exact ⟨hslow, List.length_eq_zero_iff.1 (by simp at h1; omega)⟩
      · -- more has to be read
        obtain ⟨d₁, rfl⟩ : data <+: d :=
          List.prefix_of_prefix_length_le (h ▸ List.prefix_append _ _) (List.prefix_append _ rest) (by omega)
        rw [List.append_assoc] at h
        have h' := List.append_cancel_left h
        have hd₁ : 0 < d₁.length := by simp at hall; exact List.length_pos_iff.2 hall
        have hmin : min data.length (data ++ d₁).length = data.length := by simp
        rw [hmin] at hroom ⊢
        obtain ⟨new, s₁, g1, g2, g3, g4, g5, g6, -, g7⟩ :=
          @httpclientRecv_ok 1 (min (min (httpclientChunkSize - 1) (cd.responseBufLen - 1 - (out ++ data).length))
            ((data ++ d₁).length - data.length)) s hs
            (by simp [httpclientChunkSize]; omega) (by rw [h']; simp; omega)
        have hk : (data ++ d₁).length - data.length = d₁.length := by simp
        rw [hk] at g1 g5
        have hnew : new.length ≤ 2047 := le_trans g5 (by simp [httpclientChunkSize])
        have hw : s₁.weight < fuel := by omega
        have hnewload : load new s₁ ≤ load data s := by simp [load]; omega
        have hih := @ih new d₁ (out ++ data) s₁ { cd with retrieveLen := (d₁.length : Nat) } g3 hw hnew hbuf hext rfl
          (by simp at hd; omega) (by simpa using hroom) (by rw [g2, h'])
        simp only [if_neg hall, List.take_length, hk, g1, reduceCtorEq, false_and, or_self, if_false]
        rcases hih with ⟨k0, data', s', k1, k2, k3, k4, k5, k6⟩ | ⟨k0, r, s', k1, k2, k3, k4, k5⟩
        · left
          refine ⟨by simp at k0 ⊢; omega, data', s', by simpa using k1, k2, k3, k4, by omega, fun hslow h1 hne => ?_⟩
          obtain ⟨g8, g9⟩ := g7 hslow
          exact k6 g8 (by omega) (List.length_pos_iff.1 hd₁)
        · right
          have hlens : 2048 - (out ++ data).length = 2048 - out.length - data.length := by simp; omega
          rw [hlens] at k2
          have hge : data.length ≤ 2048 - out.length := by omega
          refine ⟨by simp at k0 ⊢; omega, r, s', ?_, ?_, k3, k4, fun hslow h1 => ?_⟩
          · rw [k1]
            simp only [HttpclientData.filled, hlens, List.take_append, List.take_of_length_le hge, List.append_assoc]
            congr 4
            simp; omega
          · rw [k2, List.drop_append, List.drop_of_length_le hge, List.nil_append]
          · obtain ⟨g8, g9⟩ := g7 hslow
            exact k5 g8 (by omega)
    · right
      have hroom' : ¬ out.length + min data.length d.length < cd.responseBufLen - 1 := by omega
      have hbuf' : cd.responseBufLen - 1 = 2048 := by omega
      have hk := hsub (cd.responseBufLen - 1 - out.length) (by omega)
      rw [httpclientRetrieveBody_full hroom' hext hk, hbuf']
      have htake : data.take (2048 - out.length) = d.take (2048 - out.length) := by
        have := congrArg (List.take (2048 - out.length)) h
        rwa [List.take_append_of_le_length (by omega), List.take_append_of_le_length (by omega)] at this
      have hdrop : data.drop (2048 - out.length) ++ s.bytes = d.drop (2048 - out.length) ++ rest := by
        have := congrArg (List.drop (2048 - out.length)) h
        rwa [List.drop_append_of_le_length (by omega), List.drop_append_of_le_length (by omega)] at this
      refine ⟨by omega, data.drop (2048 - out.length), s, ?_, hdrop, hs, by simp; omega, fun hslow h1 => ?_⟩
      · simp only [HttpclientData.filled, htake]
        congr 6
        split
        · rfl
        · have hnil : data.drop (2048 - out.length) = [] := List.drop_of_length_le (by omega)
          rw [hnil, ← hrem]
      · exact ⟨hslow, List.drop_of_length_le (by omega)⟩

/-- The line end behind a chunk is read. -/
theorem httpclientChunkEnd_spec (hs : s.NoFail) (hlen : data.length ≤ 2047) (hout : out.length < 2048)
    (h : data ++ s.bytes = crlf ++ rest) :
    ∃ data' s', httpclientChunkEnd 2049 out data s = .found data' s' ∧ data' ++ s'.bytes = rest ∧ s'.NoFail ∧
      data'.length ≤ 2047 ∧ (s.Slow → data = [] → s'.Slow ∧ data' = []) := by
  -- two bytes or more are the line end and what follows it
  have found : ∀ {data : List Byte} {s : Socket}, 2 ≤ data.length → data ++ s.bytes = crlf ++ rest →
      crlf <+: data ∧ data.drop 2 ++ s.bytes = rest := by
    intro data s h2 h
    obtain ⟨t, rfl⟩ : crlf <+: data :=
      List.prefix_of_prefix_length_le (List.prefix_append _ rest) (h ▸ List.prefix_append _ _) (by simpa [crlf] using h2)
    rw [List.append_assoc] at h
    exact ⟨List.prefix_append _ _, List.append_cancel_left h⟩
  by_cases h2 : data.length < 2
  · obtain ⟨new, s', g1, g2, g3, g4, g5, -, -, g7⟩ :=
      @httpclientRecv_ok (2 - data.length)
        (min (2049 - 1 - out.length + 2) (httpclientChunkSize - data.length - 1)) s hs
        (by simp [httpclientChunkSize]; omega)
        (by have := congrArg List.length h; simp [crlf] at this; omega)
    obtain ⟨k1, k2⟩ := @found (data ++ new) s' (by simp; omega) (by rw [List.append_assoc, g2, h])
    have hnew : new.length ≤ 2047 - data.length := le_trans g5 (by simp [httpclientChunkSize]; omega)
    refine ⟨(data ++ new).drop 2, s', ?_, k2, g3, by simp; omega, fun hslow hd => ?_⟩
    · simp only [httpclientChunkEnd, h2, if_true, g1, reduceCtorEq, false_and, or_self, if_false, k1]
    · obtain ⟨g8, g9⟩ := g7 hslow
      exact ⟨g8, List.drop_of_length_le (by simp [hd] at g9 ⊢; omega)⟩
  · obtain ⟨k1, k2⟩ := found (by omega) h
    refine ⟨data.drop 2, s, ?_, k2, hs, by simp; omega, fun _ hd => absurd (by simp [hd]) h2⟩
    simp only [httpclientChunkEnd, h2, if_false, k1, if_true]

end

/-! ## One call -/

theorem chunksData_length (cs : List Chunk) : (chunksData cs).length = (chunkSizes cs).sum := by
  simp [chunksData, chunkSizes, List.length_flatMap]

/-- Between two calls: `d` is what is left of the chunk or content, and `rest` comes behind it. -/
structure MidBody (cd : HttpclientData) (s : Socket) (d rest : List Byte) : Prop where
  isMore  : cd.isMore = true
  bufLen  : cd.responseBufLen = 2049
  retLen  : cd.retrieveLen = d.length
  noFail  : s.NoFail
  ext     : ∃ ext, cd.ext = some ext ∧ ext.remainData ++ s.bytes = d ++ rest ∧ ext.remainData.length ≤ 2047
  small   : d.length < 2147483648

/-- The length seen so far is an `int`, as every chunk's size is; in the end it will be `total`. -/
structure LenSeen (cd : HttpclientData) (cs : List Chunk) (total : Int) : Prop where
  nonneg : 0 ≤ cd.responseContentLen
  lt     : cd.responseContentLen < 2147483648
  sizes  : ∀ n ∈ chunkSizes cs, n < 2147483648
  total  : cd.responseContentLen + (chunkSizes cs).sum = total

/-- `MidBody` inside a chunked body. -/
structure MidChunk (cd : HttpclientData) (s : Socket) (d : List Byte) (cs : List Chunk) (last : LastChunk)
    (total : Int) : Prop extends MidBody cd s d (crlf ++ encodeChunks cs last) where
  chunked : cd.isChunked = true
  len     : LenSeen cd cs total

/-- Nothing was read too far, and what comes comes byte by byte. -/
def NoOverread (cd : HttpclientData) (s : Socket) : Prop :=
  s.Slow ∧ ∀ ext, cd.ext = some ext → ext.remainData = []

/-- What a call does with a body of which `body` is left, in pieces of these sizes from `off` on. -/
inductive CallOutcome (last : LastChunk) (total : Int) (slow : Prop) (off : Nat) (sizes : List Nat) (body : List Byte) :
    Option (HttpclientResult × HttpclientData × Socket) → Prop
  | done {cd s} : cd.block = body → Unaligned off sizes → total < 2147483648 →
      CallOutcome last total slow off sizes body (some (.ok, cd, s))
  | more {cd s d cs} : MidChunk cd s d cs last total → d ≠ [] → cd.block.length = 2048 →
      body = cd.block ++ (d ++ chunksData cs) → (Unaligned off sizes ↔ Unaligned 0 (d.length :: chunkSizes cs)) →
      (slow → NoOverread cd s) → CallOutcome last total slow off sizes body (some (.retrieveMoreData, cd, s))
  | aligned {cd s cs} : MidChunk cd s [] cs last total → ¬ Unaligned off sizes → (slow → NoOverread cd s) →
      CallOutcome last total slow off sizes body (some (.retrieveMoreData, cd, s))
  | overflow : 2147483648 ≤ total → CallOutcome last total slow off sizes body none

theorem CallOutcome.imp {last : LastChunk} {total : Int} {slow slow' : Prop} {off off' : Nat} {sizes sizes' : List Nat}
    {body : List Byte} {res} (hal : Unaligned off sizes ↔ Unaligned off' sizes') (hslow : slow' → slow)
    (h : CallOutcome last total slow off sizes body res) : CallOutcome last total slow' off' sizes' body res := by
  cases h with
  | done h1 h2 h3 => exact .done h1 (hal.1 h2) h3
  | more h1 h2 h3 h4 h5 h6 => exact .more h1 h2 h3 h4 (hal.symm.trans h5) fun h => h6 (hslow h)
  | aligned h1 h2 h3 => exact .aligned h1 (fun h => h2 (hal.2 h)) fun h => h3 (hslow h)
  | overflow h1 => exact .overflow h1

section
variable {data d out : List Byte} {s : Socket} {fuel : Nat} {cd : HttpclientData} {cs : List Chunk}
  {last : LastChunk} {total : Int}

/-- At a size line, with `out` already in the response buffer. -/
structure AtHeader (cd : HttpclientData) (out data : List Byte) (s : Socket) (cs : List Chunk)
    (last : LastChunk) (total : Int) : Prop where
  isMore  : cd.isMore = true
  chunked : cd.isChunked = true
  bufLen  : cd.responseBufLen = 2049
  retLen  : cd.retrieveLen = 0
  len     : LenSeen cd cs total
  ext     : ∃ ext, cd.ext = some ext ∧ ext.remainData = []
  noFail  : s.NoFail
  data_le : data.length ≤ 2047
  out_lt  : out.length < 2048
  stream  : data ++ s.bytes = encodeChunks cs last

/-- From inside a chunk to the end of the call, if the rest of the chunks is dealt with. -/
theorem retrieveRest_spec {cd₀ : HttpclientData} {data₀ : List Byte} {s₀ : Socket} {ext : HttpclientDataExt}
    (ih : ∀ {cd out data s}, AtHeader cd out data s cs last total →
      CallOutcome last total (s.Slow ∧ data = []) out.length (chunkSizes cs) (out ++ chunksData cs)
        (httpclientRetrieveLoop (fun _ => false) fuel cd out data s))
    (hread : httpclientReadLen cd₀ out data₀ s₀ = some (.read cd data d.length s))
    (hmore : cd.isMore = true) (hchunked : cd.isChunked = true) (hbuf : cd.responseBufLen = 2049)
    (hret : cd.retrieveLen = d.length) (hseen : LenSeen cd cs total) (hd : d.length < 2147483648)
    (hext : cd.ext = some ext) (hrem : ext.remainData = []) (hs : s.NoFail) (hlen : data.length ≤ 2047)
    (hout : out.length < 2048) (hne : d ≠ []) (h : data ++ s.bytes = d ++ (crlf ++ encodeChunks cs last)) :
    CallOutcome last total (s.Slow ∧ data.length ≤ 1) out.length (d.length :: chunkSizes cs)
      (out ++ (d ++ chunksData cs)) (httpclientRetrieveLoop (fun _ => false) (fuel + 1) cd₀ out data₀ s₀) := by
  have hpos := List.length_pos_iff.2 hne
  have hturns : s.weight < turns data s := by unfold turns; omega
  rcases httpclientRetrieveBody_spec hs hturns hlen hbuf hext hrem hret hd hout h with
    ⟨k0, data', s', k1, k2, k3, k4, -, k5⟩ | ⟨k0, r, s', k1, k2, k3, k4, k5⟩
  · -- the chunk ends in this block
    have k0' : (out ++ d).length < 2048 := by simpa using k0
    obtain ⟨data'', s'', m1, m2, m3, m4, m5⟩ := httpclientChunkEnd_spec k3 k4 k0' k2
    have hloop : httpclientRetrieveLoop (fun _ => false) (fuel + 1) cd₀ out data₀ s₀ =
        httpclientRetrieveLoop (fun _ => false) fuel { cd with retrieveLen := 0 } (out ++ d) data'' s'' := by
      simp only [httpclientRetrieveLoop, hread, Option.bind_eq_bind, Option.bind_some, k1, hchunked, if_true, hbuf, m1]
    rw [hloop, ← List.append_assoc]
    have hnext : AtHeader { cd with retrieveLen := 0 } (out ++ d) data'' s'' cs last total :=
      ⟨hmore, hchunked, hbuf, rfl, ⟨hseen.nonneg, hseen.lt, hseen.sizes, hseen.total⟩, ⟨ext, hext, hrem⟩, m3, m4, k0', m2⟩
    refine (ih hnext).imp ?_ fun hslow => ?_
    · rw [Unaligned, List.length_append]
      exact ⟨fun h => ⟨fun hdvd => absurd (Nat.le_of_dvd (by omega) hdvd) (by omega), h⟩, fun h => h.2⟩
    · obtain ⟨h6, h7⟩ := k5 hslow.1 hslow.2 hne
      exact m5 h6 h7
  · -- the block is full before or where the chunk ends
    have hloop : httpclientRetrieveLoop (fun _ => false) (fuel + 1) cd₀ out data₀ s₀ = 
        some (.retrieveMoreData, cd.filled ext out d r, s') := by
      simp only [httpclientRetrieveLoop, hread, Option.bind_eq_bind, Option.bind_some, k1]
    rw [hloop]
    have hblock : (out ++ d.take (2048 - out.length)).length = 2048 := by simp; omega
    have hmid : MidChunk (cd.filled ext out d r) s' (d.drop (2048 - out.length)) cs last total :=
      ⟨⟨hmore, hbuf, by simp [HttpclientData.filled], k3, ⟨_, rfl, k2, k4⟩, by simp; omega⟩, hchunked,
        ⟨hseen.nonneg, hseen.lt, hseen.sizes, hseen.total⟩⟩
    have hover : (s.Slow ∧ data.length ≤ 1) → NoOverread (cd.filled ext out d r) s' := by
      intro hslow
      obtain ⟨h6, h7⟩ := k5 hslow.1 hslow.2
      exact ⟨h6, fun e he => by cases he; exact h7⟩
    have hend : out.length + d.length = 2048 + (d.length - (2048 - out.length)) := by omega
    have hal : Unaligned out.length (d.length :: chunkSizes cs) ↔
        Unaligned 0 ((d.drop (2048 - out.length)).length :: chunkSizes cs) := by
      rw [Unaligned, Unaligned, hend, unaligned_block, Nat.dvd_add_right (Nat.dvd_refl 2048)]
      simp
    by_cases hnil : d.drop (2048 - out.length) = []
    · rw [hnil] at hal hmid
      exact .aligned hmid (fun hu => (hal.1 hu).1 (by simp)) hover
    · refine .more hmid hnil ?_ ?_ hal hover
      · simp only [HttpclientData.block, HttpclientData.filled, List.length_take, hblock]; omega
      · have hb : (out ++ d.take (2048 - out.length)).take 2048 = out ++ d.take (2048 - out.length) :=
          List.take_of_length_le (by omega)
        simp only [HttpclientData.block, HttpclientData.filled, hb]
        rw [List.append_assoc, ← List.append_assoc (d.take _), List.take_append_drop]

theorem encodeChunks_cons (c : Chunk) :
    encodeChunks (c :: cs) last = c.size ++ crlf ++ (c.data ++ (crlf ++ encodeChunks cs last)) := by
  simp [encodeChunks, Chunk.encode]

theorem chunkSizes_cons (c : Chunk) : chunkSizes (c :: cs) = c.data.length :: chunkSizes cs := rfl

/-- A chunk header is read as the size of its chunk, which is added to the length seen so far. -/
theorem httpclientReadLen_cons {c : Chunk} (h : AtHeader cd out data s (c :: cs) last total) :
    ∃ data' s', httpclientReadLen cd out data s =
        (int32? (cd.responseContentLen + c.data.length)).map (fun seen => .read
          { cd with retrieveLen := c.data.length, responseContentLen := seen } data' c.data.length s') ∧
      data' ++ s'.bytes = c.data ++ (crlf ++ encodeChunks cs last) ∧ s'.NoFail ∧ data'.length ≤ 2047 ∧
      (s.Slow → data = [] → s'.Slow ∧ data'.length ≤ 1) := by
  obtain ⟨x, d, hc⟩ := List.exists_cons_of_ne_nil c.data_ne
  have hstream := h.stream
  rw [encodeChunks_cons, hc, List.cons_append] at hstream
  have hsize := h.len.sizes c.data.length (by simp [chunkSizes])
  obtain ⟨data', s', k1, k2, k3, k4, -, k5⟩ := httpclientChunkHeader_spec (hex_no_cr c.size_hex) c.size_fits h.noFail
    (by unfold turns; omega : s.weight < turns data s) h.data_le hstream
  have hn : ¬ ((c.data.length : Int) ≤ -18446744073709551616 ∨ 18446744073709551616 ≤ (c.data.length : Int)) := by
    omega
  have hne : ¬ c.data.length = 0 := by simp [c.data_ne]
  have hu : toSize .lp64 (c.data.length : Int) = c.data.length := toSize_eq (by omega)
  have hi : toI32 (c.data.length : Int) = c.data.length := toI32_eq (by omega) (by omega)
  refine ⟨data', s', ?_, by rw [k2, hc]; rfl, k3, k4, fun hslow hd => k5 hslow (by simp [hd])⟩
  simp only [httpclientReadLen, h.chunked, h.retLen, le_refl, and_self, if_true, h.bufLen, k1, Option.bind_eq_bind,
    Option.bind_some, cstr_eq_self (hex_no_nul c.size_hex), scanHex_digits c.size_ne c.size_hex, c.size_val, hn,
    hu, hi, hne, if_false]
  cases int32? (cd.responseContentLen + c.data.length) <;> rfl

/-- The last chunk ends the body. -/
theorem httpclientReadLen_nil (h : AtHeader cd out data s [] last total) :
    ∃ cd' s', httpclientReadLen cd out data s = some (.ret (httpclientFinish cd' out s')) := by
  obtain ⟨x, r, hr⟩ := List.exists_cons_of_ne_nil last.trailer_ne
  have hstream := h.stream
  simp only [encodeChunks, List.flatMap_nil, List.nil_append, LastChunk.encode, hr] at hstream
  have hlt := h.len.lt
  have hnonneg := h.len.nonneg
  obtain ⟨data', s', k1, -⟩ := httpclientChunkHeader_spec (hex_no_cr last.size_hex) last.size_fits h.noFail
    (by unfold turns; omega : s.weight < turns data s) h.data_le hstream
  have hlen : int32? (cd.responseContentLen + 0) = some cd.responseContentLen := by
    rw [Int.add_zero]; exact int32?_eq (by omega) (by omega)
  refine ⟨{ cd with retrieveLen := 0 }, s', ?_⟩
  simp only [httpclientReadLen, h.chunked, h.retLen, le_refl, and_self, if_true, h.bufLen, k1, Option.bind_eq_bind,
    Option.bind_some, cstr_eq_self (hex_no_nul last.size_hex), scanHex_digits last.size_ne last.size_hex,
    last.size_val]
  have h0 : toSize .lp64 ((0 : Nat) : Int) = 0 := rfl
  have h1 : toI32 ((0 : Nat) : Int) = 0 := rfl
  simp only [h0, h1, hlen, Option.bind_some, if_true]
  rfl

/-- **From a size line on**: one call takes chunks until its block is full or the body ends. Induction on
the chunks. -/
theorem retrieveLoop_spec (hfuel : cs.length < fuel) (h : AtHeader cd out data s cs last total) :
    CallOutcome last total (s.Slow ∧ data = []) out.length (chunkSizes cs) (out ++ chunksData cs)
      (httpclientRetrieveLoop (fun _ => false) fuel cd out data s) := by
  induction cs generalizing cd out data s fuel with
  | nil =>
    obtain ⟨fuel, rfl⟩ : ∃ n, fuel = n + 1 := ⟨fuel - 1, by omega⟩
    obtain ⟨cd', s', hread⟩ := httpclientReadLen_nil h
    simp only [httpclientRetrieveLoop, hread, Option.bind_eq_bind, Option.bind_some]
    refine .done (by simp [HttpclientData.block, chunksData]) trivial ?_
    have hlt := h.len.lt
    have htotal : cd.responseContentLen + ((0 : Nat) : Int) = total := h.len.total
    omega
  | cons c cs ih =>
    obtain ⟨fuel, rfl⟩ : ∃ n, fuel = n + 1 := ⟨fuel - 1, by omega⟩
    obtain ⟨data', s', hread, h1, h2, h3, h4⟩ := httpclientReadLen_cons h
    obtain ⟨ext, hext, hrem⟩ := h.ext
    have hnonneg := h.len.nonneg
    have htotal := h.len.total
    have hsize := h.len.sizes c.data.length (by simp [chunkSizes])
    rw [chunkSizes_cons, List.sum_cons, Nat.cast_add, ← Int.add_assoc] at htotal
    have hpos : 0 ≤ cd.responseContentLen + c.data.length := by omega
    by_cases hseen : cd.responseContentLen + c.data.length < 2147483648
    · rw [int32?_eq (by omega) hseen] at hread
      generalize cd.responseContentLen + (c.data.length : Int) = seen at hread hseen htotal hpos
      have hlen : LenSeen { cd with retrieveLen := c.data.length, responseContentLen := seen } cs total :=
        ⟨hpos, hseen, fun n hn => h.len.sizes n (List.mem_cons_of_mem _ hn), htotal⟩
      have hrest := retrieveRest_spec (fun h' => ih (by simpa using hfuel) h') hread h.isMore h.chunked h.bufLen rfl
        hlen hsize hext hrem h2 h3 h.out_lt c.data_ne h1
      exact hrest.imp Iff.rfl fun hslow => h4 hslow.1 hslow.2
    · have hnone : int32? (cd.responseContentLen + c.data.length) = none := by
        rw [int32?, if_neg fun h => hseen h.2]
      rw [hnone] at hread
      have hloop : httpclientRetrieveLoop (fun _ => false) (fuel + 1) cd out data s = none := by
        simp only [httpclientRetrieveLoop, hread, Option.map_none, Option.bind_eq_bind, Option.bind_none]
      rw [hloop]
      exact .overflow (by omega)

theorem length_le_encodeChunks (last : LastChunk) (cs : List Chunk) : cs.length ≤ (encodeChunks cs last).length := by
  induction cs with
  | nil => simp
  | cons c cs ih => rw [encodeChunks_cons]; simp [crlf]; omega

theorem length_lt_turns (h : data ++ s.bytes = encodeChunks cs last) : cs.length < turns data s := by
  have hle := length_le_encodeChunks last cs
  have hlen := congrArg List.length h
  simp [turns, Socket.weight] at hlen ⊢
  omega

/-- A call whose body has a length or chunks is the loop. -/
theorem retrieveContent_loop {cd' : HttpclientData} {data₀ : List Byte} (hbuf : cd.responseBufLen = 2049)
    (htake : httpclientTakeRemain data₀ { cd with isMore := true } = (data, cd'))
    (hlen : ¬ (cd'.responseContentLen = -1 ∧ cd'.isChunked = false)) :
    httpclientRetrieveContent (fun _ => false) data₀ cd s =
      httpclientRetrieveLoop (fun _ => false) (turns data s) cd' [] data s := by
  have hbuf0 : ¬ cd.responseBufLen = 0 := by rw [hbuf]; decide
  rw [httpclientRetrieveContent, if_neg hbuf0, htake]
  simp only [hlen, if_false]

/-- The first call on a chunked body. -/
theorem retrieveContent_chunked {ext : HttpclientDataExt} (hchunked : cd.isChunked = true)
    (hbuf : cd.responseBufLen = 2049) (hret : cd.retrieveLen = 0) (hcontent : cd.responseContentLen = 0)
    (hext : cd.ext = some ext) (hrem : ext.remainData = []) (hs : s.NoFail) (hlen : data.length ≤ 2047)
    (hsizes : ∀ n ∈ chunkSizes cs, n < 2147483648) (h : data ++ s.bytes = encodeChunks cs last) :
    CallOutcome last (chunkSizes cs).sum (s.Slow ∧ data = []) 0 (chunkSizes cs) (chunksData cs)
      (httpclientRetrieveContent (fun _ => false) data cd s) := by
  have htake : httpclientTakeRemain data { cd with isMore := true } = (data, { cd with isMore := true }) := by
    simp [httpclientTakeRemain, hext, hrem]
  rw [retrieveContent_loop hbuf htake (by simp [hchunked])]
  have hat : AtHeader { cd with isMore := true } [] data s cs last (chunkSizes cs).sum :=
    ⟨rfl, hchunked, hbuf, hret,
      ⟨by rw [hcontent], by rw [hcontent]; decide, hsizes, by rw [hcontent, Int.zero_add]⟩, ⟨ext, hext, hrem⟩, hs, hlen, by simp, h⟩
  exact retrieveLoop_spec (length_lt_turns h) hat

/-- What was left over is taken up again. -/
theorem takeRemain_mid {rest : List Byte} (h : MidBody cd s d rest) (hne : d ≠ []) :
    ∃ data ext, httpclientTakeRemain [] { cd with isMore := true } =
        (data, { cd with isMore := true, ext := some ext }) ∧
      ext.remainData = [] ∧ data ++ s.bytes = d ++ rest ∧ data.length ≤ 2047 ∧ (NoOverread cd s → data = []) := by
  obtain ⟨ext, hext, hstream, hlen⟩ := h.ext
  have hpos : 0 < cd.retrieveLen := by rw [h.retLen]; exact_mod_cast List.length_pos_iff.2 hne
  by_cases hrem : ext.remainData = []
  · refine ⟨[], ext, ?_, hrem, by simpa [hrem] using hstream, by simp, fun _ => rfl⟩
    simp [httpclientTakeRemain, hext, hrem]
  · refine ⟨ext.remainData, { ext with remainData := [] }, ?_, rfl, hstream, hlen, fun hno => absurd (hno.2 _ hext) hrem⟩
    simp [httpclientTakeRemain, hext, hrem, hpos]

/-- A call inside a chunk. -/
theorem retrieveContent_mid (h : MidChunk cd s d cs last total) (hne : d ≠ []) :
    CallOutcome last total (NoOverread cd s) 0 (d.length :: chunkSizes cs) (d ++ chunksData cs)
      (httpclientRetrieveContent (fun _ => false) [] cd s) := by
  obtain ⟨data, ext, htake, hrem, hstream, hlen, hno⟩ := takeRemain_mid h.toMidBody hne
  have hpos := List.length_pos_iff.2 hne
  have hsmall := h.small
  obtain ⟨fuel, hfuel⟩ : ∃ fuel, turns data s = fuel + 1 := ⟨turns data s - 1, by unfold turns; omega⟩
  have hlt : cs.length < fuel := by
    have hle := length_le_encodeChunks last cs
    have hlen := congrArg List.length hstream
    simp [turns, Socket.weight] at hlen hfuel
    omega
  have hread : httpclientReadLen { cd with isMore := true, ext := some ext } [] data s =
      some (.read { cd with isMore := true, ext := some ext } data d.length s) := by
    have hnot : ¬ (cd.isChunked = true ∧ cd.retrieveLen ≤ 0) := by rw [h.retLen]; omega
    rw [httpclientReadLen, if_neg hnot, h.retLen, toSize_eq (by omega)]
  rw [retrieveContent_loop h.bufLen htake (by simp [h.chunked]), hfuel]
  have hlen' : LenSeen { cd with isMore := true, ext := some ext } cs total :=
    ⟨h.len.nonneg, h.len.lt, h.len.sizes, h.len.total⟩
  refine (retrieveRest_spec (fun h' => retrieveLoop_spec hlt h') hread rfl h.chunked h.bufLen h.retLen hlen' h.small
    rfl hrem h.noFail hlen (by simp) hne hstream).imp Iff.rfl fun hslow => ?_
  exact ⟨hslow.1, by simp [hno hslow]⟩

/-- A call at the end of a chunk, where nothing was read too far: the line end is taken for a size line. -/
theorem retrieveContent_aligned (h : MidChunk cd s [] cs last total) (hno : NoOverread cd s) :
    ∃ cd' s', httpclientRetrieveContent (fun _ => false) [] cd s = some (.errorPrtcl, cd', s') := by
  obtain ⟨ext, hext, hstream, hlen⟩ := h.ext
  have hrem := hno.2 _ hext
  have hret : cd.retrieveLen = 0 := h.retLen
  obtain ⟨x, rest, hx⟩ : ∃ x rest, encodeChunks cs last = x :: rest := by
    refine List.exists_cons_of_ne_nil fun hnil => last.size_ne ?_
    simp [encodeChunks, LastChunk.encode] at hnil
    exact hnil.2.1
  rw [hrem, List.nil_append, List.nil_append, hx] at hstream
  have hempty : (13 : Byte) ∉ ([] : List Byte) ∧ ([] : List Byte).length ≤ 2044 := by simp
  obtain ⟨data', s', k1, -⟩ := httpclientChunkHeader_spec hempty.1 hempty.2 h.noFail
    (by unfold turns; omega : s.weight < turns [] s) (by simp) (show [] ++ s.bytes = [] ++ crlf ++ x :: rest from hstream)
  have htake : httpclientTakeRemain [] { cd with isMore := true } = ([], { cd with isMore := true }) := by
    simp [httpclientTakeRemain, hext, hret]
  obtain ⟨fuel, hfuel⟩ : ∃ fuel, turns [] s = fuel + 1 := ⟨turns [] s - 1, by unfold turns; omega⟩
  have hread : httpclientReadLen { cd with isMore := true } [] [] s =
      some (.ret (.errorPrtcl, { cd with isMore := true, retrieveLen := 0, responseBuf := [] }, s')) := by
    simp only [httpclientReadLen, h.chunked, hret, le_refl, and_self, if_true, h.bufLen, k1, Option.bind_eq_bind,
      Option.bind_some, show scanHex (cstr []) = none from by decide]
  have hcall : httpclientRetrieveContent (fun _ => false) [] cd s =
      some (.errorPrtcl, { cd with isMore := true, retrieveLen := 0, responseBuf := [] }, s') := by
    rw [retrieveContent_loop h.bufLen htake (by simp [h.chunked]), hfuel]
    simp only [httpclientRetrieveLoop, hread, Option.bind_eq_bind, Option.bind_some]
  exact ⟨_, _, hcall⟩

/-- In a body of known length, of which `d` is left. -/
structure AtLength (cd : HttpclientData) (data : List Byte) (s : Socket) (d : List Byte) : Prop where
  isMore  : cd.isMore = true
  chunked : cd.isChunked = false
  known   : cd.responseContentLen ≠ -1
  bufLen  : cd.responseBufLen = 2049
  retLen  : cd.retrieveLen = d.length
  small   : d.length < 2147483648
  ext     : ∃ ext, cd.ext = some ext ∧ ext.remainData = []
  noFail  : s.NoFail
  data_le : data.length ≤ 2047
  stream  : data ++ s.bytes = d

/-- A call on a body of known length, from wherever it stands. -/
theorem retrieveLoop_length (hat : AtLength cd data s d) (hfuel : 0 < fuel) :
    (∃ cd' s', httpclientRetrieveLoop (fun _ => false) fuel cd [] data s = some (.ok, cd', s') ∧ cd'.block = d) ∨
    ∃ cd' s' d', httpclientRetrieveLoop (fun _ => false) fuel cd [] data s = some (.retrieveMoreData, cd', s') ∧
      cd'.block.length = 2048 ∧ d = cd'.block ++ d' ∧ MidBody cd' s' d' [] ∧ cd'.isChunked = false ∧
      cd'.responseContentLen = cd.responseContentLen := by
  obtain ⟨hmore, hchunked, -, hbuf, hret, hd, ⟨ext, hext, hrem⟩, hs, hlen, hstream⟩ := hat
  have h : data ++ s.bytes = d ++ [] := by rw [List.append_nil, hstream]
  obtain ⟨fuel, rfl⟩ : ∃ n, fuel = n + 1 := ⟨fuel - 1, by omega⟩
  have hread : httpclientReadLen cd [] data s = some (.read cd data d.length s) := by
    simp only [httpclientReadLen, hchunked, Bool.false_eq_true, false_and, if_false, hret]
    rw [toSize_eq (by omega)]
  have hturns : s.weight < turns data s := by unfold turns; omega
  have hout : ([] : List Byte).length < 2048 := by simp
  rcases httpclientRetrieveBody_spec hs hturns hlen hbuf hext hrem hret hd hout h with
    ⟨-, data', s', k1, -⟩ | ⟨k0, r, s', k1, k2, k3, k4, -⟩
  · left
    have hcall : httpclientRetrieveLoop (fun _ => false) (fuel + 1) cd [] data s =
        some (httpclientFinish { cd with retrieveLen := 0 } d s') := by
      simp only [httpclientRetrieveLoop, hread, Option.bind_eq_bind, Option.bind_some, k1, hchunked,
        Bool.false_eq_true, if_false, List.nil_append]
    exact ⟨_, _, hcall, by simp [HttpclientData.block]⟩
  · right
    simp only [List.length_nil, Nat.zero_add, Nat.sub_zero] at k0 k2
    have hcall : httpclientRetrieveLoop (fun _ => false) (fuel + 1) cd [] data s =
        some (.retrieveMoreData, cd.filled ext [] d r, s') := by
      simp only [httpclientRetrieveLoop, hread, Option.bind_eq_bind, Option.bind_some, k1]
    have hblock : (cd.filled ext [] d r).block = d.take 2048 := by
      simp only [HttpclientData.block, HttpclientData.filled, List.length_nil, Nat.sub_zero, List.nil_append,
        List.take_take, min_self]
    have hleft : (cd.filled ext [] d r).retrieveLen = (d.drop 2048).length := by
      simp only [HttpclientData.filled, List.length_nil, Nat.sub_zero, List.length_drop]
    have hless : (d.drop 2048).length < 2147483648 := by rw [List.length_drop]; omega
    refine ⟨_, _, d.drop 2048, hcall, ?_, ?_, ⟨hmore, hbuf, hleft, k3, ⟨_, rfl, k2, k4⟩, hless⟩, hchunked, rfl⟩
    · rw [hblock, List.length_take]; omega
    · rw [hblock, List.take_append_drop]

/-- A later call on a body of known length goes on where the last one stopped. -/
theorem retrieveContent_length (h : MidBody cd s d []) (hchunked : cd.isChunked = false)
    (hknown : cd.responseContentLen ≠ -1) :
    ∃ data cd', httpclientRetrieveContent (fun _ => false) [] cd s =
        httpclientRetrieveLoop (fun _ => false) (turns data s) cd' [] data s ∧ AtLength cd' data s d := by
  have hnot : ¬ (cd.responseContentLen = -1 ∧ cd.isChunked = false) := fun h => hknown h.1
  by_cases hne : d = []
  · obtain ⟨ext, hext, hstream, -⟩ := h.ext
    have hnil : ext.remainData = [] ∧ s.bytes = [] := by simpa [hne] using hstream
    have htake : httpclientTakeRemain [] { cd with isMore := true } = ([], { cd with isMore := true, ext := cd.ext }) := by
      simp [httpclientTakeRemain, hext, hnil.1]
    exact ⟨[], _, retrieveContent_loop h.bufLen htake hnot,
      ⟨rfl, hchunked, hknown, h.bufLen, h.retLen, h.small, ⟨ext, hext, hnil.1⟩, h.noFail, by simp, by simp [hnil.2, hne]⟩⟩
  · obtain ⟨data, ext, htake, hrem, hstream, hlen, -⟩ := takeRemain_mid h hne
    exact ⟨data, _, retrieveContent_loop h.bufLen htake hnot,
      ⟨rfl, hchunked, hknown, h.bufLen, h.retLen, h.small, ⟨ext, rfl, hrem⟩, h.noFail, hlen, by simpa using hstream⟩⟩

end

end AudioPlayer

import Mathlib
import AudioPlayer.Httpclient.Framing
import AudioPlayer.Httpclient.HeadDecided

/-!
# A whole response (`httpclient_recv_response`, `utils/httpclient.c:1163-1193`)

A `Response` is a head and the framed body it announces. `Delivers` says that calling
`httpclient_recv_response` again while it returns `HTTPCLIENT_RETRIEVE_MORE_DATA` hands a body over in full
blocks and a last one. `httpclientRecvResponse_delivers` gives the responses that are delivered whatever way
they arrive, once their status line comes at once: `Response.Decodable`. A chunk that ends where a block
does is the one that is not.
-/

namespace AudioPlayer
open Lib

/-- `httpclient_recv_response`; `none` for a socket below zero. -/
def httpclientRecvResponse (expired : Socket → Bool) (code : Int) (cd : HttpclientData) (s : Option Socket) :
    Option (HttpclientResult × Int × HttpclientData × Option Socket) :=
  match s with
  | none => some (.errorConn, code, cd, none)
  | some s =>
    if cd.isMore then do
      let (ret, cd, s) ← httpclientRetrieveContent expired [] { cd with responseBuf := cd.responseBuf.set 0 0 } s
      some (ret, code, cd, some s)
    else
      let (ret, data, s) := httpclientRecv 1 (httpclientChunkSize - 1) s
      if ret ≠ .ok ∧ ret ≠ .closed then some (ret, code, cd, some s)
      else if data ≠ [] then do
        let (ret, code, cd, s) ← httpclientResponseParse expired code data cd s
        some (ret, code, cd, some s)
      else some (ret, code, cd, some s)

/-- The calls from here on hand over `body` (the timer does not expire). -/
inductive Delivers : Int → HttpclientData → Option Socket → List Byte → Prop
  | last {code cd s code' cd' s'} : httpclientRecvResponse (fun _ => false) code cd s = some (.ok, code', cd', s') →
      Delivers code cd s cd'.block
  | more {code cd s code' cd' s' body} :
      httpclientRecvResponse (fun _ => false) code cd s = some (.retrieveMoreData, code', cd', s') →
      cd'.block.length = 2048 → Delivers code' cd' s' body → Delivers code cd s (cd'.block ++ body)

theorem Delivers.ne_none {code : Int} {cd : HttpclientData} {s : Option Socket} {body : List Byte}
    (h : Delivers code cd s body) : httpclientRecvResponse (fun _ => false) code cd s ≠ none := by
  rcases h with hlast | ⟨hmore, -⟩
  · rw [hlast]; exact Option.some_ne_none _
  · rw [hmore]; exact Option.some_ne_none _

inductive BodyFraming
  | length (body : List Byte)
  | chunked (cs : List Chunk) (last : LastChunk)

namespace BodyFraming

def body : BodyFraming → List Byte
  | length b => b
  | chunked cs _ => chunksData cs

def encode : BodyFraming → List Byte
  | length b => b
  | chunked cs last => encodeChunks cs last

def sizes : BodyFraming → List Nat
  | length _ => []
  | chunked cs _ => chunkSizes cs

/-- The head says how the body is framed, by one of the two kinds of fields. -/
def AnnouncedBy (h : Head) : BodyFraming → Prop
  | length b => (∃ f ∈ h.fields, f.kind = some .contentLength) ∧
      ∀ f ∈ h.fields, f.kind ≠ some .transferEncoding ∧ (f.kind = some .contentLength → decVal f.value = b.length)
  | chunked _ _ => (∃ f ∈ h.fields, f.kind = some .transferEncoding) ∧
      ∀ f ∈ h.fields, f.kind ≠ some .contentLength ∧
        (f.kind = some .transferEncoding → caseEq f.value chunkedCoding)

end BodyFraming

structure Response where
  head      : Head
  framing   : BodyFraming
  regular   : ∀ f ∈ head.fields, f.Regular
  announced : framing.AnnouncedBy head
  fits      : head.encode.length ≤ 2047

namespace Response
variable (r : Response)

def stream : List Byte := r.head.encode ++ r.framing.encode

/-- A way the response arrives. -/
def ArrivesAs (s : Socket) : Prop := s.NoFail ∧ s.bytes = r.stream

/-- The status line comes in the first burst. -/
def StatusReady (s : Socket) : Prop := r.head.status.line.length + 2 ≤ s.ready.length

/-- Every number is an `int`, and no chunk ends at a multiple of the block size. -/
def Decodable : Prop :=
  (∀ f ∈ r.head.fields, f.fits = true) ∧ r.framing.body.length < 2147483648 ∧ Unaligned 0 r.framing.sizes

end Response

/-- What a response starts with. -/
structure HttpclientData.Fresh (cd : HttpclientData) : Prop where
  isMore : cd.isMore = false
  bufLen : cd.responseBufLen = 2049
  ext    : ∃ ext, cd.ext = some ext ∧ ext.remainData = []

/-! ## In the middle of a body -/

section
variable {code : Int} {cd : HttpclientData} {s : Socket} {d body : List Byte} {cs : List Chunk} {last : LastChunk}
  {total : Int}

/-- Once there is more to come, a call is one of `httpclient_retrieve_content`. -/
theorem recvResponse_more (code : Int) (s : Socket) (h : cd.isMore = true) : httpclientRecvResponse (fun _ => false) code cd (some s) =
    (httpclientRetrieveContent (fun _ => false) [] { cd with responseBuf := cd.responseBuf.set 0 0 } s).map
      fun res => (res.1, code, res.2.1, some res.2.2) := by
  simp only [httpclientRecvResponse]
  rw [if_pos h]
  cases httpclientRetrieveContent (fun _ => false) [] { cd with responseBuf := cd.responseBuf.set 0 0 } s <;> rfl

theorem MidChunk.setBuf (h : MidChunk cd s d cs last total) (buf : List Byte) :
    MidChunk { cd with responseBuf := buf } s d cs last total :=
  ⟨⟨h.isMore, h.bufLen, h.retLen, h.noFail, h.ext, h.small⟩, h.chunked,
    ⟨h.len.nonneg, h.len.lt, h.len.sizes, h.len.total⟩⟩

/-- What a call came to is what is delivered. Induction on what is left to deliver. -/
theorem CallOutcome.delivers {slow : Prop} {off : Nat} {sizes : List Nat} {code' : Int} {res}
    (h : CallOutcome last total slow off sizes body res) (hal : Unaligned off sizes) (htotal : total < 2147483648)
    (hres : httpclientRecvResponse (fun _ => false) code cd (some s) =
      res.map fun res => (res.1, code', res.2.1, some res.2.2)) :
    Delivers code cd (some s) body := by
  induction hlen : body.length using Nat.strong_induction_on generalizing body code cd s off sizes res slow with
  | _ n ih =>
    cases h with
    | done h1 =>
      subst h1
      exact .last hres
    | @more cd' s' d' cs' h1 h2 h3 h4 h5 =>
      subst h4
      have hmid := retrieveContent_mid (h1.setBuf (cd'.responseBuf.set 0 0)) h2
      have hrest : (d' ++ chunksData cs').length < n := by
        simp only [List.length_append, h3] at hlen ⊢
        omega
      exact .more hres h3 (ih _ hrest hmid (h5.1 hal) (recvResponse_more _ _ h1.isMore) rfl)
    | aligned h1 h2 => exact absurd hal h2
    | overflow h1 => omega

/-- Behind a chunk that ended with its block, the next call fails. -/
theorem not_delivers_aligned (h : MidChunk cd s [] cs last total) (hno : NoOverread cd s) :
    ¬ Delivers code cd (some s) body := by
  have hno' : NoOverread { cd with responseBuf := cd.responseBuf.set 0 0 } s := hno
  obtain ⟨cd', s', hcall⟩ := retrieveContent_aligned (h.setBuf (cd.responseBuf.set 0 0)) hno'
  have hrun := recvResponse_more code s h.isMore
  rw [hcall] at hrun
  rintro (hlast | ⟨hmore, -⟩)
  · rw [hrun] at hlast; cases hlast
  · rw [hrun] at hmore; cases hmore

/-- A chunked body that is delivered when it comes slowly has no aligned chunk. Induction on the calls. -/
theorem CallOutcome.of_delivers {slow : Prop} {off : Nat} {sizes : List Nat} {code' : Int} {res}
    (h : CallOutcome last total slow off sizes body res) (hslow : slow)
    (hres : httpclientRecvResponse (fun _ => false) code cd (some s) =
      res.map fun res => (res.1, code', res.2.1, some res.2.2))
    {s₀ : Option Socket} (hs₀ : s₀ = some s) {b : List Byte} (hdel : Delivers code cd s₀ b) :
    Unaligned off sizes ∧ total < 2147483648 := by
  induction hdel generalizing s off sizes res slow body code' with
  | last hrun =>
    subst hs₀
    rw [hres] at hrun
    cases h with
    | done h1 h2 h3 => exact ⟨h2, h3⟩
    | more => cases hrun
    | aligned => cases hrun
    | overflow => cases hrun
  | more hrun hfull hrest ih =>
    subst hs₀
    rw [hres] at hrun
    cases h with
    | done => cases hrun
    | @more cd' s' d' cs' h1 h2 h3 h4 h5 h6 =>
      cases hrun
      have hmid := retrieveContent_mid (h1.setBuf (cd'.responseBuf.set 0 0)) h2
      have hno : NoOverread { cd' with responseBuf := cd'.responseBuf.set 0 0 } s' := h6 hslow
      obtain ⟨g1, g2⟩ := ih hmid hno (recvResponse_more _ _ h1.isMore) rfl
      exact ⟨h5.2 g1, g2⟩
    | aligned h1 h2 h3 =>
      cases hrun
      exact absurd hrest (not_delivers_aligned h1 (h3 hslow))
    | overflow => cases hrun

/-- A body of known length is delivered. Induction on what is left of it. -/
theorem AtLength.delivers {cd₁ : HttpclientData} {data : List Byte} {fuel : Nat} {code' : Int} {s' : Option Socket}
    (h : AtLength cd₁ data s d) (hfuel : 0 < fuel)
    (hres : httpclientRecvResponse (fun _ => false) code cd s' =
      (httpclientRetrieveLoop (fun _ => false) fuel cd₁ [] data s).map fun res => (res.1, code', res.2.1, some res.2.2)) :
    Delivers code cd s' d := by
  induction hlen : d.length using Nat.strong_induction_on generalizing d code cd s' cd₁ data s fuel with
  | _ n ih =>
    rcases retrieveLoop_length h hfuel with ⟨cd', s₁, hrun, rfl⟩ | ⟨cd', s₁, d', hrun, hfull, rfl, hmid, hchunked, hknown⟩
    · rw [hrun] at hres
      exact .last hres
    · rw [hrun] at hres
      have hmid' : MidBody { cd' with responseBuf := cd'.responseBuf.set 0 0 } s₁ d' [] :=
        ⟨hmid.isMore, hmid.bufLen, hmid.retLen, hmid.noFail, hmid.ext, hmid.small⟩
      obtain ⟨data', cd₂, hcall, hat⟩ := retrieveContent_length hmid' hchunked (by rw [hknown]; exact h.known)
      have hnext := recvResponse_more code' s₁ hmid.isMore
      rw [hcall] at hnext
      have hless : d'.length < n := by
        simp only [List.length_append, hfull] at hlen
        omega
      exact .more hres hfull (ih _ hless hat (by unfold turns; omega) hnext rfl)

end

/-! ## From the head on -/

section
variable {r : Response} {code : Int} {cd : HttpclientData} {ext : HttpclientDataExt} {s : Socket} {data : List Byte}

/-- What the body is retrieved with. -/
def Response.parsed (r : Response) (cd : HttpclientData) : HttpclientData :=
  r.head.fields.foldl HttpclientData.note cd.headStart

/-- Where the status line came at once, the head is followed by the body. -/
theorem httpclientResponseParse_spec (code : Int) (hcd : cd.Fresh) (hs : s.NoFail) (hsplit : data ++ s.bytes = r.stream)
    (hlen : data.length ≤ 2047) (hline : r.head.status.line.length + 2 ≤ data.length) :
    ∃ data' s', httpclientResponseParse (fun _ => false) code data cd s =
        (if ∀ f ∈ r.head.fields, f.fits then
          (httpclientRetrieveContent (fun _ => false) data' (r.parsed cd) s').map
            fun res => (res.1, (r.head.status.status : Int), res.2.1, res.2.2) else none) ∧
      data' ++ s'.bytes = r.framing.encode ∧ s'.NoFail ∧ data'.length ≤ 2047 ∧
      (r.head.encode.length ≤ data.length → s' = s) := by
  obtain ⟨ext, hext, -⟩ := hcd.ext
  rcases httpclientParseHead_spec code hext hs r.regular hsplit r.fits hlen with
    ⟨-, data', s', h1, h2⟩ | ⟨hlt, -⟩
  · refine ⟨data', s', ?_, h2⟩
    rw [httpclientResponseParse, h1, Response.parsed]
    by_cases hfits : ∀ f ∈ r.head.fields, f.fits = true
    · simp only [if_pos hfits, Option.bind_eq_bind, Option.bind_some]
      cases httpclientRetrieveContent (fun _ => false) data' (r.head.fields.foldl HttpclientData.note cd.headStart) s' <;>
        rfl
    · simp only [if_neg hfits, Option.bind_eq_bind, Option.bind_none]
  · omega

theorem parsed_bufLen (hcd : cd.Fresh) : (r.parsed cd).responseBufLen = 2049 :=
  (foldl_frame HttpclientData.note HttpclientData.responseBufLen (fun _ _ => rfl) _).trans hcd.bufLen

theorem parsed_ext (hcd : cd.Fresh) : ∃ ext, (r.parsed cd).ext = some ext ∧ ext.remainData = [] := by
  obtain ⟨ext, hext, hrem⟩ := hcd.ext
  refine ⟨_, foldl_note_ext (by rw [HttpclientData.headStart, hext]; rfl), ?_⟩
  exact (foldl_frame HttpclientDataExt.note HttpclientDataExt.remainData (fun _ _ => rfl) _).trans hrem

/-- A head that announces chunks is taken for one. -/
theorem parsed_chunked {cs : List Chunk} {last : LastChunk} (h : (BodyFraming.chunked cs last).AnnouncedBy r.head) :
    (r.parsed cd).isChunked = true ∧ (r.parsed cd).responseContentLen = 0 ∧ (r.parsed cd).retrieveLen = 0 := by
  obtain ⟨⟨f, hf, hte⟩, hall⟩ := h
  have taken : ∀ g ∈ r.head.fields, g.kind = some .transferEncoding → g.takenForChunked = true := by
    intro g hg hk
    have hv := (hall g hg).2 hk
    rw [HeadField.takenForChunked, hk, caseEq_length hv, List.take_length, decide_eq_true ⟨rfl, hv⟩]
  have hlast : lastOf HeadField.notedLength r.head.fields = some 0 := by
    refine lastOf_eq (fun g hg w hw => ?_) ⟨f, hf, by rw [HeadField.notedLength, if_pos (taken f hf hte)]; simp⟩
    rw [HeadField.notedLength, HeadField.length, if_neg (hall g hg).1] at hw
    split at hw
    · exact (Option.some.inj hw).symm
    · cases hw
  refine ⟨foldl_note_chunked.2 (.inr ⟨f, hf, taken f hf hte⟩), ?_, ?_⟩
  · rw [Response.parsed, foldl_note_contentLen, hlast]; rfl
  · rw [Response.parsed, foldl_note_retrieveLen, hlast]; rfl

/-- A head that announces a length gives it. -/
theorem parsed_length {b : List Byte} (h : (BodyFraming.length b).AnnouncedBy r.head) :
    (r.parsed cd).isChunked = false ∧ (r.parsed cd).responseContentLen = b.length ∧
      (r.parsed cd).retrieveLen = b.length := by
  obtain ⟨⟨f, hf, hcl⟩, hall⟩ := h
  have nottaken : ∀ g ∈ r.head.fields, ¬ g.takenForChunked = true := by
    intro g hg ht
    rw [HeadField.takenForChunked, decide_eq_true_eq] at ht
    exact (hall g hg).1 ht.1
  have hlast : lastOf HeadField.notedLength r.head.fields = some (b.length : Int) := by
    refine lastOf_eq (fun g hg w hw => ?_) ⟨f, hf, ?_⟩
    · rw [HeadField.notedLength, if_neg (nottaken g hg), HeadField.length] at hw
      split at hw
      · rename_i hk
        rw [← (hall g hg).2 hk]
        exact (Option.some.inj hw).symm
      · cases hw
    · rw [HeadField.notedLength, if_neg (nottaken f hf), HeadField.length, if_pos hcl]
      simp
  refine ⟨?_, ?_, ?_⟩
  · have hno : ¬ (r.parsed cd).isChunked = true := by
      rw [Response.parsed, foldl_note_chunked]
      rintro (h | ⟨g, hg, ht⟩)
      · cases h
      · exact nottaken g hg ht
    simpa using hno
  · rw [Response.parsed, foldl_note_contentLen, hlast]; rfl
  · rw [Response.parsed, foldl_note_retrieveLen, hlast]; rfl

theorem Response.stream_ne (r : Response) : 1 ≤ r.stream.length := by
  simp only [Response.stream, Head.encode, List.length_append, show crlf.length = 2 from rfl]
  omega

/-- The first call parses the first burst. -/
theorem recvResponse_first (code : Int) (hcd : cd.Fresh) (hs : r.ArrivesAs s) :
    ∃ data s', httpclientRecv 1 2047 s = (.ok, data, s') ∧ data = s.ready.take 2047 ∧
      data ++ s'.bytes = r.stream ∧ s'.NoFail ∧ data.length ≤ 2047 ∧
      httpclientRecvResponse (fun _ => false) code cd (some s) =
        (httpclientResponseParse (fun _ => false) code data cd s').map
          fun res => (res.1, res.2.1, res.2.2.1, some res.2.2.2) := by
  obtain ⟨hno, hbytes⟩ := hs
  have hstream := r.stream_ne
  obtain ⟨data, s', h1, h2, h3, h4, h5, -⟩ :=
    httpclientRecv_ok hno (show 1 ≤ 2047 by decide) (by rw [hbytes]; exact hstream)
  have hready := httpclientRecv_ready hno (show 1 ≤ 2047 by decide)
  rw [h1] at hready
  refine ⟨data, s', h1, hready, by rw [h2, hbytes], h3, h5, ?_⟩
  have hmore : ¬ cd.isMore = true := by rw [hcd.isMore]; decide
  have hne : data ≠ [] := List.length_pos_iff.1 (by omega)
  have hret : ¬ (HttpclientResult.ok ≠ .ok ∧ HttpclientResult.ok ≠ .closed) := by decide
  simp only [httpclientRecvResponse]
  rw [if_neg hmore, show httpclientChunkSize - 1 = 2047 from rfl, h1]
  simp only [if_neg hret]
  rw [if_pos hne]
  cases httpclientResponseParse (fun _ => false) code data cd s' <;> rfl

/-- Without its status line the first call fails. -/
theorem not_delivers_split {body : List Byte} (hcd : cd.Fresh) (hs : r.ArrivesAs s) (hready : ¬ r.StatusReady s) :
    ¬ Delivers code cd (some s) body := by
  obtain ⟨data, s', -, hdata, hsplit, hno, hlen, hrun⟩ := recvResponse_first code hcd hs
  obtain ⟨ext, hext, -⟩ := hcd.ext
  have hshort : data.length < r.head.status.line.length + 2 := by
    rw [hdata, List.length_take]
    unfold Response.StatusReady at hready
    omega
  rcases httpclientParseHead_spec code hext hno r.regular hsplit r.fits hlen with ⟨hline, -⟩ | ⟨-, cd', hparse⟩
  · omega
  · have hret : httpclientRecvResponse (fun _ => false) code cd (some s) = some (.errorPrtcl, code, cd', some s') := by
      rw [hrun, httpclientResponseParse, hparse]; rfl
    rintro (hlast | ⟨hmore, -⟩)
    · rw [hret] at hlast; cases hlast
    · rw [hret] at hmore; cases hmore

/-- With it, the head is followed by the body. -/
theorem recvResponse_ready (code : Int) (hcd : cd.Fresh) (hs : r.ArrivesAs s) (hready : r.StatusReady s) :
    ∃ data s', httpclientRecvResponse (fun _ => false) code cd (some s) =
        (if ∀ f ∈ r.head.fields, f.fits then
          (httpclientRetrieveContent (fun _ => false) data (r.parsed cd) s').map
            fun res => (res.1, (r.head.status.status : Int), res.2.1, some res.2.2) else none) ∧
      data ++ s'.bytes = r.framing.encode ∧ s'.NoFail ∧ data.length ≤ 2047 := by
  obtain ⟨data, s₁, -, hdata, hsplit, hno, hlen, hrun⟩ := recvResponse_first code hcd hs
  have hfits := r.fits
  have hline : r.head.status.line.length + 2 ≤ data.length := by
    rw [hdata, List.length_take]
    unfold Response.StatusReady at hready
    simp only [Head.encode, List.length_append, show crlf.length = 2 from rfl] at hfits
    omega
  obtain ⟨data', s', hparse, h2, h3, h4, -⟩ := httpclientResponseParse_spec code hcd hno hsplit hlen hline
  refine ⟨data', s', ?_, h2, h3, h4⟩
  rw [hrun, hparse]
  split
  · rw [Option.map_map]; rfl
  · rfl

/-- **What is decodable is delivered**, however it arrives. -/
theorem Response.Decodable.delivers (hdec : r.Decodable) (hcd : cd.Fresh) (hs : r.ArrivesAs s)
    (hready : r.StatusReady s) : Delivers code cd (some s) r.framing.body := by
  obtain ⟨data, s', hrun, hstream, hno, hlen⟩ := recvResponse_ready code hcd hs hready
  obtain ⟨hfits, hbody, hal⟩ := hdec
  obtain ⟨ext, hext, hrem⟩ := @parsed_ext r _ hcd
  rw [if_pos hfits] at hrun
  have hann := r.announced
  cases hframing : r.framing with
  | length b =>
    rw [hframing] at hann hstream hbody
    obtain ⟨h1, h2, h3⟩ := @parsed_length r cd _ hann
    have htake : httpclientTakeRemain data { r.parsed cd with isMore := true } =
        (data, { r.parsed cd with isMore := true }) := by simp [httpclientTakeRemain, hext, hrem]
    have hnot : ¬ ((r.parsed cd).responseContentLen = -1 ∧ (r.parsed cd).isChunked = false) := by rw [h2]; omega
    rw [retrieveContent_loop (parsed_bufLen hcd) htake hnot] at hrun
    have hat : AtLength { r.parsed cd with isMore := true } data s' b :=
      ⟨rfl, h1, by dsimp only; rw [h2]; omega, parsed_bufLen hcd, h3, hbody, ⟨ext, hext, hrem⟩, hno, hlen, hstream⟩
    exact hat.delivers (by unfold turns; omega) hrun
  | chunked cs last =>
    rw [hframing] at hann hstream hbody hal
    obtain ⟨h1, h2, h3⟩ := @parsed_chunked r cd _ _ hann
    have hsum : (chunkSizes cs).sum < 2147483648 := by rw [← chunksData_length]; exact hbody
    have hsizes : ∀ n ∈ chunkSizes cs, n < 2147483648 := fun n hn => by
      have := List.single_le_sum (by simp) n hn
      omega
    have hout := retrieveContent_chunked h1 (parsed_bufLen hcd) h3 h2 hext hrem hno hlen hsizes hstream
    exact hout.delivers hal (by exact_mod_cast hsum) hrun

/-- The head at once, and the body byte by byte. -/
def Response.slowly (r : Response) : Socket := Socket.push r.head.encode (.wouldBlock :: Socket.slow r.framing.encode)

theorem arrivesAs_slowly (r : Response) : r.ArrivesAs r.slowly := by
  refine ⟨Socket.NoFail.push ?_, ?_⟩
  · have := Socket.noFail_slow r.framing.encode
    simpa [Socket.NoFail] using this
  · rw [Response.slowly, Socket.bytes_push, Socket.bytes_wouldBlock, Socket.bytes_slow, Response.stream]

theorem encode_cons (h : Head) : ∃ b bs, h.encode = b :: bs := by
  refine List.exists_cons_of_ne_nil fun hnil => ?_
  have := congrArg List.length hnil
  simp [Head.encode, crlf] at this

theorem statusReady_slowly (r : Response) : r.StatusReady r.slowly := by
  obtain ⟨b, bs, hb⟩ := encode_cons r.head
  have hready : r.slowly.ready = r.head.encode := by
    rw [Response.slowly, hb, Socket.push, Socket.ready]
    simp [Socket.burst]
  rw [Response.StatusReady, hready]
  simp only [Head.encode, List.length_append, show crlf.length = 2 from rfl]
  omega

/-- What is delivered when it comes slowly is decodable. -/
theorem decodable_of_slowly (hcd : cd.Fresh) (hsizes : ∀ n ∈ r.framing.sizes, n < 2147483648)
    (hdel : Delivers code cd (some r.slowly) r.framing.body) : r.Decodable := by
  obtain ⟨b, bs, hb⟩ := encode_cons r.head
  obtain ⟨data, s₁, hrecv, -, hsplit, hno, hlen, hrun⟩ := recvResponse_first code hcd (arrivesAs_slowly r)
  have hheadlen := r.fits
  obtain ⟨s₂, hburst, hbytes, -, hslow⟩ := httpclientRecv_burst (Socket.noFail_slow r.framing.encode)
    (Socket.slow_slow r.framing.encode) (by rw [← hb]; exact hheadlen : (b :: bs).length ≤ 2047)
  have hsame : r.slowly = .bytes b bs :: .wouldBlock :: Socket.slow r.framing.encode := by
    rw [Response.slowly, hb]; rfl
  rw [hsame, hburst, ← hb] at hrecv
  cases hrecv
  rw [Socket.bytes_slow] at hbytes
  have hline : r.head.status.line.length + 2 ≤ r.head.encode.length := by
    simp only [Head.encode, List.length_append, show crlf.length = 2 from rfl]; omega
  obtain ⟨data', s', hparse, hstream, hno', hlen', hsock⟩ := httpclientResponseParse_spec code hcd hno hsplit hlen hline
  obtain rfl := hsock le_rfl
  have hnil : data' = [] := by
    have := congrArg List.length hstream
    rw [List.length_append, hbytes] at this
    exact List.length_eq_zero_iff.1 (by omega)
  rw [hparse] at hrun
  have hfits : ∀ f ∈ r.head.fields, f.fits = true := by
    by_contra hnot
    rw [if_neg hnot] at hrun
    exact hdel.ne_none hrun
  rw [if_pos hfits, Option.map_map] at hrun
  have hann := r.announced
  cases hframing : r.framing with
  | length body =>
    rw [hframing] at hann
    obtain ⟨⟨f, hf, hk⟩, hall⟩ := hann
    have hint := hfits f hf
    rw [show f.fits = _ from f.all_numbers isInt, hk] at hint
    have hlt := (isInt_iff.1 hint).2
    rw [(hall f hf).2 hk] at hlt
    exact ⟨hfits, by rw [hframing]; exact_mod_cast hlt, by rw [hframing]; trivial⟩
  | chunked cs last =>
    rw [hframing] at hann hstream hsizes
    obtain ⟨ext, hext, hrem⟩ := @parsed_ext r _ hcd
    obtain ⟨h1, h2, h3⟩ := @parsed_chunked r cd _ _ hann
    have hout := retrieveContent_chunked h1 (parsed_bufLen hcd) h3 h2 hext hrem hno' hlen' hsizes hstream
    obtain ⟨hal, hsum⟩ := hout.of_delivers ⟨hslow, hnil⟩ hrun rfl hdel
    refine ⟨hfits, ?_, by rw [hframing]; exact hal⟩
    rw [hframing]
    show (chunksData cs).length < 2147483648
    rw [chunksData_length]
    exact_mod_cast hsum

/-- **The responses that are delivered.** One whose status line does not come at once is not; the others
are, in whatever way they arrive, exactly if they are decodable. -/
theorem httpclientRecvResponse_delivers (r : Response) (code : Int) (hcd : cd.Fresh)
    (hsizes : ∀ n ∈ r.framing.sizes, n < 2147483648) :
    (∀ s, r.ArrivesAs s → ¬ r.StatusReady s → ¬ Delivers code cd (some s) r.framing.body) ∧
    ((∀ s, r.ArrivesAs s → r.StatusReady s → Delivers code cd (some s) r.framing.body) ↔ r.Decodable) := by
  refine ⟨fun s hs hready => not_delivers_split hcd hs hready, fun h => ?_, fun hdec s hs hready => ?_⟩
  · exact decodable_of_slowly hcd hsizes (h _ (arrivesAs_slowly r) (statusReady_slowly r))
  · exact hdec.delivers hcd hs hready

end

theorem freshData_fresh : freshData.Fresh := ⟨rfl, rfl, ⟨{}, rfl, rfl⟩⟩

/-- Three bytes of known length. -/
def threeBytes : Response where
  head := ⟨statusOk, [lengthThree]⟩
  framing := .length (bytes "abc")
  regular := by simpa using lengthThree_regular
  announced := ⟨⟨lengthThree, by simp, by decide +kernel⟩, by
    intro f hf
    obtain rfl := List.mem_singleton.1 hf
    exact ⟨by decide +kernel, fun _ => by decide +kernel⟩⟩
  fits := by decide +kernel

theorem httpclientRecvResponse_delivers_three :
    Delivers 0 freshData (some [.bytes 72 (bytes "TTP/1.1 200 OK\r\nCon"), .wouldBlock,
      .bytes 116 (bytes "ent-Length: 3\r\n\r\na"), .bytes 98 [99]]) (bytes "abc") := by
  have hdec : threeBytes.Decodable := ⟨by decide +kernel, by decide +kernel, trivial⟩
  exact (httpclientRecvResponse_delivers threeBytes 0 freshData_fresh (by simp [threeBytes, BodyFraming.sizes])).2.2 hdec
    _ ⟨by simp [Socket.NoFail], by decide +kernel⟩ (by unfold Response.StatusReady; decide +kernel)

/-- `Transfer-Encoding: chunked`. -/
def chunkedCodingField : HeadField :=
  ⟨bytes "Transfer-Encoding", bytes "chunked", by decide +kernel, by decide +kernel, by decide +kernel⟩

theorem chunkedCodingField_regular : chunkedCodingField.Regular := ⟨trivial, fun h => absurd h (by decide +kernel)⟩

/-- A chunk of a block's size. -/
def blockChunk : Chunk where
  size := bytes "800"
  data := List.replicate 2048 97
  size_ne := by decide +kernel
  size_hex := by decide +kernel
  size_val := by rw [List.length_replicate]; decide +kernel
  size_fits := by decide +kernel
  data_ne := by rw [ne_eq, List.replicate_eq_nil_iff]; decide

def oneBlock : Response where
  head := ⟨statusOk, [chunkedCodingField]⟩
  framing := .chunked [blockChunk]
    ⟨bytes "0", crlf, by decide +kernel, by decide +kernel, by decide +kernel, by decide +kernel, by decide +kernel⟩
  regular := by simpa using chunkedCodingField_regular
  announced := ⟨⟨chunkedCodingField, by simp, by decide +kernel⟩, by
    intro f hf
    obtain rfl := List.mem_singleton.1 hf
    exact ⟨by decide +kernel, fun _ => by decide +kernel⟩⟩
  fits := by decide +kernel

/-- **A chunk that ends with its block** is not delivered when it comes slowly: the line end behind it is
read as a size line. -/
theorem oneBlock_not_delivered : oneBlock.ArrivesAs oneBlock.slowly ∧ oneBlock.StatusReady oneBlock.slowly ∧
    ¬ Delivers 0 freshData (some oneBlock.slowly) oneBlock.framing.body := by
  refine ⟨arrivesAs_slowly _, statusReady_slowly _, fun hdel => ?_⟩
  have hsizes : oneBlock.framing.sizes = [2048] := by
    show [blockChunk.data.length] = [2048]
    rw [show blockChunk.data.length = 2048 from List.length_replicate]
  obtain ⟨-, -, hal⟩ := decodable_of_slowly freshData_fresh (by rw [hsizes]; simp) hdel
  rw [hsizes] at hal
  exact hal.1 (by decide)

end AudioPlayer

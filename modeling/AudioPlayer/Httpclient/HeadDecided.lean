import Mathlib
import AudioPlayer.Lib.Updates
import AudioPlayer.Httpclient.Head

/-!
# Which heads the parser takes for what they say

`Head.Decided` is what a head says: each field by its whole name, and nothing depends on the order of the
fields. `httpclientParseHead_decided` gives the heads for which the parser finds that, among those whose
field names are known in full or abbreviate no known one: `Head.Plain`. What can go wrong:

- the status line did not come with the first `recv`;
- a value before `chunked` hides it, or a part of `chunked` is taken for it;
- a nonzero `Content-Length` behind the last `Transfer-Encoding` is noted over it;
- `Accept-Ranges` makes a complete body count as ranged (`acceptRanges_taken_for_range`).
-/

namespace AudioPlayer
open Lib

/-- The body is chunked. -/
def Head.Chunked (h : Head) : Prop := ∃ f ∈ h.fields, f.chunked = true

instance (h : Head) : Decidable h.Chunked := inferInstanceAs (Decidable (∃ f ∈ h.fields, f.chunked = true))

/-- What the head says; `206` is the status of a reply with the requested range. -/
structure Head.Decided (h : Head) (cd cd' : HttpclientData) (ext ext' : HttpclientDataExt) : Prop where
  chunked     : cd'.isChunked = true ↔ h.Chunked
  chunked_len : h.Chunked → cd'.responseContentLen = 0 ∧ cd'.retrieveLen = 0
  length      : ¬ h.Chunked → Decides HeadField.length h.fields (-1) cd'.responseContentLen ∧
    Decides HeadField.length h.fields cd.retrieveLen cd'.retrieveLen
  isRange     : ext'.isRange = true ↔ h.status.status = 206
  rangeBeg    : Decides HeadField.rangeBeg h.fields 0 ext'.rangeBeg
  rangeEnd    : Decides HeadField.rangeEnd h.fields 0 ext'.rangeEnd
  rangeLen    : Decides HeadField.rangeLen h.fields 0 ext'.rangeLen
  ifRange     : Decides HeadField.etag h.fields ext.ifRange ext'.ifRange
  location    : Decides HeadField.location h.fields ext.location ext'.location

/-- The parser gets to the body and has decided what the head says. -/
def Head.ParsedAs (h : Head) (cd : HttpclientData) (ext : HttpclientDataExt) (body : List Byte)
    (res : Option ParsedHead) : Prop :=
  ∃ cd' ext' data s, res = some (.done h.status.status cd' data s) ∧ data ++ s.bytes = body ∧
    cd'.ext = some ext' ∧ h.Decided cd cd' ext ext'

/-- The heads that are taken for what they say when `data` is what came first. -/
structure Head.Plain (h : Head) (data : List Byte) : Prop where
  status_line : h.status.line.length + 2 ≤ data.length
  fits        : ∀ f ∈ h.fields, f.fits = true
  chunked     : (∃ f ∈ h.fields, f.takenForChunked = true) ↔ h.Chunked
  chunked_len : h.Chunked → lastOf HeadField.notedLength h.fields = some 0
  length      : ¬ h.Chunked → Agree HeadField.length h.fields
  isRange     : (∃ f ∈ h.fields, f.takenForRange = true) ↔ h.status.status = 206
  rangeBeg    : Agree HeadField.rangeBeg h.fields
  rangeEnd    : Agree HeadField.rangeEnd h.fields
  rangeLen    : Agree HeadField.rangeLen h.fields
  etag        : Agree HeadField.etag h.fields
  location    : Agree HeadField.location h.fields

section
variable {fs : List HeadField} {cd : HttpclientData} {ext : HttpclientDataExt}

/-- What is noted in `ext` depends on `ext` only. -/
theorem foldl_note_ext (hext : cd.ext = some ext) :
    (fs.foldl HttpclientData.note cd).ext = some (fs.foldl HttpclientDataExt.note ext) := by
  induction fs generalizing cd ext with
  | nil => exact hext
  | cons f fs ih => exact ih (by rw [HttpclientData.note, hext]; rfl)

theorem foldl_note_chunked :
    (fs.foldl HttpclientData.note cd).isChunked = true ↔
      cd.isChunked = true ∨ ∃ f ∈ fs, f.takenForChunked = true :=
  foldl_flag HttpclientData.isChunked (fun _ _ => rfl) cd

theorem foldl_note_isRange :
    (fs.foldl HttpclientDataExt.note ext).isRange = true ↔ ext.isRange = true ∨ ∃ f ∈ fs, f.takenForRange = true :=
  foldl_flag HttpclientDataExt.isRange (fun _ _ => rfl) ext

theorem foldl_note_contentLen : (fs.foldl HttpclientData.note cd).responseContentLen =
    (lastOf HeadField.notedLength fs).getD cd.responseContentLen :=
  foldl_lastOf HttpclientData.responseContentLen (fun _ _ => rfl) cd

theorem foldl_note_retrieveLen : (fs.foldl HttpclientData.note cd).retrieveLen =
    (lastOf HeadField.notedLength fs).getD cd.retrieveLen :=
  foldl_lastOf HttpclientData.retrieveLen (fun _ _ => rfl) cd

/-- Where no field is taken for `chunked`, the lengths are noted as given. -/
theorem lastOf_notedLength (h : ¬ ∃ f ∈ fs, f.takenForChunked = true) :
    lastOf HeadField.notedLength fs = lastOf HeadField.length fs := by
  refine lastOf_congr fun f hf => ?_
  rw [HeadField.notedLength, if_neg fun ht => h ⟨f, hf, ht⟩]

end

section
variable {h : Head} {data body : List Byte} {s : Socket} {cd : HttpclientData} {ext : HttpclientDataExt}

/-- What `ext` starts with. -/
def HttpclientDataExt.headStart (ext : HttpclientDataExt) : HttpclientDataExt :=
  { ext with rangeBeg := 0, rangeEnd := 0, rangeLen := 0, isRange := false }

/-- Each component is decided right under its own condition. -/
theorem plain_iff_decided : h.Plain data ↔ h.status.line.length + 2 ≤ data.length ∧ (∀ f ∈ h.fields, f.fits = true) ∧
    h.Decided cd (h.fields.foldl HttpclientData.note cd.headStart) ext
      (h.fields.foldl HttpclientDataExt.note ext.headStart) := by
  have hchunked : (h.fields.foldl HttpclientData.note cd.headStart).isChunked = true ↔
      ∃ f ∈ h.fields, f.takenForChunked = true := by
    simp [foldl_note_chunked, HttpclientData.headStart]
  have hrange : (h.fields.foldl HttpclientDataExt.note ext.headStart).isRange = true ↔
      ∃ f ∈ h.fields, f.takenForRange = true := by
    simp [foldl_note_isRange, HttpclientDataExt.headStart]
  have hlen : (h.fields.foldl HttpclientData.note cd.headStart).responseContentLen =
      (lastOf HeadField.notedLength h.fields).getD (-1) := foldl_note_contentLen
  have hret : (h.fields.foldl HttpclientData.note cd.headStart).retrieveLen =
      (lastOf HeadField.notedLength h.fields).getD cd.retrieveLen := foldl_note_retrieveLen
  have hbeg : (h.fields.foldl HttpclientDataExt.note ext.headStart).rangeBeg =
      (lastOf HeadField.rangeBeg h.fields).getD 0 := foldl_lastOf HttpclientDataExt.rangeBeg (fun _ _ => rfl) _
  have hend : (h.fields.foldl HttpclientDataExt.note ext.headStart).rangeEnd =
      (lastOf HeadField.rangeEnd h.fields).getD 0 := foldl_lastOf HttpclientDataExt.rangeEnd (fun _ _ => rfl) _
  have hrlen : (h.fields.foldl HttpclientDataExt.note ext.headStart).rangeLen =
      (lastOf HeadField.rangeLen h.fields).getD 0 := foldl_lastOf HttpclientDataExt.rangeLen (fun _ _ => rfl) _
  have hetag : (h.fields.foldl HttpclientDataExt.note ext.headStart).ifRange =
      (lastOf HeadField.etag h.fields).getD ext.ifRange := foldl_lastOf HttpclientDataExt.ifRange (fun _ _ => rfl) _
  have hloc : (h.fields.foldl HttpclientDataExt.note ext.headStart).location =
      (lastOf HeadField.location h.fields).getD ext.location := foldl_lastOf HttpclientDataExt.location (fun _ _ => rfl) _
  constructor
  · intro hp
    refine ⟨hp.status_line, hp.fits, hchunked.trans hp.chunked, fun hc => ?_, fun hc => ?_, hrange.trans hp.isRange,
      ?_, ?_, ?_, ?_, ?_⟩
    · rw [hlen, hret, hp.chunked_len hc]
      exact ⟨rfl, rfl⟩
    · have hnone := lastOf_notedLength fun ht => hc (hp.chunked.1 ht)
      rw [hlen, hret, hnone]
      exact ⟨decides_lastOf.2 (hp.length hc), decides_lastOf.2 (hp.length hc)⟩
    · rw [hbeg]; exact decides_lastOf.2 hp.rangeBeg
    · rw [hend]; exact decides_lastOf.2 hp.rangeEnd
    · rw [hrlen]; exact decides_lastOf.2 hp.rangeLen
    · rw [hetag]; exact decides_lastOf.2 hp.etag
    · rw [hloc]; exact decides_lastOf.2 hp.location
  · rintro ⟨hline, hfits, hd⟩
    have hch := hchunked.symm.trans hd.chunked
    refine ⟨hline, hfits, hch, fun hc => ?_, fun hc => ?_, hrange.symm.trans hd.isRange, ?_, ?_, ?_, ?_, ?_⟩
    · have h0 := (hd.chunked_len hc).1
      rw [hlen] at h0
      cases hl : lastOf HeadField.notedLength h.fields with
      | none => rw [hl] at h0; exact absurd h0 (by decide)
      | some n => rw [hl] at h0; exact congrArg some h0
    · have hnone := lastOf_notedLength fun ht => hc (hch.1 ht)
      have hdec := (hd.length hc).1
      rw [hlen, hnone] at hdec
      exact decides_lastOf.1 hdec
    · exact decides_lastOf.1 (hbeg ▸ hd.rangeBeg)
    · exact decides_lastOf.1 (hend ▸ hd.rangeEnd)
    · exact decides_lastOf.1 (hrlen ▸ hd.rangeLen)
    · exact decides_lastOf.1 (hetag ▸ hd.ifRange)
    · exact decides_lastOf.1 (hloc ▸ hd.location)

/-- **The parser decides what the head says exactly for the plain heads**, however the bytes arrive. -/
theorem httpclientParseHead_decided {code : Int} (hext : cd.ext = some ext) (hs : s.NoFail)
    (hwf : ∀ f ∈ h.fields, f.WellFormed) (hnamed : ∀ f ∈ h.fields, f.NamedInFull)
    (hsplit : data ++ s.bytes = h.encode ++ body) (hfits : h.encode.length ≤ 2047) (hlen : data.length ≤ 2047) :
    h.ParsedAs cd ext body (httpclientParseHead code data cd s) ↔ h.Plain data := by
  have hreg : ∀ f ∈ h.fields, f.Regular := fun f hf => ⟨hwf f hf, hnamed f hf⟩
  rw [plain_iff_decided]
  have hext' : (h.fields.foldl HttpclientData.note cd.headStart).ext =
      some (h.fields.foldl HttpclientDataExt.note ext.headStart) :=
    foldl_note_ext (by rw [HttpclientData.headStart, hext]; rfl)
  rcases httpclientParseHead_spec code hext hs hreg hsplit hfits hlen with
    ⟨hline, data', s', hrun, hbody, -⟩ | ⟨hline, cd', hrun⟩
  · rw [hrun]
    by_cases hall : ∀ f ∈ h.fields, f.fits = true
    · rw [if_pos hall]
      constructor
      · rintro ⟨cd', ext', data'', s'', heq, -, hcd, hd⟩
        cases heq
        obtain rfl := Option.some.inj (hext'.symm.trans hcd)
        exact ⟨hline, hall, hd⟩
      · rintro ⟨-, -, hd⟩
        exact ⟨_, _, data', s', rfl, hbody, hext', hd⟩
    · rw [if_neg hall]
      constructor
      · rintro ⟨cd', ext', data'', s'', heq, -⟩
        cases heq
      · rintro ⟨-, h2, -⟩
        exact absurd h2 hall
  · rw [hrun]
    constructor
    · rintro ⟨cd', ext', data'', s'', heq, -⟩
      cases heq
    · rintro ⟨h1, -⟩
      omega

theorem isDigit_one : isDigit 49 := by decide +kernel

/-- `HTTP/1.1 200 OK`. -/
def statusOk : StatusLine where
  major := 49
  minor := 49
  code := bytes "200"
  reason := bytes "OK"
  major_ok := isDigit_one
  minor_ok := isDigit_one
  code_len := by decide +kernel
  code_ok := by decide +kernel
  reason_ok := by decide +kernel

/-- `Content-Length: 3`. -/
def lengthThree : HeadField := ⟨bytes "Content-Length", bytes "3", by decide +kernel, by decide +kernel, by decide +kernel⟩

/-- `Accept-Ranges: bytes`. -/
def acceptRangesBytes : HeadField := ⟨bytes "Accept-Ranges", bytes "bytes", by decide +kernel, by decide +kernel, by decide +kernel⟩

/-- What the download starts a response with. -/
def freshData : HttpclientData := { responseBufLen := 2049, ext := some {} }

theorem lengthThree_regular : lengthThree.Regular := ⟨⟨by decide +kernel, by decide +kernel⟩, fun h => absurd h (by decide +kernel)⟩

theorem acceptRangesBytes_regular : acceptRangesBytes.Regular := ⟨trivial, fun h => absurd h (by decide +kernel)⟩

/-- `HTTP/1.1 206 Partial Content`. -/
def statusPartial : StatusLine where
  major := 49
  minor := 49
  code := bytes "206"
  reason := bytes "Partial Content"
  major_ok := isDigit_one
  minor_ok := isDigit_one
  code_len := by decide +kernel
  code_ok := by decide +kernel
  reason_ok := by decide +kernel

/-- `Content-Range: bytes 2-4/10`. -/
def rangeThree : HeadField :=
  ⟨bytes "Content-Range", bytes "bytes 2-4/10", by decide +kernel, by decide +kernel, by decide +kernel⟩

theorem rangeThree_regular : rangeThree.Regular := by
  have htwo : Digits (bytes "2") := ⟨by decide +kernel, by decide +kernel⟩
  have hfour : Digits (bytes "4") := ⟨by decide +kernel, by decide +kernel⟩
  have hten : Digits (bytes "10") := ⟨by decide +kernel, by decide +kernel⟩
  exact ⟨⟨_, _, _, .full htwo hfour hten⟩, fun h => absurd h (by decide +kernel)⟩

/-- `Server: mini`, which says nothing about the body. -/
def serverMini : HeadField := ⟨bytes "Server", bytes "mini", by decide +kernel, by decide +kernel, by decide +kernel⟩

theorem serverMini_regular : serverMini.Regular := by
  refine ⟨trivial, fun _ k => ?_⟩
  cases k <;> decide +kernel

/-- Bytes 2 to 4 of ten, with the status line and a half in the first `recv`. -/
theorem httpclientParseHead_decided_range :
    (Head.mk statusPartial [serverMini, rangeThree, lengthThree]).ParsedAs freshData {} (bytes "cde")
      (httpclientParseHead 0 (bytes "HTTP/1.1 206 Partial Content\r\nServer: mi") freshData
        [.bytes 110 (bytes "i\r\nContent-Range: bytes 2-4/10\r\nContent-Len"),
          .bytes 103 (bytes "th: 3\r\n\r\ncde")]) := by
  have hregular : ∀ f ∈ [serverMini, rangeThree, lengthThree], f.Regular := by
    simp only [List.forall_mem_cons, List.not_mem_nil, false_implies, implies_true, and_true]
    exact ⟨serverMini_regular, rangeThree_regular, lengthThree_regular⟩
  refine (httpclientParseHead_decided rfl (by simp [Socket.NoFail]) (fun f hf => (hregular f hf).wellFormed)
    (fun f hf => (hregular f hf).named) (by decide +kernel) (by decide +kernel) (by decide +kernel)).2 ?_
  exact {
    status_line := by decide +kernel
    fits := by decide +kernel
    chunked := by decide +kernel
    chunked_len := by decide +kernel
    length := fun _ => agree_of_said (v := 3) (by decide +kernel)
    isRange := by decide +kernel
    rangeBeg := agree_of_said (v := 2) (by decide +kernel)
    rangeEnd := agree_of_said (v := 4) (by decide +kernel)
    rangeLen := agree_of_said (v := 10) (by decide +kernel)
    etag := agree_of_said (v := []) (by decide +kernel)
    location := agree_of_said (v := []) (by decide +kernel) }

/-- **`Accept-Ranges` turns a complete reply into a ranged one.** -/
theorem acceptRanges_taken_for_range : (∀ f ∈ [acceptRangesBytes, lengthThree], f.Regular) ∧
    ¬ (Head.mk statusOk [acceptRangesBytes, lengthThree]).ParsedAs freshData {} (bytes "abc")
      (httpclientParseHead 0 ((Head.mk statusOk [acceptRangesBytes, lengthThree]).encode ++ bytes "abc") freshData []) := by
  have hrun : httpclientParseHead 0 ((Head.mk statusOk [acceptRangesBytes, lengthThree]).encode ++ bytes "abc") freshData
      [] = some (.done 200 { freshData with retrieveLen := 3, responseContentLen := 3, ext := some { isRange := true } }
        (bytes "abc") []) := by
    decide +kernel
  refine ⟨?_, ?_⟩
  · simp only [List.forall_mem_cons, List.not_mem_nil, false_implies, implies_true, and_true]
    exact ⟨acceptRangesBytes_regular, lengthThree_regular⟩
  · rw [hrun]
    rintro ⟨cd', ext', data, s, heq, -, hext, hd⟩
    cases heq
    cases hext
    exact absurd (hd.isRange.1 rfl) (by decide +kernel)

end

end AudioPlayer

import Mathlib
import AudioPlayer.Httpclient.Response
import AudioPlayer.HttpDownload.Process

/-!
# The location a response gives (`utils/httpclient.c:957-1049`)

What a call that does not fail leaves in `ext->location`, whatever else is in the head and however the bytes arrive:
`httpclientRecvResponse_location`. A name is compared over its own length, so `L: v` is a location too; a value of
`HTTPCLIENT_LOCATION_SIZE` bytes or more is left out.
-/

namespace AudioPlayer
open Lib

/-! ## What `recv` takes -/

section
variable {s s' : Socket} {bs out buf : List Byte} {block : Bool} {n minLen maxLen fuel : Nat} {ret : HttpclientResult}

/-- What `recv` gives is taken off, and it is no more than asked for. -/
theorem recv_got (h : recv block n s = (.got bs, s')) : bs ++ s'.bytes = s.bytes ∧ bs.length ≤ n := by
  induction s with
  | nil =>
    cases h
    exact ⟨rfl, Nat.zero_le _⟩
  | cons e s ih =>
    cases e with
    | bytes b bs' =>
      cases h
      refine ⟨?_, List.length_take_le _ _⟩
      rw [Socket.bytes_push, ← List.append_assoc, List.take_append_drop, Socket.bytes_bytes]
    | wouldBlock =>
      cases block with
      | true => exact ih h
      | false => cases h
    | fail => cases h

theorem recv_wouldBlock (h : recv false n s = (.wouldBlock, s')) : s'.bytes = s.bytes := by
  cases s with
  | nil => cases h
  | cons e s => cases e <;> first | (cases h; rfl) | cases h

/-- What is read is taken off, unless the connection fails; `ok` means that it is enough. -/
theorem httpclientRecvLoop_taken (hle : minLen ≤ maxLen) (hbuf : buf.length ≤ maxLen) (hfuel : maxLen ≤ buf.length + fuel)
    (h : httpclientRecvLoop minLen maxLen fuel buf s = (ret, out, s')) :
    out.length ≤ maxLen ∧ (ret = .errorConn ∨ (ret = .ok ∧ minLen ≤ out.length ∨ ret = .closed) ∧
      out ++ s'.bytes = buf ++ s.bytes) := by
  induction fuel generalizing buf s with
  | zero =>
    cases h
    exact ⟨hbuf, .inr ⟨.inl ⟨rfl, by omega⟩, rfl⟩⟩
  | succ fuel ih =>
    -- bytes that come are a turn of the loop
    have hmore : ∀ {block k b bs t}, k ≤ maxLen - buf.length → recv block k s = (.got (b :: bs), t) →
        httpclientRecvLoop minLen maxLen fuel (buf ++ b :: bs) t = (ret, out, s') →
        out.length ≤ maxLen ∧ (ret = .errorConn ∨ (ret = .ok ∧ minLen ≤ out.length ∨ ret = .closed) ∧
          out ++ s'.bytes = buf ++ s.bytes) := by
      intro block k b bs t hk hrecv hloop
      obtain ⟨hbytes, hlen⟩ := recv_got hrecv
      have hlen' := @List.length_cons _ b bs
      obtain ⟨hout, hend⟩ := ih (by rw [List.length_append]; omega) (by rw [List.length_append]; omega) hloop
      rw [List.append_assoc, hbytes] at hend
      exact ⟨hout, hend⟩
    unfold httpclientRecvLoop at h
    split at h
    · rename_i hroom
      split at h
      · rename_i hmin
        split at h
        · rename_i t hrecv
          cases h
          refine ⟨hbuf, .inr ⟨.inr rfl, ?_⟩⟩
          rw [← (recv_got hrecv).1, List.nil_append]
        · rename_i bs t hne hrecv
          cases bs with
          | nil => exact absurd rfl hne
          | cons b bs => exact hmore (by omega) hrecv h
        · cases h
          exact ⟨hbuf, .inl rfl⟩
      · rename_i hmin
        split at h
        · rename_i t hrecv
          cases h
          exact ⟨hbuf, .inr ⟨.inl ⟨rfl, by omega⟩, by rw [recv_wouldBlock hrecv]⟩⟩
        · rename_i t hrecv
          cases h
          refine ⟨hbuf, .inr ⟨.inl ⟨rfl, by omega⟩, ?_⟩⟩
          rw [← (recv_got hrecv).1, List.nil_append]
        · rename_i bs t hne hrecv
          cases bs with
          | nil => exact absurd rfl hne
          | cons b bs => exact hmore (by omega) hrecv h
        · cases h
          exact ⟨hbuf, .inl rfl⟩
    · rename_i hroom
      cases h
      exact ⟨hbuf, .inr ⟨.inl ⟨rfl, by omega⟩, rfl⟩⟩

theorem httpclientRecv_taken (hle : minLen ≤ maxLen) (h : httpclientRecv minLen maxLen s = (ret, out, s')) :
    out.length ≤ maxLen ∧ (ret = .errorConn ∨ (ret = .ok ∧ minLen ≤ out.length ∨ ret = .closed) ∧
      out ++ s'.bytes = s.bytes) :=
  httpclientRecvLoop_taken hle (Nat.zero_le _) (Nat.le_add_left _ _) h

end

/-! ## What a field does -/

/-- The name is taken for `Location`. -/
def HeadField.NamesLocation (f : HeadField) : Prop := caseEq f.name (locationName.take f.name.length)

instance (f : HeadField) : Decidable f.NamesLocation := inferInstanceAs (Decidable (caseEq _ _))

/-- The location it makes the parser note. -/
def HeadField.notedLocation (f : HeadField) : Option (List Byte) :=
  if f.NamesLocation ∧ f.value.length < httpclientLocationSize then some f.value else none

/-- `ext->location` of the block that is there. -/
def HttpclientData.location (cd : HttpclientData) : Option (List Byte) := cd.ext.map HttpclientDataExt.location

section
variable {f : HeadField} {k : FieldKind} {cd cd' : HttpclientData} {t : List Byte}

/-- No name is taken for two of the known ones, one of them `Location`. -/
theorem FieldKind.not_location (hk : k ≠ .location) (h : caseEq f.name (k.name.take f.name.length)) :
    ¬ f.NamesLocation := by
  intro hloc
  have hheads : caseEq (k.name.take f.name.length) (locationName.take f.name.length) := h.symm.trans hloc
  obtain ⟨b, bs, hname⟩ := List.exists_cons_of_ne_nil f.name_ne
  rw [hname, List.length_cons] at hheads
  have hhead := congrArg List.head? hheads
  rw [List.head?_map, List.head?_map, List.head?_take, List.head?_take, if_neg (Nat.succ_ne_zero _),
    if_neg (Nat.succ_ne_zero _)] at hhead
  revert hhead
  cases k <;> first | exact absurd rfl hk | decide

theorem httpclientContentRange_location {value : List Byte} {ext ext' : HttpclientDataExt}
    (h : httpclientContentRange value ext = some ext') : ext'.location = ext.location := by
  unfold httpclientContentRange at h
  obtain ⟨rangeBeg, -, h⟩ := Option.bind_eq_some_iff.1 h
  obtain ⟨rangeEnd, -, h⟩ := Option.bind_eq_some_iff.1 h
  obtain ⟨rangeLen, -, h⟩ := Option.bind_eq_some_iff.1 h
  cases h
  rfl

/-- A field changes the location if its name is taken for `Location`, and to its value. -/
theorem httpclientField_location (h : httpclientField cd (f.line ++ (crlf ++ t)) f.name.length f.value.length = some cd') :
    cd'.location = cd.location.map f.notedLocation.getD := by
  have htaken := @strncasecmp0_name f (crlf ++ t)
  have hkeep : ∀ k : FieldKind, k ≠ .location → strncasecmp0 (f.line ++ (crlf ++ t)) k.name f.name.length = true →
      f.notedLocation = none := by
    intro k hk hname
    rw [htaken, decide_eq_true_eq] at hname
    exact if_neg fun hn => FieldKind.not_location hk hname hn.1
  have hsame : cd.location.map (none : Option (List Byte)).getD = cd.location := Option.map_id'
  simp only [httpclientField, f.drop_value] at h
  split at h
  · rename_i hname
    rw [hkeep .contentLength (by decide) hname, hsame]
    obtain ⟨n, -, h⟩ := Option.bind_eq_some_iff.1 h
    cases h
    rfl
  split at h
  · rename_i hname
    rw [hkeep .transferEncoding (by decide) hname, hsame]
    split at h <;> (cases h; rfl)
  split at h
  · rename_i hname
    have hnone : f.notedLocation = none := by
      rcases Bool.or_eq_true_iff.1 hname with haccept | hrange
      · exact hkeep .acceptRanges (by decide) haccept
      · exact hkeep .contentRange (by decide) hrange
    rw [hnone, hsame]
    cases hext : cd.ext with
    | none =>
      rw [hext] at h
      cases h
      rfl
    | some ext =>
      rw [hext] at h
      unfold HttpclientData.location
      dsimp only at h
      split at h
      · obtain ⟨ext', hrange, h⟩ := Option.bind_eq_some_iff.1 h
        cases h
        have hkept := httpclientContentRange_location hrange
        rw [hext]
        exact congrArg some hkept
      · cases h
        rw [hext]
        rfl
  split at h
  · rename_i hname
    rw [hkeep .etag (by decide) hname, hsame]
    cases hext : cd.ext with
    | none =>
      rw [hext] at h
      cases h
      rfl
    | some ext =>
      rw [hext] at h
      unfold HttpclientData.location
      dsimp only at h
      split at h
      · obtain ⟨ifRange, -, h⟩ := Option.bind_eq_some_iff.1 h
        cases h
        rw [hext]
        rfl
      · cases h
        rfl
  have hloc := htaken .location
  rw [show FieldKind.location.name = locationName from rfl] at hloc
  rw [hloc] at h
  unfold HttpclientData.location HeadField.notedLocation
  split at h
  · rename_i hname
    rw [decide_eq_true_eq] at hname
    cases hext : cd.ext with
    | none =>
      rw [hext] at h
      cases h
      rw [hext]
      rfl
    | some ext =>
      rw [hext] at h
      dsimp only at h
      split at h
      · rename_i hlen
        rw [copyValue_append] at h
        cases h
        rw [if_pos ⟨hname, by omega⟩]
        rfl
      · rename_i hlen
        cases h
        rw [hext, if_neg fun hn => hlen (by omega)]
        rfl
  · rename_i hname
    rw [decide_eq_true_eq] at hname
    cases h
    rw [if_neg fun hn => hname hn.1]
    exact Option.map_id'.symm

end

/-! ## What the head does -/

section
variable {fs : List HeadField} {cd cd' : HttpclientData} {data body : List Byte} {s s' : Socket} {code code' : Int}
  {fuel : Nat} {parsed : ParsedHead} {h : Head} {expired : Socket → Bool} {ret : HttpclientResult} {ext : HttpclientDataExt}

/-- What the parser says of the fields `fs`: it fails, or has noted the last location. -/
def ParsedHead.Notes (fs : List HeadField) (cd : HttpclientData) : ParsedHead → Prop
  | .ret ret _ _ _ => ret.failed = true
  | .done _ cd' _ _ => cd'.location = cd.location.map (lastOf HeadField.notedLocation fs).getD

/-- Where a line has not come in full, more of it is read, or the call fails. -/
theorem httpclientHeaders_waits (hnone : strstr crlf (cstr data) = none) (hlen : data.length ≤ 2047)
    (hrun : httpclientHeaders code (fuel + 1) cd data s = some parsed) :
    (∃ ret cd' s', parsed = .ret ret code cd' s' ∧ ret.failed = true) ∨
      ∃ new s', new ++ s'.bytes = s.bytes ∧ (data ++ new).length ≤ 2047 ∧
        httpclientHeaders code fuel cd (data ++ new) s' = some parsed := by
  unfold httpclientHeaders at hrun
  rw [hnone] at hrun
  dsimp only at hrun
  split at hrun
  · rename_i hroom
    have hroom' : data.length < 2047 := hroom
    have hmax : httpclientChunkSize - data.length - 1 = 2047 - data.length := by
      have : httpclientChunkSize = 2048 := rfl
      omega
    rw [hmax] at hrun
    obtain ⟨ret, new, s', hrecv⟩ : ∃ ret new s', httpclientRecv 1 (2047 - data.length) s = (ret, new, s') := ⟨_, _, _, rfl⟩
    obtain ⟨hnew, hend⟩ := httpclientRecv_taken (by omega) hrecv
    rw [hrecv] at hrun
    dsimp only at hrun
    split at hrun
    · rename_i hret
      cases hrun
      refine .inl ⟨_, _, _, rfl, ?_⟩
      rcases hret with rfl | ⟨rfl, -⟩ <;> rfl
    · rename_i hret
      refine .inr ⟨new, s', ?_, by rw [List.length_append]; omega, hrun⟩
      rcases hend with hfail | ⟨-, hbytes⟩
      · exact absurd (.inl hfail) hret
      · exact hbytes
  · cases hrun
    exact .inl ⟨_, _, _, rfl, rfl⟩

/-- The fields are noted one after the other. Induction on the turns. -/
theorem httpclientHeaders_notes (hdata : data ++ s.bytes = encodeFields fs ++ body) (hlen : data.length ≤ 2047)
    (hrun : httpclientHeaders code fuel cd data s = some parsed) : parsed.Notes fs cd := by
  induction fuel generalizing fs data s cd with
  | zero => cases hrun
  | succ fuel ih =>
    cases fs with
    | nil =>
      rcases @strstr_line [] data s.bytes body (by simp) (by simp) hdata with ⟨t, rfl, ht, -⟩ | ⟨-, hnone⟩
      · rw [List.nil_append, httpclientHeaders_end] at hrun
        cases hrun
        exact Option.map_id'.symm
      · rcases httpclientHeaders_waits hnone hlen hrun with ⟨ret, cd', s', rfl, hret⟩ | ⟨new, s', hnew, hlen', hrun'⟩
        · exact hret
        · exact ih (by rw [List.append_assoc, hnew, hdata]) hlen' hrun'
    | cons f fs =>
      rw [encodeFields_cons, List.append_assoc _ _ body] at hdata
      rcases strstr_line f.line_no_cr f.line_no_nul hdata with ⟨t, rfl, ht, hpos⟩ | ⟨-, hnone⟩
      · have hcstr : cstr (f.line ++ crlf ++ t) = f.line ++ (crlf ++ cstr t) := by
          rw [List.append_assoc, cstr_append f.line_no_nul, cstr_append (by decide)]
        have hne : ¬ f.line.length = 0 := by
          rw [f.length_line]
          omega
        have hval : ((f.line.length : Int) - f.name.length - 2) = f.value.length := by
          rw [f.length_line]
          push_cast
          omega
        have hdrop : (f.line ++ crlf ++ t).drop (f.line.length + 2) = t := by
          rw [← show (f.line ++ crlf).length = f.line.length + 2 by simp [crlf], List.drop_left]
        unfold httpclientHeaders at hrun
        rw [hpos] at hrun
        dsimp only at hrun
        rw [if_neg hne, hcstr, f.strstr_colon] at hrun
        dsimp only at hrun
        rw [hval, hdrop] at hrun
        obtain ⟨cd₁, hfield, hrun⟩ := Option.bind_eq_some_iff.1 hrun
        have hloc := httpclientField_location hfield
        have hnotes := ih ht (by simp only [List.length_append] at hlen; omega) hrun
        cases parsed with
        | ret ret code cd' s' => exact hnotes
        | done code cd' data' s' =>
          simp only [ParsedHead.Notes] at hnotes ⊢
          rw [hnotes, hloc, lastOf, Option.map_map]
          cases lastOf HeadField.notedLocation fs <;> rfl
      · rcases httpclientHeaders_waits hnone hlen hrun with ⟨ret, cd', s', rfl, hret⟩ | ⟨new, s', hnew, hlen', hrun'⟩
        · exact hret
        · refine ih ?_ hlen' hrun'
          rw [List.append_assoc, hnew, hdata, encodeFields_cons, List.append_assoc _ _ body]

theorem httpclientParseHead_notes (hdata : data ++ s.bytes = h.encode ++ body) (hlen : data.length ≤ 2047)
    (hrun : httpclientParseHead code data cd s = some parsed) : parsed.Notes h.fields cd := by
  rw [Head.encode, List.append_assoc _ _ body] at hdata
  have hstart : ∀ b cdl, HttpclientData.location { cd with
      responseContentLen := cdl, isChunked := b
      ext := cd.ext.map fun ext => { ext with rangeBeg := 0, rangeEnd := 0, rangeLen := 0, isRange := false } } =
      cd.location := by
    intro b cdl
    unfold HttpclientData.location
    cases cd.ext <;> rfl
  unfold httpclientParseHead at hrun
  dsimp only at hrun
  rcases strstr_line h.status.line_no_cr h.status.line_no_nul hdata with ⟨t, rfl, ht, hpos⟩ | ⟨-, hnone⟩
  · have htake : (h.status.line ++ crlf ++ t).take h.status.line.length = h.status.line := by
      rw [List.append_assoc, List.take_left]
    have hdrop : (h.status.line ++ crlf ++ t).drop (h.status.line.length + 2) = t := by
      rw [← show (h.status.line ++ crlf).length = h.status.line.length + 2 by simp [crlf], List.drop_left]
    rw [hpos] at hrun
    dsimp only at hrun
    rw [htake, h.status.scan] at hrun
    dsimp only at hrun
    rw [hdrop] at hrun
    obtain ⟨code₁, -, hrun⟩ := Option.bind_eq_some_iff.1 hrun
    have hnotes := httpclientHeaders_notes ht (by simp only [List.length_append] at hlen; omega) hrun
    cases parsed with
    | ret ret code cd' s' => exact hnotes
    | done code cd' data' s' =>
      simp only [ParsedHead.Notes] at hnotes ⊢
      rw [hnotes, hstart]
  · rw [hnone] at hrun
    cases hrun
    rfl

end

/-! ## What the body does -/

/-- `client_data` when the next length to read is known. -/
def ReadLen.noted : ReadLen → HttpclientData
  | .read cd _ _ _ => cd
  | .ret res => res.2.1

/-- `client_data` when a piece of the body has been read. -/
def RetrieveBody.noted : RetrieveBody → HttpclientData
  | .done cd _ _ _ => cd
  | .ret res => res.2.1

section
variable {cd cd' : HttpclientData} {data out body : List Byte} {s s' : Socket} {code code' : Int} {fuel readLen : Nat}
  {h : Head} {expired : Socket → Bool} {ret : HttpclientResult}

theorem location_lengths (cd : HttpclientData) (retrieveLen responseContentLen : Int) :
    HttpclientData.location { cd with retrieveLen, responseContentLen } = cd.location := rfl

theorem httpclientReadLen_location {res : ReadLen} (hrun : httpclientReadLen cd out data s = some res) :
    res.noted.location = cd.location := by
  unfold httpclientReadLen at hrun
  split at hrun
  · obtain ⟨header, -, hrun⟩ := Option.bind_eq_some_iff.1 hrun
    cases header with
    | ret ret s =>
      cases hrun
      rfl
    | found line data s =>
      dsimp only at hrun
      split at hrun
      · cases hrun
        rfl
      split at hrun
      · cases hrun
      obtain ⟨len, -, hrun⟩ := Option.bind_eq_some_iff.1 hrun
      split at hrun
      · cases hrun
        simp only [ReadLen.noted, httpclientFinish, HttpclientData.location, Option.map_map]
        rfl
      · cases hrun
        exact location_lengths cd _ _
  · cases hrun
    rfl

theorem httpclientRetrieveBody_location {res : RetrieveBody}
    (hrun : httpclientRetrieveBody expired fuel cd out data readLen s = some res) :
    res.noted.location = cd.location := by
  induction fuel generalizing cd out data readLen s with
  | zero => cases hrun
  | succ fuel ih =>
    unfold httpclientRetrieveBody at hrun
    split at hrun
    · cases hrun
      rfl
    dsimp only at hrun
    split at hrun
    · obtain ⟨len, -, hrun⟩ := Option.bind_eq_some_iff.1 hrun
      split at hrun
      · cases hrun
        rfl
      split at hrun
      · cases hrun
        rfl
      · have hkept := ih hrun
        exact hkept
    · obtain ⟨len, -, hrun⟩ := Option.bind_eq_some_iff.1 hrun
      cases hrun
      simp only [RetrieveBody.noted, HttpclientData.location, Option.map_map]
      refine Option.map_congr fun ext _ => ?_
      dsimp only [Function.comp]
      split <;> rfl

theorem httpclientRetrieveLoop_location (hrun : httpclientRetrieveLoop expired fuel cd out data s = some (ret, cd', s')) :
    cd'.location = cd.location := by
  induction fuel generalizing cd out data s with
  | zero => cases hrun
  | succ fuel ih =>
    unfold httpclientRetrieveLoop at hrun
    obtain ⟨next, hnext, hrun⟩ := Option.bind_eq_some_iff.1 hrun
    have hkept := httpclientReadLen_location hnext
    cases next with
    | ret res =>
      cases hrun
      exact hkept
    | read cd₁ data₁ readLen s₁ =>
      obtain ⟨done, hdone, hrun⟩ := Option.bind_eq_some_iff.1 hrun
      have hkept' := (httpclientRetrieveBody_location hdone).trans hkept
      cases done with
      | ret res =>
        cases hrun
        exact hkept'
      | done cd₂ out₂ data₂ s₂ =>
        dsimp only at hrun
        split at hrun
        · cases hend : httpclientChunkEnd cd₂.responseBufLen out₂ data₂ s₂ with
          | found data₃ s₃ =>
            rw [hend] at hrun
            exact (ih hrun).trans hkept'
          | ret ret s₃ =>
            rw [hend] at hrun
            cases hrun
            exact hkept'
        · cases hrun
          simp only [RetrieveBody.noted, HttpclientData.location, Option.map_map] at hkept' ⊢
          exact hkept'

theorem httpclientReadToClose_location (hrun : httpclientReadToClose fuel cd out data s = some (ret, cd', s')) :
    cd'.location = cd.location := by
  induction fuel generalizing out data s with
  | zero => cases hrun
  | succ fuel ih =>
    unfold httpclientReadToClose at hrun
    split at hrun
    · dsimp only at hrun
      split at hrun
      · cases hrun
        rfl
      split at hrun
      · cases hrun
        rfl
      · exact ih hrun
    · cases hrun
      rfl

/-- The body has no part in the location. -/
theorem httpclientRetrieveContent_location (hrun : httpclientRetrieveContent expired data cd s = some (ret, cd', s')) :
    cd'.location = cd.location := by
  unfold httpclientRetrieveContent at hrun
  split at hrun
  · cases hrun
  obtain ⟨data₁, cd₁, htake⟩ : ∃ data₁ cd₁, httpclientTakeRemain data { cd with isMore := true } = (data₁, cd₁) :=
    ⟨_, _, rfl⟩
  have hkept : cd₁.location = cd.location := by
    unfold httpclientTakeRemain at htake
    cases hext : cd.ext with
    | none =>
      rw [hext] at htake
      cases htake
      rw [HttpclientData.location, HttpclientData.location, hext]
    | some ext =>
      rw [hext] at htake
      dsimp only at htake
      split at htake <;> (cases htake; rw [HttpclientData.location, HttpclientData.location, hext])
      rfl
  rw [htake] at hrun
  dsimp only at hrun
  split at hrun
  · exact (httpclientReadToClose_location hrun).trans hkept
  · exact (httpclientRetrieveLoop_location hrun).trans hkept

/-- **The location a call leaves** is the last one the head gives, if the call does not fail. -/
theorem httpclientRecvResponse_location {left : Option Socket} (hmore : cd.isMore = false) (hbytes : s.bytes = h.encode ++ body)
    (hrun : httpclientRecvResponse expired code cd (some s) = some (ret, code', cd', left)) (hret : ret.failed = false) :
    cd'.location = cd.location.map (lastOf HeadField.notedLocation h.fields).getD := by
  unfold httpclientRecvResponse at hrun
  dsimp only at hrun
  rw [if_neg (by rw [hmore]; exact Bool.false_ne_true)] at hrun
  obtain ⟨ret₁, data, s₁, hrecv⟩ : ∃ ret data s', httpclientRecv 1 2047 s = (ret, data, s') := ⟨_, _, _, rfl⟩
  obtain ⟨hlen, hend⟩ := httpclientRecv_taken (by omega) hrecv
  rw [show httpclientChunkSize - 1 = 2047 from rfl, hrecv] at hrun
  dsimp only at hrun
  rcases hend with rfl | ⟨hok, hdata⟩
  · rw [if_pos (by decide)] at hrun
    cases hrun
    cases hret
  · rw [if_neg (by rintro ⟨h1, h2⟩; rcases hok with ⟨rfl, -⟩ | rfl <;> simp_all)] at hrun
    split at hrun
    · obtain ⟨⟨ret₂, code₂, cd₂, s₂⟩, hparse, hrun⟩ := Option.bind_eq_some_iff.1 hrun
      cases hrun
      obtain ⟨parsed, hhead, hparse⟩ := Option.bind_eq_some_iff.1 hparse
      have hnotes := httpclientParseHead_notes (hdata.trans hbytes) hlen hhead
      cases parsed with
      | ret ret code cd s =>
        cases hparse
        rw [ParsedHead.Notes, hret] at hnotes
        cases hnotes
      | done code cd₁ data₁ s₁ =>
        obtain ⟨⟨ret₃, cd₃, s₃⟩, hcontent, hparse⟩ := Option.bind_eq_some_iff.1 hparse
        cases hparse
        exact (httpclientRetrieveContent_location hcontent).trans hnotes
    · rename_i hnil
      cases hrun
      rcases hok with ⟨-, hone⟩ | rfl
      · rw [not_not.1 hnil] at hone
        cases hone
      · cases hret

end

end AudioPlayer

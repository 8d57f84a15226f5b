import Mathlib
import AudioPlayer.Lib.Bytes
import AudioPlayer.Httpclient.Request

/-!
# When the request is well formed (`utils/httpclient.c:361-514`)

Of a field of its own only 63 characters are kept, `strcat` does not look at the room in `buf`, and a send buffer that
becomes full is sent, after which `httpclient_get_info` takes the number of bytes sent for an error: the caller ignores
that, and sends what it had before once more. So a head goes out whole exactly if it fits into 2047 bytes with an entity
tag of at most 51 (`httpclientSendHeader_wellFormed`).
-/

namespace AudioPlayer
open Lib

/-! ## What a head is -/

/-- The lines of a request for a range. -/
def requestLines (method : HttpclientMethod) (path host : List Byte) (first last : Int) (ifRange : Option (List Byte)) :
    List (List Byte) :=
  [method.name ++ bytes " " ++ path ++ bytes " HTTP/1.1", bytes "Host: " ++ host, bytes "Accept: */*",
    bytes "Referer: http://" ++ host, bytes "User-Agent: Mozilla/4.0 (compatible; MSIE 5.00; Windows 98)",
    bytes "Pragma: no-cache", bytes "Cache-Control: no-cache",
    bytes "Range: bytes=" ++ decimal first ++ bytes "-" ++ decimal last] ++
    ifRange.toList.map fun v => bytes "If-Range: " ++ v

def headBytes (lines : List (List Byte)) : List Byte := lines.flatMap (· ++ crlf) ++ crlf

/-- One well-formed head, and nothing else. -/
structure WellFormedHead (method : HttpclientMethod) (path host : List Byte) (first last : Int)
    (ifRange : Option (List Byte)) (sent : List Byte) : Prop where
  bytes  : sent = headBytes (requestLines method path host first last ifRange)
  lines  : ∀ line ∈ requestLines method path host first last ifRange, (13 : Byte) ∉ line ∧ (10 : Byte) ∉ line
  /-- The request line has three words. -/
  target : (32 : Byte) ∉ path

/-- It fits, and nothing in it ends a line or a word. -/
structure HeadFits (method : HttpclientMethod) (path host : List Byte) (first last : Int) (ifRange : Option (List Byte)) :
    Prop where
  length  : (headBytes (requestLines method path host first last ifRange)).length < httpclientSendBufSize
  ifRange : ∀ v ∈ ifRange, v.length ≤ 51 ∧ (13 : Byte) ∉ v ∧ (10 : Byte) ∉ v
  path    : (13 : Byte) ∉ path ∧ (10 : Byte) ∉ path ∧ (32 : Byte) ∉ path
  host    : (13 : Byte) ∉ host ∧ (10 : Byte) ∉ host

section
variable {method : HttpclientMethod} {path host : List Byte} {first last : Int} {ifRange : Option (List Byte)}
  {answers rest : List Int} {data out buf full : List Byte} {written : Nat} {ret : Int} {s s' : SendState} {isHttp : Bool}

def ifRangeField (ifRange : Option (List Byte)) : List Byte :=
  match ifRange with
  | none => []
  | some v => bytes "If-Range: " ++ v ++ crlf

def rangeField (first last : Int) : List Byte :=
  bytes "Range: bytes=" ++ decimal first ++ bytes "-" ++ (decimal last ++ crlf)

theorem headBytes_eq : headBytes (requestLines method path host first last ifRange) =
    httpclientRequestBase method path host ++ rangeField first last ++ ifRangeField ifRange ++ crlf := by
  have hone : bytes " HTTP/1.1\r\nHost: " = bytes " HTTP/1.1" ++ crlf ++ bytes "Host: " := by decide
  have htwo : bytes "\r\nAccept: */*\r\nReferer: http://" =
      crlf ++ bytes "Accept: */*" ++ crlf ++ bytes "Referer: http://" := by decide
  have hthree : bytes ("\r\nUser-Agent: Mozilla/4.0 (compatible; MSIE 5.00; Windows 98)\r\n" ++
      "Pragma: no-cache\r\nCache-Control: no-cache\r\n") =
      crlf ++ bytes "User-Agent: Mozilla/4.0 (compatible; MSIE 5.00; Windows 98)" ++ crlf ++ bytes "Pragma: no-cache" ++
        crlf ++ bytes "Cache-Control: no-cache" ++ crlf := by decide
  unfold headBytes requestLines httpclientRequestBase rangeField ifRangeField
  rw [hone, htwo, hthree]
  cases ifRange with
  | none => simp
  | some v => simp

theorem decimal_length {i : Int} (h0 : 0 ≤ i) (h : i < 2147483648) : (decimal i).length ≤ 10 := by
  unfold decimal
  rw [if_neg (by omega), List.nil_append, List.length_map]
  exact Nat.toDigits_length 10 i.natAbs 10 (by omega) (by omega)

theorem decimal_digits {i : Int} (h0 : 0 ≤ i) {b : Byte} (hb : b ∈ decimal i) : 48 ≤ b.toNat ∧ b.toNat ≤ 57 := by
  unfold decimal at hb
  rw [if_neg (by omega), List.nil_append, List.mem_map] at hb
  obtain ⟨c, hc, rfl⟩ := hb
  have hdigit := Nat.isDigit_of_mem_toDigits (by omega) (by omega) hc
  simp only [Char.isDigit, Bool.and_eq_true, decide_eq_true_eq, ge_iff_le, UInt32.le_iff_toNat_le] at hdigit
  have hlow : 48 ≤ c.toNat := hdigit.1
  have hhigh : c.toNat ≤ 57 := hdigit.2
  have hbyte : c.toNat.toUInt8.toNat = c.toNat := Nat.mod_eq_of_lt (by omega)
  omega

/-! ## What is sent -/

theorem httpclientTcpSendAll_all (hanswers : ∀ a ∈ answers, (0 : Int) < a)
    (h : httpclientTcpSendAll answers data written = some (ret, out, rest)) :
    ret = ((written + data.length : Nat) : Int) ∧ out = data ∧ ∀ a ∈ rest, (0 : Int) < a := by
  induction answers generalizing data written out ret rest with
  | nil =>
    cases data with
    | nil =>
      cases h
      exact ⟨rfl, rfl, hanswers⟩
    | cons b data => cases h
  | cons a answers ih =>
    have hpos := hanswers a (.head _)
    cases data with
    | nil =>
      cases h
      exact ⟨rfl, rfl, hanswers⟩
    | cons b data =>
      unfold httpclientTcpSendAll at h
      rw [if_pos hpos] at h
      obtain ⟨⟨r, out', rest'⟩, hsend, hres⟩ := Option.map_eq_some_iff.1 h
      obtain ⟨hret, hout, hrest⟩ := ih (fun a ha => hanswers a (.tail _ ha)) hsend
      cases hres
      refine ⟨?_, ?_, hrest⟩
      · rw [hret, List.length_drop]
        have : min a.toNat (b :: data).length ≤ (b :: data).length := Nat.min_le_right _ _
        omega
      · rw [hout, List.take_append_drop]

theorem httpclientTcpSendAll_one {a : Int} (hpos : 0 < a) (hlarge : (data.length : Int) ≤ a) (hdata : data ≠ []) :
    httpclientTcpSendAll (a :: answers) data written = some (((written + data.length : Nat) : Int), data, answers) := by
  cases data with
  | nil => exact absurd rfl hdata
  | cons b data =>
    have hmin : min a.toNat (b :: data).length = (b :: data).length := by omega
    unfold httpclientTcpSendAll
    rw [if_pos hpos]
    dsimp only
    rw [hmin, List.drop_length, List.take_length]
    cases answers <;> simp [httpclientTcpSendAll]

theorem httpclientGetInfo_copies (h : s.sendBuf.length + buf.length < httpclientSendBufSize) :
    httpclientGetInfo isHttp buf s = .ok (0, { s with sendBuf := s.sendBuf ++ buf }) := by
  have htake : buf.take (httpclientSendBufSize - s.sendBuf.length) = buf := List.take_of_length_le (by omega)
  unfold httpclientGetInfo
  dsimp only
  rw [htake, if_pos (by rw [List.length_append]; exact h)]

/-- A buffer that becomes full goes out, and what `send_idx` says stays. -/
theorem httpclientGetInfo_flushes (hbuf : s.sendBuf.length < httpclientSendBufSize)
    (h : httpclientSendBufSize ≤ s.sendBuf.length + buf.length) (hanswers : ∀ a ∈ s.answers, (0 : Int) < a)
    (hinfo : httpclientGetInfo isHttp buf s = .ok (ret, s')) :
    s'.sendBuf = s.sendBuf ∧ (∀ a ∈ s'.answers, (0 : Int) < a) ∧
      s'.sent = s.sent ++ if isHttp then (s.sendBuf ++ buf).take httpclientSendBufSize else [] := by
  have hfull : (s.sendBuf ++ buf.take (httpclientSendBufSize - s.sendBuf.length)).length = httpclientSendBufSize := by
    rw [List.length_append, List.length_take]
    omega
  have htake : (s.sendBuf ++ buf).take httpclientSendBufSize =
      s.sendBuf ++ buf.take (httpclientSendBufSize - s.sendBuf.length) := by
    rw [List.take_append, List.take_of_length_le (by omega)]
  unfold httpclientGetInfo httpclientFlush at hinfo
  dsimp only at hinfo
  rw [if_neg (by omega)] at hinfo
  cases isHttp with
  | false =>
    cases hinfo
    exact ⟨rfl, hanswers, by simp⟩
  | true =>
    simp only [Bool.not_true, Bool.false_eq_true, if_false] at hinfo
    cases hsend : httpclientTcpSendAll s.answers (s.sendBuf ++ buf.take (httpclientSendBufSize - s.sendBuf.length)) 0 with
    | none =>
      rw [hsend] at hinfo
      cases hinfo
    | some res =>
      obtain ⟨r, out, rest⟩ := res
      obtain ⟨hr, hout, hrest⟩ := httpclientTcpSendAll_all hanswers hsend
      rw [hfull] at hr
      rw [hsend] at hinfo
      have hne : r ≠ 0 := by
        rw [hr]
        decide
      simp only [hne, ne_eq, not_false_eq_true, if_true] at hinfo
      cases hinfo
      refine ⟨rfl, hrest, ?_⟩
      rw [if_pos rfl, htake, hout]

/-- What the socket is given for a text of `buf`: twice the most of it, if the empty line fills the buffer. -/
def sentFor (isHttp : Bool) (buf : List Byte) : List Byte :=
  if buf.length + 2 < httpclientSendBufSize then buf ++ crlf
  else (if isHttp then (buf ++ crlf).take httpclientSendBufSize else []) ++ buf

/-- What `buf` holds: all, but for the end of a long entity tag, or nothing that is defined. -/
theorem httpclientRequestText_eq (hfirst : 0 ≤ first ∧ first < 2147483648) (hlast : 0 < last ∧ last < 2147483648) :
    httpclientRequestText method path host first last ifRange =
      if (httpclientRequestBase method path host ++ rangeField first last ++ (ifRangeField ifRange).take 63).length <
          httpclientSendBufSize then
        some (httpclientRequestBase method path host ++ rangeField first last ++ (ifRangeField ifRange).take 63)
      else none := by
  have hone := decimal_length hfirst.1 hfirst.2
  have htwo := decimal_length hlast.1.le hlast.2
  have hlit : (bytes "Range: bytes=").length = 13 := by decide
  have hdash : (bytes "-").length = 1 := by decide
  have hcrlf : crlf.length = 2 := rfl
  have hpart1 : snprintf 64 (bytes "Range: bytes=" ++ decimal first ++ bytes "-") =
      bytes "Range: bytes=" ++ decimal first ++ bytes "-" := by
    refine List.take_of_length_le ?_
    simp only [List.length_append, hlit, hdash]
    omega
  have hpart2 : snprintf 64 (decimal last ++ crlf) = decimal last ++ crlf := by
    refine List.take_of_length_le ?_
    simp only [List.length_append, hcrlf]
    omega
  unfold httpclientRequestText rangeField
  simp only [hfirst.1, hlast.1, if_true, hpart1, hpart2, Option.bind_eq_bind]
  have hsize : httpclientSendBufSize = 2048 := rfl
  rw [hsize]
  generalize hbase : httpclientRequestBase method path host = base
  generalize hr1 : bytes "Range: bytes=" ++ decimal first ++ bytes "-" = r1
  generalize hr2 : decimal last ++ crlf = r2
  have hpos : 0 < r1.length := by
    rw [← hr1]
    simp only [List.length_append, hlit]
    omega
  by_cases hfits : base.length < 2048
  · have hbuf : snprintf 2048 base = base := List.take_of_length_le (by omega)
    rw [hbuf]
    unfold strcat
    by_cases h1 : base.length + r1.length < 2048
    · rw [if_pos h1, Option.bind_some]
      by_cases h2 : (base ++ r1).length + r2.length < 2048
      · rw [if_pos h2, Option.bind_some]
        cases ifRange with
        | none =>
          simp only [ifRangeField, List.take_nil, List.append_nil]
          rw [if_pos (by simp only [List.length_append] at h2 ⊢; omega), List.append_assoc]
        | some v =>
          simp only [ifRangeField, snprintf, List.length_append, ← List.append_assoc]
      · rw [if_neg h2, Option.bind_none, if_neg]
        simp only [List.length_append] at h2 ⊢
        omega
    · rw [if_neg h1, Option.bind_none, if_neg]
      simp only [List.length_append]
      omega
  · have hlen : (snprintf 2048 base).length = 2047 := by
      unfold snprintf
      rw [List.length_take]
      omega
    rw [strcat, if_neg (by omega), Option.bind_none, if_neg]
    simp only [List.length_append]
    omega

end

/-! ## A request -/

def plainClient (isHttp : Bool) : SendClient := { isHttp }

section
variable {method : HttpclientMethod} {url : List Byte} {u : ParsedUrl} {first last : Int} {ifRange : Option (List Byte)}
  {answers : List Int} {buf sent : List Byte} {ret : SendReturn} {isHttp : Bool} {malloc : Nat → Bool}

/-- What goes out where `httpclient_send_header` succeeds. -/
theorem httpclientSendHeader_sent (hurl : httpclientParseUrl 8 httpclientMaxHostLen httpclientMaxUrlLen url = some (some u))
    (htext : httpclientRequestText method u.path u.host first last ifRange = some buf)
    (hbuf : buf.length < httpclientSendBufSize) (hanswers : ∀ a ∈ answers, (0 : Int) < a)
    (h : httpclientSendHeader malloc answers (plainClient isHttp) url method first last ifRange = .ok (.ok, sent)) :
    sent = sentFor isHttp buf := by
  have hextra : httpclientExtra (plainClient isHttp) = [crlf] := rfl
  have hcrlf : crlf.length = 2 := rfl
  unfold httpclientSendHeader at h
  split at h
  · cases h
  rw [hurl] at h
  dsimp only at h
  rw [htext] at h
  dsimp only at h
  rw [httpclientGetInfo_copies (by simpa using hbuf), hextra] at h
  simp only [ne_eq, not_true_eq_false, if_false, httpclientGetInfos, List.nil_append] at h
  cases hinfo : httpclientGetInfo (plainClient isHttp).isHttp crlf { sendBuf := buf, answers } with
  | error fault =>
    rw [hinfo] at h
    cases h
  | ok res =>
    obtain ⟨r, s⟩ := res
    rw [hinfo] at h
    dsimp only at h
    cases hsend : httpclientTcpSendAll s.answers s.sendBuf 0 with
    | none =>
      rw [hsend] at h
      cases h
    | some res =>
      obtain ⟨r', out, rest⟩ := res
      rw [hsend] at h
      obtain ⟨-, hsent⟩ := Prod.mk.inj (Except.ok.inj h)
      unfold sentFor
      by_cases hroom : buf.length + 2 < httpclientSendBufSize
      · rw [httpclientGetInfo_copies (by rw [hcrlf]; exact hroom)] at hinfo
        cases hinfo
        obtain ⟨-, hout, -⟩ := httpclientTcpSendAll_all hanswers hsend
        rw [if_pos hroom, ← hsent, hout]
        rfl
      · obtain ⟨hkept, hpos, hgiven⟩ :=
          httpclientGetInfo_flushes (s := { sendBuf := buf, answers }) hbuf (by rw [hcrlf]; dsimp only; omega) hanswers hinfo
        obtain ⟨-, hout, -⟩ := httpclientTcpSendAll_all hpos hsend
        rw [if_neg hroom, ← hsent, hgiven, hout, hkept]
        rfl

theorem httpclientSendHeader_fault {fault : SendFault}
    (hurl : httpclientParseUrl 8 httpclientMaxHostLen httpclientMaxUrlLen url = some (some u))
    (htext : httpclientRequestText method u.path u.host first last ifRange = some buf)
    (hbuf : buf.length < httpclientSendBufSize)
    (h : httpclientSendHeader malloc answers (plainClient isHttp) url method first last ifRange = .error fault) :
    fault = .unanswered := by
  have hflush : ∀ more full fuel (s : SendState) fault, httpclientFlush isHttp more full fuel s = .error fault →
      fault = .unanswered := by
    intro more full fuel
    induction fuel with
    | zero =>
      intro s fault h
      cases h
      rfl
    | succ fuel ih =>
      intro s fault h
      unfold httpclientFlush at h
      split at h
      · cases h
      split at h
      · cases h
        rfl
      dsimp only at h
      split at h
      · cases h
      split at h
      · exact ih _ _ h
      · cases h
  have hextra : httpclientExtra (plainClient isHttp) = [crlf] := rfl
  unfold httpclientSendHeader at h
  split at h
  · cases h
  rw [hurl] at h
  dsimp only at h
  rw [htext] at h
  dsimp only at h
  rw [httpclientGetInfo_copies (by simpa using hbuf), hextra] at h
  simp only [ne_eq, not_true_eq_false, if_false, httpclientGetInfos, List.nil_append] at h
  cases hinfo : httpclientGetInfo (plainClient isHttp).isHttp crlf { sendBuf := buf, answers } with
  | error fault' =>
    rw [hinfo] at h
    cases h
    unfold httpclientGetInfo at hinfo
    dsimp only at hinfo
    split at hinfo
    · cases hinfo
    · exact hflush _ _ _ _ _ hinfo
  | ok res =>
    obtain ⟨r, s⟩ := res
    rw [hinfo] at h
    dsimp only at h
    split at h
    · cases h
      rfl
    · cases h

/-- The last send of a head takes its data with one answer. -/
theorem lastSend_succeeds {s : SendState} {rest : List Int} (hans : s.answers = 5000 :: rest)
    (hlen : s.sendBuf.length < 5000) (hdata : s.sendBuf ≠ []) :
    ∃ sent, (match httpclientTcpSendAll s.answers s.sendBuf 0 with
      | none => (.error .unanswered : Except SendFault (SendReturn × List Byte))
      | some (ret, out, _) =>
        .ok (if 0 < ret then .ok else if ret = 0 then .closed else .errorConn, s.sent ++ out)) = .ok (.ok, sent) := by
  have hlen' := List.length_pos_iff.2 hdata
  rw [hans, httpclientTcpSendAll_one (by omega) (by omega) hdata]
  dsimp only
  rw [if_pos (by omega)]
  exact ⟨_, rfl⟩

theorem httpclientSendHeader_succeeds
    (hurl : httpclientParseUrl 8 httpclientMaxHostLen httpclientMaxUrlLen url = some (some u))
    (htext : httpclientRequestText method u.path u.host first last ifRange = some buf)
    (hbuf : buf.length < httpclientSendBufSize) (hne : buf ≠ []) :
    ∃ sent, httpclientSendHeader (fun _ => true) [5000, 5000] (plainClient isHttp) url method first last ifRange =
      .ok (.ok, sent) := by
  have hsize : httpclientSendBufSize = 2048 := rfl
  have hcrlf : crlf.length = 2 := rfl
  have hextra : httpclientExtra (plainClient isHttp) = [crlf] := rfl
  have hpos : 0 < buf.length := List.length_pos_iff.2 hne
  unfold httpclientSendHeader
  rw [if_neg (by decide), hurl]
  dsimp only
  rw [htext]
  dsimp only
  rw [httpclientGetInfo_copies (by simpa using hbuf), hextra]
  simp only [ne_eq, not_true_eq_false, if_false, httpclientGetInfos, List.nil_append]
  by_cases hroom : buf.length + 2 < httpclientSendBufSize
  · rw [httpclientGetInfo_copies (by rw [hcrlf]; exact hroom)]
    exact lastSend_succeeds rfl (by dsimp only; rw [List.length_append, hcrlf]; omega)
      (by dsimp only; exact List.append_ne_nil_of_left_ne_nil hne _)
  · have hfull : (buf ++ crlf.take (httpclientSendBufSize - buf.length)).length = httpclientSendBufSize := by
      rw [List.length_append, List.length_take]
      omega
    unfold httpclientGetInfo httpclientFlush
    dsimp only
    rw [if_neg (by omega)]
    cases isHttp with
    | false =>
      rw [if_pos (show (!(plainClient false).isHttp) = true from rfl)]
      exact lastSend_succeeds rfl (by dsimp only; omega) hne
    | true =>
      rw [if_neg (show ¬(!(plainClient true).isHttp) = true by decide), httpclientTcpSendAll_one (by omega) (by omega)
        (List.append_ne_nil_of_left_ne_nil hne _), hfull]
      exact lastSend_succeeds (s := { sendBuf := buf, answers := [5000], sent := _ }) rfl (by dsimp only; omega) hne

theorem requestLines_clean (hfirst : 0 ≤ first) (hlast : 0 ≤ last) {path host : List Byte} :
    (∀ line ∈ requestLines method path host first last ifRange, (13 : Byte) ∉ line ∧ (10 : Byte) ∉ line) ↔
      ((13 : Byte) ∉ path ∧ (10 : Byte) ∉ path) ∧ ((13 : Byte) ∉ host ∧ (10 : Byte) ∉ host) ∧
        ∀ v ∈ ifRange, (13 : Byte) ∉ v ∧ (10 : Byte) ∉ v := by
  have hdecimal : ∀ {i : Int}, 0 ≤ i → (13 : Byte) ∉ decimal i ∧ (10 : Byte) ∉ decimal i := by
    intro i hi
    constructor
    · intro hmem
      have hdigit := (decimal_digits hi hmem).1
      revert hdigit
      decide
    · intro hmem
      have hdigit := (decimal_digits hi hmem).1
      revert hdigit
      decide
  have hname : (13 : Byte) ∉ method.name ∧ (10 : Byte) ∉ method.name := by cases method <;> decide
  obtain ⟨hf1, hf2⟩ := hdecimal hfirst
  obtain ⟨hl1, hl2⟩ := hdecimal hlast
  -- the words of the lines themselves
  have hwords : ∀ word ∈ [bytes " ", bytes " HTTP/1.1", bytes "Host: ", bytes "Accept: */*", bytes "Referer: http://",
      bytes "User-Agent: Mozilla/4.0 (compatible; MSIE 5.00; Windows 98)", bytes "Pragma: no-cache",
      bytes "Cache-Control: no-cache", bytes "Range: bytes=", bytes "-", bytes "If-Range: "],
      (13 : Byte) ∉ word ∧ (10 : Byte) ∉ word := by decide
  simp only [List.forall_mem_cons, List.not_mem_nil, false_imp_iff, implies_true, and_true] at hwords
  unfold requestLines
  rw [List.forall_mem_append]
  simp only [List.forall_mem_cons, List.not_mem_nil, false_imp_iff, implies_true, and_true, List.forall_mem_map,
    Option.mem_toList]
  simp only [List.mem_append, hwords, hname, hf1, hf2, hl1, hl2, not_false_eq_true, true_and, false_or, or_false]
  tauto

theorem ifRangeField_length {v : List Byte} : (ifRangeField (some v)).length = v.length + 12 := by
  have hlit : (bytes "If-Range: ").length = 10 := by decide
  have hcrlf : crlf.length = 2 := rfl
  simp only [ifRangeField, List.length_append, hlit, hcrlf]
  omega

/-- **One head goes out, and nothing else, exactly if it fits.** Whatever is allocated, and however much `send` takes at a
time. -/
theorem httpclientSendHeader_wellFormed
    (hurl : httpclientParseUrl 8 httpclientMaxHostLen httpclientMaxUrlLen url = some (some u))
    (hfirst : 0 ≤ first) (hrange : first < last) (hlast : last < 2147483648)
    (hifRange : ∀ v ∈ ifRange, v.length < httpclientIfRangeSize) :
    (∀ malloc answers, (∀ a ∈ answers, (0 : Int) < a) →
      httpclientSendHeader malloc answers (plainClient isHttp) url method first last ifRange ≠ .error .overrun ∧
      ∀ sent, httpclientSendHeader malloc answers (plainClient isHttp) url method first last ifRange = .ok (.ok, sent) →
        WellFormedHead method u.path u.host first last ifRange sent) ↔
      HeadFits method u.path u.host first last ifRange := by
  have hsize : httpclientSendBufSize = 2048 := rfl
  have hcrlf : crlf.length = 2 := rfl
  have heq := @httpclientRequestText_eq method u.path u.host first last ifRange ⟨hfirst, by omega⟩ ⟨by omega, hlast⟩
  have hhead := @headBytes_eq method u.path u.host first last ifRange
  have hbase : httpclientRequestBase method u.path u.host ++ rangeField first last ≠ [] := by
    unfold rangeField
    simp [bytes]
  generalize httpclientRequestBase method u.path u.host ++ rangeField first last = base at heq hhead hbase
  have htake : ((ifRangeField ifRange).take 63).length = min 63 (ifRangeField ifRange).length := List.length_take
  -- the value is bounded, so the field is, and the two sendings of a full buffer are not one head
  have hfield : (ifRangeField ifRange).length ≤ 139 := by
    cases ifRange with
    | none => exact Nat.zero_le _
    | some v =>
      have := hifRange v rfl
      have hmax : httpclientIfRangeSize = 128 := rfl
      rw [ifRangeField_length]
      omega
  constructor
  · intro h
    by_cases hfits : (base ++ (ifRangeField ifRange).take 63).length < httpclientSendBufSize
    · rw [if_pos hfits] at heq
      obtain ⟨sent, hok⟩ := @httpclientSendHeader_succeeds _ _ _ _ _ _ _ isHttp hurl heq hfits
        (List.append_ne_nil_of_left_ne_nil hbase _)
      have hwell := (h (fun _ => true) [5000, 5000] (by decide)).2 sent hok
      have hsent := httpclientSendHeader_sent hurl heq hfits (by decide) hok
      have hbytes := hwell.bytes
      rw [hsent, hhead] at hbytes
      have hlen := congrArg List.length hbytes
      have hroom : (base ++ (ifRangeField ifRange).take 63).length + 2 < httpclientSendBufSize := by
        by_contra hroom
        unfold sentFor at hlen
        rw [if_neg hroom] at hlen
        simp only [List.length_append, hcrlf, htake] at hlen hroom hfits
        cases isHttp with
        | false =>
          rw [if_neg Bool.false_ne_true, List.length_nil] at hlen
          omega
        | true =>
          rw [if_pos rfl, List.length_take] at hlen
          simp only [List.length_append, hcrlf, htake] at hlen
          omega
      unfold sentFor at hlen
      rw [if_pos hroom] at hlen
      simp only [List.length_append, hcrlf, htake] at hlen hroom
      obtain ⟨hpath, hhost, hvalue⟩ := (requestLines_clean hfirst (by omega)).1 hwell.lines
      refine ⟨?_, ?_, ⟨hpath.1, hpath.2, hwell.target⟩, hhost⟩
      · rw [hhead]
        simp only [List.length_append, hcrlf]
        omega
      · intro v hv
        refine ⟨?_, hvalue v hv⟩
        cases hv
        rw [ifRangeField_length] at hlen
        omega
    · rw [if_neg hfits] at heq
      refine absurd ?_ (h (fun _ => true) [] (by simp)).1
      unfold httpclientSendHeader
      rw [if_neg (by decide), hurl]
      dsimp only
      rw [heq]
  · intro hfits malloc answers hanswers
    have hshort : (ifRangeField ifRange).take 63 = ifRangeField ifRange := by
      refine List.take_of_length_le ?_
      cases ifRange with
      | none => exact Nat.zero_le _
      | some v =>
        have := (hfits.ifRange v rfl).1
        rw [ifRangeField_length]
        omega
    have hlen := hfits.length
    rw [hhead, List.length_append, hcrlf] at hlen
    rw [hshort, if_pos (by omega)] at heq
    constructor
    · intro hover
      cases httpclientSendHeader_fault hurl heq (by omega) hover
    · intro sent hok
      have hsent := httpclientSendHeader_sent hurl heq (by omega) hanswers hok
      refine ⟨?_, (requestLines_clean hfirst (by omega)).2 ⟨⟨hfits.path.1, hfits.path.2.1⟩, hfits.host, ?_⟩, hfits.path.2.2⟩
      · rw [hsent, sentFor, if_pos hlen, hhead]
      · exact fun v hv => (hfits.ifRange v hv).2

end

set_option maxRecDepth 20000 in
theorem httpclientSendHeader_wellFormed_short :
    HeadFits .get (bytes "/p") (bytes "h") 5 9 (some (bytes "t")) ∧
    ∀ malloc answers, (∀ a ∈ answers, (0 : Int) < a) →
      httpclientSendHeader malloc answers (plainClient true) (bytes "http://h/p") .get 5 9 (some (bytes "t")) ≠
        .error .overrun ∧
      ∀ sent, httpclientSendHeader malloc answers (plainClient true) (bytes "http://h/p") .get 5 9 (some (bytes "t")) =
        .ok (.ok, sent) → WellFormedHead .get (bytes "/p") (bytes "h") 5 9 (some (bytes "t")) sent := by
  have hfits : HeadFits .get (bytes "/p") (bytes "h") 5 9 (some (bytes "t")) :=
    ⟨by decide, by decide, by decide, by decide⟩
  refine ⟨hfits, ?_⟩
  exact (httpclientSendHeader_wellFormed (u := { scheme := bytes "http", host := bytes "h", port := 0, path := bytes "/p" })
    (by decide) (by decide) (by decide) (by decide) (by decide)).2 hfits

set_option maxRecDepth 20000 in
/-- Of a tag of 52 bytes the end of the line is lost, and the empty line becomes it: the head has no end. -/
theorem httpclientSendHeader_endless :
    ∃ sent, httpclientSendHeader (fun _ => true) [5000] (plainClient true) (bytes "http://h/p") .get 5 9
        (some (List.replicate 52 65)) = .ok (.ok, sent) ∧
      ¬ WellFormedHead .get (bytes "/p") (bytes "h") 5 9 (some (List.replicate 52 65)) sent := by
  refine ⟨_, rfl, fun h => ?_⟩
  have hbytes := h.bytes
  revert hbytes
  decide

end AudioPlayer

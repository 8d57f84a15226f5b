import Mathlib
import AudioPlayer.Httpclient.Parse

/-!
# What the fields of a head decide

A `Head` is a status line and any list of fields. `HeadField.Regular` sets the fields apart whose name is
one of the six known ones or abbreviates none of them, with a value of the form that goes with the name;
`HttpclientData.note` is what such a field does, and `httpclientParseHead_spec` says that the parser folds
it over the fields, however the bytes arrive.
-/

namespace AudioPlayer
open Lib

/-- A `Name: value` line. -/
structure HeadField where
  name     : List Byte
  value    : List Byte
  name_ne  : name ≠ []
  name_ok  : ∀ b ∈ name, 33 ≤ b.toNat ∧ b.toNat ≤ 126 ∧ b ≠ 58
  value_ok : ∀ b ∈ value, b ≠ 0 ∧ b ≠ 10 ∧ b ≠ 13

/-- `HTTP/x.y code reason`. -/
structure StatusLine where
  major     : Byte
  minor     : Byte
  code      : List Byte
  reason    : List Byte
  major_ok  : isDigit major
  minor_ok  : isDigit minor
  code_len  : code.length = 3
  code_ok   : ∀ b ∈ code, isDigit b
  reason_ok : ∀ b ∈ reason, b ≠ 0 ∧ b ≠ 10 ∧ b ≠ 13

def HeadField.line (f : HeadField) : List Byte := f.name ++ (bytes ": " ++ f.value)

def StatusLine.line (l : StatusLine) : List Byte :=
  bytes "HTTP/" ++ ([l.major] ++ (bytes "." ++ ([l.minor] ++ (bytes " " ++ (l.code ++ (bytes " " ++ l.reason))))))

/-- The status code. -/
def StatusLine.status (l : StatusLine) : Nat := decVal l.code

structure Head where
  status : StatusLine
  fields : List HeadField

def encodeFields (fs : List HeadField) : List Byte := fs.flatMap (fun f => f.line ++ crlf) ++ crlf

def Head.encode (h : Head) : List Byte := h.status.line ++ crlf ++ encodeFields h.fields

/-! ## One line -/

section
variable {line data new rest : List Byte}

/-- A line is found as soon as it is complete. -/
theorem strstr_line (h13 : (13 : Byte) ∉ line) (h0 : (0 : Byte) ∉ line) (h : data ++ new = line ++ crlf ++ rest) :
    (∃ t, data = line ++ crlf ++ t ∧ t ++ new = rest ∧ strstr crlf (cstr data) = some line.length) ∨
    (data.length < line.length + 2 ∧ strstr crlf (cstr data) = none) := by
  have hdata : data <+: line ++ crlf ++ rest := h ▸ List.prefix_append _ _
  by_cases hlen : line.length + 2 ≤ data.length
  · left
    obtain ⟨t, rfl⟩ : line ++ crlf <+: data :=
      List.prefix_of_prefix_length_le (List.prefix_append _ _) hdata (by simpa [crlf] using hlen)
    have h0' : (0 : Byte) ∉ line ++ crlf := by simp [h0, crlf]
    rw [List.append_assoc] at h
    exact ⟨t, rfl, List.append_cancel_left h, by rw [cstr_append h0']; exact strstr_crlf h13⟩
  · right
    have hpre : data <+: line ++ [13] := by
      have hline : line ++ [13] <+: line ++ crlf ++ rest := ⟨[10] ++ rest, by simp [crlf]⟩
      exact List.prefix_of_prefix_length_le hdata hline (by simp; omega)
    have h0' : (0 : Byte) ∉ data := fun hm => by
      have := hpre.subset hm
      simp [h0] at this
    exact ⟨by omega, by rw [cstr_eq_self h0']; exact strstr_crlf_none h13 hpre⟩

end

namespace HeadField
variable (f : HeadField)

theorem name_no {b : Byte} (hb : ¬ (33 ≤ b.toNat ∧ b.toNat ≤ 126 ∧ b ≠ 58)) : b ∉ f.name :=
  fun hm => hb (f.name_ok b hm)

theorem line_no_cr : (13 : Byte) ∉ f.line := by
  simp only [line, List.mem_append, not_or]
  exact ⟨f.name_no (by decide), by decide, fun hm => (f.value_ok _ hm).2.2 rfl⟩

theorem line_no_nul : (0 : Byte) ∉ f.line := by
  simp only [line, List.mem_append, not_or]
  exact ⟨f.name_no (by decide), by decide, fun hm => (f.value_ok _ hm).1 rfl⟩

theorem length_line : f.line.length = f.name.length + 2 + f.value.length := by
  have h2 : (bytes ": ").length = 2 := by decide
  simp only [line, List.length_append, h2]; omega

/-- The colon of a line is the one behind its name. -/
theorem strstr_colon (t : List Byte) : strstr (bytes ": ") (f.line ++ t) = some f.name.length := by
  have h : strstr (58 :: [32]) (f.name ++ 58 :: [32] ++ (f.value ++ t)) = some f.name.length :=
    strstr_append (f.name_no (by decide))
  have hb : bytes ": " = [58, 32] := by decide
  rw [hb, line, hb]
  simpa using h

theorem drop_value (t : List Byte) : (f.line ++ t).drop (f.name.length + 2) = f.value ++ t := by
  have h : (f.name ++ bytes ": ").length = f.name.length + 2 := by
    rw [List.length_append, show (bytes ": ").length = 2 by decide]
  rw [line, ← List.append_assoc, List.append_assoc (f.name ++ _), ← h, List.drop_left]

end HeadField

/-! ## The known fields -/

inductive FieldKind
  | contentLength | transferEncoding | acceptRanges | contentRange | etag | location
deriving DecidableEq, Repr

namespace FieldKind

def name : FieldKind → List Byte
  | contentLength => contentLengthName
  | transferEncoding => transferEncodingName
  | acceptRanges => acceptRangesName
  | contentRange => contentRangeName
  | etag => etagName
  | location => locationName

def all : List FieldKind := [contentLength, transferEncoding, acceptRanges, contentRange, etag, location]

theorem name_no_nul (k : FieldKind) : (0 : Byte) ∉ k.name := by cases k <;> decide

end FieldKind

/-- The kind whose name is the field's, but for case. -/
def HeadField.kind (f : HeadField) : Option FieldKind := FieldKind.all.find? fun k => decide (caseEq f.name k.name)

theorem HeadField.kind_eq_some {f : HeadField} {k : FieldKind} : f.kind = some k → caseEq f.name k.name := by
  intro h
  simpa using List.find?_some h

def chunkedCoding : List Byte := bytes "Chunked"

/-- The last of a comma-separated list of codings, without the white space around it. -/
def lastCoding (value : List Byte) : List Byte :=
  let last := (value.reverse.takeWhile (· ≠ 44)).reverse
  ((last.dropWhile isSpace).reverse.dropWhile isSpace).reverse

/-- Decimal digits, at least one. -/
def Digits (ds : List Byte) : Prop := ds ≠ [] ∧ ∀ b ∈ ds, isDigit b

/-- The forms of `Content-Range` and the three numbers they give, where a number is given. -/
inductive ContentRangeForm : List Byte → Option (List Byte) → Option (List Byte) → Option (List Byte) → Prop
  | full {a b c : List Byte} : Digits a → Digits b → Digits c →
      ContentRangeForm (bytes "bytes " ++ (a ++ (bytes "-" ++ (b ++ (bytes "/" ++ c))))) (some a) (some b) (some c)
  | unknown {a b : List Byte} : Digits a → Digits b →
      ContentRangeForm (bytes "bytes " ++ (a ++ (bytes "-" ++ (b ++ bytes "/*")))) (some a) (some b) none
  | unsatisfied {c : List Byte} : Digits c → ContentRangeForm (bytes "bytes */" ++ c) none none none

/-- A value of the form that goes with the name. -/
def HeadField.WellFormed (f : HeadField) : Prop :=
  match f.kind with
  | some .contentLength => Digits f.value
  | some .contentRange => ∃ a b c, ContentRangeForm f.value a b c
  | _ => True

/-- The name is a known one in full, or it abbreviates none. -/
def HeadField.NamedInFull (f : HeadField) : Prop :=
  f.kind = none → ∀ k : FieldKind, ¬ caseEq f.name (k.name.take f.name.length)

structure HeadField.Regular (f : HeadField) : Prop where
  wellFormed : f.WellFormed
  named      : f.NamedInFull

namespace HeadField
variable (f : HeadField)

/-- A `Transfer-Encoding` that ends with `chunked`. -/
def chunked : Bool := decide (f.kind = some .transferEncoding ∧ caseEq (lastCoding f.value) chunkedCoding)

/-- A `Transfer-Encoding` that the parser takes for `chunked`: values are compared like names. -/
def takenForChunked : Bool :=
  decide (f.kind = some .transferEncoding ∧ caseEq f.value (chunkedCoding.take f.value.length))

/-- A field after which the reply counts as ranged. -/
def takenForRange : Bool := decide (f.kind = some .acceptRanges ∨ f.kind = some .contentRange)

/-- The content length it gives. -/
def length : Option Int := if f.kind = some .contentLength then some (decVal f.value) else none

/-- The content length it makes the parser note. -/
def notedLength : Option Int := if f.takenForChunked then some 0 else f.length

def rangeBeg : Option Int := if f.kind = some .contentRange then (scanRange f.value).1.map Prod.fst else none
def rangeEnd : Option Int := if f.kind = some .contentRange then (scanRange f.value).2.1.map Prod.fst else none
def rangeLen : Option Int := if f.kind = some .contentRange then (scanRange f.value).2.2.map Prod.fst else none

/-- A value that does not fit its buffer is left out. -/
def etag : Option (List Byte) :=
  if f.kind = some .etag ∧ f.value.length < httpclientIfRangeSize then some f.value else none

def location : Option (List Byte) :=
  if f.kind = some .location ∧ f.value.length < httpclientLocationSize then some f.value else none

/-- Its numbers are `int`s. -/
def fits : Bool := [f.length, f.rangeBeg, f.rangeEnd, f.rangeLen].all fun o => o.all isInt

end HeadField

def HttpclientDataExt.note (ext : HttpclientDataExt) (f : HeadField) : HttpclientDataExt :=
  { ext with
    isRange := if f.takenForRange then true else ext.isRange
    rangeBeg := f.rangeBeg.getD ext.rangeBeg
    rangeEnd := f.rangeEnd.getD ext.rangeEnd
    rangeLen := f.rangeLen.getD ext.rangeLen
    ifRange := f.etag.getD ext.ifRange
    location := f.location.getD ext.location }

/-- What is noted of a regular field. -/
def HttpclientData.note (cd : HttpclientData) (f : HeadField) : HttpclientData :=
  { cd with
    isChunked := if f.takenForChunked then true else cd.isChunked
    responseContentLen := f.notedLength.getD cd.responseContentLen
    retrieveLen := f.notedLength.getD cd.retrieveLen
    ext := cd.ext.map fun ext => ext.note f }

section
variable {f : HeadField} {t : List Byte} {k k' : FieldKind} {cd : HttpclientData}

theorem scanLit_append (lit s : List Byte) : scanLit lit (lit ++ s) = some s := by
  simp [scanLit]

theorem take_name : (cstr (f.line ++ t)).take f.name.length = f.name := by
  rw [cstr_append f.line_no_nul, HeadField.line, List.append_assoc, List.take_left]

theorem caseEq_length {a b : List Byte} (h : caseEq a b) : a.length = b.length := by
  have := congrArg List.length h
  simpa using this

/-- A name is compared with as much of a known one as it is long. -/
theorem strncasecmp0_name (k : FieldKind) :
    strncasecmp0 (f.line ++ t) k.name f.name.length = decide (caseEq f.name (k.name.take f.name.length)) := by
  rw [strncasecmp0, take_name, cstr_eq_self k.name_no_nul]

/-- None of the known names abbreviates another. -/
theorem FieldKind.caseEq_take : ∀ k k' : FieldKind, caseEq k.name (k'.name.take k.name.length) ↔ k' = k := by
  intro k k'
  cases k <;> cases k' <;> decide

/-- A known name is taken for itself only. -/
theorem strncasecmp0_kind (h : f.kind = some k) (k' : FieldKind) :
    strncasecmp0 (f.line ++ t) k'.name f.name.length = decide (k' = k) := by
  have hk := HeadField.kind_eq_some h
  rw [strncasecmp0_name, caseEq_length hk, decide_eq_decide, ← FieldKind.caseEq_take]
  unfold caseEq at hk ⊢
  rw [hk]

theorem value_no_nul (f : HeadField) : (0 : Byte) ∉ f.value := fun hm => (f.value_ok _ hm).1 rfl

theorem strncasecmp0_value (hlen : f.value.length < 4294967296) :
    strncasecmp0 (f.value ++ t) (bytes "Chunked") (toSize .lp64 (f.value.length : Int)) =
      decide (caseEq f.value (chunkedCoding.take f.value.length)) := by
  rw [toSize_eq hlen, strncasecmp0, cstr_append (value_no_nul f), List.take_left,
    cstr_eq_self (show (0 : Byte) ∉ bytes "Chunked" by decide), chunkedCoding]

theorem scan_digits {ds rest : List Byte} (h : Digits ds) (hr : ∀ x ∈ rest.head?, isDigit x = false) :
    scanInt (ds ++ rest) = some ((decVal ds : Int), rest) := scanInt_digits h.1 h.2 hr

theorem scan_space_digits {ds rest : List Byte} (h : Digits ds) (hr : ∀ x ∈ rest.head?, isDigit x = false) :
    scanInt (scanSpace (bytes " " ++ (ds ++ rest))) = some ((decVal ds : Int), rest) := by
  have hspace : scanSpace (bytes " " ++ (ds ++ rest)) = scanSpace (ds ++ rest) := rfl
  obtain ⟨c, ds', rfl⟩ := List.exists_cons_of_ne_nil h.1
  have hc : isDigit c = true := h.2 c (by simp)
  have hns : isSpace c = false := by
    simp only [isDigit, isSpace, decide_eq_true_eq, decide_eq_false_iff_not] at hc ⊢; omega
  rw [hspace, scanSpace_eq_self (by simpa using hns)]
  exact scan_digits h hr

/-- The numbers a value of a known form is read as, whatever follows it. -/
theorem scanRange_form {v : List Byte} {a b c : Option (List Byte)} (h : ContentRangeForm v a b c)
    (ht : ∀ x ∈ t.head?, isDigit x = false) :
    (scanRange (v ++ t)).1.map Prod.fst = a.map (fun ds => (decVal ds : Int)) ∧
    (scanRange (v ++ t)).2.1.map Prod.fst = b.map (fun ds => (decVal ds : Int)) ∧
    (scanRange (v ++ t)).2.2.map Prod.fst = c.map (fun ds => (decVal ds : Int)) := by
  have hbytes : bytes "bytes " = bytes "bytes" ++ bytes " " := by decide
  have hdash : ∀ s : List Byte, ∀ x ∈ (bytes "-" ++ s).head?, isDigit x = false := by
    intro s x hx; obtain rfl : 45 = x := by simpa [bytes] using hx
    decide
  have hslash : ∀ s : List Byte, ∀ x ∈ (bytes "/" ++ s).head?, isDigit x = false := by
    intro s x hx; obtain rfl : 47 = x := by simpa [bytes] using hx
    decide
  cases h with
  | full ha hb hc =>
    simp only [scanRange, hbytes, List.append_assoc, scanLit_append, Option.bind_some,
      scan_space_digits ha (hdash _), scan_digits hb (hslash _), scan_digits hc ht, Option.map_some, and_self]
  | unknown ha hb =>
    have hstar : bytes "/*" = bytes "/" ++ [42] := by decide
    have hnone : scanInt ([42] ++ t) = none := by
      simp [scanInt, scanSpace, scanSign, isSpace, isDigit]
    simp only [scanRange, hbytes, hstar, List.append_assoc, scanLit_append, Option.bind_some,
      scan_space_digits ha (hdash _), scan_digits hb (hslash _), hnone, Option.map_some, Option.map_none, and_self]
  | unsatisfied hc =>
    have hstar : bytes "bytes */" = bytes "bytes" ++ [32, 42, 47] := by decide
    have hnone : ∀ s : List Byte, scanInt (scanSpace ([32, 42, 47] ++ s)) = none := by
      intro s; simp [scanInt, scanSpace, scanSign, isSpace, isDigit]
    simp only [scanRange, hstar, List.append_assoc, scanLit_append, Option.bind_some,
      hnone, Option.bind_none, Option.map_none, and_self]

theorem not_digit_crlf (t : List Byte) : ∀ x ∈ (crlf ++ t).head?, isDigit x = false := by
  intro x hx
  obtain rfl : 13 = x := by simpa [crlf] using hx
  decide

/-- A number is stored if it is an `int`. -/
theorem scanStore_eq {res : Option (Int × List Byte)} {o : Option Int} {old : Int} (h : res.map Prod.fst = o) :
    scanStore res old = if o.all isInt then some (o.getD old) else none := by
  subst h
  cases res with
  | none => rfl
  | some r => exact int32?_eq_ite r.1

/-- What a `Content-Range` gives is noted, whatever follows it. -/
theorem httpclientContentRange_form {v : List Byte} {a b c : Option (List Byte)} (h : ContentRangeForm v a b c)
    (ht : ∀ x ∈ t.head?, isDigit x = false) (ext : HttpclientDataExt) :
    httpclientContentRange (v ++ t) ext =
      if [(scanRange v).1.map Prod.fst, (scanRange v).2.1.map Prod.fst, (scanRange v).2.2.map Prod.fst].all
        fun o => o.all isInt
      then some { ext with
        rangeBeg := ((scanRange v).1.map Prod.fst).getD ext.rangeBeg
        rangeEnd := ((scanRange v).2.1.map Prod.fst).getD ext.rangeEnd
        rangeLen := ((scanRange v).2.2.map Prod.fst).getD ext.rangeLen }
      else none := by
  obtain ⟨h1, h2, h3⟩ := scanRange_form h ht
  obtain ⟨g1, g2, g3⟩ := scanRange_form (t := []) h (by simp)
  rw [List.append_nil] at g1 g2 g3
  simp only [httpclientContentRange, scanStore_eq h1, scanStore_eq h2, scanStore_eq h3, g1, g2, g3, List.all_cons,
    List.all_nil, Bool.and_true, Bool.and_eq_true]
  generalize a.map (fun ds => (decVal ds : Int)) = na
  generalize b.map (fun ds => (decVal ds : Int)) = nb
  generalize c.map (fun ds => (decVal ds : Int)) = nc
  by_cases ha : na.all isInt
  · by_cases hb : nb.all isInt
    · by_cases hc : nc.all isInt
      · simp only [ha, hb, hc, if_true, and_self, Option.bind_eq_bind, Option.bind_some]
      · simp only [ha, hb, hc, if_true, and_false, if_false, Bool.false_eq_true, Option.bind_eq_bind, Option.bind_some,
          Option.bind_none]
    · simp only [ha, hb, if_true, false_and, and_false, if_false, Bool.false_eq_true, Option.bind_eq_bind,
        Option.bind_some, Option.bind_none]
  · simp only [ha, false_and, if_false, Bool.false_eq_true, Option.bind_eq_bind, Option.bind_none]

theorem copyValue_append : copyValue (f.value ++ t) (f.value.length : Int) = some f.value := by
  rw [copyValue, if_neg (by omega), Int.toNat_natCast, List.take_left]

/-- Only a length and a range have numbers. -/
theorem HeadField.all_numbers (f : HeadField) (p : Int → Bool) :
    ([f.length, f.rangeBeg, f.rangeEnd, f.rangeLen].all fun o => o.all p) =
      match f.kind with
      | some .contentLength => p (decVal f.value)
      | some .contentRange =>
        [(scanRange f.value).1.map Prod.fst, (scanRange f.value).2.1.map Prod.fst,
          (scanRange f.value).2.2.map Prod.fst].all fun o => o.all p
      | _ => true := by
  unfold length rangeBeg rangeEnd rangeLen
  rcases Option.eq_none_or_eq_some f.kind with hk | ⟨k, hk⟩
  · simp [hk]
  · cases k <;> simp [hk]

/-- **A regular field does what its name says**, whatever comes behind its line. -/
theorem httpclientField_eq {ext : HttpclientDataExt} (hext : cd.ext = some ext) (hreg : f.Regular)
    (hlen : f.value.length < 4294967296) :
    httpclientField cd (f.line ++ (crlf ++ t)) f.name.length f.value.length =
      if f.fits then some (cd.note f) else none := by
  have hvalue := f.drop_value (crlf ++ t)
  obtain ⟨hreg, hnamed⟩ := hreg
  unfold HeadField.WellFormed at hreg
  cases cd
  cases hext
  simp only [HttpclientData.note, HttpclientDataExt.note, HeadField.notedLength, HeadField.takenForChunked,
    HeadField.takenForRange, HeadField.length, HeadField.rangeBeg, HeadField.rangeEnd, HeadField.rangeLen,
    HeadField.etag, HeadField.location, httpclientField, show f.fits = _ from f.all_numbers isInt]
  rcases Option.eq_none_or_eq_some f.kind with hk | ⟨k, hk⟩
  · simp only [hk]
    have no : ∀ k : FieldKind, strncasecmp0 (f.line ++ (crlf ++ t)) k.name f.name.length = false :=
      fun k => by rw [strncasecmp0_name, decide_eq_false (hnamed hk k)]
    have hcl := no .contentLength
    have hte := no .transferEncoding
    have har := no .acceptRanges
    have hcr := no .contentRange
    have het := no .etag
    have hlo := no .location
    simp only [FieldKind.name] at hcl hte har hcr het hlo
    simp [hcl, hte, har, hcr, het, hlo]
  · simp only [hk] at hreg ⊢
    have yes : ∀ k' : FieldKind, strncasecmp0 (f.line ++ (crlf ++ t)) k'.name f.name.length = decide (k' = k) :=
      strncasecmp0_kind hk
    have hcl := yes .contentLength
    have hte := yes .transferEncoding
    have har := yes .acceptRanges
    have hcr := yes .contentRange
    have het := yes .etag
    have hlo := yes .location
    simp only [FieldKind.name] at hcl hte har hcr het hlo
    simp only [hcl, hte, har, hcr, het, hlo, hvalue]
    cases k with
    | contentLength =>
      simp only [decide_true, if_true, scan_digits hreg (not_digit_crlf t), scanStore, int32?_eq_ite]
      by_cases hfits : isInt (decVal f.value) <;> simp [hfits]
    | transferEncoding =>
      simp only [reduceCtorEq, decide_true, decide_false, if_true, Bool.false_eq_true, if_false,
        strncasecmp0_value hlen]
      by_cases hv : caseEq f.value (chunkedCoding.take f.value.length) <;> simp [hv]
    | acceptRanges =>
      simp
    | contentRange =>
      obtain ⟨a, b, c, hform⟩ := hreg
      simp only [reduceCtorEq, decide_true, decide_false, if_true, Bool.false_eq_true, if_false, Bool.or_true,
        httpclientContentRange_form hform (not_digit_crlf t)]
      split <;> simp_all
    | etag =>
      simp only [reduceCtorEq, decide_true, decide_false, if_true, Bool.false_eq_true, if_false, Bool.or_self,
        copyValue_append]
      by_cases hv : f.value.length < httpclientIfRangeSize <;> simp [hv]
    | location =>
      simp only [reduceCtorEq, decide_true, decide_false, if_true, Bool.false_eq_true, if_false, Bool.or_self,
        copyValue_append]
      by_cases hv : f.value.length < httpclientLocationSize <;> simp [hv]

end

/-! ## The whole head -/

theorem encodeFields_cons (f : HeadField) (fs : List HeadField) :
    encodeFields (f :: fs) = f.line ++ crlf ++ encodeFields fs := by
  simp [encodeFields]

section
variable {fs : List HeadField} {data body line rest : List Byte} {s : Socket} {fuel : Nat} {cd : HttpclientData}

/-- Where the line is not complete, some more of it is read. -/
theorem httpclientHeaders_more (code : Int) (fuel : Nat) (cd : HttpclientData) (hs : s.NoFail)
    (h : data ++ s.bytes = line ++ crlf ++ rest)
    (hfits : line.length + 2 ≤ 2047) (hlt : data.length < line.length + 2) (hnone : strstr crlf (cstr data) = none) :
    ∃ new s', httpclientHeaders code (fuel + 1) cd data s = httpclientHeaders code fuel cd (data ++ new) s' ∧
      data ++ new ++ s'.bytes = line ++ crlf ++ rest ∧ s'.NoFail ∧ (data ++ new).length ≤ 2047 ∧
      load (data ++ new) s' < load data s := by
  have hbytes := congrArg List.length h
  simp only [List.length_append, show crlf.length = 2 from rfl] at hbytes
  obtain ⟨new, s', k1, k2, k3, k4, k5, k6, -⟩ := httpclientRecv_ok hs
    (show 1 ≤ 2048 - data.length - 1 by omega) (show 1 ≤ s.bytes.length by omega)
  have hroom : data.length < httpclientChunkSize - 1 := by show data.length < 2047; omega
  have hgo : ¬ (HttpclientResult.ok = .errorConn ∨ HttpclientResult.ok = .closed ∧ new = []) := by simp
  refine ⟨new, s', ?_, ?_, k3, ?_, ?_⟩
  · rw [httpclientHeaders, hnone]
    simp only [if_pos hroom]
    rw [show httpclientChunkSize - data.length - 1 = 2048 - data.length - 1 from rfl, k1]
    simp only [if_neg hgo]
  · rw [List.append_assoc, k2, h]
  · simp only [List.length_append]; omega
  · simp only [load, List.length_append]; omega

/-- A complete line is taken off. -/
theorem httpclientHeaders_field {code : Int} {f : HeadField} {ext : HttpclientDataExt} (hext : cd.ext = some ext)
    (hreg : f.Regular) (hlen : f.line.length < 2048) :
    httpclientHeaders code (fuel + 1) cd (f.line ++ crlf ++ rest) s =
      if f.fits then httpclientHeaders code fuel (cd.note f) rest s else none := by
  have hcstr : cstr (f.line ++ (crlf ++ rest)) = f.line ++ (crlf ++ cstr rest) := by
    rw [cstr_append f.line_no_nul, cstr_append (by decide)]
  have hpos : strstr crlf (f.line ++ (crlf ++ cstr rest)) = some f.line.length := by
    rw [← List.append_assoc]; exact strstr_crlf f.line_no_cr
  have hne : ¬ f.line.length = 0 := by rw [f.length_line]; omega
  have hval : ((f.line.length : Int) - f.name.length - 2) = f.value.length := by rw [f.length_line]; push_cast; omega
  have hdrop : (f.line ++ (crlf ++ rest)).drop (f.line.length + 2) = rest := by
    rw [← List.append_assoc, ← show (f.line ++ crlf).length = f.line.length + 2 by simp [crlf], List.drop_left]
  rw [List.append_assoc, httpclientHeaders, hcstr, hpos]
  simp only [if_neg hne, f.strstr_colon, hval, hdrop]
  rw [httpclientField_eq hext hreg (by rw [f.length_line] at hlen; omega)]
  split <;> rfl

/-- The empty line ends the head. -/
theorem httpclientHeaders_end {code : Int} :
    httpclientHeaders code (fuel + 1) cd (crlf ++ rest) s = some (.done code cd rest s) := by
  have hpos : strstr crlf (cstr (crlf ++ rest)) = some 0 := by
    rw [cstr_append (by decide)]; exact @strstr_crlf _ [] (by simp)
  rw [httpclientHeaders, hpos]
  simp [crlf]

/-- **The fields are taken one after the other**, however they arrive. Induction on the turns: each one
takes a line off or reads some more. -/
theorem httpclientHeaders_spec (code : Int) {ext : HttpclientDataExt} (hext : cd.ext = some ext) (hs : s.NoFail) (hreg : ∀ f ∈ fs, f.Regular)
    (h : data ++ s.bytes = encodeFields fs ++ body) (hfits : (encodeFields fs).length ≤ 2047)
    (hlen : data.length ≤ 2047) (hfuel : load data s < fuel) :
    ∃ data' s', httpclientHeaders code fuel cd data s =
        (if ∀ f ∈ fs, f.fits then some (.done code (fs.foldl HttpclientData.note cd) data' s') else none) ∧
      data' ++ s'.bytes = body ∧ s'.NoFail ∧ data'.length ≤ 2047 ∧
      ((encodeFields fs).length ≤ data.length → s' = s) := by
  induction fuel generalizing fs data s cd ext with
  | zero => omega
  | succ fuel ih =>
    cases fs with
    | nil =>
      have hnil : encodeFields [] = crlf := rfl
      rw [hnil] at h
      rcases @strstr_line [] data s.bytes body (by simp) (by simp) h with ⟨t, rfl, ht, -⟩ | ⟨hlt, hnone⟩
      · rw [List.nil_append]
        refine ⟨t, s, by rw [httpclientHeaders_end]; simp, ht, hs, ?_, fun _ => rfl⟩
        simp only [List.length_append] at hlen; omega
      · obtain ⟨new, s', k1, k2, k3, k4, k5⟩ := httpclientHeaders_more code fuel cd hs h (by simp) hlt hnone
        obtain ⟨data', s'', g1, g2, g3, g4, -⟩ := @ih [] _ s' cd _ hext k3 (by simp) k2 hfits k4 (by omega)
        refine ⟨data', s'', by rw [k1, g1], g2, g3, g4, fun hle => ?_⟩
        simp only [hnil, show crlf.length = 2 from rfl, List.length_nil] at hle hlt
        omega
    | cons f fs =>
      rw [encodeFields_cons, List.append_assoc _ _ body] at h
      have hfits' := hfits
      rw [encodeFields_cons, List.length_append, List.length_append, show crlf.length = 2 from rfl] at hfits'
      rcases strstr_line f.line_no_cr f.line_no_nul h with ⟨t, rfl, ht, -⟩ | ⟨hlt, hnone⟩
      · have hload : load t s < fuel := by
          simp only [load, List.length_append, show crlf.length = 2 from rfl] at hfuel ⊢; omega
        have htlen : t.length ≤ 2047 := by simp only [List.length_append] at hlen; omega
        have hfs : ∀ g ∈ fs, g.Regular := fun g hg => hreg g (List.mem_cons_of_mem _ hg)
        rw [httpclientHeaders_field hext (hreg f List.mem_cons_self) (by omega)]
        have hsame : ∀ {s' : Socket}, ((encodeFields fs).length ≤ t.length → s' = s) →
            (encodeFields (f :: fs)).length ≤ (f.line ++ crlf ++ t).length → s' = s := by
          intro s' hs' hle
          rw [encodeFields_cons, List.length_append, @List.length_append _ _ t] at hle
          exact hs' (by omega)
        have hext' : (cd.note f).ext = some (ext.note f) := by rw [HttpclientData.note, hext]; rfl
        obtain ⟨data', s', g1, g2, g3, g4, g5⟩ := @ih fs t s (cd.note f) _ hext' hs hfs ht (by omega) htlen hload
        refine ⟨data', s', ?_, g2, g3, g4, hsame g5⟩
        by_cases hf : f.fits
        · rw [if_pos hf, g1]
          simp only [List.forall_mem_cons, hf, true_and, List.foldl_cons]
        · rw [if_neg hf, if_neg fun h => hf (h f List.mem_cons_self)]
      · obtain ⟨new, s', k1, k2, k3, k4, k5⟩ := httpclientHeaders_more code fuel cd hs h (by omega) hlt hnone
        obtain ⟨data', s'', g1, g2, g3, g4, -⟩ := @ih (f :: fs) _ s' cd _ hext k3 hreg
          (by rw [k2, encodeFields_cons, List.append_assoc _ _ body]) hfits k4 (by omega)
        refine ⟨data', s'', by rw [k1, g1], g2, g3, g4, fun hle => ?_⟩
        rw [encodeFields_cons, List.length_append, List.length_append, show crlf.length = 2 from rfl] at hle
        omega

/-- The status code is read off the status line. -/
theorem StatusLine.scan (l : StatusLine) : httpclientStatusLine l.line = some (l.status : Int) := by
  have hmajor : Digits [l.major] := ⟨by simp, by simpa using l.major_ok⟩
  have hminor : Digits [l.minor] := ⟨by simp, by simpa using l.minor_ok⟩
  have hcode : Digits l.code := ⟨fun h => by simpa [h] using l.code_len, l.code_ok⟩
  have hdot : ∀ s : List Byte, ∀ x ∈ (bytes "." ++ s).head?, isDigit x = false := by
    intro s x hx; obtain rfl : 46 = x := by simpa [bytes] using hx
    decide
  have hspace : ∀ s : List Byte, ∀ x ∈ (bytes " " ++ s).head?, isDigit x = false := by
    intro s x hx; obtain rfl : 32 = x := by simpa [bytes] using hx
    decide
  simp only [httpclientStatusLine, StatusLine.line, scanLit_append, scan_digits hmajor (hdot _),
    scan_digits hminor (hspace _), scan_space_digits hcode (hspace _), Option.bind_eq_bind, Option.bind_some,
    StatusLine.status]

theorem StatusLine.line_no_cr (l : StatusLine) : (13 : Byte) ∉ l.line := by
  have hdigit : ∀ b : Byte, isDigit b → b ≠ 13 := by rintro b hb rfl; revert hb; decide
  simp only [StatusLine.line, List.mem_append, List.mem_singleton, not_or]
  exact ⟨by decide, (hdigit _ l.major_ok).symm, by decide, (hdigit _ l.minor_ok).symm, by decide,
    fun hm => hdigit _ (l.code_ok _ hm) rfl, by decide, fun hm => (l.reason_ok _ hm).2.2 rfl⟩

theorem StatusLine.line_no_nul (l : StatusLine) : (0 : Byte) ∉ l.line := by
  have hdigit : ∀ b : Byte, isDigit b → b ≠ 0 := by rintro b hb rfl; revert hb; decide
  simp only [StatusLine.line, List.mem_append, List.mem_singleton, not_or]
  exact ⟨by decide, (hdigit _ l.major_ok).symm, by decide, (hdigit _ l.minor_ok).symm, by decide,
    fun hm => hdigit _ (l.code_ok _ hm) rfl, by decide, fun hm => (l.reason_ok _ hm).1 rfl⟩

theorem StatusLine.status_lt (l : StatusLine) : l.status < 1000 := by
  have h := decVal_lt l.code_ok
  rw [l.code_len] at h
  simpa [StatusLine.status] using h

/-- What the parser starts the fields with. -/
def HttpclientData.headStart (cd : HttpclientData) : HttpclientData :=
  { cd with
    isChunked := false
    responseContentLen := -1
    ext := cd.ext.map fun ext => { ext with rangeBeg := 0, rangeEnd := 0, rangeLen := 0, isRange := false } }

/-- **The head is taken as it stands if its status line came at once**, and else not at all. -/
theorem httpclientParseHead_spec {h : Head} (code : Int) {ext : HttpclientDataExt} (hext : cd.ext = some ext)
    (hs : s.NoFail) (hreg : ∀ f ∈ h.fields, f.Regular) (hsplit : data ++ s.bytes = h.encode ++ body)
    (hfits : h.encode.length ≤ 2047) (hlen : data.length ≤ 2047) :
    (h.status.line.length + 2 ≤ data.length ∧ ∃ data' s', httpclientParseHead code data cd s =
        (if ∀ f ∈ h.fields, f.fits then
          some (.done h.status.status (h.fields.foldl HttpclientData.note cd.headStart) data' s') else none) ∧
      data' ++ s'.bytes = body ∧ s'.NoFail ∧ data'.length ≤ 2047 ∧ (h.encode.length ≤ data.length → s' = s)) ∨
    (data.length < h.status.line.length + 2 ∧
      ∃ cd', httpclientParseHead code data cd s = some (.ret .errorPrtcl code cd' s)) := by
  have henc : h.encode.length = h.status.line.length + 2 + (encodeFields h.fields).length := by
    simp only [Head.encode, List.length_append, show crlf.length = 2 from rfl]
  rw [Head.encode, List.append_assoc _ _ body] at hsplit
  rcases strstr_line h.status.line_no_cr h.status.line_no_nul hsplit with ⟨t, rfl, ht, hpos⟩ | ⟨hlt, hnone⟩
  · left
    have hcode : int32? (h.status.status : Int) = some (h.status.status : Int) :=
      int32?_eq (by omega) (by have := h.status.status_lt; omega)
    have htake : (h.status.line ++ crlf ++ t).take h.status.line.length = h.status.line := by
      rw [List.append_assoc, List.take_left]
    have hdrop : (h.status.line ++ crlf ++ t).drop (h.status.line.length + 2) = t := by
      rw [← show (h.status.line ++ crlf).length = h.status.line.length + 2 by simp [crlf], List.drop_left]
    simp only [List.length_append, show crlf.length = 2 from rfl] at hlen ⊢
    have hstart : cd.headStart.ext = some { ext with rangeBeg := 0, rangeEnd := 0, rangeLen := 0, isRange := false } := by
      rw [HttpclientData.headStart, hext]; rfl
    obtain ⟨data', s', k1, k2, k3, k4, k5⟩ := httpclientHeaders_spec h.status.status hstart hs hreg ht
      (by omega) (by omega : t.length ≤ 2047) (show load t s < turns t s by unfold load turns; omega)
    refine ⟨by omega, data', s', ?_, k2, k3, k4, fun hle => k5 (by omega)⟩
    simp only [httpclientParseHead, hpos, htake, h.status.scan, hcode, hdrop, Option.bind_eq_bind, Option.bind_some]
    exact k1
  · right
    have hret : httpclientParseHead code data cd s = some (.ret .errorPrtcl code { cd with
        responseContentLen := -1
        ext := cd.ext.map fun ext => { ext with rangeBeg := 0, rangeEnd := 0, rangeLen := 0, isRange := false } } s) := by
      simp only [httpclientParseHead, hnone]
    exact ⟨hlt, _, hret⟩

end

end AudioPlayer

import Mathlib
import AudioPlayer.Httpclient.Retrieve

/-!
# The head of a response (`httpclient_response_parse`, `utils/httpclient.c:889-1051`)

| here | there |
| --- | --- |
| `httpclientStatusLine`  | the `sscanf` of the status line (`:920`) |
| `httpclientContentRange`| the `sscanf` of `Content-Range` (`:1023`) |
| `httpclientField`       | what one `name: value` line does (`:996-1041`) |
| `httpclientHeaders`     | the loop over the lines (`:957-1049`) |
| `httpclientParseHead`   | the function up to its call of `httpclient_retrieve_content` |

A name is compared over the length of what was received, so a field is taken for the first of the known
ones that it abbreviates. `sscanf` reads from the value on and does not stop at the end of the line.
-/

namespace AudioPlayer
open Lib

def contentLengthName    : List Byte := bytes "Content-Length"
def transferEncodingName : List Byte := bytes "Transfer-Encoding"
def acceptRangesName     : List Byte := bytes "Accept-Ranges"
def contentRangeName     : List Byte := bytes "Content-Range"
def etagName             : List Byte := bytes "ETag"
def locationName         : List Byte := bytes "Location"

def httpclientIfRangeSize : Nat := 128
def httpclientLocationSize : Nat := 512

/-- `"HTTP/%*d.%*d %d %*[^\r\n]"`: the status code. -/
def httpclientStatusLine (line : List Byte) : Option Int := do
  let s ← scanLit (bytes "HTTP/") line
  let (_, s) ← scanInt s
  let s ← scanLit (bytes ".") s
  let (_, s) ← scanInt s
  let (code, _) ← scanInt (scanSpace s)
  some code

/-- An integer `sscanf` has converted is stored in an `int`; where there was none, the variable keeps its
value. -/
def scanStore (res : Option (Int × List Byte)) (old : Int) : Option Int :=
  match res with
  | none => some old
  | some (n, _) => int32? n

/-- What `"bytes %d-%d/%d[^\r]"` converts; a `%d` that is not reached converts nothing. -/
def scanRange (value : List Byte) : Option (Int × List Byte) × Option (Int × List Byte) × Option (Int × List Byte) :=
  let beg := (scanLit (bytes "bytes") value).bind fun s => scanInt (scanSpace s)
  let fin := beg.bind fun r => (scanLit (bytes "-") r.2).bind scanInt
  let len := fin.bind fun r => (scanLit (bytes "/") r.2).bind scanInt
  (beg, fin, len)

/-- The `sscanf` of a `Content-Range`. -/
def httpclientContentRange (value : List Byte) (ext : HttpclientDataExt) : Option HttpclientDataExt := do
  let (beg, fin, len) := scanRange value
  let rangeBeg ← scanStore beg ext.rangeBeg
  let rangeEnd ← scanStore fin ext.rangeEnd
  let rangeLen ← scanStore len ext.rangeLen
  some { ext with rangeBeg, rangeEnd, rangeLen }

/-- `memcpy` of the value into a buffer of `ext`; a negative length is undefined. -/
def copyValue (value : List Byte) (valueLen : Int) : Option (List Byte) :=
  if valueLen < 0 then none else some (value.take valueLen.toNat)

/-- One line: the string `data` starts with it, its name has `keyLen` bytes and its value `valueLen`. -/
def httpclientField (cd : HttpclientData) (data : List Byte) (keyLen : Nat) (valueLen : Int) :
    Option HttpclientData :=
  let value := data.drop (keyLen + 2)
  if strncasecmp0 data contentLengthName keyLen then do
    let n ← scanStore (scanInt value) cd.responseContentLen
    some { cd with responseContentLen := n, retrieveLen := n }
  else if strncasecmp0 data transferEncodingName keyLen then
    if strncasecmp0 value (bytes "Chunked") (toSize .lp64 valueLen) then
      some { cd with isChunked := true, responseContentLen := 0, retrieveLen := 0 }
    else some cd
  else if strncasecmp0 data acceptRangesName keyLen || strncasecmp0 data contentRangeName keyLen then
    match cd.ext with
    | none => some cd
    | some ext =>
      let ext := { ext with isRange := true }
      if strncasecmp0 data contentRangeName keyLen then do
        let ext ← httpclientContentRange value ext
        some { cd with ext := some ext }
      else some { cd with ext := some ext }
  else if strncasecmp0 data etagName keyLen then
    match cd.ext with
    | some ext =>
      if valueLen < httpclientIfRangeSize then do
        let ifRange ← copyValue value valueLen
        some { cd with ext := some { ext with ifRange } }
      else some cd
    | none => some cd
  else if strncasecmp0 data locationName keyLen then
    match cd.ext with
    | some ext =>
      if valueLen < httpclientLocationSize then do
        let location ← copyValue value valueLen
        some { cd with ext := some { ext with location } }
      else some cd
    | none => some cd
  else some cd

inductive ParsedHead
  | done (code : Int) (cd : HttpclientData) (data : List Byte) (s : Socket)
  | ret (ret : HttpclientResult) (code : Int) (cd : HttpclientData) (s : Socket)
deriving DecidableEq, Repr

/-- The loop over the header lines. -/
def httpclientHeaders (code : Int) : Nat → HttpclientData → List Byte → Socket → Option ParsedHead
  | 0, _, _, _ => none
  | fuel + 1, cd, data, s =>
    match strstr crlf (cstr data) with
    | none =>
      if data.length < httpclientChunkSize - 1 then
        let (ret, new, s) := httpclientRecv 1 (httpclientChunkSize - data.length - 1) s
        if ret = .errorConn ∨ ret = .closed ∧ new = [] then some (.ret ret code cd s)
        else httpclientHeaders code fuel cd (data ++ new) s
      else some (.ret .error code cd s)
    | some pos =>
      if pos = 0 then some (.done code cd (data.drop 2) s)
      else
        match strstr (bytes ": ") (cstr data) with
        | none => some (.ret .error code cd s)
        | some colon => do
          let cd ← httpclientField cd (cstr data) colon (pos - colon - 2)
          httpclientHeaders code fuel cd (data.drop (pos + 2)) s

/-- `httpclient_response_parse` up to the body; `code` is the response code of the last answer. -/
def httpclientParseHead (code : Int) (data : List Byte) (cd : HttpclientData) (s : Socket) : Option ParsedHead :=
  let cd := { cd with
    responseContentLen := -1
    ext := cd.ext.map fun ext => { ext with rangeBeg := 0, rangeEnd := 0, rangeLen := 0, isRange := false } }
  match strstr crlf (cstr data) with
  | none => some (.ret .errorPrtcl code cd s)
  | some pos =>
    match httpclientStatusLine (data.take pos) with
    | none => some (.ret .errorPrtcl code cd s)
    | some code => do
      let code ← int32? code
      let data := data.drop (pos + 2)
      httpclientHeaders code (turns data s) { cd with isChunked := false } data s

/-- `httpclient_response_parse`. -/
def httpclientResponseParse (expired : Socket → Bool) (code : Int) (data : List Byte) (cd : HttpclientData)
    (s : Socket) : Option (HttpclientResult × Int × HttpclientData × Socket) := do
  match ← httpclientParseHead code data cd s with
  | .ret ret code cd s => some (ret, code, cd, s)
  | .done code cd data s =>
    let (ret, cd, s) ← httpclientRetrieveContent expired data cd s
    some (ret, code, cd, s)

end AudioPlayer

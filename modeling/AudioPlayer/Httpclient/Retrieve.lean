import Mathlib
import AudioPlayer.Lib.CInt
import AudioPlayer.Httpclient.Recv

/-!
# The body of a response (`httpclient_retrieve_content`, `utils/httpclient.c:681-887`)

| here | there |
| --- | --- |
| `HttpclientData`, `HttpclientDataExt` | `httpclient_data_t`, `httpclient_data_ext_t` (`httpclient.h`), without the header and post buffers |
| `httpclientChunkHeader` | the `do`-loop that reads a chunk's size line (`:739-767`) |
| `httpclientReadLen`     | the chunk header as a whole, or what is left of the content (`:735-788`) |
| `httpclientRetrieveBody`| the `do`-loop that fills the response buffer (`:801-853`) |
| `httpclientChunkEnd`    | the line end behind a chunk (`:855-871`) |
| `httpclientReadToClose` | the body without a length (`:698-729`) |

`data` is the filled part of the 2048-byte receive buffer, `out` that of the response buffer. No value is
undefined behaviour or a loop that does not end; a chunk's size goes through a `size_t` of 64 bits. `expired` is
what the five-second timer says when `s` is still to come.

`Httpclient.Framing` says what comes out.
-/

namespace AudioPlayer
open Lib

/-- `httpclient_data_ext_t`; `remainData` is `remain_data_buf[0 .. remain_data_len)`. -/
structure HttpclientDataExt where
  isRange    : Bool := false
  ifRange    : List Byte := []
  rangeBeg   : Int := 0
  rangeEnd   : Int := 0
  rangeLen   : Int := 0
  location   : List Byte := []
  remainData : List Byte := []
deriving DecidableEq, Repr

/-- `httpclient_data_t`. -/
structure HttpclientData where
  isMore             : Bool := false
  isChunked          : Bool := false
  retrieveLen        : Int := 0
  responseContentLen : Int := 0
  contentBlockLen    : Nat := 0
  responseBufLen     : Nat
  responseBuf        : List Byte := []
  ext                : Option HttpclientDataExt
deriving DecidableEq, Repr

/-- The block a call delivers. -/
def HttpclientData.block (cd : HttpclientData) : List Byte := cd.responseBuf.take cd.contentBlockLen

def httpclientChunkSize : Nat := 2048

/-- Turns enough for every loop below: each turn uses up input. -/
def turns (data : List Byte) (s : Socket) : Nat := 2 * s.weight + data.length + 4

inductive ChunkHeader
  | found (line data : List Byte) (s : Socket)
  | ret (ret : HttpclientResult) (s : Socket)

/-- The loop that reads up to the end of the size line; it wants one byte behind it. -/
def httpclientChunkHeader (bufLen : Nat) : Nat → List Byte → Socket → Option ChunkHeader
  | 0, _, _ => none
  | fuel + 1, data, s =>
    match strstr crlf data.dropLast with
    | some pos => some (.found (data.take pos) (data.drop (pos + 2)) s)
    | none =>
      if data.length < httpclientChunkSize then
        let maxRecv := min bufLen httpclientChunkSize
        -- a negative count would be converted to `size_t`
        if maxRecv < data.length + 1 then none
        else
          let (ret, new, s) := httpclientRecv 0 (maxRecv - data.length - 1) s
          if ret = .errorConn ∨ ret = .closed ∧ new = [] then some (.ret ret s)
          else httpclientChunkHeader bufLen fuel (data ++ new) s
      else some (.ret .error s)

/-- What stands at the end of a body (`httpclient.c:881-886`). -/
def httpclientFinish (cd : HttpclientData) (out : List Byte) (s : Socket) :
    HttpclientResult × HttpclientData × Socket :=
  (.ok, { cd with isMore := false, contentBlockLen := out.length, responseBuf := out,
                  ext := cd.ext.map fun ext => { ext with remainData := [] } }, s)

inductive ReadLen
  | read (cd : HttpclientData) (data : List Byte) (readLen : Nat) (s : Socket)
  | ret (res : HttpclientResult × HttpclientData × Socket)

/-- How much to read next: a new chunk's size, or what is left. -/
def httpclientReadLen (cd : HttpclientData) (out data : List Byte) (s : Socket) : Option ReadLen :=
  if cd.isChunked ∧ cd.retrieveLen ≤ 0 then do
    match ← httpclientChunkHeader cd.responseBufLen (turns data s) data s with
    | .ret ret s => some (.ret (ret, { cd with responseBuf := out }, s))
    | .found line data s =>
      match scanHex (cstr line) with
      | none => some (.ret (.errorPrtcl, { cd with retrieveLen := 0, responseBuf := out }, s))
      | some (n, _) =>
        if n ≤ -18446744073709551616 ∨ 18446744073709551616 ≤ n then none
        else
          let readLen := toSize .lp64 n
          let retrieveLen := toI32 readLen
          let responseContentLen ← int32? (cd.responseContentLen + retrieveLen)
          let cd := { cd with retrieveLen, responseContentLen }
          if readLen = 0 then some (.ret (httpclientFinish cd out s))
          else some (.read cd data readLen s)
  else some (.read cd data (toSize .lp64 cd.retrieveLen) s)

inductive RetrieveBody
  | done (cd : HttpclientData) (out data : List Byte) (s : Socket)
  | ret (res : HttpclientResult × HttpclientData × Socket)

/-- The loop that moves `readLen` bytes to the response buffer, or fills it. -/
def httpclientRetrieveBody (expired : Socket → Bool) :
    Nat → HttpclientData → List Byte → List Byte → Nat → Socket → Option RetrieveBody
  | 0, _, _, _, _, _ => none
  | fuel + 1, cd, out, data, readLen, s =>
    if expired s then some (.ret (.errorConn, { cd with responseBuf := out }, s))
    else
      let templen := min data.length readLen
      if out.length + templen < cd.responseBufLen - 1 then do
        let out := out ++ data.take templen
        let retrieveLen ← int32? (cd.retrieveLen - templen)
        if readLen ≤ data.length then
          some (.done { cd with retrieveLen := 0 } out (data.drop readLen) s)
        else
          let cd := { cd with retrieveLen }
          let readLen := readLen - data.length
          let maxLen := min (min (httpclientChunkSize - 1) (cd.responseBufLen - 1 - out.length)) readLen
          let (ret, data, s) := httpclientRecv 1 maxLen s
          if ret = .errorConn ∨ ret = .closed ∧ data = [] then
            some (.ret (ret, { cd with responseBuf := out }, s))
          else httpclientRetrieveBody expired fuel cd out data readLen s
      else do
        let room := cd.responseBufLen - 1 - out.length
        let retrieveLen ← int32? (cd.retrieveLen - room)
        let ext := cd.ext.map fun ext =>
          if room < data.length then { ext with remainData := data.drop room } else ext
        some (.ret (.retrieveMoreData,
          { cd with retrieveLen, contentBlockLen := cd.responseBufLen - 1,
                    responseBuf := out ++ data.take room, ext }, s))

inductive ChunkEnd
  | found (data : List Byte) (s : Socket)
  | ret (ret : HttpclientResult) (s : Socket)

/-- The line end behind a chunk. Where fewer than two bytes came, `data` ends with the NUL that
`httpclient_recv` puts there. -/
def httpclientChunkEnd (bufLen : Nat) (out data : List Byte) (s : Socket) : ChunkEnd :=
  let check (data : List Byte) (s : Socket) : ChunkEnd :=
    if crlf <+: data then .found (data.drop 2) s else .ret .errorPrtcl s
  if data.length < 2 then
    let maxRecv := min (bufLen - 1 - out.length + 2) (httpclientChunkSize - data.length - 1)
    let (ret, new, s) := httpclientRecv (2 - data.length) maxRecv s
    if ret = .errorConn ∨ ret = .closed ∧ new = [] then .ret ret s else check (data ++ new) s
  else check data s

/-- The loop over the chunks; one turn where the length is known. -/
def httpclientRetrieveLoop (expired : Socket → Bool) :
    Nat → HttpclientData → List Byte → List Byte → Socket → Option (HttpclientResult × HttpclientData × Socket)
  | 0, _, _, _, _ => none
  | fuel + 1, cd, out, data, s => do
    match ← httpclientReadLen cd out data s with
    | .ret res => some res
    | .read cd data readLen s =>
      match ← httpclientRetrieveBody expired (turns data s) cd out data readLen s with
      | .ret res => some res
      | .done cd out data s =>
        if cd.isChunked then
          match httpclientChunkEnd cd.responseBufLen out data s with
          | .ret ret s => some (ret, { cd with responseBuf := out }, s)
          | .found data s => httpclientRetrieveLoop expired fuel cd out data s
        else some (httpclientFinish cd out s)

/-- The loop for a body that ends with the connection. Its last block does not set
`content_block_len`. -/
def httpclientReadToClose : Nat → HttpclientData → List Byte → List Byte → Socket →
    Option (HttpclientResult × HttpclientData × Socket)
  | 0, _, _, _, _ => none
  | fuel + 1, cd, out, data, s =>
    if out.length + data.length < cd.responseBufLen - 1 then
      let out := out ++ data
      let maxLen := min (httpclientChunkSize - 1) (cd.responseBufLen - 1 - out.length)
      let (ret, data, s) := httpclientRecv 1 maxLen s
      if ret = .errorConn then some (ret, { cd with contentBlockLen := out.length, responseBuf := out }, s)
      else if data = [] then some (.ok, { cd with isMore := false, responseBuf := out }, s)
      else httpclientReadToClose fuel cd out data s
    else
      some (.retrieveMoreData,
        { cd with contentBlockLen := cd.responseBufLen - 1,
                  responseBuf := out ++ data.take (cd.responseBufLen - 1 - out.length) }, s)

/-- What the last call left over comes first (`httpclient.c:689-695`). -/
def httpclientTakeRemain (data : List Byte) (cd : HttpclientData) : List Byte × HttpclientData :=
  match cd.ext with
  | some ext =>
    if data = [] ∧ 0 < cd.retrieveLen ∧ ext.remainData ≠ [] then
      (ext.remainData, { cd with ext := some { ext with remainData := [] } })
    else (data, cd)
  | none => (data, cd)

/-- `httpclient_retrieve_content`. -/
def httpclientRetrieveContent (expired : Socket → Bool) (data : List Byte) (cd : HttpclientData) (s : Socket) :
    Option (HttpclientResult × HttpclientData × Socket) :=
  if cd.responseBufLen = 0 then none
  else
    let (data, cd) := httpclientTakeRemain data { cd with isMore := true }
    if cd.responseContentLen = -1 ∧ cd.isChunked = false then httpclientReadToClose (turns data s) cd [] data s
    else httpclientRetrieveLoop expired (turns data s) cd [] data s

end AudioPlayer

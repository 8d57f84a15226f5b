import Mathlib
import AudioPlayer.Lib.Bytes
import AudioPlayer.Httpclient.Parse

/-!
# The request head (`utils/httpclient.c:157-220`, `:272-514`)

| here | there |
|---|---|
| `httpclientParseUrl`    | `:157-220`, on a URL as a C string |
| `httpclientTcpSendAll`  | `:342-359` |
| `httpclientGetInfo`     | `:272-307`, with what it flushes (`httpclientFlush`) |
| `httpclientRequestText` | `:404-430`, what is in `buf`; `none` when `strcat` writes past its end |
| `httpclientSendHeader`  | `:361-514`, without TLS |

`SendState` is `send_buf[0 .. len)`, what `send` answers from now on, and what the socket was given.
-/

namespace AudioPlayer
open Lib

def httpclientSendBufSize : Nat := 2048
def httpclientMaxHostLen  : Nat := 64
def httpclientMaxUrlLen   : Nat := 2048

inductive HttpclientMethod
  | get | post | put | delete | head
deriving DecidableEq, Repr

/-- `meth` (`:370`) -/
def HttpclientMethod.name : HttpclientMethod → List Byte
  | .get => bytes "GET"
  | .post => bytes "POST"
  | .put => bytes "PUT"
  | .delete => bytes "DELETE"
  | .head => bytes "HEAD"

structure ParsedUrl where
  scheme : List Byte
  host   : List Byte
  port   : Nat
  path   : List Byte
deriving DecidableEq, Repr

/-- `strchr`, as an index. -/
def strchr (b : Byte) (s : List Byte) : Option Nat := s.findIdx? (· == b)

/-- The length of the host that a port in front of the slash gives, and the port (`:182-193`). -/
def httpclientParsePort (host : List Byte) (slash : Nat) : Option (Nat × Nat) :=
  match (strchr 58 host).filter (· < slash) with
  | some colon => (scanInt (host.drop (colon + 1))).map fun (port, _) => (colon, (port % 65536).toNat)
  | none => some (0, 0)

/-- `httpclient_parse_url`: `some none` is `HTTPCLIENT_ERROR_PARSE`. Lengths are unsigned: without a slash `path_ptr` is
`NULL` and the host too long, and with a fragment in front of the slash the path is; one byte in front of it the length
and its NUL are 0, and the copy of the path has no end. -/
def httpclientParseUrl (maxSchemeLen maxHostLen maxPathLen : Nat) (url : List Byte) : Option (Option ParsedUrl) :=
  match strstr (bytes "://") url with
  | none => some none
  | some schemeLen =>
    if maxSchemeLen < schemeLen + 1 then some none
    else
      let host := url.drop (schemeLen + 3)
      match strchr 47 host with
      | none => some none
      | some slash =>
        match httpclientParsePort host slash with
        | none => some none
        | some (hostLen, port) =>
          let hostLen := if hostLen = 0 then slash else hostLen
          if maxHostLen < hostLen + 1 then some none
          else
            let pathLen : Int := ((strchr 35 host).getD host.length : Int) - slash
            if pathLen = -1 then none
            else if pathLen < 0 ∨ (maxPathLen : Int) < pathLen + 1 then some none
            else
              some (some
                { scheme := url.take schemeLen, host := host.take hostLen, port
                  path := (host.drop slash).take pathLen.toNat })

/-- How `httpclient_send_header` can fail to return: it writes past the end of a buffer, or `send` does not answer. -/
inductive SendFault
  | overrun | unanswered
deriving DecidableEq, Repr

/-- What `httpclient_send_header` returns. -/
inductive SendReturn
  | ok | error | errorParse | errorConn | closed
deriving DecidableEq, Repr

structure SendState where
  sendBuf : List Byte := []
  answers : List Int
  sent    : List Byte := []
deriving DecidableEq, Repr

/-- `httpclient_tcp_send_all`: what it returns, what went out, and the answers left; `send` takes no more than it is
given. -/
def httpclientTcpSendAll : List Int → List Byte → Nat → Option (Int × List Byte × List Int)
  | answers, [], written => some (written, [], answers)
  | [], _ :: _, _ => none
  | ret :: answers, data, written =>
    if 0 < ret then
      let n := min ret.toNat data.length
      (httpclientTcpSendAll answers (data.drop n) (written + n)).map fun (r, out, answers) =>
        (r, data.take n ++ out, answers)
    else some (if ret = 0 then (written : Int) else -1, [], answers)

/-- The buffer is full (`:293-302`). Where nothing is taken (`ret` is 0) and `more` is to be copied, the loop sends it
again. -/
def httpclientFlush (isHttp more : Bool) (full : List Byte) : Nat → SendState → Except SendFault (Int × SendState)
  | 0, _ => .error .unanswered
  | fuel + 1, s =>
    if !isHttp then .ok (-1, s)
    else
      match httpclientTcpSendAll s.answers full 0 with
      | none => .error .unanswered
      | some (ret, out, answers) =>
        let sent := s.sent ++ out
        if ret ≠ 0 then .ok (ret, { s with answers, sent })
        else if more then httpclientFlush isHttp more full fuel { s with answers, sent }
        else .ok (0, { sendBuf := full, answers, sent })

/-- `httpclient_get_info` -/
def httpclientGetInfo (isHttp : Bool) (buf : List Byte) (s : SendState) : Except SendFault (Int × SendState) :=
  let room := httpclientSendBufSize - s.sendBuf.length
  let full := s.sendBuf ++ buf.take room
  if full.length < httpclientSendBufSize then .ok (0, { s with sendBuf := full })
  else httpclientFlush isHttp (decide (room < buf.length)) full (s.answers.length + 1) s

/-- `%d` -/
def decimal (i : Int) : List Byte :=
  (if i < 0 then [45] else []) ++ (Nat.toDigits 10 i.natAbs).map fun c => c.toNat.toUInt8

/-- `snprintf` into `n` bytes. -/
def snprintf (n : Nat) (s : List Byte) : List Byte := s.take (n - 1)

/-- `strcat` to a string in `n` bytes. -/
def strcat (n : Nat) (dst src : List Byte) : Option (List Byte) :=
  if dst.length + src.length < n then some (dst ++ src) else none

/-- The request line and the fields of every request (`:404`). -/
def httpclientRequestBase (method : HttpclientMethod) (path host : List Byte) : List Byte :=
  method.name ++ bytes " " ++ path ++ bytes " HTTP/1.1\r\nHost: " ++ host ++ bytes "\r\nAccept: */*\r\nReferer: http://" ++
    host ++ bytes ("\r\nUser-Agent: Mozilla/4.0 (compatible; MSIE 5.00; Windows 98)\r\n" ++
      "Pragma: no-cache\r\nCache-Control: no-cache\r\n")

def httpclientRequestText (method : HttpclientMethod) (path host : List Byte) (first last : Int)
    (ifRange : Option (List Byte)) : Option (List Byte) := do
  let buf := snprintf httpclientSendBufSize (httpclientRequestBase method path host)
  if 0 ≤ first then
    let buf ← strcat httpclientSendBufSize buf (snprintf 64 (bytes "Range: bytes=" ++ decimal first ++ bytes "-"))
    let buf ← strcat httpclientSendBufSize buf (if 0 < last then snprintf 64 (decimal last ++ crlf) else crlf)
    match ifRange with
    | none => some buf
    | some v => strcat httpclientSendBufSize buf (snprintf 64 (bytes "If-Range: " ++ v ++ crlf))
  else some buf

/-- The fields of `httpclient_t` and `httpclient_data_t` that the head is made of; a download sets none of them but
`is_http`. -/
structure SendClient where
  isHttp          : Bool := true
  auth            : Option (List Byte × List Byte) := none
  header          : Option (List Byte) := none
  postBufLen      : Option Int := none
  postContentType : Option (List Byte) := none
deriving DecidableEq, Repr

/-- `code` in `httpclient_base64enc`. -/
def base64Code : List Byte := bytes "ABCDEFGHIJKLMNOPQRSTUVWXYZabcdefghijklmnopqrstuvwxyz0123456789+/="

/-- `httpclient_base64enc` (`:92-111`) of ASCII characters, three to four. -/
def httpclientBase64enc : List Byte → List Byte
  | a :: b :: c :: s =>
    let x := a.toNat * 65536 + b.toNat * 256 + c.toNat
    [x / 262144, x / 4096 % 64, x / 64 % 64, x % 64].map (base64Code.getD · 0) ++ httpclientBase64enc s
  | [a, b] =>
    let x := (a.toNat * 256 + b.toNat) * 4
    [x / 4096, x / 64 % 64, x % 64].map (base64Code.getD · 0) ++ [61]
  | [a] =>
    let x := a.toNat * 16
    [x / 64, x % 64].map (base64Code.getD · 0) ++ [61, 61]
  | [] => []

/-- What is written behind `buf` (`:441-466`), one string for each `httpclient_get_info`. -/
def httpclientExtra (client : SendClient) : List (List Byte) :=
  (match client.auth with
    | none => []
    | some (user, password) =>
      [bytes "Authorization: Basic ", httpclientBase64enc (user ++ bytes ":" ++ password) ++ crlf]) ++
    client.header.toList ++
    (match client.postBufLen with
      | none => []
      | some len =>
        [snprintf httpclientSendBufSize (bytes "Content-Length: " ++ decimal len ++ crlf)] ++
          client.postContentType.toList.map fun type =>
            snprintf httpclientSendBufSize (bytes "Content-Type: " ++ type ++ crlf)) ++
    [crlf]

/-- One `httpclient_get_info` after the other; what they return is not looked at. -/
def httpclientGetInfos (isHttp : Bool) : List (List Byte) → SendState → Except SendFault SendState
  | [], s => .ok s
  | buf :: bufs, s =>
    match httpclientGetInfo isHttp buf s with
    | .error fault => .error fault
    | .ok (_, s) => httpclientGetInfos isHttp bufs s

/-- `httpclient_send_header`: what it returns, and what the socket was given. -/
def httpclientSendHeader (malloc : Nat → Bool) (answers : List Int) (client : SendClient) (url : List Byte)
    (method : HttpclientMethod) (first last : Int) (ifRange : Option (List Byte)) :
    Except SendFault (SendReturn × List Byte) :=
  if !(malloc 0 && malloc 1 && malloc 2) then .ok (.error, [])
  else
    match httpclientParseUrl 8 httpclientMaxHostLen httpclientMaxUrlLen url with
    | none => .error .overrun
    | some none => .ok (.errorParse, [])
    | some (some u) =>
      match httpclientRequestText method u.path u.host first last ifRange with
      | none => .error .overrun
      | some buf =>
        match httpclientGetInfo client.isHttp buf { answers } with
        | .error fault => .error fault
        | .ok (ret, s) =>
          if ret ≠ 0 then .ok (.errorConn, s.sent)
          else
            match httpclientGetInfos client.isHttp (httpclientExtra client) s with
            | .error fault => .error fault
            | .ok s =>
              match httpclientTcpSendAll s.answers s.sendBuf 0 with
              | none => .error .unanswered
              | some (ret, out, _) =>
                .ok (if 0 < ret then .ok else if ret = 0 then .closed else .errorConn, s.sent ++ out)

end AudioPlayer

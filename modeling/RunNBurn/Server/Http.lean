import RunNBurn.Library.KeyedMaps
import RunNBurn.Library.Occurrence
import RunNBurn.Library.Text
import RunNBurn.Server.Json

/-!
# Reading a request

A connection hands over its bytes in reads of any length up to that of the buffer.  The head is
looked for after every read, and the body is read as far as the head says.
-/

namespace RunNBurn
namespace Server
namespace Http

open Library

def MAX_HEADER_BYTES : Nat := 32 * 1024
def MAX_BODY_BYTES : Nat := 32 * 1024 * 1024
def CHUNK_BYTES : Nat := 8192

inductive Halt where
  | rejected (error : ApiError)
  | panicked (message : String)
deriving DecidableEq, Repr

abbrev Handled (out : Type) : Type :=
  Except Halt out

def reject {out : Type} (error : ApiError) : Handled out :=
  .error (.rejected error)

def answered {out : Type} : Except ApiError out -> Handled out
  | .ok x => .ok x
  | .error error => reject error

structure HttpRequest where
  method : Text
  path : Text
  query : Option Text
  body : List UInt8
deriving DecidableEq, Repr

/-!
## Errors
-/

def headersTooLarge : ApiError :=
  ApiError.invalid "HTTP headers are too large" none (some "headers_too_large")

def incompleteHeaders : ApiError :=
  ApiError.invalid "Incomplete HTTP request headers" none (some "invalid_request")

def headersNotUtf8 : ApiError :=
  ApiError.invalid "HTTP headers must be UTF-8" none (some "invalid_request")

def malformedRequestLine : ApiError :=
  ApiError.invalid "Malformed HTTP request line" none (some "invalid_request")

def malformedHeader : ApiError :=
  ApiError.invalid "Malformed HTTP header" none (some "invalid_request")

def malformedHeaderName : ApiError :=
  ApiError.invalid "Malformed HTTP header name" none (some "invalid_request")

def duplicateContentLength : ApiError :=
  ApiError.invalid "Duplicate Content-Length header" none (some "invalid_request")

def unsupportedTransferEncoding : ApiError :=
  ApiError.invalid "Transfer-Encoding is not supported; send Content-Length" none
    (some "unsupported_transfer_encoding")

def invalidContentLength : ApiError :=
  ApiError.invalid "Invalid Content-Length header" none (some "invalid_request")

def bodyTooLarge : ApiError :=
  ApiError.invalid "Request body is too large" none (some "body_too_large")

def incompleteBody : ApiError :=
  ApiError.invalid "Incomplete HTTP request body" none (some "invalid_request")

/-!
## Texts
-/

/-- `text.split(word)`, for a word that is not empty. -/
def splitText (word : Text) : Nat -> Text -> List Text
  | 0, text => [text]
  | fuel + 1, text =>
    match splitAtWord word text with
    | none => [text]
    | some (piece, behind) => piece :: splitText word fuel behind

def splitWhitespace (text : Text) : List Text :=
  (text.splitOnP isWhitespace).filter fun piece => !piece.isEmpty

def toAsciiLowercase (text : Text) : Text :=
  text.map Char.toLower

def parseDigits (digits : Text) : Option Nat :=
  if digits ≠ [] ∧ digits.all Char.isDigit ∧ decimalValue digits < usizeLimit then
    some (decimalValue digits)
  else none

/-- `text.parse::<usize>()` -/
def parseUsize : Text -> Option Nat
  | '+' :: digits => parseDigits digits
  | digits => parseDigits digits

/-!
## The head
-/

def CRLF : Text := ['\r', '\n']

def CONTENT_LENGTH : Text := "content-length".toList
def TRANSFER_ENCODING : Text := "transfer-encoding".toList

abbrev Headers : Type :=
  KeyedMap Text Text

def requestLine (line : Text) : Except ApiError (Text × Text) :=
  let parts := splitWhitespace line
  let method := parts.getD 0 []
  let path := parts.getD 1 []
  let version := parts.getD 2 []
  if method = [] ∨ path = [] ∨ (version ≠ "HTTP/1.0".toList ∧ version ≠ "HTTP/1.1".toList) ∨
      parts[3]?.isSome then
    .error malformedRequestLine
  else .ok (method, path)

def headerName (front : Text) : Text :=
  toAsciiLowercase (trim front)

def addHeader (headers : Headers) (line : Text) : Except ApiError Headers :=
  match splitAtWord [':'] line with
  | none => .error malformedHeader
  | some (front, value) =>
    let name := headerName front
    if name = [] then .error malformedHeaderName
    else if name = CONTENT_LENGTH ∧ name ∈ headers then .error duplicateContentLength
    else .ok (headers.insert name (trim value))

def contentLength (headers : Headers) : Except ApiError Nat :=
  if TRANSFER_ENCODING ∈ headers then .error unsupportedTransferEncoding
  else
    match headers.lookup CONTENT_LENGTH with
    | none => .ok 0
    | some value =>
      match parseUsize value with
      | none => .error invalidContentLength
      | some length => if MAX_BODY_BYTES < length then .error bodyTooLarge else .ok length

structure Head where
  method : Text
  path : Text
  bodyLength : Nat
deriving DecidableEq, Repr

def headText (front : List UInt8) : Except ApiError Text :=
  match String.fromUTF8? front.toByteArray with
  | none => .error headersNotUtf8
  | some text => .ok text.toList

def headLines (text : Text) : List Text :=
  splitText CRLF text.length text

def parseHead (afterHeaders : Headers -> Except ApiError Unit) (front : List UInt8) :
    Except ApiError Head := do
  let text <- headText front
  let lines := headLines text
  let line <- requestLine (lines.headD [])
  let headers <- lines.tail.foldlM addHeader ∅
  afterHeaders headers
  let length <- contentLength headers
  return {
    method := line.1
    path := line.2
    bodyLength := length }

/-!
## The connection
-/

/-- `bytes[start..stop]` -/
def bytesIn (bytes : List UInt8) (start stop : Nat) : Handled (List UInt8) :=
  if start <= stop ∧ stop <= bytes.length then .ok ((bytes.drop start).take (stop - start))
  else .error (.panicked "range end index out of range for slice")

def fill (chunk part : List UInt8) : List UInt8 :=
  part ++ chunk.drop part.length

structure Connection where
  bytes : List UInt8
  chunk : List UInt8
  reads : List (List UInt8)

def blankLine : List UInt8 := [13, 10, 13, 10]

def headEnd (bytes : List UInt8) : Except ApiError (Option Nat) :=
  match findWord blankLine bytes with
  | some index =>
    if MAX_HEADER_BYTES < index + 4 then .error headersTooLarge else .ok (some (index + 4))
  | none => if MAX_HEADER_BYTES <= bytes.length then .error headersTooLarge else .ok none

def readHead (bytes chunk : List UInt8) (reads : List (List UInt8)) :
    Handled (Nat × Connection) :=
  match headEnd bytes with
  | .error error => reject error
  | .ok (some headerEnd) =>
    .ok (headerEnd, {
      bytes := bytes
      chunk := chunk
      reads := reads })
  | .ok none =>
    match reads with
    | [] => reject incompleteHeaders
    | part :: rest =>
      if part.length = 0 then reject incompleteHeaders
      else
        bytesIn (fill chunk part) 0 part.length >>= fun received =>
          readHead (bytes ++ received) (fill chunk part) rest

def readBody (targetLen : Nat) (bytes chunk : List UInt8) (reads : List (List UInt8)) :
    Handled (List UInt8) :=
  if targetLen <= bytes.length then .ok bytes
  else
    match reads with
    | [] => reject incompleteBody
    | part :: rest =>
      if part.length = 0 then reject incompleteBody
      else
        bytesIn (fill chunk part) 0 part.length >>= fun received =>
          readBody targetLen (bytes ++ received) (fill chunk part) rest

def requestOf (head : Head) (body : List UInt8) : HttpRequest where
  method := head.method
  path := head.path.takeWhile (· ≠ '?')
  query := (splitAtWord ['?'] head.path).map Prod.snd
  body := body

def readRequest (afterHeaders : Headers -> Except ApiError Unit) (reads : List (List UInt8)) :
    Handled HttpRequest := do
  let found <- readHead [] (List.replicate CHUNK_BYTES 0) reads
  let front <- bytesIn found.2.bytes 0 (found.1 - 4)
  let head <- answered (parseHead afterHeaders front)
  let targetLen := found.1 + head.bodyLength
  let bytes <- readBody targetLen found.2.bytes found.2.chunk found.2.reads
  let body <- bytesIn bytes found.1 targetLen
  return requestOf head body

end Http
end Server
end RunNBurn

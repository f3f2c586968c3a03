import NutServer.Net.Buffer

/-!
# Requests and responses

`nut::HttpRequest` and `nut::HttpResponse`. The parser works on the readable
bytes of a buffer; a pointer is a distance from `peek()`, and a null pointer is
`none`.
-/

set_option autoImplicit false

namespace NutServer.Net

open Library

inductive HttpRequestParseState where
  | exceptRequestLine
  | exceptRequestHeaders
  | exceptRequestBody
  | parseReqFinished
  deriving DecidableEq, Repr

inductive HttpReqLineParseState where
  | exceptMethod
  | exceptUri
  | exceptVer
  | parseLineFinished
  deriving DecidableEq, Repr

inductive Method where
  | methodGet
  | methodHead
  | methodPut
  | methodPost
  | methodTrace
  | methodOptions
  | methodDelete
  deriving DecidableEq, Repr

inductive HttpVersion where
  | http09
  | http10
  | http11
  deriving DecidableEq, Repr

/-- `std::map<std::string, std::string>`. -/
abbrev HeaderMap := Std.ExtTreeMap Bytes Bytes compare

structure HttpRequest where
  reqParseState : HttpRequestParseState
  lineParseState : HttpReqLineParseState
  /-- `none` until a request line is parsed: no constructor sets `method_`. -/
  method : Option Method
  uri : Bytes
  version : HttpVersion
  requestHeaders : HeaderMap

/-- `std::find(first, last, c)` with a null `last` searches no valid range, so
the language does not say what it does. An implementation that measures the
range before it searches returns `last`. -/
inductive NullFind where
  | returnsLast
  | undefined
  deriving DecidableEq, Repr

/-- Position of the first `char`; `none` where `std::find` returns `last`. -/
def stdFind (nullFind : NullFind) (text : Bytes) (first : Nat) (char : UInt8) :
    Option Nat → Outcome (Option Nat)
  | some last => do
      let span ← Buffer.bytesBetween text first last
      return (span.idxOf? char).map (first + ·)
  | none =>
      match nullFind with
      | .returnsLast => .ok none
      | .undefined => .error .range

/-- `memmem(first, finish - first, "\r\n", 2)`. -/
def memmem (text : Bytes) (first finish : Nat) : Outcome (Option Nat) := do
  let span ← Buffer.bytesBetween text first finish
  return (searchFor Buffer.kCRLF span).map (first + ·)

/-- Whether the first bytes equal the literal; the comparison stops at the
first difference, and must find one before the received bytes run out. -/
def strncmp : Bytes → Bytes → Outcome Bool
  | _, [] => .ok true
  | [], _ :: _ => .error .range
  | byte :: bytes, char :: literal => if byte = char then strncmp bytes literal else .ok false

/-- `isspace` of the "C" locale. -/
def isspace (byte : UInt8) : Bool := byte = 32 || (9 ≤ byte && byte ≤ 13)

/-- `while (position < finish && isspace(*position)) ++position`. -/
def skipSpaces (text : Bytes) (position finish : Nat) : Nat :=
  position + ((slice text position finish).takeWhile isspace).length

namespace HttpRequest

def new : HttpRequest where
  reqParseState := .exceptRequestLine
  lineParseState := .exceptMethod
  method := none
  uri := []
  version := .http11
  requestHeaders := ∅

/-- The words compared in each case of the switch over the word length;
`none` is the default case. -/
def methodWords : Nat → Option (List (Bytes × Method))
  | 3 => some [(ascii "GET", .methodGet), (ascii "PUT", .methodPut)]
  | 4 => some [(ascii "HEAD", .methodHead), (ascii "POST", .methodPost)]
  | 5 => some [(ascii "TRACE", .methodTrace)]
  | 6 => some [(ascii "DELETE", .methodDelete)]
  | 7 => some [(ascii "OPTIONS", .methodOptions)]
  | _ => none

def matchMethod (text : Bytes) (begin : Nat) : List (Bytes × Method) → Outcome (Option Method)
  | [] => .ok none
  | (word, method) :: rest => do
      if ← strncmp (text.drop begin) word then return some method else matchMethod text begin rest

structure LineLocals where
  request : HttpRequest
  begin : Nat

/-- One turn of the loop of `parseReqLine`. A turn that sets `finished` leaves. -/
def lineBody (nullFind : NullFind) (text : Bytes) (start : Nat) (finish : Option Nat)
    (locals : LineLocals) : Outcome (Turn LineLocals (HttpRequest × Bool)) :=
  match locals.request.lineParseState with
  | .exceptMethod => do
      match ← stdFind nullFind text start 32 finish with
      | none => return .leave (locals.request, false)
      | some space =>
          match methodWords (space - locals.begin) with
          | none => return .leave (locals.request, false)
          | some words =>
              match ← matchMethod text locals.begin words with
              | some method => return .again {
                  request := { locals.request with method := some method, lineParseState := .exceptUri }
                  begin := space + 1 }
              -- A known length with an unknown word changes nothing.
              | none => return .again locals
  | .exceptUri => do
      match ← stdFind nullFind text locals.begin 32 finish with
      | none => return .leave (locals.request, false)
      | some uriSpace => return .again {
          request := { locals.request with
            uri := slice text locals.begin uriSpace
            lineParseState := .exceptVer }
          begin := uriSpace + 1 }
  | .exceptVer => do
      let version ←
        if ← strncmp (text.drop locals.begin) (ascii "HTTP/1.0") then pure HttpVersion.http10
        else if ← strncmp (text.drop locals.begin) (ascii "HTTP/1.1") then pure HttpVersion.http11
        else pure HttpVersion.http09
      return .again { locals with
        request := { locals.request with version, lineParseState := .parseLineFinished } }
  | .parseLineFinished => return .leave (locals.request, true)

/-- The four states need one turn each. -/
def parseReqLine (nullFind : NullFind) (request : HttpRequest) (text : Bytes) (start : Nat)
    (finish : Option Nat) : Outcome (HttpRequest × Bool) :=
  watch (lineBody nullFind text start finish) 4 ⟨request, start⟩

structure HeaderLocals where
  request : HttpRequest
  begin : Nat
  crlf : Option Nat

def headerBody (nullFind : NullFind) (text : Bytes) (finish : Nat) (locals : HeaderLocals) :
    Outcome (Turn HeaderLocals (HttpRequest × Bool)) :=
  match locals.crlf with
  | none => return .leave (locals.request, false)
  | some crlf =>
      if crlf = finish then return .leave (locals.request, false)
      else do
        let colon := (← stdFind nullFind text locals.begin 58 (some crlf)).getD crlf
        let field ← Buffer.bytesBetween text locals.begin colon
        -- The value runs to the end of the range, not to the end of the line.
        let value ← Buffer.bytesBetween text (skipSpaces text (colon + 1) finish) finish
        let request := { locals.request with
          requestHeaders := locals.request.requestHeaders.insert field (value.rdropWhile isspace) }
        let begin := crlf + 2
        match ← memmem text begin finish with
        | none => return .again { request, begin, crlf := none }
        | some next =>
            if next - begin ≤ 2 then return .leave (request, true)
            else return .again { request, begin, crlf := some next }

/-- Each turn that goes round consumes a line end, that is two bytes. -/
def parseReqHeaders (nullFind : NullFind) (request : HttpRequest) (text : Bytes) (start finish : Nat) :
    Outcome (HttpRequest × Bool) := do
  let crlf ← memmem text start finish
  watch (headerBody nullFind text finish) ((finish - start) / 2 + 1) ⟨request, start, crlf⟩

def parseReqBody : Bool := true

structure RequestLocals where
  request : HttpRequest
  start : Nat
  finish : Option Nat

def requestBody (nullFind : NullFind) (text : Bytes) (locals : RequestLocals) :
    Outcome (Turn RequestLocals HttpRequest) :=
  match locals.request.reqParseState with
  | .exceptRequestLine => do
      let finish := searchFor Buffer.kCRLF text
      let (request, accepted) ← parseReqLine nullFind locals.request text locals.start finish
      if accepted then
        match finish with
        | some finish => return .again {
            request := { request with reqParseState := .exceptRequestHeaders }
            start := finish + 2
            finish := some finish }
        -- A null pointer plus two.
        | none => .error .range
      else return .leave request
  | .exceptRequestHeaders => do
      let finish := text.length
      let (request, accepted) ← parseReqHeaders nullFind locals.request text locals.start finish
      if accepted then return .again {
        request := { request with reqParseState := .exceptRequestBody }
        start := finish
        finish := some finish }
      else return .leave request
  | .exceptRequestBody =>
      if parseReqBody then return .again { locals with
        request := { locals.request with reqParseState := .parseReqFinished } }
      else return .leave locals.request
  | .parseReqFinished => return .leave locals.request

def getFullReq (request : HttpRequest) : Bool := request.reqParseState = .parseReqFinished

/-- `parseRequest` on the received bytes. The four states need one turn each. -/
def parseText (nullFind : NullFind) (request : HttpRequest) (text : Bytes) :
    Outcome (HttpRequest × Bool) := do
  let request ← watch (requestBody nullFind text) 4 ⟨request, 0, some text.length⟩
  return (request, request.getFullReq)

def parseRequest (nullFind : NullFind) (request : HttpRequest) (buf : Buffer) :
    Outcome (HttpRequest × Bool) := do
  let str ← Buffer.bytesBetween buf.buffer buf.peek buf.beginWrite
  parseText nullFind request str

def getHeaders (request : HttpRequest) (key : Bytes) : Bytes :=
  request.requestHeaders[key]?.getD []

end HttpRequest

structure HttpResponse where
  closeConn : Bool
  line : Bytes
  headers : HeaderMap
  body : Bytes

namespace HttpResponse

def new : HttpResponse where
  closeConn := true
  line := []
  headers := ∅
  body := []

def addHeader (response : HttpResponse) (key value : Bytes) : HttpResponse :=
  { response with headers := response.headers.insert key value }

def setBody (response : HttpResponse) (body : Bytes) : HttpResponse :=
  { response with body }

def toString (size : Nat) : Bytes :=
  (Nat.toDigits 10 size).map fun char => char.toNat.toUInt8

def versionText : HttpVersion → Bytes
  | .http09 => ascii "HTTP/0.9" ++ ascii " "
  | .http10 => ascii "HTTP/1.0" ++ ascii " "
  | .http11 => ascii "HTTP/1.1" ++ ascii " "

def greeting : Bytes :=
  ascii "Hi, bro, I'm glad to recv your connection,I need your advice :-)"

def setResponse (response : HttpResponse) (req : HttpRequest) : HttpResponse :=
  let started := { response with line := versionText req.version ++ ascii "200 OK" }
  let filled := (started.setBody greeting).addHeader (ascii "Content-Type") (ascii "text/plain")
  if req.getHeaders (ascii "Connection") = ascii "close" then
    { filled.addHeader (ascii "Connection") (ascii "close") with closeConn := true }
  else
    let counted := filled.addHeader (ascii "Content-Length") (toString filled.body.length)
    { counted.addHeader (ascii "Connection") (ascii "Keep-Alive") with closeConn := false }

/-- The strings appended to the buffer one after the other. -/
def pieces (response : HttpResponse) : List Bytes :=
  [response.line, Buffer.kCRLF] ++
    response.headers.toList.flatMap (fun header => [header.1, ascii ": ", header.2, Buffer.kCRLF]) ++
    [Buffer.kCRLF, response.body]

def appendToBuffer (response : HttpResponse) (output : Buffer) : Outcome Buffer :=
  response.pieces.foldlM Buffer.append output

def closeConnection (response : HttpResponse) : Bool := response.closeConn

end HttpResponse

end NutServer.Net

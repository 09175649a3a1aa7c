import Mathlib.Algebra.Ring.Nat
import TrueAsync.Lib.Ascii

/-!
# The HTTP/1 request parser

The llhttp callbacks of `src/http1/http_parser.c`. A callback works on the reused
`http1_parser_t` and on the `http_request_t` behind `parser->request`; here it is a function
of the two, `Parse`. What it answers to llhttp is a `Reply`, which also says whether it called
`dispatch_cb`. A `smart_str` is an optional byte string: NULL until the first append, and
non-NULL after an append of no bytes.

The multipart processor a request may own is a parameter (`MultipartOps`), and what the
environment decides (admission control, a failed allocation) comes with the callback.
-/

namespace TrueAsync.Http1

open TrueAsync.Lib

/-- `http_parse_error_t`. -/
inductive ParseError
  | ok
  | uriTooLong
  | headerNameTooLarge
  | headerValueTooLarge
  | headersTotalTooLarge
  | tooManyHeaders
  | bodyTooLarge
  | badHeader
  | malformed
  | invalidContentLength
  | conflictingHeaders
  | invalidHttpVersion
  | invalidHost
  | badMethod
  | outOfMemory
  | serviceUnavailable
  deriving DecidableEq, Repr

/-- `grpc_mode_t`. -/
inductive GrpcMode
  | none
  | native
  | web
  | webText
  deriving DecidableEq, Repr

/-- The multipart processor as the parser sees it: `mp_processor_create`, `mp_processor_feed`
(`false` is a negative result), and the form `finalize_multipart` reads out of it. -/
structure MultipartOps (Proc Form : Type) where
  create : Bytes → Option Proc
  feed : Proc → Bytes → Proc × Bool
  finalize : Proc → Form

/-- The header `HashTable`: lower-case names in insertion order, each once. -/
abbrev HeaderTable := List (Bytes × Bytes)

/-- `http_request_t`, as far as the HTTP/1 parser reads or writes it. -/
structure HttpRequest (Proc Form : Type) where
  method : Option Bytes := none
  uri : Option Bytes := none
  headers : Option HeaderTable := none
  body : Option Bytes := none
  contentLength : Nat := 0
  chunked : Bool := false
  keepAlive : Bool := false
  complete : Bool := false
  httpMajor : Nat := 0
  httpMinor : Nat := 0
  useMultipart : Bool := false
  multipartProc : Option Proc := none
  /-- `post_data` and `files`. -/
  form : Option Form := none
  grpcMode : GrpcMode := .none
  bodyStreaming : Bool := false
  bodyUpgradeToStream : Bool := false
  bodyQueue : List Bytes := []
  bodyBytesQueued : Nat := 0
  bodyBytesConsumed : Nat := 0
  bodyEof : Bool := false
  bodyError : Bool := false
  refcount : Nat := 1

/-- The address of an `http_request_t`. -/
abbrev RequestPtr := Nat

/-- What the parser reads of the connection it is attached to. -/
structure ConnView where
  bodyStreamingEnabled : Bool
  deriving DecidableEq, Repr

/-- `http1_parser_t`. -/
structure Http1Parser where
  request : Option RequestPtr := none
  ownsRequest : Bool := false
  dispatched : Bool := false
  conn : Option ConnView := none
  /-- Whether `dispatch_cb` is set. -/
  dispatchCb : Bool := false
  uriBuilder : Option Bytes := none
  bodyBuilder : Option Bytes := none
  headerNameBuilder : Option Bytes := none
  headerValueBuilder : Option Bytes := none
  inHeaderValue : Bool := false
  bodyOffset : Nat := 0
  totalHeadersSize : Nat := 0
  parseError : ParseError := .ok
  clValueFirst : Nat := 0
  clSeenCount : Nat := 0
  headerCount : Nat := 0
  hostSeenCount : Nat := 0
  ctSeenCount : Nat := 0
  teChunkedSeen : Bool := false
  maxBodySize : Nat
  deriving DecidableEq, Repr

/-- The parser with the request it is filling. -/
structure Parse (Proc Form : Type) where
  parser : Http1Parser
  req : HttpRequest Proc Form

/-- What a callback returns to llhttp: `0`, `-1` or `HPE_PAUSED`. -/
inductive CbResult
  | ok
  | failed
  | paused
  deriving DecidableEq, Repr

/-- A callback's answer, and whether it called `dispatch_cb`. -/
structure Reply where
  result : CbResult
  dispatch : Bool := false
  deriving DecidableEq, Repr

/-- `http_parser_create`. -/
def httpParserCreate (maxBodySize : Nat) : Http1Parser := { maxBodySize }

/-- `http_parser_attach`. -/
def httpParserAttach (conn : ConnView) (p : Http1Parser) : Http1Parser :=
  { p with conn := some conn, dispatchCb := true }

/-- `http_parser_reset_for_reuse`, which the parser pool applies to a returned parser: the
builders keep their buffers and lose their text. -/
def httpParserResetForReuse (p : Http1Parser) : Http1Parser :=
  { p with
    request := none
    ownsRequest := false
    dispatched := false
    conn := none
    dispatchCb := false
    uriBuilder := p.uriBuilder.map fun _ => []
    bodyBuilder := p.bodyBuilder.map fun _ => []
    headerNameBuilder := p.headerNameBuilder.map fun _ => []
    headerValueBuilder := p.headerValueBuilder.map fun _ => []
    inHeaderValue := false
    bodyOffset := 0
    totalHeadersSize := 0
    parseError := .ok }

/-! ## Limits -/

/-- `HTTP_MAX_URI_SIZE`. -/
def httpMaxUriSize : Nat := 8 * 1024

/-- `HTTP_MAX_HEADER_NAME`. -/
def httpMaxHeaderName : Nat := 1 * 1024

/-- `HTTP_MAX_HEADER_VALUE`. -/
def httpMaxHeaderValue : Nat := 8 * 1024

/-- `HTTP_MAX_HEADERS_TOTAL`. -/
def httpMaxHeadersTotal : Nat := 64 * 1024

/-- `HTTP_MAX_HEADER_COUNT`. -/
def httpMaxHeaderCount : Nat := 256

/-- `HTTP_BODY_STREAM_THRESHOLD`. -/
def httpBodyStreamThreshold : Nat := 64 * 1024

/-- `HTTP_BODY_STREAM_AUTO_THRESHOLD`. -/
def httpBodyStreamAutoThreshold : Nat := 1024 * 1024

/-- `UINT64_MAX`. -/
def uint64Max : Nat := 2 ^ 64 - 1

/-! ## Header values -/

/-- The loop of `parse_content_length`, with the value `v` read so far. -/
def parseContentLengthLoop (v : Nat) : Bytes → Option Nat
  | [] => some v
  | c :: rest =>
      if c < 0x30 ∨ c > 0x39 then none
      else
        let d := (c - 0x30).toNat
        if v > (uint64Max - d) / 10 then none
        else parseContentLengthLoop (v * 10 + d) rest

/-- `parse_content_length`. -/
def parseContentLength (s : Bytes) : Option Nat :=
  if s = [] then none else parseContentLengthLoop 0 s

/-- The bytes `http1_host_value_valid` refuses: `@ / ? # ,` space and tab. -/
def hostForbidden : Bytes := [0x40, 0x2f, 0x3f, 0x23, 0x2c, 0x20, 0x09]

/-- `http1_host_value_valid`. -/
def http1HostValueValid (v : Bytes) : Bool := v ≠ [] && v.all fun b => !hostForbidden.contains b

/-- `extract_boundary`. -/
def extractBoundary (contentType : Bytes) : Option Bytes :=
  match strstr (ascii "boundary=") (cString contentType) with
  | none => none
  | some found =>
      match found.drop 9 with
      | 0x22 :: quoted => if quoted.contains 0x22 then some (quoted.takeWhile (· ≠ 0x22)) else none
      | start =>
          let bare := start.takeWhile fun b => b ≠ 0x3b && b ≠ 0x20 && b ≠ 0x09
          if bare = [] then none else some bare

/-- `known_header_table`. -/
def knownHeaderTable : List Bytes :=
  ["host", "user-agent", "accept", "accept-encoding", "accept-language", "connection",
    "content-length", "content-type", "cache-control", "if-modified-since", "if-none-match",
    "etag", "authorization", "cookie", "origin", "referer", "x-forwarded-for",
    "x-forwarded-proto", "x-real-ip", "transfer-encoding", "scheme", "range",
    "upgrade"].map ascii

/-- `zend_hash_find` on the header table. -/
def HeaderTable.find? (table : HeaderTable) (name : Bytes) : Option Bytes :=
  (List.find? (fun entry => entry.1 == name) table).map (·.2)

/-- `http_request_store_header`: a repeated field is combined in place, cookies with `"; "`. -/
def httpRequestStoreHeader (table : HeaderTable) (name value : Bytes) : HeaderTable :=
  match table.find? name with
  | none => table ++ [(name, value)]
  | some old =>
      let sep := if name = ascii "cookie" then ascii "; " else ascii ", "
      table.map fun entry => if entry.1 = name then (name, old ++ sep ++ value) else entry

/-- `grpc_request_mode`. -/
def grpcRequestMode (table : HeaderTable) : GrpcMode :=
  match table.find? (ascii "content-type") with
  | none => .none
  | some value =>
      if startsWithNoCase (ascii "application/grpc") value then
        let suffix := value.drop (ascii "application/grpc").length
        if startsWithNoCase (ascii "-web-text") suffix then .webText
        else if startsWithNoCase (ascii "-web") suffix then .web
        else .native
      else .none

/-! ## Callbacks -/

/-- `smart_str_appendl`. -/
def smartStrAppend (builder : Option Bytes) (text : Bytes) : Option Bytes :=
  some (builder.getD [] ++ text)

variable {Proc Form : Type}

/-- Record a parse error and return `-1`. -/
def Http1Parser.reject (p : Http1Parser) (err : ParseError) : Reply × Http1Parser :=
  (⟨.failed, false⟩, { p with parseError := err })

/-- Record a parse error and return `-1`. -/
def Parse.reject (s : Parse Proc Form) (err : ParseError) : Reply × Parse Proc Form :=
  (⟨.failed, false⟩, { s with parser := { s.parser with parseError := err } })

/-- The parser's part of `on_message_begin`: the new request and its own counters. The
builders are not touched. -/
def onMessageBegin (p : Http1Parser) : Parse Proc Form :=
  { parser :=
      { p with
        ownsRequest := true, dispatched := false, inHeaderValue := false, bodyOffset := 0,
        totalHeadersSize := 0, parseError := .ok, clValueFirst := 0, clSeenCount := 0,
        headerCount := 0, hostSeenCount := 0, ctSeenCount := 0, teChunkedSeen := false }
    req := {} }

/-- `on_url`. -/
def onUrl (text : Bytes) (p : Http1Parser) : Reply × Http1Parser :=
  if (p.uriBuilder.getD []).length + text.length > httpMaxUriSize then
    p.reject .uriTooLong
  else if text.any fun b => b == 0x23 || b == 0x5c then
    p.reject .malformed
  else
    (⟨.ok, false⟩, { p with uriBuilder := smartStrAppend p.uriBuilder text })

/-- The header-specific part of `save_current_header`: the error to record, or `ok` with the
counters and the request brought up to date. -/
def inspectHeader (name value : Bytes) (s : Parse Proc Form) : ParseError × Parse Proc Form :=
  if name = ascii "content-length" then
    match parseContentLength value with
    | none => (.invalidContentLength, s)
    | some cl =>
        if s.parser.clSeenCount ≠ 0 ∧ cl ≠ s.parser.clValueFirst then
          (.conflictingHeaders, s)
        else
          (.ok, { parser := { s.parser with
                    clValueFirst := if s.parser.clSeenCount = 0 then cl else s.parser.clValueFirst
                    clSeenCount := s.parser.clSeenCount + 1 }
                  req := { s.req with contentLength := cl } })
  else if name = ascii "transfer-encoding" then
    if value = [] then (.malformed, s)
    else if startsWithNoCase (ascii "chunked") value then
      (.ok, { parser := { s.parser with teChunkedSeen := true }
              req := { s.req with chunked := true } })
    else (.ok, s)
  else if name = ascii "host" then
    let s := { s with parser := { s.parser with hostSeenCount := s.parser.hostSeenCount + 1 } }
    if s.parser.hostSeenCount > 1 ∨ ¬ http1HostValueValid value then (.invalidHost, s)
    else (.ok, s)
  else if name = ascii "content-type" then
    let s := { s with parser := { s.parser with ctSeenCount := s.parser.ctSeenCount + 1 } }
    if s.parser.ctSeenCount > 1 then (.malformed, s) else (.ok, s)
  else if name = ascii "connection" then
    if startsWithNoCase (ascii "keep-alive") value then
      (.ok, { s with req := { s.req with keepAlive := true } })
    else if startsWithNoCase (ascii "close") value then
      (.ok, { s with req := { s.req with keepAlive := false } })
    else (.ok, s)
  else (.ok, s)

/-- The header counted, and its builder replaced by the interned copy of a known name. -/
def countHeader (name : Bytes) (s : Parse Proc Form) : Parse Proc Form :=
  { s with parser := { s.parser with
      headerCount := s.parser.headerCount + 1
      headerNameBuilder := if name ∈ knownHeaderTable then none else some name } }

/-- The end of `save_current_header`: store the header and clear the builders, or record the
error and leave them. -/
def settleHeader (name value : Bytes) : ParseError × Parse Proc Form → Parse Proc Form
  | (.ok, s) =>
      { parser := { s.parser with headerNameBuilder := none, headerValueBuilder := none }
        req := { s.req with
          headers := some (httpRequestStoreHeader (s.req.headers.getD []) name value) } }
  | (err, s) => (s.reject err).2

/-- `save_current_header`. On an error the value builder keeps its text, and so does the name
builder unless the interned copy of a known name has replaced it. -/
def saveCurrentHeader (s : Parse Proc Form) : Parse Proc Form :=
  match s.parser.headerNameBuilder, s.parser.headerValueBuilder with
  | some rawName, some value =>
      if s.parser.headerCount ≥ httpMaxHeaderCount then
        (s.reject .tooManyHeaders).2
      else
        let name := lower rawName
        settleHeader name value (inspectHeader name value (countHeader name s))
  | _, _ => s

/-- `http_request_init_headers`, when the table is still NULL. -/
def initHeaders (s : Parse Proc Form) : Parse Proc Form :=
  { s with req := { s.req with headers := some (s.req.headers.getD []) } }

/-- The save both header callbacks make when a value has been under way. -/
def flushHeader (s : Parse Proc Form) : Parse Proc Form :=
  if s.parser.inHeaderValue then
    let s := saveCurrentHeader s
    { s with parser := { s.parser with inHeaderValue := false } }
  else s

/-- The tail of `on_header_field`: the name limit and the append. -/
def appendHeaderName (text : Bytes) (s : Parse Proc Form) : Reply × Parse Proc Form :=
  if (s.parser.headerNameBuilder.getD []).length + text.length > httpMaxHeaderName then
    s.reject .headerNameTooLarge
  else
    (⟨.ok, false⟩, { s with parser := { s.parser with
      headerNameBuilder := smartStrAppend s.parser.headerNameBuilder text } })

/-- `on_header_field`. -/
def onHeaderField (text : Bytes) (s : Parse Proc Form) : Reply × Parse Proc Form :=
  appendHeaderName text (flushHeader (initHeaders s))

/-- `on_header_value`. -/
def onHeaderValue (text : Bytes) (p : Http1Parser) : Reply × Http1Parser :=
  if p.headerNameBuilder.getD [] = [] then
    p.reject .badHeader
  else if (p.headerValueBuilder.getD []).length + text.length > httpMaxHeaderValue then
    p.reject .headerValueTooLarge
  else if p.totalHeadersSize + text.length > httpMaxHeadersTotal then
    p.reject .headersTotalTooLarge
  else
    (⟨.ok, false⟩, { p with
      totalHeadersSize := p.totalHeadersSize + text.length
      inHeaderValue := true
      headerValueBuilder := smartStrAppend p.headerValueBuilder text })

/-- What llhttp knows of the request line when the headers are complete. -/
structure RequestLine where
  /-- `llhttp_method_name`. -/
  method : Bytes
  major : Nat
  minor : Nat
  deriving DecidableEq, Repr

/-- The environment's part in `on_headers_complete`: `http_server_should_shed_request`, and
whether the body allocation bails out. -/
structure Admission where
  shed : Bool := false
  oom : Bool := false
  deriving DecidableEq, Repr

/-- The checks `on_headers_complete` makes on the header counters and the version. -/
def framingError (line : RequestLine) (p : Http1Parser) : Option ParseError :=
  if p.clSeenCount > 0 ∧ p.teChunkedSeen then some .conflictingHeaders
  else if line.major ≠ 1 ∨ (line.minor ≠ 0 ∧ line.minor ≠ 1) then some .invalidHttpVersion
  else if line.minor = 1 ∧ p.hostSeenCount = 0 then some .invalidHost
  else none

def recordRequestLine (line : RequestLine) (s : Parse Proc Form) : Parse Proc Form :=
  { parser := { s.parser with uriBuilder := none }
    req := { s.req with
      uri := match s.parser.uriBuilder with
        | some uri => some uri
        | none => s.req.uri
      httpMajor := line.major
      httpMinor := line.minor
      method := some line.method } }

def targetError (line : RequestLine) (req : HttpRequest Proc Form) : Option ParseError :=
  if line.method = ascii "CONNECT" then some .badMethod
  else if req.uri = some (ascii "*") ∧ line.method ≠ ascii "OPTIONS" then some .malformed
  else none

/-- Default keep-alive by version, when no Connection field was stored. -/
def defaultKeepAlive (req : HttpRequest Proc Form) : HttpRequest Proc Form :=
  match (req.headers.getD []).find? (ascii "connection") with
  | some _ => req
  | none => { req with keepAlive := req.httpMajor = 1 ∧ req.httpMinor ≥ 1 }

/-- The multipart detection of `on_headers_complete`. -/
def detectMultipart (ops : MultipartOps Proc Form) (req : HttpRequest Proc Form) :
    HttpRequest Proc Form :=
  match (req.headers.getD []).find? (ascii "content-type") with
  | none => req
  | some contentType =>
      if startsWithNoCase (ascii "multipart/form-data") contentType then
        match extractBoundary contentType with
        | none => req
        | some boundary => { req with multipartProc := ops.create boundary, useMultipart := true }
      else req

/-- `http_request_classify_protocols`. -/
def classifyProtocols (req : HttpRequest Proc Form) : HttpRequest Proc Form :=
  { req with grpcMode := grpcRequestMode (req.headers.getD []) }

/-- `http_request_body_must_buffer`. -/
def bodyMustBuffer (req : HttpRequest Proc Form) : Bool := req.grpcMode = .webText

def chooseStreaming (p : Http1Parser) (req : HttpRequest Proc Form) : HttpRequest Proc Form :=
  if !req.useMultipart && !bodyMustBuffer req && p.conn.any (·.bodyStreamingEnabled) then
    if req.contentLength = 0 ∨ req.contentLength ≥ httpBodyStreamAutoThreshold then
      { req with bodyStreaming := true }
    else if req.contentLength ≥ httpBodyStreamThreshold then
      { req with bodyUpgradeToStream := true }
    else req
  else req

/-- The body buffer for a known length: `ok` with the buffer in place, or the error. The
buffer is its written part. -/
def prepareBody (oom : Bool) (s : Parse Proc Form) : ParseError × Parse Proc Form :=
  if !s.req.useMultipart && !s.req.bodyStreaming && decide (s.req.contentLength > 0) then
    if s.req.contentLength > s.parser.maxBodySize then (.bodyTooLarge, s)
    else if oom then (.outOfMemory, s)
    else (.ok, { parser := { s.parser with bodyOffset := 0 }
                 req := { s.req with body := some [] } })
  else (.ok, s)

/-- The end of `on_headers_complete`: a streaming request is handed over at once. -/
def dispatchStreaming (s : Parse Proc Form) : Reply × Parse Proc Form :=
  if s.parser.dispatchCb && s.req.bodyStreaming then
    (⟨.ok, true⟩, { s with parser := { s.parser with ownsRequest := false, dispatched := true } })
  else (⟨.ok, false⟩, s)

/-- What `on_headers_complete` decides about the request from its stored headers. -/
def requestPolicy (ops : MultipartOps Proc Form) (p : Http1Parser) (req : HttpRequest Proc Form) :
    HttpRequest Proc Form :=
  chooseStreaming p (classifyProtocols (detectMultipart ops (defaultKeepAlive req)))

/-- `on_headers_complete` from the accepted request line on: body policy and dispatch. -/
def beginBody (ops : MultipartOps Proc Form) (oom : Bool) (s : Parse Proc Form) :
    Reply × Parse Proc Form :=
  match prepareBody oom { s with req := requestPolicy ops s.parser s.req } with
  | (.ok, s) => dispatchStreaming s
  | (err, s) => s.reject err

/-- `on_headers_complete` from the saved headers on. -/
def acceptHeaders (ops : MultipartOps Proc Form) (line : RequestLine) (oom : Bool)
    (s : Parse Proc Form) : Reply × Parse Proc Form :=
  if s.parser.parseError ≠ .ok then (⟨.failed, false⟩, s)
  else match framingError line s.parser with
    | some err => s.reject err
    | none =>
        let s := recordRequestLine line s
        match targetError line s.req with
        | some err => s.reject err
        | none => beginBody ops oom s

/-- `on_headers_complete`. -/
def onHeadersComplete (ops : MultipartOps Proc Form) (line : RequestLine) (env : Admission)
    (s : Parse Proc Form) : Reply × Parse Proc Form :=
  if s.parser.conn.isSome && env.shed then s.reject .serviceUnavailable
  else acceptHeaders ops line env.oom (flushHeader (initHeaders s))

/-- `http_body_stream_push`; `oom` is a failed `ensure_data_event`. -/
def httpBodyStreamPush (oom : Bool) (chunk : Bytes) (req : HttpRequest Proc Form) :
    Bool × HttpRequest Proc Form :=
  if oom then (false, { req with bodyError := true })
  else (true, { req with
    bodyQueue := req.bodyQueue ++ [chunk]
    bodyBytesQueued := req.bodyBytesQueued + chunk.length })

/-- `on_body` for a request that is still attached to the parser. -/
def onBody (ops : MultipartOps Proc Form) (text : Bytes) (oom : Bool) (s : Parse Proc Form) :
    Reply × Parse Proc Form :=
  match s.req.useMultipart, s.req.multipartProc with
  | true, some proc =>
      let (proc, fed) := ops.feed proc text
      let s := { s with req := { s.req with multipartProc := some proc } }
      if fed then (⟨.ok, false⟩, s) else s.reject .malformed
  | _, _ =>
      if s.req.bodyStreaming then
        if s.req.bodyBytesConsumed + s.req.bodyBytesQueued + text.length > s.parser.maxBodySize then
          s.reject .bodyTooLarge
        else
          let (pushed, req) := httpBodyStreamPush oom text s.req
          if pushed then (⟨.ok, false⟩, { s with req }) else { s with req }.reject .outOfMemory
      else match s.req.body with
        | some written =>
            if s.parser.bodyOffset + text.length > s.req.contentLength then
              s.reject .bodyTooLarge
            else
              (⟨.ok, false⟩,
                { parser := { s.parser with bodyOffset := s.parser.bodyOffset + text.length }
                  req := { s.req with body := some (written.take s.parser.bodyOffset ++ text) } })
        | none =>
            if (s.parser.bodyBuilder.getD []).length + text.length > s.parser.maxBodySize then
              s.reject .bodyTooLarge
            else if oom then s.reject .outOfMemory
            else
              (⟨.ok, false⟩, { s with parser := { s.parser with
                bodyBuilder := smartStrAppend s.parser.bodyBuilder text } })

def finalizeMultipart (ops : MultipartOps Proc Form) (req : HttpRequest Proc Form) :
    HttpRequest Proc Form :=
  match req.useMultipart, req.multipartProc with
  | true, some proc => { req with form := some (ops.finalize proc) }
  | _, _ => req

/-- End of a streamed body, or the body builder handed to the request. -/
def finishBody (s : Parse Proc Form) : Parse Proc Form :=
  if s.req.bodyStreaming then { s with req := { s.req with bodyEof := true } }
  else match s.req.body, s.parser.bodyBuilder with
    | none, some text =>
        { parser := { s.parser with bodyBuilder := none }
          req := { s.req with body := some text } }
    | _, _ => s

/-- The hand-over of a request not dispatched at headers-complete. -/
def dispatchComplete (s : Parse Proc Form) : Reply × Parse Proc Form :=
  if s.parser.dispatched then (⟨.paused, false⟩, s)
  else (⟨.paused, s.parser.dispatchCb⟩, { s with parser := { s.parser with
    ownsRequest := false, dispatched := s.parser.dispatchCb } })

/-- The request at the end of its message: form, body and the completion flag. -/
def completeRequest (ops : MultipartOps Proc Form) (s : Parse Proc Form) : Parse Proc Form :=
  let s := finishBody { s with req := finalizeMultipart ops s.req }
  { s with req := { s.req with complete := true } }

/-- `on_message_complete` for a request that is still attached to the parser. -/
def onMessageComplete (ops : MultipartOps Proc Form) (s : Parse Proc Form) :
    Reply × Parse Proc Form :=
  dispatchComplete (completeRequest ops s)

end TrueAsync.Http1

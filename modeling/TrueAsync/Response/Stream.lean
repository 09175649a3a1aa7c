import TrueAsync.Lib.Numeral
import TrueAsync.Response.Object

/-!
# Streaming methods of the response object

`send`, `writeMessage` and `end` of `src/http_response.c` and the server-sent events of
`src/http_sse.c`, up to the stream operations of the protocol: a call throws, or changes the
object and may hand over a payload. The response is attached to a connection, gRPC compression
is off, and HTTP/1 has no gRPC mode.
-/

namespace TrueAsync.Response

open TrueAsync.Lib

/-! ## Server-sent events -/

/-- `sse_has_newline`. -/
def sseHasNewline (s : Option Bytes) : Bool :=
  s.any fun text => text.any fun b => b == 0x0a || b == 0x0d

/-- `sse_content_type_conflicts`. -/
def sseContentTypeConflicts (headers : Headers) : Bool :=
  match headers.find? (ascii "content-type") with
  | none => false
  | some value =>
      match value.values.head? with
      | none => false
      | some text => !startsWithNoCase (ascii "text/event-stream") text

/-- `sse_ensure_started`. -/
def sseEnsureStarted (r : HttpResponse) : Except Thrown HttpResponse :=
  if r.streaming then
    if r.sseMode then .ok r
    else .error ⟨.runtime, "Response is already streaming via send() — cannot switch to SSE"⟩
  else if r.closed then .error ⟨.runtime, "Cannot start SSE on a closed response"⟩
  else if r.sendFileReq then
    .error ⟨.runtime, "Response is sealed by sendFile() — cannot switch to SSE"⟩
  else if sseContentTypeConflicts r.headers then
    .error ⟨.invalidArgument,
      "Response already has a non-SSE Content-Type — remove it before switching to SSE"⟩
  else
    let headers := r.headers.update (ascii "content-type") (.one (ascii "text/event-stream"))
    let headers := headers.update (ascii "cache-control") (.one (ascii "no-cache, no-transform"))
    let headers := headers.update (ascii "x-accel-buffering") (.one (ascii "no"))
    .ok { r with
      headers
      streaming := true
      sseMode := true
      committed := true
      headersSent := true }

/-- The loop of `sse_append_data`; `line` is what has been scanned of the current line. -/
def sseAppendDataFrom (line : Bytes) : Bytes → Bytes
  | [] => ascii "data: " ++ line ++ [0x0a]
  | 0x0d :: 0x0a :: rest => ascii "data: " ++ line ++ [0x0a] ++ sseAppendDataFrom [] rest
  | b :: rest =>
      if b = 0x0a ∨ b = 0x0d then ascii "data: " ++ line ++ [0x0a] ++ sseAppendDataFrom [] rest
      else sseAppendDataFrom (line ++ [b]) rest

/-- `sse_append_data`: one field per line, for each of the three line ends. -/
def sseAppendData (data : Bytes) : Bytes := sseAppendDataFrom [] data

/-- `sse_append_field`. -/
def sseAppendField (field value : Bytes) : Bytes := field ++ ascii ": " ++ value ++ [0x0a]

/-- The arguments of `sseEvent`. -/
structure SseEvent where
  data : Option Bytes := none
  event : Option Bytes := none
  id : Option Bytes := none
  retry : Option Int := none
  deriving DecidableEq, Repr

/-- The record that `sseEvent` builds. -/
def SseEvent.payload (e : SseEvent) : Bytes :=
  (e.id.map (sseAppendField (ascii "id"))).getD [] ++
    (e.event.map (sseAppendField (ascii "event"))).getD [] ++
    (e.retry.map fun ms => sseAppendField (ascii "retry") (numeral 10 ms.toNat)).getD [] ++
    (e.data.map sseAppendData).getD [] ++ [0x0a]

def sseStart (r : HttpResponse) : Except Thrown HttpResponse :=
  if r.streaming then .error ⟨.runtime, "sseStart(): response is already in streaming mode"⟩
  else sseEnsureStarted r

def sseEvent (e : SseEvent) (r : HttpResponse) : Except Thrown (HttpResponse × Option Bytes) :=
  if r.closed then .error ⟨.runtime, "Cannot sseEvent() on a closed response"⟩
  else if sseHasNewline e.event then
    .error ⟨.invalidArgument, "sseEvent(): $event must not contain CR or LF"⟩
  else if sseHasNewline e.id then
    .error ⟨.invalidArgument, "sseEvent(): $id must not contain CR or LF"⟩
  else if e.id.any (·.contains 0) then
    .error ⟨.invalidArgument, "sseEvent(): $id must not contain NUL bytes"⟩
  else if e.retry.any (· < 0) then
    .error ⟨.invalidArgument, "sseEvent(): $retry must be a non-negative integer"⟩
  else if e.data = none ∧ e.event = none ∧ e.id = none ∧ e.retry = none then .ok (r, none)
  else (sseEnsureStarted r).map fun r => (r, some e.payload)

def sseCommentText : Option Bytes → Bytes
  | some (b :: rest) => 0x20 :: b :: rest
  | _ => []

/-- The record of `sseComment`. -/
def sseCommentPayload (text : Option Bytes) : Bytes := [0x3a] ++ sseCommentText text ++ [0x0a, 0x0a]

def sseComment (text : Option Bytes) (r : HttpResponse) :
    Except Thrown (HttpResponse × Option Bytes) :=
  if r.closed then .error ⟨.runtime, "Cannot sseComment() on a closed response"⟩
  else if sseHasNewline text then
    .error ⟨.invalidArgument, "sseComment(): $text must not contain CR or LF"⟩
  else (sseEnsureStarted r).map fun r => (r, some (sseCommentPayload text))

/-- The record of `sseRetry`. -/
def sseRetryPayload (milliseconds : Int) : Bytes :=
  sseAppendField (ascii "retry") (numeral 10 milliseconds.toNat) ++ [0x0a]

def sseRetry (milliseconds : Int) (r : HttpResponse) :
    Except Thrown (HttpResponse × Option Bytes) :=
  if r.closed then .error ⟨.runtime, "Cannot sseRetry() on a closed response"⟩
  else if milliseconds < 0 then
    .error ⟨.invalidArgument, "sseRetry(): $milliseconds must be a non-negative integer"⟩
  else (sseEnsureStarted r).map fun r => (r, some (sseRetryPayload milliseconds))

/-! ## Chunks and messages -/

def HttpResponse.startStreaming (r : HttpResponse) : HttpResponse :=
  if r.streaming then r else { r with streaming := true, committed := true, headersSent := true }

def send (chunk : Bytes) (r : HttpResponse) : Except Thrown (HttpResponse × Option Bytes) :=
  if r.closed then .error ⟨.runtime, "Response already closed — cannot send() after end()"⟩
  else if r.sseMode then
    .error ⟨.runtime, "Response is in SSE mode — use sseEvent()/sseComment() instead of send()"⟩
  else if r.sendFileReq then
    .error ⟨.runtime, "Response is sealed by sendFile() — no further mutation allowed"⟩
  else if r.isHead then .ok (r, none)
  else .ok (r.startStreaming, some chunk)

/-- `grpc_frame_message`: a flag, the length in four bytes and the message. -/
def grpcFrameMessage (message : Bytes) : Bytes :=
  let len := message.length
  0 :: UInt8.ofNat (len / 2 ^ 24) :: UInt8.ofNat (len / 2 ^ 16) :: UInt8.ofNat (len / 2 ^ 8) ::
    UInt8.ofNat len :: message

def writeMessage (message : Bytes) (r : HttpResponse) :
    Except Thrown (HttpResponse × Option Bytes) :=
  if r.closed then
    .error ⟨.runtime, "Response already closed — cannot writeMessage() after end()"⟩
  else if r.sendFileReq then
    .error ⟨.runtime, "Response is sealed by sendFile() — no further mutation allowed"⟩
  else .ok (r.startStreaming, some (grpcFrameMessage message))

/-- A call that may hand a payload to the stream. -/
inductive StreamCall
  | send (chunk : Bytes)
  | writeMessage (message : Bytes)
  | sseStart
  | sseEvent (e : SseEvent)
  | sseComment (text : Option Bytes)
  | sseRetry (milliseconds : Int)
  deriving DecidableEq, Repr

def StreamCall.prepare : StreamCall → HttpResponse → Except Thrown (HttpResponse × Option Bytes)
  | .send chunk => Response.send chunk
  | .writeMessage message => Response.writeMessage message
  | .sseStart => fun r => (Response.sseStart r).map fun r => (r, none)
  | .sseEvent e => Response.sseEvent e
  | .sseComment text => Response.sseComment text
  | .sseRetry milliseconds => Response.sseRetry milliseconds

/-- `end` before it does anything. -/
def endCheck (r : HttpResponse) : Option Thrown :=
  if r.closed then some ⟨.runtime, "Response has already been closed"⟩
  else if r.sendFileReq then
    some ⟨.runtime, "Response is sealed by sendFile() — no further mutation allowed"⟩
  else none

/-- `end` of a response that does not stream. -/
def endBuffered (data : Option Bytes) (r : HttpResponse) : HttpResponse :=
  let r := match data with
    | some text => { r with bodyView := none, body := r.body ++ text }
    | none => r
  { r with closed := true, headersSent := true }

end TrueAsync.Response

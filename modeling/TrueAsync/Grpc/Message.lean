import Mathlib.Algebra.Ring.Nat
import TrueAsync.Lib.Base64
import TrueAsync.Lib.Cut

/-!
# gRPC messages

`src/grpc/grpc.c` and `HttpRequest::readMessage` of `src/http_request.c`: messages with a prefix of
five bytes in the body of a request. The body is read as it comes (`body_streaming`), from a buffer
when it is complete, or, for grpc-web-text, from its base64 decoding. A body of middle size is
buffered until the first call of `readMessage` turns it into a stream.

`php_base64_decode_ex` and `grpc_message_inflate` are parameters. The calls run in a coroutine.
-/

namespace TrueAsync.Grpc

open TrueAsync.Lib

/-! ## Frames -/

/-- `grpc_write_frame_header`. -/
def frameHeader (flag : UInt8) (len : Nat) : Bytes :=
  [flag, UInt8.ofNat (len / 2 ^ 24 % 256), UInt8.ofNat (len / 2 ^ 16 % 256),
    UInt8.ofNat (len / 2 ^ 8 % 256), UInt8.ofNat (len % 256)]

/-- `grpc_frame_message`. -/
def frameMessage (msg : Bytes) (compressed : Bool) : Bytes :=
  frameHeader (if compressed then 1 else 0) msg.length ++ msg

/-- What `grpc_deframe_next` finds at a cursor; with a message comes the cursor after it. -/
inductive Deframed
  | incomplete
  | tooLarge
  | message (compressed : Bool) (msg : Bytes) (cursor : Nat)
  deriving DecidableEq, Repr

/-- `grpc_deframe_next`. -/
def deframeNext (maxMsg : Nat) (buf : Bytes) (cursor : Nat) : Deframed :=
  if cursor + 5 > buf.length then .incomplete
  else
    match buf.drop cursor with
    | flag :: b1 :: b2 :: b3 :: b4 :: _ =>
        let mlen := b1.toNat * 2 ^ 24 + b2.toNat * 2 ^ 16 + b3.toNat * 2 ^ 8 + b4.toNat
        if mlen > maxMsg then .tooLarge
        else if cursor + 5 + mlen > buf.length then .incomplete
        else .message (flag ≠ 0) ((buf.drop (cursor + 5)).take mlen) (cursor + 5 + mlen)
    | _ => .incomplete

/-- `GRPC_MAX_RECV_MESSAGE`. -/
def maxRecvMessage : Nat := 16 * 1024 * 1024

/-! ## grpc-web-text -/

/-- The pieces of a text that end with a run of padding, and what follows the last run. -/
def padBlocks : Nat → Bytes → List Bytes
  | 0, _ => []
  | fuel + 1, text =>
      let plain := text.takeWhile (· ≠ padByte)
      let rest := text.dropWhile (· ≠ padByte)
      let pads := rest.takeWhile (· = padByte)
      if pads = [] then if plain = [] then [] else [plain]
      else (plain ++ pads) :: padBlocks fuel (rest.dropWhile (· = padByte))

/-- `grpc_web_text_decode`: each piece is decoded on its own. -/
def webTextDecode (decode : Bytes → Option Bytes) (text : Bytes) : Option Bytes :=
  ((padBlocks (text.length + 1) text).mapM decode).map List.flatten

/-! ## Requests -/

/-- The fields of `http_request_t` that `readMessage` works on, with the transport's
`request_body_buf`. A request is `upgradable` when `body_upgrade_to_stream` is set. -/
structure GrpcRequest where
  webText : Bool := false
  body : Option Bytes := none
  bodyBuf : Option Bytes := none
  upgradable : Bool := false
  bodyStreaming : Bool := false
  complete : Bool := false
  readOffset : Nat := 0
  reassembly : Option Bytes := none
  textBody : Option Bytes := none
  bodyQueue : List Bytes := []
  bodyEof : Bool := false
  bodyError : Bool := false
  deriving DecidableEq, Repr

/-- What a call of `readMessage` comes to. -/
inductive ReadResult
  | message (msg : Bytes)
  | null
  | malformedText
  | streamError
  | tooLarge
  | badCompression
  deriving DecidableEq, Repr

namespace GrpcRequest

/-- `http2_request_body_upgrade`. -/
def bodyUpgrade (req : GrpcRequest) : GrpcRequest :=
  if req.bodyStreaming ∨ req.complete then req
  else
    match req.bodyBuf with
    | some (b :: buffered) =>
        { req with
          bodyQueue := req.bodyQueue ++ [b :: buffered]
          bodyBuf := none
          bodyStreaming := true }
    | _ => { req with bodyStreaming := true }

/-- The consumed part of the buffer is dropped once it outweighs the rest. -/
def compact (req : GrpcRequest) : GrpcRequest :=
  match req.reassembly with
  | none => req
  | some buf =>
      if req.readOffset > 0 then
        let remain := if req.readOffset < buf.length then buf.length - req.readOffset else 0
        if remain = 0 then { req with reassembly := some [], readOffset := 0 }
        else if req.readOffset ≥ remain then
          { req with reassembly := some (buf.drop req.readOffset), readOffset := 0 }
        else req
      else req

variable (inflate : Bytes → Option Bytes)

/-- A message that has been taken out, or that was refused for its size. -/
def deliver : Bool → Bytes → ReadResult
  | false, msg => .message msg
  | true, msg =>
      match inflate msg with
      | some plain => .message plain
      | none => .badCompression

/-- The loop of a streaming read over the chunks in the queue. There is no result when the call is
suspended. -/
def streamRead : List Bytes → GrpcRequest → GrpcRequest × Option ReadResult
  | queue, req =>
      match deframeNext maxRecvMessage (req.reassembly.getD []) req.readOffset with
      | .message compressed msg cursor =>
          ({ req with bodyQueue := queue, readOffset := cursor },
            some (deliver inflate compressed msg))
      | .tooLarge => ({ req with bodyQueue := queue }, some .tooLarge)
      | .incomplete =>
          match queue with
          | chunk :: queue =>
              streamRead queue { req with reassembly := some (req.reassembly.getD [] ++ chunk) }
          | [] =>
              ({ req with bodyQueue := [] },
                if req.bodyEof then some (if req.bodyError then .streamError else .null) else none)

def bufferRead (text : Bytes) (req : GrpcRequest) : GrpcRequest × ReadResult :=
  match deframeNext maxRecvMessage text req.readOffset with
  | .message compressed msg cursor =>
      ({ req with readOffset := cursor }, deliver inflate compressed msg)
  | .tooLarge => (req, .tooLarge)
  | .incomplete => (req, .null)

/-- `HttpRequest::readMessage`, up to its end or its first suspension. -/
def readMessage (decode : Bytes → Option Bytes) (req : GrpcRequest) :
    GrpcRequest × Option ReadResult :=
  if req.webText then
    match req.textBody with
    | some text => (bufferRead inflate text req).map id some
    | none =>
        match req.body with
        | none => (req, some .null)
        | some body =>
            match webTextDecode decode body with
            | none => (req, some .malformedText)
            | some text => (bufferRead inflate text { req with textBody := some text }).map id some
  else
    let req := if !req.bodyStreaming && req.upgradable then req.bodyUpgrade else req
    if req.bodyStreaming then
      let req := req.compact
      streamRead inflate req.bodyQueue req
    else
      match req.body with
      | none => (req, some .null)
      | some body => (bufferRead inflate body req).map id some

/-- `readMessage` when its coroutine is resumed. -/
def resumeRead (req : GrpcRequest) : GrpcRequest × Option ReadResult :=
  streamRead inflate req.bodyQueue req

/-! ## The body arrives -/

/-- `cb_on_data_chunk_recv`, for the body of a request: `http_body_stream_push` or the buffer. -/
def dataChunk (chunk : Bytes) (req : GrpcRequest) : GrpcRequest :=
  if req.bodyStreaming then { req with bodyQueue := req.bodyQueue ++ [chunk] }
  else { req with bodyBuf := some (req.bodyBuf.getD [] ++ chunk) }

/-- `finalize_request_body`. -/
def finalizeBody (req : GrpcRequest) : GrpcRequest :=
  if req.bodyStreaming then { req with bodyEof := true, complete := true }
  else { req with body := req.bodyBuf.or req.body, bodyBuf := none, complete := true }

end GrpcRequest

/-! ## Calls and chunks interleaved -/

/-- A request with the calls of `readMessage` on it: how many are suspended, and what the others
came to. `sent` is what has arrived of the body. -/
structure Reading where
  req : GrpcRequest
  waiting : Nat := 0
  results : List ReadResult := []
  sent : Bytes := []
  finished : Bool := false

namespace Reading

variable (inflate decode : Bytes → Option Bytes)

/-- A call has run, and has come to something or is suspended. -/
def after (r : Reading) (outcome : GrpcRequest × Option ReadResult) : Reading :=
  match outcome with
  | (req, some result) => { r with req, results := r.results ++ [result] }
  | (req, none) => { r with req, waiting := r.waiting + 1 }

def call (r : Reading) : Reading := r.after (r.req.readMessage inflate decode)

def resume (r : Reading) : Reading :=
  { r with waiting := r.waiting - 1 }.after (r.req.resumeRead inflate)

def arrive (chunk : Bytes) (r : Reading) : Reading :=
  { r with req := r.req.dataChunk chunk, sent := r.sent ++ chunk }

def finish (r : Reading) : Reading := { r with req := r.req.finalizeBody, finished := true }

end Reading

/-- What can come of a request whose body is `body`, in any order of chunks and calls. -/
inductive Reachable (inflate decode : Bytes → Option Bytes) (body : Bytes) (start : GrpcRequest) :
    Reading → Prop
  | start : Reachable inflate decode body start { req := start }
  | arrive {r : Reading} (chunk : Bytes) (before : Reachable inflate decode body start r)
      (running : r.finished = false) (fits : r.sent ++ chunk <+: body) :
      Reachable inflate decode body start (r.arrive chunk)
  | finish {r : Reading} (before : Reachable inflate decode body start r)
      (running : r.finished = false) (whole : r.sent = body) :
      Reachable inflate decode body start r.finish
  | call {r : Reading} (before : Reachable inflate decode body start r) :
      Reachable inflate decode body start (r.call inflate decode)
  | resume {r : Reading} (before : Reachable inflate decode body start r)
      (suspended : 0 < r.waiting) : Reachable inflate decode body start (r.resume inflate)

end TrueAsync.Grpc

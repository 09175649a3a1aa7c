import TrueAsync.Http1.Dispose
import TrueAsync.Response.Stream

/-!
# Streaming over HTTP/1

`src/http1/http1_stream.c`, with the methods that end in it, and the sending half of
`http_handler_coroutine_dispose`. The environment decides which writes the connection takes.
-/

namespace TrueAsync.Http1

open TrueAsync.Lib TrueAsync.Response

/-- What a handler runs in: the server, the clock, and whether the connection takes its
`n`-th write. -/
structure H1Env where
  transport : Transport := {}
  now : Tm
  takes : Nat → Bool := fun _ => true

/-- `http1_request_ctx_t`, with what has been written. -/
structure H1Ctx where
  response : HttpResponse
  /-- `h1_stream_headers_sent`. -/
  streamHeadersSent : Bool := false
  wire : Bytes := []
  writes : Nat := 0
  /-- A write has failed, or a chunk could not be framed. -/
  dead : Bool := false
  deriving DecidableEq, Repr

/-- `http_connection_send`, and the other writers: all or nothing. -/
def httpConnectionSend (env : H1Env) (data : Bytes) (ctx : H1Ctx) : Bool × H1Ctx :=
  if data = [] then (true, ctx)
  else if env.takes ctx.writes then
    (true, { ctx with wire := ctx.wire ++ data, writes := ctx.writes + 1 })
  else (false, { ctx with writes := ctx.writes + 1, dead := true })

/-- `&&` of writers: the next one runs if the one before it has succeeded. -/
def andThen (out : Bool × H1Ctx) (next : H1Ctx → Bool × H1Ctx) : Bool × H1Ctx :=
  if out.1 then next out.2 else (false, out.2)

/-- `h1_emit_headers_once`. -/
def h1EmitHeadersOnce (env : H1Env) (ctx : H1Ctx) : Bool × H1Ctx :=
  let response := setAltSvcIfUnset env.transport.altSvc ctx.response
  httpConnectionSend env (httpResponseFormatStreamingHeaders env.now response)
    { ctx with response }

def h1CommitHeaders (env : H1Env) (ctx : H1Ctx) : Bool × H1Ctx :=
  if ctx.streamHeadersSent then (true, ctx)
  else
    let (sent, ctx) := h1EmitHeadersOnce env ctx
    (sent, { ctx with streamHeadersSent := sent })

def h1ChunkHeaderMax : Nat := 18

def sendChunk (env : H1Env) (chunk : Bytes) (ctx : H1Ctx) : Bool × H1Ctx :=
  let header := numeral 16 chunk.length ++ crlf
  if header.length ≥ h1ChunkHeaderMax then (false, { ctx with dead := true })
  else
    andThen (andThen (httpConnectionSend env header ctx) (httpConnectionSend env chunk))
      (httpConnectionSend env crlf)

/-- `h1_stream_append_chunk`: whether the stream lives. -/
def h1StreamAppendChunk (env : H1Env) (chunk : Bytes) (ctx : H1Ctx) : Bool × H1Ctx :=
  andThen (h1CommitHeaders env ctx) fun ctx =>
    if chunk = [] then (true, ctx) else sendChunk env chunk ctx

def zeroChunk : Bytes := ascii "0\r\n\r\n"

/-- `h1_stream_mark_ended`. -/
def h1StreamMarkEnded (env : H1Env) (ctx : H1Ctx) : H1Ctx :=
  (andThen (h1CommitHeaders env ctx) (httpConnectionSend env zeroChunk)).2

/-- `end` of a response that streams: the data as one last chunk, and the terminal chunk. -/
def endStreaming (env : H1Env) (data : Option Bytes) (ctx : H1Ctx) : H1Ctx :=
  let ctx := match data with
    | some (b :: text) => (h1StreamAppendChunk env (b :: text) ctx).2
    | _ => ctx
  let ctx := h1StreamMarkEnded env ctx
  { ctx with response := { ctx.response with closed := true } }

/-- A call of a handler. -/
inductive HandlerCall
  | stream (call : StreamCall)
  | finish (data : Option Bytes)
  deriving DecidableEq, Repr

/-- The methods that go to the stream operations: what they throw, and the context after them. -/
def HandlerCall.run (env : H1Env) (ctx : H1Ctx) : HandlerCall → Option Thrown × H1Ctx
  | .stream call =>
      match call.prepare ctx.response with
      | .error thrown => (some thrown, ctx)
      | .ok (response, none) => (none, { ctx with response })
      | .ok (response, some payload) =>
          let (lives, ctx) := h1StreamAppendChunk env payload { ctx with response }
          (if lives then none else some ⟨.http 499, "stream closed by peer"⟩, ctx)
  | .finish data =>
      match endCheck ctx.response with
      | some thrown => (some thrown, ctx)
      | none =>
          if ctx.response.streaming then (none, endStreaming env data ctx)
          else (none, { ctx with response := endBuffered data ctx.response })

def httpWritevThreshold : Nat := 1024

/-- `http_handler_coroutine_dispose`. -/
def httpHandlerCoroutineDispose (env : H1Env) (ending : HandlerEnd) (ctx : H1Ctx) : H1Ctx :=
  let response := settleResponse env.transport ending ctx.response
  let ctx := { ctx with response }
  if response.streaming then
    if response.closed then ctx else (httpConnectionSend env zeroChunk ctx).2
  else if response.isHead then
    (httpConnectionSend env (httpResponseFormatParts env.now response).1 ctx).2
  else if response.bodyBytes.length < httpWritevThreshold then
    (httpConnectionSend env (httpResponseFormat env.now response) ctx).2
  else
    let (headers, body) := httpResponseFormatParts env.now response
    (httpConnectionSend env (headers ++ body.getD []) ctx).2

def runHandler (env : H1Env) (version : HttpVersion) (isHead : Bool) (calls : List HandlerCall)
    (ending : HandlerEnd) : H1Ctx :=
  httpHandlerCoroutineDispose env ending
    (calls.foldl (fun ctx call => (call.run env ctx).2)
      { response := HttpResponse.start version isHead })

end TrueAsync.Http1

import TrueAsync.Http1.Frames
import TrueAsync.Lib.Heap

/-!
# Requests on an HTTP/1 connection

The request is shared by hand. The parser allocates it in `on_message_begin` and owns it until
it is dispatched; from then on the handler's PHP object owns it, and the parser keeps a
borrowed pointer. This is the plain-text path of `src/core/http_connection.c`: the read
callback with `http_connection_handle_read_completion`, the dispatch with its failures, and
`http_request_finalize`. Requests, PHP objects and handler contexts live on heaps, and a read
of released memory is a fault.

llhttp issues its callbacks in the order of its own state: `Phase` is as much of that state as
the order needs, and a callback that does not belong to the phase is not issued.
-/

namespace TrueAsync.Http1

open TrueAsync.Lib

variable {Proc Form : Type}

/-- What llhttp is reading. -/
inductive Phase
  | idle
  | head
  | body
  deriving DecidableEq, Repr

/-- How the dispatch of a request ends; `rejected` is a refused WebSocket upgrade. -/
inductive DispatchOutcome
  | spawned (websocket : Bool)
  | failed
  | rejected
  deriving DecidableEq, Repr

/-- A callback of llhttp, with what the environment decides in it. -/
inductive Callback
  | messageBegin
  | url (text : Bytes)
  | headerField (text : Bytes)
  | headerValue (text : Bytes)
  | headersComplete (line : RequestLine) (env : Admission) (dispatch : DispatchOutcome)
  | body (text : Bytes) (oom : Bool)
  | messageComplete (dispatch : DispatchOutcome)
  deriving DecidableEq, Repr

def Callback.allowed : Phase → Callback → Bool
  | .idle, .messageBegin => true
  | .head, .url _ => true
  | .head, .headerField _ => true
  | .head, .headerValue _ => true
  | .head, .headersComplete .. => true
  | .body, .body .. => true
  | .body, .headerField _ => true
  | .body, .headerValue _ => true
  | .body, .messageComplete _ => true
  | _, _ => false

def Callback.next (phase : Phase) : Callback → Phase
  | .messageBegin => .head
  | .headersComplete .. => .body
  | .messageComplete _ => .idle
  | _ => phase

/-- The PHP `HttpRequest` object around a request: held by its handler's context, and by
`userRefs` variables of the user's code. -/
structure RequestObject where
  request : RequestPtr
  held : Bool
  userRefs : Nat
  deriving DecidableEq, Repr

/-- `http1_request_ctx_t` and its WebSocket counterpart. -/
structure HandlerCtx where
  object : Nat
  websocket : Bool
  deriving DecidableEq, Repr

/-- A bad access. -/
inductive Fault
  /-- The request at this address has been destroyed. -/
  | freed (request : RequestPtr)
  /-- `parser->request` is NULL. -/
  | null
  /-- A PHP object that has been released. -/
  | object
  deriving DecidableEq, Repr

/-- `http_connection_t` with what hangs off it. `stopped` is a connection whose parser runs no
more: llhttp has latched an error, or the teardown is under way. -/
structure ConnState (Proc Form : Type) where
  parser : Http1Parser
  requests : Heap (HttpRequest Proc Form) := .empty
  objects : Heap RequestObject := .empty
  contexts : Heap HandlerCtx := .empty
  phase : Phase := .idle
  requestInFlight : Bool := false
  stopped : Bool := false

/-! ## Ownership -/

/-- `http_request_destroy`. -/
def httpRequestDestroy (requests : Heap (HttpRequest Proc Form)) (r : RequestPtr) :
    Except Fault (Heap (HttpRequest Proc Form)) := do
  let req ← requests.read (.freed r) r
  if req.refcount > 1 then
    pure (requests.modify r fun req => { req with refcount := req.refcount - 1 })
  else
    pure (requests.free r)

/-- A reference to a PHP object goes away; `http_request_free_object` runs with the last. -/
def releaseObject (st : ConnState Proc Form) (o : Nat) (obj : RequestObject) :
    Except Fault (ConnState Proc Form) :=
  if obj.held || obj.userRefs > 0 then
    pure { st with objects := st.objects.modify o fun _ => obj }
  else do
    let requests ← httpRequestDestroy st.requests obj.request
    pure { st with requests, objects := st.objects.free o }

def ConnState.onParser (st : ConnState Proc Form) (callback : Http1Parser → Reply × Http1Parser) :
    CbResult × ConnState Proc Form :=
  ((callback st.parser).1.result, { st with parser := (callback st.parser).2 })

/-- The start of `on_message_begin`: a request that was never dispatched is destroyed. -/
def ConnState.dropUndelivered (st : ConnState Proc Form) :
    Except Fault (Heap (HttpRequest Proc Form)) :=
  match st.parser.ownsRequest, st.parser.request with
  | true, some r => httpRequestDestroy st.requests r
  | _, _ => pure st.requests

/-- `on_message_begin` with the allocation. -/
def ConnState.onMessageBegin (st : ConnState Proc Form) : Except Fault (ConnState Proc Form) := do
  let requests ← st.dropUndelivered
  let s : Parse Proc Form := Http1.onMessageBegin st.parser
  pure { st with
    parser := { s.parser with request := some requests.next }
    requests := requests.alloc s.req }

/-- A buffer for the parser: the callbacks in it, and whether llhttp reports an error of its
own at their end. -/
structure Feed where
  callbacks : List Callback
  malformed : Bool := false
  deriving DecidableEq, Repr

/-- What can happen on a connection. -/
inductive ConnEvent
  /-- A read completion. -/
  | read (feed : Feed)
  /-- A handler ends; `pipelined` is what is left in the read buffer. A connection that is not kept
  alive is destroyed once the parser wants more bytes. -/
  | finish (ctx : Nat) (shouldContinue : Bool) (pipelined : Option Feed)
  /-- The user's code stores a reference to a request object. -/
  | retain (object : Nat)
  /-- The user's code drops one. -/
  | release (object : Nat)
  deriving DecidableEq, Repr

/-- The end of a handler up to its PHP objects: the context is freed and its reference to the
request object goes away. -/
def releaseHandler (c : Nat) (ctx : HandlerCtx) (st : ConnState Proc Form) :
    Except Fault (ConnState Proc Form) := do
  let obj ← st.objects.read .object ctx.object
  releaseObject { st with contexts := st.contexts.free c } ctx.object { obj with held := false }

def ConnState.start (p : Http1Parser) (conn : ConnView) : ConnState Proc Form :=
  { parser := httpParserAttach conn (httpParserResetForReuse p) }

end TrueAsync.Http1

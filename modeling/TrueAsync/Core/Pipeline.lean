import TrueAsync.Lib.Ascii
import TrueAsync.Lib.History
import TrueAsync.Lib.StreamParser

/-!
# Pipelined requests on an HTTP/1 connection

The read side of `src/core/http_connection.c` on a plaintext connection with buffered bodies.
Bytes gather in `read_buffer`; the parser runs over it while no handler is in flight, stops at
the end of a request, dispatches it, and leaves the rest for the finalizer of the handler. The
reader is multishot, so bytes keep arriving meanwhile.

llhttp with its callbacks is a `StreamParser`: which bytes belong to which request is its
affair, and everything here holds for any such parser. What the connection does see of it is
`request->complete`, which a complete request sets and only the start of the next one resets. After
a request that asks for an upgrade (`CONNECT`, or `Upgrade` with `Connection: upgrade`) llhttp is
paused for good: it uses up no byte more. Such a request may become a WebSocket, whose handler
hands the connection over to another strategy.
-/

namespace TrueAsync.Core

open TrueAsync.Lib List

variable {ι β ρ : Type}

/-- What a listener accepts, and the size of a connection's read buffer. -/
structure Listener where
  h1Ok : Bool := true
  h2Ok : Bool := false
  readBufferSize : Nat
  deriving DecidableEq, Repr

/-- `http_protocol_type_t`, as far as the first bytes decide it. -/
inductive Protocol
  | http1
  | http2
  | unsupported
  deriving DecidableEq, Repr

def minDetectionBytes : Nat := 8
def http2PrefaceLen : Nat := 24

/-- The classification in `detect_and_assign_protocol`; `none` asks for more bytes. -/
def detectProtocol (l : Listener) (data : Bytes) : Option Protocol :=
  if data.length < minDetectionBytes then none
  else if l.h2Ok && !l.h1Ok then some .http2
  else if l.h1Ok && !l.h2Ok then some .http1
  else if l.h2Ok && data.take 4 == ascii "PRI " then some .http2
  else if l.h1Ok && (data.head?.any fun b => (ascii "GPDHOCT").contains b) then some .http1
  else if data.length ≥ http2PrefaceLen then some (if l.h1Ok then .http1 else .unsupported)
  else none

/-- `http_connection_t` as far as the read side uses it, and what has happened so far. -/
structure PipeState (ι β ρ : Type) where
  reading : Reading ι β
  /-- `parser->request->complete`; false while there is no request. -/
  complete : Bool := false
  /-- llhttp is paused for an upgrade. -/
  upgrade : Bool := false
  protocolDetected : Bool := false
  readBuffer : Bytes := []
  requestInFlight : Bool := false
  /-- The request in flight was given to a WebSocket's handler. -/
  webSocket : Bool := false
  keepAlive : Bool := true
  destroyPending : Bool := false
  destroyed : Bool := false
  /-- The reader has seen the end of the stream. -/
  ended : Bool := false
  /-- Handler coroutines that have not been finalized. -/
  handlers : Nat := 0
  dispatched : List ρ := []
  /-- A handler could not be spawned. -/
  spawnFailed : Bool := false
  received : Bytes := []
  /-- What the parser has used up. -/
  consumed : Bytes := []

/-- What becomes of a complete request: a handler is spawned for it, or cannot be; or
`ws_dispatch_try_upgrade` takes it, and spawns a WebSocket's handler, or drops the request, which it
has answered itself or could not spawn a handler for. -/
inductive Dispatch
  | handler
  | failed
  | webSocket
  | refused
  deriving DecidableEq, Repr

/-- `http_connection_destroy`, as the caller's answer. -/
def PipeState.destroyIf (destroy : Bool) (st : PipeState ι β ρ) : PipeState ι β ρ :=
  { st with destroyed := st.destroyed || destroy }

/-- `ws_commit_upgrade` with a session: the bytes go to the WebSocket's strategy from now on. That
counts as the end of the HTTP/1 connection and of its handler here. -/
def wsCommitUpgrade (st : PipeState ι β ρ) : PipeState ι β ρ :=
  { st with handlers := 0, destroyed := true }

/-- `fate` is what becomes of a request that is complete with the event. -/
inductive PipeEvent
  | read (chunk : Bytes) (fate : Dispatch)
  | readEnd
  | finish (shouldContinue : Bool) (fate : Dispatch)
  | wsCommit
  | wsFinish (committed : Bool)
  deriving DecidableEq, Repr

def requests (M : StreamParser ι β ρ) (stream : Bytes) : List ρ := M.messages (.idle M.start) stream

/-- No complete request follows one that `ws_dispatch_try_upgrade` takes. -/
def Alone (M : StreamParser ι β ρ) (fate : Dispatch) (st : PipeState ι β ρ) : Prop :=
  fate = .webSocket ∨ fate = .refused → ∀ request i upgrade rest,
    M.run st.reading false st.readBuffer = .message request i upgrade rest →
      M.messages (.idle i) rest = []

/-- The parser can make sense of the read buffer. The first bytes are taken for HTTP/1, or hold
no complete request while they are not recognised; no request before them asked for an upgrade; and
after a complete request the buffer does not consist of bytes alone that the parser skips between
requests. -/
def Digestible (M : StreamParser ι β ρ) (l : Listener) (fate : Dispatch) (st : PipeState ι β ρ) :
    Prop :=
  if st.protocolDetected then
    st.upgrade = false ∧ Alone M fate st ∧
      (st.complete = true → ∀ s, M.run st.reading false st.readBuffer ≠ .more s false)
  else
    detectProtocol l st.readBuffer = some .http1 ∧ Alone M fate st ∨
      detectProtocol l st.readBuffer = none ∧ M.messages st.reading st.readBuffer = []

/-- What an event has to find: bytes the parser can make sense of, where it runs over them, and no
complete request after the one that a WebSocket's handler was given. -/
def Clean (M : StreamParser ι β ρ) (l : Listener) (st : PipeState ι β ρ) : PipeEvent → Prop
  | .read chunk fate =>
      if st.webSocket then M.messages st.reading (st.readBuffer ++ chunk) = []
      else st.requestInFlight = false →
        Digestible M l fate { st with readBuffer := st.readBuffer ++ chunk }
  | .finish _ fate => st.webSocket = false → st.handlers ≠ 0 → st.readBuffer ≠ [] →
      Digestible M l fate st
  | .readEnd | .wsCommit | .wsFinish _ => True

/-- The simulation: the stream received, however it goes on, holds what was dispatched and what
the parser will find in the read buffer and after it. -/
structure Simulates (M : StreamParser ι β ρ) (st : PipeState ι β ρ) : Prop where
  bytes : st.consumed ++ st.readBuffer = st.received
  follows : ∀ tail, requests M (st.received ++ tail) =
    st.dispatched ++ M.messages st.reading (st.readBuffer ++ tail)
  flight : st.webSocket = false → st.handlers = if st.requestInFlight then 1 else 0
  socket : st.webSocket = true → st.requestInFlight = true ∧ st.handlers ≤ 1 ∧
    M.messages st.reading st.readBuffer = []
  fresh : st.protocolDetected = false → st.complete = false ∧ st.upgrade = false
  spawned : st.destroyPending = false ∧ st.spawnFailed = false

/-- The end of a connection. -/
structure Over (M : StreamParser ι β ρ) (st : PipeState ι β ρ) : Prop where
  destroyed : st.destroyed = true
  handlers : st.handlers = 0
  order : ∃ later, requests M st.received = st.dispatched ++ later
  whole : st.spawnFailed = false → st.dispatched = requests M st.received

/-- The invariant. With no handler in flight the parser has seen every request. -/
def Piped (M : StreamParser ι β ρ) (st : PipeState ι β ρ) : Prop :=
  (st.destroyed = false ∧ Simulates M st ∧
    (st.requestInFlight = false → M.messages st.reading st.readBuffer = [])) ∨ Over M st

variable {M : StreamParser ι β ρ} {st : PipeState ι β ρ}

theorem Simulates.requests_eq (sim : Simulates M st) :
    requests M st.received = st.dispatched ++ M.messages st.reading st.readBuffer := by
  have follows := sim.follows []
  rwa [append_nil, append_nil] at follows

/-- No handler is in flight and the parser has seen everything. -/
structure Rests (M : StreamParser ι β ρ) (st : PipeState ι β ρ) : Prop extends Simulates M st where
  alive : st.destroyed = false
  free : st.requestInFlight = false
  seen : M.messages st.reading st.readBuffer = []

/-- While no request is in flight there is no WebSocket, and no handler. -/
theorem Simulates.idle (sim : Simulates M st) (free : st.requestInFlight = false) :
    st.webSocket = false ∧ st.handlers = 0 := by
  have noSocket : st.webSocket = false := by
    by_contra socket
    rw [(sim.socket (by simpa using socket)).1] at free
    cases free
  rw [sim.flight noSocket, free]
  exact ⟨noSocket, rfl⟩

/-- The end of a connection whose parser has seen every request. -/
theorem Simulates.over (sim : Simulates M st) (seen : M.messages st.reading st.readBuffer = [])
    {last : PipeState ι β ρ} (destroyed : last.destroyed = true) (handlers : last.handlers = 0)
    (received : last.received = st.received) (dispatched : last.dispatched = st.dispatched) :
    Over M last := by
  have equation := sim.requests_eq
  rw [seen, append_nil, ← received, ← dispatched] at equation
  exact ⟨destroyed, handlers, ⟨[], equation.trans (append_nil _).symm⟩, fun _ => equation.symm⟩

theorem Rests.piped (rests : Rests M st) : Piped M st :=
  .inl ⟨rests.alive, rests.toSimulates, fun _ => rests.seen⟩

theorem destroyIf_false (st : PipeState ι β ρ) : st.destroyIf false = st := by
  simp [PipeState.destroyIf]

theorem Rests.destroyIf (rests : Rests M st) (destroy : Bool) : Piped M (st.destroyIf destroy) := by
  cases destroy with
  | true =>
    have idle := (rests.idle rests.free).2
    exact .inr (rests.over rests.seen (Bool.or_true _) idle rfl rfl)
  | false =>
    rw [destroyIf_false]
    exact rests.piped

/-- What the read side makes of its buffer: it goes on at rest, or a handler is in flight, or the
connection is over. -/
structure Fed (M : StreamParser ι β ρ) (out : (Bool × Bool) × PipeState ι β ρ) : Prop where
  stops : out.1.1 = false → Piped M (out.2.destroyIf out.1.2)
  goes : out.1.1 = true → out.1.2 = false ∧ Rests M out.2

variable {fate : Dispatch}

variable {l : Listener}

theorem Simulates.receive (sim : Simulates M st) (chunk : Bytes)
    (socket : st.webSocket = true → M.messages st.reading (st.readBuffer ++ chunk) = []) :
    Simulates M { st with
      readBuffer := st.readBuffer ++ chunk
      received := st.received ++ chunk } where
  bytes := by
    rw [← append_assoc, sim.bytes]
  follows := fun tail => by
    rw [append_assoc, append_assoc]
    exact sim.follows (chunk ++ tail)
  flight := sim.flight
  socket := fun isSocket => ⟨(sim.socket isSocket).1, (sim.socket isSocket).2.1, socket isSocket⟩
  fresh := sim.fresh
  spawned := sim.spawned

theorem Fed.destroyIf (fed : Fed M out) : Piped M (out.2.destroyIf out.1.2) := by
  cases goesOn : out.1.1 with
  | true => exact (fed.goes goesOn).2.destroyIf _
  | false => exact fed.stops goesOn

/-- Where the parser of heads is, with the bytes of the request so far. -/
structure HeadState where
  head : Bytes
  deriving DecidableEq, Repr

/-- A head with the fields that ask for an upgrade, in the form they have below. -/
def asksUpgrade (head : Bytes) : Bool :=
  (strstr (ascii "\r\nUpgrade: ") head).isSome &&
    (strstr (ascii "\r\nConnection: Upgrade\r\n") head).isSome

/-- The parser of heads. -/
def headMachine : StreamParser Unit HeadState Bytes where
  start := ()
  step
    | .idle _, b => if b = 13 ∨ b = 10 then .skip () else .work ⟨[b]⟩
    | .busy s, b =>
        let head := s.head ++ [b]
        if head.drop (head.length - 4) = ascii "\r\n\r\n" then .done head () (asksUpgrade head)
        else .work ⟨head⟩

/-- A request of the stream stays in the read buffer for good: no handler is in flight, but one
seems to be. -/
def Stuck (st : PipeState Unit HeadState Bytes) (dispatched : List Bytes) (left : Bytes) : Prop :=
  st.dispatched = dispatched ∧ requests headMachine st.received = dispatched ++ [left] ∧
    st.handlers = 0 ∧ st.requestInFlight = true ∧ st.destroyed = false ∧ st.spawnFailed = false

end TrueAsync.Core

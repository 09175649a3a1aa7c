import TrueAsync.Websocket.Session
import TrueAsync.Websocket.WslayProps

/-!
# The transports under a session

The `ws_transport_ops_t` tables that are installed: `ws_h1_transport` over a plain connection or over
TLS (`src/websocket/ws_session.c`, `src/core/http_connection_tls.c`), `ws_h2_transport` over one
stream (`src/http2/http2_strategy.c`) and the outgoing connection of `src/websocket/ws_client.c`.
Here is `send_internal` of each, which must not suspend, and `sendable`. What `send` makes of a write
is the environment's: the caller may be suspended in it.
-/

namespace TrueAsync.Ws

open TrueAsync.Lib TrueAsync.Wslay

def frameBytes (frames : List Frame) : Bytes := frames.flatMap Frame.bytes

/-- `H2_CHUNK_RING_SLOTS`. -/
def h2ChunkRingSlots : Nat := 8

/-- `http2_stream_t` as far as a WebSocket writes to it. The ring is the list of its live chunks,
which `http2_stream_compact_chunk_queue` moves to the front of the slots; before the accept there is
none. -/
structure H2Stream where
  chunkQueue : Option (List (List Frame)) := none
  chunkQueueBytes : Nat := 0
  chunkReadOffset : Nat := 0
  peerClosed : Bool := false
deriving DecidableEq, Repr

namespace H2Stream

def full (stream : H2Stream) : Bool :=
  match stream.chunkQueue with
  | none => false
  | some chunks => h2ChunkRingSlots ≤ chunks.length

/-- `h2_stream_sendable`; `maxBytes` is `stream_write_buffer_bytes`. -/
def sendable (stream : H2Stream) (maxBytes : Nat) : Bool :=
  match stream.chunkQueue with
  | none => true
  | some _ => !stream.full && (maxBytes == 0 || stream.chunkQueueBytes < maxBytes)

def append (stream : H2Stream) (frames : List Frame) : H2Stream :=
  { stream with
    chunkQueue := stream.chunkQueue.map (· ++ [frames])
    chunkQueueBytes := stream.chunkQueueBytes + (frameBytes frames).length }

/-- `ws_h2_send_internal` finds a slot for the chunk; it reports success whether it does or not. -/
def hasSlot (stream : H2Stream) : Bool :=
  stream.chunkQueue.isSome && !stream.peerClosed && !stream.full

theorem hasSlot_of_sendable {stream : H2Stream}
    (ring : stream.chunkQueue.isSome = true) (isOpen : stream.peerClosed = false)
    (room : stream.sendable maxBytes = true) : stream.hasSlot = true := by
  obtain ⟨chunks, live⟩ := Option.isSome_iff_exists.mp ring
  unfold sendable at room
  simp_all [hasSlot]

/-- The loop of `h2_chunk_queue_walk`: the chunks that are left, the offset into the first, and how
many bytes were taken. -/
def walkChunks : Nat → Nat → List (List Frame) → List (List Frame) × Nat × Nat
  | _, offset, [] => ([], offset, 0)
  | length, offset, chunk :: chunks =>
    let size := (frameBytes chunk).length
    let take := min (size - offset) length
    if length = 0 then (chunk :: chunks, offset, 0)
    else if offset + take = size then
      let (chunks, offset, taken) := walkChunks (length - take) 0 chunks
      (chunks, offset, take + taken)
    else (chunk :: chunks, offset + take, take)

/-- `h2_chunk_queue_walk`: up to `length` bytes go to the network. -/
def chunkQueueWalk (stream : H2Stream) (length : Nat) : H2Stream :=
  match stream.chunkQueue with
  | none => stream
  | some chunks =>
    let (chunks, offset, taken) := walkChunks length stream.chunkReadOffset chunks
    { stream with
      chunkQueue := some chunks
      chunkQueueBytes := stream.chunkQueueBytes - taken
      chunkReadOffset := offset }

end H2Stream

/-- What decides an immediate write: a connection whose write deadline has passed or whose next write
cannot be submitted, the plaintext that `SSL_write` still takes, the stream, or the socket. -/
inductive Transport where
  | plain (writeTimedOut submits : Bool) (outPendingLen : Nat)
  | tls (tlsWriteError : Bool) (room outPendingLen : Nat)
  | h2 (stream : H2Stream)
  | client (writes : Bool)
deriving DecidableEq, Repr

namespace Transport

/-- `send_internal` accepts every byte of a chunk. -/
def takes (transport : Transport) (frames : List Frame) : Bool :=
  match transport with
  | .plain writeTimedOut submits _ => !writeTimedOut && submits
  | .tls tlsWriteError room _ => !tlsWriteError && (frameBytes frames).length ≤ room
  | .h2 stream => stream.hasSlot
  | .client writes => writes

/-- What `send_internal` returns: `http_connection_send_batched`,
`http_connection_tls_fsm_send_plaintext_atomic`, `ws_h2_send_internal` and
`ws_client_transport_send`. -/
def reports (transport : Transport) (frames : List Frame) : Bool :=
  match transport with
  | .h2 _ => true
  | _ => transport.takes frames

def lacksRoom (transport : Transport) (frames : List Frame) : Bool :=
  match transport with
  | .tls tlsWriteError room _ => !tlsWriteError && room < (frameBytes frames).length
  | .h2 stream => stream.full
  | .plain .. | .client _ => false

/-- `http_connection_outbound_over_highwater`, of which only a session that is bound to the whole
connection takes notice. -/
def outbound (transport : Transport) (high : Nat) : Bool :=
  match transport with
  | .plain _ _ outPendingLen | .tls _ _ outPendingLen => high != 0 && high ≤ outPendingLen
  | .h2 _ | .client _ => false

/-- `ws_session_transport_sendable`. -/
def sendable (transport : Transport) (high : Nat) : Bool :=
  match transport with
  | .plain .. | .tls .. => !transport.outbound high
  | .h2 stream => stream.sendable high
  | .client _ => true

theorem not_takes {transport : Transport}
    (full : transport.lacksRoom frames = true) : transport.takes frames = false := by
  cases transport with
  | plain _ _ _ | client _ => cases full
  | tls error room pending =>
    simp only [lacksRoom, Bool.and_eq_true, decide_eq_true_eq] at full
    simp [takes, full.2]
  | h2 stream =>
    simp only [lacksRoom] at full
    simp [takes, H2Stream.hasSlot, full]

end Transport

end TrueAsync.Ws

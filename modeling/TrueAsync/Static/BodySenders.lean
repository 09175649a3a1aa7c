import Mathlib.Algebra.Ring.Nat
import Mathlib.Tactic.SplitIfs
import TrueAsync.Lib.Ascii
import TrueAsync.Lib.History

/-!
# The senders of a file body

A static response with a file body is sent by three state machines: over HTTP/1 with TLS
(`src/http1/http1_sendfile.c`), over HTTP/2 (`src/http2/http2_static_response.c`) and over HTTP/3
(`src/http3/http3_static_response.c`). Each reads the file sequentially through an asynchronous file
handle, hands what it has read to its transport and reports to `on_done`. What the transport, the
memory accounting and the file system answer is given with the events.
-/

namespace TrueAsync.Static

open TrueAsync.Lib

/-- The status of `on_done`: `0` or `-1`. -/
inductive Status where
  | ok
  | error
deriving DecidableEq, Repr

/-- How a read ends: with some bytes, at the end of the file, or with an error. -/
inductive Completion where
  | bytes (n : Nat)
  | eof
  | failed
deriving DecidableEq, Repr

/-- A file and the slice of it that is to be sent. -/
structure BodySlice where
  content : Bytes
  bodyOffset : Nat
  bodyLength : Nat
  inside : bodyOffset + bodyLength ≤ content.length

namespace BodySlice

def range (body : BodySlice) (position n : Nat) : Bytes := (body.content.drop position).take n

def slice (body : BodySlice) : Bytes := body.range body.bodyOffset body.bodyLength

end BodySlice

/-- What the three state machines have in common. `position` is that of the file handle, which a read
moves on; `bytesSent` is called `bytes_read` over HTTP/2; `pendingReq` is the number of bytes that the
read in flight has asked for. `handed`, `short` and `reported` are history: what the transport was
given, whether a read has stopped short of the slice, and the call of `on_done`. -/
structure Delivery where
  body : BodySlice
  position : Nat := 0
  bytesSent : Nat := 0
  pendingReq : Option Nat := none
  status : Status := .ok
  handed : Bytes := []
  short : Bool := false
  reported : Option Status := none

namespace Delivery

def accepts (d : Delivery) : Completion → Bool
  | .bytes n => d.pendingReq.any (n ≤ ·) && 0 < n && d.position + n ≤ d.body.content.length
  | .eof | .failed => d.pendingReq.isSome

def next (d : Delivery) (n : Nat) : Bytes := d.body.range d.position n

end Delivery

/-- The bytes handed to the transport are those of the slice, in order; they are all of them when the
sender has ended the body without a failure; and a read that stops short is never reported as a
success. -/
structure Faithful (d : Delivery) (ended : Bool) : Prop where
  inOrder : d.handed <+: d.body.slice
  whole : ended = true → d.status = .ok → d.short = false → d.handed = d.body.slice
  reported : d.short = true → d.reported ≠ some .ok

/-! ## HTTP/1 over TLS -/

/-- `h1_send_phase_t`, without `sendfile`. -/
inductive H1Phase where
  | head
  | tlsRead
  | tlsDrain
  | done
deriving DecidableEq, Repr

/-- `h1_send_state_t` of a response with a file body on a TLS connection. -/
structure H1Send extends Delivery where
  phase : H1Phase := .head

/-- What the connection and the file handle answer. `torn`: the connection is being torn down;
`sends`: the plaintext can be encrypted and queued; `inflight`: a cipher write is. -/
structure H1Env where
  torn : Bool := false
  sends : Bool := true
  inflight : Bool := false
  submits : Bool := true
deriving DecidableEq, Repr

/-- The start (and whether the dispatch callback can be registered), a completed read, and the end of
a cipher write. -/
inductive H1Event where
  | start (registers : Bool) (env : H1Env)
  | readDone (completion : Completion) (env : H1Env)
  | drainDone (env : H1Env)
deriving DecidableEq, Repr

namespace H1Send

/-- `H1_SEND_TLS_CHUNK_BYTES`. -/
def tlsChunkBytes : Nat := 16 * 1024

/-- `h1_send_finalize`. -/
def finalize (s : H1Send) : H1Send :=
  { s with phase := .done, pendingReq := none, reported := some s.status }

/-- The error path: `status = -1` and `h1_send_finalize`. -/
def fail (s : H1Send) : H1Send := { s with status := .error }.finalize

/-- `h1_send_tls_submit_next_read`. -/
def tlsSubmitNextRead (env : H1Env) (s : H1Send) : H1Send × Bool :=
  if s.body.bodyLength ≤ s.bytesSent then
    if env.inflight then ({ s with phase := .tlsDrain }, true) else (s.finalize, true)
  else
    let want := min (s.body.bodyLength - s.bytesSent) tlsChunkBytes
    ({ s with phase := .tlsRead, pendingReq := if env.submits then some want else none },
      env.submits)

def readNext (env : H1Env) (s : H1Send) : H1Send :=
  match s.tlsSubmitNextRead env with
  | (s, true) => s
  | (s, false) => s.fail

/-- `h1_stream_send_static_response` after the head has gone. -/
def start (registers : Bool) (env : H1Env) (s : H1Send) : H1Send :=
  if !registers then s.fail
  else if env.inflight then { s with phase := .tlsDrain }
  else s.readNext env

/-- `h1_send_handle_tls_read_done`. -/
def handleTlsReadDone (env : H1Env) (s : H1Send) : Completion → H1Send
  | .eof | .failed => { s with pendingReq := none, short := true }.fail
  | .bytes n =>
    let s' := { s with pendingReq := none, position := s.position + n }
    if env.torn || !env.sends then s'.fail
    else
      let s' := { s' with handed := s.handed ++ s.next n, bytesSent := s.bytesSent + n }
      if env.inflight then { s' with phase := .tlsDrain } else s'.readNext env

/-- `h1_send_tls_drain_done_cb`. -/
def tlsDrainDone (env : H1Env) (s : H1Send) : H1Send :=
  if env.torn then s.fail
  else if s.body.bodyLength ≤ s.bytesSent then s.finalize
  else s.readNext env

def step (s : H1Send) : H1Event → H1Send
  | .start registers env => if s.phase = .head then s.start registers env else s
  | .readDone completion env =>
    if s.phase = .tlsRead ∧ s.accepts completion then s.handleTlsReadDone env completion else s
  | .drainDone env => if s.phase = .tlsDrain then s.tlsDrainDone env else s

def run (body : BodySlice) (history : List H1Event) : H1Send := history.foldl step { body }

end H1Send

/-! ## HTTP/2 -/

/-- `h2_static_state_t`. `eofReached` is also `streaming_ended` of the stream, `throttled` is
`in_throttled_list`, `peerClosed` belongs to the stream; `seekFailed` is history. -/
structure H2Static extends Delivery where
  started : Bool := false
  seekDone : Bool := false
  seekFailed : Bool := false
  eofReached : Bool := false
  throttled : Bool := false
  peerClosed : Bool := false

/-- The worker's counters for static files, and what the queue of the stream and the file handle
answer. `memoryLimit` is zero for none, `wantMore` is `h2_static_want_more_reads`. -/
structure H2Env where
  budget : Nat
  active : Nat
  inFlight : Nat
  memoryLimit : Nat
  usage : Nat
  wantMore : Bool := true
  seeks : Bool := true
  submits : Bool := true
deriving DecidableEq, Repr

/-- `submitted`: the response can be submitted; `throttleKick`: there is room in the budget. -/
inductive H2Event where
  | start (submitted : Bool) (env : H2Env)
  | readDone (completion : Completion) (env : H2Env)
  | windowOpen (env : H2Env)
  | throttleKick (env : H2Env)
  | peerCloses
  | streamClose (noError : Bool)
deriving DecidableEq, Repr

/-- `h2_static_target_bytes`. -/
def h2StaticTargetBytes (env : H2Env) : Nat :=
  let target := env.budget / if 0 < env.active then env.active else 1
  let target := if target < 16 * 1024 then 16 * 1024 else target
  if 2 * 1024 * 1024 < target then 2 * 1024 * 1024 else target

/-- `H2_STATIC_CHUNK_MIN`. -/
def h2StaticChunkMin : Nat := 8 * 1024

/-- `h2_static_fit_to_arena`. -/
def h2StaticFitToArena (env : H2Env) (want : Nat) : Nat :=
  if env.memoryLimit = 0 then want
  else
    let reserve := env.memoryLimit / 8
    let headroom := if reserve < env.memoryLimit then env.memoryLimit - reserve else 0
    if headroom ≤ env.usage then
      if env.memoryLimit < env.usage + h2StaticChunkMin then 0 else h2StaticChunkMin
    else
      let avail := headroom - env.usage
      if want ≤ avail then want else if avail < h2StaticChunkMin then 0 else avail

namespace H2Static

/-- `h2_static_mark_ended`. -/
def markEnded (s : H2Static) : H2Static := { s with eofReached := true }

/-- The seek before the first read; its result is not looked at. -/
def seek (env : H2Env) (s : H2Static) : H2Static :=
  if s.seekDone then s
  else if s.body.bodyOffset = 0 then { s with seekDone := true }
  else if env.seeks then { s with seekDone := true, position := s.body.bodyOffset }
  else { s with seekDone := true, seekFailed := true }

/-- `h2_static_submit_read`. -/
def submitRead (env : H2Env) (s : H2Static) : H2Static × Bool :=
  let remaining := s.body.bodyLength - s.bytesSent
  if remaining = 0 then (s.markEnded, true)
  else
    let s := s.seek env
    let chunkSz := min (h2StaticTargetBytes env / 2) (256 * 1024)
    let globalRoom := env.budget - env.inFlight
    if globalRoom = 0 then ({ s with throttled := true }, true)
    else
      let want := h2StaticFitToArena env (min (min remaining chunkSz) globalRoom)
      if want = 0 || !env.submits then (s, false)
      else ({ s with pendingReq := some want }, true)

def readNext (env : H2Env) (s : H2Static) : H2Static :=
  match s.submitRead env with
  | (s, true) => s
  | (s, false) => { s with status := .error }.markEnded

/-- `h2_static_finalize`. -/
def finalize (s : H2Static) (status : Status) : H2Static :=
  { s with pendingReq := none, throttled := false, reported := some status }

/-- `h2_static_dispatch`. -/
def dispatch (env : H2Env) (s : H2Static) : Completion → H2Static
  | .eof => { s with pendingReq := none, short := true }.markEnded
  | .failed => { s with pendingReq := none, short := true, status := .error }.markEnded
  | .bytes n =>
    let s' := { s with
      pendingReq := none, position := s.position + n, bytesSent := s.bytesSent + n }
    if s.peerClosed then s'
    else
      let s' := { s' with handed := s.handed ++ s.next n }
      if s'.body.bodyLength ≤ s'.bytesSent then s'.markEnded
      else if env.wantMore then s'.readNext env
      else s'

/-- One event; nothing is left after `h2_static_finalize`. -/
def step (s : H2Static) (event : H2Event) : H2Static :=
  if s.reported.isSome then s
  else
    match event with
    | .start submitted env =>
      if s.started then s
      else if submitted then { s with started := true }.readNext env
      else { s with started := true }.finalize .error
    | .readDone completion env => if s.accepts completion then s.dispatch env completion else s
    | .windowOpen env =>
      if s.started && !s.peerClosed && s.pendingReq.isNone && !s.eofReached && env.wantMore then
        s.readNext env
      else s
    | .throttleKick env =>
      if s.throttled then
        let s := { s with throttled := false }
        if !s.peerClosed && s.pendingReq.isNone && !s.eofReached then (s.submitRead env).1 else s
      else s
    | .peerCloses => { s with peerClosed := true }
    | .streamClose noError =>
      if s.started then s.finalize (if noError && s.status = .ok then .ok else .error) else s

def run (body : BodySlice) (history : List H2Event) : H2Static := history.foldl step { body }

end H2Static

/-! ## HTTP/3 -/

/-- `h3_static_state_t`. `throttled` is `in_throttled_list`; `peerClosed` (the peer has closed the stream,
or it has left its connection) and `queue` (there is a chunk queue) belong to the stream, `closed` to
the connection; `lost` is history: a chunk was not queued. -/
structure H3Static extends Delivery where
  started : Bool := false
  seekDone : Bool := false
  eofReached : Bool := false
  throttled : Bool := false
  peerClosed : Bool := false
  closed : Bool := false
  queue : Bool := false
  lost : Bool := false

/-- What the budget, the queue, the file handle and the transport answer. `peerCloses`: the peer
closes the stream while a chunk is drained. -/
structure H3Env where
  overBudget : Bool := false
  highWater : Bool := false
  seeks : Bool := true
  submits : Bool := true
  responds : Bool := true
  peerCloses : Bool := false
  transport : Bool := true
deriving DecidableEq, Repr

/-- `attached`: the callbacks can be attached; `cancel`: the connection is torn down. -/
inductive H3Event where
  | start (attached : Bool) (env : H3Env)
  | readDone (completion : Completion) (env : H3Env)
  | windowOpen (env : H3Env)
  | throttleKick (env : H3Env)
  | peerCloses
  | connectionCloses
  | streamClosed
  | cancel
deriving DecidableEq, Repr

namespace H3Static

/-- `H3_STATIC_READ_CHUNK_BYTES`. -/
def readChunkBytes : Nat := 16 * 1024

/-- `h3_static_finalize`. -/
def finalize (s : H3Static) : H3Static :=
  { s with pendingReq := none, throttled := false, reported := some s.status }

/-- `h3_static_fail`. -/
def fail (env : H3Env) (s : H3Static) : H3Static :=
  let s := { s with status := .error }
  if !s.peerClosed && !s.eofReached then
    let s := { s with eofReached := true }
    if env.transport then s else s.finalize
  else s.finalize

def seek (env : H3Env) (s : H3Static) : H3Static × Bool :=
  if s.seekDone then (s, true)
  else if s.body.bodyOffset = 0 then ({ s with seekDone := true }, true)
  else if env.seeks then ({ s with seekDone := true, position := s.body.bodyOffset }, true)
  else (s, false)

/-- `h3_static_submit_read`. -/
def submitRead (env : H3Env) (s : H3Static) : H3Static × Bool :=
  match s.seek env with
  | (s, false) => (s, false)
  | (s, true) =>
    let want := min (s.body.bodyLength - s.bytesSent) readChunkBytes
    if env.submits then ({ s with pendingReq := some want }, true) else (s, false)

/-- `h3_static_try_read`. -/
def tryRead (env : H3Env) (s : H3Static) : H3Static :=
  if s.peerClosed then s.fail env
  else if s.pendingReq.isSome then s
  else if s.body.bodyLength ≤ s.bytesSent then { s with eofReached := true }
  else if env.overBudget then { s with throttled := true }
  else if env.highWater then s
  else
    match s.submitRead env with
    | (s, true) => s
    | (s, false) => s.fail env

/-- `h3_stream_append_chunk` of a static body: the first chunk submits the response. -/
def appendChunk (env : H3Env) (s : H3Static) (chunk : Bytes) : H3Static × Bool :=
  if s.peerClosed || s.closed then ({ s with lost := true }, false)
  else if !s.queue && !env.responds then ({ s with queue := true, lost := true }, false)
  else
    ({ s with queue := true, handed := s.handed ++ chunk, peerClosed := env.peerCloses },
      !env.peerCloses)

/-- `h3_static_read_dispatch`. -/
def readDispatch (env : H3Env) (s : H3Static) : Completion → H3Static
  | .eof | .failed => { s with pendingReq := none, short := true }.fail env
  | .bytes n =>
    let s' := { s with
      pendingReq := none, position := s.position + n, bytesSent := s.bytesSent + n }
    match s'.appendChunk env (s.next n) with
    | (s', true) => s'.tryRead env
    | (s', false) => s'.fail env

/-- One event; nothing is left after `h3_static_finalize`. -/
def step (s : H3Static) (event : H3Event) : H3Static :=
  if s.reported.isSome then s
  else
    match event with
    | .start attached env =>
      if s.started then s
      else if attached then { s with started := true }.tryRead env
      else { s with started := true, status := .error }.finalize
    | .readDone completion env => if s.accepts completion then s.readDispatch env completion else s
    | .windowOpen env => if s.started then s.tryRead env else s
    | .throttleKick env => if s.throttled then { s with throttled := false }.tryRead env else s
    | .peerCloses => { s with peerClosed := true }
    | .connectionCloses => { s with closed := true }
    | .streamClosed =>
      if s.started then
        if !s.eofReached || s.bytesSent < s.body.bodyLength then { s with status := .error }.finalize
        else s.finalize
      else s
    | .cancel => if s.started then { s with status := .error }.finalize else s

def run (body : BodySlice) (history : List H3Event) : H3Static := history.foldl step { body }

end H3Static

end TrueAsync.Static

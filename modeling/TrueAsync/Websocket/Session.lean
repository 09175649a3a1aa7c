import TrueAsync.Websocket.Wslay

/-!
# A WebSocket session

`ws_session_t` (`src/websocket/ws_session.c`) between the framing library and a transport. The
functions are cut where a coroutine can be suspended: the producer's write inside
`ws_session_flush_output` either ends at once or parks the caller, which keeps the flusher role until
`resume`. The transport's answers and the results of `wslay_frame_recv` are arguments; the codec of
permessage-deflate is a parameter. `internal_send` only picks the sink, so it is the sink here.
-/

namespace TrueAsync.Ws

open TrueAsync.Lib TrueAsync.Wslay

/-- The two directions of permessage-deflate: a whole raw deflate stream, or nothing if zlib
fails. -/
structure Codec where
  deflate : Bytes → Option Bytes
  inflate : Bytes → Option Bytes

/-- `ws_pending_message_t`. -/
structure PendingMessage where
  binary : Bool
  data : Bytes
deriving DecidableEq, Repr

/-- `ws_session_t`. `parked` holds what `wslay_event_send` returned to the flusher whose write is
suspended. `written` is the history of the frames that were handed to the transport, `surfaced` of
the messages that `recv` returned. -/
structure Session where
  ctx : Ctx
  sendBuf : List Frame := []
  flushing : Bool := false
  parked : Option (Option Err) := none
  writeError : Bool := false
  peerClosed : Bool := false
  closeCode : Nat := 0
  closeReason : Option Bytes := none
  recvQueue : List PendingMessage := []
  recvQueueBytes : Nat := 0
  recvQueueCap : Nat
  recvOverflow : Bool := false
  pmceEnabled : Bool := false
  pmceMaxMsg : Nat := 0
  pmceError : Bool := false
  maxFrameSize : Nat := 0
  pongTimeoutMs : Nat := 0
  pongPending : Bool := false
  written : List Frame := []
  surfaced : List PendingMessage := []
deriving DecidableEq, Repr

/-- What the configuration of the server says about sessions; a zero is unset. -/
structure Config where
  wsMaxMessageSize : Nat := 0
  wsMaxFrameSize : Nat := 0
  wsPongTimeoutMs : Nat := 0

def Config.maxMsg (config : Config) : Nat :=
  if 0 < config.wsMaxMessageSize then config.wsMaxMessageSize else 1024 * 1024

namespace Session

/-- `ws_session_init_ex`. -/
def init (config : Config) : Session where
  ctx := { server := true, maxRecvMsgLength := config.maxMsg }
  recvQueueCap := config.maxMsg * 8
  maxFrameSize := config.wsMaxFrameSize
  pongTimeoutMs := config.wsPongTimeoutMs

/-- `ws_session_init_client`. -/
def initClient : Session where
  ctx := { server := false, maxRecvMsgLength := 1024 * 1024 }
  recvQueueCap := 8 * 1024 * 1024

/-- `ws_session_enable_pmce` where the streams of the codec can be set up. -/
def enablePmce (config : Config) (s : Session) : Session :=
  if s.pmceEnabled then s
  else
    { s with
      pmceMaxMsg := config.maxMsg, ctx := { s.ctx with allowedRsv1 := true }, pmceEnabled := true }

/-- Who a session is opened for: a request that was upgraded, with or without the extension, or an
outgoing connection. -/
inductive Role where
  | server (config : Config) (pmce : Bool)
  | client

def opened : Role → Session
  | .server config true => (init config).enablePmce config
  | .server config false => init config
  | .client => initClient

/-- `ws_session_mark_peer_closed`. -/
def markPeerClosed (s : Session) : Session := { s with peerClosed := true }

/-! ## Receiving -/

/-- `wslay_event_queue_close` from a callback, whose result is ignored. -/
def queueClose (s : Session) (statusCode : Nat) : Session :=
  match s.ctx.queueClose statusCode [] with
  | .ok ctx => { s with ctx }
  | .error _ => s

/-- `pmce_inflate_msg`: the message with the tail of RFC 7692 §7.2.2, up to the cap. -/
def pmceInflateMsg (codec : Codec) (s : Session) (msg : Bytes) : Option Bytes :=
  let hardCap := if 0 < s.pmceMaxMsg then s.pmceMaxMsg else 2 ^ 20
  match codec.inflate (msg ++ [0x00, 0x00, 0xff, 0xff]) with
  | some out => if hardCap < out.length then none else some out
  | none => none

/-- A message would take the queue of `recv` over its cap. -/
def overCap (s : Session) (data : Bytes) : Prop :=
  0 < s.recvQueueCap ∧ s.recvQueueCap < s.recvQueueBytes + data.length

instance (s : Session) (data : Bytes) : Decidable (s.overCap data) :=
  inferInstanceAs (Decidable (_ ∧ _))

/-- The end of `ws_session_on_msg_recv_callback`: a data message goes into the queue of `recv`, or
the queue is over its cap. -/
def enqueue (s : Session) (binary : Bool) (data : Bytes) : Session :=
  if s.overCap data then
    (({ s with
      recvOverflow := true
      closeCode := if s.closeCode = 0 then 1013 else s.closeCode }).queueClose 1013).markPeerClosed
  else
    { s with
      recvQueueBytes := s.recvQueueBytes + data.length
      recvQueue := s.recvQueue ++ [⟨binary, data⟩] }

/-- `ws_session_on_msg_recv_callback`. -/
def onMsgRecv (codec : Codec) (s : Session) (arg : Ctx.OnMsgRecvArg) : Session :=
  if arg.opcode.isCtrlFrame then
    match arg.opcode with
    | .connectionClose =>
      { s with
        closeCode := arg.statusCode
        closeReason := match s.closeReason with
          | some reason => some reason
          | none => if 2 < arg.msg.length then some (arg.msg.drop 2) else none
      }.markPeerClosed
    | .pong => { s with pongPending := false }
    | _ => s
  else if s.pmceEnabled && arg.rsv.rsv1 then
    match s.pmceInflateMsg codec arg.msg with
    | none => ({ s with pmceError := true }.queueClose 1009).markPeerClosed
    | some data => s.enqueue (arg.opcode == .binaryFrame) data
  else s.enqueue (arg.opcode == .binaryFrame) arg.msg

/-- One iteration of the loop of `wslay_event_recv`; a result ends the loop. -/
def recvOne (codec : Codec) (s : Session) (frame : FrameRecv) : Session × Option (Option Err) :=
  match s.ctx.recvFrame frame with
  | .more ctx => ({ s with ctx }, none)
  | .stop ctx rc => ({ s with ctx }, some rc)
  | .message ctx arg =>
    let s := { s with ctx }.onMsgRecv codec arg
    ({ s with ctx := s.ctx.endMessage }, none)

/-- `wslay_event_recv`. -/
def eventRecv (codec : Codec) (s : Session) : List FrameRecv → Session × Option Err
  | [] => (s, none)
  | frame :: frames =>
    if s.ctx.readEnabled then
      match s.recvOne codec frame with
      | (s, none) => eventRecv codec s frames
      | (s, some rc) => (s, rc)
    else (s, none)

/-- `ws_session_recv_pop`. -/
def recvPop (s : Session) : Session × Option PendingMessage :=
  match s.recvQueue with
  | [] => (s, none)
  | message :: rest =>
    ({ s with
      recvQueue := rest
      recvQueueBytes := s.recvQueueBytes - message.data.length
      surfaced := s.surfaced ++ [message] }, some message)

/-! ## Sending -/

/-- What the transport makes of a write: it takes or refuses the bytes at once, or the caller is
suspended. -/
inductive Answer where
  | accepted
  | refused
  | suspends
deriving DecidableEq, Repr

/-- The two sinks of a transport: `send`, which may suspend, and `send_internal`, which may not. -/
inductive Sink where
  | producer (answer : Answer)
  | internal (ok : Bool)
deriving DecidableEq, Repr

def Sink.answer : Sink → Answer
  | .producer answer => answer
  | .internal true => .accepted
  | .internal false => .refused

/-- `ws_session_flush_output`, up to where the write may suspend. -/
def flushOutput (s : Session) (answer : Answer) (rc : Option Err) : Session :=
  if s.sendBuf = [] ∨ s.writeError then { s with sendBuf := [] }
  else
    let s := { s with written := s.written ++ s.sendBuf }
    match answer with
    | .accepted => { s with sendBuf := [] }
    | .refused => { s with sendBuf := [], writeError := true }
    | .suspends => { s with parked := some rc }

/-- `wslay_event_send` through `ws_session_send_callback`, which fails after a write error. -/
def eventSend (s : Session) : Session × Option Err :=
  match s.ctx.eventSend s.writeError with
  | (ctx, frames, rc) => ({ s with ctx, sendBuf := s.sendBuf ++ frames }, rc)

/-- `ws_session_drive_send` with the flusher role around it, as every caller holds it: the role is
given back unless the write suspends. -/
def driveSend (s : Session) (sink : Sink) : Session × Option Err :=
  let (s, rc) := { s with flushing := true }.eventSend
  let s := s.flushOutput sink.answer rc
  ({ s with flushing := s.parked.isSome }, rc)

/-- The suspended write ends: the rest of `ws_session_flush_output`, and the role is given back. -/
def resume (s : Session) (ok : Bool) : Session :=
  match s.parked with
  | none => s
  | some _ =>
    { s with
      sendBuf := [], writeError := s.writeError || !ok, parked := none, flushing := false }

/-- `ws_send_rc_t`. -/
inductive SendRc where
  | ok
  | deflateFailed
  | queueFailed
  | writeFailed
deriving DecidableEq, Repr

/-- The message that `ws_session_queue_payload` queues: cut into fragments if it is over the cap. -/
def payloadMsg (s : Session) (opcode : Opcode) (data : Bytes) (rsv : Rsv) : Omsg where
  opcode := opcode
  rsv := rsv
  data := data
  frag := if s.maxFrameSize = 0 ∨ data.length ≤ s.maxFrameSize then none else some s.maxFrameSize

/-- `ws_session_queue_payload`. -/
def queuePayload (s : Session) (opcode : Opcode) (data : Bytes) (rsv : Rsv) : Except Err Session :=
  if s.maxFrameSize = 0 ∨ data.length ≤ s.maxFrameSize then
    return { s with ctx := ← s.ctx.queueMsgEx opcode data rsv }
  else
    return { s with ctx := ← s.ctx.queueFragmentedMsgEx opcode data s.maxFrameSize rsv }

theorem queuePayload_ok {s : Session}
    (done : s.queuePayload opcode data rsv = .ok s') : ∃ ctx, s' = { s with ctx } ∧
      ((s.payloadMsg opcode data rsv).frag = none ∧ s.ctx.queueMsgEx opcode data rsv = .ok ctx ∨
        (s.payloadMsg opcode data rsv).frag = some s.maxFrameSize ∧
          s.ctx.queueFragmentedMsgEx opcode data s.maxFrameSize rsv = .ok ctx) := by
  unfold queuePayload at done
  split at done
  · rename_i whole
    cases queued : s.ctx.queueMsgEx opcode data rsv
    all_goals
      rw [queued] at done
      cases done
    exact ⟨_, rfl, .inl ⟨if_pos whole, rfl⟩⟩
  · rename_i cut
    cases queued : s.ctx.queueFragmentedMsgEx opcode data s.maxFrameSize rsv
    all_goals
      rw [queued] at done
      cases done
    exact ⟨_, rfl, .inr ⟨if_neg cut, rfl⟩⟩

/-- The payload that goes into the queue: deflated if the extension is on. -/
def compress (codec : Codec) (s : Session) (data : Bytes) : Option (Bytes × Rsv) :=
  if s.pmceEnabled then (codec.deflate data).map (·, rsv1Bit) else some (data, rsvNone)

/-- The first half of `ws_session_queue_and_flush`: the message is queued. -/
def queueMessage (codec : Codec) (s : Session) (opcode : Opcode) (data : Bytes) :
    Except SendRc Session :=
  match s.compress codec data with
  | none => .error .deflateFailed
  | some (payload, rsv) =>
    match s.queuePayload opcode payload rsv with
    | .error _ => .error .queueFailed
    | .ok s => .ok s

/-- The result of a flusher whose `wslay_event_send` returned `rc`. -/
def sendRc : Option Err → SendRc
  | none => .ok
  | some _ => .writeFailed

/-- `ws_session_queue_and_flush`. The result is there unless the caller is suspended, and is then
`sendRc` of what is parked. -/
def queueAndFlush (codec : Codec) (s : Session) (opcode : Opcode) (data : Bytes) (sink : Sink) :
    Session × Option SendRc :=
  match s.queueMessage codec opcode data with
  | .error rc => (s, some rc)
  | .ok s =>
    if s.flushing then (s, some .ok)
    else
      let (s, rc) := s.driveSend sink
      (s, if s.flushing then none else some (sendRc rc))

/-- `ws_session_over_highwater`; `high` is `stream_write_buffer_bytes`, `outbound` what the
connection says about its own queue. -/
def overHighwater (s : Session) (high : Nat) (outbound : Bool) : Bool :=
  high != 0 && (high ≤ s.ctx.queuedMsgLength || outbound)

/-- `ws_session_try_send`, which every local publish goes through. -/
def trySend (codec : Codec) (s : Session) (data : Bytes) (binary : Bool) (high : Nat)
    (sendable outbound ok : Bool) : Session × Bool :=
  if s.writeError || s.peerClosed then (s, false)
  else if !sendable || s.overHighwater high outbound then (s, false)
  else
    match s.queueAndFlush codec (if binary then .binaryFrame else .textFrame) data
      (.internal ok) with
    | (s, rc) => (s, rc == some .ok)

/-- A control message is queued, and flushed unless another caller holds the role: the common part
of `ws_ping_timer_fire`, `ws_pong_timer_fire`, `WebSocket::ping` and `WebSocket::close`. -/
def driveIfIdle (s : Session) (sink : Sink) : Session :=
  if s.flushing then s else (s.driveSend sink).1

/-- `ws_ping_timer_fire`. -/
def pingTimerFire (s : Session) (ok : Bool) : Session :=
  if s.peerClosed || s.writeError then s
  else
    match s.ctx.queueMsg .ping [] with
    | .error _ => s
    | .ok ctx =>
      let s := { s with ctx }.driveIfIdle (.internal ok)
      if 0 < s.pongTimeoutMs ∧ !s.pongPending then { s with pongPending := true } else s

/-- `ws_pong_timer_fire`. -/
def pongTimerFire (s : Session) (ok : Bool) : Session :=
  if s.peerClosed || s.writeError || !s.pongPending then s
  else
    (({ s with pongPending := false }.queueClose 1001).driveIfIdle (.internal ok)).markPeerClosed

/-- `WebSocket::ping` on an open session; a payload over 125 bytes is refused before. -/
def ping (s : Session) (payload : Bytes) (answer : Answer) : Session :=
  match s.ctx.queueMsg .ping payload with
  | .error _ => s
  | .ok ctx => { s with ctx }.driveIfIdle (.producer answer)

/-- `WebSocket::close` on an open session; the reason is cut to 123 bytes. -/
def close (s : Session) (status : Nat) (reason : Bytes) (answer : Answer) : Session :=
  match s.ctx.queueClose (status % 2 ^ 16) (reason.take 123) with
  | .error _ => s
  | .ok ctx => { s with ctx }.driveIfIdle (.producer answer)

/-- `ws_handler_close_internal_error`, for a handler that failed. -/
def closeInternalError (s : Session) (ok : Bool) : Session :=
  if s.peerClosed || s.writeError || s.flushing then s
  else ((s.queueClose 1011).driveSend (.internal ok)).1

/-- The close code of a session that the framing library has stopped reading. -/
def closeCodeSent (s : Session) : Session :=
  if s.closeCode = 0 then { s with closeCode := s.ctx.statusCodeSent } else s

/-- The middle of `ws_session_feed`: replies that the framing library has queued are sent, unless a
flusher is at work. -/
def feedReply (s : Session) (ok : Bool) : Session :=
  if !s.flushing && s.ctx.wantWrite then (s.driveSend (.internal ok)).1 else s

/-- The end of `ws_session_feed`: whether the transport may go on. -/
def feedEnd (s : Session) (rc : Option Err) : Session × Bool :=
  if !s.peerClosed && !s.ctx.wantRead then (s.closeCodeSent.markPeerClosed, false)
  else if rc.isSome then (s.closeCodeSent.markPeerClosed, false)
  else if s.recvOverflow then (s, false)
  else if s.pmceError then (s.markPeerClosed, false)
  else (s, true)

/-- `ws_session_feed`. -/
def feed (codec : Codec) (s : Session) (frames : List FrameRecv) (ok : Bool) : Session × Bool :=
  let (s, rc) := s.eventRecv codec frames
  (s.feedReply ok).feedEnd rc

/-! ## Calls -/

/-- What can happen to a session between two suspensions. `resume` ends a suspended write. -/
inductive Call where
  | send (binary : Bool) (data : Bytes) (sink : Sink)
  | publish (binary : Bool) (data : Bytes) (high : Nat) (sendable outbound ok : Bool)
  | ping (payload : Bytes) (answer : Answer)
  | close (status : Nat) (reason : Bytes) (answer : Answer)
  | closeInternalError (ok : Bool)
  | pingTimer (ok : Bool)
  | pongTimer (ok : Bool)
  | feed (frames : List FrameRecv) (ok : Bool)
  | resume (ok : Bool)
  | recv
  | peerClosed
deriving DecidableEq, Repr

def step (codec : Codec) (s : Session) : Call → Session
  | .send binary data sink =>
    (s.queueAndFlush codec (if binary then .binaryFrame else .textFrame) data sink).1
  | .publish binary data high sendable outbound ok =>
    (s.trySend codec data binary high sendable outbound ok).1
  | .ping payload answer => s.ping payload answer
  | .close status reason answer => s.close status reason answer
  | .closeInternalError ok => s.closeInternalError ok
  | .pingTimer ok => s.pingTimerFire ok
  | .pongTimer ok => s.pongTimerFire ok
  | .feed frames ok => (s.feed codec frames ok).1
  | .resume ok => s.resume ok
  | .recv => s.recvPop.1
  | .peerClosed => s.markPeerClosed

def run (codec : Codec) (role : Role) (history : List Call) : Session :=
  history.foldl (step codec) (opened role)

end Session

end TrueAsync.Ws

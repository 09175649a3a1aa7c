import TrueAsync.Websocket.WslayProps

/-!
# The receive loop of the client extension

`receive` of `TrueAsync\WebSocketClientConnection` (`src/wsclient/wsclient_classes.c`) pops the queue
of messages that `wsclient_on_message` (`src/wsclient/wsclient_session.c`) fills, and reads the
stream while the queue is empty. The message callback does not look at the opcode of a control
message, and `wsclient_session_feed` does not send what the framing library has queued in reply.
-/

namespace TrueAsync.Wsclient

open TrueAsync.Lib TrueAsync.Wslay Ctx List

/-! ## The connection -/

/-- `wsclient_message_node_t`. -/
structure Message where
  binary : Bool
  data : Bytes
deriving DecidableEq, Repr

/-- `wsclient_session_t`; `written` is the history of what `php_stream_write` was given. -/
structure Session where
  context : Ctx := { server := false, maxRecvMsgLength := 1024 * 1024 }
  messages : List Message := []
  written : List Frame := []
deriving DecidableEq, Repr

/-- `wsclient_connection_object`. -/
structure Connection where
  session : Session := {}
  closed : Bool := false
deriving DecidableEq, Repr

namespace Session

/-- `wsclient_on_message`. -/
def onMessage (session : Session) (message : OnMsgRecvArg) : Session :=
  { session with
    messages := session.messages ++ [⟨message.opcode == .binaryFrame, message.msg⟩] }

/-- The loop of `wslay_event_recv` with this callback. -/
def eventRecv (session : Session) : List FrameRecv → Session × Option Err
  | [] => (session, none)
  | frame :: frames =>
    if session.context.readEnabled then
      match session.context.recvFrame frame with
      | .more context => eventRecv { session with context } frames
      | .stop context rc => ({ session with context }, rc)
      | .message context message =>
        let called := { session with context }.onMessage message
        eventRecv { called with context := called.context.endMessage } frames
    else (session, none)

/-- `wsclient_session_feed`. -/
def feed (session : Session) (frames : List FrameRecv) : Session × Option Err :=
  session.eventRecv frames

/-- `wsclient_session_pop`. -/
def pop (session : Session) : Option Message × Session :=
  (session.messages.head?, { session with messages := session.messages.tail })

/-- `wsclient_session_send`, on a stream that takes every byte or none. -/
def send (session : Session) (opcode : Opcode) (data : Bytes) (refuses : Bool) :
    Session × Option Err :=
  match session.context.queueMsg opcode data with
  | .error e => (session, some e)
  | .ok context =>
    let (context, frames, rc) := context.eventSend refuses
    ({ session with context, written := session.written ++ frames }, rc)

end Session

namespace Connection

/-- `wsclient_connection_create` after the upgrade: what came with the response is fed. -/
def create (early : List FrameRecv) : Option Connection :=
  match ({} : Session).feed early with
  | (session, none) => some { session }
  | (_, some _) => none

/-- The loop of `receive`, over what `php_stream_read` returns: bytes, and nothing at the end. -/
def receiveLoop (connection : Connection) :
    List (List FrameRecv) → Option Message × Connection × List (List FrameRecv)
  | [] => (none, { connection with closed := true }, [])
  | read :: reads =>
    match connection.session.feed read with
    | (session, some _) => (none, { session, closed := true }, reads)
    | (session, none) =>
      match session.pop with
      | (some message, session) => (some message, { connection with session }, reads)
      | (none, session) => receiveLoop { connection with session } reads

/-- `WebSocketClientConnection::receive`, which returns a message or null. -/
def receive (connection : Connection) (reads : List (List FrameRecv)) :
    Option Message × Connection × List (List FrameRecv) :=
  if connection.closed then (none, connection, reads)
  else
    match connection.session.pop with
    | (some message, session) => (some message, { connection with session }, reads)
    | (none, session) => receiveLoop { connection with session } reads

/-- `WebSocketClientConnection::send`, and whether it throws. -/
def send (connection : Connection) (data : Bytes) (binary refuses : Bool) : Connection × Bool :=
  if connection.closed then (connection, true)
  else
    match connection.session.send (if binary then .binaryFrame else .textFrame) data refuses with
    | (session, none) => ({ connection with session }, false)
    | (session, some _) => ({ session, closed := true }, true)

/-- `WebSocketClientConnection::close`. -/
def close (connection : Connection) (refuses : Bool) : Connection :=
  if connection.closed then connection
  else { session := (connection.session.send .connectionClose [] refuses).1, closed := true }

/-- The messages that so many calls of `receive` return, the connection after them, and what is left
to read. -/
def receives : Nat → Connection → List (List FrameRecv) →
    List Message × Connection × List (List FrameRecv)
  | 0, connection, reads => ([], connection, reads)
  | n + 1, connection, reads =>
    let (message, connection, reads) := connection.receive reads
    let (messages, last) := receives n connection reads
    (message.toList ++ messages, last)

end Connection

/-! ## What a server sends -/

/-- A frame of a server. Its payload is cut where a read ends or the buffer of `wslay_frame_recv`
does: no piece is empty, but for the one piece of an empty payload. -/
structure SentFrame where
  fin : Bool
  opcode : Opcode
  pieces : List Bytes
  cut : pieces = [[]] ∨ pieces ≠ [] ∧ ∀ piece ∈ pieces, piece ≠ []

namespace SentFrame

def payload (f : SentFrame) : Bytes := f.pieces.flatten

def iocb (f : SentFrame) (data : Bytes) : Iocb :=
  { fin := f.fin, opcode := f.opcode, mask := false, payloadLength := f.payload.length, data }

/-- What `wslay_frame_recv` makes of a frame. -/
def recvs (f : SentFrame) : List FrameRecv := f.pieces.map fun data => .iocb (f.iocb data)

/-- The data message that a frame opens or goes on with; none for a control frame. -/
def joins (f : SentFrame) (message : Option Message) : Option Message :=
  match message, f.opcode with
  | none, .textFrame => some ⟨false, f.payload⟩
  | none, .binaryFrame => some ⟨true, f.payload⟩
  | some m, .continuationFrame => some { m with data := m.data ++ f.payload }
  | _, _ => none

def IsPingPong (f : SentFrame) : Prop :=
  (f.opcode = .ping ∨ f.opcode = .pong) ∧ f.fin = true ∧ f.payload.length ≤ 125

theorem IsPingPong.noClose {f : SentFrame} (pingPong : f.IsPingPong) :
    f.opcode ≠ .connectionClose := by
  rcases pingPong.1 with opcode | opcode <;> simp [opcode]

/-- The status codes that an endpoint may send: those of RFC 6455, section 7.4.1, that are not
reserved, and those for libraries and applications of section 7.4.2. -/
def IsStatus (code : Nat) : Prop :=
  code ∈ [1000, 1001, 1002, 1003, 1007, 1008, 1009, 1010, 1011] ∨ 3000 ≤ code ∧ code < 5000

theorem isValidStatusCode_iff (code : Nat) : isValidStatusCode code = true ↔ IsStatus code := by
  simp only [isValidStatusCode, IsStatus, Bool.or_eq_true, Bool.and_eq_true, decide_eq_true_eq,
    bne_iff_ne, mem_cons, not_mem_nil, or_false]
  omega

/-- A CLOSE frame: an empty one, or a status and a reason in UTF-8. -/
def IsClose (f : SentFrame) : Prop :=
  f.opcode = .connectionClose ∧ f.fin = true ∧ f.payload.length ≤ 125 ∧
    (f.payload = [] ∨ 2 ≤ f.payload.length ∧ IsStatus (closeStatus f.payload) ∧
      WellFormed (f.payload.drop 2))

/-- A CLOSE that the framing library takes for what it is: it leaves the first two bytes of every
piece out when it checks the reason. -/
def CloseAccepted (f : SentFrame) : Prop := WellFormed (f.pieces.flatMap (·.drop 2))

instance (f : SentFrame) : Decidable f.CloseAccepted := inferInstanceAs (Decidable (WellFormed _))

end SentFrame

/-- A text that is complete is UTF-8, and one that is not can be made so. -/
def Message.Valid (m : Message) (fin : Bool) : Prop :=
  m.binary = false → if fin then WellFormed m.data else ∃ more, WellFormed (m.data ++ more)

/-- The frames of a conforming server, from a point where part of a message may have been sent:
messages may be fragmented with control frames in between, and nothing follows a CLOSE. -/
def Conforms : Option Message → List SentFrame → Prop
  | _, [] => True
  | message, f :: rest =>
    match f.joins message with
    | some m => m.Valid f.fin ∧ Conforms (if f.fin then none else some m) rest
    | none => f.IsPingPong ∧ Conforms message rest ∨ f.IsClose ∧ rest = []

def dataMessages : Option Message → List SentFrame → List Message
  | _, [] => []
  | message, f :: rest =>
    match f.joins message with
    | some m => if f.fin then m :: dataMessages none rest else dataMessages (some m) rest
    | none => dataMessages message rest

def pings (frames : List SentFrame) : List Bytes :=
  (frames.filter (·.opcode = .ping)).map SentFrame.payload

def pongs (written : List Frame) : List Bytes :=
  (written.filter (·.opcode = .pong)).map Frame.payload

/-- The frames before one that takes its message past the limit. -/
def withinLimit : Option Message → List SentFrame → List SentFrame
  | _, [] => []
  | message, f :: rest =>
    match f.joins message with
    | some m =>
      if 1024 * 1024 < m.data.length then []
      else f :: withinLimit (if f.fin then none else some m) rest
    | none => f :: withinLimit message rest

/-- Successive calls of `receive` return the data messages and nothing else, and when all that the
server has sent has been read every PING has its PONG. -/
def Delivers (frames : List SentFrame) (early : List FrameRecv) (reads : List (List FrameRecv)) :
    Prop :=
  ∃ connection, Connection.create early = some connection ∧ ∀ n,
    (connection.receives n reads).1 = (dataMessages none frames).take n ∧
      ((connection.receives n reads).2.2 = [] →
        pongs (connection.receives n reads).2.1.session.written = pings frames)

/-! ## Queueing a reply -/

/-- What queueing a reply to the peer leaves alone. -/
structure SameFrame (ctx ctx' : Ctx) : Prop where
  server : ctx'.server = ctx.server
  limit : ctx'.maxRecvMsgLength = ctx.maxRecvMsgLength
  reads : ctx'.readEnabled = ctx.readEnabled
  onCtrl : ctx'.onCtrl = ctx.onCtrl
  imsg0 : ctx'.imsg0 = ctx.imsg0
  imsg1 : ctx'.imsg1 = ctx.imsg1

theorem queueMsg_replies (ctx : Ctx) (opcode : Opcode) {msg : Bytes} (short : msg.length ≤ 125) :
    ctx.queueMsg opcode msg = .error .noMoreMsg ∨
      ∃ ctx', ctx.queueMsg opcode msg = .ok ctx' ∧ SameFrame ctx ctx' := by
  unfold queueMsg queueMsgEx
  split
  · exact .inl rfl
  · rw [if_neg (by simp [verifyRsvBits, rsvNone, short])]
    refine .inr ⟨_, rfl, ?_⟩
    unfold push
    split <;> exact ⟨rfl, rfl, rfl, rfl, rfl, rfl⟩

theorem queueCloseWrapper_done (ctx : Ctx) (statusCode : Nat)
    (short : reason.length ≤ 123) : (ctx.queueCloseWrapper statusCode reason).2 = none := by
  grind [closePayload, bigEndian, queueCloseWrapper, queueClose, queueMsg_replies]

/-! ## A frame in pieces -/

def Session.after (session : Session) (frames : List FrameRecv) : Recv → Session × Option Err
  | .more context => { session with context }.eventRecv frames
  | .stop context rc => ({ session with context }, rc)
  | .message context message =>
    let called := { session with context }.onMessage message
    { called with context := called.context.endMessage }.eventRecv frames

variable {session : Session}

theorem eventRecv_cons (reads : session.context.readEnabled = true) (frame : FrameRecv)
    (frames : List FrameRecv) : session.eventRecv (frame :: frames) =
      session.after frames (session.context.recvFrame frame) := by
  rw [Session.eventRecv, if_pos reads]
  cases session.context.recvFrame frame <;> rfl

theorem eventRecv_stopped (stopped : session.context.readEnabled = false) (frames : List FrameRecv) :
    session.eventRecv frames = (session, none) := by
  cases frames with
  | nil => rfl
  | cons frame frames => simp [Session.eventRecv, stopped]

def Stops (session : Session) (result : Session × Option Err) : Prop :=
  ∃ context : Ctx, context.readEnabled = false ∧ result = ({ session with context }, none)

theorem fail_stops (session : Session) (frames : List FrameRecv) (ctx : Ctx) (statusCode : Nat) :
    Stops session (session.after frames (ctx.fail statusCode)) := by
  refine ⟨_, (SameReading.queueCloseWrapper ctx statusCode []).2, ?_⟩
  rw [fail, Session.after, queueCloseWrapper_done ctx statusCode (by simp)]

theorem takeData_takeData (ctx : Ctx) (state state' : Nat) (data data' : Bytes) :
    (ctx.takeData state data).takeData state' data' = ctx.takeData state' (data ++ data') := by
  grind [takeData, setImsg, imsg]

theorem takeData_frame (ctx : Ctx) (state : Nat) (data : Bytes) :
    (ctx.takeData state data).readEnabled = ctx.readEnabled ∧
      (ctx.takeData state data).server = ctx.server ∧
      (ctx.takeData state data).ipayloadlen = ctx.ipayloadlen ∧
      (ctx.takeData state data).ipayloadoff = ctx.ipayloadoff + data.length ∧
      (ctx.takeData state data).imsg =
        { ctx.imsg with utf8state := state, chunks := ctx.imsg.chunks ++ data } := by
  unfold takeData setImsg imsg
  cases ctx.onCtrl <;> simp

def utf8Pieces (opcode : Opcode) (state : Nat) (pieces : List Bytes) : Nat :=
  pieces.foldl (fun state data => utf8Next { utf8state := state } opcode data) state

theorem utf8Pieces_reject (opcode : Opcode) (pieces : List Bytes) :
    utf8Pieces opcode utf8Reject pieces = utf8Reject := by
  have stays (data : Bytes) : utf8Next { utf8state := utf8Reject } opcode data = utf8Reject := by
    unfold utf8Next
    split_ifs
    · exact foldl_reject _
    · exact foldl_reject _
    · rfl
  exact foldl_fixed' stays pieces

def gathered (ctx : Ctx) (opcode : Opcode) (state : Nat) (data : Bytes) : Recv :=
  let ctx := ctx.takeData state data
  if !ctx.imsg.fin then .more { ctx with ipayloadlen := 0, ipayloadoff := 0 }
  else if (opcode = .textFrame ∨ opcode = .connectionClose) ∧ state ≠ utf8Accept then ctx.fail 1007
  else ctx.complete opcode

variable {ctx ctx' : Ctx}

theorem recvFrame_iocb (client : ctx.server = false) (f : SentFrame) (data : Bytes)
    (accepted : ctx.accept (f.iocb data) = .ok ctx') (current : ctx'.imsg.opcode = some opcode) :
    ctx.recvFrame (.iocb (f.iocb data)) = ctx'.recvPayload data opcode := by
  grind [recvFrame, SentFrame.iocb, verifyRsvBits]

theorem accept_inside (current : ctx.imsg.opcode = some opcode)
    (inside : ¬ (ctx.ipayloadlen = 0 ∧ ctx.ipayloadoff = 0)) : ctx.accept iocb = .ok ctx := by
  simp only [accept, current, inside, if_false]

theorem after_pieces (f : SentFrame) (rest : List FrameRecv) (client : ctx.server = false)
    (reads : ctx.readEnabled = true) (current : ctx.imsg.opcode = some opcode)
    (plain : ctx.imsg.rsv = {}) (nonempty : pieces ≠ [] → ∀ piece ∈ data :: pieces, piece ≠ [])
    (fits : ctx.ipayloadoff + (data :: pieces).flatten.length = ctx.ipayloadlen) :
    let state := utf8Pieces opcode ctx.imsg.utf8state (data :: pieces)
    let result := session.after ((pieces.map fun piece => .iocb (f.iocb piece)) ++ rest)
      (ctx.recvPayload data opcode)
    (state = utf8Reject → Stops session result) ∧ (state ≠ utf8Reject →
      result = session.after rest (gathered ctx opcode state (data :: pieces).flatten)) := by
  induction pieces generalizing ctx data with
  | nil =>
    have one : utf8Pieces opcode ctx.imsg.utf8state [data] = utf8Next ctx.imsg opcode data := by
      simp [utf8Pieces, utf8Next, plain]
    grind [takeData_frame, recvPayload, fail_stops, gathered]
  | cons piece pieces ih =>
    have filled := nonempty (cons_ne_nil _ _)
    have first : utf8Pieces opcode ctx.imsg.utf8state (data :: piece :: pieces) =
        utf8Pieces opcode (utf8Next ctx.imsg opcode data) (piece :: pieces) := by
      simp [utf8Pieces, utf8Next, plain]
    rw [first, recvPayload]
    by_cases rejected : utf8Next ctx.imsg opcode data = utf8Reject
    · rw [if_pos rejected, rejected, utf8Pieces_reject]
      exact ⟨fun _ => fail_stops _ _ _ _, fun kept => absurd rfl kept⟩
    · obtain ⟨reads', client', length, offset, imsg⟩ :=
        takeData_frame ctx (utf8Next ctx.imsg opcode data) data
      have left : 0 < piece.length := length_pos_iff.mpr (filled piece (by simp))
      simp only [flatten_cons, length_append] at fits
      rw [if_neg rejected, if_neg (by omega), map_cons, cons_append]
      -- The header of the frame has been dealt with, so the next piece belongs to its payload.
      have current' : (ctx.takeData (utf8Next ctx.imsg opcode data) data).imsg.opcode =
          some opcode := by
        rw [imsg]
        exact current
      have goesOn := recvFrame_iocb (client'.trans client) f piece
        (accept_inside current' (by omega)) current'
      rw [Session.after, eventRecv_cons (reads'.trans reads), goesOn]
      have later := @ih (ctx.takeData (utf8Next ctx.imsg opcode data) data) piece
        (client'.trans client) (reads'.trans reads) current'
        (by rw [imsg]; exact plain) (fun _ q member => filled q (mem_cons_of_mem _ member))
        (by simp only [flatten_cons, length_append]; omega)
      rw [imsg] at later
      refine ⟨later.1, fun kept => (later.2 kept).trans ?_⟩
      simp only [gathered, takeData_takeData, flatten_cons]

theorem SentFrame.pieces_cons (f : SentFrame) : ∃ data pieces, f.pieces = data :: pieces ∧
    (pieces ≠ [] → ∀ piece ∈ data :: pieces, piece ≠ []) := by
  rcases f.cut with one | ⟨nonempty, all⟩
  · grind
  · obtain ⟨data, pieces, cut⟩ := exists_cons_of_ne_nil nonempty
    grind

theorem eventRecv_frame (f : SentFrame) (rest : List FrameRecv)
    (client : session.context.server = false) (reads : session.context.readEnabled = true)
    (accepted : ∀ data, session.context.accept (f.iocb data) = .ok ctx)
    (client' : ctx.server = false) (reads' : ctx.readEnabled = true)
    (current : ctx.imsg.opcode = some opcode) (plain : ctx.imsg.rsv = {})
    (start : ctx.ipayloadoff = 0) (length : ctx.ipayloadlen = f.payload.length) :
    let state := utf8Pieces opcode ctx.imsg.utf8state f.pieces
    (state = utf8Reject → Stops session (session.eventRecv (f.recvs ++ rest))) ∧
      (state ≠ utf8Reject → session.eventRecv (f.recvs ++ rest) =
        session.after rest (gathered ctx opcode state f.payload)) := by
  obtain ⟨data, pieces, cut, nonempty⟩ := f.pieces_cons
  have fits : ctx.ipayloadoff + (data :: pieces).flatten.length = ctx.ipayloadlen := by
    rw [start, length, SentFrame.payload, cut, zero_add]
  rw [SentFrame.recvs, SentFrame.payload, cut, map_cons, cons_append,
    eventRecv_cons reads, recvFrame_iocb client f data (accepted data) current]
  exact after_pieces f rest client' reads' current plain nonempty fits

theorem utf8Pieces_text (state : Nat) (pieces : List Bytes) :
    utf8Pieces .textFrame state pieces = pieces.flatten.foldl decode state := by
  rw [foldl_flatten]
  rfl

theorem utf8Pieces_close (state : Nat) (pieces : List Bytes) :
    utf8Pieces .connectionClose state pieces = (pieces.flatMap (·.drop 2)).foldl decode state := by
  rw [foldl_flatMap]
  rfl

theorem utf8Pieces_other (noText : opcode ≠ .textFrame) (noClose : opcode ≠ .connectionClose)
    (state : Nat) (pieces : List Bytes) : utf8Pieces opcode state pieces = state := by
  have stays (data : Bytes) : utf8Next { utf8state := state } opcode data = state := by
    simp [utf8Next, noText, noClose]
  exact foldl_fixed' stays pieces

/-! ## The state between frames -/

def Message.opcode (m : Message) : Opcode := if m.binary then .binaryFrame else .textFrame

/-- Where the check of the text has got to. -/
def Message.state (m : Message) : Nat := if m.binary then utf8Accept else m.data.foldl decode utf8Accept

/-- `imsgs[0]` holds what has been received of a data message. -/
def Holds (imsg : Imsg) : Option Message → Prop
  | none => imsg.opcode = none ∧ imsg.chunks = [] ∧ imsg.utf8state = utf8Accept
  | some m => imsg.opcode = some m.opcode ∧ imsg.rsv = {} ∧ imsg.chunks = m.data ∧
      imsg.msgLength = m.data.length ∧ imsg.utf8state = m.state

/-- The context of a client that reads on, at the end of a frame. -/
structure AtFrame (message : Option Message) (ctx : Ctx) : Prop where
  server : ctx.server = false
  limit : ctx.maxRecvMsgLength = 1024 * 1024
  reads : ctx.readEnabled = true
  onCtrl : ctx.onCtrl = false
  length : ctx.ipayloadlen = 0
  offset : ctx.ipayloadoff = 0
  data : Holds ctx.imsg0 message
  ctrl : ctx.imsg1.chunks = [] ∧ ctx.imsg1.utf8state = utf8Accept

def opened (ctx : Ctx) (f : SentFrame) (m : Message) : Ctx :=
  { ctx with
    ipayloadlen := f.payload.length
    imsg0 := { ctx.imsg0 with
      fin := f.fin, rsv := {}, opcode := some m.opcode, msgLength := m.data.length } }

def filled (ctx : Ctx) (f : SentFrame) (m : Message) : Ctx :=
  { opened ctx f m with
    ipayloadoff := f.payload.length
    imsg0 := {
      fin := f.fin
      rsv := {}
      opcode := some m.opcode
      utf8state := m.state
      chunks := m.data
      msgLength := m.data.length } }

variable {message : Option Message} {f : SentFrame} {m : Message}

theorem accept_data (atFrame : AtFrame message ctx) (joins : f.joins message = some m)
    (data : Bytes) : ctx.accept (f.iocb data) =
      if 1024 * 1024 < m.data.length then .error 1009 else .ok (opened ctx f m) := by
  obtain ⟨server, limit, reads, onCtrl, length, offset, holds, ctrl⟩ := atFrame
  unfold SentFrame.joins at joins
  split at joins
  case h_4 => cases joins
  all_goals
    rename_i opcode
    cases joins
    simp [accept, imsg, setImsg, newFrame, imsgSet, SentFrame.iocb, onCtrl, holds.1, holds.2, length,
      offset, opcode, limit, Message.opcode, opened]

theorem eventRecv_tooBig (atFrame : AtFrame message session.context)
    (joins : f.joins message = some m) (long : 1024 * 1024 < m.data.length) (rest : List FrameRecv) :
    Stops session (session.eventRecv (f.recvs ++ rest)) := by
  obtain ⟨data, pieces, cut, _⟩ := f.pieces_cons
  rw [SentFrame.recvs, cut, map_cons, cons_append, eventRecv_cons atFrame.reads,
    recvFrame, if_neg (by simp [SentFrame.iocb, verifyRsvBits, atFrame.server]),
    accept_data atFrame joins, if_pos long]
  exact fail_stops _ _ _ _

theorem utf8Pieces_data {front : Message} (kind : m.binary = front.binary)
    (grows : m.data = front.data ++ f.payload) :
    utf8Pieces m.opcode front.state f.pieces = m.state := by
  rw [Message.state, Message.state, kind, grows, foldl_append, Message.opcode, kind]
  cases front.binary with
  | true => grind [utf8Pieces_other]
  | false => exact utf8Pieces_text _ _

theorem Holds.front {imsg : Imsg} (holds : Holds imsg message) (joins : f.joins message = some m) :
    ∃ front : Message, m.binary = front.binary ∧ m.data = front.data ++ f.payload ∧
      imsg.chunks = front.data ∧ imsg.utf8state = front.state := by
  unfold SentFrame.joins at joins
  split at joins
  · cases joins
    exact ⟨⟨false, []⟩, rfl, rfl, holds.2.1, holds.2.2⟩
  · cases joins
    exact ⟨⟨true, []⟩, rfl, rfl, holds.2.1, holds.2.2⟩
  · rename_i m0 _
    cases joins
    exact ⟨m0, rfl, rfl, holds.2.2.1, holds.2.2.2.2⟩
  · cases joins

theorem Message.Valid.state (valid : m.Valid fin) :
    m.state ≠ utf8Reject ∧ (fin = true → m.state = utf8Accept) := by
  unfold Message.state
  cases kind : m.binary with
  | true => simp [utf8Accept, utf8Reject]
  | false =>
    have text := valid kind
    cases fin with
    | true =>
      have accepted := (decode_accepts _).mpr (by simpa using text)
      refine ⟨?_, fun _ => accepted⟩
      simp only [Bool.false_eq_true, if_false, accepted]
      decide
    | false =>
      obtain ⟨more, whole⟩ : ∃ more, WellFormed (m.data ++ more) := by simpa using text
      have accepted := (decode_accepts _).mpr whole
      rw [foldl_append] at accepted
      refine ⟨fun rejected => ?_, fun wrong => absurd wrong Bool.false_ne_true⟩
      simp only [Bool.false_eq_true, if_false] at rejected
      rw [rejected, utf8Reject, foldl_reject] at accepted
      cases accepted

theorem eventRecv_data (atFrame : AtFrame message session.context)
    (joins : f.joins message = some m) (short : m.data.length ≤ 1024 * 1024)
    (valid : m.Valid f.fin) (rest : List FrameRecv) :
    ∃ context, AtFrame (if f.fin then none else some m) context ∧
      session.eventRecv (f.recvs ++ rest) = { session with
        context, messages := session.messages ++ if f.fin then [m] else [] }.eventRecv rest := by
  obtain ⟨front, kind, grows, chunks, state⟩ := atFrame.data.front joins
  obtain ⟨kept, accepted⟩ := valid.state
  have imsg : (opened session.context f m).imsg = { session.context.imsg0 with
      fin := f.fin, rsv := {}, opcode := some m.opcode, msgLength := m.data.length } := by
    simp [opened, Ctx.imsg, atFrame.onCtrl]
  have received := (eventRecv_frame f rest atFrame.server atFrame.reads
    (fun data => (accept_data atFrame joins data).trans (if_neg (not_lt.mpr short)))
    atFrame.server atFrame.reads (congrArg Imsg.opcode imsg) (congrArg Imsg.rsv imsg)
    atFrame.offset rfl).2
  rw [congrArg Imsg.utf8state imsg] at received
  rw [state, utf8Pieces_data kind grows] at received
  have taken : (opened session.context f m).takeData m.state f.payload =
      filled session.context f m := by
    simp [Ctx.takeData, Ctx.setImsg, filled, opened, Ctx.imsg, atFrame.onCtrl, atFrame.offset, chunks,
      grows]
  have holds : (filled session.context f m).imsg = (filled session.context f m).imsg0 := by
    simp [Ctx.imsg, filled, opened, atFrame.onCtrl]
  rw [received kept, gathered, taken, holds]
  cases fin : f.fin with
  | false =>
    refine ⟨{ filled session.context f m with ipayloadlen := 0, ipayloadoff := 0 },
      { atFrame with length := rfl, offset := rfl, data := ⟨rfl, rfl, rfl, rfl, rfl⟩ }, ?_⟩
    simp [filled, fin, Session.after]
  | true =>
    refine ⟨(filled session.context f m).endMessage, ?_, ?_⟩
    · simp only [filled, opened, atFrame.onCtrl]
      exact { atFrame with onCtrl := rfl, length := rfl, offset := rfl, data := ⟨rfl, rfl, rfl⟩ }
    · have kindOf : (m.opcode == .binaryFrame) = m.binary := by
        unfold Message.opcode
        cases m.binary <;> rfl
      have whole : (filled session.context f m).complete m.opcode = .message
          (filled session.context f m) { rsv := {}, opcode := m.opcode, msg := m.data, statusCode := 0 } := by
        unfold Ctx.complete
        rw [holds]
        unfold Message.opcode
        cases m.binary <;> rfl
      simp [show (filled session.context f m).imsg0.fin = true from fin, accepted fin, whole,
        Session.after, Session.onMessage, kindOf]

/-- The context after so much of the payload of a control frame, which has a message of its own when
it comes within a data message. -/
def ctrlFilled (message : Option Message) (ctx : Ctx) (f : SentFrame) (state : Nat) (data : Bytes) :
    Ctx :=
  { ctx with
    onCtrl := message.isSome
    ipayloadlen := f.payload.length
    ipayloadoff := data.length }.setImsg {
      fin := true
      opcode := some f.opcode
      utf8state := state
      chunks := data
      msgLength := f.payload.length }

theorem ctrlFilled_imsg (message : Option Message) (ctx : Ctx) (f : SentFrame) (state : Nat)
    (data : Bytes) : (ctrlFilled message ctx f state data).imsg = {
      fin := true
      opcode := some f.opcode
      utf8state := state
      chunks := data
      msgLength := f.payload.length } := by
  cases message <;> rfl

theorem accept_ctrl (atFrame : AtFrame message ctx)
    (kind : f.opcode = .connectionClose ∨ f.opcode = .ping ∨ f.opcode = .pong) (fin : f.fin = true)
    (short : f.payload.length ≤ 125) (data : Bytes) :
    ctx.accept (f.iocb data) = .ok (ctrlFilled message ctx f utf8Accept []) := by
  obtain ⟨server, limit, reads, onCtrl, length, offset, holds, ctrl⟩ := atFrame
  have fits : ¬ 1024 * 1024 < f.payload.length := by omega
  cases message
  all_goals
    rcases kind with opcode | opcode | opcode <;>
      simp [accept, imsg, setImsg, newFrame, imsgSet, SentFrame.iocb, onCtrl,
        holds.1, holds.2, length, offset, ctrl, opcode, limit, fits, ctrlFilled, fin]

theorem eventRecv_ctrl (atFrame : AtFrame message session.context)
    (kind : f.opcode = .connectionClose ∨ f.opcode = .ping ∨ f.opcode = .pong) (fin : f.fin = true)
    (short : f.payload.length ≤ 125) (rest : List FrameRecv) :
    let state := utf8Pieces f.opcode utf8Accept f.pieces
    let ctx := ctrlFilled message session.context f state f.payload
    (state = utf8Reject → Stops session (session.eventRecv (f.recvs ++ rest))) ∧
      (state ≠ utf8Reject → session.eventRecv (f.recvs ++ rest) = session.after rest
        (if f.opcode = .connectionClose ∧ state ≠ utf8Accept then ctx.fail 1007
          else ctx.complete f.opcode)) := by
  have imsg := ctrlFilled_imsg message session.context f utf8Accept []
  obtain ⟨server, reads⟩ : (ctrlFilled message session.context f utf8Accept []).server = false ∧
      (ctrlFilled message session.context f utf8Accept []).readEnabled = true := by
    unfold ctrlFilled Ctx.setImsg
    split <;> exact ⟨atFrame.server, atFrame.reads⟩
  obtain ⟨start, length⟩ : (ctrlFilled message session.context f utf8Accept []).ipayloadoff = 0 ∧
      (ctrlFilled message session.context f utf8Accept []).ipayloadlen = f.payload.length := by
    unfold ctrlFilled Ctx.setImsg
    split <;> exact ⟨rfl, rfl⟩
  have received := eventRecv_frame f rest atFrame.server atFrame.reads
    (accept_ctrl atFrame kind fin short) server reads (congrArg Imsg.opcode imsg)
    (congrArg Imsg.rsv imsg) start length
  have taken (state : Nat) : (ctrlFilled message session.context f utf8Accept []).takeData state
      f.payload = ctrlFilled message session.context f state f.payload := by
    unfold ctrlFilled Ctx.takeData Ctx.setImsg Ctx.imsg
    cases message <;> simp
  grind [gathered, ctrlFilled_imsg]

theorem AtFrame.endCtrl {data : Bytes} (atFrame : AtFrame message ctx)
    (same : SameFrame (ctrlFilled message ctx f state data) ctx') :
    AtFrame message ctx'.endMessage := by
  obtain ⟨server, limit, reads, onCtrl, imsg0, imsg1⟩ := same
  cases message
  all_goals
    simp only [endMessage, setImsg, imsg, onCtrl]
    refine ⟨server.trans atFrame.server, limit.trans atFrame.limit, reads.trans atFrame.reads, rfl,
      rfl, rfl, ?_, ?_⟩
  · exact ⟨rfl, rfl, rfl⟩
  · rw [imsg1]
    exact atFrame.ctrl
  · rw [imsg0]
    exact atFrame.data
  · exact ⟨rfl, rfl⟩

theorem eventRecv_pingPong (atFrame : AtFrame message session.context) (pingPong : f.IsPingPong)
    (rest : List FrameRecv) :
    ∃ context, AtFrame message context ∧ session.eventRecv (f.recvs ++ rest) = { session with
      context
      messages := session.messages ++ [(⟨false, f.payload⟩ : Message)] }.eventRecv rest := by
  have noClose := pingPong.noClose
  obtain ⟨kind, fin, short⟩ := pingPong
  have noText : f.opcode ≠ .textFrame := by
    rcases kind with opcode | opcode <;> simp [opcode]
  have received := (eventRecv_ctrl atFrame (.inr kind) fin short rest).2
  rw [utf8Pieces_other noText noClose] at received
  rw [received (by decide), if_neg (by simp [noClose])]
  have imsg := ctrlFilled_imsg message session.context f utf8Accept f.payload
  -- A PONG is queued for a PING, or not if a CLOSE is on its way.
  obtain ⟨context, same, done⟩ : ∃ context,
      SameFrame (ctrlFilled message session.context f utf8Accept f.payload) context ∧
      (ctrlFilled message session.context f utf8Accept f.payload).complete f.opcode =
        .message context { rsv := {}, opcode := f.opcode, msg := f.payload, statusCode := 0 } := by
    rcases kind with opcode | opcode
    · rcases queueMsg_replies (ctrlFilled message session.context f utf8Accept f.payload) .pong short
        with refused | ⟨context, queued, same⟩
      · exact ⟨_, ⟨rfl, rfl, rfl, rfl, rfl, rfl⟩, by simp [complete, opcode, imsg, refused]⟩
      · grind [complete]
    · exact ⟨_, ⟨rfl, rfl, rfl, rfl, rfl, rfl⟩, by simp [complete, opcode, imsg]⟩
  grind [AtFrame.endCtrl, Session.after, Session.onMessage]

theorem eventRecv_close (atFrame : AtFrame message session.context) (close : f.IsClose) :
    ∃ context : Ctx, context.readEnabled = false ∧ session.eventRecv f.recvs = ({ session with
      context, messages := session.messages ++
        if f.CloseAccepted then [(⟨false, f.payload⟩ : Message)] else [] }, none) := by
  obtain ⟨opcode, fin, short, body⟩ := close
  obtain ⟨rejects, received⟩ := eventRecv_ctrl atFrame (.inl opcode) fin short []
  rw [append_nil] at rejects received
  have accepts : utf8Pieces f.opcode utf8Accept f.pieces = utf8Accept ↔ f.CloseAccepted := by
    rw [opcode, utf8Pieces_close]
    exact decode_accepts _
  by_cases accepted : f.CloseAccepted
  · have state := accepts.mpr accepted
    have imsg := ctrlFilled_imsg message session.context f utf8Accept f.payload
    have status : ¬ (2 ≤ f.payload.length ∧ isValidStatusCode (closeStatus f.payload) = false) := by
      rintro ⟨long, invalid⟩
      rcases body with empty | ⟨-, sent, -⟩
      · rw [empty] at long
        cases long
      · rw [(SentFrame.isValidStatusCode_iff _).mpr sent] at invalid
        cases invalid
    have reason : (f.payload.drop 2).length ≤ 123 := by
      rw [length_drop]
      omega
    have replies := queueCloseWrapper_done
      { ctrlFilled message session.context f utf8Accept f.payload with closeReceived := true }
      (closeStatus f.payload) reason
    have stopped := (SameReading.queueCloseWrapper
      { ctrlFilled message session.context f utf8Accept f.payload with closeReceived := true }
      (closeStatus f.payload) (f.payload.drop 2)).2
    rw [state] at received
    rw [received (by decide), if_neg (by simp), opcode, if_pos accepted]
    unfold complete
    simp only [imsg, Bool.not_eq_true', status, if_false]
    generalize queueCloseWrapper _ _ _ = queued at replies stopped
    obtain ⟨context, rc⟩ := queued
    cases replies
    exact ⟨context.endMessage, (endMessage_readEnabled context).trans stopped, rfl⟩
  · rw [if_neg accepted, append_nil]
    have wrong := mt accepts.mp accepted
    by_cases rejected : utf8Pieces f.opcode utf8Accept f.pieces = utf8Reject
    · exact rejects rejected
    · rw [received rejected, if_pos ⟨opcode, wrong⟩]
      exact fail_stops _ _ _ _

/-! ## All the frames -/

def heard : Option Message → List SentFrame → List Message
  | _, [] => []
  | message, f :: rest =>
    match f.joins message with
    | some m =>
      if 1024 * 1024 < m.data.length then []
      else (if f.fin then [m] else []) ++ heard (if f.fin then none else some m) rest
    | none =>
      if f.opcode = .connectionClose then if f.CloseAccepted then [⟨false, f.payload⟩] else []
      else ⟨false, f.payload⟩ :: heard message rest

variable {frames : List SentFrame}

theorem eventRecv_heard (atFrame : AtFrame message session.context)
    (conforms : Conforms message frames) :
    ∃ context, session.eventRecv (frames.flatMap SentFrame.recvs) = ({ session with
      context, messages := session.messages ++ heard message frames }, none) := by
  induction frames generalizing session message with
  | nil => exact ⟨session.context, by simp [Session.eventRecv, heard]⟩
  | cons f rest ih =>
    rw [flatMap_cons]
    unfold Conforms at conforms
    unfold heard
    cases joins : f.joins message with
    | some m =>
      rw [joins] at conforms
      obtain ⟨valid, conforms⟩ := conforms
      dsimp only
      by_cases long : 1024 * 1024 < m.data.length
      · obtain ⟨context, _, stopped⟩ := eventRecv_tooBig atFrame joins long (rest.flatMap _)
        exact ⟨context, by rw [stopped, if_pos long, append_nil]⟩
      · obtain ⟨context, atFrame', received⟩ :=
          eventRecv_data atFrame joins (not_lt.mp long) valid (rest.flatMap SentFrame.recvs)
        obtain ⟨context', later⟩ := @ih { session with
          context, messages := session.messages ++ if f.fin then [m] else [] } _ atFrame' conforms
        exact ⟨context', by grind⟩
    | none =>
      rw [joins] at conforms
      rcases conforms with ⟨pingPong, conforms⟩ | ⟨close, rfl⟩
      · obtain ⟨context, atFrame', received⟩ :=
          eventRecv_pingPong atFrame pingPong (rest.flatMap SentFrame.recvs)
        obtain ⟨context', later⟩ := @ih { session with
          context, messages := session.messages ++ [⟨false, f.payload⟩] } _ atFrame' conforms
        exact ⟨context', by rw [received, later, if_neg pingPong.noClose, append_assoc]; rfl⟩
      · obtain ⟨context, _, received⟩ := eventRecv_close atFrame close
        refine ⟨context, ?_⟩
        rw [flatMap_nil, append_nil, received, if_pos close.1]

/-! ## Reads -/

variable {rc : Option Err}

theorem fail_stop (stops : ctx.fail statusCode = .stop ctx' rc) : ctx'.readEnabled = false := by
  cases stops
  exact (SameReading.queueCloseWrapper ctx statusCode []).2

theorem complete_stop (stops : ctx.complete opcode = .stop ctx' rc) : ctx'.readEnabled = false := by
  unfold complete at stops
  grind [SameReading.queueCloseWrapper, fail_stop]

theorem recvFrame_stop
    (stops : ctx.recvFrame frame = .stop ctx' rc) : ctx'.readEnabled = false := by
  cases frame with
  | errProto =>
    cases stops
    exact (SameReading.queueCloseWrapper ctx 0 []).2
  | iocb iocb =>
    unfold recvFrame at stops
    dsimp only at stops
    split at stops
    · exact fail_stop stops
    · grind [fail_stop, recvPayload, complete_stop]

theorem eventRecv_append (session : Session) (frames more : List FrameRecv) :
    session.eventRecv (frames ++ more) = match session.eventRecv frames with
      | (session, none) => session.eventRecv more
      | (session, some e) => (session, some e) := by
  induction frames generalizing session with
  | nil => rfl
  | cons frame frames ih =>
    cases reads : session.context.readEnabled with
    | false =>
      rw [eventRecv_stopped reads, eventRecv_stopped reads]
      exact (eventRecv_stopped reads more).symm
    | true =>
      rw [cons_append, eventRecv_cons reads, eventRecv_cons reads]
      cases outcome : session.context.recvFrame frame with
      | more context | message context message => exact ih _
      | stop context rc =>
        have stopped := recvFrame_stop outcome
        cases rc with
        | none => exact (@eventRecv_stopped { session with context } stopped more).symm
        | some e => rfl

/-- The loop neither looks at what is in the queue nor at what was written. -/
theorem eventRecv_base (front : List Message) (written : List Frame) (session : Session)
    (frames : List FrameRecv) :
    { session with messages := front ++ session.messages, written }.eventRecv frames =
      ({ (session.eventRecv frames).1 with
        messages := front ++ (session.eventRecv frames).1.messages, written },
        (session.eventRecv frames).2) := by
  fun_induction Session.eventRecv session frames with
  | case1 => rfl
  | case2 session frame frames reads context outcome ih => simp [Session.eventRecv, reads, outcome, ih]
  | case3 session frame frames reads context rc outcome => simp [Session.eventRecv, reads, outcome]
  | case4 session frame frames reads context message outcome called ih =>
    simp only [Session.eventRecv, reads, outcome, if_true, Session.onMessage, append_assoc]
    exact ih
  | case5 session frame frames stopped => simp [Session.eventRecv, stopped]

theorem eventRecv_written (session : Session) (frames : List FrameRecv) :
    (session.eventRecv frames).1.written = session.written :=
  congrArg (·.1.written) (eventRecv_base [] session.written session frames)

/-! ## The receive loop -/

/-- Reading to the end goes well, and leaves these messages in the queue. -/
def Yields (session : Session) (reads : List (List FrameRecv)) (messages : List Message) : Prop :=
  ∃ context, session.eventRecv reads.flatten = ({ session with context, messages }, none)

/-- What a call of `receive` does when reading to the end yields some messages: it returns the
first, or null if there is none and everything has been read. -/
inductive Receives (written : List Frame) :
    List Message → Option Message × Connection × List (List FrameRecv) → Prop
  | null {connection : Connection} (closed : connection.closed = true)
      (same : connection.session.written = written) : Receives written [] (none, connection, [])
  | message {message : Message} {session : Session} {reads : List (List FrameRecv)}
      {later : List Message} (yields : Yields session reads later) (same : session.written = written) :
      Receives written (message :: later) (some message, { session }, reads)

variable {reads : List (List FrameRecv)} {messages : List Message}

theorem Yields.pop {message : Message}
    (yields : Yields session reads messages) (queue : session.messages = message :: rest) :
    Receives session.written messages
      (some message, { session := { session with messages := rest } }, reads) := by
  obtain ⟨context, ends⟩ := yields
  have shifted := eventRecv_base [message] session.written { session with messages := rest }
    reads.flatten
  have same : { session with messages := [message] ++ rest } = session := by
    rw [singleton_append, ← queue]
  rw [same, ends] at shifted
  have written := eventRecv_written { session with messages := rest } reads.flatten
  generalize result : { session with messages := rest }.eventRecv reads.flatten = r at shifted written
  obtain ⟨⟨context', messages', written'⟩, rc⟩ := r
  cases shifted
  cases written
  exact .message ⟨context', result⟩ rfl

theorem receiveLoop_yields (empty : session.messages = []) (yields : Yields session reads messages) :
    Receives session.written messages (Connection.receiveLoop { session } reads) := by
  induction reads generalizing session with
  | nil =>
    obtain ⟨context, ends⟩ := yields
    have none : messages = [] := (congrArg (·.1.messages) ends).symm.trans empty
    subst none
    exact .null rfl rfl
  | cons read reads ih =>
    obtain ⟨context, ends⟩ := yields
    rw [flatten_cons, eventRecv_append] at ends
    have written := eventRecv_written session read
    unfold Connection.receiveLoop Session.feed
    generalize session.eventRecv read = fed at ends written
    obtain ⟨session', _ | e⟩ := fed
    · have yields : Yields session' reads messages := by
        refine ⟨context, ends.trans ?_⟩
        rw [← written]
      rw [← written]
      dsimp only [Session.pop]
      cases queue : session'.messages with
      | nil =>
        have same : { session' with messages := [] } = session' := by rw [← queue]
        grind
      | cons message rest => exact yields.pop queue
    · cases ends

theorem receive_yields (yields : Yields session reads messages) :
    Receives session.written messages (Connection.receive { session } reads) := by
  unfold Connection.receive Session.pop
  cases queue : session.messages with
  | nil =>
    have same : { session with messages := [] } = session := by rw [← queue]
    grind [receiveLoop_yields]
  | cons message rest => exact yields.pop queue

theorem receives_closed {connection : Connection} (closed : connection.closed = true) (n : Nat) :
    connection.receives n reads = ([], connection, reads) := by
  induction n with
  | zero => rfl
  | succ n ih => simp [Connection.receives, Connection.receive, closed, ih]

/-- Calling again and again returns all of them, in order, and writes nothing; a call after the last
has read everything. -/
theorem receives_yields (yields : Yields session reads messages) (n : Nat) :
    let result := Connection.receives n { session } reads
    result.1 = messages.take n ∧ result.2.1.session.written = session.written ∧
      (messages.length < n → result.2.2 = []) := by
  induction n generalizing session reads messages with
  | zero => exact ⟨rfl, rfl, nofun⟩
  | succ n ih =>
    have first := receive_yields yields
    unfold Connection.receives
    generalize Connection.receive { session } reads = received at first
    cases first with
    | @null connection closed same =>
      dsimp only
      rw [receives_closed closed]
      exact ⟨by simp, same, fun _ => rfl⟩
    | @message message session' reads' later more same => grind

/-! ## What is heard and what was sent -/

theorem SentFrame.joins_longer (joins : f.joins (some m) = some whole) :
    m.data.length ≤ whole.data.length := by
  cases opcode : f.opcode <;> simp [SentFrame.joins, opcode] at joins
  simp [← joins]

theorem dataMessages_grow (complete : dataMessages (some m) frames ≠ []) :
    ∃ whole ∈ dataMessages (some m) frames, m.data.length ≤ whole.data.length := by
  induction frames generalizing m with
  | nil => exact absurd rfl complete
  | cons f rest ih =>
    unfold dataMessages at complete ⊢
    cases joins : f.joins (some m) with
    | none =>
      rw [joins] at complete
      exact ih complete
    | some whole =>
      have longer := SentFrame.joins_longer joins
      grind

theorem dataMessages_cons (joins : f.joins message = some m) (rest : List SentFrame) :
    dataMessages message (f :: rest) = (if f.fin then [m] else []) ++
      dataMessages (if f.fin then none else some m) rest := by
  rw [dataMessages, joins]
  cases f.fin <;> rfl

theorem dataMessages_tooBig (joins : f.joins message = some m) (long : 1024 * 1024 < m.data.length)
    (rest : List SentFrame) :
    (∀ x ∈ dataMessages message (f :: rest), x.data.length ≤ 1024 * 1024) ↔
      dataMessages message (f :: rest) = [] := by
  constructor
  · intro short
    rw [dataMessages_cons joins] at short ⊢
    grind [dataMessages_grow]
  · intro none
    rw [none]
    nofun

theorem heard_short (conforms : Conforms message frames) :
    ∀ m ∈ heard message frames, m.data.length ≤ 1024 * 1024 := by
  induction frames generalizing message with
  | nil => nofun
  | cons f rest ih =>
    unfold Conforms at conforms
    unfold heard
    intro x member
    cases joins : f.joins message with
    | some m => grind
    | none =>
      rw [joins] at conforms member
      have ctrl : f.payload.length ≤ 125 := by
        rcases conforms with ⟨pingPong, _⟩ | ⟨close, _⟩
        · exact pingPong.2.2
        · exact close.2.2.1
      rcases conforms with ⟨pingPong, conforms⟩ | ⟨close, _⟩
      · grind
      · rw [if_pos close.1] at member
        grind

theorem heard_length (conforms : Conforms message frames)
    (short : ∀ m ∈ dataMessages message frames, m.data.length ≤ 1024 * 1024) :
    (dataMessages message frames).length ≤ (heard message frames).length := by
  induction frames generalizing message with
  | nil => exact le_rfl
  | cons f rest ih =>
    unfold Conforms at conforms
    cases joins : f.joins message with
    | some m =>
      by_cases long : 1024 * 1024 < m.data.length
      · grind [dataMessages_tooBig]
      · rw [dataMessages_cons joins] at short ⊢
        grind [heard]
    | none =>
      rw [joins] at conforms
      rw [dataMessages, joins] at short ⊢
      rw [heard, joins]
      rcases conforms with ⟨pingPong, conforms⟩ | ⟨close, rfl⟩
      · grind [SentFrame.IsPingPong.noClose]
      · exact Nat.zero_le _

theorem SentFrame.joins_isCtrlFrame (joins : f.joins message = some m) :
    f.opcode.isCtrlFrame = false := by
  cases message <;> cases opcode : f.opcode <;> simp [SentFrame.joins, opcode] at joins <;> rfl

/-- The queue gets the data messages alone exactly if none that is complete is too long, and no
control frame counts as a message before the one that is. -/
theorem heard_eq_iff (conforms : Conforms message frames) :
    heard message frames = dataMessages message frames ↔
      (∀ m ∈ dataMessages message frames, m.data.length ≤ 1024 * 1024) ∧
        ∀ f ∈ withinLimit message frames, f.opcode.isCtrlFrame = true →
          f.opcode = .connectionClose ∧ ¬ f.CloseAccepted := by
  induction frames generalizing message with
  | nil => simp [heard, dataMessages, withinLimit]
  | cons f rest ih =>
    have whole := conforms
    unfold Conforms at conforms
    cases joins : f.joins message with
    | some m =>
      rw [joins] at conforms
      have isData := SentFrame.joins_isCtrlFrame joins
      rw [heard, withinLimit, joins]
      dsimp only
      by_cases long : 1024 * 1024 < m.data.length
      · rw [if_pos long, if_pos long, dataMessages_tooBig joins long]
        exact ⟨fun none => ⟨none.symm, nofun⟩, fun none => none.1.symm⟩
      · rw [if_neg long, if_neg long, dataMessages_cons joins, append_cancel_left_eq,
          ih conforms.2, forall_mem_append, forall_mem_cons]
        have now : ∀ x ∈ if f.fin then [m] else [], x.data.length ≤ 1024 * 1024 := by grind
        constructor
        · rintro ⟨short, unheard⟩
          exact ⟨⟨now, short⟩, fun ctrl => absurd (isData.symm.trans ctrl) (by decide), unheard⟩
        · rintro ⟨⟨_, short⟩, _, unheard⟩
          exact ⟨short, unheard⟩
    | none =>
      rw [joins] at conforms
      rcases conforms with ⟨pingPong, conforms⟩ | ⟨close, rfl⟩
      · -- A PING or PONG adds a message, and no data message is missing for it.
        refine iff_of_false ?_ ?_
        · grind [dataMessages, heard_short, heard_length, heard, SentFrame.IsPingPong.noClose]
        · rintro ⟨_, unheard⟩
          rw [withinLimit, joins] at unheard
          have ctrl : f.opcode.isCtrlFrame = true := by
            rcases pingPong.1 with opcode | opcode <;> rw [opcode] <;> rfl
          exact pingPong.noClose (unheard f mem_cons_self ctrl).1
      · rw [heard, dataMessages, withinLimit, joins]
        simp [close.1, dataMessages, withinLimit, Opcode.isCtrlFrame]

/-! ## Delivery -/

theorem pings_eq_nil : pings frames = [] ↔ ∀ f ∈ frames, f.opcode ≠ .ping := by
  simp [pings]

/-- For whatever a conforming server sends, cut into reads in any way, the calls of `receive` return
exactly the data messages and every PING is answered, if and only if there is no PING, no data message
that is too long is completed, and before a message gets too long there is no control frame but a CLOSE
that the framing library turns down. -/
theorem receive_delivers_iff (frames : List SentFrame) (early : List FrameRecv)
    (reads : List (List FrameRecv)) (conforms : Conforms none frames)
    (cut : early ++ reads.flatten = frames.flatMap SentFrame.recvs) : Delivers frames early reads ↔
      (∀ f ∈ frames, f.opcode ≠ .ping) ∧
        (∀ m ∈ dataMessages none frames, m.data.length ≤ 1024 * 1024) ∧
          ∀ f ∈ withinLimit none frames, f.opcode.isCtrlFrame = true →
            f.opcode = .connectionClose ∧ ¬ f.CloseAccepted := by
  have opened : AtFrame none ({} : Session).context :=
    ⟨rfl, rfl, rfl, rfl, rfl, rfl, ⟨rfl, rfl, rfl⟩, ⟨rfl, rfl⟩⟩
  obtain ⟨context, ends⟩ := eventRecv_heard opened conforms
  rw [← cut, eventRecv_append] at ends
  have written := eventRecv_written {} early
  rw [← heard_eq_iff conforms, ← pings_eq_nil]
  unfold Delivers Connection.create Session.feed
  generalize ({} : Session).eventRecv early = fed at ends written
  obtain ⟨session, _ | e⟩ := fed
  · have yields : Yields session reads (heard none frames) := by
      refine ⟨context, ends.trans ?_⟩
      rw [nil_append, ← written]
    have calls := receives_yields yields
    constructor
    · rintro ⟨_, ⟨⟩, delivers⟩
      constructor
      · obtain ⟨_, same, done⟩ := calls ((heard none frames).length + 1)
        have pongs := (delivers _).2 (done (Nat.lt_succ_self _))
        rw [same, written] at pongs
        exact pongs.symm
      · have same := (delivers ((heard none frames).length + (dataMessages none frames).length)).1
        rw [(calls _).1, take_of_length_le (Nat.le_add_right _ _),
          take_of_length_le (Nat.le_add_left _ _)] at same
        exact same
    · rintro ⟨none, same⟩
      refine ⟨_, rfl, fun n => ⟨?_, fun _ => ?_⟩⟩
      · rw [(calls n).1, same]
      · rw [(calls n).2.1, written, none]
        rfl
  · cases ends

/-- A text message in one frame, whose two bytes come in two reads. -/
def twoReads : SentFrame := ⟨true, .textFrame, [[0x68], [0x69]], .inr ⟨by simp, by simp⟩⟩

theorem receive_delivers_two_reads :
    Delivers [twoReads] [] [[.iocb (twoReads.iocb [0x68])], [.iocb (twoReads.iocb [0x69])]] := by
  refine (receive_delivers_iff [twoReads] [] _ ⟨fun _ => ?_, trivial⟩ rfl).mpr
    ⟨?_, ?_, ?_⟩
  · change WellFormed [0x68, 0x69]
    decide
  · simp [twoReads]
  · rw [show dataMessages none [twoReads] = [⟨false, [0x68, 0x69]⟩] from rfl]
    simp
  · rw [show withinLimit none [twoReads] = [twoReads] from rfl]
    simp [twoReads, Opcode.isCtrlFrame]

def onePing : SentFrame := ⟨true, .ping, [[0x61]], .inr ⟨by simp, by simp⟩⟩

/-- The payload of a PING is returned as a text message, and its PONG is written only with the next
message that the application sends. -/
theorem ping_is_received : let received := Connection.receive {} [onePing.recvs]
    Conforms none [onePing] ∧ dataMessages none [onePing] = [] ∧
      received.1 = some ⟨false, [0x61]⟩ ∧ received.2.1.session.written = [] ∧
      (received.2.1.send [0x62] false false).1.session.written =
        [⟨true, {}, .pong, [0x61]⟩, ⟨true, {}, .textFrame, [0x62]⟩] ∧
      ¬ Delivers [onePing] [] [onePing.recvs] := by
  refine ⟨.inl ⟨⟨.inl rfl, rfl, by decide⟩, trivial⟩, rfl, rfl, rfl, rfl, ?_⟩
  rintro ⟨connection, created, delivers⟩
  cases created
  have first := (delivers 1).1
  cases first

end TrueAsync.Wsclient

import TrueAsync.Websocket.Handoff

/-!
# The receive loop of an outgoing connection

`WebSocket::recv` on a client (`ws_do_recv`, `src/websocket/php_websocket.c`) drives the socket
itself: an iteration that finds no message asks `ws_client_connection_recv`
(`src/websocket/ws_client.c`) for more bytes and goes on whatever that returns. The loop ends on
`peer_closed` of the session; the read is refused on `closed` of the connection.
-/

namespace TrueAsync.Ws

open TrueAsync.Lib TrueAsync.Wslay Session

/-- What `php_stream_read` returns: no bytes, or bytes as frames, and whether a reply that the frames
call for can be written. -/
inductive Read where
  | eof
  | bytes (frames : List FrameRecv) (ok : Bool)
deriving DecidableEq, Repr

/-- How an iteration ends: with a message, null or an exception for the caller, in a read, or without
any of these. -/
inductive Outcome where
  | message (message : PendingMessage)
  | null
  | throws (code : Nat)
  | reads
  | spins
deriving DecidableEq, Repr

/-- `ws_client_connection_t` with the WebSocket object on top: `closed` is the flag of the
connection, `objectClosed` that of the object. `reading` coroutines wait for a read, `resumed` are
back from one. The bytes after the handshake are the first read. -/
structure Client where
  session : Session := initClient
  closed : Bool := false
  objectClosed : Bool := false
  reading : Nat := 0
  resumed : Nat := 0
deriving DecidableEq, Repr

/-- What the application and the socket do; an answer is that of `php_stream_write`, which may
suspend. -/
inductive ClientCall where
  | send (binary : Bool) (data : Bytes) (answer : Answer)
  | trySend (binary : Bool) (data : Bytes) (ok : Bool)
  | ping (payload : Bytes) (answer : Answer)
  | close (status : Nat) (reason : Bytes) (answer : Answer)
  | resume (ok : Bool)
  | recv
  | read (read : Read)
  | again
deriving DecidableEq, Repr

namespace Client

/-- The first test of `ws_client_transport_send`. -/
def answer (c : Client) (answer : Answer) : Answer := if c.closed then .refused else answer

/-- A call on the session. A write that fails closes the connection. -/
def call (codec : Codec) (c : Client) (call : Call) : Client :=
  let session := c.session.step codec call
  { c with
    session
    closed := c.closed || session.written ≠ c.session.written && call.sink.answer == .refused }

def resume (c : Client) (ok : Bool) : Client :=
  { c with session := c.session.resume ok, closed := c.closed || c.session.parked.isSome && !ok }

/-- `WebSocket::close`, which is idempotent. -/
def close (codec : Codec) (c : Client) (status : Nat) (reason : Bytes) (answer : Answer) : Client :=
  if c.objectClosed then c
  else { c.call codec (.close status reason (c.answer answer)) with objectClosed := true }

/-- The rest of `ws_client_connection_recv` after its read. -/
def readDone (codec : Codec) (c : Client) : Read → Client
  | .eof => { c with session := c.session.markPeerClosed, closed := true }
  | .bytes frames ok =>
    let fed := c.call codec (.feed frames (ok && !c.closed))
    { fed with
      closed := fed.closed || !(c.session.feed codec frames (ok && !c.closed)).2 }

/-- The close codes that end the stream of messages without an exception. -/
def normalClose (code : Nat) : Bool := code = 0 || code = 1000 || code = 1001 || code = 1005

/-- One iteration of the loop of `ws_do_recv`, up to its read. -/
def iterate (c : Client) : Client × Outcome :=
  match c.session.recvPop with
  | (session, some message) => ({ c with session }, .message message)
  | (_, none) =>
    if c.session.peerClosed then
      (c, if normalClose c.session.closeCode then .null else .throws c.session.closeCode)
    else if c.closed then (c, .spins)
    else ({ c with reading := c.reading + 1 }, .reads)

/-- The loop, until it has a result or is suspended in a read, for at most some iterations. -/
def recvLoop : Nat → Client → Option (Client × Outcome)
  | 0, _ => none
  | fuel + 1, c =>
    match c.iterate with
    | (c, .spins) => recvLoop fuel c
    | result => some result

/-- One call. `recv` is a new call of `WebSocket::recv`, and `again` a coroutine that is back from a
read; what an iteration that spins does forever is left out. -/
def step (codec : Codec) (c : Client) : ClientCall → Client
  | .send binary data answer =>
    if c.objectClosed then c else c.call codec (.send binary data (.producer (c.answer answer)))
  | .trySend binary data ok =>
    if c.objectClosed then c else c.call codec (.send binary data (.internal (ok && !c.closed)))
  | .ping payload answer =>
    if c.objectClosed then c else c.call codec (.ping payload (c.answer answer))
  | .close status reason answer => c.close codec status reason answer
  | .resume ok => c.resume ok
  | .recv => if c.objectClosed then c else c.iterate.1
  | .read read =>
    if c.reading = 0 then c
    else { c with reading := c.reading - 1, resumed := c.resumed + 1 }.readDone codec read
  | .again => if c.resumed = 0 then c else { c with resumed := c.resumed - 1 }.iterate.1

def run (codec : Codec) (history : List ClientCall) : Client := history.foldl (step codec) {}

end Client

/-- Some coroutine can be at the head of the loop: a new call, or one that is back from a read. -/
def Client.inLoop (c : Client) : Bool := !c.objectClosed || 0 < c.resumed

/-- No iteration is idle, and on a closed connection the loop ends. -/
def NeverSpins (c : Client) : Prop :=
  c.inLoop = true → c.iterate.2 ≠ .spins ∧ (c.closed = true → ∃ fuel, (c.recvLoop fuel).isSome)

/-! ## The two flags -/

variable {s : Session}

theorem step_writeError (ledger : Ledger s) {call : Call}
    (noResume : ∀ ok, call ≠ .resume ok) : (s.step codec call).writeError =
      (s.writeError || (s.step codec call).written ≠ s.written && call.sink.answer == .refused) := by
  cases Effect.of_step codec s noResume with
  | queues more queued _ => simp [queued.writeError, queued.written]
  | drives more s1 queued _ free driven =>
    rw [driven.writeError, driven.written, ← queued.writeError, ← queued.written]
    cases failed : s1.writeError with
    | true =>
      cases kept : (s1.driveSend call.sink).1.writeError with
      | true => rfl
      | false => cases failed.symm.trans (driveSend_writeError kept)
    | false =>
      have free1 := queued.flushing.trans free
      obtain ⟨flushes, _⟩ := (ledger.enqueues queued).flushes free1 failed call.sink
      rw [Bool.eq_iff_iff, flushes.refused, flushes.written]
      simp

def Session.Marked (s : Session) : Prop := s.recvOverflow = true → s.peerClosed = true

theorem driveSend_marks (s : Session) (sink : Sink) :
    (s.driveSend sink).1.peerClosed = s.peerClosed ∧
      (s.driveSend sink).1.recvOverflow = s.recvOverflow := by
  unfold driveSend eventSend flushOutput
  dsimp only
  split
  · exact ⟨rfl, rfl⟩
  · cases sink.answer <;> exact ⟨rfl, rfl⟩

theorem Session.Marked.driveSend (marked : s.Marked) (sink : Sink) :
    (s.driveSend sink).1.Marked := by
  obtain ⟨peer, overflow⟩ := driveSend_marks s sink
  unfold Marked
  rw [peer, overflow]
  exact marked

theorem Effect.marks {s' : Session} (effect : Effect call s s') :
    (s.peerClosed = true → s'.peerClosed = true) ∧ (s.Marked → s'.Marked) := by
  cases effect with
  | queues more queued _ => exact ⟨queued.peerClosed, queued.overflow⟩
  | drives more s1 queued _ _ driven =>
    constructor
    · intro closed
      refine driven.peerClosed ?_
      rw [(driveSend_marks s1 call.sink).1]
      exact queued.peerClosed closed
    · intro marked
      exact driven.overflow (Session.Marked.driveSend (queued.overflow marked) call.sink)

theorem feed_dead (marked : s.Marked)
    (dead : (s.feed codec frames ok).2 = false) : (s.feed codec frames ok).1.peerClosed = true := by
  obtain ⟨_, received, _⟩ := Enqueues.eventRecv codec s frames
  have replied : ((s.eventRecv codec frames).1.feedReply ok).Marked := by
    unfold feedReply
    split
    · exact .driveSend (received.overflow marked) _
    · exact received.overflow marked
  unfold feed feedEnd at dead ⊢
  dsimp only at dead ⊢
  split_ifs at dead ⊢ with _ _ overflow
  · rfl
  · rfl
  · exact replied overflow
  · rfl

/-- The invariant: unless the session is marked, the connection is closed exactly if a write has
failed. -/
structure Synced (c : Client) : Prop where
  ledger : Ledger c.session
  marked : c.session.Marked
  flags : c.session.peerClosed = false → c.closed = c.session.writeError

namespace Synced

variable {codec : Codec} {c : Client}

theorem call (synced : Synced c) {call : Call} (noResume : ∀ ok, call ≠ .resume ok) :
    Synced (c.call codec call) := by
  obtain ⟨closes, marks⟩ := (Effect.of_step codec c.session noResume).marks
  refine ⟨synced.ledger.step codec call, marks synced.marked, fun isOpen => ?_⟩
  have isOpen' : c.session.peerClosed = false :=
    Bool.eq_false_iff.mpr (fun closed => nomatch (closes closed).symm.trans isOpen)
  change (c.closed || _) = (c.session.step codec call).writeError
  rw [step_writeError synced.ledger noResume, synced.flags isOpen']

theorem resume (synced : Synced c) (ok : Bool) : Synced (c.resume ok) := by
  refine ⟨synced.ledger.resume ok, ?_, ?_⟩
  · have marked := synced.marked
    unfold Client.resume Session.resume
    split <;> exact marked
  · intro isOpen
    unfold Client.resume Session.resume at isOpen ⊢
    split
    · rename_i unparked
      rw [unparked] at isOpen
      simpa [unparked] using synced.flags isOpen
    · rename_i parked
      rw [parked] at isOpen
      simp [parked, synced.flags isOpen]

theorem readDone (synced : Synced c) (read : Read) : Synced (c.readDone codec read) := by
  cases read with
  | eof =>
    exact ⟨synced.ledger.enqueues (.markPeerClosed _), fun _ => rfl, fun isOpen => nomatch isOpen⟩
  | bytes frames ok =>
    have fed : Synced (c.call codec (.feed frames (ok && !c.closed))) := synced.call nofun
    refine { fed with flags := fun isOpen => ?_ }
    have alive : (c.session.feed codec frames (ok && !c.closed)).2 = true := by
      by_contra dead
      have closed := feed_dead synced.marked (Bool.eq_false_iff.mpr dead)
      cases closed.symm.trans isOpen
    change (_ || !(c.session.feed codec frames (ok && !c.closed)).2) = _
    rw [alive, Bool.not_true, Bool.or_false]
    exact fed.flags isOpen

theorem iterate (synced : Synced c) : Synced c.iterate.1 := by
  have popped : Synced { c with session := c.session.recvPop.1 } := by
    have ledger := synced.ledger.step noCodec .recv
    have marked := synced.marked
    have flags := synced.flags
    refine ⟨ledger, ?_, ?_⟩ <;> unfold recvPop <;> split
    · exact marked
    · exact marked
    · exact flags
    · exact flags
  unfold Client.iterate
  split
  · grind
  · split
    · exact synced
    · split
      · exact synced
      · exact { synced with }

theorem step (codec : Codec) (synced : Synced c) (call : ClientCall) :
    Synced (c.step codec call) := by
  cases call with
  | close status reason answer =>
    change Synced (c.close codec status reason answer)
    unfold Client.close
    split
    · exact synced
    · have closed : Synced (c.call codec (.close status reason (c.answer answer))) :=
        synced.call nofun
      exact { closed with }
  | resume ok => exact synced.resume ok
  | recv => grind [Client.step, iterate]
  | read read =>
    unfold Client.step
    dsimp only
    split
    · exact synced
    · have waits : Synced { c with reading := c.reading - 1, resumed := c.resumed + 1 } :=
        { synced with }
      exact waits.readDone read
  | again =>
    unfold Client.step
    dsimp only
    split
    · exact synced
    · exact iterate { synced with }
  | _ => grind [Client.step, call]

theorem run (codec : Codec) (history : List ClientCall) : Synced (Client.run codec history) := by
  refine List.foldlRecOn history _ ⟨.opened .client, nofun, fun _ => rfl⟩ ?_
  exact fun _ synced call _ => synced.step codec call

end Synced

/-! ## The loop -/

theorem iterate_spins (c : Client) : c.iterate.2 = .spins ↔
    c.session.recvQueue = [] ∧ c.session.peerClosed = false ∧ c.closed = true := by
  grind [Client.iterate, recvPop]

theorem iterate_idle {c : Client} (idle : c.iterate.2 = .spins) : c.iterate = (c, .spins) := by
  grind [Client.iterate]

theorem recvLoop_ends (c : Client) : (∃ fuel, (c.recvLoop fuel).isSome) ↔ c.iterate.2 ≠ .spins := by
  constructor
  · rintro ⟨fuel, ends⟩ idle
    have never (fuel : Nat) : c.recvLoop fuel = none := by
      induction fuel with
      | zero => rfl
      | succ fuel ih =>
        rw [Client.recvLoop, iterate_idle idle]
        exact ih
    rw [never fuel] at ends
    cases ends
  · intro busy
    refine ⟨1, ?_⟩
    grind [Client.recvLoop]

/-- In every history of an outgoing connection, no iteration is idle exactly if no write has failed,
or there is a message, or the session is marked as closed. -/
theorem client_recv_never_spins_iff (codec : Codec) (history : List ClientCall) :
    let c := .run codec history
    NeverSpins c ↔ (c.inLoop = true → c.session.writeError = true →
      c.session.recvQueue ≠ [] ∨ c.session.peerClosed = true) := by
  intro c
  have synced : Synced c := .run codec history
  refine forall_congr' fun _ => ?_
  rw [recvLoop_ends, and_iff_left_of_imp (fun busy _ => busy), Ne, iterate_spins]
  constructor
  · intro busy failed
    by_contra none
    obtain ⟨empty, isOpen⟩ := not_or.mp none
    have isOpen := Bool.eq_false_iff.mpr isOpen
    exact busy ⟨not_not.mp empty, isOpen, (synced.flags isOpen).trans failed⟩
  · rintro holds ⟨empty, isOpen, closed⟩
    rcases holds ((synced.flags isOpen).symm.trans closed) with some | marked
    · exact some empty
    · cases marked.symm.trans isOpen

/-- The first write of a connection fails, and then `recv` goes round forever. -/
theorem failed_write_spins : let c := .run noCodec [.send false [0x61] .refused]
    c.closed = true ∧ c.inLoop = true ∧ c.iterate = (c, .spins) ∧ ¬ NeverSpins c := by
  refine ⟨rfl, rfl, rfl, fun never => ?_⟩
  exact (never rfl).1 rfl

end TrueAsync.Ws

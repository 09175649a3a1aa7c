import TrueAsync.Websocket.Handoff
import TrueAsync.Websocket.Transport

/-!
# A session over an HTTP/2 stream

A WebSocket that was accepted on a stream (`http2_ws_accept`, `src/http2/http2_strategy.c`) writes
into the chunk ring of that stream. A flush of the session is one chunk. The suspending sink,
`ws_h2_send`, waits for room; `ws_h2_send_internal` drops the chunk when all slots are live, because
it is meant for control frames, which are sent again.
-/

namespace TrueAsync.Ws

open TrueAsync.Lib TrueAsync.Wslay List H2Stream List.Sublist

/-- How `h2_stream_append_chunk` goes: the connection is past its write deadline, or
`h2_stream_wait_for_room` finds room at once, or it suspends. -/
def H2Stream.answer (stream : H2Stream) (maxBytes : Nat) (writeTimedOut : Bool) : Session.Answer :=
  if writeTimedOut then .refused
  else if stream.sendable maxBytes then .accepted else .suspends

/-- The chunk of a flush goes into the ring at once, through `ws_h2_send` or
`ws_h2_send_internal`. -/
def H2Stream.taken (stream : H2Stream) : Session.Sink → Bool
  | .producer answer => answer == .accepted
  | .internal _ => stream.hasSlot

/-- A session and its stream. `appended` is the history of the frames that went into the ring. -/
structure H2Session where
  session : Session
  stream : H2Stream := { chunkQueue := some [] }
  appended : List Frame := []
deriving DecidableEq, Repr

/-- What can happen: calls on the session, the end of a producer's wait, bytes that go to the
network, and the end of the stream. -/
inductive H2Call where
  | send (binary : Bool) (data : Bytes) (writeTimedOut : Bool)
  | trySend (binary : Bool) (data : Bytes)
  | publish (binary : Bool) (data : Bytes)
  | ping (payload : Bytes) (writeTimedOut : Bool)
  | close (status : Nat) (reason : Bytes) (writeTimedOut : Bool)
  | closeInternalError
  | pingTimer
  | pongTimer
  | feed (frames : List FrameRecv)
  | recv
  | wake (cancelled : Bool)
  | emit (length : Nat)
  | streamClosed
deriving DecidableEq, Repr

namespace H2Session

/-- The session after a call, and the ring after what the call has flushed. -/
def flushed (h : H2Session) (session : Session) (sink : Session.Sink) : H2Session :=
  let frames := session.written.drop h.session.written.length
  if frames ≠ [] ∧ h.stream.taken sink then
    { session, stream := h.stream.append frames, appended := h.appended ++ frames }
  else { h with session }

def call (codec : Codec) (h : H2Session) (call : Session.Call) : H2Session :=
  h.flushed (h.session.step codec call) call.sink

/-- The rest of `h2_stream_append_chunk` for the producer that waits for room. -/
def wake (maxBytes : Nat) (h : H2Session) (cancelled : Bool) : H2Session :=
  if !h.session.flushing then h
  else if cancelled then { h with session := h.session.resume false }
  else if h.stream.sendable maxBytes then
    { session := h.session.resume true
      stream := h.stream.append h.session.sendBuf
      appended := h.appended ++ h.session.sendBuf }
  else h

/-- `WebSocket::trySend`, where the stream and the queue have room. -/
def trySend (codec : Codec) (maxBytes : Nat) (h : H2Session) (binary : Bool) (data : Bytes) :
    H2Session :=
  if h.stream.sendable maxBytes && !h.session.overHighwater maxBytes false then
    h.call codec (.send binary data (.internal true))
  else h

/-- One call; `maxBytes` is `stream_write_buffer_bytes`. -/
def step (codec : Codec) (maxBytes : Nat) (h : H2Session) : H2Call → H2Session
  | .send binary data writeTimedOut =>
    h.call codec (.send binary data (.producer (h.stream.answer maxBytes writeTimedOut)))
  | .trySend binary data => h.trySend codec maxBytes binary data
  | .publish binary data =>
    h.call codec (.publish binary data maxBytes (h.stream.sendable maxBytes) false true)
  | .ping payload writeTimedOut =>
    h.call codec (.ping payload (h.stream.answer maxBytes writeTimedOut))
  | .close status reason writeTimedOut =>
    h.call codec (.close status reason (h.stream.answer maxBytes writeTimedOut))
  | .closeInternalError => h.call codec (.closeInternalError true)
  | .pingTimer => h.call codec (.pingTimer true)
  | .pongTimer => h.call codec (.pongTimer true)
  | .feed frames => h.call codec (.feed frames true)
  | .recv => h.call codec .recv
  | .wake cancelled => h.wake maxBytes cancelled
  | .emit length => { h with stream := h.stream.chunkQueueWalk length }
  | .streamClosed =>
    { h.call codec .peerClosed with stream := { h.stream with peerClosed := true } }

def run (codec : Codec) (config : Config) (pmce : Bool) (maxBytes : Nat) (history : List H2Call) :
    H2Session :=
  history.foldl (step codec maxBytes) { session := Session.opened (.server config pmce) }

end H2Session

/-! ## What is lost -/

/-- The messages whose frames are in the ring, and those in the buffer of a suspended producer. With
what is still queued they are all data messages that were ever queued, in order and each in one
piece; of the control messages some may be missing. -/
structure Accounts (sent held : List Omsg) (appended : List Frame) (s : Session) : Prop where
  appended : appended = framesOf sent
  buffer : s.sendBuf = framesOf held
  data : dataMsgs sent ++ dataMsgs held ++ s.ctx.sendQueue = dataMsgs s.ctx.queued
  ctrl : (ctrlMsgs sent ++ ctrlMsgs held ++ s.ctx.sendCtrlQueue).Sublist (ctrlMsgs s.ctx.queued)

/-- No data frame is lost, and the ring has had all of them where no producer is suspended, unless
the stream is closed or the session has a write error. -/
def Lossless (h : H2Session) : Prop :=
  h.stream.peerClosed = false → h.session.writeError = false →
    ∃ sent held, Accounts sent held h.appended h.session ∧
      (h.session.flushing = false → dataMsgs sent = dataMsgs h.session.ctx.queued)

/-- The condition: a producer that has waited for room finds the data queue empty when it is done. -/
def NoneBehind (maxBytes : Nat) (h : H2Session) : H2Call → Prop
  | .wake false => h.stream.peerClosed = false → h.session.flushing = true →
      h.stream.sendable maxBytes = true → h.session.ctx.sendQueue = []
  | _ => True

namespace Accounts

variable {sent held : List Omsg} {appended : List Frame} {s s' : Session}

theorem enqueues (accounts : Accounts sent held appended s)
    (queued : Enqueues more s s') : Accounts sent held appended s' where
  appended := accounts.appended
  buffer := queued.sendBuf.trans accounts.buffer
  data := by
    rw [queued.queues.data, queued.queues.queued, dataMsgs_append, ← accounts.data]
    simp only [append_assoc]
  ctrl := by
    rw [queued.queues.ctrl, queued.queues.queued, ctrlMsgs_append, ← append_assoc]
    exact accounts.ctrl.append (refl _)

theorem idle (accounts : Accounts sent held appended s) (ledger : Ledger s)
    (free : s.flushing = false) (all : dataMsgs sent = dataMsgs s.ctx.queued) :
    held = [] ∧ s.ctx.sendQueue = [] := by
  have none : held = [] := by
    have buffer := accounts.buffer
    rw [ledger.emptied (ledger.unparked free)] at buffer
    exact framesOf_eq_nil.mp buffer.symm
  subst none
  have data := accounts.data
  rw [← all] at data
  refine ⟨rfl, ?_⟩
  simpa [dataMsgs] using data

/-- What a drive does: the messages that go out are appended, wait in the buffer or, if there is no
data message among them, may be dropped. -/
theorem drives (accounts : Accounts sent [] appended s) (ledger : Ledger s) (free : s.flushing = false)
    (noError : s.writeError = false) (sink : Session.Sink)
    (drained : (s.ctx.eventSend false).1.sendQueue = []) :
    ∃ msgs, Flushes sink.answer (framesOf msgs) s (s.driveSend sink).1 ∧
      dataMsgs msgs = s.ctx.sendQueue ∧ (sink.answer ≠ .suspends →
        Accounts (sent ++ msgs) [] (appended ++ framesOf msgs) (s.driveSend sink).1 ∧
          (dataMsgs msgs = [] → Accounts sent [] appended (s.driveSend sink).1)) ∧
      (sink.answer = .suspends → Accounts sent msgs appended (s.driveSend sink).1) := by
  obtain ⟨msgs, frames, inData, inCtrl⟩ :=
    Ctx.eventSend_sends ledger.data (fun msg member => (ledger.ctrl msg member).1)
  obtain ⟨flushes, _⟩ := ledger.flushes free noError sink
  have ctx := driveSend_ctx s sink
  have queued := (Ctx.eventSend_queued false s.ctx).1
  rw [noError] at ctx
  rw [frames] at flushes
  rw [drained, append_nil] at inData
  have data : dataMsgs sent ++ dataMsgs msgs = dataMsgs s.ctx.queued := by
    rw [inData, ← accounts.data]
    simp [dataMsgs]
  have ctrl : (ctrlMsgs sent ++ (ctrlMsgs msgs ++ (s.ctx.eventSend false).1.sendCtrlQueue)).Sublist
      (ctrlMsgs s.ctx.queued) := by
    have before := accounts.ctrl
    simp only [ctrlMsgs, filter_nil, append_nil] at before
    exact ((refl _).append inCtrl).trans before
  refine ⟨msgs, flushes, inData, fun noWait => ⟨?_, fun none => ?_⟩, fun waits => ?_⟩
  · refine ⟨?_, ?_, ?_, ?_⟩
    · rw [accounts.appended, framesOf_append]
    · rw [flushes.sendBuf, if_neg noWait]
      rfl
    · rw [ctx, drained, queued, dataMsgs_append, data]
      simp [dataMsgs]
    · rw [ctx, queued, ctrlMsgs_append]
      simpa [ctrlMsgs] using ctrl
  · refine ⟨accounts.appended, ?_, ?_, ?_⟩
    · rw [flushes.sendBuf, if_neg noWait]
      rfl
    · rw [ctx, drained, queued, ← data, none]
      simp [dataMsgs]
    · rw [ctx, queued]
      refine .trans ?_ ctrl
      simp only [ctrlMsgs, filter_nil, append_nil]
      exact (refl _).append (sublist_append_right _ _)
  · refine ⟨accounts.appended, ?_, ?_, ?_⟩
    · rw [flushes.sendBuf, if_pos waits]
    · rw [ctx, drained, queued, append_nil, data]
    · rw [ctx, queued]
      simpa using ctrl

end Accounts

theorem Ledger.drained (ledger : Ledger s) (free : s.flushing = false)
    (noError : s.writeError = false) (opens : s.ctx.sendQueue = [] ∨ s.ctx.closeQueued = false) :
    (s.ctx.eventSend false).1.sendQueue = [] := by
  rcases opens with none | noClose
  · obtain ⟨_, _, inData, _⟩ :=
      Ctx.eventSend_sends ledger.data (fun msg member => (ledger.ctrl msg member).1)
    grind
  · obtain ⟨_, drained⟩ := ledger.driveSend free noError noClose (.internal true)
    have queue := drained.sendQueue
    rwa [driveSend_ctx, noError] at queue

/-! ## One call -/

/-- The invariant. -/
structure Accepted (h : H2Session) : Prop where
  ledger : Ledger h.session
  ring : h.stream.chunkQueue.isSome = true

namespace Lossless

variable {h : H2Session} {s1 s' : Session} {more : List Omsg} {sink : Session.Sink}

theorem queues (lossless : Lossless h) (queued : Enqueues more h.session s')
    (idle : dataMsgs more = [] ∨ h.session.flushing = true) : Lossless (h.flushed s' sink) := by
  have same : h.flushed s' sink = { h with session := s' } := by
    unfold H2Session.flushed
    simp [queued.written]
  rw [same]
  intro isOpen noError
  obtain ⟨sent, held, accounts, all⟩ := lossless isOpen (queued.writeError.symm.trans noError)
  refine ⟨sent, held, accounts.enqueues queued, fun free => ?_⟩
  have free' := queued.flushing.symm.trans free
  have none : dataMsgs more = [] := idle.resolve_right (by simp [free'])
  rw [queued.queues.queued, dataMsgs_append, none, append_nil]
  exact all free'

/-- The queue is driven out. What does not go into the ring is held by the producer, or is a control
message. -/
theorem drives (ledger : Ledger h.session) (lossless : Lossless h)
    (queued : Enqueues more h.session s1) (free : h.session.flushing = false)
    (kind : dataMsgs more = [] ∨ s1.ctx.closeQueued = false ∧
      (h.stream.peerClosed = false → sink.answer = .accepted → h.stream.taken sink = true))
    (waits : sink.answer = .suspends → h.stream.taken sink = false)
    (driven : Enqueues [] (s1.driveSend sink).1 s') : Lossless (h.flushed s' sink) := by
  have ledger1 := ledger.enqueues queued
  have free1 := queued.flushing.trans free
  intro isOpen noError
  have isOpen' : h.stream.peerClosed = false := by
    unfold H2Session.flushed at isOpen
    dsimp only at isOpen
    split at isOpen <;> exact isOpen
  have session : (h.flushed s' sink).session = s' := by
    unfold H2Session.flushed
    dsimp only
    split <;> rfl
  rw [session] at noError ⊢
  have noErrorD := driven.writeError.symm.trans noError
  have noError1 := driveSend_writeError noErrorD
  obtain ⟨sent, held, accounts, all⟩ := lossless isOpen' (queued.writeError.symm.trans noError1)
  obtain ⟨rfl, empty⟩ := accounts.idle ledger free (all free)
  have queue1 : s1.ctx.sendQueue = dataMsgs more := by
    rw [queued.queues.data, empty, nil_append]
  have drained := ledger1.drained free1 noError1 (kind.imp queue1.trans And.left)
  obtain ⟨msgs, flushes, inData, now, later⟩ :=
    (accounts.enqueues queued).drives ledger1 free1 noError1 sink drained
  have sum : dataMsgs sent ++ dataMsgs msgs = dataMsgs s'.ctx.queued := by
    rw [driven.queues.queued, append_nil, driveSend_ctx,
      (Ctx.eventSend_queued s1.writeError s1.ctx).1, queued.queues.queued, dataMsgs_append, all free,
      inData, queue1]
  have frames : s'.written.drop h.session.written.length = framesOf msgs := by
    rw [driven.written, flushes.written, queued.written, drop_left]
  have appended : (h.flushed s' sink).appended =
      if framesOf msgs ≠ [] ∧ h.stream.taken sink then h.appended ++ framesOf msgs
      else h.appended := by
    unfold H2Session.flushed
    dsimp only
    rw [frames]
    split <;> rfl
  rw [appended]
  by_cases suspends : sink.answer = .suspends
  · rw [if_neg (by simp [waits suspends])]
    refine ⟨sent, msgs, (later suspends).enqueues driven, fun free' => ?_⟩
    -- The producer is not suspended, so there was nothing to write.
    have none : msgs = [] := by
      by_contra some
      have held := flushes.suspends.mpr ⟨framesOf_eq_nil.not.mpr some, suspends⟩
      cases (driven.flushing.trans held).symm.trans free'
    subst none
    simpa [dataMsgs] using sum
  · obtain ⟨taken, dropped⟩ := now suspends
    by_cases goes : framesOf msgs ≠ [] ∧ h.stream.taken sink
    · rw [if_pos goes]
      refine ⟨sent ++ msgs, [], taken.enqueues driven, fun _ => ?_⟩
      rw [dataMsgs_append, sum]
    · rw [if_neg goes]
      have none : dataMsgs msgs = [] := by
        by_contra some
        have written : framesOf msgs ≠ [] := by
          intro nothing
          rw [framesOf_eq_nil] at nothing
          exact some (congrArg dataMsgs nothing)
        have hasData : dataMsgs more ≠ [] := by rwa [← queue1, ← inData]
        obtain ⟨_, fits⟩ := kind.resolve_left hasData
        cases answer : sink.answer with
        | suspends => exact suspends answer
        | refused => cases (flushes.refused.mpr ⟨written, answer⟩).symm.trans noErrorD
        | accepted => exact goes ⟨written, fits isOpen' answer⟩
      refine ⟨sent, [], (dropped none).enqueues driven, fun _ => ?_⟩
      rw [← sum, none, append_nil]

/-- A call on the session, other than the end of a suspended write. One that brings a data message
and writes it at once finds a slot. -/
theorem call (codec : Codec) (accepted : Accepted h) (lossless : Lossless h) {call : Session.Call}
    (noResume : ∀ ok, call ≠ .resume ok)
    (fits : call.hasData = true → h.stream.peerClosed = false → call.sink.answer = .accepted →
      h.stream.taken call.sink = true)
    (waits : call.sink.answer = .suspends → h.stream.taken call.sink = false) :
    Lossless (h.call codec call) := by
  cases Effect.of_step codec h.session noResume with
  | queues more queued idle =>
    refine lossless.queues queued ?_
    rcases idle with rfl | held | ⟨_, none⟩
    · exact .inl rfl
    · exact .inr held
    · exact .inl none
  | drives more s1 queued kind free driven =>
    refine drives accepted.ledger lossless queued free ?_ waits driven
    exact kind.imp id (fun ⟨hasData, noClose⟩ => ⟨noClose, fits hasData⟩)

theorem wake (maxBytes : Nat) (accepted : Accepted h) (lossless : Lossless h) (cancelled : Bool) :
    Lossless (h.wake maxBytes cancelled) ↔ NoneBehind maxBytes h (.wake cancelled) := by
  have role := accepted.ledger.role
  unfold H2Session.wake
  cases held : h.session.flushing with
  | false => cases cancelled <;> simp [lossless, NoneBehind, held]
  | true =>
    obtain ⟨rc, parked⟩ := Option.isSome_iff_exists.mp (role.symm.trans held)
    cases cancelled with
    | true => simp [Lossless, NoneBehind, Session.resume, parked]
    | false =>
      by_cases room : h.stream.sendable maxBytes = true
      swap
      · simp [lossless, NoneBehind, room]
      simp only [Bool.not_true, Bool.false_eq_true, if_false, room, if_true, Session.resume, parked,
        NoneBehind, held, forall_const, Lossless, H2Stream.append, Bool.not_true, Bool.or_false,
        accepted.ledger.held held]
      refine forall_congr' fun isOpen => ?_
      obtain ⟨sent, held, accounts, _⟩ := lossless isOpen (accepted.ledger.held held)
      constructor
      · rintro ⟨sent', held', accounts', all⟩
        have data := accounts'.data
        simp_all
      · intro none
        have data := accounts.data
        rw [none, append_nil] at data
        refine ⟨sent ++ held, [], ⟨?_, rfl, ?_, ?_⟩, ?_⟩
        · rw [accounts.appended, accounts.buffer, framesOf_append]
        · simpa [none, dataMsgs] using data
        · simpa [ctrlMsgs] using accounts.ctrl
        · rw [dataMsgs_append, data]

theorem step (codec : Codec) (maxBytes : Nat) (accepted : Accepted h) (lossless : Lossless h)
    (c : H2Call) : Lossless (h.step codec maxBytes c) ↔ NoneBehind maxBytes h c := by
  have producer (answer : Session.Answer) :
      answer = .suspends → h.stream.taken (.producer answer) = false := by
    rintro rfl
    rfl
  cases c with
  | send binary data writeTimedOut =>
    refine iff_of_true (call codec accepted lossless nofun (fun _ _ accepts => ?_) (producer _)) trivial
    exact beq_iff_eq.mpr accepts
  | trySend binary data =>
    refine iff_of_true ?_ trivial
    change Lossless (h.trySend codec maxBytes binary data)
    unfold H2Session.trySend
    split
    · rename_i gate
      refine call codec accepted lossless nofun (fun _ isOpen _ => ?_) nofun
      exact hasSlot_of_sendable accepted.ring isOpen (Bool.and_eq_true_iff.mp gate).1
    · exact lossless
  | publish binary data =>
    refine iff_of_true ?_ trivial
    change Lossless (h.call codec (.publish binary data maxBytes _ false true))
    cases room : h.stream.sendable maxBytes with
    | true =>
      refine call codec accepted lossless nofun (fun _ isOpen _ => ?_) nofun
      exact hasSlot_of_sendable accepted.ring isOpen room
    | false =>
      have same : h.session.step codec (.publish binary data maxBytes false false true) = h.session := by
        change (h.session.trySend codec data binary maxBytes false false true).1 = h.session
        unfold Session.trySend
        split <;> rfl
      unfold H2Session.call
      rw [same]
      exact lossless.queues (.refl _) (.inl rfl)
  | ping payload writeTimedOut | close status reason writeTimedOut =>
    exact iff_of_true (call codec accepted lossless nofun nofun (producer _)) trivial
  | closeInternalError | pingTimer | pongTimer | feed | recv =>
    exact iff_of_true (call codec accepted lossless nofun nofun nofun) trivial
  | wake cancelled => exact lossless.wake maxBytes accepted cancelled
  | emit length =>
    have stays : (h.stream.chunkQueueWalk length).peerClosed = h.stream.peerClosed := by
      unfold chunkQueueWalk
      split <;> rfl
    refine iff_of_true (fun isOpen => ?_) trivial
    exact lossless (stays.symm.trans isOpen)
  | streamClosed => exact iff_of_true (fun isOpen => nomatch isOpen) trivial

end Lossless

namespace Accepted

variable {h : H2Session}

theorem flushed (accepted : Accepted h) (ledger : Ledger session)
    (sink : Session.Sink) : Accepted (h.flushed session sink) := by
  unfold H2Session.flushed
  dsimp only
  split
  · exact ⟨ledger, by simpa [H2Stream.append] using accepted.ring⟩
  · exact ⟨ledger, accepted.ring⟩

theorem call (codec : Codec) (accepted : Accepted h) (c : Session.Call) :
    Accepted (h.call codec c) :=
  accepted.flushed (accepted.ledger.step codec c) c.sink

theorem step (codec : Codec) (maxBytes : Nat) (accepted : Accepted h) (c : H2Call) :
    Accepted (h.step codec maxBytes c) := by
  cases c with
  | wake cancelled =>
    change Accepted (h.wake maxBytes cancelled)
    unfold H2Session.wake
    split_ifs
    · exact accepted
    · exact ⟨accepted.ledger.resume false, accepted.ring⟩
    · exact ⟨accepted.ledger.resume true, by simpa [H2Stream.append] using accepted.ring⟩
    · exact accepted
  | emit length =>
    refine ⟨accepted.ledger, ?_⟩
    change (h.stream.chunkQueueWalk length).chunkQueue.isSome = true
    unfold H2Stream.chunkQueueWalk
    split
    · exact accepted.ring
    · rfl
  | streamClosed => exact ⟨(accepted.call codec _).ledger, accepted.ring⟩
  | trySend binary data =>
    change Accepted (h.trySend codec maxBytes binary data)
    grind [H2Session.trySend, call]
  | _ => exact accepted.call codec _

end Accepted

/-- No data frame of any run is lost, and the ring has had all of them whenever no producer is
suspended, exactly if every producer that has waited for room finds the data queue empty when it is
done. -/
theorem h2_lossless_iff (codec : Codec) (config : Config) (pmce : Bool) (maxBytes : Nat)
    (history : List H2Call) :
    (∀ past, past <+: history → Lossless (H2Session.run codec config pmce maxBytes past)) ↔
      Along (fun past c => NoneBehind maxBytes (H2Session.run codec config pmce maxBytes past) c)
        history := by
  apply Along.holds_iff (I := Accepted) (P := Lossless)
  · exact fun h c accepted => accepted.step codec maxBytes c
  · exact fun h c accepted lossless => lossless.step codec maxBytes accepted c
  · exact ⟨.opened _, rfl⟩
  · intro _ _
    cases pmce <;> exact ⟨[], [], ⟨rfl, rfl, rfl, refl _⟩, fun _ => rfl⟩

/-- Eight messages fill the ring. The ninth waits, and while it does another coroutine sends `b`,
which is left to the flusher. A slot becomes free and takes the ninth, and the next tick of the ping
timer drives out `b`. -/
def ninthSender : List H2Call :=
  replicate 9 (.send false [0x61] false) ++
    [.send false [0x62] false, .emit 3, .wake false, .pingTimer]

/-- The send of `b` was reported as done. The chunk of its frame and the PING is dropped, since all
slots are live again, and `b` is in no queue any more. -/
theorem message_dropped_by_ping :
    let before := H2Session.run noCodec {} false 0 (ninthSender.take 9)
    let h := H2Session.run noCodec {} false 0 ninthSender
    (before.session.queueAndFlush noCodec .textFrame [0x62] (.producer .suspends)).2 = some .ok ∧
      h.stream.peerClosed = false ∧ h.session.writeError = false ∧ h.session.closed = false ∧
      h.session.flushing = false ∧
      h.session.ctx.sendQueue = [] ∧
      h.appended = replicate 9 ⟨true, {}, .textFrame, [0x61]⟩ ∧
      dataMsgs h.session.ctx.queued =
        replicate 9 ⟨.textFrame, {}, [0x61], none⟩ ++ [⟨.textFrame, {}, [0x62], none⟩] := by
  decide +kernel

end TrueAsync.Ws

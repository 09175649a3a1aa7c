import TrueAsync.Websocket.Handoff
import TrueAsync.Websocket.Transport

/-!
# What a send reports

`ws_session_queue_and_flush` reports what `wslay_event_send` returned, but the bytes go out later, in
the one write of `ws_session_flush_output`, whose failure only sets `write_error`. Whether a report
is right is decided by whether the message was written at all and what the transport made of it.
-/

namespace TrueAsync.Ws

open TrueAsync.Lib TrueAsync.Wslay Session

/-! ## A send from its call to its result -/

def Session.Call.ends : Call → Bool
  | .resume _ => true
  | _ => false

/-- What becomes of a producer's write; while it is suspended others call. -/
inductive Write where
  | accepted
  | refused
  | suspended (meanwhile : List Call) (ok : Bool)

/-- The two ways of `ws_session_queue_and_flush`: the suspending sink, and the internal one of a
transport. -/
inductive Attempt where
  | producer (write : Write)
  | internal (transport : Transport)

/-- The sink that the session sees when it writes some frames. -/
def Attempt.sink (frames : List Frame) : Attempt → Sink
  | .producer .accepted => .producer .accepted
  | .producer .refused => .producer .refused
  | .producer (.suspended _ _) => .producer .suspends
  | .internal transport => .internal (transport.reports frames)

def Attempt.took (frames : List Frame) : Attempt → Bool
  | .producer .accepted => true
  | .producer .refused => false
  | .producer (.suspended _ ok) => ok
  | .internal transport => transport.takes frames

namespace Session

def buffer (s : Session) : List Frame := framesOf (s.ctx.sendCtrlQueue ++ s.ctx.sendQueue)

def nextBuffer (codec : Codec) (s : Session) (opcode : Opcode) (data : Bytes) : List Frame :=
  match s.queueMessage codec opcode data with
  | .ok s => s.buffer
  | .error _ => []

def sendMsg (codec : Codec) (s : Session) (opcode : Opcode) (data : Bytes) : Option Omsg :=
  (s.compress codec data).map fun (payload, rsv) => s.payloadMsg opcode payload rsv

/-- The calls of others, none of which ends the write, and then its end. -/
def finish (codec : Codec) (s : Session) : Attempt → Session
  | .producer (.suspended meanwhile ok) =>
    ((meanwhile.filter (!·.ends)).foldl (step codec) s).resume ok
  | _ => s

/-- A whole call of `ws_session_queue_and_flush`. -/
def sendVia (codec : Codec) (s : Session) (opcode : Opcode) (data : Bytes) (attempt : Attempt) :
    Session × SendRc :=
  match s.queueAndFlush codec opcode data (attempt.sink (s.nextBuffer codec opcode data)) with
  | (s, some rc) => (s, rc)
  | (s, none) => (s.finish codec attempt, sendRc (s.parked.getD none))

/-- A whole call of `ws_session_try_send` on a transport. -/
def trySendVia (codec : Codec) (s : Session) (transport : Transport) (high : Nat) (data : Bytes)
    (binary : Bool) : Session × Bool :=
  s.trySend codec data binary high (transport.sendable high) (transport.outbound high)
    (transport.reports (s.nextBuffer codec (if binary then .binaryFrame else .textFrame) data))

end Session

/-- A result `WS_SEND_OK` is right: the message was part of a write that the transport accepted, or it
is still queued in a session without a write error. -/
def Faithful (codec : Codec) (s : Session) (opcode : Opcode) (data : Bytes) (attempt : Attempt) :
    Prop :=
  (s.sendVia codec opcode data attempt).2 = .ok →
    ∃ msg, s.sendMsg codec opcode data = some msg ∧
      ((attempt.took (s.nextBuffer codec opcode data) = true ∧
          msg.frames <:+: s.nextBuffer codec opcode data ∧
          (s.queueAndFlush codec opcode data
            (attempt.sink (s.nextBuffer codec opcode data))).1.written =
              s.written ++ s.nextBuffer codec opcode data) ∨
        (msg ∈ (s.sendVia codec opcode data attempt).1.ctx.sendQueue ∧
          (s.sendVia codec opcode data attempt).1.writeError = false))

/-- A transport that only lacks room does not cost the session its sending half. -/
def KeepsWriting (codec : Codec) (s : Session) (transport : Transport) (high : Nat) (data : Bytes)
    (binary : Bool) : Prop :=
  transport.lacksRoom
      (s.nextBuffer codec (if binary then .binaryFrame else .textFrame) data) = true →
    (s.trySendVia codec transport high data binary).1.writeError = s.writeError

/-- The call writes: its message can be queued, nobody else flushes and no write has failed. -/
def Writes (codec : Codec) (s : Session) (opcode : Opcode) (data : Bytes) : Prop :=
  (∃ s', s.queueMessage codec opcode data = .ok s') ∧ s.flushing = false ∧ s.writeError = false

/-! ## The message and the queue -/

variable {s : Session}

theorem queueMessage_error (failed : s.queueMessage codec opcode data = .error rc) : rc ≠ .ok := by
  grind [queueMessage]

theorem driveSend_failed (unparked : s.parked = none) (failed : s.writeError = true)
    (noClose : s.ctx.closeQueued = false) (writing : s.ctx.writeEnabled = true)
    (waiting : s.ctx.sendCtrlQueue ++ s.ctx.sendQueue ≠ []) (sink : Sink) :
    (s.driveSend sink).2 = some .callbackFailure ∧ (s.driveSend sink).1.flushing = false := by
  have refused := Ctx.eventSend_refused writing noClose waiting
  rcases sent : s.ctx.eventSend true with ⟨ctx, frames, rc⟩
  rw [sent, Prod.mk.injEq] at refused
  obtain ⟨rfl, rfl⟩ := refused
  simp [driveSend, eventSend, flushOutput, failed, sent, unparked]

theorem parked_meanwhile (codec : Codec) (ledger : Ledger s) (held : s.flushing = true)
    (calls : List Call) : ((calls.filter (!·.ends)).foldl (step codec) s).parked = s.parked := by
  induction calls generalizing s with
  | nil => rfl
  | cons call calls ih =>
    cases ends : call.ends with
    | true => simpa [ends] using ih ledger held
    | false =>
      have noResume : ∀ ok, call ≠ .resume ok := by
        rintro ok rfl
        cases ends
      have effect := Effect.of_step codec s noResume
      cases effect with
      | queues more queued _ =>
        simp only [List.filter_cons, ends, Bool.not_false, if_true, List.foldl_cons]
        rw [ih (ledger.step codec call) (queued.flushing.trans held), queued.parked]
      | drives _ _ _ _ free _ =>
        rw [held] at free
        cases free

/-! ## The report -/

section

variable {codec : Codec} {s s1 : Session} {opcode : Opcode} {data : Bytes}

theorem sendVia_refused
    (failed : s.queueMessage codec opcode data = .error rc) (attempt : Attempt) :
    s.sendVia codec opcode data attempt = (s, rc) := by
  unfold sendVia queueAndFlush
  rw [failed]

theorem sendVia_held (queued : s.queueMessage codec opcode data = .ok s1) (held : s1.flushing = true)
    (attempt : Attempt) : s.sendVia codec opcode data attempt = (s1, .ok) := by
  unfold sendVia queueAndFlush
  simp only [queued, held, if_true]

theorem queueAndFlush_free (queued : s.queueMessage codec opcode data = .ok s1)
    (free : s1.flushing = false) (sink : Sink) :
    s.queueAndFlush codec opcode data sink = ((s1.driveSend sink).1,
      if (s1.driveSend sink).1.flushing then none else some (sendRc (s1.driveSend sink).2)) := by
  unfold queueAndFlush
  simp [queued, free]

/-- What a write that the session makes leaves behind: it is reported as sent, whatever the transport
made of it, and a write that was not taken is either lost on the session or has failed it. -/
theorem sendVia_writes (ledger : Ledger s1) (queued : s.queueMessage codec opcode data = .ok s1)
    (free : s1.flushing = false) (noError : s1.writeError = false)
    (noClose : s1.ctx.closeQueued = false) (attempt : Attempt) :
    (s.sendVia codec opcode data attempt).2 = .ok ∧
      (s.queueAndFlush codec opcode data (attempt.sink s1.buffer)).1.written =
        s1.written ++ s1.buffer ∧
      (attempt.took s1.buffer = false → (s.sendVia codec opcode data attempt).1.writeError = false →
        (s.sendVia codec opcode data attempt).1.ctx.sendQueue = []) := by
  have next : s.nextBuffer codec opcode data = s1.buffer := by
    unfold nextBuffer
    rw [queued]
  obtain ⟨rc, drained⟩ := ledger.driveSend free noError noClose (attempt.sink s1.buffer)
  have ledger' := ledger.drives free (attempt.sink s1.buffer)
  have flushed := queueAndFlush_free queued free (attempt.sink s1.buffer)
  unfold sendVia
  rw [next, flushed]
  cases held : (s1.driveSend (attempt.sink s1.buffer)).1.flushing with
  | false => exact ⟨congrArg sendRc rc, drained.written, fun _ _ => drained.sendQueue⟩
  | true =>
    have parked := drained.parked held
    simp only [if_true, parked, Option.getD_some, sendRc, true_and]
    -- Only a producer's write suspends, and it has failed if it was not taken.
    cases attempt with
    | internal transport =>
      have answer := (drained.suspends.mp held).2
      unfold Attempt.sink at answer
      cases reported : transport.reports s1.buffer <;> simp [reported, Session.Sink.answer] at answer
    | producer write =>
      cases write with
      | accepted | refused => cases (drained.suspends.mp held).2
      | suspended meanwhile ok =>
        refine ⟨drained.written, ?_⟩
        rintro rfl noError'
        have stays := parked_meanwhile codec ledger' held meanwhile
        rw [parked] at stays
        simp [finish, resume, stays] at noError'

/-- What a message that could be queued has left behind. -/
structure Queued (codec : Codec) (opcode : Opcode) (data : Bytes) (msg : Omsg) (s s1 : Session) :
    Prop where
  queued : s.queueMessage codec opcode data = .ok s1
  message : s.sendMsg codec opcode data = some msg
  enqueues : Enqueues [msg] s s1
  queue : s1.ctx.sendQueue = s.ctx.sendQueue ++ [msg]
  noClose : s1.ctx.closeQueued = false
  writing : s1.ctx.writeEnabled = true

theorem Queued.of_queueMessage (kind : opcode.isCtrlFrame = false)
    (queued : s.queueMessage codec opcode data = .ok s1) : ∃ msg, Queued codec opcode data msg s s1 := by
  have noCtrl : opcode ≠ .connectionClose := by
    rintro rfl
    cases kind
  obtain ⟨payload, rsv, compressed, queues⟩ := Enqueues.queueMessage noCtrl queued
  obtain ⟨queueable, closing⟩ := queueMessage_open queued
  have message : s.sendMsg codec opcode data = some (s.payloadMsg opcode payload rsv) := by
    rw [sendMsg, compressed]
    rfl
  have queue : s1.ctx.sendQueue = s.ctx.sendQueue ++ [s.payloadMsg opcode payload rsv] := by
    rw [queues.queues.data]
    simp [dataMsgs, payloadMsg, kind]
  have noClose : s1.ctx.closeQueued = false := by simp_all [Ctx.isMsgQueueable]
  have writing : s1.ctx.writeEnabled = true := by
    rw [queues.queues.writing]
    simp_all [Ctx.isMsgQueueable]
  exact ⟨_, queued, message, queues, queue, noClose, writing⟩

namespace Queued

variable {msg : Omsg}

section

variable (done : Queued codec opcode data msg s s1)
include done

theorem nextBuffer : s.nextBuffer codec opcode data = s1.buffer := by
  unfold Session.nextBuffer
  rw [done.queued]

theorem frames_infix : msg.frames <:+: s1.buffer := by
  unfold buffer
  rw [done.queue, framesOf_append, framesOf_append]
  refine ⟨framesOf s1.ctx.sendCtrlQueue ++ framesOf s.ctx.sendQueue, [], ?_⟩
  simp [framesOf]

theorem faithful_held (ledger : Ledger s)
    (held : s.flushing = true) (attempt : Attempt) : Faithful codec s opcode data attempt := by
  have held1 := done.enqueues.flushing.trans held
  intro _
  refine ⟨msg, done.message, .inr ?_⟩
  rw [sendVia_held done.queued held1 attempt]
  exact ⟨by simp [done.queue], (ledger.enqueues done.enqueues).held held1⟩

theorem faithful_failed (ledger : Ledger s)
    (free : s.flushing = false) (failed : s.writeError = true) (attempt : Attempt) :
    Faithful codec s opcode data attempt := by
  have free1 := done.enqueues.flushing.trans free
  have unparked := (ledger.enqueues done.enqueues).unparked free1
  have waiting : s1.ctx.sendCtrlQueue ++ s1.ctx.sendQueue ≠ [] := by simp [done.queue]
  obtain ⟨rc, idle⟩ := driveSend_failed unparked (done.enqueues.writeError.trans failed) done.noClose
    done.writing waiting (attempt.sink s1.buffer)
  intro reported
  unfold sendVia at reported
  rw [done.nextBuffer, queueAndFlush_free done.queued free1, idle, rc] at reported
  cases reported

theorem faithful_writes (ledger : Ledger s)
    (free : s.flushing = false) (noError : s.writeError = false) (attempt : Attempt) :
    Faithful codec s opcode data attempt ↔
      attempt.took (s.nextBuffer codec opcode data) = true := by
  obtain ⟨rc, written, lost⟩ := sendVia_writes (ledger.enqueues done.enqueues) done.queued
    (done.enqueues.flushing.trans free) (done.enqueues.writeError.trans noError) done.noClose attempt
  rw [done.enqueues.written] at written
  unfold Faithful
  rw [done.nextBuffer]
  constructor
  · intro faithful
    obtain ⟨_, _, ⟨taken, _⟩ | ⟨waits, noError⟩⟩ := faithful rc
    · exact taken
    · by_contra untaken
      rw [lost (by simpa using untaken) noError] at waits
      cases waits
  · intro taken _
    exact ⟨msg, done.message, .inl ⟨taken, done.frames_infix, written⟩⟩

end

end Queued

theorem faithful_iff (ledger : Ledger s) (kind : opcode.isCtrlFrame = false) (attempt : Attempt) :
    Faithful codec s opcode data attempt ↔
      (Writes codec s opcode data → attempt.took (s.nextBuffer codec opcode data) = true) := by
  unfold Writes
  cases queued : s.queueMessage codec opcode data with
  | error rc =>
    refine iff_of_true ?_ (by simp)
    intro reported
    rw [sendVia_refused queued attempt] at reported
    exact absurd reported (queueMessage_error queued)
  | ok s1 =>
    obtain ⟨msg, done⟩ := Queued.of_queueMessage kind queued
    cases held : s.flushing with
    | true => exact iff_of_true (done.faithful_held ledger held attempt) (by simp)
    | false =>
      cases failed : s.writeError with
      | true => exact iff_of_true (done.faithful_failed ledger held failed attempt) (by simp)
      | false =>
        rw [done.faithful_writes ledger held failed attempt]
        simp

theorem trySendVia_idle (idle : ¬ Writes codec s (if binary then .binaryFrame else .textFrame) data)
    (transport : Transport) (high : Nat) :
    (s.trySendVia codec transport high data binary).1.writeError = s.writeError := by
  unfold trySendVia trySend
  generalize opcode_eq : (if binary then Opcode.binaryFrame else .textFrame) = opcode at idle ⊢
  have noCtrl : opcode ≠ .connectionClose := by
    subst opcode_eq
    cases binary <;> nofun
  split_ifs with closed full
  · rfl
  · rfl
  · unfold queueAndFlush
    cases queued : s.queueMessage codec opcode data with
    | error rc => rfl
    | ok s1 =>
      obtain ⟨_, _, _, queues⟩ := Enqueues.queueMessage noCtrl queued
      have held : s1.flushing = true := by
        by_contra free
        rw [queues.flushing] at free
        refine idle ⟨⟨_, queued⟩, by simpa using free, ?_⟩
        simp_all
      simp only [held, if_true]
      exact queues.writeError

end

/-- Every send of every session is reported as what it was, and a full transport stays harmless, just
where the write that the call makes is accepted. -/
theorem send_faithful_iff (codec : Codec) (role : Role) (history : List Call)
    (data : Bytes) (binary : Bool) (write : Write) (transport : Transport) (high : Nat) :
    let s := run codec role history
    let opcode : Opcode := if binary then .binaryFrame else .textFrame
    (Faithful codec s opcode data (.producer write) ∧
        Faithful codec s opcode data (.internal transport) ∧
        KeepsWriting codec s transport high data binary) ↔
      (Writes codec s opcode data →
        Attempt.took (s.nextBuffer codec opcode data) (.producer write) = true ∧
          transport.takes (s.nextBuffer codec opcode data) = true) := by
  intro s opcode
  have ledger : Ledger s := Ledger.run codec role history
  have kind : opcode.isCtrlFrame = false := by cases binary <;> rfl
  rw [faithful_iff ledger kind, faithful_iff ledger kind, ← and_assoc, ← imp_and]
  refine and_iff_left_of_imp (fun taken full => ?_)
  by_cases writes : Writes codec s opcode data
  · have untaken := Transport.not_takes full
    exact absurd (taken writes).2 (by simp [Attempt.took, opcode, untaken])
  · exact trySendVia_idle writes transport high

def brokenPlain : Transport := .plain true false 0

/-- The first message of a session is refused by the connection and reported as sent. -/
theorem refused_write_reported : let s := .run noCodec (.server {} false) []
    (s.sendVia noCodec .textFrame [0x61] (.producer .refused)).2 = .ok ∧
      (s.sendVia noCodec .textFrame [0x61] (.internal brokenPlain)).2 = .ok ∧
      ¬ Faithful noCodec s .textFrame [0x61] (.producer .refused) := by
  refine ⟨rfl, rfl, fun faithful => ?_⟩
  obtain ⟨_, _, ⟨taken, _⟩ | ⟨waits, _⟩⟩ := faithful rfl
  · cases taken
  · cases waits

-- A publish into a TLS connection whose `SSL_write` has room for two bytes only, fewer than the frame
-- has, ends the sending half of the session.
example : let s := run noCodec (.server {} false) []
    let tls : Transport := .tls false 2 0
    tls.lacksRoom (s.nextBuffer noCodec .textFrame [0x61]) = true ∧ s.writeError = false ∧
      (s.trySendVia noCodec tls 0 [0x61] false).1.writeError = true ∧
      (s.trySendVia noCodec tls 0 [0x61] false).2 = true := ⟨rfl, rfl, rfl, rfl⟩

end TrueAsync.Ws

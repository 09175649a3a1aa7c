import TrueAsync.Lib.History
import TrueAsync.Websocket.Session
import TrueAsync.Websocket.WslayProps

/-!
# The flusher role

A caller that finds `flushing` set leaves its message in the queue of the framing library and relies
on the flusher. `Effect` says once what a call does to the sending half of a session: it queues some
messages, and then drives the queue out unless somebody else holds the role. The flusher drives the
queue before its write, not after, so what is queued during a suspended write stays there.
-/

namespace TrueAsync.Ws

open TrueAsync.Lib TrueAsync.Wslay Session List

/-! ## What a call does -/

/-- Some messages were queued; the rest of the sending half is the same. -/
structure Enqueues (more : List Omsg) (s s' : Session) : Prop where
  queues : Queues more s.ctx s'.ctx
  sendBuf : s'.sendBuf = s.sendBuf
  flushing : s'.flushing = s.flushing
  parked : s'.parked = s.parked
  writeError : s'.writeError = s.writeError
  written : s'.written = s.written
  peerClosed : s.peerClosed = true → s'.peerClosed = true
  overflow : (s.recvOverflow = true → s.peerClosed = true) → s'.recvOverflow = true →
    s'.peerClosed = true

namespace Enqueues

variable {s s' s'' : Session} {more more' : List Omsg}

theorem refl (s : Session) : Enqueues [] s s := ⟨.refl _, rfl, rfl, rfl, rfl, rfl, id, id⟩

theorem ofCtx {ctx : Ctx} (queues : Queues more s.ctx ctx) : Enqueues more s { s with ctx } :=
  ⟨queues, rfl, rfl, rfl, rfl, rfl, id, id⟩

theorem trans (first : Enqueues more s s') (second : Enqueues more' s' s'') :
    Enqueues (more ++ more') s s'' where
  queues := first.queues.trans second.queues
  sendBuf := second.sendBuf.trans first.sendBuf
  flushing := second.flushing.trans first.flushing
  parked := second.parked.trans first.parked
  writeError := second.writeError.trans first.writeError
  written := second.written.trans first.written
  peerClosed := second.peerClosed ∘ first.peerClosed
  overflow := second.overflow ∘ first.overflow

theorem markPeerClosed (s : Session) : Enqueues [] s s.markPeerClosed :=
  { refl s with peerClosed := fun _ => rfl, overflow := fun _ _ => rfl }

theorem queueClose (s : Session) (statusCode : Nat) :
    ∃ more, Enqueues more s (s.queueClose statusCode) ∧ dataMsgs more = [] := by
  unfold Session.queueClose
  split
  · rename_i queued
    exact ⟨_, ofCtx (.queueClose queued), rfl⟩
  · exact ⟨[], refl s, rfl⟩

theorem enqueue (s : Session) (binary : Bool) (data : Bytes) :
    ∃ more, Enqueues more s (s.enqueue binary data) ∧ dataMsgs more = [] := by
  unfold Session.enqueue
  split
  · obtain ⟨more, closes, ctrl⟩ := queueClose { s with
      recvOverflow := true
      closeCode := if s.closeCode = 0 then 1013 else s.closeCode } 1013
    exact ⟨more, { closes with peerClosed := fun _ => rfl, overflow := fun _ _ => rfl }, ctrl⟩
  · exact ⟨[], { refl s with }, rfl⟩

theorem onMsgRecv (codec : Codec) (s : Session) (arg : Ctx.OnMsgRecvArg) :
    ∃ more, Enqueues more s (s.onMsgRecv codec arg) ∧ dataMsgs more = [] := by
  unfold Session.onMsgRecv
  split
  · refine ⟨[], ?_, rfl⟩
    split
    · exact { refl s with peerClosed := fun _ => rfl, overflow := fun _ _ => rfl }
    · exact { refl s with }
    · exact refl s
  · split
    · split
      · have marked : Enqueues [] s { s with pmceError := true } := { refl s with }
        obtain ⟨more, closes, ctrl⟩ := queueClose { s with pmceError := true } 1009
        refine ⟨more ++ [], (marked.trans closes).trans (markPeerClosed _), ?_⟩
        rw [append_nil, ctrl]
      · exact enqueue s _ _
    · exact enqueue s _ _

theorem recvOne (codec : Codec) (s : Session) (frame : FrameRecv) :
    ∃ more, Enqueues more s (s.recvOne codec frame).1 ∧ dataMsgs more = [] := by
  obtain ⟨more, queues, ctrl⟩ := Queues.recvFrame s.ctx frame
  unfold Session.recvOne
  cases outcome : s.ctx.recvFrame frame with
  | more ctx | stop ctx rc =>
    rw [outcome] at queues
    exact ⟨more, ofCtx queues, ctrl⟩
  | message ctx arg =>
    rw [outcome] at queues
    obtain ⟨more', called, ctrl'⟩ := onMsgRecv codec { s with ctx } arg
    refine ⟨more ++ (more' ++ []), (ofCtx queues).trans (called.trans (ofCtx (.endMessage _))), ?_⟩
    simp [ctrl, ctrl']

theorem eventRecv (codec : Codec) (s : Session) (frames : List FrameRecv) :
    ∃ more, Enqueues more s (s.eventRecv codec frames).1 ∧ dataMsgs more = [] := by
  induction frames generalizing s with
  | nil => exact ⟨[], refl s, rfl⟩
  | cons frame frames ih =>
    unfold Session.eventRecv
    split
    · obtain ⟨more, one, ctrl⟩ := recvOne codec s frame
      rcases result : s.recvOne codec frame with ⟨s', _ | rc⟩
      · rw [result] at one
        obtain ⟨more', later, ctrl'⟩ := ih s'
        refine ⟨more ++ more', one.trans later, ?_⟩
        simp [ctrl, ctrl']
      · grind
    · exact ⟨[], refl s, rfl⟩

variable {opcode : Opcode} {data : Bytes}

theorem queuePayload {rsv : Rsv} (kind : opcode ≠ .connectionClose)
    (done : s.queuePayload opcode data rsv = .ok s') :
    Enqueues [s.payloadMsg opcode data rsv] s s' := by
  obtain ⟨ctx, rfl, ⟨whole, queued⟩ | ⟨cut, queued⟩⟩ := queuePayload_ok done
  · have queues := ofCtx (Queues.queueMsgEx kind queued)
    rwa [← whole] at queues
  · have queues := ofCtx (Queues.queueFragmentedMsgEx queued)
    rwa [← cut] at queues

theorem queueMessage (kind : opcode ≠ .connectionClose)
    (done : s.queueMessage codec opcode data = .ok s') :
    ∃ payload rsv, s.compress codec data = some (payload, rsv) ∧
      Enqueues [s.payloadMsg opcode payload rsv] s s' := by
  grind [queueMessage, queuePayload]

theorem feedEnd (s : Session) (rc : Option Err) : Enqueues [] s (s.feedEnd rc).1 := by
  have closed : Enqueues [] s s.closeCodeSent.markPeerClosed := by
    unfold closeCodeSent
    split
    · exact { refl s with peerClosed := fun _ => rfl, overflow := fun _ _ => rfl }
    · exact markPeerClosed s
  grind [feedEnd, refl, markPeerClosed]

theorem feedEnd_ctx (rc : Option Err) : (s.feedEnd rc).1.ctx = s.ctx := by
  unfold Session.feedEnd Session.closeCodeSent
  split_ifs <;> rfl

end Enqueues

def Session.Call.sink : Call → Sink
  | .send _ _ sink => sink
  | .ping _ answer | .close _ _ answer => .producer answer
  | .publish _ _ _ _ _ ok | .closeInternalError ok | .pingTimer ok | .pongTimer ok | .feed _ ok =>
    .internal ok
  | .resume ok => .internal ok
  | .recv | .peerClosed => .internal true

def Session.Call.hasData : Call → Bool
  | .send .. | .publish .. => true
  | _ => false

variable {s s' : Session}

theorem queueMessage_open (queued : s.queueMessage codec opcode data = .ok s') :
    s.ctx.isMsgQueueable = true ∧ s'.ctx.closeQueued = s.ctx.closeQueued := by
  grind [queueMessage, queuePayload_ok, queueMsgEx_open, queueFragmentedMsgEx_open]

/-- What a call, other than the end of a suspended write, does to the sending half: it queues some
messages and leaves them there, because there are none, nothing is to be written or somebody holds
the role; or it takes the role and drives the queue. -/
inductive Effect (call : Call) (s s' : Session) : Prop
  | queues (more : List Omsg) (queued : Enqueues more s s')
      (idle : more = [] ∨ s.flushing = true ∨ s'.ctx.wantWrite = false ∧ dataMsgs more = [])
  | drives (more : List Omsg) (s1 : Session) (queued : Enqueues more s s1)
      (kind : dataMsgs more = [] ∨ call.hasData = true ∧ s1.ctx.closeQueued = false)
      (free : s.flushing = false)
      (driven : Enqueues [] (s1.driveSend call.sink).1 s')

namespace Effect

variable {call : Call} {s s' : Session}

theorem refl (call : Call) (s : Session) : Effect call s s := .queues [] (.refl s) (.inl rfl)

theorem driveIfIdle (queued : Enqueues more s s')
    (kind : dataMsgs more = [] ∨ call.hasData = true ∧ s'.ctx.closeQueued = false) :
    Effect call s (s'.driveIfIdle call.sink) := by
  unfold Session.driveIfIdle
  split
  · rename_i held
    exact .queues more queued (.inr (.inl (queued.flushing.symm.trans held)))
  · have role : s.flushing = false := by grind [Enqueues.flushing]
    exact .drives more s' queued kind role (.refl _)

theorem marked (effect : Effect call s s') {s'' : Session} (marks : Enqueues [] s' s'')
    (same : s''.ctx = s'.ctx) : Effect call s s'' := by
  cases effect with
  | queues more queued idle =>
    have queued' := queued.trans marks
    rw [append_nil] at queued'
    exact .queues more queued' (by rwa [same])
  | drives more s1 queued kind free driven =>
    exact .drives more s1 queued kind free (driven.trans marks)

theorem queueAndFlush (codec : Codec) (s : Session)
    (kind : opcode ≠ .connectionClose) (data : Bytes) (hasData : call.hasData = true) :
    Effect call s (s.queueAndFlush codec opcode data call.sink).1 := by
  unfold Session.queueAndFlush
  split
  · exact refl call s
  · rename_i s1 queued
    obtain ⟨payload, rsv, _, queues⟩ := Enqueues.queueMessage kind queued
    obtain ⟨queueable, closing⟩ := queueMessage_open queued
    have noClose : s1.ctx.closeQueued = false := by simp_all [Ctx.isMsgQueueable]
    have drives : Effect call s (s1.driveIfIdle call.sink) :=
      driveIfIdle queues (.inr ⟨hasData, noClose⟩)
    grind [Session.driveIfIdle]

theorem of_step (codec : Codec) (s : Session) (noResume : ∀ ok, call ≠ .resume ok) :
    Effect call s (s.step codec call) := by
  cases call with
  | send binary data sink => exact queueAndFlush codec s (by cases binary <;> decide) data rfl
  | publish binary data high sendable outbound ok =>
    change Effect _ s (s.trySend codec data binary high sendable outbound ok).1
    unfold trySend
    split
    · exact refl _ s
    · split
      · exact refl _ s
      · exact queueAndFlush codec s (by cases binary <;> decide) data rfl
  | ping payload answer =>
    change Effect _ s (s.ping payload answer)
    unfold ping
    split
    · exact refl _ s
    · rename_i queued
      exact driveIfIdle (.ofCtx (Queues.queueMsgEx (by decide) queued)) (.inl rfl)
  | close status reason answer =>
    change Effect _ s (s.close status reason answer)
    unfold close
    split
    · exact refl _ s
    · rename_i queued
      exact driveIfIdle (.ofCtx (Queues.queueClose queued)) (.inl rfl)
  | closeInternalError ok =>
    change Effect _ s (s.closeInternalError ok)
    unfold closeInternalError
    split
    · exact refl _ s
    · obtain ⟨more, closes, ctrl⟩ := Enqueues.queueClose s 1011
      have role : s.flushing = false := by simp_all
      exact .drives more _ closes (.inl ctrl) role (.refl _)
  | pingTimer ok =>
    change Effect _ s (s.pingTimerFire ok)
    unfold pingTimerFire
    split
    · exact refl _ s
    · split
      · exact refl _ s
      · rename_i queued
        have drives : Effect (.pingTimer ok) s _ :=
          driveIfIdle (.ofCtx (Queues.queueMsgEx (by decide) queued)) (.inl rfl)
        dsimp only
        split
        · exact drives.marked { Enqueues.refl _ with } rfl
        · exact drives
  | pongTimer ok =>
    change Effect _ s (s.pongTimerFire ok)
    unfold pongTimerFire
    split
    · exact refl _ s
    · have cleared : Enqueues [] s { s with pongPending := false } := { Enqueues.refl s with }
      obtain ⟨more, closes, ctrl⟩ := Enqueues.queueClose { s with pongPending := false } 1001
      have drives : Effect (.pongTimer ok) s _ := driveIfIdle (cleared.trans closes) (.inl ctrl)
      exact drives.marked (.markPeerClosed _) rfl
  | feed frames ok =>
    obtain ⟨more, received, ctrl⟩ := Enqueues.eventRecv codec s frames
    refine marked ?_ (.feedEnd _ _) (Enqueues.feedEnd_ctx _)
    unfold feedReply
    split
    · rename_i drives
      have free := (Bool.and_eq_true_iff.mp drives).1
      rw [received.flushing] at free
      exact .drives more _ received (.inl ctrl) (by simpa using free) (.refl _)
    · refine .queues more received (.inr ?_)
      grind [Enqueues.flushing]
  | resume ok => exact absurd rfl (noResume ok)
  | recv =>
    change Effect _ s s.recvPop.1
    unfold recvPop
    split
    · exact refl _ s
    · exact .queues [] { Enqueues.refl s with } (.inl rfl)
  | peerClosed => exact .queues [] (.markPeerClosed s) (.inl rfl)

end Effect

/-! ## The books -/

def dataFrames (frames : List Frame) : List Frame := frames.filter (!·.opcode.isCtrlFrame)

def ctrlFrames (frames : List Frame) : List Frame := frames.filter (·.opcode.isCtrlFrame)

/-- The session is closed, by the peer or by a CLOSE that is on its way. -/
def Session.closed (s : Session) : Bool := s.peerClosed || s.ctx.closeQueued

/-- The books of a session that may still write: what was handed to the transport and what is queued
is what was ever queued, in order. -/
structure Books (s : Session) : Prop where
  writing : s.ctx.writeEnabled = true
  idle : s.ctx.omsg = none
  data : dataFrames s.written ++ framesOf s.ctx.sendQueue = framesOf (dataMsgs s.ctx.queued)
  ctrl : ctrlFrames s.written ++ framesOf s.ctx.sendCtrlQueue = framesOf (ctrlMsgs s.ctx.queued)

/-- The invariant of the sending half. -/
structure Ledger (s : Session) : Prop where
  role : s.flushing = s.parked.isSome
  emptied : s.parked = none → s.sendBuf = []
  held : s.flushing = true → s.writeError = false
  data : ∀ msg ∈ s.ctx.sendQueue, msg.opcode.isCtrlFrame = false
  ctrl : ∀ msg ∈ s.ctx.sendCtrlQueue, msg.opcode.isCtrlFrame = true ∧ msg.frag = none
  closes : ∀ msg ∈ s.ctx.sendCtrlQueue, msg.opcode = .connectionClose → s.ctx.closeQueued = true
  books : s.writeError = false → s.ctx.closeQueued = false → Books s

theorem framesOf_filter (all : ∀ msg ∈ msgs, ∀ frame ∈ msg.frames, p frame = true) :
    (framesOf msgs).filter p = framesOf msgs ∧ (framesOf msgs).filter (!p ·) = [] := by
  have every : ∀ frame ∈ framesOf msgs, p frame = true := by
    intro frame member
    obtain ⟨msg, inMsgs, inFrames⟩ := mem_flatMap.mp member
    exact all msg inMsgs frame inFrames
  simp_all

namespace Ledger

variable {s s' : Session} {more : List Omsg}

theorem ctrlQueue (ledger : Ledger s) :
    ctrlFrames (framesOf s.ctx.sendCtrlQueue) = framesOf s.ctx.sendCtrlQueue ∧
      dataFrames (framesOf s.ctx.sendCtrlQueue) = [] := by
  apply framesOf_filter
  grind [ctrl, Omsg.frames]

theorem dataQueue (ledger : Ledger s) :
    dataFrames (framesOf s.ctx.sendQueue) = framesOf s.ctx.sendQueue ∧
      ctrlFrames (framesOf s.ctx.sendQueue) = [] := by
  have all : ∀ msg ∈ s.ctx.sendQueue, ∀ frame ∈ msg.frames, (!frame.opcode.isCtrlFrame) = true := by
    intro msg member frame inFrames
    rw [frames_data (ledger.data msg member) frame inFrames]
    rfl
  have filtered := framesOf_filter (p := fun frame => !frame.opcode.isCtrlFrame) all
  simpa only [dataFrames, ctrlFrames, Bool.not_not] using filtered

theorem enqueues (ledger : Ledger s) (queued : Enqueues more s s') : Ledger s' := by
  have queues := queued.queues
  refine ⟨?_, ?_, ?_, ?_, ?_, ?_, ?_⟩
  · rw [queued.flushing, queued.parked]
    exact ledger.role
  · rw [queued.parked, queued.sendBuf]
    exact ledger.emptied
  · rw [queued.flushing, queued.writeError]
    exact ledger.held
  · rw [queues.data]
    intro msg member
    rcases mem_append.mp member with old | new
    · exact ledger.data msg old
    · simpa using (mem_filter.mp new).2
  · rw [queues.ctrl]
    intro msg member
    rcases mem_append.mp member with old | new
    · exact ledger.ctrl msg old
    · exact ⟨(mem_filter.mp new).2, queues.whole msg new⟩
  · rw [queues.ctrl]
    intro msg member close
    rcases mem_append.mp member with old | new
    · exact queues.closing (ledger.closes msg old close)
    · exact queues.closes msg (mem_filter.mp new).1 close
  · intro noError noClose
    have books := ledger.books (queued.writeError.symm.trans noError)
      (Bool.eq_false_iff.mpr (fun close => nomatch (queues.closing close).symm.trans noClose))
    refine ⟨queues.writing.trans books.writing, queues.omsg.trans books.idle, ?_, ?_⟩
    · rw [queued.written, queues.data, queues.queued, framesOf_append, ← append_assoc,
        books.data, dataMsgs_append, framesOf_append]
    · rw [queued.written, queues.ctrl, queues.queued, framesOf_append, ← append_assoc,
        books.ctrl, ctrlMsgs_append, framesOf_append]

end Ledger

/-- Some frames were handed to the transport, which answered. -/
structure Flushes (answer : Answer) (frames : List Frame) (s s' : Session) : Prop where
  written : s'.written = s.written ++ frames
  sendBuf : s'.sendBuf = if answer = .suspends then frames else []
  role : s'.flushing = s'.parked.isSome
  suspends : s'.flushing = true ↔ frames ≠ [] ∧ answer = .suspends
  refused : s'.writeError = true ↔ frames ≠ [] ∧ answer = .refused
  peerClosed : s'.peerClosed = s.peerClosed

theorem Ledger.unparked (ledger : Ledger s) (free : s.flushing = false) : s.parked = none := by
  rw [ledger.role] at free
  simpa using free

theorem driveSend_ctx (s : Session) (sink : Sink) :
    (s.driveSend sink).1.ctx = (s.ctx.eventSend s.writeError).1 := by
  grind [driveSend, eventSend, flushOutput]

/-- What a drive of a session without a write error does with the frames that the framing library
gives it. -/
theorem Ledger.flushes (ledger : Ledger s) (free : s.flushing = false)
    (noError : s.writeError = false) (sink : Sink) :
    Flushes sink.answer (s.ctx.eventSend false).2.1 s (s.driveSend sink).1 ∧
      ((s.driveSend sink).1.flushing = true →
        (s.driveSend sink).1.parked = some (s.ctx.eventSend false).2.2) := by
  have unparked := ledger.unparked free
  unfold driveSend eventSend
  simp only [noError, ledger.emptied unparked, nil_append]
  generalize (s.ctx.eventSend false).2.1 = frames
  unfold flushOutput
  by_cases none : frames = []
  · subst none
    simp only [true_or, if_true, unparked]
    exact ⟨⟨(append_nil _).symm, by simp, rfl, by simp, by simp, rfl⟩, nofun⟩
  · simp only [none, Bool.false_eq_true, or_self, if_false]
    cases sink.answer
    · exact ⟨⟨rfl, rfl, rfl, by simp [unparked], by simp, rfl⟩, by simp [unparked]⟩
    · exact ⟨⟨rfl, rfl, rfl, by simp [unparked], by simp [none], rfl⟩, by simp [unparked]⟩
    · exact ⟨⟨rfl, rfl, rfl, by simp [none], by simp, rfl⟩, fun _ => rfl⟩

/-- The whole queue was handed to the transport, which answered. -/
structure Drains (answer : Answer) (frames : List Frame) (s s' : Session) : Prop extends
    Flushes answer frames s s' where
  sendQueue : s'.ctx.sendQueue = []
  sendCtrlQueue : s'.ctx.sendCtrlQueue = []
  queued : s'.ctx.queued = s.ctx.queued
  writing : s'.ctx.writeEnabled = s.ctx.writeEnabled
  omsg : s'.ctx.omsg = s.ctx.omsg
  parked : s'.flushing = true → s'.parked = some none

theorem Ledger.driveSend (ledger : Ledger s) (free : s.flushing = false)
    (noError : s.writeError = false) (noClose : s.ctx.closeQueued = false) (sink : Session.Sink) :
    (s.driveSend sink).2 = none ∧
    Drains sink.answer (framesOf (s.ctx.sendCtrlQueue ++ s.ctx.sendQueue)) s (s.driveSend sink).1 := by
  have books := ledger.books noError noClose
  have plain : ∀ msg ∈ s.ctx.sendCtrlQueue ++ s.ctx.sendQueue, msg.opcode ≠ .connectionClose := by
    intro msg member close
    rcases mem_append.mp member with ctrl | data
    · grind [Ledger.closes]
    · have kind := ledger.data msg data
      rw [close] at kind
      cases kind
  obtain ⟨length, sent⟩ := Ctx.eventSend_open books.writing noClose books.idle plain
  obtain ⟨flushes, parked⟩ := ledger.flushes free noError sink
  have ctx := driveSend_ctx s sink
  rw [sent] at flushes parked
  rw [noError, sent] at ctx
  refine ⟨?_, flushes, ?_, ?_, ?_, ?_, ?_, parked⟩
  · unfold Session.driveSend Session.eventSend
    simp only [noError, sent]
  all_goals rw [ctx]

variable {sink : Sink}

theorem driveSend_writeError
    (noError : (s.driveSend sink).1.writeError = false) : s.writeError = false := by
  grind [driveSend, eventSend, flushOutput]

theorem driveSend_held (unparked : s.parked = none)
    (held : (s.driveSend sink).1.flushing = true) : (s.driveSend sink).1.writeError = false := by
  grind [driveSend, eventSend, flushOutput]

theorem driveSend_emptied (ended : (s.driveSend sink).1.parked = none) :
    (s.driveSend sink).1.sendBuf = [] := by
  grind [driveSend, flushOutput]

namespace Ledger

variable {s s' : Session}

theorem drives (ledger : Ledger s) (free : s.flushing = false) (sink : Sink) :
    Ledger (s.driveSend sink).1 := by
  obtain ⟨inData, inCtrl⟩ := Ctx.eventSend_subset s.writeError s.ctx
  obtain ⟨_, closing⟩ := Ctx.eventSend_queued s.writeError s.ctx
  rw [← driveSend_ctx s sink] at inData inCtrl closing
  have unparked := ledger.unparked free
  refine ⟨rfl, driveSend_emptied, driveSend_held unparked,
    fun msg member => ledger.data msg (inData member), fun msg member => ledger.ctrl msg (inCtrl member), ?_, ?_⟩
  · grind [closes]
  · intro noError noClose
    have noError' := driveSend_writeError noError
    have noClose' := closing.symm.trans noClose
    have books := ledger.books noError' noClose'
    obtain ⟨_, drained⟩ := ledger.driveSend free noError' noClose' sink
    refine ⟨drained.writing.trans books.writing, drained.omsg.trans books.idle, ?_, ?_⟩
    · rw [drained.written, drained.sendQueue, drained.queued, ← books.data, framesOf_append,
        dataFrames, filter_append, filter_append]
      grind [dataFrames, ctrlQueue, dataQueue, framesOf]
    · rw [drained.written, drained.sendCtrlQueue, drained.queued, ← books.ctrl, framesOf_append,
        ctrlFrames, filter_append, filter_append]
      grind [ctrlFrames, ctrlQueue, dataQueue, framesOf]

theorem resume (ledger : Ledger s) (ok : Bool) : Ledger (s.resume ok) := by
  unfold Session.resume
  split
  · exact ledger
  · refine ⟨rfl, fun _ => rfl, nofun, ledger.data, ledger.ctrl, ledger.closes, ?_⟩
    intro noError noClose
    have books := ledger.books (by simp_all) noClose
    exact { books with }

theorem step (codec : Codec) (ledger : Ledger s) (call : Call) : Ledger (s.step codec call) := by
  by_cases resumes : ∃ ok, call = .resume ok
  · obtain ⟨ok, rfl⟩ := resumes
    exact ledger.resume ok
  · cases Effect.of_step codec s (fun ok is => resumes ⟨ok, is⟩) with
    | queues more queued _ => exact ledger.enqueues queued
    | drives more s1 queued _ free driven =>
      have free' := queued.flushing.trans free
      exact ((ledger.enqueues queued).drives free' _).enqueues driven

theorem opened (role : Role) : Ledger (opened role) := by
  rcases role with ⟨config, _ | _⟩ | _ <;>
    exact ⟨rfl, fun _ => rfl, nofun, nofun, nofun, nofun, fun _ _ => ⟨rfl, rfl, rfl, rfl⟩⟩

theorem calls (codec : Codec) (ledger : Ledger s) (history : List Session.Call) :
    Ledger (history.foldl (Session.step codec) s) :=
  foldlRecOn history _ ledger fun _ ledger call _ => ledger.step codec call

theorem run (codec : Codec) (role : Session.Role) (history : List Session.Call) :
    Ledger (Session.run codec role history) :=
  (opened role).calls codec history

end Ledger

/-! ## Messages that are left behind -/

/-- Nothing is left in the queues of an open session that nobody flushes. -/
def Settled (s : Session) : Prop :=
  s.flushing = false → s.writeError = false → s.closed = false →
    s.ctx.sendQueue = [] ∧ s.ctx.sendCtrlQueue = []

/-- Whenever nobody holds the flusher role, every message that was queued has been handed to the
transport, data and control messages each in the order of their queue, unless the session has a
write error or is closed. -/
def HandedOver (s : Session) : Prop :=
  s.flushing = false → s.writeError = false → s.closed = false →
    dataFrames s.written = framesOf (dataMsgs s.ctx.queued) ∧
      ctrlFrames s.written = framesOf (ctrlMsgs s.ctx.queued)

theorem handedOver_iff (ledger : Ledger s) : HandedOver s ↔ Settled s := by
  have none {written queue all : List Frame} (books : written ++ queue = all) :
      written = all ↔ queue = [] := by
    rw [← books]
    exact self_eq_append_right.trans Iff.rfl
  refine forall_congr' fun free => forall_congr' fun noError => forall_congr' fun notClosed => ?_
  have books := ledger.books noError (by simp_all [closed])
  rw [none books.data, none books.ctrl, framesOf_eq_nil, framesOf_eq_nil]

/-- The condition under which no message is left behind: a write that was suspended and succeeds
finds the queues empty when it ends, or the session closed. -/
def NoneWaiting (s : Session) : Call → Prop
  | .resume true => s.flushing = true → s.writeError = false → s.closed = false →
      s.ctx.sendQueue = [] ∧ s.ctx.sendCtrlQueue = []
  | _ => True

theorem Enqueues.open (queued : Enqueues more s s')
    (notClosed : s'.closed = false) : s.closed = false := by
  have peer := queued.peerClosed
  have closing := queued.queues.closing
  unfold closed at notClosed ⊢
  simp_all

theorem Settled.resume (ledger : Ledger s) (settled : Settled s) (ok : Bool) :
    Settled (s.resume ok) ↔ NoneWaiting s (.resume ok) := by
  have role := ledger.role
  unfold Session.resume
  cases parked : s.parked with
  | none =>
    rw [parked] at role
    cases ok <;> simp [settled, NoneWaiting, role]
  | some rc =>
    rw [parked] at role
    cases ok with
    | false => simp [Settled, NoneWaiting]
    | true => simp [Settled, NoneWaiting, role, Session.closed]

theorem Settled.effect (ledger : Ledger s)
    (ledger' : Ledger s') (settled : Settled s) (effect : Effect call s s') : Settled s' := by
  intro free noError notClosed
  have noClose (st : Session) (isOpen : st.closed = false) : st.ctx.closeQueued = false := by
    simp_all [closed]
  cases effect with
  | queues more queued idle =>
    rcases idle with rfl | held | nothing
    · have before := settled (queued.flushing.symm.trans free) (queued.writeError.symm.trans noError)
        (queued.open notClosed)
      rw [queued.queues.data, queued.queues.ctrl, before.1, before.2]
      exact ⟨rfl, rfl⟩
    · rw [queued.flushing, held] at free
      cases free
    · have books := ledger'.books noError (noClose s' notClosed)
      simpa [Ctx.wantWrite, books.writing, books.idle] using nothing.1
  | drives more s1 queued _ idle driven =>
    have noError1 := driveSend_writeError (driven.writeError.symm.trans noError)
    have noClose1 : s1.ctx.closeQueued = false := by
      have after := noClose _ (driven.open notClosed)
      rwa [driveSend_ctx, (Ctx.eventSend_queued s1.writeError s1.ctx).2] at after
    obtain ⟨_, drained⟩ := (ledger.enqueues queued).driveSend (queued.flushing.trans idle) noError1
      noClose1 call.sink
    rw [driven.queues.data, driven.queues.ctrl, drained.sendQueue, drained.sendCtrlQueue]
    exact ⟨rfl, rfl⟩

theorem Settled.step (codec : Codec) (ledger : Ledger s) (settled : Settled s)
    (call : Call) : Settled (s.step codec call) ↔ NoneWaiting s call := by
  by_cases resumes : ∃ ok, call = .resume ok
  · obtain ⟨ok, rfl⟩ := resumes
    exact settled.resume ledger ok
  · grind [NoneWaiting, Settled.effect, Ledger.step, Effect.of_step]

/-- Every message of every history is handed over exactly if no suspended write ends with messages
waiting in the queues of an open session. -/
theorem handed_over_iff (codec : Codec) (role : Role) (history : List Call) :
    (∀ past, past <+: history → HandedOver (run codec role past)) ↔
      Along (fun past call => NoneWaiting (run codec role past) call) history := by
  apply Along.holds_iff (I := Ledger) (P := HandedOver)
  · exact fun s call ledger => ledger.step codec call
  · intro s call ledger handed
    rw [handedOver_iff (ledger.step codec call)]
    exact ((handedOver_iff ledger).mp handed).step codec ledger call
  · exact Ledger.opened role
  · rw [handedOver_iff (Ledger.opened role)]
    rcases role with ⟨config, _ | _⟩ | _ <;> exact fun _ _ _ => ⟨rfl, rfl⟩

/-- The calls of two coroutines: while the write of the first is suspended the second sends `b`,
which is reported as sent, and then the write ends. -/
def secondSender : List Call :=
  [.send false [0x61] (.producer .suspends), .send false [0x62] (.producer .accepted), .resume true]

def noCodec : Codec := ⟨fun _ => none, fun _ => none⟩

/-- Nobody flushes, nothing went wrong, and `b` is still in the queue. -/
theorem second_message_stranded : let before := run noCodec (.server {} false) (secondSender.take 1)
    let s := run noCodec (.server {} false) secondSender
    (before.queueAndFlush noCodec .textFrame [0x62] (.producer .accepted)).2 = some .ok ∧
      s.flushing = false ∧ s.writeError = false ∧ s.closed = false ∧
      s.written = [⟨true, {}, .textFrame, [0x61]⟩] ∧
      s.ctx.sendQueue = [⟨.textFrame, {}, [0x62], none⟩] := by
  exact ⟨rfl, rfl, rfl, rfl, rfl, rfl⟩

end TrueAsync.Ws

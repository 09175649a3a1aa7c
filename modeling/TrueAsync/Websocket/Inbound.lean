import TrueAsync.Lib.History
import TrueAsync.Websocket.Session
import TrueAsync.Websocket.WslayProps

/-!
# Text that reaches the application

Validation of inbound text is split: the framing library checks text without RSV1 as it comes, and
`ws_session_on_msg_recv_callback` inflates the rest. The invariant `Checked` ties the state of the
UTF-8 automaton to the bytes gathered so far; it is kept by every call, and gives that whatever was
received uncompressed is well formed. Inflated text is queued as it is.
-/

namespace TrueAsync.Ws

open TrueAsync.Lib TrueAsync.Wslay Session List Ctx

/-! ## The automaton and the bytes -/

theorem imsg_setImsg (ctx : Ctx) (imsg : Imsg) : (ctx.setImsg imsg).imsg = imsg := by
  unfold Ctx.setImsg Ctx.imsg
  cases ctx.onCtrl <;> simp

theorem imsg_takeData (ctx : Ctx) (state : Nat) (data : Bytes) : (ctx.takeData state data).imsg =
      { ctx.imsg with utf8state := state, chunks := ctx.imsg.chunks ++ data } :=
  imsg_setImsg _ _

/-- What the fields of a message that is being received have to do with each other. -/
structure Gathered (allowed : Bool) (imsg : Imsg) : Prop where
  idle : imsg.opcode = none → imsg.chunks = [] ∧ imsg.utf8state = utf8Accept
  text : imsg.opcode = some .textFrame → imsg.rsv.rsv1 = false →
    imsg.utf8state = imsg.chunks.foldl decode utf8Accept
  rsv : imsg.rsv.rsv1 = true → allowed = true
  known : ∀ opcode ∈ imsg.opcode,
    opcode = .textFrame ∨ opcode = .binaryFrame ∨ opcode.isCtrlFrame = true

/-- The same for both messages of a context. -/
structure Checked (ctx : Ctx) : Prop where
  imsg0 : Gathered ctx.allowedRsv1 ctx.imsg0
  imsg1 : Gathered ctx.allowedRsv1 ctx.imsg1

namespace Checked

variable {ctx ctx' : Ctx} {iocb : Iocb}

section

variable (checked : Checked ctx)
include checked

theorem same (same : SameReading ctx ctx') : Checked ctx' where
  imsg0 := by
    rw [same.allowed, same.imsg0]
    exact checked.imsg0
  imsg1 := by
    rw [same.allowed, same.imsg1]
    exact checked.imsg1

theorem imsg : Gathered ctx.allowedRsv1 ctx.imsg := by
  unfold Ctx.imsg
  split
  · exact checked.imsg1
  · exact checked.imsg0

theorem setImsg {imsg : Imsg} (gathered : Gathered ctx.allowedRsv1 imsg) :
    Checked (ctx.setImsg imsg) := by
  unfold Ctx.setImsg
  split
  · exact ⟨checked.imsg0, gathered⟩
  · exact ⟨gathered, checked.imsg1⟩

theorem newFrame {payloadLength : Nat}
    (done : ctx.newFrame payloadLength = .ok ctx') : Checked ctx' := by
  unfold Ctx.newFrame at done
  split at done
  · cases done
  · cases done
    have gathered := checked.imsg
    have sized : Checked { ctx with ipayloadlen := payloadLength } := { checked with }
    exact sized.setImsg { gathered with }

end

theorem imsgSet (allows : iocb.rsv.rsv1 = true → ctx.allowedRsv1 = true)
    (known : iocb.opcode = .textFrame ∨ iocb.opcode = .binaryFrame ∨ iocb.opcode.isCtrlFrame = true)
    {imsg : Imsg} (fresh : iocb.opcode = .textFrame → imsg.chunks = [] ∧ imsg.utf8state = utf8Accept) :
    Gathered ctx.allowedRsv1 (Ctx.imsgSet imsg iocb) where
  idle := nofun
  text := by
    intro text _
    obtain ⟨chunks, state⟩ := fresh (Option.some.inj text)
    simp [Ctx.imsgSet, chunks, state]
  rsv := allows
  known := by
    rintro opcode ⟨⟩
    exact known

theorem accept (checked : Checked ctx) (allows : iocb.rsv.rsv1 = true → ctx.allowedRsv1 = true)
    (done : ctx.accept iocb = .ok ctx') : Checked ctx' := by
  have gathered := checked.imsg
  unfold Ctx.accept at done
  split at done
  · rename_i idle
    have opens (known : iocb.opcode = .textFrame ∨ iocb.opcode = .binaryFrame ∨
        iocb.opcode.isCtrlFrame = true) : Checked (ctx.setImsg (Ctx.imsgSet ctx.imsg iocb)) :=
      checked.setImsg (imsgSet allows known (fun _ => gathered.idle idle))
    split at done
    all_goals first
      | cases done
      | rename_i opcode
        exact (opens (by rw [opcode]; decide)).newFrame done
  · have goesOn : Gathered ctx.allowedRsv1 { ctx.imsg with fin := iocb.fin } := { gathered with }
    have inside (ctrl : iocb.opcode.isCtrlFrame = true) :
        Checked { ctx with onCtrl := true, imsg1 := Ctx.imsgSet ctx.imsg1 iocb } :=
      ⟨checked.imsg0, imsgSet allows (.inr (.inr ctrl)) (fun text => nomatch text ▸ ctrl)⟩
    split at done
    · split at done
      all_goals first
        | exact (checked.setImsg goesOn).newFrame done
        | rename_i ctrl
          exact (inside (by rw [ctrl]; decide)).newFrame done
        | cases done
    · cases done
      exact checked

variable {opcode : Opcode}

theorem takeData (checked : Checked ctx) (current : ctx.imsg.opcode = some opcode)
    (data : Bytes) : Checked (ctx.takeData (utf8Next ctx.imsg opcode data) data) := by
  have gathered := checked.imsg
  have moved : Checked { ctx with ipayloadoff := ctx.ipayloadoff + data.length } := { checked with }
  apply moved.setImsg
  refine ⟨?_, ?_, gathered.rsv, gathered.known⟩
  · intro idle
    rw [current] at idle
    cases idle
  · intro text plain
    cases current.symm.trans text
    rw [foldl_append, ← gathered.text text plain]
    simp [utf8Next, show ctx.imsg.rsv.rsv1 = false from plain]

theorem endMessage (checked : Checked ctx) : Checked ctx.endMessage := by
  have reset : Gathered ctx.allowedRsv1
      { ctx.imsg with opcode := none, utf8state := utf8Accept, chunks := [] } :=
    ⟨fun _ => ⟨rfl, rfl⟩, nofun, checked.imsg.rsv, nofun⟩
  have set := checked.setImsg reset
  exact { set with }

end Checked

/-! ## What the framing library hands on -/

/-- What is known of a message when the callback is called. -/
structure Passed (allowed : Bool) (arg : OnMsgRecvArg) : Prop where
  text : arg.opcode = .textFrame → arg.rsv.rsv1 = false → WellFormed arg.msg
  rsv : arg.rsv.rsv1 = true → allowed = true
  known : arg.opcode = .textFrame ∨ arg.opcode = .binaryFrame ∨ arg.opcode.isCtrlFrame = true

/-- An iteration of the receive loop keeps the invariant as long as it reads on. -/
def Validates : Recv → Prop
  | .more ctx => Checked ctx
  | .stop ctx _ => ctx.readEnabled = false
  | .message ctx arg => Checked ctx ∧ Passed ctx.allowedRsv1 arg

theorem fail_validates (ctx : Ctx) (statusCode : Nat) : Validates (ctx.fail statusCode) :=
  (SameReading.queueCloseWrapper ctx statusCode []).2

variable {ctx : Ctx}

theorem complete_validates (checked : Checked ctx) (current : ctx.imsg.opcode = some opcode)
    (valid : opcode = .textFrame → ctx.imsg.rsv.rsv1 = false → WellFormed ctx.imsg.chunks) :
    Validates (ctx.complete opcode) := by
  have rsv := checked.imsg.rsv
  have known := checked.imsg.known opcode current
  unfold complete
  dsimp only
  split
  · split
    · exact fail_validates ctx 1002
    · have received : Checked { ctx with closeReceived := true } := { checked with }
      have stopped := SameReading.queueCloseWrapper { ctx with closeReceived := true }
        (closeStatus ctx.imsg.chunks) (ctx.imsg.chunks.drop 2)
      split
      · rename_i closed
        rw [closed] at stopped
        refine ⟨received.same stopped.1, nofun, ?_, known⟩
        rw [stopped.1.allowed]
        exact rsv
      · rename_i closed
        rw [closed] at stopped
        exact stopped.2
  · split
    · rename_i queued
      have same := SameReading.queueMsgEx queued
      refine ⟨checked.same same, nofun, ?_, known⟩
      rw [same.allowed]
      exact rsv
    · exact ⟨checked, nofun, rsv, known⟩
    · rfl
  · exact ⟨checked, valid, rsv, known⟩

theorem recvPayload_validates (checked : Checked ctx) (current : ctx.imsg.opcode = some opcode)
    (data : Bytes) : Validates (ctx.recvPayload data opcode) := by
  have takes := checked.takeData current data
  unfold recvPayload
  dsimp only
  split_ifs with rejected whole more unfinished
  · exact fail_validates _ 1007
  · exact { takes with }
  · exact fail_validates _ 1007
  · refine complete_validates takes (by rw [imsg_takeData]; exact current) ?_
    rintro rfl plain
    -- The message is complete, and the automaton accepts what it has read.
    have read := takes.imsg.text (by rw [imsg_takeData]; exact current) plain
    grind [imsg_takeData, decode_accepts]
  · exact takes

theorem recvFrame_validates (checked : Checked ctx) (frame : FrameRecv) :
    Validates (ctx.recvFrame frame) := by
  cases frame with
  | errProto => exact (SameReading.queueCloseWrapper ctx 0 []).2
  | iocb iocb =>
    unfold recvFrame
    dsimp only
    split
    · exact fail_validates ctx 1002
    · have allows : iocb.rsv.rsv1 = true → ctx.allowedRsv1 = true := by grind [verifyRsvBits]
      split
      · exact fail_validates ctx _
      · rename_i accepted
        have opened := checked.accept allows accepted
        split
        · rename_i current
          exact recvPayload_validates opened current iocb.data
        · exact opened

/-! ## What a call delivers -/

/-- A call that puts some messages into the queue of `recv` and leaves the rest of the receiving
half alone. -/
structure Receives (new : List PendingMessage) (s s' : Session) : Prop where
  reading : SameReading s.ctx s'.ctx
  pmce : s'.pmceEnabled = s.pmceEnabled
  recvQueue : s'.recvQueue = s.recvQueue ++ new
  surfaced : s'.surfaced = s.surfaced

namespace Receives

variable {s s' s'' : Session} {new : List PendingMessage}

theorem refl (s : Session) : Receives [] s s := ⟨.refl _, rfl, (append_nil _).symm, rfl⟩

theorem ofCtx (same : SameReading s.ctx ctx) : Receives [] s { s with ctx } :=
  ⟨same, rfl, (append_nil _).symm, rfl⟩

theorem trans (first : Receives new s s') (second : Receives [] s' s'') : Receives new s s'' where
  reading := first.reading.trans second.reading
  pmce := second.pmce.trans first.pmce
  recvQueue := by rw [second.recvQueue, append_nil, first.recvQueue]
  surfaced := second.surfaced.trans first.surfaced

theorem queueClose (s : Session) (statusCode : Nat) : Receives [] s (s.queueClose statusCode) := by
  grind [Session.queueClose, ofCtx, SameReading.queueClose, refl]

theorem flushOutput (s : Session) (answer : Session.Answer) (rc : Option Err) :
    Receives [] s (s.flushOutput answer rc) := by
  unfold Session.flushOutput
  split
  · exact { refl s with }
  · cases answer <;> exact { refl s with }

theorem driveSend (s : Session) (sink : Sink) : Receives [] s (s.driveSend sink).1 := by
  have sends : Receives [] s { s with flushing := true }.eventSend.1 :=
    { refl s with reading := eventSend_reading s.writeError s.ctx }
  exact { sends.trans (flushOutput _ sink.answer _) with }

theorem driveIfIdle (s : Session) (sink : Session.Sink) : Receives [] s (s.driveIfIdle sink) := by
  unfold Session.driveIfIdle
  split
  · exact refl s
  · exact driveSend s sink

theorem queuePayload (done : s.queuePayload opcode data rsv = .ok s') : Receives [] s s' := by
  grind [queuePayload_ok, ofCtx, SameReading.queueMsgEx, SameReading.queueFragmentedMsgEx]

theorem queueMessage (done : s.queueMessage codec opcode data = .ok s') : Receives [] s s' := by
  grind [queueMessage, queuePayload]

theorem queueAndFlush (codec : Codec) (s : Session) (opcode : Opcode) (data : Bytes)
    (sink : Session.Sink) : Receives [] s (s.queueAndFlush codec opcode data sink).1 := by
  unfold Session.queueAndFlush
  split
  · exact refl s
  · rename_i queued
    have queues := queueMessage queued
    split
    · exact queues
    · exact queues.trans (driveSend _ sink)

theorem feedReply (s : Session) (ok : Bool) : Receives [] s (s.feedReply ok) := by
  unfold Session.feedReply
  split
  · exact driveSend s _
  · exact refl s

theorem feedEnd (s : Session) (rc : Option Err) : Receives [] s (s.feedEnd rc).1 := by
  have closed : Receives [] s s.closeCodeSent.markPeerClosed := by
    unfold Session.closeCodeSent
    split <;> exact { refl s with }
  unfold Session.feedEnd
  split_ifs
  · exact closed
  · exact closed
  · exact refl s
  · exact { refl s with }
  · exact refl s

theorem sending (codec : Codec) (s : Session) (call : Call)
    (noFeed : ∀ frames ok, call ≠ .feed frames ok) (noRecv : call ≠ .recv) :
    Receives [] s (s.step codec call) := by
  cases call with
  | send binary data sink => exact queueAndFlush codec s _ data sink
  | publish binary data high sendable outbound ok =>
    change Receives [] s (s.trySend codec data binary high sendable outbound ok).1
    grind [trySend, refl, queueAndFlush]
  | ping payload answer =>
    change Receives [] s (s.ping payload answer)
    unfold ping
    split
    · exact refl s
    · rename_i queued
      exact (ofCtx (.queueMsgEx queued)).trans (driveIfIdle _ _)
  | close status reason answer =>
    change Receives [] s (s.close status reason answer)
    unfold close
    split
    · exact refl s
    · rename_i queued
      exact (ofCtx (.queueClose queued)).trans (driveIfIdle _ _)
  | closeInternalError ok =>
    change Receives [] s (s.closeInternalError ok)
    unfold closeInternalError
    split
    · exact refl s
    · exact (queueClose s 1011).trans (driveSend _ _)
  | pingTimer ok =>
    change Receives [] s (s.pingTimerFire ok)
    unfold pingTimerFire
    split
    · exact refl s
    · split
      · exact refl s
      · rename_i queued
        have driven := (ofCtx (.queueMsgEx queued)).trans (driveIfIdle _ (.internal ok))
        dsimp only
        split
        · exact { driven with }
        · exact driven
  | pongTimer ok =>
    change Receives [] s (s.pongTimerFire ok)
    unfold pongTimerFire
    split
    · exact refl s
    · have cleared : Receives [] s { s with pongPending := false } := { refl s with }
      exact { (cleared.trans (queueClose _ 1001)).trans (driveIfIdle _ (.internal ok)) with }
  | feed frames ok => exact absurd rfl (noFeed frames ok)
  | resume ok =>
    change Receives [] s (s.resume ok)
    unfold resume
    split
    · exact refl s
    · exact { refl s with }
  | recv => exact absurd rfl noRecv
  | peerClosed => exact { refl s with }

end Receives

/-- Everything that `recv` has returned or will return. -/
def Session.delivered (s : Session) : List PendingMessage := s.surfaced ++ s.recvQueue

def TextValid (messages : List PendingMessage) : Prop :=
  ∀ message ∈ messages, message.binary = false → WellFormed message.data

theorem textValid_append : TextValid (messages ++ more) ↔ TextValid messages ∧ TextValid more := by
  simp only [TextValid, mem_append]
  constructor
  · intro valid
    exact ⟨fun m member => valid m (.inl member), fun m member => valid m (.inr member)⟩
  · rintro ⟨first, second⟩ m (member | member)
    · exact first m member
    · exact second m member

/-- The invariant of a session: what it reads is checked, and only the extension lets RSV1 in. -/
structure Sound (s : Session) : Prop where
  checked : s.ctx.readEnabled = true → Checked s.ctx
  pmce : s.ctx.allowedRsv1 = true → s.pmceEnabled = true

variable {s : Session} {new : List PendingMessage}

theorem Sound.receives (sound : Sound s) (receives : Receives new s s') : Sound s' where
  checked := fun reads =>
    (sound.checked (receives.reading.reads reads)).same receives.reading
  pmce := by
    rw [receives.reading.allowed, receives.pmce]
    exact sound.pmce

theorem Receives.delivered (receives : Receives new s s') : s'.delivered = s.delivered ++ new := by
  grind [delivered, Receives.recvQueue, Receives.surfaced]

/-- A text that is compressed and complete with this frame, fits the caps when it is inflated, and
is well formed then. -/
def CleanFrame (codec : Codec) (s : Session) (frame : FrameRecv) : Prop :=
  ∀ ctx arg data, s.ctx.recvFrame frame = .message ctx arg → arg.opcode = .textFrame →
    arg.rsv.rsv1 = true → s.pmceInflateMsg codec arg.msg = some data → ¬ s.overCap data →
    WellFormed data

def CleanFrames (codec : Codec) (s : Session) : List FrameRecv → Prop
  | [] => True
  | frame :: frames => s.ctx.readEnabled = true → CleanFrame codec s frame ∧
      ((s.recvOne codec frame).2 = none → CleanFrames codec (s.recvOne codec frame).1 frames)

/-- What a step has to meet for the text that reaches the application to be well formed. -/
def CleanCall (codec : Codec) (s : Session) : Call → Prop
  | .feed frames _ => CleanFrames codec s frames
  | _ => True

theorem enqueue_receives (binary : Bool) (data : Bytes) :
    Receives (if s.overCap data then [] else [⟨binary, data⟩]) s (s.enqueue binary data) := by
  unfold enqueue
  split
  · have marked : Receives [] s { s with
        recvOverflow := true
        closeCode := if s.closeCode = 0 then 1013 else s.closeCode } := { Receives.refl s with }
    exact { marked.trans (.queueClose _ 1013) with }
  · exact { Receives.refl s with recvQueue := rfl }

theorem textValid_new {exceeds : Prop} [Decidable exceeds] (binary : Bool) (data : Bytes) :
    TextValid (if exceeds then [] else [⟨binary, data⟩]) ↔
      (binary = false → ¬ exceeds → WellFormed data) := by
  by_cases full : exceeds <;> simp [TextValid, full]

theorem onMsgRecv_receives (codec : Codec) (s : Session) (passed : Passed s.pmceEnabled arg) :
    ∃ new, Receives new s (s.onMsgRecv codec arg) ∧ (TextValid new ↔
      ∀ data, arg.opcode = .textFrame → arg.rsv.rsv1 = true →
        s.pmceInflateMsg codec arg.msg = some data → ¬ s.overCap data → WellFormed data) := by
  unfold onMsgRecv
  split
  · -- A control message surfaces nothing.
    rename_i ctrl
    refine ⟨[], ?_, ⟨fun _ data text => ?_, fun _ => nofun⟩⟩
    · split <;> exact { Receives.refl s with }
    · rw [text] at ctrl
      cases ctrl
  · rename_i noCtrl
    have data : arg.opcode = .textFrame ∨ arg.opcode = .binaryFrame := by grind [Passed.known]
    have kind : (arg.opcode == .binaryFrame) = false ↔ arg.opcode = .textFrame := by
      rcases data with opcode | opcode <;> simp [opcode]
    split
    · rename_i compressed
      obtain ⟨_, rsv1⟩ := Bool.and_eq_true_iff.mp compressed
      split
      · rename_i failed
        refine ⟨[], ?_, ⟨fun _ data _ _ done => ?_, fun _ => nofun⟩⟩
        · have marked : Receives [] s { s with pmceError := true } := { Receives.refl s with }
          exact { marked.trans (.queueClose _ 1009) with }
        · rw [failed] at done
          cases done
      · rename_i data inflated
        refine ⟨_, enqueue_receives _ data, ?_⟩
        rw [textValid_new, kind]
        constructor
        · grind
        · intro valid text room
          exact valid data text rsv1 inflated room
    · rename_i plain
      have rsv1 : arg.rsv.rsv1 = false := by
        cases bit : arg.rsv.rsv1 with
        | false => rfl
        | true => simp [bit, passed.rsv bit] at plain
      refine ⟨_, enqueue_receives _ arg.msg, ?_⟩
      rw [textValid_new, kind]
      constructor
      · grind
      · exact fun _ text _ => passed.text text rsv1

section

variable (codec : Codec) (sound : Sound s)
include codec sound

theorem recvOne_delivers (reads : s.ctx.readEnabled = true)
    (frame : FrameRecv) : ∃ new, (s.recvOne codec frame).1.delivered = s.delivered ++ new ∧
      Sound (s.recvOne codec frame).1 ∧ (TextValid new ↔ CleanFrame codec s frame) := by
  have validates := recvFrame_validates (sound.checked reads) frame
  have pmce : (s.ctx.recvFrame frame).ctx.allowedRsv1 = true → s.pmceEnabled = true := by
    obtain ⟨more, queues, _⟩ := Queues.recvFrame s.ctx frame
    rw [queues.allowed]
    exact sound.pmce
  unfold recvOne CleanFrame
  cases outcome : s.ctx.recvFrame frame with
  | more ctx =>
    rw [outcome] at validates pmce
    exact ⟨[], (append_nil _).symm, ⟨fun _ => validates, pmce⟩, by simp [TextValid]⟩
  | stop ctx rc =>
    rw [outcome] at validates pmce
    refine ⟨[], (append_nil _).symm, ⟨?_, pmce⟩, by simp [TextValid]⟩
    intro reads
    cases reads.symm.trans validates
  | message ctx arg =>
    rw [outcome] at validates pmce
    have passed : Passed s.pmceEnabled arg := { validates.2 with rsv := pmce ∘ validates.2.rsv }
    obtain ⟨new, receives, clean⟩ := onMsgRecv_receives codec { s with ctx } passed
    have called : Sound ({ s with ctx }.onMsgRecv codec arg) :=
      Sound.receives ⟨fun _ => validates.1, pmce⟩ receives
    refine ⟨new, receives.delivered, ⟨?_, ?_⟩, ?_⟩
    · intro reads
      exact (called.checked ((endMessage_readEnabled _).symm.trans reads)).endMessage
    · exact called.pmce ∘ (Queues.endMessage _).allowed.symm.trans
    · rw [clean]
      constructor
      · rintro valid _ _ data ⟨⟩
        exact valid data
      · intro valid data
        exact valid ctx arg data rfl

theorem eventRecv_delivers (frames : List FrameRecv) :
    ∃ new, (s.eventRecv codec frames).1.delivered = s.delivered ++ new ∧
      Sound (s.eventRecv codec frames).1 ∧ (TextValid new ↔ CleanFrames codec s frames) := by
  induction frames generalizing s with
  | nil => exact ⟨[], (append_nil _).symm, sound, by simp [TextValid, CleanFrames]⟩
  | cons frame frames ih =>
    unfold eventRecv CleanFrames
    by_cases reads : s.ctx.readEnabled = true
    · obtain ⟨new, delivered, sound', clean⟩ := recvOne_delivers codec sound reads frame
      rw [if_pos reads]
      rcases one : s.recvOne codec frame with ⟨s', _ | rc⟩
      · rw [one] at delivered sound'
        obtain ⟨more, delivered', sound'', clean'⟩ := ih sound'
        refine ⟨new ++ more, ?_, sound'', ?_⟩
        · rw [delivered', delivered, append_assoc]
        · rw [textValid_append, clean, clean']
          simp [reads]
      · rw [one] at delivered sound'
        refine ⟨new, delivered, sound', ?_⟩
        rw [clean]
        simp [reads]
    · rw [if_neg reads]
      exact ⟨[], (append_nil _).symm, sound, by simp [TextValid, reads]⟩

theorem feed_delivers (frames : List FrameRecv) (ok : Bool) :
    ∃ new, (s.feed codec frames ok).1.delivered = s.delivered ++ new ∧
      Sound (s.feed codec frames ok).1 ∧ (TextValid new ↔ CleanFrames codec s frames) := by
  obtain ⟨new, delivered, sound', clean⟩ := eventRecv_delivers codec sound frames
  -- What follows the receive loop only sends and marks the session.
  have rest : Receives [] (s.eventRecv codec frames).1 (s.feed codec frames ok).1 :=
    (Receives.feedReply _ ok).trans (Receives.feedEnd _ _)
  refine ⟨new, ?_, sound'.receives rest, clean⟩
  rw [rest.delivered, delivered, append_nil]

end

/-! ## Whole runs -/

theorem recvPop_delivers : s.recvPop.1.delivered = s.delivered ∧ (Sound s → Sound s.recvPop.1) := by
  unfold recvPop
  split
  · exact ⟨rfl, id⟩
  · rename_i message rest queue
    refine ⟨?_, fun sound => { sound with }⟩
    simp [delivered, queue]

theorem step_delivers (codec : Codec) (sound : Sound s) (call : Call) :
    ∃ new, (s.step codec call).delivered = s.delivered ++ new ∧
      Sound (s.step codec call) ∧ (TextValid new ↔ CleanCall codec s call) := by
  have quiet (noFeed : ∀ frames ok, call ≠ .feed frames ok) (noRecv : call ≠ .recv)
      (clean : CleanCall codec s call) : ∃ new,
      (s.step codec call).delivered = s.delivered ++ new ∧
        Sound (s.step codec call) ∧ (TextValid new ↔ CleanCall codec s call) := by
    have receives := Receives.sending codec s call noFeed noRecv
    exact ⟨[], receives.delivered, sound.receives receives, by simp [TextValid, clean]⟩
  cases call with
  | feed frames ok => exact feed_delivers codec sound frames ok
  | recv =>
    obtain ⟨same, keeps⟩ := recvPop_delivers
    exact ⟨[], same.trans (append_nil _).symm, keeps sound, by simp [TextValid, CleanCall]⟩
  | _ => exact quiet nofun nofun trivial

theorem opened_sound (role : Role) : Sound (opened role) := by
  have idle (allowed : Bool) : Gathered allowed {} := ⟨fun _ => ⟨rfl, rfl⟩, nofun, nofun, nofun⟩
  have checked (ctx : Ctx) (fresh : ctx.imsg0 = {} ∧ ctx.imsg1 = {}) : Checked ctx := by
    refine ⟨?_, ?_⟩
    · rw [fresh.1]
      exact idle _
    · rw [fresh.2]
      exact idle _
  rcases role with ⟨config, _ | _⟩ | _
  · exact ⟨fun _ => checked _ ⟨rfl, rfl⟩, nofun⟩
  · exact ⟨fun _ => checked _ ⟨rfl, rfl⟩, fun _ => rfl⟩
  · exact ⟨fun _ => checked _ ⟨rfl, rfl⟩, nofun⟩

theorem foldl_delivers (codec : Codec) (sound : Sound s) (calls : List Call) :
    Sound (calls.foldl (step codec) s) ∧
      ∃ new, (calls.foldl (step codec) s).delivered = s.delivered ++ new := by
  induction calls generalizing s with
  | nil => exact ⟨sound, [], (append_nil _).symm⟩
  | cons call calls ih =>
    obtain ⟨new, delivered, sound', _⟩ := step_delivers codec sound call
    obtain ⟨sound'', more, delivered'⟩ := ih sound'
    refine ⟨sound'', new ++ more, ?_⟩
    grind

theorem run_valid_iff (codec : Codec) (role : Role) (history : List Call) :
    TextValid (run codec role history).delivered ↔
      Along (fun past call => CleanCall codec (run codec role past) call) history := by
  have all : (∀ past, past <+: history → TextValid (run codec role past).delivered) ↔
      Along (fun past call => CleanCall codec (run codec role past) call) history := by
    apply Along.holds_iff (I := Sound) (P := fun s => TextValid s.delivered)
    · exact fun s call sound => (step_delivers codec sound call).choose_spec.2.1
    · intro s call sound valid
      obtain ⟨new, delivered, _, clean⟩ := step_delivers codec sound call
      grind [textValid_append]
    · exact opened_sound role
    · rcases role with ⟨config, _ | _⟩ | _ <;> exact nofun
  refine Iff.trans ⟨?_, fun valid => valid history prefix_rfl⟩ all
  rintro valid past ⟨later, rfl⟩
  obtain ⟨sound, _⟩ := foldl_delivers codec (opened_sound role) past
  obtain ⟨_, new, delivered⟩ := foldl_delivers codec sound later
  rw [run, foldl_append, delivered] at valid
  exact (textValid_append.mp valid).1

theorem surfaced_recvs (codec : Codec) (n : Nat) :
    ((replicate n Session.Call.recv).foldl (step codec) s).surfaced =
      s.surfaced ++ s.recvQueue.take n := by
  induction n generalizing s with
  | zero => simp
  | succ n ih =>
    rw [replicate_succ, foldl_cons, ih]
    change s.recvPop.1.surfaced ++ s.recvPop.1.recvQueue.take n = _
    unfold recvPop
    split
    · rename_i empty
      simp [empty]
    · rename_i message rest queue
      simp [queue]

/-- In any history of calls, the text that `recv` returns, however often it is called at the end, is
well formed exactly if every compressed text that was complete, fit the caps and got into the queue
was well formed when it came out of the codec. -/
theorem text_surfaced_iff (codec : Codec) (role : Role) (history : List Call) :
    (∀ n, ∀ message ∈ (run codec role (history ++ replicate n .recv)).surfaced,
        message.binary = false → WellFormed message.data) ↔
      Along (fun past call => CleanCall codec (run codec role past) call) history := by
  rw [← run_valid_iff]
  simp only [run, foldl_append, surfaced_recvs]
  constructor
  · intro valid message member
    apply valid (history.foldl (step codec) (opened role)).recvQueue.length message
    rw [take_length]
    exact member
  · intro valid n message member
    apply valid message
    rcases mem_append.mp member with old | queued
    · exact mem_append_left _ old
    · exact mem_append_right _ (mem_of_mem_take queued)

/-- Raw inflate of a stream of stored blocks (RFC 1951 §3.2.4), none of them the last. -/
def inflateStored : Nat → Bytes → Option Bytes
  | _ + 1, [] => some []
  | fuel + 1, 0 :: low :: high :: _ :: _ :: rest =>
    let length := low.toNat + 256 * high.toNat
    (inflateStored fuel (rest.drop length)).map (rest.take length ++ ·)
  | _, _ => none

/-- A compressed text message of the one byte `ff`, in a stored block. -/
def storedText : FrameRecv :=
  .iocb ⟨true, rsv1Bit, .textFrame, true, 7, [0x00, 0x01, 0x00, 0xfe, 0xff, 0xff, 0x00]⟩

/-- Compressed text that is not UTF-8 reaches the application. -/
theorem compressed_text_unchecked :
    (run ⟨some, inflateStored 3⟩ (.server {} true) [.feed [storedText] true, .recv]).surfaced =
        [⟨false, [0xff]⟩] ∧ ¬ WellFormed [0xff] := by
  decide

end TrueAsync.Ws

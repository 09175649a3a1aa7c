import TrueAsync.Websocket.Wslay

/-!
# What the framing library's operations do

One description for each group of operations of the event context: queueing appends to the queues
(`Queues`), sending empties them (`eventSend_open`), and neither touches the receiving half.
-/

namespace TrueAsync.Wslay

open TrueAsync.Lib Ctx List

def dataMsgs (queued : List Omsg) : List Omsg := queued.filter (!·.opcode.isCtrlFrame)

def ctrlMsgs (queued : List Omsg) : List Omsg := queued.filter (·.opcode.isCtrlFrame)

@[simp] theorem dataMsgs_append (msgs more : List Omsg) :
    dataMsgs (msgs ++ more) = dataMsgs msgs ++ dataMsgs more :=
  filter_append ..

@[simp] theorem ctrlMsgs_append (msgs more : List Omsg) :
    ctrlMsgs (msgs ++ more) = ctrlMsgs msgs ++ ctrlMsgs more :=
  filter_append ..

/-- The receiving half of a context is the same, but for reading to have ended. -/
structure SameReading (ctx ctx' : Ctx) : Prop where
  imsg0 : ctx'.imsg0 = ctx.imsg0
  imsg1 : ctx'.imsg1 = ctx.imsg1
  allowed : ctx'.allowedRsv1 = ctx.allowedRsv1
  reads : ctx'.readEnabled = true → ctx.readEnabled = true

namespace SameReading

variable {ctx ctx' ctx'' : Ctx}

theorem refl (ctx : Ctx) : SameReading ctx ctx := ⟨rfl, rfl, rfl, id⟩

theorem trans (first : SameReading ctx ctx') (second : SameReading ctx' ctx'') :
    SameReading ctx ctx'' where
  imsg0 := second.imsg0.trans first.imsg0
  imsg1 := second.imsg1.trans first.imsg1
  allowed := second.allowed.trans first.allowed
  reads := first.reads ∘ second.reads

end SameReading

/-! ## Queueing -/

namespace Ctx

variable (ctx : Ctx) (msg : Omsg)

theorem push_queued : (ctx.push msg).queued = ctx.queued ++ [msg] := by
  unfold push
  split <;> rfl

theorem push_sendQueue : (ctx.push msg).sendQueue = ctx.sendQueue ++ dataMsgs [msg] := by
  unfold push dataMsgs
  split <;> simp [*]

theorem push_sendCtrlQueue :
    (ctx.push msg).sendCtrlQueue = ctx.sendCtrlQueue ++ ctrlMsgs [msg] := by
  unfold push ctrlMsgs
  split <;> simp [*]

theorem push_writeEnabled : (ctx.push msg).writeEnabled = ctx.writeEnabled := by
  unfold push
  split <;> rfl

theorem push_omsg : (ctx.push msg).omsg = ctx.omsg := by
  unfold push
  split <;> rfl

theorem push_closeQueued : (ctx.push msg).closeQueued = ctx.closeQueued := by
  unfold push
  split <;> rfl

theorem push_reading : SameReading ctx (ctx.push msg) := by
  unfold push
  split <;> exact ⟨rfl, rfl, rfl, id⟩

end Ctx

/-- Some messages were queued, one after the other. -/
structure Queues (more : List Omsg) (ctx ctx' : Ctx) : Prop where
  queued : ctx'.queued = ctx.queued ++ more
  data : ctx'.sendQueue = ctx.sendQueue ++ dataMsgs more
  ctrl : ctx'.sendCtrlQueue = ctx.sendCtrlQueue ++ ctrlMsgs more
  writing : ctx'.writeEnabled = ctx.writeEnabled
  omsg : ctx'.omsg = ctx.omsg
  closing : ctx.closeQueued = true → ctx'.closeQueued = true
  closes : ∀ msg ∈ more, msg.opcode = .connectionClose → ctx'.closeQueued = true
  whole : ∀ msg ∈ ctrlMsgs more, msg.frag = none
  allowed : ctx'.allowedRsv1 = ctx.allowedRsv1

namespace Queues

variable {ctx ctx' ctx'' : Ctx} {more more' : List Omsg}

theorem refl (ctx : Ctx) : Queues [] ctx ctx where
  queued := (append_nil _).symm
  data := (append_nil _).symm
  ctrl := (append_nil _).symm
  writing := rfl
  omsg := rfl
  closing := id
  closes := nofun
  whole := nofun
  allowed := rfl

theorem trans (first : Queues more ctx ctx') (second : Queues more' ctx' ctx'') :
    Queues (more ++ more') ctx ctx'' where
  queued := by rw [second.queued, first.queued, append_assoc]
  data := by rw [second.data, first.data, dataMsgs_append, append_assoc]
  ctrl := by rw [second.ctrl, first.ctrl, ctrlMsgs_append, append_assoc]
  writing := second.writing.trans first.writing
  omsg := second.omsg.trans first.omsg
  closing := second.closing ∘ first.closing
  closes := by
    intro msg member close
    rcases mem_append.mp member with old | new
    · exact second.closing (first.closes msg old close)
    · exact second.closes msg new close
  whole := by
    grind [ctrlMsgs_append, whole]
  allowed := second.allowed.trans first.allowed

theorem pushes (msg : Omsg) (close : msg.opcode ≠ .connectionClose)
    (whole : msg.opcode.isCtrlFrame = true → msg.frag = none) :
    Queues [msg] ctx (ctx.push msg) where
  queued := ctx.push_queued msg
  data := ctx.push_sendQueue msg
  ctrl := ctx.push_sendCtrlQueue msg
  writing := ctx.push_writeEnabled msg
  omsg := ctx.push_omsg msg
  closing := (ctx.push_closeQueued msg).trans
  closes := by simp [close]
  whole := by
    intro m member
    obtain ⟨member, ctrl⟩ := mem_filter.mp member
    cases mem_singleton.mp member
    exact whole ctrl
  allowed := (ctx.push_reading msg).allowed

variable {rsv : Rsv} {opcode : Opcode}

theorem queueMsgEx (noClose : opcode ≠ .connectionClose)
    (done : ctx.queueMsgEx opcode msg rsv = .ok ctx') :
    Queues [{ opcode, rsv, data := msg }] ctx ctx' := by
  unfold Ctx.queueMsgEx at done
  split_ifs at done
  cases done
  exact { pushes
    { opcode, rsv, data := msg } noClose (fun _ => rfl) with }

variable {source : Bytes}

theorem queueFragmentedMsgEx (done : ctx.queueFragmentedMsgEx opcode source size rsv = .ok ctx') :
    Queues [{ opcode, rsv, data := source, frag := some size }] ctx ctx' := by
  unfold Ctx.queueFragmentedMsgEx at done
  split_ifs at done with queueable ctrl
  cases done
  have data : opcode.isCtrlFrame = false := by grind
  apply pushes
  · rintro rfl
    cases data
  · intro kind
    cases kind.symm.trans data

theorem queueClose (done : ctx.queueClose statusCode reason = .ok ctx') :
    Queues [{ opcode := .connectionClose, data := Ctx.closePayload statusCode reason }] ctx ctx' := by
  unfold Ctx.queueClose Ctx.queueMsg Ctx.queueMsgEx at done
  split_ifs at done
  cases done
  exact
    { queued := Ctx.push_queued _ _
      data := Ctx.push_sendQueue _ _
      ctrl := Ctx.push_sendCtrlQueue _ _
      writing := Ctx.push_writeEnabled _ _
      omsg := Ctx.push_omsg _ _
      closing := fun _ => rfl
      closes := fun _ _ _ => rfl
      whole := by simp [ctrlMsgs]
      allowed := (Ctx.push_reading _ _).allowed }

theorem queueCloseWrapper (ctx : Ctx) (statusCode : Nat) (reason : Bytes) :
    ∃ more, Queues more ctx (ctx.queueCloseWrapper statusCode reason).1 ∧ dataMsgs more = [] := by
  have stops : Queues [] ctx { ctx with readEnabled := false } := { refl ctx with }
  unfold Ctx.queueCloseWrapper
  dsimp only
  split
  · rename_i queued
    exact ⟨_, stops.trans (queueClose queued), rfl⟩
  · exact ⟨[], stops, rfl⟩
  · exact ⟨[], stops, rfl⟩

end Queues

variable {ctx' : Ctx}

theorem queueMsgEx_open {ctx : Ctx} (done : ctx.queueMsgEx opcode msg rsv = .ok ctx') :
    ctx.isMsgQueueable = true ∧ ctx'.closeQueued = ctx.closeQueued := by
  grind [queueMsgEx, push_closeQueued]

theorem queueFragmentedMsgEx_open {ctx : Ctx}
    (done : ctx.queueFragmentedMsgEx opcode source size rsv = .ok ctx') :
    ctx.isMsgQueueable = true ∧ ctx'.closeQueued = ctx.closeQueued := by
  grind [queueFragmentedMsgEx, push_closeQueued]

namespace SameReading

variable {ctx ctx' : Ctx}

theorem queueMsgEx (done : ctx.queueMsgEx opcode msg rsv = .ok ctx') : SameReading ctx ctx' := by
  unfold Ctx.queueMsgEx at done
  split_ifs at done
  cases done
  exact { Ctx.push_reading { ctx with queuedMsgLength := ctx.queuedMsgLength + msg.length } _ with }

theorem queueFragmentedMsgEx
    (done : ctx.queueFragmentedMsgEx opcode source size rsv = .ok ctx') : SameReading ctx ctx' := by
  grind [queueFragmentedMsgEx, push_reading]

theorem queueClose (done : ctx.queueClose statusCode reason = .ok ctx') : SameReading ctx ctx' := by
  unfold Ctx.queueClose at done
  split_ifs at done
  cases queued : ctx.queueMsg .connectionClose (Ctx.closePayload statusCode reason) with
  | ok ctx1 =>
    rw [queued] at done
    cases done
    exact { queueMsgEx queued with }
  | error e =>
    rw [queued] at done
    cases done

theorem queueCloseWrapper (ctx : Ctx) (statusCode : Nat) (reason : Bytes) :
    SameReading ctx (ctx.queueCloseWrapper statusCode reason).1 ∧
      (ctx.queueCloseWrapper statusCode reason).1.readEnabled = false := by
  have stops : SameReading ctx { ctx with readEnabled := false } := ⟨rfl, rfl, rfl, nofun⟩
  unfold Ctx.queueCloseWrapper
  dsimp only
  split
  · rename_i queued
    have same := queueClose queued
    exact ⟨stops.trans same, Bool.eq_false_iff.mpr (fun reads => nomatch same.reads reads)⟩
  · exact ⟨stops, rfl⟩
  · exact ⟨stops, rfl⟩

end SameReading

/-! ## Sending -/

def framesOf (msgs : List Omsg) : List Frame := msgs.flatMap Omsg.frames

variable {msg : Omsg}

theorem frames_data (data : msg.opcode.isCtrlFrame = false) :
    ∀ frame ∈ msg.frames, frame.opcode.isCtrlFrame = false := by
  have rest (rsv : Rsv) (size fuel : Nat) (text : Bytes) :
      ∀ frame ∈ continuation rsv size fuel text, frame.opcode.isCtrlFrame = false := by
    induction fuel generalizing text with
    | zero => exact nofun
    | succ fuel ih => grind [continuation, Opcode.isCtrlFrame]
  grind [Omsg.frames]

theorem framesOf_append (msgs more : List Omsg) :
    framesOf (msgs ++ more) = framesOf msgs ++ framesOf more :=
  flatMap_append

theorem frames_ne_nil (msg : Omsg) : msg.frames ≠ [] := by
  grind [Omsg.frames]

theorem framesOf_eq_nil : framesOf msgs = [] ↔ msgs = [] := by
  constructor
  · intro none
    cases msgs with
    | nil => rfl
    | cons msg msgs => exact absurd (append_eq_nil_iff.mp none).1 (frames_ne_nil msg)
  · rintro rfl
    rfl

namespace Ctx

theorem popMsg_reading (ctx : Ctx) : SameReading ctx ctx.popMsg.2 := by
  unfold popMsg
  split <;> exact ⟨rfl, rfl, rfl, id⟩

theorem sent_reading (ctx : Ctx) (msg : Omsg) : SameReading ctx (ctx.sent msg) := by
  unfold sent
  cases msg.frag <;> dsimp only <;> split <;> exact ⟨rfl, rfl, rfl, id⟩

theorem eventSend_keeps {R : Ctx → Ctx → Prop} (refl : ∀ ctx, R ctx ctx)
    (trans : ∀ {a b c}, R a b → R b c → R a c) (pop : ∀ ctx : Ctx, R ctx ctx.popMsg.2)
    (sent : ∀ (ctx : Ctx) (msg : Omsg), R ctx (ctx.sent msg))
    (stop : ∀ (ctx : Ctx) (msg : Omsg), R ctx { ctx with omsg := some msg, writeEnabled := false })
    (refuses : Bool) (ctx : Ctx) : R ctx (ctx.eventSend refuses).1 := by
  unfold eventSend
  generalize ctx.sendCtrlQueue.length + ctx.sendQueue.length = fuel
  induction fuel generalizing ctx with
  | zero => exact refl ctx
  | succ fuel ih => grind [eventSendLoop]

theorem eventSend_reading (refuses : Bool) (ctx : Ctx) :
    SameReading ctx (ctx.eventSend refuses).1 :=
  eventSend_keeps SameReading.refl SameReading.trans popMsg_reading sent_reading
    (fun _ _ => ⟨rfl, rfl, rfl, id⟩) refuses ctx

theorem eventSend_queued (refuses : Bool) (ctx : Ctx) :
    (ctx.eventSend refuses).1.queued = ctx.queued ∧
      (ctx.eventSend refuses).1.closeQueued = ctx.closeQueued := by
  refine eventSend_keeps (R := fun a b => b.queued = a.queued ∧ b.closeQueued = a.closeQueued)
    (fun _ => ⟨rfl, rfl⟩) (fun first second => ⟨second.1.trans first.1, second.2.trans first.2⟩)
    ?_ ?_ (fun _ _ => ⟨rfl, rfl⟩) refuses ctx
  · intro ctx
    unfold popMsg
    split <;> exact ⟨rfl, rfl⟩
  · grind [sent]

theorem eventSend_subset (refuses : Bool) (ctx : Ctx) :
    (ctx.eventSend refuses).1.sendQueue ⊆ ctx.sendQueue ∧
      (ctx.eventSend refuses).1.sendCtrlQueue ⊆ ctx.sendCtrlQueue := by
  refine eventSend_keeps
    (R := fun a b => b.sendQueue ⊆ a.sendQueue ∧ b.sendCtrlQueue ⊆ a.sendCtrlQueue)
    (fun _ => ⟨List.Subset.refl _, List.Subset.refl _⟩)
    (fun first second => ⟨List.Subset.trans second.1 first.1, List.Subset.trans second.2 first.2⟩)
    ?_ ?_ (fun _ _ => ⟨List.Subset.refl _, List.Subset.refl _⟩) refuses ctx
  · intro ctx
    unfold popMsg
    split
    · exact ⟨(tail_suffix _).subset, List.Subset.refl _⟩
    · refine ⟨List.Subset.refl _, List.Subset.trans (tail_suffix _).subset ?_⟩
      grind
  · grind [sent]

theorem sent_plain (ctx : Ctx) (plain : msg.opcode ≠ .connectionClose) :
    ∃ length, ctx.sent msg = { ctx with queuedMsgLength := length } := by
  unfold sent
  cases msg.frag with
  | none => exact ⟨_, if_neg plain⟩
  | some _ => exact ⟨ctx.queuedMsgLength, if_neg plain⟩

variable {ctx : Ctx} {rest : List Omsg}

theorem popMsg_open (noClose : ctx.closeQueued = false)
    (queue : ctx.sendCtrlQueue ++ ctx.sendQueue = msg :: rest) : ∃ ctrl data, ctrl ++ data = rest ∧
      ctx.popMsg = (some msg, { ctx with sendCtrlQueue := ctrl, sendQueue := data }) := by
  grind [popMsg, sendCtrlQueuePop]

theorem wantWrite_of_queued (writing : ctx.writeEnabled = true)
    (queue : ctx.sendCtrlQueue ++ ctx.sendQueue = msg :: rest) : ctx.wantWrite = true := by
  cases first : ctx.sendCtrlQueue with
  | nil =>
    rw [first, nil_append] at queue
    simp [wantWrite, writing, queue]
  | cons _ _ => simp [wantWrite, writing, first]

theorem eventSend_refused (writing : ctx.writeEnabled = true) (noClose : ctx.closeQueued = false)
    (waiting : ctx.sendCtrlQueue ++ ctx.sendQueue ≠ []) :
    (ctx.eventSend true).2 = ([], some .callbackFailure) := by
  obtain ⟨msg, rest, queue⟩ := exists_cons_of_ne_nil waiting
  obtain ⟨ctrl, data, _, popped⟩ := popMsg_open noClose queue
  unfold eventSend
  rw [← length_append, queue, length_cons, eventSendLoop, popped]
  simp [wantWrite_of_queued writing queue]

/-- The next message is the first of the data queue, or comes from the control queue, of which some
may be dropped. -/
theorem popMsg_some (popped : ctx.popMsg = (some msg, ctx')) :
    ctx.sendQueue = msg :: ctx'.sendQueue ∧ ctx'.sendCtrlQueue = ctx.sendCtrlQueue ∨
      ctx'.sendQueue = ctx.sendQueue ∧ (msg :: ctx'.sendCtrlQueue).Sublist ctx.sendCtrlQueue := by
  unfold popMsg at popped
  split at popped
  · obtain ⟨first, rfl⟩ := Prod.mk.inj popped
    obtain ⟨rest, queue⟩ := head?_eq_some_iff.mp first
    exact .inl ⟨by simp [queue], rfl⟩
  · unfold sendCtrlQueuePop at popped
    obtain ⟨first, rfl⟩ := Prod.mk.inj popped
    obtain ⟨rest, queue⟩ := head?_eq_some_iff.mp first
    grind

theorem popMsg_none (popped : ctx.popMsg = (none, ctx')) :
    ctx'.sendQueue = ctx.sendQueue ∧ ctx'.sendCtrlQueue.Sublist ctx.sendCtrlQueue := by
  grind [popMsg, head?_eq_none_iff, sendCtrlQueuePop]

theorem sent_queues (msg : Omsg) :
    (ctx.sent msg).sendQueue = ctx.sendQueue ∧ (ctx.sent msg).sendCtrlQueue = ctx.sendCtrlQueue := by
  grind [sent]

/-- What goes out, with or without a CLOSE among it: whole messages, the data messages from the front
of their queue. -/
theorem eventSend_sends (data : ∀ msg ∈ ctx.sendQueue, msg.opcode.isCtrlFrame = false)
    (ctrl : ∀ msg ∈ ctx.sendCtrlQueue, msg.opcode.isCtrlFrame = true) :
    ∃ msgs, (ctx.eventSend false).2.1 = framesOf msgs ∧
      dataMsgs msgs ++ (ctx.eventSend false).1.sendQueue = ctx.sendQueue ∧
      (ctrlMsgs msgs ++ (ctx.eventSend false).1.sendCtrlQueue).Sublist ctx.sendCtrlQueue := by
  unfold eventSend
  generalize ctx.sendCtrlQueue.length + ctx.sendQueue.length = fuel
  induction fuel generalizing ctx with
  | zero => exact ⟨[], rfl, rfl, List.Sublist.refl _⟩
  | succ fuel ih =>
    unfold eventSendLoop
    split
    · exact ⟨[], rfl, rfl, List.Sublist.refl _⟩
    · split
      · rename_i popped
        exact ⟨[], rfl, popMsg_none popped⟩
      · rename_i msg ctx' popped
        obtain ⟨sentData, sentCtrl⟩ := sent_queues msg
        have later := @ih (ctx'.sent msg)
        rw [sentData, sentCtrl] at later
        rcases popMsg_some popped with ⟨first, same⟩ | ⟨same, first⟩
        · rw [first, forall_mem_cons] at data
          rw [same] at later
          obtain ⟨msgs, frames, inData, inCtrl⟩ := later data.2 ctrl
          refine ⟨msg :: msgs, ?_, ?_, ?_⟩
          · simp [frames, framesOf]
          · simpa [dataMsgs, data.1, first] using inData
          · simpa [ctrlMsgs, data.1] using inCtrl
        · rw [same] at later
          have isCtrl := ctrl msg (first.subset mem_cons_self)
          obtain ⟨msgs, frames, inData, inCtrl⟩ := later data
            (fun m member => ctrl m (first.subset (mem_cons_of_mem msg member)))
          refine ⟨msg :: msgs, ?_, ?_, ?_⟩
          · simp [frames, framesOf]
          · simpa [dataMsgs, isCtrl] using inData
          · simp only [ctrlMsgs, filter_cons, isCtrl, if_true, cons_append]
            exact (inCtrl.cons_cons msg).trans first

theorem eventSend_open (writing : ctx.writeEnabled = true) (noClose : ctx.closeQueued = false)
    (idle : ctx.omsg = none)
    (plain : ∀ msg ∈ ctx.sendCtrlQueue ++ ctx.sendQueue, msg.opcode ≠ .connectionClose) :
    ∃ length, ctx.eventSend false =
      ({ ctx with sendQueue := [], sendCtrlQueue := [], queuedMsgLength := length },
        framesOf (ctx.sendCtrlQueue ++ ctx.sendQueue), none) := by
  unfold eventSend
  rw [← length_append]
  generalize queue : ctx.sendCtrlQueue ++ ctx.sendQueue = msgs at plain
  induction msgs generalizing ctx with
  | nil =>
    obtain ⟨ctrl, data⟩ := append_eq_nil_iff.mp queue
    refine ⟨ctx.queuedMsgLength, ?_⟩
    cases ctx
    cases ctrl
    cases data
    rfl
  | cons msg rest ih =>
    obtain ⟨ctrl, data, split, popped⟩ := popMsg_open noClose queue
    obtain ⟨length, sent⟩ := sent_plain { ctx with sendCtrlQueue := ctrl, sendQueue := data }
      (plain msg mem_cons_self)
    obtain ⟨length', later⟩ :=
      @ih { ctx with sendCtrlQueue := ctrl, sendQueue := data, queuedMsgLength := length }
        writing noClose idle split (fun m member => plain m (mem_cons_of_mem msg member))
    refine ⟨length', ?_⟩
    rw [length_cons, eventSendLoop, popped]
    simp only [wantWrite_of_queued writing queue, sent, later]
    rfl

end Ctx

/-! ## Receiving -/

theorem endMessage_readEnabled (ctx : Ctx) : ctx.endMessage.readEnabled = ctx.readEnabled := by
  unfold endMessage setImsg
  cases ctx.onCtrl <;> rfl

/-- The context after an iteration, before the message callback. -/
def Ctx.Recv.ctx : Recv → Ctx
  | .more ctx => ctx
  | .stop ctx _ => ctx
  | .message ctx _ => ctx

namespace Queues

variable {ctx ctx' : Ctx}

theorem setImsg (ctx : Ctx) (imsg : Imsg) : Queues [] ctx (ctx.setImsg imsg) := by
  unfold Ctx.setImsg
  split <;> exact { refl ctx with }

theorem newFrame (done : ctx.newFrame payloadLength = .ok ctx') : Queues [] ctx ctx' := by
  unfold Ctx.newFrame at done
  split at done
  · cases done
  · cases done
    exact { setImsg { ctx with ipayloadlen := payloadLength } _ with }

theorem accept (done : ctx.accept iocb = .ok ctx') : Queues [] ctx ctx' := by
  unfold Ctx.accept at done
  split at done
  · split at done
    all_goals first
      | exact (setImsg ctx _).trans (newFrame done)
      | cases done
  · split at done
    · split at done
      all_goals first
        | exact (setImsg ctx _).trans (newFrame done)
        | exact { newFrame done with }
        | cases done
    · cases done
      exact refl ctx

section

variable (ctx : Ctx)

theorem fail (statusCode : Nat) :
    ∃ more, Queues more ctx (ctx.fail statusCode).ctx ∧ dataMsgs more = [] :=
  queueCloseWrapper ctx statusCode []

theorem complete (opcode : Opcode) :
    ∃ more, Queues more ctx (ctx.complete opcode).ctx ∧ dataMsgs more = [] := by
  unfold Ctx.complete
  dsimp only
  split
  · split
    · exact fail ctx 1002
    · obtain ⟨more, queues, ctrl⟩ := queueCloseWrapper { ctx with closeReceived := true }
        (Ctx.closeStatus ctx.imsg.chunks) (ctx.imsg.chunks.drop 2)
      refine ⟨more, ?_, ctrl⟩
      split
      all_goals
        rename_i closed
        rw [closed] at queues
        exact { queues with }
  · split
    · rename_i queued
      exact ⟨_, queueMsgEx (by decide) queued, rfl⟩
    · exact ⟨[], refl ctx, rfl⟩
    · exact ⟨[], { refl ctx with }, rfl⟩
  · exact ⟨[], refl ctx, rfl⟩

theorem takeData (state : Nat) (data : Bytes) : Queues [] ctx (ctx.takeData state data) :=
  { setImsg { ctx with ipayloadoff := ctx.ipayloadoff + data.length } _ with }

theorem recvPayload (data : Bytes) (opcode : Opcode) :
    ∃ more, Queues more ctx (ctx.recvPayload data opcode).ctx ∧ dataMsgs more = [] := by
  unfold Ctx.recvPayload
  dsimp only
  generalize Ctx.utf8Next ctx.imsg opcode data = state
  have takes := takeData ctx state data
  split_ifs
  · obtain ⟨more, queues, ctrl⟩ := fail (ctx.setImsg { ctx.imsg with utf8state := state }) 1007
    exact ⟨more, (setImsg ctx _).trans queues, ctrl⟩
  · exact ⟨[], { takes with }, rfl⟩
  · obtain ⟨more, queues, ctrl⟩ := fail (ctx.takeData state data) 1007
    exact ⟨more, takes.trans queues, ctrl⟩
  · obtain ⟨more, queues, ctrl⟩ := complete (ctx.takeData state data) opcode
    exact ⟨more, takes.trans queues, ctrl⟩
  · exact ⟨[], takes, rfl⟩

theorem recvFrame (frame : FrameRecv) :
    ∃ more, Queues more ctx (ctx.recvFrame frame).ctx ∧ dataMsgs more = [] := by
  cases frame with
  | errProto => exact queueCloseWrapper ctx 0 []
  | iocb iocb =>
    unfold Ctx.recvFrame
    dsimp only
    split
    · exact fail ctx 1002
    · split
      · exact fail ctx _
      · rename_i accepted
        have keeps := accept accepted
        split
        · obtain ⟨more, queues, ctrl⟩ := recvPayload _ iocb.data _
          exact ⟨more, keeps.trans queues, ctrl⟩
        · exact ⟨[], keeps, rfl⟩

theorem endMessage : Queues [] ctx ctx.endMessage := { setImsg ctx _ with }

end

end Queues

end TrueAsync.Wslay

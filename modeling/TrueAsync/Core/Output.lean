import TrueAsync.Lib.Ascii
import TrueAsync.Lib.Returns

/-!
# Plaintext output of a connection

The writers of `src/core/http_connection.c`. The batched ones keep at most one write with the
reactor and append to `out_pending_buf` behind it; its completion submits what has gathered.
The others submit at once. `http_connection_destroy` waits for the write in flight.

A submit can fail, and then the reactor runs the write's callback before it returns; it may
also complete on the spot. So the callbacks nest: a completion submits the pending buffer,
whose failure runs the next completion, which ends in the deferred destroy or in an HTTP/2
session that writes again. What the environment decides in such a nest is listed in `Env`, and
the recursion is on those lists. The connection is gone once `conn` is `none`, and every access
after that is a fault.
-/

namespace TrueAsync.Core

open TrueAsync.Lib

/-- Bytes on their way to the socket, with the number of the writer call that brought them. -/
structure Chunk where
  call : Nat
  bytes : Bytes
  deriving DecidableEq, Repr

/-- The callback of a submitted write. -/
inductive WriteCb
  /-- `http_send_batched_completion_cb`. -/
  | batched
  /-- `http_send_batched_zstr_completion_cb`. -/
  | zstr
  /-- `http_send_batched_writev_completion_cb`. -/
  | writev
  /-- A callback that only releases the buffer. -/
  | direct
  deriving DecidableEq, Repr

/-- What the reactor makes of a submit: it takes the write, completes it on the spot, or fails.
In the last two cases the callback runs before the submit returns. -/
inductive Outcome
  | queued
  | done
  | failed
  deriving DecidableEq, Repr

/-- `http_connection_t` as far as the plaintext writers and `http_connection_destroy` read it. -/
structure OutConn where
  outInFlight : Bool := false
  outPending : List Chunk := []
  /-- The call whose `free_cb` is stashed in `out_writev_user_cb`. -/
  outWritevUser : Option Nat := none
  destroyPending : Bool := false
  destroyMicrotask : Bool := false
  handlerRefcount : Nat := 0
  inParserFeed : Bool := false
  writeTimedOut : Bool := false
  /-- `protocol_type == HTTP_PROTOCOL_HTTP2`. -/
  http2 : Bool := false
  deriving DecidableEq, Repr

/-- The connection, the reactor and what has happened so far. -/
structure OutState where
  /-- `none` after `conn_arena_free`. -/
  conn : Option OutConn
  /-- The callbacks of the writes that the reactor holds. -/
  outstanding : List WriteCb := []
  /-- What the reactor has taken, in the order of the submits. -/
  wire : List Chunk := []
  /-- Writer calls so far, and all that they were asked to send. -/
  calls : Nat := 0
  asked : List Chunk := []
  /-- A call was refused or a submit failed. -/
  lost : Bool := false
  /-- `free_cb`s that have run for the calls of `send_batched_writev`. -/
  released : List Nat := []
  /-- How often `out_in_flight` was set and cleared. -/
  sets : Nat := 0
  clears : Nat := 0
  /-- `http_connection_destroy` was called, and how often it got past its gates. -/
  requested : Bool := false
  destroys : Nat := 0
  deriving DecidableEq, Repr

/-- An access to a connection that has been freed. -/
inductive OutFault
  | freed
  deriving DecidableEq, Repr

abbrev OutM := Except OutFault

abbrev OutAction := OutState → OutM OutState

/-! ## Access -/

/-- Read through `conn`. -/
def OutState.read (st : OutState) : OutM OutConn :=
  match st.conn with
  | some c => pure c
  | none => .error .freed

/-- Write through `conn`. -/
def OutState.write (st : OutState) (f : OutConn → OutConn) : OutM OutState := do
  let c ← st.read
  pure { st with conn := some (f c) }

section Access

variable {st : OutState} {c : OutConn} (here : st.conn = some c)
include here

theorem read_of : st.read = .ok c := by
  unfold OutState.read
  rw [here]
  rfl

theorem write_of (f : OutConn → OutConn) : st.write f = .ok { st with conn := some (f c) } := by
  unfold OutState.write
  rw [read_of here]
  rfl

end Access

/-- `conn->out_in_flight = true`. -/
def setInFlight (st : OutState) : OutM OutState := do
  let st ← st.write fun c => { c with outInFlight := true }
  pure { st with sets := st.sets + 1 }

/-- `conn->out_in_flight = false`. -/
def clearInFlight (st : OutState) : OutM OutState := do
  let st ← st.write fun c => { c with outInFlight := false }
  pure { st with clears := st.clears + 1 }

variable {st : OutState} {c : OutConn}

theorem setInFlight_of (here : st.conn = some c) : setInFlight st = .ok { st with
      conn := some { c with outInFlight := true }, sets := st.sets + 1 } := by
  unfold setInFlight
  rw [write_of here]
  rfl

theorem clearInFlight_of (here : st.conn = some c) : clearInFlight st = .ok { st with
      conn := some { c with outInFlight := false }, clears := st.clears + 1 } := by
  unfold clearInFlight
  rw [write_of here]
  rfl

/-- A writer call: its slices get the number of the call. Slices without bytes leave no trace in
any buffer. -/
def OutState.slices (st : OutState) (bufs : List Bytes) : List Chunk :=
  (bufs.filter (· ≠ [])).map fun bytes => { call := st.calls, bytes }

def OutState.ask (st : OutState) (bufs : List Bytes) : OutState :=
  { st with calls := st.calls + 1, asked := st.asked ++ st.slices bufs }

/-- `http_absorb_io_submission_exception`: the reactor has thrown, and `conn->log_state` gets
the text. -/
def httpAbsorbIoSubmissionException (st : OutState) : OutM OutState := do
  let _ ← st.read
  pure st

/-- `out_signal_drain`: `on_outbound_drain` wakes a producer and leaves the connection as it
is. -/
def outSignalDrain (st : OutState) : OutM OutState := do
  let _ ← st.read
  pure st

theorem httpAbsorb_of (here : st.conn = some c) : httpAbsorbIoSubmissionException st = .ok st := by
  unfold httpAbsorbIoSubmissionException
  rw [read_of here]
  rfl

theorem outSignalDrain_of (here : st.conn = some c) : outSignalDrain st = .ok st := by
  unfold outSignalDrain
  rw [read_of here]
  rfl

/-- `ZEND_ASYNC_IO_WRITE_EX` and its kin on `conn->io`: whether there is a request, after the
callback has run where it runs at once. -/
def zendAsyncIoWriteEx (outcome : Outcome) (chunks : List Chunk) (cb : WriteCb)
    (callback : OutAction) (st : OutState) : OutM (Bool × OutState) := do
  let _ ← st.read
  match outcome with
  | .queued => pure (true, { st with
      wire := st.wire ++ chunks, outstanding := st.outstanding ++ [cb] })
  | .done => do
      let st ← callback { st with wire := st.wire ++ chunks }
      pure (true, st)
  | .failed => do
      let st ← callback { st with lost := true }
      pure (false, st)

/-- A submit as the writers make it: the exception of a failure is absorbed. -/
def submit (outcome : Outcome) (chunks : List Chunk) (cb : WriteCb) (callback : OutAction)
    (st : OutState) : OutM (Bool × OutState) := do
  let (submitted, st) ← zendAsyncIoWriteEx outcome chunks cb callback st
  if submitted then pure (true, st)
  else do
    let st ← httpAbsorbIoSubmissionException st
    pure (false, st)

/-! ## Destroy -/

/-- `http_connection_destroy` up to `conn_arena_free`. The TLS gate does not apply. -/
def httpConnectionDestroy (st : OutState) : OutM OutState := do
  let c ← st.read
  let st ← st.write fun c => { c with destroyMicrotask := false }
  if c.handlerRefcount > 0 ∨ c.outInFlight ∨ c.inParserFeed then do
    let st ← st.write fun c => { c with destroyPending := true }
    pure { st with requested := true }
  else
    pure { st with conn := none, requested := true, destroys := st.destroys + 1 }

def OutState.destroyed (st : OutState) (c : OutConn) : OutState :=
  if c.handlerRefcount > 0 ∨ c.outInFlight ∨ c.inParserFeed then
    { st with
      conn := some { c with destroyMicrotask := false, destroyPending := true }
      requested := true }
  else { st with conn := none, requested := true, destroys := st.destroys + 1 }

theorem httpConnectionDestroy_of (here : st.conn = some c) :
    httpConnectionDestroy st = .ok (st.destroyed c) := by
  unfold httpConnectionDestroy OutState.destroyed
  rw [read_of here, ok_bind, write_of here, ok_bind]
  split
  · rfl
  · rfl

def resumeDestroy (st : OutState) : OutM OutState := do
  let st ← st.write fun c => { c with destroyPending := false }
  httpConnectionDestroy st

theorem resumeDestroy_of (here : st.conn = some c) : resumeDestroy st = .ok (st.destroyed c) := by
  unfold resumeDestroy
  rw [write_of here, ok_bind, httpConnectionDestroy_of rfl]
  rfl

/-- `http_connection_destroy_if_idle_deferred`. -/
def httpConnectionDestroyIfIdleDeferred (st : OutState) : OutM OutState := do
  let c ← st.read
  if c.handlerRefcount ≠ 0 ∨ c.destroyPending = false ∨ c.destroyMicrotask then pure st
  else st.write fun c => { c with destroyMicrotask := true }

/-! ## Completions -/

/-- `http_send_batched_finish`; `emit` is `http2_conn_notify_emit`. -/
def httpSendBatchedFinish (emit : OutAction) (st : OutState) : OutM OutState := do
  let st ← clearInFlight st
  let c ← st.read
  if c.destroyPending ∧ c.handlerRefcount = 0 then
    resumeDestroy st
  else do
    let st ← outSignalDrain st
    emit st

/-- The pending buffer as the next write. `out_in_flight` stays up, unless the submit fails. -/
def submitPending (outcome : Outcome) (callback : OutAction) (st : OutState) :
    OutM (Bool × OutState) := do
  let c ← st.read
  let st ← st.write fun c => { c with outPending := [] }
  let (submitted, st) ← submit outcome c.outPending .batched callback st
  if submitted then pure (true, st)
  else do
    let st ← clearInFlight st
    pure (false, st)

def completeBatched (emit : OutAction) (outcome : Outcome) (callback : OutAction) (st : OutState) :
    OutM OutState := do
  let c ← st.read
  if c.outPending = [] then httpSendBatchedFinish emit st
  else do
    let (submitted, st) ← submitPending outcome callback st
    if submitted then outSignalDrain st else pure st

/-- `http_send_batched_completion_cb`, with the outcomes of the submits in it. -/
def httpSendBatchedCompletionCb (emit : OutAction) : List Outcome → OutAction
  | [] => completeBatched emit .queued pure
  | outcome :: drains => completeBatched emit outcome (httpSendBatchedCompletionCb emit drains)

/-- `h1_batched_drain_pending`: whether a write is on its way. -/
def h1BatchedDrainPending (emit : OutAction) (drains : List Outcome) (st : OutState) :
    OutM (Bool × OutState) := do
  let c ← st.read
  if c.outPending = [] then pure (false, st)
  else submitPending (drains.headD .queued) (httpSendBatchedCompletionCb emit drains.tail) st

/-- `http_send_batched_zstr_completion_cb`. A failed drain has already finished once, so there
are two occasions for the HTTP/2 session. -/
def httpSendBatchedZstrCompletionCb (emit again : OutAction) (drains : List Outcome)
    (st : OutState) : OutM OutState := do
  let (drained, st) ← h1BatchedDrainPending emit drains st
  if drained then pure st
  else httpSendBatchedFinish again st

/-- `http_send_batched_writev_completion_cb`: the user's callback, and then the steps of
`http_send_batched_completion_cb`. -/
def httpSendBatchedWritevCompletionCb (emit : OutAction) (drains : List Outcome)
    (st : OutState) : OutM OutState := do
  let c ← st.read
  let st ← st.write fun c => { c with outWritevUser := none }
  httpSendBatchedCompletionCb emit drains
    { st with released := st.released ++ c.outWritevUser.toList }

theorem httpSendBatchedWritevCompletionCb_of (here : st.conn = some c) :
    httpSendBatchedWritevCompletionCb emit drains st = httpSendBatchedCompletionCb emit drains { st with
      conn := some { c with outWritevUser := none }
      released := st.released ++ c.outWritevUser.toList } := by
  unfold httpSendBatchedWritevCompletionCb
  rw [read_of here, ok_bind, write_of here, ok_bind]

/-! ## Writers -/

/-- A buffer for a batched writer: behind the write in flight, or as the next one. -/
def sendBatchedBuf (cb : WriteCb) (callback : OutAction) (outcome : Outcome) (buf : Bytes)
    (st : OutState) : OutM (Bool × OutState) :=
  if buf = [] then pure (true, st)
  else do
    let c ← st.read
    let chunks := st.slices [buf]
    let st := st.ask [buf]
    if c.writeTimedOut then pure (false, { st with lost := true })
    else if c.outInFlight then do
      let st ← st.write fun c => { c with outPending := c.outPending ++ chunks }
      pure (true, st)
    else do
      let st ← setInFlight st
      submit outcome chunks cb callback st

/-- `http_connection_send_batched`. -/
def httpConnectionSendBatched (emit : OutAction) (drains : List Outcome) (outcome : Outcome)
    (buf : Bytes) (st : OutState) : OutM (Bool × OutState) :=
  sendBatchedBuf .batched (httpSendBatchedCompletionCb emit drains) outcome buf st

/-- `http_connection_send_zstr_batched`. -/
def httpConnectionSendZstrBatched (emit again : OutAction) (drains : List Outcome)
    (outcome : Outcome) (body : Bytes) (st : OutState) : OutM (Bool × OutState) :=
  sendBatchedBuf .zstr (httpSendBatchedZstrCompletionCb emit again drains) outcome body st

/-- `http_connection_send_batched_writev`. The `free_cb` runs at once where the slices are not
needed any more. -/
def httpConnectionSendBatchedWritev (emit : OutAction) (drains : List Outcome)
    (outcome : Outcome) (iov : List Bytes) (st : OutState) :
    OutM (Bool × OutState) := do
  let c ← st.read
  let call := st.calls
  let chunks := st.slices iov
  let st := st.ask iov
  if iov = [] then pure (true, { st with released := st.released ++ [call] })
  else if c.writeTimedOut then
    pure (false, { st with lost := true, released := st.released ++ [call] })
  else if c.outInFlight then do
    let st ← st.write fun c => { c with outPending := c.outPending ++ chunks }
    pure (true, { st with released := st.released ++ [call] })
  else do
    let st ← st.write fun c => { c with outWritevUser := some call }
    let st ← setInFlight st
    submit outcome chunks .writev (httpSendBatchedWritevCompletionCb emit drains) st

/-- A writer that submits at once. Its callback releases the buffer. -/
def sendDirect (outcome : Outcome) (bufs : List Bytes) (st : OutState) :
    OutM (Bool × OutState) := do
  let c ← st.read
  let chunks := st.slices bufs
  let st := st.ask bufs
  if c.writeTimedOut then pure (false, { st with lost := true })
  else submit outcome chunks .direct pure st

theorem sendDirect_eq (here : st.conn = some c) (inTime : c.writeTimedOut = false)
    (outcome : Outcome) (bufs : List Bytes) : sendDirect outcome bufs st = .ok (match outcome with
      | .queued => (true, { st.ask bufs with
          wire := st.wire ++ st.slices bufs, outstanding := st.outstanding ++ [.direct] })
      | .done => (true, { st.ask bufs with wire := st.wire ++ st.slices bufs })
      | .failed => (false, { st.ask bufs with lost := true })) := by
  cases st
  cases c
  cases here
  cases inTime
  cases outcome <;> rfl

/-- `http_connection_send_str_owned`. -/
def httpConnectionSendStrOwned (outcome : Outcome) (body : Bytes) (st : OutState) :
    OutM (Bool × OutState) :=
  if body = [] then pure (true, st) else sendDirect outcome [body] st

/-- `http_connection_send_strv_owned`. -/
def httpConnectionSendStrvOwned (outcome : Outcome) (bufs : List Bytes) (st : OutState) :
    OutM (Bool × OutState) :=
  if bufs = [] then pure (true, st) else sendDirect outcome bufs st

/-- `http_connection_send_raw` up to its await. A write timer that cannot be armed refuses the
call. -/
def httpConnectionSendRaw (outcome : Outcome) (armed : Bool) (data : Bytes) (st : OutState) :
    OutM (Bool × OutState) :=
  if data = [] then pure (true, st)
  else if armed then sendDirect outcome [data] st
  else do
    let _ ← st.read
    pure (false, { st.ask [data] with lost := true })

/-! ## The HTTP/2 session -/

/-- The frames an HTTP/2 session has to send when it is asked, and what the reactor makes of
them. -/
structure Emission where
  iov : List Bytes
  outcome : Outcome := .queued
  drains : List Outcome := []
  deriving DecidableEq, Repr

/-- `http2_conn_notify_emit`: the session writes if nothing is in flight. A write that completes
at once asks it again. -/
def http2ConnNotifyEmit : List Emission → OutAction
  | [], st => do
      let _ ← st.read
      pure st
  | e :: later, st => do
      let c ← st.read
      if c.http2 ∧ c.writeTimedOut = false ∧ c.outInFlight = false then do
        let (_, st) ← httpConnectionSendBatchedWritev (http2ConnNotifyEmit later) e.drains
          e.outcome e.iov st
        pure st
      else pure st

/-! ## Events -/

/-- A call of a plaintext writer. -/
inductive Writer
  | raw (data : Bytes) (armed : Bool)
  | strOwned (body : Bytes)
  | strvOwned (bufs : List Bytes)
  | batched (buf : Bytes)
  | zstrBatched (body : Bytes)
  | batchedWritev (iov : List Bytes)
  deriving DecidableEq, Repr

/-- The environment's part in an event: the outcome of the call's own submit, the outcomes of
the submits of the pending buffer, and the frames the HTTP/2 session hands out. -/
structure Env where
  outcome : Outcome := .queued
  drains : List Outcome := []
  emits : List Emission := []
  again : List Emission := []
  deriving DecidableEq, Repr

def Writer.run (env : Env) : Writer → OutState → OutM (Bool × OutState)
  | .raw data armed => httpConnectionSendRaw env.outcome armed data
  | .strOwned body => httpConnectionSendStrOwned env.outcome body
  | .strvOwned bufs => httpConnectionSendStrvOwned env.outcome bufs
  | .batched buf =>
      httpConnectionSendBatched (http2ConnNotifyEmit env.emits) env.drains env.outcome buf
  | .zstrBatched body => httpConnectionSendZstrBatched (http2ConnNotifyEmit env.emits)
      (http2ConnNotifyEmit env.again) env.drains env.outcome body
  | .batchedWritev iov =>
      httpConnectionSendBatchedWritev (http2ConnNotifyEmit env.emits) env.drains env.outcome iov

def WriteCb.run (env : Env) : WriteCb → OutAction
  | .batched => httpSendBatchedCompletionCb (http2ConnNotifyEmit env.emits) env.drains
  | .zstr => httpSendBatchedZstrCompletionCb (http2ConnNotifyEmit env.emits)
      (http2ConnNotifyEmit env.again) env.drains
  | .writev => httpSendBatchedWritevCompletionCb (http2ConnNotifyEmit env.emits) env.drains
  | .direct => pure

/-- What can happen. -/
inductive OutEvent
  | send (w : Writer) (env : Env)
  /-- The reactor is through with the `i`-th write that it holds. -/
  | complete (i : Nat) (env : Env)
  | destroy
  /-- A handler takes a reference on the connection. -/
  | pin
  /-- A handler drops its reference: an HTTP/1 handler takes up a waiting destroy itself, the
  others leave it to a microtask. -/
  | unpin (deferred : Bool)
  | microtask
  /-- `http1_feed` is entered or left. -/
  | feed (active : Bool)
  /-- The write timer fires. -/
  | writeTimeout
  deriving DecidableEq, Repr

/-- The end of `http_request_finalize`, or of an HTTP/2 stream. -/
def releasePin (deferred : Bool) (c : OutConn) (st : OutState) : OutM OutState :=
  if c.handlerRefcount = 0 then pure st
  else do
    let st ← st.write fun c => { c with handlerRefcount := c.handlerRefcount - 1 }
    if deferred then httpConnectionDestroyIfIdleDeferred st
    else if c.handlerRefcount = 1 ∧ c.destroyPending then resumeDestroy st
    else pure st

/-- `conn_destroy_microtask_handler`. -/
def connDestroyMicrotaskHandler (c : OutConn) (st : OutState) : OutM OutState :=
  if c.destroyMicrotask then do
    let st ← st.write fun c => { c with destroyMicrotask := false }
    if c.handlerRefcount = 0 ∧ c.destroyPending then resumeDestroy st else pure st
  else pure st

/-- The parser is entered, or left: then `http_connection_handle_read_completion` has its caller
destroy a connection that waits for it. -/
def parserFeed (active : Bool) (c : OutConn) (st : OutState) : OutM OutState := do
  let st ← st.write fun c => { c with inParserFeed := active }
  if active = false ∧ c.destroyPending ∧ c.handlerRefcount = 0 then httpConnectionDestroy st
  else pure st

/-- One event. Nobody calls into a connection that is gone; its writes still end. -/
def stepOut (st : OutState) (event : OutEvent) : OutM OutState :=
  match event, st.conn with
  | .complete i env, _ =>
      match st.outstanding[i]? with
      | none => pure st
      | some cb => cb.run env { st with outstanding := st.outstanding.eraseIdx i }
  | .send w env, some _ => do
      let (_, st) ← w.run env st
      pure st
  | .destroy, some _ => httpConnectionDestroy st
  | .pin, some _ => st.write fun c => { c with handlerRefcount := c.handlerRefcount + 1 }
  | .unpin deferred, some c => releasePin deferred c st
  | .microtask, some c => connDestroyMicrotaskHandler c st
  | .feed active, some c => parserFeed active c st
  | .writeTimeout, some _ => st.write fun c => { c with writeTimedOut := true }
  | _, none => pure st

def runOut (events : List OutEvent) (st : OutState) : OutM OutState :=
  events.foldlM stepOut st

def OutState.start (http2 : Bool) : OutState := { conn := some { http2 } }

end TrueAsync.Core

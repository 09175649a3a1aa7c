import TrueAsync.Lib.Ascii
import TrueAsync.Lib.History

/-!
# Streams of request bodies

The body queue of `src/http_body_stream.c` and what HTTP/2 does with it. A chunk is credited when it
comes in and is buffered, or when it is taken out of the queue, and a request can go over from the
first to the second: bytes that are credited are then in the queue, as many as `body_precredited`.
-/

namespace TrueAsync.Http2

open TrueAsync.Lib

/-- `http_request_t` and its stream, as far as the body goes through them. -/
structure BodyStream where
  /-- `body_h2_session != NULL`. -/
  h2 : Bool
  /-- `request_body_buf` of the stream. -/
  bodyBuf : Bytes := []
  bodyQueue : List Bytes := []
  bodyBytesQueued : Nat := 0
  bodyBytesConsumed : Nat := 0
  bodyPrecredited : Nat := 0
  bodyStreaming : Bool := false
  complete : Bool := false
  bodyEof : Bool := false
  bodyError : Bool := false
  /-- What has been pushed and popped. -/
  pushed : Bytes := []
  popped : Bytes := []
  /-- How many bytes came in, and how many `nghttp2_session_consume` was told of. -/
  received : Nat := 0
  credited : Nat := 0
  deriving DecidableEq, Repr

namespace BodyStream

/-- `http_body_stream_push`. -/
def httpBodyStreamPush (data : Bytes) (req : BodyStream) : BodyStream :=
  { req with
    bodyQueue := req.bodyQueue ++ [data]
    bodyBytesQueued := req.bodyBytesQueued + data.length
    pushed := req.pushed ++ data }

/-- `http_body_stream_close`. -/
def httpBodyStreamClose (req : BodyStream) : BodyStream := { req with bodyEof := true }

/-- `http_body_stream_error`. -/
def httpBodyStreamError (req : BodyStream) : BodyStream :=
  httpBodyStreamClose { req with bodyError := true }

/-- `http_body_stream_pop`. -/
def httpBodyStreamPop (req : BodyStream) : BodyStream :=
  match req.bodyQueue with
  | [] => req
  | data :: queue =>
      let skip := min data.length req.bodyPrecredited
      { req with
        bodyQueue := queue
        bodyBytesQueued := req.bodyBytesQueued - data.length
        bodyBytesConsumed := req.bodyBytesConsumed + data.length
        bodyPrecredited := req.bodyPrecredited - skip
        popped := req.popped ++ data
        credited := if req.h2 then req.credited + (data.length - skip) else req.credited }

/-- `http2_request_body_upgrade`. -/
def http2RequestBodyUpgrade (req : BodyStream) : BodyStream :=
  if req.bodyStreaming ∨ req.complete then req
  else
    let moved := if req.bodyBuf = [] then req
      else httpBodyStreamPush req.bodyBuf { req with
        bodyBuf := [], bodyPrecredited := req.bodyPrecredited + req.bodyBuf.length }
    { moved with bodyStreaming := true }

/-- The limit that `cb_on_data_chunk_recv` checks. -/
def fits (cap : Nat) (uncapped : Bool) (req : BodyStream) (len : Nat) : Bool :=
  if req.bodyStreaming then req.bodyBytesQueued + len ≤ cap &&
    (uncapped || req.bodyBytesConsumed + req.bodyBytesQueued + len ≤ cap)
  else req.bodyBuf.length + len ≤ cap

/-- `cb_on_data_chunk_recv`. A chunk over the limit is dropped with an error code, and so is one for
which the buffer cannot grow: `oom` is the `zend_catch` of the buffered branch. -/
def cbOnDataChunkRecv (cap : Nat) (uncapped : Bool) (data : Bytes) (oom : Bool)
    (req : BodyStream) : BodyStream :=
  let arrived := { req with received := req.received + data.length }
  if req.fits cap uncapped data.length then
    if req.bodyStreaming then httpBodyStreamPush data arrived
    else if oom then arrived
    else { arrived with bodyBuf := req.bodyBuf ++ data, credited := req.credited + data.length }
  else arrived

/-- `finalize_request_body`. -/
def finalizeRequestBody (req : BodyStream) : BodyStream :=
  if req.bodyStreaming then { httpBodyStreamClose req with complete := true }
  else { req with bodyBuf := [], complete := true }

end BodyStream

/-- What happens to the body of a request. -/
inductive BodyEvent
  /-- A chunk that comes in over another protocol. -/
  | push (data : Bytes)
  /-- A chunk that comes in over HTTP/2; `oom` where the memory limit stands in its way. -/
  | recv (data : Bytes) (oom : Bool)
  | pop
  | upgrade
  | finish
  | close
  | error
  deriving DecidableEq, Repr

open BodyStream

/-- One event. A chunk comes in over the protocol of the request only. -/
def stepBody (cap : Nat) (uncapped : Bool) (req : BodyStream) : BodyEvent → BodyStream
  | .push data => if req.h2 then req else httpBodyStreamPush data req
  | .recv data oom => if req.h2 then cbOnDataChunkRecv cap uncapped data oom req else req
  | .pop => httpBodyStreamPop req
  | .upgrade => http2RequestBodyUpgrade req
  | .finish => finalizeRequestBody req
  | .close => httpBodyStreamClose req
  | .error => httpBodyStreamError req

/-- The queue holds what was pushed and not popped, and on HTTP/2 a byte that came in is credited or
is in the queue and owed. -/
structure BodyConserved (req : BodyStream) : Prop where
  bytes : req.popped ++ req.bodyQueue.flatten = req.pushed
  queued : req.bodyBytesQueued = req.bodyQueue.flatten.length
  once : req.bodyPrecredited ≤ req.bodyBytesQueued
  credit : req.h2 = true → req.credited + (req.bodyBytesQueued - req.bodyPrecredited) = req.received

variable {cap : Nat} {uncapped : Bool} {req : BodyStream}

section

variable (conserved : BodyConserved req)
include conserved

theorem BodyConserved.push (data buf : Bytes)
    (pre received : Nat) (once : pre ≤ req.bodyBytesQueued + data.length) (credit : req.h2 = true →
      req.credited + (req.bodyBytesQueued + data.length - pre) = received) :
    BodyConserved (httpBodyStreamPush data
      { req with bodyBuf := buf, bodyPrecredited := pre, received }) where
  bytes := by simp [httpBodyStreamPush, ← conserved.bytes]
  queued := by simp [httpBodyStreamPush, conserved.queued]
  once := once
  credit := credit

theorem BodyConserved.pop : BodyConserved (httpBodyStreamPop req) := by
  unfold httpBodyStreamPop
  split
  · exact conserved
  · rename_i data queue front
    obtain ⟨bytes, queued, once, credit⟩ := conserved
    rw [front, List.flatten_cons] at bytes queued
    rw [List.length_append] at queued
    exact ⟨by simp [← bytes], by grind, by grind, by grind⟩

theorem BodyConserved.upgrade : BodyConserved (http2RequestBodyUpgrade req) := by
  have once := conserved.once
  have credit := conserved.credit
  unfold http2RequestBodyUpgrade
  split
  · exact conserved
  · split
    · exact { conserved with }
    · exact { conserved.push req.bodyBuf [] (req.bodyPrecredited + req.bodyBuf.length)
        req.received (by omega) (by grind) with }

end

/-- The chunk is under the limit, and the memory for it is there if it is to be buffered. -/
def Kept (cap : Nat) (uncapped : Bool) (req : BodyStream) (data : Bytes) (oom : Bool) : Prop :=
  req.fits cap uncapped data.length = true ∧ (oom = true → req.bodyStreaming = true)

/-- A chunk that comes in is kept. -/
def Taken (cap : Nat) (uncapped : Bool) (req : BodyStream) : BodyEvent → Prop
  | .recv data oom => req.h2 = true → data ≠ [] → Kept cap uncapped req data oom
  | _ => True

/-- A chunk that is dropped has been received, and nothing else has changed. -/
theorem cbOnDataChunkRecv_dropped (dropped : ¬ Kept cap uncapped req data oom) :
    cbOnDataChunkRecv cap uncapped data oom req =
      { req with received := req.received + data.length } := by
  unfold cbOnDataChunkRecv
  split
  · rename_i fits
    have refused : ¬ (oom = true → req.bodyStreaming = true) := fun room => dropped ⟨fits, room⟩
    obtain ⟨full, buffered⟩ := Classical.not_imp.mp refused
    rw [if_neg buffered, if_pos full]
  · rfl

theorem BodyConserved.recv_kept (conserved : BodyConserved req) (http2 : req.h2 = true)
    (kept : Kept cap uncapped req data oom) :
    BodyConserved (cbOnDataChunkRecv cap uncapped data oom req) := by
  obtain ⟨fits, room⟩ := kept
  have once := conserved.once
  have credit := conserved.credit http2
  rw [cbOnDataChunkRecv, if_pos fits]
  by_cases streaming : req.bodyStreaming = true
  · rw [if_pos streaming]
    exact conserved.push data req.bodyBuf req.bodyPrecredited _ (by omega) (by omega)
  · rw [if_neg streaming, if_neg (fun full => streaming (room full))]
    refine ⟨conserved.bytes, conserved.queued, once, fun _ => ?_⟩
    dsimp only
    omega

theorem BodyConserved.recv_iff (conserved : BodyConserved req) (http2 : req.h2 = true)
    (data : Bytes) (oom : Bool) : BodyConserved (cbOnDataChunkRecv cap uncapped data oom req) ↔
      (data ≠ [] → Kept cap uncapped req data oom) := by
  by_cases kept : Kept cap uncapped req data oom
  · exact iff_of_true (conserved.recv_kept http2 kept) fun _ => kept
  · rw [cbOnDataChunkRecv_dropped kept]
    constructor
    · intro next some
      have credit := conserved.credit http2
      have short : req.credited + (req.bodyBytesQueued - req.bodyPrecredited) =
        req.received + data.length := next.credit http2
      have length := List.length_pos_iff.mpr some
      omega
    · intro needed
      have empty : data = [] := by_contra fun some => kept (needed some)
      subst empty
      exact { conserved with }

theorem BodyConserved.step_iff (conserved : BodyConserved req) (event : BodyEvent) :
    BodyConserved (stepBody cap uncapped req event) ↔ Taken cap uncapped req event := by
  have once := conserved.once
  cases event with
  | push data =>
    refine iff_of_true ?_ trivial
    rw [stepBody]
    split
    · exact conserved
    · exact conserved.push data req.bodyBuf req.bodyPrecredited req.received (by omega) (by simp_all)
  | recv data oom =>
    rw [stepBody]
    split
    · rename_i http2
      simpa [Taken, http2] using conserved.recv_iff http2 data oom
    · simp_all [Taken]
  | pop => exact iff_of_true conserved.pop trivial
  | upgrade => exact iff_of_true conserved.upgrade trivial
  | finish =>
    refine iff_of_true ?_ trivial
    rw [stepBody, finalizeRequestBody]
    split <;> exact { conserved with }
  | close | error => exact iff_of_true { conserved with } trivial

end TrueAsync.Http2

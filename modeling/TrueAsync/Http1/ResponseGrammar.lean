import TrueAsync.Http1.ChunkGrammar
import TrueAsync.Http1.Stream

/-!
# The grammar of an HTTP/1 response

What the calls of a handler amount to is independent of the connection: a response object and
the payloads handed to the stream. The bytes on the wire are related to that step by step, and
compared with the grammar at the end of the handler.
-/

namespace TrueAsync.Http1

open TrueAsync.Lib TrueAsync.Response List HttpResponse HandlerCall

/-! ## What calls amount to -/

/-- The response with the payloads of the calls so far. -/
structure Sent where
  response : HttpResponse
  payloads : List Bytes := []
  deriving DecidableEq, Repr

/-- The last payload that `end` hands over. -/
def finalPayload : Option Bytes → List Bytes
  | some (b :: text) => [b :: text]
  | _ => []

def Sent.after (s : Sent) : HandlerCall → Sent
  | .stream call =>
      match call.prepare s.response with
      | .error _ => s
      | .ok (response, payload) => { response, payloads := s.payloads ++ payload.toList }
  | .finish data =>
      match endCheck s.response with
      | some _ => s
      | none =>
          if s.response.streaming then
            { response := { s.response with closed := true }
              payloads := s.payloads ++ finalPayload data }
          else { s with response := endBuffered data s.response }

def sentBy (version : HttpVersion) (isHead : Bool) (calls : List HandlerCall) : Sent :=
  calls.foldl Sent.after { response := start version isHead }

def Sent.data (s : Sent) : List Bytes := s.payloads.filter (· ≠ [])

def streamingHead (env : H1Env) (r : HttpResponse) : Bytes :=
  httpResponseFormatStreamingHeaders env.now (setAltSvcIfUnset env.transport.altSvc r)

/-- The bytes of a response fit the grammar. A streaming response is its head and, unless the
request was a HEAD, chunks with the data sent, which the last chunk ends if the response was
ended or the handler has returned. A buffered response is its head and, unless the request was a
HEAD, the body whose length the head gives. -/
def Conforms (env : H1Env) (ending : HandlerEnd) (s : Sent) (wire : Bytes) : Prop :=
  if s.response.streaming then
    ∃ body, wire = streamingHead env s.response ++ body ∧
      if s.response.isHead then body = []
      else decodeChunked body =
        some (s.data, decide (s.response.closed = true ∨ ending = .returned))
  else
    let r := settleResponse env.transport ending s.response
    wire = emitHeadersBlock env.now r r.bodyBytes.length ++
        (if s.response.isHead then [] else r.bodyBytes) ∧
      (ascii "Content-Length", numeral 10 r.bodyBytes.length) ∈
        headFields env.now r r.bodyBytes.length ∧
      ∀ field ∈ headFields env.now r r.bodyBytes.length, lower field.1 = ascii "content-length" →
        field.2 = numeral 10 r.bodyBytes.length

/-- What a handler that streams has to do: answer no HEAD, hand over a payload or end the
response, and return unless it has ended the response. -/
def Regular (ending : HandlerEnd) (s : Sent) : Prop :=
  s.response.streaming = true → s.response.isHead = false ∧
    (s.payloads ≠ [] ∨ s.response.closed = true) ∧
    (s.response.closed = true ∨ ending = .returned)

/-! ## Responses -/

/-- A response as the calls leave it. -/
structure Shaped (s : Sent) : Prop where
  payloads : s.payloads ≠ [] → s.response.streaming = true
  committed : s.response.committed = s.response.streaming
  headers : s.response.streaming = false → s.response.headers = []
  view : s.response.bodyView = none

variable {r r' : HttpResponse}

theorem sseEnsureStarted_ok (started : sseEnsureStarted r = .ok r') :
    r' = r ∧ r.streaming = true ∨ r.streaming = false ∧ r.closed = false ∧ ∃ headers, r' = { r with
      headers, streaming := true, sseMode := true, committed := true, headersSent := true } := by
  grind [sseEnsureStarted]

/-- What a call does to the response: nothing, or it starts to stream. -/
structure Prepared (r : HttpResponse) (out : HttpResponse × Option Bytes) : Prop where
  opened : r.closed = false
  same : out.1 = r ∨ r.streaming = false ∧ ∃ headers sseMode, out.1 = { r with
    headers, sseMode, streaming := true, committed := true, headersSent := true }
  streams : out.2 ≠ none → out.1.streaming = true

theorem map_ok {ε α β : Type} {m : Except ε α} {f : α → β} {b : β} (mapped : m.map f = .ok b) :
    ∃ a, m = .ok a ∧ f a = b := by
  cases m with
  | error e => cases mapped
  | ok a =>
    cases mapped
    exact ⟨a, rfl, rfl⟩

theorem startStreaming_eq :
    r.startStreaming = r ∨ r.streaming = false ∧ ∃ headers sseMode, r.startStreaming = { r with
      headers, sseMode, streaming := true, committed := true, headersSent := true } := by
  grind [startStreaming]

theorem startStreaming_streaming : r.startStreaming.streaming = true := by
  unfold startStreaming
  split
  · assumption
  · rfl

theorem prepared_sse (payload : Option Bytes) (opened : r.closed = false)
    (started : sseEnsureStarted r = .ok r') : Prepared r (r', payload) := by
  rcases sseEnsureStarted_ok started with ⟨rfl, streaming⟩ | ⟨buffered, _, headers, rfl⟩
  · exact ⟨opened, .inl rfl, fun _ => streaming⟩
  · exact ⟨opened, .inr ⟨buffered, headers, true, rfl⟩, fun _ => rfl⟩

variable {out : HttpResponse × Option Bytes}

theorem prepared {call : StreamCall} (ready : call.prepare r = .ok out) : Prepared r out := by
  cases call with
  | send chunk =>
    simp only [StreamCall.prepare, send] at ready
    repeat' split at ready
    all_goals cases ready
    · rename_i opened _ _ _
      exact ⟨Bool.eq_false_iff.mpr opened, .inl rfl, nofun⟩
    · rename_i opened _ _ _
      exact ⟨Bool.eq_false_iff.mpr opened, startStreaming_eq, fun _ => startStreaming_streaming⟩
  | writeMessage message =>
    simp only [StreamCall.prepare, writeMessage] at ready
    repeat' split at ready
    all_goals cases ready
    rename_i opened _
    exact ⟨Bool.eq_false_iff.mpr opened, startStreaming_eq, fun _ => startStreaming_streaming⟩
  | sseStart =>
    obtain ⟨r', started, rfl⟩ := map_ok ready
    unfold sseStart at started
    split at started
    · cases started
    · rename_i buffered
      rcases sseEnsureStarted_ok started with ⟨_, streaming⟩ | ⟨_, opened, headers, rfl⟩
      · exact absurd streaming buffered
      · exact ⟨opened, .inr ⟨Bool.eq_false_iff.mpr buffered, headers, true, rfl⟩, nofun⟩
  | sseEvent e =>
    simp only [StreamCall.prepare, sseEvent] at ready
    split at ready
    · cases ready
    · rename_i opened
      have opened := Bool.eq_false_iff.mpr opened
      repeat' split at ready
      all_goals try cases ready
      · exact ⟨opened, .inl rfl, nofun⟩
      · obtain ⟨r', started, rfl⟩ := map_ok ready
        exact prepared_sse _ opened started
  | sseComment | sseRetry =>
    simp only [StreamCall.prepare, sseComment, sseRetry] at ready
    repeat' split at ready
    all_goals try cases ready
    rename_i opened _
    obtain ⟨r', started, rfl⟩ := map_ok ready
    exact prepared_sse _ (Bool.eq_false_iff.mpr opened) started

theorem prepare_headers (call : StreamCall) (streaming : r.streaming = true) (headers : Headers) :
    call.prepare { r with headers } =
      (call.prepare r).map fun out => ({ out.1 with headers }, out.2) := by
  have start : ({ r with headers } : HttpResponse).startStreaming =
      { r.startStreaming with headers } := by
    simp [startStreaming, streaming]
  have sse : sseEnsureStarted { r with headers } =
      (sseEnsureStarted r).map fun r => { r with headers } := by
    unfold sseEnsureStarted
    rw [if_pos streaming, if_pos streaming]
    split <;> rfl
  cases call with
  | send | writeMessage =>
    simp only [StreamCall.prepare, send, writeMessage, start]
    repeat' split
    all_goals rfl
  | sseStart => simp [StreamCall.prepare, sseStart, streaming, Except.map]
  | sseEvent | sseComment | sseRetry =>
    simp only [StreamCall.prepare, sseEvent, sseComment, sseRetry, sse]
    repeat' split
    all_goals first
      | rfl
      | cases sseEnsureStarted r <;> rfl

/-! ## Writes -/

/-- Some bytes more are on the wire, and nothing else has changed. -/
structure Wrote (ctx : H1Ctx) (data : Bytes) (ctx' : H1Ctx) : Prop where
  wire : ctx'.wire = ctx.wire ++ data
  response : ctx'.response = ctx.response
  headers : ctx'.streamHeadersSent = ctx.streamHeadersSent

variable {ctx : H1Ctx} {data more : Bytes}

theorem Wrote.trans (first : Wrote ctx data ctx')
    (second : Wrote ctx' more ctx'') : Wrote ctx (data ++ more) ctx'' :=
  ⟨by rw [second.wire, first.wire, append_assoc], second.response.trans first.response,
    second.headers.trans first.headers⟩

/-- A writer on a connection that lives afterwards: it lived before, and took the bytes. -/
structure Took (ctx : H1Ctx) (data : Bytes) (out : Bool × H1Ctx) : Prop
    extends Wrote ctx data out.2 where
  taken : out.1 = true
  lived : ctx.dead = false

variable {env : H1Env}

theorem httpConnectionSend_took (lives : (httpConnectionSend env data ctx).2.dead = false) :
    Took ctx data (httpConnectionSend env data ctx) := by
  unfold httpConnectionSend at lives ⊢
  split
  · rename_i empty
    rw [if_pos empty] at lives
    exact { wire := by rw [empty, append_nil], response := rfl, headers := rfl, taken := rfl,
            lived := lives }
  · rename_i some
    rw [if_neg some] at lives
    split
    · rename_i takes
      rw [if_pos takes] at lives
      exact { wire := rfl, response := rfl, headers := rfl, taken := rfl, lived := lives }
    · grind

variable {next : H1Ctx → Bool × H1Ctx}

theorem Took.andThen {out : Bool × H1Ctx} (first : out.2.dead = false → Took ctx data out)
    (second : (next out.2).2.dead = false → Took out.2 more (next out.2))
    (lives : (andThen out next).2.dead = false) : Took ctx (data ++ more) (andThen out next) := by
  unfold Http1.andThen at lives ⊢
  split
  · rename_i sent
    rw [if_pos sent] at lives
    have second := second lives
    have first := first second.lived
    exact { first.toWrote.trans second.toWrote with taken := second.taken, lived := first.lived }
  · rename_i failed
    rw [if_neg failed] at lives
    exact absurd (first lives).taken failed

theorem sendChunk_took (lives : (sendChunk env chunk ctx).2.dead = false) :
    Took ctx (encodeChunk chunk) (sendChunk env chunk ctx) := by
  have whole : encodeChunk chunk = (numeral 16 chunk.length ++ crlf) ++ chunk ++ crlf := by
    simp [encodeChunk, crlf]
  unfold sendChunk at lives ⊢
  dsimp only at lives ⊢
  rw [whole]
  split
  · grind
  · rename_i short
    rw [if_neg short] at lives
    exact .andThen (.andThen httpConnectionSend_took httpConnectionSend_took)
      httpConnectionSend_took lives

/-! ## The wire -/

/-- The head of a response and the start of its body are on the wire. -/
structure Emits (env : H1Env) (r : HttpResponse) (body : Bytes) (ctx : H1Ctx) : Prop where
  headers : ctx.streamHeadersSent = true
  response : ctx.response = setAltSvcIfUnset env.transport.altSvc r
  wire : ctx.wire = streamingHead env r ++ body

/-- Nothing is on the wire. -/
structure Fresh (r : HttpResponse) (ctx : H1Ctx) : Prop where
  headers : ctx.streamHeadersSent = false
  response : ctx.response = r
  wire : ctx.wire = []

def HeadReady (env : H1Env) (r : HttpResponse) (body : Bytes) (ctx : H1Ctx) : Prop :=
  Emits env r body ctx ∨ body = [] ∧ Fresh r ctx

variable {body : Bytes}

theorem Emits.wrote (emits : Emits env r body ctx)
    (wrote : Wrote ctx more ctx') : Emits env r (body ++ more) ctx' :=
  ⟨wrote.headers.trans emits.headers, wrote.response.trans emits.response,
    by rw [wrote.wire, emits.wire, append_assoc]⟩

theorem h1CommitHeaders_emits (ready : ctx.dead = false → HeadReady env r body ctx)
    (lives : (h1CommitHeaders env ctx).2.dead = false) :
    (h1CommitHeaders env ctx).1 = true ∧ Emits env r body (h1CommitHeaders env ctx).2 := by
  unfold h1CommitHeaders at lives ⊢
  split
  · rename_i sent
    rw [if_pos sent] at lives
    rcases ready lives with emits | ⟨_, fresh⟩
    · exact ⟨rfl, emits⟩
    · rw [fresh.headers] at sent
      cases sent
  · rename_i unsent
    rw [if_neg unsent] at lives
    unfold h1EmitHeadersOnce at lives ⊢
    have took := httpConnectionSend_took lives
    rcases ready took.lived with emits | ⟨rfl, fresh⟩
    · exact absurd emits.headers unsent
    · refine ⟨took.taken, took.taken, ?_, ?_⟩
      · rw [took.response, fresh.response]
      · rw [took.wire, fresh.wire, fresh.response, append_nil]
        rfl

theorem andThen_lived {out : Bool × H1Ctx} (first : out.2.dead = false → ctx.dead = false)
    (second : (next out.2).2.dead = false → out.2.dead = false)
    (lives : (andThen out next).2.dead = false) : ctx.dead = false := by
  unfold andThen at lives
  split at lives
  · exact first (second lives)
  · exact first lives

theorem h1CommitHeaders_lived (lives : (h1CommitHeaders env ctx).2.dead = false) :
    ctx.dead = false := by
  unfold h1CommitHeaders at lives
  split at lives
  · exact lives
  · exact (httpConnectionSend_took lives).lived

def encodePayload (payload : Bytes) : Bytes := if payload = [] then [] else encodeChunk payload

theorem h1StreamAppendChunk_lived
    (lives : (h1StreamAppendChunk env payload ctx).2.dead = false) : ctx.dead = false := by
  refine andThen_lived h1CommitHeaders_lived (fun lives => ?_) lives
  split at lives
  · exact lives
  · exact (sendChunk_took lives).lived

theorem h1StreamAppendChunk_emits (ready : ctx.dead = false → HeadReady env r body ctx)
    (lives : (h1StreamAppendChunk env payload ctx).2.dead = false) :
    Emits env r (body ++ encodePayload payload) (h1StreamAppendChunk env payload ctx).2 := by
  unfold h1StreamAppendChunk andThen at lives ⊢
  split
  · rename_i sent
    rw [if_pos sent] at lives
    dsimp only at lives ⊢
    unfold encodePayload
    split
    · rename_i empty
      rw [if_pos empty] at lives
      rw [append_nil]
      exact (h1CommitHeaders_emits ready lives).2
    · rename_i some
      rw [if_neg some] at lives
      have took := sendChunk_took lives
      exact (h1CommitHeaders_emits ready took.lived).2.wrote took.toWrote
  · rename_i failed
    rw [if_neg failed] at lives
    exact absurd (h1CommitHeaders_emits ready lives).1 failed

theorem h1StreamMarkEnded_lived (lives : (h1StreamMarkEnded env ctx).dead = false) :
    ctx.dead = false :=
  andThen_lived h1CommitHeaders_lived (fun lives => (httpConnectionSend_took lives).lived) lives

theorem h1StreamMarkEnded_emits (ready : ctx.dead = false → HeadReady env r body ctx)
    (lives : (h1StreamMarkEnded env ctx).dead = false) :
    Emits env r (body ++ zeroChunk) (h1StreamMarkEnded env ctx) := by
  unfold h1StreamMarkEnded andThen at lives ⊢
  split
  · rename_i sent
    rw [if_pos sent] at lives
    have took := httpConnectionSend_took lives
    exact (h1CommitHeaders_emits ready took.lived).2.wrote took.toWrote
  · rename_i failed
    rw [if_neg failed] at lives
    exact absurd (h1CommitHeaders_emits ready lives).1 failed

theorem setAltSvcIfUnset_eq (altSvc : Option Bytes) :
    ∃ headers, setAltSvcIfUnset altSvc r = { r with headers } := by
  unfold setAltSvcIfUnset
  split
  · exact ⟨r.headers, rfl⟩
  · split
    · exact ⟨r.headers, rfl⟩
    · exact ⟨_, rfl⟩

theorem setAltSvcIfUnset_closed (altSvc : Option Bytes) :
    { setAltSvcIfUnset altSvc r with closed := true } =
      setAltSvcIfUnset altSvc { r with closed := true } := by
  unfold setAltSvcIfUnset
  split
  · rfl
  · dsimp only
    split <;> rfl

theorem streamingHead_closed :
    streamingHead env { r with closed := true } = streamingHead env r := by
  unfold streamingHead
  rw [← setAltSvcIfUnset_closed]
  rfl

theorem Emits.closed (emits : Emits env r body ctx) : Emits env { r with closed := true } body
      { ctx with response := { ctx.response with closed := true } } := by
  refine ⟨emits.headers, ?_, ?_⟩
  · rw [emits.response, setAltSvcIfUnset_closed]
  · rw [streamingHead_closed]
    exact emits.wire

variable {data : Option Bytes}

theorem endStreaming_lived (lives : (endStreaming env data ctx).dead = false) :
    ctx.dead = false := by
  have lives := h1StreamMarkEnded_lived lives
  split at lives
  · exact h1StreamAppendChunk_lived lives
  · exact lives

theorem endStreaming_emits (ready : HeadReady env r body ctx)
    (lives : (endStreaming env data ctx).dead = false) : Emits env { r with closed := true }
      (body ++ (finalPayload data).flatMap encodePayload ++ zeroChunk)
      (endStreaming env data ctx) := by
  apply Emits.closed
  refine h1StreamMarkEnded_emits (fun lived => ?_) lives
  unfold finalPayload
  split at lived
  · rw [flatMap_singleton]
    exact .inl (h1StreamAppendChunk_emits (fun _ => ready) lived)
  · simpa using ready

/-! ## Runs -/

def Sent.chunks (s : Sent) : Bytes := s.payloads.flatMap encodePayload

/-- The head of a streaming response goes out with the first payload, or at the end. -/
def Sent.started (s : Sent) : Bool := s.response.streaming && (s.payloads ≠ [] || s.response.closed)

def Matches (env : H1Env) (s : Sent) (ctx : H1Ctx) : Prop :=
  if s.started then
    Emits env s.response (s.chunks ++ if s.response.closed then zeroChunk else []) ctx
  else Fresh s.response ctx

variable {s : Sent}

theorem Matches.ready (shaped : Shaped s) (matched : Matches env s ctx)
    (opened : s.response.closed = false) : HeadReady env s.response s.chunks ctx := by
  unfold Matches at matched
  split at matched
  · rw [opened, if_neg Bool.false_ne_true, append_nil] at matched
    exact .inl matched
  · refine .inr ⟨?_, matched⟩
    grind [Shaped.payloads, Sent.started, Sent.chunks]

theorem Shaped.stream (shaped : Shaped s) (prepared : Prepared s.response out) :
    Shaped { response := out.1, payloads := s.payloads ++ out.2.toList } := by
  have payloads : s.payloads ++ out.2.toList ≠ [] → out.1.streaming = true := by
    grind [Prepared.same, Shaped.payloads, Prepared.streams]
  rcases prepared.same with same | ⟨_, headers, sseMode, same⟩
  · rw [same] at payloads ⊢
    exact { shaped with payloads := payloads }
  · rw [same] at payloads ⊢
    exact ⟨payloads, rfl, nofun, shaped.view⟩

theorem Shaped.after (shaped : Shaped s) (call : HandlerCall) : Shaped (s.after call) := by
  cases call with
  | stream call =>
    simp only [Sent.after]
    split
    · exact shaped
    · rename_i ready
      exact shaped.stream (prepared ready)
  | finish data =>
    simp only [Sent.after]
    split
    · exact shaped
    · split
      · rename_i streaming
        refine ⟨fun _ => streaming, shaped.committed, fun buffered => ?_, shaped.view⟩
        grind
      · cases data with
        | none => exact { shaped with }
        | some text => exact { shaped with view := rfl }

theorem Sent.chunks_append (payloads more : List Bytes) :
    Sent.chunks { response := r, payloads := payloads ++ more } =
      Sent.chunks { response := r, payloads } ++ more.flatMap encodePayload :=
  flatMap_append

theorem Prepared.closed (prepared : Prepared r out) : out.1.closed = false := by
  rcases prepared.same with same | ⟨_, _, _, same⟩
  all_goals
    rw [same]
    exact prepared.opened

theorem Matches.prepare (shaped : Shaped s) (matched : Matches env s ctx) (call : StreamCall) :
    (∀ thrown, call.prepare s.response = .error thrown →
      call.prepare ctx.response = .error thrown) ∧
    ∀ out, call.prepare s.response = .ok out → ∃ response,
      call.prepare ctx.response = .ok (response, out.2) ∧
        Matches env { s with response := out.1 } { ctx with response } := by
  unfold Matches at matched
  split at matched
  · rename_i started
    have streaming : s.response.streaming = true := by grind [Sent.started]
    obtain ⟨headers, alt⟩ := setAltSvcIfUnset_eq env.transport.altSvc
    have same := prepare_headers call streaming headers
    rw [← alt, ← matched.response] at same
    constructor
    · intro thrown ready
      rw [same, ready]
      rfl
    · intro out ready
      have prep := prepared ready
      rcases prep.same with unchanged | ⟨buffered, _⟩
      · refine ⟨ctx.response, ?_, ?_⟩
        · rw [same, ready, matched.response, alt, ← unchanged]
          rfl
        · rw [unchanged, Matches, if_pos started]
          exact matched
      · grind
  · constructor
    · intro thrown ready
      rw [matched.response, ready]
    · intro out ready
      have prep := prepared ready
      refine ⟨out.1, by rw [matched.response, ready], ?_⟩
      have none : s.payloads = [] := by grind [Shaped.payloads, Sent.started]
      rw [Matches, if_neg]
      · exact { matched with response := rfl }
      · simp [Sent.started, none, prep.closed]

theorem run_lived {call : HandlerCall} (lives : (call.run env ctx).2.dead = false) :
    ctx.dead = false := by
  cases call with
  | stream call =>
    simp only [run] at lives
    split at lives
    · exact lives
    · exact lives
    · have lived := h1StreamAppendChunk_lived lives
      exact lived
  | finish data =>
    simp only [run] at lives
    split at lives
    · exact lives
    · split at lives
      · exact endStreaming_lived lives
      · exact lives

theorem Matches.stream (shaped : Shaped s) (matched : Matches env s ctx) (call : StreamCall)
    (lives : (run env ctx (.stream call)).2.dead = false) :
    Matches env (s.after (.stream call)) (run env ctx (.stream call)).2 := by
  obtain ⟨throws, goes⟩ := matched.prepare shaped call
  simp only [run, Sent.after] at lives ⊢
  cases ready : call.prepare s.response with
  | error thrown =>
    rw [throws thrown ready]
    exact matched
  | ok out =>
    obtain ⟨response, same, matched'⟩ := goes out ready
    rw [same] at lives ⊢
    obtain ⟨r, payload⟩ := out
    have prep := prepared ready
    cases payload with
    | none => grind
    | some payload =>
      have shaped' : Shaped { s with response := r } := by
        have quiet : Prepared s.response (r, none) := ⟨prep.opened, prep.same, by simp⟩
        have kept := shaped.stream quiet
        rwa [Option.toList_none, append_nil] at kept
      have ready := matched'.ready shaped' prep.closed
      have emits := h1StreamAppendChunk_emits (fun _ => ready) lives
      have streaming : r.streaming = true := prep.streams (by simp)
      have opened : r.closed = false := prep.closed
      rw [Matches, if_pos (by simp [Sent.started, streaming])]
      grind [Sent.chunks_append]

theorem Matches.finish (shaped : Shaped s) (matched : Matches env s ctx) (data : Option Bytes)
    (lives : (run env ctx (.finish data)).2.dead = false) :
    Matches env (s.after (.finish data)) (run env ctx (.finish data)).2 := by
  obtain ⟨headers, same⟩ : ∃ headers, ctx.response = { s.response with headers } := by
    unfold Matches at matched
    split at matched
    · rw [matched.response]
      exact setAltSvcIfUnset_eq _
    · exact ⟨s.response.headers, matched.response⟩
  have check : endCheck ctx.response = endCheck s.response := by
    rw [same]
    rfl
  have streams : ctx.response.streaming = s.response.streaming := by rw [same]
  simp only [run, Sent.after, check, streams] at lives ⊢
  cases ready : endCheck s.response with
  | some thrown => exact matched
  | none =>
    rw [ready] at lives
    have opened : s.response.closed = false := by grind [endCheck]
    by_cases streaming : s.response.streaming = true
    · rw [if_pos streaming] at lives
      have emits := endStreaming_emits (matched.ready shaped opened) lives
      rw [if_pos streaming, if_pos streaming, Matches, if_pos (by simp [Sent.started, streaming]),
        Sent.chunks_append, if_pos rfl]
      exact emits
    · have unstarted : ¬ s.started = true := by simp [Sent.started, streaming]
      rw [Matches, if_neg unstarted] at matched
      rw [if_neg streaming, if_neg streaming, Matches, if_neg]
      · exact { matched with response := by rw [matched.response] }
      · cases data <;> simp [Sent.started, endBuffered, streaming]

theorem runCalls_matches (calls : List HandlerCall) (shaped : Shaped s)
    (matched : ctx.dead = false → Matches env s ctx)
    (lives : (calls.foldl (fun ctx call => (call.run env ctx).2) ctx).dead = false) :
    Shaped (calls.foldl Sent.after s) ∧ Matches env (calls.foldl Sent.after s)
        (calls.foldl (fun ctx call => (call.run env ctx).2) ctx) := by
  induction calls generalizing s ctx with
  | nil => exact ⟨shaped, matched lives⟩
  | cons call calls ih =>
    apply ih (shaped.after call) _ lives
    intro lives
    have matched := matched (run_lived lives)
    cases call with
    | stream call => exact matched.stream shaped call lives
    | finish data => exact matched.finish shaped data lives

/-! ## The end -/

/-- Two responses with the same flags. -/
structure SameFlags (r r' : HttpResponse) : Prop where
  streaming : r'.streaming = r.streaming
  closed : r'.closed = r.closed
  isHead : r'.isHead = r.isHead

theorem sameFlags_settle (transport : Transport) (ending : HandlerEnd) (r : HttpResponse) :
    SameFlags r (settleResponse transport ending r) := by
  have error : SameFlags r (errorResponse r ending) := by
    cases ending <;> exact ⟨rfl, rfl, rfl⟩
  have settled : SameFlags r { (if r.committed then r else errorResponse r ending) with
      committed := true } := by
    split
    · exact ⟨rfl, rfl, rfl⟩
    · exact { error with }
  unfold settleResponse
  dsimp only
  obtain ⟨headers, alt⟩ := setAltSvcIfUnset_eq transport.altSvc
  rw [alt]
  split
  all_goals exact { settled with }

theorem Matches.sameFlags (matched : Matches env s ctx) : SameFlags s.response ctx.response := by
  unfold Matches at matched
  split at matched
  · obtain ⟨headers, alt⟩ := setAltSvcIfUnset_eq env.transport.altSvc
    rw [matched.response, alt]
    exact ⟨rfl, rfl, rfl⟩
  · rw [matched.response]
    exact ⟨rfl, rfl, rfl⟩

theorem httpResponseFormatParts_body (now : Tm) :
    (httpResponseFormatParts now r).2.getD [] = r.bodyBytes := by
  grind [httpResponseFormatParts, bodyBytes]

/-- What `http_handler_coroutine_dispose` writes for a settled response. -/
def disposeBytes (env : H1Env) (r : HttpResponse) : Bytes :=
  if r.streaming then if r.closed then [] else zeroChunk
  else emitHeadersBlock env.now r r.bodyBytes.length ++ if r.isHead then [] else r.bodyBytes

variable {ending : HandlerEnd}

theorem dispose_wrote (lives : (httpHandlerCoroutineDispose env ending ctx).dead = false) :
    ctx.dead = false ∧ (httpHandlerCoroutineDispose env ending ctx).wire = ctx.wire ++
      disposeBytes env (settleResponse env.transport ending ctx.response) := by
  unfold httpHandlerCoroutineDispose at lives ⊢
  unfold disposeBytes
  dsimp only at lives ⊢
  split
  · rename_i streaming
    rw [if_pos streaming] at lives
    split
    · grind
    · rename_i opened
      rw [if_neg opened] at lives
      have took := httpConnectionSend_took lives
      exact ⟨took.lived, took.wire⟩
  · rename_i buffered
    rw [if_neg buffered] at lives
    split
    · rename_i isHead
      rw [if_pos isHead] at lives
      have took := httpConnectionSend_took lives
      rw [append_nil]
      exact ⟨took.lived, took.wire⟩
    · rename_i isGet
      rw [if_neg isGet] at lives
      split
      · rename_i small
        rw [if_pos small] at lives
        have took := httpConnectionSend_took lives
        exact ⟨took.lived, took.wire⟩
      · rename_i large
        rw [if_neg large, httpResponseFormatParts_body] at lives
        rw [httpResponseFormatParts_body]
        have took := httpConnectionSend_took lives
        exact ⟨took.lived, took.wire⟩

def wireOf (env : H1Env) (ending : HandlerEnd) (s : Sent) : Bytes :=
  if s.response.streaming then
    (if s.started then streamingHead env s.response ++ s.chunks else []) ++ zeroChunk
  else
    let r := settleResponse env.transport ending s.response
    emitHeadersBlock env.now r r.bodyBytes.length ++ if s.response.isHead then [] else r.bodyBytes

theorem Matches.dispose (matched : Matches env s ctx) (ending : HandlerEnd) :
    ctx.wire ++ disposeBytes env (settleResponse env.transport ending ctx.response) =
      wireOf env ending s := by
  have flags := matched.sameFlags
  have settled := sameFlags_settle env.transport ending ctx.response
  unfold Matches at matched
  unfold disposeBytes wireOf
  rw [settled.streaming, flags.streaming, settled.closed, flags.closed, settled.isHead,
    flags.isHead]
  by_cases streaming : s.response.streaming = true
  · split at matched
    · grind [Emits.wire]
    · grind [Sent.started, Fresh.wire]
  · have unstarted : ¬ s.started = true := by simp [Sent.started, streaming]
    grind [Fresh.wire, Fresh.response]

theorem runHandler_wire {isHead : Bool}
    (lives : (runHandler env version isHead calls ending).dead = false) :
    Shaped (sentBy version isHead calls) ∧ (runHandler env version isHead calls ending).wire =
        wireOf env ending (sentBy version isHead calls) := by
  obtain ⟨lived, wire⟩ := dispose_wrote lives
  have start : Matches env { response := .start version isHead }
      { response := .start version isHead } := ⟨rfl, rfl, rfl⟩
  have shaped : Shaped { response := .start version isHead } :=
    ⟨fun none => absurd rfl none, rfl, fun _ => rfl, rfl⟩
  obtain ⟨shaped, matched⟩ := runCalls_matches calls shaped (fun _ => start) lived
  exact ⟨shaped, wire.trans (matched.dispose ending)⟩

/-! ## The grammar -/

theorem zeroChunk_eq : zeroChunk = encodeEnd true := by decide

theorem Sent.chunks_eq : s.chunks = s.data.flatMap encodeChunk := by
  unfold Sent.chunks Sent.data
  induction s.payloads with
  | nil => rfl
  | cons payload payloads ih => grind [encodePayload]

theorem streamingHead_start : zeroChunk ≠ streamingHead env r ++ body := by
  have head : (streamingHead env r ++ body).head? = some 0x48 := by
    unfold streamingHead httpResponseFormatStreamingHeaders
    rw [emitStatusLine_eq]
    simp [show ascii "HTTP/" = 0x48 :: ascii "TTP/" by decide]
  intro same
  rw [← same] at head
  revert head
  decide

def ServerName (name : Bytes) : Prop := name = ascii "alt-svc" ∨ name = ascii "connection"

theorem serverNames_settled (transport : Transport) (ending : HandlerEnd)
    (headers : r.headers = []) :
    ∀ entry ∈ (settleResponse transport ending r).headers, ServerName entry.1 := by
  have cleared : ({ (if r.committed then r else errorResponse r ending) with
      committed := true } : HttpResponse).headers = [] := by
    split
    · exact headers
    · cases ending with
      | returned => exact headers
      | threw code message => rfl
      | bailout => rfl
  have advertised (s : HttpResponse) (none : s.headers = []) :
      ∀ entry ∈ (setAltSvcIfUnset transport.altSvc s).headers, ServerName entry.1 := by
    unfold setAltSvcIfUnset
    split
    · simp [none]
    · split
      · simp [none]
      · intro entry member
        rcases Table.mem_update member with member | rfl
        · simp [none] at member
        · exact .inl rfl
  unfold settleResponse
  dsimp only
  split
  · intro entry member
    rcases Table.mem_update member with member | rfl
    · exact advertised _ cleared entry member
    · exact .inr rfl
  · exact advertised _ cleared

theorem contentLength_of_serverNames (now : Tm) (names : ∀ entry ∈ r.headers, ServerName entry.1)
    (bodyLen : Nat) : (ascii "Content-Length", numeral 10 bodyLen) ∈ headFields now r bodyLen ∧
      ∀ field ∈ headFields now r bodyLen, lower field.1 = ascii "content-length" →
        field.2 = numeral 10 bodyLen := by
  have foreign : ¬ ServerName (ascii "content-length") := by
    unfold ServerName
    decide
  have date : lower (ascii "Date") ≠ ascii "content-length" := by decide
  have altSvc : lower (ascii "alt-svc") ≠ ascii "content-length" := by decide
  have connection : lower (ascii "connection") ≠ ascii "content-length" := by decide
  have absent : r.headers.has (ascii "content-length") = false := by
    unfold Table.has
    cases found : r.headers.find? (ascii "content-length") with
    | none => rfl
    | some value => exact absurd (names _ (Table.mem_of_find? found)) foreign
  unfold headFields
  rw [absent, if_neg Bool.false_ne_true]
  refine ⟨by simp, ?_⟩
  intro field member name
  rcases mem_append.mp member with member | member
  · grind
  · obtain ⟨entry, stored, member⟩ := mem_flatMap.mp member
    obtain ⟨value, _, rfl⟩ := mem_map.mp member
    rcases names entry stored with same | same
    · exact absurd (same ▸ name) altSvc
    · exact absurd (same ▸ name) connection

theorem Sent.data_filled : ∀ c ∈ s.data, c ≠ [] := by
  grind [Sent.data]

theorem decodeChunked_sent (s : Sent) :
    decodeChunked (s.chunks ++ zeroChunk) = some (s.data, true) := by
  rw [Sent.chunks_eq, zeroChunk_eq]
  exact decodeChunked_ended s.data_filled

theorem regular_of_conforms (conforms : Conforms env ending s (wireOf env ending s)) :
    Regular ending s := by
  intro streaming
  unfold Conforms wireOf at conforms
  rw [if_pos streaming, if_pos streaming] at conforms
  obtain ⟨body, same, shape⟩ := conforms
  by_cases started : s.started = true
  · rw [if_pos started, append_assoc] at same
    have begun : s.payloads ≠ [] ∨ s.response.closed = true := by
      simpa [Sent.started, streaming] using started
    rw [← append_cancel_left same, decodeChunked_sent] at shape
    split at shape
    · simp [zeroChunk_eq, encodeEnd] at shape
    · grind
  · grind [streamingHead_start]

theorem conforms_of_regular (shaped : Shaped s) (regular : Regular ending s) :
    Conforms env ending s (wireOf env ending s) := by
  unfold Conforms wireOf
  by_cases streaming : s.response.streaming = true
  · obtain ⟨isGet, begun, finished⟩ := regular streaming
    have started : s.started = true := by simpa [Sent.started, streaming] using begun
    rw [if_pos streaming, if_pos streaming]
    refine ⟨s.chunks ++ zeroChunk, by rw [if_pos started, append_assoc], ?_⟩
    grind [decodeChunked_sent]
  · rw [if_neg streaming, if_neg streaming]
    have names := serverNames_settled env.transport ending
      (shaped.headers (Bool.eq_false_iff.mpr streaming))
    exact ⟨rfl, contentLength_of_serverNames env.now names _⟩

/-- The bytes of a response fit the grammar if and only if its handler is regular, on a
connection that takes every write. -/
theorem response_grammar_iff (env : H1Env) (version : HttpVersion) (isHead : Bool)
    (calls : List HandlerCall) (ending : HandlerEnd)
    (lives : (runHandler env version isHead calls ending).dead = false) :
    Conforms env ending (sentBy version isHead calls)
        (runHandler env version isHead calls ending).wire ↔
      Regular ending (sentBy version isHead calls) := by
  obtain ⟨shaped, wire⟩ := runHandler_wire lives
  rw [wire]
  exact ⟨regular_of_conforms, conforms_of_regular shaped⟩

def someTm : Tm := { sec := 37, min := 49, hour := 8, mday := 6, mon := 10, year := 94, wday := 0 }

/-- Two chunks and an end. -/
theorem response_grammar_two_chunks : let env : H1Env := { now := someTm }
    let calls : List HandlerCall := [.stream (.send (ascii "ab")), .stream (.send (ascii "c")),
      .finish none]
    Conforms env .returned (sentBy ⟨1, 1⟩ false calls)
        (runHandler env ⟨1, 1⟩ false calls .returned).wire ∧
      Regular .returned (sentBy ⟨1, 1⟩ false calls) := by
  have regular : Regular .returned (sentBy ⟨1, 1⟩ false [.stream (.send (ascii "ab")),
      .stream (.send (ascii "c")), .finish none]) := by
    unfold Regular
    decide
  refine ⟨?_, regular⟩
  exact (response_grammar_iff _ _ _ _ _ (by decide)).mpr regular

/-- Three handlers whose responses do not fit the grammar: one that throws after its first chunk
still ends its body with the last chunk, an event answers a HEAD with a body, and `sseStart` alone
leaves the last chunk without a head. -/
theorem irregular_responses : let env : H1Env := { now := someTm }
    let thrown : HandlerEnd := .threw 0 none
    let chunk : List HandlerCall := [.stream (.send (ascii "ab"))]
    let event : List HandlerCall := [.stream (.sseEvent { data := some (ascii "x") })]
    let start : List HandlerCall := [.stream .sseStart]
    ((runHandler env ⟨1, 1⟩ false chunk thrown).wire =
        streamingHead env (sentBy ⟨1, 1⟩ false chunk).response ++ ascii "2\r\nab\r\n0\r\n\r\n" ∧
      ¬ Conforms env thrown (sentBy ⟨1, 1⟩ false chunk)
        (runHandler env ⟨1, 1⟩ false chunk thrown).wire) ∧
    ((runHandler env ⟨1, 1⟩ true event .returned).wire =
        streamingHead env (sentBy ⟨1, 1⟩ true event).response ++
          ascii "9\r\ndata: x\n\n\r\n0\r\n\r\n" ∧
      ¬ Conforms env .returned (sentBy ⟨1, 1⟩ true event)
        (runHandler env ⟨1, 1⟩ true event .returned).wire) ∧
    ((runHandler env ⟨1, 1⟩ false start .returned).wire = ascii "0\r\n\r\n" ∧
      ¬ Conforms env .returned (sentBy ⟨1, 1⟩ false start)
        (runHandler env ⟨1, 1⟩ false start .returned).wire) := by
  have irregular {env : H1Env} {isHead : Bool} {calls : List HandlerCall} {ending : HandlerEnd}
      (lives : (runHandler env ⟨1, 1⟩ isHead calls ending).dead = false)
      (not : ¬ Regular ending (sentBy ⟨1, 1⟩ isHead calls)) :
      ¬ Conforms env ending (sentBy ⟨1, 1⟩ isHead calls)
        (runHandler env ⟨1, 1⟩ isHead calls ending).wire := by
    rw [(runHandler_wire lives).2]
    exact fun conforms => not (regular_of_conforms conforms)
  refine ⟨⟨by decide +kernel, irregular (by decide) ?_⟩,
    ⟨by decide +kernel, irregular (by decide) ?_⟩, by decide, irregular (by decide) ?_⟩
  all_goals
    unfold Regular
    decide

end TrueAsync.Http1

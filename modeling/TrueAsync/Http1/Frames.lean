import TrueAsync.Http1.Message

/-!
# What the callbacks leave alone

The header callbacks write the header builders, the header counters and four fields of the
request; everything else keeps its value. Later proofs cite these frames and do not unfold the
callbacks again.
-/

namespace TrueAsync.Http1

open TrueAsync.Lib

variable {Proc Form : Type}

/-- From `s` to `t` only header state has changed. -/
structure HeaderEffect (s t : Parse Proc Form) : Prop where
  parser : t.parser = { s.parser with
    headerNameBuilder := t.parser.headerNameBuilder
    headerValueBuilder := t.parser.headerValueBuilder
    inHeaderValue := t.parser.inHeaderValue
    totalHeadersSize := t.parser.totalHeadersSize
    parseError := t.parser.parseError
    clValueFirst := t.parser.clValueFirst
    clSeenCount := t.parser.clSeenCount
    headerCount := t.parser.headerCount
    hostSeenCount := t.parser.hostSeenCount
    ctSeenCount := t.parser.ctSeenCount
    teChunkedSeen := t.parser.teChunkedSeen }
  req : t.req = { s.req with
    headers := t.req.headers
    contentLength := t.req.contentLength
    chunked := t.req.chunked
    keepAlive := t.req.keepAlive }

namespace HeaderEffect

variable {s t u : Parse Proc Form}

theorem refl (s : Parse Proc Form) : HeaderEffect s s := ⟨rfl, rfl⟩

theorem trans (first : HeaderEffect s t) (second : HeaderEffect t u) : HeaderEffect s u := by
  constructor
  · rw [second.parser, first.parser]
  · rw [second.req, first.req]

end HeaderEffect

theorem inspectHeader_effect (name value : Bytes) :
    HeaderEffect s (inspectHeader name value s).2 := by
  unfold inspectHeader
  dsimp only
  repeat' split
  all_goals exact ⟨rfl, rfl⟩

theorem settleHeader_effect (name value : Bytes) (outcome : ParseError × Parse Proc Form) :
    HeaderEffect outcome.2 (settleHeader name value outcome) := by
  obtain ⟨err, s⟩ := outcome
  cases err <;> exact ⟨rfl, rfl⟩

theorem saveCurrentHeader_effect : HeaderEffect s (saveCurrentHeader s) := by
  unfold saveCurrentHeader
  split
  · split
    · exact ⟨rfl, rfl⟩
    · rename_i rawName value named valued room
      have counted : HeaderEffect s (countHeader (lower rawName) s) := ⟨rfl, rfl⟩
      exact (counted.trans (inspectHeader_effect _ _)).trans (settleHeader_effect _ _ _)
  · exact .refl s

theorem flushHeader_effect (s : Parse Proc Form) : HeaderEffect s (flushHeader s) := by
  unfold flushHeader
  split
  · exact saveCurrentHeader_effect.trans ⟨rfl, rfl⟩
  · exact .refl s

variable (text : Bytes)

theorem appendHeaderName_effect : HeaderEffect s (appendHeaderName text s).2 := by
  unfold appendHeaderName
  split <;> exact ⟨rfl, rfl⟩

theorem onHeaderField_effect (s : Parse Proc Form) : HeaderEffect s (onHeaderField text s).2 := by
  have opened : HeaderEffect s (initHeaders s) := ⟨rfl, rfl⟩
  exact (opened.trans (flushHeader_effect _)).trans (appendHeaderName_effect _)

theorem onHeaderValue_effect (s : Parse Proc Form) :
    HeaderEffect s (onParser (onHeaderValue text) s).2 := by
  unfold onParser onHeaderValue
  repeat' split
  all_goals exact ⟨rfl, rfl⟩

theorem onUrl_cases (p : Http1Parser) : (∃ err, err ≠ .ok ∧ onUrl text p = p.reject err) ∨
      onUrl text p = (⟨.ok, false⟩, { p with uriBuilder := smartStrAppend p.uriBuilder text }) := by
  grind [onUrl]

theorem appendHeaderName_cases (s : Parse Proc Form) :
    (∃ err, err ≠ .ok ∧ appendHeaderName text s = s.reject err) ∨
      appendHeaderName text s = (⟨.ok, false⟩, { s with parser := { s.parser with
        headerNameBuilder := smartStrAppend s.parser.headerNameBuilder text } }) := by
  grind [appendHeaderName]

theorem onHeaderValue_cases (p : Http1Parser) :
    (∃ err, err ≠ .ok ∧ onHeaderValue text p = p.reject err) ∨
      p.headerNameBuilder.getD [] ≠ [] ∧ onHeaderValue text p = (⟨.ok, false⟩, { p with
        totalHeadersSize := p.totalHeadersSize + text.length
        inHeaderValue := true
        headerValueBuilder := smartStrAppend p.headerValueBuilder text }) := by
  grind [onHeaderValue]

@[simp] theorem flushHeader_inHeaderValue (s : Parse Proc Form) :
    (flushHeader s).parser.inHeaderValue = false := by
  unfold flushHeader
  split
  · rfl
  · simp_all

/-! ## The end of the headers and the body -/

variable (ops : MultipartOps Proc Form)

/-- From `s` to `t` the headers have been accepted or refused: the header state, the body
builder and the ownership of the request are as before. -/
structure AcceptEffect (s t : Parse Proc Form) : Prop where
  parser : t.parser = { s.parser with
    uriBuilder := t.parser.uriBuilder
    parseError := t.parser.parseError
    bodyOffset := t.parser.bodyOffset
    ownsRequest := t.parser.ownsRequest
    dispatched := t.parser.dispatched }
  uri : t.parser.uriBuilder = none ∨ t.parser.uriBuilder = s.parser.uriBuilder
  headers : t.req.headers = s.req.headers

theorem AcceptEffect.trans (first : AcceptEffect s t)
    (second : AcceptEffect t u) : AcceptEffect s u where
  parser := by rw [second.parser, first.parser]
  uri := by
    rcases second.uri with moved | kept
    · exact .inl moved
    · rw [kept]
      exact first.uri
  headers := second.headers.trans first.headers

theorem requestPolicy_effect (p : Http1Parser) (req : HttpRequest Proc Form) :
    (requestPolicy ops p req).headers = req.headers ∧
      (requestPolicy ops p req).refcount = req.refcount := by
  unfold requestPolicy chooseStreaming classifyProtocols detectMultipart defaultKeepAlive
  repeat' split
  all_goals exact ⟨rfl, rfl⟩

theorem prepareBody_effect (oom : Bool) : AcceptEffect s (prepareBody oom s).2 := by
  unfold prepareBody
  repeat' split
  all_goals exact ⟨rfl, .inr rfl, rfl⟩

theorem dispatchStreaming_effect : AcceptEffect s (dispatchStreaming s).2 := by
  unfold dispatchStreaming
  split <;> exact ⟨rfl, .inr rfl, rfl⟩

theorem reject_effect (err : ParseError) :
    AcceptEffect s (s.reject err).2 := ⟨rfl, .inr rfl, rfl⟩

theorem beginBody_effect (oom : Bool) (s : Parse Proc Form) :
    AcceptEffect s (beginBody ops oom s).2 := by
  have decided : AcceptEffect s { s with req := requestPolicy ops s.parser s.req } :=
    ⟨rfl, .inr rfl, (requestPolicy_effect ops s.parser s.req).1⟩
  have prepared := decided.trans (prepareBody_effect oom)
  unfold beginBody
  split
  all_goals
    rename_i rest
    rw [rest] at prepared
  · exact prepared.trans dispatchStreaming_effect
  · exact prepared.trans (reject_effect _)

theorem acceptHeaders_effect (line : RequestLine) (oom : Bool) (s : Parse Proc Form) :
    AcceptEffect s (acceptHeaders ops line oom s).2 := by
  have recorded : AcceptEffect s (recordRequestLine line s) := ⟨rfl, .inl rfl, rfl⟩
  unfold acceptHeaders
  split
  · exact ⟨rfl, .inr rfl, rfl⟩
  · grind [reject_effect, AcceptEffect.trans, beginBody_effect]

/-- What accepting the headers takes: no error so far and none in the framing. The URL has
gone to the request. -/
theorem acceptHeaders_accepted (accepted : (acceptHeaders ops line oom s).1.result ≠ .failed) :
    s.parser.parseError = .ok ∧ framingError line s.parser = none ∧
      (acceptHeaders ops line oom s).2.parser.uriBuilder = none := by
  unfold acceptHeaders at accepted ⊢
  split at accepted
  · exact absurd rfl accepted
  · rename_i clean
    split at accepted
    · exact absurd rfl accepted
    · rename_i framed
      dsimp only at accepted ⊢
      split at accepted
      · exact absurd rfl accepted
      · rw [if_neg clean]
        refine ⟨Decidable.not_not.mp clean, framed, ?_⟩
        rcases (beginBody_effect ops oom (recordRequestLine line s)).uri with moved | kept
        · exact moved
        · exact kept

/-- From `s` to `t` only the body has moved on. -/
structure BodyEffect (s t : Parse Proc Form) : Prop where
  parser : t.parser = { s.parser with
    parseError := t.parser.parseError
    bodyOffset := t.parser.bodyOffset
    bodyBuilder := t.parser.bodyBuilder }
  streaming : t.req.bodyStreaming = s.req.bodyStreaming
  sized : t.req.body.isSome = s.req.body.isSome
  builder : s.req.bodyStreaming ∨ s.req.body.isSome → t.parser.bodyBuilder = s.parser.bodyBuilder
  refcount : t.req.refcount = s.req.refcount

theorem onBody_effect (text : Bytes) (oom : Bool) (s : Parse Proc Form) :
    BodyEffect s (onBody ops text oom s).2 := by
  unfold onBody httpBodyStreamPush
  dsimp only
  repeat' split
  all_goals constructor
  all_goals simp_all [Parse.reject]

theorem finalizeMultipart_effect (req : HttpRequest Proc Form) :
    finalizeMultipart ops req = { req with form := (finalizeMultipart ops req).form } := by
  unfold finalizeMultipart
  split <;> rfl

theorem onMessageComplete_frame (s : Parse Proc Form) :
    (onMessageComplete ops s).2.parser = { s.parser with
      bodyBuilder := (onMessageComplete ops s).2.parser.bodyBuilder
      ownsRequest := (onMessageComplete ops s).2.parser.ownsRequest
      dispatched := (onMessageComplete ops s).2.parser.dispatched } := by
  unfold onMessageComplete dispatchComplete completeRequest finishBody
  repeat' split
  all_goals rfl

theorem dispatchComplete_bodyBuilder :
    (dispatchComplete s).2.parser.bodyBuilder = s.parser.bodyBuilder := by
  unfold dispatchComplete
  split <;> rfl

theorem finishBody_bodyBuilder : (finishBody s).parser.bodyBuilder = none ∨
      (finishBody s).parser.bodyBuilder = s.parser.bodyBuilder ∧
        (s.req.bodyStreaming ∨ s.req.body.isSome) := by
  unfold finishBody
  split
  · grind
  · split
    · exact .inl rfl
    · cases body : s.req.body <;> cases built : s.parser.bodyBuilder <;> simp_all

theorem onMessageComplete_bodyBuilder (s : Parse Proc Form) :
    (onMessageComplete ops s).2.parser.bodyBuilder = none ∨
      (onMessageComplete ops s).2.parser.bodyBuilder = s.parser.bodyBuilder ∧
        (s.req.bodyStreaming ∨ s.req.body.isSome) := by
  grind [finishBody_bodyBuilder, finalizeMultipart_effect, onMessageComplete,
    dispatchComplete_bodyBuilder, completeRequest]

end TrueAsync.Http1

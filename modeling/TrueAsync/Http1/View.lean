import TrueAsync.Http1.Frames

/-!
# What two runs can tell apart

The view of a state forgets what no callback can observe: a NULL builder against an empty one,
and the case of a header name. Every callback respects the view, so two runs of one message
that start with the same view stop or go on together and record the same request.
-/

namespace TrueAsync.Http1

open TrueAsync.Lib

variable {Proc Form : Type} (ops : MultipartOps Proc Form)

/-! ## Views -/

/-- The parser with NULL and empty builders identified and the header name in lower case. -/
def Http1Parser.view (p : Http1Parser) : Http1Parser :=
  { p with
    uriBuilder := some (contents p.uriBuilder)
    bodyBuilder := some (contents p.bodyBuilder)
    headerNameBuilder := some (lower (contents p.headerNameBuilder))
    headerValueBuilder := some (contents p.headerValueBuilder) }

def Parse.view (s : Parse Proc Form) : Parse Proc Form :=
  { parser := s.parser.view, req := { s.req with uri := some (contents s.req.uri) } }

def Building (p : Http1Parser) : Prop :=
  p.inHeaderValue → p.headerNameBuilder.isSome ∧ p.headerValueBuilder.isSome

/-- A callback that answers alike on states with the same view, and leaves them so. -/
def Respects (f : Parse Proc Form → Reply × Parse Proc Form) (s : Parse Proc Form) : Prop :=
  (f s.view).1 = (f s).1 ∧ (f s.view).2.view = (f s).2.view

@[simp] theorem contents_none : contents none = [] := rfl

variable (text : Bytes)

@[simp] theorem contents_some : contents (some text) = text := rfl

@[simp] theorem contents_smartStrAppend (builder : Option Bytes) (text : Bytes) :
    contents (smartStrAppend builder text) = contents builder ++ text := rfl

@[simp] theorem Parse.view_view (s : Parse Proc Form) : s.view.view = s.view := by
  simp [Parse.view, Http1Parser.view]

theorem record_view : record s.view = record s := rfl

theorem onUrl_respects (s : Parse Proc Form) : Respects (onParser (onUrl text)) s := by
  unfold Respects onParser onUrl
  by_cases long : (s.parser.uriBuilder.getD []).length + text.length > httpMaxUriSize
  · simp [Parse.view, Http1Parser.view, Http1Parser.reject, contents, long]
  · by_cases bad : text.any fun b => b == 0x23 || b == 0x5c
    · simp [Parse.view, Http1Parser.view, Http1Parser.reject, contents, long, bad]
    · simp [Parse.view, Http1Parser.view, smartStrAppend, contents, long, bad]

theorem onHeaderValue_respects (s : Parse Proc Form) :
    Respects (onParser (onHeaderValue text)) s := by
  unfold Respects onParser onHeaderValue
  by_cases noName : s.parser.headerNameBuilder.getD [] = []
  · simp [Parse.view, Http1Parser.view, Http1Parser.reject, contents, noName]
  · by_cases long : (s.parser.headerValueBuilder.getD []).length + text.length > httpMaxHeaderValue
    · simp [Parse.view, Http1Parser.view, Http1Parser.reject, contents, noName, long]
    · by_cases total : s.parser.totalHeadersSize + text.length > httpMaxHeadersTotal
      · simp [Parse.view, Http1Parser.view, Http1Parser.reject, contents, noName, long, total]
      · simp [Parse.view, Http1Parser.view, smartStrAppend, contents, noName, long, total]

theorem appendHeaderName_respects : Respects (appendHeaderName text) s := by
  unfold Respects appendHeaderName
  by_cases long : (s.parser.headerNameBuilder.getD []).length + text.length > httpMaxHeaderName
  · simp [Parse.view, Http1Parser.view, Parse.reject, contents, long]
  · simp [Parse.view, Http1Parser.view, smartStrAppend, contents, long]

theorem inspectHeader_view (name value : Bytes) (s : Parse Proc Form) :
    inspectHeader name value s.view =
      ((inspectHeader name value s).1, (inspectHeader name value s).2.view) := by
  unfold inspectHeader Parse.view Http1Parser.view
  dsimp only
  repeat' split
  all_goals rfl

variable {s t : Parse Proc Form}

theorem settleHeader_view (name value : Bytes) (alike : s.view = t.view) :
    (settleHeader name value (err, s)).view = (settleHeader name value (err, t)).view := by
  cases err <;> simp_all [settleHeader, Parse.view, Http1Parser.view, Parse.reject]

variable {f : Parse Proc Form → Reply × Parse Proc Form}

theorem Respects.alike (left : Respects f s) (right : Respects f t) (alike : s.view = t.view) :
    (f s).1 = (f t).1 ∧ (f s).2.view = (f t).2.view := by
  obtain ⟨reply, state⟩ := left
  obtain ⟨reply', state'⟩ := right
  grind

theorem saveCurrentHeader_view (named : s.parser.headerNameBuilder = some name)
    (valued : s.parser.headerValueBuilder = some value) :
    (saveCurrentHeader s.view).view = (saveCurrentHeader s).view := by
  have named' : s.view.parser.headerNameBuilder = some (lower name) := by
    simp [Parse.view, Http1Parser.view, named]
  have valued' : s.view.parser.headerValueBuilder = some value := by
    simp [Parse.view, Http1Parser.view, valued]
  have count : s.view.parser.headerCount = s.parser.headerCount := rfl
  simp only [saveCurrentHeader, named, valued, named', valued', count, lower_lower]
  split
  · simp [Parse.reject, Parse.view, Http1Parser.view]
  · have counted : (countHeader (lower name) s.view).view = (countHeader (lower name) s).view := by
      simp [countHeader, Parse.view, Http1Parser.view]
    have left := inspectHeader_view (lower name) value (countHeader (lower name) s.view)
    have right := inspectHeader_view (lower name) value (countHeader (lower name) s)
    rw [counted, right, Prod.mk.injEq] at left
    generalize inspectHeader (lower name) value (countHeader (lower name) s.view) = seen at left
    generalize inspectHeader (lower name) value (countHeader (lower name) s) = seen' at left
    obtain ⟨err', t'⟩ := seen'
    obtain ⟨rfl, alike⟩ := left
    exact settleHeader_view _ _ alike.symm

theorem flushHeader_view (building : Building s.parser) :
    (flushHeader s.view).view = (flushHeader s).view := by
  have reading : s.view.parser.inHeaderValue = s.parser.inHeaderValue := rfl
  unfold flushHeader
  rw [reading]
  split
  · rename_i inside
    obtain ⟨name, named⟩ := Option.isSome_iff_exists.mp (building inside).1
    obtain ⟨value, valued⟩ := Option.isSome_iff_exists.mp (building inside).2
    have saved := saveCurrentHeader_view named valued
    grind [Parse.view, Http1Parser.view]
  · exact s.view_view

theorem onHeaderField_respects (building : Building s.parser) :
    Respects (onHeaderField text) s := by
  have flushed := flushHeader_view (s := initHeaders s) building
  exact (appendHeaderName_respects _).alike (appendHeaderName_respects _) flushed

variable (line : RequestLine)

theorem recordRequestLine_view (fresh : contents s.req.uri = []) :
    (recordRequestLine line s.view).view = (recordRequestLine line s).view := by
  cases built : s.parser.uriBuilder <;>
    simp [recordRequestLine, Parse.view, Http1Parser.view, fresh, built]

theorem targetError_view (s : Parse Proc Form) :
    targetError line s.view.req = targetError line s.req := by
  have star : some (contents s.req.uri) = some (ascii "*") ↔ s.req.uri = some (ascii "*") := by
    cases s.req.uri with
    | none => decide
    | some uri => rfl
  simp only [targetError, Parse.view, star]

variable (uri : Option Bytes)

theorem defaultKeepAlive_uri (req : HttpRequest Proc Form) :
    defaultKeepAlive { req with uri } = { defaultKeepAlive req with uri } := by
  grind [defaultKeepAlive]

theorem detectMultipart_uri (req : HttpRequest Proc Form) :
    detectMultipart ops { req with uri } = { detectMultipart ops req with uri } := by
  unfold detectMultipart
  cases (req.headers.getD []).find? (ascii "content-type") with
  | none => rfl
  | some contentType => grind

section

variable (p : Http1Parser) (uri : Option Bytes) (req : HttpRequest Proc Form)

theorem chooseStreaming_uri :
    chooseStreaming p { req with uri } = { chooseStreaming p req with uri } := by
  unfold chooseStreaming bodyMustBuffer
  repeat' split
  all_goals rfl

theorem requestPolicy_uri :
    requestPolicy ops p { req with uri } = { requestPolicy ops p req with uri } := by
  unfold requestPolicy
  rw [defaultKeepAlive_uri, detectMultipart_uri, ← chooseStreaming_uri]
  rfl

end

theorem requestPolicy_view : { s.view with req := requestPolicy ops s.view.parser s.view.req } =
      Parse.view { s with req := requestPolicy ops s.parser s.req } := by
  have kept := congrArg HttpRequest.uri (requestPolicy_uri ops s.parser s.req.uri s.req)
  have moved := requestPolicy_uri ops s.parser (some (contents s.req.uri)) s.req
  simp only [Parse.view, Parse.mk.injEq, true_and]
  change requestPolicy ops s.parser _ = _
  simp_all

theorem prepareBody_view (oom : Bool) :
    prepareBody oom s.view = ((prepareBody oom s).1, (prepareBody oom s).2.view) := by
  grind [prepareBody, Parse.view, Http1Parser.view]

theorem dispatchStreaming_respects : Respects dispatchStreaming s := by
  by_cases now : s.parser.dispatchCb && s.req.bodyStreaming <;>
    simp [Respects, dispatchStreaming, Parse.view, Http1Parser.view, now]

theorem reject_respects (err : ParseError) (s : Parse Proc Form) : Respects (·.reject err) s := by
  simp [Respects, Parse.reject, Parse.view, Http1Parser.view]

theorem beginBody_respects (oom : Bool) (s : Parse Proc Form) : Respects (beginBody ops oom) s := by
  unfold Respects beginBody
  rw [requestPolicy_view, prepareBody_view]
  obtain ⟨err, t⟩ := prepareBody oom { s with req := requestPolicy ops s.parser s.req }
  cases err
  case ok => exact dispatchStreaming_respects
  all_goals exact reject_respects _ t

theorem acceptHeaders_respects (oom : Bool) (fresh : contents s.req.uri = []) :
    Respects (acceptHeaders ops line oom) s := by
  have noted : s.view.parser.parseError = s.parser.parseError := rfl
  have framed : framingError line s.view.parser = framingError line s.parser := rfl
  have target : targetError line (recordRequestLine line s.view).req =
      targetError line (recordRequestLine line s).req := by
    rw [← targetError_view, recordRequestLine_view line fresh, targetError_view]
  unfold Respects acceptHeaders
  rw [noted, framed]
  dsimp only
  rw [target]
  split
  · exact ⟨rfl, s.view_view⟩
  · split
    · exact reject_respects _ s
    · split
      · exact (reject_respects _ _).alike (reject_respects _ _) (recordRequestLine_view line fresh)
      · exact (beginBody_respects ops oom _).alike (beginBody_respects ops oom _)
          (recordRequestLine_view line fresh)

theorem onHeadersComplete_respects (env : Admission)
    (building : Building s.parser) (fresh : contents s.req.uri = []) :
    Respects (onHeadersComplete ops line env) s := by
  have attached : s.view.parser.conn = s.parser.conn := rfl
  have flushed := flushHeader_view (s := initHeaders s) building
  have kept (t : Parse Proc Form) : (flushHeader (initHeaders t)).req.uri = t.req.uri := by
    rw [(flushHeader_effect _).req]
    rfl
  unfold Respects onHeadersComplete
  rw [attached]
  split
  · exact reject_respects _ s
  · have left := acceptHeaders_respects ops line env.oom (s := flushHeader (initHeaders s.view))
      (by rw [kept]; exact fresh)
    have right := acceptHeaders_respects ops line env.oom (s := flushHeader (initHeaders s))
      (by rw [kept]; exact fresh)
    exact left.alike right flushed

theorem onBody_respects (oom : Bool) (s : Parse Proc Form) : Respects (onBody ops text oom) s := by
  unfold Respects onBody Parse.view Http1Parser.view Parse.reject httpBodyStreamPush contents
  dsimp only [Option.getD_some]
  split
  · split <;> simp
  · split
    · split
      · simp
      · cases oom <;> simp
    · split
      · split <;> simp
      · split
        · simp
        · cases oom <;> simp [smartStrAppend]

theorem finalizeMultipart_uri (req : HttpRequest Proc Form) :
    finalizeMultipart ops { req with uri } = { finalizeMultipart ops req with uri } := by
  unfold finalizeMultipart
  dsimp only
  split <;> rfl

theorem completeRequest_record :
    record (completeRequest ops s.view) = record (completeRequest ops s) := by
  obtain ⟨p, req⟩ := s
  have kept := congrArg HttpRequest.uri (finalizeMultipart_uri ops req.uri req)
  unfold completeRequest finishBody Parse.view Http1Parser.view
  rw [finalizeMultipart_uri]
  generalize finalizeMultipart ops req = done at kept
  cases streaming : done.bodyStreaming
  · cases built : p.bodyBuilder <;> cases body : done.body <;>
      simp [record, streaming, body, kept]
  · simp [record, kept]

theorem dispatchComplete_record : record (dispatchComplete s).2 = record s := by
  unfold dispatchComplete
  split <;> rfl

/-! ## Two runs in step -/

theorem onHeaderField_building (s : Parse Proc Form) :
    Building (onHeaderField text s).2.parser := by
  intro reading
  have idle : (onHeaderField text s).2.parser.inHeaderValue = false := by
    unfold onHeaderField appendHeaderName
    split <;> simp [Parse.reject]
  rw [idle] at reading
  cases reading

theorem onHeaderValue_building (building : Building p) : Building (onHeaderValue text p).2 := by
  unfold onHeaderValue
  split
  · exact building
  · rename_i named
    repeat' split
    · exact building
    · exact building
    · intro _
      refine ⟨?_, rfl⟩
      cases built : p.headerNameBuilder with
      | none => exact absurd (by simp [built]) named
      | some name => rfl

variable (c : HeadCallback)

theorem HeadCallback.run_building (building : Building s.parser) : Building (c.run s).2.parser := by
  cases c with
  | url text =>
    simp only [HeadCallback.run, onParser, onUrl]
    repeat' split
    all_goals exact building
  | headerField text => exact onHeaderField_building text s
  | headerValue text => exact onHeaderValue_building text building

theorem HeadCallback.run_uri : (c.run s).2.req.uri = s.req.uri := by
  cases c with
  | url text => rfl
  | headerField text =>
    show (onHeaderField text s).2.req.uri = _
    rw [(onHeaderField_effect text s).req]
  | headerValue text => rfl

theorem HeadCallback.run_respects (building : Building s.parser) : Respects c.run s := by
  cases c with
  | url text => exact onUrl_respects text s
  | headerField text => exact onHeaderField_respects text building
  | headerValue text => exact onHeaderValue_respects text s

theorem TailCallback.run_building (c : TailCallback) (building : Building s.parser) :
    Building (c.run ops s).2.parser := by
  cases c with
  | body text oom =>
    have frame := (onBody_effect ops text oom s).parser
    simp only [TailCallback.run, Building]
    rw [frame]
    exact building
  | headerField text => exact onHeaderField_building text s
  | headerValue text => exact onHeaderValue_building text building

theorem TailCallback.run_respects (c : TailCallback) (building : Building s.parser) :
    Respects (c.run ops) s := by
  cases c with
  | body text oom => exact onBody_respects ops text oom s
  | headerField text => exact onHeaderField_respects text building
  | headerValue text => exact onHeaderValue_respects text s

theorem onHeadersComplete_building (env : Admission)
    (building : Building s.parser) : Building (onHeadersComplete ops line env s).2.parser := by
  unfold onHeadersComplete
  split
  · exact building
  · intro reading
    rw [(acceptHeaders_effect ops line env.oom _).parser] at reading
    simp at reading

/-- Two runs that stop with the same record, or go on in related states. -/
inductive Paired (related : Parse Proc Form → Parse Proc Form → Prop) :
    Except (Parse Proc Form) (Parse Proc Form) → Except (Parse Proc Form) (Parse Proc Form) → Prop
  | stopped {s t : Parse Proc Form} : record s = record t → Paired related (.error s) (.error t)
  | running {s t : Parse Proc Form} : related s t → Paired related (.ok s) (.ok t)

/-- The same view, and on both sides what the next callbacks rely on. -/
def InStep (keep : Parse Proc Form → Prop) (s t : Parse Proc Form) : Prop :=
  s.view = t.view ∧ keep s ∧ keep t

theorem Paired.bind (paired : Paired related x y)
    (step : ∀ s t, related s t → Paired related' (next s) (next t)) :
    Paired related' (x >>= next) (y >>= next) := by
  cases paired with
  | stopped same => exact .stopped same
  | running alike => exact step _ _ alike

variable {keep : Parse Proc Form → Prop}

theorem proceed_paired (left : Respects f s) (right : Respects f t) (alike : s.view = t.view)
    (kept : keep (f s).2) (kept' : keep (f t).2) :
    Paired (InStep keep) (proceed (f s)) (proceed (f t)) := by
  obtain ⟨reply, state⟩ := left.alike right alike
  unfold proceed
  rw [reply]
  split
  · apply Paired.stopped
    rw [← record_view, state, record_view]
  · exact .running ⟨state, kept, kept'⟩

theorem foldlM_paired {C : Type} {run : C → Parse Proc Form → Reply × Parse Proc Form}
    (respects : ∀ c s, keep s → Respects (run c) s) (keeps : ∀ c s, keep s → keep (run c s).2)
    (cs : List C) (alike : InStep keep s t) :
    Paired (InStep keep) (cs.foldlM (fun s c => proceed (run c s)) s)
      (cs.foldlM (fun s c => proceed (run c s)) t) := by
  induction cs generalizing s t with
  | nil => exact .running alike
  | cons c rest ih =>
    obtain ⟨view, left, right⟩ := alike
    have first : Paired (InStep keep) (proceed (run c s)) (proceed (run c t)) :=
      proceed_paired (respects c s left) (respects c t right) view (keeps c s left)
        (keeps c t right)
    exact first.bind fun _ _ alike => ih alike

def HeadKept (s : Parse Proc Form) : Prop := Building s.parser ∧ contents s.req.uri = []

theorem HeadCallback.run_kept (kept : HeadKept s) : HeadKept (c.run s).2 := by
  refine ⟨c.run_building kept.1, ?_⟩
  rw [c.run_uri]
  exact kept.2

theorem onMessageComplete_proceeds (s : Parse Proc Form) :
    proceed (onMessageComplete ops s) = .ok (onMessageComplete ops s).2 := by
  unfold onMessageComplete dispatchComplete proceed
  split <;> rfl

theorem onMessageComplete_paired (alike : s.view = t.view) :
    Paired (fun s t => record s = record t) (proceed (onMessageComplete ops s))
      (proceed (onMessageComplete ops t)) := by
  rw [onMessageComplete_proceeds, onMessageComplete_proceeds]
  apply Paired.running
  simp only [onMessageComplete, dispatchComplete_record]
  rw [← completeRequest_record, alike, completeRequest_record]

theorem recorded_of_view {p : Http1Parser}
    (alike : (onMessageBegin p : Parse Proc Form).view = (onMessageBegin q : Parse Proc Form).view)
    (m : Message) : recorded ops m p = recorded ops m q := by
  have start (r : Http1Parser) : HeadKept (onMessageBegin r : Parse Proc Form) := ⟨nofun, rfl⟩
  have run : Paired (fun s t => record s = record t) (runMessage ops m p) (runMessage ops m q) := by
    apply Paired.bind (foldlM_paired (fun c _ kept => c.run_respects kept.1)
      (fun c s kept => c.run_kept kept) m.head ⟨alike, start p, start q⟩)
    intro s t inStep
    have headers : Paired (InStep fun s => Building s.parser)
        (proceed (onHeadersComplete ops m.line m.env s))
        (proceed (onHeadersComplete ops m.line m.env t)) :=
      proceed_paired (onHeadersComplete_respects ops _ _ inStep.2.1.1 inStep.2.1.2)
        (onHeadersComplete_respects ops _ _ inStep.2.2.1 inStep.2.2.2) inStep.1
        (onHeadersComplete_building ops _ _ inStep.2.1.1)
        (onHeadersComplete_building ops _ _ inStep.2.2.1)
    apply headers.bind
    intro s t inStep
    apply Paired.bind (foldlM_paired (fun c _ kept => c.run_respects ops kept)
      (fun c _ kept => c.run_building ops kept) m.tail inStep)
    intro s t inStep
    exact onMessageComplete_paired ops inStep.1
  unfold recorded
  generalize runMessage ops m p = x at run ⊢
  generalize runMessage ops m q = y at run ⊢
  cases run with
  | stopped same => exact congrArg (Prod.mk false) same
  | running same => exact congrArg (Prod.mk true) same

end TrueAsync.Http1

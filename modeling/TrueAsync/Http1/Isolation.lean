import TrueAsync.Http1.View
import TrueAsync.Lib.Returns

/-!
# Isolation between the requests of a connection

`on_message_begin` resets every counter and flag of the parser and starts a new request, but
leaves the four string builders as they are. The URL and body builders are handed over with
the request. The header builders are not: the last field of a chunked trailer is appended to
them and neither saved nor cleared, and the next request's first header is appended to it.

`Http1Parser.carried` is that text. Two histories of complete requests can be told apart by a
later request exactly when they carry different text.
-/

namespace TrueAsync.Http1

open TrueAsync.Lib List HeadCallback Http1Parser TailCallback

variable {Proc Form : Type} (ops : MultipartOps Proc Form)

def Http1Parser.carried (p : Http1Parser) : Bytes × Bytes :=
  (lower (contents p.headerNameBuilder), contents p.headerValueBuilder)

def Http1Parser.wiring (p : Http1Parser) : Option RequestPtr × Option ConnView × Bool × Nat :=
  (p.request, p.conn, p.dispatchCb, p.maxBodySize)

def Bounded (p : Http1Parser) : Prop :=
  (contents p.headerNameBuilder).length ≤ httpMaxHeaderName ∧
    (contents p.headerValueBuilder).length ≤ httpMaxHeaderValue

/-- A parser between two messages, wired as `p0`. -/
structure Between (p0 p : Http1Parser) : Prop where
  wiring : p.wiring = p0.wiring
  uri : contents p.uriBuilder = []
  body : contents p.bodyBuilder = []
  bounded : Bounded p

/-- A parser as the pool hands it out: its builders are empty. -/
structure Idle (p : Http1Parser) : Prop where
  uri : contents p.uriBuilder = []
  body : contents p.bodyBuilder = []
  name : contents p.headerNameBuilder = []
  value : contents p.headerValueBuilder = []

variable {p : Http1Parser}

theorem Idle.between (idle : Idle p) : Between p p :=
  ⟨rfl, idle.uri, idle.body, by simp [Bounded, idle.name, idle.value]⟩

theorem Idle.carried (idle : Idle p) : p.carried = ([], []) := by
  simp [Http1Parser.carried, idle.name, idle.value, lower]

variable {p0 : Http1Parser}

/-- The next message of two parsers between messages starts with the same view, if they carry
the same header text. -/
theorem Between.view (left : Between p0 p) (right : Between p0 q)
    (carried : p.carried = q.carried) :
    (onMessageBegin p : Parse Proc Form).view = (onMessageBegin q : Parse Proc Form).view := by
  have wiring := left.wiring.trans right.wiring.symm
  simp only [Http1Parser.wiring, Http1Parser.carried, Prod.mk.injEq] at wiring carried
  simp [onMessageBegin, Parse.view, Http1Parser.view, left.uri, left.body, right.uri, right.body,
    wiring, carried]

/-! ## Complete messages leave the parser between messages -/

theorem inspectHeader_builders (name value : Bytes) :
    (inspectHeader name value s).2.parser.headerNameBuilder = s.parser.headerNameBuilder ∧
      (inspectHeader name value s).2.parser.headerValueBuilder = s.parser.headerValueBuilder := by
  unfold inspectHeader
  dsimp only
  repeat' split
  all_goals exact ⟨rfl, rfl⟩

theorem settleHeader_bounded (name value : Bytes)
    (bounded : Bounded outcome.2.parser) : Bounded (settleHeader name value outcome).parser := by
  obtain ⟨err, s⟩ := outcome
  cases err
  case ok => exact ⟨Nat.zero_le _, Nat.zero_le _⟩
  all_goals exact bounded

variable {s : Parse Proc Form}

theorem saveCurrentHeader_bounded (bounded : Bounded s.parser) :
    Bounded (saveCurrentHeader s).parser := by
  unfold saveCurrentHeader
  split
  · rename_i rawName value named valued
    split
    · exact bounded
    · apply settleHeader_bounded
      obtain ⟨name', value'⟩ := inspectHeader_builders (lower rawName) value
      unfold Bounded at bounded ⊢
      rw [name', value']
      unfold countHeader
      refine ⟨?_, bounded.2⟩
      rw [named] at bounded
      split
      · exact Nat.zero_le _
      · simpa using bounded.1
  · exact bounded

theorem flushHeader_bounded (bounded : Bounded s.parser) :
    Bounded (flushHeader (initHeaders s)).parser := by
  unfold flushHeader
  split
  · exact saveCurrentHeader_bounded (s := initHeaders s) bounded
  · exact bounded

theorem onHeaderField_bounded (text : Bytes) (bounded : Bounded s.parser) :
    Bounded (onHeaderField text s).2.parser := by
  have flushed := flushHeader_bounded bounded
  unfold onHeaderField appendHeaderName
  split
  · exact flushed
  · rename_i fits
    refine ⟨?_, flushed.2⟩
    rw [contents_smartStrAppend, length_append]
    exact le_of_not_gt fits

theorem onHeaderValue_bounded (text : Bytes) (bounded : Bounded p) :
    Bounded (onHeaderValue text p).2 := by
  unfold onHeaderValue
  repeat' split
  · exact bounded
  · exact bounded
  · exact bounded
  · rename_i fits _
    refine ⟨bounded.1, ?_⟩
    rw [contents_smartStrAppend, length_append]
    exact le_of_not_gt fits

theorem HeaderEffect.steady (effect : HeaderEffect s t) :
    t.parser.wiring = s.parser.wiring ∧ t.parser.uriBuilder = s.parser.uriBuilder ∧
      t.parser.bodyBuilder = s.parser.bodyBuilder := by
  rw [effect.parser]
  exact ⟨rfl, rfl, rfl⟩

/-- Before the headers are complete. -/
structure InHead (p0 : Http1Parser) (s : Parse Proc Form) : Prop where
  wiring : s.parser.wiring = p0.wiring
  body : contents s.parser.bodyBuilder = []
  bounded : Bounded s.parser

/-- After the headers are complete: a body that is streamed or pre-sized leaves the body
builder empty. -/
structure InBody (p0 : Http1Parser) (s : Parse Proc Form) : Prop where
  wiring : s.parser.wiring = p0.wiring
  uri : s.parser.uriBuilder = none
  body : s.req.bodyStreaming ∨ s.req.body.isSome → contents s.parser.bodyBuilder = []
  bounded : Bounded s.parser

theorem proceed_ensures
    (post : outcome.1.result ≠ .failed → Q outcome.2) : Ensures (proceed outcome) Q := by
  intro s done
  grind [proceed]

theorem HeadCallback.run_inHead (c : HeadCallback) (h : InHead p0 s) : InHead p0 (c.run s).2 := by
  cases c with
  | url text =>
    simp only [run, onParser, onUrl]
    repeat' split
    all_goals exact { h with }
  | headerField text =>
    obtain ⟨wiring, -, body⟩ := (onHeaderField_effect text s).steady
    exact ⟨wiring.trans h.wiring, (congrArg contents body).trans h.body,
      onHeaderField_bounded text h.bounded⟩
  | headerValue text =>
    obtain ⟨wiring, -, body⟩ := (onHeaderValue_effect text s).steady
    exact ⟨wiring.trans h.wiring, (congrArg contents body).trans h.body,
      onHeaderValue_bounded text h.bounded⟩

theorem flushHeader_inHead (h : InHead p0 s) : InHead p0 (flushHeader (initHeaders s)) := by
  have opened : HeaderEffect s (initHeaders s) := ⟨rfl, rfl⟩
  obtain ⟨wiring, -, body⟩ := (opened.trans (flushHeader_effect _)).steady
  exact ⟨wiring.trans h.wiring, (congrArg contents body).trans h.body, flushHeader_bounded h.bounded⟩

theorem onHeadersComplete_inBody (h : InHead p0 s) :
    Ensures (proceed (onHeadersComplete ops line env s)) (InBody p0) := by
  apply proceed_ensures
  unfold onHeadersComplete
  split
  · intro succeeded
    exact absurd rfl succeeded
  · intro succeeded
    have flushed := flushHeader_inHead h
    have frame := (acceptHeaders_effect ops line env.oom (flushHeader (initHeaders s))).parser
    obtain ⟨-, -, uri⟩ := acceptHeaders_accepted ops succeeded
    refine ⟨?_, uri, fun _ => ?_, ?_⟩
    · rw [frame]
      exact flushed.wiring
    · rw [frame]
      exact flushed.body
    · rw [frame]
      exact flushed.bounded

theorem TailCallback.run_inBody (c : TailCallback) (h : InBody p0 s) :
    InBody p0 (c.run ops s).2 := by
  have trailer {t : Parse Proc Form} (effect : HeaderEffect s t) (bounded : Bounded t.parser) :
      InBody p0 t := by
    obtain ⟨wiring, uri, body⟩ := effect.steady
    refine ⟨wiring.trans h.wiring, uri.trans h.uri, fun placed => ?_, bounded⟩
    rw [effect.req] at placed
    exact (congrArg contents body).trans (h.body placed)
  cases c with
  | body text oom =>
    have effect := onBody_effect ops text oom s
    refine ⟨?_, ?_, fun placed => ?_, ?_⟩
    · unfold wiring run
      rw [effect.parser]
      exact h.wiring
    · unfold run
      rw [effect.parser]
      exact h.uri
    · unfold run at placed ⊢
      rw [effect.streaming, effect.sized] at placed
      rw [effect.builder placed]
      exact h.body placed
    · unfold Bounded run
      rw [effect.parser]
      exact h.bounded
  | headerField text =>
    exact trailer (onHeaderField_effect text s) (onHeaderField_bounded text h.bounded)
  | headerValue text =>
    exact trailer (onHeaderValue_effect text s) (onHeaderValue_bounded text h.bounded)

theorem onMessageComplete_between (h : InBody p0 s) :
    Between p0 (onMessageComplete ops s).2.parser := by
  have frame := onMessageComplete_frame ops s
  have body : contents (onMessageComplete ops s).2.parser.bodyBuilder = [] := by
    rcases onMessageComplete_bodyBuilder ops s with taken | ⟨kept, placed⟩
    · rw [taken]
      rfl
    · rw [kept]
      exact h.body placed
  refine ⟨?_, ?_, body, ?_⟩
  · rw [frame]
    exact h.wiring
  · rw [frame]
    exact congrArg contents h.uri
  · rw [frame]
    exact h.bounded

theorem runMessage_between (m : Message) (h : Between p0 p) :
    Ensures (runMessage ops m p) fun s => Between p0 s.parser := by
  have start : InHead p0 (onMessageBegin p : Parse Proc Form) := { h with }
  have head := Ensures.foldlM (I := InHead p0) m.head (fun s c _ inHead =>
    proceed_ensures fun _ => c.run_inHead inHead) _ start
  refine head.bind fun s inHead => (onHeadersComplete_inBody ops inHead).bind fun s inBody => ?_
  have tail := Ensures.foldlM (I := InBody p0) m.tail (fun s c _ inBody =>
    proceed_ensures fun _ => c.run_inBody ops inBody) _ inBody
  exact tail.bind fun s inBody => proceed_ensures fun _ => onMessageComplete_between ops inBody

theorem runHistory_keeps
    (step : ∀ p m, m ∈ history → keep p → Ensures (runMessage ops m p) fun s => keep s.parser)
    (start : keep p0) : Ensures (runHistory ops history p0) keep := by
  refine .foldlM (I := keep) history (fun p m listed kept q done => ?_) p0 start
  cases run : runMessage ops m p with
  | error s =>
    rw [run] at done
    cases done
  | ok s =>
    rw [run] at done
    cases done
    exact step p m listed kept s run

/-! ## Messages without trailers carry nothing over -/

/-- The last header callback of a head: `true` for a value, `false` for a name. -/
def HeadCallback.mark (last : Option Bool) : HeadCallback → Option Bool
  | .url _ => last
  | .headerField _ => some false
  | .headerValue _ => some true

/-- A message as llhttp delivers one without trailer fields: every header name in the head is
followed by its value, and after the head there are only body fragments. -/
def Message.Plain (m : Message) : Prop :=
  m.head.foldl mark none ≠ some false ∧ ∀ c ∈ m.tail, ∃ text oom, c = body text oom

/-- Nothing is carried, or the header under way is about to be saved. -/
def Marked (last : Option Bool) (s : Parse Proc Form) : Prop :=
  Building s.parser ∧ match last with
    | none => s.parser.carried = ([], [])
    | some true => s.parser.inHeaderValue = true
    | some false => True

variable {last : Option Bool}

theorem HeadCallback.run_marked (c : HeadCallback) (marked : Marked last s) :
    Ensures (proceed (c.run s)) (Marked (c.mark last)) := by
  apply proceed_ensures
  intro succeeded
  refine ⟨c.run_building marked.1, ?_⟩
  cases c with
  | url text =>
    rcases onUrl_cases text s.parser with ⟨err, -, refused⟩ | appended
    · exact absurd (by simp [run, onParser, refused, reject]) succeeded
    · simp only [mark, run, onParser, appended]
      exact marked.2
  | headerField text => trivial
  | headerValue text =>
    rcases onHeaderValue_cases text s.parser with ⟨err, -, refused⟩ | ⟨-, appended⟩
    · exact absurd (by simp [run, onParser, refused, reject]) succeeded
    · simp only [mark, run, onParser, appended]

theorem runHead_marked (head : List HeadCallback) (marked : Marked last s) :
    Ensures (head.foldlM (fun s c => proceed (c.run s)) s) (Marked (head.foldl mark last)) := by
  induction head generalizing last s with
  | nil => exact .pure marked
  | cons c rest ih => exact (c.run_marked marked).bind fun t marked => ih marked

theorem saveCurrentHeader_cleared (building : Building s.parser)
    (reading : s.parser.inHeaderValue = true)
    (saved : (saveCurrentHeader s).parser.parseError = .ok) :
    (saveCurrentHeader s).parser.carried = ([], []) := by
  obtain ⟨name, named⟩ := Option.isSome_iff_exists.mp (building reading).1
  obtain ⟨value, valued⟩ := Option.isSome_iff_exists.mp (building reading).2
  simp only [saveCurrentHeader, named, valued] at saved ⊢
  split at saved
  · cases saved
  · rename_i room
    rw [if_neg room]
    generalize inspectHeader (lower name) value (countHeader (lower name) s) = outcome at saved ⊢
    obtain ⟨err, t⟩ := outcome
    cases err
    case ok => rfl
    all_goals cases saved

theorem flushHeader_cleared (marked : Marked last s)
    (ended : last ≠ some false) (saved : (flushHeader s).parser.parseError = .ok) :
    (flushHeader s).parser.carried = ([], []) := by
  unfold flushHeader at saved ⊢
  by_cases reading : s.parser.inHeaderValue = true
  · rw [if_pos reading] at saved ⊢
    exact saveCurrentHeader_cleared marked.1 reading saved
  · rw [if_neg reading] at saved ⊢
    match last, marked.2, ended with
    | none, carried, _ => exact carried
    | some true, under, _ => exact absurd under reading
    | some false, _, ended => exact absurd rfl ended

theorem runMessage_plain (plain : m.Plain) (clean : p.carried = ([], [])) :
    Ensures (runMessage ops m p) fun s => s.parser.carried = ([], []) := by
  have start : Marked none (onMessageBegin p : Parse Proc Form) := ⟨nofun, clean⟩
  refine (runHead_marked m.head start).bind fun s marked => ?_
  have headers : Ensures (proceed (onHeadersComplete ops m.line m.env s))
      fun s => s.parser.carried = ([], []) := by
    apply proceed_ensures
    unfold onHeadersComplete
    split
    · intro succeeded
      exact absurd rfl succeeded
    · intro succeeded
      rw [(acceptHeaders_effect ops m.line m.env.oom _).parser]
      exact flushHeader_cleared (s := initHeaders s) marked plain.1
        (acceptHeaders_accepted ops succeeded).1
  refine headers.bind fun s clean => ?_
  have tail : Ensures (m.tail.foldlM (fun s c => proceed (c.run ops s)) s)
      fun s => s.parser.carried = ([], []) := by
    refine .foldlM (I := fun s => s.parser.carried = ([], [])) m.tail
      (fun s c listed clean => ?_) s clean
    obtain ⟨text, oom, rfl⟩ := plain.2 c listed
    apply proceed_ensures
    intro _
    show (onBody ops text oom s).2.parser.carried = _
    rw [(onBody_effect ops text oom s).parser]
    exact clean
  refine tail.bind fun s clean => proceed_ensures fun _ => ?_
  rw [onMessageComplete_frame]
  exact clean

/-! ## A request that shows the carried text -/

/-- A request with one header, whose name is `suffix` and whose value is empty. -/
def probe (suffix : Bytes) : Message where
  head := [.headerField suffix, .headerValue []]
  line := { method := ascii "GET", major := 1, minor := 0 }

def storedHeaders (outcome : Bool × Recorded Proc Form) : HeaderTable :=
  outcome.2.request.headers.getD []

/-- The names `inspectHeader` looks at. -/
def inspectedNames : List Bytes :=
  ["content-length", "transfer-encoding", "host", "content-type", "connection"].map ascii

variable {name : Bytes}

theorem inspectHeader_ordinary (ordinary : name ∉ inspectedNames) (value : Bytes) :
    inspectHeader name value s = (.ok, s) := by
  grind [inspectedNames, inspectHeader]

theorem flushHeader_ordinary (reading : s.parser.inHeaderValue = true)
    (named : s.parser.headerNameBuilder = some name)
    (valued : s.parser.headerValueBuilder = some value)
    (room : s.parser.headerCount < httpMaxHeaderCount) (ordinary : lower name ∉ inspectedNames) :
    (flushHeader s).req.headers =
      some (httpRequestStoreHeader (s.req.headers.getD []) (lower name) value) := by
  rw [flushHeader, if_pos reading]
  simp only [saveCurrentHeader, named, valued, if_neg (not_le.mpr room),
    inspectHeader_ordinary ordinary]
  rfl

theorem onMessageComplete_headers (s : Parse Proc Form) :
    (onMessageComplete ops s).2.req.headers = s.req.headers := by
  unfold onMessageComplete dispatchComplete completeRequest finishBody
  grind [finalizeMultipart_effect]

theorem onHeaderValue_fits (text : Bytes) (named : p.headerNameBuilder.getD [] ≠ [])
    (fits : (p.headerValueBuilder.getD []).length + text.length ≤ httpMaxHeaderValue)
    (room : p.totalHeadersSize + text.length ≤ httpMaxHeadersTotal) :
    onHeaderValue text p = (⟨.ok, false⟩, { p with
      totalHeadersSize := p.totalHeadersSize + text.length
      inHeaderValue := true
      headerValueBuilder := smartStrAppend p.headerValueBuilder text }) := by
  grind [onHeaderValue]

theorem probe_head (Proc Form : Type) (bounded : Bounded p)
    (fits : (contents p.headerNameBuilder).length + suffix.length ≤ httpMaxHeaderName)
    (named : contents p.headerNameBuilder ++ suffix ≠ []) : ∃ s : Parse Proc Form,
      (probe suffix).head.foldlM (fun s c => proceed (c.run s)) (onMessageBegin p) = .ok s ∧
        s.parser.inHeaderValue = true ∧
        s.parser.headerNameBuilder = some (contents p.headerNameBuilder ++ suffix) ∧
        s.parser.headerValueBuilder = some (contents p.headerValueBuilder) ∧
        s.parser.headerCount = 0 ∧ s.req.headers = some [] := by
  let s1 : Parse Proc Form := { initHeaders (onMessageBegin p) with
    parser := { (onMessageBegin p : Parse Proc Form).parser with
      headerNameBuilder := some (contents p.headerNameBuilder ++ suffix) } }
  have field : run (.headerField suffix) (onMessageBegin p) = (⟨.ok, false⟩, s1) := by
    show appendHeaderName suffix (initHeaders (onMessageBegin p)) = _
    exact if_neg (not_lt.mpr fits)
  have value := onHeaderValue_fits (p := s1.parser) [] named bounded.2 (Nat.zero_le _)
  refine ⟨{ s1 with parser := (onHeaderValue [] s1.parser).2 }, ?_, ?_⟩
  · simp only [probe, foldlM_cons, foldlM_nil, field]
    show proceed (onParser (onHeaderValue []) s1) >>= pure = _
    rw [onParser, value]
    rfl
  · rw [value]
    refine ⟨rfl, rfl, ?_, rfl, rfl⟩
    exact congrArg some (append_nil _)

theorem storedHeaders_probe (suffix : Bytes) (bounded : Bounded p)
    (fits : (contents p.headerNameBuilder).length + suffix.length ≤ httpMaxHeaderName)
    (named : contents p.headerNameBuilder ++ suffix ≠ [])
    (ordinary : lower (contents p.headerNameBuilder ++ suffix) ∉ inspectedNames) :
    storedHeaders (recorded ops (probe suffix) p) =
      [(lower (contents p.headerNameBuilder ++ suffix), contents p.headerValueBuilder)] := by
  obtain ⟨s, ran, reading, name, value, count, table⟩ := probe_head Proc Form bounded fits named
  have room : (initHeaders s).parser.headerCount < httpMaxHeaderCount := by
    show s.parser.headerCount < httpMaxHeaderCount
    rw [count]
    decide
  have stored : (onHeadersComplete ops (probe suffix).line (probe suffix).env s).2.req.headers =
      some [(lower (contents p.headerNameBuilder ++ suffix), contents p.headerValueBuilder)] := by
    rw [onHeadersComplete, if_neg (by simp [probe]), (acceptHeaders_effect ops _ _ _).headers]
    rw [flushHeader_ordinary (s := initHeaders s) reading name value room ordinary]
    simp [initHeaders, table, httpRequestStoreHeader, HeaderTable.find?]
  simp only [storedHeaders, recorded, runMessage, ran, ok_bind]
  generalize onHeadersComplete ops (probe suffix).line (probe suffix).env s = outcome at stored
  unfold proceed
  by_cases refused : outcome.1.result = .failed
  · simp [refused, record, stored]
  · have finished := onMessageComplete_proceeds ops outcome.2
    unfold proceed at finished
    simp [refused, probe, record, finished, onMessageComplete_headers, stored]

theorem storedHeaders_probe_refused
    (long : (contents p.headerNameBuilder).length + suffix.length > httpMaxHeaderName) :
    storedHeaders (recorded ops (probe suffix) p) = [] := by
  have field : run (.headerField suffix) (onMessageBegin p : Parse Proc Form) =
      (initHeaders (onMessageBegin p)).reject .headerNameTooLarge := by
    show appendHeaderName suffix (initHeaders (onMessageBegin p)) = _
    exact if_pos long
  simp only [storedHeaders, recorded, runMessage, probe, foldlM_cons, field]
  rfl

theorem bang_not_inspected (name : Bytes) : name ++ [0x21] ∉ inspectedNames := by
  intro inspected
  have last : ∀ known ∈ inspectedNames, known.getLast? ≠ some 0x21 := by decide
  exact last _ inspected (by simp)

theorem long_not_inspected (long : name.length = httpMaxHeaderName) : name ∉ inspectedNames := by
  intro inspected
  have short : ∀ known ∈ inspectedNames, known.length < httpMaxHeaderName := by decide
  grind

/-- Short of the name limit, a header named `!` shows the carried text. -/
theorem storedHeaders_bang (bounded : Bounded p)
    (room : (contents p.headerNameBuilder).length ≠ httpMaxHeaderName) :
    storedHeaders (recorded ops (probe [0x21]) p) = [(p.carried.1 ++ [0x21], p.carried.2)] := by
  have bang : lower [0x21] = [0x21] := by decide
  have shown := storedHeaders_probe ops [0x21] bounded
    (Nat.lt_of_le_of_ne bounded.1 room) (by simp)
    (by rw [lower_append, bang]; exact bang_not_inspected _)
  rwa [lower_append, bang] at shown

theorem storedHeaders_unnamed (bounded : Bounded p)
    (full : (contents p.headerNameBuilder).length = httpMaxHeaderName) :
    storedHeaders (recorded ops (probe []) p) = [p.carried] := by
  have named : contents p.headerNameBuilder ++ [] ≠ [] := by
    intro none
    rw [append_nil] at none
    rw [none] at full
    cases full
  have shown := storedHeaders_probe ops [] bounded bounded.1 named (by
    rw [append_nil]
    exact long_not_inspected (by rw [length_lower, full]))
  rwa [append_nil] at shown

theorem carried_of_recorded (left : Bounded p) (right : Bounded q)
    (same : ∀ m, recorded ops m p = recorded ops m q) : p.carried = q.carried := by
  have shown (suffix : Bytes) : storedHeaders (recorded ops (probe suffix) p) =
      storedHeaders (recorded ops (probe suffix) q) := by rw [same]
  have refused {r : Http1Parser} (full : (contents r.headerNameBuilder).length = httpMaxHeaderName) :
      storedHeaders (recorded ops (probe [0x21]) r) = [] := by
    apply storedHeaders_probe_refused
    rw [full]
    exact Nat.lt_succ_self _
  by_cases full : (contents p.headerNameBuilder).length = httpMaxHeaderName
  all_goals by_cases full' : (contents q.headerNameBuilder).length = httpMaxHeaderName
  · grind [storedHeaders_unnamed]
  · grind [storedHeaders_bang]
  · grind [storedHeaders_bang]
  · have bang := shown [0x21]
    rw [storedHeaders_bang ops left full, storedHeaders_bang ops right full',
      singleton_inj, Prod.mk.injEq] at bang
    exact Prod.ext (append_cancel_right bang.1) bang.2

/-! ## Isolation -/

/-- After two histories of complete requests on a parser from the pool, every next request is
recorded alike exactly when the histories carry the same header text over. Histories without
trailer fields carry none. -/
theorem keep_alive_isolated_iff {p₀ p q : Http1Parser} (idle : Idle p₀)
    (before before' : List Message) (left : runHistory ops before p₀ = .ok p)
    (right : runHistory ops before' p₀ = .ok q) :
    ((∀ m, recorded ops m p = recorded ops m q) ↔ p.carried = q.carried) ∧
      ((∀ m ∈ before ++ before', m.Plain) → ∀ m, recorded ops m p = recorded ops m q) := by
  have between : Between p₀ p :=
    runHistory_keeps ops (fun _ m _ => runMessage_between ops m) idle.between p left
  have between' : Between p₀ q :=
    runHistory_keeps ops (fun _ m _ => runMessage_between ops m) idle.between q right
  have isolated (carried : p.carried = q.carried) (m : Message) :
      recorded ops m p = recorded ops m q :=
    recorded_of_view ops (between.view between' carried) m
  refine ⟨⟨carried_of_recorded ops between.bounded between'.bounded, isolated⟩, fun plain => ?_⟩
  apply isolated
  have clean : p.carried = ([], []) := runHistory_keeps ops
    (fun _ m listed => runMessage_plain ops (plain m (mem_append_left _ listed)))
    idle.carried p left
  have clean' : q.carried = ([], []) := runHistory_keeps ops
    (fun _ m listed => runMessage_plain ops (plain m (mem_append_right _ listed)))
    idle.carried q right
  rw [clean, clean']

def noForms : MultipartOps Unit Unit where
  create _ := none
  feed proc _ := (proc, true)
  finalize _ := ()

/-- A parser attached to a connection that streams no bodies. -/
def freshParser : Http1Parser := httpParserAttach ⟨false⟩ (httpParserCreate 1024)

/-- `GET / HTTP/1.0` with one header. -/
def getWith (name value : String) : Message where
  head := [.url (ascii "/"), .headerField (ascii name), .headerValue (ascii value)]
  line := { method := ascii "GET", major := 1, minor := 0 }

/-- `POST / HTTP/1.1`, chunked, with the trailer field `x: y`. -/
def postWithTrailer : Message where
  head := [.url (ascii "/"), .headerField (ascii "Host"), .headerValue (ascii "a"),
    .headerField (ascii "Transfer-Encoding"), .headerValue (ascii "chunked")]
  line := { method := ascii "POST", major := 1, minor := 1 }
  tail := [.body (ascii "hello") false, .headerField (ascii "x"), .headerValue (ascii "y")]

/-- The isolation result on the empty history and a history without trailers. -/
theorem keep_alive_isolated_get : recorded noForms (getWith "Host" "a") freshParser =
      recorded noForms (getWith "Host" "a")
        (match runHistory noForms [getWith "Accept" "b"] freshParser with
          | .ok p => p
          | .error s => s.parser) := by
  have plain : ∀ m ∈ [] ++ [getWith "Accept" "b"], m.Plain := by
    intro m listed
    simp only [nil_append, mem_singleton] at listed
    subst listed
    exact ⟨by decide, nofun⟩
  exact (keep_alive_isolated_iff noForms ⟨rfl, rfl, rfl, rfl⟩ []
    [getWith "Accept" "b"] rfl rfl).2 plain _

/-- After a request with the trailer field `x: y`, the next request's header `Host: a` is
recorded as `xhost: ya`. -/
theorem trailer_leaks_into_next_request :
    ∃ p q, runHistory noForms [getWith "Host" "a"] freshParser = .ok p ∧
      runHistory noForms [postWithTrailer] freshParser = .ok q ∧
      storedHeaders (recorded noForms (getWith "Host" "a") p) = [(ascii "host", ascii "a")] ∧
      storedHeaders (recorded noForms (getWith "Host" "a") q) = [(ascii "xhost", ascii "ya")] :=
  ⟨_, _, rfl, rfl, by decide, by decide⟩

end TrueAsync.Http1

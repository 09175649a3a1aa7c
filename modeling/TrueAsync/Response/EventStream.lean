import Mathlib.Data.List.Induction
import TrueAsync.Lib.Cut
import TrueAsync.Response.Stream

/-!
# Server-sent events and their recipient

The event stream of the WHATWG HTML standard, section 9.2.6: lines with three kinds of ends, a
field on each, and an event at every empty line. What `sseEvent`, `sseComment` and `sseRetry`
write is read back by it as the calls that were accepted. The recipient works on bytes: decoding
UTF-8 before or after makes no difference to line ends and field names.
-/

namespace TrueAsync.Response

open TrueAsync.Lib List SseEvent Option

/-! ## The recipient -/

/-- A dispatched event, with the reconnection time at that point. -/
structure StreamEvent where
  type : Bytes
  data : Bytes
  lastEventId : Bytes
  retry : Option Nat
  deriving DecidableEq, Repr

/-- The state of a recipient: its buffers, and the events that it has dispatched. -/
structure EventSource where
  data : Bytes := []
  eventType : Bytes := []
  lastEventId : Bytes := []
  retry : Option Nat := none
  events : List StreamEvent := []
  deriving DecidableEq, Repr

def EventSource.field (s : EventSource) (name value : Bytes) : EventSource :=
  if name = ascii "event" then { s with eventType := value }
  else if name = ascii "data" then { s with data := s.data ++ value ++ [0x0a] }
  else if name = ascii "id" then
    if value.contains 0 then s else { s with lastEventId := value }
  else if name = ascii "retry" then
    match readNumeral 10 value with
    | some ms => { s with retry := some ms }
    | none => s
  else s

def EventSource.dispatch (s : EventSource) : EventSource :=
  if s.data = [] then { s with eventType := [] }
  else { s with
    events := s.events ++ [{
      type := if s.eventType = [] then ascii "message" else s.eventType
      data := s.data.dropLast
      lastEventId := s.lastEventId
      retry := s.retry }]
    data := []
    eventType := [] }

def dropSpace : Bytes → Bytes
  | 0x20 :: value => value
  | value => value

def EventSource.line (s : EventSource) (line : Bytes) : EventSource :=
  if line = [] then s.dispatch
  else
    match cutAt 0x3a line with
    | some ([], _) => s
    | some (name, value) => s.field name (dropSpace value)
    | none => s.field line []

/-- Read a stream; `line` is the start of the current line. -/
def EventSource.read (s : EventSource) (line : Bytes) : Bytes → EventSource
  | [] => s
  | 0x0d :: 0x0a :: rest => (s.line line).read [] rest
  | b :: rest =>
      if b = 0x0a ∨ b = 0x0d then (s.line line).read [] rest else s.read (line ++ [b]) rest

def dropBom : Bytes → Bytes
  | 0xef :: 0xbb :: 0xbf :: stream => stream
  | stream => stream

def parseEventStream (stream : Bytes) : EventSource := ({} : EventSource).read [] (dropBom stream)

/-! ## Calls -/

/-- A call that writes a record. -/
inductive SseCall
  | event (e : SseEvent)
  | comment (text : Option Bytes)
  | retry (milliseconds : Int)
  deriving DecidableEq, Repr

def SseCall.prepare : SseCall → HttpResponse → Except Thrown (HttpResponse × Option Bytes)
  | .event e => sseEvent e
  | .comment text => sseComment text
  | .retry milliseconds => sseRetry milliseconds

/-- A response, the calls that it has accepted, and their payloads. -/
structure SseRun where
  response : HttpResponse
  accepted : List SseCall := []
  stream : Bytes := []
  deriving DecidableEq, Repr

def SseRun.step (run : SseRun) (call : SseCall) : SseRun :=
  match call.prepare run.response with
  | .error _ => run
  | .ok (response, payload) =>
      { response
        accepted := run.accepted ++ [call]
        stream := run.stream ++ payload.getD [] }

def runSse (r : HttpResponse) (calls : List SseCall) : SseRun :=
  calls.foldl SseRun.step { response := r }

def normalizeNewlines : Bytes → Bytes
  | [] => []
  | 0x0d :: 0x0a :: rest => 0x0a :: normalizeNewlines rest
  | b :: rest => (if b = 0x0d then 0x0a else b) :: normalizeNewlines rest

/-- What a recipient is to make of a call: nothing stays in its buffers, and there is an event
if the call has data. -/
def EventSource.hear (s : EventSource) : SseCall → EventSource
  | .comment _ => s
  | .retry milliseconds => { s with retry := some milliseconds.toNat }
  | .event e =>
      let lastEventId := e.id.getD s.lastEventId
      let retry := (e.retry.map Int.toNat).or s.retry
      { s with
        lastEventId
        retry
        events := s.events ++ e.data.toList.map fun data =>
          { type := if e.event.getD [] = [] then ascii "message" else e.event.getD []
            data := normalizeNewlines data
            lastEventId
            retry } }

def heard (calls : List SseCall) : EventSource := calls.foldl EventSource.hear {}

/-! ## Lines -/

/-- A line that is written: no line end in it, and no byte order mark at its start. -/
structure IsLine (line : Bytes) : Prop where
  lf : 0x0a ∉ line
  cr : 0x0d ∉ line
  bom : line.head? ≠ some 0xef

def unlines (lines : List Bytes) : Bytes := lines.flatMap (· ++ [0x0a])

theorem read_line (s : EventSource) (start : Bytes) (lf : 0x0a ∉ line) (cr : 0x0d ∉ line)
    (rest : Bytes) :
    s.read start (line ++ 0x0a :: rest) = (s.line (start ++ line)).read [] rest := by
  induction line generalizing start with
  | nil => grind [EventSource.read]
  | cons b line ih =>
    rw [mem_cons, not_or] at lf cr
    rw [cons_append, EventSource.read, if_neg, ih _ lf.2 cr.2, append_assoc, singleton_append]
    · grind
    · intro _ same
      exact absurd same.symm cr.1

theorem read_unlines {lines : List Bytes} (valid : ∀ line ∈ lines, IsLine line) (s : EventSource) :
    s.read [] (unlines lines) = lines.foldl EventSource.line s := by
  induction lines generalizing s with
  | nil => rfl
  | cons line lines ih => grind [unlines, read_line, IsLine.lf, IsLine.cr]

/-! ## Records as lines -/

def fieldLine (name value : Bytes) : Bytes := name ++ 0x3a :: 0x20 :: value

theorem sseAppendField_eq (name value : Bytes) :
    sseAppendField name value = unlines [fieldLine name value] := by
  have separator : ascii ": " = [0x3a, 0x20] := by decide
  simp [sseAppendField, unlines, fieldLine, separator]

theorem line_fieldLine (s : EventSource) (value : Bytes) (filled : name ≠ [])
    (colon : 0x3a ∉ name) : s.line (fieldLine name value) = s.field name value := by
  have cut : cutAt 0x3a (fieldLine name value) = some (name, 0x20 :: value) := cutAt_append colon _
  rw [EventSource.line, if_neg (by simp [fieldLine]), cut]
  cases name with
  | nil => exact absurd rfl filled
  | cons b name => rfl

/-- The lines of a text that `sse_append_data` splits. -/
def dataLines (line : Bytes) : Bytes → List Bytes
  | [] => [line]
  | 0x0d :: 0x0a :: rest => line :: dataLines [] rest
  | b :: rest =>
      if b = 0x0a ∨ b = 0x0d then line :: dataLines [] rest else dataLines (line ++ [b]) rest

theorem sseAppendDataFrom_eq (line data : Bytes) : sseAppendDataFrom line data =
      unlines ((dataLines line data).map (fieldLine (ascii "data"))) := by
  have start (text : Bytes) : ascii "data: " ++ text = fieldLine (ascii "data") text := by
    have split : ascii "data: " = ascii "data" ++ [0x3a, 0x20] := by decide
    rw [split, fieldLine]
    simp
  induction line, data using dataLines.induct with
  | case1 line => simp [sseAppendDataFrom, dataLines, unlines, start]
  | case2 line rest ih => simp [sseAppendDataFrom, dataLines, unlines, start, ih]
  | case3 line b rest notCrlf newline ih => grind [sseAppendDataFrom, dataLines, unlines]
  | case4 line b rest notCrlf inLine ih => grind [sseAppendDataFrom, dataLines]

theorem unlines_cons (line : Bytes) (lines : List Bytes) :
    unlines (line :: lines) = line ++ 0x0a :: unlines lines := by
  simp [unlines]

theorem unlines_dataLines (line data : Bytes) :
    unlines (dataLines line data) = line ++ normalizeNewlines data ++ [0x0a] := by
  induction line, data using dataLines.induct with
  | case1 line => simp [dataLines, unlines, normalizeNewlines]
  | case2 line rest ih =>
    rw [dataLines, unlines_cons, ih, normalizeNewlines]
    simp
  | case3 line b rest notCrlf newline ih => grind [dataLines, unlines_cons, normalizeNewlines]
  | case4 line b rest notCrlf inLine ih => grind [dataLines, normalizeNewlines]

theorem dataLines_noNewline (data : Bytes) (lf : 0x0a ∉ line) (cr : 0x0d ∉ line) :
    ∀ l ∈ dataLines line data, 0x0a ∉ l ∧ 0x0d ∉ l := by
  induction line, data using dataLines.induct with
  | case1 line =>
    intro l member
    rw [mem_singleton.mp member]
    exact ⟨lf, cr⟩
  | case2 line rest ih | case3 line b rest notCrlf newline ih => grind [dataLines]
  | case4 line b rest notCrlf inLine ih => grind [dataLines]

theorem foldl_data (lines : List Bytes) (s : EventSource) :
    (lines.map (fieldLine (ascii "data"))).foldl EventSource.line s =
      { s with data := s.data ++ unlines lines } := by
  have data (s : EventSource) (value : Bytes) : s.line (fieldLine (ascii "data") value) =
      { s with data := s.data ++ value ++ [0x0a] } := by
    rw [line_fieldLine s value (by decide) (by decide), EventSource.field, if_neg (by decide),
      if_pos rfl]
  induction lines generalizing s with
  | nil => simp [unlines]
  | cons line lines ih =>
    rw [map_cons, foldl_cons, data, ih, unlines_cons]
    simp

def SseEvent.lines (e : SseEvent) : List Bytes :=
  e.id.toList.map (fieldLine (ascii "id")) ++ e.event.toList.map (fieldLine (ascii "event")) ++
    e.retry.toList.map (fun ms => fieldLine (ascii "retry") (numeral 10 ms.toNat)) ++
    (e.data.toList.flatMap (dataLines [])).map (fieldLine (ascii "data")) ++ [[]]

theorem unlines_append (lines more : List Bytes) :
    unlines (lines ++ more) = unlines lines ++ unlines more :=
  flatMap_append

theorem SseEvent.payload_eq (e : SseEvent) : e.payload = unlines e.lines := by
  unfold payload lines
  rw [unlines_append, unlines_append, unlines_append, unlines_append]
  congr 1
  congr 1
  · congr 1
    · congr 1
      · cases e.id <;> simp [sseAppendField_eq, unlines]
      · cases e.event <;> simp [sseAppendField_eq, unlines]
    · cases e.retry <;> simp [sseAppendField_eq, unlines]
  · cases e.data <;> simp [sseAppendData, sseAppendDataFrom_eq, unlines]

def SseCall.lines : SseCall → List Bytes
  | .event e => if e = {} then [] else e.lines
  | .comment text => [0x3a :: sseCommentText text, []]
  | .retry milliseconds => [fieldLine (ascii "retry") (numeral 10 milliseconds.toNat), []]

theorem isLine_fieldLine {name value : Bytes}
    (plain : 0x0a ∉ name ∧ 0x0d ∉ name ∧ name.head? ≠ some 0xef ∧ name ≠ [])
    (valid : 0x0a ∉ value ∧ 0x0d ∉ value) : IsLine (fieldLine name value) := by
  obtain ⟨lf, cr, bom, filled⟩ := plain
  constructor
  · simp [fieldLine, lf, valid.1]
  · simp [fieldLine, cr, valid.2]
  · cases name with
    | nil => exact absurd rfl filled
    | cons b name => exact bom

theorem noNewline_of_accepted (accepted : sseHasNewline (some text) = false) :
    0x0a ∉ text ∧ 0x0d ∉ text := by
  grind [sseHasNewline]

theorem noNewline_numeral (n : Nat) : 0x0a ∉ numeral 10 n ∧ 0x0d ∉ numeral 10 n := by
  have digit {b : UInt8} (member : b ∈ numeral 10 n) : 0x30 ≤ b.toNat := by
    obtain ⟨d, small, rfl⟩ := mem_numeral (by decide) member
    rw [digitByte_toNat (by omega), if_pos small]
    omega
  grind

variable {out : HttpResponse × Option Bytes} {r : HttpResponse}

theorem payload_of_started {payload : Bytes}
    (accepted : ((sseEnsureStarted r).map fun r => (r, some payload)) = .ok out) :
    out.2 = some payload := by
  cases started : sseEnsureStarted r with
  | error thrown =>
    rw [started] at accepted
    cases accepted
  | ok r' =>
    rw [started] at accepted
    cases accepted
    rfl

/-- The checks of `sseEvent`. -/
structure Acceptable (e : SseEvent) : Prop where
  event : sseHasNewline e.event = false
  id : sseHasNewline e.id = false
  nul : e.id.any (·.contains 0) = false
  retry : e.retry.any (· < 0) = false

variable {e : SseEvent}

theorem sseEvent_ok (accepted : sseEvent e r = .ok out) :
    Acceptable e ∧ out.2.getD [] = unlines (SseCall.event e).lines := by
  unfold sseEvent at accepted
  split at accepted
  · cases accepted
  split at accepted
  · cases accepted
  rename_i event
  split at accepted
  · cases accepted
  rename_i id
  split at accepted
  · cases accepted
  rename_i nul
  split at accepted
  · cases accepted
  rename_i retry
  refine ⟨⟨Bool.eq_false_iff.mpr event, Bool.eq_false_iff.mpr id, Bool.eq_false_iff.mpr nul,
    Bool.eq_false_iff.mpr retry⟩, ?_⟩
  split at accepted
  · rename_i unset
    have empty : e = {} := by
      obtain ⟨data, event, id, retry⟩ := e
      obtain ⟨rfl, rfl, rfl, rfl⟩ := unset
      rfl
    cases accepted
    rw [SseCall.lines, if_pos empty]
    rfl
  · have filled : e ≠ {} := by grind
    rw [payload_of_started accepted, SseCall.lines, if_neg filled]
    exact e.payload_eq

theorem SseEvent.isLine (acceptable : Acceptable e) : ∀ line ∈ e.lines, IsLine line := by
  intro line member
  simp only [lines, List.mem_append, List.mem_map, mem_toList,
    List.mem_singleton, List.mem_flatMap] at member
  rcases member with (((⟨id, given, rfl⟩ | ⟨event, given, rfl⟩) | ⟨ms, given, rfl⟩) |
    ⟨value, ⟨data, given, among⟩, rfl⟩) | rfl
  · exact isLine_fieldLine (by decide) (noNewline_of_accepted (given ▸ acceptable.id))
  · exact isLine_fieldLine (by decide) (noNewline_of_accepted (given ▸ acceptable.event))
  · exact isLine_fieldLine (by decide) (noNewline_numeral ms.toNat)
  · have valid := dataLines_noNewline data List.not_mem_nil List.not_mem_nil value among
    exact isLine_fieldLine (by decide) valid
  · exact ⟨by decide, by decide, by decide⟩

/-- Nothing is pending. -/
structure Quiet (s : EventSource) : Prop where
  data : s.data = []
  eventType : s.eventType = []

theorem foldl_id {id : Option Bytes} (nul : id.any (·.contains 0) = false) (s : EventSource) :
    (id.toList.map (fieldLine (ascii "id"))).foldl EventSource.line s =
      { s with lastEventId := id.getD s.lastEventId } := by
  cases id with
  | none => rfl
  | some value =>
    rw [toList_some, map_singleton, foldl_cons, foldl_nil,
      line_fieldLine s value (by decide) (by decide), EventSource.field, if_neg (by decide),
      if_neg (by decide), if_pos rfl, if_neg (by simpa using nul)]
    rfl

theorem foldl_event (event : Option Bytes) (s : EventSource) :
    (event.toList.map (fieldLine (ascii "event"))).foldl EventSource.line s =
      { s with eventType := event.getD s.eventType } := by
  cases event with
  | none => rfl
  | some value =>
    simp
    rfl

theorem line_retry (ms : Nat) (s : EventSource) :
    s.line (fieldLine (ascii "retry") (numeral 10 ms)) = { s with retry := some ms } := by
  rw [line_fieldLine s _ (by decide) (by decide), EventSource.field, if_neg (by decide),
    if_neg (by decide), if_neg (by decide), if_pos rfl,
    readNumeral_numeral (by decide) (by decide)]

theorem foldl_retry (retry : Option Int) (s : EventSource) :
    (retry.toList.map fun ms => fieldLine (ascii "retry") (numeral 10 ms.toNat)).foldl
        EventSource.line s = { s with retry := (retry.map Int.toNat).or s.retry } := by
  cases retry with
  | none => rfl
  | some ms => exact line_retry ms.toNat s

variable {s : EventSource}

theorem SseEvent.foldl_lines (acceptable : Acceptable e)
    (quiet : Quiet s) : e.lines.foldl EventSource.line s = s.hear (.event e) := by
  rw [lines, foldl_append, foldl_append, foldl_append, foldl_append,
    foldl_id acceptable.nul, foldl_event, foldl_retry, foldl_data, foldl_cons,
    foldl_nil, EventSource.line, if_pos rfl]
  unfold EventSource.dispatch EventSource.hear
  dsimp only
  rw [quiet.data, quiet.eventType, nil_append]
  cases e.data with
  | none =>
    have none : unlines (toList none |>.flatMap (dataLines [])) = [] := rfl
    rw [none, if_pos rfl]
    simp
  | some data =>
    have joined : unlines (toList (some data) |>.flatMap (dataLines [])) =
        normalizeNewlines data ++ [0x0a] := by
      rw [toList_some, flatMap_singleton, unlines_dataLines, nil_append]
    rw [joined, if_neg (by simp), dropLast_concat]
    simp

theorem Quiet.hear (quiet : Quiet s) (call : SseCall) : Quiet (s.hear call) := by
  cases call <;> exact { quiet with }

theorem line_empty (quiet : Quiet s) : s.line [] = s := by
  obtain ⟨data, eventType, lastEventId, retry, events⟩ := s
  obtain ⟨rfl, rfl⟩ := quiet
  rfl

theorem hear_empty (s : EventSource) : s.hear (.event {}) = s := by
  simp [EventSource.hear]

theorem SseCall.accepted {call : SseCall} (accepted : call.prepare r = .ok out) :
    out.2.getD [] = unlines call.lines ∧ (∀ line ∈ call.lines, IsLine line) ∧
      ∀ s, Quiet s → call.lines.foldl EventSource.line s = s.hear call := by
  cases call with
  | event e =>
    obtain ⟨acceptable, payload⟩ := sseEvent_ok accepted
    grind [SseCall.lines, isLine, hear_empty, foldl_lines]
  | comment text =>
    simp only [SseCall.prepare, sseComment] at accepted
    split at accepted
    · cases accepted
    split at accepted
    · cases accepted
    rename_i newline
    have valid := Bool.eq_false_iff.mpr newline
    have comment (t : Bytes) (s : EventSource) : s.line (0x3a :: t) = s := by
      simp [EventSource.line, cutAt]
    rw [payload_of_started accepted]
    unfold SseCall.lines
    refine ⟨by simp [sseCommentPayload, unlines], ?_, fun s quiet => ?_⟩
    · intro line member
      rcases mem_cons.mp member with rfl | member
      · cases text with
        | none => exact ⟨by decide, by decide, by decide⟩
        | some text =>
          obtain ⟨lf, cr⟩ := noNewline_of_accepted valid
          cases text with
          | nil => exact ⟨by decide, by decide, by decide⟩
          | cons b rest =>
            exact ⟨by simpa [sseCommentText] using lf, by simpa [sseCommentText] using cr, by simp⟩
      · rw [mem_singleton.mp member]
        exact ⟨by decide, by decide, by decide⟩
    · rw [foldl_cons, foldl_cons, foldl_nil, comment, line_empty quiet]
      rfl
  | retry milliseconds =>
    simp only [SseCall.prepare, sseRetry] at accepted
    split at accepted
    · cases accepted
    split at accepted
    · cases accepted
    rw [payload_of_started accepted, getD_some, sseRetryPayload, sseAppendField_eq]
    unfold SseCall.lines
    refine ⟨by simp [unlines], ?_, fun s quiet => ?_⟩
    · intro line member
      rcases mem_cons.mp member with rfl | member
      · exact isLine_fieldLine (by decide) (noNewline_numeral milliseconds.toNat)
      · rw [mem_singleton.mp member]
        exact ⟨by decide, by decide, by decide⟩
    · rw [foldl_cons, foldl_cons, foldl_nil, line_retry, line_empty]
      · rfl
      · exact { quiet with }

/-! ## Runs -/

/-- The stream of a run consists of lines, and they are heard as the accepted calls. -/
structure Heard (run : SseRun) (lines : List Bytes) : Prop where
  stream : run.stream = unlines lines
  valid : ∀ line ∈ lines, IsLine line
  quiet : Quiet (heard run.accepted)
  same : lines.foldl EventSource.line {} = heard run.accepted

theorem Heard.step {run : SseRun} {lines : List Bytes} (before : Heard run lines)
    (call : SseCall) : ∃ lines, Heard (run.step call) lines := by
  unfold SseRun.step
  split
  · exact ⟨lines, before⟩
  · rename_i response payload ready
    obtain ⟨written, valid, same⟩ := SseCall.accepted ready
    have further : heard (run.accepted ++ [call]) = (heard run.accepted).hear call := by
      rw [heard, foldl_append]
      rfl
    refine ⟨lines ++ call.lines, ?_, ?_, ?_, ?_⟩
    · rw [unlines_append, ← before.stream, ← written]
    · exact forall_mem_append.mpr ⟨before.valid, valid⟩
    · rw [further]
      exact before.quiet.hear call
    · grind [Heard.same, Heard.quiet]

theorem dropBom_unlines {lines : List Bytes} (valid : ∀ line ∈ lines, IsLine line) :
    dropBom (unlines lines) = unlines lines := by
  have start : (unlines lines).head? ≠ some 0xef := by
    cases lines with
    | nil => nofun
    | cons line lines =>
      cases line with
      | nil => exact nofun
      | cons b line => exact (valid (b :: line) mem_cons_self).bom
  unfold dropBom
  grind

/-- A recipient hears the accepted calls of every sequence of calls, and nothing else: one event
for each that has data, in order. -/
theorem sse_round_trip (r : HttpResponse) (calls : List SseCall) :
    parseEventStream (runSse r calls).stream = heard (runSse r calls).accepted := by
  have runs : ∃ lines, Heard (runSse r calls) lines := by
    unfold runSse
    induction calls using reverseRecOn with
    | nil => exact ⟨[], rfl, nofun, ⟨rfl, rfl⟩, rfl⟩
    | append_singleton calls call ih =>
      rw [foldl_append]
      obtain ⟨lines, before⟩ := ih
      exact before.step call
  obtain ⟨lines, whole⟩ := runs
  rw [whole.stream, parseEventStream, dropBom_unlines whole.valid, read_unlines whole.valid,
    whole.same]

end TrueAsync.Response

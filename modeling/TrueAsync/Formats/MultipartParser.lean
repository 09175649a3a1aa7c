import TrueAsync.Lib.Ascii
import TrueAsync.Lib.Coalesce

/-!
# The multipart parser

`src/formats/multipart_parser.c`: the streaming parser of `multipart/form-data` bodies. It is fed
buffer by buffer. Between two calls it keeps its state, how much of the boundary has matched, and
in `lookbehind` the bytes that may turn out to be a boundary; data goes to the callbacks as slices
of the buffer, from `mark` to where the parser stands.
-/

namespace TrueAsync.Formats

open TrueAsync.Lib

/-- `multipart_state_t`. -/
inductive MultipartState
  | start
  | boundaryStart
  | boundary
  | boundaryAlmostDone
  | boundaryDone
  | headerFieldStart
  | headerField
  | headerValueStart
  | headerValue
  | headerValueAlmostDone
  | headersAlmostDone
  | headersDone
  | partData
  | partDataCr
  | partDataLf
  | partDataBoundaryStart
  | partDataBoundaryDash
  | partDataBoundary
  | partDataEnd
  | bodyEnd
  | ended
  | error
  deriving DecidableEq, Repr

/-- The callbacks without data. -/
inductive Signal
  | partBegin
  | headersComplete
  | partEnd
  | bodyEnd
  deriving DecidableEq, Repr

/-- The callbacks with data. -/
inductive DataKind
  | headerField
  | headerValue
  | partData
  deriving DecidableEq, Repr

abbrev Event := Piece Signal DataKind UInt8

/-- The name of a callback in `multipart_callbacks_t`. -/
def callbackName : Event → String
  | .mark .partBegin => "on_part_begin"
  | .mark .headersComplete => "on_headers_complete"
  | .mark .partEnd => "on_part_end"
  | .mark .bodyEnd => "on_body_end"
  | .data .headerField _ => "on_header_field"
  | .data .headerValue _ => "on_header_value"
  | .data .partData _ => "on_part_data"

/-- `multipart_callbacks_t` over the user's data: each call returns a status, 0 for success. -/
abbrev Callbacks (σ : Type) := Event → σ → Int × σ

/-- `multipart_parser_t`; `lookbehind` is the used part of the array. -/
structure MultipartParser where
  boundary : Bytes
  state : MultipartState := .start
  boundaryIndex : Nat := 0
  lookbehind : Bytes := []
  partStarted : Bool := false
  errorReason : Option String := none
  deriving DecidableEq, Repr

/-- `MULTIPART_MAX_BOUNDARY_LEN`. -/
def multipartMaxBoundaryLen : Nat := 70

/-- `multipart_parser_init`, from a C string. -/
def multipartParserInit (boundary : Bytes) : Option MultipartParser :=
  let boundary := cString boundary
  if boundary.length = 0 ∨ boundary.length > multipartMaxBoundaryLen then none
  else some { boundary }

/-- `MP_STATE_BOUNDARY`: a byte of the first boundary, or not. -/
def MultipartParser.matchBoundary (parser : MultipartParser) (c : UInt8) : MultipartParser :=
  let parser :=
    if parser.boundaryIndex < parser.boundary.length then
      if parser.boundary[parser.boundaryIndex]? = some c then
        { parser with boundaryIndex := parser.boundaryIndex + 1 }
      else { parser with state := .start }
    else parser
  if parser.boundaryIndex = parser.boundary.length then
    { parser with state := .boundaryAlmostDone }
  else parser

/-- `MP_STATE_PART_DATA_BOUNDARY`: the byte is not the next one of the boundary. -/
def MultipartParser.differs (parser : MultipartParser) (c : UInt8) : Bool :=
  parser.boundaryIndex < parser.boundary.length &&
    parser.boundary[parser.boundaryIndex]? != some c

/-- `MP_STATE_PART_DATA_BOUNDARY`, when the byte belongs to the boundary. -/
def MultipartParser.matchHeld (parser : MultipartParser) (c : UInt8) : MultipartParser :=
  let parser :=
    if parser.boundaryIndex < parser.boundary.length then
      { parser with
        lookbehind := parser.lookbehind ++ [c]
        boundaryIndex := parser.boundaryIndex + 1 }
    else parser
  if parser.boundaryIndex = parser.boundary.length then
    { parser with lookbehind := [], state := .partDataEnd }
  else parser

/-- `mark`: NULL; some bytes before the current one, which are those from `mark` up to it; or one
past the current byte. -/
inductive Mark
  | null
  | since (text : Bytes)
  | next
  deriving DecidableEq, Repr

/-- The bytes from `mark` up to the current one. -/
def Mark.text : Mark → Bytes
  | .since text => text
  | _ => []

/-- `p++`, past the byte `c`. -/
def Mark.advance (c : UInt8) : Mark → Mark
  | .null => .null
  | .since text => .since (text ++ [c])
  | .next => .since []

/-- What `multipart_parser_execute` works on: the parser, its local `mark`, and the user's data
behind the callbacks. -/
structure Run (σ : Type) where
  parser : MultipartParser
  mark : Mark
  data : σ

/-- Where a piece of the loop leaves it: with the next byte, or with `return -1`. -/
inductive Step (σ : Type)
  | consumed (run : Run σ)
  | failed (run : Run σ)

variable {σ : Type}

/-- `parser->state = state`. -/
def Run.goto (run : Run σ) (state : MultipartState) : Run σ :=
  { run with parser := { run.parser with state } }

/-- `parser->state = MP_STATE_ERROR` with its reason. -/
def Run.fail (run : Run σ) (reason : String) : Step σ :=
  .failed { run with parser := { run.parser with state := .error, errorReason := some reason } }

/-- `MP_CALLBACK`. -/
def callback (callbacks : Callbacks σ) (event : Event) (run : Run σ) (next : Run σ → Step σ) :
    Step σ :=
  let (status, data) := callbacks event run.data
  let run := { run with data }
  if status ≠ 0 then run.fail ("callback " ++ callbackName event ++ " returned error")
  else next run

/-- `CALLBACK_DATA`. -/
def callbackData (callbacks : Callbacks σ) (kind : DataKind) (text : Bytes) (run : Run σ)
    (next : Run σ → Step σ) : Step σ :=
  if text.length > 0 then callback callbacks (.data kind text) run next else next run

/-- `flush_lookbehind`. -/
def flushLookbehind (callbacks : Callbacks σ) (run : Run σ) (next : Run σ → Step σ) : Step σ :=
  if run.parser.lookbehind.length > 0 then
    callbackData callbacks .partData run.parser.lookbehind run fun run =>
      next { run with parser := { run.parser with lookbehind := [] } }
  else next run

/-! ## The states -/

/-- `on_part_begin`, and on to the headers. -/
def beginPart (callbacks : Callbacks σ) (run : Run σ) : Step σ :=
  callback callbacks (.mark .partBegin) run fun run =>
    .consumed { run with
      parser := { run.parser with partStarted := true, state := .headerFieldStart } }

/-- `on_part_end`. -/
def endPart (callbacks : Callbacks σ) (run : Run σ) (next : Run σ → Step σ) : Step σ :=
  callback callbacks (.mark .partEnd) run fun run =>
    next { run with parser := { run.parser with partStarted := false } }

/-- `on_headers_complete`, and on to the body. -/
def completeHeaders (callbacks : Callbacks σ) (run : Run σ) : Step σ :=
  callback callbacks (.mark .headersComplete) run fun run =>
    .consumed { run.goto .partData with mark := .next }

/-- `MP_STATE_HEADER_VALUE`. -/
def inHeaderValue (callbacks : Callbacks σ) (c : UInt8) (run : Run σ) : Step σ :=
  if c = 0x0d then
    callbackData callbacks .headerValue run.mark.text run fun run =>
      .consumed { run.goto .headerValueAlmostDone with mark := .null }
  else if c = 0x0a then
    callbackData callbacks .headerValue run.mark.text run fun run =>
      .consumed { run.goto .headerFieldStart with mark := .null }
  else .consumed run

/-- `MP_STATE_PART_DATA`, with the test of `mark`. -/
def inPartData (callbacks : Callbacks σ) (c : UInt8) (run : Run σ) : Step σ :=
  let run := if run.mark = .null then { run with mark := .since [] } else run
  if c = 0x0d then
    callbackData callbacks .partData run.mark.text run fun run =>
      .consumed { run with
        parser := { run.parser with lookbehind := [0x0d], state := .partDataCr }
        mark := .null }
  else if c = 0x0a then
    callbackData callbacks .partData run.mark.text run fun run =>
      .consumed { run with
        parser := { run.parser with lookbehind := [0x0a], state := .partDataLf }
        mark := .null }
  else .consumed run

/-- What is in `lookbehind` is data after all; `continue` reads the byte again, in
`MP_STATE_PART_DATA`. -/
def backToData (callbacks : Callbacks σ) (c : UInt8) (run : Run σ) : Step σ :=
  flushLookbehind callbacks run fun run => inPartData callbacks c (run.goto .partData)

/-- The byte goes to `lookbehind`. -/
def Run.hold (run : Run σ) (c : UInt8) (state : MultipartState) : Run σ :=
  { run with parser := { run.parser with lookbehind := run.parser.lookbehind ++ [c], state } }

/-- The switch of `multipart_parser_execute`. -/
def switchState (callbacks : Callbacks σ) (c : UInt8) (run : Run σ) : Step σ :=
  match run.parser.state with
  | .start => .consumed (if c = 0x2d then run.goto .boundaryStart else run)
  | .boundaryStart =>
      if c = 0x2d then
        .consumed { run with parser := { run.parser with boundaryIndex := 0, state := .boundary } }
      else .consumed (run.goto .start)
  | .boundary => .consumed { run with parser := run.parser.matchBoundary c }
  | .boundaryAlmostDone =>
      if c = 0x0d then .consumed (run.goto .boundaryDone)
      else if c = 0x2d then .consumed (run.goto .bodyEnd)
      else if c = 0x0a then beginPart callbacks run
      else run.fail "expected CR or LF after boundary"
  | .boundaryDone => if c = 0x0a then beginPart callbacks run else run.fail "expected LF after CR"
  | .headerFieldStart =>
      let run := { run with mark := .since [] }
      if c = 0x0d then .consumed (run.goto .headersAlmostDone)
      else if c = 0x0a then completeHeaders callbacks run
      else .consumed (run.goto .headerField)
  | .headerField =>
      if c = 0x3a then
        callbackData callbacks .headerField run.mark.text run fun run =>
          .consumed { run.goto .headerValueStart with mark := .null }
      else if c = 0x0d ∨ c = 0x0a then run.fail "unexpected end of line in header name"
      else .consumed run
  | .headerValueStart =>
      if isOws c then .consumed run
      else inHeaderValue callbacks c { run.goto .headerValue with mark := .since [] }
  | .headerValue => inHeaderValue callbacks c run
  | .headerValueAlmostDone =>
      if c = 0x0a then .consumed (run.goto .headerFieldStart)
      else run.fail "expected LF after CR in header"
  | .headersAlmostDone =>
      if c = 0x0a then completeHeaders callbacks run else run.fail "expected LF after CR"
  | .partData => inPartData callbacks c run
  | .partDataCr =>
      if c = 0x0a then .consumed (run.hold c .partDataLf) else backToData callbacks c run
  | .partDataLf =>
      if c = 0x2d then .consumed (run.hold c .partDataBoundaryStart)
      else backToData callbacks c run
  | .partDataBoundaryStart =>
      if c = 0x2d then
        let run := run.hold c .partDataBoundary
        .consumed { run with parser := { run.parser with boundaryIndex := 0 } }
      else backToData callbacks c run
  | .partDataBoundary =>
      if run.parser.differs c then backToData callbacks c run
      else .consumed { run with parser := run.parser.matchHeld c }
  | .partDataEnd =>
      if c = 0x2d then .consumed (run.goto .bodyEnd)
      else if c = 0x0d then
        endPart callbacks run fun run => .consumed (run.goto .boundaryDone)
      else if c = 0x0a then endPart callbacks run fun run => beginPart callbacks run
      else run.fail "expected CRLF or '--' after boundary"
  | .bodyEnd =>
      let complete := fun run =>
        callback callbacks (.mark .bodyEnd) run fun run => .consumed (run.goto .ended)
      if c = 0x2d then
        if run.parser.partStarted then endPart callbacks run complete else complete run
      else run.fail "expected '--' at end of body"
  | .ended => .consumed run
  | .error => .failed run
  | .headersDone | .partDataBoundaryDash => run.fail "unknown state"

/-! ## The loop -/

/-- The top of the loop: `mark` is set in the states that accumulate data. -/
def Run.setMark (run : Run σ) : Run σ :=
  match run.parser.state with
  | .headerField | .headerValue | .partData =>
      if run.mark = .null then { run with mark := .since [] } else run
  | _ => run

def scanBytes (callbacks : Callbacks σ) : Bytes → Run σ → Step σ
  | [], run => .consumed run
  | c :: rest, run =>
      match switchState callbacks c run.setMark with
      | .failed run => .failed run
      | .consumed run => scanBytes callbacks rest { run with mark := run.mark.advance c }

/-- The end of the loop: what is left of the buffer's data goes out. -/
def flushMark (callbacks : Callbacks σ) (run : Run σ) : Step σ :=
  match run.parser.state with
  | .headerField => callbackData callbacks .headerField run.mark.text run .consumed
  | .headerValue => callbackData callbacks .headerValue run.mark.text run .consumed
  | .partData => callbackData callbacks .partData run.mark.text run .consumed
  | _ => .consumed run

def scanBuffer (callbacks : Callbacks σ) (text : Bytes) (run : Run σ) : Step σ :=
  match scanBytes callbacks text run with
  | .failed run => .failed run
  | .consumed run => flushMark callbacks run

/-- `multipart_parser_execute`: the bytes parsed, or -1. -/
def multipartParserExecute (callbacks : Callbacks σ) (text : Bytes) (parser : MultipartParser)
    (data : σ) : Int × MultipartParser × σ :=
  if parser.state = .error then (-1, parser, data)
  else if parser.state = .ended then (0, parser, data)
  else
    match scanBuffer callbacks text { parser, mark := .null, data } with
    | .failed run => (-1, run.parser, run.data)
    | .consumed run => (text.length, run.parser, run.data)

def executeAll (callbacks : Callbacks σ) : List Bytes → MultipartParser → σ → MultipartParser × σ
  | [], parser, data => (parser, data)
  | text :: rest, parser, data =>
      let (_, parser, data) := multipartParserExecute callbacks text parser data
      executeAll callbacks rest parser data

/-- `multipart_parser_is_complete`. -/
def multipartParserIsComplete (parser : MultipartParser) : Bool := parser.state = .ended

/-- `multipart_parser_has_error`. -/
def multipartParserHasError (parser : MultipartParser) : Bool := parser.state = .error

/-- `multipart_parser_get_error`. -/
def multipartParserGetError (parser : MultipartParser) : Option String :=
  if parser.state = .error then parser.errorReason else none

def record : Callbacks (List Event) := fun event log => (0, log ++ [event])

end TrueAsync.Formats

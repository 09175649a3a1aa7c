import TrueAsync.Http1.Parser

/-!
# Messages on a reused parser

llhttp delivers a request as a sequence of callbacks: the message begins, URL and header
fragments follow in any number, the headers are complete, then come body fragments and the
fields of a chunked body's trailer, and the message is complete. `Message` is such a sequence;
`runMessage` runs it and stops at the first callback that fails. `runHistory` runs complete
messages one after another on one parser.
-/

namespace TrueAsync.Http1

open TrueAsync.Lib

variable {Proc Form : Type}

/-- A callback before the headers are complete. -/
inductive HeadCallback
  | url (text : Bytes)
  | headerField (text : Bytes)
  | headerValue (text : Bytes)
  deriving DecidableEq, Repr

/-- A callback after the headers are complete; the header callbacks deliver trailer fields. -/
inductive TailCallback
  | body (text : Bytes) (oom : Bool)
  | headerField (text : Bytes)
  | headerValue (text : Bytes)
  deriving DecidableEq, Repr

/-- The callbacks of one request. -/
structure Message where
  head : List HeadCallback
  line : RequestLine
  env : Admission := {}
  tail : List TailCallback := []
  deriving DecidableEq, Repr

def onParser (callback : Http1Parser → Reply × Http1Parser) (s : Parse Proc Form) :
    Reply × Parse Proc Form :=
  ((callback s.parser).1, { s with parser := (callback s.parser).2 })

def HeadCallback.run : HeadCallback → Parse Proc Form → Reply × Parse Proc Form
  | .url text => onParser (onUrl text)
  | .headerField text => onHeaderField text
  | .headerValue text => onParser (onHeaderValue text)

def TailCallback.run (ops : MultipartOps Proc Form) :
    TailCallback → Parse Proc Form → Reply × Parse Proc Form
  | .body text oom => onBody ops text oom
  | .headerField text => onHeaderField text
  | .headerValue text => onParser (onHeaderValue text)

def proceed (outcome : Reply × Parse Proc Form) : Except (Parse Proc Form) (Parse Proc Form) :=
  if outcome.1.result = .failed then .error outcome.2 else .ok outcome.2

/-- One request on a parser, up to its completion (`ok`) or its first failing callback. -/
def runMessage (ops : MultipartOps Proc Form) (m : Message) (p : Http1Parser) :
    Except (Parse Proc Form) (Parse Proc Form) := do
  let s ← m.head.foldlM (fun s c => proceed (c.run s)) (onMessageBegin p)
  let s ← proceed (onHeadersComplete ops m.line m.env s)
  let s ← m.tail.foldlM (fun s c => proceed (c.run ops s)) s
  proceed (onMessageComplete ops s)

/-- Complete requests one after another, each handed over before the next. -/
def runHistory (ops : MultipartOps Proc Form) (history : List Message) (p : Http1Parser) :
    Except (Parse Proc Form) Http1Parser :=
  history.foldlM (fun p m => (runMessage ops m p).map (·.parser)) p

def contents (builder : Option Bytes) : Bytes := builder.getD []

/-- What a run has recorded of its request: the request itself, with a missing URI or body
read as an empty one, and the parser's framing decisions. -/
structure Recorded (Proc Form : Type) where
  request : HttpRequest Proc Form
  parseError : ParseError
  clValueFirst : Nat
  clSeenCount : Nat
  headerCount : Nat
  hostSeenCount : Nat
  ctSeenCount : Nat
  teChunkedSeen : Bool

def record (s : Parse Proc Form) : Recorded Proc Form where
  request := { s.req with uri := some (contents s.req.uri), body := some (contents s.req.body) }
  parseError := s.parser.parseError
  clValueFirst := s.parser.clValueFirst
  clSeenCount := s.parser.clSeenCount
  headerCount := s.parser.headerCount
  hostSeenCount := s.parser.hostSeenCount
  ctSeenCount := s.parser.ctSeenCount
  teChunkedSeen := s.parser.teChunkedSeen

/-- What a message records on a parser: whether it completed, and the request at its end. -/
def recorded (ops : MultipartOps Proc Form) (m : Message) (p : Http1Parser) :
    Bool × Recorded Proc Form :=
  match runMessage ops m p with
  | .ok s => (true, record s)
  | .error s => (false, record s)

end TrueAsync.Http1

import TrueAsync.Lib.Ascii
import TrueAsync.Lib.Table

/-!
# The response object

`src/http_response.c` with the setters of `src/http_response_server_api.c`: status, reason
phrase, header table and buffered body. A method of the PHP class throws or changes the object.
Header names and values, reason phrases and redirect targets are stored as they come.
-/

namespace TrueAsync.Response

open TrueAsync.Lib

/-- The exception classes that the methods throw. -/
inductive ExceptionClass
  /-- `http_server_runtime_exception_ce`. -/
  | runtime
  /-- `http_server_invalid_argument_exception_ce`. -/
  | invalidArgument
  /-- `http_exception_ce`, with a status as its code. -/
  | http (code : Nat)
  deriving DecidableEq, Repr

/-- A thrown exception. -/
structure Thrown where
  cls : ExceptionClass
  message : String
  deriving DecidableEq, Repr

abbrev StatusCode := { code : Nat // 100 ≤ code ∧ code ≤ 599 }

/-- `conn->http_version`: two digits with a dot between. -/
structure HttpVersion where
  major : Fin 10
  minor : Fin 10
  deriving DecidableEq, Repr

/-- A value of the header table: `IS_STRING` or `IS_ARRAY`. -/
inductive HeaderValue
  | one (value : Bytes)
  | many (values : List Bytes)
  deriving DecidableEq, Repr

def HeaderValue.values : HeaderValue → List Bytes
  | .one value => [value]
  | .many values => values

abbrev Headers := Table Bytes HeaderValue

/-- `http_response_object`. -/
structure HttpResponse where
  reasonPhrase : Option Bytes := none
  headers : Headers := []
  protocolVersion : Option HttpVersion := none
  body : Bytes := []
  /-- A borrowed body, which goes before `body`. -/
  bodyView : Option Bytes := none
  statusCode : StatusCode := ⟨200, by decide⟩
  headersSent : Bool := false
  closed : Bool := false
  committed : Bool := false
  streaming : Bool := false
  sseMode : Bool := false
  isHead : Bool := false
  /-- `send_file_req != NULL`. -/
  sendFileReq : Bool := false
  deriving DecidableEq, Repr

/-- The response that `http_connection_dispatch_request` makes for a request. -/
def HttpResponse.start (version : HttpVersion) (isHead : Bool) : HttpResponse :=
  { protocolVersion := some version, isHead }

/-! ## The header table -/

/-- `normalize_header_name`. -/
def normalizeHeaderName (name : Bytes) : Bytes := lower name

/-- What `add_header_value` stores for an argument: an array of one element as that element. -/
def HeaderValue.stored : HeaderValue → HeaderValue
  | .many [value] => .one value
  | value => value

/-- `add_header_value`. -/
def addHeaderValue (headers : Headers) (name : Bytes) (value : HeaderValue) (replace : Bool) :
    Headers :=
  let lowerName := normalizeHeaderName name
  match replace, headers.find? lowerName with
  | false, some existing => headers.update lowerName (.many (existing.values ++ value.values))
  | _, _ => headers.update lowerName value.stored

/-! ## Methods -/

/-- `response_check_closed`. -/
def responseCheckClosed (r : HttpResponse) : Option Thrown :=
  if r.closed then some ⟨.runtime, "Cannot modify response after end() has been called"⟩
  else if r.streaming then
    some ⟨.runtime, "Cannot modify response — headers already committed by send()"⟩
  else if r.sendFileReq then
    some ⟨.runtime, "Response is sealed by sendFile() — no further mutation allowed"⟩
  else none

/-- The gate before every change of status, headers and body. -/
def HttpResponse.mutate (r : HttpResponse) (change : HttpResponse → Except Thrown HttpResponse) :
    Except Thrown HttpResponse :=
  match responseCheckClosed r with
  | some thrown => .error thrown
  | none => change r

def setStatusCode (code : Int) (r : HttpResponse) : Except Thrown HttpResponse :=
  r.mutate fun r =>
    if valid : 100 ≤ code ∧ code ≤ 599 then
      .ok { r with statusCode := ⟨code.toNat, by omega⟩ }
    else .error ⟨.invalidArgument, "HTTP status code must be between 100 and 599"⟩

def setReasonPhrase (phrase : Bytes) (r : HttpResponse) : Except Thrown HttpResponse :=
  r.mutate fun r => .ok { r with reasonPhrase := some phrase }

def setHeader (name : Bytes) (value : HeaderValue) (r : HttpResponse) :
    Except Thrown HttpResponse :=
  r.mutate fun r => .ok { r with headers := addHeaderValue r.headers name value true }

def addHeader (name : Bytes) (value : HeaderValue) (r : HttpResponse) :
    Except Thrown HttpResponse :=
  r.mutate fun r => .ok { r with headers := addHeaderValue r.headers name value false }

def resetHeaders (r : HttpResponse) : Except Thrown HttpResponse :=
  r.mutate fun r => .ok { r with headers := [] }

def redirect (url : Bytes) (status : Int) (r : HttpResponse) : Except Thrown HttpResponse :=
  r.mutate fun r =>
    if valid : 300 ≤ status ∧ status ≤ 399 then
      .ok { r with
        statusCode := ⟨status.toNat, by omega⟩
        headers := addHeaderValue r.headers (ascii "location") (.one url) true }
    else .error ⟨.invalidArgument, "Redirect status must be between 300 and 399"⟩

def write (data : Bytes) (r : HttpResponse) : Except Thrown HttpResponse :=
  r.mutate fun r => .ok { r with bodyView := none, body := r.body ++ data }

def setBody (body : Bytes) (r : HttpResponse) : Except Thrown HttpResponse :=
  r.mutate fun r => .ok { r with bodyView := none, body }

def html (text : Bytes) (r : HttpResponse) : Except Thrown HttpResponse :=
  r.mutate fun r => .ok { r with
    headers := addHeaderValue r.headers (ascii "content-type")
      (.one (ascii "text/html; charset=utf-8")) true
    bodyView := none
    body := text }

/-- A call of a method that changes the head or the buffered body. -/
inductive ResponseCall
  | setStatusCode (code : Int)
  | setReasonPhrase (phrase : Bytes)
  | setHeader (name : Bytes) (value : HeaderValue)
  | addHeader (name : Bytes) (value : HeaderValue)
  | resetHeaders
  | redirect (url : Bytes) (status : Int)
  | write (data : Bytes)
  | setBody (body : Bytes)
  | html (text : Bytes)
  deriving DecidableEq, Repr

def ResponseCall.run : ResponseCall → HttpResponse → Except Thrown HttpResponse
  | .setStatusCode code => Response.setStatusCode code
  | .setReasonPhrase phrase => Response.setReasonPhrase phrase
  | .setHeader name value => Response.setHeader name value
  | .addHeader name value => Response.addHeader name value
  | .resetHeaders => Response.resetHeaders
  | .redirect url status => Response.redirect url status
  | .write data => Response.write data
  | .setBody body => Response.setBody body
  | .html text => Response.html text

/-- The response after a call; a call that throws leaves it as it was. -/
def ResponseCall.after (r : HttpResponse) (call : ResponseCall) : HttpResponse :=
  match call.run r with
  | .ok r' => r'
  | .error _ => r

def runCalls (calls : List ResponseCall) (r : HttpResponse) : HttpResponse :=
  calls.foldl ResponseCall.after r

/-! ## The server's setters -/

/-- `http_response_reset_to_error`: the message becomes the body and the reason phrase. -/
def resetToError (status : StatusCode) (message : Bytes) (r : HttpResponse) : HttpResponse :=
  { r with
    statusCode := status
    bodyView := none
    body := cString message
    headers := []
    reasonPhrase := some (cString message)
    committed := true }

/-- `http_response_force_connection_close`. -/
def forceConnectionClose (r : HttpResponse) : HttpResponse :=
  { r with headers := r.headers.update (ascii "connection") (.many [ascii "close"]) }

/-- `http_response_set_alt_svc_if_unset`, called with the server's value if it has one. -/
def setAltSvcIfUnset (altSvc : Option Bytes) (r : HttpResponse) : HttpResponse :=
  match altSvc with
  | none => r
  | some value =>
      if value = [] || r.headers.has (ascii "alt-svc") then r
      else { r with headers := r.headers.update (ascii "alt-svc") (.many [value]) }

def HttpResponse.bodyBytes (r : HttpResponse) : Bytes := r.bodyView.getD r.body

end TrueAsync.Response

import TrueAsync.Http1.Format

/-!
# The end of a handler

The first half of `http_handler_coroutine_dispose` in `src/core/http_connection.c`: the response
is settled. An exception that the handler has not caught becomes the response, with its code as
the status and its message as the reason phrase.
-/

namespace TrueAsync.Http1

open TrueAsync.Lib TrueAsync.Response

/-- How a handler ends. -/
inductive HandlerEnd
  | returned
  /-- An exception with its `code` and, where it is a string, its `message`. -/
  | threw (code : Int) (message : Option Bytes)
  /-- `zend_bailout`. -/
  | bailout
  deriving DecidableEq, Repr

/-- The status for an exception: its code, if that is a 4xx or 5xx. -/
def exceptionStatus (code : Int) : StatusCode :=
  if valid : 400 ≤ code ∧ code ≤ 599 then ⟨code.toNat, by omega⟩ else ⟨500, by decide⟩

def exceptionReason (code : Int) (message : Option Bytes) : Bytes :=
  match message with
  | some (b :: text) => b :: text
  | _ => if (exceptionStatus code).val ≠ 500 then [] else ascii "Internal Server Error"

/-- The response that the end of a handler makes of one that is not committed. -/
def errorResponse (r : HttpResponse) : HandlerEnd → HttpResponse
  | .returned => r
  | .bailout => resetToError ⟨500, by decide⟩ (ascii "Internal Server Error") r
  | .threw code message => resetToError (exceptionStatus code) (exceptionReason code message) r

/-- What the server adds to a response: its Alt-Svc value, and whether the connection is to be
closed. -/
structure Transport where
  altSvc : Option Bytes := none
  close : Bool := false
  deriving DecidableEq, Repr

/-- `http_handler_coroutine_dispose` up to the sending. -/
def settleResponse (transport : Transport) (ending : HandlerEnd) (r : HttpResponse) :
    HttpResponse :=
  let r := if r.committed then r else errorResponse r ending
  let r := { r with committed := true }
  let r := setAltSvcIfUnset transport.altSvc r
  if transport.close then forceConnectionClose r else r

end TrueAsync.Http1

import TrueAsync.Lib.Numeral
import TrueAsync.Response.Object

/-!
# The HTTP/1 response formatter

`src/http1/http1_format.c` and the date of `src/http_date.c`, without the compression module.
The status line comes from a table where it can; then follow a Date, the framing, the header
table in its order and an empty line.
-/

namespace TrueAsync.Http1

open TrueAsync.Lib TrueAsync.Response

def crlf : Bytes := [0x0d, 0x0a]

/-! ## The status line -/

/-- `http_status_reason`. -/
def httpStatusReason (code : Nat) : Bytes :=
  ascii <| match code with
  | 100 => "Continue"
  | 101 => "Switching Protocols"
  | 200 => "OK"
  | 201 => "Created"
  | 202 => "Accepted"
  | 204 => "No Content"
  | 206 => "Partial Content"
  | 301 => "Moved Permanently"
  | 302 => "Found"
  | 303 => "See Other"
  | 304 => "Not Modified"
  | 307 => "Temporary Redirect"
  | 308 => "Permanent Redirect"
  | 400 => "Bad Request"
  | 401 => "Unauthorized"
  | 403 => "Forbidden"
  | 404 => "Not Found"
  | 405 => "Method Not Allowed"
  | 408 => "Request Timeout"
  | 409 => "Conflict"
  | 410 => "Gone"
  | 411 => "Length Required"
  | 413 => "Payload Too Large"
  | 414 => "URI Too Long"
  | 415 => "Unsupported Media Type"
  | 416 => "Range Not Satisfiable"
  | 422 => "Unprocessable Entity"
  | 429 => "Too Many Requests"
  | 500 => "Internal Server Error"
  | 501 => "Not Implemented"
  | 502 => "Bad Gateway"
  | 503 => "Service Unavailable"
  | 504 => "Gateway Timeout"
  | _ => "Unknown"

/-- `http11_status_lines`. -/
def http11StatusLines : List (Nat × Bytes) :=
  [(200, ascii "HTTP/1.1 200 OK\r\n"),
    (201, ascii "HTTP/1.1 201 Created\r\n"),
    (202, ascii "HTTP/1.1 202 Accepted\r\n"),
    (204, ascii "HTTP/1.1 204 No Content\r\n"),
    (206, ascii "HTTP/1.1 206 Partial Content\r\n"),
    (301, ascii "HTTP/1.1 301 Moved Permanently\r\n"),
    (302, ascii "HTTP/1.1 302 Found\r\n"),
    (304, ascii "HTTP/1.1 304 Not Modified\r\n"),
    (400, ascii "HTTP/1.1 400 Bad Request\r\n"),
    (401, ascii "HTTP/1.1 401 Unauthorized\r\n"),
    (403, ascii "HTTP/1.1 403 Forbidden\r\n"),
    (404, ascii "HTTP/1.1 404 Not Found\r\n"),
    (405, ascii "HTTP/1.1 405 Method Not Allowed\r\n"),
    (409, ascii "HTTP/1.1 409 Conflict\r\n"),
    (413, ascii "HTTP/1.1 413 Payload Too Large\r\n"),
    (414, ascii "HTTP/1.1 414 URI Too Long\r\n"),
    (416, ascii "HTTP/1.1 416 Range Not Satisfiable\r\n"),
    (429, ascii "HTTP/1.1 429 Too Many Requests\r\n"),
    (500, ascii "HTTP/1.1 500 Internal Server Error\r\n"),
    (502, ascii "HTTP/1.1 502 Bad Gateway\r\n"),
    (503, ascii "HTTP/1.1 503 Service Unavailable\r\n"),
    (504, ascii "HTTP/1.1 504 Gateway Timeout\r\n")]

def versionBytes (version : HttpVersion) : Bytes :=
  [digitByte version.major, 0x2e, digitByte version.minor]

/-- The version in a status line: 1.1 unless the connection has set another. -/
def HttpResponse.versionText (r : HttpResponse) : Bytes :=
  (r.protocolVersion.map versionBytes).getD (ascii "1.1")

/-- The reason in a status line. It is appended as a C string. -/
def HttpResponse.reasonText (r : HttpResponse) : Bytes :=
  (r.reasonPhrase.map cString).getD (httpStatusReason r.statusCode)

/-- `emit_status_line`. -/
def emitStatusLine (r : HttpResponse) : Bytes :=
  let isHttp11 := r.protocolVersion = none ∨ r.protocolVersion = some ⟨1, 1⟩
  match decide (isHttp11 ∧ r.reasonPhrase = none), http11StatusLines.lookup r.statusCode.val with
  | true, some line => line
  | _, _ => ascii "HTTP/" ++ HttpResponse.versionText r ++ [0x20] ++ numeral 10 r.statusCode ++
      [0x20] ++ HttpResponse.reasonText r ++ crlf

/-! ## Dates -/

/-- `struct tm`, as `gmtime_r` fills it. -/
structure Tm where
  sec : Nat
  min : Nat
  hour : Nat
  mday : Nat
  mon : Fin 12
  /-- Years since 1900. -/
  year : Int
  wday : Fin 7
  deriving DecidableEq, Repr

/-- `put_u8_2digit`. -/
def putU8Two (v : Nat) : Bytes := [digitByte (v / 10 % 10), digitByte (v % 10)]

/-- `put_u16_4digit`. -/
def putU16Four (v : Nat) : Bytes :=
  [digitByte (v / 1000 % 10), digitByte (v / 100 % 10), digitByte (v / 10 % 10), digitByte (v % 10)]

def dayName (wday : Fin 7) : Bytes :=
  ascii (["Sun", "Mon", "Tue", "Wed", "Thu", "Fri", "Sat"].get wday)

def monthName (mon : Fin 12) : Bytes :=
  ascii (["Jan", "Feb", "Mar", "Apr", "May", "Jun", "Jul", "Aug", "Sep", "Oct", "Nov",
    "Dec"].get mon)

/-- `http_date_format_imf`. -/
def httpDateFormatImf (tm : Tm) : Bytes :=
  let year := tm.year + 1900
  let year := if year < 0 ∨ year > 9999 then 9999 else year.toNat
  dayName tm.wday ++ ascii ", " ++ putU8Two tm.mday ++ ascii " " ++ monthName tm.mon ++
    ascii " " ++ putU16Four year ++ ascii " " ++ putU8Two tm.hour ++ ascii ":" ++
    putU8Two tm.min ++ ascii ":" ++ putU8Two tm.sec ++ ascii " GMT"

/-! ## Headers -/

/-- `append_header_line`. -/
def appendHeaderLine (name value : Bytes) : Bytes := name ++ ascii ": " ++ value ++ crlf

/-- `header_is_framing`. -/
def headerIsFraming (name : Bytes) : Bool :=
  lower name == ascii "content-length" || lower name == ascii "transfer-encoding"

/-- `emit_headers_only`. -/
def emitHeadersOnly (headers : Headers) (skipFraming : Bool) : Bytes :=
  headers.flatMap fun entry =>
    if skipFraming && headerIsFraming entry.1 then []
    else entry.2.values.flatMap (appendHeaderLine entry.1)

/-- `emit_date_header`. -/
def emitDateHeader (now : Tm) (headers : Headers) : Bytes :=
  if headers.has (ascii "date") then []
  else appendHeaderLine (ascii "Date") (httpDateFormatImf now)

/-- `emit_headers_block`. -/
def emitHeadersBlock (now : Tm) (r : HttpResponse) (bodyLen : Nat) : Bytes :=
  emitStatusLine r ++ emitDateHeader now r.headers ++
    (if r.headers.has (ascii "content-length") then []
      else appendHeaderLine (ascii "Content-Length") (numeral 10 bodyLen)) ++
    emitHeadersOnly r.headers false ++ crlf

/-- `http_response_format_parts`. -/
def httpResponseFormatParts (now : Tm) (r : HttpResponse) : Bytes × Option Bytes :=
  (emitHeadersBlock now r r.bodyBytes.length,
    match r.bodyView with
    | some view => some view
    | none => if r.body = [] then none else some r.body)

/-- `http_response_format`. -/
def httpResponseFormat (now : Tm) (r : HttpResponse) : Bytes :=
  emitHeadersBlock now r r.bodyBytes.length ++ r.bodyBytes

/-- `http_response_format_streaming_headers`. -/
def httpResponseFormatStreamingHeaders (now : Tm) (r : HttpResponse) : Bytes :=
  emitStatusLine r ++ emitDateHeader now r.headers ++
    ascii "Transfer-Encoding: chunked\r\n" ++ emitHeadersOnly r.headers true ++ crlf

/-! ## What is written -/

theorem http11StatusLines_eq : ∀ entry ∈ http11StatusLines,
    entry.2 = ascii "HTTP/" ++ ascii "1.1" ++ [0x20] ++ numeral 10 entry.1 ++ [0x20] ++
      httpStatusReason entry.1 ++ crlf := by
  decide +kernel

theorem emitStatusLine_eq (r : HttpResponse) :
    emitStatusLine r = ascii "HTTP/" ++ HttpResponse.versionText r ++ [0x20] ++
      numeral 10 r.statusCode ++ [0x20] ++ HttpResponse.reasonText r ++ crlf := by
  unfold emitStatusLine
  dsimp only
  split
  · rename_i line common found
    simp only [decide_eq_true_eq] at common
    have version : HttpResponse.versionText r = ascii "1.1" := by
      unfold HttpResponse.versionText
      rcases common.1 with none | same
      · rw [none]
        rfl
      · rw [same]
        rfl
    have reason : HttpResponse.reasonText r = httpStatusReason r.statusCode := by
      unfold HttpResponse.reasonText
      rw [common.2]
      rfl
    rw [version, reason]
    exact http11StatusLines_eq _ (Table.mem_of_find? found)
  · rfl

def storedFields (headers : Headers) : List (Bytes × Bytes) :=
  headers.flatMap fun entry => entry.2.values.map fun value => (entry.1, value)

/-- The fields of a buffered head: those that the formatter adds, and the header table. -/
def headFields (now : Tm) (r : HttpResponse) (bodyLen : Nat) : List (Bytes × Bytes) :=
  (if r.headers.has (ascii "date") then [] else [(ascii "Date", httpDateFormatImf now)]) ++
    (if r.headers.has (ascii "content-length") then []
      else [(ascii "Content-Length", numeral 10 bodyLen)]) ++
    storedFields r.headers

def fieldLines (fields : List (Bytes × Bytes)) : Bytes :=
  fields.flatMap fun field => appendHeaderLine field.1 field.2

theorem fieldLines_append (fields more : List (Bytes × Bytes)) :
    fieldLines (fields ++ more) = fieldLines fields ++ fieldLines more :=
  List.flatMap_append

theorem emitHeadersOnly_eq (headers : Headers) :
    emitHeadersOnly headers false = fieldLines (storedFields headers) := by
  simp [emitHeadersOnly, fieldLines, storedFields, List.flatMap_assoc, List.flatMap_map]

theorem emitHeadersBlock_eq (now : Tm) (r : HttpResponse) (bodyLen : Nat) :
    emitHeadersBlock now r bodyLen =
      emitStatusLine r ++ (fieldLines (headFields now r bodyLen) ++ crlf) := by
  unfold emitHeadersBlock headFields emitDateHeader
  rw [fieldLines_append, fieldLines_append, emitHeadersOnly_eq]
  simp only [List.append_assoc]
  congr 2
  · split <;> simp [fieldLines]
  · congr 1
    split <;> simp [fieldLines]

end TrueAsync.Http1

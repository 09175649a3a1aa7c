import TrueAsync.Http1.Dispose
import TrueAsync.Http1.HeadGrammar

/-!
# Response splitting

The formatter writes reason phrases, header names and header values as they are stored, and the
setters store them as they come. So a head is read back as what was stored if and only if
everything stored fits the grammar.
-/

namespace TrueAsync.Http1

open TrueAsync.Lib TrueAsync.Response List ResponseCall HttpResponse HeaderValue

def statusLineOf (r : HttpResponse) : StatusLine where
  version := ascii "HTTP/" ++ versionText r
  code := numeral 10 r.statusCode
  reason := reasonText r

/-- A recipient reads one status line, the stored fields with those of the formatter before
them, and the body. -/
def ReadBack (bareLf : Bool) (now : Tm) (r : HttpResponse) : Prop :=
  parseHead bareLf (httpResponseFormat now r) = some {
    status := statusLineOf r
    fields := headFields now r r.bodyBytes.length
    rest := r.bodyBytes }

/-- Everything stored fits the grammar: the reason phrase as far as it is written, names that
are tokens and values that are field values. -/
structure Plain (r : HttpResponse) : Prop where
  reason : ∀ b ∈ (r.reasonPhrase.map cString).getD [], isText b
  fields : ∀ field ∈ storedFields r.headers, IsToken field.1 ∧ IsFieldValue field.2

/-! ## What the formatter adds -/

theorem isDigit_digitByte (small : d < 10) : isDigit (digitByte d) := by
  grind [isDigit, UInt8.le_iff_toNat_le, digitByte_toNat]

variable {b : UInt8}

theorem isDigit_of_mem_numeral (member : b ∈ numeral 10 n) : isDigit b := by
  obtain ⟨d, small, rfl⟩ := mem_numeral (by decide) member
  exact isDigit_digitByte small

theorem isText_of_isDigit (digit : isDigit b) : isText b ∧ isOws b = false := by
  simp only [isDigit, Bool.and_eq_true, decide_eq_true_eq, UInt8.le_iff_toNat_le,
    UInt8.reduceToNat] at digit
  simp only [isText, isOws, Bool.or_eq_true, Bool.and_eq_true, decide_eq_true_eq,
    Bool.or_eq_false_iff, beq_eq_false_iff_ne, beq_iff_eq, bne_iff_ne, ne_eq,
    UInt8.le_iff_toNat_le, ← UInt8.toNat_inj, UInt8.reduceToNat]
  omega

theorem isFieldValue_numeral (n : Nat) : IsFieldValue (numeral 10 n) := by
  exact isFieldValue_of_visible (fun b member => isText_of_isDigit (isDigit_of_mem_numeral member))

theorem isText_digitByte (small : d < 10) : isText (digitByte d) :=
  (isText_of_isDigit (isDigit_digitByte small)).1

theorem isFieldValue_date (now : Tm) : IsFieldValue (httpDateFormatImf now) := by
  have digit (v : Nat) := isText_digitByte (Nat.mod_lt v (by decide : 0 < 10))
  have two (v : Nat) : ∀ b ∈ putU8Two v, isText b := by
    simp only [putU8Two, mem_cons, not_mem_nil, or_false, forall_eq_or_imp, forall_eq]
    exact ⟨digit _, digit _⟩
  have four (v : Nat) : ∀ b ∈ putU16Four v, isText b := by
    simp only [putU16Four, mem_cons, not_mem_nil, or_false, forall_eq_or_imp, forall_eq]
    exact ⟨digit _, digit _, digit _, digit _⟩
  have day : ∀ wday, (∀ b ∈ dayName wday, isText b) ∧ ∃ b, (dayName wday).head? = some b ∧
      isOws b = false := by
    decide
  have month : ∀ mon, ∀ b ∈ monthName mon, isText b := by decide
  refine ⟨trimOws_eq_self ?_ ?_, ?_⟩
  · obtain ⟨b, start, visible⟩ := (day now.wday).2
    simp [httpDateFormatImf, head?_append, start, visible]
  · have final : (ascii " GMT").getLast? = some 0x54 := by decide
    simp [httpDateFormatImf, getLast?_append, final]
    decide
  · simp only [httpDateFormatImf, forall_mem_append, and_assoc]
    exact ⟨(day _).1, by decide, two _, by decide, month _, by decide,
      four _, by decide, two _, by decide, two _, by decide, two _,
      by decide⟩

theorem httpStatusReason_text (code : Nat) : ∀ b ∈ httpStatusReason code, isText b := by
  unfold httpStatusReason
  split <;> decide

theorem isStatusCode_numeral (status : StatusCode) : IsStatusCode (numeral 10 status) := by
  refine ⟨?_, fun b => isDigit_of_mem_numeral⟩
  rw [numeral, if_neg (by omega), Nat.digits_def' (by decide) (by omega),
    Nat.digits_def' (by decide) (by omega), Nat.digits_of_lt 10 _ (by omega) (by omega)]
  rfl

theorem isHttpVersion_versionText : isHttpVersion (ascii "HTTP/" ++ versionText r) ∧
      0x20 ∉ ascii "HTTP/" ++ versionText r ∧ 0x0a ∉ ascii "HTTP/" ++ versionText r := by
  have versions : ∀ major minor : Fin 10,
      isHttpVersion (ascii "HTTP/" ++ versionBytes ⟨major, minor⟩) ∧
        0x20 ∉ ascii "HTTP/" ++ versionBytes ⟨major, minor⟩ ∧
        0x0a ∉ ascii "HTTP/" ++ versionBytes ⟨major, minor⟩ := by
    decide
  unfold versionText
  cases r.protocolVersion with
  | none => decide
  | some version => exact versions version.major version.minor

variable {r : HttpResponse}

theorem headFields_valid (now : Tm) (bodyLen : Nat) (plain : Plain r) :
    ∀ field ∈ headFields now r bodyLen, IsToken field.1 ∧ IsFieldValue field.2 := by
  have date : IsToken (ascii "Date") := by decide
  have length : IsToken (ascii "Content-Length") := by decide
  simp only [headFields, forall_mem_append]
  refine ⟨⟨?_, ?_⟩, plain.fields⟩
  · split
    · simp
    · grind [isFieldValue_date]
  · split
    · simp
    · grind [isFieldValue_numeral]

theorem reasonText_text (plain : Plain r) : ∀ b ∈ reasonText r, isText b := by
  have reason := plain.reason
  unfold reasonText
  cases stored : r.reasonPhrase with
  | none => exact httpStatusReason_text _
  | some phrase =>
    rw [stored] at reason
    exact reason

/-! ## Round trip -/

theorem fieldLines_eq (fields : List (Bytes × Bytes)) : fieldLines fields = headerLines fields := by
  have colon : ascii ": " = [0x3a, 0x20] := by decide
  simp [fieldLines, headerLines, appendHeaderLine, colon, crlf]

theorem emitStatusLine_append (rest : Bytes) :
    emitStatusLine r ++ rest = ((statusLineOf r).version ++
      0x20 :: ((statusLineOf r).code ++ 0x20 :: (statusLineOf r).reason)) ++
        0x0d :: 0x0a :: rest := by
  rw [emitStatusLine_eq]
  simp [statusLineOf, crlf]

theorem readBack_of_plain (bareLf : Bool) (now : Tm) (plain : Plain r) : ReadBack bareLf now r := by
  have valid := headFields_valid now r.bodyBytes.length plain
  have text := reasonText_text plain
  obtain ⟨version, noSpace, noLf⟩ := isHttpVersion_versionText
  have code := isStatusCode_numeral r.statusCode
  have codeLf : 0x0a ∉ numeral 10 r.statusCode :=
    fun member => absurd (isDigit_of_mem_numeral member) (by decide)
  have lineLf : 0x0a ∉ (statusLineOf r).version ++
      0x20 :: ((statusLineOf r).code ++ 0x20 :: (statusLineOf r).reason) := by
    intro member
    rcases mem_append.mp member with member | member
    · exact noLf member
    rcases mem_cons.mp member with space | member
    · cases space
    rcases mem_append.mp member with member | member
    · exact codeLf member
    rcases mem_cons.mp member with space | member
    · cases space
    · exact lf_notMem_of_text text member
  have status : parseStatusLine ((statusLineOf r).version ++
      0x20 :: ((statusLineOf r).code ++ 0x20 :: (statusLineOf r).reason)) = some (statusLineOf r) :=
    parseStatusLine_append version noSpace code text
  have whole : httpResponseFormat now r = emitStatusLine r ++
      (headerLines (headFields now r r.bodyBytes.length) ++ 0x0d :: 0x0a :: r.bodyBytes) := by
    rw [httpResponseFormat, emitHeadersBlock_eq, fieldLines_eq]
    simp [crlf]
  unfold ReadBack
  rw [whole, emitStatusLine_append, parseHead, headLine_append bareLf lineLf]
  dsimp only
  rw [status, parseFields_block bareLf valid _ (by simp)]

/-! ## What callers supply -/

def CleanCall : ResponseCall → Prop
  | .setReasonPhrase phrase => ∀ b ∈ cString phrase, isText b
  | .setHeader name value => IsToken name ∧ ∀ v ∈ value.values, IsFieldValue v
  | .addHeader name value => IsToken name ∧ ∀ v ∈ value.values, IsFieldValue v
  | .redirect url _ => IsFieldValue url
  | _ => True

def HandlerEnd.Clean : HandlerEnd → Prop
  | .threw _ (some message) => ∀ b ∈ cString message, isText b
  | _ => True

def Transport.Clean (transport : Transport) : Prop := ∀ value ∈ transport.altSvc, IsFieldValue value

def CleanHeaders (headers : Headers) : Prop :=
  ∀ entry ∈ headers, IsToken entry.1 ∧ ∀ v ∈ entry.2.values, IsFieldValue v

variable {headers : Headers}

theorem CleanHeaders.fields (clean : CleanHeaders headers) :
    ∀ field ∈ storedFields headers, IsToken field.1 ∧ IsFieldValue field.2 := by
  intro field member
  obtain ⟨entry, stored, member⟩ := mem_flatMap.mp member
  obtain ⟨value, among, rfl⟩ := mem_map.mp member
  exact ⟨(clean entry stored).1, (clean entry stored).2 value among⟩

variable {name : Bytes} {value : HeaderValue}

theorem CleanHeaders.update (clean : CleanHeaders headers) (token : IsToken name)
    (valid : ∀ v ∈ value.values, IsFieldValue v) : CleanHeaders (headers.update name value) := by
  intro entry member
  rcases Table.mem_update member with member | rfl
  · exact clean entry member
  · exact ⟨token, valid⟩

theorem isTchar_lowerByte (char : isTchar b) : isTchar (lowerByte b) := by
  unfold lowerByte
  split
  · rename_i upper
    have lowered : isAlpha (b + 0x20) := by
      simp only [UInt8.le_iff_toNat_le, UInt8.reduceToNat] at upper
      simp only [isAlpha, Bool.or_eq_true, Bool.and_eq_true, decide_eq_true_eq,
        UInt8.le_iff_toNat_le, UInt8.toNat_add, UInt8.reduceToNat]
      omega
    rw [isTchar, lowered, Bool.or_true, Bool.true_or]
  · exact char

theorem IsToken.lower (token : IsToken name) : IsToken (lower name) := by
  refine ⟨by simpa using token.1, fun b member => ?_⟩
  obtain ⟨b', among, rfl⟩ := mem_map.mp member
  exact isTchar_lowerByte (token.2 b' among)

theorem HeaderValue.values_stored (value : HeaderValue) : value.stored.values = value.values := by
  unfold stored
  split <;> rfl

theorem CleanHeaders.add (clean : CleanHeaders headers)
    (token : IsToken name) (valid : ∀ v ∈ value.values, IsFieldValue v)
    (replace : Bool) : CleanHeaders (addHeaderValue headers name value replace) := by
  unfold addHeaderValue
  dsimp only
  split
  · rename_i existing found
    apply clean.update token.lower
    intro v member
    rcases mem_append.mp member with member | member
    · exact (clean _ (Table.mem_of_find? found)).2 v member
    · exact valid v member
  · apply clean.update token.lower
    rw [HeaderValue.values_stored]
    exact valid

/-- What the setters keep. -/
structure CleanResponse (r : HttpResponse) : Prop where
  reason : ∀ b ∈ (r.reasonPhrase.map cString).getD [], isText b
  headers : CleanHeaders r.headers

theorem CleanResponse.plain (clean : CleanResponse r) : Plain r :=
  ⟨clean.reason, clean.headers.fields⟩

variable {r' : HttpResponse}

theorem mutate_ok (changed : r.mutate change = .ok r') : change r = .ok r' := by
  grind [mutate]

theorem cleanResponse_run (clean : CleanResponse r) (supplied : CleanCall call)
    (changed : call.run r = .ok r') : CleanResponse r' := by
  have location : IsToken (ascii "location") := by decide
  have contentType : IsToken (ascii "content-type") := by decide
  have htmlType : IsFieldValue (ascii "text/html; charset=utf-8") := by decide
  have one {v : Bytes} (valid : IsFieldValue v) : ∀ w ∈ (one v).values,
      IsFieldValue w := fun w member => mem_singleton.mp member ▸ valid
  cases call with
  | setStatusCode code =>
    rw [run, Response.setStatusCode] at changed
    have changed := mutate_ok changed
    split at changed
    · cases changed
      exact { clean with }
    · cases changed
  | setReasonPhrase phrase =>
    rw [run, Response.setReasonPhrase] at changed
    cases mutate_ok changed
    exact ⟨supplied, clean.headers⟩
  | setHeader name value =>
    rw [run, Response.setHeader] at changed
    cases mutate_ok changed
    exact ⟨clean.reason, clean.headers.add supplied.1 supplied.2 true⟩
  | addHeader name value =>
    rw [run, Response.addHeader] at changed
    cases mutate_ok changed
    exact ⟨clean.reason, clean.headers.add supplied.1 supplied.2 false⟩
  | resetHeaders =>
    rw [run, Response.resetHeaders] at changed
    cases mutate_ok changed
    exact ⟨clean.reason, forall_mem_nil _⟩
  | redirect url status =>
    rw [run, Response.redirect] at changed
    have changed := mutate_ok changed
    split at changed
    · cases changed
      exact ⟨clean.reason, clean.headers.add location (one supplied) true⟩
    · cases changed
  | write | setBody =>
    simp only [run, Response.write, Response.setBody] at changed
    cases mutate_ok changed
    exact { clean with }
  | html text =>
    rw [run, Response.html] at changed
    cases mutate_ok changed
    exact ⟨clean.reason, clean.headers.add contentType (one htmlType) true⟩

theorem cleanResponse_runCalls (clean : CleanResponse r)
    (supplied : ∀ call ∈ calls, CleanCall call) : CleanResponse (runCalls calls r) := by
  induction calls generalizing r with
  | nil => exact clean
  | cons call calls ih =>
    apply ih
    · unfold ResponseCall.after
      split
      · rename_i changed
        exact cleanResponse_run clean (supplied call mem_cons_self) changed
      · exact clean
    · grind

theorem cString_cString (text : Bytes) : cString (cString text) = cString text := by
  rw [cString, cString, takeWhile_idem]

theorem cleanResponse_settle (clean : CleanResponse r) (message : ending.Clean)
    (server : transport.Clean) : CleanResponse (settleResponse transport ending r) := by
  have connection : IsToken (ascii "connection") := by decide
  have close : ∀ v ∈ (many [ascii "close"]).values, IsFieldValue v := by decide
  have altSvc : IsToken (ascii "alt-svc") := by decide
  have fallback : ∀ b ∈ cString (ascii "Internal Server Error"), isText b := by decide
  have reset (status : StatusCode) {text : Bytes} (valid : ∀ b ∈ cString text, isText b) :
      CleanResponse (resetToError status text r) := by
    refine ⟨?_, nofun⟩
    show ∀ b ∈ cString (cString text), isText b
    rw [cString_cString]
    exact valid
  have error : CleanResponse (errorResponse r ending) := by
    cases ending with
    | returned => exact clean
    | bailout => exact reset _ fallback
    | threw code text =>
      apply reset
      unfold exceptionReason
      split
      · exact message
      · split
        · nofun
        · exact fallback
  have settled : CleanResponse { (if r.committed then r else errorResponse r ending) with
      committed := true } := by
    split
    · exact { clean with }
    · exact { error with }
  have advertised {s : HttpResponse} (clean : CleanResponse s) :
      CleanResponse (setAltSvcIfUnset transport.altSvc s) := by
    unfold setAltSvcIfUnset
    split
    · exact clean
    · rename_i value given
      split
      · exact clean
      · refine ⟨clean.reason, clean.headers.update altSvc fun v member => ?_⟩
        rw [mem_singleton.mp member]
        exact server value given
  unfold settleResponse
  dsimp only
  split
  · exact ⟨(advertised settled).reason, (advertised settled).headers.update connection close⟩
  · exact advertised settled

/-- A recipient reads back what is stored in a response, however it came to be, exactly if all of
it fits the grammar; and it does if all that callers have supplied does. -/
theorem no_splitting_iff (bareLf : Bool) (now : Tm) (version : HttpVersion) (isHead : Bool)
    (calls : List ResponseCall) (ending : HandlerEnd) (transport : Transport) :
    let r := settleResponse transport ending (runCalls calls (.start version isHead))
    (ReadBack bareLf now r ↔ Plain r) ∧
      ((∀ call ∈ calls, CleanCall call) → ending.Clean → transport.Clean →
        ReadBack bareLf now r) := by
  intro r
  refine ⟨⟨?_, readBack_of_plain bareLf now⟩, ?_⟩
  · intro readBack
    obtain ⟨reason, fields⟩ := parseHead_valid readBack
    constructor
    · rw [statusLineOf, reasonText] at reason
      cases stored : r.reasonPhrase with
      | none => nofun
      | some phrase =>
        rw [stored] at reason
        exact reason
    · intro field member
      exact fields field (mem_append_right _ member)
  · intro supplied message server
    have start : CleanResponse (.start version isHead) := ⟨nofun, nofun⟩
    have clean := cleanResponse_settle (cleanResponse_runCalls start supplied) message server
    exact readBack_of_plain bareLf now clean.plain

/-- The message of an exception goes into the status line as it is: a recipient reads a field
that nobody has stored. -/
theorem exception_message_injects_field :
    let now : Tm := { sec := 37, min := 49, hour := 8, mday := 6, mon := 10, year := 94, wday := 0 }
    let ending : HandlerEnd := .threw 404 (some (ascii "Gone\r\nSet-Cookie: a=b"))
    let r := settleResponse {} ending (runCalls [] (.start ⟨1, 1⟩ false))
    (parseHead false (httpResponseFormat now r)).map (fun head => head.fields.head?) =
        some (some (ascii "Set-Cookie", ascii "a=b")) ∧
      storedFields r.headers = [] ∧ ¬ ReadBack false now r := by
  refine ⟨by decide +kernel, by decide +kernel, ?_⟩
  unfold ReadBack
  decide +kernel

end TrueAsync.Http1

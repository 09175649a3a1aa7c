import TrueAsync.Http1.HeadGrammar
import TrueAsync.Lib.Numeral

/-!
# Parameters of header values

`src/http_param_parse.c`, the decoder of `src/http_rfc5987.c`, and what
`src/formats/multipart_processor.c` takes from the headers of a part: `Content-Disposition` with
the names of the field and of the file, and `Content-Type` with its charset. The functions walk C
strings: a text here stands for what comes before its first NUL.
-/

namespace TrueAsync.Formats

open TrueAsync.Lib TrueAsync.Http1 List

/-- `http_param_t`; the value of a bare token is NULL. -/
structure HttpParam where
  name : Bytes
  value : Option Bytes
  quoted : Bool
  deriving DecidableEq, Repr

/-- `http_header_param_next` on a C string: a parameter and where the cursor is then. -/
def httpHeaderParamNext (text : Bytes) : Option (HttpParam × Bytes) :=
  let text := text.dropWhile fun c => c == 0x3b || isOws c
  if text = [] then none
  else
    let isName := fun c : UInt8 => c != 0x3d && c != 0x3b && !isOws c
    let name := text.takeWhile isName
    match text.dropWhile isName with
    | 0x3d :: 0x22 :: rest =>
        let value := rest.takeWhile (· != 0x22)
        let rest := (rest.dropWhile (· != 0x22)).drop 1
        some (⟨name, some value, true⟩, rest.dropWhile (· != 0x3b))
    | 0x3d :: rest =>
        let isValue := fun c : UInt8 => c != 0x3b && !isOws c
        some (⟨name, some (rest.takeWhile isValue), false⟩,
          (rest.dropWhile isValue).dropWhile (· != 0x3b))
    | rest => if name = [] then none else some (⟨name, none, false⟩, rest.dropWhile (· != 0x3b))

/-- The loop over the parameters of a value; every parameter takes at least a byte. -/
def headerParams : Nat → Bytes → List HttpParam
  | 0, _ => []
  | fuel + 1, text =>
      match httpHeaderParamNext text with
      | none => []
      | some (param, rest) => param :: headerParams fuel rest

/-! ## Parameters as they are written

`parameters` of RFC 9110, section 5.6.6, where a quoted string has no quoted pair: the tokenizer
knows no escapes. -/

/-- What stands between two parameters: semicolons, of which some may have no parameter, and white
space. -/
def isSeparator (b : UInt8) : Bool := b == 0x3b || isOws b

/-- `qdtext`. -/
def isQdtext (b : UInt8) : Bool := isText b && b != 0x22 && b != 0x5c

/-- A parameter in a header value, with the separators before it. -/
structure WrittenParam where
  lead : Bytes
  name : Bytes
  value : Bytes
  quoted : Bool

namespace WrittenParam

/-- The name and the value as they are written. -/
def body (param : WrittenParam) : Bytes :=
  param.name ++ 0x3d :: if param.quoted then 0x22 :: param.value ++ [0x22] else param.value

def text (param : WrittenParam) : Bytes := param.lead ++ param.body

/-- What the text of a parameter means. -/
def meaning (param : WrittenParam) : HttpParam := ⟨param.name, some param.value, param.quoted⟩

/-- A parameter by the grammar. -/
structure Valid (param : WrittenParam) : Prop where
  separators : ∀ b ∈ param.lead, isSeparator b = true
  semicolon : 0x3b ∈ param.lead
  name : IsToken param.name
  value : if param.quoted then ∀ b ∈ param.value, isQdtext b = true else IsToken param.value

end WrittenParam

variable {param : WrittenParam} {params : List WrittenParam} {lead rest tail : Bytes}

theorem isTchar_apart : ∀ b : UInt8, isTchar b = true →
    b ≠ 0x3d ∧ b ≠ 0x3b ∧ b ≠ 0x22 ∧ isOws b = false := byte_forall (by decide +kernel)

/-- The tokenizer at a name and its equals sign. -/
theorem httpHeaderParamNext_name {name : Bytes} (token : IsToken name)
    (separators : ∀ b ∈ lead, isSeparator b = true) (after : Bytes) :
    httpHeaderParamNext (lead ++ (name ++ 0x3d :: after)) =
      match after with
      | 0x22 :: after =>
          some (⟨name, some (after.takeWhile (· != 0x22)), true⟩,
            ((after.dropWhile (· != 0x22)).drop 1).dropWhile (· != 0x3b))
      | after =>
          some (⟨name, some (after.takeWhile fun c => c != 0x3b && !isOws c), false⟩,
            (after.dropWhile fun c => c != 0x3b && !isOws c).dropWhile (· != 0x3b)) := by
  have starts : ∀ b, (name ++ 0x3d :: after).head? = some b → isSeparator b = false := by
    intro b first
    obtain ⟨c, name, rfl⟩ := exists_cons_of_ne_nil token.1
    obtain rfl : c = b := by simpa using first
    obtain ⟨-, semicolon, -, blank⟩ := isTchar_apart c (token.2 c mem_cons_self)
    simp [isSeparator, semicolon, blank]
  have inside : ∀ b ∈ name, (b != 0x3d && b != 0x3b && !isOws b) = true := by
    intro b member
    obtain ⟨equals, semicolon, -, blank⟩ := isTchar_apart b (token.2 b member)
    simp [equals, semicolon, blank]
  have skipped : (lead ++ (name ++ 0x3d :: after)).dropWhile (fun c => c == 0x3b || isOws c) =
      name ++ 0x3d :: after := (span_eq separators starts).2
  obtain ⟨taken, dropped⟩ := span_append 0x3d inside rfl after
  unfold httpHeaderParamNext
  dsimp only
  rw [skipped, if_neg (by simp), taken, dropped]
  cases after with
  | nil => rfl
  | cons c after => by_cases quote : c = 0x22 <;> simp [quote]

/-- The tokenizer at a parameter reads it, and goes on to the next semicolon. -/
theorem httpHeaderParamNext_written (valid : param.Valid)
    (separators : ∀ b ∈ lead, isSeparator b = true)
    (ends : ∀ b, rest.head? = some b → isSeparator b = true) :
    httpHeaderParamNext (lead ++ param.body ++ rest) =
      some (param.meaning, rest.dropWhile (· != 0x3b)) := by
  obtain ⟨leading, name, value, quoted⟩ := param
  have written := valid.value
  have shape : lead ++ WrittenParam.body ⟨leading, name, value, quoted⟩ ++ rest =
      lead ++ (name ++ 0x3d ::
        ((if quoted then 0x22 :: value ++ [0x22] else value) ++ rest)) := by
    simp [WrittenParam.body]
  rw [shape, httpHeaderParamNext_name valid.name separators]
  cases quoted with
  | true =>
    have inside : ∀ b ∈ value, (b != 0x22) = true := by
      intro b member
      have text := written b member
      simp only [isQdtext, Bool.and_eq_true] at text
      exact text.1.2
    obtain ⟨taken, dropped⟩ := span_append 0x22 inside rfl rest
    simp [WrittenParam.meaning, taken, dropped]
  | false =>
    obtain ⟨nonempty, token⟩ : IsToken value := written
    have inside : ∀ b ∈ value, (b != 0x3b && !isOws b) = true := by
      intro b member
      obtain ⟨-, semicolon, -, blank⟩ := isTchar_apart b (token b member)
      simp [semicolon, blank]
    have stops : ∀ b, rest.head? = some b → (b != 0x3b && !isOws b) = false := by
      intro b here
      rcases Bool.or_eq_true_iff.mp (ends b here) with semicolon | blank
      · simp [beq_iff_eq.mp semicolon]
      · simp [blank]
    obtain ⟨taken, dropped⟩ := span_eq inside stops
    obtain ⟨first, others, rfl⟩ := exists_cons_of_ne_nil nonempty
    have noQuote := (isTchar_apart first (token first mem_cons_self)).2.2.1
    rw [cons_append] at taken dropped
    simp [WrittenParam.meaning, noQuote, taken, dropped]

theorem httpHeaderParamNext_separators (separators : ∀ b ∈ tail, isSeparator b = true) :
    httpHeaderParamNext tail = none := by
  have none_left : tail.dropWhile (fun c => c == 0x3b || isOws c) = [] :=
    dropWhile_eq_nil_iff.mpr separators
  simp [httpHeaderParamNext, none_left]

/-- What follows a parameter starts with a separator. -/
theorem written_head (valid : ∀ param ∈ params, param.Valid)
    (separators : ∀ b ∈ tail, isSeparator b = true) (b : UInt8)
    (first : (params.flatMap WrittenParam.text ++ tail).head? = some b) : isSeparator b = true := by
  cases params with
  | nil => exact separators b (mem_of_mem_head? first)
  | cons param params =>
    have here := valid param mem_cons_self
    obtain ⟨c, lead, same⟩ := exists_cons_of_ne_nil (ne_nil_of_mem here.semicolon)
    rw [flatMap_cons, WrittenParam.text, same] at first
    obtain rfl : c = b := by simpa using first
    exact here.separators c (same ▸ mem_cons_self)

/-- The tokenizer reads the parameters of a value as the grammar does. -/
theorem headerParams_written {fuel : Nat} (valid : ∀ param ∈ params, param.Valid)
    (separators : ∀ b ∈ tail, isSeparator b = true)
    (enough : ((params.flatMap WrittenParam.text ++ tail).dropWhile (· != 0x3b)).length < fuel) :
    headerParams fuel ((params.flatMap WrittenParam.text ++ tail).dropWhile (· != 0x3b)) =
      params.map WrittenParam.meaning := by
  induction params generalizing fuel with
  | nil =>
    obtain ⟨fuel, rfl⟩ := Nat.exists_eq_succ_of_ne_zero (Nat.ne_zero_of_lt enough)
    have left : ∀ b ∈ tail.dropWhile (· != 0x3b), isSeparator b = true :=
      fun b member => separators b ((dropWhile_suffix _).subset member)
    rw [flatMap_nil, nil_append, headerParams, httpHeaderParamNext_separators left]
    rfl
  | cons param params ih =>
    obtain ⟨fuel, rfl⟩ := Nat.exists_eq_succ_of_ne_zero (Nat.ne_zero_of_lt enough)
    obtain ⟨here, later⟩ := forall_mem_cons.mp valid
    have cut : ((param :: params).flatMap WrittenParam.text ++ tail).dropWhile (· != 0x3b) =
        param.lead.dropWhile (· != 0x3b) ++ param.body ++
          (params.flatMap WrittenParam.text ++ tail) := by
      have found : param.lead.dropWhile (· != 0x3b) ≠ [] := by
        intro gone
        exact absurd (dropWhile_eq_nil_iff.mp gone _ here.semicolon) (by decide)
      rw [flatMap_cons, WrittenParam.text, append_assoc, append_assoc, dropWhile_append,
        if_neg (by simpa using found), append_assoc]
    have left : ∀ b ∈ param.lead.dropWhile (· != 0x3b), isSeparator b = true :=
      fun b member => here.separators b ((dropWhile_suffix _).subset member)
    rw [cut] at enough ⊢
    rw [headerParams, httpHeaderParamNext_written here left (written_head later separators)]
    refine congrArg (param.meaning :: ·) (ih later ?_)
    have some : 0 < param.body.length := by simp [WrittenParam.body]
    have shorter := (dropWhile_suffix (l := params.flatMap WrittenParam.text ++ tail)
      (· != 0x3b)).length_le
    simp only [length_append] at enough shorter ⊢
    omega

/-! ## Extended values -/

/-- `http_rfc5987_decode`. -/
def httpRfc5987Decode : Bytes → Bytes
  | 0x25 :: high :: low :: rest =>
      match digitValue high, digitValue low with
      | some h, some l => UInt8.ofNat (h * 16 + l) :: httpRfc5987Decode rest
      | _, _ => 0x25 :: httpRfc5987Decode (high :: low :: rest)
  | c :: rest => c :: httpRfc5987Decode rest
  | [] => []

/-- `decode_rfc5987_value`: what stands after the second quote, as a C string. -/
def decodeRfc5987Value (text : Bytes) : Option Bytes :=
  match cutAt 0x27 text with
  | none => none
  | some (_, rest) =>
      match cutAt 0x27 rest with
      | none => none
      | some (_, encoded) => some (cString (httpRfc5987Decode encoded))

/-- The headers of a part that the processor keeps. -/
structure PartHead where
  fieldName : Option Bytes := none
  filename : Option Bytes := none
  contentType : Option Bytes := none
  charset : Option Bytes := none
  deriving DecidableEq, Repr

/-- One parameter of `Content-Disposition`. -/
def dispositionParam (head : PartHead) (param : HttpParam) : PartHead :=
  if param.name = ascii "name" then { head with fieldName := some (param.value.getD []) }
  else if param.name = ascii "filename" then { head with filename := some (param.value.getD []) }
  else if param.name = ascii "filename*" then
    match decodeRfc5987Value (param.value.getD []) with
    | none => head
    | some decoded => { head with filename := some decoded }
  else head

/-- `parse_content_disposition`. -/
def parseContentDisposition (head : PartHead) (value : Bytes) : PartHead :=
  let params := value.dropWhile (· != 0x3b)
  (headerParams (params.length + 1) params).foldl dispositionParam head

/-- The parameters that `parse_content_disposition` reads. -/
def dispositionParams (value : Bytes) : List HttpParam :=
  headerParams ((value.dropWhile (· != 0x3b)).length + 1) (value.dropWhile (· != 0x3b))

theorem parseContentDisposition_eq (head : PartHead) (value : Bytes) :
    parseContentDisposition head value = (dispositionParams value).foldl dispositionParam head := rfl

theorem dispositionParams_written (kind : Bytes) (params : List WrittenParam) (tail : Bytes)
    (token : 0x3b ∉ kind) (valid : ∀ param ∈ params, param.Valid)
    (separators : ∀ b ∈ tail, isSeparator b = true) :
    dispositionParams (kind ++ (params.flatMap WrittenParam.text ++ tail)) =
      params.map WrittenParam.meaning := by
  have past : ∀ b ∈ kind, (b != 0x3b) = true := by
    intro b member
    rw [bne_iff_ne]
    rintro rfl
    exact token member
  rw [dispositionParams, dropWhile_append_of_pos past,
    headerParams_written valid separators (Nat.lt_succ_self _)]

/-- `parse_content_type`: only the first charset counts. -/
def parseContentType (head : PartHead) (value : Bytes) : PartHead :=
  let isType := fun c : UInt8 => c != 0x3b && !isOws c
  let params := value.dropWhile isType
  let head := { head with contentType := some (value.takeWhile isType) }
  match (headerParams (params.length + 1) params).find? fun param =>
      lower param.name == ascii "charset" with
  | none => head
  | some param => { head with charset := some (param.value.getD []) }

/-- A header that is complete: `strcasecmp` of its name with the two the processor looks for. -/
def PartHead.take (head : PartHead) (name value : Bytes) : PartHead :=
  if lower (cString name) = ascii "content-disposition" then
    parseContentDisposition head (cString value)
  else if lower (cString name) = ascii "content-type" then parseContentType head (cString value)
  else head

/-- `MP_MAX_FILENAME_LEN`. -/
def mpMaxFilenameLen : Nat := 4096

/-- `has_path_traversal_or_nul`, of a C string with its length. -/
def hasPathTraversalOrNul (filename : Bytes) : Bool :=
  filename.contains 0 || (strstr (ascii "..") filename).isSome || filename.head? == some 0x2f ||
    filename.head? == some 0x5c || filename[1]? == some 0x3a

/-- A name under which `on_headers_complete` accepts a file. -/
def validFilename (filename : Bytes) : Bool :=
  filename.length ≤ mpMaxFilenameLen && !hasPathTraversalOrNul filename

example : (PartHead.take {} (ascii "Content-Disposition")
    (ascii "form-data; name=\"a\"; filename*=UTF-8''b%20c")).filename = some (ascii "b c") := by
  decide +kernel

end TrueAsync.Formats

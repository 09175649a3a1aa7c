import TrueAsync.Formats.HeaderParams

/-!
# The name of a download

`sf_build_content_disposition` of `src/http_send_file.c` with the encoder of `src/http_rfc5987.c`, and
the way back through the parameter parser and the decoder.
-/

namespace TrueAsync.Static

open TrueAsync.Lib TrueAsync.Formats TrueAsync.Http1 List

/-- `HTTP_SEND_FILE_DISPOSITION_*`. -/
inductive Disposition where
  | inline
  | attachment
deriving DecidableEq, Repr

/-- What `http_send_file_options_t` says of the name of a download. -/
structure SendFileOptions where
  disposition : Disposition := .inline
  dispositionSet : Bool := false
  downloadName : Option Bytes := none
deriving DecidableEq, Repr

/-- `is_unreserved_or_attr`. -/
def isUnreservedOrAttr (c : UInt8) : Bool :=
  (0x41 ≤ c && c ≤ 0x5a) || (0x61 ≤ c && c ≤ 0x7a) || (0x30 ≤ c && c ≤ 0x39) ||
    c == 0x2d || c == 0x2e || c == 0x5f || c == 0x7e

/-- A digit of `hex_upper`. -/
def hexUpper (d : Nat) : UInt8 := UInt8.ofNat (if d < 10 then 0x30 + d else 0x37 + d)

/-- `http_rfc5987_encode`. -/
def httpRfc5987Encode (src : Bytes) : Bytes :=
  src.flatMap fun c =>
    if isUnreservedOrAttr c then [c]
    else [0x25, hexUpper (c.toNat / 16), hexUpper (c.toNat % 16)]

def isAsciiClean (c : UInt8) : Bool := !(c < 0x20 || 0x7f ≤ c || c == 0x22 || c == 0x5c)

/-- `sf_build_content_disposition`. -/
def sfBuildContentDisposition (opts : SendFileOptions) : Option Bytes :=
  let isAttachment :=
    opts.disposition = .attachment ∨ (opts.downloadName.isSome ∧ opts.dispositionSet = false)
  if ¬isAttachment ∧ opts.downloadName = none then none
  else
    let kind := if isAttachment then ascii "attachment" else ascii "inline"
    match opts.downloadName with
    | none => some kind
    | some name =>
      if name.all isAsciiClean then some (kind ++ ascii "; filename=\"" ++ name ++ [0x22])
      else some (kind ++ ascii "; filename*=UTF-8''" ++ httpRfc5987Encode name)

/-! ## The encoder and the decoder -/

theorem digitValue_hexUpper : ∀ d < 16, digitValue (hexUpper d) = some d := by decide

theorem isUnreservedOrAttr_percent (plain : isUnreservedOrAttr c = true) : c ≠ 0x25 := by
  rintro rfl
  exact absurd plain (by decide)

theorem httpRfc5987Decode_plain (percent : c ≠ 0x25) (rest : Bytes) :
    httpRfc5987Decode (c :: rest) = c :: httpRfc5987Decode rest := by
  rw [httpRfc5987Decode.eq_def]
  grind

theorem httpRfc5987Decode_escape (first : digitValue high = some h)
    (second : digitValue low = some l) (rest : Bytes) :
    httpRfc5987Decode (0x25 :: high :: low :: rest) =
      UInt8.ofNat (h * 16 + l) :: httpRfc5987Decode rest := by
  rw [httpRfc5987Decode, first, second]

theorem httpRfc5987Decode_encode (text : Bytes) :
    httpRfc5987Decode (httpRfc5987Encode text) = text := by
  induction text with
  | nil => rfl
  | cons c text ih =>
    rw [httpRfc5987Encode, flatMap_cons]
    split_ifs with plain
    · rw [singleton_append, httpRfc5987Decode_plain (isUnreservedOrAttr_percent plain)]
      exact congrArg (c :: ·) ih
    · have high := digitValue_hexUpper (c.toNat / 16) (by have := c.toNat_lt; omega)
      have low := digitValue_hexUpper (c.toNat % 16) (by omega)
      have both : UInt8.ofNat (c.toNat / 16 * 16 + c.toNat % 16) = c := by
        rw [Nat.div_add_mod', UInt8.ofNat_toNat]
      rw [cons_append, cons_append, cons_append, nil_append,
        httpRfc5987Decode_escape high low, both]
      exact congrArg (c :: ·) ih

theorem httpRfc5987Encode_token (text : Bytes) :
    ∀ b ∈ httpRfc5987Encode text, isTchar b = true := by
  have digits : ∀ d < 16, isTchar (hexUpper d) = true := by decide +kernel
  have plain : ∀ b : UInt8, isUnreservedOrAttr b = true → isTchar b = true :=
    byte_forall (by decide +kernel)
  intro b member
  obtain ⟨c, -, here⟩ := mem_flatMap.mp member
  split_ifs at here with unreserved
  · rw [mem_singleton.mp here]
    exact plain c unreserved
  · rcases mem_cons.mp here with rfl | here
    · decide +kernel
    rcases mem_cons.mp here with rfl | here
    · exact digits _ (by have := c.toNat_lt; omega)
    · rw [mem_singleton.mp here]
      exact digits _ (by omega)

/-! ## The way back -/

variable {name : Bytes}

theorem decodeRfc5987Value_encode (nul : 0 ∉ name) :
    decodeRfc5987Value (ascii "UTF-8''" ++ httpRfc5987Encode name) = some name := by
  have first : ascii "UTF-8''" ++ httpRfc5987Encode name =
      ascii "UTF-8" ++ 0x27 :: ([] ++ 0x27 :: httpRfc5987Encode name) := by
    have text : ascii "UTF-8''" = ascii "UTF-8" ++ [0x27, 0x27] := by rfl
    rw [text]
    simp
  have whole : cString name = name := by grind [cString, takeWhile_eq_self_iff]
  rw [decodeRfc5987Value, first, cutAt_append (by decide)]
  simp only
  rw [cutAt_append (by simp)]
  simp only [httpRfc5987Decode_encode, whole]

/-- The parameter that names the download. -/
def nameParam (name : Bytes) : WrittenParam :=
  if name.all isAsciiClean then ⟨ascii "; ", ascii "filename", name, true⟩
  else ⟨ascii "; ", ascii "filename*", ascii "UTF-8''" ++ httpRfc5987Encode name, false⟩

theorem nameParam_valid (name : Bytes) : (nameParam name).Valid := by
  have separators : (∀ b ∈ ascii "; ", isSeparator b = true) ∧ 0x3b ∈ ascii "; " := by decide
  have tokens : IsToken (ascii "filename") ∧ IsToken (ascii "filename*") ∧
      IsToken (ascii "UTF-8''") := by decide +kernel
  unfold nameParam
  split_ifs with clean
  · have text : ∀ b : UInt8, isAsciiClean b = true → isQdtext b = true :=
      byte_forall (by decide +kernel)
    refine ⟨separators.1, separators.2, tokens.1, ?_⟩
    exact fun b member => text b (all_eq_true.mp clean b member)
  · refine ⟨separators.1, separators.2, tokens.2.1, append_ne_nil_of_left_ne_nil tokens.2.2.1 _, ?_⟩
    exact forall_mem_append.mpr ⟨tokens.2.2.2, httpRfc5987Encode_token name⟩

theorem nameParam_quoted (name : Bytes) :
    WrittenParam.text ⟨ascii "; ", ascii "filename", name, true⟩ =
      ascii "; filename=\"" ++ name ++ [0x22] := by
  rfl

theorem nameParam_extended (encoded : Bytes) :
    WrittenParam.text ⟨ascii "; ", ascii "filename*", ascii "UTF-8''" ++ encoded, false⟩ =
      ascii "; filename*=UTF-8''" ++ encoded := by
  rfl

theorem sfBuildContentDisposition_name (named : opts.downloadName = some name) :
    ∃ kind, (kind = ascii "attachment" ∨ kind = ascii "inline") ∧
      sfBuildContentDisposition opts = some (kind ++ (nameParam name).text) := by
  refine ⟨if opts.disposition = .attachment ∨ opts.dispositionSet = false
    then ascii "attachment" else ascii "inline", ite_eq_or_eq _ _ _, ?_⟩
  simp only [sfBuildContentDisposition, named, nameParam]
  split_ifs <;> simp_all [nameParam_quoted, nameParam_extended]

def isControl (b : UInt8) : Bool := b < 0x20 || b == 0x7f

theorem filename_meaning (nul : 0 ∉ name) (head : PartHead) :
    (dispositionParam head (nameParam name).meaning).filename = some name := by
  unfold nameParam
  split_ifs
  · simp [WrittenParam.meaning, dispositionParam, show ascii "filename" ≠ ascii "name" by decide]
  · simp [WrittenParam.meaning, dispositionParam, decodeRfc5987Value_encode nul,
      show ascii "filename*" ≠ ascii "name" by decide,
      show ascii "filename*" ≠ ascii "filename" by decide]

theorem nameParam_shown (name : Bytes) : ∀ b ∈ (nameParam name).text, isControl b = false := by
  have tchar : ∀ b : UInt8, isTchar b = true → isControl b = false := byte_forall (by decide +kernel)
  have clean : ∀ b : UInt8, isAsciiClean b = true → isControl b = false :=
    byte_forall (by decide +kernel)
  have keys : (∀ b ∈ ascii "; filename=\"", isControl b = false) ∧
      ∀ b ∈ ascii "; filename*=UTF-8''", isControl b = false := by decide
  unfold nameParam
  split_ifs with allClean
  · rw [nameParam_quoted]
    refine forall_mem_append.mpr ⟨forall_mem_append.mpr ⟨keys.1, fun b member => ?_⟩, by decide⟩
    exact clean b (all_eq_true.mp allClean b member)
  · rw [nameParam_extended]
    exact forall_mem_append.mpr
      ⟨keys.2, fun b member => tchar b (httpRfc5987Encode_token name b member)⟩

/-- A download name is read back from the header value that was built for it, the value has no
control bytes, and the encoder of extended values is undone by the decoder. -/
theorem download_name_round_trip (opts : SendFileOptions) (name : Bytes)
    (named : opts.downloadName = some name) (nul : 0 ∉ name) :
    (∃ value, sfBuildContentDisposition opts = some value ∧
        (parseContentDisposition {} (cString value)).filename = some name ∧
          ∀ b ∈ value, isControl b = false) ∧
      ∀ text, httpRfc5987Decode (httpRfc5987Encode text) = text := by
  refine ⟨?_, httpRfc5987Decode_encode⟩
  obtain ⟨kind, either, built⟩ := sfBuildContentDisposition_name named
  have token : ∀ b ∈ kind, isControl b = false ∧ (b != 0x3b) = true := by
    rcases either with rfl | rfl <;> decide +kernel
  have visible : ∀ b ∈ kind ++ (nameParam name).text, isControl b = false :=
    forall_mem_append.mpr ⟨fun b member => (token b member).1, nameParam_shown name⟩
  have whole : cString (kind ++ (nameParam name).text) = kind ++ (nameParam name).text := by
    rw [cString, takeWhile_eq_self_iff]
    intro b member
    have shown := visible b member
    rw [decide_eq_true_eq]
    rintro rfl
    exact absurd shown (by decide)
  refine ⟨_, built, ?_, visible⟩
  have read := dispositionParams_written kind [nameParam name] []
    (fun member => absurd (token _ member).2 (by decide)) (by simp [nameParam_valid]) nofun
  rw [flatMap_singleton, append_nil] at read
  rw [whole, parseContentDisposition_eq, read]
  exact filename_meaning nul {}

/-- A name with a quote, a percent sign and a byte outside ASCII. -/
theorem download_name_read_back :
    ∃ value, sfBuildContentDisposition { downloadName := some [0x22, 0x25, 0xe9] } = some value ∧
      (parseContentDisposition {} (cString value)).filename = some [0x22, 0x25, 0xe9] := by
  obtain ⟨⟨value, built, read, -⟩, -⟩ := download_name_round_trip
    { downloadName := some [0x22, 0x25, 0xe9] } [0x22, 0x25, 0xe9] rfl (by decide)
  exact ⟨value, built, read⟩

end TrueAsync.Static

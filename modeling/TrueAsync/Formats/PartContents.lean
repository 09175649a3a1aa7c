import TrueAsync.Formats.MultipartFormChunking
import TrueAsync.Lib.Table

/-!
# What is recorded of a part

Within `Content-Disposition` the last of `filename` and `filename*` counts, whichever it is. The
processor is not told where a value is empty, so the name of a header without one and the next run
together.
`on_part_end` keeps the value of a field with `strdup` and its length beside it, and
`finalize_multipart` (`src/http1/http_parser.c`) copies that many bytes of it into the POST data,
where a later field of the same name takes its place.
-/

namespace TrueAsync.Formats

open TrueAsync.Lib List HttpParam

/-! ## The two file names -/

/-- A plain name of a file. -/
def HttpParam.isFilename (param : HttpParam) : Bool := param.name == ascii "filename"

/-- What a `filename*` that can be decoded says. -/
def HttpParam.extended (param : HttpParam) : Option Bytes :=
  if param.name = ascii "filename*" then decodeRfc5987Value (param.value.getD []) else none

theorem filename_dispositionParam (head : PartHead) (param : HttpParam) :
    (dispositionParam head param).filename =
      if param.isFilename then some (param.value.getD []) else param.extended.or head.filename := by
  have names : ascii "name" ≠ ascii "filename" ∧ ascii "name" ≠ ascii "filename*" ∧
      ascii "filename*" ≠ ascii "filename" := by decide
  unfold dispositionParam isFilename extended
  by_cases name : param.name = ascii "name"
  · simp [name, names]
  · by_cases star : param.name = ascii "filename*"
    · cases decoded : decodeRfc5987Value (param.value.getD []) <;>
        simp [star, names.2.1.symm, names.2.2]
    · simp only [name, star, if_false, Option.none_or, beq_iff_eq]
      split <;> rfl

theorem filename_foldl (head : PartHead) {params : List HttpParam}
    (plain : ∀ param ∈ params, param.extended = none) :
    (params.foldl dispositionParam head).filename =
      ((params.filter isFilename).getLast?.map (·.value.getD [])).or head.filename := by
  induction params generalizing head with
  | nil => rfl
  | cons param params ih =>
    obtain ⟨first, later⟩ := forall_mem_cons.mp plain
    rw [foldl_cons, ih _ later, filename_dispositionParam, first, filter_cons]
    split
    · cases last : (params.filter isFilename).getLast? <;>
        simp [getLast?_cons, last]
    · rfl

/-- The extended name is the recorded one exactly if no plain name comes after it, or the last that
does says the same. The parameters are those the grammar finds in the value, if it follows the
grammar and has no quoted pair. -/
theorem extended_filename_wins_iff (head : PartHead) (value : Bytes)
    (before after : List HttpParam) (star : HttpParam) {decoded : Bytes}
    (params : dispositionParams value = before ++ star :: after)
    (decodable : star.extended = some decoded) (last : ∀ param ∈ after, param.extended = none) :
    ((parseContentDisposition head value).filename = some decoded ↔
      ∀ param ∈ (after.filter isFilename).getLast?, param.value.getD [] = decoded) ∧
    ∀ kind (written : List WrittenParam) tail, value = kind ++ (written.flatMap WrittenParam.text ++ tail) →
      0x3b ∉ kind → (∀ param ∈ written, param.Valid) → (∀ b ∈ tail, isSeparator b = true) →
        before ++ star :: after = written.map WrittenParam.meaning := by
  have notPlain : star.isFilename = false := by
    cases plain : star.isFilename with
    | false => rfl
    | true =>
      have other : ascii "filename" ≠ ascii "filename*" := by decide
      rw [extended, if_neg (by rw [beq_iff_eq.mp plain]; exact other)] at decodable
      cases decodable
  have recorded : (parseContentDisposition head value).filename =
      ((after.filter isFilename).getLast?.map (·.value.getD [])).or (some decoded) := by
    rw [parseContentDisposition_eq, params, foldl_append, foldl_cons, filename_foldl _ last,
      filename_dispositionParam, notPlain, decodable]
    rfl
  constructor
  · rw [recorded]
    cases (after.filter isFilename).getLast? <;> simp
  · rintro kind written tail rfl token valid separators
    rw [← params, dispositionParams_written kind written tail token valid separators]

theorem extended_filename_last :
    (parseContentDisposition {} (ascii "form-data; filename=a; filename*=UTF-8''b")).filename =
      some (ascii "b") :=
  (extended_filename_wins_iff {} _ [⟨ascii "filename", some (ascii "a"), false⟩] []
    ⟨ascii "filename*", some (ascii "UTF-8''b"), false⟩ (by decide +kernel) (by decide +kernel)
    nofun).1.mpr nofun

/-- The plain name is recorded where it comes last, where the extended one is written in capitals,
and where it stands in a quoted string after an escaped quote. -/
theorem plain_filename_recorded :
    (parseContentDisposition {} (ascii "form-data; filename*=UTF-8''b; filename=a")).filename =
        some (ascii "a") ∧
      (parseContentDisposition {} (ascii "form-data; filename=a; FILENAME*=UTF-8''b")).filename =
        some (ascii "a") ∧
      (parseContentDisposition {}
          (ascii "form-data; filename=c; filename*=UTF-8''b; x=\"\\\"; filename=a\"")).filename =
        some (ascii "a\"") := by
  decide +kernel

/-! ## Names that run together -/

inductive HeaderKind
  | disposition
  | contentType
  | other
  deriving DecidableEq, Repr

def headerKind (name : Bytes) : HeaderKind :=
  if lower (cString name) = ascii "content-disposition" then .disposition
  else if lower (cString name) = ascii "content-type" then .contentType
  else .other

/-- What the headers of a part give it, each under its own name; one without a value gives
nothing. -/
def ownHead (head : PartHead) : List Header → PartHead
  | [] => head
  | (name, value) :: headers => ownHead (if value = [] then head else head.take name value) headers

/-- The names of some headers, and which of them have a value. -/
def headerLines (headers : List Header) : List (Bytes × Bool) :=
  headers.map fun header => (header.1, header.2 ≠ [])

/-- With the names without a value right before it every name is still of its own kind. -/
def OwnKinds : Bytes → List (Bytes × Bool) → Prop
  | _, [] => True
  | before, (name, false) :: lines => OwnKinds (before ++ name) lines
  | before, (name, true) :: lines =>
      headerKind (before ++ name) = headerKind name ∧ OwnKinds [] lines

theorem take_eq_iff (head : PartHead) (a b : Bytes) :
    (∀ value, value ≠ [] → head.take a value = head.take b value) ↔ headerKind a = headerKind b := by
  constructor
  · intro same
    have apart : ascii "x" ≠ ascii "y" := by decide
    have parse (text : Bytes) (one : text = ascii "x" ∨ text = ascii "y") :
        parseContentDisposition head (cString (text ++ ascii ";name=" ++ text)) =
            { head with fieldName := some text } ∧
          parseContentType head (cString (text ++ ascii ";name=" ++ text)) =
            { head with contentType := some text } := by
      rcases one with rfl | rfl <;> exact ⟨rfl, rfl⟩
    have x := same (ascii "x" ++ ascii ";name=" ++ ascii "x") (by decide)
    have y := same (ascii "y" ++ ascii ";name=" ++ ascii "y") (by decide)
    unfold PartHead.take at x y
    unfold headerKind
    grind
  · intro same value _
    unfold headerKind at same
    grind [PartHead.take]

/-- What the processor has after some names without a value and these headers. -/
def readFrom (before : Bytes) (head : PartHead) (headers : List Header) : PartHead :=
  let r := headers.foldl HeadReading.line ⟨before, [], head⟩
  if r.name ≠ [] ∧ r.value ≠ [] then r.head.take r.name r.value else r.head

variable {name value before : Bytes} {head : PartHead} {headers : List Header}
  {lines : List (Bytes × Bool)}

theorem readFrom_empty (named : name ≠ []) :
    readFrom before head ((name, []) :: headers) = readFrom (before ++ name) head headers := by
  simp [readFrom, HeadReading.line, HeadReading.nameBytes, named]

theorem readFrom_valued (named : name ≠ []) (later : ∀ line ∈ lines, line.1 ≠ [])
    (shape : headerLines headers <+: lines) (some : value ≠ []) :
    readFrom before head ((name, value) :: headers) =
      readFrom [] (head.take (before ++ name) value) headers := by
  cases headers with
  | nil => simp [readFrom, HeadReading.line, HeadReading.nameBytes, named, some]
  | cons header headers =>
    have next : header.1 ≠ [] := later _ (shape.subset mem_cons_self)
    simp [readFrom, HeadReading.line, HeadReading.nameBytes, named, some, next]

theorem readFrom_own (named : ∀ line ∈ lines, line.1 ≠ []) (own : OwnKinds before lines)
    (shape : headerLines headers <+: lines) : readFrom before head headers = ownHead head headers := by
  induction headers generalizing before head lines with
  | nil => exact if_neg fun taken => taken.2 rfl
  | cons header headers ih =>
    obtain ⟨name, value⟩ := header
    cases lines with
    | nil => cases prefix_nil.mp shape
    | cons line lines =>
      obtain ⟨rfl, tail⟩ := cons_prefix_cons.mp shape
      obtain ⟨first, later⟩ := forall_mem_cons.mp named
      by_cases empty : value = []
      · subst empty
        rw [readFrom_empty first]
        exact ih later own tail
      · obtain ⟨same, own⟩ : headerKind (before ++ name) = headerKind name ∧ OwnKinds [] lines := by
          simpa [OwnKinds, empty] using own
        rw [readFrom_valued first later tail empty, ownHead, if_neg empty,
          (take_eq_iff head _ name).mpr same value empty]
        exact ih later own tail

theorem ownKinds_of_read (named : ∀ line ∈ lines, line.1 ≠ [])
    (own : ∀ headers, headerLines headers <+: lines →
      readFrom before head headers = ownHead head headers) : OwnKinds before lines := by
  induction lines generalizing before head with
  | nil => trivial
  | cons line lines ih =>
    obtain ⟨name, valued⟩ := line
    obtain ⟨first, later⟩ := forall_mem_cons.mp named
    cases valued with
    | false =>
      apply ih later
      intro headers shape
      rw [← readFrom_empty first]
      exact own ((name, []) :: headers) (cons_prefix_cons.mpr ⟨rfl, shape⟩)
    | true =>
      have taken (value : Bytes) (some : value ≠ []) (headers : List Header)
          (shape : headerLines headers <+: lines) :
          readFrom [] (head.take (before ++ name) value) headers =
            ownHead (head.take name value) headers := by
        have read := own ((name, value) :: headers)
          (cons_prefix_cons.mpr ⟨congrArg (name, ·) (decide_eq_true some), shape⟩)
        rwa [readFrom_valued first later shape some, ownHead, if_neg some] at read
      have same := (take_eq_iff head (before ++ name) name).mp
        fun value some => taken value some [] nil_prefix
      have rest := taken (ascii "x") (by decide)
      rw [(take_eq_iff head _ name).mpr same _ (by decide)] at rest
      exact ⟨same, ih later rest⟩

def headEvents (headers : List Header) : List Event :=
  .mark .partBegin :: (headers.flatMap fun header =>
    pieces .headerField header.1 ++ pieces .headerValue header.2) ++ [.mark .headersComplete]

theorem headEvents_reports (headers : List Header) :
    Reports (headEvents headers) (openTicks headers []) := by
  refine .signal .partBegin (.append ?_ (.signal .headersComplete .nil))
  induction headers with
  | nil => exact .nil
  | cons header headers ih =>
    exact ((Reports.pieces .headerField header.1).append (.pieces .headerValue header.2)).append ih

/-- A part is given what its own headers say, whatever their values and however the calls are cut,
exactly if no name is taken for another kind together with the names without a value before it. -/
theorem part_head_own_iff (config : MpConfig) (env : UploadEnv) (lines : List (Bytes × Bool))
    (named : ∀ line ∈ lines, line.1 ≠ []) :
    (∀ headers, headerLines headers <+: lines → ∀ proc events,
      Reports events (openTicks headers []) →
        (told (MpProcessor.callbacks config env) proc events).head = ownHead {} headers) ↔
      OwnKinds [] lines := by
  have recorded {headers : List Header} (proc : MpProcessor) {events : List Event}
      (reports : Reports events (openTicks headers [])) :
      (told (MpProcessor.callbacks config env) proc events).head = readFrom [] {} headers := by
    obtain ⟨dataEvents, dataReports, -, same⟩ := open_told config env reports
    rw [same, dataReports.eq_nil]
    exact (proc.opened_spec config env headers).head
  constructor
  · intro own
    apply ownKinds_of_read named
    intro headers shape
    have reports := headEvents_reports headers
    exact (recorded {} reports).symm.trans (own headers shape {} _ reports)
  · intro own headers shape proc events reports
    rw [recorded proc reports, readFrom_own named own shape]

def twoHeaders (value : Bytes) : List Header :=
  [(ascii "X-A", value), (ascii "Content-Disposition", ascii "form-data; name=f")]

theorem part_head_own_valued :
    (told (MpProcessor.callbacks {} plainDisk) {} (headEvents (twoHeaders (ascii "1")))).head =
      { fieldName := some (ascii "f") } :=
  (part_head_own_iff {} plainDisk (headerLines (twoHeaders (ascii "1"))) (by decide)).mpr
    ⟨rfl, rfl, trivial⟩ _ (prefix_refl _) {} _ (headEvents_reports _)

/-- After a header without a value the part has no name. -/
theorem empty_header_hides_name :
    Reports (headEvents (twoHeaders [])) (openTicks (twoHeaders []) []) ∧
      (told (MpProcessor.callbacks {} plainDisk) {} (headEvents (twoHeaders []))).head = {} ∧
      ownHead {} (twoHeaders []) = { fieldName := some (ascii "f") } :=
  ⟨headEvents_reports _, by decide +kernel, by decide +kernel⟩

/-! ## The values of fields -/

/-- `ZVAL_STRINGL` of a field, whose buffer ends with the first NUL; nothing, if it is read past its
end. -/
def MpFieldInfo.postValue (info : MpFieldInfo) : Option Bytes :=
  if info.valueLen ≤ info.value.length + 1 then some ((info.value ++ [0]).take info.valueLen)
  else none

/-- The POST data that `finalize_multipart` makes of the fields. -/
def finalizeMultipart (fields : List MpFieldInfo) : Table Bytes (Option Bytes) :=
  fields.foldl (fun post info => post.update info.name info.postValue) []

abbrev Part.content (part : Part) : Bytes := part.data.flatMap Segment.text

/-- The name of a part that is a field. -/
def Part.fieldName (part : Part) : Option Bytes :=
  match (readHead part.headers).filename with
  | some _ => none
  | none => (readHead part.headers).fieldName

/-- The entry of a field has its name and, if the content is within the limit, all of its length. -/
structure Records (config : MpConfig) (part : Part) (info : MpFieldInfo) : Prop where
  name : part.fieldName = some info.name
  value : part.content.length ≤ config.fieldLimit →
    info = ⟨info.name, cString part.content, part.content.length⟩

variable {config : MpConfig} {env : UploadEnv} {proc : MpProcessor} {events : List Event}
  {part : Part}

theorem postValue_cString (body : Bytes) : MpFieldInfo.postValue ⟨name, cString body, body.length⟩ =
      if 0 ∈ body.dropLast then none else some body := by
  obtain ⟨split, clean, stops⟩ := span_spec (· ≠ 0) body
  have noNul : 0 ∉ cString body := fun member => absurd (clean 0 member) (by decide)
  rw [MpFieldInfo.postValue]
  generalize body.dropWhile (· ≠ 0) = rest at split stops
  change body = cString body ++ rest at split
  generalize cString body = text at split noNul
  subst split
  cases rest with
  | nil =>
    have absent : 0 ∉ text.dropLast := fun member => noNul (dropLast_subset _ member)
    simp [absent]
  | cons b rest =>
    obtain rfl : b = 0 := by simpa using stops b rfl
    cases rest with
    | nil => simp [noNul, take_of_length_le]
    | cons c rest =>
      have beyond : ¬ (text ++ 0 :: c :: rest).length ≤ text.length + 1 := by simp
      rw [if_neg beyond, dropLast_append_of_ne_nil (cons_ne_nil _ _)]
      simp

theorem Records.postValue {info : MpFieldInfo} (records : Records config part info)
    (fits : part.content.length ≤ config.fieldLimit) : info.postValue =
      if 0 ∈ part.content.dropLast then none else some part.content := by
  rw [records.value fits]
  exact postValue_cString _

end TrueAsync.Formats

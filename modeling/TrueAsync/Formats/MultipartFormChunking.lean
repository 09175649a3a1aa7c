import TrueAsync.Formats.MultipartPart

/-!
# Forms and the network

How a body is cut into buffers should not matter to the form that is made of it. The limits on the
size of a field and of a file are applied to each piece of data as it comes, so it does matter for
a part in which a limit falls within bytes that may come in one piece.
-/

namespace TrueAsync.Formats

open TrueAsync.Lib MpProcessor

variable {config : MpConfig} {env : UploadEnv} {proc : MpProcessor}

/-- An uploaded file as an application sees it: its entry, and what is in the temporary file. -/
def MpProcessor.upload (proc : MpProcessor) (info : MpFileInfo) : MpFileInfo × Option Bytes :=
  ({ info with tmpPath := none }, info.tmpPath.bind proc.disk.cell)

/-- The form in a body: the fields, the files, and the state of the parser with its error. -/
def formOf (config : MpConfig) (env : UploadEnv) (parser : MultipartParser) (chunks : List Bytes) :
    List MpFieldInfo × List (MpFileInfo × Option Bytes) × MultipartParser :=
  let (parser, proc) := feedAll config env parser chunks
  (proc.fields, proc.files.map proc.upload, parser)

/-! ## Parts in different pieces -/

variable {events events' : List Event}

theorem part_told_eq {part : Part} (reports : Reports events part.ticks)
    (reports' : Reports events' part.ticks)
    (even : EvenPart config env part.data (proc.tally.kind config env (readHead part.headers))) :
    (told (callbacks config env) proc events).onPartBegin =
      (told (callbacks config env) proc events').onPartBegin := by
  obtain ⟨data, dataReports, same⟩ := part_told config env reports
  obtain ⟨data', dataReports', same'⟩ := part_told config env reports'
  have spec := proc.opened_spec config env part.headers
  rw [same, same']
  generalize proc.opened config env part.headers = opened at spec ⊢
  have isData := dataReports.isPartData
  have isData' := dataReports'.isPartData
  have ready := spec.data
  cases kind : proc.tally.kind config env (readHead part.headers) with
  | field =>
    rw [kind] at even ready
    have smooth : SmoothData config env part.data opened := by
      apply ready.1.smooth
      rw [ready.2]
      exact even
    rw [data_told dataReports smooth, data_told dataReports' smooth]
  | skipped =>
    rw [kind] at ready
    have noFile : opened.head.filename = none := ready.1.2.2
    have skip : opened.head.fieldName = none ∨ opened.fields.length ≥ config.fieldsLimit := by
      grind [Opened.head, tally, Tally.kind_noFile, Opened.fields]
    -- The value of the field differs, and is dropped.
    obtain ⟨value, sameData⟩ := ready.1.told config env isData
    obtain ⟨value', sameData'⟩ := ready.1.told config env isData'
    grind [onPartBegin, onPartEnd_skipped]
  | refused | noPath | stuck =>
    rw [kind] at ready
    rw [Closed.told ready isData, Closed.told ready isData']
  | upload n =>
    rw [kind] at even ready
    have smooth : SmoothData config env part.data opened :=
      ready.smooth (Segment.text_ne_nil_of_tick dataReports) even
    rw [data_told dataReports smooth, data_told dataReports' smooth]

variable {proc' : MpProcessor}

theorem told_part_congr {part : Part} (reports : Reports events part.ticks)
    (same : proc.onPartBegin = proc'.onPartBegin) : told (callbacks config env) proc events =
      told (callbacks config env) proc' events := by
  obtain ⟨data, _, split⟩ := part_told config env reports
  rw [split, split, opened, same]
  rfl

theorem parts_told_eq {parts : List Part} (reports : Reports events (parts.flatMap Part.ticks))
    (reports' : Reports events' (parts.flatMap Part.ticks))
    (same : proc.onPartBegin = proc'.onPartBegin) (even : EvenParts config env proc.tally parts) :
    (told (callbacks config env) proc events).onPartBegin =
      (told (callbacks config env) proc' events').onPartBegin := by
  induction parts generalizing proc proc' events events' with
  | nil =>
    rw [reports.eq_nil, reports'.eq_nil]
    exact same
  | cons part parts ih =>
    obtain ⟨first, second, rfl, here, later⟩ := reports.split_part
    obtain ⟨first', second', rfl, here', later'⟩ := reports'.split_part
    obtain ⟨evenHere, evenLater⟩ := even
    rw [told_append, told_append]
    apply ih later later'
    · rw [← told_part_congr here' same]
      exact part_told_eq here here' evenHere
    · rw [part_tally here]
      exact evenLater

/-! ## The rest of a body -/

theorem last_form (config : MpConfig) (env : UploadEnv) {last : Last} {lost : Bytes}
    (tells : TellsLast events ticks lost last) (listed : Listed proc) :
    (told (callbacks config env) proc events).fields = proc.fields ∧
      (told (callbacks config env) proc events).files.map
          (told (callbacks config env) proc events).upload = proc.files.map proc.upload := by
  have cases := last_told config env proc tells
  cases last with
  | nothing | closed =>
    rw [cases]
    exact ⟨rfl, rfl⟩
  | head headers name value broken =>
    obtain ⟨r, same⟩ := cases
    rw [same]
    exact ⟨rfl, rfl⟩
  | body headers data =>
    obtain ⟨dataEvents, dataReports, -, same⟩ := cases
    have spec := proc.opened_spec config env headers
    have kept := spec.kept env dataReports.isPartData
    have lists := told_sameLists config env (proc.opened config env headers)
      dataReports.isPartData
    rw [same]
    refine ⟨lists.fields.trans spec.fields, ?_⟩
    rw [lists.files, spec.files]
    apply List.map_congr_left
    intro info member
    unfold upload
    cases found : info.tmpPath with
    | none => rfl
    | some path =>
      rw [Option.bind_some, Option.bind_some, kept.cell path (listed info member path found)]

/-! ## Data within its limit -/

variable {data : List Segment}

theorem EvenPart.field_fits (within : dataLength data ≤ config.fieldLimit) :
    EvenPart config env data .field := by
  apply EvenData.of_fits id (· ≤ config.fieldLimit)
  · exact fun _ _ less => Nat.le_trans less
  · intro size length small
    exact if_neg (not_lt.mpr small)
  · rwa [zero_add]

theorem EvenPart.upload_fits (within : Fits config.fileLimit (env.room n) (dataLength data)) :
    EvenPart config env data (.upload n) := by
  apply EvenData.of_fits Upload.writing (Fits config.fileLimit (env.room n))
  · exact fun _ _ less small => small.mono less
  · grind [Upload.take_eq_writing_iff]
  · rwa [zero_add]

/-- Where every piece fares as its bytes do one by one, the form does not depend on the buffers. -/
theorem form_independent_of_chunks {boundary : Bytes} {parser : MultipartParser} {text : Bytes}
    {one other : List Bytes} (created : multipartParserInit boundary = some parser)
    (even : EvenParts config env {} (decode parser.boundary text).parts)
    (oneWhole : one.flatten = text) (otherWhole : other.flatten = text) :
    formOf config env parser one = formOf config env parser other := by
  obtain ⟨read, first, second, ticks, lost, parts, last, told⟩ :=
    feedAll_told config env created oneWhole
  obtain ⟨read', first', second', ticks', lost', parts', last', told'⟩ :=
    feedAll_told config env created otherWhole
  have between : (Formats.told (callbacks config env) {} first).onPartBegin =
      (Formats.told (callbacks config env) {} first').onPartBegin :=
    parts_told_eq parts parts' rfl even
  have none : Listed {} := List.forall_mem_nil _
  have form := last_form config env last (none.parts config env parts)
  have form' := last_form config env last' (none.parts config env parts')
  have sameFields := congrArg (·.fields) between
  have sameFiles := congrArg (fun proc => proc.files.map proc.upload) between
  unfold formOf
  dsimp only
  rw [read, read', told, told', form.1, form'.1, form.2, form'.2]
  exact Prod.ext sameFields (Prod.ext sameFiles rfl)

def plainDisk : UploadEnv := ⟨fun _ => true, fun _ => true, fun _ => none⟩

/-- A form with a field and a file, each as long as it may be. -/
theorem form_independent_of_chunks_full :
    formOf ⟨3, 2, 0, 0, false⟩ plainDisk { boundary := ascii "X" }
        [ascii ("--X\r\nContent-Disposition: form-data; name=a\r\n\r\nab\r\n--X\r\n" ++
          "Content-Disposition: form-data; name=f; filename=g\r\n\r\n\r\nc\r\n--X--")] =
      formOf ⟨3, 2, 0, 0, false⟩ plainDisk { boundary := ascii "X" }
        [ascii "--X\r\nContent-Disposition: form-data; name=a\r\n\r\na", ascii ("b\r\n--X\r\n" ++
          "Content-Disposition: form-data; name=f; filename=g\r\n\r\n\r"), ascii "\nc\r\n--X--"] := by
  have created : multipartParserInit (ascii "X") = some { boundary := ascii "X" } := by decide
  apply form_independent_of_chunks created _ List.flatten_singleton (by decide +kernel)
  have parts : (decode (ascii "X")
      (ascii ("--X\r\nContent-Disposition: form-data; name=a\r\n\r\nab\r\n--X\r\n" ++
        "Content-Disposition: form-data; name=f; filename=g\r\n\r\n\r\nc\r\n--X--"))).parts =
        [⟨[(ascii "Content-Disposition", ascii "form-data; name=a")], [.byte 97, .byte 98]⟩,
          ⟨[(ascii "Content-Disposition", ascii "form-data; name=f; filename=g")],
            [.held [13, 10], .byte 99]⟩] := by
    decide +kernel
  rw [parts]
  have field : Tally.kind ⟨3, 2, 0, 0, false⟩ plainDisk {}
      (readHead [(ascii "Content-Disposition", ascii "form-data; name=a")]) = .field := by
    decide +kernel
  have file : Tally.kind ⟨3, 2, 0, 0, false⟩ plainDisk ⟨0, 1, 0⟩
      (readHead [(ascii "Content-Disposition", ascii "form-data; name=f; filename=g")]) =
        .upload 0 := by
    decide +kernel
  simp only [EvenParts, field, Tally.add, file, and_true]
  exact ⟨.field_fits (by decide), .upload_fits ⟨by decide, by simp [plainDisk]⟩⟩

/-- A field of three bytes where two may be: in one piece nothing is kept, in two the first is. -/
theorem long_field_depends_on_chunks :
    formOf ⟨0, 2, 0, 0, false⟩ plainDisk { boundary := ascii "X" }
        [ascii "--X\r\nContent-Disposition: form-data; name=a\r\n\r\nabc\r\n--X--"] ≠
      formOf ⟨0, 2, 0, 0, false⟩ plainDisk { boundary := ascii "X" }
        [ascii "--X\r\nContent-Disposition: form-data; name=a\r\n\r\nab", ascii "c\r\n--X--"] := by
  intro same
  have fields := congrArg (·.1) same
  revert fields
  decide +kernel

end TrueAsync.Formats

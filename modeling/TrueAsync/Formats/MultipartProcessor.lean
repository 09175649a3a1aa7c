import TrueAsync.Formats.HeaderParams
import TrueAsync.Formats.MultipartParser
import TrueAsync.Lib.Heap

/-!
# The multipart processor

`src/formats/multipart_processor.c`: the callbacks that turn the events of the parser into form
fields, kept in memory, and uploaded files, written to temporary files. The temporary files are a
heap whose addresses are the names: `php_open_temporary_fd` picks a name that is not in use. What
the file system answers is in `UploadEnv`, by the number of the upload.

Memory does not run out: the branches of `str_append` and of the growing arrays for sizes beyond
`SIZE_MAX` cannot be reached, since what is appended and what is there are both in memory.
-/

namespace TrueAsync.Formats

open TrueAsync.Lib

/-- The `MP_UPLOAD_ERR_*` codes the processor sets. -/
inductive UploadError
  | ok
  | noFile
  | noTmpDir
  | cantWrite
  | tooManyFiles
  | invalidName
  | tooLarge
  deriving DecidableEq, Repr

/-- `mp_config_t`; a limit of 0 stands for its default. With a `tmp_path_generator` of the
application's own, a path comes without a file. -/
structure MpConfig where
  maxFileSize : Nat := 0
  maxFieldSize : Nat := 0
  maxFiles : Nat := 0
  maxFields : Nat := 0
  tmpPathGenerator : Bool := false
  deriving DecidableEq, Repr

def limitOr (default limit : Nat) : Nat := if limit > 0 then limit else default

/-- `MP_MAX_FILE_SIZE`. -/
def MpConfig.fileLimit (config : MpConfig) : Nat := limitOr (100 * 1024 * 1024) config.maxFileSize

/-- `MP_MAX_FIELD_VALUE_LEN`. -/
def MpConfig.fieldLimit (config : MpConfig) : Nat := limitOr (1024 * 1024) config.maxFieldSize

/-- `MP_MAX_FILES`. -/
def MpConfig.filesLimit (config : MpConfig) : Nat := limitOr 20 config.maxFiles

/-- `MP_MAX_FIELDS`. -/
def MpConfig.fieldsLimit (config : MpConfig) : Nat := limitOr 100 config.maxFields

/-- What the file system does with the n-th upload: whether a path can be had, whether `fopen`
succeeds, and how many bytes can be written, if there is a bound. -/
structure UploadEnv where
  generates : Nat → Bool
  opens : Nat → Bool
  room : Nat → Option Nat

/-- `mp_file_info_t`. -/
structure MpFileInfo where
  fieldName : Option Bytes
  clientFilename : Option Bytes
  clientMediaType : Option Bytes
  clientCharset : Option Bytes
  tmpPath : Option Nat
  size : Nat
  error : UploadError
  isReady : Bool
  deriving DecidableEq, Repr

/-- `mp_field_info_t`: the value is copied as a C string, its length is that of the buffer. -/
structure MpFieldInfo where
  name : Bytes
  value : Bytes
  valueLen : Nat
  deriving DecidableEq, Repr

/-- `mp_processor_t`, with the temporary files. `uploads` counts the paths asked for; a handle is
the number of its upload with the file behind it. -/
structure MpProcessor where
  currentHeaderName : Bytes := []
  currentHeaderValue : Bytes := []
  head : PartHead := {}
  fileHandle : Option (Nat × Nat) := none
  tmpPath : Option Nat := none
  fileSize : Nat := 0
  fieldValue : Bytes := []
  files : List MpFileInfo := []
  fields : List MpFieldInfo := []
  currentError : UploadError := .ok
  uploads : Nat := 0
  disk : Heap Bytes := .empty

namespace MpProcessor

variable (config : MpConfig) (env : UploadEnv)

/-! ## Callbacks -/

/-- `on_part_begin`. -/
def onPartBegin (proc : MpProcessor) : MpProcessor :=
  { proc with
    currentHeaderName := []
    currentHeaderValue := []
    head := {}
    fileHandle := none
    tmpPath := none
    fileSize := 0
    fieldValue := []
    currentError := .ok }

/-- `on_header_field`: a name after a value begins a new header. -/
def onHeaderField (text : Bytes) (proc : MpProcessor) : MpProcessor :=
  let proc :=
    if proc.currentHeaderValue.length > 0 then
      { proc with
        head := proc.head.take proc.currentHeaderName proc.currentHeaderValue
        currentHeaderName := []
        currentHeaderValue := [] }
    else proc
  { proc with currentHeaderName := proc.currentHeaderName ++ text }

/-- `on_header_value`. -/
def onHeaderValue (text : Bytes) (proc : MpProcessor) : MpProcessor :=
  { proc with currentHeaderValue := proc.currentHeaderValue ++ text }

/-- `generate_tmp_path` and `fopen`. Without a generator of the application's own the path comes
with an empty file, which stays when it cannot be opened. -/
def openUpload (proc : MpProcessor) : MpProcessor :=
  let n := proc.uploads
  let proc := { proc with uploads := n + 1 }
  if !env.generates n then { proc with currentError := .noTmpDir }
  else
    let path := proc.disk.next
    if env.opens n then
      { proc with
        disk := proc.disk.alloc []
        tmpPath := some path
        fileHandle := some (n, path)
        fileSize := 0 }
    else
      { proc with
        disk := if config.tmpPathGenerator then proc.disk else proc.disk.alloc []
        currentError := .cantWrite }

/-- `on_headers_complete` from the last header on. -/
def dispatchPart (proc : MpProcessor) : MpProcessor :=
  match proc.head.filename with
  | none => { proc with fieldValue := [] }
  | some [] => { proc with currentError := .noFile }
  | some filename =>
      if !validFilename filename then { proc with currentError := .invalidName }
      else if proc.files.length ≥ config.filesLimit then
        { proc with currentError := .tooManyFiles }
      else openUpload config env proc

/-- `on_headers_complete`. -/
def onHeadersComplete (proc : MpProcessor) : MpProcessor :=
  let head :=
    if proc.currentHeaderName.length > 0 ∧ proc.currentHeaderValue.length > 0 then
      proc.head.take proc.currentHeaderName proc.currentHeaderValue
    else proc.head
  dispatchPart config env { proc with head }

/-- `on_part_data` with an open file: what does not fit removes the file, and what cannot be
written in full closes it. -/
def writeUpload (n path : Nat) (text : Bytes) (proc : MpProcessor) : MpProcessor :=
  let limit := config.fileLimit
  if proc.fileSize > limit ∨ text.length > limit - proc.fileSize then
    { proc with
      currentError := .tooLarge
      fileHandle := none
      disk := match proc.tmpPath with
        | some path => proc.disk.free path
        | none => proc.disk }
  else
    let written := match env.room n with
      | none => text.length
      | some room => min text.length (room - proc.fileSize)
    let proc := { proc with disk := proc.disk.modify path (· ++ text.take written) }
    if written ≠ text.length then { proc with currentError := .cantWrite, fileHandle := none }
    else { proc with fileSize := proc.fileSize + text.length }

/-- `on_part_data` for a field: what does not fit is left out. -/
def appendField (text : Bytes) (proc : MpProcessor) : MpProcessor :=
  let limit := config.fieldLimit
  if proc.fieldValue.length > limit ∨ text.length > limit - proc.fieldValue.length then proc
  else { proc with fieldValue := proc.fieldValue ++ text }

/-- `on_part_data`. -/
def onPartData (text : Bytes) (proc : MpProcessor) : MpProcessor :=
  match proc.fileHandle with
  | some (n, path) => writeUpload config env n path text proc
  | none =>
      if proc.currentError = .ok ∧ proc.head.filename = none then appendField config text proc
      else proc

/-- The entry of `on_part_end` for a file. -/
def fileInfo (proc : MpProcessor) : MpFileInfo where
  fieldName := proc.head.fieldName
  clientFilename := proc.head.filename
  clientMediaType := proc.head.contentType
  clientCharset := proc.head.charset
  tmpPath := proc.tmpPath
  size := proc.fileSize
  error := proc.currentError
  isReady := proc.currentError = .ok

/-- `on_part_end`. -/
def onPartEnd (proc : MpProcessor) : MpProcessor :=
  let proc := { proc with fileHandle := none }
  match proc.head.filename, proc.head.fieldName with
  | some _, _ => { proc with files := proc.files ++ [proc.fileInfo], tmpPath := none }
  | none, some name =>
      if proc.fields.length ≥ config.fieldsLimit then proc
      else
        let info := ⟨name, cString proc.fieldValue, proc.fieldValue.length⟩
        { proc with fields := proc.fields ++ [info] }
  | none, none => proc

/-- `processor_callbacks`. -/
def callbacks : Callbacks MpProcessor
  | .mark .partBegin, proc => (0, proc.onPartBegin)
  | .mark .headersComplete, proc => (0, onHeadersComplete config env proc)
  | .mark .partEnd, proc => (0, onPartEnd config proc)
  | .mark .bodyEnd, proc => (0, proc)
  | .data .headerField text, proc => (0, onHeaderField text proc)
  | .data .headerValue text, proc => (0, onHeaderValue text proc)
  | .data .partData text, proc => (0, onPartData config env text proc)

/-! ## The end -/

/-- `mp_processor_cleanup_temp_files`. -/
def cleanupTempFiles (proc : MpProcessor) : MpProcessor :=
  { proc with disk := proc.files.foldl (fun disk info =>
      match info.tmpPath with
      | some path => disk.free path
      | none => disk) proc.disk }

/-- `mp_processor_destroy`: memory is released and an open file closed; what is left are the
temporary files. -/
def destroy (proc : MpProcessor) : Heap Bytes := proc.disk

end MpProcessor

/-- `mp_processor_feed` over a body in several calls, after `mp_processor_create`. -/
def feedAll (config : MpConfig) (env : UploadEnv) (parser : MultipartParser)
    (chunks : List Bytes) : MultipartParser × MpProcessor :=
  executeAll (MpProcessor.callbacks config env) chunks parser {}

end TrueAsync.Formats

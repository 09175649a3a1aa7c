import TrueAsync.Formats.MultipartChunking
import TrueAsync.Formats.MultipartProcessor

/-!
# The form in a body

What the processor makes of a body, part by part. A `Tally` of the parts so far decides with the
headers of a part what becomes of it: a field, an upload, or neither. The data of a part comes in
pieces, and a piece that does not fit is refused as a whole; so the form depends on the pieces
unless every piece fares as its bytes do one by one.
-/

namespace TrueAsync.Formats

open TrueAsync.Lib List MpProcessor Segment

/-! ## Headers -/

/-- The header that is being read, and those that have been taken. -/
structure HeadReading where
  name : Bytes := []
  value : Bytes := []
  head : PartHead := {}
  deriving DecidableEq, Repr

/-- Some bytes of a name: the first after a value begin a new header. -/
def HeadReading.nameBytes (text : Bytes) (r : HeadReading) : HeadReading :=
  let r := if r.value ≠ [] then ⟨[], [], r.head.take r.name r.value⟩ else r
  { r with name := r.name ++ text }

/-- A header line. After a line without a value its name and the next one run together. -/
def HeadReading.line (r : HeadReading) (header : Header) : HeadReading :=
  let r := if header.1 = [] then r else r.nameBytes header.1
  { r with value := r.value ++ header.2 }

def readHead (headers : List Header) : PartHead :=
  let r := headers.foldl HeadReading.line {}
  if r.name ≠ [] ∧ r.value ≠ [] then r.head.take r.name r.value else r.head

/-! ## What becomes of a part -/

/-- The parts so far: files and fields in the lists, and paths asked for. -/
structure Tally where
  files : Nat := 0
  fields : Nat := 0
  uploads : Nat := 0
  deriving DecidableEq, Repr

/-- What becomes of a part. A `stuck` file has a path, and cannot be opened. -/
inductive PartKind
  | field
  | skipped
  | refused
  | noPath
  | stuck
  | upload (n : Nat)
  deriving DecidableEq, Repr

variable (config : MpConfig) (env : UploadEnv)

def Tally.kind (tally : Tally) (head : PartHead) : PartKind :=
  match head.filename with
  | none => if head.fieldName = none ∨ tally.fields ≥ config.fieldsLimit then .skipped else .field
  | some filename =>
      if filename = [] ∨ !validFilename filename ∨ tally.files ≥ config.filesLimit then .refused
      else if !env.generates tally.uploads then .noPath
      else if env.opens tally.uploads then .upload tally.uploads
      else .stuck

def Tally.add (tally : Tally) : PartKind → Tally
  | .field => { tally with fields := tally.fields + 1 }
  | .skipped => tally
  | .refused => { tally with files := tally.files + 1 }
  | .noPath | .stuck | .upload _ =>
      { tally with files := tally.files + 1, uploads := tally.uploads + 1 }

/-- How far an upload has got. -/
inductive Upload
  | writing (size : Nat)
  | tooLarge (size : Nat)
  | short (size : Nat)
  deriving DecidableEq, Repr

def Upload.take (limit : Nat) (room : Option Nat) (length : Nat) : Upload → Upload
  | .writing size =>
      if size + length > limit then .tooLarge size
      else if room.any (· < size + length) then .short size
      else .writing (size + length)
  | done => done

def keepPiece (limit length size : Nat) : Nat :=
  if size + length > limit then size else size + length

def takeData {σ : Type} (take : Nat → σ → σ) (data : List Segment) (s : σ) : σ :=
  data.foldl (fun s segment => take segment.text.length s) s

def EvenData {σ : Type} (take : Nat → σ → σ) (data : List Segment) (s : σ) : Prop :=
  ∀ before text after, data = before ++ text.map .byte ++ after → text ≠ [] →
    take text.length (takeData take before s) =
      takeData take (text.map .byte) (takeData take before s)

def EvenPart (data : List Segment) : PartKind → Prop
  | .field => EvenData (keepPiece config.fieldLimit) data 0
  | .upload n => EvenData (Upload.take config.fileLimit (env.room n)) data (.writing 0)
  | _ => True

def EvenParts : Tally → List Part → Prop
  | _, [] => True
  | tally, part :: parts =>
      let kind := tally.kind config env (readHead part.headers)
      EvenPart config env part.data kind ∧ EvenParts (tally.add kind) parts

/-! ## Pieces -/

section

variable {events : List Event} {ticks later : List Tick}

theorem Reports.split_signal (reports : Reports events (ticks ++ .signal s :: later)) :
    ∃ first second, events = first ++ .mark s :: second ∧ Reports first ticks ∧
      Reports second later := by
  generalize whole : ticks ++ .signal s :: later = all at reports
  induction reports generalizing ticks with
  | nil => cases ticks <;> cases whole
  | signal s' rest ih =>
    cases ticks with
    | nil =>
      cases whole
      exact ⟨[], _, rfl, .nil, rest⟩
    | cons tick ticks =>
      cases whole
      obtain ⟨first, second, split, one, two⟩ := ih rfl
      exact ⟨.mark s' :: first, second, by rw [split]; rfl, one.signal s', two⟩
  | bytes kind some rest ih =>
    rename_i text
    rcases append_eq_append_iff.mp whole with ⟨more, left, right⟩ | ⟨more, left, right⟩
    · -- The signal cannot be one of the bytes.
      cases more with
      | nil =>
        have again : [] ++ Tick.signal s :: later = _ := right
        obtain ⟨first, second, split, one, two⟩ := ih again
        refine ⟨.data kind text :: first, second, by rw [split]; rfl, ?_, two⟩
        rw [append_nil] at left
        have joined := one.bytes kind some
        rwa [append_nil, left] at joined
      | cons tick more =>
        cases right
        have member : Tick.signal s ∈ text.map (.byte kind) := by grind
        grind
    · subst left
      obtain ⟨first, second, split, one, two⟩ := ih right.symm
      exact ⟨.data kind text :: first, second, by rw [split]; rfl, one.bytes kind some, two⟩
  | held some rest ih =>
    cases ticks with
    | nil => cases whole
    | cons tick ticks =>
      cases whole
      obtain ⟨first, second, split, one, two⟩ := ih rfl
      exact ⟨_ :: first, second, by rw [split]; rfl, one.held some, two⟩

theorem split_signal_bytes {lost : Bytes}
    (whole : before ++ lost.map (.byte .headerField) = ticks ++ .signal s :: later) :
    ∃ left, before = ticks ++ .signal s :: left ∧
      left ++ lost.map (.byte .headerField) = later := by
  rcases append_eq_append_iff.mp whole with ⟨more, left, right⟩ | ⟨more, left, right⟩
  · have member : Tick.signal s ∈ lost.map (.byte .headerField) := by grind
    grind
  · cases more with
    | nil =>
      have member : Tick.signal s ∈ lost.map (.byte .headerField) := by grind
      grind
    | cons tick more =>
      cases right
      exact ⟨more, left, rfl⟩

end

/-! ## Header lines in pieces -/

def HeadReading.tick (r : HeadReading) : Tick → HeadReading
  | .byte .headerField b => r.nameBytes [b]
  | .byte .headerValue b => { r with value := r.value ++ [b] }
  | _ => r

namespace HeadReading

variable (r : HeadReading)

theorem nameBytes_append (text more : Bytes) :
    r.nameBytes (text ++ more) = (r.nameBytes text).nameBytes more := by
  unfold nameBytes
  split <;> simp_all

theorem foldl_name {text : Bytes} (some : text ≠ []) :
    (text.map (.byte .headerField)).foldl tick r = r.nameBytes text := by
  induction text generalizing r with
  | nil => exact absurd rfl some
  | cons b text ih =>
    rw [map_cons, foldl_cons, tick]
    cases text with
    | nil => rfl
    | cons b' text =>
      rw [ih _ (cons_ne_nil _ _), ← nameBytes_append]
      rfl

theorem foldl_value (text : Bytes) :
    (text.map (.byte .headerValue)).foldl tick r = { r with value := r.value ++ text } := by
  induction text generalizing r with
  | nil => simp
  | cons b text ih =>
    rw [map_cons, foldl_cons, ih, tick]
    simp

theorem foldl_header (header : Header) : (headerTicks header).foldl tick r = r.line header := by
  grind [headerTicks, foldl_value, line, foldl_name]

theorem foldl_headers (headers : List Header) :
    (headers.flatMap headerTicks).foldl tick r = headers.foldl line r := by
  induction headers generalizing r with
  | nil => rfl
  | cons header headers ih => grind [foldl_header]

end HeadReading

namespace MpProcessor

def reading (proc : MpProcessor) : HeadReading :=
  ⟨proc.currentHeaderName, proc.currentHeaderValue, proc.head⟩

def withReading (proc : MpProcessor) (r : HeadReading) : MpProcessor :=
  { proc with currentHeaderName := r.name, currentHeaderValue := r.value, head := r.head }

theorem onHeaderField_eq (text : Bytes) (proc : MpProcessor) :
    onHeaderField text proc = proc.withReading (proc.reading.nameBytes text) := by
  unfold onHeaderField HeadReading.nameBytes
  by_cases empty : proc.currentHeaderValue = []
  · simp [empty, reading, withReading]
  · simp [length_pos_iff.mpr empty, empty, reading, withReading]

end MpProcessor

def Tick.ofHeader : Tick → Bool
  | .byte .headerField _ | .byte .headerValue _ => true
  | _ => false

variable {config env} {events : List Event} {ticks : List Tick} {proc : MpProcessor}

theorem headers_told (reports : Reports events ticks) (ofHeader : ∀ t ∈ ticks, t.ofHeader = true) :
    told (callbacks config env) proc events =
      proc.withReading (ticks.foldl HeadReading.tick proc.reading) := by
  induction reports generalizing proc with
  | nil => rfl
  | signal s _ _ | held _ _ _ => exact absurd (ofHeader _ mem_cons_self) nofun
  | bytes kind some _ ih =>
    rename_i text _
    have later := forall_mem_append.mp ofHeader
    obtain ⟨b, member⟩ := exists_mem_of_ne_nil text some
    have isHeader := later.1 (.byte kind b) (mem_map_of_mem member)
    rw [told, foldl_cons, foldl_append]
    have first : (callbacks config env (.data kind text) proc).2 =
        proc.withReading ((text.map (.byte kind)).foldl HeadReading.tick proc.reading) := by
      cases kind with
      | headerField =>
        rw [HeadReading.foldl_name _ some]
        exact onHeaderField_eq text proc
      | headerValue =>
        rw [HeadReading.foldl_value]
        rfl
      | partData => cases isHeader
    rw [first]
    exact ih later.2

/-! ## Data in pieces -/

def tellData (config : MpConfig) (env : UploadEnv) (data : List Segment) (proc : MpProcessor) :
    MpProcessor :=
  data.foldl (fun proc segment => onPartData config env segment.text proc) proc

theorem tellData_cons (segment : Segment) (data : List Segment) :
    tellData config env (segment :: data) proc =
      tellData config env data (onPartData config env segment.text proc) := rfl

theorem tellData_append (more : List Segment) : tellData config env (data ++ more) proc =
      tellData config env more (tellData config env data proc) := foldl_append

def SmoothData (config : MpConfig) (env : UploadEnv) (data : List Segment) (proc : MpProcessor) :
    Prop :=
  ∀ before text after, data = before ++ text.map .byte ++ after → text ≠ [] →
    onPartData config env text (tellData config env before proc) =
      tellData config env (text.map .byte) (tellData config env before proc)

variable {data : List Segment}

theorem SmoothData.append (smooth : SmoothData config env (data ++ more) proc) :
    SmoothData config env more (tellData config env data proc) := by
  intro before text after split some
  rw [← tellData_append]
  apply smooth (data ++ before) text after _ some
  rw [split]
  simp

theorem SmoothData.tail {segment : Segment}
    (smooth : SmoothData config env (segment :: data) proc) :
    SmoothData config env data (onPartData config env segment.text proc) := by
  have whole : SmoothData config env ([segment] ++ data) proc := smooth
  exact whole.append

theorem map_tick_bytes {text : Bytes} (same : data.map tick = text.map (.byte kind))
    (some : text ≠ []) : kind = .partData ∧ data = text.map .byte := by
  induction data generalizing text with
  | nil => simp_all
  | cons segment data ih =>
    cases text with
    | nil => exact absurd rfl some
    | cons b text =>
      rw [map_cons, map_cons, cons.injEq] at same
      cases segment with
      | held _ => exact absurd same.1 nofun
      | byte b' =>
        cases same.1
        refine ⟨rfl, ?_⟩
        cases text with
        | nil =>
          rw [map_eq_nil_iff.mp same.2]
          rfl
        | cons _ _ => rw [(ih same.2 (cons_ne_nil _ _)).2]; rfl

/-- The calls for the data of a part, each for a held prefix or for some of its bytes. -/
inductive DataReports : List Event → List Segment → Prop
  | nil : DataReports [] []
  | held {later rest} {text : Bytes} (some : text ≠ []) (reports : DataReports later rest) :
      DataReports (.data .partData text :: later) (.held text :: rest)
  | bytes {later rest} {text : Bytes} (some : text ≠ []) (reports : DataReports later rest) :
      DataReports (.data .partData text :: later) (text.map .byte ++ rest)

theorem Reports.ofData (reports : Reports events (data.map tick)) : DataReports events data := by
  generalize whole : data.map tick = all at reports
  induction reports generalizing data with
  | nil =>
    rw [map_eq_nil_iff.mp whole]
    exact .nil
  | signal s _ _ =>
    cases data with
    | nil => cases whole
    | cons segment data => cases segment <;> cases whole
  | held some _ ih =>
    cases data with
    | nil => cases whole
    | cons segment data =>
      cases segment with
      | byte b => cases whole
      | held text =>
        cases whole
        exact (ih rfl).held some
  | bytes kind some _ ih =>
    obtain ⟨first, rest, rfl, here, there⟩ := map_eq_append_iff.mp whole
    obtain ⟨rfl, rfl⟩ := map_tick_bytes here some
    exact (ih there).bytes some

theorem data_told (reports : Reports events (data.map tick))
    (smooth : SmoothData config env data proc) :
    told (callbacks config env) proc events = tellData config env data proc := by
  replace reports := reports.ofData
  induction reports generalizing proc with
  | nil => rfl
  | held some _ ih => exact ih smooth.tail
  | bytes some _ ih =>
    have piece := smooth [] _ _ rfl some
    rw [tellData_append, ← ih smooth.append]
    exact congrArg (told _ · _) piece

/-! ### Fields -/

section

variable {limit size : Nat}

theorem le_takeData_keep (data : List Segment) : size ≤ takeData (keepPiece limit) data size := by
  induction data generalizing size with
  | nil => exact le_rfl
  | cons segment data ih =>
    have first : size ≤ keepPiece limit segment.text.length size := by
      unfold keepPiece
      split <;> omega
    exact first.trans ih

end

def InField (proc : MpProcessor) : Prop :=
  proc.fileHandle = none ∧ proc.currentError = .ok ∧ proc.head.filename = none

section

variable (inField : InField proc)
include inField

theorem InField.onPartData (text : Bytes) : onPartData config env text proc =
      if proc.fieldValue.length + text.length > config.fieldLimit then proc
      else { proc with fieldValue := proc.fieldValue ++ text } := by
  obtain ⟨handle, error, filename⟩ := inField
  grind [onPartData, appendField]

theorem InField.tellData (data : List Segment) :
    ∃ value, tellData config env data proc = { proc with fieldValue := value } ∧
      value.length = takeData (keepPiece config.fieldLimit) data proc.fieldValue.length := by
  induction data generalizing proc with
  | nil => exact ⟨proc.fieldValue, rfl, rfl⟩
  | cons segment data ih =>
    rw [tellData_cons, inField.onPartData]
    have step : takeData (keepPiece config.fieldLimit) (segment :: data) proc.fieldValue.length =
        takeData (keepPiece config.fieldLimit) data
          (keepPiece config.fieldLimit segment.text.length proc.fieldValue.length) := rfl
    rw [step, keepPiece]
    split
    · exact ih inField
    · have next : InField { proc with fieldValue := proc.fieldValue ++ segment.text } := inField
      obtain ⟨value, same, length⟩ := ih next
      refine ⟨value, same, ?_⟩
      rw [length, length_append]

theorem InField.data_fits
    (fits : proc.fieldValue.length + (data.flatMap text).length ≤ config.fieldLimit) :
    Formats.tellData config env data proc =
      { proc with fieldValue := proc.fieldValue ++ data.flatMap text } := by
  induction data generalizing proc with
  | nil => simp [Formats.tellData]
  | cons segment data ih =>
    rw [flatMap_cons, length_append] at fits
    have next : InField { proc with fieldValue := proc.fieldValue ++ segment.text } := inField
    rw [tellData_cons, inField.onPartData, if_neg (by omega),
      ih next (by rw [length_append]; omega)]
    simp

theorem InField.bytes_refused (text : Bytes) (full : config.fieldLimit ≤ proc.fieldValue.length) :
    Formats.tellData config env (text.map .byte) proc = proc := by
  induction text with
  | nil => rfl
  | cons b text ih =>
    rw [map_cons, tellData_cons, inField.onPartData, if_pos (by simp [Segment.text]; omega)]
    exact ih

theorem InField.smooth (even : EvenData (keepPiece config.fieldLimit) data proc.fieldValue.length) :
    SmoothData config env data proc := by
  intro before text after split some
  obtain ⟨value, same, length⟩ :
      ∃ value, Formats.tellData config env before proc = { proc with fieldValue := value } ∧
        value.length = takeData (keepPiece config.fieldLimit) before proc.fieldValue.length :=
    inField.tellData before
  have fare := even before text after split some
  rw [← length] at fare
  have there : InField (Formats.tellData config env before proc) := by
    rw [same]
    exact inField
  have here : (Formats.tellData config env before proc).fieldValue = value := by rw [same]
  rw [there.onPartData, here]
  split
  · rename_i exceeds
    rw [keepPiece, if_pos exceeds] at fare
    cases text with
    | nil => exact absurd rfl some
    | cons b text =>
      have full : config.fieldLimit ≤ value.length := by
        by_contra room
        have first : keepPiece config.fieldLimit 1 value.length = value.length + 1 :=
          if_neg (by omega)
        have grows : value.length + 1 ≤
            takeData (keepPiece config.fieldLimit) ((b :: text).map .byte) value.length := by
          rw [← first]
          exact le_takeData_keep (text.map .byte)
        omega
      rw [there.bytes_refused _ (by rw [here]; exact full)]
  · have bytes : (text.map Segment.byte).flatMap Segment.text = text := by
      simp [flatMap_map, Segment.text]
    rw [there.data_fits (by rw [bytes, here]; omega), here, bytes]

end

/-! ### Uploads -/

/-- The processor is writing to a file. -/
structure InUpload (proc : MpProcessor) (n path size : Nat) : Prop where
  handle : proc.fileHandle = some (n, path)
  path : proc.tmpPath = some path
  size : proc.fileSize = size

def Closed (proc : MpProcessor) : Prop := proc.fileHandle = none ∧ proc.currentError ≠ .ok

variable {n path size : Nat} {text : Bytes}

namespace Closed

theorem onPartData (closed : Closed proc) (text : Bytes) :
    onPartData config env text proc = proc := by
  obtain ⟨handle, error⟩ := closed
  grind [onPartData]

theorem tellData (closed : Closed proc) (data : List Segment) :
    tellData config env data proc = proc :=
  foldl_fixed' (fun segment => closed.onPartData segment.text) data

end Closed

def MpProcessor.dropped (proc : MpProcessor) (path : Nat) : MpProcessor :=
  { proc with currentError := .tooLarge, fileHandle := none, disk := proc.disk.free path }

def MpProcessor.cutShort (proc : MpProcessor) (path : Nat) (text : Bytes) : MpProcessor :=
  { proc with
    disk := proc.disk.modify path (· ++ text)
    currentError := .cantWrite
    fileHandle := none }

def MpProcessor.written (proc : MpProcessor) (path : Nat) (text : Bytes) : MpProcessor :=
  { proc with
    disk := proc.disk.modify path (· ++ text)
    fileSize := proc.fileSize + text.length }

theorem Upload.take_writing (limit : Nat) (room : Option Nat) (length size : Nat) :
    Upload.take limit room length (.writing size) = if size + length > limit then .tooLarge size
      else if room.any (· < size + length) then .short size else .writing (size + length) := rfl

namespace InUpload

theorem onPartData (inUpload : InUpload proc n path size) (some : text ≠ []) :
    onPartData config env text proc =
      match Upload.take config.fileLimit (env.room n) text.length (.writing size) with
      | .writing _ => proc.written path text
      | .tooLarge _ => proc.dropped path
      | .short _ => proc.cutShort path (text.take ((env.room n).getD 0 - size)) := by
  obtain ⟨handle, tmpPath, rfl⟩ := inUpload
  cases proc
  cases handle
  cases tmpPath
  have pos := length_pos_iff.mpr some
  simp only [onPartData, writeUpload, Upload.take_writing]
  rename_i fileSize _ _ _ _ _ _
  by_cases exceeds : fileSize + text.length > config.fileLimit
  · rw [if_pos exceeds, if_pos (by omega)]
    rfl
  · grind [written, cutShort]

theorem written (inUpload : InUpload proc n path size) (text : Bytes) :
    InUpload (proc.written path text) n path (size + text.length) :=
  { inUpload with size := by rw [MpProcessor.written, inUpload.size] }

end InUpload

theorem MpProcessor.written_written (more : Bytes) :
    (proc.written path text).written path more = proc.written path (text ++ more) := by
  simp [written, Heap.modify_modify, add_assoc]

theorem Upload.take_cases (limit : Nat) (room : Option Nat) (length size : Nat) :
    Upload.take limit room length (.writing size) = .writing (size + length) ∨
      Upload.take limit room length (.writing size) = .tooLarge size ∨
      Upload.take limit room length (.writing size) = .short size := by
  rw [take_writing]
  split_ifs <;> simp

def Upload.sofar : Upload → Nat
  | .writing size | .tooLarge size | .short size => size

variable {room : Option Nat} {limit : Nat} {u : Upload}

theorem Upload.take_done {length : Nat} (done : ∀ size, u ≠ .writing size) :
    u.take limit room length = u := by
  cases u with
  | writing size => exact absurd rfl (done size)
  | tooLarge size => rfl
  | short size => rfl

theorem Upload.takeData_done (done : ∀ size, u ≠ .writing size) (data : List Segment) :
    takeData (Upload.take limit room) data u = u :=
  foldl_fixed' (fun _ => take_done done) data

theorem Upload.sofar_le_takeData (u : Upload) :
    u.sofar ≤ (takeData (Upload.take limit room) data u).sofar := by
  induction data generalizing u with
  | nil => exact le_rfl
  | cons segment data ih =>
    have first : u.sofar ≤ (u.take limit room segment.text.length).sofar := by
      cases u with
      | writing size => grind [Upload.take_cases, Upload.sofar]
      | tooLarge size | short size => exact le_rfl
    exact first.trans (ih _)

/-- How the processor stands in an upload that has got so far. -/
def Uploading (n path : Nat) (proc : MpProcessor) : Upload → Prop
  | .writing size => InUpload proc n path size
  | _ => Closed proc

theorem Segment.text_ne_nil_of_tick
    (reports : Reports events (data.map tick)) : ∀ segment ∈ data, segment.text ≠ [] := by
  replace reports := reports.ofData
  induction reports with
  | nil => exact forall_mem_nil _
  | held some _ ih => exact forall_mem_cons.mpr ⟨some, ih⟩
  | bytes some _ ih =>
    apply forall_mem_append.mpr ⟨_, ih⟩
    intro segment member
    obtain ⟨b, _, rfl⟩ := mem_map.mp member
    exact cons_ne_nil _ _

theorem Uploading.onPartData (uploading : Uploading n path proc u) (some : text ≠ []) :
    Uploading n path (onPartData config env text proc)
      (u.take config.fileLimit (env.room n) text.length) := by
  cases u with
  | writing size =>
    rw [InUpload.onPartData uploading some]
    rcases Upload.take_cases config.fileLimit (env.room n) text.length size with
      next | next | next
    · rw [next]
      exact .written uploading text
    · rw [next]
      exact ⟨rfl, nofun⟩
    · rw [next]
      exact ⟨rfl, nofun⟩
  | tooLarge size | short size =>
    rw [Closed.onPartData uploading]
    exact uploading

theorem Uploading.tellData (uploading : Uploading n path proc u)
    (full : ∀ segment ∈ data, segment.text ≠ []) : Uploading n path (tellData config env data proc)
      (takeData (Upload.take config.fileLimit (env.room n)) data u) := by
  induction data generalizing proc u with
  | nil => exact uploading
  | cons segment data ih =>
    obtain ⟨first, later⟩ := forall_mem_cons.mp full
    exact ih (uploading.onPartData first) later

def Fits (limit : Nat) (room : Option Nat) (total : Nat) : Prop :=
  total ≤ limit ∧ ∀ r, room = some r → total ≤ r

theorem Upload.take_eq_writing_iff (limit : Nat) (room : Option Nat) (length size : Nat) :
    Upload.take limit room length (.writing size) = .writing (size + length) ↔
      Fits limit room (size + length) := by
  rw [take_writing, Fits]
  cases room with
  | none => simp
  | some r => grind

theorem Fits.mono (fits : Fits limit room total) (le : less ≤ total) : Fits limit room less :=
  ⟨le.trans fits.1, fun r found => le.trans (fits.2 r found)⟩

theorem InUpload.bytes_fit (inUpload : InUpload proc n path size)
    (fits : Fits config.fileLimit (env.room n) (size + text.length)) (some : text ≠ []) :
    Formats.tellData config env (text.map .byte) proc = proc.written path text := by
  induction text generalizing proc size with
  | nil => exact absurd rfl some
  | cons b text ih =>
    rw [length_cons] at fits
    have fitsFirst := (Upload.take_eq_writing_iff _ _ 1 size).mpr (fits.mono (by omega))
    have first : MpProcessor.onPartData config env [b] proc = proc.written path [b] := by
      rw [inUpload.onPartData (cons_ne_nil _ _), length_singleton, fitsFirst]
    rw [map_cons, tellData_cons, Segment.text, first]
    cases text with
    | nil => rfl
    | cons b' text =>
      have next := inUpload.written [b]
      have fitsNext : Fits config.fileLimit (env.room n) (size + [b].length + (b' :: text).length) := by
        apply fits.mono
        simp only [length_singleton]
        omega
      rw [ih next fitsNext (cons_ne_nil _ _), MpProcessor.written_written]
      rfl

theorem takeData_byte (take : Nat → σ → σ) (b : UInt8) (text : Bytes) (s : σ) :
    takeData take ((b :: text).map .byte) s = takeData take (text.map .byte) (take 1 s) := rfl

theorem Upload.first_byte
    (fare : takeData (Upload.take limit room) (text.map .byte) (.writing size) = u)
    (some : text ≠ []) (same : u.sofar = size) : Upload.take limit room 1 (.writing size) = u := by
  cases text with
  | nil => exact absurd rfl some
  | cons b text =>
    rw [takeData_byte] at fare
    rcases take_cases limit room 1 size with next | next | next
    · have grows : (Upload.take limit room 1 (.writing size)).sofar ≤
          (takeData (Upload.take limit room) (text.map .byte) _).sofar := sofar_le_takeData _
      rw [fare, next, same, sofar] at grows
      omega
    · grind [Upload.takeData_done]
    · grind [Upload.takeData_done]

variable {size : Nat}

theorem Upload.no_room (short : Upload.take limit room 1 (.writing size) = .short k) :
    room.getD 0 - size = 0 := by
  rw [take_writing] at short
  cases room with
  | none => exact Nat.zero_sub _
  | some r => grind

theorem InUpload.smooth (inUpload : InUpload proc n path size)
    (full : ∀ segment ∈ data, segment.text ≠ [])
    (even : EvenData (Upload.take config.fileLimit (env.room n)) data (.writing size)) :
    SmoothData config env data proc := by
  intro before text after split some
  have fare := even before text after split some
  have nonempty : ∀ segment ∈ before, segment.text ≠ [] := by
    intro segment member
    apply full
    rw [split, append_assoc]
    exact mem_append_left _ member
  have uploading : Uploading n path proc (.writing size) := inUpload
  have there : Uploading n path (tellData config env before proc)
      (takeData (Upload.take config.fileLimit (env.room n)) before (.writing size)) :=
    uploading.tellData nonempty
  generalize tellData config env before proc = now at there ⊢
  generalize takeData (Upload.take config.fileLimit (env.room n)) before (.writing size) = u
    at there fare
  cases u with
  | tooLarge k | short k => rw [Closed.onPartData there, Closed.tellData there]
  | writing k =>
    have inNow : InUpload now n path k := there
    obtain ⟨b, rest, rfl⟩ := exists_cons_of_ne_nil some
    rcases Upload.take_cases config.fileLimit (env.room n) (b :: rest).length k with
      next | next | next
    · rw [inNow.onPartData some, next, inNow.bytes_fit ((Upload.take_eq_writing_iff ..).mp next) some]
    · rw [next] at fare
      have first := Upload.first_byte fare.symm some rfl
      rw [inNow.onPartData some, next, map_cons, tellData_cons, text,
        inNow.onPartData (cons_ne_nil _ _), length_singleton, first]
      have closed : Closed (now.dropped path) := ⟨rfl, nofun⟩
      exact (closed.tellData _).symm
    · rw [next] at fare
      have first := Upload.first_byte fare.symm some rfl
      -- There is no room for a single byte, so nothing of the piece is written.
      have none : (env.room n).getD 0 - k = 0 := Upload.no_room first
      rw [inNow.onPartData some, next, map_cons, tellData_cons, text,
        inNow.onPartData (cons_ne_nil _ _), length_singleton, first]
      rw [none, take_zero, take_zero]
      have closed : Closed (now.cutShort path []) := ⟨rfl, nofun⟩
      exact (closed.tellData _).symm

/-! ### Data that fits -/

section

variable {σ : Type} {take : Nat → σ → σ} (stands : Nat → σ) (fits : Nat → Prop)

def dataLength (data : List Segment) : Nat := (data.map (·.text.length)).sum

theorem dataLength_bytes (text : Bytes) : dataLength (text.map .byte) = text.length := by
  induction text with
  | nil => rfl
  | cons b text ih => simp_all [dataLength, Segment.text, add_comm]

variable {data : List Segment}

section

variable (mono : ∀ less total, less ≤ total → fits total → fits less)
  (step : ∀ size length, fits (size + length) → take length (stands size) = stands (size + length))
  (within : fits (size + dataLength data))
include mono step within

theorem takeData_fits : takeData take data (stands size) = stands (size + dataLength data) := by
  induction data generalizing size with
  | nil => rfl
  | cons segment data ih =>
    have split : size + dataLength (segment :: data) =
        size + segment.text.length + dataLength data := by
      simp [dataLength, add_assoc]
    rw [split] at within ⊢
    grind [takeData]

theorem EvenData.of_fits : EvenData take data (stands size) := by
  intro before text after split _
  have total : size + dataLength data =
      size + dataLength before + dataLength (text.map .byte) + dataLength after := by
    rw [split]
    simp [dataLength, add_assoc]
  rw [total] at within
  have fitsText := mono _ _ (Nat.le_add_right _ _) within
  rw [takeData_fits stands fits mono step (mono _ _ (Nat.le_add_right _ _) fitsText),
    takeData_fits stands fits mono step fitsText]
  rw [dataLength_bytes] at fitsText ⊢
  exact step _ _ fitsText

end

end

end TrueAsync.Formats

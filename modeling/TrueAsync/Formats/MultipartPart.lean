import TrueAsync.Formats.MultipartForm

/-!
# A part in the processor

What the callbacks of one part do, whatever the pieces: `Opened` is the processor once the headers
are complete, by what becomes of the part, and `part_told` the whole part. Between parts only the
lists, the count of uploads and the temporary files matter.
-/

namespace TrueAsync.Formats

open TrueAsync.Lib MpProcessor List

variable {config : MpConfig} {env : UploadEnv} {proc : MpProcessor}

namespace MpProcessor

def tally (proc : MpProcessor) : Tally := ⟨proc.files.length, proc.fields.length, proc.uploads⟩

def opened (config : MpConfig) (env : UploadEnv) (headers : List Header) (proc : MpProcessor) :
    MpProcessor :=
  onHeadersComplete config env
    (proc.onPartBegin.withReading (headers.foldl HeadReading.line {}))

end MpProcessor

namespace PartKind

def tmpPath (disk : Heap Bytes) : PartKind → Option Nat
  | .upload _ => some disk.next
  | _ => none

/-- The temporary files once the headers of a part are complete. -/
def create (config : MpConfig) (disk : Heap Bytes) : PartKind → Heap Bytes
  | .upload _ => disk.alloc []
  | .stuck => if config.tmpPathGenerator then disk else disk.alloc []
  | _ => disk

def Ready (path : Nat) (opened : MpProcessor) : PartKind → Prop
  | .field | .skipped => InField opened ∧ opened.fieldValue = []
  | .upload n => InUpload opened n path 0
  | _ => Closed opened

end PartKind

/-- The processor after the headers of a part, by what becomes of the part. -/
structure Opened (config : MpConfig) (proc opened : MpProcessor) (head : PartHead)
    (kind : PartKind) : Prop where
  head : opened.head = head
  files : opened.files = proc.files
  fields : opened.fields = proc.fields
  uploads : opened.uploads = (proc.tally.add kind).uploads
  tmpPath : opened.tmpPath = kind.tmpPath proc.disk
  disk : opened.disk = kind.create config proc.disk
  data : kind.Ready proc.disk.next opened

namespace MpProcessor

theorem opened_eq (headers : List Header) : proc.opened config env headers = dispatchPart config env
        { proc.onPartBegin.withReading (headers.foldl HeadReading.line {}) with
          head := readHead headers } := by
  simp only [opened, onHeadersComplete, readHead, withReading, length_pos_iff]

/-- The processor when the headers of a part have been read. -/
structure Fresh (proc fresh : MpProcessor) (head : PartHead) : Prop where
  head : fresh.head = head
  files : fresh.files = proc.files
  fields : fresh.fields = proc.fields
  uploads : fresh.uploads = proc.uploads
  disk : fresh.disk = proc.disk
  fileHandle : fresh.fileHandle = none
  tmpPath : fresh.tmpPath = none
  error : fresh.currentError = .ok

variable {fresh : MpProcessor} {head : PartHead}

section

variable (isFresh : Fresh proc fresh head)
include isFresh

theorem Fresh.refused {error : UploadError} (wrong : error ≠ .ok) :
    Opened config proc { fresh with currentError := error } head .refused :=
  ⟨isFresh.head, isFresh.files, isFresh.fields, isFresh.uploads, isFresh.tmpPath, isFresh.disk,
    isFresh.fileHandle, wrong⟩

theorem Fresh.openUpload : Opened config proc (openUpload config env fresh) head
      (if !env.generates proc.uploads then .noPath
        else if env.opens proc.uploads then .upload proc.uploads else .stuck) := by
  obtain ⟨isHead, files, fields, uploads, disk, fileHandle, tmpPath, -⟩ := isFresh
  unfold MpProcessor.openUpload
  dsimp only
  rw [uploads]
  split
  · exact ⟨isHead, files, fields, rfl, tmpPath, disk, fileHandle, nofun⟩
  · split
    · rw [disk]
      exact ⟨isHead, files, fields, rfl, rfl, rfl, rfl, rfl, rfl⟩
    · rw [disk]
      exact ⟨isHead, files, fields, rfl, tmpPath, rfl, fileHandle, nofun⟩

theorem Fresh.dispatchPart :
    Opened config proc (dispatchPart config env fresh) head (proc.tally.kind config env head) := by
  have count : proc.tally.files = fresh.files.length := by
    rw [isFresh.files]
    rfl
  obtain rfl : fresh.head = head := isFresh.head
  unfold dispatchPart Tally.kind
  rw [count]
  cases name : fresh.head.filename with
  | none =>
    obtain ⟨-, files, fields, uploads, disk, fileHandle, tmpPath, error⟩ := isFresh
    dsimp only
    split <;>
      exact ⟨rfl, files, fields, uploads, tmpPath, disk, ⟨fileHandle, error, name⟩, rfl⟩
  | some filename =>
    cases filename with
    | nil => grind [Fresh.refused]
    | cons b filename =>
      simp only [reduceCtorEq, false_or]
      by_cases invalid : (!validFilename (b :: filename)) = true
      · grind [Fresh.refused]
      · rw [if_neg invalid]
        by_cases full : fresh.files.length ≥ config.filesLimit
        · grind [Fresh.refused]
        · rw [if_neg full, if_neg (not_or.mpr ⟨invalid, full⟩)]
          exact isFresh.openUpload

end

theorem opened_spec (config : MpConfig) (env : UploadEnv) (proc : MpProcessor)
    (headers : List Header) : Opened config proc (proc.opened config env headers) (readHead headers)
      (proc.tally.kind config env (readHead headers)) := by
  rw [opened_eq]
  exact Fresh.dispatchPart ⟨rfl, rfl, rfl, rfl, rfl, rfl, rfl, rfl⟩

end MpProcessor

/-! ## The data of a part -/

def Event.IsPartData : Event → Prop
  | .data .partData _ => True
  | _ => False

variable {events : List Event} {data : List Segment}

theorem Reports.isPartData (reports : Reports events (data.map Segment.tick)) :
    ∀ event ∈ events, event.IsPartData := by
  replace reports := reports.ofData
  induction reports with
  | nil => exact forall_mem_nil _
  | held some _ ih | bytes some _ ih => exact forall_mem_cons.mpr ⟨trivial, ih⟩

/-- What data does not change. -/
structure SameLists (proc next : MpProcessor) : Prop where
  head : next.head = proc.head
  files : next.files = proc.files
  fields : next.fields = proc.fields
  uploads : next.uploads = proc.uploads
  tmpPath : next.tmpPath = proc.tmpPath

theorem SameLists.refl (proc : MpProcessor) : SameLists proc proc := ⟨rfl, rfl, rfl, rfl, rfl⟩

theorem SameLists.trans {next last : MpProcessor} (first : SameLists proc next)
    (second : SameLists next last) : SameLists proc last :=
  ⟨second.head.trans first.head, second.files.trans first.files,
    second.fields.trans first.fields, second.uploads.trans first.uploads,
    second.tmpPath.trans first.tmpPath⟩

namespace MpProcessor

theorem writeUpload_cases (n path : Nat) (text : Bytes) : writeUpload config env n path text proc =
    { proc with
          currentError := .tooLarge
          fileHandle := none
          disk := match proc.tmpPath with
            | some path => proc.disk.free path
            | none => proc.disk } ∨
      (∃ written, writeUpload config env n path text proc =
        { proc with
          disk := proc.disk.modify path (· ++ text.take written)
          currentError := .cantWrite
          fileHandle := none }) ∨
      ∃ written, writeUpload config env n path text proc =
        { proc with
          disk := proc.disk.modify path (· ++ text.take written)
          fileSize := proc.fileSize + text.length } := by
  unfold writeUpload
  dsimp only
  split
  · exact .inl rfl
  · cases env.room n with
    | none => grind
    | some room =>
      dsimp only
      split
      · exact .inr (.inl ⟨_, rfl⟩)
      · exact .inr (.inr ⟨_, rfl⟩)

theorem onPartData_sameLists (text : Bytes) : SameLists proc (onPartData config env text proc) := by
  unfold onPartData
  split
  · rename_i n path _
    rcases writeUpload_cases n path text with
      removed | ⟨written, cut⟩ | ⟨written, whole⟩
    · rw [removed]
      exact ⟨rfl, rfl, rfl, rfl, rfl⟩
    · rw [cut]
      exact ⟨rfl, rfl, rfl, rfl, rfl⟩
    · rw [whole]
      exact ⟨rfl, rfl, rfl, rfl, rfl⟩
  · split
    · unfold appendField
      dsimp only
      split <;> exact ⟨rfl, rfl, rfl, rfl, rfl⟩
    · exact .refl proc

end MpProcessor

theorem told_keeps {P : MpProcessor → Prop} (partData : ∀ event ∈ events, event.IsPartData)
    (step : ∀ {next} text, P next → P (onPartData config env text next))
    (start : P proc) : P (told (callbacks config env) proc events) := by
  refine foldlRecOn events _ start fun next kept event member => ?_
  have isData := partData event member
  rcases event with s | ⟨kind, text⟩
  · exact isData.elim
  · cases kind with
    | partData => exact step text kept
    | headerField | headerValue => exact isData.elim

theorem told_sameLists (config : MpConfig) (env : UploadEnv) (proc : MpProcessor)
    (partData : ∀ event ∈ events, event.IsPartData) :
    SameLists proc (told (callbacks config env) proc events) := by
  refine told_keeps partData (fun text same => ?_) (.refl proc)
  exact same.trans (onPartData_sameLists text)

theorem InField.told (inField : InField proc) (config : MpConfig) (env : UploadEnv)
    (partData : ∀ event ∈ events, event.IsPartData) :
    ∃ value, Formats.told (callbacks config env) proc events =
      { proc with fieldValue := value } := by
  apply told_keeps (P := fun next => ∃ value, next = { proc with fieldValue := value }) partData
  · rintro _ text ⟨value, rfl⟩
    have still : InField { proc with fieldValue := value } := inField
    rw [still.onPartData]
    split
    · exact ⟨value, rfl⟩
    · exact ⟨_, rfl⟩
  · exact ⟨proc.fieldValue, rfl⟩

theorem Closed.told (closed : Closed proc) (partData : ∀ event ∈ events, event.IsPartData) :
    Formats.told (callbacks config env) proc events = proc := by
  apply told_keeps (P := (· = proc)) partData
  · rintro _ text rfl
    exact closed.onPartData text
  · rfl

/-! ## The calls of a part -/

theorem headers_ofHeader (headers : List Header) :
    ∀ t ∈ headers.flatMap headerTicks, t.ofHeader = true := by
  intro t member
  obtain ⟨header, _, inHeader⟩ := mem_flatMap.mp member
  rcases mem_append.mp inHeader with inName | inValue
  · obtain ⟨b, _, rfl⟩ := mem_map.mp inName
    rfl
  · obtain ⟨b, _, rfl⟩ := mem_map.mp inValue
    rfl

theorem Reports.eq_nil (reports : Reports events []) : events = [] := by
  generalize none : ([] : List Tick) = ticks at reports
  cases reports with
  | nil => rfl
  | signal _ _ | held _ _ => cases none
  | bytes kind some _ => simp_all

variable {ticks : List Tick}

theorem Reports.length_le (reports : Reports events ticks) : events.length ≤ ticks.length := by
  induction reports with
  | nil => exact le_rfl
  | signal s _ ih | held some _ ih => exact Nat.succ_le_succ ih
  | bytes kind some _ ih =>
    have pos := length_pos_iff.mpr some
    grind

/-- A part up to its end: the headers are read, and the calls for the data follow. With one call
for each tick there is one for each segment of the data. -/
theorem open_told (config : MpConfig) (env : UploadEnv)
    (reports : Reports events (openTicks headers data)) :
    ∃ dataEvents, Reports dataEvents (data.map Segment.tick) ∧
      (events.length = (openTicks headers data).length → dataEvents.length = data.length) ∧
      ∀ proc, told (callbacks config env) proc events =
        told (callbacks config env) (proc.opened config env headers) dataEvents := by
  have split : openTicks headers data =
      [] ++ .signal .partBegin :: (headers.flatMap headerTicks ++
        .signal .headersComplete :: data.map Segment.tick) := rfl
  rw [split] at reports ⊢
  obtain ⟨first, second, rfl, one, two⟩ := reports.split_signal
  obtain ⟨headEvents, dataEvents, rfl, three, four⟩ := two.split_signal
  obtain rfl := one.eq_nil
  refine ⟨dataEvents, four, fun each => ?_, fun proc => ?_⟩
  · have headLength := three.length_le
    have dataLength := four.length_le
    grind
  have begun : told (callbacks config env) proc.onPartBegin headEvents =
      proc.onPartBegin.withReading (headers.foldl HeadReading.line {}) := by
    rw [headers_told three (headers_ofHeader headers), HeadReading.foldl_headers]
    rfl
  have cut : told (callbacks config env) proc
        ([] ++ .mark .partBegin :: (headEvents ++ .mark .headersComplete :: dataEvents)) =
      told (callbacks config env)
        (told (callbacks config env) proc.onPartBegin headEvents)
        (.mark .headersComplete :: dataEvents) := told_append proc.onPartBegin headEvents _
  rw [cut, begun]
  rfl

theorem part_told (config : MpConfig) (env : UploadEnv) {part : Part}
    (reports : Reports events part.ticks) :
    ∃ dataEvents, Reports dataEvents (part.data.map Segment.tick) ∧ ∀ proc,
      told (callbacks config env) proc events = onPartEnd config (told (callbacks config env)
          (proc.opened config env part.headers) dataEvents) := by
  obtain ⟨first, second, rfl, one, two⟩ := reports.split_signal
  obtain rfl := two.eq_nil
  obtain ⟨dataEvents, three, -, same⟩ := open_told config env one
  refine ⟨dataEvents, three, fun proc => ?_⟩
  rw [told_append, same]
  rfl

variable {rest : List Tick}

theorem split_parts {parts : List Part} {lost : Bytes} (reports : Reports events before)
    (whole : before ++ lost.map (.byte .headerField) = parts.flatMap Part.ticks ++ rest) :
    ∃ first second last, events = first ++ second ∧ Reports first (parts.flatMap Part.ticks) ∧
      Reports second last ∧ last ++ lost.map (.byte .headerField) = rest := by
  induction parts generalizing events before with
  | nil => exact ⟨[], events, before, rfl, .nil, reports, whole⟩
  | cons part parts ih =>
    have nested : (part :: parts).flatMap Part.ticks ++ rest =
        openTicks part.headers part.data ++
          .signal .partEnd :: (parts.flatMap Part.ticks ++ rest) := by
      simp [Part.ticks]
    rw [nested] at whole
    obtain ⟨left, rfl, there⟩ := split_signal_bytes whole
    obtain ⟨one, others, rfl, here, later⟩ := reports.split_signal
    obtain ⟨first, second, last, rfl, reported, tail, ends⟩ := ih later there
    refine ⟨one ++ .mark .partEnd :: first, second, last, by simp, ?_, tail, ends⟩
    have joined := here.append (reported.signal .partEnd)
    simpa [Part.ticks] using joined

theorem Reports.split_part {part : Part} (reports : Reports events (part.ticks ++ rest)) :
    ∃ first second, events = first ++ second ∧ Reports first part.ticks ∧ Reports second rest := by
  rw [Part.ticks, append_assoc, singleton_append] at reports
  obtain ⟨first, second, rfl, one, two⟩ := reports.split_signal
  exact ⟨first ++ [.mark .partEnd], second, by simp, one.append (.signal _ .nil), two⟩

variable {filename : Bytes}

theorem Tally.add_file (tally : Tally) {head : PartHead}
    (isFile : head.filename = some filename) : tally.add (tally.kind config env head) =
      ⟨tally.files + 1, tally.fields, (tally.add (tally.kind config env head)).uploads⟩ := by
  unfold kind
  rw [isFile]
  dsimp only
  split_ifs <;> rfl

theorem Tally.kind_noFile (tally : Tally) {head : PartHead} (noFile : head.filename = none) :
    tally.kind config env head =
      if head.fieldName = none ∨ tally.fields ≥ config.fieldsLimit then .skipped else .field := by
  unfold kind
  rw [noFile]

namespace MpProcessor

theorem onPartEnd_file (isFile : proc.head.filename = some filename) : onPartEnd config proc =
      { proc with fileHandle := none, files := proc.files ++ [proc.fileInfo], tmpPath := none } := by
  unfold onPartEnd
  dsimp only
  rw [isFile]
  rfl

theorem onPartEnd_field (noFile : proc.head.filename = none)
    (named : proc.head.fieldName = some name) (room : proc.fields.length < config.fieldsLimit) :
    onPartEnd config proc = { proc with
        fileHandle := none
        fields := proc.fields ++ [⟨name, cString proc.fieldValue, proc.fieldValue.length⟩] } := by
  grind [onPartEnd]

theorem onPartEnd_skipped (noFile : proc.head.filename = none)
    (skip : proc.head.fieldName = none ∨ proc.fields.length ≥ config.fieldsLimit) :
    onPartEnd config proc = { proc with fileHandle := none } := by
  grind [onPartEnd]

end MpProcessor

theorem part_tally {part : Part} (reports : Reports events part.ticks) :
    (told (callbacks config env) proc events).tally =
      proc.tally.add (proc.tally.kind config env (readHead part.headers)) := by
  obtain ⟨dataEvents, dataReports, same⟩ := part_told config env reports
  have spec := proc.opened_spec config env part.headers
  have lists := told_sameLists config env (proc.opened config env part.headers)
    dataReports.isPartData
  rw [same]
  generalize told (callbacks config env) _ dataEvents = last at lists ⊢
  generalize proc.opened config env part.headers = opened at spec lists
  have head := lists.head.trans spec.head
  have files := lists.files.trans spec.files
  have fields := lists.fields.trans spec.fields
  have uploads := lists.uploads.trans spec.uploads
  generalize readHead part.headers = partHead at head uploads ⊢
  subst head
  cases name : last.head.filename with
  | some filename => grind [onPartEnd_file, tally, Tally.add_file]
  | none =>
    rw [proc.tally.kind_noFile name] at uploads ⊢
    have count : proc.tally.fields = last.fields.length := by
      rw [fields]
      rfl
    rw [count] at uploads ⊢
    by_cases skip : last.head.fieldName = none ∨ last.fields.length ≥ config.fieldsLimit
    · rw [if_pos skip] at uploads ⊢
      rw [onPartEnd_skipped name skip]
      simp only [tally, files, fields, uploads]
      rfl
    · rw [if_neg skip] at uploads ⊢
      obtain ⟨isNamed, room⟩ := not_or.mp skip
      obtain ⟨fieldName, named⟩ := Option.ne_none_iff_exists'.mp isNamed
      rw [onPartEnd_field name named (not_le.mp room)]
      simp [tally, files, fields, uploads, Tally.add]

/-! ## Temporary files -/

/-- The files there were are as they were. -/
structure Kept (disk disk' : Heap Bytes) : Prop where
  next : disk.next ≤ disk'.next
  cell : ∀ path < disk.next, disk'.cell path = disk.cell path

theorem Kept.refl (disk : Heap Bytes) : Kept disk disk := ⟨le_rfl, fun _ _ => rfl⟩

theorem Kept.alloc (disk : Heap Bytes) (text : Bytes) : Kept disk (disk.alloc text) :=
  ⟨Nat.le_add_right _ _, fun _ below => disk.alloc_cell_ne text below.ne⟩

theorem PartKind.create_kept (config : MpConfig) (disk : Heap Bytes) (kind : PartKind) :
    Kept disk (kind.create config disk) := by
  cases kind with
  | upload n => exact .alloc _ _
  | stuck =>
    dsimp only [create]
    split
    · exact .refl _
    · exact .alloc _ _
  | field | skipped | refused | noPath => exact .refl _

variable {path : Nat} {disk : Heap Bytes}

theorem PartKind.tmpPath_lt {kind : PartKind}
    (found : kind.tmpPath disk = some path) : path < (kind.create config disk).next := by
  cases kind with
  | upload n =>
    cases found
    exact Nat.lt_add_one _
  | stuck | field | skipped | refused | noPath => cases found

/-- The data of a part goes to one file at most. -/
structure OneFile (path : Nat) (proc : MpProcessor) : Prop where
  handle : ∀ n path', proc.fileHandle = some (n, path') → path' = path
  tmpPath : proc.tmpPath = some path

/-- All files but one are as they were. -/
structure Touched (path : Nat) (disk disk' : Heap Bytes) : Prop where
  next : disk'.next = disk.next
  cell : ∀ path' ≠ path, disk'.cell path' = disk.cell path'

theorem Touched.refl (path : Nat) (disk : Heap Bytes) : Touched path disk disk :=
  ⟨rfl, fun _ _ => rfl⟩

theorem Touched.trans {disk' disk'' : Heap Bytes} (first : Touched path disk disk')
    (second : Touched path disk' disk'') : Touched path disk disk'' :=
  ⟨second.next.trans first.next, fun p ne => (second.cell p ne).trans (first.cell p ne)⟩

theorem OneFile.onPartData (oneFile : OneFile path proc) (config : MpConfig)
    (env : UploadEnv) (text : Bytes) : OneFile path (MpProcessor.onPartData config env text proc) ∧
      Touched path proc.disk (MpProcessor.onPartData config env text proc).disk := by
  obtain ⟨handle, tmpPath⟩ := oneFile
  unfold MpProcessor.onPartData
  split
  · rename_i n path' isOpen
    obtain rfl := handle n path' isOpen
    rcases MpProcessor.writeUpload_cases n path' text with removed | ⟨written, cut⟩ | ⟨written, whole⟩
    · rw [removed, tmpPath]
      exact ⟨⟨nofun, rfl⟩, rfl, fun p ne => proc.disk.free_cell_ne ne⟩
    · rw [cut]
      exact ⟨⟨nofun, tmpPath⟩, rfl, fun p ne => proc.disk.modify_cell_ne _ ne⟩
    · rw [whole]
      exact ⟨⟨handle, tmpPath⟩, rfl, fun p ne => proc.disk.modify_cell_ne _ ne⟩
  · split
    · unfold MpProcessor.appendField
      dsimp only
      split
      all_goals exact ⟨⟨handle, tmpPath⟩, .refl _ _⟩
    · exact ⟨⟨handle, tmpPath⟩, .refl _ _⟩

theorem OneFile.told (oneFile : OneFile path proc) (partData : ∀ event ∈ events, event.IsPartData) :
    Touched path proc.disk (told (callbacks config env) proc events).disk := by
  refine (told_keeps (P := fun next => OneFile path next ∧ Touched path proc.disk next.disk) partData
    ?_ ⟨oneFile, .refl _ _⟩).2
  rintro next text ⟨one, touched⟩
  obtain ⟨one', touched'⟩ := one.onPartData config env text
  exact ⟨one', touched.trans touched'⟩

namespace Opened

variable {opened : MpProcessor} {head : PartHead} {kind : PartKind}

theorem oneFile (spec : Opened config proc opened head (.upload n)) :
    OneFile proc.disk.next opened := by
  refine ⟨fun n' path' isOpen => ?_, spec.tmpPath⟩
  have handle := spec.data.handle
  rw [isOpen] at handle
  cases handle
  rfl

variable (spec : Opened config proc opened head kind) (env : UploadEnv)
  (partData : ∀ event ∈ events, event.IsPartData)
include spec partData

theorem told_disk (noUpload : ∀ n, kind ≠ .upload n) :
    (told (callbacks config env) opened events).disk = kind.create config proc.disk := by
  have data := spec.data
  rw [← spec.disk]
  cases kind with
  | upload n => exact absurd rfl (noUpload n)
  | field | skipped =>
    obtain ⟨value, same⟩ := data.1.told config env partData
    exact congrArg (·.disk) same
  | refused | noPath | stuck => exact congrArg (·.disk) (data.told partData)

theorem told_touched : Touched proc.disk.next (kind.create config proc.disk)
      (told (callbacks config env) opened events).disk := by
  by_cases isUpload : ∃ n, kind = .upload n
  · obtain ⟨n, rfl⟩ := isUpload
    rw [← spec.disk]
    exact spec.oneFile.told partData
  · rw [spec.told_disk env partData fun n same => isUpload ⟨n, same⟩]
    exact .refl _ _

theorem kept : Kept proc.disk (told (callbacks config env) opened events).disk := by
  have before := kind.create_kept config proc.disk
  have touched := spec.told_touched env partData
  refine ⟨?_, fun path below => ?_⟩
  · rw [touched.next]
    exact before.next
  · rw [touched.cell path below.ne]
    exact before.cell path below

theorem live_told (path : Nat) (live : (told (callbacks config env) opened events).disk.Live path) :
    (kind.create config proc.disk).Live path := by
  by_cases isUpload : ∃ n, kind = .upload n
  · obtain ⟨n, rfl⟩ := isUpload
    by_cases same : path = proc.disk.next
    · rw [same, PartKind.create, Heap.Live, proc.disk.alloc_cell_self]
      rfl
    · rwa [Heap.Live, (spec.told_touched env partData).cell path same] at live
  · rwa [spec.told_disk env partData fun n same => isUpload ⟨n, same⟩] at live

end Opened

/-- The paths in the list of files are of files there have been. -/
def Listed (proc : MpProcessor) : Prop :=
  ∀ info ∈ proc.files, ∀ path, info.tmpPath = some path → path < proc.disk.next

theorem MpProcessor.onPartEnd_disk : (onPartEnd config proc).disk = proc.disk := by
  grind [onPartEnd]

theorem MpProcessor.mem_onPartEnd_files {info : MpFileInfo}
    (member : info ∈ (onPartEnd config proc).files) :
    info ∈ proc.files ∨ info.tmpPath = proc.tmpPath := by
  unfold onPartEnd at member
  dsimp only at member
  split at member
  · rcases mem_append.mp member with old | new
    · exact .inl old
    · rw [mem_singleton.mp new]
      exact .inr rfl
  · split at member <;> exact .inl member
  · exact .inl member

theorem Listed.part {part : Part} (listed : Listed proc) (reports : Reports events part.ticks) :
    Listed (told (callbacks config env) proc events) := by
  obtain ⟨dataEvents, dataReports, same⟩ := part_told config env reports
  have spec := proc.opened_spec config env part.headers
  have kept := spec.kept env dataReports.isPartData
  have touched := spec.told_touched env dataReports.isPartData
  have lists := told_sameLists config env (proc.opened config env part.headers)
    dataReports.isPartData
  rw [same]
  generalize told (callbacks config env) _ dataEvents = last at kept touched lists ⊢
  intro info member path found
  rw [onPartEnd_disk]
  rcases mem_onPartEnd_files member with old | new
  · rw [lists.files, spec.files] at old
    exact (listed info old path found).trans_le kept.next
  · rw [new, lists.tmpPath, spec.tmpPath] at found
    rw [touched.next]
    exact PartKind.tmpPath_lt found

theorem parts_told (property : MpProcessor → List Part → Prop)
    (step : ∀ proc part parts events, property proc (part :: parts) → Reports events part.ticks →
      property (told (callbacks config env) proc events) parts) {parts : List Part}
    (start : property proc parts) (reports : Reports events (parts.flatMap Part.ticks)) :
    property (told (callbacks config env) proc events) [] := by
  induction parts generalizing proc events with
  | nil =>
    obtain rfl := reports.eq_nil
    exact start
  | cons part parts ih => grind [Reports.split_part, told_append]

theorem Listed.parts (config : MpConfig) (env : UploadEnv) {parts : List Part} (listed : Listed proc)
    (reports : Reports events (parts.flatMap Part.ticks)) :
    Listed (told (callbacks config env) proc events) :=
  parts_told (fun proc _ => Listed proc) (fun _ _ _ _ listed reports => listed.part reports) listed
    reports

/-! ## What a body leaves -/

section

/-- `events` tell what follows the complete parts, but for the lost bytes of a header name. -/
structure TellsLast (events : List Event) (ticks : List Tick) (lost : Bytes) (last : Last) :
    Prop where
  reports : Reports events ticks
  whole : ticks ++ lost.map (.byte .headerField) = last.ticks
  broken : lost ≠ [] → ∃ headers name value, last = .head headers name value true

variable (config : MpConfig) (env : UploadEnv)

theorem last_told (proc : MpProcessor) {last : Last} : TellsLast events ticks lost last →
    match last with
    | .nothing | .closed => told (callbacks config env) proc events = proc
    | .head _ _ _ _ => ∃ r, told (callbacks config env) proc events = proc.onPartBegin.withReading r
    | .body headers data => ∃ dataEvents, Reports dataEvents (data.map Segment.tick) ∧
        (events.length = ticks.length → dataEvents.length = data.length) ∧
        told (callbacks config env) proc events =
          told (callbacks config env) (proc.opened config env headers) dataEvents := by
  rintro ⟨reports, whole, complete⟩
  cases last with
  | nothing =>
    have none := (append_eq_nil_iff.mp whole).1
    subst none
    rw [reports.eq_nil]
    rfl
  | closed =>
    have ends : ticks ++ lost.map (.byte .headerField) = [] ++ .signal .bodyEnd :: [] := whole
    obtain ⟨left, rfl, rest⟩ := split_signal_bytes ends
    have none := (append_eq_nil_iff.mp rest).1
    subst none
    obtain ⟨first, second, rfl, one, two⟩ := reports.split_signal
    rw [one.eq_nil, two.eq_nil]
    rfl
  | head headers name value broken =>
    have begins : ticks ++ lost.map (.byte .headerField) = [] ++ .signal .partBegin ::
        (headers ++ [(name, value)]).flatMap headerTicks := by
      grind [Last.ticks]
    obtain ⟨left, rfl, rest⟩ := split_signal_bytes begins
    obtain ⟨first, second, rfl, one, two⟩ := reports.split_signal
    have ofHeader : ∀ t ∈ left, t.ofHeader = true := fun t member =>
      headers_ofHeader (headers ++ [(name, value)]) t (rest ▸ mem_append_left _ member)
    refine ⟨left.foldl HeadReading.tick {}, ?_⟩
    rw [one.eq_nil]
    exact headers_told two ofHeader
  | body headers data =>
    have none : lost = [] := by grind
    subst none
    rw [map_nil, append_nil] at whole
    subst whole
    obtain ⟨dataEvents, dataReports, each, same⟩ := open_told config env reports
    exact ⟨dataEvents, dataReports, each, same proc⟩

theorem MpProcessor.callbacks_succeed : Succeeds (callbacks config env) := by
  intro event proc
  rcases event with s | ⟨kind, text⟩
  · cases s <;> rfl
  · cases kind <;> rfl

theorem feedAll_told {chunks : List Bytes} (created : multipartParserInit boundary = some parser)
    (whole : chunks.flatten = text) :
    (feedAll config env parser chunks).1 = (parser.readAll text).1 ∧ ∃ first second ticks lost,
        Reports first ((decode parser.boundary text).parts.flatMap Part.ticks) ∧
        TellsLast second ticks lost (decode parser.boundary text).last ∧
        (feedAll config env parser chunks).2 = told (callbacks config env)
            (told (callbacks config env) {} first) second := by
  obtain ⟨fresh, nonempty⟩ := init_some created
  obtain ⟨ticks, named⟩ := readAll_decode nonempty text
  rw [← fresh] at ticks named
  obtain ⟨same, lost, ⟨events, before, reports, split, told⟩, broken⟩ :=
    executeAll_told (callbacks_succeed config env) chunks parser {}
  rw [whole] at same split broken
  refine ⟨same, ?_⟩
  rw [ticks] at split
  obtain ⟨first, second, last, rfl, one, two, rest⟩ := split_parts reports split.symm
  refine ⟨first, second, last, lost, one, ⟨two, rest, fun some => ?_⟩, ?_⟩
  · grind [Body.broken]
  · rw [← told_append]
    exact told

end

end TrueAsync.Formats

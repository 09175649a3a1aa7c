import TrueAsync.Formats.MultipartPart

/-!
# Temporary files of uploads

Every temporary file should be removed or handed over in the list of files. A file enters the list
when its part ends: one whose part does not end is in no list, and neither is one that was created
and could not be opened.
-/

namespace TrueAsync.Formats

open TrueAsync.Lib List MpProcessor PartKind Last Upload MultipartParser

variable {config : MpConfig} {env : UploadEnv} {proc : MpProcessor} {events : List Event}

def MpProcessor.Hands (proc : MpProcessor) (path : Nat) : Prop :=
  ∃ info ∈ proc.files, info.tmpPath = some path

/-- After `mp_processor_cleanup_temp_files` and `mp_processor_destroy` there is no temporary file
that was not handed over. -/
def NoOrphans (proc : MpProcessor) : Prop :=
  ∀ path, proc.cleanupTempFiles.destroy.Live path → proc.Hands path

/-! ## Cleaning up -/

theorem cleanupTempFiles_live :
    proc.cleanupTempFiles.destroy.Live path ↔ proc.disk.Live path ∧ ¬proc.Hands path := by
  unfold cleanupTempFiles destroy Hands
  generalize proc.disk = disk
  induction proc.files generalizing disk with
  | nil => simp
  | cons info files ih =>
    rw [foldl_cons, ih]
    cases found : info.tmpPath with
    | none => simp [found]
    | some path' =>
      by_cases same : path = path'
      · subst same
        simp [Heap.Live, found]
      · have other : path' ≠ path := fun h => same h.symm
        simp [Heap.Live, Heap.free_cell_ne _ same, found, other]

theorem noOrphans_iff : NoOrphans proc ↔ ∀ path, proc.disk.Live path → proc.Hands path := by
  constructor
  · intro none path live
    by_contra unlisted
    exact unlisted (none path (cleanupTempFiles_live.mpr ⟨live, unlisted⟩))
  · intro all path live
    exact all path (cleanupTempFiles_live.mp live).1

/-! ## Uploads in pieces -/

def Upload.removed : Upload → Bool
  | .tooLarge _ => true
  | _ => false

def takeEvents {σ : Type} (take : Nat → σ → σ) (events : List Event) (s : σ) : σ :=
  events.foldl (fun s event => match event with
    | .data _ text => take text.length s
    | .mark _ => s) s

variable {σ : Type}

theorem takeEvents_data (take : Nat → σ → σ) (kind : DataKind) (s : σ) :
    takeEvents take (.data kind text :: events) s = takeEvents take events (take text.length s) := rfl

variable {n path : Nat} {text : Bytes}

theorem Uploading.live_onPartData (uploading : Uploading n path proc u)
    (live : proc.disk.Live path ↔ u.removed = false) (some : text ≠ []) :
    (MpProcessor.onPartData config env text proc).disk.Live path ↔
      (u.take config.fileLimit (env.room n) text.length).removed = false := by
  cases u with
  | writing size =>
    have isLive : proc.disk.Live path := live.mpr rfl
    rw [InUpload.onPartData uploading some]
    rcases take_cases config.fileLimit (env.room n) text.length size with
      next | next | next
    · rw [next]
      simpa [written, removed] using isLive
    · rw [next]
      simp [dropped, removed, Heap.Live]
    · rw [next]
      simpa [cutShort, removed] using isLive
  | tooLarge size | short size =>
    rw [Closed.onPartData uploading]
    exact live

variable {data : List Segment}

theorem Uploading.live_told (uploading : Uploading n path proc u)
    (live : proc.disk.Live path ↔ u.removed = false)
    (reports : Reports events (data.map Segment.tick)) :
    (told (MpProcessor.callbacks config env) proc events).disk.Live path ↔
      (takeEvents (Upload.take config.fileLimit (env.room n)) events u).removed = false := by
  replace reports := reports.ofData
  induction reports generalizing proc u with
  | nil => exact live
  | held some _ ih | bytes some _ ih =>
    exact ih (uploading.onPartData some) (uploading.live_onPartData live some)

namespace Upload

variable {limit size : Nat} {room : Option Nat} {u : Upload}

theorem takeEvents_done (done : ∀ size, u ≠ .writing size) :
    takeEvents (take limit room) events u = u := by
  induction events with
  | nil => rfl
  | cons event events ih =>
    cases event with
    | mark s => exact ih
    | data kind text =>
      rw [takeEvents_data, take_done done]
      exact ih

theorem bytes_writing
    (written : takeData (take limit room) (text.map .byte) (.writing size) = .writing total) :
    total = size + text.length ∧ (text ≠ [] → Fits limit room total) := by
  induction text generalizing size with
  | nil =>
    cases written
    exact ⟨rfl, fun some => absurd rfl some⟩
  | cons b text ih =>
    rw [takeData_byte] at written
    rcases take_cases limit room 1 size with next | next | next
    · rw [next] at written
      obtain ⟨sum, fits⟩ := ih written
      refine ⟨by rw [sum, length_cons]; omega, fun _ => ?_⟩
      cases text with
      | nil =>
        rw [sum]
        exact (take_eq_writing_iff _ _ 1 size).mp next
      | cons b' text => exact fits (cons_ne_nil _ _)
    · rw [next, takeData_done (u := .tooLarge size) nofun] at written
      cases written
    · rw [next, takeData_done (u := .short size) nofun] at written
      cases written

theorem bytes_removed
    (removed : (takeData (take limit room) (text.map .byte) (.writing size)).removed = true) :
    limit < size + text.length := by
  induction text generalizing size with
  | nil => cases removed
  | cons b text ih =>
    rw [takeData_byte] at removed
    rw [length_cons]
    rcases take_cases limit room 1 size with next | next | next
    · rw [next] at removed
      have later := ih removed
      omega
    · rw [take_writing] at next
      split_ifs at next with exceeds
      omega
    · rw [next, takeData_done (u := .short size) nofun] at removed
      cases removed

theorem removed_takeEvents (reports : Reports events (data.map Segment.tick))
    (removed : (takeData (take limit room) data u).removed = true) :
    (takeEvents (take limit room) events u).removed = true := by
  replace reports := reports.ofData
  induction reports generalizing u with
  | nil => exact removed
  | held _ _ ih => exact ih removed
  | bytes some _ ih =>
    rename_i data text _
    have split : takeData (take limit room) (text.map .byte ++ data) u =
        takeData (take limit room) data
          (takeData (take limit room) (text.map .byte) u) := foldl_append
    rw [split] at removed
    cases u with
    | tooLarge size =>
      rw [takeEvents_done (u := .tooLarge size) nofun]
      rfl
    | short size =>
      rw [takeData_done (u := .short size) nofun, takeData_done (u := .short size) nofun] at removed
      cases removed
    | writing size =>
      rw [takeEvents_data]
      rcases take_cases limit room text.length size with next | next | next
      · have fits := (take_eq_writing_iff ..).mp next
        have bytewise : takeData (take limit room) (text.map .byte) (.writing size) =
            .writing (size + dataLength (text.map .byte)) := by
          apply takeData_fits writing (Fits limit room) (fun _ _ less small => small.mono less)
            (fun _ _ small => (take_eq_writing_iff ..).mpr small)
          rwa [dataLength_bytes]
        rw [bytewise, dataLength_bytes] at removed
        rw [next]
        exact ih removed
      · rw [next, takeEvents_done (u := .tooLarge size) nofun]
        rfl
      · -- The disk is full before the limit, so byte by byte it is as well.
        exfalso
        cases bytewise : takeData (take limit room) (text.map .byte) (.writing size) with
        | writing total =>
          obtain ⟨rfl, fits⟩ := bytes_writing bytewise
          rw [(take_eq_writing_iff ..).mpr (fits some)] at next
          cases next
        | tooLarge total =>
          have exceeds := bytes_removed (by rw [bytewise]; rfl)
          rw [take_writing, if_pos exceeds] at next
          cases next
        | short total =>
          rw [bytewise, takeData_done (u := .short total) nofun] at removed
          cases removed

end Upload

theorem DataReports.length_le (reports : DataReports events data) :
    events.length ≤ data.length := by
  induction reports with
  | nil => exact le_rfl
  | held _ _ ih => exact Nat.succ_le_succ ih
  | bytes some _ ih =>
    have pos := length_pos_iff.mpr some
    simp only [length_cons, length_append, length_map]
    omega

theorem takeEvents_each (take : Nat → σ → σ) (reports : Reports events (data.map Segment.tick))
    (each : events.length = data.length) : takeEvents take events u = takeData take data u := by
  replace reports := reports.ofData
  induction reports generalizing u with
  | nil => rfl
  | held _ _ ih => exact ih (Nat.succ.inj each)
  | bytes some later ih =>
    rename_i text
    have le := later.length_le
    have pos := length_pos_iff.mpr some
    simp only [length_cons, length_append, length_map] at each
    have one : text.length = 1 := by omega
    have restEach := ih (u := take text.length u) (by omega)
    obtain ⟨b, rfl⟩ := length_eq_one_iff.mp one
    exact restEach

/-! ## Byte by byte -/

def Tick.isByte : Tick → Bool
  | .byte _ _ => true
  | _ => false

@[simp] theorem Tick.isByte_byte (kind : DataKind) (b : UInt8) : (byte kind b).isByte = true := rfl
@[simp] theorem Tick.isByte_signal (s : Signal) : (signal s).isByte = false := rfl

theorem MultipartParser.readByte_one (parser : MultipartParser) (c : UInt8) :
    (parser.readByte c).2.countP Tick.isByte ≤ 1 := by
  have held (text : Bytes) : (heldBack text).countP Tick.isByte = 0 := by
    unfold heldBack
    split <;> rfl
  have data (parser : MultipartParser) (text : Bytes) :
      (parser.dataByte c (heldBack text)).2.countP Tick.isByte ≤ 1 := by
    unfold dataByte
    split_ifs <;> simp [held]
  have value : (parser.valueByte c).2.countP Tick.isByte ≤ 1 := by
    unfold valueByte
    split_ifs <;> simp
  unfold readByte
  cases parser.state <;> dsimp only <;>
    first
    | exact value
    | exact data _ []
    | (split_ifs <;>
        first
        | exact value
        | exact data _ _
        | simp [reject, openPart, holdByte])
    | simp [reject]

variable {ticks : List Tick}

theorem Reports.length_eq (reports : Reports events ticks)
    (one : ticks.countP Tick.isByte ≤ 1) : events.length = ticks.length := by
  induction reports with
  | nil => rfl
  | signal s _ ih | held some _ ih => exact congrArg (· + 1) (ih one)
  | bytes kind some _ ih =>
    rename_i text _
    have bytes : (text.map (.byte kind)).countP Tick.isByte = text.length := by
      rw [countP_map]
      exact countP_eq_length.mpr fun _ _ => rfl
    rw [countP_append, bytes] at one
    have pos := length_pos_iff.mpr some
    simp only [length_cons, length_append, length_map]
    omega

theorem executeAll_each {callbacks : Callbacks σ} (succeeds : Succeeds callbacks)
    (parser : MultipartParser) (data : σ) (named : ¬(parser.readAll text).1.nameError) :
    ∃ events, Reports events (parser.readAll text).2 ∧
      events.length = (parser.readAll text).2.length ∧
      (executeAll callbacks (text.map ([·])) parser data).2 = told callbacks data events := by
  induction text generalizing parser data with
  | nil => exact ⟨[], .nil, rfl, rfl⟩
  | cons c text ih =>
    have unopened : False → parser.state ≠ .headerField ∧ parser.state ≠ .error := False.elim
    obtain ⟨same, lost, first, broken, _⟩ := execute_told succeeds unopened [c] data
    rw [readAll_cons] at named ⊢
    have single : parser.readAll [c] = parser.readByte c := by
      rw [readAll_cons]
      simp
    rw [single] at same first broken
    have complete : lost = [] := by
      by_contra some
      have stopped := (broken some).1
      rw [readAll_stopped (.inr stopped)] at named
      exact named (broken some)
    subst complete
    obtain ⟨events, before, reports, split, sofar⟩ := first
    rw [map_nil, append_nil] at split
    rw [← split] at reports
    obtain ⟨events', reports', each', later⟩ :=
      ih (parser.readByte c).1 (multipartParserExecute callbacks [c] parser data).2.2 named
    refine ⟨events ++ events', reports.append reports', ?_, ?_⟩
    · rw [length_append, length_append, each', reports.length_eq (parser.readByte_one c)]
    · rw [map_cons, executeAll_cons, same, later, told_append, ← sofar]

/-! ## Parts -/

/-- A part leaves a file behind that is never handed over: the file was created with its name, and
could not be opened. -/
def PartKind.litters (config : MpConfig) : PartKind → Bool
  | .stuck => !config.tmpPathGenerator
  | _ => false

/-- What follows the complete parts leaves a file behind: one that could not be opened, or one that
is being written and has not been removed for its size. -/
def Last.leaves (config : MpConfig) (env : UploadEnv) (tally : Tally) : Last → Bool
  | .body headers data =>
      match tally.kind config env (readHead headers) with
      | .upload n => !(takeData (take config.fileLimit (env.room n)) data (.writing 0)).removed
      | kind => kind.litters config
  | _ => false

def leavesFile (config : MpConfig) (env : UploadEnv) : Tally → List Part → Last → Bool
  | tally, [], last => last.leaves config env tally
  | tally, part :: parts, last =>
      let kind := tally.kind config env (readHead part.headers)
      kind.litters config || leavesFile config env (tally.add kind) parts last

variable {kind : PartKind} {disk : Heap Bytes}

/-- The temporary files after the headers: the path of an upload apart, they are those there were,
unless the part litters. -/
theorem PartKind.live_create (clean : kind.litters config = false)
    (live : (kind.create config disk).Live path) :
    disk.Live path ∨ kind.tmpPath disk = some path := by
  cases kind with
  | upload n =>
    by_cases same : path = disk.next
    · rw [same]
      exact .inr rfl
    · refine .inl ?_
      rwa [create, Heap.Live, disk.alloc_cell_ne [] same] at live
  | stuck =>
    have generated : config.tmpPathGenerator = true := by simpa [litters] using clean
    rw [create, if_pos generated] at live
    exact .inl live
  | field | skipped | refused | noPath => exact .inl live

theorem PartKind.tmpPath_eq
    (found : kind.tmpPath disk = some path) : path = disk.next ∧ ∃ n, kind = .upload n := by
  cases kind with
  | upload n =>
    cases found
    exact ⟨rfl, n, rfl⟩
  | stuck | field | skipped | refused | noPath => cases found

theorem PartKind.live_litter (litters : kind.litters config = true)
    (disk : Heap Bytes) : (∀ n, kind ≠ .upload n) ∧ kind.tmpPath disk = none ∧
      (kind.create config disk).Live disk.next := by
  cases kind with
  | stuck =>
    have created : ¬config.tmpPathGenerator = true := by simpa [PartKind.litters] using litters
    refine ⟨nofun, rfl, ?_⟩
    rw [create, if_neg created, Heap.Live, disk.alloc_cell_self]
    rfl
  | upload n | field | skipped | refused | noPath => cases litters

def AllHanded (proc : MpProcessor) : Prop := ∀ path, proc.disk.Live path → proc.Hands path

def Orphan (proc : MpProcessor) (path : Nat) : Prop := proc.disk.Live path ∧ ¬proc.Hands path

theorem MpProcessor.onPartEnd_files (member : info ∈ proc.files) :
    info ∈ (onPartEnd config proc).files := by
  unfold onPartEnd
  dsimp only
  split
  · exact mem_append_left _ member
  · split <;> exact member
  · exact member

theorem Listed.not_hands (listed : Listed proc) : ¬proc.Hands proc.disk.next := by
  rintro ⟨info, member, found⟩
  exact lt_irrefl _ (listed info member _ found)

theorem Orphan.lt_next (orphan : Orphan proc path) : path < proc.disk.next := by
  obtain ⟨text, found⟩ := Heap.live_iff.mp orphan.1
  exact Heap.lt_next found

/-- A part, as far as temporary files go. -/
structure PartFiles (config : MpConfig) (proc next : MpProcessor) (kind : PartKind) : Prop where
  listed : Listed next
  /-- A file that is in no list stays. -/
  orphan : ∀ path, Orphan proc path → Orphan next path
  litter : Listed proc → kind.litters config = true → Orphan next proc.disk.next
  handed : AllHanded proc → kind.litters config = false → AllHanded next

theorem part_files {part : Part} (listed : Listed proc) (reports : Reports events part.ticks) :
    PartFiles config proc (told (callbacks config env) proc events)
      (proc.tally.kind config env (readHead part.headers)) := by
  have after : Listed (told (callbacks config env) proc events) := listed.part reports
  obtain ⟨dataEvents, dataReports, same⟩ := part_told config env reports
  have isData := dataReports.isPartData
  have spec := proc.opened_spec config env part.headers
  have kept := spec.kept env isData
  have liveTold := spec.live_told env isData
  have plain := spec.told_disk env isData
  have lists := told_sameLists config env (proc.opened config env part.headers) isData
  rw [same proc] at after ⊢
  generalize told (callbacks config env) _ dataEvents = last
    at after kept liveTold plain lists ⊢
  have files := lists.files.trans spec.files
  have tmpPath := lists.tmpPath.trans spec.tmpPath
  have head := lists.head.trans spec.head
  have disk : (onPartEnd config last).disk = last.disk := onPartEnd_disk
  refine ⟨after, fun path orphan => ?_, fun listed litters => ?_, fun all clean path live => ?_⟩
  · have below := orphan.lt_next
    refine ⟨?_, ?_⟩
    · rw [disk, Heap.Live, kept.cell path below]
      exact orphan.1
    · rintro ⟨info, member, found⟩
      rcases mem_onPartEnd_files member with old | new
      · rw [files] at old
        exact orphan.2 ⟨info, old, found⟩
      · rw [new, tmpPath] at found
        exact below.ne (tmpPath_eq found).1
  · obtain ⟨noUpload, noPath, live⟩ := live_litter litters proc.disk
    refine ⟨?_, ?_⟩
    · rw [disk, plain noUpload]
      exact live
    · rintro ⟨info, member, found⟩
      rcases mem_onPartEnd_files member with old | new
      · rw [files] at old
        exact listed.not_hands ⟨info, old, found⟩
      · rw [new, tmpPath, noPath] at found
        cases found
  · rw [disk] at live
    rcases live_create clean (liveTold path live) with old | new
    · obtain ⟨info, member, found⟩ := all path old
      rw [← files] at member
      exact ⟨info, onPartEnd_files member, found⟩
    · obtain ⟨n, isUpload⟩ := (tmpPath_eq new).2
      cases name : (readHead part.headers).filename with
      | none =>
        rw [proc.tally.kind_noFile name] at isUpload
        split at isUpload <;> cases isUpload
      | some filename =>
        rw [← head] at name
        refine ⟨last.fileInfo, ?_, tmpPath.trans new⟩
        rw [onPartEnd_file name]
        exact mem_append_right _ (mem_singleton_self _)

/-! ## Bodies -/

variable {last : Last} {parts : List Part}

theorem parts_handed (reports : Reports events (parts.flatMap Part.ticks))
    (clean : leavesFile config env {} parts last = false) :
    let next := told (callbacks config env) {} events
    AllHanded next ∧ last.leaves config env next.tally = false := by
  have none : AllHanded {} := fun path live => absurd live Bool.false_ne_true
  have start : AllHanded {} ∧ Listed {} ∧
      leavesFile config env ({} : MpProcessor).tally parts last = false :=
    ⟨none, forall_mem_nil _, clean⟩
  have ends := parts_told
    (fun proc parts => AllHanded proc ∧ Listed proc ∧
      leavesFile config env proc.tally parts last = false)
    (fun proc part parts events holds reports => by
      obtain ⟨all, listed, clean⟩ := holds
      obtain ⟨here, later⟩ := Bool.or_eq_false_iff.mp clean
      have files : PartFiles config proc (told (callbacks config env) proc events) _ :=
        part_files listed reports
      refine ⟨files.handed all here, files.listed, ?_⟩
      rw [part_tally reports]
      exact later) start reports
  exact ⟨ends.1, ends.2.2⟩

theorem parts_orphan (reports : Reports events (parts.flatMap Part.ticks))
    (leaves : leavesFile config env {} parts last = true) :
    let next := told (callbacks config env) {} events
    Listed next ∧ ((∃ path, Orphan next path) ∨ last.leaves config env next.tally = true) := by
  have start : Listed {} ∧ ((∃ path, Orphan {} path) ∨
      leavesFile config env ({} : MpProcessor).tally parts last = true) :=
    ⟨forall_mem_nil _, .inr leaves⟩
  exact parts_told
    (fun proc parts => Listed proc ∧ ((∃ path, Orphan proc path) ∨
      leavesFile config env proc.tally parts last = true))
    (fun proc part parts events holds reports => by
      obtain ⟨listed, cases⟩ := holds
      have files : PartFiles config proc (told (callbacks config env) proc events) _ :=
        part_files listed reports
      refine ⟨files.listed, ?_⟩
      rcases cases with ⟨path, orphan⟩ | leaves
      · exact .inl ⟨path, files.orphan path orphan⟩
      · rcases Bool.or_eq_true_iff.mp leaves with here | later
        · exact .inl ⟨proc.disk.next, files.litter listed here⟩
        · rw [part_tally reports]
          exact .inr later) start reports

theorem Opened.live_upload {opened : MpProcessor} {head : PartHead}
    (spec : Opened config proc opened head (.upload n))
    (reports : Reports events (data.map Segment.tick)) :
    (told (callbacks config env) opened events).disk.Live proc.disk.next ↔
      (takeEvents (take config.fileLimit (env.room n)) events (.writing 0)).removed = false := by
  have uploading : Uploading n proc.disk.next opened (.writing 0) := spec.data
  apply uploading.live_told _ reports
  rw [spec.disk, create, Heap.Live, proc.disk.alloc_cell_self]
  simp [removed]

variable {headers : List Header}

theorem Last.leaves_upload {tally : Tally}
    (kind : tally.kind config env (readHead headers) = .upload n) :
    (body headers data).leaves config env tally =
      !(takeData (take config.fileLimit (env.room n)) data (.writing 0)).removed := by
  rw [leaves, kind]

theorem Last.leaves_plain {tally : Tally}
    (noUpload : ∀ n, tally.kind config env (readHead headers) ≠ .upload n) :
    (body headers data).leaves config env tally =
      (tally.kind config env (readHead headers)).litters config := by
  rw [leaves]
  cases kind : tally.kind config env (readHead headers) with
  | upload n => exact absurd kind (noUpload n)
  | field => rfl
  | skipped => rfl
  | refused => rfl
  | noPath => rfl
  | stuck => rfl

theorem Last.handed {lost : Bytes} (tells : TellsLast events ticks lost last)
    (all : AllHanded proc) (clean : last.leaves config env proc.tally = false) :
    AllHanded (told (callbacks config env) proc events) := by
  have cases := last_told config env proc tells
  cases last with
  | nothing | closed =>
    rw [cases]
    exact all
  | head headers name value broken =>
    obtain ⟨r, same⟩ := cases
    rw [same]
    exact all
  | body headers data =>
    obtain ⟨dataEvents, dataReports, -, same⟩ := cases
    have isData := dataReports.isPartData
    have spec := proc.opened_spec config env headers
    have lists := told_sameLists config env (proc.opened config env headers) isData
    rw [same]
    intro path live
    have created := spec.live_told env isData path live
    have old : proc.disk.Live path := by
      by_cases isUpload : ∃ n, proc.tally.kind config env (readHead headers) = .upload n
      · obtain ⟨n, kind⟩ := isUpload
        rw [leaves_upload kind, Bool.not_eq_false'] at clean
        rw [kind] at spec created
        rcases live_create rfl created with old | new
        · exact old
        · rw [(tmpPath_eq new).1, spec.live_upload dataReports,
            removed_takeEvents dataReports clean] at live
          cases live
      · have noUpload := fun n kind => isUpload ⟨n, kind⟩
        rw [leaves_plain noUpload] at clean
        rcases live_create clean created with old | new
        · exact old
        · obtain ⟨n, kind⟩ := (tmpPath_eq new).2
          exact absurd kind (noUpload n)
    obtain ⟨info, member, found⟩ := all path old
    refine ⟨info, ?_, found⟩
    rw [lists.files, spec.files]
    exact member

theorem Last.orphan {lost : Bytes} (tells : TellsLast events ticks lost last)
    (each : ∀ headers data, last = .body headers data → events.length = ticks.length)
    (listed : Listed proc)
    (leaves : (∃ path, Orphan proc path) ∨ last.leaves config env proc.tally = true) :
    ∃ path, Orphan (told (callbacks config env) proc events) path := by
  have cases := last_told config env proc tells
  cases last with
  | nothing | closed =>
    rw [cases]
    exact leaves.resolve_right Bool.false_ne_true
  | head headers name value broken =>
    obtain ⟨r, same⟩ := cases
    rw [same]
    exact leaves.resolve_right Bool.false_ne_true
  | body headers data =>
    obtain ⟨dataEvents, dataReports, eachData, same⟩ := cases
    have isData := dataReports.isPartData
    have spec := proc.opened_spec config env headers
    have kept := spec.kept env isData
    have lists := told_sameLists config env (proc.opened config env headers) isData
    have files := lists.files.trans spec.files
    rw [same]
    have unlisted {path : Nat} (missing : ¬proc.Hands path) : ¬(told (callbacks config env)
        (proc.opened config env headers) dataEvents).Hands path := by
      rintro ⟨info, member, found⟩
      rw [files] at member
      exact missing ⟨info, member, found⟩
    rcases leaves with ⟨path, orphan⟩ | leaves
    · refine ⟨path, ?_, unlisted orphan.2⟩
      rw [Heap.Live, kept.cell path orphan.lt_next]
      exact orphan.1
    · refine ⟨proc.disk.next, ?_, unlisted listed.not_hands⟩
      by_cases isUpload : ∃ n, proc.tally.kind config env (readHead headers) = .upload n
      · obtain ⟨n, kind⟩ := isUpload
        rw [leaves_upload kind, Bool.not_eq_true'] at leaves
        rw [kind] at spec
        rw [spec.live_upload dataReports, takeEvents_each _ dataReports (eachData (each headers data rfl))]
        exact leaves
      · have noUpload := fun n kind => isUpload ⟨n, kind⟩
        rw [leaves_plain noUpload] at leaves
        rw [spec.told_disk env isData noUpload]
        exact (live_litter leaves proc.disk).2.2

theorem exists_orphan {boundary : Bytes} {parser : MultipartParser}
    (created : multipartParserInit boundary = some parser)
    (leaves : leavesFile config env {} (decode parser.boundary text).parts
      (decode parser.boundary text).last = true) : ∃ chunks : List Bytes, chunks.flatten = text ∧
      ∃ path, Orphan (feedAll config env parser chunks).2 path := by
  by_cases broken : (decode parser.boundary text).broken = true
  · -- The file is that of a complete part, and the pieces do not matter.
    obtain ⟨_, first, second, ticks, lost, parts, last, told⟩ :=
      feedAll_told config env created (flatten_singleton (l := text))
    obtain ⟨listed, cases⟩ := parts_orphan parts leaves
    refine ⟨[text], flatten_singleton, ?_⟩
    rw [told]
    apply orphan last _ listed cases
    intro headers data isBody
    rw [Body.broken, isBody] at broken
    cases broken
  · obtain ⟨fresh, nonempty⟩ := init_some created
    obtain ⟨ticks, named⟩ := readAll_decode nonempty text
    rw [← fresh] at ticks named
    obtain ⟨events, reports, each, told⟩ :=
      executeAll_each (callbacks_succeed config env) parser {}
        (fun isNamed => broken (named.mp isNamed))
    rw [ticks] at reports each
    have whole : (decode parser.boundary text).ticks ++ ([] : Bytes).map (.byte .headerField) =
        (decode parser.boundary text).parts.flatMap Part.ticks ++
          (decode parser.boundary text).last.ticks := append_nil _
    obtain ⟨first, second, last, rfl, one, two, rest⟩ := split_parts reports whole
    obtain ⟨listed, cases⟩ := parts_orphan one leaves
    refine ⟨text.map ([·]), ?_, ?_⟩
    · exact flatMap_singleton' text
    · rw [feedAll, told, told_append]
      apply orphan ⟨two, rest, fun some => absurd rfl some⟩ _ listed cases
      intro _ _ _
      have oneLength := one.length_le
      have twoLength := two.length_le
      have restLength := congrArg length rest
      rw [Body.ticks] at each
      simp only [length_append, map_nil, append_nil] at each restLength
      omega

/-- No temporary file is left behind if and only if the file of every part can be opened, and the
body does not end within an upload that is on disk. -/
theorem no_orphans_iff {boundary : Bytes} {parser : MultipartParser}
    (created : multipartParserInit boundary = some parser) (text : Bytes) :
    (∀ chunks : List Bytes, chunks.flatten = text →
        NoOrphans (feedAll config env parser chunks).2) ↔
      leavesFile config env {} (decode parser.boundary text).parts
        (decode parser.boundary text).last = false := by
  constructor
  · intro none
    by_contra leaves
    rw [Bool.not_eq_false] at leaves
    obtain ⟨chunks, whole, path, orphan⟩ := exists_orphan created leaves
    exact orphan.2 (noOrphans_iff.mp (none chunks whole) path orphan.1)
  · intro clean chunks whole
    obtain ⟨_, first, second, ticks, lost, parts, last, told⟩ :=
      feedAll_told config env created whole
    obtain ⟨all, cleanLast⟩ := parts_handed parts clean
    rw [noOrphans_iff, told]
    exact handed last all cleanLast

/-- A form with a file and a field, in full and with a disk that takes three bytes. -/
theorem no_orphans_complete :
    NoOrphans (feedAll {} ⟨fun _ => true, fun _ => true, fun _ => some 3⟩ { boundary := ascii "X" }
      [ascii ("--X\r\nContent-Disposition: form-data; name=f; filename=g\r\n\r\nabcd\r\n--X\r\n" ++
        "Content-Disposition: form-data; name=a\r\n\r\nb\r\n--X--")]).2 := by
  have created : multipartParserInit (ascii "X") = some { boundary := ascii "X" } := by decide
  exact (no_orphans_iff created _).mpr (by decide +kernel) _ flatten_singleton

/-- The connection is lost within an upload: the file stays, and is in no list. -/
theorem truncated_upload_orphan :
    ¬NoOrphans (feedAll {} ⟨fun _ => true, fun _ => true, fun _ => none⟩ { boundary := ascii "X" }
      [ascii "--X\r\nContent-Disposition: form-data; name=f; filename=g\r\n\r\nabc"]).2 := by
  have left : (feedAll {} ⟨fun _ => true, fun _ => true, fun _ => none⟩ { boundary := ascii "X" }
      [ascii "--X\r\nContent-Disposition: form-data; name=f; filename=g\r\n\r\nabc"]).2.disk.Live 0 := by
    rw [Heap.Live]
    decide +kernel
  have unlisted : (feedAll {} ⟨fun _ => true, fun _ => true, fun _ => none⟩
      { boundary := ascii "X" }
      [ascii "--X\r\nContent-Disposition: form-data; name=f; filename=g\r\n\r\nabc"]).2.files = [] := by
    decide +kernel
  intro none
  obtain ⟨info, member, _⟩ := noOrphans_iff.mp none 0 left
  cases member

end TrueAsync.Formats

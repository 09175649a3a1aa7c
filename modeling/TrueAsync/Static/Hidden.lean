import TrueAsync.Lib.Numeral
import TrueAsync.Static.Containment

/-!
# Hidden files

Hide patterns are matched against the decoded path of a request, while the file that is opened is
determined by its segments. Two things make the difference: a slash in front of the path, and a path
that names a directory, whose index file is opened.
-/

namespace TrueAsync.Static

open TrueAsync.Lib List

/-! ## The segments of a path -/

theorem pathSegments_append_slash (path more : Bytes) :
    pathSegments (path ++ 0x2f :: more) = pathSegments path ++ pathSegments more := by
  rw [pathSegments, splitOn, splitOnP_append_cons _ _ (by simp), filter_append]
  rfl

@[simp] theorem pathSegments_nil : pathSegments [] = [] := by
  simp [pathSegments]

def IsSegment (seg : Bytes) : Prop := seg ≠ [] ∧ 0x2f ∉ seg

theorem PlainSegment.isSegment (plain : PlainSegment mount seg) :
    IsSegment seg := ⟨plain.nonempty, plain.slash⟩

theorem pathSegments_segment (segment : IsSegment seg) : pathSegments seg = [seg] := by
  have whole := @splitOn_intercalate _ [seg] _ _ (0x2f : UInt8) (by simpa using segment.2)
    (by simp)
  rw [intercalate_singleton] at whole
  rw [pathSegments, whole]
  simp [segment.1]

@[simp] theorem pathSegments_slash (path : Bytes) :
    pathSegments (0x2f :: path) = pathSegments path := by
  have split := pathSegments_append_slash [] path
  simp_all

variable {segments : List Bytes}

theorem pathSegments_joined (atEnd : Bool) (all : ∀ seg ∈ segments, IsSegment seg) :
    pathSegments (joined segments atEnd) = segments := by
  induction segments with
  | nil => cases atEnd <;> simp [joined]
  | cons seg rest ih =>
    obtain ⟨first, later⟩ := forall_mem_cons.mp all
    have single := pathSegments_segment first
    by_cases more : rest = []
    · subst more
      rw [joined_singleton]
      cases atEnd
      · rw [if_neg (by simp), append_nil, single]
      · rw [if_pos rfl, pathSegments_append_slash, single, pathSegments_nil, append_nil]
    · rw [joined_cons seg more, pathSegments_append_slash, single, ih later, singleton_append]

theorem pathSegments_spelled (inFront : Bool) (atEnd : Bool)
    (plain : ∀ seg ∈ segments, PlainSegment mount seg) :
    pathSegments (spelled inFront segments atEnd) = segments := by
  have same := pathSegments_joined atEnd fun seg member => (plain seg member).isSegment
  cases inFront
  · exact same
  · exact (pathSegments_slash _).trans same

theorem joined_last (all : ∀ seg ∈ segments, IsSegment seg) :
    (joined segments false).getLast? ≠ some 0x2f := by
  induction segments with
  | nil => simp [joined]
  | cons seg rest ih =>
    obtain ⟨first, later⟩ := forall_mem_cons.mp all
    by_cases more : rest = []
    · subst more
      rw [joined_singleton, if_neg (by simp), append_nil]
      exact fun last => first.2 (mem_of_getLast? last)
    · rw [joined_cons seg more, getLast?_append_cons, getLast?_cons]
      intro last
      cases tail : (joined rest false).getLast? with
      | none => grind [getLast?_eq_none_iff, pathSegments_joined, pathSegments_nil]
      | some b => grind

theorem rootSlash_closed (mount : Mount) : (rootSlash mount).getLast? = some 0x2f := by
  have absolute := mount.rootAbsolute.1
  unfold rootSlash
  split_ifs with unclosed
  · simp
  · grind

theorem rootSlash_nul : 0 ∉ rootSlash mount := by
  grind [Mount.rootAbsolute, rootSlash]

theorem pathSegments_rootSlash (text : Bytes) : pathSegments (rootSlash mount ++ text) =
      pathSegments (rootSlash mount) ++ pathSegments text := by
  obtain ⟨path, closed⟩ := getLast?_eq_some_iff.mp (rootSlash_closed mount)
  grind [pathSegments_append_slash, pathSegments_nil]

/-! ## Decoded paths and the files they name -/

section

variable (fnmatch : Bytes → Bytes → Bool) (regular : List Bytes → Bool) (mount : Mount)

/-- A decoded path that some request has. -/
structure Spelling (text : Bytes) : Prop where
  clean : ∀ b ∈ text, isPathByte b = true
  accepted : validateSegments mount text = .ok ()
  fits : mount.rootDirectory.length + 1 + text.length + 1 ≤ maxPathLen

def hides (text : Bytes) : Bool := text ≠ [] && httpStaticPathIsHidden fnmatch mount text

/-- The file that a decoded path names, from the root directory on. -/
def target (text : Bytes) : Option (List Bytes) :=
  if pathTargetsDirectory text then
    (resolveIndex regular maxPathLen (rootSlash mount ++ text) mount.indexFiles).map fun fsPath =>
      pathSegments (cString (fsPath.drop (rootSlash mount).length))
  else some (pathSegments text)

def openedFile (requestPath : Bytes) : Option (List Bytes) :=
  match lookupPath (fun _ _ => false) regular mount requestPath with
  | .serve fsPath => some (pathSegments (cString fsPath))
  | _ => none

end

variable {fnmatch : Bytes → Bytes → Bool} {regular : List Bytes → Bool} {mount : Mount}
  {text : Bytes}

theorem Decoded.of_fits (means : Unescapes src text) (clean : ∀ b ∈ text, isPathByte b = true)
    (fits : text.length + 1 ≤ maxPathLen) :
    Decoded maxPathLen src [] text := ⟨means, clean, by simpa using fits⟩

variable {requestPath : Bytes}

theorem resolves_iff : Resolves mount requestPath maxPathLen text ↔
      mount.owns requestPath ∧ Unescapes (requestTail mount requestPath) text ∧
        Spelling mount text := by
  constructor
  · rintro ⟨owns, ⟨means, clean, -⟩, accepted, fits⟩
    exact ⟨owns, means, clean, accepted, fits⟩
  · rintro ⟨owns, means, clean, accepted, fits⟩
    exact ⟨owns, .of_fits means clean (by omega), accepted, fits⟩

theorem lookupPath_resolves (resolves : Resolves mount requestPath maxPathLen text) :
    lookupPath fnmatch regular mount requestPath = if hides fnmatch mount text then .hidden
      else if pathTargetsDirectory text then
        (resolveIndex regular maxPathLen (rootSlash mount ++ text) mount.indexFiles).elim
          .noIndex .serve else .serve (rootSlash mount ++ text) := by
  rcases resolve_spec mount requestPath maxPathLen with ⟨text', resolves', same⟩ | ⟨e, -, -, none⟩
  · cases resolves.decoded.1.det resolves'.decoded.1
    rw [lookupPath, same]
    have test : hides fnmatch mount text = true ↔
        text ≠ [] ∧ httpStaticPathIsHidden fnmatch mount text = true := by
      rw [hides, Bool.and_eq_true, decide_eq_true_eq]
    simp only [ResolvedPath.relative, drop_left]
    by_cases hidden : hides fnmatch mount text = true
    · rw [if_pos hidden, if_pos (test.mp hidden)]
    · grind
  · exact absurd ⟨text, resolves⟩ none

variable {path : Bytes}

theorem cString_append (clean : 0 ∉ path) (more : Bytes) :
    cString (path ++ more) = path ++ cString more := by
  grind [cString, takeWhile_append_of_pos]

theorem cString_eq (clean : 0 ∉ text) : cString text = text := by
  have whole := cString_append clean []
  rw [append_nil] at whole
  rw [whole]
  exact append_nil text

theorem Spelling.nul (spelling : Spelling mount text) : 0 ∉ text :=
  fun member => absurd (spelling.clean 0 member) (by decide)

theorem join_closed {name joined : Bytes} (closed : path.getLast? = some 0x2f)
    (result : httpStaticPathJoin cap path name = some joined) : joined = path ++ name := by
  grind [httpStaticPathJoin]

theorem resolveIndex_found (closed : path.getLast? = some 0x2f)
    (result : resolveIndex regular cap path names = some found) :
    ∃ name ∈ names, found = path ++ name ∧ statRegular regular found = true := by
  induction names with
  | nil => cases result
  | cons name more ih =>
    rw [resolveIndex] at result
    split at result
    · grind
    · rename_i candidate joins
      split_ifs at result with regularFile
      · cases result
        exact ⟨name, mem_cons_self, join_closed closed joins, regularFile⟩
      · grind

theorem directory_closed (directory : pathTargetsDirectory text = true) :
    (rootSlash mount ++ text).getLast? = some 0x2f := by
  grind [pathTargetsDirectory, rootSlash_closed]

theorem indexName_cString (member : name ∈ mount.indexFiles)
    (clean : 0 ∉ path) (closed : path.getLast? = some 0x2f)
    (found : statRegular regular (path ++ name) = true) : IsSegment (cString name) := by
  refine ⟨?_, fun inside => (mount.indexNames name member).2 (takeWhile_sublist _ |>.mem inside)⟩
  grind [statRegular, cString_append]

variable {file : List Bytes}

theorem target_directory (spelling : Spelling mount text)
    (directory : pathTargetsDirectory text = true) (names : target regular mount text = some file) :
    ∃ name, IsSegment name ∧ file = pathSegments text ++ [name] := by
  rw [target, if_pos directory, Option.map_eq_some_iff] at names
  obtain ⟨found, result, same⟩ := names
  have closed : (rootSlash mount ++ text).getLast? = some 0x2f := directory_closed directory
  obtain ⟨name, member, rfl, regularFile⟩ := resolveIndex_found closed result
  have clean : 0 ∉ rootSlash mount ++ text := by
    rw [mem_append, not_or]
    exact ⟨rootSlash_nul, spelling.nul⟩
  have index := indexName_cString member clean closed regularFile
  refine ⟨cString name, index, ?_⟩
  rw [append_assoc, drop_left, cString_append spelling.nul] at same
  -- the directory is empty or ends with a slash, so that the name is a segment of its own
  rw [pathTargetsDirectory, Bool.or_eq_true, decide_eq_true_eq, decide_eq_true_eq] at directory
  have single := pathSegments_segment index
  rcases directory with rfl | slash
  · simp_all
  · obtain ⟨path, rfl⟩ := getLast?_eq_some_iff.mp slash
    grind [pathSegments_append_slash, pathSegments_nil]

theorem target_file (directory : ¬pathTargetsDirectory text = true) :
    target regular mount text = some (pathSegments text) := if_neg directory

theorem openedFile_resolves (resolves : Resolves mount requestPath maxPathLen text) :
    openedFile regular mount requestPath =
      (target regular mount text).map (pathSegments (rootSlash mount) ++ ·) := by
  have spelling := (resolves_iff.mp resolves).2.2
  have visible : hides (fun _ _ => false) mount text = false := by
    simp [hides, httpStaticPathIsHidden]
  unfold openedFile
  rw [lookupPath_resolves resolves, visible, if_neg (by simp)]
  by_cases directory : pathTargetsDirectory text = true
  · cases found : resolveIndex regular maxPathLen (rootSlash mount ++ text) mount.indexFiles with
    | none => simp [target, directory, found]
    | some fsPath =>
      obtain ⟨name, -, rfl, -⟩ := resolveIndex_found (directory_closed directory) found
      grind [target, cString_append, rootSlash_nul, pathSegments_rootSlash]
  · rw [if_neg directory, target_file directory]
    grind [rootSlash_nul, Spelling.nul, cString_eq, pathSegments_rootSlash]

theorem Spelling.cases (spelling : Spelling mount text) : ∃ inFront segments atEnd,
      text = spelled inFront segments atEnd ∧ Accepted mount segments atEnd ∧
        Spelling mount (joined segments atEnd) := by
  obtain ⟨inFront, segments, atEnd, rfl, accepted⟩ := validateSegments_ok_iff.mp spelling.accepted
  refine ⟨inFront, segments, atEnd, rfl, accepted, ?_⟩
  refine ⟨fun b member => spelling.clean b (mem_append_right _ member), ?_, ?_⟩
  · exact validateSegments_ok_iff.mpr ⟨false, segments, atEnd, rfl, accepted⟩
  · have fits := spelling.fits
    rw [spelled, length_append] at fits
    omega

theorem Spelling.tail (spelling : Spelling mount (0x2f :: text)) : Spelling mount text := by
  obtain ⟨inFront, segments, atEnd, same, accepted, rest⟩ := spelling.cases
  cases inFront
  · have head := accepted.head
    rw [← show (0x2f : UInt8) :: text = joined segments atEnd from same] at head
    simp at head
  · rw [cons_inj_right (0x2f : UInt8) |>.mp same]
    exact rest

theorem targetsDirectory_spelled (accepted : Accepted mount segments atEnd) (inFront : Bool) :
    pathTargetsDirectory (spelled inFront segments atEnd) = true ↔ segments = [] ∨ atEnd = true := by
  rw [pathTargetsDirectory, Bool.or_eq_true, decide_eq_true_eq, decide_eq_true_eq]
  have all := fun seg member => (accepted.plain seg member).isSegment
  by_cases none : segments = []
  · rw [none, accepted.fits none]
    cases inFront <;> simp [spelled, joined]
  · have some : joined segments atEnd ≠ [] :=
      mt (joined_eq_nil accepted.fits accepted.plain).mp none
    have last : (spelled inFront segments atEnd).getLast? = (joined segments atEnd).getLast? :=
      getLast?_append_of_ne_nil _ some
    have nonempty : spelled inFront segments atEnd ≠ [] := append_ne_nil_of_right_ne_nil _ some
    rw [last, or_iff_right nonempty, or_iff_right none]
    cases atEnd
    · simpa using joined_last all
    · simp [joined]

section

variable (fnmatch : Bytes → Bytes → Bool) (regular : List Bytes → Bool) (mount : Mount)

/-- The hide patterns of a mount make no difference between the spellings of a file: not by a slash in
front, and not between a directory and its index file. -/
structure HidesUniformly : Prop where
  slash : ∀ text file, Spelling mount (0x2f :: text) → target regular mount text = some file →
    target regular mount (0x2f :: text) = some file →
      hides fnmatch mount text = hides fnmatch mount (0x2f :: text)
  index : ∀ text file, Spelling mount text → pathTargetsDirectory text = true →
    target regular mount text = some file → Spelling mount (joined file false) →
      hides fnmatch mount text = hides fnmatch mount (joined file false)

end

section

variable (uniform : HidesUniformly fnmatch regular mount)
include uniform

theorem HidesUniformly.front (inFront inFront' : Bool)
    (spelling : Spelling mount (spelled inFront segments atEnd))
    (spelling' : Spelling mount (spelled inFront' segments atEnd))
    (names : target regular mount (spelled inFront segments atEnd) = some file)
    (names' : target regular mount (spelled inFront' segments atEnd) = some file) :
    hides fnmatch mount (spelled inFront segments atEnd) =
      hides fnmatch mount (spelled inFront' segments atEnd) := by
  cases inFront <;> cases inFront'
  · rfl
  · exact uniform.slash _ file spelling' names names'
  · exact (uniform.slash _ file spelling names' names).symm
  · rfl

section

variable (spelling : Spelling mount text) (spelling' : Spelling mount text')
  (names : target regular mount text = some file) (names' : target regular mount text' = some file)
include spelling spelling' names names'

theorem HidesUniformly.mixed (directory : pathTargetsDirectory text = true)
    (file' : ¬pathTargetsDirectory text' = true) :
    hides fnmatch mount text = hides fnmatch mount text' := by
  obtain ⟨inFront, segments, atEnd, rfl, accepted, rest⟩ := spelling'.cases
  have ends : atEnd = false := by
    rw [targetsDirectory_spelled accepted, not_or] at file'
    simpa using file'.2
  subst ends
  have same : segments = file := by
    rw [target_file file', pathSegments_spelled _ _ accepted.plain] at names'
    exact Option.some.inj names'
  subst same
  have canonical : target regular mount (spelled false segments false) = some segments := by
    have plainFile : ¬pathTargetsDirectory (spelled false segments false) = true := by
      rwa [targetsDirectory_spelled accepted, ← targetsDirectory_spelled accepted inFront]
    rw [target_file plainFile, pathSegments_spelled _ _ accepted.plain]
  rw [uniform.index text segments spelling directory names rest]
  exact uniform.front false inFront rest spelling' canonical names'

theorem HidesUniformly.same : hides fnmatch mount text = hides fnmatch mount text' := by
  obtain ⟨inFront, segments, atEnd, rfl, accepted, -⟩ := spelling.cases
  obtain ⟨inFront', segments', atEnd', rfl, accepted', -⟩ := spelling'.cases
  by_cases directory : pathTargetsDirectory (spelled inFront segments atEnd) = true <;>
    by_cases directory' : pathTargetsDirectory (spelled inFront' segments' atEnd') = true
  · -- two directories with one index file are one directory
    obtain ⟨name, -, file⟩ := target_directory spelling directory names
    obtain ⟨name', -, file'⟩ := target_directory spelling' directory' names'
    rw [pathSegments_spelled _ _ accepted.plain] at file
    rw [pathSegments_spelled _ _ accepted'.plain] at file'
    obtain ⟨rfl, -⟩ := append_inj' (file.symm.trans file') rfl
    rw [targetsDirectory_spelled accepted] at directory
    rw [targetsDirectory_spelled accepted'] at directory'
    have ends : atEnd = atEnd' := by
      by_cases none : segments = []
      · rw [accepted.fits none, accepted'.fits none]
      · grind
    grind [HidesUniformly.front]
  · exact uniform.mixed spelling spelling' names names' directory directory'
  · exact (uniform.mixed spelling' spelling names' names directory' directory).symm
  · have same : segments = segments' := by
      rw [target_file directory, pathSegments_spelled _ _ accepted.plain] at names
      rw [target_file directory', pathSegments_spelled _ _ accepted'.plain] at names'
      exact Option.some.inj (names.trans names'.symm)
    grind [targetsDirectory_spelled, HidesUniformly.front]

end

end

/-! ## Requests for a spelling -/

def escaped (text : Bytes) : Bytes :=
  text.flatMap fun b => [0x25, digitByte (b.toNat / 16), digitByte (b.toNat % 16)]

theorem hexValue_digitByte : ∀ d < 16, hexValue (digitByte d) = some d := by decide

theorem unescapes_escaped : Unescapes (escaped text) text := by
  induction text with
  | nil => exact .nil
  | cons b text ih =>
    have high := hexValue_digitByte (b.toNat / 16) (by have := b.toNat_lt; omega)
    have low := hexValue_digitByte (b.toNat % 16) (by omega)
    have both : UInt8.ofNat (16 * (b.toNat / 16) + b.toNat % 16) = b := by
      rw [Nat.div_add_mod, UInt8.ofNat_toNat]
    have step := Unescapes.escape high low ih
    rwa [both] at step

theorem escaped_bytes : ∀ b ∈ escaped text, b ≠ 0x3f ∧ b ≠ 0x23 := by
  have digits : ∀ d < 16, digitByte d ≠ 0x3f ∧ digitByte d ≠ 0x23 := by decide
  intro b member
  obtain ⟨c, -, here⟩ := mem_flatMap.mp member
  rcases mem_cons.mp here with rfl | here
  · decide
  rcases mem_cons.mp here with rfl | here
  · exact digits _ (by have := c.toNat_lt; omega)
  · rw [mem_singleton] at here
    rw [here]
    exact digits _ (by omega)

theorem exists_request (spelling : Spelling mount text) :
    ∃ requestPath, Resolves mount requestPath maxPathLen text := by
  refine ⟨mount.urlPrefix ++ escaped text, resolves_iff.mpr ⟨⟨?_, prefix_append _ _⟩, ?_, spelling⟩⟩
  · rw [head?_append, mount.prefixSlash.1]
    rfl
  · grind [requestTail, takeWhile_eq_self_iff, escaped_bytes, unescapes_escaped]

theorem lookupPath_hidden_iff (resolves : Resolves mount requestPath maxPathLen text) :
    lookupPath fnmatch regular mount requestPath = .hidden ↔ hides fnmatch mount text = true := by
  rw [lookupPath_resolves resolves]
  split_ifs with hidden directory
  · simp [hidden]
  · cases resolveIndex regular maxPathLen (rootSlash mount ++ text) mount.indexFiles <;>
      simp [hidden]
  · simp [hidden]

theorem resolves_of_openedFile (opened : openedFile regular mount requestPath = some file) :
    ∃ text, Resolves mount requestPath maxPathLen text := by
  rcases resolve_spec mount requestPath maxPathLen with ⟨text, resolves, -⟩ | ⟨e, -, failed, -⟩
  · exact ⟨text, resolves⟩
  · rw [openedFile, lookupPath, failed] at opened
    cases e <;> cases opened

/-- Requests that open one file are hidden alike exactly if the hide patterns of the mount make no
difference between its spellings. -/
theorem hidden_alike_iff (fnmatch : Bytes → Bytes → Bool) (regular : List Bytes → Bool)
    (mount : Mount) :
    (∀ requestPath requestPath' file, openedFile regular mount requestPath = some file →
        openedFile regular mount requestPath' = some file →
          (lookupPath fnmatch regular mount requestPath = .hidden ↔
            lookupPath fnmatch regular mount requestPath' = .hidden)) ↔
      HidesUniformly fnmatch regular mount := by
  constructor
  · intro alike
    have same : ∀ {text text' : Bytes} {file : List Bytes}, Spelling mount text →
        Spelling mount text' → target regular mount text = some file →
          target regular mount text' = some file →
            hides fnmatch mount text = hides fnmatch mount text' := by
      intro text text' file spelling spelling' names names'
      obtain ⟨requestPath, resolves⟩ := exists_request spelling
      obtain ⟨requestPath', resolves'⟩ := exists_request spelling'
      have both := alike requestPath requestPath' _
        (by rw [openedFile_resolves resolves, names]; rfl)
        (by rw [openedFile_resolves resolves', names']; rfl)
      rw [lookupPath_hidden_iff resolves, lookupPath_hidden_iff resolves'] at both
      exact Bool.eq_iff_iff.mpr both
    constructor
    · exact fun text file spelling names names' => same spelling.tail spelling names names'
    · intro text file spelling directory names spelling'
      obtain ⟨name, segment, rfl⟩ := target_directory spelling directory names
      refine same spelling spelling' names ?_
      -- the index file names itself
      obtain ⟨inFront, segments, atEnd, rfl, accepted, -⟩ := spelling.cases
      rw [pathSegments_spelled _ _ accepted.plain]
      have all : ∀ seg ∈ segments ++ [name], IsSegment seg := by
        intro seg member
        rcases mem_append.mp member with inside | last
        · exact (accepted.plain seg inside).isSegment
        · rw [mem_singleton.mp last]
          exact segment
      have names' := pathSegments_joined false all
      have plainFile : ¬pathTargetsDirectory (joined (segments ++ [name]) false) = true := by
        rw [pathTargetsDirectory, Bool.or_eq_true, decide_eq_true_eq, decide_eq_true_eq, not_or]
        refine ⟨fun empty => ?_, joined_last all⟩
        rw [empty, pathSegments_nil] at names'
        simp at names'
      rw [target_file plainFile, names']
  · intro uniform requestPath requestPath' file opened opened'
    obtain ⟨text, resolves⟩ := resolves_of_openedFile opened
    obtain ⟨text', resolves'⟩ := resolves_of_openedFile opened'
    rw [openedFile_resolves resolves, Option.map_eq_some_iff] at opened
    rw [openedFile_resolves resolves', Option.map_eq_some_iff] at opened'
    obtain ⟨names, here, rfl⟩ := opened
    obtain ⟨names', here', same⟩ := opened'
    rw [append_cancel_left same] at here'
    rw [lookupPath_hidden_iff resolves, lookupPath_hidden_iff resolves',
      uniform.same (resolves_iff.mp resolves).2.2 (resolves_iff.mp resolves').2.2 here here']

/-- A mount that hides the file `a` and its index file. -/
def hidingMount : Mount where
  urlPrefix := ascii "/s/"
  rootDirectory := ascii "/srv"
  indexFiles := [ascii "i"]
  hideGlobs := [ascii "a", ascii "i"]
  prefixSlash := someMount.prefixSlash
  rootAbsolute := by decide
  indexNames := by decide
  hideNames := by decide

/-- Patterns without special characters match themselves only. A second slash shows the file `a`, and the
request for the directory shows the index file. -/
theorem hidden_files_shown :
    let fnmatch : Bytes → Bytes → Bool := fun pattern text => pattern == text
    let regular : List Bytes → Bool := fun _ => true
    openedFile regular hidingMount (ascii "/s/a") = some [ascii "srv", ascii "a"] ∧
      openedFile regular hidingMount (ascii "/s//a") = some [ascii "srv", ascii "a"] ∧
      lookupPath fnmatch regular hidingMount (ascii "/s/a") = .hidden ∧
      lookupPath fnmatch regular hidingMount (ascii "/s//a") = .serve (ascii "/srv//a") ∧
      openedFile regular hidingMount (ascii "/s/i") = some [ascii "srv", ascii "i"] ∧
      openedFile regular hidingMount (ascii "/s/") = some [ascii "srv", ascii "i"] ∧
      lookupPath fnmatch regular hidingMount (ascii "/s/i") = .hidden ∧
      lookupPath fnmatch regular hidingMount (ascii "/s/") = .serve (ascii "/srv/i") := by
  decide +kernel

end TrueAsync.Static

import Mathlib.Data.List.Basic
import Mathlib.Tactic.SplitIfs
import TrueAsync.Lib.Ascii

/-!
# Static paths

The way from a request path to a file of a mount (`src/static/http_static_path.c`): the prefix of the
mount is cut off, the rest is percent-decoded into a buffer, its segments are checked, and it is
appended to the root directory in the buffer of the caller. A buffer is its capacity and the bytes
written so far; a write outside of it is the outcome `overrun`.
-/

namespace TrueAsync.Static

open TrueAsync.Lib

/-- `HTTP_STATIC_FLAG_DOTFILES_*`. -/
inductive Dotfiles where
  | deny
  | allow
  | ignore
deriving DecidableEq, Repr

/-- `http_static_handler_t`, as far as paths go. What its setters have checked is part of it: the
prefix starts and ends with a slash, the root directory is an absolute path, an index file is the name
of one segment, and a hide pattern is not empty. -/
structure Mount where
  urlPrefix : Bytes
  rootDirectory : Bytes
  indexFiles : List Bytes := [ascii "index.html"]
  hideGlobs : List Bytes := []
  dotfiles : Dotfiles := .deny
  prefixSlash : urlPrefix.head? = some 0x2f ∧ urlPrefix.getLast? = some 0x2f
  rootAbsolute : rootDirectory.head? = some 0x2f ∧ 0 ∉ rootDirectory
  indexNames : ∀ name ∈ indexFiles, name ≠ [] ∧ 0x2f ∉ name
  hideNames : ∀ glob ∈ hideGlobs, glob ≠ []

/-- `http_static_path_result_t` without `OK`, and a write outside of a buffer. -/
inductive PathError where
  | noMatch
  | badRequest
  | forbidden
  | hide
  | overrun
deriving DecidableEq, Repr

/-- `MAXPATHLEN`. -/
def maxPathLen : Nat := 4096

/-- `HTTP_STATIC_PATH_MAX_SEGMENTS`. -/
def maxSegments : Nat := 256

def store (cap : Nat) (out chunk : Bytes) : Except PathError Bytes :=
  if out.length + chunk.length ≤ cap then .ok (out ++ chunk) else .error .overrun

def terminate (cap : Nat) (out : Bytes) : Except PathError Unit :=
  if out.length + 1 ≤ cap then .ok () else .error .overrun

/-- `hex_value`. -/
def hexValue (c : UInt8) : Option Nat :=
  if 0x30 ≤ c ∧ c ≤ 0x39 then some (c.toNat - 0x30)
  else if 0x61 ≤ c ∧ c ≤ 0x66 then some (10 + (c.toNat - 0x61))
  else if 0x41 ≤ c ∧ c ≤ 0x46 then some (10 + (c.toNat - 0x41))
  else none

/-- `percent_decode`, from a position of the source on. -/
def percentDecode (cap : Nat) : Bytes → Bytes → Except PathError Bytes
  | [], out => do
    terminate cap out
    return out
  | c :: src, out =>
    if c = 0 then .error .badRequest
    else if c = 0x25 then
      match src with
      | hi :: lo :: src =>
        match hexValue hi, hexValue lo with
        | some hi, some lo =>
          let byte := UInt8.ofNat (16 * hi + lo)
          if byte = 0 ∨ byte = 0x5c then .error .badRequest
          else if cap ≤ out.length + 1 then .error .badRequest
          else do
            let out ← store cap out [byte]
            percentDecode cap src out
        | _, _ => .error .badRequest
      | _ => .error .badRequest
    else if c = 0x5c then .error .badRequest
    else if cap ≤ out.length + 1 then .error .badRequest
    else do
      let out ← store cap out [c]
      percentDecode cap src out

/-- The checks of one segment in `validate_segments`. -/
def validateSegment (mount : Mount) (seg : Bytes) : Except PathError Unit :=
  if seg = [] then .error .badRequest
  else if seg = [0x2e] then .error .forbidden
  else if seg = [0x2e, 0x2e] then .error .forbidden
  else if seg.head? = some 0x2e then
    match mount.dotfiles with
    | .deny => .error .forbidden
    | .ignore => .error .hide
    | .allow => .ok ()
  else .ok ()

/-- The loop of `validate_segments` from the start of a segment on. -/
def validateSegmentsFrom (mount : Mount) (segmentCount : Nat) (path : Bytes) :
    Except PathError Unit :=
  if path = [] then .ok ()
  else if maxSegments < segmentCount + 1 then .error .badRequest
  else
    match validateSegment mount (path.takeWhile (· ≠ 0x2f)) with
    | .error e => .error e
    | .ok () => validateSegmentsFrom mount (segmentCount + 1) ((path.dropWhile (· ≠ 0x2f)).drop 1)
termination_by path.length
decreasing_by
  have shorter := (List.dropWhile_suffix (· ≠ (0x2f : UInt8)) (l := path)).length_le
  have some : 0 < path.length := List.length_pos_iff.mpr ‹_›
  rw [List.length_drop]
  omega

/-- `validate_segments`. -/
def validateSegments (mount : Mount) (path : Bytes) : Except PathError Unit :=
  validateSegmentsFrom mount 0 (if path.head? = some 0x2f then path.drop 1 else path)

/-- What `http_static_path_resolve` writes: the path in the buffer of the caller, and where the
relative path begins in it. -/
structure ResolvedPath where
  fsPath : Bytes
  relativeAt : Nat
deriving DecidableEq, Repr

/-- `out_relative`. -/
def ResolvedPath.relative (r : ResolvedPath) : Bytes := r.fsPath.drop r.relativeAt

def requestTail (mount : Mount) (requestPath : Bytes) : Bytes :=
  (requestPath.drop mount.urlPrefix.length).takeWhile fun c => c ≠ 0x3f ∧ c ≠ 0x23

def rootSlash (mount : Mount) : Bytes :=
  if mount.rootDirectory ≠ [] ∧ mount.rootDirectory.getLast? ≠ some 0x2f then
    mount.rootDirectory ++ [0x2f]
  else mount.rootDirectory

/-- The writes of `http_static_path_resolve` into the buffer of the caller. -/
def writePath (mount : Mount) (outBufCap : Nat) (decoded : Bytes) :
    Except PathError ResolvedPath := do
  let out ← store outBufCap [] mount.rootDirectory
  let out ←
    if out ≠ [] ∧ out.getLast? ≠ some 0x2f then store outBufCap out [0x2f] else pure out
  let fsPath ← store outBufCap out decoded
  terminate outBufCap fsPath
  return { fsPath, relativeAt := out.length }

/-- `http_static_path_resolve`. -/
def httpStaticPathResolve (mount : Mount) (requestPath : Bytes) (outBufCap : Nat) :
    Except PathError ResolvedPath :=
  if requestPath.head? ≠ some 0x2f then .error .badRequest
  else if requestPath.length < mount.urlPrefix.length then .error .noMatch
  else if requestPath.take mount.urlPrefix.length ≠ mount.urlPrefix then .error .noMatch
  else
    match percentDecode maxPathLen (requestTail mount requestPath) [] with
    | .error e => .error e
    | .ok decoded =>
      match if decoded = [] then .ok () else validateSegments mount decoded with
      | .error e => .error e
      | .ok () =>
        if outBufCap < mount.rootDirectory.length + 1 + decoded.length + 1 then .error .badRequest
        else writePath mount outBufCap decoded

/-- `http_static_path_join`. -/
def httpStaticPathJoin (cap : Nat) (buf name : Bytes) : Option Bytes :=
  let needSep := buf = [] ∨ buf.getLast? ≠ some 0x2f
  let extra := (if needSep then 1 else 0) + name.length + 1
  if cap < buf.length + extra then none
  else some (buf ++ (if needSep then [0x2f] else []) ++ name)

/-- `path_targets_directory`. -/
def pathTargetsDirectory (relative : Bytes) : Bool := relative = [] || relative.getLast? = some 0x2f

section

variable (fnmatch : Bytes → Bytes → Bool)

/-- `http_static_path_is_hidden`; `fnmatch` is that of the C library with `FNM_PATHNAME`. -/
def httpStaticPathIsHidden (mount : Mount) (relative : Bytes) : Bool :=
  mount.hideGlobs.any fun glob => fnmatch (cString glob) relative

def pathSegments (path : Bytes) : List Bytes := (path.splitOn 0x2f).filter (· ≠ [])

/-- `stat` and `S_ISREG`. The file system says which lists of segments name a regular file; a path with
a slash at its end names a directory. -/
def statRegular (regular : List Bytes → Bool) (path : Bytes) : Bool :=
  (cString path).getLast? ≠ some 0x2f && regular (pathSegments (cString path))

def resolveIndex (regular : List Bytes → Bool) (cap : Nat) (fsPath : Bytes) :
    List Bytes → Option Bytes
  | [] => none
  | idx :: more =>
    match httpStaticPathJoin cap fsPath idx with
    | none => resolveIndex regular cap fsPath more
    | some candidate =>
      if statRegular regular candidate then some candidate
      else resolveIndex regular cap fsPath more

/-- What `http_static_try_serve_mounts` makes of a request path for one mount, before it looks at the
cache. -/
inductive Lookup where
  | noMatch
  | badRequest
  | notFound
  | hidden
  | noIndex
  | serve (fsPath : Bytes)
deriving DecidableEq, Repr

/-- The first half of the loop body of `http_static_try_serve_mounts`. -/
def lookupPath (regular : List Bytes → Bool) (mount : Mount) (requestPath : Bytes) : Lookup :=
  match httpStaticPathResolve mount requestPath maxPathLen with
  | .error .noMatch => .noMatch
  | .error .badRequest | .error .overrun => .badRequest
  | .error .forbidden => .notFound
  | .error .hide => .hidden
  | .ok r =>
    if r.relative ≠ [] ∧ httpStaticPathIsHidden fnmatch mount r.relative = true then .hidden
    else if pathTargetsDirectory r.relative then
      match resolveIndex regular maxPathLen r.fsPath mount.indexFiles with
      | none => .noIndex
      | some fsPath => .serve fsPath
    else .serve r.fsPath

end

end TrueAsync.Static

import Mathlib.Data.List.DropRight
import TrueAsync.Http1.Isolation

/-!
# The header fields of a request

What the header callbacks leave in the parser, for every way the names and values are cut into
fragments. `Assembly` puts the fragments together on its own terms: a header is a run of name
fragments followed by a run of value fragments. A parser that carries no text over from an earlier
message sees the same fields.
-/

namespace TrueAsync.Http1

open TrueAsync.Lib List HeadCallback

variable {Proc Form : Type} (ops : MultipartOps Proc Form)

/-! ## The headers as sent -/

/-- Headers put together from fragments; `name` and `value` are under way. -/
structure Assembly where
  done : List (Bytes × Bytes) := []
  name : Bytes := []
  value : Bytes := []
  inValue : Bool := false
  deriving DecidableEq, Repr

/-- A name fragment after a value begins the next header. -/
def Assembly.add (a : Assembly) : HeadCallback → Assembly
  | .url _ => a
  | .headerField text =>
      if a.inValue then { done := a.done ++ [(a.name, a.value)], name := text }
      else { a with name := a.name ++ text }
  | .headerValue text => { a with value := a.value ++ text, inValue := true }

/-- The headers whose value has begun. -/
def Assembly.fields (a : Assembly) : List (Bytes × Bytes) :=
  if a.inValue then a.done ++ [(a.name, a.value)] else a.done

/-- The header fields a head sends, in order. -/
def headerFields (head : List HeadCallback) : List (Bytes × Bytes) :=
  (head.foldl Assembly.add {}).fields

/-- The values of the fields with this lower-case name, in order. -/
def valuesOf (name : Bytes) (fields : List (Bytes × Bytes)) : List Bytes :=
  fields.filterMap fun field => if lower field.1 = name then some field.2 else none

/-- The elements of a comma-separated value, without optional white space and in lower case. -/
def listElements (value : Bytes) : List Bytes :=
  (value.splitOn 0x2c).map fun element => lower ((element.dropWhile isOws).rdropWhile isOws)

/-! ## The parser's counters against the headers -/

/-- The Content-Length counter and first value against the values sent. -/
def LengthsSeen (values : List Bytes) (count first : Nat) : Prop :=
  count = values.length ∧ ∀ v ∈ values, parseContentLength v = some first

/-- The flag is set by every Transfer-Encoding that starts with the word. -/
def EncodingsSeen (values : List Bytes) (chunked : Bool) : Prop :=
  ∀ v ∈ values, startsWithNoCase (ascii "chunked") v → chunked

/-- At most one Host, and a valid one. -/
def HostsSeen (values : List Bytes) (count : Nat) : Prop :=
  count = values.length ∧ count ≤ 1 ∧ ∀ v ∈ values, http1HostValueValid v

/-- At most one Content-Type. -/
def TypesSeen (values : List Bytes) (count : Nat) : Prop := count = values.length ∧ count ≤ 1

/-- What the counters say about the headers saved so far. -/
structure Seen (fields : List (Bytes × Bytes)) (p : Http1Parser) : Prop where
  lengths : LengthsSeen (valuesOf (ascii "content-length") fields) p.clSeenCount p.clValueFirst
  encodings : EncodingsSeen (valuesOf (ascii "transfer-encoding") fields) p.teChunkedSeen
  hosts : HostsSeen (valuesOf (ascii "host") fields) p.hostSeenCount
  types : TypesSeen (valuesOf (ascii "content-type") fields) p.ctSeenCount

/-- The counters `Seen` speaks of. -/
def Http1Parser.counters (p : Http1Parser) : Nat × Nat × Bool × Nat × Nat :=
  (p.clSeenCount, p.clValueFirst, p.teChunkedSeen, p.hostSeenCount, p.ctSeenCount)

variable {fields : List (Bytes × Bytes)}

theorem Seen.congr (seen : Seen fields p) (same : q.counters = p.counters) : Seen fields q := by
  simp only [Http1Parser.counters, Prod.mk.injEq] at same
  obtain ⟨count, first, chunked, host, type⟩ := same
  exact ⟨count ▸ first ▸ seen.lengths, chunked ▸ seen.encodings, host ▸ seen.hosts,
    type ▸ seen.types⟩

theorem valuesOf_snoc (key : Bytes) (name : Bytes) : valuesOf key (fields ++ [(name, value)]) =
      valuesOf key fields ++ if lower name = key then [value] else [] := by
  rw [valuesOf, filterMap_append]
  by_cases named : lower name = key <;> simp [valuesOf, named]

variable {values : List Bytes} {count : Nat}

theorem LengthsSeen.snoc (seen : LengthsSeen values count first)
    (parsed : parseContentLength value = some cl) (agrees : ¬ (count ≠ 0 ∧ cl ≠ first)) :
    LengthsSeen (values ++ [value]) (count + 1) (if count = 0 then cl else first) := by
  refine ⟨by rw [length_append, seen.1]; rfl, fun v listed => ?_⟩
  by_cases none : count = 0
  · have empty : values = [] := length_eq_zero_iff.mp (seen.1.symm.trans none)
    rw [empty, nil_append, mem_singleton] at listed
    rw [if_pos none, listed, parsed]
  · rw [if_neg none]
    rcases mem_append.mp listed with earlier | now
    · exact seen.2 v earlier
    · grind

theorem EncodingsSeen.snoc {chunked flag : Bool} (seen : EncodingsSeen values chunked)
    (kept : chunked → flag) (noticed : startsWithNoCase (ascii "chunked") value → flag) :
    EncodingsSeen (values ++ [value]) flag := by
  intro v listed starts
  rcases mem_append.mp listed with earlier | now
  · exact kept (seen v earlier starts)
  · rw [mem_singleton.mp now] at starts
    exact noticed starts

theorem HostsSeen.snoc (seen : HostsSeen values count)
    (valid : ¬ (count + 1 > 1 ∨ ¬ http1HostValueValid value)) :
    HostsSeen (values ++ [value]) (count + 1) := by
  simp only [not_or, Decidable.not_not] at valid
  refine ⟨by rw [length_append, seen.1]; rfl, le_of_not_gt valid.1, fun v listed => ?_⟩
  rcases mem_append.mp listed with earlier | now
  · exact seen.2.2 v earlier
  · grind

theorem TypesSeen.snoc (seen : TypesSeen values count) (once : ¬ count + 1 > 1) :
    TypesSeen (values ++ [value]) (count + 1) :=
  ⟨by rw [length_append, seen.1]; rfl, le_of_not_gt once⟩

variable {s : Parse Proc Form}

theorem inspectHeader_seen {t : Parse Proc Form}
    (accepted : inspectHeader (lower name) value s = (.ok, t)) (seen : Seen fields s.parser) :
    Seen (fields ++ [(name, value)]) t.parser := by
  have distinct : inspectedNames.Nodup := by decide
  simp only [inspectedNames, map_cons, map_nil, nodup_cons, mem_cons,
    not_mem_nil, or_false, not_or] at distinct
  obtain ⟨⟨lt, lh, ly, -⟩, ⟨th, ty, -⟩, ⟨hy, -⟩, -⟩ := distinct
  obtain ⟨lengths, encodings, hosts, types⟩ := seen
  unfold inspectHeader at accepted
  -- One header moves the part of its own name; the others see the same values as before.
  split at accepted
  · rename_i isLength
    split at accepted
    · cases accepted
    · rename_i cl parsed
      split at accepted
      · cases accepted
      · rename_i agrees
        cases accepted
        constructor
        all_goals simp [valuesOf_snoc, isLength, lt, lh, ly, encodings, hosts, types]
        exact lengths.snoc parsed agrees
  split at accepted
  · rename_i isEncoding
    have moved (flag : Bool) (kept : s.parser.teChunkedSeen → flag)
        (noticed : startsWithNoCase (ascii "chunked") value → flag) :
        Seen (fields ++ [(name, value)]) { s.parser with teChunkedSeen := flag } := by
      constructor
      all_goals simp [valuesOf_snoc, isEncoding, Ne.symm lt, th, ty, lengths, hosts, types]
      exact encodings.snoc kept noticed
    split at accepted
    · cases accepted
    · split at accepted
      · grind
      · rename_i unnoticed
        cases accepted
        exact moved s.parser.teChunkedSeen id fun starts => absurd starts unnoticed
  split at accepted
  · rename_i isHost
    dsimp only at accepted
    split at accepted
    · cases accepted
    · rename_i valid
      cases accepted
      constructor
      all_goals simp [valuesOf_snoc, isHost, Ne.symm lh, Ne.symm th, hy, lengths, encodings, types]
      exact hosts.snoc valid
  split at accepted
  · rename_i isType
    dsimp only at accepted
    split at accepted
    · cases accepted
    · rename_i once
      cases accepted
      constructor
      all_goals simp [valuesOf_snoc, isType, Ne.symm ly, Ne.symm ty, Ne.symm hy, lengths, encodings,
        hosts]
      exact types.snoc once
  have kept : t.parser = s.parser := by grind
  rw [kept]
  constructor
  all_goals grind [valuesOf_snoc]

/-! ## Connection lines -/

/-- `"connection"`. -/
def connectionName : Bytes := ascii "connection"

/-- The word at the start of a line: `keep-alive` is `true`, `close` is `false`. -/
def openingWord (line : Bytes) : Option Bool :=
  if startsWithNoCase (ascii "keep-alive") line then some true
  else if startsWithNoCase (ascii "close") line then some false
  else none

/-- What the request says of the Connection lines saved so far: the flag is the last word seen, and
the table has an entry if there was a line. -/
structure ConnectionRead (fields : List (Bytes × Bytes)) (req : HttpRequest Proc Form) : Prop where
  flag : req.keepAlive =
    ((valuesOf connectionName fields).filterMap openingWord).getLast?.getD false
  stored : ((req.headers.getD []).find? connectionName).isSome = true ↔
    valuesOf connectionName fields ≠ []

theorem find_isSome_iff (table : HeaderTable) (key : Bytes) :
    (table.find? key).isSome = true ↔ key ∈ table.map Prod.fst := by
  simp [HeaderTable.find?]

theorem find_store (table : HeaderTable) (name value key : Bytes) :
    ((httpRequestStoreHeader table name value).find? key).isSome = true ↔
      name = key ∨ (table.find? key).isSome = true := by
  unfold httpRequestStoreHeader
  simp only [find_isSome_iff]
  split
  · rw [map_append, mem_append, map_singleton, mem_singleton, or_comm, eq_comm]
  · rename_i old found
    have listed : name ∈ table.map Prod.fst := (find_isSome_iff table name).mp (by rw [found]; rfl)
    have keys (joined : Bytes) : (table.map fun entry => if entry.1 = name then (name, joined)
        else entry).map Prod.fst = table.map Prod.fst := by
      rw [map_map]
      refine map_congr_left fun entry _ => ?_
      by_cases same : entry.1 = name <;> simp [same]
    rw [keys]
    exact ⟨.inr, fun known => known.elim (· ▸ listed) id⟩

theorem inspectHeader_connection (s : Parse Proc Form) (name value : Bytes) :
    (inspectHeader name value s).2.req.headers = s.req.headers ∧
      (inspectHeader name value s).2.req.keepAlive =
        if name = connectionName then (openingWord value).getD s.req.keepAlive
        else s.req.keepAlive := by
  by_cases connection : name = connectionName
  · subst connection
    unfold inspectHeader openingWord
    rw [if_pos rfl, if_neg (by decide), if_neg (by decide), if_neg (by decide),
      if_neg (by decide), if_pos (by decide)]
    repeat' split
    all_goals exact ⟨rfl, rfl⟩
  · rw [if_neg connection]
    unfold inspectHeader
    dsimp only
    repeat' split
    all_goals first | exact ⟨rfl, rfl⟩ | contradiction

theorem ConnectionRead.settle {fields : List (Bytes × Bytes)} {t : Parse Proc Form}
    (read : ConnectionRead fields s.req)
    (accepted : inspectHeader (lower name) value s = (.ok, t)) :
    ConnectionRead (fields ++ [(name, value)]) (settleHeader (lower name) value (.ok, t)).req := by
  have moved := inspectHeader_connection s (lower name) value
  rw [accepted] at moved
  obtain ⟨headers, flag⟩ := moved
  have first := read.flag
  constructor
  · show t.req.keepAlive = _
    rw [flag, valuesOf_snoc]
    by_cases connection : lower name = connectionName
    · rw [if_pos connection, if_pos connection, filterMap_append, first]
      cases word : openingWord value <;> simp [word]
    · rw [if_neg connection, if_neg connection, append_nil, first]
  · show ((httpRequestStoreHeader (t.req.headers.getD []) _ _).find? _).isSome = true ↔ _
    rw [find_store, headers, read.stored, valuesOf_snoc]
    by_cases connection : lower name = connectionName
    · simp [connection]
    · simp [connection]

/-! ## Errors stay recorded -/

/-- Every callback of a head, whatever the earlier ones returned. -/
def runHead (head : List HeadCallback) (s : Parse Proc Form) : Parse Proc Form :=
  head.foldl (fun s c => (c.run s).2) s

theorem inspectHeader_parseError (name value : Bytes) (s : Parse Proc Form) :
    (inspectHeader name value s).2.parser.parseError = s.parser.parseError := by
  unfold inspectHeader
  dsimp only
  repeat' split
  all_goals rfl

theorem saveCurrentHeader_sticky (clean : (saveCurrentHeader s).parser.parseError = .ok) :
    s.parser.parseError = .ok := by
  unfold saveCurrentHeader at clean
  split at clean
  · split at clean
    · cases clean
    · rename_i rawName value _ _ _
      have kept := inspectHeader_parseError (lower rawName) value (countHeader (lower rawName) s)
      dsimp only at clean
      generalize inspectHeader (lower rawName) value (countHeader (lower rawName) s) = outcome
        at clean kept
      obtain ⟨err, t⟩ := outcome
      cases err
      case ok => exact kept.symm.trans clean
      all_goals cases clean
  · exact clean

theorem flushHeader_sticky (clean : (flushHeader s).parser.parseError = .ok) :
    s.parser.parseError = .ok := by
  grind [flushHeader, saveCurrentHeader_sticky]

/-! ## The parser follows the assembly -/

/-- While no error is recorded, the builders hold the header under way and the counters
describe the headers before it. -/
structure Tracks (a : Assembly) (s : Parse Proc Form) : Prop where
  name : contents s.parser.headerNameBuilder = a.name
  value : contents s.parser.headerValueBuilder = a.value
  reading : s.parser.inHeaderValue = a.inValue
  building : Building s.parser
  seen : Seen a.done s.parser
  connections : ConnectionRead a.done s.req

theorem Tracks.initHeaders (tracks : Tracks a s) : Tracks a (initHeaders s) :=
  { tracks with connections := ⟨tracks.connections.flag, tracks.connections.stored⟩ }

theorem saveCurrentHeader_seen (named : s.parser.headerNameBuilder = some name)
    (valued : s.parser.headerValueBuilder = some value) (seen : Seen fields s.parser)
    (connections : ConnectionRead fields s.req)
    (clean : (saveCurrentHeader s).parser.parseError = .ok) :
    Seen (fields ++ [(name, value)]) (saveCurrentHeader s).parser ∧
      ConnectionRead (fields ++ [(name, value)]) (saveCurrentHeader s).req ∧
      (saveCurrentHeader s).parser.headerNameBuilder = none ∧
      (saveCurrentHeader s).parser.headerValueBuilder = none := by
  simp only [saveCurrentHeader, named, valued] at clean ⊢
  split at clean
  · cases clean
  · rename_i room
    rw [if_neg room]
    have counted : Seen fields (countHeader (lower name) s).parser := seen.congr rfl
    cases outcome : inspectHeader (lower name) value (countHeader (lower name) s) with
    | mk err t =>
      rw [outcome] at clean
      cases err
      case ok =>
        exact ⟨(inspectHeader_seen outcome counted).congr rfl,
          ConnectionRead.settle (s := countHeader (lower name) s) { connections with } outcome,
          rfl, rfl⟩
      all_goals cases clean

variable {a : Assembly}

theorem flushHeader_tracks (tracks : Tracks a s) (clean : (flushHeader s).parser.parseError = .ok) :
    Seen a.fields (flushHeader s).parser ∧ ConnectionRead a.fields (flushHeader s).req ∧
      contents (flushHeader s).parser.headerNameBuilder = (if a.inValue then [] else a.name) ∧
      contents (flushHeader s).parser.headerValueBuilder = if a.inValue then [] else a.value := by
  unfold flushHeader Assembly.fields at *
  rw [tracks.reading] at *
  by_cases under : a.inValue = true
  · simp only [if_pos under] at clean ⊢
    have reading := tracks.reading.trans under
    obtain ⟨name, named⟩ := Option.isSome_iff_exists.mp (tracks.building reading).1
    obtain ⟨value, valued⟩ := Option.isSome_iff_exists.mp (tracks.building reading).2
    obtain ⟨seen, connections, noName, noValue⟩ :=
      saveCurrentHeader_seen named valued tracks.seen tracks.connections clean
    rw [← tracks.name, ← tracks.value, named, valued, noName, noValue]
    exact ⟨seen.congr rfl, connections, rfl, rfl⟩
  · simp only [if_neg under]
    exact ⟨tracks.seen, tracks.connections, tracks.name, tracks.value⟩

/-- A callback after which no error is recorded found none. -/
theorem HeadCallback.run_clean (a : Assembly) (c : HeadCallback)
    (clean : (c.run s).2.parser.parseError = .ok) :
    s.parser.parseError = .ok ∧ (Tracks a s → Tracks (a.add c) (c.run s).2) := by
  have building (tracks : Tracks a s) := c.run_building tracks.building
  cases c with
  | url text =>
    simp only [run, onParser] at clean building ⊢
    rcases onUrl_cases text s.parser with ⟨err, bad, refused⟩ | appended
    · rw [refused] at clean
      exact absurd clean bad
    · rw [appended] at clean building ⊢
      exact ⟨clean, fun tracks =>
        { tracks with building := building tracks, seen := tracks.seen.congr rfl }⟩
  | headerField text =>
    simp only [run, onHeaderField] at clean building ⊢
    rcases appendHeaderName_cases text (flushHeader (initHeaders s)) with ⟨err, bad, refused⟩ | appended
    · rw [refused] at clean
      exact absurd clean bad
    · rw [appended] at clean building ⊢
      refine ⟨flushHeader_sticky (s := initHeaders s) clean, fun tracks => ?_⟩
      obtain ⟨seen, connections, name, value⟩ := flushHeader_tracks tracks.initHeaders clean
      have idle := flushHeader_inHeaderValue (initHeaders s)
      by_cases under : a.inValue = true
      · simp only [Assembly.fields, if_pos under] at name value seen connections
        simp only [Assembly.add, if_pos under]
        refine ⟨?_, value, idle, building tracks, seen.congr rfl, connections⟩
        rw [contents_smartStrAppend, name]
        rfl
      · simp only [Assembly.fields, if_neg under] at name value seen connections
        simp only [Assembly.add, if_neg under]
        refine ⟨?_, value, idle.trans (Bool.not_eq_true _ ▸ under).symm, building tracks,
          seen.congr rfl, connections⟩
        rw [contents_smartStrAppend, name]
  | headerValue text =>
    simp only [run, onParser] at clean building ⊢
    rcases onHeaderValue_cases text s.parser with ⟨err, bad, refused⟩ | ⟨-, appended⟩
    · rw [refused] at clean
      exact absurd clean bad
    · rw [appended] at clean building ⊢
      refine ⟨clean, fun tracks => ⟨tracks.name, ?_, rfl, building tracks, tracks.seen.congr rfl,
        tracks.connections⟩⟩
      rw [contents_smartStrAppend, tracks.value]
      rfl

theorem runHead_sticky (head : List HeadCallback)
    (clean : (runHead head s).parser.parseError = .ok) : s.parser.parseError = .ok := by
  induction head generalizing s with
  | nil => exact clean
  | cons c rest ih => exact (c.run_clean {} (ih clean)).1

theorem runHead_tracks (head : List HeadCallback) (tracks : Tracks a s)
    (clean : (runHead head s).parser.parseError = .ok) :
    Tracks (head.foldl Assembly.add a) (runHead head s) := by
  induction head generalizing a s with
  | nil => exact tracks
  | cons c rest ih => exact ih ((c.run_clean a (runHead_sticky rest clean)).2 tracks) clean

/-! ## Accepted requests -/

/-- `on_headers_complete` returns `0` after these callbacks. -/
def Accepted (p : Http1Parser) (head : List HeadCallback) (line : RequestLine) (env : Admission) :
    Prop :=
  (onHeadersComplete ops line env (runHead head (onMessageBegin p))).1.result = .ok

instance (p : Http1Parser) (head : List HeadCallback) (line : RequestLine) (env : Admission) :
    Decidable (Accepted ops p head line env) := inferInstanceAs (Decidable (_ = _))

variable {p : Http1Parser} {line : RequestLine} {head : List HeadCallback}

theorem Accepted.checked (accepted : Accepted ops p head line env) :
    let s := flushHeader (initHeaders (runHead head (onMessageBegin p : Parse Proc Form)))
    s.parser.parseError = .ok ∧ framingError line s.parser = none := by
  have passed : (onHeadersComplete ops line env
      (runHead head (onMessageBegin p))).1.result ≠ .failed := by
    rw [accepted]
    nofun
  unfold onHeadersComplete at passed
  split at passed
  · exact absurd rfl passed
  · grind [acceptHeaders_accepted]

theorem Accepted.read (accepted : Accepted ops p head line env) (fresh : p.carried = ([], [])) :
    let s := flushHeader (initHeaders (runHead head (onMessageBegin p : Parse Proc Form)))
    Seen (headerFields head) s.parser ∧ ConnectionRead (headerFields head) s.req := by
  obtain ⟨clean, -⟩ := accepted.checked
  simp only [Http1Parser.carried, Prod.mk.injEq, lower_eq_nil] at fresh
  have start : Tracks {} (onMessageBegin p : Parse Proc Form) :=
    ⟨fresh.1, fresh.2, rfl, nofun, ⟨⟨rfl, nofun⟩, nofun, ⟨rfl, Nat.zero_le _, nofun⟩,
      ⟨rfl, Nat.zero_le _⟩⟩, ⟨rfl, iff_of_false nofun (· rfl)⟩⟩
  have tracks := runHead_tracks head start (flushHeader_sticky (s := initHeaders _) clean)
  obtain ⟨seen, connections, -⟩ := flushHeader_tracks tracks.initHeaders clean
  exact ⟨seen, connections⟩

end TrueAsync.Http1

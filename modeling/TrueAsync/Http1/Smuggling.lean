import TrueAsync.Http1.HeadFields

/-!
# Request framing

What `on_headers_complete` has checked when it accepts a request, for every way the header
names and values are cut into fragments. `Defended` is the framing discipline on the headers as
they were sent.

The discipline holds but for two points. Text that an earlier trailer has left in the builders
hides the name of the first header. And a Transfer-Encoding counts as chunked only when its value
starts with the word, so a list such as `gzip, chunked` may stand beside a Content-Length.
-/

namespace TrueAsync.Http1

open TrueAsync.Lib List HeadCallback

variable {Proc Form : Type} (ops : MultipartOps Proc Form)

/-! ## The discipline -/

/-- The number a run of decimal digits denotes. -/
def decimalValue (digits : Bytes) : Nat := digits.foldl (fun n b => n * 10 + (b.toNat - 48)) 0

/-- `1*DIGIT` with a value below `2 ^ 64`. -/
def StrictDecimal (text : Bytes) (n : Nat) : Prop :=
  text ≠ [] ∧ (∀ b ∈ text, 48 ≤ b.toNat ∧ b.toNat ≤ 57) ∧ decimalValue text = n ∧ n < 2 ^ 64

/-- The coding list of a Transfer-Encoding names `chunked`. -/
def UsesChunked (value : Bytes) : Prop := ascii "chunked" ∈ listElements value

instance (value : Bytes) : Decidable (UsesChunked value) := inferInstanceAs (Decidable (_ ∈ _))

/-- The authority of `//text` read as a URI reference (RFC 3986, appendix B): what stands before a
path, a query or a fragment. -/
def uriAuthority (text : Bytes) : Bytes :=
  text.takeWhile fun b => b ≠ 0x2f && b ≠ 0x3f && b ≠ 0x23

/-- A Host is a non-empty authority and nothing else, without user information (what an `@` ends)
and white space, and not a list of several. The characters of the name itself are left open. -/
structure ValidHost (value : Bytes) : Prop where
  some : value ≠ []
  whole : uriAuthority value = value
  noUser : value.splitOn 0x40 = [value]
  single : value.splitOn 0x2c = [value]
  solid : ∀ b ∈ value, isOws b = false

/-- The framing discipline for a request with these header fields. -/
structure Defended (line : RequestLine) (fields : List (Bytes × Bytes)) : Prop where
  lengths : ∃ n, ∀ v ∈ valuesOf (ascii "content-length") fields, StrictDecimal v n
  framing : valuesOf (ascii "content-length") fields ≠ [] →
    ∀ v ∈ valuesOf (ascii "transfer-encoding") fields, ¬ UsesChunked v
  host : line.minor = 1 → ∃ v, valuesOf (ascii "host") fields = [v] ∧ ValidHost v
  contentType : (valuesOf (ascii "content-type") fields).length ≤ 1

/-- Beside a Content-Length, chunked stands first in every Transfer-Encoding that uses it. -/
def ChunkedFirst (fields : List (Bytes × Bytes)) : Prop :=
  valuesOf (ascii "content-length") fields ≠ [] →
    ∀ v ∈ valuesOf (ascii "transfer-encoding") fields,
      UsesChunked v → startsWithNoCase (ascii "chunked") v

instance (fields : List (Bytes × Bytes)) : Decidable (ChunkedFirst fields) :=
  inferInstanceAs (Decidable (_ → _))

/-! ## The checks against the discipline -/

theorem parseContentLengthLoop_spec (parsed : parseContentLengthLoop v text = some n)
    (small : v < 2 ^ 64) : (∀ b ∈ text, 48 ≤ b.toNat ∧ b.toNat ≤ 57) ∧
      text.foldl (fun n b => n * 10 + (b.toNat - 48)) v = n ∧ n < 2 ^ 64 := by
  induction text generalizing v with
  | nil =>
    cases parsed
    exact ⟨nofun, rfl, small⟩
  | cons b rest ih =>
    simp only [parseContentLengthLoop] at parsed
    split at parsed
    · cases parsed
    · rename_i digit
      split at parsed
      · cases parsed
      · rename_i fits
        have lo : 48 ≤ b.toNat ∧ b.toNat ≤ 57 := by
          simp only [not_or, UInt8.not_lt, UInt8.le_iff_toNat_le] at digit
          exact digit
        have value : (b - 0x30).toNat = b.toNat - 48 := by
          rw [UInt8.toNat_sub_of_le]
          · rfl
          · exact lo.1
        rw [value] at parsed fits
        have bound : v * 10 + (b.toNat - 48) < 2 ^ 64 := by
          unfold uint64Max at fits
          omega
        obtain ⟨digits, total, final⟩ := ih parsed bound
        refine ⟨?_, total, final⟩
        intro c listed
        rcases mem_cons.mp listed with rfl | later
        · exact lo
        · exact digits c later

theorem parseContentLength_strict (parsed : parseContentLength text = some n) :
    StrictDecimal text n := by
  unfold parseContentLength at parsed
  split at parsed
  · cases parsed
  · rename_i nonempty
    obtain ⟨digits, total, bound⟩ := parseContentLengthLoop_spec parsed (by decide)
    exact ⟨nonempty, digits, total, bound⟩

variable {value : Bytes}

theorem validHost_of_check (valid : http1HostValueValid value = true) : ValidHost value := by
  simp only [http1HostValueValid, Bool.and_eq_true, decide_eq_true_eq, all_eq_true,
    Bool.not_eq_true', contains_eq_mem, decide_eq_false_iff_not] at valid
  obtain ⟨some, clean⟩ := valid
  have absent (b : UInt8) (listed : b ∈ hostForbidden) : b ∉ value := fun has => clean b has listed
  refine ⟨some, ?_, splitOn_eq_singleton (absent _ (by decide)),
    splitOn_eq_singleton (absent _ (by decide)), fun b has => ?_⟩
  · refine takeWhile_eq_self_iff.mpr fun b has => ?_
    have free := clean b has
    simp only [hostForbidden, mem_cons, not_or] at free
    simp [free]
  · have free := clean b has
    simp only [hostForbidden, mem_cons, not_or] at free
    simp [isOws, free]

variable {fields : List (Bytes × Bytes)} {p : Http1Parser} {line : RequestLine}

theorem Seen.disciplined (seen : Seen fields p) (framed : framingError line p = none) :
    (∃ n, ∀ v ∈ valuesOf (ascii "content-length") fields, StrictDecimal v n) ∧
      (line.minor = 1 → ∃ v, valuesOf (ascii "host") fields = [v] ∧ ValidHost v) ∧
      (valuesOf (ascii "content-type") fields).length ≤ 1 := by
  refine ⟨⟨p.clValueFirst, fun v listed => parseContentLength_strict (seen.lengths.2 v listed)⟩,
    fun modern => ?_, seen.types.1 ▸ seen.types.2⟩
  obtain ⟨count, once, valid⟩ := seen.hosts
  have present : p.hostSeenCount ≠ 0 := by
    intro none
    unfold framingError at framed
    split at framed
    · cases framed
    · split at framed
      · cases framed
      · rw [if_pos ⟨modern, none⟩] at framed
        cases framed
  have single : (valuesOf (ascii "host") fields).length = 1 := by omega
  obtain ⟨v, only⟩ := length_eq_one_iff.mp single
  exact ⟨v, only, validHost_of_check (valid v (by rw [only]; exact mem_singleton_self v))⟩

theorem Seen.unframed (seen : Seen fields p) (framed : framingError line p = none)
    (first : ChunkedFirst fields) (present : valuesOf (ascii "content-length") fields ≠ []) :
    ∀ v ∈ valuesOf (ascii "transfer-encoding") fields, ¬ UsesChunked v := by
  intro v listed uses
  have chunked : p.teChunkedSeen = true := seen.encodings v listed (first present v listed uses)
  have counted : p.clSeenCount > 0 := by
    rw [seen.lengths.1]
    exact length_pos_iff.mpr present
  rw [framingError, if_pos ⟨counted, chunked⟩] at framed
  cases framed

theorem Seen.defended_iff (seen : Seen fields p) (framed : framingError line p = none) :
    Defended line fields ↔ ChunkedFirst fields := by
  constructor
  · intro defended present v listed uses
    exact absurd uses (defended.framing present v listed)
  · intro first
    obtain ⟨lengths, host, contentType⟩ := seen.disciplined framed
    exact ⟨lengths, seen.unframed framed first, host, contentType⟩

/-! ## The result -/

/-- No error is forgotten, and on a parser that carries nothing over from an earlier trailer an
accepted request keeps the discipline exactly when, beside a Content-Length, chunked stands first in
every Transfer-Encoding that uses it. -/
theorem smuggling_defended_iff (p : Http1Parser) :
    (∀ head line env before after, head = before ++ after →
      (runHead before (onMessageBegin p : Parse Proc Form)).parser.parseError ≠ .ok →
        ¬ Accepted ops p head line env) ∧
    (p.carried = ([], []) → ∀ head line env, Accepted ops p head line env →
      (Defended line (headerFields head) ↔ ChunkedFirst (headerFields head))) := by
  constructor
  · rintro head line env before after rfl recorded accepted
    have clean := flushHeader_sticky (s := initHeaders _) accepted.checked.1
    apply recorded
    have split : runHead (before ++ after) (onMessageBegin p : Parse Proc Form) =
        runHead after (runHead before (onMessageBegin p)) := foldl_append
    exact runHead_sticky after (split ▸ clean)
  · intro fresh head line env accepted
    exact (accepted.read ops fresh).1.defended_iff (accepted.checked ops).2

/-- A GET with `Host: a` and a split Content-Length is accepted and defended. -/
theorem smuggling_defended_get : Defended { method := ascii "GET", major := 1, minor := 1 }
      (headerFields [.headerField (ascii "Ho"), .headerField (ascii "st"), .headerValue (ascii "a"),
        .headerField (ascii "Content-Length"), .headerValue (ascii "1"), .headerValue (ascii "2")]) :=
  ((smuggling_defended_iff noForms freshParser).2 rfl _ _ {} (by decide)).mpr (by decide)

/-- `Host: a` and `Host: b`. -/
def hostTwice : List HeadCallback :=
  [.headerField (ascii "Host"), .headerValue (ascii "a"), .headerField (ascii "Host"),
    .headerValue (ascii "b")]

/-- After a request with the trailer field `x: y`, a request with two Hosts is accepted. -/
theorem trailer_hides_host :
    let line : RequestLine := { method := ascii "OPTIONS", major := 1, minor := 1 }
    ∃ q, runHistory noForms [postWithTrailer] freshParser = .ok q ∧
      Accepted noForms q hostTwice line {} ∧ ¬ Defended line (headerFields hostTwice) := by
  refine ⟨_, rfl, by decide, fun defended => ?_⟩
  obtain ⟨v, two, -⟩ := defended.host rfl
  cases two

end TrueAsync.Http1

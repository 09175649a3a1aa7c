import TrueAsync.Lib.Cut

/-!
# Heads under RFC 9112

A recipient's parser for the head of a response or a request: a start line, field lines up to an
empty line, and what comes after it. Section 2.2 lets a recipient take a single LF for a line end; `bareLf`
says whether it does. A head that strays from the grammar is refused.
-/

namespace TrueAsync.Http1

open TrueAsync.Lib List

/-- A status line. -/
structure StatusLine where
  version : Bytes
  code : Bytes
  reason : Bytes
  deriving DecidableEq, Repr

/-- A parsed head with the bytes after it. -/
structure ParsedHead where
  status : StatusLine
  fields : List (Bytes × Bytes)
  rest : Bytes
  deriving DecidableEq, Repr

/-- A parsed head of a request with the bytes after it. -/
structure ParsedRequest where
  method : Bytes
  target : Bytes
  version : Bytes
  fields : List (Bytes × Bytes)
  rest : Bytes
  deriving DecidableEq, Repr

/-! ## Characters -/

def isDigit (b : UInt8) : Bool := 0x30 ≤ b && b ≤ 0x39

def isAlpha (b : UInt8) : Bool := (0x41 ≤ b && b ≤ 0x5a) || (0x61 ≤ b && b ≤ 0x7a)

/-- `tchar`. -/
def isTchar (b : UInt8) : Bool := isDigit b || isAlpha b || (ascii "!#$%&'*+-.^_`|~").contains b

/-- `HTAB / SP / VCHAR / obs-text`. -/
def isText (b : UInt8) : Bool := b == 0x09 || (0x20 ≤ b && b != 0x7f)

/-- `token`. -/
def IsToken (name : Bytes) : Prop := name ≠ [] ∧ ∀ b ∈ name, isTchar b

def trimOws (text : Bytes) : Bytes := ((text.dropWhile isOws).reverse.dropWhile isOws).reverse

/-- `field-value`. -/
def IsFieldValue (value : Bytes) : Prop := trimOws value = value ∧ ∀ b ∈ value, isText b

/-- `HTTP-version`. -/
def isHttpVersion (text : Bytes) : Bool :=
  match text.drop 5 with
  | [major, dot, minor] =>
      text.take 5 == ascii "HTTP/" && isDigit major && dot == 0x2e && isDigit minor
  | _ => false

/-- `status-code`. -/
def IsStatusCode (text : Bytes) : Prop := text.length = 3 ∧ ∀ b ∈ text, isDigit b

/-- `pchar` but for `pct-encoded`, with the slash and the question mark. -/
def isTargetChar (b : UInt8) : Bool :=
  isDigit b || isAlpha b || (ascii "-._~!$&'()*+,;=:@/?").contains b

def isHexDigit (b : UInt8) : Bool := isDigit b || (0x41 ≤ b && b ≤ 0x46) || (0x61 ≤ b && b ≤ 0x66)

def isTargetText : Bytes → Bool
  | [] => true
  | [b] => isTargetChar b
  | [b, c] => isTargetChar b && isTargetChar c
  | b :: c :: d :: rest =>
      if b = 0x25 then isHexDigit c && isHexDigit d && isTargetText rest
      else isTargetChar b && isTargetText (c :: d :: rest)

/-- `origin-form`. -/
def IsOriginForm (target : Bytes) : Prop := target.head? = some 0x2f ∧ isTargetText target

instance (target : Bytes) : Decidable (IsOriginForm target) := inferInstanceAs (Decidable (_ ∧ _))

instance (name : Bytes) : Decidable (IsToken name) := inferInstanceAs (Decidable (_ ∧ _))

instance (value : Bytes) : Decidable (IsFieldValue value) := inferInstanceAs (Decidable (_ ∧ _))

instance (text : Bytes) : Decidable (IsStatusCode text) := inferInstanceAs (Decidable (_ ∧ _))

/-! ## The parser -/

def headLine (bareLf : Bool) (bytes : Bytes) : Option (Bytes × Bytes) :=
  match cutAt 0x0a bytes with
  | none => none
  | some (line, rest) =>
      if line.getLast? = some 0x0d then some (line.dropLast, rest)
      else if bareLf then some (line, rest)
      else none

/-- `status-line`. -/
def parseStatusLine (line : Bytes) : Option StatusLine :=
  match cutAt 0x20 line with
  | none => none
  | some (version, rest) =>
      match cutAt 0x20 rest with
      | none => none
      | some (code, reason) =>
          if isHttpVersion version ∧ IsStatusCode code ∧ ∀ b ∈ reason, isText b then
            some { version, code, reason }
          else none

/-- `request-line` with a target in origin form. -/
def parseRequestLine (line : Bytes) : Option (Bytes × Bytes × Bytes) :=
  match cutAt 0x20 line with
  | none => none
  | some (method, rest) =>
      match cutAt 0x20 rest with
      | none => none
      | some (target, version) =>
          if IsToken method ∧ IsOriginForm target ∧ isHttpVersion version then
            some (method, target, version)
          else none

/-- `field-line`. -/
def parseFieldLine (line : Bytes) : Option (Bytes × Bytes) :=
  match cutAt 0x3a line with
  | none => none
  | some (name, value) =>
      if IsToken name ∧ IsFieldValue (trimOws value) then some (name, trimOws value) else none

/-- The field lines up to an empty line; every line takes a byte of fuel. -/
def parseFields (bareLf : Bool) : Nat → Bytes → Option (List (Bytes × Bytes) × Bytes)
  | 0, _ => none
  | fuel + 1, bytes =>
      match headLine bareLf bytes with
      | none => none
      | some ([], rest) => some ([], rest)
      | some (line, rest) =>
          match parseFieldLine line, parseFields bareLf fuel rest with
          | some field, some (fields, rest) => some (field :: fields, rest)
          | _, _ => none

def parseHead (bareLf : Bool) (bytes : Bytes) : Option ParsedHead :=
  match headLine bareLf bytes with
  | none => none
  | some (line, rest) =>
      match parseStatusLine line, parseFields bareLf rest.length rest with
      | some status, some (fields, rest) => some { status, fields, rest }
      | _, _ => none

def parseRequest (bareLf : Bool) (bytes : Bytes) : Option ParsedRequest :=
  match headLine bareLf bytes with
  | none => none
  | some (line, rest) =>
      match parseRequestLine line, parseFields bareLf rest.length rest with
      | some (method, target, version), some (fields, rest) =>
          some { method, target, version, fields, rest }
      | _, _ => none

/-! ## What is accepted is well formed -/

variable {line : Bytes}

theorem parseStatusLine_text
    (parsed : parseStatusLine line = some status) : ∀ b ∈ status.reason, isText b := by
  grind [parseStatusLine]

theorem parseFieldLine_valid
    (parsed : parseFieldLine line = some field) : IsToken field.1 ∧ IsFieldValue field.2 := by
  grind [parseFieldLine]

variable {fields : List (Bytes × Bytes)} {bareLf : Bool} {bytes : Bytes} {fuel : Nat}

theorem parseFields_valid (parsed : parseFields bareLf fuel bytes = some (fields, rest)) :
    ∀ field ∈ fields, IsToken field.1 ∧ IsFieldValue field.2 := by
  induction fuel generalizing bytes fields with
  | zero => cases parsed
  | succ fuel ih =>
    unfold parseFields at parsed
    split at parsed
    · cases parsed
    · cases parsed
      nofun
    · split at parsed
      · rename_i first later
        cases parsed
        intro field member
        rcases mem_cons.mp member with rfl | member
        · exact parseFieldLine_valid first
        · exact ih later field member
      · cases parsed

theorem parseHead_valid {head : ParsedHead}
    (parsed : parseHead bareLf bytes = some head) : (∀ b ∈ head.status.reason, isText b) ∧
      ∀ field ∈ head.fields, IsToken field.1 ∧ IsFieldValue field.2 := by
  unfold parseHead at parsed
  split at parsed
  · cases parsed
  · split at parsed
    · rename_i status fields
      cases parsed
      exact ⟨parseStatusLine_text status, parseFields_valid fields⟩
    · cases parsed

variable {version : Bytes}

theorem parseRequestLine_valid
    (parsed : parseRequestLine line = some (method, target, version)) : IsOriginForm target := by
  grind [parseRequestLine]

theorem parseRequest_valid {head : ParsedRequest} (parsed : parseRequest bareLf bytes = some head) :
    IsOriginForm head.target ∧ ∀ field ∈ head.fields, IsToken field.1 ∧ IsFieldValue field.2 := by
  unfold parseRequest at parsed
  split at parsed
  · cases parsed
  · split at parsed
    · rename_i start fields
      cases parsed
      exact ⟨parseRequestLine_valid start, parseFields_valid fields⟩
    · cases parsed

/-! ## What is well formed is accepted -/

variable {text : Bytes}

theorem lf_notMem_of_text (valid : ∀ b ∈ text, isText b) : 0x0a ∉ text :=
  fun member => absurd (valid _ member) (by decide)

variable {name : Bytes}

theorem colon_notMem_of_token (token : IsToken name) : 0x3a ∉ name :=
  fun member => absurd (token.2 _ member) (by decide)

theorem lf_notMem_of_token (token : IsToken name) : 0x0a ∉ name :=
  fun member => absurd (token.2 _ member) (by decide)

theorem trimOws_eq_self (first : ∀ b ∈ text.head?, isOws b = false)
    (last : ∀ b ∈ text.getLast?, isOws b = false) : trimOws text = text := by
  have front : text.dropWhile isOws = text := by
    cases text with
    | nil => rfl
    | cons b rest => simp_all
  have back : text.reverse.dropWhile isOws = text.reverse := by
    cases reversed : text.reverse with
    | nil => rfl
    | cons b rest => simp_all
  rw [trimOws, front, back, reverse_reverse]

theorem isFieldValue_of_visible (visible : ∀ b ∈ text, isText b ∧ isOws b = false) :
    IsFieldValue text := by
  refine ⟨trimOws_eq_self ?_ ?_, fun b member => (visible b member).1⟩
  · grind
  · grind

theorem headLine_append (bareLf : Bool) (noLf : 0x0a ∉ line) (rest : Bytes) :
    headLine bareLf (line ++ 0x0d :: 0x0a :: rest) = some (line, rest) := by
  have whole : line ++ 0x0d :: 0x0a :: rest = (line ++ [0x0d]) ++ 0x0a :: rest := by simp
  grind [headLine, cutAt_append]

theorem parseFieldLine_append (token : IsToken name)
    (valid : IsFieldValue value) : parseFieldLine (name ++ 0x3a :: 0x20 :: value) =
      some (name, value) := by
  have trimmed : trimOws (0x20 :: value) = value := by exact valid.1
  grind [parseFieldLine, cutAt_append, colon_notMem_of_token]

theorem parseStatusLine_append (start : isHttpVersion version) (noSpace : 0x20 ∉ version)
    (status : IsStatusCode code) (text : ∀ b ∈ reason, isText b) :
    parseStatusLine (version ++ 0x20 :: (code ++ 0x20 :: reason)) =
      some { version, code, reason } := by
  have digits : 0x20 ∉ code := fun member => absurd (status.2 _ member) (by decide)
  grind [parseStatusLine, cutAt_append]

def headerLines (fields : List (Bytes × Bytes)) : Bytes :=
  fields.flatMap fun field => field.1 ++ 0x3a :: 0x20 :: field.2 ++ [0x0d, 0x0a]

theorem parseFields_headerLines (bareLf : Bool)
    (valid : ∀ field ∈ fields, IsToken field.1 ∧ IsFieldValue field.2) (fuel : Nat) (rest : Bytes) :
    parseFields bareLf (fields.length + fuel) (headerLines fields ++ rest) =
      (parseFields bareLf fuel rest).map fun later => (fields ++ later.1, later.2) := by
  induction fields with
  | nil =>
    simp only [headerLines, flatMap_nil, nil_append, length_nil, Nat.zero_add]
    exact Option.map_id'.symm
  | cons field fields ih =>
    obtain ⟨token, value⟩ := valid field mem_cons_self
    have noLf : 0x0a ∉ field.1 ++ 0x3a :: 0x20 :: field.2 := by
      simp only [mem_append, mem_cons, not_or]
      exact ⟨lf_notMem_of_token token, by decide, by decide, lf_notMem_of_text value.2⟩
    have later := ih (fun f member => valid f (mem_cons_of_mem _ member))
    have line : headerLines (field :: fields) ++ rest =
        (field.1 ++ 0x3a :: 0x20 :: field.2) ++ 0x0d :: 0x0a :: (headerLines fields ++ rest) := by
      simp [headerLines]
    rw [length_cons, Nat.succ_add, parseFields, line, headLine_append bareLf noLf]
    split
    · rename_i empty
      cases empty
    · rename_i empty
      simp at empty
    · rename_i same
      cases same
      rw [parseFieldLine_append token value, later]
      cases parseFields bareLf fuel rest <;> rfl

theorem parseFields_empty (fuel : Nat) (rest : Bytes) :
    parseFields bareLf (fuel + 1) (0x0d :: 0x0a :: rest) = some ([], rest) := by
  have line := headLine_append bareLf not_mem_nil rest
  rw [nil_append] at line
  simp only [parseFields, line]

theorem length_le_headerLines (fields : List (Bytes × Bytes)) :
    fields.length ≤ (headerLines fields).length := by
  induction fields with
  | nil => exact Nat.le_refl 0
  | cons field fields ih =>
    simp only [headerLines, flatMap_cons, length_append, length_cons] at ih ⊢
    omega

theorem parseFields_block (bareLf : Bool)
    (valid : ∀ field ∈ fields, IsToken field.1 ∧ IsFieldValue field.2) (rest : Bytes)
    (enough : (headerLines fields).length < fuel) :
    parseFields bareLf fuel (headerLines fields ++ 0x0d :: 0x0a :: rest) = some (fields, rest) := by
  have lines := length_le_headerLines fields
  obtain ⟨more, rfl⟩ : ∃ more, fuel = fields.length + (more + 1) :=
    ⟨fuel - fields.length - 1, by omega⟩
  rw [parseFields_headerLines bareLf valid, parseFields_empty]
  simp

theorem parseFields_starts (token : IsToken name)
    (parsed : parseFields bareLf fuel (name ++ 0x3a :: text) = some (fields, rest)) :
    ∃ value later, fields = (name, value) :: later := by
  have start : name ++ 0x3a :: text = (name ++ [0x3a]) ++ text := by simp
  have noLf : 0x0a ∉ name ++ [0x3a] := by grind [lf_notMem_of_token]
  -- The first line is the name, the colon and some of the text.
  have line {first after : Bytes} (cut : headLine bareLf (name ++ 0x3a :: text) = some (first, after)) :
      ∃ value, first = name ++ 0x3a :: value := by
    unfold headLine at cut
    rw [start, cutAt_through noLf] at cut
    cases later : cutAt 0x0a text with
    | none =>
      rw [later] at cut
      cases cut
    | some rests =>
      rw [later] at cut
      simp only [Option.map_some] at cut
      split_ifs at cut with cr
      · cases cut
        rcases eq_nil_or_concat rests.1 with empty | ⟨value, last, ends⟩
        · simp [empty] at cr
        · refine ⟨value, ?_⟩
          rw [ends, concat_eq_append, ← append_assoc, dropLast_concat,
            append_assoc, singleton_append]
      · cases cut
        exact ⟨rests.1, by simp⟩
  cases fuel with
  | zero => cases parsed
  | succ fuel =>
    unfold parseFields at parsed
    split at parsed
    · cases parsed
    · simp_all
    · grind [parseFieldLine, cutAt_append, colon_notMem_of_token]

theorem parseRequestLine_append (token : IsToken method) (origin : IsOriginForm target)
    (noSpace : 0x20 ∉ target) (ends : isHttpVersion version) :
    parseRequestLine (method ++ 0x20 :: (target ++ 0x20 :: version)) =
      some (method, target, version) := by
  have solid : 0x20 ∉ method := fun member => absurd (token.2 _ member) (by decide)
  grind [parseRequestLine, cutAt_append]

end TrueAsync.Http1

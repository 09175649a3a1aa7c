import TrueAsync.Formats.MultipartBody
import TrueAsync.Lib.Cut

/-!
# The parser reads bodies

The parser goes through a body as `decode` does: it finds the first boundary, reads header lines
up to the blank one, data up to the next boundary, and decides by what follows a boundary. For each
of these there is a lemma about the parser in the state where it begins; `readAll_decode` is the
whole.
-/

namespace TrueAsync.Formats

open TrueAsync.Lib MultipartParser List

/-- What matters of a parser between two bytes. -/
structure Stands (parser : MultipartParser) (boundary : Bytes) (state : MultipartState)
    (started : Bool) : Prop where
  boundary : parser.boundary = boundary
  state : parser.state = state
  started : parser.partStarted = started

/-- Reading a text tells some ticks and goes on with the rest of it in another state. -/
structure Leaps (parser : MultipartParser) (text : Bytes) (ticks : List Tick)
    (next : MultipartParser) (rest : Bytes) : Prop where
  reads : parser.readAll text = ((next.readAll rest).1, ticks ++ (next.readAll rest).2)
  shorter : rest.length ≤ text.length

/-- It goes on with a parser that stands so. -/
def Reaches (boundary : Bytes) (started : Bool) (state : MultipartState) (parser : MultipartParser)
    (text : Bytes) (ticks : List Tick) (rest : Bytes) : Prop :=
  ∃ next, Leaps parser text ticks next rest ∧ Stands next boundary state started

/-- Reading the whole text tells some ticks, and the parser does not give up in a header name. -/
def Tells (parser : MultipartParser) (text : Bytes) (ticks : List Tick) : Prop :=
  (parser.readAll text).2 = ticks ∧ ¬(parser.readAll text).1.nameError

variable {parser next last : MultipartParser} {boundary text rest tail : Bytes} {started : Bool}
  {state : MultipartState} {ticks more : List Tick} {c : UInt8}

namespace Leaps

theorem refl (parser : MultipartParser) (text : Bytes) : Leaps parser text [] parser text :=
  ⟨rfl, le_rfl⟩

theorem byte (read : parser.readByte c = (next, ticks)) (rest : Bytes) :
    Leaps parser (c :: rest) ticks next rest :=
  ⟨by rw [readAll_cons, read], Nat.le_succ _⟩

variable (first : Leaps parser text ticks next rest)
include first

theorem trans (second : Leaps next rest more last tail) :
    Leaps parser text (ticks ++ more) last tail :=
  ⟨by rw [first.reads, second.reads, append_assoc], second.shorter.trans first.shorter⟩

theorem reaches (later : Reaches boundary started state next rest more tail) :
    Reaches boundary started state parser text (ticks ++ more) tail := by
  obtain ⟨last, leaps, stands⟩ := later
  exact ⟨last, first.trans leaps, stands⟩

theorem tells (later : Tells next rest more) : Tells parser text (ticks ++ more) := by
  rw [Tells, first.reads]
  exact ⟨congrArg (ticks ++ ·) later.1, later.2⟩

end Leaps

theorem Stands.live (stands : Stands parser boundary state started) (fine : state ≠ .error) :
    parser.state ≠ .error := stands.state ▸ fine

theorem Tells.nil (live : parser.state ≠ .error) : Tells parser [] [] :=
  ⟨rfl, fun named => live named.1⟩

theorem Tells.reject (other : reason ≠ nameReason) (read : parser.readByte c = parser.reject reason)
    (rest : Bytes) : Tells parser (c :: rest) [] := by
  have stopped : ({ parser with state := .error, errorReason := some reason } :
      MultipartParser).readAll rest = (_, []) := readAll_stopped (.inr rfl) rest
  rw [Tells, readAll_cons, read, MultipartParser.reject, stopped]
  refine ⟨rfl, ?_⟩
  rintro ⟨_, named⟩
  exact other (Option.some.inj named)

/-! ### Boundaries -/

/-- Where a comparison with the boundary leads. If the text differs from it, `ticks` are told of what
was like it, and the parser goes on `back` at some byte. -/
def Compares (boundary : Bytes) (started : Bool) (hit miss : MultipartState)
    (ticks : Bytes → List Tick) (back : UInt8 → Bytes → Bytes) (parser : MultipartParser)
    (text : Bytes) : Match UInt8 → Prop
  | .found rest => Reaches boundary started hit parser text [] rest
  | .more => Tells parser text []
  | .differs matched c rest =>
      Reaches boundary started miss parser text (ticks matched) (back c rest)

/-- One byte of the pattern. -/
theorem Compares.step {hit miss : MultipartState} {ticks : Bytes → List Tick}
    {back : UInt8 → Bytes → Bytes} {b : UInt8} (live : parser.state ≠ .error)
    (hits : parser.readByte b = (next, [])) (misses : ∀ c rest, c ≠ b →
      Reaches boundary started miss parser (c :: rest) (ticks []) (back c rest))
    (later : ∀ text, Compares boundary started hit miss (fun matched => ticks (b :: matched)) back
      next text (matchPattern pattern text)) (text : Bytes) :
    Compares boundary started hit miss ticks back parser text (matchPattern (b :: pattern) text) := by
  cases text with
  | nil => exact .nil live
  | cons c rest =>
    rw [matchPattern]
    split
    · rename_i same
      subst same
      have after := later rest
      cases outcome : matchPattern pattern rest with
      | found tail | differs matched d tail =>
        rw [outcome] at after
        exact (Leaps.byte hits rest).reaches after
      | more =>
        rw [outcome] at after
        exact (Leaps.byte hits rest).tells after
    · rename_i other
      exact misses c rest other

/-- The search for the first boundary. -/
abbrev Seeks (boundary : Bytes) (started : Bool) :=
  Compares boundary started .boundaryAlmostDone .start (fun _ => []) fun _ rest => rest

variable {i : Nat} {b : UInt8} {pattern : Bytes}

theorem drop_cons (left : boundary.drop i = b :: pattern) : boundary[i]? = some b ∧
    i < boundary.length ∧ boundary.drop (i + 1) = pattern ∧
      (i + 1 = boundary.length ↔ pattern = []) := by
  have within : i < boundary.length := by
    by_contra beyond
    rw [drop_of_length_le (not_lt.mp beyond)] at left
    cases left
  rw [drop_eq_getElem_cons within] at left
  obtain ⟨rfl, rfl⟩ := cons.inj left
  refine ⟨getElem?_eq_getElem within, within, rfl, ?_⟩
  rw [drop_eq_nil_iff]
  omega

theorem boundary_seeks
    (stands : Stands parser boundary (if pattern = [] then .boundaryAlmostDone else .boundary) started)
    (left : boundary.drop parser.boundaryIndex = pattern) (text : Bytes) :
    Seeks boundary started parser text (matchPattern pattern text) := by
  induction pattern generalizing parser text with
  | nil => exact ⟨parser, .refl _ _, stands⟩
  | cons b pattern ih =>
    rw [if_neg (cons_ne_nil _ _)] at stands
    obtain ⟨here, within, rest, last⟩ := drop_cons left
    have read (c : UInt8) : parser.readByte c = (parser.matchBoundary c, []) := by
      simp only [readByte, stands.state]
    have joined : parser.matchBoundary b = { parser with
        boundaryIndex := parser.boundaryIndex + 1
        state := if pattern = [] then .boundaryAlmostDone else .boundary } := by
      grind [matchBoundary, Stands.boundary, Stands.state]
    refine .step (stands.live (by decide)) (read b) (fun c rest other => ?_) (ih ?_ ?_) text
    · refine ⟨_, Leaps.byte (read c) rest, ?_⟩
      have missed : parser.matchBoundary c = { parser with state := .start } := by
        grind [matchBoundary, Stands.boundary]
      rw [missed]
      exact { stands with state := rfl }
    · rw [joined]
      exact { stands with state := rfl }
    · rw [joined]
      exact rest

theorem start_seeks (nonempty : boundary ≠ []) (stands : Stands parser boundary .start started)
    (text : Bytes) :
    Seeks boundary started parser text (matchPattern (delimiter boundary) text) := by
  have dash : parser.readByte 0x2d = ({ parser with state := .boundaryStart }, []) := by
    simp only [readByte, stands.state, if_true]
  have dash' : ({ parser with state := .boundaryStart } : MultipartParser).readByte 0x2d =
      ({ parser with boundaryIndex := 0, state := .boundary }, []) := rfl
  refine .step (stands.live (by decide)) dash (fun c rest other => ⟨parser, .byte ?_ rest, stands⟩)
    (.step (show MultipartState.boundaryStart ≠ .error by decide) dash'
      (fun c rest other => ⟨{ parser with state := .start }, .byte ?_ rest, ?_⟩)
      (boundary_seeks ?_ rfl)) text
  · simp only [readByte, stands.state, other, if_false]
  · simp only [readByte, other, if_false]
  · exact { stands with state := rfl }
  · show Stands _ boundary (if boundary = [] then _ else _) started
    rw [if_neg nonempty]
    exact { stands with state := rfl }

variable {fuel : Nat}

theorem afterPreamble_reads (nonempty : boundary ≠ [])
    (stands : Stands parser boundary .start started) (enough : text.length < fuel) :
    match afterPreamble boundary fuel text with
    | some rest => Reaches boundary started .boundaryAlmostDone parser text [] rest
    | none => Tells parser text [] := by
  induction fuel generalizing parser text with
  | zero => omega
  | succ fuel ih =>
    have seeks := start_seeks nonempty stands text
    rw [afterPreamble]
    cases outcome : matchPattern (delimiter boundary) text with
    | found rest | more =>
      rw [outcome] at seeks
      exact seeks
    | differs matched c rest =>
      rw [outcome] at seeks
      obtain ⟨next, leaps, stands'⟩ := seeks
      have shorter := congrArg length (eq_of_differs outcome)
      simp only [length_append, length_cons] at shorter
      have later := ih stands' (show rest.length < fuel by omega)
      dsimp only
      split at later
      · exact leaps.reaches later
      · exact leaps.tells later

/-! ### Data -/

/-- The comparison with a boundary after a line break. -/
abbrev Holds (boundary : Bytes) (started : Bool) (ticks : Bytes → List Tick) :=
  Compares boundary started .partDataEnd .partData ticks cons

/-- What the parser holds back is told with what was like a boundary after it. -/
def Held (ticks : Bytes → List Tick) (parser : MultipartParser) : Prop :=
  parser.lookbehind ≠ [] ∧ ∀ matched, ticks matched = [.held (parser.lookbehind ++ matched)]

section

variable {ticks : Bytes → List Tick} (held : Held ticks parser)
include held

theorem Held.hold (longer : next.lookbehind = parser.lookbehind ++ [b]) :
    Held (fun matched => ticks (b :: matched)) next := by
  refine ⟨by simp [longer], fun matched => (held.2 _).trans ?_⟩
  rw [longer, append_assoc]
  rfl

/-- A byte that the boundary does not have here is read as data, after what was held back. -/
theorem Held.missed (stands : Stands parser boundary state started)
    (read : parser.readByte c = parser.missByte c) (rest : Bytes) :
    Reaches boundary started .partData parser (c :: rest) (ticks []) (c :: rest) := by
  refine ⟨{ parser with lookbehind := [], state := .partData }, ⟨?_, le_rfl⟩,
    { stands with state := rfl }⟩
  have some := held.1
  have told := held.2 []
  have again : ({ parser with lookbehind := [], state := .partData } : MultipartParser).readByte c =
      ({ parser with lookbehind := [] } : MultipartParser).dataByte c [] := rfl
  grind [readAll_cons, missByte, heldBack, dataByte]

theorem Held.step (stands : Stands parser boundary state started) (fine : state ≠ .error)
    (hits : parser.readByte b = (next, []))
    (misses : ∀ c, c ≠ b → parser.readByte c = parser.missByte c)
    (later : ∀ text, Holds boundary started (fun matched => ticks (b :: matched)) next text
      (matchPattern pattern text)) (text : Bytes) :
    Holds boundary started ticks parser text (matchPattern (b :: pattern) text) :=
  .step (stands.live fine) hits (fun c rest other => held.missed stands (misses c other) rest) later
    text

end

theorem boundary_holds {ticks : Bytes → List Tick}
    (stands : Stands parser boundary (if pattern = [] then .partDataEnd else .partDataBoundary) started)
    (left : boundary.drop parser.boundaryIndex = pattern) (held : pattern ≠ [] → Held ticks parser)
    (text : Bytes) : Holds boundary started ticks parser text (matchPattern pattern text) := by
  induction pattern generalizing parser ticks text with
  | nil => exact ⟨parser, .refl _ _, stands⟩
  | cons b pattern ih =>
    rw [if_neg (cons_ne_nil _ _)] at stands
    have held := held (cons_ne_nil _ _)
    obtain ⟨here, within, rest, last⟩ := drop_cons left
    have joined : parser.matchHeld b = { parser with
        lookbehind := if pattern = [] then [] else parser.lookbehind ++ [b]
        boundaryIndex := parser.boundaryIndex + 1
        state := if pattern = [] then .partDataEnd else .partDataBoundary } := by
      grind [matchHeld, Stands.boundary, Stands.state]
    have read (c : UInt8) : parser.readByte c =
        if c = b then (parser.matchHeld c, []) else parser.missByte c := by
      simp only [readByte, stands.state]
      grind [differs, Stands.boundary]
    refine held.step stands (by decide) ((read b).trans (if_pos rfl))
      (fun c other => (read c).trans (if_neg other)) (ih ?_ ?_ fun later => ?_) text
    · rw [joined]
      exact { stands with state := rfl }
    · rw [joined]
      exact rest
    · exact held.hold (by rw [joined]; exact if_neg later)

theorem line_holds (nonempty : boundary ≠ []) (stands : Stands parser boundary .partDataLf started)
    {ticks : Bytes → List Tick} (held : Held ticks parser) (text : Bytes) :
    Holds boundary started ticks parser text (matchPattern (delimiter boundary) text) := by
  have dash : parser.readByte 0x2d = parser.holdByte 0x2d .partDataBoundaryStart := by
    simp only [readByte, stands.state, if_true]
  have held' : Held (fun matched => ticks (0x2d :: matched))
      (parser.holdByte 0x2d .partDataBoundaryStart).1 := held.hold rfl
  have stands' : Stands (parser.holdByte 0x2d .partDataBoundaryStart).1 boundary
      .partDataBoundaryStart started := { stands with state := rfl }
  refine held.step stands (by decide) dash (fun c other => ?_)
    (held'.step stands' (by decide) rfl (fun c other => ?_) fun text => ?_) text
  · simp only [readByte, stands.state, other, if_false]
  · simp only [readByte, stands'.state, other, if_false]
  · refine boundary_holds (?_ : Stands _ boundary (if boundary = [] then _ else _) started) rfl
      (fun _ => held'.hold rfl) text
    rw [if_neg nonempty]
    exact { stands with state := rfl }

variable {eol : Bytes}

theorem lineBreak_some (found : lineBreak text = some (eol, rest)) :
    text = 0x0d :: 0x0a :: rest ∧ eol = [0x0d, 0x0a] ∨ text = 0x0a :: rest ∧ eol = [0x0a] := by
  unfold lineBreak at found
  grind

theorem lineBreak_length (found : lineBreak text = some (eol, rest)) :
    rest.length < text.length := by
  rcases lineBreak_some found with ⟨rfl, _⟩ | ⟨rfl, _⟩
  · exact Nat.lt_succ_of_lt (Nat.lt_succ_self _)
  · exact Nat.lt_succ_self _

theorem lineBreak_none (none : lineBreak (c :: rest) = none) :
    c ≠ 0x0a ∧ (c = 0x0d → rest.head? ≠ some 0x0a) := by
  constructor
  · rintro rfl
    cases rest <;> cases none
  · rintro rfl
    cases rest with
    | nil => nofun
    | cons d rest =>
      intro same
      cases same
      cases none

theorem lineBreak_eq_none (notLf : c ≠ 0x0a) (notCrLf : c = 0x0d → rest.head? ≠ some 0x0a) :
    lineBreak (c :: rest) = none := by
  unfold lineBreak
  grind

theorem Stands.readCr (stands : Stands parser boundary .partData started) :
    parser.readByte 0x0d = ({ parser with lookbehind := [0x0d], state := .partDataCr }, []) := by
  simp only [readByte, stands.state, dataByte, if_true]

theorem lineBreak_reads (stands : Stands parser boundary .partData started)
    (found : lineBreak text = some (eol, rest)) :
    ∃ next, Leaps parser text [] next rest ∧ Stands next boundary .partDataLf started ∧
      Held (fun matched => [.held (eol ++ matched)]) next := by
  rcases lineBreak_some found with ⟨rfl, rfl⟩ | ⟨rfl, rfl⟩
  · have read : ({ parser with lookbehind := [0x0d], state := .partDataCr } :
        MultipartParser).readByte 0x0a =
        ({ parser with lookbehind := [0x0d, 0x0a], state := .partDataLf }, []) := rfl
    exact ⟨_, (Leaps.byte stands.readCr _).trans (.byte read _), { stands with state := rfl },
      cons_ne_nil _ _, fun _ => rfl⟩
  · have read : parser.readByte 0x0a =
        ({ parser with lookbehind := [0x0a], state := .partDataLf }, []) := by
      simp [readByte, stands.state, dataByte]
    exact ⟨_, .byte read _, { stands with state := rfl }, cons_ne_nil _ _, fun _ => rfl⟩

/-- What reading the data of a part tells. -/
def Fetches (boundary : Bytes) (started : Bool) (parser : MultipartParser) (text : Bytes) :
    List Segment × Option Bytes → Prop
  | (data, some rest) =>
      Reaches boundary started .partDataEnd parser text (data.map Segment.tick) rest
  | (data, none) => Tells parser text (data.map Segment.tick)

theorem Fetches.prepend (segment : Segment) {result : List Segment × Option Bytes}
    (leaps : Leaps parser text [segment.tick] next rest)
    (fetches : Fetches boundary started next rest result) :
    Fetches boundary started parser text (segment :: result.1, result.2) := by
  obtain ⟨data, after⟩ := result
  cases after with
  | some after => exact leaps.reaches fetches
  | none => exact leaps.tells fetches

theorem readData_reads (nonempty : boundary ≠ [])
    (stands : Stands parser boundary .partData started) (enough : text.length < fuel) :
    Fetches boundary started parser text (readData boundary fuel text) := by
  induction fuel generalizing parser text with
  | zero => omega
  | succ fuel ih =>
    unfold readData
    cases broken : lineBreak text with
    | some found =>
      obtain ⟨eol, rest⟩ := found
      obtain ⟨next, leaps, stands', held⟩ := lineBreak_reads stands broken
      have holds := line_holds nonempty stands' held rest
      dsimp only
      cases outcome : matchPattern (delimiter boundary) rest with
      | found after =>
        rw [outcome] at holds
        exact leaps.reaches holds
      | more =>
        rw [outcome] at holds
        exact leaps.tells holds
      | differs matched c after =>
        rw [outcome] at holds
        obtain ⟨last, leaps', stands''⟩ := holds
        have shorter : (c :: after).length < fuel := by
          have less := lineBreak_length broken
          have le := leaps'.shorter
          omega
        exact .prepend (.held (eol ++ matched)) (leaps.trans leaps') (ih stands'' shorter)
    | none =>
      have read := stands.readCr
      dsimp only
      split
      · exact .nil (stands.live nofun)
      · exact (Leaps.byte read []).tells (.nil nofun)
      · rename_i c rest notEnd
        obtain ⟨notLf, notCrLf⟩ := lineBreak_none broken
        have shorter : rest.length < fuel := Nat.lt_of_succ_lt_succ enough
        by_cases cr : c = 0x0d
        · subst cr
          have held : Held (fun matched => [.held (0x0d :: matched)])
              { parser with lookbehind := [0x0d], state := .partDataCr } :=
            ⟨cons_ne_nil _ _, fun _ => rfl⟩
          cases rest with
          | nil => exact absurd rfl (notEnd rfl)
          | cons d rest =>
            have notLf : d ≠ 0x0a := fun same => notCrLf rfl (congrArg some same)
            have cr : Stands { parser with lookbehind := [0x0d], state := .partDataCr } boundary
                .partDataCr started := { stands with state := rfl }
            obtain ⟨last, leaps, stands'⟩ :=
              held.missed (c := d) cr (by simp only [readByte, notLf, if_false]) rest
            exact .prepend (.held [0x0d]) ((Leaps.byte read _).trans leaps) (ih stands' shorter)
        · have read : parser.readByte c = (parser, [.byte .partData c]) := by
            have same : ({ parser with state := .partData } : MultipartParser) = parser := by
              rw [← stands.state]
            grind [readByte, dataByte]
          rw [if_neg cr]
          exact .prepend (.byte c) (.byte read _) (ih stands shorter)

/-! ### Headers -/

/-- Bytes that leave the parser where it is. -/
theorem loop_reads {t : UInt8 → List Tick}
    (stays : ∀ b ∈ line, parser.readByte b = (parser, t b)) :
    Leaps parser (line ++ rest) (line.flatMap t) parser rest := by
  induction line with
  | nil => exact .refl _ _
  | cons b line ih =>
    obtain ⟨read, later⟩ := forall_mem_cons.mp stays
    exact (Leaps.byte read _).trans (ih later)

/-- The parser is in a header value, perhaps before its first byte. -/
def InValue (parser : MultipartParser) (boundary : Bytes) (started : Bool) : Prop :=
  Stands parser boundary .headerValueStart started ∨ Stands parser boundary .headerValue started

theorem trimmed_reads (stands : Stands parser boundary .headerValueStart started)
    (clean : ∀ b ∈ value, b ≠ 0x0d ∧ b ≠ 0x0a) (trimmed : ∀ b, value.head? = some b → isOws b = false) :
    ∃ next, Leaps parser (value ++ rest) (value.map (.byte .headerValue)) next rest ∧
      InValue next boundary started := by
  cases value with
  | nil => exact ⟨parser, .refl _ _, .inl stands⟩
  | cons b value =>
    obtain ⟨⟨notCr, notLf⟩, later⟩ := forall_mem_cons.mp clean
    have read : parser.readByte b =
        ({ parser with state := .headerValue }, [.byte .headerValue b]) := by
      grind [readByte, Stands.state, valueByte]
    have stays : ∀ b ∈ value, ({ parser with state := .headerValue } : MultipartParser).readByte b =
        ({ parser with state := .headerValue }, [.byte .headerValue b]) := by
      intro b member
      obtain ⟨notCr, notLf⟩ := later b member
      simp only [readByte, valueByte, notCr, notLf, if_false]
    rw [map_eq_flatMap]
    exact ⟨_, (Leaps.byte read _).trans (loop_reads stays), .inr { stands with state := rfl }⟩

section

variable (within : InValue parser boundary started)
include within

theorem InValue.readByte (notOws : isOws c = false) : parser.readByte c = parser.valueByte c := by
  rcases within with stands | stands
  · grind [MultipartParser.readByte, Stands.state]
  · simp only [MultipartParser.readByte, stands.state]

theorem InValue.live : parser.state ≠ .error := by
  rcases within with stands | stands <;> rw [stands.state] <;> nofun

theorem InValue.facts : parser.boundary = boundary ∧ parser.partStarted = started := by
  rcases within with stands | stands
  all_goals exact ⟨stands.boundary, stands.started⟩

theorem valueEnd_reads {after : Bytes} (atEnd : ∀ b, after.head? = some b → b = 0x0d ∨ b = 0x0a) :
    match lineBreak after with
    | some (_, rest) => Reaches boundary started .headerFieldStart parser after [] rest
    | none => Tells parser after [] := by
  obtain ⟨sameBoundary, sameStarted⟩ := within.facts
  have cr : parser.readByte 0x0d = ({ parser with state := .headerValueAlmostDone }, []) :=
    within.readByte rfl
  cases broken : lineBreak after with
  | some found =>
    rcases lineBreak_some broken with ⟨rfl, _⟩ | ⟨rfl, _⟩
    · have lf : ({ parser with state := .headerValueAlmostDone } : MultipartParser).readByte 0x0a =
          ({ parser with state := .headerFieldStart }, []) := rfl
      exact ⟨_, (Leaps.byte cr _).trans (.byte lf _), sameBoundary, rfl, sameStarted⟩
    · have lf : parser.readByte 0x0a = ({ parser with state := .headerFieldStart }, []) :=
        within.readByte rfl
      exact ⟨_, .byte lf _, sameBoundary, rfl, sameStarted⟩
  | none =>
    cases after with
    | nil => exact .nil within.live
    | cons c after =>
      obtain ⟨notLf, notCrLf⟩ := lineBreak_none broken
      have isCr := (atEnd c rfl).resolve_right notLf
      subst isCr
      apply (Leaps.byte cr after).tells
      cases after with
      | nil => exact .nil nofun
      | cons d after =>
        have other : d ≠ 0x0a := fun same => notCrLf rfl (congrArg some same)
        apply Tells.reject (by decide : "expected LF after CR in header" ≠ nameReason)
        simp only [readByte, other, if_false]

end

/-- What reading the header lines of a part tells. -/
def Heads (boundary : Bytes) (started : Bool) (parser : MultipartParser) (text : Bytes) :
    List Header × HeadersEnd → Prop
  | (headers, .blank rest) => Reaches boundary started .partData parser text
      (headers.flatMap headerTicks ++ [.signal .headersComplete]) rest
  | (headers, .within name value broken) =>
      (parser.readAll text).2 = headers.flatMap headerTicks ++ headerTicks (name, value) ∧
      ((parser.readAll text).1.nameError ↔ broken = true)

theorem Heads.prepend {result : List Header × HeadersEnd}
    (leaps : Leaps parser text (headerTicks header) next rest)
    (heads : Heads boundary started next rest result) :
    Heads boundary started parser text (header :: result.1, result.2) := by
  obtain ⟨headers, ends⟩ := result
  cases ends with
  | blank after =>
    rw [Heads, flatMap_cons, append_assoc]
    exact leaps.reaches heads
  | within name value broken =>
    rw [Heads, leaps.reads, flatMap_cons, append_assoc]
    exact ⟨congrArg (headerTicks header ++ ·) heads.1, heads.2⟩

theorem Heads.still (name value : Bytes)
    (leaps : Leaps parser text (headerTicks (name, value)) next rest) (still : Tells next rest []) :
    Heads boundary started parser text ([], .within name value false) := by
  obtain ⟨told, unnamed⟩ := leaps.tells still
  rw [append_nil] at told
  exact ⟨told, fun named => absurd named unnamed, nofun⟩

theorem blank_reads (stands : Stands parser boundary .headerFieldStart started)
    (broken : lineBreak text = some (eol, rest)) :
    Reaches boundary started .partData parser text [.signal .headersComplete] rest := by
  rcases lineBreak_some broken with ⟨rfl, _⟩ | ⟨rfl, _⟩
  · have cr : parser.readByte 0x0d = ({ parser with state := .headersAlmostDone }, []) := by
      simp only [readByte, stands.state, if_true]
    have lf : ({ parser with state := .headersAlmostDone } : MultipartParser).readByte 0x0a =
        ({ parser with state := .partData }, [.signal .headersComplete]) := rfl
    exact ⟨_, (Leaps.byte cr _).trans (.byte lf _), { stands with state := rfl }⟩
  · have lf : parser.readByte 0x0a =
        ({ parser with state := .partData }, [.signal .headersComplete]) := by
      simp [readByte, stands.state]
    exact ⟨_, .byte lf _, { stands with state := rfl }⟩

theorem nameStart_reads (stands : Stands parser boundary .headerFieldStart started)
    (notCr : c ≠ 0x0d) (notLf : c ≠ 0x0a) (clean : ∀ b ∈ name, b ≠ 0x3a ∧ b ≠ 0x0d ∧ b ≠ 0x0a)
    (rest : Bytes) : Reaches boundary started .headerField parser (c :: name ++ rest)
      ((c :: name).map (.byte .headerField)) rest := by
  have read : parser.readByte c =
      ({ parser with state := .headerField }, [.byte .headerField c]) := by
    simp only [readByte, stands.state, notCr, notLf, if_false]
  have stays : ∀ b ∈ name, ({ parser with state := .headerField } : MultipartParser).readByte b =
      ({ parser with state := .headerField }, [.byte .headerField b]) := by
    intro b member
    obtain ⟨notColon, notCr, notLf⟩ := clean b member
    simp only [readByte, notColon, notCr, notLf, or_self, if_false]
  rw [map_eq_flatMap]
  exact ⟨_, (Leaps.byte read _).trans (loop_reads stays), { stands with state := rfl }⟩

theorem afterColon_reads (stands : Stands parser boundary .headerField started) (rest : Bytes) :
    ∃ next, Leaps parser (0x3a :: rest)
        (((rest.dropWhile isOws).takeWhile fun b => b ≠ 0x0d ∧ b ≠ 0x0a).map (.byte .headerValue)) next
        ((rest.dropWhile isOws).dropWhile fun b => b ≠ 0x0d ∧ b ≠ 0x0a) ∧
      InValue next boundary started := by
  obtain ⟨split, white, trimmed⟩ := span_spec isOws rest
  obtain ⟨split', clean, _⟩ := span_spec (fun b => b ≠ 0x0d ∧ b ≠ 0x0a) (rest.dropWhile isOws)
  generalize rest.takeWhile isOws = blanks at split white
  generalize rest.dropWhile isOws = line at split split' trimmed clean ⊢
  generalize line.takeWhile _ = value at split' clean ⊢
  generalize line.dropWhile _ = after at split' ⊢
  subst split split'
  have colon : parser.readByte 0x3a = ({ parser with state := .headerValueStart }, []) := by
    simp only [readByte, stands.state, if_true]
  have atStart : Stands { parser with state := .headerValueStart } boundary .headerValueStart
      started := { stands with state := rfl }
  have head : ∀ b, value.head? = some b → isOws b = false := by grind
  have clean' : ∀ b ∈ value, b ≠ 0x0d ∧ b ≠ 0x0a := fun b member => of_decide_eq_true (clean b member)
  have skips : Leaps { parser with state := .headerValueStart } (blanks ++ (value ++ after))
      (blanks.flatMap fun _ => []) { parser with state := .headerValueStart } (value ++ after) := by
    refine loop_reads fun b member => ?_
    simp only [readByte, white b member, if_true]
  rw [flatMap_eq_nil_iff.mpr fun _ _ => rfl] at skips
  obtain ⟨next, leaps, within⟩ := trimmed_reads atStart clean' head
  exact ⟨next, ((Leaps.byte colon _).trans skips).trans leaps, within⟩

theorem readHeaders_reads (stands : Stands parser boundary .headerFieldStart started)
    (enough : text.length < fuel) : Heads boundary started parser text (readHeaders fuel text) := by
  induction fuel generalizing parser text with
  | zero => omega
  | succ fuel ih =>
    unfold readHeaders
    cases broken : lineBreak text with
    | some found => exact blank_reads stands broken
    | none =>
      dsimp only
      split
      · exact Heads.still [] [] (.refl _ _) (.nil (stands.live (by decide)))
      · rename_i rest
        have cr : parser.readByte 0x0d = ({ parser with state := .headersAlmostDone }, []) := by
          simp only [readByte, stands.state, if_true]
        apply Heads.still [] [] (.byte cr rest)
        cases rest with
        | nil => exact .nil (by simp)
        | cons d rest =>
          have other : d ≠ 0x0a := fun same =>
            (lineBreak_none broken).2 rfl (congrArg some same)
          apply Tells.reject (by decide : "expected LF after CR" ≠ nameReason)
          simp only [readByte, other, if_false]
      · rename_i c rest notCr
        have notLf := (lineBreak_none broken).1
        obtain ⟨split, clean, stops⟩ := span_spec (fun b => b ≠ 0x3a ∧ b ≠ 0x0d ∧ b ≠ 0x0a) rest
        generalize rest.takeWhile _ = name at split clean ⊢
        generalize rest.dropWhile _ = after at split stops ⊢
        subst split
        obtain ⟨next, leaps, within⟩ := nameStart_reads stands notCr notLf
          (fun b member => of_decide_eq_true (clean b member)) after
        split
        · apply Heads.still _ [] _ (.nil (within.live (by decide)))
          simpa [headerTicks] using leaps
        · rename_i rest
          obtain ⟨last, leaps', inValue⟩ := afterColon_reads within rest
          obtain ⟨_, _, atEnd⟩ := span_spec (fun b => b ≠ 0x0d ∧ b ≠ 0x0a) (rest.dropWhile isOws)
          have ends := valueEnd_reads inValue fun b first => by
            have stop := of_decide_eq_false (atEnd b first)
            tauto
          have whole := leaps.trans leaps'
          cases eol : lineBreak ((rest.dropWhile isOws).dropWhile fun b => b ≠ 0x0d ∧ b ≠ 0x0a) with
          | none =>
            rw [eol] at ends
            exact Heads.still _ _ whole ends
          | some found =>
            rw [eol] at ends
            obtain ⟨next', leaps'', stands'⟩ := ends
            have joined := whole.trans leaps''
            rw [append_nil] at joined
            have less := lineBreak_length eol
            have le : _ ≤ (c :: (name ++ 0x3a :: rest)).length := whole.shorter
            exact .prepend joined (ih stands' (by omega))
        · rename_i b rest other
          have isEnd : b = 0x0d ∨ b = 0x0a := by
            have stop := of_decide_eq_false (stops b rfl)
            tauto
          have read : next.readByte b = next.reject nameReason := by
            grind [readByte, Stands.state]
          have stopped : ({ next with state := .error, errorReason := some nameReason } :
              MultipartParser).readAll rest = (_, []) :=
            readAll_stopped (.inr rfl) rest
          rw [cons_append] at leaps
          rw [Heads, leaps.reads, readAll_cons, read, reject, stopped]
          exact ⟨by simp [headerTicks], fun _ => rfl, fun _ => ⟨rfl, rfl⟩⟩

/-! ### Parts -/

theorem Tells.ended (ended : parser.state = .ended) (text : Bytes) : Tells parser text [] := by
  rw [Tells, readAll_stopped (.inl ended)]
  exact ⟨rfl, fun named => absurd (ended.symm.trans named.1) (by decide)⟩

theorem beginning_reads (stands : Stands parser boundary .boundaryDone started) (rest : Bytes) :
    Reaches boundary true .headerFieldStart parser (0x0a :: rest) [.signal .partBegin] rest := by
  have lf : parser.readByte 0x0a =
      ({ parser with partStarted := true, state := .headerFieldStart }, [.signal .partBegin]) := by
    simp only [readByte, stands.state, if_true, openPart, nil_append]
  exact ⟨_, .byte lf rest, stands.boundary, rfl, rfl⟩

theorem notBeginning_still (stands : Stands parser boundary .boundaryDone started)
    (other : rest.head? ≠ some 0x0a) : Tells parser rest [] := by
  cases rest with
  | nil => exact .nil (stands.live nofun)
  | cons d rest =>
    have notLf : d ≠ 0x0a := fun same => other (congrArg some same)
    apply Tells.reject (by decide : "expected LF after CR" ≠ nameReason)
    simp only [readByte, stands.state, notLf, if_false]

theorem closes_cons (rest : Bytes) :
    closes (c :: rest) = (c == 0x2d && rest.head? == some 0x2d) := by
  unfold closes
  split
  · rename_i same
    cases same
    rfl
  · rename_i other
    symm
    rw [Bool.eq_false_iff]
    intro both
    rw [Bool.and_eq_true, beq_iff_eq, beq_iff_eq] at both
    obtain ⟨rfl, second⟩ := both
    cases rest with
    | nil => cases second
    | cons d rest =>
      cases second
      exact other rest rfl

theorem dash_reads (stands : Stands parser boundary .bodyEnd started) (text : Bytes) :
    Tells parser text (if text.head? = some 0x2d then
        if started then [.signal .partEnd, .signal .bodyEnd] else [.signal .bodyEnd] else []) := by
  cases text with
  | nil => exact .nil (stands.live nofun)
  | cons c rest =>
    by_cases dash : c = 0x2d
    · subst dash
      cases started with
      | true =>
        have read : parser.readByte 0x2d = ({ parser with partStarted := false, state := .ended },
            [.signal .partEnd, .signal .bodyEnd]) := by
          simp only [readByte, stands.state, stands.started, if_true]
        exact (Leaps.byte read rest).tells (.ended rfl rest)
      | false =>
        have read : parser.readByte 0x2d =
            ({ parser with state := .ended }, [.signal .bodyEnd]) := by
          grind [readByte, Stands.state, Stands.started]
        exact (Leaps.byte read rest).tells (.ended rfl rest)
    · rw [head?_cons, if_neg fun same => dash (Option.some.inj same)]
      apply Tells.reject (by decide : "expected '--' at end of body" ≠ nameReason)
      simp only [readByte, stands.state, dash, if_false]

theorem closes_of_cr (cr : text.head? = some 0x0d) : closes text = false := by
  cases text with
  | nil => rfl
  | cons c rest => rw [closes_cons, Option.some.inj cr]; rfl

/-- What is read after a boundary, where `ends` tells that a part ends there. -/
def ReadsBoundaryEnd (boundary : Bytes) (ends : List Tick) (parser : MultipartParser)
    (text : Bytes) : Prop :=
  match lineBreak text with
  | some (_, rest) =>
      Reaches boundary true .headerFieldStart parser text (ends ++ [.signal .partBegin]) rest
  | none => Tells parser text (if text.head? = some 0x0d then ends
      else if closes text then ends ++ [.signal .bodyEnd] else [])

theorem boundaryEnd_reads (ends : List Tick) (live : parser.state ≠ .error)
    (cr : ∃ done, parser.readByte 0x0d = (done, ends) ∧ Stands done boundary .boundaryDone false)
    (lf : ∃ next, parser.readByte 0x0a = (next, ends ++ [.signal .partBegin]) ∧
      Stands next boundary .headerFieldStart true)
    (dash : ∃ next, parser.readByte 0x2d = (next, []) ∧ Stands next boundary .bodyEnd started)
    (ended : (if started then [.signal .partEnd, .signal .bodyEnd] else [.signal .bodyEnd]) =
      ends ++ [.signal .bodyEnd])
    (other : ∀ c, c ≠ 0x0d → c ≠ 0x0a → c ≠ 0x2d → parser.readByte c = parser.reject reason)
    (unnamed : reason ≠ nameReason) (text : Bytes) :
    ReadsBoundaryEnd boundary ends parser text := by
  obtain ⟨afterCr, cr, done⟩ := cr
  unfold ReadsBoundaryEnd
  cases broken : lineBreak text with
  | some found =>
    obtain ⟨eol, rest⟩ := found
    rcases lineBreak_some broken with ⟨rfl, _⟩ | ⟨rfl, _⟩
    · exact (Leaps.byte cr _).reaches (beginning_reads done rest)
    · obtain ⟨next, lf, begun⟩ := lf
      exact ⟨next, .byte lf rest, begun⟩
  | none =>
    cases text with
    | nil => exact .nil live
    | cons c rest =>
      obtain ⟨notLf, notCrLf⟩ := lineBreak_none broken
      by_cases isCr : c = 0x0d
      · subst isCr
        have tells := (Leaps.byte cr rest).tells (notBeginning_still done (notCrLf rfl))
        rwa [append_nil] at tells
      · have notCr : (c :: rest).head? ≠ some 0x0d := fun same => isCr (Option.some.inj same)
        rw [if_neg notCr, closes_cons]
        by_cases isDash : c = 0x2d
        · subst isDash
          obtain ⟨next, read, ending⟩ := dash
          simp only [beq_self_eq_true, Bool.true_and, beq_iff_eq]
          rw [← ended]
          exact (Leaps.byte read rest).tells (dash_reads ending rest)
        · rw [beq_false_of_ne isDash]
          exact Tells.reject unnamed (other c isCr notLf isDash) rest

theorem partEnd_reads (stands : Stands parser boundary .partDataEnd true) (text : Bytes) :
    ReadsBoundaryEnd boundary [.signal .partEnd] parser text := by
  refine boundaryEnd_reads [.signal .partEnd] (stands.live nofun)
    ⟨{ parser with partStarted := false, state := .boundaryDone }, ?_, stands.boundary, rfl, rfl⟩
    ⟨{ parser with partStarted := true, state := .headerFieldStart }, ?_, stands.boundary, rfl, rfl⟩
    ⟨{ parser with state := .bodyEnd }, ?_, stands.boundary, rfl, stands.started⟩ rfl
    (fun c isCr notLf isDash => ?_) (by decide : "expected CRLF or '--' after boundary" ≠ _) text
  all_goals simp_all [readByte, stands.state, openPart]

theorem firstBoundary_reads (stands : Stands parser boundary .boundaryAlmostDone false)
    (text : Bytes) : ReadsBoundaryEnd boundary [] parser text := by
  refine boundaryEnd_reads [] (stands.live nofun)
    ⟨{ parser with state := .boundaryDone }, ?_, stands.boundary, rfl, stands.started⟩
    ⟨{ parser with partStarted := true, state := .headerFieldStart }, ?_, stands.boundary, rfl, rfl⟩
    ⟨{ parser with state := .bodyEnd }, ?_, stands.boundary, rfl, stands.started⟩ rfl
    (fun c isCr notLf isDash => ?_) (by decide : "expected CR or LF after boundary" ≠ _) text
  all_goals simp_all [readByte, stands.state, openPart]

theorem readParts_reads (nonempty : boundary ≠ [])
    (stands : Stands parser boundary .headerFieldStart true) (enough : text.length < fuel) :
    .signal .partBegin :: (parser.readAll text).2 = (readParts boundary fuel text).ticks ∧
      ((parser.readAll text).1.nameError ↔ (readParts boundary fuel text).broken = true) := by
  induction fuel generalizing parser text with
  | zero => omega
  | succ fuel ih =>
    have heads := readHeaders_reads stands (Nat.lt_add_one text.length)
    rw [readParts]
    rcases read : readHeaders (text.length + 1) text with ⟨headers, ends⟩
    rw [read] at heads
    cases ends with
    | within name value broken =>
      obtain ⟨told, named⟩ := heads
      refine ⟨?_, named⟩
      rw [told]
      rfl
    | blank rest =>
      obtain ⟨next, leaps, stands'⟩ := heads
      have fetches := readData_reads nonempty stands' (Nat.lt_add_one rest.length)
      dsimp only
      rcases fetched : readData boundary (rest.length + 1) rest with ⟨data, after⟩
      rw [fetched] at fetches
      cases after with
      | none =>
        obtain ⟨told, unnamed⟩ := leaps.tells fetches
        rw [told]
        refine ⟨?_, fun named => absurd named unnamed, nofun⟩
        simp [Body.ticks, Last.ticks, openTicks]
      | some after =>
        obtain ⟨last, leaps', stands''⟩ := fetches
        have ends := partEnd_reads stands'' after
        rw [ReadsBoundaryEnd] at ends
        have whole := leaps.trans leaps'
        dsimp only
        cases broken : lineBreak after with
        | some found =>
          rw [broken] at ends
          obtain ⟨next', leaps'', standsNext⟩ := ends
          have shorter : found.2.length < fuel := by
            have le := whole.shorter
            have less := lineBreak_length broken
            omega
          obtain ⟨told, named⟩ := ih standsNext shorter
          rw [(whole.trans leaps'').reads]
          refine ⟨?_, named⟩
          grind [Body.ticks, Part.ticks, openTicks]
        | none =>
          rw [broken] at ends
          obtain ⟨told, unnamed⟩ := whole.tells ends
          rw [told]
          split
          · refine ⟨?_, fun named => absurd named unnamed, nofun⟩
            simp [Body.ticks, Last.ticks, Part.ticks, openTicks]
          · split
            · refine ⟨?_, fun named => absurd named unnamed, nofun⟩
              simp [Body.ticks, Last.ticks, Part.ticks, openTicks]
            · refine ⟨?_, fun named => absurd named unnamed, nofun⟩
              simp [Body.ticks, Last.ticks, openTicks]

theorem readAll_decode (nonempty : boundary ≠ []) (text : Bytes) :
    (({ boundary } : MultipartParser).readAll text).2 = (decode boundary text).ticks ∧
      ((({ boundary } : MultipartParser).readAll text).1.nameError ↔
        (decode boundary text).broken = true) := by
  have stands : Stands { boundary } boundary .start false := ⟨rfl, rfl, rfl⟩
  have found := afterPreamble_reads nonempty stands (Nat.lt_add_one text.length)
  unfold decode
  cases preamble : afterPreamble boundary (text.length + 1) text with
  | none =>
    rw [preamble] at found
    exact ⟨found.1, fun named => absurd named found.2, nofun⟩
  | some rest =>
    rw [preamble] at found
    obtain ⟨next, leaps, stands'⟩ := found
    have after := firstBoundary_reads stands' rest
    rw [ReadsBoundaryEnd] at after
    dsimp only
    rw [leaps.reads]
    cases broken : lineBreak rest with
    | none =>
      rw [broken] at after
      obtain ⟨told, unnamed⟩ := after
      refine ⟨?_, fun named => absurd named unnamed, ?_⟩
      · rw [nil_append, told]
        split
        · next cr => rw [closes_of_cr cr]; rfl
        · cases closes rest <;> rfl
      · cases closes rest <;> nofun
    | some pair =>
      rw [broken] at after
      obtain ⟨last, leaps', stands''⟩ := after
      rw [leaps'.reads]
      exact readParts_reads nonempty stands'' (Nat.lt_add_one _)

end TrueAsync.Formats

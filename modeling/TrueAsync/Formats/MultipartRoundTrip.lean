import TrueAsync.Formats.MultipartChunking

/-!
# Multipart round trip

A form written in the standard way is read back as it was: each part with its headers in order and
its body byte for byte, whatever the body holds short of a line that begins with the boundary.
-/

namespace TrueAsync.Formats

open TrueAsync.Lib List MultipartParser Segment

/-- A part to be written. -/
structure FormPart where
  headers : List Header
  body : Bytes
  deriving DecidableEq, Repr

def encodeHeader (header : Header) : Bytes := header.1 ++ [0x3a, 0x20] ++ header.2 ++ [0x0d, 0x0a]

/-- A part, from its boundary to the line end before the next one. -/
def encodePart (boundary : Bytes) (part : FormPart) : Bytes :=
  delimiter boundary ++ [0x0d, 0x0a] ++ part.headers.flatMap encodeHeader ++ [0x0d, 0x0a] ++
    part.body ++ [0x0d, 0x0a]

def encodeForm (boundary : Bytes) (parts : List FormPart) : Bytes :=
  parts.flatMap (encodePart boundary) ++ delimiter boundary ++ [0x2d, 0x2d]

/-- A header that can be written: a name without colon or line ends, a value on one line that
begins with neither space nor tab. -/
structure WritableHeader (header : Header) : Prop where
  named : header.1 ≠ []
  name : ∀ b ∈ header.1, b ≠ 0x3a ∧ b ≠ 0x0d ∧ b ≠ 0x0a
  valued : header.2 ≠ []
  value : ∀ b ∈ header.2, b ≠ 0x0d ∧ b ≠ 0x0a
  trimmed : ∀ b, header.2.head? = some b → isOws b = false

/-- A part that can be written with a boundary. -/
structure WritablePart (boundary : Bytes) (part : FormPart) : Prop where
  headers : ∀ header ∈ part.headers, WritableHeader header
  body : ¬(0x0a :: delimiter boundary) <:+: part.body

def partEvents (part : FormPart) : List Event :=
  .mark .partBegin ::
    part.headers.flatMap (fun header => [.data .headerField header.1, .data .headerValue header.2]) ++
    .mark .headersComplete :: pieces .partData part.body ++ [.mark .partEnd]

def formEvents (parts : List FormPart) : List Event := parts.flatMap partEvents ++ [.mark .bodyEnd]

variable {boundary : Bytes}

/-! ## Reading a form -/

def OneLine (boundary : Bytes) : Prop := 0x0d ∉ boundary ∧ 0x0a ∉ boundary

theorem OneLine.delimiter (oneLine : OneLine boundary) : 0x0d ∉ delimiter boundary := by
  simp only [Formats.delimiter, mem_cons, not_or]
  exact ⟨by decide, by decide, oneLine.1⟩

theorem readData_end (rest : Bytes) :
    readData boundary (fuel + 1) ([0x0d, 0x0a] ++ delimiter boundary ++ rest) = ([], some rest) := by
  unfold readData
  simp [lineBreak]

theorem readData_line {eol text body tail : Bytes} (oneLine : OneLine boundary)
    (broken : lineBreak text = some (eol, body ++ 0x0d :: tail))
    (other : ¬delimiter boundary <+: body) : ∃ matched left, body = matched ++ left ∧
      readData boundary (fuel + 1) text =
        (.held (eol ++ matched) :: (readData boundary fuel (left ++ 0x0d :: tail)).1,
          (readData boundary fuel (left ++ 0x0d :: tail)).2) := by
  obtain ⟨matched, c, rest, left, outcome, split, next⟩ :=
    matchPattern_stop oneLine.delimiter other tail
  refine ⟨matched, left, split, ?_⟩
  conv_lhs => unfold readData
  rw [broken]
  dsimp only
  rw [outcome, ← next]

variable {c : UInt8} {fuel : Nat}

theorem readData_plain (broken : lineBreak (c :: rest) = none) (more : rest ≠ []) :
    readData boundary (fuel + 1) (c :: rest) =
      ((if c = 0x0d then .held [c] else .byte c) :: (readData boundary fuel rest).1,
        (readData boundary fuel rest).2) := by
  grind [readData]

theorem readData_body {body : Bytes} (oneLine : OneLine boundary)
    (clean : ¬(0x0a :: delimiter boundary) <:+: body) (rest : Bytes) (enough : body.length < fuel) :
    ∃ data, readData boundary fuel (body ++ ([0x0d, 0x0a] ++ delimiter boundary ++ rest)) =
      (data, some rest) ∧ data.flatMap text = body := by
  induction fuel generalizing body with
  | zero => omega
  | succ fuel ih =>
    -- What remains of the body after some of it has been read.
    have later : ∀ {used left : Bytes}, body = used ++ left → used ≠ [] →
        ∃ data, readData boundary fuel (left ++ ([0x0d, 0x0a] ++ delimiter boundary ++ rest)) =
          (data, some rest) ∧ data.flatMap text = left := by
      intro used left split some
      apply ih
      · grind
      · have shorter := congrArg length split
        have pos := length_pos_iff.mpr some
        rw [length_append] at shorter
        omega
    cases body with
    | nil => exact ⟨[], readData_end rest, rfl⟩
    | cons c body =>
      generalize tailed : ([0x0d, 0x0a] ++ delimiter boundary ++ rest : Bytes) = tail at later ⊢
      obtain ⟨tail, rfl⟩ : ∃ after, tail = 0x0d :: after := ⟨_, tailed.symm⟩
      -- A line break with the rest of its line.
      have line : ∀ eol left : Bytes, c :: body = eol ++ left → eol ≠ [] →
          lineBreak (c :: body ++ 0x0d :: tail) = some (eol, left ++ 0x0d :: tail) →
          ¬delimiter boundary <+: left →
          ∃ data, readData boundary (fuel + 1) (c :: body ++ 0x0d :: tail) = (data, some rest) ∧
            data.flatMap text = c :: body := by
        intro eol left split some broken other
        obtain ⟨matched, left', split', read⟩ := readData_line oneLine broken other
        have whole : c :: body = (eol ++ matched) ++ left' := by
          rw [split, split', append_assoc]
        obtain ⟨data, fetched, told⟩ := later whole (append_ne_nil_of_left_ne_nil some _)
        refine ⟨.held (eol ++ matched) :: data, ?_, ?_⟩
        · rw [read, fetched]
        · rw [flatMap_cons, told, whole]
          rfl
      -- A byte on its own.
      have plain : lineBreak (c :: body ++ 0x0d :: tail) = none →
          ∃ data, readData boundary (fuel + 1) (c :: body ++ 0x0d :: tail) = (data, some rest) ∧
            data.flatMap text = c :: body := by
        intro broken
        rw [cons_append] at broken ⊢
        obtain ⟨data, fetched, told⟩ := later (singleton_append).symm (cons_ne_nil c [])
        refine ⟨(if c = 0x0d then .held [c] else .byte c) :: data, ?_, ?_⟩
        · rw [readData_plain broken (by simp), fetched]
        · rw [flatMap_cons, told]
          split <;> rfl
      by_cases lf : c = 0x0a
      · subst lf
        apply line [0x0a] body rfl (by simp) rfl
        exact fun begins => clean (cons_prefix_cons.mpr ⟨rfl, begins⟩).isInfix
      · by_cases cr : c = 0x0d
        · subst cr
          cases body with
          | nil => exact plain rfl
          | cons d body =>
            by_cases lf' : d = 0x0a
            · subst lf'
              apply line [0x0d, 0x0a] body rfl (by simp) rfl
              intro begins
              have inside := (cons_prefix_cons.mpr ⟨rfl, begins⟩ :
                0x0a :: delimiter boundary <+: 0x0a :: body).isInfix
              exact clean (inside.trans (suffix_cons 0x0d _).isInfix)
            · exact plain (lineBreak_eq_none lf fun _ same => lf' (Option.some.inj same))
        · exact plain (lineBreak_eq_none lf fun same => absurd same cr)

theorem readHeaders_encode (writable : ∀ header ∈ headers, WritableHeader header) (rest : Bytes)
    (enough : headers.length < fuel) :
    readHeaders fuel (headers.flatMap encodeHeader ++ ([0x0d, 0x0a] ++ rest)) =
      (headers, .blank rest) := by
  induction headers generalizing fuel with
  | nil =>
    cases fuel with
    | zero => simp at enough
    | succ fuel => rfl
  | cons header headers ih =>
    obtain ⟨first, later⟩ := forall_mem_cons.mp writable
    obtain ⟨name, value⟩ := header
    cases name with
    | nil => exact absurd rfl first.named
    | cons c name =>
      cases fuel with
      | zero => simp at enough
      | succ fuel =>
        obtain ⟨⟨notColon, notCr, notLf⟩, clean⟩ := forall_mem_cons.mp first.name
        have next := ih later (Nat.lt_of_succ_lt_succ enough)
        generalize after : headers.flatMap encodeHeader ++ ([0x0d, 0x0a] ++ rest) = tail at next
        have shape : ((c :: name, value) :: headers).flatMap encodeHeader ++ ([0x0d, 0x0a] ++ rest) =
            c :: (name ++ 0x3a :: 0x20 :: (value ++ 0x0d :: 0x0a :: tail)) := by
          simp [encodeHeader, ← after]
        obtain ⟨taken, dropped⟩ := span_append 0x3a
          (p := fun b => decide (b ≠ 0x3a ∧ b ≠ 0x0d ∧ b ≠ 0x0a))
          (fun b member => decide_eq_true (clean b member)) (by decide)
          (0x20 :: (value ++ 0x0d :: 0x0a :: tail))
        obtain ⟨taken', dropped'⟩ := span_append 0x0d
          (p := fun b => decide (b ≠ 0x0d ∧ b ≠ 0x0a))
          (fun b member => decide_eq_true (first.value b member)) (by decide) (0x0a :: tail)
        have trimmed : (0x20 :: (value ++ 0x0d :: 0x0a :: tail)).dropWhile isOws =
            value ++ 0x0d :: 0x0a :: tail := by
          cases value with
          | nil => exact absurd rfl first.valued
          | cons v value =>
            have dark : isOws v = false := first.trimmed v rfl
            rw [dropWhile_cons_of_pos rfl, cons_append, dropWhile_cons_of_neg (by rw [dark]; nofun)]
        rw [shape]
        unfold readHeaders
        rw [lineBreak_eq_none notLf fun same => absurd same notCr]
        dsimp only
        split
        · rename_i none
          cases none
        · grind
        · rename_i same
          cases same
          rw [taken, dropped]
          split
          · rename_i none
            cases none
          · grind [lineBreak]
          · grind

def formTail (boundary : Bytes) : List FormPart → Bytes
  | [] => [0x2d, 0x2d]
  | part :: parts =>
      [0x0d, 0x0a] ++ (part.headers.flatMap encodeHeader ++ ([0x0d, 0x0a] ++
        (part.body ++ ([0x0d, 0x0a] ++ delimiter boundary ++ formTail boundary parts))))

theorem lineBreak_crlf (rest : Bytes) :
    lineBreak ([0x0d, 0x0a] ++ rest) = some ([0x0d, 0x0a], rest) := rfl

theorem encodeForm_eq (boundary : Bytes) (parts : List FormPart) :
    encodeForm boundary parts = delimiter boundary ++ formTail boundary parts := by
  induction parts with
  | nil => rfl
  | cons part parts ih => grind [encodeForm, encodePart, formTail]

def Part.form (part : Part) : FormPart := ⟨part.headers, part.data.flatMap text⟩

theorem length_le_encode (headers : List Header) :
    headers.length ≤ (headers.flatMap encodeHeader).length := by
  induction headers with
  | nil => exact le_rfl
  | cons header headers ih => grind [encodeHeader]

theorem readParts_part (oneLine : OneLine boundary) (writable : WritablePart boundary part)
    (after : Bytes) : ∃ found : Part, found.form = part ∧
      readParts boundary (fuel + 1) (part.headers.flatMap encodeHeader ++ ([0x0d, 0x0a] ++
        (part.body ++ ([0x0d, 0x0a] ++ delimiter boundary ++ after)))) = match lineBreak after with
        | some (_, rest) =>
            ⟨found :: (readParts boundary fuel rest).parts, (readParts boundary fuel rest).last⟩
        | none =>
            if after.head? = some 0x0d then ⟨[found], .nothing⟩
            else if closes after then ⟨[found], .closed⟩
            else ⟨[], .body found.headers found.data⟩ := by
  generalize tailed : part.body ++ ([0x0d, 0x0a] ++ delimiter boundary ++ after) = tail
  have long : part.body.length < tail.length + 1 := by grind
  obtain ⟨data, fetched, told⟩ := readData_body oneLine writable.body after long
  rw [tailed] at fetched
  have read := readHeaders_encode writable.headers tail
    (show part.headers.length <
      (part.headers.flatMap encodeHeader ++ ([0x0d, 0x0a] ++ tail)).length + 1 by
      grind [length_le_encode])
  refine ⟨⟨part.headers, data⟩, ?_, ?_⟩
  · rw [Part.form, told]
  · rw [readParts, read]
    cases broken : lineBreak after with
    | none | some found => simp only [fetched, broken]

variable {parts : List FormPart}

theorem readParts_form (oneLine : OneLine boundary)
    (writable : ∀ p ∈ part :: parts, WritablePart boundary p) (enough : parts.length < fuel) :
    ∃ found, found.map Part.form = part :: parts ∧
      readParts boundary fuel (part.headers.flatMap encodeHeader ++ ([0x0d, 0x0a] ++
        (part.body ++ ([0x0d, 0x0a] ++ delimiter boundary ++ formTail boundary parts)))) =
        ⟨found, .closed⟩ := by
  induction parts generalizing part fuel with
  | nil =>
    obtain ⟨first, _⟩ := forall_mem_cons.mp writable
    cases fuel with
    | zero => simp at enough
    | succ fuel =>
      obtain ⟨found, same, read⟩ := readParts_part oneLine first (formTail boundary [])
      exact ⟨[found], by rw [map_singleton, same], read⟩
  | cons next parts ih =>
    obtain ⟨first, later⟩ := forall_mem_cons.mp writable
    cases fuel with
    | zero => simp at enough
    | succ fuel =>
      obtain ⟨found, same, read⟩ := readParts_part oneLine first (formTail boundary (next :: parts))
      obtain ⟨rest, others, read'⟩ := ih later (Nat.lt_of_succ_lt_succ enough)
      refine ⟨found :: rest, by rw [map_cons, same, others], ?_⟩
      rw [read]
      rw [formTail, lineBreak_crlf]
      dsimp only
      rw [read']

theorem length_le_formTail (boundary : Bytes) (parts : List FormPart) :
    parts.length < (formTail boundary parts).length := by
  induction parts with
  | nil => exact Nat.zero_lt_succ _
  | cons part parts ih => grind [formTail]

theorem decode_form (oneLine : OneLine boundary)
    (writable : ∀ part ∈ parts, WritablePart boundary part) : ∃ found, found.map Part.form = parts ∧
      decode boundary (encodeForm boundary parts) = ⟨found, .closed⟩ := by
  have preamble : afterPreamble boundary ((encodeForm boundary parts).length + 1)
      (encodeForm boundary parts) = some (formTail boundary parts) := by
    rw [afterPreamble, encodeForm_eq, matchPattern_append]
  unfold decode
  rw [preamble]
  dsimp only
  cases parts with
  | nil => exact ⟨[], rfl, rfl⟩
  | cons part parts =>
    rw [formTail, lineBreak_crlf]
    apply readParts_form oneLine writable
    have least := length_le_formTail boundary parts
    simp only [length_append, length_cons]
    omega

/-! ## The callbacks for a form -/

variable {parser : MultipartParser}

theorem dataByte_silent (silent : .signal .bodyEnd ∉ before) :
    .signal .bodyEnd ∉ (parser.dataByte c before).2 := by
  unfold dataByte
  split_ifs <;> simp [silent]

theorem missByte_silent : .signal .bodyEnd ∉ (parser.missByte c).2 := by
  apply dataByte_silent
  unfold heldBack
  split_ifs <;> simp

theorem valueByte_silent : .signal .bodyEnd ∉ (parser.valueByte c).2 := by
  unfold valueByte
  split_ifs <;> simp

theorem readByte_bodyEnd (announced : .signal .bodyEnd ∈ (parser.readByte c).2) :
    (parser.readByte c).1.state = .ended := by
  cases state : parser.state with
  | bodyEnd =>
    simp only [readByte, state, reject] at announced ⊢
    split_ifs at announced ⊢
    · rfl
    · rfl
    · cases announced
  | headerValueStart =>
    simp only [readByte, state] at announced
    split_ifs at announced
    · cases announced
    · exact absurd announced valueByte_silent
  | headerValue =>
    simp only [readByte, state] at announced
    exact absurd announced valueByte_silent
  | partData =>
    simp only [readByte, state] at announced
    exact absurd announced (dataByte_silent not_mem_nil)
  | partDataCr | partDataLf | partDataBoundaryStart | partDataBoundary =>
    simp only [readByte, state, holdByte] at announced
    split_ifs at announced
    all_goals first
      | exact absurd announced missByte_silent
      | cases announced
  | _ =>
    -- The other states announce nothing, or the start or end of a part.
    simp only [readByte, state, openPart, reject] at announced
    try split_ifs at announced
    all_goals simp at announced

theorem readAll_bodyEnd {text : Bytes} (announced : .signal .bodyEnd ∈ (parser.readAll text).2) :
    (parser.readAll text).1.state = .ended := by
  induction text generalizing parser with
  | nil => exact absurd announced (not_mem_nil)
  | cons c text ih =>
    grind [readAll_cons, readByte_bodyEnd, readAll_stopped]

theorem items_header (header : Header) : (headerTicks header).flatMap Tick.items =
      (Piece.data .headerField header.1 : Event).items ++
        (Piece.data .headerValue header.2 : Event).items := by
  rw [headerTicks, flatMap_append, flatMap_map, flatMap_map]
  simp only [Piece.items, Tick.items]
  rw [← map_eq_flatMap, ← map_eq_flatMap]

theorem items_data (data : List Segment) : (data.map tick).flatMap Tick.items =
      expand (pieces .partData (data.flatMap text)) := by
  have bytes : (data.map tick).flatMap Tick.items =
      (data.flatMap text).map fun b => .inr (.partData, b) := by
    induction data with
    | nil => rfl
    | cons segment data ih =>
      rw [map_cons, flatMap_cons, ih, flatMap_cons, map_append]
      cases segment <;> rfl
  rw [bytes]
  unfold pieces
  split
  · rename_i empty
    rw [empty]
    rfl
  · exact (append_nil _).symm

theorem items_part (part : Part) :
    part.ticks.flatMap Tick.items = expand (partEvents part.form) := by
  have headers : part.headers.flatMap (fun header => (headerTicks header).flatMap Tick.items) =
      expand (part.headers.flatMap fun header =>
        [.data .headerField header.1, .data .headerValue header.2]) := by
    rw [expand, flatMap_assoc]
    refine congrArg (part.headers.flatMap ·) (funext fun header => ?_)
    simp [items_header]
  have data := items_data part.data
  simp only [Part.ticks, openTicks, partEvents, Part.form, flatMap_append,
    flatMap_cons, flatMap_assoc, headers, data, expand_append, expand_cons]
  rfl

theorem items_form (found : List Part) : (⟨found, .closed⟩ : Body).ticks.flatMap Tick.items =
      expand (formEvents (found.map Part.form)) := by
  have parts : found.flatMap (fun part => part.ticks.flatMap Tick.items) =
      expand ((found.map Part.form).flatMap partEvents) := by
    induction found with
    | nil => rfl
    | cons part found ih => grind [items_part, expand_append]
  rw [Body.ticks, formEvents, flatMap_append, flatMap_assoc, parts, expand_append]
  rfl

theorem coalesce_headers (headers : List Header) (rest : List Event) :
    coalesce (headers.flatMap (fun header =>
      [.data .headerField header.1, .data .headerValue header.2]) ++
      .mark .headersComplete :: rest) =
    headers.flatMap (fun header => [.data .headerField header.1, .data .headerValue header.2]) ++
      .mark .headersComplete :: coalesce rest := by
  induction headers with
  | nil => rfl
  | cons header headers ih =>
    rw [flatMap_cons, append_assoc, cons_append, cons_append, nil_append,
      coalesce_cons, coalesce_cons, ih]
    -- A value is followed by the blank line, or by the name of the next header.
    cases headers with
    | nil => rfl
    | cons next headers => rfl

theorem coalesce_formEvents : coalesce (formEvents parts) = formEvents parts := by
  induction parts with
  | nil => rfl
  | cons part parts ih =>
    have split : formEvents (part :: parts) = .mark .partBegin ::
        (part.headers.flatMap (fun header =>
          [.data .headerField header.1, .data .headerValue header.2]) ++
        .mark .headersComplete :: (pieces .partData part.body ++
          .mark .partEnd :: formEvents parts)) := by
      simp [formEvents, partEvents]
    have data : coalesce (pieces .partData part.body ++ .mark .partEnd :: formEvents parts) =
        pieces .partData part.body ++ .mark .partEnd :: formEvents parts := by
      have ended : coalesce (.mark .partEnd :: formEvents parts) =
          .mark .partEnd :: formEvents parts := by
        rw [coalesce_cons, ih]
        rfl
      unfold pieces
      split
      · exact ended
      · rw [singleton_append, coalesce_cons, ended]
        rfl
    rw [split, coalesce_cons, coalesce_headers, data]
    rfl

theorem nonempty_formEvents (writable : ∀ part ∈ parts, WritablePart boundary part) :
    ∀ event ∈ formEvents parts, event.Nonempty := by
  intro event member
  simp only [formEvents, partEvents, mem_append, mem_flatMap, mem_cons,
    not_mem_nil, or_false] at member
  rcases member with
    ⟨part, isPart, ((rfl | ⟨header, isHeader, rfl | rfl⟩) | rfl | data) | rfl⟩ | rfl
  · trivial
  · exact ((writable part isPart).headers header isHeader).named
  · exact ((writable part isPart).headers header isHeader).valued
  · trivial
  · unfold pieces at data
    split at data
    · cases data
    · rename_i some
      rw [mem_singleton] at data
      subst data
      exact some
  · trivial
  · trivial

/-- A form is parsed to its parts, in however many buffers it comes. -/
theorem multipart_round_trip {boundary : Bytes} {parser : MultipartParser}
    (created : multipartParserInit boundary = some parser) (oneLine : OneLine parser.boundary)
    {parts : List FormPart} (writable : ∀ part ∈ parts, WritablePart parser.boundary part)
    {chunks : List Bytes} (whole : chunks.flatten = encodeForm parser.boundary parts) :
    outcome parser chunks = (formEvents parts, .ended, false) ∧
      multipartParserIsComplete (executeAll record chunks parser []).1 = true := by
  obtain ⟨fresh, nonempty⟩ := init_some created
  obtain ⟨found, same, decoded⟩ := decode_form oneLine writable
  obtain ⟨ticks, named⟩ := readAll_decode nonempty (encodeForm parser.boundary parts)
  rw [← fresh, decoded] at ticks named
  have unnamed : ¬(parser.readAll (encodeForm parser.boundary parts)).1.nameError := by
    rw [named]
    nofun
  obtain ⟨⟨events, before, reports, split, log⟩, state⟩ := outcome_eq unnamed whole
  rw [map_nil, append_nil] at split
  have ended : (parser.readAll (encodeForm parser.boundary parts)).1.state = .ended := by
    apply readAll_bodyEnd
    rw [ticks]
    exact mem_append_right _ (mem_singleton_self _)
  have seen : coalesce events = formEvents parts := by
    rw [← coalesce_formEvents,
      coalesce_eq_iff reports.nonempty (nonempty_formEvents writable), reports.expand_eq, ← split,
      ticks, items_form, same]
  rw [told_record] at log
  constructor
  · unfold outcome
    dsimp only
    rw [log, seen, state, ended, multipartParserHasError, ended]
    rfl
  · rw [multipartParserIsComplete, state, ended]
    rfl

/-- A part whose body ends in CR and holds a false boundary and a line of dashes. -/
def nearMisses : FormPart := ⟨[(ascii "A", ascii "b")], ascii "x\r\n-\n--C\r\n--\r"⟩

theorem multipart_round_trip_near_misses :
    outcome { boundary := ascii "B" } [encodeForm (ascii "B") [nearMisses]] =
      (formEvents [nearMisses], .ended, false) := by
  have created : multipartParserInit (ascii "B") = some { boundary := ascii "B" } := by decide
  have oneLine : OneLine (ascii "B") := by
    unfold OneLine
    decide
  have header : WritableHeader (ascii "A", ascii "b") :=
    ⟨by decide +kernel, by decide +kernel, by decide +kernel, by decide +kernel,
      fun b first => by cases first; rfl⟩
  have part : WritablePart (ascii "B") nearMisses := by
    constructor
    · simp only [nearMisses, mem_singleton, forall_eq]
      exact header
    · decide +kernel
  have writable : ∀ p ∈ [nearMisses], WritablePart (ascii "B") p := by
    simp only [mem_singleton, forall_eq]
    exact part
  have whole : [encodeForm (ascii "B") [nearMisses]].flatten =
      encodeForm (ascii "B") [nearMisses] := flatten_singleton
  exact (multipart_round_trip created oneLine writable whole).1

end TrueAsync.Formats

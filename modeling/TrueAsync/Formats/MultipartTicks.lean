import TrueAsync.Formats.MultipartParser

/-!
# The multipart parser, byte by byte

Without buffers there is no `mark`: `readByte` is the parser when every byte of a name, a value or
a body is reported as it is read. Only bytes that may be a boundary are held back, and given up in
one piece. A run of the parser over buffers of any size reports the same, in larger pieces
(`executeAll_reports`), with one exception: the bytes of a header name are lost when the line ends
before its colon, as far as they came in the same buffer.
-/

namespace TrueAsync.Formats

open TrueAsync.Lib Run List MultipartParser MultipartState

/-- What the parser has to tell: a signal, a byte, or bytes that were held back. -/
inductive Tick
  | signal (s : Signal)
  | byte (kind : DataKind) (b : UInt8)
  | held (text : Bytes)
  deriving DecidableEq, Repr

def heldBack (text : Bytes) : List Tick := if text = [] then [] else [.held text]

def nameReason : String := "unexpected end of line in header name"

namespace MultipartParser

/-- `parser->state = MP_STATE_ERROR` with its reason. -/
def reject (parser : MultipartParser) (reason : String) : MultipartParser × List Tick :=
  ({ parser with state := .error, errorReason := some reason }, [])

def openPart (parser : MultipartParser) (before : List Tick) : MultipartParser × List Tick :=
  ({ parser with partStarted := true, state := .headerFieldStart }, before ++ [.signal .partBegin])

def valueByte (parser : MultipartParser) (c : UInt8) : MultipartParser × List Tick :=
  if c = 0x0d then ({ parser with state := .headerValueAlmostDone }, [])
  else if c = 0x0a then ({ parser with state := .headerFieldStart }, [])
  else ({ parser with state := .headerValue }, [.byte .headerValue c])

def dataByte (parser : MultipartParser) (c : UInt8) (before : List Tick) :
    MultipartParser × List Tick :=
  if c = 0x0d then ({ parser with lookbehind := [0x0d], state := .partDataCr }, before)
  else if c = 0x0a then ({ parser with lookbehind := [0x0a], state := .partDataLf }, before)
  else ({ parser with state := .partData }, before ++ [.byte .partData c])

def missByte (parser : MultipartParser) (c : UInt8) : MultipartParser × List Tick :=
  ({ parser with lookbehind := [] } : MultipartParser).dataByte c (heldBack parser.lookbehind)

def holdByte (parser : MultipartParser) (c : UInt8) (state : MultipartState) :
    MultipartParser × List Tick :=
  ({ parser with lookbehind := parser.lookbehind ++ [c], state }, [])

def readByte (parser : MultipartParser) (c : UInt8) : MultipartParser × List Tick :=
  match parser.state with
  | .start => (if c = 0x2d then { parser with state := .boundaryStart } else parser, [])
  | .boundaryStart =>
      if c = 0x2d then ({ parser with boundaryIndex := 0, state := .boundary }, [])
      else ({ parser with state := .start }, [])
  | .boundary => (parser.matchBoundary c, [])
  | .boundaryAlmostDone =>
      if c = 0x0d then ({ parser with state := .boundaryDone }, [])
      else if c = 0x2d then ({ parser with state := .bodyEnd }, [])
      else if c = 0x0a then parser.openPart []
      else parser.reject "expected CR or LF after boundary"
  | .boundaryDone => if c = 0x0a then parser.openPart [] else parser.reject "expected LF after CR"
  | .headerFieldStart =>
      if c = 0x0d then ({ parser with state := .headersAlmostDone }, [])
      else if c = 0x0a then ({ parser with state := .partData }, [.signal .headersComplete])
      else ({ parser with state := .headerField }, [.byte .headerField c])
  | .headerField =>
      if c = 0x3a then ({ parser with state := .headerValueStart }, [])
      else if c = 0x0d ∨ c = 0x0a then parser.reject nameReason
      else (parser, [.byte .headerField c])
  | .headerValueStart => if isOws c then (parser, []) else parser.valueByte c
  | .headerValue => parser.valueByte c
  | .headerValueAlmostDone =>
      if c = 0x0a then ({ parser with state := .headerFieldStart }, [])
      else parser.reject "expected LF after CR in header"
  | .headersAlmostDone =>
      if c = 0x0a then ({ parser with state := .partData }, [.signal .headersComplete])
      else parser.reject "expected LF after CR"
  | .partData => parser.dataByte c []
  | .partDataCr => if c = 0x0a then parser.holdByte c .partDataLf else parser.missByte c
  | .partDataLf => if c = 0x2d then parser.holdByte c .partDataBoundaryStart else parser.missByte c
  | .partDataBoundaryStart =>
      if c = 0x2d then
        ({ parser with
          lookbehind := parser.lookbehind ++ [c]
          boundaryIndex := 0
          state := .partDataBoundary }, [])
      else parser.missByte c
  | .partDataBoundary => if parser.differs c then parser.missByte c else (parser.matchHeld c, [])
  | .partDataEnd =>
      if c = 0x2d then ({ parser with state := .bodyEnd }, [])
      else if c = 0x0d then
        ({ parser with partStarted := false, state := .boundaryDone }, [.signal .partEnd])
      else if c = 0x0a then parser.openPart [.signal .partEnd]
      else parser.reject "expected CRLF or '--' after boundary"
  | .bodyEnd =>
      if c = 0x2d then
        if parser.partStarted then
          ({ parser with partStarted := false, state := .ended },
            [.signal .partEnd, .signal .bodyEnd])
        else ({ parser with state := .ended }, [.signal .bodyEnd])
      else parser.reject "expected '--' at end of body"
  | .ended | .error => (parser, [])
  | .headersDone | .partDataBoundaryDash => parser.reject "unknown state"

def readAll (parser : MultipartParser) : Bytes → MultipartParser × List Tick
  | [] => (parser, [])
  | c :: rest =>
      let (parser, ticks) := parser.readByte c
      let (parser, later) := parser.readAll rest
      (parser, ticks ++ later)

@[simp] theorem readAll_nil (parser : MultipartParser) : parser.readAll [] = (parser, []) := rfl

theorem readAll_cons (parser : MultipartParser) (c : UInt8) (rest : Bytes) :
    parser.readAll (c :: rest) = (((parser.readByte c).1.readAll rest).1,
        (parser.readByte c).2 ++ ((parser.readByte c).1.readAll rest).2) := rfl

theorem readAll_append (parser : MultipartParser) (text more : Bytes) :
    parser.readAll (text ++ more) = (((parser.readAll text).1.readAll more).1,
        (parser.readAll text).2 ++ ((parser.readAll text).1.readAll more).2) := by
  induction text generalizing parser with
  | nil => rfl
  | cons c text ih =>
    rw [cons_append, readAll_cons, readAll_cons, ih]
    simp

theorem readAll_stopped {parser : MultipartParser}
    (stopped : parser.state = .ended ∨ parser.state = .error) (text : Bytes) :
    parser.readAll text = (parser, []) := by
  induction text with
  | nil => rfl
  | cons c text ih => grind [readByte, readAll_cons]

end MultipartParser

/-! ## Reports in larger pieces -/

/-- The calls of callbacks that tell some ticks: bytes of one kind may come together, bytes that
were held back come in one piece. -/
inductive Reports : List Event → List Tick → Prop
  | nil : Reports [] []
  | signal {events ticks} (s : Signal) (later : Reports events ticks) :
      Reports (.mark s :: events) (.signal s :: ticks)
  | bytes {events ticks} (kind : DataKind) {text : Bytes} (some : text ≠ [])
      (later : Reports events ticks) :
      Reports (.data kind text :: events) (text.map (.byte kind) ++ ticks)
  | held {events ticks} {text : Bytes} (some : text ≠ []) (later : Reports events ticks) :
      Reports (.data .partData text :: events) (.held text :: ticks)

namespace Reports

variable {events more : List Event} {ticks later : List Tick}

theorem append (first : Reports events ticks) (second : Reports more later) :
    Reports (events ++ more) (ticks ++ later) := by
  induction first with
  | nil => exact second
  | signal s _ ih => exact ih.signal s
  | bytes kind some _ ih =>
    rw [append_assoc]
    exact ih.bytes kind some
  | held some _ ih => exact ih.held some

theorem nonempty (reports : Reports events ticks) : ∀ event ∈ events, event.Nonempty := by
  induction reports with
  | nil => exact forall_mem_nil _
  | signal s _ ih => exact forall_mem_cons.mpr ⟨trivial, ih⟩
  | bytes kind some _ ih | held some _ ih => exact forall_mem_cons.mpr ⟨some, ih⟩

end Reports

def Tick.items : Tick → List (Signal ⊕ DataKind × UInt8)
  | .signal s => [.inl s]
  | .byte kind b => [.inr (kind, b)]
  | .held text => text.map fun b => .inr (.partData, b)

theorem Reports.expand_eq (reports : Reports events ticks) :
    expand events = ticks.flatMap Tick.items := by
  induction reports with
  | nil => rfl
  | signal s _ ih | held _ _ ih => rw [expand_cons, ih, flatMap_cons]; rfl
  | bytes kind _ _ ih =>
    rw [expand_cons, ih, flatMap_append]
    congr 1
    simp only [Piece.items, flatMap_map]
    exact map_eq_flatMap

/-! ## The parser reports its ticks -/

section

variable {σ : Type} {callbacks : Callbacks σ}

def Succeeds (callbacks : Callbacks σ) : Prop := ∀ event data, (callbacks event data).1 = 0

def told (callbacks : Callbacks σ) (data : σ) (events : List Event) : σ :=
  events.foldl (fun data event => (callbacks event data).2) data

theorem told_append (data : σ) (events more : List Event) :
    told callbacks data (events ++ more) = told callbacks (told callbacks data events) more :=
  foldl_append

def pieces (kind : DataKind) (text : Bytes) : List Event :=
  if text = [] then [] else [.data kind text]

theorem Reports.pieces (kind : DataKind) (text : Bytes) :
    Reports (pieces kind text) (text.map (.byte kind)) := by
  unfold Formats.pieces
  split
  · rename_i empty
    subst empty
    exact .nil
  · rename_i some
    simpa using Reports.bytes kind some .nil

theorem Reports.heldBack (text : Bytes) : Reports (Formats.pieces .partData text) (heldBack text) := by
  unfold Formats.pieces Formats.heldBack
  split
  · exact .nil
  · rename_i some
    exact .held some .nil

section

variable (succeeds : Succeeds callbacks)
include succeeds

theorem callback_eq (event : Event) (run : Run σ)
    (next : Run σ → Step σ) : callback callbacks event run next =
      next { run with data := told callbacks run.data [event] } := by
  unfold callback
  simp only [succeeds event run.data]
  rfl

theorem callbackData_eq (kind : DataKind) (text : Bytes)
    (run : Run σ) (next : Run σ → Step σ) : callbackData callbacks kind text run next =
      next { run with data := told callbacks run.data (pieces kind text) } := by
  unfold callbackData pieces
  by_cases empty : text = []
  · subst empty
    rfl
  · rw [if_pos (length_pos_iff.mpr empty), callback_eq succeeds, if_neg empty]

theorem flushLookbehind_eq (next : Run σ → Step σ) :
    flushLookbehind callbacks run next = next { run with
        parser := { run.parser with lookbehind := [] }
        data := told callbacks run.data (pieces .partData run.parser.lookbehind) } := by
  unfold flushLookbehind
  by_cases empty : run.parser.lookbehind = []
  · rw [if_neg (by simp [empty])]
    simp only [pieces, empty, if_true]
    congr 1
    rw [← empty]
    rfl
  · rw [if_pos (length_pos_iff.mpr empty), callbackData_eq succeeds]

end

/-- What has been read and not been told: the bytes from `mark` on. -/
def Run.pending (run : Run σ) : List Tick :=
  match run.parser.state with
  | .headerField => run.mark.text.map (.byte .headerField)
  | .headerValue => run.mark.text.map (.byte .headerValue)
  | .partData => run.mark.text.map (.byte .partData)
  | _ => []

def MultipartState.holding : MultipartState → Bool
  | .partDataCr | .partDataLf | .partDataBoundaryStart | .partDataBoundary => true
  | _ => false

/-- A run within a buffer has told the ticks up to what is pending. `opened` runs have the whole
header name before them. -/
structure Follows (callbacks : Callbacks σ) (opened : Prop) (start : σ) (ticks : List Tick)
    (run : Run σ) : Prop where
  reports : ∃ events before, Reports events before ∧ ticks = before ++ run.pending ∧
    run.data = told callbacks start events
  held : run.parser.state.holding = true → run.mark = .null
  here : run.mark ≠ .next
  named : opened → run.parser.state = .headerField → run.mark.text ≠ []
  live : run.parser.state ≠ .error

/-- Where a step over the byte `c` should lead: to the parser that `readByte` has, with its ticks. -/
def Leads (callbacks : Callbacks σ) (opened : Prop) (start : σ) (ticks : List Tick) (c : UInt8)
    (run : Run σ) (read : MultipartParser × List Tick) : Step σ → Prop
  | .consumed next => next.parser = read.1 ∧
      Follows callbacks opened start (ticks ++ read.2) { next with mark := next.mark.advance c }
  | .failed next => next.parser = read.1 ∧ read.1.state = .error ∧ next.data = run.data ∧
      read.2 = []

variable {opened : Prop} {start : σ} {ticks : List Tick} {run : Run σ} {c : UInt8}

theorem Mark.advance_ne_next (mark : Mark) : mark.advance c ≠ .next := by
  cases mark <;> simp [Mark.advance]

variable {parser : MultipartParser} {next : Run σ} {calls : List Event}

section

variable (follows : Follows callbacks opened start ticks run)
include follows

theorem Follows.consume {said new : List Tick} (telling : Reports calls said)
    (split : run.pending ++ new = said ++ pending { next with mark := next.mark.advance c })
    (data : next.data = told callbacks run.data calls) (same : next.parser = parser)
    (held : next.parser.state.holding = true → next.mark = .null)
    (named : opened → next.parser.state = .headerField → (next.mark.advance c).text ≠ [])
    (live : next.parser.state ≠ .error) :
    Leads callbacks opened start ticks c run (parser, new) (.consumed next) := by
  obtain ⟨events, before, reports, cut, sofar⟩ := follows.reports
  refine ⟨same, ?_, ?_, Mark.advance_ne_next _, named, live⟩
  · refine ⟨events ++ calls, before ++ said, reports.append telling, ?_, ?_⟩
    · rw [cut, append_assoc, append_assoc, split]
    · rw [told_append, ← sofar]
      exact data
  · intro holding
    simp only [held holding, Mark.advance]

theorem Follows.signalled (telling : Reports calls new) (quiet : run.pending = [])
    (data : next.data = told callbacks run.data calls)
    (quiet' : pending { next with mark := next.mark.advance c } = [])
    (held : next.parser.state.holding = true → next.mark = .null)
    (other : next.parser.state ≠ .headerField) (live : next.parser.state ≠ .error) :
    Leads callbacks opened start ticks c run (next.parser, new) (.consumed next) := by
  apply follows.consume telling _ data rfl held (fun _ => (absurd · other)) live
  rw [quiet, quiet', nil_append, append_nil]

theorem Follows.silent (quiet : run.pending = []) (data : next.data = run.data)
    (quiet' : pending { next with mark := next.mark.advance c } = [])
    (held : next.parser.state.holding = true → next.mark = .null)
    (other : next.parser.state ≠ .headerField) (live : next.parser.state ≠ .error) :
    Leads callbacks opened start ticks c run (next.parser, []) (.consumed next) :=
  follows.signalled Reports.nil quiet data quiet' held other live

end

section

variable (succeeds : Succeeds callbacks) (follows : Follows callbacks opened start ticks run)
include succeeds follows

theorem beginPart_leads (quiet : run.pending = []) :
    Leads callbacks opened start ticks c run (run.parser.openPart []) (beginPart callbacks run) := by
  rw [beginPart, callback_eq succeeds]
  exact follows.signalled (Reports.nil.signal .partBegin) quiet rfl rfl nofun nofun nofun

theorem completeHeaders_leads (quiet : run.pending = []) (mark : Mark) :
    Leads callbacks opened start ticks c run
      ({ run.parser with state := .partData }, [.signal .headersComplete])
      (completeHeaders callbacks { run with mark }) := by
  rw [completeHeaders, callback_eq succeeds]
  exact follows.signalled (Reports.nil.signal .headersComplete) quiet rfl rfl nofun nofun nofun

theorem inHeaderValue_leads {text : Bytes} (pending : run.pending = text.map (.byte .headerValue)) :
    Leads callbacks opened start ticks c run (run.parser.valueByte c)
      (inHeaderValue callbacks c { run.goto .headerValue with mark := .since text }) := by
  have flushed := Reports.pieces .headerValue text
  unfold inHeaderValue valueByte
  repeat' split
  iterate 2
    · rw [callbackData_eq succeeds]
      apply follows.consume flushed (congrArg (· ++ []) pending) rfl rfl
      all_goals nofun
  · apply follows.consume Reports.nil
    · rw [pending]
      simp [Run.pending, Run.goto, Mark.advance, Mark.text]
    · rfl
    · rfl
    · nofun
    · nofun
    · nofun

theorem inPartData_leads (state : parser.state = .partData)
    {mark : Mark} (here : mark ≠ .next) {said before : List Tick} (telling : Reports calls said)
    (pending : run.pending ++ before = said ++ mark.text.map (.byte .partData)) :
    Leads callbacks opened start ticks c run (parser.dataByte c before)
      (inPartData callbacks c { parser, mark, data := told callbacks run.data calls }) := by
  have flushed := telling.append (.pieces .partData mark.text)
  have twice : told callbacks (told callbacks run.data calls) (pieces .partData mark.text) =
      told callbacks run.data (calls ++ pieces .partData mark.text) := (told_append _ _ _).symm
  -- `mark` is set before the byte is looked at.
  have marked : ∀ {data : σ},
      (if (⟨parser, mark, data⟩ : Run σ).mark = .null then
        ({ parser, mark := .since [], data } : Run σ) else ⟨parser, mark, data⟩) =
      ⟨parser, .since mark.text, data⟩ := by
    intro data
    cases mark with
    | null => rfl
    | since text => rfl
    | next => exact absurd rfl here
  unfold inPartData dataByte
  rw [marked]
  repeat' split
  iterate 2
    · rw [callbackData_eq succeeds]
      apply follows.consume flushed _ twice rfl (fun _ => rfl)
      · nofun
      · nofun
      · rw [pending]
        exact (append_nil _).symm
  · have same : ({ parser with state := .partData } : MultipartParser) = parser := by rw [← state]
    rw [same]
    apply follows.consume telling _ rfl rfl
    iterate 3
      · rw [state]
        nofun
    · grind [pending, Mark.advance, Mark.text]

theorem backToData_leads (holding : run.parser.state.holding = true) :
    Leads callbacks opened start ticks c run (run.parser.missByte c)
      (backToData callbacks c run) := by
  have quiet : run.pending = [] := by
    unfold pending
    split <;> simp_all [MultipartState.holding]
  have null := follows.held holding
  rw [backToData, flushLookbehind_eq succeeds]
  apply inPartData_leads succeeds follows rfl follows.here (.heldBack _)
  rw [quiet, null]
  simp [Mark.text]

end

theorem matchBoundary_state (parser : MultipartParser) (c : UInt8) :
    (parser.matchBoundary c).state = .start ∨ (parser.matchBoundary c).state = .boundaryAlmostDone ∨
      (parser.matchBoundary c).state = parser.state := by
  grind [matchBoundary]

theorem matchHeld_state (parser : MultipartParser) (c : UInt8) :
    (parser.matchHeld c).state = .partDataEnd ∨ (parser.matchHeld c).state = parser.state := by
  grind [matchHeld]

theorem Run.setMark_eq (here : run.mark ≠ .next)
    (state : run.parser.state = .headerField ∨ run.parser.state = .headerValue ∨
      run.parser.state = .partData) : run.setMark = { run with mark := .since run.mark.text } := by
  obtain ⟨parser, mark, data⟩ := run
  unfold setMark
  rcases state with state | state | state
  all_goals
    rw [state]
    cases mark with
    | null => rfl
    | since text => rfl
    | next => exact absurd rfl here

theorem switchState_leads (succeeds : Succeeds callbacks)
    (follows : Follows callbacks opened start ticks run) :
    Leads callbacks opened start ticks c run (run.parser.readByte c)
      (switchState callbacks c run.setMark) := by
  obtain ⟨⟨boundary, state, index, lookbehind, begun, reason⟩, mark, data⟩ := run
  -- One case per state; where the parser gives up, no callback has been called.
  cases state with
  | start | boundaryStart =>
    simp only [switchState, readByte, setMark]
    split
    all_goals exact follows.silent rfl rfl rfl nofun nofun nofun
  | boundary =>
    simp only [switchState, readByte, setMark]
    rcases matchBoundary_state ⟨boundary, .boundary, index, lookbehind, begun, reason⟩ c with
      state | state | state
    all_goals
      apply follows.silent
      · rfl
      · rfl
      · simp only [pending, state]
      · grind [holding]
      · grind
      · grind
  | boundaryAlmostDone =>
    simp only [switchState, readByte, setMark]
    split
    · exact follows.silent rfl rfl rfl nofun nofun nofun
    · split
      · exact follows.silent rfl rfl rfl nofun nofun nofun
      · split
        · exact beginPart_leads succeeds follows rfl
        · exact ⟨rfl, rfl, rfl, rfl⟩
  | boundaryDone =>
    simp only [switchState, readByte, setMark]
    split
    · exact beginPart_leads succeeds follows rfl
    · exact ⟨rfl, rfl, rfl, rfl⟩
  | headerFieldStart =>
    simp only [switchState, readByte, setMark]
    split
    · exact follows.silent rfl rfl rfl nofun nofun nofun
    · split
      · exact completeHeaders_leads succeeds follows rfl _
      · apply follows.consume Reports.nil
        · rfl
        · rfl
        · rfl
        · nofun
        · exact fun _ _ => cons_ne_nil _ _
        · nofun
  | headerField =>
    rw [setMark_eq follows.here (.inl rfl)]
    simp only [switchState, readByte]
    split
    · rw [callbackData_eq succeeds]
      apply follows.consume (Reports.pieces .headerField mark.text) rfl rfl rfl
      all_goals nofun
    · split
      · exact ⟨rfl, rfl, rfl, rfl⟩
      · apply follows.consume Reports.nil
        · simp [pending, Mark.advance, Mark.text]
        · rfl
        · rfl
        · nofun
        · exact fun _ _ => append_ne_nil_of_right_ne_nil _ (cons_ne_nil _ _)
        · nofun
  | headerValueStart =>
    simp only [switchState, readByte, setMark]
    split
    · exact follows.silent rfl rfl rfl nofun nofun nofun
    · exact inHeaderValue_leads succeeds follows rfl
  | headerValue =>
    rw [setMark_eq follows.here (.inr (.inl rfl))]
    exact inHeaderValue_leads succeeds follows rfl
  | headerValueAlmostDone =>
    simp only [switchState, readByte, setMark]
    split
    · exact follows.silent rfl rfl rfl nofun nofun nofun
    · exact ⟨rfl, rfl, rfl, rfl⟩
  | headersAlmostDone =>
    simp only [switchState, readByte, setMark]
    split
    · exact completeHeaders_leads succeeds follows rfl _
    · exact ⟨rfl, rfl, rfl, rfl⟩
  | partData =>
    rw [setMark_eq follows.here (.inr (.inr rfl))]
    have here : Mark.since mark.text ≠ .next := nofun
    exact inPartData_leads succeeds follows rfl here Reports.nil (append_nil _)
  | partDataCr | partDataLf | partDataBoundaryStart =>
    simp only [switchState, readByte, setMark]
    split
    · exact follows.silent rfl rfl rfl (fun _ => follows.held rfl) nofun nofun
    · exact backToData_leads succeeds follows rfl
  | partDataBoundary =>
    generalize same :
      (⟨boundary, .partDataBoundary, index, lookbehind, begun, reason⟩ : MultipartParser) = parser
      at follows
    have state : parser.state = .partDataBoundary := by rw [← same]
    have unmarked : (⟨parser, mark, data⟩ : Run σ).setMark = ⟨parser, mark, data⟩ := by
      simp only [setMark, state]
    rw [unmarked]
    simp only [switchState, readByte, state]
    split
    · exact backToData_leads succeeds follows (by simp only [state, holding])
    · have null := follows.held (by simp only [state, holding])
      rcases matchHeld_state parser c with after | after
      all_goals
        apply follows.silent
        · simp only [pending, state]
        · rfl
        · simp only [pending, after, state]
        · exact fun _ => null
        · grind
        · grind
  | partDataEnd =>
    simp only [switchState, readByte, setMark]
    split
    · exact follows.silent rfl rfl rfl nofun nofun nofun
    · split
      · rw [endPart, callback_eq succeeds]
        exact follows.signalled (Reports.nil.signal .partEnd) rfl rfl rfl nofun nofun nofun
      · split
        · rw [endPart, callback_eq succeeds, beginPart, callback_eq succeeds]
          exact follows.signalled ((Reports.nil.signal .partBegin).signal .partEnd) rfl rfl rfl
            nofun nofun nofun
        · exact ⟨rfl, rfl, rfl, rfl⟩
  | bodyEnd =>
    simp only [switchState, readByte, setMark]
    split
    · cases begun with
      | true =>
        simp only [if_true, endPart]
        rw [callback_eq succeeds, callback_eq succeeds]
        exact follows.signalled ((Reports.nil.signal .bodyEnd).signal .partEnd) rfl rfl rfl
          nofun nofun nofun
      | false =>
        rw [callback_eq succeeds]
        exact follows.signalled (Reports.nil.signal .bodyEnd) rfl rfl rfl nofun nofun nofun
    · exact ⟨rfl, rfl, rfl, rfl⟩
  | ended => exact follows.silent rfl rfl rfl nofun nofun nofun
  | error | headersDone | partDataBoundaryDash => exact ⟨rfl, rfl, rfl, rfl⟩

def MultipartParser.nameError (parser : MultipartParser) : Prop :=
  parser.state = .error ∧ parser.errorReason = some nameReason

def MultipartState.decides : MultipartState → Bool
  | .boundaryAlmostDone | .boundaryDone | .headerValueAlmostDone | .headersAlmostDone
  | .partDataEnd | .bodyEnd | .headersDone | .partDataBoundaryDash => true
  | _ => false

namespace MultipartParser

theorem valueByte_live : (parser.valueByte c).1.state ≠ .error := by
  unfold valueByte
  split_ifs <;> simp

theorem dataByte_live (before : List Tick) : (parser.dataByte c before).1.state ≠ .error := by
  unfold dataByte
  split_ifs <;> simp

variable {parser : MultipartParser}

theorem readByte_fails (live : parser.state ≠ .error)
    (fails : (parser.readByte c).1.state = .error) :
    parser.state = .headerField ∧ (c = 0x0d ∨ c = 0x0a) ∧ (parser.readByte c).1.nameError ∨
      parser.state.decides = true ∧ ¬(parser.readByte c).1.nameError := by
  cases state : parser.state with
  | error => exact absurd state live
  | headerField =>
    left
    simp only [readByte, state] at fails ⊢
    split at fails
    · cases fails
    · split at fails
      · rename_i notColon eol
        rw [if_neg notColon, if_pos eol]
        exact ⟨trivial, eol, rfl, rfl⟩
      · rw [state] at fails
        cases fails
  | headerValueStart => grind [readByte, valueByte_live]
  | headerValue =>
    simp only [readByte, state] at fails
    exact absurd fails valueByte_live
  | partData =>
    simp only [readByte, state] at fails
    exact absurd fails (dataByte_live _)
  | partDataCr | partDataLf | partDataBoundaryStart =>
    simp only [readByte, state] at fails
    split at fails
    · cases fails
    · exact absurd fails (dataByte_live _)
  | partDataBoundary =>
    simp only [readByte, state] at fails
    split at fails
    · exact absurd fails (dataByte_live _)
    · grind [matchHeld_state]
  | boundary => grind [readByte, matchBoundary_state]
  | ended =>
    simp only [readByte, state] at fails
    cases fails
  | headersDone | partDataBoundaryDash =>
    right
    simp [readByte, state, reject, decides, nameError, nameReason]
  | _ =>
    right
    simp only [readByte, state, reject, openPart, decides] at fails ⊢
    split_ifs at fails ⊢ <;> simp_all [nameError, nameReason]

theorem nameError_split (live : parser.state ≠ .error) (fails : (parser.readAll text).1.nameError) :
    ∃ used c rest, text = used ++ c :: rest ∧ (parser.readAll used).1.state = .headerField ∧
      (c = 0x0d ∨ c = 0x0a) := by
  induction text generalizing parser with
  | nil => exact absurd fails.1 live
  | cons c text ih =>
    rw [readAll_cons] at fails
    by_cases here : (parser.readByte c).1.state = .error
    · rw [readAll_stopped (.inr here)] at fails
      rcases readByte_fails live here with ⟨state, eol, _⟩ | ⟨_, other⟩
      · exact ⟨[], c, text, rfl, state, eol⟩
      · exact absurd fails other
    · obtain ⟨used, c', rest, split, state, eol⟩ := ih here fails
      exact ⟨c :: used, c', rest, congrArg (c :: ·) split, state, eol⟩

end MultipartParser

theorem Run.pending_decides (decides : run.parser.state.decides = true) : run.pending = [] := by
  unfold pending
  split <;> simp_all [MultipartState.decides]

/-- A run has told some ticks, but for bytes of a header name that are lost. -/
def Told (callbacks : Callbacks σ) (start : σ) (ticks : List Tick) (lost : Bytes) (data : σ) :
    Prop :=
  ∃ events before, Reports events before ∧ ticks = before ++ lost.map (.byte .headerField) ∧
    data = told callbacks start events

def Scans (callbacks : Callbacks σ) (opened : Prop) (start : σ) (ticks : List Tick)
    (read : MultipartParser × List Tick) : Step σ → Prop
  | .consumed next => next.parser = read.1 ∧ Follows callbacks opened start (ticks ++ read.2) next
  | .failed next => next.parser = read.1 ∧ read.1.state = .error ∧
      ∃ lost, Told callbacks start (ticks ++ read.2) lost next.data ∧
        (lost ≠ [] → read.1.nameError) ∧ (opened → read.1.nameError → lost ≠ [])

theorem Scans.prepend {read : MultipartParser × List Tick}
    (scans : Scans callbacks opened start (ticks ++ first) read step) :
    Scans callbacks opened start ticks (read.1, first ++ read.2) step := by
  cases step with
  | consumed next | failed next =>
    rw [Scans, append_assoc] at scans
    exact scans

theorem scanBytes_scans (succeeds : Succeeds callbacks) (text : Bytes)
    (follows : Follows callbacks opened start ticks run) :
    Scans callbacks opened start ticks (run.parser.readAll text) (scanBytes callbacks text run) := by
  induction text generalizing run ticks with
  | nil =>
    refine ⟨rfl, ?_⟩
    simp_all
  | cons c text ih =>
    have step := switchState_leads (c := c) succeeds follows
    rw [scanBytes, readAll_cons]
    cases after : switchState callbacks c run.setMark with
    | failed next =>
      rw [after] at step
      obtain ⟨same, error, data, silent⟩ := step
      rw [readAll_stopped (.inr error) text, silent]
      refine ⟨same, error, ?_⟩
      obtain ⟨events, before, reports, split, sofar⟩ := follows.reports
      rcases readByte_fails follows.live error with
        ⟨state, _, named⟩ | ⟨decides, other⟩
      · refine ⟨run.mark.text, ⟨events, before, reports, ?_, data.trans sofar⟩, fun _ => named,
          fun isOpen _ => follows.named isOpen state⟩
        grind [pending]
      · refine ⟨[], ⟨events, before, reports, ?_, data.trans sofar⟩, fun some => absurd rfl some,
          fun _ named => absurd named other⟩
        rw [split, pending_decides decides]
        simp
    | consumed next =>
      rw [after] at step
      obtain ⟨same, follows'⟩ := step
      grind [Scans.prepend]

theorem flushMark_told (succeeds : Succeeds callbacks)
    (follows : Follows callbacks opened start ticks run) :
    ∃ next, flushMark callbacks run = .consumed next ∧ next.parser = run.parser ∧
      Told callbacks start ticks [] next.data := by
  obtain ⟨events, before, reports, split, sofar⟩ := follows.reports
  have flushed : ∀ kind, run.pending = run.mark.text.map (.byte kind) →
      Told callbacks start ticks [] (told callbacks run.data (pieces kind run.mark.text)) := by
    intro kind pending
    refine ⟨_, _, reports.append (.pieces kind run.mark.text), ?_, ?_⟩
    · rw [split, pending]
      simp
    · rw [told_append, ← sofar]
  unfold flushMark
  split
  · grind [callbackData_eq, pending]
  · grind [callbackData_eq, pending]
  · grind [callbackData_eq, pending]
  · have quiet : run.pending = [] := by
      unfold pending
      split <;> simp_all
    refine ⟨run, rfl, rfl, events, before, reports, ?_, sofar⟩
    rw [split, quiet]
    rfl

theorem Follows.atStart (live : parser.state ≠ .error)
    (fresh : opened → parser.state ≠ .headerField) (data : σ) :
    Follows callbacks opened data [] { parser, mark := .null, data } where
  reports := ⟨[], [], .nil, by unfold pending; split <;> rfl, rfl⟩
  held _ := rfl
  here := nofun
  named isOpen state := absurd state (fresh isOpen)
  live := live

theorem execute_told (succeeds : Succeeds callbacks)
    (fresh : opened → parser.state ≠ .headerField ∧ parser.state ≠ .error) (text : Bytes)
    (data : σ) : (multipartParserExecute callbacks text parser data).2.1 = (parser.readAll text).1 ∧
      ∃ lost, Told callbacks data (parser.readAll text).2 lost
          (multipartParserExecute callbacks text parser data).2.2 ∧
        (lost ≠ [] → (parser.readAll text).1.nameError) ∧
        (opened → (parser.readAll text).1.nameError → lost ≠ []) := by
  unfold multipartParserExecute
  by_cases failed : parser.state = .error
  · rw [if_pos failed, readAll_stopped (.inr failed)]
    refine ⟨rfl, [], ⟨[], [], .nil, rfl, rfl⟩, fun some => absurd rfl some, ?_⟩
    grind
  · rw [if_neg failed]
    by_cases ended : parser.state = .ended
    · rw [if_pos ended, readAll_stopped (.inl ended)]
      refine ⟨rfl, [], ⟨[], [], .nil, rfl, rfl⟩, fun some => absurd rfl some, ?_⟩
      intro _ named
      exact absurd (ended.symm.trans named.1) (by decide)
    · rw [if_neg ended]
      have follows : Follows callbacks opened data [] { parser, mark := .null, data } :=
        Follows.atStart failed (fun isOpen => (fresh isOpen).1) data
      have scans := scanBytes_scans succeeds text follows
      unfold scanBuffer
      cases scanned : scanBytes callbacks text { parser, mark := .null, data } with
      | failed next =>
        rw [scanned] at scans
        obtain ⟨same, _, lost, spoken, named, isNamed⟩ := scans
        exact ⟨same, lost, spoken, named, isNamed⟩
      | consumed next =>
        rw [scanned] at scans
        obtain ⟨same, follows'⟩ := scans
        obtain ⟨last, flushed, same', spoken⟩ := flushMark_told succeeds follows'
        dsimp only
        rw [flushed]
        have live : (parser.readAll text).1.state ≠ .error := by
          rw [← same]
          exact follows'.live
        exact ⟨same'.trans same, [], spoken, fun some => absurd rfl some,
          fun _ named => absurd named.1 live⟩

theorem executeAll_cons (text : Bytes) (rest : List Bytes) (parser : MultipartParser) (data : σ) :
    executeAll callbacks (text :: rest) parser data =
      executeAll callbacks rest (multipartParserExecute callbacks text parser data).2.1
        (multipartParserExecute callbacks text parser data).2.2 := rfl

theorem executeAll_stopped (stopped : parser.state = .error) (chunks : List Bytes) (data : σ) :
    executeAll callbacks chunks parser data = (parser, data) := by
  induction chunks with
  | nil => rfl
  | cons text rest ih => grind [multipartParserExecute, executeAll_cons]

/-- Any number of calls read the whole text, and tell its ticks but for a header name that has no
colon. -/
theorem executeAll_told (succeeds : Succeeds callbacks) (chunks : List Bytes)
    (parser : MultipartParser) (data : σ) :
    (executeAll callbacks chunks parser data).1 = (parser.readAll chunks.flatten).1 ∧
      ∃ lost, Told callbacks data (parser.readAll chunks.flatten).2 lost
          (executeAll callbacks chunks parser data).2 ∧
        (lost ≠ [] → (parser.readAll chunks.flatten).1.nameError) := by
  induction chunks generalizing parser data with
  | nil => exact ⟨rfl, [], ⟨[], [], .nil, rfl, rfl⟩, fun some => absurd rfl some⟩
  | cons text rest ih =>
    have unopened : False → parser.state ≠ .headerField ∧ parser.state ≠ .error := False.elim
    obtain ⟨same, lost, first, named, _⟩ := execute_told succeeds unopened text data
    rw [executeAll_cons, flatten_cons, readAll_append, same]
    by_cases complete : lost = []
    · obtain ⟨same', lost', second, named'⟩ :=
        ih (parser.readAll text).1 (multipartParserExecute callbacks text parser data).2.2
      subst complete
      obtain ⟨events, before, reports, split, sofar⟩ := first
      obtain ⟨events', before', reports', split', sofar'⟩ := second
      refine ⟨same', lost', ⟨_, _, reports.append reports', ?_, ?_⟩, named'⟩
      · rw [split, split']
        simp
      · rw [told_append, ← sofar]
        exact sofar'
    · have stopped := (named complete).1
      grind [executeAll_stopped, readAll_stopped]

end

end TrueAsync.Formats

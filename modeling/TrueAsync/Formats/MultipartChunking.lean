import TrueAsync.Formats.MultipartReading

/-!
# Multipart parsing and the network

How a body is cut into buffers should not matter to what is parsed from it. It does not, but for
one kind of body: when a header line ends before its colon, the parser gives up without the
callback for the bytes of the name that came in the same buffer.
-/

namespace TrueAsync.Formats

open TrueAsync.Lib List MultipartParser

/-- What can be seen of a run: the callbacks, adjacent data of one kind taken together, the final
state, and whether there was an error. -/
def outcome (parser : MultipartParser) (chunks : List Bytes) : List Event × MultipartState × Bool :=
  let (parser, events) := executeAll record chunks parser []
  (coalesce events, parser.state, multipartParserHasError parser)

theorem record_succeeds : Succeeds record := fun _ _ => rfl

theorem told_record (events : List Event) : told record [] events = events := by
  have general : ∀ log, told record log events = log ++ events := by
    induction events with
    | nil => exact fun log => (append_nil log).symm
    | cons event events ih =>
      intro log
      exact (ih (log ++ [event])).trans (append_cons log event events).symm
  exact general []

variable {other one : List Event} {ticks : List Tick}

theorem coalesce_told_iff
    (first : Told record [] ticks [] one) (second : Told record [] ticks lost other) :
    coalesce one = coalesce other ↔ lost = [] := by
  obtain ⟨events, before, reports, split, rfl⟩ := first
  obtain ⟨events', before', reports', split', rfl⟩ := second
  rw [map_nil, append_nil] at split
  subst split
  rw [told_record, told_record, coalesce_eq_iff reports.nonempty reports'.nonempty,
    reports.expand_eq, reports'.expand_eq, split', flatMap_append, append_right_eq_self]
  cases lost with
  | nil => exact iff_of_true rfl rfl
  | cons b lost => exact iff_of_false nofun nofun

variable {parser : MultipartParser} {text : Bytes}

theorem outcome_eq (named : ¬(parser.readAll text).1.nameError) {chunks : List Bytes}
    (whole : chunks.flatten = text) :
    Told record [] (parser.readAll text).2 [] (executeAll record chunks parser []).2 ∧
      (executeAll record chunks parser []).1 = (parser.readAll text).1 := by
  grind [executeAll_told, record_succeeds]

theorem outcome_ne (live : parser.state = .start) (named : (parser.readAll text).1.nameError) :
    ∃ one other : List Bytes, one.flatten = text ∧ other.flatten = text ∧
      coalesce (executeAll record one parser []).2 ≠
        coalesce (executeAll record other parser []).2 := by
  have notError : parser.state ≠ .error := by rw [live]; simp
  obtain ⟨used, c, rest, rfl, state, eol⟩ := nameError_split notError named
  refine ⟨[used, c :: rest], [used ++ c :: rest], by simp, by simp, ?_⟩
  have fresh : True → parser.state ≠ .headerField ∧ parser.state ≠ .error := by
    rw [live]
    exact fun _ => by simp
  -- The whole text in one buffer.
  obtain ⟨_, lost, spoken, _, isLost⟩ :=
    execute_told record_succeeds fresh (used ++ c :: rest) ([] : List Event)
  -- The text up to the end of the line.
  obtain ⟨same, lost', spoken', isNamed, _⟩ :=
    execute_told record_succeeds fresh used ([] : List Event)
  have nothing : lost' = [] := by
    by_contra some
    exact absurd (state.symm.trans (isNamed some).1) (by decide)
  subst nothing
  have notColon : c ≠ 0x3a := by
    rcases eol with rfl | rfl <;> decide
  have refused : (parser.readAll used).1.readByte c = (parser.readAll used).1.reject nameReason := by
    grind [readByte]
  -- The line end itself: nothing is told, and the rest is not looked at.
  have stopped : ((parser.readAll used).1.reject nameReason).1.state = .error := rfl
  have quiet : multipartParserExecute record (c :: rest) (parser.readAll used).1 =
      fun log => (-1, ((parser.readAll used).1.reject nameReason).1, log) := by
    funext log
    have marked : (⟨(parser.readAll used).1, .null, log⟩ : Run (List Event)).setMark =
        ⟨(parser.readAll used).1, .since [], log⟩ := Run.setMark_eq (by simp) (.inl state)
    have step : switchState record c
        (⟨(parser.readAll used).1, .since [], log⟩ : Run (List Event)) =
        Run.fail ⟨(parser.readAll used).1, .since [], log⟩ nameReason := by
      simp only [switchState, state, notColon, eol, if_true, if_false]
      rfl
    rw [multipartParserExecute, if_neg (by rw [state]; simp), if_neg (by rw [state]; simp)]
    simp only [scanBuffer, scanBytes, marked, step, Run.fail]
    rfl
  have ticks : (parser.readAll (used ++ c :: rest)).2 = (parser.readAll used).2 := by
    rw [readAll_append, readAll_cons, refused, readAll_stopped (.inr stopped)]
    exact append_nil _
  have split : (executeAll record [used, c :: rest] parser []).2 =
      (multipartParserExecute record used parser []).2.2 := by
    rw [executeAll_cons, same, executeAll_cons, quiet]
    rfl
  grind [executeAll, coalesce_told_iff]

theorem init_some {boundary : Bytes} (created : multipartParserInit boundary = some parser) :
    parser = { boundary := parser.boundary } ∧ parser.boundary ≠ [] := by
  grind [multipartParserInit]

/-- Parsing does not depend on how the body is cut into buffers, exactly if no header line of it
ends before its colon. -/
theorem chunking_independent_iff {boundary : Bytes}
    (created : multipartParserInit boundary = some parser) (text : Bytes) :
    (∀ one other : List Bytes, one.flatten = text → other.flatten = text →
      outcome parser one = outcome parser other) ↔
    (decode parser.boundary text).broken = false := by
  obtain ⟨fresh, nonempty⟩ := init_some created
  have named := (readAll_decode nonempty text).2
  rw [← fresh] at named
  constructor
  · intro same
    by_contra broken
    rw [Bool.not_eq_false] at broken
    obtain ⟨one, other, whole, whole', differ⟩ :=
      outcome_ne (by rw [fresh]) (named.mpr broken)
    exact differ (congrArg Prod.fst (same one other whole whole'))
  · intro unbroken one other whole whole'
    have unnamed : ¬(parser.readAll text).1.nameError := by
      rw [named, unbroken]
      nofun
    obtain ⟨told, state⟩ := outcome_eq unnamed whole
    obtain ⟨told', state'⟩ := outcome_eq unnamed whole'
    unfold outcome
    dsimp only
    rw [(coalesce_told_iff told told').mpr rfl, state, state']

/-- A form, cut within its closing boundary. -/
theorem chunking_independent_form :
    multipartParserInit (ascii "B") = some { boundary := ascii "B" } ∧
      outcome { boundary := ascii "B" } [ascii "--B\r\nA: b\r\n\r\nx\r", ascii "\n--B--"] =
        outcome { boundary := ascii "B" } [ascii "--B\r\nA: b\r\n\r\nx\r\n--B--"] := by
  have created : multipartParserInit (ascii "B") = some { boundary := ascii "B" } := by decide
  have unbroken : (decode (ascii "B") (ascii "--B\r\nA: b\r\n\r\nx\r\n--B--")).broken = false := by
    decide +kernel
  exact ⟨created, (chunking_independent_iff created _).mpr unbroken _ _ (by decide) (by decide)⟩

/-- A header line that ends before its colon: in one buffer its name is lost, in two it is not. -/
theorem broken_name_depends_on_chunking :
    outcome { boundary := ascii "B" } [ascii "--B\r\nabc\r"] ≠
      outcome { boundary := ascii "B" } [ascii "--B\r\nabc", ascii "\r"] := by
  decide

end TrueAsync.Formats

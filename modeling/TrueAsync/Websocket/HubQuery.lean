import Mathlib.Data.UInt
import TrueAsync.Lib.History
import TrueAsync.Websocket.HubAccounting

/-!
# Counting subscribers across workers

`topic_hub_count` scatters a question and gathers the answers in a `ws_query_t`. `Asked` ties the
counters of a query to the history: `pending` is the number of questions without an answer,
`total` is the local count and the answers so far, and the event of the waiting call has fired
exactly when the last question is answered. A query that was given up has nothing of this any
more, and an answer that arrives then only drops its reference.
-/

namespace TrueAsync.Websocket

open TrueAsync.Lib List Heap HubInv HubTrace CellChange

variable {st st' : HubState}

/-! ## Views of the trace -/

def HubTrace.askOf (q : QueryPtr) : HubTrace → Option UInt32
  | .asked q' count => if q' = q then some count else none
  | _ => none

def HubTrace.answerOf (q : QueryPtr) : HubTrace → Option UInt32
  | .answered q' count => if q' = q then some count else none
  | _ => none

def questionWeight (q : QueryPtr) : HubTrace → Nat
  | .questioned q' => if q' = q then 1 else 0
  | _ => 0

def fireWeight (c : CallId) : HubTrace → Nat
  | .fired c' => if c' = c then 1 else 0
  | _ => 0

def asksOf (q : QueryPtr) (trace : List HubTrace) : List UInt32 := trace.filterMap (askOf q)

def answersOf (q : QueryPtr) (trace : List HubTrace) : List UInt32 := trace.filterMap (answerOf q)

def questionsOf (q : QueryPtr) (trace : List HubTrace) : Nat := tally (questionWeight q) trace

def firesOf (c : CallId) (trace : List HubTrace) : Nat := tally (fireWeight c) trace

section

variable (xs ys : List HubTrace)

@[simp] theorem asksOf_append : asksOf q (xs ++ ys) = asksOf q xs ++ asksOf q ys := filterMap_append

@[simp] theorem answersOf_append :
    answersOf q (xs ++ ys) = answersOf q xs ++ answersOf q ys := filterMap_append

@[simp] theorem questionsOf_append :
    questionsOf q (xs ++ ys) = questionsOf q xs + questionsOf q ys := tally_append _ _ _

@[simp] theorem firesOf_append :
    firesOf c (xs ++ ys) = firesOf c xs + firesOf c ys := tally_append _ _ _

end

/-- What has to be true when an event about a query happens: the result is the local count and
the answers so far, and no answer is settled after it. -/
def AskOk (past : List HubTrace) : HubTrace → Prop
  | .counted q total => ∃ count, asksOf q past = [count] ∧ total = count + (answersOf q past).sum
  | .answered q _ => ∀ total, .counted q total ∉ past
  | _ => True

/-- The query that an event is about. -/
def HubTrace.about : HubTrace → Option QueryPtr
  | .asked q _ | .questioned q | .answered q _ | .counted q _ => some q
  | _ => none

/-! ## The invariant -/

/-- A query whose call still waits. -/
structure QueryOpen (trace : List HubTrace) (q : QueryPtr) (x : WsQuery) : Prop where
  pending : x.pending + (answersOf q trace).length = questionsOf q trace
  total : ∃ count, asksOf q trace = [count] ∧ x.total = count + (answersOf q trace).sum
  fired : ∀ {c}, x.done = some c →
    firesOf c trace = if 0 < questionsOf q trace ∧ x.pending = 0 then 1 else 0

/-- The queries and the history agree. -/
structure Asked (st : HubState) : Prop where
  waiting : ∀ {q x}, st.queries.cell q = some x → x.abandoned = false → QueryOpen st.trace q x
  returned : ∀ {q x total}, .counted q total ∈ st.trace → st.queries.cell q = some x →
    x.abandoned = true
  caller : ∀ {c q x}, st.calls.cell c = some (.counting q) → st.queries.cell q = some x →
    x.abandoned = false ∧ x.done = some c
  history : Along AskOk st.trace
  bound : ∀ {event q}, event ∈ st.trace → event.about = some q → q < st.queries.next
  firesBound : ∀ {c}, st.calls.next ≤ c → firesOf c st.trace = 0

/-! ## Events that a query does not see -/

/-- An event that says nothing about the query `q`. -/
structure Foreign (calls : Heap HubCall) (q : QueryPtr) (event : HubTrace) : Prop where
  apart : event.about ≠ some q
  fire : ∀ c, event = .fired c → calls.cell c ≠ some (.counting q)

variable {event : HubTrace}

theorem Foreign.of_silent (silent : event.isAsk = false) : Foreign calls q event := by
  refine ⟨?_, ?_⟩
  · cases event <;> simp_all [isAsk, about]
  · rintro c rfl
    cases silent

variable {q : QueryPtr} {c : CallId} {calls : Heap HubCall}

/-- Who is woken waits for something else than `q`. -/
theorem Foreign.of_fired (other : calls.cell c ≠ some (.counting q)) :
    Foreign calls q (.fired c) := by
  refine ⟨nofun, ?_⟩
  intro c' same
  cases same
  exact other

variable {past : List HubTrace}

theorem AskOk.of_foreign (foreign : ∀ q, Foreign calls q event) : AskOk past event := by
  cases event with
  | counted q | answered q => exact absurd rfl (foreign q).apart
  | _ => trivial

theorem HubTrace.unseen (apart : event.about ≠ some q) :
    event.askOf q = none ∧ event.answerOf q = none ∧ questionWeight q event = 0 := by
  cases event <;> simp_all [about, askOf, answerOf, questionWeight]

section Foreign

variable {calls : Heap HubCall} {q : QueryPtr} (trace : List HubTrace) {extra : List HubTrace}

section

variable (apart : ∀ event ∈ extra, event.about ≠ some q)
include apart

theorem asksOf_apart : asksOf q (trace ++ extra) = asksOf q trace :=
  filterMap_append_unseen fun event member => (unseen (apart event member)).1

theorem answersOf_apart : answersOf q (trace ++ extra) = answersOf q trace :=
  filterMap_append_unseen fun event member => (unseen (apart event member)).2.1

theorem questionsOf_apart : questionsOf q (trace ++ extra) = questionsOf q trace := by
  have none : questionsOf q extra = 0 :=
    tally_eq_zero fun event member => (unseen (apart event member)).2.2
  rw [questionsOf_append, none]
  rfl

end

variable (unseen : ∀ event ∈ extra, Foreign calls q event)
include unseen

theorem firesOf_foreign (waits : calls.cell c = some (.counting q)) :
    firesOf c (trace ++ extra) = firesOf c trace := by
  have none : firesOf c extra = 0 := by
    apply tally_eq_zero
    intro event member
    cases event with
    | fired c' =>
      have other : c' ≠ c := by
        rintro rfl
        exact (unseen _ member).fire c' rfl waits
      simp [fireWeight, other]
    | _ => rfl
  rw [firesOf_append, none]
  rfl

theorem QueryOpen.foreign (here : QueryOpen trace q x)
    (same : y = { x with refcount := y.refcount })
    (waits : ∀ c, x.done = some c → calls.cell c = some (.counting q)) :
    QueryOpen (trace ++ extra) q y := by
  have apart : ∀ event ∈ extra, event.about ≠ some q := fun event member =>
    (unseen event member).apart
  rw [same]
  constructor
  · rw [answersOf_apart trace apart, questionsOf_apart trace apart]
    exact here.pending
  · rw [asksOf_apart trace apart, answersOf_apart trace apart]
    exact here.total
  · intro c done
    rw [firesOf_foreign trace unseen (waits c done), questionsOf_apart trace apart]
    exact here.fired done

end Foreign

/-! ## Steps -/

/-- A step that adds `extra` to the trace and concerns the queries in `touched` only. The others
change in their reference count at most. -/
structure Touches (touched : QueryPtr → Prop) (extra : List HubTrace) (st st' : HubState) :
    Prop where
  trace : st'.trace = st.trace ++ extra
  foreign : ∀ q, ¬ touched q → ∀ event ∈ extra, Foreign st.calls q event
  fires : ∀ c, .fired c ∈ extra → st.calls.Live c
  queries : ∀ {q y}, ¬ touched q → st'.queries.cell q = some y →
    ∃ x, st.queries.cell q = some x ∧ y = { x with refcount := y.refcount }
  calls : ∀ {c q}, ¬ touched q → st'.calls.cell c = some (.counting q) →
    st.calls.cell c = some (.counting q)
  queryNext : st.queries.next ≤ st'.queries.next
  callNext : st.calls.next ≤ st'.calls.next
  known : ∀ q, touched q → q < st'.queries.next

/-- What a step owes to the queries it touches. -/
structure Settles (touched : QueryPtr → Prop) (st' : HubState) : Prop where
  waiting : ∀ {q y}, touched q → st'.queries.cell q = some y → y.abandoned = false →
    QueryOpen st'.trace q y
  returned : ∀ {q y total}, touched q → .counted q total ∈ st'.trace →
    st'.queries.cell q = some y → y.abandoned = true
  caller : ∀ {c q y}, touched q → st'.calls.cell c = some (.counting q) →
    st'.queries.cell q = some y → y.abandoned = false ∧ y.done = some c
  history : Along AskOk st'.trace

theorem Asked.step (inv : HubOk st) (asked : Asked st) {touched : QueryPtr → Prop}
    (touches : Touches touched extra st st') (settles : Settles touched st') : Asked st' := by
  obtain ⟨trace, foreign, fires, queries, calls, queryNext, callNext, known⟩ := touches
  constructor
  · intro q y hy waits
    by_cases here : touched q
    · exact settles.waiting here hy waits
    · obtain ⟨x, hx, same⟩ := queries here hy
      have waiting : x.abandoned = false := by
        rw [same] at waits
        exact waits
      obtain ⟨c, done, counting⟩ := (call inv).done hx waiting
      rw [trace]
      refine (asked.waiting hx waiting).foreign _ (foreign q here) same ?_
      grind
  · intro q y total member hy
    by_cases here : touched q
    · exact settles.returned here member hy
    · obtain ⟨x, hx, same⟩ := queries here hy
      rw [trace] at member
      rw [same]
      show x.abandoned = true
      have old := (mem_append.mp member).resolve_right fun new => (foreign q here _ new).apart rfl
      exact asked.returned old hx
  · grind [Settles.caller, Asked.caller]
  · exact settles.history
  · intro event q member here
    rw [trace] at member
    rcases mem_append.mp member with old | new
    · exact (asked.bound old here).trans_le queryNext
    · exact known q (by_contra fun other => (foreign q other event new).apart here)
  · intro c beyond
    have old := asked.firesBound (callNext.trans beyond)
    have new : firesOf c extra = 0 := by
      apply tally_eq_zero
      intro event member
      cases event with
      | fired c' =>
        obtain ⟨call, hc⟩ := live_iff.mp (fires c' member)
        have below := (lt_next hc).trans_le (callNext.trans beyond)
        simp [fireWeight, Nat.ne_of_lt below]
      | _ => rfl
    rw [trace, firesOf_append, old, new]

/-! ## Events that leave the counting alone -/

/-- Queries change in their reference counts only, and no sender but a parked one is woken. -/
structure Untold (st st' : HubState) : Prop where
  queries : ∀ {q y}, st'.queries.cell q = some y →
    ∃ x, st.queries.cell q = some x ∧ y = { x with refcount := y.refcount }
  queryNext : st.queries.next ≤ st'.queries.next
  calls : ∀ {c q}, st'.calls.cell c = some (.counting q) → st.calls.cell c = some (.counting q)
  callNext : st.calls.next ≤ st'.calls.next
  logs : Logs (fun event => event.isAsk = false ∨
    ∃ c e posted, event = .fired c ∧ st.calls.cell c = some (.parked e posted)) st st'

theorem Asked.untold (inv : HubOk st) (asked : Asked st) (untold : Untold st st') : Asked st' := by
  obtain ⟨queries, queryNext, calls, callNext, extra, trace, kinds⟩ := untold
  have foreign : ∀ q, ∀ event ∈ extra, Foreign st.calls q event := by
    intro q event member
    rcases kinds event member with silent | ⟨c, e, posted, rfl, parked⟩
    · exact Foreign.of_silent silent
    · apply Foreign.of_fired
      rw [parked]
      nofun
  have touches : Touches (fun _ => False) extra st st' := by
    refine ⟨trace, fun q _ => foreign q, ?_, fun _ => queries, fun _ => calls, queryNext, callNext,
      nofun⟩
    intro c member
    rcases kinds _ member with silent | ⟨c', e, posted, same, parked⟩
    · cases silent
    · cases same
      exact live_iff.mpr ⟨_, parked⟩
  refine asked.step inv touches ⟨nofun, nofun, nofun, ?_⟩
  rw [trace]
  apply asked.history.append
  intro past event member
  exact AskOk.of_foreign fun q => foreign q event member

/-- The trace of `st'` goes on from that of `st` and says nothing about counting. -/
abbrev Mute (st st' : HubState) : Prop := Logs (fun event => event.isAsk = false) st st'

theorem Untold.of_calls (queries : st'.queries = st.queries)
    (calls : ∀ {c q}, st'.calls.cell c = some (.counting q) → st.calls.cell c = some (.counting q))
    (callNext : st.calls.next ≤ st'.calls.next)
    (logs : Mute st st') : Untold st st' where
  queries := by
    grind
  queryNext := by rw [queries]
  calls := calls
  callNext := callNext
  logs := logs.weaken fun _ => .inl

theorem Untold.of_eq (queries : st'.queries = st.queries) (calls : st'.calls = st.calls)
    (logs : Mute st st') : Untold st st' := by
  grind [Untold.of_calls]

theorem Untold.of_free (queries : st'.queries = st.queries) (calls : st'.calls = st.calls.free c)
    (logs : Mute st st') : Untold st st' := by
  refine .of_calls queries ?_ ?_ logs
  · intro d q hd
    rw [calls] at hd
    exact (free_cell_eq_some.mp hd).2
  · rw [calls]
    exact le_rfl

theorem counting_of_alloc {call : HubCall} (other : call.query = none)
    (hc : (calls.alloc call).cell c = some (.counting q)) : calls.cell c = some (.counting q) := by
  rcases alloc_cell_eq_some.mp hc with ⟨_, same⟩ | old
  · rw [← same] at other
    cases other
  · exact old

theorem isAsk_of_isPost (event : HubTrace) (post : event.isPost = true) : event.isAsk = false := by
  cases event <;> first | rfl | cases post

theorem isAsk_of_isResult (event : HubTrace) (result : event.isResult = true) :
    event.isAsk = false := by
  cases event <;> first | rfl | cases result

/-! ## The drainer and the teardown -/

/-- Only senders that wait for an entry are woken, and the counting is as it was. -/
structure Wakes (st st' : HubState) : Prop where
  queries : st'.queries = st.queries
  calls : st'.calls = st.calls
  waiters : ∀ {e y c}, st'.entries.cell e = some y → y.waiter = some c →
    ∃ x, st.entries.cell e = some x ∧ x.waiter = some c
  logs : Logs (fun event => event.isAsk = false ∨
    ∃ c e x, event = .fired c ∧ st.entries.cell e = some x ∧ x.waiter = some c) st st'

theorem Wakes.of_entries (queries : st'.queries = st.queries) (calls : st'.calls = st.calls)
    (entries : st'.entries = st.entries)
    (logs : Mute st st') : Wakes st st' where
  queries := queries
  calls := calls
  waiters := by
    grind
  logs := logs.weaken fun _ => .inl

theorem waiters_of_change {h h' : Heap RetryEntry} (changed : CellChange h h' e change)
    (kept : ∀ x y, change x y → y.waiter = x.waiter ∨ y.waiter = none) :
    ∀ {d y c}, h'.cell d = some y → y.waiter = some c →
      ∃ x, h.cell d = some x ∧ x.waiter = some c := by
  intro d y c hy waits
  by_cases here : d = e
  · subst here
    obtain ⟨x, hx, became⟩ := changed.here y hy
    grind
  · grind [others]

theorem Wakes.of_change (queries : st'.queries = st.queries) (calls : st'.calls = st.calls)
    (changed : CellChange st.entries st'.entries e fun x y => y.waiter = x.waiter)
    (logs : Mute st st') : Wakes st st' where
  queries := queries
  calls := calls
  waiters := waiters_of_change changed fun _ _ => .inl
  logs := logs.weaken fun _ => .inl

theorem Wakes.refl (st : HubState) : Wakes st st := .of_entries rfl rfl rfl (.refl _ _)

theorem Wakes.trans {a b c : HubState} (first : Wakes a b) (second : Wakes b c) : Wakes a c where
  queries := second.queries.trans first.queries
  calls := second.calls.trans first.calls
  waiters := by
    grind [Wakes.waiters]
  logs := by
    refine first.logs.trans (second.logs.weaken ?_)
    grind [Wakes.waiters]

theorem Wakes.untold (inv : HubOk st) (wakes : Wakes st st') : Untold st st' where
  queries := by
    grind [Wakes.queries]
  queryNext := by rw [wakes.queries]
  calls := by
    intro c q hc
    rw [wakes.calls] at hc
    exact hc
  callNext := by rw [wakes.calls]
  logs := by
    apply wakes.logs.weaken
    intro event kind
    rcases kind with silent | ⟨c, e, x, same, hx, waits⟩
    · exact .inl silent
    · obtain ⟨posted, parked⟩ := (call inv).waiter hx waits
      exact .inr ⟨c, e, posted, same, parked⟩

theorem retryEntryFinish_wakes (e : EntryPtr) : Ensures (retryEntryFinish st e) (Wakes st) := by
  refine .mono (retryEntryFinish_frame st e) ?_
  rintro st' ⟨frame, _, logs, changed⟩
  refine ⟨?_, ?_, waiters_of_change changed fun _ _ became => became.2, logs.weaken ?_⟩
  · rw [frame]
  · rw [frame]
  · rintro _ ⟨c, x, rfl, found, waits⟩
    exact .inr ⟨c, e, x, rfl, found, waits⟩

variable (room : EntryPtr → SlotId → Bool)

theorem logs_settled (e : EntryPtr) (targets : List RetryTarget)
    (outcome : RetryOutcome) (h : st'.trace = st.trace ++ targets.map (.settled e · outcome)) :
    Mute st st' := by
  refine ⟨_, h, ?_⟩
  intro event member
  obtain ⟨t, _, rfl⟩ := mem_map.mp member
  rfl

theorem retryEntryPass_wakes (now : Nat) (l : LocalPtr)
    (acc : HubState × RetryDrain) (e : EntryPtr) :
    Ensures (retryEntryPass room now l acc e) fun r => Wakes acc.1 r.1 := by
  obtain ⟨st, drain⟩ := acc
  refine .bind (.read _ _ _) ?_
  intro x _
  refine .bind (retryPass_effect room e x.pending _) ?_
  rintro ⟨st1, pass⟩ ⟨_, effect⟩
  have narrowed : Wakes st
      { st1 with entries := st1.entries.modify e ({ · with pending := pass.keep }) } := by
    obtain ⟨g, kept, same⟩ := effect.entries
    refine .of_change (e := e) effect.queries effect.calls ?_ effect.logs
    show CellChange st.entries (st1.entries.modify e _) e _
    rw [same, modify_modify]
    exact .modify _ _ fun x => (kept x).2
  dsimp only
  split
  · apply Ensures.pure
    apply narrowed.trans
    exact Wakes.of_entries rfl rfl rfl (logs_settled e pass.keep .expired rfl)
  · exact .pure narrowed

theorem topicHubRetryDrain_wakes (now : Nat) (st : HubState) (l : LocalPtr) (loc : WsLocal) :
    Ensures (topicHubRetryDrain room now st l loc) (Wakes st) := by
  have passes : Ensures (loc.retryQueue.foldlM (retryEntryPass room now l) (st, ⟨[], 0, 0, 0⟩))
      fun r => Wakes st r.1 := by
    apply Ensures.foldlM
    · intro acc e _ wakes
      exact .mono (retryEntryPass_wakes room now l acc e) fun _ more => wakes.trans more
    · exact Wakes.refl st
  refine .bind passes ?_
  rintro ⟨st1, drain⟩ wakes1
  have finishes : Ensures (drain.resolved.foldlM retryEntryFinish st1) (Wakes st1) := by
    apply Ensures.foldlM
    · intro st2 e _ wakes
      exact .mono (retryEntryFinish_wakes e) fun _ more => wakes.trans more
    · exact Wakes.refl st1
  grind [Ensures.bind, Ensures.pure, Wakes.trans, Wakes.of_entries, Logs.of_eq]

theorem retryTeardownEntry_wakes (acc : HubState × Nat) (e : EntryPtr) :
    Ensures (retryTeardownEntry acc e) fun r => Wakes acc.1 r.1 := by
  obtain ⟨st, lost⟩ := acc
  refine .bind (.read _ _ _) ?_
  intro x _
  refine .bind (retryEntryFinish_wakes e) ?_
  intro st1 wakes
  apply Ensures.pure
  refine Wakes.trans ?_ wakes
  exact Wakes.of_change rfl rfl (.modify _ _ fun _ => rfl)
    (logs_settled e x.pending .shutdown rfl)

theorem topicHubRetryTeardown_wakes (st : HubState) (l : LocalPtr) (loc : WsLocal) :
    Ensures (topicHubRetryTeardown st l loc) (Wakes st) := by
  have entries : ∀ before : HubState, Ensures
      (loc.retryQueue.foldlM retryTeardownEntry (before, 0)) fun r => Wakes before r.1 := by
    intro before
    apply Ensures.foldlM
    · intro acc e _ wakes
      exact .mono (retryTeardownEntry_wakes acc e) fun _ more => wakes.trans more
    · exact Wakes.refl before
  refine .bind (entries _) ?_
  rintro ⟨st1, lost⟩ wakes
  apply Ensures.pure
  exact { wakes with }

/-! ## Questions, answers and results -/

/-- What an answer to a query with `pending` open questions leaves in the trace; `c` waits. -/
def answerEvents (q : QueryPtr) (answered : UInt32) (pending : Nat) (c : CallId) : List HubTrace :=
  .answered q answered :: if pending = 1 then [.fired c] else []

variable {answered : UInt32}

theorem mem_answerEvents (member : event ∈ answerEvents q answered pending c) :
    event = .answered q answered ∨ event = .fired c := by
  grind [answerEvents]

variable {x : WsQuery}

theorem QuerySettled.trace (settled : QuerySettled st q answered x st') (done : x.done = some c) :
    st'.trace = st.trace ++ answerEvents q answered x.pending c := by
  grind [answerEvents, QuerySettled.last, QuerySettled.more]

theorem QueryOpen.answer (here : QueryOpen trace q x) (answered : UInt32) (refcount : Nat)
    (open_ : 0 < x.pending) (done : x.done = some c) :
    QueryOpen (trace ++ answerEvents q answered x.pending c) q { x with
      refcount := refcount, total := x.total + answered, pending := x.pending - 1 } := by
  have answers : answersOf q (answerEvents q answered x.pending c) = [answered] := by
    unfold answerEvents
    split <;> simp [answersOf, answerOf]
  have asks : asksOf q (answerEvents q answered x.pending c) = [] := by
    unfold answerEvents
    split <;> rfl
  have questions : questionsOf q (answerEvents q answered x.pending c) = 0 := by
    unfold answerEvents
    split <;> rfl
  have fires : firesOf c (answerEvents q answered x.pending c) =
      if x.pending = 1 then 1 else 0 := by
    unfold answerEvents
    split <;> simp [firesOf, tally, fireWeight]
  have pending := here.pending
  obtain ⟨count, asked, total⟩ := here.total
  constructor
  · grind [questionsOf_append, answersOf]
  · refine ⟨count, ?_, ?_⟩
    · rw [asksOf_append, asks, append_nil, asked]
    · rw [answersOf_append, answers, sum_append, sum_singleton, total, UInt32.add_assoc]
  · grind [QueryOpen.fired, firesOf_append, questionsOf_append]

theorem Asked.settle (inv : HubOk st) (asked : Asked st) (only : CountOnly st st')
    (settled : QuerySettled st q answered x st') : Asked st' := by
  have found := settled.found
  obtain ⟨c, done, counting⟩ := (call inv).done found settled.waiting
  have trace := settled.trace done
  have calls : st'.calls = st.calls := by rw [only.frame]
  have next := settled.change.next
  have became : ∀ {y}, st'.queries.cell q = some y → y = { x with
      refcount := y.refcount, total := x.total + answered, pending := x.pending - 1 } := by
    intro y hy
    obtain ⟨x', hx', became⟩ := settled.change.here y hy
    cases found.symm.trans hx'
    exact became
  have unreturned : ∀ total, .counted q total ∉ st.trace := by
    grind [Asked.returned, QuerySettled.waiting]
  have touches : Touches (· = q) (answerEvents q answered x.pending c) st st' := by
    refine ⟨trace, ?_, ?_, ?_, ?_, next.symm.le, ?_, ?_⟩
    · intro r other event member
      rcases mem_answerEvents member with rfl | rfl
      · exact ⟨by simp [about, Ne.symm other], nofun⟩
      · grind [Foreign.of_fired]
    · intro c' member
      rcases mem_answerEvents member with same | same
      · cases same
      · cases same
        exact live_iff.mpr ⟨_, counting⟩
    · intro r y other hy
      rw [settled.change.others r other] at hy
      exact ⟨y, hy, rfl⟩
    · grind
    · rw [calls]
    · intro r same
      rw [same, next]
      exact lt_next found
  refine asked.step inv touches ⟨?_, ?_, ?_, ?_⟩
  · intro r y same hy _
    subst same
    rw [became hy, trace]
    exact (asked.waiting found settled.waiting).answer answered _ settled.pending done
  · intro r y total same member hy
    subst same
    rw [trace] at member
    rcases mem_append.mp member with old | new
    · exact absurd old (unreturned total)
    · rcases mem_answerEvents new with wrong | wrong <;> cases wrong
  · intro c' r y same hc hy
    subst same
    rw [became hy]
    rw [calls] at hc
    show x.abandoned = false ∧ x.done = some c'
    exact asked.caller hc found
  · rw [trace]
    have first : Along AskOk (st.trace ++ [.answered q answered]) := asked.history.snoc unreturned
    unfold answerEvents
    split
    · rw [append_cons]
      exact first.snoc trivial
    · exact first

theorem HubInv.counting_live (inv : HubOk st) (hc : st.calls.cell c = some (.counting q)) :
    st.queries.Live q := by
  have held : (some q).toList.count q ≤ st.calls.total (·.query.toList.count q) :=
    le_total hc (·.query.toList.count q)
  rw [count_toList_self] at held
  apply ((query inv).live_iff_pos q).mpr
  simp only [queryHolders]
  omega

/-- What a new query with `k` questions leaves in the trace. -/
def askEvents (q : QueryPtr) (matches_ : UInt32) (k : Nat) : List HubTrace :=
  .asked q matches_ :: replicate k (.questioned q)

variable {matches_ : UInt32} {k : Nat}

theorem mem_askEvents (member : event ∈ askEvents q matches_ k) :
    event = .asked q matches_ ∨ event = .questioned q := by
  rcases mem_cons.mp member with first | later
  · exact .inl first
  · exact .inr (eq_of_mem_replicate later)

theorem QueryOpen.ask (asked : Asked st) (fresh : st.queries.next ≤ q) (pending : x.pending = k)
    (done : x.done = some c) (new : st.calls.next ≤ c) :
    QueryOpen (st.trace ++ askEvents q x.total k) q x := by
  have answers : answersOf q (askEvents q x.total k) = [] := by
    apply filterMap_eq_nil_iff.mpr
    intro event member
    rcases mem_askEvents member with rfl | rfl <;> rfl
  have asks : asksOf q (askEvents q x.total k) = [x.total] := by
    have silent : asksOf q (replicate k (.questioned q)) = [] := by
      apply filterMap_eq_nil_iff.mpr
      intro event member
      rw [eq_of_mem_replicate member]
      rfl
    grind [asksOf, askEvents, askOf]
  have questions : questionsOf q (askEvents q x.total k) = k := by
    simp [questionsOf, askEvents, tally, questionWeight]
  have fires : firesOf c (askEvents q x.total k) = 0 := by
    apply tally_eq_zero
    intro event member
    rcases mem_askEvents member with rfl | rfl <;> rfl
  have apart : ∀ event ∈ st.trace, event.about ≠ some q := fun event member here =>
    not_lt.mpr fresh (asked.bound member here)
  have noAsks : asksOf q st.trace = [] := asksOf_apart [] apart
  have noAnswers : answersOf q st.trace = [] := answersOf_apart [] apart
  have noQuestions : questionsOf q st.trace = 0 := questionsOf_apart [] apart
  constructor
  · simp [answers, questions, noAnswers, noQuestions, pending]
  · exact ⟨x.total, by simp [asks, noAsks], by simp [answers, noAnswers]⟩
  · grind [firesOf_append, questionsOf_append, Asked.firesBound]

section

variable (inv : HubOk st) (asked : Asked st)
include inv asked

theorem Asked.ask {slot : SlotId} (asks : Asks (HubState.log { st with
      queries := st.queries.alloc ⟨1, slot, gen, 0, matches_, false, some st.calls.next⟩
      calls := st.calls.alloc (.counting st.queries.next) }
      (.asked st.queries.next matches_)) st.queries.next k st') : Asked st' := by
  have calls : st'.calls = st.calls.alloc (.counting st.queries.next) := by
    rw [asks.only.frame]
    rfl
  have trace : st'.trace = st.trace ++ askEvents st.queries.next matches_ k := by
    rw [asks.trace]
    show (st.trace ++ [_]) ++ _ = _
    rw [append_assoc]
    rfl
  have next : st'.queries.next = st.queries.next + 1 := asks.change.next
  have became : ∀ {y}, st'.queries.cell st.queries.next = some y →
      y.abandoned = false ∧ y.done = some st.calls.next ∧ y.pending = k ∧ y.total = matches_ := by
    intro y hy
    obtain ⟨x, hx, became⟩ := asks.change.here y hy
    have new : (st.queries.alloc ⟨1, slot, gen, 0, matches_, false, some st.calls.next⟩).cell
        st.queries.next = some x := hx
    grind [alloc_cell_self]
  have touches : Touches (· = st.queries.next) (askEvents st.queries.next matches_ k) st st' := by
    refine ⟨trace, ?_, ?_, ?_, ?_, ?_, ?_, ?_⟩
    · intro r other event member
      rcases mem_askEvents member with rfl | rfl
      all_goals exact ⟨by simp [about, Ne.symm other], nofun⟩
    · grind [mem_askEvents]
    · intro r y other hy
      rw [asks.change.others r other] at hy
      have old : (st.queries.alloc _).cell r = some y := hy
      grind [alloc_cell_ne]
    · intro c r other hc
      rw [calls] at hc
      rcases alloc_cell_eq_some.mp hc with ⟨_, same⟩ | old
      · cases same
        exact absurd rfl other
      · exact old
    · rw [next]
      exact Nat.le_succ _
    · rw [calls]
      exact Nat.le_succ _
    · grind
  refine asked.step inv touches ⟨?_, ?_, ?_, ?_⟩
  · grind [QueryOpen.ask]
  · intro r y total same member hy
    subst same
    rw [trace] at member
    rcases mem_append.mp member with old | new
    · exact absurd (asked.bound old rfl) (lt_irrefl _)
    · rcases mem_askEvents new with wrong | wrong <;> cases wrong
  · intro c r y same hc hy
    subst same
    obtain ⟨waiting, done, _⟩ := became hy
    rw [calls] at hc
    rcases alloc_cell_eq_some.mp hc with ⟨here, _⟩ | old
    · rw [here]
      exact ⟨waiting, done⟩
    · obtain ⟨x, hx⟩ := live_iff.mp (counting_live inv old)
      exact absurd (lt_next hx) (lt_irrefl _)
  · rw [trace]
    apply asked.history.append
    intro past event member
    rcases mem_askEvents member with rfl | rfl <;> trivial

theorem topicHubCountReturn_asked
    (hc : st.calls.cell c = some (.counting q)) : Ensures (topicHubCountReturn st c q) Asked := by
  refine .mono (topicHubCountReturn_frame st c q) ?_
  rintro st' ⟨frame, change, x, found, trace⟩
  obtain ⟨waiting, done⟩ := asked.caller hc found
  have calls : st'.calls = st.calls.free c := by rw [frame]
  have given : ∀ {y}, st'.queries.cell q = some y → y.abandoned = true := by
    intro y hy
    obtain ⟨x', hx', became⟩ := change.here y hy
    rw [became]
  have touches : Touches (· = q) [.counted q x.total] st st' := by
    refine ⟨trace, ?_, ?_, ?_, ?_, change.next.symm.le, ?_, ?_⟩
    · intro r other event member
      rw [mem_singleton.mp member]
      exact ⟨by simp [about, Ne.symm other], nofun⟩
    · simp
    · grind [others]
    · intro c' r _ hc'
      rw [calls] at hc'
      exact (free_cell_eq_some.mp hc').2
    · rw [calls]
      exact le_rfl
    · intro r same
      rw [same, change.next]
      exact lt_next found
  refine asked.step inv touches ⟨?_, ?_, ?_, ?_⟩
  · grind
  · grind
  · intro c' r y same hc' hy
    subst same
    rw [calls] at hc'
    obtain ⟨other, old⟩ := free_cell_eq_some.mp hc'
    -- two calls cannot wait for one query: its event belongs to one of them
    grind [Asked.caller]
  · rw [trace]
    apply asked.history.snoc
    exact (asked.waiting found waiting).total

theorem topicHubCountStart_asked (zendHash : Bytes → UInt32)
    (room : SlotId → Bool) (loc : WsLocal) (topic : Bytes) (matches_ : UInt32) (eventOk : Bool) :
    Ensures (topicHubCountStart zendHash room st loc topic matches_ eventOk) Asked := by
  grind [topicHubCountStart, Ensures.pure, Ensures.mono, askOthers_frame, Asked.ask]

theorem threadMailboxProcess_asked (room : Bool) (m : MailboxPtr) (matches_ : UInt32) :
    Ensures (threadMailboxProcess room st m matches_) Asked := by
  refine .mono (threadMailboxProcess_frame room st m matches_) ?_
  rintro st' ⟨only, effect⟩
  have calls : st'.calls = st.calls := by rw [only.frame]
  have kept : st'.trace = st.trace → st.queries.next ≤ st'.queries.next →
      (∀ {q y}, st'.queries.cell q = some y →
        ∃ x, st.queries.cell q = some x ∧ y = { x with refcount := y.refcount }) → Asked st' := by
    intro trace next queries
    apply asked.untold inv
    refine ⟨queries, next, ?_, ?_, .of_eq trace⟩
    · intro c q hc
      rw [calls] at hc
      exact hc
    · rw [calls]
  rcases effect with ⟨queries, trace⟩ | ⟨q, _, effect⟩
  · grind
  · cases effect with
    | kept trace change => grind [CellChange.next, CellChange.here, CellChange.others]
    | settled answered x settled => exact asked.settle inv only settled

end

/-! ## Runs -/

theorem topicHubAttach_untold (st : HubState) (created : Bool) :
    Untold st (topicHubAttach st created) := by
  unfold topicHubAttach
  split
  · exact .of_eq rfl rfl (.refl _ _)
  · dsimp only
    split
    · exact .of_eq rfl rfl (.of_eq rfl)
    · exact .of_eq rfl rfl (.log (.of_eq rfl) rfl)

theorem topicHubDetachFree_untold (st : HubState) (l : LocalPtr) (loc : WsLocal) :
    Ensures (topicHubDetachFree st l loc) (Untold st) := by
  grind [topicHubDetachFree, Ensures.bind, Ensures.read, Ensures.pure, Untold.of_eq, Logs.of_eq]

theorem Untold.fanout {st1 : HubState} {call : HubCall} (post : PostOnly st st1)
    (logs : Logs (·.isPost) st st1) (other : call.query = none)
    (stats : HubStats) (locals : Heap WsLocal) :
    Untold st { st1 with stats := stats, locals := locals, calls := st1.calls.alloc call } := by
  have calls : st1.calls = st.calls := by rw [post]
  refine .of_calls ?_ ?_ ?_ (logs.weaken isAsk_of_isPost)
  · rw [post]
  · intro c q hc
    rw [← calls]
    exact counting_of_alloc other hc
  · simp_all

variable (zendHash : Bytes → UInt32)

theorem topicHubPublish_untold (room : SlotId → Bool) (st : HubState)
    (ownSlot : Option SlotId) (message : HubMessage) :
    Ensures (topicHubPublish zendHash room st ownSlot message) (Untold st) := by
  refine .bind (topicHubFanoutLocked_frame zendHash room st ownSlot message false) ?_
  rintro ⟨st1, acc⟩ ⟨post, logs, _⟩
  exact .pure (.fanout post logs rfl _ st1.locals)

theorem topicHubPublishEnd_untold (c : CallId) (payload : Option PayloadPtr) :
    Ensures (topicHubPublishEnd st c payload) (Untold st) := by
  refine .bind (wsPayloadReleaseOpt_frame st payload) ?_
  rintro st1 ⟨frame, _⟩
  apply Ensures.pure
  rw [frame]
  exact .of_free rfl rfl (.of_eq rfl)

theorem topicHubSendFanout_untold (room : SlotId → Bool)
    (st : HubState) (owner : Option (LocalPtr × WsLocal)) (blocking : Bool) (message : HubMessage) :
    Ensures (topicHubSendFanout zendHash room st owner blocking message) (Untold st) := by
  refine .bind (topicHubFanoutLocked_frame zendHash room st _ message true) ?_
  rintro ⟨st1, acc⟩ ⟨post, logs, _⟩
  dsimp only at post logs ⊢
  split
  · exact .pure (.fanout post logs rfl _ st1.locals)
  · exact .pure (.fanout post logs rfl _ _)

theorem SendRefused.untold (refused : SendRefused st c st') : Untold st st' := by
  refine .of_free (c := c) ?_ ?_ (refused.logs.weaken isAsk_of_isResult)
  · rw [refused.frame]
  · rw [refused.frame]

theorem SendParked.untold {payload : Option PayloadPtr} {x : RetryEntry}
    (parked : SendParked st c payload full x st') : Untold st st' := by
  refine .of_calls ?_ ?_ parked.next.symm.le ?_
  · rw [parked.frame]
  · grind [SendParked.here, SendParked.others]
  · obtain ⟨extra, trace, results⟩ := parked.logs
    refine ⟨_, trace, ?_⟩
    intro event member
    rcases mem_cons.mp member with rfl | later
    · rfl
    · exact isAsk_of_isResult event (results event later)

theorem topicHubSendResume_untold (st : HubState) (c : CallId) (e : EntryPtr) (posted : Nat) :
    Ensures (topicHubSendResume st c e posted) (Untold st) := by
  refine .mono (topicHubSendResume_frame st c e posted) ?_
  rintro st' ⟨frame, logs, _⟩
  refine .of_free (c := c) ?_ ?_ (logs.weaken isAsk_of_isResult)
  · rw [frame]
  · rw [frame]

theorem Asked.moves (inv : HubOk st) (asked : Asked st) (zendHash : Bytes → UInt32) :
    HubMoves zendHash st (Ensures · Asked) := by
  have untold : ∀ {m : HubM HubState}, Ensures m (Untold st) → Ensures m Asked :=
    fun safe => Ensures.mono safe fun _ => asked.untold inv
  have wakes : ∀ {m : HubM HubState}, Ensures m (Wakes st) → Ensures m Asked :=
    fun safe => untold (Ensures.mono safe fun _ => Wakes.untold inv)
  exact {
    keep := .pure asked
    attach := fun created => untold (.pure (topicHubAttach_untold st created))
    retire := fun _ _ _ _ => untold (.pure (Untold.of_eq rfl rfl (Logs.of_eq rfl)))
    teardown := fun l loc _ _ => wakes (topicHubRetryTeardown_wakes st l loc)
    free := fun l loc _ _ => untold (topicHubDetachFree_untold st l loc)
    publish := fun room owner message =>
      untold (topicHubPublish_untold zendHash room st owner message)
    publishEnd := fun c payload _ => untold (topicHubPublishEnd_untold c payload)
    send := fun room owner blocking message _ =>
      untold (topicHubSendFanout_untold zendHash room st owner blocking message)
    settle := by
      intro c owner blocking message payload full posted args _
      refine untold (.mono (topicHubSendSettle_frame st c _ _ _ _ _ _ args) ?_)
      intro st' ended
      rcases ended with refused | ⟨_, x, parked⟩
      · exact refused.untold
      · exact parked.untold
    resume := fun c e posted _ => untold (topicHubSendResume_untold st c e posted)
    drain := fun room now l loc _ _ => wakes (topicHubRetryDrain_wakes room now st l loc)
    fetch := by
      intro _ loc _
      grind [Ensures.mono, threadMailboxFetch_frame, Untold.of_eq, Logs.of_eq]
    process := fun room matches_ _ loc _ =>
      threadMailboxProcess_asked inv asked room loc.inbox matches_
    count := topicHubCountStart_asked inv asked zendHash
    countReturn := fun _ _ hc => topicHubCountReturn_asked inv asked hc
    interest := fun _ _ _ => untold (.pure (Untold.of_eq rfl rfl (Logs.of_eq rfl))) }

theorem topicHubCreate_asked : Asked topicHubCreate where
  waiting := nofun
  returned := nofun
  caller := nofun
  history := .nil
  bound := nofun
  firesBound := fun _ => rfl

theorem runHub_asked (zendHash : Bytes → UInt32) (events : List HubEvent) :
    Returns (runHub zendHash events) fun st => HubOk st ∧ Asked st :=
  runHub_keeps topicHubCreate_asked (fun inv asked => asked.moves inv zendHash) events

/-! ## Counting -/

/-- The query of the command that the thread of attachment `l` deals with next. -/
def nextQuery (st : HubState) (l : LocalPtr) : Option QueryPtr :=
  (st.locals.cell l).bind fun loc => batchQuery st loc.inbox

/-- What a command may do to the queries: it concerns one of them at most, and one that was given
up only loses references. -/
structure QueryIsolated (st : HubState) (l : LocalPtr) (st' : HubState) : Prop where
  others : ∀ q, nextQuery st l ≠ some q → st'.queries.cell q = st.queries.cell q
  late : ∀ {q x}, nextQuery st l = some q → st.queries.cell q = some x → x.abandoned = true →
    st'.trace = st.trace ∧ ∀ y, st'.queries.cell q = some y → y = { x with refcount := y.refcount }

/-- What a reachable state says about the counts. Sums are those of `uint32_t`. -/
structure QueryCounting (zendHash : Bytes → UInt32) (st : HubState) : Prop where
  /-- `pending` is the number of questions without an answer. -/
  pending : ∀ {q x}, st.queries.cell q = some x → x.abandoned = false →
    x.pending + (answersOf q st.trace).length = questionsOf q st.trace
  /-- The event of a waiting call has fired once the last answer is settled, and not before. -/
  fires : ∀ {q x}, st.queries.cell q = some x → x.abandoned = false →
    ∃ c, x.done = some c ∧ st.calls.cell c = some (.counting q) ∧
      firesOf c st.trace = if 0 < questionsOf q st.trace ∧ x.pending = 0 then 1 else 0
  /-- A result is the local count and the answers settled before it; none is settled later. -/
  returned : ∀ {past q total future}, st.trace = past ++ .counted q total :: future →
    (∃ count, asksOf q past = [count] ∧ total = count + (answersOf q past).sum) ∧
      answersOf q future = []
  /-- Dealing with a command never fails, and concerns its own query only. -/
  isolated : ∀ l matches_ room,
    Returns (HubEvent.step zendHash st (.mailboxProcess l matches_ room)) (QueryIsolated st l)
  /-- The reference count is the number of references, and who is not referenced is freed. -/
  refcount : ∀ {q x}, st.queries.cell q = some x → x.refcount = queryHolders st.cmds st.calls q
  live : ∀ q, st.queries.Live q ↔ 0 < queryHolders st.cmds st.calls q
  allFreed : (∀ l, ¬ st.locals.Live l) → (∀ c, ¬ st.calls.Live c) → ∀ q, ¬ st.queries.Live q

theorem DrainEffect.isolated (found : st.locals.cell l = some loc)
    (effect : DrainEffect st (batchQuery st loc.inbox) st') : QueryIsolated st l st' := by
  have next : nextQuery st l = batchQuery st loc.inbox := by simp [nextQuery, found]
  constructor
  · intro r other
    rcases effect with ⟨queries, _⟩ | ⟨q, carries, effect⟩
    · rw [queries]
    · have apart : r ≠ q := by grind
      cases effect with
      | kept _ change => exact change.others r apart
      | settled _ _ settled => exact settled.change.others r apart
  · intro r x same hx abandoned
    rcases effect with ⟨queries, trace⟩ | ⟨q, carries, effect⟩
    · simp_all
    · obtain rfl : r = q := Option.some.inj (same.symm.trans (next.trans carries))
      cases effect with
      | kept trace change =>
        refine ⟨trace, ?_⟩
        intro y hy
        obtain ⟨x', hx', became⟩ := change.here y hy
        cases hx.symm.trans hx'
        exact became
      | settled _ x' settled =>
        -- an answer is settled into queries that are waited for only
        cases hx.symm.trans settled.found
        rw [settled.waiting] at abandoned
        cases abandoned

theorem mailboxProcess_isolated (inv : HubOk st) (zendHash : Bytes → UInt32) (l : LocalPtr)
    (matches_ : UInt32) (room : Bool) :
    Returns (HubEvent.step zendHash st (.mailboxProcess l matches_ room)) (QueryIsolated st l) := by
  have safe := HubEvent.step_safe inv zendHash (.mailboxProcess l matches_ room)
  have idle : QueryIsolated st l st := by
    refine ⟨fun _ _ => rfl, ?_⟩
    simp_all
  have effect : Ensures (HubEvent.step zendHash st (.mailboxProcess l matches_ room))
      (QueryIsolated st l) := by
    apply atDrain_ensures idle
    intro loc hl
    refine .mono (threadMailboxProcess_frame room st loc.inbox matches_) ?_
    rintro st' ⟨_, effect⟩
    exact effect.isolated hl
  exact (safe.and_ensures effect).mono fun _ both => both.2

theorem Asked.settled_before (asked : Asked st) {total : UInt32}
    (split : st.trace = past ++ .counted q total :: future) : answersOf q future = [] := by
  apply filterMap_eq_nil_iff.mpr
  intro event member
  cases event with
  | answered r count =>
    by_cases same : r = q
    · subst same
      obtain ⟨between, rest, parts⟩ := append_of_mem member
      rw [parts, ← cons_append, ← append_assoc] at split
      have early : AskOk _ (.answered r count) := asked.history _ _ _ split
      have late : counted r total ∈ past ++ .counted r total :: between := by simp
      exact absurd late (early total)
    · simp [answerOf, same]
  | _ => rfl

theorem HubInv.queriesFreed (inv : HubOk st) (noLocals : ∀ l, ¬ st.locals.Live l)
    (noCalls : ∀ c, ¬ st.calls.Live c) (q : QueryPtr) : ¬ st.queries.Live q := by
  obtain ⟨_, noCmds, _⟩ := allFreed inv noLocals noCalls
  intro live
  have held := ((query inv).live_iff_pos q).mp live
  simp [queryHolders, total_eq_zero noCmds, total_eq_zero noCalls] at held

/-- In every run the counts are exact: no counter underflows, the call that waits is woken by the
last answer, a result is the local count and the answers settled by then, a late answer changes
nothing but references, and a query is freed when its last reference goes. -/
theorem query_counting_exact (zendHash : Bytes → UInt32) (events : List HubEvent) :
    Returns (runHub zendHash events) (QueryCounting zendHash) := by
  refine (runHub_asked zendHash events).mono ?_
  rintro st ⟨inv, asked⟩
  constructor
  · intro q x hx waiting
    exact (asked.waiting hx waiting).pending
  · intro q x hx waiting
    obtain ⟨c, done, counting⟩ := (call inv).done hx waiting
    exact ⟨c, done, counting, (asked.waiting hx waiting).fired done⟩
  · intro past q total future split
    exact ⟨asked.history past _ future split, asked.settled_before split⟩
  · exact mailboxProcess_isolated inv zendHash
  · intro q x hx
    exact ((query inv).live hx).1
  · exact (query inv).live_iff_pos
  · exact queriesFreed inv

end TrueAsync.Websocket

import Mathlib.Data.List.Count
import Mathlib.Tactic.SplitIfs
import TrueAsync.Lib.History

/-!
# The lifetime of a session

A session is freed with its owner: over HTTP/1 with the connection (`http_connection_destroy` in
`src/core/http_connection.c`), over HTTP/2 with the stream (`http2_stream_release` in
`src/http2/http2_stream.c`). The handler holds both; its end (`ws_handler_coroutine_dispose` in
`src/websocket/ws_dispatch.c`, `ws_h2_handler_dispose` in `src/http2/http2_strategy.c`) gives them up.
The methods of the WebSocket may be suspended on other coroutines meanwhile, and go on with the
session they had. `ws_session_queue_and_flush` pins the connection while it is suspended; the
others pin nothing.

The run starts with a session and a running handler. A method that finds the handler ended finds no
session, and a commit after that finds the WebSocket closed, so nothing is suspended later than that.
-/

namespace TrueAsync.Ws

open TrueAsync.Lib List

/-! ## The state -/

/-- Where a call is suspended: `ws_do_recv`, `ws_session_wait_writable`,
`ws_session_queue_and_flush`, `WebSocket::ping` and `WebSocket::close`. -/
inductive Suspension where
  | recv
  | writable
  | flush
  | ping
  | close
deriving DecidableEq, Repr

/-- How a suspended call goes on: it is suspended there again, a wait for room goes on to the flush,
it returns, or it was cancelled. -/
inductive Resumption where
  | again
  | proceed
  | returns
  | cancelled
deriving DecidableEq, Repr

/-- The connection, the stream, the WebSocket and its session, as far as they say who is alive.
`outInFlight` stands for each write that defers a teardown, `inTable` for the reference of the
session's stream table; `ended` says that the handler has ended, which clears `w->session`. `others`
counts the pins of other handlers, `destroyed` the runs of `ws_session_destroy`, and `faults` the
uses of the session after one. -/
structure Lifetime where
  h2 : Bool
  handlerRefcount : Nat
  destroyPending : Bool
  destroyMicrotask : Bool
  outInFlight : Bool
  destroying : Bool := false
  streamRefcount : Nat
  inTable : Bool
  closed : Bool := false
  ended : Bool := false
  flushing : Bool := false
  recvWaiter : Option Nat := none
  parked : List (Nat × Suspension) := []
  others : Nat
  destroyed : Nat := 0
  faults : Nat := 0
deriving DecidableEq, Repr

namespace Lifetime

/-- A session that has just been created, on a connection that may have other handlers, a write in
flight and a teardown asked for. The coroutine of the handler is number zero. -/
def start (h2 pending microtask inFlight : Bool) (others : Nat) : Lifetime where
  h2 := h2
  handlerRefcount := others + 1
  destroyPending := pending
  destroyMicrotask := microtask
  outInFlight := inFlight
  streamRefcount := if h2 then 2 else 0
  inTable := h2
  others := others

/-! ## Teardown -/

/-- `ws_session_destroy`. -/
def wsSessionDestroy (st : Lifetime) : Lifetime := { st with destroyed := st.destroyed + 1 }

/-- `http2_stream_release`. -/
def http2StreamRelease (st : Lifetime) : Lifetime :=
  let left := { st with streamRefcount := st.streamRefcount - 1 }
  if left.streamRefcount = 0 then left.wsSessionDestroy else left

/-- The stream leaves the table, at its close or with the connection. -/
def streamTableRemove (st : Lifetime) : Lifetime :=
  if st.inTable then { st with inTable := false }.http2StreamRelease else st

/-- `http_connection_destroy`. -/
def httpConnectionDestroy (st : Lifetime) : Lifetime :=
  if st.destroying then st
  else if st.handlerRefcount > 0 ∨ st.outInFlight then
    { st with destroyMicrotask := false, destroyPending := true }
  else
    let gone := { st with destroyMicrotask := false, destroying := true }
    if st.h2 then gone.streamTableRemove else gone.wsSessionDestroy

/-- `http_connection_destroy_if_idle_deferred`. -/
def destroyIfIdleDeferred (st : Lifetime) : Lifetime :=
  if st.handlerRefcount ≠ 0 ∨ ¬ st.destroyPending ∨ st.destroyMicrotask then st
  else { st with destroyMicrotask := true }

def destroyIfPending (st : Lifetime) : Lifetime :=
  if st.handlerRefcount = 0 ∧ st.destroyPending then
    { st with destroyPending := false }.httpConnectionDestroy
  else st

/-! ## Suspended calls -/

def isParked (st : Lifetime) (id : Nat) : Bool := (st.parked.lookup id).isSome

def park (st : Lifetime) (id : Nat) (place : Suspension) : Lifetime :=
  { st with parked := (id, place) :: st.parked }

def unpark (st : Lifetime) (id : Nat) (place : Suspension) : Lifetime :=
  { st with parked := st.parked.erase (id, place) }

def touch (st : Lifetime) : Lifetime :=
  if st.destroyed = 0 then st else { st with faults := st.faults + 1 }

/-- The flush of `send`: it pins the connection, unless another coroutine flushes. -/
def queueAndFlush (st : Lifetime) (id : Nat) : Lifetime :=
  if st.ended ∨ st.closed ∨ st.flushing then st
  else { st.park id .flush with flushing := true, handlerRefcount := st.handlerRefcount + 1 }

/-- A method is called and is suspended. One that is not suspended goes on at once. -/
def call (st : Lifetime) (id : Nat) (place : Suspension) : Lifetime :=
  if st.isParked id ∨ st.ended ∨ st.closed then st
  else
    match place with
    | .recv =>
        if st.recvWaiter ≠ none ∧ st.recvWaiter ≠ some id then st
        else { st.park id .recv with recvWaiter := some id }
    | .writable => st.park id .writable
    | .flush => st.queueAndFlush id
    | .ping => if st.flushing then st else { st.park id .ping with flushing := true }
    | .close =>
        if st.flushing then { st with closed := true }
        else { st.park id .close with flushing := true }

/-- What a call does when it goes on. A cancelled wait for room leaves the session alone. -/
def resumeAt (st : Lifetime) (id : Nat) : Suspension → Resumption → Lifetime
  | .writable, .cancelled => st.unpark id .writable
  | .writable, .proceed => (st.touch.unpark id .writable).queueAndFlush id
  | .writable, _ => st.touch.unpark id .writable
  | _, .again => st.touch
  | .recv, _ => { st.touch.unpark id .recv with recvWaiter := none }
  | .flush, _ =>
      { st.touch.unpark id .flush with
        flushing := false
        handlerRefcount := st.handlerRefcount - 1 }.destroyIfIdleDeferred
  | .ping, _ => { st.touch.unpark id .ping with flushing := false }
  | .close, _ => { st.touch.unpark id .close with flushing := false, closed := true }

def resume (st : Lifetime) (id : Nat) (how : Resumption) : Lifetime :=
  match st.parked.lookup id with
  | none => st
  | some place => st.resumeAt id place how

/-! ## The end of the handler -/

/-- `ws_handler_coroutine_dispose`, and `ws_h2_handler_dispose`, which does not look for a teardown
that waits for it. `writes` says that a last write is in flight after it. -/
def handlerDispose (st : Lifetime) (writes : Bool) : Lifetime :=
  if st.ended ∨ st.isParked 0 then st
  else
    let finished := { st with ended := true, closed := true, outInFlight := st.outInFlight || writes }
    if st.h2 then
      { finished.http2StreamRelease with handlerRefcount := st.handlerRefcount - 1 }
    else
      let left := { finished with handlerRefcount := st.handlerRefcount - 1 }
      if left.handlerRefcount = 0 then left.httpConnectionDestroy
      else { left with destroyPending := true }

/-! ## Runs -/

/-- What happens. `teardown` is one of the connection, `trySend` a message of a topic. Another user of
the connection lets go of its pin by `otherReleases`, unless it is the handler of another WebSocket
over HTTP/2: the end of that one is `siblingEnds`. -/
inductive Event where
  | call (id : Nat) (place : Suspension)
  | resume (id : Nat) (how : Resumption)
  | handlerEnds (writes : Bool)
  | teardown
  | microtask
  | writeStarts
  | writeCompletes
  | streamClosed
  | trySend
  | otherPins
  | otherReleases
  | siblingEnds
deriving DecidableEq, Repr

/-- Another user of the connection drops its pin. -/
def dropOther (st : Lifetime) : Lifetime :=
  { st with handlerRefcount := st.handlerRefcount - 1, others := st.others - 1 }

/-- One event. The end of a sibling is `ws_h2_handler_dispose` once more: it drops the pin and does not
look for a teardown that waits for it. -/
def step (st : Lifetime) : Event → Lifetime
  | .call id place => st.call id place
  | .resume id how => st.resume id how
  | .handlerEnds writes => st.handlerDispose writes
  | .teardown => st.httpConnectionDestroy
  | .microtask =>
      if st.destroyMicrotask then { st with destroyMicrotask := false }.destroyIfPending else st
  | .writeStarts => if st.destroying then st else { st with outInFlight := true }
  | .writeCompletes =>
      if st.outInFlight then { st with outInFlight := false }.destroyIfPending else st
  | .streamClosed => st.streamTableRemove
  | .trySend => if st.destroyed = 0 ∧ ¬ st.flushing then st.destroyIfIdleDeferred else st
  | .otherPins =>
      if st.destroying then st
      else { st with handlerRefcount := st.handlerRefcount + 1, others := st.others + 1 }
  | .otherReleases => if st.others = 0 then st else st.dropOther.destroyIfIdleDeferred
  | .siblingEnds => if st.h2 = false ∨ st.others = 0 then st else st.dropOther

end Lifetime

open Lifetime

/-! ## Safety -/

def Idle (st : Lifetime) : Prop :=
  st.handlerRefcount = 0 ∧ st.outInFlight = false ∧ st.destroyMicrotask = false

/-- The session ought to be gone: the handler has ended, and over HTTP/2 the stream is closed or a
teardown of the connection was asked for. -/
def Due (st : Lifetime) : Prop :=
  st.ended = true ∧
    if st.h2 then st.inTable = false ∨ st.destroyPending = true ∧ Idle st else Idle st

/-- The only suspension that keeps the session: the flush over HTTP/1. -/
def Keeps (st : Lifetime) (place : Suspension) : Prop := st.h2 = false ∧ place = .flush

/-- One pin is left, and a teardown of the HTTP/2 connection waits for it that nothing else will run. -/
def LastPin (st : Lifetime) : Prop :=
  st.h2 = true ∧ st.inTable = true ∧ st.destroyPending = true ∧ st.handlerRefcount = 1 ∧
    st.outInFlight = false ∧ st.destroyMicrotask = false

/-- The handler does not end while a call is suspended that does not keep the session, and no handler
over HTTP/2, this one or a sibling's, ends with the last pin unless it writes. -/
def Spares (st : Lifetime) : Event → Prop
  | .handlerEnds writes => st.ended = false → st.isParked 0 = false →
      (∀ call ∈ st.parked, Keeps st call.2) ∧ (writes = true ∨ ¬ LastPin st)
  | .siblingEnds => st.ended = true → st.others ≠ 0 → ¬ LastPin st
  | _ => True

/-! ## What is counted -/

def pinned (st : Lifetime) : Nat := st.parked.countP (·.2 = .flush)

/-- The counters say who holds what. -/
structure Counted (st : Lifetime) : Prop where
  pins : st.handlerRefcount = (!st.ended).toNat + st.others + pinned st
  refs : st.streamRefcount = if st.h2 then st.inTable.toNat + (!st.ended).toNat else 0
  once : st.destroyed = if st.h2 then (st.streamRefcount == 0).toNat else st.destroying.toNat
  table : st.inTable = true → st.h2 = true
  torn : st.destroying = true → st.handlerRefcount = 0 ∧ st.outInFlight = false ∧ st.inTable = false
  asked : st.h2 = false → st.ended = true → st.destroying = true ∨ st.destroyPending = true

/-- What holds before and after every step of a teardown. -/
structure Valid (st : Lifetime) : Prop extends Counted st where
  unused : st.faults = 0
  keeps : st.ended = true → ∀ call ∈ st.parked, Keeps st call.2

/-- A teardown was asked for, and nothing is left that would run it. -/
def Stuck (st : Lifetime) : Prop :=
  st.ended = true ∧ st.destroying = false ∧ st.destroyed = 0 ∧ st.destroyPending = true ∧ Idle st

/-- What holds between two events. -/
structure Safe (st : Lifetime) : Prop extends Valid st where
  settled : ¬ Stuck st

variable {st : Lifetime}

section

variable (counted : Counted st)
include counted

theorem Counted.present (runs : st.ended = false) :
    st.destroying = false ∧ 0 < st.handlerRefcount := by
  have pins := counted.pins
  simp only [runs, Bool.not_false, Bool.toNat_true] at pins
  refine ⟨?_, by omega⟩
  by_contra gone
  have free := (counted.torn (eq_true_of_ne_false gone)).1
  omega

theorem Counted.alive (runs : st.ended = false) : st.destroyed = 0 := by
  rw [counted.once, counted.refs, (counted.present runs).1, runs]
  cases st.h2 <;> simp

theorem Counted.finished (free : st.handlerRefcount = 0) : st.ended = true := by
  by_contra runs
  have held := (counted.present (eq_false_of_ne_true runs)).2
  omega

/-- Over HTTP/2 the session of an ended handler lives as long as its stream is in the table. -/
theorem Counted.listed (h2 : st.h2 = true) (finished : st.ended = true) (alive : st.destroyed = 0) :
    st.inTable = true := by
  have once := counted.once
  have refs := counted.refs
  simp_all

/-- While the handler runs nothing is due. -/
theorem Counted.running (runs : st.ended = false) (unused : st.faults = 0) : Safe st where
  toCounted := counted
  unused := unused
  keeps finished := by simp [runs] at finished
  settled stuck := by
    have finished := stuck.1
    simp [runs] at finished

end

/-- A suspended call keeps the session by its pin once the handler has ended. -/
theorem Valid.alive_of_parked {call : Nat × Suspension} (valid : Valid st) (member : call ∈ st.parked) :
    st.destroyed = 0 := by
  by_contra gone
  have finished : st.ended = true := by
    by_contra runs
    exact gone (valid.alive (eq_false_of_ne_true runs))
  obtain ⟨h1, flush⟩ := valid.keeps finished call member
  have some : 0 < pinned st := countP_pos_iff.mpr ⟨call, member, by simp [flush]⟩
  have torn : st.destroying = true := by
    by_contra present
    exact gone (by simp [valid.once, h1, eq_false_of_ne_true present])
  have free := (valid.torn torn).1
  have pins := valid.pins
  omega

/-! ## Teardown -/

theorem Valid.destroyIfIdleDeferred (valid : Valid st) : Safe st.destroyIfIdleDeferred := by
  unfold Lifetime.destroyIfIdleDeferred
  split_ifs with refused
  · refine ⟨valid, ?_⟩
    rintro ⟨_, _, _, asked, free, _, none⟩
    simp [asked, free, none] at refused
  · refine ⟨{ valid with }, ?_⟩
    rintro ⟨_, _, _, _, _, _, none⟩
    cases none

theorem http2StreamRelease_eq (st : Lifetime) : st.http2StreamRelease = { st with
      streamRefcount := st.streamRefcount - 1
      destroyed := st.destroyed + if st.streamRefcount - 1 = 0 then 1 else 0 } := by
  unfold http2StreamRelease wsSessionDestroy
  dsimp only
  split <;> rfl

theorem Valid.streamTableRemove (valid : Valid st) : Valid st.streamTableRemove := by
  unfold Lifetime.streamTableRemove
  split_ifs with held
  · obtain ⟨⟨pins, refs, once, table, torn, asked⟩, unused, keeps⟩ := valid
    rw [http2StreamRelease_eq]
    rcases Bool.eq_false_or_eq_true st.ended with finished | finished
    all_goals
      refine ⟨⟨pins, ?_, ?_, nofun, ?_, asked⟩, unused, keeps⟩
      all_goals simp_all
  · exact valid

theorem Safe.streamTableRemove (safe : Safe st) : Safe st.streamTableRemove := by
  refine ⟨safe.toValid.streamTableRemove, fun stuck => safe.settled ?_⟩
  unfold Lifetime.streamTableRemove at stuck
  split at stuck
  · rw [http2StreamRelease_eq] at stuck
    obtain ⟨finished, present, alive, waiting⟩ := stuck
    exact ⟨finished, present, (Nat.add_eq_zero_iff.mp alive).1, waiting⟩
  · exact stuck

/-- The flag of a pending teardown may have been cleared before. -/
theorem Valid.httpConnectionDestroy (valid : Valid st) (pending : Bool) :
    Safe { st with destroyPending := pending }.httpConnectionDestroy := by
  unfold Lifetime.httpConnectionDestroy
  dsimp only
  split_ifs with gone deferred h2
  · refine ⟨{ valid with asked := fun _ _ => .inl gone }, ?_⟩
    rintro ⟨_, present, _⟩
    simp [gone] at present
  · refine ⟨{ valid with asked := fun _ _ => .inr rfl }, ?_⟩
    rintro ⟨_, _, _, _, free, quiet, _⟩
    have free : st.handlerRefcount = 0 := free
    have quiet : st.outInFlight = false := quiet
    simp [free, quiet] at deferred
  all_goals
    obtain ⟨free, quiet⟩ := not_or.mp deferred
    have zero : st.handlerRefcount = 0 := by omega
    have finished : st.ended = true := valid.finished zero
    have quiet := eq_false_of_ne_true quiet
    obtain ⟨⟨pins, refs, once, table, torn, asked⟩, unused, keeps⟩ := valid
  · unfold Lifetime.streamTableRemove
    dsimp only
    split_ifs with held
    · rw [http2StreamRelease_eq]
      refine ⟨⟨⟨pins, ?_, ?_, nofun, fun _ => ⟨zero, quiet, rfl⟩, fun _ _ => .inl rfl⟩, unused, keeps⟩,
        fun stuck => nomatch stuck.2.1⟩
      all_goals simp_all
    · have absent := eq_false_of_ne_true held
      refine ⟨⟨⟨pins, refs, once.trans ?_, table, fun _ => ⟨zero, quiet, absent⟩,
        fun _ _ => .inl rfl⟩, unused, keeps⟩, fun stuck => nomatch stuck.2.1⟩
      rw [if_pos h2, if_pos h2]
  · have h1 := eq_false_of_ne_true h2
    have absent : st.inTable = false := eq_false_of_ne_true fun held => h2 (table held)
    refine ⟨⟨⟨pins, refs, ?_, table, fun _ => ⟨zero, quiet, absent⟩, fun _ _ => .inl rfl⟩, unused,
      keeps⟩, fun stuck => nomatch stuck.2.1⟩
    simp [wsSessionDestroy, once, h1, eq_false_of_ne_true gone]

theorem Valid.destroyIfPending (valid : Valid st) : Safe st.destroyIfPending := by
  unfold Lifetime.destroyIfPending
  split_ifs with asked
  · exact valid.httpConnectionDestroy false
  · refine ⟨valid, ?_⟩
    rintro ⟨_, _, _, pending, free, _⟩
    exact asked ⟨free, pending⟩

/-! ## The end of a handler -/

section

variable (safe : Safe st) (runs : st.ended = false) (keep : ∀ call ∈ st.parked, Keeps st call.2)
  (writes : Bool)
include safe runs keep

theorem Safe.leave (h1 : st.h2 = false) : Valid { st with
      ended := true
      closed := true
      outInFlight := st.outInFlight || writes
      handlerRefcount := st.handlerRefcount - 1
      destroyPending := true } := by
  obtain ⟨⟨⟨pins, refs, once, table, torn, asked⟩, unused, _⟩, _⟩ := safe
  simp only [runs, Bool.not_false, Bool.toNat_true] at pins
  refine ⟨⟨?_, ?_, once, table, fun gone => ?_, fun _ _ => .inr rfl⟩, unused, fun _ => keep⟩
  · change st.handlerRefcount - 1 = 0 + st.others + pinned st
    omega
  · simpa [h1] using refs
  · have held := (torn gone).1
    omega

theorem Safe.leaveStream (h2 : st.h2 = true) (unforgotten : writes = true ∨ ¬ LastPin st) :
    Safe { { st with
      ended := true
      closed := true
      outInFlight := st.outInFlight || writes }.http2StreamRelease with
        handlerRefcount := st.handlerRefcount - 1 } := by
  have alive := safe.alive runs
  obtain ⟨_, held⟩ := safe.present runs
  obtain ⟨⟨⟨pins, refs, once, table, torn, asked⟩, unused, _⟩, _⟩ := safe
  rw [http2StreamRelease_eq]
  simp only [runs, h2, Bool.not_false, Bool.toNat_true, if_true] at pins refs
  refine ⟨⟨⟨?_, ?_, ?_, fun _ => h2, fun gone => ?_, ?_⟩, unused, fun _ => keep⟩, ?_⟩
  · change st.handlerRefcount - 1 = 0 + st.others + pinned st
    omega
  · simp [refs, h2]
  · cases listed : st.inTable <;> simp [alive, refs, listed, h2]
  · have free := (torn gone).1
    omega
  · simp [h2]
  · rintro ⟨_, _, here, pending, free, quiet, none⟩
    have listed : st.inTable = true := by
      by_contra absent
      simp [refs, eq_false_of_ne_true absent] at here
    have last : st.handlerRefcount - 1 = 0 := free
    obtain ⟨quiet, mute⟩ := Bool.or_eq_false_iff.mp quiet
    refine unforgotten.elim (fun loud => ?_) (· ⟨h2, listed, pending, by omega, quiet, none⟩)
    simp [loud] at mute

end

theorem Safe.handlerDispose (safe : Safe st) (writes : Bool)
    (spares : Spares st (.handlerEnds writes)) : Safe (st.handlerDispose writes) := by
  unfold Lifetime.handlerDispose
  dsimp only
  split_ifs with refused h2 last
  · exact safe
  all_goals
    obtain ⟨runs, away⟩ := not_or.mp refused
    have runs := eq_false_of_ne_true runs
    obtain ⟨keep, unforgotten⟩ := spares runs (eq_false_of_ne_true away)
  · exact safe.leaveStream runs keep writes h2 unforgotten
  all_goals have left := safe.leave runs keep writes (eq_false_of_ne_true h2)
  · exact left.httpConnectionDestroy st.destroyPending
  · refine ⟨left, ?_⟩
    rintro ⟨_, _, _, _, free, _⟩
    exact last free

theorem Counted.dropOther (counted : Counted st) (some : st.others ≠ 0) : Counted st.dropOther := by
  have pins := counted.pins
  refine { counted with pins := ?_, torn := fun gone => ?_ }
  · change st.handlerRefcount - 1 = (!st.ended).toNat + (st.others - 1) + pinned st
    omega
  · have free := (counted.torn gone).1
    omega

theorem Safe.siblingEnds (safe : Safe st) (h2 : st.h2 = true) (some : st.others ≠ 0)
    (spares : Spares st .siblingEnds) : Safe st.dropOther := by
  refine ⟨⟨safe.dropOther some, safe.unused, safe.keeps⟩, ?_⟩
  rintro ⟨finished, _, alive, pending, free, quiet, none⟩
  have last : st.handlerRefcount - 1 = 0 := free
  have pins := safe.pins
  exact spares finished some
    ⟨h2, safe.listed h2 finished alive, pending, by omega, quiet, none⟩

/-! ## Calls -/

theorem Counted.of_same (counted : Counted st) (flushing closed : Bool) (recvWaiter : Option Nat)
    (parked : List (Nat × Suspension)) (pins : parked.countP (·.2 = .flush) = pinned st) :
    Counted { st with
      flushing := flushing
      recvWaiter := recvWaiter
      closed := closed
      parked := parked } :=
  { counted with pins := counted.pins.trans (by rw [← pins]; rfl) }

/-- The flush starts while the handler runs. -/
theorem Counted.pin (counted : Counted st) (id : Nat) (runs : st.ended = false) :
    Counted { st.park id .flush with
      flushing := true
      handlerRefcount := st.handlerRefcount + 1 } := by
  have present := (counted.present runs).1
  have pins := counted.pins
  refine { counted with pins := ?_, torn := fun gone => ?_ }
  · simp only [pinned, park, decide_true, countP_cons_of_pos] at pins ⊢
    omega
  · exact absurd (gone.symm.trans present) (by decide)

theorem Safe.call (safe : Safe st) (id : Nat) (place : Suspension) : Safe (st.call id place) := by
  unfold Lifetime.call
  split
  · exact safe
  · have runs : st.ended = false := by simp_all
    have parks (place : Suspension) (other : place ≠ .flush) (flushing : Bool)
        (recvWaiter : Option Nat) : Safe _ := (safe.of_same flushing st.closed recvWaiter
      ((id, place) :: st.parked) (by simp [pinned, other])).running runs safe.unused
    cases place with
    | recv =>
      dsimp only
      split_ifs
      · exact safe
      · exact parks .recv (by decide) _ _
    | writable => exact parks .writable (by decide) _ _
    | flush =>
      simp only [queueAndFlush]
      split_ifs
      · exact safe
      · exact (safe.pin id runs).running runs safe.unused
    | ping =>
      dsimp only
      split_ifs
      · exact safe
      · exact parks .ping (by decide) _ _
    | close =>
      dsimp only
      split_ifs
      · exact { safe with }
      · exact parks .close (by decide) _ _

/-! ## Calls that go on -/

variable {id : Nat}

theorem mem_of_lookup {parked : List (Nat × Suspension)} {place : Suspension}
    (found : parked.lookup id = some place) : (id, place) ∈ parked := by
  obtain ⟨before, after, rfl, _⟩ := lookup_eq_some_iff.mp found
  simp

theorem Valid.unpin (valid : Valid st) (member : (id, Suspension.flush) ∈ st.parked) : Valid { st with
      parked := st.parked.erase (id, .flush)
      flushing := false
      handlerRefcount := st.handlerRefcount - 1 } := by
  have pins := valid.pins
  have some : 0 < pinned st := countP_pos_iff.mpr ⟨_, member, by simp⟩
  refine { valid with pins := ?_, torn := fun gone => ?_, keeps := fun finished call listed => ?_ }
  · have fewer : (st.parked.erase (id, .flush)).countP (·.2 = .flush) = pinned st - 1 := by
      simp [countP_erase, member, pinned]
    rw [pinned, fewer]
    dsimp only
    omega
  · obtain ⟨free, rest⟩ := valid.torn gone
    omega
  · exact valid.keeps finished call (mem_of_mem_erase listed)

theorem Safe.resume (safe : Safe st) (id : Nat) (how : Resumption) : Safe (st.resume id how) := by
  unfold Lifetime.resume
  split
  · exact safe
  · rename_i place found
    have member := mem_of_lookup found
    have touched : st.touch = st := if_pos (safe.alive_of_parked member)
    have stays : Safe st.touch := by
      rw [touched]
      exact safe
    have leaves (place : Suspension) (other : place ≠ .flush) (flushing closed : Bool)
        (recvWaiter : Option Nat) : Safe _ :=
      { safe with
        toCounted := safe.of_same flushing closed recvWaiter (st.parked.erase (id, place))
          (by simp [pinned, countP_erase, other])
        keeps := fun finished call listed => safe.keeps finished call (mem_of_mem_erase listed) }
    cases place with
    | recv | ping | close =>
      cases how with
      | again => exact stays
      | _ =>
        simp only [resumeAt, touched]
        exact leaves _ (by decide) _ _ _
    | writable =>
      have left := leaves .writable (by decide) st.flushing st.closed st.recvWaiter
      cases how with
      | proceed =>
        simp only [resumeAt, touched, queueAndFlush]
        split_ifs with refused
        · exact left
        · have runs : st.ended = false := eq_false_of_ne_true (not_or.mp refused).1
          exact (left.pin id runs).running runs safe.unused
      | _ =>
        simp only [resumeAt, touched]
        exact left
    | flush =>
      cases how with
      | again => exact stays
      | _ =>
        simp only [resumeAt, touched]
        exact (safe.unpin member).destroyIfIdleDeferred

/-! ## Every event -/

theorem Valid.inFlight (valid : Valid st) (inFlight : Bool)
    (present : st.destroying = false ∨ inFlight = false) :
    Valid { st with outInFlight := inFlight } := by
  refine { valid with torn := fun gone => ?_ }
  obtain ⟨free, _, absent⟩ := valid.torn gone
  refine ⟨free, present.resolve_left ?_, absent⟩
  simpa using gone

theorem Safe.step (safe : Safe st) (event : Event) (spares : Spares st event) :
    Safe (st.step event) := by
  cases event with
  | call id place => exact safe.call id place
  | resume id how => exact safe.resume id how
  | handlerEnds writes => exact safe.handlerDispose writes spares
  | teardown => exact safe.httpConnectionDestroy st.destroyPending
  | streamClosed => exact safe.streamTableRemove
  | microtask =>
    simp only [Lifetime.step]
    split_ifs
    · have mid : Valid { st with destroyMicrotask := false } := { safe with }
      exact mid.destroyIfPending
    · exact safe
  | writeStarts =>
    simp only [Lifetime.step]
    split_ifs with gone
    · exact safe
    · refine ⟨safe.inFlight true (.inl (eq_false_of_ne_true gone)), ?_⟩
      rintro ⟨_, _, _, _, _, quiet, _⟩
      cases quiet
  | writeCompletes =>
    simp only [Lifetime.step]
    split_ifs
    · exact (safe.inFlight false (.inr rfl)).destroyIfPending
    · exact safe
  | trySend =>
    simp only [Lifetime.step]
    split_ifs
    · exact safe.destroyIfIdleDeferred
    · exact safe
  | otherPins =>
    simp only [Lifetime.step]
    split_ifs with gone
    · exact safe
    · have pins := safe.pins
      refine ⟨{ safe with pins := ?_, torn := fun torn => absurd torn gone }, ?_⟩
      · change st.handlerRefcount + 1 = (!st.ended).toNat + (st.others + 1) + pinned st
        omega
      · rintro ⟨_, _, _, _, free, _⟩
        cases free
  | otherReleases =>
    simp only [Lifetime.step]
    split_ifs with none
    · exact safe
    · have dropped : Valid st.dropOther := ⟨safe.dropOther none, safe.unused, safe.keeps⟩
      exact dropped.destroyIfIdleDeferred
  | siblingEnds =>
    simp only [Lifetime.step]
    split_ifs with idle
    · exact safe
    · obtain ⟨h2, some⟩ := not_or.mp idle
      exact safe.siblingEnds (eq_true_of_ne_false h2) some spares

/-! ## The result -/

/-- A session that is due and still there waits for a teardown that nothing will run. -/
theorem Due.stuck (due : Due st) (counted : Counted st) (alive : st.destroyed = 0) : Stuck st := by
  obtain ⟨finished, waits⟩ := due
  have once := counted.once
  cases h2 : st.h2 with
  | true =>
    have listed := counted.listed h2 finished alive
    simp only [h2, listed, Bool.true_eq_false, false_or, if_true] at waits
    refine ⟨finished, ?_, alive, waits⟩
    by_contra gone
    have absent := (counted.torn (eq_true_of_ne_false gone)).2.2
    simp [listed] at absent
  | false =>
    have present : st.destroying = false := by
      by_contra gone
      simp [h2, eq_true_of_ne_false gone, alive] at once
    simp only [h2, Bool.false_eq_true, if_false] at waits
    refine ⟨finished, present, alive, (counted.asked h2 finished).resolve_left ?_, waits⟩
    simp [present]

end TrueAsync.Ws

import Mathlib.Data.List.Induction
import TrueAsync.Lib.History
import TrueAsync.Websocket.Handshake

/-!
# The answer to an upgrade request

`ws_commit_upgrade` (`src/websocket/php_websocket.c`) with `http2_ws_accept`
(`src/http2/http2_strategy.c`), the methods that call it, and the end of the handler in
`ws_handler_coroutine_dispose` (`src/websocket/ws_dispatch.c`) and `ws_h2_handler_dispose`. The accept
response is written by the first method that needs the session, on whichever coroutine that is, or by
the end of the handler; an error response is written by the end of the handler only.

That the upgrade has been decided is kept in two objects. `committed` of the WebSocket is set at the
end of a commit, after steps that can fail with the response already on the wire; `committed` of the
upgrade object is never set.
-/

namespace TrueAsync.Ws

open TrueAsync.Lib TrueAsync.Http1 List

/-! ## The objects -/

/-- A final answer: the accept response, a 101 or over HTTP/2 a streaming 200, with the subprotocol
that it carries, or an error response. -/
inductive UpgradeAnswer where
  | accept (subprotocol : Option Bytes)
  | error (status : Nat)
deriving DecidableEq, Repr

/-- Where a commit fails; over HTTP/2 `build` is a stream that has lost its connection. -/
inductive CommitFailure where
  | noConnection
  | build
  | send
  | install
  | codec
deriving DecidableEq, Repr

/-- `websocket_object`, with the upgrade object it refers to. `h2Stream` says that it belongs to a
stream, `wsSession` that the stream has a session, `ended` that the handler's context is gone;
`answers` is what has been written to the peer. -/
structure WebsocketObject where
  h2Stream : Bool
  upgrade : Upgrade := {}
  committed : Bool := false
  closed : Bool := false
  session : Bool := false
  wsSession : Bool := false
  ended : Bool := false
  answers : List UpgradeAnswer := []
deriving DecidableEq, Repr

/-- How the handler's coroutine ends: the code of its exception, whether it was cancelled, and whether
the entry caught a bailout. -/
structure HandlerEnd where
  exception : Option Int := none
  cancelled : Bool := false
  bailout : Bool := false
deriving DecidableEq, Repr

namespace HandlerEnd

/-- `ws_handler_consume_exception`. -/
def consumeException (way : HandlerEnd) : Nat :=
  match way.exception with
  | none => 0
  | some code => if way.cancelled then 0 else if 400 ≤ code ∧ code ≤ 599 then code.toNat else 500

/-- The handler threw, and not because it was cancelled, or bailed out. -/
def failed (way : HandlerEnd) : Bool := way.consumeException ≠ 0 || way.bailout

/-- The status that answers a failed handler; zero without a failure. -/
def status (way : HandlerEnd) : Nat :=
  if way.failed then if way.consumeException ≠ 0 then way.consumeException else 500 else 0

end HandlerEnd

namespace WebsocketObject

/-! ## The commit -/

/-- An answer goes to the peer. -/
def write (w : WebsocketObject) (answer : UpgradeAnswer) : WebsocketObject :=
  { w with answers := w.answers ++ [answer] }

/-- The subprotocol as the accept response carries it: its builders take a C string, and that of the
101 leaves out an empty one. -/
def carried (w : WebsocketObject) : Option Bytes :=
  (w.upgrade.subprotocol.map cString).filter fun name => w.h2Stream || name ≠ []

/-- `http2_ws_accept`. -/
def http2WsAccept (w : WebsocketObject) (failure : Option CommitFailure) : WebsocketObject × Bool :=
  if w.wsSession then (w, true)
  else if failure = some .build ∨ failure = some .send then (w, false)
  else if failure = some .install then (w.write (.accept w.carried), false)
  else ({ w.write (.accept w.carried) with wsSession := true, session := true },
    failure ≠ some .codec)

/-- The second half of `ws_commit_upgrade`, for HTTP/1. -/
def accept101 (w : WebsocketObject) (installSession : Bool) (failure : Option CommitFailure) :
    WebsocketObject × Bool :=
  if failure = some .build then (w, false)
  else if failure = some .send then ({ w with closed := true }, false)
  else
    let sent := w.write (.accept w.carried)
    if ¬ installSession then ({ sent with committed := true }, true)
    else if failure = some .install then ({ sent with closed := true }, false)
    else if failure = some .codec then
      ({ sent with session := true, committed := true, closed := true }, false)
    else ({ sent with session := true, committed := true }, true)

/-- The second half of `ws_commit_upgrade`, for HTTP/2. -/
def acceptH2 (w : WebsocketObject) (failure : Option CommitFailure) : WebsocketObject × Bool :=
  let accepted := w.http2WsAccept failure
  if accepted.2 then ({ accepted.1 with committed := true }, true)
  else ({ accepted.1 with closed := true }, false)

/-- `ws_commit_upgrade`. -/
def wsCommitUpgrade (w : WebsocketObject) (installSession : Bool) (failure : Option CommitFailure) :
    WebsocketObject × Bool :=
  if w.committed then (w, true)
  else if failure = some .noConnection then (w, false)
  else if w.upgrade.rejectStatus ≠ 0 then (w, false)
  else if w.h2Stream then w.acceptH2 failure
  else w.accept101 installSession failure

/-! ## The methods -/

/-- `WebSocketUpgrade::reject`; a call that throws changes nothing. -/
def reject (w : WebsocketObject) (status : Int) (reason : Option Bytes) : WebsocketObject :=
  match w.upgrade.reject status reason with
  | .ok upgrade => { w with upgrade := upgrade }
  | .error _ => w

/-- `WebSocketUpgrade::setSubprotocol`. -/
def setSubprotocol (w : WebsocketObject) (name : Bytes) : WebsocketObject :=
  match w.upgrade.setSubprotocol name with
  | .ok upgrade => { w with upgrade := upgrade }
  | .error _ => w

/-- `WebSocket::close`; arguments that do not fit are found out after the commit. -/
def close (w : WebsocketObject) (fits : Bool) (failure : Option CommitFailure) : WebsocketObject :=
  if w.closed then w
  else
    let committed := w.wsCommitUpgrade true failure
    if committed.2 ∧ committed.1.session ∧ fits then { committed.1 with closed := true }
    else committed.1

/-- The status that the end of the handler answers with: an explicit `reject` wins. -/
def rejectStatus (w : WebsocketObject) (way : HandlerEnd) : Nat :=
  if w.upgrade.rejectStatus = 0 then way.status else w.upgrade.rejectStatus

/-- `ws_handler_coroutine_dispose` and `ws_h2_handler_dispose`, up to the CLOSE frame that reports a
failure on a committed session. `written` says that the error response goes out: it is built and its
write is submitted, or the peer has not closed the stream and the submission is taken. -/
def handlerDispose (w : WebsocketObject) (way : HandlerEnd) (failure : Option CommitFailure)
    (written : Bool) : WebsocketObject :=
  if w.ended then w
  else
    let answered :=
      if w.committed then w
      else if w.rejectStatus way ≠ 0 then
        if written then w.write (.error (w.rejectStatus way)) else w
      else (w.wsCommitUpgrade w.h2Stream failure).1
    { answered with closed := true, session := false, ended := true }

/-- What happens to an upgrade. `io` is any of `recv`, `send`, `ping` and the topic methods, which
start with the commit; it may run on any coroutine. -/
inductive Call where
  | reject (status : Int) (reason : Option Bytes)
  | setSubprotocol (name : Bytes)
  | io (failure : Option CommitFailure)
  | close (fits : Bool) (failure : Option CommitFailure)
  | handlerEnds (way : HandlerEnd) (failure : Option CommitFailure) (written : Bool)
deriving DecidableEq, Repr

/-- One call. -/
def step (w : WebsocketObject) : Call → WebsocketObject
  | .reject status reason => w.reject status reason
  | .setSubprotocol name => w.setSubprotocol name
  | .io failure => (w.wsCommitUpgrade true failure).1
  | .close fits failure => w.close fits failure
  | .handlerEnds way failure written => w.handlerDispose way failure written

/-- The object after a history, from `websocket_object_create_pre_commit`. -/
def run (h2Stream : Bool) (history : List Call) : WebsocketObject :=
  history.foldl step { h2Stream := h2Stream }

end WebsocketObject

open WebsocketObject

/-! ## One outcome -/

/-- The name that a call sets. -/
def WebsocketObject.Call.name : Call → Option Bytes
  | .setSubprotocol name => if name = [] then none else some name
  | _ => none

/-- The status that a call rejects with. -/
def WebsocketObject.Call.status : Call → Option Nat
  | .reject status _ => if status < 400 ∨ 599 < status then none else some status.toNat
  | _ => none

/-- The subprotocol last set. -/
def lastName (history : List Call) : Option Bytes := (history.filterMap Call.name).getLast?

/-- The status last rejected with. -/
def lastStatus (history : List Call) : Option Nat := (history.filterMap Call.status).getLast?

/-- What the first answer has to say: the subprotocol last set if nothing was rejected, or the status
of the last rejection; a handler that fails without one has a status of its own. -/
def Says (past : List Call) (call : Call) : UpgradeAnswer → Prop
  | .accept subprotocol => subprotocol = lastName past ∧ lastStatus past = none
  | .error status => lastStatus past = some status ∨ lastStatus past = none ∧
      ∃ way failure, call = .handlerEnds way failure true ∧ way.failed = true ∧ way.status = status

/-- The accept response is on the wire. -/
def Accepted101 (w : WebsocketObject) : Prop := ∃ subprotocol, .accept subprotocol ∈ w.answers

/-- The commit is stopped with nothing on the wire. -/
def Stops (failure : Option CommitFailure) : Prop :=
  failure = some .noConnection ∨ failure = some .build ∨ failure = some .send

/-- A commit puts the accept response on the wire. -/
def Opens (w : WebsocketObject) (failure : Option CommitFailure) : Prop :=
  w.committed = false ∧ w.upgrade.rejectStatus = 0 ∧ ¬ Stops failure

/-- The commit fails behind the accept response and is not recorded. A codec that cannot be set up is
such a failure over HTTP/2 only. -/
def Behind (w : WebsocketObject) (installSession : Bool) (failure : Option CommitFailure) : Prop :=
  installSession = true ∧ (failure = some .install ∨ w.h2Stream = true ∧ failure = some .codec)

/-- What a call has to find. After a commit `reject` and `setSubprotocol` come with arguments that are
refused anyway, and a name has no NUL. A method that opens the upgrade does so before the handler's end,
and its commit does not fail behind the response. The end of a handler that finds no commit answers:
its error response goes out, or its commit opens the upgrade. -/
def Orderly (w : WebsocketObject) : Call → Prop
  | .reject status _ => w.committed = true → status < 400 ∨ 599 < status
  | .setSubprotocol name => (w.committed = true → name = []) ∧ (0 : UInt8) ∉ name
  | .io failure => Opens w failure → w.ended = false ∧ ¬ Behind w true failure
  | .close _ failure =>
      w.closed = false → Opens w failure → w.ended = false ∧ ¬ Behind w true failure
  | .handlerEnds way failure written => w.ended = false → w.committed = false →
      if w.rejectStatus way ≠ 0 then written = true
      else Opens w failure ∧ ¬ Behind w w.h2Stream failure

/-! ## What a commit does -/

variable {w w' : WebsocketObject} {failure : Option CommitFailure} {installSession : Bool}

/-- A commit that is stopped closes the WebSocket at most. -/
theorem wsCommitUpgrade_stopped (bridged : w.wsSession = true → w.committed = true)
    (shut : ¬ Opens w failure) :
    ∃ closed, (w.wsCommitUpgrade installSession failure).1 = { w with closed } := by
  unfold wsCommitUpgrade
  split_ifs with committed absent rejected h2
  · exact ⟨_, rfl⟩
  · exact ⟨_, rfl⟩
  · exact ⟨_, rfl⟩
  all_goals
    -- neither recorded nor rejected, so it is the response that cannot be built or sent
    have stops : Stops failure := by
      by_contra goes
      exact shut ⟨eq_false_of_ne_true committed, not_not.mp rejected, goes⟩
    have refused : failure = some .build ∨ failure = some .send := stops.resolve_left absent
  · have unbridged : ¬ w.wsSession = true := fun session => committed (bridged session)
    unfold acceptH2 http2WsAccept
    rw [if_neg unbridged, if_pos refused]
    exact ⟨_, rfl⟩
  · unfold accept101
    split_ifs
    · exact ⟨_, rfl⟩
    · exact ⟨_, rfl⟩
    all_goals
      rcases refused with build | send
      all_goals contradiction

/-- A commit puts the accept response on the wire and is recorded. -/
def Told (w w' : WebsocketObject) : Prop :=
  ∃ closed session wsSession, w' = { w.write (.accept w.carried) with
    committed := true, closed, session, wsSession }

theorem accept101_told (goes : ¬ Stops failure) (whole : ¬ Behind w installSession failure) :
    Told w (w.accept101 installSession failure).1 := by
  unfold accept101
  split_ifs with build send full install codec
  · exact absurd (.inr (.inl build)) goes
  · exact absurd (.inr (.inr send)) goes
  · exact absurd ⟨full, .inl install⟩ whole
  · exact ⟨_, _, _, rfl⟩
  · exact ⟨_, _, _, rfl⟩
  · exact ⟨_, _, _, rfl⟩

theorem acceptH2_told (goes : ¬ Stops failure) (h2 : w.h2Stream = true)
    (unbridged : w.wsSession = false) (whole : ¬ Behind w true failure) :
    Told w (w.acceptH2 failure).1 := by
  have sent : ¬ (failure = some .build ∨ failure = some .send) := fun refused => goes (.inr refused)
  have installed : ¬ failure = some .install := fun install => whole ⟨rfl, .inl install⟩
  have codec : failure ≠ some .codec := fun codec => whole ⟨rfl, .inr ⟨h2, codec⟩⟩
  unfold acceptH2 http2WsAccept
  simp only [unbridged, Bool.false_eq_true, if_false, if_neg sent, if_neg installed, codec, ne_eq,
    not_false_eq_true, decide_true, if_true]
  exact ⟨_, _, _, rfl⟩

/-- The end of the handler installs a session over HTTP/2 only; over HTTP/2 every commit does. -/
theorem wsCommitUpgrade_told (opens : Opens w failure) (unbridged : w.wsSession = false)
    (full : w.h2Stream = true → installSession = true) (whole : ¬ Behind w installSession failure) :
    Told w (w.wsCommitUpgrade installSession failure).1 := by
  obtain ⟨fresh, taken, goes⟩ := opens
  have connected : ¬ failure = some .noConnection := fun absent => goes (.inl absent)
  rw [wsCommitUpgrade, if_neg (by simp [fresh]), if_neg connected, if_neg (by simp [taken])]
  split_ifs with h2
  · rw [full h2] at whole
    exact acceptH2_told goes h2 unbridged whole
  · exact accept101_told goes whole

/-! ## The object against its history -/

/-- The answer is still to come, or there is one. -/
inductive Answered (w : WebsocketObject) : Prop
  | pending (answers : w.answers = []) (committed : w.committed = false) (ended : w.ended = false)
      (session : w.wsSession = false)
  | accepted (name : Option Bytes) (answers : w.answers = [.accept name])
      (committed : w.committed = true)
  | refused (status : Nat) (answers : w.answers = [.error status]) (committed : w.committed = false)
      (ended : w.ended = true) (session : w.wsSession = false)

/-- The object agrees with the history of the calls that were made on it. -/
structure Tracks (past : List Call) (w : WebsocketObject) : Prop where
  unaware : w.upgrade.committed = false
  name : w.upgrade.subprotocol = lastName past
  plain : ∀ name ∈ w.upgrade.subprotocol, name ≠ [] ∧ (0 : UInt8) ∉ name
  status : lastStatus past =
    if w.upgrade.rejectStatus = 0 then none else some w.upgrade.rejectStatus
  answered : Answered w

theorem lastName_snoc (past : List Call) (call : Call) :
    lastName (past ++ [call]) = call.name.or (lastName past) := by
  rw [lastName, lastName, filterMap_append, getLast?_append]
  cases named : call.name <;> simp [named]

theorem lastStatus_snoc (past : List Call) (call : Call) :
    lastStatus (past ++ [call]) = call.status.or (lastStatus past) := by
  rw [lastStatus, lastStatus, filterMap_append, getLast?_append]
  cases rejected : call.status <;> simp [rejected]

theorem cString_plain {name : Bytes} (plain : (0 : UInt8) ∉ name) : cString name = name := by
  rw [cString, takeWhile_eq_self_iff]
  exact fun b listed => decide_eq_true fun zero => plain (zero ▸ listed)

theorem carried_eq (plain : ∀ name ∈ w.upgrade.subprotocol, name ≠ [] ∧ (0 : UInt8) ∉ name) :
    w.carried = w.upgrade.subprotocol := by
  unfold carried
  cases set : w.upgrade.subprotocol with
  | none => rfl
  | some name =>
    obtain ⟨some, absent⟩ := plain name set
    rw [Option.map_some, cString_plain absent]
    simp [some]

variable {past : List Call} {call : Call}

theorem Answered.committed (answered : Answered w) (accepted : Accepted101 w) :
    w.committed = true := by
  obtain ⟨name, listed⟩ := accepted
  cases answered with
  | pending answers _ _ _ | refused _ answers _ _ _ => simp [answers] at listed
  | accepted _ _ committed => exact committed

theorem Answered.bridged (answered : Answered w) (session : w.wsSession = true) :
    w.committed = true := by
  cases answered with
  | pending _ _ _ unbridged | refused _ _ _ _ unbridged => simp [session] at unbridged
  | accepted _ _ committed => exact committed

/-- What holds of an object whose upgrade is opened before the handler ends. -/
theorem Answered.fresh (answered : Answered w) (unmarked : w.committed = false)
    (running : w.ended = false) : w.answers = [] ∧ w.wsSession = false := by
  cases answered with
  | pending answers _ _ session => exact ⟨answers, session⟩
  | accepted _ _ committed => simp [unmarked] at committed
  | refused _ _ _ ended _ => simp [running] at ended

theorem Answered.keep (answered : Answered w) (answers : w'.answers = w.answers)
    (committed : w'.committed = w.committed) (ended : w'.ended = w.ended)
    (session : w'.wsSession = w.wsSession) : Answered w' := by
  cases answered with
  | pending none unmarked running unbridged =>
    exact .pending (answers.trans none) (committed.trans unmarked) (ended.trans running)
      (session.trans unbridged)
  | accepted name one mark => exact .accepted name (answers.trans one) (committed.trans mark)
  | refused status one unmarked finished unbridged =>
    exact .refused status (answers.trans one) (committed.trans unmarked) (ended.trans finished)
      (session.trans unbridged)

/-! ## What a call does -/

/-- One call more: the object still agrees with the history, and a first answer is the right one. -/
def Advances (past : List Call) (call : Call) (w w' : WebsocketObject) : Prop :=
  Tracks (past ++ [call]) w' ∧ (w.answers = [] → ∀ answer ∈ w'.answers, Says past call answer)

/-- A call that writes no answer. -/
theorem Advances.silent (tracks : Tracks (past ++ [call]) w') (answers : w'.answers = w.answers) :
    Advances past call w w' := by
  refine ⟨tracks, fun none answer listed => ?_⟩
  rw [answers, none] at listed
  cases listed

section

variable (tracks : Tracks past w)
include tracks

theorem Tracks.unrejected (zero : w.upgrade.rejectStatus = 0) : lastStatus past = none := by
  rw [tracks.status, if_pos zero]

/-- A call that does not touch the upgrade object. -/
theorem Tracks.snoc (unnamed : call.name = none) (unrejected : call.status = none)
    (upgrade : w'.upgrade = w.upgrade) (answered : Answered w') : Tracks (past ++ [call]) w' where
  unaware := by
    rw [upgrade]
    exact tracks.unaware
  name := by
    rw [upgrade, lastName_snoc, unnamed, Option.none_or]
    exact tracks.name
  plain := by
    rw [upgrade]
    exact tracks.plain
  status := by
    rw [upgrade, lastStatus_snoc, unrejected, Option.none_or]
    exact tracks.status
  answered := answered

theorem Tracks.silent (unnamed : call.name = none) (unrejected : call.status = none)
    (upgrade : w'.upgrade = w.upgrade) (answers : w'.answers = w.answers) (answered : Answered w') :
    Advances past call w w' :=
  .silent (tracks.snoc unnamed unrejected upgrade answered) answers

theorem Tracks.reject (status : Int) (reason : Option Bytes) :
    Advances past (.reject status reason) w (w.reject status reason) := by
  unfold WebsocketObject.reject Upgrade.reject
  rw [tracks.unaware, if_neg Bool.false_ne_true]
  by_cases bad : status < 400 ∨ 599 < status
  · rw [if_pos bad]
    exact tracks.silent rfl (if_pos bad) rfl rfl tracks.answered
  · rw [if_neg bad]
    refine .silent ⟨rfl, ?_, tracks.plain, ?_, ?_⟩ rfl
    · rw [lastName_snoc]
      exact tracks.name
    · have rejects : Call.status (.reject status reason) = some status.toNat := if_neg bad
      have some : status.toNat ≠ 0 := by omega
      rw [lastStatus_snoc, rejects, if_neg some]
      rfl
    · exact tracks.answered.keep rfl rfl rfl rfl

theorem Tracks.setSubprotocol (name : Bytes) (plain : (0 : UInt8) ∉ name) :
    Advances past (.setSubprotocol name) w (w.setSubprotocol name) := by
  unfold WebsocketObject.setSubprotocol Upgrade.setSubprotocol
  rw [tracks.unaware, if_neg Bool.false_ne_true]
  by_cases empty : name = []
  · rw [if_pos empty]
    exact tracks.silent (if_pos empty) rfl rfl rfl tracks.answered
  · rw [if_neg empty]
    refine .silent ⟨rfl, ?_, ?_, ?_, ?_⟩ rfl
    · have names : Call.name (.setSubprotocol name) = some name := if_neg empty
      rw [lastName_snoc, names]
      rfl
    · rintro _ ⟨⟩
      exact ⟨empty, plain⟩
    · rw [lastStatus_snoc]
      exact tracks.status
    · exact tracks.answered.keep rfl rfl rfl rfl

/-- A call that commits; what it does then leaves the answers and the mark alone. -/
theorem Tracks.commit {closed session ended : Bool} (unnamed : call.name = none)
    (unrejected : call.status = none) (full : w.h2Stream = true → installSession = true)
    (orderly : Opens w failure → w.ended = false ∧ ¬ Behind w installSession failure)
    (ends : ended = (w.wsCommitUpgrade installSession failure).1.ended ∨ Opens w failure) :
    Advances past call w
      { (w.wsCommitUpgrade installSession failure).1 with closed, session, ended } := by
  by_cases opens : Opens w failure
  · obtain ⟨running, whole⟩ := orderly opens
    obtain ⟨none, unbridged⟩ := tracks.answered.fresh opens.1 running
    obtain ⟨_, _, _, told⟩ := wsCommitUpgrade_told opens unbridged full whole
    rw [told]
    have one : w.answers ++ [.accept w.carried] = [.accept w.upgrade.subprotocol] := by
      rw [none, nil_append, carried_eq tracks.plain]
    refine ⟨tracks.snoc unnamed unrejected rfl (.accepted _ one rfl), fun _ answer listed => ?_⟩
    have listed : answer ∈ w.answers ++ [.accept w.carried] := listed
    rw [one, mem_singleton] at listed
    rw [listed]
    exact ⟨tracks.name, tracks.unrejected opens.2.1⟩
  · obtain ⟨_, stopped⟩ : ∃ closed, (w.wsCommitUpgrade installSession failure).1 = { w with closed } :=
      wsCommitUpgrade_stopped tracks.answered.bridged opens
    rw [ends.resolve_right opens, stopped]
    exact tracks.silent unnamed unrejected rfl rfl (tracks.answered.keep rfl rfl rfl rfl)

theorem Tracks.close (fits : Bool) (orderly : Orderly w (.close fits failure)) :
    Advances past (.close fits failure) w (w.close fits failure) := by
  unfold WebsocketObject.close
  split_ifs with closed
  · exact tracks.silent rfl rfl rfl rfl tracks.answered
  · have orderly := orderly (eq_false_of_ne_true closed)
    dsimp only
    split_ifs
    all_goals exact tracks.commit rfl rfl (fun _ => rfl) orderly (.inl rfl)

theorem Tracks.error_right (way : HandlerEnd) (rejected : w.rejectStatus way ≠ 0) :
    Says past (.handlerEnds way failure true) (.error (w.rejectStatus way)) := by
  unfold rejectStatus at rejected ⊢
  split_ifs at rejected ⊢ with zero
  · refine .inr ⟨tracks.unrejected zero, way, failure, rfl, ?_, rfl⟩
    by_contra fine
    simp [HandlerEnd.status, fine] at rejected
  · exact .inl (tracks.status.trans (if_neg zero))

theorem Tracks.handlerEnds (way : HandlerEnd) (written : Bool)
    (orderly : Orderly w (.handlerEnds way failure written)) :
    Advances past (.handlerEnds way failure written) w (w.handlerDispose way failure written) := by
  unfold handlerDispose
  split_ifs with ended committed rejected goes
  · exact tracks.silent rfl rfl rfl rfl tracks.answered
  · refine tracks.silent rfl rfl rfl rfl ?_
    cases tracks.answered with
    | accepted name one mark => exact .accepted name one mark
    | pending _ unmarked _ _ | refused _ _ unmarked _ _ => simp [committed] at unmarked
  all_goals
    have running := eq_false_of_ne_true ended
    have unmarked := eq_false_of_ne_true committed
    have orderly := orderly running unmarked
  · obtain ⟨none, session⟩ := tracks.answered.fresh unmarked running
    have one : w.answers ++ [.error (w.rejectStatus way)] = [.error (w.rejectStatus way)] := by
      rw [none, nil_append]
    subst goes
    refine ⟨tracks.snoc rfl rfl rfl (.refused _ one unmarked rfl session), fun _ answer listed => ?_⟩
    have listed : answer ∈ w.answers ++ [.error (w.rejectStatus way)] := listed
    rw [one, mem_singleton] at listed
    rw [listed]
    exact tracks.error_right way rejected
  · rw [if_pos rejected] at orderly
    contradiction
  · rw [if_neg rejected] at orderly
    exact tracks.commit rfl rfl id (fun _ => ⟨running, orderly.2⟩) (.inr orderly.1)

theorem Tracks.step (orderly : Orderly w call) : Advances past call w (w.step call) := by
  cases call with
  | reject status reason => exact tracks.reject status reason
  | setSubprotocol name => exact tracks.setSubprotocol name orderly.2
  | io failure => exact tracks.commit rfl rfl (fun _ => rfl) orderly (.inl rfl)
  | close fits failure => exact tracks.close fits orderly
  | handlerEnds way failure written => exact tracks.handlerEnds way written orderly

end

/-! ## The result -/

end TrueAsync.Ws

import Mathlib.Data.List.Perm.Basic
import TrueAsync.Core.Output
import TrueAsync.Lib.History

/-!
# Lifetime of a connection under its batched writers

The flag `out_in_flight` is what keeps a connection alive while the reactor holds one of its
buffers. It does so as long as the pending buffer can be submitted when a write ends. A failure
there runs the next completion first, which clears the flag and may destroy the connection; the
code after the failed submit then works on a connection that is gone, or clears the flag again.

The number of clears that are not matched by a set, and the number of writes that the flag does
not know of, are carried as parameters: both are zero in an orderly run, and a failed submit of
the pending buffer raises one of them for good.
-/

namespace TrueAsync.Core

open TrueAsync.Lib OutState Returns WriteCb List

def OutState.inFlight (st : OutState) : Nat :=
  match st.conn with
  | some c => c.outInFlight.toNat
  | none => 0

/-- How many writes with a callback on the connection the reactor holds. -/
def OutState.held (st : OutState) : Nat := st.outstanding.countP (· ≠ .direct)

/-- A destroy that has not run waits for a write, a handler, the parser or its microtask. -/
def Due (st : OutState) : Prop :=
  st.requested = true → ∀ c, st.conn = some c → c.outInFlight = true ∨
    0 < c.handlerRefcount ∨ c.inParserFeed = true ∨ c.destroyMicrotask = true

/-- What is expected between two events. -/
structure Good (st : OutState) : Prop where
  /-- The flag is cleared once for each time it is set. -/
  cleared : st.sets = st.clears + st.inFlight
  /-- It is up while the reactor holds a batched write, so none is left when the connection is
  destroyed. -/
  tracked : st.held = st.inFlight
  /-- The connection is destroyed once. -/
  once : st.destroys = if st.conn = none then 1 else 0
  asked : st.conn = none → st.requested = true
  due : Due st

/-- What holds inside a completion too, with `extra` clears too many and `stray` writes that the
flag does not know of. -/
structure Steady (extra stray : Nat) (st : OutState) : Prop where
  cleared : st.sets + extra = st.clears + st.inFlight
  tracked : st.held = st.inFlight + stray
  once : st.destroys = if st.conn = none then 1 else 0
  asked : st.conn = none → st.requested = true
  pends : ∀ c, st.conn = some c → c.destroyPending = st.requested
  idle : ∀ c, st.conn = some c → c.outInFlight = false → c.outPending = []

/-- The invariant. -/
structure Kept (extra stray : Nat) (st : OutState) : Prop extends Steady extra stray st where
  due : Due st

/-- The write in flight has ended and nothing is pending. -/
structure Ended (extra stray : Nat) (st : OutState) (c : OutConn) : Prop where
  here : st.conn = some c
  cleared : st.sets + extra = st.clears + 1
  tracked : st.held = stray
  once : st.destroys = 0
  pends : c.destroyPending = st.requested
  empty : c.outPending = []

/-- The write in flight has ended, and what is pending is to be taken. -/
structure Ending (extra stray : Nat) (st : OutState) (c : OutConn) : Prop where
  here : st.conn = some c
  busy : c.outInFlight = true
  taken : Ended extra stray { st with conn := some { c with outPending := [] } }
    { c with outPending := [] }

def OutConn.doomed (c : OutConn) : Bool :=
  c.destroyPending && decide (c.handlerRefcount = 0) && !c.inParserFeed

/-- The connection is there, with the same holds on it and nothing pending. -/
def Alive (c : OutConn) (st : OutState) : Prop :=
  ∃ c', st.conn = some c' ∧ c'.outPending = [] ∧ c'.destroyPending = c.destroyPending ∧
    c'.handlerRefcount = c.handlerRefcount ∧ c'.inParserFeed = c.inParserFeed

/-- After a completion the connection is there, or gone if it was doomed. -/
def After (extra stray : Nat) (c : OutConn) (st : OutState) : Prop :=
  Kept extra stray st ∧ (c.doomed = false → Alive c st) ∧ (c.doomed = true → st.conn = none)

def Ends (callback : OutAction) : Prop :=
  ∀ extra stray st c, Ended extra stray st c → Returns (callback st) (After extra stray c)

/-- What the HTTP/2 session does when it is asked, on a connection that is not to be destroyed. -/
def Emits (emit : OutAction) : Prop :=
  ∀ extra stray st c, Kept extra stray st → st.conn = some c → c.outPending = [] →
    ¬ (c.destroyPending = true ∧ c.handlerRefcount = 0) →
    Returns (emit st) fun st' => Kept extra stray st' ∧ Alive c st'

variable {st : OutState}

theorem Kept.good (kept : Kept 0 0 st) : Good st := { kept with }

variable {extra stray : Nat} {c : OutConn}

theorem Alive.refl (here : st.conn = some c) (empty : c.outPending = []) : Alive c st :=
  ⟨c, here, empty, rfl, rfl, rfl⟩

theorem inFlight_of (here : st.conn = some c) : st.inFlight = c.outInFlight.toNat := by
  unfold inFlight
  rw [here]

/-- What a change of the connection alone has to respect. -/
theorem Steady.change (steady : Steady extra stray st) (here : st.conn = some c)
    (flag : c'.outInFlight = c.outInFlight) (idle : c'.outInFlight = false → c'.outPending = [])
    (pends : c'.destroyPending = asks)
    (due : asks = true → c'.outInFlight = true ∨ 0 < c'.handlerRefcount ∨
      c'.inParserFeed = true ∨ c'.destroyMicrotask = true) :
    Kept extra stray { st with conn := some c', requested := asks } := by
  have same : OutState.inFlight { st with conn := some c', requested := asks } = st.inFlight := by
    rw [inFlight_of here, inFlight_of rfl, flag]
  have once := steady.once
  rw [here, if_neg nofun] at once
  exact {
    cleared := by
      rw [same]
      exact steady.cleared
    tracked := by
      rw [same]
      exact steady.tracked
    once := once
    asked := nofun
    due := by
      rintro asked _ ⟨⟩
      exact due asked
    pends := by
      rintro _ ⟨⟩
      exact pends
    idle := by
      rintro _ ⟨⟩
      exact idle }

theorem Steady.destroy (steady : Steady extra stray st) (here : st.conn = some c)
    (flag : c'.outInFlight = c.outInFlight) (pending : c'.outPending = c.outPending) :
    Kept extra stray (st.destroyed c') := by
  unfold destroyed
  split
  · rename_i gates
    refine steady.change here flag (fun free => ?_) rfl fun _ => ?_
    · exact pending.trans (steady.idle c here (flag.symm.trans free))
    · grind
  · rename_i gates
    have free : c.outInFlight = false := by
      rw [← flag]
      simp_all
    have cleared := steady.cleared
    have tracked := steady.tracked
    have once := steady.once
    rw [here, if_neg nofun] at once
    rw [inFlight_of here, free] at cleared tracked
    exact {
      cleared := cleared
      tracked := tracked
      once := by simp [once]
      asked := fun _ => rfl
      due := nofun
      pends := nofun
      idle := nofun }

/-! ## Completions -/

variable {emit : OutAction}

theorem Ended.clear (ended : Ended extra stray st c) : Steady extra stray { st with
    conn := some { c with outInFlight := false }, clears := st.clears + 1 } where
  cleared := ended.cleared
  tracked := ended.tracked.trans (Nat.zero_add stray).symm
  once := ended.once
  asked := nofun
  pends := by
    rintro _ ⟨⟩
    exact ended.pends
  idle := by
    rintro _ ⟨⟩ _
    exact ended.empty

/-- `http_send_batched_finish` clears the flag, and destroys the connection if that was due. -/
theorem httpSendBatchedFinish_ends (emits : Emits emit) : Ends (httpSendBatchedFinish emit) := by
  intro extra stray st c ended
  unfold httpSendBatchedFinish
  rw [clearInFlight_of ended.here, ok_bind, read_of rfl, ok_bind]
  dsimp only
  split
  · rename_i due
    rw [resumeDestroy_of rfl]
    refine .ok ⟨ended.clear.destroy rfl rfl rfl, fun spared => ?_, fun doomed => ?_⟩
    · have feed : c.inParserFeed = true := by simpa [OutConn.doomed, due] using spared
      rw [destroyed, if_pos (.inr (.inr feed))]
      exact ⟨_, rfl, ended.empty, due.1.symm, rfl, rfl⟩
    · have feed : c.inParserFeed = false := by simpa [OutConn.doomed, due] using doomed
      rw [destroyed, if_neg (by simp [due.2, feed])]
  · rename_i quiet
    have kept : Kept extra stray { st with
        conn := some { c with outInFlight := false }, clears := st.clears + 1 } :=
      { ended.clear with due := by grind [Due, Ended.pends] }
    refine (emits extra stray _ _ kept rfl ended.empty quiet).mono fun st' ⟨kept', alive⟩ => ?_
    refine ⟨kept', fun _ => alive, fun doomed => ?_⟩
    grind [OutConn.doomed]

theorem completeBatched_empty (outcome : Outcome) (callback : OutAction)
    (here : st.conn = some c) (empty : c.outPending = []) :
    completeBatched emit outcome callback st = httpSendBatchedFinish emit st := by
  unfold completeBatched
  rw [read_of here, ok_bind, if_pos empty]

theorem httpSendBatchedCompletionCb_eq (drains : List Outcome) :
    httpSendBatchedCompletionCb emit drains = completeBatched emit (drains.headD .queued)
      (httpSendBatchedCompletionCb emit drains.tail) := by
  cases drains <;> rfl

theorem httpSendBatchedCompletionCb_ends (emits : Emits emit) (drains : List Outcome) :
    Ends (httpSendBatchedCompletionCb emit drains) := by
  intro extra stray st c ended
  rw [httpSendBatchedCompletionCb_eq, completeBatched_empty _ _ ended.here ended.empty]
  exact httpSendBatchedFinish_ends emits extra stray st c ended

variable {again : OutAction}

theorem httpSendBatchedZstrCompletionCb_ends (emits : Emits again)
    (drains : List Outcome) : Ends (httpSendBatchedZstrCompletionCb emit again drains) := by
  intro extra stray st c ended
  unfold httpSendBatchedZstrCompletionCb h1BatchedDrainPending
  rw [read_of ended.here, ok_bind, if_pos ended.empty]
  exact httpSendBatchedFinish_ends emits extra stray st c ended

theorem httpSendBatchedWritevCompletionCb_ends (emits : Emits emit) (drains : List Outcome) :
    Ends (httpSendBatchedWritevCompletionCb emit drains) := by
  intro extra stray st c ended
  rw [httpSendBatchedWritevCompletionCb_of ended.here]
  exact httpSendBatchedCompletionCb_ends emits drains extra stray _ { c with outWritevUser := none }
    { ended with here := rfl }

theorem httpAbsorb_gone (gone : st.conn = none) :
    httpAbsorbIoSubmissionException st = .error .freed := by
  unfold httpAbsorbIoSubmissionException OutState.read
  rw [gone]
  rfl

theorem outSignalDrain_gone (gone : st.conn = none) : outSignalDrain st = .error .freed := by
  unfold outSignalDrain OutState.read
  rw [gone]
  rfl

/-- After a submit the connection is there, unless its callback has run and it was doomed. -/
def Submitted (extra stray : Nat) (c : OutConn) (outcome : Outcome) (out : Bool × OutState) : Prop :=
  out.1 = decide (outcome ≠ .failed) ∧ Kept extra stray out.2 ∧
    (outcome = .queued ∨ c.doomed = false → Alive c out.2) ∧
    (outcome ≠ .queued → c.doomed = true → out.2.conn = none)

variable {cb : WriteCb} {callback : OutAction} {outcome : Outcome}

section

variable (ended : Ended extra stray st c) (busy : c.outInFlight = true) (batched : cb ≠ .direct)
  (ends : Ends callback)
include ended busy batched ends

theorem zendAsyncIoWriteEx_keeps (outcome : Outcome) (chunks : List Chunk) :
    Returns (zendAsyncIoWriteEx outcome chunks cb callback st)
      (Submitted extra stray c outcome) := by
  unfold zendAsyncIoWriteEx
  rw [read_of ended.here, ok_bind]
  cases outcome with
  | queued =>
    refine .pure ⟨rfl, ?_, fun _ => .refl ended.here ended.empty, fun other => absurd rfl other⟩
    have flag : inFlight { st with
        wire := st.wire ++ chunks, outstanding := st.outstanding ++ [cb] } = 1 := by
      refine (inFlight_of ended.here).trans ?_
      rw [busy]
      rfl
    have stillHere : ∀ c', st.conn = some c' → c' = c :=
      fun c' found => Option.some.inj (found.symm.trans ended.here)
    exact {
      cleared := by rw [flag]; exact ended.cleared
      tracked := by
        have tracked := ended.tracked
        grind [held]
      once := by
        rw [ended.here, if_neg nofun]
        exact ended.once
      asked := by
        rw [ended.here]
        nofun
      due := fun _ c' found => .inl (stillHere c' found ▸ busy)
      pends := fun c' found => stillHere c' found ▸ ended.pends
      idle := fun c' found _ => stillHere c' found ▸ ended.empty }
  | done | failed =>
    refine (ends extra stray _ c ?_).bind fun st' ⟨kept, alive, gone⟩ => ?_
    · exact { ended with }
    · exact .pure ⟨rfl, kept, fun spared => alive (spared.resolve_left nofun), fun _ => gone⟩

theorem submit_keeps (spared : outcome = .failed → c.doomed = false) (chunks : List Chunk) :
    Returns (submit outcome chunks cb callback st) (Submitted extra stray c outcome) := by
  refine (zendAsyncIoWriteEx_keeps ended busy batched ends outcome chunks).bind ?_
  rintro ⟨submitted, st'⟩ sent
  cases submitted with
  | true => exact .pure sent
  | false =>
    have failed : outcome = .failed := by simpa using sent.1
    obtain ⟨c', here', -⟩ := sent.2.2.1 (.inr (spared failed))
    show Returns (httpAbsorbIoSubmissionException st' >>= _) _
    rw [httpAbsorb_of here']
    exact .ok sent

theorem submit_breaks (doomed : c.doomed = true) (chunks : List Chunk) :
    submit .failed chunks cb callback st = .error .freed := by
  obtain ⟨⟨submitted, st'⟩, done, result, -, -, gone⟩ :=
    zendAsyncIoWriteEx_keeps ended busy batched ends .failed chunks
  obtain rfl : submitted = false := result
  unfold submit
  rw [done, ok_bind]
  dsimp only
  rw [if_neg nofun, httpAbsorb_gone (gone nofun doomed)]
  rfl

end

variable {drains : List Outcome}

theorem Ending.ended (ending : Ending extra stray st c) (empty : c.outPending = []) :
    Ended extra stray st c := by
  have ended := ending.taken
  have same : { c with outPending := [] } = c := by rw [← empty]
  rwa [same, ← ending.here] at ended

theorem submitPending_keeps (ending : Ending extra stray st c) (ends : Ends callback)
    (taken : outcome ≠ .failed) : Returns (submitPending outcome callback st)
      (Submitted extra stray { c with outPending := [] } outcome) := by
  unfold submitPending
  rw [read_of ending.here, ok_bind, write_of ending.here, ok_bind]
  have batched : batched ≠ .direct := nofun
  refine (submit_keeps ending.taken ending.busy batched ends (fun fails => absurd fails taken)
    c.outPending).bind ?_
  rintro ⟨submitted, st'⟩ sent
  obtain rfl : submitted = true := sent.1.trans (decide_eq_true taken)
  exact .pure sent

theorem completeBatched_keeps (emits : Emits emit) (ends : Ends callback)
    (ending : Ending extra stray st c) (submits : c.outPending ≠ [] →
      outcome ≠ .failed ∧ (outcome = .done → c.doomed = false)) :
    Returns (completeBatched emit outcome callback st) (Kept extra stray) := by
  by_cases empty : c.outPending = []
  · rw [completeBatched_empty outcome callback ending.here empty]
    exact (httpSendBatchedFinish_ends emits extra stray st c (ending.ended empty)).mono
      fun _ after => after.1
  obtain ⟨taken, spared⟩ := submits empty
  unfold completeBatched
  rw [read_of ending.here, ok_bind, if_neg empty]
  refine (submitPending_keeps ending ends taken).bind ?_
  rintro ⟨submitted, st'⟩ ⟨result, kept, alive, -⟩
  obtain rfl : submitted = true := result.trans (decide_eq_true taken)
  obtain ⟨c', here', -⟩ := alive (by
    cases outcome with
    | queued => exact .inl rfl
    | done => exact .inr (spared rfl)
    | failed => exact absurd rfl taken)
  show Returns (outSignalDrain st') _
  rw [outSignalDrain_of here']
  exact .ok kept

/-- The same for the callback of `send_zstr_batched`, which touches the connection only when the
submit has failed. -/
theorem httpSendBatchedZstrCompletionCb_keeps (emits : Emits emit) (emitsAgain : Emits again)
    (ending : Ending extra stray st c)
    (submits : c.outPending ≠ [] → drains.headD .queued ≠ .failed) :
    Returns (httpSendBatchedZstrCompletionCb emit again drains st) (Kept extra stray) := by
  by_cases empty : c.outPending = []
  · have ends : Ends (httpSendBatchedZstrCompletionCb emit again drains) :=
      httpSendBatchedZstrCompletionCb_ends emitsAgain drains
    exact (ends extra stray st c (ending.ended empty)).mono fun _ after => after.1
  have taken := submits empty
  unfold httpSendBatchedZstrCompletionCb h1BatchedDrainPending
  rw [read_of ending.here, ok_bind, if_neg empty]
  obtain ⟨⟨submitted, st'⟩, done, result, kept, -⟩ :=
    submitPending_keeps ending (httpSendBatchedCompletionCb_ends emits drains.tail) taken
  obtain rfl : submitted = true := result.trans (decide_eq_true taken)
  rw [done]
  exact .ok kept

theorem Ending.released (ending : Ending extra stray st c) (released : List Nat) :
    Ending extra stray { st with conn := some { c with outWritevUser := none }, released }
      { c with outWritevUser := none } := by
  obtain ⟨_, cleared, tracked, once, pends, _⟩ := ending.taken
  exact ⟨rfl, ending.busy, rfl, cleared, tracked, once, pends, rfl⟩

/-- An outcome that the environment does not give is a write that the reactor takes. -/
theorem headD_queued (outcome : Outcome) (other : outcome ≠ .queued) :
    drains.headD .queued = outcome ↔ drains.head? = some outcome := by
  cases drains with
  | nil => simp [other.symm]
  | cons _ _ => simp

/-! ## Writers -/

theorem Kept.raise (kept : Kept extra stray st) (here : st.conn = some c)
    (free : c.outInFlight = false) : Ended extra stray
      { st with conn := some { c with outInFlight := true }, sets := st.sets + 1 }
      { c with outInFlight := true } where
  here := rfl
  cleared := by
    grind [Steady.cleared, inFlight_of, kept.toSteady]
  tracked := by
    have tracked := kept.tracked
    rw [inFlight_of here, free, Bool.toNat_false, Nat.zero_add] at tracked
    exact tracked
  once := by
    grind [Steady.once, kept.toSteady]
  pends := kept.pends c here
  empty := kept.idle c here free

/-- After a call with nothing in flight the connection is there, unless it was doomed. -/
def Sent (extra stray : Nat) (c : OutConn) (out : Bool × OutState) : Prop :=
  Kept extra stray out.2 ∧ (c.outInFlight = false → c.doomed = false → Alive c out.2)

theorem Kept.ask (kept : Kept extra stray st) (bufs : List Bytes) :
    Kept extra stray (st.ask bufs) :=
  { kept with }

theorem Kept.stash (kept : Kept extra stray st) (here : st.conn = some c) (user : Option Nat) :
    Kept extra stray { st with conn := some { c with outWritevUser := user } } :=
  kept.change here rfl (kept.idle c here) (kept.pends c here) fun requested =>
    kept.due requested c here

theorem Kept.append (kept : Kept extra stray st) (here : st.conn = some c)
    (busy : c.outInFlight = true) (chunks : List Chunk) :
    Kept extra stray { st with conn := some { c with outPending := c.outPending ++ chunks } } :=
  kept.change here rfl (fun free => by simp [busy] at free) (kept.pends c here) fun _ => .inl busy

theorem sendBatchedBuf_keeps (batched : cb ≠ .direct) (ends : Ends callback)
    (kept : Kept extra stray st) (here : st.conn = some c)
    (spared : buf ≠ [] → c.writeTimedOut = false → c.outInFlight = false → outcome = .failed →
      c.doomed = false) :
    Returns (sendBatchedBuf cb callback outcome buf st) (Sent extra stray c) := by
  unfold sendBatchedBuf
  split
  · exact .pure ⟨kept, fun free _ => .refl here (kept.idle c here free)⟩
  rename_i bytes
  rw [read_of here, ok_bind]
  dsimp only
  split
  · exact .pure ⟨{ kept with }, fun free _ => .refl here (kept.idle c here free)⟩
  rename_i inTime
  have asked : (st.ask [buf]).conn = some c := here
  split
  · rename_i busy
    rw [write_of asked, ok_bind]
    exact .pure ⟨(kept.ask [buf]).append asked busy _,
      fun free => absurd busy (Bool.eq_false_iff.mp free)⟩
  · rename_i free
    have free := Bool.eq_false_iff.mpr free
    rw [setInFlight_of asked, ok_bind]
    have sent := submit_keeps ((kept.ask [buf]).raise asked free) rfl batched ends
      (spared bytes (Bool.eq_false_iff.mpr inTime) free) (st.slices [buf])
    exact sent.mono fun _ ⟨_, kept', alive, _⟩ => ⟨kept', fun _ safe => alive (.inr safe)⟩

variable {iov : List Bytes}

theorem httpConnectionSendBatchedWritev_keeps (emits : Emits emit) (kept : Kept extra stray st)
    (here : st.conn = some c) (drains : List Outcome)
    (spared : iov ≠ [] → c.writeTimedOut = false → c.outInFlight = false → outcome = .failed →
      c.doomed = false) :
    Returns (httpConnectionSendBatchedWritev emit drains outcome iov st) (Sent extra stray c) := by
  have asked : (st.ask iov).conn = some c := here
  unfold httpConnectionSendBatchedWritev
  rw [read_of here, ok_bind]
  dsimp only
  split
  · exact .pure ⟨{ kept with }, fun free _ => .refl here (kept.idle c here free)⟩
  rename_i slices
  split
  · exact .pure ⟨{ kept with }, fun free _ => .refl here (kept.idle c here free)⟩
  rename_i inTime
  split
  · rename_i busy
    rw [write_of asked, ok_bind]
    exact .pure ⟨{ (kept.ask iov).append asked busy (st.slices iov) with },
      fun free => absurd busy (Bool.eq_false_iff.mp free)⟩
  · rename_i free
    have free := Bool.eq_false_iff.mpr free
    have stashed := (kept.ask iov).stash asked (some st.calls)
    rw [write_of asked, ok_bind, setInFlight_of rfl, ok_bind]
    have batched : writev ≠ .direct := nofun
    have sent := submit_keeps (stashed.raise rfl free) rfl batched
      (httpSendBatchedWritevCompletionCb_ends emits drains)
      (spared slices (Bool.eq_false_iff.mpr inTime) free) (st.slices iov)
    exact sent.mono fun _ ⟨_, kept', alive, _⟩ => ⟨kept', fun _ safe => alive (.inr safe)⟩

/-- The HTTP/2 session writes on a connection that nobody wants to destroy yet, so a failed
submit cannot take the connection away. -/
theorem http2ConnNotifyEmit_emits (emits : List Emission) : Emits (http2ConnNotifyEmit emits) := by
  induction emits with
  | nil =>
    intro extra stray st c kept here empty _
    unfold http2ConnNotifyEmit
    rw [read_of here]
    exact .ok ⟨kept, .refl here empty⟩
  | cons e later ih =>
    intro extra stray st c kept here empty wanted
    have safe : c.doomed = false := by grind [OutConn.doomed]
    unfold http2ConnNotifyEmit
    rw [read_of here, ok_bind]
    split
    · rename_i ready
      refine (httpConnectionSendBatchedWritev_keeps ih kept here e.drains
        fun _ _ _ _ => safe).bind fun out ⟨kept', alive⟩ => ?_
      exact .pure ⟨kept', alive ready.2.2 safe⟩
    · exact .pure ⟨kept, .refl here empty⟩

theorem sendDirect_keeps (kept : Kept extra stray st) (here : st.conn = some c) (outcome : Outcome)
    (bufs : List Bytes) :
    Returns (sendDirect outcome bufs st) fun out => Kept extra stray out.2 := by
  cases late : c.writeTimedOut with
  | true =>
    unfold sendDirect
    rw [read_of here, ok_bind]
    simp only [late, if_true]
    exact pure { kept with }
  | false =>
    rw [sendDirect_eq here late]
    apply ok
    cases outcome with
    | queued =>
      refine { kept with tracked := Eq.trans ?_ kept.tracked }
      exact countP_append
    | done | failed => exact { kept with }

/-! ## Events -/

/-- The call hands a batched write of its own to the reactor. -/
def Writer.submits (c : OutConn) : Writer → Prop
  | .batched buf => buf ≠ [] ∧ c.writeTimedOut = false ∧ c.outInFlight = false
  | .zstrBatched body => body ≠ [] ∧ c.writeTimedOut = false ∧ c.outInFlight = false
  | .batchedWritev iov => iov ≠ [] ∧ c.writeTimedOut = false ∧ c.outInFlight = false
  | _ => False

/-- The condition on an event. When a write ends, what is pending can be submitted; and a submit
whose callback runs at once does not find a connection that this callback destroys, where the
code goes on with it. -/
def Survives (st : OutState) : OutEvent → Prop
  | .send w env => ∀ c, st.conn = some c → w.submits c → env.outcome = .failed → c.doomed = false
  | .complete i env => ∀ cb c, st.outstanding[i]? = some cb → cb ≠ .direct → st.conn = some c →
      c.outPending ≠ [] → env.drains.head? ≠ some .failed ∧
        (cb ≠ .zstr → env.drains.head? = some .done → c.doomed = false)
  | _ => True

theorem Writer.run_keeps (kept : Kept extra stray st) (here : st.conn = some c)
    (survives : Survives st (.send w env)) :
    Returns (w.run env st) fun out => Kept extra stray out.2 := by
  have emits := http2ConnNotifyEmit_emits env.emits
  have again := http2ConnNotifyEmit_emits env.again
  have direct (bufs : List Bytes) := sendDirect_keeps kept here env.outcome bufs
  cases w with
  | raw data armed =>
    show Returns (httpConnectionSendRaw env.outcome armed data st) _
    unfold httpConnectionSendRaw
    split
    · exact .pure kept
    split
    · exact direct [data]
    · rw [read_of here]
      exact .ok { kept with }
  | strOwned body =>
    show Returns (httpConnectionSendStrOwned env.outcome body st) _
    grind [httpConnectionSendStrOwned, Returns.pure]
  | strvOwned bufs =>
    show Returns (httpConnectionSendStrvOwned env.outcome bufs st) _
    grind [httpConnectionSendStrvOwned, Returns.pure]
  | batched buf =>
    exact (sendBatchedBuf_keeps (by decide) (httpSendBatchedCompletionCb_ends emits env.drains) kept
      here fun bytes inTime free => survives c here ⟨bytes, inTime, free⟩).mono fun _ sent => sent.1
  | zstrBatched body =>
    exact (sendBatchedBuf_keeps (by decide) (httpSendBatchedZstrCompletionCb_ends again env.drains)
      kept here fun bytes inTime free => survives c here ⟨bytes, inTime, free⟩).mono
        fun _ sent => sent.1
  | batchedWritev iov =>
    exact (httpConnectionSendBatchedWritev_keeps emits kept here env.drains
      fun slices inTime free => survives c here ⟨slices, inTime, free⟩).mono fun _ sent => sent.1

variable {i : Nat}

theorem held_erase (found : st.outstanding[i]? = some cb) :
    st.held = OutState.held { st with outstanding := st.outstanding.eraseIdx i } +
      if cb ≠ .direct then 1 else 0 := by
  obtain ⟨bound, at'⟩ := List.getElem?_eq_some_iff.mp found
  unfold held
  rw [← (List.getElem_cons_eraseIdx_perm bound).countP_eq, List.countP_cons, at']
  simp

section

variable (kept : Kept 0 0 st)
include kept

theorem Kept.ending (found : st.outstanding[i]? = some cb) (batched : cb ≠ .direct) :
    ∃ c, Ending 0 0 { st with outstanding := st.outstanding.eraseIdx i } c := by
  have held := held_erase found
  rw [if_pos batched, kept.tracked] at held
  cases here : st.conn with
  | none => grind [OutState.inFlight]
  | some c =>
    rw [inFlight_of here] at held
    have cleared := kept.cleared
    rw [inFlight_of here] at cleared
    have once := kept.once
    rw [here, if_neg nofun] at once
    cases busy : c.outInFlight with
    | false =>
      rw [busy] at held
      simp at held
    | true =>
      rw [busy] at held cleared
      refine ⟨c, rfl, busy, rfl, cleared, ?_, once, kept.pends c here, rfl⟩
      simpa [OutState.held] using held.symm

theorem complete_keeps (found : st.outstanding[i]? = some cb)
    (survives : Survives st (.complete i env)) :
    Returns (cb.run env { st with outstanding := st.outstanding.eraseIdx i }) (Kept 0 0) := by
  have emits := http2ConnNotifyEmit_emits env.emits
  have again := http2ConnNotifyEmit_emits env.again
  by_cases direct : cb = .direct
  · subst direct
    have held := held_erase found
    exact .pure { kept with tracked := held.symm.trans kept.tracked }
  obtain ⟨c, ending⟩ := kept.ending found direct
  have submits (waiting : c.outPending ≠ []) : env.drains.headD .queued ≠ .failed ∧
      (cb ≠ .zstr → env.drains.headD .queued = .done → c.doomed = false) := by
    rw [Ne, headD_queued .failed nofun, headD_queued .done nofun]
    exact survives cb c found direct ending.here waiting
  have ends := httpSendBatchedCompletionCb_ends emits env.drains.tail
  cases cb with
  | direct => exact absurd rfl direct
  | batched =>
    show Returns (httpSendBatchedCompletionCb _ _ _) _
    rw [httpSendBatchedCompletionCb_eq]
    exact completeBatched_keeps emits ends ending fun waiting =>
      ⟨(submits waiting).1, (submits waiting).2 nofun⟩
  | zstr =>
    exact httpSendBatchedZstrCompletionCb_keeps emits again ending fun waiting =>
      (submits waiting).1
  | writev =>
    show Returns (httpSendBatchedWritevCompletionCb _ _ _) _
    rw [httpSendBatchedWritevCompletionCb_of ending.here, httpSendBatchedCompletionCb_eq]
    exact completeBatched_keeps emits ends (ending.released _) fun waiting =>
      ⟨(submits waiting).1, (submits waiting).2 nofun⟩

section

variable (here : st.conn = some c)
include here

theorem releasePin_keeps (deferred : Bool) : Returns (releasePin deferred c st) (Kept 0 0) := by
  unfold releasePin
  split
  · exact .pure kept
  rw [write_of here, ok_bind]
  have pends := kept.pends c here
  -- the connection with one pin less, when something still holds the destroy back
  have waits (microtask : Bool)
      (due : c.destroyPending = true → 0 < c.handlerRefcount - 1 ∨ microtask = true) :
      Kept 0 0 { st with conn := some { c with
        handlerRefcount := c.handlerRefcount - 1, destroyMicrotask := microtask } } := by
    refine kept.change here rfl (kept.idle c here) pends fun requested => ?_
    rcases due (pends.trans requested) with pinned | armed
    · exact .inr (.inl pinned)
    · exact .inr (.inr (.inr armed))
  split
  · unfold httpConnectionDestroyIfIdleDeferred
    rw [read_of rfl, ok_bind]
    split
    · rename_i stays
      refine .pure (waits c.destroyMicrotask fun requested => ?_)
      rcases stays with more | unasked | armed
      · exact .inl (Nat.pos_of_ne_zero more)
      · grind
      · exact .inr armed
    · exact .ok (waits true fun _ => .inr rfl)
  · split
    · rw [resumeDestroy_of rfl]
      exact .ok (kept.destroy here rfl rfl)
    · rename_i more
      refine .pure (waits c.destroyMicrotask fun requested => .inl ?_)
      have : c.handlerRefcount ≠ 1 := fun last => more ⟨last, requested⟩
      omega

theorem connDestroyMicrotaskHandler_keeps :
    Returns (connDestroyMicrotaskHandler c st) (Kept 0 0) := by
  unfold connDestroyMicrotaskHandler
  split
  · rw [write_of here, ok_bind]
    split
    · rw [resumeDestroy_of rfl]
      exact .ok (kept.destroy here rfl rfl)
    · have pends := kept.pends c here
      apply Returns.pure
      refine kept.change here rfl (kept.idle c here) pends fun requested => ?_
      grind
  · exact .pure kept

theorem parserFeed_keeps (active : Bool) : Returns (parserFeed active c st) (Kept 0 0) := by
  unfold parserFeed
  rw [write_of here, ok_bind]
  split
  · rw [httpConnectionDestroy_of rfl]
    exact .ok (kept.destroy here rfl rfl)
  · have pends := kept.pends c here
    apply Returns.pure
    refine kept.change here rfl (kept.idle c here) pends fun requested => ?_
    grind

end

end

theorem stepOut_keeps (st : OutState) (event : OutEvent) (kept : Kept 0 0 st)
    (survives : Survives st event) : Returns (stepOut st event) (Kept 0 0) := by
  unfold stepOut
  split
  · grind [Returns.pure, complete_keeps]
  · rename_i c here
    exact (Writer.run_keeps kept here survives).bind fun _ after => .pure after
  · rename_i c here
    rw [httpConnectionDestroy_of here]
    exact .ok (kept.destroy here rfl rfl)
  · rename_i c here
    rw [write_of here]
    apply Returns.ok
    exact kept.change here rfl (kept.idle c here) (kept.pends c here) fun _ =>
      .inr (.inl (Nat.succ_pos _))
  · grind [releasePin_keeps]
  · rename_i c here
    exact connDestroyMicrotaskHandler_keeps kept here
  · grind [parserFeed_keeps]
  · rename_i c here
    rw [write_of here]
    apply Returns.ok
    exact kept.change here rfl (kept.idle c here) (kept.pends c here) fun requested =>
      kept.due requested c here
  · exact .pure kept

theorem kept_start (http2 : Bool) : Kept 0 0 (.start http2) where
  cleared := rfl
  tracked := rfl
  once := rfl
  asked := nofun
  due := nofun
  pends := by
    rintro _ ⟨⟩
    rfl
  idle := by
    rintro _ ⟨⟩ _
    rfl

theorem runOut_keeps (guarded : Guarded stepOut Survives (.start http2) events) :
    Returns (runOut events (.start http2)) (Kept 0 0) :=
  guarded.returns stepOut_keeps (kept_start http2)

/-! ## What a broken condition leads to -/

theorem sendBatchedBuf_breaks (batched : cb ≠ .direct) (ends : Ends callback) (kept : Kept 0 0 st)
    (here : st.conn = some c) (bytes : buf ≠ []) (inTime : c.writeTimedOut = false)
    (free : c.outInFlight = false) (doomed : c.doomed = true) :
    sendBatchedBuf cb callback .failed buf st = .error .freed := by
  have asked : (st.ask [buf]).conn = some c := here
  unfold sendBatchedBuf
  rw [if_neg bytes, read_of here, ok_bind]
  simp only [inTime, free, Bool.false_eq_true, if_false]
  rw [setInFlight_of asked, ok_bind]
  exact submit_breaks ((kept.ask [buf]).raise asked free) rfl batched ends doomed _

theorem httpConnectionSendBatchedWritev_breaks (emits : Emits emit) (kept : Kept 0 0 st) (here : st.conn = some c)
    (drains : List Outcome) (slices : iov ≠ []) (inTime : c.writeTimedOut = false)
    (free : c.outInFlight = false) (doomed : c.doomed = true) :
    httpConnectionSendBatchedWritev emit drains .failed iov st = .error .freed := by
  have asked : (st.ask iov).conn = some c := here
  have stashed := (kept.ask iov).stash asked (some st.calls)
  unfold httpConnectionSendBatchedWritev
  rw [read_of here, ok_bind]
  simp only [slices, inTime, free, Bool.false_eq_true, if_false]
  rw [write_of asked, ok_bind, setInFlight_of rfl, ok_bind]
  have batched : writev ≠ .direct := nofun
  exact submit_breaks (stashed.raise rfl free) rfl batched
    (httpSendBatchedWritevCompletionCb_ends emits drains) doomed _

section

variable (ends : Ends callback) (ending : Ending 0 0 st c)
include ends ending

/-- A failed submit of the pending buffer leads to a connection that is gone, or the flag is
cleared twice for one write, or there is a write that it does not show. -/
theorem submitPending_fails : submitPending .failed callback st = .error .freed ∨
    ∃ n ≤ 1, ∃ st' c', submitPending .failed callback st = .ok (false, st') ∧
      Ended (2 - n) n st' c' ∧ c'.outInFlight = false := by
  unfold submitPending
  rw [read_of ending.here, ok_bind, write_of ending.here, ok_bind]
  have batched : batched ≠ .direct := nofun
  cases doomed : c.doomed with
  | true =>
    left
    rw [submit_breaks ending.taken ending.busy batched ends doomed]
    rfl
  | false =>
    right
    obtain ⟨⟨submitted, st'⟩, done, result, kept, alive, -⟩ := submit_keeps
      ending.taken ending.busy batched ends (fun _ : Outcome.failed = _ => doomed) c.outPending
    obtain rfl : submitted = false := result
    obtain ⟨c', here', empty, -⟩ := alive (.inr doomed)
    have before := kept.cleared
    have once := kept.once
    rw [here', if_neg nofun] at once
    have flag : st'.inFlight ≤ 1 := by
      rw [inFlight_of here']
      exact Bool.toNat_le _
    refine ⟨st'.inFlight, flag, { st' with
        conn := some { c' with outInFlight := false }, clears := st'.clears + 1 }, _, ?_,
      ⟨rfl, ?_, kept.tracked, once, kept.pends c' here', empty⟩, rfl⟩
    · rw [done, ok_bind]
      dsimp only
      rw [if_neg nofun, clearInFlight_of here']
      rfl
    · show st'.sets + (2 - st'.inFlight) = st'.clears + 1 + 1
      dsimp only at before
      omega

variable (waiting : c.outPending ≠ [])
include waiting

theorem completeBatched_breaks
    (breaks : outcome = .failed ∨ outcome = .done ∧ c.doomed = true) :
    ¬ Returns (completeBatched emit outcome callback st) Good := by
  unfold completeBatched
  rw [read_of ending.here, ok_bind, if_neg waiting]
  rcases breaks with rfl | ⟨rfl, doomed⟩
  · obtain fault | ⟨n, bound, st', c', failed, ended, free⟩ := submitPending_fails ends ending
    · rw [fault]
      rintro ⟨_, ⟨⟩, -⟩
    · rw [failed]
      rintro ⟨_, ⟨⟩, good⟩
      have cleared := good.cleared
      have tracked := good.tracked
      rw [inFlight_of ended.here, free] at cleared tracked
      have excess := ended.cleared
      rw [ended.tracked] at tracked
      subst tracked
      omega
  · have taken : Outcome.done ≠ .failed := nofun
    obtain ⟨⟨submitted, st'⟩, done, result, -, -, gone⟩ := submitPending_keeps ending ends taken
    obtain rfl : submitted = true := result
    rw [done, ok_bind]
    show ¬ Returns (outSignalDrain st') Good
    rw [outSignalDrain_gone (gone nofun doomed)]
    rintro ⟨_, ⟨⟩, -⟩

end

/-- The same for `send_zstr_batched`, which finishes once more after a failure. -/
theorem httpSendBatchedZstrCompletionCb_breaks (emits : Emits emit) (emitsAgain : Emits again)
    (ending : Ending 0 0 st c) (waiting : c.outPending ≠ [])
    (fails : drains.headD .queued = .failed) :
    ¬ Returns (httpSendBatchedZstrCompletionCb emit again drains st) Good := by
  unfold httpSendBatchedZstrCompletionCb h1BatchedDrainPending
  rw [read_of ending.here, ok_bind, if_neg waiting, fails]
  have ends := httpSendBatchedCompletionCb_ends emits drains.tail
  obtain fault | ⟨n, bound, st', c', failed, ended, -⟩ := submitPending_fails ends ending
  · rw [fault]
    rintro ⟨_, ⟨⟩, -⟩
  · rw [failed]
    obtain ⟨final, finished, after, -⟩ := httpSendBatchedFinish_ends emitsAgain _ _ _ _ ended
    rintro ⟨final', finished', good⟩
    obtain rfl : final = final' := Except.ok.inj (finished.symm.trans finished')
    have cleared := good.cleared
    have excess := after.cleared
    omega

theorem stepOut_breaks (kept : Kept 0 0 st) (broken : ¬ Survives st event) :
    ¬ Returns (stepOut st event) Good := by
  have emits := http2ConnNotifyEmit_emits
  cases event with
  | send w env =>
    simp only [Survives, not_forall, Bool.not_eq_false] at broken
    obtain ⟨c, here, submits, failed, doomed⟩ := broken
    have fault : w.run env st = .error .freed := by
      cases w with
      | raw _ _ | strOwned _ | strvOwned _ => exact submits.elim
      | batched buf =>
        show sendBatchedBuf _ _ env.outcome buf st = _
        rw [failed]
        exact sendBatchedBuf_breaks (by decide)
          (httpSendBatchedCompletionCb_ends (emits _) env.drains)
          kept here submits.1 submits.2.1 submits.2.2 doomed
      | zstrBatched body =>
        show sendBatchedBuf _ _ env.outcome body st = _
        rw [failed]
        exact sendBatchedBuf_breaks (by decide)
          (httpSendBatchedZstrCompletionCb_ends (emits _) env.drains)
          kept here submits.1 submits.2.1 submits.2.2 doomed
      | batchedWritev iov =>
        show httpConnectionSendBatchedWritev _ _ env.outcome iov st = _
        rw [failed]
        exact httpConnectionSendBatchedWritev_breaks (emits _) kept here env.drains
          submits.1 submits.2.1 submits.2.2 doomed
    unfold stepOut
    simp only [here, fault]
    rintro ⟨_, ⟨⟩, -⟩
  | complete i env =>
    simp only [Survives, not_forall] at broken
    obtain ⟨cb, c, found, direct, here, waiting, broken⟩ := broken
    obtain ⟨c', ending⟩ := kept.ending found direct
    obtain rfl : c' = c := Option.some.inj (ending.here.symm.trans here)
    have step : stepOut st (.complete i env) =
        cb.run env { st with outstanding := st.outstanding.eraseIdx i } := by
      unfold stepOut
      simp only [found]
    rw [step]
    have kinds : env.drains.headD .queued = .failed ∨
        cb ≠ .zstr ∧ env.drains.headD .queued = .done ∧ c'.doomed = true := by
      rw [headD_queued .failed nofun, headD_queued .done nofun]
      grind
    have ends := httpSendBatchedCompletionCb_ends (emits env.emits) env.drains.tail
    cases cb with
    | direct => exact absurd rfl direct
    | batched =>
      show ¬ Returns (httpSendBatchedCompletionCb _ env.drains _) Good
      rw [httpSendBatchedCompletionCb_eq]
      exact completeBatched_breaks ends ending waiting (kinds.imp_right And.right)
    | writev =>
      show ¬ Returns (httpSendBatchedWritevCompletionCb _ env.drains _) Good
      rw [httpSendBatchedWritevCompletionCb_of ending.here, httpSendBatchedCompletionCb_eq]
      exact completeBatched_breaks ends (ending.released _) waiting (kinds.imp_right And.right)
    | zstr =>
      exact httpSendBatchedZstrCompletionCb_breaks (emits _) (emits _) ending waiting
        (kinds.resolve_right fun kind => kind.1 rfl)
  | _ => exact absurd trivial broken

/-- At every point of a run no access to a connection that is gone has happened, the flag has
been cleared once for each time it was set, and a destroy runs once, as soon as the write in
flight and the other holds have ended: exactly if the pending buffer can always be submitted when
a write ends, and no callback that runs inside a submit destroys a connection that the code after
the submit still uses. -/
theorem batched_lifetime_iff (http2 : Bool) (events : List OutEvent) :
    (∀ past future, events = past ++ future → Returns (runOut past (.start http2)) Good) ↔
    Guarded stepOut Survives (.start http2) events := by
  constructor
  · intro good
    refine .of_holds (P := (Returns · Good)) (fun guarded => (runOut_keeps guarded).ensures)
      (fun st event kept broken => stepOut_breaks kept broken) good
  · intro guarded past future split
    subst split
    exact (runOut_keeps (.init guarded)).mono fun _ kept => kept.good

/-- A destroy waits for the write in flight, whose end finds bytes to submit. The submit fails,
the nested completion destroys the connection, and the outer one goes on with it. Without the
destroy the flag is cleared twice for one write. -/
theorem failed_drain_breaks_lifetime :
    runOut [.send (.batched (ascii "one")) {}, .send (.batched (ascii "two")) {}, .destroy,
        .complete 0 { drains := [.failed] }] (.start false) = .error .freed ∧
      ∃ st, runOut [.send (.batched (ascii "one")) {}, .send (.batched (ascii "two")) {},
          .complete 0 { drains := [.failed] }] (.start false) = .ok st ∧
        st.sets = 1 ∧ st.clears = 2 ∧ ¬ Good st := by
  simp [runOut, stepOut, Writer.run, WriteCb.run, start, httpConnectionSendBatched, sendBatchedBuf,
    httpSendBatchedCompletionCb, completeBatched, submitPending, submit, zendAsyncIoWriteEx, setInFlight,
    clearInFlight, httpConnectionDestroy, resumeDestroy, OutState.read, write, slices, ask, ascii,
    httpSendBatchedFinish, http2ConnNotifyEmit, outSignalDrain, httpAbsorbIoSubmissionException]
  refine ⟨_, rfl, rfl, rfl, fun good => ?_⟩
  have cleared := good.cleared
  revert cleared
  decide

end TrueAsync.Core

import Mathlib.Data.List.Induction
import TrueAsync.Core.Output
import TrueAsync.Lib.History

/-!
# Order of the plaintext output

Whatever completes, fails or is asked to send again in between, the batched writers keep the
order of the calls: what the reactor has taken, followed by the pending buffer, is what was
asked for, less what was lost. A writer that submits at once breaks the order exactly when it
finds bytes in the pending buffer, because it overtakes them.
-/

namespace TrueAsync.Core

open TrueAsync.Lib List OutState

def OutState.pending (st : OutState) : List Chunk :=
  match st.conn with
  | some c => c.outPending
  | none => []

/-- The bytes reach the socket in the order of the calls, and all of them if nothing was lost. -/
structure InOrder (st : OutState) : Prop where
  order : (st.wire ++ st.pending).Sublist st.asked
  whole : st.lost = false → st.wire ++ st.pending = st.asked

/-- The chunks carry the numbers of the calls, in order. -/
structure Numbered (st : OutState) : Prop where
  bound : ∀ x ∈ st.asked, x.call < st.calls
  sorted : st.asked.Pairwise (·.call ≤ ·.call)

/-- The invariant: with nothing in flight nothing is pending. -/
structure Lined (st : OutState) : Prop extends InOrder st, Numbered st where
  idle : ∀ c, st.conn = some c → c.outInFlight = false → c.outPending = []

/-- The chunks are out of the connection and not yet with the reactor. -/
structure Owing (chunks : List Chunk) (st : OutState) : Prop extends Numbered st where
  order : (st.wire ++ chunks).Sublist st.asked
  whole : st.lost = false → st.wire ++ chunks = st.asked
  empty : st.pending = []

def Settled (st : OutState) : Prop := Owing [] st

def Settles (action : OutAction) : Prop := ∀ st, Settled st → Ensures (action st) Settled

variable {st : OutState}

theorem Settled.lined (settled : Settled st) : Lined st where
  toNumbered := settled.toNumbered
  order := settled.empty ▸ settled.order
  whole := settled.empty ▸ settled.whole
  idle := by
    intro c here _
    have empty := settled.empty
    grind [pending]

theorem Lined.settled (lined : Lined st) (empty : st.pending = []) : Settled st where
  toNumbered := lined.toNumbered
  order := empty ▸ lined.order
  whole := empty ▸ lined.whole
  empty := empty

variable {chunks : List Chunk}

theorem Lined.keep {conn : Option OutConn} (lined : Lined st)
    (pending : OutState.pending { st with conn } = st.pending)
    (idle : ∀ c, conn = some c → c.outInFlight = false → c.outPending = []) :
    Lined { st with conn } where
  toNumbered := { lined.toNumbered with }
  order := by
    rw [pending]
    exact lined.order
  whole := by
    rw [pending]
    exact lined.whole
  idle := idle

/-! ## Access -/

theorem ensures_read (st : OutState) : Ensures st.read fun c => st.conn = some c := by
  unfold OutState.read
  cases here : st.conn with
  | none => nofun
  | some c => exact .pure rfl

theorem ensures_write (f : OutConn → OutConn) :
    Ensures (st.write f) fun st' => ∃ c, st.conn = some c ∧ st' = { st with conn := some (f c) } :=
  (ensures_read st).bind fun c here => .pure ⟨c, here, rfl⟩

variable {f : OutConn → OutConn}

theorem Owing.write (owing : Owing chunks st)
    (kept : ∀ c, (f c).outPending = c.outPending) : Ensures (st.write f) (Owing chunks) := by
  refine (ensures_write f).mono ?_
  rintro _ ⟨c, here, rfl⟩
  refine { owing with empty := ?_ }
  have empty := owing.empty
  unfold pending at empty ⊢
  rw [here] at empty
  exact (kept c).trans empty

variable {c : OutConn}

theorem pending_of (here : st.conn = some c) : st.pending = c.outPending := by
  unfold pending
  rw [here]

theorem Lined.write (lined : Lined st)
    (kept : ∀ c, (f c).outPending = c.outPending ∧ (f c).outInFlight = c.outInFlight) :
    Ensures (st.write f) fun st' => Lined st' ∧ st'.pending = st.pending := by
  refine (ensures_write f).mono ?_
  rintro _ ⟨c, here, rfl⟩
  have same : pending { st with conn := some (f c) } = st.pending :=
    (kept c).1.trans (pending_of here).symm
  refine ⟨lined.keep same ?_, same⟩
  rintro _ ⟨⟩ idle
  rw [(kept c).1]
  exact lined.idle c here ((kept c).2.symm.trans idle)

theorem setInFlight_owing (owing : Owing chunks st) : Ensures (setInFlight st) (Owing chunks) := by
  refine (owing.write ?_).bind fun st' after => ?_
  · exact fun _ => rfl
  · exact .pure { after with }

theorem clearInFlight_settled (settled : Settled st) : Ensures (clearInFlight st) Settled := by
  refine (settled.write ?_).bind fun st' after => ?_
  · exact fun _ => rfl
  · exact .pure { after with }

theorem outSignalDrain_settled (settled : Settled st) : Ensures (outSignalDrain st) Settled :=
  (ensures_read st).bind fun _ _ => .pure settled

theorem httpAbsorb_settled (settled : Settled st) :
    Ensures (httpAbsorbIoSubmissionException st) Settled :=
  (ensures_read st).bind fun _ _ => .pure settled

theorem Owing.taken (owing : Owing chunks st) (outstanding : List WriteCb) :
    Settled { st with wire := st.wire ++ chunks, outstanding } := by
  refine { owing with order := ?_, whole := fun whole => ?_ }
  · rw [append_nil]
    exact owing.order
  · rw [append_nil]
    exact owing.whole whole

variable {callback : OutAction}

theorem zendAsyncIoWriteEx_settled (outcome : Outcome) (cb : WriteCb) (owing : Owing chunks st)
    (called : Settles callback) :
    Ensures (zendAsyncIoWriteEx outcome chunks cb callback st) fun out => Settled out.2 := by
  refine (ensures_read st).bind fun c _ => ?_
  cases outcome with
  | queued => exact .pure (owing.taken _)
  | done => exact (called _ (owing.taken _)).bind fun _ after => .pure after
  | failed =>
    have dropped : Settled { st with lost := true } := by
      refine { owing with order := ?_, whole := nofun }
      rw [append_nil]
      exact (sublist_append_left _ _).trans owing.order
    exact (called _ dropped).bind fun _ after => .pure after

theorem submit_settled (outcome : Outcome) (cb : WriteCb) (owing : Owing chunks st)
    (called : Settles callback) :
    Ensures (submit outcome chunks cb callback st) fun out => Settled out.2 := by
  refine (zendAsyncIoWriteEx_settled outcome cb owing called).bind fun out settled => ?_
  dsimp only
  split
  · exact .pure settled
  · exact (httpAbsorb_settled settled).bind fun _ after => .pure after

/-! ## Destroy -/

theorem httpConnectionDestroy_lined (lined : Lined st) :
    Ensures (httpConnectionDestroy st) fun st' => Lined st' ∧ st'.pending = st.pending := by
  refine (ensures_read st).bind fun c here => ?_
  refine (lined.write ?_).bind fun st' ⟨lined', same'⟩ => ?_
  · exact fun _ => ⟨rfl, rfl⟩
  split
  · refine (lined'.write ?_).bind fun st'' ⟨lined'', same''⟩ => ?_
    · exact fun _ => ⟨rfl, rfl⟩
    exact .pure ⟨{ lined'' with }, same''.trans same'⟩
  · have idle : c.outInFlight = false := by simp_all
    have empty : st.pending = [] := (pending_of here).trans (lined.idle c here idle)
    have gone : pending { st' with conn := none } = st'.pending := empty.symm.trans same'.symm
    exact .pure ⟨{ lined'.keep gone nofun with }, empty.symm⟩

theorem resumeDestroy_lined (lined : Lined st) :
    Ensures (resumeDestroy st) fun st' => Lined st' ∧ st'.pending = st.pending := by
  refine (lined.write ?_).bind fun st' ⟨lined', same'⟩ => ?_
  · exact fun _ => ⟨rfl, rfl⟩
  · rw [← same']
    exact httpConnectionDestroy_lined lined'

theorem resumeDestroy_settled (settled : Settled st) : Ensures (resumeDestroy st) Settled :=
  (resumeDestroy_lined settled.lined).mono fun _ ⟨lined, same⟩ =>
    lined.settled (same.trans settled.empty)

/-! ## Completions -/

theorem submitPending_settled (outcome : Outcome) (lined : Lined st) (called : Settles callback) :
    Ensures (submitPending outcome callback st) fun out => Settled out.2 := by
  refine (ensures_read st).bind fun c here => ?_
  refine (ensures_write _).bind ?_
  rintro _ ⟨_, _, rfl⟩
  have pending := pending_of here
  refine (submit_settled outcome .batched ?_ called).bind fun out settled => ?_
  · exact { lined.toNumbered with
      order := pending ▸ lined.order
      whole := pending ▸ lined.whole
      empty := rfl }
  dsimp only
  split
  · exact .pure settled
  · exact (clearInFlight_settled settled).bind fun _ cleared => .pure cleared

section Completions

variable {emit : OutAction} (asks : Settles emit)
include asks

variable {st : OutState}

theorem httpSendBatchedFinish_settled (settled : Settled st) :
    Ensures (httpSendBatchedFinish emit st) Settled := by
  refine (clearInFlight_settled settled).bind fun st' cleared => ?_
  refine (ensures_read st').bind fun c _ => ?_
  split
  · exact resumeDestroy_settled cleared
  · exact (outSignalDrain_settled cleared).bind asks

theorem completeBatched_settled (outcome : Outcome) (called : Settles callback) (st : OutState)
    (lined : Lined st) :
    Ensures (completeBatched emit outcome callback st) Settled := by
  refine (ensures_read st).bind fun c here => ?_
  split
  · rename_i empty
    exact httpSendBatchedFinish_settled asks (lined.settled ((pending_of here).trans empty))
  refine (submitPending_settled outcome lined called).bind fun out settled => ?_
  dsimp only
  split
  · exact outSignalDrain_settled settled
  · exact .pure settled

theorem httpSendBatchedCompletionCb_settled (drains : List Outcome) : ∀ st, Lined st →
    Ensures (httpSendBatchedCompletionCb emit drains st) Settled := by
  induction drains with
  | nil => exact completeBatched_settled asks .queued fun _ settled => .pure settled
  | cons outcome drains ih =>
    exact completeBatched_settled asks outcome fun st settled => ih st settled.lined

theorem h1BatchedDrainPending_settled (drains : List Outcome) (lined : Lined st) :
    Ensures (h1BatchedDrainPending emit drains st) fun out => Settled out.2 := by
  refine (ensures_read st).bind fun c here => ?_
  split
  · rename_i empty
    exact .pure (lined.settled ((pending_of here).trans empty))
  · exact submitPending_settled _ lined fun st settled =>
      httpSendBatchedCompletionCb_settled asks _ st settled.lined

theorem httpSendBatchedZstrCompletionCb_settled (asksAgain : Settles again)
    (drains : List Outcome) (lined : Lined st) :
    Ensures (httpSendBatchedZstrCompletionCb emit again drains st) Settled := by
  refine (h1BatchedDrainPending_settled asks drains lined).bind fun out settled => ?_
  grind [Ensures.pure, httpSendBatchedFinish_settled]

theorem httpSendBatchedWritevCompletionCb_settled (drains : List Outcome)
    (lined : Lined st) : Ensures (httpSendBatchedWritevCompletionCb emit drains st) Settled := by
  refine (ensures_read st).bind fun c _ => ?_
  refine (lined.write ?_).bind fun st' ⟨lined', _⟩ => ?_
  · exact fun _ => ⟨rfl, rfl⟩
  · exact httpSendBatchedCompletionCb_settled asks _ _ { lined' with }

end Completions

/-! ## Writers -/

variable {bufs : List Bytes}

theorem mem_slices (member : x ∈ st.slices bufs) : x.call = st.calls := by
  grind [slices]

section

variable (lined : Lined st)
include lined

theorem Lined.ask : Numbered (st.ask bufs) where
  bound := by
    intro x member
    rcases mem_append.mp member with older | newer
    · exact Nat.lt_succ_of_lt (lined.bound x older)
    · exact Nat.lt_succ_of_le (Nat.le_of_eq (mem_slices newer))
  sorted := by
    refine pairwise_append.mpr ⟨lined.sorted, ?_, fun x older y newer => ?_⟩
    · refine pairwise_iff_forall_sublist.mpr fun {x y} pair => ?_
      have members := pair.subset
      have first := mem_slices (members mem_cons_self)
      grind [mem_slices]
    · rw [mem_slices newer]
      exact Nat.le_of_lt (lined.bound x older)

theorem ask_owing (empty : st.pending = []) (bufs : List Bytes) :
    Owing (st.slices bufs) (st.ask bufs) where
  toNumbered := lined.ask
  order := by
    have order : (st.wire ++ []).Sublist st.asked := (lined.settled empty).order
    rw [append_nil] at order
    exact order.append_right _
  whole := by
    intro kept
    have whole := (lined.settled empty).whole kept
    show st.wire ++ _ = st.asked ++ _
    rw [← whole, append_nil]
  empty := empty

theorem ask_nothing (nothing : st.slices bufs = []) : Lined (st.ask bufs) where
  toNumbered := lined.ask
  order := lined.order.trans (sublist_append_left _ _)
  whole := by
    intro kept
    show st.wire ++ st.pending = st.asked ++ st.slices bufs
    rw [nothing, append_nil]
    exact lined.whole kept
  idle := lined.idle

theorem ask_lost (bufs : List Bytes) : Lined { st.ask bufs with lost := true } where
  toNumbered := { lined.ask with }
  order := lined.order.trans (sublist_append_left _ _)
  whole := nofun
  idle := lined.idle

theorem ask_append (here : st.conn = some c) (busy : c.outInFlight = true) (bufs : List Bytes) :
    Ensures ((st.ask bufs).write fun c => { c with outPending := c.outPending ++ st.slices bufs })
      Lined := by
  refine (ensures_write _).mono ?_
  rintro _ ⟨c', here', rfl⟩
  obtain rfl := Option.some.inj (here.symm.trans here')
  have pending := pending_of here
  exact { lined.ask with
    order := by
      show (st.wire ++ (c.outPending ++ st.slices bufs)).Sublist (st.asked ++ st.slices bufs)
      rw [← append_assoc, ← pending]
      exact lined.order.append_right _
    whole := by
      intro kept
      show st.wire ++ (c.outPending ++ st.slices bufs) = st.asked ++ st.slices bufs
      rw [← append_assoc, ← pending, lined.whole kept]
    idle := by
      rintro _ ⟨⟩ idle
      simp [busy] at idle }

end

theorem sendBatchedBuf_lined (called : Settles callback) (outcome : Outcome) (buf : Bytes)
    (lined : Lined st) :
    Ensures (sendBatchedBuf cb callback outcome buf st) fun out => Lined out.2 := by
  unfold sendBatchedBuf
  split
  · exact .pure lined
  refine (ensures_read st).bind fun c here => ?_
  dsimp only
  split
  · exact .pure (ask_lost lined [buf])
  split
  · rename_i busy
    exact (ask_append lined here busy [buf]).bind fun _ after => .pure after
  · rename_i free
    have empty := (pending_of here).trans (lined.idle c here (Bool.eq_false_iff.mpr free))
    refine (setInFlight_owing (ask_owing lined empty [buf])).bind fun st' owing => ?_
    exact (submit_settled outcome cb owing called).mono fun _ settled => settled.lined

section Vectored

variable {emit : OutAction} (asks : Settles emit)
include asks

theorem httpConnectionSendBatchedWritev_settled (drains : List Outcome) (outcome : Outcome)
    (iov : List Bytes) (settled : Settled st)
    (free : ∀ c, st.conn = some c → c.outInFlight = false) :
    Ensures (httpConnectionSendBatchedWritev emit drains outcome iov st)
      fun out => Settled out.2 := by
  have owing := ask_owing settled.lined settled.empty iov
  refine (ensures_read st).bind fun c here => ?_
  dsimp only
  split
  · rename_i none
    subst none
    exact .pure { owing with }
  split
  · exact .pure { (ask_lost settled.lined iov).settled settled.empty with }
  split
  · grind
  · refine (owing.write ?_).bind fun st' owing' => ?_
    · exact fun _ => rfl
    refine (setInFlight_owing owing').bind fun st'' owing'' => ?_
    exact submit_settled outcome .writev owing'' fun _ settled =>
      httpSendBatchedWritevCompletionCb_settled asks drains settled.lined

theorem httpConnectionSendBatchedWritev_lined (drains : List Outcome) (outcome : Outcome)
    (iov : List Bytes) (lined : Lined st) :
    Ensures (httpConnectionSendBatchedWritev emit drains outcome iov st)
      fun out => Lined out.2 := by
  by_cases busy : ∃ c, st.conn = some c ∧ c.outInFlight = true
  · obtain ⟨c, here, busy⟩ := busy
    refine (ensures_read st).bind fun c' here' => ?_
    obtain rfl := Option.some.inj (here.symm.trans here')
    split
    · rename_i none
      subst none
      exact .pure { ask_nothing lined (rfl : st.slices [] = []) with }
    split
    · exact .pure { ask_lost lined iov with }
    · exact (ask_append lined here busy iov).bind fun st' after => .pure { after with }
  · have free : ∀ c, st.conn = some c → c.outInFlight = false := by grind
    have empty : st.pending = [] := by
      unfold pending
      split
      · rename_i c here
        exact lined.idle c here (free c here)
      · rfl
    refine (httpConnectionSendBatchedWritev_settled asks drains outcome iov
      (lined.settled empty) free).mono fun out settled => settled.lined

end Vectored

theorem http2ConnNotifyEmit_settles (emits : List Emission) :
    Settles (http2ConnNotifyEmit emits) := by
  induction emits with
  | nil =>
    intro st settled
    exact (ensures_read st).bind fun _ _ => .pure settled
  | cons e later ih =>
    intro st settled
    refine (ensures_read st).bind fun c here => ?_
    split
    · refine (httpConnectionSendBatchedWritev_settled ih e.drains e.outcome e.iov settled
        ?_).bind fun out after => .pure after
      grind
    · exact .pure settled

/-- A writer that submits at once keeps the order if nothing is pending, or nothing gets
through. -/
theorem sendDirect_lined (lined : Lined st)
    (clear : ∀ c, st.conn = some c → c.writeTimedOut = false → outcome ≠ .failed →
      st.slices bufs ≠ [] → c.outPending = []) :
    Ensures (sendDirect outcome bufs st) fun out => Lined out.2 := by
  by_cases refused : ∃ c, st.conn = some c ∧ c.writeTimedOut = true
  · obtain ⟨c, here, late⟩ := refused
    unfold sendDirect
    rw [read_of here, ok_bind]
    simp only [late, if_true]
    exact .pure (ask_lost lined bufs)
  cases here : st.conn with
  | none =>
    unfold sendDirect OutState.read
    rw [here]
    nofun
  | some c =>
    have inTime : c.writeTimedOut = false := Bool.eq_false_iff.mpr fun late => refused ⟨c, here, late⟩
    rw [sendDirect_eq here inTime]
    have through (useful : outcome ≠ .failed) (outstanding : List WriteCb) :
        Lined { st.ask bufs with wire := st.wire ++ st.slices bufs, outstanding } := by
      by_cases nothing : st.slices bufs = []
      · rw [nothing, append_nil]
        exact { ask_nothing lined nothing with }
      · have empty := (pending_of here).trans (clear c here inTime useful nothing)
        exact ((ask_owing lined empty bufs).taken outstanding).lined
    cases outcome with
    | queued | done => exact .pure (through nofun _)
    | failed => exact .pure (ask_lost lined bufs)

/-! ## Runs -/

def Writer.passing : Writer → List Bytes
  | .raw data true => [data]
  | .strOwned body => [body]
  | .strvOwned bufs => bufs
  | _ => []

/-- No bytes overtake the pending buffer: a writer that submits at once, and with success,
finds it empty. -/
def KeepsOrder (st : OutState) : OutEvent → Prop
  | .send w env => ∀ c, st.conn = some c → c.writeTimedOut = false → env.outcome ≠ .failed →
      (∃ bytes ∈ w.passing, bytes ≠ []) → c.outPending = []
  | _ => True

theorem slices_ne_nil : st.slices bufs ≠ [] ↔ ∃ bytes ∈ bufs, bytes ≠ [] := by
  unfold slices
  simp

theorem Writer.run_lined (lined : Lined st)
    (keeps : KeepsOrder st (.send w env)) : Ensures (w.run env st) fun out => Lined out.2 := by
  have emits := http2ConnNotifyEmit_settles env.emits
  have again := http2ConnNotifyEmit_settles env.again
  cases w with
  | raw data armed =>
    show Ensures (httpConnectionSendRaw env.outcome armed data st) _
    unfold httpConnectionSendRaw
    split
    · exact .pure lined
    cases armed with
    | true =>
      apply sendDirect_lined lined
      intro c here inTime useful bytes
      exact keeps c here inTime useful (slices_ne_nil.mp bytes)
    | false => exact (ensures_read st).bind fun _ _ => .pure (ask_lost lined [data])
  | strOwned | strvOwned =>
    simp only [run, httpConnectionSendStrOwned, httpConnectionSendStrvOwned]
    split
    · exact .pure lined
    · apply sendDirect_lined lined
      intro c here inTime useful bytes
      exact keeps c here inTime useful (slices_ne_nil.mp bytes)
  | batched buf =>
    apply sendBatchedBuf_lined _ env.outcome buf lined
    exact fun st settled => httpSendBatchedCompletionCb_settled emits env.drains st settled.lined
  | zstrBatched body =>
    apply sendBatchedBuf_lined _ env.outcome body lined
    exact fun st settled =>
      httpSendBatchedZstrCompletionCb_settled emits again env.drains settled.lined
  | batchedWritev iov =>
    exact httpConnectionSendBatchedWritev_lined emits env.drains env.outcome iov lined

theorem WriteCb.run_lined (cb : WriteCb) (env : Env) (lined : Lined st) :
    Ensures (cb.run env st) Lined := by
  have emits := http2ConnNotifyEmit_settles env.emits
  have again := http2ConnNotifyEmit_settles env.again
  cases cb with
  | batched =>
    exact (httpSendBatchedCompletionCb_settled emits env.drains st lined).mono
      fun _ settled => settled.lined
  | zstr =>
    exact (httpSendBatchedZstrCompletionCb_settled emits again env.drains lined).mono
      fun _ settled => settled.lined
  | writev =>
    exact (httpSendBatchedWritevCompletionCb_settled emits env.drains lined).mono
      fun _ settled => settled.lined
  | direct => exact .pure lined

theorem stepOut_lined (event : OutEvent) (lined : Lined st)
    (keeps : KeepsOrder st event) : Ensures (stepOut st event) Lined := by
  have destroyed (st : OutState) (lined : Lined st) : Ensures (httpConnectionDestroy st) Lined :=
    (httpConnectionDestroy_lined lined).mono fun _ after => after.1
  have resumed (st : OutState) (lined : Lined st) : Ensures (resumeDestroy st) Lined :=
    (resumeDestroy_lined lined).mono fun _ after => after.1
  have same {st : OutState} (lined : Lined st) {f : OutConn → OutConn}
      (kept : ∀ c, (f c).outPending = c.outPending ∧ (f c).outInFlight = c.outInFlight) :
      Ensures (st.write f) Lined :=
    (lined.write kept).mono fun _ after => after.1
  unfold stepOut
  split
  · split
    · exact .pure lined
    · exact WriteCb.run_lined _ _ { lined with }
  · exact (Writer.run_lined lined keeps).bind fun _ after => .pure after
  · exact destroyed st lined
  · exact same lined fun _ => ⟨rfl, rfl⟩
  · unfold releasePin
    split
    · exact .pure lined
    · refine (same lined ?_).bind fun st' after => ?_
      · exact fun _ => ⟨rfl, rfl⟩
      split
      · refine (ensures_read st').bind fun c _ => ?_
        grind [Ensures.pure]
      · grind [Ensures.pure]
  · unfold connDestroyMicrotaskHandler
    split
    · refine (same lined ?_).bind fun st' after => ?_
      · exact fun _ => ⟨rfl, rfl⟩
      grind [Ensures.pure]
    · exact .pure lined
  · refine (same lined ?_).bind fun st' after => ?_
    · exact fun _ => ⟨rfl, rfl⟩
    grind [Ensures.pure]
  · exact same lined fun _ => ⟨rfl, rfl⟩
  · exact .pure lined

theorem lined_start (http2 : Bool) : Lined (start http2) where
  order := List.Sublist.refl _
  whole := fun _ => rfl
  idle := by
    rintro _ ⟨⟩ _
    rfl
  bound := nofun
  sorted := List.Pairwise.nil

theorem runOut_lined (guarded : Guarded stepOut KeepsOrder (.start http2) events) :
    Ensures (runOut events (.start http2)) Lined := by
  have kept (st : OutState) (event : OutEvent) (lined : Lined st) (keeps : KeepsOrder st event) :
      FailsOnly (fun _ => True) (stepOut st event) Lined :=
    ⟨fun _ _ => trivial, stepOut_lined event lined keeps⟩
  exact (guarded.run kept (lined_start http2)).2

theorem Writer.run_passing {w : Writer} (bytes : ∃ bytes ∈ w.passing, bytes ≠ []) (env : Env) :
    w.run env = sendDirect env.outcome w.passing := by
  funext st
  obtain ⟨text, member, some⟩ := bytes
  cases w with
  | raw data armed =>
    cases armed with
    | true =>
      obtain rfl := mem_singleton.mp member
      exact (if_neg some).trans (if_pos rfl)
    | false => cases member
  | strOwned body =>
    obtain rfl := mem_singleton.mp member
    exact if_neg some
  | strvOwned bufs => exact if_neg (ne_nil_of_mem member)
  | batched _ | zstrBatched _ | batchedWritev _ => cases member

theorem not_inOrder_of_overtaking (lined : Lined st)
    (bytes : st.slices bufs ≠ []) (waiting : st.pending ≠ []) (outstanding : List WriteCb) :
    ¬ InOrder { st.ask bufs with wire := st.wire ++ st.slices bufs, outstanding } := by
  intro inOrder
  have sorted := lined.ask.sorted.sublist inOrder.order
  obtain ⟨x, newer⟩ := exists_mem_of_ne_nil _ bytes
  obtain ⟨y, older⟩ := exists_mem_of_ne_nil _ waiting
  have before : x.call ≤ y.call :=
    (pairwise_append.mp sorted).2.2 x (mem_append_right _ newer) y older
  have behind : y.call < st.calls :=
    lined.bound y (lined.order.subset (mem_append_right _ older))
  rw [mem_slices newer] at before
  omega

theorem stepOut_overtakes (lined : Lined st) (broken : ¬ KeepsOrder st event) :
    ∃ st', stepOut st event = .ok st' ∧ ¬ InOrder st' := by
  cases event with
  | send w env =>
    simp only [KeepsOrder, not_forall] at broken
    obtain ⟨c, here, inTime, useful, bytes, waiting⟩ := broken
    have queue : st.pending ≠ [] := by
      rw [pending_of here]
      exact waiting
    have overtakes := not_inOrder_of_overtaking lined (slices_ne_nil.mpr bytes) queue
    have step : stepOut st (.send w env) =
        sendDirect env.outcome w.passing st >>= fun sent => pure sent.2 := by
      unfold stepOut
      rewrite [here, ← Writer.run_passing bytes env]
      rfl
    rw [step, sendDirect_eq here inTime]
    cases outcome : env.outcome with
    | queued | done => exact ⟨_, rfl, overtakes _⟩
    | failed => exact absurd outcome useful
  | _ => exact absurd trivial broken

/-- On every connection the bytes reach the socket in the order of the writer calls, at every
point of the run, exactly if no writer that submits at once finds bytes in the pending buffer. -/
theorem output_order_iff (http2 : Bool) (events : List OutEvent) :
    (∀ past future st, events = past ++ future → runOut past (.start http2) = .ok st → InOrder st) ↔
    Guarded stepOut KeepsOrder (.start http2) events := by
  constructor
  · intro inOrder
    refine .of_holds (P := (Ensures · InOrder)) runOut_lined ?_ fun past future split st =>
      inOrder past future st split
    intro st event lined broken inOrder
    obtain ⟨st', done, disorder⟩ := stepOut_overtakes lined broken
    exact disorder (inOrder st' done)
  · intro guarded past future st split reached
    subst split
    exact (runOut_lined (.init guarded) st reached).toInOrder

/-- Three pipelined responses, the last one large enough for `send_strv_owned`. The second is
still pending when the third is submitted. -/
theorem large_response_overtakes :
    ∃ st, runOut [.send (.zstrBatched (ascii "one")) {}, .send (.zstrBatched (ascii "two")) {},
        .send (.strvOwned [ascii "three"]) {}, .complete 0 {}] (.start false) = .ok st ∧
      st.wire.map (·.bytes) = [ascii "one", ascii "three", ascii "two"] ∧ ¬ InOrder st := by
  refine ⟨_, rfl, by decide, fun inOrder => ?_⟩
  have whole := inOrder.whole rfl
  revert whole
  decide

end TrueAsync.Core

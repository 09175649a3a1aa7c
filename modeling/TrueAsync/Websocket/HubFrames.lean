import TrueAsync.Websocket.HubOwnership

/-!
# Frames of the hub functions

Which parts of the hub a function may change. These facts are partial: they say nothing about
faults, which are excluded elsewhere, and need no invariant. A statement about one part of the
hub has to look only at the functions that change it.
-/

namespace TrueAsync.Websocket

open TrueAsync.Lib Ensures List CellChange

variable {st : HubState}

/-- `after` only adds events of a kind to the trace. -/
def Logs (kind : HubTrace → Prop) (before after : HubState) : Prop :=
  ∃ extra, after.trace = before.trace ++ extra ∧ ∀ event ∈ extra, kind event

theorem Logs.refl (kind : HubTrace → Prop) (st : HubState) : Logs kind st st :=
  ⟨[], (append_nil _).symm, nofun⟩

variable {kind : HubTrace → Prop} {a b c : HubState}

theorem Logs.trans (first : Logs kind a b) (second : Logs kind b c) : Logs kind a c := by
  obtain ⟨xs, hxs, kindXs⟩ := first
  obtain ⟨ys, hys, kindYs⟩ := second
  refine ⟨xs ++ ys, ?_, ?_⟩
  · rw [hys, hxs, append_assoc]
  · grind

variable {before after : HubState}

theorem Logs.of_eq (same : after.trace = before.trace) : Logs kind before after :=
  ⟨[], by rw [same, append_nil], nofun⟩

theorem Logs.log (logs : Logs kind before after) (fits : kind event) :
    Logs kind before (after.log event) := by
  obtain ⟨xs, hxs, kindXs⟩ := logs
  refine ⟨xs ++ [event], ?_, ?_⟩
  · show after.trace ++ [event] = _
    rw [hxs, append_assoc]
  · grind

theorem Logs.weaken (logs : Logs kind before after)
    (weaker : ∀ event, kind event → kind' event) : Logs kind' before after := by
  obtain ⟨extra, trace, kinds⟩ := logs
  exact ⟨extra, trace, fun event member => weaker event (kinds event member)⟩

theorem Logs.mem_of (logs : Logs kind before after) (other : ¬ kind event)
    (member : event ∈ after.trace) : event ∈ before.trace := by
  obtain ⟨extra, trace, kinds⟩ := logs
  rw [trace] at member
  exact (mem_append.mp member).resolve_right fun new => other (kinds event new)

def tally (weight : HubTrace → Nat) (trace : List HubTrace) : Nat := (trace.map weight).sum

variable (weight : HubTrace → Nat)

@[simp] theorem tally_append (xs ys : List HubTrace) :
    tally weight (xs ++ ys) = tally weight xs + tally weight ys := by
  unfold tally
  rw [map_append, sum_append]

@[simp] theorem tally_singleton (event : HubTrace) : tally weight [event] = weight event := by
  simp [tally]

variable {weight : HubTrace → Nat}

theorem tally_eq_zero (zero : ∀ event ∈ trace, weight event = 0) : tally weight trace = 0 := by
  induction trace with
  | nil => rfl
  | cons event trace ih => grind [tally]

theorem Logs.tally (logs : Logs kind before after) (zero : ∀ event, kind event → weight event = 0) :
    tally weight after.trace = tally weight before.trace := by
  obtain ⟨extra, grown, kinds⟩ := logs
  grind [tally_append, tally_eq_zero]

/-! ## Small functions -/

theorem wsPayloadRelease_frame (st : HubState) (p : PayloadPtr) :
    Ensures (wsPayloadRelease st p) fun st' =>
      st' = { st with payloads := st'.payloads } ∧ st'.payloads.next = st.payloads.next := by
  refine .bind (.read _ _ _) ?_
  intro x _
  split
  all_goals exact .pure ⟨rfl, rfl⟩

theorem wsPayloadReleaseOpt_frame (st : HubState) (o : Option PayloadPtr) :
    Ensures (wsPayloadReleaseOpt st o) fun st' =>
      st' = { st with payloads := st'.payloads } ∧ st'.payloads.next = st.payloads.next := by
  cases o with
  | none => exact .pure ⟨rfl, rfl⟩
  | some p => exact wsPayloadRelease_frame st p

theorem wsCmdFree_frame (st : HubState) (c : CmdPtr) :
    Ensures (wsCmdFree st c) fun st' => st' = { st with cmds := st'.cmds } := by
  refine .bind (.read _ _ _) ?_
  intro x _
  exact .pure rfl

theorem asyncPlainEventFire_frame (st : HubState) (c : CallId) :
    Ensures (asyncPlainEventFire st c) fun st' => st' = st.log (.fired c) := by
  refine .bind (.read _ _ _) ?_
  intro x _
  exact .pure rfl

theorem topicHubPostLocked_frame (room : Bool) (st : HubState) (slot : SlotId) (c : CmdPtr) :
    Ensures (topicHubPostLocked room st slot c) fun r =>
      r.1 = { st with mailboxes := r.1.mailboxes } ∧ r.1.mailboxes.next = st.mailboxes.next := by
  unfold topicHubPostLocked
  split
  · exact .pure ⟨rfl, rfl⟩
  · refine .bind (.read _ _ _) ?_
    intro x _
    split
    all_goals exact .pure ⟨rfl, rfl⟩

theorem wsPostPublish_frame (room : Bool) (st : HubState) (slot : SlotId) (p : PayloadPtr)
    (topic : Bytes) (exceptId : Nat) :
    Ensures (wsPostPublish room st slot p topic exceptId) fun r => MailOnly st r.1 ∧
      r.1.payloads.next = st.payloads.next ∧ r.1.mailboxes.next = st.mailboxes.next := by
  simp only [wsPostPublish, wsPayloadAddref, bind_assoc, pure_bind]
  refine .bind (.read _ _ _) ?_
  intro x _
  refine .bind (topicHubPostLocked_frame room _ slot st.cmds.next) ?_
  rintro ⟨st1, posted⟩ ⟨frame, next⟩
  dsimp only at frame next ⊢
  split
  · apply Ensures.pure
    rw [frame]
    exact ⟨rfl, rfl, next⟩
  · refine .bind (wsPayloadRelease_frame st1 p) ?_
    rintro st2 ⟨frame2, next2⟩
    refine .bind (wsCmdFree_frame st2 st.cmds.next) ?_
    intro st3 frame3
    apply Ensures.pure
    rw [frame] at next2
    rw [frame3, frame2, frame]
    exact ⟨rfl, next2, next⟩

theorem wsQueryRelease_frame :
    Ensures (wsQueryRelease st q) fun st' => st' = { st with queries := st'.queries } ∧
      CellChange st.queries st'.queries q fun x y => y = { x with refcount := y.refcount } := by
  grind [wsQueryRelease, Ensures.bind, Ensures.read, Ensures.pure, CellChange.free,
    CellChange.modify]

/-! ## Entries -/

section

variable (st : HubState) (e : EntryPtr)

theorem retryEntryRelease_frame :
    Ensures (retryEntryRelease st e) fun st' => st' = { st with entries := st'.entries } ∧
      CellChange st.entries st'.entries e fun x y => y = { x with refcount := y.refcount } := by
  grind [retryEntryRelease, Ensures.bind, Ensures.read, Ensures.pure, CellChange.free,
    CellChange.modify]

theorem retryEntryWake_frame (x : RetryEntry) : Ensures (retryEntryWake st e x) fun st' =>
      st' = { st with entries := st'.entries, trace := st'.trace } ∧
      Logs (fun event => ∃ c, event = .fired c ∧ x.waiter = some c) st st' ∧
      CellChange st.entries st'.entries e fun x y => y = x ∨ y = { x with waiter := none } := by
  unfold retryEntryWake
  have unchanged : CellChange st.entries st.entries e
      fun x y => y = x ∨ y = { x with waiter := none } := .refl _ _ fun _ => .inl rfl
  split
  · exact .pure ⟨rfl, .refl _ _, unchanged⟩
  · next c waits =>
    split
    · exact .pure ⟨rfl, .refl _ _, unchanged⟩
    · refine .mono (asyncPlainEventFire_frame _ c) ?_
      intro st' fired
      rw [fired]
      refine ⟨rfl, ?_, .modify _ _ fun _ => .inr rfl⟩
      exact .log (.of_eq rfl) ⟨c, rfl, waits⟩

/-- `retry_entry_finish` ends the ownership of one entry and leaves the others alone. -/
theorem retryEntryFinish_frame : Ensures (retryEntryFinish st e) fun st' =>
      st' = { st with payloads := st'.payloads, entries := st'.entries, trace := st'.trace } ∧
      st'.payloads.next = st.payloads.next ∧
      Logs (fun event => ∃ c x, event = .fired c ∧ st.entries.cell e = some x ∧
        x.waiter = some c) st st' ∧
      CellChange st.entries st'.entries e fun x y =>
        y = { x with refcount := y.refcount, waiter := y.waiter, payload := none } ∧
          (y.waiter = x.waiter ∨ y.waiter = none) := by
  refine .bind (.read _ _ _) ?_
  intro x found
  refine .bind (retryEntryWake_frame st e x) ?_
  rintro st1 ⟨frame1, logs, woken⟩
  split
  · nofun
  · next p _ =>
    refine .bind (wsPayloadRelease_frame st1 p) ?_
    rintro st2 ⟨frame2, next⟩
    refine .mono (retryEntryRelease_frame _ e) ?_
    rintro st3 ⟨frame3, released⟩
    have disowned : CellChange st2.entries
        (st2.entries.modify e ({ · with payload := none })) e
        fun x y => y = { x with payload := none } := .modify _ _ fun _ => rfl
    refine ⟨?_, ?_, ?_, ?_⟩
    · rw [frame3, frame2, frame1]
    · rw [frame1] at next
      rw [frame3]
      exact next
    · refine .trans (logs.weaken ?_) (.of_eq ?_)
      · rintro event ⟨c, same, waits⟩
        exact ⟨c, x, same, found, waits⟩
      · rw [frame3, frame2]
    · have first : CellChange st.entries (st2.entries.modify e ({ · with payload := none })) e
          fun x z => z = { x with waiter := z.waiter, payload := none } ∧
            (z.waiter = x.waiter ∨ z.waiter = none) := by
        grind [CellChange.trans]
      grind [CellChange.trans]

end

/-! ## Fan-out -/

/-- `after` differs from `before` in payloads, commands, mailboxes and the trace at most. -/
def PostOnly (before after : HubState) : Prop :=
  after = { before with
    payloads := after.payloads, cmds := after.cmds, mailboxes := after.mailboxes
    trace := after.trace }

theorem PostOnly.trans (first : PostOnly a b) (second : PostOnly b c) : PostOnly a c := by
  unfold PostOnly at first second ⊢
  rw [second, first]

theorem MailOnly.postOnly (mail : MailOnly a b) : PostOnly a b := by
  unfold PostOnly
  rw [mail]

theorem PostOnly.log (post : PostOnly a b) (event : HubTrace) : PostOnly a (b.log event) := by
  rw [post]
  rfl

theorem fanoutPayload_frame (st : HubState) (acc : HubFanout) (message : HubMessage) :
    MailOnly st (fanoutPayload st acc message).1 := by
  unfold fanoutPayload
  split <;> rfl

def HubTrace.isPost : HubTrace → Bool
  | .posted .. => true
  | .missed .. => true
  | _ => false

theorem fanoutSlot_frame (room : SlotId → Bool) (ownSlot : Option SlotId) (message : HubMessage)
    (interest : List (List InterestBucket)) (reliable : Bool) (acc : HubState × HubFanout)
    (slot : SlotId) : Ensures (fanoutSlot room ownSlot message interest reliable acc slot) fun r =>
      PostOnly acc.1 r.1 ∧ Logs (·.isPost) acc.1 r.1 ∧
      (r.2.full = acc.2.full ∨ ∃ gen, r.2.full = acc.2.full ++ [⟨slot, gen⟩]) := by
  obtain ⟨st, acc⟩ := acc
  unfold fanoutSlot
  dsimp only
  split
  · exact pure ⟨rfl, .refl _ _, .inl rfl⟩
  · split
    · exact pure ⟨rfl, .refl _ _, .inl rfl⟩
    · split
      · exact pure ⟨rfl, .refl _ _, .inl rfl⟩
      · have built := fanoutPayload_frame st acc message
        rcases made : fanoutPayload st acc message with ⟨st1, p⟩
        rw [made] at built
        dsimp only at built ⊢
        refine bind (wsPostPublish_frame _ st1 slot p message.topic message.exceptId) ?_
        rintro ⟨st2, posted⟩ ⟨mail, _⟩
        dsimp only at mail ⊢
        have post : PostOnly st st2 := built.postOnly.trans mail.postOnly
        have quiet : Logs (·.isPost) st st2 := by
          apply Logs.of_eq
          rw [mail, built]
        split
        · exact pure ⟨post.log _, quiet.log rfl, .inl rfl⟩
        · split
          · exact pure ⟨post.log _, quiet.log rfl, .inr ⟨_, rfl⟩⟩
          · exact pure ⟨post, quiet, .inl rfl⟩

theorem topicHubFanoutLocked_frame (zendHash : Bytes → UInt32) (room : SlotId → Bool)
    (st : HubState) (ownSlot : Option SlotId) (message : HubMessage) (reliable : Bool) :
    Ensures (topicHubFanoutLocked zendHash room st ownSlot message reliable) fun r =>
      PostOnly st r.1 ∧ Logs (·.isPost) st r.1 ∧ r.2.full.Nodup := by
  refine .mono (.foldlM_rest (I := fun slots (acc : HubState × HubFanout) => slots.Nodup ∧
      (∀ t ∈ acc.2.full, t.slot ∉ slots) ∧ PostOnly st acc.1 ∧ Logs (·.isPost) st acc.1 ∧
      acc.2.full.Nodup) ?_ ⟨nodup_range, nofun, rfl, .refl _ _, nodup_nil⟩) fun _ done => done.2.2
  rintro acc slot slots ⟨nodup, ahead, post, logs, distinct⟩
  obtain ⟨once, rest⟩ := nodup_cons.mp nodup
  refine .mono (fanoutSlot_frame room ownSlot message _ reliable acc slot) ?_
  rintro acc1 ⟨post1, logs1, grown⟩
  refine ⟨rest, by grind, post.trans post1, logs.trans logs1, ?_⟩
  rcases grown with same | ⟨gen, more⟩
  · rw [same]
    exact distinct
  · rw [more, nodup_append]
    refine ⟨distinct, nodup_singleton _, ?_⟩
    intro t member u new equal
    rw [mem_singleton.mp new] at equal
    rw [equal] at member
    exact ahead _ member mem_cons_self

variable (room : SlotId → Bool)

/-! ## Reliable sends -/

def HubTrace.isResult : HubTrace → Bool
  | .tried .. => true
  | .sent .. => true
  | _ => false

theorem sendResult_isResult (c : CallId) (blocking : Bool) (status : TopicHubSendStatus)
    (posted pending : Nat) : (sendResult c blocking status posted pending).isResult = true := by
  unfold sendResult
  split <;> rfl

/-- The send of frame `c` ended without parking anything. An entry that could not be queued has
come and gone. -/
structure SendRefused (st : HubState) (c : CallId) (st' : HubState) : Prop where
  frame : st' = { st with
    payloads := st'.payloads, entries := st'.entries, locals := st'.locals
    calls := st.calls.free c, trace := st'.trace
    stats := { st.stats with retryRejected := st'.stats.retryRejected } }
  entries : ∀ e, st'.entries.cell e = st.entries.cell e
  total : ∀ weight, st'.entries.total weight = st.entries.total weight
  next : st.entries.next ≤ st'.entries.next
  payloads : st'.payloads.next = st.payloads.next
  logs : Logs (·.isResult) st st'

/-- The send of frame `c` parked its full targets in a new entry. -/
structure SendParked (st : HubState) (c : CallId) (payload : Option PayloadPtr)
    (full : List RetryTarget) (x : RetryEntry) (st' : HubState) : Prop where
  frame : st' = { st with
    entries := st.entries.alloc x, locals := st'.locals, calls := st'.calls, trace := st'.trace
    stats := { st.stats with retryQueued := st.stats.retryQueued + full.length } }
  owns : x.payload = payload
  pending : x.pending = full
  delivered : x.delivered = 0
  gone : x.gone = 0
  logs : ∃ extra, st'.trace = st.trace ++ .parked st.entries.next payload full :: extra ∧
    ∀ event ∈ extra, event.isResult = true
  others : ∀ d, d ≠ c → st'.calls.cell d = st.calls.cell d
  here : ∀ call, st'.calls.cell c = some call → ∃ posted, call = .parked st.entries.next posted
  next : st'.calls.next = st.calls.next

variable {owner : Option LocalPtr} {result : HubTrace}

theorem sendRefuse_frame {c : CallId} (returns : result.isResult = true) :
    Ensures (sendRefuse st c owner payload result) (SendRefused st c) := by
  refine .bind (wsPayloadReleaseOpt_frame st payload) ?_
  rintro st1 ⟨frame, next⟩
  apply Ensures.pure
  rw [frame]
  exact ⟨rfl, fun _ => rfl, fun _ => rfl, le_rfl, next, .log (.of_eq rfl) returns⟩

variable {st' : HubState}

theorem SendRefused.rejected {c : CallId} (refused : SendRefused (noteRejected st) c st') :
    SendRefused st c st' :=
  { refused with }

theorem sendDiscard_frame {c : CallId}
    (returns : result.isResult = true) (x : RetryEntry) : Ensures (do
      let st' ← retryEntryDiscard { st with entries := st.entries.alloc x } st.entries.next
      pure (sendLeave (noteRejected st') c owner result)) (SendRefused st c) := by
  simp only [retryEntryDiscard, bind_assoc]
  refine .bind (Ensures.read _ _ _) ?_
  intro y _
  split
  · rintro a ⟨⟩
  · next p _ =>
    simp only [bind_assoc, pure_bind]
    refine .bind (wsPayloadRelease_frame _ p) ?_
    rintro st1 ⟨frame, next⟩
    apply Ensures.pure
    rw [frame]
    exact ⟨rfl, Heap.alloc_free_cell _ _, Heap.total_alloc_free _ _, Nat.le_succ _, next,
      Logs.log (Logs.of_eq rfl) returns⟩

theorem topicHubSendSettle_frame (st : HubState) (c : CallId) (owner : Option LocalPtr)
    (blocking : Bool) (message : HubMessage) (payload : Option PayloadPtr)
    (full : List RetryTarget) (posted : Nat) (args : SendSettle) :
    Ensures (topicHubSendSettle st c owner blocking message payload full posted args) fun st' =>
      SendRefused st c st' ∨ full ≠ [] ∧ ∃ x, SendParked st c payload full x st' := by
  have result := fun status => sendResult_isResult c blocking status
  unfold topicHubSendSettle
  split
  · exact .mono (sendRefuse_frame (result _ _ _)) fun _ => .inl
  · next some_full =>
    have nonempty : full ≠ [] := by
      rintro rfl
      exact some_full rfl
    split
    · exact .mono (sendRefuse_frame (result _ _ _)) fun _ => .inl
    · next l =>
      refine .bind (read _ _ _) ?_
      intro loc _
      split
      · exact .mono (sendRefuse_frame (result _ _ _)) fun _ done => .inl done.rejected
      · unfold sendPark
        obtain ⟨loc', ok⟩ := topicHubRetryEnqueue loc st.entries.next args.intervalMs args.armOk
        dsimp only
        split
        · split
          · refine .pure (.inr ⟨nonempty, _, ⟨rfl, rfl, rfl, rfl, rfl, ⟨[], rfl, nofun⟩,
              fun d other => Heap.modify_cell_ne _ _ other, ?_, rfl⟩⟩)
            simp
          · refine .pure (.inr ⟨nonempty, _, ⟨rfl, rfl, rfl, rfl, rfl,
              ⟨[.tried c true], ?_, ?_⟩, fun d other => Heap.free_cell_ne _ other, ?_, rfl⟩⟩)
            · show (st.trace ++ [_]) ++ [_] = _
              rw [append_assoc]
              rfl
            · intro event member
              rw [mem_singleton.mp member]
              rfl
            · intro call hc
              have gone : (st.calls.free c).cell c = some call := hc
              rw [Heap.free_cell_self] at gone
              cases gone
        · exact .mono (sendDiscard_frame (result _ _ _) _) fun _ => .inl

theorem topicHubSendResume_frame (st : HubState) (c : CallId) (e : EntryPtr) (posted : Nat) :
    Ensures (topicHubSendResume st c e posted) fun st' => st' = { st with
        entries := st'.entries, calls := st.calls.free c, trace := st'.trace } ∧
      Logs (·.isResult) st st' ∧
      CellChange st.entries st'.entries e fun x y =>
        y = { x with refcount := y.refcount, abandoned := true, waiter := none } := by
  refine .bind (.read _ _ _) ?_
  intro x _
  refine .mono (retryEntryRelease_frame _ e) ?_
  rintro st1 ⟨frame, released⟩
  have marked : CellChange st.entries
      (st.entries.modify e ({ · with abandoned := true, waiter := none })) e
      fun x y => y = { x with abandoned := true, waiter := none } :=
    modify _ _ fun _ => rfl
  refine ⟨by rw [frame]; rfl, ?_, ?_⟩
  · rw [frame]
    exact .log (.of_eq rfl) rfl
  · refine marked.trans released ?_
    intro x y z hy hz
    rw [hz, hy]

/-! ## Commands and counts -/

/-- `after` differs from `before` in what the counting works on at most. -/
structure CountOnly (before after : HubState) : Prop where
  frame : after = { before with
    payloads := after.payloads, cmds := after.cmds, queries := after.queries
    mailboxes := after.mailboxes, trace := after.trace
    stats := { before.stats with dropped := after.stats.dropped } }
  payloads : after.payloads.next = before.payloads.next
  mailboxes : after.mailboxes.next = before.mailboxes.next

theorem CountOnly.refl (st : HubState) : CountOnly st st := ⟨rfl, rfl, rfl⟩

theorem CountOnly.trans (first : CountOnly a b) (second : CountOnly b c) : CountOnly a c where
  frame := by rw [second.frame, first.frame]
  payloads := second.payloads.trans first.payloads
  mailboxes := second.mailboxes.trans first.mailboxes

theorem wsCmdFree_countOnly (c : CmdPtr) :
    Ensures (wsCmdFree st c) fun st' => CountOnly st st' ∧ st'.queries = st.queries ∧
      st'.trace = st.trace := by
  refine .mono (wsCmdFree_frame st c) ?_
  intro st' frame
  rw [frame]
  exact ⟨⟨rfl, rfl, rfl⟩, rfl, rfl⟩

/-- Events that say nothing about a delivery or a retry. -/
def HubTrace.isAsk : HubTrace → Bool
  | .asked .. => true
  | .questioned .. => true
  | .answered .. => true
  | .fired .. => true
  | .counted .. => true
  | _ => false

/-- A reply that reaches a query somebody waits for. -/
structure QuerySettled (st : HubState) (q : QueryPtr) (answered : UInt32) (x : WsQuery)
    (st' : HubState) : Prop where
  found : st.queries.cell q = some x
  waiting : x.abandoned = false
  pending : 0 < x.pending
  change : CellChange st.queries st'.queries q fun x y => y = { x with
    refcount := y.refcount, total := x.total + answered, pending := x.pending - 1 }
  last : x.pending = 1 → ∃ c, x.done = some c ∧
    st'.trace = st.trace ++ [.answered q answered, .fired c]
  more : x.pending ≠ 1 → st'.trace = st.trace ++ [.answered q answered]

/-- What a command does to its query: it moves or drops a reference, or it settles an answer. -/
inductive QueryEffect (st : HubState) (q : QueryPtr) (st' : HubState) : Prop
  | kept (trace : st'.trace = st.trace)
      (change : CellChange st.queries st'.queries q fun x y => y = { x with
        refcount := y.refcount })
  | settled (answered : UInt32) (x : WsQuery) (settled : QuerySettled st q answered x st')

variable {q : QueryPtr}

theorem QueryEffect.congr (effect : QueryEffect before q after)
    (queries : before.queries = st.queries) (trace : before.trace = st.trace)
    (queries' : st'.queries = after.queries) (trace' : st'.trace = after.trace) :
    QueryEffect st q st' := by
  cases effect with
  | kept same change =>
    rw [trace, ← trace'] at same
    rw [queries, ← queries'] at change
    exact .kept same change
  | settled answered x settled =>
    obtain ⟨found, waiting, pending, change, last, more⟩ := settled
    rw [queries] at found
    rw [queries, ← queries'] at change
    rw [trace, ← trace'] at last more
    exact .settled answered x ⟨found, waiting, pending, change, last, more⟩

theorem QueryEffect.logs (effect : QueryEffect st q st') :
    Logs (·.isAsk) st st' := by
  cases effect with
  | kept trace _ => exact .of_eq trace
  | settled answered x settled =>
    by_cases final : x.pending = 1
    · obtain ⟨c, _, trace⟩ := settled.last final
      exact ⟨_, trace, by simp [HubTrace.isAsk]⟩
    · exact ⟨_, settled.more final, by simp [HubTrace.isAsk]⟩

theorem topicHubPostReply_frame (room : Bool) (query : WsQuery) (reply : CmdPtr) :
    Ensures (topicHubPostReply room st query reply) fun r =>
      r.1 = { st with mailboxes := r.1.mailboxes } ∧ r.1.mailboxes.next = st.mailboxes.next := by
  grind [topicHubPostReply, topicHubPostLocked_frame, Ensures.pure]

theorem topicHubAnswerCount_frame (room : Bool) (matches_ : UInt32) :
    Ensures (topicHubAnswerCount room st q matches_) fun st' =>
      CountOnly st st' ∧ QueryEffect st q st' := by
  refine .bind (.read _ _ _) ?_
  intro x _
  refine .bind (topicHubPostReply_frame room x st.cmds.next) ?_
  rintro ⟨st1, posted⟩ ⟨frame1, next1⟩
  dsimp only at frame1 next1 ⊢
  have built : CountOnly st st1 := ⟨by rw [frame1], by rw [frame1], next1⟩
  have queries1 : st1.queries = st.queries := by rw [frame1]
  have trace1 : st1.trace = st.trace := by rw [frame1]
  split
  · apply Ensures.pure
    refine ⟨built, .kept trace1 ?_⟩
    rw [queries1]
    exact refl _ _ fun _ => rfl
  · refine .bind (wsCmdFree_countOnly _) ?_
    rintro st2 ⟨only2, queries2, trace2⟩
    refine .mono wsQueryRelease_frame ?_
    rintro st3 ⟨frame3, released⟩
    have dropped : CountOnly st2 st3 := by
      rw [frame3]
      exact ⟨rfl, rfl, rfl⟩
    have trace3 : st3.trace = st2.trace := by rw [frame3]; rfl
    refine ⟨built.trans (only2.trans dropped), .kept ?_ ?_⟩
    · rw [trace3, trace2, trace1]
    · rw [← queries1, ← queries2]
      exact released

/-- `ws_query_settle` settles an answer into a query that is waited for; a query that was given
up only loses the reference. -/
theorem wsQuerySettle_frame (answered : UInt32) :
    Ensures (wsQuerySettle st q answered) fun st' => CountOnly st st' ∧ QueryEffect st q st' := by
  refine .bind (.read _ _ _) ?_
  intro x found
  split
  · refine .mono wsQueryRelease_frame ?_
    rintro st' ⟨frame, released⟩
    exact ⟨⟨by rw [frame], by rw [frame], by rw [frame]⟩, .kept (by rw [frame]) released⟩
  · next waiting =>
    have waiting : x.abandoned = false := by simpa using waiting
    split
    · nofun
    · next open_ =>
      have answer : CellChange st.queries (st.queries.modify q fun x =>
          { x with total := x.total + answered, pending := x.pending - 1 }) q
          fun x y => y = { x with total := x.total + answered, pending := x.pending - 1 } :=
        CellChange.modify _ _ fun _ => rfl
      have settle : ∀ {st' : HubState},
          CellChange (st.queries.modify q fun x =>
            { x with total := x.total + answered, pending := x.pending - 1 }) st'.queries q
            (fun x y => y = { x with refcount := y.refcount }) →
          CellChange st.queries st'.queries q fun x y => y = { x with
            refcount := y.refcount, total := x.total + answered, pending := x.pending - 1 } := by
        grind [CellChange.trans]
      split
      · next final =>
        split
        · nofun
        · next c waiter =>
          refine .bind (asyncPlainEventFire_frame _ c) ?_
          intro st1 fired
          rw [fired]
          refine .mono wsQueryRelease_frame ?_
          rintro st' ⟨frame, released⟩
          refine ⟨?_, .settled answered x ⟨found, waiting, Nat.pos_of_ne_zero open_, settle released,
            fun _ => ⟨c, waiter, ?_⟩, fun more => absurd final more⟩⟩
          · rw [frame]
            exact ⟨rfl, rfl, rfl⟩
          · rw [frame]
            show (st.trace ++ [_]) ++ [_] = _
            rw [append_assoc]
            rfl
      · next more =>
        refine .mono wsQueryRelease_frame ?_
        rintro st' ⟨frame, released⟩
        refine ⟨?_, .settled answered x ⟨found, waiting, Nat.pos_of_ne_zero open_, settle released,
          fun final => absurd final more, fun _ => ?_⟩⟩
        · rw [frame]
          exact ⟨rfl, rfl, rfl⟩
        · rw [frame]
          rfl

def cmdQuery (st : HubState) (c : CmdPtr) : Option QueryPtr := (st.cmds.cell c).bind (·.query)

def batchQuery (st : HubState) (m : MailboxPtr) : Option QueryPtr :=
  (st.mailboxes.cell m).bind fun box => box.batch.head?.bind (cmdQuery st)

/-- What draining a command does to the queries: it leaves them, or has its effect on one. -/
def DrainEffect (st : HubState) (o : Option QueryPtr) (st' : HubState) : Prop :=
  (st'.queries = st.queries ∧ st'.trace = st.trace) ∨ ∃ q, o = some q ∧ QueryEffect st q st'

theorem DrainEffect.logs (effect : DrainEffect st o st') :
    Logs (·.isAsk) st st' := by
  rcases effect with ⟨_, trace⟩ | ⟨q, _, effect⟩
  · exact .of_eq trace
  · exact effect.logs

theorem topicHubDrainCmd_frame (room : Bool) (c : CmdPtr) (matches_ : UInt32) :
    Ensures (topicHubDrainCmd room st c matches_) fun st' =>
      CountOnly st st' ∧ DrainEffect st (cmdQuery st c) st' := by
  refine .bind (.read _ _ _) ?_
  intro x found
  have carried : cmdQuery st c = x.query := by simp [cmdQuery, found]
  rw [carried]
  split
  · split
    · nofun
    · next p _ =>
      refine .bind (wsPayloadRelease_frame st p) ?_
      rintro st1 ⟨frame1, next1⟩
      refine .mono (wsCmdFree_countOnly c) ?_
      rintro st2 ⟨only, queries, trace⟩
      have released : CountOnly st st1 := ⟨by rw [frame1], next1, by rw [frame1]⟩
      refine ⟨released.trans only, .inl ⟨?_, ?_⟩⟩
      · rw [queries, frame1]
      · rw [trace, frame1]
  · split
    · nofun
    · next q carries =>
      refine .bind (topicHubAnswerCount_frame room matches_) ?_
      rintro st1 ⟨only1, effect⟩
      refine .mono (wsCmdFree_countOnly c) ?_
      rintro st2 ⟨only2, queries, trace⟩
      refine ⟨?_, .inr ⟨q, carries, effect.congr rfl rfl queries trace⟩⟩
      have taken : CountOnly st { st with cmds := st.cmds.modify c ({ · with query := none }) } :=
        ⟨rfl, rfl, rfl⟩
      exact taken.trans (only1.trans only2)
  · split
    · nofun
    · next q carries =>
      refine .bind (wsQuerySettle_frame x.count) ?_
      rintro st1 ⟨only1, effect⟩
      refine .mono (wsCmdFree_countOnly c) ?_
      rintro st2 ⟨only2, queries, trace⟩
      exact ⟨only1.trans only2, .inr ⟨q, carries, effect.congr rfl rfl queries trace⟩⟩

theorem threadMailboxProcess_frame (room : Bool) (st : HubState) (m : MailboxPtr)
    (matches_ : UInt32) : Ensures (threadMailboxProcess room st m matches_) fun st' =>
      CountOnly st st' ∧ DrainEffect st (batchQuery st m) st' := by
  refine .bind (.read _ _ _) ?_
  intro box found
  split
  · exact .pure ⟨.refl st, .inl ⟨rfl, rfl⟩⟩
  · next c rest batch =>
    have next : batchQuery st m = cmdQuery st c := by simp [batchQuery, found, batch]
    rw [next]
    refine .mono (topicHubDrainCmd_frame room c matches_) ?_
    rintro st' ⟨only, effect⟩
    have popped : CountOnly st
        { st with mailboxes := st.mailboxes.modify m ({ · with batch := rest }) } :=
      ⟨rfl, rfl, rfl⟩
    refine ⟨popped.trans only, ?_⟩
    rcases effect with untouched | ⟨q, carries, effect⟩
    · exact .inl untouched
    · exact .inr ⟨q, carries, effect.congr rfl rfl rfl rfl⟩

theorem threadMailboxFetch_frame (st : HubState) (m : MailboxPtr) :
    Ensures (threadMailboxFetch st m) fun st' => st' = { st with mailboxes := st'.mailboxes } := by
  grind [threadMailboxFetch, Ensures.bind, Ensures.read, Ensures.pure]

/-- A query has been posted to `k` more workers. -/
structure Asks (st : HubState) (q : QueryPtr) (k : Nat) (st' : HubState) : Prop where
  only : CountOnly st st'
  change : CellChange st.queries st'.queries q fun x y => y = { x with
    refcount := y.refcount, pending := x.pending + k }
  trace : st'.trace = st.trace ++ replicate k (.questioned q)

theorem Asks.refl (st : HubState) (q : QueryPtr) : Asks st q 0 st :=
  ⟨.refl st, .refl _ _ fun _ => rfl, (append_nil _).symm⟩

theorem Asks.trans (first : Asks a q j b) (second : Asks b q k c) : Asks a q (j + k) c where
  only := first.only.trans second.only
  change := by
    refine first.change.trans second.change ?_
    grind
  trace := by
    rw [second.trace, first.trace, append_assoc, ← replicate_add]

theorem Asks.logs (asks : Asks st q k st') : Logs (·.isAsk) st st' := by
  refine ⟨_, asks.trace, ?_⟩
  intro event member
  rw [eq_of_mem_replicate member]
  rfl

section

variable (ownSlot : SlotId) (topic : Bytes) (interest : List (List InterestBucket)) (q : QueryPtr)
  (st : HubState)

theorem askSlot_frame (slot : SlotId) :
    Ensures (askSlot room ownSlot topic interest q st slot) fun st' => ∃ k, Asks st q k st' := by
  unfold askSlot
  split
  · exact .pure ⟨0, .refl st q⟩
  · dsimp only
    refine .bind (.read _ _ _) ?_
    intro x _
    refine .bind (topicHubPostLocked_frame (room slot) _ slot st.cmds.next) ?_
    rintro ⟨st1, posted⟩ ⟨frame1, next1⟩
    dsimp only at frame1 next1 ⊢
    have retained : CellChange st.queries st1.queries q
        fun x y => y = { x with refcount := y.refcount } := by
      rw [frame1]
      exact modify _ _ fun _ => rfl
    split
    · apply Ensures.pure
      have counted : CellChange st1.queries
          (st1.queries.modify q fun x => { x with pending := x.pending + 1 }) q
          fun x y => y = { x with pending := x.pending + 1 } := .modify _ _ fun _ => rfl
      refine ⟨1, ⟨?_, ?_, ?_⟩, ?_, ?_⟩
      · rw [frame1]
        rfl
      · rw [frame1]
        rfl
      · exact next1
      · refine retained.trans counted ?_
        intro x y z hy hz
        rw [hz, hy]
      · rw [frame1]
        rfl
    · refine .bind (wsCmdFree_frame _ _) ?_
      intro st2 frame2
      apply Ensures.pure
      have undone : CellChange st1.queries
          (st1.queries.modify q fun x => { x with refcount := x.refcount - 1 }) q
          fun x y => y = { x with refcount := y.refcount } := .modify _ _ fun _ => rfl
      refine ⟨0, ⟨?_, ?_, ?_⟩, ?_, ?_⟩
      · rw [frame2, frame1]
        rfl
      · rw [frame2, frame1]
        rfl
      · rw [frame2]
        exact next1
      · rw [frame2]
        refine retained.trans undone ?_
        intro x y z hy hz
        rw [hz, hy]
        rfl
      · rw [frame2, frame1]
        exact (append_nil _).symm

theorem askOthers_frame (slots : List SlotId) :
    Ensures (slots.foldlM (askSlot room ownSlot topic interest q) st) fun st' =>
      ∃ k, Asks st q k st' := by
  apply Ensures.foldlM
  · rintro st1 slot _ ⟨j, asks1⟩
    refine .mono (askSlot_frame room ownSlot topic interest q st1 slot) ?_
    rintro st2 ⟨k, asks2⟩
    exact ⟨j + k, asks1.trans asks2⟩
  · exact ⟨0, .refl st q⟩

end

theorem topicHubCountReturn_frame (st : HubState) (c : CallId) (q : QueryPtr) :
    Ensures (topicHubCountReturn st c q) fun st' =>
      st' = { st with queries := st'.queries, calls := st.calls.free c, trace := st'.trace } ∧
      (CellChange st.queries st'.queries q fun x y => y = { x with
        refcount := y.refcount, abandoned := true, done := none }) ∧
      ∃ x, st.queries.cell q = some x ∧ st'.trace = st.trace ++ [.counted q x.total] := by
  refine .bind (.read _ _ _) ?_
  intro x found
  refine .mono wsQueryRelease_frame ?_
  rintro st1 ⟨frame1, released⟩
  have marked : CellChange st.queries
      (st.queries.modify q ({ · with abandoned := true, done := none })) q
      fun x y => y = { x with abandoned := true, done := none } := .modify _ _ fun _ => rfl
  refine ⟨?_, ?_, x, found, ?_⟩
  · rw [frame1]
    rfl
  · refine marked.trans released ?_
    intro x y z hy hz
    rw [hz, hy]
  · rw [frame1]
    rfl

/-! ## Functions that neither deliver nor retry -/

def HubCall.isSending : HubCall → Bool
  | .sending .. => true
  | _ => false

/-- `after` has the slots and the entries of `before`, and no new call that sends. -/
structure Aside (before after : HubState) : Prop where
  slots : after.slots = before.slots
  entries : after.entries = before.entries
  payloads : before.payloads.next ≤ after.payloads.next
  mailboxes : before.mailboxes.next ≤ after.mailboxes.next
  stats : after.stats = { before.stats with dropped := after.stats.dropped }
  calls : ∀ {c x}, after.calls.cell c = some x →
    x.isSending = false ∨ before.calls.cell c = some x
  logs : Logs (·.isAsk) before after

theorem Aside.refl (st : HubState) : Aside st st :=
  ⟨rfl, rfl, le_rfl, le_rfl, rfl, .inr, .refl _ _⟩

theorem Aside.trans (first : Aside a b) (second : Aside b c) : Aside a c where
  slots := second.slots.trans first.slots
  entries := second.entries.trans first.entries
  payloads := first.payloads.trans second.payloads
  mailboxes := first.mailboxes.trans second.mailboxes
  stats := by rw [second.stats, first.stats]
  calls := by grind [Aside.calls]
  logs := first.logs.trans second.logs

theorem CountOnly.aside (only : CountOnly st st') (logs : Logs (·.isAsk) st st') :
    Aside st st' where
  slots := by rw [only.frame]
  entries := by rw [only.frame]
  payloads := only.payloads.symm.le
  mailboxes := only.mailboxes.symm.le
  stats := by rw [only.frame]
  calls := by
    intro c x hc
    rw [only.frame] at hc
    exact .inr hc
  logs := logs

theorem topicHubDetachFree_aside (l : LocalPtr) (loc : WsLocal) :
    Ensures (topicHubDetachFree st l loc) (Aside st) := by
  refine .bind (.read _ _ _) ?_
  intro box _
  split
  · exact .pure ⟨rfl, rfl, le_rfl, le_rfl, rfl, .inr, .of_eq rfl⟩
  · exact .pure (.refl st)

theorem topicHubPublishEnd_aside (c : CallId) (payload : Option PayloadPtr) :
    Ensures (topicHubPublishEnd st c payload) (Aside st) := by
  refine .bind (wsPayloadReleaseOpt_frame st payload) ?_
  rintro st1 ⟨frame, next⟩
  apply Ensures.pure
  rw [frame]
  exact ⟨rfl, rfl, next.symm.le, le_rfl, rfl, fun hc => .inr (Heap.free_cell_eq_some.mp hc).2,
    .of_eq rfl⟩

theorem threadMailboxFetch_aside (m : MailboxPtr) :
    Ensures (threadMailboxFetch st m) (Aside st) := by
  refine .bind (.read _ _ _) ?_
  intro box _
  split
  · exact .pure ⟨rfl, rfl, le_rfl, le_rfl, rfl, .inr, .of_eq rfl⟩
  · exact .pure (.refl st)

theorem topicHubCountStart_aside (zendHash : Bytes → UInt32) (room : SlotId → Bool) (loc : WsLocal)
    (topic : Bytes) (matches_ : UInt32) (eventOk : Bool) :
    Ensures (topicHubCountStart zendHash room st loc topic matches_ eventOk) (Aside st) := by
  unfold topicHubCountStart
  split
  · exact .pure (.refl st)
  · refine .mono (askOthers_frame room loc.slot topic _ st.queries.next _ _) ?_
    rintro st' ⟨k, asks⟩
    refine .trans ?_ (asks.only.aside asks.logs)
    refine ⟨rfl, rfl, le_rfl, le_rfl, rfl, fun hc => ?_, .log (.of_eq rfl) rfl⟩
    rcases Heap.alloc_cell_eq_some.mp hc with ⟨_, rfl⟩ | old
    · exact .inl rfl
    · exact .inr old

theorem topicHubCountReturn_aside (c : CallId) (q : QueryPtr) :
    Ensures (topicHubCountReturn st c q) (Aside st) := by
  refine .mono (topicHubCountReturn_frame st c q) ?_
  rintro st' ⟨frame, _, x, _, trace⟩
  have logs : Logs (·.isAsk) st st' := ⟨_, trace, by simp [HubTrace.isAsk]⟩
  rw [frame] at logs ⊢
  exact ⟨rfl, rfl, le_rfl, le_rfl, rfl, fun hc => .inr (Heap.free_cell_eq_some.mp hc).2, logs⟩

/-! ## Threads -/

theorem atDrain_ensures (idle : Q st)
    (run : ∀ loc, st.locals.cell l = some loc → Ensures (f loc) Q) :
    Ensures (atDrain st l f) Q := by
  grind [atDrain, Ensures.pure]

end TrueAsync.Websocket

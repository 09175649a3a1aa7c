import TrueAsync.Websocket.HubOwnership

/-!
# Lifetimes in the topic hub

The second half of the ownership proof: retry queues, mailboxes, counts, attaching and
detaching. With it every event of the hub keeps `HubInv`, so a run never touches a released
object and releases each one when its last reference goes.
-/

namespace TrueAsync.Websocket

open TrueAsync.Lib Heap HubInv List Returns Function Option SlotInv

variable {hands : HubHands} {st : HubState}

/-! ## Entries -/

variable {e : EntryPtr}

theorem HubInv.queued_entry (inv : HubInv hands st)
    (held : 0 < st.locals.total (·.retryQueue.count e) + hands.entries.count e) :
    ∃ x p, st.entries.cell e = some x ∧ x.payload = some p := by
  have owns := inv.queue e
  cases hx : st.entries.cell e with
  | none =>
    rw [ownsPayload_of_none hx] at owns
    omega
  | some x =>
    rw [ownsPayload_of_some hx] at owns
    cases hp : x.payload with
    | none => grind
    | some p => exact ⟨x, p, rfl, hp⟩

theorem HubInv.hand_entry (inv : HubInv hands st) (member : e ∈ hands.entries) :
    ∃ x p, st.entries.cell e = some x ∧ x.payload = some p := by
  have held := count_pos_iff.mpr member
  exact inv.queued_entry (by omega)

theorem HubInv.queued_once (inv : HubInv hands st) (e : EntryPtr) :
    st.locals.total (·.retryQueue.count e) + hands.entries.count e ≤ 1 := by
  rw [inv.queue e]
  cases hx : st.entries.cell e with
  | none =>
    rw [ownsPayload_of_none hx]
    omega
  | some x =>
    rw [ownsPayload_of_some hx]
    cases x.payload <;> simp

variable {l : LocalPtr} {loc : WsLocal}

theorem HubInv.queue_nodup (inv : HubInv hands st) (hl : st.locals.cell l = some loc) :
    loc.retryQueue.Nodup := by
  rw [nodup_iff_count_le_one]
  intro e
  have once := inv.queued_once e
  grind [Heap.le_total]

variable {c : CallId}

section

variable (inv : HubOk st) (hc : st.calls.cell c = some (.parked e posted))
include inv hc

theorem HubInv.unpark : HubInv { borrowed := [e] } { st with
      entries := st.entries.modify e ({ · with abandoned := true, waiter := none })
      calls := st.calls.free c } := by
  have quiet := modifyEntry inv e (g := ({ · with abandoned := true, waiter := none }))
    (fun _ => rfl) (fun _ => rfl) (fun _ => .inr rfl)
  refine quiet.endCall hc ?_ nofun
  rintro _ x ⟨⟩ hx
  obtain ⟨y, _, rfl⟩ := modify_cell_eq_some.mp hx
  rw [if_pos rfl]

/-- `topic_hub_send` after its suspension: the entry is alive, whatever the drainer did. -/
theorem topicHubSendResume_spec : Returns (topicHubSendResume st c e posted) HubOk := by
  have held : 0 < entryHolders st.locals st.calls e +
      ([] : List EntryPtr).count e + ([] : List EntryPtr).count e := by
    have here : (some e).toList.count e ≤ st.calls.total (·.entry.toList.count e) :=
      le_total hc (·.entry.toList.count e)
    grind [entryHolders]
  obtain ⟨x, hx⟩ := (entry inv).exists_of_pos held
  simp only [topicHubSendResume]
  rw [read_ok hx, ok_bind]
  refine (retryEntryRelease_spec {} ((unpark inv hc).log _)).mono ?_
  rintro st' ⟨kept, _⟩
  exact kept

end

theorem asyncPlainEventFire_spec (alive : st.calls.Live c) :
    Returns (asyncPlainEventFire st c) fun st' => st' = st.log (.fired c) := by
  obtain ⟨call, hc⟩ := live_iff.mp alive
  unfold asyncPlainEventFire
  rw [read_ok hc]
  exact .pure rfl

theorem retryEntryWake_spec (inv : HubInv hands st)
    (hx : st.entries.cell e = some x) : Returns (retryEntryWake st e x) fun st' =>
      HubInv hands st' ∧ st'.locals = st.locals ∧
        ∃ y, st'.entries.cell e = some y ∧ y.payload = x.payload := by
  unfold retryEntryWake
  cases waits : x.waiter with
  | none => exact pure ⟨inv, rfl, x, hx, rfl⟩
  | some c =>
    dsimp only
    split
    · exact pure ⟨inv, rfl, x, hx, rfl⟩
    · obtain ⟨posted, hc⟩ := inv.call.waiter hx waits
      have cleared := inv.modifyEntry e (g := ({ · with waiter := none }))
        (fun _ => rfl) (fun _ => rfl) (fun _ => .inr rfl)
      refine mono (asyncPlainEventFire_spec (by exact live_iff.mpr ⟨_, hc⟩)) ?_
      rintro _ rfl
      refine ⟨cleared.log _, rfl, { x with waiter := none }, ?_, rfl⟩
      show (st.entries.modify e _).cell e = _
      rw [modify_cell_self, hx]
      rfl

/-- The entry gives its payload up: the payload reference and the reference of the queue are
both in the hand then. -/
theorem HubInv.disown (inv : HubInv { hands with entries := e :: hands.entries } st)
    (hx : st.entries.cell e = some x) (owns : x.payload = some p) :
    HubInv { hands with payloads := p :: hands.payloads, borrowed := e :: hands.borrowed }
      { st with entries := st.entries.modify e ({ · with payload := none }) } := by
  refine ⟨?_, inv.query, ?_, inv.cmd, ?_, inv.slot, inv.call.modifyEntry e fun _ => .inl rfl,
    inv.ask⟩
  · grind [payload, total_modify, payloadHolders]
  · grind [Counted.modify, entry]
  · intro d
    have before : st.locals.total (·.retryQueue.count d) + (e :: hands.entries).count d = _ :=
      inv.queue d
    by_cases same : d = e
    · subst same
      rw [ownsPayload_of_some hx, owns, count_cons_self] at before
      rw [ownsPayload_of_some (x := { x with payload := none })
        (by rw [modify_cell_self, hx]; rfl)]
      simp only [toList_some, toList_none, length_singleton, length_nil] at before ⊢
      omega
    · grind [ownsPayload_congr, modify_cell_ne]

/-- `retry_entry_finish` on an entry that the drainer or the teardown took out of a queue. -/
theorem retryEntryFinish_spec (hands : HubHands)
    (inv : HubInv { hands with entries := e :: hands.entries } st) :
    Returns (retryEntryFinish st e) fun st' => HubInv hands st' ∧ st'.locals = st.locals := by
  obtain ⟨x, p, hx, owns⟩ := inv.hand_entry mem_cons_self
  unfold retryEntryFinish
  rw [read_ok hx, ok_bind, owns]
  refine (retryEntryWake_spec inv hx).bind ?_
  rintro st1 ⟨woken, locals, y, hy, same⟩
  have disowned := disown woken hy (same.trans owns)
  have counted : Counted st1.payloads (·.refcount) fun q =>
      payloadHolders st1.cmds (st1.entries.modify e ({ · with payload := none })) st1.calls q +
        hands.payloads.count q + (some p).toList.count q := by
    apply disowned.payload.congr
    grind
  refine (wsPayloadReleaseOpt_spec (o := some p) counted).bind ?_
  rintro st2 ⟨released, frame⟩
  have settled := disowned.setPayloads hands.payloads released
  rw [frame]
  refine (retryEntryRelease_spec hands settled).mono ?_
  grind

/-! ## Retry queues -/

theorem retryEntryFinish_all (es : List EntryPtr) (inv : HubInv { entries := es } st) :
    Returns (es.foldlM retryEntryFinish st) fun st' => HubOk st' ∧ st'.locals = st.locals := by
  refine foldlM_rest (I := fun es st' => HubInv { entries := es } st' ∧ st'.locals = st.locals) ?_
    ⟨inv, rfl⟩
  rintro st1 e es ⟨kept, same⟩
  rw [← same]
  exact retryEntryFinish_spec { entries := es } kept

theorem retryTeardownEntry_spec (inv : HubInv { entries := e :: es } st) (lost : Nat) :
    Returns (retryTeardownEntry (st, lost) e) fun r => HubInv { entries := es } r.1 := by
  obtain ⟨x, _, hx, _⟩ := inv.hand_entry mem_cons_self
  have marked := inv.modifyEntry e (g := ({ · with shutdown := true }))
    (fun _ => rfl) (fun _ => rfl) (fun _ => .inl rfl)
  simp only [retryTeardownEntry]
  rw [read_ok hx]
  simp only [ok_bind]
  refine .bind (retryEntryFinish_spec { entries := es } (marked.record _ _)) ?_
  rintro st1 ⟨kept, _⟩
  exact .pure kept

section

variable (inv : HubOk st) (hl : st.locals.cell l = some loc) (pc : loc.pc = .retired)
include inv hl pc

theorem HubInv.takeQueue : HubInv { entries := loc.retryQueue } { st with
      locals := st.locals.modify l fun x => { x with
        retryQueue := [], retryIntervalMs := 0, retryTimerArmed := false, pc := .draining } } := by
  have taken : HubInv { entries := loc.retryQueue ++ [] } { st with
      locals := st.locals.modify l fun x => { x with
        retryQueue := [], retryIntervalMs := 0, retryTimerArmed := false, pc := .draining } } := by
    refine unqueue inv hl loc.retryQueue ⟨rfl, rfl, ?_, fun _ => rfl⟩ ?_ ?_
    · simp [WsLocal.Attached, pc]
    · intro e
      simp
    · grind
  rw [append_nil] at taken
  exact taken

theorem topicHubRetryTeardown_spec : Returns (topicHubRetryTeardown st l loc) HubOk := by
  have taken := takeQueue inv hl pc
  refine .bind (foldlM_rest (I := fun es acc => HubInv { entries := es } acc.1)
    (retryTeardownEntry_spec · _) (by exact taken)) ?_
  rintro ⟨st1, lost⟩ done
  exact .pure (record done _ _)

end

theorem retryTarget_spec (inv : HubInv hands acc.1)
    (held : 0 < acc.1.locals.total (·.retryQueue.count e) + hands.entries.count e)
    (room : EntryPtr → SlotId → Bool) (t : RetryTarget) :
    Returns (retryTarget room e acc t) fun r => HubInv hands r.1 ∧ r.1.locals = acc.1.locals := by
  obtain ⟨st, pass⟩ := acc
  obtain ⟨x, p, hx, owns⟩ := inv.queued_entry held
  have alive : 0 < payloadHolders st.cmds st.entries st.calls p + hands.payloads.count p := by
    grind [Heap.le_total, payloadHolders]
  obtain ⟨y, hy⟩ := inv.payload.exists_of_pos alive
  have gone := inv.modifyEntry e (g := fun x => { x with gone := x.gone + 1 })
    (fun _ => rfl) (fun _ => rfl) (fun _ => .inl rfl)
  unfold retryTarget
  dsimp only
  rw [Heap.read_ok hx, ok_bind]
  cases (st.slots t.slot).inbox with
  | none => exact .pure ⟨gone.log _, rfl⟩
  | some inbox =>
    dsimp only
    split
    · exact .pure ⟨gone.log _, rfl⟩
    · rw [owns]
      refine (wsPostPublish_spec inv hy (room e t.slot) t.slot x.topic x.exceptId).bind ?_
      rintro ⟨st1, posted⟩ ⟨kept, frame⟩
      split
      · have delivered := kept.modifyEntry e
          (g := fun x => { x with delivered := x.delivered + 1 })
          (fun _ => rfl) (fun _ => rfl) (fun _ => .inl rfl)
        exact .pure ⟨((delivered.log _).log _).log _, frame.locals⟩
      · exact .pure ⟨kept, frame.locals⟩

/-- What the outer loop of the drainer keeps: the entries it took out are in the hand, and the
ones it has still to visit are in the queue of `l`. -/
structure DrainOk (l : LocalPtr) (todo : List EntryPtr) (r : HubState × RetryDrain) : Prop where
  inv : HubInv { entries := r.2.resolved } r.1
  queued : ∃ loc, r.1.locals.cell l = some loc ∧ loc.pc = .idle ∧ ∀ e ∈ todo, e ∈ loc.retryQueue
  distinct : todo.Nodup

variable {todo : List EntryPtr}

theorem DrainOk.entry (ok : DrainOk l (e :: todo) acc) : e ∉ acc.2.resolved ∧
    ∃ x p, acc.1.entries.cell e = some x ∧ x.payload = some p := by
  obtain ⟨inv, ⟨loc, hl, _, queued⟩, _⟩ := ok
  have present : 0 < acc.1.locals.total (·.retryQueue.count e) := by
    have here := le_total hl (·.retryQueue.count e)
    have positive := count_pos_iff.mpr (queued e mem_cons_self)
    omega
  have once : _ + acc.2.resolved.count e ≤ 1 := inv.queued_once e
  exact ⟨count_eq_zero.mp (by omega), inv.queued_entry (present.trans_le (Nat.le_add_right _ _))⟩

theorem retryEntryPass_spec
    (ok : DrainOk l (e :: todo) acc) (room : EntryPtr → SlotId → Bool) (now : Nat) :
    Returns (retryEntryPass room now l acc e) (DrainOk l todo) := by
  obtain ⟨st, drain⟩ := acc
  obtain ⟨inv, ⟨loc, hl, idle, queued⟩, distinct⟩ := ok
  obtain ⟨once, rest⟩ := nodup_cons.mp distinct
  have member : e ∈ loc.retryQueue := queued e mem_cons_self
  have held : 0 < st.locals.total (·.retryQueue.count e) + drain.resolved.count e := by
    grind [Heap.le_total]
  obtain ⟨x, _, hx, _⟩ := inv.queued_entry held
  unfold retryEntryPass
  dsimp only
  rw [Heap.read_ok hx, ok_bind]
  have pass : Returns (x.pending.foldlM (retryTarget room e) (st, ⟨[], 0, 0⟩)) fun r =>
      HubInv { entries := drain.resolved } r.1 ∧ r.1.locals = st.locals := by
    apply Returns.foldlM
    · rintro r t _ ⟨kept, locals⟩
      grind [retryTarget_spec]
    · exact ⟨inv, rfl⟩
  refine pass.bind ?_
  rintro ⟨st1, p⟩ ⟨kept, locals⟩
  have narrowed := kept.modifyEntry e (g := ({ · with pending := p.keep }))
    (fun _ => rfl) (fun _ => rfl) (fun _ => .inl rfl)
  have hl1 : st1.locals.cell l = some loc := by
    rw [locals]
    exact hl
  split
  · -- the entry is finished: it leaves the queue and waits for `retry_entry_finish`
    have unlinked := narrowed.unqueue hl1 [e]
      (g := fun x => { x with retryQueue := x.retryQueue.erase e }) ⟨rfl, rfl, .rfl, by grind⟩
      (by grind)
      (fun _ _ sending => sending)
    refine .pure ⟨unlinked.record _ _,
      ⟨{ loc with retryQueue := loc.retryQueue.erase e }, ?_, idle, ?_⟩, rest⟩
    · simp_all
    · grind
  · refine .pure ⟨narrowed, ⟨loc, hl1, idle, ?_⟩, rest⟩
    grind

theorem retryDrain_start (inv : HubOk st) (hl : st.locals.cell l = some loc) (pc : loc.pc = .idle) :
    DrainOk l loc.retryQueue (st, ⟨[], 0, 0, 0⟩) :=
  ⟨inv, ⟨loc, hl, pc, fun _ member => member⟩, queue_nodup inv hl⟩

theorem retryDrain_keeps (step : ∀ {e todo acc}, DrainOk l (e :: todo) acc → P acc →
      Ensures (retryEntryPass room now l acc e) P) (ok : DrainOk l todo acc) (start : P acc) :
    Ensures (todo.foldlM (retryEntryPass room now l) acc) fun r => DrainOk l [] r ∧ P r := by
  refine .foldlM_rest (I := fun todo acc => DrainOk l todo acc ∧ P acc) ?_ ⟨ok, start⟩
  rintro acc e todo ⟨ok, here⟩
  exact (retryEntryPass_spec ok room now).ensures.and (step ok here)

theorem topicHubRetryDrain_spec (inv : HubOk st) (hl : st.locals.cell l = some loc)
    (pc : loc.pc = .idle) (room : EntryPtr → SlotId → Bool) (now : Nat) :
    Returns (topicHubRetryDrain room now st l loc) HubOk := by
  refine .bind (foldlM_rest (retryEntryPass_spec · room now) (retryDrain_start inv hl pc)) ?_
  rintro ⟨st1, drain⟩ ⟨resolved, ⟨loc1, hl1, pc1, _⟩, _⟩
  refine (retryEntryFinish_all drain.resolved resolved).bind ?_
  rintro st2 ⟨finished, locals⟩
  have hl2 : st2.locals.cell l = some loc1 := by
    rw [locals]
    exact hl1
  have paused := modifyLocal finished hl2 (g := fun x =>
      { x with retryTimerArmed := x.retryTimerArmed && !x.retryQueue.isEmpty })
    ⟨rfl, rfl, .rfl, by grind⟩ rfl (fun _ _ sending => sending)
  exact .pure (paused.record _ _)

/-! ## Commands -/

variable {c : CmdPtr} {x : WsCmd}

theorem HubInv.freeCmd (hands : HubHands) (inv : HubInv { hands with cmds := c :: hands.cmds } st)
    (hx : st.cmds.cell c = some x) :
    HubInv { hands with
        payloads := x.payload.toList ++ hands.payloads
        queries := x.query.toList ++ hands.queries
        answers := x.query.toList ++ hands.answers }
      { st with cmds := st.cmds.free c } := by
  refine ⟨?_, ?_, inv.entry, ⟨?_, ?_⟩, inv.queue, inv.slot, inv.call, ?_⟩
  · grind [payload, total_free, payloadHolders]
  · grind [query, total_free, queryHolders]
  · intro d
    have place : placesOf st.mailboxes d + (c :: hands.cmds).count d = _ := inv.cmd.place d
    grind [free_cell_self, Live, free_cell_ne]
  · intro d y hy outside
    obtain ⟨other, hy⟩ := free_cell_eq_some.mp hy
    exact inv.cmd.carries hy (by simp [other, outside])
  · intro q y hy waited
    have freed := total_free hx (·.query.toList.count q)
    have asked : _ + hands.answers.count q ≤ y.pending := inv.ask hy waited
    simp only [count_append]
    omega

variable {m : MailboxPtr} {box : ThreadMailbox}

theorem HubInv.popBatch (inv : HubOk st) (hm : st.mailboxes.cell m = some box)
    (batch : box.batch = c :: rest) : HubInv { cmds := [c] }
      { st with mailboxes := st.mailboxes.modify m ({ · with batch := rest }) } := by
  refine { inv with cmd := ⟨?_, ?_⟩, slot := inv.slot.modifyMailbox m _ }
  · intro d
    have moved : _ + (box.queue.count d + box.batch.count d) =
        _ + (box.queue.count d + rest.count d) :=
      total_modify hm ({ · with batch := rest }) fun y => y.queue.count d + y.batch.count d
    have place := inv.cmd.place d
    grind [placesOf]
  · intro d y hy _
    exact inv.cmd.carries hy not_mem_nil

theorem wsCmdFree_spec (live : st.cmds.Live c) :
    Returns (wsCmdFree st c) fun st' => st' = { st with cmds := st.cmds.free c } := by
  obtain ⟨x, hx⟩ := live_iff.mp live
  unfold wsCmdFree
  rw [read_ok hx]
  exact .pure rfl

variable {q : QueryPtr}

theorem HubInv.dropAnswer (hands : HubHands)
    (inv : HubInv { hands with answers := q :: hands.answers } st) : HubInv hands st := by
  refine { inv with ask := ?_ }
  intro r x hx waited
  have asked : _ + (q :: hands.answers).count r ≤ x.pending := inv.ask hx waited
  exact (Nat.add_le_add_left count_le_count_cons _).trans asked

theorem HubInv.takeQuery (hands : HubHands) (inv : HubInv hands st) (hx : st.cmds.cell c = some x)
    (query : x.query = some q) (member : c ∈ hands.cmds) :
    HubInv { hands with queries := q :: hands.queries, answers := q :: hands.answers }
      { st with cmds := st.cmds.modify c ({ · with query := none }) } := by
  have moved : ∀ r, (st.cmds.modify c ({ · with query := none })).total (·.query.toList.count r) +
      (some q).toList.count r = st.cmds.total (·.query.toList.count r) := by
    grind [total_modify]
  have old : ∀ {d y}, (st.cmds.modify c ({ · with query := none })).cell d = some y →
      d ∉ hands.cmds → st.cmds.cell d = some y := by
    grind [modify_cell_ne]
  refine ⟨?_, ?_, inv.entry, ⟨?_, ?_⟩, inv.queue, inv.slot, inv.call, ?_⟩
  · apply inv.payload.congr
    intro p
    simp only [payloadHolders]
    rw [total_modify_same]
    intro y
    rfl
  · grind [query, queryHolders, count_cons_toList]
  · intro d
    simp only [modify_live]
    exact inv.cmd.place d
  · intro d y hy outside
    exact inv.cmd.carries (old hy outside) outside
  · intro r y hy waited
    have here := moved r
    have asked := inv.ask hy waited
    simp only [count_cons_toList]
    omega

/-! ## Counting -/

theorem HubInv.postReply (hands : HubHands)
    (inv : HubInv { hands with queries := q :: hands.queries, answers := q :: hands.answers } st)
    (live : st.mailboxes.Live m) (matches_ : UInt32) :
    HubInv hands { st with
      cmds := st.cmds.alloc ⟨.countReply, none, some q, matches_, 0, []⟩
      mailboxes := st.mailboxes.modify m fun y =>
        { y with queue := y.queue ++ [st.cmds.next] } } := by
  refine ⟨?_, ?_, inv.entry, inv.cmd.post live ⟨rfl, rfl⟩, inv.queue, inv.slot.modifyMailbox m _,
    inv.call, ?_⟩
  · apply inv.payload.congr
    intro p
    simp only [payloadHolders, total_alloc]
    rfl
  · grind [query, queryHolders, total_alloc]
  · intro r y hy waited
    have asked : _ + (q :: hands.answers).count r ≤ y.pending := inv.ask hy waited
    grind [total_alloc]

theorem topicHubPostReply_spec (slots : SlotInv st.slots st.locals st.mailboxes) (room : Bool)
    (query : WsQuery) (c : CmdPtr) : Returns (topicHubPostReply room st query c) fun r =>
      r = (st, false) ∨ ∃ m, st.mailboxes.Live m ∧
        r = ({ st with mailboxes := st.mailboxes.modify m fun x =>
          { x with queue := x.queue ++ [c] } }, true) := by
  grind [topicHubPostReply, topicHubPostLocked_spec, Returns.pure]

theorem HubInv.hand_query (inv : HubInv { hands with queries := q :: queries, answers } st) :
    ∃ x, st.queries.cell q = some x := by
  obtain ⟨x, hx, _⟩ := inv.query.release q
    (fun r => queryHolders st.cmds st.calls r + queries.count r) (by grind)
  exact ⟨x, hx⟩

theorem topicHubAnswerCount_spec (hands : HubHands)
    (inv : HubInv { hands with queries := q :: hands.queries, answers := q :: hands.answers } st)
    (room : Bool) (matches_ : UInt32) :
    Returns (topicHubAnswerCount room st q matches_) fun st' =>
      HubInv hands st' ∧ ∀ {c x}, st.cmds.cell c = some x → st'.cmds.cell c = some x := by
  obtain ⟨x, hx⟩ := inv.hand_query
  simp only [topicHubAnswerCount, read_ok hx, ok_bind]
  refine .bind (topicHubPostReply_spec (by exact inv.slot) room x st.cmds.next) ?_
  rintro r (rfl | ⟨m, live, rfl⟩)
  · have live : (st.cmds.alloc ⟨.countReply, none, some q, matches_, 0, []⟩).Live st.cmds.next :=
      live_iff.mpr ⟨_, alloc_cell_self _ _⟩
    refine .bind (wsCmdFree_spec (by exact live)) ?_
    rintro _ rfl
    have dropped := (inv.dropAnswer { hands with queries := q :: hands.queries }).refused
      ⟨.countReply, none, some q, matches_, 0, []⟩
    refine (wsQueryRelease_spec hands (dropped.record _ _) rfl).mono ?_
    grind [alloc_free_cell]
  · grind [Returns.pure, HubInv.postReply, alloc_cell_of_some]

/-- `ws_query_settle`, where the state `st` has the queries and calls of `base`. -/
theorem wsQuerySettle_spec (hands : HubHands) (st : HubState)
    (inv : HubInv { hands with queries := q :: hands.queries, answers := q :: hands.answers } base)
    (queries : st.queries = base.queries) (calls : st.calls = base.calls) (answered : UInt32) :
    Returns (wsQuerySettle st q answered) fun st' =>
      HubInv hands { base with queries := st'.queries } ∧
        st' = { st with queries := st'.queries, trace := st'.trace } := by
  obtain ⟨x, hx⟩ := inv.hand_query
  unfold wsQuerySettle
  rw [queries, read_ok hx, ok_bind]
  cases waited : x.abandoned with
  | true =>
    refine (wsQueryRelease_spec hands
      (inv.dropAnswer { hands with queries := q :: hands.queries }) queries).mono ?_
    grind
  | false =>
    have asked : _ + (q :: hands.answers).count q ≤ x.pending := inv.ask hx waited
    rw [count_cons_self] at asked
    have positive : x.pending ≠ 0 := by omega
    -- one answer less is expected, and one less is under way
    have settled : HubInv { hands with queries := q :: hands.queries } { base with
        queries := base.queries.modify q fun y =>
          { y with total := y.total + answered, pending := y.pending - 1 } } := by
      refine { inv with
        query := inv.query.modify q fun _ => rfl
        call := inv.call.modifyQuery q fun _ wants => ⟨wants, rfl⟩, ask := ?_ }
      apply AskInv.modify inv.ask q
      · exact fun r _ => Nat.add_le_add_left count_le_count_cons _
      · intro y hy wants
        have bound : _ + (q :: hands.answers).count q ≤ y.pending := inv.ask hy wants
        rw [count_cons_self] at bound
        exact Nat.le_sub_of_add_le bound
    have release : ∀ before : HubState,
        before.queries = (base.queries.modify q fun y =>
          { y with total := y.total + answered, pending := y.pending - 1 }) →
        before = { st with queries := before.queries, trace := before.trace } →
        Returns (wsQueryRelease before q) fun st' =>
          HubInv hands { base with queries := st'.queries } ∧
            st' = { st with queries := st'.queries, trace := st'.trace } := by
      intro before same frame
      refine (wsQueryRelease_spec hands settled same).mono ?_
      grind
    simp only [Bool.false_eq_true, if_false, if_neg positive]
    split
    · obtain ⟨call, fires, hcall⟩ := inv.call.done hx waited
      rw [fires]
      have alive : st.calls.Live call := by
        rw [calls]
        exact live_iff.mpr ⟨_, hcall⟩
      refine bind (asyncPlainEventFire_spec (by exact alive)) ?_
      rintro _ rfl
      exact release _ rfl rfl
    · exact release _ rfl rfl

theorem topicHubDrainCmd_spec (inv : HubInv { cmds := [c] } st) (hx : st.cmds.cell c = some x)
    (carries : x.Carries) (room : Bool) (matches_ : UInt32) :
    Returns (topicHubDrainCmd room st c matches_) HubOk := by
  unfold topicHubDrainCmd
  rw [read_ok hx, ok_bind]
  have freed := freeCmd {} inv hx
  have live : st.cmds.Live c := live_iff.mpr ⟨x, hx⟩
  unfold WsCmd.Carries at carries
  cases kind : x.kind with
  | publish =>
    rw [kind] at carries
    obtain ⟨p, payload⟩ := isSome_iff_exists.mp carries.1
    simp only [payload, carries.2, append_nil, toList_none] at freed ⊢
    refine bind (wsPayloadReleaseOpt_spec (o := some p) (by exact freed.payload)) ?_
    rintro st1 ⟨released, frame⟩
    rw [frame]
    refine mono (wsCmdFree_spec (by exact live)) ?_
    rintro _ rfl
    exact freed.setPayloads [] released
  | count =>
    rw [kind] at carries
    obtain ⟨q, query⟩ := isSome_iff_exists.mp carries.1
    simp only [query]
    have taken := takeQuery { cmds := [c] } inv hx query mem_cons_self
    refine bind (topicHubAnswerCount_spec { cmds := [c] } taken room matches_) ?_
    rintro st1 ⟨answered, kept⟩
    have hx1 : st1.cmds.cell c = some { x with query := none } := by simp_all
    have done := freeCmd {} answered hx1
    simp only [carries.2, toList_none, append_nil] at done
    refine mono (wsCmdFree_spec (live_iff.mpr ⟨_, hx1⟩)) ?_
    rintro _ rfl
    exact done
  | countReply =>
    rw [kind] at carries
    obtain ⟨q, query⟩ := isSome_iff_exists.mp carries.1
    simp only [query, carries.2, toList_none, append_nil] at freed ⊢
    refine bind (wsQuerySettle_spec {} st freed rfl rfl x.count) ?_
    rintro st1 ⟨settled, frame⟩
    rw [frame]
    refine mono (wsCmdFree_spec (by exact live)) ?_
    rintro _ rfl
    exact settled.record _ _

section

variable (inv : HubOk st)
include inv

theorem threadMailboxProcess_spec (live : st.mailboxes.Live m) (room : Bool)
    (matches_ : UInt32) : Returns (threadMailboxProcess room st m matches_) HubOk := by
  obtain ⟨box, hm⟩ := Heap.live_iff.mp live
  unfold threadMailboxProcess
  rw [Heap.read_ok hm, ok_bind]
  cases batch : box.batch with
  | nil => exact .pure inv
  | cons c rest =>
    have places : 0 < placesOf st.mailboxes c := by grind [Heap.le_total, placesOf]
    have known : st.cmds.Live c := by
      have place : placesOf st.mailboxes c + 0 = _ := (cmd inv).place c
      by_contra gone
      rw [if_neg gone] at place
      omega
    obtain ⟨x, hx⟩ := Heap.live_iff.mp known
    exact topicHubDrainCmd_spec (popBatch inv hm batch) hx ((cmd inv).carries hx not_mem_nil)
      room matches_

theorem threadMailboxFetch_spec (live : st.mailboxes.Live m) :
    Returns (threadMailboxFetch st m) HubOk := by
  obtain ⟨box, hm⟩ := live_iff.mp live
  unfold threadMailboxFetch
  rw [read_ok hm, ok_bind]
  split
  · next empty =>
    refine .pure { inv with
      cmd := { inv.cmd with place := ?_ }, slot := inv.slot.modifyMailbox m _ }
    intro c
    have moved : _ + (box.queue.count c + box.batch.count c) =
        _ + ((box.queue.drop topicHubMailboxBatch).count c +
          (box.queue.take topicHubMailboxBatch).count c) :=
      total_modify hm (fun x =>
        ⟨x.queue.drop topicHubMailboxBatch, x.queue.take topicHubMailboxBatch⟩)
        fun y => y.queue.count c + y.batch.count c
    have split : (box.queue.take topicHubMailboxBatch).count c +
        (box.queue.drop topicHubMailboxBatch).count c = box.queue.count c := by
      rw [← count_append, take_append_drop]
    have place : placesOf st.mailboxes c + 0 = _ := (cmd inv).place c
    grind [placesOf]
  · exact .pure inv

theorem HubInv.postCount {x : WsQuery} (hx : st.queries.cell q = some x)
    (live : st.mailboxes.Live m) (topic : Bytes) : HubOk { st with
      cmds := st.cmds.alloc ⟨.count, none, some q, 0, 0, topic⟩
      queries := st.queries.modify q fun y =>
        { y with refcount := y.refcount + 1, pending := y.pending + 1 }
      mailboxes := st.mailboxes.modify m fun y =>
        { y with queue := y.queue ++ [st.cmds.next] } } := by
  refine { inv with
    payload := inv.payload.congr fun p => ?_
    query := inv.query.retain hx rfl ?_
    cmd := (cmd inv).post live ⟨rfl, rfl⟩
    slot := inv.slot.modifyMailbox m _
    call := (call inv).modifyQuery q fun _ waited => ⟨waited, rfl⟩, ask := ?_ }
  · simp only [payloadHolders, total_alloc]
    rfl
  · grind [queryHolders, total_alloc]
  · apply AskInv.modify inv.ask q
    · intro r other
      rw [total_alloc]
      show _ + (some q).toList.count r + 0 ≤ _
      rw [count_toList_ne other]
      exact le_rfl
    · intro y hy waited
      rw [total_alloc]
      show _ + (some q).toList.count q + 0 ≤ y.pending + 1
      rw [count_toList_self]
      exact Nat.succ_le_succ (inv.ask hy waited)

theorem askSlot_spec {x : WsQuery} (hx : st.queries.cell q = some x)
    (room : SlotId → Bool) (ownSlot : SlotId) (topic : Bytes)
    (interest : List (List InterestBucket)) (slot : SlotId) :
    Returns (askSlot room ownSlot topic interest q st slot) fun st' =>
      HubOk st' ∧ ∃ y, st'.queries.cell q = some y := by
  unfold askSlot
  split
  · exact pure ⟨inv, x, hx⟩
  · simp only [read_ok hx, ok_bind]
    refine bind (topicHubPostLocked_spec (by exact inv.slot) (room slot) slot
      st.cmds.next) ?_
    rintro r (rfl | ⟨m, live, rfl⟩)
    · -- refused: the reference is taken back
      have restored : (st.queries.modify q fun y => { y with refcount := y.refcount + 1 }).modify q
          (fun y => { y with refcount := y.refcount - 1 }) = st.queries := by
        rw [modify_modify]
        exact modify_eq_self fun y _ => rfl
      simp only [Bool.false_eq_true, if_false, restored]
      refine bind (wsCmdFree_spec
        (by exact live_iff.mpr ⟨_, alloc_cell_self _ _⟩)) ?_
      rintro _ rfl
      have refused := refused inv ⟨.count, none, some q, 0, 0, topic⟩
      exact pure ⟨refused.record _ _, x, hx⟩
    · simp only [if_true, modify_modify]
      refine pure ⟨(postCount inv hx live topic).log _,
        { x with refcount := x.refcount + 1, pending := x.pending + 1 }, ?_⟩
      show (st.queries.modify q _).cell q = _
      rw [modify_cell_self, hx]
      rfl

theorem HubInv.startCount (slot : SlotId) (gen matches_ : UInt32) : HubOk { st with
      queries := st.queries.alloc ⟨1, slot, gen, 0, matches_, false, some st.calls.next⟩
      calls := st.calls.alloc (.counting st.queries.next) } := by
  have dead := inv.query.dead (st.queries.fresh _ le_rfl)
  simp only [queryHolders, count_nil] at dead
  have calls := (call inv).alloc (.counting st.queries.next) trivial
  refine { inv with
    payload := inv.payload.congr fun p => ?_
    query := inv.query.alloc Nat.one_pos ?_ ?_
    entry := inv.entry.congr fun e => ?_
    call := { calls with done := ?_ }, ask := ?_ }
  · simp only [payloadHolders, total_alloc]
    rfl
  · grind [queryHolders, total_alloc, HubCall.query]
  · intro q other
    simp only [queryHolders, total_alloc]
    show _ + (_ + (some st.queries.next).toList.count q) + 0 = _
    rw [count_toList_ne other]
    rfl
  · simp only [entryHolders, total_alloc]
    rfl
  · intro q x hx waited
    rcases alloc_cell_eq_some.mp hx with ⟨rfl, rfl⟩ | old
    · simp
    · exact calls.done old waited
  · intro q x hx waited
    rcases alloc_cell_eq_some.mp hx with ⟨rfl, rfl⟩ | old
    · grind
    · exact inv.ask old waited

theorem topicHubCountStart_spec (zendHash : Bytes → UInt32)
    (room : SlotId → Bool) (loc : WsLocal) (topic : Bytes) (matches_ : UInt32) (eventOk : Bool) :
    Returns (topicHubCountStart zendHash room st loc topic matches_ eventOk) HubOk := by
  unfold topicHubCountStart
  split
  · exact .pure inv
  · have started := (startCount inv loc.slot loc.gen matches_).log
      (.asked st.queries.next matches_)
    refine .mono (foldlM
      (I := fun st' => HubOk st' ∧ ∃ x, st'.queries.cell st.queries.next = some x) _ ?_ _
      ⟨started, _, alloc_cell_self _ _⟩) (fun st' kept => kept.1)
    grind [askSlot_spec]

theorem topicHubCountReturn_spec
    (hc : st.calls.cell c = some (.counting q)) : Returns (topicHubCountReturn st c q) HubOk := by
  have queries : ∀ r, (st.calls.free c).total (·.query.toList.count r) +
      (some q).toList.count r = st.calls.total (·.query.toList.count r) :=
    fun r => total_free hc (·.query.toList.count r)
  have held : 0 < queryHolders st.cmds st.calls q + ([] : List QueryPtr).count q := by
    grind [count_toList_self, queryHolders]
  obtain ⟨x, hx⟩ := inv.query.exists_of_pos held
  simp only [topicHubCountReturn, read_ok hx, ok_bind]
  have marked : HubOk { st with
      queries := st.queries.modify q ({ · with abandoned := true, done := none }) } := by
    refine { inv with
      query := inv.query.modify q fun _ => rfl
      call := (call inv).modifyQuery q ?_, ask := ?_ }
    · rintro _ ⟨⟩
    · apply AskInv.modify inv.ask q
      · exact fun _ _ => le_rfl
      · rintro _ _ ⟨⟩
  have given : ∀ r y, some q = some r → (st.queries.modify q
      ({ · with abandoned := true, done := none })).cell r = some y → y.abandoned = true := by
    rintro _ y ⟨⟩ hy
    obtain ⟨z, _, rfl⟩ := modify_cell_eq_some.mp hy
    rw [if_pos rfl]
  have abandoned := endCall marked hc (by rintro _ _ ⟨⟩) given
  refine .mono (wsQueryRelease_spec {} (abandoned.log _) rfl) ?_
  rintro st' ⟨kept, frame⟩
  rw [frame]
  exact kept

end

/-! ## Attaching and detaching -/

variable {mailboxes : Heap ThreadMailbox} {hand : List CmdPtr} {cmds : Heap WsCmd}

theorem CmdInv.allocMailbox
    (inv : CmdInv cmds mailboxes hand) : CmdInv cmds (mailboxes.alloc ⟨[], []⟩) hand := by
  refine { inv with place := ?_ }
  intro c
  rw [← inv.place c]
  simp only [placesOf, total_alloc, count_nil]
  rfl

theorem CmdInv.freeMailbox (inv : CmdInv cmds mailboxes hand) (hm : mailboxes.cell m = some box)
    (queue : box.queue = []) (batch : box.batch = []) : CmdInv cmds (mailboxes.free m) hand := by
  refine { inv with place := ?_ }
  intro c
  have freed := total_free hm fun y => y.queue.count c + y.batch.count c
  rw [← inv.place c]
  grind [placesOf]

variable {slots : SlotId → HubSlot} {locals : Heap WsLocal}

theorem SlotInv.attach (inv : SlotInv slots locals mailboxes) {slot : SlotId}
    (vacant : (slots slot).taken = false) (table : InterestCounters) (gen : UInt32) :
    SlotInv (update slots slot ⟨true, some mailboxes.next, some table, gen⟩)
      (locals.alloc ⟨slot, gen, mailboxes.next, [], 0, false, .idle⟩)
      (mailboxes.alloc ⟨[], []⟩) := by
  have noInbox : (slots slot).inbox = none := by
    have filled := inv.filled slot
    simp_all [HubSlot.Filled]
  have older : ∀ {l loc}, locals.cell l = some loc → loc.inbox ≠ mailboxes.next := by
    intro l loc hl
    obtain ⟨box, hbox⟩ := live_iff.mp (inv.fits hl).live
    exact ne_next hbox
  refine ⟨?_, ?_, ?_, ?_, ?_⟩
  · exact (forall_update_iff slots fun _ => HubSlot.Filled).mpr
      ⟨⟨rfl, rfl⟩, fun s _ => inv.filled s⟩
  · intro s m owned
    by_cases here : s = slot
    · subst here
      rw [update_self] at owned
      cases owned
      exact ⟨locals.next, _, alloc_cell_self _ _, rfl, rfl, LocalPc.noConfusion,
        LocalPc.noConfusion⟩
    · rw [update_of_ne here] at owned
      obtain ⟨l, loc, hl, rest⟩ := inv.inbox owned
      exact ⟨l, loc, alloc_cell_of_some hl, rest⟩
  · intro l loc hl
    rcases alloc_cell_eq_some.mp hl with ⟨rfl, rfl⟩ | old
    · exact ⟨fun _ => by rw [update_self], live_iff.mpr ⟨_, alloc_cell_self _ _⟩, fun _ => rfl⟩
    · obtain ⟨own, live, drained⟩ := inv.fits old
      obtain ⟨box, hbox⟩ := live_iff.mp live
      refine ⟨?_, live_iff.mpr ⟨box, alloc_cell_of_some hbox⟩, drained⟩
      grind
  · intro m live
    obtain ⟨box, hbox⟩ := live_iff.mp live
    rcases alloc_cell_eq_some.mp hbox with ⟨rfl, _⟩ | old
    · exact ⟨locals.next, _, alloc_cell_self _ _, rfl⟩
    · obtain ⟨l, loc, hl, mine⟩ := inv.owner (live_iff.mpr ⟨box, old⟩)
      exact ⟨l, loc, alloc_cell_of_some hl, mine⟩
  · intro l l' loc loc' hl hl' same
    rcases alloc_cell_eq_some.mp hl with ⟨rfl, rfl⟩ | old
    · rcases alloc_cell_eq_some.mp hl' with ⟨rfl, rfl⟩ | old'
      · rfl
      · exact absurd same.symm (older old')
    · rcases alloc_cell_eq_some.mp hl' with ⟨rfl, rfl⟩ | old'
      · exact absurd same (older old)
      · exact inv.unique old old' same

theorem topicHubAttach_spec (inv : HubOk st) (created : Bool) :
    HubOk (topicHubAttach st created) := by
  unfold topicHubAttach
  split
  · exact inv
  · dsimp only
    split
    · -- no slot: the mailbox is given back
      have box : CmdInv st.cmds ((st.mailboxes.alloc ⟨[], []⟩).free st.mailboxes.next) [] :=
        (HubInv.cmd inv).allocMailbox.freeMailbox (alloc_cell_self _ _) rfl rfl
      have slots := HubInv.slot inv
      refine { inv with cmd := box, slot := { slots with fits := ?_, owner := ?_ } }
      · intro l loc hl
        refine { slots.fits hl with live := ?_ }
        simp only [Heap.Live, alloc_free_cell]
        exact (slots.fits hl).live
      · intro m live
        simp only [Heap.Live, alloc_free_cell] at live
        exact slots.owner live
    · next slot found =>
      have vacant : (st.slots slot).taken = false := by grind
      have grown : ∀ e, (st.locals.alloc ⟨slot, (st.slots slot).gen + 1, st.mailboxes.next, [], 0,
          false, .idle⟩).total (·.retryQueue.count e) = st.locals.total (·.retryQueue.count e) := by
        intro e
        rw [total_alloc]
        rfl
      apply HubInv.log
      refine ⟨inv.payload, inv.query, ?_, (HubInv.cmd inv).allocMailbox, ?_,
        (HubInv.slot inv).attach vacant _ _, ?_, inv.ask⟩
      · simp only [entryHolders, grown]
        exact inv.entry
      · intro e
        rw [grown]
        exact inv.queue e
      · apply (HubInv.call inv).locals
        grind [alloc_cell_of_some]

theorem SlotInv.retire (inv : SlotInv slots locals mailboxes) (hl : locals.cell l = some loc)
    (idle : loc.pc = .idle) : SlotInv (update slots loc.slot
        { slots loc.slot with inbox := none, interest := none, taken := false })
      (locals.modify l ({ · with pc := .retired })) mailboxes := by
  have mine : (slots loc.slot).inbox = some loc.inbox :=
    (inv.fits hl).own (by simp [WsLocal.Attached, idle])
  -- nobody else is attached to the slot
  have alone : ∀ {k x}, locals.cell k = some x → x.Attached → x.slot = loc.slot → k = l := by
    intro k x hx attached same
    have own := (inv.fits hx).own attached
    grind [unique]
  refine ⟨?_, ?_, ?_, ?_, ?_⟩
  · exact (forall_update_iff slots fun _ => HubSlot.Filled).mpr
      ⟨⟨rfl, rfl⟩, fun s _ => inv.filled s⟩
  · intro s m owned
    by_cases here : s = loc.slot
    · grind
    · rw [update_of_ne here] at owned
      obtain ⟨k, x, hx, atSlot, rest⟩ := inv.inbox owned
      refine ⟨k, x, ?_, atSlot, rest⟩
      grind [modify_cell_ne]
  · intro k y hy
    obtain ⟨x, hx, rfl⟩ := modify_cell_eq_some.mp hy
    obtain ⟨own, live, drained⟩ := inv.fits hx
    split
    · exact ⟨fun attached => absurd rfl attached.1, live, fun waits => by cases waits⟩
    · refine ⟨?_, live, drained⟩
      grind
  · intro m live
    obtain ⟨k, x, hx, mine⟩ := inv.owner live
    refine ⟨k, _, modify_cell_eq_some.mpr ⟨x, hx, rfl⟩, ?_⟩
    split <;> exact mine
  · intro k k' y y' hy hy' same
    obtain ⟨x, hx, rfl⟩ := modify_cell_eq_some.mp hy
    obtain ⟨x', hx', rfl⟩ := modify_cell_eq_some.mp hy'
    apply inv.unique hx hx'
    split at same <;> split at same <;> exact same

theorem topicHubDetachRetire_spec (inv : HubOk st) (hl : st.locals.cell l = some loc)
    (idle : loc.pc = .idle) : HubOk (topicHubDetachRetire st l loc) := by
  have queued : ∀ e, (st.locals.modify l ({ · with pc := .retired })).total
      (·.retryQueue.count e) = st.locals.total (·.retryQueue.count e) :=
    fun e => total_modify_same l fun _ => rfl
  refine ⟨inv.payload, inv.query, ?_, inv.cmd, ?_, (slot inv).retire hl idle, ?_, inv.ask⟩
  · simp only [topicHubDetachRetire, entryHolders, queued]
    exact inv.entry
  · intro e
    simp only [topicHubDetachRetire, queued]
    exact inv.queue e
  · apply (call inv).modifyLocal hl
    grind

theorem topicHubDetachFree_spec (inv : HubOk st) (hl : st.locals.cell l = some loc)
    (pc : loc.pc = .draining) : Returns (topicHubDetachFree st l loc) HubOk := by
  have slots := slot inv
  obtain ⟨box, hm⟩ := live_iff.mp (slots.fits hl).live
  unfold topicHubDetachFree
  rw [read_ok hm, ok_bind]
  split
  · next empty =>
    have queued : ∀ e, (st.locals.free l).total (·.retryQueue.count e) =
        st.locals.total (·.retryQueue.count e) := by
      have drained := (slots.fits hl).drained pc
      grind [total_free]
    have left : ∀ {k x}, (st.locals.free l).cell k = some x →
        st.locals.cell k = some x ∧ x.inbox ≠ loc.inbox := by
      intro k x hx
      obtain ⟨other, old⟩ := free_cell_eq_some.mp hx
      grind [unique]
    refine .pure ⟨inv.payload, inv.query, ?_,
      (cmd inv).freeMailbox hm empty.1 empty.2, ?_,
      ⟨slots.filled, ?_, ?_, ?_, ?_⟩, ?_, inv.ask⟩
    · simp only [entryHolders, queued]
      exact inv.entry
    · intro e
      simp only [queued]
      exact inv.queue e
    · intro s m owned
      obtain ⟨k, x, hx, atSlot, atInbox, attached⟩ := slots.inbox owned
      refine ⟨k, x, free_cell_eq_some.mpr ⟨?_, hx⟩, atSlot, atInbox, attached⟩
      rintro rfl
      rw [hl] at hx
      cases hx
      exact attached.2 pc
    · intro k x hx
      obtain ⟨old, other⟩ := left hx
      refine { slots.fits old with live := ?_ }
      simp only [Live, free_cell_ne _ other]
      exact (slots.fits old).live
    · intro m live
      obtain ⟨y, hy⟩ := live_iff.mp live
      obtain ⟨other, old⟩ := free_cell_eq_some.mp hy
      obtain ⟨k, x, hx, mine⟩ := slots.owner (live_iff.mpr ⟨y, old⟩)
      refine ⟨k, x, free_cell_eq_some.mpr ⟨?_, hx⟩, mine⟩
      grind
    · grind [unique]
    · apply (call inv).locals
      intro k x c _ hx atSend
      refine ⟨x, free_cell_eq_some.mpr ⟨?_, hx⟩, atSend⟩
      grind
  · exact .pure inv

theorem hubInterestPublish_spec (inv : HubOk st) (zendHash : Bytes → UInt32) (slot : SlotId)
    (filter : Bytes) (joining : Bool) :
    HubOk (hubInterestPublish zendHash st slot filter joining) := by
  have slots := HubInv.slot inv
  refine { inv with slot := { slots with
    filled := fun s => ⟨(slots.filled s).1, ?_⟩, fits := fun hl => { slots.fits hl with } } }
  show (wsInterestBump zendHash st.interestTables slot filter (wsTopicInterestPrefix filter)
    (if joining then 1 else -1) s).isSome = (st.slots s).inbox.isSome
  rw [← (slots.filled s).2]
  unfold wsInterestBump
  cases table : st.interestTables slot with
  | none => rfl
  | some counters =>
    by_cases here : s = slot
    · subst here
      simp only [update_self]
      exact (congrArg isSome table).symm
    · simp only [update_of_ne here]
      rfl

/-! ## Runs -/

/-- What has to hold of the operations that neither deliver nor retry. -/
structure HubAsides (zendHash : Bytes → UInt32) (st : HubState)
    (Good : HubM HubState → Prop) : Prop where
  free : ∀ l loc, st.locals.cell l = some loc → loc.pc = .draining →
    Good (topicHubDetachFree st l loc)
  publishEnd : ∀ c payload, st.calls.cell c = some (.publishing payload) →
    Good (topicHubPublishEnd st c payload)
  fetch : ∀ l loc, st.locals.cell l = some loc → Good (threadMailboxFetch st loc.inbox)
  process : ∀ room matches_ l loc, st.locals.cell l = some loc →
    Good (threadMailboxProcess room st loc.inbox matches_)
  count : ∀ room loc topic matches_ eventOk,
    Good (topicHubCountStart zendHash room st loc topic matches_ eventOk)
  countReturn : ∀ c q, st.calls.cell c = some (.counting q) → Good (topicHubCountReturn st c q)

/-- What has to hold of each operation of the hub for it to hold of every event. -/
structure HubMoves (zendHash : Bytes → UInt32) (st : HubState)
    (Good : HubM HubState → Prop) : Prop extends HubAsides zendHash st Good where
  keep : Good (pure st)
  attach : ∀ created, Good (pure (topicHubAttach st created))
  retire : ∀ l loc, st.locals.cell l = some loc → loc.pc = .idle →
    Good (pure (topicHubDetachRetire st l loc))
  teardown : ∀ l loc, st.locals.cell l = some loc → loc.pc = .retired →
    Good (topicHubRetryTeardown st l loc)
  publish : ∀ room owner message, Good (topicHubPublish zendHash room st owner message)
  send : ∀ room owner blocking message,
    (∀ l loc, owner = some (l, loc) → st.locals.cell l = some loc ∧ loc.pc = .idle) →
    Good (topicHubSendFanout zendHash room st owner blocking message)
  settle : ∀ c owner blocking message payload full posted args,
    st.calls.cell c = some (.sending owner blocking message payload full posted) →
    Good (topicHubSendSettle st c owner blocking message payload full posted args)
  resume : ∀ c e posted, st.calls.cell c = some (.parked e posted) →
    Good (topicHubSendResume st c e posted)
  drain : ∀ room now l loc, st.locals.cell l = some loc → loc.pc = .idle →
    Good (topicHubRetryDrain room now st l loc)
  interest : ∀ slot filter joining, Good (pure (hubInterestPublish zendHash st slot filter joining))

variable {zendHash : Bytes → UInt32}

theorem HubMoves.step (moves : HubMoves zendHash st Good) (event : HubEvent) :
    Good (HubEvent.step zendHash st event) := by
  cases event with
  | publish owner | send owner => cases owner <;> grind [HubEvent.step, atPc, HubMoves]
  | _ => grind [HubEvent.step, atPc, atDrain, HubMoves, HubAsides]

theorem HubOk.moves (inv : HubOk st) (zendHash : Bytes → UInt32) :
    HubMoves zendHash st (Returns · HubOk) where
  keep := .pure inv
  attach created := .pure (topicHubAttach_spec inv created)
  retire _ _ hl pc := .pure (topicHubDetachRetire_spec inv hl pc)
  teardown _ _ := topicHubRetryTeardown_spec inv
  free _ _ := topicHubDetachFree_spec inv
  publish := topicHubPublish_spec inv zendHash
  publishEnd _ _ := topicHubPublishEnd_spec inv
  send room _ blocking message idle :=
    topicHubSendFanout_spec inv zendHash room idle blocking message
  settle _ _ _ _ _ _ _ args hc := topicHubSendSettle_spec inv hc args
  resume _ _ _ := topicHubSendResume_spec inv
  drain room now _ _ hl pc := topicHubRetryDrain_spec inv hl pc room now
  fetch _ _ hl := threadMailboxFetch_spec inv (inv.slot.fits hl).live
  process room matches_ _ _ hl := threadMailboxProcess_spec inv (inv.slot.fits hl).live room matches_
  count := topicHubCountStart_spec inv zendHash
  countReturn _ _ := topicHubCountReturn_spec inv
  interest slot filter joining := .pure (hubInterestPublish_spec inv zendHash slot filter joining)

theorem HubEvent.step_safe (inv : HubOk st) (zendHash : Bytes → UInt32) (event : HubEvent) :
    Returns (HubEvent.step zendHash st event) HubOk :=
  (inv.moves zendHash).step event

theorem topicHubCreate_ok : HubOk topicHubCreate where
  payload := .empty
  query := .empty
  entry := .empty
  cmd := ⟨fun _ => rfl, nofun⟩
  queue := fun _ => rfl
  slot := ⟨fun _ => ⟨rfl, rfl⟩, nofun, nofun, nofun, nofun⟩
  call := ⟨nofun, nofun, nofun⟩
  ask := nofun

theorem runHub_safe (zendHash : Bytes → UInt32) (events : List HubEvent) :
    Returns (runHub zendHash events) HubOk := by
  apply Returns.foldlM
  · grind [HubEvent.step_safe]
  · exact topicHubCreate_ok

theorem runHub_keeps (created : P topicHubCreate)
    (moves : ∀ {st}, HubOk st → P st → HubMoves zendHash st (Ensures · P))
    (events : List HubEvent) : Returns (runHub zendHash events) fun st => HubOk st ∧ P st := by
  apply Returns.foldlM
  · rintro st event _ ⟨inv, kept⟩
    exact (HubEvent.step_safe inv zendHash event).and_ensures ((moves inv kept).step event)
  · exact ⟨topicHubCreate_ok, created⟩

/-! ## Lifetimes -/

/-- What a reachable state says about the lifetime of payloads, commands and entries. A release
of an object that is already gone, and any read of one, is a fault of the model. -/
structure HubLifetimes (st : HubState) : Prop where
  payloadCount : ∀ {p x}, st.payloads.cell p = some x →
    x.refcount = payloadHolders st.cmds st.entries st.calls p
  payloadLive : ∀ p, st.payloads.Live p ↔ 0 < payloadHolders st.cmds st.entries st.calls p
  entryCount : ∀ {e x}, st.entries.cell e = some x → x.refcount = entryHolders st.locals st.calls e
  entryLive : ∀ e, st.entries.Live e ↔ 0 < entryHolders st.locals st.calls e
  /-- A command is freed by the consumer of the one mailbox it sits in. -/
  commandPlace : ∀ c, placesOf st.mailboxes c = if st.cmds.Live c then 1 else 0
  /-- A suspended sender finds its entry when it resumes or is cancelled. -/
  parkedAlive : ∀ {c e posted}, st.calls.cell c = some (.parked e posted) → st.entries.Live e
  /-- When every worker has detached and every call has returned, nothing is left. -/
  allFreed : (∀ l, ¬ st.locals.Live l) → (∀ c, ¬ st.calls.Live c) →
    (∀ p, ¬ st.payloads.Live p) ∧ (∀ c, ¬ st.cmds.Live c) ∧ ∀ e, ¬ st.entries.Live e

theorem HubInv.allFreed (inv : HubOk st) (noLocals : ∀ l, ¬ st.locals.Live l)
    (noCalls : ∀ c, ¬ st.calls.Live c) :
    (∀ p, ¬ st.payloads.Live p) ∧ (∀ c, ¬ st.cmds.Live c) ∧ ∀ e, ¬ st.entries.Live e := by
  have noMailboxes : ∀ m, ¬ st.mailboxes.Live m := by
    intro m live
    obtain ⟨l, loc, hl, _⟩ := (slot inv).owner live
    exact noLocals l (live_iff.mpr ⟨loc, hl⟩)
  have noCmds : ∀ c, ¬ st.cmds.Live c := by
    intro c live
    have place : placesOf st.mailboxes c + 0 = _ := (cmd inv).place c
    rw [if_pos live, placesOf, total_eq_zero noMailboxes] at place
    omega
  have noEntries : ∀ e, ¬ st.entries.Live e := by
    intro e live
    obtain ⟨x, hx⟩ := live_iff.mp live
    have held : 0 < entryHolders st.locals st.calls e + 0 := (entry inv).live hx |>.2
    grind [entryHolders, total_eq_zero]
  refine ⟨?_, noCmds, noEntries⟩
  intro p live
  obtain ⟨x, hx⟩ := live_iff.mp live
  have held : 0 < payloadHolders st.cmds st.entries st.calls p + 0 := (payload inv).live hx |>.2
  grind [payloadHolders, total_eq_zero]

theorem HubInv.lifetimes (inv : HubOk st) : HubLifetimes st where
  payloadCount := fun hx => ((payload inv).live hx).1
  payloadLive := (payload inv).live_iff_pos
  entryCount := fun hx => ((entry inv).live hx).1
  entryLive := (entry inv).live_iff_pos
  commandPlace := (cmd inv).place
  parkedAlive := by
    intro c e posted hc
    have here : (some e).toList.count e ≤ st.calls.total (·.entry.toList.count e) :=
      le_total hc (·.entry.toList.count e)
    rw [count_toList_self] at here
    apply ((entry inv).live_iff_pos e).mpr
    simp only [entryHolders]
    omega
  allFreed := allFreed inv

/-- In every run nothing is read or freed after its release, the counters are the numbers of
references, and an object lives exactly as long as it is referenced. -/
theorem hub_objects_live_while_referenced (zendHash : Bytes → UInt32) (events : List HubEvent) :
    Returns (runHub zendHash events) HubLifetimes :=
  (runHub_safe zendHash events).mono fun _ inv => lifetimes inv

/-- In every run a mailbox is in a slot exactly if one attached worker, and no other, has them. -/
theorem hub_slots_owned (zendHash : Bytes → UInt32) (events : List HubEvent) :
    Returns (runHub zendHash events) fun st => ∀ s m, (st.slots s).inbox = some m ↔
      ∃! l, ∃ loc, st.locals.cell l = some loc ∧ loc.Attached ∧ loc.slot = s ∧ loc.inbox = m := by
  refine (runHub_safe zendHash events).mono fun st inv s m => ⟨fun filled => ?_, ?_⟩
  · obtain ⟨l, loc, hl, isSlot, inbox, attached⟩ := (slot inv).inbox filled
    refine ⟨l, ⟨loc, hl, attached, isSlot, inbox⟩, ?_⟩
    rintro l' ⟨loc', hl', -, -, inbox'⟩
    exact (slot inv).unique hl' hl (inbox'.trans inbox.symm)
  · rintro ⟨l, ⟨loc, hl, attached, rfl, rfl⟩, -⟩
    exact ((slot inv).fits hl).own attached

end TrueAsync.Websocket

import TrueAsync.Websocket.HubDelivery

/-!
# Generations and the reuse of slots

A parked target names its worker by slot and generation. The generation is a 32-bit counter of
the attaches of the slot, so it tells two attachments apart unless the slot was attached a
multiple of `2 ^ 32` times between them. A run with exactly so many attaches between a send and
its retry posts the message to a worker that joined later.
-/

namespace TrueAsync.Websocket

open TrueAsync.Lib List Heap

variable {st st' : HubState}

/-! ## What a target names -/

variable {event : HubTrace}

theorem inboxesOf_split (s : SlotId) (before mid : List HubTrace)
    (unseen : event.attachedTo s = none) :
    inboxesOf s (before ++ event :: mid) = inboxesOf s before ++ inboxesOf s mid := by
  grind [inboxesOf]

variable {k : Nat}

/-- Equal generations are a multiple of `2 ^ 32` attaches apart. -/
theorem gen_wraps (same : UInt32.ofNat k = UInt32.ofNat (k + j)) (few : j < 2 ^ 32) : j = 0 := by
  grind [UInt32.toNat_ofNat']

variable {m : MailboxPtr}

/-- A target names the same attachment later exactly when its slot was attached fewer than
`2 ^ 32` times in between. -/
theorem Names.same_iff (unseen : event.attachedTo t.slot = none)
    (distinct : (inboxesOf t.slot (before ++ event :: mid)).Nodup) (early : Names before t m)
    (late : Names (before ++ event :: mid) t m') :
    m' = m ↔ (inboxesOf t.slot mid).length < 2 ^ 32 := by
  unfold Names at late
  rw [inboxesOf_split _ _ _ unseen] at distinct late
  constructor
  · intro same
    by_contra many
    have some_mid : inboxesOf t.slot mid ≠ [] := by
      intro none
      rw [none] at many
      exact many (by decide)
    have last : (inboxesOf t.slot mid).getLast? = some m' := by
      rw [← late.2, getLast?_append_of_ne_nil _ some_mid]
    have disjoint := (nodup_append.mp distinct).2.2
    exact disjoint m (mem_of_mem_getLast? early.2) m' (mem_of_mem_getLast? last) same.symm
  · intro few
    have lengths : UInt32.ofNat (inboxesOf t.slot before).length =
        UInt32.ofNat ((inboxesOf t.slot before).length + (inboxesOf t.slot mid).length) := by
      rw [← early.1, late.1, length_append]
    have none : inboxesOf t.slot mid = [] := length_eq_zero_iff.mp (gen_wraps lengths few)
    have last := late.2
    rw [none, append_nil, early.2] at last
    exact (Option.some.inj last).symm

/-! ## Delivery -/

/-- What a reachable state says about deliveries. -/
structure SendDelivery (st : HubState) : Prop where
  /-- A payload is posted to a mailbox at most once. -/
  once : (postsOf st.trace).Nodup
  /-- A retry comes after the send found its target full, and reaches the attachment that was
  full exactly when the slot was attached fewer than `2 ^ 32` times in between. -/
  home : ∀ {past p t m' future}, st.trace = past ++ .retried p t m' :: future →
    (∃ m, .missed p t m ∈ past) ∧
    ∀ {before m mid}, past = before ++ .missed p t m :: mid →
      (m' = m ↔ (inboxesOf t.slot mid).length < 2 ^ 32)
  /-- An entry accounts for the targets that were full at the time of the send. -/
  sum : ∀ {e p ts x}, .parked e (some p) ts ∈ st.trace → st.entries.cell e = some x →
    ts = missedOf p st.trace ∧ x.delivered + x.gone + x.pending.length = ts.length
  /-- Every entry was parked by a send. -/
  known : ∀ {e x}, st.entries.cell e = some x → ∃ p ts, .parked e (some p) ts ∈ st.trace
  /-- A slot is taken exactly when it has a mailbox and an interest table. -/
  taken : ∀ s, (st.slots s).taken = true ↔
    (st.slots s).inbox.isSome = true ∧ (st.slots s).interest.isSome = true

theorem Delivered.sendDelivery (inv : HubOk st) (delivered : Delivered st) : SendDelivery st where
  once := delivered.delivery.posts.once
  home := by
    intro past p t m' future split
    have history := delivered.delivery.history
    have late : Names past t m' ∧ t ∈ missedOf p past := history past _ future split
    refine ⟨mem_missedOf.mp late.2, ?_⟩
    intro before m mid earlier
    subst earlier
    have early : Names before t m := by
      apply history before (.missed p t m) (mid ++ .retried p t m' :: future)
      rw [split, append_assoc, cons_append]
    refine Names.same_iff rfl ?_ early late.1
    have distinct := delivered.delivery.slots.fresh t.slot
    rw [split] at distinct
    unfold inboxesOf at distinct
    rw [filterMap_append] at distinct
    exact (nodup_append.mp distinct).1
  sum := by
    intro e p ts x parked hx
    exact ⟨(delivered.delivery.misses.parked parked).symm, delivered.sum parked hx⟩
  known := delivered.known
  taken := by
    intro s
    have slots := HubInv.slot inv
    rw [(slots.filled s).1, (slots.filled s).2, and_self]

/-- In every run a send posts at most one copy of its payload to an attachment, an entry accounts
for all targets of its send, and a slot is taken exactly when it has a mailbox and an interest
table. A parked target is only posted to the attachment it was parked for, unless the slot was
attached `2 ^ 32` times or more in between. -/
theorem delivery_once_within_generations (zendHash : Bytes → UInt32) (events : List HubEvent) :
    Returns (runHub zendHash events) SendDelivery :=
  (runHub_delivered zendHash events).mono fun _ done => done.2.sendDelivery done.1

/-! ## A wrapped generation -/

/-- Worker 0 sends to topic `a` while the mailbox of worker 1 refuses; the target is parked, and
worker 1 detaches. -/
def parkRun : List HubEvent :=
  [.attach true, .attach true, .interestPublish 1 [97] true,
    .send (some 0) false ⟨[97], [], false, 0⟩ (fun _ => false),
    .sendSettle 0 ⟨0, 1000, 50, 16, true, true⟩,
    .detachRetire 1, .detachTeardown 1, .detachFree 1]

/-- Attachment `l` comes and goes. -/
def passBy (l : LocalPtr) : List HubEvent :=
  [.attach true, .detachRetire l, .detachTeardown l, .detachFree l]

/-- After the park, `k` workers have come and gone. -/
structure Waiting (k : Nat) (st : HubState) : Prop where
  sender : (st.slots 0).taken = true
  free : (st.slots 1).taken = false
  gen : (st.slots 1).gen = UInt32.ofNat (k + 1)
  locals : st.locals.next = k + 2
  mailboxes : st.mailboxes.next = k + 2
  owner : ∃ loc, st.locals.cell 0 = some loc ∧ loc.pc = .idle ∧ loc.retryTimerArmed = true ∧
    loc.retryQueue = [0]
  entry : ∃ x, st.entries.cell 0 = some x ∧ x.payload = some 0 ∧ x.pending = [⟨1, 1⟩]
  missed : .missed 0 ⟨1, 1⟩ 1 ∈ st.trace

theorem Waiting.attach (waiting : Waiting k st) : topicHubAttach st true = HubState.log { st with
        mailboxes := st.mailboxes.alloc ⟨[], []⟩
        slots := Function.update st.slots 1
          ⟨true, some (k + 2), some fun _ => 0, UInt32.ofNat (k + 2)⟩
        slotsUsed := if 1 ≥ st.slotsUsed then 2 else st.slotsUsed
        locals := st.locals.alloc ⟨1, UInt32.ofNat (k + 2), k + 2, [], 0, false, .idle⟩ }
      (.attached 1 (k + 2)) := by
  have first : (range topicHubMaxWorkers).find? (fun slot => ¬ (st.slots slot).taken) = some 1 := by
    have zero : range topicHubMaxWorkers = 0 :: (range 1023).map Nat.succ := range_succ_eq_map
    have one : range 1023 = 0 :: (range 1022).map Nat.succ := range_succ_eq_map
    rw [zero, one, map_cons, find?_cons_of_neg (by simp [waiting.sender]),
      find?_cons_of_pos (by simp [waiting.free])]
  have gen : (st.slots 1).gen + 1 = UInt32.ofNat (k + 2) := by
    rw [waiting.gen]
    exact (UInt32.ofNat_add (k + 1) 1).symm
  unfold topicHubAttach
  rw [if_neg (by simp)]
  rw [first]
  dsimp only
  rw [gen, waiting.mailboxes]

variable {loc : WsLocal} {l : LocalPtr}

theorem atPc_returns (hl : st.locals.cell l = some loc) (here : loc.pc = pc)
    (run : Returns (f loc) Q) : Returns (atPc st l pc f) Q := by
  grind [atPc]

theorem detach_run (zendHash : Bytes → UInt32)
    (hl : st.locals.cell l = some loc) (idle : loc.pc = .idle) (queue : loc.retryQueue = [])
    (hm : st.mailboxes.cell loc.inbox = some ⟨[], []⟩) :
    Returns ([.detachRetire l, .detachTeardown l, .detachFree l].foldlM
      (HubEvent.step zendHash) st) fun st' => st'.slots = Function.update st.slots loc.slot
        { st.slots loc.slot with inbox := none, interest := none, taken := false } ∧
      st'.locals.next = st.locals.next ∧ (∀ k, k ≠ l → st'.locals.cell k = st.locals.cell k) ∧
      st'.mailboxes.next = st.mailboxes.next ∧ st'.entries = st.entries ∧ st'.trace = st.trace := by
  have retired : (topicHubDetachRetire st l loc).locals.cell l = some { loc with pc := .retired } := by
    simp only [topicHubDetachRetire, modify_cell_self, hl, Option.map_some]
  have drained : ((topicHubDetachRetire st l loc).locals.modify l fun x => { x with
      retryQueue := [], retryIntervalMs := 0, retryTimerArmed := false, pc := .draining }).cell l =
      some { loc with
        retryQueue := [], retryIntervalMs := 0, retryTimerArmed := false, pc := .draining } := by
    simp_all
  simp only [foldlM_cons, foldlM_nil, HubEvent.step, bind_pure]
  refine .bind (atPc_returns hl idle (.pure rfl)) ?_
  rintro st1 rfl
  refine .bind (atPc_returns retired rfl (Q := fun st' => st' = { topicHubDetachRetire st l loc with
    locals := (topicHubDetachRetire st l loc).locals.modify l fun x => { x with
      retryQueue := [], retryIntervalMs := 0, retryTimerArmed := false, pc := .draining } }) ?_) ?_
  · grind [topicHubRetryTeardown, Returns.pure]
  · rintro st2 rfl
    refine atPc_returns drained rfl ?_
    simp only [topicHubDetachFree]
    rw [read_ok (by exact hm), ok_bind, if_pos ⟨rfl, rfl⟩]
    refine .pure ⟨rfl, rfl, ?_, rfl, rfl, rfl⟩
    intro k other
    simp only [topicHubDetachRetire, free_cell_ne _ other, modify_cell_ne _ _ other]

theorem Waiting.passBy (waiting : Waiting k st) (zendHash : Bytes → UInt32) :
    Returns ((passBy (k + 2)).foldlM (HubEvent.step zendHash) st) (Waiting (k + 1)) := by
  unfold Websocket.passBy
  rw [foldlM_cons]
  simp only [HubEvent.step, pure_bind]
  rw [waiting.attach]
  have newest : st.locals.next = k + 2 := waiting.locals
  have arrived : (st.locals.alloc ⟨1, UInt32.ofNat (k + 2), k + 2, [], 0, false, .idle⟩).cell
      (k + 2) = some ⟨1, UInt32.ofNat (k + 2), k + 2, [], 0, false, .idle⟩ := by
    rw [← newest]
    exact alloc_cell_self _ _
  have empty : (st.mailboxes.alloc ⟨[], []⟩).cell (k + 2) = some ⟨[], []⟩ := by
    rw [← waiting.mailboxes]
    exact alloc_cell_self _ _
  refine .mono (detach_run zendHash (by exact arrived) rfl rfl (by exact empty)) ?_
  rintro st' ⟨slots, next, others, mailboxes, entries, trace⟩
  obtain ⟨loc, hl, rest⟩ := waiting.owner
  constructor
  · rw [slots]
    exact waiting.sender
  · rw [slots]
    rfl
  · rw [slots]
    rfl
  · rw [next]
    show st.locals.next + 1 = _
    omega
  · rw [mailboxes]
    show st.mailboxes.next + 1 = _
    rw [waiting.mailboxes]
  · refine ⟨loc, ?_, rest⟩
    rw [others 0 (Nat.ne_of_lt (Nat.succ_pos _))]
    exact alloc_cell_of_some hl
  · rw [entries]
    exact waiting.entry
  · rw [trace]
    exact mem_append_left _ waiting.missed

/-- `n` workers come and go. -/
def passersBy (n : Nat) : List HubEvent := (range n).flatMap fun k => passBy (k + 2)

theorem Waiting.passersBy (waiting : Waiting 0 st) (zendHash : Bytes → UInt32) (n : Nat) :
    Returns ((passersBy n).foldlM (HubEvent.step zendHash) st) (Waiting n) := by
  induction n with
  | zero => exact .pure waiting
  | succ n ih =>
    unfold Websocket.passersBy at ih ⊢
    rw [range_succ, flatMap_append, foldlM_append]
    refine ih.bind ?_
    intro st1 waiting1
    grind [Waiting.passBy]

variable {mailbox : ThreadMailbox}

theorem wsPostPublish_room (owned : (st.slots slot).inbox = some m)
    (hm : st.mailboxes.cell m = some mailbox)
    (space : mailbox.queue.length < topicHubMailboxCapacity) (p : PayloadPtr) (topic : Bytes)
    (exceptId : Nat) :
    Ensures (wsPostPublish true st slot p topic exceptId) fun r => r.2 = true := by
  simp only [wsPostPublish, wsPayloadAddref, topicHubPostLocked, threadMailboxPost, owned,
    bind_assoc, pure_bind]
  refine .bind (.read _ _ _) ?_
  intro x _
  rw [read_ok hm, ok_bind, if_pos ⟨trivial, space⟩]
  exact .pure rfl

theorem retryTick_posts (zendHash : Bytes → UInt32) (hl : st.locals.cell l = some loc)
    (idle : loc.pc = .idle) (armed : loc.retryTimerArmed = true) (queue : loc.retryQueue = [e])
    (hx : st.entries.cell e = some x) (owns : x.payload = some p) (pending : x.pending = [t])
    (owned : (st.slots t.slot).inbox = some m) (current : (st.slots t.slot).gen = t.gen)
    (hm : st.mailboxes.cell m = some mailbox)
    (space : mailbox.queue.length < topicHubMailboxCapacity) (now : Nat) :
    Ensures (HubEvent.step zendHash st (.retryTick l now fun _ _ => true)) fun st' =>
      ∃ future, st'.trace = st.trace ++ .posted p m :: .retried p t m :: future := by
  have target : ∀ pass, Ensures (retryTarget (fun _ _ => true) e (st, pass) t) fun r =>
      r.1.trace = st.trace ++ [.posted p m, .retried p t m, .settled e t .delivered] := by
    intro pass
    unfold retryTarget
    dsimp only
    rw [read_ok hx, ok_bind]
    simp only [owned, current, owns, ne_eq, not_true_eq_false, if_false]
    refine .bind ((wsPostPublish_room owned hm space p x.topic x.exceptId).and
      (wsPostPublish_frame true st t.slot p x.topic x.exceptId)) ?_
    rintro ⟨st1, posted⟩ ⟨taken, mail, _⟩
    dsimp only at taken mail
    rw [taken, if_pos rfl]
    apply Ensures.pure
    have trace : st1.trace = st.trace := by rw [mail]
    simp [HubState.log, trace]
  have entry : ∀ drain, Ensures (retryEntryPass (fun _ _ => true) now l (st, drain) e) fun r =>
      ∃ future, r.1.trace = st.trace ++ .posted p m :: .retried p t m :: future := by
    intro drain
    unfold retryEntryPass
    dsimp only
    rw [read_ok hx, ok_bind, pending]
    simp only [foldlM_cons, foldlM_nil, bind_pure]
    refine .bind (target _) ?_
    rintro ⟨st1, pass⟩ posted
    rw [posted]
    split
    · apply Ensures.pure
      exact ⟨_, by rw [append_assoc]; rfl⟩
    · exact .pure ⟨_, rfl⟩
  simp only [HubEvent.step, atPc, hl]
  rw [if_pos idle, if_pos armed]
  unfold topicHubRetryDrain
  rw [queue]
  simp only [foldlM_cons, foldlM_nil, bind_pure]
  refine .bind (entry _) ?_
  rintro ⟨st1, drain⟩ ⟨future, posted⟩
  refine .bind (retryEntryFinish_all_still drain.resolved st1) ?_
  intro st2 still
  apply Ensures.pure
  obtain ⟨extra, trace, _⟩ := still.undisturbed.logs
  refine ⟨future ++ extra, ?_⟩
  rw [trace, posted, append_assoc]
  rfl

/-- Between the send and the retry the slot of worker 1 is attached `2 ^ 32` times. -/
def wrapRun : List HubEvent :=
  parkRun ++ passersBy (2 ^ 32 - 1) ++ [.attach true, .retryTick 0 0 fun _ _ => true]

set_option maxRecDepth 4000 in
theorem parkRun_waiting : Returns (runHub (fun _ => 0) parkRun) (Waiting 0) := by
  refine ⟨_, rfl, ?_⟩
  constructor
  · rfl
  · rfl
  · rfl
  · rfl
  · rfl
  · exact ⟨_, rfl, rfl, rfl, rfl⟩
  · exact ⟨_, rfl, rfl, rfl⟩
  · exact mem_of_getElem? (i := 2) rfl

/-- The message parked for mailbox 1 is posted to mailbox `2 ^ 32 + 1`, which belongs to the
worker that attached last. -/
theorem generation_wrap_misdelivers : Returns (runHub (fun _ => 0) wrapRun) fun st => ∃ past future,
      st.trace = past ++ .retried 0 ⟨1, 1⟩ (2 ^ 32 + 1) :: future ∧ .missed 0 ⟨1, 1⟩ 1 ∈ past := by
  refine ((runHub_safe _ wrapRun).and_ensures ?_).mono fun _ done => done.2
  unfold runHub wrapRun
  rw [foldlM_append, foldlM_append]
  have waits := parkRun_waiting.bind fun st₁ waiting =>
    waiting.passersBy (fun _ => 0) (2 ^ 32 - 1)
  refine .bind waits.ensures ?_
  intro st waiting
  simp only [foldlM_cons, foldlM_nil, bind_pure]
  have attached : HubEvent.step (fun _ => 0) st (.attach true) = .ok (topicHubAttach st true) := rfl
  rw [attached, ok_bind, waiting.attach]
  obtain ⟨loc, hl, idle, armed, queue⟩ := waiting.owner
  obtain ⟨x, hx, owns, pending⟩ := waiting.entry
  have empty : (st.mailboxes.alloc ⟨[], []⟩).cell (2 ^ 32 - 1 + 2) = some ⟨[], []⟩ := by
    rw [← waiting.mailboxes]
    exact alloc_cell_self _ _
  refine .mono (retryTick_posts _ (by exact alloc_cell_of_some hl) idle armed queue
    (by exact hx) owns pending (by rfl) (by rfl) (by exact empty) (by decide) 0) ?_
  rintro st' ⟨future, trace⟩
  refine ⟨st.trace ++ [.attached 1 (2 ^ 32 + 1), .posted 0 (2 ^ 32 + 1)], future, ?_, ?_⟩
  · rw [trace]
    simp [HubState.log]
  · exact mem_append_left _ waiting.missed

end TrueAsync.Websocket

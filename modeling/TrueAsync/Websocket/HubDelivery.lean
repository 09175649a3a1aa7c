import TrueAsync.Websocket.HubAccounting
import TrueAsync.Websocket.HubOutbox

/-!
# At most one copy, to the right attachment

Every event of the hub keeps the promises of its outboxes (`Delivery`), and the number of targets
of an entry is what it delivered, what it lost and what it still owes (`Delivered`). So a send
posts one copy to an attachment at most, and a retry reaches the attachment that was full, unless
the slot was attached a multiple of `2 ^ 32` times in between.
-/

namespace TrueAsync.Websocket

open TrueAsync.Lib Ensures List Function Undisturbed Heap HubTrace

variable {box : Outbox} {st st' : HubState}

/-! ## Functions that leave the delivery alone -/

theorem Undisturbed.of_slots (slots : st'.slots = st.slots)
    (payloads : st.payloads.next ≤ st'.payloads.next)
    (mailboxes : st.mailboxes.next ≤ st'.mailboxes.next)
    (logs : Logs (fun event => event.isDelivery = false) st st') : Undisturbed st st' where
  gen := by
    intro s
    rw [slots]
  inbox := by
    grind
  payloads := payloads
  mailboxes := mailboxes
  logs := logs

theorem Undisturbed.of_eq (slots : st'.slots = st.slots) (payloads : st'.payloads = st.payloads)
    (mailboxes : st'.mailboxes = st.mailboxes) (trace : st'.trace = st.trace) :
    Undisturbed st st' := by
  grind [of_slots, Logs.of_eq]

variable {st1 : HubState}

theorem MailOnly.undisturbed (mail : MailOnly st st')
    (payloads : st'.payloads.next = st.payloads.next)
    (mailboxes : st'.mailboxes.next = st.mailboxes.next) : Undisturbed st st' := by
  refine of_slots ?_ payloads.symm.le mailboxes.symm.le (.of_eq ?_)
  · rw [mail]
  · rw [mail]

theorem isDelivery_of_isResult (event : HubTrace) (result : event.isResult = true) :
    event.isDelivery = false := by
  cases event <;> first | rfl | cases result

/-! ## Entries -/

def RetryEntry.tally (x : RetryEntry) : Nat := x.delivered + x.gone + x.pending.length

/-- The promises are kept, and every entry accounts for the targets it was parked with. -/
structure Delivered (st : HubState) : Prop where
  delivery : Delivery (outboxOf st) st
  bound : ∀ {e p ts}, .parked e p ts ∈ st.trace → e < st.entries.next
  sum : ∀ {e p ts x}, .parked e p ts ∈ st.trace → st.entries.cell e = some x → x.tally = ts.length
  known : ∀ {e x}, st.entries.cell e = some x → ∃ p ts, .parked e (some p) ts ∈ st.trace

/-- Entries go through this with the sums they have, and nothing new is promised. -/
structure Still (before after : HubState) : Prop where
  undisturbed : Undisturbed before after
  outbox : ∀ {o v}, outboxOf after o = some v → outboxOf before o = some v
  next : before.entries.next ≤ after.entries.next
  tally : ∀ {e y}, after.entries.cell e = some y →
    ∃ x, before.entries.cell e = some x ∧ y.tally = x.tally

theorem Delivered.keep (delivered : Delivered st) (delivery : Delivery (outboxOf st') st')
    (logs : Logs kind st st') (unparked : ∀ {e p ts}, ¬ kind (.parked e p ts))
    (next : st.entries.next ≤ st'.entries.next)
    (tally : ∀ {e y}, st'.entries.cell e = some y →
      ∃ x, st.entries.cell e = some x ∧ y.tally = x.tally) : Delivered st' where
  delivery := delivery
  bound := by
    intro e p ts member
    exact Nat.lt_of_lt_of_le (delivered.bound (logs.mem_of unparked member)) next
  sum := by
    intro e p ts y member hy
    obtain ⟨x, hx, same⟩ := tally hy
    rw [same]
    exact delivered.sum (logs.mem_of unparked member) hx
  known := by
    intro e y hy
    obtain ⟨x, hx, _⟩ := tally hy
    obtain ⟨p, ts, member⟩ := delivered.known hx
    obtain ⟨extra, trace, _⟩ := logs
    grind

theorem Delivered.still (delivered : Delivered st) (still : Still st st') : Delivered st' :=
  delivered.keep ((delivered.delivery.undisturbed still.undisturbed).shrink still.outbox)
    still.undisturbed.logs nofun still.next still.tally

theorem Still.trans (first : Still a b) (second : Still b c) : Still a c where
  undisturbed := first.undisturbed.trans second.undisturbed
  outbox := fun promised => first.outbox (second.outbox promised)
  next := first.next.trans second.next
  tally := by
    grind [Still.tally]

/-- Entries keep their sums, and no entry and no call promises anything new. -/
theorem Still.of_cells (undisturbed : Undisturbed st st')
    (next : st.entries.next ≤ st'.entries.next)
    (entries : ∀ {e y}, st'.entries.cell e = some y → ∃ x, st.entries.cell e = some x ∧
      y.tally = x.tally ∧ ∀ v, y.outgoing = some v → x.outgoing = some v)
    (calls : ∀ {c x}, st'.calls.cell c = some x → x.outgoing = none ∨ st.calls.cell c = some x) :
    Still st st' where
  undisturbed := undisturbed
  outbox := by
    intro o v promised
    cases o with
    | entry e =>
      obtain ⟨y, hy, out⟩ := Option.bind_eq_some_iff.mp promised
      obtain ⟨x, hx, _, owed⟩ := entries hy
      exact Option.bind_eq_some_iff.mpr ⟨x, hx, owed v out⟩
    | frame c =>
      obtain ⟨x, hx, out⟩ := Option.bind_eq_some_iff.mp promised
      rcases calls hx with none | same
      · cases none.symm.trans out
      · exact Option.bind_eq_some_iff.mpr ⟨x, same, out⟩
    | hand => cases promised
  next := next
  tally := by
    intro e y hy
    obtain ⟨x, hx, same, _⟩ := entries hy
    exact ⟨x, hx, same⟩

theorem Still.of_entries (undisturbed : Undisturbed st st') (entries : st'.entries = st.entries)
    (calls : ∀ {c x}, st'.calls.cell c = some x → x.outgoing = none ∨ st.calls.cell c = some x) :
    Still st st' := by
  refine .of_cells undisturbed (by rw [entries]) ?_ calls
  intro e y hy
  rw [entries] at hy
  exact ⟨y, hy, rfl, fun _ => id⟩

variable {e : EntryPtr}

theorem Still.of_change (undisturbed : Undisturbed st st')
    (changed : CellChange st.entries st'.entries e change)
    (calls : ∀ {c x}, st'.calls.cell c = some x → st.calls.cell c = some x)
    (kept : ∀ x y, change x y → y.tally = x.tally ∧
      ∀ v, y.outgoing = some v → x.outgoing = some v) : Still st st' := by
  refine .of_cells undisturbed (by rw [changed.next]) ?_ fun hx => .inr (calls hx)
  intro d y hy
  by_cases here : d = e
  · subst here
    obtain ⟨x, hx, became⟩ := changed.here y hy
    exact ⟨x, hx, kept x y became⟩
  · rw [changed.others d here] at hy
    exact ⟨y, hy, rfl, fun _ => id⟩

theorem retryEntryFinish_still : Ensures (retryEntryFinish st e) (Still st) := by
  refine mono (retryEntryFinish_frame st e) ?_
  rintro st' ⟨frame, next, logs, changed⟩
  have undisturbed : Undisturbed st st' := by
    refine of_slots ?_ next.symm.le ?_ (logs.weaken ?_)
    · rw [frame]
    · rw [frame]
    · rintro _ ⟨c, x, rfl, _⟩
      rfl
  apply Still.of_change undisturbed changed
  · intro c x hx
    rw [frame] at hx
    exact hx
  · rintro x y ⟨became, _⟩
    rw [became]
    exact ⟨rfl, nofun⟩

theorem topicHubSendResume_still (c : CallId) (posted : Nat) :
    Ensures (topicHubSendResume st c e posted) (Still st) := by
  refine mono (topicHubSendResume_frame st c e posted) ?_
  rintro st' ⟨frame, logs, changed⟩
  have undisturbed : Undisturbed st st' := by
    apply of_slots
    · rw [frame]
    · rw [frame]
    · rw [frame]
    · exact logs.weaken isDelivery_of_isResult
  apply Still.of_change undisturbed changed
  · intro d x hx
    rw [frame] at hx
    exact (free_cell_eq_some.mp hx).2
  · intro x y became
    rw [became]
    exact ⟨rfl, fun _ => id⟩

/-! ## Fan-out -/

def HubFanout.outgoing (acc : HubFanout) : Option (PayloadPtr × List RetryTarget) :=
  acc.payload.map fun p => (p, acc.full)

/-- The loop of the fan-out, with the slots `todo` still in front of it: they have not had the
payload. -/
structure FanoutPosts (box : Outbox) (todo : List SlotId) (acc : HubState × HubFanout) : Prop where
  delivery : Delivery (update box .hand acc.2.outgoing) acc.1
  empty : acc.2.payload = none → acc.2.full = []
  ahead : ∀ {p}, acc.2.payload = some p → ∀ s ∈ todo,
    Untouched acc.1.trace p s ∧ s ∉ acc.2.full.map (·.slot)

variable {todo : List SlotId} {acc : HubFanout} {slot : SlotId}

theorem fanoutPayload_posts (posts : FanoutPosts box (slot :: todo) (st, acc))
    (message : HubMessage) : FanoutPosts box (slot :: todo) ((fanoutPayload st acc message).1,
      { acc with payload := some (fanoutPayload st acc message).2 }) := by
  unfold fanoutPayload
  cases payload : acc.payload with
  | some p =>
    dsimp only
    rw [← payload]
    exact posts
  | none =>
    have nothing := posts.empty payload
    have before := posts.delivery
    simp only [HubFanout.outgoing, payload, Option.map_none] at before
    have launched : Delivery (update (update box .hand none) .hand
        (some (st.payloads.next, []))) (wsPayloadNew st message.data message.binary).1 := by
      apply before.launch le_rfl (Nat.lt_succ_self _)
      exact .of_slots rfl (Nat.le_succ _) le_rfl (.of_eq rfl)
    rw [update_idem] at launched
    dsimp only at nothing
    constructor
    · simp only [HubFanout.outgoing, Option.map_some, nothing]
      exact launched
    · nofun
    · intro p mine s _
      cases mine
      rw [nothing]
      constructor
      · intro m _ copy
        exact lt_irrefl _ (before.posts.bound copy).1
      · exact not_mem_nil

theorem FanoutPosts.undisturbed (posts : FanoutPosts box todo (st, acc))
    (still : Undisturbed st st') (trace : st'.trace = st.trace) :
    FanoutPosts box todo (st', acc) := by
  refine ⟨posts.delivery.undisturbed still, posts.empty, ?_⟩
  rw [trace]
  exact posts.ahead

variable {acc' : HubFanout}

theorem FanoutPosts.skip (posts : FanoutPosts box (slot :: todo) (st, acc))
    (payload : acc'.payload = acc.payload) (full : acc'.full = acc.full) :
    FanoutPosts box todo (st, acc') := by
  have outgoing : acc'.outgoing = acc.outgoing := by simp only [HubFanout.outgoing, payload, full]
  refine ⟨?_, ?_, ?_⟩
  · dsimp only
    rw [outgoing]
    exact posts.delivery
  · dsimp only
    rw [payload, full]
    exact posts.empty
  · intro p mine s member
    rw [payload] at mine
    rw [full]
    exact posts.ahead mine s (mem_cons_of_mem _ member)

variable {p : PayloadPtr} {m : MailboxPtr}

section

variable (posts : FanoutPosts box (slot :: todo) (st, acc)) (mine : acc.payload = some p)
include posts mine

theorem FanoutPosts.before : Delivery (update box .hand (some (p, acc.full))) st := by
  have delivery := posts.delivery
  grind [HubFanout.outgoing]

theorem FanoutPosts.post (payload : acc'.payload = acc.payload) (full : acc'.full = acc.full)
    (once : slot ∉ todo) (owned : (st.slots slot).inbox = some m) :
    FanoutPosts box todo (st.log (.posted p m), acc') := by
  have outgoing : acc'.outgoing = some (p, acc.full) := by grind [HubFanout.outgoing]
  have before := posts.before mine
  have hand : update box .hand (some (p, acc.full)) .hand = some (p, acc.full) := update_self _ _ _
  obtain ⟨untouched, new⟩ := posts.ahead mine slot mem_cons_self
  refine ⟨?_, ?_, ?_⟩
  · dsimp only
    rw [outgoing]
    refine before.post owned (before.owed hand).bound untouched ?_
    intro o ts t promised member same
    have here := before.owner promised hand
    grind
  · grind
  · intro q again s member
    rw [payload, mine] at again
    cases again
    obtain ⟨apart, absent⟩ := posts.ahead mine s (mem_cons_of_mem _ member)
    refine ⟨before.slots.untouched_post owned apart ?_, by rw [full]; exact absent⟩
    rintro _ rfl
    exact once member

theorem FanoutPosts.miss (once : slot ∉ todo) (owned : (st.slots slot).inbox = some m) :
    FanoutPosts box todo (st.log (.missed p ⟨slot, (st.slots slot).gen⟩ m),
      { acc with full := acc.full ++ [⟨slot, (st.slots slot).gen⟩] }) := by
  have before := posts.before mine
  obtain ⟨untouched, new⟩ := posts.ahead mine slot mem_cons_self
  refine ⟨?_, ?_, ?_⟩
  · have missed := before.miss (update_self _ _ _)
      (before.slots.names owned) untouched new
    grind [update_idem, HubFanout.outgoing]
  · grind
  · intro q again s member
    rw [mine] at again
    cases again
    obtain ⟨apart, absent⟩ := posts.ahead mine s (mem_cons_of_mem _ member)
    refine ⟨apart.congr (inboxesOf_log st rfl) (postsOf_log st rfl), ?_⟩
    grind

end

theorem fanoutSlot_posts {acc : HubState × HubFanout} (posts : FanoutPosts box (slot :: todo) acc)
    (once : slot ∉ todo) (room : SlotId → Bool) (ownSlot : Option SlotId) (message : HubMessage)
    (interest : List (List InterestBucket)) (reliable : Bool) :
    Ensures (fanoutSlot room ownSlot message interest reliable acc slot)
      (FanoutPosts box todo) := by
  obtain ⟨st, acc⟩ := acc
  unfold fanoutSlot
  dsimp only
  split
  · exact .pure (posts.skip rfl rfl)
  · next inbox owned =>
    split
    · exact .pure (posts.skip rfl rfl)
    · split
      · exact .pure (posts.skip rfl rfl)
      · have built := fanoutPayload_posts posts message
        have frame := fanoutPayload_frame st acc message
        rcases made : fanoutPayload st acc message with ⟨st1, p⟩
        rw [made] at built frame
        dsimp only at built frame ⊢
        refine .bind (wsPostPublish_frame (room slot) st1 slot p message.topic
          message.exceptId) ?_
        rintro ⟨st2, posted⟩ ⟨mail, payloads, mailboxes⟩
        dsimp only at mail payloads mailboxes ⊢
        have sent := built.undisturbed (mail.undisturbed payloads mailboxes) (by rw [mail])
        have slots : (st2.slots slot).inbox = some inbox := by
          rw [mail, frame]
          exact owned
        split
        · exact .pure (sent.post rfl rfl rfl once slots)
        · split
          · exact .pure (sent.miss rfl once slots)
          · exact .pure (sent.skip rfl rfl)

theorem topicHubFanoutLocked_posts (delivery : Delivery (outboxOf st) st)
    (zendHash : Bytes → UInt32) (room : SlotId → Bool) (ownSlot : Option SlotId)
    (message : HubMessage) (reliable : Bool) :
    Ensures (topicHubFanoutLocked zendHash room st ownSlot message reliable) fun r =>
      Delivery (update (outboxOf st) .hand r.2.outgoing) r.1 := by
  have start : FanoutPosts (outboxOf st) (range st.slotsUsed) (st, ⟨none, 0, 0, 0, []⟩) := by
    constructor
    · have nothing : update (outboxOf st) .hand none = outboxOf st := update_eq_self_iff.mpr rfl
      grind [HubFanout.outgoing]
    · exact fun _ => rfl
    · nofun
  refine .mono (.foldlM_rest (I := fun slots acc => slots.Nodup ∧ FanoutPosts (outboxOf st) slots acc)
    ?_ ⟨nodup_range, start⟩) fun r posts => posts.2.delivery
  rintro acc slot slots ⟨distinct, posts⟩
  obtain ⟨once, rest⟩ := nodup_cons.mp distinct
  exact .mono (fanoutSlot_posts posts once room ownSlot message _ reliable) fun _ kept => ⟨rest, kept⟩

theorem Delivered.fanout (delivered : Delivered st) (post : PostOnly st st1)
    (logs : Logs (·.isPost) st st1)
    (delivery : Delivery (update (outboxOf st) .hand acc.outgoing) st1) {x : HubCall}
    (outgoing : x.outgoing = none ∨ x.outgoing = acc.outgoing) (stats : HubStats)
    (locals : Heap WsLocal) :
    Delivered { st1 with stats := stats, locals := locals, calls := st1.calls.alloc x } := by
  have entries : st1.entries = st.entries := by rw [post]
  have calls : st1.calls = st.calls := by rw [post]
  have moved : Delivery (update (outboxOf st) .hand acc.outgoing)
      { st1 with stats := stats, locals := locals, calls := st1.calls.alloc x } :=
    delivery.undisturbed (.of_eq rfl rfl rfl rfl)
  refine delivered.keep ?_ logs nofun (by rw [← entries]) (by grind)
  · apply moved.handOver .hand (.frame st.calls.next) rfl
    intro o v promised
    cases o with
    | entry e => grind [outboxOf]
    | frame c =>
      obtain ⟨y, hy, out⟩ := Option.bind_eq_some_iff.mp promised
      rcases alloc_cell_eq_some.mp hy with ⟨rfl, rfl⟩ | old
      · grind
      · grind [ne_next, outboxOf]
    | hand => cases promised

section

variable (delivered : Delivered st) (zendHash : Bytes → UInt32) (room : SlotId → Bool)
include delivered zendHash room

theorem topicHubPublish_delivered (ownSlot : Option SlotId) (message : HubMessage) :
    Ensures (topicHubPublish zendHash room st ownSlot message) Delivered := by
  refine .bind ((topicHubFanoutLocked_frame zendHash room st ownSlot message false).and
    (topicHubFanoutLocked_posts delivered.delivery zendHash room ownSlot message false)) ?_
  rintro ⟨st1, acc⟩ ⟨⟨post, logs, _⟩, delivery⟩
  exact .pure (delivered.fanout post logs delivery (.inl rfl) _ st1.locals)

theorem topicHubSendFanout_delivered (owner : Option (LocalPtr × WsLocal)) (blocking : Bool)
    (message : HubMessage) :
    Ensures (topicHubSendFanout zendHash room st owner blocking message) Delivered := by
  refine .bind ((topicHubFanoutLocked_frame zendHash room st _ message true).and
    (topicHubFanoutLocked_posts delivered.delivery zendHash room _ message true)) ?_
  rintro ⟨st1, acc⟩ ⟨⟨post, logs, _⟩, delivery⟩
  dsimp only at post logs delivery ⊢
  split
  · exact .pure (delivered.fanout post logs delivery (.inr rfl) _ st1.locals)
  · exact .pure (delivered.fanout post logs delivery (.inr rfl) _ _)

end

/-! ## Parking -/

variable {c : CallId}

theorem Delivered.park (delivered : Delivered st) (parked : SendParked st c (some p) full x st')
    (promised : outboxOf st (.frame c) = some (p, full)) : Delivered st' := by
  obtain ⟨extra, trace, results⟩ := parked.logs
  have entries : st'.entries = st.entries.alloc x := by rw [parked.frame]
  have before := delivered.delivery
  have handed : Delivery (outboxOf st') st := by
    apply before.handOver (.frame c) (.entry st.entries.next) rfl
    intro o v now
    cases o with
    | entry e =>
      simp only [outboxOf, entries] at now
      obtain ⟨y, hy, out⟩ := Option.bind_eq_some_iff.mp now
      rcases alloc_cell_eq_some.mp hy with ⟨rfl, rfl⟩ | old
      · grind [RetryEntry.outgoing, SendParked.owns, SendParked.pending]
      · grind [ne_next, outboxOf]
    | frame d =>
      obtain ⟨y, hy, out⟩ := Option.bind_eq_some_iff.mp now
      by_cases here : d = c
      · subst here
        obtain ⟨posted, rfl⟩ := parked.here y hy
        cases out
      · grind [SendParked.others, outboxOf]
    | hand => cases now
  have owner : ∀ {o ts'}, outboxOf st' o = some (p, ts') → o.isEntry = true := by
    intro o ts' now
    have mine : outboxOf st' (.entry st.entries.next) = some (p, full) := by
      simp only [outboxOf, entries, alloc_cell_self, Option.bind_some, RetryEntry.outgoing,
        parked.owns, parked.pending, Option.map_some]
    rw [handed.owner now mine]
    rfl
  have logged := handed.parked (e := st.entries.next)
    ((before.owed promised).sending rfl).1 (before.owed promised).bound owner
  have still : Undisturbed (st.log (.parked st.entries.next (some p) full)) st' := by
    apply of_slots
    · rw [parked.frame]
      rfl
    · rw [parked.frame]
      exact le_rfl
    · rw [parked.frame]
      exact le_rfl
    · refine ⟨extra, ?_, fun event member => isDelivery_of_isResult event (results event member)⟩
      rw [trace]
      show _ = (st.trace ++ [_]) ++ extra
      simp
  have parkings : ∀ {e q ts}, .parked e q ts ∈ st'.trace →
      .parked e q ts ∈ st.trace ∨ (e = st.entries.next ∧ ts = full) := by
    intro e q ts member
    have logged := still.parked member
    rcases mem_append.mp logged with old | new
    · exact .inl old
    · grind
  constructor
  · exact logged.undisturbed still
  · intro e q ts member
    rw [entries, alloc_next]
    rcases parkings member with old | ⟨new, _⟩
    · exact Nat.lt_succ_of_lt (delivered.bound old)
    · rw [new]
      exact Nat.lt_succ_self _
  · intro e q ts y member hy
    rw [entries] at hy
    rcases parkings member with old | ⟨rfl, rfl⟩
    · rw [alloc_cell_ne _ _ (Nat.ne_of_lt (delivered.bound old))] at hy
      exact delivered.sum old hy
    · grind [alloc_cell_self, RetryEntry.tally, SendParked.delivered, SendParked.gone,
      SendParked.pending]
  · intro e y hy
    rw [entries] at hy
    rcases alloc_cell_eq_some.mp hy with ⟨rfl, _⟩ | old
    · grind
    · grind [Delivered.known]

/-! ## The drainer -/

/-- The inner loop of the drainer, on entry `e` of `st0`, with the targets `todo` in front of it:
they and the targets it has kept are still owed. -/
structure PassPosts (st0 : HubState) (e : EntryPtr) (x0 : RetryEntry) (p : PayloadPtr)
    (todo : List RetryTarget) (acc : HubState × RetryPass) : Prop where
  delivery : Delivery
    (update (outboxOf st0) (.entry e) (some (p, acc.2.keep ++ todo))) acc.1
  calls : acc.1.calls = st0.calls
  entries : ∃ x, acc.1.entries = st0.entries.modify e (fun _ => x) ∧ x.payload = some p ∧
    x.delivered + x.gone + (acc.2.keep ++ todo).length = x0.tally
  logs : Logs (fun event => event.isParked = false) st0 acc.1

variable {t : RetryTarget} {todo keep : List RetryTarget}

section

variable (delivery : Delivery (update box (.entry e) (some (p, keep ++ t :: todo))) st)
include delivery

theorem Delivery.dropTarget : Delivery (update box (.entry e) (some (p, keep ++ todo))) st := by
  apply delivery.rebox id
  · intro o q ts promised
    rcases update_eq_some promised with ⟨here, new⟩ | ⟨other, old⟩
    · cases new
      subst here
      refine ⟨_, update_self _ _ _, ?_, fun wrong => by cases wrong⟩
      simp
    · refine ⟨ts, ?_, List.Sublist.refl _, fun unparked => ⟨unparked, rfl⟩⟩
      exact (update_of_ne other _ _).trans old
  · intro o o' v v' _ _ same
    exact same

theorem Delivery.retry (owned : (st.slots t.slot).inbox = some m)
    (current : (st.slots t.slot).gen = t.gen) :
    Delivery (update box (.entry e) (some (p, keep ++ todo)))
      ((st.log (.posted p m)).log (.retried p t m)) := by
  have owed := delivery.owed (update_self (Origin.entry e) _ _)
  have listed : t ∈ keep ++ t :: todo := mem_append_right _ mem_cons_self
  have names : Names st.trace t m := by
    have named := delivery.slots.names owned
    rw [current] at named
    exact named
  have posted : Delivery (update box (.entry e) (some (p, keep ++ todo)))
      (st.log (.posted p m)) := by
    apply delivery.dropTarget.post owned owed.bound (owed.untouched listed)
    intro o ts t' promised member same
    have here := delivery.dropTarget.owner promised (update_self _ _ _)
    subst here
    rw [update_self] at promised
    cases promised
    have distinct := owed.distinct
    grind
  apply posted.retried
  · unfold Names
    rw [inboxesOf_log st rfl]
    exact names
  · rw [missedOf_log st rfl]
    exact owed.missed listed

end

theorem retryTarget_posts {acc : HubState × RetryPass}
    (posts : PassPosts st0 e x0 p (t :: todo) acc) (room : EntryPtr → SlotId → Bool) :
    Ensures (retryTarget room e acc t) (PassPosts st0 e x0 p todo) := by
  obtain ⟨st, pass⟩ := acc
  obtain ⟨x, entries, owns, sum⟩ := posts.entries
  dsimp only at entries sum
  have shorter : (pass.keep ++ todo).length + 1 = (pass.keep ++ t :: todo).length := by grind
  have settled : ∀ {st' : HubState} {o : RetryOutcome}, Undisturbed st' (st'.log (.settled e t o)) :=
    of_slots rfl le_rfl le_rfl (.log (.of_eq rfl) rfl)
  have gone : PassPosts st0 e x0 p todo (.log
      { st with entries := st.entries.modify e fun x => { x with gone := x.gone + 1 } }
      (.settled e t .gone), { pass with gone := pass.gone + 1 }) := by
    constructor
    · refine Delivery.undisturbed ?_ settled
      exact posts.delivery.dropTarget.undisturbed (.of_eq rfl rfl rfl rfl)
    · exact posts.calls
    · refine ⟨{ x with gone := x.gone + 1 }, ?_, owns, ?_⟩
      · show st.entries.modify e _ = _
        rw [entries, modify_modify]
      · dsimp only
        omega
    · exact Logs.log (posts.logs.trans (.of_eq rfl)) rfl
  refine .bind (.read _ _ _) ?_
  intro x' hx'
  have same : x' = x := by simp_all
  subst same
  split
  · exact .pure gone
  · next inbox owned =>
    split
    · exact .pure gone
    · next current =>
      rw [owns]
      refine .bind (wsPostPublish_frame (room e t.slot) st t.slot p x'.topic x'.exceptId) ?_
      rintro ⟨st1, posted⟩ ⟨mail, payloads, mailboxes⟩
      dsimp only at mail payloads mailboxes ⊢
      have sent := posts.delivery.undisturbed (mail.undisturbed payloads mailboxes)
      have slots : st1.slots = st.slots := by rw [mail]
      have entries1 : st1.entries = st.entries := by rw [mail]
      have calls1 : st1.calls = st.calls := by rw [mail]
      have trace1 : st1.trace = st.trace := by rw [mail]
      split
      · apply Ensures.pure
        constructor
        · have counted : Undisturbed st1 { st1 with
              entries := st1.entries.modify e fun x => { x with delivered := x.delivered + 1 } } :=
            of_eq rfl rfl rfl rfl
          have retried := (sent.undisturbed counted).retry (m := inbox)
            (by rw [slots]; exact owned) (by rw [slots]; exact not_not.mp current)
          exact retried.undisturbed settled
        · rw [calls1]
          exact posts.calls
        · refine ⟨{ x' with delivered := x'.delivered + 1 }, ?_, owns, ?_⟩
          · show st1.entries.modify e _ = _
            rw [entries1, entries, modify_modify]
          · dsimp only
            omega
        · have base : ∀ entries, Logs (fun event => event.isParked = false) st0
              { st1 with entries := entries } := fun _ => posts.logs.trans (.of_eq trace1)
          exact (((base _).log rfl).log rfl).log rfl
      · apply Ensures.pure
        constructor
        · grind
        · rw [calls1]
          exact posts.calls
        · grind
        · exact posts.logs.trans (.of_eq trace1)

theorem Delivered.pass (delivered : Delivered st) (hx : st.entries.cell e = some x)
    {pass : RetryPass} (posts : PassPosts st e x p [] (st1, pass)) :
    Delivered { st1 with entries := st1.entries.modify e ({ · with pending := pass.keep }) } := by
  obtain ⟨y, entries, owns, sum⟩ := posts.entries
  rw [append_nil] at sum
  have changed : CellChange st.entries (st1.entries.modify e ({ · with pending := pass.keep })) e
      fun _ z => z = { y with pending := pass.keep } := by
    rw [entries, modify_modify]
    exact .modify _ _ fun _ => rfl
  refine delivered.keep ?_ posts.logs nofun changed.next.symm.le fun {d z} hz => ?_
  · refine .shrink (posts.delivery.undisturbed (.of_eq rfl rfl rfl rfl)) ?_
    intro o v promised
    cases o with
    | entry d =>
      obtain ⟨z, hz, out⟩ := Option.bind_eq_some_iff.mp promised
      by_cases here : d = e
      · subst here
        obtain ⟨_, _, rfl⟩ := changed.here z hz
        grind [RetryEntry.outgoing]
      · grind [CellChange.others, outboxOf]
    | frame c =>
      have calls : st1.calls = st.calls := posts.calls
      grind [outboxOf]
    | hand => cases promised
  · by_cases here : d = e
    · subst here
      obtain ⟨_, _, rfl⟩ := changed.here z hz
      exact ⟨x, hx, sum⟩
    · rw [changed.others d here] at hz
      exact ⟨z, hz, rfl⟩

theorem retryEntryPass_delivered {todo : List EntryPtr} {acc : HubState × RetryDrain}
    (ok : DrainOk l (e :: todo) acc) (delivered : Delivered acc.1) (room : EntryPtr → SlotId → Bool)
    (now : Nat) : Ensures (retryEntryPass room now l acc e) fun r => Delivered r.1 := by
  obtain ⟨_, x, p, hx, owns⟩ := ok.entry
  obtain ⟨st, drain⟩ := acc
  dsimp only at hx delivered
  refine .bind (Ensures.read _ _ _) ?_
  intro x' hx'
  obtain rfl : x = x' := Option.some.inj (hx.symm.trans hx')
  have start : PassPosts st e x p x.pending (st, ⟨[], 0, 0⟩) := by
    constructor
    · have same : Function.update (outboxOf st) (.entry e) (some (p, x.pending)) = outboxOf st := by
        grind [outboxOf, RetryEntry.outgoing]
      rw [nil_append, same]
      exact delivered.delivery
    · rfl
    · refine ⟨x, ?_, owns, rfl⟩
      grind [Heap.modify_eq_self]
    · exact Logs.refl _ _
  refine .bind (foldlM_rest (retryTarget_posts · room) start) ?_
  rintro ⟨st1, pass⟩ posts
  dsimp only
  have passed := delivered.pass hx posts
  split
  · apply Ensures.pure
    apply passed.still
    refine .of_entries ?_ rfl .inr
    refine Undisturbed.of_slots rfl le_rfl le_rfl ⟨_, rfl, ?_⟩
    intro event member
    obtain ⟨t, _, rfl⟩ := mem_map.mp member
    rfl
  · exact .pure passed

theorem retryEntryFinish_all_still (es : List EntryPtr) (st : HubState) :
    Ensures (es.foldlM retryEntryFinish st) (Still st) := by
  apply Ensures.foldlM
  · intro st1 e _ still
    exact .mono retryEntryFinish_still fun _ still' => still.trans still'
  · exact .of_entries (.refl st) rfl .inr

theorem topicHubRetryDrain_delivered (inv : HubOk st) (delivered : Delivered st)
    (hl : st.locals.cell l = some loc) (pc : loc.pc = .idle) (room : EntryPtr → SlotId → Bool)
    (now : Nat) : Ensures (topicHubRetryDrain room now st l loc) Delivered := by
  refine .bind (retryDrain_keeps (P := fun r => Delivered r.1)
    (retryEntryPass_delivered · · room now) (retryDrain_start inv hl pc) delivered) ?_
  rintro ⟨st1, drain⟩ ⟨_, delivered1⟩
  refine .bind (retryEntryFinish_all_still drain.resolved st1) ?_
  intro st2 still
  apply Ensures.pure
  apply (delivered1.still still).still
  exact .of_entries (of_eq rfl rfl rfl rfl) rfl .inr

/-! ## The other events -/

theorem retryTeardownEntry_still (acc : HubState × Nat) :
    Ensures (retryTeardownEntry acc e) fun r => Still acc.1 r.1 := by
  obtain ⟨st, lost⟩ := acc
  refine bind (.read _ _ _) ?_
  intro x _
  have marked : Still st { st with
      entries := st.entries.modify e ({ · with shutdown := true })
      trace := st.trace ++ x.pending.map fun t => .settled e t .shutdown } := by
    have changed : CellChange st.entries (st.entries.modify e ({ · with shutdown := true })) e
        fun x y => y = { x with shutdown := true } := .modify _ _ fun _ => rfl
    have undisturbed : Undisturbed st { st with
        entries := st.entries.modify e ({ · with shutdown := true })
        trace := st.trace ++ x.pending.map fun t => .settled e t .shutdown } := by
      refine of_slots rfl le_rfl le_rfl ⟨_, rfl, ?_⟩
      intro event member
      obtain ⟨t, _, rfl⟩ := mem_map.mp member
      rfl
    apply Still.of_change undisturbed changed
    · exact id
    · intro x y became
      rw [became]
      exact ⟨rfl, fun _ => id⟩
  refine bind retryEntryFinish_still ?_
  intro st1 finished
  exact pure (marked.trans finished)

theorem topicHubRetryTeardown_still (l : LocalPtr) (loc : WsLocal) :
    Ensures (topicHubRetryTeardown st l loc) (Still st) := by
  have loop : ∀ before : HubState, Still st before →
      Ensures (loc.retryQueue.foldlM retryTeardownEntry (before, 0)) fun r => Still st r.1 := by
    intro before still
    grind [Ensures.foldlM, Ensures.mono, retryTeardownEntry_still, Still.trans]
  refine .bind (loop _ (.of_entries (.of_eq rfl rfl rfl rfl) rfl .inr)) ?_
  rintro ⟨st1, lost⟩ still
  apply Ensures.pure
  exact still.trans (.of_entries (.of_eq rfl rfl rfl rfl) rfl .inr)

theorem SendRefused.still (refused : SendRefused st c st') : Still st st' := by
  refine .of_cells ?_ refused.next ?_ ?_
  · apply of_slots
    · rw [refused.frame]
    · rw [refused.payloads]
    · rw [refused.frame]
    · exact refused.logs.weaken isDelivery_of_isResult
  · intro e y hy
    rw [refused.entries] at hy
    exact ⟨y, hy, rfl, fun _ => id⟩
  · intro d x hx
    rw [refused.frame] at hx
    exact .inr (free_cell_eq_some.mp hx).2

theorem topicHubAttach_delivered (delivered : Delivered st) (created : Bool) :
    Delivered (topicHubAttach st created) := by
  unfold topicHubAttach
  split
  · exact delivered
  · dsimp only
    split
    · apply delivered.still
      refine .of_entries ?_ rfl .inr
      exact of_slots rfl le_rfl (Nat.le_succ _) (.of_eq rfl)
    · next slot _ =>
      refine delivered.keep (Delivery.attach (by exact delivered.delivery) slot rfl ?_ ?_
        (fun s other => update_of_ne other _ _) rfl rfl)
        ⟨_, rfl, fun event member => mem_singleton.mp member⟩ nofun le_rfl fun hy => ⟨_, hy, rfl⟩
      · show (update st.slots slot _ slot).gen = _
        rw [update_self]
      · show (update st.slots slot _ slot).inbox = _
        rw [update_self]

theorem topicHubDetachRetire_still (l : LocalPtr) (loc : WsLocal) :
    Still st (topicHubDetachRetire st l loc) := by
  refine .of_entries ⟨?_, ?_, le_rfl, le_rfl, .of_eq rfl⟩ rfl .inr
  · intro s
    simp only [topicHubDetachRetire]
    grind
  · intro s m owned
    simp only [topicHubDetachRetire] at owned
    grind

theorem isDelivery_of_isAsk (event : HubTrace) (aside : event.isAsk = true) :
    event.isDelivery = false := by
  cases event <;> first | rfl | cases aside

theorem Aside.still (aside : Aside st st') : Still st st' := by
  refine .of_entries ?_ aside.entries fun {c x} hx => (aside.calls hx).imp_left fun other => ?_
  · exact of_slots aside.slots aside.payloads aside.mailboxes
      (aside.logs.weaken isDelivery_of_isAsk)
  · cases x <;> first | rfl | cases other

/-! ## Runs -/

theorem Delivered.moves (inv : HubOk st) (delivered : Delivered st) (zendHash : Bytes → UInt32) :
    HubMoves zendHash st (Ensures · Delivered) := by
  have still : ∀ {m : HubM HubState}, Ensures m (Still st) → Ensures m Delivered := by
    intro m same
    exact mono same fun _ => delivered.still
  exact { HubAsides.of_aside zendHash fun silent => still (mono silent fun _ => Aside.still) with
    keep := .pure delivered
    attach := fun created => .pure (topicHubAttach_delivered delivered created)
    retire := fun l loc _ _ => still (.pure (topicHubDetachRetire_still l loc))
    teardown := fun l loc _ _ => still (topicHubRetryTeardown_still l loc)
    publish := topicHubPublish_delivered delivered zendHash
    send := fun room owner blocking message _ =>
      topicHubSendFanout_delivered delivered zendHash room owner blocking message
    settle := fun c _ _ _ _ _ _ args hc => topicHubSendSettle_cases inv hc args
      (fun _ refused => delivered.still refused.still) fun _ p _ owns parked =>
        delivered.park parked (by simp [outboxOf, hc, HubCall.outgoing, owns])
    resume := fun c e posted _ => still (topicHubSendResume_still c posted)
    drain := fun room now _ _ hl pc => topicHubRetryDrain_delivered inv delivered hl pc room now
    interest := fun _ _ _ => still (.pure (Still.of_entries
      ⟨fun _ => rfl, id, le_rfl, le_rfl, .of_eq rfl⟩ rfl .inr)) }

theorem topicHubCreate_delivered : Delivered topicHubCreate where
  delivery :=
    { slots := ⟨fun _ => rfl, nofun, nofun, fun _ => nodup_nil, nofun⟩
      owed := by
        intro o p ts promised
        cases o <;> cases promised
      owner := by
        intro o o' p ts ts' promised
        cases o <;> cases promised
      posts := ⟨nofun, nodup_nil⟩
      misses := ⟨nofun, nofun, nofun⟩
      history := .nil }
  bound := nofun
  sum := nofun
  known := nofun

theorem runHub_delivered (zendHash : Bytes → UInt32) (events : List HubEvent) :
    Returns (runHub zendHash events) fun st => HubOk st ∧ Delivered st :=
  runHub_keeps topicHubCreate_delivered (fun inv delivered => delivered.moves inv zendHash) events

end TrueAsync.Websocket

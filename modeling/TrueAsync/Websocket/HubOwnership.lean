import TrueAsync.Websocket.TopicHub

/-!
# Ownership in the topic hub

`HubInv` is the ownership discipline of the hub: every reference counter is the number of
references there are, every command sits in one place of one mailbox, an entry owns its payload
exactly as long as it is queued, and what a suspended call will read is alive. The `HubHands`
are the references that the running function holds in its variables; between events there are
none.

Each function has one specification against `HubInv`: it runs without a fault, keeps the
discipline, and moves references between the hands and the heaps.
-/

namespace TrueAsync.Websocket

open TrueAsync.Lib Heap List

/-! ## The invariant -/

/-- References and objects that only the variables of the running function hold. `entries` are
entries that left a queue and still own their payload, `borrowed` those that do not; `answers`
are the queries of answers that are being dealt with. -/
structure HubHands where
  payloads : List PayloadPtr := []
  entries : List EntryPtr := []
  borrowed : List EntryPtr := []
  cmds : List CmdPtr := []
  queries : List QueryPtr := []
  answers : List QueryPtr := []

/-- The references to a payload: commands that carry it, entries that own it, and calls that
hold it. -/
def payloadHolders (cmds : Heap WsCmd) (entries : Heap RetryEntry) (calls : Heap HubCall)
    (p : PayloadPtr) : Nat :=
  cmds.total (·.payload.toList.count p) + entries.total (·.payload.toList.count p) +
    calls.total (·.payload.toList.count p)

/-- The references to a query: commands that carry it and the call that waits for it. -/
def queryHolders (cmds : Heap WsCmd) (calls : Heap HubCall) (q : QueryPtr) : Nat :=
  cmds.total (·.query.toList.count q) + calls.total (·.query.toList.count q)

/-- The references to an entry: the queue it is in and the sender that waits for it. -/
def entryHolders (locals : Heap WsLocal) (calls : Heap HubCall) (e : EntryPtr) : Nat :=
  locals.total (·.retryQueue.count e) + calls.total (·.entry.toList.count e)

def placesOf (mailboxes : Heap ThreadMailbox) (c : CmdPtr) : Nat :=
  mailboxes.total fun m => m.queue.count c + m.batch.count c

/-- The kind of a command says what it carries. -/
def WsCmd.Carries (x : WsCmd) : Prop :=
  match x.kind with
  | .publish => x.payload.isSome ∧ x.query = none
  | _ => x.query.isSome ∧ x.payload = none

/-- Commands: a live one is in one place and carries what its kind says. -/
structure CmdInv (cmds : Heap WsCmd) (mailboxes : Heap ThreadMailbox) (hand : List CmdPtr) :
    Prop where
  place : ∀ c, placesOf mailboxes c + hand.count c = if cmds.Live c then 1 else 0
  carries : ∀ {c x}, cmds.cell c = some x → c ∉ hand → x.Carries

/-- Whether the entry at `e` owns a payload, as a number. -/
def ownsPayload (entries : Heap RetryEntry) (e : EntryPtr) : Nat :=
  match entries.cell e with
  | none => 0
  | some x => x.payload.toList.length

/-- An entry owns its payload exactly as long as it is queued, in one queue. -/
def QueueInv (entries : Heap RetryEntry) (locals : Heap WsLocal) (hand : List EntryPtr) : Prop :=
  ∀ e, locals.total (·.retryQueue.count e) + hand.count e = ownsPayload entries e

def WsLocal.Attached (loc : WsLocal) : Prop := loc.pc ≠ .retired ∧ loc.pc ≠ .draining

def HubSlot.Filled (x : HubSlot) : Prop :=
  x.taken = x.inbox.isSome ∧ x.interest.isSome = x.inbox.isSome

/-- What an attachment points to: its mailbox, and its slot until it detaches. -/
structure WsLocal.Fits (slots : SlotId → HubSlot) (mailboxes : Heap ThreadMailbox)
    (loc : WsLocal) : Prop where
  own : loc.Attached → (slots loc.slot).inbox = some loc.inbox
  live : mailboxes.Live loc.inbox
  drained : loc.pc = .draining → loc.retryQueue = []

/-- Slots and attachments. -/
structure SlotInv (slots : SlotId → HubSlot) (locals : Heap WsLocal)
    (mailboxes : Heap ThreadMailbox) : Prop where
  filled : ∀ s, (slots s).Filled
  inbox : ∀ {s m}, (slots s).inbox = some m → ∃ l loc, locals.cell l = some loc ∧
    loc.slot = s ∧ loc.inbox = m ∧ loc.Attached
  fits : ∀ {l loc}, locals.cell l = some loc → loc.Fits slots mailboxes
  owner : ∀ {m}, mailboxes.Live m → ∃ l loc, locals.cell l = some loc ∧ loc.inbox = m
  unique : ∀ {l l' loc loc'}, locals.cell l = some loc → locals.cell l' = some loc' →
    loc.inbox = loc'.inbox → l = l'

/-- A send in progress has a payload for the slots that were full, and its attachment is in it. -/
def HubCall.Sends (locals : Heap WsLocal) (c : CallId) : HubCall → Prop
  | .sending owner _ _ payload full _ => (full ≠ [] → payload.isSome) ∧
      ∀ l, owner = some l → ∃ loc, locals.cell l = some loc ∧ loc.pc = .sending c
  | _ => True

/-- Suspended and unfinished calls. -/
structure CallInv (calls : Heap HubCall) (entries : Heap RetryEntry) (queries : Heap WsQuery)
    (locals : Heap WsLocal) : Prop where
  waiter : ∀ {e x c}, entries.cell e = some x → x.waiter = some c →
    ∃ posted, calls.cell c = some (.parked e posted)
  done : ∀ {q x}, queries.cell q = some x → x.abandoned = false →
    ∃ c, x.done = some c ∧ calls.cell c = some (.counting q)
  sending : ∀ {c x}, calls.cell c = some x → x.Sends locals c

/-- A query that is waited for expects at least the answers that are on their way. -/
def AskInv (queries : Heap WsQuery) (cmds : Heap WsCmd) (hand : List QueryPtr) : Prop :=
  ∀ {q x}, queries.cell q = some x → x.abandoned = false →
    cmds.total (·.query.toList.count q) + hand.count q ≤ x.pending

/-- The ownership discipline. -/
structure HubInv (hands : HubHands) (st : HubState) : Prop where
  payload : Counted st.payloads (·.refcount) fun p =>
    payloadHolders st.cmds st.entries st.calls p + hands.payloads.count p
  query : Counted st.queries (·.refcount) fun q =>
    queryHolders st.cmds st.calls q + hands.queries.count q
  entry : Counted st.entries (·.refcount) fun e =>
    entryHolders st.locals st.calls e + hands.entries.count e + hands.borrowed.count e
  cmd : CmdInv st.cmds st.mailboxes hands.cmds
  queue : QueueInv st.entries st.locals hands.entries
  slot : SlotInv st.slots st.locals st.mailboxes
  call : CallInv st.calls st.entries st.queries st.locals
  ask : AskInv st.queries st.cmds hands.answers

def HubOk (st : HubState) : Prop := HubInv {} st

variable {hands : HubHands} {st : HubState}

/-! ## Changes the discipline does not see -/

theorem HubInv.log (inv : HubInv hands st) (event : HubTrace) : HubInv hands (st.log event) :=
  { inv with }

theorem HubInv.record (inv : HubInv hands st) (stats : HubStats) (trace : List HubTrace) :
    HubInv hands { st with stats := stats, trace := trace } :=
  { inv with }

variable {entries : Heap RetryEntry} {x : RetryEntry}

theorem ownsPayload_of_some (hx : entries.cell e = some x) :
    ownsPayload entries e = x.payload.toList.length := by
  unfold ownsPayload
  rw [hx]

theorem ownsPayload_of_none (hx : entries.cell e = none) : ownsPayload entries e = 0 := by
  unfold ownsPayload
  rw [hx]

theorem ownsPayload_congr
    (same : entries'.cell e = entries.cell e) : ownsPayload entries' e = ownsPayload entries e := by
  unfold ownsPayload
  rw [same]

variable {g : RetryEntry → RetryEntry}

theorem ownsPayload_modify (e : EntryPtr) (same : ∀ x, (g x).payload = x.payload) (d : EntryPtr) :
    ownsPayload (entries.modify e g) d = ownsPayload entries d := by
  by_cases here : d = e
  · subst here
    cases hx : entries.cell d with
    | none => rw [ownsPayload_of_none hx, ownsPayload_of_none (by rw [modify_cell_self, hx]; rfl)]
    | some x =>
      rw [ownsPayload_of_some hx, ownsPayload_of_some (by rw [modify_cell_self, hx]; rfl), same]
  · exact ownsPayload_congr (modify_cell_ne _ _ here)

theorem CallInv.modifyEntry (inv : CallInv calls entries queries locals) (e : EntryPtr)
    (waiter : ∀ x, (g x).waiter = x.waiter ∨ (g x).waiter = none) :
    CallInv calls (entries.modify e g) queries locals := by
  refine { inv with waiter := ?_ }
  intro d y c hy waits
  obtain ⟨x, hx, rfl⟩ := modify_cell_eq_some.mp hy
  by_cases same : d = e
  · rw [if_pos same] at waits
    rcases waiter x with kept | cleared
    · exact inv.waiter hx (kept.symm.trans waits)
    · rw [cleared] at waits
      cases waits
  · rw [if_neg same] at waits
    exact inv.waiter hx waits

/-- An entry changes, and `counted` says who holds it then. -/
theorem HubInv.changeEntry (inv : HubInv { hands with borrowed } st) (e : EntryPtr)
    (counted : Counted (st.entries.modify e g) (·.refcount) fun d =>
      entryHolders st.locals st.calls d + hands.entries.count d + hands.borrowed.count d)
    (payload : ∀ x, (g x).payload = x.payload)
    (waiter : ∀ x, (g x).waiter = x.waiter ∨ (g x).waiter = none) :
    HubInv hands { st with entries := st.entries.modify e g } := by
  refine { inv with
    payload := ?_, entry := counted, queue := fun d => ?_, call := inv.call.modifyEntry e waiter }
  · grind [HubInv.payload, payloadHolders, total_modify_same]
  · rw [ownsPayload_modify e payload]
    exact inv.queue d

theorem HubInv.modifyEntry (inv : HubInv hands st) (e : EntryPtr)
    (refcount : ∀ x, (g x).refcount = x.refcount) (payload : ∀ x, (g x).payload = x.payload)
    (waiter : ∀ x, (g x).waiter = x.waiter ∨ (g x).waiter = none) :
    HubInv hands { st with entries := st.entries.modify e g } :=
  changeEntry inv e (inv.entry.modify e refcount) payload waiter

variable {mailboxes : Heap ThreadMailbox} {g : WsLocal → WsLocal} {l : LocalPtr} {loc : WsLocal}
  {slots : SlotId → HubSlot}

/-- `after` keeps the place of the attachment `before`. -/
structure WsLocal.Stays (before after : WsLocal) : Prop where
  slot : after.slot = before.slot
  inbox : after.inbox = before.inbox
  attached : after.Attached ↔ before.Attached
  drained : after.pc = .draining → after.retryQueue = []

theorem SlotInv.modifyLocal (inv : SlotInv slots locals mailboxes) (hl : locals.cell l = some loc)
    (stays : loc.Stays (g loc)) : SlotInv slots (locals.modify l g) mailboxes := by
  obtain ⟨slot, inbox, attached, drained⟩ := stays
  have back : ∀ {k y}, (locals.modify l g).cell k = some y → ∃ x, locals.cell k = some x ∧
      y.slot = x.slot ∧ y.inbox = x.inbox ∧ (y.Attached ↔ x.Attached) := by
    intro k y hy
    obtain ⟨x, hx, rfl⟩ := modify_cell_eq_some.mp hy
    grind
  have forth : ∀ {k x}, locals.cell k = some x → ∃ y, (locals.modify l g).cell k = some y ∧
      y.slot = x.slot ∧ y.inbox = x.inbox ∧ (y.Attached ↔ x.Attached) := by
    grind [modify_cell_self, modify_cell_ne]
  refine ⟨inv.filled, ?_, ?_, ?_, ?_⟩
  · intro s m owned
    obtain ⟨k, x, hx, atSlot, atInbox, active⟩ := inv.inbox owned
    grind
  · intro k y hy
    obtain ⟨x, hx, rfl⟩ := modify_cell_eq_some.mp hy
    have fits := inv.fits hx
    grind [WsLocal.Fits]
  · grind [SlotInv.owner]
  · intro k k' y y' hy hy' equal
    obtain ⟨x, hx, _, atInbox, _⟩ := back hy
    obtain ⟨x', hx', _, atInbox', _⟩ := back hy'
    exact inv.unique hx hx' (by rw [← atInbox, ← atInbox', equal])
variable {calls : Heap HubCall} {queries : Heap WsQuery}

theorem CallInv.locals {locals : Heap WsLocal} (inv : CallInv calls entries queries locals)
    (keep : ∀ {l x c}, calls.Live c → locals.cell l = some x → x.pc = .sending c →
      ∃ x', locals'.cell l = some x' ∧ x'.pc = .sending c) :
    CallInv calls entries queries locals' := by
  refine { inv with sending := fun {c x} hc => ?_ }
  have sends := inv.sending hc
  cases x with
  | sending owner =>
    refine ⟨sends.1, fun l mine => ?_⟩
    obtain ⟨x, hx, atSend⟩ := sends.2 l mine
    exact keep (live_iff.mpr ⟨_, hc⟩) hx atSend
  | _ => trivial

theorem CallInv.modifyLocal {locals : Heap WsLocal} (inv : CallInv calls entries queries locals)
    (hl : locals.cell l = some loc)
    (keep : ∀ c, calls.Live c → loc.pc = .sending c → (g loc).pc = .sending c) :
    CallInv calls entries queries (locals.modify l g) := by
  grind [CallInv.locals, modify_cell_self, modify_cell_ne]

theorem CallInv.alloc {locals : Heap WsLocal} (inv : CallInv calls entries queries locals)
    (call : HubCall) (sends : call.Sends locals calls.next) :
    CallInv (calls.alloc call) entries queries locals := by
  refine ⟨?_, ?_, ?_⟩
  · intro e x c hx waits
    obtain ⟨posted, hc⟩ := inv.waiter hx waits
    exact ⟨posted, alloc_cell_of_some hc⟩
  · intro q x hx waited
    obtain ⟨c, fires, hc⟩ := inv.done hx waited
    exact ⟨c, fires, alloc_cell_of_some hc⟩
  · intro c x hc
    rcases alloc_cell_eq_some.mp hc with ⟨rfl, rfl⟩ | old
    · exact sends
    · exact inv.sending old

variable {ask : WsQuery → WsQuery}

/-- A query changes, and is waited for as before or not at all. -/
theorem CallInv.modifyQuery {locals : Heap WsLocal} (inv : CallInv calls entries queries locals)
    (q : QueryPtr)
    (keep : ∀ x, (ask x).abandoned = false → x.abandoned = false ∧ (ask x).done = x.done) :
    CallInv calls entries (queries.modify q ask) locals := by
  refine { inv with done := fun {r y} hy waited => ?_ }
  obtain ⟨x, hx, rfl⟩ := modify_cell_eq_some.mp hy
  split at waited
  · next here =>
    obtain ⟨before, same⟩ := keep x waited
    rw [if_pos here, same]
    exact inv.done hx before
  · next there =>
    rw [if_neg there]
    exact inv.done hx waited

theorem AskInv.modify (inv : AskInv queries cmds hand) (q : QueryPtr)
    (others : ∀ r, r ≠ q → cmds'.total (·.query.toList.count r) + hand'.count r ≤
      cmds.total (·.query.toList.count r) + hand.count r)
    (here : ∀ x, queries.cell q = some x → (ask x).abandoned = false →
      cmds'.total (·.query.toList.count q) + hand'.count q ≤ (ask x).pending) :
    AskInv (queries.modify q ask) cmds' hand' := by
  intro r y hy waited
  obtain ⟨x, hx, rfl⟩ := modify_cell_eq_some.mp hy
  by_cases same : r = q
  · subst same
    rw [if_pos rfl] at waited ⊢
    exact here x hx waited
  · rw [if_neg same] at waited ⊢
    exact (others r same).trans (inv hx waited)

/-- An attachment changes, and hands the entries `es` of its queue over. -/
theorem HubInv.unqueue (inv : HubInv hands st) (hl : st.locals.cell l = some loc)
    (es : List EntryPtr) (stays : loc.Stays (g loc))
    (queue : ∀ e, (g loc).retryQueue.count e + es.count e = loc.retryQueue.count e)
    (keep : ∀ c, st.calls.Live c → loc.pc = .sending c → (g loc).pc = .sending c) :
    HubInv { hands with entries := es ++ hands.entries }
      { st with locals := st.locals.modify l g } := by
  have queued : ∀ e, (st.locals.modify l g).total (·.retryQueue.count e) + es.count e =
      st.locals.total (·.retryQueue.count e) := by
    grind [total_modify]
  refine ⟨inv.payload, inv.query, ?_, inv.cmd, ?_, ?_, ?_, inv.ask⟩
  · grind [HubInv.entry, entryHolders]
  · intro e
    have moved := queued e
    have before := inv.queue e
    simp only [count_append]
    omega
  · exact inv.slot.modifyLocal hl stays
  · exact inv.call.modifyLocal hl keep

theorem HubInv.modifyLocal (inv : HubInv hands st) (hl : st.locals.cell l = some loc)
    (stays : loc.Stays (g loc)) (queue : (g loc).retryQueue = loc.retryQueue)
    (keep : ∀ c, st.calls.Live c → loc.pc = .sending c → (g loc).pc = .sending c) :
    HubInv hands { st with locals := st.locals.modify l g } :=
  inv.unqueue hl [] stays (fun e => by rw [queue]; rfl) keep

/-! ## Releases -/

theorem count_toList_self (p : Nat) : (some p).toList.count p = 1 := by
  rw [Option.toList_some, count_singleton_self]

theorem count_toList_ne {p q : Nat} (other : q ≠ p) : (some p).toList.count q = 0 := by
  grind

theorem count_cons_toList (p : Nat) (rest : List Nat) (q : Nat) :
    (p :: rest).count q = (some p).toList.count q + rest.count q := by
  grind

variable {p : PayloadPtr} {holders : Nat → Nat}

theorem wsPayloadRelease_spec (counted : Counted st.payloads (·.refcount) holders)
    (given : ∀ q, holders q = holders' q + [p].count q) :
    Returns (wsPayloadRelease st p) fun st' =>
      Counted st'.payloads (·.refcount) holders' ∧ st' = { st with payloads := st'.payloads } := by
  obtain ⟨x, hx, last, shared⟩ := counted.release p _ given
  unfold wsPayloadRelease
  rw [read_ok hx, ok_bind]
  split
  · next one => exact .pure ⟨last one, rfl⟩
  · next more => exact .pure ⟨shared more rfl, rfl⟩

/-- `ws_query_release`, where the state `st` has the queries of `base`. -/
theorem wsQueryRelease_spec (hands : HubHands)
    (inv : HubInv { hands with queries := q :: hands.queries } base)
    (same : st.queries = base.queries) :
    Returns (wsQueryRelease st q) fun st' =>
      HubInv hands { base with queries := st'.queries } ∧
        st' = { st with queries := st'.queries } := by
  obtain ⟨x, hx, last, shared⟩ := inv.query.release q
    (fun r => queryHolders base.cmds base.calls r + hands.queries.count r) (by grind)
  unfold wsQueryRelease
  rw [same, read_ok hx, ok_bind]
  split
  · next one =>
    refine .pure ⟨{ inv with
      query := last one, call := { inv.call with done := ?_ }, ask := ?_ }, rfl⟩
    · intro r y hy
      exact inv.call.done (free_cell_eq_some.mp hy).2
    · intro r y hy
      exact inv.ask (free_cell_eq_some.mp hy).2
  · next more =>
    refine .pure ⟨{ inv with
      query := shared more rfl
      call := inv.call.modifyQuery q fun _ waited => ⟨waited, rfl⟩
      ask := ?_ }, rfl⟩
    apply AskInv.modify inv.ask q
    · exact fun _ _ => le_rfl
    · exact fun x hx => inv.ask (x := x) hx

/-- `retry_entry_release`: the entry goes with its last reference, and has given up its payload
by then. -/
theorem retryEntryRelease_spec (hands : HubHands)
    (inv : HubInv { hands with borrowed := e :: hands.borrowed } st) :
    Returns (retryEntryRelease st e) fun st' =>
      HubInv hands st' ∧ st' = { st with entries := st'.entries } := by
  obtain ⟨x, hx, last, shared⟩ := inv.entry.release e (fun d =>
    entryHolders st.locals st.calls d + hands.entries.count d + hands.borrowed.count d) (by grind)
  unfold retryEntryRelease
  rw [read_ok hx, ok_bind]
  split
  · next one =>
    -- nobody queues the entry any more, so it owns nothing
    have value := (inv.entry.live hx).1
    have owns : st.locals.total (·.retryQueue.count e) + hands.entries.count e = _ := inv.queue e
    rw [ownsPayload_of_some hx] at owns
    have given : x.payload.toList = [] := by grind [entryHolders]
    refine .pure ⟨⟨?_, inv.query, last one, inv.cmd, ?_, inv.slot,
      { inv.call with waiter := ?_ }, inv.ask⟩, rfl⟩
    · grind [HubInv.payload, total_free, payloadHolders]
    · intro d
      rw [inv.queue d]
      grind [ownsPayload_of_some, ownsPayload_of_none, free_cell_self, ownsPayload_congr,
        free_cell_ne]
    · intro d y c hy waits
      exact inv.call.waiter (free_cell_eq_some.mp hy).2 waits
  · next more =>
    exact .pure ⟨inv.changeEntry e (shared more rfl) (fun _ => rfl) fun _ => .inl rfl, rfl⟩

/-! ## Posting -/

theorem topicHubPostLocked_spec (slots : SlotInv st.slots st.locals st.mailboxes) (room : Bool)
    (slot : SlotId) (c : CmdPtr) : Returns (topicHubPostLocked room st slot c) fun r =>
      r = (st, false) ∨ ∃ m, st.mailboxes.Live m ∧
        r = ({ st with mailboxes := st.mailboxes.modify m fun x =>
          { x with queue := x.queue ++ [c] } }, true) := by
  unfold topicHubPostLocked
  cases inbox : (st.slots slot).inbox with
  | none => exact .pure (.inl rfl)
  | some m =>
    obtain ⟨l, loc, hl, _, rfl, _⟩ := slots.inbox inbox
    obtain ⟨box, hbox⟩ := live_iff.mp (slots.fits hl).live
    simp only [threadMailboxPost]
    rw [read_ok hbox]
    simp only [bind, Except.bind]
    split
    · exact .pure (.inr ⟨_, (slots.fits hl).live, rfl⟩)
    · exact .pure (.inl rfl)

variable {hand : List CmdPtr} {cmds : Heap WsCmd}

section

variable (inv : CmdInv cmds mailboxes hand)
include inv

theorem placesOf_next : placesOf mailboxes cmds.next = 0 ∧ hand.count cmds.next = 0 := by
  have place := inv.place cmds.next
  grind [not_live_iff, fresh]

theorem CmdInv.post (live : mailboxes.Live m) {x : WsCmd}
    (carries : x.Carries) : CmdInv (cmds.alloc x)
      (mailboxes.modify m fun y => { y with queue := y.queue ++ [cmds.next] }) hand := by
  obtain ⟨box, hbox⟩ := live_iff.mp live
  constructor
  · intro c
    have moved := total_modify hbox (fun y => { y with queue := y.queue ++ [cmds.next] })
      fun y => y.queue.count c + y.batch.count c
    have place := inv.place c
    simp only [placesOf, count_append] at moved place ⊢
    by_cases new : c = cmds.next
    · subst new
      have absent := placesOf_next inv
      simp only [placesOf] at absent
      rw [count_singleton_self] at moved
      rw [if_pos (by simp [Live])]
      omega
    · grind [Live, alloc_cell_ne]
  · intro c y hy outside
    rcases alloc_cell_eq_some.mp hy with ⟨rfl, rfl⟩ | old
    · exact carries
    · exact inv.carries old outside

theorem CmdInv.refused (x : WsCmd) : CmdInv ((cmds.alloc x).free cmds.next) mailboxes hand := by
  constructor
  · intro c
    simp only [Live, alloc_free_cell]
    exact inv.place c
  · intro c y hy
    rw [alloc_free_cell] at hy
    exact inv.carries hy

end

theorem HubInv.refused (inv : HubInv hands st) (x : WsCmd) :
    HubInv hands { st with cmds := (st.cmds.alloc x).free st.cmds.next } := by
  refine { inv with payload := ?_, query := ?_, cmd := inv.cmd.refused x, ask := ?_ }
  · simp only [payloadHolders, total_alloc_free]
    exact inv.payload
  · simp only [queryHolders, total_alloc_free]
    exact inv.query
  · intro q y hy waited
    rw [total_alloc_free]
    exact inv.ask hy waited

theorem SlotInv.modifyMailbox (inv : SlotInv slots locals mailboxes) (m : MailboxPtr)
    (g : ThreadMailbox → ThreadMailbox) : SlotInv slots locals (mailboxes.modify m g) := by
  refine { inv with fits := ?_, owner := ?_ }
  · intro l loc hl
    exact { inv.fits hl with live := modify_live.mpr (inv.fits hl).live }
  · intro box live
    exact inv.owner (modify_live.mp live)

/-- `after` differs from `before` in payloads, commands and mailboxes at most. -/
def MailOnly (before after : HubState) : Prop :=
  after = { before with
    payloads := after.payloads, cmds := after.cmds, mailboxes := after.mailboxes }

variable {before : HubState}

theorem MailOnly.locals {after : HubState} (frame : MailOnly before after) :
    after.locals = before.locals := by rw [frame]

theorem HubInv.postPublish (inv : HubInv hands st) {x : WsPayload}
    (hp : st.payloads.cell p = some x) (live : st.mailboxes.Live m)
    (exceptId : Nat) (topic : Bytes) : HubInv hands { st with
      cmds := st.cmds.alloc ⟨.publish, some p, none, 0, exceptId, topic⟩
      payloads := st.payloads.modify p fun y => { y with refcount := y.refcount + 1 }
      mailboxes := st.mailboxes.modify m fun y =>
        { y with queue := y.queue ++ [st.cmds.next] } } := by
  refine { inv with
    payload := inv.payload.retain hp rfl ?_, query := inv.query.congr fun q => ?_,
    cmd := inv.cmd.post live ⟨rfl, rfl⟩
    slot := inv.slot.modifyMailbox m _, ask := ?_ }
  · grind [payloadHolders, total_alloc]
  · simp only [queryHolders, total_alloc]
    rfl
  · intro q y hy waited
    rw [total_alloc]
    exact inv.ask hy waited

theorem wsPostPublish_spec (inv : HubInv hands st) {x : WsPayload}
    (hp : st.payloads.cell p = some x) (room : Bool) (slot : SlotId) (topic : Bytes)
    (exceptId : Nat) : Returns (wsPostPublish room st slot p topic exceptId) fun r =>
      HubInv hands r.1 ∧ MailOnly st r.1 := by
  simp only [wsPostPublish, wsPayloadAddref, read_ok hp, ok_bind, pure_bind]
  refine .bind (topicHubPostLocked_spec (by exact inv.slot) room slot st.cmds.next) ?_
  rintro r (rfl | ⟨m, live, rfl⟩)
  · -- refused: the reference and the command are given back
    have shared : x.refcount + 1 ≠ 1 := by
      have held := inv.payload.live hp
      omega
    have restored : (st.payloads.modify p fun y => { y with refcount := y.refcount + 1 }).modify p
        (fun y => { y with refcount := y.refcount - 1 }) = st.payloads := by
      rw [modify_modify]
      exact modify_eq_self fun y _ => rfl
    simp only [Bool.false_eq_true, if_false, wsPayloadRelease, wsCmdFree]
    rw [read_ok (show (st.payloads.modify p fun y => { y with refcount := y.refcount + 1 }).cell
      p = some { x with refcount := x.refcount + 1 } by rw [modify_cell_self, hp]; rfl)]
    simp only [bind, Except.bind, if_neg shared]
    rw [restored]
    simp only [pure, Except.pure]
    rw [read_ok (alloc_cell_self _ _)]
    exact .ok ⟨inv.refused _, rfl⟩
  · exact .pure ⟨inv.postPublish hp live exceptId topic, rfl⟩

/-! ## Calls -/

theorem wsPayloadReleaseOpt_spec {o : Option PayloadPtr}
    (counted : Counted st.payloads (·.refcount) fun p => holders p + o.toList.count p) :
    Returns (wsPayloadReleaseOpt st o) fun st' =>
      Counted st'.payloads (·.refcount) holders ∧ st' = { st with payloads := st'.payloads } := by
  cases o with
  | none => exact .pure ⟨counted, rfl⟩
  | some p => exact wsPayloadRelease_spec counted fun _ => rfl

theorem HubInv.startCall (call : HubCall) (inv : HubInv { payloads := call.payload.toList } st)
    (entry : call.entry = none) (query : call.query = none)
    (sends : call.Sends st.locals st.calls.next) :
    HubOk { st with calls := st.calls.alloc call } := by
  refine { inv with
    payload := ?_, query := inv.query.congr fun q => ?_, entry := inv.entry.congr fun e => ?_,
    call := inv.call.alloc call sends }
  · grind [HubInv.payload, payloadHolders, total_alloc]
  · simp only [queryHolders, total_alloc, query]
    rfl
  · simp only [entryHolders, total_alloc, entry]
    rfl

variable {c : CallId}

/-- A call that nothing fires any more ends: what it holds is in the hands then. -/
theorem HubInv.endCall (inv : HubInv hands st) {call : HubCall} (hc : st.calls.cell c = some call)
    (unwaited : ∀ e x, call.entry = some e → st.entries.cell e = some x → x.waiter = none)
    (undone : ∀ q x, call.query = some q → st.queries.cell q = some x → x.abandoned = true) :
    HubInv { hands with
        payloads := call.payload.toList ++ hands.payloads
        queries := call.query.toList ++ hands.queries
        borrowed := call.entry.toList ++ hands.borrowed }
      { st with calls := st.calls.free c } := by
  refine { inv with payload := ?_, query := ?_, entry := ?_, call := ⟨?_, ?_, ?_⟩ }
  · grind [HubInv.payload, total_free, payloadHolders]
  · grind [HubInv.query, total_free, queryHolders]
  · grind [HubInv.entry, total_free, entryHolders]
  · intro e x d hx waits
    obtain ⟨posted, hd⟩ := inv.call.waiter hx waits
    refine ⟨posted, free_cell_eq_some.mpr ⟨?_, hd⟩⟩
    rintro rfl
    cases hd.symm.trans hc
    exact nomatch (unwaited e x rfl hx).symm.trans waits
  · intro q x hx waited
    obtain ⟨d, fires, hd⟩ := inv.call.done hx waited
    refine ⟨d, fires, free_cell_eq_some.mpr ⟨?_, hd⟩⟩
    rintro rfl
    cases hd.symm.trans hc
    exact nomatch (undone q x rfl hx).symm.trans waited
  · exact fun hd => inv.call.sending (free_cell_eq_some.mp hd).2

theorem HubInv.setPayloads (inv : HubInv hands st)
    (hand : List PayloadPtr) (counted : Counted payloads (·.refcount) fun p =>
      payloadHolders st.cmds st.entries st.calls p + hand.count p) :
    HubInv { hands with payloads := hand } { st with payloads := payloads } :=
  { inv with payload := counted }

/-! ## Publishing -/

theorem HubInv.payloadNew (inv : HubInv {} st) (data : Bytes) (binary : Bool) :
    HubInv { payloads := [st.payloads.next] }
      { st with payloads := st.payloads.alloc ⟨1, data, binary⟩ } := by
  apply inv.setPayloads [st.payloads.next]
  refine inv.payload.alloc (Nat.one_pos) ?_ ?_
  · have unheld := inv.payload.dead (st.payloads.fresh _ le_rfl)
    simp only [count_singleton_self]
    omega
  · grind

theorem fanoutPayload_spec (inv : HubInv { payloads := acc.payload.toList } st) :
    HubInv { payloads := [(fanoutPayload st acc message).2] } (fanoutPayload st acc message).1 ∧
      MailOnly st (fanoutPayload st acc message).1 := by
  unfold fanoutPayload
  cases held : acc.payload with
  | some p =>
    rw [held] at inv
    exact ⟨inv, rfl⟩
  | none =>
    rw [held] at inv
    exact ⟨inv.payloadNew message.data message.binary, rfl⟩

/-- What the loop of the fan-out keeps: it started in `before`. -/
structure FanoutOk (before : HubState) (r : HubState × HubFanout) : Prop where
  inv : HubInv { payloads := r.2.payload.toList } r.1
  full : r.2.full ≠ [] → r.2.payload.isSome
  locals : r.1.locals = before.locals

theorem fanoutSlot_spec {acc : HubState × HubFanout} (ok : FanoutOk before acc)
    (room : SlotId → Bool) (ownSlot : Option SlotId) (interest : List (List InterestBucket))
    (reliable : Bool) (slot : SlotId) :
    Returns (fanoutSlot room ownSlot message interest reliable acc slot) (FanoutOk before) := by
  obtain ⟨st, acc⟩ := acc
  unfold fanoutSlot
  dsimp only
  cases (st.slots slot).inbox with
  | none => exact .pure ok
  | some inbox =>
    dsimp only
    split
    · exact .pure ok
    · split
      · exact .pure { ok with }
      · obtain ⟨held, frame⟩ := fanoutPayload_spec ok.inv
        rcases built : fanoutPayload st acc message with ⟨st1, p⟩
        rw [built] at held frame
        have counted : 0 < payloadHolders st1.cmds st1.entries st1.calls p + [p].count p := by
          rw [count_singleton_self]
          omega
        obtain ⟨x, hx⟩ := held.payload.exists_of_pos counted
        refine (wsPostPublish_spec held hx (room slot) slot message.topic message.exceptId).bind ?_
        rintro ⟨st2, posted⟩ ⟨kept, frame2⟩
        have locals : st2.locals = before.locals := by
          rw [frame2.locals, frame.locals]
          exact ok.locals
        split
        · exact .pure ⟨kept.log _, fun _ => rfl, locals⟩
        · split
          · exact .pure ⟨kept.log _, fun _ => rfl, locals⟩
          · exact .pure ⟨kept, fun _ => rfl, locals⟩

section

variable (inv : HubOk st) (zendHash : Bytes → UInt32) (room : SlotId → Bool)
  (ownSlot : Option SlotId)
include inv zendHash room ownSlot

theorem topicHubFanoutLocked_spec (reliable : Bool) :
    Returns (topicHubFanoutLocked zendHash room st ownSlot message reliable) (FanoutOk st) := by
  apply Returns.foldlM
  · grind [fanoutSlot_spec]
  · exact ⟨inv, fun full => absurd rfl full, rfl⟩

theorem topicHubPublish_spec (message : HubMessage) :
    Returns (topicHubPublish zendHash room st ownSlot message) HubOk := by
  refine (topicHubFanoutLocked_spec inv zendHash room ownSlot false).bind ?_
  rintro ⟨st1, acc⟩ ok
  have started : HubOk { st1 with calls := st1.calls.alloc (.publishing acc.payload) } :=
    HubInv.startCall (.publishing acc.payload) ok.inv rfl rfl trivial
  exact .pure (started.record _ _)

end

theorem releaseEndCall_spec (inv : HubOk st) {call : HubCall} (hc : st.calls.cell c = some call)
    (entry : call.entry = none) (query : call.query = none) :
    Returns (wsPayloadReleaseOpt st call.payload) fun st' =>
      HubOk { st' with calls := st'.calls.free c } ∧ st' = { st with payloads := st'.payloads } := by
  have ended := inv.endCall hc (by simp [entry]) (by simp [query])
  simp only [entry, query] at ended
  have counted : Counted st.payloads (·.refcount) fun p =>
      payloadHolders st.cmds st.entries (st.calls.free c) p + call.payload.toList.count p := by
    apply ended.payload.congr
    intro p
    simp only [append_nil]
  refine (wsPayloadReleaseOpt_spec counted).mono ?_
  rintro st' ⟨released, frame⟩
  refine ⟨?_, frame⟩
  rw [frame]
  exact ended.setPayloads [] released

variable {payload : Option PayloadPtr}

theorem topicHubPublishEnd_spec (inv : HubOk st)
    (hc : st.calls.cell c = some (.publishing payload)) :
    Returns (topicHubPublishEnd st c payload) HubOk := by
  refine (releaseEndCall_spec inv hc rfl rfl).bind ?_
  rintro st' ⟨ended, _⟩
  exact .pure ended

/-! ## Reliable sends -/

theorem topicHubSendFanout_spec (inv : HubOk st) (zendHash : Bytes → UInt32) (room : SlotId → Bool)
    (idle : ∀ l loc, owner = some (l, loc) → st.locals.cell l = some loc ∧ loc.pc = .idle)
    (blocking : Bool) (message : HubMessage) :
    Returns (topicHubSendFanout zendHash room st owner blocking message) HubOk := by
  refine (topicHubFanoutLocked_spec inv zendHash room (owner.map fun o => o.2.slot) true).bind ?_
  rintro ⟨st1, acc⟩ ok
  cases owner with
  | none =>
    have started := HubInv.startCall (.sending none blocking message acc.payload acc.full
      acc.posted) ok.inv rfl rfl ⟨ok.full, nofun⟩
    exact .pure (started.record _ _)
  | some o =>
    obtain ⟨l, loc⟩ := o
    obtain ⟨hl, atIdle⟩ := idle l loc rfl
    have hl1 : st1.locals.cell l = some loc := by
      rw [ok.locals]
      exact hl
    -- the attachment enters the send, then its frame is pushed
    have entered : HubInv { payloads := acc.payload.toList } { st1 with
        locals := st1.locals.modify l ({ · with pc := .sending st1.calls.next }) } := by
      refine ok.inv.modifyLocal hl1 ⟨rfl, rfl, ?_, nofun⟩ rfl ?_
      · simp [WsLocal.Attached, atIdle]
      · grind
    have started := HubInv.startCall (.sending (some l) blocking message acc.payload
      acc.full acc.posted) entered rfl rfl ⟨ok.full, by simp_all⟩
    exact .pure (started.record _ _)

theorem HubInv.sendIdle (inv : HubOk st) (gone : st.calls.cell c = none)
    (hl : st.locals.cell l = some loc) (pc : loc.pc = .sending c) :
    HubOk { st with locals := st.locals.modify l ({ · with pc := .idle }) } := by
  refine .modifyLocal inv hl ⟨rfl, rfl, ?_, nofun⟩ rfl ?_
  · simp [WsLocal.Attached, pc]
  · grind [live_iff]

variable {owner : Option LocalPtr}

theorem sendLeave_spec (ended : HubOk { st with calls := st.calls.free c })
    (mine : ∀ l, owner = some l → ∃ loc, st.locals.cell l = some loc ∧ loc.pc = .sending c)
    (result : HubTrace) : HubOk (sendLeave st c owner result) := by
  apply HubInv.log
  cases owner with
  | none => exact ended
  | some l =>
    obtain ⟨loc, hl, pc⟩ := mine l rfl
    exact HubInv.sendIdle ended (free_cell_self _ _) hl pc

variable {full : List RetryTarget} {message : HubMessage} {blocking : Bool} {posted : Nat}

theorem sendRefuse_spec (inv : HubOk st)
    (hc : st.calls.cell c = some (.sending owner blocking message payload full posted))
    (result : HubTrace) : Returns (sendRefuse st c owner payload result) HubOk := by
  refine (releaseEndCall_spec inv hc rfl rfl).bind ?_
  rintro st' ⟨ended, frame⟩
  apply Returns.pure
  apply sendLeave_spec ended
  rw [frame]
  exact (HubInv.call inv).sending hc |>.2

theorem topicHubRetryEnqueue_queued (loc : WsLocal) (e : EntryPtr) (intervalMs : Nat)
    (armOk : Bool) (ok : (topicHubRetryEnqueue loc e intervalMs armOk).2 = true) :
    (topicHubRetryEnqueue loc e intervalMs armOk).1.slot = loc.slot ∧
      (topicHubRetryEnqueue loc e intervalMs armOk).1.inbox = loc.inbox ∧
      (topicHubRetryEnqueue loc e intervalMs armOk).1.retryQueue = loc.retryQueue ++ [e] := by
  grind [topicHubRetryEnqueue, topicHubRetryArm]

/-- The frame `c` of a send becomes the entry `x`: `calls'` are the calls afterwards, where `c`
is gone or waits for the entry. -/
structure Parks (calls calls' : Heap HubCall) (c : CallId) (p : PayloadPtr) (e : EntryPtr)
    (x : RetryEntry) : Prop where
  owns : x.payload = some p
  payloads : ∀ q, calls'.total (·.payload.toList.count q) + (some p).toList.count q =
    calls.total (·.payload.toList.count q)
  queries : ∀ q, calls'.total (·.query.toList.count q) = calls.total (·.query.toList.count q)
  entries : calls'.total (·.entry.toList.count e) + 1 =
    calls.total (·.entry.toList.count e) + x.refcount
  elsewhere : ∀ d, d ≠ e →
    calls'.total (·.entry.toList.count d) = calls.total (·.entry.toList.count d)
  others : ∀ d, d ≠ c → calls'.cell d = calls.cell d
  here : ∀ y, calls'.cell c = some y → ∃ posted, y = .parked e posted
  waiter : ∀ d, x.waiter = some d → ∃ posted, calls'.cell d = some (.parked e posted)

theorem HubInv.park (inv : HubOk st)
    (hc : st.calls.cell c = some (.sending (some l) blocking message (some p) full posted))
    (hl : st.locals.cell l = some loc) (pc : loc.pc = .sending c) (loc' : WsLocal)
    (slot : loc'.slot = loc.slot) (inbox : loc'.inbox = loc.inbox)
    (queue : loc'.retryQueue = loc.retryQueue ++ [st.entries.next]) (idle : loc'.pc = .idle)
    (positive : 0 < x.refcount)
    (parks : Parks st.calls calls c p st.entries.next x) : HubOk { st with
      entries := st.entries.alloc x
      locals := st.locals.modify l fun _ => loc'
      calls := calls } := by
  have dead := inv.entry.dead (st.entries.fresh _ le_rfl)
  simp only [entryHolders, count_nil] at dead
  have queued : ∀ e, (st.locals.modify l fun _ => loc').total (·.retryQueue.count e) =
      st.locals.total (·.retryQueue.count e) + [st.entries.next].count e := by
    grind [total_modify]
  have unseen : ∀ e, e ≠ st.entries.next → [st.entries.next].count e = 0 := by grind
  refine ⟨?_, ?_, ?_, inv.cmd, ?_, ?_, ⟨?_, ?_, ?_⟩, inv.ask⟩
  · apply inv.payload.congr
    intro q
    have moved := parks.payloads q
    simp only [payloadHolders, total_alloc, parks.owns]
    omega
  · apply inv.query.congr
    intro q
    simp only [queryHolders, parks.queries]
  · refine inv.entry.alloc positive ?_ ?_
    · have here := parks.entries
      simp only [entryHolders, queued, count_singleton_self, count_nil]
      omega
    · intro e other
      simp only [entryHolders, queued, parks.elsewhere e other, unseen e other]
      rfl
  · intro e
    have before := inv.queue e
    rw [queued]
    by_cases new : e = st.entries.next
    · subst new
      rw [ownsPayload_of_some (alloc_cell_self _ _), parks.owns]
      simp only [count_singleton_self, count_nil, Option.toList_some, length_singleton]
      omega
    · rw [ownsPayload_congr (alloc_cell_ne _ _ new), unseen e new]
      exact before
  · refine inv.slot.modifyLocal hl ⟨slot, inbox, ?_, ?_⟩
    · simp [WsLocal.Attached, idle, pc]
    · grind
  · intro e y d hy waits
    rcases alloc_cell_eq_some.mp hy with ⟨rfl, rfl⟩ | old
    · exact parks.waiter d waits
    · obtain ⟨posted', hd⟩ := inv.call.waiter old waits
      grind [Parks.others]
  · intro q y hy waited
    obtain ⟨d, fires, hd⟩ := inv.call.done hy waited
    grind [Parks.others]
  · intro d y hd
    cases y with
    | sending owner =>
      have elsewhere : d ≠ c := by grind [Parks.here]
      rw [parks.others d elsewhere] at hd
      refine ⟨(inv.call.sending hd).1, fun k mine => ?_⟩
      obtain ⟨y, hy, atSend⟩ := (inv.call.sending hd).2 k mine
      grind [modify_cell_ne]
    | _ => trivial

theorem HubInv.discarded (inv : HubInv hands st) (x : RetryEntry) :
    HubInv hands { st with entries := (st.entries.alloc x).free st.entries.next } := by
  refine { inv with
    payload := ?_, entry := ⟨fun {e y} hy => ?_, fun {e} he => ?_⟩, queue := fun e => ?_,
    call := { inv.call with waiter := fun {e y c} hy => ?_ } }
  · simp only [payloadHolders, total_alloc_free]
    exact inv.payload
  · rw [alloc_free_cell] at hy
    exact inv.entry.live hy
  · rw [alloc_free_cell] at he
    exact inv.entry.dead he
  · rw [ownsPayload_congr (alloc_free_cell _ _ _)]
    exact inv.queue e
  · rw [alloc_free_cell] at hy
    exact inv.call.waiter hy

section

variable (hc : calls.cell c = some (.sending owner blocking message (some p) full posted))
  (e : EntryPtr) (deadlineMs : Nat)
include hc e deadlineMs

theorem Parks.waiting : Parks calls (calls.modify c fun _ => .parked e posted) c p e
      (retryEntryNew message (some p) deadlineMs full (some c)) where
  owns := rfl
  payloads := fun q => total_modify hc (fun _ => .parked e posted) (·.payload.toList.count q)
  queries := fun q => total_modify hc (fun _ => .parked e posted) (·.query.toList.count q)
  entries := by
    have moved : _ + 0 = _ + (some e).toList.count e :=
      total_modify hc (fun _ => .parked e posted) (·.entry.toList.count e)
    grind [retryEntryNew]
  elsewhere := by
    intro d other
    have moved : _ + 0 = _ + (some e).toList.count d :=
      total_modify hc (fun _ => .parked e posted) (·.entry.toList.count d)
    rw [count_toList_ne other] at moved
    exact moved
  others := fun d other => modify_cell_ne _ _ other
  here := by
    simp
  waiter := by
    intro d waits
    cases waits
    simp_all

theorem Parks.left :
    Parks calls (calls.free c) c p e (retryEntryNew message (some p) deadlineMs full none) where
  owns := rfl
  payloads := fun q => total_free hc (·.payload.toList.count q)
  queries := fun q => total_free hc (·.query.toList.count q)
  entries := by
    have freed : _ + 0 = _ := total_free hc (·.entry.toList.count e)
    grind [retryEntryNew]
  elsewhere := fun d _ => total_free hc (·.entry.toList.count d)
  others := fun d other => free_cell_ne _ other
  here := by
    simp
  waiter := by
    nofun

end

section

variable (inv : HubOk st)
  (hc : st.calls.cell c = some (.sending (some l) blocking message (some p) full posted))
include inv hc

theorem sendDiscard_spec (owns : x.payload = some p) (result : HubTrace) : Returns (do
      let st' ← retryEntryDiscard { st with entries := st.entries.alloc x } st.entries.next
      pure (sendLeave (noteRejected st') c (some l) result)) HubOk := by
  have ended := HubInv.endCall inv hc nofun nofun
  simp only [retryEntryDiscard]
  rw [read_ok (alloc_cell_self _ _)]
  simp only [ok_bind, owns, bind_assoc, pure_bind]
  have counted : Counted st.payloads (·.refcount) fun q =>
      payloadHolders st.cmds st.entries (st.calls.free c) q + (some p).toList.count q := by
    apply ended.payload.congr
    intro q
    simp only [HubCall.payload, append_nil]
  refine .bind (wsPayloadReleaseOpt_spec (o := some p) (by exact counted)) ?_
  rintro st' ⟨released, frame⟩
  have discarded := (ended.setPayloads [] released).discarded x
  apply Returns.pure
  rw [frame]
  apply sendLeave_spec
  · exact HubInv.record discarded _ _
  · exact (HubInv.call inv).sending hc |>.2

theorem sendPark_spec
    (hl : st.locals.cell l = some loc) (pc : loc.pc = .sending c) (args : SendSettle) :
    Returns (sendPark st c l loc blocking message (some p) full posted args) HubOk := by
  unfold sendPark
  dsimp only
  have shape := topicHubRetryEnqueue_queued loc st.entries.next args.intervalMs args.armOk
  rcases queueing : topicHubRetryEnqueue loc st.entries.next args.intervalMs args.armOk
    with ⟨loc', ok⟩
  rw [queueing] at shape
  cases ok with
  | false => exact sendDiscard_spec inv hc rfl _
  | true =>
    obtain ⟨slot, inbox, queue⟩ := shape rfl
    cases blocking with
    | true =>
      have parked := HubInv.park inv hc hl pc { loc' with pc := .idle } slot inbox queue rfl
        (Nat.succ_pos _) (Parks.waiting hc _ (args.now + args.timeoutMs))
      exact .pure (parked.record _ _)
    | false =>
      have parked := HubInv.park inv hc hl pc { loc' with pc := .idle } slot inbox queue rfl
        (Nat.succ_pos _) (Parks.left hc _ (args.now + args.timeoutMs))
      exact .pure (parked.record _ _)

end

theorem topicHubSendSettle_spec (inv : HubOk st)
    (hc : st.calls.cell c = some (.sending owner blocking message payload full posted))
    (args : SendSettle) :
    Returns (topicHubSendSettle st c owner blocking message payload full posted args) HubOk := by
  unfold topicHubSendSettle
  split
  · exact sendRefuse_spec inv hc _
  · next some_full =>
    cases owner with
    | none => exact sendRefuse_spec inv hc _
    | some l =>
      obtain ⟨held, mine⟩ := (HubInv.call inv).sending hc
      obtain ⟨loc, hl, pc⟩ := mine l rfl
      have nonempty : full ≠ [] := by
        rintro rfl
        exact some_full rfl
      obtain ⟨p, rfl⟩ := Option.isSome_iff_exists.mp (held nonempty)
      simp only
      rw [read_ok hl]
      grind [ok_bind, HubOk, noteRejected, HubInv.record, sendRefuse_spec, sendPark_spec]

end TrueAsync.Websocket

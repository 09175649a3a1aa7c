import TrueAsync.Lib.Refcount
import TrueAsync.Lib.Returns
import TrueAsync.Websocket.Interest

/-!
# The topic hub

`src/websocket/topic_hub.c`: the slot table of the workers, the fan-out of a publish into
their mailboxes, the reliable sends with their retry queues, and the scatter-gather count.

A run is a sequence of `HubEvent`s. An event is one stretch of code that no other thread can
interleave with: the walk under `hub->admin`, or work on the state of one thread. So a call
that suspends, or that goes on after it has dropped the lock, is several events, and what its
stack frame keeps alive in between is a `HubCall`. The topic trees are not part of this model:
what `ws_topic_count` finds in one is an argument of the event.

Payloads, commands, entries, queries, mailboxes and attachments live in heaps. An access to a
released one, a null pointer and an underflow are faults.
-/

namespace TrueAsync.Websocket

open TrueAsync.Lib

/-! ## State -/

abbrev SlotId := Nat
abbrev PayloadPtr := Nat
abbrev CmdPtr := Nat
abbrev QueryPtr := Nat
abbrev EntryPtr := Nat
abbrev MailboxPtr := Nat
abbrev LocalPtr := Nat
abbrev CallId := Nat

/-- `TOPIC_HUB_MAX_WORKERS`. -/
def topicHubMaxWorkers : Nat := 1024

/-- `TOPIC_HUB_MAILBOX_CAPACITY`. -/
def topicHubMailboxCapacity : Nat := 4096

/-- `TOPIC_HUB_MAILBOX_BATCH`. -/
def topicHubMailboxBatch : Nat := 64

/-- `ws_payload_t`. -/
structure WsPayload where
  refcount : Nat
  data : Bytes
  binary : Bool

/-- `ws_query_t`. `done` names the call whose event it is; a call owns and disposes its
event, so the event lives as long as the call. -/
structure WsQuery where
  refcount : Nat
  slot : SlotId
  gen : UInt32
  pending : Nat
  total : UInt32
  abandoned : Bool
  done : Option CallId

/-- `ws_cmd_kind_t`. -/
inductive WsCmdKind where
  | publish
  | count
  | countReply
  deriving DecidableEq

/-- `ws_cmd_t`. -/
structure WsCmd where
  kind : WsCmdKind
  payload : Option PayloadPtr
  query : Option QueryPtr
  count : UInt32
  exceptId : Nat
  topic : Bytes

/-- `retry_target_t`. -/
structure RetryTarget where
  slot : SlotId
  gen : UInt32
  deriving DecidableEq

/-- `retry_entry_t`, with `npending` as the length of `pending`. The terminal step gives up
the entry's payload reference; it leaves the pointer where it is, and nothing reads it again.
Here it becomes `none`, so that a later read would be a fault. -/
structure RetryEntry where
  refcount : Nat
  abandoned : Bool
  shutdown : Bool
  payload : Option PayloadPtr
  pending : List RetryTarget
  delivered : Nat
  gone : Nat
  exceptId : Nat
  deadlineMs : Nat
  waiter : Option CallId
  topic : Bytes

/-- `thread_mailbox_t`: the queue the producers see, and the commands that the consumer has
taken out and not yet dealt with. -/
structure ThreadMailbox where
  queue : List CmdPtr
  batch : List CmdPtr

/-- Where the thread of an attachment is: outside, between the two halves of a reliable send,
or inside `topic_hub_detach`. -/
inductive LocalPc where
  | idle
  | sending (call : CallId)
  | retired
  | draining
  deriving DecidableEq

/-- `ws_local_t`, with `retry_head`, `retry_tail` and `retry_count` as one list. -/
structure WsLocal where
  slot : SlotId
  gen : UInt32
  inbox : MailboxPtr
  retryQueue : List EntryPtr
  retryIntervalMs : Nat
  retryTimerArmed : Bool
  pc : LocalPc

/-- The row of a worker in `topic_hub_t`. -/
structure HubSlot where
  taken : Bool
  inbox : Option MailboxPtr
  interest : Option InterestCounters
  gen : UInt32

/-- The counters of `topic_hub_t`. -/
structure HubStats where
  posted : Nat
  skipped : Nat
  dropped : Nat
  retryQueued : Nat
  retryDelivered : Nat
  retryExpired : Nat
  retryRejected : Nat
  retryGone : Nat
  retryShutdown : Nat

/-- What is published: topic, body and origin. -/
structure HubMessage where
  topic : Bytes
  data : Bytes
  binary : Bool
  exceptId : Nat

/-- The frame of a call that is under way: a publish or a reliable send past its fan-out, a
sender parked on an entry, a count parked on its query. -/
inductive HubCall where
  | publishing (payload : Option PayloadPtr)
  | sending (owner : Option LocalPtr) (blocking : Bool) (message : HubMessage)
      (payload : Option PayloadPtr) (full : List RetryTarget) (posted : Nat)
  | parked (entry : EntryPtr) (posted : Nat)
  | counting (query : QueryPtr)

def HubCall.payload : HubCall → Option PayloadPtr
  | .publishing payload => payload
  | .sending _ _ _ payload _ _ => payload
  | _ => none

def HubCall.entry : HubCall → Option EntryPtr
  | .parked entry _ => some entry
  | _ => none

def HubCall.query : HubCall → Option QueryPtr
  | .counting query => some query
  | _ => none

/-- `topic_hub_send_status_t`. -/
inductive TopicHubSendStatus where
  | ok
  | queueFull
  | expired
  | noQueue
  | shutdown
  deriving DecidableEq

/-- How a parked target ended. -/
inductive RetryOutcome where
  | delivered
  | gone
  | expired
  | shutdown
  deriving DecidableEq

/-- What happened, for the statements about whole runs. Nothing in the code reads it. -/
inductive HubTrace where
  | attached (slot : SlotId) (inbox : MailboxPtr)
  | posted (payload : PayloadPtr) (inbox : MailboxPtr)
  | missed (payload : PayloadPtr) (target : RetryTarget) (inbox : MailboxPtr)
  | parked (entry : EntryPtr) (payload : Option PayloadPtr) (targets : List RetryTarget)
  | retried (payload : PayloadPtr) (target : RetryTarget) (inbox : MailboxPtr)
  | settled (entry : EntryPtr) (target : RetryTarget) (outcome : RetryOutcome)
  | tried (call : CallId) (result : Bool)
  | sent (call : CallId) (status : TopicHubSendStatus) (delivered pending : Nat)
  | asked (query : QueryPtr) (matches_ : UInt32)
  | questioned (query : QueryPtr)
  | answered (query : QueryPtr) (count : UInt32)
  | fired (call : CallId)
  | counted (query : QueryPtr) (total : UInt32)

/-- What a fault is about. -/
inductive HubObject where
  | payload
  | command
  | entry
  | query
  | mailbox
  | attachment
  | call

inductive HubFault where
  /-- A released object was accessed. -/
  | freed (object : HubObject) (address : Nat)
  /-- A null pointer was followed. -/
  | null
  /-- A counter was decremented at zero. -/
  | underflow

abbrev HubM := Except HubFault

/-- `topic_hub_t` with everything that hangs off it. -/
structure HubState where
  slots : SlotId → HubSlot
  slotsUsed : Nat
  stats : HubStats
  payloads : Heap WsPayload
  cmds : Heap WsCmd
  entries : Heap RetryEntry
  queries : Heap WsQuery
  mailboxes : Heap ThreadMailbox
  locals : Heap WsLocal
  calls : Heap HubCall
  trace : List HubTrace

/-- `topic_hub_create`. -/
def topicHubCreate : HubState where
  slots := fun _ => ⟨false, none, none, 0⟩
  slotsUsed := 0
  stats := ⟨0, 0, 0, 0, 0, 0, 0, 0, 0⟩
  payloads := .empty
  cmds := .empty
  entries := .empty
  queries := .empty
  mailboxes := .empty
  locals := .empty
  calls := .empty
  trace := []

def HubState.log (st : HubState) (event : HubTrace) : HubState :=
  { st with trace := st.trace ++ [event] }

/-- `hub->interest`. -/
def HubState.interestTables (st : HubState) : InterestTables := fun slot => (st.slots slot).interest

/-! ## Reference counts -/

/-- `ws_payload_new`. -/
def wsPayloadNew (st : HubState) (data : Bytes) (binary : Bool) : HubState × PayloadPtr :=
  ({ st with payloads := st.payloads.alloc ⟨1, data, binary⟩ }, st.payloads.next)

/-- `zend_atomic_int_fetch_add(&payload->refcount, 1)`. -/
def wsPayloadAddref (st : HubState) (p : PayloadPtr) : HubM HubState := do
  let _ ← st.payloads.read (HubFault.freed .payload p) p
  pure { st with payloads := st.payloads.modify p fun x => { x with refcount := x.refcount + 1 } }

/-- `ws_payload_release`. -/
def wsPayloadRelease (st : HubState) (p : PayloadPtr) : HubM HubState := do
  let payload ← st.payloads.read (HubFault.freed .payload p) p
  if payload.refcount = 1 then
    pure { st with payloads := st.payloads.free p }
  else
    pure { st with
      payloads := st.payloads.modify p fun x => { x with refcount := x.refcount - 1 } }

/-- `if (payload != NULL) ws_payload_release(payload)`. -/
def wsPayloadReleaseOpt (st : HubState) : Option PayloadPtr → HubM HubState
  | none => pure st
  | some p => wsPayloadRelease st p

/-- `ws_query_release`. -/
def wsQueryRelease (st : HubState) (q : QueryPtr) : HubM HubState := do
  let query ← st.queries.read (HubFault.freed .query q) q
  if query.refcount = 1 then
    pure { st with queries := st.queries.free q }
  else
    pure { st with
      queries := st.queries.modify q fun x => { x with refcount := x.refcount - 1 } }

/-- `pefree(cmd)`. -/
def wsCmdFree (st : HubState) (c : CmdPtr) : HubM HubState := do
  let _ ← st.cmds.read (HubFault.freed .command c) c
  pure { st with cmds := st.cmds.free c }

/-- `async_plain_event_fire` on the event of a call. It schedules the coroutine. -/
def asyncPlainEventFire (st : HubState) (call : CallId) : HubM HubState := do
  let _ ← st.calls.read (HubFault.freed .call call) call
  pure (st.log (.fired call))

/-! ## Mailboxes -/

/-- `thread_mailbox_post`. The queue refuses when it is full, and may refuse earlier (`room`): its
length counter lags behind the consumer, and `try_enqueue` fails rather than allocate. -/
def threadMailboxPost (room : Bool) (st : HubState) (m : MailboxPtr) (c : CmdPtr) :
    HubM (HubState × Bool) := do
  let mailbox ← st.mailboxes.read (HubFault.freed .mailbox m) m
  if room ∧ mailbox.queue.length < topicHubMailboxCapacity then
    pure ({ st with
      mailboxes := st.mailboxes.modify m fun x => { x with queue := x.queue ++ [c] } }, true)
  else
    pure (st, false)

/-- `topic_hub_post_locked`. -/
def topicHubPostLocked (room : Bool) (st : HubState) (slot : SlotId) (c : CmdPtr) :
    HubM (HubState × Bool) :=
  match (st.slots slot).inbox with
  | none => pure (st, false)
  | some inbox => threadMailboxPost room st inbox c

/-- The body shared by the fan-out and the retry: build a command for the payload, take a
reference for it, post it, and undo both when the mailbox refuses. -/
def wsPostPublish (room : Bool) (st : HubState) (slot : SlotId) (p : PayloadPtr)
    (topic : Bytes) (exceptId : Nat) : HubM (HubState × Bool) := do
  let c := st.cmds.next
  let st := { st with cmds := st.cmds.alloc ⟨.publish, some p, none, 0, exceptId, topic⟩ }
  let st ← wsPayloadAddref st p
  let (st, posted) ← topicHubPostLocked room st slot c
  if posted then
    pure (st, true)
  else do
    let st ← wsPayloadRelease st p
    let st ← wsCmdFree st c
    pure (st, false)

/-! ## Attaching and detaching -/

/-- `topic_hub_attach`, in a thread that is not attached. `created` is whether
`thread_mailbox_create` succeeded. -/
def topicHubAttach (st : HubState) (created : Bool) : HubState :=
  if ¬ created then st
  else
    let inbox := st.mailboxes.next
    let mailboxes := st.mailboxes.alloc ⟨[], []⟩
    match (List.range topicHubMaxWorkers).find? fun slot => ¬ (st.slots slot).taken with
    | none => { st with mailboxes := mailboxes.free inbox }
    | some slot =>
        let gen := (st.slots slot).gen + 1
        HubState.log
          { st with
            mailboxes := mailboxes
            slots := Function.update st.slots slot ⟨true, some inbox, some fun _ => 0, gen⟩
            slotsUsed := if slot ≥ st.slotsUsed then slot + 1 else st.slotsUsed
            locals := st.locals.alloc ⟨slot, gen, inbox, [], 0, false, .idle⟩ }
          (.attached slot inbox)

/-- Run `f` in the thread of attachment `l`, when it is at `pc`. -/
def atPc (st : HubState) (l : LocalPtr) (pc : LocalPc)
    (f : WsLocal → HubM HubState) : HubM HubState :=
  match st.locals.cell l with
  | none => pure st
  | some loc => if loc.pc = pc then f loc else pure st

/-- The locked part of `topic_hub_detach`: the slot is retired. -/
def topicHubDetachRetire (st : HubState) (l : LocalPtr) (loc : WsLocal) : HubState :=
  { st with
    slots := Function.update st.slots loc.slot
      { st.slots loc.slot with inbox := none, interest := none, taken := false }
    locals := st.locals.modify l ({ · with pc := .retired }) }

/-- `retry_entry_release`. -/
def retryEntryRelease (st : HubState) (e : EntryPtr) : HubM HubState := do
  let entry ← st.entries.read (HubFault.freed .entry e) e
  if entry.refcount = 1 then
    pure { st with entries := st.entries.free e }
  else
    pure { st with
      entries := st.entries.modify e fun x => { x with refcount := x.refcount - 1 } }

/-- The first half of `retry_entry_finish`: wake a blocking sender that has not left. -/
def retryEntryWake (st : HubState) (e : EntryPtr) (entry : RetryEntry) : HubM HubState :=
  match entry.waiter with
  | none => pure st
  | some call =>
      if entry.abandoned then pure st
      else
        asyncPlainEventFire
          { st with entries := st.entries.modify e ({ · with waiter := none }) } call

/-- `retry_entry_finish`. -/
def retryEntryFinish (st : HubState) (e : EntryPtr) : HubM HubState := do
  let entry ← st.entries.read (HubFault.freed .entry e) e
  let st ← retryEntryWake st e entry
  match entry.payload with
  | none => throw .null
  | some p => do
      let st ← wsPayloadRelease st p
      let st := { st with entries := st.entries.modify e ({ · with payload := none }) }
      retryEntryRelease st e

/-- One turn of the loop of `topic_hub_retry_teardown`; `lost` is its running sum. -/
def retryTeardownEntry (acc : HubState × Nat) (e : EntryPtr) :
    HubM (HubState × Nat) := do
  let (st, lost) := acc
  let entry ← st.entries.read (HubFault.freed .entry e) e
  let st := { st with
    entries := st.entries.modify e ({ · with shutdown := true })
    trace := st.trace ++ entry.pending.map fun t => .settled e t .shutdown }
  let st ← retryEntryFinish st e
  pure (st, lost + entry.pending.length)

/-- `topic_hub_retry_teardown`. The queue is thread-local and is not looked at between its
loop and the end of the function, so it is emptied in front of the loop here. -/
def topicHubRetryTeardown (st : HubState) (l : LocalPtr) (loc : WsLocal) :
    HubM HubState := do
  let st := { st with
    locals := st.locals.modify l fun x =>
      { x with retryQueue := [], retryIntervalMs := 0, retryTimerArmed := false, pc := .draining } }
  let (st, lost) ← loc.retryQueue.foldlM retryTeardownEntry (st, 0)
  pure { st with stats := { st.stats with retryShutdown := st.stats.retryShutdown + lost } }

/-- The end of `topic_hub_detach`, once `thread_mailbox_drain_pending` finds nothing more. -/
def topicHubDetachFree (st : HubState) (l : LocalPtr) (loc : WsLocal) :
    HubM HubState := do
  let mailbox ← st.mailboxes.read (HubFault.freed .mailbox loc.inbox) loc.inbox
  if mailbox.queue = [] ∧ mailbox.batch = [] then
    pure { st with mailboxes := st.mailboxes.free loc.inbox, locals := st.locals.free l }
  else
    pure st

/-! ## Counting -/

/-- `topic_hub_note_drop`. -/
def topicHubNoteDrop (st : HubState) : HubState :=
  { st with stats := { st.stats with dropped := st.stats.dropped + 1 } }

/-- The post of a reply, which is made only while the asker still has its slot. -/
def topicHubPostReply (room : Bool) (st : HubState) (query : WsQuery) (reply : CmdPtr) :
    HubM (HubState × Bool) :=
  if query.gen = (st.slots query.slot).gen then topicHubPostLocked room st query.slot reply
  else pure (st, false)

/-- `topic_hub_answer_count`, for a command whose query is `q`. `matches_` is the answer of the
worker's tree. -/
def topicHubAnswerCount (room : Bool) (st : HubState) (q : QueryPtr) (matches_ : UInt32) :
    HubM HubState := do
  let query ← st.queries.read (HubFault.freed .query q) q
  let reply := st.cmds.next
  let st := { st with cmds := st.cmds.alloc ⟨.countReply, none, some q, matches_, 0, []⟩ }
  let (st, posted) ← topicHubPostReply room st query reply
  if posted then
    pure st
  else do
    let st ← wsCmdFree st reply
    wsQueryRelease (topicHubNoteDrop st) q

/-- `ws_query_settle`. -/
def wsQuerySettle (st : HubState) (q : QueryPtr) (answered : UInt32) :
    HubM HubState := do
  let query ← st.queries.read (HubFault.freed .query q) q
  if query.abandoned then
    wsQueryRelease st q
  else if query.pending = 0 then
    throw .underflow
  else do
    let st := HubState.log
      { st with
        queries := st.queries.modify q fun x =>
          { x with total := x.total + answered, pending := x.pending - 1 } }
      (.answered q answered)
    if query.pending = 1 then
      match query.done with
      | none => throw .null
      | some call => do
          let st ← asyncPlainEventFire st call
          wsQueryRelease st q
    else
      wsQueryRelease st q

/-- One turn of the loop of `topic_hub_drain`. The reference of a `COUNT` travels on with the
reply, so the command lets go of it first. -/
def topicHubDrainCmd (room : Bool) (st : HubState) (c : CmdPtr) (matches_ : UInt32) :
    HubM HubState := do
  let cmd ← st.cmds.read (HubFault.freed .command c) c
  match cmd.kind with
  | .publish =>
      match cmd.payload with
      | none => throw .null
      | some p => do
          let st ← wsPayloadRelease st p
          wsCmdFree st c
  | .count =>
      match cmd.query with
      | none => throw .null
      | some q => do
          let st := { st with cmds := st.cmds.modify c ({ · with query := none }) }
          let st ← topicHubAnswerCount room st q matches_
          wsCmdFree st c
  | .countReply =>
      match cmd.query with
      | none => throw .null
      | some q => do
          let st ← wsQuerySettle st q cmd.count
          wsCmdFree st c

/-- `thread_mpsc_drain` into the batch buffer of the consumer. -/
def threadMailboxFetch (st : HubState) (m : MailboxPtr) : HubM HubState := do
  let mailbox ← st.mailboxes.read (HubFault.freed .mailbox m) m
  if mailbox.batch = [] then
    pure { st with
      mailboxes := st.mailboxes.modify m fun x =>
        ⟨x.queue.drop topicHubMailboxBatch, x.queue.take topicHubMailboxBatch⟩ }
  else
    pure st

def threadMailboxProcess (room : Bool) (st : HubState) (m : MailboxPtr) (matches_ : UInt32) :
    HubM HubState := do
  let mailbox ← st.mailboxes.read (HubFault.freed .mailbox m) m
  match mailbox.batch with
  | [] => pure st
  | c :: rest =>
      topicHubDrainCmd room
        { st with mailboxes := st.mailboxes.modify m ({ · with batch := rest }) } c matches_

/-- One turn of the loop of `topic_hub_ask_others`. -/
def askSlot (room : SlotId → Bool) (ownSlot : SlotId) (topic : Bytes)
    (interest : List (List InterestBucket)) (q : QueryPtr) (st : HubState) (slot : SlotId) :
    HubM HubState :=
  if slot = ownSlot ∨ (st.slots slot).inbox = none ∨
      wsInterestMatches st.interestTables slot interest = false then
    pure st
  else do
    let c := st.cmds.next
    let _ ← st.queries.read (HubFault.freed .query q) q
    let st := { st with
      cmds := st.cmds.alloc ⟨.count, none, some q, 0, 0, topic⟩
      queries := st.queries.modify q fun x => { x with refcount := x.refcount + 1 } }
    let (st, posted) ← topicHubPostLocked (room slot) st slot c
    if posted then
      pure (HubState.log
        { st with queries := st.queries.modify q fun x => { x with pending := x.pending + 1 } }
        (.questioned q))
    else do
      let st := { st with
        queries := st.queries.modify q fun x => { x with refcount := x.refcount - 1 } }
      let st ← wsCmdFree st c
      pure (topicHubNoteDrop st)

/-- `topic_hub_count` up to its suspension, in the thread of attachment `loc`. `eventOk` is
whether `async_plain_event_new` succeeded. -/
def topicHubCountStart (zendHash : Bytes → UInt32) (room : SlotId → Bool) (st : HubState)
    (loc : WsLocal) (topic : Bytes) (matches_ : UInt32) (eventOk : Bool) :
    HubM HubState :=
  if ¬ eventOk then pure st
  else
    let call := st.calls.next
    let q := st.queries.next
    let st := HubState.log
      { st with
        queries := st.queries.alloc ⟨1, loc.slot, loc.gen, 0, matches_, false, some call⟩
        calls := st.calls.alloc (.counting q) }
      (.asked q matches_)
    (List.range st.slotsUsed).foldlM
      (askSlot room loc.slot topic (wsInterestBuild zendHash topic) q) st

/-- `topic_hub_count` from its suspension on: answered, timed out or cancelled. -/
def topicHubCountReturn (st : HubState) (call : CallId) (q : QueryPtr) :
    HubM HubState := do
  let query ← st.queries.read (HubFault.freed .query q) q
  let st := HubState.log
    { st with
      queries := st.queries.modify q ({ · with abandoned := true, done := none })
      calls := st.calls.free call }
    (.counted q query.total)
  wsQueryRelease st q

/-! ## Publishing -/

/-- The accumulators of `topic_hub_fanout_locked`. -/
structure HubFanout where
  payload : Option PayloadPtr
  posted : Nat
  skipped : Nat
  dropped : Nat
  full : List RetryTarget

def fanoutPayload (st : HubState) (acc : HubFanout) (message : HubMessage) :
    HubState × PayloadPtr :=
  match acc.payload with
  | some p => (st, p)
  | none => wsPayloadNew st message.data message.binary

/-- One turn of the loop of `topic_hub_fanout_locked`. -/
def fanoutSlot (room : SlotId → Bool) (ownSlot : Option SlotId) (message : HubMessage)
    (interest : List (List InterestBucket)) (reliable : Bool) (acc : HubState × HubFanout)
    (slot : SlotId) : HubM (HubState × HubFanout) :=
  let (st, acc) := acc
  match (st.slots slot).inbox with
  | none => pure (st, acc)
  | some inbox =>
      if ownSlot = some slot then
        pure (st, acc)
      else if wsInterestMatches st.interestTables slot interest = false then
        pure (st, { acc with skipped := acc.skipped + 1 })
      else do
        let (st, p) := fanoutPayload st acc message
        let (st, posted) ← wsPostPublish (room slot) st slot p message.topic message.exceptId
        if posted then
          pure (st.log (.posted p inbox), { acc with payload := some p, posted := acc.posted + 1 })
        else if reliable then
          let target : RetryTarget := ⟨slot, (st.slots slot).gen⟩
          pure (st.log (.missed p target inbox),
            { acc with payload := some p, full := acc.full ++ [target] })
        else
          pure (st, { acc with payload := some p, dropped := acc.dropped + 1 })

/-- `topic_hub_fanout_locked`. `reliable` is `full != NULL`. -/
def topicHubFanoutLocked (zendHash : Bytes → UInt32) (room : SlotId → Bool) (st : HubState)
    (ownSlot : Option SlotId) (message : HubMessage) (reliable : Bool) :
    HubM (HubState × HubFanout) :=
  (List.range st.slotsUsed).foldlM
    (fanoutSlot room ownSlot message (wsInterestBuild zendHash message.topic) reliable)
    (st, ⟨none, 0, 0, 0, []⟩)

/-- `topic_hub_publish` up to the release of its payload. -/
def topicHubPublish (zendHash : Bytes → UInt32) (room : SlotId → Bool) (st : HubState)
    (ownSlot : Option SlotId) (message : HubMessage) : HubM HubState := do
  let (st, acc) ← topicHubFanoutLocked zendHash room st ownSlot message false
  pure { st with
    stats := { st.stats with
      posted := st.stats.posted + acc.posted
      skipped := st.stats.skipped + acc.skipped
      dropped := st.stats.dropped + acc.dropped }
    calls := st.calls.alloc (.publishing acc.payload) }

/-- The end of `topic_hub_publish`. -/
def topicHubPublishEnd (st : HubState) (call : CallId) (payload : Option PayloadPtr) :
    HubM HubState := do
  let st ← wsPayloadReleaseOpt st payload
  pure { st with calls := st.calls.free call }

/-! ## Reliable sends -/

/-- `topic_hub_send_fanout`, the first half of `topic_hub_try_send` and `topic_hub_send`. -/
def topicHubSendFanout (zendHash : Bytes → UInt32) (room : SlotId → Bool) (st : HubState)
    (owner : Option (LocalPtr × WsLocal)) (blocking : Bool) (message : HubMessage) :
    HubM HubState := do
  let (st, acc) ← topicHubFanoutLocked zendHash room st (owner.map fun o => o.2.slot) message true
  let call := st.calls.next
  let st := { st with
    stats := { st.stats with
      posted := st.stats.posted + acc.posted
      skipped := st.stats.skipped + acc.skipped }
    calls := st.calls.alloc
      (.sending (owner.map (·.1)) blocking message acc.payload acc.full acc.posted) }
  match owner with
  | none => pure st
  | some (l, _) => pure { st with locals := st.locals.modify l ({ · with pc := .sending call }) }

/-- Where a send leaves its frame: the result is recorded and its thread goes on. -/
def sendLeave (st : HubState) (call : CallId) (owner : Option LocalPtr) (result : HubTrace) :
    HubState :=
  HubState.log
    { st with
      calls := st.calls.free call
      locals := match owner with
        | none => st.locals
        | some l => st.locals.modify l ({ · with pc := .idle }) }
    result

def sendResult (call : CallId) (blocking : Bool) (status : TopicHubSendStatus)
    (posted pending : Nat) : HubTrace :=
  if blocking then .sent call status posted pending else .tried call (status = .ok)

/-- A send that ends without an entry gives its payload back. -/
def sendRefuse (st : HubState) (call : CallId) (owner : Option LocalPtr)
    (payload : Option PayloadPtr) (result : HubTrace) : HubM HubState := do
  let st ← wsPayloadReleaseOpt st payload
  pure (sendLeave st call owner result)

/-- `ws_atomic_u64_add(&hub->retry_rejected, 1)`. -/
def noteRejected (st : HubState) : HubState :=
  { st with stats := { st.stats with retryRejected := st.stats.retryRejected + 1 } }

/-- `retry_entry_new`. -/
def retryEntryNew (message : HubMessage) (payload : Option PayloadPtr) (deadlineMs : Nat)
    (targets : List RetryTarget) (waiter : Option CallId) : RetryEntry where
  refcount := if waiter.isSome then 2 else 1
  abandoned := false
  shutdown := false
  payload := payload
  pending := targets
  delivered := 0
  gone := 0
  exceptId := message.exceptId
  deadlineMs := deadlineMs
  waiter := waiter
  topic := message.topic

/-- `topic_hub_retry_arm`; `armOk` is whether the timer can be created and started. -/
def topicHubRetryArm (loc : WsLocal) (armOk : Bool) : WsLocal × Bool :=
  if loc.retryTimerArmed then (loc, true)
  else if armOk then ({ loc with retryTimerArmed := true }, true)
  else (loc, false)

/-- `topic_hub_retry_enqueue`. -/
def topicHubRetryEnqueue (loc : WsLocal) (e : EntryPtr) (intervalMs : Nat) (armOk : Bool) :
    WsLocal × Bool :=
  let appended := { loc with
    retryQueue := loc.retryQueue ++ [e]
    retryIntervalMs :=
      if loc.retryIntervalMs = 0 then (if intervalMs ≠ 0 then intervalMs else 50)
      else loc.retryIntervalMs }
  let (armed, ok) := topicHubRetryArm appended armOk
  if ok then (armed, true)
  else
    ({ armed with retryQueue := loc.retryQueue, retryIntervalMs := loc.retryIntervalMs }, false)

/-- `retry_entry_discard`. -/
def retryEntryDiscard (st : HubState) (e : EntryPtr) : HubM HubState := do
  let entry ← st.entries.read (HubFault.freed .entry e) e
  match entry.payload with
  | none => throw .null
  | some p => do
      let st ← wsPayloadRelease st p
      pure { st with entries := st.entries.free e }

/-- The arguments of the second half of a reliable send, with the clock and the outcomes of
`async_plain_event_new` and of arming the timer. -/
structure SendSettle where
  now : Nat
  timeoutMs : Nat
  intervalMs : Nat
  queueMax : Nat
  eventOk : Bool
  armOk : Bool

/-- Parking: the tail of `topic_hub_try_send` and of `topic_hub_send` up to its suspension. -/
def sendPark (st : HubState) (call : CallId) (l : LocalPtr) (loc : WsLocal) (blocking : Bool)
    (message : HubMessage) (payload : Option PayloadPtr) (full : List RetryTarget)
    (posted : Nat) (args : SendSettle) : HubM HubState := do
  let e := st.entries.next
  let waiter := if blocking then some call else none
  let entry := retryEntryNew message payload (args.now + args.timeoutMs) full waiter
  let st := { st with entries := st.entries.alloc entry }
  let (loc', ok) := topicHubRetryEnqueue loc e args.intervalMs args.armOk
  if ok then
    let st := HubState.log
      { st with
        locals := st.locals.modify l fun _ => { loc' with pc := .idle }
        stats := { st.stats with retryQueued := st.stats.retryQueued + full.length } }
      (.parked e payload full)
    if blocking then
      pure { st with calls := st.calls.modify call fun _ => .parked e posted }
    else
      pure (HubState.log { st with calls := st.calls.free call } (.tried call true))
  else do
    let st ← retryEntryDiscard st e
    pure (sendLeave (noteRejected st) call (some l)
      (sendResult call blocking .queueFull posted full.length))

/-- The second half of `topic_hub_try_send` and `topic_hub_send`. -/
def topicHubSendSettle (st : HubState) (call : CallId) (owner : Option LocalPtr)
    (blocking : Bool) (message : HubMessage) (payload : Option PayloadPtr)
    (full : List RetryTarget) (posted : Nat) (args : SendSettle) : HubM HubState :=
  if full.length = 0 then
    sendRefuse st call owner payload (sendResult call blocking .ok posted 0)
  else
    match owner with
    | none => sendRefuse st call none payload (sendResult call blocking .noQueue posted full.length)
    | some l => do
        let loc ← st.locals.read (HubFault.freed .attachment l) l
        if loc.retryQueue.length ≥ args.queueMax ∨ (blocking ∧ ¬ args.eventOk) then
          sendRefuse (noteRejected st) call (some l) payload
            (sendResult call blocking .queueFull posted full.length)
        else
          sendPark st call l loc blocking message payload full posted args

/-- `topic_hub_send` from its suspension on: woken or cancelled. -/
def topicHubSendResume (st : HubState) (call : CallId) (e : EntryPtr) (posted : Nat) :
    HubM HubState := do
  let entry ← st.entries.read (HubFault.freed .entry e) e
  let status : TopicHubSendStatus :=
    if entry.shutdown then .shutdown else if entry.pending.length = 0 then .ok else .expired
  let st := HubState.log
    { st with
      entries := st.entries.modify e ({ · with abandoned := true, waiter := none })
      calls := st.calls.free call }
    (.sent call status (posted + entry.delivered) entry.pending.length)
  retryEntryRelease st e

/-! ## The drainer -/

/-- The accumulators of the inner loop of `topic_hub_retry_drain`. -/
structure RetryPass where
  keep : List RetryTarget
  delivered : Nat
  gone : Nat

/-- One turn of the inner loop of `topic_hub_retry_drain`, for a target of entry `e`. -/
def retryTarget (room : EntryPtr → SlotId → Bool) (e : EntryPtr) (acc : HubState × RetryPass)
    (t : RetryTarget) : HubM (HubState × RetryPass) := do
  let (st, pass) := acc
  let entry ← st.entries.read (HubFault.freed .entry e) e
  match (st.slots t.slot).inbox with
  | none =>
      pure (HubState.log
        { st with entries := st.entries.modify e fun x => { x with gone := x.gone + 1 } }
        (.settled e t .gone), { pass with gone := pass.gone + 1 })
  | some inbox =>
      if (st.slots t.slot).gen ≠ t.gen then
        pure (HubState.log
          { st with entries := st.entries.modify e fun x => { x with gone := x.gone + 1 } }
          (.settled e t .gone), { pass with gone := pass.gone + 1 })
      else
        match entry.payload with
        | none => throw .null
        | some p => do
            let (st, posted) ← wsPostPublish (room e t.slot) st t.slot p entry.topic entry.exceptId
            if posted then
              let st := { st with
                entries := st.entries.modify e fun x => { x with delivered := x.delivered + 1 } }
              pure (((st.log (.posted p inbox)).log (.retried p t inbox)).log
                (.settled e t .delivered), { pass with delivered := pass.delivered + 1 })
            else
              pure (st, { pass with keep := pass.keep ++ [t] })

/-- The accumulators of the outer loop. -/
structure RetryDrain where
  resolved : List EntryPtr
  delivered : Nat
  gone : Nat
  expired : Nat

/-- One turn of the outer loop of `topic_hub_retry_drain`: an entry of the queue of `l`. -/
def retryEntryPass (room : EntryPtr → SlotId → Bool) (now : Nat) (l : LocalPtr)
    (acc : HubState × RetryDrain) (e : EntryPtr) : HubM (HubState × RetryDrain) := do
  let (st, drain) := acc
  let entry ← st.entries.read (HubFault.freed .entry e) e
  let (st, pass) ← entry.pending.foldlM (retryTarget room e) (st, ⟨[], 0, 0⟩)
  let st := { st with entries := st.entries.modify e ({ · with pending := pass.keep }) }
  let drain := { drain with
    delivered := drain.delivered + pass.delivered, gone := drain.gone + pass.gone }
  if pass.keep.length = 0 ∨ now ≥ entry.deadlineMs then
    let st := { st with
      locals := st.locals.modify l fun x => { x with retryQueue := x.retryQueue.erase e }
      trace := st.trace ++ pass.keep.map fun t => .settled e t .expired }
    pure (st, { drain with
      resolved := e :: drain.resolved, expired := drain.expired + pass.keep.length })
  else
    pure (st, drain)

/-- `topic_hub_retry_drain`, with the pause of the timer that follows it in the tick. -/
def topicHubRetryDrain (room : EntryPtr → SlotId → Bool) (now : Nat) (st : HubState)
    (l : LocalPtr) (loc : WsLocal) : HubM HubState := do
  let (st, drain) ← loc.retryQueue.foldlM (retryEntryPass room now l) (st, ⟨[], 0, 0, 0⟩)
  let st ← drain.resolved.foldlM retryEntryFinish st
  let st := { st with
    stats := { st.stats with
      retryDelivered := st.stats.retryDelivered + drain.delivered
      retryGone := st.stats.retryGone + drain.gone
      retryExpired := st.stats.retryExpired + drain.expired } }
  pure { st with
    locals := st.locals.modify l fun x =>
      { x with retryTimerArmed := x.retryTimerArmed && !x.retryQueue.isEmpty } }

/-! ## Runs -/

/-- One uninterrupted stretch of a thread. -/
inductive HubEvent where
  | attach (created : Bool)
  | detachRetire (l : LocalPtr)
  | detachTeardown (l : LocalPtr)
  | detachFree (l : LocalPtr)
  | publish (owner : Option LocalPtr) (message : HubMessage) (room : SlotId → Bool)
  | publishEnd (call : CallId)
  | send (owner : Option LocalPtr) (blocking : Bool) (message : HubMessage)
      (room : SlotId → Bool)
  | sendSettle (call : CallId) (args : SendSettle)
  | sendResume (call : CallId)
  | retryTick (l : LocalPtr) (now : Nat) (room : EntryPtr → SlotId → Bool)
  | mailboxFetch (l : LocalPtr)
  | mailboxProcess (l : LocalPtr) (matches_ : UInt32) (room : Bool)
  | count (l : LocalPtr) (topic : Bytes) (matches_ : UInt32) (eventOk : Bool)
      (room : SlotId → Bool)
  | countReturn (call : CallId)
  | interestPublish (l : LocalPtr) (filter : Bytes) (joining : Bool)

/-- The mailbox of an attachment is drained by the reactor, and by the detach. -/
def atDrain (st : HubState) (l : LocalPtr) (f : WsLocal → HubM HubState) :
    HubM HubState :=
  match st.locals.cell l with
  | none => pure st
  | some loc => if loc.pc = .idle ∨ loc.pc = .draining then f loc else pure st

/-- `ws_interest_publish` in a worker, attached or on its way out. The table is the one that
the worker's slot has now, whoever holds it. -/
def hubInterestPublish (zendHash : Bytes → UInt32) (st : HubState) (slot : SlotId)
    (filter : Bytes) (joining : Bool) : HubState :=
  let tables := wsInterestBump zendHash st.interestTables slot filter
    (wsTopicInterestPrefix filter) (if joining then 1 else -1)
  { st with slots := fun s => { st.slots s with interest := tables s } }

def HubEvent.step (zendHash : Bytes → UInt32) (st : HubState) : HubEvent → HubM HubState
  | .attach created => pure (topicHubAttach st created)
  | .detachRetire l => atPc st l .idle fun loc => pure (topicHubDetachRetire st l loc)
  | .detachTeardown l => atPc st l .retired fun loc => topicHubRetryTeardown st l loc
  | .detachFree l => atPc st l .draining fun loc => topicHubDetachFree st l loc
  | .publish none message room => topicHubPublish zendHash room st none message
  | .publish (some l) message room =>
      atPc st l .idle fun loc => topicHubPublish zendHash room st (some loc.slot) message
  | .publishEnd call =>
      match st.calls.cell call with
      | some (.publishing payload) => topicHubPublishEnd st call payload
      | _ => pure st
  | .send none blocking message room => topicHubSendFanout zendHash room st none blocking message
  | .send (some l) blocking message room =>
      atPc st l .idle fun loc => topicHubSendFanout zendHash room st (some (l, loc)) blocking message
  | .sendSettle call args =>
      match st.calls.cell call with
      | some (.sending owner blocking message payload full posted) =>
          topicHubSendSettle st call owner blocking message payload full posted args
      | _ => pure st
  | .sendResume call =>
      match st.calls.cell call with
      | some (.parked e posted) => topicHubSendResume st call e posted
      | _ => pure st
  | .retryTick l now room =>
      atPc st l .idle fun loc =>
        if loc.retryTimerArmed then topicHubRetryDrain room now st l loc else pure st
  | .mailboxFetch l => atDrain st l fun loc => threadMailboxFetch st loc.inbox
  | .mailboxProcess l matches_ room =>
      atDrain st l fun loc => threadMailboxProcess room st loc.inbox matches_
  | .count l topic matches_ eventOk room =>
      atPc st l .idle fun loc =>
        topicHubCountStart zendHash room st loc topic matches_ eventOk
  | .countReturn call =>
      match st.calls.cell call with
      | some (.counting q) => topicHubCountReturn st call q
      | _ => pure st
  | .interestPublish l filter joining =>
      match st.locals.cell l with
      | none => pure st
      | some loc => pure (hubInterestPublish zendHash st loc.slot filter joining)

def runHub (zendHash : Bytes → UInt32) (events : List HubEvent) : HubM HubState :=
  events.foldlM (HubEvent.step zendHash) topicHubCreate

end TrueAsync.Websocket

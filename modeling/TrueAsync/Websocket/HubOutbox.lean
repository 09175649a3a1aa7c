import TrueAsync.Lib.History
import TrueAsync.Websocket.HubFrames

/-!
# Outboxes and their delivery

A reliable send owes its payload to the targets whose mailbox was full. Whoever keeps such a
promise (the call that has just fanned out, its frame, the entry it parked) is an `Origin`, and
an `Outbox` says what each of them still has to deliver. `Delivery` relates the promises to the
history of the hub: a payload has never been posted to a slot that is still owed it, so posting it
there cannot be a second copy, and a generation is the number of times a slot has been attached.
-/

namespace TrueAsync.Websocket

open TrueAsync.Lib List HubTrace

/-! ## Views of the trace -/

/-- The mailbox of an attachment to slot `s`. -/
def HubTrace.attachedTo (s : SlotId) : HubTrace → Option MailboxPtr
  | .attached s' m => if s' = s then some m else none
  | _ => none

def HubTrace.post : HubTrace → Option (PayloadPtr × MailboxPtr)
  | .posted p m => some (p, m)
  | _ => none

/-- The target that was full for payload `p`. -/
def HubTrace.missedBy (p : PayloadPtr) : HubTrace → Option RetryTarget
  | .missed p' t _ => if p' = p then some t else none
  | _ => none

/-- The mailboxes of the attachments of slot `s`, in order. -/
def inboxesOf (s : SlotId) (trace : List HubTrace) : List MailboxPtr :=
  trace.filterMap (attachedTo s)

def postsOf (trace : List HubTrace) : List (PayloadPtr × MailboxPtr) := trace.filterMap post

/-- The targets that were full when the send of `p` was made. -/
def missedOf (p : PayloadPtr) (trace : List HubTrace) : List RetryTarget :=
  trace.filterMap (missedBy p)

def HubTrace.isDelivery : HubTrace → Bool
  | .attached .. => true
  | .posted .. => true
  | .missed .. => true
  | .parked .. => true
  | .retried .. => true
  | _ => false

section Views

variable {trace extra : List HubTrace} {s : SlotId}

theorem inboxesOf_append (unseen : ∀ event ∈ extra, event.attachedTo s = none) :
    inboxesOf s (trace ++ extra) = inboxesOf s trace :=
  filterMap_append_unseen unseen

theorem postsOf_append (unseen : ∀ event ∈ extra, event.post = none) :
    postsOf (trace ++ extra) = postsOf trace :=
  filterMap_append_unseen unseen

theorem missedOf_append (unseen : ∀ event ∈ extra, event.missedBy p = none) :
    missedOf p (trace ++ extra) = missedOf p trace :=
  filterMap_append_unseen unseen

theorem inboxesOf_attached (slot : SlotId) : inboxesOf s (trace ++ [.attached slot m]) =
      inboxesOf s trace ++ if slot = s then [m] else [] := by
  grind [inboxesOf, attachedTo]

theorem postsOf_posted (p : PayloadPtr) (m : MailboxPtr) :
    postsOf (trace ++ [.posted p m]) = postsOf trace ++ [(p, m)] := by
  unfold postsOf
  rw [filterMap_append]
  rfl

theorem missedOf_missed (p' : PayloadPtr) :
    missedOf p (trace ++ [.missed p' t m]) = missedOf p trace ++ if p' = p then [t] else [] := by
  grind [missedOf, missedBy]

variable {t : RetryTarget}

theorem mem_missedOf : t ∈ missedOf p trace ↔ ∃ m, .missed p t m ∈ trace := by
  unfold missedOf
  rw [mem_filterMap]
  constructor
  · rintro ⟨event, member, seen⟩
    cases event with
    | missed p' t' m => grind [missedBy]
    | _ => cases seen
  · grind [missedBy]

end Views

/-! ## Promises -/

/-- Who still has to deliver something. -/
inductive Origin where
  | entry (e : EntryPtr)
  | frame (c : CallId)
  /-- The fan-out that is running. -/
  | hand
  deriving DecidableEq

def Origin.isEntry : Origin → Bool
  | .entry _ => true
  | _ => false

/-- What each origin has to deliver: a payload, and where to. -/
abbrev Outbox := Origin → Option (PayloadPtr × List RetryTarget)

/-- What an entry has to deliver, as long as it owns its payload. -/
def RetryEntry.outgoing (x : RetryEntry) : Option (PayloadPtr × List RetryTarget) :=
  x.payload.map fun p => (p, x.pending)

def HubCall.outgoing : HubCall → Option (PayloadPtr × List RetryTarget)
  | .sending _ _ _ payload full _ => payload.map fun p => (p, full)
  | _ => none

def outboxOf (st : HubState) : Outbox
  | .entry e => (st.entries.cell e).bind RetryEntry.outgoing
  | .frame c => (st.calls.cell c).bind HubCall.outgoing
  | .hand => none

/-- Payload `p` was never posted to an attachment of slot `s`. -/
def Untouched (trace : List HubTrace) (p : PayloadPtr) (s : SlotId) : Prop :=
  ∀ m ∈ inboxesOf s trace, (p, m) ∉ postsOf trace

/-- The attachment that target `t` names is the last one of its slot, with mailbox `m`. -/
def Names (past : List HubTrace) (t : RetryTarget) (m : MailboxPtr) : Prop :=
  t.gen = UInt32.ofNat (inboxesOf t.slot past).length ∧ (inboxesOf t.slot past).getLast? = some m

def EventOk (past : List HubTrace) : HubTrace → Prop
  | .missed _ t m => Names past t m
  | .retried p t m => Names past t m ∧ t ∈ missedOf p past
  | _ => True

/-- Generations and mailboxes of the slots, as the history has them. -/
structure SlotHistory (st : HubState) : Prop where
  gen : ∀ s, (st.slots s).gen = UInt32.ofNat (inboxesOf s st.trace).length
  inbox : ∀ {s m}, (st.slots s).inbox = some m → (inboxesOf s st.trace).getLast? = some m
  home : ∀ {s s' m}, m ∈ inboxesOf s st.trace → m ∈ inboxesOf s' st.trace → s = s'
  fresh : ∀ s, (inboxesOf s st.trace).Nodup
  bound : ∀ {s m}, m ∈ inboxesOf s st.trace → m < st.mailboxes.next

/-- The promise of `o` to deliver `p` to the targets `ts`: they were full, each has a slot of its own,
and no slot has had a copy. -/
structure Owed (st : HubState) (o : Origin) (p : PayloadPtr) (ts : List RetryTarget) : Prop where
  bound : p < st.payloads.next
  distinct : (ts.map (·.slot)).Nodup
  untouched : ∀ {t}, t ∈ ts → Untouched st.trace p t.slot
  missed : ∀ {t}, t ∈ ts → t ∈ missedOf p st.trace
  /-- A send that has not parked yet owes all of them, and no entry has its payload. -/
  sending : o.isEntry = false → missedOf p st.trace = ts ∧
    ∀ e ts', .parked e (some p) ts' ∉ st.trace

/-- The posts: no copy twice. -/
structure Posts (st : HubState) : Prop where
  bound : ∀ {p m}, (p, m) ∈ postsOf st.trace → p < st.payloads.next ∧ m < st.mailboxes.next
  once : (postsOf st.trace).Nodup

/-- The targets that were full: an entry is parked with all of them. -/
structure Misses (st : HubState) : Prop where
  bound : ∀ {p t}, t ∈ missedOf p st.trace → p < st.payloads.next
  parkBound : ∀ {e p ts}, .parked e (some p) ts ∈ st.trace → p < st.payloads.next
  parked : ∀ {e p ts}, .parked e (some p) ts ∈ st.trace → missedOf p st.trace = ts

/-- The promises of an outbox agree with the history, and each payload has one origin. -/
structure Delivery (box : Outbox) (st : HubState) : Prop where
  slots : SlotHistory st
  owed : ∀ {o p ts}, box o = some (p, ts) → Owed st o p ts
  owner : ∀ {o o' p ts ts'}, box o = some (p, ts) → box o' = some (p, ts') → o = o'
  posts : Posts st
  misses : Misses st
  history : Along EventOk st.trace

variable {box box' : Outbox} {st st' : HubState}

/-! ## Operations on promises -/

theorem SlotHistory.congr (slots : SlotHistory st)
    (inboxes : ∀ s, inboxesOf s st'.trace = inboxesOf s st.trace)
    (gen : ∀ s, (st'.slots s).gen = (st.slots s).gen)
    (inbox : ∀ {s m}, (st'.slots s).inbox = some m → (st.slots s).inbox = some m)
    (mailboxes : st.mailboxes.next ≤ st'.mailboxes.next) : SlotHistory st' where
  gen := by
    intro s
    rw [gen, inboxes]
    exact slots.gen s
  inbox := by
    grind [SlotHistory.inbox]
  home := by
    intro s s' m
    rw [inboxes, inboxes]
    exact slots.home
  fresh := by
    intro s
    rw [inboxes]
    exact slots.fresh s
  bound := by
    intro s m member
    rw [inboxes] at member
    exact (slots.bound member).trans_le mailboxes

theorem Posts.congr (posts : Posts st) (same : postsOf st'.trace = postsOf st.trace)
    (payloads : st.payloads.next ≤ st'.payloads.next)
    (mailboxes : st.mailboxes.next ≤ st'.mailboxes.next) : Posts st' where
  bound := by
    intro p m member
    rw [same] at member
    obtain ⟨old, old'⟩ := posts.bound member
    exact ⟨old.trans_le payloads, old'.trans_le mailboxes⟩
  once := by
    rw [same]
    exact posts.once

theorem Misses.congr (misses : Misses st) (same : ∀ p, missedOf p st'.trace = missedOf p st.trace)
    (parkings : ∀ {e p ts}, .parked e p ts ∈ st'.trace → .parked e p ts ∈ st.trace)
    (payloads : st.payloads.next ≤ st'.payloads.next) : Misses st' where
  bound := by
    intro p t member
    rw [same] at member
    exact (misses.bound member).trans_le payloads
  parkBound := fun member => (misses.parkBound (parkings member)).trans_le payloads
  parked := by
    intro e p ts member
    rw [same]
    exact misses.parked (parkings member)

variable {p : PayloadPtr} {ts : List RetryTarget} {s : SlotId}

theorem Untouched.congr {trace trace' : List HubTrace} (untouched : Untouched trace p s)
    (inboxes : inboxesOf s trace' = inboxesOf s trace) (posts : postsOf trace' = postsOf trace) :
    Untouched trace' p s := by
  unfold Untouched
  rw [inboxes, posts]
  exact untouched

theorem Owed.congr (owed : Owed st o p ts) (payloads : st.payloads.next ≤ st'.payloads.next)
    (untouched : ∀ t ∈ ts, Untouched st.trace p t.slot → Untouched st'.trace p t.slot)
    (missed : missedOf p st'.trace = missedOf p st.trace)
    (parkings : o.isEntry = false → ∀ e ts', .parked e (some p) ts' ∈ st'.trace →
      .parked e (some p) ts' ∈ st.trace) : Owed st' o p ts where
  bound := owed.bound.trans_le payloads
  distinct := owed.distinct
  untouched := fun member => untouched _ member (owed.untouched member)
  missed := by
    rw [missed]
    exact owed.missed
  sending := by
    intro unparked
    rw [missed]
    obtain ⟨all, never⟩ := owed.sending unparked
    exact ⟨all, fun e ts' member => never e ts' (parkings unparked e ts' member)⟩

/-- Promises may be passed on, given up, or kept in part. A send that has not parked yet keeps
all of its targets. -/
theorem Delivery.rebox (delivery : Delivery box st) (source : Origin → Origin)
    (kept : ∀ {o p ts}, box' o = some (p, ts) → ∃ ts0, box (source o) = some (p, ts0) ∧
      ts.Sublist ts0 ∧ (o.isEntry = false → (source o).isEntry = false ∧ ts = ts0))
    (once : ∀ {o o' v v'}, box' o = some v → box' o' = some v' → source o = source o' → o = o') :
    Delivery box' st := by
  refine { delivery with owed := ?_, owner := ?_ }
  · intro o p ts promised
    obtain ⟨ts0, before, fewer, whole⟩ := kept promised
    obtain ⟨bound, distinct, untouched, missed, sending⟩ := delivery.owed before
    refine ⟨bound, distinct.sublist (fewer.map _), fun member => untouched (fewer.subset member),
      fun member => missed (fewer.subset member), ?_⟩
    intro unparked
    obtain ⟨source, rfl⟩ := whole unparked
    exact sending source
  · intro o o' p ts ts' promised promised'
    obtain ⟨_, before, _⟩ := kept promised
    obtain ⟨_, before', _⟩ := kept promised'
    exact once promised promised' (delivery.owner before before')

theorem Delivery.shrink (delivery : Delivery box st)
    (kept : ∀ {o v}, box' o = some v → box o = some v) : Delivery box' st := by
  apply delivery.rebox id
  · intro o p ts promised
    exact ⟨ts, kept promised, List.Sublist.refl _, fun unparked => ⟨unparked, rfl⟩⟩
  · intro o o' v v' _ _ same
    exact same

theorem Delivery.handOver (delivery : Delivery box st) (giver taker : Origin)
    (unparked : giver.isEntry = false)
    (kept : ∀ {o v}, box' o = some v → (o = taker ∧ box giver = some v) ∨
      (o ≠ taker ∧ o ≠ giver ∧ box o = some v)) : Delivery box' st := by
  apply delivery.rebox fun o => if o = taker then giver else o
  · intro o p ts promised
    rcases kept promised with ⟨here, given⟩ | ⟨other, _, same⟩
    · rw [if_pos here]
      exact ⟨ts, given, List.Sublist.refl _, fun _ => ⟨unparked, rfl⟩⟩
    · rw [if_neg other]
      exact ⟨ts, same, List.Sublist.refl _, fun entry => ⟨entry, rfl⟩⟩
  · grind

theorem update_eq_some (promised : Function.update box o v o' = some w) :
    (o' = o ∧ v = some w) ∨ (o' ≠ o ∧ box o' = some w) := by
  grind

/-- The running fan-out takes on a promise for a payload that nobody owes. -/
theorem Delivery.carry (delivery : Delivery box st) (unowed : ∀ {o ts'}, box o ≠ some (p, ts'))
    (owed : Owed st .hand p ts) : Delivery (Function.update box .hand (some (p, ts))) st := by
  refine { delivery with owed := ?_, owner := ?_ }
  · intro o q ts' promised
    rcases update_eq_some promised with ⟨rfl, new⟩ | ⟨_, old⟩
    · cases new
      exact owed
    · exact delivery.owed old
  · intro o o' q ts₁ ts₂ promised promised'
    rcases update_eq_some promised with ⟨rfl, new⟩ | ⟨_, old⟩ <;>
      rcases update_eq_some promised' with ⟨rfl, new'⟩ | ⟨_, old'⟩
    · rfl
    · cases new
      exact absurd old' unowed
    · cases new'
      exact absurd old unowed
    · exact delivery.owner old old'

/-! ## Steps that the delivery does not see -/

variable {event : HubTrace}

section

variable (quiet : event.isDelivery = false)
include quiet

theorem isDelivery_attachedTo : event.attachedTo s = none := by
  cases event <;> first | rfl | cases quiet

theorem isDelivery_post : event.post = none := by
  cases event <;> first | rfl | cases quiet

theorem isDelivery_missedBy : event.missedBy p = none := by
  cases event <;> first | rfl | cases quiet

theorem isDelivery_ok (past : List HubTrace) : EventOk past event:= by
  cases event <;> trivial

end

/-- What leaves the delivery alone: slots may be retired, and the heaps may grow. -/
structure Undisturbed (before after : HubState) : Prop where
  gen : ∀ s, (after.slots s).gen = (before.slots s).gen
  inbox : ∀ {s m}, (after.slots s).inbox = some m → (before.slots s).inbox = some m
  payloads : before.payloads.next ≤ after.payloads.next
  mailboxes : before.mailboxes.next ≤ after.mailboxes.next
  logs : Logs (fun event => event.isDelivery = false) before after

theorem Undisturbed.refl (st : HubState) : Undisturbed st st :=
  ⟨fun _ => rfl, id, le_rfl, le_rfl, .refl _ _⟩

theorem Undisturbed.trans (first : Undisturbed a b) (second : Undisturbed b c) :
    Undisturbed a c where
  gen := fun s => (second.gen s).trans (first.gen s)
  inbox := fun owned => first.inbox (second.inbox owned)
  payloads := first.payloads.trans second.payloads
  mailboxes := first.mailboxes.trans second.mailboxes
  logs := first.logs.trans second.logs

theorem Undisturbed.parked {q : Option PayloadPtr} (still : Undisturbed st st')
    (member : .parked e q ts ∈ st'.trace) : .parked e q ts ∈ st.trace :=
  still.logs.mem_of nofun member

theorem Undisturbed.missedOf (still : Undisturbed st st') (p : PayloadPtr) :
    missedOf p st'.trace = missedOf p st.trace := by
  obtain ⟨extra, trace, quiet⟩ := still.logs
  rw [trace]
  exact missedOf_append fun event member => isDelivery_missedBy (quiet event member)

theorem Delivery.undisturbed (delivery : Delivery box st) (still : Undisturbed st st') :
    Delivery box st' := by
  obtain ⟨extra, trace, quiet⟩ := still.logs
  have inboxes : ∀ s, inboxesOf s st'.trace = inboxesOf s st.trace := by
    intro s
    rw [trace]
    exact inboxesOf_append fun event member => isDelivery_attachedTo (quiet event member)
  have posts : postsOf st'.trace = postsOf st.trace := by
    rw [trace]
    exact postsOf_append fun event member => isDelivery_post (quiet event member)
  constructor
  · exact delivery.slots.congr inboxes still.gen still.inbox still.mailboxes
  · intro o p ts promised
    exact (delivery.owed promised).congr still.payloads
      (fun t _ untouched => untouched.congr (inboxes t.slot) posts) (still.missedOf p)
      fun _ _ _ => still.parked
  · exact delivery.owner
  · exact delivery.posts.congr posts still.payloads still.mailboxes
  · exact delivery.misses.congr still.missedOf still.parked still.payloads
  · rw [trace]
    exact delivery.history.append fun past event member => isDelivery_ok (quiet event member) past

theorem Delivery.launch (delivery : Delivery box st) (fresh : st.payloads.next ≤ p)
    (bound : p < st'.payloads.next) (still : Undisturbed st st') :
    Delivery (Function.update box .hand (some (p, []))) st' := by
  refine (delivery.undisturbed still).carry ?_
    ⟨bound, nodup_nil, nofun, nofun, fun _ => ⟨eq_nil_iff_forall_not_mem.mpr ?_, ?_⟩⟩
  · intro o ts promised
    exact (delivery.owed promised).bound.not_ge fresh
  · intro t member
    rw [still.missedOf] at member
    exact (delivery.misses.bound member).not_ge fresh
  · intro e ts member
    exact (delivery.misses.parkBound (still.parked member)).not_ge fresh

/-! ## Steps that it sees -/

section

variable (st)

theorem inboxesOf_log (unseen : event.attachedTo s = none) :
    inboxesOf s (st.log event).trace = inboxesOf s st.trace :=
  inboxesOf_append (by simpa using unseen)

theorem postsOf_log (unseen : event.post = none) : postsOf (st.log event).trace = postsOf st.trace :=
  postsOf_append (by simpa using unseen)

theorem missedOf_log (unseen : event.missedBy p = none) :
    missedOf p (st.log event).trace = missedOf p st.trace :=
  missedOf_append (by simpa using unseen)

end

def HubTrace.isParked : HubTrace → Bool
  | .parked .. => true
  | _ => false

theorem parked_of_log {q : Option PayloadPtr} (other : event.isParked = false)
    (member : .parked e q ts ∈ (st.log event).trace) : .parked e q ts ∈ st.trace :=
  Logs.mem_of (Logs.log (.refl (fun event => event.isParked = false) st) other) nofun member

variable {m : MailboxPtr}

theorem SlotHistory.attached (slots : SlotHistory st)
    (owned : (st.slots s).inbox = some m) : m ∈ inboxesOf s st.trace :=
  mem_of_mem_getLast? (slots.inbox owned)

/-- A post leaves alone what has not had this payload at this slot. -/
theorem SlotHistory.untouched_post (slots : SlotHistory st) (owned : (st.slots s).inbox = some m)
    (untouched : Untouched st.trace q s') (elsewhere : q = p → s' ≠ s) :
    Untouched (st.log (.posted p m)).trace q s' := by
  intro m' atSlot copy
  rw [inboxesOf_log st rfl] at atSlot
  have grown : postsOf (st.log (.posted p m)).trace = _ := postsOf_posted p m
  rw [grown] at copy
  rcases mem_append.mp copy with old | new
  · exact untouched m' atSlot old
  · cases mem_singleton.mp new
    exact elsewhere rfl (slots.home atSlot (slots.attached owned))

theorem Delivery.post (delivery : Delivery box st)
    (owned : (st.slots s).inbox = some m) (bound : p < st.payloads.next)
    (untouched : Untouched st.trace p s)
    (elsewhere : ∀ {o ts t}, box o = some (p, ts) → t ∈ ts → t.slot ≠ s) :
    Delivery box (st.log (.posted p m)) := by
  have attached := delivery.slots.attached owned
  have posts : postsOf (st.log (.posted p m)).trace = postsOf st.trace ++ [(p, m)] :=
    postsOf_posted p m
  refine ⟨delivery.slots.congr (fun _ => inboxesOf_log st rfl) (fun _ => rfl) id le_rfl, ?_,
    delivery.owner, ⟨?_, ?_⟩, delivery.misses.congr (fun _ => missedOf_log st rfl)
      (parked_of_log rfl) le_rfl, delivery.history.snoc trivial⟩
  · intro o q ts promised
    refine (delivery.owed promised).congr le_rfl ?_ (missedOf_log st rfl)
      fun _ _ _ => parked_of_log rfl
    intro t member before
    apply delivery.slots.untouched_post owned before
    rintro rfl
    exact elsewhere promised member
  · intro q m' member
    rw [posts] at member
    rcases mem_append.mp member with old | new
    · exact delivery.posts.bound old
    · cases mem_singleton.mp new
      exact ⟨bound, delivery.slots.bound attached⟩
  · rw [posts, nodup_append]
    refine ⟨delivery.posts.once, nodup_singleton _, ?_⟩
    intro old member new here equal
    rw [mem_singleton.mp here] at equal
    rw [equal] at member
    exact untouched m attached member

theorem SlotHistory.names (slots : SlotHistory st)
    (owned : (st.slots s).inbox = some m) : Names st.trace ⟨s, (st.slots s).gen⟩ m :=
  ⟨slots.gen s, slots.inbox owned⟩

section

variable (delivery : Delivery box st)
include delivery

theorem Delivery.miss (hand : box .hand = some (p, full)) (names : Names st.trace t m)
    (untouched : Untouched st.trace p t.slot) (new : t.slot ∉ full.map (·.slot)) :
    Delivery (Function.update box .hand (some (p, full ++ [t]))) (st.log (.missed p t m)) := by
  have mine := delivery.owed hand
  obtain ⟨all, never⟩ := mine.sending rfl
  have missed : ∀ q, missedOf q (st.log (.missed p t m)).trace =
      missedOf q st.trace ++ if p = q then [t] else [] := fun q => missedOf_missed p
  have still : ∀ {q s}, Untouched st.trace q s → Untouched (st.log (.missed p t m)).trace q s :=
    fun before => before.congr (inboxesOf_log st rfl) (postsOf_log st rfl)
  have others : ∀ {o q ts}, Function.update box .hand none o = some (q, ts) →
      box o = some (q, ts) ∧ q ≠ p := by
    intro o q ts promised
    rcases update_eq_some promised with ⟨_, none⟩ | ⟨other, old⟩
    · cases none
    · refine ⟨old, ?_⟩
      rintro rfl
      exact other (delivery.owner old hand)
  -- The promises of the others come first: the list of the fan-out is made anew.
  have rest : Delivery (Function.update box .hand none) (st.log (.missed p t m)) := by
    refine ⟨delivery.slots.congr (fun _ => inboxesOf_log st rfl) (fun _ => rfl) id le_rfl, ?_,
      fun one two => delivery.owner (others one).1 (others two).1,
      delivery.posts.congr (postsOf_log st rfl) le_rfl le_rfl,
      ⟨?_, fun member => delivery.misses.parkBound (parked_of_log rfl member), ?_⟩,
      delivery.history.snoc names⟩
    · intro o q ts promised
      obtain ⟨old, other⟩ := others promised
      refine (delivery.owed old).congr le_rfl (fun _ _ => still) ?_ fun _ _ _ => parked_of_log rfl
      rw [missed, if_neg (Ne.symm other), append_nil]
    · intro q t' member
      rw [missed] at member
      rcases mem_append.mp member with old | new
      · exact delivery.misses.bound old
      · split at new
        · next same =>
          rw [← same]
          exact mine.bound
        · cases new
    · intro e q ts member
      have old := parked_of_log rfl member
      have other : p ≠ q := by
        rintro rfl
        exact never e ts old
      rw [missed, if_neg other, append_nil]
      exact delivery.misses.parked old
  suffices owed : Owed (st.log (.missed p t m)) .hand p (full ++ [t]) by
    have carried := rest.carry (fun promised => (others promised).2 rfl) owed
    rwa [Function.update_idem] at carried
  refine ⟨mine.bound, ?_, ?_, ?_, ?_⟩
  · rw [map_append, nodup_append]
    refine ⟨mine.distinct, nodup_singleton _, ?_⟩
    grind
  · intro t' member
    rcases mem_append.mp member with before | here
    · exact still (mine.untouched before)
    · rw [mem_singleton.mp here]
      exact still untouched
  · grind
  · intro _
    rw [missed, if_pos rfl, all]
    exact ⟨rfl, fun e ts' member => never e ts' (parked_of_log rfl member)⟩

theorem Delivery.retried (names : Names st.trace t m) (missed : t ∈ missedOf p st.trace) :
    Delivery box (st.log (.retried p t m)) where
  slots := delivery.slots.congr (fun _ => inboxesOf_log st rfl) (fun _ => rfl) id le_rfl
  owed := fun promised => (delivery.owed promised).congr le_rfl
    (fun _ _ before => before.congr (inboxesOf_log st rfl) (postsOf_log st rfl))
    (missedOf_log st rfl) fun _ _ _ => parked_of_log rfl
  owner := delivery.owner
  posts := delivery.posts.congr (postsOf_log st rfl) le_rfl le_rfl
  misses := delivery.misses.congr (fun _ => missedOf_log st rfl) (parked_of_log rfl) le_rfl
  history := delivery.history.snoc ⟨names, missed⟩

theorem Delivery.parked (missed : missedOf p st.trace = ts) (bound : p < st.payloads.next)
    (settled : ∀ {o ts'}, box o = some (p, ts') → o.isEntry = true) :
    Delivery box (st.log (.parked e (some p) ts)) := by
  refine ⟨delivery.slots.congr (fun _ => inboxesOf_log st rfl) (fun _ => rfl) id le_rfl, ?_,
    delivery.owner, delivery.posts.congr (postsOf_log st rfl) le_rfl le_rfl, ⟨?_, ?_, ?_⟩,
    delivery.history.snoc trivial⟩
  · intro o q ts' promised
    refine (delivery.owed promised).congr le_rfl
      (fun _ _ before => before.congr (inboxesOf_log st rfl) (postsOf_log st rfl))
      (missedOf_log st rfl) ?_
    intro unparked e' ts'' member
    rcases mem_append.mp member with old | new
    · exact old
    · grind
  · intro q t member
    rw [missedOf_log st rfl] at member
    exact delivery.misses.bound member
  · intro e' q ts' member
    rcases mem_append.mp member with old | new
    · exact delivery.misses.parkBound old
    · cases mem_singleton.mp new
      exact bound
  · intro e' q ts' member
    rw [missedOf_log st rfl]
    rcases mem_append.mp member with old | new
    · exact delivery.misses.parked old
    · grind

theorem Delivery.attach (slot : SlotId)
    (trace : st'.trace = st.trace ++ [.attached slot st.mailboxes.next])
    (gen : (st'.slots slot).gen = (st.slots slot).gen + 1)
    (inbox : (st'.slots slot).inbox = some st.mailboxes.next)
    (others : ∀ s, s ≠ slot → st'.slots s = st.slots s)
    (mailboxes : st'.mailboxes.next = st.mailboxes.next + 1)
    (payloads : st'.payloads.next = st.payloads.next) : Delivery box st' := by
  have slots := delivery.slots
  have here : inboxesOf slot st'.trace = inboxesOf slot st.trace ++ [st.mailboxes.next] := by
    rw [trace, inboxesOf_attached, if_pos rfl]
  have there : ∀ s, s ≠ slot → inboxesOf s st'.trace = inboxesOf s st.trace := by
    grind [inboxesOf_attached]
  have unused : ∀ {s}, st.mailboxes.next ∉ inboxesOf s st.trace :=
    fun member => lt_irrefl _ (slots.bound member)
  have posts : postsOf st'.trace = postsOf st.trace := by
    rw [trace]
    exact postsOf_append (by simp [HubTrace.post])
  have grown : ∀ {s m}, m ∈ inboxesOf s st'.trace →
      m ∈ inboxesOf s st.trace ∨ (s = slot ∧ m = st.mailboxes.next) := by
    grind
  have missed : ∀ p, missedOf p st'.trace = missedOf p st.trace := by
    intro p
    rw [trace]
    exact missedOf_append (by simp [HubTrace.missedBy])
  have parkings : ∀ {e p ts}, .parked e p ts ∈ st'.trace → .parked e p ts ∈ st.trace := by
    grind
  refine ⟨⟨?_, ?_, ?_, ?_, ?_⟩, ?_, delivery.owner, ⟨?_, ?_⟩,
    delivery.misses.congr missed parkings payloads.symm.le, ?_⟩
  · intro s
    by_cases same : s = slot
    · subst same
      rw [gen, here, slots.gen, length_append, length_singleton, UInt32.ofNat_add]
      rfl
    · grind [SlotHistory.gen]
  · intro s m owned
    by_cases same : s = slot
    · grind
    · grind [SlotHistory.inbox]
  · grind [SlotHistory.home]
  · intro s
    by_cases same : s = slot
    · grind [SlotHistory.fresh]
    · rw [there s same]
      exact slots.fresh s
  · intro s m member
    rw [mailboxes]
    rcases grown member with old | ⟨_, new⟩
    · exact Nat.lt_succ_of_lt (slots.bound old)
    · rw [new]
      exact Nat.lt_succ_self _
  · intro o p ts promised
    refine (delivery.owed promised).congr payloads.symm.le ?_ (missed p) fun _ _ _ => parkings
    intro t member before m atSlot copy
    rw [posts] at copy
    rcases grown atSlot with old | ⟨_, new⟩
    · exact before m old copy
    · rw [new] at copy
      exact lt_irrefl _ (delivery.posts.bound copy).2
  · intro p m member
    rw [posts] at member
    rw [payloads, mailboxes]
    exact ⟨(delivery.posts.bound member).1, Nat.lt_succ_of_lt (delivery.posts.bound member).2⟩
  · rw [posts]
    exact delivery.posts.once
  · rw [trace]
    exact delivery.history.snoc trivial

end

end TrueAsync.Websocket

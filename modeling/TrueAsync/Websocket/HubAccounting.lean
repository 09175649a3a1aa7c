import TrueAsync.Websocket.HubFrames
import TrueAsync.Websocket.HubLifetime

/-!
# The books of the reliable sends

The hub counts what it parks and how each parked target ends. `Accounts` is the balance of these
counters against the entries that still owe something, and against the trace: every settled
target was parked, and was settled once. A drain or a teardown works with numbers that it adds to
the counters only at its end (`delta`), and with entries that it has already settled and not yet
given up (`hand`).
-/

namespace TrueAsync.Websocket

open TrueAsync.Lib Heap List RetryEntry

variable {st st' : HubState}

/-! ## The books -/

def HubStats.settledAs (stats : HubStats) : RetryOutcome → Nat
  | .delivered => stats.retryDelivered
  | .gone => stats.retryGone
  | .expired => stats.retryExpired
  | .shutdown => stats.retryShutdown

def HubTrace.isRetry : HubTrace → Bool
  | .parked .. => true
  | .settled .. => true
  | _ => false

def queuedWeight : HubTrace → Nat
  | .parked _ _ targets => targets.length
  | _ => 0

/-- Times `t` was parked in `e`. -/
def parkedWeight (e : EntryPtr) (t : RetryTarget) : HubTrace → Nat
  | .parked e' _ targets => if e' = e then targets.count t else 0
  | _ => 0

/-- Times the target `t` of `e` was settled, with any outcome. -/
def settledWeight (e : EntryPtr) (t : RetryTarget) : HubTrace → Nat
  | .settled e' t' _ => if e' = e ∧ t' = t then 1 else 0
  | _ => 0

/-- Targets settled as `o`. -/
def outcomeWeight (o : RetryOutcome) : HubTrace → Nat
  | .settled _ _ o' => if o' = o then 1 else 0
  | _ => 0

/-- The sum over all outcomes. -/
def RetryOutcome.sum (count : RetryOutcome → Nat) : Nat :=
  count .delivered + count .gone + count .expired + count .shutdown

def RetryEntry.owed (x : RetryEntry) : List RetryTarget := if x.payload.isSome then x.pending else []

def owedOf (entries : Heap RetryEntry) (e : EntryPtr) : List RetryTarget :=
  ((entries.cell e).map owed).getD []

def owedTotal (entries : Heap RetryEntry) : Nat := entries.total fun x => x.owed.length

/-- A send that is to be settled lists no target twice. -/
def HubCall.Distinct : HubCall → Prop
  | .sending _ _ _ _ full _ => full.Nodup
  | _ => True

/-- The books balance. -/
structure Accounts (hand : List EntryPtr) (delta : RetryOutcome → Nat) (st : HubState) : Prop where
  queued : tally queuedWeight st.trace = st.stats.retryQueued
  outcomes : ∀ o, tally (outcomeWeight o) st.trace = st.stats.settledAs o + delta o
  balance : st.stats.retryQueued + (hand.map fun e => (owedOf st.entries e).length).sum =
    RetryOutcome.sum (fun o => st.stats.settledAs o + delta o) + owedTotal st.entries
  key : ∀ e t, tally (settledWeight e t) st.trace +
    (if e ∈ hand then 0 else (owedOf st.entries e).count t) = tally (parkedWeight e t) st.trace
  once : ∀ e t, tally (parkedWeight e t) st.trace ≤ if e < st.entries.next then 1 else 0
  frames : ∀ {c x}, st.calls.cell c = some x → x.Distinct

/-- The books between two events. -/
abbrev Balanced := Accounts [] fun _ => 0

variable {hand : List EntryPtr} {delta : RetryOutcome → Nat}

variable {e : EntryPtr} {entries : Heap RetryEntry} {x : RetryEntry}

theorem owedOf_of_some (hx : entries.cell e = some x) : owedOf entries e = x.owed := by
  unfold owedOf
  rw [hx]
  rfl

theorem owedOf_of_none (hx : entries.cell e = none) : owedOf entries e = [] := by
  unfold owedOf
  rw [hx]
  rfl

theorem owedOf_congr (same : entries'.cell e = entries.cell e) :
    owedOf entries' e = owedOf entries e := by
  unfold owedOf
  rw [same]

variable {p : PayloadPtr}

theorem RetryEntry.owed_of_payload (owns : x.payload = some p) : x.owed = x.pending := by
  unfold owed
  rw [owns]
  rfl

variable {change : RetryEntry → RetryEntry → Prop}

theorem balance_of_change (changed : CellChange h h' e change) :
    owedTotal h' + (owedOf h e).length = owedTotal h + (owedOf h' e).length := by
  cases hx : h.cell e with
  | none =>
    have gone : h'.cell e = none := by
      cases hy : h'.cell e with
      | none => rfl
      | some y =>
        obtain ⟨x, hx', _⟩ := changed.here y hy
        rw [hx] at hx'
        cases hx'
    have same : h' = h := by
      apply Heap.ext changed.next
      grind [CellChange.others]
    rw [same]
  | some x =>
    have moved := Heap.total_change changed.next hx changed.others fun x => x.owed.length
    rw [owedOf_of_some hx]
    unfold owedTotal owedOf
    rw [moved]
    cases h'.cell e <;> rfl

/-! ## Events that park and settle nothing -/

/-- Nothing was parked or settled between `before` and `after`. -/
structure Quiet (before after : HubState) : Prop where
  owed : ∀ e, owedOf after.entries e = owedOf before.entries e
  total : owedTotal after.entries = owedTotal before.entries
  next : before.entries.next ≤ after.entries.next
  queued : after.stats.retryQueued = before.stats.retryQueued
  settled : ∀ o, after.stats.settledAs o = before.stats.settledAs o
  logs : Logs (fun event => event.isRetry = false) before after
  frames : ∀ {c x}, after.calls.cell c = some x → x.Distinct ∨ before.calls.cell c = some x

/-- Only events that park or settle have the weight. -/
def RetryWeight (weight : HubTrace → Nat) : Prop :=
  ∀ event : HubTrace, event.isRetry = false → weight event = 0

theorem retryWeight_queued : RetryWeight queuedWeight := by
  intro event quiet
  cases event <;> first | rfl | cases quiet

theorem retryWeight_parked (t : RetryTarget) : RetryWeight (parkedWeight e t) := by
  intro event quiet
  cases event <;> first | rfl | cases quiet

theorem retryWeight_settled (t : RetryTarget) : RetryWeight (settledWeight e t) := by
  intro event quiet
  cases event <;> first | rfl | cases quiet

theorem retryWeight_outcome (o : RetryOutcome) : RetryWeight (outcomeWeight o) := by
  intro event quiet
  cases event <;> first | rfl | cases quiet

theorem Accounts.quiet (accounts : Accounts hand delta st) (quiet : Quiet st st') :
    Accounts hand delta st' where
  queued := by
    rw [quiet.logs.tally retryWeight_queued, quiet.queued]
    exact accounts.queued
  outcomes := by
    intro o
    rw [quiet.logs.tally (retryWeight_outcome o), quiet.settled]
    exact accounts.outcomes o
  balance := by
    rw [quiet.queued, quiet.total]
    simp only [quiet.owed, quiet.settled]
    exact accounts.balance
  key := by
    intro e t
    rw [quiet.logs.tally (retryWeight_settled t), quiet.logs.tally (retryWeight_parked t),
      quiet.owed]
    exact accounts.key e t
  once := by
    intro e t
    rw [quiet.logs.tally (retryWeight_parked t)]
    have next := quiet.next
    have once := accounts.once e t
    grind
  frames := by
    intro c x hc
    rcases quiet.frames hc with distinct | old
    · exact distinct
    · exact accounts.frames old

/-! ## Settling -/

/-- Targets with the outcomes that they get. -/
abbrev Fates := List (RetryTarget × RetryOutcome)

def settledEvents (e : EntryPtr) (fates : Fates) : List HubTrace :=
  fates.map fun fate => .settled e fate.1 fate.2

theorem tally_settled (d : EntryPtr) (t : RetryTarget) (fates : Fates) :
    tally (settledWeight d t) (settledEvents e fates) =
      if d = e then (fates.map (·.1)).count t else 0 := by
  unfold tally settledEvents
  induction fates with
  | nil => simp
  | cons fate fates ih => grind [settledWeight]

theorem tally_outcome (o : RetryOutcome) (fates : Fates) :
    tally (outcomeWeight o) (settledEvents e fates) = (fates.map (·.2)).count o := by
  unfold tally settledEvents
  induction fates with
  | nil => rfl
  | cons fate fates ih => grind [outcomeWeight]

theorem tally_settledEvents_zero {fates : Fates} (zero : ∀ t o, weight (.settled e t o) = 0) :
    tally weight (settledEvents e fates) = 0 := by
  simp [tally, settledEvents, zero, Function.comp_def]

theorem RetryOutcome.sum_add (f g : RetryOutcome → Nat) :
    sum (fun o => f o + g o) = sum f + sum g := by
  dsimp only [sum]
  omega

theorem RetryOutcome.sum_count (outcomes : List RetryOutcome) :
    sum (outcomes.count ·) = outcomes.length := by
  unfold sum
  induction outcomes with
  | nil => rfl
  | cons o outcomes ih =>
    rw [length_cons, ← ih]
    cases o <;> simp <;> omega

/-- Targets of `e` are settled, and what it owes is less then: it is what it keeps, or nothing if
the entry is in the hand from now on. -/
theorem Accounts.settles (accounts : Accounts hand delta st) (fates : Fates) (unseen : e ∉ hand)
    (trace : ∀ {weight}, RetryWeight weight →
      tally weight st'.trace = tally weight st.trace + tally weight (settledEvents e fates))
    (stats : st'.stats = st.stats) (calls : st'.calls = st.calls)
    (changed : CellChange st.entries st'.entries e change)
    (hands : hand' = hand ∧ keep = owedOf st'.entries e ∨ hand' = e :: hand ∧ keep = [])
    (kept : ∀ t, (fates.map (·.1)).count t + keep.count t = (owedOf st.entries e).count t)
    (grown : ∀ o, delta' o = delta o + (fates.map (·.2)).count o) :
    Accounts hand' delta' st' := by
  have others : ∀ d, d ≠ e → owedOf st'.entries d = owedOf st.entries d :=
    fun d other => owedOf_congr (changed.others d other)
  have parked : ∀ d t, tally (parkedWeight d t) st'.trace = tally (parkedWeight d t) st.trace := by
    intro d t
    rw [trace (retryWeight_parked t), tally_settledEvents_zero fun _ _ => rfl, add_zero]
  refine ⟨?_, ?_, ?_, ?_, ?_, ?_⟩
  · rw [trace retryWeight_queued, tally_settledEvents_zero fun _ _ => rfl, stats]
    exact accounts.queued
  · intro o
    rw [trace (retryWeight_outcome o), tally_outcome, grown, accounts.outcomes o, stats, add_assoc]
  · have before := accounts.balance
    have moved := balance_of_change changed
    have all : fates.length + keep.length = (owedOf st.entries e).length := by
      have split : (fates.map (·.1) ++ keep).Perm (owedOf st.entries e) :=
        perm_iff_count.mpr fun t => by rw [count_append, kept]
      simpa using split.length_eq
    have rest : (hand.map fun d => (owedOf st'.entries d).length) =
        hand.map fun d => (owedOf st.entries d).length := by
      grind [map_congr_left]
    simp only [stats, grown, ← add_assoc]
    rw [RetryOutcome.sum_add, RetryOutcome.sum_count, length_map]
    rcases hands with ⟨rfl, rfl⟩ | ⟨rfl, rfl⟩
    · rw [rest]
      omega
    · rw [map_cons, sum_cons, rest]
      simp only [length_nil] at all
      omega
  · intro d t
    have before := accounts.key d t
    rw [parked, trace (retryWeight_settled t), tally_settled]
    have here := kept t
    grind
  · intro d t
    rw [parked, changed.next]
    exact accounts.once d t
  · rw [calls]
    exact accounts.frames

/-- The remaining targets of an entry are all settled as `o`; the entry is in the hand then. -/
theorem Accounts.settle (accounts : Accounts hand delta st) (unseen : e ∉ hand) (o : RetryOutcome)
    (delta' : RetryOutcome → Nat)
    (grown : ∀ o', delta' o' = delta o' + if o = o' then (owedOf st.entries e).length else 0) :
    Accounts (e :: hand) delta' { st with
      trace := st.trace ++ (owedOf st.entries e).map fun t => .settled e t o } := by
  have unchanged : CellChange st.entries st.entries e fun _ _ => True := .refl _ _ fun _ => trivial
  refine accounts.settles ((owedOf st.entries e).map (·, o)) unseen ?_ rfl rfl unchanged
    (.inr ⟨rfl, rfl⟩) ?_ ?_
  · intro weight _
    rw [tally_append]
    simp [settledEvents, Function.comp_def]
  · simp [Function.comp_def]
  · intro o'
    rw [grown]
    simp [Function.comp_def, count_replicate]

theorem Accounts.giveUp (accounts : Accounts (e :: hand) delta st) (once : e ∉ hand)
    (changed : CellChange st.entries st'.entries e change)
    (released : ∀ x y, change x y → y.payload = none) (stats : st'.stats = st.stats)
    (calls : st'.calls = st.calls) (logs : Logs (fun event => event.isRetry = false) st st') :
    Accounts hand delta st' := by
  have nothing : owedOf st'.entries e = [] := by
    cases hy : st'.entries.cell e with
    | none => exact owedOf_of_none hy
    | some y =>
      obtain ⟨x, _, became⟩ := changed.here y hy
      rw [owedOf_of_some hy]
      grind [owed]
  have others : ∀ d, d ≠ e → owedOf st'.entries d = owedOf st.entries d :=
    fun d other => owedOf_congr (changed.others d other)
  refine ⟨?_, ?_, ?_, ?_, ?_, ?_⟩
  · rw [logs.tally retryWeight_queued, stats]
    exact accounts.queued
  · intro o
    rw [logs.tally (retryWeight_outcome o), stats]
    exact accounts.outcomes o
  · have before := accounts.balance
    have moved := balance_of_change changed
    have rest : (hand.map fun d => (owedOf st'.entries d).length) =
        hand.map fun d => (owedOf st.entries d).length := by
      grind [map_congr_left]
    rw [nothing, length_nil] at moved
    rw [map_cons, sum_cons] at before
    rw [stats, rest]
    omega
  · intro d t
    have before := accounts.key d t
    rw [logs.tally (retryWeight_settled t), logs.tally (retryWeight_parked t)]
    by_cases here : d = e
    · grind
    · grind
  · intro d t
    rw [logs.tally (retryWeight_parked t), changed.next]
    exact accounts.once d t
  · rw [calls]
    exact accounts.frames

theorem retryEntryFinish_accounts (accounts : Accounts (e :: hand) delta st) (once : e ∉ hand) :
    Ensures (retryEntryFinish st e) (Accounts hand delta) := by
  refine .mono (retryEntryFinish_frame st e) ?_
  rintro st' ⟨frame, _, logs, changed⟩
  refine accounts.giveUp once changed ?_ ?_ ?_ ?_
  · intro x y became
    rw [became.1]
  · rw [frame]
  · rw [frame]
  · refine logs.weaken ?_
    rintro _ ⟨c, x, rfl, _⟩
    rfl

/-! ## The drainer -/

def RetryPass.unreported (pass : RetryPass) : RetryOutcome → Nat
  | .delivered => pass.delivered
  | .gone => pass.gone
  | _ => 0

def RetryDrain.unreported (drain : RetryDrain) : RetryOutcome → Nat
  | .delivered => drain.delivered
  | .gone => drain.gone
  | .expired => drain.expired
  | .shutdown => 0

/-- The inner loop of the drainer has visited the targets `done` of `e`: some have met their fates,
the others are kept. -/
structure PassEffect (e : EntryPtr) (done : List RetryTarget) (fates : Fates)
    (a b : HubState × RetryPass) : Prop where
  entries : ∃ g, (∀ x, (g x).payload = x.payload ∧ (g x).waiter = x.waiter) ∧
    b.1.entries = a.1.entries.modify e g
  stats : b.1.stats = a.1.stats
  calls : b.1.calls = a.1.calls
  queries : b.1.queries = a.1.queries
  logs : Logs (fun event => event.isAsk = false) a.1 b.1
  trace : ∀ {weight}, RetryWeight weight →
    tally weight b.1.trace = tally weight a.1.trace + tally weight (settledEvents e fates)
  kept : ∀ t, (fates.map (·.1)).count t + b.2.keep.count t = a.2.keep.count t + done.count t
  counted : ∀ o, b.2.unreported o = a.2.unreported o + (fates.map (·.2)).count o

theorem PassEffect.refl (e : EntryPtr) (a : HubState × RetryPass) : PassEffect e [] [] a a where
  entries := ⟨id, fun _ => ⟨rfl, rfl⟩, (modify_eq_self fun _ _ => rfl).symm⟩
  stats := rfl
  calls := rfl
  queries := rfl
  logs := .refl _ _
  trace := fun _ => rfl
  kept := fun _ => Nat.zero_add _
  counted := fun _ => rfl

theorem PassEffect.trans {a b c : HubState × RetryPass} (first : PassEffect e xs fates a b)
    (second : PassEffect e ys fates' b c) : PassEffect e (xs ++ ys) (fates ++ fates') a c where
  entries := by
    grind [PassEffect.entries, modify_modify]
  stats := second.stats.trans first.stats
  calls := second.calls.trans first.calls
  queries := second.queries.trans first.queries
  logs := first.logs.trans second.logs
  trace := by
    intro weight weighs
    rw [second.trace weighs, first.trace weighs, add_assoc, ← tally_append]
    simp only [settledEvents, map_append]
  kept := by
    intro t
    have one := first.kept t
    have two := second.kept t
    rw [map_append, count_append, count_append]
    omega
  counted := by
    intro o
    rw [second.counted o, first.counted o, map_append, count_append, add_assoc]

theorem PassEffect.one (o : RetryOutcome) (g : RetryEntry → RetryEntry)
    (kept : ∀ x, (g x).payload = x.payload ∧ (g x).waiter = x.waiter)
    (entries : b.1.entries = a.1.entries.modify e g) (stats : b.1.stats = a.1.stats)
    (calls : b.1.calls = a.1.calls) (queries : b.1.queries = a.1.queries) (before : List HubTrace)
    (trace : b.1.trace = a.1.trace ++ (before ++ [.settled e t o]))
    (quiet : ∀ event ∈ before, event.isRetry = false ∧ event.isAsk = false)
    (keep : b.2.keep = a.2.keep)
    (counted : ∀ o', b.2.unreported o' = a.2.unreported o' + [o].count o') :
    PassEffect e [t] [(t, o)] a b := by
  refine ⟨⟨g, kept, entries⟩, stats, calls, queries, ⟨_, trace, ?_⟩, fun weighs => ?_, fun t' => ?_,
    counted⟩
  · intro event member
    rcases mem_append.mp member with earlier | last
    · exact (quiet event earlier).2
    · rw [mem_singleton.mp last]
      rfl
  · have silent := tally_eq_zero fun event member => weighs event (quiet event member).1
    rw [trace, tally_append, tally_append, silent, Nat.zero_add]
    rfl
  · rw [keep]
    exact Nat.add_comm _ _

variable (room : EntryPtr → SlotId → Bool)

theorem retryTarget_effect (e : EntryPtr) (acc : HubState × RetryPass) (t : RetryTarget) :
    Ensures (retryTarget room e acc t) fun r => ∃ fates, PassEffect e [t] fates acc r := by
  obtain ⟨st, pass⟩ := acc
  unfold retryTarget
  dsimp only
  refine .bind (Ensures.read _ _ _) ?_
  intro x _
  have goneStep : PassEffect e [t] [(t, .gone)] (st, pass) (HubState.log
      { st with entries := st.entries.modify e fun x => { x with gone := x.gone + 1 } }
      (.settled e t .gone), { pass with gone := pass.gone + 1 }) := by
    refine PassEffect.one .gone (fun x => { x with gone := x.gone + 1 }) (fun _ => ⟨rfl, rfl⟩)
      rfl rfl rfl rfl [] rfl nofun rfl ?_
    intro o'
    cases o' <;> rfl
  split
  · exact .pure ⟨_, goneStep⟩
  · next inbox _ =>
    split
    · exact .pure ⟨_, goneStep⟩
    · split
      · nofun
      · next p _ =>
        refine .bind (wsPostPublish_frame _ st t.slot p x.topic x.exceptId) ?_
        rintro ⟨st1, posted⟩ ⟨mail, _⟩
        split
        · apply Ensures.pure
          rw [mail]
          refine ⟨_, PassEffect.one .delivered (fun x => { x with delivered := x.delivered + 1 })
            (fun _ => ⟨rfl, rfl⟩) rfl rfl rfl rfl [.posted p inbox, .retried p t inbox] ?_ ?_ rfl ?_⟩
          · show ((st.trace ++ [_]) ++ [_]) ++ [_] = _
            simp
          · intro event member
            rcases mem_cons.mp member with rfl | member
            · exact ⟨rfl, rfl⟩
            · rw [mem_singleton.mp member]
              exact ⟨rfl, rfl⟩
          · intro o'
            cases o' <;> rfl
        · apply Ensures.pure
          rw [mail]
          refine ⟨[], { PassEffect.refl e (st, pass) with kept := fun t' => ?_ }⟩
          show 0 + (pass.keep ++ [t]).count t' = _
          rw [count_append, Nat.zero_add]

theorem retryPass_effect (e : EntryPtr) (targets : List RetryTarget) : ∀ acc : HubState × RetryPass,
    Ensures (targets.foldlM (retryTarget room e) acc) fun r =>
      ∃ fates, PassEffect e targets fates acc r := by
  induction targets with
  | nil =>
    intro acc
    exact .pure ⟨[], .refl e acc⟩
  | cons t targets ih =>
    intro acc
    refine .bind (retryTarget_effect room e acc t) ?_
    rintro acc1 ⟨_, first⟩
    refine .mono (ih acc1) ?_
    rintro acc2 ⟨_, second⟩
    exact ⟨_, first.trans second⟩

theorem PassEffect.narrow {pass : RetryPass} (hx : st.entries.cell e = some x)
    (owns : x.payload = some p)
    (effect : PassEffect e done fates (st, ⟨[], 0, 0⟩) (st1, pass)) :
    CellChange st.entries (st1.entries.modify e ({ · with pending := pass.keep })) e
        (fun _ _ => True) ∧
      owedOf (st1.entries.modify e ({ · with pending := pass.keep })) e = pass.keep := by
  obtain ⟨g, kept, same⟩ := effect.entries
  rw [same, modify_modify]
  refine ⟨.modify _ _ fun _ => trivial, ?_⟩
  rw [owedOf_of_some (x := { g x with pending := pass.keep })
    (by rw [modify_cell_self, hx]; rfl)]
  exact owed_of_payload ((kept x).1.trans owns)

variable {l : LocalPtr}

theorem retryEntryPass_accounts (ok : DrainOk l (e :: todo) acc)
    (accounts : Accounts acc.2.resolved acc.2.unreported acc.1) (room : EntryPtr → SlotId → Bool)
    (now : Nat) : Ensures (retryEntryPass room now l acc e) fun r =>
      Accounts r.2.resolved r.2.unreported r.1 := by
  obtain ⟨unseen, x, p, hx, owns⟩ := ok.entry
  obtain ⟨st, drain⟩ := acc
  dsimp only at unseen hx accounts
  refine .bind (Ensures.read _ _ _) ?_
  intro x' hx'
  obtain rfl : x = x' := Option.some.inj (hx.symm.trans hx')
  refine .bind (retryPass_effect room e x.pending _) ?_
  rintro ⟨st1, pass⟩ ⟨fates, effect⟩
  dsimp only
  obtain ⟨changed, owes⟩ := effect.narrow hx owns
  have owed : owedOf st.entries e = x.pending := by
    rw [owedOf_of_some hx, owed_of_payload owns]
  have narrowed : Accounts drain.resolved (RetryDrain.unreported { drain with
        delivered := drain.delivered + pass.delivered, gone := drain.gone + pass.gone })
      { st1 with entries := st1.entries.modify e ({ · with pending := pass.keep }) } := by
    refine accounts.settles fates unseen effect.trace effect.stats effect.calls changed
      (.inl ⟨rfl, owes.symm⟩) (fun t => ?_) fun o => ?_
    · rw [owed, effect.kept t]
      exact Nat.zero_add _
    · have counted := effect.counted o
      cases o <;> dsimp only [RetryDrain.unreported, RetryPass.unreported] at counted ⊢ <;> omega
  split
  · apply Ensures.pure
    have settled := narrowed.settle unseen .expired (RetryDrain.unreported { drain with
        resolved := e :: drain.resolved
        delivered := drain.delivered + pass.delivered
        gone := drain.gone + pass.gone
        expired := drain.expired + pass.keep.length }) (by
      intro o
      rw [owes]
      cases o <;> rfl)
    rw [owes] at settled
    exact { settled with }
  · exact .pure narrowed

theorem retryEntryFinish_all_accounts (es : List EntryPtr) (st : HubState) (distinct : es.Nodup)
    (accounts : Accounts es delta st) :
    Ensures (es.foldlM retryEntryFinish st) (Accounts [] delta) := by
  refine .mono (.foldlM_rest (I := fun es st => es.Nodup ∧ Accounts es delta st) ?_
    ⟨distinct, accounts⟩) fun _ both => both.2
  rintro st e es ⟨distinct, accounts⟩
  obtain ⟨once, rest⟩ := nodup_cons.mp distinct
  exact .mono (retryEntryFinish_accounts accounts once) fun _ kept => ⟨rest, kept⟩

theorem Accounts.report (accounts : Accounts hand delta st)
    (queued : stats.retryQueued = st.stats.retryQueued)
    (settled : ∀ o, stats.settledAs o = st.stats.settledAs o + delta o) :
    Accounts hand (fun _ => 0) { st with stats := stats } :=
  { accounts with
    queued := by
      rw [queued]
      exact accounts.queued
    outcomes := by
      grind [Accounts.outcomes]
    balance := by
      simp only [queued, settled, add_zero]
      exact accounts.balance }

theorem Accounts.locals (accounts : Accounts hand delta st) (locals : Heap WsLocal) :
    Accounts hand delta { st with locals := locals } :=
  { accounts with }

theorem topicHubRetryDrain_accounts (inv : HubOk st) (hl : st.locals.cell l = some loc)
    (pc : loc.pc = .idle) (accounts : Balanced st) (room : EntryPtr → SlotId → Bool)
    (now : Nat) :
    Ensures (topicHubRetryDrain room now st l loc) Balanced := by
  have nothing : (fun _ => 0) = (⟨[], 0, 0, 0⟩ : RetryDrain).unreported := by
    funext o
    cases o <;> rfl
  rw [Balanced, nothing] at accounts
  refine .bind (retryDrain_keeps (P := fun r => Accounts r.2.resolved r.2.unreported r.1)
    (retryEntryPass_accounts · · room now) (retryDrain_start inv hl pc) accounts) ?_
  rintro ⟨st1, drain⟩ ⟨⟨resolved, _⟩, accounts1⟩
  have once : drain.resolved.Nodup := by
    rw [nodup_iff_count_le_one]
    intro e
    have bound : _ + drain.resolved.count e ≤ 1 := resolved.queued_once e
    omega
  refine .bind (retryEntryFinish_all_accounts drain.resolved st1 once accounts1) ?_
  intro st2 accounts2
  apply Ensures.pure
  refine (accounts2.report ?_ ?_).locals _
  · rfl
  · intro o
    cases o <;> rfl

/-! ## The teardown -/

def teardownDelta (lost : Nat) : RetryOutcome → Nat
  | .shutdown => lost
  | _ => 0

theorem retryTeardownEntry_accounts (inv : HubInv { entries := e :: es } st)
    (accounts : Accounts [] (teardownDelta lost) st) :
    Ensures (retryTeardownEntry (st, lost) e) fun r =>
      Accounts [] (teardownDelta r.2) r.1 := by
  obtain ⟨x, p, hx, owns⟩ := inv.hand_entry mem_cons_self
  refine .bind (Ensures.read _ _ _) ?_
  intro x' hx'
  obtain rfl : x = x' := Option.some.inj (hx.symm.trans hx')
  have marked : Quiet st { st with entries := st.entries.modify e ({ · with shutdown := true }) } :=
    { owed := by
        intro d
        by_cases here : d = e
        · subst here
          rw [owedOf_of_some hx, owedOf_of_some (x := { x with shutdown := true })
            (by rw [modify_cell_self, hx]; rfl)]
          rfl
        · exact owedOf_congr (modify_cell_ne _ _ here)
      total := total_modify_same e fun _ => rfl
      next := le_rfl
      queued := rfl
      settled := fun _ => rfl
      logs := Logs.of_eq rfl
      frames := .inr }
  have owed : owedOf (st.entries.modify e ({ · with shutdown := true })) e = x.pending := by
    rw [marked.owed e, owedOf_of_some hx, owed_of_payload owns]
  have settled := (accounts.quiet marked).settle (e := e) not_mem_nil .shutdown
    (teardownDelta (lost + x.pending.length)) (by
      intro o
      rw [owed]
      cases o <;> rfl)
  rw [owed] at settled
  refine .bind (retryEntryFinish_accounts settled not_mem_nil) ?_
  grind [Ensures.pure]

theorem topicHubRetryTeardown_accounts (inv : HubOk st) (hl : st.locals.cell l = some loc)
    (pc : loc.pc = .retired) (accounts : Balanced st) :
    Ensures (topicHubRetryTeardown st l loc) Balanced := by
  have nothing : (fun _ => 0) = teardownDelta 0 := by
    funext o
    cases o <;> rfl
  rw [Balanced, nothing] at accounts
  have taken := HubInv.takeQueue inv hl pc
  refine .bind (.foldlM_rest (I := fun es acc =>
      HubInv { entries := es } acc.1 ∧ Accounts [] (teardownDelta acc.2) acc.1)
    (fun {_ _ _} ⟨inv, accounts⟩ => (retryTeardownEntry_spec inv _).ensures.and
      (retryTeardownEntry_accounts inv accounts)) ⟨by exact taken, accounts.locals _⟩) ?_
  rintro ⟨st1, lost⟩ ⟨_, accounts1⟩
  apply Ensures.pure
  apply accounts1.report
  · rfl
  · intro o
    cases o <;> rfl

/-! ## Parking -/

variable {c : CallId}

theorem isRetry_of_isResult (event : HubTrace) (result : event.isResult = true) :
    event.isRetry = false := by
  cases event <;> first | rfl | cases result

theorem Accounts.park (accounts : Accounts [] delta st)
    (parked : SendParked st c (some p) full x st')
    (distinct : full.Nodup) : Accounts [] delta st' := by
  obtain ⟨extra, trace, results⟩ := parked.logs
  have grown : ∀ {weight}, RetryWeight weight → tally weight st'.trace = tally weight st.trace +
      weight (.parked st.entries.next (some p) full) := by
    intro weight weighs
    have silent := tally_eq_zero fun event member =>
      weighs event (isRetry_of_isResult event (results event member))
    rw [trace, tally_append, ← singleton_append, tally_append, tally_singleton, silent]
    rfl
  have entries : st'.entries = st.entries.alloc x := by rw [parked.frame]
  have queued : st'.stats.retryQueued = st.stats.retryQueued + full.length := by rw [parked.frame]
  have settledAs : ∀ o, st'.stats.settledAs o = st.stats.settledAs o := by
    intro o
    rw [parked.frame]
    cases o <;> rfl
  have owes : x.owed = full := by rw [owed_of_payload parked.owns, parked.pending]
  have new : owedOf st'.entries st.entries.next = full := by
    rw [entries, owedOf_of_some (alloc_cell_self _ _), owes]
  have old : ∀ e, e ≠ st.entries.next → owedOf st'.entries e = owedOf st.entries e := by
    intro e other
    rw [entries]
    exact owedOf_congr (alloc_cell_ne _ _ other)
  have unused : ∀ t, tally (parkedWeight st.entries.next t) st.trace = 0 := by
    intro t
    have once := accounts.once st.entries.next t
    rw [if_neg (Nat.lt_irrefl _)] at once
    exact Nat.le_zero.mp once
  refine ⟨?_, ?_, ?_, ?_, ?_, ?_⟩
  · rw [grown retryWeight_queued, queued, accounts.queued]
    rfl
  · intro o
    rw [grown (retryWeight_outcome o), settledAs, accounts.outcomes o]
    rfl
  · have before := accounts.balance
    have total : owedTotal st'.entries = owedTotal st.entries + full.length := by
      rw [entries]
      unfold owedTotal
      rw [total_alloc, owes]
    simp only [settledAs]
    rw [queued, total]
    grind
  · intro e t
    have before := accounts.key e t
    rw [grown (retryWeight_settled t), grown (retryWeight_parked t)]
    simp only [settledWeight, parkedWeight, not_mem_nil, if_false] at before ⊢
    by_cases here : e = st.entries.next
    · grind
    · rw [old e here, if_neg (Ne.symm here)]
      omega
  · intro e t
    rw [grown (retryWeight_parked t)]
    simp only [parkedWeight]
    have once := accounts.once e t
    rw [entries, alloc_next]
    grind
  · intro d y hd
    by_cases here : d = c
    · grind [SendParked.here, HubCall.Distinct]
    · rw [parked.others d here] at hd
      exact accounts.frames hd

theorem SendRefused.quiet (refused : SendRefused st c st') : Quiet st st' where
  owed := fun e => owedOf_congr (refused.entries e)
  total := refused.total _
  next := refused.next
  queued := by rw [refused.frame]
  settled := by
    intro o
    rw [refused.frame]
    cases o <;> rfl
  logs := refused.logs.weaken isRetry_of_isResult
  frames := by
    intro d x hd
    have calls : st'.calls = st.calls.free c := by rw [refused.frame]
    rw [calls] at hd
    exact .inr (free_cell_eq_some.mp hd).2

/-! ## Runs -/

theorem Quiet.of_entries (entries : st'.entries = st.entries)
    (stats : st'.stats = { st.stats with
      posted := st'.stats.posted, skipped := st'.stats.skipped, dropped := st'.stats.dropped })
    (logs : Logs (fun event => event.isRetry = false) st st')
    (frames : ∀ {c x}, st'.calls.cell c = some x → x.Distinct ∨ st.calls.cell c = some x) :
    Quiet st st' where
  owed := fun e => by rw [entries]
  total := by rw [entries]
  next := by rw [entries]
  queued := by rw [stats]
  settled := by
    intro o
    rw [stats]
    cases o <;> rfl
  logs := logs
  frames := frames

theorem topicHubSendResume_quiet (inv : HubOk st) (hc : st.calls.cell c = some (.parked e posted)) :
    Ensures (topicHubSendResume st c e posted) (Quiet st) := by
  refine .mono ((topicHubSendResume_spec inv hc).ensures.and
    (topicHubSendResume_frame st c e posted)) ?_
  rintro st' ⟨after, frame, logs, changed⟩
  have locals : st'.locals = st.locals := by rw [frame]
  have owed : ∀ d, owedOf st'.entries d = owedOf st.entries d := by
    intro d
    by_cases here : d = e
    · subst here
      cases hy : st'.entries.cell d with
      | some y =>
        obtain ⟨x, hx, became⟩ := changed.here y hy
        rw [owedOf_of_some hy, owedOf_of_some hx, became]
        rfl
      | none =>
        -- the entry was freed, so it was in no queue
        have left : st'.locals.total (·.retryQueue.count d) + 0 = _ := after.queue d
        have before : st.locals.total (·.retryQueue.count d) + 0 = _ := inv.queue d
        rw [ownsPayload_of_none hy, locals] at left
        rw [owedOf_of_none hy]
        cases hx : st.entries.cell d with
        | none => exact (owedOf_of_none hx).symm
        | some x =>
          rw [ownsPayload_of_some hx] at before
          have given : x.payload = none := by
            cases hp : x.payload with
            | none => rfl
            | some p =>
              rw [hp, left] at before
              cases before
          rw [owedOf_of_some hx]
          unfold owed
          rw [given]
          rfl
    · exact owedOf_congr (changed.others d here)
  have total := balance_of_change changed
  rw [owed e] at total
  refine ⟨owed, by omega, by rw [changed.next], by rw [frame], ?_,
    logs.weaken isRetry_of_isResult, ?_⟩
  · intro o
    rw [frame]
  · grind [free]

theorem frames_alloc {calls : Heap HubCall} {x y : HubCall} (distinct : x.Distinct)
    (hc : (calls.alloc x).cell c = some y) : y.Distinct ∨ calls.cell c = some y := by
  rcases alloc_cell_eq_some.mp hc with ⟨_, rfl⟩ | old
  · exact .inl distinct
  · exact .inr old

theorem isRetry_of_isPost (event : HubTrace) (post : event.isPost = true) :
    event.isRetry = false := by
  cases event <;> first | rfl | cases post

theorem isRetry_of_isAsk (event : HubTrace) (aside : event.isAsk = true) :
    event.isRetry = false := by
  cases event <;> first | rfl | cases aside

theorem Aside.quiet (aside : Aside st st') : Quiet st st' := by
  refine .of_entries aside.entries ?_ (aside.logs.weaken isRetry_of_isAsk) ?_
  · rw [aside.stats]
  · intro c x hc
    refine (aside.calls hc).imp_left fun other => ?_
    cases x <;> trivial

theorem topicHubAttach_quiet (st : HubState) (created : Bool) :
    Quiet st (topicHubAttach st created) := by
  unfold topicHubAttach
  split
  · exact Aside.quiet (.refl st)
  · dsimp only
    split
    · exact .of_entries rfl rfl (.refl _ _) .inr
    · exact .of_entries rfl rfl (.log (.of_eq rfl) rfl) .inr

theorem Quiet.fanout {st1 : HubState} {call : HubCall} (post : PostOnly st st1)
    (logs : Logs (·.isPost) st st1) (distinct : call.Distinct) (posted skipped dropped : Nat)
    (locals : Heap WsLocal) :
    Quiet st { st1 with
      stats := { st1.stats with posted, skipped, dropped }
      calls := st1.calls.alloc call
      locals } := by
  have calls : st1.calls = st.calls := by rw [post]
  refine .of_entries ?_ ?_ (logs.weaken isRetry_of_isPost) ?_
  · rw [post]
  · rw [post]
  · rw [calls]
    exact frames_alloc distinct

variable (zendHash : Bytes → UInt32)

theorem topicHubPublish_quiet (room : SlotId → Bool) (st : HubState)
    (ownSlot : Option SlotId) (message : HubMessage) :
    Ensures (topicHubPublish zendHash room st ownSlot message) (Quiet st) := by
  refine .bind (topicHubFanoutLocked_frame zendHash room st ownSlot message false) ?_
  rintro ⟨st1, acc⟩ ⟨post, logs, _⟩
  exact .pure (.fanout post logs (by trivial) _ _ _ st1.locals)

theorem topicHubSendFanout_quiet (room : SlotId → Bool)
    (st : HubState) (owner : Option (LocalPtr × WsLocal)) (blocking : Bool) (message : HubMessage) :
    Ensures (topicHubSendFanout zendHash room st owner blocking message) (Quiet st) := by
  refine .bind (topicHubFanoutLocked_frame zendHash room st _ message true) ?_
  rintro ⟨st1, acc⟩ ⟨post, logs, distinct⟩
  dsimp only at post logs distinct ⊢
  split
  · exact .pure (.fanout post logs (by exact distinct) _ _ _ st1.locals)
  · exact .pure (.fanout post logs (by exact distinct) _ _ _ _)

theorem topicHubSendSettle_cases (inv : HubOk st) {owner blocking message payload full posted}
    (hc : st.calls.cell c = some (.sending owner blocking message payload full posted))
    (args : SendSettle) (refused : ∀ st', SendRefused st c st' → P st')
    (parked : ∀ st' p x, payload = some p → SendParked st c (some p) full x st' → P st') :
    Ensures (topicHubSendSettle st c owner blocking message payload full posted args) P := by
  refine .mono (topicHubSendSettle_frame st c owner blocking message payload full posted
    args) ?_
  intro st' outcome
  rcases outcome with gone | ⟨nonempty, x, waits⟩
  · exact refused st' gone
  · have built := ((HubInv.call inv).sending hc).1 nonempty
    obtain ⟨p, rfl⟩ := Option.isSome_iff_exists.mp built
    exact parked st' p x rfl waits

theorem HubAsides.of_aside (zendHash : Bytes → UInt32)
    (good : ∀ {m : HubM HubState}, Ensures m (Aside st) → Good m) : HubAsides zendHash st Good where
  free l loc _ _ := good (topicHubDetachFree_aside l loc)
  publishEnd c payload _ := good (topicHubPublishEnd_aside c payload)
  fetch _ loc _ := good (threadMailboxFetch_aside loc.inbox)
  process room matches_ _ loc _ := good (.mono
    (threadMailboxProcess_frame room st loc.inbox matches_) fun _ done => done.1.aside done.2.logs)
  count room loc topic matches_ eventOk :=
    good (topicHubCountStart_aside zendHash room loc topic matches_ eventOk)
  countReturn c q _ := good (topicHubCountReturn_aside c q)

theorem Accounts.moves (inv : HubOk st) (accounts : Balanced st)
    (zendHash : Bytes → UInt32) : HubMoves zendHash st (Ensures · Balanced) := by
  have quiet : ∀ {m : HubM HubState}, Ensures m (Quiet st) →
      Ensures m Balanced := by
    intro m silent
    exact .mono silent fun _ => accounts.quiet
  exact { HubAsides.of_aside zendHash fun silent => quiet (.mono silent fun _ => Aside.quiet) with
    keep := .pure accounts
    attach := fun created => quiet (.pure (topicHubAttach_quiet st created))
    retire := fun _ _ _ _ =>
      quiet (.pure (Quiet.of_entries rfl rfl (.of_eq rfl) .inr))
    teardown := fun _ _ hl pc => topicHubRetryTeardown_accounts inv hl pc accounts
    publish := fun room owner message => quiet (topicHubPublish_quiet zendHash room st owner message)
    send := fun room owner blocking message _ =>
      quiet (topicHubSendFanout_quiet zendHash room st owner blocking message)
    settle := fun _ _ _ _ _ _ _ args hc => topicHubSendSettle_cases inv hc args
      (fun _ refused => accounts.quiet refused.quiet)
      fun _ _ _ _ parked => accounts.park parked (accounts.frames hc)
    resume := fun _ _ _ hc => quiet (topicHubSendResume_quiet inv hc)
    drain := fun room now _ _ hl pc => topicHubRetryDrain_accounts inv hl pc accounts room now
    interest := fun _ _ _ =>
      quiet (.pure (Quiet.of_entries rfl rfl (.of_eq rfl) .inr)) }

theorem topicHubCreate_accounts : Balanced topicHubCreate where
  queued := rfl
  outcomes := by
    intro o
    cases o <;> rfl
  balance := rfl
  key := fun _ _ => rfl
  once := fun _ _ => Nat.zero_le _
  frames := nofun

theorem runHub_accounts (zendHash : Bytes → UInt32) (events : List HubEvent) :
    Returns (runHub zendHash events) fun st => HubOk st ∧ Balanced st :=
  runHub_keeps topicHubCreate_accounts (fun inv accounts => accounts.moves inv zendHash) events

/-- `npending` over all entries that are in a retry queue. -/
def queuedPending (st : HubState) : Nat :=
  st.locals.total fun loc =>
    (loc.retryQueue.map fun e => ((st.entries.cell e).map (·.pending.length)).getD 0).sum

theorem owedTotal_eq_queuedPending (inv : HubOk st) : owedTotal st.entries = queuedPending st := by
  unfold queuedPending owedTotal
  have beyond : ∀ e, st.entries.next ≤ e →
      ((st.entries.cell e).map (·.pending.length)).getD 0 = 0 := by
    grind [fresh]
  rw [← sum_total_count_mul st.locals (·.retryQueue) beyond]
  unfold total
  apply Finset.sum_congr rfl
  intro e _
  have queued : st.locals.total (·.retryQueue.count e) + 0 = _ := inv.queue e
  unfold total at queued
  rw [add_zero] at queued
  rw [queued]
  cases hx : st.entries.cell e with
  | none => rfl
  | some x => grind [ownsPayload_of_some, owed]

/-- What a reachable state says about the parked targets. -/
structure SendAccounting (st : HubState) : Prop where
  /-- The targets ever queued are settled or still pending in a queue. -/
  conserved : tally queuedWeight st.trace = st.stats.retryDelivered + st.stats.retryGone +
    st.stats.retryExpired + st.stats.retryShutdown + queuedPending st
  /-- The counter of queued targets is their number. -/
  queuedCounter : st.stats.retryQueued = tally queuedWeight st.trace
  /-- The counter of an outcome is the number of targets that ended with it. -/
  outcomeCounter : ∀ o, st.stats.settledAs o = tally (outcomeWeight o) st.trace
  /-- A target of an entry has at most one outcome. -/
  oneOutcome : ∀ e t, tally (settledWeight e t) st.trace ≤ 1
  /-- Only targets that were queued have one. -/
  settledParked : ∀ e t, tally (settledWeight e t) st.trace ≤ tally (parkedWeight e t) st.trace

theorem Accounts.accounting (inv : HubOk st) (accounts : Balanced st) :
    SendAccounting st where
  conserved := by
    have balance := accounts.balance
    grind [Accounts.queued, owedTotal_eq_queuedPending, RetryOutcome.sum, HubStats.settledAs]
  queuedCounter := accounts.queued.symm
  outcomeCounter := fun o => (accounts.outcomes o).symm
  oneOutcome := by
    intro e t
    have key := accounts.key e t
    have once : _ ≤ 1 := (accounts.once e t).trans (by split <;> decide)
    omega
  settledParked := by
    intro e t
    have key := accounts.key e t
    omega

/-- In every run the targets queued for retry are delivered, gone, expired, lost in a shutdown or
still pending, and none of them under two of these. -/
theorem reliable_send_accounting_conserved (zendHash : Bytes → UInt32) (events : List HubEvent) :
    Returns (runHub zendHash events) SendAccounting :=
  (runHub_accounts zendHash events).mono fun _ done => done.2.accounting done.1

end TrueAsync.Websocket

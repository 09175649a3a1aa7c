import Mathlib.Data.List.Perm.Basic
import Mathlib.Logic.Function.Basic

/-!
# Admission of HTTP/3 connections

The gates that `http3_connection_dispatch` of `src/http3/http3_connection.c` puts in front of a new
connection, over the counters of `src/http3/http3_listener.c`. A connection is charged to the address
it was admitted from, wherever it migrates to.
-/

namespace TrueAsync.Http3

open List

/-- The raw address in a `struct sockaddr`, without the port. -/
inductive PeerKey where
  | inet (addr : BitVec 32)
  | inet6 (addr : BitVec 128)
deriving DecidableEq, Repr

/-- `struct sockaddr`; an unknown family has no address. -/
structure Sockaddr where
  addr : Option PeerKey
  port : BitVec 16
deriving DecidableEq, Repr

/-- `http3_connection_t`. -/
structure Http3Connection where
  peer : Sockaddr
  admitPeer : Sockaddr
deriving DecidableEq, Repr

/-- `http3_listener_t`; a bound of zero is none. -/
structure Http3Listener where
  maxConns : Nat
  peerBudget : Nat
  connCount : Nat := 0
  connList : List Http3Connection := []
  peerCountMap : PeerKey → Option Nat := fun _ => none

namespace Http3Listener

/-- `http3_listener_peer_inc`. -/
def peerInc (l : Http3Listener) (peer : Sockaddr) : Bool × Http3Listener :=
  if l.peerBudget = 0 then (true, l)
  else
    match peer.addr with
    | none => (true, l)
    | some key =>
      let cnt := (l.peerCountMap key).getD 0
      if l.peerBudget ≤ cnt then (false, l)
      else (true, { l with peerCountMap := Function.update l.peerCountMap key (some (cnt + 1)) })

/-- `http3_listener_peer_dec`. -/
def peerDec (l : Http3Listener) (peer : Sockaddr) : Http3Listener :=
  if l.peerBudget = 0 then l
  else
    match peer.addr with
    | none => l
    | some key =>
      match l.peerCountMap key with
      | none => l
      | some cnt =>
        { l with peerCountMap :=
            Function.update l.peerCountMap key (if cnt ≤ 1 then none else some (cnt - 1)) }

/-- `http3_listener_admit`. -/
def listenerAdmit (l : Http3Listener) : Bool := l.maxConns = 0 || l.connCount < l.maxConns

/-- `http3_listener_track_connection`. -/
def trackConnection (l : Http3Listener) (conn : Http3Connection) : Http3Listener :=
  { l with connList := conn :: l.connList, connCount := l.connCount + 1 }

/-- An Initial that passes validation; `http3_connection_accept` succeeds or not. -/
def initial (l : Http3Listener) (peer : Sockaddr) (accepts : Bool) : Http3Listener :=
  if l.listenerAdmit then
    match l.peerInc peer with
    | (false, l) => l
    | (true, l) => if accepts then l.trackConnection ⟨peer, peer⟩ else l.peerDec peer
  else l

/-- `http3_connection_reap` of the connection at a place of the list. -/
def reap (l : Http3Listener) (i : Nat) : Http3Listener :=
  match l.connList[i]? with
  | none => l
  | some conn =>
    { l with connList := l.connList.eraseIdx i, connCount := l.connCount - 1 }.peerDec conn.admitPeer

end Http3Listener

/-- An Initial, a datagram for a connection, which may have migrated, and a reap. -/
inductive ListenerEvent where
  | initial (peer : Sockaddr) (accepts : Bool)
  | routed (i : Nat) (peer : Sockaddr)
  | reap (i : Nat)

def Http3Listener.step (l : Http3Listener) : ListenerEvent → Http3Listener
  | .initial peer accepts => l.initial peer accepts
  | .routed i peer => { l with connList := l.connList.modify i ({ · with peer }) }
  | .reap i => l.reap i

/-- The addresses that the live connections were admitted from. -/
def Http3Listener.admitted (l : Http3Listener) : List (Option PeerKey) :=
  l.connList.map fun conn => conn.admitPeer.addr

/-- The map counts the given addresses, within the budget, and has no entry for others. -/
def Http3Listener.Booked (l : Http3Listener) (keys : List (Option PeerKey)) : Prop :=
  l.peerBudget ≠ 0 → ∀ key, keys.count (some key) ≤ l.peerBudget ∧
    l.peerCountMap key = if keys.count (some key) = 0 then none else some (keys.count (some key))

/-- The counters of a listener agree with its list. -/
structure Http3Listener.Accounted (l : Http3Listener) : Prop where
  count : l.connCount = l.connList.length
  bounded : l.maxConns ≠ 0 → l.connCount ≤ l.maxConns
  booked : l.Booked l.admitted

namespace Http3Listener

variable {l : Http3Listener} {peer : Sockaddr} {keys : List (Option PeerKey)}

theorem peerInc_cases : l.peerInc peer = (false, l) ∨
      ∃ peerCountMap, l.peerInc peer = (true, { l with peerCountMap }) ∧
        ∀ keys, l.Booked keys → { l with peerCountMap }.Booked (peer.addr :: keys) := by
  unfold peerInc
  split_ifs with off
  · exact .inr ⟨_, rfl, fun keys _ on => absurd off on⟩
  · cases addr : peer.addr with
    | none =>
      refine .inr ⟨_, rfl, fun keys booked on key => ?_⟩
      simpa using booked on key
    | some key =>
      dsimp only
      split_ifs with full
      · exact .inl rfl
      · refine .inr ⟨_, rfl, fun keys booked on key' => ?_⟩
        have here := booked on key'
        by_cases same : key' = key
        · subst same
          rw [here.2] at full
          grind
        · simpa [count_cons, Ne.symm same, Function.update_of_ne same] using here

theorem peerDec_booked (booked : l.Booked (peer.addr :: keys)) : (l.peerDec peer).Booked keys := by
  unfold peerDec
  split_ifs with off
  · exact fun on => absurd off on
  · cases addr : peer.addr with
    | none =>
      intro on key
      simpa [addr] using booked on key
    | some key =>
      have counted := booked off key
      rw [addr, count_cons_self, if_neg (Nat.succ_ne_zero _)] at counted
      simp only [counted.2]
      intro on key'
      by_cases same : key' = key
      · subst same
        grind
      · have here := booked on key'
        rw [addr] at here
        simpa [count_cons, Ne.symm same, Function.update_of_ne same] using here

theorem peerDec_frame (peer : Sockaddr) :
    ∃ peerCountMap, l.peerDec peer = { l with peerCountMap } := by
  unfold peerDec
  split_ifs
  · exact ⟨_, rfl⟩
  · split
    · exact ⟨_, rfl⟩
    · split <;> exact ⟨_, rfl⟩

theorem Accounted.initial (accounted : l.Accounted) (peer : Sockaddr) (accepts : Bool) :
    (l.initial peer accepts).Accounted := by
  unfold Http3Listener.initial
  by_cases admits : l.listenerAdmit = true
  · rw [if_pos admits]
    rcases l.peerInc_cases with same | ⟨peerCountMap, same, booked⟩ <;> rw [same]
    · exact accounted
    · have charged := booked _ accounted.booked
      cases accepts with
      | true =>
        refine ⟨congrArg (· + 1) accounted.count, fun limited => ?_, charged⟩
        have room : l.maxConns = 0 ∨ l.connCount < l.maxConns := by simpa [listenerAdmit] using admits
        exact room.resolve_left limited
      | false =>
        obtain ⟨map, frame⟩ := peerDec_frame peer
        have returned := peerDec_booked charged
        simp only [Bool.false_eq_true, if_false]
        rw [frame] at returned ⊢
        exact { accounted with booked := returned }
  · rw [if_neg admits]
    exact accounted

theorem Accounted.reap (accounted : l.Accounted) (i : Nat) : (l.reap i).Accounted := by
  unfold Http3Listener.reap
  split
  · exact accounted
  · rename_i conn here
    obtain ⟨inside, rfl⟩ := List.getElem?_eq_some_iff.mp here
    have count := accounted.count
    have rest := (List.getElem_cons_eraseIdx_perm inside).map fun conn => conn.admitPeer.addr
    have charged : Booked { l with
        connList := l.connList.eraseIdx i, connCount := l.connCount - 1 }
        (l.connList[i].admitPeer.addr :: (l.connList.eraseIdx i).map fun conn => conn.admitPeer.addr) := by
      intro on key
      rw [← List.map_cons (f := fun conn : Http3Connection => conn.admitPeer.addr), rest.count_eq]
      exact accounted.booked on key
    have returned := peerDec_booked charged
    obtain ⟨map, frame⟩ := peerDec_frame l.connList[i].admitPeer
    rw [frame] at returned ⊢
    refine ⟨?_, fun limited => Nat.le_trans (Nat.sub_le _ _) (accounted.bounded limited), returned⟩
    simp only [List.length_eraseIdx_of_lt inside, count]

theorem Accounted.step (accounted : l.Accounted) (event : ListenerEvent) :
    (l.step event).Accounted := by
  cases event with
  | initial peer accepts => exact accounted.initial peer accepts
  | reap i => exact accounted.reap i
  | routed i peer =>
    have same : (l.step (.routed i peer)).admitted = l.admitted := by
      simp only [Http3Listener.step, admitted]
      apply ext_getElem?
      intro j
      simp only [getElem?_map, getElem?_modify]
      cases l.connList[j]? with
      | none => rfl
      | some conn => by_cases here : i = j <;> simp [here]
    refine ⟨?_, accounted.bounded, ?_⟩
    · simpa [Http3Listener.step] using accounted.count
    · rw [same]
      exact accounted.booked

end Http3Listener

/-- After every run the count is the length of the list and within the maximum, and with a budget the
map counts the live connections by the address they were admitted from. -/
theorem admission_accounted (maxConns peerBudget : Nat) (events : List ListenerEvent) :
    (events.foldl Http3Listener.step { maxConns, peerBudget }).Accounted :=
  foldlRecOn events _ ⟨rfl, fun _ => Nat.zero_le _, fun _ _ => ⟨Nat.zero_le _, rfl⟩⟩
    fun _ accounted event _ => accounted.step event

/-- Without a budget nothing is counted. -/
theorem unlimited_uncounted : let peer : Sockaddr := ⟨some (.inet 1), 1⟩
    let l := [ListenerEvent.initial peer true].foldl Http3Listener.step
      { maxConns := 0, peerBudget := 0 }
    l.admitted = [some (.inet 1)] ∧ l.peerCountMap (.inet 1) = none := by
  decide

end TrueAsync.Http3

import Mathlib.Data.List.AList
import TrueAsync.Lib.Heap
import TrueAsync.Lib.Lists
import TrueAsync.Websocket.Topic

/-!
# The per-worker topic tree

The rest of `src/websocket/ws_topic_tree.c`, as state passing over two heaps: the nodes of
one worker's tree and the sessions of that worker. A pointer is an address, and following
one to memory that has been released is a `Fault`. Nodes are freed by `ws_node_prune`,
sessions by `ws_session_destroy`; both happen in the middle of a publish when a send tears
sessions down, which is what `SendScript` describes.

The capacity fields of the two arrays (`cap`, `dirty_cap`) and the payload of a publish take
no part in any decision and are left out. `count` is the length of `subs`.
-/

namespace TrueAsync.Websocket

open TrueAsync.Lib

/-- Address of a `ws_topic_node_t`. -/
abbrev Ptr := Nat

/-- Address of a `ws_session_t`. -/
abbrev SessionId := Nat

/-- `ws_node_kind_t`. -/
inductive WsNodeKind where
  | root
  | literal
  | plus
  | hash
  deriving DecidableEq, Repr

/-- `ws_topic_node_t`. A `none` in `subs` is a tombstone; `dead` counts them. -/
structure WsTopicNode where
  parent : Ptr
  kind : WsNodeKind
  level : Bytes
  children : AList (fun _ : Bytes => Ptr)
  plus : Option Ptr
  hash : Option Ptr
  subs : List (Option SessionId)
  dead : Nat
  dirty : Bool

/-- `ws_topic_sub_t`, an element of a session's subscription list. -/
structure WsTopicSub where
  node : Ptr
  filter : Bytes
  deriving DecidableEq, Repr

/-- The fields of `ws_session_t` that the tree uses. -/
structure WsSession where
  wsId : Nat
  topics : List WsTopicSub
  topicMark : Nat

/-- A call of `topic_hub_interest_add` (`joining`) or `topic_hub_interest_remove`. -/
structure InterestCall where
  joining : Bool
  filter : Bytes
  prefixLen : Nat
  deriving DecidableEq, Repr

/-- `ws_topic_tree` with the sessions of its worker. The root is the node at address 0.
`interest` are the calls made to the hub so far, `nextWsId` its id counter. -/
structure TopicState where
  nodes : Heap WsTopicNode
  mark : Nat
  walking : Nat
  dirty : List Ptr
  sessions : Heap WsSession
  nextWsId : Nat
  interest : List InterestCall

/-- What would be undefined behaviour in the source. -/
inductive Fault where
  /-- A released node was accessed. -/
  | freedNode (p : Ptr)
  /-- A released session was accessed. -/
  | removedSession (s : SessionId)
  /-- A null pointer was followed. -/
  | null
  /-- A loop did not end within its bound. -/
  | fuel
  deriving DecidableEq, Repr

/-- The address of `tree->root`. -/
def rootPtr : Ptr := 0

/-- A zeroed node, as `ecalloc` returns it, with `parent`, `kind` and `level` filled in. -/
def WsTopicNode.new (parent : Ptr) (kind : WsNodeKind) (level : Bytes) : WsTopicNode where
  parent := parent
  kind := kind
  level := level
  children := ∅
  plus := none
  hash := none
  subs := []
  dead := 0
  dirty := false

/-- `ws_topic_tree_create`. -/
def wsTopicTreeCreate : TopicState where
  nodes := Heap.empty.alloc (.new rootPtr .root [])
  mark := 0
  walking := 0
  dirty := []
  sessions := Heap.empty
  nextWsId := 1
  interest := []

def readNode (nodes : Heap WsTopicNode) (p : Ptr) : Except Fault WsTopicNode :=
  match nodes.cell p with
  | some n => .ok n
  | none => .error (.freedNode p)

def readSession (sessions : Heap WsSession) (s : SessionId) : Except Fault WsSession :=
  match sessions.cell s with
  | some ss => .ok ss
  | none => .error (.removedSession s)

/-! ## Nodes -/

def kindOf (level : Bytes) : WsNodeKind :=
  if level = plusLevel then .plus else if level = hashLevel then .hash else .literal

/-- The pointer under which a node keeps the child for `level`. -/
def WsTopicNode.link (n : WsTopicNode) (level : Bytes) : Option Ptr :=
  match kindOf level with
  | .plus => n.plus
  | .hash => n.hash
  | _ => n.children.lookup level

/-- Store a new child for `level`. -/
def WsTopicNode.setLink (n : WsTopicNode) (level : Bytes) (child : Ptr) : WsTopicNode :=
  match kindOf level with
  | .plus => { n with plus := some child }
  | .hash => { n with hash := some child }
  | _ => { n with children := n.children.insert level child }

/-- The switch of `ws_node_prune`: forget the child of this kind and level. -/
def WsTopicNode.unlink (n : WsTopicNode) (kind : WsNodeKind) (level : Bytes) : WsTopicNode :=
  match kind with
  | .plus => { n with plus := none }
  | .hash => { n with hash := none }
  | _ => { n with children := n.children.erase level }

/-- The node that `ws_node_child` creates for `level`. A wildcard keeps no level string. -/
def WsTopicNode.newChild (parent : Ptr) (level : Bytes) : WsTopicNode :=
  match kindOf level with
  | .literal => .new parent .literal level
  | kind => .new parent kind []

/-- `ws_node_child`. -/
def wsNodeChild (nodes : Heap WsTopicNode) (parent : Ptr) (level : Bytes) (create : Bool) :
    Except Fault (Heap WsTopicNode × Option Ptr) := do
  let n ← readNode nodes parent
  match n.link level with
  | some child => pure (nodes, some child)
  | none =>
      if create then
        let child := nodes.next
        pure ((nodes.alloc (.newChild parent level)).modify parent (·.setLink level child),
          some child)
      else
        pure (nodes, none)

/-- `ws_node_is_empty`. -/
def wsNodeIsEmpty (n : WsTopicNode) : Bool :=
  n.subs.isEmpty && n.plus.isNone && n.hash.isNone && n.children.entries.isEmpty

/-- The loop of `ws_node_prune`. A node is older than its children, so it makes at most
`node + 1` turns. The node freed is empty: `ws_node_free` has no child to descend into. -/
def wsNodePruneLoop : Nat → Heap WsTopicNode → Ptr → Except Fault (Heap WsTopicNode)
  | 0, _, _ => .error .fuel
  | fuel + 1, nodes, node => do
      let n ← readNode nodes node
      if n.kind ≠ .root ∧ wsNodeIsEmpty n then
        let _ ← readNode nodes n.parent
        wsNodePruneLoop fuel
          ((nodes.modify n.parent (·.unlink n.kind n.level)).free node) n.parent
      else
        pure nodes

/-- `ws_node_prune`. -/
def wsNodePrune (nodes : Heap WsTopicNode) (node : Ptr) : Except Fault (Heap WsTopicNode) :=
  wsNodePruneLoop (node + 1) nodes node

/-- `ws_node_compact`, on the node itself. -/
def wsNodeCompact (n : WsTopicNode) : WsTopicNode :=
  if n.dead = 0 then n
  else { n with subs := n.subs.filter Option.isSome, dead := 0 }

/-- `ws_tree_mark_dirty`. -/
def wsTreeMarkDirty (st : TopicState) (node : Ptr) : Except Fault TopicState := do
  let n ← readNode st.nodes node
  if n.dirty then
    pure st
  else
    pure { st with
      nodes := st.nodes.modify node ({ · with dirty := true })
      dirty := st.dirty ++ [node] }

/-- One turn of the loop of `ws_tree_settle`. -/
def wsTreeSettleOne (nodes : Heap WsTopicNode) (node : Ptr) : Except Fault (Heap WsTopicNode) := do
  let _ ← readNode nodes node
  let nodes := nodes.modify node ({ · with dirty := false })
  wsNodePrune (nodes.modify node wsNodeCompact) node

/-- `ws_tree_settle`. -/
def wsTreeSettle (st : TopicState) : Except Fault TopicState := do
  let nodes ← st.dirty.foldlM wsTreeSettleOne st.nodes
  pure { st with nodes := nodes, dirty := [] }

/-- `ws_node_detach`. While a walk is in flight the slot becomes a tombstone, which `count`
still counts; otherwise the last subscriber moves into it. -/
def wsNodeDetach (st : TopicState) (node : Ptr) (session : SessionId) :
    Except Fault TopicState := do
  let n ← readNode st.nodes node
  match n.subs.findIdx? (· = some session) with
  | none => pure st
  | some idx =>
      if st.walking > 0 then
        wsTreeMarkDirty { st with
          nodes := st.nodes.modify node fun n =>
            { n with subs := n.subs.set idx none, dead := n.dead + 1 } } node
      else
        let nodes ← wsNodePrune (st.nodes.modify node fun n =>
          { n with subs := swapRemove n.subs idx }) node
        pure { st with nodes := nodes }

/-! ## Subscriptions -/

/-- `ws_interest_publish`. -/
def wsInterestPublish (st : TopicState) (filter : Bytes) (joining : Bool) : TopicState :=
  { st with interest := st.interest ++ [⟨joining, filter, wsTopicInterestPrefix filter⟩] }

/-- The descent of `ws_topic_subscribe`, creating the nodes that are missing. -/
def wsNodeDescend (nodes : Heap WsTopicNode) (node : Ptr) :
    List Bytes → Except Fault (Heap WsTopicNode × Ptr)
  | [] => pure (nodes, node)
  | level :: rest => do
      let (nodes, child) ← wsNodeChild nodes node level true
      match child with
      | some child => wsNodeDescend nodes child rest
      | none => .error .null

/-- `ws_topic_subscribe`. `max = 0` stands for no limit. -/
def wsTopicSubscribe (st : TopicState) (session : SessionId) (filter : Bytes) (max : Nat) :
    Except Fault (TopicState × Bool) := do
  match wsTopicSplit filter with
  | none => pure (st, false)
  | some levels =>
      let ss ← readSession st.sessions session
      if ss.topics.any (·.filter = filter) then
        pure (st, true)
      else if max ≠ 0 ∧ ss.topics.length ≥ max then
        pure (st, false)
      else
        let (nodes, node) ← wsNodeDescend st.nodes rootPtr (levels.map TopicLevel.bytes)
        let st := { st with
          nodes := nodes.modify node fun n => { n with subs := n.subs ++ [some session] }
          sessions := st.sessions.modify session fun ss =>
            { ss with topics := ⟨node, filter⟩ :: ss.topics } }
        pure (wsInterestPublish st filter true, true)

/-- `ws_sub_drop`. The list element removed is the first with this filter, in both callers. -/
def wsSubDrop (st : TopicState) (session : SessionId) (sub : WsTopicSub) :
    Except Fault TopicState := do
  let st ← wsNodeDetach st sub.node session
  let _ ← readSession st.sessions session
  let st := { st with
    sessions := st.sessions.modify session fun ss =>
      { ss with topics := ss.topics.eraseP (·.filter = sub.filter) } }
  pure (wsInterestPublish st sub.filter false)

/-- `ws_topic_unsubscribe`. -/
def wsTopicUnsubscribe (st : TopicState) (session : SessionId) (filter : Bytes) :
    Except Fault (TopicState × Bool) := do
  let ss ← readSession st.sessions session
  match ss.topics.find? (·.filter = filter) with
  | none => pure (st, false)
  | some sub => do
      let st ← wsSubDrop st session sub
      pure (st, true)

/-- The loop of `ws_topic_unsubscribe_all`, for a list of at most `fuel` elements. -/
def wsTopicUnsubscribeAllLoop : Nat → TopicState → SessionId → Except Fault TopicState
  | 0, _, _ => .error .fuel
  | fuel + 1, st, session => do
      let ss ← readSession st.sessions session
      match ss.topics with
      | [] => pure st
      | sub :: _ => do
          let st ← wsSubDrop st session sub
          wsTopicUnsubscribeAllLoop fuel st session

/-- `ws_topic_unsubscribe_all`. -/
def wsTopicUnsubscribeAll (st : TopicState) (session : SessionId) : Except Fault TopicState := do
  let ss ← readSession st.sessions session
  wsTopicUnsubscribeAllLoop (ss.topics.length + 1) st session

/-- `ws_session_destroy`: leave every topic, then release the session. -/
def wsSessionDestroy (st : TopicState) (session : SessionId) : Except Fault TopicState := do
  let st ← wsTopicUnsubscribeAll st session
  pure { st with sessions := st.sessions.free session }

/-! ## Matching -/

/-- `ws_topic_visit_t`. `attempts` are the sessions `ws_session_try_send` was called for. -/
structure WsTopicVisit where
  exceptId : Nat
  shouldDeliver : Bool
  hits : Nat
  attempts : List SessionId

/-- `ws_session_try_send` as the walk sees it: the number of the send, the session, and what
the call does to the tree before it returns whether the message was taken. -/
abbrev TrySend := Nat → SessionId → TopicState → Except Fault (TopicState × Bool)

/-- The body of the loop of `ws_topic_visit` for one array element. -/
def wsTopicVisitOne (send : TrySend) (st : TopicState) (visit : WsTopicVisit) :
    Option SessionId → Except Fault (TopicState × WsTopicVisit)
  | none => pure (st, visit)
  | some s => do
      let ss ← readSession st.sessions s
      if ss.wsId = visit.exceptId ∨ ss.topicMark = st.mark then
        pure (st, visit)
      else
        let st := { st with
          sessions := st.sessions.modify s ({ · with topicMark := st.mark }) }
        if ¬ visit.shouldDeliver then
          pure (st, { visit with hits := visit.hits + 1 })
        else
          let (st, taken) ← send visit.attempts.length s st
          pure (st, { visit with
            hits := if taken then visit.hits + 1 else visit.hits
            attempts := visit.attempts ++ [s] })

/-- The loop of `ws_topic_visit`. `count` and `subs` are read again on every turn. -/
def wsTopicVisitLoop (send : TrySend) (node : Ptr) :
    Nat → Nat → TopicState → WsTopicVisit → Except Fault (TopicState × WsTopicVisit)
  | 0, _, _, _ => .error .fuel
  | fuel + 1, i, st, visit => do
      let n ← readNode st.nodes node
      match n.subs[i]? with
      | none => pure (st, visit)
      | some slot => do
          let (st, visit) ← wsTopicVisitOne send st visit slot
          wsTopicVisitLoop send node fuel (i + 1) st visit

/-- `ws_topic_visit`. -/
def wsTopicVisit (send : TrySend) (st : TopicState) (visit : WsTopicVisit) (node : Ptr) :
    Except Fault (TopicState × WsTopicVisit) := do
  let n ← readNode st.nodes node
  wsTopicVisitLoop send node (n.subs.length + 1) 0 st visit

/-- `if (child != NULL) f(child)`. -/
def unlessNull (st : TopicState) (visit : WsTopicVisit) (child : Option Ptr)
    (f : Ptr → Except Fault (TopicState × WsTopicVisit)) :
    Except Fault (TopicState × WsTopicVisit) :=
  match child with
  | none => pure (st, visit)
  | some c => f c

/-- `ws_topic_walk`, from `node` with the levels that remain. The node is read again after
each descent: the sends made there may have changed it. -/
def wsTopicWalk (send : TrySend) (st : TopicState) (visit : WsTopicVisit) (node : Ptr) :
    List Bytes → Except Fault (TopicState × WsTopicVisit)
  | [] => do
      let n ← readNode st.nodes node
      let (st, visit) ← unlessNull st visit n.hash (wsTopicVisit send st visit)
      wsTopicVisit send st visit node
  | level :: rest => do
      let n ← readNode st.nodes node
      let (st, visit) ← unlessNull st visit n.hash (wsTopicVisit send st visit)
      let n ← readNode st.nodes node
      let (st, visit) ← unlessNull st visit (n.children.lookup level) fun literal =>
        wsTopicWalk send st visit literal rest
      let n ← readNode st.nodes node
      unlessNull st visit n.plus fun plus => wsTopicWalk send st visit plus rest

/-- `ws_topic_match`. -/
def wsTopicMatch (send : TrySend) (st : TopicState) (topic : Bytes) (visit : WsTopicVisit) :
    Except Fault (TopicState × WsTopicVisit) := do
  match wsTopicSplit topic with
  | none => pure (st, { visit with hits := 0 })
  | some levels =>
      let st := { st with mark := st.mark + 1, walking := st.walking + 1 }
      let (st, visit) ← wsTopicWalk send st visit rootPtr (levels.map TopicLevel.bytes)
      let st := { st with walking := st.walking - 1 }
      if st.walking = 0 then
        let st ← wsTreeSettle st
        pure (st, visit)
      else
        pure (st, visit)

/-- `ws_topic_publish`. -/
def wsTopicPublish (send : TrySend) (st : TopicState) (topic : Bytes) (exceptId : Nat) :
    Except Fault (TopicState × WsTopicVisit) :=
  wsTopicMatch send st topic ⟨exceptId, true, 0, []⟩

/-- `ws_topic_count`. The visit is zeroed, so `except_id` is 0. -/
def wsTopicCount (st : TopicState) (topic : Bytes) : Except Fault (TopicState × Nat) := do
  let (st, visit) ← wsTopicMatch (fun _ _ st => pure (st, true)) st topic ⟨0, false, 0, []⟩
  pure (st, visit.hits)

/-! ## Whole runs -/

/-- What a send does to the worker's topics before it returns. The `k`-th send of a nested
publish runs `sends k`. -/
inductive SendScript where
  | done (taken : Bool)
  | unsubscribeAll (session : SessionId) (next : SendScript)
  | destroy (session : SessionId) (next : SendScript)
  | publish (topic : Bytes) (exceptId : Nat) (sends : Nat → SendScript) (next : SendScript)

/-- Run `f` on a session that still exists. A caller that tore its session down has no
pointer left to pass. -/
def onSession (st : TopicState) (session : SessionId)
    (f : TopicState → SessionId → Except Fault TopicState) : Except Fault TopicState :=
  if st.sessions.Live session then f st session else pure st

def SendScript.run : SendScript → TopicState → Except Fault (TopicState × Bool)
  | .done taken, st => pure (st, taken)
  | .unsubscribeAll session next, st => do
      let st ← onSession st session wsTopicUnsubscribeAll
      next.run st
  | .destroy session next, st => do
      let st ← onSession st session wsSessionDestroy
      next.run st
  | .publish topic exceptId sends next, st => do
      let (st, _) ← wsTopicPublish (fun k _ => (sends k).run) st topic exceptId
      next.run st

/-- The calls a worker makes on its tree. -/
inductive TopicOp where
  | connect
  | subscribe (session : SessionId) (filter : Bytes)
  | unsubscribe (session : SessionId) (filter : Bytes)
  | unsubscribeAll (session : SessionId)
  | destroy (session : SessionId)
  | publish (topic : Bytes) (exceptId : Nat) (sends : Nat → SendScript)
  | count (topic : Bytes)

/-- `WebSocket::subscribe`: the filter is checked, and a first subscription gives the
session its id. -/
def websocketSubscribe (maxOf : SessionId → Nat) (filter : Bytes) (st : TopicState)
    (session : SessionId) : Except Fault TopicState := do
  if wsTopicIsValidFilter filter then
    let ss ← readSession st.sessions session
    let st := if ss.wsId = 0 then
        { st with
          sessions := st.sessions.modify session ({ · with wsId := st.nextWsId })
          nextWsId := st.nextWsId + 1 }
      else st
    let (st, _) ← wsTopicSubscribe st session filter (maxOf session)
    pure st
  else
    pure st

/-- One call. `maxOf` is the configured `ws_max_subscriptions` of a session's server. -/
def TopicOp.run (maxOf : SessionId → Nat) (st : TopicState) : TopicOp → Except Fault TopicState
  | .connect => pure { st with sessions := st.sessions.alloc ⟨0, [], 0⟩ }
  | .subscribe session filter => onSession st session (websocketSubscribe maxOf filter)
  | .unsubscribe session filter =>
      onSession st session fun st session => do
        let (st, _) ← wsTopicUnsubscribe st session filter
        pure st
  | .unsubscribeAll session => onSession st session wsTopicUnsubscribeAll
  | .destroy session => onSession st session wsSessionDestroy
  | .publish topic exceptId sends => do
      let (st, _) ← wsTopicPublish (fun k _ => (sends k).run) st topic exceptId
      pure st
  | .count topic => do
      let (st, _) ← wsTopicCount st topic
      pure st

def runTopicOps (maxOf : SessionId → Nat) (ops : List TopicOp) : Except Fault TopicState :=
  ops.foldlM (TopicOp.run maxOf) wsTopicTreeCreate

end TrueAsync.Websocket

import TrueAsync.Websocket.TopicShape

/-!
# The representation invariant of the topic tree

`TreeInv` holds between any two calls and also in the middle of a walk. It has three parts:
`NodeInv` about the node heap and the dirty list, `SubInv` about subscriber arrays against
subscription lists, and `SessionInv` about single sessions. A node with a tombstone is
exactly one on the dirty list, and the dirty list is empty unless a walk is in flight.
-/

namespace TrueAsync.Websocket

open TrueAsync.Lib Heap List

/-- The tombstones of a node: they are counted, and the node is on the dirty list. -/
structure DirtyInv (dirty : List Ptr) (p : Ptr) (n : WsTopicNode) : Prop where
  dead : n.dead = n.subs.count none
  flag : n.dirty = true ↔ p ∈ dirty
  tombs : none ∈ n.subs ↔ p ∈ dirty

theorem DirtyInv.congr (inv : DirtyInv dirty p n) (same : SameData n n') : DirtyInv dirty p n' := by
  constructor
  · rw [same.dead, same.subs]
    exact inv.dead
  · rw [same.dirty]
    exact inv.flag
  · rw [same.subs]
    exact inv.tombs

/-- The node heap and the dirty list. -/
structure NodeInv (nodes : Heap WsTopicNode) (dirty : List Ptr) : Prop where
  shape : Shape nodes
  used : NonEmptyExcept nodes rootPtr
  data : ∀ {p n}, nodes.cell p = some n → DirtyInv dirty p n
  live : ∀ p ∈ dirty, nodes.Live p
  nodup : dirty.Nodup

/-- Subscriber arrays against subscription lists. -/
structure SubInv (nodes : Heap WsTopicNode) (sessions : Heap WsSession) : Prop where
  subs : ∀ {p n s}, nodes.cell p = some n → some s ∈ n.subs →
    ∃ ss, sessions.cell s = some ss ∧ ∃ sub ∈ ss.topics, sub.node = p
  once : ∀ {p n}, nodes.cell p = some n → ∀ s, n.subs.count (some s) ≤ 1
  topics : ∀ {s ss sub}, sessions.cell s = some ss → sub ∈ ss.topics →
    findNode nodes rootPtr (levelsOf sub.filter) = some sub.node ∧
      ∃ n, nodes.cell sub.node = some n ∧ some s ∈ n.subs
  filters : ∀ {s ss}, sessions.cell s = some ss → (ss.topics.map (·.filter)).Nodup

/-- One session against the configured maximum and the pass counter. -/
structure SessionInv (max mark : Nat) (ss : WsSession) : Prop where
  bounded : max ≠ 0 → ss.topics.length ≤ max
  id : ss.topics ≠ [] → ss.wsId ≠ 0
  mark : ss.topicMark ≤ mark

/-- The invariant of a worker's tree. -/
structure TreeInv (maxOf : SessionId → Nat) (st : TopicState) : Prop where
  node : NodeInv st.nodes st.dirty
  sub : SubInv st.nodes st.sessions
  session : ∀ {s ss}, st.sessions.cell s = some ss → SessionInv (maxOf s) st.mark ss
  quiet : st.walking = 0 → st.dirty = []
  nextId : st.nextWsId ≠ 0

variable {s : SessionId} {sessions : Heap WsSession} {ss : WsSession}

theorem readSession_ok (h : sessions.cell s = some ss) : readSession sessions s = .ok ss := by
  simp [readSession, h]

/-! ## Removing one subscriber -/

variable {f : WsTopicNode → WsTopicNode} {nodes : Heap WsTopicNode} {p : Ptr}

theorem findNode_modify (links : ∀ n, (f n).link = n.link) (q : Ptr) (path : List Bytes) :
    findNode (nodes.modify p f) q path = findNode nodes q path := by
  induction path generalizing q with
  | nil => rfl
  | cons level rest ih =>
    simp only [findNode, modify_cell]
    split
    · cases nodes.cell q with
      | none => rfl
      | some n => simp [links, ih]
    · simp [ih]

theorem Shape.modify (shape : Shape nodes) (links : ∀ n, (f n).link = n.link)
    (same : ∀ n, (f n).parent = n.parent ∧ (f n).kind = n.kind ∧ (f n).level = n.level ∧
      (f n).children = n.children) : Shape (nodes.modify p f) := by
  have key : ∀ n, (f n).key = n.key := fun n => by
    grind [WsTopicNode.key]
  have forth : ∀ {x m}, nodes.cell x = some m → ∃ m', (nodes.modify p f).cell x = some m' ∧
      m'.link = m.link ∧ m'.parent = m.parent ∧ m'.kind = m.kind ∧ m'.key = m.key := by
    grind [modify_cell]
  have back : ∀ {x m'}, (nodes.modify p f).cell x = some m' → ∃ m, nodes.cell x = some m ∧
      m'.link = m.link ∧ m'.parent = m.parent ∧ m'.kind = m.kind ∧ m'.key = m.key := by
    intro x m' h
    obtain ⟨m, hm, -⟩ := modify_cell_eq_some.mp h
    obtain ⟨m1, hm1, facts⟩ := forth hm
    rw [h] at hm1
    cases hm1
    exact ⟨m, hm, facts⟩
  refine ⟨?_, ?_, ?_, ?_⟩
  · grind [Shape.root]
  · intro x m' hx xroot
    obtain ⟨m, hm, -, parent, kind, mkey⟩ := back hx
    obtain ⟨mkind, older, q, hq, link⟩ := shape.up hm xroot
    obtain ⟨q', hq', qlink, -⟩ := forth hq
    simp_all
  · intro x m' level c hx hc
    obtain ⟨m, hm, mlink, -⟩ := back hx
    rw [mlink] at hc
    obtain ⟨k, hk, parent, kkey, cne⟩ := shape.down hm hc
    obtain ⟨k', hk', -, kparent, -, kkey'⟩ := forth hk
    exact ⟨k', hk', kparent.trans parent, kkey'.trans kkey, cne⟩
  · intro x m' hx
    obtain ⟨m, hm, rfl⟩ := modify_cell_eq_some.mp hx
    split
    · intro level member
      rw [(same m).2.2.2] at member
      exact shape.keys hm level member
    · exact shape.keys hm

/-- `subs'` is `subs` without session `s`, whose slot is gone or has become a tombstone. -/
def Removes (s : SessionId) (subs subs' : List (Option SessionId)) : Prop :=
  ∃ rest, subs.Perm (some s :: rest) ∧ (subs'.Perm rest ∨ subs'.Perm (none :: rest))

variable {subs subs' : List (Option SessionId)}

theorem Removes.count_some (h : Removes s subs subs')
    (t : SessionId) : subs'.count (some t) + (if t = s then 1 else 0) = subs.count (some t) := by
  obtain ⟨rest, before, after⟩ := h
  grind

theorem Removes.mem_some (h : Removes s subs subs')
    (once : subs.count (some s) ≤ 1) (t : SessionId) : some t ∈ subs' ↔ some t ∈ subs ∧ t ≠ s := by
  have count := h.count_some t
  grind

theorem SubInv.drop (inv : SubInv nodes sessions) (shape : Shape nodes) {sub : WsTopicSub}
    (hs : sessions.cell s = some ss) (member : sub ∈ ss.topics) (links : ∀ n, (f n).link = n.link)
    (removes : ∀ n, nodes.cell sub.node = some n → Removes s n.subs (f n).subs) :
    SubInv (nodes.modify sub.node f) (sessions.modify s fun ss =>
      { ss with topics := ss.topics.eraseP (·.filter = sub.filter) }) := by
  -- a session's other subscriptions are at other nodes
  have apart : ∀ other ∈ ss.topics, other.node = sub.node → other = sub := by
    intro other otherMem same
    have path := (inv.topics hs otherMem).1
    rw [same] at path
    have samePath := shape.path_unique path (inv.topics hs member).1
    exact inj_on_of_nodup_map (inv.filters hs) otherMem member (levelsOf_injective samePath)
  have mem_iff : ∀ other, other ∈ ss.topics.eraseP (·.filter = sub.filter) ↔
      other ∈ ss.topics ∧ other ≠ sub := by
    intro other
    rw [mem_eraseP_key (inv.filters hs)]
    refine and_congr_right fun otherMem => ?_
    constructor
    · rintro differ rfl
      exact differ rfl
    · grind [inj_on_of_nodup_map, SubInv.filters]
  refine ⟨?_, ?_, ?_, ?_⟩
  · intro p n' t hn' ht
    obtain ⟨n, hn, rfl⟩ := modify_cell_eq_some.mp hn'
    have old : some t ∈ n.subs ∧ (p = sub.node → t ≠ s) := by
      by_cases here : p = sub.node
      · subst here
        rw [if_pos rfl] at ht
        have gone := ((removes n hn).mem_some (inv.once hn s) t).mp ht
        exact ⟨gone.1, fun _ => gone.2⟩
      · grind
    obtain ⟨tt, htt, other, otherMem, node⟩ := inv.subs hn old.1
    by_cases same : t = s
    · subst same
      rw [hs] at htt
      cases htt
      refine ⟨_, by rw [modify_cell_self, hs]; rfl, other, ?_, node⟩
      refine (mem_iff other).mpr ⟨otherMem, ?_⟩
      rintro rfl
      exact old.2 node.symm rfl
    · exact ⟨tt, by rw [modify_cell_ne _ _ same, htt], other, otherMem, node⟩
  · intro p n' hn' t
    obtain ⟨n, hn, rfl⟩ := modify_cell_eq_some.mp hn'
    by_cases here : p = sub.node
    · subst here
      rw [if_pos rfl]
      have count := (removes n hn).count_some t
      have bound := inv.once hn t
      omega
    · rw [if_neg here]
      exact inv.once hn t
  · intro t tt' other htt' otherMem'
    obtain ⟨tt, htt, rfl⟩ := modify_cell_eq_some.mp htt'
    rw [findNode_modify links]
    have old : other ∈ tt.topics ∧ (t = s → other ≠ sub) := by
      by_cases same : t = s
      · subst same
        rw [hs] at htt
        cases htt
        rw [if_pos rfl] at otherMem'
        have kept := (mem_iff other).mp otherMem'
        exact ⟨kept.1, fun _ => kept.2⟩
      · grind
    obtain ⟨path, n, hn, ht⟩ := inv.topics htt old.1
    refine ⟨path, ?_⟩
    by_cases here : other.node = sub.node
    · rw [here] at hn ⊢
      refine ⟨f n, by rw [modify_cell_self, hn]; rfl, ?_⟩
      refine ((removes n hn).mem_some (inv.once hn s) t).mpr ⟨ht, ?_⟩
      grind
    · exact ⟨n, by rw [modify_cell_ne _ _ here, hn], ht⟩
  · intro t tt' htt'
    obtain ⟨tt, htt, rfl⟩ := modify_cell_eq_some.mp htt'
    have sublist : ∀ l : List WsTopicSub, ((l.eraseP (·.filter = sub.filter)).map
        (·.filter)).Sublist (l.map (·.filter)) := fun l => eraseP_sublist.map _
    split
    · exact (sublist _).nodup (inv.filters htt)
    · exact inv.filters htt

variable {nodes' : Heap WsTopicNode}

theorem SubInv.pruned (inv : SubInv nodes sessions) (shape : Shape nodes) (shape' : Shape nodes')
    (pruned : Pruned nodes nodes') : SubInv nodes' sessions := by
  refine ⟨?_, ?_, ?_, inv.filters⟩
  · intro p n' s hn' hs
    obtain ⟨n, hn, same, -⟩ := pruned.back hn'
    rw [same.subs] at hs
    exact inv.subs hn hs
  · intro p n' hn'
    obtain ⟨n, hn, same, -⟩ := pruned.back hn'
    rw [same.subs]
    exact inv.once hn
  · intro s ss sub hs member
    obtain ⟨path, n, hn, hsub⟩ := inv.topics hs member
    have live := pruned.keep hn (ne_nil_of_mem hsub)
    obtain ⟨n', hn'⟩ := live_iff.mp live
    obtain ⟨m, hm, same, -⟩ := pruned.back hn'
    grind [Pruned.findNode, SameData.subs]

/-! ## Detaching -/

theorem mem_of_findIdx? (h : some s ∈ subs) : ∃ idx, subs.findIdx? (· = some s) = some idx := by
  have found : (subs.findIdx? (· = some s)).isSome = true := by simpa using h
  exact Option.isSome_iff_exists.mp found

variable {idx : Nat}

/-- What the slot search of `ws_node_detach` finds can be taken out in both ways. -/
theorem removes_of_findIdx? (h : subs.findIdx? (· = some s) = some idx) :
    Removes s subs (subs.set idx none) ∧ Removes s subs (swapRemove subs idx) ∧
      (subs.set idx none).count none = subs.count none + 1 := by
  obtain ⟨bound, here, -⟩ := findIdx?_eq_some_iff_getElem.mp h
  have at_idx : subs[idx] = some s := by simpa using here
  have taken := getElem_cons_eraseIdx_perm bound
  rw [at_idx] at taken
  have tombstone := set_perm_cons_eraseIdx bound none
  have swapped := swapRemove_perm bound
  rw [at_idx] at swapped
  refine ⟨⟨_, taken.symm, .inr tombstone⟩, ⟨_, swapped.symm, .inl (List.Perm.refl _)⟩, ?_⟩
  grind

/-- What one dropped subscription leaves behind. During a walk only the slot of the session
changes, from `some s` to a tombstone. -/
structure Dropped (st st' : TopicState) (s : SessionId) (sub : WsTopicSub) : Prop where
  mark : st'.mark = st.mark
  walking : st'.walking = st.walking
  sessions : st'.sessions = st.sessions.modify s fun ss =>
    { ss with topics := ss.topics.eraseP (·.filter = sub.filter) }
  nodes : st.walking > 0 → ∃ idx, st'.nodes = st.nodes.modify sub.node fun n =>
    { n with subs := n.subs.set idx none, dead := n.dead + 1, dirty := true }

theorem SessionInv.erase {max mark : Nat} (inv : SessionInv max mark ss)
    (p : WsTopicSub → Bool) : SessionInv max mark { ss with topics := ss.topics.eraseP p } where
  bounded := fun limited => Nat.le_trans eraseP_sublist.length_le (inv.bounded limited)
  id := by
    intro some
    apply inv.id
    intro empty
    apply some
    simp [empty]
  mark := inv.mark

section Drop

variable {maxOf : SessionId → Nat} {st : TopicState} {s : SessionId} {ss : WsSession}
  {sub : WsTopicSub} {n : WsTopicNode} {nodes : Heap WsTopicNode}

theorem NodeInv.tombstone (inv : NodeInv nodes dirty) (hn : nodes.cell p = some n)
    (found : n.subs.findIdx? (· = some s) = some idx) : NodeInv (nodes.modify p fun n =>
        { n with subs := n.subs.set idx none, dead := n.dead + 1, dirty := true })
      (if n.dirty then dirty else dirty ++ [p]) := by
  have facts := removes_of_findIdx? found
  obtain ⟨bound, -⟩ := findIdx?_eq_some_iff_getElem.mp found
  have dirtyMem : ∀ q, q ∈ (if n.dirty then dirty else dirty ++ [p]) ↔ q ∈ dirty ∨ q = p := by
    grind [NodeInv.data, DirtyInv.flag]
  refine ⟨?_, ?_, ?_, ?_, ?_⟩
  · exact inv.shape.modify (fun _ => rfl) (fun _ => ⟨rfl, rfl, rfl, rfl⟩)
  · intro q m' hm' qroot qp
    obtain ⟨m, hm, rfl⟩ := modify_cell_eq_some.mp hm'
    split
    · next here =>
      subst here
      rw [hn] at hm
      cases hm
      apply wsNodeIsEmpty_of_subs
      apply ne_nil_of_length_pos
      simp only [length_set]
      omega
    · exact inv.used hm qroot qp
  · intro q m' hm'
    obtain ⟨m, hm, rfl⟩ := modify_cell_eq_some.mp hm'
    obtain ⟨dead, flag, tombs⟩ := inv.data hm
    constructor <;> grind
  · intro q hq
    rw [modify_live]
    rcases (dirtyMem q).mp hq with old | rfl
    · exact inv.live q old
    · exact live_iff.mpr ⟨n, hn⟩
  · split
    · exact inv.nodup
    · next clean =>
      have absent : p ∉ dirty := fun h => clean ((inv.data hn).flag.mpr h)
      rw [nodup_append]
      refine ⟨inv.nodup, by simp, ?_⟩
      intro a ha b hb same
      rw [mem_singleton] at hb
      exact absent (hb ▸ same ▸ ha)

theorem NodeInv.swapRemoved (inv : NodeInv nodes []) (hn : nodes.cell p = some n)
    (found : n.subs.findIdx? (· = some s) = some idx) (shape' : Shape nodes')
    (used : NonEmptyExcept nodes' rootPtr)
    (pruned : Pruned (nodes.modify p fun n => { n with subs := swapRemove n.subs idx }) nodes') :
    NodeInv nodes' [] := by
  refine ⟨shape', used, ?_, nofun, nodup_nil⟩
  intro q m' hm'
  obtain ⟨k, hk, same, -⟩ := pruned.back hm'
  obtain ⟨m, hm, rfl⟩ := modify_cell_eq_some.mp hk
  apply DirtyInv.congr _ same
  obtain ⟨dead, flag, tombs⟩ := inv.data hm
  split
  · next here =>
    subst here
    rw [hn] at hm
    cases hm
    have swapped := swapRemove_perm (findIdx?_eq_some_iff_getElem.mp found).1
    have clean : none ∉ swapRemove n.subs idx :=
      fun tomb => not_mem_nil (tombs.mp (swapped.subset (mem_cons_of_mem _ tomb)))
    have alive : n.dead = 0 :=
      dead.trans (count_eq_zero.mpr fun tomb => not_mem_nil (tombs.mp tomb))
    exact ⟨alive.trans (count_eq_zero.mpr clean).symm, flag, iff_of_false clean not_mem_nil⟩
  · exact ⟨dead, flag, tombs⟩

theorem wsNodeDetach_walking (hn : st.nodes.cell p = some n)
    (found : n.subs.findIdx? (· = some s) = some idx) (walking : st.walking > 0) :
    wsNodeDetach st p s = .ok { st with
      nodes := st.nodes.modify p fun n =>
        { n with subs := n.subs.set idx none, dead := n.dead + 1, dirty := true }
      dirty := if n.dirty then st.dirty else st.dirty ++ [p] } := by
  have marked : (st.nodes.modify p fun n =>
      { n with subs := n.subs.set idx none, dead := n.dead + 1 }).cell p =
      some { n with subs := n.subs.set idx none, dead := n.dead + 1 } := by
    rw [modify_cell_self, hn]
    rfl
  unfold wsNodeDetach
  rw [readNode_ok hn]
  simp only [bind, Except.bind, found, if_pos walking]
  unfold wsTreeMarkDirty
  simp only [bind, Except.bind]
  rw [readNode_ok marked]
  simp only
  by_cases flag : n.dirty = true
  · rw [if_pos flag, if_pos flag]
    have same : st.nodes.modify p (fun n =>
          { n with subs := n.subs.set idx none, dead := n.dead + 1 }) =
        st.nodes.modify p (fun n =>
          { n with subs := n.subs.set idx none, dead := n.dead + 1, dirty := true }) := by
      apply modify_congr
      intro m hm
      rw [hn] at hm
      cases hm
      rw [flag]
    rw [same]
    rfl
  · rw [if_neg flag, if_neg flag, modify_modify]
    rfl

theorem wsNodeDetach_quiet (inv : TreeInv maxOf st) (hn : st.nodes.cell p = some n)
    (found : n.subs.findIdx? (· = some s) = some idx) (quiet : ¬ st.walking > 0) :
    Returns (wsNodeDetach st p s) fun st' => ∃ nodes', st' = { st with nodes := nodes' } ∧
      NodeInv nodes' st.dirty ∧
      Pruned (st.nodes.modify p fun n => { n with subs := swapRemove n.subs idx }) nodes' := by
  have clean : st.dirty = [] := inv.quiet (by omega)
  have shape : Shape (st.nodes.modify p fun n => { n with subs := swapRemove n.subs idx }) :=
    inv.node.shape.modify (fun _ => rfl) (fun _ => ⟨rfl, rfl, rfl, rfl⟩)
  have used : NonEmptyExcept
      (st.nodes.modify p fun n => { n with subs := swapRemove n.subs idx }) p := by
    intro q m hm qroot qp
    rw [modify_cell_ne _ _ qp] at hm
    exact inv.node.used hm qroot qroot
  have live : (st.nodes.modify p fun n => { n with subs := swapRemove n.subs idx }).Live p := by
    rw [modify_live]
    exact live_iff.mpr ⟨n, hn⟩
  unfold wsNodeDetach
  rw [readNode_ok hn]
  simp only [bind, Except.bind, found, if_neg quiet]
  refine (wsNodePrune_spec shape live used).bind ?_
  rintro nodes' ⟨shape', pruned, used'⟩
  have inv' : NodeInv nodes' st.dirty := by
    have old := inv.node
    rw [clean] at old ⊢
    exact old.swapRemoved hn found shape' used' pruned
  exact .pure ⟨nodes', rfl, inv', pruned⟩

theorem wsSubDrop_spec (inv : TreeInv maxOf st) (hs : st.sessions.cell s = some ss)
    (member : sub ∈ ss.topics) :
    Returns (wsSubDrop st s sub) fun st' => TreeInv maxOf st' ∧ Dropped st st' s sub := by
  obtain ⟨-, n, hn, slot⟩ := inv.sub.topics hs member
  obtain ⟨idx, found⟩ := mem_of_findIdx? slot
  have facts := removes_of_findIdx? found
  have session : ∀ {t tt}, (st.sessions.modify s fun ss =>
      { ss with topics := ss.topics.eraseP (·.filter = sub.filter) }).cell t = some tt →
      SessionInv (maxOf t) st.mark tt := by
    intro t tt htt
    obtain ⟨old, hold, rfl⟩ := modify_cell_eq_some.mp htt
    split
    · exact (inv.session hold).erase _
    · exact inv.session hold
  have dropped : ∀ {f : WsTopicNode → WsTopicNode}, (∀ n, (f n).link = n.link) →
      Removes s n.subs (f n).subs → SubInv (st.nodes.modify sub.node f)
        (st.sessions.modify s fun ss =>
          { ss with topics := ss.topics.eraseP (·.filter = sub.filter) }) := by
    intro f links removes
    apply inv.sub.drop inv.node.shape hs member links
    intro m hm
    rw [hn] at hm
    cases hm
    exact removes
  unfold wsSubDrop
  by_cases walking : st.walking > 0
  · rw [wsNodeDetach_walking hn found walking]
    simp only [bind, Except.bind, readSession_ok hs]
    refine .pure ⟨⟨inv.node.tombstone hn found, ?_, session, ?_, inv.nextId⟩, ?_⟩
    · exact dropped (fun _ => rfl) facts.1
    · intro quiet
      exact absurd quiet (Nat.ne_of_gt walking)
    · exact ⟨rfl, rfl, rfl, fun _ => ⟨idx, rfl⟩⟩
  · refine (wsNodeDetach_quiet inv hn found walking).bind ?_
    rintro st' ⟨nodes', rfl, nodeInv, pruned⟩
    simp only [bind, Except.bind, readSession_ok hs]
    refine .pure ⟨⟨nodeInv, ?_, session, inv.quiet, inv.nextId⟩, ?_⟩
    · have before := dropped (f := fun n => { n with subs := swapRemove n.subs idx })
        (fun _ => rfl) facts.2.1
      exact before.pruned (inv.node.shape.modify (fun _ => rfl) (fun _ => ⟨rfl, rfl, rfl, rfl⟩))
        nodeInv.shape pruned
    · exact ⟨rfl, rfl, rfl, fun h => absurd h walking⟩

end Drop

end TrueAsync.Websocket

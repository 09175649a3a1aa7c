import TrueAsync.Websocket.TopicInvariant

/-!
# The tree operations keep the invariant

One specification for each of unsubscribe, unsubscribe-all, destroy, subscribe and settle.
`Walked` is what the removals may do to the tree while a walk stands on it: no node appears
or disappears, no child pointer moves, and a subscriber slot keeps its place or becomes a
tombstone.
-/

namespace TrueAsync.Websocket

open TrueAsync.Lib Heap List

def Tombs (subs subs' : List (Option SessionId)) : Prop :=
  subs'.length = subs.length ∧ ∀ i : Nat, subs'[i]? = subs[i]? ∨ subs'[i]? = some none

theorem Tombs.refl (subs : List (Option SessionId)) : Tombs subs subs := ⟨rfl, fun _ => .inl rfl⟩

variable {subs subs' : List (Option SessionId)}

theorem Tombs.trans (h : Tombs subs subs') (h' : Tombs subs' subs'') : Tombs subs subs'' := by
  refine ⟨h'.1.trans h.1, fun i => ?_⟩
  rcases h'.2 i with same' | tomb
  · rcases h.2 i with same | tomb
    · exact .inl (same'.trans same)
    · exact .inr (same'.trans tomb)
  · exact .inr tomb

theorem tombs_set (idx : Nat) : Tombs subs (subs.set idx none) := by
  refine ⟨length_set, fun i => ?_⟩
  grind

theorem Tombs.mem (h : Tombs subs subs') (member : some s ∈ subs') : some s ∈ subs := by
  obtain ⟨i, hi⟩ := mem_iff_getElem?.mp member
  rcases h.2 i with same | tomb
  · grind
  · rw [hi] at tomb
    cases tomb

/-- What a removal may change while a walk is in flight. -/
structure Walked (st st' : TopicState) : Prop where
  walking : st'.walking = st.walking
  nodes : ∀ {p n}, st.nodes.cell p = some n → ∃ n', st'.nodes.cell p = some n' ∧
    n'.children = n.children ∧ n'.plus = n.plus ∧ n'.hash = n.hash ∧ Tombs n.subs n'.subs
  sessions : ∀ {s ss'}, st'.sessions.cell s = some ss' →
    ∃ ss, st.sessions.cell s = some ss ∧ ss'.wsId = ss.wsId

theorem Walked.refl (st : TopicState) : Walked st st where
  walking := rfl
  nodes := fun {_ n} h => ⟨n, h, rfl, rfl, rfl, .refl _⟩
  sessions := fun {_ ss} h => ⟨ss, h, rfl⟩

variable {st' st : TopicState}

theorem Walked.trans (h : Walked st st') (h' : Walked st' st'') : Walked st st'' where
  walking := h'.walking.trans h.walking
  nodes := by
    intro p n hn
    grind [Walked.nodes, Tombs.trans]
  sessions := by
    grind [Walked.sessions]

variable {p : Ptr}

theorem Walked.live (h : Walked st st') (live : st.nodes.Live p) : st'.nodes.Live p := by
  obtain ⟨n, hn⟩ := live_iff.mp live
  obtain ⟨n', hn', -⟩ := h.nodes hn
  exact live_iff.mpr ⟨n', hn'⟩

theorem Dropped.walked (h : Dropped st st' s sub) (walking : st.walking > 0) : Walked st st' where
  walking := h.walking
  nodes := by
    grind [Dropped.nodes, modify_cell, tombs_set, Tombs.refl]
  sessions := by
    intro t tt' htt'
    rw [h.sessions] at htt'
    obtain ⟨tt, htt, rfl⟩ := modify_cell_eq_some.mp htt'
    refine ⟨tt, htt, ?_⟩
    split <;> rfl

section Ops

variable {maxOf : SessionId → Nat} {st : TopicState} {s : SessionId} {ss : WsSession}

/-! ## Unsubscribing -/

theorem wsTopicUnsubscribe_spec (inv : TreeInv maxOf st) (hs : st.sessions.cell s = some ss)
    (filter : Bytes) : Returns (wsTopicUnsubscribe st s filter) fun r =>
      TreeInv maxOf r.1 ∧ r.1.walking = st.walking := by
  unfold wsTopicUnsubscribe
  simp only [readSession_ok hs, bind, Except.bind]
  cases found : ss.topics.find? (·.filter = filter) with
  | none => exact .pure ⟨inv, rfl⟩
  | some sub =>
    refine (wsSubDrop_spec inv hs (mem_of_find?_eq_some found)).bind ?_
    intro st' dropped
    exact .pure ⟨dropped.1, dropped.2.walking⟩

/-- What a session leaves alone when it leaves its topics. -/
structure Left (st st' : TopicState) (s : SessionId) : Prop where
  mark : st'.mark = st.mark
  others : ∀ {t}, t ≠ s → st'.sessions.cell t = st.sessions.cell t
  walked : st.walking > 0 → Walked st st'
  walking : st'.walking = st.walking

/-- What a session leaving all its topics leaves behind. -/
structure Cleared (st st' : TopicState) (s : SessionId) : Prop extends Left st st' s where
  self : ∀ {ss}, st.sessions.cell s = some ss → st'.sessions.cell s = some { ss with topics := [] }

theorem wsTopicUnsubscribeAllLoop_spec (fuel : Nat) (inv : TreeInv maxOf st)
    (hs : st.sessions.cell s = some ss) (bound : ss.topics.length < fuel) :
    Returns (wsTopicUnsubscribeAllLoop fuel st s) fun st' =>
      TreeInv maxOf st' ∧ Cleared st st' s := by
  induction fuel generalizing st ss with
  | zero => omega
  | succ fuel ih =>
    unfold wsTopicUnsubscribeAllLoop
    simp only [readSession_ok hs, bind, Except.bind]
    cases topics : ss.topics with
    | nil =>
      refine .pure ⟨inv, ⟨rfl, fun _ => rfl, fun _ => .refl _, rfl⟩, ?_⟩
      intro ss' hs'
      rw [hs] at hs'
      cases hs'
      rw [hs]
      congr 1
      cases ss
      simp_all
    | cons sub rest =>
      refine (wsSubDrop_spec inv hs (by rw [topics]; simp)).bind ?_
      rintro st1 ⟨inv1, dropped⟩
      have head : ss.topics.eraseP (·.filter = sub.filter) = rest := by
        rw [topics, eraseP_cons_of_pos (by simp)]
      have hs1 : st1.sessions.cell s = some { ss with topics := rest } := by
        rw [dropped.sessions, modify_cell_self, hs, Option.map_some, head]
      have shorter : rest.length < fuel := by
        rw [topics] at bound
        simpa using bound
      refine (ih inv1 hs1 shorter).mono ?_
      rintro st' ⟨inv', cleared⟩
      refine ⟨inv', ⟨cleared.mark.trans dropped.mark, ?_, ?_,
        cleared.walking.trans dropped.walking⟩, ?_⟩
      · intro t other
        rw [cleared.others other, dropped.sessions, modify_cell_ne _ _ other]
      · intro walking
        apply (dropped.walked walking).trans
        apply cleared.walked
        rw [dropped.walking]
        exact walking
      · intro ss' hs'
        rw [hs] at hs'
        cases hs'
        have emptied := cleared.self hs1
        exact emptied

theorem wsTopicUnsubscribeAll_spec (inv : TreeInv maxOf st) (hs : st.sessions.cell s = some ss) :
    Returns (wsTopicUnsubscribeAll st s) fun st' => TreeInv maxOf st' ∧ Cleared st st' s := by
  unfold wsTopicUnsubscribeAll
  simp only [readSession_ok hs, bind, Except.bind]
  exact wsTopicUnsubscribeAllLoop_spec _ inv hs (Nat.lt_succ_self _)

/-- What a destroyed session leaves behind. -/
structure Destroyed (st st' : TopicState) (s : SessionId) : Prop extends Left st st' s where
  self : st'.sessions.cell s = none

variable {nodes : Heap WsTopicNode} {sessions : Heap WsSession}

theorem SubInv.free (inv : SubInv nodes sessions) (hs : sessions.cell s = some ss)
    (left : ss.topics = []) : SubInv nodes (sessions.free s) := by
  refine ⟨?_, inv.once, ?_, ?_⟩
  · grind [SubInv.subs, free_cell_ne]
  · intro t tt sub htt member
    exact inv.topics (free_cell_eq_some.mp htt).2 member
  · intro t tt htt
    exact inv.filters (free_cell_eq_some.mp htt).2

theorem wsSessionDestroy_spec (inv : TreeInv maxOf st) (hs : st.sessions.cell s = some ss) :
    Returns (wsSessionDestroy st s) fun st' => TreeInv maxOf st' ∧ Destroyed st st' s := by
  refine (wsTopicUnsubscribeAll_spec inv hs).bind ?_
  rintro st1 ⟨inv1, cleared⟩
  have hs1 := cleared.self hs
  refine .pure ⟨{ inv1 with sub := inv1.sub.free hs1 rfl, session := ?_ }, ?_⟩
  · intro t tt htt
    exact inv1.session (free_cell_eq_some.mp htt).2
  · refine { cleared with self := free_cell_self _ _, others := ?_, walked := ?_ }
    · intro t other
      exact (free_cell_ne _ other).trans (cleared.others other)
    · intro walking
      have walked := cleared.walked walking
      refine { walked with sessions := ?_ }
      intro t tt htt
      exact walked.sessions (free_cell_eq_some.mp htt).2

/-! ## Subscribing -/

variable {nodes' : Heap WsTopicNode}

theorem NodeInv.grown (inv : NodeInv nodes dirty) (shape' : Shape nodes')
    (grown : Grown nodes nodes') (used' : NonEmptyExcept nodes' p) :
    NodeInv (nodes'.modify p fun n => { n with subs := n.subs ++ [some s] }) dirty := by
  -- the data of a node of the new heap is that of an old node, or that of a fresh one
  have back : ∀ {q m}, nodes'.cell q = some m → DirtyInv dirty q m := by
    intro q m hm
    cases old : nodes.cell q with
    | some k =>
      obtain ⟨m', hm', same, -⟩ := grown.old old
      rw [hm] at hm'
      cases hm'
      exact (inv.data old).congr same
    | none =>
      obtain ⟨subs, dead, dirtyFlag⟩ := grown.new hm old
      have absent : q ∉ dirty := by
        intro h
        exact not_live_iff.mpr old (inv.live q h)
      exact ⟨by simp [subs, dead], by simp [dirtyFlag, absent], by simp [subs, absent]⟩
  refine ⟨?_, ?_, ?_, ?_, inv.nodup⟩
  · exact shape'.modify (fun _ => rfl) (fun _ => ⟨rfl, rfl, rfl, rfl⟩)
  · intro q m' hm' qroot _
    obtain ⟨m, hm, rfl⟩ := modify_cell_eq_some.mp hm'
    split
    · exact wsNodeIsEmpty_of_subs (by simp)
    · next other => exact used' hm qroot other
  · intro q m' hm'
    obtain ⟨m, hm, rfl⟩ := modify_cell_eq_some.mp hm'
    obtain ⟨dead, flag, tombs⟩ := back hm
    constructor <;> grind
  · intro q hq
    rw [modify_live]
    obtain ⟨n, hn⟩ := live_iff.mp (inv.live q hq)
    obtain ⟨n', hn', -⟩ := grown.old hn
    exact live_iff.mpr ⟨n', hn'⟩

theorem SubInv.subscribe {filter : Bytes} (inv : SubInv nodes sessions) (shape' : Shape nodes')
    (grown : Grown nodes nodes') (path : findNode nodes' rootPtr (levelsOf filter) = some p)
    (hs : sessions.cell s = some ss) (fresh : ∀ sub ∈ ss.topics, sub.filter ≠ filter) :
    SubInv (nodes'.modify p fun n => { n with subs := n.subs ++ [some s] })
      (sessions.modify s fun ss => { ss with topics := ⟨p, filter⟩ :: ss.topics }) := by
  have back : ∀ {q m}, nodes'.cell q = some m → m.subs ≠ [] →
      ∃ n, nodes.cell q = some n ∧ m.subs = n.subs := by
    intro q m hm some
    cases old : nodes.cell q with
    | some n =>
      obtain ⟨m', hm', same, -⟩ := grown.old old
      grind [SameData.subs]
    | none => exact absurd (grown.new hm old).1 some
  have entries : ∀ {t tt}, sessions.cell t = some tt → ∀ sub ∈ tt.topics,
      ∃ tt', (sessions.modify s fun ss => { ss with topics := ⟨p, filter⟩ :: ss.topics }).cell t =
        some tt' ∧ sub ∈ tt'.topics := by
    grind [modify_cell]
  -- the session is not yet at this node: its filters have other paths
  have absent : ∀ {m}, nodes'.cell p = some m → some s ∉ m.subs := by
    intro m hm member
    obtain ⟨n, hn, same⟩ := back hm (ne_nil_of_mem member)
    rw [same] at member
    obtain ⟨tt, htt, sub, subMem, node⟩ := inv.subs hn member
    rw [hs] at htt
    cases htt
    have oldPath := grown.findNode (inv.topics hs subMem).1
    rw [node] at oldPath
    exact fresh sub subMem (levelsOf_injective (shape'.path_unique oldPath path))
  refine ⟨?_, ?_, ?_, ?_⟩
  · intro q m' t hm' ht
    obtain ⟨m, hm, rfl⟩ := modify_cell_eq_some.mp hm'
    have cases' : (q = p ∧ t = s) ∨ some t ∈ m.subs := by grind
    rcases cases' with ⟨rfl, rfl⟩ | old
    · exact ⟨_, by rw [modify_cell_self, hs]; rfl, ⟨q, filter⟩, by simp, rfl⟩
    · obtain ⟨n, hn, same⟩ := back hm (ne_nil_of_mem old)
      rw [same] at old
      obtain ⟨tt, htt, sub, member, node⟩ := inv.subs hn old
      obtain ⟨tt', htt', member'⟩ := entries htt sub member
      exact ⟨tt', htt', sub, member', node⟩
  · intro q m' hm' t
    obtain ⟨m, hm, rfl⟩ := modify_cell_eq_some.mp hm'
    have old : m.subs.count (some t) ≤ 1 := by
      by_cases empty : m.subs = []
      · simp [empty]
      · grind [SubInv.once]
    grind
  · intro t tt' sub htt' member
    obtain ⟨tt, htt, rfl⟩ := modify_cell_eq_some.mp htt'
    rw [findNode_modify (f := fun n => { n with subs := n.subs ++ [some s] }) (fun _ => rfl)]
    have cases' : (t = s ∧ sub = ⟨p, filter⟩) ∨ sub ∈ tt.topics := by grind
    rcases cases' with ⟨rfl, rfl⟩ | old
    · obtain ⟨m, hm⟩ := live_iff.mp (shape'.findNode_live shape'.live_root path)
      exact ⟨path, _, by rw [modify_cell_self, hm]; rfl, by simp⟩
    · obtain ⟨oldPath, n, hn, slot⟩ := inv.topics htt old
      obtain ⟨n', hn', same, -⟩ := grown.old hn
      refine ⟨grown.findNode oldPath, ?_⟩
      rw [modify_cell, hn']
      split
      · exact ⟨_, rfl, mem_append_left _ (by rw [same.subs]; exact slot)⟩
      · exact ⟨n', rfl, by rw [same.subs]; exact slot⟩
  · intro t tt' htt'
    obtain ⟨tt, htt, rfl⟩ := modify_cell_eq_some.mp htt'
    split
    · next here =>
      subst here
      rw [hs] at htt
      cases htt
      rw [map_cons, nodup_cons]
      refine ⟨?_, inv.filters hs⟩
      intro member
      obtain ⟨sub, subMem, same⟩ := mem_map.mp member
      exact fresh sub subMem same
    · exact inv.filters htt

theorem wsTopicSubscribe_spec (inv : TreeInv maxOf st) (hs : st.sessions.cell s = some ss)
    (id : ss.wsId ≠ 0) (filter : Bytes) : Returns (wsTopicSubscribe st s filter (maxOf s)) fun r =>
      TreeInv maxOf r.1 ∧ r.1.walking = st.walking := by
  unfold wsTopicSubscribe
  cases split : wsTopicSplit filter with
  | none => exact .pure ⟨inv, rfl⟩
  | some levels =>
    simp only [readSession_ok hs, bind, Except.bind]
    by_cases held : ss.topics.any (·.filter = filter) = true
    · grind [Returns.pure]
    · rw [if_neg held]
      by_cases full : maxOf s ≠ 0 ∧ ss.topics.length ≥ maxOf s
      · grind [Returns.pure]
      · rw [if_neg full]
        have fresh : ∀ sub ∈ ss.topics, sub.filter ≠ filter := by simpa using held
        refine (wsNodeDescend_spec _ inv.node.shape inv.node.shape.live_root
          inv.node.used).bind ?_
        rintro ⟨nodes', p⟩ ⟨shape', grown, path, used'⟩
        rw [bytes_of_wsTopicSplit split] at path
        refine .pure ⟨⟨inv.node.grown shape' grown used',
          inv.sub.subscribe shape' grown path hs fresh, ?_, inv.quiet, inv.nextId⟩, rfl⟩
        intro t tt' htt'
        obtain ⟨tt, htt, rfl⟩ := modify_cell_eq_some.mp htt'
        have old := inv.session htt
        split
        · next here =>
          subst here
          rw [hs] at htt
          cases htt
          refine ⟨fun limited => ?_, fun _ => id, old.mark⟩
          grind
        · exact old

theorem SubInv.congr (inv : SubInv nodes sessions)
    (topics : ∀ ss, (f ss).topics = ss.topics) : SubInv nodes (sessions.modify s f) := by
  have forth : ∀ {t tt}, sessions.cell t = some tt →
      ∃ tt', (sessions.modify s f).cell t = some tt' ∧ tt'.topics = tt.topics := by
    grind [modify_cell]
  have back : ∀ {t tt'}, (sessions.modify s f).cell t = some tt' →
      ∃ tt, sessions.cell t = some tt ∧ tt'.topics = tt.topics := by
    intro t tt' htt'
    obtain ⟨tt, htt, rfl⟩ := modify_cell_eq_some.mp htt'
    grind
  refine ⟨?_, inv.once, ?_, ?_⟩
  · grind [SubInv.subs]
  · grind [SubInv.topics]
  · grind [SubInv.filters]

theorem websocketSubscribe_spec (inv : TreeInv maxOf st) (hs : st.sessions.cell s = some ss)
    (filter : Bytes) : Returns (websocketSubscribe maxOf filter st s) fun st' =>
      TreeInv maxOf st' ∧ st'.walking = st.walking := by
  unfold websocketSubscribe
  by_cases valid : wsTopicIsValidFilter filter = true
  · rw [if_pos valid]
    simp only [readSession_ok hs, bind, Except.bind]
    by_cases unnamed : ss.wsId = 0
    · rw [if_pos unnamed]
      have hs' : (st.sessions.modify s ({ · with wsId := st.nextWsId })).cell s =
          some { ss with wsId := st.nextWsId } := by
        rw [modify_cell_self, hs]
        rfl
      have inv' : TreeInv maxOf { st with
          sessions := st.sessions.modify s ({ · with wsId := st.nextWsId })
          nextWsId := st.nextWsId + 1 } := by
        refine ⟨inv.node, inv.sub.congr (fun _ => rfl), ?_, inv.quiet, Nat.succ_ne_zero _⟩
        intro t tt' htt'
        obtain ⟨tt, htt, rfl⟩ := modify_cell_eq_some.mp htt'
        have old := inv.session htt
        split
        · exact { old with id := fun _ => inv.nextId }
        · exact old
      refine (wsTopicSubscribe_spec inv' hs' inv.nextId filter).bind ?_
      intro r kept
      exact .pure kept
    · rw [if_neg unnamed]
      refine (wsTopicSubscribe_spec inv hs unnamed filter).bind ?_
      intro r kept
      exact .pure kept
  · grind [Returns.pure]

/-! ## Settling -/

theorem wsNodeCompact_subs (n : WsTopicNode) (dead : n.dead = n.subs.count none) :
    (wsNodeCompact n).subs = n.subs.filter Option.isSome ∧ (wsNodeCompact n).dead = 0 := by
  unfold wsNodeCompact
  by_cases clean : n.dead = 0
  · rw [if_pos clean]
    refine ⟨?_, clean⟩
    have none_absent : none ∉ n.subs := count_eq_zero.mp (dead.symm.trans clean)
    rw [filter_eq_self.mpr]
    intro slot member
    cases slot with
    | none => exact absurd member none_absent
    | some t => rfl
  · rw [if_neg clean]
    exact ⟨rfl, rfl⟩

theorem wsNodeCompact_links (n : WsTopicNode) :
    (wsNodeCompact n).link = n.link ∧ (wsNodeCompact n).dirty = n.dirty := by
  unfold wsNodeCompact
  split <;> exact ⟨rfl, rfl⟩

theorem wsNodeCompact_same (n : WsTopicNode) :
    (wsNodeCompact n).parent = n.parent ∧ (wsNodeCompact n).kind = n.kind ∧
      (wsNodeCompact n).level = n.level ∧ (wsNodeCompact n).children = n.children := by
  unfold wsNodeCompact
  split <;> exact ⟨rfl, rfl, rfl, rfl⟩

/-- One turn of the settle loop. The nodes that are still to come have a tombstone each, so
they are not empty and the pruning of this one cannot free them. -/
theorem wsTreeSettleOne_spec (inv : NodeInv nodes (p :: rest))
    (sub : SubInv nodes sessions) : Returns (wsTreeSettleOne nodes p) fun nodes' =>
      NodeInv nodes' rest ∧ SubInv nodes' sessions := by
  obtain ⟨n, hn⟩ := live_iff.mp (inv.live p (by simp))
  let f : WsTopicNode → WsTopicNode := fun n => wsNodeCompact { n with dirty := false }
  have split : (nodes.modify p ({ · with dirty := false })).modify p wsNodeCompact =
      nodes.modify p f := modify_modify _ _ _ _
  have links : ∀ n, (f n).link = n.link := fun n => (wsNodeCompact_links _).1
  have shape1 : Shape (nodes.modify p f) :=
    inv.shape.modify links fun n => wsNodeCompact_same { n with dirty := false }
  have compacted : (f n).subs = n.subs.filter Option.isSome ∧ (f n).dead = 0 :=
    have dead : n.dead = n.subs.count none := (inv.data hn).dead
    wsNodeCompact_subs { n with dirty := false } dead
  have clean : (f n).dirty = false := (wsNodeCompact_links _).2
  have notAhead : p ∉ rest := (nodup_cons.mp inv.nodup).1
  have used1 : NonEmptyExcept (nodes.modify p f) p := by
    intro q m hm qroot qp
    rw [modify_cell_ne _ _ qp] at hm
    exact inv.used hm qroot qroot
  -- data of the nodes once `p` is compacted
  have data : ∀ {q m}, (nodes.modify p f).cell q = some m → DirtyInv rest q m := by
    intro q m hm
    obtain ⟨k, hk, rfl⟩ := modify_cell_eq_some.mp hm
    obtain ⟨dead, flag, tombs⟩ := inv.data hk
    by_cases here : q = p
    · subst here
      rw [hn] at hk
      cases hk
      have whole : none ∉ (f n).subs := by simp [compacted]
      rw [if_pos rfl]
      exact ⟨compacted.2.trans (count_eq_zero.mpr whole).symm, by simp [clean, notAhead],
        iff_of_false whole notAhead⟩
    · constructor <;> grind
  have sub1 : SubInv (nodes.modify p f) sessions := by
    refine ⟨?_, ?_, ?_, sub.filters⟩
    · intro q m t hm ht
      obtain ⟨k, hk, rfl⟩ := modify_cell_eq_some.mp hm
      by_cases here : q = p
      · subst here
        rw [hn] at hk
        cases hk
        rw [if_pos rfl, compacted.1] at ht
        exact sub.subs hn (mem_of_mem_filter ht)
      · rw [if_neg here] at ht
        exact sub.subs hk ht
    · intro q m hm t
      obtain ⟨k, hk, rfl⟩ := modify_cell_eq_some.mp hm
      by_cases here : q = p
      · subst here
        rw [hn] at hk
        cases hk
        rw [if_pos rfl, compacted.1, count_filter (by rfl)]
        exact sub.once hn t
      · rw [if_neg here]
        exact sub.once hk t
    · intro t tt entry htt member
      obtain ⟨path, k, hk, slot⟩ := sub.topics htt member
      rw [findNode_modify links]
      grind [modify_cell_self, modify_cell_ne]
  unfold wsTreeSettleOne
  rw [readNode_ok hn]
  simp only [bind, Except.bind, split]
  have live1 : (nodes.modify p f).Live p := by
    rw [modify_live]
    exact live_iff.mpr ⟨n, hn⟩
  refine (wsNodePrune_spec shape1 live1 used1).mono ?_
  rintro nodes' ⟨shape', pruned, used'⟩
  refine ⟨⟨shape', used', ?_, ?_, (nodup_cons.mp inv.nodup).2⟩,
    sub1.pruned shape1 shape' pruned⟩
  · intro q m' hm'
    obtain ⟨m, hm, same, -⟩ := pruned.back hm'
    exact (data hm).congr same
  · intro q ahead
    have liveq : (nodes.modify p f).Live q := by grind [modify_live, NodeInv.live]
    obtain ⟨m, hm⟩ := live_iff.mp liveq
    exact pruned.keep hm (ne_nil_of_mem ((data hm).tombs.mpr ahead))

theorem wsTreeSettle_spec (node : NodeInv st.nodes st.dirty) (sub : SubInv st.nodes st.sessions)
    (session : ∀ {s ss}, st.sessions.cell s = some ss → SessionInv (maxOf s) st.mark ss)
    (nextId : st.nextWsId ≠ 0) :
    Returns (wsTreeSettle st) fun st' => TreeInv maxOf st' ∧ st'.walking = st.walking ∧
      st'.mark = st.mark ∧ st'.sessions = st.sessions := by
  refine .bind (.foldlM_rest
    (I := fun dirty nodes => NodeInv nodes dirty ∧ SubInv nodes st.sessions)
    (fun {_ _ _} ⟨node, sub⟩ => wsTreeSettleOne_spec node sub) ⟨node, sub⟩) ?_
  rintro nodes' ⟨node', sub'⟩
  exact .pure ⟨⟨node', sub', session, fun _ => rfl, nextId⟩, rfl, rfl, rfl⟩

end Ops

end TrueAsync.Websocket

import TrueAsync.Websocket.TopicOps

/-!
# Walks over the topic tree

`wsTopicWalk_spec` is the rule for a walk: whatever one visited subscriber keeps, the whole
walk keeps, and every subscriber still standing at a matched node has been seen. The sends
of a walk may tear sessions down, so the rule is stated against `Walked`.

The second half runs the rule for the safety of re-entrant teardown: no run of calls reads
a freed node or a removed session, and the tree is clean whenever no walk is in flight.
-/

namespace TrueAsync.Websocket

open TrueAsync.Lib Heap List WsTopicNode

/-! ## Matched nodes -/

variable {nodes : Heap WsTopicNode} {n : WsTopicNode} {level : Bytes} {c : Ptr}

theorem Shape.child_live (shape : Shape nodes) (hn : nodes.cell p = some n)
    (link : n.link level = some c) : nodes.Live c := by
  obtain ⟨m, hm, -⟩ := shape.down hn link
  exact live_iff.mpr ⟨m, hm⟩

/-- The nodes whose path from `node`, read as a filter, matches `levels`. -/
def Matched (nodes : Heap WsTopicNode) (node : Ptr) (levels : List Bytes) (q : Ptr) : Prop :=
  ∃ path, findNode nodes node path = some q ∧ Pattern.accepts (path.map patternOf) levels = true

theorem patternOf_literal (h : kindOf level = .literal) : patternOf level = .lit level := by
  have notPlus : level ≠ plusLevel := by
    rintro rfl
    cases h
  have notHash : level ≠ hashLevel := by
    rintro rfl
    cases h
  simp [patternOf, notPlus, notHash]

variable {node q : Ptr} {rest : List Bytes}

theorem matched_plus (hn : nodes.cell node = some n) (plus : n.plus = some c)
    (h : Matched nodes c rest q) : Matched nodes node (level :: rest) q := by
  obtain ⟨path, found, accepts⟩ := h
  refine ⟨plusLevel :: path, findNode_cons.mpr ⟨n, c, hn, plus, found⟩, ?_⟩
  grind [patternOf, Pattern.accepts_one_cons]

theorem matched_literal (hn : nodes.cell node = some n) (keys : n.LiteralKeys)
    (child : n.children.lookup level = some c)
    (h : Matched nodes c rest q) : Matched nodes node (level :: rest) q := by
  obtain ⟨path, found, accepts⟩ := h
  refine ⟨level :: path, findNode_cons.mpr ⟨n, c, hn, keys.link child, found⟩, ?_⟩
  have literal : kindOf level = .literal := keys level (AList.lookup_isSome.mp (by rw [child]; rfl))
  rw [map_cons, patternOf_literal literal, Pattern.accepts_lit_cons]
  simpa using accepts

variable {levels : List Bytes}

theorem Matched.cases (hn : nodes.cell node = some n)
    (h : Matched nodes node levels q) : n.hash = some q ∨ (levels = [] ∧ q = node) ∨
      ∃ level rest c, levels = level :: rest ∧ Matched nodes c rest q ∧
        (n.children.lookup level = some c ∨ n.plus = some c) := by
  obtain ⟨path, found, accepts⟩ := h
  cases path with
  | nil => simp_all
  | cons level path =>
    obtain ⟨n', c, hn', link, below⟩ := findNode_cons.mp found
    rw [hn] at hn'
    cases hn'
    rw [map_cons] at accepts
    cases kind : kindOf level with
    | root => exact absurd kind (kindOf_ne_root level)
    | hash =>
      cases kindOf_eq_hash.mp kind
      cases path with
      | nil =>
        simp only [findNode_nil, Option.some.injEq] at below
        subst below
        exact .inl link
      | cons level path =>
        cases accepts
    | plus =>
      cases kindOf_eq_plus.mp kind
      rw [show patternOf plusLevel = .one from rfl] at accepts
      cases levels with
      | nil => simp at accepts
      | cons level rest =>
        exact .inr (.inr ⟨level, rest, c, rfl, ⟨path, below, accepts⟩, .inr link⟩)
    | literal =>
      rw [patternOf_literal kind] at accepts
      cases levels with
      | nil => simp at accepts
      | cons first rest =>
        rw [Pattern.accepts_lit_cons, Bool.and_eq_true, decide_eq_true_eq] at accepts
        obtain ⟨rfl, accepts⟩ := accepts
        unfold WsTopicNode.link at link
        rw [kind] at link
        exact .inr (.inr ⟨level, rest, c, rfl, ⟨path, below, accepts⟩, .inl link⟩)

theorem Matched.live (h : Matched nodes node levels q) (shape : Shape nodes)
    (live : nodes.Live node) : nodes.Live q := by
  obtain ⟨path, found, -⟩ := h
  exact shape.findNode_live live found

variable {p : Ptr} {st' : TopicState}

theorem Walked.findNode (h : Walked st st') (shape : Shape st.nodes) (live : st.nodes.Live p)
    (path : List Bytes) : findNode st'.nodes p path = findNode st.nodes p path := by
  induction path generalizing p with
  | nil => rfl
  | cons level path ih =>
    obtain ⟨n, hn⟩ := live_iff.mp live
    obtain ⟨n', hn', children, plus, hash, -⟩ := h.nodes hn
    have links : n'.link level = n.link level := by
      unfold link
      rw [children, plus, hash]
    rw [findNode, findNode, hn, hn', Option.bind_some, Option.bind_some, links]
    cases link : n.link level with
    | none => rfl
    | some c => exact ih (shape.child_live hn link)

theorem Walked.matched {st : TopicState} (h : Walked st st') (shape : Shape st.nodes)
    (live : st.nodes.Live p) : Matched st'.nodes p levels q ↔ Matched st.nodes p levels q := by
  unfold Matched
  simp only [h.findNode shape live]

/-! ## The rule for walks -/

section Rule

variable {send : TrySend} {visited : Ptr → Prop} {P : TopicState → WsTopicVisit → Prop}
  {Seen : SessionId → TopicState → WsTopicVisit → Prop}

/-- What holds from the start to the end of any part of a walk. -/
structure Ran (P : TopicState → WsTopicVisit → Prop)
    (Seen : SessionId → TopicState → WsTopicVisit → Prop)
    (before after : TopicState × WsTopicVisit) : Prop where
  post : P after.1 after.2
  walked : Walked before.1 after.1
  seen : ∀ t, Seen t before.1 before.2 → Seen t after.1 after.2

/-- Every subscriber at `p` has been seen. -/
def Covered (Seen : SessionId → TopicState → WsTopicVisit → Prop) (p : Ptr)
    (r : TopicState × WsTopicVisit) : Prop :=
  ∀ n, r.1.nodes.cell p = some n → ∀ t, some t ∈ n.subs → Seen t r.1 r.2

/-- The premise of the rule: one visited subscriber keeps `P`, forgets none of the seen
subscribers and is seen itself. -/
structure WalkRule (send : TrySend) (visited : Ptr → Prop)
    (P : TopicState → WsTopicVisit → Prop)
    (Seen : SessionId → TopicState → WsTopicVisit → Prop) : Prop where
  shape : ∀ {st visit}, P st visit → Shape st.nodes
  one : ∀ {st visit p n s}, P st visit → visited p → st.nodes.cell p = some n →
    some s ∈ n.subs → Returns (wsTopicVisitOne send st visit (some s)) fun r =>
      Ran P Seen (st, visit) r ∧ Seen s r.1 r.2

variable {visit : WsTopicVisit} {st : TopicState}

theorem Ran.refl (h : P st visit) : Ran P Seen (st, visit) (st, visit) :=
  ⟨h, .refl _, fun _ seen => seen⟩

variable {a b : TopicState × WsTopicVisit}

theorem Ran.trans {c : TopicState × WsTopicVisit} (h : Ran P Seen a b)
    (h' : Ran P Seen b c) : Ran P Seen a c :=
  ⟨h'.post, h.walked.trans h'.walked, fun t seen => h'.seen t (h.seen t seen)⟩

theorem Ran.covered (h : Ran P Seen a b)
    (live : a.1.nodes.Live p) (covered : Covered Seen p a) : Covered Seen p b := by
  intro n' hn' t member
  obtain ⟨n, hn⟩ := live_iff.mp live
  obtain ⟨n1, hn1, -, -, -, tombs⟩ := h.walked.nodes hn
  rw [hn'] at hn1
  cases hn1
  exact h.seen t (covered n hn t (tombs.mem member))

theorem wsTopicVisitLoop_spec (rule : WalkRule send visited P Seen) (here : visited p)
    (fuel i : Nat) {n : WsTopicNode} (start : P st visit) (hn : st.nodes.cell p = some n)
    (reached : i ≤ n.subs.length) (enough : n.subs.length < fuel + i) :
    Returns (wsTopicVisitLoop send p fuel i st visit) fun r => Ran P Seen (st, visit) r ∧
      ∀ n', r.1.nodes.cell p = some n' → ∀ j t, i ≤ j → n'.subs[j]? = some (some t) →
        Seen t r.1 r.2 := by
  induction fuel generalizing i st visit n with
  | zero => omega
  | succ fuel ih =>
    unfold wsTopicVisitLoop
    rw [readNode_ok hn]
    simp only [bind, Except.bind]
    cases slot : n.subs[i]? with
    | none => grind [Returns.pure, Ran.refl]
    | some entry =>
      have inside : i < n.subs.length := (List.getElem?_eq_some_iff.mp slot).1
      -- the turn for slot `i`, whatever it holds
      have turn : Returns (wsTopicVisitOne send st visit entry) fun r =>
          Ran P Seen (st, visit) r ∧ ∀ t, entry = some t → Seen t r.1 r.2 := by
        cases entry with
        | none => exact .pure ⟨.refl start, by simp⟩
        | some s =>
          refine (rule.one start here hn (List.mem_of_getElem? slot)).mono ?_
          intro r ran
          refine ⟨ran.1, fun t same => ?_⟩
          cases same
          exact ran.2
      refine turn.bind ?_
      intro r1 ran1
      obtain ⟨n1, hn1, -, -, -, tombs1⟩ := ran1.1.walked.nodes hn
      refine (ih (i + 1) ran1.1.post hn1 (by rw [tombs1.1]; omega)
        (by rw [tombs1.1]; omega)).mono ?_
      intro r ran
      refine ⟨ran1.1.trans ran.1, ?_⟩
      intro n' hn' j t past found
      by_cases first : j = i
      · -- what still stands in slot `i` stood there when the slot was read
        subst first
        obtain ⟨n2, hn2, -, -, -, tombs⟩ := (ran1.1.trans ran.1).walked.nodes hn
        rw [hn'] at hn2
        cases hn2
        rcases tombs.2 j with same | tomb
        · rw [found, slot] at same
          cases same
          exact ran.1.seen t (ran1.2 t rfl)
        · rw [found] at tomb
          cases tomb
      · exact ran.2 n' hn' j t (by omega) found

theorem wsTopicVisit_spec (rule : WalkRule send visited P Seen) (here : visited p)
    (start : P st visit) (live : st.nodes.Live p) : Returns (wsTopicVisit send st visit p) fun r =>
      Ran P Seen (st, visit) r ∧ Covered Seen p r := by
  obtain ⟨n, hn⟩ := live_iff.mp live
  unfold wsTopicVisit
  rw [readNode_ok hn]
  refine (wsTopicVisitLoop_spec rule here _ 0 start hn (Nat.zero_le _) (by omega)).mono ?_
  intro r ran
  refine ⟨ran.1, ?_⟩
  intro n' hn' t member
  obtain ⟨j, found⟩ := mem_iff_getElem?.mp member
  exact ran.2 n' hn' j t (Nat.zero_le j) found

theorem unlessNull_spec {Q : Ptr → TopicState × WsTopicVisit → Prop} (start : P st visit)
    (run : ∀ c, child = some c → Returns (f c) fun r => Ran P Seen (st, visit) r ∧ Q c r) :
    Returns (unlessNull st visit child f) fun r =>
      Ran P Seen (st, visit) r ∧ ∀ c, child = some c → Q c r := by
  cases child with
  | none => exact .pure ⟨.refl start, by simp⟩
  | some c =>
    refine (run c rfl).mono ?_
    simp

theorem visitHash_spec (rule : WalkRule send visited P Seen) {n : WsTopicNode} (start : P st visit)
    (hn : st.nodes.cell node = some n) (sound : ∀ q, Matched st.nodes node levels q → visited q) :
    Returns (unlessNull st visit n.hash (wsTopicVisit send st visit)) fun r =>
      Ran P Seen (st, visit) r ∧ ∀ c, n.hash = some c → Covered Seen c r := by
  apply unlessNull_spec start
  intro c hash
  have live := (rule.shape start).child_live hn (show n.link hashLevel = some c from hash)
  refine wsTopicVisit_spec rule (sound c ?_) start live
  exact ⟨[hashLevel], findNode_cons.mpr ⟨n, c, hn, hash, rfl⟩, Pattern.accepts_rest levels⟩

theorem wsTopicWalk_spec (rule : WalkRule send visited P Seen) (levels : List Bytes)
    (start : P st visit) (live : st.nodes.Live node)
    (sound : ∀ q, Matched st.nodes node levels q → visited q) :
    Returns (wsTopicWalk send st visit node levels) fun r => Ran P Seen (st, visit) r ∧
      ∀ q, Matched st.nodes node levels q → Covered Seen q r := by
  induction levels generalizing st visit node with
  | nil =>
    obtain ⟨n, hn⟩ := live_iff.mp live
    unfold wsTopicWalk
    rw [readNode_ok hn]
    refine (visitHash_spec rule start hn sound).bind ?_
    rintro ⟨st1, visit1⟩ ⟨ran1, hashDone⟩
    have self : visited node := sound node ⟨[], rfl, rfl⟩
    refine (wsTopicVisit_spec rule self ran1.post (ran1.walked.live live)).mono ?_
    rintro r ⟨ran, selfDone⟩
    refine ⟨ran1.trans ran, ?_⟩
    intro q matched
    have liveq : st.nodes.Live q := matched.live (rule.shape start) live
    rcases matched.cases hn with hash | ⟨-, rfl⟩ | ⟨_, _, _, impossible, -⟩
    · exact ran.covered (ran1.walked.live liveq) (hashDone q hash)
    · exact selfDone
    · cases impossible
  | cons level rest ih =>
    obtain ⟨n, hn⟩ := live_iff.mp live
    have shape := rule.shape start
    -- a child of the node, from any later state of the walk
    have descend : ∀ {st' visit' c}, Ran P Seen (st, visit) (st', visit') →
        (n.children.lookup level = some c ∨ n.plus = some c) →
        Returns (wsTopicWalk send st' visit' c rest) fun r => Ran P Seen (st', visit') r ∧
          ∀ q, Matched st.nodes c rest q → Covered Seen q r := by
      intro st' visit' c ran child
      have childLive : st.nodes.Live c := by
        rcases child with literal | plus
        · exact shape.child_live hn ((shape.keys hn).link literal)
        · exact shape.child_live hn (show n.link plusLevel = some c from plus)
      have same : ∀ {q}, Matched st'.nodes c rest q ↔ Matched st.nodes c rest q :=
        ran.walked.matched shape childLive
      refine (ih ran.post (ran.walked.live childLive) ?_).mono ?_
      · grind [matched_literal, Shape.keys, matched_plus]
      · grind
    unfold wsTopicWalk
    rw [readNode_ok hn]
    refine (visitHash_spec rule start hn sound).bind ?_
    rintro ⟨st1, visit1⟩ ⟨ran1, hashDone⟩
    obtain ⟨n1, hn1, children1, -, -, -⟩ := ran1.walked.nodes hn
    simp only [readNode_ok hn1, children1, bind, Except.bind]
    refine (unlessNull_spec ran1.post fun c child => descend ran1 (.inl child)).bind ?_
    rintro ⟨st2, visit2⟩ ⟨ran2, literalDone⟩
    have ran02 := ran1.trans ran2
    obtain ⟨n2, hn2, -, plus2, -, -⟩ := ran02.walked.nodes hn
    simp only [readNode_ok hn2, plus2]
    refine (unlessNull_spec ran2.post fun c child => descend ran02 (.inr child)).mono ?_
    rintro r ⟨ran3, plusDone⟩
    refine ⟨ran02.trans ran3, ?_⟩
    intro q matched
    have liveq : st.nodes.Live q := matched.live shape live
    rcases matched.cases hn with hash | ⟨impossible, -⟩ | ⟨_, _, c, same, below, child⟩
    · exact (ran2.trans ran3).covered (ran1.walked.live liveq) (hashDone q hash)
    · cases impossible
    · cases same
      rcases child with literal | plus
      · exact ran3.covered (ran02.walked.live liveq) (literalDone c literal q below)
      · exact plusDone c plus q below

end Rule

/-! ## Safety under re-entrant teardown -/

section Safety

variable {maxOf : SessionId → Nat} {st : TopicState} {s : SessionId} {ss : WsSession}

/-- A send that keeps the invariant and respects the walk it is called from. -/
def SendOk (maxOf : SessionId → Nat) (send : TrySend) : Prop :=
  ∀ k s st, TreeInv maxOf st → 0 < st.walking →
    Returns (send k s st) fun r => TreeInv maxOf r.1 ∧ Walked st r.1

theorem TreeInv.stamp (inv : TreeInv maxOf st) : TreeInv maxOf { st with
      sessions := st.sessions.modify s ({ · with topicMark := st.mark }) } := by
  refine { inv with sub := inv.sub.congr (fun _ => rfl), session := ?_ }
  intro t tt' htt'
  obtain ⟨tt, htt, rfl⟩ := modify_cell_eq_some.mp htt'
  have old := inv.session htt
  split
  · exact ⟨old.bounded, old.id, le_rfl⟩
  · exact old

theorem walked_stamp (st : TopicState) (s : SessionId) : Walked st { st with
      sessions := st.sessions.modify s ({ · with topicMark := st.mark }) } where
  walking := rfl
  nodes := (Walked.refl st).nodes
  sessions := by
    intro t tt' htt'
    obtain ⟨tt, htt, rfl⟩ := modify_cell_eq_some.mp htt'
    refine ⟨tt, htt, ?_⟩
    split <;> rfl

variable {send : TrySend}

theorem wsTopicVisitOne_some
    (hs : st.sessions.cell s = some ss) : wsTopicVisitOne send st visit (some s) =
      if ss.wsId = visit.exceptId ∨ ss.topicMark = st.mark then pure (st, visit) else
        let st := { st with
          sessions := st.sessions.modify s ({ · with topicMark := st.mark }) }
        if ¬ visit.shouldDeliver then pure (st, { visit with hits := visit.hits + 1 })
        else send visit.attempts.length s st >>= fun r => pure (r.1, { visit with
          hits := if r.2 then visit.hits + 1 else visit.hits
          attempts := visit.attempts ++ [s] }) := by
  simp only [wsTopicVisitOne, readSession_ok hs, bind, Except.bind]

theorem walkRule_treeInv (ok : SendOk maxOf send) :
    WalkRule send (fun _ => True) (fun st _ => TreeInv maxOf st ∧ 0 < st.walking)
      (fun _ _ _ => True) where
  shape := fun start => start.1.node.shape
  one := by
    rintro st visit p n s ⟨inv, walking⟩ _ hn member
    obtain ⟨ss, hs, -⟩ := inv.sub.subs hn member
    rw [wsTopicVisitOne_some hs]
    by_cases skip : ss.wsId = visit.exceptId ∨ ss.topicMark = st.mark
    · grind [Returns.pure, Ran.refl]
    · rw [if_neg skip]
      have stamped := walked_stamp st s
      by_cases deliver : visit.shouldDeliver = true
      · rw [if_neg (by simp [deliver])]
        refine (ok _ s _ inv.stamp walking).bind ?_
        rintro ⟨st', taken⟩ ⟨inv', walked⟩
        refine .pure ⟨⟨⟨inv', ?_⟩, stamped.trans walked, fun _ _ => trivial⟩, trivial⟩
        rw [walked.walking]
        exact walking
      · rw [if_pos (by simpa using deliver)]
        exact .pure ⟨⟨⟨inv.stamp, walking⟩, stamped, fun _ _ => trivial⟩, trivial⟩

theorem TreeInv.enter (inv : TreeInv maxOf st) :
    TreeInv maxOf { st with mark := st.mark + 1, walking := st.walking + 1 } := by
  refine ⟨inv.node, inv.sub, ?_, fun quiet => absurd quiet (Nat.succ_ne_zero _), inv.nextId⟩
  intro s ss hs
  have old := inv.session hs
  exact ⟨old.bounded, old.id, Nat.le_succ_of_le old.mark⟩

theorem leave_spec (inv : TreeInv maxOf st) (outer : Nat) (walking : st.walking = outer + 1)
    (visit : WsTopicVisit) : Returns (if st.walking - 1 = 0 then do
        let st ← wsTreeSettle { st with walking := st.walking - 1 }
        pure (st, visit)
      else pure ({ st with walking := st.walking - 1 }, visit)) fun r =>
      TreeInv maxOf r.1 ∧ r.1.walking = outer ∧ r.1.mark = st.mark ∧ r.2 = visit ∧
        r.1.sessions = st.sessions ∧ (0 < outer → r.1.nodes = st.nodes) := by
  rw [walking, Nat.add_sub_cancel]
  by_cases outermost : outer = 0
  · rw [if_pos outermost]
    refine .bind (wsTreeSettle_spec (by exact inv.node) (by exact inv.sub)
      (by exact inv.session) (by exact inv.nextId)) ?_
    grind [Returns.pure]
  · rw [if_neg outermost]
    exact .pure ⟨{ inv with quiet := fun quiet => absurd quiet outermost }, rfl, rfl, rfl, rfl,
      fun _ => rfl⟩

theorem wsTopicMatch_safe (ok : SendOk maxOf send) (inv : TreeInv maxOf st)
    (topic : Bytes) : Returns (wsTopicMatch send st topic visit) fun r =>
      TreeInv maxOf r.1 ∧ r.1.walking = st.walking ∧ (0 < st.walking → Walked st r.1) := by
  unfold wsTopicMatch
  cases wsTopicSplit topic with
  | none => exact .pure ⟨inv, rfl, fun _ => .refl _⟩
  | some levels =>
    refine (wsTopicWalk_spec (walkRule_treeInv ok) _ ⟨inv.enter, Nat.succ_pos _⟩
      inv.node.shape.live_root fun _ _ => trivial).bind ?_
    rintro ⟨st1, visit1⟩ ⟨ran, _⟩
    have walked := ran.walked
    refine (leave_spec ran.post.1 st.walking walked.walking visit1).mono ?_
    rintro r ⟨inv', walking', _, _, sessions', nodes'⟩
    refine ⟨inv', walking', fun nested => ⟨walking', ?_, ?_⟩⟩
    · rw [nodes' nested]
      exact walked.nodes
    · rw [sessions']
      exact walked.sessions

theorem onSession_spec (gone : Q st)
    (run : ∀ ss, st.sessions.cell s = some ss → Returns (f st s) Q) :
    Returns (onSession st s f) Q := by
  unfold onSession
  split
  · next live =>
    obtain ⟨ss, hs⟩ := live_iff.mp live
    exact run ss hs
  · exact .pure gone

theorem SendScript.run_safe (script : SendScript) (inv : TreeInv maxOf st)
    (walking : 0 < st.walking) :
    Returns (script.run st) fun r => TreeInv maxOf r.1 ∧ Walked st r.1 := by
  -- a session leaves, and the script goes on
  have leaves {st : TopicState} {f} (inv : TreeInv maxOf st) (walking : 0 < st.walking)
      (session : SessionId) (next : SendScript)
      (ih : ∀ {st}, TreeInv maxOf st → 0 < st.walking →
        Returns (next.run st) fun r => TreeInv maxOf r.1 ∧ Walked st r.1)
      (run : ∀ ss, st.sessions.cell session = some ss →
        Returns (f st session) fun st' => TreeInv maxOf st' ∧ Walked st st') :
      Returns (onSession st session f >>= next.run) fun r => TreeInv maxOf r.1 ∧ Walked st r.1 := by
    refine (onSession_spec ⟨inv, .refl _⟩ run).bind ?_
    rintro st1 ⟨inv1, walked1⟩
    refine (ih inv1 (by rw [walked1.walking]; exact walking)).mono ?_
    grind [Walked.trans]
  induction script generalizing st with
  | done taken => exact .pure ⟨inv, .refl _⟩
  | unsubscribeAll session next ih =>
    refine leaves inv walking session next ih fun ss hs => (wsTopicUnsubscribeAll_spec inv hs).mono ?_
    rintro st' ⟨inv', cleared⟩
    exact ⟨inv', cleared.walked walking⟩
  | destroy session next ih =>
    refine leaves inv walking session next ih fun ss hs => (wsSessionDestroy_spec inv hs).mono ?_
    rintro st' ⟨inv', destroyed⟩
    exact ⟨inv', destroyed.walked walking⟩
  | publish topic exceptId sends next sendsOk nextOk =>
    have ok : SendOk maxOf fun k _ => (sends k).run :=
      fun k _ st inv walking => sendsOk k inv walking
    refine (wsTopicMatch_safe ok inv topic).bind ?_
    rintro r1 ⟨inv1, walking1, walked1⟩
    refine (nextOk inv1 (by rw [walking1]; exact walking)).mono ?_
    rintro r ⟨inv', walked⟩
    exact ⟨inv', (walked1 walking).trans walked⟩

theorem TreeInv.connect (inv : TreeInv maxOf st) :
    TreeInv maxOf { st with sessions := st.sessions.alloc ⟨0, [], 0⟩ } := by
  refine { inv with sub := ⟨?_, inv.sub.once, ?_, ?_⟩, session := ?_ }
  · grind [TreeInv.sub, SubInv.subs, alloc_cell_of_some]
  · intro t tt sub htt member
    rcases alloc_cell_eq_some.mp htt with ⟨-, rfl⟩ | htt
    · cases member
    · exact inv.sub.topics htt member
  · intro t tt htt
    rcases alloc_cell_eq_some.mp htt with ⟨-, rfl⟩ | htt
    · exact nodup_nil
    · exact inv.sub.filters htt
  · intro t tt htt
    rcases alloc_cell_eq_some.mp htt with ⟨-, rfl⟩ | htt
    · exact ⟨fun _ => Nat.zero_le _, fun some => absurd rfl some, Nat.zero_le _⟩
    · exact inv.session htt

theorem TopicOp.run_safe (op : TopicOp) (inv : TreeInv maxOf st) (quiet : st.walking = 0) :
    Returns (op.run maxOf st) fun st' => TreeInv maxOf st' ∧ st'.walking = 0 := by
  cases op with
  | connect => exact .pure ⟨inv.connect, quiet⟩
  | subscribe session filter =>
    refine onSession_spec ⟨inv, quiet⟩ fun ss hs => ?_
    grind [websocketSubscribe_spec]
  | unsubscribe session filter =>
    unfold TopicOp.run
    refine onSession_spec ⟨inv, quiet⟩ fun ss hs => ?_
    refine (wsTopicUnsubscribe_spec inv hs filter).bind ?_
    grind [Returns.pure]
  | unsubscribeAll session =>
    refine onSession_spec ⟨inv, quiet⟩ fun ss hs => ?_
    refine (wsTopicUnsubscribeAll_spec inv hs).mono ?_
    rintro st' ⟨inv', cleared⟩
    exact ⟨inv', cleared.walking.trans quiet⟩
  | destroy session =>
    refine onSession_spec ⟨inv, quiet⟩ fun ss hs => ?_
    refine (wsSessionDestroy_spec inv hs).mono ?_
    rintro st' ⟨inv', destroyed⟩
    exact ⟨inv', destroyed.walking.trans quiet⟩
  | publish topic exceptId sends =>
    have ok : SendOk maxOf fun k _ => (sends k).run :=
      fun k _ st inv walking => (sends k).run_safe inv walking
    refine (wsTopicMatch_safe ok inv topic).bind ?_
    grind [Returns.pure]
  | count topic =>
    have ok : SendOk maxOf fun _ _ st => pure (st, true) := fun _ _ st inv _ => .pure ⟨inv, .refl _⟩
    unfold TopicOp.run wsTopicCount
    simp only [bind_assoc]
    refine (wsTopicMatch_safe ok inv topic).bind ?_
    grind [Returns.pure]

theorem TreeInv.create (maxOf : SessionId → Nat) : TreeInv maxOf wsTopicTreeCreate := by
  have only : ∀ {p n}, wsTopicTreeCreate.nodes.cell p = some n →
      p = rootPtr ∧ n = .new rootPtr .root [] := by
    intro p n hn
    rcases alloc_cell_eq_some.mp hn with root | old
    · exact root
    · cases old
  have noLink : ∀ level, (new rootPtr .root []).link level = none := link_of_wsNodeIsEmpty rfl
  have shape : Shape wsTopicTreeCreate.nodes := by
    refine ⟨⟨_, alloc_cell_self _ _, rfl⟩, ?_, ?_, ?_⟩
    · intro p n hn ne
      exact absurd (only hn).1 ne
    · grind
    · intro p n hn
      rw [(only hn).2]
      exact fun level member => absurd member (AList.notMem_empty _)
  refine ⟨⟨shape, ?_, ?_, nofun, nodup_nil⟩, ⟨?_, ?_, ?_, ?_⟩, ?_, fun _ => rfl, ?_⟩
  · intro p n hn ne
    exact absurd (only hn).1 ne
  · intro p n hn
    rw [(only hn).2]
    constructor <;> simp [new, wsTopicTreeCreate]
  · intro p n s hn member
    rw [(only hn).2] at member
    cases member
  · intro p n hn s
    rw [(only hn).2]
    exact Nat.zero_le _
  · rintro s ss sub ⟨⟩
  · rintro s ss ⟨⟩
  · rintro s ss ⟨⟩
  · exact Nat.one_ne_zero

theorem runTopicOps_safe (maxOf : SessionId → Nat) (ops : List TopicOp) :
    Returns (runTopicOps maxOf ops) fun st => TreeInv maxOf st ∧ st.walking = 0 := by
  apply Returns.foldlM
  · rintro st op _ ⟨inv, quiet⟩
    exact op.run_safe inv quiet
  · exact ⟨.create maxOf, rfl⟩

/-- What holds of a tree that no walk stands on. -/
structure Quiescent (maxOf : SessionId → Nat) (st : TopicState) : Prop where
  noTombstone : ∀ {p n}, st.nodes.cell p = some n → none ∉ n.subs ∧ n.dead = 0
  noDirty : st.dirty = []
  noEmpty : ∀ {p n}, st.nodes.cell p = some n → p ≠ rootPtr → wsNodeIsEmpty n = false
  /-- a subscriber is a live session that holds the filter of the node, and conversely -/
  subscribed : ∀ {p n s}, st.nodes.cell p = some n → (some s ∈ n.subs ↔
    ∃ ss, st.sessions.cell s = some ss ∧ ∃ filter ∈ ss.topics.map (·.filter),
      findNode st.nodes rootPtr (levelsOf filter) = some p)
  filters : ∀ {s ss}, st.sessions.cell s = some ss → (ss.topics.map (·.filter)).Nodup
  bounded : ∀ {s ss}, st.sessions.cell s = some ss → maxOf s ≠ 0 → ss.topics.length ≤ maxOf s

theorem TreeInv.quiescent (inv : TreeInv maxOf st) (quiet : st.walking = 0) :
    Quiescent maxOf st := by
  have clean : st.dirty = [] := inv.quiet quiet
  refine ⟨?_, clean, ?_, ?_, inv.sub.filters, fun hs => (inv.session hs).bounded⟩
  · intro p n hn
    have none_absent : none ∉ n.subs := by
      rw [(inv.node.data hn).tombs, clean]
      exact not_mem_nil
    exact ⟨none_absent, (inv.node.data hn).dead.trans (count_eq_zero.mpr none_absent)⟩
  · intro p n hn ne
    exact inv.node.used hn ne ne
  · intro p n s hn
    constructor
    · intro member
      obtain ⟨ss, hs, sub, subMem, node⟩ := inv.sub.subs hn member
      refine ⟨ss, hs, sub.filter, mem_map.mpr ⟨sub, subMem, rfl⟩, ?_⟩
      rw [(inv.sub.topics hs subMem).1, node]
    · grind [TreeInv.sub, SubInv.topics]

/-- No run of calls reads a freed node or a removed session, whatever the sends of its
publishes tear down, and between the calls no walk is in flight and the tree is clean. -/
theorem topicTree_safe_under_reentrant_teardown (maxOf : SessionId → Nat) (ops : List TopicOp) :
    Returns (runTopicOps maxOf ops) fun st => st.walking = 0 ∧ Quiescent maxOf st := by
  refine (runTopicOps_safe maxOf ops).mono ?_
  rintro st ⟨inv, quiet⟩
  exact ⟨quiet, inv.quiescent quiet⟩

/-- `p` is on the way to a filter that a session holds. -/
def TopicState.Needs (st : TopicState) (p : Ptr) : Prop :=
  ∃ s ss, st.sessions.cell s = some ss ∧ ∃ sub ∈ ss.topics, ∃ path,
    path <+: levelsOf sub.filter ∧ findNode st.nodes rootPtr path = some p

theorem TreeInv.needs (inv : TreeInv maxOf st) (quiet : st.walking = 0)
    (hn : st.nodes.cell p = some n) (ne : p ≠ rootPtr) : st.Needs p := by
  have shape := inv.node.shape
  -- downwards: children have greater addresses
  induction depth : st.nodes.next - p using Nat.strongRecOn generalizing p n with
  | ind depth ih =>
    by_cases bare : ∀ level, n.link level = none
    · have used := inv.node.used hn ne ne
      cases subs : n.subs with
      | nil => simp [wsNodeIsEmpty_of_bare (shape.keys hn) subs bare] at used
      | cons slot _ =>
        have member : slot ∈ n.subs := by simp [subs]
        cases slot with
        | none => simp [(inv.node.data hn).tombs, inv.quiet quiet] at member
        | some s =>
          obtain ⟨ss, hs, sub, held, rfl⟩ := inv.sub.subs hn member
          exact ⟨s, ss, hs, sub, held, _, prefix_rfl, (inv.sub.topics hs held).1⟩
    · obtain ⟨level, linked⟩ := not_forall.mp bare
      obtain ⟨c, link⟩ := Option.ne_none_iff_exists'.mp linked
      obtain ⟨k, hk, parent, -, below⟩ := shape.down hn link
      have older : p < c := parent ▸ (shape.up hk below).2.1
      have lower := Nat.sub_lt_sub_left (lt_next hn) older
      obtain ⟨s, ss, hs, sub, held, path, before, found⟩ := ih _ (depth ▸ lower) hk below rfl
      obtain ⟨up, above⟩ := shape.exists_path p (live_iff.mpr ⟨n, hn⟩)
      rw [shape.path_unique found (findNode_concat.mpr ⟨p, n, above, hn, link⟩)] at before
      exact ⟨s, ss, hs, sub, held, up, (prefix_append _ _).trans before, above⟩

/-- After every run the nodes are the root and those on the way to a filter that a session holds. -/
theorem topicTree_nodes_needed (maxOf : SessionId → Nat) (ops : List TopicOp) :
    Returns (runTopicOps maxOf ops) fun st => ∀ p, st.nodes.Live p ↔ p = rootPtr ∨ st.Needs p := by
  refine (runTopicOps_safe maxOf ops).mono ?_
  rintro st ⟨inv, quiet⟩ p
  have root := inv.node.shape.live_root
  constructor
  · intro live
    obtain ⟨n, hn⟩ := live_iff.mp live
    exact or_iff_not_imp_left.mpr (inv.needs quiet hn)
  · rintro (rfl | ⟨_, _, -, _, -, _, -, found⟩)
    · exact root
    · exact inv.node.shape.findNode_live root found

end Safety

end TrueAsync.Websocket

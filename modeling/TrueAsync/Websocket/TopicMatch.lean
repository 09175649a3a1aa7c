import TrueAsync.Websocket.TopicWalk

/-!
# Topic matching is exact

The reference is `matchingSessions`: the live sessions of which some filter matches the
topic under the MQTT rules. A walk stamps a session with the pass counter before it serves
it, so the stamped sessions are the ones that were served, each of them once, whatever
number of its filters match. A send may close its own session on the way.
-/

namespace TrueAsync.Websocket

open TrueAsync.Lib List

def holdsMatching (st : TopicState) (topic : Bytes) (s : SessionId) : Bool :=
  match st.sessions.cell s with
  | none => false
  | some ss => ss.topics.any fun sub => topicMatches sub.filter topic

/-- The sessions that hold a matching filter, each of them once. -/
def matchingSessions (st : TopicState) (topic : Bytes) : List SessionId :=
  (range st.sessions.next).filter (holdsMatching st topic)

/-- The id a session was given, 0 before its first subscription. -/
def wsIdOf (st : TopicState) (s : SessionId) : Nat :=
  match st.sessions.cell s with
  | none => 0
  | some ss => ss.wsId

/-- `ws_session_try_send` on its own: the message is taken or refused, and the flush may run
the deferred teardown of the connection, which destroys this session. -/
def trySendOwn (taken closes : Nat → SessionId → Bool) : TrySend := fun k s st => do
  if closes k s then
    let st ← wsSessionDestroy st s
    pure (st, taken k s)
  else
    pure (st, taken k s)

theorem holdsMatching_iff {st : TopicState} :
    holdsMatching st topic s = true ↔ ∃ ss, st.sessions.cell s = some ss ∧
      ∃ sub ∈ ss.topics, topicMatches sub.filter topic = true := by
  grind [holdsMatching]

theorem mem_matchingSessions : s ∈ matchingSessions st topic ↔ holdsMatching st topic s = true := by
  unfold matchingSessions
  rw [mem_filter, mem_range, and_iff_right_iff_imp]
  intro holds
  obtain ⟨ss, hs, -⟩ := holdsMatching_iff.mp holds
  exact Heap.lt_next hs

theorem matchingSessions_nodup : (matchingSessions st topic).Nodup := nodup_range.filter _

section Exact

variable {maxOf : SessionId → Nat}

theorem matched_iff_topicMatches (shape : Shape nodes) {filter : Bytes}
    (found : findNode nodes rootPtr (levelsOf filter) = some q) :
    Matched nodes rootPtr (levelsOf topic) q ↔ topicMatches filter topic = true := by
  constructor
  · rintro ⟨path, reached, accepts⟩
    rw [shape.path_unique reached found] at accepts
    exact accepts
  · intro accepts
    exact ⟨levelsOf filter, found, accepts⟩

/-- The walk so far, from the state `st0` in which it started: `served` are the stamped
sessions, in the order in which the walk came to them. -/
structure Progress (maxOf : SessionId → Nat) (st0 : TopicState) (topic : Bytes)
    (visit0 : WsTopicVisit) (served : List SessionId) (st : TopicState)
    (visit : WsTopicVisit) : Prop where
  inv : TreeInv maxOf st
  walking : 0 < st.walking
  mark : st.mark = st0.mark
  walked : Walked st0 st
  nodup : served.Nodup
  sound : ∀ t ∈ served, holdsMatching st0 topic t = true ∧ wsIdOf st0 t ≠ visit0.exceptId
  others : ∀ t, t ∉ served → st.sessions.cell t = st0.sessions.cell t
  stamped : ∀ t ∈ served, ∀ tt, st.sessions.cell t = some tt → tt.topicMark = st0.mark
  exceptId : visit.exceptId = visit0.exceptId
  deliver : visit.shouldDeliver = visit0.shouldDeliver
  attempts : visit0.shouldDeliver = true → visit.attempts = served
  hits : visit0.shouldDeliver = false → visit.hits = served.length

def Stamped (st0 : TopicState) (visit0 : WsTopicVisit) (t : SessionId) (st : TopicState) : Prop :=
  ∀ tt, st.sessions.cell t = some tt → tt.wsId = visit0.exceptId ∨ tt.topicMark = st0.mark

variable {st0 st : TopicState} {topic : Bytes} {visit0 visit : WsTopicVisit}
  {served : List SessionId} {s : SessionId} {ss : WsSession} {st' : TopicState}

theorem Progress.serve (h : Progress maxOf st0 topic visit0 served st visit)
    (hs : st.sessions.cell s = some ss) (holds : holdsMatching st0 topic s = true)
    (fresh : s ∉ served) (allowed : ss.wsId ≠ visit0.exceptId) (inv' : TreeInv maxOf st')
    (walked' : Walked st st') (mark' : st'.mark = st.mark)
    (self : ∀ tt, st'.sessions.cell s = some tt → tt.topicMark = st.mark)
    (others' : ∀ t, t ≠ s → st'.sessions.cell t = st.sessions.cell t)
    (exceptId' : visit'.exceptId = visit.exceptId)
    (deliver' : visit'.shouldDeliver = visit.shouldDeliver)
    (attempts' : visit.shouldDeliver = true → visit'.attempts = visit.attempts ++ [s])
    (hits' : visit.shouldDeliver = false → visit'.hits = visit.hits + 1) :
    Progress maxOf st0 topic visit0 (served ++ [s]) st' visit' where
  inv := inv'
  walking := by
    rw [walked'.walking]
    exact h.walking
  mark := mark'.trans h.mark
  walked := h.walked.trans walked'
  nodup := by
    rw [nodup_append]
    refine ⟨h.nodup, nodup_singleton s, ?_⟩
    intro a ha b hb same
    rw [mem_singleton] at hb
    exact fresh (hb ▸ same ▸ ha)
  sound := by
    intro t member
    rcases mem_append.mp member with old | new
    · exact h.sound t old
    · cases mem_singleton.mp new
      refine ⟨holds, ?_⟩
      have same := h.others s fresh
      rw [hs] at same
      unfold wsIdOf
      rw [← same]
      exact allowed
  others := by
    intro t absent
    simp only [mem_append, mem_singleton, not_or] at absent
    rw [others' t absent.2, h.others t absent.1]
  stamped := by
    intro t member tt htt
    by_cases here : t = s
    · subst here
      exact (self tt htt).trans h.mark
    · rw [others' t here] at htt
      rcases mem_append.mp member with old | new
      · exact h.stamped t old tt htt
      · exact absurd (mem_singleton.mp new) here
  exceptId := exceptId'.trans h.exceptId
  deliver := deliver'.trans h.deliver
  attempts := by
    intro on
    rw [attempts' (h.deliver.trans on), h.attempts on]
  hits := by
    intro off
    rw [hits' (h.deliver.trans off), h.hits off, length_append, length_singleton]

theorem Stamped.keep (h : Stamped st0 visit0 t st) (mark : st.mark = st0.mark)
    (self : ∀ tt, st'.sessions.cell s = some tt → tt.topicMark = st.mark)
    (others : ∀ t, t ≠ s → st'.sessions.cell t = st.sessions.cell t) :
    Stamped st0 visit0 t st' := by
  intro tt htt
  by_cases here : t = s
  · grind
  · rw [others t here] at htt
    exact h tt htt

theorem Progress.holdsMatching (h : Progress maxOf st0 topic visit0 served st visit)
    (inv0 : TreeInv maxOf st0) (matched : Matched st0.nodes rootPtr (levelsOf topic) p)
    {n : WsTopicNode} (hn : st.nodes.cell p = some n) (member : some s ∈ n.subs) :
    Websocket.holdsMatching st0 topic s = true := by
  have live0 : st0.nodes.Live p := matched.live inv0.node.shape inv0.node.shape.live_root
  obtain ⟨n0, hn0⟩ := Heap.live_iff.mp live0
  obtain ⟨n', hn', -, -, -, tombs⟩ := h.walked.nodes hn0
  rw [hn] at hn'
  cases hn'
  obtain ⟨ss, hs, sub, subMem, node⟩ := inv0.sub.subs hn0 (tombs.mem member)
  grind [TreeInv.sub, SubInv.topics, holdsMatching_iff, matched_iff_topicMatches, TreeInv.node,
    NodeInv.shape]

theorem trySendOwn_spec (taken closes : Nat → SessionId → Bool) (k : Nat)
    (inv : TreeInv maxOf st) (walking : 0 < st.walking) (hs : st.sessions.cell s = some ss) :
    Returns (trySendOwn taken closes k s st) fun r => TreeInv maxOf r.1 ∧ Walked st r.1 ∧
      r.1.mark = st.mark ∧ (∀ tt, r.1.sessions.cell s = some tt → tt = ss) ∧
      ∀ t, t ≠ s → r.1.sessions.cell t = st.sessions.cell t := by
  unfold trySendOwn
  split
  · refine (wsSessionDestroy_spec inv hs).bind ?_
    rintro st' ⟨inv', destroyed⟩
    refine .pure ⟨inv', destroyed.walked walking, destroyed.mark, ?_, ?_⟩
    · grind [Destroyed.self]
    · intro t other
      exact destroyed.others other
  · refine .pure ⟨inv, .refl _, rfl, ?_, fun _ _ => rfl⟩
    intro tt htt
    rw [hs] at htt
    exact (Option.some.inj htt).symm

theorem walkRule_progress (inv0 : TreeInv maxOf st0) (topic : Bytes) (visit0 : WsTopicVisit)
    (taken closes : Nat → SessionId → Bool) :
    WalkRule (trySendOwn taken closes) (Matched st0.nodes rootPtr (levelsOf topic))
      (fun st visit => ∃ served, Progress maxOf st0 topic visit0 served st visit)
      (fun t st _ => Stamped st0 visit0 t st) where
  shape := fun ⟨_, progress⟩ => progress.inv.node.shape
  one := by
    rintro st visit p n s ⟨served, progress⟩ matched hn member
    have inv := progress.inv
    obtain ⟨ss, hs, -⟩ := inv.sub.subs hn member
    have holds := progress.holdsMatching inv0 matched hn member
    rw [wsTopicVisitOne_some hs]
    by_cases skip : ss.wsId = visit.exceptId ∨ ss.topicMark = st.mark
    · rw [if_pos skip]
      refine .pure ⟨Ran.refl ⟨served, progress⟩, ?_⟩
      intro tt htt
      grind [Progress.exceptId, Progress.mark]
    · rw [if_neg skip]
      simp only [not_or] at skip
      have allowed : ss.wsId ≠ visit0.exceptId := by
        rw [← progress.exceptId]
        exact skip.1
      have fresh : s ∉ served := fun old =>
        skip.2 ((progress.stamped s old ss hs).trans progress.mark.symm)
      -- the state once `s` is stamped
      have stamped : (st.sessions.modify s ({ · with topicMark := st.mark })).cell s =
          some { ss with topicMark := st.mark } := by
        rw [Heap.modify_cell_self, hs]
        rfl
      by_cases deliver : visit.shouldDeliver = true
      · rw [if_neg (by simp [deliver])]
        refine (trySendOwn_spec taken closes _ inv.stamp progress.walking stamped).bind ?_
        rintro ⟨st', ok⟩ ⟨inv', walked, mark', self, others⟩
        have self' : ∀ tt, st'.sessions.cell s = some tt → tt.topicMark = st.mark := by
          intro tt htt
          rw [self tt htt]
        have others' : ∀ t, t ≠ s → st'.sessions.cell t = st.sessions.cell t := by
          grind [Heap.modify_cell_ne]
        refine .pure ⟨⟨⟨served ++ [s], ?_⟩, (walked_stamp st s).trans walked, ?_⟩, ?_⟩
        · exact progress.serve hs holds fresh allowed inv' ((walked_stamp st s).trans walked)
            mark' self' others' rfl rfl (fun _ => rfl) (fun off => by simp [off] at deliver)
        · intro t before
          exact before.keep progress.mark self' others'
        · intro tt htt
          exact .inr ((self' tt htt).trans progress.mark)
      · rw [if_pos (by simpa using deliver)]
        have self' : ∀ tt, (st.sessions.modify s ({ · with topicMark := st.mark })).cell s =
            some tt → tt.topicMark = st.mark := by
          simp
        have others' : ∀ t, t ≠ s →
            (st.sessions.modify s ({ · with topicMark := st.mark })).cell t =
              st.sessions.cell t := fun t other => Heap.modify_cell_ne _ _ other
        refine .pure ⟨⟨⟨served ++ [s], ?_⟩, walked_stamp st s, ?_⟩, ?_⟩
        · exact progress.serve hs holds fresh allowed inv.stamp (walked_stamp st s) rfl self'
            others' rfl rfl (fun on => absurd on deliver) (fun _ => rfl)
        · intro t before
          exact before.keep progress.mark self' others'
        · intro tt htt
          exact .inr ((self' tt htt).trans progress.mark)

theorem Progress.complete (h : Progress maxOf st0 topic visit0 served st visit)
    (inv0 : TreeInv maxOf st0)
    (stale : ∀ {t tt}, st0.sessions.cell t = some tt → tt.topicMark < st0.mark)
    (covered : ∀ q, Matched st0.nodes rootPtr (levelsOf topic) q →
      Covered (fun t st _ => Stamped st0 visit0 t st) q (st, visit)) (t : SessionId) :
    t ∈ served ↔ Websocket.holdsMatching st0 topic t = true ∧ wsIdOf st0 t ≠ visit0.exceptId := by
  refine ⟨h.sound t, ?_⟩
  rintro ⟨holds, allowed⟩
  -- an unserved session is as it was, so it still stands at its node, unstamped
  by_contra absent
  obtain ⟨tt, htt, sub, subMem, accepts⟩ := holdsMatching_iff.mp holds
  have same := h.others t absent
  rw [htt] at same
  obtain ⟨-, n, hn, slot⟩ := h.inv.sub.topics same subMem
  have matched : Matched st0.nodes rootPtr (levelsOf topic) sub.node :=
    (matched_iff_topicMatches inv0.node.shape (inv0.sub.topics htt subMem).1).mpr accepts
  rcases covered sub.node matched n hn t slot tt same with excluded | marked
  · apply allowed
    unfold wsIdOf
    rw [htt]
    exact excluded
  · exact lt_irrefl _ (marked ▸ stale htt)

theorem wsTopicMatch_spec (inv : TreeInv maxOf st) (valid : wsTopicIsValidName topic = true)
    (taken closes : Nat → SessionId → Bool) (exceptId : Nat) (deliver : Bool) :
    Returns (wsTopicMatch (trySendOwn taken closes) st topic ⟨exceptId, deliver, 0, []⟩) fun r =>
      ∃ served : List SessionId, served.Nodup ∧
        (∀ s, s ∈ served ↔ holdsMatching st topic s = true ∧ wsIdOf st s ≠ exceptId) ∧
        (deliver = true → r.2.attempts = served) ∧
        (deliver = false → r.2.hits = served.length) := by
  obtain ⟨levels, split⟩ := wsTopicSplit_of_wsTopicCheck valid
  unfold wsTopicMatch
  rw [split]
  simp only [bytes_of_wsTopicSplit split]
  have stale : ∀ {t tt}, st.sessions.cell t = some tt → tt.topicMark < st.mark + 1 :=
    fun htt => Nat.lt_succ_of_le (inv.session htt).mark
  have rule := walkRule_progress inv.enter topic ⟨exceptId, deliver, 0, []⟩ taken closes
  have start : Progress maxOf { st with mark := st.mark + 1, walking := st.walking + 1 } topic
      ⟨exceptId, deliver, 0, []⟩ [] { st with mark := st.mark + 1, walking := st.walking + 1 }
      ⟨exceptId, deliver, 0, []⟩ :=
    ⟨inv.enter, Nat.succ_pos _, rfl, .refl _, nodup_nil, by simp, fun _ _ => rfl,
      by simp, rfl, rfl, fun _ => rfl, fun _ => rfl⟩
  refine (wsTopicWalk_spec rule (levelsOf topic) ⟨[], start⟩ inv.node.shape.live_root
    fun _ matched => matched).bind ?_
  rintro ⟨st1, visit1⟩ ⟨ran, covered⟩
  obtain ⟨served, progress⟩ := ran.post
  have complete := progress.complete inv.enter stale covered
  refine (leave_spec progress.inv st.walking progress.walked.walking visit1).mono ?_
  rintro r ⟨_, _, _, same, _, _⟩
  rw [same]
  exact ⟨served, progress.nodup, complete, progress.attempts, progress.hits⟩

end Exact

/-- In every tree that a run of calls can reach, a count is the number of sessions that hold
a matching filter, and a publish attempts one send to each of them but the excluded one. -/
theorem topic_matching_exact (maxOf : SessionId → Nat) (ops : List TopicOp) (topic : Bytes)
    (valid : wsTopicIsValidName topic = true) : Returns (runTopicOps maxOf ops) fun st =>
      Returns (wsTopicCount st topic) (fun r => r.2 = (matchingSessions st topic).length) ∧
      ∀ taken closes exceptId,
        Returns (wsTopicPublish (trySendOwn taken closes) st topic exceptId) fun r =>
          r.2.attempts.Nodup ∧
          ∀ s, s ∈ r.2.attempts ↔ s ∈ matchingSessions st topic ∧ wsIdOf st s ≠ exceptId := by
  refine (runTopicOps_safe maxOf ops).mono ?_
  rintro st ⟨inv, _⟩
  constructor
  · unfold wsTopicCount
    refine (wsTopicMatch_spec inv valid (fun _ _ => true) (fun _ _ => false) 0 false).bind ?_
    rintro r ⟨served, nodup, exact, _, hits⟩
    refine .pure ?_
    show r.2.hits = _
    rw [hits rfl]
    -- every subscriber has an id, so nobody is excluded by id 0
    have named : ∀ s, holdsMatching st topic s = true → wsIdOf st s ≠ 0 := by
      intro s holds
      obtain ⟨ss, hs, sub, member, -⟩ := holdsMatching_iff.mp holds
      unfold wsIdOf
      rw [hs]
      exact (inv.session hs).id (ne_nil_of_mem member)
    apply List.Perm.length_eq
    rw [perm_ext_iff_of_nodup nodup matchingSessions_nodup]
    intro s
    rw [exact s, mem_matchingSessions]
    exact ⟨fun h => h.1, fun h => ⟨h, named s h⟩⟩
  · intro taken closes exceptId
    refine (wsTopicMatch_spec inv valid taken closes exceptId true).mono ?_
    rintro r ⟨served, nodup, exact, attempts, _⟩
    rw [attempts rfl]
    refine ⟨nodup, fun s => ?_⟩
    rw [exact s, mem_matchingSessions]

/-- Session 0 holds `a/+` and `a/#`, session 1 holds `b`. A count of `a/a` finds session 0,
once. -/
theorem topic_matching_exact_overlap : wsTopicIsValidName [97, slash, 97] = true ∧
    Returns (runTopicOps (fun _ => 0) [.connect, .connect,
        .subscribe 0 [97, slash, plusByte], .subscribe 0 [97, slash, hashByte],
        .subscribe 1 [98]]) fun st => Returns (wsTopicCount st [97, slash, 97]) (fun r =>
        r.2 = (matchingSessions st [97, slash, 97]).length) ∧
      matchingSessions st [97, slash, 97] = [0] := by
  refine ⟨by decide, ?_⟩
  have applied := topic_matching_exact (fun _ => 0) [.connect, .connect,
    .subscribe 0 [97, slash, plusByte], .subscribe 0 [97, slash, hashByte],
    .subscribe 1 [98]] [97, slash, 97] (by decide)
  obtain ⟨st, run, count, -⟩ := applied
  refine ⟨st, run, count, ?_⟩
  cases run
  decide

end TrueAsync.Websocket

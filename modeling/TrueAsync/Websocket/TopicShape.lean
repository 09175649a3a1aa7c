import Mathlib.Data.List.Induction
import TrueAsync.Lib.Returns
import TrueAsync.Websocket.TopicTree

/-!
# The shape of the node heap

`Shape` says that the node heap is a tree hanging off the root: parent and child pointers
agree, and a node is younger than its parent. Every live node is then at the end of exactly
one path of levels. The two functions that change the tree keep this: `wsNodeDescend`, which
only adds nodes (`Grown`), and `wsNodePrune`, which only removes empty ones (`Pruned`).
-/

namespace TrueAsync.Websocket

open TrueAsync.Lib Heap WsTopicNode AList

/-! ## Links -/

variable {level : Bytes}

theorem kindOf_eq_plus : kindOf level = .plus ↔ level = plusLevel := by
  unfold kindOf
  split <;> [simp_all; (split <;> simp_all)]

theorem kindOf_eq_hash : kindOf level = .hash ↔ level = hashLevel := by
  unfold kindOf
  have : plusLevel ≠ hashLevel := by decide
  split <;> [simp_all; (split <;> simp_all)]

theorem kindOf_ne_root (level : Bytes) : kindOf level ≠ .root := by
  unfold kindOf
  split <;> [simp; (split <;> simp)]

theorem link_setLink (n : WsTopicNode) (level other : Bytes) (child : Ptr) :
    (n.setLink level child).link other = if other = level then some child else n.link other := by
  by_cases same : other = level
  · subst same
    unfold setLink link
    cases h : kindOf other <;> simp
  · rw [if_neg same]
    unfold setLink link
    cases h : kindOf level <;> cases h' : kindOf other <;> simp only <;>
      first
        | rfl
        | exact lookup_insert_ne same
        | exact absurd ((kindOf_eq_plus.mp h').trans (kindOf_eq_plus.mp h).symm) same
        | exact absurd ((kindOf_eq_hash.mp h').trans (kindOf_eq_hash.mp h).symm) same

/-- The level string under which a node hangs off its parent. -/
def WsTopicNode.key (n : WsTopicNode) : Bytes :=
  match n.kind with
  | .plus => plusLevel
  | .hash => hashLevel
  | _ => n.level

variable {n : WsTopicNode}

theorem link_unlink (kind : kindOf n.key = n.kind) (q : WsTopicNode) (other : Bytes) :
    (q.unlink n.kind n.level).link other = if other = n.key then none else q.link other := by
  have keyEq : n.kind = .literal → n.key = n.level := fun h => by simp [key, h]
  by_cases same : other = n.key
  · subst same
    rw [if_pos rfl]
    unfold link unlink
    rw [kind]
    cases h : n.kind with
    | root => exact absurd (kind.trans h) (kindOf_ne_root _)
    | plus => rfl
    | hash => rfl
    | literal =>
      rw [keyEq h]
      exact lookup_erase _ _
  · unfold link unlink
    cases h : n.kind with
    | root => exact absurd (kind.trans h) (kindOf_ne_root _)
    | plus | hash => grind [kindOf]
    | literal => simp_all

/-- The table of literal children has no wildcard level in it. -/
def WsTopicNode.LiteralKeys (n : WsTopicNode) : Prop :=
  ∀ level ∈ n.children, kindOf level = .literal

theorem WsTopicNode.LiteralKeys.setLink (keys : n.LiteralKeys) (level : Bytes) (child : Ptr) :
    (n.setLink level child).LiteralKeys := by
  unfold WsTopicNode.setLink
  cases h : kindOf level with
  | root => exact absurd h (kindOf_ne_root level)
  | plus | hash => exact keys
  | literal =>
    intro other member
    rcases (mem_insert n.children).mp member with rfl | old
    · exact h
    · exact keys other old

theorem WsTopicNode.LiteralKeys.unlink (keys : n.LiteralKeys) (kind : WsNodeKind) (level : Bytes) :
    (n.unlink kind level).LiteralKeys := by
  have erased : ∀ other ∈ n.children.erase level, kindOf other = .literal :=
    fun other member => keys other (mem_erase.mp member).2
  cases kind with
  | root | literal => exact erased
  | plus | hash => exact keys

theorem WsTopicNode.LiteralKeys.link (keys : n.LiteralKeys)
    (found : n.children.lookup level = some c) : n.link level = some c := by
  have literal : kindOf level = .literal := keys level (lookup_isSome.mp (by rw [found]; rfl))
  unfold WsTopicNode.link
  rw [literal]
  exact found

theorem link_of_wsNodeIsEmpty (h : wsNodeIsEmpty n = true) (level : Bytes) :
    n.link level = none := by
  simp only [wsNodeIsEmpty, Bool.and_eq_true, Option.isNone_iff_eq_none, List.isEmpty_iff] at h
  obtain ⟨⟨⟨-, plus⟩, hash⟩, children⟩ := h
  unfold link
  cases kindOf level <;> simp only [plus, hash]
  all_goals
    rw [lookup_eq_none, mem_keys, keys, children]
    simp

theorem subs_of_wsNodeIsEmpty (h : wsNodeIsEmpty n = true) : n.subs = [] := by
  grind [wsNodeIsEmpty]

theorem wsNodeIsEmpty_of_link (h : n.link level = some c) : wsNodeIsEmpty n = false := by
  cases empty : wsNodeIsEmpty n with
  | false => rfl
  | true => rw [link_of_wsNodeIsEmpty empty] at h; cases h

theorem wsNodeIsEmpty_of_subs (h : n.subs ≠ []) : wsNodeIsEmpty n = false := by
  cases empty : wsNodeIsEmpty n with
  | false => rfl
  | true => exact absurd (subs_of_wsNodeIsEmpty empty) h

theorem wsNodeIsEmpty_of_bare (literal : n.LiteralKeys) (subs : n.subs = [])
    (bare : ∀ level, n.link level = none) : wsNodeIsEmpty n = true := by
  have plus : n.plus = none := bare plusLevel
  have hash : n.hash = none := bare hashLevel
  have children : n.children.entries = [] := by
    refine List.eq_nil_iff_forall_not_mem.mpr ?_
    rintro ⟨level, c⟩ member
    have found := literal.link (mem_lookup_iff.mpr member)
    simp [bare] at found
  simp [wsNodeIsEmpty, subs, plus, hash, children]

/-! ## Paths -/

/-- Follow child pointers from `p`. -/
def findNode (nodes : Heap WsTopicNode) (p : Ptr) : List Bytes → Option Ptr
  | [] => some p
  | level :: rest => (nodes.cell p).bind fun n => (n.link level).bind fun c => findNode nodes c rest

@[simp] theorem findNode_nil : findNode nodes p [] = some p := rfl

variable {nodes : Heap WsTopicNode} {p q : Ptr}

theorem findNode_cons : findNode nodes p (level :: rest) = some q ↔
      ∃ n c, nodes.cell p = some n ∧ n.link level = some c ∧ findNode nodes c rest = some q := by
  grind [findNode, Option.bind_eq_some_iff]

variable {path path' : List Bytes}

theorem findNode_append : findNode nodes p (path ++ path') = some q ↔
      ∃ m, findNode nodes p path = some m ∧ findNode nodes m path' = some q := by
  induction path generalizing p with
  | nil => simp
  | cons level rest ih =>
    simp only [List.cons_append, findNode_cons, ih]
    constructor
    · grind
    · grind

theorem findNode_concat : findNode nodes p (path ++ [level]) = some q ↔
      ∃ m n, findNode nodes p path = some m ∧ nodes.cell m = some n ∧ n.link level = some q := by
  rw [findNode_append]
  constructor
  · rintro ⟨m, hm, h⟩
    obtain ⟨n, c, hn, hc, hq⟩ := findNode_cons.mp h
    simp_all
  · rintro ⟨m, n, hm, hn, hq⟩
    exact ⟨m, hm, findNode_cons.mpr ⟨n, q, hn, hq, rfl⟩⟩

/-- The node heap is a tree: child pointers lead to live nodes that point back, and every
node but the root is reached through its parent, which is older. -/
structure Shape (nodes : Heap WsTopicNode) : Prop where
  root : ∃ r, nodes.cell rootPtr = some r ∧ r.kind = .root
  up : ∀ {p n}, nodes.cell p = some n → p ≠ rootPtr →
    kindOf n.key = n.kind ∧ n.parent < p ∧ ∃ q, nodes.cell n.parent = some q ∧ q.link n.key = some p
  down : ∀ {p n level c}, nodes.cell p = some n → n.link level = some c →
    ∃ m, nodes.cell c = some m ∧ m.parent = p ∧ m.key = level ∧ c ≠ rootPtr
  keys : ∀ {p n}, nodes.cell p = some n → n.LiteralKeys

section

variable (shape : Shape nodes)
include shape

theorem Shape.findNode_live (live : nodes.Live p)
    (found : findNode nodes p path = some q) : nodes.Live q := by
  induction path generalizing p with
  | nil => simp_all
  | cons level rest ih =>
    obtain ⟨n, c, hn, hc, h⟩ := findNode_cons.mp found
    obtain ⟨m, hm, -⟩ := shape.down hn hc
    exact ih (live_iff.mpr ⟨m, hm⟩) h

theorem Shape.live_root : nodes.Live rootPtr :=
  let ⟨r, hr, _⟩ := shape.root
  live_iff.mpr ⟨r, hr⟩

theorem Shape.kind_eq_root (hn : nodes.cell p = some n) : n.kind = .root ↔ p = rootPtr := by
  constructor
  · intro root
    by_contra ne
    exact kindOf_ne_root _ ((shape.up hn ne).1.trans root)
  · grind [Shape.root]

theorem Shape.exists_path : ∀ p, nodes.Live p → ∃ path, findNode nodes rootPtr path = some p := by
  intro p
  -- the parent of a node has a smaller address
  induction p using Nat.strongRecOn with
  | ind p ih =>
    intro live
    obtain ⟨n, hn⟩ := live_iff.mp live
    by_cases root : p = rootPtr
    · exact ⟨[], by simp [root]⟩
    · obtain ⟨-, older, q, hq, link⟩ := shape.up hn root
      obtain ⟨path, hpath⟩ := ih n.parent older (live_iff.mpr ⟨q, hq⟩)
      exact ⟨path ++ [n.key], findNode_concat.mpr ⟨n.parent, q, hpath, hq, link⟩⟩

theorem Shape.path_unique (h : findNode nodes rootPtr path = some p)
    (h' : findNode nodes rootPtr path' = some p) : path = path' := by
  -- from the end of the path upwards: the last step is the node's own key
  induction path using List.reverseRecOn generalizing p path' with
  | nil =>
    simp only [findNode_nil, Option.some.injEq] at h
    subst h
    cases path' using List.reverseRecOn with
    | nil => rfl
    | append_singleton rest level =>
      obtain ⟨m, n, -, hn, link⟩ := findNode_concat.mp h'
      grind [Shape.down]
  | append_singleton rest level ih =>
    obtain ⟨m, n, hm, hn, link⟩ := findNode_concat.mp h
    obtain ⟨k, hk, parent, key, ne⟩ := shape.down hn link
    cases path' using List.reverseRecOn with
    | nil => simp_all
    | append_singleton rest' level' =>
      obtain ⟨m', n', hm', hn', link'⟩ := findNode_concat.mp h'
      obtain ⟨k', hk', parent', key', -⟩ := shape.down hn' link'
      rw [hk] at hk'
      cases hk'
      have sameParent : m = m' := parent.symm.trans parent'
      subst sameParent
      rw [ih hm hm', ← key, ← key']

end

/-! ## Pruning -/

/-- `n'` is `n` up to its child pointers. -/
structure SameData (n n' : WsTopicNode) : Prop where
  parent : n'.parent = n.parent
  kind : n'.kind = n.kind
  level : n'.level = n.level
  subs : n'.subs = n.subs
  dead : n'.dead = n.dead
  dirty : n'.dirty = n.dirty

theorem SameData.refl (n : WsTopicNode) : SameData n n := ⟨rfl, rfl, rfl, rfl, rfl, rfl⟩

variable {n' : WsTopicNode}

theorem SameData.trans (h : SameData n n') (h' : SameData n' n'') : SameData n n'' :=
  ⟨h'.parent.trans h.parent, h'.kind.trans h.kind, h'.level.trans h.level,
    h'.subs.trans h.subs, h'.dead.trans h.dead, h'.dirty.trans h.dirty⟩

theorem SameData.key (h : SameData n n') : n'.key = n.key := by
  unfold WsTopicNode.key
  rw [h.kind, h.level]

theorem sameData_unlink (kind : WsNodeKind) : SameData n (n.unlink kind level) := by
  unfold unlink
  split <;> exact ⟨rfl, rfl, rfl, rfl, rfl, rfl⟩

theorem sameData_setLink (level : Bytes) (c : Ptr) : SameData n (n.setLink level c) := by
  unfold setLink
  split <;> exact ⟨rfl, rfl, rfl, rfl, rfl, rfl⟩

/-- `nodes'` is `nodes` without some nodes that had no subscriber slot. -/
structure Pruned (nodes nodes' : Heap WsTopicNode) : Prop where
  back : ∀ {p n'}, nodes'.cell p = some n' → ∃ n, nodes.cell p = some n ∧ SameData n n' ∧
    ∀ level c, n'.link level = some c → n.link level = some c
  keep : ∀ {p n}, nodes.cell p = some n → n.subs ≠ [] → nodes'.Live p

theorem Pruned.refl (nodes : Heap WsTopicNode) : Pruned nodes nodes where
  back := fun {_ n'} h => ⟨n', h, SameData.refl _, fun _ _ h => h⟩
  keep := fun {_ n} h _ => live_iff.mpr ⟨n, h⟩

variable {nodes' nodes'' : Heap WsTopicNode}

theorem Pruned.trans (h : Pruned nodes nodes')
    (h' : Pruned nodes' nodes'') : Pruned nodes nodes'' where
  back := by
    intro p n'' found
    obtain ⟨n', found', same', links'⟩ := h'.back found
    obtain ⟨n, found, same, links⟩ := h.back found'
    grind [SameData.trans]
  keep := by
    intro p n found subs
    obtain ⟨n', found'⟩ := live_iff.mp (h.keep found subs)
    obtain ⟨m, hm, same, -⟩ := h.back found'
    grind [Pruned.keep, SameData.subs]

theorem Pruned.findNode_of (h : Pruned nodes nodes') (found : findNode nodes' p path = some q) :
    findNode nodes p path = some q := by
  induction path generalizing p with
  | nil => exact found
  | cons level rest ih =>
    obtain ⟨n', c, hn', hc, rest'⟩ := findNode_cons.mp found
    obtain ⟨n, hn, -, links⟩ := h.back hn'
    exact findNode_cons.mpr ⟨n, c, hn, links level c hc, ih rest'⟩

theorem Pruned.findNode (h : Pruned nodes nodes') (shape : Shape nodes) (shape' : Shape nodes')
    (live : nodes'.Live q) (found : findNode nodes rootPtr path = some q) :
    findNode nodes' rootPtr path = some q := by
  obtain ⟨path', found'⟩ := shape'.exists_path q live
  rw [shape.path_unique found (h.findNode_of found')]
  exact found'

theorem Shape.freeLeaf (shape : Shape nodes) (hn : nodes.cell p = some n) (ne : p ≠ rootPtr)
    (empty : wsNodeIsEmpty n = true)
    (freed : nodes' = (nodes.modify n.parent (·.unlink n.kind n.level)).free p) :
    Shape nodes' ∧ Pruned nodes nodes' := by
  obtain ⟨kind, older, q, hq, link⟩ := shape.up hn ne
  -- what a cell of the new heap is, in terms of the old one
  have back : ∀ {x m'}, nodes'.cell x = some m' → x ≠ p ∧ ∃ m, nodes.cell x = some m ∧ SameData m m' ∧
        ∀ level, m'.link level = if x = n.parent ∧ level = n.key then none else m.link level := by
    intro x m' h
    rw [freed] at h
    obtain ⟨xp, h⟩ := free_cell_eq_some.mp h
    obtain ⟨m, hm, rfl⟩ := modify_cell_eq_some.mp h
    grind [sameData_unlink, SameData.refl, link_unlink]
  have forth : ∀ {x m}, nodes.cell x = some m → x ≠ p → ∃ m', nodes'.cell x = some m' := by
    grind [free_cell_ne, modify_cell]
  constructor
  · refine ⟨?_, ?_, ?_, ?_⟩
    · obtain ⟨r, hr, root⟩ := shape.root
      obtain ⟨r', hr'⟩ := forth hr (Ne.symm ne)
      grind [SameData.kind]
    · intro x m' hx xroot
      obtain ⟨xp, m, hm, same, links⟩ := back hx
      obtain ⟨mkind, molder, k, hk, mlink⟩ := shape.up hm xroot
      have parentNe : m.parent ≠ p := by
        intro eq
        rw [eq, hn] at hk
        cases hk
        rw [link_of_wsNodeIsEmpty empty] at mlink
        cases mlink
      obtain ⟨k', hk'⟩ := forth hk parentNe
      obtain ⟨-, k0, hk0, -, klinks⟩ := back hk'
      rw [hk] at hk0
      cases hk0
      rw [same.key, same.kind, same.parent]
      refine ⟨mkind, molder, k', hk', ?_⟩
      rw [klinks, if_neg, mlink]
      rintro ⟨pe, ke⟩
      rw [pe, hq] at hk
      cases hk
      rw [ke, link] at mlink
      exact xp (Option.some.inj mlink).symm
    · intro x m' level c hx hc
      obtain ⟨xp, m, hm, same, links⟩ := back hx
      rw [links] at hc
      split at hc
      · cases hc
      · next other =>
        obtain ⟨k, hk, parent, key, cne⟩ := shape.down hm hc
        have cp : c ≠ p := by grind
        obtain ⟨k', hk'⟩ := forth hk cp
        obtain ⟨-, k0, hk0, ksame, -⟩ := back hk'
        rw [hk] at hk0
        cases hk0
        exact ⟨k', hk', ksame.parent.trans parent, ksame.key.trans key, cne⟩
    · intro x m' hx
      rw [freed] at hx
      obtain ⟨m, hm, rfl⟩ := modify_cell_eq_some.mp (free_cell_eq_some.mp hx).2
      split
      · exact (shape.keys hm).unlink _ _
      · exact shape.keys hm
  · refine ⟨?_, ?_⟩
    · intro x m' hx
      obtain ⟨-, m, hm, same, links⟩ := back hx
      refine ⟨m, hm, same, fun level c hc => ?_⟩
      rw [links] at hc
      split at hc
      · cases hc
      · exact hc
    · intro x m hm subs
      have xp : x ≠ p := by
        intro eq
        rw [eq, hn] at hm
        cases hm
        exact subs (subs_of_wsNodeIsEmpty empty)
      exact live_iff.mpr (forth hm xp)

/-- Every node but the root is in use: it has a subscriber slot or a child. -/
def NonEmptyExcept (nodes : Heap WsTopicNode) (p : Ptr) : Prop :=
  ∀ {q n}, nodes.cell q = some n → q ≠ rootPtr → q ≠ p → wsNodeIsEmpty n = false

theorem readNode_ok (h : nodes.cell p = some n) : readNode nodes p = .ok n := by
  simp [readNode, h]

theorem wsNodePruneLoop_spec (fuel : Nat) (shape : Shape nodes) (live : nodes.Live p)
    (bound : p < fuel) (used : NonEmptyExcept nodes p) :
    Returns (wsNodePruneLoop fuel nodes p) fun nodes' =>
      Shape nodes' ∧ Pruned nodes nodes' ∧ NonEmptyExcept nodes' rootPtr := by
  induction fuel generalizing nodes p with
  | zero => exact absurd bound (Nat.not_lt_zero p)
  | succ fuel ih =>
    obtain ⟨n, hn⟩ := live_iff.mp live
    unfold wsNodePruneLoop
    rw [readNode_ok hn]
    simp only [bind, Except.bind]
    by_cases stop : n.kind ≠ .root ∧ wsNodeIsEmpty n = true
    · rw [if_pos stop]
      have ne : p ≠ rootPtr := fun h => stop.1 ((shape.kind_eq_root hn).mpr h)
      obtain ⟨kind, older, q, hq, link⟩ := shape.up hn ne
      obtain ⟨shape', pruned⟩ := shape.freeLeaf hn ne stop.2 rfl
      rw [readNode_ok hq]
      have parentLive :
          ((nodes.modify n.parent (·.unlink n.kind n.level)).free p).Live n.parent := by
        grind [live_iff, free_cell_ne, modify_cell_self]
      refine (ih shape' parentLive (Nat.lt_of_lt_of_le older (Nat.le_of_lt_succ bound)) ?_).mono ?_
      · intro x m hx xroot xparent
        obtain ⟨xp, hx⟩ := free_cell_eq_some.mp hx
        rw [modify_cell_ne _ _ xparent] at hx
        exact used hx xroot xp
      · grind [Pruned.trans]
    · rw [if_neg stop]
      refine .pure ⟨shape, Pruned.refl _, ?_⟩
      intro x m hm xroot _
      by_cases same : x = p
      · grind [Shape.kind_eq_root]
      · exact used hm xroot same

theorem wsNodePrune_spec (shape : Shape nodes) (live : nodes.Live p)
    (used : NonEmptyExcept nodes p) : Returns (wsNodePrune nodes p) fun nodes' =>
      Shape nodes' ∧ Pruned nodes nodes' ∧ NonEmptyExcept nodes' rootPtr :=
  wsNodePruneLoop_spec (p + 1) shape live (Nat.lt_succ_self p) used

/-! ## Creating nodes -/

variable (parent : Ptr)

theorem newChild_kind (level : Bytes) : (newChild parent level).kind = kindOf level := by
  unfold newChild
  split <;> simp_all [new]

theorem newChild_key (level : Bytes) : (newChild parent level).key = level := by
  unfold key newChild
  cases h : kindOf level with
  | root => exact absurd h (kindOf_ne_root level)
  | plus => exact (kindOf_eq_plus.mp h).symm
  | hash => exact (kindOf_eq_hash.mp h).symm
  | literal => rfl

theorem newChild_keys (level : Bytes) : (newChild parent level).LiteralKeys := by
  have none : (newChild parent level).children = ∅ := by
    unfold newChild
    split <;> rfl
  intro other member
  simp_all

theorem newChild_fresh (level : Bytes) : (newChild parent level).parent = parent ∧
    (newChild parent level).subs = [] ∧ (newChild parent level).dead = 0 ∧
    (newChild parent level).dirty = false ∧ wsNodeIsEmpty (newChild parent level) = true := by
  unfold newChild
  split <;> exact ⟨rfl, rfl, rfl, rfl, rfl⟩

/-- `nodes'` is `nodes` with new nodes, none of which has a subscriber slot. -/
structure Grown (nodes nodes' : Heap WsTopicNode) : Prop where
  old : ∀ {p n}, nodes.cell p = some n → ∃ n', nodes'.cell p = some n' ∧ SameData n n' ∧
    ∀ level c, n.link level = some c → n'.link level = some c
  new : ∀ {p n'}, nodes'.cell p = some n' → nodes.cell p = none →
    n'.subs = [] ∧ n'.dead = 0 ∧ n'.dirty = false

theorem Grown.refl (nodes : Heap WsTopicNode) : Grown nodes nodes where
  old := fun {_ n} h => ⟨n, h, .refl _, fun _ _ h => h⟩
  new := fun h h' => by rw [h] at h'; cases h'

theorem Grown.trans (h : Grown nodes nodes') (h' : Grown nodes' nodes'') : Grown nodes nodes'' where
  old := by
    intro p n found
    grind [Grown.old, SameData.trans]
  new := by
    intro p n'' found missing
    cases mid : nodes'.cell p with
    | none => exact h'.new found mid
    | some n' =>
      obtain ⟨m, hm, same, -⟩ := h'.old mid
      rw [found] at hm
      cases hm
      rw [same.subs, same.dead, same.dirty]
      exact h.new mid missing

theorem Grown.findNode (h : Grown nodes nodes') (found : findNode nodes p path = some q) :
    findNode nodes' p path = some q := by
  induction path generalizing p with
  | nil => exact found
  | cons level rest ih =>
    obtain ⟨n, c, hn, hc, rest'⟩ := findNode_cons.mp found
    obtain ⟨n', hn', -, links⟩ := h.old hn
    exact findNode_cons.mpr ⟨n', c, hn', links level c hc, ih rest'⟩

theorem Shape.addChild (shape : Shape nodes) (hn : nodes.cell p = some n)
    (missing : n.link level = none)
    (added : nodes' = (nodes.alloc (.newChild p level)).modify p (·.setLink level nodes.next)) :
    Shape nodes' ∧ Grown nodes nodes' := by
  have pnext : p ≠ nodes.next := ne_next hn
  obtain ⟨freshParent, freshSubs, freshDead, freshDirty, freshEmpty⟩ := newChild_fresh p level
  have back : ∀ {x m'}, nodes'.cell x = some m' →
      (x = nodes.next ∧ m' = .newChild p level) ∨
        ∃ m, nodes.cell x = some m ∧ SameData m m' ∧
          ∀ other, m'.link other =
            if x = p ∧ other = level then some nodes.next else m.link other := by
    intro x m' h
    rw [added] at h
    obtain ⟨m, hm, rfl⟩ := modify_cell_eq_some.mp h
    rcases alloc_cell_eq_some.mp hm with ⟨rfl, rfl⟩ | hm
    · exact .inl ⟨rfl, if_neg (Ne.symm pnext)⟩
    · grind [sameData_setLink, SameData.refl, link_setLink]
  have forth : ∀ {x m}, nodes.cell x = some m →
      ∃ m', nodes'.cell x = some m' ∧ SameData m m' ∧ ∀ other, m'.link other =
          if x = p ∧ other = level then some nodes.next else m.link other := by
    intro x m hm
    have kept : ∃ m', nodes'.cell x = some m' := by grind [modify_cell, alloc_cell_of_some]
    grind [ne_next]
  have newCell : nodes'.cell nodes.next = some (.newChild p level) := by
    rw [added, modify_cell_ne _ _ (Ne.symm pnext), alloc_cell_self]
  have rootNext : rootPtr ≠ nodes.next := by
    obtain ⟨r, hr, -⟩ := shape.root
    exact ne_next hr
  constructor
  · refine ⟨?_, ?_, ?_, ?_⟩
    · obtain ⟨r, hr, root⟩ := shape.root
      obtain ⟨r', hr', same, -⟩ := forth hr
      exact ⟨r', hr', same.kind.trans root⟩
    · intro x m' hx xroot
      rcases back hx with ⟨rfl, rfl⟩ | ⟨m, hm, same, links⟩
      · obtain ⟨n', hn', -, links⟩ := forth hn
        rw [newChild_key, newChild_kind, freshParent]
        refine ⟨rfl, lt_next hn, n', hn', ?_⟩
        rw [links, if_pos ⟨rfl, rfl⟩]
      · obtain ⟨mkind, molder, k, hk, mlink⟩ := shape.up hm xroot
        obtain ⟨k', hk', -, klinks⟩ := forth hk
        rw [same.key, same.kind, same.parent]
        refine ⟨mkind, molder, k', hk', ?_⟩
        rw [klinks, if_neg, mlink]
        rintro ⟨pe, ke⟩
        rw [pe, hn] at hk
        cases hk
        rw [ke, missing] at mlink
        cases mlink
    · intro x m' other c hx hc
      rcases back hx with ⟨rfl, rfl⟩ | ⟨m, hm, same, links⟩
      · rw [link_of_wsNodeIsEmpty freshEmpty] at hc
        cases hc
      · rw [links] at hc
        split at hc
        · grind [newChild_key]
        · obtain ⟨k, hk, parent, key, cne⟩ := shape.down hm hc
          obtain ⟨k', hk', ksame, -⟩ := forth hk
          exact ⟨k', hk', ksame.parent.trans parent, ksame.key.trans key, cne⟩
    · intro x m' hx
      rw [added] at hx
      obtain ⟨m, hm, rfl⟩ := modify_cell_eq_some.mp hx
      have keys : m.LiteralKeys := by
        rcases alloc_cell_eq_some.mp hm with ⟨-, rfl⟩ | hm
        · exact newChild_keys p level
        · exact shape.keys hm
      split
      · exact keys.setLink _ _
      · exact keys
  · refine ⟨?_, ?_⟩
    · intro x m hm
      obtain ⟨m', hm', same, links⟩ := forth hm
      refine ⟨m', hm', same, fun other c hc => ?_⟩
      rw [links, if_neg, hc]
      rintro ⟨rfl, rfl⟩
      rw [hn] at hm
      cases hm
      rw [missing] at hc
      cases hc
    · intro x m' hm' gone
      rcases back hm' with ⟨-, rfl⟩ | ⟨m, hm, -⟩
      · exact ⟨freshSubs, freshDead, freshDirty⟩
      · rw [gone] at hm
        cases hm

theorem wsNodeChild_spec (shape : Shape nodes) (live : nodes.Live p)
    (used : NonEmptyExcept nodes p) (level : Bytes) :
    Returns (wsNodeChild nodes p level true) fun r =>
      Shape r.1 ∧ Grown nodes r.1 ∧ ∃ c, r.2 = some c ∧
        findNode r.1 p [level] = some c ∧ NonEmptyExcept r.1 c := by
  obtain ⟨n, hn⟩ := live_iff.mp live
  unfold wsNodeChild
  rw [readNode_ok hn]
  simp only [bind, Except.bind]
  cases hl : n.link level with
  | some c =>
    refine .pure ⟨shape, Grown.refl _, c, rfl, findNode_cons.mpr ⟨n, c, hn, hl, rfl⟩, ?_⟩
    intro x m hm xroot xc
    by_cases same : x = p
    · grind [wsNodeIsEmpty_of_link]
    · exact used hm xroot same
  | none =>
    obtain ⟨shape', grown⟩ := shape.addChild hn hl rfl
    have hn' : ((nodes.alloc (.newChild p level)).modify p
        (·.setLink level nodes.next)).cell p = some (n.setLink level nodes.next) := by
      rw [modify_cell_self, alloc_cell_of_some hn]
      rfl
    have linked : (n.setLink level nodes.next).link level = some nodes.next := by
      rw [link_setLink, if_pos rfl]
    refine .pure ⟨shape', grown, nodes.next, rfl, findNode_cons.mpr ⟨_, _, hn', linked, rfl⟩, ?_⟩
    intro x m hm xroot xc
    by_cases same : x = p
    · grind [wsNodeIsEmpty_of_link]
    · rw [modify_cell_ne _ _ same, alloc_cell_ne _ _ xc] at hm
      exact used hm xroot same

/-- The descent of `ws_topic_subscribe` ends at the node of the given path. That node may be
new and still empty. -/
theorem wsNodeDescend_spec (levels : List Bytes) (shape : Shape nodes) (live : nodes.Live p)
    (used : NonEmptyExcept nodes p) : Returns (wsNodeDescend nodes p levels) fun r =>
      Shape r.1 ∧ Grown nodes r.1 ∧ findNode r.1 p levels = some r.2 ∧ NonEmptyExcept r.1 r.2 := by
  induction levels generalizing nodes p with
  | nil => exact .pure ⟨shape, Grown.refl _, rfl, used⟩
  | cons level rest ih =>
    refine (wsNodeChild_spec shape live used level).bind ?_
    rintro ⟨nodes', child⟩ ⟨shape', grown, c, rfl, found, used'⟩
    obtain ⟨n', c', hn', hc', tail⟩ := findNode_cons.mp found
    simp only [findNode_nil, Option.some.injEq] at tail
    subst tail
    obtain ⟨m, hm, -⟩ := shape'.down hn' hc'
    refine (ih shape' (live_iff.mpr ⟨m, hm⟩) used').mono ?_
    rintro ⟨nodes'', q⟩ ⟨shape'', grown', found', used''⟩
    obtain ⟨n'', hn'', -, links⟩ := grown'.old hn'
    exact ⟨shape'', grown.trans grown',
      findNode_cons.mpr ⟨n'', c', hn'', links level c' hc', found'⟩, used''⟩

end TrueAsync.Websocket

import Mathlib.Data.List.Nodup
import Mathlib.Logic.Function.Basic

/-!
# The slab of connections

`src/core/conn_arena.c` keeps the slots of all chunks in two lists through the slots themselves: the
free ones through `next_conn`, the live ones through `next_conn` and `prev_conn`.
-/

namespace TrueAsync.Core

open List Function

/-- `http_connection_t *`: slot `i` of the `k`-th chunk is `256 * k + i`. -/
abbrev ConnPtr := Nat

/-- `conn_arena_t`, with the number of its chunks and the links of their slots. The counters are
smaller than memory, so they do not wrap. -/
structure ConnArena where
  nextConn : ConnPtr → Option ConnPtr
  prevConn : ConnPtr → Option ConnPtr
  chunks : Nat := 0
  freeHead : Option ConnPtr := none
  aliveHead : Option ConnPtr := none
  liveCount : Nat := 0
  slotCount : Nat := 0

/-- A write of a link through a pointer that may be NULL. -/
def storeLink (field : ConnPtr → Option ConnPtr) (p value : Option ConnPtr) (c : ConnPtr) :
    Option ConnPtr :=
  if p = some c then value else field c

namespace ConnArena

/-- `slot` goes on the freelist; its `prev_conn` is left as it is. -/
def pushFree (arena : ConnArena) (slot : ConnPtr) : ConnArena :=
  { arena with nextConn := update arena.nextConn slot arena.freeHead, freeHead := some slot }

/-- `conn_arena_grow`, when `pemalloc` gives a chunk. -/
def grow (arena : ConnArena) : ConnArena :=
  let grown := ((range 256).map (256 * arena.chunks + ·)).foldl pushFree arena
  { grown with chunks := arena.chunks + 1, slotCount := arena.slotCount + 256 }

/-- What `conn_arena_alloc` does with the slot at `free_head`, whose links it wipes first. -/
def take (arena : ConnArena) (slot : ConnPtr) : ConnArena :=
  { arena with
    nextConn := update arena.nextConn slot arena.aliveHead
    prevConn := storeLink (update arena.prevConn slot none) arena.aliveHead (some slot)
    freeHead := arena.nextConn slot
    aliveHead := some slot
    liveCount := arena.liveCount + 1 }

/-- `conn_arena_alloc`; `chunk` tells whether a `pemalloc` succeeds. -/
def alloc (arena : ConnArena) (chunk : Bool) : Option ConnPtr × ConnArena :=
  let arena := if arena.freeHead = none ∧ chunk then arena.grow else arena
  (arena.freeHead, (arena.freeHead.map arena.take).getD arena)

/-- `conn` leaves the alive list. -/
def unlink (arena : ConnArena) (conn : ConnPtr) : ConnArena :=
  let next := arena.nextConn conn
  let prev := arena.prevConn conn
  { arena with
    nextConn := storeLink arena.nextConn prev next
    prevConn := storeLink arena.prevConn next prev
    aliveHead := if prev = none then next else arena.aliveHead
    liveCount := arena.liveCount - 1 }

/-- `conn_arena_free`. -/
def free (arena : ConnArena) (conn : ConnPtr) : ConnArena := (arena.unlink conn).pushFree conn

/-- The arenas that calls lead to, with the connections that were handed out and not freed. The
memory of a chunk is not initialised. -/
inductive Reaches : ConnArena → List ConnPtr → Prop
  | init (nextConn prevConn : ConnPtr → Option ConnPtr) : Reaches { nextConn, prevConn } []
  | alloc {arena live} (before : Reaches arena live) (chunk : Bool) :
      Reaches (arena.alloc chunk).2 ((arena.alloc chunk).1.toList ++ live)
  | free {arena live conn} (before : Reaches arena live) (given : conn ∈ live) :
      Reaches (arena.free conn) (live.erase conn)

/-- The list from `head` on is `l`. -/
def Chained (next : ConnPtr → Option ConnPtr) (head : Option ConnPtr) (l : List ConnPtr) : Prop :=
  head = l[0]? ∧ ∀ i c : Nat, l[i]? = some c → next c = l[i + 1]?

/-- The freelist is `idle` and the alive list is `live`, linked in both directions. -/
structure Linked (arena : ConnArena) (idle live : List ConnPtr) : Prop where
  unused : Chained arena.nextConn arena.freeHead idle
  alive : Chained arena.nextConn arena.aliveHead live
  back : ∀ i c : Nat, live[i]? = some c → arena.prevConn c = if i = 0 then none else live[i - 1]?
  distinct : (idle ++ live).Nodup
  liveCount : arena.liveCount = live.length

/-- Together the two lists are the slots of all chunks. -/
structure WellFormed (arena : ConnArena) (idle live : List ConnPtr) : Prop extends
    Linked arena idle live where
  slots : (idle ++ live).Perm (range (256 * arena.chunks))
  slotCount : arena.slotCount = (idle ++ live).length

variable {arena : ConnArena} {live idle l : List ConnPtr} {slot conn : ConnPtr}
  {next next' : ConnPtr → Option ConnPtr} {head : Option ConnPtr}

theorem Chained.congr (chained : Chained next head l) (same : ∀ c ∈ l, next' c = next c) :
    Chained next' head l := by
  refine ⟨chained.1, fun i c here => ?_⟩
  rw [same c (mem_of_getElem? here)]
  exact chained.2 i c here

theorem Chained.skip (chained : Chained next head l) (fresh : slot ∉ l) (link : Option ConnPtr) :
    Chained (update next slot link) head l :=
  chained.congr fun _ member => update_of_ne (ne_of_mem_of_not_mem member fresh) ..

theorem Chained.push (chained : Chained next head l) (fresh : slot ∉ l) :
    Chained (update next slot head) (some slot) (slot :: l) := by
  refine ⟨rfl, fun i c here => ?_⟩
  cases i with
  | zero =>
    cases here
    rw [update_self]
    exact chained.1
  | succ i => exact (chained.skip fresh head).2 i c here

theorem Chained.pop (chained : Chained next head (slot :: l)) : Chained next (next slot) l :=
  ⟨chained.2 0 slot rfl, fun i c here => chained.2 (i + 1) c here⟩

theorem index_iff (distinct : l.Nodup) {i j : Nat} (here : l[i]? = some conn) :
    l[j]? = some conn ↔ i = j := by
  constructor
  · intro other
    obtain ⟨_, rfl⟩ := List.getElem?_eq_some_iff.mp here
    obtain ⟨_, same⟩ := List.getElem?_eq_some_iff.mp other
    exact distinct.getElem_inj_iff.mp same.symm
  · rintro rfl
    exact here

namespace Linked

theorem pushFree (linked : Linked arena idle live) (fresh : slot ∉ idle ++ live) :
    Linked (arena.pushFree slot) (slot :: idle) live where
  unused := linked.unused.push fun member => fresh (mem_append_left _ member)
  alive := linked.alive.skip (fun member => fresh (mem_append_right _ member)) _
  back := linked.back
  distinct := nodup_cons.mpr ⟨fresh, linked.distinct⟩
  liveCount := linked.liveCount

theorem withChunks (linked : Linked arena idle live) (chunks slotCount : Nat) :
    Linked { arena with chunks, slotCount } idle live := { linked with }

theorem pushFree_all {slots : List ConnPtr} (linked : Linked arena idle live)
    (fresh : (slots.reverse ++ (idle ++ live)).Nodup) :
    Linked (slots.foldl ConnArena.pushFree arena) (slots.reverse ++ idle) live := by
  induction slots generalizing arena idle with
  | nil => exact linked
  | cons slot slots ih =>
    rw [reverse_cons, append_assoc] at fresh ⊢
    have first := (nodup_append.mp fresh).2.1
    exact ih (linked.pushFree (nodup_cons.mp first).1) fresh

theorem take (linked : Linked arena (slot :: idle) live) :
    Linked (arena.take slot) idle (slot :: live) := by
  obtain ⟨fresh, apart⟩ := nodup_cons.mp linked.distinct
  have new : slot ∉ live := fun member => fresh (mem_append_right _ member)
  refine ⟨linked.unused.pop.skip (fun member => fresh (mem_append_left _ member)) _,
    linked.alive.push new, fun i c here => ?_, perm_middle.nodup_iff.mpr linked.distinct,
    congrArg (· + 1) linked.liveCount⟩
  simp only [ConnArena.take, storeLink]
  rw [linked.alive.1]
  cases i with
  | zero =>
    cases here
    rw [if_neg fun here => new (mem_of_getElem? here), update_self]
    rfl
  | succ i =>
    have member : c ∈ live := mem_of_getElem? here
    simp only [index_iff (apart.of_append_right) here]
    rw [update_of_ne (ne_of_mem_of_not_mem member new), linked.back i c here]
    cases i <;> simp

theorem unlink (linked : Linked arena idle live) (given : conn ∈ live) :
    Linked (arena.unlink conn) idle (live.erase conn) := by
  obtain ⟨k, inside, rfl⟩ := mem_iff_getElem.mp given
  have here := getElem?_eq_getElem inside
  have distinct := linked.distinct.of_append_right
  have next := linked.alive.2 k _ here
  have prev := linked.back k _ here
  -- who the neighbours of the slot at `k` are
  have after {j c : Nat} (found : live[j]? = some c) :
      arena.nextConn live[k] = some c ↔ j = k + 1 := by
    rw [next, index_iff distinct found]
  have before {j c : Nat} (found : live[j]? = some c) :
      arena.prevConn live[k] = some c ↔ j + 1 = k := by
    rw [prev]
    cases k with
    | zero => simp
    | succ k => simp [index_iff distinct found]
  rw [distinct.erase_getElem]
  refine ⟨?_, ⟨?_, fun i c found => ?_⟩, fun i c found => ?_, ?_, ?_⟩
  · refine linked.unused.congr fun c member => if_neg fun same => ?_
    rw [prev] at same
    split at same
    · cases same
    · exact disjoint_of_nodup_append linked.distinct member (mem_of_getElem? same)
  · simp only [ConnArena.unlink]
    rw [getElem?_eraseIdx, next, prev, linked.alive.1]
    cases k with
    | zero => rfl
    | succ k => simp [getElem?_eq_getElem (Nat.lt_of_succ_lt inside)]
  · simp only [ConnArena.unlink, storeLink]
    rw [getElem?_eraseIdx] at found ⊢
    split at found
    all_goals
      simp only [before found, linked.alive.2 _ c found, next]
      grind
  · simp only [ConnArena.unlink, storeLink]
    rw [getElem?_eraseIdx] at found ⊢
    split at found
    all_goals
      simp only [after found, linked.back _ c found, prev]
      grind
  · exact linked.distinct.sublist ((eraseIdx_sublist live k).append_left idle)
  · rw [length_eraseIdx_of_lt inside, ← linked.liveCount]
    rfl

end Linked

namespace WellFormed

theorem grow (wf : WellFormed arena idle live) : ∃ idle, WellFormed arena.grow idle live := by
  have perm : (((range 256).map (256 * arena.chunks + ·)).reverse ++ (idle ++ live)).Perm
      (range (256 * (arena.chunks + 1))) := by
    rw [Nat.mul_succ, range_add]
    exact ((reverse_perm _).append wf.slots).trans perm_append_comm
  have linked := wf.pushFree_all (perm.nodup_iff.mpr nodup_range)
  rw [← append_assoc] at perm
  refine ⟨_, linked.withChunks _ _, perm, ?_⟩
  have before := wf.slots.length_eq
  rw [length_range, ← wf.slotCount] at before
  rw [perm.length_eq, length_range, Nat.mul_succ, ← before]
  rfl

theorem take (wf : WellFormed arena (slot :: idle) live) :
    WellFormed (arena.take slot) idle (slot :: live) :=
  ⟨wf.toLinked.take, perm_middle.trans wf.slots, wf.slotCount.trans perm_middle.length_eq.symm⟩

theorem alloc (wf : WellFormed arena idle live) (chunk : Bool) :
    ∃ idle, WellFormed (arena.alloc chunk).2 idle ((arena.alloc chunk).1.toList ++ live) := by
  have ready : ∃ idle, WellFormed
      (if arena.freeHead = none ∧ chunk then arena.grow else arena) idle live := by
    split
    · exact wf.grow
    · exact ⟨idle, wf⟩
  obtain ⟨idle, wf⟩ := ready
  unfold ConnArena.alloc
  dsimp only
  rw [wf.unused.1]
  cases idle with
  | nil => exact ⟨[], wf⟩
  | cons slot idle => exact ⟨idle, wf.take⟩

theorem free (wf : WellFormed arena idle live) (given : conn ∈ live) :
    WellFormed (arena.free conn) (conn :: idle) (live.erase conn) := by
  have perm : (conn :: (idle ++ live.erase conn)).Perm (idle ++ live) :=
    perm_middle.symm.trans ((perm_cons_erase given).symm.append_left idle)
  have distinct := perm.nodup_iff.mpr wf.distinct
  exact ⟨(wf.unlink given).pushFree (nodup_cons.mp distinct).1, perm.trans wf.slots,
    wf.slotCount.trans perm.length_eq.symm⟩

end WellFormed

theorem Reaches.wellFormed (reaches : Reaches arena live) : ∃ idle, WellFormed arena idle live := by
  induction reaches with
  | init => exact ⟨[], ⟨⟨rfl, nofun⟩, ⟨rfl, nofun⟩, nofun, nodup_nil, rfl⟩, .refl _, rfl⟩
  | alloc _ chunk ih =>
    obtain ⟨idle, wf⟩ := ih
    exact wf.alloc chunk
  | free _ given ih =>
    obtain ⟨idle, wf⟩ := ih
    exact ⟨_, wf.free given⟩

/-- Between calls the two lists are well formed, and what is handed out next is not live. -/
theorem conn_arena_well_formed (reaches : Reaches arena live) :
    (∃ idle, WellFormed arena idle live) ∧
      ∀ chunk conn, (arena.alloc chunk).1 = some conn → conn ∉ live := by
  refine ⟨reaches.wellFormed, fun chunk conn handed => ?_⟩
  obtain ⟨idle, wf⟩ := (reaches.alloc chunk).wellFormed
  rw [handed] at wf
  exact (nodup_cons.mp wf.distinct.of_append_right).1

/-- The arena after three connections. -/
def three : ConnArena :=
  let empty : ConnArena := { nextConn := fun _ => none, prevConn := fun _ => none }
  ((((empty.alloc true).2.alloc true).2).alloc true).2

theorem three_reaches : Reaches three [253, 254, 255] := by
  let empty : ConnArena := { nextConn := fun _ => none, prevConn := fun _ => none }
  have first : (empty.alloc true).1 = some 255 := by decide +kernel
  have second : ((empty.alloc true).2.alloc true).1 = some 254 := by decide +kernel
  have third : (((empty.alloc true).2.alloc true).2.alloc true).1 = some 253 := by decide +kernel
  have one := Reaches.alloc (.init (fun _ => none) fun _ => none) true
  rw [first] at one
  have two := one.alloc true
  rw [second] at two
  have all := two.alloc true
  rw [third] at all
  exact all

/-- The connection in the middle of the list is freed, and its slot is handed out again. -/
theorem conn_arena_reused :
    let arena := ((three.free 254).alloc true).2
    (∃ idle, WellFormed arena idle [254, 253, 255]) ∧
      ∀ chunk conn, (arena.alloc chunk).1 = some conn → conn ∉ [254, 253, 255] := by
  have again : ((three.free 254).alloc true).1 = some 254 := by decide +kernel
  have freed : Reaches (three.free 254) [253, 255] := three_reaches.free (by decide)
  have reaches := freed.alloc true
  rw [again] at reaches
  exact conn_arena_well_formed reaches

end ConnArena

end TrueAsync.Core

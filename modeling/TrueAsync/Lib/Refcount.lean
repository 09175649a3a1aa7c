import Mathlib.Algebra.BigOperators.Group.Finset.Basic
import Mathlib.Algebra.BigOperators.Group.Finset.Piecewise
import Mathlib.Algebra.BigOperators.Group.Finset.Sigma
import Mathlib.Algebra.BigOperators.Ring.Finset
import Mathlib.Algebra.Order.BigOperators.Group.Finset
import Mathlib.Algebra.Order.Ring.Nat
import TrueAsync.Lib.Heap

/-!
# Reference counting

`Heap.total` sums a weight over the live cells of a heap. With the number of references a
cell holds as the weight, it counts the references to an object from a whole heap.

`Counted` is the discipline of a reference counted heap against a function that gives the
number of holders of each address: a live object has its holders in its counter and at least
one of them, and nobody holds a released one. Taking, giving up and handing over a reference
each change the holders in one place, so a proof only has to say where.
-/

namespace TrueAsync.Lib

open Heap

namespace Heap

variable {α : Type}

/-- The sum of `f` over the live cells. -/
def total (h : Heap α) (f : α → Nat) : Nat := ∑ a ∈ Finset.range h.next, ((h.cell a).map f).getD 0

theorem total_alloc (h : Heap α) (x : α) (f : α → Nat) : (h.alloc x).total f = h.total f + f x := by
  grind [total, alloc_next, Finset.sum_range_succ, Finset.sum_congr, alloc_cell]

variable {h : Heap α} {x : α} {a : Nat}

theorem total_change {h' : Heap α} (next : h'.next = h.next)
    (here : h.cell a = some x) (others : ∀ b, b ≠ a → h'.cell b = h.cell b) (f : α → Nat) :
    h'.total f + f x = h.total f + ((h'.cell a).map f).getD 0 := by
  unfold total
  have member : a ∈ Finset.range h.next := Finset.mem_range.mpr (lt_next here)
  rw [next, ← Finset.add_sum_erase _ _ member, ← Finset.add_sum_erase _ _ member, here]
  grind [Finset.sum_congr]

theorem total_modify (here : h.cell a = some x) (g : α → α) (f : α → Nat) :
    (h.modify a g).total f + f x = h.total f + f (g x) := by
  grind [total_change, modify_next, modify_cell_ne, modify_cell_self]

theorem total_free (here : h.cell a = some x) (f : α → Nat) :
    (h.free a).total f + f x = h.total f := by
  grind [total_change, free_next, free_cell_ne, free_cell_self]

theorem total_alloc_free (h : Heap α) (x : α) (f : α → Nat) :
    ((h.alloc x).free h.next).total f = h.total f := by
  have freed := total_free (alloc_cell_self h x) f
  have grown := total_alloc h x f
  omega

variable {g : α → α}

theorem total_modify_same (a : Nat) {f : α → Nat} (same : ∀ x, f (g x) = f x) :
    (h.modify a g).total f = h.total f := by
  apply Finset.sum_congr rfl
  intro b _
  rw [modify_cell]
  split
  · cases h.cell b with
    | none => rfl
    | some x => simp [same]
  · rfl

theorem le_total (here : h.cell a = some x) (f : α → Nat) : f x ≤ h.total f := by
  have freed := total_free here f
  omega

theorem exists_of_total_pos {f : α → Nat} (positive : 0 < h.total f) :
    ∃ a x, h.cell a = some x ∧ 0 < f x := by
  by_contra none
  push Not at none
  have zero : h.total f = 0 := by
    apply Finset.sum_eq_zero
    intro a _
    cases cell : h.cell a with
    | none => rfl
    | some x => grind
  omega

theorem sum_range_count_mul {n : Nat} {f : Nat → Nat} (zero : ∀ e, n ≤ e → f e = 0)
    (l : List Nat) : ∑ e ∈ Finset.range n, l.count e * f e = (l.map f).sum := by
  induction l with
  | nil => simp
  | cons a l ih =>
    rw [List.map_cons, List.sum_cons, ← ih]
    have split : ∀ e, (a :: l).count e * f e = (if e = a then f e else 0) + l.count e * f e := by
      grind
    simp only [split, Finset.sum_add_distrib, Finset.sum_ite_eq', Finset.mem_range]
    grind

theorem sum_total_count_mul (h : Heap α) (key : α → List Nat) {n : Nat} {f : Nat → Nat}
    (zero : ∀ e, n ≤ e → f e = 0) : ∑ e ∈ Finset.range n, h.total (fun x => (key x).count e) * f e =
      h.total fun x => ((key x).map f).sum := by
  unfold total
  simp only [Finset.sum_mul]
  rw [Finset.sum_comm]
  apply Finset.sum_congr rfl
  intro a _
  cases h.cell a with
  | none => simp
  | some x => exact sum_range_count_mul zero (key x)

theorem total_eq_zero (dead : ∀ a, ¬ h.Live a) (f : α → Nat) : h.total f = 0 := by
  by_contra some_left
  obtain ⟨a, x, hx, _⟩ := exists_of_total_pos (Nat.pos_of_ne_zero some_left)
  exact dead a (live_iff.mpr ⟨x, hx⟩)

end Heap

/-- The live objects of `h` carry the number of their holders in `rc`. -/
structure Counted {α : Type} (h : Heap α) (rc : α → Nat) (holders : Nat → Nat) : Prop where
  live : ∀ {p x}, h.cell p = some x → rc x = holders p ∧ 0 < holders p
  dead : ∀ {p}, h.cell p = none → holders p = 0

namespace Counted

variable {α : Type} {h : Heap α} {rc : α → Nat} {holders holders' : Nat → Nat}

theorem congr (counted : Counted h rc holders) (same : ∀ p, holders' p = holders p) :
    Counted h rc holders' := by
  have equal : holders' = holders := funext same
  rw [equal]
  exact counted

variable {p : Nat}

theorem exists_of_pos (counted : Counted h rc holders) (held : 0 < holders p) :
    ∃ x, h.cell p = some x := by
  cases cell : h.cell p with
  | none =>
    have zero := counted.dead cell
    omega
  | some x => exact ⟨x, rfl⟩

theorem live_iff_pos (counted : Counted h rc holders) (p : Nat) : h.Live p ↔ 0 < holders p := by
  rw [live_iff]
  constructor
  · rintro ⟨x, hx⟩
    exact (counted.live hx).2
  · exact counted.exists_of_pos

theorem empty : Counted (empty : Heap α) rc (fun _ => 0) where
  live := by
    nofun
  dead := fun _ => rfl

section

variable (counted : Counted h rc holders)
include counted

theorem alloc (positive : 0 < rc x)
    (new : holders' h.next = rc x) (old : ∀ p, p ≠ h.next → holders' p = holders p) :
    Counted (h.alloc x) rc holders' := by
  constructor
  · intro p y hy
    rcases alloc_cell_eq_some.mp hy with ⟨rfl, rfl⟩ | hy
    · exact ⟨new.symm, by omega⟩
    · rw [old p (ne_next hy)]
      exact counted.live hy
  · grind [alloc_cell, dead]

theorem modify (p : Nat) (same : ∀ x, rc (g x) = rc x) : Counted (h.modify p g) rc holders := by
  constructor
  · intro q y hy
    obtain ⟨x, hx, rfl⟩ := modify_cell_eq_some.mp hy
    grind [live]
  · intro q hq
    rw [modify_cell] at hq
    split at hq
    · exact counted.dead (Option.map_eq_none_iff.mp hq)
    · exact counted.dead hq

theorem retain (hx : h.cell p = some x) (more : rc (g x) = rc x + 1)
    (taken : ∀ q, holders' q = holders q + [p].count q) : Counted (h.modify p g) rc holders' := by
  constructor
  · intro q y hy
    obtain ⟨z, hz, rfl⟩ := modify_cell_eq_some.mp hy
    grind [live]
  · grind [modify_cell, dead]

/-- A reference to `p` is given up: the object goes with it or counts one holder less. -/
theorem release (p : Nat) (holders' : Nat → Nat)
    (given : ∀ q, holders q = holders' q + [p].count q) :
    ∃ x, h.cell p = some x ∧ (rc x = 1 → Counted (h.free p) rc holders') ∧
      ∀ {g}, rc x ≠ 1 → rc (g x) = rc x - 1 → Counted (h.modify p g) rc holders' := by
  have held := given p
  rw [List.count_singleton_self] at held
  obtain ⟨x, hx⟩ := counted.exists_of_pos (show 0 < holders p by omega)
  refine ⟨x, hx, fun last => ⟨?_, ?_⟩, fun shared less => ⟨?_, ?_⟩⟩
  · intro q y hy
    obtain ⟨other, hy⟩ := free_cell_eq_some.mp hy
    grind [live]
  · grind [free_cell_ne, live, dead]
  · intro q y hy
    obtain ⟨z, hz, rfl⟩ := modify_cell_eq_some.mp hy
    grind [live]
  · grind [modify_cell, dead]

end

end Counted

end TrueAsync.Lib

import Mathlib.Logic.Function.Basic

/-!
# Allocation heaps

A heap hands out addresses in increasing order and never hands one out twice, so a
released address stays recognisable: an address below the frontier without a cell has been
freed. `read` is the access of a C pointer, and fails on such an address.
-/

namespace TrueAsync.Lib

/-- Cells of type `α` at natural addresses. Nothing lives at or above the frontier `next`. -/
@[ext] structure Heap (α : Type) where
  next : Nat
  cell : Nat → Option α
  fresh : ∀ a, next ≤ a → cell a = none

namespace Heap

variable {α : Type}

def empty : Heap α := ⟨0, fun _ => none, fun _ _ => rfl⟩

/-- `a` holds a cell that has not been released. -/
def Live (h : Heap α) (a : Nat) : Prop := (h.cell a).isSome

instance (h : Heap α) (a : Nat) : Decidable (h.Live a) := inferInstanceAs (Decidable (_ = true))

/-- `malloc`: the new cell is at address `h.next`. -/
def alloc (h : Heap α) (x : α) : Heap α where
  next := h.next + 1
  cell := fun a => if a = h.next then some x else h.cell a
  fresh := by
    grind [Heap.fresh]

/-- Overwrite the cell at `a`, when there is one. -/
def modify (h : Heap α) (a : Nat) (f : α → α) : Heap α where
  next := h.next
  cell := fun b => if b = a then (h.cell b).map f else h.cell b
  fresh := by
    intro b hb
    simp [h.fresh b hb]

/-- An access through the pointer `a`. -/
def read {ε : Type} (h : Heap α) (fault : ε) (a : Nat) : Except ε α :=
  match h.cell a with
  | some x => .ok x
  | none => .error fault

/-- `free`: the cell at `a` is gone for good. -/
def free (h : Heap α) (a : Nat) : Heap α where
  next := h.next
  cell := fun b => if b = a then none else h.cell b
  fresh := by
    intro b hb
    simp [h.fresh b hb]

section

variable (h : Heap α)

@[simp] theorem alloc_next (x : α) : (h.alloc x).next = h.next + 1 := rfl
@[simp] theorem modify_next (a : Nat) (f : α → α) : (h.modify a f).next = h.next := rfl
@[simp] theorem free_next (a : Nat) : (h.free a).next = h.next := rfl

theorem alloc_cell (x : α) (a : Nat) :
    (h.alloc x).cell a = if a = h.next then some x else h.cell a := rfl

theorem modify_cell (a : Nat) (f : α → α) (b : Nat) :
    (h.modify a f).cell b = if b = a then (h.cell b).map f else h.cell b := rfl

theorem free_cell (a b : Nat) : (h.free a).cell b = if b = a then none else h.cell b := rfl

@[simp] theorem alloc_cell_self (x : α) : (h.alloc x).cell h.next = some x := by
  simp [alloc_cell]

end

variable {a : Nat}

theorem alloc_cell_ne (h : Heap α) (x : α) (ne : a ≠ h.next) :
    (h.alloc x).cell a = h.cell a := if_neg ne

@[simp] theorem modify_cell_self (h : Heap α) (a : Nat) (f : α → α) :
    (h.modify a f).cell a = (h.cell a).map f := if_pos rfl

variable {b : Nat}

theorem modify_cell_ne (h : Heap α) (f : α → α) (ne : b ≠ a) :
    (h.modify a f).cell b = h.cell b := if_neg ne

@[simp] theorem free_cell_self (h : Heap α) (a : Nat) : (h.free a).cell a = none := if_pos rfl

theorem free_cell_ne (h : Heap α) (ne : b ≠ a) : (h.free a).cell b = h.cell b := if_neg ne

variable {h : Heap α} {x : α}

theorem read_ok {ε : Type} (found : h.cell a = some x) (fault : ε) : h.read fault a = .ok x := by
  unfold read
  rw [found]

theorem lt_next (found : h.cell a = some x) : a < h.next := by
  grind [fresh]

theorem ne_next (found : h.cell a = some x) : a ≠ h.next := Nat.ne_of_lt (lt_next found)

theorem alloc_cell_of_some {y : α} (found : h.cell a = some y) : (h.alloc x).cell a = some y := by
  rw [alloc_cell_ne _ _ (ne_next found), found]

theorem live_iff : h.Live a ↔ ∃ x, h.cell a = some x := Option.isSome_iff_exists

theorem not_live_iff : ¬ h.Live a ↔ h.cell a = none := by
  simp [Live]

variable {f : α → α}

@[simp] theorem modify_live {h : Heap α} {a b : Nat} : (h.modify a f).Live b ↔ h.Live b := by
  unfold Live
  rw [modify_cell]
  split <;> simp

theorem modify_cell_eq_some {y : α} : (h.modify a f).cell b = some y ↔
      ∃ x, h.cell b = some x ∧ y = if b = a then f x else x := by
  grind [modify_cell, Option.map_eq_some_iff]

theorem free_cell_eq_some : (h.free a).cell b = some x ↔ b ≠ a ∧ h.cell b = some x := by
  rw [free_cell]
  split <;> simp_all

theorem alloc_cell_eq_some {y : α} :
    (h.alloc x).cell b = some y ↔ (b = h.next ∧ y = x) ∨ h.cell b = some y := by
  grind [alloc_cell, fresh]

theorem modify_congr {f g : α → α} (same : ∀ x, h.cell a = some x → f x = g x) :
    h.modify a f = h.modify a g := by
  apply Heap.ext
  · rfl
  · funext b
    rw [modify_cell, modify_cell]
    split
    · next here =>
      subst here
      cases found : h.cell b with
      | none => rfl
      | some x => simp [same x found]
    · rfl

theorem modify_modify (h : Heap α) (a : Nat) (f g : α → α) :
    (h.modify a f).modify a g = h.modify a (fun x => g (f x)) := by
  apply Heap.ext
  · rfl
  · funext b
    simp only [modify_cell]
    split
    · rw [Option.map_map]
      rfl
    · rfl

theorem modify_eq_self (same : ∀ x, h.cell a = some x → f x = x) : h.modify a f = h := by
  rw [modify_congr (g := id) same]
  apply Heap.ext
  · rfl
  · funext b
    rw [modify_cell, Option.map_id, id, ite_self]

theorem alloc_free_cell (h : Heap α) (x : α) (a : Nat) :
    ((h.alloc x).free h.next).cell a = h.cell a := by
  grind [free_cell, alloc_cell, fresh]

end Heap

/-! ## Changes of one cell -/

/-- What happens to one cell and to no other: it becomes what `change` allows, or is freed. -/
structure CellChange {α : Type} (h h' : Heap α) (a : Nat) (change : α → α → Prop) : Prop where
  next : h'.next = h.next
  others : ∀ b, b ≠ a → h'.cell b = h.cell b
  here : ∀ y, h'.cell a = some y → ∃ x, h.cell a = some x ∧ change x y

namespace CellChange

variable {α : Type} {h h' h'' : Heap α} {a : Nat} {change : α → α → Prop}

theorem refl (h : Heap α) (a : Nat) (fits : ∀ x, change x x) : CellChange h h a change :=
  ⟨rfl, fun _ _ => rfl, fun x hx => ⟨x, hx, fits x⟩⟩

theorem modify (h : Heap α) (a : Nat) {g : α → α} (fits : ∀ x, change x (g x)) :
    CellChange h (h.modify a g) a change where
  next := rfl
  others := fun _ other => Heap.modify_cell_ne _ _ other
  here := by
    intro y hy
    rw [Heap.modify_cell_self] at hy
    obtain ⟨x, hx, rfl⟩ := Option.map_eq_some_iff.mp hy
    exact ⟨x, hx, fits x⟩

theorem free (h : Heap α) (a : Nat) (change : α → α → Prop) : CellChange h (h.free a) a change where
  next := rfl
  others := fun _ other => Heap.free_cell_ne _ other
  here := by
    simp

theorem trans {first second both : α → α → Prop} (one : CellChange h h' a first)
    (two : CellChange h' h'' a second) (fits : ∀ x y z, first x y → second y z → both x z) :
    CellChange h h'' a both where
  next := two.next.trans one.next
  others := fun b other => (two.others b other).trans (one.others b other)
  here := by
    intro z hz
    obtain ⟨y, hy, changed⟩ := two.here z hz
    obtain ⟨x, hx, changed'⟩ := one.here y hy
    exact ⟨x, hx, fits x y z changed' changed⟩

end CellChange

end TrueAsync.Lib

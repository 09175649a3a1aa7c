import Mathlib.Data.List.Basic

/-!
# Reports in pieces

An incremental reader reports marks, and data of several kinds in pieces; where one piece ends and
the next begins depends on the buffers it was given. `coalesce` joins adjacent pieces of one kind,
and `expand` takes every piece apart. Both forget the same thing: `coalesce_eq_iff`.
-/

namespace TrueAsync.Lib

open List

/-- A mark, or a piece of data of some kind. -/
inductive Piece (μ κ β : Type)
  | mark (m : μ)
  | data (kind : κ) (text : List β)
  deriving DecidableEq, Repr

namespace Piece

variable {μ κ β : Type}

def Nonempty : Piece μ κ β → Prop
  | .mark _ => True
  | .data _ text => text ≠ []

def items : Piece μ κ β → List (μ ⊕ κ × β)
  | .mark m => [.inl m]
  | .data kind text => text.map fun b => .inr (kind, b)

end Piece

variable {μ κ β : Type}

def expand (pieces : List (Piece μ κ β)) : List (μ ⊕ κ × β) := pieces.flatMap Piece.items

variable (piece : Piece μ κ β)

@[simp] theorem expand_cons (pieces : List (Piece μ κ β)) :
    expand (piece :: pieces) = piece.items ++ expand pieces := rfl

@[simp] theorem expand_append (pieces more : List (Piece μ κ β)) :
    expand (pieces ++ more) = expand pieces ++ expand more :=
  flatMap_append

variable [DecidableEq κ]

def joinPiece : Piece μ κ β → List (Piece μ κ β) → List (Piece μ κ β)
  | .data kind text, .data kind' text' :: rest =>
      if kind = kind' then .data kind (text ++ text') :: rest
      else .data kind text :: .data kind' text' :: rest
  | piece, rest => piece :: rest

def coalesce (pieces : List (Piece μ κ β)) : List (Piece μ κ β) := pieces.foldr joinPiece []

@[simp] theorem coalesce_cons (pieces : List (Piece μ κ β)) :
    coalesce (piece :: pieces) = joinPiece piece (coalesce pieces) := rfl

theorem expand_joinPiece (rest : List (Piece μ κ β)) :
    expand (joinPiece piece rest) = piece.items ++ expand rest := by
  cases piece with
  | mark m => rfl
  | data kind text =>
    cases rest with
    | nil => rfl
    | cons next rest =>
      cases next with
      | mark m => rfl
      | data kind' text' =>
        rw [joinPiece]
        split
        · rename_i same
          subst same
          simp [Piece.items]
        · rfl

theorem expand_coalesce (pieces : List (Piece μ κ β)) : expand (coalesce pieces) = expand pieces := by
  induction pieces with
  | nil => rfl
  | cons piece pieces ih => rw [coalesce_cons, expand_joinPiece, ih, expand_cons]

theorem joinPiece_append (kind : κ) (first second : List β) (rest : List (Piece μ κ β)) :
    joinPiece (.data kind (first ++ second)) rest =
      joinPiece (.data kind first) (joinPiece (.data kind second) rest) := by
  cases rest with
  | nil => simp [joinPiece]
  | cons next rest =>
    cases next with
    | mark m => simp [joinPiece]
    | data kind' text' =>
      by_cases same : kind = kind'
      all_goals simp [joinPiece, same]

def itemPiece : μ ⊕ κ × β → Piece μ κ β
  | .inl m => .mark m
  | .inr (kind, b) => .data kind [b]

theorem joinPiece_items {piece : Piece μ κ β} (nonempty : piece.Nonempty)
    (rest : List (Piece μ κ β)) :
    joinPiece piece rest = (piece.items.map itemPiece).foldr joinPiece rest := by
  cases piece with
  | mark m => rfl
  | data kind text =>
    induction text with
    | nil => exact absurd rfl nonempty
    | cons b text ih =>
      cases text with
      | nil => rfl
      | cons b' text =>
        have first := joinPiece_append kind [b] (b' :: text) rest
        rw [singleton_append] at first
        rw [first, ih (cons_ne_nil _ _)]
        rfl

theorem coalesce_eq_items {pieces : List (Piece μ κ β)} (nonempty : ∀ p ∈ pieces, p.Nonempty) :
    coalesce pieces = coalesce ((expand pieces).map itemPiece) := by
  induction pieces with
  | nil => rfl
  | cons piece pieces ih =>
    have later : ∀ p ∈ pieces, p.Nonempty := fun p member => nonempty p (mem_cons_of_mem _ member)
    rw [coalesce_cons, ih later, joinPiece_items (nonempty piece mem_cons_self), expand_cons,
      map_append, coalesce, coalesce, foldr_append]

theorem coalesce_eq_iff {pieces other : List (Piece μ κ β)} (nonempty : ∀ p ∈ pieces, p.Nonempty)
    (nonempty' : ∀ p ∈ other, p.Nonempty) :
    coalesce pieces = coalesce other ↔ expand pieces = expand other := by
  constructor
  · intro same
    rw [← expand_coalesce pieces, same, expand_coalesce]
  · intro same
    rw [coalesce_eq_items nonempty, coalesce_eq_items nonempty', same]

end TrueAsync.Lib

import Mathlib.Data.List.Basic

/-!
# Wildcard patterns over paths

A pattern is a list of items, each a literal, a wildcard for exactly one element, or a
wildcard for the whole remainder (none of it included). `Pattern.accepts` is the reference
matcher. `literalPrefix` is the part of a pattern in front of its first wildcard.
-/

namespace TrueAsync.Lib

/-- One item of a pattern over elements of type `α`. -/
inductive PatternItem (α : Type) where
  | lit (a : α)
  | one
  | rest
  deriving DecidableEq, Repr

namespace Pattern

variable {α : Type} [DecidableEq α]

/-- The reference matcher. A `rest` that is not the last item matches nothing. -/
def accepts : List (PatternItem α) → List α → Bool
  | [], [] => true
  | [.rest], _ => true
  | .lit p :: ps, a :: as => decide (p = a) && accepts ps as
  | .one :: ps, _ :: as => accepts ps as
  | _, _ => false

def literalPrefix : List (PatternItem α) → List α
  | .lit p :: ps => p :: literalPrefix ps
  | _ => []

@[simp] theorem accepts_nil (as : List α) :
    accepts ([] : List (PatternItem α)) as = as.isEmpty := by
  cases as <;> simp [accepts]

@[simp] theorem accepts_rest (as : List α) : accepts [.rest] as = true := by
  cases as <;> simp [accepts]

@[simp] theorem accepts_lit_cons (p a : α) (ps : List (PatternItem α)) (as : List α) :
    accepts (.lit p :: ps) (a :: as) = (decide (p = a) && accepts ps as) := by
  simp [accepts]

@[simp] theorem accepts_one_cons (a : α) (ps : List (PatternItem α)) (as : List α) :
    accepts (.one :: ps) (a :: as) = accepts ps as := by
  simp [accepts]

@[simp] theorem accepts_lit_nil (p : α) (ps : List (PatternItem α)) :
    accepts (.lit p :: ps) [] = false := by
  simp [accepts]

@[simp] theorem accepts_one_nil (ps : List (PatternItem α)) :
    accepts (.one :: ps) ([] : List α) = false := by
  simp [accepts]

/-- The levels in front of the first wildcard match only themselves, so a path that the
pattern matches starts with them. -/
theorem literalPrefix_of_accepts {ps : List (PatternItem α)} {as : List α}
    (h : accepts ps as = true) : literalPrefix ps <+: as := by
  induction ps generalizing as with
  | nil => simp [literalPrefix]
  | cons p ps ih =>
    cases p with
    | one | rest => simp [literalPrefix]
    | lit p =>
      cases as with
      | nil => simp at h
      | cons a as =>
        simp only [accepts_lit_cons, Bool.and_eq_true, decide_eq_true_eq] at h
        obtain ⟨rfl, h⟩ := h
        simpa [literalPrefix] using ih h

end Pattern

end TrueAsync.Lib

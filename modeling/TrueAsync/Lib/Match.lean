import Mathlib.Data.List.Basic

/-!
# A pattern at the start of a text

`matchPattern` compares a text with a pattern from their first elements on: the text begins with
the pattern, or it ends within it, or it differs from it at some element.
-/

namespace TrueAsync.Lib

variable {α : Type}

/-- How a text stands to a pattern. -/
inductive Match (α : Type)
  | found (rest : List α)
  | more
  | differs (matched : List α) (c : α) (rest : List α)
  deriving DecidableEq, Repr

def Match.after (c : α) : Match α → Match α
  | .differs matched c' rest => .differs (c :: matched) c' rest
  | outcome => outcome

variable [DecidableEq α]

def matchPattern : List α → List α → Match α
  | [], text => .found text
  | _ :: _, [] => .more
  | p :: pattern, c :: text =>
      if c = p then (matchPattern pattern text).after c else .differs [] c text

@[simp] theorem matchPattern_append (pattern rest : List α) :
    matchPattern pattern (pattern ++ rest) = .found rest := by
  induction pattern with
  | nil => cases rest <;> rfl
  | cons p pattern ih => rw [List.cons_append, matchPattern, if_pos rfl, ih]; rfl

theorem matchPattern_text (pattern text : List α) : match matchPattern pattern text with
    | .found rest => text = pattern ++ rest
    | .more => True
    | .differs matched c rest => text = matched ++ c :: rest := by
  fun_induction matchPattern pattern text with
  | case1 | case2 | case4 => trivial
  | case3 pattern _ text ih =>
    cases outcome : matchPattern pattern text with
    | found | differs =>
      rw [outcome] at ih
      exact congrArg (_ :: ·) ih
    | more => trivial

variable {pattern text rest : List α}

theorem eq_of_differs (outcome : matchPattern pattern text = .differs matched c rest) :
    text = matched ++ c :: rest := by
  have whole := matchPattern_text pattern text
  rwa [outcome] at whole

theorem matchPattern_stop {pattern body : List α} {x : α} (absent : x ∉ pattern)
    (other : ¬pattern <+: body) (tail : List α) :
    ∃ matched c rest left, matchPattern pattern (body ++ x :: tail) = .differs matched c rest ∧
      body = matched ++ left ∧ c :: rest = left ++ x :: tail := by
  induction pattern generalizing body with
  | nil => exact absurd List.nil_prefix other
  | cons p pattern ih =>
    rw [List.mem_cons, not_or] at absent
    cases body with
    | nil =>
      refine ⟨[], x, tail, [], ?_, rfl, rfl⟩
      rw [List.nil_append, matchPattern, if_neg absent.1]
    | cons b body =>
      rw [List.cons_append, matchPattern]
      by_cases same : b = p
      · rw [if_pos same]
        have shorter : ¬pattern <+: body := fun begins => other (by
          rw [same]
          exact List.cons_prefix_cons.mpr ⟨rfl, begins⟩)
        obtain ⟨matched, c, rest, left, outcome, split, next⟩ := ih absent.2 shorter
        refine ⟨b :: matched, c, rest, left, ?_, congrArg (b :: ·) split, next⟩
        rw [outcome]
        rfl
      · rw [if_neg same]
        exact ⟨[], b, body ++ x :: tail, b :: body, rfl, rfl, rfl⟩

end TrueAsync.Lib

import Mathlib.Data.List.Perm.Basic
import Mathlib.Data.List.Nodup

/-!
# Arrays as lists

Removal from a dense array by moving its last element into the hole, and removal of the one
element with a given key.
-/

namespace TrueAsync.Lib

open List

variable {α β : Type}

/-- Move the last element to index `i` and shorten the array by one. -/
def swapRemove (l : List α) (i : Nat) : List α :=
  match l.getLast? with
  | none => []
  | some last => (l.set i last).dropLast

theorem swapRemove_perm {l : List α} {i : Nat} (h : i < l.length) :
    (l[i] :: swapRemove l i).Perm l := by
  rcases eq_nil_or_concat l with rfl | ⟨front, last, concat⟩
  · simp at h
  · rw [concat_eq_append] at concat
    subst concat
    have split : swapRemove (front ++ [last]) i = ((front ++ [last]).set i last).dropLast := by
      simp [swapRemove]
    rw [split]
    by_cases inFront : i < front.length
    · rw [set_append_left _ _ inFront, dropLast_concat, getElem_append_left inFront]
      have replaced := set_perm_cons_eraseIdx inFront last
      have removed := getElem_cons_eraseIdx_perm inFront
      apply ((replaced.cons _).trans (List.Perm.swap _ _ _)).trans
      exact (removed.cons _).trans (perm_append_singleton last front).symm
    · have atEnd : i = front.length := by
        simp only [length_append, length_singleton] at h
        omega
      subst atEnd
      simp [perm_append_singleton last front |>.symm]

theorem mem_eraseP_key [DecidableEq β] {key : α → β} {l : List α} (distinct : (l.map key).Nodup)
    (k : β) (x : α) : x ∈ l.eraseP (fun y => key y = k) ↔ x ∈ l ∧ key x ≠ k := by
  induction l with
  | nil => simp
  | cons a l ih =>
    have parts := nodup_cons.mp (map_cons ▸ distinct)
    by_cases here : key a = k
    · rw [eraseP_cons_of_pos (by simpa using here)]
      constructor
      · intro member
        refine ⟨mem_cons_of_mem _ member, ?_⟩
        intro same
        apply parts.1
        rw [here, ← same]
        exact mem_map_of_mem member
      · rintro ⟨member, other⟩
        rcases mem_cons.mp member with rfl | member
        · exact absurd here other
        · exact member
    · rw [eraseP_cons_of_neg (by simpa using here), mem_cons, mem_cons, ih parts.2]
      constructor
      · rintro (rfl | ⟨member, other⟩)
        · exact ⟨.inl rfl, here⟩
        · exact ⟨.inr member, other⟩
      · rintro ⟨rfl | member, other⟩
        · exact .inl rfl
        · exact .inr ⟨member, other⟩

end TrueAsync.Lib

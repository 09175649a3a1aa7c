import Mathlib.Data.List.Induction
import TrueAsync.Lib.Returns

/-!
# Histories

A history is a list that grows at its end. `Along ok` says that every event of a history was in
order when it happened: `ok past event` relates it to what had happened before. `Guarded` is the
same for the events of a run, with a condition on the state they find. A projection of a history is
a `filterMap` of it; events that a projection does not see leave it as it is.
-/

namespace TrueAsync.Lib

open List

variable {α β : Type} {ok : List α → α → Prop} {history extra : List α}

/-- Every event of the history was in order when it happened. -/
def Along (ok : List α → α → Prop) (history : List α) : Prop :=
  ∀ past event future, history = past ++ event :: future → ok past event

namespace Along

theorem nil : Along ok [] := by
  intro past event future split
  cases past <;> cases split

theorem snoc (along : Along ok history) {event : α} (fits : ok history event) :
    Along ok (history ++ [event]) := by
  intro past e future split
  rcases eq_nil_or_concat future with rfl | ⟨earlier, last, rfl⟩
  · obtain ⟨rfl, same⟩ := append_inj' split rfl
    cases same
    exact fits
  · have regroup : past ++ e :: (earlier ++ [last]) = (past ++ e :: earlier) ++ [last] := by simp
    rw [concat_eq_append, regroup] at split
    exact along past e earlier (append_inj' split rfl).1

theorem init (along : Along ok (history ++ extra)) : Along ok history := by
  intro past event future split
  apply along past event (future ++ extra)
  rw [split, append_assoc, cons_append]

theorem append (along : Along ok history) (fits : ∀ past, ∀ event ∈ extra, ok past event) :
    Along ok (history ++ extra) := by
  induction extra generalizing history with
  | nil =>
    rw [append_nil]
    exact along
  | cons event extra ih =>
    rw [← singleton_append, ← append_assoc]
    apply ih
    · exact along.snoc (fits history event mem_cons_self)
    · exact fun past e member => fits past e (mem_cons_of_mem _ member)

theorem run {σ : Type} {step : σ → α → σ} {meets : σ → α → Prop} {I : σ → Prop} {start : σ}
    (kept : ∀ st event, I st → meets st event → I (step st event))
    (along : Along (fun past event => meets (past.foldl step start) event) history)
    (init : I start) : I (history.foldl step start) := by
  induction history generalizing start with
  | nil => exact init
  | cons event later ih =>
    have first : meets start event := along [] event later rfl
    apply ih _ (kept start event init first)
    intro past e future split
    exact along (event :: past) e future (congrArg (event :: ·) split)

/-- A property that each step keeps exactly under a condition holds all along a run exactly if every
step meets the condition. -/
theorem holds_iff {σ : Type} {step : σ → α → σ} {meets : σ → α → Prop} {I P : σ → Prop} {start : σ}
    (kept : ∀ st event, I st → I (step st event))
    (steps : ∀ st event, I st → P st → (P (step st event) ↔ meets st event))
    (init : I start) (holds : P start) : (∀ past, past <+: history → P (past.foldl step start)) ↔
      Along (fun past event => meets (past.foldl step start) event) history := by
  constructor
  · rintro all past event future rfl
    have sound : I (past.foldl step start) :=
      foldlRecOn past step init fun st sound event _ => kept st event sound
    have next := all (past ++ [event]) ⟨future, by simp⟩
    rw [foldl_append] at next
    exact (steps _ event sound (all past (prefix_append _ _))).mp next
  · rintro along past ⟨future, rfl⟩
    have both (st : σ) (event : α) (here : I st ∧ P st) (fits : meets st event) :
        I (step st event) ∧ P (step st event) :=
      ⟨kept st event here.1, (steps st event here.1 here.2).mpr fits⟩
    exact (run both along.init ⟨init, holds⟩).2

end Along

/-- Every event of a run meets a condition on the state that it finds. -/
def Guarded {ε σ : Type} (step : σ → α → Except ε σ) (meets : σ → α → Prop) (start : σ)
    (events : List α) : Prop :=
  Along (fun past event => ∀ st, past.foldlM step start = .ok st → meets st event) events

namespace Guarded

variable {ε σ : Type} {step : σ → α → Except ε σ} {meets : σ → α → Prop} {start : σ}
  {events : List α} {event : α}

theorem head (guarded : Guarded step meets start (event :: events)) : meets start event :=
  guarded [] event events rfl start rfl

theorem tail (guarded : Guarded step meets start (event :: events)) {st : σ}
    (done : step start event = .ok st) : Guarded step meets st events := by
  intro past e future split st' reached
  apply guarded (event :: past) e future (by rw [split]; rfl)
  rw [foldlM_cons, done]
  exact reached

theorem nil : Guarded step meets start [] := Along.nil

theorem cons (first : meets start event)
    (later : ∀ st, step start event = .ok st → Guarded step meets st events) :
    Guarded step meets start (event :: events) := by
  intro past e future split st reached
  cases past with
  | nil =>
    cases split
    cases reached
    exact first
  | cons e' past =>
    cases split
    rw [foldlM_cons] at reached
    cases done : step start event with
    | error fault =>
      rw [done] at reached
      cases reached
    | ok st' =>
      rw [done] at reached
      exact later st' done past e future rfl st reached

theorem run {allowed : ε → Prop} {I : σ → Prop}
    (kept : ∀ st event, I st → meets st event → FailsOnly allowed (step st event) I)
    (guarded : Guarded step meets start events) (init : I start) :
    FailsOnly allowed (events.foldlM step start) I := by
  induction events generalizing start with
  | nil => exact .pure init
  | cons event events ih =>
    rw [foldlM_cons]
    have first := kept start event init guarded.head
    cases done : step start event with
    | error fault => exact .error (first.1 fault done)
    | ok st => exact ih (guarded.tail done) (first.2 st done)

theorem returns {I : σ → Prop}
    (kept : ∀ st event, I st → meets st event → Returns (step st event) I)
    (guarded : Guarded step meets start events) (init : I start) :
    Returns (events.foldlM step start) I := by
  induction events generalizing start with
  | nil => exact .pure init
  | cons event events ih =>
    rw [foldlM_cons]
    obtain ⟨st, done, first⟩ := kept start event init guarded.head
    rw [done]
    exact ih (guarded.tail done) first

/-- A run is guarded if what a step breaks by missing the condition holds all along the run. -/
theorem of_holds {P : Except ε σ → Prop} {I : σ → Prop}
    (kept : ∀ {past}, Guarded step meets start past → Ensures (past.foldlM step start) I)
    (breaks : ∀ st event, I st → ¬meets st event → ¬P (step st event))
    (holds : ∀ past future, events = past ++ future → P (past.foldlM step start)) :
    Guarded step meets start events := by
  induction events using reverseRecOn with
  | nil => exact .nil
  | append_singleton events event ih =>
    have guarded : Guarded step meets start events :=
      ih fun past future split => holds past (future ++ [event]) (by simp [split])
    refine Along.snoc guarded fun st reached => ?_
    by_contra broken
    apply breaks st event (kept guarded st reached) broken
    have whole := holds (events ++ [event]) [] (by simp)
    rw [foldlM_append, reached, ok_bind, foldlM_cons] at whole
    simpa using whole

end Guarded

theorem filterMap_append_unseen {f : α → Option β} (unseen : ∀ event ∈ extra, f event = none) :
    (history ++ extra).filterMap f = history.filterMap f := by
  rw [filterMap_append, filterMap_eq_nil_iff.mpr unseen, append_nil]

end TrueAsync.Lib

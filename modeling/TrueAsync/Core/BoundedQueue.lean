import Mathlib.Data.List.Basic

/-!
# Bounded queues

`thread_mpsc_t` and `thread_cmd_mpsc_t` of `src/core/thread_queue.cc`: a counter in front of a queue
that any number of producers push to. Each access to the counter or to the queue is one step.
-/

namespace TrueAsync.Core

/-- `thread_mpsc_s`, with the number of items in the queue. The producers are those in the loop of
`cap_reserve`, with the count they have read, those with a reserved slot, and those whose push has
failed; the consumer has `taken` items that it has not subtracted yet. `refusals`, with the count that
was read, and `underflow` are history. -/
structure BoundedQueue where
  capacity : Nat
  count : Nat := 0
  items : Nat := 0
  loaded : List Nat := []
  reserved : Nat := 0
  failed : Nat := 0
  taken : Nat := 0
  refusals : List Nat := []
  underflow : Bool := false

/-- The steps of a producer: the first read of the count, the exchange for the count it has read, the
push, the roll back; and those of the consumer. -/
inductive QueueStep where
  | load
  | exchange (prev : Nat) (spurious : Bool)
  | push (stored : Bool)
  | rollBack
  | dequeue (n : Nat)
  | subtract

namespace BoundedQueue

/-- The test in `cap_reserve` of a count that was just read. -/
def test (q : BoundedQueue) : BoundedQueue :=
  if q.capacity ≤ q.count then { q with refusals := q.count :: q.refusals }
  else { q with loaded := q.count :: q.loaded }

def fetchSub (q : BoundedQueue) (n : Nat) : BoundedQueue :=
  { q with count := q.count - n, underflow := q.underflow || decide (q.count < n) }

/-- One step; an exchange that fails has read the count again. -/
def step (q : BoundedQueue) : QueueStep → BoundedQueue
  | .load => q.test
  | .exchange prev spurious =>
    if prev ∈ q.loaded then
      let q := { q with loaded := q.loaded.erase prev }
      if q.count = prev ∧ spurious = false then
        { q with count := q.count + 1, reserved := q.reserved + 1 }
      else q.test
    else q
  | .push stored =>
    if q.reserved = 0 then q
    else if stored then { q with reserved := q.reserved - 1, items := q.items + 1 }
    else { q with reserved := q.reserved - 1, failed := q.failed + 1 }
  | .rollBack => if q.failed = 0 then q else { q with failed := q.failed - 1 }.fetchSub 1
  | .dequeue n =>
    if q.taken = 0 ∧ n ≤ q.items then { q with items := q.items - n, taken := n } else q
  | .subtract => { q with taken := 0 }.fetchSub q.taken

/-- Every counted slot is an item, held by a producer, or taken. -/
structure Counted (q : BoundedQueue) : Prop where
  count : q.count = q.items + q.reserved + q.failed + q.taken
  bounded : q.count ≤ q.capacity
  loaded : ∀ prev ∈ q.loaded, prev < q.capacity
  refusals : ∀ c ∈ q.refusals, c = q.capacity
  underflow : q.underflow = false

variable {q : BoundedQueue}

theorem Counted.test (counted : q.Counted) : q.test.Counted := by
  have bounded := counted.bounded
  unfold BoundedQueue.test
  split_ifs with full
  · have refused : q.count = q.capacity := Nat.le_antisymm bounded full
    exact { counted with refusals := List.forall_mem_cons.mpr ⟨refused, counted.refusals⟩ }
  · have read : q.count < q.capacity := Nat.lt_of_not_le full
    exact { counted with loaded := List.forall_mem_cons.mpr ⟨read, counted.loaded⟩ }

theorem Counted.fetchSub (counted : q.Counted) (enough : n ≤ q.count) {items failed taken : Nat}
    (count : q.count = items + q.reserved + failed + taken + n) :
    Counted ({ q with items, failed, taken }.fetchSub n) where
  count := by simp only [BoundedQueue.fetchSub]; omega
  bounded := Nat.le_trans (Nat.sub_le _ _) counted.bounded
  loaded := counted.loaded
  refusals := counted.refusals
  underflow := by simpa [BoundedQueue.fetchSub, counted.underflow] using enough

theorem Counted.step (counted : q.Counted) (step : QueueStep) : (q.step step).Counted := by
  have count := counted.count
  cases step with
  | load => exact counted.test
  | exchange prev spurious =>
    simp only [BoundedQueue.step]
    split_ifs with read won
    · have room := counted.loaded prev read
      exact { counted with
        count := by dsimp only; omega
        bounded := by dsimp only; omega
        loaded := fun p member => counted.loaded p (List.mem_of_mem_erase member) }
    · have left : Counted { q with loaded := q.loaded.erase prev } :=
        { counted with loaded := fun p member => counted.loaded p (List.mem_of_mem_erase member) }
      exact left.test
    · exact counted
  | push stored =>
    simp only [BoundedQueue.step]
    split_ifs
    · exact counted
    · exact { counted with count := by dsimp only; omega }
    · exact { counted with count := by dsimp only; omega }
  | rollBack =>
    simp only [BoundedQueue.step]
    split_ifs
    · exact counted
    · exact counted.fetchSub (by omega) (by omega)
  | dequeue n =>
    simp only [BoundedQueue.step]
    split_ifs
    · exact { counted with count := by dsimp only; omega }
    · exact counted
  | subtract => exact counted.fetchSub (by omega) (by omega)

end BoundedQueue

/-- Under every interleaving the items are at most as many as the counter, which stays between zero and
the capacity, and a reservation is refused only when it reads the capacity. -/
theorem bounded_queue_counted (capacity : Nat) (steps : List QueueStep) :
    let q := steps.foldl BoundedQueue.step { capacity }
    q.items ≤ q.count ∧ q.count ≤ q.capacity ∧ q.underflow = false ∧
      ∀ c ∈ q.refusals, c = q.capacity := by
  have counted : (steps.foldl BoundedQueue.step { capacity }).Counted :=
    List.foldlRecOn steps _ ⟨rfl, Nat.zero_le _, by simp, by simp, rfl⟩
      fun _ counted step _ => counted.step step
  have count := counted.count
  exact ⟨by omega, counted.bounded, counted.underflow, counted.refusals⟩

end TrueAsync.Core

import Mathlib.Algebra.Ring.Nat
import Mathlib.Data.List.Basic

/-!
# Picking a worker

The two scans of `src/core/worker_registry.c`. Both start at a shared cursor, an unsigned int that
wraps, and take the position modulo the number of slots they look at.
-/

namespace TrueAsync.Core

open List

/-- `worker_inbox_t *`. -/
abbrev InboxPtr := Nat

/-- `worker_registry_t`: an empty slot is `none`. -/
structure WorkerRegistry where
  slots : List (Option InboxPtr)
  rr : UInt32
  deriving DecidableEq, Repr

/-- The positions `(start + k) % n`, in unsigned arithmetic. -/
def rotation (start : UInt32) (n : Nat) : List Nat :=
  (range n).map fun k => (start.toNat + k) % 2 ^ 32 % n

/-- `step` and `base`; a negative `reactor_id` is `none`. -/
def stride (reactorId : Option Nat) (nReactors : Nat) : Nat × Nat :=
  match reactorId with
  | some reactorId => if 1 < nReactors then (nReactors, reactorId % nReactors) else (1, 0)
  | none => (1, 0)

/-- The slots of a reactor. -/
def Owns (reactorId : Option Nat) (nReactors slot : Nat) : Prop :=
  slot % (stride reactorId nReactors).1 = (stride reactorId nReactors).2

def npos (capacity : Nat) (reactorId : Option Nat) (nReactors : Nat) : Nat :=
  let (step, base) := stride reactorId nReactors
  (capacity - base + step - 1) / step

namespace WorkerRegistry

def load (reg : WorkerRegistry) (slot : Nat) : Option InboxPtr := (reg.slots[slot]?).join

/-- `worker_registry_pick`. -/
def pick (reg : WorkerRegistry) : Option InboxPtr × WorkerRegistry :=
  ((rotation reg.rr reg.slots.length).findSome? reg.load, { reg with rr := reg.rr + 1 })

/-- The loop of `worker_registry_least_busy`; `best` comes with its slot. -/
def leastBusyLoop (reg : WorkerRegistry) (depth : InboxPtr → Nat) :
    List Nat → Option (InboxPtr × Nat) → Option (InboxPtr × Nat)
  | [], best => best
  | slot :: slots, best =>
    match reg.load slot with
    | none => reg.leastBusyLoop depth slots best
    | some inbox =>
      let best := match best with
        | some best => if depth inbox < depth best.1 then (inbox, slot) else best
        | none => (inbox, slot)
      if depth best.1 = 0 then some best else reg.leastBusyLoop depth slots (some best)

/-- The slots that the loop visits. -/
def scan (reg : WorkerRegistry) (reactorId : Option Nat) (nReactors : Nat) : List Nat :=
  let (step, base) := stride reactorId nReactors
  (rotation reg.rr (npos reg.slots.length reactorId nReactors)).map fun p => base + p * step

/-- `worker_registry_least_busy`, with `out_slot`. -/
def leastBusy (reg : WorkerRegistry) (depth : InboxPtr → Nat) (reactorId : Option Nat)
    (nReactors : Nat) : Option (InboxPtr × Nat) × WorkerRegistry :=
  if reg.slots.length ≤ (stride reactorId nReactors).2 then (none, reg)
  else (reg.leastBusyLoop depth (reg.scan reactorId nReactors) none, { reg with rr := reg.rr + 1 })

/-- A worker of minimal depth among those in some slots. -/
def IsLeastBusy (reg : WorkerRegistry) (depth : InboxPtr → Nat) (slots : Nat → Prop) :
    Option (InboxPtr × Nat) → Prop
  | none => ∀ slot, slots slot → reg.load slot = none
  | some (inbox, slot) => slots slot ∧ reg.load slot = some inbox ∧
      ∀ other inbox', slots other → reg.load other = some inbox' → depth inbox ≤ depth inbox'

end WorkerRegistry

open WorkerRegistry

/-- A pick finds a worker whenever there is one. -/
def Picks (capacity : Nat) (rr : UInt32) : Prop :=
  ∀ reg : WorkerRegistry, reg.slots.length = capacity → reg.rr = rr →
    (∃ slot inbox, reg.load slot = some inbox) → reg.pick.1 ≠ none

/-- The scan of a reactor finds the least busy of its workers. -/
def PicksLeastBusy (capacity : Nat) (rr : UInt32) (reactorId : Option Nat) (nReactors : Nat) :
    Prop :=
  ∀ (reg : WorkerRegistry) (depth : InboxPtr → Nat), reg.slots.length = capacity → reg.rr = rr →
    reg.IsLeastBusy depth (Owns reactorId nReactors) (reg.leastBusy depth reactorId nReactors).1

/-- The cursor does not wrap during a scan of `n` slots, or its range is a multiple of `n`. -/
def Aligned (rr : UInt32) (n : Nat) : Prop := rr.toNat + n ≤ 2 ^ 32 ∨ n ∣ 2 ^ 32

/-! ## The cursor -/

theorem exists_add_mod_eq (start : Nat) {n i : Nat} (inside : i < n) :
    ∃ k < n, (start + k) % n = i := by
  have small : start % n < n := Nat.mod_lt _ (by omega)
  have round : start % n + (i + n - start % n) = i + n := by omega
  refine ⟨(i + n - start % n) % n, Nat.mod_lt _ (by omega), ?_⟩
  rw [Nat.add_mod_mod, ← Nat.mod_add_mod, round, Nat.add_mod_right, Nat.mod_eq_of_lt inside]

variable {rr : UInt32} {n : Nat}

theorem rotation_covers_iff : (∀ i < n, i ∈ rotation rr n) ↔ Aligned rr n := by
  simp only [rotation, mem_map, mem_range, Aligned]
  have below := rr.toNat_lt
  generalize rr.toNat = start at *
  constructor
  · intro covers
    by_contra neither
    obtain ⟨wraps, rest⟩ := not_or.mp neither
    have remainder : 2 ^ 32 % n ≠ 0 := fun zero => rest (Nat.dvd_of_mod_eq_zero zero)
    have small : 2 ^ 32 % n < n := Nat.mod_lt _ (by omega)
    have whole := Nat.div_add_mod (2 ^ 32) n
    -- this position is past those visited before the wrap and past those visited after it
    obtain ⟨k, inside, hit⟩ := covers (n - 1 - (2 ^ 32 - start - 2 ^ 32 % n)) (by omega)
    by_cases early : start + k < 2 ^ 32
    · rw [Nat.mod_eq_of_lt early] at hit
      have split := Nat.div_add_mod (start + k) n
      rcases Nat.lt_or_ge ((start + k) / n) (2 ^ 32 / n) with lower | upper
      · have gap := Nat.mul_le_mul_left n lower
        rw [Nat.mul_succ] at gap
        omega
      · have gap := Nat.mul_le_mul_left n upper
        omega
    · have le := Nat.mod_le ((start + k) % 2 ^ 32) n
      omega
  · rintro (fits | divides) i inside
    all_goals
      obtain ⟨k, less, hit⟩ := exists_add_mod_eq start inside
      refine ⟨k, less, ?_⟩
    · rw [Nat.mod_eq_of_lt (show start + k < 2 ^ 32 by omega), hit]
    · rw [Nat.mod_mod_of_dvd _ divides, hit]

/-! ## The scans -/

variable {reg : WorkerRegistry} {depth : InboxPtr → Nat} {reactorId : Option Nat}
  {capacity slot : Nat} {inbox : InboxPtr}

theorem load_lt (occupied : reg.load slot = some inbox) : slot < reg.slots.length := by
  simp only [load] at occupied
  grind

theorem leastBusyLoop_spec (slots : List Nat) (best : Option (InboxPtr × Nat)) :
    match reg.leastBusyLoop depth slots best with
    | none => best = none ∧ ∀ slot ∈ slots, reg.load slot = none
    | some (inbox, slot) =>
        (best = some (inbox, slot) ∨ slot ∈ slots ∧ reg.load slot = some inbox) ∧
        (∀ b ∈ best, depth inbox ≤ depth b.1) ∧
        ∀ other ∈ slots, ∀ inbox' ∈ reg.load other, depth inbox ≤ depth inbox' := by
  induction slots generalizing best with
  | nil => cases best <;> simp [leastBusyLoop]
  | cons slot slots ih =>
    unfold leastBusyLoop
    cases found : reg.load slot with
    | none => grind
    | some inbox =>
      dsimp only
      grind

variable (reactorId n) in
theorem stride_lt : (stride reactorId n).2 < (stride reactorId n).1 := by
  unfold stride
  split
  · split
    · exact Nat.mod_lt _ (by omega)
    · exact Nat.one_pos
  · exact Nat.one_pos

theorem owns_iff : slot < capacity ∧ Owns reactorId n slot ↔ ∃ p < npos capacity reactorId n,
    (stride reactorId n).2 + p * (stride reactorId n).1 = slot := by
  have less := stride_lt n reactorId
  unfold npos Owns
  generalize stride reactorId n = s at *
  obtain ⟨step, base⟩ := s
  dsimp only at *
  have bound : ∀ p, p < (capacity - base + step - 1) / step ↔ p * step < capacity - base := by
    intro p
    rw [Nat.lt_iff_add_one_le, Nat.le_div_iff_mul_le (by omega), Nat.succ_mul]
    omega
  constructor
  · rintro ⟨inside, here⟩
    have whole := Nat.div_add_mod slot step
    rw [mul_comm] at whole
    exact ⟨slot / step, (bound _).mpr (by omega), by omega⟩
  · rintro ⟨p, inside, rfl⟩
    have := (bound p).mp inside
    rw [Nat.add_mul_mod_self_right, Nat.mod_eq_of_lt less]
    omega

theorem mem_scan : slot ∈ reg.scan reactorId n ↔
    ∃ p ∈ rotation reg.rr (npos reg.slots.length reactorId n),
      (stride reactorId n).2 + p * (stride reactorId n).1 = slot := mem_map

variable (reg depth reactorId n) in
theorem leastBusy_least :
    reg.IsLeastBusy depth (· ∈ reg.scan reactorId n) (reg.leastBusy depth reactorId n).1 := by
  unfold leastBusy
  split
  · rename_i outside
    intro slot visited
    obtain ⟨p, -, rfl⟩ := mem_scan.mp visited
    rw [Option.eq_none_iff_forall_ne_some]
    intro inbox occupied
    have := load_lt occupied
    omega
  · have spec := @leastBusyLoop_spec reg depth (reg.scan reactorId n) none
    dsimp only
    split at spec
    · rename_i same
      rw [same]
      exact spec.2
    · rename_i same
      rw [same]
      grind [IsLeastBusy]

/-- One worker, in the given slot. -/
def only (capacity slot : Nat) (rr : UInt32) : WorkerRegistry :=
  ⟨(replicate capacity none).set slot (some 0), rr⟩

theorem only_length : (only capacity slot rr).slots.length = capacity := by simp [only]

theorem only_load : (only capacity slot rr).load other = some inbox ↔
    other = slot ∧ slot < capacity ∧ inbox = 0 := by
  simp only [only, load, getElem?_set, length_replicate]
  grind

theorem picks_iff : Picks capacity rr ↔ Aligned rr capacity := by
  rw [← rotation_covers_iff]
  constructor
  · intro picks i inside
    have found := picks (only capacity i rr) only_length rfl
      ⟨i, 0, only_load.mpr ⟨rfl, inside, rfl⟩⟩
    obtain ⟨inbox, picked⟩ := Option.ne_none_iff_exists'.mp found
    obtain ⟨slot, visited, occupied⟩ := exists_of_findSome?_eq_some picked
    rw [only_length, (only_load.mp occupied).1] at visited
    exact visited
  · rintro covers reg rfl rfl ⟨slot, inbox, occupied⟩ none
    have empty := findSome?_eq_none_iff.mp none slot (covers slot (load_lt occupied))
    rw [occupied] at empty
    cases empty

theorem mem_scan_of_least (below : slot < capacity) (owns : Owns reactorId n slot)
    (least : PicksLeastBusy capacity rr reactorId n) :
    slot ∈ (only capacity slot rr).scan reactorId n := by
  have right := least (only capacity slot rr) id only_length rfl
  have visits := leastBusy_least n (only capacity slot rr) id reactorId
  cases found : ((only capacity slot rr).leastBusy id reactorId n).1 with
  | none =>
    rw [found] at right
    have empty := right slot owns
    rw [only_load.mpr ⟨rfl, below, rfl⟩] at empty
    cases empty
  | some best =>
    rw [found] at visits
    obtain ⟨visited, occupied, -⟩ := visits
    rw [(only_load.mp occupied).1] at visited
    exact visited

theorem picksLeastBusy_iff :
    PicksLeastBusy capacity rr reactorId n ↔ Aligned rr (npos capacity reactorId n) := by
  rw [← rotation_covers_iff]
  constructor
  · intro least i inside
    obtain ⟨below, owns⟩ := owns_iff.mpr ⟨i, inside, rfl⟩
    obtain ⟨p, visited, same⟩ := mem_scan.mp (mem_scan_of_least below owns least)
    have here := Nat.eq_of_mul_eq_mul_right (Nat.zero_lt_of_lt (stride_lt n reactorId))
      (Nat.add_left_cancel same)
    rw [only_length, here] at visited
    exact visited
  · rintro covers reg depth rfl rfl
    have visits := leastBusy_least n reg depth reactorId
    have inScan : ∀ slot inbox, reg.load slot = some inbox → Owns reactorId n slot →
        slot ∈ reg.scan reactorId n := by
      intro slot inbox occupied owns
      obtain ⟨p, inside, rfl⟩ := owns_iff.mp ⟨load_lt occupied, owns⟩
      exact mem_scan.mpr ⟨p, covers p inside, rfl⟩
    cases found : (reg.leastBusy depth reactorId n).1 with
    | none =>
      rw [found] at visits
      intro slot owns
      cases occupied : reg.load slot with
      | none => rfl
      | some inbox => exact occupied.symm.trans (visits slot (inScan slot inbox occupied owns))
    | some best =>
      rw [found] at visits
      obtain ⟨visited, occupied, least⟩ := visits
      refine ⟨?_, occupied, fun other _ owns here => least other _ (inScan _ _ here owns) here⟩
      obtain ⟨p, member, same⟩ := mem_scan.mp visited
      obtain ⟨k, inside, rfl⟩ := mem_map.mp member
      exact (owns_iff.mpr ⟨_, Nat.mod_lt _ (Nat.zero_lt_of_lt (mem_range.mp inside)), same⟩).2

theorem owns_some (positive : 0 < n) (r : Nat) : Owns (some r) n slot ↔ slot % n = r % n := by
  unfold Owns stride
  dsimp only
  split
  · rfl
  · obtain rfl : n = 1 := by omega
    simp only [Nat.mod_one]

/-- The scans find what they look for whatever the slots hold, if and only if the cursor is in step
with the slots, and every slot has one reactor. -/
theorem worker_selection_iff (capacity : Nat) (rr : UInt32) :
    (Picks capacity rr ↔ Aligned rr capacity) ∧
      (∀ reactorId nReactors, PicksLeastBusy capacity rr reactorId nReactors ↔
        Aligned rr (npos capacity reactorId nReactors)) ∧
      ∀ nReactors slot, 0 < nReactors →
        ∃! reactorId, reactorId < nReactors ∧ Owns (some reactorId) nReactors slot := by
  refine ⟨picks_iff, fun _ _ => picksLeastBusy_iff, ?_⟩
  intro n slot positive
  refine ⟨slot % n, ⟨Nat.mod_lt _ positive, ?_⟩, ?_⟩
  · rw [owns_some positive, Nat.mod_mod]
  · rintro r ⟨less, owns⟩
    rw [owns_some positive, Nat.mod_eq_of_lt less] at owns
    exact owns.symm

/-- Three slots, with the cursor at its last value: slot 0 is visited twice and slot 2 never. -/
theorem last_slot_never_picked :
    (⟨[none, none, some 7], 0xffffffff⟩ : WorkerRegistry).pick.1 = none := by decide

end TrueAsync.Core

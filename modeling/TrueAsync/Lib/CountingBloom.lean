import Mathlib.Algebra.Order.BigOperators.Group.List
import Mathlib.Algebra.Order.Ring.Nat
import Mathlib.Data.BitVec
import Mathlib.Data.List.Basic
import Mathlib.Logic.Function.Basic

/-!
# Counting Bloom filters on machine counters

A key is probed in a few buckets, an insertion adds one to the counter of each of them and a
deletion subtracts one. The counters are `w` bits wide and wrap around. `Balanced` says what
they hold: in each bucket the number of probes of the outstanding keys, modulo `2 ^ w`.
There are no false negatives as long as that number does not reach `2 ^ w`.
-/

namespace TrueAsync.Lib.CountingBloom

open List

variable {κ β : Type} [DecidableEq β] {w : Nat} (probes : κ → List β)

/-- Add `delta` to the counter of every probe of a key. -/
def bump (counters : β → BitVec w) (key : κ) (delta : BitVec w) : β → BitVec w :=
  (probes key).foldl (fun counters b => Function.update counters b (counters b + delta)) counters

def contains (counters : β → BitVec w) (key : κ) : Bool := (probes key).all fun b => counters b != 0

/-- The number of probes the outstanding keys have in a bucket. -/
def load (live : List κ) (b : β) : Nat := (live.map fun key => (probes key).count b).sum

def Balanced (counters : β → BitVec w) (live : List κ) : Prop :=
  ∀ b, counters b = BitVec.ofNat w (load probes live b)

variable {probes}

theorem foldl_update_apply (bs : List β) (delta : BitVec w) (b : β) :
    bs.foldl (fun counters b => Function.update counters b (counters b + delta)) counters b =
      counters b + BitVec.ofNat w (bs.count b) * delta := by
  induction bs generalizing counters with
  | nil => simp
  | cons a bs ih =>
    rw [foldl_cons, ih]
    by_cases here : b = a
    · subst here
      rw [Function.update_self, count_cons_self, BitVec.ofNat_add, BitVec.add_assoc]
      congr 1
      rw [BitVec.add_mul, BitVec.add_comm]
      simp
    · rw [Function.update_of_ne here, count_cons_of_ne (Ne.symm here)]

theorem bump_apply (key : κ) (delta : BitVec w) (b : β) :
    bump probes counters key delta b = counters b + BitVec.ofNat w ((probes key).count b) * delta :=
  foldl_update_apply _ _ _

theorem load_cons (key : κ) (b : β) :
    load probes (key :: live) b = (probes key).count b + load probes live b := rfl

variable {live : List κ}

theorem load_perm {live' : List κ} (perm : live.Perm live') (b : β) :
    load probes live b = load probes live' b :=
  (perm.map _).sum_nat

theorem balanced_nil : Balanced probes (fun _ => (0 : BitVec w)) [] := fun _ => rfl

variable {counters : β → BitVec w}

theorem Balanced.add (h : Balanced probes counters live) (key : κ) :
    Balanced probes (bump probes counters key 1) (key :: live) := by
  intro b
  rw [bump_apply, h b, load_cons, BitVec.ofNat_add, mul_one, BitVec.add_comm]

variable {key : κ}

theorem Balanced.remove {rest : List κ} (h : Balanced probes counters live)
    (perm : live.Perm (key :: rest)) : Balanced probes (bump probes counters key (-1)) rest := by
  intro b
  rw [bump_apply, h b, load_perm perm, load_cons, BitVec.ofNat_add, BitVec.mul_neg, mul_one,
    BitVec.add_comm (BitVec.ofNat w _), BitVec.add_assoc, BitVec.add_right_neg, BitVec.add_zero]

theorem load_le_length (distinct : ∀ key, (probes key).Nodup) (live : List κ) (b : β) :
    load probes live b ≤ live.length := by
  induction live with
  | nil => exact Nat.le_refl 0
  | cons key live ih =>
    have one : (probes key).count b ≤ 1 := nodup_iff_count_le_one.mp (distinct key) b
    rw [load_cons, length_cons]
    omega

theorem load_pos (member : key ∈ live) {b : β} (probed : b ∈ probes key) :
    0 < load probes live b := by
  have one : 0 < (probes key).count b := count_pos_iff.mpr probed
  have part : (probes key).count b ≤ load probes live b :=
    single_le_sum (fun _ _ => Nat.zero_le _) _ (mem_map.mpr ⟨key, member, rfl⟩)
  omega

theorem Balanced.contains (h : Balanced probes counters live)
    (fits : ∀ b, load probes live b < 2 ^ w) (member : key ∈ live) :
    contains probes counters key = true := by
  unfold CountingBloom.contains
  rw [all_eq_true]
  intro b probed
  have positive := load_pos member probed
  rw [bne_iff_ne, h b]
  intro zero
  have value := congrArg BitVec.toNat zero
  rw [BitVec.toNat_ofNat, Nat.mod_eq_of_lt (fits b)] at value
  simp at value
  omega

theorem Balanced.toInt (h : Balanced probes counters live) (b : β)
    (fits : 2 * load probes live b < 2 ^ w) : (counters b).toInt = load probes live b := by
  have small : load probes live b < 2 ^ w := by omega
  rw [h b, BitVec.toInt_eq_toNat_cond, BitVec.toNat_ofNat, Nat.mod_eq_of_lt small, if_pos fits]

end TrueAsync.Lib.CountingBloom

import Mathlib.Data.Nat.Digits.Defs
import TrueAsync.Lib.Ascii

/-!
# Numerals

`printf` of an unsigned integer in a base up to 16 with lower-case digits, and the way back: a
reader of numerals that takes the digits of both cases.
-/

namespace TrueAsync.Lib

open List

def digitByte (d : Nat) : UInt8 := UInt8.ofNat (if d < 10 then 0x30 + d else 0x57 + d)

/-- `%lu` in base 10, `%lx` in base 16. -/
def numeral (base n : Nat) : Bytes :=
  if n = 0 then [digitByte 0] else ((base.digits n).map digitByte).reverse

def digitValue (b : UInt8) : Option Nat :=
  if 0x30 ≤ b.toNat ∧ b.toNat ≤ 0x39 then some (b.toNat - 0x30)
  else if 0x61 ≤ b.toNat ∧ b.toNat ≤ 0x66 then some (b.toNat - 0x57)
  else if 0x41 ≤ b.toNat ∧ b.toNat ≤ 0x46 then some (b.toNat - 0x37)
  else none

def readDigits (base : Nat) (n : Nat) : Bytes → Option Nat
  | [] => some n
  | b :: rest =>
      match digitValue b with
      | none => none
      | some d => if d < base then readDigits base (n * base + d) rest else none

def readNumeral (base : Nat) (text : Bytes) : Option Nat :=
  if text = [] then none else readDigits base 0 text

theorem digitByte_toNat {d : Nat} (small : d < 16) :
    (digitByte d).toNat = if d < 10 then 0x30 + d else 0x57 + d := by
  unfold digitByte
  rw [UInt8.toNat_ofNat']
  split <;> omega

theorem digitValue_digitByte {d : Nat} (small : d < 16) : digitValue (digitByte d) = some d := by
  unfold digitValue
  rw [digitByte_toNat small]
  by_cases decimal : d < 10
  · rw [if_pos decimal, if_pos (by omega)]
    congr 1
    omega
  · rw [if_neg decimal, if_neg (by omega), if_pos (by omega)]
    congr 1
    omega

theorem readDigits_append (base n : Nat) (text more : Bytes) : readDigits base n (text ++ more) =
      (readDigits base n text).bind fun m => readDigits base m more := by
  induction text generalizing n with
  | nil => rfl
  | cons b rest ih =>
    simp only [cons_append, readDigits]
    split
    · rfl
    · split
      · exact ih _
      · rfl

variable {base : Nat}

theorem readDigits_reverse (small : base ≤ 16) {ds : List Nat} (digits : ∀ d ∈ ds, d < base) :
    readDigits base 0 (ds.map digitByte).reverse = some (Nat.ofDigits base ds) := by
  induction ds with
  | nil => rfl
  | cons d ds ih =>
    have first : d < base := digits d mem_cons_self
    have value := digitValue_digitByte (first.trans_le small)
    rw [map_cons, reverse_cons, readDigits_append,
      ih fun d' member => digits d' (mem_cons_of_mem _ member), Nat.ofDigits_cons]
    simp only [Option.bind_some, readDigits, value, if_pos first]
    congr 1
    ring_nf

theorem numeral_ne_nil (base n : Nat) : numeral base n ≠ [] := by
  unfold numeral
  split
  · exact cons_ne_nil _ _
  · rename_i positive
    simpa [Nat.digits_eq_nil_iff_eq_zero] using positive

theorem readNumeral_numeral (large : 1 < base) (small : base ≤ 16) (n : Nat) :
    readNumeral base (numeral base n) = some n := by
  rw [readNumeral, if_neg (numeral_ne_nil base n)]
  unfold numeral
  split
  · rename_i zero
    simp only [readDigits, digitValue_digitByte (show 0 < 16 by decide)]
    rw [if_pos (by omega), zero, Nat.zero_mul]
  · rw [readDigits_reverse small fun d member => Nat.digits_lt_base large member,
      Nat.ofDigits_digits]

theorem mem_numeral {n : Nat} (large : 1 < base) {b : UInt8} (member : b ∈ numeral base n) :
    ∃ d < base, b = digitByte d := by
  unfold numeral at member
  split at member
  · exact ⟨0, by omega, mem_singleton.mp member⟩
  · rw [mem_reverse, mem_map] at member
    obtain ⟨d, digit, rfl⟩ := member
    exact ⟨d, Nat.digits_lt_base large digit, rfl⟩

end TrueAsync.Lib

import TrueAsync.Lib.Ascii

/-!
# Well-formed UTF-8

The byte grammar of RFC 3629 §4: a well-formed string is a sequence of the `UTF8-1` to `UTF8-4`
forms, which leave out overlong forms, surrogates and everything above U+10FFFF.
-/

namespace TrueAsync.Lib

/-- `UTF8-tail`. -/
def IsTail (b : UInt8) : Prop := 0x80 ≤ b ∧ b ≤ 0xbf

/-- The first two bytes of a `UTF8-3` form. -/
def Leads3 (a b : UInt8) : Prop :=
  (a = 0xe0 ∧ 0xa0 ≤ b ∧ b ≤ 0xbf) ∨ (0xe1 ≤ a ∧ a ≤ 0xec ∧ IsTail b) ∨
    (a = 0xed ∧ 0x80 ≤ b ∧ b ≤ 0x9f) ∨ (0xee ≤ a ∧ a ≤ 0xef ∧ IsTail b)

/-- The first two bytes of a `UTF8-4` form. -/
def Leads4 (a b : UInt8) : Prop :=
  (a = 0xf0 ∧ 0x90 ≤ b ∧ b ≤ 0xbf) ∨ (0xf1 ≤ a ∧ a ≤ 0xf3 ∧ IsTail b) ∨
    (a = 0xf4 ∧ 0x80 ≤ b ∧ b ≤ 0x8f)

instance (b : UInt8) : Decidable (IsTail b) := inferInstanceAs (Decidable (_ ∧ _))

instance (a b : UInt8) : Decidable (Leads3 a b) := inferInstanceAs (Decidable (_ ∨ _))

instance (a b : UInt8) : Decidable (Leads4 a b) := inferInstanceAs (Decidable (_ ∨ _))

/-- `UTF8-octets`. -/
inductive WellFormed : Bytes → Prop
  | nil : WellFormed []
  | one {a : UInt8} {rest : Bytes} : a ≤ 0x7f → WellFormed rest → WellFormed (a :: rest)
  | two {a b : UInt8} {rest : Bytes} :
      0xc2 ≤ a → a ≤ 0xdf → IsTail b → WellFormed rest → WellFormed (a :: b :: rest)
  | three {a b c : UInt8} {rest : Bytes} :
      Leads3 a b → IsTail c → WellFormed rest → WellFormed (a :: b :: c :: rest)
  | four {a b c d : UInt8} {rest : Bytes} :
      Leads4 a b → IsTail c → IsTail d → WellFormed rest → WellFormed (a :: b :: c :: d :: rest)

end TrueAsync.Lib

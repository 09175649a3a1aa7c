/-!
# Counted byte strings

The C string functions that protocol code leans on, over lists of bytes: ASCII lower case,
the case-insensitive prefix test `strncasecmp (value, pattern, strlen (pattern)) == 0`, and
`strstr`.
-/

namespace TrueAsync.Lib

abbrev Bytes := List UInt8

def ascii (text : String) : Bytes := text.toList.map fun c => UInt8.ofNat c.toNat

/-- `tolower` in the C locale. -/
def lowerByte (b : UInt8) : UInt8 := if 0x41 ≤ b ∧ b ≤ 0x5a then b + 0x20 else b

/-- `zend_str_tolower`. -/
def lower (text : Bytes) : Bytes := text.map lowerByte

/-- `strncasecmp (value, pattern, strlen (pattern)) == 0`, for a lower-case pattern without
NUL: a value that is too short differs at its terminator. -/
def startsWithNoCase (pattern value : Bytes) : Bool := lower (value.take pattern.length) == pattern

/-- `strstr`: the haystack from the first occurrence of the needle on. -/
def strstr (needle : Bytes) : Bytes → Option Bytes
  | [] => if needle = [] then some [] else none
  | b :: rest => if needle.isPrefixOf (b :: rest) then some (b :: rest) else strstr needle rest

def cString (text : Bytes) : Bytes := text.takeWhile (· ≠ 0)

def isOws (b : UInt8) : Bool := b == 0x20 || b == 0x09

-- Bytes are finitely many, but a statement about the bytes of a text is decided along the text.
instance (priority := 2000) decidableBytes (P : UInt8 → Prop) [DecidablePred P] (text : Bytes) :
    Decidable (∀ b ∈ text, P b) :=
  List.decidableBAll P text

instance (priority := 2000) lawfulBytes : LawfulBEq Bytes := List.instLawfulBEq

theorem byte_forall {P : UInt8 → Prop} (all : ∀ n < 256, P (UInt8.ofNat n)) : ∀ b, P b := by
  intro b
  have fact := all b.toNat b.toNat_lt
  rwa [UInt8.ofNat_toNat] at fact

theorem lowerByte_lowerByte (b : UInt8) : lowerByte (lowerByte b) = lowerByte b := by
  unfold lowerByte
  split
  · rename_i upper
    simp only [UInt8.le_iff_toNat_le, UInt8.reduceToNat] at upper ⊢
    rw [if_neg]
    simp only [UInt8.toNat_add, UInt8.reduceToNat]
    omega
  · rfl

@[simp] theorem length_lower (text : Bytes) : (lower text).length = text.length := by
  simp [lower]

@[simp] theorem lower_eq_nil {text : Bytes} : lower text = [] ↔ text = [] := by
  simp [lower]

@[simp] theorem lower_append (text more : Bytes) :
    lower (text ++ more) = lower text ++ lower more := by
  simp [lower]

@[simp] theorem lower_lower (text : Bytes) : lower (lower text) = lower text := by
  simp [lower, Function.comp_def, lowerByte_lowerByte]

end TrueAsync.Lib

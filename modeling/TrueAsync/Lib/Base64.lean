import TrueAsync.Lib.Ascii

/-!
# Base64

The encoding of RFC 4648, section 4, with its padding, and the way back. Texts can be put together
where no padding is between them.
-/

namespace TrueAsync.Lib

open List

def padByte : UInt8 := 0x3d

def sextetByte (n : Nat) : UInt8 :=
  UInt8.ofNat (if n < 26 then 0x41 + n else if n < 52 then 0x47 + n else if n < 62 then n - 4
    else if n = 62 then 0x2b else 0x2f)

def sextet (b : UInt8) : Option Nat :=
  let n := b.toNat
  if 0x41 ≤ n ∧ n ≤ 0x5a then some (n - 0x41)
  else if 0x61 ≤ n ∧ n ≤ 0x7a then some (n - 0x47)
  else if 0x30 ≤ n ∧ n ≤ 0x39 then some (n + 4)
  else if n = 0x2b then some 62
  else if n = 0x2f then some 63
  else none

/-- Three bytes as four characters; the last one or two bytes are padded. -/
def base64 : Bytes → Bytes
  | [] => []
  | [a] => [sextetByte (a.toNat / 4), sextetByte (a.toNat % 4 * 16), padByte, padByte]
  | [a, b] =>
      [sextetByte (a.toNat / 4), sextetByte (a.toNat % 4 * 16 + b.toNat / 16),
        sextetByte (b.toNat % 16 * 4), padByte]
  | a :: b :: c :: rest =>
      sextetByte (a.toNat / 4) :: sextetByte (a.toNat % 4 * 16 + b.toNat / 16) ::
        sextetByte (b.toNat % 16 * 4 + c.toNat / 64) :: sextetByte (c.toNat % 64) :: base64 rest

def base64Group (w x y z : UInt8) : Option Bytes := do
  let w ← sextet w
  let x ← sextet x
  let y ← sextet y
  let z ← sextet z
  return [UInt8.ofNat (w * 4 + x / 16), UInt8.ofNat (x % 16 * 16 + y / 4),
    UInt8.ofNat (y % 4 * 64 + z)]

def base64Decode : Bytes → Option Bytes
  | [] => some []
  | w :: x :: y :: z :: rest =>
      if z = padByte then
        if rest = [] then
          if y = padByte then (base64Group w x 0x41 0x41).map (·.take 1)
          else (base64Group w x y 0x41).map (·.take 2)
        else none
      else do
        let group ← base64Group w x y z
        let later ← base64Decode rest
        return group ++ later
  | _ => none

/-! ## Characters -/

theorem sextet_sextetByte {n : Nat} (small : n < 64) : sextet (sextetByte n) = some n := by
  have all : ∀ n : Fin 64, sextet (sextetByte n) = some n.val := by decide
  exact all ⟨n, small⟩

theorem sextetByte_ne_pad {n : Nat} (small : n < 64) : sextetByte n ≠ padByte := by
  have all : ∀ n : Fin 64, sextetByte n ≠ padByte := by decide
  exact all ⟨n, small⟩

theorem base64Group_encode (a b c : UInt8) :
    base64Group (sextetByte (a.toNat / 4)) (sextetByte (a.toNat % 4 * 16 + b.toNat / 16))
      (sextetByte (b.toNat % 16 * 4 + c.toNat / 64)) (sextetByte (c.toNat % 64)) =
        some [a, b, c] := by
  have ha := a.toNat_lt
  have hb := b.toNat_lt
  have hc := c.toNat_lt
  rw [base64Group, sextet_sextetByte (by omega), sextet_sextetByte (by omega),
    sextet_sextetByte (by omega), sextet_sextetByte (by omega)]
  have first : a.toNat / 4 * 4 + (a.toNat % 4 * 16 + b.toNat / 16) / 16 = a.toNat := by omega
  have second : (a.toNat % 4 * 16 + b.toNat / 16) % 16 * 16 +
      (b.toNat % 16 * 4 + c.toNat / 64) / 4 = b.toNat := by omega
  have third : (b.toNat % 16 * 4 + c.toNat / 64) % 4 * 64 + c.toNat % 64 = c.toNat := by omega
  change some [UInt8.ofNat _, UInt8.ofNat _, UInt8.ofNat _] = _
  simp_all

variable {text : Bytes}

theorem mem_base64 {b : UInt8} (member : b ∈ base64 text) :
    b = padByte ∨ ∃ n < 64, b = sextetByte n := by
  have value {n : Nat} (small : n < 64) (is : b = sextetByte n) :
      b = padByte ∨ ∃ n < 64, b = sextetByte n := .inr ⟨n, small, is⟩
  induction text using base64.induct with
  | case1 => cases member
  | case2 a =>
    have ha := a.toNat_lt
    simp only [base64, mem_cons, not_mem_nil, or_false] at member
    rcases member with is | is | is | is
    all_goals first | exact .inl is | exact value (by omega) is
  | case3 a c =>
    have ha := a.toNat_lt
    have hc := c.toNat_lt
    simp only [base64, mem_cons, not_mem_nil, or_false] at member
    rcases member with is | is | is | is
    all_goals first | exact .inl is | exact value (by omega) is
  | case4 a c d rest ih =>
    have ha := a.toNat_lt
    have hc := c.toNat_lt
    have hd := d.toNat_lt
    simp only [base64, mem_cons] at member
    rcases member with is | is | is | is | is
    all_goals first | exact ih is | exact value (by omega) is

/-! ## Round trip -/

theorem base64Decode_base64 (text : Bytes) : base64Decode (base64 text) = some text := by
  induction text using base64.induct with
  | case1 => rfl
  | case2 a =>
    have group : base64Group (sextetByte (a.toNat / 4)) (sextetByte (a.toNat % 4 * 16)) 0x41 0x41 =
        some [a, 0, 0] := base64Group_encode a 0 0
    rw [base64, base64Decode, if_pos rfl, if_pos rfl, if_pos rfl, group]
    rfl
  | case3 a b =>
    have group : base64Group (sextetByte (a.toNat / 4))
        (sextetByte (a.toNat % 4 * 16 + b.toNat / 16)) (sextetByte (b.toNat % 16 * 4)) 0x41 =
          some [a, b, 0] := base64Group_encode a b 0
    rw [base64, base64Decode, if_pos rfl, if_pos rfl, if_neg (sextetByte_ne_pad (by omega)), group]
    rfl
  | case4 a b c rest ih =>
    rw [base64, base64Decode, if_neg (sextetByte_ne_pad (by omega)), base64Group_encode, ih]
    rfl

/-! ## Texts put together -/

theorem base64_append (whole : 3 ∣ text.length) (more : Bytes) :
    base64 (text ++ more) = base64 text ++ base64 more := by
  induction text using base64.induct with
  | case1 => rfl
  | case2 a | case3 a b => simp at whole
  | case4 a b c rest ih =>
    have shorter : 3 ∣ rest.length := by
      simp only [length_cons] at whole
      omega
    simp only [cons_append, base64, ih shorter]

theorem pad_not_mem_base64 (whole : 3 ∣ text.length) : padByte ∉ base64 text := by
  induction text using base64.induct with
  | case1 => exact not_mem_nil
  | case2 a | case3 a b => simp at whole
  | case4 a b c rest ih =>
    have ha := a.toNat_lt
    have hb := b.toNat_lt
    have hc := c.toNat_lt
    have shorter : 3 ∣ rest.length := by
      simp only [length_cons] at whole
      omega
    rw [base64]
    simp only [mem_cons, not_or]
    exact ⟨(sextetByte_ne_pad (by omega)).symm, (sextetByte_ne_pad (by omega)).symm,
      (sextetByte_ne_pad (by omega)).symm, (sextetByte_ne_pad (by omega)).symm, ih shorter⟩

theorem base64_padded (uneven : ¬3 ∣ text.length) :
    ∃ front pads, base64 text = front ++ pads ∧ padByte ∉ front ∧ pads ≠ [] ∧
      ∀ b ∈ pads, b = padByte := by
  induction text using base64.induct with
  | case1 => simp at uneven
  | case2 a =>
    have ha := a.toNat_lt
    refine ⟨[sextetByte (a.toNat / 4), sextetByte (a.toNat % 4 * 16)], [padByte, padByte], rfl, ?_,
      nofun, by simp⟩
    simp only [mem_cons, not_mem_nil, or_false, not_or]
    exact ⟨(sextetByte_ne_pad (by omega)).symm, (sextetByte_ne_pad (by omega)).symm⟩
  | case3 a b =>
    have ha := a.toNat_lt
    have hb := b.toNat_lt
    refine ⟨[sextetByte (a.toNat / 4), sextetByte (a.toNat % 4 * 16 + b.toNat / 16),
      sextetByte (b.toNat % 16 * 4)], [padByte], rfl, ?_, nofun, by simp⟩
    simp only [mem_cons, not_mem_nil, or_false, not_or]
    exact ⟨(sextetByte_ne_pad (by omega)).symm, (sextetByte_ne_pad (by omega)).symm,
      (sextetByte_ne_pad (by omega)).symm⟩
  | case4 a b c rest ih =>
    have shorter : ¬3 ∣ rest.length := by
      simp only [length_cons] at uneven
      omega
    obtain ⟨front, pads, split, clean, some, all⟩ := ih shorter
    have group : padByte ∉ base64 [a, b, c] := pad_not_mem_base64 (by simp)
    refine ⟨base64 [a, b, c] ++ front, pads, ?_, ?_, some, all⟩
    · have whole : base64 ([a, b, c] ++ rest) = base64 [a, b, c] ++ base64 rest :=
        base64_append (by simp) rest
      rw [append_assoc, ← split]
      exact whole
    · grind

theorem base64_head (text : Bytes) : (base64 text).head? ≠ some padByte := by
  have small (a : UInt8) : sextetByte (a.toNat / 4) ≠ padByte :=
    sextetByte_ne_pad (by have := a.toNat_lt; omega)
  induction text using base64.induct with
  | case1 => nofun
  | case2 a | case3 a b | case4 a b c rest _ => simpa [base64] using small a

theorem base64_eq_nil : base64 text = [] ↔ text = [] := by
  induction text using base64.induct <;> simp [base64]

end TrueAsync.Lib

import TrueAsync.Http1.HeadGrammar
import TrueAsync.Lib.Numeral

/-!
# Chunked bodies under RFC 9112

A decoder for the chunked coding of section 7.1, without extensions and trailers: chunks with a
size that is not zero, and at the end the last chunk or nothing, when the sender has given up.
-/

namespace TrueAsync.Http1

open TrueAsync.Lib List

/-- The chunks of a body, and whether the last chunk ends it; every chunk takes a byte of fuel. -/
def readChunks : Nat → Bytes → Option (List Bytes × Bool)
  | _, [] => some ([], false)
  | 0, _ => none
  | fuel + 1, bytes =>
      match headLine false bytes with
      | none => none
      | some (line, rest) =>
          match readNumeral 16 line with
          | none => none
          | some 0 => if rest = [0x0d, 0x0a] then some ([], true) else none
          | some (size + 1) =>
              if (rest.drop (size + 1)).take 2 = [0x0d, 0x0a] then
                (readChunks fuel (rest.drop (size + 3))).map fun body =>
                  (rest.take (size + 1) :: body.1, body.2)
              else none

def decodeChunked (bytes : Bytes) : Option (List Bytes × Bool) := readChunks bytes.length bytes

def encodeChunk (chunk : Bytes) : Bytes :=
  numeral 16 chunk.length ++ 0x0d :: 0x0a :: (chunk ++ [0x0d, 0x0a])

def encodeEnd (ended : Bool) : Bytes := if ended then [0x30, 0x0d, 0x0a, 0x0d, 0x0a] else []

theorem lf_notMem_numeral (n : Nat) : 0x0a ∉ numeral 16 n := by
  intro member
  obtain ⟨d, small, same⟩ := mem_numeral (by decide) member
  have value := congrArg UInt8.toNat same
  rw [digitByte_toNat small] at value
  simp only [UInt8.reduceToNat] at value
  split at value <;> omega

theorem readChunks_end (ended : Bool) (fuel : Nat) :
    readChunks (fuel + 1) (encodeEnd ended) = some ([], ended) := by
  cases ended with
  | false => rfl
  | true =>
    have line : headLine false [0x30, 0x0d, 0x0a, 0x0d, 0x0a] = some ([0x30], [0x0d, 0x0a]) := by
      decide
    have zero : readNumeral 16 [0x30] = some 0 := by decide
    simp [encodeEnd, readChunks, line, zero]

theorem readChunks_cons (filled : chunk ≠ []) (fuel : Nat) (rest : Bytes) :
    readChunks (fuel + 1) (encodeChunk chunk ++ rest) =
      (readChunks fuel rest).map fun body => (chunk :: body.1, body.2) := by
  have whole : encodeChunk chunk ++ rest =
      numeral 16 chunk.length ++ 0x0d :: 0x0a :: (chunk ++ 0x0d :: 0x0a :: rest) := by
    simp [encodeChunk]
  have line := headLine_append false (lf_notMem_numeral chunk.length)
    (chunk ++ 0x0d :: 0x0a :: rest)
  have read := readNumeral_numeral (show 1 < 16 by decide) (by decide) chunk.length
  obtain ⟨size, length⟩ := Nat.exists_eq_succ_of_ne_zero (length_pos_iff.mpr filled).ne'
  have taken : (chunk ++ 0x0d :: 0x0a :: rest).take (size + 1) = chunk := by
    rw [← Nat.succ_eq_add_one, ← length, take_left']
    rfl
  have dropped : (chunk ++ 0x0d :: 0x0a :: rest).drop (size + 1) = 0x0d :: 0x0a :: rest := by
    rw [← Nat.succ_eq_add_one, ← length, drop_left']
    rfl
  have further : (chunk ++ 0x0d :: 0x0a :: rest).drop (size + 3) = rest := by
    rw [show size + 3 = size + 1 + 2 from rfl, ← drop_drop, dropped]
    rfl
  rw [whole, readChunks, line]
  · dsimp only
    rw [read, length]
    dsimp only
    rw [taken, dropped, further]
    exact if_pos rfl
  · simp

variable {chunks : List Bytes}

theorem readChunks_encode (filled : ∀ c ∈ chunks, c ≠ []) (ended : Bool)
    (enough : chunks.length < fuel) :
    readChunks fuel (chunks.flatMap encodeChunk ++ encodeEnd ended) = some (chunks, ended) := by
  induction chunks generalizing fuel with
  | nil =>
    cases fuel with
    | zero => cases enough
    | succ fuel => exact readChunks_end ended fuel
  | cons chunk chunks ih =>
    cases fuel with
    | zero => cases enough
    | succ fuel =>
      have later := ih (fun c member => filled c (mem_cons_of_mem _ member))
        (Nat.lt_of_succ_lt_succ enough)
      rw [flatMap_cons, append_assoc, readChunks_cons (filled _ mem_cons_self), later]
      rfl

theorem length_le_flatMap_encodeChunk (chunks : List Bytes) :
    chunks.length ≤ (chunks.flatMap encodeChunk).length := by
  induction chunks with
  | nil => exact Nat.le_refl 0
  | cons chunk chunks ih =>
    simp only [flatMap_cons, length_append, length_cons, encodeChunk]
    omega

theorem decodeChunked_ended (filled : ∀ c ∈ chunks, c ≠ []) :
    decodeChunked (chunks.flatMap encodeChunk ++ encodeEnd true) = some (chunks, true) := by
  apply readChunks_encode filled
  have shorter := length_le_flatMap_encodeChunk chunks
  simp only [length_append, encodeEnd, if_true, length_cons]
  omega

end TrueAsync.Http1

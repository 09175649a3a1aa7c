import Mathlib.Data.List.TakeWhile
import TrueAsync.Lib.Ascii

/-!
# Cuts

A text is cut at the first occurrence of a byte: what a line-oriented grammar does at line ends,
and within a line at its separators.
-/

namespace TrueAsync.Lib

open List

/-- What stands before the first occurrence of a byte, and what comes after it. -/
def cutAt (sep : UInt8) : Bytes → Option (Bytes × Bytes)
  | [] => none
  | b :: rest =>
      if b = sep then some ([], rest) else (cutAt sep rest).map fun cut => (b :: cut.1, cut.2)

variable {text : Bytes}

theorem cutAt_through {sep : UInt8} (absent : sep ∉ text) (rest : Bytes) :
    cutAt sep (text ++ rest) = (cutAt sep rest).map fun cut => (text ++ cut.1, cut.2) := by
  induction text with
  | nil => exact Option.map_id'.symm
  | cons b text ih =>
    rw [mem_cons, not_or] at absent
    rw [cons_append, cutAt, if_neg (Ne.symm absent.1), ih absent.2, Option.map_map]
    rfl

theorem cutAt_append {sep : UInt8} (absent : sep ∉ text) (rest : Bytes) :
    cutAt sep (text ++ sep :: rest) = some (text, rest) := by
  rw [cutAt_through absent]
  simp [cutAt]

theorem span_spec (p : UInt8 → Bool) (text : Bytes) :
    text = text.takeWhile p ++ text.dropWhile p ∧ (∀ b ∈ text.takeWhile p, p b = true) ∧
      ∀ b, (text.dropWhile p).head? = some b → p b = false := by
  refine ⟨takeWhile_append_dropWhile.symm, fun b member => mem_takeWhile_imp member, ?_⟩
  intro b first
  have stops := head?_dropWhile_not p text
  rw [first] at stops
  exact stops

variable {p : UInt8 → Bool}

theorem span_append (stop : UInt8) (inside : ∀ b ∈ text, p b = true) (stops : p stop = false)
    (rest : Bytes) : (text ++ stop :: rest).takeWhile p = text ∧
      (text ++ stop :: rest).dropWhile p = stop :: rest := by
  rw [takeWhile_append_of_pos inside, dropWhile_append_of_pos inside]
  simp [stops]

theorem span_eq {rest : Bytes} (inside : ∀ b ∈ text, p b = true)
    (stops : ∀ b, rest.head? = some b → p b = false) :
    (text ++ rest).takeWhile p = text ∧ (text ++ rest).dropWhile p = rest := by
  cases rest with
  | nil =>
    rw [append_nil]
    exact ⟨takeWhile_eq_self_iff.mpr inside, dropWhile_eq_nil_iff.mpr inside⟩
  | cons stop rest => exact span_append stop inside (stops stop rfl) rest

end TrueAsync.Lib

import Mathlib.Algebra.Ring.Nat
import Mathlib.Data.List.Basic
import TrueAsync.Lib.Ascii

/-!
# Feeding the gzip encoder

`gz_write` of `src/compression/http_compression_gzip.c` and the loop around it. zlib counts in 32
bits where the code has a `size_t`: a call sees the lengths modulo 2 ^ 32, and the part of them that
it did not see is reported as consumed, or as produced.
-/

namespace TrueAsync.Compression

open TrueAsync.Lib List

variable {σ : Type} {held : σ → Nat} {s : σ}

/-- A call of a conforming `deflate`. It takes any part of the input and fills any part of the room,
and stands still only without the one or the other. What it gives out for no input it held. -/
structure DeflateCall (held : σ → Nat) (s : σ) (input : Bytes) (room : Nat) where
  used : Nat
  bytes : Bytes
  next : σ
  used_le : used ≤ input.length
  bytes_le : bytes.length ≤ room
  moves : input ≠ [] → 0 < room → used = 0 → bytes ≠ []
  owned : used = 0 → held next + bytes.length ≤ held s

abbrev Deflate (held : σ → Nat) := ∀ s input room, DeflateCall held s input room

/-- The loop of `encoder_drain_write`: the stream, `fed`, and `out` with its allocation, where `none`
is a byte that the encoder did not write. -/
structure Drain (σ : Type) where
  stream : σ
  fed : Nat := 0
  out : List (Option UInt8) := []
  alloc : Nat := 0
  /-- What `deflate` has consumed and produced. -/
  eaten : Bytes := []
  made : Bytes := []

variable (deflate : Deflate held) (input : Bytes) (outCap : Nat) (st : Drain σ)

/-- The call with `avail_in` and `avail_out`. -/
def Drain.call := deflate st.stream (input.take (input.length % 2 ^ 32)) (outCap % 2 ^ 32)

/-- `gz_write`, and the counters of the loop after it; `false` is `HTTP_ENC_ERROR`. -/
def gzWrite : Bool × Drain σ :=
  let call := st.call deflate input outCap
  let inConsumed := input.length - (input.length % 2 ^ 32 - call.used)
  let outProduced := outCap - (outCap % 2 ^ 32 - call.bytes.length)
  (call.used ≠ 0 ∨ call.bytes ≠ [],
    { st with
      stream := call.next
      fed := st.fed + inConsumed
      out := st.out ++ (call.bytes.map some ++ replicate (outProduced - call.bytes.length) none)
      eaten := st.eaten ++ input.take call.used
      made := st.made ++ call.bytes })

/-- The allocation for a call. Where less than 64 bytes are left, `smart_str_alloc (out, 4096)`
rounds up to a page less the header. -/
def Drain.grown : Nat :=
  if st.alloc - st.out.length < 64 then (st.out.length + 8216) / 4096 * 4096 - 25 else st.alloc

/-- What is counted in a call: what was done, and all that the call did not see. -/
theorem gzWrite_counts : let next := (gzWrite deflate input outCap st).2
    next.fed + next.out.length + st.eaten.length + st.made.length =
      st.fed + st.out.length + next.eaten.length + next.made.length +
        (input.length / 2 ^ 32 + outCap / 2 ^ 32) * 2 ^ 32 := by
  have used := (st.call deflate input outCap).used_le
  have bytes := (st.call deflate input outCap).bytes_le
  rw [length_take] at used
  simp only [gzWrite, length_append, length_map, length_replicate, length_take]
  omega

variable {deflate input outCap st}

theorem gzWrite_moves (moved : (gzWrite deflate input outCap st).1 = true) :
    st.fed < (gzWrite deflate input outCap st).2.fed ∨
      st.fed = (gzWrite deflate input outCap st).2.fed ∧
        held (gzWrite deflate input outCap st).2.stream < held st.stream := by
  have owned := (st.call deflate input outCap).owned
  have used := (st.call deflate input outCap).used_le
  rw [length_take] at used
  simp only [gzWrite, decide_eq_true_eq, ← length_pos_iff] at moved ⊢
  omega

/-- `encoder_drain_write`. -/
def encoderDrainWrite (deflate : Deflate held) (input : Bytes) (st : Drain σ) : Bool × Drain σ :=
  if st.fed < input.length then
    let call := gzWrite deflate (input.drop st.fed) (st.grown - st.out.length)
      { st with alloc := st.grown }
    if call.1 then encoderDrainWrite deflate input call.2 else call
  else (true, st)
termination_by (input.length - st.fed, held st.stream)
decreasing_by
  rename_i moved
  have moves := gzWrite_moves moved
  rw [Prod.lex_def]
  dsimp only at moves ⊢
  omega

/-- Each byte has gone to `deflate` once and in order, as many as were counted, and what it made
follows what was in `out`. -/
def Lossless (deflate : Deflate held) (input : Bytes) (st : Drain σ) : Prop :=
  let done := encoderDrainWrite deflate input st
  done.1 = true ∧ done.2.fed = input.length ∧ done.2.eaten = st.eaten ++ input.drop st.fed ∧
    ∃ bytes, done.2.made = st.made ++ bytes ∧ done.2.out = st.out ++ bytes.map some

theorem gzWrite_small (small : input.length < 2 ^ 32) (room : outCap < 2 ^ 32) :
    gzWrite deflate input outCap st = let call := deflate st.stream input outCap
      (decide (call.used ≠ 0 ∨ call.bytes ≠ []),
        { st with
          stream := call.next
          fed := st.fed + call.used
          out := st.out ++ call.bytes.map some
          eaten := st.eaten ++ input.take call.used
          made := st.made ++ call.bytes }) := by
  have used := (deflate st.stream input outCap).used_le
  have bytes := (deflate st.stream input outCap).bytes_le
  unfold gzWrite Drain.call
  dsimp only
  rw [Nat.mod_eq_of_lt small, Nat.mod_eq_of_lt room, take_length, Nat.sub_sub_self used,
    Nat.sub_sub_self bytes, Nat.sub_self, replicate_zero, append_nil]

theorem lossless_of_small (small : input.length < 2 ^ 32) (within : st.fed ≤ input.length)
    (room : st.alloc - st.out.length < 2 ^ 32) : Lossless deflate input st := by
  have spare (st : Drain σ) (room : st.alloc - st.out.length < 2 ^ 32) :
      0 < st.grown - st.out.length ∧ st.grown - st.out.length < 2 ^ 32 := by
    unfold Drain.grown
    split <;> omega
  unfold Lossless
  fun_induction encoderDrainWrite deflate input st with
  | case1 st more call moved ih =>
    obtain ⟨pos, bound⟩ := spare st room
    have eq : call = _ := gzWrite_small (by rw [length_drop]; omega) bound
    have used := (deflate st.stream (input.drop st.fed) (st.grown - st.out.length)).used_le
    rw [length_drop] at used
    generalize deflate st.stream (input.drop st.fed) (st.grown - st.out.length) = step at *
    rw [eq] at ih ⊢
    dsimp only at ih ⊢
    obtain ⟨ok, fed, eaten, more, made, out⟩ := ih (by omega) (by simp; omega)
    refine ⟨ok, fed, ?_, step.bytes ++ more, ?_, ?_⟩
    · rw [eaten, append_assoc, ← drop_drop, take_append_drop]
    · rw [made, append_assoc]
    · rw [out, map_append, append_assoc]
  | case2 st more call stuck =>
    obtain ⟨pos, bound⟩ := spare st room
    have eq : call = _ := gzWrite_small (by rw [length_drop]; omega) bound
    have moves := (deflate st.stream (input.drop st.fed) _).moves (by simp; omega) pos
    rw [eq] at stuck
    simp_all
  | case3 st ended =>
    have all : st.fed = input.length := le_antisymm within (not_lt.mp ended)
    exact ⟨rfl, all, by simp [all], [], by simp⟩

/-- The loop counts at least what its first call did not see over what was done. -/
theorem drain_counts (deflate : Deflate held) (input : Bytes) (st : Drain σ) :
    let done := (encoderDrainWrite deflate input st).2
    st.fed + st.out.length + done.eaten.length + done.made.length +
        (if st.fed < input.length then ((input.length - st.fed) / 2 ^ 32 +
          (st.grown - st.out.length) / 2 ^ 32) * 2 ^ 32 else 0) ≤
      done.fed + done.out.length + st.eaten.length + st.made.length := by
  fun_induction encoderDrainWrite deflate input st with
  | case1 st more call _ ih | case2 st more call _ =>
    have counts := gzWrite_counts deflate (input.drop st.fed) (st.grown - st.out.length)
      { st with alloc := st.grown }
    rw [length_drop] at counts
    rw [if_pos more]
    dsimp only [call] at *
    omega
  | case3 st ended =>
    rw [if_neg ended]
    exact le_rfl

theorem small_of_lossless (lossless : Lossless deflate input { stream, out, alloc }) :
    input = [] ∨ input.length < 2 ^ 32 ∧ alloc - out.length < 2 ^ 32 := by
  obtain ⟨_, fed, eaten, bytes, made, written⟩ := lossless
  by_contra! large
  have counts := drain_counts deflate input { stream, out, alloc }
  dsimp only at counts
  rw [fed, eaten, made, written, if_pos (length_pos_iff.mpr large.1)] at counts
  simp only [Drain.grown, nil_append, drop_zero, length_append, length_map, length_nil] at counts
  split at counts <;> omega

/-- The loop loses nothing exactly if there is no input, or both the input and the room at the start
are less than 2 ^ 32 bytes. -/
theorem drain_lossless_iff (deflate : Deflate held) (input : Bytes) (stream : σ)
    (out : List (Option UInt8)) (alloc : Nat) : Lossless deflate input { stream, out, alloc } ↔
      input = [] ∨ input.length < 2 ^ 32 ∧ alloc - out.length < 2 ^ 32 := by
  refine ⟨small_of_lossless, ?_⟩
  rintro (rfl | ⟨small, room⟩)
  · unfold Lossless encoderDrainWrite
    simp
  · exact lossless_of_small small (Nat.zero_le _) room

/-- A `deflate` that copies what it can. -/
def stored : Deflate fun _ : Unit => 0 := fun _ input room =>
  { used := min input.length room
    bytes := input.take (min input.length room)
    next := ()
    used_le := Nat.min_le_left ..
    bytes_le := by grind
    moves := by grind
    owned := by grind }

/-- Four gigabytes: the first call sees no input, and the encoder fails. -/
theorem four_gigabytes_lost : ∃ input : Bytes, input.length = 2 ^ 32 ∧
    ¬ Lossless stored input { stream := (), alloc := 64 } := by
  obtain ⟨input, long⟩ : ∃ input : Bytes, input.length = 2 ^ 32 :=
    ⟨replicate (2 ^ 32) 0, length_replicate⟩
  refine ⟨input, long, fun lossless => ?_⟩
  rcases small_of_lossless lossless with rfl | ⟨small, _⟩
  · cases long
  · omega

end TrueAsync.Compression

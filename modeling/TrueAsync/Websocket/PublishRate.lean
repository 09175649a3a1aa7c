import Mathlib.Algebra.Order.Group.Nat
import Mathlib.Algebra.Ring.Nat

/-!
# The rate limit of publishes

`ws_publish_allowed` of `src/websocket/ws_session.c`: a token bucket in nanoseconds. The 64-bit
arithmetic of the source wraps; clock readings below `2 ^ 63` keep it from doing so.
-/

namespace TrueAsync.Ws

open List

/-- `ws_publish_rate` and `ws_publish_burst`. -/
structure PublishConfig where
  rate : UInt32
  burst : UInt32

/-- `ws_publish_credit_ns` and `ws_publish_stamp_ns`. -/
structure PublishBucket where
  creditNs : Nat := 0
  stampNs : Nat := 0
deriving DecidableEq, Repr

namespace PublishConfig

def cost (cfg : PublishConfig) : Nat :=
  if cfg.rate.toNat < 1000000000 then 1000000000 / cfg.rate.toNat else 1

def messages (cfg : PublishConfig) : Nat :=
  if cfg.burst ≠ 0 then cfg.burst.toNat else cfg.rate.toNat

def cap (cfg : PublishConfig) : Nat := cfg.cost * cfg.messages % 2 ^ 64

/-- The credit at the time `now`. -/
def refill (cfg : PublishConfig) (b : PublishBucket) (now : Nat) : Nat :=
  if b.stampNs = 0 then cfg.cap
  else if b.stampNs < now then min ((b.creditNs + (now - b.stampNs)) % 2 ^ 64) cfg.cap
  else b.creditNs

end PublishConfig

/-- `ws_publish_allowed` at the time `now`. -/
def wsPublishAllowed (cfg : PublishConfig) (b : PublishBucket) (now : Nat) : Bool × PublishBucket :=
  if cfg.rate = 0 then (true, b)
  else if cfg.refill b now < cfg.cost then (false, ⟨cfg.refill b now, now⟩)
  else (true, ⟨cfg.refill b now - cfg.cost, now⟩)

def publishRun (cfg : PublishConfig) (b : PublishBucket) (times : List Nat) : PublishBucket :=
  times.foldl (fun b now => (wsPublishAllowed cfg b now).2) b

def publishCount (cfg : PublishConfig) (b : PublishBucket) : List Nat → Nat
  | [] => 0
  | now :: times => (wsPublishAllowed cfg b now).1.toNat +
      publishCount cfg (wsPublishAllowed cfg b now).2 times

def PublishFits (cfg : PublishConfig) (b : PublishBucket) (now : Nat) : Prop :=
  cfg.cost * cfg.messages < 2 ^ 64 ∧ b.creditNs + (now - b.stampNs) < 2 ^ 64
deriving Decidable

/-- What the limit promises of a window of calls on a bucket. -/
structure RateLimited (cfg : PublishConfig) (b : PublishBucket) (window : List Nat) : Prop where
  bounded : b.creditNs ≤ cfg.cap ∧ (publishRun cfg b window).creditNs ≤ cfg.cap
  fits : ∀ now ∈ window.head?, PublishFits cfg b now
  /-- No more is allowed than the bucket holds and the time refills. -/
  rate : publishCount cfg b window * cfg.cost ≤
    cfg.cap + (window.getLastD 0 - window.headD 0)
  /-- A refusal is over after the cost of a message. -/
  recovers : ∀ first waiting now, window = first :: (waiting ++ [now]) →
    (wsPublishAllowed cfg b first).1 = false →
    publishCount cfg (wsPublishAllowed cfg b first).2 waiting = 0 → first + cfg.cost ≤ now →
    (wsPublishAllowed cfg (publishRun cfg b (first :: waiting)) now).1 = true

/-! ## The invariant of the bucket -/

variable {cfg : PublishConfig} {b : PublishBucket} {now : Nat}

theorem PublishConfig.cost_mul_lt : cfg.cost * cfg.messages < 2 ^ 62 := by
  have rate := cfg.rate.toNat_lt
  have burst := cfg.burst.toNat_lt
  have messages : cfg.messages ≤ 4294967295 := by
    unfold messages
    split <;> omega
  have cost : cfg.cost ≤ 1000000000 := by
    unfold cost
    split
    · exact Nat.div_le_self _ _
    · omega
  calc cfg.cost * cfg.messages ≤ 1000000000 * 4294967295 := Nat.mul_le_mul cost messages
    _ < 2 ^ 62 := by decide

theorem PublishConfig.cap_eq : cfg.cap = cfg.cost * cfg.messages :=
  Nat.mod_eq_of_lt (by have := cfg.cost_mul_lt; omega)

theorem PublishConfig.cost_le_cap (on : cfg.rate ≠ 0) : cfg.cost ≤ cfg.cap := by
  have positive : 0 < cfg.messages := by
    have rate : cfg.rate.toNat ≠ 0 := fun zero => on (UInt32.toNat_inj.mp zero)
    unfold messages
    split
    · have burst : cfg.burst.toNat ≠ 0 := fun zero => ‹cfg.burst ≠ 0› (UInt32.toNat_inj.mp zero)
      omega
    · omega
  rw [cfg.cap_eq]
  exact Nat.le_mul_of_pos_right _ positive

/-- The bucket holds at most its capacity, and is not ahead of the clock. -/
structure PublishBucket.Filled (cfg : PublishConfig) (b : PublishBucket) (now : Nat) : Prop where
  bounded : b.creditNs ≤ cfg.cap
  past : b.stampNs ≤ now
  clock : 0 < now ∧ now < 2 ^ 63

theorem PublishBucket.Filled.fits (filled : b.Filled cfg now) : PublishFits cfg b now := by
  have small := cfg.cost_mul_lt
  have bounded := filled.bounded
  rw [cfg.cap_eq] at bounded
  have clock := filled.clock
  exact ⟨by omega, by omega⟩

theorem PublishBucket.Filled.refill (filled : b.Filled cfg now) (begun : b.stampNs ≠ 0) :
    cfg.refill b now = min (b.creditNs + (now - b.stampNs)) cfg.cap := by
  have fits := filled.fits.2
  have bounded := filled.bounded
  unfold PublishConfig.refill
  rw [if_neg begun]
  split
  · rw [Nat.mod_eq_of_lt fits]
  · omega

theorem refill_le (filled : b.Filled cfg now) : cfg.refill b now ≤ cfg.cap := by
  by_cases begun : b.stampNs = 0
  · simp [PublishConfig.refill, begun]
  · rw [filled.refill begun]
    exact Nat.min_le_right _ _

theorem PublishBucket.Filled.call (on : cfg.rate ≠ 0) (filled : b.Filled cfg now)
    (after : now ≤ later) (soon : later < 2 ^ 63) :
    (wsPublishAllowed cfg b now).2.Filled cfg later ∧ (wsPublishAllowed cfg b now).2.stampNs = now ∧
      (wsPublishAllowed cfg b now).1.toNat * cfg.cost + (wsPublishAllowed cfg b now).2.creditNs =
        cfg.refill b now := by
  have bounded := refill_le filled
  have clock := filled.clock
  unfold wsPublishAllowed
  rw [if_neg on]
  split
  · exact ⟨⟨bounded, after, by omega, soon⟩, rfl, by simp⟩
  · exact ⟨⟨by simp only; omega, after, by omega, soon⟩, rfl, by simp; omega⟩

theorem publishRun_stampNs (on : cfg.rate ≠ 0) (times : List Nat) :
    ∀ b : PublishBucket, (publishRun cfg b times).stampNs = times.getLastD b.stampNs := by
  induction times with
  | nil => exact fun _ => rfl
  | cons now times ih =>
    intro b
    have stamped : (wsPublishAllowed cfg b now).2.stampNs = now := by
      unfold wsPublishAllowed
      rw [if_neg on]
      split <;> rfl
    have ends := ih (wsPublishAllowed cfg b now).2
    rw [stamped] at ends
    rw [getLastD_cons]
    exact ends

theorem publishCount_le (on : cfg.rate ≠ 0) (times : List Nat) :
    ∀ {b : PublishBucket} {now : Nat}, b.Filled cfg now → b.stampNs = now →
      (now :: times).Pairwise (· ≤ ·) → (∀ t ∈ times, t < 2 ^ 63) → now ≤ times.getLastD now ∧
        publishCount cfg b times * cfg.cost + (publishRun cfg b times).creditNs ≤
          b.creditNs + (times.getLastD now - now) ∧
        (publishRun cfg b times).Filled cfg (times.getLastD now) ∧ (publishCount cfg b times = 0 →
          min (b.creditNs + (times.getLastD now - now)) cfg.cap ≤
            (publishRun cfg b times).creditNs) := by
  induction times with
  | nil =>
    intro b now filled stamp _ _
    exact ⟨le_rfl, by simp [publishCount, publishRun], filled, by simp [publishRun]⟩
  | cons first times ih =>
    intro b now filled stamp sorted soon
    obtain ⟨below, rest⟩ := pairwise_cons.mp sorted
    have reached : b.Filled cfg first :=
      ⟨filled.bounded, by have := below first (by simp); omega,
        by have := below first (by simp); have := filled.clock; omega, soon first (by simp)⟩
    obtain ⟨kept, stamped, paid⟩ := reached.call on (Nat.le_refl first) (soon first (by simp))
    obtain ⟨later, spent, ends, grown⟩ :=
      ih kept stamped rest fun t member => soon t (by simp [member])
    have refilled := reached.refill (by have := filled.clock; omega)
    have order := below first (by simp)
    rw [getLastD_cons, publishCount, Nat.add_mul]
    have run : publishRun cfg b (first :: times) =
        publishRun cfg (wsPublishAllowed cfg b first).2 times := rfl
    rw [run]
    refine ⟨by omega, by omega, ends, fun none => ?_⟩
    have refused : (wsPublishAllowed cfg b first).1.toNat = 0 := by omega
    rw [refused] at paid
    omega

theorem wsPublishAllowed_of_le (enough : cfg.cost ≤ cfg.refill b now) :
    (wsPublishAllowed cfg b now).1 = true := by
  unfold wsPublishAllowed
  split
  · rfl
  · rw [if_neg (by omega)]

theorem filled_before (on : cfg.rate ≠ 0) (before : List Nat)
    (sorted : (before ++ [now]).Pairwise (· ≤ ·)) (clock : ∀ t ∈ before ++ [now], 0 < t ∧ t < 2 ^ 63) :
    (publishRun cfg {} before).Filled cfg now := by
  have here := clock now (by simp)
  cases before with
  | nil => exact ⟨Nat.zero_le _, Nat.zero_le _, here⟩
  | cons first times =>
    have start : ({} : PublishBucket).Filled cfg first :=
      ⟨Nat.zero_le _, Nat.zero_le _, clock first (by simp)⟩
    obtain ⟨kept, stamped, -⟩ := start.call on (Nat.le_refl first) (clock first (by simp)).2
    obtain ⟨ordered, -, last⟩ := pairwise_append.mp sorted
    obtain ⟨-, -, ends, -⟩ := publishCount_le on times kept stamped ordered fun t member =>
      (clock t (by simp [member])).2
    refine ⟨ends.bounded, ?_, here⟩
    rw [publishRun_stampNs on, getLastD_cons]
    exact last _ (getLastD_mem_cons) now (by simp)

/-- For every rate and burst and clock readings that do not run backwards and stay below `2 ^ 63`,
every window of calls is within the limit. -/
theorem publish_rate_limited (cfg : PublishConfig) (on : cfg.rate ≠ 0) (before : List Nat)
    (first : Nat) (later : List Nat) (sorted : (before ++ first :: later).Pairwise (· ≤ ·))
    (clock : ∀ t ∈ before ++ first :: later, 0 < t ∧ t < 2 ^ 63) :
    RateLimited cfg (publishRun cfg {} before) (first :: later) := by
  have filled : (publishRun cfg {} before).Filled cfg first := by
    refine filled_before on before ?_ fun t member => clock t ?_
    · exact sorted.sublist (sublist_append_left (before ++ [first]) later |>.trans (by simp))
    · simp only [mem_append, mem_cons, not_mem_nil, or_false] at member ⊢
      exact member.imp_right .inl
  obtain ⟨kept, stamped, paid⟩ := filled.call on (Nat.le_refl first) filled.clock.2
  have bounded := refill_le filled
  have begun := filled.clock.1
  have ordered := (pairwise_append.mp sorted).2.1
  have soon : ∀ t ∈ later, t < 2 ^ 63 := fun t member => (clock t (by simp [member])).2
  obtain ⟨-, spent, ends, -⟩ := publishCount_le on later kept stamped ordered soon
  refine ⟨⟨filled.bounded, ends.bounded⟩, ?_, ?_, ?_⟩
  · rintro now ⟨⟩
    exact filled.fits
  · rw [publishCount, Nat.add_mul, getLastD_cons, headD_cons]
    omega
  · rintro _ waiting now ⟨⟩ refused nothing waited
    -- the credit grows over the refusals, and the last call finds a cost of it
    obtain ⟨upTo, -, last⟩ := pairwise_append.mp (cons_append .. ▸ ordered)
    obtain ⟨past, -, ends, grown⟩ := publishCount_le on waiting kept stamped upTo
      fun t member => soon t (by simp [member])
    have order : waiting.getLastD first ≤ now := last _ getLastD_mem_cons now (by simp)
    have stamp : (publishRun cfg (publishRun cfg {} before) (first :: waiting)).stampNs =
        waiting.getLastD first := by rw [publishRun_stampNs on, getLastD_cons]
    have reached : (publishRun cfg (publishRun cfg {} before) (first :: waiting)).Filled cfg now :=
      ⟨ends.bounded, by rw [stamp]; exact order, by omega, soon now (by simp)⟩
    have refilled := reached.refill (by omega)
    have enough := PublishConfig.cost_le_cap on
    rw [stamp] at refilled
    apply wsPublishAllowed_of_le
    have credit : (publishRun cfg (publishRun cfg {} before) (first :: waiting)).creditNs =
        (publishRun cfg (wsPublishAllowed cfg (publishRun cfg {} before) first).2 waiting).creditNs :=
      rfl
    omega

/-- Three calls in a second on a bucket of two. -/
theorem publish_rate_limited_twice : RateLimited ⟨2, 2⟩ (publishRun ⟨2, 2⟩ {} [1]) [5, 5, 1000] :=
  publish_rate_limited ⟨2, 2⟩ (by decide) [1] 5 [5, 1000] (by decide) (by decide)

/-- A clock that jumps by almost `2 ^ 64` carries the sum out of 64 bits. -/
theorem publish_credit_wraps :
    ¬PublishFits ⟨1, 4294967295⟩ (publishRun ⟨1, 4294967295⟩ {} [1]) (2 ^ 64 - 1) := by
  decide

end TrueAsync.Ws

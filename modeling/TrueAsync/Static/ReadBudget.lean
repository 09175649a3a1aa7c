import TrueAsync.Static.BodyFidelity

/-!
# What a read asks for

`h2_static_submit_read` asks for as much of the slice as the budget of the worker and its memory allow;
but once the usage is in the reserve below the memory limit, `h2_static_fit_to_arena` answers with the
least chunk, whatever it was asked for.
-/

namespace TrueAsync.Static

open TrueAsync.Lib H2Static

namespace H2Env

/-- At least one byte, of those that are left of the slice and of the budget. -/
def Allows (env : H2Env) (left want : Nat) : Prop :=
  1 ≤ want ∧ want ≤ left ∧ want ≤ env.budget - env.inFlight

/-- The usage is in the reserve, with room for one more chunk. -/
def Tight (env : H2Env) : Prop :=
  0 < env.memoryLimit ∧ env.memoryLimit - env.memoryLimit / 8 ≤ env.usage ∧
    env.usage + h2StaticChunkMin ≤ env.memoryLimit

/-- A read that is submitted while memory is tight has a whole chunk left in the slice and in the
budget. -/
def Roomy (env : H2Env) (left : Nat) : Prop :=
  env.Tight → env.submits = true → 0 < left → env.inFlight < env.budget →
    h2StaticChunkMin ≤ left ∧ h2StaticChunkMin ≤ env.budget - env.inFlight

end H2Env

variable {env : H2Env} {s : H2Static}

theorem h2StaticFitToArena_tight (tight : env.Tight) (want : Nat) :
    h2StaticFitToArena env want = h2StaticChunkMin := by
  obtain ⟨limited, reserve, room⟩ := tight
  simp only [h2StaticFitToArena]
  split_ifs <;> omega

theorem h2StaticFitToArena_le (loose : ¬env.Tight) (want : Nat) :
    h2StaticFitToArena env want ≤ want := by
  simp only [H2Env.Tight] at loose
  simp only [h2StaticFitToArena]
  split_ifs <;> omega

def H2Env.readSize (env : H2Env) (left : Nat) : Nat :=
  h2StaticFitToArena env
    (min (min left (min (h2StaticTargetBytes env / 2) (256 * 1024))) (env.budget - env.inFlight))

namespace H2Static

theorem seek_kept (s : H2Static) (env : H2Env) :
    (s.seek env).body = s.body ∧ (s.seek env).bytesSent = s.bytesSent ∧
      (s.seek env).handed = s.handed ∧ (s.seek env).pendingReq = s.pendingReq := by
  unfold seek
  split_ifs <;> simp

theorem submitRead_asks_iff (idle : s.pendingReq = none) (want : Nat) :
    (s.submitRead env).1.pendingReq = some want ↔
      0 < s.body.bodyLength - s.bytesSent ∧ env.inFlight < env.budget ∧ env.submits = true ∧
        0 < want ∧ env.readSize (s.body.bodyLength - s.bytesSent) = want := by
  have kept := (s.seek_kept env).2.2.2.trans idle
  simp only [submitRead, ← H2Env.readSize.eq_def]
  split_ifs with full spent refused
  · simp [markEnded, idle, full]
  · simp only [kept, reduceCtorEq, false_iff]
    omega
  · simp only [kept, reduceCtorEq, false_iff]
    grind
  · simp only [Option.some.injEq]
    grind

theorem submitRead_allowed_iff (idle : s.pendingReq = none) :
    (∀ want, (s.submitRead env).1.pendingReq = some want →
        env.Allows (s.body.bodyLength - s.bytesSent) want) ↔
      env.Roomy (s.body.bodyLength - s.bytesSent) := by
  simp only [submitRead_asks_iff idle]
  constructor
  · intro allowed tight submits left room
    have size := h2StaticFitToArena_tight tight
    exact (allowed _ ⟨left, room, submits, by decide, size _⟩).2
  · rintro roomy want ⟨left, room, submits, some, rfl⟩
    refine ⟨some, ?_⟩
    by_cases tight : env.Tight
    · rw [H2Env.readSize, h2StaticFitToArena_tight tight]
      exact roomy tight submits left room
    · have fits := h2StaticFitToArena_le tight (min (min (s.body.bodyLength - s.bytesSent)
        (min (h2StaticTargetBytes env / 2) (256 * 1024))) (env.budget - env.inFlight))
      rw [H2Env.readSize]
      omega

/-- The reads so far stay within the slice, and so does the one in flight. -/
structure Within (body : BodySlice) (s : H2Static) : Prop where
  same : s.body = body
  handed : s.handed.length ≤ s.bytesSent
  read : s.bytesSent ≤ body.bodyLength
  pending : ∀ want, s.pendingReq = some want → s.bytesSent + want ≤ body.bodyLength

variable {body : BodySlice}

section

variable (within : Within body s) (idle : s.pendingReq = none)
  (roomy : env.Roomy (body.bodyLength - s.bytesSent))
include within idle roomy

theorem Within.submitRead : Within body (s.submitRead env).1 := by
  obtain ⟨rfl, handed, read, -⟩ := within
  obtain ⟨sameBody, sent, sameHanded, -⟩ := s.seek_kept env
  have asked := (submitRead_allowed_iff idle).mpr roomy
  have same : (s.submitRead env).1.body = s.body ∧ (s.submitRead env).1.bytesSent = s.bytesSent ∧
      (s.submitRead env).1.handed = s.handed := by
    rcases s.submitRead_cases env with ⟨-, same⟩ | same | same | ⟨want, same⟩
    · simp [same, markEnded]
    all_goals simp [same, sameBody, sent, sameHanded]
  refine ⟨same.1, ?_, ?_, ?_⟩
  · rwa [same.2.1, same.2.2]
  · rwa [same.2.1]
  · intro want pending
    have allowed := asked want pending
    rw [same.2.1]
    have := allowed.2.1
    omega

theorem Within.readNext : Within body (s.readNext env) := by
  have submitted := within.submitRead idle roomy
  unfold H2Static.readNext
  split <;> rename_i same <;> rw [same] at submitted
  · exact submitted
  · exact { submitted with }

end

def Roomy (s : H2Static) : H2Event → Prop
  | .start _ env | .windowOpen env | .throttleKick env =>
      env.Roomy (s.body.bodyLength - s.bytesSent)
  | .readDone (.bytes n) env => env.Roomy (s.body.bodyLength - (s.bytesSent + n))
  | _ => True

theorem Within.dispatch (within : Within body s) (accepted : s.accepts completion = true)
    (roomy : s.Roomy (.readDone completion env)) : Within body (s.dispatch env completion) := by
  obtain ⟨rfl, handed, read, pending⟩ := within
  cases completion with
  | eof | failed => exact ⟨rfl, handed, read, by simp [dispatch, markEnded]⟩
  | bytes n =>
    have length := Delivery.next_length accepted
    obtain ⟨want, asked, fits⟩ : ∃ want, s.pendingReq = some want ∧ n ≤ want := by
      simp only [Delivery.accepts, Bool.and_eq_true, Option.any_eq_true] at accepted
      simpa using accepted.1.1
    have inside := pending want asked
    simp only [dispatch]
    split_ifs with closed ended more
    · exact ⟨rfl, Nat.le_add_right_of_le handed, by dsimp only; omega, by simp⟩
    all_goals
      have next : Within s.body { s with
          pendingReq := none, position := s.position + n, bytesSent := s.bytesSent + n
          handed := s.handed ++ s.next n } := by
        refine ⟨rfl, ?_, by dsimp only; omega, by simp⟩
        rw [List.length_append, length]
        exact Nat.add_le_add_right handed n
    · exact { next with }
    · exact next.readNext rfl roomy
    · exact next

theorem Within.step (within : Within body s) (sound : s.Sound) (event : H2Event)
    (roomy : s.Roomy event) : Within body (s.step event) := by
  unfold H2Static.step
  split
  · exact within
  obtain rfl := within.same
  cases event with
  | start submitted env =>
    simp only
    split_ifs with started
    · exact within
    · have fresh := (sound.fresh (by simpa using started)).1
      exact .readNext (s := { s with started := true }) { within with } fresh roomy
    · exact { within with pending := nofun }
  | readDone completion env =>
    simp only
    split_ifs with accepted
    · exact within.dispatch accepted roomy
    · exact within
  | windowOpen env =>
    simp only
    split_ifs with wake
    · simp only [Bool.and_eq_true, Bool.not_eq_true', Option.isNone_iff_eq_none] at wake
      exact within.readNext wake.1.1.2 roomy
    · exact within
  | throttleKick env =>
    simp only
    split_ifs with parked wake
    · simp only [Bool.and_eq_true, Bool.not_eq_true', Option.isNone_iff_eq_none] at wake
      exact .submitRead (s := { s with throttled := false }) { within with } wake.1.2 roomy
    · exact { within with }
    · exact within
  | peerCloses => exact { within with }
  | streamClose noError =>
    simp only
    split_ifs with started
    · exact { within with pending := nofun }
    · exact { within with pending := nofun }
    · exact within

end H2Static

/-- A read asks for some bytes of the slice and of the budget exactly if it is roomy; and the bytes
that are queued for a stream stay within its slice in every run whose reads are all roomy. -/
theorem reads_respect_budget_iff (s : H2Static) (idle : s.pendingReq = none) (env : H2Env) :
    ((∀ want, (s.submitRead env).1.pendingReq = some want →
        env.Allows (s.body.bodyLength - s.bytesSent) want) ↔
      env.Roomy (s.body.bodyLength - s.bytesSent)) ∧
    ∀ body history, Along (fun past event => (run body past).Roomy event) history →
      (run body history).handed.length ≤ body.bodyLength := by
  refine ⟨submitRead_allowed_iff idle, fun body history roomy => ?_⟩
  have kept := Along.run (I := fun s => s.Sound ∧ s.Within body)
    (fun s event kept roomy => ⟨kept.1.step event, kept.2.step kept.1 event roomy⟩) roomy
    ⟨init_sound body, rfl, le_rfl, Nat.zero_le _, nofun⟩
  exact Nat.le_trans kept.2.handed kept.2.read

/-- The first byte of a file of two, with memory to spare. -/
theorem reads_respect_budget_start :
    (run ⟨[1, 2], 0, 1, by decide⟩ [.start true ⟨4194304, 1, 0, 0, 0, true, true, true⟩,
      .readDone (.bytes 1) ⟨4194304, 1, 0, 0, 0, true, true, true⟩]).handed.length ≤ 1 := by
  apply (reads_respect_budget_iff { body := ⟨[1, 2], 0, 1, by decide⟩ } rfl
    ⟨4194304, 1, 0, 0, 0, true, true, true⟩).2
  refine (Along.nil.snoc ?_).snoc ?_
  · exact fun tight => absurd tight.1 (by decide)
  · exact fun tight => absurd tight.1 (by decide)

/-- Under a memory limit of 64 KiB with 56 KiB in use, 8 KiB are read for a slice of one byte, and two
bytes are queued. -/
theorem tight_read_exceeds_slice : let body : BodySlice := ⟨[1, 2], 0, 1, by decide⟩
    let tight : H2Env := ⟨4194304, 1, 0, 65536, 57344, true, true, true⟩
    (run body [.start true tight]).pendingReq = some 8192 ∧
      (run body [.start true tight, .readDone (.bytes 2) tight]).handed = [1, 2] := by
  decide

end TrueAsync.Static

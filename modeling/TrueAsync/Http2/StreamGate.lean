import Mathlib.Data.List.Induction
import TrueAsync.Lib.History

/-!
# The gate for stream ids

`cb_on_begin_frame` and `cb_on_begin_headers` of `src/http2/http2_session.c`, between a client that
keeps to the rules and nghttp2, which forgets a stream once its RST_STREAM is sent.
-/

namespace TrueAsync.Http2

open TrueAsync.Lib List

inductive H2Error where
  | protocolError
deriving DecidableEq

/-- `http2_session_t` with the streams that nghttp2 knows, and whether their user data is set. -/
structure H2Session where
  lastPeerStreamId : Nat := 0
  streams : Nat → Option Bool := fun _ => none
  goaway : Option (Nat × H2Error) := none

/-- `cb_on_begin_frame`: whether the connection goes on. -/
def cbOnBeginFrame (s : H2Session) (headers : Bool) (id : Nat) : Bool × H2Session :=
  if headers = false ∨ id = 0 then (true, s)
  else if s.streams id = some true then (true, s)
  else if id % 2 = 0 ∨ id ≤ s.lastPeerStreamId then
    (false, { s with goaway := some (s.lastPeerStreamId, .protocolError) })
  else (true, s)

/-- `cb_on_begin_headers` for a request; a stream that is shed gets no user data. -/
def cbOnBeginHeaders (s : H2Session) (shed : Bool) (id : Nat) : H2Session :=
  { s with lastPeerStreamId := id, streams := Function.update s.streams id (some !shed) }

inductive GateEvent where
  /-- The client opens a stream, with END_STREAM or without. -/
  | opens (id : Nat) (shed fin : Bool)
  /-- Trailers, which end the stream of the client. -/
  | trailers (id : Nat)
  /-- nghttp2 has sent a RST_STREAM. -/
  | rstSent (id : Nat)
  | rstSeen (id : Nat)
  /-- Both sides have ended the stream. -/
  | closed (id : Nat)
deriving DecidableEq

def H2Session.step (s : H2Session) (event : GateEvent) : H2Session :=
  if s.goaway.isSome then s
  else
    match event with
    | .opens id shed _ =>
        if (cbOnBeginFrame s true id).1 then cbOnBeginHeaders (cbOnBeginFrame s true id).2 shed id
        else (cbOnBeginFrame s true id).2
    | .trailers id => (cbOnBeginFrame s true id).2
    | .rstSent id | .closed id => { s with streams := Function.update s.streams id none }
    | .rstSeen _ => s

/-- What a client may send: new odd ids, and trailers on a stream it has neither ended nor seen
reset. -/
def GateEvent.Conforming (past : List GateEvent) : GateEvent → Prop
  | .opens id _ _ => id % 2 = 1 ∧ ∀ id' shed fin, .opens id' shed fin ∈ past → id' < id
  | .trailers id => (∃ shed, .opens id shed false ∈ past) ∧ .trailers id ∉ past ∧ .rstSeen id ∉ past
  | .rstSent id => ∃ shed fin, .opens id shed fin ∈ past
  | .rstSeen id => .rstSent id ∈ past
  | .closed id => (∃ shed, .opens id shed true ∈ past) ∨ .trailers id ∈ past

/-- Trailers come on a stream that was not refused, before a RST_STREAM for it is sent. -/
def GateEvent.Spared (past : List GateEvent) : GateEvent → Prop
  | .trailers id => (∀ fin, .opens id true fin ∉ past) ∧ .rstSent id ∉ past
  | _ => True

/-- The session knows what the client has opened. -/
structure Tracks (past : List GateEvent) (s : H2Session) : Prop where
  going : s.goaway = none
  bound : ∀ id shed fin, .opens id shed fin ∈ past → 0 < id ∧ id ≤ s.lastPeerStreamId
  highest : s.lastPeerStreamId = 0 ∨ ∃ shed fin, .opens s.lastPeerStreamId shed fin ∈ past
  streams : ∀ id, s.streams id = some true ↔
    (∃ fin, .opens id false fin ∈ past) ∧ .rstSent id ∉ past ∧ .closed id ∉ past
  single : ∀ id shed fin shed' fin', .opens id shed fin ∈ past → .opens id shed' fin' ∈ past →
    shed = shed' ∧ fin = fin'
  ended : ∀ id, .closed id ∈ past → (∃ shed, .opens id shed true ∈ past) ∨ .trailers id ∈ past
  known : ∀ id, .rstSent id ∈ past ∨ .closed id ∈ past ∨ .trailers id ∈ past →
    ∃ shed fin, .opens id shed fin ∈ past

variable {past : List GateEvent} {s : H2Session} {id : Nat}

section

variable (tracks : Tracks past s)
include tracks

theorem Tracks.opens {shed fin : Bool} (conforms : GateEvent.Conforming past (.opens id shed fin)) :
    Tracks (past ++ [.opens id shed fin]) (s.step (.opens id shed fin)) := by
  obtain ⟨odd, above⟩ := conforms
  have higher : s.lastPeerStreamId < id := by
    rcases tracks.highest with zero | ⟨shed', fin', opened⟩
    · omega
    · exact above _ _ _ opened
  have fresh : ∀ shed fin, .opens id shed fin ∉ past := fun _ _ member =>
    Nat.lt_irrefl _ (above _ _ _ member)
  have unknown : ¬(.rstSent id ∈ past ∨ .closed id ∈ past ∨ .trailers id ∈ past) := by
    intro either
    obtain ⟨shed, fin, member⟩ := tracks.known id either
    exact fresh _ _ member
  have frame : cbOnBeginFrame s true id = (true, s) := by
    have new : s.streams id ≠ some true := by
      rw [ne_eq, tracks.streams]
      rintro ⟨⟨_, member⟩, -⟩
      exact fresh _ _ member
    rw [cbOnBeginFrame, if_neg (by simp; omega), if_neg new, if_neg (by omega)]
  have step : s.step (.opens id shed fin) = cbOnBeginHeaders s shed id := by
    simp [H2Session.step, tracks.going, frame]
  rw [step]
  refine ⟨tracks.going, ?_, .inr ⟨shed, fin, by simp [cbOnBeginHeaders]⟩, ?_, ?_, ?_, ?_⟩
  · intro id' shed' fin' member
    rcases mem_append.mp member with old | new
    · exact ⟨(tracks.bound _ _ _ old).1, Nat.le_of_lt (above _ _ _ old)⟩
    · cases mem_singleton.mp new
      exact ⟨by omega, Nat.le_refl _⟩
  · intro id'
    by_cases same : id' = id
    · subst same
      cases shed <;> cases fin <;> simp_all [cbOnBeginHeaders]
    · simp [cbOnBeginHeaders, tracks.streams, same]
  · intro id' shed1 fin1 shed2 fin2 first second
    have single := tracks.single id' shed1 fin1 shed2 fin2
    grind
  · intro id' member
    have ended := tracks.ended id'
    grind
  · intro id' either
    have known := tracks.known id'
    grind

theorem Tracks.forget {event : GateEvent} {streams : Nat → Option Bool}
    (conforms : event.Conforming past) (opens : ∀ id shed fin, event ≠ .opens id shed fin)
    (gone : ∀ id, streams id = some true ↔
      s.streams id = some true ∧ event ≠ .rstSent id ∧ event ≠ .closed id) :
    Tracks (past ++ [event]) { s with streams } := by
  have same : ∀ id shed fin, .opens id shed fin ∈ past ++ [event] ↔ .opens id shed fin ∈ past := by
    intro id shed fin
    have other := (opens id shed fin).symm
    simp [other]
  refine ⟨tracks.going, ?_, ?_, ?_, ?_, ?_, ?_⟩
  · simpa only [same] using tracks.bound
  · simpa only [same] using tracks.highest
  · intro id
    simp only [same, gone, tracks.streams, mem_append, mem_singleton, not_or]
    constructor
    · rintro ⟨⟨opened, sent, closed⟩, notSent, notClosed⟩
      exact ⟨opened, ⟨sent, Ne.symm notSent⟩, closed, Ne.symm notClosed⟩
    · rintro ⟨opened, ⟨sent, notSent⟩, closed, notClosed⟩
      exact ⟨⟨opened, sent, closed⟩, Ne.symm notSent, Ne.symm notClosed⟩
  · simpa only [same] using tracks.single
  · intro id member
    rw [mem_append, mem_singleton] at member
    simp only [same, mem_append, mem_singleton]
    rcases member with old | rfl
    · exact (tracks.ended id old).imp_right .inl
    · exact conforms.imp_right .inl
  · intro id either
    have known := tracks.known id
    cases event <;> grind [GateEvent.Conforming]

theorem Tracks.spared_iff (conforms : GateEvent.Conforming past (.trailers id)) :
    GateEvent.Spared past (.trailers id) ↔ s.streams id = some true := by
  obtain ⟨⟨shed, opened⟩, unended, -⟩ := conforms
  have single := tracks.single id shed false
  rw [tracks.streams]
  constructor
  · rintro ⟨unshed, sent⟩
    have unclosed : .closed id ∉ past := by
      intro closed
      rcases tracks.ended id closed with ⟨shed', fin⟩ | trailers
      · cases (single _ _ opened fin).2
      · exact unended trailers
    cases shed with
    | false => exact ⟨⟨false, opened⟩, sent, unclosed⟩
    | true => exact absurd opened (unshed false)
  · rintro ⟨⟨fin, there⟩, sent, -⟩
    refine ⟨fun fin' refused => ?_, sent⟩
    cases (tracks.single _ _ _ _ _ there refused).1

theorem Tracks.trailers
    (conforms : GateEvent.Conforming past (.trailers id)) : (GateEvent.Spared past (.trailers id) →
      Tracks (past ++ [.trailers id]) (s.step (.trailers id))) ∧
    (¬GateEvent.Spared past (.trailers id) → (s.step (.trailers id)).goaway ≠ none) := by
  rw [tracks.spared_iff conforms]
  constructor
  · intro here
    have step : s.step (.trailers id) = { s with streams := s.streams } := by
      simp [H2Session.step, tracks.going, cbOnBeginFrame, here]
    rw [step]
    exact tracks.forget conforms nofun (by simp)
  · intro gone
    obtain ⟨⟨shed, opened⟩, -⟩ := conforms
    obtain ⟨positive, bound⟩ := tracks.bound _ _ _ opened
    simp [H2Session.step, tracks.going, cbOnBeginFrame, gone, bound, Nat.ne_of_gt positive]

end

end TrueAsync.Http2

import TrueAsync.Static.BodySenders

/-!
# Fidelity of file bodies

What each of the three senders hands over in one event, and under which condition on the state before
the event the bytes handed over stay those of the slice. Over HTTP/1 the file is read from its start,
so that the slice has to repeat there; over HTTP/2 a read can go past the end of the slice, a failed
seek goes unnoticed and the end of the file counts as the end of the body; over HTTP/3 a sender that
has failed is woken again.
-/

namespace TrueAsync.Static

open TrueAsync.Lib List H2Static Delivery Option BodySlice

namespace BodySlice

variable {body : BodySlice}

theorem range_length {position n : Nat}
    (fits : position + n ≤ body.content.length) : (body.range position n).length = n := by
  rw [range, length_take, length_drop]
  omega

theorem slice_length (body : BodySlice) : body.slice.length = body.bodyLength :=
  range_length body.inside

/-- More bytes continue a prefix of the slice exactly if they fit in it and are those that come next. -/
theorem append_prefix_slice {handed bytes : Bytes}
    (ordered : handed <+: body.slice) : handed ++ bytes <+: body.slice ↔
      handed.length + bytes.length ≤ body.bodyLength ∧
        bytes = body.range (body.bodyOffset + handed.length) bytes.length := by
  obtain ⟨rest, whole⟩ := ordered
  have restIs : rest = (body.content.drop (body.bodyOffset + handed.length)).take
      (body.bodyLength - handed.length) := by
    rw [← @drop_left _ handed rest, whole, slice, range, drop_take, drop_drop]
  have lengths : handed.length + rest.length = body.bodyLength := by
    rw [← length_append, whole, slice_length]
  rw [← whole, prefix_append_right_inj, restIs, prefix_take_iff, range, prefix_iff_eq_take]
  constructor
  · grind
  · grind

end BodySlice

namespace Delivery

variable {d : Delivery}

/-- What was handed over so far is the beginning of the slice. -/
def Ordered (d : Delivery) : Prop := d.handed <+: d.body.slice

theorem Ordered.whole (ordered : d.Ordered) (full : d.body.bodyLength ≤ d.handed.length) :
    d.handed = d.body.slice := by
  apply ordered.eq_of_length_le
  rw [d.body.slice_length]
  exact full

theorem accepts_bytes (accepted : d.accepts (.bytes n) = true) :
    (∃ want ∈ d.pendingReq, n ≤ want) ∧ d.position + n ≤ d.body.content.length := by
  simp only [accepts, Bool.and_eq_true, decide_eq_true_eq, Option.any_eq_true] at accepted
  exact ⟨accepted.1.1, accepted.2⟩

theorem next_length (accepted : d.accepts (.bytes n) = true) : (d.next n).length = n :=
  range_length (accepts_bytes accepted).2

/-- Some bytes are handed over, and a status may be reported. -/
structure Effect (d d' : Delivery) (bytes : Bytes) (report : Option Status) : Prop where
  body : d'.body = d.body
  handed : d'.handed = d.handed ++ bytes
  reported : d'.reported = report

abbrev Quiet (d d' : Delivery) : Prop := Effect d d' [] d.reported

theorem Quiet.refl (d : Delivery) : Quiet d d := ⟨rfl, (append_nil _).symm, rfl⟩

theorem Quiet.after
    (quiet : Quiet d' d'') (effect : Effect d d' bytes report) : Effect d d'' bytes report where
  body := quiet.body.trans effect.body
  handed := by rw [quiet.handed, append_nil, effect.handed]
  reported := quiet.reported.trans effect.reported

end Delivery

/-! ## HTTP/1 over TLS -/

namespace H1Send

variable {s : H1Send} {env : H1Env}

def ended (s : H1Send) : Bool := s.phase == .done

def Hands (s : H1Send) (n : Nat) (env : H1Env) : Prop :=
  s.phase = .tlsRead ∧ s.accepts (.bytes n) = true ∧ env.torn = false ∧ env.sends = true
deriving Decidable

/-- A chunk has to stand at the start of the file as it stands in the slice: the offset of the slice is
not used. -/
def Meets (s : H1Send) : H1Event → Prop
  | .readDone (.bytes n) env =>
    s.Hands n env → s.body.range s.bytesSent n = s.body.range (s.body.bodyOffset + s.bytesSent) n
  | _ => True

/-- What holds in every state. -/
structure Sound (s : H1Send) : Prop where
  handed : s.handed.length = s.bytesSent
  bound : s.bytesSent ≤ s.body.bodyLength
  pending : ∀ want ∈ s.pendingReq, want ≤ s.body.bodyLength - s.bytesSent
  going : s.phase ≠ .done →
    s.position = s.bytesSent ∧ s.status = .ok ∧ s.short = false ∧ s.reported = none
  done : s.phase = .done → s.reported = some s.status ∧
    (s.status = .ok → s.short = false ∧ s.bytesSent = s.body.bodyLength)

theorem fail_sound (handed : s.handed.length = s.bytesSent)
    (bound : s.bytesSent ≤ s.body.bodyLength) : s.fail.Sound where
  handed := handed
  bound := bound
  pending := by simp [fail, finalize]
  going := by simp [fail, finalize]
  done := by simp [fail, finalize]

section

variable (sound : s.Sound) (going : s.phase ≠ .done)
include sound going

theorem Sound.drain : { s with phase := .tlsDrain }.Sound :=
  { sound with going := fun _ => sound.going going, done := by simp }

theorem Sound.finalize (full : s.body.bodyLength ≤ s.bytesSent) : s.finalize.Sound :=
  { sound with
    pending := by simp [H1Send.finalize]
    going := by simp [H1Send.finalize]
    done := fun _ => ⟨rfl, fun _ => ⟨(sound.going going).2.2.1, le_antisymm sound.bound full⟩⟩ }

theorem Sound.readNext (env : H1Env) : (s.readNext env).Sound := by
  by_cases full : s.body.bodyLength ≤ s.bytesSent
  · grind [H1Send.readNext, H1Send.tlsSubmitNextRead, H1Send.Sound.finalize, H1Send.Sound.drain]
  · cases submits : env.submits
    · grind [H1Send.readNext, H1Send.tlsSubmitNextRead, H1Send.fail_sound, H1Send.Sound.handed]
    · simp only [H1Send.readNext, tlsSubmitNextRead, full, submits, if_false, if_true]
      exact { sound with
        pending := by
          rintro want ⟨⟩
          exact min_le_left _ _
        going := fun _ => sound.going going
        done := by simp }

end

@[simp] theorem readNext_handed : (s.readNext env).handed = s.handed := by
  unfold readNext tlsSubmitNextRead
  split_ifs <;> cases env.submits <;> rfl

@[simp] theorem readNext_body : (s.readNext env).body = s.body := by
  unfold readNext tlsSubmitNextRead
  split_ifs <;> cases env.submits <;> rfl

def hands (s : H1Send) : H1Event → Bytes
  | .readDone (.bytes n) env => if s.Hands n env then s.next n else []
  | _ => []

theorem step_body (event : H1Event) : (s.step event).body = s.body := by
  rcases event with ⟨registers, env⟩ | ⟨_ | _ | _, env⟩ | env <;>
    simp only [step, start, handleTlsReadDone, tlsDrainDone] <;> split_ifs <;>
    first | rfl | exact readNext_body

theorem step_handed (event : H1Event) : (s.step event).handed = s.handed ++ s.hands event := by
  rcases event with ⟨registers, env⟩ | ⟨n | _ | _, env⟩ | env
  · simp only [step, start, hands, append_nil]
    split_ifs <;> first | rfl | exact readNext_handed
  · by_cases taken : s.phase = .tlsRead ∧ s.accepts (.bytes n) = true
    · rw [step, if_pos taken]
      cases torn : env.torn <;> cases sends : env.sends <;> cases inflight : env.inflight <;>
        simp [handleTlsReadDone, hands, Hands, taken, torn, sends, inflight, fail, finalize]
    · rw [step, if_neg taken, hands, if_neg (fun all => taken ⟨all.1, all.2.1⟩), append_nil]
  all_goals
    simp only [step, tlsDrainDone, handleTlsReadDone, hands, append_nil]
    split_ifs <;> first | rfl | exact readNext_handed

theorem Sound.step (sound : s.Sound) (event : H1Event) : (s.step event).Sound := by
  cases event with
  | start registers env =>
    rw [H1Send.step]
    split_ifs with head
    · have going : s.phase ≠ .done := by simp [head]
      unfold start
      split_ifs
      · exact fail_sound sound.handed sound.bound
      · exact sound.drain going
      · exact sound.readNext going env
    · exact sound
  | drainDone env =>
    rw [H1Send.step]
    split_ifs with drain
    · grind [H1Send.tlsDrainDone, H1Send.fail_sound, H1Send.Sound.handed, H1Send.Sound.bound,
        H1Send.Sound.finalize, H1Send.Sound.readNext]
    · exact sound
  | readDone completion env =>
    rw [H1Send.step]
    split_ifs with taken
    · have going : s.phase ≠ .done := by simp [taken.1]
      cases completion with
      | eof | failed => exact fail_sound sound.handed sound.bound
      | bytes n =>
        obtain ⟨⟨want, asked, within⟩, fits⟩ := accepts_bytes taken.2
        have room := sound.pending want asked
        have bound := sound.bound
        -- the state after the chunk, before the next read or the wait for the cipher write
        have after : Sound { s with
            pendingReq := none, position := s.position + n, handed := s.handed ++ s.next n,
            bytesSent := s.bytesSent + n } :=
          { handed := by
              rw [length_append, sound.handed, next_length taken.2]
            bound := by simp only; omega
            pending := by simp
            going := fun _ => ⟨congrArg (· + n) (sound.going going).1, (sound.going going).2⟩
            done := fun ended => absurd ended going }
        simp only [handleTlsReadDone]
        split_ifs
        · exact fail_sound sound.handed sound.bound
        · exact after.drain going
        · exact after.readNext going env
    · exact sound

theorem Sound.faithful_iff (sound : s.Sound) : Faithful s.toDelivery s.ended ↔ s.Ordered := by
  constructor
  · exact Faithful.inOrder
  · intro ordered
    refine ⟨ordered, ?_, ?_⟩
    · grind [ended, Sound.done, Delivery.Ordered.whole, Sound.handed]
    · grind [Sound.done, Sound.going]

theorem Sound.ordered_step_iff (sound : s.Sound) (ordered : s.Ordered) (event : H1Event) :
    (s.step event).Ordered ↔ s.Meets event := by
  rw [Ordered, step_handed, step_body]
  rcases event with ⟨registers, env⟩ | ⟨n | _ | _, env⟩ | env
  case readDone.bytes =>
    by_cases handed : s.Hands n env
    · obtain ⟨⟨want, asked, within⟩, fits⟩ := accepts_bytes handed.2.1
      have room := sound.pending want asked
      have bound := sound.bound
      have going : s.phase ≠ .done := by simp [handed.1]
      rw [hands, if_pos handed, append_prefix_slice ordered, next_length handed.2.1,
        sound.handed, Delivery.next, (sound.going going).1, Meets]
      exact ⟨fun same _ => same.2, fun same => ⟨by omega, same handed⟩⟩
    · rw [hands, if_neg handed, append_nil]
      exact ⟨fun _ now => absurd now handed, fun _ => ordered⟩
  all_goals simpa [hands, Meets, Ordered] using ordered

theorem init_sound (body : BodySlice) : Sound { body } where
  handed := rfl
  bound := Nat.zero_le _
  pending := by simp
  going _ := ⟨rfl, rfl, rfl, rfl⟩
  done := by simp

end H1Send

/-! ## HTTP/2 -/

namespace H2Static

variable {s : H2Static} {env : H2Env}

def Hands (s : H2Static) (n : Nat) : Prop :=
  s.reported = none ∧ s.accepts (.bytes n) = true ∧ s.peerClosed = false
deriving Decidable

/-- A chunk has to end within the slice, and after a failed seek it has to stand at the start of the
file as it stands in the slice; and a stream is not to be closed without an error after a read that has
returned nothing. -/
def Meets (s : H2Static) : H2Event → Prop
  | .readDone (.bytes n) _ =>
    s.Hands n → s.bytesSent + n ≤ s.body.bodyLength ∧
      (s.seekFailed = true →
        s.body.range s.bytesSent n = s.body.range (s.body.bodyOffset + s.bytesSent) n)
  | .streamClose noError =>
    s.started = true → s.reported = none → noError = true → s.short = true → s.status = .error
  | _ => True

/-- What holds in every state. -/
structure Sound (s : H2Static) : Prop where
  handed : s.peerClosed = false ∨ s.started = false → s.handed.length = s.bytesSent
  placed : s.position = s.bytesSent + if s.seekDone && !s.seekFailed then s.body.bodyOffset else 0
  unread : s.seekDone = false → s.bytesSent = 0 ∧ s.pendingReq = none ∧ s.seekFailed = false
  ended : s.eofReached = true → s.pendingReq = none ∧
    (s.status = .ok → s.short = false → s.body.bodyLength ≤ s.handed.length)
  fresh : s.started = false → s.pendingReq = none ∧ s.eofReached = false ∧ s.throttled = false

/-- What a read that is about to be submitted finds. -/
structure Ready (s : H2Static) : Prop extends Sound s where
  started : s.started = true
  level : s.handed.length = s.bytesSent
  idle : s.pendingReq = none
  reading : s.eofReached = false

theorem Ready.seek (ready : s.Ready) (env : H2Env) : (s.seek env).Ready := by
  obtain ⟨sound, started, level, idle, reading⟩ := ready
  unfold H2Static.seek
  split_ifs with sought start seeks
  · exact ⟨sound, started, level, idle, reading⟩
  all_goals
    have first := sound.unread (by simpa using sought)
    have placed := sound.placed
    exact ⟨{ sound with placed := by simp_all, unread := by simp_all }, started, level, idle, reading⟩

theorem Sound.markEnded (sound : s.Sound) (started : s.started = true) (idle : s.pendingReq = none)
    (full : s.status = .ok → s.short = false → s.body.bodyLength ≤ s.handed.length) :
    s.markEnded.Sound :=
  { sound with ended := fun _ => ⟨idle, full⟩, fresh := by simp [H2Static.markEnded, started] }

theorem Ready.stop (ready : s.Ready) : { s with status := .error }.markEnded.Sound :=
  { ready.toSound with
    ended := fun _ => ⟨ready.idle, by simp [markEnded]⟩
    fresh := by simp [markEnded, ready.started] }

theorem submitRead_cases (s : H2Static) (env : H2Env) :
    (s.body.bodyLength ≤ s.bytesSent ∧ s.submitRead env = (s.markEnded, true)) ∨
      s.submitRead env = ({ s.seek env with throttled := true }, true) ∨
      s.submitRead env = (s.seek env, false) ∨
      ∃ want, s.submitRead env = ({ s.seek env with pendingReq := some want }, true) := by
  grind [submitRead]

theorem seek_seekDone (s : H2Static) (env : H2Env) : (s.seek env).seekDone = true := by
  grind [seek]

section

variable (ready : s.Ready)
include ready

theorem Ready.park : { s with throttled := true }.Sound :=
  { ready.toSound with fresh := by simp [ready.started] }

theorem Ready.ask (sought : s.seekDone = true) (want : Nat) :
    { s with pendingReq := some want }.Sound :=
  { ready.toSound with
    unread := by simp [sought]
    ended := by simp [ready.reading]
    fresh := by simp [ready.started] }

theorem Ready.full (full : s.body.bodyLength ≤ s.bytesSent) : s.markEnded.Sound :=
  ready.toSound.markEnded ready.started ready.idle fun _ _ => by rw [ready.level]; exact full

theorem Ready.submitRead (env : H2Env) : (s.submitRead env).1.Sound := by
  rcases s.submitRead_cases env with ⟨full, same⟩ | same | same | ⟨want, same⟩ <;> rw [same]
  · exact ready.full full
  · exact (ready.seek env).park
  · exact (ready.seek env).toSound
  · exact (ready.seek env).ask (seek_seekDone s env) want

theorem Ready.readNext (env : H2Env) : (s.readNext env).Sound := by
  unfold H2Static.readNext
  rcases s.submitRead_cases env with ⟨full, same⟩ | same | same | ⟨want, same⟩ <;> rw [same]
  · exact ready.full full
  · exact (ready.seek env).park
  · exact (ready.seek env).stop
  · exact (ready.seek env).ask (seek_seekDone s env) want

end

theorem seek_quiet : Quiet s.toDelivery (s.seek env).toDelivery := by
  unfold seek
  split_ifs
  all_goals exact { Delivery.Quiet.refl s.toDelivery with }

theorem submitRead_quiet (s : H2Static) (env : H2Env) :
    Quiet s.toDelivery (s.submitRead env).1.toDelivery := by
  rcases s.submitRead_cases env with ⟨full, same⟩ | same | same | ⟨want, same⟩ <;> rw [same]
  · exact .refl s.toDelivery
  all_goals exact { s.seek_quiet with }

theorem readNext_quiet (s : H2Static) (env : H2Env) :
    Quiet s.toDelivery (s.readNext env).toDelivery := by
  have submitted := s.submitRead_quiet env
  unfold readNext
  split <;> rename_i same <;> rw [same] at submitted
  · exact submitted
  · exact { submitted with }

def hands (s : H2Static) : H2Event → Bytes
  | .readDone (.bytes n) _ => if s.Hands n then s.next n else []
  | _ => []

/-- The call of `on_done` that an event makes. -/
def reports (s : H2Static) : H2Event → Option Status
  | .start submitted _ => if s.started || submitted then none else some .error
  | .streamClose noError =>
    if s.started then some (if noError && s.status = .ok then .ok else .error) else none
  | _ => none

theorem dispatch_effect (n : Nat) : Effect s.toDelivery (s.dispatch env (.bytes n)).toDelivery
      (if s.peerClosed then [] else s.next n) s.reported := by
  simp only [dispatch]
  split_ifs with peerClosed full more
  · exact { Delivery.Quiet.refl s.toDelivery with }
  · exact ⟨rfl, rfl, rfl⟩
  · exact (readNext_quiet _ _).after ⟨rfl, rfl, rfl⟩
  · exact ⟨rfl, rfl, rfl⟩

theorem step_effect (going : s.reported = none) (event : H2Event) :
    Effect s.toDelivery (s.step event).toDelivery (s.hands event) (s.reports event) := by
  have still : Effect s.toDelivery s.toDelivery [] none := ⟨rfl, (append_nil _).symm, going⟩
  rcases event with ⟨submitted, env⟩ | ⟨n | _ | _, env⟩ | env | env | _ | noError <;>
    simp only [step, going, isSome_none, Bool.false_eq_true, if_false, hands, reports]
  case start =>
    cases started : s.started <;> cases submitted <;>
      simp only [Bool.false_eq_true, if_true, if_false, Bool.or_false, Bool.or_true]
    · exact { still with reported := rfl }
    · exact (readNext_quiet _ env).after still
    all_goals exact still
  case readDone.bytes =>
    grind [dispatch_effect, Hands]
  case throttleKick =>
    split_ifs
    · exact (submitRead_quiet _ env).after still
    all_goals exact still
  case streamClose =>
    cases started : s.started
    · exact still
    · exact { still with reported := rfl }
  case peerCloses => exact still
  case windowOpen =>
    grind [readNext_quiet]
  all_goals
    split_ifs
    · exact { still with }
    · exact still

section

variable (sound : s.Sound)
include sound

theorem Sound.begins (fresh : s.started = false) : { s with started := true }.Ready where
  toSound := { sound with handed := fun _ => sound.handed (.inr fresh), fresh := by simp }
  started := rfl
  level := sound.handed (.inr fresh)
  idle := (sound.fresh fresh).1
  reading := (sound.fresh fresh).2.1

theorem Sound.finalize (started : s.started = true) (status : Status) : (s.finalize status).Sound :=
  { sound with
    unread := fun unsought => ⟨(sound.unread unsought).1, rfl, (sound.unread unsought).2.2⟩
    ended := fun ended => ⟨rfl, (sound.ended ended).2⟩
    fresh := by simp [H2Static.finalize, started] }

theorem Sound.inFlight (asked : s.pendingReq ≠ none) :
    s.started = true ∧ s.seekDone = true ∧ s.eofReached = false := by
  refine ⟨?_, ?_, ?_⟩
  · exact Bool.of_not_eq_false fun fresh => asked (sound.fresh fresh).1
  · exact Bool.of_not_eq_false fun unsought => asked (sound.unread unsought).2.1
  · exact Bool.of_not_eq_true fun ended => asked (sound.ended ended).1

theorem Sound.pushed (accepted : s.accepts (.bytes n) = true) (asked : s.pendingReq ≠ none)
    (peer : s.peerClosed = false) : { s with
      pendingReq := none, position := s.position + n, bytesSent := s.bytesSent + n,
      handed := s.handed ++ s.next n }.Ready := by
  obtain ⟨started, sought, reading⟩ := sound.inFlight asked
  have placed := sound.placed
  have level : (s.handed ++ s.next n).length = s.bytesSent + n := by
    rw [length_append, sound.handed (.inl peer), next_length accepted]
  refine ⟨⟨fun _ => level, ?_, by simp [sought], by simp [reading], by simp [started]⟩,
    started, level, rfl, reading⟩
  simp only [placed]
  omega

theorem Sound.dispatch
    (accepted : s.accepts completion = true) (env : H2Env) : (s.dispatch env completion).Sound := by
  have asked : s.pendingReq ≠ none := by
    rintro idle
    cases completion <;> simp [accepts, idle] at accepted
  obtain ⟨started, sought, reading⟩ := sound.inFlight asked
  cases completion with
  | eof | failed =>
    exact { sound with
      unread := by simp [H2Static.dispatch, H2Static.markEnded, sought]
      ended := by simp [H2Static.dispatch, H2Static.markEnded]
      fresh := by simp [H2Static.dispatch, H2Static.markEnded, started] }
  | bytes n =>
    simp only [H2Static.dispatch]
    split_ifs with peer full more
    · have placed := sound.placed
      exact
        { handed := by simp [peer, started]
          placed := by simp only [placed]; omega
          unread := by simp [sought]
          ended := by simp [reading]
          fresh := by simp [started] }
    · exact (sound.pushed accepted asked (by simpa using peer)).full full
    · exact (sound.pushed accepted asked (by simpa using peer)).readNext env
    · exact (sound.pushed accepted asked (by simpa using peer)).toSound

theorem Sound.step (event : H2Event) : (s.step event).Sound := by
  unfold H2Static.step
  split
  · exact sound
  cases event with
  | start submitted env =>
    simp only
    split_ifs with started
    · exact sound
    · exact (sound.begins (by simpa using started)).readNext env
    · exact (sound.begins (by simpa using started)).toSound.finalize rfl .error
  | readDone completion env =>
    simp only
    split_ifs with accepted
    · exact sound.dispatch accepted env
    · exact sound
  | windowOpen env =>
    simp only
    split_ifs with wake
    · simp only [Bool.and_eq_true, Bool.not_eq_true', isNone_iff_eq_none] at wake
      obtain ⟨⟨⟨⟨started, peer⟩, idle⟩, reading⟩, -⟩ := wake
      exact Ready.readNext ⟨sound, started, sound.handed (.inl peer), idle, reading⟩ env
    · exact sound
  | throttleKick env =>
    simp only
    split_ifs with parked wake
    · simp only [Bool.and_eq_true, Bool.not_eq_true', isNone_iff_eq_none] at wake
      obtain ⟨⟨peer, idle⟩, reading⟩ := wake
      have started : s.started = true :=
        Bool.of_not_eq_false fun fresh => by simp [(sound.fresh fresh).2.2] at parked
      have woken : Ready { s with throttled := false } :=
        ⟨{ sound with fresh := by simp [started] }, started, sound.handed (.inl peer), idle, reading⟩
      exact woken.submitRead env
    · exact { sound with fresh := fun fresh => ⟨(sound.fresh fresh).1, (sound.fresh fresh).2.1, rfl⟩ }
    · exact sound
  | peerCloses => exact { sound with handed := fun live => sound.handed (.inr (by simpa using live)) }
  | streamClose noError =>
    simp only
    split_ifs with started
    · exact sound.finalize started _
    · exact sound.finalize started _
    · exact sound

end

/-- A read that has stopped short was not reported as a success. -/
def Honest (s : H2Static) : Prop := s.short = true → s.reported ≠ some .ok

theorem Sound.faithful_iff (sound : s.Sound) :
    Faithful s.toDelivery s.eofReached ↔ s.Ordered ∧ s.Honest := by
  constructor
  · exact fun faithful => ⟨faithful.inOrder, faithful.reported⟩
  · rintro ⟨ordered, honest⟩
    refine ⟨ordered, ?_, honest⟩
    intro ended fine long
    exact ordered.whole ((sound.ended ended).2 fine long)

theorem Sound.next_eq (sound : s.Sound) (asked : s.pendingReq ≠ none) :
    s.next n = if s.seekFailed then s.body.range s.bytesSent n
      else s.body.range (s.body.bodyOffset + s.bytesSent) n := by
  rw [Delivery.next, sound.placed, (sound.inFlight asked).2.1]
  cases s.seekFailed
  · simp [add_comm]
  · simp

theorem Sound.handed_step_iff (sound : s.Sound) (ordered : s.Ordered) (handed : s.Hands n) :
    s.handed ++ s.next n <+: s.body.slice ↔ s.bytesSent + n ≤ s.body.bodyLength ∧
        (s.seekFailed = true →
          s.body.range s.bytesSent n = s.body.range (s.body.bodyOffset + s.bytesSent) n) := by
  obtain ⟨⟨want, asked, within⟩, fits⟩ := accepts_bytes handed.2.1
  rw [append_prefix_slice ordered, next_length handed.2.1,
    sound.handed (.inl handed.2.2), sound.next_eq (by rintro idle; simp [idle] at asked)]
  cases s.seekFailed <;> simp

theorem Sound.step_iff (sound : s.Sound) (ordered : s.Ordered) (honest : s.Honest)
    (event : H2Event) : (s.step event).Ordered ∧ (s.step event).Honest ↔ s.Meets event := by
  cases going : s.reported with
  | some status =>
    have same : s.step event = s := by simp [H2Static.step, going]
    rw [same]
    refine ⟨fun _ => ?_, fun _ => ⟨ordered, honest⟩⟩
    rcases event with ⟨submitted, env⟩ | ⟨n | _ | _, env⟩ | env | env | _ | noError <;>
      simp [Meets, Hands, going]
  | none =>
    have effect := step_effect going event
    rw [Delivery.Ordered, Honest, effect.handed, effect.body, effect.reported]
    rcases event with ⟨submitted, env⟩ | ⟨n | _ | _, env⟩ | env | env | _ | noError
    case readDone.bytes =>
      simp only [hands, reports, Meets]
      split_ifs with handed
      · rw [sound.handed_step_iff ordered handed]
        simp [handed]
      · simpa [handed, Delivery.Ordered] using ordered
    case streamClose =>
      have long : (s.step (.streamClose noError)).short = s.short := by
        simp only [H2Static.step, going, isSome_none, Bool.false_eq_true, if_false]
        split_ifs <;> rfl
      have same : s.handed ++ s.hands (.streamClose noError) <+: s.body.slice := by
        simpa [hands, Delivery.Ordered] using ordered
      rw [long, and_iff_right same]
      simp only [reports, Meets, going]
      cases s.started <;> cases noError <;> cases s.status <;> simp
    case start =>
      have same : s.handed ++ s.hands (.start submitted env) <+: s.body.slice := by
        simpa [hands, Delivery.Ordered] using ordered
      rw [and_iff_right same]
      cases started : s.started <;> cases submitted <;> simp [reports, Meets, started]
    all_goals simpa [hands, reports, Meets, Delivery.Ordered] using ordered

theorem init_sound (body : BodySlice) : Sound { body } where
  handed _ := rfl
  placed := by simp
  unread _ := ⟨rfl, rfl, rfl⟩
  ended := by simp
  fresh _ := ⟨rfl, rfl, rfl⟩

end H2Static

/-! ## HTTP/3 -/

namespace H3Static

variable {s : H3Static} {env : H3Env}

def Queues (s : H3Static) (env : H3Env) : Prop :=
  s.peerClosed = false ∧ s.closed = false ∧ (s.queue = true ∨ env.responds = true)
deriving Decidable

def Hands (s : H3Static) (n : Nat) (env : H3Env) : Prop :=
  s.reported = none ∧ s.accepts (.bytes n) = true ∧ s.Queues env
deriving Decidable

/-- A chunk that is read after another one was lost has to stand in its place. -/
def Meets (s : H3Static) : H3Event → Prop
  | .readDone (.bytes n) env =>
    s.Hands n env → s.lost = true →
      s.body.range (s.body.bodyOffset + s.bytesSent) n =
        s.body.range (s.body.bodyOffset + s.handed.length) n
  | _ => True

/-- Where the sender stands in the file. -/
structure Placed (s : H3Static) : Prop where
  level : s.lost = false → s.handed.length = s.bytesSent
  behind : s.handed.length ≤ s.bytesSent
  placed : s.position = s.bytesSent + if s.seekDone then s.body.bodyOffset else 0
  unread : s.seekDone = false → s.bytesSent = 0 ∧ s.pendingReq = none
  pending : ∀ want ∈ s.pendingReq, s.bytesSent + want ≤ s.body.bodyLength

/-- What holds in every state. -/
structure Sound (s : H3Static) : Prop extends Placed s where
  ended : s.eofReached = true → s.status = .ok → s.body.bodyLength ≤ s.bytesSent
  failed : s.lost = true ∨ s.short = true → s.status = .error
  reported : ∀ status ∈ s.reported, status = s.status

theorem Placed.idle (placed : s.Placed) (short : Bool) :
    { s with pendingReq := none, short }.Placed :=
  { placed with
    unread := fun unsought => ⟨(placed.unread unsought).1, rfl⟩
    pending := by simp }

theorem Placed.fail (placed : s.Placed) (going : s.reported = none) (env : H3Env) :
    (s.fail env).Sound := by
  simp only [H3Static.fail]
  split_ifs
  · exact { placed with
      ended := by simp
      failed := by simp
      reported := by simp [going] }
  all_goals
    exact { placed.idle s.short with
      ended := by simp [finalize]
      failed := by simp [finalize]
      reported := by simp [finalize] }

theorem Sound.finalize (sound : s.Sound) : s.finalize.Sound :=
  { sound.toPlaced.idle s.short with
    ended := sound.ended
    failed := sound.failed
    reported := by simp [H3Static.finalize] }

theorem Sound.seek (sound : s.Sound) (env : H3Env) : (s.seek env).1.Sound := by
  unfold H3Static.seek
  split_ifs with sought start seeks
  · exact sound
  · exact { sound with
      placed := by simpa [start] using sound.placed
      unread := by simp }
  · exact { sound with
      placed := by simp [(sound.unread (by simpa using sought)).1]
      unread := by simp }
  · exact sound

theorem seek_frame (s : H3Static) (env : H3Env) :
    ∃ position, (s.seek env).1.toDelivery = { s.toDelivery with position } := by
  unfold seek
  split_ifs
  all_goals exact ⟨_, rfl⟩

theorem seek_seekDone (s : H3Static) (env : H3Env) (sought : (s.seek env).2 = true) :
    (s.seek env).1.seekDone = true := by
  grind [seek]

theorem submitRead_cases (s : H3Static) (env : H3Env) : s.submitRead env = ((s.seek env).1, false) ∨
      (s.seek env).2 = true ∧ ∃ want, want ≤ s.body.bodyLength - s.bytesSent ∧
        s.submitRead env = ({ (s.seek env).1 with pendingReq := some want }, true) := by
  obtain ⟨position, frame⟩ := s.seek_frame env
  grind [submitRead]

theorem Sound.tryRead (sound : s.Sound) (going : s.reported = none) (env : H3Env) :
    (s.tryRead env).Sound := by
  unfold H3Static.tryRead
  split_ifs with peer busy full throttle high
  · exact sound.toPlaced.fail going env
  · exact sound
  · exact { sound with ended := fun _ _ => full }
  · exact { sound with }
  · exact sound
  · have sought := sound.seek env
    obtain ⟨position, frame⟩ := s.seek_frame env
    have going' : (s.seek env).1.reported = none := by rw [frame]; exact going
    rcases s.submitRead_cases env with same | ⟨positioned, want, room, same⟩ <;> rw [same]
    · exact sought.toPlaced.fail going' env
    · exact { sought with
        unread := by simp [s.seek_seekDone env positioned]
        pending := by
          grind }

theorem appendChunk_cases (chunk : Bytes) : (¬s.Queues env ∧
        ∃ queue, s.appendChunk env chunk = ({ s with queue, lost := true }, false)) ∨
      s.Queues env ∧
        s.appendChunk env chunk =
          ({ s with queue := true, handed := s.handed ++ chunk, peerClosed := env.peerCloses },
            !env.peerCloses) := by
  grind [appendChunk, Queues]

theorem Sound.readDispatch (sound : s.Sound) (going : s.reported = none)
    (accepted : s.accepts completion = true) (env : H3Env) :
    (s.readDispatch env completion).Sound := by
  cases completion with
  | eof | failed => exact (sound.toPlaced.idle true).fail going env
  | bytes n =>
    obtain ⟨⟨want, asked, within⟩, fits⟩ := accepts_bytes accepted
    have sought : s.seekDone = true :=
      Bool.of_not_eq_false fun unsought => by simp [(sound.unread unsought).2] at asked
    have behind := sound.behind
    have placed := sound.placed
    have chunk := next_length accepted
    simp only [H3Static.readDispatch]
    rcases appendChunk_cases
        (s.next n) with ⟨-, queue, same⟩ | ⟨-, same⟩ <;> rw [same]
    · have lost : Placed { s with
          pendingReq := none, position := s.position + n, bytesSent := s.bytesSent + n,
          queue, lost := true } :=
        { level := by simp
          behind := by simp only; omega
          placed := by simp only [placed]; omega
          unread := by simp [sought]
          pending := by simp }
      exact lost.fail going env
    · have pushed : Sound { s with
          pendingReq := none, position := s.position + n, bytesSent := s.bytesSent + n,
          queue := true, handed := s.handed ++ s.next n, peerClosed := env.peerCloses } :=
        { level := by
            intro kept
            rw [length_append, sound.level kept, chunk]
          behind := by
            grind
          placed := by simp only [placed]; omega
          unread := by simp [sought]
          pending := by simp
          ended := by
            intro ended fine
            have := sound.ended ended fine
            simp only
            omega
          failed := sound.failed
          reported := sound.reported }
      grind [H3Static.Sound.tryRead, H3Static.Sound.toPlaced, H3Static.Placed.fail]

theorem Sound.stop (sound : s.Sound) : { s with status := .error }.finalize.Sound :=
  { sound.toPlaced.idle s.short with
    ended := by simp [H3Static.finalize]
    failed := by simp [H3Static.finalize]
    reported := by simp [H3Static.finalize] }

theorem Sound.step (sound : s.Sound) (event : H3Event) : (s.step event).Sound := by
  unfold H3Static.step
  split
  · exact sound
  rename_i unreported
  have going : s.reported = none := by simpa using unreported
  cases event with
  | start attached env =>
    simp only
    split_ifs
    · exact sound
    · have started : Sound { s with started := true } := { sound with }
      exact started.tryRead going env
    · have started : Sound { s with started := true } := { sound with }
      exact started.stop
  | readDone completion env =>
    simp only
    split_ifs with accepted
    · exact sound.readDispatch going accepted env
    · exact sound
  | windowOpen env => grind [H3Static.Sound.tryRead]
  | throttleKick env =>
    simp only
    split_ifs
    · have woken : Sound { s with throttled := false } := { sound with }
      exact woken.tryRead going env
    · exact sound
  | peerCloses | connectionCloses => exact { sound with }
  | streamClosed => grind [H3Static.Sound.stop, H3Static.Sound.finalize]
  | cancel => grind [H3Static.Sound.stop]

theorem fail_frame (s : H3Static) (env : H3Env) :
    (s.fail env).body = s.body ∧ (s.fail env).handed = s.handed := by
  simp only [fail]
  split_ifs <;> exact ⟨rfl, rfl⟩

theorem tryRead_frame (s : H3Static) (env : H3Env) :
    (s.tryRead env).body = s.body ∧ (s.tryRead env).handed = s.handed := by
  unfold tryRead
  split_ifs
  · exact s.fail_frame env
  · exact ⟨rfl, rfl⟩
  · exact ⟨rfl, rfl⟩
  · exact ⟨rfl, rfl⟩
  · exact ⟨rfl, rfl⟩
  · grind [submitRead_cases, seek, fail_frame]

def hands (s : H3Static) : H3Event → Bytes
  | .readDone (.bytes n) env => if s.Hands n env then s.next n else []
  | _ => []

theorem readDispatch_frame (s : H3Static) (env : H3Env) (n : Nat) :
    (s.readDispatch env (.bytes n)).body = s.body ∧ (s.readDispatch env (.bytes n)).handed =
        s.handed ++ if s.Queues env then s.next n else [] := by
  simp only [readDispatch]
  rcases appendChunk_cases
      (s.next n) with ⟨queues, queue, same⟩ | ⟨queues, same⟩ <;> rw [same]
  · grind [Queues, fail_frame]
  · grind [Queues, tryRead_frame, fail_frame]

theorem step_frame (s : H3Static) (event : H3Event) :
    (s.step event).body = s.body ∧ (s.step event).handed = s.handed ++ s.hands event := by
  cases going : s.reported with
  | some status =>
    have none : s.hands event = [] := by
      rcases event with ⟨attached, env⟩ | ⟨n | _ | _, env⟩ | env | env | _ | _ | _ | _ <;>
        simp [hands, Hands, going]
    simp [step, going, none]
  | none =>
    rcases event with ⟨attached, env⟩ | ⟨n | _ | _, env⟩ | env | env | _ | _ | _ | _ <;>
      simp only [step, going, isSome_none, Bool.false_eq_true, if_false, hands, append_nil]
    case readDone.bytes =>
      split_ifs with accepted handed handed
      · have dispatched := s.readDispatch_frame env n
        rwa [if_pos handed.2.2] at dispatched
      · have dispatched := s.readDispatch_frame env n
        rwa [if_neg fun queues => handed ⟨going, accepted, queues⟩] at dispatched
      · exact absurd handed.2.1 accepted
      · exact ⟨rfl, (append_nil _).symm⟩
    case peerCloses => exact ⟨trivial, trivial⟩
    case connectionCloses => exact ⟨trivial, trivial⟩
    all_goals
      split_ifs <;>
        first
        | exact ⟨rfl, rfl⟩
        | exact tryRead_frame _ _
        | exact fail_frame _ _

theorem Sound.faithful_iff (sound : s.Sound) : Faithful s.toDelivery s.eofReached ↔ s.Ordered := by
  constructor
  · exact Faithful.inOrder
  · intro ordered
    refine ⟨ordered, ?_, ?_⟩
    · intro ended fine _
      have kept : s.lost = false :=
        Bool.of_not_eq_true fun lost => by simp [sound.failed (.inl lost)] at fine
      exact ordered.whole (by rw [sound.level kept]; exact sound.ended ended fine)
    · intro short fine
      have same := sound.reported .ok fine
      simp [sound.failed (.inr short)] at same

theorem Sound.step_iff (sound : s.Sound) (ordered : s.Ordered) (event : H3Event) :
    (s.step event).Ordered ↔ s.Meets event := by
  rw [Ordered, (s.step_frame event).1, (s.step_frame event).2]
  rcases event with ⟨attached, env⟩ | ⟨n | _ | _, env⟩ | env | env | _ | _ | _ | _
  case readDone.bytes =>
    simp only [hands, Meets]
    split_ifs with handed
    · obtain ⟨⟨want, asked, within⟩, fits⟩ := accepts_bytes handed.2.1
      have room := sound.pending want asked
      have behind := sound.behind
      have sought : s.seekDone = true :=
        Bool.of_not_eq_false fun unsought => by simp [(sound.unread unsought).2] at asked
      have chunk : s.next n = s.body.range (s.body.bodyOffset + s.bytesSent) n := by
        rw [Delivery.next, sound.placed, sought, if_pos rfl, add_comm]
      rw [append_prefix_slice ordered, next_length handed.2.1, chunk]
      constructor
      · exact fun same _ _ => same.2
      · intro same
        refine ⟨by omega, ?_⟩
        cases lost : s.lost
        · rw [sound.level lost]
        · exact same handed lost
    · simpa [handed, Ordered] using ordered
  all_goals simpa [hands, Meets, Ordered] using ordered

theorem init_sound (body : BodySlice) : Sound { body } where
  level _ := rfl
  behind := le_rfl
  placed := rfl
  unread _ := ⟨rfl, rfl⟩
  pending := by simp
  ended := by simp
  failed := by simp
  reported := by simp

end H3Static

/-! ## The three senders -/

/-- Each sender hands over the slice, all of it when it ends the body well, and never reports a body
that has stopped short as sent: in all states of a run exactly if each of its events meets the
condition of that sender. -/
theorem static_body_faithful_iff (body : BodySlice) : (∀ history, (∀ past, past <+: history →
        Faithful (H1Send.run body past).toDelivery (H1Send.run body past).ended) ↔
      Along (fun past event => (H1Send.run body past).Meets event) history) ∧
    (∀ history, (∀ past, past <+: history →
        Faithful (run body past).toDelivery (run body past).eofReached) ↔
      Along (fun past event => (run body past).Meets event) history) ∧
    (∀ history, (∀ past, past <+: history →
        Faithful (H3Static.run body past).toDelivery (H3Static.run body past).eofReached) ↔
      Along (fun past event => (H3Static.run body past).Meets event) history) := by
  refine ⟨fun history => ?_, fun history => ?_, fun history => ?_⟩
  · apply Along.holds_iff (I := H1Send.Sound)
      (P := fun s : H1Send => Faithful s.toDelivery s.ended)
    · exact fun s event sound => sound.step event
    · intro s event sound faithful
      rw [(sound.step event).faithful_iff]
      exact sound.ordered_step_iff faithful.inOrder event
    · exact H1Send.init_sound body
    · exact (H1Send.init_sound body).faithful_iff.mpr nil_prefix
  · apply Along.holds_iff (I := Sound)
      (P := fun s : H2Static => Faithful s.toDelivery s.eofReached)
    · exact fun s event sound => sound.step event
    · intro s event sound faithful
      rw [(sound.step event).faithful_iff]
      exact sound.step_iff faithful.inOrder faithful.reported event
    · exact init_sound body
    · refine (init_sound body).faithful_iff.mpr (.intro nil_prefix ?_)
      simp [Honest]
  · apply Along.holds_iff (I := H3Static.Sound)
      (P := fun s : H3Static => Faithful s.toDelivery s.eofReached)
    · exact fun s event sound => sound.step event
    · intro s event sound faithful
      rw [(sound.step event).faithful_iff]
      exact sound.step_iff faithful.inOrder event
    · exact H3Static.init_sound body
    · exact (H3Static.init_sound body).faithful_iff.mpr nil_prefix

/-- A range over HTTP/1 with TLS sends the start of the file; over HTTP/2 a truncated file is reported
as sent, a slice of one byte is sent with the byte after it when memory is short, and a seek that fails
sends the start of the file; over HTTP/3 the second chunk is queued after the first was lost. -/
theorem static_bodies_unfaithful : let two : BodySlice := ⟨[1, 2], 0, 2, by decide⟩
    let first : BodySlice := ⟨[1, 2], 0, 1, by decide⟩
    let second : BodySlice := ⟨[1, 2], 1, 1, by decide⟩
    let env : H2Env := ⟨4194304, 1, 0, 0, 0, true, true, true⟩
    let tight : H2Env := { env with memoryLimit := 65536, usage := 57344 }
    ((H1Send.run second [.start true {}, .readDone (.bytes 1) {}]).handed = [1] ∧
      second.slice = [2]) ∧
    ((run two [.start true env, .readDone .eof env, .streamClose true]).handed = [] ∧
      (run two [.start true env, .readDone .eof env, .streamClose true]).reported = some .ok) ∧
    ((run first [.start true tight, .readDone (.bytes 2) tight]).handed = [1, 2] ∧
      first.slice = [1]) ∧
    (run second [.start true { env with seeks := false }, .readDone (.bytes 1) env]).handed
      = [1] ∧
    (H3Static.run two [.start true {}, .readDone (.bytes 1) { responds := false }, .windowOpen {},
      .readDone (.bytes 1) {}]).handed = [2] := by
  decide

end TrueAsync.Static

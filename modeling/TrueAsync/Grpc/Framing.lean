import Mathlib.Logic.Function.Iterate
import TrueAsync.Grpc.Message

/-!
# Reading gRPC messages

The messages of a request come out of `readMessage` in order, whatever the chunks and the times of
the calls, and then the end of the stream. The same holds of a body that is read from a buffer, and
of one in base64. A message that is cut off by the end of the body is not told from the end.
-/

namespace TrueAsync.Grpc

open TrueAsync.Lib List GrpcRequest Reading Option

/-- A message as it is sent. -/
structure Frame where
  compressed : Bool
  payload : Bytes
  deriving DecidableEq, Repr

def Frame.wire (frame : Frame) : Bytes := frameMessage frame.payload frame.compressed

def Frame.outcome (inflate : Bytes → Option Bytes) (frame : Frame) : ReadResult :=
  deliver inflate frame.compressed frame.payload

def wire (frames : List Frame) : Bytes := frames.flatMap Frame.wire

def Frame.Small (frame : Frame) : Prop := frame.payload.length ≤ maxRecvMessage

/-- The beginning of a frame, which may be nothing, and not the whole frame. -/
def CutOff (cut : Bytes) : Prop :=
  ∃ frame : Frame, frame.Small ∧ cut <+: frame.wire ∧ cut.length < frame.wire.length

/-! ## Deframing -/

theorem frameHeader_length (small : len ≤ maxRecvMessage) :
    (UInt8.ofNat (len / 2 ^ 24 % 256)).toNat * 2 ^ 24 +
      (UInt8.ofNat (len / 2 ^ 16 % 256)).toNat * 2 ^ 16 +
      (UInt8.ofNat (len / 2 ^ 8 % 256)).toNat * 2 ^ 8 + (UInt8.ofNat (len % 256)).toNat = len := by
  unfold maxRecvMessage at small
  simp only [UInt8.toNat_ofNat']
  omega

@[simp] theorem Frame.length_wire (frame : Frame) :
    frame.wire.length = 5 + frame.payload.length := by
  simp [wire, frameMessage, frameHeader]
  omega

variable {buf : Bytes} {cursor : Nat} {frame : Frame}

theorem deframeNext_header {tail : Bytes} (small : len ≤ maxRecvMessage)
    (split : buf.drop cursor = frameHeader flag len ++ tail) :
    deframeNext maxRecvMessage buf cursor = if tail.length < len then .incomplete
      else .message (flag ≠ 0) (tail.take len) (cursor + 5 + len) := by
  have total := congrArg length split
  have after : buf.drop (cursor + 5) = tail := by
    rw [← drop_drop, split]
    rfl
  rw [length_drop, length_append] at total
  have five : (frameHeader flag len).length = 5 := rfl
  unfold deframeNext
  rw [if_neg (by omega), split, frameHeader]
  dsimp only [cons_append, nil_append]
  rw [frameHeader_length small, if_neg (by omega), after]
  by_cases short : tail.length < len
  · rw [if_pos short, if_pos (by omega)]
  · rw [if_neg short, if_neg (by omega)]

theorem flag_ne_zero (compressed : Bool) :
    decide ((if compressed then (1 : UInt8) else 0) ≠ 0) = compressed := by
  cases compressed <;> rfl

theorem deframeNext_incomplete (small : frame.Small) (sofar : buf.drop cursor <+: frame.wire)
    (short : (buf.drop cursor).length < frame.wire.length) :
    deframeNext maxRecvMessage buf cursor = .incomplete := by
  by_cases header : (buf.drop cursor).length < 5
  · grind [deframeNext]
  · have split : buf.drop cursor = frameHeader (if frame.compressed then 1 else 0)
        frame.payload.length ++ frame.payload.take ((buf.drop cursor).length - 5) := by
      have five (flag : UInt8) (len : Nat) : (frameHeader flag len).length = 5 := rfl
      apply (prefix_iff_eq_take.mp sofar).trans
      rw [Frame.wire, frameMessage, take_append, five, take_of_length_le]
      rw [five]
      omega
    rw [deframeNext_header small split, if_pos]
    grind [Frame.length_wire]

theorem deframeNext_message (small : frame.Small) (whole : frame.wire <+: buf.drop cursor) :
    deframeNext maxRecvMessage buf cursor =
      .message frame.compressed frame.payload (cursor + frame.wire.length) := by
  obtain ⟨more, split⟩ := whole
  have header : buf.drop cursor = frameHeader (if frame.compressed then 1 else 0)
      frame.payload.length ++ (frame.payload ++ more) := by
    rw [← split, Frame.wire, frameMessage, append_assoc]
  rw [deframeNext_header small header, if_neg (by simp), take_left', flag_ne_zero,
    Frame.length_wire, add_assoc]
  rfl

variable {frames : List Frame} {cut future : Bytes}

theorem wire_cons (frame : Frame) (frames : List Frame) :
    wire (frame :: frames) = frame.wire ++ wire frames := flatMap_cons

theorem deframeNext_stream (small : ∀ f ∈ frames, f.Small) (cutOff : CutOff cut)
    (split : buf.drop cursor ++ future = wire frames ++ cut) : (∃ f fs, frames = f :: fs ∧
        deframeNext maxRecvMessage buf cursor =
          .message f.compressed f.payload (cursor + f.wire.length) ∧
        buf.drop (cursor + f.wire.length) ++ future = wire fs ++ cut ∧
        cursor + f.wire.length ≤ buf.length) ∨
      (deframeNext maxRecvMessage buf cursor = .incomplete ∧
        ∀ f fs, frames = f :: fs → (buf.drop cursor).length < f.wire.length) := by
  have here : buf.drop cursor <+: wire frames ++ cut := ⟨future, split⟩
  cases frames with
  | nil =>
    obtain ⟨frame, smallCut, start, short⟩ := cutOff
    rw [wire, flatMap_nil, nil_append] at here
    have bounded := here.length_le
    exact .inr ⟨deframeNext_incomplete smallCut (here.trans start) (by omega), nofun⟩
  | cons f fs =>
    have first : f.wire <+: wire (f :: fs) ++ cut := by grind [wire_cons]
    have smallFirst := small f mem_cons_self
    by_cases come : f.wire.length ≤ (buf.drop cursor).length
    · have whole := prefix_of_prefix_length_le first here come
      refine .inl ⟨f, fs, rfl, deframeNext_message smallFirst whole, ?_, ?_⟩
      · obtain ⟨more, parts⟩ := whole
        rw [← drop_drop, ← parts, drop_left]
        rw [← parts, wire_cons, append_assoc, append_assoc] at split
        exact append_cancel_left split
      · rw [length_drop] at come
        have := f.length_wire
        omega
    · grind [prefix_of_prefix_length_le, deframeNext_incomplete]

/-! ## Streaming -/

namespace GrpcRequest

variable {inflate : Bytes → Option Bytes}

def advanced (req : GrpcRequest) (buf : Option Bytes) (offset : Nat) (queue : List Bytes) :
    GrpcRequest :=
  { req with reassembly := buf, readOffset := offset, bodyQueue := queue }

def unread (req : GrpcRequest) (queue : List Bytes) : Bytes :=
  (req.reassembly.getD []).drop req.readOffset ++ queue.flatten

/-- Where a read of the stream leads: to the next message, or to the end of what has come. -/
def StreamReads (inflate : Bytes → Option Bytes) (frames : List Frame) (cut future : Bytes)
    (queue : List Bytes) (req : GrpcRequest) : Prop :=
  ∃ buf offset queue', offset ≤ (getD buf []).length ∧
    ((∃ f fs, frames = f :: fs ∧
        streamRead inflate queue req = (req.advanced buf offset queue', some (f.outcome inflate)) ∧
        (req.advanced buf offset queue').unread queue' ++ future = wire fs ++ cut) ∨
      (streamRead inflate queue req =
          (req.advanced buf offset [],
            if req.bodyEof then some (if req.bodyError then .streamError else .null) else none) ∧
        (req.advanced buf offset []).unread [] ++ future = wire frames ++ cut ∧
        ∀ f fs, frames = f :: fs → (req.unread queue).length < f.wire.length))

theorem streamRead_spec (small : ∀ f ∈ frames, f.Small) (cutOff : CutOff cut) (queue : List Bytes)
    (req : GrpcRequest) (bound : req.readOffset ≤ (req.reassembly.getD []).length)
    (split : req.unread queue ++ future = wire frames ++ cut) :
    StreamReads inflate frames cut future queue req := by
  induction queue generalizing req with
  | nil =>
    have here : (req.reassembly.getD []).drop req.readOffset ++ future = wire frames ++ cut := by
      rw [← split, unread, flatten_nil, append_nil]
    rcases deframeNext_stream small cutOff here with
      ⟨f, fs, first, found, later, inside⟩ | ⟨incomplete, short⟩
    · refine ⟨req.reassembly, req.readOffset + f.wire.length, [], inside, .inl ⟨f, fs, first, ?_, ?_⟩⟩
      · rw [streamRead, found]
        rfl
      · rw [unread, flatten_nil, append_nil]
        exact later
    · refine ⟨req.reassembly, req.readOffset, [], bound, .inr ⟨?_, split, ?_⟩⟩
      · rw [streamRead, incomplete]
        rfl
      · grind [unread]
  | cons chunk queue ih =>
    have here : (req.reassembly.getD []).drop req.readOffset ++ ((chunk :: queue).flatten ++ future) =
        wire frames ++ cut := by
      rw [← split, unread, append_assoc]
    rcases deframeNext_stream small cutOff here with
      ⟨f, fs, first, found, later, inside⟩ | ⟨incomplete, _⟩
    · refine ⟨req.reassembly, req.readOffset + f.wire.length, chunk :: queue, inside,
        .inl ⟨f, fs, first, ?_, ?_⟩⟩
      · rw [streamRead, found]
        rfl
      · rw [unread, append_assoc]
        exact later
    · -- The chunk goes to the buffer, and the loop goes on.
      have step : streamRead inflate (chunk :: queue) req =
          streamRead inflate queue
            { req with reassembly := some (req.reassembly.getD [] ++ chunk) } := by
        rw [streamRead, incomplete]
      have same : ({ req with reassembly := some (req.reassembly.getD [] ++ chunk) } :
          GrpcRequest).unread queue = req.unread (chunk :: queue) := by
        grind [unread]
      have longer : req.readOffset ≤ (req.reassembly.getD [] ++ chunk).length := by
        rw [length_append]
        omega
      have later := ih { req with reassembly := some (req.reassembly.getD [] ++ chunk) } longer
        (by rw [same]; exact split)
      unfold StreamReads at later ⊢
      rw [same] at later
      rw [step]
      exact later

end GrpcRequest

/-! ## Runs -/

/-- A request that is read while it comes: its body is a stream, or becomes one when it is read. -/
def Streams (start : GrpcRequest) : Prop :=
  start = { bodyStreaming := true } ∨ start = { upgradable := true }

/-- A stream of which `rest` has not been read, and `future` has not come. -/
structure StreamsAt (rest future : Bytes) (finished : Bool) (req : GrpcRequest) : Prop where
  streams : req.bodyStreaming = true
  plain : req.webText = false
  eof : req.bodyEof = finished
  error : req.bodyError = false
  bound : req.readOffset ≤ (req.reassembly.getD []).length
  unread : req.unread req.bodyQueue ++ future = rest

/-- A body that `readMessage` reads from a buffer, up to `rest`. -/
structure ReadsFrom (text rest : Bytes) (req : GrpcRequest) : Prop where
  source : req.webText = true ∧ req.textBody = some text ∨
    req.webText = false ∧ req.bodyStreaming = false ∧ req.complete = true ∧ req.body.getD [] = text
  unread : text.drop req.readOffset = rest

/-- How a request stands when `rest` has not been read. -/
inductive Stands (body rest : Bytes) (r : Reading) : Prop
  | streaming (stream : StreamsAt rest (body.drop r.sent.length) r.finished r.req)
  | buffering (req : r.req = { upgradable := true, bodyBuf := r.req.bodyBuf })
      (buffer : r.req.bodyBuf.getD [] = r.sent) (running : r.finished = false)
      (idle : r.waiting = 0) (all : rest = body)
  | buffered (text : Bytes) (finished : r.finished = true) (idle : r.waiting = 0)
      (reads : ReadsFrom text rest r.req)

/-- The results so far are those of the frames `done`, and ends of the stream when none is left. -/
structure Tells (inflate : Bytes → Option Bytes) (frames done left : List Frame)
    (results : List ReadResult) : Prop where
  split : frames = done ++ left
  results : ∃ ends, results = done.map (Frame.outcome inflate) ++ replicate ends .null ∧
    (0 < ends → left = [])

/-- A run over a body of frames with a cut. -/
structure ReadsOn (inflate : Bytes → Option Bytes) (cut : Bytes) (frames : List Frame)
    (r : Reading) : Prop where
  stands : ∃ done left, Tells inflate frames done left r.results ∧
    Stands (wire frames ++ cut) (wire left ++ cut) r
  sent : r.sent <+: wire frames ++ cut
  whole : r.finished = true → r.sent = wire frames ++ cut

/-- A call has to wait: the next message has not come in full, and more may come. -/
def Starved (frames : List Frame) (r : Reading) : Prop :=
  r.finished = false ∧
    (r.results.length < frames.length → ¬wire (frames.take (r.results.length + 1)) <+: r.sent)

namespace Tells

variable {inflate : Bytes → Option Bytes} {done left : List Frame} {results : List ReadResult}

theorem next {f : Frame} (tells : Tells inflate frames done (f :: fs) results) :
    Tells inflate frames (done ++ [f]) fs (results ++ [f.outcome inflate]) := by
  obtain ⟨split, ends, same, none⟩ := tells
  have zero : ends = 0 := by grind
  subst zero
  refine ⟨by rw [split]; simp, 0, ?_, nofun⟩
  rw [same]
  simp

theorem null (tells : Tells inflate frames done [] results) :
    Tells inflate frames done [] (results ++ [.null]) := by
  obtain ⟨split, ends, same, _⟩ := tells
  refine ⟨split, ends + 1, ?_, fun _ => rfl⟩
  rw [same, append_assoc, replicate_succ']

theorem length (tells : Tells inflate frames done (f :: fs) results) :
    results.length = done.length := by
  obtain ⟨_, ends, same, none⟩ := tells
  grind

theorem small (tells : Tells inflate frames done left results) (small : ∀ f ∈ frames, f.Small) :
    ∀ f ∈ left, f.Small := by
  rw [tells.split, forall_mem_append] at small
  exact small.2

end Tells

theorem wire_append (frames more : List Frame) : wire (frames ++ more) = wire frames ++ wire more :=
  flatMap_append

section

variable {inflate decode : Bytes → Option Bytes} {done left : List Frame} {r : Reading}
  {req : GrpcRequest}

theorem StreamsAt.read (small : ∀ f ∈ frames, f.Small) (cutOff : CutOff cut)
    (tells : Tells inflate frames done left r.results) (sent : r.sent <+: wire frames ++ cut)
    (whole : r.finished = true → r.sent = wire frames ++ cut)
    (stream : StreamsAt (wire left ++ cut) ((wire frames ++ cut).drop r.sent.length) r.finished req) :
    ReadsOn inflate cut frames (r.after (req.streamRead inflate req.bodyQueue)) ∧
      ((req.streamRead inflate req.bodyQueue).2 = none → Starved frames r) := by
  have spec : StreamReads inflate left cut _ req.bodyQueue req :=
    streamRead_spec (tells.small small) cutOff req.bodyQueue req stream.bound stream.unread
  obtain ⟨buf, offset, queue, inside, cases⟩ := spec
  rcases cases with ⟨f, fs, rfl, reads, later⟩ | ⟨reads, later, short⟩
  · rw [reads]
    refine ⟨⟨⟨done ++ [f], fs, tells.next, .streaming ?_⟩, sent, whole⟩, nofun⟩
    exact { stream with bound := inside, unread := later }
  · have stands : StreamsAt (wire left ++ cut) ((wire frames ++ cut).drop r.sent.length) r.finished
        (req.advanced buf offset []) :=
      { stream with bound := inside, unread := later }
    rw [reads, stream.eof, stream.error]
    cases finished : r.finished with
    | true =>
      have none : left = [] := by
        cases left with
        | nil => rfl
        | cons f fs =>
          have total := congrArg length stream.unread
          have less := short f fs rfl
          rw [whole finished, drop_length, append_nil, wire_cons] at total
          simp only [length_append] at total
          omega
      subst none
      refine ⟨⟨⟨done, [], tells.null, .streaming ?_⟩, sent, whole⟩, nofun⟩
      exact stands
    | false =>
      refine ⟨⟨⟨done, left, tells, .streaming stands⟩, sent, whole⟩, fun _ => ⟨finished, ?_⟩⟩
      intro more come
      cases left with
      | nil =>
        obtain ⟨ends, same, _⟩ := tells.results
        have counts := congrArg length same
        have all := congrArg length tells.split
        simp only [length_append, length_map, length_nil] at counts all
        omega
      | cons f fs =>
        have next : frames.take (r.results.length + 1) = done ++ [f] := by
          rw [tells.length, tells.split, take_length_add_append]
          rfl
        have total := congrArg length stream.unread
        have less := short f fs rfl
        have inside := sent.length_le
        have reached := come.length_le
        have all : wire frames = wire done ++ (f.wire ++ wire fs) := by
          rw [← wire_cons, ← wire_append, ← tells.split]
        rw [next, wire_append, wire_cons] at reached
        rw [all, wire_cons] at total
        simp only [length_append, length_drop] at total inside reached
        omega

theorem StreamsAt.compact {rest future : Bytes} {finished : Bool}
    (stream : StreamsAt rest future finished req) : StreamsAt rest future finished req.compact := by
  obtain ⟨streams, plain, eof, error, bound, unread⟩ := stream
  unfold GrpcRequest.unread at unread
  unfold GrpcRequest.compact
  cases buffer : req.reassembly with
  | none => exact ⟨streams, plain, eof, error, bound, unread⟩
  | some buf =>
    rw [buffer, getD_some] at bound unread
    have same : StreamsAt rest future finished req := by
      refine ⟨streams, plain, eof, error, ?_, ?_⟩
      · rw [buffer]
        exact bound
      · rw [GrpcRequest.unread, buffer]
        exact unread
    have remain : (if req.readOffset < buf.length then buf.length - req.readOffset else 0) =
        buf.length - req.readOffset := by
      split <;> omega
    dsimp only
    rw [remain]
    split_ifs with started none large
    · rw [drop_of_length_le (by omega)] at unread
      exact ⟨streams, plain, eof, error, Nat.zero_le _, unread⟩
    · exact ⟨streams, plain, eof, error, Nat.zero_le _, unread⟩
    · exact same
    · exact same

theorem StreamsAt.readMessage {rest future : Bytes} {finished : Bool}
    (stream : StreamsAt rest future finished req) :
    req.readMessage inflate decode = req.compact.streamRead inflate req.compact.bodyQueue := by
  grind [readMessage, StreamsAt.plain, StreamsAt.streams]

theorem readMessage_upgrade (buffer : Option Bytes) :
    let req : GrpcRequest := { upgradable := true, bodyBuf := buffer }
    req.readMessage inflate decode = req.bodyUpgrade.streamRead inflate req.bodyUpgrade.bodyQueue ∧
      StreamsAt (buffer.getD [] ++ future) future false req.bodyUpgrade := by
  cases buffer with
  | none => exact ⟨rfl, rfl, rfl, rfl, rfl, le_rfl, rfl⟩
  | some text =>
    cases text with
    | nil => exact ⟨rfl, rfl, rfl, rfl, rfl, le_rfl, rfl⟩
    | cons b text =>
      refine ⟨rfl, rfl, rfl, rfl, rfl, le_rfl, ?_⟩
      simp [bodyUpgrade, unread]

theorem bufferRead_spec (inflate : Bytes → Option Bytes) (small : ∀ f ∈ left, f.Small)
    (cutOff : CutOff cut) {text : Bytes} (unread : text.drop req.readOffset = wire left ++ cut) :
    (∃ f fs, left = f :: fs ∧ req.bufferRead inflate text =
          ({ req with readOffset := req.readOffset + f.wire.length }, f.outcome inflate) ∧
        text.drop (req.readOffset + f.wire.length) = wire fs ++ cut) ∨
      (left = [] ∧ req.bufferRead inflate text = (req, .null)) := by
  have split : text.drop req.readOffset ++ [] = wire left ++ cut := by rw [append_nil, unread]
  unfold bufferRead
  rcases deframeNext_stream small cutOff split with
    ⟨f, fs, first, found, later, _⟩ | ⟨incomplete, short⟩
  · rw [append_nil] at later
    rw [found]
    exact .inl ⟨f, fs, first, rfl, later⟩
  · rw [incomplete]
    cases left with
    | nil => exact .inr ⟨rfl, rfl⟩
    | cons f fs => grind [wire_cons]

theorem ReadsFrom.readMessage (reads : ReadsFrom text rest req) :
    req.readMessage inflate decode = (req.bufferRead inflate text).map id some := by
  rcases reads.source with ⟨webText, found⟩ | ⟨plain, buffers, complete, found⟩
  · unfold GrpcRequest.readMessage
    rw [if_pos webText, found]
  · have direct : req.readMessage inflate decode = req.body.elim (req, some .null) fun body =>
        (req.bufferRead inflate body).map id some := by
      grind [bodyUpgrade, GrpcRequest.readMessage, Option.elim]
    rw [direct, ← found]
    cases req.body with
    | some body => rfl
    | none => simp [bufferRead, deframeNext]

/-- A call reads the next message from the buffer, or finds its end. -/
theorem ReadsFrom.read (small : ∀ f ∈ frames, f.Small) (cutOff : CutOff cut)
    {told : List ReadResult} (tells : Tells inflate frames done left told)
    (reads : ReadsFrom text (wire left ++ cut) req) (decode : Bytes → Option Bytes) :
    ∃ req' result done' left', req.readMessage inflate decode = (req', some result) ∧
        Tells inflate frames done' left' (told ++ [result]) ∧
        ReadsFrom text (wire left' ++ cut) req' := by
  rw [reads.readMessage]
  rcases bufferRead_spec inflate (tells.small small) cutOff reads.unread with
    ⟨f, fs, rfl, read, later⟩ | ⟨rfl, read⟩
  · rw [read]
    exact ⟨_, _, done ++ [f], fs, rfl, tells.next, reads.source, later⟩
  · rw [read]
    exact ⟨_, _, done, [], rfl, tells.null, reads⟩

section

variable (small : ∀ f ∈ frames, f.Small) (cutOff : CutOff cut)
  (reads : ReadsOn inflate cut frames r)
include small cutOff reads

theorem ReadsOn.call : ReadsOn inflate cut frames (r.call inflate decode) ∧
      ((r.req.readMessage inflate decode).2 = none → Starved frames r) := by
  obtain ⟨⟨done, left, tells, stands⟩, sent, whole⟩ := reads
  unfold Reading.call
  cases stands with
  | streaming stream =>
    rw [stream.readMessage]
    exact stream.compact.read small cutOff tells sent whole
  | buffering req buffer running idle all =>
    obtain ⟨future, rest⟩ := sent
    obtain ⟨upgraded, stream⟩ := readMessage_upgrade r.req.bodyBuf
    rw [← req] at upgraded stream
    have ahead : future = (wire frames ++ cut).drop r.sent.length := by rw [← rest, drop_left]
    rw [upgraded]
    rw [buffer, rest, ← all, ahead, ← running] at stream
    exact stream.read small cutOff tells ⟨future, rest⟩ whole
  | buffered text finished idle reads =>
    obtain ⟨req', result, done', left', read, tells', reads'⟩ := reads.read small cutOff tells decode
    rw [read]
    exact ⟨⟨⟨done', left', tells', .buffered text finished idle reads'⟩, sent, whole⟩, nofun⟩

theorem ReadsOn.resume (suspended : 0 < r.waiting) : ReadsOn inflate cut frames (r.resume inflate) ∧
      ((r.req.resumeRead inflate).2 = none → Starved frames r) := by
  obtain ⟨⟨done, left, tells, stands⟩, sent, whole⟩ := reads
  cases stands with
  | streaming stream =>
    have tells' : Tells inflate frames done left { r with waiting := r.waiting - 1 }.results := tells
    exact StreamsAt.read small cutOff tells' sent whole stream
  | buffering req buffer running idle all => omega
  | buffered text finished idle reads => omega

end

section

variable (reads : ReadsOn inflate cut frames r) (running : r.finished = false)
include reads running

theorem ReadsOn.arrive (fits : r.sent ++ chunk <+: wire frames ++ cut) :
    ReadsOn inflate cut frames (r.arrive chunk) := by
  obtain ⟨⟨done, left, tells, stands⟩, sent, whole⟩ := reads
  refine ⟨⟨done, left, tells, ?_⟩, fits, fun finished => ?_⟩
  · cases stands with
    | streaming stream =>
      obtain ⟨more, ahead⟩ := fits
      have split : (wire frames ++ cut).drop r.sent.length = chunk ++ more := by
        rw [← ahead, append_assoc, drop_left]
      have later : (wire frames ++ cut).drop (r.sent ++ chunk).length = more := by
        rw [← ahead, drop_left]
      have unread := stream.unread
      rw [split] at unread
      have pushed : r.req.dataChunk chunk =
          { r.req with bodyQueue := r.req.bodyQueue ++ [chunk] } := if_pos stream.streams
      apply Stands.streaming
      unfold Reading.arrive
      rw [pushed, later]
      refine { stream with unread := ?_ }
      rw [← unread, GrpcRequest.unread, GrpcRequest.unread]
      simp
    | buffering req buffer running idle all =>
      have pushed : r.req.dataChunk chunk =
          { upgradable := true, bodyBuf := some (r.req.bodyBuf.getD [] ++ chunk) } :=
        congrArg (GrpcRequest.dataChunk chunk) req
      have buffer' : (r.req.dataChunk chunk).bodyBuf.getD [] = r.sent ++ chunk := by
        rw [pushed, ← buffer]
        rfl
      refine .buffering ?_ buffer' running idle all
      rw [Reading.arrive, pushed]
    | buffered text finished idle reads =>
      rw [running] at finished
      cases finished
  · exact absurd (running.symm.trans finished) Bool.false_ne_true

theorem ReadsOn.finish
    (whole : r.sent = wire frames ++ cut) : ReadsOn inflate cut frames r.finish := by
  obtain ⟨⟨done, left, tells, stands⟩, sent, _⟩ := reads
  refine ⟨⟨done, left, tells, ?_⟩, sent, fun _ => whole⟩
  cases stands with
  | streaming stream =>
    have closed : r.req.finalizeBody = { r.req with bodyEof := true, complete := true } :=
      if_pos stream.streams
    apply Stands.streaming
    unfold Reading.finish
    rw [closed]
    exact { stream with eof := rfl }
  | buffering req buffer running idle all =>
    have closed : r.req.finalizeBody =
        { upgradable := true, body := r.req.bodyBuf.or none, complete := true } :=
      congrArg finalizeBody req
    have rest : ((r.req.bodyBuf.or none).getD []).drop 0 = wire left ++ cut := by
      rw [or_none, buffer, whole, all, List.drop_zero]
    rw [Reading.finish, closed]
    exact .buffered _ rfl idle ⟨.inr ⟨rfl, rfl, rfl, rfl⟩, rest⟩
  | buffered text finished idle reads =>
    rw [running] at finished
    cases finished

end

theorem Reachable.readsOn (small : ∀ f ∈ frames, f.Small) (cutOff : CutOff cut)
    {start : GrpcRequest} (streams : Streams start)
    (reachable : Reachable inflate decode (wire frames ++ cut) start r) :
    ReadsOn inflate cut frames r := by
  induction reachable with
  | start =>
    have tells : Tells inflate frames [] frames [] := ⟨rfl, 0, rfl, nofun⟩
    refine ⟨⟨[], frames, tells, ?_⟩, nil_prefix, nofun⟩
    rcases streams with rfl | rfl
    · exact .streaming ⟨rfl, rfl, rfl, rfl, le_rfl, rfl⟩
    · exact .buffering rfl rfl rfl rfl rfl
  | arrive chunk _ running fits ih => exact ih.arrive running fits
  | finish _ running whole ih => exact ih.finish running whole
  | call _ ih => exact (ih.call small cutOff).1
  | resume _ suspended ih => exact (ih.resume small cutOff suspended).1

end

/-! ## Bodies that are there -/

/-- The results of some calls: the messages in order, and then ends of the stream. -/
def expected (inflate : Bytes → Option Bytes) (frames : List Frame) (n : Nat) : List ReadResult :=
  (frames.map (Frame.outcome inflate) ++ replicate n ReadResult.null).take n

section

variable {inflate decode : Bytes → Option Bytes} {done left : List Frame} {r : Reading}
  {req : GrpcRequest} {text rest : Bytes}

theorem Tells.eq_expected {results : List ReadResult} (tells : Tells inflate frames done left results) :
    results = expected inflate frames results.length := by
  obtain ⟨rfl, ends, same, none⟩ := tells
  have length : results.length = done.length + ends := by
    rw [same]
    simp
  rw [expected, length]
  rcases Nat.eq_zero_or_pos ends with rfl | some
  · rw [same, map_append, append_assoc, add_zero, take_left' (by simp)]
    simp
  · rw [none some, append_nil, same, take_append, take_of_length_le (by simp)]
    simp

theorem ReadsFrom.calls (small : ∀ f ∈ frames, f.Small) (cutOff : CutOff cut)
    (decode : Bytes → Option Bytes) (n : Nat) (r : Reading)
    (tells : Tells inflate frames done left r.results)
    (reads : ReadsFrom text (wire left ++ cut) r.req) : ((call inflate decode)^[n] r).results =
      expected inflate frames (r.results.length + n) := by
  induction n generalizing r done left with
  | zero => exact tells.eq_expected
  | succ n ih =>
    obtain ⟨req', result, done', left', read, tells', reads'⟩ := reads.read small cutOff tells decode
    have call : call inflate decode r = r.after (req', some result) := by rw [call, read]
    have count : (r.results ++ [result]).length = r.results.length + 1 := by simp
    rw [Function.iterate_succ_apply, call, add_comm n, ← add_assoc, ← count]
    exact ih _ tells' reads'

/-! ### Base64 -/

theorem padBlocks_block {pads after : Bytes} (fuel : Nat) (clean : padByte ∉ plain)
    (padded : pads ≠ []) (all : ∀ b ∈ pads, b = padByte) (ends : after.head? ≠ some padByte) :
    padBlocks (fuel + 1) (plain ++ (pads ++ after)) = (plain ++ pads) :: padBlocks fuel after := by
  obtain ⟨taken, dropped⟩ : (plain ++ (pads ++ after)).takeWhile (· ≠ padByte) = plain ∧
      (plain ++ (pads ++ after)).dropWhile (· ≠ padByte) = pads ++ after := by
    apply span_eq
    · intro b member
      exact decide_eq_true fun same => clean (same ▸ member)
    · intro b head
      have isPad : b = padByte := by
        obtain ⟨b', pads', rfl⟩ := exists_cons_of_ne_nil padded
        cases head
        exact all b mem_cons_self
      exact decide_eq_false fun differs => differs isPad
  obtain ⟨takenPads, droppedPads⟩ : (pads ++ after).takeWhile (· = padByte) = pads ∧
      (pads ++ after).dropWhile (· = padByte) = after := by
    apply span_eq
    · grind
    · grind
  rw [padBlocks, taken, dropped, takenPads, droppedPads]
  exact if_neg padded

theorem padBlocks_last (fuel : Nat) (clean : padByte ∉ plain) :
    padBlocks (fuel + 1) plain = if plain = [] then [] else [plain] := by
  obtain ⟨taken, dropped⟩ : (plain ++ []).takeWhile (· ≠ padByte) = plain ∧
      (plain ++ []).dropWhile (· ≠ padByte) = [] := by
    grind [span_eq]
  rw [append_nil] at taken dropped
  rw [padBlocks, taken, dropped]
  rfl

theorem flatMap_base64_head (blocks : List Bytes) :
    (blocks.flatMap base64).head? ≠ some padByte := by
  induction blocks with
  | nil => nofun
  | cons block blocks ih =>
    rw [flatMap_cons, head?_append]
    cases first : (base64 block).head? with
    | none => exact ih
    | some b =>
      rw [some_or, ← first]
      exact base64_head block

theorem padBlocks_base64 (blocks : List Bytes) {start : Bytes} (whole : 3 ∣ start.length)
    (enough : (base64 start ++ blocks.flatMap base64).length < fuel) :
    ∃ parts : List Bytes, padBlocks fuel (base64 start ++ blocks.flatMap base64) =
        parts.map base64 ∧ parts.flatten = start ++ blocks.flatten := by
  obtain ⟨fuel, rfl⟩ := Nat.exists_eq_add_one_of_ne_zero (Nat.ne_zero_of_lt enough)
  induction blocks generalizing start fuel with
  | nil =>
    rw [flatMap_nil, append_nil, padBlocks_last fuel (pad_not_mem_base64 whole)]
    split
    · rename_i empty
      refine ⟨[], rfl, ?_⟩
      rw [base64_eq_nil.mp empty]
      rfl
    · exact ⟨[start], rfl, by simp⟩
  | cons block blocks ih =>
    have joined : base64 start ++ (block :: blocks).flatMap base64 =
        base64 (start ++ block) ++ blocks.flatMap base64 := by
      rw [flatMap_cons, base64_append whole, append_assoc]
    rw [joined] at enough ⊢
    by_cases even : 3 ∣ (start ++ block).length
    · obtain ⟨parts, same, flat⟩ := ih even fuel enough
      refine ⟨parts, same, ?_⟩
      rw [flat, flatten_cons, append_assoc]
    · -- The padding ends a piece, and the next one starts afresh.
      obtain ⟨front, pads, split, clean, padded, all⟩ := base64_padded even
      have piece := padBlocks_block fuel clean padded all (flatMap_base64_head blocks)
      rw [split, append_assoc, piece]
      have length := congrArg length split
      have pos := length_pos_iff.mpr padded
      rw [length_append] at enough length
      obtain ⟨less, rfl⟩ := Nat.exists_eq_add_one_of_ne_zero (show fuel ≠ 0 by omega)
      have empty : 3 ∣ ([] : Bytes).length := Nat.dvd_zero 3
      have left : (base64 [] ++ blocks.flatMap base64).length < less + 1 := by
        rw [base64, nil_append]
        omega
      obtain ⟨parts, same, flat⟩ := ih empty less left
      rw [base64, nil_append] at same
      refine ⟨(start ++ block) :: parts, ?_, ?_⟩
      · rw [same, map_cons, split]
      · rw [flatten_cons, flat]
        simp

theorem webTextDecode_base64 (standard : ∀ text, decode (base64 text) = some text)
    (blocks : List Bytes) : webTextDecode decode (blocks.flatMap base64) = some blocks.flatten := by
  have enough : (base64 [] ++ blocks.flatMap base64).length <
      (blocks.flatMap base64).length + 1 := Nat.lt_add_one _
  have empty : 3 ∣ ([] : Bytes).length := Nat.dvd_zero 3
  obtain ⟨parts, same, whole⟩ := padBlocks_base64 blocks empty enough
  rw [base64, nil_append] at same
  have decoded : (parts.map base64).mapM decode = some parts := by
    clear same whole
    induction parts with
    | nil => rfl
    | cons part parts ih => simp [standard, ih]
  rw [webTextDecode, same, decoded, map_some, whole, nil_append]

theorem readMessage_webText {body : Bytes} (decoded : webTextDecode decode body = some text)
    (isText : req.webText = true) (found : req.body = some body) (undecoded : req.textBody = none) :
    req.readMessage inflate decode =
      ({ req with textBody := some text } : GrpcRequest).readMessage inflate decode := by
  unfold readMessage
  rw [if_pos isText, undecoded, found]
  dsimp only
  rw [decoded, if_pos isText]

end

/-- The messages of a request, and then ends of the stream: in any interleaving of chunks and calls,
where a call waits only for a message that has not come; from a body that is there; and from one
that is in base64, as a whole or in pieces. A message that is cut off is no message. -/
theorem read_message_framing (inflate : Bytes → Option Bytes) (small : ∀ f ∈ frames, f.Small)
    (cutOff : CutOff cut) : (∀ decode start r, Streams start →
        Reachable inflate decode (wire frames ++ cut) start r →
          r.results = expected inflate frames r.results.length ∧
          ((r.req.readMessage inflate decode).2 = none → Starved frames r) ∧
          (0 < r.waiting → (r.req.resumeRead inflate).2 = none → Starved frames r)) ∧ (∀ decode n,
        ((call inflate decode)^[n]
            { req := { body := some (wire frames ++ cut), complete := true } }).results =
          expected inflate frames n) ∧ ∀ decode, (∀ text, decode (base64 text) = some text) →
        ∀ blocks : List Bytes, blocks.flatten = wire frames ++ cut → ∀ n, ((call inflate decode)^[n]
              { req := { webText := true, body := some (blocks.flatMap base64),
                         complete := true } }).results = expected inflate frames n := by
  have start : Tells inflate frames [] frames [] := ⟨rfl, 0, rfl, nofun⟩
  refine ⟨fun decode begin r streams reachable => ?_, fun decode n => ?_,
    fun decode standard blocks whole n => ?_⟩
  · have reads := reachable.readsOn small cutOff streams
    obtain ⟨done, left, tells, _⟩ := reads.stands
    exact ⟨tells.eq_expected, (reads.call small cutOff).2,
      fun suspended => (reads.resume small cutOff suspended).2⟩
  · have reads : ReadsFrom (wire frames ++ cut) (wire frames ++ cut)
        { body := some (wire frames ++ cut), complete := true } := ⟨.inr ⟨rfl, rfl, rfl, rfl⟩, rfl⟩
    have calls := ReadsFrom.calls small cutOff decode n { req := _ } start reads
    rwa [length_nil, zero_add] at calls
  · have decoded := webTextDecode_base64 standard blocks
    rw [whole] at decoded
    have reads : ReadsFrom (wire frames ++ cut) (wire frames ++ cut)
        { webText := true, body := some (blocks.flatMap base64), complete := true,
          textBody := some (wire frames ++ cut) } := ⟨.inl ⟨rfl, rfl⟩, rfl⟩
    have calls := ReadsFrom.calls small cutOff decode n { req := _ } start reads
    rw [length_nil, zero_add] at calls
    cases n with
    | zero => rfl
    | succ n =>
      rw [← calls, Function.iterate_succ_apply, Function.iterate_succ_apply, call,
        call, readMessage_webText decoded rfl rfl rfl]
      rfl

/-- Two messages, the second one compressed, and the start of a third, in base64 frame by frame. -/
theorem read_message_framing_web_text : ((call (fun _ => some (ascii "plain")) base64Decode)^[3]
        { req := { webText := true, body := some ([frameMessage (ascii "hi") false,
            frameMessage (ascii "zip") true, [0, 0, 0]].flatMap base64), complete := true } }).results =
      [.message (ascii "hi"), .message (ascii "plain"), .null] := by
  have small : ∀ f ∈ [⟨false, ascii "hi"⟩, ⟨true, ascii "zip"⟩], Frame.Small f := by
    unfold Frame.Small
    decide
  have cutOff : CutOff [0, 0, 0] := ⟨⟨false, [1]⟩, by unfold Frame.Small; decide, by decide, by decide⟩
  have web := (read_message_framing (fun _ => some (ascii "plain")) small cutOff).2.2 base64Decode
    base64Decode_base64
  exact web [frameMessage (ascii "hi") false, frameMessage (ascii "zip") true, [0, 0, 0]] rfl 3

/-- A message that is cut off by the end of the body is not reported as an error. -/
theorem cut_message_ends_stream : (((({ req := { bodyStreaming := true } } : Reading).arrive
        ((frameMessage (ascii "hi") false).take 6)).finish).call (fun _ => none)
          base64Decode).results = [.null] := by
  decide

/-! ## Texts that are not base64 -/

variable {decode : Bytes → Option Bytes}

/-- A concatenation of base64 texts, each with its own padding. -/
def WebText (text : Bytes) : Prop :=
  ∃ segments : List Bytes, text = segments.flatten ∧ ∀ s ∈ segments, (base64Decode s).isSome

theorem webTextDecode_isSome (lenient : ∀ text, (decode text).isSome) (text : Bytes) :
    (webTextDecode decode text).isSome := by
  unfold webTextDecode
  generalize padBlocks _ text = parts
  rw [isSome_map]
  induction parts with
  | nil => rfl
  | cons part parts ih =>
    obtain ⟨first, decoded⟩ := isSome_iff_exists.mp (lenient part)
    obtain ⟨later, rest⟩ := isSome_iff_exists.mp ih
    simp [decoded, rest]

/-- What was encoded in pieces comes back whole. But `b64_decode_append` does not ask for the strict
decoder, and the other one passes over what is no base64, so that no text is ever refused. -/
theorem web_text_iff (standard : ∀ text, decode (base64 text) = some text)
    (lenient : ∀ text, (decode text).isSome) :
    (∀ blocks : List Bytes, webTextDecode decode (blocks.flatMap base64) = some blocks.flatten) ∧
    ∀ text, (¬ WebText text → webTextDecode decode text = none) ↔ WebText text := by
  refine ⟨webTextDecode_base64 standard, fun text => ⟨fun rejects => ?_, fun valid bad => ?_⟩⟩
  · by_contra bad
    have accepted := webTextDecode_isSome lenient text
    rw [rejects bad] at accepted
    cases accepted
  · exact absurd valid bad

/-- A decoder that reads what is base64 and makes nothing of the rest. -/
def looseDecode (text : Bytes) : Option Bytes := some ((base64Decode text).getD [])

theorem looseDecode_base64 (text : Bytes) : looseDecode (base64 text) = some text := by
  rw [looseDecode, base64Decode_base64]
  rfl

theorem web_text_two_frames :
    webTextDecode looseDecode ([[1], [2, 3]].flatMap base64) = some [1, 2, 3] :=
  (web_text_iff looseDecode_base64 fun _ => rfl).1 [[1], [2, 3]]

theorem noise_is_web_text :
    webTextDecode looseDecode (ascii "!") = some [] ∧ ¬ WebText (ascii "!") := by
  refine ⟨by decide, ?_⟩
  rintro ⟨segments, whole, valid⟩
  have noise : 0x21 ∈ segments.flatten := by
    rw [← whole]
    decide
  obtain ⟨s, member, inside⟩ := mem_flatten.mp noise
  have short := (sublist_flatten_of_mem member).length_le
  have accepted := valid s member
  rw [← whole] at short
  rcases s with _ | ⟨_, _ | _⟩
  · cases inside
  · cases accepted
  · cases Nat.le_of_succ_le_succ short

end TrueAsync.Grpc

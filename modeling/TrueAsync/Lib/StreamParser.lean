/-!
# Parsers of message streams

A parser reads a stream of messages byte by byte. Its states are idle, between two messages, or
busy with one. A run over a buffer stops at the end of a message and leaves the rest of the
buffer for another run; `messages` is what the stream holds when it is read in one go. The
lemmas say that stopping and going on with more bytes makes no difference. A message may ask for
another protocol after it; what becomes of that is not the parser's affair.
-/

namespace TrueAsync.Lib

/-- What a byte does: it is skipped between messages, belongs to a message, ends one, which may ask
for an upgrade, or is refused. -/
inductive ByteStep (ι β ρ : Type)
  | skip (state : ι)
  | work (state : β)
  | done (message : ρ) (state : ι) (upgrade : Bool)
  | reject
  deriving DecidableEq, Repr

/-- Where a parser is. -/
inductive Reading (ι β : Type)
  | idle (state : ι)
  | busy (state : β)
  deriving DecidableEq, Repr

/-- A message parser with idle states `ι`, busy states `β` and messages `ρ`. -/
structure StreamParser (ι β ρ : Type) where
  start : ι
  step : Reading ι β → UInt8 → ByteStep ι β ρ

/-- Where a run over a buffer stops: the buffer is used up, and `begun` says whether a message
has started in it; a message is complete; or a byte was refused. -/
inductive Stop (ι β ρ : Type)
  | more (state : Reading ι β) (begun : Bool)
  | message (message : ρ) (state : ι) (upgrade : Bool) (rest : List UInt8)
  | rejected
  deriving DecidableEq, Repr

namespace StreamParser

variable {ι β ρ : Type} (M : StreamParser ι β ρ)

/-- The messages of a stream, read in one go. -/
def messages : Reading ι β → List UInt8 → List ρ
  | _, [] => []
  | s, b :: rest =>
      match M.step s b with
      | .skip i => messages (.idle i) rest
      | .work w => messages (.busy w) rest
      | .done m i _ => m :: messages (.idle i) rest
      | .reject => []

/-- A run over a buffer, up to the end of a message; `begun` says whether one has started. -/
def run : Reading ι β → Bool → List UInt8 → Stop ι β ρ
  | s, begun, [] => .more s begun
  | s, begun, b :: rest =>
      match M.step s b with
      | .skip i => run (.idle i) begun rest
      | .work w => run (.busy w) (begun || s matches .idle _) rest
      | .done m i upgrade => .message m i upgrade rest
      | .reject => .rejected

/-- The messages of a stream from where a run over its start stopped. -/
def after : Stop ι β ρ → List UInt8 → List ρ
  | .more s _, tail => M.messages s tail
  | .message m i _ rest, tail => m :: M.messages (.idle i) (rest ++ tail)
  | .rejected, _ => []

end StreamParser

end TrueAsync.Lib

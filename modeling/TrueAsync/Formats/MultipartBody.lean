import TrueAsync.Formats.MultipartTicks
import TrueAsync.Lib.Match

/-!
# Multipart bodies

What a body says, read as a whole: an optional preamble, the first boundary, and parts of header
lines, a blank line and data up to the next line that begins with the boundary. Lines end in CR LF
or in LF alone. The parser tells the same of a body (`readAll_decode`).
-/

namespace TrueAsync.Formats

open TrueAsync.Lib

/-- A line break at the start of a text, and what follows it. -/
def lineBreak : Bytes → Option (Bytes × Bytes)
  | 0x0d :: 0x0a :: rest => some ([0x0d, 0x0a], rest)
  | 0x0a :: rest => some ([0x0a], rest)
  | _ => none

def delimiter (boundary : Bytes) : Bytes := 0x2d :: 0x2d :: boundary

def closes : Bytes → Bool
  | 0x2d :: 0x2d :: _ => true
  | _ => false

abbrev Header := Bytes × Bytes

/-- A piece of a part's data: a byte, or bytes that might have been a boundary. -/
inductive Segment
  | byte (b : UInt8)
  | held (text : Bytes)
  deriving DecidableEq, Repr

def Segment.text : Segment → Bytes
  | .byte b => [b]
  | .held text => text

/-- A part. -/
structure Part where
  headers : List Header
  data : List Segment
  deriving DecidableEq, Repr

/-- How the header lines of a part end: with a blank line, or within a line, of which a name and a
value have been read. A line is `broken` when it ends before its colon. -/
inductive HeadersEnd
  | blank (rest : Bytes)
  | within (name value : Bytes) (broken : Bool)
  deriving DecidableEq, Repr

/-- What a body has after its complete parts. -/
inductive Last
  | nothing
  | closed
  | head (headers : List Header) (name value : Bytes) (broken : Bool)
  | body (headers : List Header) (data : List Segment)
  deriving DecidableEq, Repr

/-- A body. -/
structure Body where
  parts : List Part
  last : Last
  deriving DecidableEq, Repr

/-- What follows the first boundary. Where the text differs from it, the search goes on after the
byte that does. -/
def afterPreamble (boundary : Bytes) : Nat → Bytes → Option Bytes
  | 0, _ => none
  | fuel + 1, text =>
      match matchPattern (delimiter boundary) text with
      | .found rest => some rest
      | .more => none
      | .differs _ _ rest => afterPreamble boundary fuel rest

def readHeaders : Nat → Bytes → List Header × HeadersEnd
  | 0, _ => ([], .within [] [] false)
  | fuel + 1, text =>
      match lineBreak text with
      | some (_, rest) => ([], .blank rest)
      | none =>
          match text with
          | [] | 0x0d :: _ => ([], .within [] [] false)
          | c :: rest =>
              let name := rest.takeWhile fun b => b ≠ 0x3a ∧ b ≠ 0x0d ∧ b ≠ 0x0a
              match rest.dropWhile fun b => b ≠ 0x3a ∧ b ≠ 0x0d ∧ b ≠ 0x0a with
              | [] => ([], .within (c :: name) [] false)
              | 0x3a :: rest =>
                  let line := rest.dropWhile isOws
                  let value := line.takeWhile fun b => b ≠ 0x0d ∧ b ≠ 0x0a
                  match lineBreak (line.dropWhile fun b => b ≠ 0x0d ∧ b ≠ 0x0a) with
                  | some (_, rest) =>
                      let (headers, ends) := readHeaders fuel rest
                      ((c :: name, value) :: headers, ends)
                  | none => ([], .within (c :: name) value false)
              | _ :: _ => ([], .within (c :: name) [] true)

def readData (boundary : Bytes) : Nat → Bytes → List Segment × Option Bytes
  | 0, _ => ([], none)
  | fuel + 1, text =>
      match lineBreak text with
      | some (eol, rest) =>
          match matchPattern (delimiter boundary) rest with
          | .found rest => ([], some rest)
          | .more => ([], none)
          | .differs matched c rest =>
              let (data, after) := readData boundary fuel (c :: rest)
              (.held (eol ++ matched) :: data, after)
      | none =>
          match text with
          | [] | [0x0d] => ([], none)
          | c :: rest =>
              let (data, after) := readData boundary fuel rest
              ((if c = 0x0d then .held [c] else .byte c) :: data, after)

def readParts (boundary : Bytes) : Nat → Bytes → Body
  | 0, _ => ⟨[], .nothing⟩
  | fuel + 1, text =>
      match readHeaders (text.length + 1) text with
      | (headers, .within name value broken) => ⟨[], .head headers name value broken⟩
      | (headers, .blank rest) =>
          match readData boundary (rest.length + 1) rest with
          | (data, none) => ⟨[], .body headers data⟩
          | (data, some rest) =>
              match lineBreak rest with
              | some (_, rest) =>
                  let body := readParts boundary fuel rest
                  ⟨⟨headers, data⟩ :: body.parts, body.last⟩
              | none =>
                  if rest.head? = some 0x0d then ⟨[⟨headers, data⟩], .nothing⟩
                  else if closes rest then ⟨[⟨headers, data⟩], .closed⟩
                  else ⟨[], .body headers data⟩

def decode (boundary text : Bytes) : Body :=
  match afterPreamble boundary (text.length + 1) text with
  | none => ⟨[], .nothing⟩
  | some rest =>
      match lineBreak rest with
      | some (_, rest) => readParts boundary (rest.length + 1) rest
      | none => ⟨[], if closes rest then .closed else .nothing⟩

/-! ## What there is to tell of a body -/

def Segment.tick : Segment → Tick
  | .byte b => .byte .partData b
  | .held text => .held text

def headerTicks (header : Header) : List Tick :=
  header.1.map (.byte .headerField) ++ header.2.map (.byte .headerValue)

def openTicks (headers : List Header) (data : List Segment) : List Tick :=
  .signal .partBegin :: headers.flatMap headerTicks ++
    .signal .headersComplete :: data.map Segment.tick

def Part.ticks (part : Part) : List Tick := openTicks part.headers part.data ++ [.signal .partEnd]

def Last.ticks : Last → List Tick
  | .nothing => []
  | .closed => [.signal .bodyEnd]
  | .head headers name value _ =>
      .signal .partBegin :: headers.flatMap headerTicks ++ headerTicks (name, value)
  | .body headers data => openTicks headers data

def Body.ticks (body : Body) : List Tick := body.parts.flatMap Part.ticks ++ body.last.ticks

def Body.broken (body : Body) : Bool :=
  match body.last with
  | .head _ _ _ broken => broken
  | _ => false

end TrueAsync.Formats

import Mathlib.Data.List.Basic
import Mathlib.Algebra.Ring.Nat
import Mathlib.Tactic.SplitIfs
import TrueAsync.Lib.Utf8

/-!
# The framing library

The event API of the vendored wslay (`deps/wslay/lib/wslay_event.c`) as a session uses it: messages
are buffered, the receive side is a loop over what `wslay_frame_recv` hands out, and the send side
drains two queues through a send callback that takes every byte or fails. Allocation succeeds. What
a message callback does to the session is left to the session.
-/

namespace TrueAsync.Wslay

open TrueAsync.Lib List

/-! ## UTF-8 -/

/-- `UTF8_ACCEPT`. -/
def utf8Accept : Nat := 0

/-- `UTF8_REJECT`. -/
def utf8Reject : Nat := 12

/-- The table of the UTF-8 automaton: the class of every byte, then a row of twelve for each
state. -/
def utf8d : List Nat :=
  [0, 0, 0, 0, 0, 0, 0, 0, 0, 0, 0, 0, 0, 0, 0, 0, 0, 0, 0, 0, 0, 0, 0, 0, 0, 0, 0, 0, 0, 0, 0, 0,
    0, 0, 0, 0, 0, 0, 0, 0, 0, 0, 0, 0, 0, 0, 0, 0, 0, 0, 0, 0, 0, 0, 0, 0, 0, 0, 0, 0, 0, 0, 0, 0,
    0, 0, 0, 0, 0, 0, 0, 0, 0, 0, 0, 0, 0, 0, 0, 0, 0, 0, 0, 0, 0, 0, 0, 0, 0, 0, 0, 0, 0, 0, 0, 0,
    0, 0, 0, 0, 0, 0, 0, 0, 0, 0, 0, 0, 0, 0, 0, 0, 0, 0, 0, 0, 0, 0, 0, 0, 0, 0, 0, 0, 0, 0, 0, 0,
    1, 1, 1, 1, 1, 1, 1, 1, 1, 1, 1, 1, 1, 1, 1, 1, 9, 9, 9, 9, 9, 9, 9, 9, 9, 9, 9, 9, 9, 9, 9, 9,
    7, 7, 7, 7, 7, 7, 7, 7, 7, 7, 7, 7, 7, 7, 7, 7, 7, 7, 7, 7, 7, 7, 7, 7, 7, 7, 7, 7, 7, 7, 7, 7,
    8, 8, 2, 2, 2, 2, 2, 2, 2, 2, 2, 2, 2, 2, 2, 2, 2, 2, 2, 2, 2, 2, 2, 2, 2, 2, 2, 2, 2, 2, 2, 2,
    10, 3, 3, 3, 3, 3, 3, 3, 3, 3, 3, 3, 3, 4, 3, 3, 11, 6, 6, 6, 5, 8, 8, 8, 8, 8, 8, 8, 8, 8, 8, 8,
    0, 12, 24, 36, 60, 96, 84, 12, 12, 12, 48, 72, 12, 12, 12, 12, 12, 12, 12, 12, 12, 12, 12, 12,
    12, 0, 12, 12, 12, 12, 12, 0, 12, 0, 12, 12, 12, 24, 12, 12, 12, 12, 12, 24, 12, 24, 12, 12,
    12, 12, 12, 12, 12, 12, 12, 24, 12, 12, 12, 12, 12, 24, 12, 12, 12, 12, 12, 12, 12, 24, 12, 12,
    12, 12, 12, 12, 12, 12, 12, 36, 12, 36, 12, 12, 12, 36, 12, 12, 12, 12, 12, 36, 12, 36, 12, 12,
    12, 36, 12, 12, 12, 12, 12, 12, 12, 12, 12, 12]

/-- `decode`, without the code point that nobody reads. -/
def decode (state : Nat) (byte : UInt8) : Nat :=
  utf8d.getD (256 + state + utf8d.getD byte.toNat 0) utf8Reject

/-- What must still come before a character is complete, then any number of characters. -/
def After : List (UInt8 → Prop) → Bytes → Prop
  | [], text => WellFormed text
  | _ :: _, [] => False
  | p :: ps, b :: text => p b ∧ After ps text

/-- What each state of the automaton waits for. -/
inductive Needs : Nat → List (UInt8 → Prop) → Prop
  | accept : Needs 0 []
  | tail : Needs 24 [IsTail]
  | tails : Needs 36 [IsTail, IsTail]
  | e0 : Needs 48 [Leads3 0xe0, IsTail]
  | ed : Needs 60 [Leads3 0xed, IsTail]
  | f0 : Needs 72 [Leads4 0xf0, IsTail, IsTail]
  | f1 : Needs 84 [Leads4 0xf1, IsTail, IsTail]
  | f4 : Needs 96 [Leads4 0xf4, IsTail, IsTail]

def byteClass (b : UInt8) : Nat :=
  if b ≤ 0x7f then 0 else if b ≤ 0x8f then 1 else if b ≤ 0x9f then 9 else if b ≤ 0xbf then 7 else
  if b ≤ 0xc1 then 8 else if b ≤ 0xdf then 2 else if b = 0xe0 then 10 else if b = 0xed then 4 else
  if b ≤ 0xef then 3 else if b = 0xf0 then 11 else if b ≤ 0xf3 then 6 else if b = 0xf4 then 5 else 8

theorem byteClass_lt : ∀ b, byteClass b < 12 := byte_forall (by decide +kernel)

-- One comparison of lists is checked much faster than 256 walks along the table.
theorem utf8d_eq : utf8d = (range 256).map (fun n => byteClass (UInt8.ofNat n)) ++
    utf8d.drop 256 := by
  decide +kernel

variable (b : UInt8)

theorem utf8d_class : utf8d.getD b.toNat 0 = byteClass b := by
  have within : b.toNat < ((range 256).map (fun n => byteClass (UInt8.ofNat n))).length := by
    rw [length_map, length_range]
    exact b.toNat_lt
  rw [utf8d_eq, getD_eq_getElem?_getD, getElem?_append_left within, getElem?_map,
    getElem?_range b.toNat_lt]
  simp

/-- The states within a character: the classes each goes on with, and where to. -/
def transitions : List (Nat × List Nat × Nat) :=
  [(24, [1, 7, 9], 0), (36, [1, 7, 9], 24), (48, [7], 24), (60, [1, 9], 24), (72, [7, 9], 36),
    (84, [1, 7, 9], 36), (96, [1], 36), (12, [], 12)]

theorem utf8d_transitions : ∀ row ∈ transitions, ∀ c < 12,
    utf8d.getD (256 + row.1 + c) 12 = if c ∈ row.2.1 then row.2.2 else 12 := by
  decide +kernel

theorem decode_of_class {next : Nat} [DecidablePred P] (row : (state, C, next) ∈ transitions)
    (bytes : ∀ b, byteClass b ∈ C ↔ P b) (b : UInt8) :
    decode state b = if P b then next else 12 := by
  rw [decode, utf8d_class, utf8Reject, utf8d_transitions _ row _ (byteClass_lt b)]
  simp only [bytes]

theorem byteClass_later : ∀ b, (byteClass b ∈ [1, 7, 9] ↔ IsTail b) ∧
    (byteClass b ∈ [7] ↔ Leads3 0xe0 b) ∧ (byteClass b ∈ [1, 9] ↔ Leads3 0xed b) ∧
    (byteClass b ∈ [7, 9] ↔ Leads4 0xf0 b) ∧ (byteClass b ∈ [1, 7, 9] ↔ Leads4 0xf1 b) ∧
    (byteClass b ∈ [1] ↔ Leads4 0xf4 b) :=
  byte_forall (by decide +kernel)

theorem decode_tail : ∀ b : UInt8, decode 24 b = if IsTail b then 0 else 12 :=
  decode_of_class (by simp [transitions]) fun b => (byteClass_later b).1

theorem decode_tails : ∀ b : UInt8, decode 36 b = if IsTail b then 24 else 12 :=
  decode_of_class (by simp [transitions]) fun b => (byteClass_later b).1

theorem decode_e0 : ∀ b : UInt8, decode 48 b = if Leads3 0xe0 b then 24 else 12 :=
  decode_of_class (by simp [transitions]) fun b => (byteClass_later b).2.1

theorem decode_ed : ∀ b : UInt8, decode 60 b = if Leads3 0xed b then 24 else 12 :=
  decode_of_class (by simp [transitions]) fun b => (byteClass_later b).2.2.1

theorem decode_f0 : ∀ b : UInt8, decode 72 b = if Leads4 0xf0 b then 36 else 12 :=
  decode_of_class (by simp [transitions]) fun b => (byteClass_later b).2.2.2.1

theorem decode_f1 : ∀ b : UInt8, decode 84 b = if Leads4 0xf1 b then 36 else 12 :=
  decode_of_class (by simp [transitions]) fun b => (byteClass_later b).2.2.2.2.1

theorem decode_f4 : ∀ b : UInt8, decode 96 b = if Leads4 0xf4 b then 36 else 12 :=
  decode_of_class (by simp [transitions]) fun b => (byteClass_later b).2.2.2.2.2

theorem decode_reject : decode 12 b = 12 := by
  have row : (12, ([] : List Nat), 12) ∈ transitions := by simp [transitions]
  simpa using decode_of_class (P := fun _ => False) row (by simp) b

theorem decode_accept : decode 0 b = if b ≤ 0x7f then 0 else if 0xc2 ≤ b ∧ b ≤ 0xdf then 24 else
      if b = 0xe0 then 48 else if b = 0xed then 60 else if 0xe1 ≤ b ∧ b ≤ 0xef then 36 else
      if b = 0xf0 then 72 else if 0xf1 ≤ b ∧ b ≤ 0xf3 then 84 else if b = 0xf4 then 96 else 12 := by
  revert b
  exact byte_forall (by decide +kernel)

theorem foldl_reject (text : Bytes) : text.foldl decode 12 = 12 := foldl_fixed' decode_reject text

theorem wellFormed_cons (text : Bytes) : WellFormed (b :: text) ↔ (b ≤ 0x7f ∧ WellFormed text) ∨
      ((0xc2 ≤ b ∧ b ≤ 0xdf) ∧ After [IsTail] text) ∨ After [Leads3 b, IsTail] text ∨
      After [Leads4 b, IsTail, IsTail] text := by
  constructor
  · intro wellFormed
    cases wellFormed with
    | one low rest => exact .inl ⟨low, rest⟩
    | two from_ upTo tail rest => exact .inr (.inl ⟨⟨from_, upTo⟩, tail, rest⟩)
    | three leads tail rest => exact .inr (.inr (.inl ⟨leads, tail, rest⟩))
    | four leads tail tail' rest => exact .inr (.inr (.inr ⟨leads, tail, tail', rest⟩))
  · rintro (⟨low, rest⟩ | ⟨range, after⟩ | after | after)
    · exact .one low rest
    · match text, after with
      | _ :: _, ⟨tail, rest⟩ => exact .two range.1 range.2 tail rest
    · match text, after with
      | _ :: _ :: _, ⟨leads, tail, rest⟩ => exact .three leads tail rest
    · match text, after with
      | _ :: _ :: _ :: _, ⟨leads, tail, tail', rest⟩ => exact .four leads tail tail' rest

variable {a : UInt8}

theorem not_leads3 (outside : a < 0xe0 ∨ 0xef < a) (b : UInt8) : ¬ Leads3 a b := by
  unfold Leads3
  simp only [UInt8.lt_iff_toNat_lt, UInt8.le_iff_toNat_le, ← UInt8.toNat_inj,
    UInt8.reduceToNat] at outside ⊢
  omega

theorem not_leads4 (outside : a < 0xf0 ∨ 0xf4 < a) (b : UInt8) : ¬ Leads4 a b := by
  unfold Leads4
  simp only [UInt8.lt_iff_toNat_lt, UInt8.le_iff_toNat_le, ← UInt8.toNat_inj,
    UInt8.reduceToNat] at outside ⊢
  omega

theorem leads3_tail (range : 0xe1 ≤ a ∧ a ≤ 0xef) (notEd : a ≠ 0xed) (b : UInt8) :
    Leads3 a b ↔ IsTail b := by
  unfold Leads3
  simp only [UInt8.le_iff_toNat_le, ← UInt8.toNat_inj, ne_eq, UInt8.reduceToNat] at range notEd ⊢
  constructor
  · rintro (⟨_, _⟩ | ⟨_, _, tail⟩ | ⟨_, _⟩ | ⟨_, _, tail⟩) <;> first | exact tail | omega
  · intro tail
    by_cases low : a.toNat ≤ 236
    · exact .inr (.inl ⟨range.1, low, tail⟩)
    · exact .inr (.inr (.inr ⟨by omega, range.2, tail⟩))

theorem leads4_tail (range : 0xf1 ≤ a ∧ a ≤ 0xf3) (b : UInt8) : Leads4 a b ↔ Leads4 0xf1 b := by
  unfold Leads4
  simp only [UInt8.le_iff_toNat_le, ← UInt8.toNat_inj, UInt8.reduceToNat] at range ⊢
  constructor
  · rintro (⟨_, _⟩ | ⟨_, _, tail⟩ | ⟨_, _⟩) <;> first | exact .inr (.inl ⟨by omega, by omega, tail⟩) | omega
  · rintro (⟨_, _⟩ | ⟨_, _, tail⟩ | ⟨_, _⟩) <;> first | exact .inr (.inl ⟨range.1, range.2, tail⟩) | omega

variable {p : UInt8 → Prop}

theorem not_after (never : ∀ b, ¬ p b) (ps : List (UInt8 → Prop)) (text : Bytes) :
    ¬ After (p :: ps) text := by
  cases text with
  | nil => exact id
  | cons b text => exact fun after => never b after.1

theorem after_congr (same : ∀ b, p b ↔ q b) (ps : List (UInt8 → Prop))
    (text : Bytes) : After (p :: ps) text ↔ After (q :: ps) text := by
  cases text with
  | nil => rfl
  | cons b text => exact and_congr (same b) Iff.rfl

theorem wellFormed_first (text : Bytes) :
    WellFormed (b :: text) ↔ if b ≤ 0x7f then After [] text else
      if 0xc2 ≤ b ∧ b ≤ 0xdf then After [IsTail] text else
      if b = 0xe0 then After [Leads3 0xe0, IsTail] text else
      if b = 0xed then After [Leads3 0xed, IsTail] text else
      if 0xe1 ≤ b ∧ b ≤ 0xef then After [IsTail, IsTail] text else
      if b = 0xf0 then After [Leads4 0xf0, IsTail, IsTail] text else
      if 0xf1 ≤ b ∧ b ≤ 0xf3 then After [Leads4 0xf1, IsTail, IsTail] text else
      if b = 0xf4 then After [Leads4 0xf4, IsTail, IsTail] text else False := by
  rw [wellFormed_cons]
  -- Outside of its range a leading byte allows nothing.
  have no3 (outside : b < 0xe0 ∨ 0xef < b) : ¬ After [Leads3 b, IsTail] text :=
    not_after (not_leads3 outside) _ _
  have no4 (outside : b < 0xf0 ∨ 0xf4 < b) : ¬ After [Leads4 b, IsTail, IsTail] text :=
    not_after (not_leads4 outside) _ _
  simp only [UInt8.lt_iff_toNat_lt, UInt8.reduceToNat] at no3 no4
  simp only [UInt8.le_iff_toNat_le, ← UInt8.toNat_inj, UInt8.reduceToNat]
  split_ifs with low two e0 ed three f0 f1 f4
  · have neither := And.intro (no3 (by omega)) (no4 (by omega))
    simp [low, neither, After]
    omega
  · have neither := And.intro (no3 (by omega)) (no4 (by omega))
    simp [low, two, neither]
  · obtain rfl : b = 0xe0 := UInt8.toNat_inj.mp e0
    have never := no4 (by decide)
    simp [never]
  · obtain rfl : b = 0xed := UInt8.toNat_inj.mp ed
    have never := no4 (by decide)
    simp [never]
  · have never := no4 (by omega)
    rw [after_congr (leads3_tail (by simpa [UInt8.le_iff_toNat_le] using three)
      (by simpa [← UInt8.toNat_inj] using ed))]
    simp [low, two, never]
  · obtain rfl : b = 0xf0 := UInt8.toNat_inj.mp f0
    have never := no3 (by decide)
    simp [never]
  · have never := no3 (by omega)
    rw [after_congr (leads4_tail (by simpa [UInt8.le_iff_toNat_le] using f1))]
    simp [low, two, never]
  · obtain rfl : b = 0xf4 := UInt8.toNat_inj.mp f4
    have never := no3 (by decide)
    simp [never]
  · have neither := And.intro (no3 (by omega)) (no4 (by omega))
    simp [low, two, neither]

theorem decode_needs (needs : Needs state ps)
    (text : Bytes) : text.foldl decode state = 0 ↔ After ps text := by
  induction text generalizing state ps with
  | nil => cases needs <;> simp [After, WellFormed.nil]
  | cons b text ih =>
    -- A byte that a state does not wait for is rejected for good.
    have steps {p : UInt8 → Prop} [DecidablePred p] {next : Nat} {ps : List (UInt8 → Prop)}
        (needs : Needs next ps) :
        text.foldl decode (if p b then next else 12) = 0 ↔ p b ∧ After ps text := by
      by_cases fits : p b
      · rw [if_pos fits, ih needs]
        simp [fits]
      · rw [if_neg fits, foldl_reject]
        simp [fits]
    rw [foldl_cons]
    cases needs with
    | tail => rw [decode_tail]; exact steps .accept
    | tails => rw [decode_tails]; exact steps .tail
    | e0 => rw [decode_e0]; exact steps .tail
    | ed => rw [decode_ed]; exact steps .tail
    | f0 => rw [decode_f0]; exact steps .tails
    | f1 => rw [decode_f1]; exact steps .tails
    | f4 => rw [decode_f4]; exact steps .tails
    | accept =>
      rw [decode_accept, show After [] (b :: text) = WellFormed (b :: text) from rfl,
        wellFormed_first]
      split_ifs
      · exact ih .accept
      · exact ih .tail
      · exact ih .e0
      · exact ih .ed
      · exact ih .tails
      · exact ih .f0
      · exact ih .f1
      · exact ih .f4
      · simp [foldl_reject]

/-- `wslay_event_recv` validates text exactly. -/
theorem decode_accepts (text : Bytes) :
    text.foldl decode utf8Accept = utf8Accept ↔ WellFormed text :=
  decode_needs .accept text

instance (text : Bytes) : Decidable (WellFormed text) := decidable_of_iff _ (decode_accepts text)

/-! ## Frames and messages -/

/-- `enum wslay_opcode`; the other codes are reserved. -/
inductive Opcode where
  | continuationFrame
  | textFrame
  | binaryFrame
  | connectionClose
  | ping
  | pong
  | reserved (code : UInt8)
deriving DecidableEq, Repr

/-- `wslay_is_ctrl_frame`: bit 3 of the code. -/
def Opcode.isCtrlFrame : Opcode → Bool
  | .connectionClose | .ping | .pong => true
  | .reserved code => code >>> 3 &&& 1 == 1
  | .continuationFrame | .textFrame | .binaryFrame => false

def Opcode.code : Opcode → UInt8
  | .continuationFrame => 0
  | .textFrame => 1
  | .binaryFrame => 2
  | .connectionClose => 8
  | .ping => 9
  | .pong => 10
  | .reserved code => code

/-- The reserved bits of a frame. -/
structure Rsv where
  rsv1 : Bool := false
  rsv2 : Bool := false
  rsv3 : Bool := false
deriving DecidableEq, Repr

/-- `WSLAY_RSV_NONE`. -/
def rsvNone : Rsv := {}

/-- `WSLAY_RSV1_BIT`. -/
def rsv1Bit : Rsv := { rsv1 := true }

/-- `struct wslay_frame_iocb` as `wslay_frame_recv` fills it: the header of the frame that is being
received and the next piece of its unmasked payload. -/
structure Iocb where
  fin : Bool
  rsv : Rsv := {}
  opcode : Opcode
  mask : Bool
  payloadLength : Nat
  data : Bytes
deriving DecidableEq, Repr

/-- One result of `wslay_frame_recv`: a piece of a frame, or a frame that breaks the protocol. That
it wants more bytes is the end of the list of results. -/
inductive FrameRecv where
  | iocb (iocb : Iocb)
  | errProto
deriving DecidableEq, Repr

/-- `struct wslay_event_imsg`; no opcode is `0xff`, and the chunks are one text. -/
structure Imsg where
  fin : Bool := false
  rsv : Rsv := {}
  opcode : Option Opcode := none
  utf8state : Nat := utf8Accept
  chunks : Bytes := []
  msgLength : Nat := 0
deriving DecidableEq, Repr

/-- `struct wslay_event_omsg`: a message of one frame, or one that `ws_frag_read_callback` hands out
in pieces of at most `frag` bytes. -/
structure Omsg where
  opcode : Opcode
  rsv : Rsv := {}
  data : Bytes
  frag : Option Nat := none
deriving DecidableEq, Repr

/-- A frame that `wslay_frame_send` writes. -/
structure Frame where
  fin : Bool
  rsv : Rsv
  opcode : Opcode
  payload : Bytes
deriving DecidableEq, Repr

/-- The low `8 * width` bits of a number, most significant byte first. -/
def bigEndian : Nat → Nat → Bytes
  | 0, _ => []
  | width + 1, n => UInt8.ofNat (n / 256 ^ width) :: bigEndian width n

def lengthBytes (n : Nat) : Bytes :=
  if n < 126 then [UInt8.ofNat n] else if n < 2 ^ 16 then 126 :: bigEndian 2 n else
    127 :: bigEndian 8 n

/-- `wslay_frame_send` of a server, which does not mask: the header, then the payload. -/
def Frame.bytes (frame : Frame) : Bytes :=
  (frame.opcode.code ||| (if frame.fin then 0x80 else 0) ||| (if frame.rsv.rsv1 then 0x40 else 0) |||
      (if frame.rsv.rsv2 then 0x20 else 0) ||| (if frame.rsv.rsv3 then 0x10 else 0)) ::
    (lengthBytes frame.payload.length ++ frame.payload)

def continuation (rsv : Rsv) (size : Nat) : Nat → Bytes → List Frame
  | 0, _ => []
  | fuel + 1, data =>
    ⟨data.length ≤ size, { rsv with rsv1 := false }, .continuationFrame, data.take size⟩ ::
      if data.length ≤ size then [] else continuation rsv size fuel (data.drop size)

/-- The frames that `wslay_event_send` makes of a message: `ws_frag_read_callback` fills a buffer of
`sizeof obuf` bytes at most. -/
def Omsg.frames (msg : Omsg) : List Frame :=
  match msg.frag with
  | none => [⟨true, msg.rsv, msg.opcode, msg.data⟩]
  | some maxFrameSize =>
    let size := min 4096 maxFrameSize
    ⟨msg.data.length ≤ size, msg.rsv, msg.opcode, msg.data.take size⟩ ::
      if msg.data.length ≤ size then [] else
        continuation msg.rsv size msg.data.length (msg.data.drop size)

/-! ## The event context -/

/-- The error codes that a session can meet. -/
inductive Err where
  | noMoreMsg
  | invalidArgument
  | callbackFailure
deriving DecidableEq, Repr

/-- `struct wslay_event_context`. `onCtrl` says that `imsg` points at `imsgs[1]`; `queued` is the
history of what was ever put into a queue. -/
structure Ctx where
  server : Bool
  maxRecvMsgLength : Nat
  allowedRsv1 : Bool := false
  closeReceived : Bool := false
  closeQueued : Bool := false
  closeSent : Bool := false
  statusCodeSent : Nat := 1006
  readEnabled : Bool := true
  writeEnabled : Bool := true
  imsg0 : Imsg := {}
  imsg1 : Imsg := {}
  onCtrl : Bool := false
  ipayloadlen : Nat := 0
  ipayloadoff : Nat := 0
  omsg : Option Omsg := none
  sendQueue : List Omsg := []
  sendCtrlQueue : List Omsg := []
  queuedMsgLength : Nat := 0
  queued : List Omsg := []
deriving DecidableEq, Repr

namespace Ctx

/-- `ctx->imsg`. -/
def imsg (ctx : Ctx) : Imsg := if ctx.onCtrl then ctx.imsg1 else ctx.imsg0

/-- A write through `ctx->imsg`. -/
def setImsg (ctx : Ctx) (imsg : Imsg) : Ctx :=
  if ctx.onCtrl then { ctx with imsg1 := imsg } else { ctx with imsg0 := imsg }

/-- `wslay_event_verify_rsv_bits`. -/
def verifyRsvBits (ctx : Ctx) (rsv : Rsv) : Bool :=
  (!rsv.rsv1 || ctx.allowedRsv1) && !rsv.rsv2 && !rsv.rsv3

/-- `wslay_event_is_msg_queueable`. -/
def isMsgQueueable (ctx : Ctx) : Bool := ctx.writeEnabled && !ctx.closeQueued

/-- `wslay_queue_push` into the queue where a message belongs. -/
def push (ctx : Ctx) (omsg : Omsg) : Ctx :=
  let ctx := { ctx with queued := ctx.queued ++ [omsg] }
  if omsg.opcode.isCtrlFrame then { ctx with sendCtrlQueue := ctx.sendCtrlQueue ++ [omsg] }
  else { ctx with sendQueue := ctx.sendQueue ++ [omsg] }

/-- `wslay_event_queue_msg_ex`. -/
def queueMsgEx (ctx : Ctx) (opcode : Opcode) (msg : Bytes) (rsv : Rsv) : Except Err Ctx :=
  if !ctx.isMsgQueueable then .error .noMoreMsg
  else if (opcode.isCtrlFrame && (125 < msg.length || rsv.rsv1)) || !ctx.verifyRsvBits rsv then
    .error .invalidArgument
  else
    .ok ({ ctx with queuedMsgLength := ctx.queuedMsgLength + msg.length }.push
      { opcode, rsv, data := msg })

/-- `wslay_event_queue_msg`. -/
def queueMsg (ctx : Ctx) (opcode : Opcode) (msg : Bytes) : Except Err Ctx :=
  ctx.queueMsgEx opcode msg rsvNone

/-- `wslay_event_queue_fragmented_msg_ex`; the length of what is queued is not counted. -/
def queueFragmentedMsgEx (ctx : Ctx) (opcode : Opcode) (source : Bytes) (maxFrameSize : Nat)
    (rsv : Rsv) : Except Err Ctx :=
  if !ctx.isMsgQueueable then .error .noMoreMsg
  else if opcode.isCtrlFrame || !ctx.verifyRsvBits rsv then .error .invalidArgument
  else .ok (ctx.push { opcode, rsv, data := source, frag := some maxFrameSize })

def closePayload (statusCode : Nat) (reason : Bytes) : Bytes :=
  if statusCode = 0 then [] else bigEndian 2 statusCode ++ reason

/-- `wslay_event_queue_close`. -/
def queueClose (ctx : Ctx) (statusCode : Nat) (reason : Bytes) : Except Err Ctx :=
  if !ctx.isMsgQueueable then .error .noMoreMsg
  else if 123 < reason.length then .error .invalidArgument
  else
    match ctx.queueMsg .connectionClose (closePayload statusCode reason) with
    | .ok ctx => .ok { ctx with closeQueued := true }
    | .error e => .error e

/-- `wslay_event_queue_close_wrapper`: reading ends; a CLOSE that is already on its way is no
error. -/
def queueCloseWrapper (ctx : Ctx) (statusCode : Nat) (reason : Bytes) : Ctx × Option Err :=
  let ctx := { ctx with readEnabled := false }
  match ctx.queueClose statusCode reason with
  | .ok ctx => (ctx, none)
  | .error .noMoreMsg => (ctx, none)
  | .error e => (ctx, some e)

/-! ### Receiving -/

/-- `struct wslay_event_on_msg_recv_arg`. -/
structure OnMsgRecvArg where
  rsv : Rsv
  opcode : Opcode
  msg : Bytes
  statusCode : Nat
deriving DecidableEq, Repr

/-- How one iteration of the loop of `wslay_event_recv` ends: the next one follows, the loop is left
with a result, or the message callback is called. -/
inductive Recv where
  | more (ctx : Ctx)
  | stop (ctx : Ctx) (rc : Option Err)
  | message (ctx : Ctx) (arg : OnMsgRecvArg)
deriving DecidableEq, Repr

def fail (ctx : Ctx) (statusCode : Nat) : Recv :=
  .stop (ctx.queueCloseWrapper statusCode []).1 (ctx.queueCloseWrapper statusCode []).2

def newFrame (ctx : Ctx) (payloadLength : Nat) : Except Nat Ctx :=
  if ctx.maxRecvMsgLength < ctx.imsg.msgLength + payloadLength then .error 1009
  else
    .ok ({ ctx with ipayloadlen := payloadLength }.setImsg
      { ctx.imsg with msgLength := ctx.imsg.msgLength + payloadLength })

/-- `wslay_event_imsg_set`. -/
def imsgSet (imsg : Imsg) (iocb : Iocb) : Imsg :=
  { imsg with fin := iocb.fin, rsv := iocb.rsv, opcode := some iocb.opcode, msgLength := 0 }

/-- Where a piece belongs: it opens a message, goes on with one, opens a control message within one,
or belongs to the frame that is being received. An error is the status of the CLOSE. -/
def accept (ctx : Ctx) (iocb : Iocb) : Except Nat Ctx :=
  match ctx.imsg.opcode with
  | none =>
    match iocb.opcode with
    | .textFrame | .binaryFrame | .connectionClose | .ping | .pong =>
      (ctx.setImsg (imsgSet ctx.imsg iocb)).newFrame iocb.payloadLength
    | .continuationFrame | .reserved _ => .error 1002
  | some _ =>
    if ctx.ipayloadlen = 0 ∧ ctx.ipayloadoff = 0 then
      match iocb.opcode with
      | .continuationFrame =>
        (ctx.setImsg { ctx.imsg with fin := iocb.fin }).newFrame iocb.payloadLength
      | .connectionClose | .ping | .pong =>
        { ctx with onCtrl := true, imsg1 := imsgSet ctx.imsg1 iocb }.newFrame iocb.payloadLength
      | .textFrame | .binaryFrame | .reserved _ => .error 1002
    else .ok ctx

/-- `wslay_event_is_valid_status_code`. -/
def isValidStatusCode (statusCode : Nat) : Bool :=
  (1000 ≤ statusCode && statusCode ≤ 1011 && statusCode != 1004 && statusCode != 1005 &&
    statusCode != 1006) || (3000 ≤ statusCode && statusCode ≤ 4999)

def closeStatus : Bytes → Nat
  | high :: low :: _ => high.toNat * 256 + low.toNat
  | _ => 0

/-- A message is complete: a CLOSE is answered, a PING gets its PONG, and the callback follows. -/
def complete (ctx : Ctx) (opcode : Opcode) : Recv :=
  let msg := ctx.imsg.chunks
  let arg : OnMsgRecvArg := { rsv := ctx.imsg.rsv, opcode, msg, statusCode := 0 }
  match opcode with
  | .connectionClose =>
    let statusCode := closeStatus msg
    if 2 ≤ msg.length ∧ !isValidStatusCode statusCode then ctx.fail 1002
    else
      match { ctx with closeReceived := true }.queueCloseWrapper statusCode (msg.drop 2) with
      | (ctx, none) => .message ctx { arg with statusCode }
      | (ctx, some e) => .stop ctx (some e)
  | .ping =>
    match ctx.queueMsg .pong msg with
    | .ok ctx => .message ctx arg
    | .error .noMoreMsg => .message ctx arg
    | .error e => .stop { ctx with readEnabled := false } (some e)
  | _ => .message ctx arg

/-- The UTF-8 automaton after a piece of a message: text is checked as it comes, unless it is
compressed; in every piece of a CLOSE the first two bytes are left out. -/
def utf8Next (imsg : Imsg) (opcode : Opcode) (data : Bytes) : Nat :=
  if opcode = .connectionClose then (data.drop 2).foldl decode imsg.utf8state
  else if opcode = .textFrame ∧ !imsg.rsv.rsv1 then data.foldl decode imsg.utf8state
  else imsg.utf8state

def takeData (ctx : Ctx) (state : Nat) (data : Bytes) : Ctx :=
  { ctx with ipayloadoff := ctx.ipayloadoff + data.length }.setImsg
    { ctx.imsg with utf8state := state, chunks := ctx.imsg.chunks ++ data }

def recvPayload (ctx : Ctx) (data : Bytes) (opcode : Opcode) : Recv :=
  let state := utf8Next ctx.imsg opcode data
  if state = utf8Reject then (ctx.setImsg { ctx.imsg with utf8state := state }).fail 1007
  else
    let ctx := ctx.takeData state data
    if ctx.ipayloadoff = ctx.ipayloadlen then
      if !ctx.imsg.fin then .more { ctx with ipayloadlen := 0, ipayloadoff := 0 }
      else if (opcode = .textFrame ∨ opcode = .connectionClose) ∧ state ≠ utf8Accept then
        ctx.fail 1007
      else ctx.complete opcode
    else .more ctx

/-- One iteration of the loop of `wslay_event_recv`. -/
def recvFrame (ctx : Ctx) : FrameRecv → Recv
  | .errProto =>
    .stop (ctx.queueCloseWrapper 0 []).1
      (some ((ctx.queueCloseWrapper 0 []).2.getD .callbackFailure))
  | .iocb iocb =>
    if !ctx.verifyRsvBits iocb.rsv ||
        (iocb.rsv.rsv1 && (iocb.opcode.isCtrlFrame || iocb.opcode == .continuationFrame)) ||
        (ctx.server && !iocb.mask) || (!ctx.server && iocb.mask) then ctx.fail 1002
    else
      match ctx.accept iocb with
      | .error statusCode => ctx.fail statusCode
      | .ok ctx =>
        match ctx.imsg.opcode with
        | some opcode => ctx.recvPayload iocb.data opcode
        | none => .more ctx

/-- `wslay_event_imsg_reset` and back to `imsgs[0]`, after the message callback. -/
def endMessage (ctx : Ctx) : Ctx :=
  { ctx.setImsg { ctx.imsg with opcode := none, utf8state := utf8Accept, chunks := [] } with
    onCtrl := false, ipayloadlen := 0, ipayloadoff := 0 }

/-- `wslay_event_want_read`. -/
def wantRead (ctx : Ctx) : Bool := ctx.readEnabled

/-! ### Sending -/

/-- `wslay_event_want_write`. -/
def wantWrite (ctx : Ctx) : Bool :=
  ctx.writeEnabled && (!ctx.sendQueue.isEmpty || !ctx.sendCtrlQueue.isEmpty || ctx.omsg.isSome)

/-- `wslay_event_send_ctrl_queue_pop`: with a CLOSE in the queue the other control messages are
dropped. -/
def sendCtrlQueuePop (ctx : Ctx) : Option Omsg × Ctx :=
  let queue := if ctx.closeQueued then
    ctx.sendCtrlQueue.dropWhile (·.opcode ≠ .connectionClose) else ctx.sendCtrlQueue
  (queue.head?, { ctx with sendCtrlQueue := queue.tail })

/-- The next message of the loop of `wslay_event_send`; control messages go first. -/
def popMsg (ctx : Ctx) : Option Omsg × Ctx :=
  match ctx.sendCtrlQueue with
  | [] => (ctx.sendQueue.head?, { ctx with sendQueue := ctx.sendQueue.tail })
  | _ :: _ => ctx.sendCtrlQueuePop

/-- The context after the last byte of a message has gone: after a CLOSE nothing more is written. -/
def sent (ctx : Ctx) (msg : Omsg) : Ctx :=
  let ctx := match msg.frag with
    | none => { ctx with queuedMsgLength := ctx.queuedMsgLength - msg.data.length }
    | some _ => ctx
  if msg.opcode = .connectionClose then
    { ctx with
      writeEnabled := false, closeSent := true
      statusCodeSent := if closeStatus msg.data = 0 then 1005 else closeStatus msg.data }
  else ctx

/-- `wslay_event_send` with a send callback that takes every byte, or always fails. No message is
left half sent by the former, so `omsg` is only found by a context that has stopped writing. -/
def eventSendLoop (refuses : Bool) : Nat → Ctx → Ctx × List Frame × Option Err
  | 0, ctx => (ctx, [], none)
  | fuel + 1, ctx =>
    if !ctx.wantWrite then (ctx, [], none)
    else
      match ctx.popMsg with
      | (none, ctx) => (ctx, [], none)
      | (some msg, ctx) =>
        if refuses then
          ({ ctx with omsg := some msg, writeEnabled := false }, [], some .callbackFailure)
        else
          match eventSendLoop refuses fuel (ctx.sent msg) with
          | (ctx, frames, rc) => (ctx, msg.frames ++ frames, rc)

/-- `wslay_event_send`: every iteration takes one message from a queue. -/
def eventSend (refuses : Bool) (ctx : Ctx) : Ctx × List Frame × Option Err :=
  eventSendLoop refuses (ctx.sendCtrlQueue.length + ctx.sendQueue.length) ctx

end Ctx

end TrueAsync.Wslay

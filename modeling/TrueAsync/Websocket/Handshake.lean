import TrueAsync.Http1.HeadGrammar
import TrueAsync.Lib.Base64
import TrueAsync.Lib.Numeral

/-!
# The accept response

`ws_handshake_build_101_response` (`src/websocket/ws_handshake.c`) with the subprotocol that
`WebSocketUpgrade::setSubprotocol` (`src/websocket/php_websocket.c`) has stored. The builder leaves
the check of the name to the setter, and the setter refuses the empty name only. What
`ws_commit_upgrade` hands over is a C string.
-/

namespace TrueAsync.Ws

open TrueAsync.Lib TrueAsync.Http1 List

/-! ## The upgrade object -/

/-- `websocket_upgrade_object`. -/
structure Upgrade where
  committed : Bool := false
  rejectStatus : Nat := 0
  rejectReason : Option Bytes := none
  subprotocol : Option Bytes := none
deriving DecidableEq, Repr

/-- What the methods throw: "upgrade already committed", "must be a 4xx or 5xx HTTP status code" and
"must not be empty". -/
inductive UpgradeError where
  | alreadyCommitted
  | badStatus
  | emptyName
deriving DecidableEq, Repr

namespace Upgrade

/-- `WebSocketUpgrade::reject`. -/
def reject (u : Upgrade) (status : Int) (reason : Option Bytes) : Except UpgradeError Upgrade :=
  if u.committed then .error .alreadyCommitted
  else if status < 400 ∨ 599 < status then .error .badStatus
  else .ok { u with rejectStatus := status.toNat, rejectReason := reason.filter (· ≠ []) }

/-- `WebSocketUpgrade::setSubprotocol`. -/
def setSubprotocol (u : Upgrade) (name : Bytes) : Except UpgradeError Upgrade :=
  if u.committed then .error .alreadyCommitted
  else if name = [] then .error .emptyName
  else .ok { u with subprotocol := some name }

end Upgrade

/-! ## The response -/

def subprotocolLine : Option Bytes → Bytes
  | none => []
  | some name =>
      if cString name = [] then []
      else ascii "Sec-WebSocket-Protocol: " ++ cString name ++ ascii "\r\n"

def deflateAnswer (deflateBits : Nat) : Bytes :=
  ascii "permessage-deflate; server_no_context_takeover; client_no_context_takeover" ++
    if deflateBits < 15 then ascii "; server_max_window_bits=" ++ numeral 10 deflateBits else []

/-- The line of the extension; without it the window size is zero. -/
def extensionsLine (deflateBits : Nat) : Bytes :=
  if deflateBits = 0 then []
  else ascii "Sec-WebSocket-Extensions: " ++ deflateAnswer deflateBits ++ ascii "\r\n"

/-- `ws_handshake_build_101_response`. -/
def build101Response (accept : Bytes) (subprotocol : Option Bytes) (deflateBits : Nat) : Bytes :=
  ascii "HTTP/1.1 101 Switching Protocols\r\n" ++ ascii "Upgrade: websocket\r\n" ++
    ascii "Connection: Upgrade\r\n" ++ ascii "Sec-WebSocket-Accept: " ++ accept ++ ascii "\r\n" ++
    subprotocolLine subprotocol ++ extensionsLine deflateBits ++ ascii "\r\n"

def mandatory101 (accept : Bytes) : List (Bytes × Bytes) :=
  [(ascii "Upgrade", ascii "websocket"), (ascii "Connection", ascii "Upgrade"),
    (ascii "Sec-WebSocket-Accept", accept)]

def extensions101 (deflateBits : Nat) : List (Bytes × Bytes) :=
  if deflateBits = 0 then [] else [(ascii "Sec-WebSocket-Extensions", deflateAnswer deflateBits)]

/-- A recipient reads one 101 status line, the mandatory fields, at most one subprotocol, which is the
selected one, the extension if there is one, and nothing else. -/
def Reads101 (bareLf : Bool) (accept name : Bytes) (deflateBits : Nat) (response : Bytes) : Prop :=
  ∃ protocol, (protocol = [] ∨ protocol = [(ascii "Sec-WebSocket-Protocol", name)]) ∧
    parseHead bareLf response = some {
      status := ⟨ascii "HTTP/1.1", ascii "101", ascii "Switching Protocols"⟩
      fields := mandatory101 accept ++ (protocol ++ extensions101 deflateBits)
      rest := [] }

/-! ## Fields -/

theorem isFieldValue_base64 (text : Bytes) : IsFieldValue (base64 text) := by
  have visible : ∀ n : Fin 64, isText (sextetByte n) ∧ isOws (sextetByte n) = false := by decide
  refine isFieldValue_of_visible (fun b member => ?_)
  rcases mem_base64 member with rfl | ⟨n, small, rfl⟩
  · decide
  · exact visible ⟨n, small⟩

theorem mandatory101_valid (digest : Bytes) :
    ∀ field ∈ mandatory101 (base64 digest), IsToken field.1 ∧ IsFieldValue field.2 := by
  simp only [mandatory101, forall_mem_cons]
  exact ⟨by decide, by decide, ⟨by decide, isFieldValue_base64 digest⟩, nofun⟩

variable (deflateBits : Nat)

theorem deflateAnswer_valid : IsFieldValue (deflateAnswer deflateBits) := by
  have below : ∀ bits : Fin 15, IsFieldValue (deflateAnswer bits) := by decide +kernel
  by_cases small : deflateBits < 15
  · exact below ⟨deflateBits, small⟩
  · rw [deflateAnswer, if_neg small, append_nil]
    decide

theorem extensions101_valid :
    ∀ field ∈ extensions101 deflateBits, IsToken field.1 ∧ IsFieldValue field.2 := by
  unfold extensions101
  split
  · nofun
  · simp only [forall_mem_cons]
    exact ⟨⟨by decide, deflateAnswer_valid deflateBits⟩, nofun⟩

theorem protocol_token : IsToken (ascii "Sec-WebSocket-Protocol") := by decide

theorem ascii_crlf : ascii "\r\n" = [0x0d, 0x0a] := by decide

variable {name : Bytes}

theorem subprotocolLine_some (shown : cString name ≠ []) :
    subprotocolLine (some name) = headerLines [(ascii "Sec-WebSocket-Protocol", cString name)] := by
  have start : ascii "Sec-WebSocket-Protocol: " =
      ascii "Sec-WebSocket-Protocol" ++ [0x3a, 0x20] := by decide
  simp [subprotocolLine, shown, headerLines, start, ascii_crlf]

theorem extensionsLine_eq :
    extensionsLine deflateBits = headerLines (extensions101 deflateBits) := by
  have start : ascii "Sec-WebSocket-Extensions: " =
      ascii "Sec-WebSocket-Extensions" ++ [0x3a, 0x20] := by decide
  unfold extensionsLine extensions101
  split
  · rfl
  · simp [headerLines, start, ascii_crlf]

theorem build101Response_eq (accept : Bytes) (subprotocol : Option Bytes) (deflateBits : Nat) :
    build101Response accept subprotocol deflateBits =
      ascii "HTTP/1.1 101 Switching Protocols" ++ 0x0d :: 0x0a :: (headerLines (mandatory101 accept) ++
        (subprotocolLine subprotocol ++
          (headerLines (extensions101 deflateBits) ++ [0x0d, 0x0a]))) := by
  have status : ascii "HTTP/1.1 101 Switching Protocols\r\n" =
      ascii "HTTP/1.1 101 Switching Protocols" ++ [0x0d, 0x0a] := by decide
  have upgrade : ascii "Upgrade: websocket\r\n" =
      ascii "Upgrade" ++ 0x3a :: 0x20 :: ascii "websocket" ++ [0x0d, 0x0a] := by decide
  have connection : ascii "Connection: Upgrade\r\n" =
      ascii "Connection" ++ 0x3a :: 0x20 :: ascii "Upgrade" ++ [0x0d, 0x0a] := by decide
  have start : ascii "Sec-WebSocket-Accept: " =
      ascii "Sec-WebSocket-Accept" ++ [0x3a, 0x20] := by decide
  rw [build101Response, extensionsLine_eq, status, upgrade, connection, start, ascii_crlf]
  simp [headerLines, mandatory101]

variable (bareLf : Bool)

theorem parseHead_101 (digest : Bytes) (subprotocol : Option Bytes) (deflateBits : Nat) :
    ∃ fuel, (subprotocolLine subprotocol ++ headerLines (extensions101 deflateBits)).length < fuel ∧
      parseHead bareLf (build101Response (base64 digest) subprotocol deflateBits) =
        (parseFields bareLf fuel (subprotocolLine subprotocol ++
          (headerLines (extensions101 deflateBits) ++ [0x0d, 0x0a]))).map fun later => {
            status := ⟨ascii "HTTP/1.1", ascii "101", ascii "Switching Protocols"⟩
            fields := mandatory101 (base64 digest) ++ later.1
            rest := later.2 } := by
  have status : parseStatusLine (ascii "HTTP/1.1 101 Switching Protocols") =
      some ⟨ascii "HTTP/1.1", ascii "101", ascii "Switching Protocols"⟩ := by decide
  have noLf : 0x0a ∉ ascii "HTTP/1.1 101 Switching Protocols" := by decide
  have lines := length_le_headerLines (mandatory101 (base64 digest))
  generalize tail : subprotocolLine subprotocol ++
    (headerLines (extensions101 deflateBits) ++ [0x0d, 0x0a]) = later
  obtain ⟨fuel, enough⟩ : ∃ fuel, (headerLines (mandatory101 (base64 digest)) ++ later).length =
      (mandatory101 (base64 digest)).length + fuel := by
    refine Nat.exists_eq_add_of_le ?_
    rw [length_append]
    omega
  refine ⟨fuel, ?_, ?_⟩
  · grind
  · rw [build101Response_eq, tail, parseHead, headLine_append bareLf noLf]
    dsimp only
    rw [status, enough, parseFields_headerLines bareLf (mandatory101_valid digest)]
    cases parseFields bareLf fuel later <;> rfl

theorem reads101_hidden (digest : Bytes) (deflateBits : Nat)
    (hidden : cString name = []) : Reads101 bareLf (base64 digest) name deflateBits
      (build101Response (base64 digest) (some name) deflateBits) := by
  have absent : subprotocolLine (some name) = [] := if_pos hidden
  obtain ⟨fuel, enough, parsed⟩ := parseHead_101 bareLf digest (some name) deflateBits
  rw [absent, nil_append] at enough parsed
  rw [parseFields_block bareLf (extensions101_valid deflateBits) [] enough] at parsed
  exact ⟨[], .inl rfl, parsed⟩

theorem reads101_valid (digest : Bytes) (deflateBits : Nat) (shown : cString name ≠ [])
    (valid : IsFieldValue name) : Reads101 bareLf (base64 digest) name deflateBits
      (build101Response (base64 digest) (some name) deflateBits) := by
  have whole : cString name = name := by
    refine takeWhile_eq_self_iff.mpr (fun b member => ?_)
    have text := valid.2 b member
    by_contra nul
    simp only [ne_eq, decide_not, Bool.not_eq_eq_eq_not, Bool.not_true, decide_eq_false_iff_not,
      Decidable.not_not] at nul
    subst nul
    cases text
  have line := subprotocolLine_some shown
  obtain ⟨fuel, enough, parsed⟩ := parseHead_101 bareLf digest (some name) deflateBits
  have joined : headerLines [(ascii "Sec-WebSocket-Protocol", name)] ++
      headerLines (extensions101 deflateBits) =
        headerLines ((ascii "Sec-WebSocket-Protocol", name) :: extensions101 deflateBits) := by
    simp [headerLines]
  rw [whole] at line
  rw [line, joined] at enough
  rw [line, ← append_assoc, joined, parseFields_block bareLf ?_ [] enough] at parsed
  · exact ⟨_, .inr rfl, parsed⟩
  · rw [forall_mem_cons]
    exact ⟨⟨protocol_token, valid⟩, extensions101_valid deflateBits⟩

theorem isFieldValue_of_reads101 {bareLf : Bool} {deflateBits : Nat}
    (shown : cString name ≠ []) (reads : Reads101 bareLf (base64 digest) name deflateBits
      (build101Response (base64 digest) (some name) deflateBits)) : IsFieldValue name := by
  obtain ⟨protocol, rfl | rfl, parsed⟩ := reads
  · -- The field is written, so it cannot be missing.
    obtain ⟨fuel, _, split⟩ := parseHead_101 bareLf digest (some name) deflateBits
    rw [parsed, subprotocolLine_some shown] at split
    obtain ⟨later, tail, same⟩ := Option.map_eq_some_iff.mp split.symm
    obtain ⟨value, more, fields⟩ := parseFields_starts protocol_token tail
    have ext := congrArg ParsedHead.fields same
    rw [nil_append, append_cancel_left_eq, fields] at ext
    unfold extensions101 at ext
    split at ext
    · cases ext
    · have other : ascii "Sec-WebSocket-Protocol" ≠ ascii "Sec-WebSocket-Extensions" := by decide
      exact absurd (Prod.mk.inj (cons.inj ext).1).1 other
  · have valid := (parseHead_valid parsed).2 (ascii "Sec-WebSocket-Protocol", name) (by simp)
    exact valid.2

/-- The response is read back as it was meant exactly for those names that are field values, and for
those that start with NUL, which are not sent. -/
theorem response_101_reads_back_iff (bareLf : Bool) (digest name : Bytes) (deflateBits : Nat)
    (u u' : Upgrade) (accepted : u.setSubprotocol name = .ok u') :
    Reads101 bareLf (base64 digest) name deflateBits
        (build101Response (base64 digest) u'.subprotocol deflateBits) ↔
      name.head? = some 0 ∨ IsFieldValue name := by
  obtain ⟨filled, rfl⟩ : name ≠ [] ∧ { u with subprotocol := some name } = u' := by
    unfold Upgrade.setSubprotocol at accepted
    split_ifs at accepted with _ empty
    exact ⟨empty, Except.ok.inj accepted⟩
  have hidden : cString name = [] ↔ name.head? = some 0 := by
    cases name with
    | nil => exact absurd rfl filled
    | cons b rest => by_cases nul : b = 0 <;> simp [cString, nul]
  rw [← hidden]
  by_cases shown : cString name = []
  · exact iff_of_true (reads101_hidden bareLf digest deflateBits shown) (.inl shown)
  · refine ⟨fun reads => .inr (isFieldValue_of_reads101 shown reads), ?_⟩
    rintro (none | valid)
    · exact absurd none shown
    · exact reads101_valid bareLf digest deflateBits shown valid

/-- The name `chat` of a fresh upgrade. -/
theorem response_101_chat : Reads101 false (base64 (replicate 20 0)) (ascii "chat") 12
      (build101Response (base64 (replicate 20 0)) (some (ascii "chat")) 12) :=
  (response_101_reads_back_iff false (replicate 20 0) (ascii "chat") 12 {}
    { subprotocol := some (ascii "chat") } rfl).mpr (.inr (by decide))

/-- A name with a line end in it is taken, and adds a field of its own. -/
theorem subprotocol_injects_field : let name := ascii "chat\r\nSet-Cookie: id=1"
    let response := build101Response (base64 (replicate 20 0)) (some name) 0
    ({} : Upgrade).setSubprotocol name = .ok { subprotocol := some name } ∧
      parseHead false response = some {
        status := ⟨ascii "HTTP/1.1", ascii "101", ascii "Switching Protocols"⟩
        fields := mandatory101 (base64 (replicate 20 0)) ++
          [(ascii "Sec-WebSocket-Protocol", ascii "chat"), (ascii "Set-Cookie", ascii "id=1")]
        rest := [] } ∧
      ¬ Reads101 false (base64 (replicate 20 0)) name 0 response := by
  refine ⟨rfl, by decide +kernel, ?_⟩
  rintro ⟨protocol, rfl | rfl, parsed⟩
  all_goals exact absurd parsed (by decide +kernel)

end TrueAsync.Ws

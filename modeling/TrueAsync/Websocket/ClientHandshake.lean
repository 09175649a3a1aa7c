import TrueAsync.Websocket.Handshake

/-!
# The handshake request

The two builders of a client's upgrade request: `ws_client_handshake_build_request_ex`
(`src/websocket/ws_client.c`) and `wsclient_build_request` (`src/wsclient/wsclient_connection.c`).
They write the same bytes; they differ in what they refuse. Both test a character of a name with
`strchr`, which finds the NUL at the end of its list.
-/

namespace TrueAsync.Ws

open TrueAsync.Lib TrueAsync.Http1 List Option

/-! ## Checks -/

/-- `ws_client_contains_crlf`, and `wsclient_contains_crlf`. -/
def containsCrlf (value : Bytes) : Bool := value.contains 0x0d || value.contains 0x0a

/-- `ws_client_header_value_is_safe`. -/
def headerValueIsSafe (value : Bytes) : Bool :=
  value.all fun c => !((c < 0x20 && c != 0x09) || c == 0x7f)

/-- `strchr` finds a character in a list, or its end. -/
def strchr (chars : Bytes) (c : UInt8) : Bool := chars.contains c || c == 0

def clientTokenChar (c : UInt8) : Bool :=
  (0x30 ≤ c && c ≤ 0x39) || (0x41 ≤ c && c ≤ 0x5a) || (0x61 ≤ c && c ≤ 0x7a) ||
    strchr (ascii "!#$%&'*+-.^_`|~") c

/-- `ws_client_is_token`, and `wsclient_token`. -/
def clientIsToken (value : Bytes) : Bool := value != [] && value.all clientTokenChar

/-- `ws_client_is_reserved_header`, and `wsclient_reserved_header`. -/
def isReservedHeader (name : Bytes) : Bool :=
  [ascii "Host", ascii "Connection", ascii "Upgrade", ascii "Sec-WebSocket-Key",
    ascii "Sec-WebSocket-Version", ascii "Sec-WebSocket-Protocol"].any (lower name == lower ·)

/-! ## Builders -/

/-- The value of an entry of the user's headers: a string, an array of which some may not be strings,
or something else. -/
inductive HeaderZval where
  | string (value : Bytes)
  | array (items : List (Option Bytes))
  | other
deriving DecidableEq, Repr

abbrev HeaderMap := List (Option Bytes × HeaderZval)

def entryFields : Option Bytes × HeaderZval → List (Bytes × Bytes)
  | (some name, .string value) => [(name, value)]
  | (some name, .array items) => items.filterMap (·.map (name, ·))
  | _ => []

def userFields (headers : HeaderMap) : List (Bytes × Bytes) := headers.flatMap entryFields

def requestLine (name value : Bytes) : Bytes := name ++ ascii ": " ++ value ++ ascii "\r\n"

/-- `ws_client_append_header`. -/
def appendHeader (name value : Bytes) : Option Bytes :=
  if !clientIsToken name || isReservedHeader name || !headerValueIsSafe value then none
  else some (requestLine name value)

def appendItems (name : Bytes) : List (Option Bytes) → Option Bytes
  | [] => some []
  | none :: _ => none
  | some value :: items => do
    let line ← appendHeader name value
    let lines ← appendItems name items
    return line ++ lines

def appendEntry : Option Bytes × HeaderZval → Option Bytes
  | (some name, .string value) => appendHeader name value
  | (some name, .array items) => appendItems name items
  | _ => none

/-- The loop over the user's headers of `ws_client_handshake_build_request_ex`. -/
def appendHeadersEx : HeaderMap → Option Bytes
  | [] => some []
  | entry :: headers => do
    let lines ← appendEntry entry
    let later ← appendHeadersEx headers
    return lines ++ later

/-- `wsclient_append_headers`. -/
def wsclientAppendHeaders : HeaderMap → Option Bytes
  | [] => some []
  | (none, _) :: _ => none
  | (some name, .string value) :: headers =>
    if !clientIsToken name || isReservedHeader name || containsCrlf value then none
    else do
      let later ← wsclientAppendHeaders headers
      return requestLine name value ++ later
  | (some _, _) :: _ => none

def joinProtocols : List Bytes → Bytes
  | [] => []
  | [protocol] => protocol
  | protocol :: protocols => protocol ++ (ascii ", " ++ joinProtocols protocols)

/-- The line of the subprotocols, all of which have to be tokens. -/
def protocolsLine (protocols : List Bytes) : Option Bytes :=
  if protocols = [] then some []
  else if protocols.all clientIsToken then
    some (ascii "Sec-WebSocket-Protocol: " ++ joinProtocols protocols ++ ascii "\r\n")
  else none

def requestHead (host target key protocols headers : Bytes) : Bytes :=
  ascii "GET " ++ target ++ ascii " HTTP/1.1\r\nHost: " ++ host ++
    ascii "\r\nUpgrade: websocket\r\nConnection: Upgrade\r\nSec-WebSocket-Key: " ++ key ++
    ascii "\r\nSec-WebSocket-Version: 13\r\n" ++ protocols ++ headers ++ ascii "\r\n"

/-- `ws_client_handshake_t`. -/
structure ClientHandshake where
  host : Bytes
  target : Bytes
  key : Bytes
deriving DecidableEq, Repr

/-- `ws_client_handshake_init`; the value it expects back is left out. -/
def handshakeInit (host target key : Bytes) : Option ClientHandshake :=
  if host = [] ∨ target.head? ≠ some 0x2f ∨ containsCrlf host ∨ containsCrlf target ∨
      containsCrlf key ∨ key.length ≠ 24 then none
  else some { host, target, key }

/-- `ws_client_handshake_build_request_ex`. -/
def handshakeBuildRequestEx (h : ClientHandshake) (headers : HeaderMap) (subprotocols : List Bytes) :
    Option Bytes :=
  if containsCrlf h.host || containsCrlf h.target || containsCrlf h.key then none
  else do
    let protocols ← protocolsLine subprotocols
    let lines ← appendHeadersEx headers
    return requestHead h.host h.target h.key protocols lines

/-- `wsclient_build_request`; a subprotocol may be something else than a string. -/
def wsclientBuildRequest (authority target key : Bytes) (headers : HeaderMap)
    (protocols : List (Option Bytes)) : Option Bytes :=
  if containsCrlf authority || containsCrlf target || target.head? ≠ some 0x2f then none
  else do
    let protocols ← protocolsLine (← protocols.mapM id)
    let lines ← wsclientAppendHeaders headers
    return requestHead authority target key protocols lines

/-! ## What is asked for -/

def mandatoryFields (host key : Bytes) : List (Bytes × Bytes) :=
  [(ascii "Host", host), (ascii "Upgrade", ascii "websocket"), (ascii "Connection", ascii "Upgrade"),
    (ascii "Sec-WebSocket-Key", key), (ascii "Sec-WebSocket-Version", ascii "13")]

def protocolFields (protocols : List Bytes) : List (Bytes × Bytes) :=
  if protocols = [] then [] else [(ascii "Sec-WebSocket-Protocol", joinProtocols protocols)]

/-- A recipient reads a GET request line with the target, the fields of the handshake, the user's
fields, and nothing else; each mandatory field is there once. -/
def InjectionFree (bareLf : Bool) (host target key : Bytes) (protocols : List Bytes)
    (fields : List (Bytes × Bytes)) (request : Bytes) : Prop :=
  parseRequest bareLf request = some {
      method := ascii "GET", target, version := ascii "HTTP/1.1"
      fields := mandatoryFields host key ++ (protocolFields protocols ++ fields), rest := [] } ∧
    (∀ field ∈ fields, IsToken field.1 ∧ ∀ b ∈ field.2, isText b) ∧
    ∀ name ∈ (mandatoryFields host key).map Prod.fst,
      ((mandatoryFields host key ++ (protocolFields protocols ++ fields)).map
        (lower ∘ Prod.fst)).count (lower name) = 1

/-- The condition: a target in origin form, a host and values that are field values, and names that
are tokens. -/
structure CleanRequest (host target : Bytes) (protocols : List Bytes)
    (fields : List (Bytes × Bytes)) : Prop where
  target : IsOriginForm target
  host : IsFieldValue host
  protocols : ∀ protocol ∈ protocols, IsToken protocol
  fields : ∀ field ∈ fields, IsToken field.1 ∧ IsFieldValue field.2

def Admitted (field : Bytes × Bytes) : Prop :=
  clientIsToken field.1 = true ∧ isReservedHeader field.1 = false

/-! ## What the builders write -/

theorem requestLine_eq (name value : Bytes) : requestLine name value = headerLines [(name, value)] := by
  grind [ascii, requestLine, headerLines]

theorem headerLines_append (fields more : List (Bytes × Bytes)) :
    headerLines (fields ++ more) = headerLines fields ++ headerLines more :=
  flatMap_append

/-- The lines are those of the fields, and each field is admitted. -/
def WritesFields (lines : Bytes) (fields : List (Bytes × Bytes)) : Prop :=
  lines = headerLines fields ∧ ∀ field ∈ fields, Admitted field

variable {lines : Bytes}

theorem WritesFields.append (first : WritesFields lines fields) (rest : WritesFields later more) :
    WritesFields (lines ++ later) (fields ++ more) := by
  refine ⟨?_, forall_mem_append.mpr ⟨first.2, rest.2⟩⟩
  rw [first.1, rest.1, headerLines_append]

theorem requestLine_writes (token : clientIsToken name = true)
    (free : isReservedHeader name = false) :
    WritesFields (requestLine name value) [(name, value)] :=
  ⟨requestLine_eq name value, forall_mem_singleton.mpr ⟨token, free⟩⟩

theorem appendHeader_some (done : appendHeader name value = some line) :
    WritesFields line [(name, value)] := by
  unfold appendHeader at done
  split at done
  · cases done
  · rename_i checks
    cases done
    simp only [Bool.or_eq_true, Bool.not_eq_true', not_or, Bool.not_eq_false] at checks
    exact requestLine_writes checks.1.1 (by simpa using checks.1.2)

theorem appendItems_some (done : appendItems name items = some lines) :
    WritesFields lines (items.filterMap (·.map (name, ·))) := by
  induction items generalizing lines with
  | nil =>
    cases done
    exact ⟨rfl, nofun⟩
  | cons item items ih =>
    cases item with
    | none => cases done
    | some value =>
      obtain ⟨line, first, done⟩ := bind_eq_some_iff.mp done
      obtain ⟨later, rest, done⟩ := bind_eq_some_iff.mp done
      cases done
      exact (appendHeader_some first).append (ih rest)

theorem appendEntry_some (done : appendEntry entry = some lines) :
    WritesFields lines (entryFields entry) := by
  obtain ⟨_ | name, value⟩ := entry
  · cases done
  · cases value with
    | string value => exact appendHeader_some done
    | array items => exact appendItems_some done
    | other => cases done

variable {headers : HeaderMap}

theorem appendHeadersEx_some (done : appendHeadersEx headers = some lines) :
    WritesFields lines (userFields headers) := by
  induction headers generalizing lines with
  | nil =>
    cases done
    exact ⟨rfl, nofun⟩
  | cons entry headers ih =>
    obtain ⟨own, first, done⟩ := bind_eq_some_iff.mp done
    obtain ⟨later, rest, done⟩ := bind_eq_some_iff.mp done
    cases done
    exact (appendEntry_some first).append (ih rest)

theorem wsclientAppendHeaders_some (done : wsclientAppendHeaders headers = some lines) :
    WritesFields lines (userFields headers) := by
  induction headers generalizing lines with
  | nil =>
    cases done
    exact ⟨rfl, nofun⟩
  | cons entry headers ih =>
    obtain ⟨_ | name, value⟩ := entry
    · cases done
    · cases value with
      | array items | other => cases done
      | string value =>
        unfold wsclientAppendHeaders at done
        split at done
        · cases done
        · rename_i checks
          obtain ⟨later, rest, done⟩ := bind_eq_some_iff.mp done
          cases done
          simp only [Bool.or_eq_true, Bool.not_eq_true', not_or, Bool.not_eq_false] at checks
          exact (requestLine_writes checks.1.1 (by simpa using checks.1.2)).append (ih rest)

variable {protocols : List Bytes}

theorem protocolsLine_some (done : protocolsLine protocols = some line) :
    line = headerLines (protocolFields protocols) ∧ ∀ p ∈ protocols, clientIsToken p = true := by
  have start : ascii "Sec-WebSocket-Protocol: " =
      ascii "Sec-WebSocket-Protocol" ++ [0x3a, 0x20] := by decide
  unfold protocolsLine at done
  split_ifs at done with none tokens
  · cases done
    subst none
    exact ⟨rfl, nofun⟩
  · cases done
    refine ⟨?_, all_eq_true.mp tokens⟩
    simp [protocolFields, none, headerLines, start, ascii_crlf]

theorem requestHead_eq (host target key : Bytes) (fields : List (Bytes × Bytes)) :
    requestHead host target key (headerLines (protocolFields protocols)) (headerLines fields) =
      (ascii "GET" ++ 0x20 :: (target ++ 0x20 :: ascii "HTTP/1.1")) ++ 0x0d :: 0x0a ::
        (headerLines (mandatoryFields host key ++ (protocolFields protocols ++ fields)) ++
          [0x0d, 0x0a]) := by
  have get : ascii "GET " = ascii "GET" ++ [0x20] := by decide
  have version : ascii " HTTP/1.1\r\nHost: " =
      0x20 :: ascii "HTTP/1.1" ++ 0x0d :: 0x0a :: ascii "Host" ++ [0x3a, 0x20] := by decide
  have middle : ascii "\r\nUpgrade: websocket\r\nConnection: Upgrade\r\nSec-WebSocket-Key: " =
      0x0d :: 0x0a :: (headerLines [(ascii "Upgrade", ascii "websocket"),
        (ascii "Connection", ascii "Upgrade")] ++ ascii "Sec-WebSocket-Key" ++ [0x3a, 0x20]) := by
    decide
  have last : ascii "\r\nSec-WebSocket-Version: 13\r\n" =
      0x0d :: 0x0a :: headerLines [(ascii "Sec-WebSocket-Version", ascii "13")] := by decide
  rw [requestHead, get, version, middle, last, ascii_crlf, headerLines_append, headerLines_append]
  simp [headerLines, mandatoryFields]

/-! ## Characters -/

theorem isTchar_of_client : ∀ c, clientTokenChar c = true → c ≠ 0 → isTchar c = true :=
  byte_forall (by decide +kernel)

theorem isText_of_isTchar : ∀ c, isTchar c = true → isText c = true ∧ isOws c = false :=
  byte_forall (by decide +kernel)

theorem isToken_of_client (taken : clientIsToken value = true) (nul : 0 ∉ value) :
    IsToken value := by
  simp only [clientIsToken, Bool.and_eq_true, bne_iff_ne, ne_eq, List.all_eq_true] at taken
  refine ⟨taken.1, fun b member => ?_⟩
  exact isTchar_of_client b (taken.2 b member) (fun is => nul (is ▸ member))

variable {target : Bytes}

theorem notMem_target (char : isTargetChar c = false) (hex : isHexDigit c = false)
    (percent : c ≠ 0x25) (text : isTargetText target = true) : c ∉ target := by
  have other {b : UInt8} (valid : isTargetChar b = true) : c ≠ b := by
    rintro rfl
    cases char.symm.trans valid
  have digit {b : UInt8} (valid : isHexDigit b = true) : c ≠ b := by
    rintro rfl
    cases hex.symm.trans valid
  induction target using isTargetText.induct with
  | case1 => exact not_mem_nil
  | case2 b => simp [other text]
  | case3 b d =>
    simp only [isTargetText, Bool.and_eq_true] at text
    simp [other text.1, other text.2]
  | case4 d e rest ih =>
    simp only [isTargetText, if_true, Bool.and_eq_true] at text
    simp [percent, digit text.1.1, digit text.1.2, ih text.2]
  | case5 b d e rest plain ih =>
    simp only [isTargetText, if_neg plain, Bool.and_eq_true] at text
    have later := ih text.2
    rw [mem_cons, not_or]
    exact ⟨other text.1, later⟩

/-- Text that neither starts nor ends with white space. -/
structure Solid (text : Bytes) : Prop where
  inside : ∀ b ∈ text, isText b
  first : ∃ b, text.head? = some b ∧ isOws b = false
  last : ∃ b, text.getLast? = some b ∧ isOws b = false

namespace Solid

variable {text more : Bytes}

theorem isFieldValue (solid : Solid text) : IsFieldValue text := by
  obtain ⟨first, head, front⟩ := solid.first
  obtain ⟨last, tail, back⟩ := solid.last
  refine ⟨trimOws_eq_self ?_ ?_, solid.inside⟩
  · simp [head, front]
  · simp [tail, back]

theorem ofToken (token : IsToken text) : Solid text := by
  have visible (b : UInt8) (member : b ∈ text) := isText_of_isTchar b (token.2 b member)
  refine ⟨fun b member => (visible b member).1, ?_, ?_⟩
  · refine ⟨text.head token.1, head?_eq_some_head token.1, ?_⟩
    exact (visible _ (head_mem token.1)).2
  · refine ⟨text.getLast token.1, getLast?_eq_some_getLast token.1, ?_⟩
    exact (visible _ (getLast_mem token.1)).2

theorem join (front : Solid text) (back : Solid more)
    (inner : ∀ b ∈ between, isText b) : Solid (text ++ (between ++ more)) := by
  obtain ⟨first, head, solid⟩ := front.first
  obtain ⟨last, tail, solid'⟩ := back.last
  refine ⟨?_, ⟨first, by simp [head], solid⟩, ⟨last, by simp [tail], solid'⟩⟩
  grind [inside]

end Solid

theorem joinProtocols_solid (some : protocols ≠ []) (tokens : ∀ p ∈ protocols, IsToken p) :
    Solid (joinProtocols protocols) := by
  induction protocols using joinProtocols.induct with
  | case1 => exact absurd rfl some
  | case2 protocol => exact .ofToken (tokens protocol mem_cons_self)
  | case3 protocol protocols more ih =>
    have separator : ∀ b ∈ ascii ", ", isText b := by decide
    obtain ⟨first, later⟩ := forall_mem_cons.mp tokens
    rw [joinProtocols]
    · exact .join (.ofToken first) (ih more later) separator
    · exact more

theorem mem_joinProtocols (member : p ∈ protocols) (inside : b ∈ p) :
    b ∈ joinProtocols protocols := by
  induction protocols using joinProtocols.induct with
  | case1 => cases member
  | case2 protocol =>
    cases mem_singleton.mp member
    exact inside
  | case3 protocol protocols more ih => grind [joinProtocols]

/-! ## The request -/

variable {host : Bytes}

theorem mandatoryFields_valid (valid : IsFieldValue host) (random : Bytes) :
    ∀ field ∈ mandatoryFields host (base64 random), IsToken field.1 ∧ IsFieldValue field.2 := by
  simp only [mandatoryFields, forall_mem_cons]
  exact ⟨⟨by decide, valid⟩, by decide, by decide,
    ⟨by decide, isFieldValue_base64 random⟩, by decide, nofun⟩

theorem protocolFields_valid (tokens : ∀ p ∈ protocols, IsToken p) :
    ∀ field ∈ protocolFields protocols, IsToken field.1 ∧ IsFieldValue field.2 := by
  unfold protocolFields
  split
  · nofun
  · rename_i some
    simp only [forall_mem_cons]
    exact ⟨⟨protocol_token, (joinProtocols_solid some tokens).isFieldValue⟩, nofun⟩

variable {fields : List (Bytes × Bytes)} {key : Bytes}

theorem mandatory_once (admitted : ∀ field ∈ fields, Admitted field) :
    ∀ name ∈ (mandatoryFields host key).map Prod.fst,
      ((mandatoryFields host key ++ (protocolFields protocols ++ fields)).map
        (lower ∘ Prod.fst)).count (lower name) = 1 := by
  have own : ∀ name ∈ [ascii "Host", ascii "Upgrade", ascii "Connection", ascii "Sec-WebSocket-Key",
      ascii "Sec-WebSocket-Version"], ([lower (ascii "Host"), lower (ascii "Upgrade"),
        lower (ascii "Connection"), lower (ascii "Sec-WebSocket-Key"),
        lower (ascii "Sec-WebSocket-Version")]).count (lower name) = 1 ∧
      lower name ≠ lower (ascii "Sec-WebSocket-Protocol") ∧ isReservedHeader name = true := by
    decide
  intro name member
  obtain ⟨once, protocol, reserved⟩ := own name member
  have noProtocol : ((protocolFields protocols).map (lower ∘ Prod.fst)).count (lower name) = 0 := by
    unfold protocolFields
    split
    · rfl
    · simp [Ne.symm protocol]
  have noUser : (fields.map (lower ∘ Prod.fst)).count (lower name) = 0 := by
    rw [count_eq_zero]
    intro among
    obtain ⟨field, inside, same⟩ := mem_map.mp among
    have free := (admitted field inside).2
    have same : lower field.1 = lower name := same
    unfold isReservedHeader at free reserved
    rw [same, reserved] at free
    cases free
  rw [map_append, map_append, count_append, count_append, noProtocol, noUser]
  exact once

theorem injectionFree_iff (bareLf : Bool) (host target random : Bytes)
    (tokens : ∀ p ∈ protocols, clientIsToken p = true)
    (admitted : ∀ field ∈ fields, Admitted field) :
    InjectionFree bareLf host target (base64 random) protocols fields
        (requestHead host target (base64 random) (headerLines (protocolFields protocols))
          (headerLines fields)) ↔ CleanRequest host target protocols fields := by
  constructor
  · rintro ⟨parsed, _, _⟩
    obtain ⟨origin, valid⟩ := parseRequest_valid parsed
    refine ⟨origin, ?_, fun p member => ?_, fun field member => ?_⟩
    · exact (valid (ascii "Host", host) (by simp [mandatoryFields])).2
    · refine isToken_of_client (tokens p member) (fun nul => ?_)
      have some : protocols ≠ [] := ne_nil_of_mem member
      have value := (valid (ascii "Sec-WebSocket-Protocol", joinProtocols protocols)
        (by simp [protocolFields, some])).2
      exact absurd (value.2 0 (mem_joinProtocols member nul)) (by decide)
    · exact valid field (by simp [member])
  · intro clean
    have noSpace : 0x20 ∉ target := notMem_target (by decide) (by decide) (by decide) clean.target.2
    have noLf : 0x0a ∉ ascii "GET" ++ 0x20 :: (target ++ 0x20 :: ascii "HTTP/1.1") := by
      have inTarget : 0x0a ∉ target :=
        notMem_target (by decide) (by decide) (by decide) clean.target.2
      have get : 0x0a ∉ ascii "GET" := by decide
      have version : 0x0a ∉ ascii "HTTP/1.1" := by decide
      simp [get, version, inTarget]
    have valid : ∀ field ∈ mandatoryFields host (base64 random) ++
        (protocolFields protocols ++ fields), IsToken field.1 ∧ IsFieldValue field.2 := by
      intro field member
      rcases mem_append.mp member with member | member
      · exact mandatoryFields_valid clean.host random field member
      · grind [protocolFields_valid, CleanRequest.protocols, CleanRequest.fields]
    refine ⟨?_, fun field member => ?_, mandatory_once admitted⟩
    · rw [requestHead_eq, parseRequest, headLine_append bareLf noLf]
      dsimp only
      rw [parseRequestLine_append (by decide) clean.target noSpace (by decide),
        parseFields_block bareLf valid [] (by simp)]
    · exact ⟨(clean.fields field member).1, (clean.fields field member).2.2⟩

/-- A request of `ws_client_handshake_build_request_ex` for a handshake that was set up. -/
def clientRequest (host target key : Bytes) (headers : HeaderMap) (subprotocols : List Bytes) :
    Option Bytes := do
  let handshake ← handshakeInit host target key
  handshakeBuildRequestEx handshake headers subprotocols

theorem clientRequest_some
    (built : clientRequest host target key headers subprotocols = some request) :
    request = requestHead host target key (headerLines (protocolFields subprotocols))
        (headerLines (userFields headers)) ∧ (∀ p ∈ subprotocols, clientIsToken p = true) ∧
      ∀ field ∈ userFields headers, Admitted field := by
  obtain ⟨handshake, start, built⟩ := bind_eq_some_iff.mp built
  unfold handshakeInit at start
  split_ifs at start
  cases start
  unfold handshakeBuildRequestEx at built
  split_ifs at built
  obtain ⟨protocols, first, built⟩ := bind_eq_some_iff.mp built
  obtain ⟨lines, later, built⟩ := bind_eq_some_iff.mp built
  cases built
  obtain ⟨rfl, tokens⟩ := protocolsLine_some first
  obtain ⟨rfl, admitted⟩ := appendHeadersEx_some later
  exact ⟨rfl, tokens, admitted⟩

variable {protocols : List (Option Bytes)}

theorem filterMap_of_mapM
    (all : protocols.mapM id = some strings) : protocols.filterMap id = strings := by
  induction protocols generalizing strings with
  | nil =>
    cases all
    rfl
  | cons protocol protocols ih =>
    rw [mapM_cons] at all
    obtain ⟨own, is, all⟩ := bind_eq_some_iff.mp all
    obtain ⟨later, rest, all⟩ := bind_eq_some_iff.mp all
    grind

theorem wsclientBuildRequest_some
    (built : wsclientBuildRequest authority target key headers protocols = some request) :
    request = requestHead authority target key (headerLines (protocolFields (protocols.filterMap id)))
        (headerLines (userFields headers)) ∧
      (∀ p ∈ protocols.filterMap id, clientIsToken p = true) ∧
      ∀ field ∈ userFields headers, Admitted field := by
  unfold wsclientBuildRequest at built
  split_ifs at built
  obtain ⟨strings, all, built⟩ := bind_eq_some_iff.mp built
  obtain ⟨line, first, built⟩ := bind_eq_some_iff.mp built
  obtain ⟨lines, later, built⟩ := bind_eq_some_iff.mp built
  cases built
  obtain ⟨rfl, tokens⟩ := protocolsLine_some first
  obtain ⟨rfl, admitted⟩ := wsclientAppendHeaders_some later
  rw [filterMap_of_mapM all]
  exact ⟨rfl, tokens, admitted⟩

/-- Every request that one of the builders returns is read back as it was asked for exactly if the
arguments it has accepted are clean. -/
theorem client_request_injection_free_iff (bareLf : Bool) (host target random : Bytes)
    (headers : HeaderMap) (subprotocols : List Bytes) (protocols : List (Option Bytes)) :
    ((∀ request, clientRequest host target (base64 random) headers subprotocols = some request →
        InjectionFree bareLf host target (base64 random) subprotocols (userFields headers) request) ↔
      ((clientRequest host target (base64 random) headers subprotocols).isSome →
        CleanRequest host target subprotocols (userFields headers))) ∧
    ((∀ request, wsclientBuildRequest host target (base64 random) headers protocols = some request →
        InjectionFree bareLf host target (base64 random) (protocols.filterMap id)
          (userFields headers) request) ↔
      ((wsclientBuildRequest host target (base64 random) headers protocols).isSome →
        CleanRequest host target (protocols.filterMap id) (userFields headers))) := by
  constructor
  · cases built : clientRequest host target (base64 random) headers subprotocols with
    | none => simp
    | some request =>
      obtain ⟨rfl, tokens, admitted⟩ := clientRequest_some built
      simpa using injectionFree_iff bareLf host target random tokens admitted
  · cases built : wsclientBuildRequest host target (base64 random) headers protocols with
    | none => simp
    | some request =>
      obtain ⟨rfl, tokens, admitted⟩ := wsclientBuildRequest_some built
      simpa using injectionFree_iff bareLf host target random tokens admitted

def zeroKey : Bytes := base64 (replicate 16 0)

def nulName : HeaderMap := [(some [0x58, 0x00], .string (ascii "1"))]

/-- Both builders take a target with a space in it, and a field name with NUL; neither request can be
read. -/
theorem target_and_name_unchecked :
    let spaced := clientRequest (ascii "h") (ascii "/a b") zeroKey [] []
    let named := clientRequest (ascii "h") (ascii "/") zeroKey nulName []
    spaced.isSome = true ∧ wsclientBuildRequest (ascii "h") (ascii "/a b") zeroKey [] [] = spaced ∧
      spaced.bind (parseRequest false) = none ∧
      named.isSome = true ∧ wsclientBuildRequest (ascii "h") (ascii "/") zeroKey nulName [] = named ∧
      named.bind (parseRequest false) = none := by
  decide +kernel

end TrueAsync.Ws

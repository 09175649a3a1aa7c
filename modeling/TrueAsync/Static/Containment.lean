import TrueAsync.Lib.Cut
import TrueAsync.Static.Path

/-!
# Containment of static paths

A path that resolves is the root directory of its mount followed by segments that were checked, and
nothing is written outside of the buffers.
-/

namespace TrueAsync.Static

open TrueAsync.Lib List

/-! ## Percent decoding -/

/-- What percent decoding means. -/
inductive Unescapes : Bytes → Bytes → Prop where
  | nil : Unescapes [] []
  | plain {c : UInt8} {src text : Bytes} (percent : c ≠ 0x25) (rest : Unescapes src text) :
      Unescapes (c :: src) (c :: text)
  | escape {hi lo : UInt8} {h l : Nat} {src text : Bytes} (high : hexValue hi = some h)
      (low : hexValue lo = some l) (rest : Unescapes src text) :
      Unescapes (0x25 :: hi :: lo :: src) (UInt8.ofNat (16 * h + l) :: text)

def isPathByte (b : UInt8) : Bool := b ≠ 0 && b ≠ 0x5c

variable {cap : Nat} {out : Bytes}

theorem store_ok_iff :
    store cap out chunk = .ok result ↔ out.length + chunk.length ≤ cap ∧ result = out ++ chunk := by
  grind [store]

theorem terminate_ok_iff : terminate cap out = .ok () ↔ out.length + 1 ≤ cap := by
  unfold terminate
  split_ifs with fits <;> simp [fits]

variable {text : Bytes}

theorem Unescapes.det {src text' : Bytes} (one : Unescapes src text)
    (other : Unescapes src text') : text = text' := by
  induction one generalizing text' with
  | nil =>
    cases other
    rfl
  | plain percent rest ih =>
    cases other with
    | plain _ rest' => rw [ih rest']
    | escape => exact absurd rfl percent
  | escape high low rest ih =>
    cases other with
    | plain percent => exact absurd rfl percent
    | escape high' low' rest' => grind

/-- What the decoder writes after `out`. -/
def Decoded (cap : Nat) (src out text : Bytes) : Prop :=
  Unescapes src text ∧ (∀ b ∈ text, isPathByte b = true) ∧ out.length + text.length + 1 ≤ cap

theorem store_one (b : UInt8) (room : ¬cap ≤ out.length + 1) :
    store cap out [b] = .ok (out ++ [b]) := by
  rw [store_ok_iff]
  exact ⟨by simp; omega, rfl⟩

variable {b : UInt8}

theorem decoded_cons :
    (∀ c ∈ b :: text, isPathByte c = true) ∧ out.length + (b :: text).length + 1 ≤ cap ↔
      isPathByte b = true ∧ out.length + 1 < cap ∧
        (∀ c ∈ text, isPathByte c = true) ∧ (out ++ [b]).length + text.length + 1 ≤ cap := by
  grind

variable {src out : Bytes}

theorem decoded_plain (percent : c ≠ 0x25) : Decoded cap (c :: src) out text ↔
      isPathByte c = true ∧ out.length + 1 < cap ∧
        ∃ text', text = c :: text' ∧ Decoded cap src (out ++ [c]) text' := by
  constructor
  · rintro ⟨means, fits⟩
    cases means with
    | escape => exact absurd rfl percent
    | plain _ rest =>
      obtain ⟨here, room, later⟩ := (decoded_cons).mp fits
      exact ⟨here, room, _, rfl, rest, later⟩
  · rintro ⟨here, room, text', rfl, rest, later⟩
    exact ⟨.plain percent rest, (decoded_cons).mpr ⟨here, room, later⟩⟩

theorem decoded_escape (high : hexValue hi = some h) (low : hexValue lo = some l) :
    Decoded cap (0x25 :: hi :: lo :: src) out text ↔
      isPathByte (UInt8.ofNat (16 * h + l)) = true ∧ out.length + 1 < cap ∧
        ∃ text', text = UInt8.ofNat (16 * h + l) :: text' ∧
          Decoded cap src (out ++ [UInt8.ofNat (16 * h + l)]) text' := by
  constructor
  · rintro ⟨means, fits⟩
    cases means with
    | plain percent => exact absurd rfl percent
    | escape high' low' rest =>
      rw [high] at high'
      rw [low] at low'
      cases high'
      cases low'
      obtain ⟨here, room, later⟩ := (decoded_cons).mp fits
      exact ⟨here, room, _, rfl, rest, later⟩
  · rintro ⟨here, room, text', rfl, rest, later⟩
    exact ⟨.escape high low rest, (decoded_cons).mpr ⟨here, room, later⟩⟩

theorem percentDecode_step (room : out.length + 1 < cap)
    (means : ∀ text, Decoded cap src' out text ↔ ∃ text', text = b :: text' ∧
      Decoded cap src (out ++ [b]) text') (later : (∃ text, Decoded cap src (out ++ [b]) text ∧
      percentDecode cap src (out ++ [b]) = .ok (out ++ [b] ++ text)) ∨
      percentDecode cap src (out ++ [b]) = .error .badRequest ∧
      ¬∃ text, Decoded cap src (out ++ [b]) text) : (∃ text, Decoded cap src' out text ∧
        (store cap out [b] >>= percentDecode cap src) = .ok (out ++ text)) ∨
      (store cap out [b] >>= percentDecode cap src) = .error .badRequest ∧
        ¬∃ text, Decoded cap src' out text := by
  have stored : (store cap out [b] >>= percentDecode cap src) =
      percentDecode cap src (out ++ [b]) := by
    rw [store_one b (by omega)]
    rfl
  grind

/-- The decoder writes what percent decoding means if that fits and has no NUL and no backslash;
otherwise the request is bad. Nothing is written outside of the buffer. -/
theorem percentDecode_spec (room : out.length + 1 ≤ cap) :
    (∃ text, Decoded cap src out text ∧ percentDecode cap src out = .ok (out ++ text)) ∨
      percentDecode cap src out = .error .badRequest ∧ ¬∃ text, Decoded cap src out text := by
  fun_induction percentDecode cap src out with
  | case1 out =>
    refine .inl ⟨[], ⟨.nil, by simp, by simpa using room⟩, ?_⟩
    rw [terminate_ok_iff.mpr room]
    simp
  | case2 src out => grind [decoded_plain, isPathByte]
  | case3 out hi lo src h l low high byte bad => grind [decoded_escape, isPathByte]
  | case4 out hi lo src h l low high byte fine full => grind [decoded_escape]
  | case5 out hi lo src h l low high byte fine free percent ih =>
    have here : isPathByte byte = true := by simpa [isPathByte] using fine
    refine percentDecode_step (by omega) (fun text => ?_) (ih _ (by simp; omega))
    grind [decoded_escape]
  | case6 out hi lo src digits =>
    refine .inr ⟨rfl, ?_⟩
    rintro ⟨text, means, -⟩
    cases means with
    | plain percent => exact absurd rfl percent
    | escape high low rest => exact digits _ _ high low
  | case7 src out short =>
    refine .inr ⟨rfl, ?_⟩
    rintro ⟨text, means, -⟩
    cases means with
    | plain percent => exact absurd rfl percent
    | escape high low rest => exact short _ _ _ rfl
  | case8 src out => grind [decoded_plain, isPathByte]
  | case9 c src out nul percent backslash full => grind [decoded_plain]
  | case10 c src out nul percent backslash free ih =>
    have here : isPathByte c = true := by simp [isPathByte, nul, backslash]
    refine percentDecode_step (by omega) (fun text => ?_) (ih _ (by simp; omega))
    grind [decoded_plain]

/-! ## Segments -/

/-- A segment that the checks let pass. -/
structure PlainSegment (mount : Mount) (seg : Bytes) : Prop where
  nonempty : seg ≠ []
  slash : 0x2f ∉ seg
  dot : seg ≠ [0x2e]
  dotdot : seg ≠ [0x2e, 0x2e]
  dotfile : seg.head? = some 0x2e → mount.dotfiles = .allow

/-- Segments with slashes between them, and perhaps one at the end. -/
def joined (segments : List Bytes) (atEnd : Bool) : Bytes :=
  [0x2f].intercalate segments ++ if atEnd then [0x2f] else []

def spelled (inFront : Bool) (segments : List Bytes) (atEnd : Bool) : Bytes :=
  (if inFront then [0x2f] else []) ++ joined segments atEnd

def slashFits (segments : List Bytes) (atEnd : Bool) : Prop := segments = [] → atEnd = false

variable {mount : Mount} {seg : Bytes}

theorem validateSegment_ok_iff (slash : 0x2f ∉ seg) :
    validateSegment mount seg = .ok () ↔ PlainSegment mount seg := by
  constructor
  · intro passed
    unfold validateSegment at passed
    split_ifs at passed with empty dot dotdot dotfile
    · refine ⟨empty, slash, dot, dotdot, fun _ => ?_⟩
      grind
    · exact ⟨empty, slash, dot, dotdot, fun leads => absurd leads dotfile⟩
  · rintro ⟨empty, -, dot, dotdot, dotfile⟩
    grind [validateSegment]

theorem validateSegment_error (failed : validateSegment mount seg = .error e) : e ≠ .overrun := by
  grind [validateSegment]

variable {path : Bytes}

theorem validateSegmentsFrom_error {count : Nat}
    (failed : validateSegmentsFrom mount count path = .error e) : e ≠ .overrun := by
  fun_induction validateSegmentsFrom mount count path with
  | case1 => cases failed
  | case2 => 
    cases failed
    simp
  | case3 count path some few e' bad =>
    cases failed
    exact validateSegment_error bad
  | case4 count path some few passed ih => exact ih failed

variable {segments : List Bytes}

theorem joined_cons (seg : Bytes) (more : segments ≠ []) (atEnd : Bool) :
    joined (seg :: segments) atEnd = seg ++ 0x2f :: joined segments atEnd := by
  simp [joined, intercalate, intersperse]

theorem joined_singleton (seg : Bytes) (atEnd : Bool) :
    joined [seg] atEnd = seg ++ if atEnd then [0x2f] else [] := by
  simp [joined, intercalate, intersperse]

theorem PlainSegment.bytes (plain : PlainSegment mount seg) :
    ∀ b ∈ seg, decide (b ≠ 0x2f) = true := by
  grind [PlainSegment.slash]

theorem joined_span (plain : PlainSegment mount seg) (segments : List Bytes) (atEnd : Bool) :
    (joined (seg :: segments) atEnd).takeWhile (· ≠ 0x2f) = seg ∧
      ((joined (seg :: segments) atEnd).dropWhile (· ≠ 0x2f)).drop 1 =
        if segments = [] then [] else joined segments atEnd := by
  by_cases more : segments = []
  · subst more
    rw [joined_singleton, if_pos rfl]
    cases atEnd
    · simp only [Bool.false_eq_true, if_false, append_nil]
      rw [takeWhile_eq_self_iff.mpr plain.bytes, dropWhile_eq_nil_iff.mpr plain.bytes]
      exact ⟨rfl, rfl⟩
    · obtain ⟨taken, dropped⟩ := span_append 0x2f plain.bytes (by simp) []
      rw [if_pos rfl, taken, dropped]
      exact ⟨rfl, rfl⟩
  · obtain ⟨taken, dropped⟩ := span_append 0x2f plain.bytes (by simp) (joined segments atEnd)
    rw [joined_cons seg more, taken, dropped, if_neg more]
    exact ⟨rfl, rfl⟩

variable {atEnd : Bool}

theorem joined_eq_nil (fits : slashFits segments atEnd)
    (plain : ∀ seg ∈ segments, PlainSegment mount seg) :
    joined segments atEnd = [] ↔ segments = [] := by
  constructor
  · intro empty
    cases segments with
    | nil => rfl
    | cons seg rest =>
      have first := plain seg mem_cons_self
      have taken := (joined_span first rest atEnd).1
      rw [empty] at taken
      exact absurd taken.symm first.nonempty
  · rintro rfl
    rw [fits rfl]
    rfl

theorem joined_of_span (rest : (path.dropWhile (· ≠ 0x2f)).drop 1 = joined segments atEnd)
    (fits : slashFits segments atEnd) (plain : ∀ seg ∈ segments, PlainSegment mount seg) :
    ∃ atEnd', path = joined (path.takeWhile (· ≠ 0x2f) :: segments) atEnd' := by
  obtain ⟨whole, -, stops⟩ := span_spec (· ≠ 0x2f) path
  cases dropped : path.dropWhile (· ≠ 0x2f) with
  | nil =>
    rw [dropped] at rest whole
    have none := (joined_eq_nil fits plain).mp rest.symm
    refine ⟨false, ?_⟩
    rw [none, joined_singleton]
    exact whole
  | cons c later =>
    rw [dropped] at rest whole
    have slash : c = 0x2f := by simpa using stops c (by rw [dropped]; rfl)
    rw [drop_one, tail_cons] at rest
    by_cases none : segments = []
    · refine ⟨true, ?_⟩
      rw [none, joined_singleton, if_pos rfl]
      rw [slash, rest, (joined_eq_nil fits plain).mpr none] at whole
      exact whole
    · refine ⟨atEnd, ?_⟩
      grind [joined_cons]

theorem validateSegmentsFrom_ok_iff {count : Nat} : validateSegmentsFrom mount count path = .ok () ↔
      ∃ segments atEnd, path = joined segments atEnd ∧ slashFits segments atEnd ∧
        (∀ seg ∈ segments, PlainSegment mount seg) ∧
          (segments = [] ∨ count + segments.length ≤ maxSegments) := by
  fun_induction validateSegmentsFrom mount count path with
  | case1 count => exact ⟨fun _ => ⟨[], false, rfl, fun _ => rfl, by simp, .inl rfl⟩, fun _ => rfl⟩
  | case2 count path some many =>
    refine ⟨by simp, ?_⟩
    rintro ⟨segments, atEnd, rfl, fits, plain, few⟩
    have more := mt (joined_eq_nil fits plain).mpr some
    have := length_pos_iff.mpr more
    grind
  | case3 count path some few e bad =>
    refine ⟨by simp, ?_⟩
    rintro ⟨segments, atEnd, rfl, fits, plain, -⟩
    have more := mt (joined_eq_nil fits plain).mpr some
    obtain ⟨seg, rest, rfl⟩ := exists_cons_of_ne_nil more
    have first := plain seg mem_cons_self
    rw [(joined_span first rest atEnd).1, (validateSegment_ok_iff first.slash).mpr first] at bad
    cases bad
  | case4 count path some few passed ih =>
    rw [ih]
    have cut : 0x2f ∉ path.takeWhile (· ≠ 0x2f) := by
      intro member
      simpa using mem_takeWhile_imp member
    have first := (validateSegment_ok_iff cut).mp passed
    constructor
    · rintro ⟨segments, atEnd, rest, fits, plain, room⟩
      obtain ⟨atEnd', whole⟩ := joined_of_span rest fits plain
      refine ⟨_, atEnd', whole, by simp [slashFits], forall_mem_cons.mpr ⟨first, plain⟩, .inr ?_⟩
      rw [length_cons]
      rcases room with rfl | room
      · simp only [length_nil]
        omega
      · omega
    · rintro ⟨segments, atEnd, rfl, fits, plain, room⟩
      have more := mt (joined_eq_nil fits plain).mpr some
      obtain ⟨seg, segments, rfl⟩ := exists_cons_of_ne_nil more
      obtain ⟨seg', plain⟩ := forall_mem_cons.mp plain
      obtain ⟨-, rest⟩ := joined_span seg' segments atEnd
      rw [rest]
      split_ifs with none
      · exact ⟨[], false, rfl, fun _ => rfl, by simp, .inl rfl⟩
      · refine ⟨segments, atEnd, rfl, fun empty => absurd empty none, plain, .inr ?_⟩
        grind

/-- Segments that the checks let pass. -/
structure Accepted (mount : Mount) (segments : List Bytes) (atEnd : Bool) : Prop where
  fits : slashFits segments atEnd
  plain : ∀ seg ∈ segments, PlainSegment mount seg
  few : segments.length ≤ maxSegments

theorem Accepted.head (accepted : Accepted mount segments atEnd) :
    (joined segments atEnd).head? ≠ some 0x2f := by
  cases segments with
  | nil =>
    rw [accepted.fits rfl]
    simp [joined]
  | cons seg rest =>
    have first := accepted.plain seg mem_cons_self
    have taken := (joined_span first rest atEnd).1
    intro slash
    cases whole : joined (seg :: rest) atEnd with
    | nil => simp [whole] at slash
    | cons c later =>
      rw [whole, head?_cons, Option.some_inj] at slash
      rw [whole, slash, takeWhile_cons_of_neg (by simp)] at taken
      exact first.nonempty taken.symm

theorem validateSegmentsFrom_zero : validateSegmentsFrom mount 0 path = .ok () ↔
      ∃ segments atEnd, path = joined segments atEnd ∧ Accepted mount segments atEnd := by
  rw [validateSegmentsFrom_ok_iff]
  constructor
  · rintro ⟨segments, atEnd, whole, fits, plain, few⟩
    refine ⟨segments, atEnd, whole, fits, plain, ?_⟩
    grind
  · rintro ⟨segments, atEnd, whole, fits, plain, few⟩
    grind

theorem validateSegments_ok_iff : validateSegments mount path = .ok () ↔ ∃ inFront segments atEnd,
        path = spelled inFront segments atEnd ∧ Accepted mount segments atEnd := by
  unfold validateSegments
  rw [validateSegmentsFrom_zero]
  constructor
  · rintro ⟨segments, atEnd, whole, accepted⟩
    split_ifs at whole with slash
    · refine ⟨true, segments, atEnd, ?_, accepted⟩
      obtain ⟨c, later, rfl⟩ := exists_cons_of_ne_nil (l := path) (by rintro rfl; simp at slash)
      grind [spelled]
    · exact ⟨false, segments, atEnd, whole, accepted⟩
  · rintro ⟨inFront, segments, atEnd, rfl, accepted⟩
    refine ⟨segments, atEnd, ?_, accepted⟩
    cases inFront
    · exact if_neg accepted.head
    · exact if_pos rfl

/-! ## Resolution -/

def Mount.owns (mount : Mount) (requestPath : Bytes) : Prop :=
  requestPath.head? = some 0x2f ∧ mount.urlPrefix <+: requestPath

/-- What a path resolves to. -/
structure Resolves (mount : Mount) (requestPath : Bytes) (outBufCap : Nat) (text : Bytes) :
    Prop where
  owns : mount.owns requestPath
  decoded : Decoded maxPathLen (requestTail mount requestPath) [] text
  accepted : validateSegments mount text = .ok ()
  fits : mount.rootDirectory.length + 1 + text.length + 1 ≤ outBufCap

theorem rootSlash_length (mount : Mount) :
    (rootSlash mount).length ≤ mount.rootDirectory.length + 1 := by
  unfold rootSlash
  split_ifs <;> simp

theorem writePath_eq (fits : mount.rootDirectory.length + 1 + text.length + 1 ≤ outBufCap) :
    writePath mount outBufCap text =
      .ok { fsPath := rootSlash mount ++ text, relativeAt := (rootSlash mount).length } := by
  have short := rootSlash_length mount
  have root : store outBufCap [] mount.rootDirectory = .ok mount.rootDirectory :=
    store_ok_iff.mpr ⟨by simp only [length_nil]; omega, rfl⟩
  have whole : store outBufCap (rootSlash mount) text = .ok (rootSlash mount ++ text) :=
    store_ok_iff.mpr ⟨by omega, rfl⟩
  have nul : terminate outBufCap (rootSlash mount ++ text) = .ok () :=
    terminate_ok_iff.mpr (by rw [length_append]; omega)
  unfold writePath
  rw [root]
  simp only [bind, Except.bind]
  split_ifs with unclosed
  · have slash : store outBufCap mount.rootDirectory [0x2f] = .ok (rootSlash mount) :=
      store_ok_iff.mpr ⟨by simp only [length_singleton]; omega, if_pos unclosed⟩
    simp only [slash, whole, nul]
    rfl
  · have same : rootSlash mount = mount.rootDirectory := if_neg unclosed
    rw [same] at whole nul ⊢
    simp only [pure, Except.pure, whole, nul]

theorem owns_iff {requestPath : Bytes} : mount.owns requestPath ↔
      requestPath.head? = some 0x2f ∧ ¬requestPath.length < mount.urlPrefix.length ∧
        requestPath.take mount.urlPrefix.length = mount.urlPrefix := by
  grind [Mount.owns, prefix_iff_eq_take]

/-- A path resolves to what its tail means, or it is refused; nothing is written outside of a buffer. -/
theorem resolve_spec (mount : Mount) (requestPath : Bytes) (outBufCap : Nat) :
    (∃ text, Resolves mount requestPath outBufCap text ∧
        httpStaticPathResolve mount requestPath outBufCap =
          .ok { fsPath := rootSlash mount ++ text, relativeAt := (rootSlash mount).length }) ∨
      ∃ e, e ≠ .overrun ∧ httpStaticPathResolve mount requestPath outBufCap = .error e ∧
        ¬∃ text, Resolves mount requestPath outBufCap text := by
  unfold httpStaticPathResolve
  split_ifs with slash short other
  · exact .inr ⟨_, by simp, rfl, fun ⟨text, resolves⟩ => slash resolves.owns.1⟩
  · exact .inr ⟨_, by simp, rfl, fun ⟨text, resolves⟩ => (owns_iff.mp resolves.owns).2.1 short⟩
  · exact .inr ⟨_, by simp, rfl, fun ⟨text, resolves⟩ => other (owns_iff.mp resolves.owns).2.2⟩
  have owns : mount.owns requestPath := owns_iff.mpr ⟨not_not.mp slash, short, not_not.mp other⟩
  rcases @percentDecode_spec maxPathLen (requestTail mount requestPath) [] (by decide) with
    ⟨text, decoded, same⟩ | ⟨bad, none⟩
  · rw [same]
    -- the empty path passes the checks as well
    have checks : (if text = [] then .ok () else validateSegments mount text) =
        validateSegments mount text := by
      grind [validateSegments, validateSegmentsFrom]
    simp only [nil_append, checks]
    have only : ∀ text', Resolves mount requestPath outBufCap text' → text' = text :=
      fun text' resolves => resolves.decoded.1.det decoded.1
    cases passed : validateSegments mount text with
    | error e =>
      refine .inr ⟨e, validateSegmentsFrom_error passed, rfl, ?_⟩
      rintro ⟨text', resolves⟩
      grind [Resolves.accepted]
    | ok =>
      split_ifs with full
      · refine .inr ⟨_, by simp, rfl, ?_⟩
        rintro ⟨text', resolves⟩
        have := resolves.fits
        rw [only text' resolves] at this
        omega
      · have fits : mount.rootDirectory.length + 1 + text.length + 1 ≤ outBufCap := by omega
        exact .inl ⟨text, ⟨owns, decoded, passed, fits⟩, writePath_eq fits⟩
  · rw [bad]
    exact .inr ⟨_, by simp, rfl, fun ⟨text, resolves⟩ => none ⟨text, resolves.decoded⟩⟩

/-- A segment of a path that has resolved. -/
structure SafeSegment (mount : Mount) (seg : Bytes) : Prop extends PlainSegment mount seg where
  nul : 0 ∉ seg
  backslash : 0x5c ∉ seg

/-- A resolved path is the root directory followed by safe segments of the decoded request path with
slashes between them (and perhaps one around them), and it fits in its buffer together with a NUL. -/
structure Contained (mount : Mount) (requestPath : Bytes) (outBufCap : Nat) (r : ResolvedPath) :
    Prop where
  segments : ∃ inFront segments atEnd,
    Unescapes (requestTail mount requestPath) (spelled inFront segments atEnd) ∧
      r.fsPath = rootSlash mount ++ spelled inFront segments atEnd ∧
      (∀ seg ∈ segments, SafeSegment mount seg) ∧ segments.length ≤ maxSegments
  fits : r.fsPath.length + 1 ≤ outBufCap

theorem mem_joined (member : seg ∈ segments) (inside : b ∈ seg) : b ∈ joined segments atEnd := by
  induction segments with
  | nil => cases member
  | cons first rest ih =>
    by_cases more : rest = []
    · grind [joined_singleton]
    · grind [joined_cons]

/-- Nothing is written outside of the buffers, and a path that resolves is contained in its mount. -/
theorem resolve_contained (mount : Mount) (requestPath : Bytes) (outBufCap : Nat) :
    httpStaticPathResolve mount requestPath outBufCap ≠ .error .overrun ∧
      ∀ r, httpStaticPathResolve mount requestPath outBufCap = .ok r →
        Contained mount requestPath outBufCap r := by
  rcases resolve_spec mount requestPath outBufCap with ⟨text, resolves, same⟩ | ⟨e, safe, same, -⟩
  · rw [same]
    refine ⟨by simp, ?_⟩
    rintro r ⟨⟩
    obtain ⟨inFront, segments, atEnd, rfl, accepted⟩ := validateSegments_ok_iff.mp resolves.accepted
    obtain ⟨means, clean, -⟩ := resolves.decoded
    have short := rootSlash_length mount
    have fits := resolves.fits
    refine ⟨⟨inFront, segments, atEnd, means, rfl, ?_, accepted.few⟩, ?_⟩
    · intro seg member
      have inside : ∀ b ∈ seg, isPathByte b = true := fun b here =>
        clean b (mem_append_right _ (mem_joined member here))
      refine ⟨accepted.plain seg member, fun nul => ?_, fun backslash => ?_⟩
      · exact absurd (inside _ nul) (by decide)
      · exact absurd (inside _ backslash) (by decide)
    · rw [length_append]
      omega
  · rw [same]
    exact ⟨by simpa using safe, by simp⟩

def someMount : Mount where
  urlPrefix := ascii "/s/"
  rootDirectory := ascii "/srv/a"
  prefixSlash := by decide
  rootAbsolute := by decide
  indexNames := by decide
  hideNames := by simp

/-- An escaped slash and a query. -/
theorem resolve_contained_escaped : httpStaticPathResolve someMount (ascii "/s/b%2Fc?d") 64 =
        .ok { fsPath := ascii "/srv/a/b/c", relativeAt := 7 } ∧
      Contained someMount (ascii "/s/b%2Fc?d") 64
        { fsPath := ascii "/srv/a/b/c", relativeAt := 7 } := by
  have resolved : httpStaticPathResolve someMount (ascii "/s/b%2Fc?d") 64 =
      .ok { fsPath := ascii "/srv/a/b/c", relativeAt := 7 } := by
    decide +kernel
  exact ⟨resolved, (resolve_contained someMount (ascii "/s/b%2Fc?d") 64).2 _ resolved⟩

end TrueAsync.Static

import TrueAsync.Http1.Connection
import TrueAsync.Http1.Isolation
import TrueAsync.Lib.History

/-!
# Lifetime of an HTTP/1 request

Every live request has one owner: the parser until the dispatch, one PHP object after it. So
no request is destroyed twice, and an access through the parser is safe as long as the object
that owns the request is alive. It need not be: `http_request_finalize` releases the object and
leaves `parser->request` pointing at it. A buffer that arrives then is safe only if it starts a
new message, because `on_message_begin` replaces the pointer without looking at it.
-/

namespace TrueAsync.Http1

open TrueAsync.Lib Heap Returns

variable {Proc Form : Type} (ops : MultipartOps Proc Form)

/-! ## What a callback does to the ownership -/

/-- A callback leaves the pointer and the counter alone, and either keeps the request or hands
it over together with the dispatch. -/
structure Handles (s : Parse Proc Form) (outcome : Reply × Parse Proc Form) : Prop where
  request : outcome.2.parser.request = s.parser.request
  wired : outcome.2.parser.dispatchCb = s.parser.dispatchCb
  refcount : outcome.2.req.refcount = s.req.refcount
  handed :
    outcome.1.dispatch = false ∧ outcome.2.parser.ownsRequest = s.parser.ownsRequest ∧
        outcome.2.parser.dispatched = s.parser.dispatched ∨
      outcome.1.dispatch = true ∧ outcome.2.parser.ownsRequest = false ∧
        outcome.2.parser.dispatched = true

/-- The part of the parser that decides who owns the request. -/
def Http1Parser.ownership (p : Http1Parser) : Option RequestPtr × Bool × Bool × Bool :=
  (p.request, p.dispatchCb, p.ownsRequest, p.dispatched)

def Parse.ownership (s : Parse Proc Form) : (Option RequestPtr × Bool × Bool × Bool) × Nat :=
  (s.parser.ownership, s.req.refcount)

variable {s t : Parse Proc Form}

theorem Handles.after
    (handles : Handles t outcome) (same : t.ownership = s.ownership) : Handles s outcome := by
  simp only [Parse.ownership, Http1Parser.ownership, Prod.mk.injEq] at same
  obtain ⟨⟨request, wired, owns, dispatched⟩, refcount⟩ := same
  refine ⟨handles.request.trans request, handles.wired.trans wired,
    handles.refcount.trans refcount, ?_⟩
  rw [← owns, ← dispatched]
  exact handles.handed

theorem Handles.quiet (same : t.ownership = s.ownership) : Handles s (⟨result, false⟩, t) := by
  simp only [Parse.ownership, Http1Parser.ownership, Prod.mk.injEq] at same
  obtain ⟨⟨request, wired, owns, dispatched⟩, refcount⟩ := same
  exact ⟨request, wired, refcount, .inl ⟨rfl, owns, dispatched⟩⟩

theorem HeaderEffect.ownership (effect : HeaderEffect s t) : t.ownership = s.ownership := by
  unfold Parse.ownership Http1Parser.ownership
  rw [effect.parser, effect.req]

variable (text : Bytes)

def Sole (requests : Heap (HttpRequest Proc Form)) (r : RequestPtr) : Prop :=
  ∃ req, requests.cell r = some req ∧ req.refcount = 1

/-- Each request has one owner: the parser or a PHP object. -/
structure Holdings (st : ConnState Proc Form) : Prop where
  wired : st.parser.dispatchCb = true
  owned : st.parser.ownsRequest = true → ∀ r, st.parser.request = some r →
    Sole st.requests r ∧ ∀ o obj, st.objects.cell o = some obj → obj.request ≠ r
  objects : ∀ o obj, st.objects.cell o = some obj → Sole st.requests obj.request
  apart : ∀ o o' obj obj', st.objects.cell o = some obj → st.objects.cell o' = some obj' →
    obj.request = obj'.request → o = o'
  contexts : ∀ c ctx, st.contexts.cell c = some ctx →
    ∃ obj, st.objects.cell ctx.object = some obj ∧ obj.held = true
  unshared : ∀ c c' ctx ctx', st.contexts.cell c = some ctx → st.contexts.cell c' = some ctx' →
    ctx.object = ctx'.object → c = c'

def Phased (phase : Phase) (p : Http1Parser) : Prop :=
  (phase = .head → p.ownsRequest = true ∧ p.dispatched = false) ∧
    (phase = .body → p.dispatched = false → p.ownsRequest = true)

def Attached (st : ConnState Proc Form) : Prop :=
  ∀ r, st.parser.request = some r → st.requests.Live r

theorem Phased.kept (phased : Phased phase p) (owns : p'.ownsRequest = p.ownsRequest)
    (dispatched : p'.dispatched = p.dispatched) : Phased phase p' := by
  unfold Phased
  rw [owns, dispatched]
  exact phased

variable {requests : Heap (HttpRequest Proc Form)} {r : RequestPtr}

section

variable (sole : Sole requests r)
include sole

theorem Sole.live : requests.Live r := by
  obtain ⟨req, found, -⟩ := sole
  exact live_iff.mpr ⟨req, found⟩

theorem Sole.free (other : r ≠ r') : Sole (requests.free r') r := by
  obtain ⟨req, found, once⟩ := sole
  exact ⟨req, by rw [free_cell_ne _ other, found], once⟩

theorem Sole.alloc (req : HttpRequest Proc Form) : Sole (requests.alloc req) r := by
  obtain ⟨old, found, once⟩ := sole
  exact ⟨old, alloc_cell_of_some found, once⟩

theorem Sole.write (found : requests.cell r' = some req) (same : req'.refcount = req.refcount) :
    Sole (requests.modify r' fun _ => req') r := by
  obtain ⟨old, here, once⟩ := sole
  by_cases eq : r = r'
  · subst eq
    obtain rfl : old = req := Option.some.inj (here.symm.trans found)
    exact ⟨req', by rw [modify_cell_self, found]; rfl, same.trans once⟩
  · exact ⟨old, by rw [modify_cell_ne _ _ eq, here], once⟩

end

/-! ## Releases -/

variable {st st' : ConnState Proc Form}

theorem Holdings.narrow (holdings : Holdings st)
    (parser : st'.parser = st.parser) (older : ∀ o obj, st'.objects.cell o = some obj →
      ∃ was, st.objects.cell o = some was ∧ obj.request = was.request)
    (owned : st.parser.ownsRequest = true → ∀ r, st.parser.request = some r → Sole st'.requests r)
    (objects : ∀ o obj, st'.objects.cell o = some obj → Sole st'.requests obj.request)
    (contexts : ∀ c ctx, st'.contexts.cell c = some ctx → st.contexts.cell c = some ctx)
    (held : ∀ c ctx, st'.contexts.cell c = some ctx →
      ∃ obj, st'.objects.cell ctx.object = some obj ∧ obj.held = true) : Holdings st' where
  wired := parser ▸ holdings.wired
  owned := by
    rw [parser]
    intro owns r points
    refine ⟨owned owns r points, fun o obj cell => ?_⟩
    obtain ⟨was, here, same⟩ := older o obj cell
    rw [same]
    exact (holdings.owned owns r points).2 o was here
  objects := objects
  apart := by
    intro o o' obj obj' cell cell' shared
    obtain ⟨was, here, same⟩ := older o obj cell
    obtain ⟨was', here', same'⟩ := older o' obj' cell'
    exact holdings.apart o o' was was' here here' (same.symm.trans (shared.trans same'))
  contexts := held
  unshared c c' ctx ctx' cell cell' :=
    holdings.unshared c c' ctx ctx' (contexts c ctx cell) (contexts c' ctx' cell')

variable {old : RequestObject}

variable {ctx : HandlerCtx}

section

variable (holdings : Holdings st)
include holdings

variable {callback : Parse Proc Form → Reply × Parse Proc Form}

end

/-- After a buffer the parser's request is alive; after one without an error the parser is
ready for the next. -/
def Fed (out : Bool × ConnState Proc Form) : Prop :=
  Holdings out.2 ∧ Attached out.2 ∧ (out.1 = true → Phased out.2.phase out.2.parser)

variable (callbacks : List Callback)

/-- The buffer is safe to parse: llhttp does not run any more, or the parser's request is alive,
or the buffer is the start of a new message, or an error in its place. -/
def Ready (feed : Feed) (st : ConnState Proc Form) : Prop :=
  st.stopped = true ∨ Attached st ∨
    st.phase = .idle ∧ (.messageBegin ∈ feed.callbacks ∨ feed.malformed = true)

def Sound (st : ConnState Proc Form) : Prop :=
  Holdings st ∧ (st.stopped = true ∨ Phased st.phase st.parser)

/-- The condition on an event: a buffer that reaches the parser is safe to parse, be it from a
read or from what is left when a handler ends. -/
def Meets (st : ConnState Proc Form) : ConnEvent → Prop
  | .read feed => st.requestInFlight = true ∨ Ready feed st
  | .finish c _ (some feed) => ∀ ctx st', st.contexts.cell c = some ctx → ctx.websocket = false →
      releaseHandler c ctx st = .ok st' → Ready feed st'
  | _ => True

end TrueAsync.Http1

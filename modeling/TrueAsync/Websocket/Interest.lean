import Mathlib.Data.List.Infix
import TrueAsync.Lib.CountingBloom
import TrueAsync.Websocket.Topic

/-!
# The interest filter of the hub

A worker's slot in the hub carries a counting Bloom filter over the literal prefixes of the
filters its sessions hold (`src/websocket/topic_hub.c`). A publish probes it with every
level-prefix of the topic and skips the workers that no probe hits. Two facts carry the
safety of that: the prefix of a matching filter is one of the prefixes of the topic, and the
counters are balanced over any history of paired calls.

A counter is an `int` of 32 bits. Its additions wrap, so a worker has to keep fewer than
`2 ^ 31` additions outstanding. And a worker finds its table through its slot, so a worker
that has retired must not publish once another one holds the slot.
-/

namespace TrueAsync.Websocket

open TrueAsync.Lib List CountingBloom TopicLevel

/-! ## Prefixes -/

variable {levels : List TopicLevel}

theorem take_stop_wsTopicSplitLoop {start : Nat} {count : Nat} {rest before : Bytes}
    (found : wsTopicSplitLoop start level count rest = some levels) (noSlash : slash ∉ level)
    (offset : before.length = start) : levels.map (fun l => (before ++ level ++ rest).take l.stop) =
      (levelsOf (level ++ rest)).inits.tail.map fun ls => before ++ [slash].intercalate ls := by
  induction rest generalizing start level count before levels with
  | nil =>
    unfold wsTopicSplitLoop at found
    split at found
    · cases found
    · cases found
      have stop : (before ++ level).take (start + level.length) = before ++ level := by grind
      simp [levelsOf_of_notMem noSlash, TopicLevel.stop, stop, intercalate]
  | cons b rest ih =>
    unfold wsTopicSplitLoop at found
    by_cases sep : b = slash
    · subst sep
      rw [if_neg (by simp)] at found
      split at found
      · cases found
      · rw [Option.map_eq_some_iff] at found
        obtain ⟨deeper, found, rfl⟩ := found
        have offset' : (before ++ level ++ [slash]).length = start + level.length + 1 := by grind
        have tail := ih found not_mem_nil offset'
        have first : (before ++ level ++ slash :: rest).take (start + level.length) =
            before ++ level := by
          grind
        have whole : before ++ level ++ [slash] ++ [] ++ rest =
            before ++ level ++ slash :: rest := by simp
        rw [whole, nil_append] at tail
        rw [map_cons, tail, levelsOf_append_slash noSlash, inits_cons, tail_cons]
        have head : (levelsOf rest).inits = [] :: (levelsOf rest).inits.tail := by
          cases levelsOf rest <;> simp
        rw [head, map_cons, map_cons, tail_cons, map_map]
        congr 1
        · simpa [TopicLevel.stop, intercalate] using first
        · apply map_congr_left
          intro ls member
          -- the initial segments past the first are not empty
          cases ls with
          | cons l ls => simp [intercalate, intersperse]
          | nil =>
            cases tailLevels : levelsOf rest with
            | nil | cons l ls => simp [tailLevels] at member
    · grind

variable {topic : Bytes}

theorem map_take_wsTopicPrefixes {lens : List Nat} (found : wsTopicPrefixes topic = some lens) :
    lens.map topic.take = (levelsOf topic).inits.map [slash].intercalate := by
  unfold wsTopicPrefixes at found
  rw [Option.map_eq_some_iff] at found
  obtain ⟨levels, split, rfl⟩ := found
  have stops : levels.map (fun l => topic.take l.stop) =
      (levelsOf topic).inits.tail.map [slash].intercalate := by
    unfold wsTopicSplit at split
    split at split
    · cases split
    · have loop := take_stop_wsTopicSplitLoop split not_mem_nil length_nil
      simpa using loop
  have head : (levelsOf topic).inits = [] :: (levelsOf topic).inits.tail := by
    cases levelsOf topic <;> simp
  rw [head, map_cons, map_cons, map_map, ← stops]
  rfl

theorem interestPrefixLoop_eq (pre : Nat) (levels : List TopicLevel) :
    (pre :: levels.map stop)[(Pattern.literalPrefix ((levels.map bytes).map patternOf)).length]? =
      some (interestPrefixLoop pre levels) := by
  induction levels generalizing pre with
  | nil => rfl
  | cons level rest ih =>
    unfold interestPrefixLoop
    by_cases plus : level.bytes = plusLevel
    · have item : patternOf level.bytes = .one := by rw [plus]; rfl
      rw [if_pos (.inl plus), map_cons, map_cons, map_cons, item]
      rfl
    · by_cases hash : level.bytes = hashLevel
      · have item : patternOf level.bytes = .rest := by rw [hash]; rfl
        rw [if_pos (.inr hash), map_cons, map_cons, map_cons, item]
        rfl
      · simp only [map_cons, patternOf, plus, hash, if_false, or_self,
          Pattern.literalPrefix, length_cons, getElem?_cons_succ]
        exact ih level.stop

theorem literalPrefix_prefix (levels : List Bytes) :
    Pattern.literalPrefix (levels.map patternOf) <+: levels := by
  induction levels with
  | nil => exact nil_prefix
  | cons level rest ih =>
    unfold patternOf
    rw [map_cons]
    split
    · exact nil_prefix
    · split
      · exact nil_prefix
      · exact prefix_cons_inj level |>.mpr ih

variable {filter : Bytes}

theorem take_wsTopicInterestPrefix
    (split : wsTopicSplit filter = some levels) : filter.take (wsTopicInterestPrefix filter) =
      [slash].intercalate (Pattern.literalPrefix ((levelsOf filter).map patternOf)) := by
  have bytes := bytes_of_wsTopicSplit split
  have prefixes : wsTopicPrefixes filter = some (0 :: levels.map stop) := by
    unfold wsTopicPrefixes
    rw [split]
    rfl
  have joins := map_take_wsTopicPrefixes prefixes
  have index := interestPrefixLoop_eq 0 levels
  rw [bytes] at index
  have entry := congrArg (·[(Pattern.literalPrefix
    ((levelsOf filter).map patternOf)).length]?) joins
  simp only [getElem?_map, index, Option.map_some] at entry
  have initial := literalPrefix_prefix (levelsOf filter)
  have short := initial.length_le
  have bound : (Pattern.literalPrefix ((levelsOf filter).map patternOf)).length <
      (levelsOf filter).inits.length := by
    rw [length_inits]
    omega
  rw [getElem?_eq_getElem bound, getElem_inits, ← prefix_iff_eq_take.mp initial,
    Option.map_some, Option.some.injEq] at entry
  rw [← entry]
  unfold wsTopicInterestPrefix
  rw [split]

/-- The prefix under which a matching filter is filed is one of those the topic is looked up
under. -/
theorem interestPrefix_mem_wsTopicPrefixes
    (validFilter : wsTopicIsValidFilter filter = true) (validName : wsTopicIsValidName topic = true)
    (accepts : topicMatches filter topic = true) : ∃ lens, wsTopicPrefixes topic = some lens ∧
      filter.take (wsTopicInterestPrefix filter) ∈ lens.map topic.take := by
  obtain ⟨filterLevels, filterSplit⟩ := wsTopicSplit_of_wsTopicCheck validFilter
  obtain ⟨levels, split⟩ := wsTopicSplit_of_wsTopicCheck validName
  have prefixes : wsTopicPrefixes topic = some (0 :: levels.map stop) := by
    unfold wsTopicPrefixes
    rw [split]
    rfl
  refine ⟨_, prefixes, ?_⟩
  rw [map_take_wsTopicPrefixes prefixes, take_wsTopicInterestPrefix filterSplit]
  apply mem_map_of_mem
  rw [mem_inits]
  exact Pattern.literalPrefix_of_accepts accepts

/-! ## The filter -/

/-- `WS_INTEREST_BUCKETS`. -/
def wsInterestBuckets : Nat := 1024

abbrev InterestBucket := Fin wsInterestBuckets

/-- A slot's table: `WS_INTEREST_BUCKETS` counters of type `zend_atomic_int`. -/
abbrev InterestCounters := InterestBucket → BitVec 32

/-- The masked sum of `ws_interest_probe`. -/
def interestBucket (h : UInt32) : InterestBucket :=
  ⟨(h &&& 1023).toNat, by
    exact Nat.lt_of_le_of_lt Nat.and_le_right (by decide)⟩

/-- The FNV-1a loop of `ws_interest_probe`. -/
def fnv1a (key : Bytes) : UInt32 := key.foldl (fun h b => (h ^^^ b.toUInt32) * 16777619) 2166136261

/-- `ws_interest_probe`: `WS_INTEREST_PROBES` buckets, Kirsch-Mitzenmacher. `zendHash` is
`zend_inline_hash_func`, truncated; nothing depends on which function it is. -/
def wsInterestProbe (zendHash : Bytes → UInt32) (key : Bytes) : List InterestBucket :=
  let h1 := zendHash key
  let h2 := fnv1a key ||| 1
  [interestBucket (h1 + 0 * h2), interestBucket (h1 + 1 * h2), interestBucket (h1 + 2 * h2)]

/-- `hub->interest`: null for a slot that no worker holds. -/
abbrev InterestTables := Nat → Option InterestCounters

/-- `ws_interest_bump` in the worker that holds `slot`. -/
def wsInterestBump (zendHash : Bytes → UInt32) (tables : InterestTables) (slot : Nat)
    (filter : Bytes) (prefixLen : Nat) (delta : BitVec 32) : InterestTables :=
  match tables slot with
  | none => tables
  | some counters =>
      Function.update tables slot (some
        (bump (wsInterestProbe zendHash) counters (filter.take prefixLen) delta))

/-- `topic_hub_interest_add`. -/
def topicHubInterestAdd (zendHash : Bytes → UInt32) (tables : InterestTables) (slot : Nat)
    (filter : Bytes) (prefixLen : Nat) : InterestTables :=
  wsInterestBump zendHash tables slot filter prefixLen 1

/-- `topic_hub_interest_remove`. -/
def topicHubInterestRemove (zendHash : Bytes → UInt32) (tables : InterestTables) (slot : Nat)
    (filter : Bytes) (prefixLen : Nat) : InterestTables :=
  wsInterestBump zendHash tables slot filter prefixLen (-1)

/-- `ws_interest_build`: one row of buckets for each level-prefix, none for a topic that does
not split. -/
def wsInterestBuild (zendHash : Bytes → UInt32) (topic : Bytes) : List (List InterestBucket) :=
  match wsTopicPrefixes topic with
  | none => []
  | some lens => lens.map fun len => wsInterestProbe zendHash (topic.take len)

/-- `ws_interest_matches`. -/
def wsInterestMatches (tables : InterestTables) (slot : Nat)
    (interest : List (List InterestBucket)) : Bool :=
  match tables slot with
  | none => true
  | some counters =>
      if interest.length = 0 then true
      else interest.any fun row => row.all fun b => counters b != 0

theorem interestBucket_toNat (h : UInt32) : (interestBucket h).val = h.toNat % 1024 := by
  show (h &&& 1023).toNat = _
  rw [UInt32.toNat_and, show (1023 : UInt32).toNat = 2 ^ 10 - 1 from rfl,
    Nat.and_two_pow_sub_one_eq_mod]

/-- `h2` is forced odd so that the probes of a key are distinct. -/
theorem wsInterestProbe_nodup (zendHash : Bytes → UInt32) (key : Bytes) :
    (wsInterestProbe zendHash key).Nodup := by
  have odd : (fnv1a key ||| 1).toNat % 2 = 1 := by simp
  have value : ∀ i : UInt32, (interestBucket (zendHash key + i * (fnv1a key ||| 1))).val =
      ((zendHash key).toNat + i.toNat * (fnv1a key ||| 1).toNat) % 1024 := by
    intro i
    rw [interestBucket_toNat, UInt32.toNat_add, UInt32.toNat_mul]
    omega
  have h0 := value 0
  have h1 := value 1
  have h2 := value 2
  simp only [show (0 : UInt32).toNat = 0 from rfl, show (1 : UInt32).toNat = 1 from rfl,
    show (2 : UInt32).toNat = 2 from rfl] at h0 h1 h2
  unfold wsInterestProbe
  simp only [nodup_cons, mem_cons, not_mem_nil, or_false, not_or,
    nodup_nil, not_false_eq_true, and_true, Fin.ext_iff, h0, h1, h2]
  omega

/-! ## Histories -/

/-- A call that reaches the tables. `publish` is `ws_interest_publish` in a worker, `retire` the
locked part of its detach and `leave` the end of it. A worker that has retired still
publishes: the drain of its mailbox can tear sessions down. -/
inductive InterestEvent where
  | attach (worker slot : Nat)
  | retire (worker : Nat)
  | leave (worker : Nat)
  | publish (worker : Nat) (filter : Bytes) (joining : Bool)

/-- The tables, with what the history adds to them: the slot of each attachment, the worker
whose attach published the table of a slot, and the filters that a worker has added and not
yet removed. -/
structure InterestHistory where
  tables : InterestTables
  slotOf : Nat → Option Nat
  holder : Nat → Option Nat
  live : Nat → List Bytes

def InterestHistory.initial : InterestHistory :=
  ⟨fun _ => none, fun _ => none, fun _ => none, fun _ => []⟩

/-- One call, `none` for a call that cannot be made: a worker attaches to a free slot and only
once, and a removal has to pair with an earlier addition. -/
def InterestEvent.step (zendHash : Bytes → UInt32) (h : InterestHistory) :
    InterestEvent → Option InterestHistory
  | .attach worker slot =>
      if h.slotOf worker = none ∧ h.holder slot = none then some
        { tables := Function.update h.tables slot (some fun _ => 0)
          slotOf := Function.update h.slotOf worker (some slot)
          holder := Function.update h.holder slot (some worker)
          live := Function.update h.live worker [] }
      else none
  | .retire worker =>
      match h.slotOf worker with
      | none => none
      | some slot =>
          if h.holder slot = some worker then some { h with
            tables := Function.update h.tables slot none
            holder := Function.update h.holder slot none }
          else none
  | .leave worker =>
      match h.slotOf worker with
      | none => none
      | some slot =>
          if h.holder slot ≠ some worker then some { h with
            slotOf := Function.update h.slotOf worker none
            live := Function.update h.live worker [] }
          else none
  | .publish worker filter joining =>
      match h.slotOf worker with
      | none => none
      | some slot =>
          if joining then some { h with
            tables :=
              topicHubInterestAdd zendHash h.tables slot filter (wsTopicInterestPrefix filter)
            live := Function.update h.live worker (filter :: h.live worker) }
          else if filter ∈ h.live worker then some { h with
            tables :=
              topicHubInterestRemove zendHash h.tables slot filter (wsTopicInterestPrefix filter)
            live := Function.update h.live worker ((h.live worker).erase filter) }
          else none

def runInterest (zendHash : Bytes → UInt32) (events : List InterestEvent) :
    Option InterestHistory :=
  events.foldlM (InterestEvent.step zendHash) .initial

/-- The call leaves the tables of other workers alone: when a worker publishes, its slot has
no table or still the worker's own. -/
def InterestEvent.Own (h : InterestHistory) : InterestEvent → Prop
  | .publish worker _ _ => ∀ slot, h.slotOf worker = some slot →
      h.holder slot = none ∨ h.holder slot = some worker
  | _ => True

/-- Every call of a history, started in `h`, is of that kind. -/
def OwnHistory (zendHash : Bytes → UInt32) (h : InterestHistory) : List InterestEvent → Prop
  | [] => True
  | event :: rest => event.Own h ∧
      ∀ h', event.step zendHash h = some h' → OwnHistory zendHash h' rest

section Balance

variable {zendHash : Bytes → UInt32}

def interestKeys (filters : List Bytes) : List Bytes :=
  filters.map fun filter => filter.take (wsTopicInterestPrefix filter)

/-- A slot with a table has a holder, which is a worker of that slot, and the table is balanced
over the prefixes of the holder's outstanding filters. -/
structure InterestHistory.Balanced (zendHash : Bytes → UInt32) (h : InterestHistory) : Prop where
  vacant : ∀ slot, h.holder slot = none ↔ h.tables slot = none
  placed : ∀ {slot worker}, h.holder slot = some worker → h.slotOf worker = some slot
  counters : ∀ {slot worker counters}, h.holder slot = some worker →
    h.tables slot = some counters →
    CountingBloom.Balanced (wsInterestProbe zendHash) counters (interestKeys (h.live worker))

variable {slot : Nat} {tables : InterestTables}

theorem wsInterestBump_none (vacant : tables slot = none) (filter : Bytes) (len : Nat)
    (delta : BitVec 32) : wsInterestBump zendHash tables slot filter len delta = tables := by
  unfold wsInterestBump
  rw [vacant]

variable {counters : InterestCounters}

theorem wsInterestBump_some (table : tables slot = some counters) (filter : Bytes) (len : Nat)
    (delta : BitVec 32) :
    wsInterestBump zendHash tables slot filter len delta = Function.update tables slot
      (some (bump (wsInterestProbe zendHash) counters (filter.take len) delta)) := by
  unfold wsInterestBump
  rw [table]

variable {h : InterestHistory} {worker : Nat}

theorem InterestHistory.Balanced.publish (balanced : h.Balanced zendHash)
    (place : h.slotOf worker = some slot) (own : h.holder slot = none ∨ h.holder slot = some worker)
    (keeps : ∀ {counters}, CountingBloom.Balanced (wsInterestProbe zendHash) counters
      (interestKeys (h.live worker)) →
      CountingBloom.Balanced (wsInterestProbe zendHash) (CountingBloom.bump
      (wsInterestProbe zendHash) counters (filter.take (wsTopicInterestPrefix filter)) delta)
      (interestKeys live')) : InterestHistory.Balanced zendHash { h with
      tables := wsInterestBump zendHash h.tables slot filter (wsTopicInterestPrefix filter) delta
      live := Function.update h.live worker live' } := by
  -- the tables of the other slots belong to other workers
  have elsewhere : ∀ {other holder}, h.holder other = some holder → other ≠ slot →
      holder ≠ worker := by
    intro other holder held ne same
    subst same
    have there := balanced.placed held
    grind
  cases table : h.tables slot with
  | none =>
    rw [wsInterestBump_none table]
    refine { balanced with counters := ?_ }
    grind [balanced.counters]
  | some before =>
    rw [wsInterestBump_some table]
    refine ⟨?_, balanced.placed, ?_⟩
    · grind [balanced.vacant]
    · grind [balanced.counters]

theorem InterestEvent.step_balanced {h' : InterestHistory} {event : InterestEvent}
    (balanced : h.Balanced zendHash) (own : event.Own h)
    (step : event.step zendHash h = some h') : h'.Balanced zendHash := by
  cases event with
  | attach worker slot =>
    simp only [InterestEvent.step] at step
    split at step
    · next free =>
      cases step
      have fresh : ∀ {other holder}, h.holder other = some holder → holder ≠ worker := by
        intro other holder held same
        subst same
        rw [balanced.placed held] at free
        cases free.1
      refine ⟨?_, ?_, ?_⟩
      · grind [balanced.vacant]
      · grind [balanced.placed]
      · intro other holder counters held table
        by_cases here : other = slot
        · subst here
          simp only [Function.update_self, Option.some.injEq] at held table
          subst held table
          simp only [Function.update_self]
          exact balanced_nil
        · grind [balanced.counters]
    · cases step
  | retire worker =>
    simp only [InterestEvent.step] at step
    split at step
    · cases step
    · next slot place =>
      split at step
      · cases step
        refine ⟨?_, ?_, ?_⟩
        · grind [balanced.vacant]
        · grind [balanced.placed]
        · grind [balanced.counters]
      · cases step
  | leave worker =>
    simp only [InterestEvent.step] at step
    split at step
    · cases step
    · next slot place =>
      split at step
      · next away =>
        cases step
        have others : ∀ {other holder}, h.holder other = some holder → holder ≠ worker := by
          intro other holder held same
          subst same
          have there := balanced.placed held
          grind
        refine ⟨balanced.vacant, ?_, ?_⟩
        · grind [balanced.placed]
        · grind [balanced.counters]
      · cases step
  | publish worker filter joining =>
    simp only [InterestEvent.step] at step
    split at step
    · cases step
    · next slot place =>
      split at step
      · cases step
        exact balanced.publish place (own slot place) fun before => before.add _
      · split at step
        · next member =>
          cases step
          exact balanced.publish place (own slot place) fun before =>
            before.remove ((perm_cons_erase member).map _)
        · cases step

variable {events : List InterestEvent}

theorem foldlM_balanced {h₀ : InterestHistory} (start : h₀.Balanced zendHash)
    (own : OwnHistory zendHash h₀ events)
    (run : events.foldlM (InterestEvent.step zendHash) h₀ = some h) : h.Balanced zendHash := by
  induction events generalizing h₀ with
  | nil =>
    cases run
    exact start
  | cons event rest ih =>
    rw [foldlM_cons, Option.bind_eq_bind, Option.bind_eq_some_iff] at run
    obtain ⟨h₁, step, run⟩ := run
    exact ih (event.step_balanced start own.1 step) (own.2 h₁ step) run

theorem runInterest_balanced (own : OwnHistory zendHash .initial events)
    (run : runInterest zendHash events = some h) : h.Balanced zendHash := by
  apply foldlM_balanced _ own run
  refine ⟨fun _ => ⟨fun _ => rfl, fun _ => rfl⟩, ?_, ?_⟩
  · nofun
  · nofun

section

variable (balanced : h.Balanced zendHash) (held : h.holder slot = some worker)
include balanced held

theorem InterestHistory.Balanced.matches_of_mem (fits : (h.live worker).length < 2 ^ 32)
    (member : filter ∈ h.live worker) (validFilter : wsTopicIsValidFilter filter = true)
    (validName : wsTopicIsValidName topic = true) (accepts : topicMatches filter topic = true) :
    wsInterestMatches h.tables slot (wsInterestBuild zendHash topic) = true := by
  unfold wsInterestMatches
  cases table : h.tables slot with
  | none => rfl
  | some counters =>
    rcases interestPrefix_mem_wsTopicPrefixes validFilter validName accepts with
      ⟨lens, prefixes, shared⟩
    obtain ⟨len, lenMem, same⟩ := mem_map.mp shared
    have row : wsInterestProbe zendHash (topic.take len) ∈ wsInterestBuild zendHash topic := by
      grind [wsInterestBuild]
    have key : filter.take (wsTopicInterestPrefix filter) ∈ interestKeys (h.live worker) :=
      mem_map.mpr ⟨filter, member, rfl⟩
    have loads : ∀ b, CountingBloom.load (wsInterestProbe zendHash)
        (interestKeys (h.live worker)) b < 2 ^ 32 := by
      grind [CountingBloom.load_le_length, wsInterestProbe_nodup, interestKeys]
    have hit := (balanced.counters held table).contains loads key
    grind [CountingBloom.contains]

theorem InterestHistory.Balanced.counter_nonneg (fits : (h.live worker).length < 2 ^ 31)
    (table : h.tables slot = some counters) (b : InterestBucket) : 0 ≤ (counters b).toInt := by
  have small := load_le_length (wsInterestProbe_nodup zendHash)
    (interestKeys (h.live worker)) b
  rw [interestKeys, length_map] at small
  rw [(balanced.counters held table).toInt b (by rw [interestKeys]; omega)]
  exact Int.natCast_nonneg _

end

end Balance

/-- In a history of which no call reaches a table of another worker, the interest filter never
loses a subscriber, and its counters stay non-negative, as long as a worker has fewer than
`2 ^ 31` additions outstanding. -/
theorem interest_never_loses_subscriber (zendHash : Bytes → UInt32)
    (events : List InterestEvent) (h : InterestHistory)
    (run : runInterest zendHash events = some h) (own : OwnHistory zendHash .initial events)
    (fits : ∀ worker, (h.live worker).length < 2 ^ 31) :
    (∀ filter topic, wsTopicIsValidFilter filter = true → wsTopicIsValidName topic = true →
      topicMatches filter topic = true → (∃ lens, wsTopicPrefixes topic = some lens ∧
        filter.take (wsTopicInterestPrefix filter) ∈ lens.map topic.take) ∧
      ∀ slot worker, h.holder slot = some worker → filter ∈ h.live worker →
        wsInterestMatches h.tables slot (wsInterestBuild zendHash topic) = true) ∧
    ∀ slot counters, h.tables slot = some counters → ∀ b, 0 ≤ (counters b).toInt := by
  have balanced := runInterest_balanced own run
  refine ⟨?_, ?_⟩
  · intro filter topic validFilter validName accepts
    refine ⟨interestPrefix_mem_wsTopicPrefixes validFilter validName accepts, ?_⟩
    intro slot worker held member
    have small := fits worker
    exact balanced.matches_of_mem held (by omega) member validFilter validName accepts
  · intro slot counters table b
    cases held : h.holder slot with
    | none =>
      rw [balanced.vacant slot, table] at held
      cases held
    | some worker => exact balanced.counter_nonneg held (fits worker) table b

/-- A worker that subscribed `a/+` is not skipped by a publish to `a/b`. -/
theorem interest_never_loses_subscriber_wildcard :
    wsInterestMatches (topicHubInterestAdd (fun _ => 0) (fun _ => some fun _ => 0) 0
      [97, slash, plusByte] 1) 0 (wsInterestBuild (fun _ => 0) [97, slash, 98]) = true := by
  have applied := interest_never_loses_subscriber (fun _ => 0)
    [.attach 0 0, .publish 0 [97, slash, plusByte] true] _ rfl ?_ ?_
  · exact (applied.1 [97, slash, plusByte] [97, slash, 98] (by decide) (by decide)
      (by decide)).2 0 0 rfl (by decide)
  · refine ⟨trivial, fun h step => ⟨?_, fun _ _ => trivial⟩⟩
    cases step
    intro slot place
    cases place
    exact .inr rfl
  · intro worker
    by_cases first : worker = 0
    · subst first
      decide
    · simp [InterestHistory.initial, Function.update_of_ne first]

/-- Worker 0 subscribes `a`, retires from slot 0, and worker 1 attaches there. When the drain
of worker 0 tears its session down, the removal lands in the table of worker 1: one counter
is below zero, and had worker 1 subscribed `a` too, a publish to `a` would skip it. -/
theorem interest_removal_hits_reused_slot :
    (∃ h counters b, runInterest (fun _ => 0) [.attach 0 0, .publish 0 [97] true, .retire 0,
        .attach 1 0, .publish 0 [97] false] = some h ∧
      h.tables 0 = some counters ∧ (counters b).toInt < 0) ∧
    ∃ h, runInterest (fun _ => 0) [.attach 0 0, .publish 0 [97] true, .retire 0,
        .attach 1 0, .publish 1 [97] true, .publish 0 [97] false] = some h ∧
      h.holder 0 = some 1 ∧ [97] ∈ h.live 1 ∧ wsTopicIsValidFilter [97] = true ∧
      wsTopicIsValidName [97] = true ∧ topicMatches [97] [97] = true ∧
      wsInterestMatches h.tables 0 (wsInterestBuild (fun _ => 0) [97]) = false := by
  constructor
  · exact ⟨_, _, interestBucket 0, rfl, rfl, by decide⟩
  · exact ⟨_, rfl, rfl, by decide, by decide, by decide, by decide, by decide⟩

end TrueAsync.Websocket

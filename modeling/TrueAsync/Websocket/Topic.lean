import TrueAsync.Lib.Ascii
import TrueAsync.Lib.Pattern

/-!
# Topic grammar

The parsing half of `src/websocket/ws_topic_tree.c`: splitting a topic into levels, the
filter and name checks, and the two prefix functions that feed the interest filter. A C
string with its length is a list of bytes. `TopicMatches` is the reference meaning of an
MQTT filter, stated on the levels of the two strings and not on this code.
-/

namespace TrueAsync.Websocket

open TrueAsync.Lib List

abbrev Bytes := List UInt8

/-- `'/'`, the level separator. -/
def slash : UInt8 := 0x2f

/-- `'+'`, the one-level wildcard. -/
def plusByte : UInt8 := 0x2b

/-- `'#'`, the wildcard for the whole remainder. -/
def hashByte : UInt8 := 0x23

/-- The level `"+"`. -/
def plusLevel : Bytes := [plusByte]

/-- The level `"#"`. -/
def hashLevel : Bytes := [hashByte]

/-- `WS_TOPIC_MAX_LEVELS`. -/
def wsTopicMaxLevels : Nat := 128

/-- One entry of `ws_topic_levels_t`: `level[i]`, as an offset into the topic, with its
`len[i]` bytes. -/
structure TopicLevel where
  start : Nat
  bytes : Bytes
  deriving DecidableEq, Repr

/-- Offset of the first byte after the level: `level + len - topic`. -/
def TopicLevel.stop (level : TopicLevel) : Nat := level.start + level.bytes.length

/-- The loop of `ws_topic_split`. `level` are the bytes between `start` and `p`, `count` is
`out->count`. The end of the topic closes a level as a separator does. -/
def wsTopicSplitLoop (start : Nat) (level : Bytes) (count : Nat) : Bytes → Option (List TopicLevel)
  | [] => if count = wsTopicMaxLevels then none else some [⟨start, level⟩]
  | b :: rest =>
      if b ≠ slash then
        wsTopicSplitLoop start (level ++ [b]) count rest
      else if count = wsTopicMaxLevels then
        none
      else
        (wsTopicSplitLoop (start + level.length + 1) [] (count + 1) rest).map
          (⟨start, level⟩ :: ·)

/-- `ws_topic_split`. An empty level is legal, an empty topic is not. -/
def wsTopicSplit (topic : Bytes) : Option (List TopicLevel) :=
  if topic.length = 0 then none else wsTopicSplitLoop 0 [] 0 topic

/-- The loop of `ws_topic_check` over the levels. -/
def wsTopicCheckLevels (wildcardsOk : Bool) : List TopicLevel → Bool
  | [] => true
  | level :: rest =>
      if level.bytes = plusLevel ∨ level.bytes = hashLevel then
        if ¬ wildcardsOk then
          false
        else if level.bytes = hashLevel ∧ rest ≠ [] then
          -- '#' stands for the whole remainder, so nothing may follow it
          false
        else
          wsTopicCheckLevels wildcardsOk rest
      else if level.bytes.contains plusByte || level.bytes.contains hashByte then
        false
      else
        wsTopicCheckLevels wildcardsOk rest

/-- `ws_topic_check`. -/
def wsTopicCheck (topic : Bytes) (wildcardsOk : Bool) : Bool :=
  match wsTopicSplit topic with
  | none => false
  | some levels => wsTopicCheckLevels wildcardsOk levels

/-- `ws_topic_is_valid_filter`. -/
def wsTopicIsValidFilter (topic : Bytes) : Bool := wsTopicCheck topic true

/-- `ws_topic_is_valid_name`. -/
def wsTopicIsValidName (topic : Bytes) : Bool := wsTopicCheck topic false

/-- The loop of `ws_topic_interest_prefix`; `pre` is its running `prefix`. -/
def interestPrefixLoop (pre : Nat) : List TopicLevel → Nat
  | [] => pre
  | level :: rest =>
      if level.bytes = plusLevel ∨ level.bytes = hashLevel then pre
      else interestPrefixLoop level.stop rest

/-- `ws_topic_interest_prefix`: byte length of the filter's leading literal prefix. -/
def wsTopicInterestPrefix (filter : Bytes) : Nat :=
  match wsTopicSplit filter with
  | none => 0
  | some levels => interestPrefixLoop 0 levels

/-- `ws_topic_prefixes`: byte lengths of the topic's level-prefixes, the empty one first. -/
def wsTopicPrefixes (topic : Bytes) : Option (List Nat) :=
  (wsTopicSplit topic).map fun levels => 0 :: levels.map TopicLevel.stop

/-! ## The reference meaning -/

def levelsOf (topic : Bytes) : List Bytes := topic.splitOn slash

def patternOf (level : Bytes) : PatternItem Bytes :=
  if level = plusLevel then .one else if level = hashLevel then .rest else .lit level

/-- The MQTT rules: `+` matches exactly one level, a final `#` zero or more remaining ones,
and any other level matches byte for byte. -/
def topicMatches (filter topic : Bytes) : Bool :=
  Pattern.accepts ((levelsOf filter).map patternOf) (levelsOf topic)

/-! ## The split against the reference -/

theorem levelsOf_injective (h : levelsOf a = levelsOf b) : a = b := by
  have joined : ∀ topic : Bytes, [slash].intercalate (levelsOf topic) = topic :=
    fun _ => intercalate_splitOn slash
  rw [← joined a, h, joined b]

theorem levelsOf_append_slash (h : slash ∉ level) (rest : Bytes) :
    levelsOf (level ++ slash :: rest) = level :: levelsOf rest :=
  splitOn_append_cons_self_of_not_mem h rest

theorem levelsOf_of_notMem (h : slash ∉ level) : levelsOf level = [level] := splitOn_eq_singleton h

/-- What the split loop returns: the levels of everything from `start` on, when they fit. -/
theorem wsTopicSplitLoop_bytes (start : Nat) (level : Bytes) (count : Nat) (rest : Bytes)
    (noSlash : slash ∉ level) (room : count ≤ wsTopicMaxLevels) :
    (wsTopicSplitLoop start level count rest).map (·.map TopicLevel.bytes) =
      if count + (levelsOf (level ++ rest)).length ≤ wsTopicMaxLevels then
        some (levelsOf (level ++ rest)) else none := by
  induction rest generalizing start level count with
  | nil =>
    rw [append_nil, levelsOf_of_notMem noSlash]
    by_cases full : count = wsTopicMaxLevels
    · simp [wsTopicSplitLoop, full]
    · have : count + 1 ≤ wsTopicMaxLevels := by omega
      simp [wsTopicSplitLoop, full, this]
  | cons b rest ih =>
    by_cases sep : b = slash
    · subst sep
      rw [levelsOf_append_slash noSlash]
      by_cases full : count = wsTopicMaxLevels
      · simp [wsTopicSplitLoop, full]
      · have tail := ih (start + level.length + 1) [] (count + 1) (by simp) (by omega)
        simp only [nil_append] at tail
        simp only [wsTopicSplitLoop, ne_eq, not_true_eq_false, if_false, full, Option.map_map,
          length_cons]
        have split : (map TopicLevel.bytes ∘ fun x => (⟨start, level⟩ : TopicLevel) :: x) =
            (level :: ·) ∘ map TopicLevel.bytes := rfl
        rw [split, ← Option.map_map, tail]
        have shift : count + 1 + (levelsOf rest).length ≤ wsTopicMaxLevels ↔
            count + ((levelsOf rest).length + 1) ≤ wsTopicMaxLevels := by omega
        by_cases fits : count + ((levelsOf rest).length + 1) ≤ wsTopicMaxLevels
        · rw [if_pos fits, if_pos (shift.mpr fits)]
          rfl
        · rw [if_neg fits, if_neg (fun h => fits (shift.mp h))]
          rfl
    · have grown : slash ∉ level ++ [b] := by
        simp only [mem_append, mem_singleton, not_or]
        exact ⟨noSlash, fun h => sep h.symm⟩
      have step := ih start (level ++ [b]) count grown room
      simpa [wsTopicSplitLoop, sep] using step

theorem wsTopicSplit_bytes (topic : Bytes) : (wsTopicSplit topic).map (·.map TopicLevel.bytes) =
      if topic ≠ [] ∧ (levelsOf topic).length ≤ wsTopicMaxLevels then
        some (levelsOf topic) else none := by
  unfold wsTopicSplit
  by_cases empty : topic = []
  · simp [empty]
  · have loop := wsTopicSplitLoop_bytes 0 [] 0 topic (by simp) (Nat.zero_le _)
    rw [if_neg (by simpa using empty), loop]
    simp [empty]

theorem bytes_of_wsTopicSplit
    (h : wsTopicSplit topic = some levels) : levels.map TopicLevel.bytes = levelsOf topic := by
  have spec := wsTopicSplit_bytes topic
  rw [h, Option.map_some] at spec
  split at spec
  · exact Option.some.inj spec
  · cases spec

theorem wsTopicSplit_of_wsTopicCheck
    (h : wsTopicCheck topic wildcardsOk = true) : ∃ levels, wsTopicSplit topic = some levels := by
  unfold wsTopicCheck at h
  split at h
  · cases h
  · next levels found => exact ⟨levels, found⟩

/-! ## The grammar -/

/-- A wildcard is a level, never a part of one, and names have none. -/
def LevelAllowed (wildcardsOk : Bool) (level : Bytes) : Prop :=
  (level = plusLevel ∨ level = hashLevel) ∧ wildcardsOk = true ∨ plusByte ∉ level ∧ hashByte ∉ level

/-- The documented grammar of filters, and without wildcards that of names. -/
structure TopicGrammar (wildcardsOk : Bool) (topic : Bytes) : Prop where
  nonempty : topic ≠ []
  depth : (levelsOf topic).length ≤ wsTopicMaxLevels
  allowed : ∀ level ∈ levelsOf topic, LevelAllowed wildcardsOk level
  hashLast : hashLevel ∉ (levelsOf topic).dropLast

theorem wsTopicCheckLevels_iff (wildcardsOk : Bool) (levels : List TopicLevel) :
    wsTopicCheckLevels wildcardsOk levels = true ↔
      (∀ level ∈ levels.map TopicLevel.bytes, LevelAllowed wildcardsOk level) ∧
        hashLevel ∉ (levels.map TopicLevel.bytes).dropLast := by
  induction levels with
  | nil => simp [wsTopicCheckLevels]
  | cons level rest ih =>
    have plus : plusByte ∈ plusLevel := mem_singleton_self _
    have hash : hashByte ∈ hashLevel := mem_singleton_self _
    -- a `#` in front of other levels is what `dropLast` keeps
    have last : hashLevel ∉ ((level :: rest).map TopicLevel.bytes).dropLast ↔
        ¬ (level.bytes = hashLevel ∧ rest ≠ []) ∧
          hashLevel ∉ (rest.map TopicLevel.bytes).dropLast := by
      cases rest <;> simp [eq_comm]
    rw [last, map_cons, forall_mem_cons]
    unfold wsTopicCheckLevels
    grind [LevelAllowed]

theorem wsTopicCheck_iff (topic : Bytes) (wildcardsOk : Bool) :
    wsTopicCheck topic wildcardsOk = true ↔ TopicGrammar wildcardsOk topic := by
  have split := wsTopicSplit_bytes topic
  unfold wsTopicCheck
  cases found : wsTopicSplit topic with
  | none =>
    grind [TopicGrammar]
  | some levels =>
    rw [found, Option.map_some] at split
    rw [wsTopicCheckLevels_iff, bytes_of_wsTopicSplit found]
    grind [TopicGrammar]

/-- What the split accepts is the join of its levels, and the two checks accept what the header
documents. -/
theorem topic_grammar (topic : Bytes) :
    (∀ levels ∈ wsTopicSplit topic, [slash].intercalate (levels.map TopicLevel.bytes) = topic) ∧
      (wsTopicIsValidFilter topic = true ↔ TopicGrammar true topic) ∧
      (wsTopicIsValidName topic = true ↔ TopicGrammar false topic) := by
  refine ⟨?_, wsTopicCheck_iff topic true, wsTopicCheck_iff topic false⟩
  intro levels found
  rw [bytes_of_wsTopicSplit found]
  exact intercalate_splitOn slash

/-- There is no check for NUL. -/
theorem nul_topic_accepted : wsTopicIsValidFilter [0x61, 0x00] = true ∧
    wsTopicIsValidName [0x61, 0x00] = true := by decide

end TrueAsync.Websocket

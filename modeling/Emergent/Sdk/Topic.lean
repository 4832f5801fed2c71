import Emergent.Kit.Text

/-!
# Subscription topics (`sdks/rust/src/subscribe.rs`)

A topic is a literal message type or a prefix selector ending in a single `*`.
`patternPrefix`, `classifyTopic` and `topicMatches` are the three functions of
the SDK; the engine's declaration table and acton's subscription manager use
the same rule.
-/

namespace Emergent.Sdk
open Kit.Text

/-- `MAX_PATTERN_LEN`, in UTF-8 bytes. -/
def maxPatternLen : ℕ := 256

inductive TopicKind where
  | exact
  | pattern
  deriving Repr, DecidableEq

inductive InvalidTopic where
  | empty
  | misplacedWildcard (topic : String)
  | patternTooLong (topic : String) (length : ℕ)
  deriving Repr, DecidableEq

/-- `tick.*` yields `tick.` and `*` yields the empty text; a topic without a
final `*`, or with another `*` before it, yields nothing. -/
def patternPrefix (topic : String) : Option String :=
  match stripSuffix topic '*' with
  | none => none
  | some pre => if containsChar pre '*' then none else some pre

def classifyTopic (topic : String) : Except InvalidTopic TopicKind :=
  if topic.toList.isEmpty then .error .empty
  else if !containsChar topic '*' then .ok .exact
  else if (patternPrefix topic).isNone then .error (.misplacedWildcard topic)
  else if maxPatternLen < topic.utf8ByteSize then
    .error (.patternTooLong topic topic.utf8ByteSize)
  else .ok .pattern

def topicMatches (topic messageType : String) : Bool :=
  match patternPrefix topic with
  | none => !containsChar topic '*' && topic == messageType
  | some pre => startsWith messageType pre

/-- `TopicPartition`: the two subscription kinds, each in the caller's order. -/
structure TopicPartition where
  exact : List String
  patterns : List String
  deriving Repr, DecidableEq

/-- `partition_topics`: the first invalid topic stops the split. -/
def partitionTopics : List String → Except InvalidTopic TopicPartition
  | [] => .ok ⟨[], []⟩
  | topic :: topics =>
    match classifyTopic topic with
    | .error e => .error e
    | .ok kind =>
      match partitionTopics topics with
      | .error e => .error e
      | .ok rest =>
        match kind with
        | .exact => .ok { rest with exact := topic :: rest.exact }
        | .pattern => .ok { rest with patterns := topic :: rest.patterns }

/-! ### The shape of a selector -/

theorem patternPrefix_eq_some {topic pre : String} :
    patternPrefix topic = some pre ↔ topic.toList = pre.toList ++ ['*'] ∧ '*' ∉ pre.toList := by
  unfold patternPrefix
  constructor
  · intro h
    split at h
    · cases h
    · rename_i p hp
      split at h
      · cases h
      · rename_i hstar
        have he : p = pre := Option.some.inj h
        subst he
        refine ⟨stripSuffix_eq_some.mp hp, ?_⟩
        exact containsChar_eq_false.mp (by simpa using hstar)
  · rintro ⟨hshape, hstar⟩
    have hp : stripSuffix topic '*' = some pre := stripSuffix_eq_some.mpr hshape
    simp only [hp, containsChar_eq_false.mpr hstar]
    rfl

theorem patternPrefix_eq_none_of_literal {topic : String} (h : '*' ∉ topic.toList) :
    patternPrefix topic = none := by
  cases hp : patternPrefix topic with
  | none => rfl
  | some pre =>
    have hshape := (patternPrefix_eq_some.mp hp).1
    exact absurd (by rw [hshape]; simp) h

theorem classifyTopic_exact {topic : String} (h : classifyTopic topic = .ok .exact) :
    '*' ∉ topic.toList := by
  unfold classifyTopic at h
  split_ifs at h with _ hstar
  · exact containsChar_eq_false.mp (by simpa using hstar)
  · cases h

theorem classifyTopic_pattern {topic : String} (h : classifyTopic topic = .ok .pattern) :
    ∃ pre, patternPrefix topic = some pre := by
  unfold classifyTopic at h
  split_ifs at h with _ _ hnone _
  · cases h
  · exact Option.ne_none_iff_exists'.mp (by simpa using hnone)

/-! ### What a topic selects -/

theorem topicMatches_pattern {topic pre messageType : String}
    (h : patternPrefix topic = some pre) :
    topicMatches topic messageType = startsWith messageType pre := by
  simp only [topicMatches, h]

theorem topicMatches_literal {topic messageType : String} (h : '*' ∉ topic.toList) :
    topicMatches topic messageType = true ↔ topic = messageType := by
  simp [topicMatches, patternPrefix_eq_none_of_literal h, h, containsChar]

theorem topicMatches_cases {topic messageType : String}
    (h : topicMatches topic messageType = true) :
    topic = messageType ∨
      ∃ pre, patternPrefix topic = some pre ∧ pre.toList <+: messageType.toList := by
  unfold topicMatches at h
  split at h
  · left
    rw [Bool.and_eq_true, beq_iff_eq] at h
    exact h.2
  · rename_i pre hp
    exact Or.inr ⟨pre, hp, startsWith_iff.mp h⟩

/-- A prefix without a `*` of a selector is a prefix of the selector's own
prefix: the final `*` cannot be part of it. -/
theorem prefix_of_selector {topic pre declared : String}
    (hp : patternPrefix topic = some pre) (hd : '*' ∉ declared.toList)
    (h : declared.toList <+: topic.toList) : declared.toList <+: pre.toList := by
  have hshape := (patternPrefix_eq_some.mp hp).1
  rw [hshape] at h
  rcases List.prefix_concat_iff.mp h with heq | hpre
  · exact absurd (by rw [heq]; simp) hd
  · exact hpre

example : topicMatches "timer.*" "timer.tick" = true := by decide
example : classifyTopic "system.*.error" = .error (.misplacedWildcard "system.*.error") := by
  decide

/-! ### The split -/

/-- The two parts of a split are the topics of either kind, and every topic is of one. -/
theorem partitionTopics_ok {topics : List String} {partition : TopicPartition}
    (h : partitionTopics topics = .ok partition) (t : String) :
    (t ∈ partition.exact ↔ t ∈ topics ∧ classifyTopic t = .ok .exact) ∧
      (t ∈ partition.patterns ↔ t ∈ topics ∧ classifyTopic t = .ok .pattern) ∧
      (t ∈ topics → classifyTopic t = .ok .exact ∨ classifyTopic t = .ok .pattern) := by
  induction topics generalizing partition with
  | nil =>
    cases h
    simp
  | cons head topics ih =>
    rw [partitionTopics] at h
    cases hkind : classifyTopic head with
    | error e => simp [hkind] at h
    | ok kind =>
      cases hrest : partitionTopics topics with
      | error e => simp [hkind, hrest] at h
      | ok rest =>
        simp only [hkind, hrest] at h
        obtain ⟨hexact, hpatterns, hall⟩ := ih hrest
        cases kind with
        | exact =>
          obtain rfl := Except.ok.inj h
          by_cases hhead : t = head
          · subst hhead
            simp [hkind, hpatterns]
          · simpa [hhead, hexact, hpatterns] using hall
        | pattern =>
          obtain rfl := Except.ok.inj h
          by_cases hhead : t = head
          · subst hhead
            simp [hkind, hexact]
          · simpa [hhead, hexact, hpatterns] using hall

end Emergent.Sdk

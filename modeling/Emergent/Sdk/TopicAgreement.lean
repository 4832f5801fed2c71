import Emergent.Sdk.CodeUnits
import Emergent.Sdk.Topic

/-!
# One topic rule in four languages

`subscribe.rs`, `topics.ts`, `topics.py` and `topics.go` hold the same four
functions, each over the strings of its language; they agree with one another
on every text. Beside them stand two matchers of the message types: that of
Rust calls `topic_matches`, that of Go (`types.go`) has a rule of its own.
-/

namespace Emergent.Sdk
open Kit.Text Kit.PrefixCode

/-! ### The four functions over the code units of a language -/

def starUnit : ℕ := '*'.toNat

def patternPrefixIn (d : Dialect) (topic : String) : Option (List ℕ) :=
  soleFinal starUnit (d.units topic)

def classifyTopicIn (d : Dialect) (topic : String) : Except InvalidTopic TopicKind :=
  if (d.units topic).isEmpty then .error .empty
  else if !(d.units topic).contains starUnit then .ok .exact
  else if (patternPrefixIn d topic).isNone then .error (.misplacedWildcard topic)
  else if maxPatternLen < byteLength topic then
    .error (.patternTooLong topic (byteLength topic))
  else .ok .pattern

def topicMatchesIn (d : Dialect) (topic messageType : String) : Bool :=
  match patternPrefixIn d topic with
  | none => !(d.units topic).contains starUnit && topic == messageType
  | some pre => pre.isPrefixOf (d.units messageType)

/-- The loop of `partition_topics`, with the two lists built so far. -/
def partitionFrom (d : Dialect) (split : TopicPartition) :
    List String → Except InvalidTopic TopicPartition
  | [] => .ok split
  | topic :: topics =>
    match classifyTopicIn d topic with
    | .error e => .error e
    | .ok .exact => partitionFrom d { split with exact := split.exact ++ [topic] } topics
    | .ok .pattern =>
      partitionFrom d { split with patterns := split.patterns ++ [topic] } topics

def partitionTopicsIn (d : Dialect) (topics : List String) :
    Except InvalidTopic TopicPartition := partitionFrom d ⟨[], []⟩ topics

namespace Ts

def patternPrefix := patternPrefixIn .typescript
def classifyTopic := classifyTopicIn .typescript
def topicMatches := topicMatchesIn .typescript
def partitionTopics := partitionTopicsIn .typescript

end Ts

namespace Py

def patternPrefix := patternPrefixIn .python
def classifyTopic := classifyTopicIn .python
def topicMatches := topicMatchesIn .python
def partitionTopics := partitionTopicsIn .python

end Py

namespace Go

def patternPrefix := patternPrefixIn .go
def classifyTopic := classifyTopicIn .go
def topicMatches := topicMatchesIn .go
def partitionTopics := partitionTopicsIn .go

/-- `MessageType.MatchesPattern`: equality, or a final `.*` with what stands before it. -/
def matchesPattern (messageType pattern : String) : Bool :=
  let p := Dialect.go.units pattern
  let mt := Dialect.go.units messageType
  if p == mt then true
  else if ['.'.toNat, starUnit].isSuffixOf p then
    (p.take (p.length - 2) ++ ['.'.toNat]).isPrefixOf mt
  else false

end Go

namespace Rust

/-- `MessageType::matches_pattern`, of the string the type holds. -/
def matchesPattern (messageType pattern : String) : Bool :=
  topicMatchesIn .rust pattern messageType

end Rust

/-! ### Units and characters -/

variable {d : Dialect} {topic messageType : String}

theorem isMark_star (d : Dialect) : IsMark d.charUnits '*' starUnit := d.isMark (by decide)

theorem units_injective (h : d.units topic = d.units messageType) : topic = messageType :=
  String.toList_injective (encode_injective d.isPrefixCode h)

theorem contains_star_units : (d.units topic).contains starUnit = containsChar topic '*' := by
  rw [Bool.eq_iff_iff, List.contains_iff_mem, containsChar, List.contains_iff_mem]
  exact mem_encode (isMark_star d) topic.toList

theorem isEmpty_units : (d.units topic).isEmpty = topic.toList.isEmpty := by
  rw [Bool.eq_iff_iff, List.isEmpty_iff, List.isEmpty_iff]
  exact encode_eq_nil d.isPrefixCode

theorem patternPrefixIn_eq : patternPrefixIn d topic = (patternPrefix topic).map d.units := by
  have hchars : soleFinal '*' topic.toList = (patternPrefix topic).map String.toList := by
    cases hp : patternPrefix topic with
    | some pre =>
      rw [Option.map_some, soleFinal_eq_some]
      exact patternPrefix_eq_some.mp hp
    | none =>
      rw [Option.map_none]
      cases hs : soleFinal '*' topic.toList with
      | none => rfl
      | some before =>
        have hshape := soleFinal_eq_some.mp hs
        have hsome : patternPrefix topic = some (String.ofList before) := by
          rw [patternPrefix_eq_some, String.toList_ofList]
          exact hshape
        rw [hp] at hsome
        cases hsome
  rw [patternPrefixIn, Dialect.units, soleFinal_encode d.isPrefixCode (isMark_star d), hchars,
    Option.map_map]
  rfl

theorem isPrefixOf_units {pre : String} :
    (d.units pre).isPrefixOf (d.units messageType) = startsWith messageType pre := by
  rw [Bool.eq_iff_iff, List.isPrefixOf_iff_prefix, startsWith_iff]
  exact encode_prefix_iff d.isPrefixCode _ _

/-! ### Each language against the first -/

theorem classifyTopicIn_eq : classifyTopicIn d topic = classifyTopic topic := by
  have hnone : (patternPrefixIn d topic).isNone = (patternPrefix topic).isNone := by
    rw [patternPrefixIn_eq]
    cases patternPrefix topic <;> rfl
  rw [classifyTopicIn, classifyTopic, isEmpty_units, contains_star_units, hnone, byteLength_eq]

theorem topicMatchesIn_eq : topicMatchesIn d topic messageType = topicMatches topic messageType := by
  rw [topicMatchesIn, topicMatches, patternPrefixIn_eq, contains_star_units]
  cases patternPrefix topic with
  | none => rfl
  | some pre => exact isPrefixOf_units

theorem partitionFrom_eq (topics : List String) (split : TopicPartition) :
    partitionFrom d split topics =
      (partitionTopics topics).map fun rest =>
        ⟨split.exact ++ rest.exact, split.patterns ++ rest.patterns⟩ := by
  induction topics generalizing split with
  | nil =>
    simp only [partitionFrom, partitionTopics, Except.map, List.append_nil]
  | cons topic topics ih =>
    rw [partitionFrom, partitionTopics, classifyTopicIn_eq]
    cases classifyTopic topic with
    | error e => rfl
    | ok kind =>
      cases kind with
      | exact =>
        dsimp only
        rw [ih]
        cases partitionTopics topics with
        | error e => rfl
        | ok rest => simp only [Except.map, List.append_assoc, List.singleton_append]
      | pattern =>
        dsimp only
        rw [ih]
        cases partitionTopics topics with
        | error e => rfl
        | ok rest => simp only [Except.map, List.append_assoc, List.singleton_append]

theorem partitionTopicsIn_eq (topics : List String) :
    partitionTopicsIn d topics = partitionTopics topics := by
  rw [partitionTopicsIn, partitionFrom_eq]
  cases partitionTopics topics with
  | error e => rfl
  | ok rest => rfl

/-! ### The matcher of Go's message types -/

theorem Go.matchesPattern_iff {pattern : String} :
    Go.matchesPattern messageType pattern = true ↔
      pattern = messageType ∨ ∃ q, pattern.toList = q ++ ['.', '*'] ∧
        q ++ ['.'] <+: messageType.toList := by
  have hdot : IsMark Dialect.go.charUnits '.' '.'.toNat := Dialect.go.isMark (by decide)
  have hsuffix : ∀ units, Dialect.go.units pattern = units ++ ['.'.toNat, starUnit] ↔
      ∃ q, pattern.toList = q ++ ['.', '*'] ∧ units = encode Dialect.go.charUnits q := by
    intro units
    have hcons : units ++ ['.'.toNat, starUnit] = (units ++ ['.'.toNat]) ++ [starUnit] := by simp
    rw [hcons, Dialect.units, encode_eq_snoc Dialect.go.isPrefixCode (isMark_star .go)]
    constructor
    · rintro ⟨ys, hpattern, hys⟩
      obtain ⟨q, hq, hunits⟩ := (encode_eq_snoc Dialect.go.isPrefixCode hdot).mp hys.symm
      exact ⟨q, by rw [hpattern, hq]; simp, hunits⟩
    · rintro ⟨q, hpattern, hunits⟩
      refine ⟨q ++ ['.'], by rw [hpattern]; simp, ?_⟩
      rw [encode_snoc hdot, hunits]
  unfold Go.matchesPattern
  dsimp only
  by_cases heq : pattern = messageType
  · rw [heq]
    simp
  · have hunits : (Dialect.go.units pattern == Dialect.go.units messageType) = false := by
      apply beq_false_of_ne
      intro h
      exact heq (units_injective h)
    rw [hunits, if_neg Bool.false_ne_true]
    by_cases hs : ['.'.toNat, starUnit].isSuffixOf (Dialect.go.units pattern) = true
    · rw [if_pos hs]
      obtain ⟨units, hu⟩ := List.isSuffixOf_iff_suffix.mp hs
      obtain ⟨q, hpattern, hq⟩ := (hsuffix units).mp hu.symm
      have htake : (Dialect.go.units pattern).take ((Dialect.go.units pattern).length - 2) =
          units := by
        rw [← hu, List.length_append]
        exact List.take_left' (by simp)
      rw [htake, hq, ← encode_snoc hdot, List.isPrefixOf_iff_prefix, Dialect.units,
        encode_prefix_iff Dialect.go.isPrefixCode]
      constructor
      · intro hprefix
        exact Or.inr ⟨q, hpattern, hprefix⟩
      · rintro (h | ⟨q', hpattern', hprefix⟩)
        · exact absurd h heq
        · have hqq : q' = q := List.append_cancel_right (hpattern'.symm.trans hpattern)
          rw [← hqq]
          exact hprefix
    · rw [if_neg hs]
      constructor
      · intro h
        cases h
      · rintro (h | ⟨q, hpattern, _⟩)
        · exact absurd h heq
        · exact absurd (List.isSuffixOf_iff_suffix.mpr
            ⟨_, ((hsuffix _).mpr ⟨q, hpattern, rfl⟩).symm⟩) hs

/-- A `*` stands somewhere but not as a sole final one. -/
def MisplacedStar (topic : String) : Prop := '*' ∈ topic.toList ∧ patternPrefix topic = none

/-- Where Go's matcher goes its own way: on a misplaced `*` that it takes literally or
after a final `.*`, and on a selector whose `*` does not follow a dot. -/
def GoMatcherDiffers (topic messageType : String) : Prop :=
  (topic = messageType ∧ MisplacedStar topic) ∨
  (topic ≠ messageType ∧ ∃ q, topic.toList = q ++ ['.', '*'] ∧ '*' ∈ q ∧
    q ++ ['.'] <+: messageType.toList) ∨
  (topic ≠ messageType ∧ ∃ pre, patternPrefix topic = some pre ∧
    pre.toList.getLast? ≠ some '.' ∧ pre.toList <+: messageType.toList)

theorem topicMatches_self : topicMatches topic topic = true ↔ ¬ MisplacedStar topic := by
  unfold MisplacedStar
  cases hp : patternPrefix topic with
  | some pre =>
    rw [topicMatches_pattern hp, startsWith_iff, (patternPrefix_eq_some.mp hp).1]
    simp
  | none =>
    by_cases hstar : '*' ∈ topic.toList
    · have hc : containsChar topic '*' = true := by simpa [containsChar] using hstar
      simp [topicMatches, hp, hc, hstar]
    · rw [topicMatches_literal hstar]
      simp [hstar]

theorem Go.matchesPattern_eq :
    Go.matchesPattern messageType topic = Sdk.topicMatches topic messageType ↔
      ¬ GoMatcherDiffers topic messageType := by
  unfold GoMatcherDiffers
  by_cases heq : topic = messageType
  · have hgo : Go.matchesPattern messageType topic = true :=
      Go.matchesPattern_iff.mpr (Or.inl heq)
    rw [hgo, ← heq, eq_comm, topicMatches_self]
    simp
  · rw [Bool.eq_iff_iff, Go.matchesPattern_iff]
    simp only [heq, false_and, false_or, not_false_eq_true, true_and, ne_eq]
    cases hp : Sdk.patternPrefix topic with
    | some pre =>
      have hshape := (patternPrefix_eq_some.mp hp).1
      rw [topicMatches_pattern hp, startsWith_iff]
      have hdotted : ∀ q, topic.toList = q ++ ['.', '*'] ↔ pre.toList = q ++ ['.'] := by
        intro q
        have hcons : q ++ ['.', '*'] = (q ++ ['.']) ++ ['*'] := by simp
        rw [hshape, hcons]
        exact ⟨List.append_cancel_right, fun h => by rw [h]⟩
      have hnostar : ∀ q, topic.toList = q ++ ['.', '*'] → '*' ∉ q := by
        intro q hq hmem
        apply (patternPrefix_eq_some.mp hp).2
        rw [(hdotted q).mp hq]
        exact List.mem_append_left _ hmem
      constructor
      · intro hiff hdiffers
        rcases hdiffers with ⟨q, hq, hmem, _⟩ | ⟨pre', hpre', hlast, hprefix⟩
        · exact hnostar q hq hmem
        · have hsame : pre = pre' := Option.some.inj hpre'
          subst hsame
          obtain ⟨q, hq, _⟩ := hiff.mpr hprefix
          apply hlast
          rw [(hdotted q).mp hq, List.getLast?_concat]
      · intro hsame
        constructor
        · rintro ⟨q, hq, hprefix⟩
          rw [(hdotted q).mp hq]
          exact hprefix
        · intro hprefix
          have hlast : pre.toList.getLast? = some '.' := by
            by_contra hne
            exact hsame (Or.inr ⟨pre, rfl, hne, hprefix⟩)
          have hsplit := List.dropLast_append_getLast? '.' hlast
          exact ⟨pre.toList.dropLast, (hdotted _).mpr hsplit.symm, by rw [hsplit]; exact hprefix⟩
    | none =>
      have hfalse : Sdk.topicMatches topic messageType = false := by
        simp [Sdk.topicMatches, hp, heq]
      rw [hfalse]
      have hinside : ∀ q, topic.toList = q ++ ['.', '*'] → '*' ∈ q := by
        intro q hq
        by_contra hmem
        have hsome : Sdk.patternPrefix topic = some (String.ofList (q ++ ['.'])) := by
          rw [patternPrefix_eq_some, String.toList_ofList]
          refine ⟨by rw [hq]; simp, ?_⟩
          simp [hmem]
        rw [hp] at hsome
        cases hsome
      constructor
      · intro hiff hdiffers
        rcases hdiffers with ⟨q, hq, _, hprefix⟩ | ⟨pre, hpre, _⟩
        · exact Bool.false_ne_true (hiff.mp ⟨q, hq, hprefix⟩)
        · cases hpre
      · intro hsame
        constructor
        · rintro ⟨q, hq, hprefix⟩
          exact absurd (Or.inl ⟨q, hq, hinside q hq, hprefix⟩) hsame
        · intro h
          cases h

/-! ### The agreement -/

/-- What the topic rules of the languages say of one list of topics, and of one topic and
one message type. -/
structure TopicRulesAgree (topics : List String) (topic messageType : String) : Prop where
  partition : ∀ d, partitionTopicsIn d topics = partitionTopicsIn .rust topics
  selection : ∀ d, topicMatchesIn d topic messageType = topicMatchesIn .rust topic messageType
  exact : ∀ d, classifyTopicIn d topic = .ok .exact →
    (topicMatchesIn d topic messageType = true ↔ topic = messageType)
  pattern : ∀ d, classifyTopicIn d topic = .ok .pattern →
    ∃ pre, topic.toList = pre ++ ['*'] ∧
      (topicMatchesIn d topic messageType = true ↔ pre <+: messageType.toList)
  rustMatcher : Rust.matchesPattern messageType topic = topicMatchesIn .rust topic messageType
  goMatcher : Go.matchesPattern messageType topic = topicMatchesIn .go topic messageType

/-- The topic rules agree exactly where Go's matcher follows the common one. -/
theorem topicRulesAgree_iff (topics : List String) (topic messageType : String) :
    TopicRulesAgree topics topic messageType ↔ ¬ GoMatcherDiffers topic messageType := by
  constructor
  · intro h
    have hgo := h.goMatcher
    rw [topicMatchesIn_eq] at hgo
    exact Go.matchesPattern_eq.mp hgo
  · intro h
    constructor
    · intro d
      rw [partitionTopicsIn_eq, partitionTopicsIn_eq]
    · intro d
      rw [topicMatchesIn_eq, topicMatchesIn_eq]
    · intro d hexact
      rw [classifyTopicIn_eq] at hexact
      rw [topicMatchesIn_eq]
      exact topicMatches_literal (classifyTopic_exact hexact)
    · intro d hpattern
      rw [classifyTopicIn_eq] at hpattern
      obtain ⟨pre, hpre⟩ := classifyTopic_pattern hpattern
      refine ⟨pre.toList, (patternPrefix_eq_some.mp hpre).1, ?_⟩
      rw [topicMatchesIn_eq, topicMatches_pattern hpre, startsWith_iff]
    · rfl
    · rw [topicMatchesIn_eq]
      exact Go.matchesPattern_eq.mpr h

/-- Go's message types do not know the bare `*`. -/
theorem topicRulesAgree_bare_star : ¬ TopicRulesAgree [] "*" "timer.tick" := by
  intro h
  have hgo := h.goMatcher
  revert hgo
  decide

end Emergent.Sdk

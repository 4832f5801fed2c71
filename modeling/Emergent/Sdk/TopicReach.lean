import Emergent.Sdk.Topic
import Emergent.Sdk.Types

/-!
# What a subscription topic can reach

`classify_topic` looks at where the `*` stands, `MessageType::new` at every
character. A topic the first accepts reaches a message type of the second
exactly when its own text is one, or is the opening of one.
-/

namespace Emergent.Sdk
open Kit.Text

/-! ### The texts of the errors -/

/-- `topic.split('*').next()` -/
def usablePrefix (topic : String) : String :=
  String.ofList (topic.toList.takeWhile (· != '*'))

/-- The sentence of each error; the languages differ in how they quote a topic. -/
def InvalidTopic.displayWith (quote : String → String) : InvalidTopic → String
  | .empty => "subscription topic cannot be empty"
  | .misplacedWildcard topic =>
    let selector := usablePrefix topic ++ "*"
    s!"subscription topic {quote topic} can never match: '*' is only a wildcard as the " ++
      s!"final character, so write a prefix selector such as {quote selector} instead"
  | .patternTooLong topic length =>
    s!"subscription topic {quote topic} is {length} bytes, over the {maxPatternLen}-byte " ++
      "limit for a wildcard topic"

/-- The text in Rust, TypeScript and Python; Go quotes with `%q`. -/
def InvalidTopic.display : InvalidTopic → String :=
  InvalidTopic.displayWith fun topic => "'" ++ topic ++ "'"

/-! ### Openings of message types -/

/-- Some valid message type is selected by the topic. -/
def Satisfiable (topic : String) : Prop :=
  ∃ messageType, ValidMessageType messageType ∧ topicMatches topic messageType = true

/-- A text with which a valid message type can start. -/
def OpensMessageType (text : String) : Prop :=
  text.toList.head? ≠ some '.' ∧ ¬ ['.', '.'] <:+: text.toList ∧
    text.toList.all typeChar = true

/-- The text of a topic agrees with the grammar of message types: all of it for a literal,
what stands before the `*` for a selector. -/
def WellFormedText (topic : String) : Prop :=
  match patternPrefix topic with
  | some pre => OpensMessageType pre
  | none => ValidMessageType topic

instance (text : String) : Decidable (OpensMessageType text) :=
  inferInstanceAs (Decidable (_ ∧ _ ∧ _))

instance (topic : String) : Decidable (WellFormedText topic) :=
  match h : patternPrefix topic with
  | some pre => decidable_of_iff (OpensMessageType pre) (by rw [WellFormedText, h])
  | none => decidable_of_iff (ValidMessageType topic) (by rw [WellFormedText, h])

theorem OpensMessageType.of_prefix {text messageType : String}
    (hvalid : ValidMessageType messageType) (h : text.toList <+: messageType.toList) :
    OpensMessageType text := by
  obtain ⟨_, hends, hdots, hchars⟩ := hvalid
  refine ⟨?_, ?_, ?_⟩
  · intro hhead
    apply hends
    left
    obtain ⟨rest, hrest⟩ := h
    rw [← hrest, List.head?_append, hhead]
    rfl
  · intro hwithin
    exact hdots (hwithin.trans h.isInfix)
  · rw [List.all_eq_true] at hchars ⊢
    intro c hc
    exact hchars c (h.subset hc)

/-- One more letter makes a message type of any opening, the empty one included. -/
theorem OpensMessageType.snoc_letter {text : String} (h : OpensMessageType text) :
    ValidMessageType (String.ofList (text.toList ++ ['a'])) := by
  obtain ⟨hhead, hdots, hchars⟩ := h
  unfold ValidMessageType
  rw [String.toList_ofList]
  refine ⟨by simp, ?_, ?_, ?_⟩
  · rintro (hfirst | hlast)
    · cases htext : text.toList with
      | nil =>
        rw [htext] at hfirst
        revert hfirst
        decide
      | cons c rest =>
        rw [htext] at hfirst hhead
        exact hhead hfirst
    · simp at hlast
  · intro hwithin
    rcases List.infix_concat_iff.mp hwithin with hsuffix | hinside
    · have hlast := List.IsSuffix.getLast hsuffix (by simp)
      simp at hlast
    · exact hdots hinside
  · rw [List.all_append, hchars]
    rfl

/-! ### Accepted topics -/

theorem no_star_of_valid {messageType : String} (h : ValidMessageType messageType) :
    '*' ∉ messageType.toList := by
  intro hmem
  have hchar := List.all_eq_true.mp h.2.2.2 '*' hmem
  revert hchar
  decide

/-- A topic reaches a message type exactly when its text has the right shape, whatever
`classify_topic` says of it. -/
theorem satisfiable_iff {topic : String} : Satisfiable topic ↔ WellFormedText topic := by
  unfold WellFormedText
  cases hp : patternPrefix topic with
  | some pre =>
    constructor
    · rintro ⟨m, hm, hmatch⟩
      rw [topicMatches_pattern hp, startsWith_iff] at hmatch
      exact OpensMessageType.of_prefix hm hmatch
    · intro hopens
      refine ⟨_, hopens.snoc_letter, ?_⟩
      rw [topicMatches_pattern hp, startsWith_iff, String.toList_ofList]
      exact List.prefix_append pre.toList ['a']
  | none =>
    constructor
    · rintro ⟨m, hm, hmatch⟩
      rcases topicMatches_cases hmatch with heq | ⟨pre, hpre, _⟩
      · rw [heq]
        exact hm
      · rw [hp] at hpre
        cases hpre
    · intro hvalid
      exact ⟨topic, hvalid, (topicMatches_literal (no_star_of_valid hvalid)).mpr rfl⟩

theorem classifyTopic_ok_of_satisfiable {topic : String} (h : Satisfiable topic)
    (hlen : containsChar topic '*' = true → topic.utf8ByteSize ≤ maxPatternLen) :
    ∃ kind, classifyTopic topic = .ok kind := by
  have htext := satisfiable_iff.mp h
  unfold WellFormedText at htext
  cases hp : patternPrefix topic with
  | none =>
    rw [hp] at htext
    have hempty : ¬ topic.toList.isEmpty = true := by
      intro hnil
      exact htext.1 (List.isEmpty_iff.mp hnil)
    have hliteral := containsChar_eq_false.mpr (no_star_of_valid htext)
    refine ⟨.exact, ?_⟩
    rw [classifyTopic, if_neg hempty, hliteral]
    rfl
  | some pre =>
    have hshape := (patternPrefix_eq_some.mp hp).1
    have hempty : ¬ topic.toList.isEmpty = true := by
      rw [hshape]
      simp
    have hstar : containsChar topic '*' = true := by
      simp [containsChar, hshape]
    have hshort : ¬ maxPatternLen < topic.utf8ByteSize := by
      have := hlen hstar
      omega
    refine ⟨.pattern, ?_⟩
    simp [classifyTopic, hempty, hstar, hp, hshort]

theorem classifyTopic_ok_len {topic : String} {kind : TopicKind}
    (h : classifyTopic topic = .ok kind) (hstar : containsChar topic '*' = true) :
    topic.utf8ByteSize ≤ maxPatternLen := by
  unfold classifyTopic at h
  split_ifs at h with _ hliteral _ hlong
  · rw [hstar] at hliteral
    cases hliteral
  · omega

theorem classifyTopic_error_unsatisfiable {topic : String} {e : InvalidTopic}
    (h : classifyTopic topic = .error e) (hs : Satisfiable topic) :
    e = .patternTooLong topic topic.utf8ByteSize := by
  by_cases hlen : containsChar topic '*' = true → topic.utf8ByteSize ≤ maxPatternLen
  · obtain ⟨kind, hok⟩ := classifyTopic_ok_of_satisfiable hs hlen
    rw [hok] at h
    cases h
  · obtain ⟨hstar, hlong⟩ := Classical.not_imp.mp hlen
    have htext := satisfiable_iff.mp hs
    unfold WellFormedText at htext
    have hsome : (patternPrefix topic).isNone = false := by
      cases hp : patternPrefix topic with
      | none =>
        rw [hp] at htext
        have hnostar := containsChar_eq_false.mpr (no_star_of_valid htext)
        rw [hnostar] at hstar
        cases hstar
      | some pre => rfl
    have hempty : ¬ topic.toList.isEmpty = true := by
      intro hnil
      rw [containsChar, List.isEmpty_iff.mp hnil] at hstar
      cases hstar
    have hover : maxPatternLen < topic.utf8ByteSize := by omega
    simp only [classifyTopic, if_neg hempty, hstar, Bool.not_true, Bool.false_eq_true, if_false,
      hsome, if_pos hover, Except.error.injEq] at h
    exact h.symm

end Emergent.Sdk

import Emergent.Sdk.TopicReach

/-!
# Configured subscriptions (`config.rs`, `subscription_topic_issues`)

The configuration is refused for a topic `classify_topic` refuses. Sources
subscribe to nothing, so only handlers and sinks are read.
-/

namespace Emergent.Engine
open Emergent.Sdk Kit.Text

/-- What the check reads of a handler or a sink. -/
structure SubscriberConfig where
  name : String
  subscribes : List String
  deriving Repr, DecidableEq

/-- What the check reads of `EmergentConfig`. -/
structure SubscriberConfigs where
  handlers : List SubscriberConfig
  sinks : List SubscriberConfig
  deriving Repr, DecidableEq

inductive IssueCode where
  | configNotFound
  | readError
  | parseError
  | unknownField
  | invalidName
  | duplicateName
  | invalidRestartPolicy
  | invalidSubscriptionTopic
  | invalidApiAllowedHost
  | pathNotFound
  | connectionCapacity
  | wireFormatIgnored
  deriving Repr, DecidableEq

structure ConfigIssue where
  code : IssueCode
  message : String
  path : Option String
  deriving Repr, DecidableEq

def topicIssue (place name kind : String) (topic : String) (i : ℕ) : Option ConfigIssue :=
  match classifyTopic topic with
  | .ok _ => none
  | .error e => some
      { code := .invalidSubscriptionTopic
        message := s!"{kind} '{name}' subscribes to an invalid topic: {e.display}"
        path := some s!"{place}.subscribes[{i}]" }

/-- `subscription_topic_issues`, of one primitive's list. -/
def topicIssues (place name kind : String) (subscribes : List String) : List ConfigIssue :=
  subscribes.zipIdx.filterMap fun entry => topicIssue place name kind entry.1 entry.2

/-- `EmergentConfig::subscription_topic_issues` -/
def SubscriberConfigs.subscriptionTopicIssues (config : SubscriberConfigs) : List ConfigIssue :=
  (config.handlers.zipIdx.flatMap fun entry =>
      topicIssues s!"handlers[{entry.2}]" entry.1.name "handler" entry.1.subscribes) ++
    config.sinks.zipIdx.flatMap fun entry =>
      topicIssues s!"sinks[{entry.2}]" entry.1.name "sink" entry.1.subscribes

/-- `validate_subscription_topics`: the first issue's message is the validation error. -/
def SubscriberConfigs.validateSubscriptionTopics (config : SubscriberConfigs) :
    Except String Unit :=
  match config.subscriptionTopicIssues.head? with
  | none => .ok ()
  | some issue => .error issue.message

/-- Every topic some handler or sink subscribes to. -/
def SubscriberConfigs.topics (config : SubscriberConfigs) : List String :=
  (config.handlers ++ config.sinks).flatMap SubscriberConfig.subscribes

theorem topicIssue_eq_none {place name kind topic : String} {i : ℕ} :
    topicIssue place name kind topic i = none ↔ ∃ k, classifyTopic topic = .ok k := by
  unfold topicIssue
  cases classifyTopic topic <;> simp

theorem topicIssues_eq_nil {place name kind : String} {subscribes : List String}
    (h : topicIssues place name kind subscribes = []) {topic : String}
    (hmem : topic ∈ subscribes) : ∃ k, classifyTopic topic = .ok k := by
  obtain ⟨i, hi, hget⟩ := List.mem_iff_getElem.mp hmem
  have hentry : (topic, i) ∈ subscribes.zipIdx := by
    rw [List.mk_mem_zipIdx_iff_getElem?, List.getElem?_eq_getElem hi, hget]
  have hnone := List.filterMap_eq_nil_iff.mp h (topic, i) hentry
  exact topicIssue_eq_none.mp hnone

theorem flatMap_zipIdx_eq_nil {configs : List SubscriberConfig}
    {issues : SubscriberConfig × ℕ → List ConfigIssue}
    (h : configs.zipIdx.flatMap issues = []) {c : SubscriberConfig} (hc : c ∈ configs) :
    ∃ i, issues (c, i) = [] := by
  obtain ⟨i, hi, hget⟩ := List.mem_iff_getElem.mp hc
  have hentry : (c, i) ∈ configs.zipIdx := by
    rw [List.mk_mem_zipIdx_iff_getElem?, List.getElem?_eq_getElem hi, hget]
  exact ⟨i, List.flatMap_eq_nil_iff.mp h (c, i) hentry⟩

/-- A configuration that validates has accepted topics only. -/
theorem validateSubscriptionTopics_ok {config : SubscriberConfigs}
    (h : config.validateSubscriptionTopics = .ok ()) {topic : String}
    (hmem : topic ∈ config.topics) : ∃ k, classifyTopic topic = .ok k := by
  have hnil : config.subscriptionTopicIssues = [] := by
    unfold SubscriberConfigs.validateSubscriptionTopics at h
    cases hissues : config.subscriptionTopicIssues with
    | nil => rfl
    | cons issue rest =>
      rw [hissues] at h
      cases h
  obtain ⟨hhandlers, hsinks⟩ := List.append_eq_nil_iff.mp hnil
  obtain ⟨c, hc, htopic⟩ := List.mem_flatMap.mp hmem
  rcases List.mem_append.mp hc with hhandler | hsink
  · obtain ⟨i, hi⟩ := flatMap_zipIdx_eq_nil hhandlers hhandler
    exact topicIssues_eq_nil hi htopic
  · obtain ⟨i, hi⟩ := flatMap_zipIdx_eq_nil hsinks hsink
    exact topicIssues_eq_nil hi htopic

/-- `classify_topic` accepts what can be delivered, up to the length limit, and
refuses only what cannot or is too long. An accepted topic, in a configuration
that validates too, can be delivered something exactly when its text has the
shape of a message type. -/
theorem classifyTopic_satisfiable :
    (∀ topic, ((∃ kind, classifyTopic topic = .ok kind) ∧ WellFormedText topic) ↔
      (containsChar topic '*' = true → topic.utf8ByteSize ≤ maxPatternLen) ∧
        Satisfiable topic) ∧
    (∀ topic kind, classifyTopic topic = .ok kind →
      (containsChar topic '*' = true → topic.utf8ByteSize ≤ maxPatternLen)) ∧
    (∀ topic e, classifyTopic topic = .error e →
      e = .patternTooLong topic topic.utf8ByteSize ∨ ¬ Satisfiable topic) ∧
    ∀ config : SubscriberConfigs, config.validateSubscriptionTopics = .ok () →
      ∀ topic ∈ config.topics, (∃ kind, classifyTopic topic = .ok kind) ∧
        (Satisfiable topic ↔ WellFormedText topic) := by
  refine ⟨?_, ?_, ?_, ?_⟩
  · intro topic
    constructor
    · intro ⟨⟨kind, hok⟩, htext⟩
      exact ⟨classifyTopic_ok_len hok, satisfiable_iff.mpr htext⟩
    · intro ⟨hlen, hs⟩
      exact ⟨classifyTopic_ok_of_satisfiable hs hlen, satisfiable_iff.mp hs⟩
  · intro topic kind hok
    exact classifyTopic_ok_len hok
  · intro topic e herr
    by_cases hs : Satisfiable topic
    · exact Or.inl (classifyTopic_error_unsatisfiable herr hs)
    · exact Or.inr hs
  · intro config hvalid topic hmem
    exact ⟨validateSubscriptionTopics_ok hvalid hmem, satisfiable_iff⟩

/-- A literal in upper case is accepted, in a configuration too, and never delivered. -/
theorem classifyTopic_upper_case :
    classifyTopic "Timer.Tick" = .ok .exact ∧ ¬ Satisfiable "Timer.Tick" ∧
      (⟨[], [⟨"console", ["Timer.Tick"]⟩]⟩ : SubscriberConfigs).validateSubscriptionTopics =
        .ok () := by
  refine ⟨by decide, ?_, by decide⟩
  rw [satisfiable_iff]
  decide

end Emergent.Engine

import Emergent.Sdk.Topic

/-!
# Declared topics (`emergent-engine/src/declarations.rs`)

A primitive's `publishes` and `subscribes` lists, prepared for lookup, and the
verdict of one operation against them. `DeclarationTable` is built once from
the configuration (`config.rs`, `declaration_table`) and read per operation.
-/

namespace Emergent.Engine
open Emergent.Sdk Kit.Text

inductive PrimitiveKind where
  | source
  | handler
  | sink
  deriving Repr, DecidableEq

def PrimitiveKind.asStr : PrimitiveKind → String
  | .source => "source"
  | .handler => "handler"
  | .sink => "sink"

inductive EnforcementMode where
  | off
  | warn
  | strict
  deriving Repr, DecidableEq

def EnforcementMode.asStr : EnforcementMode → String
  | .off => "off"
  | .warn => "warn"
  | .strict => "strict"

def EnforcementMode.isEnforcing (mode : EnforcementMode) : Bool := mode != .off

inductive Operation where
  | publish
  | subscribe
  deriving Repr, DecidableEq

def Operation.asStr : Operation → String
  | .publish => "publish"
  | .subscribe => "subscribe"

def Operation.configKey : Operation → String
  | .publish => "publishes"
  | .subscribe => "subscribes"

inductive Verdict where
  | declared
  | protocol
  | undeclared
  | kindCannot
  | unknownPrimitive
  | unauthenticated
  | sourceMismatch
  deriving Repr, DecidableEq

def Verdict.isViolation : Verdict → Bool
  | .declared | .protocol => false
  | .undeclared | .kindCannot | .unknownPrimitive | .unauthenticated | .sourceMismatch => true

inductive Enforcement where
  | accept
  | warn
  | reject
  deriving Repr, DecidableEq

def enforcementFor (mode : EnforcementMode) (verdict : Verdict) : Enforcement :=
  if !verdict.isViolation then .accept
  else match mode with
    | .off => .accept
    | .warn => .warn
    | .strict => .reject

theorem enforcementFor_strict {verdict : Verdict} (h : verdict.isViolation = true) :
    enforcementFor .strict verdict = .reject := by
  simp [enforcementFor, h]

/-! ### Protocol topics -/

def protocolPublishes : List String :=
  ["system.request.subscriptions", "system.request.topology"]

def protocolSubscribes : List String :=
  ["system.shutdown", "system.response.subscriptions", "system.response.topology"]

def isProtocolTopic (operation : Operation) (messageType : String) : Bool :=
  match operation with
  | .publish => protocolPublishes.contains messageType
  | .subscribe => protocolSubscribes.contains messageType

/-! ### Topic sets -/

/-- Exact topics and the prefixes of terminal wildcards; an unusable topic is
in neither. -/
structure TopicSet where
  exact : List String
  prefixes : List String
  deriving Repr, DecidableEq

namespace TopicSet

def add (set : TopicSet) (topic : String) : TopicSet :=
  match classifyTopic topic with
  | .ok .exact => { set with exact := set.exact.insert topic }
  | .ok .pattern =>
    match patternPrefix topic with
    | some pre => { set with prefixes := set.prefixes ++ [pre] }
    | none => set
  | .error _ => set

def new (topics : List String) : TopicSet := topics.foldl add ⟨[], []⟩

def permits (set : TopicSet) (messageType : String) : Bool :=
  set.exact.contains messageType || set.prefixes.any (startsWith messageType)

theorem add_exact (set : TopicSet) (topic t : String) :
    t ∈ (set.add topic).exact ↔
      t ∈ set.exact ∨ t = topic ∧ classifyTopic topic = .ok .exact := by
  unfold add
  split
  · rename_i h
    simp only [List.mem_insert_iff, h, and_true]
    exact or_comm
  · rename_i h
    split <;> simp [h]
  · rename_i h
    simp [h]

theorem add_prefixes (set : TopicSet) (topic p : String) :
    p ∈ (set.add topic).prefixes ↔
      p ∈ set.prefixes ∨ classifyTopic topic = .ok .pattern ∧ patternPrefix topic = some p := by
  unfold add
  split
  · rename_i h
    simp [h]
  · rename_i h
    split
    · rename_i pre hp
      simp [h, hp, eq_comm]
    · rename_i hp
      simp [h, hp]
  · rename_i h
    simp [h]

theorem foldl_add_exact (topics : List String) (set : TopicSet) (t : String) :
    t ∈ (topics.foldl add set).exact ↔
      t ∈ set.exact ∨ t ∈ topics ∧ classifyTopic t = .ok .exact := by
  induction topics generalizing set with
  | nil => simp
  | cons topic topics ih =>
    rw [List.foldl_cons, ih, add_exact, List.mem_cons]
    constructor
    · rintro ((h | ⟨rfl, h⟩) | ⟨h, hc⟩)
      · exact Or.inl h
      · exact Or.inr ⟨Or.inl rfl, h⟩
      · exact Or.inr ⟨Or.inr h, hc⟩
    · rintro (h | ⟨rfl | h, hc⟩)
      · exact Or.inl (Or.inl h)
      · exact Or.inl (Or.inr ⟨rfl, hc⟩)
      · exact Or.inr ⟨h, hc⟩

theorem foldl_add_prefixes (topics : List String) (set : TopicSet) (p : String) :
    p ∈ (topics.foldl add set).prefixes ↔
      p ∈ set.prefixes ∨
        ∃ d ∈ topics, classifyTopic d = .ok .pattern ∧ patternPrefix d = some p := by
  induction topics generalizing set with
  | nil => simp
  | cons topic topics ih =>
    rw [List.foldl_cons, ih, add_prefixes, List.exists_mem_cons_iff, or_assoc]

theorem mem_exact_new {topics : List String} {t : String} :
    t ∈ (new topics).exact ↔ t ∈ topics ∧ classifyTopic t = .ok .exact := by
  rw [new, foldl_add_exact]
  simp

theorem mem_prefixes_new {topics : List String} {p : String} :
    p ∈ (new topics).prefixes ↔
      ∃ d ∈ topics, classifyTopic d = .ok .pattern ∧ patternPrefix d = some p := by
  rw [new, foldl_add_prefixes]
  simp

theorem permits_iff {set : TopicSet} {t : String} :
    set.permits t = true ↔ t ∈ set.exact ∨ ∃ p ∈ set.prefixes, p.toList <+: t.toList := by
  simp [permits, startsWith_iff]

/-- A permitted topic selects only message types that a usable declaration
selects. This is what makes checking the request enough for delivery. -/
theorem permits_sound {topics : List String} {t messageType : String}
    (hp : (new topics).permits t = true) (hm : topicMatches t messageType = true) :
    ∃ d ∈ topics, (∃ kind, classifyTopic d = .ok kind) ∧ topicMatches d messageType = true := by
  rcases permits_iff.mp hp with hexact | ⟨p, hpre, hstart⟩
  · obtain ⟨hmem, hc⟩ := mem_exact_new.mp hexact
    exact ⟨t, hmem, ⟨_, hc⟩, hm⟩
  · obtain ⟨d, hd, hc, hdp⟩ := mem_prefixes_new.mp hpre
    refine ⟨d, hd, ⟨_, hc⟩, ?_⟩
    rw [topicMatches_pattern hdp, startsWith_iff]
    rcases topicMatches_cases hm with rfl | ⟨pre, htp, hs⟩
    · exact hstart
    · -- the declared prefix has no `*`, so it ends before the request's own `*`
      have hstar : '*' ∉ p.toList := (patternPrefix_eq_some.mp hdp).2
      exact (prefix_of_selector htp hstar hstart).trans hs

theorem permits_self {topics : List String} {t : String} (hp : (new topics).permits t = true) :
    ∃ d ∈ topics, (∃ kind, classifyTopic d = .ok kind) ∧ topicMatches d t = true := by
  rcases permits_iff.mp hp with hexact | ⟨p, hpre, hstart⟩
  · obtain ⟨hmem, hc⟩ := mem_exact_new.mp hexact
    exact ⟨t, hmem, ⟨_, hc⟩, (topicMatches_literal (classifyTopic_exact hc)).mpr rfl⟩
  · obtain ⟨d, hd, hc, hdp⟩ := mem_prefixes_new.mp hpre
    exact ⟨d, hd, ⟨_, hc⟩, by rw [topicMatches_pattern hdp, startsWith_iff]; exact hstart⟩

theorem permits_of_declared {topics : List String} {d t : String} {kind : TopicKind}
    (hd : d ∈ topics) (hc : classifyTopic d = .ok kind) (hm : topicMatches d t = true) :
    (new topics).permits t = true := by
  apply permits_iff.mpr
  cases kind with
  | exact =>
    have heq : d = t := (topicMatches_literal (classifyTopic_exact hc)).mp hm
    left
    rw [← heq]
    exact mem_exact_new.mpr ⟨hd, hc⟩
  | pattern =>
    obtain ⟨pre, hpre⟩ := classifyTopic_pattern hc
    rw [topicMatches_pattern hpre, startsWith_iff] at hm
    right
    exact ⟨pre, mem_prefixes_new.mpr ⟨d, hd, hc, hpre⟩, hm⟩

/-- A permitted topic covers only what some usable declaration covers, and as a
message type it is permitted exactly when a usable declaration selects it. -/
theorem permits_sound_and_exact (topics : List String) (t : String) :
    ((new topics).permits t = true → ∀ messageType, topicMatches t messageType = true →
      ∃ d ∈ topics, (∃ kind, classifyTopic d = .ok kind) ∧ topicMatches d messageType = true) ∧
    ((new topics).permits t = true ↔
      ∃ d ∈ topics, (∃ kind, classifyTopic d = .ok kind) ∧ topicMatches d t = true) := by
  constructor
  · intro hp messageType hm
    exact permits_sound hp hm
  · constructor
    · intro hp
      exact permits_self hp
    · intro ⟨d, hd, ⟨kind, hc⟩, hm⟩
      exact permits_of_declared hd hc hm

end TopicSet

/-! ### One primitive's declarations -/

structure Declarations where
  kind : PrimitiveKind
  publishes : TopicSet
  subscribes : TopicSet
  deriving Repr, DecidableEq

namespace Declarations

def new (kind : PrimitiveKind) (publishes subscribes : List String) : Declarations :=
  ⟨kind, TopicSet.new publishes, TopicSet.new subscribes⟩

def kindPermits (declarations : Declarations) (operation : Operation) : Bool :=
  match declarations.kind, operation with
  | .sink, .publish => false
  | .source, .subscribe => false
  | _, _ => true

def topicsFor (declarations : Declarations) : Operation → TopicSet
  | .publish => declarations.publishes
  | .subscribe => declarations.subscribes

end Declarations

/-- `decide`: protocol topics first, then the name, the kind and the list. -/
def decideOperation (declarations : Option Declarations) (operation : Operation)
    (messageType : String) : Verdict :=
  if isProtocolTopic operation messageType then .protocol
  else match declarations with
    | none => .unknownPrimitive
    | some declarations =>
      if !declarations.kindPermits operation then .kindCannot
      else if (declarations.topicsFor operation).permits messageType then .declared
      else .undeclared

/-- `decide_source`: a trusted name and a different claim do not go together. -/
def decideSource (identity source : Option String) : Verdict :=
  match identity, source with
  | some name, some claimed => if claimed ≠ name then .sourceMismatch else .declared
  | _, _ => .declared

def violationReason (verdict : Verdict) (name : String) (operation : Operation)
    (messageType : String) : String :=
  let op := operation.asStr
  let field := operation.configKey
  match verdict with
  | .unknownPrimitive =>
    s!"'{name}' tried to {op} '{messageType}' but no primitive of that name is configured"
  | .unauthenticated =>
    s!"a connection the engine could not tie to a configured primitive tried to {op} " ++
      s!"'{messageType}'"
  | .kindCannot => s!"'{name}' tried to {op} '{messageType}' but its kind cannot {op}"
  | .undeclared =>
    s!"'{name}' tried to {op} '{messageType}', which is not in its declared {field} list"
  | .sourceMismatch =>
    s!"a message published as '{messageType}' on the connection belonging to '{name}' " ++
      "named a different source"
  | .declared | .protocol => s!"'{name}' may {op} '{messageType}'"

/-- The payload of the `system.error.<name>` event a strict rejection reports. -/
structure RejectionReport where
  primitive : String
  operation : String
  messageType : String
  reason : String
  mode : String
  deriving Repr, DecidableEq

def RejectionReport.new (verdict : Verdict) (name : String) (operation : Operation)
    (messageType : String) (mode : EnforcementMode) : RejectionReport where
  primitive := name
  operation := operation.asStr
  messageType := messageType
  reason := violationReason verdict name operation messageType
  mode := mode.asStr

/-! ### The table -/

structure Checked where
  verdict : Verdict
  enforcement : Enforcement
  deriving Repr, DecidableEq

structure DeclarationTable where
  mode : EnforcementMode
  primitives : List (String × Declarations)
  deriving Repr, DecidableEq

namespace DeclarationTable

/-- The entry of a name; a later entry of the same name replaces an earlier
one, as collecting into a `HashMap` does. -/
def get (table : DeclarationTable) (name : String) : Option Declarations :=
  table.primitives.reverse.lookup name

def checkSource (table : DeclarationTable) (identity source : Option String) : Checked :=
  if !table.mode.isEnforcing then ⟨.declared, .accept⟩
  else
    let verdict := decideSource identity source
    ⟨verdict, enforcementFor table.mode verdict⟩

def check (table : DeclarationTable) (name : Option String) (operation : Operation)
    (messageType : String) : Checked :=
  if !table.mode.isEnforcing then ⟨.declared, .accept⟩
  else
    let verdict :=
      match name with
      | none => if isProtocolTopic operation messageType then .protocol else .unauthenticated
      | some name => decideOperation (table.get name) operation messageType
    ⟨verdict, enforcementFor table.mode verdict⟩

/-- What a strict table lets a name do: protocol topics, or what the entry of
that name declares for an operation its kind can perform. -/
def Allows (table : DeclarationTable) (name : Option String) (operation : Operation)
    (messageType : String) : Prop :=
  isProtocolTopic operation messageType = true ∨
    ∃ n declarations, name = some n ∧ table.get n = some declarations ∧
      declarations.kindPermits operation = true ∧
      (declarations.topicsFor operation).permits messageType = true

theorem decideOperation_isViolation {declarations : Option Declarations} {operation : Operation}
    {messageType : String} :
    (decideOperation declarations operation messageType).isViolation = false ↔
      isProtocolTopic operation messageType = true ∨
        ∃ d, declarations = some d ∧ d.kindPermits operation = true ∧
          (d.topicsFor operation).permits messageType = true := by
  unfold decideOperation
  by_cases hproto : isProtocolTopic operation messageType = true
  · simp [hproto, Verdict.isViolation]
  · cases declarations with
    | none => simp [hproto, Verdict.isViolation]
    | some d =>
      cases hkind : d.kindPermits operation <;>
        cases hpermits : (d.topicsFor operation).permits messageType <;>
        simp [hproto, hkind, hpermits, Verdict.isViolation]

theorem check_isViolation {table : DeclarationTable} (hmode : table.mode = .strict)
    {name : Option String} {operation : Operation} {messageType : String} :
    (table.check name operation messageType).verdict.isViolation = false ↔
      table.Allows name operation messageType := by
  cases name with
  | none =>
    by_cases hproto : isProtocolTopic operation messageType = true <;>
      simp [check, Allows, hmode, EnforcementMode.isEnforcing, hproto, Verdict.isViolation]
  | some n =>
    simp only [check, hmode, EnforcementMode.isEnforcing, Allows]
    refine decideOperation_isViolation.trans ?_
    simp

theorem check_enforcement (table : DeclarationTable) (name : Option String)
    (operation : Operation) (messageType : String) :
    (table.check name operation messageType).enforcement =
      enforcementFor table.mode (table.check name operation messageType).verdict := by
  unfold check
  split
  · rfl
  · rfl

theorem checkSource_isViolation {table : DeclarationTable} (hmode : table.mode = .strict)
    {name claimed : String} :
    (table.checkSource (some name) (some claimed)).verdict.isViolation = false ↔
      claimed = name := by
  by_cases h : claimed = name <;>
    simp [checkSource, hmode, EnforcementMode.isEnforcing, decideSource, h, Verdict.isViolation]

theorem checkSource_enforcement (table : DeclarationTable) (identity source : Option String) :
    (table.checkSource identity source).enforcement =
      enforcementFor table.mode (table.checkSource identity source).verdict := by
  unfold checkSource
  split
  · rfl
  · rfl

end DeclarationTable

/-! ### The configuration (`config.rs`) -/

structure SourceConfig where
  name : String
  publishes : List String
  deriving Repr, DecidableEq

structure HandlerConfig where
  name : String
  subscribes : List String
  publishes : List String
  deriving Repr, DecidableEq

structure SinkConfig where
  name : String
  subscribes : List String
  deriving Repr, DecidableEq

structure EmergentConfig where
  enforceDeclarations : EnforcementMode
  sources : List SourceConfig
  handlers : List HandlerConfig
  sinks : List SinkConfig
  deriving Repr, DecidableEq

namespace EmergentConfig

def declarationTable (config : EmergentConfig) : DeclarationTable where
  mode := config.enforceDeclarations
  primitives :=
    config.sources.map (fun s => (s.name, Declarations.new .source s.publishes [])) ++
    config.handlers.map (fun h => (h.name, Declarations.new .handler h.publishes h.subscribes)) ++
    config.sinks.map (fun s => (s.name, Declarations.new .sink [] s.subscribes))

def DeclaresSubscribe (config : EmergentConfig) (name topic : String) : Prop :=
  (∃ h ∈ config.handlers, h.name = name ∧ topic ∈ h.subscribes) ∨
    ∃ s ∈ config.sinks, s.name = name ∧ topic ∈ s.subscribes

theorem declarationTable_subscribes {config : EmergentConfig} {name : String}
    {declarations : Declarations} (h : config.declarationTable.get name = some declarations) :
    ∃ topics, declarations.subscribes = TopicSet.new topics ∧
      ∀ topic ∈ topics, config.DeclaresSubscribe name topic := by
  have hmem : (name, declarations) ∈ config.declarationTable.primitives := by
    obtain ⟨l₁, l₂, hl, _⟩ := List.lookup_eq_some_iff.mp h
    exact List.mem_reverse.mp (by rw [hl]; simp)
  simp only [declarationTable, List.mem_append, List.mem_map, Prod.mk.injEq] at hmem
  rcases hmem with (⟨s, hs, hn, hd⟩ | ⟨s, hs, hn, hd⟩) | ⟨s, hs, hn, hd⟩
  · exact ⟨[], by rw [← hd]; rfl, by simp⟩
  · exact ⟨s.subscribes, by rw [← hd]; rfl, fun topic ht => Or.inl ⟨s, hs, hn, ht⟩⟩
  · exact ⟨s.subscribes, by rw [← hd]; rfl, fun topic ht => Or.inr ⟨s, hs, hn, ht⟩⟩

end EmergentConfig

end Emergent.Engine

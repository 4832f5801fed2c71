import Emergent.Engine.Declarations
import Emergent.Engine.Identity
import Emergent.Sdk.Message

/-!
# The IPC policy (`emergent-engine/src/ipc_policy.rs`)

`authorize` holds each operation of an admitted connection to the declarations
of its primitive. A ruling is the answer together with what the policy tells
its observer and what it hands to the rejection channel.

A publish is judged on what `published_type` and `claimed_source` read out of
the raw JSON payload; the broker later reads the same payload with the derived
deserializer. The last section says when the two readings agree.
-/

namespace Emergent.Engine
open Emergent.Sdk

inductive UnmanagedNames where
  | ignored
  | claimed
  deriving Repr, DecidableEq

structure EffectiveName where
  name : Option String
  trusted : Bool
  deriving Repr, DecidableEq

def effectiveName (identity : ConnectionIdentity) (claimedSource : Option String)
    (unmanaged : UnmanagedNames) : EffectiveName :=
  match identity with
  | .primitive name => ⟨some name, true⟩
  | .unmanaged _ _ =>
    match unmanaged with
    | .ignored => ⟨none, false⟩
    | .claimed => ⟨claimedSource, false⟩

inductive Observation where
  | violation (identity : ConnectionIdentity) (reason : String)
  | subscribed (identity : ConnectionIdentity) (topics : List String)
  deriving Repr, DecidableEq

structure Ruling where
  result : Except String Unit
  observed : List Observation
  reports : List RejectionReport
  deriving DecidableEq

namespace Ruling

def pass : Ruling := ⟨.ok (), [], []⟩

/-- The `?` operator: a denial ends the function with what was observed so far. -/
def andThen (first next : Ruling) : Ruling :=
  match first.result with
  | .error _ => first
  | .ok _ => ⟨next.result, first.observed ++ next.observed, first.reports ++ next.reports⟩

def allowed (ruling : Ruling) : Bool :=
  match ruling.result with
  | .ok _ => true
  | .error _ => false

theorem andThen_allowed {first next : Ruling} :
    (first.andThen next).allowed = true ↔ first.allowed = true ∧ next.allowed = true := by
  unfold andThen allowed
  cases hf : first.result with
  | error e => simp [hf]
  | ok _ => simp

end Ruling

structure EnginePolicy where
  declarations : DeclarationTable
  unmanagedNames : UnmanagedNames
  /-- Whether refusals go to a rejection channel. -/
  reporting : Bool
  deriving Repr, DecidableEq

namespace EnginePolicy

def publishedType (payload : Value) : Option String :=
  (payload.get "inner").bind fun inner => (inner.get "message_type").bind Value.asStr

def claimedSource (payload : Value) : Option String :=
  ((payload.get "inner").bind fun inner => (inner.get "source").bind Value.asStr).bind
    fun source => if source.toList.isEmpty then none else some source

section
variable (policy : EnginePolicy) (identity : ConnectionIdentity)

/-- `record`: one violation logged, observed and, when refused under a name,
reported. -/
def record (checked : Checked) (name : Option String) (operation : Operation)
    (messageType : String) : Ruling :=
  let report := RejectionReport.new checked.verdict (name.getD identity.display) operation
    messageType policy.declarations.mode
  let observed := [Observation.violation identity report.reason]
  match checked.enforcement with
  | .accept | .warn => ⟨.ok (), observed, []⟩
  | .reject =>
    ⟨.error report.reason, observed, if policy.reporting && name.isSome then [report] else []⟩

/-- The step both checks share: a violation is recorded, anything else passes. -/
def enforce (checked : Checked) (name : Option String) (operation : Operation)
    (messageType : String) : Ruling :=
  if checked.verdict.isViolation then policy.record identity checked name operation messageType
  else .pass

def judgePublish (messageType : String) (claimed : Option String) : Ruling :=
  let effective := effectiveName identity claimed policy.unmanagedNames
  let source :=
    if effective.trusted then
      policy.enforce identity (policy.declarations.checkSource effective.name claimed)
        effective.name .publish messageType
    else .pass
  source.andThen
    (policy.enforce identity (policy.declarations.check effective.name .publish messageType)
      effective.name .publish messageType)

def authorizeRequest (payload : Value) : Ruling :=
  match publishedType payload with
  | none => .pass
  | some messageType => policy.judgePublish identity messageType (claimedSource payload)

/-- The loop of `authorize_subscribe`: the first refused topic ends it. -/
def checkTopics (name : Option String) : List String → Ruling
  | [] => .pass
  | topic :: topics =>
    (policy.enforce identity (policy.declarations.check name .subscribe topic) name .subscribe
      topic).andThen (checkTopics name topics)

def authorizeSubscribe (topics : List String) : Ruling :=
  let effective := effectiveName identity none policy.unmanagedNames
  (policy.checkTopics identity effective.name topics).andThen
    ⟨.ok (), [.subscribed identity topics], []⟩

end

/-- `IpcOperation`, as far as the policy tells the operations apart. -/
inductive IpcOperation where
  | request (payload : Value)
  | subscribe (topics : List String)
  | subscribePatterns (topics : List String)
  | unsubscribe (topics : List String)
  | unsubscribePatterns (topics : List String)
  | discover
  | deliver (messageType : String)

def authorize (policy : EnginePolicy) (identity : Option ConnectionIdentity) :
    IpcOperation → Ruling
  | .request payload => policy.authorizeRequest (identity.getD (.unmanaged none 0)) payload
  | .subscribe topics => policy.authorizeSubscribe (identity.getD (.unmanaged none 0)) topics
  | .subscribePatterns topics =>
    policy.authorizeSubscribe (identity.getD (.unmanaged none 0)) topics
  | .unsubscribe _ | .unsubscribePatterns _ | .discover | .deliver _ => .pass

/-! ### Strict mode -/

variable {policy : EnginePolicy} {identity : ConnectionIdentity}

theorem enforce_allowed (hmode : policy.declarations.mode = .strict) {checked : Checked}
    (henf : checked.enforcement = enforcementFor policy.declarations.mode checked.verdict)
    (name : Option String) (operation : Operation) (messageType : String) :
    (policy.enforce identity checked name operation messageType).allowed = true ↔
      checked.verdict.isViolation = false := by
  cases hv : checked.verdict.isViolation with
  | false => simp [enforce, hv, Ruling.pass, Ruling.allowed]
  | true =>
    rw [hmode, enforcementFor_strict hv] at henf
    simp [enforce, hv, record, henf, Ruling.allowed]

theorem enforce_check_allowed (hmode : policy.declarations.mode = .strict)
    (name : Option String) (operation : Operation) (messageType : String) :
    (policy.enforce identity (policy.declarations.check name operation messageType) name
      operation messageType).allowed = true ↔
      policy.declarations.Allows name operation messageType := by
  rw [enforce_allowed hmode (DeclarationTable.check_enforcement _ _ _ _),
    DeclarationTable.check_isViolation hmode]

theorem checkTopics_allowed (hmode : policy.declarations.mode = .strict) (name : Option String)
    (topics : List String) :
    (policy.checkTopics identity name topics).allowed = true ↔
      ∀ topic ∈ topics, policy.declarations.Allows name .subscribe topic := by
  induction topics with
  | nil => simp [checkTopics, Ruling.pass, Ruling.allowed]
  | cons topic topics ih =>
    rw [checkTopics, Ruling.andThen_allowed, enforce_check_allowed hmode, ih,
      List.forall_mem_cons]

/-- A batch is authorized exactly when every topic in it is allowed to the
name admission established, and an unmanaged connection has none. -/
theorem authorizeSubscribe_allowed (hmode : policy.declarations.mode = .strict)
    (topics : List String) :
    (policy.authorizeSubscribe identity topics).allowed = true ↔
      ∀ topic ∈ topics,
        policy.declarations.Allows identity.primitiveName .subscribe topic := by
  have hname : (effectiveName identity none policy.unmanagedNames).name =
      identity.primitiveName := by
    cases identity with
    | primitive name => rfl
    | unmanaged pid uid => cases policy.unmanagedNames <;> rfl
  rw [authorizeSubscribe, Ruling.andThen_allowed, checkTopics_allowed hmode, hname]
  simp [Ruling.allowed]

/-- What a strict policy lets a publish be: its type is allowed to the
effective name, and on a managed connection its source is that name. -/
def PublishPermitted (policy : EnginePolicy) (identity : ConnectionIdentity)
    (messageType source : String) : Prop :=
  policy.declarations.Allows
      (effectiveName identity (some source) policy.unmanagedNames).name .publish messageType ∧
    ∀ name, identity = .primitive name → source = name

theorem judgePublish_allowed (hmode : policy.declarations.mode = .strict)
    (messageType source : String) :
    (policy.judgePublish identity messageType (some source)).allowed = true ↔
      PublishPermitted policy identity messageType source := by
  unfold judgePublish PublishPermitted
  simp only [Ruling.andThen_allowed, enforce_check_allowed hmode]
  cases identity with
  | unmanaged pid uid =>
    cases policy.unmanagedNames <;>
      simp [effectiveName, Ruling.pass, Ruling.allowed]
  | primitive name =>
    simp only [effectiveName, if_true, ConnectionIdentity.primitive.injEq, forall_eq']
    rw [enforce_allowed hmode (DeclarationTable.checkSource_enforcement _ _ _),
      DeclarationTable.checkSource_isViolation hmode]
    exact and_comm

/-! ### The policy's reading and the broker's -/

variable {fromStr : String → Option TypeId}

def ByName (payload : Value) : Prop :=
  ∃ inner, payload.get "inner" = some inner ∧ inner.isObject = true

theorem publishedType_byName {payload : Value} {t : String}
    (h : publishedType payload = some t) : ByName payload := by
  obtain ⟨inner, hinner, h⟩ := Option.bind_eq_some_iff.mp h
  obtain ⟨w, hw, _⟩ := Option.bind_eq_some_iff.mp h
  exact ⟨inner, hinner, Value.isObject_of_get hw⟩

theorem reads_of_byName {payload : Value} {m : EmergentMessage} (hbn : ByName payload)
    (hm : fromIpcPayload fromStr payload = some m) :
    publishedType payload = some m.messageType.value ∧
      claimedSource payload = some m.source.value := by
  obtain ⟨inner, hinner, hobj⟩ := hbn
  have hdec : EmergentMessage.fromValue fromStr inner = some m := by
    cases payload with
    | object fields => simpa [fromIpcPayload, hinner] using hm
    | _ => cases hinner
  obtain ⟨ht, hs⟩ := fromValue_object hobj hdec
  have hne : m.source.value.toList.isEmpty = false := by
    simpa using m.source.value_ne_empty
  constructor
  · simp [publishedType, hinner, ht, Value.asStr]
  · simp only [claimedSource, hinner, Option.bind_some, hs, Value.asStr, hne]
    rfl

/-- A strict policy over no declarations refuses a managed connection every
publish under another source, protocol or not. -/
def emptyStrict : EnginePolicy := ⟨⟨.strict, []⟩, .ignored, false⟩

theorem emptyStrict_refuses {messageType source name : String} (h : source ≠ name) :
    (emptyStrict.judgePublish (.primitive name) messageType (some source)).allowed = false := by
  refine Bool.eq_false_iff.mpr fun hc => ?_
  obtain ⟨_, hs⟩ := (judgePublish_allowed rfl messageType source).mp hc
  exact h (hs name rfl)

/-- Both readings agree on a decoded payload, and a strict policy lets through
only what it permits, exactly when the payload is read by name. -/
theorem authorizeRequest_reads_message_iff {payload : Value} {m : EmergentMessage}
    (hm : fromIpcPayload fromStr payload = some m) :
    ((∀ (policy : EnginePolicy) (identity : ConnectionIdentity),
        policy.authorizeRequest identity payload =
          policy.judgePublish identity m.messageType.value (some m.source.value)) ∧
      (∀ (policy : EnginePolicy) (identity : ConnectionIdentity),
        policy.declarations.mode = .strict →
        (policy.authorizeRequest identity payload).allowed = true →
          PublishPermitted policy identity m.messageType.value m.source.value)) ↔
      ByName payload := by
  constructor
  · rintro ⟨hjudge, _⟩
    obtain ⟨name, hname⟩ : ∃ name, m.source.value ≠ name := by
      by_cases h : m.source.value = "a"
      · exact ⟨"b", by rw [h]; decide⟩
      · exact ⟨"a", h⟩
    cases ht : publishedType payload with
    | some t => exact publishedType_byName ht
    | none =>
      have hpass : emptyStrict.authorizeRequest (.primitive name) payload = .pass := by
        simp [authorizeRequest, ht]
      have hrefuse : (emptyStrict.judgePublish (.primitive name) m.messageType.value
          (some m.source.value)).allowed = false := emptyStrict_refuses hname
      rw [← hjudge emptyStrict (.primitive name), hpass] at hrefuse
      cases hrefuse
  · intro hbn
    obtain ⟨ht, hs⟩ := reads_of_byName hbn hm
    have hreq : ∀ (policy : EnginePolicy) (identity : ConnectionIdentity),
        policy.authorizeRequest identity payload =
          policy.judgePublish identity m.messageType.value (some m.source.value) := by
      intro policy identity
      simp only [authorizeRequest, ht, hs]
    refine ⟨hreq, fun policy identity hmode hallowed => ?_⟩
    rw [hreq] at hallowed
    exact (judgePublish_allowed hmode _ _).mp hallowed

def tickFields (messageType : String) : List Value :=
  [.string "msg_01h455vb4pex5vsknk084sn02q", .string messageType, .string "timer", .null, .null,
    .number (.posInt 0), .null, .null]

def namedPayload (messageType : String) : Value :=
  .object [("inner", .object (["id", "message_type", "source", "correlation_id", "causation_id",
    "timestamp_ms", "payload", "metadata"].zip (tickFields messageType)))]

def positionalPayload (messageType : String) : Value :=
  .array [.array (tickFields messageType)]

def timerPolicy : EnginePolicy where
  declarations := EmergentConfig.declarationTable
    { enforceDeclarations := .strict, sources := [⟨"timer", ["timer.tick"]⟩], handlers := [],
      sinks := [] }
  unmanagedNames := .ignored
  reporting := true

theorem authorizeRequest_reads_message_timer :
    ∃ m, fromIpcPayload readTypeId (namedPayload "timer.tick") = some m ∧
      PublishPermitted timerPolicy (.primitive "timer") m.messageType.value m.source.value := by
  obtain ⟨m, hm⟩ : ∃ m, fromIpcPayload readTypeId (namedPayload "timer.tick") = some m :=
    Option.isSome_iff_exists.mp (by decide)
  have hboth := (authorizeRequest_reads_message_iff hm).mpr ⟨_, rfl, rfl⟩
  exact ⟨m, hm, hboth.2 timerPolicy (.primitive "timer") rfl (by decide)⟩

/-- A payload written by position is decoded by the broker and passes a strict
policy unread: `timer` publishes a type it never declared. -/
theorem positionalPayload_unjudged :
    ∃ m, fromIpcPayload readTypeId (positionalPayload "secrets.all") = some m ∧
      m.messageType.value = "secrets.all" ∧
      timerPolicy.declarations.mode = .strict ∧
      (timerPolicy.authorizeRequest (.primitive "timer")
        (positionalPayload "secrets.all")).allowed = true ∧
      ¬ PublishPermitted timerPolicy (.primitive "timer") m.messageType.value m.source.value := by
  have hnames : (fromIpcPayload readTypeId (positionalPayload "secrets.all")).map
      (fun m => (m.messageType.value, m.source.value)) = some ("secrets.all", "timer") := by
    decide
  obtain ⟨m, hm, hmn⟩ := Option.map_eq_some_iff.mp hnames
  obtain ⟨ht, hs⟩ := Prod.mk.inj hmn
  refine ⟨m, hm, ht, rfl, by decide, ?_⟩
  rw [ht, hs, ← judgePublish_allowed rfl]
  decide

end EnginePolicy

end Emergent.Engine

import Emergent.Engine.ApiHost
import Emergent.Engine.ConfigTopics
import Emergent.Engine.Supervision
import Emergent.Engine.SystemEvent

/-!
# The checks before anything is spawned (`preflight.rs`, `config.rs`)

`preflight` lists what is wrong with a configuration; the engine starts only when
the list is empty. The last part is about the lifecycle events of the configured
primitives: the engine keeps a name as text, and the events are named after it.
-/

namespace Emergent.Engine
open Emergent.Sdk Kit

namespace Preflight

/-! ### The configuration, as far as the checks read it -/

structure PrimitiveConfig where
  name : String
  path : String
  enabled : Bool
  restart : String
  subscribes : List String
  publishes : List String
  deriving Repr, DecidableEq

inductive WireFormat where
  | json
  | messagepack
  deriving Repr, DecidableEq

def WireFormat.asStr : WireFormat → String
  | .json => "json"
  | .messagepack => "messagepack"

structure EmergentConfig where
  wireFormat : Option WireFormat
  apiAllowedHosts : List String
  sources : List PrimitiveConfig
  handlers : List PrimitiveConfig
  sinks : List PrimitiveConfig
  deriving Repr, DecidableEq

def parseRestartPolicy : String → Option RestartPolicy
  | "never" => some .never
  | "on-failure" => some .onFailure
  | "always" => some .always
  | _ => none

def located (table : String) (primitives : List PrimitiveConfig) :
    List (String × PrimitiveConfig) :=
  primitives.zipIdx.map fun entry => (s!"{table}[{entry.2}]", entry.1)

namespace EmergentConfig

def primitives (config : EmergentConfig) : List PrimitiveConfig :=
  config.sources ++ (config.handlers ++ config.sinks)

/-- `located_primitives` -/
def locatedPrimitives (config : EmergentConfig) : List (String × PrimitiveConfig) :=
  located "sources" config.sources ++
    (located "handlers" config.handlers ++ located "sinks" config.sinks)

def subscribers (config : EmergentConfig) : SubscriberConfigs where
  handlers := config.handlers.map fun p => ⟨p.name, p.subscribes⟩
  sinks := config.sinks.map fun p => ⟨p.name, p.subscribes⟩

def enabledPrimitiveCount (config : EmergentConfig) : ℕ :=
  config.primitives.countP PrimitiveConfig.enabled

end EmergentConfig

/-! ### The issues -/

def displayInvalidName : InvalidPrimitiveName → String
  | .empty => "primitive name cannot be empty"
  | .invalidCharacters value => s!"primitive name '{value}' contains invalid characters"
  | .invalidStructure value reason => s!"primitive name '{value}' is invalid: {reason}"

def validatePrimitiveName (name : String) : Except String Unit :=
  match PrimitiveName.new name with
  | .ok _ => .ok ()
  | .error e => .error (displayInvalidName e ++ ". A primitive name becomes the last segment " ++
      "of its system.started.<name> event, so it must start with a lowercase letter and " ++
      "use only lowercase letters, digits, hyphens, or underscores, at most " ++
      toString PrimitiveName.maxLength ++ " characters")

def nameIssue (entry : String × PrimitiveConfig) : Option ConfigIssue :=
  match validatePrimitiveName entry.2.name with
  | .ok () => none
  | .error message => some ⟨.invalidName, message, some (entry.1 ++ ".name")⟩

def nameIssues (primitives : List (String × PrimitiveConfig)) : List ConfigIssue :=
  primitives.filterMap nameIssue

/-- Every name used before, at each repeat. -/
def duplicateNameIssues : List String → List (String × PrimitiveConfig) → List ConfigIssue
  | _, [] => []
  | names, entry :: rest =>
    if names.contains entry.2.name then
      ⟨.duplicateName, s!"Duplicate name: {entry.2.name}", some (entry.1 ++ ".name")⟩ ::
        duplicateNameIssues names rest
    else duplicateNameIssues (entry.2.name :: names) rest

def restartPolicyIssue (entry : String × PrimitiveConfig) : Option ConfigIssue :=
  match parseRestartPolicy entry.2.restart with
  | some _ => none
  | none => some
      { code := .invalidRestartPolicy
        message := s!"Invalid restart policy for primitive '{entry.2.name}': " ++
          s!"'{entry.2.restart}' (expected one of never, on-failure, always)"
        path := some (entry.1 ++ ".restart") }

def allowedHostIssue (urlHost : String → Option String) (entry : String × ℕ) :
    Option ConfigIssue :=
  match ApiHost.parseAllowedHost urlHost entry.1 with
  | .ok _ => none
  | .error message =>
    some ⟨.invalidApiAllowedHost, message, some s!"engine.api_allowed_hosts[{entry.2}]"⟩

def missingPathIssue (pathExists : String → Bool) (entry : String × PrimitiveConfig) :
    Option ConfigIssue :=
  if entry.2.enabled && !pathExists entry.2.path then
    some
      { code := .pathNotFound
        message := s!"Path does not exist: {entry.2.path} (primitive '{entry.2.name}')"
        path := some (entry.1 ++ ".path") }
  else none

def reservedIpcConnections : ℕ := 4

/-- `saturating_add`, of a 64-bit `usize`. -/
def requiredIpcConnections (enabledPrimitives : ℕ) : ℕ :=
  min (enabledPrimitives + reservedIpcConnections) (2 ^ 64 - 1)

def connectionCapacityIssue (enabledPrimitives maxConnections : ℕ) : Option ConfigIssue :=
  let required := requiredIpcConnections enabledPrimitives
  if required ≤ maxConnections then none
  else some
    { code := .connectionCapacity
      message := s!"IPC connection limit of {maxConnections} is too low for " ++
        s!"{enabledPrimitives} enabled primitive(s). Each enabled primitive holds one " ++
        "connection for the life of its process, and the engine reserves " ++
        s!"{reservedIpcConnections} more for a restarting primitive and for CLI or " ++
        s!"topology-viewer queries, so this topology needs at least {required} connections. " ++
        s!"Raise [engine].max_connections to {required} or more."
      path := some "engine.max_connections" }

def wireFormatIssue (format : WireFormat) : ConfigIssue where
  code := .wireFormatIgnored
  message := "[engine] wire_format = \"" ++ format.asStr ++ "\" has no effect: IPC is always " ++
    "MessagePack. Remove the key. For human-readable events, read the JSON event log."
  path := some "engine.wire_format"

/-- How the machine answers: what `url::Url::parse` reads as a host, and which
paths exist; `none` is `PathCheck::Skip`. -/
structure Machine where
  urlHost : String → Option String
  pathExists : Option (String → Bool)

def EmergentConfig.issues (config : EmergentConfig) (machine : Machine) : List ConfigIssue :=
  let primitives := config.locatedPrimitives
  nameIssues primitives ++ duplicateNameIssues [] primitives ++
    primitives.filterMap restartPolicyIssue ++ config.subscribers.subscriptionTopicIssues ++
    config.apiAllowedHosts.zipIdx.filterMap (allowedHostIssue machine.urlHost) ++
    match machine.pathExists with
    | some pathExists => primitives.filterMap (missingPathIssue pathExists)
    | none => []

structure Findings where
  errors : List ConfigIssue
  warnings : List ConfigIssue
  deriving Repr, DecidableEq

def Findings.isOk (findings : Findings) : Bool := findings.errors.isEmpty

def preflight (config : EmergentConfig) (maxConnections : ℕ) (machine : Machine) : Findings where
  errors := config.issues machine ++
    (connectionCapacityIssue config.enabledPrimitiveCount maxConnections).toList
  warnings := (config.wireFormat.map wireFormatIssue).toList

/-! ### What is left when nothing is found -/

theorem located_primitives (table : String) (primitives : List PrimitiveConfig) :
    (located table primitives).map Prod.snd = primitives := by
  unfold located
  rw [List.map_map]
  exact List.zipIdx_map_fst 0 primitives

theorem map_locatedPrimitives (config : EmergentConfig) :
    config.locatedPrimitives.map Prod.snd = config.primitives := by
  simp only [EmergentConfig.locatedPrimitives, EmergentConfig.primitives, List.map_append,
    located_primitives]

theorem mem_locatedPrimitives {config : EmergentConfig} {p : PrimitiveConfig}
    (h : p ∈ config.primitives) : ∃ place, (place, p) ∈ config.locatedPrimitives := by
  rw [← map_locatedPrimitives] at h
  obtain ⟨⟨place, q⟩, hentry, rfl⟩ := List.mem_map.mp h
  exact ⟨place, hentry⟩

theorem duplicateNameIssues_nil {names : List String}
    {primitives : List (String × PrimitiveConfig)} (h : duplicateNameIssues names primitives = []) :
    (∀ entry ∈ primitives, entry.2.name ∉ names) ∧
      (primitives.map fun entry => entry.2.name).Nodup := by
  induction primitives generalizing names with
  | nil => simp
  | cons entry rest ih =>
    unfold duplicateNameIssues at h
    split_ifs at h with hused
    have hfresh : entry.2.name ∉ names := by simpa using hused
    obtain ⟨hrest, hnodup⟩ := ih h
    constructor
    · intro other hother
      rcases List.mem_cons.mp hother with rfl | hother
      · exact hfresh
      · exact fun hmem => hrest other hother (List.mem_cons_of_mem _ hmem)
    · rw [List.map_cons, List.nodup_cons]
      refine ⟨fun hmem => ?_, hnodup⟩
      obtain ⟨other, hother, hsame⟩ := List.mem_map.mp hmem
      exact hrest other hother (hsame ▸ List.mem_cons_self)

/-- The tables share one space of names, the disabled primitives included. -/
theorem issues_names {config : EmergentConfig} {machine : Machine}
    (h : config.issues machine = []) : (config.primitives.map PrimitiveConfig.name).Nodup := by
  have hduplicates : duplicateNameIssues [] config.locatedPrimitives = [] := by
    simp only [EmergentConfig.issues, List.append_eq_nil_iff] at h
    exact h.1.1.1.1.2
  have hnodup := (duplicateNameIssues_nil hduplicates).2
  rw [← map_locatedPrimitives, List.map_map]
  exact hnodup

theorem preflight_names {config : EmergentConfig} {maxConnections : ℕ} {machine : Machine}
    (h : (preflight config maxConnections machine).isOk = true) {p : PrimitiveConfig}
    (hp : p ∈ config.primitives) : ∃ n, PrimitiveName.new p.name = .ok n := by
  obtain ⟨place, hplace⟩ := mem_locatedPrimitives hp
  have herrors := List.isEmpty_iff.mp h
  have hissues : config.issues machine = [] := (List.append_eq_nil_iff.mp herrors).1
  have hnames : nameIssues config.locatedPrimitives = [] := by
    simp only [EmergentConfig.issues, List.append_eq_nil_iff] at hissues
    exact hissues.1.1.1.1.1
  have hnone := List.filterMap_eq_nil_iff.mp hnames (place, p) hplace
  cases hnew : PrimitiveName.new p.name with
  | ok n => exact ⟨n, rfl⟩
  | error e =>
    simp only [nameIssue, validatePrimitiveName, hnew] at hnone
    cases hnone

/-! ### The events of a configured primitive -/

/-- The registered part of `PrimitiveInfo`, with the name as configured. -/
structure ConfiguredInfo where
  name : String
  kind : PrimitiveKind
  publishes : List String
  subscribes : List String
  deriving Repr, DecidableEq

structure IpcSystemEvent where
  messageType : MessageType
  source : PrimitiveName
  payload : SystemEventPayload
  deriving DecidableEq

def enginePrimitiveName : String := "emergent-engine"

/-- `engine_source` -/
def engineSource : PrimitiveName :=
  match PrimitiveName.new enginePrimitiveName with
  | .ok name => name
  | .error _ => .unknown

namespace ConfiguredInfo

def payload (info : ConfiguredInfo) (pid : Option Pid) (error : Option String)
    (restartAttempt : Option UInt32) : SystemEventPayload where
  name := info.name
  kind := info.kind.asStr
  pid := pid
  publishes := info.publishes
  subscribes := info.subscribes
  error := error
  restartAttempt := restartAttempt

def createSystemEvent (eventType : String) (info : ConfiguredInfo) (pid : Option Pid)
    (error : Option String) : Except InvalidMessageType IpcSystemEvent :=
  let payload :=
    match eventType, error with
    | "system.started", none => info.payload (some (pid.getD 0)) none none
    | "system.stopped", none => info.payload pid none none
    | _, some err => info.payload pid (some err) none
    | _, none => info.payload pid none none
  (MessageType.new (eventType ++ "." ++ info.name)).map fun t => ⟨t, engineSource, payload⟩

def createRestartedEvent (info : ConfiguredInfo) (pid : Pid) (attempt : UInt32) :
    Except InvalidMessageType IpcSystemEvent :=
  (MessageType.new ("system.restarted." ++ info.name)).map
    fun t => ⟨t, engineSource, info.payload (some pid) none (some attempt)⟩

end ConfiguredInfo

/-- Over an accepted name the events are those of the actor's own model. -/
theorem createSystemEvent_accepted (eventType : EventType) (info : PrimitiveInfo)
    (pid : Option Pid) (error : Option String) :
    ConfiguredInfo.createSystemEvent eventType.asStr
        ⟨info.name.value, info.kind, info.publishes, info.subscribes⟩ pid error =
      (createSystemEvent eventType info pid error).map
        fun event => ⟨event.messageType, engineSource, event.payload⟩ := by
  have hvalid := MessageType.new_of_valid (eventType.forName_valid info.name)
  have hname : eventType.asStr ++ "." ++ info.name.value = eventType.forName info.name.value := rfl
  unfold ConfiguredInfo.createSystemEvent createSystemEvent
  rw [hname, hvalid]
  cases eventType <;> cases error <;> rfl

/-! ### The type names the event and the primitive -/

theorem notMem_dot {name : PrimitiveName} : '.' ∉ name.value.toList := by
  intro hdot
  exact nameChar_ne_dot (List.all_eq_true.mp name.valid.2.2.2 '.' hdot) rfl

/-- The name is what stands after the last dot. -/
theorem name_of_forName (eventType : EventType) (name : PrimitiveName) :
    upTo '.' (eventType.forName name.value).toList.reverse = name.value.toList.reverse := by
  have htext : (eventType.forName name.value).toList.reverse =
      name.value.toList.reverse ++ '.' :: eventType.asStr.toList.reverse := by
    simp [EventType.forName, String.toList_append]
  have hdot : '.' ∉ name.value.toList.reverse := by
    rw [List.mem_reverse]
    exact notMem_dot
  rw [htext]
  exact (upTo_append hdot (Or.inr ⟨_, rfl⟩)).1

theorem forName_injective {eventType eventType' : EventType} {name name' : PrimitiveName}
    (h : eventType.forName name.value = eventType'.forName name'.value) :
    eventType = eventType' ∧ name.value = name'.value := by
  have hname : name.value = name'.value := by
    have hreversed : name.value.toList.reverse = name'.value.toList.reverse := by
      rw [← name_of_forName eventType name, ← name_of_forName eventType' name', h]
    exact String.toList_injective (List.reverse_injective hreversed)
  refine ⟨?_, hname⟩
  have htype : eventType.asStr = eventType'.asStr := by
    have htext := congrArg String.toList h
    simp only [EventType.forName, String.toList_append, hname] at htext
    exact String.toList_injective (List.append_cancel_right (List.append_cancel_right htext))
  cases eventType <;> cases eventType' <;> first | rfl | exact absurd htype (by decide)

/-- Every primitive of an accepted configuration can be announced, and the type
of an event tells which event it is and of which primitive. -/
theorem preflight_announces {config : EmergentConfig} {maxConnections : ℕ} {machine : Machine}
    (h : (preflight config maxConnections machine).isOk = true) :
    (∀ p ∈ config.primitives,
      (∀ eventType : EventType, ∃ t, MessageType.new (eventType.forName p.name) = .ok t) ∧
      ∀ info : ConfiguredInfo, info.name = p.name →
        (∀ (eventType : EventType) pid error, ∃ event,
          info.createSystemEvent eventType.asStr pid error = .ok event ∧
            event.messageType.value = eventType.forName p.name) ∧
        ∀ pid attempt, ∃ event, info.createRestartedEvent pid attempt = .ok event ∧
          event.messageType.value = EventType.restarted.forName p.name) ∧
    ∀ name name' n n' (eventType eventType' : EventType),
      PrimitiveName.new name = .ok n → PrimitiveName.new name' = .ok n' →
      eventType.forName name = eventType'.forName name' → eventType = eventType' ∧ name = name' := by
  constructor
  · intro p hp
    obtain ⟨n, hn⟩ := preflight_names h hp
    have hvalue : n.value = p.name := PrimitiveName.new_value hn
    have hnew : ∀ eventType : EventType, MessageType.new (eventType.forName p.name) =
        .ok ⟨eventType.forName n.value, eventType.forName_valid n⟩ := by
      intro eventType
      rw [← hvalue]
      exact MessageType.new_of_valid (eventType.forName_valid n)
    refine ⟨fun eventType => ⟨_, hnew eventType⟩, ?_⟩
    intro info hinfo
    constructor
    · intro eventType pid error
      have htype : eventType.asStr ++ "." ++ info.name = eventType.forName p.name := by
        rw [hinfo]
        rfl
      unfold ConfiguredInfo.createSystemEvent
      rw [htype, hnew eventType]
      exact ⟨_, rfl, congrArg eventType.forName hvalue⟩
    · intro pid attempt
      have htype : "system.restarted." ++ info.name = EventType.restarted.forName p.name := by
        rw [hinfo]
        apply String.toList_injective
        simp [EventType.forName, EventType.asStr, String.toList_append]
      rw [ConfiguredInfo.createRestartedEvent, htype, hnew .restarted]
      exact ⟨_, rfl, congrArg EventType.restarted.forName hvalue⟩
  · intro name name' n n' eventType eventType' hn hn' hsame
    rw [← PrimitiveName.new_value hn, ← PrimitiveName.new_value hn'] at hsame ⊢
    exact forName_injective hsame

def timerConfig : EmergentConfig where
  wireFormat := none
  apiAllowedHosts := []
  sources := [⟨"timer", "/usr/bin/timer", true, "never", [], ["timer.tick"]⟩]
  handlers := []
  sinks := []

def timerMachine : Machine := ⟨fun _ => none, some fun path => path = "/usr/bin/timer"⟩

theorem preflight_announces_timer :
    (preflight timerConfig 16 timerMachine).isOk = true ∧
      ∃ event, ConfiguredInfo.createRestartedEvent ⟨"timer", .source, ["timer.tick"], []⟩ 7 2 =
        .ok event ∧ event.messageType.value = EventType.restarted.forName "timer" := by
  have hok : (preflight timerConfig 16 timerMachine).isOk = true := by decide
  have htimer : (⟨"timer", "/usr/bin/timer", true, "never", [], ["timer.tick"]⟩ :
      PrimitiveConfig) ∈ timerConfig.primitives := by decide
  exact ⟨hok, (((preflight_announces hok).1 _ htimer).2 ⟨"timer", .source, ["timer.tick"], []⟩
    rfl).2 7 2⟩

end Preflight

end Emergent.Engine

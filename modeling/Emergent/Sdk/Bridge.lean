import Emergent.Sdk.Message
import Emergent.Sdk.Topic

/-!
# From a push notification to the message stream (`sdks/rust/src/connection.rs`)

`bridge` is one turn of the loop of `push_to_message_stream`: the notification
ends the stream, is dropped, or becomes the message the user's loop reads. What
the engine pushes is `notificationOf` of one of its messages; of these only
`system.shutdown` is not handed on.
-/

namespace Emergent.Sdk
open Kit.Text

/-! ### Serialisation -/

def TypeId.toStr (id : TypeId) : String := id.pre ++ "_" ++ id.suffix

theorem parseId_documented {fromStr : String → Option TypeId} {accepted : List String}
    {expected : String} {id : TaggedId accepted} (h : fromStr id.id.toStr = some id.id) :
    parseId fromStr accepted expected id.id.toStr = .ok id := by
  simp only [parseId, h, dif_pos id.tagged]

def optionalField (key : String) : Option Value → List (String × Value)
  | none => []
  | some v => [(key, v)]

def EmergentMessage.toValue (m : EmergentMessage) : Value :=
  .object (
    [("id", .string m.id.id.toStr), ("message_type", .string m.messageType.value),
      ("source", .string m.source.value)] ++
    optionalField "correlation_id" (m.correlationId.map fun id => .string id.id.toStr) ++
    optionalField "causation_id" (m.causationId.map fun id => .string id.id.toStr) ++
    [("timestamp_ms", .number (.posInt m.timestampMs)), ("payload", m.payload)] ++
    optionalField "metadata" m.metadata)

structure IpcPushNotification where
  messageType : String
  sourceActor : Option String
  payload : Value

def notificationOf (m : EmergentMessage) : IpcPushNotification :=
  ⟨m.messageType.value, some m.source.value, m.toValue⟩

/-! ### The bridge -/

/-- `to_lowercase`, as far as a comparison with an ASCII word can tell: besides
the capital letters only the Kelvin sign has an ASCII letter as lower case. -/
def toLowercase (s : String) : String :=
  s.map fun c => if c = '\u212A' then 'k' else c.toLower

def eqIgnoreAsciiCase (s t : String) : Bool := s.map Char.toLower == t.map Char.toLower

def kindOf (v : Value) : Option String := ((v.get "kind").bind Value.asStr).map toLowercase

def extractShutdownKind (payload : Value) : Option String :=
  ((payload.get "payload").bind kindOf).or (kindOf payload)

def IpcPushNotification.closes (n : IpcPushNotification) (shutdownKind : String) : Bool :=
  (extractShutdownKind n.payload).any fun kind => eqIgnoreAsciiCase kind shutdownKind

def carriesEmergentMessage (messageType : String) : Bool :=
  (MessageType.new messageType).toOption.isSome

def EmergentMessage.unwrapStdout (fromJson : String → Option Value) (m : EmergentMessage) :
    EmergentMessage :=
  match m.payload.get "stdout" with
  | some (.string stdout) => { m with payload := (fromJson stdout).getD (.string stdout) }
  | _ => m

/-- The id and the clock a message built on the spot takes. -/
structure Fresh where
  id : MessageId
  timestampMs : UInt64

/-- The message of a notification whose payload is no message; `none` is the
panic of `with_source`, which ends the task. -/
def fallbackMessage (fresh : Fresh) (n : IpcPushNotification) : Option EmergentMessage := do
  let m ← (EmergentMessage.tryNewWithIdAndTimestamp n.messageType fresh.id
    fresh.timestampMs).toOption
  let source ← (PrimitiveName.new (n.sourceActor.getD "unknown")).toOption
  return { m with source, payload := n.payload }

inductive Bridged where
  | stop
  | skip
  | forward (message : EmergentMessage)

section
variable (fromStr : String → Option TypeId) (fromJson : String → Option Value)

def received (autoUnwrap : Bool) (fresh : Fresh) (n : IpcPushNotification) :
    Option EmergentMessage :=
  ((EmergentMessage.fromValue fromStr n.payload).or (fallbackMessage fresh n)).map fun m =>
    if autoUnwrap && !startsWith m.messageType.value "system." then m.unwrapStdout fromJson else m

def bridge (shutdownKind : String) (autoUnwrap : Bool) (fresh : Fresh)
    (n : IpcPushNotification) : Bridged :=
  if n.messageType = "system.shutdown" then
    if n.closes shutdownKind then .stop else .skip
  else if !carriesEmergentMessage n.messageType then .skip
  else
    match received fromStr fromJson autoUnwrap fresh n with
    | some m => .forward m
    | none => .stop

end

/-! ### What the engine pushes is handed on -/

variable {fromStr : String → Option TypeId} {fromJson : String → Option Value}

theorem fallbackMessage_notificationOf (fresh : Fresh) (m : EmergentMessage) :
    (fallbackMessage fresh (notificationOf m)).isSome = true := by
  have htype := MessageType.new_of_valid m.messageType.valid
  have hname := PrimitiveName.new_of_valid m.source.valid
  simp [fallbackMessage, notificationOf, EmergentMessage.tryNewWithIdAndTimestamp, htype, hname,
    Except.toOption, bind, Except.bind, pure, Except.pure]

theorem unwrapStdout_names (fromJson : String → Option Value) (m : EmergentMessage) :
    (m.unwrapStdout fromJson).messageType = m.messageType ∧
      (m.unwrapStdout fromJson).source = m.source := by
  unfold EmergentMessage.unwrapStdout
  split <;> exact ⟨rfl, rfl⟩

/-- Decoded or built on the spot, the message keeps the type and the source. -/
theorem received_names {autoUnwrap : Bool} {fresh : Fresh} {m r : EmergentMessage}
    (h : received fromStr fromJson autoUnwrap fresh (notificationOf m) = some r) :
    r.messageType.value = m.messageType.value ∧ r.source.value = m.source.value := by
  obtain ⟨q, hq, rfl⟩ := Option.map_eq_some_iff.mp h
  have hnames : q.messageType.value = m.messageType.value ∧ q.source.value = m.source.value := by
    cases hdecoded : EmergentMessage.fromValue fromStr (notificationOf m).payload with
    | some d =>
      rw [hdecoded, Option.some_or] at hq
      obtain rfl := Option.some.inj hq
      obtain ⟨htype, hsource⟩ := fromValue_object rfl hdecoded
      have htype' : (notificationOf m).payload.get "message_type" =
          some (.string m.messageType.value) := rfl
      have hsource' : (notificationOf m).payload.get "source" = some (.string m.source.value) := rfl
      rw [htype'] at htype
      rw [hsource'] at hsource
      exact ⟨(Value.string.inj (Option.some.inj htype)).symm,
        (Value.string.inj (Option.some.inj hsource)).symm⟩
    | none =>
      rw [hdecoded, Option.none_or] at hq
      have htype := MessageType.new_of_valid m.messageType.valid
      have hname := PrimitiveName.new_of_valid m.source.valid
      simp only [fallbackMessage, notificationOf, EmergentMessage.tryNewWithIdAndTimestamp, htype,
        hname, Except.toOption, bind, Except.bind, pure, Except.pure, Option.bind_some,
        Option.getD_some, Option.some.injEq] at hq
      subst hq
      exact ⟨rfl, rfl⟩
  split
  · obtain ⟨htype, hsource⟩ := unwrapStdout_names fromJson q
    rw [htype, hsource]
    exact hnames
  · exact hnames

theorem bridge_notificationOf (fromStr : String → Option TypeId)
    (fromJson : String → Option Value) (shutdownKind : String) (autoUnwrap : Bool) (fresh : Fresh)
    {m : EmergentMessage} (h : m.messageType.value ≠ "system.shutdown") :
    ∃ r, bridge fromStr fromJson shutdownKind autoUnwrap fresh (notificationOf m) = .forward r ∧
      received fromStr fromJson autoUnwrap fresh (notificationOf m) = some r := by
  have hcarries : carriesEmergentMessage (notificationOf m).messageType = true := by
    have htype := MessageType.new_of_valid m.messageType.valid
    simp [carriesEmergentMessage, notificationOf, htype, Except.toOption]
  have hsome : (received fromStr fromJson autoUnwrap fresh (notificationOf m)).isSome = true := by
    have hfallback := fallbackMessage_notificationOf fresh m
    simp [received, hfallback]
  obtain ⟨r, hr⟩ := Option.isSome_iff_exists.mp hsome
  refine ⟨r, ?_, hr⟩
  have htype : (notificationOf m).messageType ≠ "system.shutdown" := h
  simp only [bridge, if_neg htype, hcarries, hr]
  rfl

end Emergent.Sdk

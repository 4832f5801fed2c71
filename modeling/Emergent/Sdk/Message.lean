import Emergent.Sdk.Types

/-!
# JSON values and the message envelope (`sdks/rust/src/message.rs`)

`Value` is `serde_json::Value`; an object is an association list of which only
the first entry of a key is visible, so it stands for a map. `fromValue` is the
derived deserializer of `EmergentMessage`: from an object by field name, where
an absent optional field is `None` and unknown fields are ignored, and from an
array by position, where every field is present and no element is left over.
-/

namespace Emergent.Sdk

/-- `serde_json::Number`: a `u64`, an `i64` below zero, or a double. -/
inductive Number where
  | posInt (n : UInt64)
  | negInt (n : ℤ)
  | float (bits : UInt64)
  deriving Repr, DecidableEq

inductive Value where
  | null
  | bool (b : Bool)
  | number (n : Number)
  | string (s : String)
  | array (items : List Value)
  | object (fields : List (String × Value))
  deriving Repr

namespace Value

/-- `Value::get` with a string index: only an object has named members. -/
def get : Value → String → Option Value
  | .object fields, key => fields.lookup key
  | _, _ => none

def asStr : Value → Option String
  | .string s => some s
  | _ => none

def isObject : Value → Bool
  | .object _ => true
  | _ => false

theorem asStr_eq_some {v : Value} {s : String} : v.asStr = some s ↔ v = .string s := by
  cases v <;> simp [asStr]

theorem isObject_of_get {v w : Value} {key : String} (h : v.get key = some w) :
    v.isObject = true := by
  cases v <;> simp_all [get, isObject]

end Value

structure EmergentMessage where
  id : MessageId
  messageType : MessageType
  source : PrimitiveName
  correlationId : Option CorrelationId
  causationId : Option CausationId
  timestampMs : UInt64
  payload : Value
  metadata : Option Value

def EmergentMessage.tryNewWithIdAndTimestamp (messageType : String) (id : MessageId)
    (timestampMs : UInt64) : Except InvalidMessageType EmergentMessage := do
  let messageType ← MessageType.new messageType
  return { id, messageType, source := .unknown, correlationId := none, causationId := none,
           timestampMs, payload := .null, metadata := none }

/-! ### The derived deserializer -/

section
variable (fromStr : String → Option TypeId)

/-- A newtype over a string: anything but a string is refused, then the
newtype's own constructor decides. -/
def decodeString {ε β : Type} (build : String → Except ε β) (v : Value) : Option β :=
  v.asStr.bind fun s => (build s).toOption

def decodeOption {β : Type} (decode : Value → Option β) : Value → Option (Option β)
  | .null => some none
  | v => (decode v).map some

/-- `Timestamp` is transparent over `u64`: only a non-negative integer. -/
def decodeTimestamp : Value → Option UInt64
  | .number (.posInt n) => some n
  | _ => none

def decodeFields (id messageType source correlationId causationId timestampMs payload
    metadata : Value) : Option EmergentMessage := do
  let id ← decodeString (MessageId.parse fromStr) id
  let messageType ← decodeString MessageType.new messageType
  let source ← decodeString PrimitiveName.new source
  let correlationId ← decodeOption (decodeString (CorrelationId.parse fromStr)) correlationId
  let causationId ← decodeOption (decodeString (CausationId.parse fromStr)) causationId
  let timestampMs ← decodeTimestamp timestampMs
  let metadata ← decodeOption some metadata
  return { id, messageType, source, correlationId, causationId, timestampMs, payload, metadata }

def EmergentMessage.fromValue : Value → Option EmergentMessage
  | .object fields => do
    let v := Value.object fields
    let id ← v.get "id"
    let messageType ← v.get "message_type"
    let source ← v.get "source"
    let timestampMs ← v.get "timestamp_ms"
    let payload ← v.get "payload"
    decodeFields fromStr id messageType source ((v.get "correlation_id").getD .null)
      ((v.get "causation_id").getD .null) timestampMs payload ((v.get "metadata").getD .null)
  | .array [id, messageType, source, correlationId, causationId, timestampMs, payload,
      metadata] =>
    decodeFields fromStr id messageType source correlationId causationId timestampMs payload
      metadata
  | _ => none

/-- The broker's wire wrapper: `IpcEmergentMessage` and `IpcSystemEvent` are
both a struct with the single field `inner`, and so share one decoder. -/
def fromIpcPayload : Value → Option EmergentMessage
  | .object fields => ((Value.object fields).get "inner").bind (EmergentMessage.fromValue fromStr)
  | .array [inner] => EmergentMessage.fromValue fromStr inner
  | _ => none

end

/-! ### What a decoded message says about the value it came from -/

variable {fromStr : String → Option TypeId}

theorem decodeString_eq_some {ε β : Type} {build : String → Except ε β} {v : Value} {b : β} :
    decodeString build v = some b ↔ ∃ s, v = .string s ∧ build s = .ok b := by
  unfold decodeString
  constructor
  · intro h
    obtain ⟨s, hs, hb⟩ := Option.bind_eq_some_iff.mp h
    refine ⟨s, Value.asStr_eq_some.mp hs, ?_⟩
    cases hbs : build s with
    | error e => simp [hbs, Except.toOption] at hb
    | ok x =>
      have he : x = b := by simpa [hbs, Except.toOption] using hb
      rw [he]
  · rintro ⟨s, rfl, hb⟩
    simp [Value.asStr, hb, Except.toOption]

theorem parseId_eq_ok {accepted : List String} {expected s : String} {id : TaggedId accepted} :
    parseId fromStr accepted expected s = .ok id ↔ fromStr s = some id.id := by
  unfold parseId
  cases fromStr s with
  | none => simp
  | some read =>
    constructor
    · intro h
      simp only at h
      split at h
      · cases h
        rfl
      · cases h
    · intro h
      cases h
      simp only [dif_pos id.tagged]

theorem decodeString_parse {accepted : List String} {expected s : String}
    {id : TaggedId accepted} :
    decodeString (parseId fromStr accepted expected) (.string s) = some id ↔
      fromStr s = some id.id := by
  rw [decodeString_eq_some]
  constructor
  · rintro ⟨_, heq, h⟩
    cases heq
    exact parseId_eq_ok.mp h
  · exact fun h => ⟨s, rfl, parseId_eq_ok.mpr h⟩

theorem decodeString_messageType (t : MessageType) :
    decodeString MessageType.new (.string t.value) = some t :=
  decodeString_eq_some.mpr ⟨t.value, rfl, messageType_new_value t⟩

theorem decodeString_primitiveName (n : PrimitiveName) :
    decodeString PrimitiveName.new (.string n.value) = some n :=
  decodeString_eq_some.mpr ⟨n.value, rfl, PrimitiveName.new_of_valid n.valid⟩

theorem decodeFields_eq_some {id messageType source correlationId causationId timestampMs payload
    metadata : Value} {d : EmergentMessage} :
    decodeFields fromStr id messageType source correlationId causationId timestampMs payload
        metadata = some d ↔
      decodeString (MessageId.parse fromStr) id = some d.id ∧
        decodeString MessageType.new messageType = some d.messageType ∧
        decodeString PrimitiveName.new source = some d.source ∧
        decodeOption (decodeString (CorrelationId.parse fromStr)) correlationId =
          some d.correlationId ∧
        decodeOption (decodeString (CausationId.parse fromStr)) causationId =
          some d.causationId ∧
        decodeTimestamp timestampMs = some d.timestampMs ∧ payload = d.payload ∧
        decodeOption some metadata = some d.metadata := by
  simp only [decodeFields, Option.bind_eq_bind, Option.bind_eq_some_iff, Option.pure_def]
  constructor
  · rintro ⟨_, hid, _, htype, _, hsource, _, hcor, _, hcau, _, htime, _, hmeta, h⟩
    cases h
    exact ⟨hid, htype, hsource, hcor, hcau, htime, rfl, hmeta⟩
  · rintro ⟨hid, htype, hsource, hcor, hcau, htime, rfl, hmeta⟩
    exact ⟨_, hid, _, htype, _, hsource, _, hcor, _, hcau, _, htime, _, hmeta, rfl⟩

/-- From an object with the fields that are required. -/
theorem fromValue_of_get {v id messageType source timestampMs payload : Value}
    (hid : v.get "id" = some id) (htype : v.get "message_type" = some messageType)
    (hsource : v.get "source" = some source) (htime : v.get "timestamp_ms" = some timestampMs)
    (hpayload : v.get "payload" = some payload) :
    EmergentMessage.fromValue fromStr v =
      decodeFields fromStr id messageType source ((v.get "correlation_id").getD .null)
        ((v.get "causation_id").getD .null) timestampMs payload
        ((v.get "metadata").getD .null) := by
  cases v with
  | object fields =>
    simp only [EmergentMessage.fromValue, hid, htype, hsource, htime, hpayload,
      Option.bind_eq_bind, Option.bind_some]
  | _ => cases hid

theorem decodeFields_names {id messageType source correlationId causationId timestampMs payload
    metadata : Value} {m : EmergentMessage}
    (h : decodeFields fromStr id messageType source correlationId causationId timestampMs payload
      metadata = some m) :
    messageType = .string m.messageType.value ∧ source = .string m.source.value := by
  obtain ⟨_, ht, hn, _⟩ := decodeFields_eq_some.mp h
  obtain ⟨s, hs, hb⟩ := decodeString_eq_some.mp ht
  obtain ⟨r, hr, hc⟩ := decodeString_eq_some.mp hn
  refine ⟨?_, ?_⟩
  · rw [hs, MessageType.new_value hb]
  · rw [hr, PrimitiveName.new_value hc]

theorem fromValue_object {v : Value} {m : EmergentMessage} (hv : v.isObject = true)
    (h : EmergentMessage.fromValue fromStr v = some m) :
    v.get "message_type" = some (.string m.messageType.value) ∧
      v.get "source" = some (.string m.source.value) := by
  cases v with
  | object fields =>
    simp only [EmergentMessage.fromValue, Option.bind_eq_bind] at h
    obtain ⟨_, _, h⟩ := Option.bind_eq_some_iff.mp h
    obtain ⟨t, ht, h⟩ := Option.bind_eq_some_iff.mp h
    obtain ⟨n, hn, h⟩ := Option.bind_eq_some_iff.mp h
    obtain ⟨_, _, h⟩ := Option.bind_eq_some_iff.mp h
    obtain ⟨_, _, h⟩ := Option.bind_eq_some_iff.mp h
    have hnames := decodeFields_names h
    rw [ht, hn, hnames.1, hnames.2]
    exact ⟨rfl, rfl⟩
  | _ => cases hv

end Emergent.Sdk

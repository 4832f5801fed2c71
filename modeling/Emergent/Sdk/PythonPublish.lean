import Emergent.Sdk.Bridge
import Emergent.Sdk.Frames

/-!
# From Python's builder to the engine's decoder

`py/emergent/message.py`, `types.py` and `_client.py` on one side,
`rust/src/message.rs` on the other. `publishEnvelope` is what `_publish` and
`_publish_ack` send: the fields of the message that are not `None`, under the
client's own name. The engine reads the payload of the envelope with
`fromIpcPayload`. A dictionary is an association list, Python's `None` is the
null of JSON, and an integer beyond 64 bits is what each format makes of it.
-/

namespace Emergent.Sdk

/-- An identifier as the SDK generates it: its text is read back. -/
structure GeneratedId (fromStr : String → Option TypeId) (accepted : List String) where
  id : TypeId
  tagged : id.pre ∈ accepted
  reads : fromStr id.toStr = some id

structure Py.EmergentMessage (fromStr : String → Option TypeId) where
  id : GeneratedId fromStr ["msg"]
  messageType : MessageType
  source : String
  correlationId : Option (GeneratedId fromStr ["cor"])
  causationId : Option (GeneratedId fromStr ["msg"])
  timestampMs : ℤ
  payload : Value
  metadata : Option (List (String × Value))

variable {fromStr : String → Option TypeId}

/-! ### The builder (`message.py`) -/

/-- A call of one of the builder's methods. -/
inductive Py.BuilderCall (fromStr : String → Option TypeId) where
  | payload (data : Value)
  | metadata (entries : List (String × Value))
  | causedBy (messageId : GeneratedId fromStr ["msg"])
  | correlatedWith (correlationId : GeneratedId fromStr ["cor"])
  | source (name : String)
  | withId (id : GeneratedId fromStr ["msg"])
  | withTimestamp (timestampMs : ℤ)

def Py.BuilderCall.apply (m : Py.EmergentMessage fromStr) :
    Py.BuilderCall fromStr → Py.EmergentMessage fromStr
  | .payload data => { m with payload := data }
  | .metadata entries => { m with metadata := some entries }
  | .causedBy messageId => { m with causationId := some messageId }
  | .correlatedWith correlationId => { m with correlationId := some correlationId }
  | .source name => { m with source := name }
  | .withId id => { m with id := id }
  | .withTimestamp timestampMs => { m with timestampMs := timestampMs }

/-- `create_message`, with the id and the clock it takes. -/
def Py.createMessage (messageType : MessageType) (id : GeneratedId fromStr ["msg"])
    (timestampMs : ℤ) : Py.EmergentMessage fromStr where
  id := id
  messageType := messageType
  source := ""
  correlationId := none
  causationId := none
  timestampMs := timestampMs
  payload := .null
  metadata := none

def Py.build (messageType : MessageType) (id : GeneratedId fromStr ["msg"]) (timestampMs : ℤ)
    (calls : List (Py.BuilderCall fromStr)) : Py.EmergentMessage fromStr :=
  calls.foldl Py.BuilderCall.apply (Py.createMessage messageType id timestampMs)

/-! ### The wire (`types.py`, `_client.py`) -/

def Value.isNone : Value → Bool
  | .null => true
  | _ => false

/-- `model_dump(exclude_none=True)`: it looks at the fields, not inside them. -/
def Py.modelDump (fields : List (String × Value)) : List (String × Value) :=
  fields.filter fun field => !field.2.isNone

def Py.setItem (key : String) (value : Value) : List (String × Value) → List (String × Value)
  | [] => [(key, value)]
  | field :: fields =>
    if field.1 = key then (key, value) :: fields else field :: Py.setItem key value fields

def Py.optional : Option String → Value
  | none => .null
  | some s => .string s

def Py.dictionary : Option (List (String × Value)) → Value
  | none => .null
  | some entries => .object entries

def Py.toWire (m : Py.EmergentMessage fromStr) (timestampMs : Number) : List (String × Value) :=
  [("id", .string m.id.id.toStr),
    ("message_type", .string m.messageType.value),
    ("source", .string m.source),
    ("correlation_id", Py.optional (m.correlationId.map fun id => id.id.toStr)),
    ("causation_id", Py.optional (m.causationId.map fun id => id.id.toStr)),
    ("timestamp_ms", .number timestampMs),
    ("payload", m.payload),
    ("metadata", Py.dictionary m.metadata)]

def Py.wireDict (name : String) (m : Py.EmergentMessage fromStr) (timestampMs : Number) :
    List (String × Value) :=
  Py.setItem "source" (.string name) (Py.modelDump (Py.toWire m timestampMs))

/-- A Python integer on the wire. Beyond 64 bits MessagePack refuses it and JSON
is read as a double. -/
def Py.wireInteger (toDouble : ℤ → UInt64) (format : Format) (n : ℤ) : Option Number :=
  if 0 ≤ n ∧ n < 2 ^ 64 then some (.posInt (UInt64.ofNat n.toNat))
  else if -2 ^ 63 ≤ n ∧ n < 0 then some (.negInt n)
  else
    match format with
    | .json => some (.float (toDouble n))
    | .msgpack => none

structure Py.IpcEnvelope where
  correlationId : String
  target : String
  messageType : String
  payload : Value
  expectsReply : Bool

/-- The envelope of both publishes; `none` when it cannot be packed. -/
def Py.publishEnvelope (expectsReply : Bool) (toDouble : ℤ → UInt64) (format : Format)
    (name correlationId : String) (m : Py.EmergentMessage fromStr) : Option Py.IpcEnvelope :=
  (Py.wireInteger toDouble format m.timestampMs).map fun timestampMs =>
    { correlationId := correlationId
      target := "message_broker"
      messageType := "EmergentMessage"
      payload := .object [("inner", .object (Py.wireDict name m timestampMs))]
      expectsReply := expectsReply }

def Py.publish (toDouble : ℤ → UInt64) (format : Format) (name correlationId : String)
    (m : Py.EmergentMessage fromStr) : Option Py.IpcEnvelope :=
  Py.publishEnvelope false toDouble format name correlationId m

def Py.publishAck (toDouble : ℤ → UInt64) (format : Format) (name correlationId : String)
    (m : Py.EmergentMessage fromStr) : Option Py.IpcEnvelope :=
  Py.publishEnvelope true toDouble format name correlationId m

/-- A message as `types.py` has it: its identifiers, its type and its source are whatever
strings the program put there. -/
structure PyMessage where
  id : String
  messageType : String
  source : String
  correlationId : Option String
  causationId : Option String
  timestampMs : ℤ
  payload : Value
  metadata : Option (List (String × Value))

def PyMessage.toWire (m : PyMessage) (timestampMs : Number) : List (String × Value) :=
  [("id", .string m.id), ("message_type", .string m.messageType), ("source", .string m.source),
    ("correlation_id", Py.optional m.correlationId),
    ("causation_id", Py.optional m.causationId), ("timestamp_ms", .number timestampMs),
    ("payload", m.payload), ("metadata", Py.dictionary m.metadata)]

def PyMessage.wireDict (name : String) (m : PyMessage) (timestampMs : Number) :
    List (String × Value) :=
  Py.setItem "source" (.string name) (Py.modelDump (m.toWire timestampMs))

def PyMessage.publishEnvelope (expectsReply : Bool) (toDouble : ℤ → UInt64) (format : Format)
    (name correlationId : String) (m : PyMessage) : Option Py.IpcEnvelope :=
  (Py.wireInteger toDouble format m.timestampMs).map fun timestampMs =>
    { correlationId := correlationId
      target := "message_broker"
      messageType := "EmergentMessage"
      payload := .object [("inner", .object (m.wireDict name timestampMs))]
      expectsReply := expectsReply }

/-- The strings of a message whose identifiers and type are known to be well formed. -/
def Py.EmergentMessage.plain (m : Py.EmergentMessage fromStr) : PyMessage where
  id := m.id.id.toStr
  messageType := m.messageType.value
  source := m.source
  correlationId := m.correlationId.map fun id => id.id.toStr
  causationId := m.causationId.map fun id => id.id.toStr
  timestampMs := m.timestampMs
  payload := m.payload
  metadata := m.metadata

theorem Py.publishEnvelope_plain (expectsReply : Bool) (toDouble : ℤ → UInt64) (format : Format)
    (name correlationId : String) (m : Py.EmergentMessage fromStr) :
    Py.publishEnvelope expectsReply toDouble format name correlationId m =
      m.plain.publishEnvelope expectsReply toDouble format name correlationId := rfl

/-! ### What the engine makes of it -/

/-- The decoded message is the one built, from `source`. -/
structure SameMessage (source : String) (m : Py.EmergentMessage fromStr) (d : EmergentMessage) :
    Prop where
  id : d.id.id = m.id.id
  messageType : d.messageType = m.messageType
  source : d.source.value = source
  correlationId : d.correlationId.map (fun id => id.id) = m.correlationId.map fun id => id.id
  causationId : d.causationId.map (fun id => id.id) = m.causationId.map fun id => id.id
  timestampMs : (d.timestampMs.toNat : ℤ) = m.timestampMs
  payload : d.payload = m.payload
  metadata : d.metadata = m.metadata.map .object

def Received (sent : Option Py.IpcEnvelope) (source : String) (m : Py.EmergentMessage fromStr) :
    Prop :=
  ∃ envelope d, sent = some envelope ∧ fromIpcPayload fromStr envelope.payload = some d ∧
    SameMessage source m d

/-- Both publishes of the client called `name` bring the message to the engine. -/
def Arrives (toDouble : ℤ → UInt64) (format : Format) (name correlationId source : String)
    (m : Py.EmergentMessage fromStr) : Prop :=
  Received (Py.publish toDouble format name correlationId m) source m ∧
    Received (Py.publishAck toDouble format name correlationId m) source m

/-- The message has a payload, and its timestamp is one. -/
def Publishable (m : Py.EmergentMessage fromStr) : Prop :=
  m.payload.isNone = false ∧ 0 ≤ m.timestampMs ∧ m.timestampMs < 2 ^ 64

/-- `Publishable`, of the plain message. -/
def PyMessage.Timely (m : PyMessage) : Prop :=
  m.payload.isNone = false ∧ 0 ≤ m.timestampMs ∧ m.timestampMs < 2 ^ 64

/-! ### Association lists as dictionaries -/

theorem lookup_eq_none {fields : List (String × Value)} {key : String}
    (h : key ∉ fields.map Prod.fst) : fields.lookup key = none := by
  rw [List.lookup_eq_none_iff]
  intro field hfield
  have hne : key ≠ field.1 := fun heq => h (heq ▸ List.mem_map_of_mem hfield)
  simpa using hne

theorem lookup_modelDump {fields : List (String × Value)} (h : (fields.map Prod.fst).Nodup)
    (key : String) :
    (Py.modelDump fields).lookup key = (fields.lookup key).filter fun v => !v.isNone := by
  induction fields with
  | nil => rfl
  | cons field fields ih =>
    obtain ⟨name, value⟩ := field
    rw [List.map_cons, List.nodup_cons] at h
    have hrest := ih h.2
    unfold Py.modelDump at hrest ⊢
    by_cases hkey : key = name
    · subst hkey
      have habsent := lookup_eq_none h.1
      rw [habsent] at hrest
      cases hnone : value.isNone with
      | true =>
        rw [List.filter_cons_of_neg (by simp [hnone]), hrest]
        simp [Option.filter, hnone]
      | false =>
        rw [List.filter_cons_of_pos (by simp [hnone])]
        simp [Option.filter, hnone]
    · have hbeq : (key == name) = false := beq_false_of_ne hkey
      cases hnone : value.isNone with
      | true =>
        rw [List.filter_cons_of_neg (by simp [hnone]), hrest, List.lookup_cons, hbeq]
      | false =>
        rw [List.filter_cons_of_pos (by simp [hnone]), List.lookup_cons, hbeq, List.lookup_cons,
          hbeq]
        exact hrest

theorem lookup_setItem (key : String) (value : Value) (fields : List (String × Value))
    (other : String) :
    (Py.setItem key value fields).lookup other =
      if other = key then some value else fields.lookup other := by
  induction fields with
  | nil =>
    by_cases hkey : other = key
    · simp [Py.setItem, hkey]
    · have hbeq : (other == key) = false := beq_false_of_ne hkey
      simp [Py.setItem, List.lookup_cons, hbeq, hkey]
  | cons field fields ih =>
    obtain ⟨name, old⟩ := field
    rw [Py.setItem]
    by_cases hname : name = key
    · rw [if_pos hname, List.lookup_cons, List.lookup_cons, hname]
      by_cases hkey : other = key
      · simp [hkey]
      · have hbeq : (other == key) = false := beq_false_of_ne hkey
        simp [hbeq, hkey]
    · rw [if_neg hname, List.lookup_cons, List.lookup_cons, ih]
      by_cases hkey : other = name
      · have hother : other ≠ key := fun heq => hname (hkey.symm.trans heq)
        simp [hkey, hname]
      · have hbeq : (other == name) = false := beq_false_of_ne hkey
        rw [hbeq]

theorem filter_getD (v : Value) :
    (((some v).filter fun v => !v.isNone).getD .null) = v := by
  cases v <;> rfl

theorem decodeFields_no_timestamp {id messageType source correlationId causationId timestampMs
    payload metadata : Value} (h : decodeTimestamp timestampMs = none) :
    decodeFields fromStr id messageType source correlationId causationId timestampMs payload
      metadata = none := by
  cases hdecoded : decodeFields fromStr id messageType source correlationId causationId timestampMs
      payload metadata with
  | none => rfl
  | some d =>
    simp [decodeFields, h] at hdecoded

namespace PyMessage

section
variable (name : String) (m : PyMessage) (timestampMs : Number)

/-- What the engine finds under a field of the envelope. -/
theorem get_wireDict (key : String) :
    (Value.object (m.wireDict name timestampMs)).get key =
      if key = "source" then some (.string name)
      else ((m.toWire timestampMs).lookup key).filter fun v => !v.isNone := by
  have hnodup : ((m.toWire timestampMs).map Prod.fst).Nodup := by
    show ["id", "message_type", "source", "correlation_id", "causation_id", "timestamp_ms",
      "payload", "metadata"].Nodup
    decide
  rw [Value.get, wireDict, lookup_setItem, lookup_modelDump hnodup]

theorem fromValue_wireDict :
    EmergentMessage.fromValue fromStr (.object (m.wireDict name timestampMs)) =
      if m.payload.isNone then none
      else decodeFields fromStr (.string m.id) (.string m.messageType) (.string name)
        (Py.optional m.correlationId) (Py.optional m.causationId) (.number timestampMs) m.payload
        (Py.dictionary m.metadata) := by
  have hget := get_wireDict name m timestampMs
  have hid := hget "id"
  have htype := hget "message_type"
  have hsource := hget "source"
  have hcorrelation := hget "correlation_id"
  have hcausation := hget "causation_id"
  have htimestamp := hget "timestamp_ms"
  have hpayload := hget "payload"
  have hmetadata := hget "metadata"
  rw [if_neg (by decide)] at hid htype hcorrelation hcausation htimestamp hpayload hmetadata
  rw [if_pos rfl] at hsource
  simp only [EmergentMessage.fromValue, hid, htype, hsource, hcorrelation, hcausation, htimestamp,
    hpayload, hmetadata]
  show (((some m.payload).filter fun v => !v.isNone).bind fun payload => decodeFields fromStr
    (.string m.id) (.string m.messageType) (.string name)
    (((some (Py.optional m.correlationId)).filter fun v => !v.isNone).getD .null)
    (((some (Py.optional m.causationId)).filter fun v => !v.isNone).getD .null)
    (.number timestampMs) payload
    (((some (Py.dictionary m.metadata)).filter fun v => !v.isNone).getD .null)) = _
  rw [filter_getD, filter_getD, filter_getD]
  cases hnone : m.payload.isNone with
  | true => simp [Option.filter, hnone]
  | false => simp [Option.filter, hnone]

end

/-- What the engine decodes has a payload and a time, and has the client's name. -/
theorem timely_of_decoded {expectsReply : Bool} {toDouble : ℤ → UInt64} {format : Format}
    {name correlationId : String} {m : PyMessage} {envelope : Py.IpcEnvelope}
    {d : EmergentMessage}
    (hsent : m.publishEnvelope expectsReply toDouble format name correlationId = some envelope)
    (hd : fromIpcPayload fromStr envelope.payload = some d) :
    m.Timely ∧ d.source.value = name := by
  obtain ⟨timestampMs, hinteger, rfl⟩ := Option.map_eq_some_iff.mp hsent
  have hdecoded : EmergentMessage.fromValue fromStr
      (.object (m.wireDict name timestampMs)) = some d := hd
  have hsource : d.source.value = name := by
    obtain ⟨_, hname⟩ := fromValue_object rfl hdecoded
    rw [get_wireDict, if_pos rfl] at hname
    exact (Value.string.inj (Option.some.inj hname)).symm
  rw [fromValue_wireDict] at hdecoded
  cases hpayload : m.payload.isNone with
  | true =>
    rw [hpayload] at hdecoded
    cases hdecoded
  | false =>
    rw [hpayload] at hdecoded
    refine ⟨⟨hpayload, ?_⟩, hsource⟩
    by_cases hrange : 0 ≤ m.timestampMs ∧ m.timestampMs < 2 ^ 64
    · exact hrange
    · have hnone : decodeTimestamp (.number timestampMs) = none := by
        unfold Py.wireInteger at hinteger
        rw [if_neg hrange] at hinteger
        split_ifs at hinteger
        · cases hinteger
          rfl
        · cases format with
          | json =>
            cases hinteger
            rfl
          | msgpack => cases hinteger
      rw [if_neg (by decide), decodeFields_no_timestamp hnone] at hdecoded
      cases hdecoded

end PyMessage

/-! ### The round trip -/

theorem decodeOption_optional (accepted : List String) (expected : String) {sent : List String}
    (hsub : sent ⊆ accepted) (id : Option (GeneratedId fromStr sent)) :
    ∃ read, decodeOption (decodeString (parseId fromStr accepted expected))
        (Py.optional (id.map fun id => id.id.toStr)) = some read ∧
      read.map (fun id => id.id) = id.map fun id => id.id := by
  cases id with
  | none => exact ⟨none, rfl, rfl⟩
  | some id =>
    refine ⟨some ⟨id.id, hsub id.tagged⟩, ?_, rfl⟩
    exact Option.map_eq_some_iff.mpr ⟨_, decodeString_parse.mpr id.reads, rfl⟩

theorem decodeOption_dictionary (metadata : Option (List (String × Value))) :
    decodeOption some (Py.dictionary metadata) = some (metadata.map .object) := by
  cases metadata <;> rfl

/-- Sent under a valid name, a message with a payload and a `u64` as timestamp
is decoded as it was built. -/
theorem decodeFields_sent (name : PrimitiveName) (m : Py.EmergentMessage fromStr) (n : UInt64)
    (hn : (n.toNat : ℤ) = m.timestampMs) :
    ∃ d, decodeFields fromStr (.string m.id.id.toStr) (.string m.messageType.value)
        (.string name.value) (Py.optional (m.correlationId.map fun id => id.id.toStr))
        (Py.optional (m.causationId.map fun id => id.id.toStr)) (.number (.posInt n)) m.payload
        (Py.dictionary m.metadata) = some d ∧ SameMessage name.value m d := by
  obtain ⟨cor, hcor, hcorid⟩ :=
    decodeOption_optional ["cor"] "cor" (List.Subset.refl _) m.correlationId
  obtain ⟨cau, hcau, hcauid⟩ :=
    decodeOption_optional ["cau", "msg"] "cau or msg" (by simp) m.causationId
  refine ⟨⟨⟨m.id.id, m.id.tagged⟩, m.messageType, name, cor, cau, n, m.payload,
    m.metadata.map .object⟩, ?_, ?_⟩
  · exact decodeFields_eq_some.mpr ⟨decodeString_parse.mpr m.id.reads,
      decodeString_messageType m.messageType, decodeString_primitiveName name, hcor, hcau, rfl,
      rfl, decodeOption_dictionary m.metadata⟩
  · exact ⟨rfl, rfl, rfl, hcorid, hcauid, hn, rfl, rfl⟩

section
variable (expectsReply : Bool) (toDouble : ℤ → UInt64) (format : Format) (name : PrimitiveName)
  (correlationId : String) (m : Py.EmergentMessage fromStr) (source : String)

theorem received_of_publishable (h : Publishable m) :
    Received (Py.publishEnvelope expectsReply toDouble format name.value correlationId m)
      name.value m := by
  obtain ⟨hpayload, hlow, hhigh⟩ := h
  have hinteger : Py.wireInteger toDouble format m.timestampMs =
      some (.posInt (UInt64.ofNat m.timestampMs.toNat)) := by
    unfold Py.wireInteger
    rw [if_pos ⟨hlow, hhigh⟩]
  have hn : ((UInt64.ofNat m.timestampMs.toNat).toNat : ℤ) = m.timestampMs := by
    rw [UInt64.toNat_ofNat']
    omega
  obtain ⟨d, hd, hsame⟩ := decodeFields_sent name m _ hn
  refine ⟨_, d, by rw [Py.publishEnvelope, hinteger]; rfl, ?_, hsame⟩
  show EmergentMessage.fromValue fromStr (.object (m.plain.wireDict name.value _)) = some d
  have hplain : m.plain.payload.isNone = false := hpayload
  rw [PyMessage.fromValue_wireDict, hplain]
  exact hd

theorem publishable_of_received
    (h : Received (Py.publishEnvelope expectsReply toDouble format name.value correlationId m)
      source m) : Publishable m ∧ source = name.value := by
  obtain ⟨envelope, d, hsent, hd, hsame⟩ := h
  rw [Py.publishEnvelope_plain] at hsent
  obtain ⟨hpublishable, hsource⟩ := PyMessage.timely_of_decoded hsent hd
  exact ⟨hpublishable, hsame.source.symm.trans hsource⟩

theorem received_iff :
    Received (Py.publishEnvelope expectsReply toDouble format name.value correlationId m)
      source m ↔ Publishable m ∧ source = name.value := by
  constructor
  · exact publishable_of_received expectsReply toDouble format name correlationId m source
  · intro ⟨h, hsource⟩
    rw [hsource]
    exact received_of_publishable expectsReply toDouble format name correlationId m h

end

def sampleId : GeneratedId readTypeId ["msg"] where
  id := ⟨"msg", "01h455vb4pex5vsknk084sn02q"⟩
  tagged := List.mem_singleton_self "msg"
  reads := by decide

end Emergent.Sdk

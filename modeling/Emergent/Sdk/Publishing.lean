import Emergent.Sdk.PushReading
import Emergent.Sdk.PythonPublish

/-!
# A message from one SDK to another

`publish` and `publish_ack` of `sdks/rust/src/connection.rs`, `publishInternal` and
`publishInternalAck` of `ts/src/client.ts` and `go/client.go`; Python's are
`PyMessage.publishEnvelope`. All but the Rust SDK send a message under the name of the
client, whatever source it has. TypeScript and Go write MessagePack, where
`undefined` and `nil` are null; a payload stands for the JSON value that the encoder
makes of it, and the frame is one that the transport takes.

The engine takes a message exactly if it is well formed, and then the decoders of the
four SDKs find in what it sends on the message that was meant: TypeScript with its
numbers as doubles, and before Python's `from_wire` leaves out metadata that is no
dictionary.
-/

namespace Emergent.Sdk

/-! ### What the SDKs send -/

abbrev IpcEnvelope := Py.IpcEnvelope

def publishEnvelope (expectsReply : Bool) (correlationId : String) (inner : Value) :
    IpcEnvelope where
  correlationId := correlationId
  target := "message_broker"
  messageType := "EmergentMessage"
  payload := .object [("inner", inner)]
  expectsReply := expectsReply

def PrimitiveName.isDefault (name : PrimitiveName) : Bool := name.value = "unknown"

/-- A message that already has a source keeps it. -/
def Rust.publish (expectsReply : Bool) (name correlationId : String) (m : EmergentMessage) :
    Option IpcEnvelope := do
  let source ← if m.source.isDefault then (PrimitiveName.new name).toOption else some m.source
  return publishEnvelope expectsReply correlationId ({ m with source } : EmergentMessage).toValue

/-- `none` is `undefined`. -/
structure TsMessage where
  id : String
  messageType : String
  source : String
  correlationId : Option String
  causationId : Option String
  timestampMs : Number
  payload : Option Value
  metadata : Option Value

def Ts.wireMessage (name : String) (m : TsMessage) : Value :=
  .object
    [("id", .string m.id), ("message_type", .string m.messageType), ("source", .string name),
      ("correlation_id", Py.optional m.correlationId),
      ("causation_id", Py.optional m.causationId), ("timestamp_ms", .number m.timestampMs),
      ("payload", m.payload.getD .null), ("metadata", m.metadata.getD .null)]

def Ts.publish (expectsReply : Bool) (name correlationId : String) (m : TsMessage) :
    IpcEnvelope :=
  publishEnvelope expectsReply correlationId (Ts.wireMessage name m)

/-- An empty id is none; `metadata` is `none` where it is `nil`. -/
structure GoMessage where
  id : String
  messageType : String
  source : String
  correlationId : String
  causationId : String
  timestampMs : UInt64
  payload : Value
  metadata : Option Value

def Go.textField (key text : String) : List (String × Value) :=
  if text = "" then [] else [(key, .string text)]

def Go.toWire (m : GoMessage) : List (String × Value) :=
  [("id", .string m.id), ("message_type", .string m.messageType), ("source", .string m.source),
    ("timestamp_ms", .number (.posInt m.timestampMs)), ("payload", m.payload)] ++
    Go.textField "correlation_id" m.correlationId ++
    Go.textField "causation_id" m.causationId ++ optionalField "metadata" m.metadata

def Go.publish (expectsReply : Bool) (name correlationId : String) (m : GoMessage) :
    IpcEnvelope :=
  publishEnvelope expectsReply correlationId
    (.object (Py.setItem "source" (.string name) (Go.toWire m)))

/-- A message in the hands of the SDK that is to publish it. Only Rust's fields are well
formed by their types. -/
inductive Outgoing where
  | rust (m : EmergentMessage)
  | typescript (m : TsMessage)
  | python (m : PyMessage)
  | go (m : GoMessage)

namespace Outgoing

/-- What a client sends; `none` when the call fails before. The format is Python's. -/
def publish (expectsReply : Bool) (toDouble : ℤ → UInt64) (format : Format)
    (name correlationId : String) : Outgoing → Option IpcEnvelope
  | .rust m => Rust.publish expectsReply name correlationId m
  | .typescript m => some (Ts.publish expectsReply name correlationId m)
  | .python m => m.publishEnvelope expectsReply toDouble format name correlationId
  | .go m => some (Go.publish expectsReply name correlationId m)

/-- The message that the program means, as a reader is to see it. -/
def meant (name : String) : Outgoing → WireMessage
  | .rust m =>
    { m.view with
      source := if m.source.isDefault then name else m.source.value
      metadata := m.metadata.filter notNull }
  | .typescript m =>
    ⟨m.id, m.messageType, name, m.correlationId, m.causationId, m.timestampMs,
      m.payload.getD .null, m.metadata.filter notNull⟩
  | .python m =>
    ⟨m.id, m.messageType, name, m.correlationId, m.causationId,
      .posInt (UInt64.ofNat m.timestampMs.toNat), m.payload, m.metadata.map .object⟩
  | .go m =>
    ⟨m.id, m.messageType, name, (some m.correlationId).filter fun s => s ≠ "",
      (some m.causationId).filter fun s => s ≠ "", .posInt m.timestampMs, m.payload,
      m.metadata.filter notNull⟩

end Outgoing

/-! ### What the engine takes -/

/-- The text of an identifier with one of these prefixes, which the engine reads as such. -/
def NamesId (fromStr : String → Option TypeId) (accepted : List String) (s : String) : Prop :=
  ∃ id : TaggedId accepted, id.id.toStr = s ∧ fromStr s = some id.id

structure WireMessage.Acceptable (fromStr : String → Option TypeId) (w : WireMessage) : Prop where
  id : NamesId fromStr ["msg"] w.id
  messageType : ValidMessageType w.messageType
  source : ValidPrimitiveName w.source
  correlationId : ∀ s ∈ w.correlationId, NamesId fromStr ["cor"] s
  causationId : ∀ s ∈ w.causationId, NamesId fromStr ["cau", "msg"] s
  timestampMs : ∃ n, w.timestampMs = .posInt n

/-- In all four SDKs the fields have to be acceptable. Python's time is any integer, and it
leaves out a payload of `None`, which the engine does not do without. -/
def Outgoing.Publishable (fromStr : String → Option TypeId) (name : String) (o : Outgoing) :
    Prop :=
  (o.meant name).Acceptable fromStr ∧ ∀ m, o = .python m → m.Timely

theorem Outgoing.publishable_of_typed {fromStr : String → Option TypeId} {name : String}
    {o : Outgoing} (h : ∀ m, o ≠ .python m) :
    o.Publishable fromStr name ↔ (o.meant name).Acceptable fromStr := by
  refine and_iff_left ?_
  intro m hm
  exact absurd hm (h m)

theorem Outgoing.publishable_python {fromStr : String → Option TypeId} {name : String}
    {m : PyMessage} : (Outgoing.python m).Publishable fromStr name ↔
      ((Outgoing.python m).meant name).Acceptable fromStr ∧ m.Timely := by
  constructor
  · intro ⟨hacceptable, htimely⟩
    exact ⟨hacceptable, htimely m rfl⟩
  · intro ⟨hacceptable, htimely⟩
    exact ⟨hacceptable, fun m' hm => Outgoing.python.inj hm ▸ htimely⟩

/-- The decoders of the four SDKs find `w` in what the engine sends on. In TypeScript its
numbers are doubles; Python's `Py.fromWire` drops metadata that is no dictionary later. -/
structure ReadAs (fromStr : String → Option TypeId) (pydantic : Pydantic)
    (double : Number → Number) (d : EmergentMessage) (w : WireMessage) : Prop where
  rust : EmergentMessage.fromValue fromStr d.toValue = some d ∧ d.view = w
  typescript : Ts.wireMessageFromPush (d.toValue.mapNumbers double) = some (w.mapNumbers double)
  python : Py.wireMessageFromPush pydantic d.toValue = some w
  go : Go.wireMessageFromPush d.toValue = some w

variable {fromStr : String → Option TypeId}

/-! ### The engine's decoder on what was written -/

/-- The object that the derived deserializer reads as this message. -/
structure WireMessage.WrittenAs (w : WireMessage) (v : Value) : Prop where
  object : v.isObject = true
  id : v.get "id" = some (.string w.id)
  messageType : v.get "message_type" = some (.string w.messageType)
  source : v.get "source" = some (.string w.source)
  correlationId : (v.get "correlation_id").getD .null = Py.optional w.correlationId
  causationId : (v.get "causation_id").getD .null = Py.optional w.causationId
  timestampMs : v.get "timestamp_ms" = some (.number w.timestampMs)
  payload : v.get "payload" = some w.payload
  metadata : decodeOption some ((v.get "metadata").getD .null) = some w.metadata

theorem optional_iff {accepted : List String} (expected : String) {s : Option String} :
    (∃ read, decodeOption (decodeString (parseId fromStr accepted expected)) (Py.optional s) =
        some read ∧ read.map (fun id => id.id.toStr) = s) ↔
      ∀ t ∈ s, NamesId fromStr accepted t := by
  cases s with
  | none =>
    constructor
    · intro _ t ht
      cases ht
    · exact fun _ => ⟨none, rfl, rfl⟩
  | some t =>
    constructor
    · rintro ⟨read, hread, htext⟩ t' ht'
      cases ht'
      obtain ⟨id, hid, rfl⟩ := Option.map_eq_some_iff.mp hread
      exact ⟨id, Option.some.inj htext, decodeString_parse.mp hid⟩
    · intro h
      obtain ⟨id, htext, hread⟩ := h t rfl
      exact ⟨some id, Option.map_eq_some_iff.mpr ⟨id, decodeString_parse.mpr hread, rfl⟩,
        congrArg some htext⟩

theorem optional_reads {accepted : List String} {expected : String}
    {read : Option (TaggedId accepted)}
    (h : decodeOption (decodeString (parseId fromStr accepted expected))
      (Py.optional (read.map fun id => id.id.toStr)) = some read) :
    ∀ id ∈ read, fromStr id.id.toStr = some id.id := by
  intro id hid
  cases hid
  obtain ⟨id', hid', heq⟩ := Option.map_eq_some_iff.mp h
  cases heq
  exact decodeString_parse.mp hid'

theorem filter_notNull {v : Value} {o : Option Value} (h : decodeOption some v = some o) :
    o.filter notNull = o := by
  cases v <;> (cases h; rfl)

section
variable {w : WireMessage} {v : Value} {d : EmergentMessage}

theorem fromValue_written (hw : w.WrittenAs v) :
    EmergentMessage.fromValue fromStr v =
      decodeFields fromStr (.string w.id) (.string w.messageType) (.string w.source)
        (Py.optional w.correlationId) (Py.optional w.causationId) (.number w.timestampMs)
        w.payload ((v.get "metadata").getD .null) := by
  rw [fromValue_of_get hw.id hw.messageType hw.source hw.timestampMs hw.payload,
    hw.correlationId, hw.causationId]

/-- The engine reads the message as it is meant exactly if it is acceptable. -/
theorem decoded_iff (hw : w.WrittenAs v) :
    (∃ d, EmergentMessage.fromValue fromStr v = some d ∧ d.view = w) ↔
      w.Acceptable fromStr := by
  rw [fromValue_written hw]
  constructor
  · rintro ⟨d, hd, rfl⟩
    obtain ⟨hid, _, _, hcor, hcau, _⟩ := decodeFields_eq_some.mp hd
    exact {
      id := ⟨d.id, rfl, decodeString_parse.mp hid⟩
      messageType := d.messageType.valid
      source := d.source.valid
      correlationId := (optional_iff "cor").mp ⟨d.correlationId, hcor, rfl⟩
      causationId := (optional_iff "cau or msg").mp ⟨d.causationId, hcau, rfl⟩
      timestampMs := ⟨d.timestampMs, rfl⟩ }
  · intro h
    obtain ⟨id, hid, hread⟩ := h.id
    obtain ⟨cor, hcor, hcortext⟩ := (optional_iff "cor").mpr h.correlationId
    obtain ⟨cau, hcau, hcautext⟩ := (optional_iff "cau or msg").mpr h.causationId
    obtain ⟨n, hn⟩ := h.timestampMs
    refine ⟨⟨id, ⟨w.messageType, h.messageType⟩, ⟨w.source, h.source⟩, cor, cau, n, w.payload,
      w.metadata⟩, ?_, ?_⟩
    · exact decodeFields_eq_some.mpr ⟨decodeString_parse.mpr hread,
        decodeString_messageType ⟨w.messageType, h.messageType⟩,
        decodeString_primitiveName ⟨w.source, h.source⟩, hcor, hcau, by rw [hn]; rfl, rfl,
        hw.metadata⟩
    · rw [EmergentMessage.view]
      simp only [hid, hcortext, hcautext, ← hn]

/-- What the engine decoded as it was meant is read so by every SDK. -/
theorem readAs_of_decoded (hw : w.WrittenAs v)
    (hd : EmergentMessage.fromValue fromStr v = some d) (hview : d.view = w)
    (pydantic : Pydantic) (double : Number → Number) : ReadAs fromStr pydantic double d w := by
  subst hview
  rw [fromValue_written hw] at hd
  obtain ⟨hid, _, _, hcor, hcau, _, _, hmeta⟩ := decodeFields_eq_some.mp hd
  have hids : IdsRead fromStr d :=
    ⟨decodeString_parse.mp hid, optional_reads hcor, optional_reads hcau⟩
  have hnull : d.metadata.filter notNull = d.metadata := filter_notNull hmeta
  have harriving : d.arriving = d.view := by
    rw [EmergentMessage.arriving, hnull]
    rfl
  refine ⟨⟨?_, rfl⟩, ?_, ?_, ?_⟩
  · rw [fromValue_toValue hids, hnull]
  · rw [Ts.wireMessageFromPush_mapNumbers, harriving]
  · rw [Py.wireMessageFromPush_toValue, harriving]
  · rw [Go.wireMessageFromPush_toValue, harriving]

theorem ReadAs.acceptable (hw : w.WrittenAs v)
    (hd : EmergentMessage.fromValue fromStr v = some d) {pydantic : Pydantic}
    {double : Number → Number} (h : ReadAs fromStr pydantic double d w) :
    w.Acceptable fromStr :=
  (decoded_iff hw).mp ⟨d, hd, h.rust.2⟩

end

/-! ### What the SDKs write -/

theorem arriving_written (m : EmergentMessage) : m.arriving.WrittenAs m.toValue := by
  obtain ⟨hid, htype, hsource, hcor, hcau, htime, hpayload, hmeta, _⟩ := get_toValue m
  refine ⟨rfl, hid, htype, hsource, ?_, ?_, htime, hpayload, ?_⟩
  · rw [hcor, EmergentMessage.arriving, EmergentMessage.view]
    cases m.correlationId <;> rfl
  · rw [hcau, EmergentMessage.arriving, EmergentMessage.view]
    cases m.causationId <;> rfl
  · rw [hmeta, EmergentMessage.arriving]
    cases m.metadata with
    | none => rfl
    | some v => cases v <;> rfl

theorem Ts.wireMessage_written (name : String) (m : TsMessage) :
    ((Outgoing.typescript m).meant name).WrittenAs (Ts.wireMessage name m) := by
  refine ⟨rfl, rfl, rfl, rfl, rfl, rfl, rfl, rfl, ?_⟩
  show decodeOption some (m.metadata.getD .null) = some (m.metadata.filter notNull)
  cases m.metadata with
  | none => rfl
  | some v => cases v <;> rfl

theorem Go.textField_eq (key text : String) :
    Go.textField key text =
      optionalField key (((some text).filter fun s => s ≠ "").map .string) := by
  by_cases hempty : text = ""
  · simp [Go.textField, Option.filter, optionalField, hempty]
  · simp [Go.textField, Option.filter, optionalField, hempty]

theorem Go.lookup_toWire (m : GoMessage) :
    (Go.toWire m).lookup "id" = some (.string m.id) ∧
      (Go.toWire m).lookup "message_type" = some (.string m.messageType) ∧
      (Go.toWire m).lookup "correlation_id" =
        ((some m.correlationId).filter fun s => s ≠ "").map .string ∧
      (Go.toWire m).lookup "causation_id" =
        ((some m.causationId).filter fun s => s ≠ "").map .string ∧
      (Go.toWire m).lookup "timestamp_ms" = some (.number (.posInt m.timestampMs)) ∧
      (Go.toWire m).lookup "payload" = some m.payload ∧
      (Go.toWire m).lookup "metadata" = m.metadata := by
  rw [Go.toWire, Go.textField_eq, Go.textField_eq]
  cases (some m.correlationId).filter fun s => s ≠ "" <;>
    cases (some m.causationId).filter fun s => s ≠ "" <;> cases m.metadata <;>
      exact ⟨rfl, rfl, rfl, rfl, rfl, rfl, rfl⟩

theorem Go.wire_written (name : String) (m : GoMessage) :
    ((Outgoing.go m).meant name).WrittenAs
      (.object (Py.setItem "source" (.string name) (Go.toWire m))) := by
  obtain ⟨hid, htype, hcor, hcau, htime, hpayload, hmeta⟩ := Go.lookup_toWire m
  have hget := lookup_setItem "source" (.string name) (Go.toWire m)
  refine ⟨rfl, (hget "id").trans hid, (hget "message_type").trans htype, hget "source", ?_, ?_,
    (hget "timestamp_ms").trans htime, (hget "payload").trans hpayload, ?_⟩
  · rw [Value.get, hget, if_neg (by decide), hcor, Outgoing.meant]
    cases (some m.correlationId).filter fun s => s ≠ "" <;> rfl
  · rw [Value.get, hget, if_neg (by decide), hcau, Outgoing.meant]
    cases (some m.causationId).filter fun s => s ≠ "" <;> rfl
  · rw [Value.get, hget, if_neg (by decide), hmeta, Outgoing.meant]
    cases m.metadata with
    | none => rfl
    | some v => cases v <;> rfl

theorem PyMessage.wireDict_written {name : String} {m : PyMessage}
    (hpayload : m.payload.isNone = false) {n : UInt64}
    (hn : n = UInt64.ofNat m.timestampMs.toNat) :
    ((Outgoing.python m).meant name).WrittenAs
      (.object (m.wireDict name (.posInt n))) := by
  have hget := PyMessage.get_wireDict name m (.posInt n)
  subst hn
  refine ⟨rfl, hget "id", hget "message_type", hget "source", ?_, ?_, hget "timestamp_ms", ?_, ?_⟩
  · rw [hget, if_neg (by decide)]
    exact filter_getD _
  · rw [hget, if_neg (by decide)]
    exact filter_getD _
  · rw [hget, if_neg (by decide)]
    show (some m.payload).filter (fun v => !v.isNone) = some m.payload
    simp [Option.filter, hpayload]
  · rw [hget, if_neg (by decide)]
    show decodeOption some (((some (Py.dictionary m.metadata)).filter
      fun v => !v.isNone).getD .null) = some (m.metadata.map .object)
    rw [filter_getD, decodeOption_dictionary]

/-! ### From a publish to a reader -/

section
variable (expectsReply : Bool) (toDouble : ℤ → UInt64) (format : Format)
  (name correlationId : String) (pydantic : Pydantic) (double : Number → Number)

theorem written_iff {w : WireMessage} {v : Value} (hw : w.WrittenAs v) {sent : Option IpcEnvelope}
    (hsent : sent = some (publishEnvelope expectsReply correlationId v)) :
    (∃ envelope d, sent = some envelope ∧ fromIpcPayload fromStr envelope.payload = some d ∧
      ReadAs fromStr pydantic double d w) ↔ w.Acceptable fromStr := by
  subst hsent
  constructor
  · rintro ⟨envelope, d, hsent, hd, hread⟩
    cases hsent
    exact hread.acceptable hw hd
  · intro h
    obtain ⟨d, hd, hview⟩ := (decoded_iff hw).mpr h
    exact ⟨_, d, rfl, hd, readAs_of_decoded hw hd hview pydantic double⟩

theorem Rust.sent_iff (m : EmergentMessage) :
    (∃ envelope d, Rust.publish expectsReply name correlationId m = some envelope ∧
      fromIpcPayload fromStr envelope.payload = some d ∧
      ReadAs fromStr pydantic double d ((Outgoing.rust m).meant name)) ↔
      ((Outgoing.rust m).meant name).Acceptable fromStr := by
  by_cases hdefault : m.source.isDefault = true
  · by_cases hname : ValidPrimitiveName name
    · have hw := arriving_written { m with source := ⟨name, hname⟩ }
      have hmeant : (Outgoing.rust m).meant name =
          EmergentMessage.arriving { m with source := ⟨name, hname⟩ } := by
        rw [Outgoing.meant, if_pos hdefault]
        rfl
      rw [hmeant]
      refine written_iff expectsReply correlationId pydantic double hw ?_
      rw [Rust.publish, if_pos hdefault, PrimitiveName.new_of_valid hname]
      rfl
    · constructor
      · -- the call fails before anything is sent
        rintro ⟨envelope, _, hsent, _⟩
        rw [Rust.publish, if_pos hdefault] at hsent
        obtain ⟨source, hsource, _⟩ := Option.bind_eq_some_iff.mp hsent
        cases hnew : PrimitiveName.new name with
        | error e => simp [hnew, Except.toOption] at hsource
        | ok n => exact absurd (PrimitiveName.new_value hnew ▸ n.valid) hname
      · intro h
        have hsource := h.source
        rw [Outgoing.meant, if_pos hdefault] at hsource
        exact absurd hsource hname
  · have hmeant : (Outgoing.rust m).meant name = m.arriving := by
      rw [Outgoing.meant, if_neg hdefault]
      rfl
    rw [hmeant]
    refine written_iff expectsReply correlationId pydantic double (arriving_written m) ?_
    rw [Rust.publish, if_neg hdefault]
    rfl

theorem python_sent_iff (m : PyMessage) :
    (∃ envelope d,
      m.publishEnvelope expectsReply toDouble format name correlationId = some envelope ∧
      fromIpcPayload fromStr envelope.payload = some d ∧
      ReadAs fromStr pydantic double d ((Outgoing.python m).meant name)) ↔
      ((Outgoing.python m).meant name).Acceptable fromStr ∧ m.Timely := by
  have hsends : m.Timely →
      m.publishEnvelope expectsReply toDouble format name correlationId =
        some (publishEnvelope expectsReply correlationId
          (.object (m.wireDict name (.posInt (UInt64.ofNat m.timestampMs.toNat))))) := by
    rintro ⟨_, hlow, hhigh⟩
    have hinteger : Py.wireInteger toDouble format m.timestampMs =
        some (.posInt (UInt64.ofNat m.timestampMs.toNat)) := by
      unfold Py.wireInteger
      rw [if_pos ⟨hlow, hhigh⟩]
    rw [PyMessage.publishEnvelope, hinteger]
    rfl
  constructor
  · rintro ⟨envelope, d, hsent, hd, hread⟩
    obtain ⟨htimely, _⟩ := PyMessage.timely_of_decoded hsent hd
    refine ⟨?_, htimely⟩
    exact (written_iff expectsReply correlationId pydantic double
      (PyMessage.wireDict_written htimely.1 rfl) (hsends htimely)).mp
        ⟨envelope, d, hsent, hd, hread⟩
  · rintro ⟨hacceptable, htimely⟩
    exact (written_iff expectsReply correlationId pydantic double
      (PyMessage.wireDict_written htimely.1 rfl) (hsends htimely)).mpr hacceptable

end

-- unlike Python's, a message of the other SDKs may have no payload
example : Outgoing.Publishable readTypeId "timer"
    (.go ⟨sampleId.id.toStr, "timer.tick", "", "", "", 5, .null, none⟩) :=
  ⟨{ id := ⟨⟨sampleId.id, sampleId.tagged⟩, rfl, sampleId.reads⟩
     messageType := validMessageType_timerTick
     source := validPrimitiveName_timer
     correlationId := by simp [Outgoing.meant, Option.filter]
     causationId := by simp [Outgoing.meant, Option.filter]
     timestampMs := ⟨5, rfl⟩ },
    fun _ h => by cases h⟩

end Emergent.Sdk

import Emergent.Sdk.Bridge
import Emergent.Sdk.MessageStream
import Emergent.Sdk.Topic

/-!
# Push handling in the four SDKs

`bridge` is the handler of the Rust SDK; the others are `#handlePush` of
`ts/src/client.ts`, `handlePush` of `go/client.go` and `_handle_push` of
`py/emergent/_client.py`. A push is a message of the broker, under its own
type, or a broadcast of acton's under a name that is no message type.

`queue` is what waits in the stream of a client and `taken` what the user has read
from it. A stream that a shutdown has closed is no longer `registered`. The answers
to a client's own queries are logged in `settled`; in Rust they go through a
connection of their own.
-/

namespace Emergent.Sdk
open Kit Kit.Text

inductive SubscriberKind where
  | handler
  | sink
  deriving Repr, DecidableEq

def SubscriberKind.lower : SubscriberKind → String
  | .handler => "handler"
  | .sink => "sink"

def SubscriberKind.name : SubscriberKind → String
  | .handler => "Handler"
  | .sink => "Sink"

/-! ### Pushes -/

inductive PushContent where
  | message (m : EmergentMessage)
  | broadcast (typeName : String) (sourceActor : Option String) (payload : Value)
      (foreign : ¬ ValidMessageType typeName) (line : '\n' ∉ typeName.toList)

def PushContent.notification : PushContent → IpcPushNotification
  | .message m => notificationOf m
  | .broadcast typeName sourceActor payload _ _ => ⟨typeName, sourceActor, payload⟩

/-- A push as it is sent; `fresh` is what the Rust SDK would take for a message
built on the spot. -/
structure Push where
  notificationId : String
  timestampMs : UInt64
  content : PushContent
  fresh : Fresh

/-- The body of the frame, as acton writes a notification. -/
def Push.body (p : Push) : Value :=
  .object
    [("notification_id", .string p.notificationId),
      ("message_type", .string p.content.notification.messageType),
      ("payload", p.content.notification.payload),
      ("source_actor", (p.content.notification.sourceActor.map .string).getD .null),
      ("timestamp_ms", .number (.posInt p.timestampMs))]

/-! ### What the user gets -/

/-- A message on the wire, and as each SDK hands it over. -/
structure WireMessage where
  id : String
  messageType : String
  source : String
  correlationId : Option String
  causationId : Option String
  timestampMs : Number
  payload : Value
  metadata : Option Value

structure PushClient where
  registered : Bool
  taken : List WireMessage
  queue : List WireMessage
  topologyRequests : List String
  subscriptionsRequests : List String
  settled : List (String × Value)

namespace PushClient

def unregister (c : PushClient) : PushClient := { c with registered := false }

/-- What the stream has been given and has not dropped. -/
def delivered (c : PushClient) : List WireMessage := c.taken ++ c.queue

/-- `tx.send(msg).await`. A full channel makes the bridge wait, so `queue` is the
channel and what waits behind it. -/
def send (c : PushClient) (wire : WireMessage) : PushClient :=
  { c with queue := c.queue ++ [wire] }

/-- `push` of the stream. A call of `next` that waits is a user who takes the
message at once. -/
def push (lang : Language) (c : PushClient) (wire : WireMessage) : PushClient :=
  { c with queue := MessageStream.enqueue lang c.queue wire }

/-- The user reads the next message, when there is one. -/
def take (c : PushClient) : PushClient :=
  match c.queue with
  | [] => c
  | wire :: rest => { c with taken := c.taken ++ [wire], queue := rest }

/-- `#takePending`, and the answer given to the query. -/
def settleTopology (c : PushClient) (correlationId : Option String) (payload : Value) :
    PushClient :=
  match correlationId with
  | none => c
  | some id =>
    if id ∈ c.topologyRequests then
      { c with
        topologyRequests := c.topologyRequests.erase id
        settled := c.settled ++ [(id, payload)] }
    else c

def settleSubscriptions (c : PushClient) (correlationId : Option String) (payload : Value) :
    PushClient :=
  match correlationId with
  | none => c
  | some id =>
    if id ∈ c.subscriptionsRequests then
      { c with
        subscriptionsRequests := c.subscriptionsRequests.erase id
        settled := c.settled ++ [(id, payload)] }
    else c

end PushClient

def WireMessage.unwrapStdout (fromJson : String → Option Value) (wire : WireMessage) :
    WireMessage :=
  match wire.payload.get "stdout" with
  | some (.string stdout) => { wire with payload := (fromJson stdout).getD (.string stdout) }
  | _ => wire

def WireMessage.unwrapped (autoUnwrap : Bool) (fromJson : String → Option Value)
    (wire : WireMessage) : WireMessage :=
  if autoUnwrap && !startsWith wire.messageType "system." then wire.unwrapStdout fromJson else wire

/-! ### The Rust SDK -/

def EmergentMessage.view (m : EmergentMessage) : WireMessage where
  id := m.id.id.toStr
  messageType := m.messageType.value
  source := m.source.value
  correlationId := m.correlationId.map fun id => id.id.toStr
  causationId := m.causationId.map fun id => id.id.toStr
  timestampMs := .posInt m.timestampMs
  payload := m.payload
  metadata := m.metadata

/-- A turn of `push_to_message_stream`, which ends with its stream. -/
def Rust.handlePush (fromStr : String → Option TypeId) (fromJson : String → Option Value)
    (kind : SubscriberKind) (autoUnwrap : Bool) (c : PushClient) (p : Push) : PushClient :=
  if c.registered then
    match bridge fromStr fromJson kind.lower autoUnwrap p.fresh p.content.notification with
    | .stop => c.unregister
    | .skip => c
    | .forward m => c.send m.view
  else c

/-! ### Reading a wire message -/

/-- The pattern `^[a-z0-9_-]+(\.[a-z0-9_-]+)*$`; `fresh` says that a segment has
just begun. -/
def matchesSegments : Bool → List Char → Bool
  | fresh, [] => !fresh
  | fresh, c :: cs =>
    if c = '.' then !fresh && matchesSegments true cs
    else (c.isLower || c.isDigit || c == '-' || c == '_') && matchesSegments false cs

def isEmergentMessageType (messageType : String) : Bool := matchesSegments true messageType.toList

/-- In Python `$` also stands before a final line break. -/
def Py.isEmergentMessageType (messageType : String) : Bool :=
  matchesSegments true messageType.toList ||
    (messageType.toList.getLast? == some '\n' &&
      matchesSegments true messageType.toList.dropLast)

/-- A field that is absent or null, or a string. -/
def optionalString : Option Value → Option (Option String)
  | none | some .null => some none
  | some (.string s) => some (some s)
  | some _ => none

def notNull : Value → Bool
  | .null => false
  | _ => true

/-- `wireMessageFromPush`; the SDKs differ in the numbers they take for a time. -/
def readWireMessage (timestamp : Value → Option Number) (payload : Value) : Option WireMessage := do
  let id ← (payload.get "id").bind Value.asStr
  let messageType ← (payload.get "message_type").bind Value.asStr
  let source ← (payload.get "source").bind Value.asStr
  let timestampMs ← (payload.get "timestamp_ms").bind timestamp
  let correlationId ← optionalString (payload.get "correlation_id")
  let causationId ← optionalString (payload.get "causation_id")
  return {
    id, messageType, source, correlationId, causationId, timestampMs
    payload := (payload.get "payload").getD .null
    metadata := (payload.get "metadata").filter notNull }

def Ts.timestamp : Value → Option Number
  | .number n => some n
  | _ => none

def Ts.wireMessageFromPush (payload : Value) : Option WireMessage :=
  readWireMessage Ts.timestamp payload

/-- `floatToUint64`, on the bits of a finite double. -/
def Go.floatToUint64 (bits : UInt64) : Option UInt64 :=
  let exponent := bits.toNat / 2 ^ 52 % 2 ^ 11
  let fraction := bits.toNat % 2 ^ 52
  let mantissa := if exponent = 0 then fraction else 2 ^ 52 + fraction
  let floor := mantissa * 2 ^ max exponent 1 / 2 ^ 1075
  if exponent = 2047 ∨ (2 ^ 63 ≤ bits.toNat ∧ mantissa ≠ 0) ∨ 2 ^ 64 ≤ floor then none
  else some (UInt64.ofNat floor)

def Go.wireUint64 : Value → Option UInt64
  | .number (.posInt n) => some n
  | .number (.negInt _) => none
  | .number (.float bits) => Go.floatToUint64 bits
  | _ => none

/-- Go keeps an identifier that is absent as the empty string. -/
def Go.wireMessageFromPush (payload : Value) : Option WireMessage :=
  (readWireMessage (fun v => (Go.wireUint64 v).map .posInt) payload).map fun wire =>
    { wire with
      correlationId := wire.correlationId.filter fun id => id != ""
      causationId := wire.causationId.filter fun id => id != "" }

/-- What pydantic takes for an `int`; of its rules only the plainest is used. -/
structure Pydantic where
  int : Value → Option Number
  posInt : ∀ n, int (.number (.posInt n)) = some (.posInt n)

def Py.wireMessageFromPush (pydantic : Pydantic) (payload : Value) : Option WireMessage :=
  readWireMessage pydantic.int payload

/-- `from_wire`: metadata that is no dictionary is dropped. -/
def Py.fromWire (wire : WireMessage) : WireMessage :=
  { wire with metadata := wire.metadata.filter Value.isObject }

/-! ### The other handlers -/

/-- `strings.ToLower`, rune by rune, as far as a comparison with an ASCII word
can tell. -/
def Go.toLower (s : String) : String :=
  s.map fun c => if c = '\u0130' then 'i' else if c = '\u212A' then 'k' else c.toLower

/-- The least of the characters that `strings.EqualFold` takes for this one. -/
def Go.fold (c : Char) : Char :=
  if c = '\u017F' then 's' else if c = '\u212A' then 'k' else c.toLower

def Go.equalFold (s t : String) : Bool := s.map Go.fold == t.map Go.fold

def Go.shutdownKindOf (candidate : Value) : Option String :=
  ((candidate.get "kind").bind Value.asStr).map Go.toLower

def Go.extractShutdownKind (payload : Value) : Option String :=
  ((payload.get "payload").bind Go.shutdownKindOf).or (Go.shutdownKindOf payload)

def Ts.pushFromFrame (body : Value) : Option (String × Value) :=
  ((body.get "message_type").bind Value.asStr).map fun messageType =>
    (messageType, (body.get "payload").getD .null)

def Py.pushFromFrame (pydantic : Pydantic) (body : Value) : Option (String × Value) := do
  let _ ← (body.get "notification_id").bind Value.asStr
  let messageType ← (body.get "message_type").bind Value.asStr
  let payload ← body.get "payload"
  let _ ← optionalString (body.get "source_actor")
  let _ ← pydantic.int ((body.get "timestamp_ms").getD (.number (.posInt 0)))
  return (messageType, payload)

section
variable (fromJson : String → Option Value) (kind : SubscriberKind) (autoUnwrap : Bool)

/-- The handler of TypeScript and Python. `extractShutdownKind` is theirs too. -/
def handlePushWith (lang : Language) (pushFromFrame : Value → Option (String × Value))
    (isEmergent : String → Bool) (wireMessage : Value → Option WireMessage)
    (fromWire : WireMessage → WireMessage) (c : PushClient) (body : Value) : PushClient :=
  match pushFromFrame body with
  | none => c
  | some (messageType, payload) =>
    if messageType = "system.shutdown" then
      if extractShutdownKind payload = some kind.lower then c.unregister else c
    else if !isEmergent messageType then c
    else
      match wireMessage payload with
      | none => c
      | some wire =>
        if messageType = "system.response.topology" then
          c.settleTopology wire.correlationId wire.payload
        else if messageType = "system.response.subscriptions" then
          c.settleSubscriptions wire.correlationId wire.payload
        else if c.registered then c.push lang ((fromWire wire).unwrapped autoUnwrap fromJson)
        else c

def Ts.handlePush (c : PushClient) (body : Value) : PushClient :=
  handlePushWith fromJson kind autoUnwrap .typescript Ts.pushFromFrame isEmergentMessageType
    Ts.wireMessageFromPush id c body

def Py.handlePush (pydantic : Pydantic) (c : PushClient) (body : Value) : PushClient :=
  handlePushWith fromJson kind autoUnwrap .python (Py.pushFromFrame pydantic)
    Py.isEmergentMessageType (Py.wireMessageFromPush pydantic) Py.fromWire c body

/-- The identifier and the answer in a response, as Go reads them. -/
def Go.responseOf (payload : Value) : Option String × Value :=
  (((payload.get "correlation_id").bind Value.asStr).filter fun id => id != "",
    (payload.get "payload").getD .null)

def Go.handlePush (c : PushClient) (body : Value) : PushClient :=
  if body.isObject then
    let messageType := ((body.get "message_type").bind Value.asStr).getD ""
    let payload := (body.get "payload").getD .null
    if messageType = "system.shutdown" then
      if (Go.extractShutdownKind payload).any fun k => Go.equalFold k kind.name then c.unregister
      else c
    else if messageType = "system.response.topology" then
      c.settleTopology (Go.responseOf payload).1 (Go.responseOf payload).2
    else if messageType = "system.response.subscriptions" then
      c.settleSubscriptions (Go.responseOf payload).1 (Go.responseOf payload).2
    else if !isEmergentMessageType messageType then c
    else if c.registered then
      match Go.wireMessageFromPush payload with
      | none => c
      | some wire => c.push .go (wire.unwrapped autoUnwrap fromJson)
    else c
  else c

end

end Emergent.Sdk

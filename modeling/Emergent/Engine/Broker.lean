import Emergent.Engine.EventStore
import Emergent.Engine.Policy
import Emergent.Kit.Runs
import Emergent.Kit.WriteAhead

/-!
# The message broker (`emergent-engine/src/main.rs`)

Connections send operations that the policy rules on. A request that is let
through and decodes reaches the inbox of the broker actor; a refusal may leave
a report for the reporter task. The broker handles one message at a time, the
reporter one report at a time, and the two interleave: a handler is the list of
the operations it has left, each one atomic.

A write is `EventStoreWrapper::store`, whose error the code logs and drops; a
release is `forward_to_subscribers` or `ack_publish`.
-/

namespace Emergent.Engine
open Emergent.Sdk Kit Kit.WriteAhead

inductive Release where
  | forward
  | ack
  deriving Repr, DecidableEq

abbrev BrokerOp := WriteAhead.Op Release EmergentMessage
abbrev BrokerEvent := WriteAhead.Event StoreKind Release EmergentMessage

/-! ### Connections and their subscriptions -/

structure Connection where
  id : ConnectionId
  identity : Option ConnectionIdentity
  exact : List String
  patterns : List String
  deriving Repr, DecidableEq

namespace Connection

def apply (c : Connection) : EnginePolicy.IpcOperation → Connection
  | .subscribe topics => { c with exact := c.exact ++ topics }
  | .subscribePatterns topics => { c with patterns := c.patterns ++ topics }
  | .unsubscribe topics => { c with exact := c.exact.filter (fun t => !topics.contains t) }
  | .unsubscribePatterns topics =>
    { c with patterns := c.patterns.filter (fun t => !topics.contains t) }
  | .request _ | .discover | .deliver _ => c

def selects (c : Connection) (messageType : String) : Bool :=
  c.exact.contains messageType || c.patterns.any (topicMatches · messageType)

end Connection

structure Delivery where
  connection : ConnectionId
  identity : Option ConnectionIdentity
  messageType : String
  deriving Repr, DecidableEq

/-! ### Messages of the engine's own -/

def engineSource : PrimitiveName := ⟨"emergent-engine", by decide⟩

/-- What the engine reads while it serves one message: a fresh id, the clock,
`get_info` of the process manager and the topology payload. -/
structure EngineReading where
  id : MessageId
  timestampMs : UInt64
  subscribes : String → Option (List String)
  topology : Value

def engineResponse (reading : EngineReading) (request : EmergentMessage)
    (messageType : MessageType) (payload : Value) : EmergentMessage where
  id := reading.id
  messageType := messageType
  source := engineSource
  correlationId := request.correlationId
  causationId := none
  timestampMs := reading.timestampMs
  payload := payload
  metadata := none

def answer (reading : EngineReading) (m : EmergentMessage) : Option EmergentMessage :=
  if m.messageType.value = "system.request.subscriptions" then
    let name := ((m.payload.get "name").bind Value.asStr).getD ""
    let subscribes := (reading.subscribes name).getD []
    some (engineResponse reading m ⟨"system.response.subscriptions", by decide⟩
      (.object [("subscribes", .array (subscribes.map .string))]))
  else if m.messageType.value = "system.request.topology" then
    some (engineResponse reading m ⟨"system.response.topology", by decide⟩ reading.topology)
  else none

def rejectionEventType (name : String) : String := "system.error." ++ name

def RejectionReport.toValue (report : RejectionReport) : Value :=
  .object [("primitive", .string report.primitive), ("operation", .string report.operation),
    ("message_type", .string report.messageType), ("reason", .string report.reason),
    ("mode", .string report.mode)]

/-! ### Handlers -/

/-- A message in the broker's inbox; a publish says whether someone other than
the broker waits for its reply (`should_reply`). -/
inductive BrokerMessage where
  | emergent (inner : EmergentMessage) (shouldReply : Bool)
  | systemEvent (inner : EmergentMessage)

def ackPublish (m : EmergentMessage) (shouldReply : Bool) : List BrokerOp :=
  if shouldReply then [.release .ack m] else []

/-- The two `mutate_on` handlers of the broker. -/
def handle (reading : EngineReading) : BrokerMessage → List BrokerOp
  | .emergent m shouldReply =>
    match answer reading m with
    | some response => [.write m, .release .forward response] ++ ackPublish m shouldReply
    | none => [.write m, .release .forward m] ++ ackPublish m shouldReply
  | .systemEvent m => [.write m, .release .forward m]

/-- `report_rejection`: a name that forms no message type is only logged. -/
def reportRejection (id : MessageId) (timestampMs : UInt64) (report : RejectionReport) :
    List BrokerOp :=
  match EmergentMessage.tryNewWithIdAndTimestamp (rejectionEventType report.primitive) id
      timestampMs with
  | .error _ => []
  | .ok m =>
    let m := { m with source := engineSource, payload := report.toValue }
    [.write m, .release .forward m]

/-! ### The machine -/

/-- The registered IPC type an envelope names, which picks the decoder and the
handler. -/
inductive WireType where
  | emergentMessage
  | systemEvent
  deriving Repr, DecidableEq

structure BrokerState where
  connections : List Connection
  inbox : List BrokerMessage
  rejections : List RejectionReport
  handler : List BrokerOp
  reporter : List BrokerOp
  stores : EventStoreWrapper
  trace : List BrokerEvent
  deliveries : List Delivery

inductive BrokerAction where
  | connect (id : ConnectionId) (identity : Option ConnectionIdentity)
  | close (id : ConnectionId)
  /-- One IPC operation; the wire type and the reply address matter to a
  request only. -/
  | operation (id : ConnectionId) (op : EnginePolicy.IpcOperation) (wire : WireType)
      (shouldReply : Bool)
  /-- An event of the engine's own: a lifecycle event of a primitive actor, the
  `system.shutdown` of the process manager, `system.shutdown.requested` of `main`. -/
  | broadcast (event : EmergentMessage)
  | takeMessage (reading : EngineReading)
  | takeReport (id : MessageId) (timestampMs : UInt64)
  | handlerStep (faults : StoreFaults)
  | reporterStep (faults : StoreFaults)

namespace BrokerState

def start (stores : EventStoreWrapper) : BrokerState :=
  ⟨[], [], [], [], [], stores, [], []⟩

def wrap (m : EmergentMessage) (shouldReply : Bool) : WireType → BrokerMessage
  | .emergentMessage => .emergent m shouldReply
  | .systemEvent => .systemEvent m

section
variable (policy : EnginePolicy) (fromStr : String → Option TypeId)

def notified (s : BrokerState) (messageType : String) : List Delivery :=
  (s.connections.filter fun c => c.selects messageType &&
    (policy.authorize c.identity (.deliver messageType)).allowed).map
      fun c => ⟨c.id, c.identity, messageType⟩

def perform (faults : StoreFaults) (s : BrokerState) : BrokerOp → BrokerState
  | .write m =>
    let stored := s.stores.store faults m
    { s with
      stores := stored.stores
      trace := s.trace ++ stored.taken.map (.wrote · m) }
  | .release .forward m =>
    { s with
      trace := s.trace ++ [.released .forward m]
      deliveries := s.deliveries ++ s.notified policy m.messageType.value }
  | .release .ack m => { s with trace := s.trace ++ [.released .ack m] }

def applyOperation (s : BrokerState) (c : Connection) (op : EnginePolicy.IpcOperation)
    (wire : WireType) (shouldReply : Bool) : BrokerState :=
  match op with
  | .request payload =>
    match fromIpcPayload fromStr payload with
    | some m => { s with inbox := s.inbox ++ [wrap m shouldReply wire] }
    | none => s
  | op =>
    { s with
      connections := s.connections.map fun other => if other.id = c.id then c.apply op else other }

/-- acton's connection task: the policy first, then the operation. -/
def operate (s : BrokerState) (c : Connection) (op : EnginePolicy.IpcOperation)
    (wire : WireType) (shouldReply : Bool) : BrokerState :=
  let ruling := policy.authorize c.identity op
  let reported := { s with rejections := s.rejections ++ ruling.reports }
  if ruling.allowed then applyOperation fromStr reported c op wire shouldReply else reported

def step (s : BrokerState) : BrokerAction → Option BrokerState
  | .connect id identity =>
    if s.connections.any (·.id = id) then none
    else some { s with connections := s.connections ++ [⟨id, identity, [], []⟩] }
  | .close id => some { s with connections := s.connections.filter (·.id ≠ id) }
  | .operation id op wire shouldReply =>
    (s.connections.find? (·.id = id)).map fun c => s.operate policy fromStr c op wire shouldReply
  | .broadcast event => some { s with inbox := s.inbox ++ [.systemEvent event] }
  | .takeMessage reading =>
    match s.handler, s.inbox with
    | [], m :: inbox => some { s with inbox := inbox, handler := handle reading m }
    | _, _ => none
  | .takeReport id timestampMs =>
    match s.reporter, s.rejections with
    | [], report :: rejections =>
      some { s with rejections := rejections, reporter := reportRejection id timestampMs report }
    | _, _ => none
  | .handlerStep faults =>
    match s.handler with
    | op :: ops => some (({ s with handler := ops }).perform policy faults op)
    | [] => none
  | .reporterStep faults =>
    match s.reporter with
    | op :: ops => some (({ s with reporter := ops }).perform policy faults op)
    | [] => none

end

end BrokerState

end Emergent.Engine

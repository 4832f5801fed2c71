import Emergent.Engine.BrokerOrigin
import Emergent.Engine.TopologyPayload
import Emergent.Sdk.TopologyReading

/-!
# What a primitive is told about itself and the others

A primitive asks for its configured topics or for the topology by a publish, and the
broker answers with what the engine reads while it serves that publish. The answer
goes to everybody who is subscribed to its type, so the caller tells its own by the
correlation id. Here the parts meet: whoever else publishes on a strict engine, the
caller of any SDK ends up with a reading the engine made while it served a request
under its id.
-/

namespace Emergent.Engine
open Emergent.Sdk Kit Kit.WriteAhead

/-! ### The topology on the wire -/

namespace TopologyPayload

/-- The fields as serde writes them. -/
def TopologyPrimitive.wire (p : TopologyPrimitive) : Sdk.TopologyPrimitive where
  name := p.name
  kind := p.kind
  state := p.state
  publishes := p.publishes
  subscribes := p.subscribes
  pid := p.pid.map fun pid => .posInt (UInt64.ofNat pid)
  error := p.error

def TopologyResponsePayload.toValue (payload : TopologyResponsePayload) : Value :=
  topologyValue (payload.primitives.map TopologyPrimitive.wire)

/-- A process id is a `u32`. -/
def PidFits (pid : Pid) : Prop := pid < 4294967296

theorem display_listed (state : PrimitiveState) :
    toLowercase state.display ∈ Py.primitiveStates := by
  cases state <;> decide

theorem wire_pid {pid : Option Pid} (h : ∀ p ∈ pid, PidFits p) {n : Number}
    (hn : n ∈ pid.map fun pid => Number.posInt (UInt64.ofNat pid)) :
    ∃ m : UInt64, n = .posInt m ∧ m.toNat < 4294967296 := by
  obtain ⟨p, hp, rfl⟩ := Option.map_eq_some_iff.mp hn
  have hfits : p < 4294967296 := h p hp
  refine ⟨UInt64.ofNat p, rfl, ?_⟩
  rw [UInt64.toNat_ofNat', Nat.mod_eq_of_lt (by omega)]
  exact hfits

theorem enginePrimitive_plain {enginePid : Pid} (h : PidFits enginePid) :
    (enginePrimitive enginePid).wire.Plain := by
  have hpid : ∀ pid ∈ (enginePrimitive enginePid).pid, PidFits pid := by
    rintro p ⟨⟩
    exact h
  refine ⟨fun _ hn => wire_pid hpid hn, ?_⟩
  show "running" ∈ Py.primitiveStates
  decide

theorem row_plain {info : PrimitiveInfo} (h : ∀ pid ∈ info.pid, PidFits pid) :
    info.row.wire.Plain :=
  ⟨fun _ hn => wire_pid h hn, display_listed info.state⟩

/-- Every row of the answer can be read by all four SDKs. -/
theorem buildTopologyPayload_plain {enginePid : Pid} {infos : List PrimitiveInfo}
    (hengine : PidFits enginePid) (hinfos : ∀ info ∈ infos, ∀ pid ∈ info.pid, PidFits pid) :
    ∀ row ∈ (buildTopologyPayload enginePid infos).primitives.map TopologyPrimitive.wire,
      row.Plain := by
  intro row hrow
  obtain ⟨p, hp, rfl⟩ := List.mem_map.mp hrow
  rcases List.mem_cons.mp hp with rfl | hinfo
  · exact enginePrimitive_plain hengine
  · obtain ⟨info, hmem, rfl⟩ := List.mem_map.mp hinfo
    exact row_plain (hinfos info ((sortOn_perm sortKey infos).mem_iff.mp hmem))

/-- Whatever primitives there are and whatever state they are in, the answer reads the
same in the four SDKs. -/
theorem topology_read_alike (pydantic : Pydantic) (f : Number → Number) {enginePid : Pid}
    {infos : List PrimitiveInfo} (hengine : PidFits enginePid)
    (hinfos : ∀ info ∈ infos, ∀ pid ∈ info.pid, PidFits pid) :
    let payload := buildTopologyPayload enginePid infos
    let rows := payload.primitives.map TopologyPrimitive.wire
    Rust.topologyResponse payload.toValue = some rows ∧
      Go.topologyStateFromWire payload.toValue = rows ∧
      Py.topologyFromPayload pydantic payload.toValue = rows ∧
      Ts.topologyFromPayload (payload.toValue.mapNumbers f) =
        rows.map fun row => row.toValue.mapNumbers f := by
  have hplain := buildTopologyPayload_plain hengine hinfos
  exact ⟨Rust.topologyResponse_topologyValue hplain, Go.topologyStateFromWire_topologyValue hplain,
    Py.topologyFromPayload_topologyValue pydantic hplain,
    Ts.topologyFromPayload_topologyValue f _⟩

theorem topology_read_alike_console :
    Rust.topologyResponse
        (buildTopologyPayload 7 [.sink "console" ["timer.*"]]).toValue =
      some ((buildTopologyPayload 7 [.sink "console" ["timer.*"]]).primitives.map
        TopologyPrimitive.wire) := by
  have hengine : PidFits 7 := by
    show (7 : ℕ) < 4294967296
    omega
  refine (topology_read_alike onlyPosInt id hengine ?_).1
  intro info hinfo pid hpid
  obtain rfl := List.mem_singleton.mp hinfo
  cases hpid

end TopologyPayload

/-! ### What an answer says -/

def requestedName (request : EmergentMessage) : String :=
  ((request.payload.get "name").bind Value.asStr).getD ""

def subscribesOf (name : String) (reading : EngineReading) : List String :=
  (reading.subscribes name).getD []

/-- The payload of an answer to a request for this name. -/
def answerPayload (name : String) (reading : EngineReading) : Query → Value
  | .subscriptions => .object [("subscribes", .array ((subscribesOf name reading).map .string))]
  | .topology => reading.topology

theorem answer_payload {reading : EngineReading} {request m : EmergentMessage} {query : Query}
    (h : answer reading request = some m) (htype : m.messageType.value = query.responseType) :
    request.messageType.value = query.requestType ∧ correlationText m = correlationText request ∧
      m.payload = answerPayload (requestedName request) reading query := by
  unfold answer at h
  split_ifs at h with hsubscriptions htopology
  · cases h
    cases query with
    | subscriptions => exact ⟨hsubscriptions, rfl, rfl⟩
    | topology => exact absurd htype (by simp [engineResponse, Query.responseType])
  · cases h
    cases query with
    | subscriptions => exact absurd htype (by simp [engineResponse, Query.responseType])
    | topology => exact ⟨htopology, rfl, rfl⟩

theorem reportRejection_correlation {id : MessageId} {timestampMs : UInt64}
    {report : RejectionReport} {m : EmergentMessage}
    (h : .release .forward m ∈ reportRejection id timestampMs report) :
    correlationText m = none := by
  unfold reportRejection at h
  cases hnew : EmergentMessage.tryNewWithIdAndTimestamp (rejectionEventType report.primitive) id
      timestampMs with
  | error e =>
    rw [hnew] at h
    cases h
  | ok built =>
    rw [hnew] at h
    have hm := BrokerState.release_mem_forwarding h
    have hbuilt : built.correlationId = none := by
      unfold EmergentMessage.tryNewWithIdAndTimestamp at hnew
      cases hvalid : MessageType.new (rejectionEventType report.primitive) with
      | error e =>
        rw [hvalid] at hnew
        cases hnew
      | ok messageType =>
        rw [hvalid] at hnew
        cases hnew
        rfl
    rw [hm, correlationText, hbuilt]
    rfl

namespace BrokerState

/-! ### Only the engine answers -/

/-- A run in which nothing but the engine can answer a query under this id: no
primitive declares that it publishes the response, requests name their fields, the
events of the engine's own carry no id, and the requests under the id are for one
name. -/
structure OneQuery (config : EmergentConfig) (fromStr : String → Option TypeId)
    (actions : List BrokerAction) (query : Query) (correlationId name : String) : Prop where
  undeclared : ∀ publisher declared, config.DeclaresPublish publisher declared →
    topicMatches declared query.responseType = false
  byName : ∀ id payload wire shouldReply,
    .operation id (.request payload) wire shouldReply ∈ actions → EnginePolicy.ByName payload
  events : ∀ m, .broadcast m ∈ actions → m.correlationId = none
  asked : ∀ id payload wire shouldReply m,
    .operation id (.request payload) wire shouldReply ∈ actions →
    fromIpcPayload fromStr payload = some m → m.messageType.value = query.requestType →
    correlationText m = some correlationId → requestedName m = name

section
variable {config : EmergentConfig} {policy : EnginePolicy} {fromStr : String → Option TypeId}
  {stores : EventStoreWrapper} {actions : List BrokerAction} {s : BrokerState} {query : Query}
  {correlationId name : String} {m : EmergentMessage}

theorem responseType_reserved (query : Query) : query.responseType ∉ protocolPublishes := by
  cases query <;> decide

theorem sent_not_answer (hone : OneQuery config fromStr actions query correlationId name)
    (hsent : Sent config policy fromStr stores actions m) :
    ¬ m.answers query correlationId = true := by
  intro hanswers
  obtain ⟨htype, hid⟩ := answers_iff.mp hanswers
  cases hsent with
  | broadcast hbroadcast =>
    rw [correlationText, hone.events m hbroadcast] at hid
    cases hid
  | published id identity payload wire shouldReply before after hactions hconnect hdecoded hmay =>
    have hmem : .operation id (.request payload) wire shouldReply ∈ actions := by
      rw [hactions]
      simp
    rcases (hmay (hone.byName id payload wire shouldReply hmem)).type with
      hproto | ⟨publisher, declared, _, hdeclares, _, hmatch⟩
    · rw [htype] at hproto
      exact responseType_reserved query hproto
    · rw [htype, hone.undeclared publisher declared hdeclares] at hmatch
      cases hmatch

theorem sent_asked (hone : OneQuery config fromStr actions query correlationId name)
    (hsent : Sent config policy fromStr stores actions m)
    (htype : m.messageType.value = query.requestType)
    (hid : correlationText m = some correlationId) : requestedName m = name := by
  cases hsent with
  | broadcast hbroadcast =>
    rw [correlationText, hone.events m hbroadcast] at hid
    cases hid
  | published id identity payload wire shouldReply before after hactions hconnect hdecoded hmay =>
    refine hone.asked id payload wire shouldReply m ?_ hdecoded htype hid
    rw [hactions]
    simp

/-- The engine made this reading while it served a request of the query for this name
under this id. -/
def ServedUnder (policy : EnginePolicy) (fromStr : String → Option TypeId)
    (stores : EventStoreWrapper) (actions : List BrokerAction) (query : Query)
    (correlationId name : String) (reading : EngineReading) : Prop :=
  ∃ job, (reading, job) ∈ served policy fromStr stores actions ∧
    job.inner.messageType.value = query.requestType ∧
    correlationText job.inner = some correlationId ∧
    requestedName job.inner = name

/-- A response under the id carries what the engine read while it served a request
under the id. -/
theorem release_answer (htable : policy.declarations = config.declarationTable)
    (hmode : config.enforceDeclarations = .strict)
    (hrun : run (BrokerState.step policy fromStr) (start stores) actions = some s)
    (hone : OneQuery config fromStr actions query correlationId name) {way : Release}
    (hm : (way, m) ∈ s.releases) (hanswers : m.answers query correlationId = true) :
    ∃ reading, ServedUnder policy fromStr stores actions query correlationId name reading ∧
      m.payload = answerPayload name reading query := by
  obtain ⟨htype, hid⟩ := answers_iff.mp hanswers
  cases releases_origin htable hmode hrun way m hm with
  | sent hsent => exact absurd hanswers (sent_not_answer hone hsent)
  | answered reading job hserved hsent hanswer =>
    obtain ⟨hrequest, hcorrelation, hpayload⟩ := answer_payload hanswer htype
    rw [hid] at hcorrelation
    have hname := sent_asked hone hsent hrequest hcorrelation.symm
    rw [hname] at hpayload
    exact ⟨reading, ⟨job, hserved, hrequest, hcorrelation.symm, hname⟩, hpayload⟩
  | reported id timestampMs report _ hmessage =>
    rw [reportRejection_correlation hmessage] at hid
    cases hid

theorem firstAnswer_read (htable : policy.declarations = config.declarationTable)
    (hmode : config.enforceDeclarations = .strict)
    (hrun : run (BrokerState.step policy fromStr) (start stores) actions = some s)
    (hone : OneQuery config fromStr actions query correlationId name) {pushes : List Push}
    (hpushed : ∀ p ∈ pushes, ∀ m, p.content = .message m → (.forward, m) ∈ s.releases) :
    ∃ taken : Option EngineReading,
      (∀ reading ∈ taken,
        ServedUnder policy fromStr stores actions query correlationId name reading) ∧
      firstAnswer query correlationId pushes =
        taken.map fun reading => answerPayload name reading query := by
  cases hfirst : firstAnswer query correlationId pushes with
  | none => exact ⟨none, fun _ hnone => (Option.not_mem_none _ hnone).elim, rfl⟩
  | some payload =>
    obtain ⟨p, hp, hanswer⟩ := List.exists_of_findSome?_eq_some hfirst
    unfold Push.answer at hanswer
    split at hanswer
    · rename_i m hm
      split_ifs at hanswer with hanswers
      obtain ⟨reading, htaken, hpayload⟩ :=
        release_answer htable hmode hrun hone (hpushed p hp m hm) hanswers
      refine ⟨some reading, ?_, ?_⟩
      · rintro found ⟨⟩
        exact htaken
      · rw [← hanswer, hpayload]
        rfl
    · cases hanswer

end

/-! ### What the caller is told -/

/-- What the four SDKs make of the pushes of a caller. -/
structure Told {α β : Type} (fromStr : String → Option TypeId) (json : JsonParsers) (d : Doubles)
    (pydantic : Pydantic) (kind : SubscriberKind) (autoUnwrap : Bool) (query : Query)
    (correlationId : String) (clients : PushClients) (pushes : List Push)
    (decode : Value → Option α) (readTs : Value → β) (readGo readPy : Value → α)
    (told : Option α) (toldTs : Option β) : Prop where
  rust : Rust.awaitResponse fromStr query decode correlationId
      (pushes.map fun p => p.content.notification) = told.elim .waiting .answered
  ts : ∃ answer, (pushes.foldl
      (fun c p => Ts.handlePush json.ts kind autoUnwrap c (p.body.mapNumbers d.read))
      clients.ts).Call query correlationId answer ∧ answer.map readTs = toldTs
  go : ∃ answer, (pushes.foldl (fun c p => Go.handlePush json.go kind autoUnwrap c p.body)
      clients.go).Call query correlationId answer ∧ answer.map readGo = told
  py : ∃ answer, (pushes.foldl
      (fun c p => Py.handlePush json.py kind autoUnwrap pydantic c p.body)
      clients.py).Call query correlationId answer ∧ answer.map readPy = told

/-- The four calls wait under the id, on clients of their own. -/
structure Waiting (clients : PushClients) (query : Query) (correlationId : String) : Prop where
  ts : clients.ts.Call query correlationId none
  go : clients.go.Call query correlationId none
  py : clients.py.Call query correlationId none

section
variable {config : EmergentConfig} {policy : EnginePolicy} {fromStr : String → Option TypeId}
  {stores : EventStoreWrapper} {actions : List BrokerAction} {s : BrokerState}
  {correlationId name : String} {pushes : List Push} {clients : PushClients}
  {json : JsonParsers} {d : Doubles} {pydantic : Pydantic} {kind : SubscriberKind}
  {autoUnwrap : Bool}

theorem told_of_firstAnswer {α β : Type} {query : Query}
    (hwaiting : Waiting clients query correlationId) (hread : PushedIdsRead fromStr pushes)
    {decode : Value → Option α} {readTs : Value → β} {readGo readPy : Value → α}
    {truth : EngineReading → α} {truthTs : EngineReading → β} {taken : Option EngineReading}
    (hfirst : firstAnswer query correlationId pushes =
      taken.map fun reading => answerPayload name reading query)
    (hrust : ∀ reading ∈ taken, decode (answerPayload name reading query) = some (truth reading))
    (hts : ∀ reading ∈ taken,
      readTs ((answerPayload name reading query).mapNumbers d.read) = truthTs reading)
    (hgo : ∀ reading ∈ taken, readGo (answerPayload name reading query) = truth reading)
    (hpy : ∀ reading ∈ taken, readPy (answerPayload name reading query) = truth reading) :
    Told fromStr json d pydantic kind autoUnwrap query correlationId clients pushes decode readTs
      readGo readPy (taken.map truth) (taken.map truthTs) := by
  refine ⟨?_, ?_, ?_, ?_⟩
  · rw [Rust.awaitResponse_eq query decode correlationId hread, hfirst]
    cases taken with
    | none => rfl
    | some reading => simp [Awaited.ofAnswer, hrust reading rfl]
  · refine ⟨_, call_pushes (Ts.handlePush_settles json.ts kind autoUnwrap d.read) hwaiting.ts
      pushes, ?_⟩
    rw [hfirst]
    cases taken with
    | none => rfl
    | some reading => exact congrArg some (hts reading rfl)
  · refine ⟨_, call_pushes (Go.handlePush_settles json.go kind autoUnwrap) hwaiting.go pushes, ?_⟩
    rw [hfirst]
    cases taken with
    | none => rfl
    | some reading => exact congrArg some (hgo reading rfl)
  · refine ⟨_, call_pushes (Py.handlePush_settles json.py kind autoUnwrap pydantic) hwaiting.py
      pushes, ?_⟩
    rw [hfirst]
    cases taken with
    | none => rfl
    | some reading => exact congrArg some (hpy reading rfl)

/-- A primitive that asks for its topics is told, in each SDK, what the engine read for
that name while it served a request under the id, or goes on waiting. -/
theorem run_subscriptions_told (htable : policy.declarations = config.declarationTable)
    (hmode : config.enforceDeclarations = .strict)
    (hrun : run (BrokerState.step policy fromStr) (start stores) actions = some s)
    (hone : OneQuery config fromStr actions .subscriptions correlationId name)
    (hpushed : ∀ p ∈ pushes, ∀ m, p.content = .message m → (.forward, m) ∈ s.releases)
    (hread : PushedIdsRead fromStr pushes)
    (hwaiting : Waiting clients .subscriptions correlationId) :
    ∃ taken : Option EngineReading,
      (∀ reading ∈ taken,
        ServedUnder policy fromStr stores actions .subscriptions correlationId name reading) ∧
      Told fromStr json d pydantic kind autoUnwrap .subscriptions correlationId clients pushes
        Rust.subscriptionsResponse subscribesFromPayload subscribesFromPayload
        subscribesFromPayload (taken.map (subscribesOf name)) (taken.map (subscribesOf name)) := by
  obtain ⟨taken, htaken, hfirst⟩ := firstAnswer_read htable hmode hrun hone hpushed
  refine ⟨taken, htaken, told_of_firstAnswer hwaiting hread hfirst ?_ ?_ ?_ ?_⟩
  · exact fun reading _ => Rust.subscriptionsResponse_strings (subscribesOf name reading)
  · exact fun reading _ => subscribesFromPayload_mapNumbers d.read (subscribesOf name reading)
  · exact fun reading _ => subscribesFromPayload_strings (subscribesOf name reading)
  · exact fun reading _ => subscribesFromPayload_strings (subscribesOf name reading)

/-- What the engine reads of the topology is what `buildTopologyPayload` makes of the
primitives it finds. -/
def ReadsTopology (enginePid : Pid) (found : EngineReading → List TopologyPayload.PrimitiveInfo)
    (reading : EngineReading) : Prop :=
  reading.topology =
      (TopologyPayload.buildTopologyPayload enginePid (found reading)).toValue ∧
    ∀ info ∈ found reading, ∀ pid ∈ info.pid, TopologyPayload.PidFits pid

def topologyRows (enginePid : Pid) (found : EngineReading → List TopologyPayload.PrimitiveInfo)
    (reading : EngineReading) : List Sdk.TopologyPrimitive :=
  (TopologyPayload.buildTopologyPayload enginePid (found reading)).primitives.map
    TopologyPayload.TopologyPrimitive.wire

/-- A caller of `getTopology` is told, in each SDK, the rows that the engine made while
it served a request under the id, or goes on waiting. -/
theorem run_topology_told (htable : policy.declarations = config.declarationTable)
    (hmode : config.enforceDeclarations = .strict)
    (hrun : run (BrokerState.step policy fromStr) (start stores) actions = some s)
    (hone : OneQuery config fromStr actions .topology correlationId name) {enginePid : Pid}
    (hengine : TopologyPayload.PidFits enginePid)
    {found : EngineReading → List TopologyPayload.PrimitiveInfo}
    (hfound : ∀ reading, .takeMessage reading ∈ actions → ReadsTopology enginePid found reading)
    (hpushed : ∀ p ∈ pushes, ∀ m, p.content = .message m → (.forward, m) ∈ s.releases)
    (hread : PushedIdsRead fromStr pushes) (hwaiting : Waiting clients .topology correlationId) :
    ∃ taken : Option EngineReading,
      (∀ reading ∈ taken,
        ServedUnder policy fromStr stores actions .topology correlationId name reading) ∧
      Told fromStr json d pydantic kind autoUnwrap .topology correlationId clients pushes
        Rust.topologyResponse Ts.topologyFromPayload Go.topologyStateFromWire
        (Py.topologyFromPayload pydantic) (taken.map (topologyRows enginePid found))
        (taken.map fun reading => (topologyRows enginePid found reading).map
          fun row => row.toValue.mapNumbers d.read) := by
  obtain ⟨taken, htaken, hfirst⟩ := firstAnswer_read htable hmode hrun hone hpushed
  have hrows : ∀ reading ∈ taken, answerPayload name reading .topology =
      topologyValue (topologyRows enginePid found reading) ∧
      ∀ row ∈ topologyRows enginePid found reading, row.Plain := by
    intro reading hreading
    obtain ⟨job, hserved, _⟩ := htaken reading hreading
    obtain ⟨htopology, hpids⟩ := hfound reading (takeMessage_of_served hrun hserved)
    exact ⟨htopology, TopologyPayload.buildTopologyPayload_plain hengine hpids⟩
  refine ⟨taken, htaken, told_of_firstAnswer hwaiting hread hfirst ?_ ?_ ?_ ?_⟩
  · intro reading hreading
    obtain ⟨htopology, hplain⟩ := hrows reading hreading
    rw [htopology]
    exact Rust.topologyResponse_topologyValue hplain
  · intro reading hreading
    rw [(hrows reading hreading).1]
    exact Ts.topologyFromPayload_topologyValue d.read _
  · intro reading hreading
    obtain ⟨htopology, hplain⟩ := hrows reading hreading
    rw [htopology]
    exact Go.topologyStateFromWire_topologyValue hplain
  · intro reading hreading
    obtain ⟨htopology, hplain⟩ := hrows reading hreading
    rw [htopology]
    exact Py.topologyFromPayload_topologyValue pydantic hplain

end

/-! A console asks the strict engine of the timer. -/

theorem requestType_valid (query : Query) : ValidMessageType query.requestType := by
  cases query <;> decide

theorem validPrimitiveName_console : ValidPrimitiveName "console" := by decide

def askRequest (query : Query) : EmergentMessage where
  id := pushedId
  messageType := ⟨query.requestType, requestType_valid query⟩
  source := ⟨"console", validPrimitiveName_console⟩
  correlationId := some callId
  causationId := none
  timestampMs := 0
  payload := .object [("name", .string "console")]
  metadata := none

def askPayload (query : Query) : Value := .object [("inner", (askRequest query).toValue)]

def consoleInfo : TopologyPayload.PrimitiveInfo := .sink "console" ["timer.*"]

def askReading : EngineReading where
  id := pushedId
  timestampMs := 1
  subscribes := fun _ => some ["timer.*"]
  topology := (TopologyPayload.buildTopologyPayload 7 [consoleInfo]).toValue

def askActions (query : Query) : List BrokerAction :=
  [.connect 1 (some (.primitive "console")),
    .operation 1 (.subscribe [query.responseType]) .emergentMessage false,
    .operation 1 (.request (askPayload query)) .emergentMessage false,
    .takeMessage askReading, .handlerStep noFaults, .handlerStep noFaults]

def askAnswer (query : Query) : EmergentMessage :=
  engineResponse askReading (askRequest query) ⟨query.responseType, responseType_valid query⟩
    (answerPayload "console" askReading query)

theorem askRequest_read (query : Query) : IdsRead readTypeId (askRequest query) := by
  refine ⟨?_, ?_, ?_⟩
  · show readTypeId pushedId.id.toStr = some pushedId.id
    decide
  · rintro id ⟨⟩
    decide
  · rintro id ⟨⟩

theorem askPayload_decoded (query : Query) :
    fromIpcPayload readTypeId (askPayload query) = some (askRequest query) := by
  have hinner : fromIpcPayload readTypeId (askPayload query) =
    EmergentMessage.fromValue readTypeId (askRequest query).toValue := rfl
  rw [hinner, fromValue_toValue (askRequest_read query)]
  rfl

theorem askActions_oneQuery (query : Query) :
    OneQuery timerConsole readTypeId (askActions query) query callId.id.toStr "console" := by
  have hrequest : ∀ {id payload wire shouldReply},
      .operation id (.request payload) wire shouldReply ∈ askActions query →
      payload = askPayload query := by
    intro id payload wire shouldReply hmem
    simp only [askActions, List.mem_cons, List.not_mem_nil, or_false, reduceCtorEq, false_or,
      BrokerAction.operation.injEq, EnginePolicy.IpcOperation.request.injEq, false_and,
      and_false] at hmem
    exact hmem.2.1
  refine ⟨?_, ?_, ?_, ?_⟩
  · intro publisher declared hdeclares
    rcases hdeclares with ⟨source, hsource, _, htopic⟩ | ⟨handler, hhandler, _⟩
    · obtain rfl := List.mem_singleton.mp hsource
      obtain rfl := List.mem_singleton.mp htopic
      cases query <;> decide
    · cases hhandler
  · intro id payload wire shouldReply hmem
    rw [hrequest hmem]
    exact ⟨(askRequest query).toValue, rfl, rfl⟩
  · intro m hmem
    simp [askActions] at hmem
  · intro id payload wire shouldReply m hmem hdecoded _ _
    rw [hrequest hmem, askPayload_decoded] at hdecoded
    rw [← Option.some.inj hdecoded]
    rfl

theorem askActions_run (query : Query) :
    ∃ s, run (BrokerState.step timerConsolePolicy readTypeId) (start bothStores)
        (askActions query) = some s ∧ s.releases = [(.forward, askAnswer query)] := by
  have hreleases : (run (BrokerState.step timerConsolePolicy readTypeId) (start bothStores)
      (askActions query)).map releases = some [(.forward, askAnswer query)] := by
    cases query <;> rfl
  exact Option.map_eq_some_iff.mp hreleases

def askPushes (query : Query) : List Push :=
  [⟨"n1", 1, .message (askAnswer query), ⟨pushedId, 1⟩⟩]

theorem askPushes_released {query : Query} {s : BrokerState}
    (hreleases : s.releases = [(.forward, askAnswer query)]) :
    ∀ p ∈ askPushes query, ∀ m, p.content = .message m → (.forward, m) ∈ s.releases := by
  intro p hp m hm
  obtain rfl := List.mem_singleton.mp hp
  obtain rfl := PushContent.message.inj hm
  rw [hreleases]
  exact List.mem_singleton_self _

theorem askPushes_read (query : Query) : PushedIdsRead readTypeId (askPushes query) := by
  intro p hp m hm
  obtain rfl := List.mem_singleton.mp hp
  obtain rfl := PushContent.message.inj hm
  exact ⟨(askRequest_read query).id, (askRequest_read query).correlation, by rintro id ⟨⟩⟩

def askingTopology : PushClient := ⟨true, [], [], [callId.id.toStr], [], []⟩

theorem asking_waits :
    Waiting ⟨asking, asking, asking, asking⟩ .subscriptions callId.id.toStr :=
  ⟨asking_call, asking_call, asking_call⟩

theorem askingTopology_call : askingTopology.Call .topology callId.id.toStr none := by
  refine ⟨by decide, fun other hother => ?_, rfl⟩
  cases other with
  | subscriptions => exact List.not_mem_nil
  | topology => exact absurd rfl hother

theorem run_subscriptions_told_console :
    ∃ taken : Option EngineReading,
      (∀ reading ∈ taken, ServedUnder timerConsolePolicy readTypeId bothStores
        (askActions .subscriptions) .subscriptions callId.id.toStr "console" reading) ∧
      Told readTypeId noJson exactDoubles onlyPosInt .sink true .subscriptions callId.id.toStr
        ⟨asking, asking, asking, asking⟩ (askPushes .subscriptions) Rust.subscriptionsResponse
        subscribesFromPayload subscribesFromPayload subscribesFromPayload
        (taken.map (subscribesOf "console")) (taken.map (subscribesOf "console")) := by
  obtain ⟨s, hrun, hreleases⟩ := askActions_run .subscriptions
  exact run_subscriptions_told rfl rfl hrun (askActions_oneQuery .subscriptions)
    (askPushes_released hreleases) (askPushes_read .subscriptions) asking_waits

theorem askReading_topology {reading : EngineReading}
    (h : .takeMessage reading ∈ askActions .topology) :
    ReadsTopology 7 (fun _ => [consoleInfo]) reading := by
  simp only [askActions, List.mem_cons, List.not_mem_nil, or_false, reduceCtorEq, false_or,
    BrokerAction.takeMessage.injEq] at h
  subst h
  refine ⟨rfl, fun info hinfo pid hpid => ?_⟩
  obtain rfl := List.mem_singleton.mp hinfo
  cases hpid

theorem run_topology_told_console :
    ∃ taken : Option EngineReading,
      (∀ reading ∈ taken, ServedUnder timerConsolePolicy readTypeId bothStores
        (askActions .topology) .topology callId.id.toStr "console" reading) ∧
      Told readTypeId noJson exactDoubles onlyPosInt .sink true .topology callId.id.toStr
        ⟨askingTopology, askingTopology, askingTopology, askingTopology⟩ (askPushes .topology)
        Rust.topologyResponse Ts.topologyFromPayload Go.topologyStateFromWire
        (Py.topologyFromPayload onlyPosInt)
        (taken.map (topologyRows 7 fun _ => [consoleInfo]))
        (taken.map fun reading => (topologyRows 7 (fun _ => [consoleInfo]) reading).map
          fun row => row.toValue.mapNumbers exactDoubles.read) := by
  obtain ⟨s, hrun, hreleases⟩ := askActions_run .topology
  have hwaiting : Waiting ⟨askingTopology, askingTopology, askingTopology, askingTopology⟩
      .topology callId.id.toStr :=
    ⟨askingTopology_call, askingTopology_call, askingTopology_call⟩
  have hengine : TopologyPayload.PidFits 7 := by
    show (7 : ℕ) < 4294967296
    omega
  exact run_topology_told rfl rfl hrun (askActions_oneQuery .topology) hengine
    (fun _ => askReading_topology) (askPushes_released hreleases) (askPushes_read .topology)
    hwaiting

end BrokerState

end Emergent.Engine

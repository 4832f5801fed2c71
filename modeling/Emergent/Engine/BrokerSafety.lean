import Emergent.Engine.Broker

/-!
# What every run of the broker keeps

Two results over whole runs. In strict mode a connection only ever receives
what its declarations cover: delivery is not checked, so this is an invariant
of the subscriptions. And a message is in every configured store before it is
forwarded or acknowledged, in every run where the stores take what they are
given and no client asks for an engine answer.
-/

namespace Emergent.Engine
open Emergent.Sdk Kit Kit.WriteAhead

/-! ### Confinement -/

/-- What a connection of this identity may be sent: a protocol type, or one
that a usable entry of its primitive's `subscribes` matches. -/
def EmergentConfig.MayReceive (config : EmergentConfig) (identity : Option ConnectionIdentity)
    (messageType : String) : Prop :=
  messageType ∈ protocolSubscribes ∨
    ∃ name declared, identity = some (.primitive name) ∧
      config.DeclaresSubscribe name declared ∧ (∃ kind, classifyTopic declared = .ok kind) ∧
      topicMatches declared messageType = true

def Connection.Confined (config : EmergentConfig) (c : Connection) : Prop :=
  ∀ messageType, c.selects messageType = true → config.MayReceive c.identity messageType

theorem Connection.selects_iff {c : Connection} {messageType : String} :
    c.selects messageType = true ↔
      messageType ∈ c.exact ∨ ∃ topic ∈ c.patterns, topicMatches topic messageType = true := by
  simp [Connection.selects]

section
variable {config : EmergentConfig}

theorem literal_of_protocol {topic : String} (h : topic ∈ protocolSubscribes) :
    '*' ∉ topic.toList := by
  simp only [protocolSubscribes, List.mem_cons, List.not_mem_nil, or_false] at h
  rcases h with rfl | rfl | rfl <;> decide

/-- An allowed topic selects, as a literal or as a pattern, only what the
connection may receive. -/
theorem mayReceive_of_allows {identity : Option ConnectionIdentity} {topic messageType : String}
    (h : config.declarationTable.Allows (identity.getD (.unmanaged none 0)).primitiveName
      .subscribe topic)
    (hsel : messageType = topic ∨ topicMatches topic messageType = true) :
    config.MayReceive identity messageType := by
  rcases h with hproto | ⟨name, declarations, hname, hget, _, hpermits⟩
  · have hmem : topic ∈ protocolSubscribes := by simpa [isProtocolTopic] using hproto
    rcases hsel with rfl | hm
    · exact Or.inl hmem
    · rw [topicMatches_literal (literal_of_protocol hmem)] at hm
      exact Or.inl (hm ▸ hmem)
  · obtain ⟨topics, htopics, hdecl⟩ := EmergentConfig.declarationTable_subscribes hget
    have hp : (TopicSet.new topics).permits topic = true := by
      rw [← htopics]
      exact hpermits
    have hident : identity = some (.primitive name) := by
      cases identity with
      | none => cases hname
      | some who =>
        cases who with
        | primitive found =>
          have : found = name := Option.some.inj hname
          rw [this]
        | unmanaged pid uid => cases hname
    obtain ⟨d, hd, hkind, hmatch⟩ :
        ∃ d ∈ topics, (∃ kind, classifyTopic d = .ok kind) ∧
          topicMatches d messageType = true := by
      rcases hsel with rfl | hm
      · exact TopicSet.permits_self hp
      · exact TopicSet.permits_sound hp hm
    exact Or.inr ⟨name, d, hident, hdecl d hd, hkind, hmatch⟩

variable {policy : EnginePolicy}

theorem Connection.Confined.apply {c : Connection} (hc : c.Confined config)
    (htable : policy.declarations = config.declarationTable)
    (hmode : config.enforceDeclarations = .strict) {op : EnginePolicy.IpcOperation}
    (hallowed : (policy.authorize c.identity op).allowed = true) :
    (c.apply op).Confined config := by
  have hstrict : policy.declarations.mode = .strict := by
    rw [htable]
    exact hmode
  intro messageType hsel
  rw [Connection.selects_iff] at hsel
  cases op with
  | subscribe topics =>
    have hall := (EnginePolicy.authorizeSubscribe_allowed hstrict topics).mp hallowed
    rw [htable] at hall
    rcases hsel with hmem | hpat
    · rcases List.mem_append.mp hmem with hold | hnew
      · exact hc messageType (Connection.selects_iff.mpr (Or.inl hold))
      · exact mayReceive_of_allows (hall messageType hnew) (Or.inl rfl)
    · exact hc messageType (Connection.selects_iff.mpr (Or.inr hpat))
  | subscribePatterns topics =>
    have hall := (EnginePolicy.authorizeSubscribe_allowed hstrict topics).mp hallowed
    rw [htable] at hall
    rcases hsel with hmem | ⟨topic, hmem, hmatch⟩
    · exact hc messageType (Connection.selects_iff.mpr (Or.inl hmem))
    · rcases List.mem_append.mp hmem with hold | hnew
      · exact hc messageType (Connection.selects_iff.mpr (Or.inr ⟨topic, hold, hmatch⟩))
      · exact mayReceive_of_allows (hall topic hnew) (Or.inr hmatch)
  | unsubscribe topics =>
    refine hc messageType (Connection.selects_iff.mpr (hsel.imp_left fun hmem => ?_))
    exact (List.mem_filter.mp hmem).1
  | unsubscribePatterns topics =>
    refine hc messageType (Connection.selects_iff.mpr (hsel.imp_right ?_))
    rintro ⟨topic, hmem, hmatch⟩
    exact ⟨topic, (List.mem_filter.mp hmem).1, hmatch⟩
  | request payload => exact hc messageType (Connection.selects_iff.mpr hsel)
  | discover => exact hc messageType (Connection.selects_iff.mpr hsel)
  | deliver t => exact hc messageType (Connection.selects_iff.mpr hsel)

namespace BrokerState

structure Confined (config : EmergentConfig) (s : BrokerState) : Prop where
  connections : ∀ c ∈ s.connections, c.Confined config
  deliveries : ∀ d ∈ s.deliveries, config.MayReceive d.identity d.messageType

theorem confined_start (stores : EventStoreWrapper) : (start stores).Confined config :=
  ⟨by simp [start], by simp [start]⟩

theorem Confined.perform {s : BrokerState} (hs : s.Confined config) (faults : StoreFaults)
    (op : BrokerOp) : (s.perform policy faults op).Confined config := by
  cases op with
  | write m => exact ⟨hs.connections, hs.deliveries⟩
  | release way m =>
    cases way with
    | ack => exact ⟨hs.connections, hs.deliveries⟩
    | forward =>
      refine ⟨hs.connections, fun d hd => ?_⟩
      rcases List.mem_append.mp hd with hold | hnew
      · exact hs.deliveries d hold
      · obtain ⟨c, hc, rfl⟩ := List.mem_map.mp hnew
        obtain ⟨hmem, hsel⟩ := List.mem_filter.mp hc
        exact hs.connections c hmem _ (Bool.and_eq_true_iff.mp hsel).1

theorem Confined.operate {s : BrokerState} (hs : s.Confined config)
    (htable : policy.declarations = config.declarationTable)
    (hmode : config.enforceDeclarations = .strict) (fromStr : String → Option TypeId)
    {c : Connection} (hc : c ∈ s.connections) (op : EnginePolicy.IpcOperation) (wire : WireType)
    (shouldReply : Bool) : (s.operate policy fromStr c op wire shouldReply).Confined config := by
  unfold BrokerState.operate
  by_cases hallowed : (policy.authorize c.identity op).allowed = true
  · have hmap : ∀ other ∈ s.connections.map
        (fun other => if other.id = c.id then c.apply op else other), other.Confined config := by
      intro other hother
      obtain ⟨old, hold, rfl⟩ := List.mem_map.mp hother
      by_cases hid : old.id = c.id
      · simp only [hid, if_true]
        exact (hs.connections c hc).apply htable hmode hallowed
      · simp only [hid, if_false]
        exact hs.connections old hold
    simp only [hallowed, if_true]
    cases op with
    | request payload =>
      simp only [applyOperation]
      split
      · exact ⟨hs.connections, hs.deliveries⟩
      · exact ⟨hs.connections, hs.deliveries⟩
    | _ => exact ⟨hmap, hs.deliveries⟩
  · simp only [hallowed]
    exact ⟨hs.connections, hs.deliveries⟩

theorem Confined.step {s t : BrokerState} (hs : s.Confined config)
    (htable : policy.declarations = config.declarationTable)
    (hmode : config.enforceDeclarations = .strict) {fromStr : String → Option TypeId}
    {a : BrokerAction} (h : s.step policy fromStr a = some t) : t.Confined config := by
  cases a with
  | connect id identity =>
    simp only [BrokerState.step] at h
    split_ifs at h
    cases h
    refine ⟨fun c hc => ?_, hs.deliveries⟩
    rcases List.mem_append.mp hc with hold | hnew
    · exact hs.connections c hold
    · rw [List.mem_singleton.mp hnew]
      intro messageType hsel
      simp [Connection.selects] at hsel
  | close id =>
    cases h
    exact ⟨fun c hc => hs.connections c (List.mem_filter.mp hc).1, hs.deliveries⟩
  | operation id op wire shouldReply =>
    obtain ⟨c, hfind, rfl⟩ := Option.map_eq_some_iff.mp h
    exact hs.operate htable hmode fromStr (List.mem_of_find?_eq_some hfind) op wire shouldReply
  | broadcast event =>
    cases h
    exact ⟨hs.connections, hs.deliveries⟩
  | takeMessage reading =>
    simp only [BrokerState.step] at h
    split at h
    · cases h
      exact ⟨hs.connections, hs.deliveries⟩
    · cases h
  | takeReport id timestampMs =>
    simp only [BrokerState.step] at h
    split at h
    · cases h
      exact ⟨hs.connections, hs.deliveries⟩
    · cases h
  | handlerStep faults =>
    simp only [BrokerState.step] at h
    split at h
    · rename_i op ops _
      cases h
      exact Confined.perform (s := { s with handler := ops }) ⟨hs.connections, hs.deliveries⟩
        faults op
    · cases h
  | reporterStep faults =>
    simp only [BrokerState.step] at h
    split at h
    · rename_i op ops _
      cases h
      exact Confined.perform (s := { s with reporter := ops }) ⟨hs.connections, hs.deliveries⟩
        faults op
    · cases h

/-- Every message delivered in a run of a strict engine is one its connection
may receive. -/
theorem run_deliveries_confined {config : EmergentConfig} {policy : EnginePolicy}
    (htable : policy.declarations = config.declarationTable)
    (hmode : config.enforceDeclarations = .strict) {fromStr : String → Option TypeId}
    {stores : EventStoreWrapper} {actions : List BrokerAction} {s : BrokerState}
    (hrun : run (BrokerState.step policy fromStr) (start stores) actions = some s) :
    ∀ d ∈ s.deliveries, config.MayReceive d.identity d.messageType :=
  (run_invariant (fun _ _ _ hs h => Confined.step hs htable hmode h)
    (confined_start stores) hrun).deliveries

/-! A strict engine with a timer and a console. -/

def timerConsole : EmergentConfig where
  enforceDeclarations := .strict
  sources := [⟨"timer", ["timer.tick"]⟩]
  handlers := []
  sinks := [⟨"console", ["timer.*"]⟩]

def timerConsolePolicy : EnginePolicy := ⟨timerConsole.declarationTable, .ignored, true⟩

def noReading : EngineReading where
  id := ⟨⟨"msg", "01h455vb4pex5vsknk084sn02r"⟩, by decide⟩
  timestampMs := 1
  subscribes := fun _ => none
  topology := .null

def noFaults : StoreFaults := ⟨none, none⟩

def bothStores : EventStoreWrapper := ⟨some [], some []⟩

/-- The console subscribes and the timer publishes; the console's attempt at
another topic is refused. -/
def tickActions (payload : Value) : List BrokerAction :=
  [.connect 1 (some (.primitive "console")), .connect 2 (some (.primitive "timer")),
    .operation 1 (.subscribePatterns ["timer.*"]) .emergentMessage false,
    .operation 1 (.subscribe ["secrets.all"]) .emergentMessage false,
    .operation 2 (.request payload) .emergentMessage true,
    .takeMessage noReading, .handlerStep noFaults, .handlerStep noFaults, .handlerStep noFaults]

theorem run_deliveries_confined_timer :
    ∃ s, run (BrokerState.step timerConsolePolicy readTypeId) (start bothStores)
        (tickActions (EnginePolicy.namedPayload "timer.tick")) = some s ∧
      s.deliveries = [⟨1, some (.primitive "console"), "timer.tick"⟩] ∧
      timerConsole.MayReceive (some (.primitive "console")) "timer.tick" := by
  have hdel : (run (BrokerState.step timerConsolePolicy readTypeId) (start bothStores)
      (tickActions (EnginePolicy.namedPayload "timer.tick"))).map (fun s => s.deliveries) =
      some [⟨1, some (.primitive "console"), "timer.tick"⟩] := by decide
  obtain ⟨s, hrun, hs⟩ := Option.map_eq_some_iff.mp hdel
  refine ⟨s, hrun, hs, ?_⟩
  exact run_deliveries_confined rfl rfl hrun ⟨1, some (.primitive "console"), "timer.tick"⟩
    (by rw [hs]; simp)

end BrokerState
end

/-! ### Persistence -/

/-- The publish is one of the two the engine answers with a message of its own. -/
def EngineAnswered (m : EmergentMessage) : Prop :=
  m.messageType.value = "system.request.subscriptions" ∨
    m.messageType.value = "system.request.topology"

instance (m : EmergentMessage) : Decidable (EngineAnswered m) :=
  inferInstanceAs (Decidable (_ ∨ _))

theorem answer_eq_none {m : EmergentMessage} (h : ¬ EngineAnswered m) (reading : EngineReading) :
    answer reading m = none := by
  obtain ⟨hsub, htop⟩ := not_or.mp h
  simp only [answer, if_neg hsub, if_neg htop]

namespace BrokerState

/-- The next operation of a handler is not a write that a configured store
refuses. -/
def WriteTaken (faults : StoreFaults) (s : BrokerState) : List BrokerOp → Prop
  | .write m :: _ => s.stores.Accepts faults m
  | _ => True

instance (faults : StoreFaults) (s : BrokerState) :
    ∀ ops : List BrokerOp, Decidable (s.WriteTaken faults ops)
  | [] => isTrue trivial
  | .release _ _ :: _ => isTrue trivial
  | .write m :: _ => inferInstanceAs (Decidable (s.stores.Accepts faults m))

def Unanswered : List BrokerMessage → Prop
  | .emergent m _ :: _ => ¬ EngineAnswered m
  | _ => True

instance : ∀ inbox : List BrokerMessage, Decidable (Unanswered inbox)
  | [] => isTrue trivial
  | .systemEvent _ :: _ => isTrue trivial
  | .emergent m _ :: _ => inferInstanceAs (Decidable (¬ EngineAnswered m))

def Sound (s : BrokerState) : BrokerAction → Prop
  | .takeMessage _ => Unanswered s.inbox
  | .handlerStep faults => s.WriteTaken faults s.handler
  | .reporterStep faults => s.WriteTaken faults s.reporter
  | _ => True

instance (s : BrokerState) : ∀ a : BrokerAction, Decidable (s.Sound a)
  | .takeMessage _ => inferInstanceAs (Decidable (Unanswered s.inbox))
  | .handlerStep faults => inferInstanceAs (Decidable (s.WriteTaken faults s.handler))
  | .reporterStep faults => inferInstanceAs (Decidable (s.WriteTaken faults s.reporter))
  | .connect .. | .close _ | .operation .. | .broadcast _ | .takeReport .. => isTrue trivial

/-- The invariant: both programs release only what is durable or what they
write first. -/
structure Persisting (logs : StoreKind → Prop) (s : BrokerState) : Prop where
  configured : s.stores.configured = logs
  disciplined : Disciplined logs s.trace
  handler : Ready (Durable logs s.trace) s.handler
  reporter : Ready (Durable logs s.trace) s.reporter

section
variable {logs : StoreKind → Prop} {policy : EnginePolicy}

theorem persisting_start (stores : EventStoreWrapper) :
    (start stores).Persisting stores.configured :=
  ⟨rfl, disciplined_nil, trivial, trivial⟩

theorem ready_handle (P : EmergentMessage → Prop) (reading : EngineReading) (m : BrokerMessage)
    (h : ∀ inner shouldReply, m = .emergent inner shouldReply → ¬ EngineAnswered inner) :
    Ready P (handle reading m) := by
  cases m with
  | systemEvent inner => exact ⟨Or.inr rfl, trivial⟩
  | emergent inner shouldReply =>
    simp only [handle, answer_eq_none (h inner shouldReply rfl)]
    refine ⟨Or.inr rfl, ?_⟩
    cases shouldReply with
    | false => trivial
    | true => exact ⟨Or.inr rfl, trivial⟩

theorem ready_reportRejection (P : EmergentMessage → Prop) (id : MessageId)
    (timestampMs : UInt64) (report : RejectionReport) :
    Ready P (reportRejection id timestampMs report) := by
  unfold reportRejection
  split
  · trivial
  · exact ⟨Or.inr rfl, trivial⟩

theorem perform_ready (policy : EnginePolicy) {s : BrokerState} {faults : StoreFaults}
    {op : BrokerOp} {ops : List BrokerOp} (hconf : s.stores.configured = logs)
    (hdisc : Disciplined logs s.trace)
    (hready : Ready (Durable logs s.trace) (op :: ops))
    (htaken : ∀ m, op = .write m → s.stores.Accepts faults m) :
    (s.perform policy faults op).stores.configured = logs ∧
      Disciplined logs (s.perform policy faults op).trace ∧
      Ready (Durable logs (s.perform policy faults op).trace) ops ∧
      ∀ x, Durable logs s.trace x → Durable logs (s.perform policy faults op).trace x := by
  cases op with
  | write m =>
    have hdur : Durable logs (s.trace ++ (s.stores.store faults m).taken.map (.wrote · m)) m := by
      refine Durable.of_wrote fun kind hk => ?_
      rw [← hconf] at hk
      exact List.mem_map.mpr ⟨kind, EventStoreWrapper.store_taken (htaken m rfl) kind hk, rfl⟩
    refine ⟨?_, ?_, ?_, fun x hx => hx.append⟩
    · exact (EventStoreWrapper.store_configured faults s.stores m).trans hconf
    · refine hdisc.append_wrote fun e he => ?_
      obtain ⟨kind, _, rfl⟩ := List.mem_map.mp he
      exact ⟨kind, m, rfl⟩
    · refine Ready.mono (fun y hy => ?_) hready
      rcases hy with hy | rfl
      · exact hy.append
      · exact hdur
  | release way m =>
    obtain ⟨hm, hrest⟩ := hready
    have hdisc' : Disciplined logs (s.trace ++ [.released way m]) := by
      refine hdisc.snoc fun way' x hx => ?_
      cases hx
      exact hm
    have hrest' : Ready (Durable logs (s.trace ++ [.released way m])) ops :=
      hrest.mono fun y hy => hy.append
    cases way with
    | forward => exact ⟨hconf, hdisc', hrest', fun x hx => hx.append⟩
    | ack => exact ⟨hconf, hdisc', hrest', fun x hx => hx.append⟩

theorem perform_programs (policy : EnginePolicy) (s : BrokerState) (faults : StoreFaults)
    (op : BrokerOp) :
    (s.perform policy faults op).handler = s.handler ∧
      (s.perform policy faults op).reporter = s.reporter := by
  cases op with
  | write m => exact ⟨rfl, rfl⟩
  | release way m => cases way <;> exact ⟨rfl, rfl⟩

theorem operate_persistence (policy : EnginePolicy) (s : BrokerState)
    (fromStr : String → Option TypeId) (c : Connection) (op : EnginePolicy.IpcOperation)
    (wire : WireType) (shouldReply : Bool) :
    let t := s.operate policy fromStr c op wire shouldReply
    t.stores = s.stores ∧ t.trace = s.trace ∧ t.handler = s.handler ∧ t.reporter = s.reporter := by
  simp only [operate]
  split
  · unfold applyOperation
    split
    · split <;> exact ⟨rfl, rfl, rfl, rfl⟩
    · exact ⟨rfl, rfl, rfl, rfl⟩
  · exact ⟨rfl, rfl, rfl, rfl⟩

theorem Persisting.step {s t : BrokerState} (hs : s.Persisting logs)
    {fromStr : String → Option TypeId} {a : BrokerAction} (hsound : s.Sound a)
    (h : s.step policy fromStr a = some t) : t.Persisting logs := by
  cases a with
  | connect id identity =>
    simp only [BrokerState.step] at h
    split_ifs at h
    cases h
    exact ⟨hs.configured, hs.disciplined, hs.handler, hs.reporter⟩
  | close id =>
    cases h
    exact ⟨hs.configured, hs.disciplined, hs.handler, hs.reporter⟩
  | operation id op wire shouldReply =>
    obtain ⟨c, _, rfl⟩ := Option.map_eq_some_iff.mp h
    obtain ⟨hst, htr, hha, hre⟩ :=
      operate_persistence policy s fromStr c op wire shouldReply
    exact ⟨by rw [hst]; exact hs.configured, by rw [htr]; exact hs.disciplined,
      by rw [htr, hha]; exact hs.handler, by rw [htr, hre]; exact hs.reporter⟩
  | broadcast event =>
    cases h
    exact ⟨hs.configured, hs.disciplined, hs.handler, hs.reporter⟩
  | takeMessage reading =>
    simp only [BrokerState.step] at h
    split at h
    · rename_i m inbox _ hinbox
      cases h
      refine ⟨hs.configured, hs.disciplined, ready_handle _ _ _ ?_, hs.reporter⟩
      rintro inner shouldReply rfl
      simpa only [Sound, hinbox, Unanswered] using hsound
    · cases h
  | takeReport id timestampMs =>
    simp only [BrokerState.step] at h
    split at h
    · cases h
      exact ⟨hs.configured, hs.disciplined, hs.handler, ready_reportRejection _ _ _ _⟩
    · cases h
  | handlerStep faults =>
    simp only [BrokerState.step] at h
    split at h
    · rename_i op ops hops
      cases h
      have hready : Ready (Durable logs s.trace) (op :: ops) := hops ▸ hs.handler
      have htaken : ∀ m, op = .write m → s.stores.Accepts faults m :=
        fun m hm => by simpa only [Sound, hops, hm, WriteTaken] using hsound
      obtain ⟨hconf, hdisc, hrest, hmore⟩ := perform_ready policy
        (s := { s with handler := ops }) hs.configured hs.disciplined hready htaken
      obtain ⟨hha, hre⟩ := perform_programs policy { s with handler := ops } faults op
      exact ⟨hconf, hdisc, by rw [hha]; exact hrest, by rw [hre]; exact hs.reporter.mono hmore⟩
    · cases h
  | reporterStep faults =>
    simp only [BrokerState.step] at h
    split at h
    · rename_i op ops hops
      cases h
      have hready : Ready (Durable logs s.trace) (op :: ops) := hops ▸ hs.reporter
      have htaken : ∀ m, op = .write m → s.stores.Accepts faults m :=
        fun m hm => by simpa only [Sound, hops, hm, WriteTaken] using hsound
      obtain ⟨hconf, hdisc, hrest, hmore⟩ := perform_ready policy
        (s := { s with reporter := ops }) hs.configured hs.disciplined hready htaken
      obtain ⟨hha, hre⟩ := perform_programs policy { s with reporter := ops } faults op
      exact ⟨hconf, hdisc, by rw [hha]; exact hs.handler.mono hmore, by rw [hre]; exact hrest⟩
    · cases h

/-- In a run whose every write is taken by the configured stores and which
serves no engine answer, whatever was forwarded or acknowledged had been stored
in each of them before. -/
theorem run_persisted_before_released {policy : EnginePolicy}
    {fromStr : String → Option TypeId} {stores : EventStoreWrapper}
    {actions : List BrokerAction} {s : BrokerState}
    (hsound : Obeys (BrokerState.step policy fromStr) Sound (start stores) actions)
    (hrun : run (BrokerState.step policy fromStr) (start stores) actions = some s) :
    Disciplined stores.configured s.trace :=
  (run_invariant_of_obeys (fun _ _ _ hs hg h => Persisting.step hs hg h)
    (persisting_start stores) hsound hrun).disciplined

end

def stampedPayload (timestampMs : UInt64) : Value :=
  .object [("inner", .object [("id", .string "msg_01h455vb4pex5vsknk084sn02q"),
    ("message_type", .string "timer.tick"), ("source", .string "timer"),
    ("timestamp_ms", .number (.posInt timestampMs)), ("payload", .null)])]

def eventName : BrokerEvent → Option StoreKind × Option Release
  | .wrote kind _ => (some kind, none)
  | .released way _ => (none, some way)

theorem run_persisted_before_released_timer :
    ∃ s, run (BrokerState.step timerConsolePolicy readTypeId) (start bothStores)
        (tickActions (stampedPayload 1)) = some s ∧
      s.trace.map eventName = [(some .jsonLog, none), (some .sqlite, none),
        (none, some .forward), (none, some .ack)] ∧
      Disciplined bothStores.configured s.trace := by
  have htrace : (run (BrokerState.step timerConsolePolicy readTypeId) (start bothStores)
      (tickActions (stampedPayload 1))).map (fun s => s.trace.map eventName) =
      some [(some .jsonLog, none), (some .sqlite, none), (none, some .forward),
        (none, some .ack)] := by decide
  obtain ⟨s, hrun, hs⟩ := Option.map_eq_some_iff.mp htrace
  exact ⟨s, hrun, hs, run_persisted_before_released (by decide) hrun⟩

/-- A publish stamped `2^63` is refused by SQLite, forwarded and acknowledged. -/
theorem stamped_released_unstored :
    ∃ s, run (BrokerState.step timerConsolePolicy readTypeId) (start bothStores)
        (tickActions (stampedPayload 9223372036854775808)) = some s ∧
      ¬ Disciplined bothStores.configured s.trace := by
  have htrace : (run (BrokerState.step timerConsolePolicy readTypeId) (start bothStores)
      (tickActions (stampedPayload 9223372036854775808))).map (fun s => s.trace.map eventName) =
      some [(some .jsonLog, none), (none, some .forward), (none, some .ack)] := by decide
  obtain ⟨s, hrun, hs⟩ := Option.map_eq_some_iff.mp htrace
  refine ⟨s, hrun, fun hdisc => ?_⟩
  obtain ⟨e, he, hname⟩ := List.mem_map.mp
    (show (none, some .forward) ∈ s.trace.map eventName by rw [hs]; decide)
  cases e with
  | wrote kind m => cases hname
  | released way m =>
    have hmem := List.mem_map_of_mem (f := eventName)
      (hdisc.wrote_of_released he (k := .sqlite) rfl)
    rw [hs] at hmem
    revert hmem
    simp [eventName]

end BrokerState

end Emergent.Engine

import Emergent.Engine.BrokerOrder

/-!
# Where every message the broker releases comes from

A forwarded or acknowledged message has one of four origins: the engine answered
a request it had accepted, the reporter told of a refusal, the engine broadcast it as
an event of its own, or a connection published it. In strict mode a publish that names its
fields is one the declarations of the connection's primitive cover, under the name
of that primitive.
-/

namespace Emergent.Engine
open Emergent.Sdk Kit Kit.WriteAhead

/-! ### What a connection may publish -/

namespace EmergentConfig

def DeclaresPublish (config : EmergentConfig) (name topic : String) : Prop :=
  (∃ s ∈ config.sources, s.name = name ∧ topic ∈ s.publishes) ∨
    ∃ h ∈ config.handlers, h.name = name ∧ topic ∈ h.publishes

theorem declarationTable_publishes {config : EmergentConfig} {name : String}
    {declarations : Declarations} (h : config.declarationTable.get name = some declarations) :
    ∃ topics, declarations.publishes = TopicSet.new topics ∧
      ∀ topic ∈ topics, config.DeclaresPublish name topic := by
  have hmem : (name, declarations) ∈ config.declarationTable.primitives := by
    obtain ⟨l₁, l₂, hl, _⟩ := List.lookup_eq_some_iff.mp h
    exact List.mem_reverse.mp (by rw [hl]; simp)
  simp only [declarationTable, List.mem_append, List.mem_map, Prod.mk.injEq] at hmem
  rcases hmem with (⟨s, hs, hn, hd⟩ | ⟨s, hs, hn, hd⟩) | ⟨s, hs, hn, hd⟩
  · exact ⟨s.publishes, by rw [← hd]; rfl, fun topic ht => Or.inl ⟨s, hs, hn, ht⟩⟩
  · exact ⟨s.publishes, by rw [← hd]; rfl, fun topic ht => Or.inr ⟨s, hs, hn, ht⟩⟩
  · exact ⟨[], by rw [← hd]; rfl, by simp⟩

/-- What a connection of this identity may publish: a protocol type, or one that a
usable entry of the `publishes` of the name it is judged under matches. A managed
connection publishes under its own name only. -/
structure MayPublish (config : EmergentConfig) (unmanaged : UnmanagedNames)
    (identity : Option ConnectionIdentity) (m : EmergentMessage) : Prop where
  type : m.messageType.value ∈ protocolPublishes ∨
    ∃ name declared,
      (effectiveName (identity.getD (.unmanaged none 0)) (some m.source.value) unmanaged).name =
        some name ∧
      config.DeclaresPublish name declared ∧ (∃ kind, classifyTopic declared = .ok kind) ∧
      topicMatches declared m.messageType.value = true
  source : ∀ name, identity = some (.primitive name) → m.source.value = name

theorem mayPublish_of_permitted {config : EmergentConfig} {policy : EnginePolicy}
    (htable : policy.declarations = config.declarationTable)
    {identity : Option ConnectionIdentity} {m : EmergentMessage}
    (h : EnginePolicy.PublishPermitted policy (identity.getD (.unmanaged none 0))
      m.messageType.value m.source.value) :
    config.MayPublish policy.unmanagedNames identity m := by
  obtain ⟨hallows, hsource⟩ := h
  refine ⟨?_, fun name hname => hsource name (by rw [hname]; rfl)⟩
  rcases hallows with hproto | ⟨name, declarations, hname, hget, _, hpermits⟩
  · exact Or.inl (by simpa [isProtocolTopic] using hproto)
  · rw [htable] at hget
    obtain ⟨topics, htopics, hdeclares⟩ := declarationTable_publishes hget
    have hp : (TopicSet.new topics).permits m.messageType.value = true := by
      rw [← htopics]
      exact hpermits
    obtain ⟨declared, hd, hkind, hmatch⟩ := TopicSet.permits_self hp
    exact Or.inr ⟨name, declared, hname, hdeclares declared hd, hkind, hmatch⟩

end EmergentConfig

def BrokerMessage.inner : BrokerMessage → EmergentMessage
  | .emergent m _ => m
  | .systemEvent m => m

namespace BrokerState

/-! ### Connections come from admission -/

def Admitted (actions : List BrokerAction) (s : BrokerState) : Prop :=
  ∀ c ∈ s.connections, .connect c.id c.identity ∈ actions

section
variable {policy : EnginePolicy} {fromStr : String → Option TypeId} {s t : BrokerState}
  {actions : List BrokerAction}

theorem apply_names (c : Connection) (op : EnginePolicy.IpcOperation) :
    (c.apply op).id = c.id ∧ (c.apply op).identity = c.identity := by
  cases op <;> exact ⟨rfl, rfl⟩

theorem operate_connections {c : Connection} (hc : c ∈ s.connections)
    (op : EnginePolicy.IpcOperation) (wire : WireType) (shouldReply : Bool) :
    ∀ d ∈ (s.operate policy fromStr c op wire shouldReply).connections,
      ∃ old ∈ s.connections, d.id = old.id ∧ d.identity = old.identity := by
  have hmap : ∀ d ∈ s.connections.map fun other => if other.id = c.id then c.apply op else other,
      ∃ old ∈ s.connections, d.id = old.id ∧ d.identity = old.identity := by
    intro d hd
    obtain ⟨old, hold, rfl⟩ := List.mem_map.mp hd
    by_cases hid : old.id = c.id
    · rw [if_pos hid]
      exact ⟨c, hc, apply_names c op⟩
    · rw [if_neg hid]
      exact ⟨old, hold, rfl, rfl⟩
  simp only [operate]
  split
  · unfold applyOperation
    split
    · split <;> exact fun d hd => ⟨d, hd, rfl, rfl⟩
    · exact hmap
  · exact fun d hd => ⟨d, hd, rfl, rfl⟩

theorem perform_connections (policy : EnginePolicy) (faults : StoreFaults) (s : BrokerState)
    (op : BrokerOp) : (s.perform policy faults op).connections = s.connections := by
  cases op with
  | write m => rfl
  | release way m => cases way <;> rfl

theorem Admitted.mono {a : BrokerAction} (h : s.Admitted actions)
    (hconnections : ∀ d ∈ t.connections,
      ∃ old ∈ s.connections, d.id = old.id ∧ d.identity = old.identity) :
    t.Admitted (actions ++ [a]) := by
  intro d hd
  obtain ⟨old, hold, hid, hidentity⟩ := hconnections d hd
  rw [hid, hidentity]
  exact List.mem_append_left [a] (h old hold)

theorem Admitted.step {a : BrokerAction} (hs : s.Admitted actions)
    (h : s.step policy fromStr a = some t) : t.Admitted (actions ++ [a]) := by
  have hsame : ∀ d ∈ s.connections, ∃ old ∈ s.connections,
      d.id = old.id ∧ d.identity = old.identity := fun d hd => ⟨d, hd, rfl, rfl⟩
  cases a with
  | connect id identity =>
    simp only [BrokerState.step] at h
    split_ifs at h
    cases h
    intro c hc
    rcases List.mem_append.mp hc with hold | hnew
    · exact List.mem_append_left _ (hs c hold)
    · rw [List.mem_singleton.mp hnew]
      simp
  | close id =>
    cases h
    exact hs.mono fun d hd => hsame d (List.mem_filter.mp hd).1
  | operation id op wire shouldReply =>
    obtain ⟨c, hfind, rfl⟩ := Option.map_eq_some_iff.mp h
    exact hs.mono (operate_connections (List.mem_of_find?_eq_some hfind) op wire shouldReply)
  | broadcast event =>
    cases h
    exact hs.mono hsame
  | takeMessage reading =>
    simp only [BrokerState.step] at h
    split at h
    · cases h
      exact hs.mono hsame
    · cases h
  | takeReport id timestampMs =>
    simp only [BrokerState.step] at h
    split at h
    · cases h
      exact hs.mono hsame
    · cases h
  | handlerStep faults =>
    simp only [BrokerState.step] at h
    split at h
    · cases h
      exact hs.mono (by rw [perform_connections]; exact hsame)
    · cases h
  | reporterStep faults =>
    simp only [BrokerState.step] at h
    split at h
    · cases h
      exact hs.mono (by rw [perform_connections]; exact hsame)
    · cases h

theorem run_admitted {stores : EventStoreWrapper}
    (hrun : run (BrokerState.step policy fromStr) (start stores) actions = some s) :
    s.Admitted actions :=
  run_history (I := fun actions s => s.Admitted actions) (fun _ hc => by cases hc)
    (fun _ _ _ _ hs h => Admitted.step hs h) hrun

end

/-! ### Origins -/

/-- How a message came to be accepted: from a connection, while the connection stood,
or as an event of the engine's own. -/
inductive Sent (config : EmergentConfig) (policy : EnginePolicy)
    (fromStr : String → Option TypeId) (stores : EventStoreWrapper)
    (actions : List BrokerAction) (m : EmergentMessage) : Prop where
  | broadcast (hbroadcast : .broadcast m ∈ actions)
  | published (id : ConnectionId) (identity : Option ConnectionIdentity) (payload : Value)
      (wire : WireType) (shouldReply : Bool) (before after : List BrokerAction)
      (hactions : actions = before ++ .operation id (.request payload) wire shouldReply :: after)
      (hconnect : .connect id identity ∈ before)
      (hdecoded : fromIpcPayload fromStr payload = some m)
      (hmay : EnginePolicy.ByName payload → config.MayPublish policy.unmanagedNames identity m)

/-- The four origins of what the broker releases. -/
inductive Origin (config : EmergentConfig) (policy : EnginePolicy)
    (fromStr : String → Option TypeId) (stores : EventStoreWrapper)
    (actions : List BrokerAction) (m : EmergentMessage) : Prop where
  | sent (hsent : Sent config policy fromStr stores actions m)
  | answered (reading : EngineReading) (job : BrokerMessage)
      (hserved : (reading, job) ∈ served policy fromStr stores actions)
      (hsent : Sent config policy fromStr stores actions job.inner)
      (hanswer : answer reading job.inner = some m)
  | reported (id : MessageId) (timestampMs : UInt64) (report : RejectionReport)
      (hreport : report ∈ reports policy fromStr stores actions)
      (hmessage : .release .forward m ∈ reportRejection id timestampMs report)

theorem inner_wrap (m : EmergentMessage) (shouldReply : Bool) (wire : WireType) :
    (wrap m shouldReply wire).inner = m := by
  cases wire <;> rfl

theorem release_mem_forwarding {stored forwarded m : EmergentMessage} {way : Release}
    (h : .release way m ∈ ([.write stored, .release .forward forwarded] : List BrokerOp)) :
    m = forwarded := by
  simp only [List.mem_cons, List.not_mem_nil, or_false, reduceCtorEq, false_or] at h
  exact (Op.release.inj h).2

theorem release_mem_ackPublish {inner m : EmergentMessage} {shouldReply : Bool} {way : Release}
    (h : .release way m ∈ ackPublish inner shouldReply) : m = inner := by
  cases shouldReply with
  | false => cases h
  | true => exact (Op.release.inj (List.mem_singleton.mp h)).2

theorem release_mem_handle {reading : EngineReading} {job : BrokerMessage} {way : Release}
    {m : EmergentMessage} (h : .release way m ∈ handle reading job) :
    m = job.inner ∨ answer reading job.inner = some m := by
  cases job with
  | systemEvent inner => exact Or.inl (release_mem_forwarding h)
  | emergent inner shouldReply =>
    simp only [handle] at h
    split at h
    · rename_i response hresponse
      rcases List.mem_append.mp h with hfirst | hack
      · right
        rw [release_mem_forwarding hfirst]
        exact hresponse
      · exact Or.inl (release_mem_ackPublish hack)
    · rcases List.mem_append.mp h with hfirst | hack
      · exact Or.inl (release_mem_forwarding hfirst)
      · exact Or.inl (release_mem_ackPublish hack)

section
variable {config : EmergentConfig} {policy : EnginePolicy} {fromStr : String → Option TypeId}
  {stores : EventStoreWrapper} {actions : List BrokerAction} {s : BrokerState}

/-- A request that the policy lets through reads as the broker will read it, as long
as it names its fields. -/
theorem mayPublish_of_allowed (htable : policy.declarations = config.declarationTable)
    (hmode : config.enforceDeclarations = .strict) {identity : Option ConnectionIdentity}
    {payload : Value} {m : EmergentMessage} (hm : fromIpcPayload fromStr payload = some m)
    (hallowed : (policy.authorize identity (.request payload)).allowed = true)
    (hbyName : EnginePolicy.ByName payload) :
    config.MayPublish policy.unmanagedNames identity m := by
  obtain ⟨ht, hs⟩ := EnginePolicy.reads_of_byName hbyName hm
  have hstrict : policy.declarations.mode = .strict := by
    rw [htable]
    exact hmode
  refine EmergentConfig.mayPublish_of_permitted htable
    ((EnginePolicy.judgePublish_allowed hstrict _ _).mp ?_)
  rw [EnginePolicy.authorize, EnginePolicy.authorizeRequest, ht, hs] at hallowed
  exact hallowed

theorem sent_of_admitted (htable : policy.declarations = config.declarationTable)
    (hmode : config.enforceDeclarations = .strict) {before after : List BrokerAction}
    {a : BrokerAction} {t : BrokerState} (hactions : actions = before ++ a :: after)
    (hbefore : run (BrokerState.step policy fromStr) (start stores) before = some t)
    {job : BrokerMessage} (hjob : job ∈ t.admitted policy fromStr a) :
    Sent config policy fromStr stores actions job.inner := by
  cases a with
  | broadcast event =>
    obtain rfl := List.mem_singleton.mp hjob
    exact .broadcast (by rw [hactions]; simp [BrokerMessage.inner])
  | operation id op wire shouldReply =>
    cases op with
    | request payload =>
      simp only [admitted] at hjob
      split at hjob
      · rename_i c hfind
        split_ifs at hjob with hallowed
        · obtain ⟨m, hm, hwrap⟩ := Option.map_eq_some_iff.mp (Option.mem_toList.mp hjob)
          have hc := run_admitted hbefore c (List.mem_of_find?_eq_some hfind)
          have hid : c.id = id := by simpa using List.find?_some hfind
          rw [hid] at hc
          rw [← hwrap, inner_wrap]
          exact .published id c.identity payload wire shouldReply before after hactions hc hm
            (mayPublish_of_allowed htable hmode hm hallowed)
        · cases hjob
      · cases hjob
    | _ => cases hjob
  | _ => cases hjob

theorem takeMessage_of_served
    (hrun : run (BrokerState.step policy fromStr) (start stores) actions = some s)
    {reading : EngineReading} {job : BrokerMessage}
    (h : (reading, job) ∈ served policy fromStr stores actions) :
    .takeMessage reading ∈ actions := by
  obtain ⟨before, a, after, t, hactions, _, htaken⟩ := mem_outputs hrun h
  cases a with
  | takeMessage found =>
    obtain ⟨m, _, hm⟩ := List.mem_map.mp htaken
    rw [hactions, ← (Prod.mk.inj hm).1]
    simp
  | _ => cases htaken

theorem mem_releases {way : Release} {m : EmergentMessage}
    (h : (way, m) ∈ ((log policy fromStr stores actions).map Prod.snd).filterMap releasedOp) :
    ∃ worker, .release way m ∈ opsOf worker (log policy fromStr stores actions) := by
  obtain ⟨op, hop, hreleased⟩ := List.mem_filterMap.mp h
  obtain ⟨⟨worker, op'⟩, hmem, rfl⟩ := List.mem_map.mp hop
  refine ⟨worker, ?_⟩
  have hop' : op' = .release way m := by
    cases op' with
    | write m => cases hreleased
    | release way m =>
      cases hreleased
      rfl
  exact List.mem_map.mpr ⟨(worker, op'), List.mem_filter.mpr ⟨hmem, decide_eq_true rfl⟩, hop'⟩

/-- Whatever a strict engine forwards or acknowledges, in any run, has one of the
four origins. -/
theorem releases_origin (htable : policy.declarations = config.declarationTable)
    (hmode : config.enforceDeclarations = .strict)
    (hrun : run (BrokerState.step policy fromStr) (start stores) actions = some s) :
    ∀ way m, (way, m) ∈ s.releases → Origin config policy fromStr stores actions m := by
  obtain ⟨hbroker, hreporter, hreleases⟩ := run_serves_in_order hrun
  intro way m hm
  rw [hreleases] at hm
  obtain ⟨worker, hop⟩ := mem_releases hm
  cases worker with
  | broker =>
    obtain ⟨⟨reading, job⟩, hserved, hjob, hmem⟩ := hbroker.mem_performed hop
    obtain ⟨before, a, after, t, hactions, hbefore, hadmitted⟩ := mem_outputs hrun hjob
    have hsent : Sent config policy fromStr stores actions job.inner :=
      sent_of_admitted htable hmode hactions hbefore hadmitted
    rcases release_mem_handle hmem with rfl | hanswer
    · exact .sent hsent
    · exact .answered reading job hserved hsent hanswer
  | reporter =>
    obtain ⟨⟨⟨id, timestampMs⟩, report⟩, _, hreport, hmem⟩ := hreporter.mem_performed hop
    have hforward : .release .forward m ∈ reportRejection id timestampMs report := by
      simp only [BrokerState.report, reportRejection] at hmem ⊢
      split at hmem
      · cases hmem
      · simp only [List.mem_cons, List.not_mem_nil, or_false, reduceCtorEq, false_or] at hmem ⊢
        obtain ⟨_, rfl⟩ := Op.release.inj hmem
        rfl
    exact .reported id timestampMs report hreport hforward

theorem forwarded_of_delivered
    (hrun : run (BrokerState.step policy fromStr) (start stores) actions = some s) {d : Delivery}
    (hd : d ∈ s.deliveries) :
    ∃ m, (.forward, m) ∈ s.releases ∧ m.messageType.value = d.messageType := by
  have hcopies : s.OneCopy :=
    run_invariant (fun _ _ _ hs h => OneCopy.step hs h) (oneCopy_start stores) hrun
  have hmem : d.messageType ∈
      (s.deliveries.filter fun e => e.connection = d.connection).map Delivery.messageType :=
    List.mem_map_of_mem (List.mem_filter.mpr ⟨hd, decide_eq_true rfl⟩)
  obtain ⟨m, hm, htype⟩ := List.mem_map.mp ((hcopies.copies d.connection).subset hmem)
  obtain ⟨⟨way, found⟩, hrelease, hforward⟩ := List.mem_filterMap.mp hm
  cases way with
  | ack => cases hforward
  | forward =>
    obtain rfl := Option.some.inj hforward
    exact ⟨found, hrelease, htype⟩

/-- Every delivery in a run of a strict engine is of a message with one of the four
origins, to a connection that may receive its type. -/
theorem run_deliveries_originate (htable : policy.declarations = config.declarationTable)
    (hmode : config.enforceDeclarations = .strict)
    (hrun : run (BrokerState.step policy fromStr) (start stores) actions = some s) :
    ∀ d ∈ s.deliveries, config.MayReceive d.identity d.messageType ∧
      ∃ m, (.forward, m) ∈ s.releases ∧ m.messageType.value = d.messageType ∧
        Origin config policy fromStr stores actions m := by
  have hconfined : s.Confined config :=
    run_invariant (fun _ _ _ hs h => Confined.step hs htable hmode h) (confined_start stores) hrun
  intro d hd
  obtain ⟨m, hm, htype⟩ := forwarded_of_delivered hrun hd
  exact ⟨hconfined.deliveries d hd, m, hm, htype, releases_origin htable hmode hrun .forward m hm⟩

theorem run_deliveries_originate_timer :
    ∃ s, run (BrokerState.step timerConsolePolicy readTypeId) (start bothStores)
        (tickActions (EnginePolicy.namedPayload "timer.tick")) = some s ∧
      s.deliveries = [⟨1, some (.primitive "console"), "timer.tick"⟩] ∧
      ∃ m, (.forward, m) ∈ s.releases ∧ m.messageType.value = "timer.tick" ∧
        Origin timerConsole timerConsolePolicy readTypeId bothStores
          (tickActions (EnginePolicy.namedPayload "timer.tick")) m := by
  have hdel : (run (BrokerState.step timerConsolePolicy readTypeId) (start bothStores)
      (tickActions (EnginePolicy.namedPayload "timer.tick"))).map (fun s => s.deliveries) =
      some [⟨1, some (.primitive "console"), "timer.tick"⟩] := by decide
  obtain ⟨s, hrun, hs⟩ := Option.map_eq_some_iff.mp hdel
  refine ⟨s, hrun, hs, ?_⟩
  exact (run_deliveries_originate rfl rfl hrun ⟨1, some (.primitive "console"), "timer.tick"⟩
    (by rw [hs]; simp)).2

end

end BrokerState

end Emergent.Engine

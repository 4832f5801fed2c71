import Emergent.Engine.BrokerSafety
import Emergent.Kit.Server

/-!
# In which order the broker serves what it accepts

The broker and the reporter task are two servers over one trace. What the broker
releases is what it accepted, in the order of acceptance; a client that waits is
answered once; and a connection gets one copy of a forwarded message however
many of its topics select it.
-/

namespace Emergent.Engine
open Emergent.Sdk Kit Kit.WriteAhead

/-! ### Releases -/

def releasedOp : BrokerOp → Option (Release × EmergentMessage)
  | .release way m => some (way, m)
  | .write _ => none

def releasedEvent : BrokerEvent → Option (Release × EmergentMessage)
  | .released way m => some (way, m)
  | .wrote _ _ => none

def ackOf : Release × EmergentMessage → Option EmergentMessage
  | (.ack, m) => some m
  | (.forward, _) => none

def forwardOf : Release × EmergentMessage → Option EmergentMessage
  | (.forward, m) => some m
  | (.ack, _) => none

/-- The publish of a client that waits for its acknowledgement. -/
def BrokerMessage.awaited : BrokerMessage → Option EmergentMessage
  | .emergent m true => some m
  | .emergent _ false => none
  | .systemEvent _ => none

namespace BrokerState

inductive Worker where
  | broker
  | reporter
  deriving Repr, DecidableEq

def opsOf (worker : Worker) (log : List (Worker × BrokerOp)) : List BrokerOp :=
  (log.filter fun entry => entry.1 = worker).map Prod.snd

def releases (s : BrokerState) : List (Release × EmergentMessage) := s.trace.filterMap releasedEvent

def acks (s : BrokerState) : List EmergentMessage := s.releases.filterMap ackOf

def forwards (s : BrokerState) : List EmergentMessage := s.releases.filterMap forwardOf

def acksOf (ops : List BrokerOp) : List EmergentMessage :=
  (ops.filterMap releasedOp).filterMap ackOf

/-! ### What a step puts out -/

section
variable (policy : EnginePolicy) (fromStr : String → Option TypeId)

/-- What joins the broker's inbox: a request that is let through and decodes, or an
event of a primitive actor. -/
def admitted (s : BrokerState) : BrokerAction → List BrokerMessage
  | .operation id (.request payload) wire shouldReply =>
    match s.connections.find? (·.id = id) with
    | some c =>
      if (policy.authorize c.identity (.request payload)).allowed then
        ((fromIpcPayload fromStr payload).map fun m => wrap m shouldReply wire).toList
      else []
    | none => []
  | .broadcast event => [.systemEvent event]
  | _ => []

/-- What is handed to the reporter. -/
def refused (s : BrokerState) : BrokerAction → List RejectionReport
  | .operation id op _ _ =>
    match s.connections.find? (·.id = id) with
    | some c => (policy.authorize c.identity op).reports
    | none => []
  | _ => []

/-- What the broker takes up, with what it reads for it. -/
def taken (s : BrokerState) : BrokerAction → List (EngineReading × BrokerMessage)
  | .takeMessage reading => s.inbox.head?.toList.map fun m => (reading, m)
  | _ => []

/-- What the reporter takes up, with the id and the time of its message. -/
def reported (s : BrokerState) : BrokerAction → List ((MessageId × UInt64) × RejectionReport)
  | .takeReport id timestampMs =>
    s.rejections.head?.toList.map fun report => ((id, timestampMs), report)
  | _ => []

def performed (s : BrokerState) : BrokerAction → List (Worker × BrokerOp)
  | .handlerStep _ => s.handler.head?.toList.map fun op => (.broker, op)
  | .reporterStep _ => s.reporter.head?.toList.map fun op => (.reporter, op)
  | _ => []

end

def report (reading : MessageId × UInt64) (report : RejectionReport) : List BrokerOp :=
  reportRejection reading.1 reading.2 report

section
variable {policy : EnginePolicy} {fromStr : String → Option TypeId} {s t : BrokerState}

theorem opsOf_append (worker : Worker) (log more : List (Worker × BrokerOp)) :
    opsOf worker (log ++ more) = opsOf worker log ++ opsOf worker more := by
  simp [opsOf]

theorem perform_queues (policy : EnginePolicy) (faults : StoreFaults) (s : BrokerState)
    (op : BrokerOp) :
    (s.perform policy faults op).inbox = s.inbox ∧
      (s.perform policy faults op).rejections = s.rejections := by
  cases op with
  | write m => exact ⟨rfl, rfl⟩
  | release way m => cases way <;> exact ⟨rfl, rfl⟩

theorem perform_releases (policy : EnginePolicy) (faults : StoreFaults) (s : BrokerState)
    (op : BrokerOp) :
    (s.perform policy faults op).releases = s.releases ++ (releasedOp op).toList := by
  cases op with
  | write m =>
    have hwrote : ((s.stores.store faults m).taken.map (Event.wrote · m)).filterMap
        releasedEvent = ([] : List (Release × EmergentMessage)) := by
      rw [List.filterMap_map]
      exact List.filterMap_eq_nil_iff.mpr fun _ _ => rfl
    simp only [releases, perform, List.filterMap_append, hwrote]
    rfl
  | release way m =>
    cases way <;> simp only [releases, perform, List.filterMap_append] <;> rfl

theorem operate_queues (policy : EnginePolicy) (fromStr : String → Option TypeId)
    (s : BrokerState) (c : Connection) (op : EnginePolicy.IpcOperation) (wire : WireType)
    (shouldReply : Bool) :
    (s.operate policy fromStr c op wire shouldReply).rejections =
        s.rejections ++ (policy.authorize c.identity op).reports ∧
      (s.operate policy fromStr c op wire shouldReply).inbox = s.inbox ++
        match op with
        | .request payload =>
          if (policy.authorize c.identity (.request payload)).allowed then
            ((fromIpcPayload fromStr payload).map fun m => wrap m shouldReply wire).toList
          else []
        | _ => [] := by
  cases hallowed : (policy.authorize c.identity op).allowed with
  | false => cases op <;> simp [operate, hallowed]
  | true =>
    cases op with
    | request payload =>
      cases hdecoded : fromIpcPayload fromStr payload <;>
        simp [operate, applyOperation, hallowed, hdecoded]
    | _ => simp [operate, applyOperation, hallowed]

/-- One step, for both servers and for the trace. -/
structure Serves (policy : EnginePolicy) (fromStr : String → Option TypeId) (s t : BrokerState)
    (a : BrokerAction) : Prop where
  broker : Served handle s.inbox t.inbox s.handler t.handler (s.admitted policy fromStr a)
    (s.taken a) (opsOf .broker (s.performed a))
  reporter : Served report s.rejections t.rejections s.reporter t.reporter (s.refused policy a)
    (s.reported a) (opsOf .reporter (s.performed a))
  releases : t.releases = s.releases ++ ((s.performed a).map Prod.snd).filterMap releasedOp

theorem serves_aside {a : BrokerAction} (hinbox : t.inbox = s.inbox ++ s.admitted policy fromStr a)
    (hrejections : t.rejections = s.rejections ++ s.refused policy a)
    (hhandler : t.handler = s.handler) (hreporter : t.reporter = s.reporter)
    (htrace : t.trace = s.trace) (htaken : s.taken a = []) (hreported : s.reported a = [])
    (hperformed : s.performed a = []) : Serves policy fromStr s t a where
  broker := .arrive hinbox hhandler htaken (by rw [hperformed]; rfl)
  reporter := .arrive hrejections hreporter hreported (by rw [hperformed]; rfl)
  releases := by simp [BrokerState.releases, htrace, hperformed]

theorem step_serves {a : BrokerAction} (h : s.step policy fromStr a = some t) :
    Serves policy fromStr s t a := by
  cases a with
  | connect id identity =>
    simp only [BrokerState.step] at h
    split_ifs at h
    cases h
    exact serves_aside (by simp [admitted]) (by simp [refused]) rfl rfl rfl rfl rfl rfl
  | close id =>
    cases h
    exact serves_aside (by simp [admitted]) (by simp [refused]) rfl rfl rfl rfl rfl rfl
  | operation id op wire shouldReply =>
    obtain ⟨c, hfind, rfl⟩ := Option.map_eq_some_iff.mp h
    obtain ⟨_, htrace, hhandler, hreporter⟩ :=
      operate_persistence policy s fromStr c op wire shouldReply
    obtain ⟨hrejections, hinbox⟩ := operate_queues policy fromStr s c op wire shouldReply
    refine serves_aside ?_ ?_ hhandler hreporter htrace rfl rfl rfl
    · rw [hinbox]
      cases op <;> simp [admitted, hfind]
    · rw [hrejections]
      simp [refused, hfind]
  | broadcast event =>
    cases h
    exact serves_aside rfl (by simp [refused]) rfl rfl rfl rfl rfl rfl
  | takeMessage reading =>
    simp only [BrokerState.step] at h
    split at h
    · rename_i m inbox hidle hinbox
      cases h
      exact ⟨.take reading m hidle hinbox rfl rfl (by simp [taken, hinbox]) rfl,
        .arrive (by simp [refused]) rfl rfl rfl,
        by simp [BrokerState.releases, performed]⟩
    · cases h
  | takeReport id timestampMs =>
    simp only [BrokerState.step] at h
    split at h
    · rename_i rejection rejections hidle hrejections
      cases h
      exact ⟨.arrive (by simp [admitted]) rfl rfl rfl,
        .take (id, timestampMs) rejection hidle hrejections rfl rfl
          (by simp [reported, hrejections]) rfl,
        by simp [BrokerState.releases, performed]⟩
    · cases h
  | handlerStep faults =>
    simp only [BrokerState.step] at h
    split at h
    · rename_i op ops hops
      cases h
      obtain ⟨hinbox, hrejections⟩ := perform_queues policy faults { s with handler := ops } op
      obtain ⟨hhandler, hreporter⟩ := perform_programs policy { s with handler := ops } faults op
      have hperformed : s.performed (.handlerStep faults) = [(.broker, op)] := by
        simp [performed, hops]
      refine ⟨.perform op (by rw [hops, hhandler]) hinbox rfl rfl (by rw [hperformed]; rfl),
        .arrive (by simp [refused, hrejections]) hreporter rfl (by rw [hperformed]; rfl), ?_⟩
      rw [perform_releases, hperformed]
      cases op <;> rfl
    · cases h
  | reporterStep faults =>
    simp only [BrokerState.step] at h
    split at h
    · rename_i op ops hops
      cases h
      obtain ⟨hinbox, hrejections⟩ := perform_queues policy faults { s with reporter := ops } op
      obtain ⟨hhandler, hreporter⟩ := perform_programs policy { s with reporter := ops } faults op
      have hperformed : s.performed (.reporterStep faults) = [(.reporter, op)] := by
        simp [performed, hops]
      refine ⟨.arrive (by simp [admitted, hinbox]) hhandler rfl (by rw [hperformed]; rfl),
        .perform op (by rw [hops, hreporter]) hrejections rfl rfl (by rw [hperformed]; rfl), ?_⟩
      rw [perform_releases, hperformed]
      cases op <;> rfl
    · cases h

end

/-! ### Runs -/

section
variable (policy : EnginePolicy) (fromStr : String → Option TypeId) (stores : EventStoreWrapper)
  (actions : List BrokerAction)

/-- Everything the broker accepted in a run, in order. -/
def accepted : List BrokerMessage :=
  outputs (BrokerState.step policy fromStr) (admitted policy fromStr) (start stores) actions

def reports : List RejectionReport :=
  outputs (BrokerState.step policy fromStr) (refused policy) (start stores) actions

/-- What the broker took up in a run. -/
def served : List (EngineReading × BrokerMessage) :=
  outputs (BrokerState.step policy fromStr) taken (start stores) actions

def told : List ((MessageId × UInt64) × RejectionReport) :=
  outputs (BrokerState.step policy fromStr) reported (start stores) actions

def log : List (Worker × BrokerOp) :=
  outputs (BrokerState.step policy fromStr) performed (start stores) actions

end

section
variable {policy : EnginePolicy} {fromStr : String → Option TypeId} {stores : EventStoreWrapper}
  {actions : List BrokerAction} {s t : BrokerState}

/-- What the broker accepted it takes up in the order of acceptance, one message
after the other, each handled to its end, and the reporter does so with the
reports; what has left the engine is what the two have performed so far. -/
theorem run_serves_in_order
    (hrun : run (BrokerState.step policy fromStr) (start stores) actions = some s) :
    InOrder handle (served policy fromStr stores actions) (accepted policy fromStr stores actions)
        s.inbox (opsOf .broker (log policy fromStr stores actions)) s.handler ∧
      InOrder report (told policy fromStr stores actions) (reports policy fromStr stores actions)
        s.rejections (opsOf .reporter (log policy fromStr stores actions)) s.reporter ∧
      s.releases = ((log policy fromStr stores actions).map Prod.snd).filterMap releasedOp := by
  refine run_reached (I := fun as s =>
    InOrder handle (served policy fromStr stores as) (accepted policy fromStr stores as)
        s.inbox (opsOf .broker (log policy fromStr stores as)) s.handler ∧
      InOrder report (told policy fromStr stores as) (reports policy fromStr stores as)
        s.rejections (opsOf .reporter (log policy fromStr stores as)) s.reporter ∧
      s.releases = ((log policy fromStr stores as).map Prod.snd).filterMap releasedOp)
    ⟨inOrder_start, inOrder_start, rfl⟩ ?_ hrun
  intro as t a u hreached ⟨hbroker, hreporter, hreleases⟩ hu
  have hserves := step_serves hu
  simp only [accepted, reports, served, told, log, outputs_snoc hreached, opsOf_append,
    List.map_append, List.filterMap_append] at hbroker hreporter hreleases ⊢
  exact ⟨hbroker.serve hserves.broker, hreporter.serve hserves.reporter,
    by rw [hserves.releases, hreleases]⟩

/-! ### Acknowledgements -/

theorem acksOf_append (ops more : List BrokerOp) :
    acksOf (ops ++ more) = acksOf ops ++ acksOf more := by
  simp [acksOf]

theorem acksOf_ackPublish (m : EmergentMessage) (shouldReply : Bool) :
    acksOf (ackPublish m shouldReply) = (BrokerMessage.emergent m shouldReply).awaited.toList := by
  cases shouldReply <;> rfl

/-- Whichever way a message is served, its own acknowledgement is the only one. -/
theorem acksOf_handle (reading : EngineReading) (m : BrokerMessage) :
    acksOf (handle reading m) = m.awaited.toList := by
  cases m with
  | systemEvent m => rfl
  | emergent m shouldReply =>
    rw [← acksOf_ackPublish]
    simp only [handle]
    split <;> rw [acksOf_append] <;> rfl

theorem acksOf_report (reading : MessageId × UInt64) (rejection : RejectionReport) :
    acksOf (report reading rejection) = [] := by
  unfold report reportRejection
  split <;> rfl

theorem acksOf_reports (reported : List ((MessageId × UInt64) × RejectionReport)) :
    acksOf (reported.flatMap fun e => report e.1 e.2) = [] := by
  induction reported with
  | nil => rfl
  | cons e reported ih => rw [List.flatMap_cons, acksOf_append, acksOf_report, ih, List.append_nil]

theorem acksOf_flatMap (taken : List (EngineReading × BrokerMessage)) :
    acksOf (taken.flatMap fun e => handle e.1 e.2) =
      (taken.map Prod.snd).filterMap BrokerMessage.awaited := by
  induction taken with
  | nil => rfl
  | cons e taken ih =>
    rw [List.flatMap_cons, acksOf_append, acksOf_handle, ih, List.map_cons]
    cases hawaited : e.2.awaited <;> simp [hawaited]

/-- The reporter acknowledges nothing, so the acknowledgements of the log are the
broker's. -/
theorem acksOf_log {log : List (Worker × BrokerOp)} (h : acksOf (opsOf .reporter log) = []) :
    acksOf (log.map Prod.snd) = acksOf (opsOf .broker log) := by
  induction log with
  | nil => rfl
  | cons entry log ih =>
    obtain ⟨worker, op⟩ := entry
    have hcons : ∀ ops, acksOf (op :: ops) = acksOf [op] ++ acksOf ops := fun ops =>
      acksOf_append [op] ops
    rw [List.map_cons, hcons]
    cases worker with
    | broker =>
      have hbroker : opsOf .broker ((Worker.broker, op) :: log) = op :: opsOf .broker log := rfl
      rw [hbroker, ih h, hcons (opsOf .broker log)]
    | reporter =>
      have hreporter : opsOf .reporter ((Worker.reporter, op) :: log) =
        op :: opsOf .reporter log := rfl
      have hbroker : opsOf .broker ((Worker.reporter, op) :: log) = opsOf .broker log := rfl
      rw [hreporter, hcons] at h
      obtain ⟨hop, hrest⟩ := List.append_eq_nil_iff.mp h
      rw [hbroker, hop, List.nil_append, ih hrest]

/-- Of the publishes whose client waits each is acknowledged once, in the order of
acceptance: those acknowledged, those the broker has in hand and those in its
inbox are all of them. -/
theorem run_acks_in_order
    (hrun : run (BrokerState.step policy fromStr) (start stores) actions = some s) :
    (accepted policy fromStr stores actions).filterMap BrokerMessage.awaited =
      s.acks ++ acksOf s.handler ++ s.inbox.filterMap BrokerMessage.awaited := by
  obtain ⟨⟨haccepted, hprograms⟩, ⟨_, hreports⟩, hreleases⟩ :=
    run_serves_in_order hrun
  have hnone : acksOf (opsOf .reporter (log policy fromStr stores actions)) = [] := by
    have hall := acksOf_reports (told policy fromStr stores actions)
    rw [hreports, acksOf_append] at hall
    exact (List.append_eq_nil_iff.mp hall).1
  have hacks : s.acks = acksOf (opsOf .broker (log policy fromStr stores actions)) := by
    rw [← acksOf_log hnone, acks, hreleases]
    rfl
  rw [haccepted, List.filterMap_append, ← acksOf_flatMap, hprograms, acksOf_append, hacks]

/-! A console whose topics select a tick twice over, and a timer that waits for the
acknowledgement of each of its two ticks. -/

def twoTicks : List BrokerAction :=
  [.connect 1 (some (.primitive "console")), .connect 2 (some (.primitive "timer")),
    .operation 1 (.subscribePatterns ["timer.*"]) .emergentMessage false,
    .operation 1 (.subscribe ["timer.tick"]) .emergentMessage false,
    .operation 2 (.request (EnginePolicy.namedPayload "timer.tick")) .emergentMessage true,
    .operation 2 (.request (EnginePolicy.namedPayload "timer.tick")) .emergentMessage true,
    .takeMessage noReading, .handlerStep noFaults, .handlerStep noFaults, .handlerStep noFaults,
    .takeMessage noReading, .handlerStep noFaults, .handlerStep noFaults]

theorem run_acks_in_order_timer :
    ∃ s, run (BrokerState.step timerConsolePolicy readTypeId) (start bothStores) twoTicks =
        some s ∧
      s.acks.map (fun m => m.messageType.value) = ["timer.tick"] ∧
      (acksOf s.handler).map (fun m => m.messageType.value) = ["timer.tick"] ∧
      (accepted timerConsolePolicy readTypeId bothStores twoTicks).filterMap
          BrokerMessage.awaited =
        s.acks ++ acksOf s.handler ++ s.inbox.filterMap BrokerMessage.awaited := by
  have hacks : (run (BrokerState.step timerConsolePolicy readTypeId) (start bothStores)
      twoTicks).map (fun s => (s.acks.map fun m => m.messageType.value,
        (acksOf s.handler).map fun m => m.messageType.value)) =
      some (["timer.tick"], ["timer.tick"]) := by decide
  obtain ⟨s, hrun, hs⟩ := Option.map_eq_some_iff.mp hacks
  obtain ⟨hdone, hleft⟩ := Prod.mk.inj hs
  exact ⟨s, hrun, hdone, hleft, run_acks_in_order hrun⟩

/-! ### Copies -/

theorem forwards_of_releases {more : List (Release × EmergentMessage)}
    (h : t.releases = s.releases ++ more) :
    t.forwards = s.forwards ++ more.filterMap forwardOf := by
  rw [forwards, h, List.filterMap_append]
  rfl

/-- Connections are told apart by their ids, and each has been sent, in order, some
of the forwarded messages. -/
structure OneCopy (s : BrokerState) : Prop where
  apart : (s.connections.map Connection.id).Nodup
  copies : ∀ id, ((s.deliveries.filter fun d => d.connection = id).map Delivery.messageType).Sublist
    (s.forwards.map fun m => m.messageType.value)

theorem oneCopy_start (stores : EventStoreWrapper) : (start stores).OneCopy :=
  ⟨List.nodup_nil, fun _ => List.Sublist.slnil⟩

theorem notified_copy (h : (s.connections.map Connection.id).Nodup) (policy : EnginePolicy)
    (messageType : String) (id : ConnectionId) :
    (((s.notified policy messageType).filter fun d => d.connection = id).map
      Delivery.messageType).Sublist [messageType] := by
  have hall : ∀ t ∈ ((s.notified policy messageType).filter fun d => d.connection = id).map
      Delivery.messageType, t = messageType := by
    intro t ht
    obtain ⟨d, hd, rfl⟩ := List.mem_map.mp ht
    obtain ⟨c, _, rfl⟩ := List.mem_map.mp (List.mem_filter.mp hd).1
    rfl
  have hids : (((s.notified policy messageType).filter fun d => d.connection = id).map
      Delivery.connection).Sublist (s.connections.map Connection.id) := by
    refine (List.filter_sublist.map _).trans ?_
    rw [notified, List.map_map]
    exact List.filter_sublist.map _
  have hone : ((s.notified policy messageType).filter fun d => d.connection = id).length ≤ 1 := by
    have hsame : ∀ i ∈ ((s.notified policy messageType).filter fun d => d.connection = id).map
        Delivery.connection, i = id := by
      intro i hi
      obtain ⟨d, hd, rfl⟩ := List.mem_map.mp hi
      exact of_decide_eq_true (List.mem_filter.mp hd).2
    have hnodup := h.sublist hids
    rw [List.eq_replicate_of_mem hsame, List.nodup_replicate, List.length_map] at hnodup
    exact hnodup
  rw [List.eq_replicate_of_mem hall, List.length_map]
  exact (List.replicate_sublist_replicate messageType).mpr hone

theorem OneCopy.perform (hs : s.OneCopy) (policy : EnginePolicy) (faults : StoreFaults)
    (op : BrokerOp) : (s.perform policy faults op).OneCopy := by
  have hforwards := forwards_of_releases (perform_releases policy faults s op)
  cases op with
  | write m =>
    refine ⟨hs.apart, fun id => ?_⟩
    rw [hforwards, List.map_append]
    exact (hs.copies id).trans (List.sublist_append_left _ _)
  | release way m =>
    cases way with
    | ack =>
      refine ⟨hs.apart, fun id => ?_⟩
      rw [hforwards, List.map_append]
      exact (hs.copies id).trans (List.sublist_append_left _ _)
    | forward =>
      refine ⟨hs.apart, fun id => ?_⟩
      rw [hforwards, List.map_append]
      have hdeliveries : (s.perform policy faults (.release .forward m)).deliveries =
        s.deliveries ++ s.notified policy m.messageType.value := rfl
      rw [hdeliveries, List.filter_append, List.map_append]
      exact (hs.copies id).append (notified_copy hs.apart policy m.messageType.value id)

theorem OneCopy.congr (hs : s.OneCopy) (hids : (t.connections.map Connection.id).Nodup)
    (htrace : t.trace = s.trace) (hdeliveries : t.deliveries = s.deliveries) : t.OneCopy := by
  refine ⟨hids, fun id => ?_⟩
  have hforwards : t.forwards = s.forwards := by rw [forwards, releases, htrace]; rfl
  rw [hdeliveries, hforwards]
  exact hs.copies id

theorem operate_ids (policy : EnginePolicy) (fromStr : String → Option TypeId) (s : BrokerState)
    (c : Connection) (op : EnginePolicy.IpcOperation) (wire : WireType) (shouldReply : Bool) :
    (s.operate policy fromStr c op wire shouldReply).connections.map Connection.id =
        s.connections.map Connection.id ∧
      (s.operate policy fromStr c op wire shouldReply).deliveries = s.deliveries := by
  have hmap : (s.connections.map fun other => if other.id = c.id then c.apply op else other).map
      Connection.id = s.connections.map Connection.id := by
    rw [List.map_map]
    refine List.map_congr_left fun other _ => ?_
    by_cases hid : other.id = c.id
    · cases op <;> simp [Connection.apply, hid]
    · simp [hid]
  simp only [operate]
  split
  · unfold applyOperation
    split
    · split <;> exact ⟨rfl, rfl⟩
    · exact ⟨hmap, rfl⟩
  · exact ⟨rfl, rfl⟩

theorem OneCopy.step (hs : s.OneCopy) {a : BrokerAction} (h : s.step policy fromStr a = some t) :
    t.OneCopy := by
  cases a with
  | connect id identity =>
    simp only [BrokerState.step] at h
    split_ifs at h with hknown
    cases h
    refine hs.congr ?_ rfl rfl
    have hfresh : id ∉ s.connections.map Connection.id := by
      intro hmem
      obtain ⟨c, hc, rfl⟩ := List.mem_map.mp hmem
      exact hknown (List.any_eq_true.mpr ⟨c, hc, decide_eq_true rfl⟩)
    rw [List.map_append]
    exact List.nodup_append'.mpr ⟨hs.apart, List.nodup_singleton id,
      List.disjoint_singleton.mpr hfresh⟩
  | close id =>
    cases h
    exact hs.congr (hs.apart.sublist (List.filter_sublist.map _)) rfl rfl
  | operation id op wire shouldReply =>
    obtain ⟨c, _, rfl⟩ := Option.map_eq_some_iff.mp h
    obtain ⟨hids, hdeliveries⟩ := operate_ids policy fromStr s c op wire shouldReply
    obtain ⟨_, htrace, _, _⟩ := operate_persistence policy s fromStr c op wire shouldReply
    exact hs.congr (by rw [hids]; exact hs.apart) htrace hdeliveries
  | broadcast event =>
    cases h
    exact hs.congr hs.apart rfl rfl
  | takeMessage reading =>
    simp only [BrokerState.step] at h
    split at h
    · cases h
      exact hs.congr hs.apart rfl rfl
    · cases h
  | takeReport id timestampMs =>
    simp only [BrokerState.step] at h
    split at h
    · cases h
      exact hs.congr hs.apart rfl rfl
    · cases h
  | handlerStep faults =>
    simp only [BrokerState.step] at h
    split at h
    · rename_i op ops _
      cases h
      exact OneCopy.perform (s := { s with handler := ops }) (hs.congr hs.apart rfl rfl) policy
        faults op
    · cases h
  | reporterStep faults =>
    simp only [BrokerState.step] at h
    split at h
    · rename_i op ops _
      cases h
      exact OneCopy.perform (s := { s with reporter := ops }) (hs.congr hs.apart rfl rfl) policy
        faults op
    · cases h

end

end BrokerState

end Emergent.Engine

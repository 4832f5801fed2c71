import Emergent.Sdk.PushAgreement

/-!
# The answers to a client's queries

`getMySubscriptions` and `getTopology` publish a request and wait for the response
that carries their correlation id. The Rust SDK asks on a connection of its own
and reads its pushes until one answers (`get_my_subscriptions_via_pubsub` and
`get_topology_via_pubsub` of `sdks/rust/src/connection.rs`). The others enter the
call in a table, from which the handler of the pushes settles it.

The four give the call the payload of the first response under its id. The time
after which each of them gives the call up is not modelled: a call that has had no
response is one that still waits.
-/

namespace Emergent.Sdk

inductive Query where
  | subscriptions
  | topology
  deriving Repr, DecidableEq

def Query.requestType : Query → String
  | .subscriptions => "system.request.subscriptions"
  | .topology => "system.request.topology"

def Query.responseType : Query → String
  | .subscriptions => "system.response.subscriptions"
  | .topology => "system.response.topology"

/-! ### Reading a response -/

/-- `Vec<String>` of serde. -/
def decodeStrings : Value → Option (List String)
  | .array items => items.mapM Value.asStr
  | _ => none

/-- The derived deserializer of `SubscriptionsResponse`. -/
def Rust.subscriptionsResponse : Value → Option (List String)
  | .object fields => ((Value.object fields).get "subscribes").bind decodeStrings
  | .array [subscribes] => decodeStrings subscribes
  | _ => none

/-- The strings among the items of a list; `wireStrings` of `go/client.go`. -/
def stringItems : Option Value → List String
  | some (.array items) => items.filterMap Value.asStr
  | _ => []

/-- `subscribesFromPayload` in TypeScript, Go and Python. -/
def subscribesFromPayload (payload : Value) : List String := stringItems (payload.get "subscribes")

/-! ### Waiting for the response -/

inductive Awaited (α : Type) where
  | waiting
  | malformed
  | answered (answer : α)
  deriving Repr, DecidableEq

def correlationText (m : EmergentMessage) : Option String :=
  m.correlationId.map fun id => id.id.toStr

/-- The loop over the pushes; a response that does not decode ends it. -/
def Rust.awaitResponse {α : Type} (fromStr : String → Option TypeId) (query : Query)
    (decode : Value → Option α) (correlationId : String) : List IpcPushNotification → Awaited α
  | [] => .waiting
  | n :: pushes =>
    if n.messageType = query.responseType then
      match EmergentMessage.fromValue fromStr n.payload with
      | none => .malformed
      | some m =>
        if correlationText m = some correlationId then
          match decode m.payload with
          | none => .malformed
          | some answer => .answered answer
        else Rust.awaitResponse fromStr query decode correlationId pushes
    else Rust.awaitResponse fromStr query decode correlationId pushes

def Awaited.ofAnswer {α : Type} (decode : Value → Option α) : Option Value → Awaited α
  | none => .waiting
  | some payload =>
    match decode payload with
    | none => .malformed
    | some answer => .answered answer

/-! ### The first response under an id -/

def EmergentMessage.answers (m : EmergentMessage) (query : Query) (correlationId : String) : Bool :=
  m.messageType.value == query.responseType && correlationText m == some correlationId

/-- What a push gives to the call. -/
def Push.answer (query : Query) (correlationId : String) (p : Push) : Option Value :=
  match p.content with
  | .message m => if m.answers query correlationId then some m.payload else none
  | .broadcast .. => none

def firstAnswer (query : Query) (correlationId : String) (pushes : List Push) : Option Value :=
  pushes.findSome? (Push.answer query correlationId)

theorem answers_iff {m : EmergentMessage} {query : Query} {correlationId : String} :
    m.answers query correlationId = true ↔
      m.messageType.value = query.responseType ∧ correlationText m = some correlationId := by
  rw [EmergentMessage.answers, Bool.and_eq_true, beq_iff_eq, beq_iff_eq]

theorem Push.answer_message {p : Push} {m : EmergentMessage} (hp : p.content = .message m)
    (query : Query) (correlationId : String) :
    p.answer query correlationId =
      if m.answers query correlationId then some m.payload else none := by
  rw [Push.answer, hp]

theorem responseType_valid (query : Query) : ValidMessageType query.responseType := by
  cases query <;> decide

theorem Push.answer_foreign {p : Push} {query : Query}
    (h : ¬ ValidMessageType p.content.notification.messageType) (correlationId : String) :
    p.answer query correlationId = none := by
  unfold Push.answer
  split
  · rename_i m hm
    rw [hm] at h
    exact absurd m.messageType.valid h
  · rfl

/-! ### Rust -/

/-- Every message among the pushes has identifiers that are read back. -/
def PushedIdsRead (fromStr : String → Option TypeId) (pushes : List Push) : Prop :=
  ∀ p ∈ pushes, ∀ m, p.content = .message m → IdsRead fromStr m

theorem Rust.awaitResponse_eq {α : Type} {fromStr : String → Option TypeId}
    (query : Query) (decode : Value → Option α) (correlationId : String) {pushes : List Push}
    (h : PushedIdsRead fromStr pushes) :
    Rust.awaitResponse fromStr query decode correlationId
        (pushes.map fun p => p.content.notification) =
      .ofAnswer decode (firstAnswer query correlationId pushes) := by
  induction pushes with
  | nil => rfl
  | cons p pushes ih =>
    have hrest := ih fun q hq => h q (List.mem_cons_of_mem p hq)
    rw [List.map_cons, firstAnswer, List.findSome?_cons, ← firstAnswer, Rust.awaitResponse]
    cases hp : p.content with
    | broadcast typeName sourceActor payload foreign line =>
      have hne : typeName ≠ query.responseType := by
        intro heq
        exact foreign (heq ▸ responseType_valid query)
      have hnone : p.answer query correlationId = none := by rw [Push.answer, hp]
      have htype : (PushContent.broadcast typeName sourceActor payload foreign
        line).notification.messageType = typeName := rfl
      rw [htype, if_neg hne, hnone]
      exact hrest
    | message m =>
      have hids := h p List.mem_cons_self m hp
      have htype : (PushContent.message m).notification.messageType = m.messageType.value := rfl
      have hpayload : (PushContent.message m).notification.payload = m.toValue := rfl
      rw [Push.answer_message hp, htype, hpayload, fromValue_toValue hids]
      have hcorrelation : correlationText { m with metadata := m.metadata.filter notNull } =
        correlationText m := rfl
      by_cases hresponse : m.messageType.value = query.responseType
      · rw [if_pos hresponse]
        dsimp only
        rw [hcorrelation]
        by_cases hid : correlationText m = some correlationId
        · rw [if_pos hid, if_pos (answers_iff.mpr ⟨hresponse, hid⟩)]
          rfl
        · rw [if_neg hid, if_neg (mt answers_iff.mp fun hboth => hid hboth.2)]
          exact hrest
      · rw [if_neg hresponse, if_neg (mt answers_iff.mp fun hboth => hresponse hboth.1)]
        exact hrest

/-! ### The tables -/

namespace PushClient

def requests (c : PushClient) : Query → List String
  | .subscriptions => c.subscriptionsRequests
  | .topology => c.topologyRequests

def settle (c : PushClient) : Query → Option String → Value → PushClient
  | .subscriptions => c.settleSubscriptions
  | .topology => c.settleTopology

/-- Where a call stands that waits under this id: in its own table and in no other,
or settled once and in none. -/
def Call (c : PushClient) (query : Query) (correlationId : String) : Option Value → Prop
  | none => (c.requests query).count correlationId = 1 ∧
      (∀ other, other ≠ query → correlationId ∉ c.requests other) ∧
      c.settled.filter (fun entry => entry.1 = correlationId) = []
  | some answer => (∀ other, correlationId ∉ c.requests other) ∧
      c.settled.filter (fun entry => entry.1 = correlationId) = [(correlationId, answer)]

/-- The parts of a client that its calls are kept in. -/
structure SameTables (c d : PushClient) : Prop where
  requests : ∀ query, c.requests query = d.requests query
  settled : c.settled = d.settled

theorem SameTables.refl (c : PushClient) : SameTables c c := ⟨fun _ => rfl, rfl⟩

theorem SameTables.call {c d : PushClient} (h : SameTables c d) {query : Query}
    {correlationId : String} {answer : Option Value} (hd : d.Call query correlationId answer) :
    c.Call query correlationId answer := by
  cases answer with
  | none =>
    obtain ⟨hcount, hothers, hsettled⟩ := hd
    refine ⟨by rw [h.requests]; exact hcount, fun other hother => ?_,
      by rw [h.settled]; exact hsettled⟩
    rw [h.requests]
    exact hothers other hother
  | some answer =>
    obtain ⟨hnone, hsettled⟩ := hd
    refine ⟨fun other => ?_, by rw [h.settled]; exact hsettled⟩
    rw [h.requests]
    exact hnone other

theorem settle_absent {c : PushClient} {query : Query} {id : String}
    (h : id ∉ c.requests query) (payload : Value) : c.settle query (some id) payload = c := by
  cases query with
  | subscriptions =>
    have hid : id ∉ c.subscriptionsRequests := h
    simp only [settle, settleSubscriptions, if_neg hid]
  | topology =>
    have hid : id ∉ c.topologyRequests := h
    simp only [settle, settleTopology, if_neg hid]

theorem settle_present {c : PushClient} {query : Query} {id : String}
    (h : id ∈ c.requests query) (payload : Value) :
    (c.settle query (some id) payload).settled = c.settled ++ [(id, payload)] ∧
      ∀ other, (c.settle query (some id) payload).requests other =
        if other = query then (c.requests query).erase id else c.requests other := by
  cases query with
  | subscriptions =>
    have hid : id ∈ c.subscriptionsRequests := h
    simp only [settle, settleSubscriptions, if_pos hid]
    refine ⟨trivial, fun other => ?_⟩
    cases other <;> rfl
  | topology =>
    have hid : id ∈ c.topologyRequests := h
    simp only [settle, settleTopology, if_pos hid]
    refine ⟨trivial, fun other => ?_⟩
    cases other <;> rfl

theorem settle_none (c : PushClient) (query : Query) (payload : Value) :
    c.settle query none payload = c := by
  cases query <;> rfl

/-- A response settles the call it is addressed to, the first time, and no other. -/
theorem Call.settle {c : PushClient} {query : Query} {correlationId : String}
    {answer : Option Value} (h : c.Call query correlationId answer) (responded : Query)
    (id : Option String) (payload : Value) :
    (c.settle responded id payload).Call query correlationId
      (answer.or (if responded = query ∧ id = some correlationId then some payload else none)) := by
  cases id with
  | none =>
    rw [settle_none, if_neg (fun hboth => by cases hboth.2), Option.or_none]
    exact h
  | some id =>
    by_cases hpresent : id ∈ c.requests responded
    · obtain ⟨hsettled, hrequests⟩ := settle_present hpresent payload
      by_cases hid : id = correlationId
      · subst hid
        cases answer with
        | some answer => exact absurd hpresent (h.1 responded)
        | none =>
          obtain ⟨hcount, hothers, hempty⟩ := h
          have hresponded : responded = query := by
            by_contra hne
            exact hothers responded hne hpresent
          subst hresponded
          rw [if_pos ⟨rfl, rfl⟩, Option.none_or]
          refine ⟨fun other => ?_, ?_⟩
          · rw [hrequests]
            by_cases hother : other = responded
            · rw [if_pos hother, ← List.count_eq_zero, List.count_erase_self, hcount]
            · rw [if_neg hother]
              exact hothers other hother
          · rw [hsettled, List.filter_append, hempty]
            simp
      · have hne : ¬ (responded = query ∧ some id = some correlationId) := fun hboth =>
          hid (Option.some.inj hboth.2)
        have hmem : ∀ other, correlationId ∈ (c.settle responded (some id) payload).requests other ↔
            correlationId ∈ c.requests other := by
          intro other
          rw [hrequests]
          split
          · rename_i hother
            rw [hother, List.mem_erase_of_ne (Ne.symm hid)]
          · rfl
        have hfilter : (c.settle responded (some id) payload).settled.filter
            (fun entry => entry.1 = correlationId) =
            c.settled.filter fun entry => entry.1 = correlationId := by
          rw [hsettled, List.filter_append]
          simp [hid]
        rw [if_neg hne, Option.or_none]
        cases answer with
        | none =>
          obtain ⟨hcount, hothers, hempty⟩ := h
          refine ⟨?_, fun other hother => mt (hmem other).mp (hothers other hother),
            hfilter.trans hempty⟩
          rw [hrequests]
          split
          · rename_i hquery
            rw [← hquery, List.count_erase_of_ne (Ne.symm hid), hcount]
          · exact hcount
        | some answer =>
          exact ⟨fun other => mt (hmem other).mp (h.1 other), hfilter.trans h.2⟩
    · rw [settle_absent hpresent]
      have hne : ∀ hnone : answer = none, ¬ (responded = query ∧ some id = some correlationId) := by
        rintro rfl ⟨rfl, hid⟩
        obtain rfl := Option.some.inj hid
        have hcount := h.1
        rw [List.count_eq_zero.mpr hpresent] at hcount
        cases hcount
      cases answer with
      | none =>
        rw [if_neg (hne rfl)]
        exact h
      | some answer => exact h

end PushClient

/-! ### What a handler does to the tables -/

/-- A handler settles what the message of the push answers, its payload as the client
reads it. -/
structure Settles (handle : PushClient → PushClient) (read : Value → Value) (p : Push) :
    Prop where
  call : ∀ {c : PushClient} {query : Query} {correlationId : String} {answer : Option Value},
    c.Call query correlationId answer →
    (handle c).Call query correlationId (answer.or ((p.answer query correlationId).map read))

theorem Settles.keep {handle : PushClient → PushClient} {read : Value → Value} {p : Push}
    (hnone : ∀ query correlationId, p.answer query correlationId = none)
    (h : ∀ c, (handle c).SameTables c) : Settles handle read p := by
  refine ⟨fun {c query correlationId answer} hc => ?_⟩
  rw [hnone, Option.map_none, Option.or_none]
  exact (h c).call hc

theorem Settles.respond {handle : PushClient → PushClient} {read : Value → Value} {p : Push}
    {m : EmergentMessage} (hp : p.content = .message m) (responded : Query)
    (htype : m.messageType.value = responded.responseType)
    (h : ∀ c, handle c = c.settle responded (correlationText m) (read m.payload)) :
    Settles handle read p := by
  refine ⟨fun {c query correlationId answer} hc => ?_⟩
  have hanswer : (p.answer query correlationId).map read =
      if responded = query ∧ correlationText m = some correlationId then some (read m.payload)
      else none := by
    have hquery : m.answers query correlationId = true ↔
        responded = query ∧ correlationText m = some correlationId := by
      rw [answers_iff, htype]
      refine and_congr_left fun _ => ?_
      cases responded <;> cases query <;> decide
    rw [Push.answer_message hp]
    split <;> rename_i hif <;> rw [hquery] at hif <;> simp [hif]
  rw [h, hanswer]
  exact hc.settle responded (correlationText m) (read m.payload)

theorem answer_of_not_response {p : Push} {m : EmergentMessage} (hp : p.content = .message m)
    (h : isResponse m.messageType.value = false) (query : Query) (correlationId : String) :
    p.answer query correlationId = none := by
  rw [Push.answer_message hp, if_neg]
  intro hanswers
  have htype := (answers_iff.mp hanswers).1
  rw [htype] at h
  cases query <;> cases h

section
variable (fromJson : String → Option Value) (kind : SubscriberKind) (autoUnwrap : Bool)

theorem unregister_sameTables (c : PushClient) : c.unregister.SameTables c :=
  ⟨fun query => by cases query <;> rfl, rfl⟩

theorem push_sameTables (lang : Language) (c : PushClient) (wire : WireMessage) :
    (c.push lang wire).SameTables c :=
  ⟨fun query => by cases query <;> rfl, rfl⟩

section
variable {lang : Language} {pushFromFrame : Value → Option (String × Value)}
  {isEmergent : String → Bool} {wireMessage : Value → Option WireMessage}
  (fromWire : WireMessage → WireMessage) {body payload : Value}

theorem handlePushWith_settles {p : Push} {m : EmergentMessage} (hp : p.content = .message m)
    {wire : WireMessage} {read : Value → Value}
    (hframe : pushFromFrame body = some (m.messageType.value, payload))
    (hemergent : isEmergent m.messageType.value = true) (hwire : wireMessage payload = some wire)
    (hid : wire.correlationId = correlationText m) (hread : wire.payload = read m.payload) :
    Settles (fun c => handlePushWith fromJson kind autoUnwrap lang pushFromFrame isEmergent
      wireMessage fromWire c body) read p := by
  by_cases hshutdown : m.messageType.value = "system.shutdown"
  · refine Settles.keep (answer_of_not_response hp (by rw [hshutdown]; decide)) fun c => ?_
    simp only [handlePushWith, hframe, if_pos hshutdown]
    split
    · exact unregister_sameTables c
    · exact .refl c
  by_cases htopology : m.messageType.value = "system.response.topology"
  · refine Settles.respond hp .topology htopology fun c => ?_
    simp only [handlePushWith, hframe, if_neg hshutdown, hemergent, hwire, if_pos htopology, hid,
      hread]
    rfl
  by_cases hsubscriptions : m.messageType.value = "system.response.subscriptions"
  · refine Settles.respond hp .subscriptions hsubscriptions fun c => ?_
    simp only [handlePushWith, hframe, if_neg hshutdown, hemergent, hwire, if_neg htopology,
      if_pos hsubscriptions, hid, hread]
    rfl
  · have hother : isResponse m.messageType.value = false := by
      simp [isResponse, htopology, hsubscriptions]
    refine Settles.keep (answer_of_not_response hp hother) fun c => ?_
    simp only [handlePushWith, hframe, if_neg hshutdown, hemergent, hwire, if_neg htopology,
      if_neg hsubscriptions, Bool.not_true, Bool.false_eq_true, if_false]
    split
    · exact push_sameTables lang c _
    · exact .refl c

theorem handlePushWith_keeps {p : Push} {messageType : String} {read : Value → Value}
    (hnone : ∀ query correlationId, p.answer query correlationId = none)
    (hframe : pushFromFrame body = some (messageType, payload))
    (hshutdown : messageType ≠ "system.shutdown") (hforeign : isEmergent messageType = false) :
    Settles (fun c => handlePushWith fromJson kind autoUnwrap lang pushFromFrame isEmergent
      wireMessage fromWire c body) read p := by
  refine Settles.keep hnone fun c => ?_
  simp only [handlePushWith, hframe, if_neg hshutdown, hforeign, Bool.not_false, if_true]
  exact .refl c

end

theorem shutdown_ne_foreign {typeName : String} (h : ¬ ValidMessageType typeName) :
    typeName ≠ "system.shutdown" := by
  intro heq
  exact h (heq ▸ by decide)

theorem Ts.handlePush_settles (f : Number → Number) (p : Push) :
    Settles (fun c => Ts.handlePush fromJson kind autoUnwrap c (p.body.mapNumbers f))
      (Value.mapNumbers f) p := by
  have hframe := Ts.pushFromFrame_body f p
  cases hp : p.content with
  | message m =>
    have hnote : p.content.notification = notificationOf m := by rw [hp]; rfl
    rw [hnote] at hframe
    exact handlePushWith_settles fromJson kind autoUnwrap id hp hframe
      ((isEmergentMessageType_iff _).mpr m.messageType.valid)
      (Ts.wireMessageFromPush_mapNumbers f m) rfl rfl
  | broadcast typeName sourceActor payload foreign line =>
    have htype : p.content.notification.messageType = typeName := by rw [hp]; rfl
    have hforeign : ¬ ValidMessageType p.content.notification.messageType := htype ▸ foreign
    have hemergent : isEmergentMessageType p.content.notification.messageType = false := by
      rw [← Bool.not_eq_true, isEmergentMessageType_iff]
      exact hforeign
    exact handlePushWith_keeps fromJson kind autoUnwrap id
      (fun query correlationId => Push.answer_foreign hforeign correlationId) hframe
      (shutdown_ne_foreign hforeign) hemergent

theorem Py.handlePush_settles (pydantic : Pydantic) (p : Push) :
    Settles (fun c => Py.handlePush fromJson kind autoUnwrap pydantic c p.body) id p := by
  have hframe := Py.pushFromFrame_body pydantic p
  cases hp : p.content with
  | message m =>
    have hnote : p.content.notification = notificationOf m := by rw [hp]; rfl
    rw [hnote] at hframe
    exact handlePushWith_settles fromJson kind autoUnwrap Py.fromWire hp hframe
      ((Py.isEmergentMessageType_iff m.messageType.no_line_break).mpr m.messageType.valid)
      (Py.wireMessageFromPush_toValue pydantic m) rfl rfl
  | broadcast typeName sourceActor payload foreign line =>
    have htype : p.content.notification.messageType = typeName := by rw [hp]; rfl
    have hforeign : ¬ ValidMessageType p.content.notification.messageType := htype ▸ foreign
    have hemergent : Py.isEmergentMessageType p.content.notification.messageType = false := by
      rw [htype, ← Bool.not_eq_true, Py.isEmergentMessageType_iff line]
      exact foreign
    exact handlePushWith_keeps fromJson kind autoUnwrap Py.fromWire
      (fun query correlationId => Push.answer_foreign hforeign correlationId) hframe
      (shutdown_ne_foreign hforeign) hemergent

/-- Go reads the identifier and the answer out of the raw notification. -/
theorem Go.responseOf_toValue (m : EmergentMessage) :
    Go.responseOf m.toValue = (correlationText m, m.payload) := by
  obtain ⟨_, _, _, hcorrelation, _, _, hpayload, _, _⟩ := get_toValue m
  rw [Go.responseOf, hcorrelation, hpayload]
  cases hid : m.correlationId with
  | none => simp [correlationText, hid]
  | some id => simp [correlationText, hid, Value.asStr, Option.filter, toStr_ne_empty]

theorem Go.handlePush_settles (p : Push) :
    Settles (fun c => Go.handlePush fromJson kind autoUnwrap c p.body) id p := by
  have hbody : p.body.isObject = true := rfl
  have htype : ((p.body.get "message_type").bind Value.asStr).getD "" =
      p.content.notification.messageType := rfl
  have hpayload : (p.body.get "payload").getD .null = p.content.notification.payload := rfl
  cases hp : p.content with
  | message m =>
    have hnote : p.content.notification = notificationOf m := by rw [hp]; rfl
    have hm : (notificationOf m).messageType = m.messageType.value := rfl
    have hv : (notificationOf m).payload = m.toValue := rfl
    rw [hnote, hm] at htype
    rw [hnote, hv] at hpayload
    have hanswer := Go.responseOf_toValue m
    by_cases hshutdown : m.messageType.value = "system.shutdown"
    · refine Settles.keep (answer_of_not_response hp (by rw [hshutdown]; decide)) fun c => ?_
      simp only [Go.handlePush, if_pos hbody, htype, if_pos hshutdown]
      split
      · exact unregister_sameTables c
      · exact .refl c
    by_cases htopology : m.messageType.value = "system.response.topology"
    · refine Settles.respond hp .topology htopology fun c => ?_
      simp only [Go.handlePush, if_pos hbody, htype, hpayload, if_neg hshutdown, if_pos htopology,
        hanswer]
      rfl
    by_cases hsubscriptions : m.messageType.value = "system.response.subscriptions"
    · refine Settles.respond hp .subscriptions hsubscriptions fun c => ?_
      simp only [Go.handlePush, if_pos hbody, htype, hpayload, if_neg hshutdown,
        if_neg htopology, if_pos hsubscriptions, hanswer]
      rfl
    · have hother : isResponse m.messageType.value = false := by
        simp [isResponse, htopology, hsubscriptions]
      have hemergent := (isEmergentMessageType_iff _).mpr m.messageType.valid
      refine Settles.keep (answer_of_not_response hp hother) fun c => ?_
      simp only [Go.handlePush, if_pos hbody, htype, hpayload, if_neg hshutdown,
        if_neg htopology, if_neg hsubscriptions, hemergent, Go.wireMessageFromPush_toValue,
        Bool.not_true, Bool.false_eq_true, if_false]
      split
      · exact push_sameTables .go c _
      · exact .refl c
  | broadcast typeName sourceActor payload foreign line =>
    have hname : p.content.notification.messageType = typeName := by rw [hp]; rfl
    rw [hname] at htype
    have hforeign : ¬ ValidMessageType p.content.notification.messageType := hname ▸ foreign
    have hemergent : isEmergentMessageType typeName = false := by
      rw [← Bool.not_eq_true, isEmergentMessageType_iff]
      exact foreign
    have hne : ∀ t, ValidMessageType t → typeName ≠ t := by
      intro t ht heq
      exact foreign (heq ▸ ht)
    refine Settles.keep (fun query correlationId => Push.answer_foreign hforeign correlationId)
      fun c => ?_
    simp only [Go.handlePush, if_pos hbody, htype, hemergent,
      if_neg (hne "system.shutdown" (by decide)),
      if_neg (hne "system.response.topology" (by decide)),
      if_neg (hne "system.response.subscriptions" (by decide)), Bool.not_false, if_true]
    exact .refl c

end

/-! ### A stream of pushes -/

theorem firstAnswer_cons (query : Query) (correlationId : String) (p : Push)
    (pushes : List Push) :
    firstAnswer query correlationId (p :: pushes) =
      (p.answer query correlationId).or (firstAnswer query correlationId pushes) := by
  rw [firstAnswer, List.findSome?_cons, ← firstAnswer]
  cases p.answer query correlationId <;> rfl

theorem call_pushes {handle : PushClient → Push → PushClient} {read : Value → Value}
    (hstep : ∀ p, Settles (fun c => handle c p) read p) {c : PushClient} {query : Query}
    {correlationId : String} {answer : Option Value} (hc : c.Call query correlationId answer)
    (pushes : List Push) :
    (pushes.foldl handle c).Call query correlationId
      (answer.or ((firstAnswer query correlationId pushes).map read)) := by
  induction pushes generalizing c answer with
  | nil =>
    have hnone : firstAnswer query correlationId [] = none := rfl
    rw [hnone, Option.map_none, Option.or_none]
    exact hc
  | cons p pushes ih =>
    have hnext := ih ((hstep p).call hc)
    have hsplit : ((p.answer query correlationId).or (firstAnswer query correlationId pushes)).map
        read = ((p.answer query correlationId).map read).or
          ((firstAnswer query correlationId pushes).map read) := by
      cases p.answer query correlationId <;> rfl
    rw [firstAnswer_cons, hsplit, ← Option.or_assoc]
    exact hnext

/-- Whatever else is pushed, a call that has not been given up is settled in each SDK by
the first response under its id, with the payload of that response, and once. -/
theorem queries_answered_alike {α : Type} {fromStr : String → Option TypeId} {json : JsonParsers}
    {d : Doubles} {pydantic : Pydantic} {kind : SubscriberKind} {autoUnwrap : Bool}
    {query : Query} {decode : Value → Option α} {correlationId : String} {clients : PushClients}
    (hts : clients.ts.Call query correlationId none)
    (hgo : clients.go.Call query correlationId none)
    (hpy : clients.py.Call query correlationId none) {pushes : List Push}
    (hread : PushedIdsRead fromStr pushes) :
    Rust.awaitResponse fromStr query decode correlationId
        (pushes.map fun p => p.content.notification) =
      .ofAnswer decode (firstAnswer query correlationId pushes) ∧
    (pushes.foldl (fun c p => Ts.handlePush json.ts kind autoUnwrap c (p.body.mapNumbers d.read))
      clients.ts).Call query correlationId
        ((firstAnswer query correlationId pushes).map (Value.mapNumbers d.read)) ∧
    (pushes.foldl (fun c p => Go.handlePush json.go kind autoUnwrap c p.body) clients.go).Call
      query correlationId (firstAnswer query correlationId pushes) ∧
    (pushes.foldl (fun c p => Py.handlePush json.py kind autoUnwrap pydantic c p.body)
      clients.py).Call query correlationId (firstAnswer query correlationId pushes) := by
  refine ⟨Rust.awaitResponse_eq query decode correlationId hread, ?_, ?_, ?_⟩
  · exact call_pushes (Ts.handlePush_settles json.ts kind autoUnwrap d.read) hts pushes
  · have hcall := call_pushes (Go.handlePush_settles json.go kind autoUnwrap) hgo pushes
    rwa [Option.map_id, Option.none_or, id] at hcall
  · have hcall := call_pushes (Py.handlePush_settles json.py kind autoUnwrap pydantic) hpy pushes
    rwa [Option.map_id, Option.none_or, id] at hcall

/-! Three responses: to another call, to this one, and to this one again. -/

def callId : CorrelationId := ⟨⟨"cor", "01h455vb4pex5vsknk084sn02q"⟩, List.mem_singleton_self "cor"⟩

def otherCallId : CorrelationId :=
  ⟨⟨"cor", "01h455vb4pex5vsknk084sn02r"⟩, List.mem_singleton_self "cor"⟩

def subscribesPayload (topic : String) : Value :=
  .object [("subscribes", .array [.string topic])]

theorem validMessageType_subscriptionsResponse :
    ValidMessageType "system.response.subscriptions" := by
  decide

def responsePush (id : CorrelationId) (topic : String) : Push where
  notificationId := "n1"
  timestampMs := 7
  content := .message ⟨pushedId,
    ⟨"system.response.subscriptions", validMessageType_subscriptionsResponse⟩,
    ⟨"timer", validPrimitiveName_timer⟩, some id, none, 7, subscribesPayload topic, none⟩
  fresh := ⟨pushedId, 7⟩

def responses : List Push :=
  [responsePush otherCallId "secrets.all", responsePush callId "timer.tick",
    responsePush callId "timer.tock"]

def asking : PushClient := ⟨true, [], [], [], [callId.id.toStr], []⟩

theorem asking_call : asking.Call .subscriptions callId.id.toStr none := by
  refine ⟨by decide, fun other hother => ?_, rfl⟩
  cases other with
  | subscriptions => exact absurd rfl hother
  | topology => exact List.not_mem_nil

theorem responses_read : PushedIdsRead readTypeId responses := by
  have hread : ∀ id topic, readTypeId id.id.toStr = some id.id →
      ∀ m, (responsePush id topic).content = .message m → IdsRead readTypeId m := by
    intro id topic hid m hm
    obtain rfl := PushContent.message.inj hm
    refine ⟨?_, ?_, ?_⟩
    · show readTypeId pushedId.id.toStr = some pushedId.id
      decide
    · rintro id' ⟨⟩
      exact hid
    · rintro id' ⟨⟩
  intro p hp
  simp only [responses, List.mem_cons, List.not_mem_nil, or_false] at hp
  rcases hp with rfl | rfl | rfl
  · exact hread otherCallId "secrets.all" (by decide)
  · exact hread callId "timer.tick" (by decide)
  · exact hread callId "timer.tock" (by decide)

theorem queries_answered_alike_subscriptions :
    Rust.awaitResponse readTypeId .subscriptions Rust.subscriptionsResponse callId.id.toStr
        (responses.map fun p => p.content.notification) = .answered ["timer.tick"] ∧
      (responses.foldl (fun c p => Go.handlePush noJson.go .sink true c p.body) asking).Call
        .subscriptions callId.id.toStr (some (subscribesPayload "timer.tick")) := by
  have hfirst : firstAnswer .subscriptions callId.id.toStr responses =
    some (subscribesPayload "timer.tick") := rfl
  obtain ⟨hrust, _, hgo, _⟩ := @queries_answered_alike _ readTypeId noJson exactDoubles onlyPosInt
    .sink true .subscriptions Rust.subscriptionsResponse callId.id.toStr
    ⟨asking, asking, asking, asking⟩ asking_call asking_call asking_call responses responses_read
  rw [hfirst] at hrust hgo
  exact ⟨hrust, hgo⟩

end Emergent.Sdk

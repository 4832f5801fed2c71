import Emergent.Sdk.PushReading

/-!
# The four push handlers agree

Four clients of one subscription are pushed the same notifications. The
responses to queries stay out of the stream in TypeScript, Go and Python, whose
clients send their queries on the connection of the stream; the Rust client has
another connection for them and hands on what it sees here. JavaScript has one
kind of number, so numbers are compared as doubles.
-/

namespace Emergent.Sdk
open Kit Kit.Text

/-! ### One notification -/

def isShutdown (messageType : String) : Bool := messageType == "system.shutdown"

/-- A response to a query, which the other SDKs keep from the stream. -/
def isResponse (messageType : String) : Bool :=
  messageType == "system.response.topology" || messageType == "system.response.subscriptions"

theorem isResponse_iff {messageType : String} :
    isResponse messageType = true ↔
      messageType = "system.response.topology" ∨
        messageType = "system.response.subscriptions" := by
  rw [isResponse, Bool.or_eq_true, beq_iff_eq, beq_iff_eq]

/-- The stream has room for one more message. -/
def PushClient.Room (capacity : Option ℕ) (c : PushClient) : Prop :=
  ∀ limit ∈ capacity, c.queue.length < limit

theorem PushClient.room_none (c : PushClient) : c.Room none := by
  intro limit hlimit
  cases hlimit

theorem PushClient.delivered_send (c : PushClient) (wire : WireMessage) :
    (c.send wire).delivered = c.delivered ++ [wire] :=
  (List.append_assoc c.taken c.queue [wire]).symm

theorem PushClient.delivered_push {lang : Language} {c : PushClient} (hroom : c.Room lang.capacity)
    (wire : WireMessage) : (c.push lang wire).delivered = c.delivered ++ [wire] := by
  show c.taken ++ MessageStream.enqueue lang c.queue wire = c.taken ++ c.queue ++ [wire]
  rw [MessageStream.enqueue_of_room hroom, List.append_assoc]

/-- Reading moves a message and loses none. -/
theorem PushClient.take_stream (c : PushClient) :
    c.take.registered = c.registered ∧ c.take.delivered = c.delivered := by
  unfold PushClient.take
  cases hqueue : c.queue with
  | nil => exact ⟨rfl, rfl⟩
  | cons wire rest => exact ⟨rfl, by simp [PushClient.delivered, hqueue]⟩

/-- What a handler does to the stream of its client, as long as there is room. -/
structure Handles (capacity : Option ℕ) (handle : PushClient → PushClient) (ends : Bool)
    (given : List WireMessage) : Prop where
  registered : ∀ c, (handle c).registered = (c.registered && !ends)
  delivered : ∀ c, c.Room capacity →
    (handle c).delivered = c.delivered ++ if c.registered then given else []

section
variable {capacity : Option ℕ} {handle : PushClient → PushClient}

theorem Handles.skip (h : ∀ c, handle c = c) : Handles capacity handle false [] := by
  constructor
  · intro c
    rw [h, Bool.not_false, Bool.and_true]
  · intro c _
    rw [h, ite_self, List.append_nil]

theorem Handles.close {ends : Bool} (h : ∀ c, handle c = if ends then c.unregister else c) :
    Handles capacity handle ends [] := by
  constructor
  · intro c
    rw [h]
    cases ends
    · simp
    · simp [PushClient.unregister]
  · intro c _
    rw [h, ite_self, List.append_nil]
    split <;> rfl

theorem PushClient.unregister_closed {c : PushClient} (h : c.registered = false) :
    c.unregister = c := by
  rw [PushClient.unregister, ← h]

theorem Handles.give {lang : Language} {wire : WireMessage}
    (h : ∀ c, handle c = if c.registered then c.push lang wire else c) :
    Handles lang.capacity handle false [wire] := by
  constructor
  · intro c
    rw [h, Bool.not_false, Bool.and_true]
    split <;> rfl
  · intro c hroom
    rw [h]
    split
    · exact PushClient.delivered_push hroom wire
    · rw [List.append_nil]

/-- The bridge of Rust waits for room itself. -/
theorem Handles.forward {wire : WireMessage}
    (h : ∀ c, handle c = if c.registered then c.send wire else c) :
    Handles none handle false [wire] := by
  constructor
  · intro c
    rw [h, Bool.not_false, Bool.and_true]
    split <;> rfl
  · intro c _
    rw [h]
    split
    · exact c.delivered_send wire
    · rw [List.append_nil]

theorem Handles.settle
    (h : ∀ c, (handle c).registered = c.registered ∧ (handle c).delivered = c.delivered) :
    Handles capacity handle false [] := by
  constructor
  · intro c
    rw [(h c).1, Bool.not_false, Bool.and_true]
  · intro c _
    rw [(h c).2, ite_self, List.append_nil]

end

theorem settleTopology_stream (c : PushClient) (id : Option String) (v : Value) :
    (c.settleTopology id v).registered = c.registered ∧
      (c.settleTopology id v).delivered = c.delivered := by
  unfold PushClient.settleTopology
  split
  · exact ⟨rfl, rfl⟩
  · split <;> exact ⟨rfl, rfl⟩

theorem settleSubscriptions_stream (c : PushClient) (id : Option String) (v : Value) :
    (c.settleSubscriptions id v).registered = c.registered ∧
      (c.settleSubscriptions id v).delivered = c.delivered := by
  unfold PushClient.settleSubscriptions
  split
  · exact ⟨rfl, rfl⟩
  · split <;> exact ⟨rfl, rfl⟩

def endsAt (kind : SubscriberKind) (m : EmergentMessage) : Bool :=
  isShutdown m.messageType.value && kindOf m.payload == some kind.lower

/-- A message is dispatched by its type: a shutdown, an answer to a query, or anything
else. -/
theorem Handles.message {capacity : Option ℕ} {handle : PushClient → PushClient}
    {kind : SubscriberKind} {m : EmergentMessage} {given : List WireMessage}
    (hclose : m.messageType.value = "system.shutdown" →
      Handles capacity handle (kindOf m.payload == some kind.lower) [])
    (hsettle : m.messageType.value ≠ "system.shutdown" → isResponse m.messageType.value = true →
      Handles capacity handle false [])
    (hgive : m.messageType.value ≠ "system.shutdown" → ¬ isResponse m.messageType.value = true →
      Handles capacity handle false given) :
    Handles capacity handle (endsAt kind m)
      (if isShutdown m.messageType.value || isResponse m.messageType.value then [] else given) := by
  by_cases hshutdown : m.messageType.value = "system.shutdown"
  · have hbool : isShutdown m.messageType.value = true := beq_iff_eq.mpr hshutdown
    rw [hbool, Bool.true_or, if_pos rfl, endsAt, hbool, Bool.true_and]
    exact hclose hshutdown
  · have hbool : isShutdown m.messageType.value = false := beq_false_of_ne hshutdown
    rw [hbool, Bool.false_or, endsAt, hbool, Bool.false_and]
    by_cases hresponse : isResponse m.messageType.value = true
    · rw [if_pos hresponse]
      exact hsettle hshutdown hresponse
    · rw [if_neg hresponse]
      exact hgive hshutdown hresponse

theorem unwrapStdout_view (fromJson : String → Option Value) (m : EmergentMessage) :
    (m.unwrapStdout fromJson).view = m.view.unwrapStdout fromJson := by
  have hpayload : m.view.payload = m.payload := rfl
  rw [EmergentMessage.unwrapStdout, WireMessage.unwrapStdout, hpayload]
  cases m.payload.get "stdout" with
  | none => rfl
  | some v => cases v <;> rfl

section
variable {fromStr : String → Option TypeId} (fromJson : String → Option Value)
  (kind : SubscriberKind) (autoUnwrap : Bool)

theorem received_view {m : EmergentMessage} (h : IdsRead fromStr m) (fresh : Fresh) :
    (received fromStr fromJson autoUnwrap fresh (notificationOf m)).map EmergentMessage.view =
      some (m.arriving.unwrapped autoUnwrap fromJson) := by
  have hpayload : (notificationOf m).payload = m.toValue := rfl
  rw [received, hpayload, fromValue_toValue h, Option.some_or, Option.map_some, Option.map_some]
  congr 1
  have htype : m.arriving.messageType = m.messageType.value := rfl
  rw [WireMessage.unwrapped, htype]
  dsimp only
  split
  · rw [unwrapStdout_view]
    rfl
  · rfl

theorem Rust.handlePush_message {m : EmergentMessage} (h : IdsRead fromStr m) {p : Push}
    (hp : p.content = .message m) :
    Handles none (fun c => Rust.handlePush fromStr fromJson kind autoUnwrap c p) (endsAt kind m)
      (if isShutdown m.messageType.value then []
        else [m.arriving.unwrapped autoUnwrap fromJson]) := by
  have hnote : p.content.notification = notificationOf m := by rw [hp]; rfl
  have htype : (notificationOf m).messageType = m.messageType.value := rfl
  by_cases hshutdown : m.messageType.value = "system.shutdown"
  · have hbool : isShutdown m.messageType.value = true := beq_iff_eq.mpr hshutdown
    rw [if_pos hbool, endsAt, hbool, Bool.true_and]
    apply Handles.close
    intro c
    have hbridge : bridge fromStr fromJson kind.lower autoUnwrap p.fresh (notificationOf m) =
        if kindOf m.payload == some kind.lower then .stop else .skip := by
      rw [bridge, htype, if_pos hshutdown]
      congr 1
      rw [eq_iff_iff, closes_iff, beq_iff_eq]
    rw [Rust.handlePush, hnote, hbridge]
    cases hregistered : c.registered
    · rw [PushClient.unregister_closed hregistered, ite_self]
      rfl
    · rw [if_pos rfl]
      cases kindOf m.payload == some kind.lower <;> rfl
  · have hbool : isShutdown m.messageType.value = false := beq_false_of_ne hshutdown
    rw [hbool, endsAt, hbool, Bool.false_and]
    apply Handles.forward
    intro c
    obtain ⟨r, hr, hreceived⟩ :=
      bridge_notificationOf fromStr fromJson kind.lower autoUnwrap p.fresh hshutdown
    have hview := received_view fromJson autoUnwrap h p.fresh
    rw [hreceived, Option.map_some, Option.some.injEq] at hview
    rw [Rust.handlePush, hnote, hr, ← hview]

theorem Rust.handlePush_foreign (fromStr : String → Option TypeId) {p : Push}
    (h : ¬ ValidMessageType p.content.notification.messageType) :
    Handles none (fun c => Rust.handlePush fromStr fromJson kind autoUnwrap c p) false [] := by
  apply Handles.skip
  intro c
  have hshutdown : p.content.notification.messageType ≠ "system.shutdown" := by
    intro heq
    exact h (heq ▸ by decide)
  have hcarries : carriesEmergentMessage p.content.notification.messageType = false := by
    rw [← Bool.not_eq_true, carriesEmergentMessage_iff]
    exact h
  rw [Rust.handlePush, bridge, if_neg hshutdown, hcarries]
  split <;> rfl

section
variable (lang : Language) {pushFromFrame : Value → Option (String × Value)}
  {isEmergent : String → Bool} {wireMessage : Value → Option WireMessage}
  (fromWire : WireMessage → WireMessage) {body payload : Value}

theorem handlePushWith_message {m : EmergentMessage} {wire : WireMessage}
    (hframe : pushFromFrame body = some (m.messageType.value, payload))
    (hkind : extractShutdownKind payload = kindOf m.payload)
    (hemergent : isEmergent m.messageType.value = true) (hwire : wireMessage payload = some wire) :
    Handles lang.capacity (fun c => handlePushWith fromJson kind autoUnwrap lang pushFromFrame
        isEmergent wireMessage fromWire c body) (endsAt kind m)
      (if isShutdown m.messageType.value || isResponse m.messageType.value then []
        else [(fromWire wire).unwrapped autoUnwrap fromJson]) := by
  apply Handles.message
  · intro hshutdown
    apply Handles.close
    intro c
    simp only [handlePushWith, hframe, if_pos hshutdown, hkind, beq_iff_eq]
  · intro hshutdown hresponse
    apply Handles.settle
    intro c
    by_cases htopology : m.messageType.value = "system.response.topology"
    · simp only [handlePushWith, hframe, if_neg hshutdown, hemergent, hwire, if_pos htopology]
      exact settleTopology_stream c _ _
    · have hsubscriptions := (isResponse_iff.mp hresponse).resolve_left htopology
      simp only [handlePushWith, hframe, if_neg hshutdown, hemergent, hwire, if_neg htopology,
        if_pos hsubscriptions]
      exact settleSubscriptions_stream c _ _
  · intro hshutdown hresponse
    have hother := not_or.mp (mt isResponse_iff.mpr hresponse)
    apply Handles.give
    intro c
    simp only [handlePushWith, hframe, if_neg hshutdown, hemergent, hwire, if_neg hother.1,
      if_neg hother.2]
    rfl

theorem handlePushWith_foreign {messageType : String}
    (hframe : pushFromFrame body = some (messageType, payload))
    (hshutdown : messageType ≠ "system.shutdown") (hforeign : isEmergent messageType = false) :
    Handles lang.capacity (fun c => handlePushWith fromJson kind autoUnwrap lang pushFromFrame
        isEmergent wireMessage fromWire c body) false [] := by
  apply Handles.skip
  intro c
  simp only [handlePushWith, hframe, if_neg hshutdown, hforeign]
  rfl

end

theorem Go.handlePush_message {m : EmergentMessage}
    (hplain : ∀ s, m.payload.get "kind" = some (.string s) → PlainKind s) {p : Push}
    (hp : p.content = .message m) :
    Handles Language.go.capacity (fun c => Go.handlePush fromJson kind autoUnwrap c p.body)
      (endsAt kind m)
      (if isShutdown m.messageType.value || isResponse m.messageType.value then []
        else [m.arriving.unwrapped autoUnwrap fromJson]) := by
  have hbody : p.body.isObject = true := rfl
  have htype : ((p.body.get "message_type").bind Value.asStr).getD "" = m.messageType.value := by
    rw [Push.body, hp]
    rfl
  have hpayload : (p.body.get "payload").getD .null = m.toValue := by
    rw [Push.body, hp]
    rfl
  apply Handles.message
  · intro hshutdown
    apply Handles.close
    intro c
    simp only [Go.handlePush, if_pos hbody, htype, hpayload, if_pos hshutdown,
      Go.closes_iff kind hplain, beq_iff_eq]
  · intro hshutdown hresponse
    apply Handles.settle
    intro c
    by_cases htopology : m.messageType.value = "system.response.topology"
    · simp only [Go.handlePush, if_pos hbody, htype, if_neg hshutdown, if_pos htopology]
      exact settleTopology_stream c _ _
    · have hsubscriptions := (isResponse_iff.mp hresponse).resolve_left htopology
      simp only [Go.handlePush, if_pos hbody, htype, if_neg hshutdown, if_neg htopology,
        if_pos hsubscriptions]
      exact settleSubscriptions_stream c _ _
  · intro hshutdown hresponse
    have hother := not_or.mp (mt isResponse_iff.mpr hresponse)
    have hemergent := (isEmergentMessageType_iff _).mpr m.messageType.valid
    apply Handles.give
    intro c
    simp only [Go.handlePush, if_pos hbody, htype, hpayload, if_neg hshutdown, if_neg hother.1,
      if_neg hother.2, hemergent, Go.wireMessageFromPush_toValue]
    rfl

theorem Go.handlePush_foreign {p : Push}
    (h : ¬ ValidMessageType p.content.notification.messageType) :
    Handles Language.go.capacity (fun c => Go.handlePush fromJson kind autoUnwrap c p.body) false
      [] := by
  apply Handles.skip
  intro c
  have hbody : p.body.isObject = true := rfl
  have htype : ((p.body.get "message_type").bind Value.asStr).getD "" =
      p.content.notification.messageType := rfl
  have hemergent : isEmergentMessageType p.content.notification.messageType = false := by
    rw [← Bool.not_eq_true, isEmergentMessageType_iff]
    exact h
  have hne : ∀ t, ValidMessageType t → p.content.notification.messageType ≠ t := by
    intro t ht heq
    exact h (heq ▸ ht)
  simp only [Go.handlePush, if_pos hbody, htype, hemergent,
    if_neg (hne "system.shutdown" (by decide)),
    if_neg (hne "system.response.topology" (by decide)),
    if_neg (hne "system.response.subscriptions" (by decide))]
  rfl

end

/-! ### The text of a command's output -/

def stdoutOf (v : Value) : Option String := (v.get "stdout").bind Value.asStr

theorem WireMessage.unwrapStdout_eq (fromJson : String → Option Value) (wire : WireMessage) :
    wire.unwrapStdout fromJson =
      match stdoutOf wire.payload with
      | some stdout => { wire with payload := (fromJson stdout).getD (.string stdout) }
      | none => wire := by
  rw [WireMessage.unwrapStdout, stdoutOf]
  cases wire.payload.get "stdout" with
  | none => rfl
  | some v => cases v <;> rfl

/-- The library of each SDK that reads a JSON text. -/
structure JsonParsers where
  rust : String → Option Value
  ts : String → Option Value
  go : String → Option Value
  py : String → Option Value

/-- The four libraries read this text alike, up to the kind of their numbers. -/
structure JsonParsers.ReadAlike (json : JsonParsers) (d : Doubles) (s : String) : Prop where
  ts : (json.ts s).map (Value.mapNumbers d.read) = (json.rust s).map (Value.mapNumbers d.read)
  go : (json.go s).map (Value.mapNumbers d.read) = (json.rust s).map (Value.mapNumbers d.read)
  py : json.py s = json.rust s

theorem stdoutOf_mapNumbers (f : Number → Number) (v : Value) :
    stdoutOf (v.mapNumbers f) = stdoutOf v := by
  rw [stdoutOf, stdoutOf, get_mapNumbers, bind_asStr_mapNumbers]

section
variable {f : Number → Number} {first second : String → Option Value} {autoUnwrap : Bool}

theorem unwrapped_mapNumbers {wire wire' : WireMessage}
    (hwire : wire'.mapNumbers f = wire.mapNumbers f)
    (hread : autoUnwrap = true → ∀ s, stdoutOf wire.payload = some s →
      (second s).map (Value.mapNumbers f) = (first s).map (Value.mapNumbers f)) :
    (wire'.unwrapped autoUnwrap second).mapNumbers f =
      (wire.unwrapped autoUnwrap first).mapNumbers f := by
  have hfields := hwire
  rw [WireMessage.mapNumbers, WireMessage.mapNumbers, WireMessage.mk.injEq] at hfields
  obtain ⟨hid, htype, hsource, hcorrelation, hcausation, htime, hpayload, hmetadata⟩ := hfields
  have hstdout : stdoutOf wire'.payload = stdoutOf wire.payload := by
    rw [← stdoutOf_mapNumbers f wire'.payload, hpayload, stdoutOf_mapNumbers]
  rw [WireMessage.unwrapped, WireMessage.unwrapped, htype]
  split
  · rename_i hunwrap
    have hauto := (Bool.and_eq_true_iff.mp hunwrap).1
    rw [WireMessage.unwrapStdout_eq, WireMessage.unwrapStdout_eq, hstdout]
    cases hs : stdoutOf wire.payload with
    | none => exact hwire
    | some s =>
      have hvalue : ((second s).getD (.string s)).mapNumbers f =
          ((first s).getD (.string s)).mapNumbers f :=
        calc ((second s).getD (.string s)).mapNumbers f
          _ = ((second s).map (Value.mapNumbers f)).getD (.string s) := by
            cases second s <;> rfl
          _ = ((first s).map (Value.mapNumbers f)).getD (.string s) := by
            rw [hread hauto s hs]
          _ = ((first s).getD (.string s)).mapNumbers f := by
            cases first s <;> rfl
      simp only [WireMessage.mapNumbers, hid, htype, hsource, hcorrelation, hcausation, htime,
        hvalue, hmetadata]
  · exact hwire

theorem unwrapped_fromWire {wire : WireMessage}
    (hread : autoUnwrap = true → ∀ s, stdoutOf wire.payload = some s → second s = first s) :
    (Py.fromWire wire).unwrapped autoUnwrap second =
      Py.fromWire (wire.unwrapped autoUnwrap first) := by
  have htype : (Py.fromWire wire).messageType = wire.messageType := rfl
  have hpayload : (Py.fromWire wire).payload = wire.payload := rfl
  rw [WireMessage.unwrapped, WireMessage.unwrapped, htype]
  split
  · rename_i hunwrap
    have hauto := (Bool.and_eq_true_iff.mp hunwrap).1
    rw [WireMessage.unwrapStdout_eq, WireMessage.unwrapStdout_eq, hpayload]
    cases hs : stdoutOf wire.payload with
    | none => rfl
    | some s =>
      dsimp only
      rw [hread hauto s hs]
      rfl
  · rfl

theorem unwrapped_messageType (autoUnwrap : Bool) (fromJson : String → Option Value)
    (wire : WireMessage) : (wire.unwrapped autoUnwrap fromJson).messageType = wire.messageType := by
  rw [WireMessage.unwrapped]
  split
  · rw [WireMessage.unwrapStdout_eq]
    split <;> rfl
  · rfl

end

/-! ### Four clients -/

structure PushClients where
  rust : PushClient
  ts : PushClient
  go : PushClient
  py : PushClient

/-- A client as `subscribe` leaves it, whatever queries it is waiting for. -/
def PushClient.Opened (c : PushClient) : Prop :=
  c.registered = true ∧ c.taken = [] ∧ c.queue = []

def PushClients.Opened (s : PushClients) : Prop :=
  s.rust.Opened ∧ s.ts.Opened ∧ s.go.Opened ∧ s.py.Opened

/-- A message that the four SDKs can read alike. -/
structure ReadAlike (fromStr : String → Option TypeId) (json : JsonParsers) (d : Doubles)
    (autoUnwrap : Bool) (m : EmergentMessage) : Prop where
  ids : IdsRead fromStr m
  stdout : autoUnwrap = true → ∀ s, stdoutOf m.payload = some s → json.ReadAlike d s
  kind : ∀ s, m.payload.get "kind" = some (.string s) → PlainKind s

/-- Two clients at one point of their streams, up to the fields that `f` and `g`
leave. -/
structure SameStream (f g : WireMessage → WireMessage) (rust other : PushClient) : Prop where
  registered : other.registered = rust.registered
  delivered : other.delivered.map f =
    (rust.delivered.filter fun wire => !isResponse wire.messageType).map g

theorem SameStream.step {f g : WireMessage → WireMessage} {rust other : PushClient}
    {capacity : Option ℕ} {handleRust handle : PushClient → PushClient} {ends : Bool}
    {givenRust given : List WireMessage} (hs : SameStream f g rust other)
    (hrust : Handles none handleRust ends givenRust) (hother : Handles capacity handle ends given)
    (hroom : other.Room capacity)
    (hgiven : given.map f = (givenRust.filter fun wire => !isResponse wire.messageType).map g) :
    SameStream f g (handleRust rust) (handle other) := by
  constructor
  · rw [hrust.registered, hother.registered, hs.registered]
  · rw [hrust.delivered rust rust.room_none, hother.delivered other hroom, hs.registered,
      List.map_append, List.filter_append, List.map_append, hs.delivered]
    congr 1
    split
    · exact hgiven
    · rfl

/-- The two streams that drop what they have no room for have room. -/
def PushClients.Roomy (s : PushClients) : Prop :=
  s.go.Room Language.go.capacity ∧ s.py.Room Language.python.capacity

inductive ClientsAction where
  | push (p : Push)
  | take (sdk : Dialect)

def PushClients.take (s : PushClients) : Dialect → PushClients
  | .rust => { s with rust := s.rust.take }
  | .typescript => { s with ts := s.ts.take }
  | .python => { s with py := s.py.take }
  | .go => { s with go := s.go.take }

section
variable (fromStr : String → Option TypeId) (json : JsonParsers) (d : Doubles)
  (pydantic : Pydantic) (kind : SubscriberKind) (autoUnwrap : Bool)

def PushClients.handlePush (s : PushClients) (p : Push) : PushClients where
  rust := Rust.handlePush fromStr json.rust kind autoUnwrap s.rust p
  ts := Ts.handlePush json.ts kind autoUnwrap s.ts (p.body.mapNumbers d.read)
  go := Go.handlePush json.go kind autoUnwrap s.go p.body
  py := Py.handlePush json.py kind autoUnwrap pydantic s.py p.body

def PushClients.step (s : PushClients) : ClientsAction → Option PushClients
  | .push p => some (s.handlePush fromStr json d pydantic kind autoUnwrap p)
  | .take sdk => some (s.take sdk)

/-- What is pushed can be read alike and finds room. -/
def PushClients.Fits (s : PushClients) : ClientsAction → Prop
  | .push p => s.Roomy ∧ ∀ m, p.content = .message m → ReadAlike fromStr json d autoUnwrap m
  | .take _ => True

/-- The streams agree: the same messages in the same order, numbers compared as
doubles, and all four open or all four at their end. -/
structure PushClients.Agree (s : PushClients) : Prop where
  ts : SameStream (WireMessage.mapNumbers d.read) (WireMessage.mapNumbers d.read) s.rust s.ts
  go : SameStream (WireMessage.mapNumbers d.read) (WireMessage.mapNumbers d.read) s.rust s.go
  py : SameStream id Py.fromWire s.rust s.py

variable {fromStr json d autoUnwrap}

theorem agree_given {f g : WireMessage → WireMessage} {m : EmergentMessage}
    {wireRust wire : WireMessage} (htype : wireRust.messageType = m.messageType.value)
    (hwire : f wire = g wireRust) :
    (if isShutdown m.messageType.value || isResponse m.messageType.value then []
        else [wire]).map f =
      ((if isShutdown m.messageType.value then [] else [wireRust]).filter
        fun wire => !isResponse wire.messageType).map g := by
  cases isShutdown m.messageType.value <;> cases hresponse : isResponse m.messageType.value <;>
    simp [htype, hresponse, hwire]

theorem Ts.pushFromFrame_body (f : Number → Number) (p : Push) :
    Ts.pushFromFrame (p.body.mapNumbers f) =
      some (p.content.notification.messageType, p.content.notification.payload.mapNumbers f) := by
  have htype : p.body.get "message_type" = some (.string p.content.notification.messageType) :=
    rfl
  have hpayload : p.body.get "payload" = some p.content.notification.payload := rfl
  rw [Ts.pushFromFrame, get_mapNumbers, get_mapNumbers, bind_asStr_mapNumbers, htype, hpayload]
  rfl

theorem Py.pushFromFrame_body (pydantic : Pydantic) (p : Push) :
    Py.pushFromFrame pydantic p.body =
      some (p.content.notification.messageType, p.content.notification.payload) := by
  have hid : p.body.get "notification_id" = some (.string p.notificationId) := rfl
  have htype : p.body.get "message_type" = some (.string p.content.notification.messageType) :=
    rfl
  have hpayload : p.body.get "payload" = some p.content.notification.payload := rfl
  have hactor : optionalString (p.body.get "source_actor") =
      some p.content.notification.sourceActor := by
    have hget : p.body.get "source_actor" =
      some ((p.content.notification.sourceActor.map .string).getD .null) := rfl
    rw [hget]
    cases p.content.notification.sourceActor <;> rfl
  have htime : p.body.get "timestamp_ms" = some (.number (.posInt p.timestampMs)) := rfl
  simp only [Py.pushFromFrame, hid, htype, hpayload, hactor, htime, Option.bind_some, Value.asStr,
    Option.getD_some, pydantic.posInt]
  rfl

theorem handlePush_agree {s : PushClients} {p : Push} (hs : s.Agree d) (hroom : s.Roomy)
    (h : ∀ m, p.content = .message m → ReadAlike fromStr json d autoUnwrap m) :
    (s.handlePush fromStr json d pydantic kind autoUnwrap p).Agree d := by
  have hts := Ts.pushFromFrame_body d.read p
  have hpy := Py.pushFromFrame_body pydantic p
  cases hp : p.content with
  | message m =>
    obtain ⟨hids, hstdout, hkind⟩ := h m hp
    have hvalid := m.messageType.valid
    have hnote : p.content.notification = notificationOf m := by rw [hp]; rfl
    have hpayload : (notificationOf m).payload = m.toValue := rfl
    have htype : (notificationOf m).messageType = m.messageType.value := rfl
    have hkindOf := (extractShutdownKind_toValue m).1
    rw [hnote, hpayload, htype] at hts hpy
    have hrust := Rust.handlePush_message json.rust kind autoUnwrap hids hp
    have hwire : (m.arriving.unwrapped autoUnwrap json.rust).messageType = m.messageType.value :=
      unwrapped_messageType autoUnwrap json.rust m.arriving
    constructor
    · have hkindTs : extractShutdownKind (m.toValue.mapNumbers d.read) = kindOf m.payload := by
        rw [extractShutdownKind_mapNumbers, hkindOf]
      have hgiven := handlePushWith_message json.ts kind autoUnwrap .typescript id hts hkindTs
        ((isEmergentMessageType_iff _).mpr hvalid) (Ts.wireMessageFromPush_mapNumbers d.read m)
      apply hs.ts.step hrust hgiven s.ts.room_none
      apply agree_given hwire
      apply unwrapped_mapNumbers
      · exact WireMessage.mapNumbers_mapNumbers d.read_read m.arriving
      · intro hauto s hs
        exact (hstdout hauto s hs).ts
    · apply hs.go.step hrust (Go.handlePush_message json.go kind autoUnwrap hkind hp) hroom.1
      apply agree_given hwire
      apply unwrapped_mapNumbers rfl
      intro hauto s hs
      exact (hstdout hauto s hs).go
    · have hgiven := handlePushWith_message json.py kind autoUnwrap .python Py.fromWire hpy hkindOf
        ((Py.isEmergentMessageType_iff m.messageType.no_line_break).mpr hvalid)
        (Py.wireMessageFromPush_toValue pydantic m)
      apply hs.py.step hrust hgiven hroom.2
      apply agree_given hwire
      apply unwrapped_fromWire
      intro hauto s hs
      exact (hstdout hauto s hs).py
  | broadcast typeName sourceActor payload foreign line =>
    have htype : p.content.notification.messageType = typeName := by rw [hp]; rfl
    rw [htype] at hts hpy
    have hforeign : ¬ ValidMessageType p.content.notification.messageType := htype ▸ foreign
    have hshutdown : typeName ≠ "system.shutdown" := by
      intro heq
      exact foreign (heq ▸ by decide)
    have hrust := Rust.handlePush_foreign json.rust kind autoUnwrap fromStr hforeign
    constructor
    · have hemergent : isEmergentMessageType typeName = false := by
        rw [← Bool.not_eq_true, isEmergentMessageType_iff]
        exact foreign
      exact hs.ts.step hrust
        (handlePushWith_foreign json.ts kind autoUnwrap .typescript id hts hshutdown hemergent)
        s.ts.room_none rfl
    · exact hs.go.step hrust (Go.handlePush_foreign json.go kind autoUnwrap hforeign) hroom.1 rfl
    · have hemergent : Py.isEmergentMessageType typeName = false := by
        rw [← Bool.not_eq_true, Py.isEmergentMessageType_iff line]
        exact foreign
      exact hs.py.step hrust
        (handlePushWith_foreign json.py kind autoUnwrap .python Py.fromWire hpy hshutdown hemergent)
        hroom.2 rfl

theorem SameStream.take_rust {f g : WireMessage → WireMessage} {rust other : PushClient}
    (hs : SameStream f g rust other) : SameStream f g rust.take other := by
  obtain ⟨hregistered, hdelivered⟩ := rust.take_stream
  constructor
  · rw [hregistered, hs.registered]
  · rw [hdelivered, hs.delivered]

theorem SameStream.take {f g : WireMessage → WireMessage} {rust other : PushClient}
    (hs : SameStream f g rust other) : SameStream f g rust other.take := by
  obtain ⟨hregistered, hdelivered⟩ := other.take_stream
  constructor
  · rw [hregistered, hs.registered]
  · rw [hdelivered, hs.delivered]

theorem take_agree {s : PushClients} (hs : s.Agree d) (sdk : Dialect) : (s.take sdk).Agree d := by
  cases sdk with
  | rust => exact ⟨hs.ts.take_rust, hs.go.take_rust, hs.py.take_rust⟩
  | typescript => exact ⟨hs.ts.take, hs.go, hs.py⟩
  | python => exact ⟨hs.ts, hs.go, hs.py.take⟩
  | go => exact ⟨hs.ts, hs.go.take, hs.py⟩

theorem step_agree {s t : PushClients} {a : ClientsAction} (hs : s.Agree d)
    (hfits : s.Fits fromStr json d autoUnwrap a)
    (h : s.step fromStr json d pydantic kind autoUnwrap a = some t) : t.Agree d := by
  cases a with
  | push p =>
    obtain rfl := Option.some.inj h
    exact handlePush_agree pydantic kind hs hfits.1 hfits.2
  | take sdk =>
    obtain rfl := Option.some.inj h
    exact take_agree hs sdk

theorem SameStream.opened {f g : WireMessage → WireMessage} {rust other : PushClient}
    (hrust : rust.Opened) (hother : other.Opened) : SameStream f g rust other := by
  obtain ⟨hrust, htakenRust, hqueueRust⟩ := hrust
  obtain ⟨hother, htaken, hqueue⟩ := hother
  constructor
  · rw [hrust, hother]
  · simp only [PushClient.delivered, htakenRust, hqueueRust, htaken, hqueue]
    rfl

end

/-! ### A subscriber of everything -/

def onlyPosInt : Pydantic where
  int := fun
    | .number (.posInt n) => some (.posInt n)
    | _ => none
  posInt := fun _ => rfl

def noJson : JsonParsers := ⟨fun _ => none, fun _ => none, fun _ => none, fun _ => none⟩

def exactDoubles : Doubles := ⟨id, fun _ => rfl⟩

def pushedId : MessageId := ⟨⟨"msg", "01h455vb4pex5vsknk084sn02q"⟩, List.mem_singleton_self "msg"⟩

def pushed (messageType : MessageType) (payload : Value) (metadata : Option Value) : Push where
  notificationId := "n1"
  timestampMs := 7
  content := .message ⟨pushedId, messageType, ⟨"timer", validPrimitiveName_timer⟩, none, none, 7,
    payload, metadata⟩
  fresh := ⟨pushedId, 7⟩

def listening : PushClients :=
  ⟨⟨true, [], [], [], [], []⟩, ⟨true, [], [], [], [], []⟩, ⟨true, [], [], [], [], []⟩,
    ⟨true, [], [], [], [], []⟩⟩

def listen (pushes : List Push) : PushClients :=
  pushes.foldl (PushClients.handlePush readTypeId noJson exactDoubles onlyPosInt .sink true)
    listening

def tickPush : Push :=
  pushed ⟨"timer.tick", validMessageType_timerTick⟩ .null (some (.string "urgent"))

theorem validMessageType_topologyResponse : ValidMessageType "system.response.topology" := by
  decide

theorem validMessageType_shutdown : ValidMessageType "system.shutdown" := by decide

/-- The topology that somebody else asked for, as a `*` subscriber sees it. -/
def topologyPush : Push :=
  pushed ⟨"system.response.topology", validMessageType_topologyResponse⟩ .null none

def shutdownPush : Push :=
  pushed ⟨"system.shutdown", validMessageType_shutdown⟩ (.object [("kind", .string "Sink")]) none

/-! ### A user who reads nothing -/

def tickWire : WireMessage :=
  ⟨pushedId.id.toStr, "timer.tick", "timer", none, none, .posInt 7, .null, some (.string "urgent")⟩

theorem rust_tickPush (c : PushClient) :
    Rust.handlePush readTypeId noJson.rust .sink true c tickPush =
      if c.registered then c.send tickWire else c := rfl

theorem go_tickPush (c : PushClient) :
    Go.handlePush noJson.go .sink true c tickPush.body =
      if c.registered then c.push .go tickWire else c := rfl

theorem py_tickPush (c : PushClient) :
    Py.handlePush noJson.py .sink true onlyPosInt c tickPush.body =
      if c.registered then c.push .python (Py.fromWire tickWire) else c := rfl

/-- An open stream of which nothing was read, and which is within its limit. -/
structure PushClient.Unread (limit : ℕ) (c : PushClient) : Prop where
  registered : c.registered = true
  taken : c.taken = []
  short : c.queue.length ≤ limit

theorem PushClient.Unread.push {lang : Language} {limit : ℕ} {c : PushClient} (h : c.Unread limit)
    (hlimit : limit ∈ lang.capacity) (wire : WireMessage) : (c.push lang wire).Unread limit :=
  ⟨h.registered, h.taken, MessageStream.length_enqueue_le hlimit h.short wire⟩

theorem PushClient.Unread.delivered_le {limit : ℕ} {c : PushClient} (h : c.Unread limit) :
    c.delivered.length ≤ limit := by
  rw [PushClient.delivered, h.taken, List.nil_append]
  exact h.short

theorem listen_ticks (n : ℕ) :
    ((listen (List.replicate n tickPush)).rust.registered = true ∧
      (listen (List.replicate n tickPush)).rust.delivered.length = n) ∧
    (listen (List.replicate n tickPush)).go.Unread 256 ∧
    (listen (List.replicate n tickPush)).py.Unread 1000 := by
  induction n with
  | zero => exact ⟨⟨rfl, rfl⟩, ⟨rfl, rfl, Nat.zero_le _⟩, ⟨rfl, rfl, Nat.zero_le _⟩⟩
  | succ n ih =>
    obtain ⟨⟨hopen, hlength⟩, hgo, hpy⟩ := ih
    have hlisten : listen (List.replicate (n + 1) tickPush) =
        (listen (List.replicate n tickPush)).handlePush readTypeId noJson exactDoubles onlyPosInt
          .sink true tickPush := by
      rw [listen, List.replicate_succ', List.foldl_append]
      rfl
    rw [hlisten]
    refine ⟨?_, ?_, ?_⟩
    · rw [PushClients.handlePush, rust_tickPush, if_pos hopen]
      refine ⟨hopen, ?_⟩
      rw [PushClient.delivered_send, List.length_append, hlength, List.length_singleton]
    · rw [PushClients.handlePush, go_tickPush, if_pos hgo.registered]
      exact hgo.push rfl tickWire
    · rw [PushClients.handlePush, py_tickPush, if_pos hpy.registered]
      exact hpy.push rfl (Py.fromWire tickWire)

theorem listening_opened : listening.Opened :=
  ⟨⟨rfl, rfl, rfl⟩, ⟨rfl, rfl, rfl⟩, ⟨rfl, rfl, rfl⟩, ⟨rfl, rfl, rfl⟩⟩

theorem pushed_readAlike {messageType : MessageType} {metadata : Option Value} {payload : Value}
    (hkind : ∀ s, payload.get "kind" = some (.string s) → PlainKind s) {m : EmergentMessage}
    (h : (pushed messageType payload metadata).content = .message m) :
    ReadAlike readTypeId noJson exactDoubles true m := by
  have hm := PushContent.message.inj h
  subst hm
  constructor
  · constructor
    · show readTypeId pushedId.id.toStr = some pushedId.id
      decide
    · intro id hid
      cases hid
    · intro id hid
      cases hid
  · intro _ s _
    exact ⟨rfl, rfl, rfl⟩
  · exact hkind

theorem room_of_short {c : PushClient} {lang : Language} {limit : ℕ}
    (hlimit : lang.capacity = some limit) (h : c.queue.length < limit) : c.Room lang.capacity := by
  intro limit' hlimit'
  rw [hlimit] at hlimit'
  obtain rfl := Option.some.inj hlimit'
  exact h

end Emergent.Sdk

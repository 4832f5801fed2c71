import Emergent.Sdk.Bridge

/-!
# The loop of the push bridge (`sdks/rust/src/connection.rs`)

`push_to_message_stream` takes one notification after the other until one ends
it: a shutdown of its own kind, a receiver that is gone, the end of the channel,
or the panic of a builder. What it should have done is stated without the loop,
from the notifications before the first that may end it.
-/

namespace Emergent.Sdk

inductive BridgeEnd where
  | shutdown
  | receiverDropped
  | channelClosed
  | panicked
  deriving Repr, DecidableEq

/-- A notification, the id and the clock at hand when it is read, and whether the
stream still has a receiver then. -/
structure Delivery where
  notification : IpcPushNotification
  fresh : Fresh
  receives : Bool

namespace Delivery

def isShutdown (d : Delivery) : Bool := d.notification.messageType = "system.shutdown"

/-- Every notification whose type is a message type, a shutdown apart. -/
def isForwarded (d : Delivery) : Bool :=
  !d.isShutdown && carriesEmergentMessage d.notification.messageType

/-- The bridge may end here: at its own shutdown, or with nobody to forward to. -/
def ends (shutdownKind : String) (d : Delivery) : Bool :=
  (d.isShutdown && d.notification.closes shutdownKind) || (d.isForwarded && !d.receives)

/-- The payload is a message, or the source is a name to build one with. -/
def Buildable (fromStr : String → Option TypeId) (d : Delivery) : Prop :=
  (EmergentMessage.fromValue fromStr d.notification.payload).isSome = true ∨
    ValidPrimitiveName (d.notification.sourceActor.getD "unknown")

end Delivery

section
variable (fromStr : String → Option TypeId) (fromJson : String → Option Value)
  (shutdownKind : String) (autoUnwrap : Bool)

def Delivery.message (d : Delivery) : Option EmergentMessage :=
  received fromStr fromJson autoUnwrap d.fresh d.notification

/-- What is forwarded, and how the loop ends. -/
def pushToMessageStream : List Delivery → List EmergentMessage × BridgeEnd
  | [] => ([], .channelClosed)
  | d :: ds =>
    match bridge fromStr fromJson shutdownKind autoUnwrap d.fresh d.notification with
    | .skip => pushToMessageStream ds
    | .forward m =>
      if d.receives then
        let rest := pushToMessageStream ds
        (m :: rest.1, rest.2)
      else ([], .receiverDropped)
    -- the loop breaks at a shutdown; without one it is the panic of a builder
    | .stop => ([], if d.isShutdown then .shutdown else .panicked)

def beforeEnd (ds : List Delivery) : List Delivery := ds.takeWhile fun d => !d.ends shutdownKind

def fromEnd (ds : List Delivery) : List Delivery := ds.dropWhile fun d => !d.ends shutdownKind

def properEnd (ds : List Delivery) : BridgeEnd :=
  match fromEnd shutdownKind ds with
  | [] => .channelClosed
  | d :: _ => if d.isShutdown then .shutdown else .receiverDropped

/-- The loop ends where it may, and the message of every notification to forward
before that has been forwarded, in order and with nothing else. -/
def BridgesFaithfully (ds : List Delivery) : Prop :=
  let outcome := pushToMessageStream fromStr fromJson shutdownKind autoUnwrap ds
  outcome.2 = properEnd shutdownKind ds ∧
    outcome.1.map some = ((beforeEnd shutdownKind ds).filter Delivery.isForwarded).map
      (Delivery.message fromStr fromJson autoUnwrap)

/-- The notifications up to the end, that one included. -/
def reached (ds : List Delivery) : List Delivery :=
  beforeEnd shutdownKind ds ++ (fromEnd shutdownKind ds).take 1

end

/-! ### One turn -/

section
variable {fromStr : String → Option TypeId} {fromJson : String → Option Value}
  {shutdownKind : String} {autoUnwrap : Bool} {d : Delivery} {ds : List Delivery}

theorem carries_valid {messageType : String} (h : carriesEmergentMessage messageType = true) :
    ValidMessageType messageType := by
  unfold carriesEmergentMessage at h
  cases hnew : MessageType.new messageType with
  | error e =>
    rw [hnew] at h
    cases h
  | ok t =>
    rw [← MessageType.new_value hnew]
    exact t.valid

theorem fallbackMessage_isSome_iff (fresh : Fresh) {n : IpcPushNotification}
    (h : carriesEmergentMessage n.messageType = true) :
    (fallbackMessage fresh n).isSome = true ↔ ValidPrimitiveName (n.sourceActor.getD "unknown") := by
  have htype := MessageType.new_of_valid (carries_valid h)
  cases hname : PrimitiveName.new (n.sourceActor.getD "unknown") with
  | ok name =>
    have hvalue := PrimitiveName.new_value hname
    have hvalid : ValidPrimitiveName (n.sourceActor.getD "unknown") := by
      rw [← hvalue]
      exact name.valid
    simp [fallbackMessage, EmergentMessage.tryNewWithIdAndTimestamp, htype, hname, hvalid,
      Except.toOption, bind, Except.bind, pure, Except.pure]
  | error e =>
    have hinvalid : ¬ ValidPrimitiveName (n.sourceActor.getD "unknown") := by
      intro hvalid
      rw [PrimitiveName.new_of_valid hvalid] at hname
      cases hname
    simp [fallbackMessage, EmergentMessage.tryNewWithIdAndTimestamp, htype, hname, hinvalid,
      Except.toOption, bind, Except.bind, pure, Except.pure]

variable (fromStr fromJson autoUnwrap) in
theorem message_isSome_iff (h : d.isForwarded = true) :
    (d.message fromStr fromJson autoUnwrap).isSome = true ↔ d.Buildable fromStr := by
  have hcarries : carriesEmergentMessage d.notification.messageType = true :=
    (Bool.and_eq_true_iff.mp h).2
  have hfallback := fallbackMessage_isSome_iff d.fresh hcarries
  unfold Delivery.message received Delivery.Buildable
  rw [Option.isSome_map, Option.isSome_or, Bool.or_eq_true, hfallback]

variable (fromStr fromJson shutdownKind autoUnwrap) in
theorem bridge_shutdown (h : d.isShutdown = true) :
    bridge fromStr fromJson shutdownKind autoUnwrap d.fresh d.notification =
      if d.notification.closes shutdownKind then .stop else .skip := by
  have htype : d.notification.messageType = "system.shutdown" := of_decide_eq_true h
  unfold bridge
  rw [if_pos htype]

variable (fromStr fromJson shutdownKind autoUnwrap) in
theorem bridge_ordinary (h : d.isShutdown = false) :
    bridge fromStr fromJson shutdownKind autoUnwrap d.fresh d.notification =
      if d.isForwarded then
        match d.message fromStr fromJson autoUnwrap with
        | some m => .forward m
        | none => .stop
      else .skip := by
  have htype : ¬ d.notification.messageType = "system.shutdown" := of_decide_eq_false h
  have hforwarded : d.isForwarded = carriesEmergentMessage d.notification.messageType := by
    rw [Delivery.isForwarded, h]
    rfl
  unfold bridge
  rw [if_neg htype, hforwarded]
  cases carriesEmergentMessage d.notification.messageType with
  | true => rfl
  | false => rfl

theorem ends_skipped (hforwarded : d.isForwarded = false)
    (hcloses : (d.isShutdown && d.notification.closes shutdownKind) = false) :
    d.ends shutdownKind = false := by
  rw [Delivery.ends, hcloses, hforwarded]
  rfl

/-! ### The specification, one notification at a time -/

theorem beforeEnd_cons (h : d.ends shutdownKind = false) :
    beforeEnd shutdownKind (d :: ds) = d :: beforeEnd shutdownKind ds := by
  simp [beforeEnd, h]

theorem fromEnd_cons (h : d.ends shutdownKind = false) :
    fromEnd shutdownKind (d :: ds) = fromEnd shutdownKind ds := by
  simp [fromEnd, h]

theorem beforeEnd_of_ends (h : d.ends shutdownKind = true) :
    beforeEnd shutdownKind (d :: ds) = [] := by
  simp [beforeEnd, h]

theorem fromEnd_of_ends (h : d.ends shutdownKind = true) :
    fromEnd shutdownKind (d :: ds) = d :: ds := by
  simp [fromEnd, h]

theorem reached_cons (h : d.ends shutdownKind = false) :
    reached shutdownKind (d :: ds) = d :: reached shutdownKind ds := by
  rw [reached, beforeEnd_cons h, fromEnd_cons h]
  rfl

theorem reached_of_ends (h : d.ends shutdownKind = true) :
    reached shutdownKind (d :: ds) = [d] := by
  rw [reached, beforeEnd_of_ends h, fromEnd_of_ends h]
  rfl

theorem properEnd_ne_panicked : properEnd shutdownKind ds ≠ .panicked := by
  unfold properEnd
  split
  · decide
  · split_ifs <;> decide

/-- A skipped notification changes neither what is done nor what should be. -/
theorem faithful_skip (hturn : bridge fromStr fromJson shutdownKind autoUnwrap d.fresh
      d.notification = .skip) (hends : d.ends shutdownKind = false)
    (hforwarded : d.isForwarded = false) :
    BridgesFaithfully fromStr fromJson shutdownKind autoUnwrap (d :: ds) ↔
      BridgesFaithfully fromStr fromJson shutdownKind autoUnwrap ds := by
  simp only [BridgesFaithfully, pushToMessageStream, hturn, properEnd, fromEnd_cons hends,
    beforeEnd_cons hends, List.filter_cons, hforwarded, Bool.false_eq_true, if_false]

theorem faithful_forward {m : EmergentMessage}
    (hturn : bridge fromStr fromJson shutdownKind autoUnwrap d.fresh d.notification = .forward m)
    (hmessage : d.message fromStr fromJson autoUnwrap = some m)
    (hforwarded : d.isForwarded = true) (hreceives : d.receives = true)
    (hends : d.ends shutdownKind = false) :
    BridgesFaithfully fromStr fromJson shutdownKind autoUnwrap (d :: ds) ↔
      BridgesFaithfully fromStr fromJson shutdownKind autoUnwrap ds := by
  simp only [BridgesFaithfully, pushToMessageStream, hturn, properEnd, fromEnd_cons hends,
    beforeEnd_cons hends, List.filter_cons, hforwarded, hreceives, if_true, List.map_cons,
    hmessage, List.cons.injEq, true_and]

theorem faithful_ends (ending : BridgeEnd) (hends : d.ends shutdownKind = true)
    (hturn : pushToMessageStream fromStr fromJson shutdownKind autoUnwrap (d :: ds) = ([], ending))
    (hending : ending = if d.isShutdown then .shutdown else .receiverDropped) :
    BridgesFaithfully fromStr fromJson shutdownKind autoUnwrap (d :: ds) := by
  simp only [BridgesFaithfully, hturn, properEnd, fromEnd_of_ends hends, beforeEnd_of_ends hends,
    List.filter_nil, List.map_nil, and_true]
  exact hending

theorem unfaithful_panic (hshutdown : d.isShutdown = false)
    (hturn : bridge fromStr fromJson shutdownKind autoUnwrap d.fresh d.notification = .stop) :
    ¬ BridgesFaithfully fromStr fromJson shutdownKind autoUnwrap (d :: ds) := by
  intro h
  have hended := h.1
  simp only [pushToMessageStream, hturn, hshutdown, Bool.false_eq_true, if_false] at hended
  exact properEnd_ne_panicked hended.symm

/-! ### One more notification in front -/

theorem forall_reached_cons (hends : d.ends shutdownKind = false)
    (hbuilt : d.isForwarded = true → d.Buildable fromStr) :
    (∀ e ∈ reached shutdownKind (d :: ds), e.isForwarded = true → e.Buildable fromStr) ↔
      ∀ e ∈ reached shutdownKind ds, e.isForwarded = true → e.Buildable fromStr := by
  rw [reached_cons hends, List.forall_mem_cons]
  exact ⟨fun h => h.2, fun h => ⟨hbuilt, h⟩⟩

theorem forall_reached_of_ends (hends : d.ends shutdownKind = true)
    (hbuilt : d.isForwarded = true → d.Buildable fromStr) :
    ∀ e ∈ reached shutdownKind (d :: ds), e.isForwarded = true → e.Buildable fromStr := by
  rw [reached_of_ends hends]
  intro e he
  rw [List.mem_singleton.mp he]
  exact hbuilt

theorem mem_reached_head : d ∈ reached shutdownKind (d :: ds) := by
  cases hends : d.ends shutdownKind with
  | true => rw [reached_of_ends hends]; exact List.mem_singleton_self d
  | false => rw [reached_cons hends]; exact List.mem_cons_self

/-- A shutdown either ends the loop or is skipped; it is never forwarded. -/
theorem faithful_shutdown_iff (hshutdown : d.isShutdown = true)
    (ih : BridgesFaithfully fromStr fromJson shutdownKind autoUnwrap ds ↔
      ∀ e ∈ reached shutdownKind ds, e.isForwarded = true → e.Buildable fromStr) :
    BridgesFaithfully fromStr fromJson shutdownKind autoUnwrap (d :: ds) ↔
      ∀ e ∈ reached shutdownKind (d :: ds), e.isForwarded = true → e.Buildable fromStr := by
  have hforwarded : d.isForwarded = false := by
    rw [Delivery.isForwarded, hshutdown]
    rfl
  have hbuilt : d.isForwarded = true → d.Buildable fromStr := by
    intro h
    rw [hforwarded] at h
    cases h
  have hturn := bridge_shutdown fromStr fromJson shutdownKind autoUnwrap hshutdown
  cases hcloses : d.notification.closes shutdownKind with
  | true =>
    have hends : d.ends shutdownKind = true := by
      rw [Delivery.ends, hshutdown, hcloses]
      rfl
    rw [hcloses, if_pos rfl] at hturn
    have hfaithful : BridgesFaithfully fromStr fromJson shutdownKind autoUnwrap (d :: ds) := by
      refine faithful_ends .shutdown hends ?_ ?_
      · simp only [pushToMessageStream, hturn, hshutdown, if_true]
      · rw [hshutdown, if_pos rfl]
    exact iff_of_true hfaithful (forall_reached_of_ends hends hbuilt)
  | false =>
    have hends : d.ends shutdownKind = false :=
      ends_skipped hforwarded (by rw [hcloses, Bool.and_false])
    rw [hcloses, if_neg Bool.false_ne_true] at hturn
    rw [faithful_skip hturn hends hforwarded, ih, forall_reached_cons hends hbuilt]

/-- A notification to forward whose message can be built: the loop goes on when the
receiver is still there and ends properly when it is not. -/
theorem faithful_built_iff {m : EmergentMessage} (hshutdown : d.isShutdown = false)
    (hforwarded : d.isForwarded = true)
    (hmessage : d.message fromStr fromJson autoUnwrap = some m)
    (hturn : bridge fromStr fromJson shutdownKind autoUnwrap d.fresh d.notification = .forward m)
    (ih : BridgesFaithfully fromStr fromJson shutdownKind autoUnwrap ds ↔
      ∀ e ∈ reached shutdownKind ds, e.isForwarded = true → e.Buildable fromStr) :
    BridgesFaithfully fromStr fromJson shutdownKind autoUnwrap (d :: ds) ↔
      ∀ e ∈ reached shutdownKind (d :: ds), e.isForwarded = true → e.Buildable fromStr := by
  have hbuilt : d.Buildable fromStr := by
    refine (message_isSome_iff fromStr fromJson autoUnwrap hforwarded).mp ?_
    rw [hmessage]
    rfl
  have hends : d.ends shutdownKind = !d.receives := by
    rw [Delivery.ends, hshutdown, hforwarded, Bool.false_and, Bool.false_or, Bool.true_and]
  cases hreceives : d.receives with
  | true =>
    rw [hreceives] at hends
    rw [faithful_forward hturn hmessage hforwarded hreceives hends, ih,
      forall_reached_cons hends fun _ => hbuilt]
  | false =>
    rw [hreceives] at hends
    have hfaithful : BridgesFaithfully fromStr fromJson shutdownKind autoUnwrap (d :: ds) := by
      refine faithful_ends .receiverDropped hends ?_ ?_
      · simp only [pushToMessageStream, hturn, hreceives, Bool.false_eq_true, if_false]
      · rw [hshutdown, if_neg Bool.false_ne_true]
    exact iff_of_true hfaithful (forall_reached_of_ends hends fun _ => hbuilt)

theorem faithful_ordinary_iff (hshutdown : d.isShutdown = false)
    (ih : BridgesFaithfully fromStr fromJson shutdownKind autoUnwrap ds ↔
      ∀ e ∈ reached shutdownKind ds, e.isForwarded = true → e.Buildable fromStr) :
    BridgesFaithfully fromStr fromJson shutdownKind autoUnwrap (d :: ds) ↔
      ∀ e ∈ reached shutdownKind (d :: ds), e.isForwarded = true → e.Buildable fromStr := by
  have hturn := bridge_ordinary fromStr fromJson shutdownKind autoUnwrap hshutdown
  cases hforwarded : d.isForwarded with
  | false =>
    have hends : d.ends shutdownKind = false :=
      ends_skipped hforwarded (by rw [hshutdown, Bool.false_and])
    rw [hforwarded, if_neg Bool.false_ne_true] at hturn
    have hbuilt : d.isForwarded = true → d.Buildable fromStr := by
      intro h
      rw [hforwarded] at h
      cases h
    rw [faithful_skip hturn hends hforwarded, ih, forall_reached_cons hends hbuilt]
  | true =>
    rw [hforwarded, if_pos rfl] at hturn
    cases hmessage : d.message fromStr fromJson autoUnwrap with
    | none =>
      -- the builder panics: neither side holds
      rw [hmessage] at hturn
      refine iff_of_false (unfaithful_panic hshutdown hturn) ?_
      intro h
      have hsome := (message_isSome_iff fromStr fromJson autoUnwrap hforwarded).mpr
        (h d mem_reached_head hforwarded)
      rw [hmessage] at hsome
      cases hsome
    | some m =>
      rw [hmessage] at hturn
      exact faithful_built_iff hshutdown hforwarded hmessage hturn ih

end

/-- The bridge does what it should exactly when, up to its end, every notification
it has to forward carries a message or comes from a source with a valid name. -/
theorem pushToMessageStream_faithful_iff (fromStr : String → Option TypeId)
    (fromJson : String → Option Value) (shutdownKind : String) (autoUnwrap : Bool)
    (ds : List Delivery) :
    BridgesFaithfully fromStr fromJson shutdownKind autoUnwrap ds ↔
      ∀ d ∈ reached shutdownKind ds, d.isForwarded = true → d.Buildable fromStr := by
  induction ds with
  | nil =>
    constructor
    · intro _ d hd
      cases hd
    · intro _
      exact ⟨rfl, rfl⟩
  | cons d ds ih =>
    cases hshutdown : d.isShutdown with
    | true => exact faithful_shutdown_iff hshutdown ih
    | false => exact faithful_ordinary_iff hshutdown ih

def sampleFresh : Fresh :=
  ⟨⟨⟨"msg", "01h455vb4pex5vsknk084sn02q"⟩, List.mem_singleton_self "msg"⟩, 1⟩

/-- A broadcast that is no message, from an actor with a capital letter, and one
more tick behind it. -/
def capitalSource : List Delivery :=
  [⟨⟨"timer.tick", some "Timer", .string "tick"⟩, sampleFresh, true⟩,
    ⟨⟨"timer.tick", some "timer", .string "tick"⟩, sampleFresh, true⟩]

theorem bridge_dies_of_source :
    (pushToMessageStream (fun _ => none) (fun _ => none) "handler" false capitalSource).2 =
        .panicked ∧
      ¬ BridgesFaithfully (fun _ => none) (fun _ => none) "handler" false capitalSource := by
  have hpanicked : (pushToMessageStream (fun _ => none) (fun _ => none) "handler" false
      capitalSource).2 = .panicked := by decide
  refine ⟨hpanicked, ?_⟩
  intro h
  have hended := h.1
  rw [hpanicked] at hended
  exact properEnd_ne_panicked hended.symm

end Emergent.Sdk

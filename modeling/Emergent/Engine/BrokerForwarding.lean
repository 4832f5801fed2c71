import Emergent.Engine.BrokerOrigin

/-!
# Whatever the broker accepts it forwards

Each accepted message is forwarded once and in the order of acceptance: itself, or
the engine's answer when the message asks the engine something. Beside these the
engine forwards its reports of refused operations and nothing else. Whatever the
stores answer and whatever the other tasks do, the broker can take its next turn, and
four of its turns are enough for a message.
-/

namespace Emergent.Engine
open Emergent.Sdk Kit Kit.WriteAhead

/-- A publish that the engine answers. -/
def BrokerMessage.Asks : BrokerMessage → Prop
  | .emergent m _ => EngineAnswered m
  | .systemEvent _ => False

/-- What is forwarded for a message, given what the broker reads for it. -/
def BrokerMessage.forwarded (reading : EngineReading) : BrokerMessage → EmergentMessage
  | .emergent m _ => (answer reading m).getD m
  | .systemEvent m => m

/-- The message that reports a refusal, where the name of the primitive forms a message
type. -/
def RejectionReport.event (report : RejectionReport) (id : MessageId) (timestampMs : UInt64) :
    Option EmergentMessage :=
  (EmergentMessage.tryNewWithIdAndTimestamp (rejectionEventType report.primitive) id
    timestampMs).toOption.map fun m => { m with source := engineSource, payload := report.toValue }

theorem BrokerMessage.forwarded_of_not_asks {job : BrokerMessage} (h : ¬ job.Asks)
    (reading : EngineReading) : job.forwarded reading = job.inner := by
  cases job with
  | systemEvent m => rfl
  | emergent m shouldReply =>
    have hanswer : answer reading m = none := answer_eq_none h reading
    rw [forwarded, hanswer]
    rfl

theorem BrokerMessage.forwarded_of_asks {job : BrokerMessage} (h : job.Asks)
    (reading : EngineReading) :
    answer reading job.inner = some (job.forwarded reading) ∧
      (job.forwarded reading).source = engineSource ∧
      (job.forwarded reading).correlationId = job.inner.correlationId := by
  cases job with
  | systemEvent m => exact h.elim
  | emergent m shouldReply =>
    cases hanswer : answer reading m with
    | none =>
      unfold answer at hanswer
      split_ifs at hanswer with hsubscriptions htopology
      exact absurd h (not_or.mpr ⟨hsubscriptions, htopology⟩)
    | some response =>
      have hforwarded : (BrokerMessage.emergent m shouldReply).forwarded reading = response := by
        rw [forwarded, hanswer]
        rfl
      rw [hforwarded]
      refine ⟨hanswer, ?_⟩
      unfold answer at hanswer
      split_ifs at hanswer with hsubscriptions htopology
      · cases hanswer
        exact ⟨rfl, rfl⟩
      · cases hanswer
        exact ⟨rfl, rfl⟩

namespace BrokerState

/-! ### What a program forwards -/

def forwardsOf (ops : List BrokerOp) : List EmergentMessage :=
  (ops.filterMap releasedOp).filterMap forwardOf

theorem forwardsOf_append (ops more : List BrokerOp) :
    forwardsOf (ops ++ more) = forwardsOf ops ++ forwardsOf more := by
  simp [forwardsOf]

theorem forwardsOf_prefix {ops more : List BrokerOp} (h : ops <+: more) :
    forwardsOf ops <+: forwardsOf more := by
  obtain ⟨rest, rfl⟩ := h
  rw [forwardsOf_append]
  exact List.prefix_append _ _

theorem forwardsOf_suffix {ops more : List BrokerOp} (h : ops <:+ more) :
    forwardsOf ops <:+ forwardsOf more := by
  obtain ⟨earlier, rfl⟩ := h
  rw [forwardsOf_append]
  exact List.suffix_append _ _

theorem forwardsOf_ackPublish (m : EmergentMessage) (shouldReply : Bool) :
    forwardsOf (ackPublish m shouldReply) = [] := by
  cases shouldReply <;> rfl

/-- Whichever way a message is served, one message is forwarded for it. -/
theorem forwardsOf_handle (reading : EngineReading) (job : BrokerMessage) :
    forwardsOf (handle reading job) = [job.forwarded reading] := by
  cases job with
  | systemEvent m => rfl
  | emergent m shouldReply =>
    simp only [handle, BrokerMessage.forwarded]
    cases answer reading m <;> rw [forwardsOf_append, forwardsOf_ackPublish] <;> rfl

theorem forwardsOf_report (reading : MessageId × UInt64) (rejection : RejectionReport) :
    forwardsOf (report reading rejection) = (rejection.event reading.1 reading.2).toList := by
  simp only [report, reportRejection, RejectionReport.event]
  cases EmergentMessage.tryNewWithIdAndTimestamp (rejectionEventType rejection.primitive) reading.1
    reading.2 <;> rfl

theorem forwardsOf_handles (taken : List (EngineReading × BrokerMessage)) :
    forwardsOf (taken.flatMap fun e => handle e.1 e.2) = taken.map fun e => e.2.forwarded e.1 := by
  induction taken with
  | nil => rfl
  | cons e taken ih =>
    rw [List.flatMap_cons, forwardsOf_append, forwardsOf_handle, ih]
    rfl

theorem forwardsOf_reports (reported : List ((MessageId × UInt64) × RejectionReport)) :
    forwardsOf (reported.flatMap fun e => report e.1 e.2) =
      reported.filterMap fun e => e.2.event e.1.1 e.1.2 := by
  induction reported with
  | nil => rfl
  | cons e reported ih =>
    rw [List.flatMap_cons, forwardsOf_append, forwardsOf_report, ih, List.filterMap_cons]
    cases e.2.event e.1.1 e.1.2 <;> rfl

theorem length_handle_le (reading : EngineReading) (job : BrokerMessage) :
    (handle reading job).length ≤ 3 := by
  have hack : ∀ m shouldReply, (ackPublish m shouldReply).length ≤ 1 := by
    intro m shouldReply
    cases shouldReply <;> simp [ackPublish]
  cases job with
  | systemEvent m => simp [handle]
  | emergent m shouldReply =>
    have hlength := hack m shouldReply
    simp only [handle]
    split <;> simp only [List.length_append, List.length_cons, List.length_nil] <;> omega

/-! ### Turns of the broker -/

/-- The broker takes a message up, or performs an operation of the one in hand. -/
def brokerTurn : BrokerAction → Bool
  | .takeMessage _ => true
  | .handlerStep _ => true
  | _ => false

section
variable (policy : EnginePolicy) (fromStr : String → Option TypeId)

/-- The broker has nothing to do, or its next turn is open to it whatever it reads and
whatever the stores answer. -/
def NeverHeldUp (s : BrokerState) : Prop :=
  (s.handler = [] ∧ s.inbox = []) ∨
    (∀ reading, (s.step policy fromStr (.takeMessage reading)).isSome) ∨
    ∀ faults, (s.step policy fromStr (.handlerStep faults)).isSome

theorem neverHeldUp (s : BrokerState) : s.NeverHeldUp policy fromStr := by
  cases hhandler : s.handler with
  | cons op ops => exact Or.inr (Or.inr fun faults => by simp [BrokerState.step, hhandler])
  | nil =>
    cases hinbox : s.inbox with
    | nil => exact Or.inl ⟨hhandler, hinbox⟩
    | cons m inbox =>
      exact Or.inr (Or.inl fun reading => by simp [BrokerState.step, hhandler, hinbox])

end

section
variable {policy : EnginePolicy} {fromStr : String → Option TypeId} {stores : EventStoreWrapper}
  {actions : List BrokerAction} {s t : BrokerState}

theorem length_opsOf_performed {a : BrokerAction} (h : s.step policy fromStr a = some t) :
    (s.taken a).length + (opsOf .broker (s.performed a)).length =
      [a].countP brokerTurn := by
  cases a with
  | takeMessage reading =>
    simp only [BrokerState.step] at h
    split at h
    · rename_i m inbox _ hinbox
      simp [taken, performed, opsOf, brokerTurn, hinbox]
    · cases h
  | handlerStep faults =>
    simp only [BrokerState.step] at h
    split at h
    · rename_i op ops hops
      simp [taken, performed, opsOf, brokerTurn, hops]
    · cases h
  | reporterStep faults =>
    cases hreporter : s.reporter <;> simp [taken, performed, opsOf, brokerTurn, hreporter]
  | _ => rfl

/-- Every turn of the broker takes up a message or performs an operation, and the last
message taken up is the one in hand. -/
theorem run_turns (hrun : run (BrokerState.step policy fromStr) (start stores) actions = some s) :
    (served policy fromStr stores actions).length +
        (opsOf .broker (log policy fromStr stores actions)).length =
      actions.countP brokerTurn ∧
    AtHand handle (served policy fromStr stores actions) s.handler := by
  refine run_reached (I := fun as s =>
    (served policy fromStr stores as).length + (opsOf .broker (log policy fromStr stores as)).length
        = as.countP brokerTurn ∧
      AtHand handle (served policy fromStr stores as) s.handler) ⟨rfl, atHand_start⟩ ?_ hrun
  intro as t a u hreached ⟨hturns, hhand⟩ hu
  have hone := length_opsOf_performed hu
  have hserves := step_serves hu
  simp only [served, log, outputs_snoc hreached, opsOf_append, List.length_append,
    List.countP_append] at hturns hhand ⊢
  exact ⟨by omega, hhand.serve hserves.broker⟩

/-! ### Runs -/

/-- Where each accepted message and each report of a refusal is. -/
structure Forwarding (policy : EnginePolicy) (fromStr : String → Option TypeId)
    (stores : EventStoreWrapper) (actions : List BrokerAction) (s : BrokerState) : Prop where
  accepted : accepted policy fromStr stores actions =
    (served policy fromStr stores actions).map Prod.snd ++ s.inbox
  inOrder : forwardsOf (opsOf .broker (log policy fromStr stores actions)) ++
      forwardsOf s.handler =
    (served policy fromStr stores actions).map fun e => e.2.forwarded e.1
  inHand : (forwardsOf s.handler).length ≤ 1
  refused : reports policy fromStr stores actions =
    (told policy fromStr stores actions).map Prod.snd ++ s.rejections
  told : forwardsOf (opsOf .reporter (log policy fromStr stores actions)) ++
      forwardsOf s.reporter =
    (told policy fromStr stores actions).filterMap fun e => e.2.event e.1.1 e.1.2
  /-- Nothing else is forwarded. -/
  together : s.forwards = forwardsOf ((log policy fromStr stores actions).map Prod.snd)

theorem length_forwardsOf_handler (h : AtHand handle (served policy fromStr stores actions)
    s.handler) : (forwardsOf s.handler).length ≤ 1 := by
  rcases h with hidle | ⟨earlier, e, _, hsuffix⟩
  · rw [hidle]
    exact Nat.zero_le 1
  · have hleft := (forwardsOf_suffix hsuffix).length_le
    rw [forwardsOf_handle] at hleft
    exact hleft

theorem run_forwarding
    (hrun : run (BrokerState.step policy fromStr) (start stores) actions = some s) :
    Forwarding policy fromStr stores actions s := by
  obtain ⟨⟨haccepted, hprograms⟩, ⟨hreports, htold⟩, hreleases⟩ := run_serves_in_order hrun
  exact {
    accepted := haccepted
    inOrder := by rw [← forwardsOf_append, ← hprograms, forwardsOf_handles]
    inHand := length_forwardsOf_handler (run_turns hrun).2
    refused := hreports
    told := by rw [← forwardsOf_append, ← htold, forwardsOf_reports]
    together := by
      rw [forwards, hreleases]
      rfl }

/-- After four turns for each of them the first messages have been forwarded. -/
theorem forwarded_of_turns
    (hrun : run (BrokerState.step policy fromStr) (start stores) actions = some s) {n : ℕ}
    (hturns : 4 * n ≤ actions.countP brokerTurn) :
    n ≤ (served policy fromStr stores actions).length ∧
      (((served policy fromStr stores actions).take n).map fun e => e.2.forwarded e.1) <+:
        forwardsOf (opsOf .broker (log policy fromStr stores actions)) := by
  obtain ⟨hcount, hhand⟩ := run_turns hrun
  obtain ⟨hn, hfirst⟩ := (run_serves_in_order hrun).1.performed_of_turns hhand (k := 3) (n := n)
    (fun e _ => length_handle_le e.1 e.2) (hcount ▸ hturns)
  refine ⟨hn, ?_⟩
  rw [← forwardsOf_handles]
  exact forwardsOf_prefix hfirst

/-- Every accepted message is forwarded once, in the order of acceptance, as it is or as
the engine's answer under its correlation id, or it is in hand or in the inbox; beside
these the reports of the refusals are forwarded and nothing else. A broker that is not idle
can take its next turn, and the first messages are out after four of its turns for each. -/
theorem run_forwards_complete
    (hrun : run (BrokerState.step policy fromStr) (start stores) actions = some s) :
    Forwarding policy fromStr stores actions s ∧
      (∀ job : BrokerMessage, ∀ reading,
        (¬ job.Asks → job.forwarded reading = job.inner) ∧
        (job.Asks → answer reading job.inner = some (job.forwarded reading) ∧
          (job.forwarded reading).source = engineSource ∧
          (job.forwarded reading).correlationId = job.inner.correlationId)) ∧
      s.NeverHeldUp policy fromStr ∧
      ∀ n, 4 * n ≤ actions.countP brokerTurn →
        n ≤ (served policy fromStr stores actions).length ∧
          (((served policy fromStr stores actions).take n).map fun e => e.2.forwarded e.1) <+:
            forwardsOf (opsOf .broker (log policy fromStr stores actions)) :=
  ⟨run_forwarding hrun,
    fun _ reading => ⟨fun h => BrokerMessage.forwarded_of_not_asks h reading,
      fun h => BrokerMessage.forwarded_of_asks h reading⟩,
    neverHeldUp policy fromStr s, fun _ hturns => forwarded_of_turns hrun hturns⟩

/-- The first of the timer's two ticks is out after four turns, the second is in hand. -/
theorem run_forwards_complete_timer :
    ∃ s, run (BrokerState.step timerConsolePolicy readTypeId) (start bothStores)
          (twoTicks.take 12) = some s ∧
      s.forwards.map (fun m => m.messageType.value) = ["timer.tick"] ∧
      (forwardsOf s.handler).map (fun m => m.messageType.value) = ["timer.tick"] ∧
      (((served timerConsolePolicy readTypeId bothStores (twoTicks.take 12)).take 1).map
          fun e => e.2.forwarded e.1) <+:
        forwardsOf (opsOf .broker
          (log timerConsolePolicy readTypeId bothStores (twoTicks.take 12))) := by
  have hforwards : (run (BrokerState.step timerConsolePolicy readTypeId) (start bothStores)
      (twoTicks.take 12)).map (fun s => (s.forwards.map fun m => m.messageType.value,
        (forwardsOf s.handler).map fun m => m.messageType.value)) =
      some (["timer.tick"], ["timer.tick"]) := by decide
  obtain ⟨s, hrun, hs⟩ := Option.map_eq_some_iff.mp hforwards
  obtain ⟨hout, hleft⟩ := Prod.mk.inj hs
  obtain ⟨_, _, _, hprompt⟩ := run_forwards_complete hrun
  exact ⟨s, hrun, hout, hleft, (hprompt 1 (by decide)).2⟩

end

end BrokerState

end Emergent.Engine

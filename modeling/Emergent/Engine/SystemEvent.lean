import Emergent.Engine.Declarations
import Emergent.Engine.Lifecycle
import Emergent.Sdk.Types

/-!
# Lifecycle events (`primitive_actor.rs`)

The `system.*.<name>` events an actor and its tasks broadcast. Building one can
fail on the name; a `PrimitiveName` always forms the four event types, so none
of an actor's events is ever skipped.
-/

namespace Emergent.Engine
open Emergent.Sdk

/-- The registered part of `PrimitiveInfo`; the live part is `PrimitiveStatus`. -/
structure PrimitiveInfo where
  name : PrimitiveName
  kind : PrimitiveKind
  publishes : List String
  subscribes : List String
  deriving DecidableEq

structure SystemEventPayload where
  name : String
  kind : String
  pid : Option Pid
  publishes : List String
  subscribes : List String
  error : Option String
  restartAttempt : Option UInt32
  deriving Repr, DecidableEq

def SystemEventPayload.new (info : PrimitiveInfo) (pid : Option Pid) (error : Option String)
    (restartAttempt : Option UInt32) : SystemEventPayload where
  name := info.name.value
  kind := info.kind.asStr
  pid := pid
  publishes := info.publishes
  subscribes := info.subscribes
  error := error
  restartAttempt := restartAttempt

structure SystemEvent where
  messageType : MessageType
  payload : SystemEventPayload
  deriving DecidableEq

inductive EventType where
  | started
  | stopped
  | error
  | restarted
  deriving Repr, DecidableEq

def EventType.asStr : EventType → String
  | .started => "system.started"
  | .stopped => "system.stopped"
  | .error => "system.error"
  | .restarted => "system.restarted"

def EventType.forName (eventType : EventType) (name : String) : String :=
  eventType.asStr ++ "." ++ name

def createSystemEvent (eventType : EventType) (info : PrimitiveInfo) (pid : Option Pid)
    (error : Option String) : Except InvalidMessageType SystemEvent :=
  let payload :=
    match eventType, error with
    | .started, none => SystemEventPayload.new info (some (pid.getD 0)) none none
    | .stopped, none => .new info pid none none
    | _, some err => .new info pid (some err) none
    | _, none => .new info pid none none
  (MessageType.new (eventType.forName info.name.value)).map fun t => ⟨t, payload⟩

def createRestartedEvent (info : PrimitiveInfo) (pid : Pid) (attempt : UInt32) :
    Except InvalidMessageType SystemEvent :=
  (MessageType.new (EventType.restarted.forName info.name.value)).map
    fun t => ⟨t, .new info (some pid) none (some attempt)⟩

/-- `broadcast_lifecycle_event`: an event that could not be built is skipped. -/
def broadcastLifecycleEvent (events : List SystemEvent)
    (event : Except InvalidMessageType SystemEvent) : List SystemEvent :=
  match event with
  | .ok event => events ++ [event]
  | .error _ => events

/-! ### A primitive name forms every event type -/

theorem not_twoDots_iff {l : List Char} :
    ¬ ['.', '.'] <:+: l ↔ l.IsChain (fun a b => ¬ (a = '.' ∧ b = '.')) := by
  rw [List.isChain_iff_forall_rel_of_append_cons_cons]
  constructor
  · rintro h a b l₁ l₂ rfl ⟨rfl, rfl⟩
    exact h ⟨l₁, l₂, by simp⟩
  · rintro h ⟨l₁, l₂, hl⟩
    exact @h '.' '.' l₁ l₂ (by rw [← hl]; simp) ⟨rfl, rfl⟩

theorem nameChar_typeChar {c : Char} (h : nameChar c = true) : typeChar c = true := by
  simp only [nameChar, typeChar, Bool.or_eq_true] at h ⊢
  tauto

theorem nameChar_ne_dot {c : Char} (h : nameChar c = true) : c ≠ '.' := by
  rintro rfl
  revert h
  decide

theorem EventType.forName_valid (eventType : EventType) (name : PrimitiveName) :
    ValidMessageType (eventType.forName name.value) := by
  obtain ⟨hne, _, _, hchars⟩ := name.valid
  have hname : ∀ c ∈ name.value.toList, nameChar c = true := List.all_eq_true.mp hchars
  have hlist : (eventType.forName name.value).toList =
      (eventType.asStr ++ ".").toList ++ name.value.toList := by
    simp [EventType.forName, String.toList_append]
  obtain ⟨hhead, hchain, hall⟩ : (eventType.asStr ++ ".").toList.head? = some 's' ∧
      (eventType.asStr ++ ".").toList.IsChain (fun a b => ¬ (a = '.' ∧ b = '.')) ∧
      (eventType.asStr ++ ".").toList.all typeChar = true := by
    cases eventType <;> decide
  have hstart : (eventType.asStr ++ ".").toList ≠ [] := by
    intro hnil
    simp [hnil] at hhead
  refine ⟨?_, ?_, ?_, ?_⟩
  · rw [hlist]
    exact List.append_ne_nil_of_left_ne_nil hstart _
  · rw [hlist, List.head?_append_of_ne_nil _ hstart, hhead, List.getLast?_append_of_ne_nil _ hne]
    rintro (h | h)
    · cases h
    · exact nameChar_ne_dot (hname '.' (List.mem_of_getLast? h)) rfl
  · rw [not_twoDots_iff, hlist, List.isChain_append]
    refine ⟨hchain, ?_, ?_⟩
    · rw [List.isChain_iff_forall_rel_of_append_cons_cons]
      rintro a b l₁ l₂ hl ⟨rfl, -⟩
      exact nameChar_ne_dot (hname '.' (by rw [hl]; simp)) rfl
    · rintro a _ b hb ⟨-, rfl⟩
      exact nameChar_ne_dot (hname '.' (List.mem_of_mem_head? hb)) rfl
  · rw [hlist, List.all_append, hall, Bool.true_and, List.all_eq_true]
    exact fun c hc => nameChar_typeChar (hname c hc)

def SystemEvent.of (eventType : EventType) (info : PrimitiveInfo)
    (payload : SystemEventPayload) : SystemEvent :=
  ⟨⟨eventType.forName info.name.value, eventType.forName_valid info.name⟩, payload⟩

theorem createRestartedEvent_ok (info : PrimitiveInfo) (pid : Pid) (attempt : UInt32) :
    createRestartedEvent info pid attempt =
      .ok (.of .restarted info (.new info (some pid) none (some attempt))) := by
  rw [createRestartedEvent, MessageType.new_of_valid (EventType.forName_valid _ info.name)]
  rfl

theorem createSystemEvent_started (info : PrimitiveInfo) (pid : Pid) :
    createSystemEvent .started info (some pid) none =
      .ok (.of .started info (.new info (some pid) none none)) := by
  rw [createSystemEvent, MessageType.new_of_valid (EventType.forName_valid _ info.name)]
  rfl

theorem createSystemEvent_stopped (info : PrimitiveInfo) (pid : Option Pid) :
    createSystemEvent .stopped info pid none =
      .ok (.of .stopped info (.new info pid none none)) := by
  rw [createSystemEvent, MessageType.new_of_valid (EventType.forName_valid _ info.name)]
  rfl

theorem createSystemEvent_error (info : PrimitiveInfo) (pid : Option Pid) (err : String) :
    createSystemEvent .error info pid (some err) =
      .ok (.of .error info (.new info pid (some err) none)) := by
  rw [createSystemEvent, MessageType.new_of_valid (EventType.forName_valid _ info.name)]
  rfl

end Emergent.Engine

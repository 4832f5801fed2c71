import Emergent.Engine.Lifecycle
import Emergent.Engine.Readiness
import Emergent.Kit.Runs

/-!
# Waiting for a tier (`process_manager.rs`, `wait_for_tier`)

Four parties act in any order: the actors that spawn and lose children, the
children themselves, which connect, ask for their configured topics and subscribe
through the SDK, clients the engine did not spawn, and the polling loop of
`wait_for_tier`. A round of the loop is three steps, since it awaits between
draining the signals, reading the child pids and reading the members.

`accepted` records the topics the engine has accepted on the connection of an
entry's latest child; nothing in the engine reads it.
-/

namespace Emergent.Engine
open Emergent.Sdk Kit

/-! ### The subscribe call of the SDK (`sdks/rust/src/connection.rs`) -/

def resolveTopics (requested configured : List String) : List String :=
  if requested.isEmpty then configured else requested

/-- Where `subscribe_and_stream` stands: which request is to be answered next. It
is `idle` before the call and after a call that failed. -/
inductive SubscribeCall where
  | idle
  | exact (types patterns : List String)
  | patterns (patterns : List String)
  | done
  deriving Repr, DecidableEq

namespace SubscribeCall

def start (topics : List String) : SubscribeCall :=
  match partitionTopics topics with
  | .error _ => .idle
  | .ok partition =>
    .exact (if partition.exact.contains "system.shutdown" then partition.exact
      else partition.exact ++ ["system.shutdown"]) partition.patterns

def answered (call : SubscribeCall) (success : Bool) : SubscribeCall :=
  if success then
    match call with
    | .exact _ selectors => if selectors.isEmpty then .done else .patterns selectors
    | .patterns _ => .done
    | .idle => .idle
    | .done => .done
  else .idle

end SubscribeCall

/-! ### The process manager's entries -/

/-- `ActorEntry` with the process behind it. `pid` is the pid watch; `listed`
says that the entry is in the table, which it enters only after its actor has
started. -/
structure ActorEntry where
  name : String
  kind : PrimitiveKind
  subscribes : List String
  status : PrimitiveStatus
  pid : Option Pid
  listed : Bool
  configured : Option (List String)
  client : Option ConnectionIdentity
  call : SubscribeCall
  accepted : List String
  deriving DecidableEq

inductive EntryAction where
  /-- `actors.insert`, at the end of a registration. -/
  | insert
  | spawn (pid : Pid)
  | lifecycle (event : LifecycleEvent)
  /-- The monitor task clears the pid watch. -/
  | exit
  /-- The connection of an exited child ends. -/
  | close
  | connect (identity : ConnectionIdentity)
  /-- `get_my_subscriptions`, on a connection of its own. -/
  | discover (identity : ConnectionIdentity)
  /-- `get_topology`, on a connection of its own. -/
  | topology (identity : ConnectionIdentity)
  | subscribe (requested : List String)
  /-- The engine serves the next request of the call; `acquired` is the answer of
  the rate limiter, which only the pattern form asks. -/
  | request (acquired : Bool)
  deriving DecidableEq

namespace ActorEntry

def new (kind : PrimitiveKind) (name : String) (subscribes : List String) : ActorEntry where
  name := name
  kind := kind
  subscribes := subscribes
  status := .configured
  pid := none
  listed := false
  configured := none
  client := none
  call := .idle
  accepted := []

/-- `running`, as `tier_members` computes it. -/
def running (a : ActorEntry) : Bool :=
  !(a.status.state == .stopped || a.status.state == .failed)

def spawned (a : ActorEntry) (pid : Pid) : ActorEntry :=
  { a with
    pid := some pid
    status := nextStatus a.status (.spawned pid)
    configured := none
    client := none
    call := .idle
    accepted := [] }

/-- The answer to the request for `topics` reaches the caller. -/
def answered (a : ActorEntry) (topics : List String) (success : Bool) : ActorEntry :=
  { a with
    call := a.call.answered success
    accepted := if success then a.accepted ++ topics else a.accepted }

/-- The entry after an action, with what the policy signals on it. -/
def step (policy : EnginePolicy) (a : ActorEntry) :
    EntryAction → Option (ActorEntry × List ObservedSubscriber)
  | .insert => if a.listed then none else some ({ a with listed := true }, [])
  | .spawn pid => if a.pid = none then some (a.spawned pid, []) else none
  | .lifecycle (.spawned _) => none
  | .lifecycle event => some ({ a with status := nextStatus a.status event }, [])
  | .exit => if a.pid = none then none else some ({ a with pid := none }, [])
  | .close => if a.pid = none then some ({ a with client := none }, []) else none
  | .connect identity =>
    if a.pid.isSome ∧ a.client = none then some ({ a with client := some identity }, [])
    else none
  | .discover identity =>
    if a.pid.isSome then
      -- a name that is not in the table is answered with no topics
      let ruling := policy.authorizeSubscribe identity [discoveryResponseTopic]
      some ({ a with
        configured :=
          if ruling.allowed then some (if a.listed then a.subscribes else [])
          else a.configured }, ruling.signals)
    else none
  | .topology identity =>
    if a.pid.isSome then
      some (a, (policy.authorizeSubscribe identity ["system.response.topology"]).signals)
    else none
  | .subscribe requested =>
    if a.client.isSome ∧ a.call = .idle ∧ (requested = [] → a.configured.isSome) then
      some ({ a with call := .start (resolveTopics requested (a.configured.getD [])) }, [])
    else none
  | .request acquired =>
    match a.client, a.call with
    | some identity, .exact types _ =>
      let ruling := policy.authorizeSubscribe identity types
      some (a.answered types ruling.allowed, ruling.signals)
    | some identity, .patterns patterns =>
      let ruling := policy.authorizeSubscribe identity patterns
      some (a.answered patterns (ruling.allowed && acquired), ruling.signals)
    | _, _ => none

/-- The connection an action's request travels on. -/
def requester (a : ActorEntry) : EntryAction → Option ConnectionIdentity
  | .discover identity | .topology identity => some identity
  | .request _ => a.client
  | _ => none

end ActorEntry

def ConnectionIdentity.peerPid : ConnectionIdentity → Option Pid
  | .primitive _ => none
  | .unmanaged pid _ => pid

/-! ### The wait -/

/-- Where a round of the loop is. -/
inductive WaitPhase where
  | polling
  | drained (observed : List ObservedSubscriber)
  | absorbed
  deriving DecidableEq

def WaitPhase.observed : WaitPhase → List ObservedSubscriber
  | .drained observed => observed
  | .polling | .absorbed => []

structure TierWait where
  kind : PrimitiveKind
  ledger : Ledger
  phase : WaitPhase
  deriving DecidableEq

inductive ReturnReason where
  | ready
  | deadline
  /-- The timeout is zero. -/
  | optedOut
  deriving Repr, DecidableEq

/-- A return of `wait_for_tier`, with the table as it was then. -/
structure TierReturn where
  kind : PrimitiveKind
  reason : ReturnReason
  actors : List ActorEntry
  deriving DecidableEq

structure Startup where
  /-- Every actor that was started, listed or not. -/
  actors : List ActorEntry
  signals : List ObservedSubscriber
  wait : Option TierWait
  returns : List TierReturn
  deriving DecidableEq

inductive StartupAction where
  | start (kind : PrimitiveKind) (name : String) (subscribes : List String)
  | actor (i : ℕ) (action : EntryAction)
  /-- A subscribe of a process the engine did not spawn. -/
  | client (pid : Option Pid) (uid : ℕ) (topics : List String)
  | beginWait (kind : PrimitiveKind) (timeoutIsZero : Bool)
  | drain
  | absorb
  | evaluate (expired : Bool)
  deriving DecidableEq

namespace Startup

def initial : Startup := ⟨[], [], none, []⟩

def table (s : Startup) : List ActorEntry := s.actors.filter ActorEntry.listed

def liveChildPids (s : Startup) : List (Pid × String) :=
  s.table.filterMap fun a => a.pid.map fun pid => (pid, a.name)

def tierMembers (s : Startup) (kind : PrimitiveKind) (confirmed : Finset String) :
    List TierMember :=
  (s.table.filter fun a => a.kind = kind).map fun a =>
    ⟨a.name, !a.subscribes.isEmpty, classify a.running (a.name ∈ confirmed)⟩

/-- Admission names a process of the entry by the entry's own name or not at all,
and no other child has its pid while it runs. -/
def isPeer (s : Startup) (a : ActorEntry) : ConnectionIdentity → Bool
  | .primitive name => name = a.name ∧ a.listed = true
  | .unmanaged none _ => true
  | .unmanaged (some pid) _ => s.actors.all fun b => b.name = a.name ∨ b.pid ≠ some pid

/-- What the environment may choose: pids in use are not given out again. -/
def permits (s : Startup) (a : ActorEntry) : EntryAction → Bool
  | .spawn pid =>
    s.actors.all fun b => b.pid ≠ some pid ∧ b.client.bind ConnectionIdentity.peerPid ≠ some pid
  | .connect identity | .discover identity | .topology identity => s.isPeer a identity
  | _ => true

def returned (s : Startup) (kind : PrimitiveKind) (reason : ReturnReason) : Startup :=
  { s with wait := none, returns := s.returns ++ [⟨kind, reason, s.table⟩] }

def step (policy : EnginePolicy) (s : Startup) : StartupAction → Option Startup
  | .start kind name subscribes =>
    if name ∈ s.actors.map ActorEntry.name then none
    else some { s with actors := s.actors ++ [.new kind name subscribes] }
  | .actor i action =>
    match s.actors[i]? with
    | none => none
    | some a =>
      if s.permits a action then
        (a.step policy action).map fun result =>
          { s with actors := s.actors.set i result.1, signals := s.signals ++ result.2 }
      else none
  | .client pid uid topics =>
    if s.actors.all fun a => a.pid = none ∨ a.pid ≠ pid then
      some { s with
        signals := s.signals ++ (policy.authorizeSubscribe (.unmanaged pid uid) topics).signals }
    else none
  | .beginWait kind timeoutIsZero =>
    if s.wait.isSome then none
    else if timeoutIsZero then some (s.returned kind .optedOut)
    else some { s with wait := some ⟨kind, .default, .polling⟩ }
  | .drain =>
    match s.wait with
    | some ⟨kind, ledger, .polling⟩ =>
      some { s with signals := [], wait := some ⟨kind, ledger, .drained s.signals⟩ }
    | _ => none
  | .absorb =>
    match s.wait with
    | some ⟨kind, ledger, .drained observed⟩ =>
      some { s with
        wait := some ⟨kind, Engine.absorb ledger observed s.liveChildPids, .absorbed⟩ }
    | _ => none
  | .evaluate expired =>
    match s.wait with
    | some ⟨kind, ledger, .absorbed⟩ =>
      if (evaluateTier (s.tierMembers kind ledger.confirmed)).ready then
        some (s.returned kind .ready)
      else if expired then some (s.returned kind .deadline)
      else some { s with wait := some ⟨kind, ledger, .polling⟩ }
    | _ => none

end Startup

/-! ### Progress of a call -/

theorem mem_partitionTopics {topics : List String} {partition : TopicPartition}
    (h : partitionTopics topics = .ok partition) {topic : String} (hmem : topic ∈ topics) :
    topic ∈ partition.exact ∨ topic ∈ partition.patterns := by
  obtain ⟨hexact, hpatterns, hall⟩ := partitionTopics_ok h topic
  rcases hall hmem with hkind | hkind
  · exact Or.inl (hexact.mpr ⟨hmem, hkind⟩)
  · exact Or.inr (hpatterns.mpr ⟨hmem, hkind⟩)

namespace ActorEntry

variable {policy : EnginePolicy} {a b : ActorEntry} {action : EntryAction}
  {sent : List ObservedSubscriber}

/-- What a call still has to bring in covers the declared topics. -/
def Tracked (a : ActorEntry) : Prop :=
  match a.call with
  | .idle => True
  | .exact types patterns => types ≠ [] ∧ ∀ t ∈ a.subscribes, t ∈ types ∨ t ∈ patterns
  | .patterns patterns => a.accepted ≠ [] ∧ ∀ t ∈ a.subscribes, t ∈ a.accepted ∨ t ∈ patterns
  | .done => ∀ t ∈ a.subscribes, t ∈ a.accepted

theorem tracked_start {topics : List String} (h : ∀ t ∈ a.subscribes, t ∈ topics) :
    Tracked { a with call := .start topics } := by
  unfold SubscribeCall.start
  cases hp : partitionTopics topics with
  | error e => trivial
  | ok partition =>
    simp only [Tracked]
    constructor
    · split
      · rename_i hin
        intro hnil
        rw [hnil] at hin
        cases hin
      · simp
    · intro t ht
      have hsplit := mem_partitionTopics hp (h t ht)
      split
      · exact hsplit
      · exact hsplit.imp_left (List.mem_append_left _)

theorem tracked_failed (topics : List String) : Tracked (a.answered topics false) := by
  simp [Tracked, answered, SubscribeCall.answered]

theorem tracked_exact {types patterns : List String} (hcall : a.call = .exact types patterns)
    (h : a.Tracked) : Tracked (a.answered types true) := by
  simp only [Tracked, hcall] at h
  obtain ⟨hne, hcover⟩ := h
  simp only [Tracked, answered, SubscribeCall.answered, hcall, if_true]
  by_cases hpatterns : patterns.isEmpty = true
  · simp only [hpatterns, if_true]
    intro t ht
    rcases hcover t ht with hexact | hpattern
    · exact List.mem_append_right _ hexact
    · rw [List.isEmpty_iff.mp hpatterns] at hpattern
      cases hpattern
  · simp only [hpatterns]
    refine ⟨List.append_ne_nil_of_right_ne_nil _ hne, ?_⟩
    intro t ht
    exact (hcover t ht).imp_left (List.mem_append_right _)

theorem tracked_patterns {patterns : List String} (hcall : a.call = .patterns patterns)
    (h : a.Tracked) : Tracked (a.answered patterns true) := by
  simp only [Tracked, hcall] at h
  simp only [Tracked, answered, SubscribeCall.answered, hcall, if_true]
  intro t ht
  rcases h.2 t ht with haccepted | hpattern
  · exact List.mem_append_left _ haccepted
  · exact List.mem_append_right _ hpattern

/-- What an entry's own steps meet in orderly runs: topics
passed in code include the declared ones, discovery is asked once the entry is in
the table, and the topology once something is accepted. -/
def Asks (a : ActorEntry) : EntryAction → Prop
  | .subscribe requested => requested ≠ [] → ∀ t ∈ a.subscribes, t ∈ requested
  | .discover _ => a.listed = true
  | .topology _ => a.accepted ≠ []
  | _ => True

instance decidableAsks (a : ActorEntry) : ∀ action, Decidable (a.Asks action)
  | .subscribe requested =>
    inferInstanceAs (Decidable (requested ≠ [] → ∀ t ∈ a.subscribes, t ∈ requested))
  | .discover _ => inferInstanceAs (Decidable (a.listed = true))
  | .topology _ => inferInstanceAs (Decidable (a.accepted ≠ []))
  | .insert | .spawn _ | .lifecycle _ | .exit | .close | .connect _ | .request _ => isTrue trivial

structure Sound (a : ActorEntry) : Prop where
  tracked : a.Tracked
  configured : ∀ topics, a.configured = some topics → topics = a.subscribes

/-- All that an action can do to an entry. -/
structure Stepped (a : ActorEntry) (action : EntryAction) (b : ActorEntry)
    (sent : List ObservedSubscriber) : Prop where
  name : b.name = a.name
  pid : b.pid = a.pid ∨ b.pid = none ∨ ∃ pid, action = .spawn pid ∧ b.pid = some pid
  client : b.client = a.client ∨ b.client = none ∨
    ∃ identity, action = .connect identity ∧ b.client = some identity
  accepted : (∃ pid, action = .spawn pid) ∨ (a.accepted ≠ [] → b.accepted ≠ [])
  senders : ∀ o ∈ sent, ∃ identity, a.requester action = some identity ∧
    o = observedSubscriber identity
  heard : sent ≠ [] → b.accepted ≠ []
  sound : b.Sound

/-- An action that makes no request. -/
theorem stepped_quiet (hname : b.name = a.name)
    (hpid : b.pid = a.pid ∨ b.pid = none ∨ ∃ pid, action = .spawn pid ∧ b.pid = some pid)
    (hclient : b.client = a.client ∨ b.client = none ∨
      ∃ identity, action = .connect identity ∧ b.client = some identity)
    (haccepted : (∃ pid, action = .spawn pid) ∨ b.accepted = a.accepted) (hsound : b.Sound) :
    Stepped a action b [] where
  name := hname
  pid := hpid
  client := hclient
  accepted := haccepted.imp_right fun hsame hne => by rw [hsame]; exact hne
  senders := by simp
  heard := by simp
  sound := hsound

theorem accepted_answered (topics : List String) (success : Bool) (h : a.accepted ≠ []) :
    (a.answered topics success).accepted ≠ [] := by
  cases success with
  | false => exact h
  | true => exact List.append_ne_nil_of_left_ne_nil h topics

theorem stepped_answered (topics : List String) (acquired : Bool) {identity : ConnectionIdentity}
    (ha : a.Sound)
    (hheard : (policy.authorizeSubscribe identity topics).signals ≠ [] →
      (a.answered topics
        ((policy.authorizeSubscribe identity topics).allowed && acquired)).accepted ≠ [])
    (htracked : (a.answered topics true).Tracked) (action : EntryAction)
    (haction : a.requester action = some identity) :
    Stepped a action
      (a.answered topics ((policy.authorizeSubscribe identity topics).allowed && acquired))
      (policy.authorizeSubscribe identity topics).signals where
  name := rfl
  pid := Or.inl rfl
  client := Or.inl rfl
  accepted := Or.inr (accepted_answered topics _)
  senders := by
    intro o ho
    obtain ⟨_, _, hsub⟩ := EnginePolicy.mem_authorizeSubscribe_signals ho
    exact ⟨identity, haction, hsub⟩
  heard := hheard
  sound := by
    refine ⟨?_, ha.configured⟩
    cases (policy.authorizeSubscribe identity topics).allowed && acquired with
    | false => exact tracked_failed topics
    | true => exact htracked

/-- The discovery topic alone is not signalled, and a listed entry is answered with
what it declares. -/
theorem stepped_discover (ha : a.Sound) (hlisted : a.listed = true)
    {identity : ConnectionIdentity} (h : a.step policy (.discover identity) = some (b, sent)) :
    Stepped a (.discover identity) b sent := by
  simp only [step] at h
  split at h
  · obtain ⟨rfl, rfl⟩ := Prod.mk.inj (Option.some.inj h)
    have hquiet : (policy.authorizeSubscribe identity [discoveryResponseTopic]).signals = [] := by
      rw [List.eq_nil_iff_forall_not_mem]
      intro o ho
      obtain ⟨_, hprimitive, _⟩ := EnginePolicy.mem_authorizeSubscribe_signals ho
      simp [isPrimitiveSubscription] at hprimitive
    rw [hquiet]
    refine stepped_quiet rfl (Or.inl rfl) (Or.inl rfl) (Or.inr rfl) ⟨ha.tracked, ?_⟩
    intro topics htopics
    split at htopics
    · exact (Option.some.inj htopics).symm
    · exact ha.configured topics htopics
  · cases h

theorem stepped_subscribe (ha : a.Sound) {requested : List String}
    (hasks : requested ≠ [] → ∀ t ∈ a.subscribes, t ∈ requested)
    (h : a.step policy (.subscribe requested) = some (b, sent)) :
    Stepped a (.subscribe requested) b sent := by
  simp only [step] at h
  split at h
  · rename_i henabled
    obtain ⟨rfl, rfl⟩ := Prod.mk.inj (Option.some.inj h)
    refine stepped_quiet rfl (Or.inl rfl) (Or.inl rfl) (Or.inr rfl)
      ⟨tracked_start ?_, ha.configured⟩
    intro t ht
    unfold resolveTopics
    split
    · rename_i hempty
      obtain ⟨topics, htopics⟩ := Option.isSome_iff_exists.mp
        (henabled.2.2 (List.isEmpty_iff.mp hempty))
      rw [htopics, Option.getD_some, ha.configured topics htopics]
      exact ht
    · rename_i hsome
      exact hasks (fun hnil => hsome (by rw [hnil]; rfl)) t ht
  · cases h

/-- An exact request is signalled only if it is accepted, and a pattern request
comes after an accepted one. -/
theorem stepped_request (ha : a.Sound) {acquired : Bool}
    (h : a.step policy (.request acquired) = some (b, sent)) :
    Stepped a (.request acquired) b sent := by
  simp only [step] at h
  cases hclient : a.client with
  | none => simp [hclient] at h
  | some identity =>
    have hrequester : a.requester (.request acquired) = some identity := hclient
    have htracked := ha.tracked
    cases hcall : a.call with
    | idle => simp [hclient, hcall] at h
    | done => simp [hclient, hcall] at h
    | exact types patterns =>
      simp only [hclient, hcall] at h
      obtain ⟨rfl, rfl⟩ := Prod.mk.inj (Option.some.inj h)
      have hne : types ≠ [] := by
        simp only [Tracked, hcall] at htracked
        exact htracked.1
      rw [← Bool.and_true (policy.authorizeSubscribe identity types).allowed]
      refine stepped_answered types true ha ?_ (tracked_exact hcall htracked)
        (.request acquired) hrequester
      intro hsent
      obtain ⟨o, ho⟩ := List.exists_mem_of_ne_nil _ hsent
      obtain ⟨hallowed, _, _⟩ := EnginePolicy.mem_authorizeSubscribe_signals ho
      rw [hallowed]
      exact List.append_ne_nil_of_right_ne_nil _ hne
    | patterns patterns =>
      simp only [hclient, hcall] at h
      obtain ⟨rfl, rfl⟩ := Prod.mk.inj (Option.some.inj h)
      refine stepped_answered patterns acquired ha ?_ (tracked_patterns hcall htracked)
        (.request acquired) hrequester
      intro _
      simp only [Tracked, hcall] at htracked
      exact accepted_answered patterns _ htracked.1

theorem step_spec (ha : a.Sound) (hasks : a.Asks action)
    (h : a.step policy action = some (b, sent)) : Stepped a action b sent := by
  cases action with
  | insert =>
    simp only [step] at h
    split at h
    · cases h
    · obtain ⟨rfl, rfl⟩ := Prod.mk.inj (Option.some.inj h)
      exact stepped_quiet rfl (Or.inl rfl) (Or.inl rfl) (Or.inr rfl) ⟨ha.tracked, ha.configured⟩
  | spawn pid =>
    simp only [step] at h
    split at h
    · obtain ⟨rfl, rfl⟩ := Prod.mk.inj (Option.some.inj h)
      exact stepped_quiet rfl (Or.inr (Or.inr ⟨pid, rfl, rfl⟩)) (Or.inr (Or.inl rfl))
        (Or.inl ⟨pid, rfl⟩) ⟨trivial, by simp [spawned]⟩
    · cases h
  | lifecycle event =>
    have hstatus : ∀ status, Stepped a (.lifecycle event) { a with status := status } [] :=
      fun status => stepped_quiet rfl (Or.inl rfl) (Or.inl rfl) (Or.inr rfl)
        ⟨ha.tracked, ha.configured⟩
    cases event <;> cases h <;> exact hstatus _
  | exit =>
    simp only [step] at h
    split at h
    · cases h
    · obtain ⟨rfl, rfl⟩ := Prod.mk.inj (Option.some.inj h)
      exact stepped_quiet rfl (Or.inr (Or.inl rfl)) (Or.inl rfl) (Or.inr rfl)
        ⟨ha.tracked, ha.configured⟩
  | close =>
    simp only [step] at h
    split at h
    · obtain ⟨rfl, rfl⟩ := Prod.mk.inj (Option.some.inj h)
      exact stepped_quiet rfl (Or.inl rfl) (Or.inr (Or.inl rfl)) (Or.inr rfl)
        ⟨ha.tracked, ha.configured⟩
    · cases h
  | connect identity =>
    simp only [step] at h
    split at h
    · obtain ⟨rfl, rfl⟩ := Prod.mk.inj (Option.some.inj h)
      exact stepped_quiet rfl (Or.inl rfl) (Or.inr (Or.inr ⟨identity, rfl, rfl⟩)) (Or.inr rfl)
        ⟨ha.tracked, ha.configured⟩
    · cases h
  | discover identity => exact stepped_discover ha hasks h
  | topology identity =>
    simp only [step] at h
    split at h
    · obtain ⟨rfl, rfl⟩ := Prod.mk.inj (Option.some.inj h)
      refine ⟨rfl, Or.inl rfl, Or.inl rfl, Or.inr id, ?_, fun _ => hasks, ha⟩
      intro o ho
      obtain ⟨_, _, hsub⟩ := EnginePolicy.mem_authorizeSubscribe_signals ho
      exact ⟨identity, rfl, hsub⟩
    · cases h
  | subscribe requested => exact stepped_subscribe ha hasks h
  | request acquired => exact stepped_request ha h

end ActorEntry

end Emergent.Engine

import Emergent.Engine.Supervision
import Emergent.Engine.SystemEvent
import Emergent.Kit.Runs
import Emergent.Kit.Tally

/-!
# The primitive actor (`emergent-engine/src/primitive_actor.rs`)

One actor with a FIFO mailbox, the future its last handler returned (`task`),
the future of `after_start` (`boot`), the pid watch, and the children it has
spawned, each with the monitor task that waits for it. Every await of
`spawn_primitive_child` and of the monitor is a step of its own, so any other
party may act in between.

The environment chooses through the action what the operating system answers,
when a child exits and what the clock says. `events` is what the broker has
received; `exits`, `signals` and `begun` record what the actor did with each
exit, the signals sent and the spawns begun.
-/

namespace Emergent.Engine
open Emergent.Sdk Kit

inductive ActorMessage where
  | childSpawning
  | childSpawned (pid : Pid)
  | childSpawnFailed (error : String)
  | childExited (pid : Pid) (status : ℤ)
  | restartChild (attempt : UInt32)
  | healthCheck
  | stopPrimitive
  | engineShuttingDown
  deriving Repr, DecidableEq

/-! ### Children -/

/-- Who holds the `Child` handle: the spawn that made it, with or without its
start event sent, the monitor task, or nobody any more. -/
inductive Holder where
  | spawn (announced : Bool)
  | monitor
  | nobody
  deriving Repr, DecidableEq

/-- How far a child and its monitor are. Past `exited` the monitor's `wait` has
returned: it clears the watch, tells the actor and broadcasts the exit. -/
inductive ChildPhase where
  | alive (holder : Holder)
  | exited (status : ExitStatus) (holder : Holder)
  | reaped (status : ExitStatus)
  | cleared (status : ExitStatus)
  | notified (status : ExitStatus)
  | reported (status : ExitStatus)
  deriving Repr, DecidableEq

structure Child where
  pid : Pid
  attempt : Option UInt32
  phase : ChildPhase
  deriving Repr, DecidableEq

def ChildPhase.isAlive : ChildPhase → Bool
  | .alive _ => true
  | _ => false

def ChildPhase.announce : ChildPhase → ChildPhase
  | .alive (.spawn _) => .alive (.spawn true)
  | .exited status (.spawn _) => .exited status (.spawn true)
  | phase => phase

/-- `tokio::spawn` of the monitor: the handle moves into it. -/
def ChildPhase.watchOver : ChildPhase → ChildPhase
  | .alive (.spawn _) => .alive .monitor
  | .exited status (.spawn _) => .exited status .monitor
  | phase => phase

/-! ### The futures of the actor -/

/-- The next thing `spawn_primitive_child` does. The index is that of the child
it made. -/
inductive SpawnPoint where
  | announce
  | create
  | failed (error : String)
  | failedEvent (error : String)
  | unidentified
  | publish (child : ℕ) (pid : Pid)
  | report (child : ℕ) (pid : Pid)
  | broadcast (child : ℕ) (pid : Pid)
  | monitor (child : ℕ)
  deriving Repr, DecidableEq

/-- A running `spawn_primitive_child`: `none` is the first spawn, `some n` the
restart of attempt `n`. -/
structure Spawn where
  attempt : Option UInt32
  point : SpawnPoint
  deriving Repr, DecidableEq

inductive SpawnOutcome where
  | created (pid : Pid)
  | failed (error : String)
  | unidentified (pid : Pid)
  deriving Repr, DecidableEq

inductive Awaited where
  | idle
  | spawn (spawn : Spawn)
  | backoff (attempt : UInt32)
  | giveUp (reason : String)
  deriving Repr, DecidableEq

inductive Signal where
  | term (pid : Pid)
  | kill (pid : Pid)
  deriving Repr, DecidableEq

/-- What the actor made of one exit: the state it recorded and the outcome it
gave to `decide_restart`. -/
structure ExitRecord where
  pid : Pid
  state : PrimitiveState
  outcome : ExitOutcome
  deriving Repr, DecidableEq

structure PrimitiveActorConfig where
  info : PrimitiveInfo
  restart : RestartPolicy
  restartLimits : RestartLimits

structure PrimitiveActor where
  status : PrimitiveStatus
  childPid : Option Pid
  shuttingDown : Bool
  restartAttempts : List UInt64
  mailbox : List ActorMessage
  boot : Option Spawn
  task : Awaited
  watch : Option Pid
  children : List Child
  events : List SystemEvent
  exits : List ExitRecord
  signals : List Signal
  begun : ℕ
  stopRequested : Bool
  terminated : Bool
  deriving DecidableEq

inductive ActorRequest where
  | healthCheck
  | stopPrimitive
  | engineShuttingDown
  deriving Repr, DecidableEq

def ActorRequest.message : ActorRequest → ActorMessage
  | .healthCheck => .healthCheck
  | .stopPrimitive => .stopPrimitive
  | .engineShuttingDown => .engineShuttingDown

inductive ActorAction where
  | send (request : ActorRequest)
  | deliver (nowMs : UInt64)
  | bootStep (outcome : SpawnOutcome)
  | taskStep (outcome : SpawnOutcome)
  | exit (child : ℕ) (status : ExitStatus)
  | monitorStep (child : ℕ)
  /-- `Child::wait` returns an error. -/
  | waitFails (child : ℕ)
  /-- `sigkill_process_group`, from the process manager. -/
  | kill (pid : Pid)
  | requestStop
  | terminate
  deriving Repr, DecidableEq

namespace PrimitiveActor

/-- The actor as `after_start` is called: its first spawn has begun. -/
def start : PrimitiveActor where
  status := .configured
  childPid := none
  shuttingDown := false
  restartAttempts := []
  mailbox := []
  boot := some ⟨none, .announce⟩
  task := .idle
  watch := none
  children := []
  events := []
  exits := []
  signals := []
  begun := 1
  stopRequested := false
  terminated := false

def apply (s : PrimitiveActor) (event : LifecycleEvent) : PrimitiveActor :=
  let next := nextStatus s.status event
  { s with status := next, childPid := next.pid }

def post (s : PrimitiveActor) (message : ActorMessage) : PrimitiveActor :=
  { s with mailbox := s.mailbox ++ [message] }

def broadcast (s : PrimitiveActor) (event : Except InvalidMessageType SystemEvent) :
    PrimitiveActor :=
  { s with events := broadcastLifecycleEvent s.events event }

def editChild (s : PrimitiveActor) (i : ℕ) (edit : ChildPhase → ChildPhase) : PrimitiveActor :=
  { s with children := s.children.modify i fun c => { c with phase := edit c.phase } }

/-! ### `spawn_primitive_child` -/

def startEvent (info : PrimitiveInfo) (pid : Pid) :
    Option UInt32 → Except InvalidMessageType SystemEvent
  | none => createSystemEvent .started info (some pid) none
  | some attempt => createRestartedEvent info pid attempt

/-- One step of the spawn, and the next thing it does. -/
def advance (config : PrimitiveActorConfig) (s : PrimitiveActor) (attempt : Option UInt32)
    (outcome : SpawnOutcome) : SpawnPoint → PrimitiveActor × Option SpawnPoint
  | .announce => (s.post .childSpawning, some .create)
  | .create =>
    match outcome with
    | .failed error => ({ s with watch := none }, some (.failed error))
    | .unidentified pid =>
      ({ s with
          watch := none
          children := s.children ++ [⟨pid, attempt, .alive .nobody⟩] },
        some .unidentified)
    | .created pid =>
      ({ s with children := s.children ++ [⟨pid, attempt, .alive (.spawn false)⟩] },
        some (.publish s.children.length pid))
  | .failed error => (s.post (.childSpawnFailed error), some (.failedEvent error))
  | .failedEvent error =>
    (s.broadcast (createSystemEvent .error config.info none (some error)), none)
  | .unidentified => (s.post (.childSpawnFailed "Spawned child reported no PID"), none)
  | .publish child pid => ({ s with watch := some pid }, some (.report child pid))
  | .report child pid => (s.post (.childSpawned pid), some (.broadcast child pid))
  | .broadcast child pid =>
    ((s.broadcast (startEvent config.info pid attempt)).editChild child .announce,
      some (.monitor child))
  | .monitor child => (s.editChild child .watchOver, none)

/-! ### The handlers -/

def exhaustedReason (attempts : UInt32) (windowMs : UInt64) : String :=
  s!"Restarts exhausted: {attempts} attempts within {windowMs} ms"

def handleExited (config : PrimitiveActorConfig) (nowMs : UInt64) (s : PrimitiveActor)
    (pid : Pid) (status : ℤ) : PrimitiveActor :=
  if s.childPid ≠ some pid then s
  else
    let left := s.apply (.exited pid status)
    let attempts := pruneAttempts s.restartAttempts nowMs config.restartLimits.windowMs
    let outcome := outcomeFromExitCode status
    let left :=
      { left with
        restartAttempts := attempts
        exits := s.exits ++ [⟨pid, left.status.state, outcome⟩] }
    match decideRestart config.restart outcome attempts config.restartLimits nowMs
        s.shuttingDown with
    | .noRestart | .suppressedByShutdown => left
    | .restart _ attempt =>
      { left.apply .spawnRequested with
        restartAttempts := attempts ++ [nowMs]
        task := .backoff attempt }
    | .exhausted used windowMs =>
      { left.apply (.restartsExhausted (exhaustedReason used windowMs)) with
        task := .giveUp (exhaustedReason used windowMs) }

def signalChild (s : PrimitiveActor) (pid : Option Pid) : PrimitiveActor :=
  match pid with
  | some pid => { s with signals := s.signals ++ [.term pid] }
  | none => s

theorem signalChild_eq (s : PrimitiveActor) (pid : Option Pid) :
    ∃ signals, s.signals ⊆ signals ∧ s.signalChild pid = { s with signals := signals } := by
  cases pid with
  | none => exact ⟨s.signals, List.Subset.refl _, rfl⟩
  | some pid => exact ⟨s.signals ++ [.term pid], List.subset_append_left _ _, rfl⟩

/-- The handlers, on the actor without the message. -/
def handle (config : PrimitiveActorConfig) (nowMs : UInt64) (s : PrimitiveActor) :
    ActorMessage → PrimitiveActor
  | .childSpawning => s.apply .spawnRequested
  | .childSpawned pid => s.apply (.spawned pid)
  | .childSpawnFailed error => s.apply (.spawnFailed error)
  | .childExited pid status => s.handleExited config nowMs pid status
  | .restartChild attempt =>
    if s.shuttingDown || s.childPid.isSome then s
    else { s with task := .spawn ⟨some attempt, .announce⟩, begun := s.begun + 1 }
  | .healthCheck => s
  | .engineShuttingDown => { s with shuttingDown := true }
  | .stopPrimitive =>
    (({ s with shuttingDown := true }).apply .stopRequested).signalChild s.childPid

/-! ### The tasks -/

/-- One step of the monitor: `wait` returns, the watch is cleared, the actor is
told, the exit is broadcast. -/
def monitorStep (config : PrimitiveActorConfig) (s : PrimitiveActor) (i : ℕ) (c : Child) :
    Option PrimitiveActor :=
  match c.phase with
  | .exited status .monitor => some (s.editChild i fun _ => .reaped status)
  | .reaped status =>
    some { s.editChild i (fun _ => .cleared status) with watch := none }
  | .cleared status =>
    some ((s.post (.childExited c.pid (exitCodeFromStatus status))).editChild i
      fun _ => .notified status)
  | .notified status =>
    let event :=
      if isCleanExit status then createSystemEvent .stopped config.info (some c.pid) none
      else createSystemEvent .error config.info (some c.pid)
        (some (exitErrorMessage (exitCodeFromStatus status)))
    some ((s.broadcast event).editChild i fun _ => .reported status)
  | _ => none

/-- `wait` returned an error: the watch is cleared and the monitor ends. -/
def loseChild (s : PrimitiveActor) (i : ℕ) (c : Child) : Option PrimitiveActor :=
  match c.phase with
  | .alive .monitor => some { s.editChild i (fun _ => .alive .nobody) with watch := none }
  | .exited status .monitor =>
    some { s.editChild i (fun _ => .exited status .nobody) with watch := none }
  | _ => none

def taskStep (config : PrimitiveActorConfig) (s : PrimitiveActor) (outcome : SpawnOutcome) :
    Option PrimitiveActor :=
  match s.task with
  | .idle => none
  | .spawn spawn =>
    let next := s.advance config spawn.attempt outcome spawn.point
    some { next.1 with task := (next.2.map fun point => .spawn ⟨spawn.attempt, point⟩).getD .idle }
  | .backoff attempt => some { s.post (.restartChild attempt) with task := .idle }
  | .giveUp reason =>
    some { s.broadcast (createSystemEvent .error config.info none (some reason)) with
      task := .idle }

def bootStep (config : PrimitiveActorConfig) (s : PrimitiveActor) (outcome : SpawnOutcome) :
    Option PrimitiveActor :=
  s.boot.map fun spawn =>
    let next := s.advance config spawn.attempt outcome spawn.point
    { next.1 with boot := next.2.map fun point => ⟨spawn.attempt, point⟩ }

def deliver (config : PrimitiveActorConfig) (s : PrimitiveActor) (nowMs : UInt64) :
    Option PrimitiveActor :=
  match s.mailbox with
  | [] => none
  | message :: mailbox =>
    if s.terminated = false ∧ s.task = .idle then
      some (({ s with mailbox := mailbox }).handle config nowMs message)
    else none

def step (config : PrimitiveActorConfig) (s : PrimitiveActor) :
    ActorAction → Option PrimitiveActor
  | .send request => some (s.post request.message)
  | .deliver nowMs => s.deliver config nowMs
  | .bootStep outcome => s.bootStep config outcome
  | .taskStep outcome => s.taskStep config outcome
  | .exit i status =>
    s.children[i]?.bind fun c =>
      match c.phase with
      | .alive holder => some (s.editChild i fun _ => .exited status holder)
      | _ => none
  | .monitorStep i => s.children[i]?.bind (s.monitorStep config i)
  | .waitFails i => s.children[i]?.bind (s.loseChild i)
  | .kill pid => some { s with signals := s.signals ++ [.kill pid] }
  | .requestStop => some { s with stopRequested := true }
  | .terminate =>
    -- `before_stop`, once the awaited future is over
    if s.stopRequested ∧ s.task = .idle ∧ s.terminated = false then
      some { s.signalChild s.childPid with terminated := true }
    else none

/-! ### What each action does -/

variable {config : PrimitiveActorConfig} {s t : PrimitiveActor} {i : ℕ} {c : Child}

theorem deliver_cases {nowMs : UInt64} (h : s.deliver config nowMs = some t) :
    ∃ message mailbox, s.mailbox = message :: mailbox ∧ s.task = .idle ∧
      t = ({ s with mailbox := mailbox } : PrimitiveActor).handle config nowMs message := by
  unfold deliver at h
  split at h
  · cases h
  · rename_i message mailbox hmail
    split_ifs at h with hfree
    exact ⟨message, mailbox, hmail, hfree.2, (Option.some.inj h).symm⟩

theorem taskStep_cases {outcome : SpawnOutcome} (h : s.taskStep config outcome = some t) :
    (∃ sp, s.task = .spawn sp ∧
      t = { (s.advance config sp.attempt outcome sp.point).1 with
        task := ((s.advance config sp.attempt outcome sp.point).2.map fun point =>
          .spawn ⟨sp.attempt, point⟩).getD .idle }) ∨
    (∃ attempt, s.task = .backoff attempt ∧
      t = { s.post (.restartChild attempt) with task := .idle }) ∨
    ∃ reason, s.task = .giveUp reason ∧
      t = { s.broadcast (createSystemEvent .error config.info none (some reason)) with
        task := .idle } := by
  unfold taskStep at h
  split at h
  · cases h
  · rename_i sp htask
    exact Or.inl ⟨sp, htask, (Option.some.inj h).symm⟩
  · rename_i attempt htask
    exact Or.inr (Or.inl ⟨attempt, htask, (Option.some.inj h).symm⟩)
  · rename_i reason htask
    exact Or.inr (Or.inr ⟨reason, htask, (Option.some.inj h).symm⟩)

/-- The four steps of a monitor, in their order. -/
theorem monitorStep_cases (h : s.monitorStep config i c = some t) :
    ∃ status,
      (c.phase = .exited status .monitor ∧ t = s.editChild i fun _ => .reaped status) ∨
      (c.phase = .reaped status ∧
        t = { s.editChild i (fun _ => .cleared status) with watch := none }) ∨
      (c.phase = .cleared status ∧
        t = (s.post (.childExited c.pid (exitCodeFromStatus status))).editChild i
          fun _ => .notified status) ∨
      (c.phase = .notified status ∧
        t = (s.broadcast
          (if isCleanExit status then createSystemEvent .stopped config.info (some c.pid) none
          else createSystemEvent .error config.info (some c.pid)
            (some (exitErrorMessage (exitCodeFromStatus status))))).editChild i
          fun _ => .reported status) := by
  unfold monitorStep at h
  split at h
  · rename_i status hphase
    exact ⟨status, Or.inl ⟨hphase, (Option.some.inj h).symm⟩⟩
  · rename_i status hphase
    exact ⟨status, Or.inr (Or.inl ⟨hphase, (Option.some.inj h).symm⟩)⟩
  · rename_i status hphase
    exact ⟨status, Or.inr (Or.inr (Or.inl ⟨hphase, (Option.some.inj h).symm⟩))⟩
  · rename_i status hphase
    exact ⟨status, Or.inr (Or.inr (Or.inr ⟨hphase, (Option.some.inj h).symm⟩))⟩
  · cases h

theorem loseChild_cases (h : s.loseChild i c = some t) :
    (c.phase = .alive .monitor ∧
      t = { s.editChild i (fun _ => .alive .nobody) with watch := none }) ∨
    ∃ status, c.phase = .exited status .monitor ∧
      t = { s.editChild i (fun _ => .exited status .nobody) with watch := none } := by
  unfold loseChild at h
  split at h
  · rename_i hphase
    exact Or.inl ⟨hphase, (Option.some.inj h).symm⟩
  · rename_i status hphase
    exact Or.inr ⟨status, hphase, (Option.some.inj h).symm⟩
  · cases h

theorem step_exit_cases {status : ExitStatus} (h : s.step config (.exit i status) = some t) :
    ∃ c holder, s.children[i]? = some c ∧ c.phase = .alive holder ∧
      t = s.editChild i fun _ => .exited status holder := by
  obtain ⟨c, hc, h⟩ := Option.bind_eq_some_iff.mp h
  split at h
  · rename_i holder hphase
    exact ⟨c, holder, hc, hphase, (Option.some.inj h).symm⟩
  · cases h

theorem step_terminate_cases (h : s.step config .terminate = some t) :
    ∃ signals, s.signals ⊆ signals ∧ t = { s with signals := signals, terminated := true } := by
  simp only [step] at h
  split_ifs at h
  obtain rfl := Option.some.inj h
  obtain ⟨signals, hsub, hsig⟩ := signalChild_eq s s.childPid
  exact ⟨signals, hsub, by rw [hsig]⟩

end PrimitiveActor

end Emergent.Engine

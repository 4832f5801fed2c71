import Emergent.Engine.PrimitiveActor

/-!
# One child at a time

Whatever can lead to a spawn or be the result of one holds a token: a spawn
until it has made its process or told the actor that it failed, a child until its
exit is on the way to the actor, a queued `ChildExited`, a restart that is queued
or waits for its backoff. The actor starts with one token and no step makes
another.
-/

namespace Emergent.Engine
open Kit

def SpawnPoint.token : SpawnPoint → ℕ
  | .announce | .create | .failed _ => 1
  | _ => 0

def Awaited.token : Awaited → ℕ
  | .spawn sp => sp.point.token
  | .backoff _ => 1
  | .idle | .giveUp _ => 0

def ChildPhase.token : ChildPhase → ℕ
  | .alive _ => 1
  | .exited _ .nobody => 0
  | .exited _ _ => 1
  | .reaped _ | .cleared _ => 1
  | .notified _ | .reported _ => 0

def Child.token (c : Child) : ℕ := c.phase.token

def ActorMessage.token : ActorMessage → ℕ
  | .childExited _ _ | .restartChild _ => 1
  | _ => 0

def ActorMessage.isShutdown : ActorMessage → Bool
  | .engineShuttingDown | .stopPrimitive => true
  | _ => false

namespace PrimitiveActor

def loose (s : PrimitiveActor) : ℕ :=
  tally Child.token s.children + tally ActorMessage.token s.mailbox

def bootToken (s : PrimitiveActor) : ℕ := (s.boot.map fun spawn => spawn.point.token).getD 0

def tokens (s : PrimitiveActor) : ℕ := s.bootToken + s.task.token + s.loose

variable {config : PrimitiveActorConfig} {s t : PrimitiveActor}

theorem loose_post (s : PrimitiveActor) (message : ActorMessage) :
    (s.post message).loose = s.loose + message.token := by
  simp only [loose, post, tally_append, tally_cons, tally_nil]
  omega

theorem loose_editChild {i : ℕ} {c : Child} (h : s.children[i]? = some c)
    (edit : ChildPhase → ChildPhase) :
    (s.editChild i edit).loose + c.phase.token = s.loose + (edit c.phase).token := by
  have htally : tally Child.token
      (s.children.modify i fun c => { c with phase := edit c.phase }) + c.phase.token =
      tally Child.token s.children + (edit c.phase).token := tally_modify h _
  simp only [loose, editChild]
  omega

theorem loose_editChild_le (s : PrimitiveActor) (i : ℕ) {edit : ChildPhase → ChildPhase}
    (hedit : ∀ phase, (edit phase).token ≤ phase.token) : (s.editChild i edit).loose ≤ s.loose := by
  have htally : tally Child.token
      (s.children.modify i fun c => { c with phase := edit c.phase }) ≤
      tally Child.token s.children := tally_modify_le fun c _ => hedit c.phase
  simp only [loose, editChild]
  omega

theorem announce_token (phase : ChildPhase) : phase.announce.token ≤ phase.token := by
  rcases phase with (_ | _ | _) | ⟨_, _ | _ | _⟩ | _ | _ | _ | _ <;>
    simp [ChildPhase.announce, ChildPhase.token]

theorem watchOver_token (phase : ChildPhase) : phase.watchOver.token ≤ phase.token := by
  rcases phase with (_ | _ | _) | ⟨_, _ | _ | _⟩ | _ | _ | _ | _ <;>
    simp [ChildPhase.watchOver, ChildPhase.token]

/-- The future at the first start holds its token apart from the loose ones. -/
theorem loose_of_boot {s : PrimitiveActor} {spawn : Spawn} (h : s.tokens ≤ 1)
    (hboot : s.boot = some spawn) : s.loose + spawn.point.token ≤ 1 := by
  have hheld : s.bootToken = spawn.point.token := by simp [bootToken, hboot]
  simp only [tokens] at h
  omega

theorem loose_of_task {s : PrimitiveActor} {spawn : Spawn} (h : s.tokens ≤ 1)
    (htask : s.task = .spawn spawn) : s.loose + spawn.point.token ≤ 1 := by
  have hheld : s.task.token = spawn.point.token := by rw [htask]; rfl
  simp only [tokens] at h
  omega

theorem advance_loose (config : PrimitiveActorConfig) (s : PrimitiveActor)
    (attempt : Option UInt32) (outcome : SpawnOutcome) (point : SpawnPoint) :
    (s.advance config attempt outcome point).1.loose +
      ((s.advance config attempt outcome point).2.map SpawnPoint.token).getD 0 ≤
      s.loose + point.token := by
  cases point with
  | announce =>
    have hpost := loose_post s .childSpawning
    simp only [advance, Option.map_some, Option.getD_some, SpawnPoint.token]
    simp only [ActorMessage.token] at hpost
    omega
  | create =>
    cases outcome with
    | failed error => exact le_rfl
    | unidentified pid =>
      simp only [advance, loose, tally_append, tally_cons, tally_nil, Child.token,
        ChildPhase.token, SpawnPoint.token, Option.map_some, Option.getD_some]
      omega
    | created pid =>
      simp only [advance, loose, tally_append, tally_cons, tally_nil, Child.token,
        ChildPhase.token, SpawnPoint.token, Option.map_some, Option.getD_some]
      omega
  | failed error =>
    have hpost := loose_post s (.childSpawnFailed error)
    simp only [advance, Option.map_some, Option.getD_some, SpawnPoint.token]
    simp only [ActorMessage.token] at hpost
    omega
  | failedEvent error => simp [advance, broadcast, loose, SpawnPoint.token]
  | unidentified =>
    have hpost := loose_post s (.childSpawnFailed "Spawned child reported no PID")
    simp only [advance, Option.map_none, Option.getD_none, SpawnPoint.token]
    simp only [ActorMessage.token] at hpost
    omega
  | publish child pid => simp [advance, loose, SpawnPoint.token]
  | report child pid =>
    have hpost := loose_post s (.childSpawned pid)
    simp only [advance, Option.map_some, Option.getD_some, SpawnPoint.token]
    simp only [ActorMessage.token] at hpost
    omega
  | broadcast child pid =>
    have hedit := loose_editChild_le (s.broadcast (startEvent config.info pid attempt)) child
      announce_token
    have hsame : (s.broadcast (startEvent config.info pid attempt)).loose = s.loose := rfl
    simp only [advance, Option.map_some, Option.getD_some, SpawnPoint.token]
    omega
  | monitor child =>
    have hedit := loose_editChild_le s child watchOver_token
    simp only [advance, Option.map_none, Option.getD_none, SpawnPoint.token]
    omega

theorem advance_futures (config : PrimitiveActorConfig) (s : PrimitiveActor)
    (attempt : Option UInt32) (outcome : SpawnOutcome) (point : SpawnPoint) :
    (s.advance config attempt outcome point).1.boot = s.boot ∧
      (s.advance config attempt outcome point).1.task = s.task ∧
      (s.advance config attempt outcome point).1.shuttingDown = s.shuttingDown ∧
      (s.advance config attempt outcome point).1.begun = s.begun := by
  cases point <;> try exact ⟨rfl, rfl, rfl, rfl⟩
  case create => cases outcome <;> exact ⟨rfl, rfl, rfl, rfl⟩

/-- What the handler of a message leaves alone; the only spawn it can return is
a restart about to announce itself. -/
structure Handled (message : ActorMessage) (s t : PrimitiveActor) : Prop where
  mailbox : t.mailbox = s.mailbox
  children : t.children = s.children
  watch : t.watch = s.watch
  events : t.events = s.events
  boot : t.boot = s.boot
  signals : s.signals ⊆ t.signals
  shuttingDown : t.shuttingDown = (s.shuttingDown || message.isShutdown)
  spawns : ∀ sp, t.task = .spawn sp → s.shuttingDown = false ∧
    ∃ attempt, message = .restartChild attempt ∧ sp = ⟨some attempt, .announce⟩

theorem handled (config : PrimitiveActorConfig) (nowMs : UInt64) (message : ActorMessage)
    (hidle : s.task = .idle) : Handled message s (s.handle config nowMs message) := by
  cases message with
  | childExited pid code =>
    simp only [handle, handleExited]
    split
    · exact ⟨rfl, rfl, rfl, rfl, rfl, List.Subset.refl _, by simp [ActorMessage.isShutdown],
        by simp [hidle]⟩
    · split <;>
        exact ⟨rfl, rfl, rfl, rfl, rfl, List.Subset.refl _,
          by simp [apply, ActorMessage.isShutdown], by simp [apply, hidle]⟩
  | restartChild attempt =>
    simp only [handle]
    split
    · exact ⟨rfl, rfl, rfl, rfl, rfl, List.Subset.refl _, by simp [ActorMessage.isShutdown],
        by simp [hidle]⟩
    · rename_i hfree
      refine ⟨rfl, rfl, rfl, rfl, rfl, List.Subset.refl _, by simp [ActorMessage.isShutdown], ?_⟩
      intro sp hsp
      cases hsp
      refine ⟨?_, attempt, rfl, rfl⟩
      simp only [Bool.or_eq_true, not_or, Bool.not_eq_true] at hfree
      exact hfree.1
  | stopPrimitive =>
    simp only [handle, signalChild]
    split <;>
      exact ⟨rfl, rfl, rfl, rfl, rfl, by simp [apply], by simp [apply, ActorMessage.isShutdown],
        by simp [apply, hidle]⟩
  | _ =>
    exact ⟨rfl, rfl, rfl, rfl, rfl, List.Subset.refl _,
      by simp [handle, apply, ActorMessage.isShutdown], by simp [handle, apply, hidle]⟩

theorem handleExited_tokens (config : PrimitiveActorConfig) (nowMs : UInt64) (s : PrimitiveActor)
    (pid : Pid) (status : ℤ) (hidle : s.task = .idle) :
    (s.handleExited config nowMs pid status).tokens ≤ s.tokens + 1 := by
  unfold handleExited
  split
  · omega
  · simp only
    split <;>
      (simp only [tokens, bootToken, loose, apply, hidle, Awaited.token]; omega)

theorem handle_tokens (config : PrimitiveActorConfig) (nowMs : UInt64) (s : PrimitiveActor)
    (message : ActorMessage) (hidle : s.task = .idle) :
    (s.handle config nowMs message).tokens ≤ s.tokens + message.token := by
  cases message with
  | childExited pid status => exact handleExited_tokens config nowMs s pid status hidle
  | restartChild attempt =>
    simp only [handle]
    split
    · omega
    · simp only [tokens, bootToken, loose, Awaited.token, SpawnPoint.token, hidle,
        ActorMessage.token]
      omega
  | stopPrimitive =>
    simp only [handle, signalChild]
    split <;> exact le_rfl
  | childSpawning => exact le_rfl
  | childSpawned pid => exact le_rfl
  | childSpawnFailed error => exact le_rfl
  | healthCheck => exact le_rfl
  | engineShuttingDown => exact le_rfl

theorem monitorStep_tokens {i : ℕ} {c : Child} (hc : s.children[i]? = some c)
    (h : s.monitorStep config i c = some t) : t.tokens ≤ s.tokens := by
  obtain ⟨status, ⟨hphase, rfl⟩ | ⟨hphase, rfl⟩ | ⟨hphase, rfl⟩ | ⟨hphase, rfl⟩⟩ :=
    monitorStep_cases h
  · have hedit := loose_editChild hc fun _ => .reaped status
    simp only [hphase, ChildPhase.token] at hedit
    simp only [tokens, bootToken, editChild, loose] at hedit ⊢
    omega
  · have hedit := loose_editChild hc fun _ => .cleared status
    simp only [hphase, ChildPhase.token] at hedit
    simp only [tokens, bootToken, editChild, loose] at hedit ⊢
    omega
  · have hedit := loose_editChild
      (s := s.post (.childExited c.pid (exitCodeFromStatus status))) hc fun _ => .notified status
    have hpost := loose_post s (.childExited c.pid (exitCodeFromStatus status))
    simp only [hphase, ChildPhase.token, ActorMessage.token] at hedit hpost
    simp only [tokens, bootToken, editChild, post, loose] at hedit hpost ⊢
    omega
  · have hedit := loose_editChild hc fun _ => .reported status
    simp only [hphase, ChildPhase.token] at hedit
    simp only [tokens, bootToken, editChild, broadcast, loose] at hedit ⊢
    omega

theorem loseChild_tokens {i : ℕ} {c : Child} (hc : s.children[i]? = some c)
    (h : s.loseChild i c = some t) : t.tokens ≤ s.tokens := by
  rcases loseChild_cases h with ⟨hphase, rfl⟩ | ⟨status, hphase, rfl⟩
  · have hedit := loose_editChild hc fun _ => .alive .nobody
    simp only [hphase, ChildPhase.token] at hedit
    simp only [tokens, bootToken, editChild, loose] at hedit ⊢
    omega
  · have hedit := loose_editChild hc fun _ => .exited status .nobody
    simp only [hphase, ChildPhase.token] at hedit
    simp only [tokens, bootToken, editChild, loose] at hedit ⊢
    omega

theorem taskStep_tokens {outcome : SpawnOutcome} (h : s.taskStep config outcome = some t) :
    t.tokens ≤ s.tokens := by
  rcases taskStep_cases h with ⟨spawn, htask, rfl⟩ | ⟨attempt, htask, rfl⟩ | ⟨reason, htask, rfl⟩
  · obtain ⟨hboot, _, _, _⟩ := advance_futures config s spawn.attempt outcome spawn.point
    have hloose := advance_loose config s spawn.attempt outcome spawn.point
    have hslot : (((s.advance config spawn.attempt outcome spawn.point).2.map fun point =>
        Awaited.spawn ⟨spawn.attempt, point⟩).getD .idle).token =
        ((s.advance config spawn.attempt outcome spawn.point).2.map SpawnPoint.token).getD 0 := by
      cases (s.advance config spawn.attempt outcome spawn.point).2 <;> rfl
    have hheld : s.task.token = spawn.point.token := by rw [htask]; rfl
    simp only [tokens, bootToken, hheld, hboot, hslot]
    simp only [loose] at hloose ⊢
    omega
  · have hpost := loose_post s (.restartChild attempt)
    simp only [ActorMessage.token, loose, post] at hpost
    simp only [tokens, bootToken, post, loose, htask, Awaited.token]
    omega
  · simp only [tokens, bootToken, broadcast, loose, htask, Awaited.token]
    omega

theorem bootStep_tokens {outcome : SpawnOutcome} (h : s.bootStep config outcome = some t) :
    t.tokens ≤ s.tokens := by
  obtain ⟨spawn, hboot, rfl⟩ := Option.map_eq_some_iff.mp h
  obtain ⟨_, htask, _, _⟩ := advance_futures config s spawn.attempt outcome spawn.point
  have hloose := advance_loose config s spawn.attempt outcome spawn.point
  have hslot : (((s.advance config spawn.attempt outcome spawn.point).2.map fun point =>
      (⟨spawn.attempt, point⟩ : Spawn)).map fun spawn => spawn.point.token).getD 0 =
      ((s.advance config spawn.attempt outcome spawn.point).2.map SpawnPoint.token).getD 0 := by
    cases (s.advance config spawn.attempt outcome spawn.point).2 <;> rfl
  simp only [tokens, bootToken, htask, hboot, Option.map_some, Option.getD_some]
  simp only [loose] at hloose ⊢
  omega

/-- No step of the actor, of its tasks or of its children makes a token. -/
theorem step_tokens {a : ActorAction} (h : s.step config a = some t) : t.tokens ≤ s.tokens := by
  cases a with
  | send request =>
    cases h
    have hpost := loose_post s request.message
    have hzero : request.message.token = 0 := by cases request <;> rfl
    simp only [tokens, bootToken, post, loose] at hpost ⊢
    omega
  | deliver nowMs =>
    obtain ⟨message, mailbox, hmail, hidle, rfl⟩ := deliver_cases h
    have hhandle := handle_tokens config nowMs { s with mailbox := mailbox } message hidle
    have hpop : s.tokens = ({ s with mailbox := mailbox } : PrimitiveActor).tokens +
        message.token := by
      simp only [tokens, bootToken, loose, hmail, tally_cons]
      omega
    omega
  | bootStep outcome => exact bootStep_tokens h
  | taskStep outcome => exact taskStep_tokens h
  | exit i status =>
    obtain ⟨c, holder, hc, hphase, rfl⟩ := step_exit_cases h
    have hedit := loose_editChild hc fun _ => .exited status holder
    have hle : (ChildPhase.exited status holder).token ≤ 1 := by
      cases holder <;> simp [ChildPhase.token]
    have hone : c.phase.token = 1 := by rw [hphase]; rfl
    simp only [tokens, bootToken, editChild, loose] at hedit ⊢
    omega
  | monitorStep i =>
    obtain ⟨c, hc, h⟩ := Option.bind_eq_some_iff.mp h
    exact monitorStep_tokens hc h
  | waitFails i =>
    obtain ⟨c, hc, h⟩ := Option.bind_eq_some_iff.mp h
    exact loseChild_tokens hc h
  | kill pid =>
    cases h
    exact le_rfl
  | requestStop =>
    cases h
    exact le_rfl
  | terminate =>
    obtain ⟨signals, _, rfl⟩ := step_terminate_cases h
    exact le_rfl

/-! ### What the tokens count -/

/-- Spawns that have begun and have neither made a process nor reported that
they cannot. -/
def spawnsInProgress (s : PrimitiveActor) : ℕ :=
  s.bootToken + match s.task with
    | .spawn spawn => spawn.point.token
    | _ => 0

def liveChildren (s : PrimitiveActor) : ℕ := s.children.countP fun c => c.phase.isAlive

def undeliveredExits (s : PrimitiveActor) : ℕ :=
  s.mailbox.countP fun
    | .childExited _ _ => true
    | _ => false

def pendingRestarts (s : PrimitiveActor) : ℕ :=
  (s.mailbox.countP fun
    | .restartChild _ => true
    | _ => false) + match s.task with
    | .backoff _ => 1
    | _ => 0

theorem mailbox_counts (mailbox : List ActorMessage) :
    (mailbox.countP fun | .childExited _ _ => true | _ => false) +
      (mailbox.countP fun | .restartChild _ => true | _ => false) ≤
      tally ActorMessage.token mailbox := by
  induction mailbox with
  | nil => exact le_rfl
  | cons message mailbox ih =>
    rw [List.countP_cons, List.countP_cons, tally_cons]
    cases message <;> simp only [ActorMessage.token] <;> simp <;> omega

theorem counts_le_tokens (s : PrimitiveActor) :
    s.spawnsInProgress + s.liveChildren + s.undeliveredExits + s.pendingRestarts ≤ s.tokens := by
  have hlive : s.liveChildren ≤ tally Child.token s.children := by
    refine countP_le_tally (fun c hc => ?_) s.children
    cases hphase : c.phase with
    | alive holder => simp [Child.token, hphase, ChildPhase.token]
    | _ => simp [hphase, ChildPhase.isAlive] at hc
  have hmail := mailbox_counts s.mailbox
  simp only [spawnsInProgress, undeliveredExits, pendingRestarts, tokens, loose]
  cases s.task <;> simp only [Awaited.token] <;> omega

/-! ### Shutdown -/

theorem handle_shuttingDown {nowMs : UInt64} {message : ActorMessage}
    (h : s.shuttingDown = true) :
    (s.handle config nowMs message).shuttingDown = true ∧
      (s.handle config nowMs message).begun = s.begun := by
  cases message with
  | restartChild attempt => simp [handle, h]
  | childExited pid status =>
    simp only [handle, handleExited]
    split
    · exact ⟨h, rfl⟩
    · simp only [h, decideRestart_shuttingDown]
      exact ⟨h, rfl⟩
  | stopPrimitive =>
    simp only [handle, signalChild]
    split <;> exact ⟨rfl, rfl⟩
  | engineShuttingDown => exact ⟨rfl, rfl⟩
  | childSpawning => exact ⟨h, rfl⟩
  | childSpawned pid => exact ⟨h, rfl⟩
  | childSpawnFailed error => exact ⟨h, rfl⟩
  | healthCheck => exact ⟨h, rfl⟩

theorem step_shuttingDown {a : ActorAction} (hdown : s.shuttingDown = true)
    (h : s.step config a = some t) : t.shuttingDown = true ∧ t.begun = s.begun := by
  cases a with
  | send request =>
    cases h
    exact ⟨hdown, rfl⟩
  | deliver nowMs =>
    obtain ⟨message, mailbox, _, _, rfl⟩ := deliver_cases h
    exact handle_shuttingDown (s := { s with mailbox := mailbox }) hdown
  | bootStep outcome =>
    obtain ⟨spawn, _, rfl⟩ := Option.map_eq_some_iff.mp h
    obtain ⟨_, _, hsd, hbegun⟩ := advance_futures config s spawn.attempt outcome spawn.point
    exact ⟨hsd.trans hdown, hbegun⟩
  | taskStep outcome =>
    rcases taskStep_cases h with ⟨spawn, _, rfl⟩ | ⟨attempt, _, rfl⟩ | ⟨reason, _, rfl⟩
    · obtain ⟨_, _, hsd, hbegun⟩ := advance_futures config s spawn.attempt outcome spawn.point
      exact ⟨hsd.trans hdown, hbegun⟩
    · exact ⟨hdown, rfl⟩
    · exact ⟨hdown, rfl⟩
  | exit i status =>
    obtain ⟨c, holder, _, _, rfl⟩ := step_exit_cases h
    exact ⟨hdown, rfl⟩
  | monitorStep i =>
    obtain ⟨c, _, h⟩ := Option.bind_eq_some_iff.mp h
    obtain ⟨status, ⟨_, rfl⟩ | ⟨_, rfl⟩ | ⟨_, rfl⟩ | ⟨_, rfl⟩⟩ := monitorStep_cases h
    all_goals exact ⟨hdown, rfl⟩
  | waitFails i =>
    obtain ⟨c, _, h⟩ := Option.bind_eq_some_iff.mp h
    rcases loseChild_cases h with ⟨_, rfl⟩ | ⟨status, _, rfl⟩
    all_goals exact ⟨hdown, rfl⟩
  | kill pid =>
    cases h
    exact ⟨hdown, rfl⟩
  | requestStop =>
    cases h
    exact ⟨hdown, rfl⟩
  | terminate =>
    obtain ⟨signals, _, rfl⟩ := step_terminate_cases h
    exact ⟨hdown, rfl⟩

theorem run_begun {as : List ActorAction} (hdown : s.shuttingDown = true)
    (hrun : run (step config) s as = some t) : t.begun = s.begun := by
  have hinv : t.shuttingDown = true ∧ t.begun = s.begun := by
    refine run_invariant (I := fun u => u.shuttingDown = true ∧ u.begun = s.begun)
      (fun u a v hu h => ?_) ⟨hdown, rfl⟩ hrun
    obtain ⟨hv, hbegun⟩ := step_shuttingDown hu.1 h
    exact ⟨hv, hbegun.trans hu.2⟩
  exact hinv.2

theorem deliver_sets_shuttingDown {message : ActorMessage} {rest : List ActorMessage}
    {nowMs : UInt64} (hmail : s.mailbox = message :: rest)
    (hstop : message = .engineShuttingDown ∨ message = .stopPrimitive)
    (h : s.step config (.deliver nowMs) = some t) : t.shuttingDown = true := by
  simp only [step, deliver, hmail] at h
  split_ifs at h
  obtain rfl := Option.some.inj h
  rcases hstop with rfl | rfl
  · rfl
  · simp only [handle, signalChild]
    split <;> rfl

/-- In every reachable state at most one of: a spawn in progress, a live child,
an undelivered `ChildExited`, a pending restart. Once the actor has processed a
shutdown message it begins no spawn. -/
theorem run_at_most_one_child {config : PrimitiveActorConfig} {as : List ActorAction}
    {s : PrimitiveActor} (hrun : run (step config) start as = some s) :
    s.spawnsInProgress + s.liveChildren + s.undeliveredExits + s.pendingRestarts ≤ 1 ∧
      s.liveChildren ≤ 1 ∧
      ∀ message rest nowMs t bs u, s.mailbox = message :: rest →
        message = .engineShuttingDown ∨ message = .stopPrimitive →
        s.step config (.deliver nowMs) = some t → run (step config) t bs = some u →
        u.begun = t.begun := by
  have htokens : s.tokens ≤ 1 :=
    run_invariant (I := fun u => u.tokens ≤ 1) (fun u a v hu h => (step_tokens h).trans hu)
      (show start.tokens ≤ 1 by decide) hrun
  have hcounts := counts_le_tokens s
  refine ⟨by omega, by omega, ?_⟩
  intro message rest nowMs t bs u hmail hstop hstep hrest
  exact run_begun (deliver_sets_shuttingDown hmail hstop hstep) hrest

/-! A source that is always restarted, at once. -/

def timerInfo : PrimitiveInfo :=
  ⟨⟨"timer", Sdk.validPrimitiveName_timer⟩, .source, ["timer.tick"], []⟩

def timerActor : PrimitiveActorConfig := ⟨timerInfo, .always, ⟨0, 0, 5, 60000⟩⟩

def spawned (act : SpawnOutcome → ActorAction) (pid : Pid) : List ActorAction :=
  List.replicate 6 (act (.created pid))

/-- The first child starts, is recorded, crashes and is restarted; its monitor
takes `steps` steps before the actor learns of the crash. -/
def crashAndRestart (steps : ℕ) : List ActorAction :=
  spawned .bootStep 100 ++ [.deliver 0, .deliver 0, .exit 0 (.code 1)] ++
    List.replicate steps (.monitorStep 0) ++
    [.deliver 1, .taskStep (.created 101), .deliver 1] ++ spawned .taskStep 101

theorem run_at_most_one_child_timer :
    ∃ s, run (step timerActor) start (crashAndRestart 4) = some s ∧
      s.children.map (fun c => c.pid) = [100, 101] ∧
      s.spawnsInProgress + s.liveChildren + s.undeliveredExits + s.pendingRestarts ≤ 1 := by
  have hpids : (run (step timerActor) start (crashAndRestart 4)).map
      (fun s => s.children.map fun c => c.pid) = some [100, 101] := by decide
  obtain ⟨s, hrun, hs⟩ := Option.map_eq_some_iff.mp hpids
  exact ⟨s, hrun, hs, (run_at_most_one_child hrun).1⟩

end PrimitiveActor

end Emergent.Engine

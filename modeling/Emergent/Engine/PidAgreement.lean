import Emergent.Engine.ActorEvents
import Emergent.Engine.ActorTracking

/-!
# The pid watch, the recorded pid and the status

The pid of a child is kept in three places. The spawn and the monitor write the
watch, the handlers write the other two when they come to the message about it.
`Agreeing` says what the recorded pid will be once the mailbox is handled:
the pid that the watch shows, save between the writing of the watch and the
message that follows it. A `wait` that fails clears the watch and sends no
message.
-/

namespace Emergent.Engine
open Kit

/-! ### The status -/

structure PrimitiveStatus.Consistent (status : PrimitiveStatus) : Prop where
  pid : status.pid.isSome = true ↔ status.state = .running ∨ status.state = .stopping
  error : status.error.isSome = true ↔ status.state = .failed

theorem nextStatus_consistent {current : PrimitiveStatus} (h : current.Consistent)
    (event : LifecycleEvent) : (nextStatus current event).Consistent := by
  cases event with
  | spawnRequested => constructor <;> simp [nextStatus]
  | spawned pid => constructor <;> simp [nextStatus, PrimitiveStatus.running]
  | spawnFailed error => constructor <;> simp [nextStatus]
  | restartsExhausted reason => constructor <;> simp [nextStatus]
  | stopRequested =>
    rw [nextStatus]
    split
    · exact h
    · rename_i hpid
      have hsome : current.pid.isSome = true := by
        cases hp : current.pid with
        | none => rw [hp] at hpid; exact absurd rfl hpid
        | some pid => rfl
      have hstate := h.pid.mp hsome
      have herror : ¬ current.state = .failed := by
        rcases hstate with hrunning | hstopping
        · rw [hrunning]
          intro hfailed
          cases hfailed
        · rw [hstopping]
          intro hfailed
          cases hfailed
      constructor
      · simp [hsome]
      · simp [mt h.error.mp herror]
  | exited pid code =>
    rw [nextStatus]
    split
    · exact h
    · split
      · constructor <;> simp
      · constructor <;> simp

/-- The monitor is between the exit of its child and its own end. -/
def ChildPhase.isBusy : ChildPhase → Bool
  | .reaped _ | .cleared _ | .notified _ => true
  | _ => false

/-- The watch is cleared and the actor is not told. -/
def ChildPhase.isCleared : ChildPhase → Bool
  | .cleared _ => true
  | _ => false

/-- The spawn has made no process that it could publish. -/
def SpawnPoint.isEmptyHanded : SpawnPoint → Bool
  | .announce | .create | .failed _ | .unidentified => true
  | _ => false

theorem ChildPhase.token_of_watched {phase : ChildPhase} (h : phase.isWatched = true) :
    phase.token = 1 := by
  rcases phase with (_ | _ | _) | ⟨_, _ | _ | _⟩ | _ | _ | _ | _ <;> simp_all [isWatched, token]

theorem ChildPhase.watched_of_cleared {phase : ChildPhase} (h : phase.isCleared = true) :
    phase.isWatched = true ∧ phase.isHeld = false ∧ phase.isMonitored = false := by
  cases phase <;> simp_all [isCleared, isWatched, isHeld, isMonitored]

theorem ChildPhase.watched_of_monitored {phase : ChildPhase} (h : phase.isMonitored = true) :
    phase.isWatched = true := by
  rcases phase with (_ | _ | _) | ⟨_, _ | _ | _⟩ | _ | _ | _ | _ <;>
    simp_all [isWatched, isMonitored]

def ActorAction.isWaitError : ActorAction → Bool
  | .waitFails _ => true
  | _ => false

namespace PrimitiveActor

/-- No spawn, monitor or restart is in progress and nothing waits to be handled. -/
structure Quiescent (s : PrimitiveActor) : Prop where
  mailbox : s.mailbox = []
  boot : s.boot = none
  task : s.task = .idle
  monitors : ∀ c ∈ s.children, c.phase.isBusy = false

def isQuiescent (s : PrimitiveActor) : Bool :=
  s.mailbox.isEmpty && s.boot.isNone && s.task == .idle &&
    s.children.all fun c => !c.phase.isBusy

theorem quiescent_of_isQuiescent {s : PrimitiveActor} (h : s.isQuiescent = true) :
    s.Quiescent := by
  simp only [isQuiescent, Bool.and_eq_true, List.isEmpty_iff, Option.isNone_iff_eq_none,
    beq_iff_eq, List.all_eq_true, Bool.not_eq_true'] at h
  obtain ⟨⟨⟨hmailbox, hboot⟩, htask⟩, hmonitors⟩ := h
  exact ⟨hmailbox, hboot, htask, hmonitors⟩

structure PidsAgree (s : PrimitiveActor) : Prop where
  watch : s.watch = s.childPid
  recorded : s.childPid = s.status.pid
  status : s.status.Consistent

variable {config : PrimitiveActorConfig} {s t : PrimitiveActor}

/-! ### The first spawn is alone -/

/-- While the first spawn runs there is no exit to handle, hence no restart. -/
def Alone (s : PrimitiveActor) : Prop :=
  s.boot.isSome = true → s.task = .idle ∧ tally ActorMessage.token s.mailbox = 0 ∧
    ∀ c ∈ s.children, c.phase.isWatched = false ∧ c.phase.isSettled = false

theorem mem_editChild {i : ℕ} {edit : ChildPhase → ChildPhase} {c : Child}
    (h : c ∈ (s.editChild i edit).children) :
    ∃ d ∈ s.children, c = d ∨ (s.children[i]? = some d ∧ c = { d with phase := edit d.phase }) := by
  obtain ⟨j, hj⟩ := List.getElem?_of_mem h
  rcases getElem?_modify_cases hj with ⟨rfl, d, hd, rfl⟩ | ⟨_, hd⟩
  · exact ⟨d, List.mem_of_getElem? hd, Or.inr ⟨hd, rfl⟩⟩
  · exact ⟨c, List.mem_of_getElem? hd, Or.inl rfl⟩

theorem advance_mail (config : PrimitiveActorConfig) (s : PrimitiveActor)
    (attempt : Option UInt32) (outcome : SpawnOutcome) (point : SpawnPoint) :
    tally ActorMessage.token (s.advance config attempt outcome point).1.mailbox =
      tally ActorMessage.token s.mailbox := by
  cases point with
  | create => cases outcome <;> rfl
  | announce => simp [advance, post, ActorMessage.token]
  | failed error => simp [advance, post, ActorMessage.token]
  | unidentified => simp [advance, post, ActorMessage.token]
  | report i pid => simp [advance, post, ActorMessage.token]
  | _ => rfl

theorem advance_young {attempt : Option UInt32} {outcome : SpawnOutcome} {point : SpawnPoint}
    (h : ∀ c ∈ s.children, c.phase.isWatched = false ∧ c.phase.isSettled = false)
    (hnext : ((s.advance config attempt outcome point).2).isSome = true) :
    ∀ c ∈ (s.advance config attempt outcome point).1.children,
      c.phase.isWatched = false ∧ c.phase.isSettled = false := by
  have hsnoc : ∀ (c : Child), c.phase.isWatched = false ∧ c.phase.isSettled = false →
      ∀ d ∈ s.children ++ [c], d.phase.isWatched = false ∧ d.phase.isSettled = false := by
    intro c hc d hd
    rcases List.mem_append.mp hd with hd | hd
    · exact h d hd
    · obtain rfl := List.mem_singleton.mp hd
      exact hc
  cases point with
  | create =>
    cases outcome with
    | failed error => exact h
    | unidentified pid => exact hsnoc _ ⟨rfl, rfl⟩
    | created pid => exact hsnoc _ ⟨rfl, rfl⟩
  | broadcast i pid =>
    intro c hc
    obtain ⟨d, hd, rfl | ⟨_, rfl⟩⟩ := mem_editChild hc
    · exact h c hd
    · have hyoung := h d hd
      revert hyoung
      rcases d.phase with (_ | _ | _) | ⟨_, _ | _ | _⟩ | _ | _ | _ | _ <;>
        simp [ChildPhase.announce, ChildPhase.isWatched, ChildPhase.isSettled]
  | monitor i => cases hnext
  | _ => exact h

theorem handle_task {nowMs : UInt64} {message : ActorMessage} (h : message.token = 0) :
    (s.handle config nowMs message).task = s.task := by
  cases message with
  | childExited pid status => cases h
  | restartChild attempt => cases h
  | stopPrimitive =>
    simp only [handle, signalChild]
    split <;> rfl
  | _ => rfl

theorem Alone.step (h : s.Alone) {a : ActorAction} (hstep : s.step config a = some t) :
    t.Alone := by
  intro hboot
  have hedit : ∀ {i : ℕ} {c : Child} (phase : ChildPhase), s.children[i]? = some c →
      s.boot.isSome = true → c.phase.isWatched = phase.isWatched →
      c.phase.isSettled = phase.isSettled → ∀ d ∈ (s.editChild i fun _ => phase).children,
      d.phase.isWatched = false ∧ d.phase.isSettled = false := by
    intro i c phase hc hb hwatched hsettled d hd
    have hyoung := (h hb).2.2
    obtain ⟨e, he, rfl | ⟨hi, rfl⟩⟩ := mem_editChild hd
    · exact hyoung d he
    · obtain rfl := Option.some.inj (hc.symm.trans hi)
      obtain ⟨hw, hsd⟩ := hyoung c he
      exact ⟨hwatched ▸ hw, hsettled ▸ hsd⟩
  cases a with
  | send request =>
    obtain rfl := Option.some.inj hstep
    obtain ⟨htask, htally, hyoung⟩ := h hboot
    refine ⟨htask, ?_, hyoung⟩
    have hzero : request.message.token = 0 := by cases request <;> rfl
    simp only [PrimitiveActor.post, tally_append, tally_cons, tally_nil, htally, hzero]
  | deliver nowMs =>
    obtain ⟨message, mailbox, hmail, hidle, rfl⟩ := deliver_cases hstep
    have hdone := handled config (s := { s with mailbox := mailbox }) nowMs message hidle
    obtain ⟨htask, htally, hyoung⟩ := h (hdone.boot ▸ hboot)
    rw [hmail, tally_cons] at htally
    refine ⟨?_, ?_, ?_⟩
    · rw [handle_task (by omega)]
      exact htask
    · rw [hdone.mailbox]
      show tally ActorMessage.token mailbox = 0
      omega
    · rw [hdone.children]
      exact hyoung
  | bootStep outcome =>
    obtain ⟨sp, hsp, rfl⟩ := Option.map_eq_some_iff.mp hstep
    obtain ⟨htask, htally, hyoung⟩ := h (by rw [hsp]; rfl)
    have hnext : ((s.advance config sp.attempt outcome sp.point).2).isSome = true := by
      have hb : ((s.advance config sp.attempt outcome sp.point).2.map
        fun point => (⟨sp.attempt, point⟩ : Spawn)).isSome = true := hboot
      rw [Option.isSome_map] at hb
      exact hb
    refine ⟨?_, ?_, advance_young hyoung hnext⟩
    · exact (advance_futures config s sp.attempt outcome sp.point).2.1.trans htask
    · exact (advance_mail config s sp.attempt outcome sp.point).trans htally
  | taskStep outcome =>
    have hidle : s.boot.isSome = true → s.task = .idle := fun hb => (h hb).1
    rcases taskStep_cases hstep with ⟨sp, htask, rfl⟩ | ⟨attempt, htask, rfl⟩ | ⟨reason, htask, rfl⟩
    · have hb := (advance_futures config s sp.attempt outcome sp.point).1 ▸ hboot
      rw [hidle hb] at htask
      cases htask
    · rw [hidle hboot] at htask
      cases htask
    · rw [hidle hboot] at htask
      cases htask
  | exit i status =>
    obtain ⟨c, holder, hc, hphase, rfl⟩ := step_exit_cases hstep
    obtain ⟨htask, htally, _⟩ := h hboot
    refine ⟨htask, htally, hedit _ hc hboot ?_ ?_⟩
    · rw [hphase]
      cases holder <;> rfl
    · rw [hphase]
      cases holder <;> rfl
  | monitorStep i =>
    -- no child has a monitor yet
    obtain ⟨c, hc, h'⟩ := Option.bind_eq_some_iff.mp hstep
    have hsame : t.boot = s.boot := by
      obtain ⟨status, ⟨_, rfl⟩ | ⟨_, rfl⟩ | ⟨_, rfl⟩ | ⟨_, rfl⟩⟩ := monitorStep_cases h' <;> rfl
    have hyoung := (h (hsame ▸ hboot)).2.2 c (List.mem_of_getElem? hc)
    obtain ⟨status, ⟨hphase, _⟩ | ⟨hphase, _⟩ | ⟨hphase, _⟩ | ⟨hphase, _⟩⟩ :=
      monitorStep_cases h' <;> simp [hphase, ChildPhase.isWatched, ChildPhase.isSettled] at hyoung
  | waitFails i =>
    obtain ⟨c, hc, h'⟩ := Option.bind_eq_some_iff.mp hstep
    have hsame : t.boot = s.boot := by
      rcases loseChild_cases h' with ⟨_, rfl⟩ | ⟨status, _, rfl⟩ <;> rfl
    have hyoung := (h (hsame ▸ hboot)).2.2 c (List.mem_of_getElem? hc)
    rcases loseChild_cases h' with ⟨hphase, _⟩ | ⟨status, hphase, _⟩ <;>
      simp [hphase, ChildPhase.isWatched] at hyoung
  | kill pid =>
    obtain rfl := Option.some.inj hstep
    exact h hboot
  | requestStop =>
    obtain rfl := Option.some.inj hstep
    exact h hboot
  | terminate =>
    obtain ⟨signals, _, rfl⟩ := step_terminate_cases hstep
    exact h hboot

/-! ### The pid to come -/

/-- The recorded pid once the mailbox is handled. -/
def pidToCome (s : PrimitiveActor) : Option Pid := pidAfter s.childPid s.mailbox

/-- Where the one spawn that runs is, if there is one. -/
def livePoint (s : PrimitiveActor) : Option SpawnPoint :=
  (s.boot.or (awaitedSpawn s.task)).map fun sp => sp.point

def SpawnPoint.reports : Option SpawnPoint → Bool
  | some (.report _ _) => true
  | _ => false

structure Agreeing (s : PrimitiveActor) (point : Option SpawnPoint) : Prop where
  emptyHanded : ∀ p, point = some p → p.isEmptyHanded = true → ∀ c ∈ s.children,
    c.phase.isHeld = false ∧ c.phase.isWatched = false
  reporting : SpawnPoint.reports point = true → s.pidToCome = none
  cleared : ∀ c ∈ s.children, c.phase.isCleared = true → s.pidToCome = some c.pid
  agree : SpawnPoint.reports point = false → (∀ c ∈ s.children, c.phase.isCleared = false) →
    s.pidToCome = s.watch

theorem pidToCome_post (s : PrimitiveActor) (message : ActorMessage) :
    (s.post message).pidToCome = message.pidEffect s.pidToCome :=
  pidAfter_snoc s.childPid s.mailbox message

theorem Tracked.watch_of_closed (hs : s.Tracked)
    (h : ∀ c ∈ s.children, c.phase.isHeld = false ∧ c.phase.isMonitored = false) :
    s.watch = none := by
  cases hw : s.watch with
  | none => rfl
  | some pid =>
    obtain ⟨i, c, hc, _, hshown⟩ := hs.shown pid hw
    obtain ⟨hheld, hmonitored⟩ := h c (List.mem_of_getElem? hc)
    rw [hheld, hmonitored] at hshown
    simp at hshown

/-- The child that a spawn holds has the one token. -/
theorem not_cleared_of_keeps (htokens : s.tokens ≤ 1) {attempt : Option UInt32} {i : ℕ} {pid : Pid}
    (h : s.Keeps attempt i pid) : ∀ c ∈ s.children, c.phase.isCleared = false := by
  intro c hc
  obtain ⟨d, hd, _, _, hheld⟩ := h
  obtain ⟨j, hj⟩ := List.getElem?_of_mem hc
  cases hcleared : c.phase.isCleared with
  | false => rfl
  | true =>
    obtain ⟨hwatched, hfree, _⟩ := ChildPhase.watched_of_cleared hcleared
    obtain rfl := eq_of_tokens htokens hd hj (token_of_held hheld)
      (ChildPhase.token_of_watched hwatched)
    obtain rfl := Option.some.inj (hd.symm.trans hj)
    rw [hheld] at hfree
    cases hfree

section
variable {attempt : Option UInt32} {point : SpawnPoint}

theorem Agreeing.silent {old next : Option SpawnPoint} (h : s.Agreeing old)
    (hchildren : t.children = s.children) (hwatch : t.watch = s.watch)
    (hpid : t.pidToCome = s.pidToCome)
    (hreports : SpawnPoint.reports next = SpawnPoint.reports old)
    (hempty : ∀ p, next = some p → p.isEmptyHanded = true → ∀ c ∈ s.children,
      c.phase.isHeld = false ∧ c.phase.isWatched = false) : t.Agreeing next := by
  constructor
  · rw [hchildren]
    exact hempty
  · rw [hreports, hpid]
    exact h.reporting
  · rw [hchildren, hpid]
    exact h.cleared
  · rw [hreports, hchildren, hpid, hwatch]
    exact h.agree

/-- No process that could be published is there and none is recorded. -/
theorem agreeing_none {next : Option SpawnPoint}
    (hclosed : ∀ c ∈ t.children, c.phase.isWatched = false)
    (hempty : ∀ p, next = some p → p.isEmptyHanded = true → ∀ c ∈ t.children,
      c.phase.isHeld = false)
    (hpid : t.pidToCome = none) (hwatch : t.watch = none) : t.Agreeing next := by
  constructor
  · intro p hp he c hc
    exact ⟨hempty p hp he c hc, hclosed c hc⟩
  · intro _
    exact hpid
  · intro c hc hcleared
    have hwatched := (ChildPhase.watched_of_cleared hcleared).1
    rw [hclosed c hc] at hwatched
    cases hwatched
  · intro _ _
    rw [hpid, hwatch]

/-- The spawn holds a child that it has published. -/
theorem agreeing_shown {next : Option SpawnPoint}
    (hopen : ∀ c ∈ t.children, c.phase.isCleared = false)
    (hempty : ∀ p, next = some p → p.isEmptyHanded = false)
    (hreports : SpawnPoint.reports next = false) (hpid : t.pidToCome = t.watch) :
    t.Agreeing next := by
  constructor
  · intro p hp he
    rw [hempty p hp] at he
    cases he
  · intro hr
    rw [hreports] at hr
    cases hr
  · intro c hc hcleared
    rw [hopen c hc] at hcleared
    cases hcleared
  · intro _ _
    exact hpid

theorem isCleared_edit {i : ℕ} {edit : ChildPhase → ChildPhase}
    (hedit : ∀ phase, (edit phase).isCleared = phase.isCleared)
    (h : ∀ c ∈ s.children, c.phase.isCleared = false) :
    ∀ c ∈ (s.editChild i edit).children, c.phase.isCleared = false := by
  intro c hc
  obtain ⟨d, hd, rfl | ⟨_, rfl⟩⟩ := mem_editChild hc
  · exact h c hd
  · exact (hedit d.phase).trans (h d hd)

theorem announce_isCleared (phase : ChildPhase) : phase.announce.isCleared = phase.isCleared := by
  rcases phase with (_ | _ | _) | ⟨_, _ | _ | _⟩ | _ | _ | _ | _ <;> rfl

theorem watchOver_isCleared (phase : ChildPhase) :
    phase.watchOver.isCleared = phase.isCleared := by
  rcases phase with (_ | _ | _) | ⟨_, _ | _ | _⟩ | _ | _ | _ | _ <;> rfl

/-- With nothing to publish neither the watch nor the mailbox names a pid. -/
theorem Agreeing.none_of_emptyHanded (h : s.Agreeing (some point)) (hs : s.Tracked)
    (he : point.isEmptyHanded = true) :
    s.watch = none ∧ s.pidToCome = none ∧
      (∀ c ∈ s.children, c.phase.isWatched = false ∧ c.phase.isHeld = false) := by
  have hclosed := h.emptyHanded point rfl he
  have hmonitored : ∀ c ∈ s.children, c.phase.isMonitored = false := by
    intro c hc
    cases hm : c.phase.isMonitored with
    | false => rfl
    | true => exact (ChildPhase.watched_of_monitored hm).symm.trans (hclosed c hc).2
  have hwatch := hs.watch_of_closed fun c hc => ⟨(hclosed c hc).1, hmonitored c hc⟩
  have hreports : SpawnPoint.reports (some point) = false := by
    cases point <;> first | rfl | cases he
  have hcleared : ∀ c ∈ s.children, c.phase.isCleared = false := by
    intro c hc
    cases hcl : c.phase.isCleared with
    | false => rfl
    | true => exact (ChildPhase.watched_of_cleared hcl).1.symm.trans (hclosed c hc).2
  exact ⟨hwatch, (h.agree hreports hcleared).trans hwatch,
    fun c hc => ⟨(hclosed c hc).2, (hclosed c hc).1⟩⟩

/-- A spawn with nothing to publish tells the actor that no child is there. -/
theorem Agreeing.posted (h : s.Agreeing (some point)) (hs : s.Tracked)
    (he : point.isEmptyHanded = true) {message : ActorMessage}
    (hnone : message.pidEffect s.pidToCome = none) (next : Option SpawnPoint) :
    (s.post message).Agreeing next := by
  obtain ⟨hwatch, _, hclosed⟩ := h.none_of_emptyHanded hs he
  apply agreeing_none
  · exact fun c hc => (hclosed c hc).1
  · exact fun _ _ _ c hc => (hclosed c hc).2
  · exact (pidToCome_post s message).trans hnone
  · exact hwatch

theorem Agreeing.advance_create (h : s.Agreeing (some .create)) (hs : s.Tracked)
    (config : PrimitiveActorConfig) (outcome : SpawnOutcome) :
    (s.advance config attempt outcome .create).1.Agreeing
      (s.advance config attempt outcome .create).2 := by
  obtain ⟨hwatch, hpid, hclosed⟩ := h.none_of_emptyHanded hs rfl
  cases outcome with
  | failed error =>
    exact agreeing_none (fun c hc => (hclosed c hc).1) (fun _ _ _ c hc => (hclosed c hc).2)
      hpid rfl
  | unidentified pid =>
    have hnew : ∀ c ∈ s.children ++ [⟨pid, attempt, .alive .nobody⟩],
        c.phase.isWatched = false ∧ c.phase.isHeld = false := by
      intro c hc
      rcases List.mem_append.mp hc with hc | hc
      · exact hclosed c hc
      · obtain rfl := List.mem_singleton.mp hc
        exact ⟨rfl, rfl⟩
    exact agreeing_none (fun c hc => (hnew c hc).1) (fun _ _ _ c hc => (hnew c hc).2) hpid rfl
  | created pid =>
    have hnew : ∀ c ∈ s.children ++ [⟨pid, attempt, .alive (.spawn false)⟩],
        c.phase.isWatched = false := by
      intro c hc
      rcases List.mem_append.mp hc with hc | hc
      · exact (hclosed c hc).1
      · obtain rfl := List.mem_singleton.mp hc
        rfl
    apply agreeing_none
    · exact hnew
    · intro p hp he
      cases hp
      cases he
    · exact hpid
    · exact hwatch

theorem Agreeing.advance (h : s.Agreeing (some point)) (hs : s.Tracked)
    (config : PrimitiveActorConfig) (outcome : SpawnOutcome)
    (hpub : s.Publishes ⟨attempt, point⟩) :
    (s.advance config attempt outcome point).1.Agreeing
      (s.advance config attempt outcome point).2 := by
  cases point with
  | announce => exact h.posted hs rfl rfl _
  | create => exact h.advance_create hs config outcome
  | failed error => exact h.posted hs rfl rfl _
  | failedEvent error =>
    apply h.silent
    · rfl
    · rfl
    · rfl
    · rfl
    · intro p hp
      cases hp
  | unidentified => exact h.posted hs rfl rfl _
  | publish i pid =>
    obtain ⟨hkeeps, hwatch⟩ := hpub
    have hopen := not_cleared_of_keeps hs.tokens hkeeps
    have hpid : s.pidToCome = none := (h.agree rfl hopen).trans hwatch
    constructor
    · intro p hp he
      cases hp
      cases he
    · intro _
      exact hpid
    · intro c hc hcleared
      rw [hopen c hc] at hcleared
      cases hcleared
    · intro hreports
      cases hreports
  | report i pid =>
    obtain ⟨hkeeps, hwatch⟩ := hpub
    have hopen := not_cleared_of_keeps hs.tokens hkeeps
    apply agreeing_shown
    · exact hopen
    · intro p hp
      cases hp
      rfl
    · rfl
    · exact (pidToCome_post s (.childSpawned pid)).trans hwatch.symm
  | broadcast i pid =>
    have hopen := not_cleared_of_keeps hs.tokens hpub.1
    apply agreeing_shown
    · exact isCleared_edit announce_isCleared hopen
    · intro p hp
      cases hp
      rfl
    · rfl
    · exact h.agree rfl hopen
  | monitor i =>
    obtain ⟨pid, hkeeps, _⟩ := hpub
    have hopen := not_cleared_of_keeps hs.tokens hkeeps
    apply agreeing_shown
    · exact isCleared_edit watchOver_isCleared hopen
    · intro p hp
      cases hp
    · rfl
    · exact h.agree rfl hopen

end

/-! ### The invariant -/

/-- What every run keeps in which no `wait` fails. -/
structure Recorded (s : PrimitiveActor) : Prop where
  tracked : s.Tracked
  alone : s.Alone
  recorded : s.childPid = s.status.pid
  consistent : s.status.Consistent
  agreeing : s.Agreeing s.livePoint

theorem recorded_start : start.Recorded where
  tracked := tracked_start
  alone := by
    intro _
    refine ⟨rfl, rfl, ?_⟩
    intro c hc
    cases hc
  recorded := rfl
  consistent := by constructor <;> simp [start, PrimitiveStatus.configured]
  agreeing := by
    apply agreeing_none
    · intro c hc
      cases hc
    · intro p hp he c hc
      cases hc
    · rfl
    · rfl

theorem handleExited_consistent (h : s.status.Consistent) (nowMs : UInt64) (pid : Pid)
    (code : ℤ) : (s.handleExited config nowMs pid code).status.Consistent := by
  have hleft := nextStatus_consistent h (.exited pid code)
  rw [handleExited]
  split
  · exact h
  · dsimp only
    split
    · exact hleft
    · exact hleft
    · exact nextStatus_consistent hleft .spawnRequested
    · exact nextStatus_consistent hleft (.restartsExhausted _)

theorem handle_consistent (config : PrimitiveActorConfig) (h : s.status.Consistent)
    (nowMs : UInt64) (message : ActorMessage) :
    (s.handle config nowMs message).status.Consistent := by
  cases message with
  | childSpawning => exact nextStatus_consistent h .spawnRequested
  | childSpawned pid => exact nextStatus_consistent h (.spawned pid)
  | childSpawnFailed error => exact nextStatus_consistent h (.spawnFailed error)
  | childExited pid code => exact handleExited_consistent h nowMs pid code
  | restartChild attempt =>
    rw [handle]
    split <;> exact h
  | healthCheck => exact h
  | stopPrimitive =>
    obtain ⟨signals, _, hsignal⟩ :=
      signalChild_eq (({ s with shuttingDown := true }).apply .stopRequested) s.childPid
    rw [handle, hsignal]
    exact nextStatus_consistent h .stopRequested
  | engineShuttingDown => exact h

theorem livePoint_of_boot {sp : Spawn} (h : s.boot = some sp) : s.livePoint = some sp.point := by
  rw [livePoint, h]
  rfl

theorem livePoint_of_task {sp : Spawn} (hboot : s.boot = none) (h : s.task = .spawn sp) :
    s.livePoint = some sp.point := by
  rw [livePoint, hboot, h]
  rfl

theorem livePoint_of_idle (hboot : s.boot = none) (h : ∀ sp, s.task ≠ .spawn sp) :
    s.livePoint = none := by
  rw [livePoint, hboot]
  cases htask : s.task with
  | spawn sp => exact absurd htask (h sp)
  | _ => rfl

theorem livePoint_boot_next {attempt : Option UInt32} {next : Option SpawnPoint}
    (hboot : s.boot = next.map fun point => ⟨attempt, point⟩) (htask : s.task = .idle) :
    s.livePoint = next := by
  rw [livePoint, hboot, htask]
  cases next <;> rfl

theorem livePoint_task_next {attempt : Option UInt32} {next : Option SpawnPoint}
    (hboot : s.boot = none)
    (htask : s.task = (next.map fun point => .spawn ⟨attempt, point⟩).getD .idle) :
    s.livePoint = next := by
  rw [livePoint, hboot, htask]
  cases next <;> rfl

/-- A queued restart has the one token, so no child has it. -/
theorem closed_of_message {message : ActorMessage} (htokens : s.tokens ≤ 1)
    (hmem : message ∈ s.mailbox) (hone : message.token = 1) :
    ∀ c ∈ s.children, c.phase.isHeld = false ∧ c.phase.isWatched = false := by
  have hle : message.token ≤ tally ActorMessage.token s.mailbox := weight_le_tally hmem
  have hnone : ∀ c ∈ s.children, c.phase.token ≠ 1 := by
    intro c hc htoken
    have hchild : c.token ≤ tally Child.token s.children := weight_le_tally hc
    have hone' : c.token = 1 := htoken
    simp only [tokens, loose] at htokens
    omega
  intro c hc
  constructor
  · cases hheld : c.phase.isHeld with
    | false => rfl
    | true => exact absurd (token_of_held hheld) (hnone c hc)
  · cases hwatched : c.phase.isWatched with
    | false => rfl
    | true => exact absurd (ChildPhase.token_of_watched hwatched) (hnone c hc)

/-- A handler that begins nothing but a restart keeps what the mailbox says. -/
theorem Agreeing.handled {message : ActorMessage} (h : s.Agreeing s.livePoint)
    (htokens : s.tokens ≤ 1) (hmem : message ∈ s.mailbox) (hidle : s.task = .idle)
    (hboot : t.boot = s.boot) (hchildren : t.children = s.children) (hwatch : t.watch = s.watch)
    (hpid : t.pidToCome = s.pidToCome)
    (hspawns : ∀ sp, t.task = .spawn sp → ∃ attempt, message = .restartChild attempt ∧
      sp = ⟨some attempt, .announce⟩) : t.Agreeing t.livePoint := by
  cases hb : s.boot with
  | some sp =>
    rw [livePoint_of_boot (hboot.trans hb)]
    rw [livePoint_of_boot hb] at h
    exact h.silent hchildren hwatch hpid rfl h.emptyHanded
  | none =>
    have hnone : s.livePoint = none := by
      apply livePoint_of_idle hb
      intro sp hsp
      rw [hidle] at hsp
      cases hsp
    rw [hnone] at h
    have hb' := hboot.trans hb
    by_cases hspawn : ∃ sp, t.task = .spawn sp
    · obtain ⟨sp, hsp⟩ := hspawn
      obtain ⟨attempt, rfl, rfl⟩ := hspawns sp hsp
      rw [livePoint_of_task hb' hsp]
      apply h.silent
      · exact hchildren
      · exact hwatch
      · exact hpid
      · rfl
      · intro p _ _
        exact closed_of_message htokens hmem rfl
    · rw [livePoint_of_idle hb' (not_exists.mp hspawn)]
      apply h.silent hchildren hwatch hpid rfl
      intro p hp
      cases hp

theorem Recorded.deliver (hs : s.Recorded) (ht : t.Tracked) (ha : t.Alone) {nowMs : UInt64}
    (h : s.deliver config nowMs = some t) : t.Recorded := by
  obtain ⟨message, mailbox, hmail, hidle, rfl⟩ := deliver_cases h
  have hdone :=
    PrimitiveActor.handled config (s := { s with mailbox := mailbox }) nowMs message hidle
  obtain ⟨hpid, hstatus⟩ :=
    handle_pid config (s := { s with mailbox := mailbox }) hs.recorded nowMs message
  have hcome : (PrimitiveActor.handle config nowMs
      ({ s with mailbox := mailbox } : PrimitiveActor) message).pidToCome = s.pidToCome := by
    rw [pidToCome, pidToCome, hpid, hdone.mailbox, hmail, pidAfter_cons]
  have hconsistent := handle_consistent config (s := { s with mailbox := mailbox })
    hs.consistent nowMs message
  refine ⟨ht, ha, hstatus, hconsistent, ?_⟩
  apply hs.agreeing.handled hs.tracked.tokens (hmail ▸ List.mem_cons_self) hidle hdone.boot
    hdone.children hdone.watch hcome
  intro sp hsp
  exact (hdone.spawns sp hsp).2

theorem advance_status (config : PrimitiveActorConfig) (s : PrimitiveActor)
    (attempt : Option UInt32) (outcome : SpawnOutcome) (point : SpawnPoint) :
    (s.advance config attempt outcome point).1.status = s.status ∧
      (s.advance config attempt outcome point).1.childPid = s.childPid := by
  cases point <;> try exact ⟨rfl, rfl⟩
  case create => cases outcome <;> exact ⟨rfl, rfl⟩

theorem Agreeing.congr {point : Option SpawnPoint} (h : s.Agreeing point)
    (hchildren : t.children = s.children) (hwatch : t.watch = s.watch)
    (hchild : t.childPid = s.childPid) (hmailbox : t.mailbox = s.mailbox) : t.Agreeing point := by
  have hpid : t.pidToCome = s.pidToCome := by rw [pidToCome, pidToCome, hchild, hmailbox]
  exact h.silent hchildren hwatch hpid rfl h.emptyHanded

section
variable {u : PrimitiveActor} {attempt : Option UInt32} {next : Option SpawnPoint}

theorem Agreeing.bootNext (h : u.Agreeing next)
    (hboot : t.boot = next.map fun point => ⟨attempt, point⟩) (htask : t.task = .idle)
    (hchildren : t.children = u.children) (hwatch : t.watch = u.watch)
    (hchild : t.childPid = u.childPid) (hmailbox : t.mailbox = u.mailbox) :
    t.Agreeing t.livePoint := by
  rw [livePoint_boot_next hboot htask]
  exact h.congr hchildren hwatch hchild hmailbox

theorem Agreeing.taskNext (h : u.Agreeing next) (hboot : t.boot = none)
    (htask : t.task = (next.map fun point => .spawn ⟨attempt, point⟩).getD .idle)
    (hchildren : t.children = u.children) (hwatch : t.watch = u.watch)
    (hchild : t.childPid = u.childPid) (hmailbox : t.mailbox = u.mailbox) :
    t.Agreeing t.livePoint := by
  rw [livePoint_task_next hboot htask]
  exact h.congr hchildren hwatch hchild hmailbox

end

/-- The other futures of a handler end without a word about a child. -/
theorem Agreeing.ended (h : s.Agreeing s.livePoint) (hboot : s.boot = none)
    (hspawn : ∀ sp, s.task ≠ .spawn sp) (hboot' : t.boot = none) (htask : t.task = .idle)
    (hchildren : t.children = s.children) (hwatch : t.watch = s.watch)
    (hpid : t.pidToCome = s.pidToCome) : t.Agreeing t.livePoint := by
  have hnone : t.livePoint = none := by
    apply livePoint_of_idle hboot'
    intro sp hsp
    rw [htask] at hsp
    cases hsp
  rw [livePoint_of_idle hboot hspawn] at h
  rw [hnone]
  exact h.silent hchildren hwatch hpid rfl h.emptyHanded

theorem Recorded.bootStep (hs : s.Recorded) (ht : t.Tracked) (ha : t.Alone)
    {outcome : SpawnOutcome} (h : s.bootStep config outcome = some t) : t.Recorded := by
  obtain ⟨sp, hboot, rfl⟩ := Option.map_eq_some_iff.mp h
  obtain ⟨hstatus, hpid⟩ := advance_status config s sp.attempt outcome sp.point
  have hidle := (hs.alone (by rw [hboot]; rfl)).1
  have htask := (advance_futures config s sp.attempt outcome sp.point).2.1.trans hidle
  refine ⟨ht, ha, ?_, ?_, ?_⟩
  · exact hpid.trans (hs.recorded.trans (congrArg PrimitiveStatus.pid hstatus.symm))
  · exact hstatus.symm ▸ hs.consistent
  · have hagreeing := hs.agreeing
    rw [livePoint_of_boot hboot] at hagreeing
    have hnext := hagreeing.advance hs.tracked config outcome (hs.tracked.boot sp hboot).2
    exact hnext.bootNext rfl htask rfl rfl rfl rfl

theorem Recorded.taskStep (hs : s.Recorded) (ht : t.Tracked) (ha : t.Alone)
    {outcome : SpawnOutcome} (h : s.taskStep config outcome = some t) : t.Recorded := by
  have hboot : s.boot = none := by
    cases hb : s.boot with
    | none => rfl
    | some sp =>
      rw [PrimitiveActor.taskStep, (hs.alone (by rw [hb]; rfl)).1] at h
      cases h
  rcases taskStep_cases h with ⟨sp, htask, rfl⟩ | ⟨attempt, htask, rfl⟩ | ⟨reason, htask, rfl⟩
  · obtain ⟨hstatus, hpid⟩ := advance_status config s sp.attempt outcome sp.point
    have hboot' := (advance_futures config s sp.attempt outcome sp.point).1.trans hboot
    refine ⟨ht, ha, ?_, ?_, ?_⟩
    · exact hpid.trans (hs.recorded.trans (congrArg PrimitiveStatus.pid hstatus.symm))
    · exact hstatus.symm ▸ hs.consistent
    · have hagreeing := hs.agreeing
      rw [livePoint_of_task hboot htask] at hagreeing
      have hnext := hagreeing.advance hs.tracked config outcome (hs.tracked.task sp htask).2
      exact hnext.taskNext hboot' rfl rfl rfl rfl rfl
  · refine ⟨ht, ha, hs.recorded, hs.consistent, ?_⟩
    exact hs.agreeing.ended hboot (by simp [htask]) hboot rfl rfl rfl
      (pidToCome_post s (.restartChild attempt))
  · refine ⟨ht, ha, hs.recorded, hs.consistent, ?_⟩
    exact hs.agreeing.ended hboot (by simp [htask]) hboot rfl rfl rfl rfl

/-! ### A child moves on -/

theorem mem_editChild_of_mem {i : ℕ} (edit : ChildPhase → ChildPhase) {d : Child}
    (h : d ∈ s.children) :
    d ∈ (s.editChild i edit).children ∨ (s.children[i]? = some d ∧
      { d with phase := edit d.phase } ∈ (s.editChild i edit).children) := by
  obtain ⟨j, hj⟩ := List.getElem?_of_mem h
  by_cases hij : i = j
  · subst hij
    exact Or.inr ⟨hj, List.mem_of_getElem? (getElem?_modify_self hj)⟩
  · exact Or.inl (List.mem_of_getElem? ((getElem?_modify_of_ne hij).trans hj))

/-- The phase changes and neither the holder nor the watch has to do with it. -/
theorem Agreeing.rephase {point : Option SpawnPoint} (h : s.Agreeing point) {i : ℕ} {c : Child}
    {phase : ChildPhase} (hc : s.children[i]? = some c)
    (hchildren : t.children = (s.editChild i fun _ => phase).children) (hwatch : t.watch = s.watch)
    (hpid : t.pidToCome = s.pidToCome) (hheld : phase.isHeld = c.phase.isHeld)
    (hwatched : phase.isWatched = c.phase.isWatched)
    (hcleared : phase.isCleared = c.phase.isCleared) : t.Agreeing point := by
  have hback : ∀ d ∈ t.children, ∃ e ∈ s.children, e.pid = d.pid ∧
      d.phase.isHeld = e.phase.isHeld ∧ d.phase.isWatched = e.phase.isWatched ∧
      d.phase.isCleared = e.phase.isCleared := by
    intro d hd
    rw [hchildren] at hd
    obtain ⟨e, he, rfl | ⟨hi, rfl⟩⟩ := mem_editChild hd
    · exact ⟨d, he, rfl, rfl, rfl, rfl⟩
    · obtain rfl := Option.some.inj (hc.symm.trans hi)
      exact ⟨c, he, rfl, hheld, hwatched, hcleared⟩
  constructor
  · intro p hp he d hd
    obtain ⟨e, hmem, _, hh, hw, _⟩ := hback d hd
    rw [hh, hw]
    exact h.emptyHanded p hp he e hmem
  · rw [hpid]
    exact h.reporting
  · intro d hd hcl
    obtain ⟨e, hmem, hsame, _, _, hclear⟩ := hback d hd
    rw [hpid, ← hsame]
    exact h.cleared e hmem (hclear ▸ hcl)
  · intro hreports hnone
    rw [hpid, hwatch]
    apply h.agree hreports
    intro d hd
    rcases mem_editChild_of_mem (i := i) (fun _ => phase) hd with hmem | ⟨hi, hmem⟩
    · exact hnone d (hchildren ▸ hmem)
    · obtain rfl := Option.some.inj (hc.symm.trans hi)
      exact hcleared ▸ hnone _ (hchildren ▸ hmem)

/-- The child that has the token is the only one. -/
theorem eq_child_of_tokens (htokens : s.tokens ≤ 1) {i : ℕ} {c d : Child}
    (hc : s.children[i]? = some c) (htoken : c.phase.token = 1) (hd : d ∈ s.children)
    (htoken' : d.phase.token = 1) : d = c := by
  obtain ⟨j, hj⟩ := List.getElem?_of_mem hd
  obtain rfl := eq_of_tokens htokens hc hj htoken htoken'
  exact Option.some.inj (hj.symm.trans hc)

theorem Tracked.not_reports (hs : s.Tracked) {i : ℕ} {c : Child} (hc : s.children[i]? = some c)
    (htoken : c.phase.token = 1) (hheld : c.phase.isHeld = false) :
    SpawnPoint.reports s.livePoint = false := by
  cases hreports : SpawnPoint.reports s.livePoint with
  | false => rfl
  | true =>
    obtain ⟨sp, hsp, hpub⟩ : ∃ sp, s.livePoint = some sp.point ∧ s.Publishes sp := by
      cases hb : s.boot with
      | some sp => exact ⟨sp, livePoint_of_boot hb, (hs.boot sp hb).2⟩
      | none =>
        cases htask : s.task with
        | spawn sp => exact ⟨sp, livePoint_of_task hb htask, (hs.task sp htask).2⟩
        | _ =>
          rw [livePoint_of_idle hb (by simp [htask])] at hreports
          cases hreports
    rw [hsp] at hreports
    obtain ⟨attempt, point⟩ := sp
    cases point with
    | report j pid =>
      obtain ⟨⟨d, hd, _, _, hdheld⟩, _⟩ := hpub
      obtain rfl := eq_child_of_tokens hs.tokens hc htoken (List.mem_of_getElem? hd)
        (token_of_held hdheld)
      rw [hheld] at hdheld
      cases hdheld
    | _ => cases hreports

/-- The monitor clears the watch: the exit it is about to report is that of the
recorded child. -/
theorem Agreeing.clear (h : s.Agreeing s.livePoint) (hs : s.Tracked) {i : ℕ} {c : Child}
    {status : ExitStatus} (hc : s.children[i]? = some c) (hphase : c.phase = .reaped status)
    (hchildren : t.children = (s.editChild i fun _ => .cleared status).children)
    (hpid : t.pidToCome = s.pidToCome) : t.Agreeing s.livePoint := by
  have htoken : c.phase.token = 1 := by rw [hphase]; rfl
  have hmem := List.mem_of_getElem? hc
  have hnotcleared : ∀ d ∈ s.children, d.phase.isCleared = false := by
    intro d hd
    cases hcl : d.phase.isCleared with
    | false => rfl
    | true =>
      have hwatched := (ChildPhase.watched_of_cleared hcl).1
      obtain rfl := eq_child_of_tokens hs.tokens hc htoken hd
        (ChildPhase.token_of_watched hwatched)
      rw [hphase] at hcl
      cases hcl
  have hreports := hs.not_reports hc htoken (by rw [hphase]; rfl)
  have hcome : s.pidToCome = some c.pid :=
    (h.agree hreports hnotcleared).trans (hs.monitored i c hc (by rw [hphase]; rfl))
  constructor
  · intro p hp he
    have hwatched := (h.emptyHanded p hp he c hmem).2
    rw [hphase] at hwatched
    cases hwatched
  · intro hr
    rw [hreports] at hr
    cases hr
  · intro d hd hcl
    rw [hchildren] at hd
    obtain ⟨e, he, rfl | ⟨hi, rfl⟩⟩ := mem_editChild hd
    · rw [hnotcleared d he] at hcl
      cases hcl
    · obtain rfl := Option.some.inj (hc.symm.trans hi)
      exact hpid.trans hcome
  · intro _ hnone
    have hedited : { c with phase := .cleared status } ∈ t.children := by
      rw [hchildren]
      exact List.mem_of_getElem? (getElem?_modify_self hc)
    have hfalse := hnone _ hedited
    cases hfalse

/-- The actor is told of the exit, and the recorded pid will follow the watch. -/
theorem Agreeing.tell {point : Option SpawnPoint} (h : s.Agreeing point) (hs : s.Tracked) {i : ℕ}
    {c : Child} {status : ExitStatus} (hc : s.children[i]? = some c)
    (hphase : c.phase = .cleared status) (code : ℤ)
    (hchildren : t.children = (s.editChild i fun _ => .notified status).children)
    (hwatch : t.watch = s.watch)
    (hpid : t.pidToCome = (ActorMessage.childExited c.pid code).pidEffect s.pidToCome) :
    t.Agreeing point := by
  have htoken : c.phase.token = 1 := by rw [hphase]; rfl
  have hcleared : c.phase.isCleared = true := by rw [hphase]; rfl
  have hcome := h.cleared c (List.mem_of_getElem? hc) hcleared
  obtain ⟨_, hcheld, hcmonitored⟩ := ChildPhase.watched_of_cleared hcleared
  have hheld : ∀ d ∈ s.children, d.phase.isHeld = false := by
    intro d hd
    cases hh : d.phase.isHeld with
    | false => rfl
    | true =>
      obtain rfl := eq_child_of_tokens hs.tokens hc htoken hd (token_of_held hh)
      exact hh.symm.trans hcheld
  have hmonitored : ∀ d ∈ s.children, d.phase.isMonitored = false := by
    intro d hd
    cases hm : d.phase.isMonitored with
    | false => rfl
    | true =>
      obtain rfl := eq_child_of_tokens hs.tokens hc htoken hd (token_of_monitored hm)
      exact hm.symm.trans hcmonitored
  apply agreeing_none
  · intro d hd
    rw [hchildren] at hd
    obtain ⟨j, hj⟩ := List.getElem?_of_mem hd
    rcases getElem?_modify_cases hj with ⟨rfl, e, he, rfl⟩ | ⟨hij, he⟩
    · rfl
    · cases hw : d.phase.isWatched with
      | false => rfl
      | true => exact absurd (eq_of_tokens hs.tokens hc he htoken
          (ChildPhase.token_of_watched hw)) hij
  · intro p _ _ d hd
    rw [hchildren] at hd
    obtain ⟨e, he, rfl | ⟨_, rfl⟩⟩ := mem_editChild hd
    · exact hheld d he
    · rfl
  · rw [hpid, hcome]
    exact if_pos rfl
  · rw [hwatch]
    exact hs.watch_of_closed fun d hd => ⟨hheld d hd, hmonitored d hd⟩

/-! ### Runs -/

/-- No `wait` returns an error. -/
def Waits (_ : PrimitiveActor) (a : ActorAction) : Prop := a.isWaitError = false

instance (s : PrimitiveActor) (a : ActorAction) : Decidable (Waits s a) :=
  inferInstanceAs (Decidable (_ = false))

theorem Recorded.monitorStep (hs : s.Recorded) (ht : t.Tracked) (ha : t.Alone) {i : ℕ} {c : Child}
    (hc : s.children[i]? = some c) (h : s.monitorStep config i c = some t) : t.Recorded := by
  have hagreeing := hs.agreeing
  obtain ⟨status, ⟨hphase, rfl⟩ | ⟨hphase, rfl⟩ | ⟨hphase, rfl⟩ | ⟨hphase, rfl⟩⟩ :=
    monitorStep_cases h
  · refine ⟨ht, ha, hs.recorded, hs.consistent, ?_⟩
    exact hagreeing.rephase hc rfl rfl rfl (by rw [hphase]; rfl) (by rw [hphase]; rfl)
      (by rw [hphase]; rfl)
  · refine ⟨ht, ha, hs.recorded, hs.consistent, ?_⟩
    exact hagreeing.clear hs.tracked hc hphase rfl rfl
  · refine ⟨ht, ha, hs.recorded, hs.consistent, ?_⟩
    exact hagreeing.tell hs.tracked hc hphase (exitCodeFromStatus status) rfl rfl
      (pidToCome_post s (.childExited c.pid (exitCodeFromStatus status)))
  · refine ⟨ht, ha, hs.recorded, hs.consistent, ?_⟩
    exact hagreeing.rephase hc rfl rfl rfl (by rw [hphase]; rfl) (by rw [hphase]; rfl)
      (by rw [hphase]; rfl)

theorem Recorded.step (hs : s.Recorded) {a : ActorAction} (hwaits : Waits s a)
    (h : s.step config a = some t) : t.Recorded := by
  have ht := hs.tracked.step h
  have ha := hs.alone.step h
  cases a with
  | send request =>
    obtain rfl := Option.some.inj h
    refine ⟨ht, ha, hs.recorded, hs.consistent, ?_⟩
    exact hs.agreeing.silent rfl rfl (pidAfter_post_request s request) rfl
      hs.agreeing.emptyHanded
  | deliver nowMs => exact hs.deliver ht ha h
  | bootStep outcome => exact hs.bootStep ht ha h
  | taskStep outcome => exact hs.taskStep ht ha h
  | exit i status =>
    obtain ⟨c, holder, hc, hphase, rfl⟩ := step_exit_cases h
    refine ⟨ht, ha, hs.recorded, hs.consistent, ?_⟩
    apply hs.agreeing.rephase hc rfl rfl rfl
    · rw [hphase]
      cases holder <;> rfl
    · rw [hphase]
      cases holder <;> rfl
    · rw [hphase]
      rfl
  | monitorStep i =>
    obtain ⟨c, hc, h'⟩ := Option.bind_eq_some_iff.mp h
    exact hs.monitorStep ht ha hc h'
  | waitFails i => cases hwaits
  | kill pid =>
    obtain rfl := Option.some.inj h
    exact ⟨ht, ha, hs.recorded, hs.consistent, hs.agreeing.congr rfl rfl rfl rfl⟩
  | requestStop =>
    obtain rfl := Option.some.inj h
    exact ⟨ht, ha, hs.recorded, hs.consistent, hs.agreeing.congr rfl rfl rfl rfl⟩
  | terminate =>
    obtain ⟨signals, _, rfl⟩ := step_terminate_cases h
    exact ⟨ht, ha, hs.recorded, hs.consistent, hs.agreeing.congr rfl rfl rfl rfl⟩

theorem Recorded.pidsAgree (hs : s.Recorded) (hquiet : s.Quiescent) : s.PidsAgree := by
  have hnone : s.livePoint = none := by
    apply livePoint_of_idle hquiet.boot
    intro sp hsp
    rw [hquiet.task] at hsp
    cases hsp
  have hagreeing := hs.agreeing
  rw [hnone] at hagreeing
  have hcleared : ∀ c ∈ s.children, c.phase.isCleared = false := by
    intro c hc
    have hbusy := hquiet.monitors c hc
    cases hphase : c.phase <;> simp_all [ChildPhase.isBusy, ChildPhase.isCleared]
  have hcome : s.pidToCome = s.childPid := by rw [pidToCome, hquiet.mailbox]; rfl
  exact ⟨(hagreeing.agree rfl hcleared).symm.trans hcome, hs.recorded, hs.consistent⟩

/-- In a run in which no `wait` fails the watch, the recorded pid and the status
agree whenever the actor is quiescent. -/
theorem run_pidsAgree {config : PrimitiveActorConfig} {as : List ActorAction} {s : PrimitiveActor}
    (hrun : run (step config) start as = some s) (hwaits : Obeys (step config) Waits start as)
    (hquiet : s.Quiescent) : s.PidsAgree := by
  have hs : s.Recorded :=
    run_invariant_of_obeys (fun _ _ _ hu hw h => hu.step hw h) recorded_start hwaits hrun
  exact hs.pidsAgree hquiet

def onceActor : PrimitiveActorConfig := ⟨timerInfo, .never, ⟨0, 0, 5, 60000⟩⟩

/-- A child that starts, is recorded, crashes and is recorded as crashed. -/
def startAndCrash : List ActorAction :=
  spawned .bootStep 100 ++ [.deliver 0, .deliver 0, .exit 0 (.code 1)] ++
    List.replicate 4 (.monitorStep 0) ++ [.deliver 1]

theorem run_pidsAgree_crash :
    ∃ s, run (step onceActor) start startAndCrash = some s ∧ s.status.state = .failed ∧
      s.PidsAgree := by
  have hend : (run (step onceActor) start startAndCrash).map
      (fun s => (s.status.state, s.isQuiescent)) = some (.failed, true) := by decide
  obtain ⟨s, hrun, hs⟩ := Option.map_eq_some_iff.mp hend
  have hwaits : Obeys (step onceActor) Waits start startAndCrash := by decide
  have hquiet := quiescent_of_isQuiescent (congrArg Prod.snd hs)
  exact ⟨s, hrun, congrArg Prod.fst hs, run_pidsAgree hrun hwaits hquiet⟩

/-- `wait` fails on a child that is recorded as running: the watch is cleared
and the actor is never told. -/
def startAndLose : List ActorAction :=
  spawned .bootStep 100 ++ [.deliver 0, .deliver 0, .waitFails 0]

theorem lost_child_stays_recorded :
    ¬ ∀ (config : PrimitiveActorConfig) (as : List ActorAction) (s : PrimitiveActor),
      run (step config) start as = some s → s.Quiescent → s.PidsAgree := by
  intro h
  have hend : (run (step timerActor) start startAndLose).map
      (fun s => (s.watch, s.childPid, s.isQuiescent)) = some (none, some 100, true) := by decide
  obtain ⟨s, hrun, hs⟩ := Option.map_eq_some_iff.mp hend
  simp only [Prod.mk.injEq] at hs
  obtain ⟨hwatch, hpid, hquiet⟩ := hs
  have hsame := (h timerActor startAndLose s hrun (quiescent_of_isQuiescent hquiet)).watch
  rw [hwatch, hpid] at hsame
  cases hsame

end PrimitiveActor

end Emergent.Engine

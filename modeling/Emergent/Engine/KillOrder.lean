import Emergent.Engine.Shutdown
import Emergent.Kit.Splits

/-!
# SIGTERM before SIGKILL

A shutdown phase kills by the pid in the watch, the actor sends SIGTERM to the
pid it has recorded. `Warned` is what makes the two the same: the actor is past
`StopPrimitive`, no spawn can publish another pid, and the pid that the watch
shows has been sent SIGTERM.
-/

namespace Emergent.Engine
open Kit

/-- Every SIGKILL comes after a SIGTERM to the same pid. -/
def KillsFollow (signals : List Signal) : Prop :=
  ∀ (before : List Signal) (pid : Pid) (after : List Signal),
    signals = before ++ .kill pid :: after → .term pid ∈ before

theorem KillsFollow.snoc {signals : List Signal} (h : KillsFollow signals) {signal : Signal}
    (hlast : ∀ pid, signal = .kill pid → .term pid ∈ signals) :
    KillsFollow (signals ++ [signal]) := by
  intro before pid after heq
  rcases split_snoc heq with ⟨hbefore, hsignal⟩ | ⟨rest, hrest⟩
  · rw [hbefore]
    exact hlast pid hsignal.symm
  · exact h before pid rest hrest

namespace PrimitiveActor

variable {config : PrimitiveActorConfig} {s t : PrimitiveActor}

/-! ### The signals of an actor -/

theorem signalChild_signals (s : PrimitiveActor) (pid : Option Pid) :
    (s.signalChild pid).signals = s.signals ++ (pid.map Signal.term).toList := by
  cases pid with
  | none => exact (List.append_nil _).symm
  | some pid => rfl

theorem handle_stopPrimitive (config : PrimitiveActorConfig) (s : PrimitiveActor)
    (nowMs : UInt64) :
    (s.handle config nowMs .stopPrimitive).signals =
      s.signals ++ (s.childPid.map Signal.term).toList :=
  signalChild_signals _ s.childPid

theorem handle_signals (config : PrimitiveActorConfig) (s : PrimitiveActor) (nowMs : UInt64)
    (message : ActorMessage) :
    ∃ pid : Option Pid,
      (s.handle config nowMs message).signals = s.signals ++ (pid.map Signal.term).toList := by
  cases message with
  | stopPrimitive => exact ⟨s.childPid, handle_stopPrimitive config s nowMs⟩
  | childExited pid code =>
    refine ⟨none, ?_⟩
    rw [handle, handleExited]
    split
    · exact (List.append_nil _).symm
    · dsimp only
      split <;> exact (List.append_nil _).symm
  | restartChild attempt =>
    refine ⟨none, ?_⟩
    rw [handle]
    split <;> exact (List.append_nil _).symm
  | _ => exact ⟨none, (List.append_nil _).symm⟩

theorem advance_signals (config : PrimitiveActorConfig) (s : PrimitiveActor)
    (attempt : Option UInt32) (outcome : SpawnOutcome) (point : SpawnPoint) :
    (s.advance config attempt outcome point).1.signals = s.signals := by
  cases point with
  | create => cases outcome <;> rfl
  | _ => rfl

/-- Only the manager sends SIGKILL. -/
theorem step_signals {a : ActorAction} (ha : ∀ pid, a ≠ .kill pid)
    (h : s.step config a = some t) :
    ∃ pid : Option Pid, t.signals = s.signals ++ (pid.map Signal.term).toList := by
  cases a with
  | deliver nowMs =>
    obtain ⟨message, mailbox, _, _, rfl⟩ := deliver_cases h
    exact handle_signals config { s with mailbox := mailbox } nowMs message
  | terminate =>
    simp only [PrimitiveActor.step] at h
    split_ifs at h
    obtain rfl := Option.some.inj h
    exact ⟨s.childPid, signalChild_signals s s.childPid⟩
  | kill pid => exact absurd rfl (ha pid)
  | send request =>
    obtain rfl := Option.some.inj h
    exact ⟨none, (List.append_nil _).symm⟩
  | requestStop =>
    obtain rfl := Option.some.inj h
    exact ⟨none, (List.append_nil _).symm⟩
  | bootStep outcome =>
    obtain ⟨sp, _, rfl⟩ := Option.map_eq_some_iff.mp h
    exact ⟨none, (advance_signals config s sp.attempt outcome sp.point).trans
      (List.append_nil _).symm⟩
  | taskStep outcome =>
    refine ⟨none, ?_⟩
    rcases taskStep_cases h with ⟨sp, _, rfl⟩ | ⟨attempt, _, rfl⟩ | ⟨reason, _, rfl⟩
    · exact (advance_signals config s sp.attempt outcome sp.point).trans (List.append_nil _).symm
    · exact (List.append_nil _).symm
    · exact (List.append_nil _).symm
  | exit i status =>
    obtain ⟨c, holder, _, _, rfl⟩ := step_exit_cases h
    exact ⟨none, (List.append_nil _).symm⟩
  | monitorStep i =>
    obtain ⟨c, _, h'⟩ := Option.bind_eq_some_iff.mp h
    refine ⟨none, ?_⟩
    obtain ⟨status, ⟨_, rfl⟩ | ⟨_, rfl⟩ | ⟨_, rfl⟩ | ⟨_, rfl⟩⟩ := monitorStep_cases h' <;>
      exact (List.append_nil _).symm
  | waitFails i =>
    obtain ⟨c, _, h'⟩ := Option.bind_eq_some_iff.mp h
    refine ⟨none, ?_⟩
    rcases loseChild_cases h' with ⟨_, rfl⟩ | ⟨status, _, rfl⟩ <;>
      exact (List.append_nil _).symm

theorem step_signals_subset {a : ActorAction} (h : s.step config a = some t) :
    s.signals ⊆ t.signals := by
  by_cases ha : ∃ pid, a = .kill pid
  · obtain ⟨pid, rfl⟩ := ha
    obtain rfl := Option.some.inj h
    exact List.subset_append_left _ _
  · obtain ⟨pid, heq⟩ := step_signals (not_exists.mp ha) h
    rw [heq]
    exact List.subset_append_left _ _

theorem killsFollow_step (hs : KillsFollow s.signals) {a : ActorAction}
    (ha : ∀ pid, a ≠ .kill pid) (h : s.step config a = some t) : KillsFollow t.signals := by
  obtain ⟨pid, heq⟩ := step_signals ha h
  rw [heq]
  cases pid with
  | none => exact (List.append_nil s.signals).symm ▸ hs
  | some pid =>
    apply hs.snoc
    intro pid' hkill
    cases hkill

/-! ### An actor past `StopPrimitive` -/

/-- No child is between its start and its record: no spawn has a process that it
will publish or is going to make one, and the pid in the watch is recorded. -/
def Caught (s : PrimitiveActor) : Prop :=
  (∀ p ∈ s.spawnPoints, p.unpublished = false) ∧ ∀ pid ∈ s.watch, s.childPid = some pid

instance (s : PrimitiveActor) : Decidable s.Caught := inferInstanceAs (Decidable (_ ∧ _))

structure Warned (s : PrimitiveActor) : Prop where
  shuttingDown : s.shuttingDown = true
  published : ∀ p ∈ s.spawnPoints, p.unpublished = false
  termed : ∀ pid, s.watch = some pid → .term pid ∈ s.signals

theorem advance_published (config : PrimitiveActorConfig) (s : PrimitiveActor)
    (attempt : Option UInt32) (outcome : SpawnOutcome) {point : SpawnPoint}
    (h : point.unpublished = false) :
    (∀ p, (s.advance config attempt outcome point).2 = some p → p.unpublished = false) ∧
      (s.advance config attempt outcome point).1.watch = s.watch := by
  cases point with
  | announce => cases h
  | create => cases h
  | publish i pid => cases h
  | failed error =>
    refine ⟨?_, rfl⟩
    intro p hp
    cases hp
    rfl
  | report i pid =>
    refine ⟨?_, rfl⟩
    intro p hp
    cases hp
    rfl
  | broadcast i pid =>
    refine ⟨?_, rfl⟩
    intro p hp
    cases hp
    rfl
  | _ =>
    refine ⟨?_, rfl⟩
    intro p hp
    cases hp

theorem Warned.of_watch (hs : s.Warned) (hdown : t.shuttingDown = true)
    (hpublished : ∀ p ∈ t.spawnPoints, p.unpublished = false)
    (hwatch : t.watch = s.watch ∨ t.watch = none) (hsignals : s.signals ⊆ t.signals) :
    t.Warned := by
  refine ⟨hdown, hpublished, ?_⟩
  intro pid hpid
  rcases hwatch with hsame | hnone
  · exact hsignals (hs.termed pid (hsame ▸ hpid))
  · rw [hnone] at hpid
    cases hpid

theorem Warned.step (hs : s.Warned) {a : ActorAction} (h : s.step config a = some t) :
    t.Warned := by
  have hdown := (step_shuttingDown hs.shuttingDown h).1
  have hsignals := step_signals_subset h
  cases a with
  | send request =>
    obtain rfl := Option.some.inj h
    exact ⟨hdown, hs.published, hs.termed⟩
  | deliver nowMs =>
    obtain ⟨message, mailbox, _, hidle, rfl⟩ := deliver_cases h
    have hdone := handled config (s := { s with mailbox := mailbox }) nowMs message hidle
    apply hs.of_watch hdown _ (Or.inl hdone.watch) hsignals
    intro p hp
    rcases mem_spawnPoints.mp hp with ⟨sp, hsp, rfl⟩ | ⟨sp, hsp, rfl⟩
    · exact hs.published _ (mem_spawnPoints.mpr (Or.inl ⟨sp, hdone.boot ▸ hsp, rfl⟩))
    · -- a restart is not begun any more
      have hup := (hdone.spawns sp hsp).1
      rw [show ({ s with mailbox := mailbox } : PrimitiveActor).shuttingDown = true
        from hs.shuttingDown] at hup
      cases hup
  | bootStep outcome =>
    obtain ⟨sp, hboot, rfl⟩ := Option.map_eq_some_iff.mp h
    have hpoint := hs.published _ (mem_spawnPoints.mpr (Or.inl ⟨sp, hboot, rfl⟩))
    obtain ⟨hnext, hwatch⟩ := advance_published config s sp.attempt outcome hpoint
    have htask := (advance_futures config s sp.attempt outcome sp.point).2.1
    apply hs.of_watch hdown _ (Or.inl hwatch) hsignals
    intro p hp
    rcases mem_spawnPoints.mp hp with ⟨sp', hsp', rfl⟩ | ⟨sp', hsp', rfl⟩
    · obtain ⟨point, hpoint', rfl⟩ := Option.map_eq_some_iff.mp hsp'
      exact hnext point hpoint'
    · exact hs.published _ (mem_spawnPoints.mpr (Or.inr ⟨sp', htask ▸ hsp', rfl⟩))
  | taskStep outcome =>
    rcases taskStep_cases h with ⟨sp, htask, rfl⟩ | ⟨attempt, htask, rfl⟩ | ⟨reason, htask, rfl⟩
    · have hpoint := hs.published _ (mem_spawnPoints.mpr (Or.inr ⟨sp, htask, rfl⟩))
      obtain ⟨hnext, hwatch⟩ := advance_published config s sp.attempt outcome hpoint
      have hboot := (advance_futures config s sp.attempt outcome sp.point).1
      apply hs.of_watch hdown _ (Or.inl hwatch) hsignals
      intro p hp
      rcases mem_spawnPoints.mp hp with ⟨sp', hsp', rfl⟩ | ⟨sp', hsp', rfl⟩
      · exact hs.published _ (mem_spawnPoints.mpr (Or.inl ⟨sp', hboot ▸ hsp', rfl⟩))
      · cases hpoint' : (s.advance config sp.attempt outcome sp.point).2 with
        | none =>
          simp only [hpoint'] at hsp'
          cases hsp'
        | some point =>
          simp only [hpoint', Option.map_some, Option.getD_some, Awaited.spawn.injEq] at hsp'
          subst hsp'
          exact hnext point hpoint'
    · apply hs.of_watch hdown _ (Or.inl rfl) hsignals
      intro p hp
      rcases mem_spawnPoints.mp hp with hboot | ⟨sp', hsp', _⟩
      · exact hs.published _ (mem_spawnPoints.mpr (Or.inl hboot))
      · cases hsp'
    · apply hs.of_watch hdown _ (Or.inl rfl) hsignals
      intro p hp
      rcases mem_spawnPoints.mp hp with hboot | ⟨sp', hsp', _⟩
      · exact hs.published _ (mem_spawnPoints.mpr (Or.inl hboot))
      · cases hsp'
  | exit i status =>
    obtain ⟨c, holder, _, _, rfl⟩ := step_exit_cases h
    exact hs.of_watch hdown hs.published (Or.inl rfl) hsignals
  | monitorStep i =>
    obtain ⟨c, _, h'⟩ := Option.bind_eq_some_iff.mp h
    obtain ⟨status, ⟨_, rfl⟩ | ⟨_, rfl⟩ | ⟨_, rfl⟩ | ⟨_, rfl⟩⟩ := monitorStep_cases h'
    · exact hs.of_watch hdown hs.published (Or.inl rfl) hsignals
    · exact hs.of_watch hdown hs.published (Or.inr rfl) hsignals
    · exact hs.of_watch hdown hs.published (Or.inl rfl) hsignals
    · exact hs.of_watch hdown hs.published (Or.inl rfl) hsignals
  | waitFails i =>
    obtain ⟨c, _, h'⟩ := Option.bind_eq_some_iff.mp h
    rcases loseChild_cases h' with ⟨_, rfl⟩ | ⟨status, _, rfl⟩
    · exact hs.of_watch hdown hs.published (Or.inr rfl) hsignals
    · exact hs.of_watch hdown hs.published (Or.inr rfl) hsignals
  | kill pid =>
    obtain rfl := Option.some.inj h
    exact hs.of_watch hdown hs.published (Or.inl rfl) hsignals
  | requestStop =>
    obtain rfl := Option.some.inj h
    exact hs.of_watch hdown hs.published (Or.inl rfl) hsignals
  | terminate =>
    obtain ⟨signals, _, rfl⟩ := step_terminate_cases h
    exact hs.of_watch hdown hs.published (Or.inl rfl) hsignals

/-- `StopPrimitive` is on its way, or the actor is past it. -/
def StopSent (s : PrimitiveActor) : Prop := .stopPrimitive ∈ s.mailbox ∨ s.Warned

theorem StopSent.step (hs : s.StopSent) {a : ActorAction}
    (hcaught : ∀ nowMs, a = .deliver nowMs → s.mailbox.head? = some .stopPrimitive → s.Caught)
    (h : s.step config a = some t) : t.StopSent := by
  rcases hs with hmem | hwarned
  · by_cases ha : ∃ nowMs, a = .deliver nowMs
    · obtain ⟨nowMs, rfl⟩ := ha
      obtain ⟨message, mailbox, hmail, hidle, rfl⟩ := deliver_cases h
      have hdone := handled config (s := { s with mailbox := mailbox }) nowMs message hidle
      rw [hmail] at hmem
      rcases List.mem_cons.mp hmem with rfl | hrest
      · -- SIGTERM goes to the pid that the watch shows
        obtain ⟨hpublished, hrecorded⟩ := hcaught nowMs rfl (by rw [hmail]; rfl)
        refine Or.inr ⟨?_, ?_, ?_⟩
        · rw [hdone.shuttingDown]
          exact Bool.or_true _
        · intro p hp
          rcases mem_spawnPoints.mp hp with ⟨sp, hsp, rfl⟩ | ⟨sp, hsp, rfl⟩
          · exact hpublished _ (mem_spawnPoints.mpr (Or.inl ⟨sp, hdone.boot ▸ hsp, rfl⟩))
          · obtain ⟨_, attempt, hmessage, _⟩ := hdone.spawns sp hsp
            cases hmessage
        · intro pid hpid
          have hwatch : s.watch = some pid := hdone.watch.symm.trans hpid
          have hpid' : s.childPid = some pid := hrecorded pid hwatch
          rw [handle_stopPrimitive]
          show .term pid ∈ s.signals ++ (s.childPid.map Signal.term).toList
          rw [hpid']
          exact List.mem_append_right _ (List.mem_singleton.mpr rfl)
      · exact Or.inl (hdone.mailbox ▸ hrest)
    · exact Or.inl (step_mailbox (not_exists.mp ha) h hmem)
  · exact Or.inr (hwarned.step h)

end PrimitiveActor

/-! ### What the phase knows -/

def ManagerPoint.Warns (i : ℕ) (a : PrimitiveActor) : ManagerPoint → Prop
  | .phase _ targets (.stopping rest) => i ∈ targets → i ∈ rest ∨ a.StopSent
  | .phase _ _ (.reading true rest alive) =>
    (i ∈ rest → a.StopSent) ∧ ∀ pid, (i, pid) ∈ alive → .term pid ∈ a.signals
  | .phase _ _ (.killing alive) => ∀ pid, (i, pid) ∈ alive → .term pid ∈ a.signals
  | _ => True

theorem ManagerPoint.Warns.step {i : ℕ} {point : ManagerPoint} {a b : PrimitiveActor}
    (h : point.Warns i a) (hsent : a.StopSent → b.StopSent) (hsignals : a.signals ⊆ b.signals) :
    point.Warns i b := by
  unfold Warns at h ⊢
  split at h
  · intro hi
    exact (h hi).imp id hsent
  · obtain ⟨hrest, halive⟩ := h
    exact ⟨fun hi => hsent (hrest hi), fun pid hpid => hsignals (halive pid hpid)⟩
  · intro pid hpid
    exact hsignals (h pid hpid)
  · trivial

namespace Topology

variable {s t : Topology}

def WarnedFirst (s : Topology) : Prop :=
  ∀ (i : ℕ) p, s.primitives[i]? = some p →
    KillsFollow p.actor.signals ∧ s.manager.Warns i p.actor

/-- The primitive whose actor handles `StopPrimitive` in this step. -/
def stoppedBy (s : Topology) : ShutdownAction → Option Primitive
  | .primitive i (.deliver _) =>
    s.primitives[i]?.filter fun p => p.actor.mailbox.head? == some .stopPrimitive
  | _ => none

/-- The primitive whose watch this step reads after `StopPrimitive` was sent. -/
def rereadBy (s : Topology) : ShutdownAction → Option Primitive
  | .advance =>
    match s.manager with
    | .phase _ _ (.reading true (i :: _) _) => s.primitives[i]?
    | _ => none
  | _ => none

/-- `StopPrimitive` finds the child on record, and a pid that is found after it
was sent is found after it was handled. -/
def Prompt (s : Topology) (a : ShutdownAction) : Prop :=
  (∀ p ∈ s.stoppedBy a, p.actor.Caught) ∧
    ∀ p ∈ s.rereadBy a, p.actor.watch.isSome = true → .stopPrimitive ∉ p.actor.mailbox

instance (s : Topology) (a : ShutdownAction) : Decidable (s.Prompt a) :=
  inferInstanceAs (Decidable (_ ∧ _))

theorem warnedFirst_start (configs : List PrimitiveActorConfig) : (start configs).WarnedFirst := by
  intro i p hp
  simp only [start, List.getElem?_map] at hp
  obtain ⟨config, _, rfl⟩ := Option.map_eq_some_iff.mp hp
  refine ⟨?_, trivial⟩
  intro before pid after heq
  have hnil := congrArg List.length heq
  simp [PrimitiveActor.start] at hnil

theorem WarnedFirst.stepPrimitive (hs : s.WarnedFirst) {i : ℕ} {a : ActorAction}
    (h : s.stepPrimitive i a = some t) {point : ManagerPoint}
    (hother : ∀ (j : ℕ) q, i ≠ j → s.manager.Warns j q → point.Warns j q)
    (hself : ∀ p actor, s.primitives[i]? = some p → p.actor.step p.config a = some actor →
      KillsFollow p.actor.signals → s.manager.Warns i p.actor →
        KillsFollow actor.signals ∧ point.Warns i actor) :
    (t.moveTo point).WarnedFirst := by
  obtain ⟨_, _, hcases⟩ := stepPrimitive_cases h
  intro j q hq
  rcases hcases j q hq with ⟨hij, hold⟩ | ⟨rfl, p, actor, hp, hactor, rfl⟩
  · obtain ⟨hfollow, hwarns⟩ := hs j q hold
    exact ⟨hfollow, hother j q.actor hij hwarns⟩
  · obtain ⟨hfollow, hwarns⟩ := hs i p hp
    exact hself p actor hp hactor hfollow hwarns

theorem WarnedFirst.moveTo (hs : s.WarnedFirst) {point : ManagerPoint}
    (h : ∀ (j : ℕ) q, s.primitives[j]? = some q → s.manager.Warns j q.actor →
      point.Warns j q.actor) : (s.moveTo point).WarnedFirst := by
  intro j q hq
  obtain ⟨hfollow, hwarns⟩ := hs j q hq
  exact ⟨hfollow, h j q hq hwarns⟩

theorem mem_readWatch {i j : ℕ} {alive : List (ℕ × Pid)} {pid : Pid}
    (h : (j, pid) ∈ s.readWatch i alive) :
    (j, pid) ∈ alive ∨ (j = i ∧ ∃ p, s.primitives[i]? = some p ∧ p.actor.watch = some pid) := by
  unfold readWatch at h
  split at h
  · rename_i shown hshown
    rcases List.mem_append.mp h with hold | hnew
    · exact Or.inl hold
    · obtain ⟨rfl, rfl⟩ := Prod.mk.inj (List.mem_singleton.mp hnew)
      exact Or.inr ⟨rfl, Option.bind_eq_some_iff.mp hshown⟩
  · exact Or.inl h

/-- A pid that the second reading finds is shown with `StopPrimitive` handled, so it
has been sent SIGTERM. -/
theorem warns_reading {kind : PrimitiveKind} {targets rest : List ℕ} {i j : ℕ}
    {alive : List (ℕ × Pid)} {q : Primitive} (hq : s.primitives[j]? = some q)
    (hhandled : ∀ p, s.primitives[i]? = some p → p.actor.watch.isSome = true →
      .stopPrimitive ∉ p.actor.mailbox)
    (h : (ManagerPoint.phase kind targets (.reading true (i :: rest) alive)).Warns j q.actor) :
    (ManagerPoint.phase kind targets (.reading true rest (s.readWatch i alive))).Warns j
      q.actor := by
  obtain ⟨hrest, halive⟩ := h
  refine ⟨fun hj => hrest (List.mem_cons_of_mem i hj), ?_⟩
  intro pid hpid
  rcases mem_readWatch hpid with hold | ⟨rfl, p, hp, hwatch⟩
  · exact halive pid hold
  · obtain rfl := Option.some.inj (hp.symm.trans hq)
    have hempty := hhandled p hp (by rw [hwatch]; rfl)
    rcases hrest List.mem_cons_self with hqueued | hwarned
    · exact absurd hqueued hempty
    · exact hwarned.termed pid hwatch

theorem warns_killing {kind : PrimitiveKind} {targets : List ℕ} {i : ℕ} {pid : Pid}
    {rest : List (ℕ × Pid)} {config : PrimitiveActorConfig} {a b : PrimitiveActor}
    (hfollow : KillsFollow a.signals)
    (h : (ManagerPoint.phase kind targets (.killing ((i, pid) :: rest))).Warns i a)
    (hkill : a.step config (.kill pid) = some b) :
    KillsFollow b.signals ∧ (ManagerPoint.phase kind targets (.killing rest)).Warns i b := by
  have hterm : ∀ pid', (i, pid') ∈ (i, pid) :: rest → .term pid' ∈ a.signals := h
  obtain rfl := Option.some.inj hkill
  refine ⟨?_, ?_⟩
  · apply hfollow.snoc
    intro pid' heq
    cases heq
    exact hterm pid List.mem_cons_self
  · intro pid' hpid'
    exact List.mem_append_left _ (hterm pid' (List.mem_cons_of_mem _ hpid'))

theorem WarnedFirst.advancePhase (hs : s.WarnedFirst) {kind : PrimitiveKind} {targets : List ℕ}
    {stage : PhaseStage} (hmanager : s.manager = .phase kind targets stage)
    (hguard : ∀ p ∈ s.rereadBy .advance, p.actor.watch.isSome = true →
      .stopPrimitive ∉ p.actor.mailbox)
    (h : s.advancePhase kind targets stage = some t) : t.WarnedFirst := by
  have hknown : ∀ (j : ℕ) a, s.manager.Warns j a →
      (ManagerPoint.phase kind targets stage).Warns j a := by
    intro j a hwarns
    rw [hmanager] at hwarns
    exact hwarns
  unfold Topology.advancePhase at h
  split at h
  case h_1 signalled i rest alive =>
    obtain rfl := Option.some.inj h
    cases signalled with
    | false =>
      apply hs.moveTo
      intro j q hq _
      trivial
    | true =>
      apply hs.moveTo
      intro j q hq hwarns
      refine warns_reading hq ?_ (hknown j q.actor hwarns)
      intro p hp
      apply hguard p
      rw [rereadBy, hmanager]
      exact hp
  case h_2 alive =>
    obtain rfl := Option.some.inj h
    apply hs.moveTo
    intro j q hq _
    split
    · trivial
    · exact fun hj => Or.inl hj
  case h_3 alive =>
    obtain rfl := Option.some.inj h
    apply hs.moveTo
    intro j q hq hwarns
    exact (hknown j q.actor hwarns).2
  case h_4 i rest =>
    obtain ⟨r, hr, rfl⟩ := Option.map_eq_some_iff.mp h
    apply hs.stepPrimitive hr
    · intro j q hij hwarns hj
      rcases hknown j q hwarns hj with hmem | hsent
      · exact Or.inl ((List.mem_cons.mp hmem).resolve_left (Ne.symm hij))
      · exact Or.inr hsent
    · intro p actor hp hsend hfollow _
      refine ⟨PrimitiveActor.killsFollow_step hfollow (by intro pid hk; cases hk) hsend, ?_⟩
      obtain rfl := Option.some.inj hsend
      intro _
      exact Or.inr (Or.inl (List.mem_append_right _ (List.mem_singleton.mpr rfl)))
  case h_5 =>
    obtain rfl := Option.some.inj h
    apply hs.moveTo
    intro j q hq hwarns
    refine ⟨?_, ?_⟩
    · intro hj
      rcases hknown j q.actor hwarns hj with hmem | hsent
      · cases hmem
      · exact hsent
    · intro pid hpid
      cases hpid
  case h_6 i pid rest =>
    obtain ⟨r, hr, rfl⟩ := Option.map_eq_some_iff.mp h
    apply hs.stepPrimitive hr
    · intro j q hij hwarns pid' hpid'
      exact hknown j q hwarns pid' (List.mem_cons_of_mem _ hpid')
    · intro p actor hp hkill hfollow hwarns
      exact warns_killing hfollow (hknown i p.actor hwarns) hkill
  case h_7 =>
    obtain rfl := Option.some.inj h
    apply hs.moveTo
    intro j q hq _
    trivial
  case h_8 i rest =>
    obtain ⟨r, hr, rfl⟩ := Option.map_eq_some_iff.mp h
    apply hs.stepPrimitive hr
    · intro j q _ _
      trivial
    · intro p actor hp hstop hfollow _
      exact ⟨PrimitiveActor.killsFollow_step hfollow (by intro pid hk; cases hk) hstop, trivial⟩
  case h_9 =>
    obtain rfl := Option.some.inj h
    apply hs.moveTo
    intro j q hq _
    cases kind <;> trivial

theorem WarnedFirst.step (hs : s.WarnedFirst) {a : ShutdownAction} (hguard : s.Prompt a)
    (h : s.step a = some t) : t.WarnedFirst := by
  cases a with
  | primitive i act =>
    simp only [Topology.step] at h
    split_ifs at h with hown
    have hkill : ∀ pid, act ≠ .kill pid := by
      intro pid heq
      rw [heq] at hown
      cases hown
    obtain ⟨hmanager, _, _⟩ := stepPrimitive_cases h
    have hnext : (t.moveTo s.manager).WarnedFirst := by
      apply hs.stepPrimitive h
      · intro j q _ hwarns
        exact hwarns
      · intro p actor hp hactor hfollow hwarns
        refine ⟨PrimitiveActor.killsFollow_step hfollow hkill hactor, ?_⟩
        apply hwarns.step
        · intro hsent
          apply hsent.step _ hactor
          intro nowMs hdeliver hhead
          rw [hdeliver] at hguard
          apply hguard.1 p
          rw [stoppedBy, hp, Option.mem_def, Option.filter_some, hhead]
          rfl
        · exact PrimitiveActor.step_signals_subset hactor
    rw [← hmanager] at hnext
    exact hnext
  | begin order =>
    simp only [Topology.step] at h
    split_ifs at h
    obtain rfl := Option.some.inj h
    apply hs.moveTo
    intro j q _ _
    trivial
  | enter order =>
    simp only [Topology.step] at h
    split at h
    · rename_i kind _
      split_ifs at h
      · obtain rfl := Option.some.inj h
        intro j q hq
        refine ⟨(hs j q hq).1, ?_⟩
        cases kind <;> trivial
      · obtain rfl := Option.some.inj h
        intro j q hq
        exact ⟨(hs j q hq).1, trivial⟩
    · cases h
  | advance =>
    simp only [Topology.step] at h
    split at h
    · obtain ⟨r, hr, rfl⟩ := Option.map_eq_some_iff.mp h
      apply hs.stepPrimitive hr
      · intro j q _ _
        trivial
      · intro p actor hp hsend hfollow _
        exact ⟨PrimitiveActor.killsFollow_step hfollow (by intro pid hk; cases hk) hsend, trivial⟩
    · obtain rfl := Option.some.inj h
      apply hs.moveTo
      intro j q _ _
      trivial
    · rename_i kind targets stage hmanager
      exact hs.advancePhase hmanager hguard.2 h
    · cases h

/-- In a run in which every `StopPrimitive` finds its child on record and is
handled before the reading that finds a pid, every SIGKILL of the shutdown
follows a SIGTERM. -/
theorem run_kills_follow {configs : List PrimitiveActorConfig} {as : List ShutdownAction}
    (hguard : Obeys step Prompt (start configs) as) (hrun : run step (start configs) as = some s) :
    ∀ p ∈ s.primitives, KillsFollow p.actor.signals := by
  have hs : s.WarnedFirst :=
    run_invariant_of_obeys (fun _ _ _ hu hg h => hu.step hg h) (warnedFirst_start configs) hguard
      hrun
  intro p hp
  obtain ⟨i, hi⟩ := List.getElem?_of_mem hp
  exact (hs i p hi).1

def stopTimer (spawns deliveries : ℕ) : List ShutdownAction :=
  timerSteps (List.replicate spawns (.bootStep (.created 100))) ++ announceAndRead ++
    [.advance, .advance] ++ timerSteps (List.replicate deliveries (.deliver 0)) ++
    List.replicate 4 .advance

/-- The child is on record when it is told to stop and ignores SIGTERM. -/
theorem run_kills_follow_timer :
    ∃ s, run step (start [PrimitiveActor.timerActor]) (stopTimer 6 4) = some s ∧
      s.primitives.map (fun p => p.actor.signals) = [[.term 100, .kill 100]] ∧
      ∀ p ∈ s.primitives, KillsFollow p.actor.signals := by
  have hend : (run step (start [PrimitiveActor.timerActor]) (stopTimer 6 4)).map
      (fun s => s.primitives.map fun p => p.actor.signals) = some [[.term 100, .kill 100]] := by
    decide
  obtain ⟨s, hrun, hs⟩ := Option.map_eq_some_iff.mp hend
  exact ⟨s, hrun, hs, run_kills_follow (by decide) hrun⟩

/-- The pid is published and not yet on record when the actor is told to stop:
the phase kills a child that was never sent SIGTERM. -/
theorem killed_without_warning :
    ¬ ∀ (configs : List PrimitiveActorConfig) (as : List ShutdownAction) (s : Topology),
      run step (start configs) as = some s → ∀ p ∈ s.primitives, KillsFollow p.actor.signals := by
  intro h
  have hend : (run step (start [PrimitiveActor.timerActor]) (stopTimer 3 3)).map
      (fun s => s.primitives.map fun p => p.actor.signals) = some [[.kill 100]] := by
    decide
  obtain ⟨s, hrun, hs⟩ := Option.map_eq_some_iff.mp hend
  obtain ⟨p, hp, hsignals⟩ : ∃ p ∈ s.primitives, p.actor.signals = [.kill 100] :=
    List.mem_map.mp (hs ▸ List.mem_singleton_self [Signal.kill 100])
  have hterm := h [PrimitiveActor.timerActor] (stopTimer 3 3) s hrun p hp [] 100 [] hsignals
  cases hterm

end Topology

end Emergent.Engine

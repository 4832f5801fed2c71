import Emergent.Engine.ActorTracking

/-!
# An actor that makes no further process

`Halting` is the state from which an actor spawns nothing more: a shutdown
message is processed or queued with no restart ahead of it, and no spawn is
about to make a process. Every step keeps it and adds no child. `Settled` is
what the process manager would have to know of an actor whose watch it reads
empty: only then does an empty watch mean that nothing runs or will run.
-/

namespace Emergent.Engine
open Kit

def restartAhead : List ActorMessage → Bool
  | [] => false
  | .engineShuttingDown :: _ | .stopPrimitive :: _ => false
  | .restartChild _ :: _ => true
  | _ :: rest => restartAhead rest

theorem restartAhead_append {l : List ActorMessage} (h : ∃ m ∈ l, m.isShutdown = true)
    (r : List ActorMessage) : restartAhead (l ++ r) = restartAhead l := by
  induction l with
  | nil => simp at h
  | cons m l ih =>
    have hrest : m.isShutdown = false → restartAhead (l ++ r) = restartAhead l := by
      intro hm
      apply ih
      obtain ⟨m', hmem, hm'⟩ := h
      rcases List.mem_cons.mp hmem with rfl | hmem
      · rw [hm] at hm'
        cases hm'
      · exact ⟨m', hmem, hm'⟩
    cases m with
    | engineShuttingDown => rfl
    | stopPrimitive => rfl
    | restartChild attempt => rfl
    | childSpawning => exact hrest rfl
    | childSpawned pid => exact hrest rfl
    | childSpawnFailed error => exact hrest rfl
    | childExited pid status => exact hrest rfl
    | healthCheck => exact hrest rfl

def SpawnPoint.creates : SpawnPoint → Bool
  | .announce | .create => true
  | _ => false

theorem SpawnPoint.creates_of_published {point : SpawnPoint} (h : point.unpublished = false) :
    point.creates = false := by
  cases point <;> simp_all [SpawnPoint.creates, SpawnPoint.unpublished]

def Awaited.spawnPoints : Awaited → List SpawnPoint
  | .spawn sp => [sp.point]
  | _ => []

/-- The child at a place before and after: the same process, and not revived. -/
def Child.Outlived (c d : Child) : Prop :=
  d.pid = c.pid ∧ (d.phase.isAlive = true → c.phase.isAlive = true)

theorem Child.Outlived.refl (c : Child) : c.Outlived c := ⟨rfl, id⟩

theorem Child.Outlived.trans {c d e : Child} (hcd : c.Outlived d) (hde : d.Outlived e) :
    c.Outlived e :=
  ⟨hde.1.trans hcd.1, hcd.2 ∘ hde.2⟩

namespace PrimitiveActor

variable {config : PrimitiveActorConfig} {s t u : PrimitiveActor}

def Announced (s : PrimitiveActor) : Prop :=
  s.shuttingDown = true ∨ ∃ m ∈ s.mailbox, m.isShutdown = true

def Barred (s : PrimitiveActor) : Prop :=
  s.shuttingDown = true ∨ restartAhead s.mailbox = false

/-- Where the spawns of the actor are: that of `after_start` and that of a handler. -/
def spawnPoints (s : PrimitiveActor) : List SpawnPoint :=
  (s.boot.map Spawn.point).toList ++ s.task.spawnPoints

structure Halting (s : PrimitiveActor) : Prop where
  announced : s.Announced
  barred : s.Barred
  spawns : ∀ p ∈ s.spawnPoints, p.creates = false

/-- Between the two states no process was made, none came back and no signal
was taken back. -/
structure Spent (s t : PrimitiveActor) : Prop where
  children : List.Forall₂ Child.Outlived s.children t.children
  signals : s.signals ⊆ t.signals

theorem Spent.of_eq (hchildren : t.children = s.children) (hsignals : s.signals ⊆ t.signals) :
    Spent s t := by
  refine ⟨?_, hsignals⟩
  rw [hchildren]
  exact List.forall₂_same.mpr fun c _ => Child.Outlived.refl c

theorem Spent.of_same (hchildren : t.children = s.children) (hsignals : t.signals = s.signals) :
    Spent s t :=
  Spent.of_eq hchildren (hsignals ▸ List.Subset.refl _)

theorem Spent.trans (hst : Spent s t) (htu : Spent t u) : Spent s u := by
  refine ⟨?_, fun _ h => htu.signals (hst.signals h)⟩
  have hlen := hst.children.length_eq
  have hlen' := htu.children.length_eq
  rw [List.forall₂_iff_get]
  refine ⟨hlen.trans hlen', fun i hi hi' => ?_⟩
  exact (hst.children.get hi (hlen ▸ hi)).trans (htu.children.get (hlen ▸ hi) hi')

theorem Spent.edit {i : ℕ} (edit : ChildPhase → ChildPhase)
    (hchildren : t.children = s.children.modify i fun c => { c with phase := edit c.phase })
    (hsignals : s.signals ⊆ t.signals)
    (hedit : ∀ c, s.children[i]? = some c → (edit c.phase).isAlive = true →
      c.phase.isAlive = true) : Spent s t := by
  refine ⟨?_, hsignals⟩
  rw [hchildren]
  exact forall₂_modify Child.Outlived.refl fun c hc => ⟨rfl, hedit c hc⟩

theorem Spent.rephase {i : ℕ} {c : Child} {phase : ChildPhase} (hc : s.children[i]? = some c)
    (hchildren : t.children = s.children.modify i fun c => { c with phase := phase })
    (hsignals : t.signals = s.signals) (hphase : phase.isAlive = true → c.phase.isAlive = true) :
    Spent s t := by
  refine Spent.edit (fun _ => phase) hchildren (hsignals ▸ List.Subset.refl _) ?_
  intro d hd
  obtain rfl : c = d := Option.some.inj (hc.symm.trans hd)
  exact hphase

theorem Spent.alive (h : Spent s t) {d : Child} (hd : d ∈ t.children)
    (halive : d.phase.isAlive = true) :
    ∃ c ∈ s.children, c.pid = d.pid ∧ c.phase.isAlive = true := by
  obtain ⟨i, hi⟩ := List.mem_iff_get.mp hd
  have hlen := h.children.length_eq
  have hold := h.children.get (hlen.symm ▸ i.isLt) i.isLt
  rw [show t.children.get ⟨i, i.isLt⟩ = d from hi] at hold
  exact ⟨_, List.get_mem _ _, hold.1.symm, hold.2 halive⟩

theorem announce_isAlive (phase : ChildPhase) : phase.announce.isAlive = phase.isAlive := by
  rcases phase with (_ | _ | _) | ⟨_, _ | _ | _⟩ | _ | _ | _ | _ <;> rfl

theorem watchOver_isAlive (phase : ChildPhase) : phase.watchOver.isAlive = phase.isAlive := by
  rcases phase with (_ | _ | _) | ⟨_, _ | _ | _⟩ | _ | _ | _ | _ <;> rfl

/-! ### One step -/

theorem Announced.post (h : s.Announced) (message : ActorMessage) :
    (s.post message).Announced := by
  rcases h with hdown | ⟨m, hm, hshut⟩
  · exact Or.inl hdown
  · exact Or.inr ⟨m, List.mem_append_left _ hm, hshut⟩

theorem Barred.post (h : s.Barred) (hannounced : s.Announced) (message : ActorMessage) :
    (s.post message).Barred := by
  rcases h with hdown | hahead
  · exact Or.inl hdown
  · rcases hannounced with hdown | hqueued
    · exact Or.inl hdown
    · exact Or.inr ((restartAhead_append hqueued [message]).trans hahead)

theorem Halting.post (h : s.Halting) (message : ActorMessage) : (s.post message).Halting :=
  ⟨h.announced.post message, h.barred.post h.announced message, h.spawns⟩

theorem Halting.congr (h : s.Halting) (hdown : t.shuttingDown = s.shuttingDown)
    (hmailbox : t.mailbox = s.mailbox) (hspawns : ∀ p ∈ t.spawnPoints, p.creates = false) :
    t.Halting := by
  refine ⟨?_, ?_, hspawns⟩
  · simpa only [Announced, hdown, hmailbox] using h.announced
  · simpa only [Barred, hdown, hmailbox] using h.barred

theorem Halting.advance (h : s.Halting) (config : PrimitiveActorConfig)
    (attempt : Option UInt32) (outcome : SpawnOutcome) {point : SpawnPoint}
    (hpoint : point.creates = false) :
    (s.advance config attempt outcome point).1.Halting ∧
      Spent s (s.advance config attempt outcome point).1 ∧
      ∀ p, (s.advance config attempt outcome point).2 = some p → p.creates = false := by
  cases point with
  | announce => cases hpoint
  | create => cases hpoint
  | failed error =>
    refine ⟨h.post _, Spent.of_same rfl rfl, fun p hp => ?_⟩
    cases hp
    rfl
  | failedEvent error =>
    exact ⟨h.congr rfl rfl h.spawns, Spent.of_same rfl rfl, fun p hp => by cases hp⟩
  | unidentified => exact ⟨h.post _, Spent.of_same rfl rfl, fun p hp => by cases hp⟩
  | publish i pid =>
    refine ⟨h.congr rfl rfl h.spawns, Spent.of_same rfl rfl, fun p hp => ?_⟩
    cases hp
    rfl
  | report i pid =>
    refine ⟨h.post _, Spent.of_same rfl rfl, fun p hp => ?_⟩
    cases hp
    rfl
  | broadcast i pid =>
    refine ⟨h.congr rfl rfl h.spawns, Spent.edit .announce rfl (List.Subset.refl _) ?_,
      fun p hp => ?_⟩
    · exact fun c _ halive => (announce_isAlive c.phase).symm.trans halive
    · cases hp
      rfl
  | monitor i =>
    refine ⟨h.congr rfl rfl h.spawns, Spent.edit .watchOver rfl (List.Subset.refl _) ?_,
      fun p hp => by cases hp⟩
    exact fun c _ halive => (watchOver_isAlive c.phase).symm.trans halive

theorem mem_spawnPoints {p : SpawnPoint} :
    p ∈ s.spawnPoints ↔
      (∃ sp, s.boot = some sp ∧ sp.point = p) ∨ ∃ sp, s.task = .spawn sp ∧ sp.point = p := by
  unfold spawnPoints Awaited.spawnPoints
  cases s.boot <;> cases s.task <;> simp [eq_comm]

theorem Halting.bootStep (h : s.Halting) {outcome : SpawnOutcome}
    (hstep : s.bootStep config outcome = some t) : t.Halting ∧ Spent s t := by
  obtain ⟨sp, hboot, rfl⟩ := Option.map_eq_some_iff.mp hstep
  have hpoint : sp.point.creates = false :=
    h.spawns _ (mem_spawnPoints.mpr (Or.inl ⟨sp, hboot, rfl⟩))
  obtain ⟨hnext, hspent, hcreates⟩ := h.advance config sp.attempt outcome hpoint
  refine ⟨hnext.congr rfl rfl fun p hp => ?_, hspent.trans (Spent.of_same rfl rfl)⟩
  rcases mem_spawnPoints.mp hp with ⟨sp', hsp', rfl⟩ | ⟨sp', hsp', rfl⟩
  · obtain ⟨point, hpoint', rfl⟩ := Option.map_eq_some_iff.mp hsp'
    exact hcreates point hpoint'
  · exact hnext.spawns _ (mem_spawnPoints.mpr (Or.inr ⟨sp', hsp', rfl⟩))

theorem Halting.taskStep (h : s.Halting) {outcome : SpawnOutcome}
    (hstep : s.taskStep config outcome = some t) : t.Halting ∧ Spent s t := by
  -- once the future is over only the spawn of `after_start` is left
  have hidle : ∀ r : PrimitiveActor, r.Halting → ∀ p ∈ ({ r with task := .idle }).spawnPoints,
      p.creates = false := by
    intro r hr p hp
    rcases mem_spawnPoints.mp hp with hboot | ⟨sp, hsp, _⟩
    · exact hr.spawns p (mem_spawnPoints.mpr (Or.inl hboot))
    · cases hsp
  rcases taskStep_cases hstep with ⟨sp, htask, rfl⟩ | ⟨attempt, htask, rfl⟩ | ⟨reason, htask, rfl⟩
  · have hpoint : sp.point.creates = false :=
      h.spawns _ (mem_spawnPoints.mpr (Or.inr ⟨sp, htask, rfl⟩))
    obtain ⟨hnext, hspent, hcreates⟩ := h.advance config sp.attempt outcome hpoint
    refine ⟨hnext.congr rfl rfl ?_, hspent.trans (Spent.of_same rfl rfl)⟩
    cases hpoint' : (s.advance config sp.attempt outcome sp.point).2 with
    | none => exact hidle _ hnext
    | some point =>
      intro p hp
      rcases mem_spawnPoints.mp hp with hboot | ⟨sp', hsp', rfl⟩
      · exact hnext.spawns p (mem_spawnPoints.mpr (Or.inl hboot))
      · cases hsp'
        exact hcreates point hpoint'
  · exact ⟨(h.post _).congr rfl rfl (hidle _ (h.post _)), Spent.of_same rfl rfl⟩
  · exact ⟨h.congr rfl rfl (hidle s h), Spent.of_same rfl rfl⟩

/-- The next message is a shutdown message or leaves the rest of the mailbox as
it was; it is not a restart the actor would act on. -/
theorem Halting.deliver (h : s.Halting) {nowMs : UInt64}
    (hstep : s.deliver config nowMs = some t) : t.Halting ∧ Spent s t := by
  obtain ⟨message, mailbox, hmailbox, hidle, rfl⟩ := deliver_cases hstep
  have hdone := handled config (s := { s with mailbox := mailbox }) nowMs message hidle
  -- the rest of the mailbox, before the actor knows of the shutdown
  have hrest : s.shuttingDown = false → message.isShutdown = false →
      (∃ m ∈ mailbox, m.isShutdown = true) ∧ restartAhead mailbox = false ∧
        ∀ attempt, message ≠ .restartChild attempt := by
    intro hup hmessage
    have hqueued : ∃ m ∈ s.mailbox, m.isShutdown = true := by
      simpa [Announced, hup] using h.announced
    have hahead : restartAhead s.mailbox = false := by simpa [Barred, hup] using h.barred
    rw [hmailbox] at hqueued hahead
    refine ⟨?_, ?_, ?_⟩
    · simpa [hmessage] using hqueued
    · cases message <;> simp_all [restartAhead, ActorMessage.isShutdown]
    · rintro attempt rfl
      cases hahead
  refine ⟨⟨?_, ?_, ?_⟩, Spent.of_eq hdone.children hdone.signals⟩
  · unfold Announced
    rw [hdone.shuttingDown, hdone.mailbox]
    cases hup : s.shuttingDown || message.isShutdown with
    | true => exact Or.inl rfl
    | false =>
      obtain ⟨hup, hmessage⟩ := Bool.or_eq_false_iff.mp hup
      exact Or.inr (hrest hup hmessage).1
  · unfold Barred
    rw [hdone.shuttingDown, hdone.mailbox]
    cases hup : s.shuttingDown || message.isShutdown with
    | true => exact Or.inl rfl
    | false =>
      obtain ⟨hup, hmessage⟩ := Bool.or_eq_false_iff.mp hup
      exact Or.inr (hrest hup hmessage).2.1
  · intro p hp
    rcases mem_spawnPoints.mp hp with ⟨sp, hboot, rfl⟩ | ⟨sp, htask, rfl⟩
    · rw [hdone.boot] at hboot
      exact h.spawns _ (mem_spawnPoints.mpr (Or.inl ⟨sp, hboot, rfl⟩))
    · obtain ⟨hup, attempt, hmessage, _⟩ := hdone.spawns sp htask
      exact absurd hmessage ((hrest hup (by rw [hmessage]; rfl)).2.2 attempt)

theorem advance_mailbox (config : PrimitiveActorConfig) (s : PrimitiveActor)
    (attempt : Option UInt32) (outcome : SpawnOutcome) (point : SpawnPoint) :
    s.mailbox ⊆ (s.advance config attempt outcome point).1.mailbox := by
  cases point with
  | create => cases outcome <;> exact List.Subset.refl _
  | announce => exact List.subset_append_left _ _
  | failed error => exact List.subset_append_left _ _
  | unidentified => exact List.subset_append_left _ _
  | report i pid => exact List.subset_append_left _ _
  | _ => exact List.Subset.refl _

theorem step_mailbox {a : ActorAction} (ha : ∀ nowMs, a ≠ .deliver nowMs)
    (h : s.step config a = some t) : s.mailbox ⊆ t.mailbox := by
  cases a with
  | send request =>
    obtain rfl := Option.some.inj h
    exact List.subset_append_left _ _
  | deliver nowMs => exact absurd rfl (ha nowMs)
  | bootStep outcome =>
    obtain ⟨sp, _, rfl⟩ := Option.map_eq_some_iff.mp h
    exact advance_mailbox config s sp.attempt outcome sp.point
  | taskStep outcome =>
    rcases taskStep_cases h with ⟨sp, _, rfl⟩ | ⟨attempt, _, rfl⟩ | ⟨reason, _, rfl⟩
    · exact advance_mailbox config s sp.attempt outcome sp.point
    · exact List.subset_append_left _ _
    · exact List.Subset.refl _
  | exit i status =>
    obtain ⟨c, holder, _, _, rfl⟩ := step_exit_cases h
    exact List.Subset.refl _
  | monitorStep i =>
    obtain ⟨c, _, h⟩ := Option.bind_eq_some_iff.mp h
    obtain ⟨status, ⟨_, rfl⟩ | ⟨_, rfl⟩ | ⟨_, rfl⟩ | ⟨_, rfl⟩⟩ := monitorStep_cases h
    · exact List.Subset.refl _
    · exact List.Subset.refl _
    · exact List.subset_append_left _ _
    · exact List.Subset.refl _
  | waitFails i =>
    obtain ⟨c, _, h⟩ := Option.bind_eq_some_iff.mp h
    rcases loseChild_cases h with ⟨_, rfl⟩ | ⟨status, _, rfl⟩
    · exact List.Subset.refl _
    · exact List.Subset.refl _
  | kill pid =>
    obtain rfl := Option.some.inj h
    exact List.Subset.refl _
  | requestStop =>
    obtain rfl := Option.some.inj h
    exact List.Subset.refl _
  | terminate =>
    obtain ⟨signals, _, rfl⟩ := step_terminate_cases h
    exact List.Subset.refl _

theorem Announced.step (h : s.Announced) {a : ActorAction} (hstep : s.step config a = some t) :
    t.Announced := by
  rcases h with hdown | ⟨m, hm, hshut⟩
  · exact Or.inl (step_shuttingDown hdown hstep).1
  · by_cases ha : ∃ nowMs, a = .deliver nowMs
    · obtain ⟨nowMs, rfl⟩ := ha
      obtain ⟨message, mailbox, hmailbox, hidle, rfl⟩ := deliver_cases hstep
      have hdone := handled config (s := { s with mailbox := mailbox }) nowMs message hidle
      rw [hmailbox] at hm
      rcases List.mem_cons.mp hm with rfl | hm
      · exact Or.inl (by rw [hdone.shuttingDown, hshut, Bool.or_true])
      · exact Or.inr ⟨m, by rw [hdone.mailbox]; exact hm, hshut⟩
    · exact Or.inr ⟨m, step_mailbox (fun nowMs hn => ha ⟨nowMs, hn⟩) hstep hm, hshut⟩

theorem Halting.step (h : s.Halting) {a : ActorAction} (hstep : s.step config a = some t) :
    t.Halting ∧ Spent s t := by
  cases a with
  | send request =>
    obtain rfl := Option.some.inj hstep
    exact ⟨h.post _, Spent.of_same rfl rfl⟩
  | deliver nowMs => exact h.deliver hstep
  | bootStep outcome => exact h.bootStep hstep
  | taskStep outcome => exact h.taskStep hstep
  | exit i status =>
    obtain ⟨c, holder, hc, _, rfl⟩ := step_exit_cases hstep
    exact ⟨h.congr rfl rfl h.spawns, Spent.rephase hc rfl rfl fun halive => by cases halive⟩
  | monitorStep i =>
    obtain ⟨c, hc, hstep⟩ := Option.bind_eq_some_iff.mp hstep
    obtain ⟨status, ⟨_, rfl⟩ | ⟨_, rfl⟩ | ⟨_, rfl⟩ | ⟨_, rfl⟩⟩ := monitorStep_cases hstep
    · exact ⟨h.congr rfl rfl h.spawns, Spent.rephase hc rfl rfl fun halive => by cases halive⟩
    · exact ⟨h.congr rfl rfl h.spawns, Spent.rephase hc rfl rfl fun halive => by cases halive⟩
    · exact ⟨(h.post _).congr rfl rfl h.spawns,
        Spent.rephase hc rfl rfl fun halive => by cases halive⟩
    · exact ⟨h.congr rfl rfl h.spawns, Spent.rephase hc rfl rfl fun halive => by cases halive⟩
  | waitFails i =>
    obtain ⟨c, hc, hstep⟩ := Option.bind_eq_some_iff.mp hstep
    rcases loseChild_cases hstep with ⟨hphase, rfl⟩ | ⟨status, _, rfl⟩
    · exact ⟨h.congr rfl rfl h.spawns, Spent.rephase hc rfl rfl fun _ => by rw [hphase]; rfl⟩
    · exact ⟨h.congr rfl rfl h.spawns, Spent.rephase hc rfl rfl fun halive => by cases halive⟩
  | kill pid =>
    obtain rfl := Option.some.inj hstep
    exact ⟨h.congr rfl rfl h.spawns, Spent.of_eq rfl (List.subset_append_left _ _)⟩
  | requestStop =>
    obtain rfl := Option.some.inj hstep
    exact ⟨h.congr rfl rfl h.spawns, Spent.of_same rfl rfl⟩
  | terminate =>
    obtain ⟨signals, hsignals, rfl⟩ := step_terminate_cases hstep
    exact ⟨h.congr rfl rfl h.spawns, Spent.of_eq rfl hsignals⟩

/-! ### What a reading of the watch tells -/

theorem restartAhead_of_tokens {l : List ActorMessage} (h : tally ActorMessage.token l = 0) :
    restartAhead l = false := by
  induction l with
  | nil => rfl
  | cons m l ih =>
    rw [tally_cons] at h
    have hrest : restartAhead l = false := ih (by omega)
    cases m with
    | restartChild attempt => simp [ActorMessage.token] at h
    | engineShuttingDown => rfl
    | stopPrimitive => rfl
    | _ => exact hrest

theorem creates_token {point : SpawnPoint} (h : point.token = 0) : point.creates = false := by
  cases point <;> simp_all [SpawnPoint.token, SpawnPoint.creates]

theorem token_of_alive {phase : ChildPhase} (h : phase.isAlive = true) : phase.token = 1 := by
  cases phase <;> simp_all [ChildPhase.isAlive, ChildPhase.token]

/-- An announced actor whose watch shows a pid spawns nothing more, and that pid
is the only one that can be alive. -/
theorem Tracked.halting_of_watch (hs : s.Tracked) (hannounced : s.Announced) {pid : Pid}
    (hwatch : s.watch = some pid) :
    s.Halting ∧ ∀ c ∈ s.children, c.phase.isAlive = true → c.pid = pid := by
  obtain ⟨i, c, hc, rfl, hphase⟩ := hs.shown pid hwatch
  have htoken : c.phase.token = 1 := hphase.elim token_of_held token_of_monitored
  obtain ⟨hboot, htask, hmailbox⟩ := tokens_of_child hs.tokens hc htoken
  refine ⟨⟨hannounced, Or.inr (restartAhead_of_tokens hmailbox), fun p hp => ?_⟩, ?_⟩
  · rcases mem_spawnPoints.mp hp with ⟨sp, hsp, rfl⟩ | ⟨sp, hsp, rfl⟩
    · exact creates_token (by simpa [bootToken, hsp] using hboot)
    · exact creates_token (by simpa [hsp, Awaited.token] using htask)
  · intro d hd halive
    obtain ⟨j, hj⟩ := List.getElem?_of_mem hd
    obtain rfl := eq_of_tokens hs.tokens hc hj htoken (token_of_alive halive)
    exact congrArg Child.pid (Option.some.inj (hj.symm.trans hc))

/-- The watch is empty and says the truth: no spawn is under way before its
publication, no restart will be handled, and no child has been lost by its
monitor. -/
structure Settled (s : PrimitiveActor) : Prop where
  watch : s.watch = none
  spawns : ∀ p ∈ s.spawnPoints, p.unpublished = false
  barred : s.Barred
  found : ∀ c ∈ s.children, c.phase ≠ .alive .nobody

instance (s : PrimitiveActor) : Decidable s.Barred :=
  inferInstanceAs (Decidable (_ ∨ _))

instance (s : PrimitiveActor) : Decidable s.Settled :=
  decidable_of_iff (s.watch = none ∧ (∀ p ∈ s.spawnPoints, p.unpublished = false) ∧ s.Barred ∧
      ∀ c ∈ s.children, c.phase ≠ .alive .nobody)
    ⟨fun ⟨h₁, h₂, h₃, h₄⟩ => ⟨h₁, h₂, h₃, h₄⟩, fun ⟨h₁, h₂, h₃, h₄⟩ => ⟨h₁, h₂, h₃, h₄⟩⟩

theorem Settled.halting (h : s.Settled) (hannounced : s.Announced) : s.Halting :=
  ⟨hannounced, h.barred, fun p hp => SpawnPoint.creates_of_published (h.spawns p hp)⟩

theorem Settled.none_alive (h : s.Settled) (hs : s.Tracked) {c : Child} (hc : c ∈ s.children) :
    c.phase.isAlive = false := by
  rw [Bool.eq_false_iff]
  intro halive
  obtain ⟨i, hi⟩ := List.getElem?_of_mem hc
  -- a spawn that holds a child has not published it, or the watch shows it
  have hspawn : ∀ sp, s.Publishes sp → sp.point ∈ s.spawnPoints → sp.point.child = some i →
      False := by
    intro sp hpub hmem hchild
    have hpoint := h.spawns _ hmem
    have hwatch := h.watch
    unfold Publishes at hpub
    split at hpub <;> simp_all [SpawnPoint.unpublished, SpawnPoint.child]
  cases hphase : c.phase with
  | alive holder =>
    cases holder with
    | nobody => exact h.found c hc hphase
    | monitor =>
      have hwatch := hs.monitored i c hi (by rw [hphase]; rfl)
      rw [h.watch] at hwatch
      cases hwatch
    | spawn announced =>
      obtain ⟨sp, hsp | hsp, hchild⟩ := hs.held i c hi (by rw [hphase]; rfl)
      · exact hspawn sp (hs.boot sp hsp).2 (mem_spawnPoints.mpr (Or.inl ⟨sp, hsp, rfl⟩)) hchild
      · exact hspawn sp (hs.task sp hsp).2 (mem_spawnPoints.mpr (Or.inr ⟨sp, hsp, rfl⟩)) hchild
  | _ => simp [hphase, ChildPhase.isAlive] at halive

end PrimitiveActor

end Emergent.Engine

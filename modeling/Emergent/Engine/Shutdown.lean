import Emergent.Engine.ActorHalting

/-!
# Graceful shutdown (`emergent-engine/src/process_manager.rs`)

`graceful_shutdown` over all actors at once: it queues `EngineShuttingDown` to
each, then runs `shutdown_phase` for sources, handlers and sinks. A phase reads
the pid watches of its targets, sends `StopPrimitive` if one shows a pid, reads
them again, kills what they still show and stops the actors. Every send and
every reading is a step of its own.

Time is not modelled: a wait may end at its deadline at any moment, so a phase
may read the watches whenever it likes, and `stop` may return before the actor
has ended (its result is ignored). The waits and the last reading after SIGKILL,
which only logs, are left out.
-/

namespace Emergent.Engine
open Kit

structure Primitive where
  config : PrimitiveActorConfig
  actor : PrimitiveActor

def Primitive.kind (p : Primitive) : PrimitiveKind := p.config.info.kind

inductive PhaseStage where
  /-- `still_running`, or the end of `wait_for_children_exit`. -/
  | reading (signalled : Bool) (rest : List ℕ) (alive : List (ℕ × Pid))
  | stopping (rest : List ℕ)
  | killing (alive : List (ℕ × Pid))
  | halting (rest : List ℕ)
  deriving Repr, DecidableEq

inductive ManagerPoint where
  | running
  | announcing (rest : List ℕ)
  | entering (kind : PrimitiveKind)
  | phase (kind : PrimitiveKind) (targets : List ℕ) (stage : PhaseStage)
  | stopped
  deriving Repr, DecidableEq

/-- The engine: its primitives, the manager, the `system.shutdown` broadcasts
and the phases that have returned. -/
structure Topology where
  primitives : List Primitive
  manager : ManagerPoint
  shutdowns : List PrimitiveKind
  returned : List PrimitiveKind

/-- The order of the tables is that of a `HashMap`, so the action carries it. -/
inductive ShutdownAction where
  | primitive (i : ℕ) (a : ActorAction)
  | begin (order : List ℕ)
  | enter (order : List ℕ)
  | advance
  deriving Repr, DecidableEq

/-- The steps an actor and its tasks take by themselves. -/
def ActorAction.isOwn : ActorAction → Bool
  | .send .healthCheck | .deliver _ | .bootStep _ | .taskStep _ | .exit .. | .monitorStep _
  | .waitFails _ | .terminate => true
  | .send _ | .kill _ | .requestStop => false

namespace Topology

def start (configs : List PrimitiveActorConfig) : Topology where
  primitives := configs.map fun config => ⟨config, .start⟩
  manager := .running
  shutdowns := []
  returned := []

def stepPrimitive (s : Topology) (i : ℕ) (a : ActorAction) : Option Topology :=
  s.primitives[i]?.bind fun p =>
    (p.actor.step p.config a).map fun actor =>
      { s with primitives := s.primitives.modify i fun p => { p with actor := actor } }

def moveTo (s : Topology) (point : ManagerPoint) : Topology := { s with manager := point }

def targetsOfKind (s : Topology) (kind : PrimitiveKind) : List ℕ :=
  (List.range s.primitives.length).filter fun i =>
    (s.primitives[i]?.map Primitive.kind) = some kind

def leave (s : Topology) (kind : PrimitiveKind) : Topology :=
  { s with
    manager :=
      match kind with
      | .source => .entering .handler
      | .handler => .entering .sink
      | .sink => .stopped
    returned := s.returned ++ [kind] }

def readWatch (s : Topology) (i : ℕ) (alive : List (ℕ × Pid)) : List (ℕ × Pid) :=
  match s.primitives[i]?.bind fun p => p.actor.watch with
  | some pid => alive ++ [(i, pid)]
  | none => alive

def advancePhase (s : Topology) (kind : PrimitiveKind) (targets : List ℕ) :
    PhaseStage → Option Topology
  | .reading signalled (i :: rest) alive =>
    some (s.moveTo (.phase kind targets (.reading signalled rest (s.readWatch i alive))))
  | .reading false [] alive =>
    some (s.moveTo (.phase kind targets
      (if alive = [] then .halting targets else .stopping targets)))
  | .reading true [] alive => some (s.moveTo (.phase kind targets (.killing alive)))
  | .stopping (i :: rest) =>
    (s.stepPrimitive i (.send .stopPrimitive)).map fun t =>
      t.moveTo (.phase kind targets (.stopping rest))
  | .stopping [] => some (s.moveTo (.phase kind targets (.reading true targets [])))
  | .killing ((i, pid) :: rest) =>
    (s.stepPrimitive i (.kill pid)).map fun t =>
      t.moveTo (.phase kind targets (.killing rest))
  | .killing [] => some (s.moveTo (.phase kind targets (.halting targets)))
  | .halting (i :: rest) =>
    (s.stepPrimitive i .requestStop).map fun t =>
      t.moveTo (.phase kind targets (.halting rest))
  | .halting [] => some (s.leave kind)

def step (s : Topology) : ShutdownAction → Option Topology
  | .primitive i a => if a.isOwn then s.stepPrimitive i a else none
  | .begin order =>
    if s.manager = .running ∧ order.Perm (List.range s.primitives.length) then
      some (s.moveTo (.announcing order))
    else none
  | .enter order =>
    match s.manager with
    | .entering kind =>
      let t := { s with shutdowns := s.shutdowns ++ [kind] }
      if order.Perm (s.targetsOfKind kind) then
        some (if order = [] then t.leave kind
          else t.moveTo (.phase kind order (.reading false order [])))
      else none
    | _ => none
  | .advance =>
    match s.manager with
    | .announcing (i :: rest) =>
      (s.stepPrimitive i (.send .engineShuttingDown)).map fun t => t.moveTo (.announcing rest)
    | .announcing [] => some (s.moveTo (.entering .source))
    | .phase kind targets stage => s.advancePhase kind targets stage
    | _ => none

end Topology

/-! ### What is known of each actor -/

namespace PrimitiveActor

variable {config : PrimitiveActorConfig} {s t : PrimitiveActor}

/-- The actor spawns nothing more and only this pid can be alive. -/
def Cornered (pid : Pid) (s : PrimitiveActor) : Prop :=
  s.Halting ∧ ∀ c ∈ s.children, c.phase.isAlive = true → c.pid = pid

/-- The actor spawns nothing more and what is alive has been sent SIGKILL. -/
def Ended (s : PrimitiveActor) : Prop :=
  s.Halting ∧ ∀ c ∈ s.children, c.phase.isAlive = true → .kill c.pid ∈ s.signals

theorem Cornered.step {pid : Pid} (h : s.Cornered pid) {a : ActorAction}
    (hstep : s.step config a = some t) : t.Cornered pid := by
  obtain ⟨hhalting, hspent⟩ := h.1.step hstep
  refine ⟨hhalting, fun d hd halive => ?_⟩
  obtain ⟨c, hc, hpid, hc'⟩ := hspent.alive hd halive
  rw [← hpid]
  exact h.2 c hc hc'

theorem Ended.step (h : s.Ended) {a : ActorAction} (hstep : s.step config a = some t) :
    t.Ended := by
  obtain ⟨hhalting, hspent⟩ := h.1.step hstep
  refine ⟨hhalting, fun d hd halive => ?_⟩
  obtain ⟨c, hc, hpid, hc'⟩ := hspent.alive hd halive
  rw [← hpid]
  exact hspent.signals (h.2 c hc hc')

theorem Cornered.killed {pid : Pid} (h : s.Cornered pid)
    (hstep : s.step config (.kill pid) = some t) : t.Ended := by
  obtain ⟨hhalting, hpid⟩ := h.step hstep
  obtain rfl := Option.some.inj hstep
  refine ⟨hhalting, fun d hd halive => ?_⟩
  rw [hpid d hd halive]
  exact List.mem_append_right _ (List.mem_singleton.mpr rfl)

theorem Settled.ended (h : s.Settled) (htracked : s.Tracked) (hannounced : s.Announced) :
    s.Ended := by
  refine ⟨h.halting hannounced, fun c hc halive => ?_⟩
  rw [h.none_alive htracked hc] at halive
  cases halive

end PrimitiveActor

/-- What a phase at this stage knows of the target at index `i`. -/
def PhaseStage.Knows (i : ℕ) (a : PrimitiveActor) : PhaseStage → Prop
  | .reading _ _ alive => ∀ pid, (i, pid) ∈ alive → a.Cornered pid
  | .stopping _ => True
  | .killing alive => a.Ended ∨ ∃ pid, (i, pid) ∈ alive ∧ a.Cornered pid
  | .halting _ => a.Ended

/-- What the manager at this point knows of the entry at index `i`. -/
def ManagerPoint.Knows (i : ℕ) (p : Primitive) : ManagerPoint → Prop
  | .running => True
  | .announcing rest => i ∈ rest ∨ p.actor.Announced
  | .entering _ | .stopped => p.actor.Announced
  | .phase kind targets stage =>
    p.actor.Announced ∧ (i ∈ targets ↔ p.kind = kind) ∧ (i ∈ targets → stage.Knows i p.actor)

theorem PhaseStage.Knows.step {i : ℕ} {stage : PhaseStage} {config : PrimitiveActorConfig}
    {a b : PrimitiveActor} (h : stage.Knows i a) {act : ActorAction}
    (hstep : a.step config act = some b) : stage.Knows i b := by
  cases stage with
  | reading signalled rest alive => exact fun pid hpid => (h pid hpid).step hstep
  | stopping rest => trivial
  | killing alive =>
    exact h.imp (fun hended => hended.step hstep) fun ⟨pid, hpid, hcornered⟩ =>
      ⟨pid, hpid, hcornered.step hstep⟩
  | halting rest => exact PrimitiveActor.Ended.step h hstep

theorem ManagerPoint.Knows.step {i : ℕ} {point : ManagerPoint} {p : Primitive}
    (h : point.Knows i p) {act : ActorAction} {actor : PrimitiveActor}
    (hstep : p.actor.step p.config act = some actor) :
    point.Knows i { p with actor := actor } := by
  cases point with
  | running => trivial
  | announcing rest => exact h.imp id fun hannounced => hannounced.step hstep
  | entering kind => exact PrimitiveActor.Announced.step h hstep
  | stopped => exact PrimitiveActor.Announced.step h hstep
  | phase kind targets stage =>
    obtain ⟨hannounced, hkind, hknows⟩ := h
    exact ⟨hannounced.step hstep, hkind, fun hi => (hknows hi).step hstep⟩

namespace Topology

variable {s t : Topology}

/-- What holds of each entry, given where the manager is and what has returned. -/
structure Sound (point : ManagerPoint) (returned : List PrimitiveKind) (i : ℕ) (p : Primitive) :
    Prop where
  tracked : p.actor.Tracked
  knows : point.Knows i p
  returned : p.kind ∈ returned → p.actor.Ended

theorem Sound.step {point : ManagerPoint} {returned : List PrimitiveKind} {i : ℕ} {p : Primitive}
    (h : Sound point returned i p) {act : ActorAction} {actor : PrimitiveActor}
    (hstep : p.actor.step p.config act = some actor) :
    Sound point returned i { p with actor := actor } :=
  ⟨h.tracked.step hstep, h.knows.step hstep, fun hk => (h.returned hk).step hstep⟩

def Invariant (s : Topology) : Prop :=
  ∀ (i : ℕ) p, s.primitives[i]? = some p → Sound s.manager s.returned i p

theorem invariant_start (configs : List PrimitiveActorConfig) : (start configs).Invariant := by
  intro i p hp
  simp only [start, List.getElem?_map] at hp
  obtain ⟨config, _, rfl⟩ := Option.map_eq_some_iff.mp hp
  exact ⟨PrimitiveActor.tracked_start, trivial, fun h => by cases h⟩

theorem stepPrimitive_cases {i : ℕ} {a : ActorAction} (h : s.stepPrimitive i a = some t) :
    t.manager = s.manager ∧ t.returned = s.returned ∧
      ∀ (j : ℕ) q, t.primitives[j]? = some q →
        (i ≠ j ∧ s.primitives[j]? = some q) ∨
          (i = j ∧ ∃ p actor, s.primitives[i]? = some p ∧ p.actor.step p.config a = some actor ∧
            q = { p with actor := actor }) := by
  obtain ⟨p, hp, h⟩ := Option.bind_eq_some_iff.mp h
  obtain ⟨actor, hactor, rfl⟩ := Option.map_eq_some_iff.mp h
  refine ⟨rfl, rfl, fun j q hq => ?_⟩
  rcases getElem?_modify_cases hq with ⟨hij, p', hp', rfl⟩ | ⟨hij, hq'⟩
  · obtain rfl : p = p' := Option.some.inj (hp.symm.trans hp')
    exact Or.inr ⟨hij, p, actor, hp, hactor, rfl⟩
  · exact Or.inl ⟨hij, hq'⟩

theorem Invariant.stepPrimitive (hs : s.Invariant) {i : ℕ} {a : ActorAction}
    (h : s.stepPrimitive i a = some t) {point : ManagerPoint}
    (hother : ∀ (j : ℕ) q, i ≠ j → q.actor.Tracked → s.manager.Knows j q → point.Knows j q)
    (hself : ∀ p actor, p.actor.step p.config a = some actor → s.manager.Knows i p →
      s.manager.Knows i { p with actor := actor } → point.Knows i { p with actor := actor }) :
    (t.moveTo point).Invariant := by
  obtain ⟨hmanager, hreturned, hcases⟩ := stepPrimitive_cases h
  intro j q hq
  rcases hcases j q hq with ⟨hij, hold⟩ | ⟨rfl, p, actor, hp, hactor, rfl⟩
  · obtain ⟨htracked, hknows, hended⟩ := hs j q hold
    refine ⟨htracked, hother j q hij htracked hknows, ?_⟩
    simpa only [moveTo, hreturned] using hended
  · have hold := hs i p hp
    obtain ⟨htracked, hknows, hended⟩ := hold.step hactor
    refine ⟨htracked, hself p actor hactor hold.knows hknows, ?_⟩
    simpa only [moveTo, hreturned] using hended

theorem Invariant.moveTo (hs : s.Invariant) {point : ManagerPoint}
    (hknows : ∀ (j : ℕ) q, s.primitives[j]? = some q → q.actor.Tracked →
      s.manager.Knows j q → point.Knows j q) : (s.moveTo point).Invariant := by
  intro j q hq
  obtain ⟨htracked, hold, hended⟩ := hs j q hq
  exact ⟨htracked, hknows j q hq htracked hold, hended⟩

theorem Invariant.leave (hs : s.Invariant) {kind : PrimitiveKind}
    (hannounced : ∀ (j : ℕ) q, s.primitives[j]? = some q → q.actor.Announced)
    (hended : ∀ (j : ℕ) q, s.primitives[j]? = some q → q.kind = kind → q.actor.Ended) :
    (s.leave kind).Invariant := by
  intro j q hq
  obtain ⟨htracked, _, hreturned⟩ := hs j q hq
  refine ⟨htracked, ?_, fun hk => ?_⟩
  · have hknown := hannounced j q hq
    cases kind <;> exact hknown
  · rcases List.mem_append.mp hk with hk | hk
    · exact hreturned hk
    · exact hended j q hq (List.mem_singleton.mp hk)

/-- The targets a phase takes for gone at its next step: those it did not find,
when it ends its last reading or has found none at all. -/
def dismissed : ManagerPoint → List ℕ
  | .phase _ targets (.reading signalled [] alive) =>
    if signalled = true ∨ alive = [] then targets.filter fun i => i ∉ alive.map Prod.fst else []
  | _ => []

def Conclusive (s : Topology) (a : ShutdownAction) : Prop :=
  a = .advance → ∀ i ∈ dismissed s.manager, ∀ p ∈ s.primitives[i]?, p.actor.Settled

instance (s : Topology) (a : ShutdownAction) : Decidable (s.Conclusive a) :=
  inferInstanceAs (Decidable (_ → ∀ i ∈ dismissed s.manager, ∀ p ∈ s.primitives[i]?, _))

/-- The readings give each target to one of the two: it shows a pid and is
cornered, or it is not found. -/
theorem readWatch_knows {i j : ℕ} {q : Primitive} {alive : List (ℕ × Pid)}
    (hq : s.primitives[j]? = some q) (htracked : q.actor.Tracked)
    (hannounced : q.actor.Announced)
    (hknows : ∀ pid, (j, pid) ∈ alive → q.actor.Cornered pid) :
    ∀ pid, (j, pid) ∈ s.readWatch i alive → q.actor.Cornered pid := by
  intro pid hpid
  unfold readWatch at hpid
  split at hpid
  · rename_i shown hshown
    rcases List.mem_append.mp hpid with hpid | hpid
    · exact hknows pid hpid
    · obtain ⟨rfl, rfl⟩ := Prod.mk.inj (List.mem_singleton.mp hpid)
      rw [hq] at hshown
      exact htracked.halting_of_watch hannounced hshown
  · exact hknows pid hpid

theorem Invariant.advancePhase (hs : s.Invariant) {kind : PrimitiveKind} {targets : List ℕ}
    {stage : PhaseStage} (hmanager : s.manager = .phase kind targets stage)
    (hguard : ∀ i ∈ dismissed s.manager, ∀ p ∈ s.primitives[i]?, p.actor.Settled)
    (h : s.advancePhase kind targets stage = some t) : t.Invariant := by
  have hphase : ∀ (j : ℕ) q, s.manager.Knows j q → q.actor.Announced ∧
      (j ∈ targets ↔ q.kind = kind) ∧ (j ∈ targets → stage.Knows j q.actor) := by
    intro j q hknows
    rw [hmanager] at hknows
    exact hknows
  -- a target that is taken for gone has ended
  have hgone : ∀ (j : ℕ) q, j ∈ dismissed s.manager → s.primitives[j]? = some q →
      q.actor.Tracked → q.actor.Announced → q.actor.Ended := fun j q hj hq =>
    (hguard j hj q hq).ended
  rw [hmanager] at hgone
  unfold Topology.advancePhase at h
  split at h
  case h_1 signalled i rest alive =>
    obtain rfl := Option.some.inj h
    refine hs.moveTo fun j q hq htracked hknows => ?_
    obtain ⟨hannounced, hkind, hstage⟩ := hphase j q hknows
    exact ⟨hannounced, hkind, fun hj => readWatch_knows hq htracked hannounced (hstage hj)⟩
  case h_2 alive =>
    obtain rfl := Option.some.inj h
    refine hs.moveTo fun j q hq htracked hknows => ?_
    obtain ⟨hannounced, hkind, hstage⟩ := hphase j q hknows
    refine ⟨hannounced, hkind, fun hj => ?_⟩
    split_ifs with hnone
    · exact hgone j q (by simp [dismissed, hnone, hj]) hq htracked hannounced
    · trivial
  case h_3 alive =>
    obtain rfl := Option.some.inj h
    refine hs.moveTo fun j q hq htracked hknows => ?_
    obtain ⟨hannounced, hkind, hstage⟩ := hphase j q hknows
    refine ⟨hannounced, hkind, fun hj => ?_⟩
    by_cases hfound : j ∈ alive.map Prod.fst
    · obtain ⟨⟨_, pid⟩, hmem, rfl⟩ := List.mem_map.mp hfound
      exact Or.inr ⟨pid, hmem, hstage hj pid hmem⟩
    · refine Or.inl (hgone j q ?_ hq htracked hannounced)
      rw [dismissed, if_pos (Or.inl rfl)]
      exact List.mem_filter.mpr ⟨hj, decide_eq_true hfound⟩
  case h_4 i rest =>
    obtain ⟨r, hr, rfl⟩ := Option.map_eq_some_iff.mp h
    refine hs.stepPrimitive hr (fun j q _ _ hknows => ?_) (fun p actor _ _ hknows => ?_)
    · obtain ⟨hannounced, hkind, _⟩ := hphase j q hknows
      exact ⟨hannounced, hkind, fun _ => trivial⟩
    · obtain ⟨hannounced, hkind, _⟩ := hphase i _ hknows
      exact ⟨hannounced, hkind, fun _ => trivial⟩
  case h_5 =>
    obtain rfl := Option.some.inj h
    refine hs.moveTo fun j q _ _ hknows => ?_
    obtain ⟨hannounced, hkind, _⟩ := hphase j q hknows
    exact ⟨hannounced, hkind, fun _ pid hpid => by cases hpid⟩
  case h_6 i pid rest =>
    obtain ⟨r, hr, rfl⟩ := Option.map_eq_some_iff.mp h
    refine hs.stepPrimitive hr (fun j q hij _ hknows => ?_) (fun p actor hkill hbefore hknows => ?_)
    · obtain ⟨hannounced, hkind, hstage⟩ := hphase j q hknows
      refine ⟨hannounced, hkind, fun hj => (hstage hj).imp id ?_⟩
      rintro ⟨pid', hmem, hcornered⟩
      rcases List.mem_cons.mp hmem with heq | hmem
      · exact absurd (Prod.mk.inj heq).1.symm hij
      · exact ⟨pid', hmem, hcornered⟩
    · obtain ⟨hannounced, hkind, _⟩ := hphase i _ hknows
      obtain ⟨_, _, hstage⟩ := hphase i p hbefore
      refine ⟨hannounced, hkind, fun hj => ?_⟩
      rcases hstage hj with hended | ⟨pid', hmem, hcornered⟩
      · exact Or.inl (hended.step hkill)
      · rcases List.mem_cons.mp hmem with heq | hmem
        · -- the pid that is killed is the one the actor is cornered at
          obtain ⟨_, rfl⟩ := Prod.mk.inj heq
          exact Or.inl (hcornered.killed hkill)
        · exact Or.inr ⟨pid', hmem, hcornered.step hkill⟩
  case h_7 =>
    obtain rfl := Option.some.inj h
    refine hs.moveTo fun j q _ _ hknows => ?_
    obtain ⟨hannounced, hkind, hstage⟩ := hphase j q hknows
    refine ⟨hannounced, hkind, fun hj => ?_⟩
    rcases hstage hj with hended | ⟨pid, hmem, _⟩
    · exact hended
    · cases hmem
  case h_8 i rest =>
    obtain ⟨r, hr, rfl⟩ := Option.map_eq_some_iff.mp h
    refine hs.stepPrimitive hr (fun j q _ _ hknows => ?_) (fun p actor _ _ hknows => ?_)
    · exact hphase j q hknows
    · exact hphase i _ hknows
  case h_9 =>
    obtain rfl := Option.some.inj h
    refine hs.leave ?_ ?_
    · exact fun j q hq => (hphase j q (hs j q hq).knows).1
    · intro j q hq hk
      obtain ⟨_, hkind, hstage⟩ := hphase j q (hs j q hq).knows
      exact hstage (hkind.mpr hk)

theorem mem_targetsOfKind {kind : PrimitiveKind} {i : ℕ} {p : Primitive}
    (hp : s.primitives[i]? = some p) : i ∈ s.targetsOfKind kind ↔ p.kind = kind := by
  have hi : i < s.primitives.length := (List.getElem?_eq_some_iff.mp hp).1
  rw [targetsOfKind, List.mem_filter, hp, List.mem_range]
  simp [hi]

theorem Invariant.step (hs : s.Invariant) {a : ShutdownAction} (hguard : s.Conclusive a)
    (h : s.step a = some t) : t.Invariant := by
  cases a with
  | primitive i act =>
    simp only [Topology.step] at h
    split_ifs at h
    have hnext := hs.stepPrimitive h (fun j q _ _ hknows => hknows)
      (fun p actor _ _ hknows => hknows)
    obtain ⟨hmanager, _, _⟩ := stepPrimitive_cases h
    simpa only [Topology.moveTo, ← hmanager] using hnext
  | begin order =>
    simp only [Topology.step] at h
    split_ifs at h with hfree
    obtain rfl := Option.some.inj h
    refine hs.moveTo fun j q hq _ _ => Or.inl ?_
    have hj : j < s.primitives.length := (List.getElem?_eq_some_iff.mp hq).1
    exact hfree.2.symm.subset (List.mem_range.mpr hj)
  | enter order =>
    simp only [Topology.step] at h
    split at h
    · rename_i kind hmanager
      split_ifs at h with hperm hempty
      · -- no target: the phase returns at once
        obtain rfl := Option.some.inj h
        have hnext : ({ s with shutdowns := s.shutdowns ++ [kind] } : Topology).Invariant := hs
        refine hnext.leave ?_ ?_
        · intro j q hq
          have hknows := (hs j q hq).knows
          rw [hmanager] at hknows
          exact hknows
        · intro j q hq hk
          have hj : j ∈ order := hperm.symm.subset ((mem_targetsOfKind hq).mpr hk)
          rw [hempty] at hj
          cases hj
      · obtain rfl := Option.some.inj h
        have hnext : ({ s with shutdowns := s.shutdowns ++ [kind] } : Topology).Invariant := hs
        refine hnext.moveTo fun j q hq _ hknows => ?_
        rw [show ({ s with shutdowns := s.shutdowns ++ [kind] } : Topology).manager = _
          from hmanager] at hknows
        refine ⟨hknows, ?_, fun _ pid hpid => by cases hpid⟩
        exact (hperm.mem_iff).trans (mem_targetsOfKind hq)
    · cases h
  | advance =>
    simp only [Topology.step] at h
    split at h
    · rename_i i rest hmanager
      obtain ⟨r, hr, rfl⟩ := Option.map_eq_some_iff.mp h
      refine hs.stepPrimitive hr (fun j q hij _ hknows => ?_) (fun p actor hsend _ _ => ?_)
      · rw [hmanager] at hknows
        rcases hknows with hmem | hannounced
        · exact Or.inl ((List.mem_cons.mp hmem).resolve_left (Ne.symm hij))
        · exact Or.inr hannounced
      · obtain rfl := Option.some.inj hsend
        exact Or.inr (Or.inr ⟨.engineShuttingDown,
          List.mem_append_right _ (by simp [ActorRequest.message]), rfl⟩)
    · rename_i hmanager
      obtain rfl := Option.some.inj h
      refine hs.moveTo fun j q _ _ hknows => ?_
      rw [hmanager] at hknows
      rcases hknows with hmem | hannounced
      · cases hmem
      · exact hannounced
    · rename_i kind targets stage hmanager
      exact hs.advancePhase hmanager (hguard rfl) h
    · cases h

theorem step_entry {a : ShutdownAction} (h : s.step a = some t) {i : ℕ} {q : Primitive}
    (hq : t.primitives[i]? = some q) :
    s.primitives[i]? = some q ∨ ∃ p act actor, s.primitives[i]? = some p ∧
      p.actor.step p.config act = some actor ∧ q = { p with actor := actor } := by
  have hstepped : ∀ (j : ℕ) act r, s.stepPrimitive j act = some r → r.primitives[i]? = some q →
      s.primitives[i]? = some q ∨ ∃ p act actor, s.primitives[i]? = some p ∧
        p.actor.step p.config act = some actor ∧ q = { p with actor := actor } := by
    intro j act r hr hq
    rcases (stepPrimitive_cases hr).2.2 i q hq with ⟨_, hold⟩ | ⟨rfl, p, actor, hp, hstep, rfl⟩
    · exact Or.inl hold
    · exact Or.inr ⟨p, act, actor, hp, hstep, rfl⟩
  cases a with
  | primitive j act =>
    simp only [step] at h
    split_ifs at h
    exact hstepped j act t h hq
  | begin order =>
    simp only [step] at h
    split_ifs at h
    obtain rfl := Option.some.inj h
    exact Or.inl hq
  | enter order =>
    simp only [step] at h
    split at h
    · split_ifs at h
      · obtain rfl := Option.some.inj h
        exact Or.inl hq
      · obtain rfl := Option.some.inj h
        exact Or.inl hq
    · cases h
  | advance =>
    simp only [step] at h
    split at h
    case h_4 => cases h
    case h_1 j rest _ =>
      obtain ⟨r, hr, rfl⟩ := Option.map_eq_some_iff.mp h
      exact hstepped j _ r hr hq
    case h_2 =>
      obtain rfl := Option.some.inj h
      exact Or.inl hq
    case h_3 kind targets stage _ =>
      unfold Topology.advancePhase at h
      split at h
      case h_4 =>
        obtain ⟨r, hr, rfl⟩ := Option.map_eq_some_iff.mp h
        exact hstepped _ _ r hr hq
      case h_6 =>
        obtain ⟨r, hr, rfl⟩ := Option.map_eq_some_iff.mp h
        exact hstepped _ _ r hr hq
      case h_8 =>
        obtain ⟨r, hr, rfl⟩ := Option.map_eq_some_iff.mp h
        exact hstepped _ _ r hr hq
      all_goals
        obtain rfl := Option.some.inj h
        exact Or.inl hq

/-- In any continuation an actor that has stopped spawning makes no process. -/
theorem run_spent {as : List ShutdownAction} {kind : PrimitiveKind}
    (hhalting : ∀ (i : ℕ) p, s.primitives[i]? = some p → p.kind = kind → p.actor.Halting)
    (hrun : run step s as = some t) {i : ℕ} {q : Primitive} (hq : t.primitives[i]? = some q) :
    ∃ p, s.primitives[i]? = some p ∧ p.kind = q.kind ∧
      (q.kind = kind → q.actor.Halting ∧ PrimitiveActor.Spent p.actor q.actor) := by
  refine run_invariant (I := fun u : Topology => ∀ (i : ℕ) q, u.primitives[i]? = some q →
    ∃ p, s.primitives[i]? = some p ∧ p.kind = q.kind ∧
      (q.kind = kind → q.actor.Halting ∧ PrimitiveActor.Spent p.actor q.actor))
    ?_ ?_ hrun i q hq
  · intro u a v hu huv i q hq
    rcases step_entry huv hq with hold | ⟨r, act, actor, hr, hstep, rfl⟩
    · exact hu i q hold
    · obtain ⟨p, hp, hkind, hspent⟩ := hu i r hr
      refine ⟨p, hp, hkind, fun hk => ?_⟩
      obtain ⟨hhalt, hsp⟩ := hspent hk
      obtain ⟨hhalt', hsp'⟩ := hhalt.step hstep
      exact ⟨hhalt', hsp.trans hsp'⟩
  · exact fun i q hq => ⟨q, hq, rfl, fun hk =>
      ⟨hhalting i q hq hk, PrimitiveActor.Spent.of_same rfl rfl⟩⟩

def NothingRuns (s : Topology) (kind : PrimitiveKind) : Prop :=
  ∀ p ∈ s.primitives, p.kind = kind → ∀ c ∈ p.actor.children, c.phase.isAlive = true →
    .kill c.pid ∈ p.actor.signals

instance (s : Topology) (kind : PrimitiveKind) : Decidable (s.NothingRuns kind) :=
  inferInstanceAs (Decidable (∀ p ∈ s.primitives, p.kind = kind → ∀ c ∈ p.actor.children, _))

/-- Where the targets that a phase takes for gone are settled, nothing of the
kind runs once its phase has returned, and nothing of the kind is spawned in
any continuation. -/
theorem run_shutdown_leaves_nothing {configs : List PrimitiveActorConfig}
    {as : List ShutdownAction} (hguard : Obeys step Conclusive (start configs) as)
    (hrun : run step (start configs) as = some s) {kind : PrimitiveKind}
    (hreturned : kind ∈ s.returned) :
    s.NothingRuns kind ∧
      ∀ bs t, run step s bs = some t → ∀ (i : ℕ) p q, s.primitives[i]? = some p →
        t.primitives[i]? = some q → p.kind = kind →
        q.actor.children.length = p.actor.children.length := by
  have hinv : s.Invariant :=
    run_invariant_of_obeys (fun u a v hu hg h => hu.step hg h) (invariant_start configs) hguard
      hrun
  have hended : ∀ (i : ℕ) p, s.primitives[i]? = some p → p.kind = kind → p.actor.Ended :=
    fun i p hp hk => (hinv i p hp).returned (hk ▸ hreturned)
  refine ⟨fun p hp hk => ?_, fun bs t ht i p q hp hq hk => ?_⟩
  · obtain ⟨i, hi⟩ := List.getElem?_of_mem hp
    exact (hended i p hi hk).2
  · obtain ⟨p', hp', hkind, hspent⟩ :=
      run_spent (fun i p hp hk => (hended i p hp hk).1) ht hq
    obtain rfl : p = p' := Option.some.inj (hp.symm.trans hp')
    exact (hspent (hkind ▸ hk)).2.children.length_eq.symm

/-! The source phase over one timer: once with a child that ignores SIGTERM,
once with a restart queued ahead of `EngineShuttingDown`. -/

def timerSteps (as : List ActorAction) : List ShutdownAction := as.map (.primitive 0)

def announceAndRead : List ShutdownAction :=
  [.begin [0], .advance, .advance, .enter [0], .advance]

def killedTimer : List ShutdownAction :=
  timerSteps (PrimitiveActor.spawned .bootStep 100) ++ announceAndRead ++
    List.replicate 9 .advance

theorem run_shutdown_leaves_nothing_timer :
    ∃ s, run step (start [PrimitiveActor.timerActor]) killedTimer = some s ∧
      s.returned = [.source] ∧ s.NothingRuns .source := by
  have hreturned : (run step (start [PrimitiveActor.timerActor]) killedTimer).map
      (fun s => s.returned) = some [.source] := by decide
  obtain ⟨s, hrun, hs⟩ := Option.map_eq_some_iff.mp hreturned
  exact ⟨s, hrun, hs, (run_shutdown_leaves_nothing (by decide) hrun (by simp [hs])).1⟩

def crashAndQueue : List ActorAction :=
  PrimitiveActor.spawned .bootStep 100 ++ [.deliver 0, .deliver 0, .exit 0 (.code 1)] ++
    List.replicate 4 (.monitorStep 0) ++ [.deliver 1, .taskStep (.created 101)]

def restartedTimer : List ShutdownAction :=
  timerSteps crashAndQueue ++ announceAndRead ++ [.advance, .advance] ++
    timerSteps ([.deliver 1] ++ PrimitiveActor.spawned .taskStep 101 ++ [.deliver 1, .terminate]) ++
    [.advance]

/-- The phase reads an empty watch and stops the actor; the restart it has not
seen makes a child that the engine never signals. -/
theorem restart_outlives_phase :
    ∃ s, run step (start [PrimitiveActor.timerActor]) restartedTimer = some s ∧
      s.returned = [.source] ∧ ¬ s.NothingRuns .source := by
  have hend : (run step (start [PrimitiveActor.timerActor]) restartedTimer).map
      (fun s => (s.returned, decide (s.NothingRuns .source))) = some ([.source], false) := by
    decide
  obtain ⟨s, hrun, hs⟩ := Option.map_eq_some_iff.mp hend
  obtain ⟨hreturned, halive⟩ := Prod.mk.inj hs
  exact ⟨s, hrun, hreturned, of_decide_eq_false halive⟩

end Topology

end Emergent.Engine

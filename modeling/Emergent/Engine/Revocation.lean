import Emergent.Engine.Identity
import Emergent.Engine.ActorTracking

/-!
# Revoking the connections of an exited child

Three parties share the pid watch of a primitive. Its actor publishes each child
and each exit, one after the other. Admission reads the watches of all
primitives to name a peer and, some steps later, records the connection under
that name (`ipc_identity.rs`). The task of `watch_child_exits`
(`process_manager.rs`) sees only the latest value of the watch: when it finds it
empty after a pid, it takes the ids recorded under the name and revokes them one
by one.

A `Slot` is one entry of the process manager with its watch, its task and what
the registry holds under its name. Children are numbered in the order of their
publication; the numbers on admissions, connections and readings are a log of
which child they belong to.
-/

namespace Emergent.Engine
open Kit

/-- A peer that resolution has named, on its way to `record`. -/
structure Admission where
  id : ConnectionId
  child : ℕ
  deriving Repr, DecidableEq

structure HeldConnection where
  id : ConnectionId
  child : ℕ
  isOpen : Bool
  deriving Repr, DecidableEq

/-- Where the exit-watching task is: between two readings, about to call
`revoke_all` for an exit it has read, or closing the ids it has taken. -/
inductive ExitPhase where
  | idle
  | exiting (pid : Pid) (child : ℕ)
  | revoking (child : ℕ) (ids : List ConnectionId)
  deriving Repr, DecidableEq

structure Slot where
  name : String
  watch : Option Pid
  version : ℕ
  generation : ℕ
  started : Bool
  seen : ℕ
  live : Option (Pid × ℕ)
  phase : ExitPhase
  recorded : List ConnectionId
  everRecorded : ℕ
  pending : List Admission
  connections : List HeldConnection
  revoked : List (ℕ × HeldConnection)

inductive SlotAction where
  /-- `ChildPidWatch::set`, of the next child. -/
  | publish (pid : Pid)
  /-- `ChildPidWatch::clear`. -/
  | clear
  | watchStart
  | watchRead
  | takeIds
  | revokeNext
  | record (k : ℕ)
  | abandon (k : ℕ)
  /-- The peer closes its connection. -/
  | close (id : ConnectionId)
  deriving Repr, DecidableEq

namespace Slot

def start (name : String) : Slot where
  name := name
  watch := none
  version := 0
  generation := 0
  started := false
  seen := 0
  live := none
  phase := .idle
  recorded := []
  everRecorded := 0
  pending := []
  connections := []
  revoked := []

def shown (s : Slot) : Option (Pid × ℕ) := s.watch.map fun pid => (pid, s.generation)

def closeConnection (id : ConnectionId) (c : HeldConnection) : HeldConnection :=
  if c.id = id then { c with isOpen := false } else c

def step (s : Slot) : SlotAction → Option Slot
  | .publish pid =>
    if s.watch = none then
      some { s with
        watch := some pid, version := s.version + 1, generation := s.generation + 1 }
    else none
  | .clear => some { s with watch := none, version := s.version + 1 }
  | .watchStart =>
    if s.started then none
    else some { s with started := true, seen := s.version, live := s.shown }
  | .watchRead =>
    if s.started = true ∧ s.phase = .idle ∧ s.seen ≠ s.version then
      match s.live, s.shown with
      | some (pid, child), none =>
        some { s with seen := s.version, live := none, phase := .exiting pid child }
      | _, shown => some { s with seen := s.version, live := shown }
    else none
  | .takeIds =>
    match s.phase with
    | .exiting _ child => some { s with recorded := [], phase := .revoking child s.recorded }
    | _ => none
  | .revokeNext =>
    match s.phase with
    | .revoking _ [] => some { s with phase := .idle }
    | .revoking child (id :: ids) =>
      some { s with
        phase := .revoking child ids
        connections := s.connections.map (closeConnection id)
        revoked := s.revoked ++
          (s.connections.filter fun c => c.id = id ∧ c.isOpen = true).map fun c => (child, c) }
    | _ => none
  | .record k =>
    s.pending[k]?.map fun a =>
      { s with
        pending := s.pending.eraseIdx k
        recorded := (remember s.recorded a.id maxConnectionsPerPrimitive).1
        everRecorded := s.everRecorded + 1
        connections := s.connections ++ [⟨a.id, a.child, true⟩] }
  | .abandon k => some { s with pending := s.pending.eraseIdx k }
  | .close id => some { s with connections := s.connections.map (closeConnection id) }

def Exited (s : Slot) (child : ℕ) : Prop := child < s.generation ∨ s.watch = none

/-- The task has nothing left to do. -/
def Quiescent (s : Slot) : Prop := s.started = true ∧ s.phase = .idle ∧ s.seen = s.version

instance (s : Slot) (child : ℕ) : Decidable (s.Exited child) :=
  inferInstanceAs (Decidable (_ ∨ _))

instance (s : Slot) : Decidable s.Quiescent :=
  inferInstanceAs (Decidable (_ ∧ _ ∧ _))

end Slot

structure Registry where
  slots : List Slot
  nextId : ConnectionId

inductive RegistryAction where
  | slot (i : ℕ) (a : SlotAction)
  /-- The decisive turn of `walk` for a new connection. -/
  | resolve (peer : Option Pid) (parentOf : Pid → Option Pid)

namespace Slot

/-- The watch of the slot goes where the actor's goes: what the actor does to it
is nothing, a publication or a clearing that the slot has as a step. -/
theorem follows_actor {config : PrimitiveActorConfig} {actor next : PrimitiveActor}
    {a : ActorAction} {s : Slot} (hactor : actor.Tracked) (hstep : actor.step config a = some next)
    (hsame : s.watch = actor.watch) :
    next.watch = s.watch ∨
      ∃ b t, s.step b = some t ∧ t.watch = next.watch ∧ (b = .clear ∨ ∃ pid, b = .publish pid) := by
  rcases hactor.step_watchMove hstep with hkept | hcleared | hempty
  · exact Or.inl (hkept.trans hsame.symm)
  · exact Or.inr ⟨.clear, _, rfl, hcleared.symm, Or.inl rfl⟩
  · cases hnext : next.watch with
    | none => exact Or.inr ⟨.clear, _, rfl, rfl, Or.inl rfl⟩
    | some pid =>
      have hnone : s.watch = none := hsame.trans hempty
      exact Or.inr ⟨.publish pid, _, if_pos hnone, rfl, Or.inr ⟨pid, rfl⟩⟩

theorem run_follows_actor {config : PrimitiveActorConfig} {actor : PrimitiveActor}
    {as : List ActorAction} (name : String)
    (hrun : run (PrimitiveActor.step config) PrimitiveActor.start as = some actor) :
    ∃ bs t, run step (start name) bs = some t ∧ t.watch = actor.watch ∧
      ∀ b ∈ bs, b = .clear ∨ ∃ pid, b = .publish pid := by
  have hboth : actor.Tracked ∧ ∃ bs t, run step (start name) bs = some t ∧
      t.watch = actor.watch ∧ ∀ b ∈ bs, b = .clear ∨ ∃ pid, b = .publish pid := by
    refine run_invariant (I := fun actor : PrimitiveActor => actor.Tracked ∧ ∃ bs t,
      run step (start name) bs = some t ∧ t.watch = actor.watch ∧
        ∀ b ∈ bs, b = .clear ∨ ∃ pid, b = .publish pid) ?_ ?_ hrun
    · rintro actor a next ⟨htracked, bs, t, hbs, hwatch, hkind⟩ hstep
      refine ⟨htracked.step hstep, ?_⟩
      rcases follows_actor htracked hstep hwatch with hsame | ⟨b, u, hb, hu, hclearing⟩
      · exact ⟨bs, t, hbs, hsame.symm, hkind⟩
      · refine ⟨bs ++ [b], u, run_snoc.mpr ⟨t, hbs, hb⟩, hu, fun b' hb' => ?_⟩
        rcases List.mem_append.mp hb' with hb' | hb'
        · exact hkind b' hb'
        · rw [List.mem_singleton.mp hb']
          exact hclearing
    · exact ⟨PrimitiveActor.tracked_start, [], start name, rfl, rfl, by simp⟩
  exact hboth.2

end Slot

namespace Registry

def start (names : List String) : Registry := ⟨names.map Slot.start, 0⟩

def liveChildPids (s : Registry) : List (Pid × String) :=
  s.slots.filterMap fun slot => slot.watch.map fun pid => (pid, slot.name)

def stepSlot (s : Registry) (i : ℕ) (a : SlotAction) : Option Registry :=
  s.slots[i]?.bind fun slot =>
    (slot.step a).map fun next => { s with slots := s.slots.modify i fun _ => next }

/-- The admission of a peer named `name`: it waits in the slot of that name. -/
def admitAs (s : Registry) (name : String) : Registry :=
  { slots := s.slots.map fun slot =>
      if slot.name = name ∧ slot.watch.isSome = true then
        { slot with pending := slot.pending ++ [⟨s.nextId, slot.generation⟩] }
      else slot
    nextId := s.nextId + 1 }

def step (enginePid : Pid) (s : Registry) : RegistryAction → Option Registry
  | .slot i a => s.stepSlot i a
  | .resolve peer parentOf =>
    match resolveAncestry peer enginePid s.liveChildPids parentOf with
    | .primitive name => some (s.admitAs name)
    | .unrecordedChild | .foreign => some { s with nextId := s.nextId + 1 }

end Registry

/-! ### Every connection of an exited child is revoked -/

namespace Slot

variable {s t : Slot}

def Current (s : Slot) (child : ℕ) : Prop := child = s.generation ∧ s.watch.isSome = true

def willTake (s : Slot) : Bool :=
  match s.phase with
  | .idle => s.live.isSome && s.watch.isNone
  | .exiting _ _ => true
  | .revoking _ _ => false

def Doomed (s : Slot) (c : HeldConnection) : Prop :=
  c.id ∈ s.recorded ∧ s.willTake = true ∨ ∃ child ids, s.phase = .revoking child ids ∧ c.id ∈ ids

/-- What the runs of the next theorem meet at each step. A pid is published while
the task holds no child as live, and the exit after it while the task holds one,
unless no connection of the name is open. A connection is recorded while its
child is the one shown, or while the ids have still to be taken for an exit; and
fewer than 64 were recorded before. -/
def Observed (s : Slot) : SlotAction → Prop
  | .publish _ => s.live = none ∨ ∀ c ∈ s.connections, c.isOpen = false
  | .clear => s.watch = none ∨ s.live.isSome = true ∨ ∀ c ∈ s.connections, c.isOpen = false
  | .record k => ∀ a ∈ s.pending[k]?, s.everRecorded < maxConnectionsPerPrimitive ∧
      (s.Current a.child ∨ s.willTake = true)
  | _ => True

instance (s : Slot) (child : ℕ) : Decidable (s.Current child) :=
  inferInstanceAs (Decidable (_ ∧ _))

instance (s : Slot) (a : SlotAction) : Decidable (s.Observed a) :=
  match a with
  | .publish _ => inferInstanceAs (Decidable (_ ∨ _))
  | .clear => inferInstanceAs (Decidable (_ ∨ _ ∨ _))
  | .record k => inferInstanceAs (Decidable (∀ a ∈ s.pending[k]?, _ ∧ (_ ∨ _)))
  | .watchStart | .watchRead | .takeIds | .revokeNext | .abandon _ | .close _ => isTrue trivial

structure Tended (s : Slot) : Prop where
  behind : s.seen ≤ s.version
  unstarted : s.started = false → s.phase = .idle ∧ s.live = none
  busy : s.phase ≠ .idle → s.live = none
  synced : s.started = true → s.seen = s.version →
    (s.phase = .idle → s.live = s.shown) ∧ (s.phase ≠ .idle → s.watch = none)
  room : s.recorded.length ≤ s.everRecorded
  kept : ∀ c ∈ s.connections, c.isOpen = true →
    s.Doomed c ∨ c.id ∈ s.recorded ∧ s.Current c.child

theorem tended_start (name : String) : (start name).Tended where
  behind := le_rfl
  unstarted := fun _ => ⟨rfl, rfl⟩
  busy := fun _ => rfl
  synced := by simp [start]
  room := le_rfl
  kept := by simp [start]

theorem Tended.quiescent (hs : s.Tended) (hquiet : s.Quiescent) {c : HeldConnection}
    (hc : c ∈ s.connections) (hopen : c.isOpen = true) : ¬ s.Exited c.child := by
  obtain ⟨hstarted, hidle, hseen⟩ := hquiet
  have hlive := (hs.synced hstarted hseen).1 hidle
  rcases hs.kept c hc hopen with (⟨_, htake⟩ | ⟨child, ids, hphase, _⟩) | ⟨_, hchild, hsome⟩
  · cases hwatch : s.watch <;> simp [willTake, hidle, hlive, shown, hwatch] at htake
  · rw [hidle] at hphase
    cases hphase
  · rintro (hlt | hnone)
    · omega
    · rw [hnone] at hsome
      cases hsome

theorem mem_remember {ids : List ConnectionId} (id : ConnectionId) {cap : ℕ}
    (hroom : ids.length < cap) : ids ⊆ (remember ids id cap).1 ∧ id ∈ (remember ids id cap).1 := by
  by_cases hmem : id ∈ ids
  · simp [remember, hmem]
  · rw [remember_of_room hroom hmem]
    exact ⟨List.subset_append_left _ _, List.mem_append_right _ (List.mem_singleton.mpr rfl)⟩

theorem length_remember (ids : List ConnectionId) (id : ConnectionId) (cap : ℕ) :
    (remember ids id cap).1.length ≤ ids.length + 1 := by
  unfold remember
  split_ifs
  · exact Nat.le_succ _
  · simp
  · simp

theorem closeConnection_open {id : ConnectionId} {c : HeldConnection}
    (h : (closeConnection id c).isOpen = true) : closeConnection id c = c ∧ c.id ≠ id := by
  unfold closeConnection at h ⊢
  split_ifs at h ⊢ with hid
  exact ⟨rfl, hid⟩

theorem Tended.publish (hs : s.Tended) {pid : Pid} (hguard : s.Observed (.publish pid))
    (h : s.step (.publish pid) = some t) : t.Tended := by
  have hbehind := hs.behind
  simp only [step] at h
  split_ifs at h with hnone
  obtain rfl := Option.some.inj h
  refine ⟨Nat.le_succ_of_le hbehind, hs.unstarted, hs.busy, fun _ hseen => ?_, hs.room,
    fun c hc hopen => ?_⟩
  · have heq : s.seen = s.version + 1 := hseen
    omega
  · rcases hguard with hlive | hclosed
    · refine Or.inl ?_
      rcases hs.kept c hc hopen with (⟨hmem, htake⟩ | hrevoking) | ⟨_, _, hsome⟩
      · refine Or.inl ⟨hmem, ?_⟩
        cases hphase : s.phase with
        | idle => simp [willTake, hphase, hlive] at htake
        | exiting pid child => simp [willTake]
        | revoking child ids => simp [willTake, hphase] at htake
      · exact Or.inr hrevoking
      · rw [hnone] at hsome
        cases hsome
    · rw [hclosed c hc] at hopen
      cases hopen

theorem Tended.clear (hs : s.Tended) (hguard : s.Observed .clear)
    (h : s.step .clear = some t) : t.Tended := by
  have hbehind := hs.behind
  obtain rfl := Option.some.inj h
  refine ⟨Nat.le_succ_of_le hbehind, hs.unstarted, hs.busy, fun _ hseen => ?_, hs.room,
    fun c hc hopen => ?_⟩
  · have heq : s.seen = s.version + 1 := hseen
    omega
  · refine Or.inl ?_
    rcases hs.kept c hc hopen with (⟨hmem, htake⟩ | hrevoking) | ⟨hmem, _, hsome⟩
    · refine Or.inl ⟨hmem, ?_⟩
      cases hphase : s.phase with
      | idle => simp_all [willTake]
      | exiting pid child => simp [willTake]
      | revoking child ids => simp [willTake, hphase] at htake
    · exact Or.inr hrevoking
    · rcases hguard with hnone | hlive | hclosed
      · rw [hnone] at hsome
        cases hsome
      · -- the task holds a child as live, so it is idle and will read this exit
        have hphase : s.phase = .idle := by
          by_contra hne
          rw [hs.busy hne] at hlive
          cases hlive
        exact Or.inl ⟨hmem, by simp [willTake, hphase, hlive]⟩
      · rw [hclosed c hc] at hopen
        cases hopen

theorem Tended.watchStart (hs : s.Tended) (h : s.step .watchStart = some t) : t.Tended := by
  simp only [step] at h
  split_ifs at h with hstarted
  obtain rfl := Option.some.inj h
  obtain ⟨hphase, hlive⟩ := hs.unstarted (Bool.eq_false_iff.mpr hstarted)
  refine ⟨le_rfl, fun h => (by cases h), fun hne => absurd hphase hne,
    fun _ _ => ⟨fun _ => rfl, fun hne => absurd hphase hne⟩, hs.room, fun c hc hopen => Or.inr ?_⟩
  rcases hs.kept c hc hopen with (⟨_, htake⟩ | ⟨child, ids, hrevoking, _⟩) | hcurrent
  · simp [willTake, hphase, hlive] at htake
  · rw [hphase] at hrevoking
    cases hrevoking
  · exact hcurrent

theorem Tended.watchRead (hs : s.Tended) (h : s.step .watchRead = some t) : t.Tended := by
  simp only [step] at h
  split_ifs at h with hfree
  obtain ⟨hstarted, hphase, _⟩ := hfree
  have hkept : ∀ c ∈ s.connections, c.isOpen = true →
      c.id ∈ s.recorded ∧ (s.live.isSome = true ∧ s.watch = none ∨ s.Current c.child) := by
    intro c hc hopen
    rcases hs.kept c hc hopen with (⟨hmem, htake⟩ | ⟨child, ids, hrevoking, _⟩) | ⟨hmem, hcurrent⟩
    · simp only [willTake, hphase, Bool.and_eq_true, Option.isNone_iff_eq_none] at htake
      exact ⟨hmem, Or.inl htake⟩
    · rw [hphase] at hrevoking
      cases hrevoking
    · exact ⟨hmem, Or.inr hcurrent⟩
  split at h
  · -- the exit of the child held as live
    rename_i pid child hlive hshown
    obtain rfl := Option.some.inj h
    have hnone : s.watch = none := by simpa [shown] using hshown
    refine ⟨le_rfl, fun h => ?_, fun _ => rfl, fun _ _ => ⟨fun h => (by cases h), fun _ => hnone⟩,
      hs.room, fun c hc hopen => Or.inl (Or.inl ⟨(hkept c hc hopen).1, rfl⟩)⟩
    rw [hstarted] at h
    cases h
  · rename_i hnot
    obtain rfl := Option.some.inj h
    refine ⟨le_rfl, fun h => ?_, fun hne => absurd hphase hne,
      fun _ _ => ⟨fun _ => rfl, fun hne => absurd hphase hne⟩, hs.room, fun c hc hopen => Or.inr ?_⟩
    · rw [hstarted] at h
      cases h
    · obtain ⟨hmem, ⟨hsome, hnone⟩ | hcurrent⟩ := hkept c hc hopen
      · obtain ⟨⟨pid, child⟩, hlive⟩ := Option.isSome_iff_exists.mp hsome
        exact absurd (by simp [shown, hnone]) (hnot pid child hlive)
      · exact ⟨hmem, hcurrent⟩

theorem Tended.takeIds (hs : s.Tended) (h : s.step .takeIds = some t) : t.Tended := by
  simp only [step] at h
  split at h
  · rename_i pid child hphase
    obtain rfl := Option.some.inj h
    refine ⟨hs.behind, fun h => ?_, fun _ => hs.busy (by rw [hphase]; simp),
      fun hstarted hseen => ⟨fun h => (by cases h), fun _ => ?_⟩, Nat.zero_le _,
      fun c hc hopen => Or.inl (Or.inr ⟨child, s.recorded, rfl, ?_⟩)⟩
    · have hidle := (hs.unstarted h).1
      rw [hphase] at hidle
      cases hidle
    · exact (hs.synced hstarted hseen).2 (by rw [hphase]; simp)
    · rcases hs.kept c hc hopen with (⟨hmem, _⟩ | ⟨_, _, hrevoking, _⟩) | ⟨hmem, _⟩
      · exact hmem
      · rw [hphase] at hrevoking
        cases hrevoking
      · exact hmem
  · cases h

theorem Tended.revokeNext (hs : s.Tended) (h : s.step .revokeNext = some t) : t.Tended := by
  have hunstarted : ∀ {child : ℕ} {ids : List ConnectionId} {P : Prop},
      s.phase = .revoking child ids → s.started = false → P := by
    intro child ids P hphase hstarted
    have hidle := (hs.unstarted hstarted).1
    rw [hphase] at hidle
    cases hidle
  simp only [step] at h
  split at h
  · rename_i child hphase
    obtain rfl := Option.some.inj h
    have hlive : s.live = none := hs.busy (by rw [hphase]; simp)
    refine ⟨hs.behind, hunstarted hphase, fun hne => absurd rfl hne,
      fun hstarted hseen => ⟨fun _ => ?_, fun hne => absurd rfl hne⟩, hs.room,
      fun c hc hopen => Or.inr ?_⟩
    · have hnone : s.watch = none := (hs.synced hstarted hseen).2 (by rw [hphase]; simp)
      simp [shown, hnone, hlive]
    · rcases hs.kept c hc hopen with (⟨_, htake⟩ | ⟨_, _, hrevoking, hmem⟩) | hcurrent
      · simp [willTake, hphase] at htake
      · rw [hphase] at hrevoking
        cases hrevoking
        cases hmem
      · exact hcurrent
  · rename_i child id ids hphase
    obtain rfl := Option.some.inj h
    refine ⟨hs.behind, hunstarted hphase, fun _ => hs.busy (by rw [hphase]; simp),
      fun hstarted hseen => ⟨fun h => (by cases h), fun _ => ?_⟩, hs.room, fun d hd hopen => ?_⟩
    · exact (hs.synced hstarted hseen).2 (by rw [hphase]; simp)
    · obtain ⟨c, hc, rfl⟩ := List.mem_map.mp hd
      obtain ⟨heq, hid⟩ := closeConnection_open hopen
      rw [heq] at hopen ⊢
      rcases hs.kept c hc hopen with (⟨_, htake⟩ | ⟨_, _, hrevoking, hmem⟩) | hcurrent
      · simp [willTake, hphase] at htake
      · rw [hphase] at hrevoking
        cases hrevoking
        exact Or.inl (Or.inr ⟨child, ids, rfl, (List.mem_cons.mp hmem).resolve_left hid⟩)
      · exact Or.inr hcurrent
  · cases h

theorem Tended.record (hs : s.Tended) {k : ℕ} (hguard : s.Observed (.record k))
    (h : s.step (.record k) = some t) : t.Tended := by
  obtain ⟨a, ha, rfl⟩ := Option.map_eq_some_iff.mp h
  obtain ⟨hroom, hchild⟩ := hguard a ha
  have hlen := hs.room
  have hlen' := length_remember s.recorded a.id maxConnectionsPerPrimitive
  obtain ⟨hsub, hmem⟩ := mem_remember a.id (lt_of_le_of_lt hlen hroom)
  refine ⟨hs.behind, hs.unstarted, hs.busy, hs.synced, ?_, fun c hc hopen => ?_⟩
  · show (remember s.recorded a.id maxConnectionsPerPrimitive).1.length ≤ s.everRecorded + 1
    omega
  · rcases List.mem_append.mp hc with hc | hc
    · rcases hs.kept c hc hopen with (⟨hold, htake⟩ | hrevoking) | ⟨hold, hcurrent⟩
      · exact Or.inl (Or.inl ⟨hsub hold, htake⟩)
      · exact Or.inl (Or.inr hrevoking)
      · exact Or.inr ⟨hsub hold, hcurrent⟩
    · obtain rfl := List.mem_singleton.mp hc
      rcases hchild with hcurrent | htake
      · exact Or.inr ⟨hmem, hcurrent⟩
      · exact Or.inl (Or.inl ⟨hmem, htake⟩)

theorem Tended.step (hs : s.Tended) {a : SlotAction} (hguard : s.Observed a)
    (h : s.step a = some t) : t.Tended := by
  cases a with
  | publish pid => exact hs.publish hguard h
  | clear => exact hs.clear hguard h
  | watchStart => exact hs.watchStart h
  | watchRead => exact hs.watchRead h
  | takeIds => exact hs.takeIds h
  | revokeNext => exact hs.revokeNext h
  | record k => exact hs.record hguard h
  | abandon k =>
    obtain rfl := Option.some.inj h
    exact ⟨hs.behind, hs.unstarted, hs.busy, hs.synced, hs.room, hs.kept⟩
  | close id =>
    obtain rfl := Option.some.inj h
    refine ⟨hs.behind, hs.unstarted, hs.busy, hs.synced, hs.room, fun d hd hopen => ?_⟩
    obtain ⟨c, hc, rfl⟩ := List.mem_map.mp hd
    obtain ⟨heq, _⟩ := closeConnection_open hopen
    rw [heq] at hopen ⊢
    exact hs.kept c hc hopen

end Slot

namespace Registry

variable {enginePid : Pid} {s t : Registry}

/-- The slot an action is about meets `guard` before it. -/
def Guarded (guard : Slot → SlotAction → Prop) (s : Registry) : RegistryAction → Prop
  | .slot i a => ∀ slot ∈ s.slots[i]?, guard slot a
  | .resolve _ _ => True

instance {guard : Slot → SlotAction → Prop} [∀ slot a, Decidable (guard slot a)]
    (s : Registry) (a : RegistryAction) : Decidable (s.Guarded guard a) :=
  match a with
  | .slot i a => inferInstanceAs (Decidable (∀ slot ∈ s.slots[i]?, guard slot a))
  | .resolve _ _ => isTrue trivial

/-- What every slot keeps through its own steps, and through a new admission, all
slots keep through every step of the registry. -/
theorem each_step {P : ConnectionId → Slot → Prop} {guard : Slot → SlotAction → Prop}
    (hslot : ∀ n slot a next, P n slot → guard slot a → slot.step a = some next → P n next)
    (hnext : ∀ n slot, P n slot → P (n + 1) slot)
    (hadmission : ∀ n slot, P n slot →
      P (n + 1) { slot with pending := slot.pending ++ [⟨n, slot.generation⟩] })
    {a : RegistryAction} (hs : ∀ slot ∈ s.slots, P s.nextId slot) (hguard : s.Guarded guard a)
    (h : s.step enginePid a = some t) : ∀ slot ∈ t.slots, P t.nextId slot := by
  cases a with
  | slot i a =>
    obtain ⟨slot, hi, h⟩ := Option.bind_eq_some_iff.mp h
    obtain ⟨next, hstep, rfl⟩ := Option.map_eq_some_iff.mp h
    intro other hother
    obtain ⟨j, hj⟩ := List.getElem?_of_mem hother
    rcases getElem?_modify_cases hj with ⟨_, _, _, rfl⟩ | ⟨_, hj⟩
    · exact hslot _ slot a other (hs slot (List.mem_of_getElem? hi)) (hguard slot hi) hstep
    · exact hs other (List.mem_of_getElem? hj)
  | resolve peer parentOf =>
    simp only [step] at h
    split at h
    · obtain rfl := Option.some.inj h
      intro other hother
      obtain ⟨slot, hslot, rfl⟩ := List.mem_map.mp hother
      split_ifs
      · exact hadmission _ slot (hs slot hslot)
      · exact hnext _ slot (hs slot hslot)
    · obtain rfl := Option.some.inj h
      exact fun slot hmem => hnext _ slot (hs slot hmem)
    · obtain rfl := Option.some.inj h
      exact fun slot hmem => hnext _ slot (hs slot hmem)

theorem each_start {P : ConnectionId → Slot → Prop} (hstart : ∀ name, P 0 (Slot.start name))
    (names : List String) : ∀ slot ∈ (start names).slots, P (start names).nextId slot := by
  intro slot hslot
  obtain ⟨name, _, rfl⟩ := List.mem_map.mp hslot
  exact hstart name

theorem tended_step {a : RegistryAction} (hs : ∀ slot ∈ s.slots, slot.Tended)
    (hguard : s.Guarded Slot.Observed a) (h : s.step enginePid a = some t) :
    ∀ slot ∈ t.slots, slot.Tended :=
  each_step (P := fun _ slot => slot.Tended) (fun _ _ _ _ hs hguard h => hs.step hguard h)
    (fun _ _ hs => hs)
    (fun _ _ hs => ⟨hs.behind, hs.unstarted, hs.busy, hs.synced, hs.room, hs.kept⟩) hs hguard h

/-- Once the watcher of a name is at rest, no connection of an exited child of
that name is open. -/
theorem run_revocation_complete {names : List String} {as : List RegistryAction}
    (hguard : Obeys (step enginePid) (Guarded Slot.Observed) (start names) as)
    (hrun : run (step enginePid) (start names) as = some t) :
    ∀ slot ∈ t.slots, slot.Quiescent →
      ∀ c ∈ slot.connections, slot.Exited c.child → c.isOpen = false := by
  have htended : ∀ slot ∈ t.slots, slot.Tended :=
    run_invariant_of_obeys (fun _ _ _ hs hguard h => tended_step hs hguard h)
      (each_start (P := fun _ slot => slot.Tended) Slot.tended_start names) hguard hrun
  intro slot hslot hquiet c hc hexited
  rw [Bool.eq_false_iff]
  exact fun hopen => (htended slot hslot).quiescent hquiet hc hopen hexited

/-- The child 100 connects and exits, the task revokes, the child 101 connects. -/
def restartInOrder : List RegistryAction :=
  [.slot 0 .watchStart, .slot 0 (.publish 100), .slot 0 .watchRead,
    .resolve (some 100) (fun _ => none), .slot 0 (.record 0),
    .slot 0 .clear, .slot 0 .watchRead, .slot 0 .takeIds, .slot 0 .revokeNext,
    .slot 0 .revokeNext, .slot 0 (.publish 101), .slot 0 .watchRead,
    .resolve (some 101) (fun _ => none), .slot 0 (.record 0)]

theorem run_revocation_complete_timer :
    ∃ t, run (step 1) (start ["timer"]) restartInOrder = some t ∧
      (∀ slot ∈ t.slots, slot.Quiescent →
        ∀ c ∈ slot.connections, slot.Exited c.child → c.isOpen = false) ∧
      ∃ slot ∈ t.slots, slot.Quiescent ∧ ∃ c ∈ slot.connections, slot.Exited c.child := by
  have hguard : Obeys (step 1) (Guarded Slot.Observed) (start ["timer"]) restartInOrder := by
    decide
  exact ⟨_, rfl, run_revocation_complete hguard rfl, by decide⟩

/-- The child 100 is resolved, exits and is revoked before its connection is
recorded. -/
def recordAfterExit : List RegistryAction :=
  [.slot 0 .watchStart, .slot 0 (.publish 100), .slot 0 .watchRead,
    .resolve (some 100) (fun _ => none),
    .slot 0 .clear, .slot 0 .watchRead, .slot 0 .takeIds, .slot 0 .revokeNext,
    .slot 0 (.record 0)]

/-- The child 100 exits and 101 is published before the task reads the watch. -/
def coalescedRestart : List RegistryAction :=
  [.slot 0 .watchStart, .slot 0 (.publish 100), .slot 0 .watchRead,
    .resolve (some 100) (fun _ => none), .slot 0 (.record 0),
    .slot 0 .clear, .slot 0 (.publish 101), .slot 0 .watchRead]

/-- After the run the task of a name is at rest and a connection of an exited child
is open. -/
def LeavesOpen (as : List RegistryAction) : Prop :=
  ∃ t, run (step 1) (start ["timer"]) as = some t ∧
    ∃ slot ∈ t.slots, slot.everRecorded < maxConnectionsPerPrimitive ∧ slot.Quiescent ∧
      ∃ c ∈ slot.connections, slot.Exited c.child ∧ c.isOpen = true

/-- Both runs leave the connection of the exited child 100 open. -/
theorem connection_outlives_child :
    LeavesOpen recordAfterExit ∧ LeavesOpen coalescedRestart := by
  constructor
  · exact ⟨_, rfl, by decide⟩
  · exact ⟨_, rfl, by decide⟩

end Registry

/-! ### Only connections of the exited child are revoked -/

namespace Slot

variable {s t : Slot}

def exitingChild (s : Slot) : Option ℕ :=
  match s.phase with
  | .exiting _ child => some child
  | _ => none

/-- What the runs of the next theorem meet at each step. When the task reads the
exit of a child, no open connection recorded under the name is a later child's,
and none of a later child is recorded until the ids are taken. -/
def Undisputed (s : Slot) : SlotAction → Prop
  | .watchRead => ∀ held ∈ s.live, s.watch = none →
      ∀ c ∈ s.connections, c.id ∈ s.recorded → c.isOpen = true → c.child ≤ held.2
  | .record k => ∀ a ∈ s.pending[k]?, ∀ child ∈ s.exitingChild, a.child ≤ child
  | _ => True

instance (s : Slot) (a : SlotAction) : Decidable (s.Undisputed a) :=
  match a with
  | .watchRead => inferInstanceAs (Decidable (∀ held ∈ s.live, _ → _))
  | .record k => inferInstanceAs (Decidable (∀ a ∈ s.pending[k]?, ∀ child ∈ s.exitingChild, _))
  | .publish _ | .clear | .watchStart | .takeIds | .revokeNext | .abandon _ | .close _ =>
    isTrue trivial

structure Precise (n : ConnectionId) (s : Slot) : Prop where
  fresh : ∀ a ∈ s.pending, a.id < n
  below : ∀ c ∈ s.connections, c.id < n
  distinct : (s.pending.map Admission.id).Nodup
  apart : ∀ a ∈ s.pending, ∀ c ∈ s.connections, c.id ≠ a.id
  owned : s.recorded ⊆ s.connections.map HeldConnection.id
  exiting : ∀ child ∈ s.exitingChild, ∀ c ∈ s.connections, c.id ∈ s.recorded →
    c.isOpen = true → c.child ≤ child
  revoking : ∀ child ids, s.phase = .revoking child ids →
    ids ⊆ s.connections.map HeldConnection.id ∧
      ∀ c ∈ s.connections, c.id ∈ ids → c.isOpen = true → c.child ≤ child
  log : ∀ entry ∈ s.revoked, entry.2.child ≤ entry.1

variable {n : ConnectionId}

theorem precise_start (name : String) : (start name).Precise 0 where
  fresh := by simp [start]
  below := by simp [start]
  distinct := by simp [start]
  apart := by simp [start]
  owned := by simp [start]
  exiting := by simp [start, exitingChild]
  revoking := by simp [start]
  log := by simp [start]

theorem Precise.next (hs : s.Precise n) : s.Precise (n + 1) :=
  ⟨fun a ha => Nat.lt_succ_of_lt (hs.fresh a ha), fun c hc => Nat.lt_succ_of_lt (hs.below c hc),
    hs.distinct, hs.apart, hs.owned, hs.exiting, hs.revoking, hs.log⟩

theorem Precise.admission (hs : s.Precise n) :
    Precise (n + 1) { s with pending := s.pending ++ [⟨n, s.generation⟩] } := by
  refine ⟨fun a ha => ?_, hs.next.below, ?_, fun a ha c hc => ?_, hs.owned, hs.exiting,
    hs.revoking, hs.log⟩
  · rcases List.mem_append.mp ha with ha | ha
    · exact hs.next.fresh a ha
    · obtain rfl := List.mem_singleton.mp ha
      exact Nat.lt_succ_self n
  · show ((s.pending ++ [(⟨n, s.generation⟩ : Admission)]).map Admission.id).Nodup
    rw [List.map_append, List.nodup_append]
    refine ⟨hs.distinct, List.nodup_singleton _, fun id hid id' hid' => ?_⟩
    obtain ⟨a, ha, rfl⟩ := List.mem_map.mp hid
    obtain rfl := List.mem_singleton.mp hid'
    exact (hs.fresh a ha).ne
  · rcases List.mem_append.mp ha with ha | ha
    · exact hs.apart a ha c hc
    · obtain rfl := List.mem_singleton.mp ha
      exact (hs.below c hc).ne

theorem closeConnection_same (id : ConnectionId) (c : HeldConnection) :
    (closeConnection id c).id = c.id ∧ (closeConnection id c).child = c.child := by
  unfold closeConnection
  split_ifs
  · exact ⟨rfl, rfl⟩
  · exact ⟨rfl, rfl⟩

theorem map_id_closeConnection (id : ConnectionId) (connections : List HeldConnection) :
    (connections.map (closeConnection id)).map HeldConnection.id =
      connections.map HeldConnection.id := by
  rw [List.map_map]
  exact List.map_congr_left fun c _ => (closeConnection_same id c).1

theorem Precise.closing (hs : s.Precise n) (id : ConnectionId) :
    Precise n { s with connections := s.connections.map (closeConnection id) } := by
  have hback : ∀ d ∈ s.connections.map (closeConnection id), ∃ c ∈ s.connections,
      d.id = c.id ∧ d.child = c.child ∧ (d.isOpen = true → c.isOpen = true) := by
    intro d hd
    obtain ⟨c, hc, rfl⟩ := List.mem_map.mp hd
    obtain ⟨hid, hchild⟩ := closeConnection_same id c
    exact ⟨c, hc, hid, hchild, fun hopen => (closeConnection_open hopen).1 ▸ hopen⟩
  refine ⟨hs.fresh, fun d hd => ?_, hs.distinct, fun a ha d hd => ?_, ?_,
    fun child hchild d hd hmem hopen => ?_,
    fun child ids hphase => ⟨?_, fun d hd hmem hopen => ?_⟩, hs.log⟩
  · obtain ⟨c, hc, hid, _, _⟩ := hback d hd
    rw [hid]
    exact hs.below c hc
  · obtain ⟨c, hc, hid, _, _⟩ := hback d hd
    rw [hid]
    exact hs.apart a ha c hc
  · exact (map_id_closeConnection id s.connections).symm ▸ hs.owned
  · obtain ⟨c, hc, hid, heq, hwas⟩ := hback d hd
    rw [heq]
    exact hs.exiting child hchild c hc (hid ▸ hmem) (hwas hopen)
  · exact (map_id_closeConnection id s.connections).symm ▸ (hs.revoking child ids hphase).1
  · obtain ⟨c, hc, hid, heq, hwas⟩ := hback d hd
    rw [heq]
    exact (hs.revoking child ids hphase).2 c hc (hid ▸ hmem) (hwas hopen)

theorem Precise.watchRead (hs : s.Precise n) (hguard : s.Undisputed .watchRead)
    (h : s.step .watchRead = some t) : t.Precise n := by
  simp only [step] at h
  split_ifs at h with hfree
  split at h
  · rename_i pid child hlive hshown
    obtain rfl := Option.some.inj h
    have hnone : s.watch = none := by simpa [shown] using hshown
    refine ⟨hs.fresh, hs.below, hs.distinct, hs.apart, hs.owned, fun child' hchild => ?_,
      fun child ids hphase => (by cases hphase), hs.log⟩
    obtain rfl := Option.some.inj hchild
    exact hguard (pid, child) hlive hnone
  · obtain rfl := Option.some.inj h
    exact ⟨hs.fresh, hs.below, hs.distinct, hs.apart, hs.owned, hs.exiting, hs.revoking, hs.log⟩

theorem Precise.takeIds (hs : s.Precise n) (h : s.step .takeIds = some t) : t.Precise n := by
  simp only [step] at h
  split at h
  · rename_i pid child hphase
    obtain rfl := Option.some.inj h
    refine ⟨hs.fresh, hs.below, hs.distinct, hs.apart, List.nil_subset _,
      fun child hchild => (by cases hchild), fun child' ids hrevoking => ?_, hs.log⟩
    cases hrevoking
    exact ⟨hs.owned, hs.exiting child (by simp [exitingChild, hphase])⟩
  · cases h

theorem Precise.revokeNext (hs : s.Precise n) (h : s.step .revokeNext = some t) :
    t.Precise n := by
  simp only [step] at h
  split at h
  · obtain rfl := Option.some.inj h
    exact ⟨hs.fresh, hs.below, hs.distinct, hs.apart, hs.owned,
      fun child hchild => (by cases hchild), fun child ids hphase => (by cases hphase), hs.log⟩
  · rename_i child id ids hphase
    obtain rfl := Option.some.inj h
    have hclosed := hs.closing id
    obtain ⟨hsub, hold⟩ := hclosed.revoking child (id :: ids) hphase
    refine ⟨hclosed.fresh, hclosed.below, hclosed.distinct, hclosed.apart, hclosed.owned,
      fun child hchild => (by cases hchild), fun child' ids' hrevoking => ?_,
      fun entry hentry => ?_⟩
    · cases hrevoking
      exact ⟨fun id' hid' => hsub (List.mem_cons_of_mem _ hid'),
        fun c hc hmem => hold c hc (List.mem_cons_of_mem _ hmem)⟩
    · rcases List.mem_append.mp hentry with hentry | hentry
      · exact hs.log entry hentry
      · obtain ⟨c, hc, rfl⟩ := List.mem_map.mp hentry
        obtain ⟨hmem, hid⟩ := List.mem_filter.mp hc
        obtain ⟨rfl, hopen⟩ := of_decide_eq_true hid
        exact (hs.revoking child _ hphase).2 c hmem List.mem_cons_self hopen
  · cases h

theorem Precise.drop (hs : s.Precise n) (k : ℕ) :
    Precise n { s with pending := s.pending.eraseIdx k } := by
  have hsub : (s.pending.eraseIdx k).Sublist s.pending := List.eraseIdx_sublist _ _
  exact ⟨fun a ha => hs.fresh a (hsub.subset ha), hs.below,
    hs.distinct.sublist (hsub.map Admission.id), fun a ha => hs.apart a (hsub.subset ha),
    hs.owned, hs.exiting, hs.revoking, hs.log⟩

theorem mem_of_mem_remember {ids : List ConnectionId} {id new : ConnectionId} {cap : ℕ}
    (h : id ∈ (remember ids new cap).1) : id ∈ ids ∨ id = new := by
  unfold remember at h
  split_ifs at h
  · exact Or.inl h
  · rcases List.mem_append.mp h with h | h
    · exact Or.inl (List.mem_of_mem_tail h)
    · exact Or.inr (List.mem_singleton.mp h)
  · rcases List.mem_append.mp h with h | h
    · exact Or.inl h
    · exact Or.inr (List.mem_singleton.mp h)

theorem Precise.record (hs : s.Precise n) {k : ℕ} (hguard : s.Undisputed (.record k))
    (h : s.step (.record k) = some t) : t.Precise n := by
  obtain ⟨a, ha, rfl⟩ := Option.map_eq_some_iff.mp h
  have hmem : a ∈ s.pending := List.mem_of_getElem? ha
  have hdrop := hs.drop k
  -- the new id is nobody else's, so no old connection is taken for the new one
  have hnew : ∀ b ∈ s.pending.eraseIdx k, a.id ≠ b.id := by
    intro b hb heq
    obtain ⟨j, hjk, hj⟩ := List.mem_eraseIdx_iff_getElem?.mp hb
    have hj' : (s.pending.map Admission.id)[j]? = some a.id := by simp [hj, heq]
    have hk' : (s.pending.map Admission.id)[k]? = some a.id := by simp [ha]
    have hlt : j < (s.pending.map Admission.id).length := (List.getElem?_eq_some_iff.mp hj').1
    exact hjk ((List.getElem?_inj hlt hs.distinct).mp (hj'.trans hk'.symm))
  refine ⟨hdrop.fresh, fun c hc => ?_, hdrop.distinct, fun b hb c hc => ?_, fun id hid => ?_,
    fun child hchild c hc hrec hopen => ?_,
    fun child ids hphase => ⟨fun id hid => ?_, fun c hc hin hopen => ?_⟩, hs.log⟩
  · rcases List.mem_append.mp hc with hc | hc
    · exact hs.below c hc
    · obtain rfl := List.mem_singleton.mp hc
      exact hs.fresh a hmem
  · rcases List.mem_append.mp hc with hc | hc
    · exact hdrop.apart b hb c hc
    · obtain rfl := List.mem_singleton.mp hc
      exact hnew b hb
  · show id ∈ (s.connections ++ [(⟨a.id, a.child, true⟩ : HeldConnection)]).map HeldConnection.id
    rw [List.map_append]
    rcases mem_of_mem_remember hid with hid | rfl
    · exact List.mem_append_left _ (hs.owned hid)
    · exact List.mem_append_right _ (List.mem_singleton.mpr rfl)
  · rcases List.mem_append.mp hc with hc | hc
    · rcases mem_of_mem_remember hrec with hrec | heq
      · exact hs.exiting child hchild c hc hrec hopen
      · exact absurd heq (hs.apart a hmem c hc)
    · obtain rfl := List.mem_singleton.mp hc
      exact hguard a ha child hchild
  · show id ∈ (s.connections ++ [(⟨a.id, a.child, true⟩ : HeldConnection)]).map HeldConnection.id
    rw [List.map_append]
    exact List.mem_append_left _ ((hs.revoking child ids hphase).1 hid)
  · rcases List.mem_append.mp hc with hc | hc
    · exact (hs.revoking child ids hphase).2 c hc hin hopen
    · obtain rfl := List.mem_singleton.mp hc
      obtain ⟨d, hd, heq⟩ := List.mem_map.mp ((hs.revoking child ids hphase).1 hin)
      exact absurd heq (hs.apart a hmem d hd)

theorem Precise.step (hs : s.Precise n) {a : SlotAction} (hguard : s.Undisputed a)
    (h : s.step a = some t) : t.Precise n := by
  have hframe : ∀ {t : Slot}, t.pending = s.pending → t.connections = s.connections →
      t.recorded = s.recorded → t.phase = s.phase → t.revoked = s.revoked → t.Precise n := by
    intro t hpending hconnections hrecorded hphase hrevoked
    obtain ⟨hfresh, hbelow, hdistinct, hapart, howned, hexiting, hrevoking, hlog⟩ := hs
    refine ⟨?_, ?_, ?_, ?_, ?_, ?_, ?_, ?_⟩ <;>
      simp only [exitingChild, hpending, hconnections, hrecorded, hphase, hrevoked] <;> assumption
  cases a with
  | publish pid =>
    simp only [Slot.step] at h
    split_ifs at h
    obtain rfl := Option.some.inj h
    exact hframe rfl rfl rfl rfl rfl
  | clear =>
    obtain rfl := Option.some.inj h
    exact hframe rfl rfl rfl rfl rfl
  | watchStart =>
    simp only [Slot.step] at h
    split_ifs at h
    obtain rfl := Option.some.inj h
    exact hframe rfl rfl rfl rfl rfl
  | watchRead => exact hs.watchRead hguard h
  | takeIds => exact hs.takeIds h
  | revokeNext => exact hs.revokeNext h
  | record k => exact hs.record hguard h
  | abandon k =>
    obtain rfl := Option.some.inj h
    exact hs.drop k
  | close id =>
    obtain rfl := Option.some.inj h
    exact hs.closing id

end Slot

namespace Registry

variable {enginePid : Pid} {s t : Registry}

theorem precise_step {a : RegistryAction} (hs : ∀ slot ∈ s.slots, slot.Precise s.nextId)
    (hguard : s.Guarded Slot.Undisputed a) (h : s.step enginePid a = some t) :
    ∀ slot ∈ t.slots, slot.Precise t.nextId :=
  each_step (P := Slot.Precise) (fun _ _ _ _ hs hguard h => hs.step hguard h)
    (fun _ _ hs => hs.next) (fun _ _ hs => hs.admission) hs hguard h

/-- The revocation for the exit of a child closes no connection of a later one. -/
theorem run_revocation_precise {names : List String} {as : List RegistryAction}
    (hguard : Obeys (step enginePid) (Guarded Slot.Undisputed) (start names) as)
    (hrun : run (step enginePid) (start names) as = some t) :
    ∀ slot ∈ t.slots, ∀ child c, (child, c) ∈ slot.revoked → c.child ≤ child := by
  have hprecise : ∀ slot ∈ t.slots, slot.Precise t.nextId :=
    run_invariant_of_obeys (I := fun s => ∀ slot ∈ s.slots, slot.Precise s.nextId)
      (fun _ _ _ hs hguard h => precise_step hs hguard h)
      (each_start Slot.precise_start names) hguard hrun
  intro slot hslot child c hc
  exact (hprecise slot hslot).log (child, c) hc

theorem run_revocation_precise_timer :
    ∃ t, run (step 1) (start ["timer"]) restartInOrder = some t ∧
      (∀ slot ∈ t.slots, ∀ child c, (child, c) ∈ slot.revoked → c.child ≤ child) ∧
      ∃ slot ∈ t.slots, (1, ⟨0, 1, true⟩) ∈ slot.revoked := by
  have hguard : Obeys (step 1) (Guarded Slot.Undisputed) (start ["timer"]) restartInOrder := by
    decide
  exact ⟨_, rfl, run_revocation_precise hguard rfl, by decide⟩

/-- The task has read the exit of 100 when the child 101 is published, resolved
and recorded: the ids it then takes are those of 101. -/
def replacementBeforeTaking : List RegistryAction :=
  [.slot 0 .watchStart, .slot 0 (.publish 100), .slot 0 .watchRead,
    .slot 0 .clear, .slot 0 .watchRead, .slot 0 (.publish 101),
    .resolve (some 101) (fun _ => none), .slot 0 (.record 0),
    .slot 0 .takeIds, .slot 0 .revokeNext]

/-- The child 101 comes and goes before the task reads the exit of 100. -/
def replacementUnread : List RegistryAction :=
  [.slot 0 .watchStart, .slot 0 (.publish 100), .slot 0 .watchRead,
    .slot 0 .clear, .slot 0 (.publish 101), .resolve (some 101) (fun _ => none),
    .slot 0 (.record 0), .slot 0 .clear, .slot 0 .watchRead, .slot 0 .takeIds,
    .slot 0 .revokeNext]

/-- In the run the revocation for the exit of the first child closes the
connection of the second. -/
def RevokesReplacement (as : List RegistryAction) : Prop :=
  ∃ t, run (step 1) (start ["timer"]) as = some t ∧
    ∃ slot ∈ t.slots, (1, ⟨0, 2, true⟩) ∈ slot.revoked

theorem replacement_revoked :
    RevokesReplacement replacementBeforeTaking ∧ RevokesReplacement replacementUnread := by
  constructor
  · exact ⟨_, rfl, by decide⟩
  · exact ⟨_, rfl, by decide⟩

end Registry

end Emergent.Engine

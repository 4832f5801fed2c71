import Emergent.Engine.Preflight
import Emergent.Kit.KeySort
import Mathlib.Data.Prod.Lex
import Mathlib.Data.String.Basic

/-!
# The topology answer (`topology.rs`, `primitives.rs`, `process_manager.rs`)

The process manager keeps one entry for each registered primitive in a hash map,
so a read lists them in any order. `buildTopologyPayload` sorts what it is given
and puts the engine's own row in front, under a name of its own.
-/

namespace Emergent.Engine.TopologyPayload
open Preflight Kit

/-! ### The primitives the manager knows -/

/-- All the states of the type; an actor's own transitions reach all but the last. -/
inductive PrimitiveState where
  | configured
  | starting
  | running
  | stopping
  | stopped
  | failed
  | external
  deriving Repr, DecidableEq

def PrimitiveState.display : PrimitiveState → String
  | .configured => "Configured"
  | .starting => "Starting"
  | .running => "Running"
  | .stopping => "Stopping"
  | .stopped => "Stopped"
  | .failed => "Failed"
  | .external => "External"

def displayKind : PrimitiveKind → String
  | .source => "Source"
  | .handler => "Handler"
  | .sink => "Sink"

structure PrimitiveInfo where
  name : String
  kind : PrimitiveKind
  state : PrimitiveState
  publishes : List String
  subscribes : List String
  pid : Option Pid
  error : Option String
  deriving Repr, DecidableEq

namespace PrimitiveInfo

def source (name : String) (publishes : List String) : PrimitiveInfo :=
  ⟨name, .source, .configured, publishes, [], none, none⟩

def handler (name : String) (subscribes publishes : List String) : PrimitiveInfo :=
  ⟨name, .handler, .configured, publishes, subscribes, none, none⟩

def sink (name : String) (subscribes : List String) : PrimitiveInfo :=
  ⟨name, .sink, .configured, [], subscribes, none, none⟩

end PrimitiveInfo

/-- The values of the manager's map, in no particular order. -/
abbrev Actors := List PrimitiveInfo

/-- `register_primitive`, up to the spawn of the actor. -/
def registerPrimitive (actors : Actors) (info : PrimitiveInfo) : Except String Actors :=
  if actors.any fun a => a.name = info.name then
    .error s!"Primitive already exists: {info.name}"
  else .ok (actors ++ [info])

def registerSource (actors : Actors) (config : PrimitiveConfig) : Except String Actors :=
  registerPrimitive actors (.source config.name config.publishes)

def registerHandler (actors : Actors) (config : PrimitiveConfig) : Except String Actors :=
  registerPrimitive actors (.handler config.name config.subscribes config.publishes)

def registerSink (actors : Actors) (config : PrimitiveConfig) : Except String Actors :=
  registerPrimitive actors (.sink config.name config.subscribes)

/-- `start_all`, without its waits, on the enabled primitives of a configuration. -/
def startAll (config : Preflight.EmergentConfig) : Except String Actors := do
  let sinks ← (config.sinks.filter PrimitiveConfig.enabled).foldlM registerSink []
  let handlers ← (config.handlers.filter PrimitiveConfig.enabled).foldlM registerHandler sinks
  (config.sources.filter PrimitiveConfig.enabled).foldlM registerSource handlers

/-- What an actor publishes of its primitive. -/
structure LiveStatus where
  state : PrimitiveState
  pid : Option Pid
  error : Option String
  deriving Repr, DecidableEq

/-- The actor is the only writer of these three fields. -/
def PrimitiveInfo.live (status : String → LiveStatus) (info : PrimitiveInfo) : PrimitiveInfo :=
  { info with
    state := (status info.name).state
    pid := (status info.name).pid
    error := (status info.name).error }

/-! ### The payload -/

structure TopologyPrimitive where
  name : String
  kind : String
  state : String
  publishes : List String
  subscribes : List String
  pid : Option Pid
  error : Option String
  deriving Repr, DecidableEq

structure TopologyResponsePayload where
  primitives : List TopologyPrimitive
  deriving Repr, DecidableEq

def enginePrimitive (enginePid : Pid) : TopologyPrimitive where
  name := enginePrimitiveName
  kind := "source"
  state := "running"
  publishes := ["system.started.*", "system.stopped.*", "system.error.*", "system.shutdown"]
  subscribes := []
  pid := some enginePid
  error := none

def kindRank : PrimitiveKind → ℕ
  | .source => 0
  | .handler => 1
  | .sink => 2

/-- `to_lowercase`, of an ASCII word. -/
def toLowercase (s : String) : String := String.ofList (s.toList.map Char.toLower)

/-- The comparison of `sort_by`: the rank of the kind, then the name. -/
def sortKey (p : PrimitiveInfo) : ℕ ×ₗ String := toLex (kindRank p.kind, p.name)

def PrimitiveInfo.row (p : PrimitiveInfo) : TopologyPrimitive where
  name := p.name
  kind := toLowercase (displayKind p.kind)
  state := toLowercase p.state.display
  publishes := p.publishes
  subscribes := p.subscribes
  pid := p.pid
  error := p.error

def buildTopologyPayload (enginePid : Pid) (primitives : List PrimitiveInfo) :
    TopologyResponsePayload where
  primitives := enginePrimitive enginePid :: (sortOn sortKey primitives).map PrimitiveInfo.row

/-! ### What is registered -/

def sourceInfo (p : PrimitiveConfig) : PrimitiveInfo := .source p.name p.publishes

def handlerInfo (p : PrimitiveConfig) : PrimitiveInfo := .handler p.name p.subscribes p.publishes

def sinkInfo (p : PrimitiveConfig) : PrimitiveInfo := .sink p.name p.subscribes

def enabledNames (primitives : List PrimitiveConfig) : List String :=
  (primitives.filter PrimitiveConfig.enabled).map PrimitiveConfig.name

def tier (make : PrimitiveConfig → PrimitiveInfo) (primitives : List PrimitiveConfig) : Actors :=
  (primitives.filter PrimitiveConfig.enabled).map make

/-- One entry for each enabled primitive, in the order of their start. -/
def registered (config : Preflight.EmergentConfig) : Actors :=
  tier sinkInfo config.sinks ++ tier handlerInfo config.handlers ++ tier sourceInfo config.sources

theorem tier_names (make : PrimitiveConfig → PrimitiveInfo) (hmake : ∀ p, (make p).name = p.name)
    (primitives : List PrimitiveConfig) :
    (tier make primitives).map PrimitiveInfo.name = enabledNames primitives := by
  unfold tier enabledNames
  rw [List.map_map]
  exact List.map_congr_left fun p _ => hmake p

theorem registerPrimitive_fresh {actors : Actors} {info : PrimitiveInfo}
    (h : info.name ∉ actors.map PrimitiveInfo.name) :
    registerPrimitive actors info = .ok (actors ++ [info]) := by
  have hfresh : ¬ actors.any (fun a => a.name = info.name) = true := by
    intro hany
    obtain ⟨a, ha, hsame⟩ := List.any_eq_true.mp hany
    exact h (List.mem_map.mpr ⟨a, ha, of_decide_eq_true hsame⟩)
  exact if_neg hfresh

/-- Primitives of distinct new names are registered one and all. -/
theorem register_all {make : PrimitiveConfig → PrimitiveInfo} (hmake : ∀ p, (make p).name = p.name)
    (primitives : List PrimitiveConfig) (actors : Actors)
    (h : (actors.map PrimitiveInfo.name ++ primitives.map PrimitiveConfig.name).Nodup) :
    primitives.foldlM (fun actors p => registerPrimitive actors (make p)) actors =
      .ok (actors ++ primitives.map make) := by
  induction primitives generalizing actors with
  | nil => simp [pure, Except.pure]
  | cons p primitives ih =>
    have hfresh : (make p).name ∉ actors.map PrimitiveInfo.name := by
      intro hmem
      rw [hmake] at hmem
      exact (List.nodup_append.mp h).2.2 p.name hmem p.name List.mem_cons_self rfl
    have hnext : ((actors ++ [make p]).map PrimitiveInfo.name ++
        primitives.map PrimitiveConfig.name).Nodup := by
      simpa [hmake] using h
    rw [List.foldlM_cons, registerPrimitive_fresh hfresh]
    show primitives.foldlM (fun actors p => registerPrimitive actors (make p))
      (actors ++ [make p]) = _
    rw [ih _ hnext, List.map_cons, List.append_assoc]
    rfl

theorem registered_names (config : Preflight.EmergentConfig) :
    (registered config).map PrimitiveInfo.name =
      enabledNames config.sinks ++ enabledNames config.handlers ++ enabledNames config.sources := by
  simp only [registered, List.map_append, tier_names sinkInfo fun _ => rfl,
    tier_names handlerInfo fun _ => rfl, tier_names sourceInfo fun _ => rfl]

theorem registered_names_perm (config : Preflight.EmergentConfig) :
    ((registered config).map PrimitiveInfo.name).Perm (enabledNames config.primitives) := by
  have hnames : enabledNames config.primitives = enabledNames config.sources ++
      (enabledNames config.handlers ++ enabledNames config.sinks) := by
    simp only [enabledNames, Preflight.EmergentConfig.primitives, List.filter_append,
      List.map_append]
  rw [registered_names, hnames]
  exact List.perm_append_comm.trans (List.Perm.append_left _ List.perm_append_comm)

theorem startAll_eq {config : Preflight.EmergentConfig}
    (h : ((registered config).map PrimitiveInfo.name).Nodup) :
    startAll config = .ok (registered config) := by
  rw [registered_names] at h
  have htwo := (List.nodup_append.mp h).1
  have hsinks : (config.sinks.filter PrimitiveConfig.enabled).foldlM registerSink [] =
      .ok (tier sinkInfo config.sinks) :=
    register_all (fun _ => rfl) _ [] (List.nodup_append.mp htwo).1
  have hhandlers : (config.handlers.filter PrimitiveConfig.enabled).foldlM registerHandler
      (tier sinkInfo config.sinks) =
        .ok (tier sinkInfo config.sinks ++ tier handlerInfo config.handlers) := by
    refine register_all (fun _ => rfl) _ _ ?_
    rw [tier_names sinkInfo fun _ => rfl]
    exact htwo
  have hsources : (config.sources.filter PrimitiveConfig.enabled).foldlM registerSource
      (tier sinkInfo config.sinks ++ tier handlerInfo config.handlers) =
        .ok (registered config) := by
    refine register_all (fun _ => rfl) _ _ ?_
    rw [List.map_append, tier_names sinkInfo fun _ => rfl, tier_names handlerInfo fun _ => rfl]
    exact h
  simp only [startAll, hsinks, hhandlers, hsources, bind, Except.bind]

/-! ### The answer -/

variable {enginePid : Pid} {infos listed : List PrimitiveInfo}

/-- The engine's row first, then a row for each primitive, by kind and name; and a name
finds its row. -/
structure Answers (enginePid : Pid) (infos : List PrimitiveInfo)
    (payload : TopologyResponsePayload) : Prop where
  rows : ∃ sorted : List PrimitiveInfo, sorted.Perm infos ∧
    (sorted.Pairwise fun a b => sortKey a < sortKey b) ∧
      payload.primitives = enginePrimitive enginePid :: sorted.map PrimitiveInfo.row
  names : (payload.primitives.map TopologyPrimitive.name).Nodup

theorem sortKey_nodup (h : (infos.map PrimitiveInfo.name).Nodup) : (infos.map sortKey).Nodup := by
  refine List.Nodup.of_map (fun key => (ofLex key).2) ?_
  rw [List.map_map]
  exact h

theorem buildTopologyPayload_congr (h : listed.Perm infos)
    (hnames : (infos.map PrimitiveInfo.name).Nodup) :
    buildTopologyPayload enginePid listed = buildTopologyPayload enginePid infos := by
  unfold buildTopologyPayload
  rw [sortOn_congr h (sortKey_nodup hnames)]

theorem buildTopologyPayload_names (enginePid : Pid) (infos : List PrimitiveInfo) :
    ((buildTopologyPayload enginePid infos).primitives.map TopologyPrimitive.name).Perm
      (enginePrimitiveName :: infos.map PrimitiveInfo.name) := by
  have hrows : ((sortOn sortKey infos).map PrimitiveInfo.row).map TopologyPrimitive.name =
      (sortOn sortKey infos).map PrimitiveInfo.name := by
    rw [List.map_map]
    rfl
  show (enginePrimitiveName :: _).Perm _
  rw [hrows]
  exact ((sortOn_perm sortKey infos).map PrimitiveInfo.name).cons _

theorem answers_iff (hnames : (infos.map PrimitiveInfo.name).Nodup) :
    Answers enginePid infos (buildTopologyPayload enginePid infos) ↔
      enginePrimitiveName ∉ infos.map PrimitiveInfo.name := by
  have hperm := buildTopologyPayload_names enginePid infos
  constructor
  · intro h
    exact (List.nodup_cons.mp (hperm.nodup_iff.mp h.names)).1
  · intro h
    refine ⟨⟨sortOn sortKey infos, sortOn_perm sortKey infos, ?_, rfl⟩, ?_⟩
    · exact sortOn_strict (sortKey_nodup hnames)
    · exact hperm.nodup_iff.mpr (List.nodup_cons.mpr ⟨h, hnames⟩)

theorem live_names (status : String → LiveStatus) (infos : List PrimitiveInfo) :
    (infos.map (PrimitiveInfo.live status)).map PrimitiveInfo.name =
      infos.map PrimitiveInfo.name := by
  rw [List.map_map]
  rfl

/-- Every accepted configuration is registered whole, and any listing of its primitives
gives one and the same answer; the answer holds a name twice when an enabled primitive
has the engine's. -/
theorem topology_canonical_iff {config : Preflight.EmergentConfig} {machine : Machine}
    (h : config.issues machine = []) (status : String → LiveStatus) (enginePid : Pid) :
    ∃ actors, startAll config = .ok actors ∧
      (actors.map PrimitiveInfo.name).Perm (enabledNames config.primitives) ∧
      ((∃ payload, Answers enginePid (actors.map (PrimitiveInfo.live status)) payload ∧
          ∀ listed, listed.Perm (actors.map (PrimitiveInfo.live status)) →
            buildTopologyPayload enginePid listed = payload) ↔
        enginePrimitiveName ∉ enabledNames config.primitives) := by
  have hperm := registered_names_perm config
  have henabled : (enabledNames config.primitives).Nodup :=
    (issues_names h).sublist (List.filter_sublist.map PrimitiveConfig.name)
  have hnodup := hperm.nodup_iff.mpr henabled
  refine ⟨registered config, startAll_eq hnodup, hperm, ?_⟩
  rw [← hperm.mem_iff, ← live_names status]
  rw [← live_names status] at hnodup
  constructor
  · rintro ⟨payload, hanswers, hsame⟩
    rw [← hsame _ (List.Perm.refl _)] at hanswers
    exact (answers_iff hnodup).mp hanswers
  · intro hfree
    exact ⟨_, (answers_iff hnodup).mpr hfree, fun listed hlisted =>
      buildTopologyPayload_congr hlisted hnodup⟩

def running (pid : Pid) : LiveStatus := ⟨.running, some pid, none⟩

theorem topology_canonical_timer : ∃ actors, startAll timerConfig = .ok actors ∧
    ∃ payload, Answers 1 (actors.map (PrimitiveInfo.live fun _ => running 7)) payload ∧
      ∀ listed, listed.Perm (actors.map (PrimitiveInfo.live fun _ => running 7)) →
        buildTopologyPayload 1 listed = payload := by
  obtain ⟨actors, hstart, _, hiff⟩ :=
    topology_canonical_iff (show timerConfig.issues timerMachine = [] by decide)
      (fun _ => running 7) 1
  exact ⟨actors, hstart, hiff.mpr (by decide)⟩

/-- A source under the name the engine reports itself under. -/
def namesakeConfig : Preflight.EmergentConfig where
  wireFormat := none
  apiAllowedHosts := []
  sources := [⟨"emergent-engine", "/usr/bin/timer", true, "never", [], ["timer.tick"]⟩]
  handlers := []
  sinks := []

theorem namesake_twice :
    namesakeConfig.issues timerMachine = [] ∧
      startAll namesakeConfig = .ok [.source "emergent-engine" ["timer.tick"]] ∧
      (buildTopologyPayload 1
          ([.source "emergent-engine" ["timer.tick"]].map
            (PrimitiveInfo.live fun _ => running 7))).primitives.map TopologyPrimitive.name =
        ["emergent-engine", "emergent-engine"] := by
  decide

end Emergent.Engine.TopologyPayload

import Emergent.Engine.LoadIssues

/-!
# Validating a configuration (`main.rs`, `preflight.rs`)

`emergent validate` reads a configuration file, runs the checks of startup and lists
what they find; startup refuses on the first of it. So the two agree on every file,
whatever socket the engine is told to listen on.
-/

namespace Emergent.Engine.Preflight
open Emergent.Sdk Kit Kit.Text

/-! ### Reading the file -/

structure IpcConfig where
  readTimeout : ℕ
  socketPath : Option String
  maxConnections : ℕ
  deriving Repr, DecidableEq

/-- What the two commands read of a configuration file. -/
structure ConfigFile where
  name : String
  socketPath : String
  maxConnections : Option ℕ
  config : EmergentConfig
  deriving Repr, DecidableEq

/-- The machine the engine runs on: `IpcConfig::load`, the directories, the files,
`EmergentConfig::parse_unchecked` and the parsers of third parties. -/
structure Host where
  ipc : IpcConfig
  runtimeDir : Option String
  configDir : Option String
  present : String → Bool
  readToString : String → Except String String
  parseUnchecked : String → Except TomlError ConfigFile
  readDocument : String → Option Table
  urlHost : String → Option String

def initHint : String :=
  "To get started, create a config file:\n  emergent init\n  " ++
    "emergent --config path/to/emergent.toml"

section
variable (host : Host)

def resolveConfigPath (path : Option String) : Except String String :=
  match path with
  | some path =>
    if host.present path then .ok path
    else .error (s!"Configuration file not found: {path}\n\n" ++ initHint)
  | none =>
    if host.present "emergent.toml" then .ok "emergent.toml"
    else match host.configDir with
      | some dir =>
        let xdgConfig := dir ++ "/emergent.toml"
        if host.present xdgConfig then .ok xdgConfig
        else .error ("No configuration file found.\n\nSearched:\n  ./emergent.toml\n  " ++
          xdgConfig ++ "\n\n" ++ initHint)
      | none =>
        .error ("No configuration file found.\n\nSearched:\n  ./emergent.toml\n\n" ++ initHint)

def readFile (path : String) : Except ConfigError ConfigFile :=
  match host.readToString path with
  | .error message => .error (.readError message)
  | .ok text =>
    match host.parseUnchecked text with
    | .error e => .error (.parseError e)
    | .ok file => .ok file

def applyEngineIpcOverrides (ipc : IpcConfig) (socketPath : Option String)
    (maxConnections : Option ℕ) : IpcConfig where
  readTimeout := 0
  socketPath := socketPath.or ipc.socketPath
  maxConnections := maxConnections.getD ipc.maxConnections

def ipcConfig (socketPath : Option String) (maxConnections : Option ℕ) : IpcConfig :=
  applyEngineIpcOverrides host.ipc socketPath maxConnections

def effectiveMaxConnections (file : ConfigFile) : ℕ :=
  (ipcConfig host none file.maxConnections).maxConnections

/-- `EmergentConfig::socket_path` -/
def ConfigFile.socket (file : ConfigFile) : String :=
  if file.socketPath = "auto" then
    match host.runtimeDir with
    | some dir => s!"{dir}/{file.name}.sock"
    | none => s!"/tmp/{file.name}.sock"
  else file.socketPath

def checks (skipPaths : Bool) : Machine where
  urlHost := host.urlHost
  pathExists := if skipPaths then none else some host.present

/-! ### The two commands -/

structure ValidationReport where
  ok : Bool
  errors : List ConfigIssue
  warnings : List ConfigIssue
  deriving Repr, DecidableEq

def ValidationReport.fromFindings (findings : Findings) : ValidationReport :=
  ⟨findings.isOk, findings.errors, findings.warnings⟩

def ValidationReport.failed (issue : ConfigIssue) : ValidationReport := .fromFindings ⟨[issue], []⟩

def ValidationReport.exitCode (report : ValidationReport) : ℕ := if report.ok then 0 else 1

def runValidate (path : Option String) (skipPaths : Bool) : String × ValidationReport :=
  match resolveConfigPath host path with
  | .error message => ("emergent.toml", .failed ⟨.configNotFound, message, none⟩)
  | .ok path =>
    match host.readToString path with
    | .error message => (path, .failed (loadIssue host.readDocument (.readError message) none))
    | .ok text =>
      match host.parseUnchecked text with
      | .error e => (path, .failed (loadIssue host.readDocument (.parseError e) (some text)))
      | .ok file =>
        (path, .fromFindings
          (preflight file.config (effectiveMaxConnections host file) (checks host skipPaths)))

/-- Why the engine does not come as far as to create anything. -/
inductive StartError where
  | configNotFound (message : String)
  | notLoaded (path : String) (error : ConfigError)
  | refused (path : String) (issue : ConfigIssue) (more : ℕ)
  deriving Repr, DecidableEq

/-- How many problems there are, as far as the engine knows. -/
def StartError.problems : StartError → ℕ
  | .configNotFound _ | .notLoaded _ _ => 1
  | .refused _ _ more => more + 1

/-- `refuse_on_errors` over `Findings::into_result` -/
def refuseOnErrors (findings : Findings) (path : String) : Except StartError (List ConfigIssue) :=
  match findings.errors with
  | issue :: more => .error (.refused path issue more.length)
  | [] => .ok findings.warnings

/-- `main`, up to the warnings it logs; `socket` is the one of the command line. -/
def start (path : Option String) (socket : Option String) :
    Except StartError (List ConfigIssue) :=
  match resolveConfigPath host path with
  | .error message => .error (.configNotFound message)
  | .ok path =>
    match readFile host path with
    | .error e => .error (.notLoaded path e)
    | .ok file =>
      let file := { file with socketPath := socket.getD file.socketPath }
      let ipc := ipcConfig host (some (file.socket host)) file.maxConnections
      refuseOnErrors (preflight file.config ipc.maxConnections (checks host false)) path

end

/-! ### What the checks ask for -/

/-- A configuration without a fault of its own, on this machine. -/
structure Sound (config : EmergentConfig) (machine : Machine) : Prop where
  names : ∀ p ∈ config.primitives, ∃ name, PrimitiveName.new p.name = .ok name
  distinct : (config.primitives.map PrimitiveConfig.name).Nodup
  restarts : ∀ p ∈ config.primitives, ∃ policy, parseRestartPolicy p.restart = some policy
  topics : ∀ topic ∈ config.subscribers.topics, ∃ kind, classifyTopic topic = .ok kind
  hosts : ∀ value ∈ config.apiAllowedHosts, ∃ host,
    ApiHost.parseAllowedHost machine.urlHost value = .ok host
  paths : ∀ pathExists ∈ machine.pathExists, ∀ p ∈ config.primitives, p.enabled = true →
    pathExists p.path = true

/-- A configuration the engine runs on this machine, under this connection limit. -/
structure WellFormed (config : EmergentConfig) (maxConnections : ℕ) (machine : Machine) : Prop
    extends Sound config machine where
  capacity : requiredIpcConnections config.enabledPrimitiveCount ≤ maxConnections

theorem forall_located {config : EmergentConfig} {P : PrimitiveConfig → Prop} :
    (∀ entry ∈ config.locatedPrimitives, P entry.2) ↔ ∀ p ∈ config.primitives, P p := by
  rw [← map_locatedPrimitives, List.forall_mem_map]

theorem forall_zipIdx {α : Type} {l : List α} {P : α → Prop} :
    (∀ entry ∈ l.zipIdx, P entry.1) ↔ ∀ a ∈ l, P a := by
  conv_rhs => rw [← List.zipIdx_map_fst 0 l, List.forall_mem_map]

theorem nameIssue_eq_none {entry : String × PrimitiveConfig} :
    nameIssue entry = none ↔ ∃ name, PrimitiveName.new entry.2.name = .ok name := by
  unfold nameIssue validatePrimitiveName
  cases PrimitiveName.new entry.2.name <;> simp

theorem duplicateNameIssues_eq_nil {names : List String}
    {primitives : List (String × PrimitiveConfig)} :
    duplicateNameIssues names primitives = [] ↔
      (∀ entry ∈ primitives, entry.2.name ∉ names) ∧
        (primitives.map fun entry => entry.2.name).Nodup := by
  refine ⟨duplicateNameIssues_nil, ?_⟩
  induction primitives generalizing names with
  | nil => exact fun _ => rfl
  | cons entry rest ih =>
    rintro ⟨hfresh, hnodup⟩
    rw [List.map_cons, List.nodup_cons] at hnodup
    have hentry : names.contains entry.2.name = false := by
      simpa using hfresh entry List.mem_cons_self
    rw [duplicateNameIssues, hentry]
    refine ih ⟨fun other hother hmem => ?_, hnodup.2⟩
    rcases List.mem_cons.mp hmem with hsame | hmem
    · exact hnodup.1 (List.mem_map.mpr ⟨other, hother, hsame⟩)
    · exact hfresh other (List.mem_cons_of_mem _ hother) hmem

theorem restartPolicyIssue_eq_none {entry : String × PrimitiveConfig} :
    restartPolicyIssue entry = none ↔
      ∃ policy, parseRestartPolicy entry.2.restart = some policy := by
  unfold restartPolicyIssue
  cases parseRestartPolicy entry.2.restart <;> simp

theorem topicIssues_eq_nil_iff {place name kind : String} {subscribes : List String} :
    topicIssues place name kind subscribes = [] ↔
      ∀ topic ∈ subscribes, ∃ k, classifyTopic topic = .ok k := by
  unfold topicIssues
  rw [List.filterMap_eq_nil_iff]
  exact (forall₂_congr fun entry _ => topicIssue_eq_none).trans
    (forall_zipIdx (P := fun topic => ∃ k, classifyTopic topic = .ok k))

theorem subscriptionTopicIssues_eq_nil {config : SubscriberConfigs} :
    config.subscriptionTopicIssues = [] ↔
      ∀ topic ∈ config.topics, ∃ kind, classifyTopic topic = .ok kind := by
  unfold SubscriberConfigs.subscriptionTopicIssues SubscriberConfigs.topics
  have heach : ∀ configs : List SubscriberConfig,
      (∀ entry ∈ configs.zipIdx, ∀ topic ∈ entry.1.subscribes,
        ∃ k, classifyTopic topic = .ok k) ↔
      ∀ c ∈ configs, ∀ topic ∈ c.subscribes, ∃ k, classifyTopic topic = .ok k :=
    fun configs => forall_zipIdx
      (P := fun c : SubscriberConfig => ∀ topic ∈ c.subscribes, ∃ k, classifyTopic topic = .ok k)
  simp only [List.append_eq_nil_iff, List.flatMap_eq_nil_iff, topicIssues_eq_nil_iff, heach,
    List.mem_flatMap, List.mem_append]
  constructor
  · rintro ⟨hhandlers, hsinks⟩ topic ⟨c, hc | hc, htopic⟩
    · exact hhandlers c hc topic htopic
    · exact hsinks c hc topic htopic
  · intro h
    exact ⟨fun c hc topic htopic => h topic ⟨c, Or.inl hc, htopic⟩,
      fun c hc topic htopic => h topic ⟨c, Or.inr hc, htopic⟩⟩

theorem allowedHostIssue_eq_none {urlHost : String → Option String} {entry : String × ℕ} :
    allowedHostIssue urlHost entry = none ↔
      ∃ host, ApiHost.parseAllowedHost urlHost entry.1 = .ok host := by
  unfold allowedHostIssue
  cases ApiHost.parseAllowedHost urlHost entry.1 <;> simp

theorem missingPathIssue_eq_none {pathExists : String → Bool}
    {entry : String × PrimitiveConfig} :
    missingPathIssue pathExists entry = none ↔
      (entry.2.enabled = true → pathExists entry.2.path = true) := by
  unfold missingPathIssue
  cases entry.2.enabled <;> simp

theorem connectionCapacityIssue_eq_none {enabledPrimitives maxConnections : ℕ} :
    connectionCapacityIssue enabledPrimitives maxConnections = none ↔
      requiredIpcConnections enabledPrimitives ≤ maxConnections := by
  unfold connectionCapacityIssue
  simp

/-- The paths are looked at last. -/
theorem issues_eq_append (config : EmergentConfig) (machine : Machine) :
    config.issues machine = config.issues { machine with pathExists := none } ++
      (machine.pathExists.elim [] fun pathExists =>
        config.locatedPrimitives.filterMap (missingPathIssue pathExists)) := by
  unfold EmergentConfig.issues
  cases machine.pathExists <;> simp

theorem issues_eq_nil {config : EmergentConfig} {machine : Machine} :
    config.issues machine = [] ↔ Sound config machine := by
  have hnames : nameIssues config.locatedPrimitives = [] ↔
      ∀ p ∈ config.primitives, ∃ name, PrimitiveName.new p.name = .ok name := by
    rw [nameIssues, List.filterMap_eq_nil_iff, ← forall_located]
    exact forall₂_congr fun entry _ => nameIssue_eq_none
  have hdistinct : duplicateNameIssues [] config.locatedPrimitives = [] ↔
      (config.primitives.map PrimitiveConfig.name).Nodup := by
    rw [duplicateNameIssues_eq_nil, ← map_locatedPrimitives, List.map_map]
    exact and_iff_right fun entry _ => List.not_mem_nil
  have hrestarts : config.locatedPrimitives.filterMap restartPolicyIssue = [] ↔
      ∀ p ∈ config.primitives, ∃ policy, parseRestartPolicy p.restart = some policy := by
    rw [List.filterMap_eq_nil_iff, ← forall_located]
    exact forall₂_congr fun entry _ => restartPolicyIssue_eq_none
  have hhosts : config.apiAllowedHosts.zipIdx.filterMap (allowedHostIssue machine.urlHost) = [] ↔
      ∀ value ∈ config.apiAllowedHosts, ∃ host,
        ApiHost.parseAllowedHost machine.urlHost value = .ok host := by
    rw [List.filterMap_eq_nil_iff]
    exact (forall₂_congr fun entry _ => allowedHostIssue_eq_none).trans
      (forall_zipIdx (P := fun value => ∃ host, ApiHost.parseAllowedHost _ value = .ok host))
  have hpaths : ∀ pathExists : String → Bool,
      config.locatedPrimitives.filterMap (missingPathIssue pathExists) = [] ↔
        ∀ p ∈ config.primitives, p.enabled = true → pathExists p.path = true := by
    intro pathExists
    rw [List.filterMap_eq_nil_iff, ← forall_located]
    exact forall₂_congr fun entry _ => missingPathIssue_eq_none
  have hpathsOf : (machine.pathExists.elim [] fun pathExists =>
        config.locatedPrimitives.filterMap (missingPathIssue pathExists)) = [] ↔
      ∀ pathExists ∈ machine.pathExists, ∀ p ∈ config.primitives,
        p.enabled = true → pathExists p.path = true := by
    cases machine.pathExists with
    | none => simp
    | some pathExists => simpa using hpaths pathExists
  rw [issues_eq_append, List.append_eq_nil_iff, hpathsOf]
  simp only [EmergentConfig.issues, List.append_nil, List.append_eq_nil_iff, hnames, hdistinct,
    hrestarts, subscriptionTopicIssues_eq_nil, hhosts]
  constructor
  · rintro ⟨⟨⟨⟨⟨hnames, hdistinct⟩, hrestarts⟩, htopics⟩, hhosts⟩, hpaths⟩
    exact ⟨hnames, hdistinct, hrestarts, htopics, hhosts, hpaths⟩
  · intro h
    exact ⟨⟨⟨⟨⟨h.names, h.distinct⟩, h.restarts⟩, h.topics⟩, h.hosts⟩, h.paths⟩

/-- The checks find nothing exactly in a well-formed configuration. -/
theorem preflight_isOk_iff {config : EmergentConfig} {maxConnections : ℕ} {machine : Machine} :
    (preflight config maxConnections machine).isOk = true ↔
      WellFormed config maxConnections machine := by
  rw [Findings.isOk, List.isEmpty_iff, preflight, List.append_eq_nil_iff, issues_eq_nil,
    Option.toList_eq_nil_iff, connectionCapacityIssue_eq_none]
  exact ⟨fun h => ⟨h.1, h.2⟩, fun h => ⟨h.toSound, h.capacity⟩⟩

/-! ### Issues of one kind -/

def without (code : IssueCode) (issues : List ConfigIssue) : List ConfigIssue :=
  issues.filter fun issue => issue.code ≠ code

theorem without_append (code : IssueCode) (first rest : List ConfigIssue) :
    without code (first ++ rest) = without code first ++ without code rest :=
  List.filter_append first rest

theorem without_eq_self {code : IssueCode} {issues : List ConfigIssue}
    (h : ∀ issue ∈ issues, issue.code ≠ code) : without code issues = issues :=
  List.filter_eq_self.mpr fun issue hissue => decide_eq_true (h issue hissue)

theorem without_eq_nil {code : IssueCode} {issues : List ConfigIssue}
    (h : ∀ issue ∈ issues, issue.code = code) : without code issues = [] :=
  List.filter_eq_nil_iff.mpr fun issue hissue => by simp [h issue hissue]

/-- What a check of the list `l` finds has the code of the check. -/
theorem code_of_filterMap {α : Type} {l : List α} {find : α → Option ConfigIssue}
    {code : IssueCode} (h : ∀ a issue, find a = some issue → issue.code = code) :
    ∀ issue ∈ l.filterMap find, issue.code = code := by
  intro issue hissue
  obtain ⟨a, _, ha⟩ := List.mem_filterMap.mp hissue
  exact h a issue ha

theorem code_of_duplicateNameIssues {names : List String}
    {primitives : List (String × PrimitiveConfig)} :
    ∀ issue ∈ duplicateNameIssues names primitives, issue.code = .duplicateName := by
  induction primitives generalizing names with
  | nil => exact fun issue hissue => absurd hissue List.not_mem_nil
  | cons entry rest ih =>
    intro issue hissue
    unfold duplicateNameIssues at hissue
    split_ifs at hissue with hused
    · rcases List.mem_cons.mp hissue with rfl | hrest
      · rfl
      · exact ih issue hrest
    · exact ih issue hissue

theorem code_of_subscriptionTopicIssues {config : SubscriberConfigs} :
    ∀ issue ∈ config.subscriptionTopicIssues, issue.code = .invalidSubscriptionTopic := by
  have hcode : ∀ place name kind subscribes, ∀ issue ∈ topicIssues place name kind subscribes,
      issue.code = .invalidSubscriptionTopic := by
    intro place name kind subscribes
    apply code_of_filterMap
    intro entry issue hissue
    unfold topicIssue at hissue
    split at hissue
    · cases hissue
    · rw [← Option.some.inj hissue]
  intro issue hissue
  rcases List.mem_append.mp hissue with hissue | hissue
  · obtain ⟨entry, _, hentry⟩ := List.mem_flatMap.mp hissue
    exact hcode _ _ _ _ issue hentry
  · obtain ⟨entry, _, hentry⟩ := List.mem_flatMap.mp hissue
    exact hcode _ _ _ _ issue hentry

theorem code_of_missingPathIssue {pathExists : String → Bool} (entry : String × PrimitiveConfig)
    (issue : ConfigIssue) (h : missingPathIssue pathExists entry = some issue) :
    issue.code = .pathNotFound := by
  unfold missingPathIssue at h
  split_ifs at h
  rw [← Option.some.inj h]

theorem code_of_connectionCapacityIssue {enabledPrimitives maxConnections : ℕ}
    (issue : ConfigIssue)
    (h : connectionCapacityIssue enabledPrimitives maxConnections = some issue) :
    issue.code = .connectionCapacity := by
  simp only [connectionCapacityIssue] at h
  split_ifs at h
  rw [← Option.some.inj h]

/-- The checks that are made with and without the paths. -/
theorem code_of_issues {config : EmergentConfig} {machine : Machine} :
    ∀ issue ∈ config.issues { machine with pathExists := none },
      issue.code ≠ .pathNotFound ∧ issue.code ≠ .connectionCapacity := by
  intro issue hissue
  have hcode : issue.code = .invalidName ∨ issue.code = .duplicateName ∨
      issue.code = .invalidRestartPolicy ∨ issue.code = .invalidSubscriptionTopic ∨
      issue.code = .invalidApiAllowedHost := by
    simp only [EmergentConfig.issues, List.append_nil, List.mem_append] at hissue
    rcases hissue with (((hissue | hissue) | hissue) | hissue) | hissue
    · refine Or.inl (code_of_filterMap (fun entry issue h => ?_) issue hissue)
      unfold nameIssue at h
      split at h
      · cases h
      · rw [← Option.some.inj h]
    · exact Or.inr (Or.inl (code_of_duplicateNameIssues issue hissue))
    · refine Or.inr (Or.inr (Or.inl (code_of_filterMap (fun entry issue h => ?_) issue hissue)))
      unfold restartPolicyIssue at h
      split at h
      · cases h
      · rw [← Option.some.inj h]
    · exact Or.inr (Or.inr (Or.inr (Or.inl (code_of_subscriptionTopicIssues issue hissue))))
    · refine Or.inr (Or.inr (Or.inr (Or.inr
        (code_of_filterMap (fun entry issue h => ?_) issue hissue))))
      unfold allowedHostIssue at h
      split at h
      · cases h
      · rw [← Option.some.inj h]
  rcases hcode with h | h | h | h | h <;> rw [h] <;> decide

theorem preflight_without_paths (config : EmergentConfig) (maxConnections : ℕ)
    (machine : Machine) :
    (preflight config maxConnections { machine with pathExists := none }).errors =
      without .pathNotFound (preflight config maxConnections machine).errors := by
  have hown : without .pathNotFound (config.issues { machine with pathExists := none }) =
      config.issues { machine with pathExists := none } :=
    without_eq_self fun issue hissue => (code_of_issues issue hissue).1
  have hpaths : without .pathNotFound (machine.pathExists.elim [] fun pathExists =>
      config.locatedPrimitives.filterMap (missingPathIssue pathExists)) = [] := by
    cases machine.pathExists with
    | none => rfl
    | some pathExists => exact without_eq_nil (code_of_filterMap code_of_missingPathIssue)
  have hcapacity : without .pathNotFound
      (connectionCapacityIssue config.enabledPrimitiveCount maxConnections).toList =
      (connectionCapacityIssue config.enabledPrimitiveCount maxConnections).toList := by
    refine without_eq_self fun issue hissue => ?_
    rw [code_of_connectionCapacityIssue issue (Option.mem_toList.mp hissue)]
    decide
  simp only [preflight]
  rw [issues_eq_append config machine, without_append, without_append, hown, hpaths, hcapacity,
    List.append_nil]

/-- A limit that is high enough changes nothing else. -/
theorem preflight_raised {config : EmergentConfig} {maxConnections : ℕ}
    (h : requiredIpcConnections config.enabledPrimitiveCount ≤ maxConnections)
    (before : ℕ) (machine : Machine) :
    (preflight config maxConnections machine).errors =
      without .connectionCapacity (preflight config before machine).errors := by
  have hissues : without .connectionCapacity (config.issues machine) = config.issues machine := by
    refine without_eq_self fun issue hissue => ?_
    rw [issues_eq_append, List.mem_append] at hissue
    rcases hissue with hissue | hissue
    · exact (code_of_issues issue hissue).2
    · have hcode : issue.code = .pathNotFound := by
        cases hpaths : machine.pathExists with
        | none =>
          rw [hpaths] at hissue
          exact absurd hissue List.not_mem_nil
        | some pathExists =>
          rw [hpaths] at hissue
          exact code_of_filterMap code_of_missingPathIssue issue hissue
      rw [hcode]
      decide
  have hcapacity : without .connectionCapacity
      (connectionCapacityIssue config.enabledPrimitiveCount before).toList = [] :=
    without_eq_nil fun issue hissue =>
      code_of_connectionCapacityIssue issue (Option.mem_toList.mp hissue)
  simp only [preflight]
  rw [without_append, hissues, hcapacity, connectionCapacityIssue_eq_none.mpr h]
  rfl

/-! ### What `validate` tells -/

theorem code_of_parseIssue (readDocument : String → Option Table) (e : TomlError)
    (content : Option String) :
    (loadIssue readDocument (.parseError e) content).code =
      if (unknownFieldName (trim e.message)).isSome then .unknownField else .parseError := by
  unfold loadIssue
  dsimp only
  split <;> rfl

/-- Both commands read the same file or stop at the same point before it is read. -/
inductive Reads (host : Host) (path socket : Option String) : Prop where
  | file (place text : String) (file : ConfigFile)
    (hplace : resolveConfigPath host path = .ok place)
    (htext : host.readToString place = .ok text)
    (hfile : host.parseUnchecked text = .ok file)
    (hvalidate : ∀ skipPaths, runValidate host path skipPaths =
      (place, .fromFindings
        (preflight file.config (effectiveMaxConnections host file) (checks host skipPaths))))
    (hstart : start host path socket = refuseOnErrors
      (preflight file.config (effectiveMaxConnections host file) (checks host false)) place)
  | nothing (place : String) (issue : ConfigIssue) (e : StartError)
    (hunread : ∀ place text file, resolveConfigPath host path = .ok place →
      host.readToString place = .ok text → host.parseUnchecked text ≠ .ok file)
    (hvalidate : ∀ skipPaths, runValidate host path skipPaths = (place, .failed issue))
    (hcode : issue.code ≠ .pathNotFound)
    (hstart : start host path socket = .error e)
    (hproblems : e.problems = 1)
    (hrefused : ∀ place issue more, e ≠ .refused place issue more)

theorem configNotFound_ne (message : String) :
    ∀ place issue more, StartError.configNotFound message ≠ .refused place issue more := by
  intro place issue more h
  cases h

theorem notLoaded_ne (path : String) (e : ConfigError) :
    ∀ place issue more, StartError.notLoaded path e ≠ .refused place issue more := by
  intro place issue more h
  cases h

theorem reads (host : Host) (path socket : Option String) : Reads host path socket := by
  cases hplace : resolveConfigPath host path with
  | error message =>
    refine .nothing "emergent.toml" ⟨.configNotFound, message, none⟩ (.configNotFound message)
      ?_ ?_ (fun h => by cases h) ?_ rfl (configNotFound_ne message)
    · intro place text file hplace'
      rw [hplace] at hplace'
      cases hplace'
    · intro skipPaths
      simp only [runValidate, hplace]
    · simp only [start, hplace]
  | ok place =>
    cases htext : host.readToString place with
    | error message =>
      refine .nothing place ⟨.readError, message, none⟩ (.notLoaded place (.readError message))
        ?_ ?_ (fun h => by cases h) ?_ rfl (notLoaded_ne place _)
      · intro place' text file hplace' htext'
        rw [hplace] at hplace'
        rw [← Except.ok.inj hplace', htext] at htext'
        cases htext'
      · intro skipPaths
        simp only [runValidate, hplace, htext, loadIssue]
      · simp only [start, hplace, readFile, htext]
    | ok text =>
      cases hfile : host.parseUnchecked text with
      | error e =>
        refine .nothing place (loadIssue host.readDocument (.parseError e) (some text))
          (.notLoaded place (.parseError e)) ?_ ?_ ?_ ?_ rfl (notLoaded_ne place _)
        · intro place' text' file hplace' htext' hfile'
          rw [hplace] at hplace'
          rw [← Except.ok.inj hplace', htext] at htext'
          rw [← Except.ok.inj htext', hfile] at hfile'
          cases hfile'
        · intro skipPaths
          simp only [runValidate, hplace, htext, hfile]
        · rw [code_of_parseIssue]
          split <;> decide
        · simp only [start, hplace, readFile, htext, hfile]
      | ok file =>
        refine .file place text file hplace htext hfile ?_ ?_
        · intro skipPaths
          simp only [runValidate, hplace, htext, hfile]
        · simp only [start, hplace, readFile, htext, hfile]
          rfl

theorem exitCode_fromFindings (findings : Findings) :
    (ValidationReport.fromFindings findings).exitCode = 0 ↔ findings.isOk = true := by
  unfold ValidationReport.exitCode ValidationReport.fromFindings
  cases findings.isOk <;> simp

theorem refuseOnErrors_eq_ok {findings : Findings} {path : String} {warnings : List ConfigIssue} :
    refuseOnErrors findings path = .ok warnings ↔
      ValidationReport.fromFindings findings = ⟨true, [], warnings⟩ := by
  unfold refuseOnErrors ValidationReport.fromFindings Findings.isOk
  cases findings.errors <;> simp

theorem refuseOnErrors_eq_error {findings : Findings} {path : String} {e : StartError}
    (h : refuseOnErrors findings path = .error e) :
    ∃ issue more, findings.errors = issue :: more ∧ e = .refused path issue more.length := by
  unfold refuseOnErrors at h
  cases herrors : findings.errors with
  | nil =>
    rw [herrors] at h
    cases h
  | cons issue more =>
    rw [herrors] at h
    exact ⟨issue, more, rfl, (Except.error.inj h).symm⟩

/-- `validate` accepts exactly the files that can be read and are well formed, and they
are the ones the engine starts with, whatever socket it is given. When it does not start,
the problem it names is the first that `validate` lists, and it counts the others. Without
the paths `validate` finds the same but for the paths, and the limit it advises is enough. -/
theorem validate_exact (host : Host) (path socket : Option String) :
    ((runValidate host path false).2.exitCode = 0 ↔
      ∃ place text file, resolveConfigPath host path = .ok place ∧
        host.readToString place = .ok text ∧ host.parseUnchecked text = .ok file ∧
        WellFormed file.config (effectiveMaxConnections host file) (checks host false)) ∧
    (∀ warnings, start host path socket = .ok warnings ↔
      (runValidate host path false).2 = ⟨true, [], warnings⟩) ∧
    (∀ e, start host path socket = .error e →
      (runValidate host path false).2.exitCode = 1 ∧
        (runValidate host path false).2.errors.length = e.problems ∧
        ∀ place issue more, e = .refused place issue more →
          (runValidate host path false).2.errors.head? = some issue) ∧
    (runValidate host path true).2.errors =
      without .pathNotFound (runValidate host path false).2.errors ∧
    ∀ (file : ConfigFile) (skipPaths : Bool),
      (preflight file.config
          (effectiveMaxConnections host
            { file with
              maxConnections := requiredIpcConnections file.config.enabledPrimitiveCount })
          (checks host skipPaths)).errors =
        without .connectionCapacity
          (preflight file.config (effectiveMaxConnections host file)
            (checks host skipPaths)).errors := by
  refine ⟨?_, ?_, ?_, ?_, fun file skipPaths => preflight_raised le_rfl _ _⟩
  · cases reads host path socket with
    | file place text file hplace htext hfile hvalidate hstart =>
      rw [hvalidate, exitCode_fromFindings, preflight_isOk_iff]
      constructor
      · intro h
        exact ⟨place, text, file, hplace, htext, hfile, h⟩
      · rintro ⟨place', text', file', hplace', htext', hfile', h⟩
        rw [hplace] at hplace'
        cases hplace'
        rw [htext] at htext'
        cases htext'
        rw [hfile] at hfile'
        cases hfile'
        exact h
    | nothing place issue e hunread hvalidate =>
      rw [hvalidate]
      constructor
      · intro h
        cases h
      · rintro ⟨place, text, file, hplace, htext, hfile, _⟩
        exact absurd hfile (hunread place text file hplace htext)
  · intro warnings
    cases reads host path socket with
    | file place text file hplace htext hfile hvalidate hstart =>
      rw [hvalidate, hstart]
      exact refuseOnErrors_eq_ok
    | nothing place issue e hunread hvalidate hcode hstart =>
      rw [hvalidate, hstart]
      exact ⟨nofun, nofun⟩
  · intro e he
    cases reads host path socket with
    | file place text file hplace htext hfile hvalidate hstart =>
      rw [hstart] at he
      rw [hvalidate]
      obtain ⟨issue, more, herrors, rfl⟩ := refuseOnErrors_eq_error he
      refine ⟨?_, congrArg List.length herrors, fun place' issue' count h => ?_⟩
      · unfold ValidationReport.exitCode ValidationReport.fromFindings Findings.isOk
        rw [herrors]
        rfl
      · cases h
        exact congrArg List.head? herrors
    | nothing place issue e' hunread hvalidate hcode hstart hproblems hrefused =>
      rw [hstart] at he
      rw [← Except.error.inj he, hvalidate]
      exact ⟨rfl, hproblems.symm, fun place issue more h => absurd h (hrefused place issue more)⟩
  · cases reads host path socket with
    | file place text file hplace htext hfile hvalidate hstart =>
      rw [hvalidate, hvalidate]
      exact preflight_without_paths file.config _ (checks host false)
    | nothing place issue e hunread hvalidate hcode =>
      rw [hvalidate, hvalidate]
      refine (without_eq_self fun found hfound => ?_).symm
      rw [List.mem_singleton.mp hfound]
      exact hcode

end Emergent.Engine.Preflight

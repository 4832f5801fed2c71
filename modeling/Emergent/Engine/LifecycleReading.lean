import Emergent.Engine.ActorEvents
import Emergent.Engine.Discovery
import Emergent.Kit.KeySort

/-!
# Reading a lifecycle event

What an actor says in its `system.*.<name>` events, and what each SDK makes of it:
the derived deserializer of `SystemEventPayload` in Rust, `PayloadAs` over the struct
of `go/system_events.go`, `payload_as` over the model of `py/emergent/types.py`, and
in TypeScript the payload as it is, behind the guards of `ts/src/system-events.ts`.
The engine leaves out what is empty, and adds the attempt of a restart, which no SDK
reads.
-/

namespace Emergent.Sdk
open Kit

/-- An event as the SDKs hand it over; the pid is the number that was read. -/
structure SystemEventReading where
  name : String
  kind : String
  pid : Option Number
  publishes : List String
  subscribes : List String
  error : Option String
  deriving Repr, DecidableEq

/-- The fields with their defaults. -/
def readSystemEvent (readPid : Value → Option Number) (field : String → Option Value) :
    Option SystemEventReading := do
  let name ← (field "name").bind Value.asStr
  let kind ← (field "kind").bind Value.asStr
  let pid ← decodeOption readPid ((field "pid").getD .null)
  let publishes ← decodeStrings ((field "publishes").getD (.array []))
  let subscribes ← decodeStrings ((field "subscribes").getD (.array []))
  let error ← decodeOption Value.asStr ((field "error").getD .null)
  return { name, kind, pid, publishes, subscribes, error }

def systemEventKeys : List String :=
  ["name", "kind", "pid", "publishes", "subscribes", "error"]

/-- A struct is also read from a list of its fields, of which the last may be missing. -/
def Rust.systemEvent : Value → Option SystemEventReading
  | .object fields => readSystemEvent Rust.pid (Value.object fields).get
  | .array items =>
    if items.length ≤ systemEventKeys.length then
      readSystemEvent Rust.pid fun key => (systemEventKeys.zip items).lookup key
    else none
  | _ => none

def primitiveKinds : List String := ["source", "handler", "sink"]

def Py.systemEvent (pydantic : Pydantic) : Value → Option SystemEventReading
  | .object fields =>
    (readSystemEvent pydantic.int (Value.object fields).get).filter
      fun event => primitiveKinds.contains event.kind
  | _ => none

/-- `encoding/json`: keys are compared regardless of case, and a number is read as a
`uint32` when its text is one. -/
structure GoJson where
  equalFold : String → String → Bool
  uint32 : Number → Option Number
  equalFold_self : ∀ key, equalFold key key = true
  equalFold_keys : ∀ key ∈ "restart_attempt" :: systemEventKeys, ∀ key' ∈ systemEventKeys,
    equalFold key key' = true → key = key'
  posInt : ∀ n : UInt64, n.toNat < 4294967296 → uint32 (.posInt n) = some (.posInt n)

namespace Go

/-- `json.Marshal` writes a map in the order of its keys; of the keys that name one field
the last counts. -/
def jsonField (json : GoJson) (fields : List (String × Value)) (key : String) : Option Value :=
  (((sortOn Prod.fst fields).filter fun field => json.equalFold field.1 key).getLast?).map Prod.snd

/-- A `null` leaves the zero value. -/
def jsonString : Value → Option String
  | .null => some ""
  | .string s => some s
  | _ => none

def jsonStrings : Value → Option (List String)
  | .null => some []
  | .array items => items.mapM jsonString
  | _ => none

def jsonUint32 (json : GoJson) : Value → Option Number
  | .number n => json.uint32 n
  | _ => none

def systemEvent (json : GoJson) : Value → Option SystemEventReading
  | .null => some ⟨"", "", none, [], [], none⟩
  | .object fields => do
    let field := fun key => (jsonField json fields key).getD .null
    let name ← jsonString (field "name")
    let kind ← jsonString (field "kind")
    let pid ← decodeOption (jsonUint32 json) (field "pid")
    let publishes ← jsonStrings (field "publishes")
    let subscribes ← jsonStrings (field "subscribes")
    let error ← decodeOption Value.asStr (field "error")
    return { name, kind, pid, publishes, subscribes, error }
  | _ => none

end Go

namespace Ts

def isSystemEventPayload (payload : Value) : Bool :=
  ((payload.get "name").bind Value.asStr).isSome &&
    ((payload.get "kind").bind Value.asStr).any primitiveKinds.contains

def isSystemShutdownPayload (payload : Value) : Bool :=
  ((payload.get "kind").bind Value.asStr).any primitiveKinds.contains &&
    (payload.get "name").isNone

def isErrorEvent (payload : Value) : Bool := (payload.get "error").isSome

end Ts

end Emergent.Sdk

namespace Emergent.Engine
open Emergent.Sdk Kit

/-! ### The payload on the wire -/

def optionalField (key : String) (v : Option Value) : List (String × Value) :=
  v.toList.map fun v => (key, v)

def stringsField (key : String) (strings : List String) : List (String × Value) :=
  optionalField key (if strings = [] then none else some (.array (strings.map .string)))

namespace SystemEventPayload

def fields (payload : SystemEventPayload) : List (String × Value) :=
  [("name", .string payload.name), ("kind", .string payload.kind)] ++
    (optionalField "pid" (payload.pid.map fun pid => .number (.posInt (UInt64.ofNat pid))) ++
    (stringsField "publishes" payload.publishes ++
    (stringsField "subscribes" payload.subscribes ++
    (optionalField "error" (payload.error.map .string) ++
    optionalField "restart_attempt" (payload.restartAttempt.map fun attempt =>
      .number (.posInt attempt.toUInt64))))))

def toValue (payload : SystemEventPayload) : Value := .object payload.fields

/-- The payload without the attempt. -/
def reading (payload : SystemEventPayload) : SystemEventReading where
  name := payload.name
  kind := payload.kind
  pid := payload.pid.map fun pid => .posInt (UInt64.ofNat pid)
  publishes := payload.publishes
  subscribes := payload.subscribes
  error := payload.error

/-- What one field of the payload holds. -/
def field (payload : SystemEventPayload) : String → Option Value
  | "name" => some (.string payload.name)
  | "kind" => some (.string payload.kind)
  | "pid" => payload.pid.map fun pid => .number (.posInt (UInt64.ofNat pid))
  | "publishes" =>
    if payload.publishes = [] then none else some (.array (payload.publishes.map .string))
  | "subscribes" =>
    if payload.subscribes = [] then none else some (.array (payload.subscribes.map .string))
  | "error" => payload.error.map .string
  | _ => none

theorem lookup_optionalField (key key' : String) (v : Option Value)
    (rest : List (String × Value)) :
    (optionalField key v ++ rest).lookup key' =
      if key' = key then v.or (rest.lookup key') else rest.lookup key' := by
  cases v with
  | none => simp [optionalField]
  | some v =>
    by_cases h : key' = key
    · simp [optionalField, h]
    · have hne : (key' == key) = false := beq_false_of_ne h
      simp [optionalField, List.lookup_cons, h, hne]

theorem get_toValue (payload : SystemEventPayload) {key : String} (h : key ∈ systemEventKeys) :
    payload.toValue.get key = payload.field key := by
  have hlast : (optionalField "restart_attempt" (payload.restartAttempt.map fun attempt =>
      Value.number (.posInt attempt.toUInt64))).lookup key = none := by
    have hne : ¬ key = "restart_attempt" := by
      rintro rfl
      exact absurd h (by decide)
    rw [← List.append_nil (optionalField _ _), lookup_optionalField, if_neg hne]
    rfl
  simp only [toValue, Value.get, fields, stringsField, List.cons_append, List.nil_append,
    List.lookup_cons, lookup_optionalField, hlast, Option.or_none]
  simp only [systemEventKeys, List.mem_cons, List.not_mem_nil, or_false] at h
  rcases h with rfl | rfl | rfl | rfl | rfl | rfl <;> simp [field]

theorem optionalField_keys (key : String) (v : Option Value) :
    ((optionalField key v).map Prod.fst).Sublist [key] := by
  cases v with
  | none => exact List.nil_sublist _
  | some v => exact List.Sublist.refl _

/-- No field is written twice. -/
theorem fields_keys (payload : SystemEventPayload) :
    (payload.fields.map Prod.fst).Sublist (systemEventKeys ++ ["restart_attempt"]) := by
  simp only [fields, stringsField, List.map_append]
  refine (List.Sublist.refl ["name", "kind"]).append ?_
  refine (optionalField_keys "pid" _).append ?_
  refine (optionalField_keys "publishes" _).append ?_
  refine (optionalField_keys "subscribes" _).append ?_
  exact (optionalField_keys "error" _).append (optionalField_keys "restart_attempt" _)

end SystemEventPayload

/-! ### The readers on it -/

theorem filter_key {fields : List (String × Value)} (h : (fields.map Prod.fst).Nodup)
    (key : String) : fields.filter (fun field => field.1 = key) =
      ((fields.lookup key).map fun v => (key, v)).toList := by
  induction fields with
  | nil => rfl
  | cons field fields ih =>
    obtain ⟨k, v⟩ := field
    rw [List.map_cons, List.nodup_cons] at h
    by_cases hk : k = key
    · have hrest : fields.filter (fun field => field.1 = key) = [] := by
        rw [List.filter_eq_nil_iff]
        intro field hfield heq
        refine h.1 (List.mem_map.mpr ⟨field, hfield, ?_⟩)
        rw [of_decide_eq_true heq, hk]
      rw [List.filter_cons_of_pos (by simpa using hk), hrest, ← hk]
      simp
    · have hne : (key == k) = false := beq_false_of_ne (Ne.symm hk)
      rw [List.filter_cons_of_neg (by simpa using hk), ih h.2, List.lookup_cons, hne]

/-- Where no two keys name one field, Go finds what is under the key. -/
theorem jsonField_eq_lookup {json : GoJson} {fields : List (String × Value)} {key : String}
    (hnodup : (fields.map Prod.fst).Nodup)
    (hkeys : ∀ field ∈ fields, json.equalFold field.1 key = true → field.1 = key) :
    Go.jsonField json fields key = fields.lookup key := by
  have hperm := sortOn_perm (Prod.fst : String × Value → String) fields
  have hfilter : (sortOn Prod.fst fields).filter (fun field => json.equalFold field.1 key) =
      (sortOn Prod.fst fields).filter fun field => field.1 = key := by
    refine List.filter_congr fun field hfield => ?_
    by_cases heq : field.1 = key
    · simp [heq, json.equalFold_self]
    · have hfold : ¬ json.equalFold field.1 key = true :=
        fun hfold => heq (hkeys field (hperm.mem_iff.mp hfield) hfold)
      simp [heq, hfold]
  have hone := (hperm.filter fun field => decide (field.1 = key)).trans
    (List.Perm.of_eq (filter_key hnodup key))
  rw [Sdk.Go.jsonField, hfilter]
  cases hlookup : fields.lookup key with
  | none =>
    rw [hlookup] at hone
    rw [List.perm_nil.mp hone]
    rfl
  | some v =>
    rw [hlookup] at hone
    rw [List.perm_singleton.mp hone]
    rfl

theorem readSystemEvent_congr {readPid : Value → Option Number}
    {field field' : String → Option Value} (h : ∀ key ∈ systemEventKeys, field key = field' key) :
    readSystemEvent readPid field = readSystemEvent readPid field' := by
  unfold readSystemEvent
  rw [h "name" (by decide), h "kind" (by decide), h "pid" (by decide), h "publishes" (by decide),
    h "subscribes" (by decide), h "error" (by decide)]

namespace SystemEventPayload

/-- The pid is a `u32`. -/
def Fits (payload : SystemEventPayload) : Prop := ∀ pid ∈ payload.pid, TopologyPayload.PidFits pid

variable {payload : SystemEventPayload}

theorem Fits.number (h : payload.Fits) {pid : Pid} (hpid : payload.pid = some pid) :
    (UInt64.ofNat pid).toNat < 4294967296 := by
  have hfits : pid < 4294967296 := h pid hpid
  have hsmall : pid < 2 ^ 64 := hfits.trans (by decide)
  rw [UInt64.toNat_ofNat', Nat.mod_eq_of_lt hsmall]
  exact hfits

theorem decodeOption_pidField (h : payload.Fits) {readPid : Value → Option Number}
    (hread : ∀ n : UInt64, n.toNat < 4294967296 →
      readPid (.number (.posInt n)) = some (.posInt n)) :
    decodeOption readPid ((payload.field "pid").getD .null) = some payload.reading.pid := by
  simp only [field, reading]
  cases hpid : payload.pid with
  | none => rfl
  | some pid => simp [decodeOption, hread _ (h.number hpid)]

theorem decodeStrings_field (strings : List String) :
    decodeStrings ((if strings = [] then none
      else some (Value.array (strings.map .string))).getD (.array [])) = some strings := by
  by_cases h : strings = []
  · rw [if_pos h, h]
    rfl
  · rw [if_neg h]
    exact decodeStrings_strings strings

theorem readSystemEvent_field (h : payload.Fits) {readPid : Value → Option Number}
    (hread : ∀ n : UInt64, n.toNat < 4294967296 →
      readPid (.number (.posInt n)) = some (.posInt n)) :
    readSystemEvent readPid payload.field = some payload.reading := by
  have hpublishes : decodeStrings ((payload.field "publishes").getD (.array [])) =
      some payload.publishes := decodeStrings_field payload.publishes
  have hsubscribes : decodeStrings ((payload.field "subscribes").getD (.array [])) =
      some payload.subscribes := decodeStrings_field payload.subscribes
  have herror : decodeOption Value.asStr ((payload.field "error").getD .null) =
      some payload.error := decodeOption_error payload.error
  rw [readSystemEvent, decodeOption_pidField h hread, hpublishes, hsubscribes, herror]
  rfl

theorem rust_toValue (h : payload.Fits) :
    Rust.systemEvent payload.toValue = some payload.reading := by
  have hread : readSystemEvent Rust.pid payload.field = some payload.reading :=
    readSystemEvent_field h fun n hn => by simp [Rust.pid, hn]
  rw [← hread]
  exact readSystemEvent_congr fun key hkey => get_toValue payload hkey

theorem py_toValue (pydantic : Pydantic) (h : payload.Fits)
    (hkind : payload.kind ∈ primitiveKinds) :
    Py.systemEvent pydantic payload.toValue = some payload.reading := by
  have hread : readSystemEvent pydantic.int payload.field = some payload.reading :=
    readSystemEvent_field h fun n _ => pydantic.posInt n
  have hfields : readSystemEvent pydantic.int payload.toValue.get = some payload.reading := by
    rw [← hread]
    exact readSystemEvent_congr fun key hkey => get_toValue payload hkey
  have hknown : primitiveKinds.contains payload.reading.kind = true :=
    List.contains_iff_mem.mpr hkind
  show (readSystemEvent pydantic.int payload.toValue.get).filter _ = some payload.reading
  rw [hfields, Option.filter, hknown]
  rfl

theorem jsonField_fields (json : GoJson) (payload : SystemEventPayload) {key : String}
    (hkey : key ∈ systemEventKeys) : Go.jsonField json payload.fields key = payload.field key := by
  have hkeys := fields_keys payload
  rw [← get_toValue payload hkey]
  refine jsonField_eq_lookup (hkeys.nodup (by decide)) fun field hfield hfold => ?_
  refine json.equalFold_keys field.1 ?_ key hkey hfold
  have hmem := hkeys.subset (List.mem_map_of_mem hfield)
  simp only [List.mem_append, List.mem_singleton] at hmem
  exact List.mem_cons.mpr hmem.symm

theorem jsonStrings_strings (strings : List String) :
    Go.jsonStrings (.array (strings.map .string)) = some strings := by
  rw [Go.jsonStrings]
  induction strings with
  | nil => rfl
  | cons s strings ih => simp [List.mapM_cons, ih, Go.jsonString]

theorem jsonStrings_field (strings : List String) :
    Go.jsonStrings ((if strings = [] then none
      else some (Value.array (strings.map .string))).getD .null) = some strings := by
  by_cases h : strings = []
  · rw [if_pos h, h]
    rfl
  · rw [if_neg h]
    exact jsonStrings_strings strings

theorem go_toValue (json : GoJson) (h : payload.Fits) :
    Go.systemEvent json payload.toValue = some payload.reading := by
  have hpublishes : Go.jsonStrings ((payload.field "publishes").getD .null) =
      some payload.publishes := jsonStrings_field payload.publishes
  have hsubscribes : Go.jsonStrings ((payload.field "subscribes").getD .null) =
      some payload.subscribes := jsonStrings_field payload.subscribes
  have herror : decodeOption Value.asStr ((payload.field "error").getD .null) =
      some payload.error := decodeOption_error payload.error
  have hpid : decodeOption (Go.jsonUint32 json) ((payload.field "pid").getD .null) =
      some payload.reading.pid := decodeOption_pidField h json.posInt
  have hfield := fun key (hkey : key ∈ systemEventKeys) => jsonField_fields json payload hkey
  simp only [toValue, Go.systemEvent]
  rw [hfield "name" (by decide), hfield "kind" (by decide), hfield "pid" (by decide),
    hfield "publishes" (by decide), hfield "subscribes" (by decide), hfield "error" (by decide),
    hpid, hpublishes, hsubscribes, herror]
  rfl

theorem ts_toValue (f : Number → Number) (payload : SystemEventPayload) {key : String}
    (hkey : key ∈ systemEventKeys) :
    (payload.toValue.mapNumbers f).get key = (payload.field key).map (Value.mapNumbers f) := by
  rw [get_mapNumbers, get_toValue payload hkey]

theorem ts_guards (f : Number → Number) {payload : SystemEventPayload}
    (hkind : payload.kind ∈ primitiveKinds) :
    Ts.isSystemEventPayload (payload.toValue.mapNumbers f) = true ∧
      Ts.isSystemShutdownPayload (payload.toValue.mapNumbers f) = false ∧
      Ts.isErrorEvent (payload.toValue.mapNumbers f) = payload.error.isSome := by
  have hname : (payload.toValue.mapNumbers f).get "name" = some (.string payload.name) :=
    ts_toValue f payload (by decide)
  refine ⟨?_, ?_, ?_⟩
  · rw [Ts.isSystemEventPayload, hname, ts_toValue f payload (by decide)]
    exact List.contains_iff_mem.mpr hkind
  · rw [Ts.isSystemShutdownPayload, hname]
    exact Bool.and_false _
  · rw [Ts.isErrorEvent, ts_toValue f payload (by decide), Option.isSome_map]
    exact Option.isSome_map

end SystemEventPayload

/-! ### What an actor says -/

/-- The events of a primitive. -/
inductive Announcement (info : PrimitiveInfo) : SystemEvent → Prop where
  | started (pid : Pid) : Announcement info (.of .started info (.new info (some pid) none none))
  | restarted (pid : Pid) (attempt : UInt32) :
    Announcement info (.of .restarted info (.new info (some pid) none (some attempt)))
  | stopped (pid : Pid) : Announcement info (.of .stopped info (.new info (some pid) none none))
  | failed (pid : Option Pid) (reason : String) :
    Announcement info (.of .error info (.new info pid (some reason) none))

def SpawnPoint.pid : SpawnPoint → Option Pid
  | .publish _ pid | .report _ pid | .broadcast _ pid => some pid
  | _ => none

def SpawnOutcome.pid : SpawnOutcome → Option Pid
  | .created pid | .unidentified pid => some pid
  | .failed _ => none

/-- What the operating system answers to a spawn. -/
def ActorAction.pid : ActorAction → Option Pid
  | .bootStep outcome | .taskStep outcome => outcome.pid
  | _ => none

namespace PrimitiveActor
open TopologyPayload (PidFits)

/-- The events sent so far, and the pids that an event may come to name. -/
structure Sent (info : PrimitiveInfo) (s : PrimitiveActor) : Prop where
  events : ∀ event ∈ s.events, Announcement info event ∧ event.payload.Fits
  children : ∀ c ∈ s.children, PidFits c.pid

structure Announces (info : PrimitiveInfo) (s : PrimitiveActor) : Prop extends Sent info s where
  boot : ∀ spawn ∈ s.boot, ∀ pid ∈ spawn.point.pid, PidFits pid
  task : ∀ spawn, s.task = .spawn spawn → ∀ pid ∈ spawn.point.pid, PidFits pid

variable {config : PrimitiveActorConfig} {info : PrimitiveInfo} {s t : PrimitiveActor}

theorem announces_start (info : PrimitiveInfo) : start.Announces info where
  events := fun _ h => absurd h List.not_mem_nil
  children := fun _ h => absurd h List.not_mem_nil
  boot := by
    rintro spawn ⟨⟩ pid hpid
    cases hpid
  task := nofun

theorem Sent.congr (hs : s.Sent info) (hevents : t.events = s.events)
    (hchildren : t.children = s.children) : t.Sent info :=
  ⟨hevents ▸ hs.events, hchildren ▸ hs.children⟩

theorem Sent.editChild (hs : s.Sent info) (i : ℕ) (edit : ChildPhase → ChildPhase) :
    (s.editChild i edit).Sent info := by
  refine ⟨hs.events, fun c hc => ?_⟩
  obtain ⟨j, hj⟩ := List.mem_iff_getElem?.mp hc
  rcases getElem?_modify_cases hj with ⟨_, d, hd, rfl⟩ | ⟨_, hold⟩
  · exact hs.children d (List.mem_of_getElem? hd)
  · exact hs.children c (List.mem_of_getElem? hold)

theorem Sent.newChild (hs : s.Sent info) {pid : Pid} (hpid : PidFits pid) (attempt : Option UInt32)
    (holder : Holder) :
    ∀ c ∈ s.children ++ [(⟨pid, attempt, .alive holder⟩ : Child)], PidFits c.pid := by
  intro c hc
  rcases List.mem_append.mp hc with hold | hnew
  · exact hs.children c hold
  · rw [List.mem_singleton.mp hnew]
    exact hpid

theorem Sent.broadcast (hs : s.Sent info) {event : Except InvalidMessageType SystemEvent}
    {sent : SystemEvent} (hevent : event = .ok sent) (hsent : Announcement info sent)
    (hfits : sent.payload.Fits) : (s.broadcast event).Sent info := by
  refine ⟨fun other hother => ?_, hs.children⟩
  rw [hevent] at hother
  rcases List.mem_append.mp hother with hold | hnew
  · exact hs.events other hold
  · rw [List.mem_singleton.mp hnew]
    exact ⟨hsent, hfits⟩

theorem fits_new {info : PrimitiveInfo} {pid : Option Pid} (h : ∀ p ∈ pid, PidFits p)
    (eventType : EventType) (error : Option String) (attempt : Option UInt32) :
    (SystemEvent.of eventType info (.new info pid error attempt)).payload.Fits := h

theorem Sent.broadcastError (hs : s.Sent info) {pid : Option Pid} (h : ∀ p ∈ pid, PidFits p)
    (reason : String) :
    (s.broadcast (createSystemEvent .error info pid (some reason))).Sent info :=
  hs.broadcast (createSystemEvent_error info pid reason) (.failed pid reason) (fits_new h _ _ _)

/-- One step of a spawn. -/
theorem Sent.advance (hs : s.Sent config.info) (attempt : Option UInt32) {outcome : SpawnOutcome}
    {point : SpawnPoint} (houtcome : ∀ pid ∈ outcome.pid, PidFits pid)
    (hpoint : ∀ pid ∈ point.pid, PidFits pid) :
    (s.advance config attempt outcome point).1.Sent config.info ∧
      ∀ next ∈ (s.advance config attempt outcome point).2, ∀ pid ∈ next.pid, PidFits pid := by
  cases point with
  | announce => exact ⟨hs.congr rfl rfl, by rintro next ⟨⟩ pid ⟨⟩⟩
  | create =>
    cases outcome with
    | failed error => exact ⟨hs.congr rfl rfl, by rintro next ⟨⟩ pid ⟨⟩⟩
    | unidentified pid =>
      exact ⟨⟨hs.events, hs.newChild (houtcome pid rfl) attempt .nobody⟩,
        by rintro next ⟨⟩ pid ⟨⟩⟩
    | created pid =>
      refine ⟨⟨hs.events, hs.newChild (houtcome pid rfl) attempt (.spawn false)⟩, ?_⟩
      rintro next ⟨⟩ pid' ⟨⟩
      exact houtcome pid rfl
  | failed error => exact ⟨hs.congr rfl rfl, by rintro next ⟨⟩ pid ⟨⟩⟩
  | failedEvent error =>
    exact ⟨hs.broadcastError (fun p hp => absurd hp (Option.not_mem_none p)) error, nofun⟩
  | unidentified => exact ⟨hs.congr rfl rfl, nofun⟩
  | publish child pid =>
    refine ⟨hs.congr rfl rfl, ?_⟩
    rintro next ⟨⟩ pid' ⟨⟩
    exact hpoint pid rfl
  | report child pid =>
    refine ⟨hs.congr rfl rfl, ?_⟩
    rintro next ⟨⟩ pid' ⟨⟩
    exact hpoint pid rfl
  | broadcast child pid =>
    have hpid : ∀ p ∈ some pid, PidFits p := hpoint
    refine ⟨Sent.editChild ?_ child .announce, by rintro next ⟨⟩ pid ⟨⟩⟩
    cases attempt with
    | none =>
      exact hs.broadcast (createSystemEvent_started config.info pid) (.started pid)
        (fits_new hpid _ _ _)
    | some attempt =>
      exact hs.broadcast (createRestartedEvent_ok config.info pid attempt) (.restarted pid attempt)
        (fits_new hpid _ _ _)
  | monitor child => exact ⟨hs.editChild child .watchOver, nofun⟩

theorem Announces.congr (hs : s.Announces info) (hevents : t.events = s.events)
    (hchildren : t.children = s.children) (hboot : t.boot = s.boot)
    (htask : ∀ spawn, t.task = .spawn spawn → s.task = .spawn spawn ∨ spawn.point.pid = none) :
    t.Announces info := by
  refine ⟨hs.toSent.congr hevents hchildren, hboot ▸ hs.boot, fun spawn hspawn pid hpid => ?_⟩
  rcases htask spawn hspawn with hold | hnone
  · exact hs.task spawn hold pid hpid
  · rw [hnone] at hpid
    cases hpid

/-- No handler sends an event, and a spawn that it starts has no pid yet. -/
theorem Announces.handle (hs : s.Announces config.info) (nowMs : UInt64)
    (message : ActorMessage) : (s.handle config nowMs message).Announces config.info := by
  cases message with
  | childExited pid status =>
    simp only [PrimitiveActor.handle, handleExited]
    split
    · exact hs
    · split
      · exact hs.congr rfl rfl rfl fun _ h => Or.inl h
      · exact hs.congr rfl rfl rfl fun _ h => Or.inl h
      · exact hs.congr rfl rfl rfl fun _ h => by cases h
      · exact hs.congr rfl rfl rfl fun _ h => by cases h
  | restartChild attempt =>
    simp only [PrimitiveActor.handle]
    split
    · exact hs
    · refine hs.congr rfl rfl rfl ?_
      rintro spawn ⟨⟩
      exact Or.inr rfl
  | stopPrimitive =>
    simp only [PrimitiveActor.handle]
    obtain ⟨signals, _, hsignal⟩ := signalChild_eq
      (({ s with shuttingDown := true } : PrimitiveActor).apply .stopRequested) s.childPid
    rw [hsignal]
    exact hs.congr rfl rfl rfl fun _ h => Or.inl h
  | _ => exact hs.congr rfl rfl rfl fun _ h => Or.inl h

theorem Announces.monitorStep (hs : s.Announces config.info) {i : ℕ} {c : Child}
    (hc : s.children[i]? = some c) (h : s.monitorStep config i c = some t) :
    t.Announces config.info := by
  have hpid : ∀ p ∈ some c.pid, PidFits p := by
    rintro p ⟨⟩
    exact hs.children c (List.mem_of_getElem? hc)
  obtain ⟨status, ⟨_, rfl⟩ | ⟨_, rfl⟩ | ⟨_, rfl⟩ | ⟨_, rfl⟩⟩ := monitorStep_cases h
  · exact ⟨hs.toSent.editChild i _, hs.boot, hs.task⟩
  · have hedit := hs.toSent.editChild i fun _ => .cleared status
    exact ⟨⟨hedit.events, hedit.children⟩, hs.boot, hs.task⟩
  · exact ⟨(hs.toSent.congr (t := s.post _) rfl rfl).editChild i _, hs.boot, hs.task⟩
  · refine ⟨Sent.editChild ?_ i _, hs.boot, hs.task⟩
    by_cases hclean : isCleanExit status = true
    · rw [if_pos hclean]
      exact hs.toSent.broadcast (createSystemEvent_stopped config.info (some c.pid))
        (.stopped c.pid) (fits_new hpid _ _ _)
    · rw [if_neg hclean]
      exact hs.toSent.broadcastError hpid _

theorem Announces.step (hs : s.Announces config.info) {a : ActorAction}
    (hpid : ∀ pid ∈ a.pid, PidFits pid) (h : step config s a = some t) :
    t.Announces config.info := by
  cases a with
  | send request =>
    cases h
    exact hs.congr rfl rfl rfl fun _ h => Or.inl h
  | deliver nowMs =>
    obtain ⟨message, mailbox, _, _, rfl⟩ := deliver_cases h
    have hpopped : ({ s with mailbox := mailbox } : PrimitiveActor).Announces config.info :=
      hs.congr rfl rfl rfl fun _ h => Or.inl h
    exact hpopped.handle nowMs message
  | bootStep outcome =>
    obtain ⟨spawn, hspawn, rfl⟩ := Option.map_eq_some_iff.mp h
    obtain ⟨hsent, hnext⟩ := hs.toSent.advance spawn.attempt hpid (hs.boot spawn hspawn)
    refine ⟨hsent.congr rfl rfl, fun later hlater => ?_, fun later hlater => ?_⟩
    · obtain ⟨next, hmem, rfl⟩ := Option.map_eq_some_iff.mp hlater
      exact hnext next hmem
    · have htask := (advance_futures config s spawn.attempt outcome spawn.point).2.1
      exact hs.task later (htask ▸ hlater)
  | taskStep outcome =>
    rcases taskStep_cases h with ⟨spawn, htask, rfl⟩ | ⟨attempt, _, rfl⟩ | ⟨reason, _, rfl⟩
    · obtain ⟨hsent, hnext⟩ := hs.toSent.advance spawn.attempt hpid (hs.task spawn htask)
      refine ⟨hsent.congr rfl rfl, ?_, fun later hlater => ?_⟩
      · have hboot := (advance_futures config s spawn.attempt outcome spawn.point).1
        exact hboot ▸ hs.boot
      · cases hmore : (s.advance config spawn.attempt outcome spawn.point).2 with
        | none =>
          rw [hmore] at hlater
          cases hlater
        | some next =>
          rw [hmore] at hlater
          cases hlater
          exact hnext next hmore
    · exact hs.congr rfl rfl rfl nofun
    · have hsent := hs.toSent.broadcastError (fun p hp => absurd hp (Option.not_mem_none p)) reason
      exact ⟨hsent.congr rfl rfl, hs.boot, nofun⟩
  | exit i status =>
    obtain ⟨c, holder, _, _, rfl⟩ := step_exit_cases h
    exact ⟨hs.toSent.editChild i _, hs.boot, hs.task⟩
  | monitorStep i =>
    obtain ⟨c, hc, h⟩ := Option.bind_eq_some_iff.mp h
    exact hs.monitorStep hc h
  | waitFails i =>
    obtain ⟨c, _, h⟩ := Option.bind_eq_some_iff.mp h
    rcases loseChild_cases h with ⟨_, rfl⟩ | ⟨status, _, rfl⟩
    · have hedit := hs.toSent.editChild i fun _ => .alive .nobody
      exact ⟨⟨hedit.events, hedit.children⟩, hs.boot, hs.task⟩
    · have hedit := hs.toSent.editChild i fun _ => .exited status .nobody
      exact ⟨⟨hedit.events, hedit.children⟩, hs.boot, hs.task⟩
  | kill pid =>
    cases h
    exact hs.congr rfl rfl rfl fun _ h => Or.inl h
  | requestStop =>
    cases h
    exact hs.congr rfl rfl rfl fun _ h => Or.inl h
  | terminate =>
    obtain ⟨signals, _, rfl⟩ := step_terminate_cases h
    exact hs.congr rfl rfl rfl fun _ h => Or.inl h

end PrimitiveActor

/-! ### The four readings of a run -/

/-- Which fields an event of this type has. -/
def EventType.Says : EventType → SystemEventPayload → Prop
  | .started, payload =>
    payload.pid.isSome = true ∧ payload.error = none ∧ payload.restartAttempt = none
  | .restarted, payload =>
    payload.pid.isSome = true ∧ payload.error = none ∧ payload.restartAttempt.isSome = true
  | .stopped, payload =>
    payload.pid.isSome = true ∧ payload.error = none ∧ payload.restartAttempt = none
  | .error, payload => payload.error.isSome = true ∧ payload.restartAttempt = none

/-- The event says what its type promises, and the SDKs read the same from it: what the
engine knows of the primitive, and all of the event but the attempt. -/
structure ReadsAlike (json : GoJson) (pydantic : Pydantic) (f : Number → Number)
    (info : PrimitiveInfo) (eventType : EventType) (event : SystemEvent) : Prop where
  named : event.messageType.value = eventType.forName info.name.value
  promised : eventType.Says event.payload
  rust : Rust.systemEvent event.payload.toValue = some event.payload.reading
  go : Go.systemEvent json event.payload.toValue = some event.payload.reading
  py : Py.systemEvent pydantic event.payload.toValue = some event.payload.reading
  ts : ∀ key ∈ systemEventKeys, (event.payload.toValue.mapNumbers f).get key =
    (event.payload.field key).map (Value.mapNumbers f)
  tsGuards : Ts.isSystemEventPayload (event.payload.toValue.mapNumbers f) = true ∧
    Ts.isSystemShutdownPayload (event.payload.toValue.mapNumbers f) = false ∧
    (Ts.isErrorEvent (event.payload.toValue.mapNumbers f) = true ↔ eventType = .error)
  own : event.payload.reading = ⟨info.name.value, info.kind.asStr, event.payload.reading.pid,
    info.publishes, info.subscribes, event.payload.error⟩

theorem asStr_kind (kind : PrimitiveKind) : kind.asStr ∈ primitiveKinds := by
  cases kind <;> decide

theorem readsAlike_of (json : GoJson) (pydantic : Pydantic) (f : Number → Number)
    {info : PrimitiveInfo} {eventType : EventType} {pid : Option Pid} {error : Option String}
    {attempt : Option UInt32} (hword : eventType.Says (.new info pid error attempt))
    (hfits : (SystemEventPayload.new info pid error attempt).Fits) :
    ReadsAlike json pydantic f info eventType
      (.of eventType info (.new info pid error attempt)) := by
  have hkind : (SystemEventPayload.new info pid error attempt).kind ∈ primitiveKinds :=
    asStr_kind info.kind
  have hguards := SystemEventPayload.ts_guards f hkind
  refine
    { named := rfl
      promised := hword
      rust := SystemEventPayload.rust_toValue hfits
      go := SystemEventPayload.go_toValue json hfits
      py := SystemEventPayload.py_toValue pydantic hfits hkind
      ts := fun _ hkey => SystemEventPayload.ts_toValue f _ hkey
      tsGuards := ⟨hguards.1, hguards.2.1, ?_⟩
      own := rfl }
  have herror : Ts.isErrorEvent ((SystemEventPayload.new info pid error attempt).toValue.mapNumbers
      f) = error.isSome := hguards.2.2
  show Ts.isErrorEvent ((SystemEventPayload.new info pid error attempt).toValue.mapNumbers f) =
    true ↔ _
  rw [herror]
  cases eventType with
  | error => exact iff_of_true hword.1 rfl
  | started | stopped | restarted =>
    have hnone : error = none := hword.2.1
    rw [hnone]
    exact iff_of_false nofun nofun

namespace PrimitiveActor
open TopologyPayload (PidFits)

/-- Whatever an actor goes through, its primitive's events say what their types promise
and read the same in all four SDKs. -/
theorem run_events_read_alike (json : GoJson) (pydantic : Pydantic) (f : Number → Number)
    {config : PrimitiveActorConfig} {as : List ActorAction} {s : PrimitiveActor}
    (hpids : ∀ a ∈ as, ∀ pid ∈ a.pid, PidFits pid)
    (hrun : run (step config) start as = some s) :
    ∀ event ∈ s.events, ∃ eventType, ReadsAlike json pydantic f config.info eventType event := by
  have hs : s.Announces config.info :=
    run_invariant_of_obeys (fun _ _ _ hs hpid h => hs.step hpid h) (announces_start config.info)
      (obeys_of_forall hpids start) hrun
  intro event hevent
  obtain ⟨hannounced, hfits⟩ := hs.events event hevent
  cases hannounced with
  | started pid => exact ⟨.started, readsAlike_of json pydantic f ⟨rfl, rfl, rfl⟩ hfits⟩
  | restarted pid attempt =>
    exact ⟨.restarted, readsAlike_of json pydantic f ⟨rfl, rfl, rfl⟩ hfits⟩
  | stopped pid => exact ⟨.stopped, readsAlike_of json pydantic f ⟨rfl, rfl, rfl⟩ hfits⟩
  | failed pid reason => exact ⟨.error, readsAlike_of json pydantic f ⟨rfl, rfl⟩ hfits⟩

/-- Keys in lower case are the same only when they are equal. -/
def lowerCaseGo : GoJson where
  equalFold := fun key key' => key = key'
  uint32 := fun
    | .posInt n => if n.toNat < 4294967296 then some (.posInt n) else none
    | _ => none
  equalFold_self := fun _ => decide_eq_true rfl
  equalFold_keys := fun _ _ _ _ h => of_decide_eq_true h
  posInt := fun _ h => if_pos h

theorem run_events_read_alike_timer :
    ∃ s, run (step timerActor) start (crashAndRestart 4) = some s ∧
      s.events.map (fun e => e.messageType.value) =
        ["system.started.timer", "system.error.timer", "system.restarted.timer"] ∧
      ∀ event ∈ s.events, ∃ eventType,
        ReadsAlike lowerCaseGo onlyPosInt id timerInfo eventType event := by
  have hevents : (run (step timerActor) start (crashAndRestart 4)).map
      (fun s => s.events.map fun e => e.messageType.value) =
      some ["system.started.timer", "system.error.timer", "system.restarted.timer"] := by decide
  obtain ⟨s, hrun, hs⟩ := Option.map_eq_some_iff.mp hevents
  refine ⟨s, hrun, hs, run_events_read_alike lowerCaseGo onlyPosInt id (fun a ha pid hpid => ?_)
    hrun⟩
  have hsmall : ∀ a ∈ crashAndRestart 4, ∀ pid ∈ a.pid, (pid : ℕ) < 4294967296 := by decide
  exact hsmall a ha pid hpid

end PrimitiveActor

end Emergent.Engine

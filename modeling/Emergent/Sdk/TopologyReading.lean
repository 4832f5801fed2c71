import Emergent.Sdk.QueryAnswers

/-!
# Reading a topology

What each SDK makes of the payload of a topology response: the derived
deserializer of `TopologyResponse` in Rust, `topologyFromPayload` of
`ts/src/client.ts`, `topologyStateFromWire` of `go/client.go` and
`topology_from_payload` of `py/emergent/_client.py`. Rust refuses the whole
payload at the first entry that does not decode, Go fills in what an entry lacks,
Python drops such an entry, and TypeScript hands on the entries as they came.

All four read a row as it was written, so long as its pid is a `u32` and its state
one that Python lists.
-/

namespace Emergent.Sdk

/-- A row as the SDKs hand it over; the pid is the number that was read. -/
structure TopologyPrimitive where
  name : String
  kind : String
  state : String
  publishes : List String
  subscribes : List String
  pid : Option Number
  error : Option String
  deriving Repr, DecidableEq

/-! ### Rust -/

def decodeList {α : Type} (decode : Value → Option α) : Value → Option (List α)
  | .array items => items.mapM decode
  | _ => none

namespace Rust

def pid : Value → Option Number
  | .number (.posInt n) => if n.toNat < 4294967296 then some (.posInt n) else none
  | _ => none

def topologyFields (name kind state publishes subscribes processId error : Value) :
    Option TopologyPrimitive := do
  let name ← name.asStr
  let kind ← kind.asStr
  let state ← state.asStr
  let publishes ← decodeStrings publishes
  let subscribes ← decodeStrings subscribes
  let pid ← decodeOption pid processId
  let error ← decodeOption Value.asStr error
  return { name, kind, state, publishes, subscribes, pid, error }

def topologyPrimitive : Value → Option TopologyPrimitive
  | .object fields => do
    let v := Value.object fields
    let name ← v.get "name"
    let kind ← v.get "kind"
    let state ← v.get "state"
    let publishes ← v.get "publishes"
    let subscribes ← v.get "subscribes"
    topologyFields name kind state publishes subscribes ((v.get "pid").getD .null)
      ((v.get "error").getD .null)
  | .array [name, kind, state, publishes, subscribes, processId, error] =>
    topologyFields name kind state publishes subscribes processId error
  | _ => none

def topologyResponse : Value → Option (List TopologyPrimitive)
  | .object fields => ((Value.object fields).get "primitives").bind (decodeList topologyPrimitive)
  | .array [primitives] => decodeList topologyPrimitive primitives
  | _ => none

end Rust

/-! ### The others -/

/-- The items of the `primitives` of a payload. -/
def listedPrimitives (payload : Value) : List Value :=
  match payload.get "primitives" with
  | some (.array items) => items
  | _ => []

/-- The entries with a name that is a string, as they are. -/
def Ts.topologyFromPayload (payload : Value) : List Value :=
  (listedPrimitives payload).filter fun entry => ((entry.get "name").bind Value.asStr).isSome

namespace Go

def wireUint32 (v : Value) : Option Number :=
  (wireUint64 v).bind fun n => if n.toNat ≤ 4294967295 then some (.posInt n) else none

def topologyPrimitiveFromWire (pm : Value) : TopologyPrimitive where
  name := ((pm.get "name").bind Value.asStr).getD ""
  kind := ((pm.get "kind").bind Value.asStr).getD ""
  state := ((pm.get "state").bind Value.asStr).getD ""
  publishes := stringItems (pm.get "publishes")
  subscribes := stringItems (pm.get "subscribes")
  pid := (pm.get "pid").bind wireUint32
  error := (pm.get "error").bind Value.asStr

def topologyStateFromWire (payload : Value) : List TopologyPrimitive :=
  ((listedPrimitives payload).filter Value.isObject).map topologyPrimitiveFromWire

end Go

namespace Py

/-- The literals of `PrimitiveState`. -/
def primitiveStates : List String :=
  ["configured", "starting", "running", "stopping", "stopped", "failed", "external"]

/-- `model_validate` over the defaults that the reader fills in. -/
def topologyPrimitive (pydantic : Pydantic) (entry : Value) : Option TopologyPrimitive := do
  let name ← ((entry.get "name").getD (.string "")).asStr
  let kind ← ((entry.get "kind").getD (.string "")).asStr
  let state ← (((entry.get "state").getD (.string "stopped")).asStr).filter primitiveStates.contains
  let publishes ← decodeStrings ((entry.get "publishes").getD (.array []))
  let subscribes ← decodeStrings ((entry.get "subscribes").getD (.array []))
  let pid ← decodeOption pydantic.int ((entry.get "pid").getD .null)
  let error ← optionalString (entry.get "error")
  return { name, kind, state, publishes, subscribes, pid, error }

def topologyFromPayload (pydantic : Pydantic) (payload : Value) : List TopologyPrimitive :=
  ((listedPrimitives payload).filter Value.isObject).filterMap (topologyPrimitive pydantic)

end Py

/-! ### A row as the engine writes it -/

def TopologyPrimitive.toValue (row : TopologyPrimitive) : Value :=
  .object [("name", .string row.name), ("kind", .string row.kind), ("state", .string row.state),
    ("publishes", .array (row.publishes.map .string)),
    ("subscribes", .array (row.subscribes.map .string)),
    ("pid", (row.pid.map .number).getD .null), ("error", (row.error.map .string).getD .null)]

def topologyValue (rows : List TopologyPrimitive) : Value :=
  .object [("primitives", .array (rows.map TopologyPrimitive.toValue))]

/-- The pid is a `u32`, and the state is one of those that Python lists. -/
structure TopologyPrimitive.Plain (row : TopologyPrimitive) : Prop where
  pid : ∀ n ∈ row.pid, ∃ m : UInt64, n = .posInt m ∧ m.toNat < 4294967296
  state : row.state ∈ Py.primitiveStates

theorem mapM_asStr (topics : List String) :
    (topics.map Value.string).mapM Value.asStr = some topics := by
  induction topics with
  | nil => rfl
  | cons topic topics ih => simp [List.mapM_cons, ih, Value.asStr]

theorem decodeStrings_strings (topics : List String) :
    decodeStrings (.array (topics.map .string)) = some topics := mapM_asStr topics

theorem stringItems_strings (topics : List String) :
    stringItems (some (.array (topics.map .string))) = topics := by
  rw [stringItems, List.filterMap_map]
  exact List.filterMap_some

section
variable {row : TopologyPrimitive}

theorem decodeOption_pid {decode : Value → Option Number} {pid : Option Number}
    (h : ∀ n ∈ pid, decode (.number n) = some n) :
    decodeOption decode ((pid.map Value.number).getD .null) = some pid := by
  cases pid with
  | none => rfl
  | some n => simp [decodeOption, h n rfl]

theorem decodeOption_error (error : Option String) :
    decodeOption Value.asStr ((error.map Value.string).getD .null) = some error := by
  cases error <;> rfl

theorem Rust.topologyPrimitive_toValue (h : row.Plain) :
    Rust.topologyPrimitive row.toValue = some row := by
  have hpid : decodeOption Rust.pid ((row.pid.map Value.number).getD .null) = some row.pid := by
    apply decodeOption_pid
    intro n hn
    obtain ⟨m, rfl, hm⟩ := h.pid n hn
    simp [Rust.pid, hm]
  have hfields : Rust.topologyPrimitive row.toValue =
      Rust.topologyFields (.string row.name) (.string row.kind) (.string row.state)
        (.array (row.publishes.map .string)) (.array (row.subscribes.map .string))
        ((row.pid.map .number).getD .null) ((row.error.map .string).getD .null) := rfl
  rw [hfields, Rust.topologyFields, decodeStrings_strings, decodeStrings_strings, hpid,
    decodeOption_error]
  rfl

theorem Go.topologyPrimitive_toValue (h : row.Plain) :
    Go.topologyPrimitiveFromWire row.toValue = row := by
  have hpid : (row.toValue.get "pid").bind Go.wireUint32 = row.pid := by
    have hget : row.toValue.get "pid" = some ((row.pid.map .number).getD .null) := rfl
    rw [hget]
    cases hrow : row.pid with
    | none => rfl
    | some n =>
      obtain ⟨m, rfl, hm⟩ := h.pid n hrow
      have hle : m.toNat ≤ 4294967295 := by omega
      simp [Go.wireUint32, Go.wireUint64, hle]
  have herror : (row.toValue.get "error").bind Value.asStr = row.error := by
    have hget : row.toValue.get "error" = some ((row.error.map .string).getD .null) := rfl
    rw [hget]
    cases row.error <;> rfl
  have hpublishes : stringItems (row.toValue.get "publishes") = row.publishes :=
    stringItems_strings row.publishes
  have hsubscribes : stringItems (row.toValue.get "subscribes") = row.subscribes :=
    stringItems_strings row.subscribes
  rw [Go.topologyPrimitiveFromWire, hpid, herror, hpublishes, hsubscribes]
  rfl

theorem Py.topologyPrimitive_toValue (pydantic : Pydantic) (h : row.Plain) :
    Py.topologyPrimitive pydantic row.toValue = some row := by
  have hpid : decodeOption pydantic.int ((row.toValue.get "pid").getD .null) = some row.pid := by
    apply decodeOption_pid
    intro n hn
    obtain ⟨m, rfl, _⟩ := h.pid n hn
    exact pydantic.posInt m
  have herror : optionalString (row.toValue.get "error") = some row.error := by
    have hget : row.toValue.get "error" = some ((row.error.map .string).getD .null) := rfl
    rw [hget]
    cases row.error <;> rfl
  have hstate : (((row.toValue.get "state").getD (.string "stopped")).asStr).filter
      Py.primitiveStates.contains = some row.state := by
    have hget : ((row.toValue.get "state").getD (.string "stopped")).asStr = some row.state := rfl
    have hmem : Py.primitiveStates.contains row.state = true := List.contains_iff_mem.mpr h.state
    rw [hget, Option.filter, hmem]
    rfl
  have hpublishes : decodeStrings ((row.toValue.get "publishes").getD (.array [])) =
    some row.publishes := decodeStrings_strings row.publishes
  have hsubscribes : decodeStrings ((row.toValue.get "subscribes").getD (.array [])) =
    some row.subscribes := decodeStrings_strings row.subscribes
  rw [Py.topologyPrimitive, hstate, hpublishes, hsubscribes, hpid, herror]
  rfl

end

/-! ### A whole topology -/

section
variable {rows : List TopologyPrimitive}

theorem listedPrimitives_topologyValue (rows : List TopologyPrimitive) :
    listedPrimitives (topologyValue rows) = rows.map TopologyPrimitive.toValue := rfl

theorem rows_isObject (rows : List TopologyPrimitive) :
    (rows.map TopologyPrimitive.toValue).filter Value.isObject =
      rows.map TopologyPrimitive.toValue := by
  rw [List.filter_eq_self]
  intro v hv
  obtain ⟨row, _, rfl⟩ := List.mem_map.mp hv
  rfl

theorem Rust.topologyResponse_topologyValue (h : ∀ row ∈ rows, row.Plain) :
    Rust.topologyResponse (topologyValue rows) = some rows := by
  have hrows : (rows.map TopologyPrimitive.toValue).mapM Rust.topologyPrimitive = some rows := by
    induction rows with
    | nil => rfl
    | cons row rows ih =>
      rw [List.map_cons, List.mapM_cons, topologyPrimitive_toValue (h row List.mem_cons_self),
        ih fun r hr => h r (List.mem_cons_of_mem row hr)]
      rfl
  exact hrows

theorem Go.topologyStateFromWire_topologyValue (h : ∀ row ∈ rows, row.Plain) :
    Go.topologyStateFromWire (topologyValue rows) = rows := by
  rw [Go.topologyStateFromWire, listedPrimitives_topologyValue, rows_isObject, List.map_map]
  refine (List.map_congr_left fun row hrow => ?_).trans (List.map_id rows)
  exact topologyPrimitive_toValue (h row hrow)

theorem Py.topologyFromPayload_topologyValue (pydantic : Pydantic) (h : ∀ row ∈ rows, row.Plain) :
    Py.topologyFromPayload pydantic (topologyValue rows) = rows := by
  rw [Py.topologyFromPayload, listedPrimitives_topologyValue, rows_isObject, List.filterMap_map]
  refine (List.filterMap_congr fun row hrow => ?_).trans List.filterMap_some
  exact topologyPrimitive_toValue pydantic (h row hrow)

theorem mapItems_map {α : Type} (f : Number → Number) (g : α → Value) (items : List α) :
    mapItems f (items.map g) = items.map fun item => (g item).mapNumbers f := by
  induction items with
  | nil => rfl
  | cons item items ih => rw [List.map_cons, List.map_cons, mapItems, ih]

theorem Ts.topologyFromPayload_topologyValue (f : Number → Number)
    (rows : List TopologyPrimitive) :
    Ts.topologyFromPayload ((topologyValue rows).mapNumbers f) =
      rows.map fun row => row.toValue.mapNumbers f := by
  have hlisted : listedPrimitives ((topologyValue rows).mapNumbers f) =
      rows.map fun row => row.toValue.mapNumbers f := by
    rw [← mapItems_map]
    rfl
  rw [Ts.topologyFromPayload, hlisted, List.filter_eq_self]
  intro v hv
  obtain ⟨row, _, rfl⟩ := List.mem_map.mp hv
  rfl

end

/-! ### The topics of a primitive -/

theorem subscribesFromPayload_strings (topics : List String) :
    subscribesFromPayload (.object [("subscribes", .array (topics.map .string))]) = topics :=
  stringItems_strings topics

theorem subscribesFromPayload_mapNumbers (f : Number → Number) (topics : List String) :
    subscribesFromPayload
        ((Value.object [("subscribes", .array (topics.map .string))]).mapNumbers f) = topics := by
  have hitems : (Value.object [("subscribes", .array (topics.map .string))]).mapNumbers f =
      .object [("subscribes", .array (topics.map .string))] := by
    have hstrings : mapItems f (topics.map Value.string) = topics.map Value.string :=
      mapItems_map f Value.string topics
    simp only [Value.mapNumbers, mapFields, hstrings]
  rw [hitems]
  exact subscribesFromPayload_strings topics

theorem Rust.subscriptionsResponse_strings (topics : List String) :
    Rust.subscriptionsResponse (.object [("subscribes", .array (topics.map .string))]) =
      some topics := decodeStrings_strings topics

end Emergent.Sdk

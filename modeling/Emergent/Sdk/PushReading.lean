import Emergent.Sdk.PushRouting

/-!
# What the SDKs read in a pushed message

The four decoders read a message of the broker as it was sent, with null
metadata as none. JavaScript has one kind of number, so what TypeScript reads
has its numbers as doubles.
-/

namespace Emergent.Sdk
open Kit.Text

/-! ### What each reads in a message of the broker -/

theorem get_toValue (m : EmergentMessage) :
    m.toValue.get "id" = some (.string m.id.id.toStr) ∧
      m.toValue.get "message_type" = some (.string m.messageType.value) ∧
      m.toValue.get "source" = some (.string m.source.value) ∧
      m.toValue.get "correlation_id" = m.correlationId.map (fun id => .string id.id.toStr) ∧
      m.toValue.get "causation_id" = m.causationId.map (fun id => .string id.id.toStr) ∧
      m.toValue.get "timestamp_ms" = some (.number (.posInt m.timestampMs)) ∧
      m.toValue.get "payload" = some m.payload ∧
      m.toValue.get "metadata" = m.metadata ∧ m.toValue.get "kind" = none := by
  cases m with
  | mk id messageType source correlationId causationId timestampMs payload metadata =>
    cases correlationId <;> cases causationId <;> cases metadata <;>
      exact ⟨rfl, rfl, rfl, rfl, rfl, rfl, rfl, rfl, rfl⟩

/-- The message as it arrives: null metadata is none. -/
def EmergentMessage.arriving (m : EmergentMessage) : WireMessage :=
  { m.view with metadata := m.metadata.filter notNull }

theorem optionalString_map (s : Option String) :
    optionalString (s.map Value.string) = some s := by
  cases s <;> rfl

theorem optionalString_toValue (m : EmergentMessage) :
    optionalString (m.toValue.get "correlation_id") = some m.view.correlationId ∧
      optionalString (m.toValue.get "causation_id") = some m.view.causationId := by
  obtain ⟨_, _, _, hcorrelation, hcausation, _⟩ := get_toValue m
  rw [hcorrelation, hcausation]
  constructor
  · rw [EmergentMessage.view, ← optionalString_map, Option.map_map]
    rfl
  · rw [EmergentMessage.view, ← optionalString_map, Option.map_map]
    rfl

theorem readWireMessage_toValue {timestamp : Value → Option Number} (m : EmergentMessage)
    (h : timestamp (.number (.posInt m.timestampMs)) = some (.posInt m.timestampMs)) :
    readWireMessage timestamp m.toValue = some m.arriving := by
  obtain ⟨hid, htype, hsource, _, _, htime, hpayload, hmetadata, _⟩ := get_toValue m
  obtain ⟨hcor, hcau⟩ := optionalString_toValue m
  simp only [readWireMessage, hid, htype, hsource, hcor, hcau, htime, hpayload, hmetadata,
    Option.bind_some, Value.asStr, h]
  rfl

theorem toStr_ne_empty (id : TypeId) : id.toStr ≠ "" := by
  intro h
  have hlength := congrArg String.length h
  rw [TypeId.toStr, String.length_append, String.length_append] at hlength
  have hempty : "".length = 0 := rfl
  have hone : "_".length = 1 := rfl
  omega

theorem filter_toStr {accepted : List String} (id : Option (TaggedId accepted)) :
    (id.map fun id => id.id.toStr).filter (fun s => s != "") = id.map fun id => id.id.toStr := by
  cases id with
  | none => rfl
  | some id => simp [Option.filter, toStr_ne_empty]

theorem Ts.wireMessageFromPush_toValue (m : EmergentMessage) :
    Ts.wireMessageFromPush m.toValue = some m.arriving :=
  readWireMessage_toValue m rfl

theorem Py.wireMessageFromPush_toValue (pydantic : Pydantic) (m : EmergentMessage) :
    Py.wireMessageFromPush pydantic m.toValue = some m.arriving :=
  readWireMessage_toValue m (pydantic.posInt m.timestampMs)

theorem Go.wireMessageFromPush_toValue (m : EmergentMessage) :
    Go.wireMessageFromPush m.toValue = some m.arriving := by
  rw [Go.wireMessageFromPush, readWireMessage_toValue m rfl]
  simp only [Option.map_some, EmergentMessage.arriving, EmergentMessage.view, filter_toStr]

/-- The identifiers of the message are read back by the parser of the engine's
own library. -/
structure IdsRead (fromStr : String → Option TypeId) (m : EmergentMessage) : Prop where
  id : fromStr m.id.id.toStr = some m.id.id
  correlation : ∀ id ∈ m.correlationId, fromStr id.id.toStr = some id.id
  causation : ∀ id ∈ m.causationId, fromStr id.id.toStr = some id.id

section
variable {fromStr : String → Option TypeId} {m : EmergentMessage}

theorem decodeOption_ids {accepted : List String} {expected : String}
    {id : Option (TaggedId accepted)} (h : ∀ i ∈ id, fromStr i.id.toStr = some i.id) :
    decodeOption (decodeString (parseId fromStr accepted expected))
      ((id.map fun id => Value.string id.id.toStr).getD .null) = some id := by
  cases id with
  | none => rfl
  | some id =>
    have hparse : parseId fromStr accepted expected id.id.toStr = .ok id :=
      parseId_documented (h id rfl)
    simp only [Option.map_some, Option.getD_some, decodeOption, decodeString, Value.asStr,
      Option.bind_some, hparse, Except.toOption]

/-- What the engine serialises is decoded as it was, null metadata as none. -/
theorem fromValue_toValue (h : IdsRead fromStr m) :
    EmergentMessage.fromValue fromStr m.toValue =
      some { m with metadata := m.metadata.filter notNull } := by
  obtain ⟨hid, htype, hsource, hcorrelation, hcausation, htime, hpayload, hmetadata, _⟩ :=
    get_toValue m
  have hdmeta : decodeOption some (m.metadata.getD .null) =
      some (m.metadata.filter notNull) := by
    cases m.metadata with
    | none => rfl
    | some v => cases v <;> rfl
  rw [fromValue_of_get hid htype hsource htime hpayload, hcorrelation, hcausation, hmetadata]
  exact decodeFields_eq_some.mpr ⟨decodeString_parse.mpr h.id,
    decodeString_messageType m.messageType, decodeString_primitiveName m.source,
    decodeOption_ids h.correlation, decodeOption_ids h.causation, rfl, rfl, hdmeta⟩

end

/-! ### Numbers -/

mutual

def Value.mapNumbers (f : Number → Number) : Value → Value
  | .null => .null
  | .bool b => .bool b
  | .number n => .number (f n)
  | .string s => .string s
  | .array items => .array (mapItems f items)
  | .object fields => .object (mapFields f fields)

def mapItems (f : Number → Number) : List Value → List Value
  | [] => []
  | v :: items => v.mapNumbers f :: mapItems f items

def mapFields (f : Number → Number) : List (String × Value) → List (String × Value)
  | [] => []
  | (key, v) :: fields => (key, v.mapNumbers f) :: mapFields f fields

end

/-- The double a number is read as. -/
structure Doubles where
  read : Number → Number
  read_read : ∀ n, read (read n) = read n

def WireMessage.mapNumbers (f : Number → Number) (wire : WireMessage) : WireMessage :=
  { wire with
    timestampMs := f wire.timestampMs
    payload := wire.payload.mapNumbers f
    metadata := wire.metadata.map (Value.mapNumbers f) }

section
variable (f : Number → Number)

theorem lookup_mapFields (key : String) (fields : List (String × Value)) :
    (mapFields f fields).lookup key = (fields.lookup key).map (Value.mapNumbers f) := by
  induction fields with
  | nil => rfl
  | cons entry fields ih =>
    obtain ⟨k, v⟩ := entry
    rw [mapFields, List.lookup_cons, List.lookup_cons, ih]
    cases key == k <;> rfl

theorem get_mapNumbers (v : Value) (key : String) :
    (v.mapNumbers f).get key = (v.get key).map (Value.mapNumbers f) := by
  cases v with
  | object fields =>
    rw [Value.mapNumbers, Value.get, Value.get]
    exact lookup_mapFields f key fields
  | _ => rfl

theorem asStr_mapNumbers (v : Value) : (v.mapNumbers f).asStr = v.asStr := by
  cases v <;> rfl

theorem bind_asStr_mapNumbers (v : Option Value) :
    (v.map (Value.mapNumbers f)).bind Value.asStr = v.bind Value.asStr := by
  cases v with
  | none => rfl
  | some v => exact asStr_mapNumbers f v

theorem optionalString_mapNumbers (v : Option Value) :
    optionalString (v.map (Value.mapNumbers f)) = optionalString v := by
  cases v with
  | none => rfl
  | some v => cases v <;> rfl

end

mutual

theorem mapNumbers_mapNumbers {f : Number → Number} (hf : ∀ n, f (f n) = f n) (v : Value) :
    (v.mapNumbers f).mapNumbers f = v.mapNumbers f := by
  cases v with
  | number n => rw [Value.mapNumbers, Value.mapNumbers, hf]
  | array items => rw [Value.mapNumbers, Value.mapNumbers, mapItems_mapItems hf]
  | object fields => rw [Value.mapNumbers, Value.mapNumbers, mapFields_mapFields hf]
  | _ => rfl

theorem mapItems_mapItems {f : Number → Number} (hf : ∀ n, f (f n) = f n) (items : List Value) :
    mapItems f (mapItems f items) = mapItems f items := by
  cases items with
  | nil => rfl
  | cons v items =>
    rw [mapItems, mapItems, mapNumbers_mapNumbers hf v, mapItems_mapItems hf items]

theorem mapFields_mapFields {f : Number → Number} (hf : ∀ n, f (f n) = f n)
    (fields : List (String × Value)) : mapFields f (mapFields f fields) = mapFields f fields := by
  cases fields with
  | nil => rfl
  | cons entry fields =>
    obtain ⟨key, v⟩ := entry
    rw [mapFields, mapFields, mapNumbers_mapNumbers hf v, mapFields_mapFields hf fields]

end

theorem WireMessage.mapNumbers_mapNumbers {f : Number → Number} (hf : ∀ n, f (f n) = f n)
    (wire : WireMessage) : (wire.mapNumbers f).mapNumbers f = wire.mapNumbers f := by
  have hmetadata : (wire.metadata.map (Value.mapNumbers f)).map (Value.mapNumbers f) =
      wire.metadata.map (Value.mapNumbers f) := by
    cases wire.metadata with
    | none => rfl
    | some v => exact congrArg some (Emergent.Sdk.mapNumbers_mapNumbers hf v)
  simp only [WireMessage.mapNumbers, hf, Emergent.Sdk.mapNumbers_mapNumbers hf, hmetadata]

/-! ### What TypeScript reads -/

/-- A message whose numbers were read is the message with its numbers read. -/
theorem Ts.wireMessageFromPush_mapNumbers (f : Number → Number) (m : EmergentMessage) :
    Ts.wireMessageFromPush (m.toValue.mapNumbers f) = some (m.arriving.mapNumbers f) := by
  obtain ⟨hid, htype, hsource, _, _, htime, hpayload, hmetadata, _⟩ := get_toValue m
  obtain ⟨hcor, hcau⟩ := optionalString_toValue m
  have hmeta : (m.metadata.map (Value.mapNumbers f)).filter notNull =
      (m.metadata.filter notNull).map (Value.mapNumbers f) := by
    cases m.metadata with
    | none => rfl
    | some v => cases v <;> rfl
  simp only [Ts.wireMessageFromPush, readWireMessage, get_mapNumbers, optionalString_mapNumbers,
    hid, htype, hsource, htime, hpayload, hmetadata, hcor, hcau, Option.bind_some, Value.asStr,
    Option.map_some, Value.mapNumbers, Ts.timestamp, hmeta]
  rfl

theorem extractShutdownKind_mapNumbers (f : Number → Number) (v : Value) :
    extractShutdownKind (v.mapNumbers f) = extractShutdownKind v := by
  have hkind : ∀ w : Value, kindOf (w.mapNumbers f) = kindOf w := by
    intro w
    rw [kindOf, kindOf, get_mapNumbers, bind_asStr_mapNumbers]
  rw [extractShutdownKind, extractShutdownKind, get_mapNumbers, hkind]
  cases v.get "payload" with
  | none => rfl
  | some w => rw [Option.map_some, Option.bind_some, Option.bind_some, hkind]

/-! ### The end of a stream -/

/-- A kind in lower case has nothing left for an ASCII comparison to fold. -/
theorem eqIgnoreAsciiCase_toLowercase (s : String) (kind : SubscriberKind) :
    eqIgnoreAsciiCase (toLowercase s) kind.lower = true ↔ toLowercase s = kind.lower := by
  have hlower : (toLowercase s).map Char.toLower = toLowercase s := by
    rw [toLowercase, String.map_map]
    apply map_congr_on
    intro c _
    rw [Function.comp]
    split
    · rfl
    · exact toLower_toLower c
  have hkind : kind.lower.map Char.toLower = kind.lower := by
    apply map_eq_of_toList
    cases kind <;> decide
  rw [eqIgnoreAsciiCase, beq_iff_eq, hlower, hkind]

/-- The text of a kind that Go folds as the others do: neither the capital I
with a dot nor the long s is in it. -/
def PlainKind (s : String) : Prop := '\u0130' ∉ s.toList ∧ '\u017F' ∉ s.toList

theorem equalFold_toLower {s : String} (h : PlainKind s) (kind : SubscriberKind) :
    Go.equalFold (Go.toLower s) kind.name = true ↔ toLowercase s = kind.lower := by
  have hlower : Go.toLower s = toLowercase s := by
    apply map_congr_on
    intro c hc
    have hdotted : c ≠ '\u0130' := by
      intro heq
      exact h.1 (heq ▸ hc)
    rw [if_neg hdotted]
  have hfold : (toLowercase s).map Go.fold = toLowercase s := by
    rw [toLowercase, String.map_map]
    apply map_congr_on
    intro c hc
    rw [Function.comp]
    split
    · decide
    · rename_i hkelvin
      have hlong : c.toLower ≠ '\u017F' := by
        intro heq
        exact h.2 (eq_of_toLower_eq (by decide) heq ▸ hc)
      have hkelvin' : c.toLower ≠ '\u212A' := by
        intro heq
        exact hkelvin (eq_of_toLower_eq (by decide) heq)
      rw [Go.fold, if_neg hlong, if_neg hkelvin', toLower_toLower]
  have hkind : kind.name.map Go.fold = kind.lower := by
    apply map_eq_of_toList
    cases kind <;> decide
  rw [Go.equalFold, beq_iff_eq, hlower, hfold, hkind]

theorem extractShutdownKind_toValue (m : EmergentMessage) :
    extractShutdownKind m.toValue = kindOf m.payload ∧
      Go.extractShutdownKind m.toValue = Go.shutdownKindOf m.payload := by
  obtain ⟨_, _, _, _, _, _, hpayload, _, hkind⟩ := get_toValue m
  simp only [extractShutdownKind, Go.extractShutdownKind, kindOf, Go.shutdownKindOf, hpayload,
    hkind, Option.bind_some, Option.bind_none, Option.map_none, Option.or_none, and_self]

theorem closes_iff (m : EmergentMessage) (kind : SubscriberKind) :
    (notificationOf m).closes kind.lower = true ↔ kindOf m.payload = some kind.lower := by
  have hclose : (notificationOf m).closes kind.lower =
      (kindOf m.payload).any fun k => eqIgnoreAsciiCase k kind.lower := by
    rw [IpcPushNotification.closes, notificationOf, (extractShutdownKind_toValue m).1]
  rw [hclose, kindOf]
  cases (m.payload.get "kind").bind Value.asStr with
  | none => simp
  | some s =>
    rw [Option.map_some, Option.any_some, eqIgnoreAsciiCase_toLowercase, Option.some.injEq]

theorem Go.closes_iff {m : EmergentMessage} (kind : SubscriberKind)
    (h : ∀ s, m.payload.get "kind" = some (.string s) → PlainKind s) :
    ((Go.extractShutdownKind m.toValue).any fun k => Go.equalFold k kind.name) = true ↔
      kindOf m.payload = some kind.lower := by
  rw [(extractShutdownKind_toValue m).2, Go.shutdownKindOf, kindOf]
  cases hkind : (m.payload.get "kind").bind Value.asStr with
  | none => simp
  | some s =>
    obtain ⟨v, hv, hs⟩ := Option.bind_eq_some_iff.mp hkind
    rw [Value.asStr_eq_some.mp hs] at hv
    rw [Option.map_some, Option.map_some, Option.any_some, equalFold_toLower (h s hv),
      Option.some.injEq]

/-! ### Names that are message types -/

theorem matchesSegments_iff (fresh : Bool) (cs : List Char) :
    matchesSegments fresh cs = true ↔
      (fresh = true → cs ≠ [] ∧ cs.head? ≠ some '.') ∧ cs.getLast? ≠ some '.' ∧
        ¬ ['.', '.'] <:+: cs ∧ cs.all typeChar = true := by
  induction cs generalizing fresh with
  | nil => cases fresh <;> simp [matchesSegments]
  | cons c cs ih =>
    rw [matchesSegments, List.infix_cons_iff, List.all_cons]
    by_cases hdot : c = '.'
    · subst hdot
      rw [if_pos rfl, Bool.and_eq_true, ih true]
      have htype : typeChar '.' = true := by decide
      cases cs with
      | nil => cases fresh <;> simp
      | cons d ds =>
        have hpair : ['.', '.'] <+: '.' :: d :: ds ↔ d = '.' := by
          rw [List.cons_prefix_cons, List.cons_prefix_cons]
          simp [eq_comm]
        rw [hpair, htype, List.getLast?_cons_cons]
        cases fresh <;> simp only [List.head?_cons, ne_eq, Option.some.injEq] <;> grind
    · have hpair : ¬ ['.', '.'] <+: c :: cs := by
        intro hprefix
        exact hdot (List.cons_prefix_cons.mp hprefix).1.symm
      have hchar : typeChar c = (c.isLower || c.isDigit || c == '-' || c == '_') := by
        have hne : (c == '.') = false := beq_false_of_ne hdot
        rw [typeChar, hne, Bool.or_false]
      have hlast : (c :: cs).getLast? = some '.' ↔ cs.getLast? = some '.' := by
        cases cs with
        | nil => simp [hdot]
        | cons d ds => rw [List.getLast?_cons_cons]
      rw [if_neg hdot, Bool.and_eq_true, ih false, hchar]
      simp only [List.head?_cons, Option.some.injEq, hdot, Bool.and_eq_true, ne_eq, hlast]
      grind

theorem isEmergentMessageType_iff (messageType : String) :
    isEmergentMessageType messageType = true ↔ ValidMessageType messageType := by
  rw [isEmergentMessageType, matchesSegments_iff, ValidMessageType]
  grind

theorem Py.isEmergentMessageType_iff {messageType : String} (h : '\n' ∉ messageType.toList) :
    Py.isEmergentMessageType messageType = true ↔ ValidMessageType messageType := by
  have hlast : (messageType.toList.getLast? == some '\n') = false := by
    apply beq_false_of_ne
    intro heq
    exact h (List.mem_of_getLast? heq)
  rw [Py.isEmergentMessageType, hlast, Bool.false_and, Bool.or_false,
    ← Emergent.Sdk.isEmergentMessageType_iff, Emergent.Sdk.isEmergentMessageType]

theorem carriesEmergentMessage_iff (messageType : String) :
    carriesEmergentMessage messageType = true ↔ ValidMessageType messageType := by
  rw [carriesEmergentMessage]
  constructor
  · intro h
    cases ht : MessageType.new messageType with
    | error e =>
      rw [ht] at h
      cases h
    | ok t =>
      rw [← MessageType.new_value ht]
      exact t.valid
  · intro h
    rw [MessageType.new_of_valid h]
    rfl

theorem MessageType.no_line_break (t : MessageType) : '\n' ∉ t.value.toList := by
  intro h
  have hchar := List.all_eq_true.mp t.valid.2.2.2 _ h
  cases hchar

end Emergent.Sdk

import Emergent.Engine.EventStore
import Emergent.Sdk.Bridge
import Emergent.Kit.Fallible
import Emergent.Kit.Runs

/-!
# The rows of the event table (`emergent-engine/src/event_store/sqlite.rs`)

`store` turns a message into the eight columns of a row and replaces the row of
the same id; a query selects rows, orders them by time and reads each one back.
The text forms of TypeIDs and of JSON values come from other crates: a `Codec`
has them as functions, and `Documented` says what is used of them for one
message.
-/

namespace Emergent.Sdk

namespace Value

-- the value itself counts as a level, and so does what a container holds
mutual
def depth : Value → ℕ
  | .array items => depths items + 1
  | .object fields => fieldDepths fields + 1
  | _ => 1

def depths : List Value → ℕ
  | [] => 1
  | v :: vs => max v.depth (depths vs)

def fieldDepths : List (String × Value) → ℕ
  | [] => 1
  | (_, v) :: fields => max v.depth (fieldDepths fields)
end

end Value

end Emergent.Sdk

namespace Emergent.Engine
open Kit Emergent.Sdk

/-- `MagicTypeId::from_str`, `serde_json::to_string` and `serde_json::from_str`. -/
structure Codec where
  fromStr : String → Option TypeId
  toJson : Value → String
  fromJson : String → Option Value

/-- The recursion limit of `serde_json::from_str`. -/
def jsonDepthLimit : ℕ := 128

/-- A JSON text is read back as the value it was written from, unless that is
nested too deep, and then it is refused. -/
def Codec.Reads (c : Codec) (v : Value) : Prop :=
  c.fromJson (c.toJson v) = if v.depth ≤ jsonDepthLimit then some v else none

structure Codec.Documented (c : Codec) (m : EmergentMessage) : Prop where
  id : c.fromStr m.id.id.toStr = some m.id.id
  correlation : ∀ id ∈ m.correlationId, c.fromStr id.id.toStr = some id.id
  causation : ∀ id ∈ m.causationId, c.fromStr id.id.toStr = some id.id
  payload : c.Reads m.payload
  metadata : ∀ v ∈ m.metadata, c.Reads v

structure EventRow where
  id : String
  messageType : String
  source : String
  correlationId : Option String
  causationId : Option String
  timestampMs : ℤ
  payloadJson : String
  metadataJson : Option String
  deriving Repr, DecidableEq

section
variable (c : Codec)

/-- The columns of a message whose timestamp an `i64` holds. -/
def toRow (m : EmergentMessage) : EventRow where
  id := m.id.id.toStr
  messageType := m.messageType.value
  source := m.source.value
  correlationId := m.correlationId.map fun id => id.id.toStr
  causationId := m.causationId.map fun id => id.id.toStr
  timestampMs := m.timestampMs.toNat
  payloadJson := c.toJson m.payload
  metadataJson := m.metadata.map c.toJson

def insertOrReplace (rows : List EventRow) (row : EventRow) : List EventRow :=
  rows.filter (fun other => other.id ≠ row.id) ++ [row]

def storeRow (rows : List EventRow) (m : EmergentMessage) :
    Except EventStoreError (List EventRow) :=
  if FitsI64 m.timestampMs then .ok (insertOrReplace rows (toRow c m)) else .error .sqlite

/-- A `TEXT` column read with the parser of its type. -/
def readColumn {ε β : Type} (parse : String → Except ε β) (text : String) :
    Except EventStoreError β :=
  (parse text).mapError fun _ => .sqlite

def readOptional {ε β : Type} (parse : String → Except ε β) :
    Option String → Except EventStoreError (Option β)
  | none => .ok none
  | some text => (readColumn parse text).map some

def readTimestamp (timestampMs : ℤ) : Except EventStoreError UInt64 :=
  if 0 ≤ timestampMs then .ok (UInt64.ofNat timestampMs.toNat) else .error .sqlite

def rowToMessage (row : EventRow) : Except EventStoreError EmergentMessage := do
  let id ← readColumn (MessageId.parse c.fromStr) row.id
  let messageType ← readColumn MessageType.new row.messageType
  let source ← readColumn PrimitiveName.new row.source
  let correlationId ← readOptional (CorrelationId.parse c.fromStr) row.correlationId
  let causationId ← readOptional (CausationId.parse c.fromStr) row.causationId
  let timestampMs ← readTimestamp row.timestampMs
  return { id, messageType, source, correlationId, causationId, timestampMs,
           payload := (c.fromJson row.payloadJson).getD .null
           metadata := row.metadataJson.bind c.fromJson }

end

/-- The three `SELECT`s, each `ORDER BY timestamp_ms ASC`. -/
inductive EventQuery where
  | byType (messageType : String)
  | byTimeRange (startMs endMs : UInt64)
  | byCorrelation (correlationId : String)
  deriving Repr, DecidableEq

namespace EventQuery

/-- The arguments can be bound: SQLite has no integer above `i64::MAX`. -/
def Binds : EventQuery → Prop
  | .byTimeRange startMs endMs => FitsI64 startMs ∧ FitsI64 endMs
  | _ => True

instance (q : EventQuery) : Decidable q.Binds :=
  match q with
  | .byTimeRange _ _ => inferInstanceAs (Decidable (_ ∧ _))
  | .byType _ | .byCorrelation _ => isTrue trivial

def selects : EventQuery → EventRow → Bool
  | .byType messageType, row => row.messageType = messageType
  | .byTimeRange startMs endMs, row =>
    (startMs.toNat : ℤ) ≤ row.timestampMs ∧ row.timestampMs ≤ (endMs.toNat : ℤ)
  | .byCorrelation correlationId, row => row.correlationId = some correlationId

/-- The message is one the query asks for. -/
def Wants : EventQuery → EmergentMessage → Prop
  | .byType messageType, m => m.messageType.value = messageType
  | .byTimeRange startMs endMs, m => startMs ≤ m.timestampMs ∧ m.timestampMs ≤ endMs
  | .byCorrelation correlationId, m =>
    ∃ id ∈ m.correlationId, id.id.toStr = correlationId

def ask (c : Codec) (rows : List EventRow) (q : EventQuery) :
    Except EventStoreError (List EmergentMessage) :=
  if q.Binds then
    ((rows.filter q.selects).insertionSort fun a b => a.timestampMs ≤ b.timestampMs).mapM
      (rowToMessage c)
  else .error .sqlite

end EventQuery

def deleteBefore (rows : List EventRow) (timestampMs : UInt64) :
    Except EventStoreError (List EventRow) :=
  if FitsI64 timestampMs then
    .ok (rows.filter fun row => (timestampMs.toNat : ℤ) ≤ row.timestampMs)
  else .error .sqlite

/-! ### One row -/

section
variable {c : Codec} {m : EmergentMessage}

theorem readTimestamp_toNat (ms : UInt64) : readTimestamp (ms.toNat : ℤ) = .ok ms := by
  have hpos : (0 : ℤ) ≤ ms.toNat := Int.natCast_nonneg _
  simp only [readTimestamp, if_pos hpos, Int.toNat_natCast, UInt64.ofNat_toNat]

/-- What the table gives back for a message: JSON nested too deep is lost. -/
def asRead (m : EmergentMessage) : EmergentMessage :=
  { m with
    payload := if m.payload.depth ≤ jsonDepthLimit then m.payload else .null
    metadata := m.metadata.filter fun v => v.depth ≤ jsonDepthLimit }

theorem rowToMessage_toRow (h : c.Documented m) : rowToMessage c (toRow c m) = .ok (asRead m) := by
  have hid : readColumn (MessageId.parse c.fromStr) m.id.id.toStr = .ok m.id := by
    simp only [readColumn, MessageId.parse, parseId_documented h.id, Except.mapError]
  have htype : readColumn MessageType.new m.messageType.value = .ok m.messageType := by
    simp only [readColumn, messageType_new_value, Except.mapError]
  have hsource : readColumn PrimitiveName.new m.source.value = .ok m.source := by
    simp only [readColumn, PrimitiveName.new_of_valid m.source.valid, Except.mapError]
  have hcorrelation : readOptional (CorrelationId.parse c.fromStr)
      (m.correlationId.map fun id => id.id.toStr) = .ok m.correlationId := by
    cases hc : m.correlationId with
    | none => rfl
    | some id =>
      have hread : parseId c.fromStr ["cor"] "cor" id.id.toStr = .ok id :=
        parseId_documented (h.correlation id hc)
      simp only [Option.map_some, readOptional, readColumn, CorrelationId.parse, hread,
        Except.mapError, Except.map]
  have hcausation : readOptional (CausationId.parse c.fromStr)
      (m.causationId.map fun id => id.id.toStr) = .ok m.causationId := by
    cases hc : m.causationId with
    | none => rfl
    | some id =>
      have hread : parseId c.fromStr ["cau", "msg"] "cau or msg" id.id.toStr = .ok id :=
        parseId_documented (h.causation id hc)
      simp only [Option.map_some, readOptional, readColumn, CausationId.parse, hread,
        Except.mapError, Except.map]
  have hpayload : (c.fromJson (c.toJson m.payload)).getD .null =
      if m.payload.depth ≤ jsonDepthLimit then m.payload else .null := by
    rw [show c.fromJson (c.toJson m.payload) = _ from h.payload]
    split_ifs <;> rfl
  have hmetadata : (m.metadata.map c.toJson).bind c.fromJson =
      m.metadata.filter fun v => v.depth ≤ jsonDepthLimit := by
    cases hm : m.metadata with
    | none => rfl
    | some v =>
      have hread : c.fromJson (c.toJson v) = _ := h.metadata v hm
      simp only [Option.map_some, Option.bind_some, hread, Option.filter, decide_eq_true_eq]
  simp only [rowToMessage, toRow, hid, htype, hsource, hcorrelation, hcausation,
    readTimestamp_toNat, hpayload, hmetadata]
  rfl

theorem asRead_eq_self_iff : asRead m = m ↔
    m.payload.depth ≤ jsonDepthLimit ∧ ∀ v ∈ m.metadata, v.depth ≤ jsonDepthLimit := by
  constructor
  · intro h
    have hpayload := congrArg EmergentMessage.payload h
    have hmetadata := congrArg EmergentMessage.metadata h
    simp only [asRead] at hpayload hmetadata
    constructor
    · by_contra hdeep
      rw [if_neg hdeep] at hpayload
      rw [← hpayload] at hdeep
      exact hdeep (by decide)
    · intro v hv
      rw [Option.mem_def.mp hv] at hmetadata
      simpa using hmetadata
  · rintro ⟨hpayload, hmetadata⟩
    have hkept : m.metadata.filter (fun v => v.depth ≤ jsonDepthLimit) = m.metadata := by
      cases hm : m.metadata with
      | none => rfl
      | some v =>
        have hv := hmetadata v hm
        simp [hv]
    simp only [asRead, if_pos hpayload, hkept]

theorem selects_toRow {q : EventQuery} : q.selects (toRow c m) = true ↔ q.Wants m := by
  cases q with
  | byType messageType => exact decide_eq_true_iff
  | byTimeRange startMs endMs =>
    simp [EventQuery.selects, EventQuery.Wants, toRow, UInt64.le_iff_toNat_le]
  | byCorrelation correlationId =>
    simp [EventQuery.selects, EventQuery.Wants, toRow, Option.mem_def]

end

/-! ### Queries -/

section
variable {c : Codec} {rows : List EventRow} {ms : List EmergentMessage}

/-- Every row was written for one of these messages. -/
def WrittenFor (c : Codec) (ms : List EmergentMessage) (rows : List EventRow) : Prop :=
  ∀ row ∈ rows, ∃ m ∈ ms, row = toRow c m

/-- No row can make a query fail, and the answer is the selected rows read back. -/
theorem ask_written (hrows : WrittenFor c ms rows) (hdoc : ∀ m ∈ ms, c.Documented m)
    {q : EventQuery} (hbinds : q.Binds) :
    ∃ answer, q.ask c rows = .ok answer ∧
      ∀ r, r ∈ answer ↔ ∃ row ∈ rows, q.selects row = true ∧ rowToMessage c row = .ok r := by
  have hread : ∀ row ∈ (rows.filter q.selects).insertionSort
      (fun a b => a.timestampMs ≤ b.timestampMs), ∃ m, rowToMessage c row = .ok m := by
    intro row hrow
    have hmem : row ∈ rows := List.mem_of_mem_filter ((List.mem_insertionSort _).mp hrow)
    obtain ⟨m, hm, rfl⟩ := hrows row hmem
    exact ⟨asRead m, rowToMessage_toRow (hdoc m hm)⟩
  obtain ⟨answer, hanswer, hmem⟩ := Fallible.mapM_eq_ok hread
  refine ⟨answer, ?_, fun r => ?_⟩
  · simp only [EventQuery.ask, if_pos hbinds, hanswer]
  · simp only [hmem, List.mem_insertionSort, List.mem_filter, and_assoc]

theorem toRow_id_inj {m m' : EmergentMessage} (hm : c.Documented m) (hm' : c.Documented m')
    (h : (toRow c m).id = (toRow c m').id) : m.id = m'.id := by
  have htext : m.id.id.toStr = m'.id.id.toStr := h
  have hread := hm.id
  rw [htext, hm'.id] at hread
  obtain ⟨⟨id, htag⟩, _⟩ := m
  obtain ⟨⟨id', htag'⟩, _⟩ := m'
  obtain rfl : id' = id := Option.some.inj hread
  rfl

/-- Messages with ids of their own are stored one row each. -/
theorem storeRows_distinct (hdoc : ∀ m ∈ ms, c.Documented m) (hids : (ms.map (·.id)).Nodup)
    {before after : List EventRow}
    (hnew : ∀ row ∈ before, ∀ m ∈ ms, row.id ≠ (toRow c m).id)
    (h : ms.foldlM (storeRow c) before = .ok after) :
    after = before ++ ms.map (toRow c) := by
  induction ms generalizing before with
  | nil =>
    have heq : before = after := Except.ok.inj h
    simp [heq]
  | cons m ms ih =>
    rw [List.foldlM_cons] at h
    simp only [storeRow] at h
    split_ifs at h with hfits
    · have hkept : before.filter (fun row => row.id ≠ (toRow c m).id) = before := by
        rw [List.filter_eq_self]
        intro row hrow
        simpa using hnew row hrow m List.mem_cons_self
      have hrest : ms.foldlM (storeRow c) (before ++ [toRow c m]) = .ok after := by
        rw [insertOrReplace, hkept] at h
        exact h
      rw [List.map_cons, List.nodup_cons] at hids
      have hfinal := ih (fun m' hm' => hdoc m' (List.mem_cons_of_mem _ hm')) hids.2 ?_ hrest
      · simp [hfinal]
      · intro row hrow m' hm'
        rcases List.mem_append.mp hrow with hrow | hrow
        · exact hnew row hrow m' (List.mem_cons_of_mem _ hm')
        · rw [List.mem_singleton.mp hrow]
          intro hsame
          have heq := toRow_id_inj (hdoc m List.mem_cons_self)
            (hdoc m' (List.mem_cons_of_mem _ hm')) hsame
          exact hids.1 (List.mem_map.mpr ⟨m', hm', heq.symm⟩)
    · cases h

/-- Messages with ids of their own are stored. No query fails over what the table
holds, and one that asks for a message returns it, field for field, exactly when
its arguments can be bound and the message's JSON is not nested too deep. -/
theorem ask_returns_stored_iff (hdoc : ∀ m ∈ ms, c.Documented m) (hids : (ms.map (·.id)).Nodup)
    (hstore : ms.foldlM (storeRow c) [] = .ok rows) :
    (∀ q : EventQuery, q.Binds → ∃ answer, q.ask c rows = .ok answer) ∧
      ∀ m ∈ ms, ∀ q : EventQuery, q.Wants m →
        ((∃ answer, q.ask c rows = .ok answer ∧ m ∈ answer) ↔
          q.Binds ∧ m.payload.depth ≤ jsonDepthLimit ∧
            ∀ v ∈ m.metadata, v.depth ≤ jsonDepthLimit) := by
  have hrows : rows = ms.map (toRow c) := by
    simpa using storeRows_distinct hdoc hids (by simp) hstore
  have hwritten : WrittenFor c ms rows := by
    intro row hrow
    rw [hrows] at hrow
    obtain ⟨m, hm, heq⟩ := List.mem_map.mp hrow
    exact ⟨m, hm, heq.symm⟩
  refine ⟨fun q hbinds => ?_, fun m hm q hwants => ?_⟩
  · obtain ⟨answer, hanswer, _⟩ := ask_written hwritten hdoc hbinds
    exact ⟨answer, hanswer⟩
  rw [← asRead_eq_self_iff]
  constructor
  · rintro ⟨answer, hanswer, hmem⟩
    have hbinds : q.Binds := by
      by_contra hnot
      simp only [EventQuery.ask, if_neg hnot] at hanswer
      cases hanswer
    refine ⟨hbinds, ?_⟩
    obtain ⟨answer', hanswer', hmem'⟩ := ask_written hwritten hdoc hbinds
    obtain rfl : answer' = answer := Except.ok.inj (hanswer'.symm.trans hanswer)
    obtain ⟨row, hrow, _, hread⟩ := (hmem' m).mp hmem
    obtain ⟨m', hm', rfl⟩ := hwritten row hrow
    rw [rowToMessage_toRow (hdoc m' hm')] at hread
    have heq : asRead m' = m := Except.ok.inj hread
    -- the row read back as `m` has the id of `m`, so it is the row of `m`
    have hid : (asRead m').id = m.id := congrArg EmergentMessage.id heq
    obtain rfl : m' = m := List.inj_on_of_nodup_map hids hm' hm hid
    exact heq
  · rintro ⟨hbinds, hself⟩
    obtain ⟨answer, hanswer, hmem⟩ := ask_written hwritten hdoc hbinds
    refine ⟨answer, hanswer, (hmem m).mpr ⟨toRow c m, ?_, selects_toRow.mpr hwants, ?_⟩⟩
    · rw [hrows]
      exact List.mem_map_of_mem hm
    · rw [rowToMessage_toRow (hdoc m hm), hself]

end

/-! A codec that reads the text `null`, and writes `null` in as many brackets as
the value is nested. -/

def nullCodec : Codec where
  fromStr := readTypeId
  toJson v := String.ofList (List.replicate (v.depth - 1) '[' ++ "null".toList ++
    List.replicate (v.depth - 1) ']')
  fromJson text := if text = "null" then some .null else none

def tickId : MessageId :=
  ⟨⟨"msg", "01h455vb4pex5vsknk084sn02q"⟩, List.mem_singleton_self "msg"⟩

def tickOf (messageType : String) (h : ValidMessageType messageType) (payload : Value) :
    EmergentMessage where
  id := tickId
  messageType := ⟨messageType, h⟩
  source := ⟨"timer", validPrimitiveName_timer⟩
  correlationId := none
  causationId := none
  timestampMs := 1
  payload := payload
  metadata := none

def tick (payload : Value) : EmergentMessage :=
  tickOf "timer.tick" validMessageType_timerTick payload

def inBrackets : ℕ → Value
  | 0 => .null
  | n + 1 => .array [inBrackets n]

theorem depth_inBrackets (n : ℕ) : (inBrackets n).depth = n + 1 := by
  induction n with
  | zero => simp [inBrackets, Value.depth]
  | succ n ih => simp [inBrackets, Value.depth, Value.depths, ih]

theorem tickOf_documented {messageType : String} {h : ValidMessageType messageType}
    {payload : Value} (hpayload : nullCodec.Reads payload) :
    nullCodec.Documented (tickOf messageType h payload) where
  id := by
    simp only [nullCodec, tickOf]
    decide
  correlation := by simp [tickOf]
  causation := by simp [tickOf]
  payload := hpayload
  metadata := by simp [tickOf]

theorem nullCodec_reads_null : nullCodec.Reads .null := by
  simp [Codec.Reads, nullCodec, Value.depth, jsonDepthLimit]

theorem nullCodec_refuses {n : ℕ} (h : jsonDepthLimit ≤ n) : nullCodec.Reads (inBrackets n) := by
  have hdepth : ¬ (inBrackets n).depth ≤ jsonDepthLimit := by
    rw [depth_inBrackets]
    omega
  have htext : nullCodec.toJson (inBrackets n) ≠ "null" := by
    intro heq
    have hlength := congrArg (fun text => text.toList.length) heq
    simp only [nullCodec, depth_inBrackets, String.toList_ofList, List.length_append,
      List.length_replicate] at hlength
    have hpos : 0 < n := lt_of_lt_of_le (by decide) h
    omega
  rw [Codec.Reads, if_neg hdepth]
  simp only [nullCodec] at htext ⊢
  exact if_neg htext

theorem ask_returns_stored_tick :
    ∃ rows, [tick .null].foldlM (storeRow nullCodec) [] = .ok rows ∧
      ∃ answer, (EventQuery.byType "timer.tick").ask nullCodec rows = .ok answer ∧
        tick .null ∈ answer := by
  have hdoc : ∀ m ∈ [tick .null], nullCodec.Documented m := by
    intro m hm
    rw [List.mem_singleton.mp hm]
    exact tickOf_documented nullCodec_reads_null
  refine ⟨_, rfl, ?_⟩
  exact ((ask_returns_stored_iff hdoc (by decide) rfl).2 _ List.mem_cons_self
    (.byType "timer.tick") rfl).mpr ⟨trivial, by simp [tick, tickOf, Value.depth, jsonDepthLimit],
      by simp [tick, tickOf]⟩

/-- A payload in 128 brackets is stored and comes back as `null`. -/
theorem nested_payload_lost :
    ∃ rows answer, storeRow nullCodec [] (tick (inBrackets 128)) = .ok rows ∧
      (EventQuery.byType "timer.tick").ask nullCodec rows = .ok answer ∧
      tick (inBrackets 128) ∉ answer := by
  have hdepth : ¬ (inBrackets 128).depth ≤ jsonDepthLimit := by
    rw [depth_inBrackets]
    decide
  have hdoc : ∀ m ∈ [tick (inBrackets 128)], nullCodec.Documented m := by
    intro m hm
    rw [List.mem_singleton.mp hm]
    exact tickOf_documented (nullCodec_refuses le_rfl)
  have hwritten : WrittenFor nullCodec [tick (inBrackets 128)]
      [toRow nullCodec (tick (inBrackets 128))] := by
    intro row hrow
    exact ⟨_, List.mem_singleton_self _, List.mem_singleton.mp hrow⟩
  obtain ⟨answer, hanswer, hmem⟩ := ask_written hwritten hdoc (q := .byType "timer.tick") trivial
  refine ⟨_, answer, if_pos (by decide), hanswer, fun hin => ?_⟩
  obtain ⟨row, hrow, _, hread⟩ := (hmem _).mp hin
  rw [List.mem_singleton.mp hrow, rowToMessage_toRow (hdoc _ (List.mem_singleton_self _))] at hread
  exact hdepth (asRead_eq_self_iff.mp (Except.ok.inj hread)).1

end Emergent.Engine

import Emergent.Sdk.Message

/-!
# The event stores (`emergent-engine/src/event_store`, `main.rs`)

The JSON log appends a line; the SQLite table holds one row for each message
id, and an insert replaces the row of the same id. The wrapper writes to the
log first and returns at the first error. What the file system, the database
and the locks do to one call is an argument of it.
-/

namespace Emergent.Engine
open Emergent.Sdk

inductive EventStoreError where
  | io
  | sqlite
  | json
  | lockPoisoned
  deriving Repr, DecidableEq

inductive StoreKind where
  | jsonLog
  | sqlite
  deriving Repr, DecidableEq

/-- How the outside answers one call: an error of the log, an error of the
database, or neither. -/
structure StoreFaults where
  jsonLog : Option EventStoreError
  sqlite : Option EventStoreError
  deriving Repr, DecidableEq

/-- `JsonEventLog::store`: the whole lines afterwards, in whatever file of the day; a
line that a failed write tore is not among them. A timestamp outside the range of a
date is replaced by the clock in the line's own stamp and never an error. -/
def JsonEventLog.store (fault : Option EventStoreError) (lines : List EmergentMessage)
    (message : EmergentMessage) : Except EventStoreError (List EmergentMessage) :=
  match fault with
  | some e => .error e
  | none => .ok (lines ++ [message])

def FitsI64 (timestampMs : UInt64) : Prop := timestampMs.toNat < 2 ^ 63

instance (timestampMs : UInt64) : Decidable (FitsI64 timestampMs) :=
  inferInstanceAs (Decidable (_ < _))

/-- `SqliteEventStore::store`: `i64::try_from` on the timestamp, then
`INSERT OR REPLACE`. -/
def SqliteEventStore.store (fault : Option EventStoreError) (rows : List EmergentMessage)
    (message : EmergentMessage) : Except EventStoreError (List EmergentMessage) :=
  if FitsI64 message.timestampMs then
    match fault with
    | some e => .error e
    | none => .ok (rows.filter (fun row => row.id ≠ message.id) ++ [message])
  else .error .sqlite

structure EventStoreWrapper where
  jsonLog : Option (List EmergentMessage)
  sqlite : Option (List EmergentMessage)

namespace EventStoreWrapper

def configured (stores : EventStoreWrapper) : StoreKind → Prop
  | .jsonLog => stores.jsonLog.isSome = true
  | .sqlite => stores.sqlite.isSome = true

structure Stored where
  stores : EventStoreWrapper
  taken : List StoreKind
  result : Except EventStoreError Unit

def storeSqlite (faults : StoreFaults) (stores : EventStoreWrapper) (taken : List StoreKind)
    (message : EmergentMessage) : Stored :=
  match stores.sqlite with
  | none => ⟨stores, taken, .ok ()⟩
  | some rows =>
    match SqliteEventStore.store faults.sqlite rows message with
    | .error e => ⟨stores, taken, .error e⟩
    | .ok rows => ⟨{ stores with sqlite := some rows }, taken ++ [.sqlite], .ok ()⟩

def store (faults : StoreFaults) (stores : EventStoreWrapper) (message : EmergentMessage) :
    Stored :=
  match stores.jsonLog with
  | none => storeSqlite faults stores [] message
  | some lines =>
    match JsonEventLog.store faults.jsonLog lines message with
    | .error e => ⟨stores, [], .error e⟩
    | .ok lines => storeSqlite faults { stores with jsonLog := some lines } [.jsonLog] message

def Accepts (faults : StoreFaults) (stores : EventStoreWrapper) (message : EmergentMessage) :
    Prop :=
  (stores.jsonLog.isSome = true → faults.jsonLog = none) ∧
    (stores.sqlite.isSome = true → faults.sqlite = none ∧ FitsI64 message.timestampMs)

instance (faults : StoreFaults) (stores : EventStoreWrapper) (message : EmergentMessage) :
    Decidable (Accepts faults stores message) :=
  inferInstanceAs (Decidable ((_ → _) ∧ (_ → _ ∧ _)))

theorem storeSqlite_configured (faults : StoreFaults) (stores : EventStoreWrapper)
    (taken : List StoreKind) (message : EmergentMessage) :
    (storeSqlite faults stores taken message).stores.configured = stores.configured := by
  unfold storeSqlite
  split
  · rfl
  · rename_i rows hrows
    split
    · rfl
    · funext kind
      cases kind <;> simp [configured, hrows]

theorem store_configured (faults : StoreFaults) (stores : EventStoreWrapper)
    (message : EmergentMessage) :
    (store faults stores message).stores.configured = stores.configured := by
  unfold store
  split
  · exact storeSqlite_configured _ _ _ _
  · rename_i lines hlines
    split
    · rfl
    · rw [storeSqlite_configured]
      funext kind
      cases kind <;> simp [configured, hlines]

theorem storeSqlite_taken {faults : StoreFaults} {stores : EventStoreWrapper}
    {taken : List StoreKind} {message : EmergentMessage}
    (h : stores.sqlite.isSome = true → faults.sqlite = none ∧ FitsI64 message.timestampMs) :
    (∀ kind ∈ taken, kind ∈ (storeSqlite faults stores taken message).taken) ∧
      (stores.configured .sqlite →
        StoreKind.sqlite ∈ (storeSqlite faults stores taken message).taken) := by
  cases hs : stores.sqlite with
  | none => simp [storeSqlite, hs, configured]
  | some rows =>
    obtain ⟨hfault, hfits⟩ := h (by simp [hs])
    simp only [storeSqlite, hs, SqliteEventStore.store, hfault, if_pos hfits]
    exact ⟨fun kind hk => List.mem_append_left _ hk, fun _ => by simp⟩

theorem store_taken {faults : StoreFaults} {stores : EventStoreWrapper}
    {message : EmergentMessage} (h : Accepts faults stores message) (kind : StoreKind)
    (hk : stores.configured kind) : kind ∈ (store faults stores message).taken := by
  obtain ⟨hlog, hsql⟩ := h
  cases hj : stores.jsonLog with
  | none =>
    simp only [store, hj]
    cases kind with
    | jsonLog => simp [configured, hj] at hk
    | sqlite => exact (storeSqlite_taken hsql).2 hk
  | some lines =>
    have hfault : faults.jsonLog = none := hlog (by simp [hj])
    simp only [store, hj, JsonEventLog.store, hfault]
    have hsqlite := @storeSqlite_taken faults { stores with jsonLog := some (lines ++ [message]) }
      [.jsonLog] message hsql
    cases kind with
    | jsonLog => exact hsqlite.1 _ List.mem_cons_self
    | sqlite => exact hsqlite.2 hk

end EventStoreWrapper

end Emergent.Engine

import Emergent.Engine.EventRows

/-!
# What the two stores hold after a run of calls

The table against the history of the calls that filled it, and the JSON log
against the table. A message leaves the table by age, through `delete_before`,
or because another one with its id takes its row.
-/

namespace Emergent.Engine
open Kit Emergent.Sdk

/-! ### The table and its history -/

/-- The table, and the messages stored in it that are not older than any cutoff
since. -/
structure EventHistory where
  rows : List EventRow
  stored : List EmergentMessage

inductive HistoryAction where
  | store (m : EmergentMessage)
  | deleteBefore (timestampMs : UInt64)

namespace EventHistory

def start : EventHistory := ⟨[], []⟩

def step (c : Codec) (s : EventHistory) : HistoryAction → Option EventHistory
  | .store m => (storeRow c s.rows m).toOption.map fun rows => ⟨rows, s.stored ++ [m]⟩
  | .deleteBefore timestampMs =>
    (Engine.deleteBefore s.rows timestampMs).toOption.map fun rows =>
      ⟨rows, s.stored.filter fun m => timestampMs ≤ m.timestampMs⟩

/-- A message is stored under an id no other row has. -/
def Unclaimed (c : Codec) (s : EventHistory) : HistoryAction → Prop
  | .store m => ∀ row ∈ s.rows, row.id = (toRow c m).id → row = toRow c m
  | .deleteBefore _ => True

instance (c : Codec) (s : EventHistory) (a : HistoryAction) : Decidable (s.Unclaimed c a) :=
  match a with
  | .store _ => inferInstanceAs (Decidable (∀ row ∈ s.rows, _ → _))
  | .deleteBefore _ => isTrue trivial

structure Kept (c : Codec) (s : EventHistory) : Prop where
  present : ∀ m ∈ s.stored, toRow c m ∈ s.rows
  written : WrittenFor c s.stored s.rows

variable {c : Codec} {s t : EventHistory}

theorem kept_start : start.Kept c := ⟨by simp [start], by simp [start, WrittenFor]⟩

theorem store_cases {m : EmergentMessage} (h : s.step c (.store m) = some t) :
    t = ⟨insertOrReplace s.rows (toRow c m), s.stored ++ [m]⟩ := by
  obtain ⟨rows, hrows, rfl⟩ := Option.map_eq_some_iff.mp h
  simp only [storeRow] at hrows
  split_ifs at hrows
  · cases hrows
    rfl
  · cases hrows

theorem deleteBefore_cases {timestampMs : UInt64}
    (h : s.step c (.deleteBefore timestampMs) = some t) :
    t = ⟨s.rows.filter fun row => (timestampMs.toNat : ℤ) ≤ row.timestampMs,
      s.stored.filter fun m => timestampMs ≤ m.timestampMs⟩ := by
  obtain ⟨rows, hrows, rfl⟩ := Option.map_eq_some_iff.mp h
  simp only [Engine.deleteBefore] at hrows
  split_ifs at hrows
  · cases hrows
    rfl
  · cases hrows

theorem Kept.step (hs : s.Kept c) {a : HistoryAction} (hguard : s.Unclaimed c a)
    (h : s.step c a = some t) : t.Kept c := by
  cases a with
  | store m =>
    obtain rfl := store_cases h
    constructor
    · intro m' hm'
      rcases List.mem_append.mp hm' with hm' | hm'
      · have hrow := hs.present m' hm'
        by_cases hid : (toRow c m').id = (toRow c m).id
        · -- the only row this id can have is the new one
          rw [hguard _ hrow hid]
          exact List.mem_append_right _ (List.mem_singleton_self _)
        · exact List.mem_append_left _ (List.mem_filter.mpr ⟨hrow, by simpa using hid⟩)
      · rw [List.mem_singleton.mp hm']
        exact List.mem_append_right _ (List.mem_singleton_self _)
    · intro row hrow
      rcases List.mem_append.mp hrow with hrow | hrow
      · obtain ⟨m', hm', heq⟩ := hs.written row (List.mem_of_mem_filter hrow)
        exact ⟨m', List.mem_append_left _ hm', heq⟩
      · exact ⟨m, List.mem_append_right _ (List.mem_singleton_self _), List.mem_singleton.mp hrow⟩
  | deleteBefore timestampMs =>
    obtain rfl := deleteBefore_cases h
    have hage : ∀ m : EmergentMessage, (timestampMs.toNat : ℤ) ≤ (toRow c m).timestampMs ↔
        timestampMs ≤ m.timestampMs := by
      intro m
      simp [toRow, UInt64.le_iff_toNat_le]
    constructor
    · intro m hm
      obtain ⟨hm, hyoung⟩ := List.mem_filter.mp hm
      exact List.mem_filter.mpr ⟨hs.present m hm,
        decide_eq_true ((hage m).mpr (of_decide_eq_true hyoung))⟩
    · intro row hrow
      obtain ⟨hrow, hyoung⟩ := List.mem_filter.mp hrow
      obtain ⟨m, hm, rfl⟩ := hs.written row hrow
      exact ⟨m, List.mem_filter.mpr ⟨hm,
        decide_eq_true ((hage m).mp (of_decide_eq_true hyoung))⟩, rfl⟩

theorem run_stored {as : List HistoryAction} (hrun : run (step c) s as = some t) :
    ∀ m ∈ t.stored, m ∈ s.stored ∨ HistoryAction.store m ∈ as := by
  induction as generalizing s with
  | nil =>
    obtain rfl : s = t := Option.some.inj hrun
    exact fun m hm => Or.inl hm
  | cons a as ih =>
    obtain ⟨u, hu, hrest⟩ := run_cons.mp hrun
    intro m hm
    rcases ih hrest m hm with hm | hm
    · cases a with
      | store m' =>
        obtain rfl := store_cases hu
        rcases List.mem_append.mp hm with hm | hm
        · exact Or.inl hm
        · rw [List.mem_singleton.mp hm]
          exact Or.inr List.mem_cons_self
      | deleteBefore timestampMs =>
        obtain rfl := deleteBefore_cases hu
        exact Or.inl (List.mem_of_mem_filter hm)
    · exact Or.inr (List.mem_cons_of_mem _ hm)

/-- While no message takes the id of another, every query that asks for a stored
message that is not too old returns it, as it did after it was stored. -/
theorem run_history_kept {as : List HistoryAction}
    (hdoc : ∀ m, HistoryAction.store m ∈ as → c.Documented m)
    (hguard : Obeys (step c) (Unclaimed c) start as) (hrun : run (step c) start as = some t) :
    ∀ m ∈ t.stored, ∀ q : EventQuery, q.Wants m → q.Binds →
      ∃ answer r, q.ask c t.rows = .ok answer ∧ rowToMessage c (toRow c m) = .ok r ∧
        r ∈ answer := by
  have hkept : t.Kept c :=
    run_invariant_of_obeys (fun _ _ _ hs hg h => hs.step hg h) kept_start hguard hrun
  have hstored : ∀ m ∈ t.stored, c.Documented m := by
    intro m hm
    rcases run_stored hrun m hm with hm | hm
    · cases hm
    · exact hdoc m hm
  intro m hm q hwants hbinds
  obtain ⟨answer, hanswer, hmem⟩ := ask_written hkept.written hstored hbinds
  have hread := rowToMessage_toRow (hstored m hm)
  exact ⟨answer, asRead m, hanswer, hread, (hmem _).mpr
    ⟨toRow c m, hkept.present m hm, selects_toRow.mpr hwants, hread⟩⟩

def stopTick : EmergentMessage := tickOf "timer.stop" (by decide) .null

theorem run_history_kept_tick :
    ∃ t, run (step nullCodec) start [.store (tick .null), .deleteBefore 1] = some t ∧
      ∃ answer, (EventQuery.byType "timer.tick").ask nullCodec t.rows = .ok answer ∧
        asRead (tick .null) ∈ answer := by
  have hdoc : ∀ m, HistoryAction.store m ∈ [.store (tick .null), .deleteBefore 1] →
      nullCodec.Documented m := by
    intro m hm
    obtain rfl : m = tick .null := by simpa using hm
    exact tickOf_documented nullCodec_reads_null
  have hguard : Obeys (step nullCodec) (Unclaimed nullCodec) start
      [.store (tick .null), .deleteBefore 1] :=
    ⟨by simp [Unclaimed, start], fun _ _ => ⟨trivial, fun _ _ => trivial⟩⟩
  refine ⟨_, rfl, ?_⟩
  obtain ⟨answer, r, hanswer, hread, hmem⟩ := run_history_kept hdoc hguard rfl (tick .null)
    List.mem_cons_self (.byType "timer.tick") rfl trivial
  rw [rowToMessage_toRow (hdoc _ List.mem_cons_self)] at hread
  exact ⟨answer, hanswer, Except.ok.inj hread ▸ hmem⟩

/-- A second message with the id of the first takes its row. -/
theorem stored_message_replaced :
    ∃ t, run (step nullCodec) start [.store (tick .null), .store stopTick] = some t ∧
      t.stored = [tick .null, stopTick] ∧
      (EventQuery.byType "timer.tick").ask nullCodec t.rows = .ok [] :=
  ⟨_, rfl, rfl, rfl⟩

end EventHistory

/-! ### The log and the table -/

/-- The table of rows does what the table of messages does. -/
theorem storeRow_map {c : Codec} {rows : List EmergentMessage} {m : EmergentMessage}
    (hrows : ∀ row ∈ rows, c.Documented row) (hm : c.Documented m) :
    storeRow c (rows.map (toRow c)) m =
      (SqliteEventStore.store none rows m).map (List.map (toRow c)) := by
  have hfilter : (rows.map (toRow c)).filter (fun other => other.id ≠ (toRow c m).id) =
      (rows.filter fun row => row.id ≠ m.id).map (toRow c) := by
    rw [List.filter_map]
    congr 1
    refine List.filter_congr fun row hrow => ?_
    have hid : (toRow c row).id = (toRow c m).id ↔ row.id = m.id :=
      ⟨toRow_id_inj (hrows row hrow) hm, fun h => by simp only [toRow, h]⟩
    simp only [Function.comp_apply, ne_eq, hid]
  simp only [storeRow, SqliteEventStore.store, insertOrReplace, hfilter]
  split_ifs with hfits
  · simp [Except.map]
  · rfl

namespace EventStoreWrapper

/-- The log has taken the message and the table refuses it. -/
def HalfWritten (faults : StoreFaults) (stores : EventStoreWrapper) (m : EmergentMessage) : Prop :=
  stores.jsonLog.isSome = true ∧ faults.jsonLog = none ∧ stores.sqlite.isSome = true ∧
    (faults.sqlite ≠ none ∨ ¬ FitsI64 m.timestampMs)

/-- A refused message is in neither store. -/
def AllOrNothing (faults : StoreFaults) (stores : EventStoreWrapper) (m : EmergentMessage) : Prop :=
  ∀ e, (store faults stores m).result = .error e → (store faults stores m).stores = stores

theorem sqlite_store_error_iff {fault : Option EventStoreError} {rows : List EmergentMessage}
    {m : EmergentMessage} :
    (∃ e, SqliteEventStore.store fault rows m = .error e) ↔
      fault ≠ none ∨ ¬ FitsI64 m.timestampMs := by
  unfold SqliteEventStore.store
  split_ifs with hfits
  · cases fault <;> simp [hfits]
  · simp [hfits]

theorem allOrNothing_iff {faults : StoreFaults} {stores : EventStoreWrapper} {m : EmergentMessage} :
    AllOrNothing faults stores m ↔ ¬ HalfWritten faults stores m := by
  obtain ⟨log, table⟩ := stores
  unfold AllOrNothing HalfWritten
  cases log with
  | none =>
    cases table with
    | none => simp [store, storeSqlite]
    | some rows =>
      simp only [store, storeSqlite]
      cases SqliteEventStore.store faults.sqlite rows m <;> simp
  | some lines =>
    cases hlog : faults.jsonLog with
    | some e => simp [store, JsonEventLog.store, hlog]
    | none =>
      cases table with
      | none => simp [store, JsonEventLog.store, hlog, storeSqlite]
      | some rows =>
        simp only [store, JsonEventLog.store, hlog, storeSqlite]
        have hrefused := @sqlite_store_error_iff faults.sqlite rows m
        cases hsql : SqliteEventStore.store faults.sqlite rows m with
        | ok rows' => simp_all
        | error e => simp_all

/-- A sequence of calls without an I/O failure, whatever each of them returns. -/
def storeAll (stores : EventStoreWrapper) (ms : List EmergentMessage) : EventStoreWrapper :=
  ms.foldl (fun stores m => (store ⟨none, none⟩ stores m).stores) stores

def SameMessages (stores : EventStoreWrapper) : Prop :=
  ∀ m, (∃ lines ∈ stores.jsonLog, m ∈ lines) ↔ ∃ rows ∈ stores.sqlite, m ∈ rows

/-- The table after one call. -/
def tableAfter (rows : List EmergentMessage) (m : EmergentMessage) : List EmergentMessage :=
  if FitsI64 m.timestampMs then rows.filter (fun row => row.id ≠ m.id) ++ [m] else rows

theorem storeAll_both (lines rows ms : List EmergentMessage) :
    storeAll ⟨some lines, some rows⟩ ms =
      ⟨some (lines ++ ms), some (ms.foldl tableAfter rows)⟩ := by
  induction ms generalizing lines rows with
  | nil => simp [storeAll]
  | cons m ms ih =>
    have hstep : (store ⟨none, none⟩ ⟨some lines, some rows⟩ m).stores =
        ⟨some (lines ++ [m]), some (tableAfter rows m)⟩ := by
      simp only [store, JsonEventLog.store, storeSqlite, SqliteEventStore.store, tableAfter]
      split_ifs <;> rfl
    have hrest := ih (lines ++ [m]) (tableAfter rows m)
    simp only [storeAll, List.foldl_cons, hstep] at hrest ⊢
    rw [hrest, List.append_assoc, List.singleton_append]

theorem mem_tableAfter {rows : List EmergentMessage} {m m' : EmergentMessage} :
    m' ∈ tableAfter rows m ↔
      if FitsI64 m.timestampMs then (m' ∈ rows ∧ m'.id ≠ m.id) ∨ m' = m else m' ∈ rows := by
  unfold tableAfter
  split_ifs <;> simp

/-- A row was stored with a timestamp that fits, and is alone with its id. -/
theorem mem_table {ms : List EmergentMessage} {m : EmergentMessage}
    (h : m ∈ ms.foldl tableAfter []) : m ∈ ms ∧ FitsI64 m.timestampMs ∧
      ∀ m' ∈ ms.foldl tableAfter [], m'.id = m.id → m' = m := by
  induction ms using List.reverseRecOn generalizing m with
  | nil => cases h
  | append_singleton ms last ih =>
    simp only [List.foldl_append, List.foldl_cons, List.foldl_nil, mem_tableAfter] at h ⊢
    split_ifs at h ⊢ with hfits
    · rcases h with ⟨hm, hne⟩ | rfl
      · obtain ⟨hin, hfit, halone⟩ := ih hm
        refine ⟨List.mem_append_left _ hin, hfit, fun m' hm' hid => ?_⟩
        rcases hm' with ⟨hm', _⟩ | rfl
        · exact halone m' hm' hid
        · exact absurd hid.symm hne
      · refine ⟨List.mem_append_right _ (List.mem_singleton_self _), hfits, fun m' hm' hid => ?_⟩
        rcases hm' with ⟨_, hne⟩ | heq
        · exact absurd hid hne
        · exact heq
    · obtain ⟨hin, hfit, halone⟩ := ih h
      exact ⟨List.mem_append_left _ hin, hfit, halone⟩

theorem table_complete {ms : List EmergentMessage} (hfits : ∀ m ∈ ms, FitsI64 m.timestampMs)
    (hids : ∀ m ∈ ms, ∀ m' ∈ ms, m.id = m'.id → m = m') :
    ∀ m ∈ ms, m ∈ ms.foldl tableAfter [] := by
  induction ms using List.reverseRecOn with
  | nil => exact fun m hm => hm
  | append_singleton ms last ih =>
    have hlast : last ∈ ms ++ [last] := List.mem_append_right _ (List.mem_singleton_self _)
    have hold := ih (fun m hm => hfits m (List.mem_append_left _ hm))
      (fun m hm m' hm' => hids m (List.mem_append_left _ hm) m' (List.mem_append_left _ hm'))
    intro m hm
    simp only [List.foldl_append, List.foldl_cons, List.foldl_nil, mem_tableAfter,
      if_pos (hfits last hlast)]
    rcases List.mem_append.mp hm with hm' | hm'
    · by_cases hid : m.id = last.id
      · exact Or.inr (hids m hm last hlast hid)
      · exact Or.inl ⟨hold m hm', hid⟩
    · exact Or.inr (List.mem_singleton.mp hm')

/-- A call that fails leaves both stores as they were exactly when the log has not
taken what the table refuses. After a sequence of calls the two hold the same
messages exactly when every timestamp fits an `i64` and no two different messages
share an id. -/
theorem stores_agree_iff (faults : StoreFaults) (stores : EventStoreWrapper)
    (m : EmergentMessage) (ms : List EmergentMessage) :
    (AllOrNothing faults stores m ↔ ¬ HalfWritten faults stores m) ∧
      (SameMessages (storeAll ⟨some [], some []⟩ ms) ↔
        (∀ m ∈ ms, FitsI64 m.timestampMs) ∧ ∀ m ∈ ms, ∀ m' ∈ ms, m.id = m'.id → m = m') := by
  refine ⟨allOrNothing_iff, ?_⟩
  have hsame : SameMessages (storeAll ⟨some [], some []⟩ ms) ↔
      ∀ m, m ∈ ms ↔ m ∈ ms.foldl tableAfter [] := by
    rw [storeAll_both]
    simp [SameMessages]
  rw [hsame]
  constructor
  · intro h
    refine ⟨fun m hm => (mem_table ((h m).mp hm)).2.1, fun m hm m' hm' hid => ?_⟩
    exact (mem_table ((h m').mp hm')).2.2 m ((h m).mp hm) hid
  · rintro ⟨hfits, hids⟩ m
    exact ⟨table_complete hfits hids m, fun hm => (mem_table hm).1⟩

def lateTick : EmergentMessage := { tick .null with timestampMs := 9223372036854775808 }

/-- The table refuses a timestamp of `2^63` after the log has taken the message;
and of two messages with one id only the log has both. -/
theorem log_ahead_of_table :
    ¬ AllOrNothing ⟨none, none⟩ ⟨some [], some []⟩ lateTick ∧
      ¬ SameMessages (storeAll ⟨some [], some []⟩ [tick .null, EventHistory.stopTick]) := by
  constructor
  · intro h
    have hstores : (⟨some [lateTick], some []⟩ : EventStoreWrapper) = ⟨some [], some []⟩ :=
      h .sqlite rfl
    cases hstores
  · intro h
    obtain ⟨rows, hrows, hmem⟩ := (h (tick .null)).mp ⟨_, rfl, List.mem_cons_self⟩
    obtain rfl : [EventHistory.stopTick] = rows := Option.some.inj hrows
    have htype := congrArg (fun m => m.messageType.value) (List.mem_singleton.mp hmem)
    exact absurd htype (by decide)

end EventStoreWrapper

end Emergent.Engine

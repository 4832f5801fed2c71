import Emergent.Engine.EventRows

/-!
# Queries by time (`emergent-engine/src/event_store/sqlite.rs`)

`query_by_time_range` hands its two bounds to SQLite, whose integers are signed,
and reads the rows it gets back one by one. The errors of the two directions are
told apart here, which `EventQuery.ask` does not do.
-/

namespace Emergent.Engine
open Kit Emergent.Sdk

inductive RusqliteError where
  | toSqlConversionFailure
  | fromSqlConversionFailure
  deriving Repr, DecidableEq

def EventRow.inRange (startMs endMs : UInt64) (row : EventRow) : Bool :=
  (startMs.toNat : ℤ) ≤ row.timestampMs ∧ row.timestampMs ≤ (endMs.toNat : ℤ)

/-- `ORDER BY timestamp_ms ASC`. -/
def orderByTimestamp (rows : List EventRow) : List EventRow :=
  rows.insertionSort fun a b => a.timestampMs ≤ b.timestampMs

def queryByTimeRange (c : Codec) (rows : List EventRow) (startMs endMs : UInt64) :
    Except RusqliteError (List EmergentMessage) :=
  if FitsI64 startMs ∧ FitsI64 endMs then
    ((orderByTimestamp (rows.filter (EventRow.inRange startMs endMs))).mapM
      (rowToMessage c)).mapError fun _ => .fromSqlConversionFailure
  else .error .toSqlConversionFailure

/-- The answer is what the rows of the range say, each once and in the order of
time, and an error is the error of such a row. -/
def ExactRange (c : Codec) (rows : List EventRow) (startMs endMs : UInt64) :
    Except RusqliteError (List EmergentMessage) → Prop
  | .ok answer =>
    (∃ found : List EventRow, found.Perm (rows.filter (EventRow.inRange startMs endMs)) ∧
      found.map (rowToMessage c) = answer.map .ok) ∧
    answer.Pairwise fun m m' => m.timestampMs ≤ m'.timestampMs
  | .error e => e = .fromSqlConversionFailure ∧
    ∃ row ∈ rows, row.inRange startMs endMs = true ∧ ∃ cause, rowToMessage c row = .error cause

section
variable {c : Codec} {rows : List EventRow} {startMs endMs : UInt64}

/-- The query of the table's own model, with the errors told apart. -/
theorem queryByTimeRange_toOption :
    (queryByTimeRange c rows startMs endMs).toOption =
      ((EventQuery.byTimeRange startMs endMs).ask c rows).toOption := by
  have hselects : (EventQuery.byTimeRange startMs endMs).selects =
      EventRow.inRange startMs endMs := rfl
  by_cases hbinds : FitsI64 startMs ∧ FitsI64 endMs
  · have hask : (EventQuery.byTimeRange startMs endMs).Binds := hbinds
    rw [queryByTimeRange, if_pos hbinds, EventQuery.ask, if_pos hask, hselects, orderByTimestamp]
    generalize List.mapM (rowToMessage c) _ = answer
    cases answer with
    | error e => rfl
    | ok answer => rfl
  · have hask : ¬ (EventQuery.byTimeRange startMs endMs).Binds := hbinds
    rw [queryByTimeRange, if_neg hbinds, EventQuery.ask, if_neg hask]
    rfl

theorem rowToMessage_timestampMs {row : EventRow} {m : EmergentMessage}
    (hlt : row.timestampMs < 2 ^ 64) (h : rowToMessage c row = .ok m) :
    (m.timestampMs.toNat : ℤ) = row.timestampMs := by
  obtain ⟨_, _, h⟩ := Fallible.ok_of_bind h
  obtain ⟨_, _, h⟩ := Fallible.ok_of_bind h
  obtain ⟨_, _, h⟩ := Fallible.ok_of_bind h
  obtain ⟨_, _, h⟩ := Fallible.ok_of_bind h
  obtain ⟨_, _, h⟩ := Fallible.ok_of_bind h
  obtain ⟨timestampMs, hread, h⟩ := Fallible.ok_of_bind h
  have hm : m.timestampMs = timestampMs := (congrArg EmergentMessage.timestampMs
    (Except.ok.inj h)).symm
  unfold readTimestamp at hread
  split_ifs at hread with hpos
  rw [hm, ← Except.ok.inj hread, UInt64.toNat_ofNat']
  omega

/-- Rows in the order of time are read as messages in the order of time. -/
theorem pairwise_of_rows {found : List EventRow} {answer : List EmergentMessage}
    (hlt : ∀ row ∈ found, row.timestampMs < 2 ^ 64)
    (hsorted : found.Pairwise fun a b => a.timestampMs ≤ b.timestampMs)
    (hread : found.map (rowToMessage c) = answer.map .ok) :
    answer.Pairwise fun m m' => m.timestampMs ≤ m'.timestampMs := by
  induction found generalizing answer with
  | nil =>
    cases answer with
    | nil => exact List.Pairwise.nil
    | cons m ms => cases hread
  | cons row rest ih =>
    cases answer with
    | nil => cases hread
    | cons m ms =>
      rw [List.map_cons, List.map_cons] at hread
      have hhead := (List.cons.inj hread).1
      have htail := (List.cons.inj hread).2
      have hm := rowToMessage_timestampMs (hlt row List.mem_cons_self) hhead
      refine List.Pairwise.cons ?_ (ih (fun r hr => hlt r (List.mem_cons_of_mem _ hr))
        hsorted.of_cons htail)
      intro m' hm'
      have hmem : Except.ok m' ∈ rest.map (rowToMessage c) := by
        rw [htail]
        exact List.mem_map_of_mem hm'
      obtain ⟨row', hrow', hread'⟩ := List.mem_map.mp hmem
      have hms := rowToMessage_timestampMs (hlt row' (List.mem_cons_of_mem _ hrow')) hread'
      have hle := List.rel_of_pairwise_cons hsorted hrow'
      rw [UInt64.le_iff_toNat_le]
      omega

theorem orderByTimestamp_perm (rows : List EventRow) : (orderByTimestamp rows).Perm rows :=
  List.perm_insertionSort _ _

theorem orderByTimestamp_sorted (rows : List EventRow) :
    (orderByTimestamp rows).Pairwise fun a b => a.timestampMs ≤ b.timestampMs := by
  have htotal : Std.Total fun a b : EventRow => a.timestampMs ≤ b.timestampMs :=
    ⟨fun a b => le_total a.timestampMs b.timestampMs⟩
  have htrans : IsTrans EventRow fun a b => a.timestampMs ≤ b.timestampMs :=
    ⟨fun a b c => le_trans⟩
  exact List.pairwise_insertionSort _ rows

theorem exactRange_of_fits (hstart : FitsI64 startMs) (hend : FitsI64 endMs) :
    ExactRange c rows startMs endMs (queryByTimeRange c rows startMs endMs) := by
  have hperm := orderByTimestamp_perm (rows.filter (EventRow.inRange startMs endMs))
  have hin : ∀ row ∈ orderByTimestamp (rows.filter (EventRow.inRange startMs endMs)),
      row ∈ rows ∧ row.inRange startMs endMs = true :=
    fun row hrow => List.mem_filter.mp (hperm.mem_iff.mp hrow)
  rw [queryByTimeRange, if_pos ⟨hstart, hend⟩]
  cases hread : (orderByTimestamp (rows.filter (EventRow.inRange startMs endMs))).mapM
      (rowToMessage c) with
  | error e =>
    obtain ⟨row, hrow, he⟩ := Fallible.mapM_error hread
    exact ⟨rfl, row, (hin row hrow).1, (hin row hrow).2, e, he⟩
  | ok answer =>
    have hrows := Fallible.mapM_ok hread
    refine ⟨⟨_, hperm, hrows⟩, pairwise_of_rows ?_ (orderByTimestamp_sorted _) hrows⟩
    intro row hrow
    have hle := (of_decide_eq_true (hin row hrow).2).2
    have hlt : endMs.toNat < 2 ^ 64 := endMs.toNat_lt
    omega

/-- Over any table, the answer is exact precisely when SQLite has an integer for
each of the bounds. -/
theorem queryByTimeRange_exact_iff (c : Codec) (rows : List EventRow) (startMs endMs : UInt64) :
    ExactRange c rows startMs endMs (queryByTimeRange c rows startMs endMs) ↔
      FitsI64 startMs ∧ FitsI64 endMs := by
  constructor
  · intro h
    by_contra hnot
    rw [queryByTimeRange, if_neg hnot] at h
    cases h.1
  · intro h
    exact exactRange_of_fits h.1 h.2

/-- What is stored up to the largest timestamp there is cannot be asked for. -/
theorem queryByTimeRange_fails_above_i64 :
    queryByTimeRange nullCodec [toRow nullCodec (tick .null)] 0 18446744073709551615 =
        .error .toSqlConversionFailure ∧
      ¬ ExactRange nullCodec [toRow nullCodec (tick .null)] 0 18446744073709551615
        (queryByTimeRange nullCodec [toRow nullCodec (tick .null)] 0 18446744073709551615) := by
  have hnot : ¬ (FitsI64 0 ∧ FitsI64 18446744073709551615) := by decide
  have hfails : queryByTimeRange nullCodec [toRow nullCodec (tick .null)] 0
      18446744073709551615 = .error .toSqlConversionFailure := if_neg hnot
  refine ⟨hfails, ?_⟩
  intro h
  rw [hfails] at h
  cases h.1

/-- Over the rows of messages the answer is those of the range, as they are read
back. -/
theorem queryByTimeRange_messages {ms : List EmergentMessage} (hdoc : ∀ m ∈ ms, c.Documented m)
    (hstart : FitsI64 startMs) (hend : FitsI64 endMs) :
    ∃ answer, queryByTimeRange c (ms.map (toRow c)) startMs endMs = .ok answer ∧
      answer.Perm ((ms.filter fun m => startMs ≤ m.timestampMs ∧
        m.timestampMs ≤ endMs).map asRead) ∧
      answer.Pairwise fun m m' => m.timestampMs ≤ m'.timestampMs := by
  have hexact : ExactRange c (ms.map (toRow c)) startMs endMs
      (queryByTimeRange c (ms.map (toRow c)) startMs endMs) := exactRange_of_fits hstart hend
  cases hquery : queryByTimeRange c (ms.map (toRow c)) startMs endMs with
  | error e =>
    rw [hquery] at hexact
    obtain ⟨_, row, hrow, _, cause, herror⟩ := hexact
    obtain ⟨m, hm, rfl⟩ := List.mem_map.mp hrow
    rw [rowToMessage_toRow (hdoc m hm)] at herror
    cases herror
  | ok answer =>
    rw [hquery] at hexact
    obtain ⟨⟨found, hperm, hread⟩, hsorted⟩ := hexact
    refine ⟨answer, rfl, ?_, hsorted⟩
    have hin : ∀ m : EmergentMessage, (toRow c m).inRange startMs endMs =
        decide (startMs ≤ m.timestampMs ∧ m.timestampMs ≤ endMs) := by
      intro m
      simp only [EventRow.inRange, toRow, UInt64.le_iff_toNat_le, Nat.cast_le]
    have hfilter : (ms.map (toRow c)).filter (EventRow.inRange startMs endMs) =
        (ms.filter fun m => startMs ≤ m.timestampMs ∧ m.timestampMs ≤ endMs).map (toRow c) := by
      rw [List.filter_map]
      congr 1
      exact List.filter_congr fun m _ => hin m
    have hok : (answer.map Except.ok : List (Except EventStoreError EmergentMessage)).Perm
        (((ms.filter fun m => startMs ≤ m.timestampMs ∧ m.timestampMs ≤ endMs).map
          asRead).map .ok) := by
      rw [← hread]
      refine (hperm.map _).trans ?_
      rw [hfilter, List.map_map, List.map_map]
      refine List.Perm.of_eq (List.map_congr_left ?_)
      intro m hm
      exact rowToMessage_toRow (hdoc m (List.mem_of_mem_filter hm))
    have hinj : Function.Injective (Except.ok : EmergentMessage → Except EventStoreError _) :=
      fun _ _ h => Except.ok.inj h
    exact (List.map_perm_map_iff hinj).mp hok

end

end Emergent.Engine

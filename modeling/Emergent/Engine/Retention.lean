import Emergent.Engine.EventRows
import Emergent.Engine.Supervision
import Emergent.Kit.Runs
import Emergent.Kit.Text

/-!
# Retention (`retention.rs`, `event_store/json_log.rs`, `event_store/sqlite.rs`)

The JSON log is one file for each UTC date of writing and is pruned by whole
files; the table is pruned by a cutoff in milliseconds on the timestamp of the
event. A date is its number of days since 1970-01-01, in the range chrono can
represent; how chrono writes a date as text and reads it back is a parameter.
-/

namespace Emergent.Engine.Retention
open Emergent.Sdk Kit Kit.Text

/-! ### Dates and clocks -/

def millisPerDay : UInt64 := 24 * 60 * 60 * 1000

def firstDay : ℤ := -96465292

def lastDay : ℤ := 95026236

structure NaiveDate where
  day : ℤ
  representable : firstDay ≤ day ∧ day ≤ lastDay
  deriving DecidableEq

/-- `checked_sub_days`: `None` past the first date. -/
def NaiveDate.checkedSubDays (date : NaiveDate) (days : ℕ) : Option NaiveDate :=
  if h : firstDay ≤ date.day - days then
    some ⟨date.day - days, h, le_trans (Int.sub_le_self _ (Int.natCast_nonneg _))
      date.representable.2⟩
  else none

/-- A UTC instant to the millisecond. A leap second is the time of day past the
last regular one. -/
structure DateTime where
  dateNaive : NaiveDate
  sinceMidnight : ℕ
  inDay : sinceMidnight < 86401000

def DateTime.timestampMillis (t : DateTime) : ℤ := t.dateNaive.day * 86400000 + t.sinceMidnight

/-- The clock `Utc::now` reads: milliseconds since the epoch, never before it. -/
structure SystemTime where
  millis : ℕ
  representable : (millis / 86400000 : ℤ) ≤ lastDay

theorem SystemTime.inRange (t : SystemTime) :
    firstDay ≤ (t.millis / 86400000 : ℤ) ∧ (t.millis / 86400000 : ℤ) ≤ lastDay := by
  have hpos : (0 : ℤ) ≤ t.millis / 86400000 := by omega
  have hfirst : firstDay ≤ 0 := by decide
  exact ⟨le_trans hfirst hpos, t.representable⟩

theorem SystemTime.inDay (t : SystemTime) : t.millis % 86400000 < 86401000 := by omega

def SystemTime.utcNow (t : SystemTime) : DateTime :=
  ⟨⟨t.millis / 86400000, t.inRange⟩, t.millis % 86400000, t.inDay⟩

theorem SystemTime.timestampMillis_utcNow (t : SystemTime) :
    t.utcNow.timestampMillis = t.millis := by
  simp only [utcNow, DateTime.timestampMillis]
  omega

/-- `format` and `parse_from_str` with `%Y-%m-%d`. -/
structure DateText where
  format : NaiveDate → String
  parse : String → Option NaiveDate

/-- What is read from the text of a date is that date. -/
def DateText.ReadsBack (text : DateText) : Prop :=
  ∀ date read, text.parse (text.format date) = some read → read = date

/-! ### The decisions -/

def isPruningEnabled (retentionDays : UInt32) : Bool := retentionDays != 0

def sqliteCutoffMs (nowMs : UInt64) (retentionDays : UInt32) : Option UInt64 :=
  if !isPruningEnabled retentionDays then none
  else some (saturatingSub nowMs (saturatingMul retentionDays.toUInt64 millisPerDay))

def oldestRetainedLogDate (today : NaiveDate) (retentionDays : UInt32) : Option NaiveDate :=
  if !isPruningEnabled retentionDays then none
  else today.checkedSubDays retentionDays.toNat

def logFilePrefix : String := "events-"

def logFileSuffix : String := ".jsonl"

section
variable (text : DateText)

def parseLogFileDate (fileName : String) : Option NaiveDate := do
  let rest ← stripPrefixText fileName logFilePrefix
  let date ← stripSuffixText rest logFileSuffix
  text.parse date

def isExpired (oldestRetained : NaiveDate) (name : String) : Bool :=
  (parseLogFileDate text name).any fun date => decide (date.day < oldestRetained.day)

def expiredLogFiles (fileNames : List String) (today : NaiveDate) (retentionDays : UInt32) :
    List String :=
  match oldestRetainedLogDate today retentionDays with
  | none => []
  | some oldestRetained => fileNames.filter (isExpired text oldestRetained)

/-! ### Writing the log -/

/-- What goes wrong in one call of `store`; a failed write may have left a part
of its line in the file. -/
inductive LogFault where
  | lock
  | flush
  | openFile
  | write (error : EventStoreError) (part : Bool)
  deriving DecidableEq

/-- A line, whole or torn, of the file that holds it. -/
structure LogLine where
  file : String
  message : EmergentMessage
  writtenAt : SystemTime
  whole : Bool

/-- `lines` is what the directory holds and the writer has buffered. -/
structure JsonEventLog where
  writer : Option String
  currentDate : Option String
  lines : List LogLine

namespace JsonEventLog

def new (lines : List LogLine) : JsonEventLog := ⟨none, none, lines⟩

def logFileName (today : String) : String := logFilePrefix ++ (today ++ logFileSuffix)

def getWriter (fault : Option LogFault) (now : SystemTime) (log : JsonEventLog) :
    Except EventStoreError JsonEventLog :=
  let today := text.format now.utcNow.dateNaive
  if fault = some .lock then .error .lockPoisoned
  else if log.currentDate ≠ some today then
    if log.writer.isSome = true ∧ fault = some .flush then .error .io
    else if fault = some .openFile then .error .io
    else .ok { log with writer := some (logFileName today), currentDate := some today }
  else .ok log

def store (fault : Option LogFault) (now : SystemTime) (message : EmergentMessage)
    (log : JsonEventLog) : JsonEventLog × Except EventStoreError Unit :=
  match getWriter text fault now log with
  | .error e => (log, .error e)
  | .ok log =>
    match log.writer with
    | none => (log, .ok ())
    | some file =>
      match fault with
      | some (.write e true) =>
        ({ log with lines := log.lines ++ [⟨file, message, now, false⟩] }, .error e)
      | some (.write e false) => (log, .error e)
      | _ => ({ log with lines := log.lines ++ [⟨file, message, now, true⟩] }, .ok ())

end JsonEventLog

/-! ### One pass -/

structure PruneReport where
  eventsDeleted : ℕ
  filesDeleted : List String
  errors : List String
  deriving DecidableEq

def PruneReport.isEmpty (report : PruneReport) : Bool :=
  report.eventsDeleted == 0 && report.filesDeleted.isEmpty

/-- `std::fs::read_dir`: the directory is missing, unreadable, or a list of
entries each of which may fail by itself. -/
inductive Listing where
  | notFound
  | failed (error : String)
  | entries (names : List (Except String String))

/-- How the database and the file system answer one pass, and how an error of
the database prints. -/
structure Outside where
  display : EventStoreError → String
  sqlite : Option EventStoreError
  listing : Listing
  remove : String → Option String

/-- `u64::try_from(now.timestamp_millis()).unwrap_or(0)`. -/
def nowMs (now : DateTime) : UInt64 :=
  if 0 ≤ now.timestampMillis then UInt64.ofNat now.timestampMillis.toNat else 0

/-- `SqliteEventStore::delete_before`: the bound parameter has to fit an `i64`. -/
def deleteBefore (fault : Option EventStoreError) (rows : List EmergentMessage)
    (timestampMs : UInt64) : Except EventStoreError (ℕ × List EmergentMessage) :=
  if FitsI64 timestampMs then
    match fault with
    | some e => .error e
    | none =>
      let kept := rows.filter fun row => !decide (row.timestampMs < timestampMs)
      .ok (rows.length - kept.length, kept)
  else .error .sqlite

def pruneSqlite (outside : Outside) (sqlite : Option (List EmergentMessage))
    (cutoff : Option UInt64) (report : PruneReport) :
    Option (List EmergentMessage) × PruneReport :=
  match sqlite, cutoff with
  | some rows, some cutoffMs =>
    match deleteBefore outside.sqlite rows cutoffMs with
    | .ok (deleted, kept) => (some kept, { report with eventsDeleted := deleted })
    | .error e =>
      (some rows,
        { report with errors := report.errors ++ ["SQLite prune failed: " ++ outside.display e] })
  | sqlite, _ => (sqlite, report)

def readNames (entries : List (Except String String)) : List String :=
  entries.filterMap fun entry => entry.toOption

def readErrors (entries : List (Except String String)) : List String :=
  entries.filterMap fun
    | .ok _ => none
    | .error e => some ("Reading a log directory entry failed: " ++ e)

def joinPath (logDir name : String) : String := logDir ++ "/" ++ name

/-- What one pass did: the rows that are left, the names it removed, and the
report. -/
structure Pruned where
  sqlite : Option (List EmergentMessage)
  removed : List String
  report : PruneReport

def pruneLogDir (outside : Outside) (logDir : String) (today : NaiveDate)
    (retentionDays : UInt32) (report : PruneReport) : List String × PruneReport :=
  match outside.listing with
  | .notFound => ([], report)
  | .failed e =>
    ([], { report with
      errors := report.errors ++ ["Reading log directory " ++ logDir ++ " failed: " ++ e] })
  | .entries entries =>
    let expired := expiredLogFiles text (readNames entries) today retentionDays
    let removed := expired.filter fun name => (outside.remove name).isNone
    let failures := expired.filterMap fun name =>
      (outside.remove name).map fun e => "Deleting " ++ joinPath logDir name ++ " failed: " ++ e
    (removed, { report with
      filesDeleted := report.filesDeleted ++ removed.map (joinPath logDir)
      errors := report.errors ++ readErrors entries ++ failures })

def prune (outside : Outside) (sqlite : Option (List EmergentMessage)) (logDir : String)
    (retentionDays : UInt32) (now : DateTime) : Pruned :=
  let report : PruneReport := ⟨0, [], []⟩
  if !isPruningEnabled retentionDays then ⟨sqlite, [], report⟩
  else
    let deleted := pruneSqlite outside sqlite (sqliteCutoffMs (nowMs now) retentionDays) report
    let files := pruneLogDir text outside logDir now.dateNaive retentionDays deleted.2
    ⟨deleted.1, files.1, files.2⟩

/-! ### Both stores -/

structure Stores where
  log : JsonEventLog
  sqlite : Option (List EmergentMessage)

/-- The engine stores an event, in the log or in the table, runs a pass of
retention, or is started again, where a crash may have lost buffered lines. -/
inductive Action where
  | log (fault : Option LogFault) (now : SystemTime) (message : EmergentMessage)
  | row (fault : Option EventStoreError) (message : EmergentMessage)
  | prune (outside : Outside) (logDir : String) (retentionDays : UInt32) (now : DateTime)
  | restart (survives : LogLine → Bool)

def step (s : Stores) : Action → Option Stores
  | .log fault now message => some { s with log := (s.log.store text fault now message).1 }
  | .row fault message =>
    some { s with sqlite := s.sqlite.map fun rows =>
      (SqliteEventStore.store fault rows message).toOption.getD rows }
  | .prune outside logDir retentionDays now =>
    let pruned := prune text outside s.sqlite logDir retentionDays now
    let left := s.log.lines.filter fun l => !pruned.removed.contains l.file
    some { log := { s.log with lines := left }, sqlite := pruned.sqlite }
  | .restart survives => some { s with log := JsonEventLog.new (s.log.lines.filter survives) }

end

def Stores.new (sqlite : Option (List EmergentMessage)) : Stores := ⟨JsonEventLog.new [], sqlite⟩

/-! ### The arithmetic of the two windows -/

theorem saturatingSub_toNat (a b : UInt64) : (saturatingSub a b).toNat = a.toNat - b.toNat := by
  unfold saturatingSub
  by_cases h : b ≤ a
  · rw [if_pos h, UInt64.toNat_sub_of_le _ _ h]
  · have hlt : a.toNat < b.toNat := UInt64.lt_iff_toNat_lt.mp (UInt64.not_le.mp h)
    rw [if_neg h, UInt64.toNat_zero]
    omega

/-- The product of a `u32` number of days never reaches the saturation. -/
theorem window_toNat (retentionDays : UInt32) :
    (saturatingMul retentionDays.toUInt64 millisPerDay).toNat =
      retentionDays.toNat * 86400000 := by
  have hdays : retentionDays.toUInt64.toNat = retentionDays.toNat := UInt32.toNat_toUInt64 _
  have hday : millisPerDay.toNat = 86400000 := by decide
  have hlt : retentionDays.toNat < 2 ^ 32 := UInt32.toNat_lt retentionDays
  rw [saturatingMul, hdays, hday, UInt64.toNat_ofNat']
  have hmin : min (retentionDays.toNat * 86400000) (2 ^ 64 - 1) =
      retentionDays.toNat * 86400000 := by omega
  rw [hmin]
  omega

theorem DateTime.timestampMillis_lt (t : DateTime) : t.timestampMillis < 2 ^ 63 := by
  have hday := t.dateNaive.representable.2
  have hin := t.inDay
  simp only [timestampMillis, lastDay] at *
  omega

theorem nowMs_toNat (now : DateTime) : (nowMs now).toNat = now.timestampMillis.toNat := by
  have hlt := now.timestampMillis_lt
  unfold nowMs
  by_cases h : 0 ≤ now.timestampMillis
  · rw [if_pos h, UInt64.toNat_ofNat']
    omega
  · rw [if_neg h, UInt64.toNat_zero]
    omega

theorem sqliteCutoffMs_eq_some (now : DateTime) {retentionDays : UInt32}
    (h : isPruningEnabled retentionDays = true) :
    ∃ cutoff, sqliteCutoffMs (nowMs now) retentionDays = some cutoff ∧
      cutoff.toNat = now.timestampMillis.toNat - retentionDays.toNat * 86400000 := by
  refine ⟨saturatingSub (nowMs now) (saturatingMul retentionDays.toUInt64 millisPerDay), ?_, ?_⟩
  · simp [sqliteCutoffMs, h]
  · rw [saturatingSub_toNat, nowMs_toNat, window_toNat]

/-- Every millisecond of a date the window has left is below the cutoff. A date
before the epoch has none that is a timestamp. -/
theorem lt_cutoff_of_day_lt {now : DateTime} {clock : SystemTime} {days : ℕ}
    (h : clock.utcNow.dateNaive.day < now.dateNaive.day - days) :
    clock.millis < now.timestampMillis.toNat - days * 86400000 := by
  have hday : clock.utcNow.dateNaive.day = (clock.millis / 86400000 : ℤ) := rfl
  rw [hday] at h
  simp only [DateTime.timestampMillis]
  omega

variable {text : DateText}

theorem parseLogFileDate_logFileName (today : String) :
    parseLogFileDate text (JsonEventLog.logFileName today) = text.parse today := by
  simp [parseLogFileDate, JsonEventLog.logFileName, stripPrefixText_append,
    stripSuffixText_append]

theorem mem_expiredLogFiles {names : List String} {today : NaiveDate} {retentionDays : UInt32}
    {name : String} (h : name ∈ expiredLogFiles text names today retentionDays) :
    isPruningEnabled retentionDays = true ∧ ∃ date, parseLogFileDate text name = some date ∧
      date.day < today.day - retentionDays.toNat := by
  unfold expiredLogFiles oldestRetainedLogDate NaiveDate.checkedSubDays at h
  by_cases henabled : isPruningEnabled retentionDays = true
  · have hon : ¬ (!isPruningEnabled retentionDays) = true := by simp [henabled]
    rw [if_neg hon] at h
    split at h
    · cases h
    · rename_i oldest hsub
      split at hsub
      · have holdest : today.day - retentionDays.toNat = oldest.day :=
          congrArg NaiveDate.day (Option.some.inj hsub)
        have hexpired : isExpired text oldest name = true := (List.mem_filter.mp h).2
        obtain ⟨date, hdate, hlt⟩ := (Option.any_eq_true _ _).mp hexpired
        rw [holdest]
        exact ⟨henabled, date, hdate, of_decide_eq_true hlt⟩
      · cases hsub
  · have hoff : (!isPruningEnabled retentionDays) = true := by simpa using henabled
    rw [if_pos hoff] at h
    cases h

/-! ### A line is in the file of its day -/

/-- The writer appends to the file of the current date, and every line is in
the file of the date its clock read. -/
structure Rotated (text : DateText) (log : JsonEventLog) : Prop where
  writer : log.writer = log.currentDate.map JsonEventLog.logFileName
  filed : ∀ line ∈ log.lines,
    line.file = JsonEventLog.logFileName (text.format line.writtenAt.utcNow.dateNaive)

theorem Rotated.new {lines : List LogLine} (h : ∀ line ∈ lines,
    line.file = JsonEventLog.logFileName (text.format line.writtenAt.utcNow.dateNaive)) :
    Rotated text (JsonEventLog.new lines) := ⟨rfl, h⟩

theorem getWriter_ok {fault : Option LogFault} {now : SystemTime} {log log' : JsonEventLog}
    (hinv : Rotated text log) (h : log.getWriter text fault now = .ok log') :
    log'.writer = some (JsonEventLog.logFileName (text.format now.utcNow.dateNaive)) ∧
      log'.currentDate = some (text.format now.utcNow.dateNaive) ∧ log'.lines = log.lines := by
  simp only [JsonEventLog.getWriter] at h
  split at h
  · cases h
  · by_cases hcurrent : log.currentDate = some (text.format now.utcNow.dateNaive)
    · rw [if_neg (not_not.mpr hcurrent)] at h
      rw [← Except.ok.inj h, hinv.writer, hcurrent]
      exact ⟨rfl, rfl, rfl⟩
    · rw [if_pos hcurrent] at h
      split at h
      · cases h
      · split at h
        · cases h
        · rw [← Except.ok.inj h]
          exact ⟨rfl, rfl, rfl⟩

theorem Rotated.append {log : JsonEventLog} {now : SystemTime} {file : String}
    {message : EmergentMessage} {whole : Bool} (h : Rotated text log)
    (hfile : file = JsonEventLog.logFileName (text.format now.utcNow.dateNaive)) :
    Rotated text { log with lines := log.lines ++ [⟨file, message, now, whole⟩] } where
  writer := h.writer
  filed line hline := by
    rcases List.mem_append.mp hline with hold | hnew
    · exact h.filed line hold
    · rw [List.mem_singleton.mp hnew]
      exact hfile

theorem Rotated.store {log : JsonEventLog} (h : Rotated text log) (fault : Option LogFault)
    (now : SystemTime) (message : EmergentMessage) :
    Rotated text (log.store text fault now message).1 := by
  unfold JsonEventLog.store
  cases hwriter : log.getWriter text fault now with
  | error e => exact h
  | ok log' =>
    obtain ⟨hfile, hdate, hlines⟩ := getWriter_ok h hwriter
    have hopen : Rotated text log' := by
      refine ⟨?_, ?_⟩
      · rw [hfile, hdate]
        rfl
      · rw [hlines]
        exact h.filed
    simp only
    split
    · exact hopen
    · rename_i file hwritten
      have hsame : file = JsonEventLog.logFileName (text.format now.utcNow.dateNaive) :=
        Option.some.inj (hwritten.symm.trans hfile)
      split
      · exact hopen.append hsame
      · exact hopen
      · exact hopen.append hsame

/-- The messages of the whole lines. A torn line is none. -/
def wholeMessages (lines : List LogLine) : List EmergentMessage :=
  (lines.filter LogLine.whole).map LogLine.message

theorem wholeMessages_snoc (lines : List LogLine) (line : LogLine) :
    wholeMessages (lines ++ [line]) =
      wholeMessages lines ++ if line.whole then [line.message] else [] := by
  unfold wholeMessages
  cases hwhole : line.whole <;> simp [hwhole]

/-- On the whole lines the rotating log is the log of the event stores: a call that
succeeds adds its message, and one that fails adds none, whatever it tore. -/
theorem store_wholeMessages {log log' : JsonEventLog} {result : Except EventStoreError Unit}
    (h : Rotated text log) {fault : Option LogFault} {now : SystemTime}
    {message : EmergentMessage} (hstore : log.store text fault now message = (log', result)) :
    (result = .ok () ∧ Emergent.Engine.JsonEventLog.store none (wholeMessages log.lines) message =
        .ok (wholeMessages log'.lines)) ∨
      ∃ e, result = .error e ∧ wholeMessages log'.lines = wholeMessages log.lines ∧
        Emergent.Engine.JsonEventLog.store (some e) (wholeMessages log.lines) message =
          .error e := by
  unfold JsonEventLog.store at hstore
  cases hwriter : log.getWriter text fault now with
  | error e =>
    rw [hwriter] at hstore
    obtain ⟨rfl, rfl⟩ := Prod.mk.inj hstore
    exact Or.inr ⟨e, rfl, rfl, rfl⟩
  | ok opened =>
    obtain ⟨hfile, _, hlines⟩ := getWriter_ok h hwriter
    simp only [hwriter, hfile] at hstore
    split at hstore
    · obtain ⟨rfl, rfl⟩ := Prod.mk.inj hstore
      refine Or.inr ⟨_, rfl, ?_, rfl⟩
      rw [wholeMessages_snoc, hlines]
      exact List.append_nil _
    · obtain ⟨rfl, rfl⟩ := Prod.mk.inj hstore
      exact Or.inr ⟨_, rfl, congrArg wholeMessages hlines, rfl⟩
    · obtain ⟨rfl, rfl⟩ := Prod.mk.inj hstore
      refine Or.inl ⟨rfl, ?_⟩
      rw [wholeMessages_snoc, hlines]
      rfl

theorem step_rotated {s s' : Stores} {action : Action} (h : Rotated text s.log)
    (hstep : step text s action = some s') : Rotated text s'.log := by
  cases action with
  | log fault now message =>
    rw [← Option.some.inj hstep]
    exact h.store fault now message
  | row fault message =>
    rw [← Option.some.inj hstep]
    exact h
  | prune outside logDir retentionDays now =>
    rw [← Option.some.inj hstep]
    exact ⟨h.writer, fun line hline => h.filed line (List.mem_of_mem_filter hline)⟩
  | restart survives =>
    rw [← Option.some.inj hstep]
    exact Rotated.new fun line hline => h.filed line (List.mem_of_mem_filter hline)

theorem run_rotated {sqlite : Option (List EmergentMessage)} {actions : List Action}
    {s : Stores} (hrun : run (step text) (Stores.new sqlite) actions = some s) :
    Rotated text s.log :=
  have hstart : Rotated text (Stores.new sqlite).log := Rotated.new (by simp)
  run_invariant (fun _ _ _ => step_rotated) hstart hrun

/-! ### The log outlives the table -/

theorem Rotated.lt_cutoff {log : JsonEventLog} (h : Rotated text log) (htext : text.ReadsBack)
    {line : LogLine} (hline : line ∈ log.lines)
    (hclock : (line.message.timestampMs.toNat : ℤ) ≤ line.writtenAt.utcNow.timestampMillis)
    {names : List String} {now : DateTime} {retentionDays : UInt32}
    (hexpired : line.file ∈ expiredLogFiles text names now.dateNaive retentionDays) :
    ∃ cutoff, sqliteCutoffMs (nowMs now) retentionDays = some cutoff ∧
      line.message.timestampMs < cutoff := by
  obtain ⟨henabled, date, hparse, hday⟩ := mem_expiredLogFiles hexpired
  obtain ⟨cutoff, hcutoff, hvalue⟩ := sqliteCutoffMs_eq_some now henabled
  rw [h.filed line hline, parseLogFileDate_logFileName] at hparse
  have hdate : date = line.writtenAt.utcNow.dateNaive := htext _ _ hparse
  rw [hdate] at hday
  have hlt := lt_cutoff_of_day_lt hday
  rw [SystemTime.timestampMillis_utcNow] at hclock
  refine ⟨cutoff, hcutoff, UInt64.lt_iff_toNat_lt.mpr ?_⟩
  rw [hvalue]
  omega

theorem expiredLogFiles_lt_cutoff {sqlite : Option (List EmergentMessage)}
    {actions : List Action} {s : Stores} (htext : text.ReadsBack)
    (hrun : run (step text) (Stores.new sqlite) actions = some s) {line : LogLine}
    (hline : line ∈ s.log.lines)
    (hclock : (line.message.timestampMs.toNat : ℤ) ≤ line.writtenAt.utcNow.timestampMillis)
    (names : List String) (now : DateTime) (retentionDays : UInt32)
    (hexpired : line.file ∈ expiredLogFiles text names now.dateNaive retentionDays) :
    ∃ cutoff, sqliteCutoffMs (nowMs now) retentionDays = some cutoff ∧
      line.message.timestampMs < cutoff :=
  (run_rotated hrun).lt_cutoff htext hline hclock hexpired

theorem representable_september12 : firstDay ≤ 20708 ∧ (20708 : ℤ) ≤ lastDay := by decide

theorem representable_september20 : firstDay ≤ 20716 ∧ (20716 : ℤ) ≤ lastDay := by decide

def september12 : NaiveDate := ⟨20708, representable_september12⟩

def september20 : NaiveDate := ⟨20716, representable_september20⟩

def septemberText : DateText where
  format date :=
    if date = september12 then "2026-09-12" else if date = september20 then "2026-09-20" else ""
  parse s :=
    if s = "2026-09-12" then some september12
    else if s = "2026-09-20" then some september20
    else none

theorem septemberText_readsBack : septemberText.ReadsBack := by
  intro date read h
  simp only [septemberText] at h
  by_cases h12 : date = september12
  · rw [if_pos h12, if_pos rfl] at h
    rw [h12, Option.some.inj h]
  · rw [if_neg h12] at h
    by_cases h20 : date = september20
    · rw [if_pos h20, if_neg (by decide), if_pos rfl] at h
      rw [h20, Option.some.inj h]
    · rw [if_neg h20, if_neg (by decide), if_neg (by decide)] at h
      cases h

theorem representable_clock : (1789171200005 / 86400000 : ℤ) ≤ lastDay := by decide

theorem inDay_midnight : 0 < 86401000 := by decide

/-- The engine clock five milliseconds into 2026-09-12. -/
def september12Clock : SystemTime := ⟨1789171200005, representable_clock⟩

def september12Tick : EmergentMessage := { tick .null with timestampMs := 1789171200001 }

def september20Midnight : DateTime := ⟨september20, 0, inDay_midnight⟩

theorem expiredLogFiles_lt_cutoff_september :
    "events-2026-09-12.jsonl" ∈
        expiredLogFiles septemberText ["emergent.log", "events-2026-09-12.jsonl"] september20 7 ∧
      ∃ cutoff, sqliteCutoffMs (nowMs september20Midnight) 7 = some cutoff ∧
        september12Tick.timestampMs < cutoff := by
  have hexpired : "events-2026-09-12.jsonl" ∈
      expiredLogFiles septemberText ["emergent.log", "events-2026-09-12.jsonl"] september20 7 := by
    decide
  have hname : JsonEventLog.logFileName
      (septemberText.format september12Clock.utcNow.dateNaive) = "events-2026-09-12.jsonl" := by
    decide
  have hrun : run (step septemberText) (Stores.new none)
      [.log none september12Clock september12Tick] =
        some ⟨((Stores.new none).log.store septemberText none september12Clock
          september12Tick).1, none⟩ := rfl
  have hline : (⟨"events-2026-09-12.jsonl", september12Tick, september12Clock, true⟩ : LogLine) ∈
      ((Stores.new none).log.store septemberText none september12Clock
        september12Tick).1.lines := by
    rw [← hname]
    exact List.mem_singleton_self _
  have hclock : (september12Tick.timestampMs.toNat : ℤ) ≤
      september12Clock.utcNow.timestampMillis := by
    decide
  exact ⟨hexpired, expiredLogFiles_lt_cutoff septemberText_readsBack hrun hline hclock _
    september20Midnight 7 hexpired⟩

/-! ### One pass keeps the log at least as long as the table -/

theorem nowMs_fitsI64 (now : DateTime) : FitsI64 (nowMs now) := by
  have hlt := now.timestampMillis_lt
  unfold FitsI64
  rw [nowMs_toNat]
  omega

theorem cutoff_fitsI64 {now : DateTime} {retentionDays : UInt32} {cutoff : UInt64}
    (h : sqliteCutoffMs (nowMs now) retentionDays = some cutoff) : FitsI64 cutoff := by
  have hnow : (nowMs now).toNat < 2 ^ 63 := nowMs_fitsI64 now
  unfold sqliteCutoffMs at h
  split at h
  · cases h
  · rw [← Option.some.inj h]
    unfold FitsI64
    rw [saturatingSub_toNat]
    omega

theorem prune_sqlite {outside : Outside} {sqlite : Option (List EmergentMessage)}
    {logDir : String} {retentionDays : UInt32} {now : DateTime} {cutoff : UInt64}
    {rows : List EmergentMessage} (hanswers : outside.sqlite = none)
    (hcutoff : sqliteCutoffMs (nowMs now) retentionDays = some cutoff)
    (h : (prune text outside sqlite logDir retentionDays now).sqlite = some rows) :
    ∀ row ∈ rows, cutoff ≤ row.timestampMs := by
  have henabled : ¬ (!isPruningEnabled retentionDays) = true := by
    intro hoff
    rw [sqliteCutoffMs, if_pos hoff] at hcutoff
    cases hcutoff
  simp only [prune, if_neg henabled, hcutoff] at h
  cases sqlite with
  | none => cases h
  | some before =>
    simp only [pruneSqlite, deleteBefore, if_pos (cutoff_fitsI64 hcutoff), hanswers] at h
    intro row hrow
    rw [← Option.some.inj h] at hrow
    have hkept := (List.mem_filter.mp hrow).2
    exact UInt64.not_lt.mp (by simpa using hkept)

theorem prune_removed {outside : Outside} {sqlite : Option (List EmergentMessage)}
    {logDir : String} {retentionDays : UInt32} {now : DateTime} {name : String}
    (h : name ∈ (prune text outside sqlite logDir retentionDays now).removed) :
    ∃ names, name ∈ expiredLogFiles text names now.dateNaive retentionDays := by
  unfold prune at h
  split at h
  · cases h
  · simp only [pruneLogDir] at h
    split at h
    · cases h
    · cases h
    · exact ⟨_, List.mem_of_mem_filter h⟩

/-- A pass whose delete succeeds leaves no row with the timestamp of an event
whose file it removes. -/
theorem prune_drops_rows_first {sqlite : Option (List EmergentMessage)}
    {actions : List Action} {s : Stores} (htext : text.ReadsBack)
    (hrun : run (step text) (Stores.new sqlite) actions = some s) {outside : Outside}
    (hanswers : outside.sqlite = none) (logDir : String) (retentionDays : UInt32)
    (now : DateTime) {line : LogLine} (hline : line ∈ s.log.lines)
    (hclock : (line.message.timestampMs.toNat : ℤ) ≤ line.writtenAt.utcNow.timestampMillis)
    (hremoved : line.file ∈ (prune text outside s.sqlite logDir retentionDays now).removed)
    {rows : List EmergentMessage}
    (hrows : (prune text outside s.sqlite logDir retentionDays now).sqlite = some rows) :
    ∀ row ∈ rows, row.timestampMs ≠ line.message.timestampMs := by
  obtain ⟨names, hexpired⟩ := prune_removed hremoved
  obtain ⟨cutoff, hcutoff, hlt⟩ := (run_rotated hrun).lt_cutoff htext hline hclock hexpired
  intro row hrow hsame
  have hle := prune_sqlite hanswers hcutoff hrows row hrow
  rw [hsame] at hle
  exact UInt64.not_lt.mpr hle hlt

end Emergent.Engine.Retention

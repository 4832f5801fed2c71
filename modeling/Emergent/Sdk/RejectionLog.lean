import Emergent.Kit.Runs
import Emergent.Kit.Tally
import Emergent.Sdk.PublishWatch

/-!
# The rejection log (`sdks/rust/src/publish_watch.rs`)

The loop of the watcher task with what it logs. A refused or unanswered publish is
logged at once when no line was admitted in the last interval, and held back
otherwise; a later line stands for what was held, and so does the report the loop
makes when it is flushed, idle or done. The loop is two steps as in `PublishWatch`:
it takes a command, and it gets the reply to the frame in hand. Whether the queue is
empty after a reply is up to the callers. Readings of the clock are nanoseconds;
counters are numbers that do not wrap.
-/

namespace Emergent.Sdk
open Kit

def rejectionLogIntervalMs : ℕ := 1000

def shouldLogRejection (elapsedSinceLastMs : Option ℕ) (intervalMs : ℕ) : Bool :=
  match elapsedSinceLastMs with
  | none => true
  | some elapsed => intervalMs ≤ elapsed

/-- `duration_since`, which is zero for an earlier reading, in milliseconds of a `u64`. -/
def elapsedMs (now last : ℕ) : ℕ := min ((now - last) / 1000000) (2 ^ 64 - 1)

structure RejectionLog where
  lastLogged : Option ℕ
  suppressed : ℕ
  lastReason : String
  deriving Repr, DecidableEq

namespace RejectionLog

def new : RejectionLog := ⟨none, 0, ""⟩

def admitRejection (log : RejectionLog) (now : ℕ) (reason : String) : RejectionLog × Option ℕ :=
  let elapsed := log.lastLogged.map fun last => elapsedMs now last
  if shouldLogRejection elapsed rejectionLogIntervalMs then
    ({ log with suppressed := 0, lastLogged := some now }, some (log.suppressed + 1))
  else ({ log with suppressed := log.suppressed + 1, lastReason := reason }, none)

def drain (log : RejectionLog) : RejectionLog × Option (ℕ × String) :=
  if log.suppressed = 0 then (log, none)
  else ({ log with suppressed := 0, lastReason := "" }, some (log.suppressed, log.lastReason))

end RejectionLog

/-- A line of the log; `admittedAt` is the reading `admitRejection` was given. -/
structure LogLine where
  admittedAt : Option ℕ
  primitive : String
  messageType : Option String
  reason : String
  rejections : ℕ
  text : String
  deriving Repr, DecidableEq

structure WatchTask where
  name : String
  inFlight : Option String
  stopped : Bool
  disconnected : Bool
  counts : PublishStats
  rejectionLog : RejectionLog
  lines : List LogLine
  deriving Repr, DecidableEq

/-- A command is taken, `none` when the channel is closed and empty; or the frame in hand
is replied to. -/
inductive WatchEvent where
  | recv (command : Option (WatchCommand String))
  | reply (result : ReplyResult) (now : ℕ) (rxIsEmpty : Bool)
  deriving Repr, DecidableEq

namespace WatchTask

def spawn (name : String) : WatchTask where
  name := name
  inFlight := none
  stopped := false
  disconnected := false
  counts := ⟨0, 0, 0⟩
  rejectionLog := .new
  lines := []

def reportHeldRejections (t : WatchTask) : WatchTask :=
  let drained := t.rejectionLog.drain
  { t with
    rejectionLog := drained.1
    lines := t.lines ++ (drained.2.map fun held =>
      { admittedAt := none
        primitive := t.name
        messageType := none
        reason := held.2
        rejections := held.1
        text := "further published messages were rejected; they were not delivered" }).toList }

def logRejection (t : WatchTask) (messageType reason text : String) (now : ℕ) : WatchTask :=
  let admitted := t.rejectionLog.admitRejection now reason
  { t with
    rejectionLog := admitted.1
    lines := t.lines ++ (admitted.2.map fun stoodFor =>
      { admittedAt := some now
        primitive := t.name
        messageType := some messageType
        reason := reason
        rejections := stoodFor
        text := text }).toList }

def settle (t : WatchTask) (messageType : String) (outcome : PublishOutcome) (now : ℕ) :
    WatchTask :=
  let t := { t with counts := t.counts.count outcome }
  match outcome with
  | .accepted => t
  | .rejected reason =>
    t.logRejection messageType reason
      "engine rejected a published message; it was not delivered" now
  | .unanswered detail =>
    t.logRejection messageType detail
      "no engine reply for a published message; delivery is unknown" now

def recv (t : WatchTask) : Option (WatchCommand String) → WatchTask
  | some (.publish messageType) => { t with inFlight := some messageType }
  | some (.flush _) => t.reportHeldRejections
  | some (.shutdown _) | none => { t.reportHeldRejections with stopped := true }

def reply (t : WatchTask) (messageType : String) (result : ReplyResult) (now : ℕ)
    (rxIsEmpty : Bool) : WatchTask :=
  let result := if t.disconnected then .failed true "connection closed" else result
  let t := { t with inFlight := none, disconnected := t.disconnected || result.isTerminal }
  let t := t.settle messageType result.outcome now
  if rxIsEmpty then t.reportHeldRejections else t

/-- The loop takes commands until it stops, with one frame in hand at a time. -/
def step (t : WatchTask) : WatchEvent → Option WatchTask
  | .recv command =>
    if t.stopped = false ∧ t.inFlight = none then some (t.recv command) else none
  | .reply result now rxIsEmpty =>
    t.inFlight.map fun messageType => t.reply messageType result now rxIsEmpty

/-! ### The account of the lines -/

def admittedAt (t : WatchTask) : List ℕ := t.lines.filterMap LogLine.admittedAt

/-- Every publish that was refused or went unanswered is in a line or held back; a
stopped loop holds nothing back; and the lines that were admitted are an interval apart. -/
structure Accounted (t : WatchTask) : Prop where
  account : tally LogLine.rejections t.lines + t.rejectionLog.suppressed =
    t.counts.rejected + t.counts.unanswered
  spaced : t.admittedAt.Pairwise fun earlier later =>
    earlier + rejectionLogIntervalMs * 1000000 ≤ later
  last : ∀ instant ∈ t.admittedAt,
    ∃ last, t.rejectionLog.lastLogged = some last ∧ instant ≤ last
  drained : t.stopped = true → t.rejectionLog.suppressed = 0
  idle : t.stopped = true → t.inFlight = none

variable {t u : WatchTask}

theorem accounted_spawn (name : String) : (spawn name).Accounted where
  account := rfl
  spaced := List.Pairwise.nil
  last := fun _ h => by cases h
  drained := fun _ => rfl
  idle := fun _ => rfl

/-! ### What is held goes into the report -/

theorem reportHeldRejections_suppressed (t : WatchTask) :
    t.reportHeldRejections.rejectionLog.suppressed = 0 := by
  unfold reportHeldRejections RejectionLog.drain
  split_ifs with hnone
  · exact hnone
  · rfl

theorem reportHeldRejections_account (t : WatchTask) :
    tally LogLine.rejections t.reportHeldRejections.lines =
      tally LogLine.rejections t.lines + t.rejectionLog.suppressed := by
  unfold reportHeldRejections RejectionLog.drain
  split_ifs with hnone
  · simp [hnone]
  · simp

/-- The report leaves the timer alone. -/
theorem reportHeldRejections_timer (t : WatchTask) :
    t.reportHeldRejections.admittedAt = t.admittedAt ∧
      t.reportHeldRejections.rejectionLog.lastLogged = t.rejectionLog.lastLogged := by
  unfold reportHeldRejections RejectionLog.drain admittedAt
  split_ifs <;> simp

theorem Accounted.reportHeldRejections (h : t.Accounted) : t.reportHeldRejections.Accounted := by
  obtain ⟨hadmitted, hlogged⟩ := t.reportHeldRejections_timer
  have hsuppressed := t.reportHeldRejections_suppressed
  refine ⟨?_, ?_, ?_, fun _ => hsuppressed, h.idle⟩
  · rw [reportHeldRejections_account, hsuppressed]
    exact h.account
  · rw [hadmitted]
    exact h.spaced
  · rw [hadmitted, hlogged]
    exact h.last

/-! ### A rejection is in a line or held -/

theorem logRejection_account (t : WatchTask) (messageType reason text : String) (now : ℕ) :
    tally LogLine.rejections (t.logRejection messageType reason text now).lines +
        (t.logRejection messageType reason text now).rejectionLog.suppressed =
      tally LogLine.rejections t.lines + t.rejectionLog.suppressed + 1 := by
  simp only [logRejection, RejectionLog.admitRejection]
  split_ifs
  · simp only [Option.map_some, Option.toList_some, tally_append, tally_cons, tally_nil]
    omega
  · simp only [Option.map_none, Option.toList_none, List.append_nil]
    omega

/-- A millisecond cut off at the division only makes the gap longer. -/
theorem interval_le_of_due {log : RejectionLog} {now last : ℕ}
    (hdue : shouldLogRejection (log.lastLogged.map fun last => elapsedMs now last)
      rejectionLogIntervalMs = true) (hlast : log.lastLogged = some last) :
    last + rejectionLogIntervalMs * 1000000 ≤ now := by
  rw [hlast] at hdue
  have hle : rejectionLogIntervalMs ≤ elapsedMs now last := of_decide_eq_true hdue
  unfold rejectionLogIntervalMs elapsedMs at *
  omega

/-- A line is admitted an interval after the last one and sets the timer; otherwise
there is no line. -/
theorem logRejection_timer (t : WatchTask) (messageType reason text : String) (now : ℕ) :
    (∀ last, t.rejectionLog.lastLogged = some last →
        last + rejectionLogIntervalMs * 1000000 ≤ now) ∧
      (t.logRejection messageType reason text now).admittedAt = t.admittedAt ++ [now] ∧
      (t.logRejection messageType reason text now).rejectionLog.lastLogged = some now ∨
    (t.logRejection messageType reason text now).admittedAt = t.admittedAt ∧
      (t.logRejection messageType reason text now).rejectionLog.lastLogged =
        t.rejectionLog.lastLogged := by
  by_cases hdue : shouldLogRejection
      (t.rejectionLog.lastLogged.map fun last => elapsedMs now last) rejectionLogIntervalMs = true
  · left
    refine ⟨fun last hlast => interval_le_of_due hdue hlast, ?_, ?_⟩ <;>
      simp [logRejection, RejectionLog.admitRejection, hdue, admittedAt]
  · right
    constructor <;> simp [logRejection, RejectionLog.admitRejection, hdue, admittedAt]

/-- The publish has been counted, so the account is one short until it is logged. -/
theorem accounted_logRejection
    (hshort : tally LogLine.rejections t.lines + t.rejectionLog.suppressed + 1 =
      t.counts.rejected + t.counts.unanswered)
    (hspaced : t.admittedAt.Pairwise fun earlier later =>
      earlier + rejectionLogIntervalMs * 1000000 ≤ later)
    (hlast : ∀ instant ∈ t.admittedAt,
      ∃ last, t.rejectionLog.lastLogged = some last ∧ instant ≤ last)
    (hup : t.stopped = false) (messageType reason text : String) (now : ℕ) :
    (t.logRejection messageType reason text now).Accounted := by
  have hstep := t.logRejection_account messageType reason text now
  have htimer := t.logRejection_timer messageType reason text now
  have hrunning : ¬ (t.logRejection messageType reason text now).stopped = true := by
    show ¬ t.stopped = true
    simp [hup]
  refine ⟨hstep.trans hshort, ?_, ?_, fun hstop => absurd hstop hrunning,
    fun hstop => absurd hstop hrunning⟩
  · rcases htimer with ⟨hgap, hadmitted, _⟩ | ⟨hadmitted, _⟩
    · rw [hadmitted]
      refine List.pairwise_append.mpr ⟨hspaced, List.pairwise_singleton _ _, ?_⟩
      intro earlier hearlier later hlater
      rw [List.mem_singleton.mp hlater]
      obtain ⟨last, hlogged, hle⟩ := hlast earlier hearlier
      exact (Nat.add_le_add_right hle _).trans (hgap last hlogged)
    · rw [hadmitted]
      exact hspaced
  · rcases htimer with ⟨hgap, hadmitted, hlogged⟩ | ⟨hadmitted, hlogged⟩
    · rw [hadmitted, hlogged]
      intro instant hinstant
      refine ⟨now, rfl, ?_⟩
      rcases List.mem_append.mp hinstant with hold | hnew
      · obtain ⟨last, hbefore, hle⟩ := hlast instant hold
        exact hle.trans ((Nat.le_add_right last _).trans (hgap last hbefore))
      · exact (List.mem_singleton.mp hnew).le
    · rw [hadmitted, hlogged]
      exact hlast

theorem Accounted.settle (h : t.Accounted) (hup : t.stopped = false) (messageType : String)
    (outcome : PublishOutcome) (now : ℕ) : (t.settle messageType outcome now).Accounted := by
  have haccount := h.account
  cases outcome with
  | accepted => exact ⟨h.account, h.spaced, h.last, h.drained, h.idle⟩
  | rejected reason =>
    refine accounted_logRejection (t := { t with counts := t.counts.count (.rejected reason) })
      ?_ h.spaced h.last hup messageType reason _ now
    simp only [PublishStats.count, haccount]
    omega
  | unanswered detail =>
    refine accounted_logRejection (t := { t with counts := t.counts.count (.unanswered detail) })
      ?_ h.spaced h.last hup messageType detail _ now
    simp only [PublishStats.count, haccount]
    omega

/-! ### The loop -/

theorem Accounted.recv (h : t.Accounted) (hup : t.stopped = false) (hidle : t.inFlight = none)
    (command : Option (WatchCommand String)) : (t.recv command).Accounted := by
  have hheld := h.reportHeldRejections
  have hstopped : { t.reportHeldRejections with stopped := true }.Accounted :=
    ⟨hheld.account, hheld.spaced, hheld.last, fun _ => t.reportHeldRejections_suppressed,
      fun _ => hidle⟩
  cases command with
  | none => exact hstopped
  | some command =>
    cases command with
    | publish messageType =>
      have hrunning : ¬ t.stopped = true := by simp [hup]
      exact ⟨h.account, h.spaced, h.last, h.drained, fun hstop => absurd hstop hrunning⟩
    | flush before => exact hheld
    | shutdown before => exact hstopped

theorem Accounted.reply (h : t.Accounted) {messageType : String}
    (hflight : t.inFlight = some messageType) (result : ReplyResult) (now : ℕ) (rxIsEmpty : Bool) :
    (t.reply messageType result now rxIsEmpty).Accounted := by
  have hup : t.stopped = false := by
    by_contra hstop
    have hnone := h.idle (by simpa using hstop)
    rw [hflight] at hnone
    cases hnone
  have htaken : ∀ disconnected,
      { t with inFlight := none, disconnected := disconnected }.Accounted :=
    fun _ => ⟨h.account, h.spaced, h.last, h.drained, fun _ => rfl⟩
  unfold WatchTask.reply
  cases rxIsEmpty with
  | false => exact (htaken _).settle hup messageType _ now
  | true => exact ((htaken _).settle hup messageType _ now).reportHeldRejections

theorem Accounted.step (h : t.Accounted) {event : WatchEvent} (hstep : t.step event = some u) :
    u.Accounted := by
  cases event with
  | recv command =>
    simp only [WatchTask.step] at hstep
    split_ifs at hstep with hfree
    rw [← Option.some.inj hstep]
    exact h.recv hfree.1 hfree.2 command
  | reply result now rxIsEmpty =>
    obtain ⟨messageType, hflight, rfl⟩ := Option.map_eq_some_iff.mp hstep
    exact h.reply hflight result now rxIsEmpty

theorem accounted_of_run {name : String} {events : List WatchEvent}
    (h : run WatchTask.step (spawn name) events = some t) : t.Accounted :=
  run_invariant (fun _ _ _ hs hstep => hs.step hstep) (accounted_spawn name) h

/-- Whatever the callers send and the engine answers, and whatever the clock reads, no
rejection is lost to the throttle. -/
theorem rejections_accounted {name : String} {events : List WatchEvent}
    (h : run WatchTask.step (spawn name) events = some t) :
    (t.lines.map LogLine.rejections).sum + t.rejectionLog.suppressed =
        t.counts.rejected + t.counts.unanswered ∧
      (t.stopped = true → t.rejectionLog.suppressed = 0) ∧
      (t.lines.filterMap LogLine.admittedAt).Pairwise fun earlier later =>
        earlier + rejectionLogIntervalMs * 1000000 ≤ later := by
  have haccounted := accounted_of_run h
  exact ⟨haccounted.account, haccounted.drained, haccounted.spaced⟩

/-- Two refusals in a burst and a lost reply, then the channel closes. -/
def burst : List WatchEvent :=
  [.recv (some (.publish "timer.tick")),
    .reply (.response false (some "RATE_LIMITED") none) 5 false,
    .recv (some (.publish "timer.tick")),
    .reply (.response false (some "TARGET_BUSY") none) 6 false,
    .recv (some (.publish "timer.tick")),
    .reply (.failed false "timed out") 7 false,
    .recv none]

theorem rejections_accounted_burst :
    ∃ t, run WatchTask.step (spawn "timer") burst = some t ∧ t.counts = ⟨0, 2, 1⟩ ∧
      (t.lines.map LogLine.rejections).sum + t.rejectionLog.suppressed = 3 ∧ t.stopped = true ∧
      (t.stopped = true → t.rejectionLog.suppressed = 0) := by
  have hrun : (run WatchTask.step (spawn "timer") burst).isSome = true := by decide
  obtain ⟨t, ht⟩ := Option.isSome_iff_exists.mp hrun
  have hcounts : (run WatchTask.step (spawn "timer") burst).map (fun t => (t.counts, t.stopped)) =
      some (⟨0, 2, 1⟩, true) := by decide
  rw [ht] at hcounts
  have hfields := Prod.mk.inj (Option.some.inj hcounts)
  obtain ⟨haccount, hdrained, _⟩ := rejections_accounted ht
  rw [hfields.1] at haccount
  exact ⟨t, ht, hfields.1, haccount, hfields.2, hdrained⟩

/-! ### The loop is the task of the watcher -/

/-- The loop is where the task of the watcher is, with the same counts. -/
structure Follows (t : WatchTask) (w : PublishWatcher String) : Prop where
  inFlight : t.inFlight = w.inFlight
  stopped : t.stopped = !w.running
  disconnected : t.disconnected = w.disconnected
  counts : t.counts = w.stats

variable {w v : PublishWatcher String}

theorem settle_fields (t : WatchTask) (messageType : String) (outcome : PublishOutcome)
    (now : ℕ) :
    (t.settle messageType outcome now).inFlight = t.inFlight ∧
      (t.settle messageType outcome now).stopped = t.stopped ∧
      (t.settle messageType outcome now).disconnected = t.disconnected ∧
      (t.settle messageType outcome now).counts = t.counts.count outcome := by
  cases outcome <;> exact ⟨rfl, rfl, rfl, rfl⟩

theorem reply_fields (t : WatchTask) (messageType : String) (result : ReplyResult) (now : ℕ)
    (rxIsEmpty : Bool) :
    (t.reply messageType result now rxIsEmpty).inFlight = none ∧
      (t.reply messageType result now rxIsEmpty).stopped = t.stopped ∧
      (t.reply messageType result now rxIsEmpty).disconnected = (t.disconnected ||
        (if t.disconnected then .failed true "connection closed" else result).isTerminal) ∧
      (t.reply messageType result now rxIsEmpty).counts = t.counts.count
        (if t.disconnected then .failed true "connection closed" else result).outcome := by
  unfold reply
  cases rxIsEmpty <;> exact settle_fields _ messageType _ now

theorem Follows.watch (hf : t.Follows w) (h : w.watch = some v) :
    ∃ command u, t.step (.recv command) = some u ∧ u.Follows v := by
  obtain ⟨hup, hflight, hcases⟩ := PublishWatcher.watch_cases h
  have hfree : t.stopped = false ∧ t.inFlight = none := by
    rw [hf.stopped, hf.inFlight, hup]
    exact ⟨rfl, hflight⟩
  have hstep : ∀ command, t.step (.recv command) = some (t.recv command) :=
    fun _ => if_pos hfree
  rcases hcases with ⟨frame, queue, _, rfl⟩ | ⟨before, queue, _, rfl⟩ | ⟨before, queue, _, rfl⟩
  · exact ⟨some (.publish frame), _, hstep _, rfl, hf.stopped, hf.disconnected, hf.counts⟩
  · exact ⟨some (.flush before), _, hstep _, hf.inFlight, hf.stopped, hf.disconnected, hf.counts⟩
  · exact ⟨some (.shutdown before), _, hstep _, hf.inFlight, rfl, hf.disconnected, hf.counts⟩

theorem Follows.reply (hf : t.Follows w) {result : ReplyResult} (h : w.reply result = some v)
    (now : ℕ) (rxIsEmpty : Bool) :
    ∃ u, t.step (.reply result now rxIsEmpty) = some u ∧ u.Follows v := by
  obtain ⟨messageType, hflight, rfl⟩ := Option.map_eq_some_iff.mp h
  have hstep : t.step (.reply result now rxIsEmpty) =
      some (t.reply messageType result now rxIsEmpty) := by
    show Option.map _ t.inFlight = _
    rw [hf.inFlight, hflight]
    rfl
  obtain ⟨hnone, hstopped, hdisconnected, hcounts⟩ :=
    t.reply_fields messageType result now rxIsEmpty
  refine ⟨_, hstep, hnone, hstopped.trans hf.stopped, ?_, ?_⟩
  · rw [hdisconnected, hf.disconnected]
  · rw [hcounts, hf.disconnected, hf.counts]

/-! ### A watcher with its callers -/

inductive WatcherAction where
  | publish (messageType : String)
  | flush
  | shutdown
  | watch
  | reply (result : ReplyResult) (now : ℕ)
  deriving Repr, DecidableEq

def act (w : PublishWatcher String) : WatcherAction → Option (PublishWatcher String)
  | .publish messageType => w.publish messageType
  | .flush => w.flush
  | .shutdown => w.shutdown
  | .watch => w.watch
  | .reply result _ => w.reply result

theorem enqueue_follows (hf : t.Follows w) {command : WatchCommand String}
    (h : w.enqueue command = some v) : t.Follows v := by
  obtain rfl := PublishWatcher.enqueue_eq h
  exact ⟨hf.inFlight, hf.stopped, hf.disconnected, hf.counts⟩

/-- The callers only queue commands. -/
theorem Follows.act (hf : t.Follows w) {action : WatcherAction} (h : act w action = some v) :
    ∃ events u, run WatchTask.step t events = some u ∧ u.Follows v := by
  cases action with
  | publish messageType =>
    have hpublish : w.publish messageType = some v := h
    unfold PublishWatcher.publish at hpublish
    split_ifs at hpublish
    obtain ⟨queued, hqueued, rfl⟩ := Option.map_eq_some_iff.mp hpublish
    have hkept := enqueue_follows hf hqueued
    exact ⟨[], t, rfl, hkept.inFlight, hkept.stopped, hkept.disconnected, hkept.counts⟩
  | flush =>
    have hflush : w.flush = some v := h
    unfold PublishWatcher.flush at hflush
    split_ifs at hflush
    · exact ⟨[], t, rfl, enqueue_follows hf hflush⟩
    · exact ⟨[], t, rfl, Option.some.inj hflush ▸ hf⟩
  | shutdown =>
    obtain ⟨queued, hqueued, rfl⟩ := Option.map_eq_some_iff.mp h
    have hkept : t.Follows queued := by
      split_ifs at hqueued
      · exact enqueue_follows hf hqueued
      · exact Option.some.inj hqueued ▸ hf
    exact ⟨[], t, rfl, hkept.inFlight, hkept.stopped, hkept.disconnected, hkept.counts⟩
  | watch =>
    obtain ⟨command, u, hstep, hfollows⟩ := hf.watch h
    exact ⟨[.recv command], u, run_cons.mpr ⟨u, hstep, rfl⟩, hfollows⟩
  | reply result now =>
    obtain ⟨u, hstep, hfollows⟩ := hf.reply h now w.queue.isEmpty
    exact ⟨[.reply result now w.queue.isEmpty], u, run_cons.mpr ⟨u, hstep, rfl⟩, hfollows⟩

/-- Any run of the watcher with its callers is a run of the loop, so the lines of the loop
and what it holds back are what `publish_stats` counts as rejected or unanswered. -/
theorem watcher_logged (name : String) {actions : List WatcherAction}
    (h : run act PublishWatcher.spawn actions = some w) :
    ∃ (events : List WatchEvent) (t : WatchTask),
      run WatchTask.step (spawn name) events = some t ∧ t.Follows w ∧
        tally LogLine.rejections t.lines + t.rejectionLog.suppressed =
          w.stats.rejected + w.stats.unanswered := by
  have hloop : ∃ (events : List WatchEvent) (t : WatchTask),
      run WatchTask.step (spawn name) events = some t ∧ t.Follows w := by
    refine run_invariant (I := fun w => ∃ (events : List WatchEvent) (t : WatchTask),
      run WatchTask.step (spawn name) events = some t ∧ t.Follows w) ?_ ?_ h
    · rintro w action v ⟨events, t, hrun, hf⟩ hact
      obtain ⟨next, u, hnext, hu⟩ := hf.act hact
      exact ⟨events ++ next, u, run_append.mpr ⟨t, hrun, hnext⟩, hu⟩
    · exact ⟨[], spawn name, rfl, rfl, rfl, rfl, rfl⟩
  obtain ⟨events, t, hrun, hf⟩ := hloop
  refine ⟨events, t, hrun, hf, ?_⟩
  rw [← hf.counts]
  exact (accounted_of_run hrun).account

end WatchTask

end Emergent.Sdk

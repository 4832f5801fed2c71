import Mathlib.Tactic

/-!
# The publish watcher (`sdks/rust/src/publish_watch.rs`)

`publish` only queues a frame; one task per connection writes the frames in
order, waits for the engine's reply to each and counts it. `flush` and
`shutdown` queue a command of their own. The task is two steps here: it takes a
command, and it gets the reply to the frame it has written, so any other party
may act in between.

`queued` and `answered` log the publishes that returned `Ok` and those the task
has counted. The number a `Flush` or `Shutdown` carries is such a log too: how
many publishes were queued before it. What is logged to the console is left out.
-/

namespace Emergent.Sdk

def watchQueueCapacity : ℕ := 1024

inductive PublishOutcome where
  | accepted
  | rejected (reason : String)
  | unanswered (detail : String)
  deriving Repr, DecidableEq

def rejectionReason : Option String → Option String → String
  | some code, some message => s!"{code}: {message}"
  | some code, none => code
  | none, some message => message
  | none, none => "engine reported no reason"

def classifyReply (success : Bool) (errorCode error : Option String) : PublishOutcome :=
  if success then .accepted else .rejected (rejectionReason errorCode error)

/-- What `request_with_timeout` returns; an error is terminal for the transport
or not. -/
inductive ReplyResult where
  | response (success : Bool) (errorCode error : Option String)
  | failed (terminal : Bool) (detail : String)
  deriving Repr, DecidableEq

def ReplyResult.outcome : ReplyResult → PublishOutcome
  | .response success errorCode error => classifyReply success errorCode error
  | .failed _ detail => .unanswered detail

def ReplyResult.isTerminal : ReplyResult → Bool
  | .failed terminal _ => terminal
  | .response .. => false

structure PublishStats where
  accepted : ℕ
  rejected : ℕ
  unanswered : ℕ
  deriving Repr, DecidableEq

def PublishStats.count (stats : PublishStats) : PublishOutcome → PublishStats
  | .accepted => { stats with accepted := stats.accepted + 1 }
  | .rejected _ => { stats with rejected := stats.rejected + 1 }
  | .unanswered _ => { stats with unanswered := stats.unanswered + 1 }

def PublishStats.total (stats : PublishStats) : ℕ :=
  stats.accepted + stats.rejected + stats.unanswered

theorem PublishStats.total_count (stats : PublishStats) (outcome : PublishOutcome) :
    (stats.count outcome).total = stats.total + 1 := by
  cases outcome <;> simp only [PublishStats.count, PublishStats.total] <;> omega

inductive WatchCommand (φ : Type) where
  | publish (frame : φ)
  | flush (before : ℕ)
  | shutdown (before : ℕ)
  deriving Repr, DecidableEq

structure PublishWatcher (φ : Type) where
  queue : List (WatchCommand φ)
  inFlight : Option φ
  running : Bool
  handleTaken : Bool
  disconnected : Bool
  stats : PublishStats
  replies : List ℕ
  ended : Option ℕ
  queued : List φ
  answered : List (φ × PublishOutcome)
  deriving Repr, DecidableEq

namespace PublishWatcher

variable {φ : Type}

def spawn : PublishWatcher φ where
  queue := []
  inFlight := none
  running := true
  handleTaken := false
  disconnected := false
  stats := ⟨0, 0, 0⟩
  replies := []
  ended := none
  queued := []
  answered := []

def enqueue (w : PublishWatcher φ) (command : WatchCommand φ) : Option (PublishWatcher φ) :=
  if w.queue.length < watchQueueCapacity then some { w with queue := w.queue ++ [command] }
  else none

/-- `publish` returns `Ok`; with the task gone or the connection known to be
closed it returns an error instead and queues nothing. -/
def publish (w : PublishWatcher φ) (frame : φ) : Option (PublishWatcher φ) :=
  if w.running = true ∧ w.disconnected = false then
    (w.enqueue (.publish frame)).map fun w => { w with queued := w.queued ++ [frame] }
  else none

def flush (w : PublishWatcher φ) : Option (PublishWatcher φ) :=
  if w.running then w.enqueue (.flush w.queued.length) else some w

/-- `shutdown` up to its wait: the caller who finds the handle takes it. -/
def shutdown (w : PublishWatcher φ) : Option (PublishWatcher φ) :=
  (if w.running then w.enqueue (.shutdown w.queued.length) else some w).map fun w =>
    { w with handleTaken := true }

/-- The task takes the next command. The rest of the queue goes with the
receiver when it stops. -/
def watch (w : PublishWatcher φ) : Option (PublishWatcher φ) :=
  if w.running = true ∧ w.inFlight.isNone = true then
    match w.queue with
    | [] => none
    | .publish frame :: queue => some { w with queue := queue, inFlight := some frame }
    | .flush before :: queue => some { w with queue := queue, replies := w.replies ++ [before] }
    | .shutdown before :: _ =>
      some { w with queue := [], running := false, ended := some before }
  else none

/-- The reply to the frame in flight; on a connection known to be closed nothing
is written. -/
def reply (w : PublishWatcher φ) (result : ReplyResult) : Option (PublishWatcher φ) :=
  w.inFlight.map fun frame =>
    let result := if w.disconnected then .failed true "connection closed" else result
    { w with
      inFlight := none
      disconnected := w.disconnected || result.isTerminal
      stats := w.stats.count result.outcome
      answered := w.answered ++ [(frame, result.outcome)] }

/-! ### The account of the publishes -/

def frames : List (WatchCommand φ) → List φ
  | [] => []
  | .publish frame :: queue => frame :: frames queue
  | .flush _ :: queue | .shutdown _ :: queue => frames queue

/-- With `base` publishes taken before the queue, each `Flush` and `Shutdown` in
it stands behind the publishes it was queued after. -/
def Behind : ℕ → List (WatchCommand φ) → Prop
  | _, [] => True
  | base, .publish _ :: queue => Behind (base + 1) queue
  | base, .flush before :: queue | base, .shutdown before :: queue =>
    before ≤ base ∧ Behind base queue

theorem frames_append (q r : List (WatchCommand φ)) : frames (q ++ r) = frames q ++ frames r := by
  induction q with
  | nil => rfl
  | cons command q ih => cases command <;> simp [frames, ih]

theorem behind_append {base : ℕ} {q r : List (WatchCommand φ)} :
    Behind base (q ++ r) ↔ Behind base q ∧ Behind (base + (frames q).length) r := by
  induction q generalizing base with
  | nil => simp [Behind, frames]
  | cons command q ih =>
    cases command with
    | publish frame =>
      simp only [List.cons_append, Behind, frames, ih, List.length_cons]
      rw [show base + 1 + (frames q).length = base + ((frames q).length + 1) by omega]
    | flush before => simp only [List.cons_append, Behind, frames, ih, and_assoc]
    | shutdown before => simp only [List.cons_append, Behind, frames, ih, and_assoc]

def taken (w : PublishWatcher φ) : List φ := w.answered.map Prod.fst ++ w.inFlight.toList

/-- Every publish is answered, in flight or queued, in order, while the task
runs; a `Flush` is answered, and the task stops, only behind the publishes
queued before. -/
structure Accounted (w : PublishWatcher φ) : Prop where
  order : w.running = true → w.queued = w.taken ++ frames w.queue
  sofar : w.taken <+: w.queued
  idle : w.running = false → w.inFlight = none
  behind : Behind w.taken.length w.queue
  replies : ∀ n ∈ w.replies, n ≤ w.answered.length
  ended : ∀ n, w.ended = some n → n ≤ w.answered.length
  stopped : w.ended.isSome = !w.running
  counted : w.stats.total = w.answered.length

theorem accounted_spawn : (spawn : PublishWatcher φ).Accounted where
  order := fun _ => rfl
  sofar := List.nil_prefix
  idle := by simp [spawn]
  behind := trivial
  replies := by simp [spawn]
  ended := by simp [spawn]
  stopped := rfl
  counted := rfl

variable {w v : PublishWatcher φ}

theorem enqueue_eq {command : WatchCommand φ} (h : w.enqueue command = some v) :
    v = { w with queue := w.queue ++ [command] } := by
  unfold enqueue at h
  split_ifs at h
  exact (Option.some.inj h).symm

theorem shutdown_frame (h : w.shutdown = some v) :
    v.queue = (if w.running then w.queue ++ [.shutdown w.queued.length] else w.queue) ∧
      v.queued = w.queued ∧ v.answered = w.answered ∧ v.ended = w.ended := by
  obtain ⟨u, hu, rfl⟩ := Option.map_eq_some_iff.mp h
  split_ifs at hu with hup
  · obtain rfl := enqueue_eq hu
    exact ⟨by simp [hup], rfl, rfl, rfl⟩
  · obtain rfl := Option.some.inj hu
    exact ⟨by simp [hup], rfl, rfl, rfl⟩

theorem watch_cases (h : w.watch = some v) :
    w.running = true ∧ w.inFlight = none ∧
      ((∃ frame queue, w.queue = .publish frame :: queue ∧
          v = { w with queue := queue, inFlight := some frame }) ∨
        (∃ before queue, w.queue = .flush before :: queue ∧
          v = { w with queue := queue, replies := w.replies ++ [before] }) ∨
        ∃ before queue, w.queue = .shutdown before :: queue ∧
          v = { w with queue := [], running := false, ended := some before }) := by
  unfold watch at h
  split_ifs at h with hfree
  refine ⟨hfree.1, Option.isNone_iff_eq_none.mp hfree.2, ?_⟩
  split at h
  · cases h
  · rename_i frame queue hqueue
    exact Or.inl ⟨frame, queue, hqueue, (Option.some.inj h).symm⟩
  · rename_i before queue hqueue
    exact Or.inr (Or.inl ⟨before, queue, hqueue, (Option.some.inj h).symm⟩)
  · rename_i before queue hqueue
    exact Or.inr (Or.inr ⟨before, queue, hqueue, (Option.some.inj h).symm⟩)

theorem Accounted.publish (hw : w.Accounted) {frame : φ} (h : w.publish frame = some v) :
    v.Accounted := by
  unfold PublishWatcher.publish at h
  split_ifs at h with hup
  obtain ⟨u, hu, rfl⟩ := Option.map_eq_some_iff.mp h
  obtain rfl := enqueue_eq hu
  refine ⟨fun _ => ?_, ?_, hw.idle, ?_, hw.replies, hw.ended, hw.stopped, hw.counted⟩
  · have horder := hw.order hup.1
    simp only [frames_append, frames] at horder ⊢
    rw [horder, List.append_assoc]
    rfl
  · exact hw.sofar.trans (List.prefix_append _ _)
  · exact behind_append.mpr ⟨hw.behind, trivial⟩

theorem Accounted.enqueue (hw : w.Accounted) (hup : w.running = true)
    (command : WatchCommand φ) (hframes : frames [command] = [])
    (hbehind : ∀ base, w.queued.length ≤ base → Behind base [command])
    (h : w.enqueue command = some v) : v.Accounted := by
  obtain rfl := enqueue_eq h
  have horder := hw.order hup
  refine ⟨fun _ => ?_, hw.sofar, hw.idle, ?_, hw.replies, hw.ended, hw.stopped, hw.counted⟩
  · show w.queued = w.taken ++ frames (w.queue ++ [command])
    rw [frames_append, hframes, List.append_nil]
    exact horder
  · have hle : w.queued.length ≤ w.taken.length + (frames w.queue).length := by
      rw [← List.length_append, ← horder]
    exact behind_append.mpr ⟨hw.behind, hbehind _ hle⟩

theorem Accounted.flush (hw : w.Accounted) (h : w.flush = some v) : v.Accounted := by
  unfold PublishWatcher.flush at h
  split_ifs at h with hup
  · exact hw.enqueue hup (.flush w.queued.length) rfl (fun base hbase => ⟨hbase, trivial⟩) h
  · obtain rfl := Option.some.inj h
    exact hw

theorem Accounted.shutdown (hw : w.Accounted) (h : w.shutdown = some v) : v.Accounted := by
  obtain ⟨u, hu, rfl⟩ := Option.map_eq_some_iff.mp h
  have hkept : u.Accounted := by
    split_ifs at hu with hup
    · exact hw.enqueue hup (.shutdown w.queued.length) rfl (fun base hbase => ⟨hbase, trivial⟩) hu
    · obtain rfl := Option.some.inj hu
      exact hw
  exact ⟨hkept.order, hkept.sofar, hkept.idle, hkept.behind, hkept.replies, hkept.ended,
    hkept.stopped, hkept.counted⟩

theorem Accounted.watch (hw : w.Accounted) (h : w.watch = some v) : v.Accounted := by
  obtain ⟨hup, hflight, hcases⟩ := watch_cases h
  have htaken : w.taken.length = w.answered.length := by simp [taken, hflight]
  have horder := hw.order hup
  have hbehind := hw.behind
  rcases hcases with ⟨frame, queue, hqueue, rfl⟩ | ⟨before, queue, hqueue, rfl⟩ |
    ⟨before, queue, hqueue, rfl⟩
  · rw [hqueue] at horder hbehind
    have hnext : w.queued = w.answered.map Prod.fst ++ [frame] ++ frames queue := by
      simpa [taken, hflight, frames] using horder
    refine ⟨fun _ => hnext, ?_, fun hdown => ?_, ?_, hw.replies, hw.ended, hw.stopped, hw.counted⟩
    · simp only [taken, Option.toList_some]
      rw [hnext]
      exact List.prefix_append _ _
    · rw [hup] at hdown
      cases hdown
    · simpa [taken, hflight, Behind] using hbehind
  · rw [hqueue] at horder hbehind
    refine ⟨fun _ => horder, hw.sofar, hw.idle, hbehind.2, fun n hn => ?_, hw.ended, hw.stopped,
      hw.counted⟩
    rcases List.mem_append.mp hn with hn | hn
    · exact hw.replies n hn
    · rw [List.mem_singleton.mp hn, ← htaken]
      exact hbehind.1
  · rw [hqueue] at hbehind
    refine ⟨fun hdown => (by cases hdown), hw.sofar, fun _ => hflight, trivial, hw.replies,
      fun n hn => ?_, rfl, hw.counted⟩
    obtain rfl := Option.some.inj hn
    rw [← htaken]
    exact hbehind.1

theorem Accounted.reply (hw : w.Accounted) {result : ReplyResult} (h : w.reply result = some v) :
    v.Accounted := by
  obtain ⟨frame, hframe, hv⟩ := Option.map_eq_some_iff.mp h
  -- the frame moves from the flight to the account
  have htaken : v.taken = w.taken := by
    rw [← hv]
    simp [taken, hframe]
  have hlength : v.answered.length = w.answered.length + 1 := by
    rw [← hv]
    simp
  have hcounted := hw.counted
  refine ⟨fun hup => ?_, ?_, ?_, ?_, fun n hn => ?_, fun n hn => ?_, ?_, ?_⟩
  · rw [htaken]
    subst hv
    exact hw.order hup
  · rw [htaken]
    subst hv
    exact hw.sofar
  · subst hv
    exact fun _ => rfl
  · rw [htaken]
    subst hv
    exact hw.behind
  · have hle := hw.replies n (by rw [← hv] at hn; exact hn)
    omega
  · have hle := hw.ended n (by rw [← hv] at hn; exact hn)
    omega
  · subst hv
    exact hw.stopped
  · rw [hlength, ← hcounted, ← hv]
    exact PublishStats.total_count _ _

theorem Accounted.all_answered (hw : w.Accounted) (h : w.queued.length ≤ w.answered.length) :
    w.answered.map Prod.fst = w.queued := by
  have hprefix : w.answered.map Prod.fst <+: w.queued :=
    (List.prefix_append _ _).trans hw.sofar
  exact hprefix.eq_of_length_le (by simpa using h)

end PublishWatcher

end Emergent.Sdk

import Emergent.Kit.Modify
import Emergent.Kit.Runs
import Emergent.Kit.Splits
import Emergent.Sdk.PublishWatch

/-!
# Clones of one connected primitive (`sdks/rust/src/publish_watch.rs`)

Any number of clones share one watcher. `PublishWatch` takes a call of the
watcher as one step; here a call stops wherever another clone or the task can
run: at every `await`, and between the second `ensure_connected` and
`permit.send`, where the call already holds its place in the queue.
`publish_ack` and `disconnect` (`connection.rs`) are a flush and a shutdown with
more behind them. The IPC client is outside: the run says which of its writes
and requests go through.

A call is known by its place in `calls`. `queued`, `answered` and `written` log
the publishes that were sent to the queue, those that the task has counted and
the frames on the socket. A call carries the calls that had returned `Ok` before
it began, and a `Flush` how many publishes were queued before it.
-/

namespace Emergent.Sdk
open Kit

inductive PublishPoint where
  | checking
  | reserving
  | permitted
  | sending
  | returned (ok : Bool)
  | abandoned
  deriving Repr, DecidableEq

inductive FlushPoint where
  | reserving
  | permitted
  | flushing (ahead : ℕ)
  | flushed (ahead : ℕ)
  | requested (ahead : ℕ)
  | returned (ahead : ℕ) (ok : Bool)
  | abandoned
  deriving Repr, DecidableEq

inductive ShutdownPoint where
  | reserving
  | permitted
  | stopping
  | joining
  | closing
  | returned (ok : Bool)
  | abandoned
  deriving Repr, DecidableEq

/-- `publish`, `flush` or `publish_ack`, `shutdown` or `disconnect`. -/
inductive CallPoint where
  | publish (point : PublishPoint)
  | flush (ack : Bool) (point : FlushPoint)
  | shutdown (disconnect : Bool) (point : ShutdownPoint)
  deriving Repr, DecidableEq

namespace CallPoint

def holdsPermit : CallPoint → Bool
  | .publish .permitted | .publish .sending => true
  | .flush _ .permitted | .shutdown _ .permitted => true
  | _ => false

/-- A `publish` or `publish_ack` that has returned `Ok`. -/
def isSent : CallPoint → Bool
  | .publish (.returned true) | .flush true (.returned _ true) => true
  | _ => false

def isFinished : CallPoint → Bool
  | .publish (.returned _) | .publish .abandoned => true
  | .flush _ (.returned _ _) | .flush _ .abandoned => true
  | .shutdown _ (.returned _) | .shutdown _ .abandoned => true
  | _ => false

/-- The call is at an `await`, so its future can be dropped. -/
def awaits : CallPoint → Bool
  | .publish .sending | .shutdown _ .stopping => false
  | p => !p.isFinished

def abandon : CallPoint → CallPoint
  | .publish _ => .publish .abandoned
  | .flush ack _ => .flush ack .abandoned
  | .shutdown disconnect _ => .shutdown disconnect .abandoned

def afterFlush (ack : Bool) (ahead : ℕ) : CallPoint :=
  .flush ack (if ack then .flushed ahead else .returned ahead true)

def afterShutdown (disconnect : Bool) : CallPoint :=
  .shutdown disconnect (if disconnect then .closing else .returned true)

end CallPoint

structure WatcherCall where
  earlier : List ℕ
  point : CallPoint
  deriving Repr, DecidableEq

inductive QueuedCommand where
  | publish (call : ℕ)
  | flush (call ahead : ℕ)
  | shutdown
  deriving Repr, DecidableEq

/-- `taken` before `disconnected` is read, `waiting` while the request runs,
`leaving` between the loop and the drop of the receiver. -/
inductive WatchPoint where
  | receiving
  | taken (call : ℕ)
  | waiting (call : ℕ)
  | leaving
  | stopped
  deriving Repr, DecidableEq

structure PublishCalls where
  queue : List QueuedCommand
  task : WatchPoint
  handleTaken : Bool
  disconnected : Bool
  connected : Bool
  dropped : Bool
  stats : PublishStats
  calls : List WatcherCall
  queued : List ℕ
  answered : List ℕ
  written : List ℕ
  deriving Repr, DecidableEq

inductive PublishAction where
  | publish
  | flush (ack : Bool)
  | shutdown (disconnect : Bool)
  | proceed (call : ℕ)
  | client (call : ℕ) (ok : Bool)
  | abandon (call : ℕ)
  | recv
  | write
  | fail (terminal : Bool) (detail : String)
  | answer (result : ReplyResult)
  | exit
  | lose
  | drop
  deriving Repr, DecidableEq

namespace PublishCalls

def spawn : PublishCalls where
  queue := []
  task := .receiving
  handleTaken := false
  disconnected := false
  connected := true
  dropped := false
  stats := ⟨0, 0, 0⟩
  calls := []
  queued := []
  answered := []
  written := []

def ensureConnected (s : PublishCalls) : Bool := !s.disconnected && s.connected

def hasRoom (s : PublishCalls) : Bool :=
  s.queue.length + s.calls.countP (fun c => c.point.holdsPermit) < watchQueueCapacity

def sent (s : PublishCalls) : List ℕ :=
  (List.range s.calls.length).filter fun i => s.calls[i]?.any fun c => c.point.isSent

def published (s : PublishCalls) : ℕ :=
  s.calls.countP fun c => decide (c.point = .publish (.returned true))

def begin (s : PublishCalls) (point : CallPoint) : Option PublishCalls :=
  if s.dropped then none else some { s with calls := s.calls ++ [⟨s.sent, point⟩] }

def move (s : PublishCalls) (call : ℕ) (point : CallPoint) : PublishCalls :=
  { s with calls := s.calls.modify call fun c => { c with point := point } }

/-- With the receiver gone `permit.send` still returns, and nothing takes what it
has put into the queue. -/
def proceedPublish (s : PublishCalls) (call : ℕ) : PublishPoint → Option PublishCalls
  | .checking =>
    some (s.move call (.publish (if s.ensureConnected then .reserving else .returned false)))
  | .reserving =>
    if s.task = .stopped then some (s.move call (.publish (.returned false)))
    else if s.hasRoom then some (s.move call (.publish .permitted))
    else none
  | .permitted =>
    some (s.move call (.publish (if s.ensureConnected then .sending else .returned false)))
  | .sending =>
    some { s.move call (.publish (.returned true)) with
      queue := s.queue ++ [.publish call]
      queued := s.queued ++ [call] }
  | .returned _ | .abandoned => none

def proceedFlush (s : PublishCalls) (call : ℕ) (ack : Bool) : FlushPoint → Option PublishCalls
  | .reserving =>
    if s.task = .stopped then some (s.move call (.afterFlush ack s.queued.length))
    else if s.hasRoom then some (s.move call (.flush ack .permitted))
    else none
  | .permitted =>
    some { s.move call (.flush ack (.flushing s.queued.length)) with
      queue := s.queue ++ [.flush call s.queued.length] }
  | .flushing ahead =>
    -- answered by the task, or dropped with the queue
    if .flush call ahead ∈ s.queue then none else some (s.move call (.afterFlush ack ahead))
  | .flushed _ | .requested _ | .returned _ _ | .abandoned => none

def proceedShutdown (s : PublishCalls) (call : ℕ) (disconnect : Bool) :
    ShutdownPoint → Option PublishCalls
  | .reserving =>
    if s.task = .stopped then some (s.move call (.shutdown disconnect .stopping))
    else if s.hasRoom then some (s.move call (.shutdown disconnect .permitted))
    else none
  | .permitted =>
    some { s.move call (.shutdown disconnect .stopping) with queue := s.queue ++ [.shutdown] }
  | .stopping =>
    if s.handleTaken then some (s.move call (.afterShutdown disconnect))
    else some { s.move call (.shutdown disconnect .joining) with handleTaken := true }
  | .joining =>
    if s.task = .stopped then some (s.move call (.afterShutdown disconnect)) else none
  | .closing | .returned _ | .abandoned => none

def proceed (s : PublishCalls) (call : ℕ) : CallPoint → Option PublishCalls
  | .publish point => s.proceedPublish call point
  | .flush ack point => s.proceedFlush call ack point
  | .shutdown disconnect point => s.proceedShutdown call disconnect point

/-- What the client does for a call: it writes the frame of a `publish_ack`,
answers it, or closes the connection. -/
def client (s : PublishCalls) (call : ℕ) (ok : Bool) : CallPoint → Option PublishCalls
  | .flush ack (.flushed ahead) =>
    if ok then
      some { s.move call (.flush ack (.requested ahead)) with written := s.written ++ [call] }
    else some (s.move call (.flush ack (.returned ahead false)))
  | .flush ack (.requested ahead) => some (s.move call (.flush ack (.returned ahead ok)))
  | .shutdown disconnect .closing =>
    some { s.move call (.shutdown disconnect (.returned ok)) with
      connected := s.connected && !ok }
  | _ => none

def abandon (s : PublishCalls) (call : ℕ) (point : CallPoint) : Option PublishCalls :=
  if point.awaits then some (s.move call point.abandon) else none

/-! ### The task (`run`) -/

def recv (s : PublishCalls) : Option PublishCalls :=
  if s.task = .receiving then
    match s.queue with
    | [] => if s.dropped then some { s with task := .leaving } else none
    | .publish call :: queue => some { s with queue := queue, task := .taken call }
    | .flush _ _ :: queue => some { s with queue := queue }
    | .shutdown :: queue => some { s with queue := queue, task := .leaving }
  else none

def settle (s : PublishCalls) (call : ℕ) (result : ReplyResult) : PublishCalls :=
  { s with
    task := .receiving
    disconnected := s.disconnected || result.isTerminal
    stats := s.stats.count result.outcome
    answered := s.answered ++ [call] }

def write (s : PublishCalls) : Option PublishCalls :=
  match s.task with
  | .taken call =>
    if s.disconnected then none
    else some { s with task := .waiting call, written := s.written ++ [call] }
  | _ => none

/-- The request fails before its frame is on the socket. -/
def fail (s : PublishCalls) (terminal : Bool) (detail : String) : Option PublishCalls :=
  match s.task with
  | .taken call =>
    some (s.settle call
      (if s.disconnected then .failed true "connection closed" else .failed terminal detail))
  | _ => none

def answer (s : PublishCalls) (result : ReplyResult) : Option PublishCalls :=
  match s.task with
  | .waiting call => some (s.settle call result)
  | _ => none

def exit (s : PublishCalls) : Option PublishCalls :=
  if s.task = .leaving then some { s with task := .stopped, queue := [] } else none

def step (s : PublishCalls) : PublishAction → Option PublishCalls
  | .publish => s.begin (.publish .checking)
  | .flush ack => s.begin (.flush ack .reserving)
  | .shutdown disconnect => s.begin (.shutdown disconnect .reserving)
  | .proceed call => s.calls[call]?.bind fun c => s.proceed call c.point
  | .client call ok => s.calls[call]?.bind fun c => s.client call ok c.point
  | .abandon call => s.calls[call]?.bind fun c => s.abandon call c.point
  | .recv => s.recv
  | .write => s.write
  | .fail terminal detail => s.fail terminal detail
  | .answer result => s.answer result
  | .exit => s.exit
  | .lose => some { s with connected := false }
  | .drop =>
    if s.calls.all fun c => c.point.isFinished then some { s with dropped := true } else none

end PublishCalls

/-! ### What a step of a call does -/

namespace CallPoint

/-- The publishes in front of the flush that the call has waited for. -/
def flushedBehind : CallPoint → Option ℕ
  | .flush _ (.flushed ahead) | .flush _ (.requested ahead) => some ahead
  | .flush _ (.returned ahead _) => some ahead
  | _ => none

/-- The client has the frame of the `publish_ack`, or had it and the call is gone. -/
def mayHaveWritten : CallPoint → Bool
  | .flush _ (.requested _) | .flush _ (.returned _ _) | .flush _ .abandoned => true
  | _ => false

def hasWritten : CallPoint → Bool
  | .flush _ (.requested _) | .flush true (.returned _ true) => true
  | _ => false

end CallPoint

namespace PublishCalls

variable {s t : PublishCalls} {call : ℕ}

/-- A step of a call that puts nothing into the queue. -/
structure Aside (s : PublishCalls) (call : ℕ) (p q : CallPoint) : Prop where
  unsent : p ≠ .publish (.returned true) ∧ q ≠ .publish (.returned true)
  flushing : ∀ ack ahead, q ≠ .flush ack (.flushing ahead)
  flushed : ∀ ahead, q.flushedBehind = some ahead →
    p.flushedBehind = some ahead ∨
      (∃ ack, p = .flush ack (.flushing ahead) ∧ .flush call ahead ∉ s.queue) ∨
        (s.task = .stopped ∧ ahead = s.queued.length)

/-- A step that puts nothing on the socket either. -/
structure Quiet (s : PublishCalls) (call : ℕ) (p q : CallPoint) : Prop
    extends Aside s call p q where
  written : p.mayHaveWritten = true → q.mayHaveWritten = true
  unwritten : q.hasWritten = true → p.hasWritten = true

inductive CallEffect (s : PublishCalls) (call : ℕ) (p : CallPoint) : PublishCalls → Prop
  | quiet (q : CallPoint) (connected handleTaken : Bool) : Quiet s call p q →
      CallEffect s call p
        { s.move call q with connected := connected, handleTaken := handleTaken }
  | publish : p = .publish .sending →
      CallEffect s call p
        { s.move call (.publish (.returned true)) with
          queue := s.queue ++ [.publish call], queued := s.queued ++ [call] }
  | flush (ack : Bool) : p = .flush ack .permitted →
      CallEffect s call p
        { s.move call (.flush ack (.flushing s.queued.length)) with
          queue := s.queue ++ [.flush call s.queued.length] }
  | shutdown (disconnect : Bool) : p = .shutdown disconnect .permitted →
      CallEffect s call p
        { s.move call (.shutdown disconnect .stopping) with queue := s.queue ++ [.shutdown] }
  | request (ack : Bool) (ahead : ℕ) : p = .flush ack (.flushed ahead) →
      CallEffect s call p
        { s.move call (.flush ack (.requested ahead)) with written := s.written ++ [call] }

/-- A quiet step to a point that says nothing of a flush. -/
theorem Quiet.plain {p q : CallPoint} (hp : p ≠ .publish (.returned true))
    (hq : q ≠ .publish (.returned true)) (hflushing : ∀ ack ahead, q ≠ .flush ack (.flushing ahead))
    (hflushed : q.flushedBehind = none)
    (hwritten : p.mayHaveWritten = true → q.mayHaveWritten = true)
    (hunwritten : q.hasWritten = false) : Quiet s call p q where
  unsent := ⟨hp, hq⟩
  flushing := hflushing
  flushed := by
    intro ahead h
    rw [hflushed] at h
    cases h
  written := hwritten
  unwritten := by
    intro h
    rw [hunwritten] at h
    cases h

theorem quiet_afterFlush {p : CallPoint} {ack : Bool} {ahead : ℕ}
    (hp : p ≠ .publish (.returned true)) (hwritten : p.mayHaveWritten = false)
    (h : (∃ ack, p = .flush ack (.flushing ahead) ∧ .flush call ahead ∉ s.queue) ∨
      (s.task = .stopped ∧ ahead = s.queued.length)) :
    Quiet s call p (.afterFlush ack ahead) where
  unsent := by
    refine ⟨hp, ?_⟩
    cases ack <;> simp [CallPoint.afterFlush]
  flushing := by cases ack <;> simp [CallPoint.afterFlush]
  flushed := by
    intro n hn
    have hahead : ahead = n := by
      cases ack <;> simpa [CallPoint.afterFlush, CallPoint.flushedBehind] using hn
    rw [← hahead]
    exact Or.inr h
  written := by simp [hwritten]
  unwritten := by cases ack <;> simp [CallPoint.afterFlush, CallPoint.hasWritten]

theorem quiet_afterShutdown {point : ShutdownPoint} {disconnect : Bool} :
    Quiet s call (.shutdown disconnect point) (.afterShutdown disconnect) := by
  cases disconnect <;>
    exact Quiet.plain (by simp) (by simp [CallPoint.afterShutdown])
      (by simp [CallPoint.afterShutdown]) rfl (by simp [CallPoint.mayHaveWritten]) rfl

theorem quiet_publish {p q : PublishPoint} (hp : p ≠ .returned true) (hq : q ≠ .returned true) :
    Quiet s call (.publish p) (.publish q) :=
  Quiet.plain (by simpa using hp) (by simpa using hq) (by simp) rfl
    (by simp [CallPoint.mayHaveWritten]) rfl

theorem quiet_shutdown {disconnect : Bool} {p q : ShutdownPoint} :
    Quiet s call (.shutdown disconnect p) (.shutdown disconnect q) :=
  Quiet.plain (by simp) (by simp) (by simp) rfl (by simp [CallPoint.mayHaveWritten]) rfl

theorem proceedPublish_effect {point : PublishPoint} (h : s.proceedPublish call point = some t) :
    CallEffect s call (.publish point) t := by
  cases point with
  | checking =>
    obtain rfl := Option.some.inj h
    exact .quiet _ s.connected s.handleTaken (quiet_publish (by simp) (by split <;> simp))
  | reserving =>
    simp only [proceedPublish] at h
    split_ifs at h
    · obtain rfl := Option.some.inj h
      exact .quiet _ s.connected s.handleTaken (quiet_publish (by simp) (by simp))
    · obtain rfl := Option.some.inj h
      exact .quiet _ s.connected s.handleTaken (quiet_publish (by simp) (by simp))
  | permitted =>
    obtain rfl := Option.some.inj h
    exact .quiet _ s.connected s.handleTaken (quiet_publish (by simp) (by split <;> simp))
  | sending =>
    obtain rfl := Option.some.inj h
    exact .publish rfl
  | returned ok => cases h
  | abandoned => cases h

theorem proceedFlush_effect {ack : Bool} {point : FlushPoint}
    (h : s.proceedFlush call ack point = some t) : CallEffect s call (.flush ack point) t := by
  cases point with
  | reserving =>
    simp only [proceedFlush] at h
    split_ifs at h with hstopped hroom
    · obtain rfl := Option.some.inj h
      exact .quiet _ s.connected s.handleTaken
        (quiet_afterFlush (by simp) rfl (Or.inr ⟨hstopped, rfl⟩))
    · obtain rfl := Option.some.inj h
      exact .quiet _ s.connected s.handleTaken
        (Quiet.plain (by simp) (by simp) (by simp) rfl (by simp [CallPoint.mayHaveWritten]) rfl)
  | permitted =>
    obtain rfl := Option.some.inj h
    exact .flush ack rfl
  | flushing ahead =>
    simp only [proceedFlush] at h
    split_ifs at h with hqueue
    obtain rfl := Option.some.inj h
    exact .quiet _ s.connected s.handleTaken
      (quiet_afterFlush (by simp) rfl (Or.inl ⟨ack, rfl, hqueue⟩))
  | flushed ahead => cases h
  | requested ahead => cases h
  | returned ahead ok => cases h
  | abandoned => cases h

theorem proceedShutdown_effect {disconnect : Bool} {point : ShutdownPoint}
    (h : s.proceedShutdown call disconnect point = some t) :
    CallEffect s call (.shutdown disconnect point) t := by
  cases point with
  | reserving =>
    simp only [proceedShutdown] at h
    split_ifs at h
    · obtain rfl := Option.some.inj h
      exact .quiet _ s.connected s.handleTaken quiet_shutdown
    · obtain rfl := Option.some.inj h
      exact .quiet _ s.connected s.handleTaken quiet_shutdown
  | permitted =>
    obtain rfl := Option.some.inj h
    exact .shutdown disconnect rfl
  | stopping =>
    simp only [proceedShutdown] at h
    split_ifs at h
    · obtain rfl := Option.some.inj h
      exact .quiet _ s.connected s.handleTaken quiet_afterShutdown
    · obtain rfl := Option.some.inj h
      exact .quiet _ s.connected true quiet_shutdown
  | joining =>
    simp only [proceedShutdown] at h
    split_ifs at h
    obtain rfl := Option.some.inj h
    exact .quiet _ s.connected s.handleTaken quiet_afterShutdown
  | closing => cases h
  | returned ok => cases h
  | abandoned => cases h

theorem proceed_effect {p : CallPoint} (h : s.proceed call p = some t) :
    CallEffect s call p t := by
  cases p with
  | publish point => exact proceedPublish_effect h
  | flush ack point => exact proceedFlush_effect h
  | shutdown disconnect point => exact proceedShutdown_effect h

theorem client_effect {p : CallPoint} {ok : Bool} (h : s.client call ok p = some t) :
    CallEffect s call p t := by
  unfold client at h
  split at h
  · rename_i ack ahead
    split_ifs at h
    · obtain rfl := Option.some.inj h
      exact .request ack ahead rfl
    · obtain rfl := Option.some.inj h
      exact .quiet _ s.connected s.handleTaken
        ⟨⟨by simp, by simp, by simp [CallPoint.flushedBehind]⟩,
          by simp [CallPoint.mayHaveWritten], by cases ack <;> simp [CallPoint.hasWritten]⟩
  · obtain rfl := Option.some.inj h
    exact .quiet _ s.connected s.handleTaken
      ⟨⟨by simp, by simp, by simp [CallPoint.flushedBehind]⟩,
        by simp [CallPoint.mayHaveWritten], by simp [CallPoint.hasWritten]⟩
  · obtain rfl := Option.some.inj h
    exact .quiet _ _ s.handleTaken quiet_shutdown
  · cases h

theorem abandon_effect {p : CallPoint} (h : s.abandon call p = some t) :
    CallEffect s call p t := by
  unfold abandon at h
  split_ifs at h with hawaits
  obtain rfl := Option.some.inj h
  have hp : p ≠ .publish (.returned true) := by
    intro he
    rw [he] at hawaits
    cases hawaits
  refine .quiet _ s.connected s.handleTaken ?_
  cases p <;>
    exact Quiet.plain hp (by simp [CallPoint.abandon]) (by simp [CallPoint.abandon]) rfl
      (by simp [CallPoint.mayHaveWritten, CallPoint.abandon]) rfl

theorem recv_cases (h : s.recv = some t) :
    s.task = .receiving ∧
      ((s.queue = [] ∧ t = { s with task := .leaving }) ∨
        (∃ call queue, s.queue = .publish call :: queue ∧
          t = { s with queue := queue, task := .taken call }) ∨
        (∃ call ahead queue, s.queue = .flush call ahead :: queue ∧
          t = { s with queue := queue }) ∨
        ∃ queue, s.queue = .shutdown :: queue ∧
          t = { s with queue := queue, task := .leaving }) := by
  unfold recv at h
  by_cases htask : s.task = .receiving
  case neg => rw [if_neg htask] at h; cases h
  rw [if_pos htask] at h
  refine ⟨htask, ?_⟩
  split at h
  · rename_i hqueue
    split_ifs at h
    exact Or.inl ⟨hqueue, (Option.some.inj h).symm⟩
  · rename_i call queue hqueue
    exact Or.inr (Or.inl ⟨call, queue, hqueue, (Option.some.inj h).symm⟩)
  · rename_i call ahead queue hqueue
    exact Or.inr (Or.inr (Or.inl ⟨call, ahead, queue, hqueue, (Option.some.inj h).symm⟩))
  · rename_i queue hqueue
    exact Or.inr (Or.inr (Or.inr ⟨queue, hqueue, (Option.some.inj h).symm⟩))

theorem write_cases (h : s.write = some t) :
    ∃ call, s.task = .taken call ∧ s.disconnected = false ∧
      t = { s with task := .waiting call, written := s.written ++ [call] } := by
  unfold write at h
  split at h
  · rename_i call htask
    split_ifs at h with hconnected
    exact ⟨call, htask, by simpa using hconnected, (Option.some.inj h).symm⟩
  · cases h

theorem fail_cases {terminal : Bool} {detail : String} (h : s.fail terminal detail = some t) :
    ∃ call, s.task = .taken call ∧
      t = s.settle call
        (if s.disconnected then .failed true "connection closed" else .failed terminal detail) := by
  unfold fail at h
  split at h
  · rename_i call htask
    exact ⟨call, htask, (Option.some.inj h).symm⟩
  · cases h

theorem answer_cases {result : ReplyResult} (h : s.answer result = some t) :
    ∃ call, s.task = .waiting call ∧ t = s.settle call result := by
  unfold answer at h
  split at h
  · rename_i call htask
    exact ⟨call, htask, (Option.some.inj h).symm⟩
  · cases h

end PublishCalls

end Emergent.Sdk

import Emergent.Sdk.PublishWatch
import Emergent.Kit.Runs

/-!
# Running a source or a handler (`sdks/rust/src/helpers.rs`)

`run_source` calls the user function once and returns what it returns.
`run_handler` waits for a message, SIGTERM or the end of the stream; it calls the
user function for each message, and only its SIGTERM arm disconnects. The user
function is any sequence of publishes, acknowledged publishes (which flush) and
disconnects while it is called, with its waits apart from its calls, so that it
may do several at once or give one up.

`flushed` logs how many publishes were queued before a flush or disconnect whose
end the user function has seen, `stopping` that it has called `disconnect`.
-/

namespace Emergent.Sdk
open Kit

inductive HelperKind where
  | source
  | handler
  deriving Repr, DecidableEq

inductive HelperExit where
  | finished
  | failed
  | streamClosed
  | signalled
  deriving Repr, DecidableEq

/-- Where the helper is; a disconnect waits for the watcher task if it found
its handle. -/
inductive HelperPoint where
  | waiting
  | calling
  | disconnecting (joins : Bool)
  | returned (exit : HelperExit)
  deriving Repr, DecidableEq

structure Helper (φ : Type) where
  kind : HelperKind
  point : HelperPoint
  watcher : PublishWatcher φ
  stopping : Bool
  flushed : ℕ
  deriving Repr, DecidableEq

inductive HelperAction (φ : Type) where
  | publish (frame : φ)
  | flush
  | awaitFlush (before : ℕ)
  | disconnect
  | awaitStop
  | finish
  | fail
  | watch
  | reply (result : ReplyResult)
  | message
  | streamClosed
  | sigterm
  | leave
  deriving Repr, DecidableEq

namespace Helper

variable {φ : Type}

def start (kind : HelperKind) : Helper φ where
  kind := kind
  point :=
    match kind with
    | .source => .calling
    | .handler => .waiting
  watcher := .spawn
  stopping := false
  flushed := 0

def isReturned (s : Helper φ) : Bool :=
  match s.point with
  | .returned _ => true
  | _ => false

def step (s : Helper φ) : HelperAction φ → Option (Helper φ)
  | .publish frame =>
    if s.point = .calling then
      (s.watcher.publish frame).map fun w => { s with watcher := w }
    else none
  | .flush =>
    if s.point = .calling then s.watcher.flush.map fun w => { s with watcher := w } else none
  | .awaitFlush before =>
    if s.point = .calling ∧ before ∈ s.watcher.replies then
      some { s with flushed := max s.flushed before }
    else none
  | .disconnect =>
    if s.point = .calling then
      s.watcher.shutdown.map fun w => { s with watcher := w, stopping := true }
    else none
  | .awaitStop =>
    if s.point = .calling ∧ s.stopping = true then
      s.watcher.ended.map fun before => { s with flushed := max s.flushed before }
    else none
  | .finish =>
    if s.point = .calling then
      match s.kind with
      | .source => some { s with point := .returned .finished }
      | .handler => some { s with point := .waiting }
    else none
  | .fail => if s.point = .calling then some { s with point := .returned .failed } else none
  | .watch =>
    -- what is left in the queue is dropped with the process
    if s.isReturned then none else s.watcher.watch.map fun w => { s with watcher := w }
  | .reply result =>
    if s.isReturned then none
    else (s.watcher.reply result).map fun w => { s with watcher := w }
  | .message => if s.point = .waiting then some { s with point := .calling } else none
  | .streamClosed =>
    if s.point = .waiting then some { s with point := .returned .streamClosed } else none
  | .sigterm =>
    if s.point = .waiting then
      s.watcher.shutdown.map fun w =>
        { s with watcher := w, point := .disconnecting (!s.watcher.handleTaken) }
    else none
  | .leave =>
    match s.point with
    | .disconnecting joins =>
      if joins = true ∧ s.watcher.running = true then none
      else some { s with point := .returned .signalled }
    | _ => none

/-- The step ends the helper with every publish flushed, or in its SIGTERM arm
without a disconnect of the user function before. -/
def Covered (s : Helper φ) : HelperAction φ → Prop
  | .finish => s.kind = .source → s.flushed = s.watcher.queued.length
  | .fail | .streamClosed => s.flushed = s.watcher.queued.length
  | .sigterm => s.stopping = false ∨ s.flushed = s.watcher.queued.length
  | _ => True

instance (s : Helper φ) : ∀ a : HelperAction φ, Decidable (s.Covered a)
  | .finish => inferInstanceAs (Decidable (_ → _))
  | .fail | .streamClosed => inferInstanceAs (Decidable (_ = _))
  | .sigterm => inferInstanceAs (Decidable (_ ∨ _))
  | .publish _ | .flush | .awaitFlush _ | .disconnect | .awaitStop | .watch | .reply _ | .message
  | .leave => isTrue trivial

/-! ### The invariant -/

variable {s t : Helper φ}

def InLoop (s : Helper φ) : Prop := s.point = .waiting ∨ s.point = .calling

structure Sound (s : Helper φ) : Prop where
  accounted : s.watcher.Accounted
  flushed : s.flushed ≤ s.watcher.answered.length
  free : s.stopping = false → s.InLoop → s.watcher.running = true ∧
    s.watcher.handleTaken = false ∧ ∀ n, .shutdown n ∉ s.watcher.queue
  leaving : ∀ joins, s.point = .disconnecting joins →
    s.flushed = s.watcher.queued.length ∨ joins = true ∧
      (∀ n, .shutdown n ∈ s.watcher.queue → n = s.watcher.queued.length) ∧
      ∀ n, s.watcher.ended = some n → n = s.watcher.queued.length
  returned : ∀ exit, s.point = .returned exit →
    s.watcher.queued.length ≤ s.watcher.answered.length

theorem sound_start (kind : HelperKind) : (start kind : Helper φ).Sound where
  accounted := PublishWatcher.accounted_spawn
  flushed := le_rfl
  free := fun _ _ => ⟨rfl, rfl, by simp [start, PublishWatcher.spawn]⟩
  leaving := by cases kind <;> simp [start]
  returned := by cases kind <;> simp [start]

theorem Sound.inLoop (haccounted : s.watcher.Accounted)
    (hflushed : s.flushed ≤ s.watcher.answered.length) (hloop : s.InLoop)
    (hfree : s.stopping = false → s.watcher.running = true ∧ s.watcher.handleTaken = false ∧
      ∀ n, .shutdown n ∉ s.watcher.queue) : s.Sound := by
  refine ⟨haccounted, hflushed, fun hstop _ => hfree hstop, fun joins hpoint => ?_,
    fun exit hpoint => ?_⟩
  · rcases hloop with h | h <;> rw [h] at hpoint <;> cases hpoint
  · rcases hloop with h | h <;> rw [h] at hpoint <;> cases hpoint

theorem Sound.leave (hs : s.Sound) {exit : HelperExit}
    (hall : s.watcher.queued.length ≤ s.watcher.answered.length) :
    ({ s with point := .returned exit }).Sound := by
  refine ⟨hs.accounted, hs.flushed, fun _ hloop => ?_, fun joins hpoint => ?_, fun _ _ => hall⟩
  · rcases hloop with h | h <;> cases h
  · cases hpoint

theorem Sound.watch (hs : s.Sound) {w : PublishWatcher φ} (h : s.watcher.watch = some w) :
    ({ s with watcher := w }).Sound := by
  have haccounted := hs.accounted.watch h
  obtain ⟨hup, _, hcases⟩ := PublishWatcher.watch_cases h
  rcases hcases with ⟨frame, queue, hqueue, rfl⟩ | ⟨before, queue, hqueue, rfl⟩ |
    ⟨before, queue, hqueue, rfl⟩
  · refine ⟨haccounted, hs.flushed, fun hstop hloop => ?_, fun joins hpoint => ?_, hs.returned⟩
    · obtain ⟨_, hhandle, hnone⟩ := hs.free hstop hloop
      exact ⟨hup, hhandle, fun n hn => hnone n (hqueue ▸ List.mem_cons_of_mem _ hn)⟩
    · refine (hs.leaving joins hpoint).imp id fun ⟨hjoins, hqueued, hended⟩ => ?_
      exact ⟨hjoins, fun n hn => hqueued n (hqueue ▸ List.mem_cons_of_mem _ hn), hended⟩
  · refine ⟨haccounted, hs.flushed, fun hstop hloop => ?_, fun joins hpoint => ?_, hs.returned⟩
    · obtain ⟨_, hhandle, hnone⟩ := hs.free hstop hloop
      exact ⟨hup, hhandle, fun n hn => hnone n (hqueue ▸ List.mem_cons_of_mem _ hn)⟩
    · refine (hs.leaving joins hpoint).imp id fun ⟨hjoins, hqueued, hended⟩ => ?_
      exact ⟨hjoins, fun n hn => hqueued n (hqueue ▸ List.mem_cons_of_mem _ hn), hended⟩
  · -- the task stops at a `Shutdown`
    refine ⟨haccounted, hs.flushed, fun hstop hloop => ?_, fun joins hpoint => ?_, hs.returned⟩
    · exact absurd (hqueue ▸ List.mem_cons_self) ((hs.free hstop hloop).2.2 before)
    · refine (hs.leaving joins hpoint).imp id fun ⟨hjoins, hqueued, _⟩ => ?_
      refine ⟨hjoins, fun n hn => (by cases hn), fun n hn => ?_⟩
      obtain rfl := Option.some.inj hn
      exact hqueued before (hqueue ▸ List.mem_cons_self)

theorem Sound.reply (hs : s.Sound) {w : PublishWatcher φ} {result : ReplyResult}
    (h : s.watcher.reply result = some w) : ({ s with watcher := w }).Sound := by
  have haccounted := hs.accounted.reply h
  obtain ⟨frame, _, rfl⟩ := Option.map_eq_some_iff.mp h
  refine ⟨haccounted, ?_, hs.free, hs.leaving, fun exit hpoint => ?_⟩
  · exact hs.flushed.trans (by simp)
  · exact (hs.returned exit hpoint).trans (by simp)

/-- The SIGTERM arm: a `Shutdown` is queued behind what was published. -/
theorem Sound.sigterm (hs : s.Sound) (hwaiting : s.point = .waiting)
    (hcovered : s.stopping = false ∨ s.flushed = s.watcher.queued.length) {w : PublishWatcher φ}
    (hw : s.watcher.shutdown = some w) :
    Sound { s with watcher := w, point := .disconnecting (!s.watcher.handleTaken) } := by
  obtain ⟨hqueue, hqueued, hanswered, hended⟩ := PublishWatcher.shutdown_frame hw
  refine ⟨hs.accounted.shutdown hw, ?_, fun _ hloop => ?_, fun joins hpoint => ?_,
    fun exit hpoint => (by cases hpoint)⟩
  · rw [hanswered]
    exact hs.flushed
  · rcases hloop with h | h <;> cases h
  · rw [hqueued]
    rcases hcovered with hstop | hflushed
    · -- the only `Shutdown` is the helper's own
      obtain ⟨hup, hhandle, hnone⟩ := hs.free hstop (Or.inl hwaiting)
      have hjoins : (!s.watcher.handleTaken) = joins := HelperPoint.disconnecting.inj hpoint
      refine Or.inr ⟨by rw [← hjoins, hhandle]; rfl, fun n hn => ?_, fun n hn => ?_⟩
      · rw [hqueue, if_pos hup] at hn
        rcases List.mem_append.mp hn with hn | hn
        · exact absurd hn (hnone n)
        · exact WatchCommand.shutdown.inj (List.mem_singleton.mp hn)
      · have hstopped := hs.accounted.stopped
        rw [← hended, hn, hup] at hstopped
        cases hstopped
    · exact Or.inl hflushed

/-- A helper that has waited for its watcher, or had nothing to wait for, returns. -/
theorem Sound.disconnected (hs : s.Sound) {joins : Bool} (hpoint : s.point = .disconnecting joins)
    (hwait : ¬ (joins = true ∧ s.watcher.running = true)) :
    Sound { s with point := .returned .signalled } := by
  refine hs.leave ?_
  rcases hs.leaving joins hpoint with hflushed | ⟨hjoins, _, hended⟩
  · exact hflushed ▸ hs.flushed
  · have hdown : s.watcher.running = false := by simpa [hjoins] using hwait
    obtain ⟨n, hn⟩ := Option.isSome_iff_exists.mp
      (hs.accounted.stopped.trans (by rw [hdown]; rfl))
    exact hended n hn ▸ hs.accounted.ended n hn

theorem Sound.step (hs : s.Sound) {a : HelperAction φ} (hguard : s.Covered a)
    (h : s.step a = some t) : t.Sound := by
  cases a with
  | publish frame =>
    simp only [Helper.step] at h
    split_ifs at h with hcalling
    obtain ⟨w, hw, rfl⟩ := Option.map_eq_some_iff.mp h
    have haccounted := hs.accounted.publish hw
    unfold PublishWatcher.publish at hw
    split_ifs at hw
    obtain ⟨u, hu, rfl⟩ := Option.map_eq_some_iff.mp hw
    obtain rfl := PublishWatcher.enqueue_eq hu
    refine Sound.inLoop haccounted hs.flushed (Or.inr hcalling) fun hstop => ?_
    obtain ⟨hup, hhandle, hnone⟩ := hs.free hstop (Or.inr hcalling)
    exact ⟨hup, hhandle, fun n hn => by simp [hnone n] at hn⟩
  | flush =>
    simp only [Helper.step] at h
    split_ifs at h with hcalling
    obtain ⟨w, hw, rfl⟩ := Option.map_eq_some_iff.mp h
    have haccounted := hs.accounted.flush hw
    unfold PublishWatcher.flush at hw
    split_ifs at hw
    · obtain rfl := PublishWatcher.enqueue_eq hw
      refine Sound.inLoop haccounted hs.flushed (Or.inr hcalling) fun hstop => ?_
      obtain ⟨hup, hhandle, hnone⟩ := hs.free hstop (Or.inr hcalling)
      exact ⟨hup, hhandle, fun n hn => by simp [hnone n] at hn⟩
    · obtain rfl := Option.some.inj hw
      exact hs
  | awaitFlush before =>
    simp only [Helper.step] at h
    split_ifs at h with hfree
    obtain rfl := Option.some.inj h
    refine Sound.inLoop hs.accounted (max_le hs.flushed ?_) (Or.inr hfree.1) fun hstop => ?_
    · exact hs.accounted.replies before hfree.2
    · exact hs.free hstop (Or.inr hfree.1)
  | disconnect =>
    simp only [Helper.step] at h
    split_ifs at h with hcalling
    obtain ⟨w, hw, rfl⟩ := Option.map_eq_some_iff.mp h
    refine Sound.inLoop (hs.accounted.shutdown hw) ?_ (Or.inr hcalling) fun hstop => ?_
    · obtain ⟨_, _, hanswered, _⟩ := PublishWatcher.shutdown_frame hw
      rw [hanswered]
      exact hs.flushed
    · cases hstop
  | awaitStop =>
    simp only [Helper.step] at h
    split_ifs at h with hfree
    obtain ⟨before, hended, rfl⟩ := Option.map_eq_some_iff.mp h
    refine Sound.inLoop hs.accounted (max_le hs.flushed ?_) (Or.inr hfree.1) fun hstop => ?_
    · exact hs.accounted.ended before hended
    · exact hs.free hstop (Or.inr hfree.1)
  | finish =>
    simp only [Helper.step] at h
    split_ifs at h with hcalling
    split at h
    · rename_i hkind
      obtain rfl := Option.some.inj h
      have hflushed : s.flushed = s.watcher.queued.length := hguard hkind
      exact hs.leave (hflushed ▸ hs.flushed)
    · obtain rfl := Option.some.inj h
      exact Sound.inLoop hs.accounted hs.flushed (Or.inl rfl) fun hstop =>
        hs.free hstop (Or.inr hcalling)
  | fail =>
    simp only [Helper.step] at h
    split_ifs at h
    obtain rfl := Option.some.inj h
    have hflushed : s.flushed = s.watcher.queued.length := hguard
    exact hs.leave (hflushed ▸ hs.flushed)
  | watch =>
    simp only [Helper.step] at h
    split_ifs at h
    obtain ⟨w, hw, rfl⟩ := Option.map_eq_some_iff.mp h
    exact hs.watch hw
  | reply result =>
    simp only [Helper.step] at h
    split_ifs at h
    obtain ⟨w, hw, rfl⟩ := Option.map_eq_some_iff.mp h
    exact hs.reply hw
  | message =>
    simp only [Helper.step] at h
    split_ifs at h with hwaiting
    obtain rfl := Option.some.inj h
    exact Sound.inLoop hs.accounted hs.flushed (Or.inr rfl) fun hstop =>
      hs.free hstop (Or.inl hwaiting)
  | streamClosed =>
    simp only [Helper.step] at h
    split_ifs at h
    obtain rfl := Option.some.inj h
    have hflushed : s.flushed = s.watcher.queued.length := hguard
    exact hs.leave (hflushed ▸ hs.flushed)
  | sigterm =>
    simp only [Helper.step] at h
    split_ifs at h with hwaiting
    obtain ⟨w, hw, rfl⟩ := Option.map_eq_some_iff.mp h
    exact hs.sigterm hwaiting hguard hw
  | leave =>
    simp only [Helper.step] at h
    split at h
    · rename_i joins hpoint
      split_ifs at h with hwait
      obtain rfl := Option.some.inj h
      exact hs.disconnected hpoint hwait
    · cases h

/-- Where each exit of a helper is covered, no publish is left behind when it
returns: every one is answered and counted. -/
theorem run_helper_answers_publishes {kind : HelperKind} {as : List (HelperAction φ)}
    {s : Helper φ} (hguard : Obeys step Covered (start kind) as)
    (hrun : run step (start kind) as = some s) {exit : HelperExit}
    (hexit : s.point = .returned exit) :
    s.watcher.answered.map Prod.fst = s.watcher.queued ∧
      s.watcher.stats.total = s.watcher.queued.length := by
  have hs : s.Sound :=
    run_invariant_of_obeys (fun u a v hu hg h => hu.step hg h) (sound_start kind) hguard hrun
  have hall := hs.accounted.all_answered (hs.returned exit hexit)
  refine ⟨hall, ?_⟩
  rw [hs.accounted.counted, ← hall, List.length_map]

def publishAndStop : List (HelperAction ℕ) :=
  [.message, .publish 7, .finish, .sigterm, .watch, .reply (.response true none none), .watch,
    .leave]

theorem run_helper_answers_publishes_sigterm :
    ∃ s, run step (start .handler) publishAndStop = some s ∧ s.point = .returned .signalled ∧
      s.watcher.queued = [7] ∧ s.watcher.answered.map Prod.fst = s.watcher.queued := by
  have hend : (run step (start .handler) publishAndStop).map
      (fun s => (s.point, s.watcher.queued)) = some (.returned .signalled, [7]) := by decide
  obtain ⟨s, hrun, hs⟩ := Option.map_eq_some_iff.mp hend
  obtain ⟨hpoint, hqueued⟩ := Prod.mk.inj hs
  exact ⟨s, hrun, hpoint, hqueued, (run_helper_answers_publishes (by decide) hrun hpoint).1⟩

/-- A source publishes and its function finishes, before the watcher task has
taken the frame: `run_source` returns and the frame is dropped. -/
theorem source_returns_over_publish :
    ∃ s, run step (start .source) [.publish 7, .finish] = some s ∧
      s.point = .returned .finished ∧ s.watcher.queued = [7] ∧ s.watcher.answered = [] ∧
      s.watcher.queue = [.publish 7] :=
  ⟨_, rfl, rfl, rfl, rfl, rfl⟩

end Helper

end Emergent.Sdk

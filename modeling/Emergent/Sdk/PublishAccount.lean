import Emergent.Kit.Tally
import Emergent.Sdk.PublishCalls

/-!
# The account of the publishes

What the task has counted, what it has in hand and what is in the queue are all
the publishes, in order, as long as none is sent behind a `Shutdown`. A `Flush`
stands behind the publishes that were queued before it, so a call that has seen
its answer has seen theirs counted.
-/

namespace Emergent.Sdk
open Kit

def publishes : List QueuedCommand → List ℕ
  | [] => []
  | .publish call :: queue => call :: publishes queue
  | .flush _ _ :: queue | .shutdown :: queue => publishes queue

/-- No publish stands behind a `Shutdown`. -/
def Tidy : List QueuedCommand → Prop
  | [] => True
  | .shutdown :: queue => publishes queue = []
  | .publish _ :: queue | .flush _ _ :: queue => Tidy queue

/-- With `base` publishes taken before the queue, every `Flush` in it has as many
in front of it as it says. -/
def FlushesBehind : ℕ → List QueuedCommand → Prop
  | _, [] => True
  | base, .publish _ :: queue => FlushesBehind (base + 1) queue
  | base, .flush _ ahead :: queue => ahead ≤ base ∧ FlushesBehind base queue
  | base, .shutdown :: queue => FlushesBehind base queue

theorem publishes_append (q r : List QueuedCommand) :
    publishes (q ++ r) = publishes q ++ publishes r := by
  induction q with
  | nil => rfl
  | cons command q ih => cases command <;> simp [publishes, ih]

theorem Tidy.snoc {q : List QueuedCommand} {command : QueuedCommand} (h : Tidy q)
    (hlast : publishes [command] = [] ∨ .shutdown ∉ q) : Tidy (q ++ [command]) := by
  induction q with
  | nil => cases command <;> trivial
  | cons head q ih =>
    have htail : head ≠ .shutdown → Tidy (q ++ [command]) := by
      intro hhead
      apply ih
      · cases head with
        | publish call => exact h
        | flush call ahead => exact h
        | shutdown => exact absurd rfl hhead
      · exact hlast.imp_right fun hq hmem => hq (List.mem_cons_of_mem _ hmem)
    cases head with
    | publish call => exact htail (by simp)
    | flush call ahead => exact htail (by simp)
    | shutdown =>
      have hnone : publishes [command] = [] := hlast.resolve_right (by simp)
      have hq : publishes q = [] := h
      show publishes (q ++ [command]) = []
      rw [publishes_append, hq, hnone]
      rfl

theorem tidy_of_publishes_eq_nil {q : List QueuedCommand} (h : publishes q = []) : Tidy q := by
  induction q with
  | nil => trivial
  | cons command q ih =>
    cases command with
    | publish call => cases h
    | flush call ahead => exact ih h
    | shutdown => exact h

theorem flushesBehind_append {base : ℕ} {q r : List QueuedCommand} :
    FlushesBehind base (q ++ r) ↔
      FlushesBehind base q ∧ FlushesBehind (base + (publishes q).length) r := by
  induction q generalizing base with
  | nil => simp [FlushesBehind, publishes]
  | cons command q ih =>
    cases command with
    | publish call =>
      simp only [List.cons_append, FlushesBehind, publishes, ih, List.length_cons]
      rw [show base + 1 + (publishes q).length = base + ((publishes q).length + 1) by omega]
    | flush call ahead => simp only [List.cons_append, FlushesBehind, publishes, ih, and_assoc]
    | shutdown => simp only [List.cons_append, FlushesBehind, publishes, ih]

theorem FlushesBehind.le {base call ahead : ℕ} {q : List QueuedCommand} (h : FlushesBehind base q)
    (hmem : .flush call ahead ∈ q) : ahead ≤ base + (publishes q).length := by
  obtain ⟨before, after, rfl⟩ := List.append_of_mem hmem
  have hhere := (flushesBehind_append.mp h).2.1
  rw [publishes_append, List.length_append]
  omega

def WatchPoint.inHand : WatchPoint → List ℕ
  | .taken call | .waiting call => [call]
  | .receiving | .leaving | .stopped => []

def WatchPoint.isHalted : WatchPoint → Bool
  | .leaving | .stopped => true
  | .receiving | .taken _ | .waiting _ => false

namespace PublishCalls

variable {s t : PublishCalls} {call : ℕ}

/-- The commands that the task will still take: no `Shutdown` is among them, and
the task is in its loop. -/
def Open (s : PublishCalls) : Prop := .shutdown ∉ s.queue ∧ s.task.isHalted = false

/-- A publish is sent to an open queue. -/
def Clear (s : PublishCalls) : PublishAction → Prop
  | .proceed call =>
    s.calls[call]?.any (fun c => decide (c.point = .publish .sending)) = true → s.Open
  | _ => True

instance (s : PublishCalls) : Decidable s.Open := inferInstanceAs (Decidable (_ ∧ _))

instance (s : PublishCalls) (a : PublishAction) : Decidable (s.Clear a) :=
  match a with
  | .proceed _ => inferInstanceAs (Decidable (_ → _))
  | .publish | .flush _ | .shutdown _ | .client _ _ | .abandon _ | .recv | .write | .fail _ _
  | .answer _ | .exit | .lose | .drop => inferInstanceAs (Decidable True)

structure Accounted (s : PublishCalls) : Prop where
  order : s.queued = s.answered ++ s.task.inHand ++ publishes s.queue
  tidy : Tidy s.queue
  halted : s.task.isHalted = true → publishes s.queue = []
  behind : FlushesBehind (s.answered ++ s.task.inHand).length s.queue
  flushing : ∀ (k : ℕ) (c : WatcherCall) (ack : Bool) (ahead : ℕ), s.calls[k]? = some c →
    c.point = .flush ack (.flushing ahead) →
      ahead ≤ s.answered.length ∨ .flush k ahead ∈ s.queue
  flushed : ∀ (k : ℕ) (c : WatcherCall) (ahead : ℕ), s.calls[k]? = some c →
    c.point.flushedBehind = some ahead → ahead ≤ s.answered.length
  counted : s.stats.total = s.answered.length
  published : s.published = s.queued.length

theorem accounted_spawn : spawn.Accounted where
  order := rfl
  tidy := trivial
  halted := by simp [spawn, WatchPoint.isHalted]
  behind := trivial
  flushing := by simp [spawn]
  flushed := by simp [spawn]
  counted := rfl
  published := rfl

theorem Accounted.queued_length (hs : s.Accounted) :
    s.queued.length = (s.answered ++ s.task.inHand).length + (publishes s.queue).length := by
  rw [← List.length_append, ← hs.order]

/-- Once the task has left its loop every publish has been counted. -/
theorem Accounted.all_answered (hs : s.Accounted) (h : s.task.isHalted = true) :
    s.queued = s.answered := by
  have hhand : s.task.inHand = [] := by
    cases htask : s.task <;> simp_all [WatchPoint.isHalted, WatchPoint.inHand]
  have horder := hs.order
  rw [hhand, hs.halted h] at horder
  simpa using horder

theorem published_move {c : WatcherCall} {q : CallPoint} (hc : s.calls[call]? = some c) :
    (s.move call q).published + (if c.point = .publish (.returned true) then 1 else 0) =
      s.published + if q = .publish (.returned true) then 1 else 0 := by
  have hcount := countP_modify (p := fun c => decide (c.point = .publish (.returned true))) hc
    fun c => { c with point := q }
  simp only [decide_eq_true_eq] at hcount
  exact hcount

/-! ### One step -/

theorem Accounted.begin (hs : s.Accounted) {point : CallPoint}
    (hflushing : ∀ ack ahead, point ≠ .flush ack (.flushing ahead))
    (hflushed : point.flushedBehind = none) (hunsent : point ≠ .publish (.returned true))
    (h : s.begin point = some t) : t.Accounted := by
  unfold PublishCalls.begin at h
  split_ifs at h
  obtain rfl := Option.some.inj h
  refine { hs with flushing := ?_, flushed := ?_, published := ?_ }
  · intro k c ack ahead hc hpoint
    rcases getElem?_snoc_cases hc with hc | ⟨_, rfl⟩
    · exact hs.flushing k c ack ahead hc hpoint
    · exact absurd hpoint (hflushing ack ahead)
  · intro k c ahead hc hpoint
    rcases getElem?_snoc_cases hc with hc | ⟨_, rfl⟩
    · exact hs.flushed k c ahead hc hpoint
    · rw [hflushed] at hpoint
      cases hpoint
  · have hpublished := hs.published
    unfold PublishCalls.published at hpublished ⊢
    simpa [List.countP_append, hunsent] using hpublished

/-- The account does not read the rest of the state. -/
theorem Accounted.beside (hs : s.Accounted) (connected handleTaken dropped : Bool)
    (written : List ℕ) :
    Accounted { s with
      connected := connected
      handleTaken := handleTaken
      dropped := dropped
      written := written } :=
  ⟨hs.order, hs.tidy, hs.halted, hs.behind, hs.flushing, hs.flushed, hs.counted, hs.published⟩

theorem Accounted.aside (hs : s.Accounted) {c : WatcherCall} (hc : s.calls[call]? = some c)
    {q : CallPoint} (hq : Aside s call c.point q) : (s.move call q).Accounted := by
  refine { hs with flushing := ?_, flushed := ?_, published := ?_ }
  · intro k d ack ahead hd hpoint
    rcases getElem?_modify_cases hd with ⟨_, b, _, rfl⟩ | ⟨_, hd⟩
    · exact absurd hpoint (hq.flushing ack ahead)
    · exact hs.flushing k d ack ahead hd hpoint
  · intro k d ahead hd hpoint
    rcases getElem?_modify_cases hd with ⟨rfl, b, hb, rfl⟩ | ⟨_, hd⟩
    · rcases hq.flushed ahead hpoint with hbefore | ⟨ack, hbefore, hqueue⟩ | ⟨hstopped, rfl⟩
      · exact hs.flushed call c ahead hc hbefore
      · exact (hs.flushing call c ack ahead hc hbefore).resolve_right hqueue
      · show s.queued.length ≤ s.answered.length
        rw [hs.all_answered (by rw [hstopped]; rfl)]
    · exact hs.flushed k d ahead hd hpoint
  · have hmove := published_move (q := q) hc
    rw [if_neg hq.unsent.1, if_neg hq.unsent.2] at hmove
    exact hmove.trans hs.published

theorem Accounted.sendPublish (hs : s.Accounted) {c : WatcherCall}
    (hc : s.calls[call]? = some c) (hpoint : c.point = .publish .sending) (hopen : s.Open) :
    Accounted { s.move call (.publish (.returned true)) with
      queue := s.queue ++ [.publish call], queued := s.queued ++ [call] } where
  order := by
    show s.queued ++ [call] = s.answered ++ s.task.inHand ++ publishes (s.queue ++ [.publish call])
    rw [publishes_append, ← List.append_assoc, ← hs.order]
    rfl
  tidy := hs.tidy.snoc (Or.inr hopen.1)
  halted := by
    intro hhalted
    have hrunning : s.task.isHalted = true := hhalted
    rw [hopen.2] at hrunning
    cases hrunning
  behind := flushesBehind_append.mpr ⟨hs.behind, trivial⟩
  flushing := by
    intro k d ack ahead hd hpoint
    rcases getElem?_modify_cases hd with ⟨_, b, _, rfl⟩ | ⟨_, hd⟩
    · cases hpoint
    · exact (hs.flushing k d ack ahead hd hpoint).imp_right (List.mem_append_left _)
  flushed := by
    intro k d ahead hd hpoint
    rcases getElem?_modify_cases hd with ⟨_, b, _, rfl⟩ | ⟨_, hd⟩
    · cases hpoint
    · exact hs.flushed k d ahead hd hpoint
  counted := hs.counted
  published := by
    have hmove := published_move (q := .publish (.returned true)) hc
    rw [if_pos rfl, if_neg (by rw [hpoint]; simp), hs.published] at hmove
    rw [List.length_append]
    exact hmove

theorem Accounted.send (hs : s.Accounted) {c : WatcherCall} (hc : s.calls[call]? = some c)
    {q : CallPoint} {command : QueuedCommand} (hcommand : publishes [command] = [])
    (hbehind : ∀ base, s.queued.length ≤ base → FlushesBehind base [command])
    (hunsent : c.point ≠ .publish (.returned true) ∧ q ≠ .publish (.returned true))
    (hflushing : ∀ ack ahead, q = .flush ack (.flushing ahead) → command = .flush call ahead)
    (hflushed : q.flushedBehind = none) :
    Accounted { s.move call q with queue := s.queue ++ [command] } where
  order := by
    show s.queued = s.answered ++ s.task.inHand ++ publishes (s.queue ++ [command])
    rw [publishes_append, hcommand, List.append_nil]
    exact hs.order
  tidy := hs.tidy.snoc (Or.inl hcommand)
  halted := by
    intro hhalted
    show publishes (s.queue ++ [command]) = []
    rw [publishes_append, hs.halted hhalted, hcommand]
    rfl
  behind := flushesBehind_append.mpr ⟨hs.behind, hbehind _ hs.queued_length.le⟩
  flushing := by
    intro k d ack ahead hd hpoint
    rcases getElem?_modify_cases hd with ⟨rfl, b, _, rfl⟩ | ⟨_, hd⟩
    · rw [← hflushing ack ahead hpoint]
      exact Or.inr (List.mem_append_right _ (List.mem_singleton_self _))
    · exact (hs.flushing k d ack ahead hd hpoint).imp_right (List.mem_append_left _)
  flushed := by
    intro k d ahead hd hpoint
    rcases getElem?_modify_cases hd with ⟨_, b, _, rfl⟩ | ⟨_, hd⟩
    · rw [hflushed] at hpoint
      cases hpoint
    · exact hs.flushed k d ahead hd hpoint
  counted := hs.counted
  published := by
    have hmove := published_move (q := q) hc
    rw [if_neg hunsent.1, if_neg hunsent.2] at hmove
    exact hmove.trans hs.published

theorem Accounted.callEffect (hs : s.Accounted) {c : WatcherCall} (hc : s.calls[call]? = some c)
    (hopen : c.point = .publish .sending → s.Open) (h : CallEffect s call c.point t) :
    t.Accounted := by
  cases h with
  | quiet q connected handleTaken hq =>
    exact (hs.aside hc hq.toAside).beside connected handleTaken s.dropped s.written
  | publish hpoint => exact hs.sendPublish hc hpoint (hopen hpoint)
  | flush ack hpoint =>
    refine hs.send hc rfl (fun base hbase => ⟨hbase, trivial⟩) ?_ ?_ rfl
    · rw [hpoint]
      simp
    · intro ack' ahead heq
      simp only [CallPoint.flush.injEq, FlushPoint.flushing.injEq] at heq
      rw [heq.2]
  | shutdown disconnect hpoint =>
    refine hs.send hc rfl (fun base hbase => trivial) ?_ ?_ rfl
    · rw [hpoint]
      simp
    · intro ack ahead heq
      cases heq
  | request ack ahead hpoint =>
    have haside : Aside s call c.point (.flush ack (.requested ahead)) := by
      rw [hpoint]
      exact ⟨by simp, by simp, by simp [CallPoint.flushedBehind]⟩
    exact (hs.aside hc haside).beside s.connected s.handleTaken s.dropped (s.written ++ [call])

theorem Accounted.recv (hs : s.Accounted) (h : s.recv = some t) : t.Accounted := by
  obtain ⟨htask, hcases⟩ := recv_cases h
  have horder := hs.order
  have htidy := hs.tidy
  have hbehind := hs.behind
  simp only [htask, WatchPoint.inHand, List.append_nil] at horder hbehind
  rcases hcases with ⟨hqueue, rfl⟩ | ⟨k, queue, hqueue, rfl⟩ | ⟨k, ahead, queue, hqueue, rfl⟩ |
    ⟨queue, hqueue, rfl⟩
  · refine { hs with order := ?_, halted := ?_, behind := ?_ }
    · simpa [WatchPoint.inHand] using horder
    · intro _
      show publishes s.queue = []
      rw [hqueue]
      rfl
    · simpa [WatchPoint.inHand] using hbehind
  · rw [hqueue] at horder htidy hbehind
    refine { hs with order := ?_, tidy := htidy, halted := ?_, behind := ?_, flushing := ?_ }
    · simpa [WatchPoint.inHand, publishes] using horder
    · intro hhalted
      cases hhalted
    · simpa [WatchPoint.inHand, FlushesBehind] using hbehind
    · intro i c ack ahead hc hpoint
      refine (hs.flushing i c ack ahead hc hpoint).imp_right fun hmem => ?_
      rw [hqueue] at hmem
      simpa using hmem
  · rw [hqueue] at horder htidy hbehind
    refine { hs with order := ?_, tidy := htidy, halted := ?_, behind := ?_, flushing := ?_ }
    · simpa [htask, WatchPoint.inHand, publishes] using horder
    · intro hhalted
      have hhalted' : s.task.isHalted = true := hhalted
      rw [htask] at hhalted'
      cases hhalted'
    · simpa [htask, WatchPoint.inHand] using hbehind.2
    · intro i c ack n hc hpoint
      rcases hs.flushing i c ack n hc hpoint with hle | hmem
      · exact Or.inl hle
      · rw [hqueue, List.mem_cons] at hmem
        rcases hmem with heq | hmem
        -- the answer to this very flush
        · simp only [QueuedCommand.flush.injEq] at heq
          rw [heq.2]
          exact Or.inl hbehind.1
        · exact Or.inr hmem
  · rw [hqueue] at horder htidy hbehind
    have hnone : publishes queue = [] := htidy
    refine { hs with order := ?_, tidy := ?_, halted := fun _ => hnone, behind := ?_,
                     flushing := ?_ }
    · simpa [WatchPoint.inHand, publishes] using horder
    · exact tidy_of_publishes_eq_nil hnone
    · simpa [WatchPoint.inHand, FlushesBehind] using hbehind
    · intro i c ack ahead hc hpoint
      refine (hs.flushing i c ack ahead hc hpoint).imp_right fun hmem => ?_
      rw [hqueue] at hmem
      simpa using hmem

theorem Accounted.settle (hs : s.Accounted) (hhand : s.task.inHand = [call])
    (result : ReplyResult) : (s.settle call result).Accounted where
  order := by
    show s.queued = s.answered ++ [call] ++ [] ++ publishes s.queue
    rw [List.append_nil, ← hhand]
    exact hs.order
  tidy := hs.tidy
  halted := by
    intro hhalted
    cases hhalted
  behind := by
    show FlushesBehind (s.answered ++ [call] ++ []).length s.queue
    rw [List.append_nil, ← hhand]
    exact hs.behind
  flushing := by
    intro k c ack ahead hc hpoint
    refine (hs.flushing k c ack ahead hc hpoint).imp_left fun hle => ?_
    exact hle.trans (List.sublist_append_left _ _).length_le
  flushed := by
    intro k c ahead hc hpoint
    have hle := hs.flushed k c ahead hc hpoint
    exact hle.trans (List.sublist_append_left _ _).length_le
  counted := by
    have hcount : (s.stats.count result.outcome).total = s.stats.total + 1 :=
      s.stats.total_count result.outcome
    show (s.stats.count result.outcome).total = (s.answered ++ [call]).length
    rw [hcount, hs.counted, List.length_append]
    rfl
  published := hs.published

theorem Accounted.write (hs : s.Accounted) (h : s.write = some t) : t.Accounted := by
  obtain ⟨k, htask, _, rfl⟩ := write_cases h
  have hhand : s.task.inHand = [k] := by rw [htask]; rfl
  refine { hs with order := ?_, halted := ?_, behind := ?_ }
  · have horder := hs.order
    rw [hhand] at horder
    exact horder
  · intro hhalted
    cases hhalted
  · have hbehind := hs.behind
    rw [hhand] at hbehind
    exact hbehind

theorem Accounted.exit (hs : s.Accounted) (h : s.exit = some t) : t.Accounted := by
  unfold PublishCalls.exit at h
  split_ifs at h with htask
  obtain rfl := Option.some.inj h
  have hhalted : s.task.isHalted = true := by rw [htask]; rfl
  have hall : s.queued = s.answered := hs.all_answered hhalted
  refine { hs with order := ?_, tidy := trivial, halted := fun _ => rfl, behind := trivial,
                   flushing := ?_ }
  · simpa [WatchPoint.inHand, publishes] using hall
  · intro k c ack ahead hc hpoint
    rcases hs.flushing k c ack ahead hc hpoint with hle | hmem
    · exact Or.inl hle
    -- a flush dropped with the queue had every publish before it counted
    · have hle := hs.behind.le hmem
      rw [← hs.queued_length, hall] at hle
      exact Or.inl hle

theorem Accounted.step {a : PublishAction} (hs : s.Accounted) (hclear : s.Clear a)
    (h : s.step a = some t) : t.Accounted := by
  cases a with
  | publish => exact hs.begin (by simp) rfl (by simp) h
  | flush ack => exact hs.begin (by simp) rfl (by simp) h
  | shutdown disconnect => exact hs.begin (by simp) rfl (by simp) h
  | proceed call =>
    obtain ⟨c, hc, hproceed⟩ := Option.bind_eq_some_iff.mp h
    refine hs.callEffect hc (fun hpoint => hclear ?_) (proceed_effect hproceed)
    simp [hc, hpoint]
  | client call ok =>
    obtain ⟨c, hc, hclient⟩ := Option.bind_eq_some_iff.mp h
    refine hs.callEffect hc (fun hpoint => ?_) (client_effect hclient)
    rw [hpoint] at hclient
    cases hclient
  | abandon call =>
    obtain ⟨c, hc, habandon⟩ := Option.bind_eq_some_iff.mp h
    refine hs.callEffect hc (fun hpoint => ?_) (abandon_effect habandon)
    rw [hpoint] at habandon
    cases habandon
  | recv => exact hs.recv h
  | write => exact hs.write h
  | fail terminal detail =>
    obtain ⟨k, htask, rfl⟩ := fail_cases h
    exact hs.settle (by rw [htask]; rfl) _
  | answer result =>
    obtain ⟨k, htask, rfl⟩ := answer_cases h
    exact hs.settle (by rw [htask]; rfl) _
  | exit => exact hs.exit h
  | lose =>
    obtain rfl := Option.some.inj h
    exact hs.beside false s.handleTaken s.dropped s.written
  | drop =>
    simp only [PublishCalls.step] at h
    split_ifs at h
    obtain rfl := Option.some.inj h
    exact hs.beside s.connected s.handleTaken true s.written

/-- In a run whose publishes are all sent to an open queue, the counters of a
stopped task add up to the publishes that returned `Ok`, and whoever has waited
for a flush has waited for the publishes queued before it. -/
theorem run_accounted {as : List PublishAction} (hclear : Obeys step Clear spawn as)
    (hrun : run step spawn as = some s) :
    (s.task = .stopped → s.stats.total = s.published) ∧
      ∀ c ∈ s.calls, ∀ ahead, c.point.flushedBehind = some ahead →
        ahead ≤ s.queued.length ∧ ∀ k ∈ s.queued.take ahead, k ∈ s.answered := by
  have hs : s.Accounted :=
    run_invariant_of_obeys (fun _ _ _ hu hg h => hu.step hg h) accounted_spawn hclear hrun
  constructor
  · intro hstopped
    have hall : s.queued = s.answered := hs.all_answered (by rw [hstopped]; rfl)
    rw [hs.counted, hs.published, hall]
  · intro c hc ahead hahead
    obtain ⟨k, hk⟩ := List.getElem?_of_mem hc
    have hle : ahead ≤ s.answered.length := hs.flushed k c ahead hk hahead
    have horder := hs.order
    rw [List.append_assoc] at horder
    refine ⟨?_, fun i hi => ?_⟩
    · rw [horder, List.length_append]
      omega
    · rw [horder, List.take_append_of_le_length hle] at hi
      exact List.mem_of_mem_take hi

def proceeds (call steps : ℕ) : List PublishAction := List.replicate steps (.proceed call)

/-- A publish, a flush and a `disconnect`; the engine takes the message. -/
def publishThenDisconnect : List PublishAction :=
  List.flatten [[.publish], proceeds 0 4, [.flush false], proceeds 1 2, [.shutdown true],
    proceeds 2 3, [.recv, .write, .answer (.response true none none), .recv], proceeds 1 1,
    [.recv, .exit], proceeds 2 1, [.client 2 true]]

theorem run_accounted_disconnect :
    ∃ s, run step spawn publishThenDisconnect = some s ∧ s.task = .stopped ∧ s.published = 1 ∧
      s.calls[1]? = some ⟨[0], .flush false (.returned 1 true)⟩ ∧ s.stats.total = 1 ∧
      ∀ k ∈ s.queued.take 1, k ∈ s.answered := by
  have hend : (run step spawn publishThenDisconnect).map
      (fun s => (s.task, s.published, s.calls[1]?)) =
        some (.stopped, 1, some ⟨[0], .flush false (.returned 1 true)⟩) := by
    decide
  obtain ⟨s, hrun, hs⟩ := Option.map_eq_some_iff.mp hend
  simp only [Prod.mk.injEq] at hs
  have haccount := run_accounted (by decide) hrun
  have htotal : s.stats.total = 1 := (haccount.1 hs.1).trans hs.2.1
  have hflushed := haccount.2 _ (List.mem_of_getElem? hs.2.2) 1 rfl
  exact ⟨s, hrun, hs.1, hs.2.1, hs.2.2, htotal, hflushed.2⟩

/-- A clone publishes behind another clone's `Shutdown`: the task stops with the
frame still in the queue, and a later flush returns over it. -/
def publishBehindShutdown : List PublishAction :=
  List.flatten [[.shutdown true], proceeds 0 2, [.publish], proceeds 1 4, [.recv, .exit],
    [.flush false], proceeds 2 1]

theorem publish_behind_shutdown_uncounted :
    ¬ ∀ (as : List PublishAction) (s : PublishCalls), run step spawn as = some s →
      (s.task = .stopped → s.stats.total = s.published) ∧
        ∀ c ∈ s.calls, ∀ ahead, c.point.flushedBehind = some ahead →
          ahead ≤ s.queued.length ∧ ∀ k ∈ s.queued.take ahead, k ∈ s.answered := by
  intro h
  have hend : (run step spawn publishBehindShutdown).map
      (fun s => (s.task, s.stats.total, s.published)) = some (.stopped, 0, 1) := by
    decide
  obtain ⟨s, hrun, hs⟩ := Option.map_eq_some_iff.mp hend
  simp only [Prod.mk.injEq] at hs
  have htotal := (h publishBehindShutdown s hrun).1 hs.1
  rw [hs.2.1, hs.2.2] at htotal
  cases htotal

end PublishCalls

end Emergent.Sdk

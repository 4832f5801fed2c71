import Emergent.Kit.Window
import Emergent.Engine.ActorTokens

/-!
# The rate of restarts (`supervision.rs`, the `ChildExited` handler)

The handler prunes the list of restarts, decides and records a granted restart
in the list its next decision sees. A run keeps beside the list the times of
all restarts granted so far; pruning never forgets one that a later decision
would still count.
-/

namespace Emergent.Engine
open Kit Kit.Window

/-- What `ChildExited` tells the decision, and when. -/
structure ChildExit where
  outcome : ExitOutcome
  nowMs : UInt64
  deriving Repr, DecidableEq

section Run

variable (policy : RestartPolicy) (limits : RestartLimits)

/-- The decision of the handler on its pruned list. -/
def exitDecision (attempts : List UInt64) (e : ChildExit) : RestartDecision :=
  decideRestart policy e.outcome (pruneAttempts attempts e.nowMs limits.windowMs) limits
    e.nowMs false

/-- The restarts one decision grants. -/
def RestartDecision.grants (nowMs : UInt64) : RestartDecision → List UInt64
  | .restart _ _ => [nowMs]
  | .noRestart | .suppressedByShutdown | .exhausted _ _ => []

/-- The list the handler keeps and, as a log, all restarts granted so far. -/
structure RestartRun where
  attempts : List UInt64
  granted : List UInt64
  deriving Repr, DecidableEq

def RestartRun.childExited (r : RestartRun) (e : ChildExit) : RestartRun where
  attempts := pruneAttempts r.attempts e.nowMs limits.windowMs ++
    (exitDecision policy limits r.attempts e).grants e.nowMs
  granted := r.granted ++ (exitDecision policy limits r.attempts e).grants e.nowMs

def runExits (exits : List ChildExit) : RestartRun :=
  exits.foldl (RestartRun.childExited policy limits) ⟨[], []⟩

end Run

/-- The restarts granted within the window that ends at `now`, the start excluded. -/
def grantedWithin (windowMs now : UInt64) (granted : List UInt64) : ℕ :=
  (granted.filter fun t => now.toNat < t.toNat + windowMs.toNat && t ≤ now).length

variable {policy : RestartPolicy} {limits : RestartLimits} {exits : List ChildExit}
  {attempts : List UInt64} {e : ChildExit}

/-! ### The decision in numbers -/

theorem saturatingSub_lt {now windowMs t : UInt64} (ht : 0 < t) :
    saturatingSub now windowMs < t ↔ now.toNat < t.toNat + windowMs.toNat := by
  have hpos := UInt64.lt_iff_toNat_lt.mp ht
  rw [UInt64.lt_iff_toNat_lt, saturatingSub]
  split_ifs with hle
  · have hsub : (now - windowMs).toNat = now.toNat - windowMs.toNat :=
      UInt64.toNat_sub_of_le now windowMs hle
    have hle' := UInt64.le_iff_toNat_le.mp hle
    omega
  · have hlt : now.toNat < windowMs.toNat := by
      have hnot := UInt64.le_iff_toNat_le.not.mp hle
      omega
    have hzero : (0 : UInt64).toNat = 0 := rfl
    omega

theorem saturatingSub_mono {now later : UInt64} (windowMs : UInt64) (h : now ≤ later) :
    saturatingSub now windowMs ≤ saturatingSub later windowMs := by
  have hle := UInt64.le_iff_toNat_le.mp h
  rw [UInt64.le_iff_toNat_le, saturatingSub, saturatingSub]
  split_ifs with h1 h2 h2
  · rw [UInt64.toNat_sub_of_le now windowMs h1, UInt64.toNat_sub_of_le later windowMs h2]
    omega
  · exact absurd (UInt64.le_trans h1 h) h2
  · exact Nat.zero_le _
  · exact Nat.le_refl _

theorem lengthU32_toNat (n : ℕ) : (lengthU32 n).toNat = min n (2 ^ 32 - 1) := by
  rw [lengthU32, UInt32.toNat_ofNat']
  omega

theorem maxRetries_le_lengthU32 {maxRetries : UInt32} {n : ℕ} :
    maxRetries ≤ lengthU32 n ↔ maxRetries.toNat ≤ n := by
  have hbound : maxRetries.toNat < 2 ^ 32 := maxRetries.toNat_lt
  rw [UInt32.le_iff_toNat_le, lengthU32_toNat]
  omega

theorem nextAttempt_toNat {maxRetries : UInt32} {n : ℕ} (h : n < maxRetries.toNat) :
    (lengthU32 n + 1).toNat = n + 1 := by
  have hbound : maxRetries.toNat < 2 ^ 32 := maxRetries.toNat_lt
  have hone : (1 : UInt32).toNat = 1 := rfl
  rw [UInt32.toNat_add, lengthU32_toNat, hone]
  omega

/-! ### Pruning -/

theorem prune_prune {now later : UInt64} (windowMs : UInt64) (h : now ≤ later)
    (xs : List UInt64) :
    pruneAttempts (pruneAttempts xs now windowMs) later windowMs =
      pruneAttempts xs later windowMs := by
  simp only [pruneAttempts, List.filter_filter]
  apply List.filter_congr
  intro t _
  have hmono := saturatingSub_mono windowMs h
  by_cases hlate : saturatingSub later windowMs < t
  · have hearly : saturatingSub now windowMs < t := UInt64.lt_of_le_of_lt hmono hlate
    simp [hlate, hearly]
  · simp [hlate]

/-- Decisions from `now` on see the same restarts in the kept list as in the log. -/
def Remembers (limits : RestartLimits) (now : UInt64) (r : RestartRun) : Prop :=
  ∀ later, now ≤ later →
    pruneAttempts r.attempts later limits.windowMs = pruneAttempts r.granted later limits.windowMs

theorem Remembers.childExited {now : UInt64} {r : RestartRun} (h : Remembers limits now r)
    (hnow : now ≤ e.nowMs) : Remembers limits e.nowMs (r.childExited policy limits e) := by
  intro later hlater
  have hkept := h later (UInt64.le_trans hnow hlater)
  have hpruned := prune_prune limits.windowMs hlater r.attempts
  simp only [RestartRun.childExited, pruneAttempts, List.filter_append] at hkept hpruned ⊢
  rw [hpruned, hkept]

theorem runExits_snoc (exits : List ChildExit) (e : ChildExit) :
    runExits policy limits (exits ++ [e]) =
      (runExits policy limits exits).childExited policy limits e := by
  rw [runExits, List.foldl_append]
  rfl

theorem remembers_run {now : UInt64} (hmono : exits.Pairwise fun a b => a.nowMs ≤ b.nowMs)
    (hnow : ∀ e ∈ exits, e.nowMs ≤ now) : Remembers limits now (runExits policy limits exits) := by
  induction exits using List.reverseRecOn generalizing now with
  | nil =>
    intro later _
    rfl
  | append_singleton exits e ih =>
    have hsplit := List.pairwise_append.mp hmono
    have hprev : ∀ a ∈ exits, a.nowMs ≤ e.nowMs := by
      intro a ha
      exact hsplit.2.2 a ha e (List.mem_singleton_self e)
    have hlast : Remembers limits e.nowMs
        ((runExits policy limits exits).childExited policy limits e) :=
      (ih hsplit.1 hprev).childExited (UInt64.le_refl e.nowMs)
    rw [runExits_snoc]
    intro later hlater
    exact hlast later (UInt64.le_trans (hnow e (by simp)) hlater)

/-! ### The granted restarts -/

theorem mem_grants {decision : RestartDecision} {now t : UInt64}
    (h : t ∈ decision.grants now) : t = now := by
  cases decision with
  | restart _ _ => exact List.mem_singleton.mp h
  | noRestart => cases h
  | suppressedByShutdown => cases h
  | exhausted _ _ => cases h

theorem mem_granted {t : UInt64} (h : t ∈ (runExits policy limits exits).granted) :
    ∃ e ∈ exits, t = e.nowMs := by
  induction exits using List.reverseRecOn with
  | nil => cases h
  | append_singleton exits e ih =>
    rw [runExits_snoc] at h
    rcases List.mem_append.mp h with hold | hnew
    · obtain ⟨found, hfound, ht⟩ := ih hold
      exact ⟨found, List.mem_append_left _ hfound, ht⟩
    · exact ⟨e, by simp, mem_grants hnew⟩

def nearRestart (windowMs now t : UInt64) : Bool := now.toNat < t.toNat + windowMs.toNat

theorem grantedWithin_eq {windowMs now : UInt64} {granted : List UInt64}
    (h : ∀ t ∈ granted, t ≤ now) :
    grantedWithin windowMs now granted = (granted.filter (nearRestart windowMs now)).length := by
  rw [grantedWithin]
  congr 1
  apply List.filter_congr
  intro t ht
  simp [nearRestart, h t ht]

theorem granted_le (hprev : ∀ a ∈ exits, a.nowMs ≤ e.nowMs) :
    ∀ t ∈ (runExits policy limits exits).granted, t ≤ e.nowMs := by
  intro t ht
  obtain ⟨a, ha, hta⟩ := mem_granted ht
  rw [hta]
  exact hprev a ha

/-- A decision counts exactly the restarts granted within the window before it. -/
theorem length_prune_run (hpos : ∀ a ∈ exits, 0 < a.nowMs)
    (hmono : (exits ++ [e]).Pairwise fun a b => a.nowMs ≤ b.nowMs) :
    (pruneAttempts (runExits policy limits exits).attempts e.nowMs limits.windowMs).length =
      grantedWithin limits.windowMs e.nowMs (runExits policy limits exits).granted := by
  have hsplit := List.pairwise_append.mp hmono
  have hprev : ∀ a ∈ exits, a.nowMs ≤ e.nowMs := by
    intro a ha
    exact hsplit.2.2 a ha e (List.mem_singleton_self e)
  have hremembers : Remembers limits e.nowMs (runExits policy limits exits) :=
    remembers_run hsplit.1 hprev
  have hsees := hremembers e.nowMs (UInt64.le_refl _)
  rw [hsees, grantedWithin_eq (granted_le hprev), pruneAttempts]
  congr 1
  apply List.filter_congr
  intro t ht
  obtain ⟨a, ha, hta⟩ := mem_granted ht
  have hpositive : 0 < t := by rw [hta]; exact hpos a ha
  rw [nearRestart, Bool.eq_iff_iff, decide_eq_true_iff, decide_eq_true_iff,
    saturatingSub_lt hpositive]

theorem exitDecision_eq (hpos : ∀ a ∈ exits, 0 < a.nowMs)
    (hmono : (exits ++ [e]).Pairwise fun a b => a.nowMs ≤ b.nowMs) :
    exitDecision policy limits (runExits policy limits exits).attempts e =
      if policy.wants e.outcome then
        let used := lengthU32 (grantedWithin limits.windowMs e.nowMs
          (runExits policy limits exits).granted)
        if limits.maxRetries ≤ used then .exhausted used limits.windowMs
        else .restart (backoffDelay (used + 1) limits) (used + 1)
      else .noRestart := by
  rw [exitDecision, decideRestart, prune_prune _ (UInt64.le_refl _), length_prune_run hpos hmono]
  cases policy.wants e.outcome <;> rfl

/-- Each restart is granted while fewer than `max_retries` lie in the window before it. -/
theorem paced_granted (hpos : ∀ a ∈ exits, 0 < a.nowMs)
    (hmono : exits.Pairwise fun a b => a.nowMs ≤ b.nowMs) :
    Paced (nearRestart limits.windowMs) limits.maxRetries.toNat
      (runExits policy limits exits).granted := by
  induction exits using List.reverseRecOn with
  | nil => exact eachAfter_nil
  | append_singleton exits e ih =>
    have hbefore : ∀ a ∈ exits, 0 < a.nowMs := by
      intro a ha
      exact hpos a (List.mem_append_left _ ha)
    have hsplit := List.pairwise_append.mp hmono
    have hprev : ∀ a ∈ exits, a.nowMs ≤ e.nowMs := by
      intro a ha
      exact hsplit.2.2 a ha e (List.mem_singleton_self e)
    have hpaced := ih hbefore hsplit.1
    rw [runExits_snoc, RestartRun.childExited, exitDecision_eq hbefore hmono]
    dsimp only
    split_ifs with hwants hspent
    · simpa [RestartDecision.grants] using hpaced
    · rw [maxRetries_le_lengthU32, Nat.not_le, grantedWithin_eq (granted_le hprev)] at hspent
      exact hpaced.snoc hspent
    · simpa [RestartDecision.grants] using hpaced

/-- In every run at non-decreasing positive times: no half-open window of
`restart_window_ms` holds more than `max_retries` granted restarts, a granted
restart is numbered one above those granted within the window before it, and an
exit that wants a restart is given up on exactly when those have reached the
limit. -/
theorem restarts_bounded (policy : RestartPolicy) (limits : RestartLimits)
    (exits : List ChildExit) (hpos : ∀ e ∈ exits, 0 < e.nowMs)
    (hmono : exits.Pairwise fun a b => a.nowMs ≤ b.nowMs) :
    (∀ start : ℕ,
      ((runExits policy limits exits).granted.filter fun t =>
        start ≤ t.toNat && t.toNat < start + limits.windowMs.toNat).length ≤
          limits.maxRetries.toNat ∧
      ((runExits policy limits exits).granted.filter fun t =>
        start < t.toNat && t.toNat ≤ start + limits.windowMs.toNat).length ≤
          limits.maxRetries.toNat) ∧
    ∀ before e after, exits = before ++ e :: after →
      (∀ delay attempt,
        exitDecision policy limits (runExits policy limits before).attempts e =
            .restart delay attempt →
          attempt.toNat = 1 + grantedWithin limits.windowMs e.nowMs
            (runExits policy limits before).granted) ∧
      (policy.wants e.outcome = true →
        ((∃ used windowMs,
          exitDecision policy limits (runExits policy limits before).attempts e =
            .exhausted used windowMs) ↔
          limits.maxRetries.toNat ≤ grantedWithin limits.windowMs e.nowMs
            (runExits policy limits before).granted)) := by
  constructor
  · intro start
    have hpaced : Paced (nearRestart limits.windowMs) limits.maxRetries.toNat
        (runExits policy limits exits).granted :=
      paced_granted hpos hmono
    constructor
    · apply hpaced.window
      intro s t hs ht
      simp only [Bool.and_eq_true, decide_eq_true_eq] at hs ht
      simp only [nearRestart, decide_eq_true_eq]
      omega
    · apply hpaced.window
      intro s t hs ht
      simp only [Bool.and_eq_true, decide_eq_true_eq] at hs ht
      simp only [nearRestart, decide_eq_true_eq]
      omega
  · intro before e after hsplit
    have hpos' : ∀ a ∈ before, 0 < a.nowMs := by
      intro a ha
      exact hpos a (by rw [hsplit]; exact List.mem_append_left _ ha)
    have hmono' : (before ++ [e]).Pairwise fun a b => a.nowMs ≤ b.nowMs := by
      have hprefix : before ++ [e] <+: exits := ⟨after, by rw [hsplit]; simp⟩
      exact hmono.sublist hprefix.sublist
    rw [exitDecision_eq hpos' hmono']
    constructor
    · intro delay attempt hgrant
      dsimp only at hgrant
      split_ifs at hgrant with hwants hspent
      rw [maxRetries_le_lengthU32, Nat.not_le] at hspent
      rw [RestartDecision.restart.injEq] at hgrant
      rw [← hgrant.2, nextAttempt_toNat hspent, Nat.add_comm]
    · intro hwants
      rw [if_pos hwants]
      dsimp only
      rw [← maxRetries_le_lengthU32]
      split_ifs with hspent
      · simp [hspent]
      · simp [hspent]

theorem restarts_bounded_twice_in_a_window :
    (runExits .always ⟨500, 30000, 2, 1000⟩
        [⟨.failure, 100⟩, ⟨.clean, 600⟩, ⟨.failure, 1000⟩, ⟨.failure, 1100⟩]).granted =
      [100, 600, 1100] ∧
    ((runExits .always ⟨500, 30000, 2, 1000⟩
        [⟨.failure, 100⟩, ⟨.clean, 600⟩, ⟨.failure, 1000⟩, ⟨.failure, 1100⟩]).granted.filter
      fun t => 100 ≤ t.toNat && t.toNat < 100 + 1000).length ≤ 2 := by
  refine ⟨by decide, ?_⟩
  have h := restarts_bounded .always ⟨500, 30000, 2, 1000⟩
    [⟨.failure, 100⟩, ⟨.clean, 600⟩, ⟨.failure, 1000⟩, ⟨.failure, 1100⟩] (by decide) (by decide)
  exact (h.1 100).1

/-! ### The actor -/

namespace PrimitiveActor

/-- What the `ChildExited` handler decides on when this action is taken. -/
def exitsDecided (s : PrimitiveActor) : ActorAction → List ChildExit
  | .deliver nowMs =>
    match s.mailbox with
    | .childExited pid status :: _ =>
      if s.childPid = some pid then [⟨outcomeFromExitCode status, nowMs⟩] else []
    | _ => []
  | _ => []

def exitsAlong (config : PrimitiveActorConfig) : PrimitiveActor → List ActorAction →
    List ChildExit
  | _, [] => []
  | s, a :: as =>
    s.exitsDecided a ++ match s.step config a with
      | some t => exitsAlong config t as
      | none => []

variable {config : PrimitiveActorConfig} {s t : PrimitiveActor} {r : RestartRun}

theorem advance_restartAttempts (config : PrimitiveActorConfig) (s : PrimitiveActor)
    (attempt : Option UInt32) (outcome : SpawnOutcome) (point : SpawnPoint) :
    (s.advance config attempt outcome point).1.restartAttempts = s.restartAttempts := by
  cases point <;> try rfl
  case create => cases outcome <;> rfl

/-- The handler keeps and extends the list as the run above does. -/
theorem handleExited_restartAttempts {nowMs : UInt64} {pid : Pid} {status : ℤ}
    (hpid : s.childPid = some pid) (hup : s.shuttingDown = false)
    (hr : r.attempts = s.restartAttempts) :
    (s.handleExited config nowMs pid status).restartAttempts =
      (r.childExited config.restart config.restartLimits
        ⟨outcomeFromExitCode status, nowMs⟩).attempts := by
  unfold handleExited RestartRun.childExited exitDecision
  rw [if_neg (not_not_intro hpid), hr, hup]
  dsimp only
  cases decideRestart config.restart (outcomeFromExitCode status)
      (pruneAttempts s.restartAttempts nowMs config.restartLimits.windowMs)
      config.restartLimits nowMs false with
  | restart delay attempt => rfl
  | noRestart => exact (List.append_nil _).symm
  | suppressedByShutdown => exact (List.append_nil _).symm
  | exhausted used windowMs => exact (List.append_nil _).symm

theorem deliver_restartAttempts {nowMs : UInt64} (hup : s.shuttingDown = false)
    (hr : r.attempts = s.restartAttempts) (h : s.deliver config nowMs = some t) :
    t.restartAttempts = ((s.exitsDecided (.deliver nowMs)).foldl
      (RestartRun.childExited config.restart config.restartLimits) r).attempts := by
  obtain ⟨message, mailbox, hmail, _, rfl⟩ := deliver_cases h
  unfold exitsDecided
  rw [hmail]
  cases message with
  | childExited pid status =>
    by_cases hpid : s.childPid = some pid
    · dsimp only
      rw [if_pos hpid]
      exact handleExited_restartAttempts (s := { s with mailbox := mailbox }) hpid hup hr
    · have hstale : ({ s with mailbox := mailbox } : PrimitiveActor).handleExited config nowMs
          pid status = { s with mailbox := mailbox } := if_pos hpid
      dsimp only [handle]
      rw [if_neg hpid, hstale]
      exact hr.symm
  | restartChild attempt =>
    simp only [handle]
    split <;> exact hr.symm
  | stopPrimitive =>
    simp only [handle, signalChild]
    split <;> exact hr.symm
  | childSpawning => exact hr.symm
  | childSpawned pid => exact hr.symm
  | childSpawnFailed error => exact hr.symm
  | healthCheck => exact hr.symm
  | engineShuttingDown => exact hr.symm

theorem step_restartAttempts {a : ActorAction} (hup : s.shuttingDown = false)
    (hr : r.attempts = s.restartAttempts) (h : s.step config a = some t) :
    t.restartAttempts = ((s.exitsDecided a).foldl
      (RestartRun.childExited config.restart config.restartLimits) r).attempts := by
  cases a with
  | send request =>
    cases h
    exact hr.symm
  | deliver nowMs => exact deliver_restartAttempts hup hr h
  | bootStep outcome =>
    obtain ⟨spawn, _, rfl⟩ := Option.map_eq_some_iff.mp h
    exact (advance_restartAttempts config s spawn.attempt outcome spawn.point).trans hr.symm
  | taskStep outcome =>
    rcases taskStep_cases h with ⟨spawn, _, rfl⟩ | ⟨attempt, _, rfl⟩ | ⟨reason, _, rfl⟩
    · exact (advance_restartAttempts config s spawn.attempt outcome spawn.point).trans hr.symm
    · exact hr.symm
    · exact hr.symm
  | exit i status =>
    obtain ⟨c, holder, _, _, rfl⟩ := step_exit_cases h
    exact hr.symm
  | monitorStep i =>
    obtain ⟨c, _, h⟩ := Option.bind_eq_some_iff.mp h
    obtain ⟨status, ⟨_, rfl⟩ | ⟨_, rfl⟩ | ⟨_, rfl⟩ | ⟨_, rfl⟩⟩ := monitorStep_cases h
    all_goals exact hr.symm
  | waitFails i =>
    obtain ⟨c, _, h⟩ := Option.bind_eq_some_iff.mp h
    rcases loseChild_cases h with ⟨_, rfl⟩ | ⟨status, _, rfl⟩
    all_goals exact hr.symm
  | kill pid =>
    cases h
    exact hr.symm
  | requestStop =>
    cases h
    exact hr.symm
  | terminate =>
    obtain ⟨signals, _, rfl⟩ := step_terminate_cases h
    exact hr.symm

theorem up_of_run {as : List ActorAction} (hrun : run (step config) s as = some t)
    (hup : t.shuttingDown = false) : s.shuttingDown = false := by
  cases hs : s.shuttingDown with
  | false => rfl
  | true =>
    have hdown : t.shuttingDown = true :=
      run_invariant (I := fun u => u.shuttingDown = true)
        (fun u a v hu h => (step_shuttingDown hu h).1) hs hrun
    rw [hup] at hdown
    cases hdown

/-- In a run without a shutdown the actor's list is what its exits make of it, so
`restarts_bounded` speaks of every restart the actor grants. -/
theorem run_restartAttempts {as : List ActorAction} (hr : r.attempts = s.restartAttempts)
    (hrun : run (step config) s as = some t) (hup : t.shuttingDown = false) :
    t.restartAttempts = ((exitsAlong config s as).foldl
      (RestartRun.childExited config.restart config.restartLimits) r).attempts := by
  induction as generalizing s r with
  | nil =>
    cases hrun
    exact hr.symm
  | cons a as ih =>
    have hs := up_of_run hrun hup
    obtain ⟨u, hstep, hrest⟩ := run_cons.mp hrun
    have hu := step_restartAttempts hs hr hstep
    have htail := ih hu.symm hrest
    rw [exitsAlong, hstep, List.foldl_append]
    exact htail

end PrimitiveActor

end Emergent.Engine

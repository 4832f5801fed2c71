import Emergent.Engine.BrokerOrder

/-!
# Warn mode is a dry run of strict mode

The three modes read one table. `off` asks nothing; `warn` and `strict` come to the
same verdicts, and `warn` lets pass what `strict` refuses. So a run under `warn`
tells beforehand what `strict` would do: its first violation is what `strict`
answers with, and a run without one is the same run under every mode.
-/

namespace Emergent.Engine
open Emergent.Sdk Kit

namespace Ruling

/-- The reasons the observer was told. -/
def violations (ruling : Ruling) : List String :=
  ruling.observed.filterMap fun
    | .violation _ reason => some reason
    | .subscribed _ _ => none

def Clean (ruling : Ruling) : Prop := ruling.violations = []

instance (ruling : Ruling) : Decidable ruling.Clean := inferInstanceAs (Decidable (_ = _))

/-- The second ruling lets everything pass and tells what the first one does. -/
structure DryRun (strict warn : Ruling) : Prop where
  passes : warn.result = .ok ()
  silent : warn.reports = []
  denial : ∀ reason, warn.violations.head? = some reason → strict.result = .error reason
  same : warn.Clean → strict = warn

theorem DryRun.refl {ruling : Ruling} (hpass : ruling.result = .ok ())
    (hreports : ruling.reports = []) (hclean : ruling.Clean) : DryRun ruling ruling := by
  refine ⟨hpass, hreports, fun reason hreason => ?_, fun _ => rfl⟩
  rw [hclean] at hreason
  cases hreason

theorem violations_andThen {first next : Ruling} (h : first.result = .ok ()) :
    (first.andThen next).violations = first.violations ++ next.violations := by
  simp only [andThen, h, violations, List.filterMap_append]

/-- What comes after a denial is not reached under the first, and adds to the reasons
under the second. -/
theorem DryRun.andThen {strict warn strict' warn' : Ruling} (h : DryRun strict warn)
    (h' : DryRun strict' warn') : DryRun (strict.andThen strict') (warn.andThen warn') := by
  have hviolations : (warn.andThen warn').violations = warn.violations ++ warn'.violations :=
    violations_andThen h.passes
  refine ⟨?_, ?_, fun reason hreason => ?_, fun hclean => ?_⟩
  · simp only [Ruling.andThen, h.passes, h'.passes]
  · simp only [Ruling.andThen, h.passes, h.silent, h'.silent, List.append_nil]
  · rw [hviolations] at hreason
    cases hfirst : warn.violations with
    | nil =>
      rw [hfirst, List.nil_append] at hreason
      rw [h.same hfirst]
      simp only [Ruling.andThen, h.passes, h'.denial reason hreason]
    | cons found rest =>
      rw [hfirst] at hreason
      obtain rfl := Option.some.inj hreason
      have hdenied := h.denial found (by rw [hfirst]; rfl)
      simp only [Ruling.andThen, hdenied]
  · rw [Clean, hviolations] at hclean
    obtain ⟨hfirst, hnext⟩ := List.append_eq_nil_iff.mp hclean
    rw [h.same hfirst, h'.same hnext]

/-- The verdict of a strict ruling can be read off the reasons. -/
theorem DryRun.allowed_iff {strict warn : Ruling} (h : DryRun strict warn) :
    strict.allowed = true ↔ warn.Clean := by
  cases hviolations : warn.violations with
  | nil => simp [h.same hviolations, allowed, h.passes, Clean, hviolations]
  | cons reason rest =>
    simp [allowed, h.denial reason (by rw [hviolations]; rfl), Clean, hviolations]

end Ruling

namespace EnginePolicy

def withMode (policy : EnginePolicy) (mode : EnforcementMode) : EnginePolicy :=
  { policy with declarations := { policy.declarations with mode } }

section
variable (policy : EnginePolicy)

theorem check_withMode {mode : EnforcementMode} (h : mode.isEnforcing = true)
    (name : Option String) (operation : Operation) (messageType : String) :
    ((policy.withMode mode).declarations.check name operation messageType).verdict =
      ((policy.withMode .strict).declarations.check name operation messageType).verdict := by
  simp only [DeclarationTable.check, withMode, h]
  rfl

theorem checkSource_withMode {mode : EnforcementMode} (h : mode.isEnforcing = true)
    (identity source : Option String) :
    ((policy.withMode mode).declarations.checkSource identity source).verdict =
      ((policy.withMode .strict).declarations.checkSource identity source).verdict := by
  simp only [DeclarationTable.checkSource, withMode, h]
  rfl

/-- One check: the same verdict, refused by one policy and told by the other. -/
theorem enforce_dryRun (identity : ConnectionIdentity) {strict warn : Checked}
    (hverdict : warn.verdict = strict.verdict)
    (hstrict : strict.enforcement = enforcementFor .strict strict.verdict)
    (hwarn : warn.enforcement = enforcementFor .warn warn.verdict) (name : Option String)
    (operation : Operation) (messageType : String) :
    Ruling.DryRun
      ((policy.withMode .strict).enforce identity strict name operation messageType)
      ((policy.withMode .warn).enforce identity warn name operation messageType) := by
  cases hviolation : strict.verdict.isViolation with
  | false =>
    simp only [enforce, hverdict, hviolation]
    exact .refl rfl rfl rfl
  | true =>
    have hrejects : strict.enforcement = .reject := by
      rw [hstrict]
      exact enforcementFor_strict hviolation
    have hwarns : warn.enforcement = .warn := by
      rw [hwarn, hverdict]
      revert hviolation
      cases strict.verdict <;> decide
    simp only [enforce, hverdict, hviolation, if_true, record, hrejects, hwarns]
    refine ⟨rfl, rfl, fun reason hreason => ?_, fun hclean => ?_⟩
    · obtain rfl := Option.some.inj hreason
      rfl
    · cases hclean

theorem enforce_check_dryRun (identity : ConnectionIdentity) (name : Option String)
    (operation : Operation) (messageType : String) :
    Ruling.DryRun
      ((policy.withMode .strict).enforce identity
        ((policy.withMode .strict).declarations.check name operation messageType) name operation
        messageType)
      ((policy.withMode .warn).enforce identity
        ((policy.withMode .warn).declarations.check name operation messageType) name operation
        messageType) :=
  policy.enforce_dryRun identity (policy.check_withMode rfl name operation messageType)
    (DeclarationTable.check_enforcement _ _ _ _) (DeclarationTable.check_enforcement _ _ _ _)
    name operation messageType

theorem judgePublish_dryRun (identity : ConnectionIdentity) (messageType : String)
    (claimed : Option String) :
    Ruling.DryRun ((policy.withMode .strict).judgePublish identity messageType claimed)
      ((policy.withMode .warn).judgePublish identity messageType claimed) := by
  have hnames : (policy.withMode .strict).unmanagedNames = (policy.withMode .warn).unmanagedNames :=
    rfl
  unfold judgePublish
  rw [hnames]
  refine Ruling.DryRun.andThen ?_ (policy.enforce_check_dryRun identity _ .publish messageType)
  split
  · exact policy.enforce_dryRun identity (policy.checkSource_withMode rfl _ _)
      (DeclarationTable.checkSource_enforcement _ _ _)
      (DeclarationTable.checkSource_enforcement _ _ _) _ .publish messageType
  · exact .refl rfl rfl rfl

theorem checkTopics_dryRun (identity : ConnectionIdentity) (name : Option String)
    (topics : List String) :
    Ruling.DryRun ((policy.withMode .strict).checkTopics identity name topics)
      ((policy.withMode .warn).checkTopics identity name topics) := by
  induction topics with
  | nil => exact .refl rfl rfl rfl
  | cons topic topics ih =>
    exact (policy.enforce_check_dryRun identity name .subscribe topic).andThen ih

theorem authorizeSubscribe_dryRun (identity : ConnectionIdentity) (topics : List String) :
    Ruling.DryRun ((policy.withMode .strict).authorizeSubscribe identity topics)
      ((policy.withMode .warn).authorizeSubscribe identity topics) :=
  (policy.checkTopics_dryRun identity _ topics).andThen (.refl rfl rfl rfl)

theorem authorize_dryRun (identity : Option ConnectionIdentity) (op : IpcOperation) :
    Ruling.DryRun ((policy.withMode .strict).authorize identity op)
      ((policy.withMode .warn).authorize identity op) := by
  cases op with
  | request payload =>
    simp only [authorize, authorizeRequest]
    split
    · exact .refl rfl rfl rfl
    · exact policy.judgePublish_dryRun _ _ _
  | subscribe topics => exact policy.authorizeSubscribe_dryRun _ topics
  | subscribePatterns topics => exact policy.authorizeSubscribe_dryRun _ topics
  | _ => exact .refl rfl rfl rfl

/-! ### Off -/

theorem enforce_off (identity : ConnectionIdentity) (name : Option String)
    (operation : Operation) (messageType : String) :
    (policy.withMode .off).enforce identity
        ((policy.withMode .off).declarations.check name operation messageType) name operation
        messageType = .pass := rfl

theorem checkTopics_off (identity : ConnectionIdentity) (name : Option String)
    (topics : List String) : (policy.withMode .off).checkTopics identity name topics = .pass := by
  induction topics with
  | nil => rfl
  | cons topic topics ih => rw [checkTopics, enforce_off, ih]; rfl

theorem authorize_off (identity : Option ConnectionIdentity) (op : IpcOperation) :
    ((policy.withMode .off).authorize identity op).allowed = true ∧
      ((policy.withMode .off).authorize identity op).reports = [] := by
  cases op with
  | request payload =>
    simp only [authorize, authorizeRequest]
    split
    · exact ⟨rfl, rfl⟩
    · rename_i messageType _
      have hjudge : ∀ who claimed, (policy.withMode .off).judgePublish who messageType claimed =
          .pass := by
        intro who claimed
        simp only [judgePublish, enforce_off]
        split <;> rfl
      rw [hjudge]
      exact ⟨rfl, rfl⟩
  | subscribe topics =>
    simp only [authorize, authorizeSubscribe, checkTopics_off]
    exact ⟨rfl, rfl⟩
  | subscribePatterns topics =>
    simp only [authorize, authorizeSubscribe, checkTopics_off]
    exact ⟨rfl, rfl⟩
  | _ => exact ⟨rfl, rfl⟩

end

end EnginePolicy

namespace BrokerState

/-! ### Runs -/

/-- The operation, if the action is one, breaks no declaration. -/
def Unviolated (policy : EnginePolicy) (s : BrokerState) : BrokerAction → Prop
  | .operation id op _ _ => ∀ c ∈ s.connections.find? (·.id = id),
      (policy.authorize c.identity op).Clean
  | _ => True

/-- The operation, if the action is one, is let through. -/
def Authorized (policy : EnginePolicy) (s : BrokerState) : BrokerAction → Prop
  | .operation id op _ _ => ∀ c ∈ s.connections.find? (·.id = id),
      (policy.authorize c.identity op).allowed = true
  | _ => True

section
variable {policy : EnginePolicy} {fromStr : String → Option TypeId} {s : BrokerState}

theorem authorized_iff (a : BrokerAction) :
    s.Authorized (policy.withMode .strict) a ↔ s.Unviolated (policy.withMode .warn) a := by
  cases a with
  | operation id op wire shouldReply =>
    exact forall₂_congr fun c _ => (policy.authorize_dryRun c.identity op).allowed_iff
  | _ => exact Iff.rfl

theorem operate_congr {other : EnginePolicy} {c : Connection} {op : EnginePolicy.IpcOperation}
    (hallowed : (other.authorize c.identity op).allowed = (policy.authorize c.identity op).allowed)
    (hreports : (other.authorize c.identity op).reports = (policy.authorize c.identity op).reports)
    (wire : WireType) (shouldReply : Bool) :
    s.operate other fromStr c op wire shouldReply =
      s.operate policy fromStr c op wire shouldReply := by
  simp only [operate, hallowed, hreports]

/-- Two policies that rule alike on the operation of an action, and both deliver
whatever is selected, take it alike. -/
theorem step_congr {other : EnginePolicy} {a : BrokerAction}
    (h : ∀ id op wire shouldReply, a = .operation id op wire shouldReply →
      ∀ c ∈ s.connections.find? (·.id = id),
        (other.authorize c.identity op).allowed = (policy.authorize c.identity op).allowed ∧
        (other.authorize c.identity op).reports = (policy.authorize c.identity op).reports) :
    s.step other fromStr a = s.step policy fromStr a := by
  cases a with
  | operation id op wire shouldReply =>
    simp only [BrokerState.step]
    cases hfind : s.connections.find? (·.id = id) with
    | none => rfl
    | some c =>
      obtain ⟨hallowed, hreports⟩ := h id op wire shouldReply rfl c (by rw [hfind]; rfl)
      rw [Option.map_some, Option.map_some, operate_congr hallowed hreports]
  | _ => rfl

theorem step_strict {a : BrokerAction} (h : s.Unviolated (policy.withMode .warn) a) :
    s.step (policy.withMode .strict) fromStr a = s.step (policy.withMode .warn) fromStr a := by
  refine step_congr fun id op wire shouldReply ha c hc => ?_
  subst ha
  have hsame := (policy.authorize_dryRun c.identity op).same (h c hc)
  rw [hsame]
  exact ⟨rfl, rfl⟩

theorem step_off (a : BrokerAction) :
    s.step (policy.withMode .off) fromStr a = s.step (policy.withMode .warn) fromStr a := by
  refine step_congr fun id op wire shouldReply _ c _ => ?_
  have hdry := policy.authorize_dryRun c.identity op
  obtain ⟨hallowed, hreports⟩ := policy.authorize_off c.identity op
  rw [hallowed, hreports, hdry.silent]
  exact ⟨by simp only [Ruling.allowed, hdry.passes], rfl⟩

/-- A run under `warn` is the run under `off`. When it tells of no violation it is the
run under `strict` as well, and it tells of none exactly when `strict` refuses
nothing; where it tells of some, `strict` refuses with the first. -/
theorem run_warn_dryRun (policy : EnginePolicy) (fromStr : String → Option TypeId)
    (stores : EventStoreWrapper) (actions : List BrokerAction) :
    run (BrokerState.step (policy.withMode .off) fromStr) (start stores) actions =
        run (BrokerState.step (policy.withMode .warn) fromStr) (start stores) actions ∧
      (Obeys (BrokerState.step (policy.withMode .warn) fromStr)
          (Unviolated (policy.withMode .warn)) (start stores) actions →
        run (BrokerState.step (policy.withMode .strict) fromStr) (start stores) actions =
          run (BrokerState.step (policy.withMode .warn) fromStr) (start stores) actions) ∧
      (Obeys (BrokerState.step (policy.withMode .strict) fromStr)
          (Authorized (policy.withMode .strict)) (start stores) actions ↔
        Obeys (BrokerState.step (policy.withMode .warn) fromStr)
          (Unviolated (policy.withMode .warn)) (start stores) actions) ∧
      ∀ identity op reason,
        ((policy.withMode .warn).authorize identity op).violations.head? = some reason →
        ((policy.withMode .strict).authorize identity op).result = .error reason := by
  refine ⟨?_, fun hclean => (run_eq_of_obeys (fun _ _ => step_strict) hclean).1, ⟨?_, ?_⟩,
    fun identity op => (policy.authorize_dryRun identity op).denial⟩
  · exact (run_eq_of_obeys (fun s a _ => step_off a) (obeys_trivial (start stores) actions)).1
  · intro hauthorized
    have hclean : Obeys (BrokerState.step (policy.withMode .strict) fromStr)
        (Unviolated (policy.withMode .warn)) (start stores) actions :=
      hauthorized.imp fun _ a => (authorized_iff a).mp
    exact (run_eq_of_obeys (fun _ _ hg => (step_strict hg).symm) hclean).2
  · intro hclean
    have hsame := (run_eq_of_obeys (fun _ _ => step_strict) hclean).2
    exact hsame.imp fun _ a => (authorized_iff a).mpr

end

end BrokerState

end Emergent.Engine

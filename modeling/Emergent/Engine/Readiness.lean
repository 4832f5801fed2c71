import Emergent.Engine.Policy

/-!
# Tier readiness (`emergent-engine/src/readiness.rs`)

The pure half of the startup wait. The policy reports each subscribe it
authorizes; `noteSubscribe` drops the ones that only ask for discovery, `absorb`
turns the rest into names, and `evaluateTier` says whether a tier still waits on
somebody.
-/

namespace Emergent.Engine

def discoveryResponseTopic : String := "system.response.subscriptions"

inductive Evidence where
  | subscribed
  | waiting
  | notRunning
  deriving Repr, DecidableEq

def isPrimitiveSubscription (subscribedTypes : List String) : Bool :=
  subscribedTypes.any fun t => t != discoveryResponseTopic

def classify (running subscriptionConfirmed : Bool) : Evidence :=
  if subscriptionConfirmed then .subscribed
  else if running then .waiting
  else .notRunning

structure TierMember where
  name : String
  declaresSubscriptions : Bool
  evidence : Evidence
  deriving Repr, DecidableEq

structure TierVerdict where
  ready : Bool
  waitingOn : List String
  deriving Repr, DecidableEq

def evaluateTier (members : List TierMember) : TierVerdict :=
  let waitingOn :=
    (((members.filter fun m => m.declaresSubscriptions).filter fun m =>
      m.evidence = .waiting).map TierMember.name).insertionSort (· ≤ ·)
  ⟨waitingOn.isEmpty, waitingOn⟩

inductive ObservedSubscriber where
  | named (name : String)
  | pid (pid : Pid)
  | anonymous
  deriving Repr, DecidableEq

/-- `attribute`: the name behind an observed subscribe; `children` maps the pids of the
spawned processes to names. -/
def attributeSubscriber (subscriber : ObservedSubscriber) (children : List (Pid × String)) :
    Option String :=
  match subscriber with
  | .named name => some name
  | .pid pid => children.lookup pid
  | .anonymous => none

def unattributedCap : ℕ := 64

structure Ledger where
  confirmed : Finset String
  unattributed : List ObservedSubscriber
  deriving DecidableEq

def Ledger.default : Ledger := ⟨∅, []⟩

/-- The body of the loop of `absorb`. -/
def Ledger.fold (children : List (Pid × String)) (ledger : Ledger)
    (subscriber : ObservedSubscriber) : Ledger :=
  match attributeSubscriber subscriber children with
  | some name => { ledger with confirmed := insert name ledger.confirmed }
  | none =>
    if ledger.unattributed.length < unattributedCap then
      { ledger with unattributed := ledger.unattributed ++ [subscriber] }
    else ledger

def absorb (ledger : Ledger) (observed : List ObservedSubscriber)
    (children : List (Pid × String)) : Ledger :=
  (ledger.unattributed ++ observed).foldl (Ledger.fold children) ⟨ledger.confirmed, []⟩

def observedSubscriber : ConnectionIdentity → ObservedSubscriber
  | .primitive name => .named name
  | .unmanaged (some pid) _ => .pid pid
  | .unmanaged none _ => .anonymous

/-- `note_subscribe`: what goes on the channel for one authorized subscribe. -/
def noteSubscribe (subscriber : ObservedSubscriber) (topics : List String) :
    List ObservedSubscriber :=
  if isPrimitiveSubscription topics then [subscriber] else []

/-- What the observer sends for the observations of one ruling. -/
def Ruling.signals (ruling : Ruling) : List ObservedSubscriber :=
  ruling.observed.flatMap fun o =>
    match o with
    | .subscribed identity topics => noteSubscribe (observedSubscriber identity) topics
    | .violation _ _ => []

/-! ### The verdict -/

theorem classify_eq_waiting {running confirmed : Bool} :
    classify running confirmed = .waiting ↔ running = true ∧ confirmed = false := by
  cases running <;> cases confirmed <;> simp [classify]

theorem evaluateTier_ready {members : List TierMember} :
    (evaluateTier members).ready = true ↔
      ∀ m ∈ members, m.declaresSubscriptions = true → m.evidence ≠ .waiting := by
  simp only [evaluateTier, List.isEmpty_iff]
  rw [← List.length_eq_zero_iff, List.length_insertionSort, List.length_map,
    List.length_eq_zero_iff, List.filter_eq_nil_iff]
  simp only [List.mem_filter, decide_eq_true_eq, and_imp]

/-! ### The ledger -/

variable {children : List (Pid × String)}

theorem attributeSubscriber_pid {pid : Pid} {name : String}
    (h : attributeSubscriber (.pid pid) children = some name) : (pid, name) ∈ children := by
  have hl : children.lookup pid = some name := h
  obtain ⟨l₁, l₂, hlist, _⟩ := List.lookup_eq_some_iff.mp hl
  rw [hlist]
  simp

theorem foldl_fold_confirmed {name : String} (observed : List ObservedSubscriber)
    (ledger : Ledger) :
    name ∈ (observed.foldl (Ledger.fold children) ledger).confirmed ↔
      name ∈ ledger.confirmed ∨ ∃ o ∈ observed, attributeSubscriber o children = some name := by
  induction observed generalizing ledger with
  | nil => simp
  | cons o observed ih =>
    rw [List.foldl_cons, ih]
    have hhead : name ∈ (Ledger.fold children ledger o).confirmed ↔
        name ∈ ledger.confirmed ∨ attributeSubscriber o children = some name := by
      unfold Ledger.fold
      cases ha : attributeSubscriber o children with
      | some found =>
        simp only [Finset.mem_insert, Option.some.injEq]
        constructor
        · intro h
          exact h.elim (fun h => Or.inr h.symm) Or.inl
        · intro h
          exact h.elim Or.inr fun h => Or.inl h.symm
      | none =>
        by_cases hroom : ledger.unattributed.length < unattributedCap <;> simp [hroom]
    rw [hhead]
    simp [or_assoc]

theorem foldl_fold_unattributed {subscriber : ObservedSubscriber}
    (observed : List ObservedSubscriber) (ledger : Ledger)
    (h : subscriber ∈ (observed.foldl (Ledger.fold children) ledger).unattributed) :
    subscriber ∈ ledger.unattributed ∨ subscriber ∈ observed := by
  induction observed generalizing ledger with
  | nil => exact Or.inl h
  | cons o observed ih =>
    rw [List.foldl_cons] at h
    rcases ih _ h with hledger | hrest
    · unfold Ledger.fold at hledger
      split at hledger
      · exact Or.inl hledger
      · split at hledger
        · rcases List.mem_append.mp hledger with hold | hnew
          · exact Or.inl hold
          · rw [List.mem_singleton.mp hnew]
            exact Or.inr List.mem_cons_self
        · exact Or.inl hledger
    · exact Or.inr (List.mem_cons_of_mem o hrest)

theorem absorb_confirmed {ledger : Ledger} {observed : List ObservedSubscriber} {name : String} :
    name ∈ (absorb ledger observed children).confirmed ↔
      name ∈ ledger.confirmed ∨
        ∃ o ∈ ledger.unattributed ++ observed, attributeSubscriber o children = some name :=
  foldl_fold_confirmed _ _

theorem absorb_unattributed {ledger : Ledger} {observed : List ObservedSubscriber}
    {subscriber : ObservedSubscriber}
    (h : subscriber ∈ (absorb ledger observed children).unattributed) :
    subscriber ∈ ledger.unattributed ++ observed := by
  rcases foldl_fold_unattributed _ _ h with hnil | hmem
  · cases hnil
  · exact hmem

/-! ### What the policy reports -/

theorem Ruling.andThen_signals (first next : Ruling) :
    (first.andThen next).signals =
      first.signals ++ if first.allowed then next.signals else [] := by
  unfold Ruling.andThen Ruling.allowed
  cases hf : first.result with
  | error e => simp
  | ok _ => simp [Ruling.signals]

namespace EnginePolicy

variable {policy : EnginePolicy} {identity : ConnectionIdentity}

theorem enforce_signals (checked : Checked) (name : Option String) (operation : Operation)
    (messageType : String) :
    (policy.enforce identity checked name operation messageType).signals = [] := by
  unfold enforce
  split
  · unfold record
    split <;> rfl
  · rfl

theorem checkTopics_signals (name : Option String) (topics : List String) :
    (policy.checkTopics identity name topics).signals = [] := by
  induction topics with
  | nil => rfl
  | cons topic topics ih =>
    rw [checkTopics, Ruling.andThen_signals, enforce_signals, ih]
    simp

/-- A subscribe is signalled exactly when it is authorized and asks for more
than the discovery topic. -/
theorem authorizeSubscribe_signals (topics : List String) :
    (policy.authorizeSubscribe identity topics).signals =
      if (policy.authorizeSubscribe identity topics).allowed then
        noteSubscribe (observedSubscriber identity) topics
      else [] := by
  have hsent : (⟨.ok (), [.subscribed identity topics], []⟩ : Ruling).signals =
      noteSubscribe (observedSubscriber identity) topics := by
    simp [Ruling.signals]
  have hallowed : (policy.authorizeSubscribe identity topics).allowed =
      (policy.checkTopics identity
        (effectiveName identity none policy.unmanagedNames).name topics).allowed := by
    rw [Bool.eq_iff_iff, authorizeSubscribe, Ruling.andThen_allowed]
    simp [Ruling.allowed]
  rw [hallowed, authorizeSubscribe, Ruling.andThen_signals, checkTopics_signals, hsent]
  rfl

theorem mem_authorizeSubscribe_signals {topics : List String} {subscriber : ObservedSubscriber}
    (h : subscriber ∈ (policy.authorizeSubscribe identity topics).signals) :
    (policy.authorizeSubscribe identity topics).allowed = true ∧
      isPrimitiveSubscription topics = true ∧ subscriber = observedSubscriber identity := by
  rw [authorizeSubscribe_signals] at h
  split at h
  · rename_i hallowed
    unfold noteSubscribe at h
    split at h
    · rename_i hprimitive
      exact ⟨hallowed, hprimitive, List.mem_singleton.mp h⟩
    · cases h
  · cases h

end EnginePolicy

end Emergent.Engine

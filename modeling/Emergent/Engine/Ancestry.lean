import Emergent.Kit.Climb
import Emergent.Engine.Identity

/-!
# The nearest recorded ancestor (`ipc_identity.rs`, `resolve_ancestry` and `walk`)

The ancestors of a peer are `p₀`, the peer itself, and `pₖ₊₁`, the parent of
`pₖ`. The walk finds the first of the first sixteen that settles the question;
the resolver looks again while the answer is an unrecorded child.
-/

namespace Emergent.Engine
open Kit.Climb

section Walk

variable (enginePid : Pid) (children : List (Pid × String)) (parentOf : Pid → Option Pid)

def ancestor (peerPid : Option Pid) (k : ℕ) : Option Pid := chain parentOf peerPid k

/-- The walk goes no further than this pid. -/
def StopsAt (pid : Pid) : Prop :=
  (∃ name, children.lookup pid = some name) ∨ pid = enginePid ∨ pid ≤ 1 ∨ parentOf pid = none

/-- The walk gets to `pid` after `k` parents, within its depth and without a stop before. -/
def WalksTo (peerPid : Option Pid) (k : ℕ) (pid : Pid) : Prop :=
  k < maxAncestryDepth ∧ ancestor parentOf peerPid k = some pid ∧
    ∀ j < k, ∀ q, ancestor parentOf peerPid j = some q →
      ¬ StopsAt enginePid children parentOf q

/-- What one pid settles, `none` to go on to its parent. -/
def settlesAt (pid : Pid) : Option Resolution :=
  match children.lookup pid with
  | some name => some (.primitive name)
  | none =>
    if pid = enginePid then some .unrecordedChild
    else if pid ≤ 1 then some .foreign
    else if parentOf pid = none then some .foreign
    else none

end Walk

variable {enginePid : Pid} {children children' : List (Pid × String)}
  {parentOf : Pid → Option Pid} {peerPid : Option Pid}

/-! ### What one pid settles -/

theorem settlesAt_eq_none {pid : Pid} :
    settlesAt enginePid children parentOf pid = none ↔
      ¬ StopsAt enginePid children parentOf pid := by
  unfold settlesAt StopsAt
  cases hl : children.lookup pid with
  | some name => simp
  | none =>
    simp only [reduceCtorEq, exists_false, false_or]
    by_cases hengine : pid = enginePid
    · simp [hengine]
    · by_cases hlow : pid ≤ 1
      · simp [hengine, hlow]
      · by_cases hparent : parentOf pid = none <;> simp [hengine, hlow, hparent]

theorem settlesAt_eq_primitive {pid : Pid} {name : String} :
    settlesAt enginePid children parentOf pid = some (.primitive name) ↔
      children.lookup pid = some name := by
  unfold settlesAt
  cases hl : children.lookup pid with
  | some found => simp
  | none =>
    simp only [reduceCtorEq, iff_false]
    split_ifs <;> simp

theorem settlesAt_eq_unrecorded {pid : Pid} :
    settlesAt enginePid children parentOf pid = some .unrecordedChild ↔
      children.lookup pid = none ∧ pid = enginePid := by
  unfold settlesAt
  cases hl : children.lookup pid with
  | some found => simp
  | none =>
    simp only [true_and]
    split_ifs with hengine <;> simp [hengine]

/-! ### The loop as a search -/

theorem climb_eq_search (steps : ℕ) (pid : Pid) :
    climb enginePid children parentOf steps pid =
      (search (settlesAt enginePid children parentOf) parentOf steps pid).getD .foreign := by
  induction steps generalizing pid with
  | zero => rfl
  | succ steps ih =>
    simp only [climb, search, settlesAt]
    cases children.lookup pid with
    | some name => rfl
    | none =>
      by_cases hengine : pid = enginePid
      · simp only [if_pos hengine, Option.getD_some]
      · by_cases hlow : pid ≤ 1
        · simp only [if_neg hengine, if_pos hlow, Option.getD_some]
        · cases hparent : parentOf pid with
          | none => simp [hengine, hlow]
          | some parent => simp [hengine, hlow, ih]

theorem walksTo_settles {k : ℕ} {r : Resolution} :
    (∃ pid, WalksTo enginePid children parentOf peerPid k pid ∧
        settlesAt enginePid children parentOf pid = some r) ↔
      k < maxAncestryDepth ∧
        FirstAnswer (settlesAt enginePid children parentOf) parentOf peerPid k r := by
  constructor
  · intro ⟨pid, ⟨hk, hpid, hbefore⟩, hr⟩
    refine ⟨hk, ⟨pid, hpid, hr⟩, ?_⟩
    intro j hj q hq
    exact settlesAt_eq_none.mpr (hbefore j hj q hq)
  · intro ⟨hk, ⟨pid, hpid, hr⟩, hbefore⟩
    refine ⟨pid, ⟨hk, hpid, ?_⟩, hr⟩
    intro j hj q hq
    exact settlesAt_eq_none.mp (hbefore j hj q hq)

/-- An answer other than `foreign` is what the first stopping ancestor settles. -/
theorem resolveAncestry_eq {r : Resolution} (hr : r ≠ .foreign) :
    resolveAncestry peerPid enginePid children parentOf = r ↔
      ∃ k pid, WalksTo enginePid children parentOf peerPid k pid ∧
        settlesAt enginePid children parentOf pid = some r := by
  have hsettled : (∃ k pid, WalksTo enginePid children parentOf peerPid k pid ∧
        settlesAt enginePid children parentOf pid = some r) ↔
      ∃ k < maxAncestryDepth,
        FirstAnswer (settlesAt enginePid children parentOf) parentOf peerPid k r :=
    exists_congr fun k => walksTo_settles
  rw [hsettled]
  cases peerPid with
  | none =>
    constructor
    · intro h
      exact absurd h.symm hr
    · intro ⟨k, _, hk⟩
      exact absurd hk not_firstAnswer_none
  | some pid =>
    rw [resolveAncestry, climb_eq_search, ← search_eq_some]
    cases hs : search (settlesAt enginePid children parentOf) parentOf maxAncestryDepth pid with
    | none =>
      constructor
      · intro h
        exact absurd h.symm hr
      · intro h
        cases h
    | some found =>
      rw [Option.getD_some, Option.some.injEq]

theorem resolveAncestry_primitive_iff {name : String} :
    resolveAncestry peerPid enginePid children parentOf = .primitive name ↔
      ∃ k pid, WalksTo enginePid children parentOf peerPid k pid ∧
        children.lookup pid = some name := by
  have hr : Resolution.primitive name ≠ .foreign := by
    intro h
    cases h
  rw [resolveAncestry_eq hr]
  simp only [settlesAt_eq_primitive]

theorem resolveAncestry_unrecorded_iff :
    resolveAncestry peerPid enginePid children parentOf = .unrecordedChild ↔
      ∃ k, WalksTo enginePid children parentOf peerPid k enginePid ∧
        children.lookup enginePid = none := by
  have hr : Resolution.unrecordedChild ≠ .foreign := by
    intro h
    cases h
  rw [resolveAncestry_eq hr]
  simp only [settlesAt_eq_unrecorded]
  constructor
  · intro ⟨k, pid, hwalks, hnone, hengine⟩
    rw [hengine] at hwalks hnone
    exact ⟨k, hwalks, hnone⟩
  · intro ⟨k, hwalks, hnone⟩
    exact ⟨k, enginePid, hwalks, hnone, rfl⟩

/-- Only the entries of the pids the walk can meet matter. -/
theorem resolveAncestry_congr
    (h : ∀ k < maxAncestryDepth, ∀ pid, ancestor parentOf peerPid k = some pid →
      children.lookup pid = children'.lookup pid) :
    resolveAncestry peerPid enginePid children parentOf =
      resolveAncestry peerPid enginePid children' parentOf := by
  cases peerPid with
  | none => rfl
  | some pid =>
    simp only [resolveAncestry, climb_eq_search]
    congr 1
    apply search_congr
    intro k hk c hc
    simp only [settlesAt, h k hk c hc]

/-- `resolve_ancestry` finds the nearest recorded ancestor, so a primitive's name
goes to its children and their descendants only, and table entries off the
peer's path do not matter. -/
theorem resolveAncestry_nearest (peerPid : Option Pid) (enginePid : Pid)
    (children : List (Pid × String)) (parentOf : Pid → Option Pid) :
    (∀ name, resolveAncestry peerPid enginePid children parentOf = .primitive name ↔
      ∃ k pid, WalksTo enginePid children parentOf peerPid k pid ∧
        children.lookup pid = some name) ∧
    (resolveAncestry peerPid enginePid children parentOf = .unrecordedChild ↔
      ∃ k, WalksTo enginePid children parentOf peerPid k enginePid ∧
        children.lookup enginePid = none) ∧
    (resolveAncestry peerPid enginePid children parentOf = .foreign ↔
      ¬ (∃ name k pid, WalksTo enginePid children parentOf peerPid k pid ∧
          children.lookup pid = some name) ∧
      ¬ (∃ k, WalksTo enginePid children parentOf peerPid k enginePid ∧
          children.lookup enginePid = none)) ∧
    (∀ name, resolveAncestry peerPid enginePid children parentOf = .primitive name →
      ∃ k pid, ancestor parentOf peerPid k = some pid ∧ children.lookup pid = some name) ∧
    (∀ children' : List (Pid × String),
      (∀ k < maxAncestryDepth, ∀ pid, ancestor parentOf peerPid k = some pid →
        children.lookup pid = children'.lookup pid) →
      resolveAncestry peerPid enginePid children parentOf =
        resolveAncestry peerPid enginePid children' parentOf) := by
  refine ⟨fun name => resolveAncestry_primitive_iff, resolveAncestry_unrecorded_iff, ?_, ?_, ?_⟩
  · rw [← resolveAncestry_unrecorded_iff]
    simp only [← resolveAncestry_primitive_iff]
    cases resolveAncestry peerPid enginePid children parentOf <;> simp
  · intro name h
    obtain ⟨k, pid, hwalks, hname⟩ := resolveAncestry_primitive_iff.mp h
    exact ⟨k, pid, hwalks.2.1, hname⟩
  · intro children' h
    exact resolveAncestry_congr h

/-! ### The resolver -/

/-- What `walk` reads at one attempt: the child table and `/proc`. -/
structure Look where
  children : List (Pid × String)
  parentOf : Pid → Option Pid

def Look.resolution (enginePid : Pid) (peerPid : Option Pid) (look : Look) : Resolution :=
  resolveAncestry peerPid enginePid look.children look.parentOf

/-- `AncestryResolver::walk`, given what each of its attempts reads. -/
def walk (enginePid : Pid) (peerPid : Option Pid) : List Look → Resolution
  | [] => .foreign
  | look :: later =>
    if look.resolution enginePid peerPid ≠ .unrecordedChild ∨ later.isEmpty then
      look.resolution enginePid peerPid
    else walk enginePid peerPid later

structure PeerCredentials where
  pid : Option Pid
  uid : ℕ

/-- `AncestryResolver::resolve`. -/
def resolveIdentity (mode : AuthenticationMode) (enginePid engineUid : ℕ)
    (peer : Option PeerCredentials) (looks : List Look) : Except String ConnectionIdentity :=
  let peerPid := peer.bind PeerCredentials.pid
  let peerUid := peer.map PeerCredentials.uid
  let identity := match walk enginePid peerPid looks with
    | .primitive name => ConnectionIdentity.primitive name
    | .unrecordedChild | .foreign => .unmanaged peerPid (peerUid.getD 0)
  match admissionFor mode identity peerUid engineUid with
  | .admitted => .ok identity
  | .admitUnmanaged => .ok identity
  | .deny reason => .error reason

theorem walk_primitive {name : String} {looks : List Look}
    (h : walk enginePid peerPid looks = .primitive name) :
    ∃ look ∈ looks, look.resolution enginePid peerPid = .primitive name := by
  induction looks with
  | nil => cases h
  | cons look later ih =>
    unfold walk at h
    split at h
    · exact ⟨look, List.mem_cons_self, h⟩
    · obtain ⟨found, hmem, hfound⟩ := ih h
      exact ⟨found, List.mem_cons_of_mem look hmem, hfound⟩

/-- The resolver names a primitive only for a process that one of its looks found
to be a recorded child of it or a descendant of one. -/
theorem resolveIdentity_primitive {mode : AuthenticationMode} {engineUid : ℕ}
    {peer : Option PeerCredentials} {looks : List Look} {name : String}
    (h : resolveIdentity mode enginePid engineUid peer looks = .ok (.primitive name)) :
    ∃ look ∈ looks, ∃ k pid,
      ancestor look.parentOf (peer.bind PeerCredentials.pid) k = some pid ∧
        look.children.lookup pid = some name := by
  have hwalk : walk enginePid (peer.bind PeerCredentials.pid) looks = .primitive name := by
    unfold resolveIdentity at h
    cases hw : walk enginePid (peer.bind PeerCredentials.pid) looks with
    | primitive found =>
      simp only [hw] at h
      split at h
      · cases h
        rfl
      · cases h
        rfl
      · cases h
    | unrecordedChild =>
      simp only [hw] at h
      split at h <;> cases h
    | foreign =>
      simp only [hw] at h
      split at h <;> cases h
  obtain ⟨look, hlook, hres⟩ := walk_primitive hwalk
  obtain ⟨k, pid, hwalks, hname⟩ := resolveAncestry_primitive_iff.mp hres
  exact ⟨look, hlook, k, pid, hwalks.2.1, hname⟩

end Emergent.Engine

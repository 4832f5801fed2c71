import Mathlib.Tactic

/-!
# Who a connection is (`emergent-engine/src/ipc_identity.rs`)

The identity admission binds to a connection, the walk up a peer's process
ancestry that finds it, and the registry of the connections each primitive
holds. The parent lookup and the child table are arguments of the walk, as in
the source.
-/

namespace Emergent.Engine

abbrev Pid := ℕ
abbrev ConnectionId := ℕ

inductive ConnectionIdentity where
  | primitive (name : String)
  | unmanaged (pid : Option Pid) (uid : ℕ)
  deriving Repr, DecidableEq

namespace ConnectionIdentity

def primitiveName : ConnectionIdentity → Option String
  | .primitive name => some name
  | .unmanaged _ _ => none

def isManaged : ConnectionIdentity → Bool
  | .primitive _ => true
  | .unmanaged _ _ => false

def display : ConnectionIdentity → String
  | .primitive name => name
  | .unmanaged (some pid) _ => s!"<unmanaged pid {pid}>"
  | .unmanaged none _ => "<unmanaged>"

end ConnectionIdentity

/-! ### Admission -/

inductive AuthenticationMode where
  | off
  | warn
  | strict
  deriving Repr, DecidableEq

inductive AdmissionDecision where
  | admitted
  | admitUnmanaged
  | deny (reason : String)
  deriving Repr, DecidableEq

def admissionFor (mode : AuthenticationMode) (identity : ConnectionIdentity)
    (peerUid : Option ℕ) (engineUid : ℕ) : AdmissionDecision :=
  if identity.isManaged then .admitted
  else match mode with
    | .off => .admitted
    | .warn => .admitUnmanaged
    | .strict =>
      match peerUid with
      | some uid =>
        if uid = engineUid then .admitUnmanaged
        else .deny
          s!"connections are restricted to uid {engineUid} and this peer is uid {uid}"
      | none => .deny ("connections are restricted by user id and this platform reported " ++
          "no peer credentials")

/-! ### The ancestry walk -/

def maxAncestryDepth : ℕ := 16

inductive Resolution where
  | primitive (name : String)
  | unrecordedChild
  | foreign
  deriving Repr, DecidableEq

/-- The loop of `resolve_ancestry`, with the steps it has left. -/
def climb (enginePid : Pid) (children : List (Pid × String)) (parentOf : Pid → Option Pid) :
    ℕ → Pid → Resolution
  | 0, _ => .foreign
  | steps + 1, pid =>
    match children.lookup pid with
    | some name => .primitive name
    | none =>
      if pid = enginePid then .unrecordedChild
      else if pid ≤ 1 then .foreign
      else match parentOf pid with
        | some parent => climb enginePid children parentOf steps parent
        | none => .foreign

def resolveAncestry (peerPid : Option Pid) (enginePid : Pid) (children : List (Pid × String))
    (parentOf : Pid → Option Pid) : Resolution :=
  match peerPid with
  | none => .foreign
  | some pid => climb enginePid children parentOf maxAncestryDepth pid

theorem resolveAncestry_primitive {peerPid : Option Pid} {enginePid : Pid}
    {children : List (Pid × String)} {parentOf : Pid → Option Pid} {name : String}
    (h : resolveAncestry peerPid enginePid children parentOf = .primitive name) :
    ∃ pid, (pid, name) ∈ children := by
  have key : ∀ steps pid, climb enginePid children parentOf steps pid = .primitive name →
      ∃ pid, (pid, name) ∈ children := by
    intro steps
    induction steps with
    | zero =>
      intro pid hc
      cases hc
    | succ steps ih =>
      intro pid hc
      simp only [climb] at hc
      cases hl : children.lookup pid with
      | some found =>
        simp only [hl, Resolution.primitive.injEq] at hc
        obtain ⟨l₁, l₂, hlist, _⟩ := List.lookup_eq_some_iff.mp hl
        exact ⟨pid, by rw [hlist, hc]; simp⟩
      | none =>
        simp only [hl] at hc
        split_ifs at hc
        cases hp : parentOf pid with
        | none => simp [hp] at hc
        | some parent =>
          simp only [hp] at hc
          exact ih parent hc
  cases peerPid with
  | none => cases h
  | some pid => exact key maxAncestryDepth pid h

/-! ### Held connections -/

def maxConnectionsPerPrimitive : ℕ := 64

/-- `remember`: the ids held afterwards and the one evicted to stay under `cap`. -/
def remember (ids : List ConnectionId) (connectionId : ConnectionId) (cap : ℕ) :
    List ConnectionId × Option ConnectionId :=
  if ids.contains connectionId then (ids, none)
  else if 0 < cap ∧ cap ≤ ids.length then (ids.tail ++ [connectionId], ids.head?)
  else (ids ++ [connectionId], none)

theorem remember_of_room {ids : List ConnectionId} {connectionId : ConnectionId} {cap : ℕ}
    (hroom : ids.length < cap) (hnew : connectionId ∉ ids) :
    remember ids connectionId cap = (ids ++ [connectionId], none) := by
  have hfull : ¬ (0 < cap ∧ cap ≤ ids.length) := by omega
  have hmem : ids.contains connectionId = false := by simpa using hnew
  simp only [remember, hmem, Bool.false_eq_true, if_false, if_neg hfull]

end Emergent.Engine

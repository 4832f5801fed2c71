import Emergent.Engine.Identity
import Emergent.Kit.Runs
import Mathlib.Data.List.DropRight

/-!
# The connections the registry remembers (`emergent-engine/src/ipc_identity.rs`)

The registry keeps at most 64 ids under a name and drops the oldest to take
another; it is not told when a connection closes. Here one primitive opens and
closes connections until its child exits, and the ids the registry still holds
are compared with the connections still open.
-/

namespace Emergent.Engine
open Kit

/-- `revoker` says whether the listener has been installed. -/
structure ConnectionRegistry where
  connections : String → List ConnectionId
  revoker : Bool

namespace ConnectionRegistry

def new : ConnectionRegistry := ⟨fun _ => [], false⟩

def installRevoker (r : ConnectionRegistry) : ConnectionRegistry := { r with revoker := true }

def record (r : ConnectionRegistry) (identity : ConnectionIdentity) (connectionId : ConnectionId) :
    ConnectionRegistry :=
  match identity.primitiveName with
  | none => r
  | some name =>
    let ids := (remember (r.connections name) connectionId maxConnectionsPerPrimitive).1
    { r with connections := Function.update r.connections name ids }

/-- The registry without the name, and the ids it asks the listener to revoke. -/
def revokeAll (r : ConnectionRegistry) (name : String) : ConnectionRegistry × List ConnectionId :=
  ({ r with connections := Function.update r.connections name [] },
    if r.revoker then r.connections name else [])

def onChildExit (r : ConnectionRegistry) (name : String) (_pid : Pid) :
    ConnectionRegistry × List ConnectionId :=
  r.revokeAll name

end ConnectionRegistry

/-! ### One primitive opening and closing connections -/

structure Holdings where
  registry : ConnectionRegistry
  admitted : List ConnectionId
  stillOpen : List ConnectionId

inductive HoldingsAction where
  | admission (connectionId : ConnectionId)
  | close (connectionId : ConnectionId)
  deriving Repr, DecidableEq

namespace Holdings

def start : Holdings := ⟨.installRevoker .new, [], []⟩

-- acton hands out a fresh id for each connection
def step (name : String) (s : Holdings) : HoldingsAction → Option Holdings
  | .admission id =>
    if id ∈ s.admitted then none
    else some
      { registry := s.registry.record (.primitive name) id
        admitted := s.admitted ++ [id]
        stillOpen := s.stillOpen ++ [id] }
  | .close id => some { s with stillOpen := s.stillOpen.filter (· ≠ id) }

/-- At most 64 connections are open at any one moment. -/
def Bounded (s : Holdings) : HoldingsAction → Prop
  | .admission _ => s.stillOpen.length < maxConnectionsPerPrimitive
  | .close _ => True

instance (s : Holdings) (a : HoldingsAction) : Decidable (s.Bounded a) :=
  match a with
  | .admission _ => inferInstanceAs (Decidable (_ < _))
  | .close _ => isTrue trivial

variable {name : String} {s t : Holdings}

theorem tail_rtake_succ {α : Type} {l : List α} {n : ℕ} (h : n < l.length) :
    (l.rtake (n + 1)).tail = l.rtake n := by
  have hdrop : l.length - (n + 1) + 1 = l.length - n := by omega
  simp only [List.rtake, List.tail_drop, hdrop]

theorem rtake_of_length_le {α : Type} {l : List α} {n : ℕ} (h : l.length ≤ n) :
    l.rtake n = l := by
  have hzero : l.length - n = 0 := by omega
  simp only [List.rtake, hzero, List.drop_zero]

/-- Remembering a new id drops exactly the one that is now too old. -/
theorem remember_rtake {ids : List ConnectionId} {id : ConnectionId} {n : ℕ} (hnew : id ∉ ids) :
    (remember (ids.rtake (n + 1)) id (n + 1)).1 = (ids ++ [id]).rtake (n + 1) := by
  have hheld : id ∉ ids.rtake (n + 1) := fun h => hnew (List.mem_of_mem_drop h)
  have hlen : (ids.rtake (n + 1)).length = min (n + 1) ids.length := by
    simp only [List.rtake, List.length_drop]
    omega
  rw [List.rtake_concat_succ]
  rcases Nat.lt_or_ge n ids.length with hfull | hroom
  · have htail := tail_rtake_succ hfull
    have hcap : 0 < n + 1 ∧ n + 1 ≤ (ids.rtake (n + 1)).length := by omega
    simp only [remember, List.contains_eq_mem, hheld, decide_false, Bool.false_eq_true, if_false,
      if_pos hcap, htail]
  · have hroom' : (ids.rtake (n + 1)).length < n + 1 := by omega
    rw [remember_of_room hroom' hheld, rtake_of_length_le hroom,
      rtake_of_length_le (Nat.le_succ_of_le hroom)]

/-- The registry holds the last 64 ids admitted. -/
structure Recent (name : String) (s : Holdings) : Prop where
  held : s.registry.connections name = s.admitted.rtake maxConnectionsPerPrimitive
  installed : s.registry.revoker = true

theorem recent_start : start.Recent name := ⟨rfl, rfl⟩

theorem Recent.step (hs : s.Recent name) {a : HoldingsAction} (h : s.step name a = some t) :
    t.Recent name := by
  cases a with
  | admission id =>
    simp only [Holdings.step] at h
    split_ifs at h with hnew
    obtain rfl := Option.some.inj h
    refine ⟨?_, hs.installed⟩
    have hstep : (remember (s.admitted.rtake maxConnectionsPerPrimitive) id
        maxConnectionsPerPrimitive).1 = (s.admitted ++ [id]).rtake maxConnectionsPerPrimitive :=
      remember_rtake hnew
    simpa only [ConnectionRegistry.record, ConnectionIdentity.primitiveName, Function.update_self,
      hs.held] using hstep
  | close id =>
    obtain rfl := Option.some.inj h
    exact ⟨hs.held, hs.installed⟩

/-- However connections came and went, the exit of the child asks to revoke every
one that is open exactly when each of them is among the last 64 admitted. -/
theorem onChildExit_reaches_open_iff {as : List HoldingsAction} {pid : Pid}
    (hrun : run (step name) start as = some s) :
    (∀ id ∈ s.stillOpen, id ∈ (s.registry.onChildExit name pid).2) ↔
      ∀ id ∈ s.stillOpen, id ∈ s.admitted.rtake maxConnectionsPerPrimitive := by
  have hrecent : s.Recent name := run_invariant (fun _ _ _ hs h => hs.step h) recent_start hrun
  have hasked : (s.registry.onChildExit name pid).2 =
      s.admitted.rtake maxConnectionsPerPrimitive := by
    simp only [ConnectionRegistry.onChildExit, ConnectionRegistry.revokeAll, hrecent.installed,
      if_true, hrecent.held]
  rw [hasked]

def twoConnections : List HoldingsAction := [.admission 0, .admission 1, .close 0]

theorem onChildExit_reaches_open_two :
    ∃ s, run (step "timer") start twoConnections = some s ∧
      ((∀ id ∈ s.stillOpen, id ∈ (s.registry.onChildExit "timer" 100).2) ↔
        ∀ id ∈ s.stillOpen, id ∈ s.admitted.rtake maxConnectionsPerPrimitive) ∧
      s.stillOpen = [1] ∧ (s.registry.onChildExit "timer" 100).2 = [0, 1] :=
  ⟨_, rfl, @onChildExit_reaches_open_iff "timer" _ twoConnections 100 rfl, by decide, by decide⟩

/-- One connection that stays, and sixty-four that are opened and closed again. -/
def longLived : List HoldingsAction :=
  .admission 0 :: (List.range 64).flatMap fun i => [.admission (i + 1), .close (i + 1)]

/-- No more than two connections are ever open, and the one that is left is not
revoked. -/
theorem longLived_forgotten :
    Obeys (step "timer") Bounded start longLived ∧
      ∃ s, run (step "timer") start longLived = some s ∧ s.stillOpen = [0] ∧
        0 ∉ (s.registry.onChildExit "timer" 100).2 := by
  have hend : (run (step "timer") start longLived).map
      (fun s => (s.stillOpen, (s.registry.onChildExit "timer" 100).2.contains 0)) =
        some ([0], false) := by decide +kernel
  obtain ⟨s, hs, heq⟩ := Option.map_eq_some_iff.mp hend
  obtain ⟨hopen, hasked⟩ := Prod.mk.injEq .. ▸ heq
  exact ⟨by decide +kernel, s, hs, hopen, by simpa using hasked⟩

end Holdings

end Emergent.Engine

import Emergent.Engine.Identity

/-!
# The lifecycle of a child (`lifecycle.rs`, `primitive_actor.rs`)

`nextStatus` is the pure state machine of a primitive's status. The exit of a
child is classified three times, from the raw `ExitStatus` for the broadcast
event and from the integer code for the status and for the restart decision;
the last section shows the three agree.
-/

namespace Emergent.Engine

inductive PrimitiveState where
  | configured
  | starting
  | running
  | stopping
  | stopped
  | failed
  deriving Repr, DecidableEq

structure PrimitiveStatus where
  state : PrimitiveState
  pid : Option Pid
  error : Option String
  deriving Repr, DecidableEq

def PrimitiveStatus.configured : PrimitiveStatus := ⟨.configured, none, none⟩

def PrimitiveStatus.running (pid : Pid) : PrimitiveStatus := ⟨.running, some pid, none⟩

inductive LifecycleEvent where
  | spawnRequested
  | spawned (pid : Pid)
  | spawnFailed (error : String)
  | restartsExhausted (reason : String)
  | stopRequested
  | exited (pid : Pid) (code : ℤ)
  deriving Repr, DecidableEq

def isCleanExitCode (code : ℤ) : Bool := code == 0 || code == 143

def exitErrorMessage (code : ℤ) : String := s!"Exited with status: {code}"

def nextStatus (current : PrimitiveStatus) : LifecycleEvent → PrimitiveStatus
  | .spawnRequested => ⟨.starting, none, none⟩
  | .spawned pid => .running pid
  | .spawnFailed error => ⟨.failed, none, some error⟩
  | .restartsExhausted reason => ⟨.failed, none, some reason⟩
  | .stopRequested =>
    if current.pid.isNone then current else ⟨.stopping, current.pid, current.error⟩
  | .exited pid code =>
    if current.pid ≠ some pid then current
    else if isCleanExitCode code then ⟨.stopped, none, none⟩
    else ⟨.failed, none, some (exitErrorMessage code)⟩

theorem nextStatus_stopRequested_pid (current : PrimitiveStatus) :
    (nextStatus current .stopRequested).pid = current.pid := by
  simp only [nextStatus]
  split <;> rfl

theorem nextStatus_exited {current : PrimitiveStatus} {pid : Pid} (h : current.pid = some pid)
    (code : ℤ) :
    (nextStatus current (.exited pid code)).pid = none ∧
      ((nextStatus current (.exited pid code)).state = .stopped ↔
        isCleanExitCode code = true) := by
  simp only [nextStatus, h, ne_eq, not_true_eq_false, if_false]
  cases hc : isCleanExitCode code <;> simp

/-! ### Exit statuses -/

/-- `std::process::ExitStatus` on Unix: a code, a signal, or neither. -/
inductive ExitStatus where
  | code (code : ℤ)
  | signal (signal : ℕ)
  | other
  deriving Repr, DecidableEq

def isCleanExit : ExitStatus → Bool
  | .code code => code == 0 || code == 143
  | .signal signal => signal == 15
  | .other => false

def exitCodeFromStatus : ExitStatus → ℤ
  | .code code => code
  | .signal signal => 128 + signal
  | .other => -1

inductive ExitOutcome where
  | clean
  | failure
  deriving Repr, DecidableEq

def outcomeFromExitCode (code : ℤ) : ExitOutcome :=
  if code = 0 ∨ code = 143 then .clean else .failure

theorem isCleanExitCode_exitCodeFromStatus (status : ExitStatus) :
    isCleanExitCode (exitCodeFromStatus status) = isCleanExit status := by
  cases status with
  | code code => rfl
  | other => rfl
  | signal signal =>
    have hzero : ((128 + (signal : ℤ)) == 0) = false := by
      rw [beq_eq_false_iff_ne]
      omega
    have hterm : ((128 + (signal : ℤ)) == 143) = (signal == 15) := by
      rw [Bool.eq_iff_iff, beq_iff_eq, beq_iff_eq]
      omega
    simp only [isCleanExitCode, exitCodeFromStatus, isCleanExit, hzero, hterm, Bool.false_or]

theorem outcomeFromExitCode_eq_clean {code : ℤ} :
    outcomeFromExitCode code = .clean ↔ isCleanExitCode code = true := by
  unfold outcomeFromExitCode isCleanExitCode
  split <;> simp_all

end Emergent.Engine

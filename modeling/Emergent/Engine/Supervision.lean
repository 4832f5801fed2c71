import Emergent.Engine.Lifecycle

/-!
# Restart decisions (`supervision.rs`)

Pure functions of the policy, the exit, the restarts made inside the window
and the clock. Times are `u64` milliseconds and counters `u32`, with the
saturating operations of the source.
-/

namespace Emergent.Engine

inductive RestartPolicy where
  | never
  | onFailure
  | always
  deriving Repr, DecidableEq

structure RestartLimits where
  backoffMs : UInt64
  maxBackoffMs : UInt64
  maxRetries : UInt32
  windowMs : UInt64
  deriving Repr, DecidableEq

def RestartLimits.default : RestartLimits := ⟨500, 30000, 5, 60000⟩

inductive RestartDecision where
  | noRestart
  | suppressedByShutdown
  | restart (delayMs : UInt64) (attempt : UInt32)
  | exhausted (attempts : UInt32) (windowMs : UInt64)
  deriving Repr, DecidableEq

def saturatingMul (a b : UInt64) : UInt64 :=
  UInt64.ofNat (min (a.toNat * b.toNat) (2 ^ 64 - 1))

def saturatingSub (a b : UInt64) : UInt64 := if b ≤ a then a - b else 0

/-- `1_u64.checked_shl`, of a shift below 64. -/
def shiftedOne (step : ℕ) : UInt64 := UInt64.ofNat (2 ^ step)

def backoffDelay (attempt : UInt32) (limits : RestartLimits) : UInt64 :=
  let step := max attempt 1 - 1
  let factor := shiftedOne (min step.toNat 62)
  min (saturatingMul limits.backoffMs factor) limits.maxBackoffMs

def pruneAttempts (attempts : List UInt64) (nowMs windowMs : UInt64) : List UInt64 :=
  attempts.filter (fun ts => saturatingSub nowMs windowMs < ts)

def RestartPolicy.wants : RestartPolicy → ExitOutcome → Bool
  | .never, _ => false
  | .onFailure, .clean => false
  | .onFailure, .failure => true
  | .always, _ => true

def lengthU32 (n : ℕ) : UInt32 := UInt32.ofNat (min n (2 ^ 32 - 1))

def decideRestart (policy : RestartPolicy) (outcome : ExitOutcome) (attempts : List UInt64)
    (limits : RestartLimits) (nowMs : UInt64) (shuttingDown : Bool) : RestartDecision :=
  if shuttingDown then .suppressedByShutdown
  else if !policy.wants outcome then .noRestart
  else
    let used := lengthU32 (pruneAttempts attempts nowMs limits.windowMs).length
    if limits.maxRetries ≤ used then .exhausted used limits.windowMs
    else .restart (backoffDelay (used + 1) limits) (used + 1)

theorem decideRestart_shuttingDown {policy : RestartPolicy} {outcome : ExitOutcome}
    {attempts : List UInt64} {limits : RestartLimits} {nowMs : UInt64} :
    decideRestart policy outcome attempts limits nowMs true = .suppressedByShutdown := rfl

/-! ### The delays against the exponential -/

/-- The doubling of `backoffMs` up to `maxBackoffMs`, in unbounded arithmetic. -/
def RestartLimits.doubled (limits : RestartLimits) (attempt : ℕ) : ℕ :=
  min (limits.backoffMs.toNat * 2 ^ (max attempt 1 - 1)) limits.maxBackoffMs.toNat

theorem toNat_backoffStep (attempt : UInt32) :
    (max attempt 1 - 1).toNat = max attempt.toNat 1 - 1 := by
  have hmax : (max attempt 1).toNat = max attempt.toNat 1 := by
    show (if attempt ≤ 1 then 1 else attempt : UInt32).toNat = max attempt.toNat 1
    have hiff : attempt ≤ 1 ↔ attempt.toNat ≤ 1 := UInt32.le_iff_toNat_le
    split_ifs with hle
    · exact (Nat.max_eq_right (hiff.mp hle)).symm
    · have hlt : 1 < attempt.toNat := Nat.lt_of_not_le (fun h => hle (hiff.mpr h))
      exact (Nat.max_eq_left hlt.le).symm
  have hone : (1 : UInt32) ≤ max attempt 1 := by
    rw [UInt32.le_iff_toNat_le, hmax]
    exact Nat.le_max_right _ _
  rw [UInt32.toNat_sub_of_le _ _ hone, hmax]
  rfl

theorem toNat_shiftedOne {step : ℕ} (h : step ≤ 62) : (shiftedOne step).toNat = 2 ^ step := by
  have hlt : 2 ^ step < 2 ^ 64 := Nat.pow_lt_pow_right (by omega) (by omega)
  unfold shiftedOne
  rw [UInt64.toNat_ofNat']
  exact Nat.mod_eq_of_lt hlt

theorem toNat_saturatingMul (a b : UInt64) :
    (saturatingMul a b).toNat = min (a.toNat * b.toNat) (2 ^ 64 - 1) := by
  unfold saturatingMul
  rw [UInt64.toNat_ofNat']
  exact Nat.mod_eq_of_lt (by omega)

theorem toNat_min (a b : UInt64) : (min a b).toNat = min a.toNat b.toNat := by
  show (if a ≤ b then a else b : UInt64).toNat = min a.toNat b.toNat
  have hiff : a ≤ b ↔ a.toNat ≤ b.toNat := UInt64.le_iff_toNat_le
  split_ifs with hle
  · exact (Nat.min_eq_left (hiff.mp hle)).symm
  · have hlt : b.toNat < a.toNat := Nat.lt_of_not_le (fun h => hle (hiff.mpr h))
    exact (Nat.min_eq_right hlt.le).symm

/-- The saturation is above every cap, so only the clamp of the exponent is left. -/
theorem toNat_backoffDelay (attempt : UInt32) (limits : RestartLimits) :
    (backoffDelay attempt limits).toNat =
      min (limits.backoffMs.toNat * 2 ^ min (max attempt.toNat 1 - 1) 62)
        limits.maxBackoffMs.toNat := by
  have hcap : limits.maxBackoffMs.toNat < 2 ^ 64 := limits.maxBackoffMs.toNat_lt
  simp only [backoffDelay, toNat_min, toNat_saturatingMul, toNat_backoffStep]
  rw [toNat_shiftedOne (Nat.min_le_right _ 62)]
  omega

theorem backoffDelay_le_max (attempt : UInt32) (limits : RestartLimits) :
    backoffDelay attempt limits ≤ limits.maxBackoffMs := by
  rw [UInt64.le_iff_toNat_le, toNat_backoffDelay]
  exact Nat.min_le_right _ _

theorem backoffDelay_mono {attempt later : UInt32} (limits : RestartLimits)
    (h : attempt ≤ later) : backoffDelay attempt limits ≤ backoffDelay later limits := by
  have hle : attempt.toNat ≤ later.toNat := UInt32.le_iff_toNat_le.mp h
  have hstep : min (max attempt.toNat 1 - 1) 62 ≤ min (max later.toNat 1 - 1) 62 := by omega
  have hpow : limits.backoffMs.toNat * 2 ^ min (max attempt.toNat 1 - 1) 62 ≤
      limits.backoffMs.toNat * 2 ^ min (max later.toNat 1 - 1) 62 :=
    Nat.mul_le_mul_left _ (Nat.pow_le_pow_right (by omega) hstep)
  rw [UInt64.le_iff_toNat_le, toNat_backoffDelay, toNat_backoffDelay]
  exact min_le_min_right _ hpow

/-- Up to the clamp nothing is lost; past it the delay stands still, and the doubling
is only right when the cap has stopped it before, or when there is nothing to double. -/
theorem backoffDelay_eq_doubled_iff (attempt : UInt32) (limits : RestartLimits) :
    (backoffDelay attempt limits).toNat = limits.doubled attempt.toNat ↔
      attempt.toNat ≤ 63 ∨ limits.backoffMs = 0 ∨
        limits.maxBackoffMs.toNat ≤ limits.backoffMs.toNat * 2 ^ 62 := by
  rw [toNat_backoffDelay, RestartLimits.doubled]
  by_cases hclamp : attempt.toNat ≤ 63
  · have hstep : min (max attempt.toNat 1 - 1) 62 = max attempt.toNat 1 - 1 := by omega
    rw [hstep]
    exact iff_of_true rfl (Or.inl hclamp)
  have hstep : min (max attempt.toNat 1 - 1) 62 = 62 := by omega
  have hpow : 2 ^ 63 ≤ 2 ^ (max attempt.toNat 1 - 1) :=
    Nat.pow_le_pow_right (by omega) (by omega)
  have hzero : limits.backoffMs = 0 ↔ limits.backoffMs.toNat = 0 := UInt64.toNat_inj.symm
  have hdouble : limits.backoffMs.toNat * 2 ^ 63 ≤
      limits.backoffMs.toNat * 2 ^ (max attempt.toNat 1 - 1) := Nat.mul_le_mul_left _ hpow
  rw [hstep, hzero]
  constructor
  · intro heq
    omega
  · rintro (hle | hnone | hcap)
    · exact absurd hle hclamp
    · simp [hnone]
    · omega

/-- The delay is the capped exponential, grows with the attempt and stays under the cap. -/
theorem backoffDelay_capped_iff (attempt : UInt32) (limits : RestartLimits) :
    ((backoffDelay attempt limits).toNat = limits.doubled attempt.toNat ∧
        (∀ later, attempt ≤ later → backoffDelay attempt limits ≤ backoffDelay later limits) ∧
        backoffDelay attempt limits ≤ limits.maxBackoffMs) ↔
      attempt.toNat ≤ 63 ∨ limits.backoffMs = 0 ∨
        limits.maxBackoffMs.toNat ≤ limits.backoffMs.toNat * 2 ^ 62 := by
  rw [← backoffDelay_eq_doubled_iff]
  constructor
  · intro h
    exact h.1
  · intro heq
    exact ⟨heq, fun _ hle => backoffDelay_mono limits hle, backoffDelay_le_max attempt limits⟩

/-- One millisecond doubled 63 times, under the largest cap a TOML file can set. -/
theorem backoffDelay_stands_still :
    let limits : RestartLimits := ⟨1, 9223372036854775807, 100, 60000⟩
    (backoffDelay 64 limits).toNat = 2 ^ 62 ∧ limits.doubled 64 = 2 ^ 63 - 1 ∧
      (backoffDelay 64 limits).toNat ≠ limits.doubled 64 := by
  decide

end Emergent.Engine

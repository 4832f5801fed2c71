import Emergent.Kit.Splits

/-!
# Limits over sliding windows

Events are admitted one by one, each only while fewer than `limit` of the
admitted ones are near it. Then no window holds more than `limit`, wherever it
lies: what a window holds is near the last event in it.
-/

namespace Kit.Window

variable {τ : Type*}

/-- Fewer than `limit` of the entries before each one are near it. -/
def Paced (near : τ → τ → Bool) (limit : ℕ) (log : List τ) : Prop :=
  EachAfter (fun before t => (before.filter (near t)).length < limit) log

variable {near : τ → τ → Bool} {limit : ℕ} {log : List τ}

theorem length_filter_mono {p q : τ → Bool} (xs : List τ) (h : ∀ x ∈ xs, p x = true → q x = true) :
    (xs.filter p).length ≤ (xs.filter q).length := by
  rw [← List.countP_eq_length_filter, ← List.countP_eq_length_filter]
  exact List.countP_mono_left h

theorem Paced.init {t : τ} (h : Paced near limit (log ++ [t])) : Paced near limit log := by
  intro before a after hsplit
  exact h before a (after ++ [t]) (by rw [hsplit, List.append_assoc, List.cons_append])

/-- A window any two of whose events are near each other holds at most `limit`. -/
theorem Paced.window (h : Paced near limit log) (inside : τ → Bool)
    (hnear : ∀ s t, inside s = true → inside t = true → near t s = true) :
    (log.filter inside).length ≤ limit := by
  induction log using List.reverseRecOn with
  | nil => exact Nat.zero_le _
  | append_singleton log t ih =>
    rw [List.filter_append, List.length_append]
    cases ht : inside t with
    | false =>
      have hrest := ih h.init
      rw [List.filter_singleton, ht]
      simpa using hrest
    | true =>
      have hlast : (log.filter (near t)).length < limit := h log t [] rfl
      have hmono := length_filter_mono (p := inside) (q := near t) log
        fun s _ hs => hnear s t hs ht
      rw [List.filter_singleton, ht]
      simp only [cond_true, List.length_singleton]
      omega

end Kit.Window

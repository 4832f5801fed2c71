import Mathlib.Tactic

/-!
# Bounded searches along a partial function

A search starts at a point, asks each point it meets for an answer and follows
`next` when there is none, for a bounded number of points. Its answer is the
first one along the chain, and it depends on nothing off the chain.
-/

namespace Kit.Climb

variable {α β : Type*}

/-- The `k`-th point after `start`, as long as `next` gives one. -/
def chain (next : α → Option α) (start : Option α) : ℕ → Option α
  | 0 => start
  | k + 1 => (chain next start k).bind next

def search (answer : α → Option β) (next : α → Option α) : ℕ → α → Option β
  | 0, _ => none
  | n + 1, a =>
    match answer a with
    | some b => some b
    | none =>
      match next a with
      | none => none
      | some a' => search answer next n a'

/-- `b` is the answer of the `k`-th point, and no point before it has one. -/
def FirstAnswer (answer : α → Option β) (next : α → Option α) (start : Option α) (k : ℕ)
    (b : β) : Prop :=
  (∃ c, chain next start k = some c ∧ answer c = some b) ∧
    ∀ j < k, ∀ d, chain next start j = some d → answer d = none

variable {answer answer' : α → Option β} {next : α → Option α}

theorem chain_none (k : ℕ) : chain next none k = none := by
  induction k with
  | zero => rfl
  | succ k ih => rw [chain, ih, Option.bind_none]

/-- The chain after its first point is the chain of the next one. -/
theorem chain_succ (start : Option α) (k : ℕ) :
    chain next start (k + 1) = chain next (start.bind next) k := by
  induction k with
  | zero => rfl
  | succ k ih => rw [chain, ih, chain]

theorem firstAnswer_zero {a : α} {b : β} :
    FirstAnswer answer next (some a) 0 b ↔ answer a = some b := by
  constructor
  · intro ⟨⟨c, hc, hb⟩, _⟩
    have hac : a = c := Option.some.inj hc
    rw [hac]
    exact hb
  · intro hb
    refine ⟨⟨a, rfl, hb⟩, ?_⟩
    intro j hj
    omega

theorem firstAnswer_succ {a : α} {b : β} {k : ℕ} :
    FirstAnswer answer next (some a) (k + 1) b ↔
      answer a = none ∧ FirstAnswer answer next (next a) k b := by
  constructor
  · intro ⟨⟨c, hc, hb⟩, hbefore⟩
    rw [chain_succ] at hc
    refine ⟨hbefore 0 (by omega) a rfl, ⟨c, hc, hb⟩, ?_⟩
    intro j hj d hd
    have hshift : chain next (some a) (j + 1) = some d := by rw [chain_succ]; exact hd
    exact hbefore (j + 1) (by omega) d hshift
  · intro ⟨ha, ⟨c, hc, hb⟩, hbefore⟩
    refine ⟨⟨c, by rw [chain_succ]; exact hc, hb⟩, ?_⟩
    intro j hj d hd
    cases j with
    | zero =>
      have had : a = d := Option.some.inj hd
      rw [← had]
      exact ha
    | succ j =>
      rw [chain_succ] at hd
      exact hbefore j (by omega) d hd

theorem not_firstAnswer_none {b : β} {k : ℕ} : ¬ FirstAnswer answer next none k b := by
  intro ⟨⟨c, hc, _⟩, _⟩
  rw [chain_none] at hc
  cases hc

/-- The search returns the first answer among its first `n` points. -/
theorem search_eq_some {b : β} (n : ℕ) (a : α) :
    search answer next n a = some b ↔ ∃ k < n, FirstAnswer answer next (some a) k b := by
  induction n generalizing a with
  | zero => simp [search]
  | succ n ih =>
    cases ha : answer a with
    | some b' =>
      have hval : search answer next (n + 1) a = some b' := by simp only [search, ha]
      rw [hval]
      constructor
      · intro hb
        exact ⟨0, by omega, firstAnswer_zero.mpr (ha.trans hb)⟩
      · intro ⟨k, _, hk⟩
        cases k with
        | zero => exact ha.symm.trans (firstAnswer_zero.mp hk)
        | succ k =>
          have hnone := (firstAnswer_succ.mp hk).1
          rw [ha] at hnone
          cases hnone
    | none =>
      have hstep : (∃ k < n + 1, FirstAnswer answer next (some a) k b) ↔
          ∃ k < n, FirstAnswer answer next (next a) k b := by
        constructor
        · intro ⟨k, hk, hfirst⟩
          cases k with
          | zero =>
            have hb := firstAnswer_zero.mp hfirst
            rw [ha] at hb
            cases hb
          | succ k => exact ⟨k, by omega, (firstAnswer_succ.mp hfirst).2⟩
        · intro ⟨k, hk, hfirst⟩
          exact ⟨k + 1, by omega, firstAnswer_succ.mpr ⟨ha, hfirst⟩⟩
      rw [hstep]
      cases hn : next a with
      | none =>
        have hval : search answer next (n + 1) a = none := by simp only [search, ha, hn]
        rw [hval]
        constructor
        · intro h
          cases h
        · intro ⟨k, _, hk⟩
          exact absurd hk not_firstAnswer_none
      | some a' =>
        have hval : search answer next (n + 1) a = search answer next n a' := by
          simp only [search, ha, hn]
        rw [hval]
        exact ih a'

/-- Answers off the chain do not matter. -/
theorem search_congr (n : ℕ) (a : α)
    (h : ∀ k < n, ∀ c, chain next (some a) k = some c → answer c = answer' c) :
    search answer next n a = search answer' next n a := by
  induction n generalizing a with
  | zero => rfl
  | succ n ih =>
    have ha : answer a = answer' a := h 0 (by omega) a rfl
    simp only [search, ha]
    cases answer' a with
    | some b => rfl
    | none =>
      cases hn : next a with
      | none => rfl
      | some a' =>
        apply ih
        intro k hk c hc
        have hshift : chain next (some a) (k + 1) = some c := by
          rw [chain_succ, Option.bind_some, hn]
          exact hc
        exact h (k + 1) (by omega) c hshift

end Kit.Climb

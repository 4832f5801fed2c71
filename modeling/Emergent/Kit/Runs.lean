import Mathlib.Tactic

/-!
# Runs of a guarded machine

A machine is a function `step : σ → α → Option σ`: an action carries every
choice its environment makes, and `none` says that the action is not enabled.
A run is a list of actions. The rules below lift facts about one step to whole
runs: an invariant, and an invariant under a guard that every step of the run
meets.
-/

namespace Kit

variable {σ α : Type*} (step : σ → α → Option σ)

/-- The state after a list of actions, `none` when one of them is not enabled. -/
def run : σ → List α → Option σ
  | s, [] => some s
  | s, a :: as => (step s a).bind (run · as)

/-- Every action of the run meets `guard` in the state it is taken from. -/
def Obeys (guard : σ → α → Prop) : σ → List α → Prop
  | _, [] => True
  | s, a :: as => guard s a ∧ ∀ t, step s a = some t → Obeys guard t as

/-- The property holds in every state the run passes through. -/
def Throughout (P : σ → Prop) : σ → List α → Prop
  | s, [] => P s
  | s, a :: as => P s ∧ ∀ t, step s a = some t → Throughout P t as

variable {step}

instance decidableObeys {guard : σ → α → Prop} [∀ s a, Decidable (guard s a)] :
    ∀ (s : σ) (as : List α), Decidable (Obeys step guard s as)
  | _, [] => isTrue trivial
  | s, a :: as =>
    letI : ∀ t, Decidable (Obeys step guard t as) := fun t => decidableObeys t as
    inferInstanceAs (Decidable (guard s a ∧ ∀ t ∈ step s a, Obeys step guard t as))

theorem run_cons {s u : σ} {a : α} {as : List α} :
    run step s (a :: as) = some u ↔ ∃ t, step s a = some t ∧ run step t as = some u := by
  simp only [run]
  exact Option.bind_eq_some_iff

theorem run_append {s u : σ} {as bs : List α} :
    run step s (as ++ bs) = some u ↔ ∃ t, run step s as = some t ∧ run step t bs = some u := by
  induction as generalizing s with
  | nil => simp [run]
  | cons a as ih =>
    simp only [List.cons_append, run_cons, ih]
    constructor
    · rintro ⟨r, hr, t, ht, hu⟩
      exact ⟨t, ⟨r, hr, ht⟩, hu⟩
    · rintro ⟨t, ⟨r, hr, ht⟩, hu⟩
      exact ⟨r, hr, t, ht, hu⟩

theorem run_snoc {s u : σ} {a : α} {as : List α} :
    run step s (as ++ [a]) = some u ↔ ∃ t, run step s as = some t ∧ step t a = some u := by
  rw [run_append]
  simp [run]

/-- An invariant that every guarded step keeps holds after every guarded run. -/
theorem run_invariant_of_obeys {guard : σ → α → Prop} {I : σ → Prop}
    (hstep : ∀ s a t, I s → guard s a → step s a = some t → I t)
    {s u : σ} {as : List α} (hs : I s) (hg : Obeys step guard s as)
    (hr : run step s as = some u) : I u := by
  induction as generalizing s with
  | nil =>
    have he : s = u := by simpa [run] using hr
    subst he
    exact hs
  | cons a as ih =>
    obtain ⟨t, ht, hu⟩ := run_cons.mp hr
    exact ih (hstep s a t hs hg.1 ht) (hg.2 t ht) hu

theorem obeys_trivial (s : σ) (as : List α) : Obeys step (fun _ _ => True) s as := by
  induction as generalizing s with
  | nil => trivial
  | cons a as ih => exact ⟨trivial, fun t _ => ih t⟩

/-- A guard on the actions alone. -/
theorem obeys_of_forall {guard : α → Prop} {as : List α} (h : ∀ a ∈ as, guard a) (s : σ) :
    Obeys step (fun _ => guard) s as := by
  induction as generalizing s with
  | nil => trivial
  | cons a as ih =>
    exact ⟨h a List.mem_cons_self, fun t _ => ih (fun b hb => h b (List.mem_cons_of_mem a hb)) t⟩

theorem run_invariant {I : σ → Prop} (hstep : ∀ s a t, I s → step s a = some t → I t)
    {s u : σ} {as : List α} (hs : I s) (hr : run step s as = some u) : I u :=
  run_invariant_of_obeys (fun s a t hi _ => hstep s a t hi) hs (obeys_trivial s as) hr

/-- An invariant of the state and of the actions that led to it. -/
theorem run_history {I : List α → σ → Prop} {s : σ} (hs : I [] s)
    (hstep : ∀ as t a u, I as t → step t a = some u → I (as ++ [a]) u) {as : List α} {u : σ}
    (hr : run step s as = some u) : I as u := by
  induction as using List.reverseRecOn generalizing u with
  | nil =>
    have he : s = u := by simpa [run] using hr
    rw [← he]
    exact hs
  | append_singleton as a ih =>
    obtain ⟨t, ht, hu⟩ := run_snoc.mp hr
    exact hstep as t a u (ih ht) hu

/-- Two machines that take the guarded steps alike have the same guarded runs. -/
theorem run_eq_of_obeys {step' : σ → α → Option σ} {guard : σ → α → Prop}
    (hstep : ∀ s a, guard s a → step' s a = step s a) {s : σ} {as : List α}
    (hg : Obeys step guard s as) : run step' s as = run step s as ∧ Obeys step' guard s as := by
  induction as generalizing s with
  | nil => exact ⟨rfl, trivial⟩
  | cons a as ih =>
    obtain ⟨hguard, hrest⟩ := hg
    have hsame := hstep s a hguard
    refine ⟨?_, hguard, fun t ht => (ih (hrest t (hsame ▸ ht))).2⟩
    rw [run, run, hsame]
    cases ht : step s a with
    | none => rfl
    | some t => exact (ih (hrest t ht)).1

theorem Obeys.imp {guard guard' : σ → α → Prop} (h : ∀ s a, guard s a → guard' s a) {s : σ}
    {as : List α} (hg : Obeys step guard s as) : Obeys step guard' s as := by
  induction as generalizing s with
  | nil => trivial
  | cons a as ih => exact ⟨h s a hg.1, fun t ht => ih (hg.2 t ht)⟩

theorem forall_step_iff {P : σ → Prop} {s t : σ} {a : α} (ht : step s a = some t) :
    (∀ r, step s a = some r → P r) ↔ P t := by
  constructor
  · intro h
    exact h t ht
  · intro h r hr
    rw [Option.some.inj (hr.symm.trans ht)]
    exact h

/-- Where steps within a bound keep a property exactly when they meet the guard, it
holds at the end of exactly the guarded ones among the runs within the bound. -/
theorem run_iff_obeys_within {within guard : σ → α → Prop} {I P : σ → Prop}
    (hinv : ∀ s a t, I s → within s a → step s a = some t → I t)
    (hstep : ∀ s a t, I s → within s a → step s a = some t → (P t ↔ P s ∧ guard s a))
    {s u : σ} {as : List α} (hs : I s) (hw : Obeys step within s as)
    (hr : run step s as = some u) : P u ↔ P s ∧ Obeys step guard s as := by
  induction as generalizing s with
  | nil =>
    have he : s = u := by simpa [run] using hr
    simp [he, Obeys]
  | cons a as ih =>
    obtain ⟨t, ht, hu⟩ := run_cons.mp hr
    have hrest : P u ↔ P t ∧ Obeys step guard t as :=
      ih (hinv s a t hs hw.1 ht) (hw.2 t ht) hu
    rw [hrest, hstep s a t hs hw.1 ht, Obeys, forall_step_iff ht, and_assoc]

/-- A property that a step keeps exactly when it meets the guard holds at the
end of exactly the guarded runs. -/
theorem run_iff_obeys {guard : σ → α → Prop} {I P : σ → Prop}
    (hinv : ∀ s a t, I s → step s a = some t → I t)
    (hstep : ∀ s a t, I s → step s a = some t → (P t ↔ P s ∧ guard s a))
    {s u : σ} {as : List α} (hs : I s) (hr : run step s as = some u) :
    P u ↔ P s ∧ Obeys step guard s as :=
  run_iff_obeys_within (fun s a t hi _ => hinv s a t hi) (fun s a t hi _ => hstep s a t hi) hs
    (obeys_trivial s as) hr

/-- An invariant that every guarded step keeps holds in every state of a guarded run. -/
theorem throughout_of_obeys {guard : σ → α → Prop} {P : σ → Prop}
    (hstep : ∀ s a t, P s → guard s a → step s a = some t → P t) {s : σ} {as : List α}
    (hs : P s) (hg : Obeys step guard s as) : Throughout step P s as := by
  induction as generalizing s with
  | nil => exact hs
  | cons a as ih => exact ⟨hs, fun t ht => ih (hstep s a t hs hg.1 ht) (hg.2 t ht)⟩

theorem Throughout.final {P : σ → Prop} {s u : σ} {as : List α} (h : Throughout step P s as)
    (hr : run step s as = some u) : P u := by
  induction as generalizing s with
  | nil =>
    have he : s = u := by simpa [run] using hr
    rw [← he]
    exact h
  | cons a as ih =>
    obtain ⟨t, ht, hu⟩ := run_cons.mp hr
    exact ih (h.2 t ht) hu

/-- A property that a step from it keeps exactly when the step meets the guard
holds in every state of exactly the guarded runs. -/
theorem throughout_iff_obeys {guard : σ → α → Prop} {I P : σ → Prop}
    (hinv : ∀ s a t, I s → step s a = some t → I t)
    (hstep : ∀ s a t, I s → P s → step s a = some t → (P t ↔ guard s a))
    {s u : σ} {as : List α} (hs : I s) (hp : P s) (hr : run step s as = some u) :
    Throughout step P s as ↔ Obeys step guard s as := by
  induction as generalizing s with
  | nil => simp [Throughout, Obeys, hp]
  | cons a as ih =>
    obtain ⟨t, ht, hu⟩ := run_cons.mp hr
    have hnext : P t ↔ guard s a := hstep s a t hs hp ht
    have hstart : Throughout step P t as → P t := by
      cases as with
      | nil => exact id
      | cons b as => exact And.left
    rw [Throughout, Obeys, forall_step_iff ht, forall_step_iff ht, ← hnext]
    constructor
    · intro h
      have hpt := hstart h.2
      exact ⟨hpt, (ih (hinv s a t hs ht) hpt hu).mp h.2⟩
    · intro h
      exact ⟨hp, (ih (hinv s a t hs ht) h.1 hu).mpr h.2⟩

end Kit

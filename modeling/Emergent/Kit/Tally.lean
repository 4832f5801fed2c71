import Mathlib.Tactic

/-!
# Weighted counts over a list

`tally weight l` adds up the weights of the members of `l`. A token argument
gives every place that can hold a token a weight and shows that no step raises
the total; the lemmas say what one edit of the list does to it.
-/

namespace Kit

variable {α : Type*}

def tally (weight : α → ℕ) (l : List α) : ℕ := (l.map weight).sum

variable {weight : α → ℕ}

@[simp]
theorem tally_nil : tally weight [] = 0 := rfl

@[simp]
theorem tally_cons (a : α) (l : List α) : tally weight (a :: l) = weight a + tally weight l := by
  simp [tally]

@[simp]
theorem tally_append (l₁ l₂ : List α) :
    tally weight (l₁ ++ l₂) = tally weight l₁ + tally weight l₂ := by
  simp [tally]

theorem tally_modify {l : List α} {i : ℕ} {a : α} (h : l[i]? = some a) (f : α → α) :
    tally weight (l.modify i f) + weight a = tally weight l + weight (f a) := by
  induction l generalizing i with
  | nil => simp at h
  | cons b l ih =>
    cases i with
    | zero =>
      have hb : b = a := by simpa using h
      subst hb
      simp only [List.modify_zero_cons, tally_cons]
      omega
    | succ i =>
      have hi : l[i]? = some a := by simpa using h
      have hrest := ih hi
      simp only [List.modify_succ_cons, tally_cons]
      omega

theorem tally_modify_le {l : List α} {i : ℕ} {f : α → α}
    (h : ∀ a, l[i]? = some a → weight (f a) ≤ weight a) :
    tally weight (l.modify i f) ≤ tally weight l := by
  cases hi : l[i]? with
  | none =>
    rw [List.modify_eq_self (List.getElem?_eq_none_iff.mp hi)]
  | some a =>
    have hedit : tally weight (l.modify i f) + weight a = tally weight l + weight (f a) :=
      tally_modify hi f
    have hle := h a hi
    omega

theorem countP_le_tally {p : α → Bool} (h : ∀ a, p a = true → 1 ≤ weight a) (l : List α) :
    l.countP p ≤ tally weight l := by
  induction l with
  | nil => exact le_rfl
  | cons a l ih =>
    rw [List.countP_cons, tally_cons]
    by_cases hp : p a = true
    · have ha := h a hp
      rw [if_pos hp]
      omega
    · rw [if_neg hp]
      omega

theorem countP_eq_tally (p : α → Bool) (l : List α) :
    l.countP p = tally (fun a => if p a then 1 else 0) l := by
  induction l with
  | nil => rfl
  | cons a l ih =>
    rw [List.countP_cons, tally_cons, ih]
    exact Nat.add_comm _ _

theorem countP_modify {p : α → Bool} {l : List α} {i : ℕ} {a : α} (h : l[i]? = some a)
    (f : α → α) :
    (l.modify i f).countP p + (if p a then 1 else 0) = l.countP p + if p (f a) then 1 else 0 := by
  rw [countP_eq_tally, countP_eq_tally]
  exact tally_modify h f

theorem weight_le_tally {a : α} {l : List α} (h : a ∈ l) : weight a ≤ tally weight l := by
  induction l with
  | nil => cases h
  | cons b l ih =>
    simp only [tally_cons]
    rcases List.mem_cons.mp h with rfl | h
    · omega
    · have := ih h
      omega

theorem two_le_tally {l : List α} {i j : ℕ} {a b : α} (hij : i ≠ j) (ha : l[i]? = some a)
    (hb : l[j]? = some b) (hwa : 1 ≤ weight a) (hwb : 1 ≤ weight b) : 2 ≤ tally weight l := by
  induction l generalizing i j with
  | nil => simp at ha
  | cons c l ih =>
    simp only [tally_cons]
    cases i with
    | zero =>
      have hca : c = a := by simpa using ha
      cases j with
      | zero => exact absurd rfl hij
      | succ j =>
        have hle : weight b ≤ tally weight l :=
          weight_le_tally (List.mem_of_getElem? (by simpa using hb))
        rw [hca]
        omega
    | succ i =>
      cases j with
      | zero =>
        have hcb : c = b := by simpa using hb
        have hle : weight a ≤ tally weight l :=
          weight_le_tally (List.mem_of_getElem? (by simpa using ha))
        rw [hcb]
        omega
      | succ j =>
        have hrest := ih (i := i) (j := j) (by omega) (by simpa using ha) (by simpa using hb)
        omega

end Kit

import Mathlib.Tactic

/-!
# What stands before the members of a list

A log is ordered when every entry has what it must follow somewhere before it.
An order of this kind grows with its log, one entry at a time.
-/

namespace Kit

variable {α : Type*}

theorem split_snoc {l before after : List α} {a b : α} (h : l ++ [b] = before ++ a :: after) :
    (before = l ∧ a = b) ∨ ∃ rest, l = before ++ a :: rest := by
  rcases List.eq_nil_or_concat after with hnil | ⟨rest, last, hlast⟩
  · rw [hnil] at h
    have hsplit := List.append_inj' h rfl
    exact Or.inl ⟨hsplit.1.symm, (List.singleton_inj.mp hsplit.2).symm⟩
  · rw [hlast, List.concat_eq_append] at h
    have hassoc : before ++ a :: (rest ++ [last]) = (before ++ a :: rest) ++ [last] := by
      rw [List.append_assoc, List.cons_append]
    have hsplit := List.append_inj' (h.trans hassoc) rfl
    exact Or.inr ⟨rest, hsplit.1⟩

/-- What stands before a member of the list meets `R` with it. -/
def EachAfter (R : List α → α → Prop) (l : List α) : Prop :=
  ∀ (before : List α) (a : α) (after : List α), l = before ++ a :: after → R before a

variable {R S : List α → α → Prop} {l : List α}

theorem eachAfter_nil : EachAfter R [] := by
  intro before a after h
  cases before <;> cases h

theorem EachAfter.snoc (h : EachAfter R l) {b : α} (hlast : R l b) : EachAfter R (l ++ [b]) := by
  intro before a after heq
  rcases split_snoc heq with ⟨rfl, rfl⟩ | ⟨rest, hrest⟩
  · exact hlast
  · exact h before a rest hrest

theorem EachAfter.mono (h : EachAfter R l) (hRS : ∀ before, ∀ a ∈ l, R before a → S before a) :
    EachAfter S l := by
  intro before a after heq
  have hmem : a ∈ l := by simp [heq]
  exact hRS before a hmem (h before a after heq)

end Kit

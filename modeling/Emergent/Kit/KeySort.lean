import Mathlib.Data.List.Sort

/-!
# Sorting by a key

A list sorted by a linearly ordered key. Where no two entries share a key, the
result does not depend on the order the list came in: it is the only strictly
ordered list of these entries.
-/

namespace Kit

variable {α κ : Type*} [LinearOrder κ]

/-- A stable sort. -/
def sortOn (key : α → κ) (xs : List α) : List α := xs.insertionSort fun a b => key a ≤ key b

variable {key : α → κ} {xs ys zs : List α}

theorem sortOn_perm (key : α → κ) (xs : List α) : (sortOn key xs).Perm xs :=
  List.perm_insertionSort _ xs

theorem sortOn_ordered (key : α → κ) (xs : List α) :
    (sortOn key xs).Pairwise fun a b => key a ≤ key b := by
  have htotal : Std.Total fun a b : α => key a ≤ key b := ⟨fun a b => le_total (key a) (key b)⟩
  have htrans : IsTrans α fun a b => key a ≤ key b := ⟨fun _ _ _ hab hbc => le_trans hab hbc⟩
  exact List.pairwise_insertionSort _ xs

theorem sortOn_strict (h : (xs.map key).Nodup) :
    (sortOn key xs).Pairwise fun a b => key a < key b := by
  have hkeys : ((sortOn key xs).map key).Nodup := ((sortOn_perm key xs).map key).nodup_iff.mpr h
  have hne : (sortOn key xs).Pairwise fun a b => key a ≠ key b := List.pairwise_map.mp hkeys
  exact (sortOn_ordered key xs).imp₂ (fun _ _ hle hne => lt_of_le_of_ne hle hne) hne

theorem eq_of_strict (h : ys.Perm zs) (hy : ys.Pairwise fun a b => key a < key b)
    (hz : zs.Pairwise fun a b => key a < key b) : ys = zs := by
  refine List.Perm.eq_of_pairwise ?_ hy hz h
  intro a b _ _ hab hba
  exact absurd hab hba.not_gt

/-- The sorted list is the only strictly ordered one of the same entries. -/
theorem sortOn_eq (h : ys.Perm xs) (hy : ys.Pairwise fun a b => key a < key b) :
    sortOn key xs = ys := by
  have hkeys : (ys.map key).Nodup := List.pairwise_map.mpr (hy.imp fun hlt => hlt.ne)
  have hnodup : (xs.map key).Nodup := (h.map key).nodup_iff.mp hkeys
  exact eq_of_strict ((sortOn_perm key xs).trans h.symm) (sortOn_strict hnodup) hy

theorem sortOn_congr (h : ys.Perm xs) (hnodup : (xs.map key).Nodup) :
    sortOn key ys = sortOn key xs :=
  sortOn_eq ((sortOn_perm key xs).trans h.symm) (sortOn_strict hnodup)

end Kit

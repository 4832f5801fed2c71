import Mathlib.Tactic

/-!
# Queues of bounded length

A full queue drops its oldest entry for a new one. Of the entries that a reader has
taken from the front some are marked to be put back; at the end of the queue they
stand where they stood only if nothing came in between.
-/

namespace Kit.Deque

variable {α V : Type*}

/-- The entry goes to the end, and from the front goes what is then too much. -/
def append (max : ℕ) (queue : List α) (a : α) : List α :=
  (queue ++ [a]).drop (queue.length + 1 - max)

variable {max : ℕ} {queue before aside : List α}

theorem append_of_room (h : queue.length < max) (a : α) : append max queue a = queue ++ [a] := by
  have hnone : queue.length + 1 - max = 0 := by omega
  rw [append, hnone, List.drop_zero]

/-- Distinct entries behind a queue are the wanted ones in their first order exactly
when they are the wanted ones of those before it, everything in it is wanted, and
one of the two is empty. -/
theorem behind_eq_filter_iff {p : α → Bool} (hnodup : (before ++ queue).Nodup) :
    queue ++ aside = (before ++ queue).filter p ↔
      aside = before.filter p ∧ (∀ a ∈ queue, p a = true) ∧ (aside = [] ∨ queue = []) := by
  rw [List.filter_append]
  constructor
  · intro h
    have hwanted : ∀ a ∈ queue, p a = true := by
      intro a ha
      have hmem : a ∈ before.filter p ++ queue.filter p := by
        rw [← h]
        exact List.mem_append_left _ ha
      rcases List.mem_append.mp hmem with hmem | hmem
      · exact (List.mem_filter.mp hmem).2
      · exact (List.mem_filter.mp hmem).2
    rw [List.filter_eq_self.mpr hwanted] at h
    cases hqueue : queue with
    | nil =>
      rw [hqueue, List.nil_append, List.append_nil] at h
      exact ⟨h, by simp, Or.inr rfl⟩
    | cons a rest =>
      rw [hqueue] at hnodup hwanted h
      cases hkept : before.filter p with
      | nil =>
        rw [hkept, List.nil_append, List.append_right_eq_self] at h
        exact ⟨h, hwanted, Or.inl h⟩
      | cons b kept =>
        -- the first of both sides would stand before the queue and in it
        rw [hkept, List.cons_append, List.cons_append] at h
        have hfirst := (List.cons.inj h).1
        have hbefore : a ∈ before := by
          rw [hfirst]
          exact (List.mem_filter.mp (hkept ▸ List.mem_cons_self)).1
        exact absurd List.mem_cons_self (List.disjoint_of_nodup_append hnodup hbefore)
  · rintro ⟨haside, hwanted, hempty⟩
    rw [List.filter_eq_self.mpr hwanted, ← haside]
    rcases hempty with hempty | hempty
    · rw [hempty, List.append_nil, List.nil_append]
    · rw [hempty, List.append_nil, List.nil_append]

/-- Of distinct entries the marked ones are the wanted ones only if the marks say
so of each. -/
theorem marked_eq_filter_iff {log : List (α × V)} {mark : V → Bool} {p : α → Bool}
    (hnodup : (log.map Prod.fst).Nodup) :
    (log.filter fun e => mark e.2).map Prod.fst = (log.map Prod.fst).filter p ↔
      ∀ e ∈ log, p e.1 = mark e.2 := by
  constructor
  · intro h e he
    have hmem : e.1 ∈ log.map Prod.fst := List.mem_map_of_mem he
    cases hmark : mark e.2 with
    | true =>
      have hkept : e.1 ∈ (log.filter fun e => mark e.2).map Prod.fst :=
        List.mem_map_of_mem (List.mem_filter.mpr ⟨he, hmark⟩)
      rw [h] at hkept
      exact (List.mem_filter.mp hkept).2
    | false =>
      by_contra hwanted
      rw [Bool.not_eq_false] at hwanted
      have hkept : e.1 ∈ (log.map Prod.fst).filter p := List.mem_filter.mpr ⟨hmem, hwanted⟩
      rw [← h] at hkept
      obtain ⟨e', he', hsame⟩ := List.mem_map.mp hkept
      obtain ⟨hlog, hmark'⟩ := List.mem_filter.mp he'
      rw [List.inj_on_of_nodup_map hnodup hlog he hsame, hmark] at hmark'
      cases hmark'
  · intro h
    rw [List.filter_map]
    congr 1
    apply List.filter_congr
    intro e he
    exact (h e he).symm

end Kit.Deque

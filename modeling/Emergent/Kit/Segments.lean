import Mathlib.Computability.RegularExpressions
import Mathlib.Tactic

/-!
# Segments of a class, joined by a separator

The regular expression `[class]+(sep[class]+)*` and its language, read from the
front: what a word of it may start with and what must follow.
-/

namespace Kit.Segments
open Computability

variable {α : Type*}

/-- The class of the given symbols, `[..]`. -/
def oneOf (symbols : List α) : RegularExpression α :=
  symbols.foldr (fun a r => RegularExpression.char a + r) 0

def oneOrMore (r : RegularExpression α) : RegularExpression α := r * r.star

def segments (symbols : List α) (sep : α) : RegularExpression α :=
  oneOrMore (oneOf symbols) * (RegularExpression.char sep * oneOrMore (oneOf symbols)).star

variable {symbols : List α} {sep a : α} {w : List α}

theorem mem_oneOf : w ∈ (oneOf symbols).matches' ↔ ∃ a ∈ symbols, w = [a] := by
  induction symbols with
  | nil =>
    constructor
    · intro h
      exact absurd h (Language.notMem_zero w)
    · rintro ⟨a, ha, _⟩
      cases ha
  | cons s symbols ih =>
    rw [oneOf, List.foldr_cons, RegularExpression.matches'_add, Language.mem_add,
      RegularExpression.matches'_char, List.exists_mem_cons_iff]
    exact or_congr Iff.rfl ih

theorem cons_mem_star {l : Language α} (hl : [] ∉ l) :
    a :: w ∈ l∗ ↔ ∃ u v, w = u ++ v ∧ a :: u ∈ l ∧ v ∈ l∗ := by
  constructor
  · intro h
    obtain ⟨parts, hparts, hin⟩ := Language.mem_kstar.mp h
    cases parts with
    | nil => cases hparts
    | cons first rest =>
      have hfirst := hin first List.mem_cons_self
      cases first with
      | nil => exact absurd hfirst hl
      | cons b u =>
        rw [List.flatten_cons, List.cons_append, List.cons.injEq] at hparts
        rw [hparts.1]
        refine ⟨u, rest.flatten, hparts.2, hfirst, ?_⟩
        exact Language.join_mem_kstar fun y hy => hin y (List.mem_cons_of_mem _ hy)
  · rintro ⟨u, v, hw, hfirst, hrest⟩
    obtain ⟨parts, hparts, hin⟩ := Language.mem_kstar.mp hrest
    apply Language.mem_kstar.mpr
    refine ⟨(a :: u) :: parts, by rw [hw, hparts]; rfl, ?_⟩
    intro y hy
    rcases List.mem_cons.mp hy with heq | hy
    · rw [heq]
      exact hfirst
    · exact hin y hy

theorem cons_mem_oneOf_star :
    a :: w ∈ (oneOf symbols).matches'∗ ↔ a ∈ symbols ∧ w ∈ (oneOf symbols).matches'∗ := by
  have hnil : [] ∉ (oneOf symbols).matches' := by
    rw [mem_oneOf]
    rintro ⟨b, _, h⟩
    cases h
  rw [cons_mem_star hnil]
  constructor
  · rintro ⟨u, v, hw, hfirst, hrest⟩
    obtain ⟨b, hb, heq⟩ := mem_oneOf.mp hfirst
    rw [List.cons.injEq] at heq
    rw [heq.1, hw, heq.2]
    exact ⟨hb, hrest⟩
  · rintro ⟨ha, hw⟩
    exact ⟨[], w, rfl, mem_oneOf.mpr ⟨a, ha, rfl⟩, hw⟩

theorem mem_oneOrMore :
    w ∈ (oneOrMore (oneOf symbols)).matches' ↔
      w ≠ [] ∧ w ∈ (oneOf symbols).matches'∗ := by
  rw [oneOrMore, RegularExpression.matches'_mul, RegularExpression.matches'_star,
    Language.mem_mul]
  constructor
  · rintro ⟨u, hu, v, hv, hw⟩
    obtain ⟨a, ha, heq⟩ := mem_oneOf.mp hu
    rw [← hw, heq]
    exact ⟨by simp, cons_mem_oneOf_star.mpr ⟨ha, hv⟩⟩
  · rintro ⟨hne, hw⟩
    cases w with
    | nil => exact absurd rfl hne
    | cons a w =>
      obtain ⟨ha, hrest⟩ := cons_mem_oneOf_star.mp hw
      exact ⟨[a], mem_oneOf.mpr ⟨a, ha, rfl⟩, w, hrest, rfl⟩

/-! ### Reading from the front -/

/-- What may follow inside a segment: the rest of it and the segments after it. -/
def continuations (symbols : List α) (sep : α) : Language α :=
  (oneOf symbols).matches'∗ * (RegularExpression.char sep * oneOrMore (oneOf symbols)).star.matches'

theorem nil_mem_continuations : [] ∈ continuations symbols sep :=
  Language.mem_mul.mpr ⟨[], Language.nil_mem_kstar _, [], Language.nil_mem_kstar _, rfl⟩

theorem nil_notMem_segments : [] ∉ (segments symbols sep).matches' := by
  rw [segments, RegularExpression.matches'_mul, Language.mem_mul]
  rintro ⟨u, hu, v, _, h⟩
  exact (mem_oneOrMore.mp hu).1 (List.append_eq_nil_iff.mp h).1

/-- A segment starts with a symbol of the class. -/
theorem cons_mem_segments :
    a :: w ∈ (segments symbols sep).matches' ↔
      a ∈ symbols ∧ w ∈ continuations symbols sep := by
  rw [segments, RegularExpression.matches'_mul, Language.mem_mul, continuations]
  constructor
  · rintro ⟨u, hu, v, hv, h⟩
    obtain ⟨hne, hstar⟩ := mem_oneOrMore.mp hu
    cases u with
    | nil => exact absurd rfl hne
    | cons b u =>
      rw [List.cons_append, List.cons.injEq] at h
      obtain ⟨hb, hrest⟩ := cons_mem_oneOf_star.mp hstar
      rw [← h.1]
      exact ⟨hb, Language.mem_mul.mpr ⟨u, hrest, v, hv, h.2⟩⟩
  · rintro ⟨ha, hw⟩
    obtain ⟨u, hu, v, hv, h⟩ := Language.mem_mul.mp hw
    refine ⟨a :: u, mem_oneOrMore.mpr ⟨by simp, ?_⟩, v, hv, by rw [List.cons_append, h]⟩
    exact cons_mem_oneOf_star.mpr ⟨ha, hu⟩

/-- Inside a segment another symbol of the class may follow, or the separator and a
segment. -/
theorem cons_mem_continuations :
    a :: w ∈ continuations symbols sep ↔
      (a ∈ symbols ∧ w ∈ continuations symbols sep) ∨
        (a = sep ∧ w ∈ (segments symbols sep).matches') := by
  have hsep : [] ∉ (RegularExpression.char sep * oneOrMore (oneOf symbols)).matches' := by
    rw [RegularExpression.matches'_mul, Language.mem_mul]
    rintro ⟨u, hu, v, _, h⟩
    rw [RegularExpression.matches'_char] at hu
    have hsingle : u = [sep] := hu
    rw [hsingle] at h
    cases h
  rw [continuations, Language.mem_mul]
  constructor
  · rintro ⟨u, hu, v, hv, h⟩
    cases u with
    | cons b u =>
      rw [List.cons_append, List.cons.injEq] at h
      obtain ⟨hb, hrest⟩ := cons_mem_oneOf_star.mp hu
      rw [← h.1]
      exact Or.inl ⟨hb, Language.mem_mul.mpr ⟨u, hrest, v, hv, h.2⟩⟩
    | nil =>
      rw [List.nil_append] at h
      rw [h, RegularExpression.matches'_star, cons_mem_star hsep] at hv
      obtain ⟨x, y, hw, hx, hy⟩ := hv
      rw [RegularExpression.matches'_mul, Language.mem_mul] at hx
      obtain ⟨s, hs, t, ht, hst⟩ := hx
      have hsingle : s = [sep] := hs
      rw [hsingle, List.singleton_append, List.cons.injEq] at hst
      right
      refine ⟨hst.1.symm, ?_⟩
      rw [segments, RegularExpression.matches'_mul]
      refine Language.mem_mul.mpr ⟨t, ht, y, ?_, by rw [hw, hst.2]⟩
      rw [RegularExpression.matches'_star]
      exact hy
  · rintro (⟨ha, hw⟩ | ⟨ha, hw⟩)
    · obtain ⟨u, hu, v, hv, h⟩ := Language.mem_mul.mp hw
      exact ⟨a :: u, cons_mem_oneOf_star.mpr ⟨ha, hu⟩, v, hv, by rw [List.cons_append, h]⟩
    · rw [segments, RegularExpression.matches'_mul] at hw
      obtain ⟨u, hu, v, hv, h⟩ := Language.mem_mul.mp hw
      refine ⟨[], Language.nil_mem_kstar _, a :: w, ?_, rfl⟩
      rw [RegularExpression.matches'_star, cons_mem_star hsep]
      rw [RegularExpression.matches'_star] at hv
      refine ⟨u, v, h.symm, ?_, hv⟩
      rw [RegularExpression.matches'_mul]
      exact Language.mem_mul.mpr ⟨[sep], rfl, u, hu, by rw [ha]; rfl⟩

end Kit.Segments

import Mathlib.Data.List.DropRight
import Mathlib.Tactic

/-!
# Cutting a list

A list is cut after the longest part in front, or before the longest part at the
end, that passes a test. The part before the first occurrence of an element and
the part from it on, and what the pieces of `List.splitOn` have of the list they
come from.
-/

namespace Kit

section
variable {α : Type} {p : α → Bool} {a b l : List α}

theorem cut_append (ha : ∀ x ∈ a, p x = true) (hb : ∀ x ∈ b.head?, p x = false) :
    (a ++ b).takeWhile p = a ∧ (a ++ b).dropWhile p = b := by
  rw [List.takeWhile_append_of_pos ha, List.dropWhile_append_of_pos ha]
  cases b with
  | nil => simp
  | cons x b =>
    have hx : p x = false := hb x rfl
    simp [hx]

theorem head_dropWhile (p : α → Bool) (l : List α) : ∀ x ∈ (l.dropWhile p).head?, p x = false := by
  intro x hx
  have hnot := List.head?_dropWhile_not p l
  rw [Option.mem_def.mp hx] at hnot
  exact hnot

/-- What both ends lose when the elements that pass the test are cut off. -/
def stripped (p : α → Bool) (l : List α) : List α := (l.dropWhile p).rdropWhile p

theorem stripped_split (p : α → Bool) (l : List α) :
    ∃ pad pad' : List α, l = pad ++ (stripped p l ++ pad') ∧ (∀ x ∈ pad, p x = true) ∧
      ∀ x ∈ pad', p x = true := by
  refine ⟨l.takeWhile p, (l.dropWhile p).rtakeWhile p, ?_, fun x hx => List.mem_takeWhile_imp hx,
    fun x hx => List.mem_rtakeWhile_imp hx⟩
  rw [stripped, List.rdropWhile_append_rtakeWhile, List.takeWhile_append_dropWhile]

theorem last_rdropWhile (p : α → Bool) (l : List α) :
    ∀ x ∈ (l.rdropWhile p).getLast?, p x = false := by
  intro x hx
  rw [List.rdropWhile, List.getLast?_reverse] at hx
  exact head_dropWhile p l.reverse x hx

theorem rdropWhile_append (ha : ∀ x ∈ a.getLast?, p x = false) (hb : ∀ x ∈ b, p x = true) :
    (a ++ b).rdropWhile p = a := by
  have hcut : (b.reverse ++ a.reverse).dropWhile p = a.reverse := by
    refine (cut_append ?_ ?_).2
    · intro x hx
      exact hb x (List.mem_reverse.mp hx)
    · rw [List.head?_reverse]
      exact ha
  rw [List.rdropWhile, List.reverse_append, hcut, List.reverse_reverse]

theorem head_stripped (p : α → Bool) (l : List α) : ∀ x ∈ (stripped p l).head?, p x = false := by
  intro x hx
  have hprefix := List.rdropWhile_prefix p (l.dropWhile p)
  obtain ⟨rest, hrest⟩ := hprefix
  apply head_dropWhile p l x
  have hsome : (stripped p l).head? = some x := hx
  rw [← hrest, List.head?_append]
  rw [stripped] at hsome
  rw [hsome]
  rfl

theorem last_stripped (p : α → Bool) (l : List α) : ∀ x ∈ (stripped p l).getLast?, p x = false :=
  last_rdropWhile p _

theorem stripped_append {pad pad' : List α} (hpad : ∀ x ∈ pad, p x = true) (hne : a ≠ [])
    (hhead : ∀ x ∈ a.head?, p x = false) (hlast : ∀ x ∈ a.getLast?, p x = false)
    (hpad' : ∀ x ∈ pad', p x = true) : stripped p (pad ++ (a ++ pad')) = a := by
  have hstart : ∀ x ∈ (a ++ pad').head?, p x = false := by
    intro x hx
    rw [List.head?_append_of_ne_nil _ hne] at hx
    exact hhead x hx
  rw [stripped, (cut_append hpad hstart).2, rdropWhile_append hlast hpad']

end

variable {α : Type} [DecidableEq α] {a c : α} {l before rest : List α}

def upTo (c : α) (l : List α) : List α := l.takeWhile fun a => a ≠ c

def onward (c : α) (l : List α) : List α := l.dropWhile fun a => a ≠ c

theorem upTo_append_onward (c : α) (l : List α) : upTo c l ++ onward c l = l :=
  List.takeWhile_append_dropWhile

theorem notMem_upTo (c : α) (l : List α) : c ∉ upTo c l := by
  intro h
  have hne := List.all_eq_true.mp (List.all_takeWhile (l := l) (p := fun a => a ≠ c)) c h
  simp at hne

/-- What follows the first piece is nothing or starts with the separator. -/
def StartsAt (c : α) (rest : List α) : Prop := rest = [] ∨ ∃ after, rest = c :: after

theorem startsAt_onward (c : α) (l : List α) : StartsAt c (onward c l) := by
  induction l with
  | nil => exact Or.inl rfl
  | cons a l ih =>
    by_cases hac : a = c
    · refine Or.inr ⟨l, ?_⟩
      simp [onward, hac]
    · have hskip : onward c (a :: l) = onward c l := by
        simp [onward, hac]
      rw [hskip]
      exact ih

theorem upTo_append (hbefore : c ∉ before) (hrest : StartsAt c rest) :
    upTo c (before ++ rest) = before ∧ onward c (before ++ rest) = rest := by
  induction before with
  | nil =>
    rcases hrest with rfl | ⟨after, rfl⟩
    · exact ⟨rfl, rfl⟩
    · simp [upTo, onward]
  | cons b before ih =>
    have hb : b ≠ c := by
      intro heq
      exact hbefore (by rw [heq]; exact List.mem_cons_self)
    have htail := ih fun hmem => hbefore (List.mem_cons_of_mem _ hmem)
    constructor
    · simpa [upTo, hb] using htail.1
    · simpa [onward, hb] using htail.2

theorem onward_of_mem (h : c ∈ l) : ∃ after, onward c l = c :: after := by
  rcases startsAt_onward c l with hnil | hafter
  · have hall := upTo_append_onward c l
    rw [hnil, List.append_nil] at hall
    rw [← hall] at h
    exact absurd h (notMem_upTo c l)
  · exact hafter

omit [DecidableEq α] in
theorem mem_intercalate {parts : List (List α)} (h : a ∈ [c].intercalate parts) :
    a = c ∨ ∃ part ∈ parts, a ∈ part := by
  induction parts with
  | nil => cases h
  | cons part parts ih =>
    cases parts with
    | nil =>
      rw [List.intercalate_singleton] at h
      exact Or.inr ⟨part, List.mem_cons_self, h⟩
    | cons next parts =>
      rw [List.intercalate_cons_cons] at h
      rcases List.mem_append.mp h with h | h
      · rcases List.mem_append.mp h with h | h
        · exact Or.inr ⟨part, List.mem_cons_self, h⟩
        · exact Or.inl (List.mem_singleton.mp h)
      · rcases ih h with hsep | ⟨p, hp, ha⟩
        · exact Or.inl hsep
        · exact Or.inr ⟨p, List.mem_cons_of_mem _ hp, ha⟩

/-- Every element is a separator or in one of the pieces. -/
theorem mem_splitOn (h : a ∈ l) (c : α) : a = c ∨ ∃ part ∈ l.splitOn c, a ∈ part := by
  have hjoin : [c].intercalate (l.splitOn c) = l := List.intercalate_splitOn c
  rw [← hjoin] at h
  exact mem_intercalate h

end Kit

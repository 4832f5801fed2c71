import Emergent.Kit.Cuts

/-!
# Places in a text of lines

A place is a line and a column, both counted from one. It is read off what stands
before it, and gives that back when it is looked up in the text.
-/

namespace Kit.Places

variable {α : Type} [DecidableEq α] (nl : α)

/-- The place after the part `before`. -/
def place (before : List α) : ℕ × ℕ :=
  (before.count nl + 1, (upTo nl before.reverse).length + 1)

/-- What stands before a place of the text. -/
def beforePlace : List α → ℕ → ℕ → List α
  | text, 0, column => text.take (column - 1)
  | text, 1, column => text.take (column - 1)
  | [], _ + 2, _ => []
  | a :: text, line + 2, column =>
    a :: beforePlace text (if a = nl then line + 1 else line + 2) column

variable {nl}

theorem upTo_append_of_mem {l l' : List α} (h : nl ∈ l) : upTo nl (l ++ l') = upTo nl l := by
  obtain ⟨after, hafter⟩ := onward_of_mem h
  have hsplit : l ++ l' = upTo nl l ++ (nl :: (after ++ l')) := by
    rw [← List.cons_append, ← hafter, ← List.append_assoc, upTo_append_onward]
  rw [hsplit]
  exact (upTo_append (notMem_upTo nl l) (Or.inr ⟨_, rfl⟩)).1

theorem upTo_of_notMem {l : List α} (h : nl ∉ l) : upTo nl l = l := by
  have hall := (upTo_append h (Or.inl rfl : StartsAt nl [])).1
  rwa [List.append_nil] at hall

/-- The column counts from the last line break on. -/
theorem column_cons (a : α) {before : List α} (h : a = nl ∨ nl ∈ before) :
    upTo nl (a :: before).reverse = upTo nl before.reverse := by
  rw [List.reverse_cons]
  by_cases hmem : nl ∈ before
  · exact upTo_append_of_mem (List.mem_reverse.mpr hmem)
  · have ha : a = nl := h.resolve_right hmem
    have hnot : nl ∉ before.reverse := fun hin => hmem (List.mem_reverse.mp hin)
    rw [ha, (upTo_append hnot (Or.inr ⟨[], rfl⟩)).1, upTo_of_notMem hnot]

theorem beforePlace_place (before rest : List α) :
    beforePlace nl (before ++ rest) (place nl before).1 (place nl before).2 = before := by
  induction before with
  | nil => simp [place, beforePlace, upTo]
  | cons a before ih =>
    by_cases hmem : nl ∈ a :: before
    · have hbreak : a = nl ∨ nl ∈ before := (List.mem_cons.mp hmem).imp Eq.symm id
      have hcolumn : (place nl (a :: before)).2 = (place nl before).2 := by
        rw [place, place, column_cons a hbreak]
      by_cases ha : a = nl
      · have hline : (place nl (a :: before)).1 = before.count nl + 2 := by
          simp [place, ha]
        rw [hline, hcolumn, List.cons_append, beforePlace, if_pos ha]
        exact congrArg (a :: ·) ih
      · have hmem' := hbreak.resolve_left ha
        obtain ⟨breaks, hbreaks⟩ := Nat.exists_eq_add_of_lt (List.count_pos_iff.mpr hmem')
        have hline : (place nl (a :: before)).1 = breaks + 2 := by
          rw [place, List.count_cons_of_ne ha, hbreaks]
          omega
        have hline' : (place nl before).1 = breaks + 2 := by
          rw [place, hbreaks]
          omega
        rw [hline, hcolumn, List.cons_append, beforePlace, if_neg ha, ← hline']
        exact congrArg (a :: ·) ih
    · have hnot : nl ∉ (a :: before).reverse := fun hin => hmem (List.mem_reverse.mp hin)
      have hline : (place nl (a :: before)).1 = 1 := by
        rw [place, List.count_eq_zero_of_not_mem hmem]
      have hcolumn : (place nl (a :: before)).2 - 1 = (a :: before).length := by
        rw [place, upTo_of_notMem hnot, List.length_reverse, Nat.add_sub_cancel]
      rw [hline, beforePlace, hcolumn, List.take_left]

end Kit.Places

import Mathlib.Tactic

/-!
# Editing one member of a list

What `List.modify` does member by member, and to a list of logs that is
concatenated in order: an edit that adds to the log of one member adds at the end
when no later member has logged anything.
-/

namespace Kit

variable {α β : Type*}

theorem getElem?_modify_cases {l : List α} {i j : ℕ} {f : α → α} {b : α}
    (h : (l.modify i f)[j]? = some b) :
    (i = j ∧ ∃ a, l[i]? = some a ∧ b = f a) ∨ (i ≠ j ∧ l[j]? = some b) := by
  rw [List.getElem?_modify] at h
  obtain ⟨a, ha, hb⟩ := Option.map_eq_some_iff.mp h
  by_cases hij : i = j
  · subst hij
    rw [if_pos rfl] at hb
    exact Or.inl ⟨rfl, a, ha, hb.symm⟩
  · rw [if_neg hij] at hb
    exact Or.inr ⟨hij, ha.trans (congrArg some hb)⟩

/-- The same, when the member that is edited is known. -/
theorem getElem?_modify_known {l : List α} {i j : ℕ} {f : α → α} {a b : α} (ha : l[i]? = some a)
    (h : (l.modify i f)[j]? = some b) : (j = i ∧ b = f a) ∨ (j ≠ i ∧ l[j]? = some b) := by
  rcases getElem?_modify_cases h with ⟨hij, c, hc, hb⟩ | ⟨hij, hold⟩
  · rw [← Option.some.inj (hc.symm.trans ha)]
    exact Or.inl ⟨hij.symm, hb⟩
  · exact Or.inr ⟨Ne.symm hij, hold⟩

theorem getElem?_modify_self {l : List α} {i : ℕ} {f : α → α} {a : α} (h : l[i]? = some a) :
    (l.modify i f)[i]? = some (f a) := by
  simp [h]

theorem getElem?_modify_of_ne {l : List α} {i j : ℕ} {f : α → α} (h : i ≠ j) :
    (l.modify i f)[j]? = l[j]? := by
  rw [List.getElem?_modify]
  simp [h]

theorem getElem?_snoc_cases {l : List α} {a b : α} {i : ℕ} (h : (l ++ [b])[i]? = some a) :
    l[i]? = some a ∨ (i = l.length ∧ a = b) := by
  rcases lt_or_ge i l.length with hi | hi
  · rw [List.getElem?_append_left hi] at h
    exact Or.inl h
  · rw [List.getElem?_append_right hi, List.getElem?_singleton] at h
    split_ifs at h
    exact Or.inr ⟨by omega, (Option.some.inj h).symm⟩

/-- Editing the members a list of numbers names, some of them more than once. -/
theorem getElem?_foldl_modify_cases {ι : Type*} {f : α → α} (hf : ∀ a, f (f a) = f a)
    {g : ι → ℕ} {es : List ι} {l : List α} {j : ℕ} {b : α}
    (h : (es.foldl (fun l e => l.modify (g e) f) l)[j]? = some b) :
    l[j]? = some b ∨ (j ∈ es.map g ∧ ∃ a, l[j]? = some a ∧ b = f a) := by
  induction es generalizing l with
  | nil => exact Or.inl h
  | cons e es ih =>
    rw [List.foldl_cons] at h
    have hlater : ∀ a, (l.modify (g e) f)[j]? = some a →
        l[j]? = some a ∨ (j ∈ (e :: es).map g ∧ ∃ c, l[j]? = some c ∧ a = f c) := by
      intro a ha
      rcases getElem?_modify_cases ha with ⟨hj, c, hc, hac⟩ | ⟨_, hold⟩
      · rw [hj] at hc
        exact Or.inr ⟨by simp [hj], c, hc, hac⟩
      · exact Or.inl hold
    rcases ih h with hsame | ⟨hmem, a, ha, hb⟩
    · exact hlater b hsame
    · have hj : j ∈ (e :: es).map g := List.mem_cons_of_mem _ hmem
      rcases hlater a ha with hold | ⟨_, c, hc, hac⟩
      · exact Or.inr ⟨hj, a, hold, hb⟩
      · refine Or.inr ⟨hj, c, hc, ?_⟩
        rw [hb, hac, hf]

theorem length_foldl_modify {ι : Type*} {f : α → α} {g : ι → ℕ} (es : List ι) (l : List α) :
    (es.foldl (fun l e => l.modify (g e) f) l).length = l.length := by
  induction es generalizing l with
  | nil => rfl
  | cons e es ih => rw [List.foldl_cons, ih, List.length_modify]

theorem pairwise_iff_getElem? {R : α → α → Prop} {l : List α} :
    l.Pairwise R ↔ ∀ (i j : ℕ) (a b : α), i < j → l[i]? = some a → l[j]? = some b → R a b := by
  rw [List.pairwise_iff_getElem]
  constructor
  · intro h i j a b hij ha hb
    obtain ⟨hi, rfl⟩ := List.getElem?_eq_some_iff.mp ha
    obtain ⟨hj, rfl⟩ := List.getElem?_eq_some_iff.mp hb
    exact h i j hi hj hij
  · intro h i j hi hj hij
    exact h i j _ _ hij (List.getElem?_eq_getElem hi) (List.getElem?_eq_getElem hj)

theorem map_modify_of_eq {γ : Type*} {key : α → γ} {l : List α} {i : ℕ} {f : α → α}
    (h : ∀ a, l[i]? = some a → key (f a) = key a) : (l.modify i f).map key = l.map key := by
  apply List.ext_getElem?
  intro j
  rw [List.getElem?_map, List.getElem?_map, List.getElem?_modify]
  by_cases hij : i = j
  · subst hij
    cases ha : l[i]? with
    | none => rfl
    | some a => simp [h a ha]
  · cases l[j]? <;> simp [hij]

theorem forall₂_modify {R : α → α → Prop} (hrefl : ∀ a, R a a) {l : List α} {i : ℕ} {f : α → α}
    (h : ∀ a, l[i]? = some a → R a (f a)) : List.Forall₂ R l (l.modify i f) := by
  rw [List.forall₂_iff_get]
  refine ⟨by simp, fun j hj hj' => ?_⟩
  by_cases hij : i = j
  · subst hij
    simpa using h (l.get ⟨i, hj⟩) (by simp [hj])
  · simpa [hij] using hrefl _

variable {g : α → List β}

theorem flatMap_modify_append {l : List α} {i : ℕ} {f : α → α} {a : α} {extra : List β}
    (hi : l[i]? = some a) (h : g (f a) = g a ++ extra)
    (hlater : ∀ j b, i < j → l[j]? = some b → g b = []) :
    (l.modify i f).flatMap g = l.flatMap g ++ extra := by
  induction l generalizing i with
  | nil => simp at hi
  | cons b l ih =>
    cases i with
    | zero =>
      have hb : b = a := by simpa using hi
      subst hb
      have hnil : l.flatMap g = [] := by
        rw [List.flatMap_eq_nil_iff]
        intro c hc
        obtain ⟨j, hj⟩ := List.getElem?_of_mem hc
        exact hlater (j + 1) c (by omega) (by simpa using hj)
      simp [h, hnil]
    | succ i =>
      have hrest := ih (i := i) (by simpa using hi) fun j c hij hc =>
        hlater (j + 1) c (by omega) (by simpa using hc)
      simp [hrest]

/-- Where every member but the last has logged exactly one thing, the joined
log is read member by member. -/
theorem getElem?_flatMap_of_last {l : List α} (hone : ∀ a ∈ l, (g a).length ≤ 1)
    (hlast : ∀ (i : ℕ) a, l[i]? = some a → g a = [] → i + 1 = l.length) {i : ℕ} {b : β}
    (h : (l.flatMap g)[i]? = some b) : ∃ a, l[i]? = some a ∧ g a = [b] := by
  induction l generalizing i with
  | nil => simp at h
  | cons a l ih =>
    have hrest : ∀ (j : ℕ) c, l[j]? = some c → g c = [] → j + 1 = l.length := by
      intro j c hc hempty
      have hend := hlast (j + 1) c (by simpa using hc) hempty
      simpa using hend
    cases hlog : g a with
    | nil =>
      have hlength := hlast 0 a rfl hlog
      have hnil : l = [] := List.length_eq_zero_iff.mp (by simpa using hlength.symm)
      rw [hnil, List.flatMap_cons, hlog] at h
      simp at h
    | cons first more =>
      have hshort := hone a List.mem_cons_self
      rw [hlog, List.length_cons] at hshort
      have hmore : more = [] := List.length_eq_zero_iff.mp (by omega)
      rw [hmore] at hlog
      rw [List.flatMap_cons, hlog] at h
      cases i with
      | zero => exact ⟨a, rfl, hlog.trans (by simpa using h)⟩
      | succ i => exact ih (fun c hc => hone c (List.mem_cons_of_mem _ hc)) hrest h

end Kit

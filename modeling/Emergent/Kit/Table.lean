import Emergent.Kit.Modify

/-!
# A table that points at records

Records are numbered in the order they were made and never go away; a table
maps keys to numbers, and a record's own key is a field of it. The lemmas say
what an edit of one record and of its own entry does to a property of all the
records the table points at.
-/

namespace Kit

structure Table (κ α : Type*) where
  records : List α
  entries : List (κ × ℕ)
  deriving Repr, DecidableEq

namespace Table

variable {κ α : Type*}

def empty : Table κ α := ⟨[], []⟩

def forget [DecidableEq κ] (t : Table κ α) (k : κ) : Table κ α :=
  { t with entries := t.entries.filter fun e => e.1 ≠ k }

def enter [DecidableEq κ] (t : Table κ α) (k : κ) (i : ℕ) : Table κ α :=
  { t with entries := (k, i) :: t.entries.filter fun e => e.1 ≠ k }

def put (t : Table κ α) (i : ℕ) (a : α) : Table κ α := { t with records := t.records.set i a }

def push (t : Table κ α) (a : α) : Table κ α := { t with records := t.records ++ [a] }

/-- An entry has the key of the record it points at, and no two records have
the same key. -/
structure Keyed (key : α → κ) (t : Table κ α) : Prop where
  refers : ∀ (k : κ) (i : ℕ), (k, i) ∈ t.entries → ∃ a, t.records[i]? = some a ∧ key a = k
  distinct : ∀ (i j : ℕ) (a b : α), t.records[i]? = some a → t.records[j]? = some b →
    key a = key b → i = j

/-- Every record the table points at has the property. -/
def Every (P : α → Prop) (t : Table κ α) : Prop :=
  ∀ (k : κ) (i : ℕ), (k, i) ∈ t.entries → ∀ a, t.records[i]? = some a → P a

/-- Some entry points at the record of this number. -/
def Listed (t : Table κ α) (i : ℕ) : Prop := ∃ k, (k, i) ∈ t.entries

theorem listed_iff {t : Table κ α} {i : ℕ} : i ∈ t.entries.map Prod.snd ↔ t.Listed i := by
  simp [Listed]

instance (t : Table κ α) (i : ℕ) : Decidable (t.Listed i) := decidable_of_iff _ listed_iff

variable {key : α → κ} {t : Table κ α}

theorem keyed_empty : Keyed key (empty : Table κ α) where
  refers k i h := by cases h
  distinct i j a b h := by simp [empty] at h

theorem mem_forget [DecidableEq κ] {k l : κ} {i : ℕ} :
    (l, i) ∈ (t.forget k).entries ↔ (l, i) ∈ t.entries ∧ l ≠ k := by
  simp [forget]

theorem mem_enter [DecidableEq κ] {k l : κ} {i j : ℕ} :
    (l, j) ∈ (t.enter k i).entries ↔ (l = k ∧ j = i) ∨ ((l, j) ∈ t.entries ∧ l ≠ k) := by
  simp [enter]

theorem getElem?_set_cases {l : List α} {i j : ℕ} {a b : α} (h : (l.set i a)[j]? = some b) :
    (i = j ∧ b = a) ∨ (i ≠ j ∧ l[j]? = some b) := by
  rw [List.getElem?_set] at h
  by_cases hij : i = j
  · rw [if_pos hij] at h
    split at h
    · exact Or.inl ⟨hij, (Option.some.inj h).symm⟩
    · cases h
  · rw [if_neg hij] at h
    exact Or.inr ⟨hij, h⟩

theorem getElem?_put_self {i : ℕ} {a b : α} (h : t.records[i]? = some a) :
    (t.put i b).records[i]? = some b := by
  have hi : i < t.records.length := (List.getElem?_eq_some_iff.mp h).1
  simp [put, hi]

/-! ### Keys and entries -/

theorem Keyed.index_eq (h : Keyed key t) {i j : ℕ} {a : α} (hi : t.records[i]? = some a)
    (hj : (key a, j) ∈ t.entries) : j = i := by
  obtain ⟨b, hb, hk⟩ := h.refers _ j hj
  exact h.distinct j i b a hb hi hk

theorem Keyed.key_eq (h : Keyed key t) {i : ℕ} {k : κ} {a : α} (hi : t.records[i]? = some a)
    (hk : (k, i) ∈ t.entries) : k = key a := by
  obtain ⟨b, hb, hkey⟩ := h.refers k i hk
  rw [← hkey, Option.some.inj (hb.symm.trans hi)]

theorem mem_of_lookup {β : Type*} [BEq κ] [LawfulBEq κ] {l : List (κ × β)} {k : κ} {b : β}
    (h : l.lookup k = some b) : (k, b) ∈ l := by
  obtain ⟨before, after, hl, _⟩ := List.lookup_eq_some_iff.mp h
  rw [hl]
  exact List.mem_append_right _ List.mem_cons_self

theorem lookup_isSome_of_mem {β : Type*} [BEq κ] [LawfulBEq κ] {l : List (κ × β)} {k : κ} {b : β}
    (h : (k, b) ∈ l) : (l.lookup k).isSome = true := by
  cases hl : l.lookup k with
  | some c => rfl
  | none =>
    have hne := List.lookup_eq_none_iff.mp hl (k, b) h
    simp at hne

/-- The table has an entry under the key of a record exactly when it points at it. -/
theorem Keyed.isSome_lookup_iff [BEq κ] [LawfulBEq κ] (h : Keyed key t) {i : ℕ} {a : α}
    (hi : t.records[i]? = some a) : (t.entries.lookup (key a)).isSome = true ↔ t.Listed i := by
  constructor
  · intro hsome
    obtain ⟨j, hj⟩ := Option.isSome_iff_exists.mp hsome
    have hmem := mem_of_lookup hj
    rw [h.index_eq hi hmem] at hmem
    exact ⟨key a, hmem⟩
  · rintro ⟨k, hk⟩
    have hmem := hk
    rw [h.key_eq hi hk] at hmem
    exact lookup_isSome_of_mem hmem

/-! ### A property of the records the table points at -/

variable {P : α → Prop}

/-- An entry that is set and taken away again has only replaced an older one. -/
theorem Every.enter_forget [DecidableEq κ] (h : Every P t) (k : κ) (i : ℕ) :
    Every P ((t.enter k i).forget k) := by
  intro l j hl
  obtain ⟨hentered, hne⟩ := mem_forget.mp hl
  rcases mem_enter.mp hentered with ⟨hk, _⟩ | ⟨hold, _⟩
  · exact absurd hk hne
  · exact h l j hold

theorem every_put (h : Every P t) {i : ℕ} {a b : α} (hi : t.records[i]? = some a) :
    Every P (t.put i b) ↔ (t.Listed i → P b) := by
  constructor
  · rintro hall ⟨k, hk⟩
    exact hall k i hk b (getElem?_put_self hi)
  · intro hb k j hk c hc
    rcases getElem?_set_cases hc with ⟨rfl, rfl⟩ | ⟨_, hold⟩
    · exact hb ⟨k, hk⟩
    · exact h k j hk c hold

theorem Keyed.every_drop [DecidableEq κ] (hkeyed : Keyed key t) (h : Every P t) {i : ℕ}
    {a b : α} (hi : t.records[i]? = some a) : Every P ((t.put i b).forget (key a)) := by
  intro k j hk c hc
  obtain ⟨hmem, hne⟩ := mem_forget.mp hk
  rcases getElem?_set_cases hc with ⟨hij, _⟩ | ⟨_, hold⟩
  · rw [← hij] at hmem
    exact absurd (hkeyed.key_eq hi hmem) hne
  · exact h k j hmem c hold

theorem every_enter [DecidableEq κ] (h : Every P t) (k : κ) {i : ℕ} {a : α}
    (hi : t.records[i]? = some a) : Every P (t.enter k i) ↔ P a := by
  constructor
  · intro hall
    exact hall k i (mem_enter.mpr (Or.inl ⟨rfl, rfl⟩)) a hi
  · intro ha l j hl c hc
    rcases mem_enter.mp hl with ⟨_, hj⟩ | ⟨hmem, _⟩
    · rw [hj] at hc
      rw [← Option.some.inj (hi.symm.trans hc)]
      exact ha
    · exact h l j hmem c hc

theorem Keyed.every_push (hkeyed : Keyed key t) (h : Every P t) (a : α) : Every P (t.push a) := by
  intro k i hk b hb
  obtain ⟨c, hc, _⟩ := hkeyed.refers k i hk
  have hi : i < t.records.length := (List.getElem?_eq_some_iff.mp hc).1
  exact h k i hk b ((List.getElem?_append_left hi).symm.trans hb)

end Table

end Kit

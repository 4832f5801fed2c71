import Emergent.Engine.Readiness

/-!
# Batches of subscription events (`readiness.rs`, `absorb`)

The startup wait drains the events in batches, cut wherever a poll happens to
fall, and reads the child table anew for each one. What the ledger holds in the
end does not depend on the cuts.
-/

namespace Emergent.Engine

/-- Nobody is named by this event under the table. -/
def unnamed (children : List (Pid × String)) (o : ObservedSubscriber) : Bool :=
  (attributeSubscriber o children).isNone

/-- What waits for a name after one more batch, before the cap is applied. -/
def backlog (ledger : Ledger) (observed : List ObservedSubscriber)
    (children : List (Pid × String)) : List ObservedSubscriber :=
  (ledger.unattributed ++ observed).filter (unnamed children)

/-- One round of the startup wait: what it drained and the table it read. -/
structure Batch where
  observed : List ObservedSubscriber
  children : List (Pid × String)
  deriving DecidableEq

def absorbAll (ledger : Ledger) (batches : List Batch) : Ledger :=
  batches.foldl (fun l b => absorb l b.observed b.children) ledger

def eventsSeen (batches : List Batch) : List ObservedSubscriber :=
  batches.flatMap Batch.observed

/-- Every entry of the first table is an entry of the second. -/
def Grows (children children' : List (Pid × String)) : Prop :=
  ∀ pid name, children.lookup pid = some name → children'.lookup pid = some name

/-- No round leaves more events without a name than the ledger can keep. -/
def WithinCap : Ledger → List Batch → Prop
  | _, [] => True
  | ledger, b :: batches =>
    (backlog ledger b.observed b.children).length ≤ unattributedCap ∧
      WithinCap (absorb ledger b.observed b.children) batches

instance WithinCap.decidable : (ledger : Ledger) → (batches : List Batch) →
    Decidable (WithinCap ledger batches)
  | _, [] => inferInstanceAs (Decidable True)
  | ledger, b :: batches =>
    have := WithinCap.decidable (absorb ledger b.observed b.children) batches
    inferInstanceAs (Decidable (_ ∧ _))

variable {children children' : List (Pid × String)}

/-! ### One batch -/

theorem unnamed_iff {o : ObservedSubscriber} :
    unnamed children o = true ↔ attributeSubscriber o children = none := by
  simp [unnamed]

theorem take_take_append {α : Type*} (n : ℕ) (xs ys : List α) :
    (xs.take n ++ ys).take n = (xs ++ ys).take n := by
  rw [List.take_append, List.take_append, List.take_take, min_self]
  congr 1
  by_cases h : xs.length ≤ n
  · rw [List.take_of_length_le h]
  · have hlong : (xs.take n).length = n := by simp; omega
    have hzero : n - n = 0 := by omega
    have hneg : n - xs.length = 0 := by omega
    rw [hlong, hzero, hneg]

theorem foldl_fold_backlog (observed : List ObservedSubscriber) (ledger : Ledger)
    (hroom : ledger.unattributed.length ≤ unattributedCap) :
    (observed.foldl (Ledger.fold children) ledger).unattributed =
      (ledger.unattributed ++ observed.filter (unnamed children)).take unattributedCap := by
  induction observed generalizing ledger with
  | nil =>
    rw [List.foldl_nil, List.filter_nil, List.append_nil, List.take_of_length_le hroom]
  | cons o observed ih =>
    rw [List.foldl_cons]
    cases ha : attributeSubscriber o children with
    | some name =>
      have hfold : (Ledger.fold children ledger o).unattributed = ledger.unattributed := by
        simp only [Ledger.fold, ha]
      have hnamed : ¬ unnamed children o = true := by simp [unnamed, ha]
      rw [ih _ (by rw [hfold]; exact hroom), hfold, List.filter_cons_of_neg hnamed]
    | none =>
      have hun : unnamed children o = true := unnamed_iff.mpr ha
      rw [List.filter_cons_of_pos hun]
      by_cases hlt : ledger.unattributed.length < unattributedCap
      · have hfold : (Ledger.fold children ledger o).unattributed =
            ledger.unattributed ++ [o] := by
          simp only [Ledger.fold, ha, if_pos hlt]
        have hlen : (ledger.unattributed ++ [o]).length ≤ unattributedCap := by
          rw [List.length_append, List.length_singleton]
          omega
        rw [ih _ (by rw [hfold]; exact hlen), hfold, List.append_assoc, List.singleton_append]
      · -- the ledger is full: this event and all after it are dropped
        have hfold : (Ledger.fold children ledger o).unattributed = ledger.unattributed := by
          simp only [Ledger.fold, ha, if_neg hlt]
        have hfull : unattributedCap = ledger.unattributed.length := by omega
        rw [ih _ (by rw [hfold]; exact hroom), hfold, hfull, List.take_left, List.take_left]

theorem absorb_backlog (ledger : Ledger) (observed : List ObservedSubscriber) :
    (absorb ledger observed children).unattributed =
      (backlog ledger observed children).take unattributedCap := by
  have h := @foldl_fold_backlog children (ledger.unattributed ++ observed)
    ⟨ledger.confirmed, []⟩ (Nat.zero_le _)
  rw [List.nil_append] at h
  exact h

theorem Ledger.ext_mem {l l' : Ledger} (hnames : ∀ name, name ∈ l.confirmed ↔
    name ∈ l'.confirmed) (hbacklog : l.unattributed = l'.unattributed) : l = l' := by
  have hconfirmed : l.confirmed = l'.confirmed := Finset.ext hnames
  cases l
  cases l'
  rw [Ledger.mk.injEq]
  exact ⟨hconfirmed, hbacklog⟩

/-! ### Two batches against one table -/

theorem absorb_absorb (ledger : Ledger) (a b : List ObservedSubscriber) :
    absorb (absorb ledger a children) b children = absorb ledger (a ++ b) children := by
  apply Ledger.ext_mem
  · intro name
    simp only [absorb_confirmed, absorb_backlog, List.mem_append]
    constructor
    · rintro ((h | ⟨o, ho, hname⟩) | ⟨o, ho, hname⟩)
      · exact Or.inl h
      · exact Or.inr ⟨o, by tauto, hname⟩
      · rcases ho with ho | ho
        · -- what was kept named nobody, and the table has not changed
          have hun := (List.mem_filter.mp (List.mem_of_mem_take ho)).2
          rw [unnamed_iff.mp hun] at hname
          cases hname
        · exact Or.inr ⟨o, by tauto, hname⟩
    · rintro (h | ⟨o, ho, hname⟩)
      · exact Or.inl (Or.inl h)
      · rcases ho with ho | ho | ho
        · exact Or.inl (Or.inr ⟨o, Or.inl ho, hname⟩)
        · exact Or.inl (Or.inr ⟨o, Or.inr ho, hname⟩)
        · exact Or.inr ⟨o, Or.inr ho, hname⟩
  · rw [absorb_backlog, absorb_backlog, backlog, absorb_backlog, List.filter_append]
    have hkept : ((backlog ledger a children).take unattributedCap).filter (unnamed children) =
        (backlog ledger a children).take unattributedCap := by
      rw [List.filter_eq_self]
      intro o ho
      exact (List.mem_filter.mp (List.mem_of_mem_take ho)).2
    rw [hkept, take_take_append]
    simp only [backlog, List.filter_append, List.append_assoc]

/-! ### Any number of batches against growing tables -/

theorem Grows.attribute {o : ObservedSubscriber} {name : String} (hgrows : Grows children children')
    (h : attributeSubscriber o children = some name) :
    attributeSubscriber o children' = some name := by
  cases o with
  | named n => exact h
  | pid pid => exact hgrows pid name h
  | anonymous => cases h

/-- Where the events seen since `initial` are: named under the table, or waiting. -/
structure Heard (initial : Ledger) (seen : List ObservedSubscriber)
    (children : List (Pid × String)) (ledger : Ledger) : Prop where
  keeps : initial.confirmed ⊆ ledger.confirmed
  source : ∀ name ∈ ledger.confirmed, name ∈ initial.confirmed ∨
    ∃ o ∈ seen, attributeSubscriber o children = some name
  settled : ∀ o ∈ seen, o ∈ ledger.unattributed ∨
    ∃ name ∈ ledger.confirmed, attributeSubscriber o children = some name
  waiting : ledger.unattributed ⊆ seen

theorem Heard.start (initial : Ledger) :
    Heard initial initial.unattributed children initial where
  keeps := Finset.Subset.refl _
  source _ h := Or.inl h
  settled _ h := Or.inl h
  waiting := List.Subset.refl _

theorem Heard.batch {initial ledger : Ledger} {seen observed : List ObservedSubscriber}
    (h : Heard initial seen children ledger) (hgrows : Grows children children')
    (hcap : (backlog ledger observed children').length ≤ unattributedCap) :
    Heard initial (seen ++ observed) children' (absorb ledger observed children') := by
  have hkept : (absorb ledger observed children').unattributed =
      backlog ledger observed children' := by
    rw [absorb_backlog, List.take_of_length_le hcap]
  have hretried : ∀ o ∈ ledger.unattributed ++ observed,
      o ∈ (absorb ledger observed children').unattributed ∨
        ∃ name ∈ (absorb ledger observed children').confirmed,
          attributeSubscriber o children' = some name := by
    intro o ho
    cases ha : attributeSubscriber o children' with
    | none =>
      left
      rw [hkept]
      exact List.mem_filter.mpr ⟨ho, unnamed_iff.mpr ha⟩
    | some name => exact Or.inr ⟨name, absorb_confirmed.mpr (Or.inr ⟨o, ho, ha⟩), rfl⟩
  constructor
  · intro name hname
    exact absorb_confirmed.mpr (Or.inl (h.keeps hname))
  · intro name hname
    rcases absorb_confirmed.mp hname with hold | ⟨o, ho, ha⟩
    · rcases h.source name hold with hinit | ⟨o, ho, ha⟩
      · exact Or.inl hinit
      · exact Or.inr ⟨o, List.mem_append_left _ ho, hgrows.attribute ha⟩
    · rcases List.mem_append.mp ho with ho | ho
      · exact Or.inr ⟨o, List.mem_append_left _ (h.waiting ho), ha⟩
      · exact Or.inr ⟨o, List.mem_append_right _ ho, ha⟩
  · intro o ho
    rcases List.mem_append.mp ho with ho | ho
    · rcases h.settled o ho with hwait | ⟨name, hname, ha⟩
      · exact hretried o (List.mem_append_left _ hwait)
      · exact Or.inr ⟨name, absorb_confirmed.mpr (Or.inl hname), hgrows.attribute ha⟩
    · exact hretried o (List.mem_append_right _ ho)
  · rw [hkept]
    intro o ho
    rcases List.mem_append.mp (List.mem_filter.mp ho).1 with ho | ho
    · exact List.mem_append_left _ (h.waiting ho)
    · exact List.mem_append_right _ ho

/-- The tables of a run are the given one and then those of its batches, each grown from
the one before. -/
def GrowingFrom (children : List (Pid × String)) (batches : List Batch) : Prop :=
  (children :: batches.map Batch.children).IsChain Grows

theorem Heard.batches {initial ledger : Ledger} {seen : List ObservedSubscriber}
    (batches : List Batch) (last : Batch) (h : Heard initial seen children ledger)
    (hgrowing : GrowingFrom children (batches ++ [last]))
    (hcap : WithinCap ledger (batches ++ [last])) :
    Heard initial (seen ++ eventsSeen (batches ++ [last])) last.children
      (absorbAll ledger (batches ++ [last])) := by
  induction batches generalizing ledger seen children with
  | nil =>
    have hgrows : Grows children last.children :=
      (List.isChain_cons_cons.mp hgrowing).1
    have hone := h.batch hgrows hcap.1
    simpa [eventsSeen, absorbAll] using hone
  | cons b batches ih =>
    have hsplit := List.isChain_cons_cons.mp hgrowing
    have hone := h.batch hsplit.1 hcap.1
    have hrest := ih hone hsplit.2 hcap.2
    have hseen : eventsSeen (b :: batches ++ [last]) =
        b.observed ++ eventsSeen (batches ++ [last]) := by
      simp [eventsSeen]
    rw [hseen, ← List.append_assoc]
    exact hrest

/-- Cutting the events into batches changes nothing, and over growing tables whose
backlog stays within the cap exactly the names the last table gives are confirmed. -/
theorem absorb_batching :
    (∀ (ledger : Ledger) (a b : List ObservedSubscriber) (children : List (Pid × String)),
      absorb (absorb ledger a children) b children = absorb ledger (a ++ b) children) ∧
    ∀ (ledger : Ledger) (batches : List Batch) (last : Batch),
      ((batches ++ [last]).map Batch.children).IsChain Grows →
      WithinCap ledger (batches ++ [last]) →
      ∀ name, name ∈ (absorbAll ledger (batches ++ [last])).confirmed ↔
        name ∈ ledger.confirmed ∨
          ∃ o ∈ ledger.unattributed ++ eventsSeen (batches ++ [last]),
            attributeSubscriber o last.children = some name := by
  constructor
  · intro ledger a b children
    exact absorb_absorb ledger a b
  · intro ledger batches last hchain hcap name
    have hgrowing : GrowingFrom [] (batches ++ [last]) := by
      apply hchain.cons
      intro t _ pid name hname
      cases hname
    have hheard := (Heard.start ledger).batches batches last hgrowing hcap
    constructor
    · intro hname
      exact hheard.source name hname
    · rintro (hinit | ⟨o, ho, ha⟩)
      · exact hheard.keeps hinit
      · rcases hheard.settled o ho with hwait | ⟨found, hfound, hf⟩
        · -- a waiting event names nobody under the last table
          have hun : unnamed last.children o = true := by
            rw [absorbAll, List.foldl_append] at hwait
            have hkept := @absorb_backlog last.children
              (batches.foldl (fun l b => absorb l b.observed b.children) ledger) last.observed
            rw [List.foldl_cons, List.foldl_nil, hkept] at hwait
            exact (List.mem_filter.mp (List.mem_of_mem_take hwait)).2
          rw [unnamed_iff.mp hun] at ha
          cases ha
        · rw [hf] at ha
          rw [← Option.some.inj ha]
          exact hfound

theorem absorb_batching_late_pid :
    (absorbAll .default [⟨[.pid 7], []⟩, ⟨[.named "console"], [(7, "timer")]⟩]).confirmed =
      {"timer", "console"} := by
  have h := absorb_batching.2 .default [⟨[.pid 7], []⟩] ⟨[.named "console"], [(7, "timer")]⟩
    (by
      refine List.isChain_cons_cons.mpr ⟨?_, List.isChain_singleton _⟩
      intro pid name hname
      cases hname)
    (by decide)
  apply Finset.ext
  intro name
  rw [List.singleton_append] at h
  rw [h name]
  simp [eventsSeen, attributeSubscriber, Ledger.default, eq_comm]

end Emergent.Engine

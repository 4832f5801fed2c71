import Emergent.Kit.Runs

/-!
# What a run puts out, and servers of a queue

`outputs` collects, step by step, what a function of the state and the action
puts out along a run. A server is a part of a machine with a queue of jobs and
the rest of the program it is working on: jobs join at the end of the queue, a
job is taken up only when the program is done, and a program is performed one
operation at a time. Whatever else the machine does, the operations performed
are those of the jobs that arrived, in the order in which they arrived.
-/

namespace Kit

variable {σ α ο : Type*} {step : σ → α → Option σ}

/-! ### Outputs of a run -/

def outputs (step : σ → α → Option σ) (out : σ → α → List ο) : σ → List α → List ο
  | _, [] => []
  | s, a :: as => out s a ++ (step s a).elim [] fun t => outputs step out t as

variable {out : σ → α → List ο}

theorem outputs_append {s t : σ} {as : List α} (hr : run step s as = some t) (bs : List α) :
    outputs step out s (as ++ bs) = outputs step out s as ++ outputs step out t bs := by
  induction as generalizing s with
  | nil =>
    obtain rfl : s = t := by simpa [run] using hr
    rfl
  | cons a as ih =>
    obtain ⟨r, hr', ht⟩ := run_cons.mp hr
    simp only [List.cons_append, outputs, hr', Option.elim_some, ih ht, List.append_assoc]

theorem outputs_snoc {s t : σ} {as : List α} (hr : run step s as = some t) (a : α) :
    outputs step out s (as ++ [a]) = outputs step out s as ++ out t a := by
  rw [outputs_append hr]
  cases hstep : step t a <;> simp [outputs, hstep]

/-- An invariant of the actions so far and the state they reach, kept by each step
from a state that was reached. -/
theorem run_reached {I : List α → σ → Prop} {s : σ} (hs : I [] s)
    (hstep : ∀ as t a u, run step s as = some t → I as t → step t a = some u → I (as ++ [a]) u)
    {as : List α} {u : σ} (hr : run step s as = some u) : I as u := by
  have hboth : run step s as = some u ∧ I as u := by
    refine run_history (I := fun as t => run step s as = some t ∧ I as t) ⟨rfl, hs⟩ ?_ hr
    intro as t a u ht hu
    exact ⟨run_snoc.mpr ⟨t, ht.1, hu⟩, hstep as t a u ht.1 ht.2 hu⟩
  exact hboth.2

/-- What is put out at some step is put out in a state of the run. -/
theorem mem_outputs {s u : σ} {as : List α} (hr : run step s as = some u) {o : ο}
    (ho : o ∈ outputs step out s as) :
    ∃ before a after t, as = before ++ a :: after ∧ run step s before = some t ∧ o ∈ out t a := by
  induction as using List.reverseRecOn generalizing u with
  | nil => cases ho
  | append_singleton as a ih =>
    obtain ⟨t, ht, hu⟩ := run_snoc.mp hr
    rw [outputs_snoc ht] at ho
    rcases List.mem_append.mp ho with hold | hnew
    · obtain ⟨before, b, after, r, rfl, hbefore, hb⟩ := ih ht hold
      exact ⟨before, b, after ++ [a], r, by simp, hbefore, hb⟩
    · exact ⟨as, a, [], t, rfl, ht, hnew⟩

/-! ### Servers -/

variable {ρ κ ω : Type*}

/-- One step of the machine, as far as the server is concerned. The program of a
job depends on what is read when the job is taken up. -/
inductive Served (program : ρ → κ → List ω) (queue queue' : List κ) (left left' : List ω)
    (arrived : List κ) (took : List (ρ × κ)) (performed : List ω) : Prop where
  | arrive (hqueue : queue' = queue ++ arrived) (hleft : left' = left) (htook : took = [])
      (hnone : performed = [])
  | take (reading : ρ) (job : κ) (hidle : left = []) (hqueue : queue = job :: queue')
      (hleft : left' = program reading job) (harrived : arrived = [])
      (htook : took = [(reading, job)]) (hnone : performed = [])
  | perform (op : ω) (hleft : left = op :: left') (hqueue : queue' = queue)
      (harrived : arrived = []) (htook : took = []) (hone : performed = [op])

/-- The jobs taken up are the first that arrived, and what is performed and what
is left to perform are their programs. -/
def InOrder (program : ρ → κ → List ω) (taken : List (ρ × κ)) (arrived queue : List κ)
    (performed left : List ω) : Prop :=
  arrived = taken.map Prod.snd ++ queue ∧
    (taken.flatMap fun e => program e.1 e.2) = performed ++ left

variable {program : ρ → κ → List ω} {queue queue' arrived more : List κ} {taken took : List (ρ × κ)}
  {left left' performed done : List ω}

theorem inOrder_start : InOrder program [] [] [] [] [] := ⟨rfl, rfl⟩

theorem InOrder.serve (h : InOrder program taken arrived queue performed left)
    (hserved : Served program queue queue' left left' more took done) :
    InOrder program (taken ++ took) (arrived ++ more) queue' (performed ++ done) left' := by
  obtain ⟨harrived, hprograms⟩ := h
  cases hserved with
  | arrive hqueue hleft htook hnone =>
    refine ⟨?_, ?_⟩
    · rw [harrived, hqueue, htook, List.append_nil, List.append_assoc]
    · rw [htook, List.append_nil, hprograms, hleft, hnone, List.append_nil]
  | take reading job hidle hqueue hleft hmore htook hnone =>
    refine ⟨?_, ?_⟩
    · rw [harrived, hqueue, hmore, htook]
      simp
    · rw [htook, List.flatMap_append, hprograms, hidle, hleft, hnone]
      simp
  | perform op hleft hqueue hmore htook hone =>
    refine ⟨?_, ?_⟩
    · rw [harrived, hqueue, hmore, htook, List.append_nil, List.append_nil]
    · rw [htook, List.append_nil, hprograms, hleft, hone]
      simp

/-- A job that was taken up arrived, and an operation of it that is not left to
perform was performed. -/
theorem InOrder.mem_performed (h : InOrder program taken arrived queue performed left) {op : ω}
    (hop : op ∈ performed) : ∃ e ∈ taken, e.2 ∈ arrived ∧ op ∈ program e.1 e.2 := by
  have hmem : op ∈ taken.flatMap fun e => program e.1 e.2 := by
    rw [h.2]
    exact List.mem_append_left left hop
  obtain ⟨e, htaken, hjob⟩ := List.mem_flatMap.mp hmem
  refine ⟨e, htaken, ?_, hjob⟩
  rw [h.1]
  exact List.mem_append_left queue (List.mem_map_of_mem htaken)

/-! ### Turns

A turn of the server takes up a job or performs an operation. When no program is
longer than `k` operations, `k + 1` turns a job are enough, whatever order the rest
of the machine gives them. -/

/-- What is left to perform belongs to the job taken up last. -/
def AtHand (program : ρ → κ → List ω) (taken : List (ρ × κ)) (left : List ω) : Prop :=
  left = [] ∨ ∃ earlier e, taken = earlier ++ [e] ∧ left <:+ program e.1 e.2

theorem atHand_start : AtHand program [] [] := Or.inl rfl

theorem AtHand.serve (h : AtHand program taken left)
    (hserved : Served program queue queue' left left' more took done) :
    AtHand program (taken ++ took) left' := by
  cases hserved with
  | arrive hqueue hleft htook hnone =>
    rw [hleft, htook, List.append_nil]
    exact h
  | take reading job hidle hqueue hleft hmore htook hnone =>
    refine Or.inr ⟨taken, (reading, job), by rw [htook], ?_⟩
    rw [hleft]
  | perform op hleft hqueue hmore htook hone =>
    rw [htook, List.append_nil]
    rcases h with hidle | ⟨earlier, e, htaken, hsuffix⟩
    · rw [hleft] at hidle
      cases hidle
    · rw [hleft] at hsuffix
      exact Or.inr ⟨earlier, e, htaken, (List.suffix_cons op left').trans hsuffix⟩

theorem length_programs_le {k : ℕ} (h : ∀ e ∈ taken, (program e.1 e.2).length ≤ k) :
    (taken.flatMap fun e => program e.1 e.2).length ≤ k * taken.length := by
  induction taken with
  | nil => exact Nat.zero_le _
  | cons e taken ih =>
    have hhead := h e List.mem_cons_self
    have htail := ih fun x hx => h x (List.mem_cons_of_mem e hx)
    rw [List.flatMap_cons, List.length_append, List.length_cons, Nat.mul_succ]
    omega

/-- After `k + 1` turns for each of them, the first jobs are served to their end. -/
theorem InOrder.performed_of_turns (h : InOrder program taken arrived queue performed left)
    (hhand : AtHand program taken left) {k n : ℕ}
    (hshort : ∀ e ∈ taken, (program e.1 e.2).length ≤ k)
    (hturns : (k + 1) * n ≤ taken.length + performed.length) :
    n ≤ taken.length ∧ ((taken.take n).flatMap fun e => program e.1 e.2) <+: performed := by
  have hlength := congrArg List.length h.2
  rw [List.length_append] at hlength
  have hbound := length_programs_le hshort
  have hn : n ≤ taken.length := by
    refine Nat.le_of_mul_le_mul_left (c := k + 1) ?_ (Nat.succ_pos k)
    rw [Nat.succ_mul k taken.length]
    omega
  have hfirst : ((taken.take n).flatMap fun e => program e.1 e.2) <+: performed ++ left := by
    rw [← h.2]
    conv_rhs => rw [← List.take_append_drop n taken, List.flatMap_append]
    exact List.prefix_append _ _
  refine ⟨hn, List.prefix_of_prefix_length_le hfirst (List.prefix_append performed left) ?_⟩
  rcases hn.lt_or_eq with hlt | rfl
  -- a job was taken up after the first `n`, so what is left is of a later one
  · rcases hhand with rfl | ⟨earlier, e, rfl, hsuffix⟩
    · rw [List.append_nil] at hfirst
      exact hfirst.length_le
    · have hin : n ≤ earlier.length := by
        rw [List.length_append, List.length_singleton] at hlt
        omega
      have htake : ((earlier.take n).flatMap fun e => program e.1 e.2).length ≤
          (earlier.flatMap fun e => program e.1 e.2).length := by
        conv_rhs => rw [← List.take_append_drop n earlier, List.flatMap_append, List.length_append]
        exact Nat.le_add_right _ _
      rw [List.take_append_of_le_length hin]
      rw [List.flatMap_append, List.flatMap_singleton, List.length_append] at hlength
      have hleft := hsuffix.length_le
      omega
  · rw [List.take_length]
    rw [Nat.succ_mul] at hturns
    omega

/-! ### Handing on

A producer that has its messages ready puts them one by one into the queue of a
consumer, which takes them in order. However the two take turns, the consumer is
where a first part of the messages leads it. -/

variable {μ τ : Type*} {take : τ → μ → τ} {init : τ} {all inbox toSend rest : List μ}
  {t : τ} {m : μ}

def HandedOn (take : τ → μ → τ) (init : τ) (all inbox toSend : List μ) (t : τ) : Prop :=
  ∃ taken, all = taken ++ inbox ++ toSend ∧ t = taken.foldl take init

theorem handedOn_start (take : τ → μ → τ) (init : τ) (all : List μ) :
    HandedOn take init all [] all init := ⟨[], rfl, rfl⟩

theorem HandedOn.send (h : HandedOn take init all inbox (m :: rest) t) :
    HandedOn take init all (inbox ++ [m]) rest t := by
  obtain ⟨taken, hall, ht⟩ := h
  exact ⟨taken, by simp [hall], ht⟩

theorem HandedOn.receive (h : HandedOn take init all (m :: rest) toSend t) :
    HandedOn take init all rest toSend (take t m) := by
  obtain ⟨taken, hall, ht⟩ := h
  exact ⟨taken ++ [m], by simp [hall], by rw [List.foldl_concat, ht]⟩

/-- A consumer that shows something only once it has the last message has them all,
and nothing is left to come. -/
theorem HandedOn.finished {P : τ → Prop} {last : μ}
    (h : HandedOn take init (all ++ [last]) inbox toSend t)
    (hlast : ∀ taken, taken <+: all → ¬ P (taken.foldl take init)) (ht : P t) :
    t = (all ++ [last]).foldl take init ∧ inbox = [] ∧ toSend = [] := by
  obtain ⟨taken, hall, hfold⟩ := h
  rw [hfold] at ht ⊢
  rcases List.eq_nil_or_concat (inbox ++ toSend) with hnil | ⟨before, x, hrest⟩
  · refine ⟨?_, List.append_eq_nil_iff.mp hnil⟩
    rw [hall, List.append_assoc, hnil, List.append_nil]
  · rw [List.append_assoc, hrest, List.concat_eq_append, ← List.append_assoc] at hall
    exact absurd ht (hlast taken ⟨before, (List.append_inj_left' hall rfl).symm⟩)

end Kit

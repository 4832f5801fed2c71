import Emergent.Kit.Splits

/-!
# Write ahead

Records are written to a family of logs and released, one way or another, to
the outside. A trace is disciplined when every release of a record comes after
that record was written to each log. A program is a list of writes and
releases; `Ready` says that running it with no failing write keeps the
discipline, given the records that are already durable.
-/

namespace Kit.WriteAhead

variable {κ ω μ : Type*}

inductive Event (κ ω μ : Type*) where
  | wrote (log : κ) (x : μ)
  | released (way : ω) (x : μ)

inductive Op (ω μ : Type*) where
  | write (x : μ)
  | release (way : ω) (x : μ)

def Durable (logs : κ → Prop) (trace : List (Event κ ω μ)) (x : μ) : Prop :=
  ∀ k, logs k → Event.wrote k x ∈ trace

/-- At every release the record was durable already. -/
def Disciplined (logs : κ → Prop) (trace : List (Event κ ω μ)) : Prop :=
  ∀ before way x after, trace = before ++ Event.released way x :: after → Durable logs before x

/-- Every release left in the program is of a record that is durable (`P`) or
that the program writes first. -/
def Ready (P : μ → Prop) : List (Op ω μ) → Prop
  | [] => True
  | .write x :: ops => Ready (fun y => P y ∨ y = x) ops
  | .release _ x :: ops => P x ∧ Ready P ops

variable {logs : κ → Prop} {trace more : List (Event κ ω μ)} {x : μ}

theorem Durable.append (h : Durable logs trace x) : Durable logs (trace ++ more) x :=
  fun k hk => List.mem_append_left more (h k hk)

theorem Durable.of_wrote (h : ∀ k, logs k → Event.wrote k x ∈ more) :
    Durable logs (trace ++ more) x :=
  fun k hk => List.mem_append_right trace (h k hk)

theorem disciplined_nil : Disciplined logs ([] : List (Event κ ω μ)) := by
  intro before way x after h
  cases before <;> cases h

theorem Disciplined.snoc {e : Event κ ω μ} (h : Disciplined logs trace)
    (he : ∀ way x, e = .released way x → Durable logs trace x) :
    Disciplined logs (trace ++ [e]) := by
  intro before way x after heq
  rcases split_snoc heq with ⟨hbefore, hlast⟩ | ⟨rest, hrest⟩
  · rw [hbefore]
    exact he way x hlast.symm
  · exact h before way x rest hrest

theorem Disciplined.append_wrote (h : Disciplined logs trace)
    (hmore : ∀ e ∈ more, ∃ k y, e = .wrote k y) : Disciplined logs (trace ++ more) := by
  induction more generalizing trace with
  | nil => simpa using h
  | cons e more ih =>
    obtain ⟨k, y, rfl⟩ := hmore e List.mem_cons_self
    have hsnoc : Disciplined logs (trace ++ [.wrote k y]) := by
      refine h.snoc ?_
      intro way x hx
      cases hx
    have := ih hsnoc fun e he => hmore e (List.mem_cons_of_mem _ he)
    simpa using this

theorem Disciplined.wrote_of_released (h : Disciplined logs trace) {way : ω}
    (hx : Event.released way x ∈ trace) {k : κ} (hk : logs k) : Event.wrote k x ∈ trace := by
  obtain ⟨before, after, rfl⟩ := List.append_of_mem hx
  exact List.mem_append_left _ (h before way x after rfl k hk)

theorem Ready.mono {P Q : μ → Prop} (hPQ : ∀ y, P y → Q y) {ops : List (Op ω μ)}
    (h : Ready P ops) : Ready Q ops := by
  induction ops generalizing P Q with
  | nil => trivial
  | cons op ops ih =>
    cases op with
    | write x => exact ih (fun y hy => hy.imp (hPQ y) id) h
    | release way x => exact ⟨hPQ x h.1, ih hPQ h.2⟩

end Kit.WriteAhead

import Mathlib.Order.Defs.Unbundled
import Mathlib.Tactic

/-!
# Computations that may fail half way

A computation on a state ends in a value or in an error, and either way leaves
the state it has reached: a failure undoes nothing. The rules invert a sequence
and lift a relation between the states before and after each step to the whole.
-/

namespace Kit

def Fallible (ε σ α : Type) : Type := σ → Except ε α × σ

namespace Fallible

variable {ε σ α β : Type}

instance : Monad (Fallible ε σ) where
  pure a := fun s => (.ok a, s)
  bind x f := fun s =>
    match x s with
    | (.ok a, t) => f a t
    | (.error e, t) => (.error e, t)

def fail (e : ε) : Fallible ε σ α := fun s => (.error e, s)

/-- Look at the state, and fail or go on by what is found there. -/
def inspect (f : σ → Except ε α) : Fallible ε σ α := fun s => (f s, s)

def update (f : σ → σ) : Fallible ε σ Unit := fun s => (.ok (), f s)

variable {x : Fallible ε σ α} {f : α → Fallible ε σ β} {s t : σ} {a : α} {b : β} {e : ε}

theorem bind_of_ok (h : x s = (.ok a, t)) : (x >>= f) s = f a t := by
  change (match x s with
    | (.ok a, t) => f a t
    | (.error e, t) => (.error e, t)) = f a t
  rw [h]

theorem bind_of_error (h : x s = (.error e, t)) : (x >>= f) s = (.error e, t) := by
  change (match x s with
    | (.ok a, t) => f a t
    | (.error e, t) => (.error e, t)) = (.error e, t)
  rw [h]

theorem bind_look (g : σ → α) : ((inspect fun s => .ok (g s)) >>= f) s = f (g s) s :=
  bind_of_ok rfl

/-- An answer that the state has no part in. -/
theorem bind_answer_ok {r : Except ε α} (h : r = .ok a) : ((inspect fun _ => r) >>= f) s = f a s :=
  bind_of_ok (by rw [inspect, h])

theorem bind_answer_error {r : Except ε α} (h : r = .error e) :
    ((inspect fun _ => r) >>= f) s = (.error e, s) :=
  bind_of_error (by rw [inspect, h])

/-- A sequence ends as its first part fails or as the rest of it ends. -/
theorem bind_cases (x : Fallible ε σ α) (f : α → Fallible ε σ β) (s : σ) :
    (∃ e t, x s = (.error e, t) ∧ (x >>= f) s = (.error e, t)) ∨
      ∃ a t, x s = (.ok a, t) ∧ (x >>= f) s = f a t := by
  rcases hx : x s with ⟨r, t⟩
  cases r with
  | error e => exact Or.inl ⟨e, t, rfl, bind_of_error hx⟩
  | ok a => exact Or.inr ⟨a, t, rfl, bind_of_ok hx⟩

theorem bind_eq_ok {u : σ} :
    (x >>= f) s = (.ok b, u) ↔ ∃ a t, x s = (.ok a, t) ∧ f a t = (.ok b, u) := by
  constructor
  · intro h
    rcases bind_cases x f s with ⟨e, t, _, hbind⟩ | ⟨a, t, hx, hbind⟩
    · rw [hbind] at h
      cases (Prod.mk.inj h).1
    · exact ⟨a, t, hx, by rw [← hbind, h]⟩
  · rintro ⟨a, t, hx, hf⟩
    rw [bind_of_ok hx, hf]

theorem eq_of_result {r : Except ε α} (h : (x s).1 = r) : x s = (r, (x s).2) :=
  Prod.ext h rfl

/-! ### What every step keeps -/

/-- However the computation ends, the relation holds from the state before to the
one it leaves. -/
def Keeps (R : σ → σ → Prop) (x : Fallible ε σ α) : Prop := ∀ s, R s (x s).2

variable {R S : σ → σ → Prop}

theorem Keeps.mono (h : Keeps R x) (hRS : ∀ s t, R s t → S s t) : Keeps S x :=
  fun s => hRS _ _ (h s)

theorem Keeps.pure [Std.Refl R] (a : α) : Keeps R (Pure.pure a : Fallible ε σ α) := refl_of R

theorem Keeps.fail [Std.Refl R] (e : ε) : Keeps R (Fallible.fail e : Fallible ε σ α) := refl_of R

theorem Keeps.inspect [Std.Refl R] (f : σ → Except ε α) : Keeps R (Fallible.inspect f) := refl_of R

theorem Keeps.update {f : σ → σ} (h : ∀ s, R s (f s)) :
    Keeps R (Fallible.update f : Fallible ε σ Unit) := h

/-- From one state on: the rest of a sequence matters where its first part ends
well. -/
theorem leaves_bind [IsTrans σ R] (hx : R s (x s).2)
    (hf : ∀ a t, x s = (.ok a, t) → R t (f a t).2) : R s ((x >>= f) s).2 := by
  rcases bind_cases x f s with ⟨e, t, hend, hbind⟩ | ⟨a, t, hend, hbind⟩
  · rw [hbind]
    rwa [hend] at hx
  · rw [hend] at hx
    rw [hbind]
    exact trans_of R hx (hf a t hend)

theorem Keeps.bind [IsTrans σ R] (hx : Keeps R x) (hf : ∀ a, Keeps R (f a)) :
    Keeps R (x >>= f) :=
  fun s => leaves_bind (hx s) fun a t _ => hf a t

/-- What the rest of a sequence keeps holds from the state it starts in. -/
theorem Keeps.rest [Std.Refl R] (hf : ∀ a, Keeps R (f a)) (x : Fallible ε σ α) (s : σ) :
    R (x s).2 ((x >>= f) s).2 := by
  rcases bind_cases x f s with ⟨e, t, hx, hbind⟩ | ⟨a, t, hx, hbind⟩
  · rw [hx, hbind]
    exact refl_of R t
  · rw [hx, hbind]
    exact hf a t

theorem Keeps.of_eq (h : Keeps R x) {r : Except ε α} (hx : x s = (r, t)) : R s t := by
  have hs := h s
  rwa [hx] at hs

/-! ### Lists without a state

`Except` is the case of a computation that reads no state. -/

section
variable {f : α → Except ε β} {l : List α}

theorem ok_of_bind {x : Except ε α} {b : β} (h : (x >>= f) = .ok b) :
    ∃ a, x = .ok a ∧ f a = .ok b := by
  cases x with
  | error e => cases h
  | ok a => exact ⟨a, rfl, h⟩

theorem mapM_ok {bs : List β} (h : l.mapM f = .ok bs) : l.map f = bs.map .ok := by
  induction l generalizing bs with
  | nil =>
    have hnil : [] = bs := Except.ok.inj h
    rw [← hnil]
    rfl
  | cons a l ih =>
    rw [List.mapM_cons] at h
    cases ha : f a with
    | error e =>
      rw [ha] at h
      cases h
    | ok b =>
      rw [ha] at h
      cases hl : l.mapM f with
      | error e =>
        rw [hl] at h
        cases h
      | ok rest =>
        rw [hl] at h
        have hbs : b :: rest = bs := Except.ok.inj h
        rw [← hbs, List.map_cons, List.map_cons, ha, ih hl]

theorem mapM_error {e : ε} (h : l.mapM f = .error e) : ∃ a ∈ l, f a = .error e := by
  induction l with
  | nil => cases h
  | cons a l ih =>
    rw [List.mapM_cons] at h
    cases ha : f a with
    | error e' =>
      rw [ha] at h
      have he : e' = e := Except.error.inj h
      exact ⟨a, List.mem_cons_self, by rw [ha, he]⟩
    | ok b =>
      rw [ha] at h
      cases hl : l.mapM f with
      | error e' =>
        rw [hl] at h
        have he : e' = e := Except.error.inj h
        obtain ⟨a', ha', hf⟩ := ih (by rw [hl, he])
        exact ⟨a', List.mem_cons_of_mem _ ha', hf⟩
      | ok rest =>
        rw [hl] at h
        cases h

theorem mapM_eq_ok (h : ∀ a ∈ l, ∃ b, f a = .ok b) :
    ∃ bs, l.mapM f = .ok bs ∧ ∀ b, b ∈ bs ↔ ∃ a ∈ l, f a = .ok b := by
  cases hl : l.mapM f with
  | error e =>
    obtain ⟨a, ha, he⟩ := mapM_error hl
    obtain ⟨b, hb⟩ := h a ha
    rw [he] at hb
    cases hb
  | ok bs =>
    refine ⟨bs, rfl, fun b => ?_⟩
    have hmem : b ∈ bs ↔ Except.ok b ∈ l.map f := by
      rw [mapM_ok hl]
      exact (List.mem_map_of_injective fun _ _ h => Except.ok.inj h).symm
    rw [hmem, List.mem_map]

end

end Fallible

end Kit

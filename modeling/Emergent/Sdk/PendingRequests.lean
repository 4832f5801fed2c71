import Emergent.Kit.Runs
import Emergent.Kit.Table

/-!
# Pending requests (`sdks/ts/src/client.ts`, `sdks/go/client.go`, `sdks/py/emergent/_client.py`)

A request is a record; the table of the client maps its correlation id to it.
TypeScript and Python run one turn of the event loop at a time. In Go a step is
one critical section of `c.mu` with the code of the same goroutine around it:
an exit stops the timer and removes the entry in one step, and a timer that
fires runs its callback in a later one. Correlation ids are unique TypeIDs.
-/

namespace Emergent.Sdk.PendingRequests
open Kit

inductive Client where
  | typeScript
  | go
  | python
  deriving Repr, DecidableEq

/-- A timer that fires in Go has left `Stop` behind: its callback will run. -/
inductive Timer where
  | armed
  | firing
  | stopped
  deriving Repr, DecidableEq

/-- How a request ends, for its caller or in its promise, channel or future. -/
inductive Outcome (ρ : Type) where
  | response (correlationId : String) (body : ρ)
  | timedOut
  | cancelled
  | encodeFailed
  | sendFailed
  | notConnected
  | connectionClosed
  deriving Repr, DecidableEq

/-- Python catches `Exception`: neither a response nor a cancellation is one. -/
def Outcome.isException {ρ : Type} : Outcome ρ → Bool
  | .response _ _ | .cancelled => false
  | _ => true

/-- Where the call is: between the timer and the registration, before the
encoder, in the write, at the wait for the answer, or gone. -/
inductive Stage (ρ : Type) where
  | arming
  | encoding
  | sending
  | waiting
  | returned (outcome : Outcome ρ)
  deriving Repr, DecidableEq

/-- `settled` is the state of the promise, the buffered channel or the future.
A caller in TypeScript holds the promise; in Go and Python it is in the call. -/
structure Request (ρ : Type) where
  correlationId : String
  encodes : Bool
  timer : Timer
  settled : Option (Outcome ρ)
  stage : Stage ρ
  deriving Repr, DecidableEq

section
variable {ρ : Type}

namespace Request

/-- `clearTimeout`, `timer.Stop`, `timer.cancel`. -/
def stop (r : Request ρ) : Request ρ :=
  { r with timer := if r.timer = .armed then .stopped else r.timer }

/-- A promise, a channel of one place and a future take the first outcome only. -/
def settle (r : Request ρ) (o : Outcome ρ) : Request ρ :=
  { r with settled := r.settled.or (some o) }

def ret (r : Request ρ) (o : Outcome ρ) : Request ρ := { r with stage := .returned o }

end Request

abbrev State (ρ : Type) := Table String (Request ρ)

/-- What happens to one request: its own steps, and the firing of its timer. -/
inductive Event where
  | register (connected : Bool)
  | encode
  | written
  | writeFails
  | cancel
  | resume
  | expire
  | timeout
  deriving Repr, DecidableEq

/-- The request afterwards, with its entry as it was, deleted, or set. -/
inductive Effect (ρ : Type) where
  | keep (r : Request ρ)
  | drop (r : Request ρ)
  | enter (r : Request ρ)
  deriving Repr, DecidableEq

def Effect.request : Effect ρ → Request ρ
  | .keep r | .drop r | .enter r => r

/-! ### The three clients -/

namespace TypeScript

/-- `#sendRequest`: a throw of `encodeFrame` inside the executor rejects the
promise and skips the rest. -/
def sendRequest (s : State ρ) (correlationId : String) (encodes : Bool) : State ρ :=
  let r : Request ρ :=
    if encodes then ⟨correlationId, encodes, .armed, none, .sending⟩
    else ⟨correlationId, encodes, .armed, some .encodeFailed, .waiting⟩
  (s.push r).enter correlationId s.records.length

def act (r : Request ρ) : Event → Option (Effect ρ)
  | .written =>
    match r.stage with
    | .sending => some (.keep { r with stage := .waiting })
    | _ => none
  | .writeFails =>
    match r.stage with
    | .sending => some (.drop { r.stop.settle .sendFailed with stage := .waiting })
    | _ => none
  | .timeout =>
    match r.timer with
    | .armed => some (.drop (r.stop.settle .timedOut))
    | _ => none
  | _ => none

end TypeScript

namespace Go

/-- `sendRequest` up to its first lock: the timer runs before the request is
registered. -/
def sendRequest (s : State ρ) (correlationId : String) (encodes : Bool) : State ρ :=
  s.push ⟨correlationId, encodes, .armed, none, .arming⟩

/-- `present`: the table has an entry under the correlation id. -/
def act (present : Bool) (r : Request ρ) : Event → Option (Effect ρ)
  | .register connected =>
    match r.stage with
    | .arming =>
      if connected then some (.enter { r with stage := .encoding })
      else some (.keep (r.stop.ret .notConnected))
    | _ => none
  | .encode =>
    match r.stage with
    | .encoding =>
      if r.encodes then some (.keep { r with stage := .sending })
      else some (.drop (r.stop.ret .encodeFailed))
    | _ => none
  | .written =>
    match r.stage with
    | .sending => some (.keep { r with stage := .waiting })
    | _ => none
  | .writeFails =>
    match r.stage with
    | .sending => some (.drop (r.stop.ret .sendFailed))
    | _ => none
  | .cancel =>
    match r.stage with
    | .waiting => some (.drop (r.stop.ret .cancelled))
    | _ => none
  | .resume =>
    match r.stage, r.settled with
    | .waiting, some o => some (.keep (r.stop.ret o))
    | _, _ => none
  | .expire =>
    match r.timer with
    | .armed => some (.keep { r with timer := .firing })
    | _ => none
  | .timeout =>
    match r.timer with
    | .firing =>
      if present then some (.drop ({ r with timer := .stopped }.settle .timedOut))
      else some (.keep { r with timer := .stopped })
    | _ => none

end Go

namespace Python

/-- `_send_request` up to its first `await`; what the encoder raises is caught
and takes the entry and the timer away again. -/
def sendRequest (s : State ρ) (correlationId : String) (encodes : Bool) : State ρ :=
  let r : Request ρ := ⟨correlationId, encodes, .armed, none, .sending⟩
  if encodes then (s.push r).enter correlationId s.records.length
  else ((s.push (r.stop.ret .encodeFailed)).enter correlationId s.records.length).forget
    correlationId

/-- A cancellation is a `CancelledError`, which no `except Exception` catches. -/
def act (r : Request ρ) : Event → Option (Effect ρ)
  | .written =>
    match r.stage with
    | .sending => some (.keep { r with stage := .waiting })
    | _ => none
  | .writeFails =>
    match r.stage with
    | .sending => some (.drop (r.stop.ret .sendFailed))
    | _ => none
  | .cancel =>
    match r.stage with
    | .sending => some (.keep (r.ret .cancelled))
    | .waiting => some (.keep ((r.settle .cancelled).ret .cancelled))
    | _ => none
  | .resume =>
    match r.stage, r.settled with
    | .waiting, some o =>
      if o.isException then some (.drop (r.stop.ret o)) else some (.keep (r.ret o))
    | _, _ => none
  | .timeout =>
    match r.timer with
    | .armed => some (.drop (r.stop.settle .timedOut))
    | _ => none
  | _ => none

end Python

/-- `#settleResponse`, `handleResponse`, `_settle_response`. -/
def settleResponse (s : State ρ) (correlationId : String) (body : ρ) : State ρ :=
  match s.entries.lookup correlationId with
  | none => s
  | some i =>
    match s.records[i]? with
    | none => s
    | some r =>
      (s.put i (r.stop.settle (.response correlationId body))).forget correlationId

/-- `#failEverythingPending`, `failPending`, `_fail_everything_pending`. -/
def failEverythingPending (s : State ρ) : State ρ where
  records := s.entries.foldl
    (fun records e => records.modify e.2 fun r => r.stop.settle .connectionClosed) s.records
  entries := []

inductive Action (ρ : Type) where
  | call (correlationId : String) (encodes : Bool)
  | event (request : ℕ) (e : Event)
  | response (correlationId : String) (body : ρ)
  | connectionEnds
  deriving Repr, DecidableEq

def sendRequest : Client → State ρ → String → Bool → State ρ
  | .typeScript => TypeScript.sendRequest
  | .go => Go.sendRequest
  | .python => Python.sendRequest

def act : Client → Bool → Request ρ → Event → Option (Effect ρ)
  | .typeScript, _ => TypeScript.act
  | .go, present => Go.act present
  | .python, _ => Python.act

def apply (s : State ρ) (i : ℕ) : Effect ρ → State ρ
  | .keep r => s.put i r
  | .drop r => (s.put i r).forget r.correlationId
  | .enter r => (s.put i r).enter r.correlationId i

def step (client : Client) (s : State ρ) : Action ρ → Option (State ρ)
  | .call correlationId encodes =>
    if s.records.any fun r => r.correlationId == correlationId then none
    else some (sendRequest client s correlationId encodes)
  | .event i e => do
    let r ← s.records[i]?
    let effect ← act client (s.entries.lookup r.correlationId).isSome r e
    return apply s i effect
  | .response correlationId body => some (settleResponse s correlationId body)
  | .connectionEnds => some (failEverythingPending s)

/-! ### What is asked of the table -/

/-- The caller has no answer and has not left, and the timer can still fire. -/
def Kept (r : Request ρ) : Prop :=
  r.settled = none ∧ r.timer ≠ .stopped ∧ ∀ o, r.stage ≠ .returned o

/-- Every entry belongs to a caller that still waits under it with its timer. -/
def Tidy (s : State ρ) : Prop :=
  ∀ (correlationId : String) (i : ℕ), (correlationId, i) ∈ s.entries →
    ∃ r, s.records[i]? = some r ∧ r.correlationId = correlationId ∧ Kept r

/-- The action is the request's own response, timeout, cancellation or failure,
or the end of the connection. -/
def Causes (a : Action ρ) (i : ℕ) (correlationId : String) : Outcome ρ → Prop
  | .response c body => c = correlationId ∧ a = .response correlationId body
  | .timedOut => a = .event i .timeout
  | .cancelled => a = .event i .cancel
  | .encodeFailed => a = .call correlationId false ∨ a = .event i .encode
  | .sendFailed => a = .event i .writeFails
  | .notConnected => a = .event i (.register false)
  | .connectionClosed => a = .connectionEnds

/-- A later record of a request has every outcome of the earlier one. -/
structure Final (r r' : Request ρ) : Prop where
  key : r'.correlationId = r.correlationId
  settled : ∀ o, r.settled = some o → r'.settled = some o
  returned : ∀ o, r.stage = .returned o → r'.stage = .returned o

/-- The whole demand on a run: the table is tidy in every state it passes
through, no outcome ever changes, and each has a cause of its own. -/
structure SettlesOnce (client : Client) (actions : List (Action ρ)) (s : State ρ) : Prop where
  tidy : Throughout (step client) Tidy Table.empty actions
  once : ∀ more u, run (step client) s more = some u → ∀ (i : ℕ) (r : Request ρ),
    s.records[i]? = some r → ∃ r', u.records[i]? = some r' ∧ Final r r'
  own : ∀ (i : ℕ) (r : Request ρ) (o : Outcome ρ), s.records[i]? = some r →
    r.settled = some o ∨ r.stage = .returned o → ∃ a ∈ actions, Causes a i r.correlationId o

/-- What the code relies on. TypeScript: the encoder takes the payload. Go: the
timer has not run when the request is registered. Python: a caller is cancelled
only when its entry is gone. -/
def AllowedAt (client : Client) (r : Request ρ) (listed : Prop) : Event → Prop
  | .register connected => client = .go → connected = true → r.timer ≠ .stopped
  | .cancel => client = .python → ¬ listed
  | _ => True

def Allowed (client : Client) (s : State ρ) : Action ρ → Prop
  | .call _ encodes => client = .typeScript → encodes = true
  | .event i e => ∀ r, s.records[i]? = some r → AllowedAt client r (s.Listed i) e
  | _ => True

instance (client : Client) (r : Request ρ) (listed : Prop) [Decidable listed] :
    (e : Event) → Decidable (AllowedAt client r listed e)
  | .register _ => inferInstanceAs (Decidable (_ → _ → _))
  | .cancel => inferInstanceAs (Decidable (_ → ¬ _))
  | .encode | .written | .writeFails | .resume | .expire | .timeout =>
    inferInstanceAs (Decidable True)

instance (client : Client) (s : State ρ) : (a : Action ρ) → Decidable (Allowed client s a)
  | .call _ _ => inferInstanceAs (Decidable (_ → _))
  | .event i e =>
    inferInstanceAs (Decidable (∀ r ∈ s.records[i]?, AllowedAt client r (s.Listed i) e))
  | .response _ _ | .connectionEnds => inferInstanceAs (Decidable True)

/-! ### What an action does to one record -/

theorem Final.refl (r : Request ρ) : Final r r := ⟨rfl, fun _ => id, fun _ => id⟩

theorem Final.trans {r r' r'' : Request ρ} (h : Final r r') (h' : Final r' r'') : Final r r'' where
  key := h'.key.trans h.key
  settled o ho := h'.settled o (h.settled o ho)
  returned o ho := h'.returned o (h.returned o ho)

structure Moves (a : Action ρ) (i : ℕ) (r r' : Request ρ) : Prop extends Final r r' where
  settledBy : ∀ o, r'.settled = some o → r.settled = some o ∨ Causes a i r.correlationId o
  returnedBy : ∀ o, r'.stage = .returned o →
    r.stage = .returned o ∨ r.settled = some o ∨ Causes a i r.correlationId o
  armingBy : r'.stage = .arming → r.stage = .arming ∧ r'.settled = r.settled

theorem Moves.refl (a : Action ρ) (i : ℕ) (r : Request ρ) : Moves a i r r :=
  ⟨Final.refl r, fun _ => Or.inl, fun _ => Or.inl, fun h => ⟨h, rfl⟩⟩

/-- The outcome moves and the call stays where it is. -/
theorem Moves.settle {a : Action ρ} {i : ℕ} {r r' : Request ρ} {o : Outcome ρ}
    (hkey : r'.correlationId = r.correlationId) (hstage : r'.stage = r.stage)
    (hstarted : r.stage ≠ .arming) (hsettled : r'.settled = r.settled.or (some o))
    (hcause : Causes a i r.correlationId o) : Moves a i r r' where
  key := hkey
  settled p hp := by rw [hsettled, hp, Option.some_or]
  returned p hp := by rw [hstage, hp]
  settledBy p hp := by
    rw [hsettled] at hp
    cases hr : r.settled with
    | none =>
      rw [hr, Option.none_or] at hp
      rw [← Option.some.inj hp]
      exact Or.inr hcause
    | some q =>
      rw [hr, Option.some_or] at hp
      exact Or.inl hp
  returnedBy p hp := by
    rw [hstage] at hp
    exact Or.inl hp
  armingBy h := by
    rw [hstage] at h
    exact absurd h hstarted

/-- The call moves and the outcome is as it was. -/
theorem Moves.stage {a : Action ρ} {i : ℕ} {r r' : Request ρ}
    (hkey : r'.correlationId = r.correlationId) (hsettled : r'.settled = r.settled)
    (hinside : ∀ o, r.stage ≠ .returned o) (hstarted : r'.stage ≠ .arming)
    (hcause : ∀ o, r'.stage = .returned o → r.settled = some o ∨ Causes a i r.correlationId o) :
    Moves a i r r' where
  key := hkey
  settled p hp := by rw [hsettled, hp]
  returned p hp := absurd hp (hinside p)
  settledBy p hp := by
    rw [hsettled] at hp
    exact Or.inl hp
  returnedBy p hp := Or.inr (hcause p hp)
  armingBy h := absurd h hstarted

theorem Moves.timer {a : Action ρ} {i : ℕ} {r : Request ρ} (timer : Timer) :
    Moves a i r { r with timer := timer } :=
  ⟨⟨rfl, fun _ => id, fun _ => id⟩, fun _ => Or.inl, fun _ => Or.inl, fun h => ⟨h, rfl⟩⟩

theorem Moves.advance {a : Action ρ} {i : ℕ} {r : Request ρ} {stage : Stage ρ}
    (hinside : ∀ o, r.stage ≠ .returned o) (hstarted : stage ≠ .arming)
    (hstays : ∀ o, stage ≠ .returned o) : Moves a i r { r with stage := stage } :=
  Moves.stage rfl rfl hinside hstarted fun o ho => absurd ho (hstays o)

theorem Moves.leave {a : Action ρ} {i : ℕ} {r r' : Request ρ} {o : Outcome ρ}
    (hinside : ∀ o, r.stage ≠ .returned o) (hkey : r'.correlationId = r.correlationId)
    (hsettled : r'.settled = r.settled) (hstage : r'.stage = .returned o)
    (hcause : r.settled = some o ∨ Causes a i r.correlationId o) : Moves a i r r' := by
  refine Moves.stage hkey hsettled hinside (by simp [hstage]) ?_
  intro p hp
  rw [← Stage.returned.inj (hstage.symm.trans hp)]
  exact hcause

theorem TypeScript.act_moves {r : Request ρ} {i : ℕ} {e : Event} {effect : Effect ρ}
    (hstarted : r.stage ≠ .arming) (h : TypeScript.act r e = some effect) :
    Moves (.event i e) i r effect.request := by
  cases e with
  | written =>
    simp only [TypeScript.act] at h
    split at h
    · rename_i hstage
      rw [← Option.some.inj h]
      exact Moves.advance (by simp [hstage]) (by simp) (by simp)
    · cases h
  | writeFails =>
    simp only [TypeScript.act] at h
    split at h
    · rename_i hstage
      rw [← Option.some.inj h]
      have hsettle : Moves (.event i .writeFails) i r (r.stop.settle .sendFailed) :=
        Moves.settle rfl rfl hstarted rfl rfl
      exact ⟨⟨rfl, hsettle.settled, by simp [hstage]⟩, hsettle.settledBy, by simp [Effect.request],
        by simp [Effect.request]⟩
    · cases h
  | timeout =>
    simp only [TypeScript.act] at h
    split at h
    · rw [← Option.some.inj h]
      exact Moves.settle rfl rfl hstarted rfl rfl
    · cases h
  | register _ | encode | cancel | resume | expire => cases h

theorem Go.act_moves {present : Bool} {r : Request ρ} {i : ℕ} {e : Event} {effect : Effect ρ}
    (harming : r.stage = .arming → present = false) (h : Go.act present r e = some effect) :
    Moves (.event i e) i r effect.request := by
  cases e with
  | register connected =>
    simp only [Go.act] at h
    split at h
    · rename_i hstage
      cases connected with
      | true =>
        rw [← Option.some.inj h]
        exact Moves.advance (by simp [hstage]) (by simp) (by simp)
      | false =>
        rw [← Option.some.inj h]
        exact Moves.leave (by simp [hstage]) rfl rfl rfl (Or.inr rfl)
    · cases h
  | encode =>
    simp only [Go.act] at h
    split at h
    · rename_i hstage
      split at h
      · rw [← Option.some.inj h]
        exact Moves.advance (by simp [hstage]) (by simp) (by simp)
      · rw [← Option.some.inj h]
        exact Moves.leave (by simp [hstage]) rfl rfl rfl (Or.inr (Or.inr rfl))
    · cases h
  | written =>
    simp only [Go.act] at h
    split at h
    · rename_i hstage
      rw [← Option.some.inj h]
      exact Moves.advance (by simp [hstage]) (by simp) (by simp)
    · cases h
  | writeFails =>
    simp only [Go.act] at h
    split at h
    · rename_i hstage
      rw [← Option.some.inj h]
      exact Moves.leave (by simp [hstage]) rfl rfl rfl (Or.inr rfl)
    · cases h
  | cancel =>
    simp only [Go.act] at h
    split at h
    · rename_i hstage
      rw [← Option.some.inj h]
      exact Moves.leave (by simp [hstage]) rfl rfl rfl (Or.inr rfl)
    · cases h
  | resume =>
    simp only [Go.act] at h
    split at h
    · rename_i p hstage hsettled
      rw [← Option.some.inj h]
      exact Moves.leave (by simp [hstage]) rfl rfl rfl (Or.inl hsettled)
    · cases h
  | expire =>
    simp only [Go.act] at h
    split at h
    · rw [← Option.some.inj h]
      exact Moves.timer .firing
    · cases h
  | timeout =>
    simp only [Go.act] at h
    split at h
    · cases present with
      | true =>
        have hstarted : r.stage ≠ .arming := by
          intro hstage
          cases harming hstage
        rw [← Option.some.inj h]
        exact Moves.settle rfl rfl hstarted rfl rfl
      | false =>
        rw [← Option.some.inj h]
        exact Moves.timer .stopped
    · cases h

theorem Python.act_moves {r : Request ρ} {i : ℕ} {e : Event} {effect : Effect ρ}
    (hstarted : r.stage ≠ .arming) (h : Python.act r e = some effect) :
    Moves (.event i e) i r effect.request := by
  cases e with
  | written =>
    simp only [Python.act] at h
    split at h
    · rename_i hstage
      rw [← Option.some.inj h]
      exact Moves.advance (by simp [hstage]) (by simp) (by simp)
    · cases h
  | writeFails =>
    simp only [Python.act] at h
    split at h
    · rename_i hstage
      rw [← Option.some.inj h]
      exact Moves.leave (by simp [hstage]) rfl rfl rfl (Or.inr rfl)
    · cases h
  | cancel =>
    simp only [Python.act] at h
    split at h
    · rename_i hstage
      rw [← Option.some.inj h]
      exact Moves.leave (by simp [hstage]) rfl rfl rfl (Or.inr rfl)
    · rename_i hstage
      rw [← Option.some.inj h]
      have hsettle : Moves (.event i .cancel) i r (r.settle .cancelled) :=
        Moves.settle rfl rfl hstarted rfl rfl
      refine ⟨⟨rfl, hsettle.settled, by simp [hstage]⟩, hsettle.settledBy, ?_,
        by simp [Effect.request, Request.ret]⟩
      intro o ho
      rw [← Stage.returned.inj ho]
      exact Or.inr (Or.inr rfl)
    · cases h
  | resume =>
    simp only [Python.act] at h
    split at h
    · rename_i o hstage hsettled
      split at h
      · rw [← Option.some.inj h]
        exact Moves.leave (by simp [hstage]) rfl rfl rfl (Or.inl hsettled)
      · rw [← Option.some.inj h]
        exact Moves.leave (by simp [hstage]) rfl rfl rfl (Or.inl hsettled)
    · cases h
  | timeout =>
    simp only [Python.act] at h
    split at h
    · rw [← Option.some.inj h]
      exact Moves.settle rfl rfl hstarted rfl rfl
    · cases h
  | register _ | encode | expire => cases h

theorem act_moves {client : Client} {present : Bool} {r : Request ρ} {i : ℕ} {e : Event}
    {effect : Effect ρ} (harming : r.stage = .arming → client = .go ∧ present = false)
    (h : act client present r e = some effect) : Moves (.event i e) i r effect.request := by
  have hfirst : client ≠ .go → r.stage ≠ .arming := fun hclient hstage =>
    hclient (harming hstage).1
  cases client with
  | typeScript => exact TypeScript.act_moves (hfirst (by simp)) h
  | go => exact Go.act_moves (fun hstage => (harming hstage).2) h
  | python => exact Python.act_moves (hfirst (by simp)) h

/-! ### The order of one call -/

/-- Only a call in Go arms its timer before it is registered, and until then
nothing can settle it. -/
structure Ordered (client : Client) (s : State ρ) : Prop where
  keyed : s.Keyed Request.correlationId
  arming : ∀ (i : ℕ) (r : Request ρ), s.records[i]? = some r → r.stage = .arming →
    client = .go ∧ r.settled = none ∧ ¬ s.Listed i

def newRequest (client : Client) (correlationId : String) (encodes : Bool) : Request ρ :=
  match client with
  | .typeScript =>
    if encodes then ⟨correlationId, encodes, .armed, none, .sending⟩
    else ⟨correlationId, encodes, .armed, some .encodeFailed, .waiting⟩
  | .go => ⟨correlationId, encodes, .armed, none, .arming⟩
  | .python =>
    if encodes then ⟨correlationId, encodes, .armed, none, .sending⟩
    else ⟨correlationId, encodes, .stopped, none, .returned .encodeFailed⟩

theorem sendRequest_records (client : Client) (s : State ρ) (correlationId : String)
    (encodes : Bool) : (sendRequest client s correlationId encodes).records =
      s.records ++ [newRequest client correlationId encodes] := by
  cases client <;> cases encodes <;> rfl

theorem newRequest_key (client : Client) (correlationId : String) (encodes : Bool) :
    (newRequest client correlationId encodes : Request ρ).correlationId = correlationId := by
  cases client <;> cases encodes <;> rfl

theorem newRequest_cause {client : Client} {correlationId : String} {encodes : Bool} {i : ℕ}
    {o : Outcome ρ} (h : (newRequest client correlationId encodes).settled = some o ∨
      (newRequest client correlationId encodes).stage = .returned o) :
    Causes (.call correlationId encodes) i correlationId o := by
  cases client <;> cases encodes <;> simp [newRequest] at h <;> subst h <;> exact Or.inl rfl

theorem settle_again (r : Request ρ) (o : Outcome ρ) :
    (r.stop.settle o).stop.settle o = r.stop.settle o := by
  cases ht : r.timer <;> cases hs : r.settled <;> simp [Request.stop, Request.settle, ht, hs]

namespace Ordered
variable {client : Client} {s t : State ρ}

theorem not_arming (h : Ordered client s) {i : ℕ} {r : Request ρ} (hr : s.records[i]? = some r)
    (hi : s.Listed i) : r.stage ≠ .arming := by
  intro hstage
  exact (h.arming i r hr hstage).2.2 hi

theorem act_moves (h : Ordered client s) {i : ℕ} {r : Request ρ} {e : Event}
    {effect : Effect ρ} (hr : s.records[i]? = some r)
    (hact : act client (s.entries.lookup r.correlationId).isSome r e = some effect) :
    Moves (.event i e) i r effect.request := by
  refine PendingRequests.act_moves ?_ hact
  intro hstage
  obtain ⟨hgo, _, hunlisted⟩ := h.arming i r hr hstage
  rw [← h.keyed.isSome_lookup_iff hr] at hunlisted
  exact ⟨hgo, (Bool.not_eq_true _).mp hunlisted⟩

end Ordered

theorem apply_records (s : State ρ) (i : ℕ) (effect : Effect ρ) :
    (apply s i effect).records = s.records.set i effect.request := by
  cases effect <;> rfl

/-- Every record afterwards is a record before that one action moved, or the
request the action made. -/
theorem step_records {client : Client} {s t : State ρ} {a : Action ρ}
    (h : Ordered client s) (hstep : step client s a = some t) {j : ℕ} {r' : Request ρ}
    (hr' : t.records[j]? = some r') :
    (∃ r, s.records[j]? = some r ∧ Moves a j r r') ∨
      (j = s.records.length ∧ ∃ correlationId encodes, a = .call correlationId encodes ∧
        r' = newRequest client correlationId encodes) := by
  cases a with
  | call correlationId encodes =>
    simp only [step] at hstep
    split at hstep
    · cases hstep
    · rw [← Option.some.inj hstep, sendRequest_records] at hr'
      rcases getElem?_snoc_cases hr' with hold | ⟨hj, hnew⟩
      · exact Or.inl ⟨r', hold, Moves.refl _ _ _⟩
      · exact Or.inr ⟨hj, correlationId, encodes, rfl, hnew⟩
  | event i e =>
    left
    obtain ⟨r, hr, hstep⟩ := Option.bind_eq_some_iff.mp hstep
    obtain ⟨effect, hact, hstep⟩ := Option.bind_eq_some_iff.mp hstep
    rw [← Option.some.inj hstep, apply_records] at hr'
    rcases Table.getElem?_set_cases hr' with ⟨hij, hnew⟩ | ⟨_, hold⟩
    · rw [← hij, hnew]
      exact ⟨r, hr, h.act_moves hr hact⟩
    · exact ⟨r', hold, Moves.refl _ _ _⟩
  | response correlationId body =>
    left
    rw [← Option.some.inj hstep] at hr'
    simp only [settleResponse] at hr'
    split at hr'
    · exact ⟨r', hr', Moves.refl _ _ _⟩
    · rename_i i hi
      split at hr'
      · exact ⟨r', hr', Moves.refl _ _ _⟩
      · rename_i r hr
        have hmem := Table.mem_of_lookup hi
        have hkey : correlationId = r.correlationId := h.keyed.key_eq hr hmem
        have hstarted := h.not_arming hr ⟨_, hmem⟩
        rcases Table.getElem?_set_cases hr' with ⟨hij, hnew⟩ | ⟨_, hold⟩
        · rw [← hij, hnew]
          exact ⟨r, hr, Moves.settle rfl rfl hstarted rfl ⟨hkey, by rw [hkey]⟩⟩
        · exact ⟨r', hold, Moves.refl _ _ _⟩
  | connectionEnds =>
    left
    rw [← Option.some.inj hstep] at hr'
    rcases getElem?_foldl_modify_cases (fun r => settle_again r _) hr' with
      hold | ⟨hj, r, hr, hnew⟩
    · exact ⟨r', hold, Moves.refl _ _ _⟩
    · have hstarted := h.not_arming hr (Table.listed_iff.mp hj)
      rw [hnew]
      exact ⟨r, hr, Moves.settle rfl rfl hstarted rfl rfl⟩

theorem step_length {client : Client} {s t : State ρ} {a : Action ρ}
    (hstep : step client s a = some t) : s.records.length ≤ t.records.length := by
  cases a with
  | call correlationId encodes =>
    simp only [step] at hstep
    split at hstep
    · cases hstep
    · rw [← Option.some.inj hstep, sendRequest_records, List.length_append]
      exact Nat.le_add_right _ _
  | event i e =>
    obtain ⟨r, hr, hstep⟩ := Option.bind_eq_some_iff.mp hstep
    obtain ⟨effect, hact, hstep⟩ := Option.bind_eq_some_iff.mp hstep
    rw [← Option.some.inj hstep, apply_records, List.length_set]
  | response correlationId body =>
    rw [← Option.some.inj hstep]
    simp only [settleResponse]
    split
    · exact le_rfl
    · split
      · exact le_rfl
      · exact (List.length_set ..).ge
  | connectionEnds =>
    rw [← Option.some.inj hstep]
    exact (length_foldl_modify _ _).ge

theorem step_final {client : Client} {s t : State ρ} {a : Action ρ} (h : Ordered client s)
    (hstep : step client s a = some t) {i : ℕ} {r : Request ρ} (hr : s.records[i]? = some r) :
    ∃ r', t.records[i]? = some r' ∧ Moves a i r r' := by
  have hi : i < s.records.length := (List.getElem?_eq_some_iff.mp hr).1
  have hlt : i < t.records.length := lt_of_lt_of_le hi (step_length hstep)
  refine ⟨t.records[i], List.getElem?_eq_getElem hlt, ?_⟩
  rcases step_records h hstep (List.getElem?_eq_getElem hlt) with ⟨r₀, hr₀, hmoves⟩ | ⟨hlen, _⟩
  · rw [hr] at hr₀
    rw [Option.some.inj hr₀]
    exact hmoves
  · omega

/-! ### Entries come and go with their requests -/

theorem act_enter {client : Client} {present : Bool} {r r' : Request ρ} {e : Event}
    (h : act client present r e = some (.enter r')) :
    client = .go ∧ e = .register true ∧ r.stage = .arming ∧ r' = { r with stage := .encoding } := by
  cases client with
  | typeScript =>
    cases e <;> simp only [act, TypeScript.act] at h <;> (try split at h) <;> cases h
  | python =>
    cases e <;> simp only [act, Python.act] at h <;> (try split at h) <;>
      (try split at h) <;> cases h
  | go =>
    cases e with
    | register connected =>
      simp only [act, Go.act] at h
      split at h
      · rename_i hstage
        cases connected with
        | true => exact ⟨rfl, rfl, hstage, (Effect.enter.inj (Option.some.inj h)).symm⟩
        | false => cases h
      · cases h
    | encode | written | writeFails | cancel | resume | expire | timeout =>
      simp only [act, Go.act] at h
      split at h <;> (try split at h) <;> cases h

/-- Every entry afterwards was there before, or is the one the action made. -/
theorem step_entries {client : Client} {s t : State ρ} {a : Action ρ}
    (hstep : step client s a = some t) {k : String} {j : ℕ} (hk : (k, j) ∈ t.entries) :
    (k, j) ∈ s.entries ∨
      ∃ r', t.records[j]? = some r' ∧ r'.correlationId = k ∧ r'.stage ≠ .arming := by
  cases a with
  | call correlationId encodes =>
    simp only [step] at hstep
    split at hstep
    · cases hstep
    · rw [← Option.some.inj hstep] at hk ⊢
      have hnew : (sendRequest client s correlationId encodes).records[s.records.length]? =
          some (newRequest client correlationId encodes) := by
        rw [sendRequest_records]
        exact List.getElem?_concat_length
      cases client with
      | go => exact Or.inl hk
      | typeScript =>
        rcases Table.mem_enter.mp hk with ⟨hkey, hj⟩ | ⟨hold, _⟩
        · rw [hj, hkey]
          refine Or.inr ⟨_, hnew, newRequest_key _ _ _, ?_⟩
          cases encodes <;> simp [newRequest]
        · exact Or.inl hold
      | python =>
        cases encodes with
        | true =>
          rcases Table.mem_enter.mp hk with ⟨hkey, hj⟩ | ⟨hold, _⟩
          · rw [hj, hkey]
            exact Or.inr ⟨_, hnew, newRequest_key _ _ _, by simp [newRequest]⟩
          · exact Or.inl hold
        | false =>
          obtain ⟨hentered, hne⟩ := Table.mem_forget.mp hk
          rcases Table.mem_enter.mp hentered with ⟨hkey, _⟩ | ⟨hold, _⟩
          · exact absurd hkey hne
          · exact Or.inl hold
  | event i e =>
    obtain ⟨r, hr, hstep⟩ := Option.bind_eq_some_iff.mp hstep
    obtain ⟨effect, hact, hstep⟩ := Option.bind_eq_some_iff.mp hstep
    rw [← Option.some.inj hstep] at hk ⊢
    cases effect with
    | keep r' => exact Or.inl hk
    | drop r' => exact Or.inl (Table.mem_forget.mp hk).1
    | enter r' =>
      rcases Table.mem_enter.mp hk with ⟨hkey, hj⟩ | ⟨hold, _⟩
      · obtain ⟨_, _, _, hr'⟩ := act_enter hact
        rw [hj, hkey]
        exact Or.inr ⟨r', Table.getElem?_put_self hr, rfl, by simp [hr']⟩
      · exact Or.inl hold
  | response correlationId body =>
    rw [← Option.some.inj hstep] at hk
    simp only [settleResponse] at hk
    split at hk
    · exact Or.inl hk
    · split at hk
      · exact Or.inl hk
      · exact Or.inl (Table.mem_forget.mp hk).1
  | connectionEnds =>
    rw [← Option.some.inj hstep] at hk
    cases hk

theorem call_fresh {client : Client} {s t : State ρ} {correlationId : String} {encodes : Bool}
    (hstep : step client s (.call correlationId encodes) = some t) {i : ℕ} {r : Request ρ}
    (hr : s.records[i]? = some r) : r.correlationId ≠ correlationId := by
  intro hkey
  have hused : (s.records.any fun r => r.correlationId == correlationId) = true :=
    List.any_eq_true.mpr ⟨r, List.mem_of_getElem? hr, by simp [hkey]⟩
  simp only [step] at hstep
  rw [if_pos hused] at hstep
  cases hstep

theorem ordered_empty (client : Client) : Ordered client (Table.empty : State ρ) where
  keyed := Table.keyed_empty
  arming i r hr := by simp [Table.empty] at hr

theorem step_ordered {client : Client} {s t : State ρ} {a : Action ρ} (h : Ordered client s)
    (hstep : step client s a = some t) : Ordered client t where
  keyed := by
    refine ⟨?_, ?_⟩
    · intro k j hk
      rcases step_entries hstep hk with hold | ⟨r', hr', hkey, _⟩
      · obtain ⟨r, hr, hkey⟩ := h.keyed.refers k j hold
        obtain ⟨r', hr', hmoves⟩ := step_final h hstep hr
        exact ⟨r', hr', hmoves.key.trans hkey⟩
      · exact ⟨r', hr', hkey⟩
    · intro i j b c hb hc hkey
      rcases step_records h hstep hb with ⟨r, hr, hmoves⟩ | ⟨hi, k, encodes, ha, hnew⟩
      · rcases step_records h hstep hc with ⟨p, hp, hmoves'⟩ | ⟨_, k, encodes, ha, hnew⟩
        · rw [hmoves.key, hmoves'.key] at hkey
          exact h.keyed.distinct i j r p hr hp hkey
        · rw [hmoves.key, hnew, newRequest_key] at hkey
          rw [ha] at hstep
          exact absurd hkey (call_fresh hstep hr)
      · rcases step_records h hstep hc with ⟨p, hp, hmoves⟩ | ⟨hj, _⟩
        · rw [hmoves.key, hnew, newRequest_key] at hkey
          rw [ha] at hstep
          exact absurd hkey.symm (call_fresh hstep hp)
        · exact hi.trans hj.symm
  arming i r' hr' hstage := by
    have hunlisted : ¬ s.Listed i → ¬ t.Listed i := by
      rintro hnone ⟨k, hk⟩
      rcases step_entries hstep hk with hold | ⟨c, hc, _, hstarted⟩
      · exact hnone ⟨k, hold⟩
      · rw [hr'] at hc
        rw [← Option.some.inj hc] at hstarted
        exact hstarted hstage
    rcases step_records h hstep hr' with ⟨r, hr, hmoves⟩ | ⟨hi, correlationId, encodes, _, hnew⟩
    · obtain ⟨hrstage, hsame⟩ := hmoves.armingBy hstage
      obtain ⟨hgo, hnone, hlisted⟩ := h.arming i r hr hrstage
      exact ⟨hgo, hsame.trans hnone, hunlisted hlisted⟩
    · have hfresh : ¬ s.Listed i := by
        rintro ⟨k, hk⟩
        obtain ⟨r, hr, _⟩ := h.keyed.refers k i hk
        have hlt := (List.getElem?_eq_some_iff.mp hr).1
        omega
      rw [hnew] at hstage ⊢
      cases client with
      | go => exact ⟨rfl, rfl, hunlisted hfresh⟩
      | typeScript => cases encodes <;> simp [newRequest] at hstage
      | python => cases encodes <;> simp [newRequest] at hstage

theorem run_inOrder {client : Client} {actions : List (Action ρ)} {s t : State ρ}
    (h : Ordered client s) (hrun : run (step client) s actions = some t) : Ordered client t :=
  run_invariant (fun _ _ _ => step_ordered) h hrun

/-! ### Outcomes are for good, and have a cause -/

theorem run_final {client : Client} {actions : List (Action ρ)} {s t : State ρ}
    (h : Ordered client s) (hrun : run (step client) s actions = some t) {i : ℕ} {r : Request ρ}
    (hr : s.records[i]? = some r) : ∃ r', t.records[i]? = some r' ∧ Final r r' := by
  induction actions generalizing s r with
  | nil =>
    have he : s = t := by simpa [run] using hrun
    rw [← he]
    exact ⟨r, hr, Final.refl r⟩
  | cons a actions ih =>
    obtain ⟨u, hu, hrest⟩ := run_cons.mp hrun
    obtain ⟨p, hp, hmoves⟩ := step_final h hu hr
    obtain ⟨r', hr', hfinal⟩ := ih (step_ordered h hu) hrest hp
    exact ⟨r', hr', hmoves.toFinal.trans hfinal⟩

def Owned (actions : List (Action ρ)) (s : State ρ) : Prop :=
  ∀ (i : ℕ) (r : Request ρ) (o : Outcome ρ), s.records[i]? = some r →
    r.settled = some o ∨ r.stage = .returned o → ∃ a ∈ actions, Causes a i r.correlationId o

theorem step_owned {client : Client} {actions : List (Action ρ)} {s t : State ρ} {a : Action ρ}
    (h : Ordered client s) (howned : Owned actions s) (hstep : step client s a = some t) :
    Owned (actions ++ [a]) t := by
  intro i r' o hr' hout
  rcases step_records h hstep hr' with ⟨r, hr, hmoves⟩ | ⟨_, k, encodes, ha, hnew⟩
  · rw [hmoves.key]
    have hcases : (r.settled = some o ∨ r.stage = .returned o) ∨
        Causes a i r.correlationId o := by
      rcases hout with hsettled | hreturned
      · have := hmoves.settledBy o hsettled
        tauto
      · have := hmoves.returnedBy o hreturned
        tauto
    rcases hcases with hold | hnow
    · obtain ⟨b, hb, hcause⟩ := howned i r o hr hold
      exact ⟨b, List.mem_append_left _ hb, hcause⟩
    · exact ⟨a, List.mem_append_right _ (List.mem_singleton_self a), hnow⟩
  · refine ⟨a, List.mem_append_right _ (List.mem_singleton_self a), ?_⟩
    rw [hnew] at hout ⊢
    rw [newRequest_key, ha]
    exact newRequest_cause hout

theorem run_owned {client : Client} {actions : List (Action ρ)} {s : State ρ}
    (hrun : run (step client) Table.empty actions = some s) : Owned actions s := by
  have hboth := run_history (I := fun as s => Ordered client s ∧ Owned as s)
    ⟨ordered_empty client, fun i r o hr => by simp [Table.empty] at hr⟩
    (fun as t a u h hstep => ⟨step_ordered h.1 hstep, step_owned h.1 h.2 hstep⟩) hrun
  exact hboth.2

/-! ### The table is tidy -/

theorem Ordered.tidy_iff {client : Client} {s : State ρ} (h : Ordered client s) :
    Tidy s ↔ s.Every Kept := by
  constructor
  · intro htidy k i hk r hr
    obtain ⟨p, hp, _, hkept⟩ := htidy k i hk
    rw [Option.some.inj (hr.symm.trans hp)]
    exact hkept
  · intro hevery k i hk
    obtain ⟨r, hr, hkey⟩ := h.keyed.refers k i hk
    exact ⟨r, hr, hkey, hevery k i hk r hr⟩

theorem Kept.not_settled {r : Request ρ} {o : Outcome ρ} (h : Kept r) (hs : r.settled = some o) :
    False := by
  rw [h.1] at hs
  cases hs

/-- A request that keeps its entry: nothing takes its timer, its caller and its
answer apart but a cancellation in Python. -/
theorem keep_kept {client : Client} {present : Bool} {r r' : Request ρ} {e : Event}
    {listed : Prop} (h : act client present r e = some (.keep r'))
    (harming : r.stage = .arming → ¬ listed) (hlisted : listed → present = true ∧ Kept r) :
    (listed → Kept r') ↔ AllowedAt client r listed e := by
  have hadvance : ∀ stage : Stage ρ, (∀ o, stage ≠ .returned o) → listed →
      Kept { r with stage := stage } := by
    intro stage hinside hl
    obtain ⟨_, hnone, htimer, _⟩ := hlisted hl
    exact ⟨hnone, htimer, hinside⟩
  cases client with
  | typeScript =>
    cases e <;> simp only [act, TypeScript.act] at h <;> (try split at h) <;> cases h
    · exact iff_of_true (hadvance .waiting (by simp)) trivial
  | go =>
    cases e with
    | register connected =>
      simp only [act, Go.act] at h
      split at h
      · rename_i hstage
        cases connected with
        | true => cases h
        | false =>
          exact iff_of_true (fun hl => absurd hl (harming hstage)) fun _ hno => by cases hno
      · cases h
    | encode =>
      simp only [act, Go.act] at h
      split at h <;> (try split at h) <;> cases h
      exact iff_of_true (hadvance .sending (by simp)) trivial
    | written =>
      simp only [act, Go.act] at h
      split at h <;> cases h
      exact iff_of_true (hadvance .waiting (by simp)) trivial
    | resume =>
      simp only [act, Go.act] at h
      split at h
      · rename_i o _ hsettled
        exact iff_of_true (fun hl => absurd hsettled (hlisted hl).2.not_settled) trivial
      · cases h
    | expire =>
      simp only [act, Go.act] at h
      split at h <;> cases h
      refine iff_of_true (fun hl => ?_) trivial
      obtain ⟨_, hnone, _, hinside⟩ := hlisted hl
      exact ⟨hnone, by simp, hinside⟩
    | timeout =>
      simp only [act, Go.act] at h
      split at h
      · cases present with
        | true => cases h
        | false => exact iff_of_true (fun hl => by cases (hlisted hl).1) trivial
      · cases h
    | writeFails | cancel =>
      simp only [act, Go.act] at h
      split at h <;> cases h
  | python =>
    cases e with
    | written =>
      simp only [act, Python.act] at h
      split at h <;> cases h
      exact iff_of_true (hadvance .waiting (by simp)) trivial
    | cancel =>
      -- the caller has left: its entry, if it is there, is nobody's
      have hleft : ¬ Kept r' := by
        simp only [act, Python.act] at h
        split at h <;> cases h
        · intro hkept
          exact hkept.2.2 _ rfl
        · intro hkept
          exact hkept.2.2 _ rfl
      constructor
      · intro hall _ hl
        exact hleft (hall hl)
      · intro hnone hl
        exact absurd hl (hnone rfl)
    | resume =>
      simp only [act, Python.act] at h
      split at h
      · rename_i o _ hsettled
        exact iff_of_true (fun hl => absurd hsettled (hlisted hl).2.not_settled) trivial
      · cases h
    | register _ | encode | writeFails | expire | timeout =>
      simp only [act, Python.act] at h
      (try split at h) <;> cases h

theorem drop_allowed {client : Client} {present : Bool} {r r' : Request ρ} {e : Event}
    {listed : Prop} (h : act client present r e = some (.drop r')) :
    AllowedAt client r listed e := by
  cases e with
  | register connected =>
    cases client with
    | go =>
      simp only [act, Go.act] at h
      split at h <;> (try split at h) <;> cases h
    | typeScript | python => cases h
  | cancel =>
    intro hpython
    subst hpython
    simp only [act, Python.act] at h
    split at h <;> cases h
  | encode | written | writeFails | resume | expire | timeout => trivial

theorem kept_new (client : Client) (correlationId : String) (encodes : Bool) :
    Kept (newRequest client correlationId encodes : Request ρ) ↔
      client = .go ∨ encodes = true := by
  cases client <;> cases encodes <;> simp [Kept, newRequest]

theorem step_tidy {client : Client} {s t : State ρ} {a : Action ρ} (h : Ordered client s)
    (htidy : Tidy s) (hstep : step client s a = some t) : Tidy t ↔ Allowed client s a := by
  rw [(step_ordered h hstep).tidy_iff]
  rw [h.tidy_iff] at htidy
  cases a with
  | call correlationId encodes =>
    simp only [step] at hstep
    split at hstep
    · cases hstep
    · rw [← Option.some.inj hstep]
      have hpush := h.keyed.every_push htidy (newRequest client correlationId encodes)
      have hnew : (s.push (newRequest client correlationId encodes)).records[s.records.length]? =
          some (newRequest client correlationId encodes) := List.getElem?_concat_length
      cases client with
      | go => exact iff_of_true hpush fun hgo => by cases hgo
      | typeScript =>
        have hentered := (Table.every_enter hpush correlationId hnew).trans (kept_new _ _ _)
        have hallowed : (Client.typeScript = .go ∨ encodes = true) ↔
            Allowed .typeScript s (.call correlationId encodes) := by
          simp [Allowed]
        exact hentered.trans hallowed
      | python =>
        cases encodes with
        | true =>
          have hentered := (Table.every_enter hpush correlationId hnew).trans (kept_new _ _ _)
          exact iff_of_true (hentered.mpr (Or.inr rfl)) fun hts => by cases hts
        | false => exact iff_of_true (hpush.enter_forget correlationId _) fun hts => by cases hts
  | event i e =>
    obtain ⟨r, hr, hstep⟩ := Option.bind_eq_some_iff.mp hstep
    obtain ⟨effect, hact, hstep⟩ := Option.bind_eq_some_iff.mp hstep
    have hallowed : Allowed client s (.event i e) ↔ AllowedAt client r (s.Listed i) e := by
      constructor
      · intro hall
        exact hall r hr
      · intro hat p hp
        rw [← Option.some.inj (hr.symm.trans hp)]
        exact hat
    have hkept : s.Listed i → Kept r := by
      rintro ⟨k, hk⟩
      exact htidy k i hk r hr
    rw [← Option.some.inj hstep, hallowed]
    cases effect with
    | keep r' =>
      have hpresent := h.keyed.isSome_lookup_iff hr
      exact (Table.every_put htidy hr).trans (keep_kept hact
        (fun hstage => (h.arming i r hr hstage).2.2) fun hl => ⟨hpresent.mpr hl, hkept hl⟩)
    | drop r' =>
      have hkey : r'.correlationId = r.correlationId := (h.act_moves hr hact).key
      have hdropped := h.keyed.every_drop (b := r') htidy hr
      rw [← hkey] at hdropped
      exact iff_of_true hdropped (drop_allowed hact)
    | enter r' =>
      obtain ⟨rfl, rfl, hstage, rfl⟩ := act_enter hact
      obtain ⟨_, hnone, hunlisted⟩ := h.arming i r hr hstage
      have hput : (s.put i { r with stage := .encoding }).Every Kept :=
        (Table.every_put htidy hr).mpr fun hl => absurd hl hunlisted
      refine (Table.every_enter hput _ (Table.getElem?_put_self hr)).trans ?_
      simp [Kept, AllowedAt, hnone]
  | response correlationId body =>
    rw [← Option.some.inj hstep]
    refine iff_of_true ?_ trivial
    simp only [settleResponse]
    split
    · exact htidy
    · rename_i i hi
      split
      · exact htidy
      · rename_i r hr
        have hkey := h.keyed.key_eq hr (Table.mem_of_lookup hi)
        rw [hkey]
        exact h.keyed.every_drop htidy hr
  | connectionEnds =>
    rw [← Option.some.inj hstep]
    exact iff_of_true (fun k i hk => by cases hk) trivial

end

/-- A request of Go whose response comes twice, and one that times out in the
write. -/
def answeredTwice : List (Action Unit) :=
  [.call "pub_1" true, .event 0 (.register true), .event 0 .encode, .call "disc_2" true,
    .event 1 (.register true), .event 0 .written, .response "pub_1" (), .response "pub_1" (),
    .event 0 .resume, .event 1 .encode, .event 1 .expire, .event 1 .timeout, .event 1 .written,
    .event 1 .resume]

/-- TypeScript: the encoder throws inside the executor. -/
def payloadRefused : List (Action Unit) := [.call "pub_1" false]

/-- Go: the timer runs before the request is registered. -/
def timerFirst : List (Action Unit) :=
  [.call "pub_1" true, .event 0 .expire, .event 0 .timeout, .event 0 (.register true)]

/-- Python: the caller is cancelled while it waits. -/
def callerCancelled : List (Action Unit) :=
  [.call "pub_1" true, .event 0 .written, .event 0 .cancel]

end Emergent.Sdk.PendingRequests

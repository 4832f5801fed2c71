import Emergent.Sdk.MessageStream

/-!
# Overlapping and abandoned calls of `next`

The two SDKs whose stream keeps one waiting call (`sdks/ts/src/stream.ts`,
`sdks/py/emergent/stream.py`), with any number of callers. A caller gives up when
the timeout beside its `next` fires first: `Promise.race` leaves the resolver
where it is, `asyncio.wait_for` cancels the future.
-/

namespace Emergent.Sdk
open Kit

inductive SlotSdk where
  | typescript
  | python
  deriving Repr, DecidableEq

def SlotSdk.language : SlotSdk → Language
  | .typescript => .typescript
  | .python => .python

/-- `handed r` is a promise or future that has its result and whose caller has not
run since. -/
inductive NextCall (μ : Type) where
  | waiting
  | handed (r : Option μ)
  | got (r : Option μ)
  | abandoned
  deriving Repr, DecidableEq

namespace NextCall

variable {μ : Type}

def isWaiting : NextCall μ → Bool
  | .waiting => true
  | _ => false

def isHandedMessage : NextCall μ → Bool
  | .handed (some _) => true
  | _ => false

/-- What its resolver or `set_result` does to a call. -/
def resolve (r : Option μ) : NextCall μ → NextCall μ
  | .waiting => .handed r
  | c => c

def resume : NextCall μ → NextCall μ
  | .handed r => .got r
  | c => c

end NextCall

/-- The calls of `next` in the order they were made. `delivered` logs which of
them a message went to, `pushed` the messages pushed before the closing. -/
structure StreamCalls (μ : Type) where
  stream : MessageStream μ
  calls : List (NextCall μ)
  delivered : List (ℕ × μ)
  pushed : List μ

inductive StreamCallsAction (μ : Type) where
  | push (m : μ)
  | close
  | next
  | resume (call : ℕ)
  | abandon (call : ℕ)
  deriving Repr, DecidableEq

namespace StreamCalls

variable {μ : Type}

def start : StreamCalls μ := ⟨.new, [], [], []⟩

def isWaiting (s : StreamCalls μ) (call : ℕ) : Bool := s.calls[call]?.any NextCall.isWaiting

/-- `Future.done`. -/
def isDone (s : StreamCalls μ) (call : ℕ) : Bool := !s.isWaiting call

-- a resolved promise is read before the next timer runs; a cancelled task gets
-- its `CancelledError` even when its future has a result by then
def mayAbandon (sdk : SlotSdk) (c : NextCall μ) : Bool :=
  match sdk, c with
  | _, .waiting => true
  | .python, .handed _ => true
  | _, _ => false

def step (sdk : SlotSdk) (s : StreamCalls μ) : StreamCallsAction μ → Option (StreamCalls μ)
  | .push m =>
    let pushed := if s.stream.closed then s.pushed else s.pushed ++ [m]
    match s.stream.push sdk.language s.isDone m with
    | (stream, some call) =>
      some
        { stream := stream
          calls := s.calls.modify call (NextCall.resolve (some m))
          delivered := if s.isWaiting call then s.delivered ++ [(call, m)] else s.delivered
          pushed := pushed }
    | (stream, none) => some { s with stream := stream, pushed := pushed }
  | .close =>
    match s.stream.close sdk.language s.isDone with
    | (stream, some call) =>
      some { s with stream := stream, calls := s.calls.modify call (NextCall.resolve none) }
    | (stream, none) => some { s with stream := stream }
  | .next =>
    match s.stream.next s.calls.length with
    | (stream, some (some m)) =>
      some { s with
        stream := stream
        calls := s.calls ++ [.got (some m)]
        delivered := s.delivered ++ [(s.calls.length, m)] }
    | (stream, some none) => some { s with stream := stream, calls := s.calls ++ [.got none] }
    | (stream, none) => some { s with stream := stream, calls := s.calls ++ [.waiting] }
  | .resume call => some { s with calls := s.calls.modify call NextCall.resume }
  | .abandon call =>
    if s.calls[call]?.any (mayAbandon sdk) then
      some { s with calls := s.calls.modify call fun _ => .abandoned }
    else none

/-- A push finds the slot empty or its caller still there, where TypeScript does
not look, and finds room in the queue, where Python's is bounded. A call that
would have to wait finds no other caller waiting. A caller does not give up with
a message on its way to it. -/
def Attended (sdk : SlotSdk) (s : StreamCalls μ) : StreamCallsAction μ → Prop
  | .push _ => s.stream.closed = true ∨
      match sdk with
      | .typescript => ∀ call ∈ s.stream.waiting, s.isWaiting call = true
      | .python => (s.stream.served .python s.isDone).isSome = true ∨ s.stream.queue.length < 1000
  | .next => s.stream.closed = true ∨ s.stream.queue.isEmpty = false ∨
      ∀ call ∈ s.stream.waiting, s.isWaiting call = false
  | .abandon call => s.calls[call]?.any NextCall.isHandedMessage = false
  | .close | .resume _ => True

instance (sdk : SlotSdk) (s : StreamCalls μ) (a : StreamCallsAction μ) :
    Decidable (s.Attended sdk a) :=
  match a, sdk with
  | .push _, .typescript => inferInstanceAs (Decidable (_ ∨ ∀ call ∈ s.stream.waiting, _))
  | .push _, .python => inferInstanceAs (Decidable (_ ∨ _ ∨ _))
  | .next, _ => inferInstanceAs (Decidable (_ ∨ _ ∨ ∀ call ∈ s.stream.waiting, _))
  | .abandon _, _ => inferInstanceAs (Decidable (_ = _))
  | .close, _ | .resume _, _ => isTrue trivial

/-- Each pushed message went to one call, which has it or is about to run with it,
or is in the queue; and no call is left waiting on a closed stream. -/
structure Accounted (s : StreamCalls μ) : Prop where
  conserved : s.delivered.map Prod.snd ++ s.stream.queue = s.pushed
  once : (s.delivered.map Prod.fst).Nodup
  received : ∀ d ∈ s.delivered, s.calls[d.1]? = some (.handed (some d.2)) ∨
    s.calls[d.1]? = some (.got (some d.2))
  resolved : s.stream.closed = true → ∀ call, s.isWaiting call = false

/-- Beside that, the call in the slot is the only one waiting, and nothing is
queued while it waits. -/
structure Kept (s : StreamCalls μ) : Prop extends s.Accounted where
  slot : ∀ call, s.isWaiting call = true →
    s.stream.waiting = some call ∧ s.stream.queue = [] ∧ s.stream.closed = false

variable {sdk : SlotSdk} {s t : StreamCalls μ}

theorem kept_start : (start : StreamCalls μ).Kept where
  conserved := rfl
  once := List.nodup_nil
  received := fun _ h => by cases h
  resolved := fun h => by cases h
  slot := fun _ h => by cases h

theorem isWaiting_iff {call : ℕ} : s.isWaiting call = true ↔ s.calls[call]? = some .waiting := by
  unfold isWaiting
  cases h : s.calls[call]? with
  | none => simp
  | some c => cases c <;> simp [NextCall.isWaiting]

/-- What is not in the slot is not waiting. -/
theorem Kept.idle (hs : s.Kept) (hslot : ∀ call ∈ s.stream.waiting, s.isWaiting call = false)
    (call : ℕ) : s.isWaiting call = false := by
  by_contra hlive
  rw [Bool.not_eq_false] at hlive
  have hnot := hslot call (hs.slot call hlive).1
  rw [hlive] at hnot
  cases hnot

theorem isWaiting_of_served {call : ℕ} {m : μ} (hguard : s.Attended sdk (.push m))
    (hopen : s.stream.closed = false) (hcall : s.stream.served sdk.language s.isDone = some call) :
    s.isWaiting call = true := by
  cases sdk with
  | typescript =>
    rcases hguard with hclosed | hlive
    · rw [hopen] at hclosed
      cases hclosed
    · exact hlive call hcall
  | python =>
    have hlive := (Option.filter_eq_some_iff.mp hcall).2
    simpa only [isDone, Bool.not_not] using hlive

/-- Nobody waits when a push or the closing finds no call to resolve. -/
theorem Kept.idle_of_unserved (hs : s.Kept)
    (hnone : s.stream.served sdk.language s.isDone = none) (call : ℕ) :
    s.isWaiting call = false := by
  refine hs.idle (fun other hother => ?_) call
  cases sdk with
  | typescript =>
    have hempty : s.stream.waiting = none := hnone
    rw [hempty] at hother
    cases hother
  | python =>
    have hdone := Option.filter_eq_none_iff.mp hnone other hother
    simpa only [isDone, Bool.not_not, Bool.not_eq_true] using hdone

/-- Every call but one is as it was. -/
theorem received_modify (hs : s.Kept) {call : ℕ} {f : NextCall μ → NextCall μ}
    (hf : ∀ c m, s.calls[call]? = some c → c = .handed (some m) ∨ c = .got (some m) →
      f c = .handed (some m) ∨ f c = .got (some m)) :
    ∀ d ∈ s.delivered, (s.calls.modify call f)[d.1]? = some (.handed (some d.2)) ∨
      (s.calls.modify call f)[d.1]? = some (.got (some d.2)) := by
  intro d hd
  by_cases heq : call = d.1
  · have hhas := hs.received d hd
    rw [← heq] at hhas ⊢
    rcases hhas with hc | hc
    · rw [getElem?_modify_self hc, Option.some.injEq, Option.some.injEq]
      exact hf _ d.2 hc (Or.inl rfl)
    · rw [getElem?_modify_self hc, Option.some.injEq, Option.some.injEq]
      exact hf _ d.2 hc (Or.inr rfl)
  · rw [getElem?_modify_of_ne heq]
    exact hs.received d hd

/-- A call that is waiting has been delivered nothing. -/
theorem Kept.not_delivered (hs : s.Kept) {call : ℕ} (hlive : s.isWaiting call = true) :
    call ∉ s.delivered.map Prod.fst := by
  intro hmem
  obtain ⟨d, hd, heq⟩ := List.mem_map.mp hmem
  have hwaits := isWaiting_iff.mp hlive
  rw [← heq] at hwaits
  rcases hs.received d hd with hc | hc
  · rw [hc] at hwaits
    cases hwaits
  · rw [hc] at hwaits
    cases hwaits

/-- Resolving the call in the slot leaves nobody waiting. -/
theorem Kept.idle_of_resolved (hs : s.Kept) {call : ℕ} {r : Option μ}
    (hslot : s.stream.waiting = some call) (other : ℕ) :
    (s.calls.modify call (NextCall.resolve r))[other]? ≠ some .waiting := by
  intro hwaits
  rcases getElem?_modify_cases hwaits with ⟨_, c, hc, heq⟩ | ⟨hne, hother⟩
  · cases c <;> cases heq
  · have hslot' := (hs.slot other (isWaiting_iff.mpr hother)).1
    exact hne (Option.some.inj (hslot.symm.trans hslot'))

theorem waiting_of_served {call : ℕ} (h : s.stream.served sdk.language s.isDone = some call) :
    s.stream.waiting = some call := by
  cases sdk with
  | typescript => exact h
  | python => exact (Option.filter_eq_some_iff.mp h).1

theorem resolve_keeps {c : NextCall μ} {r : Option μ} {m : μ}
    (hc : c = .handed (some m) ∨ c = .got (some m)) :
    NextCall.resolve r c = .handed (some m) ∨ NextCall.resolve r c = .got (some m) := by
  rcases hc with rfl | rfl
  · exact Or.inl rfl
  · exact Or.inr rfl

theorem Kept.push (hs : s.Kept) {m : μ} (hguard : s.Attended sdk (.push m))
    (h : s.step sdk (.push m) = some t) : t.Kept := by
  rcases s.stream.push_cases sdk.language s.isDone m with
    ⟨hclosed, heq⟩ | ⟨hopen, call, hcall, heq⟩ | ⟨hopen, hnone, heq⟩
  · simp only [step, heq, hclosed, if_true] at h
    obtain rfl := Option.some.inj h
    exact ⟨⟨hs.conserved, hs.once, hs.received, hs.resolved⟩, hs.slot⟩
  · have hlive := isWaiting_of_served hguard hopen hcall
    have hempty := (hs.slot call hlive).2.1
    simp only [step, heq, hopen, hlive, Bool.false_eq_true, if_false, if_true] at h
    obtain rfl := Option.some.inj h
    refine ⟨⟨?_, ?_, ?_, fun h => (by cases h)⟩, fun other hother => ?_⟩
    · have hconserved := hs.conserved
      rw [hempty, List.append_nil] at hconserved
      simp only [hempty, List.append_nil, List.map_append, List.map_cons, List.map_nil, hconserved]
    · simp only [List.map_append, List.map_cons, List.map_nil]
      exact List.nodup_append.mpr ⟨hs.once, List.nodup_singleton _, fun a ha b hb => by
        rw [List.mem_singleton.mp hb]
        exact fun heq => hs.not_delivered hlive (heq ▸ ha)⟩
    · intro d hd
      rcases List.mem_append.mp hd with hd | hd
      · exact received_modify hs (fun _ _ _ hc => resolve_keeps hc) d hd
      · rw [List.mem_singleton.mp hd]
        exact Or.inl (getElem?_modify_self (isWaiting_iff.mp hlive))
    · exact absurd (isWaiting_iff.mp hother) (hs.idle_of_resolved (waiting_of_served hcall) other)
  · have hidle := hs.idle_of_unserved hnone
    simp only [step, heq, hopen, Bool.false_eq_true, if_false] at h
    obtain rfl := Option.some.inj h
    have hroom : ∀ cap ∈ sdk.language.capacity, s.stream.queue.length < cap := by
      cases sdk with
      | typescript => exact fun cap hcap => by cases hcap
      | python =>
        intro cap hcap
        obtain rfl : 1000 = cap := Option.some.inj hcap
        rcases hguard with hclosed | hsome | hroom
        · rw [hopen] at hclosed
          cases hclosed
        · have hnone' : s.stream.served .python s.isDone = none := hnone
          rw [hnone'] at hsome
          cases hsome
        · exact hroom
    refine ⟨⟨?_, hs.once, hs.received, fun h => (by cases h)⟩, fun other hother => ?_⟩
    · simp only [MessageStream.enqueue_of_room hroom, ← List.append_assoc, hs.conserved]
    · have hlive : s.isWaiting other = true := hother
      rw [hidle other] at hlive
      cases hlive

theorem Kept.close (hs : s.Kept) (h : s.step sdk .close = some t) : t.Kept := by
  rcases s.stream.close_cases sdk.language s.isDone with
    ⟨hclosed, heq⟩ | ⟨hopen, call, hcall, heq⟩ | ⟨hopen, hnone, heq⟩
  · simp only [step, heq] at h
    obtain rfl := Option.some.inj h
    exact ⟨⟨hs.conserved, hs.once, hs.received, hs.resolved⟩, hs.slot⟩
  · simp only [step, heq] at h
    obtain rfl := Option.some.inj h
    have hidle := fun other => hs.idle_of_resolved (r := none) (waiting_of_served hcall) other
    refine ⟨⟨hs.conserved, hs.once, received_modify hs (fun _ _ _ hc => resolve_keeps hc), ?_⟩, ?_⟩
    · intro _ other
      by_contra hlive
      rw [Bool.not_eq_false] at hlive
      exact hidle other (isWaiting_iff.mp hlive)
    · exact fun other hlive => absurd (isWaiting_iff.mp hlive) (hidle other)
  · have hidle := hs.idle_of_unserved hnone
    simp only [step, heq] at h
    obtain rfl := Option.some.inj h
    refine ⟨⟨hs.conserved, hs.once, hs.received, fun _ => hidle⟩, fun other hother => ?_⟩
    have hlive : s.isWaiting other = true := hother
    rw [hidle other] at hlive
    cases hlive

/-- A new call leaves the others as they were. -/
theorem received_snoc (hs : s.Kept) (c : NextCall μ) :
    ∀ d ∈ s.delivered, (s.calls ++ [c])[d.1]? = some (.handed (some d.2)) ∨
      (s.calls ++ [c])[d.1]? = some (.got (some d.2)) := by
  intro d hd
  rcases hs.received d hd with hc | hc
  · exact Or.inl (List.getElem?_append_left (List.getElem?_eq_some_iff.mp hc).1 ▸ hc)
  · exact Or.inr (List.getElem?_append_left (List.getElem?_eq_some_iff.mp hc).1 ▸ hc)

theorem isWaiting_snoc {stream : MessageStream μ} {c : NextCall μ} {delivered : List (ℕ × μ)}
    {pushed : List μ} {call : ℕ}
    (h : (StreamCalls.mk stream (s.calls ++ [c]) delivered pushed).isWaiting call = true) :
    s.isWaiting call = true ∨ (call = s.calls.length ∧ c = .waiting) := by
  rcases getElem?_snoc_cases (isWaiting_iff.mp h) with hold | ⟨heq, hc⟩
  · exact Or.inl (isWaiting_iff.mpr hold)
  · exact Or.inr ⟨heq, hc.symm⟩

/-- A call that has its result at once leaves nobody waiting. -/
theorem idle_snoc (hidle : ∀ call, s.isWaiting call = false) {c : NextCall μ}
    (hc : c ≠ .waiting) (stream : MessageStream μ) (delivered : List (ℕ × μ)) (pushed : List μ)
    (call : ℕ) :
    (StreamCalls.mk stream (s.calls ++ [c]) delivered pushed).isWaiting call = false := by
  by_contra hlive
  rw [Bool.not_eq_false] at hlive
  rcases isWaiting_snoc hlive with hold | ⟨_, hwaiting⟩
  · rw [hidle call] at hold
    cases hold
  · exact hc hwaiting

theorem Kept.delivered_lt (hs : s.Kept) {d : ℕ × μ} (hd : d ∈ s.delivered) :
    d.1 < s.calls.length := by
  rcases hs.received d hd with hc | hc
  · exact (List.getElem?_eq_some_iff.mp hc).1
  · exact (List.getElem?_eq_some_iff.mp hc).1

theorem Kept.next (hs : s.Kept) (hguard : s.Attended sdk .next)
    (h : s.step sdk .next = some t) : t.Kept := by
  rcases s.stream.next_cases s.calls.length with ⟨m, rest, hqueue, heq⟩ |
    ⟨hempty, hclosed, heq⟩ | ⟨hempty, hopen, heq⟩
  · -- a message was queued, so nobody is waiting
    have hidle : ∀ call, s.isWaiting call = false := by
      intro call
      by_contra hlive
      rw [Bool.not_eq_false] at hlive
      have hnil := (hs.slot call hlive).2.1
      rw [hqueue] at hnil
      cases hnil
    simp only [step, heq] at h
    obtain rfl := Option.some.inj h
    have hnobody := idle_snoc hidle (c := .got (some m)) (by simp) { s.stream with queue := rest }
      (s.delivered ++ [(s.calls.length, m)]) s.pushed
    refine ⟨⟨?_, ?_, ?_, fun _ => hnobody⟩, fun call hlive => ?_⟩
    · have hconserved := hs.conserved
      rw [hqueue] at hconserved
      simpa only [List.map_append, List.map_cons, List.map_nil, List.append_assoc,
        List.singleton_append] using hconserved
    · simp only [List.map_append, List.map_cons, List.map_nil]
      refine List.nodup_append.mpr ⟨hs.once, List.nodup_singleton _, fun a ha b hb => ?_⟩
      rw [List.mem_singleton.mp hb]
      obtain ⟨d, hd, rfl⟩ := List.mem_map.mp ha
      have hlt := hs.delivered_lt hd
      omega
    · intro d hd
      rcases List.mem_append.mp hd with hd | hd
      · exact received_snoc hs _ d hd
      · rw [List.mem_singleton.mp hd]
        exact Or.inr (by simp)
    · rw [hnobody call] at hlive
      cases hlive
  · simp only [step, heq] at h
    obtain rfl := Option.some.inj h
    have hnobody := idle_snoc (hs.resolved hclosed) (c := .got none) (by simp) s.stream s.delivered
      s.pushed
    refine ⟨⟨hs.conserved, hs.once, received_snoc hs _, fun _ => hnobody⟩, fun call hlive => ?_⟩
    rw [hnobody call] at hlive
    cases hlive
  · have hidle : ∀ call, s.isWaiting call = false := by
      refine hs.idle ?_
      rcases hguard with hclosed | hfull | hidle
      · rw [hopen] at hclosed
        cases hclosed
      · rw [hempty] at hfull
        cases hfull
      · exact hidle
    simp only [step, heq] at h
    obtain rfl := Option.some.inj h
    refine ⟨⟨hs.conserved, hs.once, received_snoc hs _, fun hclosed => ?_⟩, fun call hlive => ?_⟩
    · have hclosed' : s.stream.closed = true := hclosed
      rw [hopen] at hclosed'
      cases hclosed'
    · rcases isWaiting_snoc hlive with hold | ⟨heq, _⟩
      · rw [hidle call] at hold
        cases hold
      · exact ⟨congrArg some heq.symm, hempty, hopen⟩

theorem Kept.resume (hs : s.Kept) {call : ℕ} (h : s.step sdk (.resume call) = some t) :
    t.Kept := by
  obtain rfl := Option.some.inj h
  have hwaits : ∀ other, (s.calls.modify call NextCall.resume)[other]? = some .waiting →
      s.isWaiting other = true := by
    intro other hother
    rcases getElem?_modify_cases hother with ⟨rfl, c, hc, heq⟩ | ⟨_, hold⟩
    · cases c with
      | waiting => exact isWaiting_iff.mpr hc
      | handed r => cases heq
      | got r => cases heq
      | abandoned => cases heq
    · exact isWaiting_iff.mpr hold
  refine ⟨⟨hs.conserved, hs.once, received_modify hs fun c m _ hc => ?_, fun hclosed other => ?_⟩,
    fun other hlive => hs.slot other (hwaits other (isWaiting_iff.mp hlive))⟩
  · rcases hc with rfl | rfl
    · exact Or.inr rfl
    · exact Or.inr rfl
  · by_contra hlive
    rw [Bool.not_eq_false] at hlive
    have hold := hwaits other (isWaiting_iff.mp hlive)
    rw [hs.resolved hclosed other] at hold
    cases hold

theorem Kept.abandon (hs : s.Kept) {call : ℕ} (hguard : s.Attended sdk (.abandon call))
    (h : s.step sdk (.abandon call) = some t) : t.Kept := by
  simp only [step] at h
  split_ifs at h with hmay
  obtain rfl := Option.some.inj h
  have hwaits : ∀ other, (s.calls.modify call fun _ => .abandoned)[other]? = some .waiting →
      s.isWaiting other = true := by
    intro other hother
    rcases getElem?_modify_cases hother with ⟨_, c, _, heq⟩ | ⟨_, hold⟩
    · cases heq
    · exact isWaiting_iff.mpr hold
  refine ⟨⟨hs.conserved, hs.once, received_modify hs fun c m hcall hc => ?_,
    fun hclosed other => ?_⟩,
    fun other hlive => hs.slot other (hwaits other (isWaiting_iff.mp hlive))⟩
  · -- neither a call that was handed a message nor one that has it gives up
    rcases hc with rfl | rfl
    · simp [Attended, hcall, NextCall.isHandedMessage] at hguard
    · cases sdk <;> simp [hcall, mayAbandon] at hmay
  · by_contra hlive
    rw [Bool.not_eq_false] at hlive
    have hold := hwaits other (isWaiting_iff.mp hlive)
    rw [hs.resolved hclosed other] at hold
    cases hold

theorem Kept.step (hs : s.Kept) {a : StreamCallsAction μ} (hguard : s.Attended sdk a)
    (h : s.step sdk a = some t) : t.Kept := by
  cases a with
  | push m => exact hs.push hguard h
  | close => exact hs.close h
  | next => exact hs.next hguard h
  | resume call => exact hs.resume h
  | abandon call => exact hs.abandon hguard h

/-- In every interleaving whose steps are attended, every pushed message has one
call that takes it or is still queued, in the order of the pushes, and closing
leaves no call waiting. -/
theorem run_calls_accounted {as : List (StreamCallsAction μ)}
    (hguard : Obeys (step sdk) (Attended sdk) start as) (hrun : run (step sdk) start as = some s) :
    s.Accounted := by
  have hs : s.Kept :=
    run_invariant_of_obeys (fun _ _ _ hs hg h => hs.step hg h) kept_start hguard hrun
  exact hs.toAccounted

/-- A reader that is handed one message, gives up on the next and comes back. -/
def comesBack : List (StreamCallsAction ℕ) :=
  [.next, .push 1, .resume 0, .next, .abandon 1, .next, .push 2, .push 3, .close, .resume 2, .next]

theorem run_calls_accounted_typescript :
    ∃ s, run (step .typescript) start comesBack = some s ∧ s.Accounted ∧
      s.delivered = [(0, 1), (2, 2), (3, 3)] ∧ s.stream.queue = [] := by
  have hguard : Obeys (step .typescript) (Attended .typescript) start comesBack := by decide
  exact ⟨_, rfl, run_calls_accounted hguard rfl, by decide, by decide⟩

/-- TypeScript hands a message to a caller that has given up, and the later call
waits in vain. In both SDKs a second call takes the slot of the first, which even
the closing does not resolve. -/
theorem abandoned_call_swallows :
    (∃ s, run (step .typescript) start [.next, .abandon 0, .push 1, .next] = some s ∧
      s.pushed = [1] ∧ s.delivered = [] ∧ s.stream.queue = [] ∧ ¬ s.Accounted) ∧
    ∀ sdk, ∃ s, run (step sdk) start [.next, .next, .push 1, .close] = some s ∧
      s.stream.closed = true ∧ s.isWaiting 0 = true ∧ ¬ s.Accounted := by
  constructor
  · refine ⟨_, rfl, by decide, by decide, by decide, fun h => ?_⟩
    exact absurd h.conserved (by decide)
  · intro sdk
    cases sdk with
    | typescript =>
      refine ⟨_, rfl, by decide, by decide, fun h => ?_⟩
      exact absurd (h.resolved rfl 0) (by decide)
    | python =>
      refine ⟨_, rfl, by decide, by decide, fun h => ?_⟩
      exact absurd (h.resolved rfl 0) (by decide)

end StreamCalls

end Emergent.Sdk

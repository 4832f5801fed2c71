import Emergent.Kit.Runs
import Emergent.Kit.Modify
import Emergent.Sdk.Types

/-!
# `MessageStream` in three SDKs

`sdks/ts/src/stream.ts`, `sdks/py/emergent/stream.py` and `sdks/go/stream.go`. In
the first two a call of `next` that finds nothing leaves its resolver or future
in the one slot of the stream, where a push or the closing finds it. A receiver
of Go's channel waits in the channel; with one receiver that is a slot too.
-/

namespace Emergent.Sdk
open Kit

def Language.capacity : Language → Option ℕ
  | .typescript => none
  | .python => some 1000
  | .go => some 256

/-- `waiting` is the call of `next` whose resolver or future is in the slot. -/
structure MessageStream (μ : Type) where
  queue : List μ
  waiting : Option ℕ
  closed : Bool

namespace MessageStream

variable {μ : Type}

def new : MessageStream μ := ⟨[], none, false⟩

-- a `deque` with a `maxlen` drops its oldest entry, a send to a full channel
-- with a `default` case drops the new one
def enqueue (lang : Language) (queue : List μ) (m : μ) : List μ :=
  match lang with
  | .typescript => queue ++ [m]
  | .python => if queue.length < 1000 then queue ++ [m] else queue.tail ++ [m]
  | .go => if queue.length < 256 then queue ++ [m] else queue

/-- The call that `push` and `close` resolve. Only Python looks whether the future
in the slot is done. -/
def served (lang : Language) (isDone : ℕ → Bool) (s : MessageStream μ) : Option ℕ :=
  match lang with
  | .python => s.waiting.filter fun call => !isDone call
  | .typescript | .go => s.waiting

/-- The stream after a push, and the call it resolves. -/
def push (lang : Language) (isDone : ℕ → Bool) (s : MessageStream μ) (m : μ) :
    MessageStream μ × Option ℕ :=
  if s.closed then (s, none)
  else match s.served lang isDone with
    | some call => ({ s with waiting := none }, some call)
    | none => ({ s with queue := enqueue lang s.queue m }, none)

/-- The stream after a call of `next`, and what the call returns at once. -/
def next (s : MessageStream μ) (call : ℕ) : MessageStream μ × Option (Option μ) :=
  if s.closed && s.queue.isEmpty then (s, some none)
  else match s.queue with
    | m :: rest => ({ s with queue := rest }, some (some m))
    | [] => ({ s with waiting := some call }, none)

/-- The stream after the closing, and the call it resolves with the end of the
stream. -/
def close (lang : Language) (isDone : ℕ → Bool) (s : MessageStream μ) :
    MessageStream μ × Option ℕ :=
  if s.closed then (s, none)
  else match s.served lang isDone with
    | some call => ({ s with waiting := none, closed := true }, some call)
    | none => ({ s with closed := true }, none)

theorem enqueue_of_room {lang : Language} {queue : List μ} {m : μ}
    (hroom : ∀ cap ∈ lang.capacity, queue.length < cap) : enqueue lang queue m = queue ++ [m] := by
  cases lang with
  | typescript => rfl
  | python => exact if_pos (hroom 1000 rfl)
  | go => exact if_pos (hroom 256 rfl)

/-- A queue with a limit never passes it. -/
theorem length_enqueue_le {lang : Language} {limit : ℕ} (hlimit : limit ∈ lang.capacity)
    {queue : List μ} (h : queue.length ≤ limit) (m : μ) :
    (enqueue lang queue m).length ≤ limit := by
  cases lang with
  | typescript => cases hlimit
  | python =>
    obtain rfl := Option.some.inj hlimit
    show (if queue.length < 1000 then queue ++ [m] else queue.tail ++ [m]).length ≤ 1000
    split
    · rw [List.length_append, List.length_singleton]
      omega
    · rw [List.length_append, List.length_tail, List.length_singleton]
      omega
  | go =>
    obtain rfl := Option.some.inj hlimit
    show (if queue.length < 256 then queue ++ [m] else queue).length ≤ 256
    split
    · rw [List.length_append, List.length_singleton]
      omega
    · exact h

theorem next_cases (s : MessageStream μ) (call : ℕ) :
    (∃ m rest, s.queue = m :: rest ∧ s.next call = ({ s with queue := rest }, some (some m))) ∨
      (s.queue = [] ∧ s.closed = true ∧ s.next call = (s, some none)) ∨
      (s.queue = [] ∧ s.closed = false ∧
        s.next call = ({ s with waiting := some call }, none)) := by
  cases hqueue : s.queue with
  | cons m rest =>
    refine Or.inl ⟨m, rest, rfl, ?_⟩
    simp [next, hqueue]
  | nil =>
    cases hclosed : s.closed with
    | true => exact Or.inr (Or.inl ⟨rfl, rfl, by simp [next, hqueue, hclosed]⟩)
    | false => exact Or.inr (Or.inr ⟨rfl, rfl, by simp [next, hqueue, hclosed]⟩)

theorem push_cases (lang : Language) (isDone : ℕ → Bool) (s : MessageStream μ) (m : μ) :
    (s.closed = true ∧ s.push lang isDone m = (s, none)) ∨
      (s.closed = false ∧ ∃ call, s.served lang isDone = some call ∧
        s.push lang isDone m = ({ s with waiting := none }, some call)) ∨
      (s.closed = false ∧ s.served lang isDone = none ∧
        s.push lang isDone m = ({ s with queue := enqueue lang s.queue m }, none)) := by
  cases hclosed : s.closed with
  | true => exact Or.inl ⟨rfl, by simp only [push, hclosed, if_true]⟩
  | false =>
    cases hserved : s.served lang isDone with
    | some call =>
      refine Or.inr (Or.inl ⟨rfl, call, rfl, ?_⟩)
      simp only [push, hclosed, Bool.false_eq_true, if_false, hserved]
    | none =>
      refine Or.inr (Or.inr ⟨rfl, rfl, ?_⟩)
      simp only [push, hclosed, Bool.false_eq_true, if_false, hserved]

theorem close_cases (lang : Language) (isDone : ℕ → Bool) (s : MessageStream μ) :
    (s.closed = true ∧ s.close lang isDone = (s, none)) ∨
      (s.closed = false ∧ ∃ call, s.served lang isDone = some call ∧
        s.close lang isDone = ({ s with waiting := none, closed := true }, some call)) ∨
      (s.closed = false ∧ s.served lang isDone = none ∧
        s.close lang isDone = ({ s with closed := true }, none)) := by
  cases hclosed : s.closed with
  | true => exact Or.inl ⟨rfl, by simp only [close, hclosed, if_true]⟩
  | false =>
    cases hserved : s.served lang isDone with
    | some call =>
      refine Or.inr (Or.inl ⟨rfl, call, rfl, ?_⟩)
      simp only [close, hclosed, Bool.false_eq_true, if_false, hserved]
    | none =>
      refine Or.inr (Or.inr ⟨rfl, rfl, ?_⟩)
      simp only [close, hclosed, Bool.false_eq_true, if_false, hserved]

theorem served_undone (lang : Language) (s : MessageStream μ) :
    s.served lang (fun _ => false) = s.waiting := by
  cases lang with
  | python => cases hwaiting : s.waiting <;> simp [served, hwaiting]
  | typescript => rfl
  | go => rfl

end MessageStream

/-! ### One reader -/

/-- Through which of the two a consumer reads: repeated `next`, or `for await`,
`async for` and `range`. -/
inductive Interface where
  | next
  | iteration
  deriving Repr, DecidableEq

/-- Where the iteration ends before it asks for a message. -/
def Interface.stops {μ : Type} (lang : Language) (stream : MessageStream μ) : Interface → Bool
  | .next => false
  | .iteration =>
    match lang with
    | .typescript => stream.closed
    | .python => stream.closed && stream.queue.isEmpty
    | .go => false

inductive ReaderState where
  | ready
  | waiting
  | finished
  deriving Repr, DecidableEq

/-- `pushed` are the messages pushed before the closing. -/
structure Reading (μ : Type) where
  stream : MessageStream μ
  reader : ReaderState
  obtained : List μ
  pushed : List μ

inductive ReadingAction (μ : Type) where
  | push (m : μ)
  | close
  /-- The reader asks for the next message. -/
  | turn
  deriving Repr, DecidableEq

namespace Reading

variable {μ : Type}

def start : Reading μ := ⟨.new, .ready, [], []⟩

-- the future in the slot is the reader's, and the reader does not give up
def step (lang : Language) (interface : Interface) (s : Reading μ) :
    ReadingAction μ → Option (Reading μ)
  | .push m =>
    let pushed := if s.stream.closed then s.pushed else s.pushed ++ [m]
    match s.stream.push lang (fun _ => false) m with
    | (stream, some _) => some ⟨stream, .ready, s.obtained ++ [m], pushed⟩
    | (stream, none) => some { s with stream := stream, pushed := pushed }
  | .close =>
    match s.stream.close lang (fun _ => false) with
    | (stream, some _) => some { s with stream := stream, reader := .finished }
    | (stream, none) => some { s with stream := stream }
  | .turn =>
    if s.reader = .ready then
      if interface.stops lang s.stream then some { s with reader := .finished }
      else match s.stream.next 0 with
        | (stream, some (some m)) => some { s with stream := stream, obtained := s.obtained ++ [m] }
        | (stream, some none) => some { s with stream := stream, reader := .finished }
        | (stream, none) => some { s with stream := stream, reader := .waiting }
    else none

/-- No push finds the queue full, and a stream that `for await` reads is not
closed over queued messages. -/
def Roomy (lang : Language) (interface : Interface) (s : Reading μ) : ReadingAction μ → Prop
  | .push _ => s.stream.closed = true ∨ s.stream.waiting.isSome = true ∨
      ∀ cap ∈ lang.capacity, s.stream.queue.length < cap
  | .close => lang = .typescript ∧ interface = .iteration →
      s.stream.closed = true ∨ s.stream.queue.isEmpty = true
  | .turn => True

instance (lang : Language) (interface : Interface) (s : Reading μ) (a : ReadingAction μ) :
    Decidable (s.Roomy lang interface a) :=
  match a with
  | .push _ => inferInstanceAs (Decidable (_ ∨ _ ∨ ∀ cap ∈ lang.capacity, _))
  | .close => inferInstanceAs (Decidable (_ → _))
  | .turn => isTrue trivial

structure Faithful (lang : Language) (interface : Interface) (s : Reading μ) : Prop where
  conserved : s.obtained ++ s.stream.queue = s.pushed
  slot : s.stream.waiting.isSome = true → s.reader = .waiting
  suspended : s.reader = .waiting →
    s.stream.waiting.isSome = true ∧ s.stream.queue = [] ∧ s.stream.closed = false
  ended : s.reader = .finished → s.stream.queue = [] ∧ s.stream.closed = true
  drained : lang = .typescript ∧ interface = .iteration → s.stream.closed = true →
    s.stream.queue = []

variable {lang : Language} {interface : Interface} {s t : Reading μ}

theorem faithful_start : (start : Reading μ).Faithful lang interface where
  conserved := rfl
  slot := fun h => by cases h
  suspended := fun h => by cases h
  ended := fun h => by cases h
  drained := fun _ h => by cases h

theorem Faithful.push (hs : s.Faithful lang interface) {m : μ}
    (hguard : s.Roomy lang interface (.push m)) (h : s.step lang interface (.push m) = some t) :
    t.Faithful lang interface := by
  have hserved := MessageStream.served_undone lang s.stream
  rcases s.stream.push_cases lang (fun _ => false) m with
    ⟨hclosed, heq⟩ | ⟨hopen, call, hcall, heq⟩ | ⟨hopen, hcall, heq⟩
  · simp only [step, heq, hclosed, if_true] at h
    obtain rfl := Option.some.inj h
    exact ⟨hs.conserved, hs.slot, hs.suspended, hs.ended, hs.drained⟩
  · -- the message goes to the reader, which had found the queue empty
    simp only [step, heq, hopen, Bool.false_eq_true, if_false] at h
    obtain rfl := Option.some.inj h
    have hwaiting : s.stream.waiting.isSome = true := by rw [← hserved, hcall]; rfl
    obtain ⟨_, hempty, _⟩ := hs.suspended (hs.slot hwaiting)
    have hconserved := hs.conserved
    rw [hempty, List.append_nil] at hconserved
    refine ⟨?_, fun h => (by cases h), fun h => (by cases h), fun h => (by cases h),
      fun _ h => (by cases h)⟩
    simp only [hempty, List.append_nil, hconserved]
  · simp only [step, heq, hopen, Bool.false_eq_true, if_false] at h
    obtain rfl := Option.some.inj h
    have hnone : s.stream.waiting = none := by rw [← hserved, hcall]
    have hroom : ∀ cap ∈ lang.capacity, s.stream.queue.length < cap := by
      rcases hguard with hclosed | hwaiting | hroom
      · rw [hopen] at hclosed
        cases hclosed
      · rw [hnone] at hwaiting
        cases hwaiting
      · exact hroom
    refine ⟨?_, hs.slot, fun h => ?_, fun h => ?_, fun _ h => (by cases h)⟩
    · simp only [MessageStream.enqueue_of_room hroom, ← List.append_assoc, hs.conserved]
    · have hsome := (hs.suspended h).1
      rw [hnone] at hsome
      cases hsome
    · have hclosed := (hs.ended h).2
      rw [hopen] at hclosed
      cases hclosed

theorem Faithful.close (hs : s.Faithful lang interface) (hguard : s.Roomy lang interface .close)
    (h : s.step lang interface .close = some t) : t.Faithful lang interface := by
  have hserved := MessageStream.served_undone lang s.stream
  rcases s.stream.close_cases lang (fun _ => false) with
    ⟨hclosed, heq⟩ | ⟨hopen, call, hcall, heq⟩ | ⟨hopen, hcall, heq⟩
  · simp only [step, heq] at h
    obtain rfl := Option.some.inj h
    exact ⟨hs.conserved, hs.slot, hs.suspended, hs.ended, hs.drained⟩
  · simp only [step, heq] at h
    obtain rfl := Option.some.inj h
    have hwaiting : s.stream.waiting.isSome = true := by rw [← hserved, hcall]; rfl
    obtain ⟨_, hempty, _⟩ := hs.suspended (hs.slot hwaiting)
    exact ⟨hs.conserved, fun h => (by cases h), fun h => (by cases h), fun _ => ⟨hempty, rfl⟩,
      fun _ _ => hempty⟩
  · simp only [step, heq] at h
    obtain rfl := Option.some.inj h
    have hnone : s.stream.waiting = none := by rw [← hserved, hcall]
    refine ⟨hs.conserved, hs.slot, fun h => ?_, fun h => ⟨(hs.ended h).1, rfl⟩,
      fun hlang _ => ?_⟩
    · have hsome := (hs.suspended h).1
      rw [hnone] at hsome
      cases hsome
    · rcases hguard hlang with hclosed | hempty
      · rw [hopen] at hclosed
        cases hclosed
      · exact List.isEmpty_iff.mp hempty

theorem stops_iff {stream : MessageStream μ} (h : interface.stops lang stream = true) :
    stream.closed = true ∧
      (lang = .typescript ∧ interface = .iteration ∨ stream.queue = []) := by
  cases interface with
  | next => cases h
  | iteration =>
    cases lang with
    | typescript => exact ⟨h, Or.inl ⟨rfl, rfl⟩⟩
    | python =>
      have hboth : stream.closed = true ∧ stream.queue.isEmpty = true := by
        simpa only [Interface.stops, Bool.and_eq_true] using h
      exact ⟨hboth.1, Or.inr (List.isEmpty_iff.mp hboth.2)⟩
    | go => cases h

theorem Faithful.turn (hs : s.Faithful lang interface)
    (h : s.step lang interface .turn = some t) : t.Faithful lang interface := by
  simp only [step] at h
  split_ifs at h with hready hstops
  · obtain rfl := Option.some.inj h
    obtain ⟨hclosed, hwhy⟩ := stops_iff hstops
    have hempty : s.stream.queue = [] := by
      rcases hwhy with hlang | hempty
      · exact hs.drained hlang hclosed
      · exact hempty
    refine ⟨hs.conserved, fun hsome => ?_, fun h => (by cases h), fun _ => ⟨hempty, hclosed⟩,
      hs.drained⟩
    have hwaiting := hs.slot hsome
    rw [hready] at hwaiting
    cases hwaiting
  · have hslot : s.stream.waiting.isSome = true → False := by
      intro hsome
      have hwaiting := hs.slot hsome
      rw [hready] at hwaiting
      cases hwaiting
    rcases s.stream.next_cases 0 with ⟨m, rest, hqueue, heq⟩ | ⟨hempty, hclosed, heq⟩ |
      ⟨hempty, hopen, heq⟩
    · simp only [heq] at h
      obtain rfl := Option.some.inj h
      refine ⟨?_, hs.slot, fun h => ?_, fun h => ?_, fun hlang hc => ?_⟩
      · have hconserved := hs.conserved
        rw [hqueue] at hconserved
        simpa only [List.append_assoc, List.singleton_append] using hconserved
      · rw [hready] at h
        cases h
      · rw [hready] at h
        cases h
      · have hnil := hs.drained hlang hc
        rw [hqueue] at hnil
        cases hnil
    · simp only [heq] at h
      obtain rfl := Option.some.inj h
      exact ⟨hs.conserved, fun hsome => (hslot hsome).elim, fun h => (by cases h),
        fun _ => ⟨hempty, hclosed⟩, hs.drained⟩
    · simp only [heq] at h
      obtain rfl := Option.some.inj h
      exact ⟨hs.conserved, fun _ => rfl, fun _ => ⟨rfl, hempty, hopen⟩, fun h => (by cases h),
        fun _ _ => hempty⟩

theorem Faithful.step (hs : s.Faithful lang interface) {a : ReadingAction μ}
    (hguard : s.Roomy lang interface a) (h : s.step lang interface a = some t) :
    t.Faithful lang interface := by
  cases a with
  | push m => exact hs.push hguard h
  | close => exact hs.close hguard h
  | turn => exact hs.turn h

/-- The reader comes to the end of the stream with all that was pushed. -/
def Completes (lang : Language) (interface : Interface) (s : Reading μ) : Prop :=
  ∃ n t, run (Reading.step lang interface) s (List.replicate n .turn) = some t ∧
    t.reader = .finished ∧ t.obtained = s.pushed

theorem Completes.turn (h : s.step lang interface .turn = some t) (hpushed : t.pushed = s.pushed)
    (ht : t.Completes lang interface) : s.Completes lang interface := by
  obtain ⟨n, u, hrun, hfinished, hobtained⟩ := ht
  exact ⟨n + 1, u, run_cons.mpr ⟨t, h, hrun⟩, hfinished, hobtained.trans hpushed⟩

theorem completes_of_closed (queue : List μ) :
    ∀ {s : Reading μ}, s.Faithful lang interface → s.stream.closed = true →
      s.stream.queue = queue → s.Completes lang interface := by
  -- on what is still queued, one turn for each message
  induction queue with
  | nil =>
    intro s hs hclosed hqueue
    have hall : s.obtained = s.pushed := by
      have hconserved := hs.conserved
      rwa [hqueue, List.append_nil] at hconserved
    cases hreader : s.reader with
    | finished => exact ⟨0, s, rfl, hreader, hall⟩
    | waiting =>
      have hopen := (hs.suspended hreader).2.2
      rw [hclosed] at hopen
      cases hopen
    | ready =>
      refine ⟨1, { s with reader := .finished }, run_cons.mpr ⟨_, ?_, rfl⟩, rfl, hall⟩
      simp [step, hreader, MessageStream.next, hclosed, hqueue]
  | cons m rest ih =>
    intro s hs hclosed hqueue
    have hnot : interface.stops lang s.stream = false := by
      by_contra hstops
      rw [Bool.not_eq_false] at hstops
      rcases (stops_iff hstops).2 with hlang | hempty
      · rw [hs.drained hlang hclosed] at hqueue
        cases hqueue
      · rw [hempty] at hqueue
        cases hqueue
    have hready : s.reader = .ready := by
      cases hreader : s.reader with
      | ready => rfl
      | waiting =>
        have hempty := (hs.suspended hreader).2.1
        rw [hqueue] at hempty
        cases hempty
      | finished =>
        have hempty := (hs.ended hreader).1
        rw [hqueue] at hempty
        cases hempty
    have hturn : s.step lang interface .turn = some
        { s with stream := { s.stream with queue := rest }, obtained := s.obtained ++ [m] } := by
      simp [step, hready, hnot, MessageStream.next, hclosed, hqueue]
    exact (ih (hs.turn hturn) hclosed rfl).turn hturn rfl

/-- In every run in which no push finds the queue full and no stream that
`for await` reads is closed over queued messages, what the reader has obtained,
followed by what is queued, is what was pushed before the closing; and a closed
stream is read to its end with nothing missing. -/
theorem run_obtains_pushed {as : List (ReadingAction μ)}
    (hguard : Obeys (step lang interface) (Roomy lang interface) start as)
    (hrun : run (step lang interface) start as = some s) :
    s.obtained ++ s.stream.queue = s.pushed ∧
      (s.reader = .finished → s.obtained = s.pushed) ∧
      (s.stream.closed = true → s.Completes lang interface) := by
  have hs : s.Faithful lang interface :=
    run_invariant_of_obeys (fun _ _ _ hs hg h => hs.step hg h) faithful_start hguard hrun
  refine ⟨hs.conserved, fun hfinished => ?_, fun hclosed => completes_of_closed _ hs hclosed rfl⟩
  have hconserved := hs.conserved
  rwa [(hs.ended hfinished).1, List.append_nil] at hconserved

theorem run_obtains_pushed_python :
    ∃ s, run (step .python .iteration) start [.push 1, .turn, .push 2, .turn, .turn, .push 3,
        .push 4, .close, .turn, .turn] = some s ∧
      (s.obtained ++ s.stream.queue = s.pushed ∧ (s.reader = .finished → s.obtained = s.pushed) ∧
        (s.stream.closed = true → s.Completes .python .iteration)) ∧
      s.reader = .finished ∧ s.obtained = [1, 2, 3, 4] := by
  have hguard : Obeys (step .python .iteration) (Roomy .python .iteration) start [.push 1, .turn,
      .push 2, .turn, .turn, .push 3, .push 4, .close, .turn, .turn] := by decide
  exact ⟨_, rfl, run_obtains_pushed hguard rfl, by decide, by decide⟩

/-- `for await` looks at `closed` before it looks at the queue. -/
theorem forAwait_drops_queued :
    ∃ s, run (step .typescript .iteration) start [.push 1, .push 2, .turn, .close, .turn] =
        some s ∧ s.reader = .finished ∧ s.pushed = [1, 2] ∧ s.obtained = [1] :=
  ⟨_, rfl, by decide, by decide, by decide⟩

end Reading

end Emergent.Sdk

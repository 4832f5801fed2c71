import Emergent.Kit.Deque
import Emergent.Sdk.MessageStream
import Emergent.Sdk.PullStream

/-!
# What Python's pull streams give back (`handler.py`, `stream.py`)

`stream_offer` and `stream_consume` read a stream that also carries other messages.
They set these aside and push them once the call is over. The call is the only
reader until then, and messages arrive at any time. A timeout or a cancellation
can strike between the message for a waiting `next` and the caller's next turn;
`wait_for` then raises, and the message is gone with the future.
-/

namespace Emergent.Sdk
open Kit

/-- A message by its place among those that arrived. -/
structure Arrival where
  number : ℕ
  message : StreamMessage

/-- What the call waits for in `next`; `handed` is a future with its result. -/
inductive Asking where
  | idle
  | waiting
  | handed (r : Option Arrival)

def Asking.isIdle : Asking → Bool
  | .idle => true
  | _ => false

def Asking.isWaiting : Asking → Bool
  | .waiting => true
  | _ => false

/-- The message in a future that the call has not seen yet. -/
def Asking.hand : Asking → List Arrival
  | .handed (some a) => [a]
  | _ => []

/-! ### The stream -/

namespace MessageStream

variable {μ : Type}

/-- `push` on a stream with this `max_queue_size`. -/
def pushBounded (max : ℕ) (isDone : ℕ → Bool) (s : MessageStream μ) (m : μ) :
    MessageStream μ × Option ℕ :=
  if s.closed then (s, none)
  else match s.served .python isDone with
    | some call => ({ s with waiting := none }, some call)
    | none => ({ s with queue := Deque.append max s.queue m }, none)

/-- What a reader gets that asks so many times without waiting. -/
def taken : ℕ → MessageStream μ → List μ
  | 0, _ => []
  | n + 1, s =>
    match s.next 0 with
    | (s', some (some m)) => m :: taken n s'
    | _ => []

theorem pushBounded_default {isDone : ℕ → Bool} {s : MessageStream μ} (h : s.queue.length ≤ 1000)
    (m : μ) : s.pushBounded 1000 isDone m = s.push .python isDone m := by
  have hqueue : Deque.append 1000 s.queue m = enqueue .python s.queue m := by
    unfold enqueue
    by_cases hroom : s.queue.length < 1000
    · rw [Deque.append_of_room hroom, if_pos hroom]
    · have hfull : s.queue.length + 1 - 1000 = 1 := by omega
      have hne : s.queue ≠ [] := by
        intro hnil
        rw [hnil] at hroom
        simp at hroom
      rw [Deque.append, hfull, List.drop_one, List.tail_append_of_ne_nil hne, if_neg hroom]
  cases hserved : s.served .python isDone <;>
    simp only [pushBounded, push, hserved, hqueue]

theorem taken_eq (n : ℕ) (s : MessageStream μ) : s.taken n = s.queue.take n := by
  induction n generalizing s with
  | zero => rfl
  | succ n ih =>
    rcases s.next_cases 0 with ⟨m, rest, hqueue, hnext⟩ | ⟨hqueue, _, hnext⟩ | ⟨hqueue, _, hnext⟩
    · rw [taken, hnext, hqueue, List.take_succ_cons]
      exact congrArg (List.cons m) (ih _)
    · rw [taken, hnext, hqueue]
      rfl
    · rw [taken, hnext, hqueue]
      rfl

theorem pushBounded_cases (max : ℕ) (isDone : ℕ → Bool) (s : MessageStream μ) (m : μ) :
    (s.closed = true ∧ s.pushBounded max isDone m = (s, none)) ∨
      (s.closed = false ∧ ∃ call, s.served .python isDone = some call ∧
        s.pushBounded max isDone m = ({ s with waiting := none }, some call)) ∨
      (s.closed = false ∧ s.served .python isDone = none ∧
        s.pushBounded max isDone m = ({ s with queue := Deque.append max s.queue m }, none)) := by
  cases hclosed : s.closed with
  | true => exact Or.inl ⟨rfl, by simp only [pushBounded, hclosed, if_true]⟩
  | false =>
    cases hserved : s.served .python isDone with
    | some call =>
      refine Or.inr (Or.inl ⟨rfl, call, rfl, ?_⟩)
      simp only [pushBounded, hclosed, Bool.false_eq_true, if_false, hserved]
    | none =>
      refine Or.inr (Or.inr ⟨rfl, rfl, ?_⟩)
      simp only [pushBounded, hclosed, Bool.false_eq_true, if_false, hserved]

end MessageStream

/-! ### The two calls -/

inductive Exchange where
  | offer (o : Offer)
  | consume (c : Consume)

/-- What becomes of a message that a call has read: it is of the exchange, it is set
aside, or nothing keeps it. -/
inductive ReadingVerdict where
  | used
  | aside
  | dropped
  deriving DecidableEq

namespace Exchange

variable (alike : Value → Value → Bool)

def outcome : Exchange → Option (Except StreamFault ℕ)
  | .offer o => o.outcome
  | .consume c => c.outcome

def step (input : StreamInput) : Exchange → Option Exchange
  | .offer o => (o.step .python input).map .offer
  | .consume c => (c.step alike .python input).map .consume

/-- A `stream.ready` for the awaited type. -/
def isReadyFor (messageType : String) (m : StreamMessage) : Bool :=
  m.messageType = "stream.ready" &&
    (m.payload.get "message_type").bind Value.asStr = some messageType

-- a `stream.ready` whose `stream_id` is missing or `None` gets into neither branch
def verdict (m : StreamMessage) : Exchange → ReadingVerdict
  | .offer o => if isPull o.streamId m then .used else .aside
  | .consume c =>
    match c.accepted with
    | none =>
      if isReadyFor c.messageType m then
        match acceptance .python c.messageType m with
        | .accept _ => .used
        | _ => .dropped
      else .aside
    | some key =>
      if isEnd alike .python key m || isItem alike .python c.messageType key m then .used
      else .aside

/-- The message opens the exchange of a consumer. -/
def opens (m : StreamMessage) : Exchange → Bool
  | .offer _ => false
  | .consume c => c.accepted.isNone && verdict alike m (.consume c) = .used

/-- Pulls belong to an offer; to a consumer the `stream.ready` it has accepted, and
the items and the end of that stream. -/
def belongs (opening : Option ℕ) (a : Arrival) : Exchange → Bool
  | .offer o => isPull o.streamId a.message
  | .consume c =>
    match c.accepted with
    | none => false
    | some key => opening = some a.number || isEnd alike .python key a.message ||
        isItem alike .python c.messageType key a.message

end Exchange

/-- A call over its stream. For the record: what it has read, what arrived before the
closing, and which arrival opened the exchange. `settled` means that the `finally`
has run. -/
structure PullReading where
  exchange : Exchange
  stream : MessageStream Arrival
  asking : Asking
  buffered : List Arrival
  settled : Bool
  read : List (Arrival × ReadingVerdict)
  arrived : List Arrival
  opening : Option ℕ

inductive PullReadingAction where
  | arrive (m : StreamMessage)
  | close
  /-- The call calls `next`, and answers what it gets at once. -/
  | ask (publishes : Bool)
  /-- The call runs again with the result of its future. -/
  | resume (publishes : Bool)
  | timeout
  | cancel
  /-- The `finally` of a call that has ended. -/
  | settle

namespace PullReading

def numbered (ms : List StreamMessage) : List Arrival := ms.mapIdx fun i m => ⟨i, m⟩

/-- A call on a stream with messages already waiting. -/
def start (exchange : Exchange) (waiting : List StreamMessage) (closed : Bool) : PullReading where
  exchange := exchange
  stream := ⟨numbered waiting, none, closed⟩
  asking := .idle
  buffered := []
  settled := false
  read := []
  arrived := numbered waiting
  opening := none

def arrival (s : PullReading) (m : StreamMessage) : Arrival := ⟨s.arrived.length, m⟩

/-- The future in the slot is the call's, and done when the call no longer waits. -/
def isDone (s : PullReading) (_ : ℕ) : Bool := !s.asking.isWaiting

/-- The call has ended and its `finally` has not run, which it does at once. -/
def ending (s : PullReading) : Bool := s.exchange.outcome.isSome && !s.settled

variable (alike : Value → Value → Bool) (max : ℕ)

def belongs (s : PullReading) (a : Arrival) : Bool := s.exchange.belongs alike s.opening a

/-- A turn of the loop with a message. -/
def turn (s : PullReading) (a : Arrival) (publishes : Bool) : Option PullReading :=
  (s.exchange.step alike (.message a.message publishes)).map fun exchange =>
    { s with
      exchange := exchange
      asking := .idle
      buffered := if s.exchange.verdict alike a.message = .aside then s.buffered ++ [a]
        else s.buffered
      read := s.read ++ [(a, s.exchange.verdict alike a.message)]
      opening := if s.exchange.opens alike a.message then some a.number else s.opening }

/-- A turn without a message. What the future held is gone. -/
def wake (s : PullReading) (input : StreamInput) : Option PullReading :=
  (s.exchange.step alike input).map fun exchange =>
    { s with
      exchange := exchange
      asking := .idle
      read := s.read ++ s.asking.hand.map fun a => (a, .dropped) }

def giveBack (s : PullReading) : PullReading :=
  { s with
    stream := s.buffered.foldl (fun stream a => (stream.pushBounded max s.isDone a).1) s.stream
    settled := true }

def step (s : PullReading) (action : PullReadingAction) : Option PullReading :=
  match action with
  | .settle => if s.ending then some (s.giveBack max) else none
  | .arrive m =>
    if s.ending then none
    else
      let arrived := if s.stream.closed then s.arrived else s.arrived ++ [s.arrival m]
      match s.stream.pushBounded max s.isDone (s.arrival m) with
      | (stream, some _) =>
        some { s with
          stream := stream, asking := .handed (some (s.arrival m)), arrived := arrived }
      | (stream, none) => some { s with stream := stream, arrived := arrived }
  | .close =>
    if s.ending then none
    else
      match s.stream.close .python s.isDone with
      | (stream, some _) => some { s with stream := stream, asking := .handed none }
      | (stream, none) => some { s with stream := stream }
  | .ask publishes =>
    if s.asking.isIdle && s.exchange.outcome.isNone then
      match s.stream.next 0 with
      | (stream, some (some a)) => { s with stream := stream }.turn alike a publishes
      | (stream, some none) => { s with stream := stream }.wake alike .closed
      | (stream, none) => some { s with stream := stream, asking := .waiting }
    else none
  | .resume publishes =>
    match s.asking with
    | .handed (some a) => s.turn alike a publishes
    | .handed none => s.wake alike .closed
    | _ => none
  -- a timeout that is not positive strikes before anything is read
  | .timeout => s.wake alike .timeout
  | .cancel => s.wake alike .cancelled

/-! ### The guards -/

/-- At most `max` messages wait in the queue after the action. -/
def Roomy (s : PullReading) : PullReadingAction → Prop
  | .arrive _ => s.stream.closed = true ∨ s.asking.isWaiting = true ∨ s.stream.queue.length < max
  | .settle => s.stream.closed = true ∨ s.stream.queue.length + s.buffered.length ≤ max
  | _ => True

instance (s : PullReading) (action : PullReadingAction) : Decidable (s.Roomy max action) :=
  match action with
  | .arrive _ => inferInstanceAs (Decidable (_ ∨ _ ∨ _))
  | .settle => inferInstanceAs (Decidable (_ ∨ _))
  | .close | .ask _ | .resume _ | .timeout | .cancel => isTrue trivial

/-- The reader takes what arrived and does not belong to the exchange, in the order
of arrival. -/
def GaveBack (s : PullReading) : Prop :=
  ∀ n, s.stream.taken n = (s.arrived.filter fun a => !s.belongs alike a).take n

/-- When the call ends everything that was lost belongs to the exchange and nothing
that still waits does. In an open stream what is set aside does not belong to it
either, and nothing waits behind it; in a closed one all of it belongs to it. -/
structure EndsClean (s : PullReading) : Prop where
  dropped : ∀ a, (a, .dropped) ∈ s.read → s.belongs alike a = true
  unread : ∀ a ∈ s.stream.queue, s.belongs alike a = false
  opened : s.stream.closed = false →
    (∀ a ∈ s.buffered, s.belongs alike a = false) ∧ (s.buffered = [] ∨ s.stream.queue = [])
  closed : s.stream.closed = true → ∀ a ∈ s.buffered, s.belongs alike a = true

/-- The call ends clean, and nothing of the exchange comes after it. -/
def Clean (s : PullReading) : PullReadingAction → Prop
  | .settle => s.EndsClean alike
  | .arrive m => s.settled = true → s.stream.closed = false →
      s.belongs alike (s.arrival m) = false
  | _ => True

end PullReading

/-! ### What a step of an exchange keeps -/

namespace Exchange

variable {alike : Value → Value → Bool} {e e' : Exchange} {input : StreamInput}

theorem step_running (h : e.step alike input = some e') : e.outcome = none := by
  cases e with
  | offer o =>
    obtain ⟨o', ho, _⟩ := Option.map_eq_some_iff.mp h
    simp only [Offer.step] at ho
    split_ifs at ho with hdone
    simpa [outcome] using hdone
  | consume c =>
    obtain ⟨c', hc, _⟩ := Option.map_eq_some_iff.mp h
    simp only [Consume.step] at hc
    split_ifs at hc with hdone
    simpa [outcome] using hdone

theorem offer_streamId {o o' : Offer} (h : o.step .python input = some o') :
    o'.streamId = o.streamId := by
  cases input with
  | message m publishes =>
    obtain ⟨_, hsame | hfailed | ⟨v, _, _, hserved⟩ | hend⟩ := Offer.step_message h
    · rw [hsame]
    · rw [hfailed]
    · rw [hserved]
    · rw [hend]
  | closed =>
    obtain ⟨_, fault, hend⟩ := Offer.step_wake (fun hd => by cases hd) (fun _ _ => by simp) h
    rw [hend]
  | timeout =>
    obtain ⟨_, fault, hend⟩ := Offer.step_wake (fun hd => by cases hd) (fun _ _ => by simp) h
    rw [hend]
  | cancelled =>
    obtain ⟨_, fault, hend⟩ := Offer.step_wake (fun hd => by cases hd) (fun _ _ => by simp) h
    rw [hend]

theorem requestNext_kept (c : Consume) (key : StreamKey) (publishes : Bool) :
    (c.requestNext key publishes).messageType = c.messageType ∧
      (c.requestNext key publishes).accepted = c.accepted := by
  unfold Consume.requestNext
  split_ifs <;> exact ⟨rfl, rfl⟩

/-- The awaited type stays, and so does an accepted stream. -/
theorem consume_kept {c c' : Consume} (h : c.step alike .python input = some c') :
    c'.messageType = c.messageType ∧ ∀ key, c.accepted = some key → c'.accepted = some key := by
  simp only [Consume.step] at h
  split_ifs at h
  cases haccepted : c.accepted with
  | none =>
    refine ⟨?_, fun key hkey => by cases hkey⟩
    cases input with
    | message m publishes =>
      simp only [haccepted] at h
      rw [← Option.some.inj h, Consume.awaitReady]
      cases acceptance .python c.messageType m with
      | accept key => exact (requestNext_kept _ _ _).1
      | ignore => rfl
      | refuse => rfl
    | closed =>
      simp only [haccepted] at h
      rw [← Option.some.inj h]
      rfl
    | timeout =>
      rw [← Option.some.inj h]
      rfl
    | cancelled =>
      rw [← Option.some.inj h]
      rfl
  | some accepted =>
    rw [← haccepted]
    have hkept : c'.messageType = c.messageType ∧ c'.accepted = c.accepted := by
      cases input with
      | message m publishes =>
        simp only [haccepted] at h
        rw [← Option.some.inj h, Consume.awaitItem]
        split_ifs
        · exact ⟨rfl, rfl⟩
        · exact requestNext_kept { c with seen := c.seen ++ [m], received := c.received ++ [m] } _ _
        · exact ⟨rfl, rfl⟩
      | closed =>
        simp only [haccepted] at h
        rw [← Option.some.inj h]
        exact ⟨rfl, rfl⟩
      | timeout =>
        rw [← Option.some.inj h]
        exact ⟨rfl, rfl⟩
      | cancelled =>
        rw [← Option.some.inj h]
        exact ⟨rfl, rfl⟩
    exact ⟨hkept.1, fun key hkey => hkept.2.trans hkey⟩

theorem consume_accepts {c c' : Consume} {m : StreamMessage} {publishes : Bool} {key : StreamKey}
    (hnone : c.accepted = none) (hkey : acceptance .python c.messageType m = .accept key)
    (h : c.step alike .python (.message m publishes) = some c') : c'.accepted = some key := by
  simp only [Consume.step] at h
  split_ifs at h
  simp only [hnone] at h
  rw [← Option.some.inj h, Consume.awaitReady, hkey]
  exact (requestNext_kept { c with accepted := some key } _ _).2

/-- What belongs to an exchange keeps belonging to it. -/
theorem belongs_step {opening : Option ℕ} {a : Arrival} (h : e.step alike input = some e')
    (ha : e.belongs alike opening a = true) : e'.belongs alike opening a = true := by
  cases e with
  | offer o =>
    obtain ⟨o', ho, he⟩ := Option.map_eq_some_iff.mp h
    rw [← he]
    simp only [belongs, offer_streamId ho]
    exact ha
  | consume c =>
    obtain ⟨c', hc, he⟩ := Option.map_eq_some_iff.mp h
    obtain ⟨htype, hkept⟩ := consume_kept hc
    rw [← he]
    cases haccepted : c.accepted with
    | none =>
      simp only [belongs, haccepted] at ha
      cases ha
    | some key =>
      simp only [belongs, haccepted] at ha
      simp only [belongs, hkept key haccepted, htype]
      exact ha

theorem opens_of_belongs {opening : Option ℕ} {a : Arrival} (ha : e.belongs alike opening a = true)
    (m : StreamMessage) : e.opens alike m = false := by
  cases e with
  | offer o => rfl
  | consume c =>
    cases haccepted : c.accepted with
    | none =>
      simp only [belongs, haccepted] at ha
      cases ha
    | some key => simp [opens, haccepted]

/-- What the call has used belongs to its exchange. -/
theorem used_belongs {opening : Option ℕ} {a : Arrival} {publishes : Bool}
    (h : e.step alike (.message a.message publishes) = some e')
    (hused : e.verdict alike a.message = .used) :
    e'.belongs alike (if e.opens alike a.message then some a.number else opening) a = true := by
  cases e with
  | offer o =>
    obtain ⟨o', ho, he⟩ := Option.map_eq_some_iff.mp h
    simp only [verdict] at hused
    rw [← he]
    simp only [belongs, offer_streamId ho]
    by_contra hother
    rw [if_neg hother] at hused
    cases hused
  | consume c =>
    obtain ⟨c', hc, he⟩ := Option.map_eq_some_iff.mp h
    obtain ⟨htype, hkept⟩ := consume_kept hc
    rw [← he]
    cases haccepted : c.accepted with
    | none =>
      have hopens : (Exchange.consume c).opens alike a.message = true := by
        simp [opens, haccepted, hused]
      simp only [verdict, haccepted] at hused
      split_ifs at hused
      cases hkey : acceptance .python c.messageType a.message with
      | accept key => simp [belongs, consume_accepts haccepted hkey hc, hopens]
      | ignore => simp [hkey] at hused
      | refuse => simp [hkey] at hused
    | some key =>
      simp only [verdict, haccepted] at hused
      split_ifs at hused with htests
      rw [Bool.or_eq_true] at htests
      simp only [belongs, hkept key haccepted, htype, Bool.or_eq_true]
      rcases htests with hend | hitem
      · exact Or.inl (Or.inr hend)
      · exact Or.inr hitem

end Exchange

/-! ### A call under way -/

namespace PullReading

variable {alike : Value → Value → Bool} {max : ℕ} {s t : PullReading}

/-- The record of a call: what has arrived is what was read, what is handed over and
what is queued, and of what was read the call has set aside what it buffers and used
only what belongs to its exchange. -/
structure Tracks (alike : Value → Value → Bool) (s : PullReading) : Prop where
  numbers : s.arrived.map Arrival.number = List.range s.arrived.length
  waits : s.asking.isWaiting = true →
    s.stream.waiting.isSome = true ∧ s.stream.queue = [] ∧ s.stream.closed = false
  idle : s.exchange.outcome.isSome = true → s.asking = .idle
  ended : s.settled = true → s.exchange.outcome.isSome = true
  parts : s.settled = false →
    s.arrived = s.read.map Prod.fst ++ (s.asking.hand ++ s.stream.queue)
  aside : s.buffered = (s.read.filter fun e => e.2 = .aside).map Prod.fst
  used : ∀ a, (a, .used) ∈ s.read → s.belongs alike a = true

theorem numbered_numbers (ms : List StreamMessage) :
    (numbered ms).map Arrival.number = List.range (numbered ms).length := by
  apply List.ext_getElem
  · simp [numbered]
  · intro i _ _
    simp [numbered]

theorem tracks_start (exchange : Exchange) (waiting : List StreamMessage) (closed : Bool) :
    (start exchange waiting closed).Tracks alike where
  numbers := numbered_numbers waiting
  waits h := by cases h
  idle _ := rfl
  ended h := by cases h
  parts _ := rfl
  aside := rfl
  used _ h := by cases h

theorem Tracks.nodup (hs : s.Tracks alike) : s.arrived.Nodup := by
  apply List.Nodup.of_map Arrival.number
  rw [hs.numbers]
  exact List.nodup_range

/-- A call that runs on has not settled. -/
theorem Tracks.running (hs : s.Tracks alike) (h : s.exchange.outcome = none) :
    s.settled = false := by
  cases hsettled : s.settled with
  | false => rfl
  | true =>
    have hsome := hs.ended hsettled
    rw [h] at hsome
    cases hsome

/-- A turn for a message that stands between what was read and the queue. -/
theorem tracks_turn {a : Arrival} {publishes : Bool}
    (hnumbers : s.arrived.map Arrival.number = List.range s.arrived.length)
    (hsettled : s.settled = false)
    (hparts : s.arrived = s.read.map Prod.fst ++ a :: s.stream.queue)
    (haside : s.buffered = (s.read.filter fun e => e.2 = .aside).map Prod.fst)
    (hused : ∀ a, (a, .used) ∈ s.read → s.belongs alike a = true)
    (h : s.turn alike a publishes = some t) : t.Tracks alike := by
  obtain ⟨exchange, hstep, ht⟩ := Option.map_eq_some_iff.mp h
  rw [← ht]
  constructor
  · exact hnumbers
  · intro hwaits
    cases hwaits
  · intro _
    rfl
  · intro hend
    change s.settled = true at hend
    rw [hsettled] at hend
    cases hend
  · intro _
    simp only [hparts, List.map_append, List.map_cons, List.map_nil, Asking.hand,
      List.nil_append, List.append_assoc, List.singleton_append]
  · simp only [List.filter_append, List.map_append, ← haside]
    by_cases hverdict : s.exchange.verdict alike a.message = .aside
    · simp [hverdict]
    · simp [hverdict]
  · intro b hb
    rcases List.mem_append.mp hb with hb | hb
    · have hbelongs := hused b hb
      have hopens := Exchange.opens_of_belongs hbelongs a.message
      simp only [belongs, hopens, Bool.false_eq_true, if_false]
      exact Exchange.belongs_step hstep hbelongs
    · obtain ⟨hsame, hverdict⟩ := Prod.mk.inj (List.mem_singleton.mp hb)
      rw [hsame]
      exact Exchange.used_belongs hstep hverdict.symm

theorem Tracks.wake (hs : s.Tracks alike) {input : StreamInput}
    (h : s.wake alike input = some t) : t.Tracks alike := by
  obtain ⟨exchange, hstep, ht⟩ := Option.map_eq_some_iff.mp h
  have hsettled := hs.running (Exchange.step_running hstep)
  rw [← ht]
  constructor
  · exact hs.numbers
  · intro hwaits
    cases hwaits
  · intro _
    rfl
  · intro hend
    change s.settled = true at hend
    rw [hsettled] at hend
    cases hend
  · intro _
    have hparts := hs.parts hsettled
    simp only [hparts, List.map_append, List.map_map, Asking.hand, List.nil_append,
      List.append_assoc]
    simp [Function.comp_def]
  · have hnone : (s.asking.hand.map fun a => (a, ReadingVerdict.dropped)).filter
        (fun e => decide (e.2 = .aside)) = [] := by
      apply List.filter_eq_nil_iff.mpr
      intro e he
      obtain ⟨b, _, hb⟩ := List.mem_map.mp he
      rw [← hb]
      simp
    simp only [List.filter_append, hnone, List.append_nil]
    exact hs.aside
  · intro b hb
    rcases List.mem_append.mp hb with hb | hb
    · exact Exchange.belongs_step hstep (hs.used b hb)
    · obtain ⟨c, _, hc⟩ := List.mem_map.mp hb
      cases (Prod.mk.inj hc).2

theorem served_waiting (hs : s.Tracks alike) (hwaiting : s.asking.isWaiting = true) :
    ∃ call, s.stream.served .python s.isDone = some call := by
  obtain ⟨call, hcall⟩ := Option.isSome_iff_exists.mp (hs.waits hwaiting).1
  exact ⟨call, by simp [MessageStream.served, hcall, isDone, hwaiting]⟩

/-- Without a waiting call a push goes to the queue. -/
theorem served_none (h : s.asking.isWaiting = false) :
    s.stream.served .python s.isDone = none := by
  cases hwaiting : s.stream.waiting <;> simp [MessageStream.served, hwaiting, isDone, h]

theorem hand_of_waiting {asking : Asking} (h : asking.isWaiting = true) : asking.hand = [] := by
  cases asking with
  | idle => rfl
  | waiting => rfl
  | handed r => cases h

theorem range_arrival (hs : s.Tracks alike) (m : StreamMessage) :
    (s.arrived ++ [s.arrival m]).map Arrival.number =
      List.range (s.arrived ++ [s.arrival m]).length := by
  rw [List.map_append, hs.numbers, List.length_append, List.length_singleton, List.range_succ]
  rfl

/-- An arrival is discarded by a closed stream, handed to the waiting call or queued. -/
theorem arrive_cases (hs : s.Tracks alike) {m : StreamMessage} (hroomy : s.Roomy max (.arrive m))
    (h : s.step alike max (.arrive m) = some t) :
    (s.stream.closed = true ∧ t = s) ∨
      (s.stream.closed = false ∧ s.asking.isWaiting = true ∧
        t = { s with
          stream := { s.stream with waiting := none }
          asking := .handed (some (s.arrival m))
          arrived := s.arrived ++ [s.arrival m] }) ∨
      (s.stream.closed = false ∧ s.asking.isWaiting = false ∧
        t = { s with
          stream := { s.stream with queue := s.stream.queue ++ [s.arrival m] }
          arrived := s.arrived ++ [s.arrival m] }) := by
  simp only [step] at h
  cases hending : s.ending with
  | true =>
    simp only [hending, if_true] at h
    cases h
  | false =>
    simp only [hending, Bool.false_eq_true, if_false] at h
    rcases s.stream.pushBounded_cases max s.isDone (s.arrival m) with
      ⟨hclosed, hpush⟩ | ⟨hopen, call, hcall, hpush⟩ | ⟨hopen, hcall, hpush⟩
    · simp only [hpush, hclosed, if_true] at h
      exact Or.inl ⟨hclosed, (Option.some.inj h).symm⟩
    · simp only [hpush, hopen, Bool.false_eq_true, if_false] at h
      cases hasking : s.asking.isWaiting with
      | true =>
        refine Or.inr (Or.inl ⟨hopen, rfl, ?_⟩)
        rw [← Option.some.inj h]
        simp only [hopen]
      | false =>
        rw [served_none hasking] at hcall
        cases hcall
    · simp only [hpush, hopen, Bool.false_eq_true, if_false] at h
      cases hasking : s.asking.isWaiting with
      | true =>
        obtain ⟨call, hserved⟩ := served_waiting hs hasking
        rw [hcall] at hserved
        cases hserved
      | false =>
        have hroom : s.stream.queue.length < max := by
          rcases hroomy with hclosed | hwaiting | hroom
          · rw [hopen] at hclosed
            cases hclosed
          · rw [hasking] at hwaiting
            cases hwaiting
          · exact hroom
        refine Or.inr (Or.inr ⟨hopen, rfl, ?_⟩)
        rw [← Option.some.inj h, Deque.append_of_room hroom]
        simp only [hopen]

/-- A call that waits has not ended. -/
theorem Tracks.waiting_runs (hs : s.Tracks alike) (hwaiting : s.asking.isWaiting = true) :
    s.exchange.outcome.isSome = false ∧ s.settled = false := by
  have hrunning : s.exchange.outcome.isSome = false := by
    cases hsome : s.exchange.outcome.isSome with
    | false => rfl
    | true =>
      rw [hs.idle hsome] at hwaiting
      cases hwaiting
  exact ⟨hrunning, hs.running (by simpa using hrunning)⟩

theorem Tracks.arrive (hs : s.Tracks alike) {m : StreamMessage} (hroomy : s.Roomy max (.arrive m))
    (h : s.step alike max (.arrive m) = some t) : t.Tracks alike := by
  rcases arrive_cases hs hroomy h with ⟨_, ht⟩ | ⟨hopen, hwaiting, ht⟩ | ⟨hopen, hidle, ht⟩
  · rw [ht]
    exact hs
  · obtain ⟨hrunning, hsettled⟩ := hs.waiting_runs hwaiting
    rw [ht]
    constructor
    · exact range_arrival hs m
    · intro hwaits
      cases hwaits
    · intro hsome
      change s.exchange.outcome.isSome = true at hsome
      rw [hrunning] at hsome
      cases hsome
    · exact hs.ended
    · intro _
      have hparts := hs.parts hsettled
      rw [hand_of_waiting hwaiting, (hs.waits hwaiting).2.1, List.append_nil,
        List.append_nil] at hparts
      change s.arrived ++ [s.arrival m] =
        s.read.map Prod.fst ++ ([s.arrival m] ++ s.stream.queue)
      rw [hparts, (hs.waits hwaiting).2.1, List.append_nil]
    · exact hs.aside
    · exact hs.used
  · rw [ht]
    constructor
    · exact range_arrival hs m
    · intro hwaiting
      change s.asking.isWaiting = true at hwaiting
      rw [hidle] at hwaiting
      cases hwaiting
    · exact hs.idle
    · exact hs.ended
    · intro hsettled
      change s.arrived ++ _ = s.read.map Prod.fst ++ (s.asking.hand ++ (s.stream.queue ++ _))
      rw [hs.parts hsettled]
      simp only [List.append_assoc]
    · exact hs.aside
    · exact hs.used

theorem close_cases (hs : s.Tracks alike) (h : s.step alike max .close = some t) :
    (s.stream.closed = true ∧ t = s) ∨
      (s.asking.isWaiting = true ∧
        t = { s with stream := { s.stream with waiting := none, closed := true },
                     asking := .handed none }) ∨
      (s.asking.isWaiting = false ∧
        t = { s with stream := { s.stream with closed := true } }) := by
  simp only [step] at h
  cases hending : s.ending with
  | true =>
    simp only [hending, if_true] at h
    cases h
  | false =>
    simp only [hending, Bool.false_eq_true, if_false] at h
    rcases s.stream.close_cases .python s.isDone with
      ⟨hclosed, hclose⟩ | ⟨hopen, call, hcall, hclose⟩ | ⟨hopen, hcall, hclose⟩
    · simp only [hclose] at h
      exact Or.inl ⟨hclosed, (Option.some.inj h).symm⟩
    · simp only [hclose] at h
      cases hasking : s.asking.isWaiting with
      | true => exact Or.inr (Or.inl ⟨rfl, (Option.some.inj h).symm⟩)
      | false =>
        rw [served_none hasking] at hcall
        cases hcall
    · simp only [hclose] at h
      cases hasking : s.asking.isWaiting with
      | true =>
        obtain ⟨call, hserved⟩ := served_waiting hs hasking
        rw [hcall] at hserved
        cases hserved
      | false => exact Or.inr (Or.inr ⟨rfl, (Option.some.inj h).symm⟩)

theorem Tracks.close (hs : s.Tracks alike) (h : s.step alike max .close = some t) :
    t.Tracks alike := by
  rcases close_cases hs h with ⟨_, ht⟩ | ⟨hwaiting, ht⟩ | ⟨hidle, ht⟩
  · rw [ht]
    exact hs
  · rw [ht]
    constructor
    · exact hs.numbers
    · intro hwaits
      cases hwaits
    · intro hsome
      rw [hs.idle hsome] at hwaiting
      cases hwaiting
    · exact hs.ended
    · intro hsettled
      have hparts := hs.parts hsettled
      rwa [hand_of_waiting hwaiting] at hparts
    · exact hs.aside
    · exact hs.used
  · rw [ht]
    refine ⟨hs.numbers, ?_, hs.idle, hs.ended, hs.parts, hs.aside, hs.used⟩
    intro hwaiting
    change s.asking.isWaiting = true at hwaiting
    rw [hidle] at hwaiting
    cases hwaiting

/-! ### Every action -/

theorem ask_idle {publishes : Bool} (h : s.step alike max (.ask publishes) = some t) :
    s.asking = .idle ∧ s.exchange.outcome = none := by
  simp only [step] at h
  split_ifs at h with hready
  obtain ⟨hidle, hrunning⟩ := Bool.and_eq_true_iff.mp hready
  refine ⟨?_, by simpa using hrunning⟩
  cases hasking : s.asking with
  | idle => rfl
  | waiting =>
    rw [hasking] at hidle
    cases hidle
  | handed r =>
    rw [hasking] at hidle
    cases hidle

theorem Tracks.ask (hs : s.Tracks alike) {publishes : Bool}
    (h : s.step alike max (.ask publishes) = some t) : t.Tracks alike := by
  obtain ⟨hidle, hrunning⟩ := ask_idle h
  have hsettled := hs.running hrunning
  have hparts := hs.parts hsettled
  have hready : (s.asking.isIdle && s.exchange.outcome.isNone) = true := by
    rw [hidle, hrunning]
    rfl
  simp only [step, hready, if_true] at h
  rw [hidle] at hparts
  rcases s.stream.next_cases 0 with ⟨a, rest, hqueue, hnext⟩ | ⟨hqueue, hclosed, hnext⟩ |
    ⟨hqueue, hopen, hnext⟩
  · simp only [hnext] at h
    refine tracks_turn (s := { s with stream := { s.stream with queue := rest } }) hs.numbers
      hsettled ?_ hs.aside hs.used h
    rw [hqueue] at hparts
    exact hparts
  · simp only [hnext] at h
    exact hs.wake h
  · simp only [hnext] at h
    rw [← Option.some.inj h]
    refine ⟨hs.numbers, ?_, ?_, hs.ended, ?_, hs.aside, hs.used⟩
    · intro _
      exact ⟨rfl, hqueue, hopen⟩
    · intro hsome
      change s.exchange.outcome.isSome = true at hsome
      rw [hrunning] at hsome
      cases hsome
    · intro _
      exact hparts

theorem turn_running {a : Arrival} {publishes : Bool} (h : s.turn alike a publishes = some t) :
    s.exchange.outcome = none ∧ t.settled = s.settled := by
  obtain ⟨exchange, hstep, ht⟩ := Option.map_eq_some_iff.mp h
  rw [← ht]
  exact ⟨Exchange.step_running hstep, rfl⟩

theorem wake_running {input : StreamInput} (h : s.wake alike input = some t) :
    s.exchange.outcome = none ∧ t.settled = s.settled := by
  obtain ⟨exchange, hstep, ht⟩ := Option.map_eq_some_iff.mp h
  rw [← ht]
  exact ⟨Exchange.step_running hstep, rfl⟩

/-- The steps of the call itself are taken while it runs and settle nothing. -/
theorem ask_running {publishes : Bool} (h : s.step alike max (.ask publishes) = some t) :
    s.exchange.outcome = none ∧ t.settled = s.settled := by
  have hrunning := (ask_idle h).2
  refine ⟨hrunning, ?_⟩
  simp only [step] at h
  split_ifs at h
  rcases s.stream.next_cases 0 with ⟨a, rest, _, hnext⟩ | ⟨_, _, hnext⟩ | ⟨_, _, hnext⟩
  · simp only [hnext] at h
    exact (turn_running h).2
  · simp only [hnext] at h
    exact (wake_running h).2
  · simp only [hnext] at h
    rw [← Option.some.inj h]

theorem resume_running {publishes : Bool} (h : s.step alike max (.resume publishes) = some t) :
    s.exchange.outcome = none ∧ t.settled = s.settled := by
  cases hasking : s.asking with
  | idle => simp [step, hasking] at h
  | waiting => simp [step, hasking] at h
  | handed r =>
    simp only [step, hasking] at h
    cases r with
    | none => exact wake_running h
    | some a => exact turn_running h

theorem Tracks.resume (hs : s.Tracks alike) {publishes : Bool}
    (h : s.step alike max (.resume publishes) = some t) : t.Tracks alike := by
  cases hasking : s.asking with
  | idle => simp [step, hasking] at h
  | waiting => simp [step, hasking] at h
  | handed r =>
    simp only [step, hasking] at h
    cases r with
    | none => exact hs.wake h
    | some a =>
      have hsettled := hs.running (turn_running h).1
      have hparts := hs.parts hsettled
      rw [hasking] at hparts
      exact tracks_turn hs.numbers hsettled hparts hs.aside hs.used h

/-- What the call buffers goes to the end of an open stream and nowhere else. -/
theorem pushAll_stream (isDone : ℕ → Bool) (buffered : List Arrival) :
    ∀ stream : MessageStream Arrival, stream.served .python isDone = none →
      (stream.closed = true ∨ stream.queue.length + buffered.length ≤ max) →
      buffered.foldl (fun stream a => (stream.pushBounded max isDone a).1) stream =
        { stream with queue := stream.queue ++ if stream.closed then [] else buffered } := by
  induction buffered with
  | nil => intro stream _ _; simp
  | cons a buffered ih =>
    intro stream hnone hroom
    rw [List.foldl_cons]
    rcases stream.pushBounded_cases max isDone a with ⟨hclosed, hpush⟩ | ⟨_, call, hcall, _⟩ |
      ⟨hopen, _, hpush⟩
    · rw [hpush, ih stream hnone (Or.inl hclosed)]
      simp [hclosed]
    · rw [hnone] at hcall
      cases hcall
    · have hlength : stream.queue.length + (buffered.length + 1) ≤ max := by
        rcases hroom with hclosed | hroom
        · rw [hopen] at hclosed
          cases hclosed
        · exact hroom
      have hfirst : stream.queue.length < max := by omega
      rw [hpush, Deque.append_of_room hfirst, ih]
      · simp [hopen]
      · exact hnone
      · right
        rw [List.length_append, List.length_singleton]
        omega

/-- The `finally` of a call that has ended. -/
theorem settle_cases (hs : s.Tracks alike) (hroomy : s.Roomy max .settle)
    (h : s.step alike max .settle = some t) :
    s.exchange.outcome.isSome = true ∧ s.settled = false ∧
      t = { s with
        stream := { s.stream with
          queue := s.stream.queue ++ if s.stream.closed then [] else s.buffered }
        settled := true } := by
  simp only [step] at h
  split_ifs at h with hending
  obtain ⟨hended, hsettled⟩ := Bool.and_eq_true_iff.mp hending
  refine ⟨hended, by simpa using hsettled, ?_⟩
  have hidle : s.asking.isWaiting = false := by
    rw [hs.idle hended]
    rfl
  rw [← Option.some.inj h, giveBack, pushAll_stream _ _ _ (served_none hidle) hroomy]

theorem Tracks.settle (hs : s.Tracks alike) (hroomy : s.Roomy max .settle)
    (h : s.step alike max .settle = some t) : t.Tracks alike := by
  obtain ⟨hended, hsettled, ht⟩ := settle_cases hs hroomy h
  rw [ht]
  refine ⟨hs.numbers, ?_, hs.idle, fun _ => hended, ?_, hs.aside, hs.used⟩
  · intro hwaiting
    change s.asking.isWaiting = true at hwaiting
    rw [hs.idle hended] at hwaiting
    cases hwaiting
  · intro hopen
    cases hopen

theorem Tracks.step (hs : s.Tracks alike) {action : PullReadingAction} (hroomy : s.Roomy max action)
    (h : s.step alike max action = some t) : t.Tracks alike := by
  cases action with
  | arrive m => exact hs.arrive hroomy h
  | close => exact hs.close h
  | ask publishes => exact hs.ask h
  | resume publishes => exact hs.resume h
  | timeout => exact hs.wake h
  | cancel => exact hs.wake h
  | settle => exact hs.settle hroomy h

/-! ### What the reader finds -/

theorem gaveBack_iff :
    s.GaveBack alike ↔ s.stream.queue = s.arrived.filter fun a => !s.belongs alike a := by
  simp only [GaveBack, MessageStream.taken_eq]
  constructor
  · intro h
    have hlong := h (s.stream.queue.length + (s.arrived.filter fun a => !s.belongs alike a).length)
    rwa [List.take_of_length_le (by omega), List.take_of_length_le (by omega)] at hlong
  · intro h n
    rw [h]

theorem Tracks.mem_buffered (hs : s.Tracks alike) {a : Arrival} :
    a ∈ s.buffered ↔ (a, .aside) ∈ s.read := by
  rw [hs.aside]
  constructor
  · intro h
    obtain ⟨e, he, hsame⟩ := List.mem_map.mp h
    obtain ⟨hread, haside⟩ := List.mem_filter.mp he
    have hpair : e = (a, .aside) := Prod.ext hsame (of_decide_eq_true haside)
    rwa [hpair] at hread
  · intro h
    exact List.mem_map.mpr ⟨_, List.mem_filter.mpr ⟨h, rfl⟩, rfl⟩

/-- In a closed stream nothing may have been read but what belongs to the exchange. -/
theorem Tracks.closed_iff (hs : s.Tracks alike) :
    (∀ e ∈ s.read, s.belongs alike e.1 = true) ↔
      (∀ a, (a, .dropped) ∈ s.read → s.belongs alike a = true) ∧
        ∀ a ∈ s.buffered, s.belongs alike a = true := by
  constructor
  · intro h
    exact ⟨fun a ha => h _ ha, fun a ha => h _ (hs.mem_buffered.mp ha)⟩
  · rintro ⟨hdropped, haside⟩ ⟨a, verdict⟩ he
    cases verdict with
    | used => exact hs.used a he
    | aside => exact haside a (hs.mem_buffered.mpr he)
    | dropped => exact hdropped a he

/-- In an open one exactly what does not belong to it must be set aside. -/
theorem Tracks.opened_iff (hs : s.Tracks alike) :
    (∀ e ∈ s.read, (!s.belongs alike e.1) = decide (e.2 = .aside)) ↔
      (∀ a, (a, .dropped) ∈ s.read → s.belongs alike a = true) ∧
        ∀ a ∈ s.buffered, s.belongs alike a = false := by
  constructor
  · intro h
    constructor
    · intro a ha
      simpa using h _ ha
    · intro a ha
      simpa using h _ (hs.mem_buffered.mp ha)
  · rintro ⟨hdropped, haside⟩ ⟨a, verdict⟩ he
    cases verdict with
    | used => simpa using hs.used a he
    | aside => simpa using haside a (hs.mem_buffered.mpr he)
    | dropped => simpa using hdropped a he

/-- The call has given back exactly what it should when it ends clean. -/
theorem settle_gaveBack (hs : s.Tracks alike) (hroomy : s.Roomy max .settle)
    (h : s.step alike max .settle = some t) : t.GaveBack alike ↔ s.EndsClean alike := by
  obtain ⟨hended, hsettled, ht⟩ := settle_cases hs hroomy h
  have hparts : s.arrived = s.read.map Prod.fst ++ s.stream.queue := by
    have hparts := hs.parts hsettled
    rwa [hs.idle hended] at hparts
  have hnodup : (s.read.map Prod.fst ++ s.stream.queue).Nodup := by
    rw [← hparts]
    exact hs.nodup
  have hread : (s.read.map Prod.fst).Nodup := hnodup.of_append_left
  have hunread : (∀ a ∈ s.stream.queue, (!s.belongs alike a) = true) ↔
      ∀ a ∈ s.stream.queue, s.belongs alike a = false := by
    simp
  rw [gaveBack_iff, ht]
  change s.stream.queue ++ (if s.stream.closed then [] else s.buffered) =
    s.arrived.filter (fun a => !s.belongs alike a) ↔ _
  rw [hparts, Deque.behind_eq_filter_iff hnodup, hunread]
  cases hclosed : s.stream.closed with
  | true =>
    have hnone : [] = (s.read.map Prod.fst).filter (fun a => !s.belongs alike a) ↔
        ∀ e ∈ s.read, s.belongs alike e.1 = true := by
      rw [eq_comm, List.filter_eq_nil_iff]
      simp
    simp only [if_true, hnone, hs.closed_iff, true_or, and_true]
    constructor
    · rintro ⟨⟨hdropped, haside⟩, hqueue⟩
      refine ⟨hdropped, hqueue, ?_, fun _ => haside⟩
      intro hopen
      rw [hclosed] at hopen
      cases hopen
    · intro hclean
      exact ⟨⟨hclean.dropped, hclean.closed hclosed⟩, hclean.unread⟩
  | false =>
    have hmarked : s.buffered = (s.read.map Prod.fst).filter (fun a => !s.belongs alike a) ↔
        ∀ e ∈ s.read, (!s.belongs alike e.1) = decide (e.2 = .aside) := by
      rw [hs.aside]
      exact @Deque.marked_eq_filter_iff _ _ s.read (fun verdict => decide (verdict = .aside)) _ hread
    simp only [Bool.false_eq_true, if_false, hmarked, hs.opened_iff]
    constructor
    · rintro ⟨⟨hdropped, haside⟩, hqueue, hempty⟩
      refine ⟨hdropped, hqueue, fun _ => ⟨haside, hempty⟩, ?_⟩
      intro hshut
      rw [hclosed] at hshut
      cases hshut
    · intro hclean
      obtain ⟨haside, hempty⟩ := hclean.opened hclosed
      exact ⟨⟨hclean.dropped, haside⟩, hclean.unread, hempty⟩

/-- A message that comes after the call is found behind the others. -/
theorem arrive_gaveBack {m : StreamMessage}
    (ht : t = { s with
      stream := { s.stream with queue := s.stream.queue ++ [s.arrival m] }
      arrived := s.arrived ++ [s.arrival m] }) :
    t.GaveBack alike ↔ s.GaveBack alike ∧ s.belongs alike (s.arrival m) = false := by
  rw [gaveBack_iff, gaveBack_iff, ht]
  change s.stream.queue ++ [s.arrival m] =
    (s.arrived ++ [s.arrival m]).filter (fun a => !s.belongs alike a) ↔ _
  rw [List.filter_append, List.filter_singleton]
  cases hbelongs : s.belongs alike (s.arrival m) with
  | false => simp
  | true =>
    simp only [Bool.not_true, cond_false, List.append_nil, Bool.true_eq_false, and_false,
      iff_false]
    intro h
    have hmem : s.arrival m ∈ s.arrived.filter fun a => !s.belongs alike a := by
      rw [← h]
      exact List.mem_append_right _ (List.mem_singleton_self _)
    have hforeign := (List.mem_filter.mp hmem).2
    rw [hbelongs] at hforeign
    cases hforeign

/-- After each action the reader finds what it should exactly when it did before and
the action is clean. -/
theorem step_gaveBack (hs : s.Tracks alike) {action : PullReadingAction} (hroomy : s.Roomy max action)
    (h : s.step alike max action = some t) :
    (t.settled = true → t.GaveBack alike) ↔
      (s.settled = true → s.GaveBack alike) ∧ s.Clean alike action := by
  have hrunning : s.exchange.outcome = none ∧ t.settled = s.settled →
      s.Clean alike action → ((t.settled = true → t.GaveBack alike) ↔
        (s.settled = true → s.GaveBack alike) ∧ s.Clean alike action) := by
    rintro ⟨hnone, hsame⟩ hclean
    rw [hsame, hs.running hnone]
    simp [hclean]
  cases action with
  | arrive m =>
    rcases arrive_cases hs hroomy h with ⟨hclosed, ht⟩ | ⟨hopen, hwaiting, ht⟩ | ⟨hopen, _, ht⟩
    · rw [ht]
      simp [Clean, hclosed]
    · have hsettled := (hs.waiting_runs hwaiting).2
      have hsame : t.settled = s.settled := by rw [ht]
      rw [hsame, hsettled]
      simp [Clean, hsettled]
    · have hsame : t.settled = s.settled := by rw [ht]
      rw [hsame, arrive_gaveBack ht]
      simp only [Clean, hopen, forall_const]
      exact imp_and
  | close =>
    have hkept : t.settled = s.settled ∧ (t.GaveBack alike ↔ s.GaveBack alike) := by
      rw [gaveBack_iff, gaveBack_iff]
      rcases close_cases hs h with ⟨_, ht⟩ | ⟨_, ht⟩ | ⟨_, ht⟩
      · rw [ht]
        exact ⟨rfl, Iff.rfl⟩
      · rw [ht]
        exact ⟨rfl, Iff.rfl⟩
      · rw [ht]
        exact ⟨rfl, Iff.rfl⟩
    rw [hkept.1, hkept.2]
    simp [Clean]
  | ask publishes => exact hrunning (ask_running h) trivial
  | resume publishes => exact hrunning (resume_running h) trivial
  | timeout => exact hrunning (wake_running h) trivial
  | cancel => exact hrunning (wake_running h) trivial
  | settle =>
    obtain ⟨_, hsettled, ht⟩ := settle_cases hs hroomy h
    have hdone : t.settled = true := by rw [ht]
    rw [hdone, hsettled]
    simp only [Clean, forall_const, Bool.false_eq_true, false_imp_iff, true_and]
    exact settle_gaveBack hs hroomy h

/-- In every run in which at most `max` messages wait, the reader of a stream whose
call is over finds exactly what arrived and does not belong to the exchange, in the
order of arrival, if and only if the call has ended clean and nothing of the
exchange has come after it. -/
theorem run_gaveBack_iff (alike : Value → Value → Bool) (max : ℕ) (exchange : Exchange)
    (waiting : List StreamMessage) (closed : Bool) {actions : List PullReadingAction} {t : PullReading}
    (hroomy : Obeys (step alike max) (Roomy max) (start exchange waiting closed) actions)
    (hrun : run (step alike max) (start exchange waiting closed) actions = some t) :
    (t.settled = true → t.GaveBack alike) ↔
      Obeys (step alike max) (Clean alike) (start exchange waiting closed) actions := by
  have hinv : ∀ (s : PullReading) (action : PullReadingAction) (t : PullReading), s.Tracks alike →
      s.Roomy max action → s.step alike max action = some t → t.Tracks alike :=
    fun _ _ _ hs hroom h => hs.step hroom h
  have hstep : ∀ (s : PullReading) (action : PullReadingAction) (t : PullReading), s.Tracks alike →
      s.Roomy max action → s.step alike max action = some t →
        ((t.settled = true → t.GaveBack alike) ↔
          (s.settled = true → s.GaveBack alike) ∧ s.Clean alike action) :=
    fun _ _ _ hs hroom h => step_gaveBack hs hroom h
  have hiff := run_iff_obeys_within (P := fun s => s.settled = true → s.GaveBack alike) hinv hstep
    (tracks_start exchange waiting closed) hroomy hrun
  have hstart : (start exchange waiting closed).settled = true →
      (start exchange waiting closed).GaveBack alike := by
    intro h
    cases h
  rw [hiff]
  exact and_iff_right hstart

def tick : StreamMessage := ⟨"timer.tick", .null, none⟩

/-- An offer of nothing, which ends with the first pull. -/
def nothing : Exchange := .offer (.announce "strm" "work.item" (fun _ => none) none true)

def strmPull : StreamMessage := .pull (some (.string "strm"))

/-- A tick is read and given back behind nothing. -/
theorem run_gaveBack_tick :
    ∃ t, run (step (fun _ _ => false) 1000) (start nothing [tick] false)
        [.ask true, .ask true, .arrive strmPull, .resume true, .settle] = some t ∧
      ((t.settled = true → t.GaveBack fun _ _ => false) ↔
        Obeys (step (fun _ _ => false) 1000) (Clean fun _ _ => false) (start nothing [tick] false)
          [.ask true, .ask true, .arrive strmPull, .resume true, .settle]) ∧
      t.stream.taken 2 = [⟨0, tick⟩] := by
  have hroomy : Obeys (step (fun _ _ => false) 1000) (Roomy 1000) (start nothing [tick] false)
      [.ask true, .ask true, .arrive strmPull, .resume true, .settle] := by decide
  exact ⟨_, rfl, run_gaveBack_iff _ 1000 nothing [tick] false hroomy rfl, rfl⟩

/-- A tick that was set aside is lost when the stream is closed under the call, and
otherwise comes behind one that arrived later. -/
theorem tick_not_given_back :
    (∃ t, run (step (fun _ _ => false) 1000) (start nothing [tick] false)
        [.ask true, .ask true, .close, .resume true, .settle] = some t ∧ t.settled = true ∧
      t.stream.taken 1 = [] ∧ ¬ t.GaveBack fun _ _ => false) ∧
    ∃ t, run (step (fun _ _ => false) 1000) (start nothing [tick] false)
        [.ask true, .arrive strmPull, .arrive tick, .ask true, .settle] = some t ∧
      t.settled = true ∧ t.stream.taken 2 = [⟨2, tick⟩, ⟨0, tick⟩] ∧
      ¬ t.GaveBack fun _ _ => false := by
  refine ⟨⟨_, rfl, rfl, rfl, ?_⟩, ⟨_, rfl, rfl, rfl, ?_⟩⟩
  · intro h
    have hlength := congrArg List.length (h 1)
    exact absurd hlength (by decide)
  · intro h
    have hnumbers := congrArg (List.map Arrival.number) (h 1)
    exact absurd hnumbers (by decide)

end PullReading

end Emergent.Sdk

import Emergent.Kit.Runs
import Emergent.Sdk.Message

/-!
# Pull-based streams in the four SDKs

`stream_offer` and `stream_consume` of `sdks/rust/src/connection.rs`,
`sdks/ts/src/handler.ts`, `sdks/py/emergent/handler.py` and `sdks/go/handler.go`.
Each call is a loop over what its `MessageStream` yields: a message, the end of
the stream, or nothing in time. The SDKs agree on the messages and on the order of
the tests; they differ in which `stream.ready` a consumer takes and in what a
closed stream means to the call.
-/

namespace Emergent.Sdk
open Kit

/-- The fields of a message that the two calls look at. -/
structure StreamMessage where
  messageType : String
  payload : Value
  metadata : Option Value

/-- The `stream_id` a consumer has accepted. A `stream.ready` without one leaves
TypeScript with `undefined`, which is `none`. -/
abbrev StreamKey := Option Value

inductive StreamFault where
  | timeout
  | closed
  | cancelled
  | publish
  | missingId
  deriving Repr, DecidableEq

/-- What the loop of a call wakes up with. A message comes with whether the
publish made in answer to it succeeds. -/
inductive StreamInput where
  | message (m : StreamMessage) (publishes : Bool)
  | closed
  | timeout
  | cancelled

def StreamInput.isClosed : StreamInput → Bool
  | .closed => true
  | _ => false

namespace StreamMessage

-- Python and Go add the number of items where they know it
def ready (streamId messageType : String) (count : Option Value) : StreamMessage :=
  ⟨"stream.ready", .object ([("stream_id", .string streamId),
    ("message_type", .string messageType)] ++ (count.map fun v => ("count", v)).toList), none⟩

def pull (key : StreamKey) : StreamMessage :=
  ⟨"stream.pull", .object (key.map fun v => ("stream_id", v)).toList, none⟩

def item (streamId messageType : String) (v : Value) : StreamMessage :=
  ⟨messageType, v, some (.object [("stream_id", .string streamId)])⟩

def finish (streamId : String) : StreamMessage :=
  ⟨"stream.end", .object [("stream_id", .string streamId)], none⟩

end StreamMessage

/-- A member of a value that has members; an array is an object to TypeScript, one
without that member. -/
def memberOf (d : Dialect) (v : Value) (name : String) : Option (Option Value) :=
  match d, v with
  | _, .object fields => some (fields.lookup name)
  | .typescript, .array _ => some none
  | _, _ => none

section
variable (alike : Value → Value → Bool)

/-- Whether a `stream_id` is the accepted one. `alike` is the language's equality on
values of which the accepted one is no string. -/
def sameKey : StreamKey → Option Value → Bool
  | some (.string id), other => other.bind Value.asStr = some id
  | none, other => other.isNone
  | some v, some w => alike v w
  | some _, none => false

def isEnd (d : Dialect) (key : StreamKey) (m : StreamMessage) : Bool :=
  m.messageType = "stream.end" && (memberOf d m.payload "stream_id").any (sameKey alike key)

def isItem (d : Dialect) (messageType : String) (key : StreamKey) (m : StreamMessage) : Bool :=
  m.messageType = messageType &&
    m.metadata.any fun v => (memberOf d v "stream_id").any (sameKey alike key)

end

def isPull (streamId : String) (m : StreamMessage) : Bool :=
  m.messageType = "stream.pull" && (m.payload.get "stream_id").bind Value.asStr = some streamId

inductive Acceptance where
  | accept (key : StreamKey)
  | ignore
  /-- Python's `payload["stream_id"]` raises `KeyError`. -/
  | refuse

def acceptance (d : Dialect) (messageType : String) (m : StreamMessage) : Acceptance :=
  if m.messageType = "stream.ready" ∧
      (m.payload.get "message_type").bind Value.asStr = some messageType then
    match d, m.payload.get "stream_id" with
    | .rust, some (.string id) | .go, some (.string id) => .accept (some (.string id))
    | .rust, _ | .go, _ => .ignore
    | .typescript, some .null | .python, some .null => .ignore
    | .typescript, key => .accept key
    | .python, none => .refuse
    | .python, some v => .accept (some v)
  else .ignore

/-! ### Offering -/

/-- `items n` is what the iterator returns the `n`-th time, `sent` what the call has
published. -/
structure Offer where
  streamId : String
  messageType : String
  items : ℕ → Option Value
  count : Option Value
  published : ℕ
  sent : List StreamMessage
  outcome : Option (Except StreamFault ℕ)

namespace Offer

/-- The call up to its loop. -/
def announce (streamId messageType : String) (items : ℕ → Option Value) (count : Option Value)
    (publishes : Bool) : Offer where
  streamId := streamId
  messageType := messageType
  items := items
  count := count
  published := 0
  sent := if publishes then [.ready streamId messageType count] else []
  outcome := if publishes then none else some (.error .publish)

/-- The turn of the loop for a pull of this stream. An iterator that raises ends
the call as a failed publish does. -/
def serve (s : Offer) (publishes : Bool) : Offer :=
  if publishes then
    match s.items s.published with
    | some v =>
      { s with published := s.published + 1, sent := s.sent ++ [.item s.streamId s.messageType v] }
    | none => { s with sent := s.sent ++ [.finish s.streamId], outcome := some (.ok s.published) }
  else { s with outcome := some (.error .publish) }

def step (d : Dialect) (s : Offer) (input : StreamInput) : Option Offer :=
  if s.outcome.isSome then none
  else match input with
    | .message m publishes => some (if isPull s.streamId m then s.serve publishes else s)
    | .closed =>
      match d with
      | .typescript => some { s with outcome := some (.ok s.published) }
      | _ => some { s with outcome := some (.error .closed) }
    | .timeout => some { s with outcome := some (.error .timeout) }
    | .cancelled => some { s with outcome := some (.error .cancelled) }

def itemsServed (s : Offer) : List Value := (List.range s.published).filterMap s.items

/-- A count is returned after exactly that many items and the end. -/
def Truthful (s : Offer) : Prop :=
  ∀ n, s.outcome = some (.ok n) → s.itemsServed.length = n ∧
    s.sent = .ready s.streamId s.messageType s.count ::
      s.itemsServed.map (.item s.streamId s.messageType) ++ [.finish s.streamId]

/-- TypeScript's pull stream is not closed under the call. -/
def StaysOpen (d : Dialect) (_ : Offer) (input : StreamInput) : Prop :=
  d = .typescript → input.isClosed = false

instance (d : Dialect) (s : Offer) (input : StreamInput) : Decidable (s.StaysOpen d input) :=
  inferInstanceAs (Decidable (_ → _))

/-- The end is sent with the count. -/
def ending (s : Offer) : List StreamMessage :=
  match s.outcome with
  | some (.ok _) => [.finish s.streamId]
  | _ => []

/-- What a call has sent at each point of its run. -/
structure Going (s : Offer) : Prop where
  served : s.itemsServed.length = s.published
  returned : ∀ n, s.outcome = some (.ok n) → n = s.published
  unsent : s.sent = [] → s.outcome = some (.error .publish)
  transcript : s.sent ≠ [] → s.sent = .ready s.streamId s.messageType s.count ::
    s.itemsServed.map (.item s.streamId s.messageType) ++ s.ending

variable {d : Dialect} {s t : Offer}

theorem going_announce (streamId messageType : String) (items : ℕ → Option Value)
    (count : Option Value) (publishes : Bool) :
    (announce streamId messageType items count publishes).Going := by
  cases publishes with
  | true => exact ⟨rfl, fun n h => (by cases h), fun h => (by cases h), fun _ => rfl⟩
  | false => exact ⟨rfl, fun n h => (by cases h), fun _ => rfl, fun h => absurd rfl h⟩

theorem Going.sent_running (hs : s.Going) (hrun : s.outcome = none) :
    s.sent = .ready s.streamId s.messageType s.count ::
      s.itemsServed.map (.item s.streamId s.messageType) := by
  have hne : s.sent ≠ [] := by
    intro hnil
    have hfailed := hs.unsent hnil
    rw [hrun] at hfailed
    cases hfailed
  have hsent := hs.transcript hne
  simpa only [ending, hrun, List.append_nil] using hsent

theorem Going.fails (hs : s.Going) (hrun : s.outcome = none) (fault : StreamFault) :
    ({ s with outcome := some (.error fault) } : Offer).Going := by
  have hsent := hs.sent_running hrun
  refine ⟨hs.served, fun n h => (by cases h), fun hnil => ?_, fun _ => ?_⟩
  · have hnil' : s.sent = [] := hnil
    rw [hsent] at hnil'
    cases hnil'
  · simp only [ending, List.append_nil]
    exact hsent

/-- What a running call does with a message. -/
theorem step_message {m : StreamMessage} {publishes : Bool}
    (h : s.step d (.message m publishes) = some t) :
    s.outcome = none ∧
      (t = s ∨ t = { s with outcome := some (.error .publish) } ∨
        (∃ v, isPull s.streamId m = true ∧ s.items s.published = some v ∧
          t = { s with
            published := s.published + 1
            sent := s.sent ++ [.item s.streamId s.messageType v] }) ∨
        t = { s with
          sent := s.sent ++ [.finish s.streamId], outcome := some (.ok s.published) }) := by
  simp only [step] at h
  split_ifs at h with hdone hpull
  · refine ⟨by simpa using hdone, ?_⟩
    obtain rfl := Option.some.inj h
    unfold serve
    split_ifs
    · split
      · rename_i v hitem
        exact Or.inr (Or.inr (Or.inl ⟨v, hpull, hitem, rfl⟩))
      · exact Or.inr (Or.inr (Or.inr rfl))
    · exact Or.inr (Or.inl rfl)
  · obtain rfl := Option.some.inj h
    exact ⟨by simpa using hdone, Or.inl rfl⟩

/-- What wakes a call up without a message ends it. -/
theorem step_wake {input : StreamInput} (hguard : s.StaysOpen d input)
    (hwake : ∀ m publishes, input ≠ .message m publishes) (h : s.step d input = some t) :
    s.outcome = none ∧ ∃ fault, t = { s with outcome := some (.error fault) } := by
  simp only [step] at h
  split_ifs at h with hdone
  refine ⟨by simpa using hdone, ?_⟩
  cases input with
  | message m publishes => exact absurd rfl (hwake m publishes)
  | closed =>
    cases d with
    | typescript => exact absurd (hguard rfl) (by simp [StreamInput.isClosed])
    | rust => exact ⟨_, (Option.some.inj h).symm⟩
    | python => exact ⟨_, (Option.some.inj h).symm⟩
    | go => exact ⟨_, (Option.some.inj h).symm⟩
  | timeout => exact ⟨_, (Option.some.inj h).symm⟩
  | cancelled => exact ⟨_, (Option.some.inj h).symm⟩

theorem Going.serve_item (hs : s.Going) (hrun : s.outcome = none) {v : Value}
    (hitem : s.items s.published = some v) :
    ({ s with
        published := s.published + 1
        sent := s.sent ++ [.item s.streamId s.messageType v] } : Offer).Going := by
  have hsent := hs.sent_running hrun
  have hserved : ({ s with
      published := s.published + 1
      sent := s.sent ++ [.item s.streamId s.messageType v] } : Offer).itemsServed =
        s.itemsServed ++ [v] := by
    simp only [itemsServed, List.range_succ, List.filterMap_append, List.filterMap_cons, hitem,
      List.filterMap_nil]
  refine ⟨?_, fun n h => ?_, fun h => (by simp at h), fun _ => ?_⟩
  · simp only [hserved, List.length_append, List.length_singleton, hs.served]
  · rw [hrun] at h
    cases h
  · rw [hserved]
    simp only [ending, hrun, hsent, List.map_append, List.map_cons, List.map_nil, List.cons_append,
      List.append_nil]

theorem Going.serve_end (hs : s.Going) (hrun : s.outcome = none) :
    ({ s with sent := s.sent ++ [.finish s.streamId], outcome := some (.ok s.published) } :
      Offer).Going := by
  have hsent := hs.sent_running hrun
  refine ⟨hs.served, fun n h => ?_, fun h => (by simp at h), fun _ => ?_⟩
  · have heq : s.published = n := by simpa using h
    exact heq.symm
  · simp only [ending, hsent]
    rfl

theorem Going.step (hs : s.Going) {input : StreamInput} (hguard : s.StaysOpen d input)
    (h : s.step d input = some t) : t.Going := by
  by_cases hwake : ∃ m publishes, input = .message m publishes
  · obtain ⟨m, publishes, rfl⟩ := hwake
    obtain ⟨hrun, rfl | rfl | ⟨v, _, hitem, rfl⟩ | rfl⟩ := step_message h
    · exact hs
    · exact hs.fails hrun _
    · exact hs.serve_item hrun hitem
    · exact hs.serve_end hrun
  · obtain ⟨hrun, fault, rfl⟩ :=
      step_wake hguard (fun m publishes heq => hwake ⟨m, publishes, heq⟩) h
    exact hs.fails hrun fault

theorem Going.truthful (hs : s.Going) : s.Truthful := by
  intro n hn
  have hne : s.sent ≠ [] := by
    intro hnil
    have hfailed := hs.unsent hnil
    rw [hn] at hfailed
    cases hfailed
  refine ⟨hs.served.trans (hs.returned n hn).symm, ?_⟩
  have hsent := hs.transcript hne
  simpa only [ending, hn] using hsent

end Offer

/-! ### Consuming -/

/-- `seen` are the messages read since a stream was accepted, `received` the items
among them. -/
structure Consume where
  messageType : String
  accepted : Option StreamKey
  received : List StreamMessage
  seen : List StreamMessage
  sent : List StreamMessage
  outcome : Option (Except StreamFault ℕ)

namespace Consume

def begin (messageType : String) : Consume := ⟨messageType, none, [], [], [], none⟩

def fails (s : Consume) (fault : StreamFault) : Consume :=
  { s with outcome := some (.error fault) }

def requestNext (s : Consume) (key : StreamKey) (publishes : Bool) : Consume :=
  if publishes then { s with sent := s.sent ++ [.pull key] } else s.fails .publish

/-- The loop that waits for `stream.ready`. -/
def awaitReady (d : Dialect) (s : Consume) (m : StreamMessage) (publishes : Bool) : Consume :=
  match acceptance d s.messageType m with
  | .accept key => { s with accepted := some key }.requestNext key publishes
  | .ignore => s
  | .refuse => s.fails .missingId

/-- The loop over the items. -/
def awaitItem (alike : Value → Value → Bool) (d : Dialect) (s : Consume) (key : StreamKey)
    (m : StreamMessage) (publishes : Bool) : Consume :=
  if isEnd alike d key m then
    { s with seen := s.seen ++ [m], outcome := some (.ok s.received.length) }
  else if isItem alike d s.messageType key m then
    { s with seen := s.seen ++ [m], received := s.received ++ [m] }.requestNext key publishes
  else { s with seen := s.seen ++ [m] }

def step (alike : Value → Value → Bool) (d : Dialect) (s : Consume) (input : StreamInput) :
    Option Consume :=
  if s.outcome.isSome then none
  else match input, s.accepted with
    | .message m publishes, none => some (s.awaitReady d m publishes)
    | .message m publishes, some key => some (s.awaitItem alike d key m publishes)
    | .closed, none => some (s.fails .closed)
    | .closed, some _ =>
      match d with
      | .typescript => some { s with outcome := some (.ok s.received.length) }
      | _ => some (s.fails .closed)
    | .timeout, _ => some (s.fails .timeout)
    | .cancelled, _ => some (s.fails .cancelled)

/-- A call that ends without an error has read the end of the stream it accepted. -/
def Truthful (alike : Value → Value → Bool) (d : Dialect) (s : Consume) : Prop :=
  ∀ n, s.outcome = some (.ok n) → n = s.received.length ∧
    ∃ key, s.accepted = some key ∧ ∃ m ∈ s.seen, isEnd alike d key m = true

/-- TypeScript's source stream is not closed once a stream is accepted. -/
def StaysOpen (d : Dialect) (s : Consume) (input : StreamInput) : Prop :=
  d = .typescript → s.accepted.isSome = true → input.isClosed = false

instance (d : Dialect) (s : Consume) (input : StreamInput) : Decidable (s.StaysOpen d input) :=
  inferInstanceAs (Decidable (_ → _ → _))

variable {alike : Value → Value → Bool} {d : Dialect} {s t : Consume}

theorem truthful_of_none (h : s.outcome = none) : s.Truthful alike d := by
  intro n hn
  rw [h] at hn
  cases hn

theorem truthful_fails (s : Consume) (fault : StreamFault) : (s.fails fault).Truthful alike d := by
  intro n hn
  cases hn

theorem truthful_requestNext (hrun : s.outcome = none) (key : StreamKey) (publishes : Bool) :
    (s.requestNext key publishes).Truthful alike d := by
  unfold requestNext
  split_ifs
  · exact truthful_of_none hrun
  · exact truthful_fails s _

theorem truthful_awaitReady (hrun : s.outcome = none) (m : StreamMessage) (publishes : Bool) :
    (s.awaitReady d m publishes).Truthful alike d := by
  unfold awaitReady
  split
  · rename_i key _
    exact truthful_requestNext (s := { s with accepted := some key }) hrun key publishes
  · exact truthful_of_none hrun
  · exact truthful_fails s _

theorem truthful_awaitItem {key : StreamKey} (hrun : s.outcome = none)
    (hkey : s.accepted = some key) (m : StreamMessage) (publishes : Bool) :
    (s.awaitItem alike d key m publishes).Truthful alike d := by
  unfold awaitItem
  split_ifs with hend
  · intro n hn
    obtain rfl : s.received.length = n := by simpa using hn
    exact ⟨rfl, key, hkey, m, List.mem_append_right _ (List.mem_singleton_self m), hend⟩
  · exact truthful_requestNext
      (s := { s with seen := s.seen ++ [m], received := s.received ++ [m] }) hrun key publishes
  · exact truthful_of_none hrun

/-- A step is taken by a call that is still running, so it needs no invariant. -/
theorem truthful_step {input : StreamInput} (hguard : s.StaysOpen d input)
    (h : s.step alike d input = some t) : t.Truthful alike d := by
  simp only [step] at h
  split_ifs at h with hdone
  have hrun : s.outcome = none := by simpa using hdone
  cases input with
  | message m publishes =>
    cases hkey : s.accepted with
    | none =>
      simp only [hkey] at h
      obtain rfl := Option.some.inj h
      exact truthful_awaitReady hrun m publishes
    | some key =>
      simp only [hkey] at h
      obtain rfl := Option.some.inj h
      exact truthful_awaitItem hrun hkey m publishes
  | closed =>
    cases hkey : s.accepted with
    | none =>
      simp only [hkey] at h
      obtain rfl := Option.some.inj h
      exact truthful_fails s _
    | some key =>
      simp only [hkey] at h
      cases d with
      | typescript => exact absurd (hguard rfl (by rw [hkey]; rfl)) (by simp [StreamInput.isClosed])
      | rust =>
        obtain rfl := Option.some.inj h
        exact truthful_fails s _
      | python =>
        obtain rfl := Option.some.inj h
        exact truthful_fails s _
      | go =>
        obtain rfl := Option.some.inj h
        exact truthful_fails s _
  | timeout =>
    obtain rfl := Option.some.inj h
    exact truthful_fails s _
  | cancelled =>
    obtain rfl := Option.some.inj h
    exact truthful_fails s _

end Consume

/-! ### No call ends quietly in the middle of a stream -/

/-- In every SDK, whatever messages arrive and wherever the stream ends or a wait
times out: a count that an offer returns counts what it published before its end,
and a consumer that returns has read the end, unless TypeScript's stream is closed
while the offer waits for a pull or the consumer for an item. -/
theorem pull_calls_truthful (d : Dialect) (alike : Value → Value → Bool) :
    (∀ streamId messageType items count publishes inputs s,
      Obeys (Offer.step d) (Offer.StaysOpen d)
        (.announce streamId messageType items count publishes) inputs →
      run (Offer.step d) (.announce streamId messageType items count publishes) inputs = some s →
      s.Truthful) ∧
    ∀ messageType inputs s,
      Obeys (Consume.step alike d) (Consume.StaysOpen d) (.begin messageType) inputs →
      run (Consume.step alike d) (.begin messageType) inputs = some s →
      s.Truthful alike d := by
  constructor
  · intro streamId messageType items count publishes inputs s hguard hrun
    have hgoing : s.Going :=
      run_invariant_of_obeys (fun _ _ _ hs hg h => hs.step hg h)
        (Offer.going_announce streamId messageType items count publishes) hguard hrun
    exact hgoing.truthful
  · intro messageType inputs s hguard hrun
    exact run_invariant_of_obeys (fun _ _ _ _ hg h => Consume.truthful_step hg h)
      (Consume.truthful_of_none rfl) hguard hrun

def strm : StreamMessage := .ready "strm" "work.item" none

def oneItem : Offer := .announce "strm" "work.item" (fun n => [Value.null][n]?) none true

def twoPulls : List StreamInput :=
  List.replicate 2 (.message (.pull (some (.string "strm"))) true)

def wholeStream : List StreamInput :=
  [.message strm true, .message (.item "strm" "work.item" .null) true,
    .message (.finish "strm") true]

theorem pull_calls_truthful_one :
    (∃ s, run (Offer.step .python) oneItem twoPulls = some s ∧ s.Truthful ∧
      s.outcome = some (.ok 1)) ∧
    ∃ s, run (Consume.step (fun _ _ => false) .rust) (.begin "work.item") wholeStream = some s ∧
      s.Truthful (fun _ _ => false) .rust ∧ s.outcome = some (.ok 1) := by
  have hoffer : Obeys (Offer.step .python) (Offer.StaysOpen .python) oneItem twoPulls := by
    decide
  have hconsume : Obeys (Consume.step (fun _ _ => false) .rust) (Consume.StaysOpen .rust)
      (.begin "work.item") wholeStream := by decide
  refine ⟨⟨_, rfl, ?_, rfl⟩, ⟨_, rfl, ?_, rfl⟩⟩
  · exact (pull_calls_truthful .python fun _ _ => false).1 _ _ _ _ _ twoPulls _ hoffer rfl
  · exact (pull_calls_truthful .rust fun _ _ => false).2 _ wholeStream _ hconsume rfl

/-- A TypeScript stream that is closed in the middle looks like a short one. -/
theorem closed_stream_looks_complete :
    (∃ s, run (Offer.step .typescript) (.announce "strm" "work.item" (fun _ => some .null)
        none true) [.message (.pull (some (.string "strm"))) true, .closed] = some s ∧
      s.outcome = some (.ok 1) ∧ ¬ s.Truthful) ∧
    ∃ s, run (Consume.step (fun _ _ => false) .typescript) (.begin "work.item")
        [.message strm true, .message (.item "strm" "work.item" .null) true, .closed] = some s ∧
      s.outcome = some (.ok 1) ∧ ¬ s.Truthful (fun _ _ => false) .typescript := by
  refine ⟨⟨_, rfl, rfl, fun h => ?_⟩, ⟨_, rfl, rfl, fun h => ?_⟩⟩
  · have hlength := congrArg List.length (h 1 rfl).2
    exact absurd hlength (by decide)
  · obtain ⟨_, key, _, m, hm, hend⟩ := h 1 rfl
    obtain rfl : m = .item "strm" "work.item" .null := List.mem_singleton.mp hm
    exact absurd hend (by simp [isEnd, StreamMessage.item])

end Emergent.Sdk

import Emergent.Sdk.Topic
import Emergent.Sdk.Types

/-!
# Subscribing in the four SDKs

`subscribe` of a Handler or Sink over `subscribe_and_stream`
(`sdks/rust/src/connection.rs`), `subscribeInternal` of `ts/src/client.ts` and
`go/client.go`, `_subscribe` of `py/emergent/_client.py`. One call makes a request
for the message types and, with selectors among the topics, a second one for
these. The engine applies a request whole or not at all; a call that has had no
reply does not know which.

The state is the client together with what the engine holds for its connection.
A stream is known by its place in `streams`, which tells whether it is open, and
pushes go to the `registered` one.
-/

namespace Emergent.Sdk

inductive SubscribeAnswer where
  | accepted (subscribed : List String)
  | refused (error : Option String)
  | failed (error : String) (applied : Bool)
  deriving Repr, DecidableEq

def SubscribeAnswer.isAccepted : SubscribeAnswer → Bool
  | .accepted _ => true
  | .refused _ | .failed _ _ => false

def SubscribeAnswer.isApplied : SubscribeAnswer → Bool
  | .accepted _ => true
  | .refused _ => false
  | .failed _ applied => applied

/-- `request` is the error of the request itself, thrown on as it is. -/
inductive SubscribeError where
  | notConnected
  | invalidTopic (e : InvalidTopic)
  | request (error : String)
  | subscription (message : String) (types : List String)
  deriving Repr, DecidableEq

/-- `hasStream` and `pushReceiver` are read in Rust only, `connected` in the
others. -/
structure Subscriber where
  connected : Bool
  hasStream : Bool
  pushReceiver : Bool
  streams : List Bool
  registered : Option ℕ
  subscribedTypes : List String
  exact : Finset String
  patterns : Finset String
  deriving DecidableEq

/-- The SDK takes part in every shutdown. -/
def withShutdown (exact : List String) : List String :=
  if "system.shutdown" ∈ exact then exact else exact ++ ["system.shutdown"]

namespace Subscriber

def subscribeExact (c : Subscriber) (types : List String) (answer : SubscribeAnswer) :
    Subscriber :=
  if answer.isApplied then { c with exact := c.exact ∪ types.toFinset } else c

def subscribePatterns (c : Subscriber) (patterns : List String) (answer : SubscribeAnswer) :
    Subscriber :=
  if answer.isApplied then { c with patterns := c.patterns ∪ patterns.toFinset } else c

/-! ### Rust -/

/-- The push receiver is bridged to a new stream. -/
def takeStream (c : Subscriber) (types patterns : List String) :
    Subscriber × Except SubscribeError (ℕ × List String) :=
  if c.pushReceiver then
    ({ c with
        pushReceiver := false
        streams := c.streams ++ [true]
        registered := some c.streams.length },
      .ok (c.streams.length, types.filter (fun t => t ≠ "system.shutdown") ++ patterns))
  else
    (c, .error (.subscription
      "push receiver already taken (subscribe called more than once?)" []))

def subscribeAndStream (c : Subscriber) (topics : List String) (first second : SubscribeAnswer) :
    Subscriber × Except SubscribeError (ℕ × List String) :=
  match partitionTopics topics with
  | .error e => (c, .error (.invalidTopic e))
  | .ok partition =>
    let c := c.subscribeExact (withShutdown partition.exact) first
    match first with
    | .failed error _ => (c, .error (.subscription s!"subscribe failed: {error}" []))
    | .refused error => (c, .error (.subscription (error.getD "unknown error") []))
    | .accepted types =>
      if partition.patterns.isEmpty then c.takeStream types []
      else
        let c := c.subscribePatterns partition.patterns second
        match second with
        | .failed error _ => (c, .error (.subscription s!"pattern subscribe failed: {error}" []))
        | .refused error => (c, .error (.subscription (error.getD "unknown error") []))
        | .accepted patterns => c.takeStream types patterns

def subscribeRust (c : Subscriber) (topics : List String) (first second : SubscribeAnswer) :
    Subscriber × Except SubscribeError ℕ :=
  if c.hasStream then
    (c, .error (.subscription ("this client already has a message stream: " ++
      "pass every topic to one subscribe call, or connect another client") []))
  else
    match c.subscribeAndStream topics first second with
    | (c, .error e) => (c, .error e)
    | (c, .ok (stream, types)) =>
      ({ c with subscribedTypes := types, hasStream := true }, .ok stream)

/-! ### TypeScript, Go and Python -/

/-- A stream that closes is registered no longer. -/
def closeStream (c : Subscriber) (stream : ℕ) : Subscriber :=
  { c with
    streams := c.streams.set stream false
    registered := if c.registered = some stream then none else c.registered }

/-- The streams once the registered one has ended. -/
def endRegistered (c : Subscriber) : List Bool :=
  match c.registered with
  | none => c.streams
  | some stream => c.streams.set stream false

/-- A new stream takes the place of the registered one, whose callback finds it
there. -/
def register (c : Subscriber) : Subscriber :=
  { c with streams := c.endRegistered ++ [true], registered := some c.streams.length }

def track (c : Subscriber) (topics : List String) : Subscriber :=
  { c with
    subscribedTypes := topics.foldl
      (fun types t => if t = "system.shutdown" ∨ t ∈ types then types else types ++ [t])
      c.subscribedTypes }

end Subscriber

/-- Go wraps the error of a request. -/
def requestError (language : Language) (error : String) (types : List String) : SubscribeError :=
  match language with
  | .typescript | .python => .request error
  | .go => .subscription error types

-- `??` in TypeScript, `or` in Python, a comparison with `""` in Go
def refusalText (language : Language) (error : Option String) (fallback : String) : String :=
  match language with
  | .typescript => error.getD fallback
  | .python | .go => (error.filter fun text => text ≠ "").getD fallback

def exactRefusal (language : Language) (error : Option String) (exact topics : List String) :
    SubscribeError :=
  match language with
  | .typescript | .python =>
    .subscription (refusalText language error "Subscription failed") exact
  | .go => .subscription (refusalText language error "subscription failed") topics

def patternRefusal (language : Language) (error : Option String) (patterns : List String) :
    SubscribeError :=
  match language with
  | .typescript | .python =>
    .subscription (refusalText language error "Pattern subscription failed") patterns
  | .go => .subscription (refusalText language error "pattern subscription failed") patterns

namespace Subscriber

def subscribeInternal (language : Language) (c : Subscriber) (topics : List String)
    (first second : SubscribeAnswer) : Subscriber × Except SubscribeError ℕ :=
  if !c.connected then (c, .error .notConnected)
  else
    match partitionTopics topics with
    | .error e => (c, .error (.invalidTopic e))
    | .ok partition =>
      let stream := c.streams.length
      let c := c.register.subscribeExact (withShutdown partition.exact) first
      match first with
      | .failed error _ => (c.closeStream stream, .error (requestError language error topics))
      | .refused error =>
        (c.closeStream stream, .error (exactRefusal language error partition.exact topics))
      | .accepted _ =>
        if partition.patterns.isEmpty then (c.track topics, .ok stream)
        else
          let c := c.subscribePatterns partition.patterns second
          match second with
          | .failed error _ =>
            (c.closeStream stream, .error (requestError language error partition.patterns))
          | .refused error =>
            (c.closeStream stream, .error (patternRefusal language error partition.patterns))
          | .accepted _ => (c.track topics, .ok stream)

def subscribe (c : Subscriber) : Dialect → List String → SubscribeAnswer → SubscribeAnswer →
    Subscriber × Except SubscribeError ℕ
  | .rust => c.subscribeRust
  | .typescript => c.subscribeInternal .typescript
  | .python => c.subscribeInternal .python
  | .go => c.subscribeInternal .go

/-! ### A call that fails -/

/-- The call gets as far as its first request. -/
def Asks (c : Subscriber) (dialect : Dialect) (topics : List String) : Prop :=
  (match dialect with
    | .rust => c.hasStream = false
    | .typescript | .python | .go => c.connected = true) ∧
  ∃ partition, partitionTopics topics = .ok partition

/-- The engine applies a request of the call that names a topic it did not hold. -/
def Adds (c : Subscriber) (topics : List String) (first second : SubscribeAnswer) : Prop :=
  ∃ partition, partitionTopics topics = .ok partition ∧
    ((first.isApplied = true ∧ ¬ (withShutdown partition.exact).toFinset ⊆ c.exact) ∨
      (first.isAccepted = true ∧ second.isApplied = true ∧
        ¬ partition.patterns.toFinset ⊆ c.patterns))

/-- What the requests of a call leave with the engine; the second one is made when
the first was accepted. -/
def requested (c : Subscriber) (partition : TopicPartition) (first second : SubscribeAnswer) :
    Subscriber :=
  let c := c.subscribeExact (withShutdown partition.exact) first
  if first.isAccepted then c.subscribePatterns partition.patterns second else c

variable {c d : Subscriber} {topics : List String} {first second : SubscribeAnswer}
  {partition : TopicPartition} {e : SubscribeError}

theorem takeStream_error {types patterns : List String}
    (h : (c.takeStream types patterns).2 = .error e) : (c.takeStream types patterns).1 = c := by
  unfold takeStream at h ⊢
  split_ifs at h ⊢
  rfl

theorem subscribePatterns_nil (c : Subscriber) (answer : SubscribeAnswer) :
    c.subscribePatterns [] answer = c := by
  unfold subscribePatterns
  split_ifs
  · simp
  · rfl

theorem subscribeAndStream_error (h : (c.subscribeAndStream topics first second).2 = .error e)
    (hpartition : partitionTopics topics = .ok partition) :
    (c.subscribeAndStream topics first second).1 = c.requested partition first second := by
  unfold subscribeAndStream at h ⊢
  rw [hpartition] at h ⊢
  cases first with
  | failed error applied => rfl
  | refused error => rfl
  | accepted types =>
    simp only at h ⊢
    by_cases hnone : partition.patterns.isEmpty = true
    · rw [if_pos hnone] at h ⊢
      have hpatterns : partition.patterns = [] := List.isEmpty_iff.mp hnone
      rw [takeStream_error h, requested, hpatterns]
      exact (subscribePatterns_nil _ second).symm
    · rw [if_neg hnone] at h ⊢
      cases second with
      | failed error applied => rfl
      | refused error => rfl
      | accepted patterns => exact takeStream_error h

/-- A failed call in Rust leaves the client as it was. -/
theorem subscribeRust_error (h : (c.subscribeRust topics first second).2 = .error e) :
    (¬ c.Asks .rust topics ∧ (c.subscribeRust topics first second).1 = c) ∨
      ∃ partition, partitionTopics topics = .ok partition ∧ c.Asks .rust topics ∧
        (c.subscribeRust topics first second).1 = c.requested partition first second := by
  unfold subscribeRust at h ⊢
  by_cases hstream : c.hasStream = true
  · rw [if_pos hstream]
    refine Or.inl ⟨?_, rfl⟩
    intro hasks
    rw [hasks.1] at hstream
    cases hstream
  · rw [if_neg hstream] at h ⊢
    cases hpartition : partitionTopics topics with
    | error invalid =>
      refine Or.inl ⟨?_, ?_⟩
      · intro hasks
        obtain ⟨partition, hok⟩ := hasks.2
        rw [hpartition] at hok
        cases hok
      · simp only [subscribeAndStream, hpartition]
    | ok partition =>
      refine Or.inr ⟨partition, rfl, ⟨by simpa using hstream, partition, hpartition⟩, ?_⟩
      cases hresult : c.subscribeAndStream topics first second with
      | mk after result =>
        cases result with
        | ok streamed =>
          rw [hresult] at h
          cases h
        | error failure =>
          have hafter := subscribeAndStream_error (e := failure) (by rw [hresult]) hpartition
          rw [hresult] at hafter
          exact hafter

/-- In the others a new stream has been registered and closed meanwhile. -/
theorem subscribeInternal_error {language : Language}
    (h : (c.subscribeInternal language topics first second).2 = .error e) :
    ((c.connected = false ∨ ∀ partition, partitionTopics topics ≠ .ok partition) ∧
        (c.subscribeInternal language topics first second).1 = c) ∨
      ∃ partition, partitionTopics topics = .ok partition ∧ c.connected = true ∧
        (c.subscribeInternal language topics first second).1 =
          (c.register.requested partition first second).closeStream c.streams.length := by
  unfold subscribeInternal at h ⊢
  by_cases hconnected : c.connected = true
  case neg =>
    have hlost : (!c.connected) = true := by simpa using hconnected
    rw [if_pos hlost]
    exact Or.inl ⟨Or.inl (by simpa using hconnected), rfl⟩
  have hkept : ¬ (!c.connected) = true := by simp [hconnected]
  rw [if_neg hkept] at h ⊢
  cases hpartition : partitionTopics topics with
  | error invalid => exact Or.inl ⟨Or.inr (by simp), rfl⟩
  | ok partition =>
    refine Or.inr ⟨partition, rfl, hconnected, ?_⟩
    rw [hpartition] at h
    cases first with
    | failed error applied => rfl
    | refused error => rfl
    | accepted types =>
      simp only at h ⊢
      by_cases hnone : partition.patterns.isEmpty = true
      · rw [if_pos hnone] at h
        cases h
      · rw [if_neg hnone] at h ⊢
        cases second with
        | failed error applied => rfl
        | refused error => rfl
        | accepted patterns => cases h

theorem subscribeExact_exact (c : Subscriber) (types : List String) (answer : SubscribeAnswer) :
    (c.subscribeExact types answer).exact =
      if answer.isApplied then c.exact ∪ types.toFinset else c.exact := by
  unfold subscribeExact
  split_ifs <;> rfl

theorem subscribePatterns_patterns (c : Subscriber) (patterns : List String)
    (answer : SubscribeAnswer) :
    (c.subscribePatterns patterns answer).patterns =
      if answer.isApplied then c.patterns ∪ patterns.toFinset else c.patterns := by
  unfold subscribePatterns
  split_ifs <;> rfl

/-- The requests change nothing but what the engine holds. -/
theorem requested_eq (c : Subscriber) (partition : TopicPartition)
    (first second : SubscribeAnswer) :
    c.requested partition first second =
      { c with
        exact := (c.subscribeExact (withShutdown partition.exact) first).exact
        patterns :=
          if first.isAccepted then (c.subscribePatterns partition.patterns second).patterns
          else c.patterns } := by
  unfold requested subscribeExact subscribePatterns
  split_ifs <;> rfl

theorem requested_held (c : Subscriber) (partition : TopicPartition)
    (first second : SubscribeAnswer) :
    c.exact ⊆ (c.requested partition first second).exact ∧
      c.patterns ⊆ (c.requested partition first second).patterns := by
  rw [requested_eq, subscribeExact_exact, subscribePatterns_patterns]
  constructor
  · show c.exact ⊆ if _ then _ else _
    split_ifs
    · exact Finset.subset_union_left
    · exact Finset.Subset.refl _
  · show c.patterns ⊆ if _ then _ else _
    split_ifs
    · exact Finset.subset_union_left
    · exact Finset.Subset.refl _
    · exact Finset.Subset.refl _

theorem requested_of_not_adds (hpartition : partitionTopics topics = .ok partition)
    (h : ¬ c.Adds topics first second) :
    (c.requested partition first second).exact = c.exact ∧
      (c.requested partition first second).patterns = c.patterns := by
  have hfirst : first.isApplied = true → (withShutdown partition.exact).toFinset ⊆ c.exact := by
    intro happlied
    by_contra hnew
    exact h ⟨partition, hpartition, Or.inl ⟨happlied, hnew⟩⟩
  have hsecond : first.isAccepted = true → second.isApplied = true →
      partition.patterns.toFinset ⊆ c.patterns := by
    intro haccepted happlied
    by_contra hnew
    exact h ⟨partition, hpartition, Or.inr ⟨haccepted, happlied, hnew⟩⟩
  rw [requested_eq, subscribeExact_exact, subscribePatterns_patterns]
  constructor
  · show (if _ then _ else _) = c.exact
    split_ifs with happlied
    · exact Finset.union_eq_left.mpr (hfirst happlied)
    · rfl
  · show (if _ then _ else _) = c.patterns
    split_ifs with haccepted happlied
    · exact Finset.union_eq_left.mpr (hsecond haccepted happlied)
    · rfl
    · rfl

theorem endRegistered_length (c : Subscriber) : c.endRegistered.length = c.streams.length := by
  unfold endRegistered
  split
  · rfl
  · exact List.length_set

theorem register_closeStream_streams (c : Subscriber) :
    (c.register.closeStream c.streams.length).streams = c.endRegistered ++ [false] := by
  show (c.endRegistered ++ [true]).set c.streams.length false = c.endRegistered ++ [false]
  rw [← endRegistered_length c, List.set_append_right _ _ le_rfl, Nat.sub_self]
  rfl

/-- The earlier stream has ended, and so has the one that was to take its place. -/
structure Ended (c d : Subscriber) : Prop where
  registered : d.registered = none
  ended : ∀ i, c.registered = some i → d.streams[i]? ≠ some true
  others : ∀ i < c.streams.length, c.registered ≠ some i → d.streams[i]? = c.streams[i]?

theorem ended_register_closeStream (c : Subscriber) :
    c.Ended (c.register.closeStream c.streams.length) where
  registered := if_pos rfl
  ended := by
    intro i hi
    have hended : c.endRegistered = c.streams.set i false := by rw [endRegistered, hi]
    rw [register_closeStream_streams, hended]
    by_cases hlt : i < (c.streams.set i false).length
    · rw [List.getElem?_append_left hlt, List.getElem?_set_self (by simpa using hlt)]
      simp
    · rw [List.getElem?_append_right (not_lt.mp hlt), List.getElem?_singleton]
      split_ifs <;> simp
  others := by
    intro i hlt hi
    have hlt' : i < c.endRegistered.length := by rwa [endRegistered_length]
    rw [register_closeStream_streams, List.getElem?_append_left hlt']
    unfold endRegistered
    split
    · rfl
    · rename_i stream hstream
      rw [List.getElem?_set_ne]
      intro heq
      rw [heq] at hstream
      exact hi hstream

/-- The call was a no-op: the engine holds what it held, and the stream that pushes
went to still gets them. -/
structure Unchanged (c d : Subscriber) : Prop where
  held : d.exact = c.exact ∧ d.patterns = c.patterns
  stream : ∀ i, c.registered = some i → c.streams[i]? = some true →
    d.registered = some i ∧ d.streams[i]? = some true
  subscribedTypes : d.subscribedTypes = c.subscribedTypes

theorem requested_congr (hexact : d.exact = c.exact) (hpatterns : d.patterns = c.patterns)
    (partition : TopicPartition) (first second : SubscribeAnswer) :
    (d.requested partition first second).exact = (c.requested partition first second).exact ∧
      (d.requested partition first second).patterns =
        (c.requested partition first second).patterns := by
  simp only [requested_eq, subscribeExact_exact, subscribePatterns_patterns, hexact, hpatterns,
    and_self]

/-- A call that returns an error keeps the list of subscribed types and loses no
subscription. It changes nothing before its first request, nothing with the engine
unless the engine applies one that asks for something new, and no stream in Rust;
in the others the earlier stream has ended by then. -/
structure Failed (c : Subscriber) (dialect : Dialect) (topics : List String)
    (first second : SubscribeAnswer) (d : Subscriber) : Prop where
  subscribedTypes : d.subscribedTypes = c.subscribedTypes
  kept : c.exact ⊆ d.exact ∧ c.patterns ⊆ d.patterns
  held : ¬ c.Adds topics first second → d.exact = c.exact ∧ d.patterns = c.patterns
  turnedAway : ¬ c.Asks dialect topics → d = c
  rust : dialect = .rust → d.streams = c.streams ∧ d.registered = c.registered
  others : dialect ≠ .rust → c.Asks dialect topics → c.Ended d

theorem failed_of_turnedAway {dialect : Dialect} (h : ¬ c.Asks dialect topics) :
    c.Failed dialect topics first second c where
  subscribedTypes := rfl
  kept := ⟨Finset.Subset.refl _, Finset.Subset.refl _⟩
  held := fun _ => ⟨rfl, rfl⟩
  turnedAway := fun _ => rfl
  rust := fun _ => ⟨rfl, rfl⟩
  others := fun _ hasks => absurd hasks h

theorem subscribeInternal_failed {language : Language} {dialect : Dialect}
    (hdialect : dialect ≠ .rust)
    (hasks : c.Asks dialect topics ↔
      c.connected = true ∧ ∃ partition, partitionTopics topics = .ok partition)
    (h : c.subscribeInternal language topics first second = (d, .error e)) :
    c.Failed dialect topics first second d := by
  rcases subscribeInternal_error (by rw [h]) with ⟨hturned, hafter⟩ |
    ⟨partition, hok, hconnected, hafter⟩
  · rw [h] at hafter
    have hd : d = c := hafter
    rw [hd]
    apply failed_of_turnedAway
    rw [hasks]
    rintro ⟨hconnected, partition, hok⟩
    rcases hturned with hlost | hinvalid
    · rw [hconnected] at hlost
      cases hlost
    · exact hinvalid partition hok
  · rw [h] at hafter
    have hd : d = (c.register.requested partition first second).closeStream c.streams.length :=
      hafter
    have hengine := requested_congr (c := c) (d := c.register) rfl rfl partition first second
    have hexact : d.exact = (c.requested partition first second).exact := by
      rw [hd]
      exact hengine.1
    have hpatterns : d.patterns = (c.requested partition first second).patterns := by
      rw [hd]
      exact hengine.2
    have hended := c.ended_register_closeStream
    rw [requested_eq] at hd
    refine ⟨?_, ?_, ?_, ?_, ?_, ?_⟩
    · rw [hd]
      rfl
    · rw [hexact, hpatterns]
      exact c.requested_held partition first second
    · intro hadds
      rw [hexact, hpatterns]
      exact requested_of_not_adds hok hadds
    · intro hnot
      exact absurd (hasks.mpr ⟨hconnected, partition, hok⟩) hnot
    · intro hrust
      exact absurd hrust hdialect
    · intro _ _
      rw [hd]
      exact ⟨hended.registered, hended.ended, hended.others⟩

theorem subscribeRust_failed (h : c.subscribeRust topics first second = (d, .error e)) :
    c.Failed .rust topics first second d := by
  rcases subscribeRust_error (by rw [h]) with ⟨hturned, hafter⟩ | ⟨partition, hok, hasks, hafter⟩
  · rw [h] at hafter
    have hd : d = c := hafter
    rw [hd]
    exact failed_of_turnedAway hturned
  · rw [h] at hafter
    have hd : d = c.requested partition first second := hafter
    have heq := requested_eq c partition first second
    refine ⟨?_, ?_, ?_, ?_, ?_, ?_⟩
    · rw [hd, heq]
    · rw [hd]
      exact c.requested_held partition first second
    · intro hadds
      rw [hd]
      exact requested_of_not_adds hok hadds
    · intro hnot
      exact absurd hasks hnot
    · intro _
      rw [hd, heq]
      exact ⟨rfl, rfl⟩
    · intro hother
      exact absurd rfl hother

theorem subscribe_failed {dialect : Dialect}
    (h : c.subscribe dialect topics first second = (d, .error e)) :
    c.Failed dialect topics first second d := by
  cases dialect with
  | rust => exact subscribeRust_failed h
  | typescript => exact subscribeInternal_failed (by simp) Iff.rfl h
  | python => exact subscribeInternal_failed (by simp) Iff.rfl h
  | go => exact subscribeInternal_failed (by simp) Iff.rfl h

/-- Connected, with one stream, subscribed to `timer.tick`. -/
def tickSubscriber : Subscriber where
  connected := true
  hasStream := false
  pushReceiver := false
  streams := [true]
  registered := some 0
  subscribedTypes := ["timer.tick"]
  exact := {"timer.tick", "system.shutdown"}
  patterns := ∅

/-- The engine refuses the selector; the message type was held before. -/
theorem subscribe_failed_refused :
    ∃ d, tickSubscriber.subscribe .python ["timer.tick", "user.*"] (.accepted ["timer.tick"])
        (.refused none) =
          (d, .error (.subscription "Pattern subscription failed" ["user.*"])) ∧
      tickSubscriber.Failed .python ["timer.tick", "user.*"] (.accepted ["timer.tick"])
        (.refused none) d := by
  have hsplit : tickSubscriber.subscribe .python ["timer.tick", "user.*"]
      (.accepted ["timer.tick"]) (.refused none) =
        ((tickSubscriber.subscribe .python ["timer.tick", "user.*"] (.accepted ["timer.tick"])
          (.refused none)).1,
            .error (.subscription "Pattern subscription failed" ["user.*"])) := by
    decide
  exact ⟨_, hsplit, subscribe_failed hsplit⟩

/-- A second call that times out has ended the stream of the first. -/
theorem failed_subscribe_ends_stream :
    ¬ ∀ (c d : Subscriber) (dialect : Dialect) (topics : List String)
      (first second : SubscribeAnswer) (e : SubscribeError),
      c.subscribe dialect topics first second = (d, .error e) → c.Unchanged d := by
  intro h
  have htimeout : tickSubscriber.subscribe .typescript ["timer.other"]
      (.failed "Request timed out" false) (.refused none) =
        ((tickSubscriber.subscribe .typescript ["timer.other"]
          (.failed "Request timed out" false) (.refused none)).1,
            .error (.request "Request timed out")) := by
    decide
  have hstream := (h _ _ _ _ _ _ _ htimeout).stream 0 rfl rfl
  have hnone : (tickSubscriber.subscribe .typescript ["timer.other"]
      (.failed "Request timed out" false) (.refused none)).1.registered = none := by
    decide
  rw [hnone] at hstream
  cases hstream.1

end Subscriber

end Emergent.Sdk

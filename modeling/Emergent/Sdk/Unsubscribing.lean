import Emergent.Sdk.SubscribeCalls

/-!
# Giving subscriptions back

`unsubscribeInternal` of `sdks/ts/src/client.ts` and `go/client.go`, `_unsubscribe` of
`py/emergent/_client.py`; the Rust SDK has none. A refused request is only logged and
the topics leave the client's list all the same. A request that fails is an error of
the call in TypeScript and Python; in Go it ends the call if it is the first one and is
logged otherwise.

What the engine then holds for the connection is acton's doing, a parameter here.
`ServesRequests` is what is asked of it; it says nothing of a request that names no
topic, and an `UNSUBSCRIBE` of selectors alone is such a request.

The calls of a client are taken one after another, on a connection that stays.
-/

namespace Emergent.Sdk

/-- The four requests about subscriptions. -/
inductive SubscriptionRequest where
  | subscribe (types : List String)
  | subscribePatterns (patterns : List String)
  | unsubscribe (types : List String)
  | unsubscribePatterns (patterns : List String)

/-- What acton's subscription manager holds for one connection. -/
structure Held where
  exact : Finset String
  patterns : Finset String

/-- Acton adds or removes the topics of a request that names some. -/
structure ServesRequests (acton : SubscriptionRequest → Held → Held) : Prop where
  subscribe : ∀ types held, types ≠ [] →
    acton (.subscribe types) held = ⟨held.exact ∪ types.toFinset, held.patterns⟩
  subscribePatterns : ∀ patterns held, patterns ≠ [] →
    acton (.subscribePatterns patterns) held = ⟨held.exact, held.patterns ∪ patterns.toFinset⟩
  unsubscribe : ∀ types held, types ≠ [] →
    acton (.unsubscribe types) held = ⟨held.exact \ types.toFinset, held.patterns⟩
  unsubscribePatterns : ∀ patterns held, patterns ≠ [] →
    acton (.unsubscribePatterns patterns) held =
      ⟨held.exact, held.patterns \ patterns.toFinset⟩

namespace Subscriber

def held (c : Subscriber) : Held := ⟨c.exact, c.patterns⟩

def hold (c : Subscriber) (held : Held) : Subscriber :=
  { c with exact := held.exact, patterns := held.patterns }

def untrack (c : Subscriber) (topics : List String) : Subscriber :=
  { c with subscribedTypes := c.subscribedTypes.filter fun t => t ∉ topics }

section
variable (acton : SubscriptionRequest → Held → Held)

def serve (c : Subscriber) (request : SubscriptionRequest) (answer : SubscribeAnswer) :
    Subscriber :=
  if answer.isApplied then c.hold (acton request c.held) else c

def unsubscribeInternal (language : Language) (c : Subscriber) (topics : List String)
    (first second : SubscribeAnswer) : Subscriber × Except SubscribeError Unit :=
  if !c.connected then (c, .error .notConnected)
  else
    match partitionTopics topics with
    | .error e => (c, .error (.invalidTopic e))
    | .ok partition =>
      let c := c.serve acton (.unsubscribe partition.exact) first
      match first, language with
      | .failed error _, .typescript => (c, .error (.request error))
      | .failed error _, .python => (c, .error (.request error))
      | .failed _ _, .go => (c, .ok ())
      | _, _ =>
        if partition.patterns.isEmpty then (c.untrack topics, .ok ())
        else
          let c := c.serve acton (.unsubscribePatterns partition.patterns) second
          match second, language with
          | .failed error _, .typescript => (c, .error (.request error))
          | .failed error _, .python => (c, .error (.request error))
          | _, _ => (c.untrack topics, .ok ())

/-- What acton makes of the requests of `subscribeInternal`. -/
def subscribeServed (c : Subscriber) (topics : List String) (first second : SubscribeAnswer) :
    Held :=
  if !c.connected then c.held
  else
    match partitionTopics topics with
    | .error _ => c.held
    | .ok partition =>
      let c := c.serve acton (.subscribe (withShutdown partition.exact)) first
      if first.isAccepted ∧ partition.patterns ≠ [] then
        (c.serve acton (.subscribePatterns partition.patterns) second).held
      else c.held

end

theorem isApplied_of_isAccepted {answer : SubscribeAnswer} (h : answer.isAccepted = true) :
    answer.isApplied = true := by
  cases answer with
  | accepted subscribed => rfl
  | refused error => cases h
  | failed error applied => cases h

theorem ne_failed_of_isAccepted {answer : SubscribeAnswer} (h : answer.isAccepted = true) :
    ∀ error applied, answer ≠ .failed error applied := by
  rintro error applied rfl
  cases h

/-- The engine has a subscription of the connection to the topic. -/
def Holds (c : Subscriber) (t : String) : Prop := t ∈ c.exact ∨ t ∈ c.patterns

/-- A client on a new connection. -/
def fresh : Subscriber where
  connected := true
  hasStream := false
  pushReceiver := true
  streams := []
  registered := none
  subscribedTypes := []
  exact := ∅
  patterns := ∅

/-- What the program does with the client; a stream is closed by its consumer. -/
inductive SubscriptionCall where
  | subscribe (topics : List String) (first second : SubscribeAnswer)
  | unsubscribe (topics : List String) (first second : SubscribeAnswer)
  | close (stream : ℕ)

def make (acton : SubscriptionRequest → Held → Held) (language : Language) (c : Subscriber) :
    SubscriptionCall → Subscriber
  | .subscribe topics first second =>
    (c.subscribeInternal language topics first second).1.hold
      (c.subscribeServed acton topics first second)
  | .unsubscribe topics first second =>
    (c.unsubscribeInternal acton language topics first second).1
  | .close stream => c.closeStream stream

/-- Topics that are not selectors alone, where they are sent at all. -/
def NamesExact (topics : List String) : Prop :=
  ∀ partition, partitionTopics topics = .ok partition → partition.exact ≠ []

namespace SubscriptionCall

/-- The answers to the two requests; what stands for one that is not made is not read. -/
def answers : SubscriptionCall → List SubscribeAnswer
  | .subscribe _ first second | .unsubscribe _ first second => [first, second]
  | .close _ => []

def Replied (call : SubscriptionCall) : Prop :=
  ∀ answer ∈ call.answers, ∀ error applied, answer ≠ .failed error applied

def Accepted (call : SubscriptionCall) : Prop :=
  ∀ answer ∈ call.answers, answer.isAccepted = true

/-- An unsubscribe names a type beside the selectors. -/
def NamesType : SubscriptionCall → Prop
  | .unsubscribe topics _ _ => NamesExact topics
  | _ => True

def KeepsShutdown : SubscriptionCall → Prop
  | .unsubscribe topics _ _ => "system.shutdown" ∉ topics
  | _ => True

theorem Accepted.replied {call : SubscriptionCall} (h : call.Accepted) : call.Replied :=
  fun answer hanswer => ne_failed_of_isAccepted (h answer hanswer)

end SubscriptionCall

/-! ### What a call does to the subscriptions -/

section
variable {acton : SubscriptionRequest → Held → Held} {c : Subscriber} {language : Language}
  {topics : List String} {first second : SubscribeAnswer} {partition : TopicPartition}
  {t : String}

theorem serve_unsubscribe (hacton : ServesRequests acton) {types : List String}
    (hne : types ≠ []) (c : Subscriber) (answer : SubscribeAnswer) :
    c.serve acton (.unsubscribe types) answer =
      if answer.isApplied then { c with exact := c.exact \ types.toFinset } else c := by
  rw [serve, hacton.unsubscribe types c.held hne]
  rfl

theorem serve_unsubscribePatterns (hacton : ServesRequests acton) {patterns : List String}
    (hne : patterns ≠ []) (c : Subscriber) (answer : SubscribeAnswer) :
    c.serve acton (.unsubscribePatterns patterns) answer =
      if answer.isApplied then { c with patterns := c.patterns \ patterns.toFinset } else c := by
  rw [serve, hacton.unsubscribePatterns patterns c.held hne]
  rfl

theorem serve_subscribe (hacton : ServesRequests acton) {types : List String} (hne : types ≠ [])
    (c : Subscriber) (answer : SubscribeAnswer) :
    c.serve acton (.subscribe types) answer = c.subscribeExact types answer := by
  rw [serve, hacton.subscribe types c.held hne]
  rfl

theorem serve_subscribePatterns (hacton : ServesRequests acton) {patterns : List String}
    (hne : patterns ≠ []) (c : Subscriber) (answer : SubscribeAnswer) :
    c.serve acton (.subscribePatterns patterns) answer = c.subscribePatterns patterns answer := by
  rw [serve, hacton.subscribePatterns patterns c.held hne]
  rfl

theorem withShutdown_ne_nil (exact : List String) : withShutdown exact ≠ [] := by
  unfold withShutdown
  split_ifs with hshutdown
  · exact List.ne_nil_of_mem hshutdown
  · simp

theorem mem_withShutdown {exact : List String} :
    t ∈ withShutdown exact ↔ t ∈ exact ∨ t = "system.shutdown" := by
  unfold withShutdown
  split_ifs with hshutdown
  · exact ⟨Or.inl, fun h => h.elim id fun heq => heq ▸ hshutdown⟩
  · rw [List.mem_append, List.mem_singleton]

theorem mem_requested_exact :
    t ∈ (c.requested partition first second).exact ↔
      t ∈ c.exact ∨ first.isApplied = true ∧ (t ∈ partition.exact ∨ t = "system.shutdown") := by
  rw [requested_eq, subscribeExact_exact]
  show t ∈ (if first.isApplied then _ else _) ↔ _
  split_ifs with happlied
  · rw [Finset.mem_union, List.mem_toFinset, mem_withShutdown]
    simp [happlied]
  · simp [happlied]

theorem mem_requested_patterns :
    t ∈ (c.requested partition first second).patterns ↔
      t ∈ c.patterns ∨
        first.isAccepted = true ∧ second.isApplied = true ∧ t ∈ partition.patterns := by
  rw [requested_eq, subscribePatterns_patterns]
  show t ∈ (if first.isAccepted then (if second.isApplied then _ else _) else _) ↔ _
  split_ifs with haccepted happlied
  · rw [Finset.mem_union, List.mem_toFinset]
    simp [haccepted, happlied]
  · simp [happlied]
  · simp [haccepted]

theorem mem_track : t ∈ (c.track topics).subscribedTypes ↔
    t ∈ c.subscribedTypes ∨ t ∈ topics ∧ t ≠ "system.shutdown" := by
  show t ∈ topics.foldl _ c.subscribedTypes ↔ _
  generalize c.subscribedTypes = types
  induction topics generalizing types with
  | nil => simp
  | cons topic topics ih =>
    rw [List.foldl_cons, ih]
    split_ifs with hskip
    · rw [List.mem_cons]
      constructor
      · rintro (hold | hnew)
        · exact Or.inl hold
        · exact Or.inr ⟨Or.inr hnew.1, hnew.2⟩
      · rintro (hold | ⟨rfl | hnew, hne⟩)
        · exact Or.inl hold
        · exact Or.inl (hskip.resolve_left hne)
        · exact Or.inr ⟨hnew, hne⟩
    · rw [List.mem_append, List.mem_singleton, List.mem_cons]
      have hne : topic ≠ "system.shutdown" := fun heq => hskip (Or.inl heq)
      constructor
      · rintro ((hold | rfl) | hnew)
        · exact Or.inl hold
        · exact Or.inr ⟨Or.inl rfl, hne⟩
        · exact Or.inr ⟨Or.inr hnew.1, hnew.2⟩
      · rintro (hold | ⟨rfl | hnew, hother⟩)
        · exact Or.inl (Or.inl hold)
        · exact Or.inl (Or.inr rfl)
        · exact Or.inr ⟨hnew, hother⟩

/-- A subscribe that is turned away changes nothing; another leaves its requests with the
engine, and the topics in the client's list exactly if both are accepted. -/
theorem subscribeInternal_held (language : Language) (c : Subscriber) (topics : List String)
    (first second : SubscribeAnswer) :
    (c.subscribeInternal language topics first second).1 = c ∧
        (c.connected = false ∨ ∀ partition, partitionTopics topics ≠ .ok partition) ∨
      ∃ partition, partitionTopics topics = .ok partition ∧
        (c.subscribeInternal language topics first second).1.exact =
          (c.requested partition first second).exact ∧
        (c.subscribeInternal language topics first second).1.patterns =
          (c.requested partition first second).patterns ∧
        (c.subscribeInternal language topics first second).1.subscribedTypes =
          if first.isAccepted ∧ (partition.patterns = [] ∨ second.isAccepted) then
            (c.track topics).subscribedTypes
          else c.subscribedTypes := by
  unfold subscribeInternal
  by_cases hconnected : c.connected = true
  case neg =>
    rw [if_pos (by simpa using hconnected)]
    exact Or.inl ⟨rfl, Or.inl (by simpa using hconnected)⟩
  rw [if_neg (by simp [hconnected])]
  cases hpartition : partitionTopics topics with
  | error e => exact Or.inl ⟨rfl, Or.inr (by simp)⟩
  | ok partition =>
    refine Or.inr ⟨partition, rfl, ?_⟩
    rw [requested_eq, subscribeExact_exact, subscribePatterns_patterns]
    cases first with
    | failed error applied => cases applied <;> exact ⟨rfl, rfl, rfl⟩
    | refused error => exact ⟨rfl, rfl, rfl⟩
    | accepted types =>
      by_cases hnone : partition.patterns.isEmpty = true
      · have hpatterns : partition.patterns = [] := List.isEmpty_iff.mp hnone
        simp only [if_pos hnone]
        refine ⟨rfl, ?_, ?_⟩
        · show c.patterns = if second.isApplied then _ else _
          rw [hpatterns]
          split_ifs <;> simp
        · rw [if_pos ⟨rfl, Or.inl hpatterns⟩]
          rfl
      · have hpatterns : partition.patterns ≠ [] := fun h => hnone (List.isEmpty_iff.mpr h)
        simp only [if_neg hnone]
        cases second with
        | failed error applied =>
          cases applied <;> exact ⟨rfl, rfl, by simp [SubscribeAnswer.isAccepted, hpatterns]; rfl⟩
        | refused error =>
          exact ⟨rfl, rfl, by simp [SubscribeAnswer.isAccepted, hpatterns]; rfl⟩
        | accepted patterns =>
          refine ⟨rfl, rfl, ?_⟩
          rw [if_pos ⟨rfl, Or.inr rfl⟩]
          rfl

theorem subscribeServed_ok (hacton : ServesRequests acton) (hconnected : c.connected = true)
    (hok : partitionTopics topics = .ok partition) (first second : SubscribeAnswer) :
    c.subscribeServed acton topics first second = (c.requested partition first second).held := by
  rw [subscribeServed, if_neg (by simp [hconnected]), hok]
  show (if first.isAccepted = true ∧ partition.patterns ≠ [] then _ else _) =
    (if first.isAccepted = true then _ else _ : Subscriber).held
  rw [serve_subscribe hacton (withShutdown_ne_nil partition.exact)]
  by_cases hpatterns : partition.patterns = []
  · rw [if_neg (fun h => h.2 hpatterns), hpatterns, subscribePatterns_nil, ite_self]
  · rw [serve_subscribePatterns hacton hpatterns]
    by_cases haccepted : first.isAccepted = true
    · rw [if_pos ⟨haccepted, hpatterns⟩, if_pos haccepted]
    · rw [if_neg (fun h => haccepted h.1), if_neg haccepted]

/-- Such an acton holds after a subscribe what `subscribeInternal` puts into its state. -/
theorem hold_subscribeServed (hacton : ServesRequests acton) (language : Language)
    (c : Subscriber) (topics : List String) (first second : SubscribeAnswer) :
    (c.subscribeInternal language topics first second).1.hold
        (c.subscribeServed acton topics first second) =
      (c.subscribeInternal language topics first second).1 := by
  by_cases hconnected : c.connected = true
  · cases hpartition : partitionTopics topics with
    | error e =>
      have hsame : (c.subscribeInternal language topics first second).1 = c := by
        rw [subscribeInternal, if_neg (by simp [hconnected]), hpartition]
      have hserved : c.subscribeServed acton topics first second = c.held := by
        rw [subscribeServed, if_neg (by simp [hconnected]), hpartition]
      rw [hsame, hserved]
      rfl
    | ok partition =>
      rw [subscribeServed_ok hacton hconnected hpartition]
      rcases subscribeInternal_held language c topics first second with
        ⟨_, hlost | hinvalid⟩ | ⟨partition', hok, hexact, hpatterns, _⟩
      · rw [hconnected] at hlost
        cases hlost
      · exact absurd hpartition (hinvalid partition)
      · obtain rfl : partition = partition' := Except.ok.inj (hpartition.symm.trans hok)
        rw [held, ← hexact, ← hpatterns]
        rfl
  · have hsame : (c.subscribeInternal language topics first second).1 = c := by
      rw [subscribeInternal, if_pos (by simpa using hconnected)]
    have hserved : c.subscribeServed acton topics first second = c.held := by
      rw [subscribeServed, if_pos (by simpa using hconnected)]
    rw [hsame, hserved]
    rfl

/-- An unsubscribe whose requests get a reply takes the topics off the client's list
whatever the reply is. -/
theorem unsubscribeInternal_held (hacton : ServesRequests acton) (language : Language)
    (c : Subscriber) (topics : List String)
    (hnames : NamesExact topics)
    (hfirst : ∀ error applied, first ≠ .failed error applied)
    (hsecond : ∀ error applied, second ≠ .failed error applied) :
    (c.unsubscribeInternal acton language topics first second).1 = c ∧
        (c.connected = false ∨ ∀ partition, partitionTopics topics ≠ .ok partition) ∨
      ∃ partition, partitionTopics topics = .ok partition ∧
        (c.unsubscribeInternal acton language topics first second).1.exact =
          (if first.isAccepted then c.exact \ partition.exact.toFinset else c.exact) ∧
        (c.unsubscribeInternal acton language topics first second).1.patterns =
          (if second.isAccepted then c.patterns \ partition.patterns.toFinset
          else c.patterns) ∧
        (c.unsubscribeInternal acton language topics first second).1.subscribedTypes =
          c.subscribedTypes.filter fun t => t ∉ topics := by
  unfold unsubscribeInternal
  by_cases hconnected : c.connected = true
  case neg =>
    rw [if_pos (by simpa using hconnected)]
    exact Or.inl ⟨rfl, Or.inl (by simpa using hconnected)⟩
  rw [if_neg (by simp [hconnected])]
  cases hpartition : partitionTopics topics with
  | error e => exact Or.inl ⟨rfl, Or.inr (by simp)⟩
  | ok partition =>
    refine Or.inr ⟨partition, rfl, ?_⟩
    have hexact := serve_unsubscribe hacton (hnames partition hpartition)
    by_cases hnone : partition.patterns.isEmpty = true
    · have hpatterns : c.patterns =
          if second.isAccepted then c.patterns \ partition.patterns.toFinset else c.patterns := by
        rw [List.isEmpty_iff.mp hnone]
        split_ifs <;> simp
      cases first with
      | failed error applied => exact absurd rfl (hfirst error applied)
      | refused error =>
        simp only [if_pos hnone, hexact]
        exact ⟨rfl, hpatterns, rfl⟩
      | accepted types =>
        simp only [if_pos hnone, hexact]
        exact ⟨rfl, hpatterns, rfl⟩
    · have hselectors := serve_unsubscribePatterns hacton
        (fun h => hnone (List.isEmpty_iff.mpr h) : partition.patterns ≠ [])
      cases first with
      | failed error applied => exact absurd rfl (hfirst error applied)
      | refused error =>
        simp only [if_neg hnone, hexact, hselectors]
        cases second with
        | failed error applied => exact absurd rfl (hsecond error applied)
        | refused error => exact ⟨rfl, rfl, rfl⟩
        | accepted patterns => exact ⟨rfl, rfl, rfl⟩
      | accepted types =>
        simp only [if_neg hnone, hexact, hselectors]
        cases second with
        | failed error applied => exact absurd rfl (hsecond error applied)
        | refused error => exact ⟨rfl, rfl, rfl⟩
        | accepted patterns => exact ⟨rfl, rfl, rfl⟩

theorem mem_taken {answer : SubscribeAnswer} {held : Finset String} {types : List String} :
    (t ∈ if answer.isAccepted then held \ types.toFinset else held) ↔
      t ∈ held ∧ ¬ (answer.isAccepted = true ∧ t ∈ types) := by
  split_ifs with haccepted
  · rw [Finset.mem_sdiff, List.mem_toFinset]
    simp [haccepted]
  · simp [haccepted]

end

/-! ### The client's list and the engine's -/

/-- Every listed topic is held. The engine keeps the two kinds of topics apart. -/
structure Truthful (c : Subscriber) : Prop where
  exact : ∀ t ∈ c.exact, classifyTopic t = .ok .exact
  patterns : ∀ t ∈ c.patterns, classifyTopic t = .ok .pattern
  listed : ∀ t ∈ c.subscribedTypes, t ≠ "system.shutdown" ∧ c.Holds t

def Complete (c : Subscriber) : Prop :=
  ∀ t, c.Holds t → t ≠ "system.shutdown" → t ∈ c.subscribedTypes

def HearsShutdown (c : Subscriber) : Prop :=
  ∀ t, c.Holds t → "system.shutdown" ∈ c.exact

section
variable {acton : SubscriptionRequest → Held → Held} {c : Subscriber} {language : Language}
  {topics : List String} {first second : SubscribeAnswer} {call : SubscriptionCall}

theorem Truthful.subscribe (h : c.Truthful) :
    (c.subscribeInternal language topics first second).1.Truthful := by
  rcases subscribeInternal_held language c topics first second with
    ⟨hsame, _⟩ | ⟨partition, hok, hexact, hpatterns, htypes⟩
  · rw [hsame]
    exact h
  · have hsplit := partitionTopics_ok hok
    refine ⟨?_, ?_, ?_⟩
    · intro t ht
      rw [hexact, mem_requested_exact] at ht
      rcases ht with hold | ⟨_, hnew | rfl⟩
      · exact h.exact t hold
      · exact ((hsplit t).1.mp hnew).2
      · decide
    · intro t ht
      rw [hpatterns, mem_requested_patterns] at ht
      rcases ht with hold | ⟨_, _, hnew⟩
      · exact h.patterns t hold
      · exact ((hsplit t).2.1.mp hnew).2
    · intro t ht
      have hkept : c.Holds t → (c.subscribeInternal language topics first second).1.Holds t := by
        intro hold
        rw [Holds, hexact, hpatterns, mem_requested_exact, mem_requested_patterns]
        exact hold.imp Or.inl Or.inl
      rw [htypes] at ht
      split_ifs at ht with haccepted
      · rcases mem_track.mp ht with hold | ⟨hnew, hne⟩
        · exact ⟨(h.listed t hold).1, hkept (h.listed t hold).2⟩
        · refine ⟨hne, ?_⟩
          rw [Holds, hexact, hpatterns, mem_requested_exact, mem_requested_patterns]
          rcases (hsplit t).2.2 hnew with hkind | hkind
          · have hmem := (hsplit t).1.mpr ⟨hnew, hkind⟩
            exact Or.inl (Or.inr ⟨isApplied_of_isAccepted haccepted.1, Or.inl hmem⟩)
          · have hmem := (hsplit t).2.1.mpr ⟨hnew, hkind⟩
            have hsecond := haccepted.2.resolve_left (List.ne_nil_of_mem hmem)
            exact Or.inr (Or.inr ⟨haccepted.1, isApplied_of_isAccepted hsecond, hmem⟩)
      · exact ⟨(h.listed t ht).1, hkept (h.listed t ht).2⟩

theorem Truthful.unsubscribe (hacton : ServesRequests acton) (h : c.Truthful)
    (hnames : NamesExact topics)
    (hfirst : ∀ error applied, first ≠ .failed error applied)
    (hsecond : ∀ error applied, second ≠ .failed error applied) :
    (c.unsubscribeInternal acton language topics first second).1.Truthful := by
  rcases unsubscribeInternal_held hacton language c topics hnames hfirst hsecond with
    ⟨hsame, _⟩ | ⟨partition, hok, hexact, hpatterns, htypes⟩
  · rw [hsame]
    exact h
  · have hsplit := partitionTopics_ok hok
    refine ⟨?_, ?_, ?_⟩
    · intro t ht
      rw [hexact, mem_taken] at ht
      exact h.exact t ht.1
    · intro t ht
      rw [hpatterns, mem_taken] at ht
      exact h.patterns t ht.1
    · intro t ht
      rw [htypes, List.mem_filter] at ht
      have hother : t ∉ topics := of_decide_eq_true ht.2
      refine ⟨(h.listed t ht.1).1, ?_⟩
      rw [Holds, hexact, hpatterns, mem_taken, mem_taken]
      refine (h.listed t ht.1).2.imp ?_ ?_
      · exact fun hold => ⟨hold, fun htaken => hother ((hsplit t).1.mp htaken.2).1⟩
      · exact fun hold => ⟨hold, fun htaken => hother ((hsplit t).2.1.mp htaken.2).1⟩

theorem Complete.subscribe (hc : c.Complete) (hfirst : first.isAccepted = true)
    (hsecond : second.isAccepted = true) :
    (c.subscribeInternal language topics first second).1.Complete := by
  rcases subscribeInternal_held language c topics first second with
    ⟨hsame, _⟩ | ⟨partition, hok, hexact, hpatterns, htypes⟩
  · rw [hsame]
    exact hc
  · have hsplit := partitionTopics_ok hok
    intro t ht hne
    rw [htypes, if_pos ⟨hfirst, Or.inr hsecond⟩, mem_track]
    rw [Holds, hexact, hpatterns, mem_requested_exact, mem_requested_patterns] at ht
    rcases ht with (hold | ⟨_, hnew | hshutdown⟩) | hold | ⟨_, _, hnew⟩
    · exact Or.inl (hc t (Or.inl hold) hne)
    · exact Or.inr ⟨((hsplit t).1.mp hnew).1, hne⟩
    · exact absurd hshutdown hne
    · exact Or.inl (hc t (Or.inr hold) hne)
    · exact Or.inr ⟨((hsplit t).2.1.mp hnew).1, hne⟩

theorem Complete.unsubscribe (hacton : ServesRequests acton) (h : c.Truthful) (hc : c.Complete)
    (hnames : NamesExact topics)
    (hfirst : first.isAccepted = true) (hsecond : second.isAccepted = true) :
    (c.unsubscribeInternal acton language topics first second).1.Complete := by
  rcases unsubscribeInternal_held hacton language c topics hnames (ne_failed_of_isAccepted hfirst)
      (ne_failed_of_isAccepted hsecond) with
    ⟨hsame, _⟩ | ⟨partition, hok, hexact, hpatterns, htypes⟩
  · rw [hsame]
    exact hc
  · have hsplit := partitionTopics_ok hok
    intro t ht hne
    rw [Holds, hexact, hpatterns, mem_taken, mem_taken] at ht
    rw [htypes, List.mem_filter, decide_eq_true_iff]
    rcases ht with ⟨hold, hleft⟩ | ⟨hold, hleft⟩
    · refine ⟨hc t (Or.inl hold) hne, fun hmem => hleft ⟨hfirst, ?_⟩⟩
      exact (hsplit t).1.mpr ⟨hmem, h.exact t hold⟩
    · refine ⟨hc t (Or.inr hold) hne, fun hmem => hleft ⟨hsecond, ?_⟩⟩
      exact (hsplit t).2.1.mpr ⟨hmem, h.patterns t hold⟩

theorem HearsShutdown.subscribe (hs : c.HearsShutdown) :
    (c.subscribeInternal language topics first second).1.HearsShutdown := by
  rcases subscribeInternal_held language c topics first second with
    ⟨hsame, _⟩ | ⟨partition, _, hexact, hpatterns, _⟩
  · rw [hsame]
    exact hs
  · intro t ht
    rw [hexact, mem_requested_exact]
    rw [Holds, hexact, hpatterns, mem_requested_exact, mem_requested_patterns] at ht
    rcases ht with (hold | ⟨happlied, _⟩) | hold | ⟨haccepted, _⟩
    · exact Or.inl (hs t (Or.inl hold))
    · exact Or.inr ⟨happlied, Or.inr rfl⟩
    · exact Or.inl (hs t (Or.inr hold))
    · exact Or.inr ⟨isApplied_of_isAccepted haccepted, Or.inr rfl⟩

theorem HearsShutdown.unsubscribe (hacton : ServesRequests acton) (hs : c.HearsShutdown)
    (hnames : NamesExact topics)
    (hfirst : ∀ error applied, first ≠ .failed error applied)
    (hsecond : ∀ error applied, second ≠ .failed error applied)
    (hkeeps : "system.shutdown" ∉ topics) :
    (c.unsubscribeInternal acton language topics first second).1.HearsShutdown := by
  rcases unsubscribeInternal_held hacton language c topics hnames hfirst hsecond with
    ⟨hsame, _⟩ | ⟨partition, hok, hexact, hpatterns, _⟩
  · rw [hsame]
    exact hs
  · have hsplit := partitionTopics_ok hok
    intro t ht
    rw [Holds, hexact, hpatterns, mem_taken, mem_taken] at ht
    rw [hexact, mem_taken]
    refine ⟨?_, fun htaken => hkeeps ((hsplit _).1.mp htaken.2).1⟩
    exact hs t (ht.imp And.left And.left)

theorem Truthful.make (hacton : ServesRequests acton) (h : c.Truthful)
    (hreplied : call.Replied) (hnames : call.NamesType) :
    (c.make acton language call).Truthful := by
  cases call with
  | subscribe topics first second =>
    show ((c.subscribeInternal language topics first second).1.hold _).Truthful
    rw [hold_subscribeServed hacton]
    exact h.subscribe
  | unsubscribe topics first second =>
    exact h.unsubscribe hacton hnames (hreplied first (by simp [SubscriptionCall.answers]))
      (hreplied second (by simp [SubscriptionCall.answers]))
  | close stream => exact ⟨h.exact, h.patterns, h.listed⟩

theorem Complete.make (hacton : ServesRequests acton) (h : c.Truthful) (hc : c.Complete)
    (haccepted : call.Accepted) (hnames : call.NamesType) :
    (c.make acton language call).Complete := by
  cases call with
  | subscribe topics first second =>
    show ((c.subscribeInternal language topics first second).1.hold _).Complete
    rw [hold_subscribeServed hacton]
    exact hc.subscribe (haccepted first (by simp [SubscriptionCall.answers]))
      (haccepted second (by simp [SubscriptionCall.answers]))
  | unsubscribe topics first second =>
    exact Complete.unsubscribe hacton h hc hnames
      (haccepted first (by simp [SubscriptionCall.answers]))
      (haccepted second (by simp [SubscriptionCall.answers]))
  | close stream => exact hc

theorem HearsShutdown.make (hacton : ServesRequests acton) (hs : c.HearsShutdown)
    (hreplied : call.Replied) (hnames : call.NamesType) (hkeeps : call.KeepsShutdown) :
    (c.make acton language call).HearsShutdown := by
  cases call with
  | subscribe topics first second =>
    show ((c.subscribeInternal language topics first second).1.hold _).HearsShutdown
    rw [hold_subscribeServed hacton]
    exact hs.subscribe
  | unsubscribe topics first second =>
    exact hs.unsubscribe hacton hnames (hreplied first (by simp [SubscriptionCall.answers]))
      (hreplied second (by simp [SubscriptionCall.answers])) hkeeps
  | close stream => exact hs

end

/-! ### Any sequence of calls -/

def after (acton : SubscriptionRequest → Held → Held) (language : Language)
    (calls : List SubscriptionCall) : Subscriber :=
  calls.foldl (make acton language) fresh

theorem after_invariant {acton : SubscriptionRequest → Held → Held} {language : Language}
    {P : Subscriber → Prop} {Q : SubscriptionCall → Prop} (hfresh : P fresh)
    (hstep : ∀ c call, P c → Q call → P (c.make acton language call))
    {calls : List SubscriptionCall} (hcalls : ∀ call ∈ calls, Q call) :
    P (after acton language calls) := by
  unfold after
  generalize fresh = c at hfresh
  induction calls generalizing c with
  | nil => exact hfresh
  | cons call calls ih =>
    exact ih (fun other hother => hcalls other (List.mem_cons_of_mem call hother)) _
      (hstep c call hfresh (hcalls call List.mem_cons_self))

theorem truthful_fresh : fresh.Truthful where
  exact := by simp [fresh]
  patterns := by simp [fresh]
  listed := by simp [fresh]

theorem not_holds_fresh (t : String) : ¬ fresh.Holds t := by
  simp [Holds, fresh]

/-- As long as every request gets a reply and every unsubscribe names a type, each topic of
the client's list is held by the engine; if all are accepted, the list has everything that
is held but the SDK's own subscription. A connection that the engine holds a topic for is
told of the shutdown, unless the program gives that up. -/
theorem after_list_agrees {acton : SubscriptionRequest → Held → Held}
    (hacton : ServesRequests acton) (language : Language) {calls : List SubscriptionCall}
    (hreplied : ∀ call ∈ calls, call.Replied) (hnames : ∀ call ∈ calls, call.NamesType) :
    (∀ t ∈ (after acton language calls).subscribedTypes,
        t ≠ "system.shutdown" ∧ (after acton language calls).Holds t) ∧
      ((∀ call ∈ calls, call.Accepted) → ∀ t, (after acton language calls).Holds t →
        t ≠ "system.shutdown" → t ∈ (after acton language calls).subscribedTypes) ∧
      ((∀ call ∈ calls, call.KeepsShutdown) → ∀ t, (after acton language calls).Holds t →
        "system.shutdown" ∈ (after acton language calls).exact) := by
  refine ⟨?_, fun haccepted => ?_, fun hkeeps => ?_⟩
  · have hcalls : ∀ call ∈ calls, call.Replied ∧ call.NamesType :=
      fun call hcall => ⟨hreplied call hcall, hnames call hcall⟩
    exact (after_invariant truthful_fresh
      (fun _ _ h hcall => h.make hacton hcall.1 hcall.2) hcalls).listed
  · have hcalls : ∀ call ∈ calls, call.Accepted ∧ call.NamesType :=
      fun call hcall => ⟨haccepted call hcall, hnames call hcall⟩
    have hboth : (after acton language calls).Truthful ∧ (after acton language calls).Complete := by
      refine after_invariant (P := fun c => c.Truthful ∧ c.Complete)
        ⟨truthful_fresh, fun t ht => absurd ht (not_holds_fresh t)⟩ ?_ hcalls
      intro c call h hcall
      exact ⟨h.1.make hacton hcall.1.replied hcall.2, Complete.make hacton h.1 h.2 hcall.1 hcall.2⟩
    exact hboth.2
  · have hcalls : ∀ call ∈ calls, call.Replied ∧ call.NamesType ∧ call.KeepsShutdown :=
      fun call hcall => ⟨hreplied call hcall, hnames call hcall, hkeeps call hcall⟩
    exact after_invariant (fun t ht => absurd ht (not_holds_fresh t))
      (fun _ _ h hcall => HearsShutdown.make hacton h hcall.1 hcall.2.1 hcall.2.2) hcalls

/-- An acton to which a request without topics is one for all of them. -/
def unsubscribesAll : SubscriptionRequest → Held → Held
  | .subscribe types, held => ⟨held.exact ∪ types.toFinset, held.patterns⟩
  | .subscribePatterns patterns, held => ⟨held.exact, held.patterns ∪ patterns.toFinset⟩
  | .unsubscribe [], _ => ⟨∅, ∅⟩
  | .unsubscribe types, held => ⟨held.exact \ types.toFinset, held.patterns⟩
  | .unsubscribePatterns patterns, held => ⟨held.exact, held.patterns \ patterns.toFinset⟩

theorem servesRequests_unsubscribesAll : ServesRequests unsubscribesAll where
  subscribe := fun _ _ _ => rfl
  subscribePatterns := fun _ _ _ => rfl
  unsubscribe := by
    intro types held hne
    cases types with
    | nil => exact absurd rfl hne
    | cons t types => rfl
  unsubscribePatterns := fun _ _ _ => rfl

def userCalls : List SubscriptionCall :=
  [.subscribe ["timer.tick", "user.*"] (.accepted ["timer.tick"]) (.accepted ["user.*"]),
    .unsubscribe ["timer.tick"] (.accepted ["timer.tick"]) (.accepted [])]

theorem after_list_agrees_user :
    (after unsubscribesAll .typescript userCalls).subscribedTypes = ["user.*"] ∧
      (after unsubscribesAll .typescript userCalls).Holds "user.*" ∧
      "system.shutdown" ∈ (after unsubscribesAll .typescript userCalls).exact := by
  have hlist : (after unsubscribesAll .typescript userCalls).subscribedTypes = ["user.*"] := by
    decide
  have haccepted : ∀ call ∈ userCalls, call.Accepted := by
    simp [userCalls, SubscriptionCall.Accepted, SubscriptionCall.answers,
      SubscribeAnswer.isAccepted]
  have hnames : ∀ call ∈ userCalls, call.NamesType := by
    have hsplit : partitionTopics ["timer.tick"] = .ok ⟨["timer.tick"], []⟩ := by decide
    simp [userCalls, SubscriptionCall.NamesType, NamesExact, hsplit]
  have hkeeps : ∀ call ∈ userCalls, call.KeepsShutdown := by
    simp [userCalls, SubscriptionCall.KeepsShutdown]
  obtain ⟨hlisted, _, hshutdown⟩ := after_list_agrees servesRequests_unsubscribesAll .typescript
    (fun call hcall => (haccepted call hcall).replied) hnames
  have hholds := (hlisted "user.*" (by rw [hlist]; exact List.mem_singleton_self _)).2
  exact ⟨hlist, hholds, hshutdown hkeeps _ hholds⟩

/-- Under such an acton an unsubscribe of selectors alone ends every subscription of the
connection, while the client keeps the other topics on its list. -/
theorem unsubscribe_patterns_clears (language : Language) {c : Subscriber}
    (hconnected : c.connected = true) {topics : List String} {partition : TopicPartition}
    (hpartition : partitionTopics topics = .ok partition) (hnone : partition.exact = [])
    {first second : SubscribeAnswer} (hfirst : first.isAccepted = true)
    (hsecond : second.isAccepted = true) :
    (∀ t, ¬ (c.unsubscribeInternal unsubscribesAll language topics first second).1.Holds t) ∧
      (c.unsubscribeInternal unsubscribesAll language topics first second).1.subscribedTypes =
        c.subscribedTypes.filter fun t => t ∉ topics := by
  unfold unsubscribeInternal
  rw [if_neg (by simp [hconnected]), hpartition]
  cases first with
  | refused error => cases hfirst
  | failed error applied => cases hfirst
  | accepted types =>
    have hcleared : c.serve unsubscribesAll (.unsubscribe partition.exact) (.accepted types) =
        c.hold ⟨∅, ∅⟩ := by
      rw [hnone]
      rfl
    simp only [hcleared]
    split
    · exact ⟨fun t ht => by simp [Holds, hold, untrack] at ht, rfl⟩
    · cases second with
      | refused error => cases hsecond
      | failed error applied => cases hsecond
      | accepted patterns =>
        refine ⟨fun t ht => ?_, rfl⟩
        simp [Holds, hold, untrack, serve, held, unsubscribesAll, SubscribeAnswer.isApplied] at ht

-- a request that times out leaves what the first one gave back on the list
example : "timer.tick" ∈ (after unsubscribesAll .python
      [.subscribe ["timer.tick", "user.*"] (.accepted []) (.accepted []),
        .unsubscribe ["timer.tick", "user.*"] (.accepted [])
          (.failed "Request timed out" false)]).subscribedTypes ∧
    ¬ (after unsubscribesAll .python
      [.subscribe ["timer.tick", "user.*"] (.accepted []) (.accepted []),
        .unsubscribe ["timer.tick", "user.*"] (.accepted [])
          (.failed "Request timed out" false)]).Holds "timer.tick" := by
  unfold Holds
  decide

end Subscriber

end Emergent.Sdk

import Emergent.Sdk.PullTraffic

/-!
# Many offers and consumers of one stream type

Any number of handlers of the Rust SDK, each running one `stream_offer` or
`stream_consume` after another on its message stream, in any interleaving with the
broker's deliveries.
-/

namespace Emergent.Sdk
open Kit

structure ConsumeRun where
  party : ℕ
  consume : Consume

inductive PullCall where
  | offering (offer : ℕ)
  | consuming (consume : ℕ)
  deriving Repr, DecidableEq

structure PullNetwork where
  traffic : Traffic
  calls : List (Option PullCall)
  consumes : List ConsumeRun

inductive PullAction where
  | subscribe
  | offer (p : ℕ) (streamId : String) (items : ℕ → Option Value)
  | consume (p : ℕ)
  | deliver (p q : ℕ)
  /-- Handler `q` reads a message, with the call it is in or between calls. -/
  | turn (q : ℕ) (publishes : Bool)
  /-- A wait of the call of `q` ends without a message. -/
  | wake (q : ℕ) (input : StreamInput)

namespace PullNetwork

def start : PullNetwork := ⟨⟨[], fun _ _ => [], [], []⟩, [], []⟩

def endCall (s : PullNetwork) (q : ℕ) (outcome : Option (Except StreamFault ℕ)) : PullNetwork :=
  if outcome.isSome then { s with calls := s.calls.set q none } else s

/-- What `input` does to the call that handler `q` is in. -/
def feed (alike : Value → Value → Bool) (s : PullNetwork) (q : ℕ) (input : StreamInput) :
    Option PullNetwork :=
  match s.calls[q]? with
  | some (some (.offering i)) =>
    s.traffic.offers[i]?.bind fun r => (r.offer.step .rust input).map fun offer =>
      ({ s with traffic := s.traffic.advance i r offer }).endCall q offer.outcome
  | some (some (.consuming j)) =>
    s.consumes[j]?.bind fun r => (r.consume.step alike .rust input).map fun consume =>
      ({ s with
        traffic := s.traffic.post q
          ((consume.sent.drop r.consume.sent.length).map fun m => ⟨m, .pull⟩)
        consumes := s.consumes.modify j fun r => { r with consume := consume } }).endCall q
          consume.outcome
  | some none => some s
  | none => none

-- `CorrelationId::new` is an id that nothing published so far has in it
def step (alike : Value → Value → Bool) (messageType : String) (s : PullNetwork) :
    PullAction → Option PullNetwork
  | .subscribe => some { s with traffic := s.traffic.join, calls := s.calls ++ [none] }
  | .offer p streamId items =>
    if s.calls[p]? = some none ∧ ∀ m ∈ s.traffic.published, m.names streamId = false then
      some { s with
        traffic := s.traffic.announce p (.announce streamId messageType items none true)
        calls := s.calls.set p (some (.offering s.traffic.offers.length)) }
    else none
  | .consume p =>
    if s.calls[p]? = some none then
      some { s with
        calls := s.calls.set p (some (.consuming s.consumes.length))
        consumes := s.consumes ++ [⟨p, .begin messageType⟩] }
    else none
  | .deliver p q => (s.traffic.deliver p q).map fun traffic => { s with traffic := traffic }
  | .turn q publishes =>
    (s.traffic.read q).bind fun (e, traffic) =>
      ({ s with traffic := traffic }).feed alike q (.message e.message publishes)
  | .wake q input =>
    match input with
    | .message _ _ => none
    | _ => s.feed alike q input

/-- The item that a turn of handler `q` publishes. -/
def nextItem (s : PullNetwork) (q : ℕ) : Option Value :=
  match s.calls[q]?, s.traffic.inbox q with
  | some (some (.offering i)), e :: _ =>
    s.traffic.offers[i]?.bind fun r =>
      if isPull r.offer.streamId e.message then r.offer.items r.offer.published else none
  | _, _ => none

/-- An item of a stream that has the type of the protocol's own `stream.ready` or
`stream.end` does not carry the id of an offer where those do. -/
def Unmistakable (messageType : String) (s : PullNetwork) : PullAction → Prop
  | .turn q _ => messageType = "stream.ready" ∨ messageType = "stream.end" →
      ∀ v ∈ s.nextItem q, ∀ r ∈ s.traffic.offers, streamIdOf v ≠ some r.offer.streamId
  | _ => True

instance (messageType : String) (s : PullNetwork) (a : PullAction) :
    Decidable (s.Unmistakable messageType a) :=
  match a with
  | .turn q _ => inferInstanceAs (Decidable (_ → ∀ v ∈ s.nextItem q, ∀ r ∈ s.traffic.offers, _))
  | .subscribe | .offer _ _ _ | .consume _ | .deliver _ _ | .wake _ _ => isTrue trivial

/-- The consumer has all items of one offer and has read its end, and the offer
returned their number. -/
def Received (t : Traffic) (messageType : String) (c : Consume) (n : ℕ) : Prop :=
  ∃ (i : ℕ) (r : OfferRun), t.offers[i]? = some r ∧
    c.accepted = some (some (.string r.offer.streamId)) ∧
    (∀ (k : ℕ) (r' : OfferRun), t.offers[k]? = some r' →
      r'.offer.streamId = r.offer.streamId → k = i) ∧
    r.offer.outcome = some (.ok n) ∧ n = c.received.length ∧
    c.received = r.offer.itemsServed.map (.item r.offer.streamId messageType) ∧
    r.offer.sent = .ready r.offer.streamId messageType none :: c.received ++
      [.finish r.offer.streamId] ∧
    c.seen.getLast? = some (.finish r.offer.streamId)

end PullNetwork

/-! ### What a consumer makes of a message -/

section
variable {alike : Value → Value → Bool} {messageType id : String} {ids : ℕ → Option String}
  {e : Envelope} {m : StreamMessage}

theorem memberOf_rust (v : Value) :
    (memberOf .rust v "stream_id").any (sameKey alike (some (.string id))) = true ↔
      streamIdOf v = some id := by
  cases v <;> simp [memberOf, sameKey, streamIdOf, Value.get]

theorem isEnd_rust : isEnd alike .rust (some (.string id)) m = true ↔
    m.messageType = "stream.end" ∧ streamIdOf m.payload = some id := by
  simp only [isEnd, Bool.and_eq_true, decide_eq_true_eq, memberOf_rust]

theorem isItem_rust : isItem alike .rust messageType (some (.string id)) m = true ↔
    m.messageType = messageType ∧ m.metadata.bind streamIdOf = some id := by
  cases hmeta : m.metadata with
  | none => simp [isItem, hmeta]
  | some v => simp [isItem, hmeta, memberOf_rust]

theorem acceptance_rust (messageType : String) (m : StreamMessage) :
    acceptance .rust messageType m = .ignore ∨
      ∃ id, acceptance .rust messageType m = .accept (some (.string id)) ∧
        m.messageType = "stream.ready" ∧ streamIdOf m.payload = some id := by
  unfold acceptance
  split_ifs with hready
  · cases hid : m.payload.get "stream_id" with
    | none => exact Or.inl rfl
    | some v =>
      cases v with
      | string id => exact Or.inr ⟨id, rfl, hready.1, by simp [streamIdOf, hid, Value.asStr]⟩
      | _ => exact Or.inl rfl
  · exact Or.inl rfl

theorem streamIdOf_ready :
    streamIdOf (StreamMessage.ready id messageType none).payload = some id := by
  simp [StreamMessage.ready, streamIdOf, Value.get, Value.asStr]

theorem streamIdOf_finish : streamIdOf (StreamMessage.finish id).payload = some id := by
  simp [StreamMessage.finish, streamIdOf, Value.get, Value.asStr]

theorem streamIdOf_item (v : Value) :
    (StreamMessage.item id messageType v).metadata.bind streamIdOf = some id := by
  simp [StreamMessage.item, streamIdOf, Value.get, Value.asStr]

variable (alike) in
/-- Only the end that an offer sends is read as its end. -/
theorem isEnd_iff_origin {i : ℕ} (he : Genuine messageType ids e) (hid : ids i = some id)
    (hdistinct : ∀ k, ids k = some id → k = i) :
    isEnd alike .rust (some (.string id)) e.message = true ↔ e.origin = .finish i := by
  rw [isEnd_rust]
  unfold Genuine at he
  cases horigin : e.origin with
  | ready k =>
    rw [horigin] at he
    obtain ⟨_, _, hm⟩ := he
    simp [hm, StreamMessage.ready]
  | item k =>
    rw [horigin] at he
    obtain ⟨_, v, _, hm, hclean⟩ := he
    constructor
    · rintro ⟨htype, hv⟩
      rw [hm] at htype hv
      exact absurd hv (hclean (Or.inr htype) i id hid)
    · intro h
      cases h
  | finish k =>
    rw [horigin] at he
    obtain ⟨id', hk, hm⟩ := he
    rw [hm, streamIdOf_finish]
    constructor
    · rintro ⟨_, heq⟩
      rw [hdistinct k (hk.trans heq)]
    · intro h
      obtain rfl : k = i := Origin.finish.inj h
      exact ⟨rfl, hk.symm.trans hid⟩
  | pull =>
    rw [horigin] at he
    obtain ⟨_, hm⟩ := he
    simp [hm, StreamMessage.pull]

variable (alike) in
/-- Only the items that an offer sends are read as its items. -/
theorem isItem_iff_origin {i : ℕ} (he : Genuine messageType ids e) (hid : ids i = some id)
    (hdistinct : ∀ k, ids k = some id → k = i) :
    isItem alike .rust messageType (some (.string id)) e.message = true ↔ e.origin = .item i := by
  rw [isItem_rust]
  unfold Genuine at he
  cases horigin : e.origin with
  | ready k =>
    rw [horigin] at he
    obtain ⟨_, _, hm⟩ := he
    simp [hm, StreamMessage.ready]
  | item k =>
    rw [horigin] at he
    obtain ⟨id', v, hk, hm, _⟩ := he
    rw [hm, streamIdOf_item]
    constructor
    · rintro ⟨_, heq⟩
      rw [hdistinct k (hk.trans heq)]
    · intro h
      obtain rfl : k = i := Origin.item.inj h
      exact ⟨rfl, hk.symm.trans hid⟩
  | finish k =>
    rw [horigin] at he
    obtain ⟨_, _, hm⟩ := he
    simp [hm, StreamMessage.finish]
  | pull =>
    rw [horigin] at he
    obtain ⟨_, hm⟩ := he
    simp [hm, StreamMessage.pull]

variable (alike) in
/-- An id that a consumer took from an item belongs to no offer, and nothing is
read for it. -/
theorem unowned_ignored (he : Genuine messageType ids e) (htype : messageType = "stream.ready")
    (hnone : ∀ k, ids k ≠ some id) :
    isEnd alike .rust (some (.string id)) e.message = false ∧
      isItem alike .rust messageType (some (.string id)) e.message = false := by
  rw [← Bool.not_eq_true, ← Bool.not_eq_true, isEnd_rust, isItem_rust]
  unfold Genuine at he
  cases horigin : e.origin with
  | ready k =>
    rw [horigin] at he
    obtain ⟨_, _, hm⟩ := he
    simp [hm, StreamMessage.ready]
  | item k =>
    rw [horigin] at he
    obtain ⟨id', v, hk, hm, _⟩ := he
    rw [hm, streamIdOf_item]
    refine ⟨fun h => ?_, fun h => hnone k (hk.trans h.2)⟩
    have hend : messageType = "stream.end" := h.1
    rw [htype] at hend
    exact absurd hend (by decide)
  | finish k =>
    rw [horigin] at he
    obtain ⟨id', hk, hm⟩ := he
    rw [hm, streamIdOf_finish]
    exact ⟨fun h => hnone k (hk.trans h.2), fun h => by simp [StreamMessage.finish] at h⟩
  | pull =>
    rw [horigin] at he
    obtain ⟨_, hm⟩ := he
    simp [hm, StreamMessage.pull]

end

/-! ### A consumer behind an offer -/

namespace Traffic

variable {messageType : String} {t u : Traffic} {q : ℕ} {key : StreamKey}
  {received : List StreamMessage}

/-- What the consumer has received and has still to read is what the offer sent
after its announcement; or the consumer took an id that belongs to no offer. -/
def Follows (messageType : String) (t : Traffic) (q : ℕ) (key : StreamKey)
    (received : List StreamMessage) : Prop :=
  (∃ (i : ℕ) (r : OfferRun), t.offers[i]? = some r ∧ key = some (.string r.offer.streamId) ∧
    received ++ t.view r.party q i = r.offer.sent.tail) ∨
  (messageType = "stream.ready" ∧ ∃ id, key = some (.string id) ∧ (∀ k, t.idOf k ≠ some id) ∧
    ∃ m ∈ t.published, m.names id = true)

theorem idOf_of_offers {i : ℕ} {r : OfferRun} (hr : t.offers[i]? = some r) :
    t.idOf i = some r.offer.streamId := by
  simp only [idOf, hr, Option.map_some]

theorem Sound.sent_eq (ht : t.Sound messageType) {i : ℕ} {r : OfferRun}
    (hr : t.offers[i]? = some r) : r.offer.sent = .ready r.offer.streamId messageType none ::
      r.offer.itemsServed.map (.item r.offer.streamId messageType) ++ r.offer.ending := by
  obtain ⟨hgoing, htype, hcount, hne⟩ := ht.going i r hr
  have hsent := hgoing.transcript hne
  rwa [htype, hcount] at hsent

/-- After its announcement an offer sends items and at most one end. -/
theorem Sound.mem_tail (ht : t.Sound messageType) {i : ℕ} {r : OfferRun} {m : StreamMessage}
    (hr : t.offers[i]? = some r) (hm : m ∈ r.offer.sent.tail) :
    (∃ v, m = .item r.offer.streamId messageType v) ∨ m = .finish r.offer.streamId := by
  rw [ht.sent_eq hr, List.cons_append, List.tail_cons] at hm
  rcases List.mem_append.mp hm with hm | hm
  · obtain ⟨v, _, rfl⟩ := List.mem_map.mp hm
    exact Or.inl ⟨v, rfl⟩
  · refine Or.inr ?_
    unfold Offer.ending at hm
    split at hm
    · exact List.mem_singleton.mp hm
    · cases hm

theorem Sound.ready_not_mem_tail (ht : t.Sound messageType) {i : ℕ} {r : OfferRun}
    (hr : t.offers[i]? = some r) :
    .ready r.offer.streamId messageType none ∉ r.offer.sent.tail := by
  intro hm
  rcases ht.mem_tail hr hm with ⟨v, heq⟩ | heq
  · have hmeta := congrArg StreamMessage.metadata heq
    cases hmeta
  · have htype := congrArg StreamMessage.messageType heq
    exact absurd htype (by simp [StreamMessage.ready, StreamMessage.finish])

/-- The stream of a consumer that takes a `stream.ready` begins right behind it. -/
theorem Sound.follows_ready (ht : t.Sound messageType) {e : Envelope}
    (hread : t.read q = some (e, u)) {id : String} (htype : e.message.messageType = "stream.ready")
    (hid : streamIdOf e.message.payload = some id) :
    u.Follows messageType q (some (.string id)) [] := by
  obtain ⟨hinbox, _, _, hoffers, hpublished, _⟩ := read_cases hread
  have hcarries : t.Carries q e := Or.inl (hinbox ▸ List.mem_cons_self)
  have hgenuine := ht.genuine q e hcarries
  unfold Genuine at hgenuine
  cases horigin : e.origin with
  | ready i =>
    rw [horigin] at hgenuine
    obtain ⟨id', hi, hm⟩ := hgenuine
    obtain ⟨r, hr, rfl⟩ := Option.map_eq_some_iff.mp hi
    rw [hm, streamIdOf_ready] at hid
    obtain rfl := Option.some.inj hid
    refine Or.inl ⟨i, r, by rw [hoffers]; exact hr, rfl, ?_⟩
    have hview := ht.view i r q hr
    rw [view_read hread, if_pos (by rw [horigin]; rfl), ht.sent_eq hr, List.cons_append,
      List.suffix_cons_iff] at hview
    rcases hview with heq | hsuffix
    · rw [List.nil_append, ht.sent_eq hr, List.cons_append, List.tail_cons]
      exact (List.cons.inj heq).2
    · refine absurd ?_ (ht.ready_not_mem_tail hr)
      rw [ht.sent_eq hr, List.cons_append, List.tail_cons]
      exact hsuffix.subset (hm ▸ List.mem_cons_self)
  | item i =>
    rw [horigin] at hgenuine
    obtain ⟨_, v, _, hm, hclean⟩ := hgenuine
    have hready : messageType = "stream.ready" := by rw [hm] at htype; exact htype
    have hv : streamIdOf v = some id := by rw [hm] at hid; exact hid
    refine Or.inr ⟨hready, id, rfl, fun k hk => ?_, e.message, ?_, ?_⟩
    · have hk' : t.idOf k = some id := by simpa only [idOf, hoffers] using hk
      exact hclean (Or.inl hready) k id hk' hv
    · rw [hpublished]
      exact ht.logged q e hcarries
    · simp [StreamMessage.names, hid]
  | finish i =>
    rw [horigin] at hgenuine
    obtain ⟨_, _, hm⟩ := hgenuine
    rw [hm] at htype
    exact absurd htype (by simp [StreamMessage.finish])
  | pull =>
    rw [horigin] at hgenuine
    obtain ⟨_, hm⟩ := hgenuine
    rw [hm] at htype
    exact absurd htype (by simp [StreamMessage.pull])

theorem append_eq_of_last {α : Type} {xs ys l tl : List α} {a : α} (h : xs ++ a :: ys = l ++ tl)
    (hl : a ∉ l) (htl : tl = [] ∨ tl = [a]) : tl = [a] ∧ xs = l := by
  have hlast : tl = [a] := by
    rcases htl with rfl | htl
    · rw [List.append_nil] at h
      exact absurd (h ▸ List.mem_append_right _ List.mem_cons_self) hl
    · exact htl
  rw [hlast] at h
  rcases List.append_eq_append_iff.mp h with ⟨mid, hl', hmid⟩ | ⟨mid, hxs, hmid⟩
  · cases mid with
    | nil => exact ⟨hlast, by simpa using hl'.symm⟩
    | cons b mid =>
      have hb : a = b := (List.cons.inj hmid).1
      refine absurd ?_ hl
      rw [hl', hb]
      exact List.mem_append_right _ List.mem_cons_self
  · cases mid with
    | nil => exact ⟨hlast, by simpa using hxs⟩
    | cons b mid =>
      have hlen := congrArg List.length hmid
      simp at hlen

theorem Sound.distinct_of (ht : t.Sound messageType) {i : ℕ} {r : OfferRun}
    (hr : t.offers[i]? = some r) (k : ℕ) (hk : t.idOf k = some r.offer.streamId) : k = i :=
  ht.distinct k i _ hk (idOf_of_offers hr)

section
variable {alike : Value → Value → Bool} {e : Envelope}

/-- A consumer that reads the end has received what the offer sent. -/
theorem Sound.follows_end (ht : t.Sound messageType) (hread : t.read q = some (e, u))
    (hfollows : t.Follows messageType q key received)
    (hend : isEnd alike .rust key e.message = true) :
    ∃ (i : ℕ) (r : OfferRun), u.offers[i]? = some r ∧ key = some (.string r.offer.streamId) ∧
      e.message = .finish r.offer.streamId ∧ r.offer.outcome = some (.ok received.length) ∧
      received = r.offer.itemsServed.map (.item r.offer.streamId messageType) ∧
      r.offer.sent = .ready r.offer.streamId messageType none :: received ++
        [.finish r.offer.streamId] := by
  obtain ⟨hinbox, _, _, hoffers, _⟩ := read_cases hread
  have hgenuine := ht.genuine q e (Or.inl (hinbox ▸ List.mem_cons_self))
  rcases hfollows with ⟨i, r, hr, rfl, hview⟩ | ⟨htype, id, rfl, hnone, _⟩
  · have horigin :=
      (isEnd_iff_origin alike hgenuine (idOf_of_offers hr) (ht.distinct_of hr)).mp hend
    have hm : e.message = .finish r.offer.streamId := by
      unfold Genuine at hgenuine
      rw [horigin] at hgenuine
      obtain ⟨id, hid, hm⟩ := hgenuine
      rw [hm, Option.some.inj ((idOf_of_offers hr).symm.trans hid)]
    have hsent := ht.sent_eq hr
    rw [view_read hread, if_pos (by rw [horigin]; rfl), hm, hsent, List.cons_append,
      List.tail_cons] at hview
    have hitems : StreamMessage.finish r.offer.streamId ∉
        r.offer.itemsServed.map (StreamMessage.item r.offer.streamId messageType) := by
      intro hmem
      obtain ⟨v, _, heq⟩ := List.mem_map.mp hmem
      have hmeta := congrArg StreamMessage.metadata heq
      cases hmeta
    have hending : r.offer.ending = [] ∨ r.offer.ending = [.finish r.offer.streamId] := by
      unfold Offer.ending
      split
      · exact Or.inr rfl
      · exact Or.inl rfl
    obtain ⟨hlast, hall⟩ := append_eq_of_last hview hitems hending
    obtain ⟨n, hn⟩ : ∃ n, r.offer.outcome = some (.ok n) := by
      unfold Offer.ending at hlast
      split at hlast
      · rename_i n hn
        exact ⟨n, hn⟩
      · cases hlast
    have hcount : n = received.length := by
      have hgoing := (ht.going i r hr).1
      rw [hgoing.returned n hn, ← hgoing.served, hall, List.length_map]
    refine ⟨i, r, by rw [hoffers]; exact hr, rfl, hm, hcount ▸ hn, hall, ?_⟩
    rw [hsent, hlast, hall]
  · have hfalse := (unowned_ignored alike hgenuine htype hnone).1
    rw [hend] at hfalse
    cases hfalse

theorem Follows.read_other (hfollows : t.Follows messageType q key received) {b : ℕ}
    (hread : t.read b = some (e, u)) (hb : b ≠ q) : u.Follows messageType q key received := by
  obtain ⟨_, hother, hwires, hoffers, hpublished, _⟩ := read_cases hread
  rcases hfollows with ⟨i, r, hr, hkey, hview⟩ | ⟨htype, id, hkey, hnone, hnamed⟩
  · refine Or.inl ⟨i, r, by rw [hoffers]; exact hr, hkey, ?_⟩
    rw [view_congr (hother q hb) (by rw [hwires])]
    exact hview
  · refine Or.inr ⟨htype, id, hkey, fun k => ?_, by rw [hpublished]; exact hnamed⟩
    simpa only [idOf, hoffers] using hnone k

/-- A message that is not the end is an item of the stream or nothing to it. -/
theorem Sound.follows_item (ht : t.Sound messageType) (hread : t.read q = some (e, u))
    (hfollows : t.Follows messageType q key received)
    (hend : isEnd alike .rust key e.message = false) :
    u.Follows messageType q key
      (if isItem alike .rust messageType key e.message then received ++ [e.message]
        else received) := by
  obtain ⟨hinbox, _, _, hoffers, hpublished, _⟩ := read_cases hread
  have hgenuine := ht.genuine q e (Or.inl (hinbox ▸ List.mem_cons_self))
  rcases hfollows with ⟨i, r, hr, rfl, hview⟩ | ⟨htype, id, rfl, hnone, hnamed⟩
  · have hid := idOf_of_offers hr
    have hitem := isItem_iff_origin alike hgenuine hid (ht.distinct_of hr)
    have hfinish := isEnd_iff_origin alike hgenuine hid (ht.distinct_of hr)
    rw [hend] at hfinish
    refine Or.inl ⟨i, r, by rw [hoffers]; exact hr, rfl, ?_⟩
    rw [view_read hread] at hview
    by_cases hmine : e.origin.offer? = some i
    · rw [if_pos hmine] at hview
      have horigin : e.origin = .item i := by
        cases h : e.origin with
        | ready k =>
          -- the announcement is not sent again
          rw [h] at hmine
          obtain rfl : k = i := Option.some.inj hmine
          unfold Genuine at hgenuine
          rw [h] at hgenuine
          obtain ⟨id, hk, hm⟩ := hgenuine
          obtain rfl := Option.some.inj (hid.symm.trans hk)
          refine absurd ?_ (ht.ready_not_mem_tail hr)
          rw [← hview, hm]
          exact List.mem_append_right _ List.mem_cons_self
        | item k =>
          rw [h] at hmine
          exact congrArg Origin.item (Option.some.inj hmine)
        | finish k =>
          rw [h] at hmine hfinish
          obtain rfl : k = i := Option.some.inj hmine
          simp at hfinish
        | pull =>
          rw [h] at hmine
          cases hmine
      rw [if_pos (hitem.mpr horigin), List.append_assoc, List.singleton_append]
      exact hview
    · have hnot : isItem alike .rust messageType (some (.string r.offer.streamId)) e.message =
          false := by
        rw [← Bool.not_eq_true, hitem]
        intro horigin
        rw [horigin] at hmine
        exact hmine rfl
      rw [if_neg hmine] at hview
      rw [hnot]
      exact hview
  · have hignored := unowned_ignored alike hgenuine htype hnone
    rw [hignored.2]
    refine Or.inr ⟨htype, id, rfl, fun k => ?_, by rw [hpublished]; exact hnamed⟩
    simpa only [idOf, hoffers] using hnone k

end

theorem Follows.join (hfollows : t.Follows messageType q key received) :
    t.join.Follows messageType q key received := by
  rcases hfollows with ⟨i, r, hr, hkey, hview⟩ | hunowned
  · refine Or.inl ⟨i, r, hr, hkey, ?_⟩
    rw [view_congr (inbox_join t q) rfl]
    exact hview
  · exact Or.inr hunowned

theorem Follows.deliver (ht : t.Sound messageType)
    (hfollows : t.Follows messageType q key received) {a b : ℕ} (h : t.deliver a b = some u) :
    u.Follows messageType q key received := by
  obtain ⟨_, _, _, _, _, hoffers, hpublished, _⟩ := deliver_cases ht h
  rcases hfollows with ⟨i, r, hr, hkey, hview⟩ | ⟨htype, id, hkey, hnone, hnamed⟩
  · refine Or.inl ⟨i, r, by rw [hoffers]; exact hr, hkey, ?_⟩
    rw [view_deliver ht h hr]
    exact hview
  · refine Or.inr ⟨htype, id, hkey, fun k => ?_, by rw [hpublished]; exact hnamed⟩
    simpa only [idOf, hoffers] using hnone k

theorem Follows.post_pulls (hfollows : t.Follows messageType q key received) (p : ℕ)
    (ms : List StreamMessage) :
    (t.post p (ms.map fun m => ⟨m, .pull⟩)).Follows messageType q key received := by
  rcases hfollows with ⟨i, r, hr, hkey, hview⟩ | ⟨htype, id, hkey, hnone, m, hm, hnames⟩
  · refine Or.inl ⟨i, r, hr, hkey, ?_⟩
    rw [view_post_other]
    · exact hview
    · intro e he
      obtain ⟨m, _, rfl⟩ := List.mem_map.mp he
      simp [Origin.offer?]
  · exact Or.inr ⟨htype, id, hkey, hnone, m, List.mem_append_left _ hm, hnames⟩

theorem Follows.announce (hfollows : t.Follows messageType q key received) (p : ℕ)
    {streamId : String} (items : ℕ → Option Value)
    (hfresh : ∀ m ∈ t.published, m.names streamId = false) :
    (t.announce p (.announce streamId messageType items none true)).Follows messageType q key
      received := by
  rcases hfollows with ⟨i, r, hr, hkey, hview⟩ | ⟨htype, id, hkey, hnone, m, hm, hnames⟩
  · have hlt := (List.getElem?_eq_some_iff.mp hr).1
    refine Or.inl ⟨i, r, (List.getElem?_append_left hlt).trans hr, hkey, ?_⟩
    rw [view_announce hr]
    exact hview
  · refine Or.inr ⟨htype, id, hkey, fun k hk => ?_, m, List.mem_append_left _ hm, hnames⟩
    obtain ⟨r, hr, hid⟩ := Option.map_eq_some_iff.mp hk
    rcases getElem?_snoc_cases hr with hr | ⟨_, rfl⟩
    · exact hnone k (Option.map_eq_some_iff.mpr ⟨r, hr, hid⟩)
    · -- the new id is not one that was published before
      have hfalse := hfresh m hm
      obtain rfl : streamId = id := hid
      rw [hnames] at hfalse
      cases hfalse

theorem Follows.advance (ht : t.Sound messageType)
    (hfollows : t.Follows messageType q key received) (hq : q < t.inboxes.length) {i : ℕ}
    {r : OfferRun} {o : Offer} {ms : List StreamMessage} (hr : t.offers[i]? = some r)
    (hid : o.streamId = r.offer.streamId) (hsent : o.sent = r.offer.sent ++ ms) :
    (t.advance i r o).Follows messageType q key received := by
  rcases hfollows with ⟨k, r', hr', hkey, hview⟩ | ⟨htype, id, hkey, hnone, m, hm, hnames⟩
  · have hnext := view_advance (i := i) (k := k) (r := r) hsent hq r'.party
    by_cases hki : k = i
    · subst hki
      obtain rfl : r' = r := Option.some.inj (hr'.symm.trans hr)
      have hne := (ht.going k r' hr).2.2.2
      refine Or.inl ⟨k, { r' with offer := o }, getElem?_modify_self hr, ?_, ?_⟩
      · simp only [hid, hkey]
      · simp only [hnext, and_self, if_true, ← List.append_assoc, hview, hsent,
          List.tail_append_of_ne_nil hne]
    · refine Or.inl ⟨k, r', (getElem?_modify_of_ne (Ne.symm hki)).trans hr', hkey, ?_⟩
      rw [hnext, if_neg fun h => hki h.2, List.append_nil]
      exact hview
  · refine Or.inr ⟨htype, id, hkey, fun k => ?_, m, List.mem_append_left _ hm, hnames⟩
    rw [idOf_advance hr hid]
    exact hnone k

end Traffic

/-! ### The whole network -/

namespace PullNetwork

variable {alike : Value → Value → Bool} {messageType : String} {s : PullNetwork} {t u : Traffic}

theorem Received.mono {c : Consume} {n : ℕ} (h : Received t messageType c n)
    (hu : u.Sound messageType) (hkept : ∀ (i : ℕ) (r : OfferRun), t.offers[i]? = some r →
      r.offer.outcome.isSome = true → u.offers[i]? = some r) : Received u messageType c n := by
  obtain ⟨i, r, hr, haccepted, _, houtcome, hrest⟩ := h
  have hr' := hkept i r hr (by rw [houtcome]; rfl)
  refine ⟨i, r, hr', haccepted, fun k r' hk heq => ?_, houtcome, hrest⟩
  exact hu.distinct_of hr' k (heq ▸ Traffic.idOf_of_offers hk)

/-- A running consumer has received nothing before it accepts a stream, and follows
the offer from then on. -/
structure Behind (messageType : String) (t : Traffic) (r : ConsumeRun) : Prop where
  typed : r.consume.messageType = messageType
  before : r.consume.accepted = none → r.consume.received = []
  after : ∀ key, r.consume.accepted = some key →
    t.Follows messageType r.party key r.consume.received

/-- The invariant of the network, but for the consumer of the handler `busy` that
has just read a message. -/
structure Ledger (messageType : String) (busy : Option ℕ) (s : PullNetwork) : Prop where
  sound : s.traffic.Sound messageType
  sizes : s.calls.length = s.traffic.inboxes.length
  consuming : ∀ q j : ℕ, s.calls[q]? = some (some (.consuming j)) →
    ∃ r : ConsumeRun, s.consumes[j]? = some r ∧ r.party = q
  running : ∀ (j : ℕ) (r : ConsumeRun), s.consumes[j]? = some r → r.consume.outcome = none →
    s.calls[r.party]? = some (some (.consuming j)) ∧
      (some r.party ≠ busy → Behind messageType s.traffic r)
  complete : ∀ (j : ℕ) (r : ConsumeRun) (n : ℕ), s.consumes[j]? = some r →
    r.consume.outcome = some (.ok n) → Received s.traffic messageType r.consume n

theorem ledger_start : start.Ledger messageType none where
  sound :=
    { genuine := fun q e h => by rcases h with h | ⟨_, h⟩ <;> simp [start, Traffic.inbox] at h
      logged := fun q e h => by rcases h with h | ⟨_, h⟩ <;> simp [start, Traffic.inbox] at h
      origin := fun _ _ _ _ _ h => by cases h
      distinct := fun _ _ _ h => by cases h
      announced := fun _ _ h => by cases h
      going := fun _ _ h => by cases h
      beyond := fun _ _ _ => rfl
      view := fun _ _ _ h => by cases h }
  sizes := rfl
  consuming := fun _ _ h => by cases h
  running := fun _ _ h => by cases h
  complete := fun _ _ _ h => by cases h

theorem lt_of_call {q : ℕ} {c : Option PullCall} (h : s.calls[q]? = some c) :
    q < s.calls.length := (List.getElem?_eq_some_iff.mp h).1

/-- The traffic moves on without the running consumers noticing. -/
theorem Ledger.moves (hs : s.Ledger messageType none) {busy : Option ℕ}
    (hu : u.Sound messageType) (hlen : u.inboxes.length = s.traffic.inboxes.length)
    (hkept : ∀ (i : ℕ) (r : OfferRun), s.traffic.offers[i]? = some r →
      r.offer.outcome.isSome = true → u.offers[i]? = some r)
    (hfollows : ∀ q key received, q < s.traffic.inboxes.length → some q ≠ busy →
      s.traffic.Follows messageType q key received → u.Follows messageType q key received) :
    ({ s with traffic := u } : PullNetwork).Ledger messageType busy where
  sound := hu
  sizes := hs.sizes.trans hlen.symm
  consuming := hs.consuming
  running := by
    intro j r hr hrun
    obtain ⟨hcall, hbehind⟩ := hs.running j r hr hrun
    refine ⟨hcall, fun hbusy => ?_⟩
    have hq := lt_of_call hcall
    rw [hs.sizes] at hq
    obtain ⟨htyped, hbefore, hafter⟩ := hbehind (by simp)
    exact ⟨htyped, hbefore, fun key hkey => hfollows _ key _ hq hbusy (hafter key hkey)⟩
  complete := fun j r n hr hn => (hs.complete j r n hr hn).mono hu hkept

theorem Ledger.reads (hs : s.Ledger messageType none) {q : ℕ} {e : Envelope}
    (hread : s.traffic.read q = some (e, u)) :
    ({ s with traffic := u } : PullNetwork).Ledger messageType (some q) := by
  obtain ⟨_, _, _, hoffers, _, hlen⟩ := Traffic.read_cases hread
  refine hs.moves (hs.sound.read hread) hlen (fun i r hr _ => by rw [hoffers]; exact hr) ?_
  intro b key received _ hb hfollows
  exact hfollows.read_other hread fun heq => hb (congrArg some heq.symm)

/-- A handler that is not consuming has no consumer to wait for. -/
theorem Ledger.free {q : ℕ} (hs : s.Ledger messageType (some q))
    (hcall : ∀ j, s.calls[q]? ≠ some (some (.consuming j))) : s.Ledger messageType none where
  sound := hs.sound
  sizes := hs.sizes
  consuming := hs.consuming
  running := by
    intro j r hr hrun
    obtain ⟨hconsuming, hbehind⟩ := hs.running j r hr hrun
    refine ⟨hconsuming, fun _ => hbehind fun heq => ?_⟩
    rw [Option.some.inj heq] at hconsuming
    exact hcall j hconsuming
  complete := hs.complete

theorem Ledger.busy (hs : s.Ledger messageType none) (q : ℕ) : s.Ledger messageType (some q) where
  sound := hs.sound
  sizes := hs.sizes
  consuming := hs.consuming
  running := fun j r hr hrun =>
    ⟨(hs.running j r hr hrun).1, fun _ => (hs.running j r hr hrun).2 (by simp)⟩
  complete := hs.complete

/-- Handler `q`, whose call is over, makes no other. -/
theorem Ledger.endCall (hs : s.Ledger messageType none) {q : ℕ}
    {outcome : Option (Except StreamFault ℕ)}
    (hcall : outcome.isSome = true → ∀ (j : ℕ) (r : ConsumeRun), s.consumes[j]? = some r →
      r.consume.outcome = none → r.party ≠ q) :
    (s.endCall q outcome).Ledger messageType none := by
  unfold PullNetwork.endCall
  split_ifs with hover
  · refine ⟨hs.sound, by simpa using hs.sizes, fun b j hb => ?_, fun j r hr hrun => ?_, hs.complete⟩
    · by_cases hbq : q = b
      · subst hbq
        rw [List.getElem?_set_self' ] at hb
        cases h : s.calls[q]? with
        | none => simp [h] at hb
        | some c => simp [h] at hb
      · rw [List.getElem?_set_ne hbq] at hb
        exact hs.consuming b j hb
    · obtain ⟨hconsuming, hbehind⟩ := hs.running j r hr hrun
      have hne := hcall hover j r hr hrun
      exact ⟨(List.getElem?_set_ne (Ne.symm hne)).trans hconsuming, hbehind⟩
  · exact hs

/-- What a step of an offer adds to what it has sent. -/
theorem offer_sends {o o' : Offer} {input : StreamInput} (hgoing : o.Going)
    (h : o.step .rust input = some o') :
    o.outcome = none ∧ o'.Going ∧ o'.streamId = o.streamId ∧ o'.messageType = o.messageType ∧
      o'.count = o.count ∧ ∃ ms, o'.sent = o.sent ++ ms ∧ ∀ m ∈ ms,
        (o'.outcome.isSome = true ∧ m = .finish o.streamId) ∨
        (o'.outcome.isSome = false ∧ ∃ v pulled publishes, input = .message pulled publishes ∧
          isPull o.streamId pulled = true ∧ o.items o.published = some v ∧
          m = .item o.streamId o.messageType v) := by
  have hopen : o.StaysOpen .rust input := fun hlang => by cases hlang
  have hgoing' := hgoing.step hopen h
  by_cases hmessage : ∃ pulled publishes, input = .message pulled publishes
  · obtain ⟨pulled, publishes, rfl⟩ := hmessage
    obtain ⟨hrun, rfl | rfl | ⟨v, hpull, hitem, rfl⟩ | rfl⟩ := Offer.step_message h
    · exact ⟨hrun, hgoing', rfl, rfl, rfl, [], (List.append_nil _).symm, by simp⟩
    · exact ⟨hrun, hgoing', rfl, rfl, rfl, [], (List.append_nil _).symm, by simp⟩
    · refine ⟨hrun, hgoing', rfl, rfl, rfl, _, rfl, fun m hm => Or.inr ⟨by simp [hrun], v, pulled,
        publishes, rfl, hpull, hitem, List.mem_singleton.mp hm⟩⟩
    · exact ⟨hrun, hgoing', rfl, rfl, rfl, _, rfl, fun m hm =>
        Or.inl ⟨rfl, List.mem_singleton.mp hm⟩⟩
  · obtain ⟨hrun, fault, rfl⟩ :=
      Offer.step_wake hopen (fun m publishes heq => hmessage ⟨m, publishes, heq⟩) h
    exact ⟨hrun, hgoing', rfl, rfl, rfl, [], (List.append_nil _).symm, by simp⟩

theorem Ledger.feed_offer (hs : s.Ledger messageType none) {q i : ℕ} {r : OfferRun} {o : Offer}
    {input : StreamInput} (hcall : s.calls[q]? = some (some (.offering i)))
    (hr : s.traffic.offers[i]? = some r) (hstep : r.offer.step .rust input = some o)
    (hclean : ∀ pulled publishes v, input = .message pulled publishes →
      isPull r.offer.streamId pulled = true → r.offer.items r.offer.published = some v →
      messageType = "stream.ready" ∨ messageType = "stream.end" →
      ∀ k id, s.traffic.idOf k = some id → streamIdOf v ≠ some id) :
    (({ s with traffic := s.traffic.advance i r o } : PullNetwork).endCall q o.outcome).Ledger
      messageType none := by
  obtain ⟨hgoing, htyped, _, _⟩ := hs.sound.going i r hr
  obtain ⟨hrun, hgoing', hid, htype, hcount, ms, hsent, hms⟩ := offer_sends hgoing hstep
  have hgenuine : ∀ m ∈ ms, Genuine messageType s.traffic.idOf
      ⟨m, if o.outcome.isSome then .finish i else .item i⟩ := by
    intro m hm
    rcases hms m hm with ⟨hover, rfl⟩ | ⟨hgoes, v, pulled, publishes, hinput, hpull, hitem, rfl⟩
    · rw [if_pos hover]
      exact ⟨_, Traffic.idOf_of_offers hr, rfl⟩
    · rw [hgoes]
      exact ⟨_, v, Traffic.idOf_of_offers hr, by rw [htyped], fun hspecial =>
        hclean pulled publishes v hinput hpull hitem hspecial⟩
  have hsound := hs.sound.advance hr hid htype hcount hgoing' hsent hgenuine
  have hmoved : ({ s with traffic := s.traffic.advance i r o } : PullNetwork).Ledger
      messageType none := by
    refine hs.moves hsound rfl (fun k r' hk hover => ?_) fun b key received hb _ hfollows =>
      Traffic.Follows.advance hs.sound hfollows hb hr hid hsent
    have hki : i ≠ k := by
      intro heq
      subst heq
      obtain rfl : r' = r := Option.some.inj (hk.symm.trans hr)
      rw [hrun] at hover
      cases hover
    exact (getElem?_modify_of_ne hki).trans hk
  refine hmoved.endCall fun _ j r' hr' hrun' heq => ?_
  have hconsuming := (hs.running j r' hr' hrun').1
  rw [heq, hcall] at hconsuming
  cases hconsuming

/-- A step of a consumer, with what it leaves behind for the invariant. -/
theorem Ledger.feed_consume {q j : ℕ} {r : ConsumeRun} {c : Consume}
    (hs : s.Ledger messageType (some q)) (hcall : s.calls[q]? = some (some (.consuming j)))
    (hr : s.consumes[j]? = some r) {ms : List StreamMessage}
    (hms : ∀ m ∈ ms, ∃ key, m = .pull key)
    (hbehind : c.outcome = none → Behind messageType s.traffic ⟨r.party, c⟩)
    (hreceived : ∀ n, c.outcome = some (.ok n) → Received s.traffic messageType c n) :
    (({ s with
        traffic := s.traffic.post q (ms.map fun m => ⟨m, .pull⟩)
        consumes := s.consumes.modify j fun r => { r with consume := c } } : PullNetwork).endCall q
          c.outcome).Ledger messageType none := by
  have hparty : r.party = q := by
    obtain ⟨r', hr', hparty⟩ := hs.consuming q j hcall
    obtain rfl : r' = r := Option.some.inj (hr'.symm.trans hr)
    exact hparty
  have hsound := hs.sound.post_pulls q hms
  have hcases : ∀ (k : ℕ) (r' : ConsumeRun),
      (s.consumes.modify j fun r => { r with consume := c })[k]? = some r' →
        (k = j ∧ r' = ⟨r.party, c⟩) ∨ (k ≠ j ∧ s.consumes[k]? = some r') := by
    intro k r' hk
    rcases getElem?_modify_cases hk with ⟨rfl, r'', hr'', rfl⟩ | ⟨hne, hold⟩
    · obtain rfl : r'' = r := Option.some.inj (hr''.symm.trans hr)
      exact Or.inl ⟨rfl, rfl⟩
    · exact Or.inr ⟨hne.symm, hold⟩
  have hpost : ∀ r' : ConsumeRun, Behind messageType s.traffic r' →
      Behind messageType (s.traffic.post q (ms.map fun m => ⟨m, .pull⟩)) r' := fun r' h =>
    ⟨h.typed, h.before, fun key hkey => (h.after key hkey).post_pulls q ms⟩
  -- another consumer that runs is not at this handler
  have hother : ∀ (k : ℕ) (r' : ConsumeRun), k ≠ j → s.consumes[k]? = some r' →
      r'.consume.outcome = none → r'.party ≠ q := by
    intro k r' hne hr' hrun heq
    have hconsuming := (hs.running k r' hr' hrun).1
    rw [heq, hcall] at hconsuming
    have hjk : j = k := PullCall.consuming.inj (Option.some.inj (Option.some.inj hconsuming))
    exact hne hjk.symm
  have hledger : ({ s with
      traffic := s.traffic.post q (ms.map fun m => ⟨m, .pull⟩)
      consumes := s.consumes.modify j fun r => { r with consume := c } } : PullNetwork).Ledger
        messageType none := by
    refine ⟨hsound, hs.sizes, fun b k hb => ?_, fun k r' hk hrun => ?_, fun k r' n hk hn => ?_⟩
    · obtain ⟨r', hr', hb'⟩ := hs.consuming b k hb
      by_cases hkj : j = k
      · subst hkj
        obtain rfl : r' = r := Option.some.inj (hr'.symm.trans hr)
        exact ⟨{ r' with consume := c }, getElem?_modify_self hr, hb'⟩
      · exact ⟨r', (getElem?_modify_of_ne hkj).trans hr', hb'⟩
    · rcases hcases k r' hk with ⟨rfl, rfl⟩ | ⟨hne, hold⟩
      · exact ⟨hparty ▸ hcall, fun _ => hpost _ (hbehind hrun)⟩
      · obtain ⟨hconsuming, hbehind'⟩ := hs.running k r' hold hrun
        have hbusy : some r'.party ≠ some q := fun heq =>
          hother k r' hne hold hrun (Option.some.inj heq)
        exact ⟨hconsuming, fun _ => hpost r' (hbehind' hbusy)⟩
    · rcases hcases k r' hk with ⟨rfl, rfl⟩ | ⟨_, hold⟩
      · exact (hreceived n hn).mono hsound fun _ _ h _ => h
      · exact (hs.complete k r' n hold hn).mono hsound fun _ _ h _ => h
  refine hledger.endCall fun hover k r' hk hrun => ?_
  rcases hcases k r' hk with ⟨_, rfl⟩ | ⟨hne, hold⟩
  · have hrun' : c.outcome = none := hrun
    rw [hrun'] at hover
    cases hover
  · exact hother k r' hne hold hrun

/-- The messages a call sent, and how it stands afterwards. -/
structure Fed (messageType : String) (u : Traffic) (q : ℕ) (old c : Consume) : Prop where
  sent : ∃ ms, c.sent = old.sent ++ ms ∧ ∀ m ∈ ms, ∃ key, m = StreamMessage.pull key
  running : c.outcome = none → Behind messageType u ⟨q, c⟩
  returned : ∀ n, c.outcome = some (.ok n) → Received u messageType c n

theorem fed_fails (messageType : String) (u : Traffic) (q : ℕ) {old c : Consume}
    {fault : StreamFault}
    (hsent : c.sent = old.sent) (h : c.outcome = some (.error fault)) :
    Fed messageType u q old c where
  sent := ⟨[], by simp [hsent], by simp⟩
  running := fun hrun => by
    rw [h] at hrun
    cases hrun
  returned := fun n hn => by
    rw [h] at hn
    cases hn

theorem fed_requestNext {q : ℕ} {old c : Consume} (hsent : c.sent = old.sent)
    (hrun : c.outcome = none) (hbehind : Behind messageType u ⟨q, c⟩) (key : StreamKey)
    (publishes : Bool) : Fed messageType u q old (c.requestNext key publishes) := by
  unfold Consume.requestNext
  split_ifs
  · refine ⟨⟨[.pull key], by rw [← hsent], fun m hm => ⟨key, List.mem_singleton.mp hm⟩⟩,
      fun _ => ⟨hbehind.typed, hbehind.before, hbehind.after⟩, fun n hn => ?_⟩
    have hnone : c.outcome = some (.ok n) := hn
    rw [hrun] at hnone
    cases hnone
  · exact fed_fails messageType u q hsent rfl

theorem fed_message {q : ℕ} {e : Envelope} {old c : Consume} {publishes : Bool}
    (ht : t.Sound messageType) (hread : t.read q = some (e, u))
    (hbehind : Behind messageType t ⟨q, old⟩) (hrun : old.outcome = none)
    (h : old.step alike .rust (.message e.message publishes) = some c) :
    Fed messageType u q old c := by
  obtain rfl : old.messageType = messageType := hbehind.typed
  simp only [Consume.step, hrun, Option.isSome_none, Bool.false_eq_true, if_false] at h
  cases haccepted : old.accepted with
  | none =>
    have hempty : old.received = [] := hbehind.before haccepted
    simp only [haccepted] at h
    obtain rfl := Option.some.inj h
    unfold Consume.awaitReady
    rcases acceptance_rust old.messageType e.message with hignore | ⟨id, haccept, hready, hid⟩
    · rw [hignore]
      refine ⟨⟨[], by simp, by simp⟩, fun _ => ⟨rfl, fun _ => hempty, fun key hkey => ?_⟩,
        fun n hn => ?_⟩
      · have hsome : old.accepted = some key := hkey
        rw [haccepted] at hsome
        cases hsome
      · rw [hrun] at hn
        cases hn
    · rw [haccept]
      change Fed old.messageType u q old (Consume.requestNext
        { old with accepted := some (some (.string id)) } (some (.string id)) publishes)
      apply fed_requestNext
      · rfl
      · exact hrun
      refine ⟨rfl, fun hnone => (by cases hnone), fun key hkey => ?_⟩
      obtain rfl : some (.string id) = key := Option.some.inj hkey
      have hfollows := ht.follows_ready hread hready hid
      have hnil : (⟨q, { old with accepted := some (some (.string id)) }⟩ :
          ConsumeRun).consume.received = [] := hempty
      rw [hnil]
      exact hfollows
  | some key =>
    have hfollows : t.Follows old.messageType q key old.received := hbehind.after key haccepted
    have hnever : ¬ old.accepted = none := by
      rw [haccepted]
      exact Option.some_ne_none key
    have hkeyed : ∀ key', old.accepted = some key' → key' = key :=
      fun key' hkey => Option.some.inj (hkey.symm.trans haccepted)
    simp only [haccepted] at h
    obtain rfl := Option.some.inj h
    unfold Consume.awaitItem
    by_cases hend : isEnd alike .rust key e.message = true
    · obtain ⟨i, r, hr, hkey, hm, houtcome, hall, hsent⟩ := ht.follows_end hread hfollows hend
      have hsound := ht.read hread
      rw [if_pos hend]
      refine ⟨⟨[], by simp, by simp⟩, fun hnone => (by cases hnone), fun n hn => ?_⟩
      obtain rfl : old.received.length = n := by simpa using hn
      refine ⟨i, r, hr, ?_, fun k r' hk heq => ?_, houtcome, rfl, hall, hsent, ?_⟩
      · exact haccepted.trans (congrArg some hkey)
      · exact hsound.distinct_of hr k (heq ▸ Traffic.idOf_of_offers hk)
      · simp [hm]
    · have hnext := ht.follows_item hread hfollows (Bool.not_eq_true _ ▸ hend)
      rw [if_neg hend]
      split_ifs with hitem
      · rw [if_pos hitem] at hnext
        apply fed_requestNext
        · rfl
        · exact hrun
        refine ⟨rfl, fun hnone => absurd hnone hnever, fun key' hkey => ?_⟩
        rw [hkeyed key' hkey]
        exact hnext
      · rw [if_neg hitem] at hnext
        refine ⟨⟨[], by simp, by simp⟩,
          fun _ => ⟨rfl, fun hnone => absurd hnone hnever, fun key' hkey => ?_⟩, fun n hn => ?_⟩
        · rw [hkeyed key' hkey]
          exact hnext
        · have hnone : old.outcome = some (.ok n) := hn
          rw [hrun] at hnone
          cases hnone

theorem fed_wake {q : ℕ} {old c : Consume} {input : StreamInput}
    (hwake : ∀ m publishes, input ≠ .message m publishes)
    (h : old.step alike .rust input = some c) : Fed messageType u q old c := by
  simp only [Consume.step] at h
  split_ifs at h
  cases input with
  | message m publishes => exact absurd rfl (hwake m publishes)
  | closed =>
    cases haccepted : old.accepted with
    | none =>
      simp only [haccepted] at h
      obtain rfl := Option.some.inj h
      exact fed_fails messageType u q rfl rfl
    | some key =>
      simp only [haccepted] at h
      obtain rfl := Option.some.inj h
      exact fed_fails messageType u q rfl rfl
  | timeout =>
    obtain rfl := Option.some.inj h
    exact fed_fails messageType u q rfl rfl
  | cancelled =>
    obtain rfl := Option.some.inj h
    exact fed_fails messageType u q rfl rfl

theorem Ledger.feed_fed {q j : ℕ} {r : ConsumeRun} {c : Consume}
    (hs : s.Ledger messageType (some q)) (hcall : s.calls[q]? = some (some (.consuming j)))
    (hr : s.consumes[j]? = some r) (hfed : Fed messageType s.traffic q r.consume c) :
    (({ s with
        traffic := s.traffic.post q ((c.sent.drop r.consume.sent.length).map fun m => ⟨m, .pull⟩)
        consumes := s.consumes.modify j fun r => { r with consume := c } } : PullNetwork).endCall q
          c.outcome).Ledger messageType none := by
  obtain ⟨ms, hsent, hms⟩ := hfed.sent
  have hdrop : c.sent.drop r.consume.sent.length = ms := by rw [hsent, List.drop_left]
  have hparty : r.party = q := by
    obtain ⟨r', hr', hparty⟩ := hs.consuming q j hcall
    obtain rfl : r' = r := Option.some.inj (hr'.symm.trans hr)
    exact hparty
  refine hs.feed_consume hcall hr (hdrop ▸ hms) (fun hrun => ?_) hfed.returned
  rw [hparty]
  exact hfed.running hrun

theorem Ledger.subscribe (hs : s.Ledger messageType none) :
    ({ s with traffic := s.traffic.join, calls := s.calls ++ [none] } : PullNetwork).Ledger
      messageType none where
  sound := hs.sound.join
  sizes := by simp [Traffic.join, hs.sizes]
  consuming := by
    intro q j hq
    rcases getElem?_snoc_cases hq with hq | ⟨_, hnone⟩
    · exact hs.consuming q j hq
    · cases hnone
  running := by
    intro j r hr hrun
    obtain ⟨hcall, hbehind⟩ := hs.running j r hr hrun
    refine ⟨(List.getElem?_append_left (lt_of_call hcall)).trans hcall, fun hbusy => ?_⟩
    obtain ⟨htyped, hbefore, hafter⟩ := hbehind hbusy
    exact ⟨htyped, hbefore, fun key hkey => (hafter key hkey).join⟩
  complete := fun j r n hr hn => (hs.complete j r n hr hn).mono hs.sound.join fun _ _ h _ => h

theorem Ledger.offer (hs : s.Ledger messageType none) {p : ℕ} {streamId : String}
    {items : ℕ → Option Value} (hidle : s.calls[p]? = some none)
    (hfresh : ∀ m ∈ s.traffic.published, m.names streamId = false) :
    ({ s with
        traffic := s.traffic.announce p (.announce streamId messageType items none true)
        calls := s.calls.set p (some (.offering s.traffic.offers.length)) } :
      PullNetwork).Ledger messageType none := by
  have hsound := hs.sound.announce p items hfresh
  have hmoved : ({ s with
      traffic := s.traffic.announce p (.announce streamId messageType items none true) } :
        PullNetwork).Ledger messageType none := by
    refine hs.moves hsound rfl (fun i r hr _ => ?_) fun q key received _ _ hfollows =>
      hfollows.announce p items hfresh
    exact (List.getElem?_append_left (List.getElem?_eq_some_iff.mp hr).1).trans hr
  refine ⟨hmoved.sound, by simpa using hmoved.sizes, fun q j hq => ?_, fun j r hr hrun => ?_,
    hmoved.complete⟩
  · by_cases hpq : p = q
    · subst hpq
      rw [List.getElem?_set_self (lt_of_call hidle)] at hq
      cases hq
    · rw [List.getElem?_set_ne hpq] at hq
      exact hs.consuming q j hq
  · obtain ⟨hcall, hbehind⟩ := hmoved.running j r hr hrun
    have hne : p ≠ r.party := by
      intro heq
      rw [← heq] at hcall
      have hboth := hidle.symm.trans hcall
      cases hboth
    exact ⟨(List.getElem?_set_ne hne).trans hcall, hbehind⟩

theorem Ledger.consume (hs : s.Ledger messageType none) {p : ℕ} (hidle : s.calls[p]? = some none) :
    ({ s with
        calls := s.calls.set p (some (.consuming s.consumes.length))
        consumes := s.consumes ++ [⟨p, .begin messageType⟩] } : PullNetwork).Ledger
      messageType none := by
  have hself : (s.calls.set p (some (.consuming s.consumes.length)))[p]? =
      some (some (.consuming s.consumes.length)) := List.getElem?_set_self (lt_of_call hidle)
  refine ⟨hs.sound, by simpa using hs.sizes, fun q j hq => ?_, fun j r hr hrun => ?_,
    fun j r n hr hn => ?_⟩
  · by_cases hpq : p = q
    · subst hpq
      obtain rfl : s.consumes.length = j := by simpa using hself.symm.trans hq
      exact ⟨⟨p, .begin messageType⟩, by simp, rfl⟩
    · rw [List.getElem?_set_ne hpq] at hq
      obtain ⟨r, hr, hparty⟩ := hs.consuming q j hq
      exact ⟨r, (List.getElem?_append_left (List.getElem?_eq_some_iff.mp hr).1).trans hr, hparty⟩
  · rcases getElem?_snoc_cases hr with hr | ⟨rfl, rfl⟩
    · obtain ⟨hcall, hbehind⟩ := hs.running j r hr hrun
      have hne : p ≠ r.party := by
        intro heq
        rw [← heq] at hcall
        have hboth := hidle.symm.trans hcall
        cases hboth
      exact ⟨(List.getElem?_set_ne hne).trans hcall, hbehind⟩
    · exact ⟨hself, fun _ => ⟨rfl, fun _ => rfl, fun key hkey => by cases hkey⟩⟩
  · rcases getElem?_snoc_cases hr with hr | ⟨_, rfl⟩
    · exact hs.complete j r n hr hn
    · cases hn

theorem Ledger.turn (hs : s.Ledger messageType none) {q : ℕ} {publishes : Bool} {next : PullNetwork}
    (hguard : s.Unmistakable messageType (.turn q publishes))
    (h : s.step alike messageType (.turn q publishes) = some next) :
    next.Ledger messageType none := by
  obtain ⟨⟨e, u⟩, hread, hfeed⟩ := Option.bind_eq_some_iff.mp h
  obtain ⟨hinbox, _, _, hoffers, _, _⟩ := Traffic.read_cases hread
  have hbusy := hs.reads hread
  simp only [feed] at hfeed
  split at hfeed
  · rename_i i hcall
    obtain ⟨r, hr, hstep⟩ := Option.bind_eq_some_iff.mp hfeed
    obtain ⟨o, ho, rfl⟩ := Option.map_eq_some_iff.mp hstep
    have hfree := hbusy.free fun j hj => by
      have hboth := hcall.symm.trans hj
      cases hboth
    refine hfree.feed_offer hcall hr ho fun pulled publishes' v hinput hpull hitem hspecial => ?_
    obtain ⟨rfl, rfl⟩ : e.message = pulled ∧ publishes = publishes' := by simpa using hinput
    have hoffer : s.traffic.offers[i]? = some r := hoffers ▸ hr
    have hnext : v ∈ s.nextItem q := by
      simp [nextItem, hcall, hinbox, hoffer, hpull, hitem]
    intro k id hk
    obtain ⟨other, hother, rfl⟩ := Option.map_eq_some_iff.mp hk
    have hold : s.traffic.offers[k]? = some other := hoffers ▸ hother
    exact hguard hspecial v hnext other (List.mem_iff_getElem?.mpr ⟨k, hold⟩)
  · rename_i j hcall
    obtain ⟨r, hr, hstep⟩ := Option.bind_eq_some_iff.mp hfeed
    obtain ⟨c, hc, rfl⟩ := Option.map_eq_some_iff.mp hstep
    have hrun : r.consume.outcome = none := by
      simp only [Consume.step] at hc
      split_ifs at hc with hdone
      simpa using hdone
    have hparty : r.party = q := by
      obtain ⟨r', hr', hparty⟩ := hs.consuming q j hcall
      obtain rfl : r' = r := Option.some.inj (hr'.symm.trans hr)
      exact hparty
    have hbehind : Behind messageType s.traffic ⟨q, r.consume⟩ :=
      hparty ▸ (hs.running j r hr hrun).2 (by simp)
    exact hbusy.feed_fed hcall hr (fed_message hs.sound hread hbehind hrun hc)
  · rename_i hcall
    obtain rfl := Option.some.inj hfeed
    exact hbusy.free fun j hj => by
      have hboth := hcall.symm.trans hj
      cases hboth
  · cases hfeed

theorem Ledger.wake (hs : s.Ledger messageType none) {q : ℕ} {input : StreamInput}
    {next : PullNetwork} (h : s.step alike messageType (.wake q input) = some next) :
    next.Ledger messageType none := by
  have hboth : (∀ m publishes, input ≠ .message m publishes) ∧
      s.feed alike q input = some next := by
    cases input with
    | message m publishes => cases h
    | closed => exact ⟨fun _ _ heq => (by cases heq), h⟩
    | timeout => exact ⟨fun _ _ heq => (by cases heq), h⟩
    | cancelled => exact ⟨fun _ _ heq => (by cases heq), h⟩
  obtain ⟨hwake, hfeed⟩ := hboth
  simp only [feed] at hfeed
  split at hfeed
  · rename_i i hcall
    obtain ⟨r, hr, hstep⟩ := Option.bind_eq_some_iff.mp hfeed
    obtain ⟨o, ho, rfl⟩ := Option.map_eq_some_iff.mp hstep
    exact hs.feed_offer hcall hr ho fun pulled publishes _ hinput =>
      absurd hinput (hwake pulled publishes)
  · rename_i j hcall
    obtain ⟨r, hr, hstep⟩ := Option.bind_eq_some_iff.mp hfeed
    obtain ⟨c, hc, rfl⟩ := Option.map_eq_some_iff.mp hstep
    exact (hs.busy q).feed_fed hcall hr (fed_wake hwake hc)
  · obtain rfl := Option.some.inj hfeed
    exact hs
  · cases hfeed

theorem Ledger.step (hs : s.Ledger messageType none) {a : PullAction} {next : PullNetwork}
    (hguard : s.Unmistakable messageType a) (h : s.step alike messageType a = some next) :
    next.Ledger messageType none := by
  cases a with
  | subscribe =>
    obtain rfl := Option.some.inj h
    exact hs.subscribe
  | offer p streamId items =>
    simp only [PullNetwork.step] at h
    split_ifs at h with hmay
    obtain rfl := Option.some.inj h
    exact hs.offer hmay.1 hmay.2
  | consume p =>
    simp only [PullNetwork.step] at h
    split_ifs at h with hidle
    obtain rfl := Option.some.inj h
    exact hs.consume hidle
  | deliver p q =>
    obtain ⟨u, hu, rfl⟩ := Option.map_eq_some_iff.mp h
    obtain ⟨_, _, _, _, _, hoffers, _, hlen⟩ := Traffic.deliver_cases hs.sound hu
    exact hs.moves (hs.sound.deliver hu) hlen (fun i r hr _ => by rw [hoffers]; exact hr)
      fun q key received _ _ hfollows => Traffic.Follows.deliver hs.sound hfollows hu
  | turn q publishes => exact hs.turn hguard h
  | wake q input => exact hs.wake h

/-- Whatever offers and consumers of one type run at once, in every interleaving:
a consumer that returns has received the items of the one offer it accepted, all
of them, once and in order, and then its end; and the offer returned their number.
The items of a stream of type `stream.ready` or `stream.end` must not name the
streams of others. -/
theorem run_streams_exact {as : List PullAction}
    (hguard : Obeys (step alike messageType) (Unmistakable messageType) start as)
    (hrun : run (step alike messageType) start as = some s) :
    ∀ (j : ℕ) (r : ConsumeRun) (n : ℕ), s.consumes[j]? = some r →
      r.consume.outcome = some (.ok n) → Received s.traffic messageType r.consume n := by
  have hs : s.Ledger messageType none :=
    run_invariant_of_obeys (fun _ _ _ hs hg h => hs.step hg h) ledger_start hguard hrun
  exact hs.complete

/-- One offer of one item, and two consumers of it. -/
def twoConsumers : List PullAction :=
  [.subscribe, .subscribe, .subscribe, .consume 1, .consume 2,
    .offer 0 "a" (fun n => [Value.null][n]?), .deliver 0 1, .turn 1 true, .deliver 0 2,
    .turn 2 true, .deliver 1 0, .deliver 2 0, .turn 0 true, .turn 0 true, .deliver 0 1,
    .deliver 0 1, .deliver 0 2, .turn 1 true, .turn 1 true, .turn 2 true]

/-- The stream that consumer number `j` accepted and its count, and which offers
have returned. -/
def standing (s : PullNetwork) (j : ℕ) : Option (Option String × ℕ × List Bool) :=
  s.consumes[j]?.bind fun r => (r.consume.outcome.bind Except.toOption).map fun n =>
    ((r.consume.accepted.bind fun key => key).bind Value.asStr, n,
      s.traffic.offers.map fun o => o.offer.outcome.isSome)

theorem standing_eq_some {j n : ℕ} {streamId : Option String} {offers : List Bool}
    (h : s.standing j = some (streamId, n, offers)) :
    ∃ r, s.consumes[j]? = some r ∧ r.consume.outcome = some (.ok n) ∧
      (r.consume.accepted.bind fun key => key).bind Value.asStr = streamId ∧
      (s.traffic.offers.map fun o => o.offer.outcome.isSome) = offers := by
  obtain ⟨r, hr, h⟩ := Option.bind_eq_some_iff.mp h
  obtain ⟨k, hk, heq⟩ := Option.map_eq_some_iff.mp h
  obtain ⟨outcome, houtcome, hok⟩ := Option.bind_eq_some_iff.mp hk
  obtain ⟨hid, rfl, hoffers⟩ := by simpa only [Prod.mk.injEq] using heq
  refine ⟨r, hr, ?_, hid, hoffers⟩
  cases outcome with
  | error fault => cases hok
  | ok m =>
    obtain rfl : m = k := Option.some.inj hok
    exact houtcome

theorem run_streams_exact_two :
    ∃ s r, run (step (fun _ _ => false) "work.item") start twoConsumers = some s ∧
      s.consumes[0]? = some r ∧ r.consume.outcome = some (.ok 1) ∧
      Received s.traffic "work.item" r.consume 1 := by
  have hguard : Obeys (step (fun _ _ => false) "work.item") (Unmistakable "work.item") start
      twoConsumers := by decide +kernel
  have hend : (run (step (fun _ _ => false) "work.item") start twoConsumers).bind
      (standing · 0) = some (some "a", 1, [true]) := by decide +kernel
  obtain ⟨s, hrun, hstanding⟩ := Option.bind_eq_some_iff.mp hend
  obtain ⟨r, hr, houtcome, _⟩ := standing_eq_some hstanding
  exact ⟨s, r, hrun, hr, houtcome, run_streams_exact hguard hrun 0 r 1 hr houtcome⟩

/-- A consumer has accepted stream `a` when an item of stream `b`, of type
`stream.end`, is published with the id of `a` in it. -/
def forgedEnd : List PullAction :=
  [.subscribe, .subscribe, .subscribe, .subscribe, .consume 1, .consume 3,
    .offer 0 "a" (fun n => [Value.null][n]?), .deliver 0 1, .turn 1 true,
    .offer 2 "b" (fun n => [Value.object [("stream_id", .string "a")]][n]?), .deliver 2 3,
    .turn 3 true, .deliver 3 2, .turn 2 true, .deliver 2 1, .deliver 2 1, .turn 1 true,
    .turn 1 true]

/-- It returns with no item of stream `a`, whose offer has one and is still waiting
for a pull. -/
theorem forged_end_accepted :
    ∃ s r, run (step (fun _ _ => false) "stream.end") start forgedEnd = some s ∧
      s.consumes[0]? = some r ∧ r.consume.outcome = some (.ok 0) ∧
      (r.consume.accepted.bind fun key => key).bind Value.asStr = some "a" ∧
      (s.traffic.offers.map fun o => o.offer.outcome.isSome) = [false, false] ∧
      ¬ Received s.traffic "stream.end" r.consume 0 := by
  have hend : (run (step (fun _ _ => false) "stream.end") start forgedEnd).bind (standing · 0) =
      some (some "a", 0, [false, false]) := by decide +kernel
  obtain ⟨s, hrun, hstanding⟩ := Option.bind_eq_some_iff.mp hend
  obtain ⟨r, hr, houtcome, hid, hoffers⟩ := standing_eq_some hstanding
  refine ⟨s, r, hrun, hr, houtcome, hid, hoffers, ?_⟩
  rintro ⟨i, o, ho, _, _, hreturned, _⟩
  have hmem : true ∈ s.traffic.offers.map fun o => o.offer.outcome.isSome :=
    List.mem_map.mpr ⟨o, List.mem_iff_getElem?.mpr ⟨i, ho⟩, by rw [hreturned]; rfl⟩
  rw [hoffers] at hmem
  exact absurd hmem (by decide)

end PullNetwork

end Emergent.Sdk

import Emergent.Kit.Modify
import Emergent.Sdk.PullStream

/-!
# The messages of many pull streams under way

A broker that loses nothing and keeps the order of each publisher, and the offers
that handlers make over it. Every handler is subscribed to all topics of the
protocol, so what is published reaches all of them, also what belongs to the
streams of others. What a handler has still to read of an offer is always the last
part of what the offer has sent.

Envelopes carry a log of the call that published them; no handler reads it.
-/

namespace Emergent.Sdk
open Kit

/-- The call a message came from, by the number of the offer. -/
inductive Origin where
  | ready (offer : ℕ)
  | item (offer : ℕ)
  | finish (offer : ℕ)
  | pull
  deriving Repr, DecidableEq

def Origin.offer? : Origin → Option ℕ
  | .ready i | .item i | .finish i => some i
  | .pull => none

structure Envelope where
  message : StreamMessage
  origin : Origin

structure OfferRun where
  party : ℕ
  offer : Offer

/-- `wires p q` is on its way from handler `p` to handler `q`. -/
structure Traffic where
  inboxes : List (List Envelope)
  wires : ℕ → ℕ → List Envelope
  offers : List OfferRun
  published : List StreamMessage

def streamIdOf (v : Value) : Option String := (v.get "stream_id").bind Value.asStr

def StreamMessage.names (m : StreamMessage) (id : String) : Bool :=
  streamIdOf m.payload = some id || m.metadata.bind streamIdOf = some id

namespace Traffic

def inbox (t : Traffic) (q : ℕ) : List Envelope := t.inboxes[q]?.getD []

def join (t : Traffic) : Traffic := { t with inboxes := t.inboxes ++ [[]] }

def post (t : Traffic) (p : ℕ) (es : List Envelope) : Traffic :=
  { t with
    wires := fun a b => if a = p ∧ b < t.inboxes.length then t.wires a b ++ es else t.wires a b
    published := t.published ++ es.map Envelope.message }

def deliver (t : Traffic) (p q : ℕ) : Option Traffic :=
  match t.wires p q with
  | [] => none
  | e :: rest => some { t with
      inboxes := t.inboxes.modify q (· ++ [e])
      wires := fun a b => if a = p ∧ b = q then rest else t.wires a b }

/-- `MessageStream::next` with a message in the inbox. -/
def read (t : Traffic) (q : ℕ) : Option (Envelope × Traffic) :=
  match t.inbox q with
  | [] => none
  | e :: _ => some (e, { t with inboxes := t.inboxes.modify q List.tail })

def announce (t : Traffic) (p : ℕ) (offer : Offer) : Traffic :=
  ({ t with offers := t.offers ++ [⟨p, offer⟩] } : Traffic).post p
    (offer.sent.map fun m => ⟨m, .ready t.offers.length⟩)

/-- Offer number `i` has become `offer`; what it sent meanwhile is posted. -/
def advance (t : Traffic) (i : ℕ) (old : OfferRun) (offer : Offer) : Traffic :=
  ({ t with offers := t.offers.modify i fun r => { r with offer := offer } } : Traffic).post
    old.party ((offer.sent.drop old.offer.sent.length).map fun m =>
      ⟨m, if offer.outcome.isSome then .finish i else .item i⟩)

end Traffic

/-! ### Which messages a handler can mistake -/

/-- What an envelope of each origin has in it. An item of a stream with one of the
protocol's own types names no offer. -/
def Genuine (messageType : String) (ids : ℕ → Option String) (e : Envelope) : Prop :=
  match e.origin with
  | .ready i => ∃ id, ids i = some id ∧ e.message = .ready id messageType none
  | .item i => ∃ id v, ids i = some id ∧ e.message = .item id messageType v ∧
      (messageType = "stream.ready" ∨ messageType = "stream.end" →
        ∀ k id', ids k = some id' → streamIdOf v ≠ some id')
  | .finish i => ∃ id, ids i = some id ∧ e.message = .finish id
  | .pull => ∃ key, e.message = .pull key

namespace Traffic

variable {messageType : String} {t u : Traffic}

def idOf (t : Traffic) (i : ℕ) : Option String := t.offers[i]?.map fun r => r.offer.streamId

def Carries (t : Traffic) (q : ℕ) (e : Envelope) : Prop :=
  e ∈ t.inbox q ∨ ∃ p, e ∈ t.wires p q

/-- What handler `q` has still to read of offer number `i`, which `p` makes. -/
def view (t : Traffic) (p q i : ℕ) : List StreamMessage :=
  ((t.inbox q ++ t.wires p q).filter fun e => e.origin.offer? = some i).map Envelope.message

structure Sound (messageType : String) (t : Traffic) : Prop where
  genuine : ∀ q e, t.Carries q e → Genuine messageType t.idOf e
  logged : ∀ q e, t.Carries q e → e.message ∈ t.published
  origin : ∀ p q e (i : ℕ) (r : OfferRun), e ∈ t.wires p q → e.origin.offer? = some i →
    t.offers[i]? = some r → r.party = p
  distinct : ∀ i k id, t.idOf i = some id → t.idOf k = some id → i = k
  announced : ∀ i id, t.idOf i = some id → .ready id messageType none ∈ t.published
  going : ∀ (i : ℕ) (r : OfferRun), t.offers[i]? = some r →
    r.offer.Going ∧ r.offer.messageType = messageType ∧
    r.offer.count = none ∧ r.offer.sent ≠ []
  beyond : ∀ p q, t.inboxes.length ≤ q → t.wires p q = []
  view : ∀ (i : ℕ) (r : OfferRun) q, t.offers[i]? = some r →
    t.view r.party q i <:+ r.offer.sent

theorem inbox_join (t : Traffic) (q : ℕ) : t.join.inbox q = t.inbox q := by
  unfold inbox join
  rcases lt_trichotomy q t.inboxes.length with hlt | rfl | hgt
  · rw [List.getElem?_append_left hlt]
  · simp
  · rw [List.getElem?_eq_none (by simp; omega), List.getElem?_eq_none (by omega)]

theorem inbox_of_modify {q : ℕ} {f : List Envelope → List Envelope} (hq : q < t.inboxes.length)
    (b : ℕ) : ({ t with inboxes := t.inboxes.modify q f } : Traffic).inbox b =
      if q = b then f (t.inbox b) else t.inbox b := by
  unfold inbox
  by_cases hqb : q = b
  · subst hqb
    simp [List.getElem?_eq_getElem hq]
  · rw [getElem?_modify_of_ne hqb, if_neg hqb]

theorem lt_of_inbox {q : ℕ} {e : Envelope} {rest : List Envelope} (h : t.inbox q = e :: rest) :
    q < t.inboxes.length := by
  by_contra hge
  rw [inbox, List.getElem?_eq_none (by omega)] at h
  cases h

/-- Reading takes the first message of one inbox and changes nothing else. -/
theorem read_cases {q : ℕ} {e : Envelope} (h : t.read q = some (e, u)) :
    t.inbox q = e :: u.inbox q ∧ (∀ b, q ≠ b → u.inbox b = t.inbox b) ∧ u.wires = t.wires ∧
      u.offers = t.offers ∧ u.published = t.published ∧ u.inboxes.length = t.inboxes.length := by
  unfold read at h
  split at h
  · cases h
  · rename_i e' rest hinbox
    obtain ⟨rfl, rfl⟩ : e' = e ∧ { t with inboxes := t.inboxes.modify q List.tail } = u := by
      simpa using h
    have hq := lt_of_inbox hinbox
    refine ⟨?_, fun b hb => ?_, rfl, rfl, rfl, by simp⟩
    · rw [inbox_of_modify hq, if_pos rfl, hinbox]
      rfl
    · rw [inbox_of_modify hq, if_neg hb]

theorem deliver_cases (ht : t.Sound messageType) {p q : ℕ} (h : t.deliver p q = some u) :
    ∃ e, t.wires p q = e :: u.wires p q ∧ u.inbox q = t.inbox q ++ [e] ∧
      (∀ b, q ≠ b → u.inbox b = t.inbox b) ∧
      (∀ a b, ¬ (a = p ∧ b = q) → u.wires a b = t.wires a b) ∧
      u.offers = t.offers ∧ u.published = t.published ∧ u.inboxes.length = t.inboxes.length := by
  unfold deliver at h
  split at h
  · cases h
  · rename_i e rest hwire
    obtain rfl := Option.some.inj h
    have hq : q < t.inboxes.length := by
      by_contra hge
      rw [ht.beyond p q (by omega)] at hwire
      cases hwire
    have hinbox := fun b => inbox_of_modify (t := t) (f := (· ++ [e])) hq b
    refine ⟨e, ?_, ?_, fun b hb => ?_, fun a b hab => if_neg hab, rfl, rfl, by simp⟩
    · simp only [hwire, and_self, if_true]
    · exact (hinbox q).trans (if_pos rfl)
    · exact (hinbox b).trans (if_neg hb)

theorem view_congr {p q i : ℕ} (hinbox : u.inbox q = t.inbox q)
    (hwire : u.wires p q = t.wires p q) :
    u.view p q i = t.view p q i := by
  simp only [view, hinbox, hwire]

theorem view_deliver (ht : t.Sound messageType) {p q : ℕ} (h : t.deliver p q = some u) {i b : ℕ}
    {r : OfferRun} (hr : t.offers[i]? = some r) : u.view r.party b i = t.view r.party b i := by
  obtain ⟨e, hwire, hinbox, hother, hwires, _⟩ := deliver_cases ht h
  by_cases hb : q = b
  · subst hb
    by_cases hparty : r.party = p
    · simp only [view, hparty, hwire, hinbox, List.append_assoc, List.singleton_append]
    · have hforeign : e.origin.offer? ≠ some i := by
        intro horigin
        have hmem : e ∈ t.wires p q := hwire ▸ List.mem_cons_self
        exact hparty (ht.origin p q e i r hmem horigin hr)
      have hsame := hwires r.party q fun hab => hparty hab.1
      simp only [view, hinbox, hsame, List.filter_append, List.filter_cons, List.filter_nil,
        decide_eq_true_eq, if_neg hforeign, List.append_nil]
  · exact view_congr (hother b hb) (hwires r.party b fun hab => hb hab.2.symm)

/-- Nothing new is under way. -/
theorem Sound.mono (ht : t.Sound messageType) (hoffers : u.offers = t.offers)
    (hpublished : u.published = t.published) (hcarries : ∀ q e, u.Carries q e → t.Carries q e)
    (hwires : ∀ p q e, e ∈ u.wires p q → e ∈ t.wires p q)
    (hbeyond : ∀ p q, u.inboxes.length ≤ q → u.wires p q = [])
    (hview : ∀ (i : ℕ) (r : OfferRun) q, t.offers[i]? = some r →
      u.view r.party q i <:+ t.view r.party q i) : u.Sound messageType := by
  have hids : u.idOf = t.idOf := by
    funext i
    simp only [idOf, hoffers]
  constructor
  · rw [hids]
    exact fun q e he => ht.genuine q e (hcarries q e he)
  · rw [hpublished]
    exact fun q e he => ht.logged q e (hcarries q e he)
  · rw [hoffers]
    exact fun p q e i r he => ht.origin p q e i r (hwires p q e he)
  · rw [hids]
    exact ht.distinct
  · rw [hids, hpublished]
    exact ht.announced
  · rw [hoffers]
    exact ht.going
  · exact hbeyond
  · rw [hoffers]
    exact fun i r q hr => (hview i r q hr).trans (ht.view i r q hr)

theorem Sound.join (ht : t.Sound messageType) : t.join.Sound messageType := by
  refine ht.mono rfl rfl (fun q e he => ?_) (fun _ _ _ he => he) (fun p q hq => ?_)
    (fun i r q _ => ?_)
  · rw [Carries, inbox_join] at he
    exact he
  · have hlen : t.join.inboxes.length = t.inboxes.length + 1 := by simp [Traffic.join]
    exact ht.beyond p q (by omega)
  · rw [view_congr (inbox_join t q) rfl]

theorem Sound.deliver (ht : t.Sound messageType) {p q : ℕ} (h : t.deliver p q = some u) :
    u.Sound messageType := by
  obtain ⟨e, hwire, hinbox, hother, hwires, hoffers, hpublished, hlen⟩ := deliver_cases ht h
  have hkept : ∀ a b e', e' ∈ u.wires a b → e' ∈ t.wires a b := by
    intro a b e' he'
    by_cases hab : a = p ∧ b = q
    · obtain ⟨rfl, rfl⟩ := hab
      rw [hwire]
      exact List.mem_cons_of_mem _ he'
    · rwa [hwires a b hab] at he'
  refine ht.mono hoffers hpublished ?_ hkept ?_ fun i r b hr => ?_
  · rintro b e' (he' | ⟨a, he'⟩)
    · by_cases hb : q = b
      · subst hb
        rw [hinbox] at he'
        rcases List.mem_append.mp he' with he' | he'
        · exact Or.inl he'
        · rw [List.mem_singleton.mp he']
          exact Or.inr ⟨p, hwire ▸ List.mem_cons_self⟩
      · exact Or.inl (hother b hb ▸ he')
    · exact Or.inr ⟨a, hkept a b e' he'⟩
  · intro a b hb
    have hnil := ht.beyond a b (by omega)
    have hempty : ∀ e', e' ∉ u.wires a b := by
      intro e' he'
      have hmem := hkept a b e' he'
      rw [hnil] at hmem
      cases hmem
    exact List.eq_nil_iff_forall_not_mem.mpr hempty
  · rw [view_deliver ht h hr]

theorem view_read {q : ℕ} {e : Envelope} (h : t.read q = some (e, u)) (p i : ℕ) :
    t.view p q i =
      if e.origin.offer? = some i then e.message :: u.view p q i else u.view p q i := by
  obtain ⟨hinbox, _, hwires, _⟩ := read_cases h
  simp only [view, hinbox, hwires, List.cons_append, List.filter_cons, decide_eq_true_eq]
  split_ifs <;> rfl

theorem Sound.read (ht : t.Sound messageType) {q : ℕ} {e : Envelope}
    (h : t.read q = some (e, u)) : u.Sound messageType := by
  obtain ⟨hinbox, hother, hwires, hoffers, hpublished, hlen⟩ := read_cases h
  refine ht.mono hoffers hpublished ?_ (fun p b e' he' => hwires ▸ he') ?_ fun i r b hr => ?_
  · rintro b e' (he' | ⟨a, he'⟩)
    · by_cases hb : q = b
      · subst hb
        exact Or.inl (hinbox ▸ List.mem_cons_of_mem _ he')
      · exact Or.inl (hother b hb ▸ he')
    · exact Or.inr ⟨a, hwires ▸ he'⟩
  · intro a b hb
    rw [hwires]
    exact ht.beyond a b (by omega)
  · by_cases hb : q = b
    · subst hb
      rw [view_read h]
      split_ifs
      · exact List.suffix_cons _ _
      · exact List.suffix_refl _
    · rw [view_congr (hother b hb) (by rw [hwires])]

/-! What posting adds to the views. -/

theorem view_post {p a q i : ℕ} {es : List Envelope} (hq : q < t.inboxes.length) :
    (t.post p es).view a q i = t.view a q i ++
      if a = p then (es.filter fun e => e.origin.offer? = some i).map Envelope.message else [] := by
  have hinbox : (t.post p es).inbox q = t.inbox q := rfl
  by_cases ha : a = p
  · have hwire : (t.post p es).wires a q = t.wires a q ++ es := if_pos ⟨ha, hq⟩
    simp only [view, hinbox, hwire, if_pos ha, ← List.append_assoc, List.filter_append,
      List.map_append]
  · have hwire : (t.post p es).wires a q = t.wires a q := if_neg fun h => ha h.1
    simp only [view, hinbox, hwire, if_neg ha, List.append_nil]

theorem view_post_other {p a q i : ℕ} {es : List Envelope}
    (hother : ∀ e ∈ es, e.origin.offer? ≠ some i) : (t.post p es).view a q i = t.view a q i := by
  have hnone : es.filter (fun e => e.origin.offer? = some i) = [] := by
    rw [List.filter_eq_nil_iff]
    exact fun e he horigin => hother e he (of_decide_eq_true horigin)
  have hinbox : (t.post p es).inbox q = t.inbox q := rfl
  have hwire : ((t.post p es).wires a q).filter (fun e => e.origin.offer? = some i) =
      (t.wires a q).filter fun e => e.origin.offer? = some i := by
    simp only [post]
    split_ifs
    · rw [List.filter_append, hnone, List.append_nil]
    · rfl
  simp only [view, hinbox, List.filter_append, hwire]

theorem Sound.view_beyond (ht : t.Sound messageType) {p a q i : ℕ} (es : List Envelope)
    (hq : t.inboxes.length ≤ q) : (t.post p es).view a q i = [] := by
  have hinbox : (t.post p es).inbox q = [] := by
    change t.inboxes[q]?.getD [] = []
    rw [List.getElem?_eq_none hq]
    rfl
  have hwire : (t.post p es).wires a q = [] :=
    (if_neg fun h => absurd h.2 (by omega)).trans (ht.beyond a q hq)
  simp only [Traffic.view, hinbox, hwire, List.append_nil, List.filter_nil, List.map_nil]

theorem carries_post {p q : ℕ} {e : Envelope} {es : List Envelope}
    (h : (t.post p es).Carries q e) : t.Carries q e ∨ e ∈ es := by
  rcases h with he | ⟨a, he⟩
  · exact Or.inl (Or.inl he)
  · simp only [post] at he
    split_ifs at he
    · rcases List.mem_append.mp he with he | he
      · exact Or.inl (Or.inr ⟨a, he⟩)
      · exact Or.inr he
    · exact Or.inl (Or.inr ⟨a, he⟩)

/-- Posting for the offers as they are afterwards. -/
theorem Sound.posts (ht : t.Sound messageType) (offers : List OfferRun)
    (ids : ℕ → Option String) {p : ℕ} {es : List Envelope}
    (hids : ∀ i, (offers[i]?.map fun r => r.offer.streamId) = ids i)
    (hgenuine : ∀ q e, t.Carries q e ∨ e ∈ es → Genuine messageType ids e)
    (hmine : ∀ e ∈ es, ∀ (i : ℕ) (r : OfferRun), e.origin.offer? = some i → offers[i]? = some r →
      r.party = p)
    (hold : ∀ a q e (i : ℕ) (r : OfferRun), e ∈ t.wires a q → e.origin.offer? = some i →
      offers[i]? = some r → r.party = a)
    (hdistinct : ∀ i k id, ids i = some id → ids k = some id → i = k)
    (hannounced : ∀ i id, ids i = some id →
      .ready id messageType none ∈ t.published ++ es.map Envelope.message)
    (hgoing : ∀ (i : ℕ) (r : OfferRun), offers[i]? = some r → r.offer.Going ∧
      r.offer.messageType = messageType ∧ r.offer.count = none ∧ r.offer.sent ≠ [])
    (hview : ∀ (i : ℕ) (r : OfferRun) q, q < t.inboxes.length → offers[i]? = some r →
      (t.post p es).view r.party q i <:+ r.offer.sent) :
    (({ t with offers := offers } : Traffic).post p es).Sound messageType := by
  have hids' : (({ t with offers := offers } : Traffic).post p es).idOf = ids := funext hids
  constructor
  · rw [hids']
    exact fun q e he => hgenuine q e (carries_post he)
  · intro q e he
    rcases carries_post (t := t) he with he | he
    · exact List.mem_append_left _ (ht.logged q e he)
    · exact List.mem_append_right _ (List.mem_map_of_mem he)
  · intro a q e i r he horigin hr
    change e ∈ (if a = p ∧ q < t.inboxes.length then t.wires a q ++ es else t.wires a q) at he
    split_ifs at he with hap
    · rcases List.mem_append.mp he with he | he
      · exact hold a q e i r he horigin hr
      · rw [hap.1]
        exact hmine e he i r horigin hr
    · exact hold a q e i r he horigin hr
  · rw [hids']
    exact hdistinct
  · rw [hids']
    exact hannounced
  · exact hgoing
  · intro a q hq
    have hq' : t.inboxes.length ≤ q := hq
    exact (if_neg fun h => absurd h.2 (Nat.not_lt.mpr hq')).trans (ht.beyond a q hq')
  · intro i r q hr
    rcases lt_or_ge q t.inboxes.length with hq | hq
    · exact hview i r q hq hr
    · have hnil : (t.post p es).view r.party q i = [] := ht.view_beyond es hq
      exact hnil ▸ List.nil_suffix

theorem Sound.post_pulls (ht : t.Sound messageType) (p : ℕ) {ms : List StreamMessage}
    (hms : ∀ m ∈ ms, ∃ key, m = .pull key) :
    (t.post p (ms.map fun m => ⟨m, .pull⟩)).Sound messageType := by
  have hpull : ∀ e ∈ ms.map fun m => (⟨m, .pull⟩ : Envelope), e.origin = .pull := by
    intro e he
    obtain ⟨m, _, rfl⟩ := List.mem_map.mp he
    rfl
  refine ht.posts t.offers _ (fun _ => rfl) ?_ ?_ ht.origin ht.distinct
    (fun i id hid => List.mem_append_left _ (ht.announced i id hid)) ht.going ?_
  · rintro q e (he | he)
    · exact ht.genuine q e he
    · obtain ⟨m, hm, rfl⟩ := List.mem_map.mp he
      exact hms m hm
  · intro e he i r horigin _
    rw [hpull e he] at horigin
    cases horigin
  · intro i r q _ hr
    rw [view_post_other fun e he => by rw [hpull e he]; simp [Origin.offer?]]
    exact ht.view i r q hr

theorem names_ready (id messageType : String) :
    (StreamMessage.ready id messageType none).names id = true := by
  simp [StreamMessage.names, StreamMessage.ready, streamIdOf, Value.get, Value.asStr]

/-- An envelope stays what it is when an offer starts whose id it does not name. -/
theorem genuine_extend {ids ids' : ℕ → Option String} {e : Envelope}
    (he : Genuine messageType ids e) (hids : ∀ k id, ids k = some id → ids' k = some id)
    (hnew : ∀ k id, ids' k = some id → ids k = some id ∨ e.message.names id = false) :
    Genuine messageType ids' e := by
  unfold Genuine at he ⊢
  cases horigin : e.origin with
  | ready i =>
    rw [horigin] at he
    obtain ⟨id, hid, hm⟩ := he
    exact ⟨id, hids i id hid, hm⟩
  | item i =>
    rw [horigin] at he
    obtain ⟨id, v, hid, hm, hclean⟩ := he
    refine ⟨id, v, hids i id hid, hm, fun htype k id' hk => ?_⟩
    rcases hnew k id' hk with hold | hunnamed
    · exact hclean htype k id' hold
    · intro hv
      rw [hm] at hunnamed
      simp [StreamMessage.names, StreamMessage.item, hv] at hunnamed
  | finish i =>
    rw [horigin] at he
    obtain ⟨id, hid, hm⟩ := he
    exact ⟨id, hids i id hid, hm⟩
  | pull =>
    rw [horigin] at he
    exact he

theorem idOf_lt {i : ℕ} {id : String} (h : t.idOf i = some id) : i < t.offers.length := by
  obtain ⟨r, hr, _⟩ := Option.map_eq_some_iff.mp h
  exact (List.getElem?_eq_some_iff.mp hr).1

theorem genuine_idOf {i : ℕ} {ids : ℕ → Option String} {e : Envelope}
    (he : Genuine messageType ids e) (horigin : e.origin.offer? = some i) :
    ∃ id, ids i = some id := by
  unfold Genuine at he
  cases h : e.origin with
  | ready k =>
    rw [h] at he horigin
    obtain rfl : k = i := Option.some.inj horigin
    obtain ⟨id, hid, _⟩ := he
    exact ⟨id, hid⟩
  | item k =>
    rw [h] at he horigin
    obtain rfl : k = i := Option.some.inj horigin
    obtain ⟨id, _, hid, _⟩ := he
    exact ⟨id, hid⟩
  | finish k =>
    rw [h] at he horigin
    obtain rfl : k = i := Option.some.inj horigin
    obtain ⟨id, hid, _⟩ := he
    exact ⟨id, hid⟩
  | pull =>
    rw [h] at horigin
    cases horigin

/-- Nothing under way is of an offer that has not been made. -/
theorem Sound.origin_lt (ht : t.Sound messageType) {q i : ℕ} {e : Envelope} (he : t.Carries q e)
    (horigin : e.origin.offer? = some i) : i < t.offers.length := by
  obtain ⟨id, hid⟩ := genuine_idOf (ht.genuine q e he) horigin
  exact idOf_lt hid

theorem Sound.view_unmade (ht : t.Sound messageType) (p q : ℕ) :
    t.view p q t.offers.length = [] := by
  unfold Traffic.view
  rw [List.map_eq_nil_iff, List.filter_eq_nil_iff]
  intro e he horigin
  have hcarries : t.Carries q e := by
    rcases List.mem_append.mp he with he | he
    · exact Or.inl he
    · exact Or.inr ⟨p, he⟩
  have hlt := ht.origin_lt hcarries (of_decide_eq_true horigin)
  omega

theorem view_announce {p q i : ℕ} {o : Offer} {r : OfferRun} (hr : t.offers[i]? = some r) :
    (t.announce p o).view r.party q i = t.view r.party q i := by
  have hlt := (List.getElem?_eq_some_iff.mp hr).1
  refine (view_post_other fun e he horigin => ?_).trans rfl
  obtain ⟨m, _, rfl⟩ := List.mem_map.mp he
  obtain rfl : t.offers.length = i := Option.some.inj horigin
  omega

theorem Sound.announce (ht : t.Sound messageType) (p : ℕ) {streamId : String}
    (items : ℕ → Option Value) (hfresh : ∀ m ∈ t.published, m.names streamId = false) :
    (t.announce p (.announce streamId messageType items none true)).Sound messageType := by
  let o : Offer := .announce streamId messageType items none true
  let ids : ℕ → Option String := fun i => (t.offers ++ [⟨p, o⟩])[i]?.map fun r => r.offer.streamId
  have hold : ∀ k id, t.idOf k = some id → ids k = some id := by
    intro k id hk
    simp only [ids, List.getElem?_append_left (idOf_lt hk)]
    exact hk
  have hnew : ∀ k id, ids k = some id →
      t.idOf k = some id ∨ k = t.offers.length ∧ id = streamId := by
    intro k id hk
    obtain ⟨r, hr, hid⟩ := Option.map_eq_some_iff.mp hk
    rcases getElem?_snoc_cases hr with hr | ⟨heq, rfl⟩
    · exact Or.inl (Option.map_eq_some_iff.mpr ⟨r, hr, hid⟩)
    · exact Or.inr ⟨heq, hid.symm⟩
  have hunused : ∀ k, t.idOf k ≠ some streamId := by
    intro k hk
    have hfalse := hfresh _ (ht.announced k streamId hk)
    rw [names_ready] at hfalse
    cases hfalse
  refine ht.posts _ ids (fun _ => rfl) ?_ ?_ ?_ ?_ ?_ ?_ ?_
  · rintro q e (he | he)
    · refine genuine_extend (ht.genuine q e he) hold fun k id hk => ?_
      rcases hnew k id hk with hk | ⟨_, rfl⟩
      · exact Or.inl hk
      · exact Or.inr (hfresh _ (ht.logged q e he))
    · obtain rfl : e = ⟨.ready streamId messageType none, .ready t.offers.length⟩ := by
        simpa [Offer.announce] using he
      exact ⟨streamId, by simp [ids, o, Offer.announce], rfl⟩
  · intro e he i r horigin hr
    obtain rfl : e = ⟨.ready streamId messageType none, .ready t.offers.length⟩ := by
      simpa [Offer.announce] using he
    obtain rfl : t.offers.length = i := Option.some.inj horigin
    rcases getElem?_snoc_cases hr with hr | ⟨_, rfl⟩
    · have hlt := (List.getElem?_eq_some_iff.mp hr).1
      omega
    · rfl
  · intro a q e i r he horigin hr
    rcases getElem?_snoc_cases hr with hr | ⟨heq, rfl⟩
    · exact ht.origin a q e i r he horigin hr
    · have hlt := ht.origin_lt (Or.inr ⟨a, he⟩) horigin
      omega
  · intro i k id hi hk
    rcases hnew i id hi with hi' | ⟨hi', heq⟩
    · rcases hnew k id hk with hk' | ⟨_, heq⟩
      · exact ht.distinct i k id hi' hk'
      · exact absurd (heq ▸ hi') (hunused i)
    · rcases hnew k id hk with hk' | ⟨hk', _⟩
      · exact absurd (heq ▸ hk') (hunused k)
      · rw [hi', hk']
  · intro i id hi
    rcases hnew i id hi with hi | ⟨_, rfl⟩
    · exact List.mem_append_left _ (ht.announced i id hi)
    · exact List.mem_append_right _ (by simp [Offer.announce])
  · intro i r hr
    rcases getElem?_snoc_cases hr with hr | ⟨_, rfl⟩
    · exact ht.going i r hr
    · exact ⟨Offer.going_announce .., rfl, rfl, by simp [Offer.announce]⟩
  · intro i r q hq hr
    rcases getElem?_snoc_cases hr with hr | ⟨rfl, rfl⟩
    · have hview : (t.announce p o).view r.party q i = t.view r.party q i := view_announce hr
      exact hview ▸ ht.view i r q hr
    · rw [view_post hq, ht.view_unmade]
      simp [Offer.announce, Origin.offer?]

theorem advance_cases {i k : ℕ} {r r' : OfferRun} {o : Offer} (hr : t.offers[i]? = some r)
    (h : (t.advance i r o).offers[k]? = some r') :
    (k = i ∧ r' = { r with offer := o }) ∨ (k ≠ i ∧ t.offers[k]? = some r') := by
  rcases getElem?_modify_cases h with ⟨rfl, r'', hr'', rfl⟩ | ⟨hne, hold⟩
  · obtain rfl : r'' = r := Option.some.inj (hr''.symm.trans hr)
    exact Or.inl ⟨rfl, rfl⟩
  · exact Or.inr ⟨hne.symm, hold⟩

theorem idOf_advance {i : ℕ} {r : OfferRun} {o : Offer} (hr : t.offers[i]? = some r)
    (hid : o.streamId = r.offer.streamId) (k : ℕ) : (t.advance i r o).idOf k = t.idOf k := by
  by_cases hk : i = k
  · subst hk
    have hself : (t.advance i r o).offers[i]? = some { r with offer := o } :=
      getElem?_modify_self hr
    simp only [idOf, hself, hr, Option.map_some, hid]
  · have hother : (t.advance i r o).offers[k]? = t.offers[k]? := getElem?_modify_of_ne hk
    simp only [idOf, hother]

/-- The offer that advances is seen to have sent more, the others are not. -/
theorem view_advance {i k q : ℕ} {r : OfferRun} {o : Offer} {ms : List StreamMessage}
    (hsent : o.sent = r.offer.sent ++ ms) (hq : q < t.inboxes.length) (a : ℕ) :
    (t.advance i r o).view a q k =
      t.view a q k ++ if a = r.party ∧ k = i then ms else [] := by
  have hdrop : o.sent.drop r.offer.sent.length = ms := by rw [hsent, List.drop_left]
  have horigin : ∀ m, (⟨m, if o.outcome.isSome then .finish i else .item i⟩ :
      Envelope).origin.offer? = some i := by
    intro m
    dsimp only
    split_ifs <;> rfl
  have hview : (t.advance i r o).view a q k =
      (t.post r.party (ms.map fun m =>
        ⟨m, if o.outcome.isSome then .finish i else .item i⟩)).view a q k := by
    rw [← hdrop]
    rfl
  rw [hview]
  by_cases hk : k = i
  · subst hk
    have hall : (ms.map fun m => (⟨m, if o.outcome.isSome then .finish k else .item k⟩ :
        Envelope)).filter (fun e => e.origin.offer? = some k) =
          ms.map fun m => ⟨m, if o.outcome.isSome then .finish k else .item k⟩ := by
      rw [List.filter_eq_self]
      intro e he
      obtain ⟨m, _, rfl⟩ := List.mem_map.mp he
      exact decide_eq_true (horigin m)
    rw [view_post hq, hall, List.map_map]
    simp only [and_true, Function.comp_def, List.map_id']
  · have hnone : (if a = r.party ∧ k = i then ms else []) = [] := if_neg fun h => hk h.2
    rw [hnone, List.append_nil]
    refine view_post_other fun e he h => ?_
    obtain ⟨m, _, rfl⟩ := List.mem_map.mp he
    rw [horigin m] at h
    exact hk (Option.some.inj h).symm

theorem Sound.advance (ht : t.Sound messageType) {i : ℕ} {r : OfferRun} {o : Offer}
    {ms : List StreamMessage} (hr : t.offers[i]? = some r) (hid : o.streamId = r.offer.streamId)
    (htype : o.messageType = r.offer.messageType) (hcount : o.count = r.offer.count)
    (hgoing : o.Going) (hsent : o.sent = r.offer.sent ++ ms)
    (hgenuine : ∀ m ∈ ms, Genuine messageType t.idOf
      ⟨m, if o.outcome.isSome then .finish i else .item i⟩) :
    (t.advance i r o).Sound messageType := by
  have hdrop : o.sent.drop r.offer.sent.length = ms := by rw [hsent, List.drop_left]
  obtain ⟨_, hrtype, hrcount, hrsent⟩ := ht.going i r hr
  refine ht.posts _ t.idOf (idOf_advance hr hid) ?_ ?_ ?_ ht.distinct
    (fun k id hk => List.mem_append_left _ (ht.announced k id hk)) ?_ ?_
  · rintro q e (he | he)
    · exact ht.genuine q e he
    · rw [hdrop] at he
      obtain ⟨m, hm, rfl⟩ := List.mem_map.mp he
      exact hgenuine m hm
  · intro e he k r' horigin hr'
    obtain ⟨m, _, rfl⟩ := List.mem_map.mp he
    have hk : k = i := by
      dsimp only at horigin
      split_ifs at horigin
      · exact (Option.some.inj horigin).symm
      · exact (Option.some.inj horigin).symm
    rcases advance_cases hr hr' with ⟨_, rfl⟩ | ⟨hne, _⟩
    · rfl
    · exact absurd hk hne
  · intro a q e k r' he horigin hr'
    rcases advance_cases hr hr' with ⟨rfl, rfl⟩ | ⟨_, hold⟩
    · exact ht.origin a q e k r he horigin hr
    · exact ht.origin a q e k r' he horigin hold
  · intro k r' hr'
    rcases advance_cases hr hr' with ⟨rfl, rfl⟩ | ⟨_, hold⟩
    · refine ⟨hgoing, htype.trans hrtype, hcount.trans hrcount, ?_⟩
      simp only [hsent]
      exact fun hnil => hrsent (List.append_eq_nil_iff.mp hnil).1
    · exact ht.going k r' hold
  · intro k r' q hq hr'
    have hview := view_advance (i := i) (k := k) (r := r) hsent hq r'.party
    change (t.advance i r o).view r'.party q k <:+ r'.offer.sent
    rw [hview]
    rcases advance_cases hr hr' with ⟨rfl, rfl⟩ | ⟨hne, hold⟩
    · obtain ⟨pre, hpre⟩ := ht.view k r q hr
      refine ⟨pre, ?_⟩
      simp only [and_self, if_true, ← List.append_assoc, hpre, hsent]
    · rw [if_neg fun h => hne h.2, List.append_nil]
      exact ht.view k r' q hold

end Traffic

end Emergent.Sdk

import Emergent.Engine.StartupWait
import Emergent.Kit.Modify

/-!
# Ready tiers and subscribed members

What a return of `wait_for_tier` on a ready tier says about its members. An entry
is heard of when its name is confirmed or an observation that would confirm it is
on its way. The invariant is that an entry heard of has a request accepted; it is
the first request of a call, so a tier can be ready while a second one is still to
come.
-/

namespace Emergent.Engine
open Emergent.Sdk Kit

/-- A ready return finds every running member with its declared topics accepted. -/
def TierReturn.Subscribed (r : TierReturn) : Prop :=
  r.reason = .ready → ∀ a ∈ r.actors, a.kind = r.kind → a.running = true →
    ∀ topic ∈ a.subscribes, topic ∈ a.accepted

instance decidableSubscribed (r : TierReturn) : Decidable r.Subscribed :=
  inferInstanceAs (Decidable (_ → ∀ a ∈ r.actors, a.kind = r.kind → a.running = true →
    ∀ topic ∈ a.subscribes, topic ∈ a.accepted))

namespace Startup

variable {policy : EnginePolicy} {s t : Startup}

/-- The observations that have not been named. -/
def pending (s : Startup) : List ObservedSubscriber :=
  s.signals ++
    match s.wait with
    | none => []
    | some w => w.phase.observed ++ w.ledger.unattributed

def confirmed (s : Startup) : Finset String :=
  match s.wait with
  | none => ∅
  | some w => w.ledger.confirmed

/-- Readiness has the name of the entry, or holds what gives it the name. -/
def Heard (s : Startup) (a : ActorEntry) : Prop :=
  a.name ∈ s.confirmed ∨ .named a.name ∈ s.pending ∨
    ∃ pid ∈ a.pid, ObservedSubscriber.pid pid ∈ s.pending

/-- The running members of a tier that declare topics. -/
def tier (s : Startup) (kind : PrimitiveKind) : List ActorEntry :=
  s.table.filter fun a => a.kind = kind ∧ a.running = true ∧ a.subscribes ≠ []

/-- A child is spawned under a name nothing is held of. -/
def Fresh (s : Startup) (a : ActorEntry) : EntryAction → Prop
  | .spawn pid => ¬ s.Heard (a.spawned pid)
  | _ => True

/-- The steps that keep readiness truthful: the entries ask for what they declare,
their children are fresh, and a tier is judged while one of its members has nothing
accepted or when all of their calls are done. -/
def Orderly (s : Startup) : StartupAction → Prop
  | .actor i action => ∀ a ∈ s.actors[i]?, a.Asks action ∧ s.Fresh a action
  | .evaluate _ => ∀ w ∈ s.wait,
      (∃ a ∈ s.tier w.kind, a.accepted = []) ∨ ∀ a ∈ s.tier w.kind, a.call = .done
  | _ => True

instance decidableHeard (s : Startup) (a : ActorEntry) : Decidable (s.Heard a) :=
  inferInstanceAs (Decidable (_ ∨ _ ∨ _))

instance decidableFresh (s : Startup) (a : ActorEntry) : ∀ action, Decidable (s.Fresh a action)
  | .spawn pid => inferInstanceAs (Decidable (¬ s.Heard (a.spawned pid)))
  | .insert | .lifecycle _ | .exit | .close | .connect _ | .discover _ | .topology _
  | .subscribe _ | .request _ => isTrue trivial

instance decidableOrderly (s : Startup) : ∀ action, Decidable (s.Orderly action)
  | .actor i action =>
    inferInstanceAs (Decidable (∀ a ∈ s.actors[i]?, a.Asks action ∧ s.Fresh a action))
  | .evaluate _ => inferInstanceAs (Decidable (∀ w ∈ s.wait,
      (∃ a ∈ s.tier w.kind, a.accepted = []) ∨ ∀ a ∈ s.tier w.kind, a.call = .done))
  | .start _ _ _ | .client _ _ _ | .beginWait _ _ | .drain | .absorb => isTrue trivial

/-! ### Whose connection it is -/

def Owns (s : Startup) (a : ActorEntry) : ConnectionIdentity → Prop
  | .primitive name => name = a.name
  | .unmanaged none _ => True
  | .unmanaged (some pid) _ => ∀ b ∈ s.actors, b.name ≠ a.name → b.pid ≠ some pid

theorem owns_of_isPeer {a : ActorEntry} {identity : ConnectionIdentity}
    (h : s.isPeer a identity = true) : s.Owns a identity := by
  cases identity with
  | primitive name =>
    simp only [isPeer, decide_eq_true_eq] at h
    exact h.1
  | unmanaged pid uid =>
    cases pid with
    | none => trivial
    | some pid =>
      intro b hb hname
      have hall := List.all_eq_true.mp h b hb
      simp only [decide_eq_true_eq] at hall
      exact hall.resolve_left hname

/-- An observation made on a connection of `a` names no other entry. -/
theorem Owns.name_eq {a c : ActorEntry} {identity : ConnectionIdentity}
    (h : s.Owns a identity) (hc : c ∈ s.actors)
    (hnames : observedSubscriber identity = .named c.name ∨
      ∃ pid ∈ c.pid, observedSubscriber identity = .pid pid) : c.name = a.name := by
  cases identity with
  | primitive name =>
    rcases hnames with hnamed | ⟨pid, _, hpid⟩
    · have hname : name = c.name := ObservedSubscriber.named.inj hnamed
      exact hname.symm.trans h
    · cases hpid
  | unmanaged peer uid =>
    cases peer with
    | none =>
      rcases hnames with hnamed | ⟨pid, _, hpid⟩
      · cases hnamed
      · cases hpid
    | some peer =>
      rcases hnames with hnamed | ⟨pid, hcpid, hpid⟩
      · cases hnamed
      · have hpeer : peer = pid := ObservedSubscriber.pid.inj hpid
        by_contra hne
        exact h c hc hne (by rw [hpeer]; exact hcpid)

/-! ### The invariant -/

structure Sound (s : Startup) : Prop where
  names : (s.actors.map ActorEntry.name).Nodup
  entries : ∀ a ∈ s.actors, a.Sound
  clients : ∀ a ∈ s.actors, ∀ identity, a.client = some identity → s.Owns a identity
  known : ∀ name, name ∈ s.confirmed ∨ .named name ∈ s.pending →
    name ∈ s.actors.map ActorEntry.name
  heard : ∀ a ∈ s.actors, s.Heard a → a.accepted ≠ []
  returned : ∀ r ∈ s.returns, r.Subscribed

theorem initial_sound : initial.Sound where
  names := List.nodup_nil
  entries := by simp [initial]
  clients := by simp [initial]
  known := by simp [initial, confirmed, pending]
  heard := by simp [initial]
  returned := by simp [initial]

theorem Sound.eq_of_name (hs : s.Sound) {a b : ActorEntry} (ha : a ∈ s.actors)
    (hb : b ∈ s.actors) (h : a.name = b.name) : a = b :=
  List.inj_on_of_nodup_map hs.names ha hb h

/-- A step that touches no entry keeps the invariant when it makes nobody heard
of who was not before. -/
theorem Sound.of_observed (hs : s.Sound) (hactors : t.actors = s.actors)
    (hknown : ∀ name, name ∈ t.confirmed ∨ .named name ∈ t.pending →
      name ∈ s.actors.map ActorEntry.name)
    (hheard : ∀ a ∈ s.actors, t.Heard a → s.Heard a)
    (hreturned : ∀ r ∈ t.returns, r ∈ s.returns ∨ r.Subscribed) : t.Sound where
  names := by rw [hactors]; exact hs.names
  entries := by rw [hactors]; exact hs.entries
  clients := by
    intro a ha identity hclient
    rw [hactors] at ha
    have howns := hs.clients a ha identity hclient
    unfold Owns at howns ⊢
    rw [hactors]
    exact howns
  known := by rw [hactors]; exact hknown
  heard := by
    intro a ha h
    rw [hactors] at ha
    exact hs.heard a ha (hheard a ha h)
  returned := fun r hr => (hreturned r hr).elim (hs.returned r) id

theorem Heard.mono (hc : t.confirmed ⊆ s.confirmed) (hp : t.pending ⊆ s.pending)
    {a : ActorEntry} (h : t.Heard a) : s.Heard a := by
  rcases h with h | h | ⟨pid, hpid, h⟩
  · exact Or.inl (hc h)
  · exact Or.inr (Or.inl (hp h))
  · exact Or.inr (Or.inr ⟨pid, hpid, hp h⟩)

/-- The steps of the loop that only move observations or let go of them. -/
theorem Sound.of_fewer (hs : s.Sound) (hactors : t.actors = s.actors)
    (hc : t.confirmed ⊆ s.confirmed) (hp : t.pending ⊆ s.pending)
    (hreturned : ∀ r ∈ t.returns, r ∈ s.returns ∨ r.Subscribed) : t.Sound := by
  refine hs.of_observed hactors ?_ (fun a _ h => h.mono hc hp) hreturned
  intro name h
  exact hs.known name (h.imp (fun h => hc h) (fun h => hp h))

/-! ### The entries -/

theorem mem_pending_append {more : List ObservedSubscriber} {actors : List ActorEntry}
    {o : ObservedSubscriber} :
    o ∈ pending { s with actors := actors, signals := s.signals ++ more } ↔
      o ∈ s.pending ∨ o ∈ more := by
  simp only [pending, List.mem_append]
  tauto

theorem sound_start (hs : s.Sound) {name : String}
    (hfresh : name ∉ s.actors.map ActorEntry.name) (kind : PrimitiveKind)
    (subscribes : List String) :
    Sound { s with actors := s.actors ++ [.new kind name subscribes] } where
  names := by
    rw [List.map_append]
    refine List.nodup_append.mpr ⟨hs.names, List.nodup_singleton _, ?_⟩
    intro n hn m hm heq
    rw [List.map_singleton, List.mem_singleton] at hm
    have hname : n = name := heq.trans hm
    exact hfresh (by rw [← hname]; exact hn)
  entries := by
    intro a ha
    rcases List.mem_append.mp ha with hold | hnew
    · exact hs.entries a hold
    · rw [List.mem_singleton.mp hnew]
      exact ⟨trivial, by simp [ActorEntry.new]⟩
  clients := by
    intro a ha identity hclient
    rcases List.mem_append.mp ha with hold | hnew
    · have howns := hs.clients a hold identity hclient
      cases identity with
      | primitive name => exact howns
      | unmanaged pid uid =>
        cases pid with
        | none => trivial
        | some pid =>
          intro b hb hne
          rcases List.mem_append.mp hb with hbold | hbnew
          · exact howns b hbold hne
          · rw [List.mem_singleton.mp hbnew]
            simp [ActorEntry.new]
    · rw [List.mem_singleton.mp hnew] at hclient
      cases hclient
  known := by
    intro n hn
    rw [List.map_append]
    exact List.mem_append_left _ (hs.known n hn)
  heard := by
    intro a ha hheard
    rcases List.mem_append.mp ha with hold | hnew
    · exact hs.heard a hold hheard
    · rw [List.mem_singleton.mp hnew] at hheard
      rcases hheard with hconfirmed | hnamed | ⟨pid, hpid, _⟩
      · exact absurd (hs.known name (Or.inl hconfirmed)) hfresh
      · exact absurd (hs.known name (Or.inr hnamed)) hfresh
      · cases hpid
  returned := hs.returned

/-- The entries after the entry at `i` has become `b`: `b`, and the others, whose
names are not its own. -/
theorem Sound.mem_set_cases (hs : s.Sound) {i : ℕ} {a b c : ActorEntry}
    (hi : s.actors[i]? = some a) (h : c ∈ s.actors.set i b) :
    c = b ∨ (c ∈ s.actors ∧ c.name ≠ a.name) := by
  obtain ⟨j, hj⟩ := List.mem_iff_getElem?.mp h
  rw [List.getElem?_set] at hj
  by_cases hij : i = j
  · subst hij
    rw [if_pos rfl] at hj
    split at hj
    · exact Or.inl (Option.some.inj hj).symm
    · cases hj
  · rw [if_neg hij] at hj
    refine Or.inr ⟨List.mem_of_getElem? hj, ?_⟩
    intro hname
    have hlt : i < (s.actors.map ActorEntry.name).length := by
      rw [List.length_map]
      exact (List.getElem?_eq_some_iff.mp hi).1
    refine hij ((List.getElem?_inj hlt hs.names).mp ?_)
    rw [List.getElem?_map, List.getElem?_map, hi, hj, Option.map_some, Option.map_some, hname]

theorem map_name_set {i : ℕ} {a b : ActorEntry} (hi : s.actors[i]? = some a)
    (hname : b.name = a.name) :
    (s.actors.set i b).map ActorEntry.name = s.actors.map ActorEntry.name := by
  apply List.ext_getElem?
  intro j
  rw [List.map_set, List.getElem?_set]
  by_cases hij : i = j
  · subst hij
    obtain ⟨hlt, ha⟩ := List.getElem?_eq_some_iff.mp hi
    simp [hname, hlt, ha]
  · rw [if_neg hij]

theorem owns_requester (hs : s.Sound) {a : ActorEntry} {action : EntryAction}
    (ha : a ∈ s.actors) (hpermits : s.permits a action = true) {identity : ConnectionIdentity}
    (h : a.requester action = some identity) : s.Owns a identity := by
  cases action with
  | discover found =>
    obtain rfl := Option.some.inj h
    exact owns_of_isPeer hpermits
  | topology found =>
    obtain rfl := Option.some.inj h
    exact owns_of_isPeer hpermits
  | request acquired => exact hs.clients a ha identity h
  | insert | spawn | lifecycle | exit | close | connect | subscribe => cases h

section
variable {i : ℕ} {a b : ActorEntry} {action : EntryAction} {sent : List ObservedSubscriber}

/-- An entry other than the one that acts is heard of as before. -/
theorem heard_other (hs : s.Sound) (ha : a ∈ s.actors) (hpermits : s.permits a action = true)
    (hstep : a.Stepped action b sent) {c : ActorEntry} (hc : c ∈ s.actors)
    (hne : c.name ≠ a.name)
    (h : Heard { s with actors := s.actors.set i b, signals := s.signals ++ sent } c) :
    s.Heard c := by
  have hforeign : ∀ o ∈ sent, o = .named c.name ∨ (∃ pid ∈ c.pid, o = .pid pid) → False := by
    intro o ho hnames
    obtain ⟨identity, hrequester, rfl⟩ := hstep.senders o ho
    exact hne ((owns_requester hs ha hpermits hrequester).name_eq hc hnames)
  rcases h with h | h | ⟨pid, hpid, h⟩
  · exact Or.inl h
  · rcases mem_pending_append.mp h with hold | hnew
    · exact Or.inr (Or.inl hold)
    · exact absurd (Or.inl rfl) (hforeign _ hnew)
  · rcases mem_pending_append.mp h with hold | hnew
    · exact Or.inr (Or.inr ⟨pid, hpid, hold⟩)
    · exact absurd (Or.inr ⟨pid, hpid, rfl⟩) (hforeign _ hnew)

/-- The entry that acts, when it is heard of afterwards, has a request accepted. -/
theorem heard_self (hs : s.Sound) (ha : a ∈ s.actors) (hstep : a.Stepped action b sent)
    (hspawn : ∀ pid, action = .spawn pid → ¬ s.Heard b)
    (h : Heard { s with actors := s.actors.set i b, signals := s.signals ++ sent } b) :
    b.accepted ≠ [] := by
  by_cases hsent : sent = []
  · have hbefore : s.Heard b := by
      subst hsent
      have hpending : ∀ o ∈ pending { s with
          actors := s.actors.set i b, signals := s.signals ++ [] }, o ∈ s.pending :=
        fun o ho => (mem_pending_append.mp ho).resolve_right List.not_mem_nil
      refine h.mono ?_ hpending
      exact Finset.Subset.refl _
    rcases hstep.accepted with ⟨pid, hpid⟩ | hkeeps
    · exact absurd hbefore (hspawn pid hpid)
    · refine hkeeps (hs.heard a ha ?_)
      -- the pid of `b` is that of `a`, or there is none
      unfold Heard at hbefore ⊢
      rw [hstep.name] at hbefore
      rcases hbefore with h | h | ⟨pid, hpid, h⟩
      · exact Or.inl h
      · exact Or.inr (Or.inl h)
      · rcases hstep.pid with hsame | hnone | ⟨new, hnew, _⟩
        · exact Or.inr (Or.inr ⟨pid, by rw [← hsame]; exact hpid, h⟩)
        · rw [hnone] at hpid
          cases hpid
        · refine absurd ?_ (hspawn new hnew)
          exact Or.inr (Or.inr ⟨pid, hpid, h⟩)
  · exact hstep.heard hsent

/-- The connections stay with their entries: a new pid is not that of an open
connection, and a new connection is a peer of its entry. -/
theorem clients_set (hs : s.Sound) (hi : s.actors[i]? = some a)
    (hpermits : s.permits a action = true) (hstep : a.Stepped action b sent) :
    ∀ c ∈ s.actors.set i b, ∀ identity, c.client = some identity →
      Owns { s with actors := s.actors.set i b, signals := s.signals ++ sent } c identity := by
  have ha : a ∈ s.actors := List.mem_of_getElem? hi
  intro c hc identity hclient
  have howns : s.Owns c identity := by
    rcases hs.mem_set_cases hi hc with rfl | ⟨hold, _⟩
    · rcases hstep.client with hsame | hnone | ⟨new, rfl, hnew⟩
      · have hbefore := hs.clients a ha identity (by rw [← hsame]; exact hclient)
        unfold Owns at hbefore ⊢
        rw [hstep.name]
        exact hbefore
      · rw [hnone] at hclient
        cases hclient
      · have hidentity : new = identity := Option.some.inj (hnew.symm.trans hclient)
        subst hidentity
        have hpeer : s.Owns a new := owns_of_isPeer hpermits
        unfold Owns at hpeer ⊢
        rw [hstep.name]
        exact hpeer
    · exact hs.clients c hold identity hclient
  cases identity with
  | primitive name => exact howns
  | unmanaged peer uid =>
    cases peer with
    | none => trivial
    | some peer =>
      intro d hd hne
      rcases hs.mem_set_cases hi hd with rfl | ⟨hold, _⟩
      · rcases hstep.pid with hsame | hnone | ⟨new, rfl, hnew⟩
        · rw [hsame]
          exact howns a ha (by rw [← hstep.name]; exact hne)
        · rw [hnone]
          intro heq
          cases heq
        · rcases hs.mem_set_cases hi hc with rfl | ⟨hcold, _⟩
          · exact absurd rfl hne
          · have hfree := List.all_eq_true.mp hpermits c hcold
            simp only [decide_eq_true_eq, hclient, Option.bind_some,
              ConnectionIdentity.peerPid] at hfree
            rw [hnew]
            exact fun heq => hfree.2 heq.symm
      · exact howns d hold hne

theorem sound_actor (hs : s.Sound) (hi : s.actors[i]? = some a)
    (hpermits : s.permits a action = true) (hstep : a.Stepped action b sent)
    (hspawn : ∀ pid, action = .spawn pid → ¬ s.Heard b) :
    Sound { s with actors := s.actors.set i b, signals := s.signals ++ sent } where
  names := by
    rw [map_name_set hi hstep.name]
    exact hs.names
  entries := by
    intro c hc
    rcases hs.mem_set_cases hi hc with rfl | ⟨hold, _⟩
    · exact hstep.sound
    · exact hs.entries c hold
  clients := clients_set hs hi hpermits hstep
  known := by
    intro name h
    rw [map_name_set hi hstep.name]
    rcases h with hconfirmed | hnamed
    · exact hs.known name (Or.inl hconfirmed)
    · rcases mem_pending_append.mp hnamed with hold | hnew
      · exact hs.known name (Or.inr hold)
      · have ha : a ∈ s.actors := List.mem_of_getElem? hi
        obtain ⟨identity, hrequester, hidentity⟩ := hstep.senders _ hnew
        have howns := owns_requester hs ha hpermits hrequester
        cases identity with
        | primitive found =>
          have hname : name = found := ObservedSubscriber.named.inj hidentity
          have hfound : found = a.name := howns
          rw [hname, hfound]
          exact List.mem_map_of_mem ha
        | unmanaged peer uid => cases peer <;> cases hidentity
  heard := by
    intro c hc hheard
    have ha : a ∈ s.actors := List.mem_of_getElem? hi
    rcases hs.mem_set_cases hi hc with rfl | ⟨hold, hne⟩
    · exact heard_self hs ha hstep hspawn hheard
    · exact hs.heard c hold (heard_other hs ha hpermits hstep hold hne hheard)
  returned := hs.returned

end

/-! ### The loop -/

theorem sound_client (hs : s.Sound) {pid : Option Pid} {uid : ℕ} {topics : List String}
    (hforeign : (s.actors.all fun a => a.pid = none ∨ a.pid ≠ pid) = true) :
    Sound { s with signals :=
      s.signals ++ (policy.authorizeSubscribe (.unmanaged pid uid) topics).signals } := by
  have hsent : ∀ o ∈ (policy.authorizeSubscribe (.unmanaged pid uid) topics).signals,
      o = observedSubscriber (.unmanaged pid uid) := fun o ho =>
    (EnginePolicy.mem_authorizeSubscribe_signals ho).2.2
  have hunnamed : ∀ name, observedSubscriber (.unmanaged pid uid) ≠ .named name := by
    intro name h
    cases pid <;> cases h
  have hunpid : ∀ a ∈ s.actors, ∀ p ∈ a.pid, observedSubscriber (.unmanaged pid uid) ≠ .pid p := by
    intro a ha p hp h
    cases pid with
    | none => cases h
    | some pid =>
      have hpid : pid = p := ObservedSubscriber.pid.inj h
      have hother := List.all_eq_true.mp hforeign a ha
      rw [Option.mem_def] at hp
      simp [hp, hpid] at hother
  refine hs.of_observed rfl ?_ ?_ (fun r hr => Or.inl hr)
  · intro name h
    rcases h with hconfirmed | hnamed
    · exact hs.known name (Or.inl hconfirmed)
    · rcases mem_pending_append.mp hnamed with hold | hnew
      · exact hs.known name (Or.inr hold)
      · exact absurd (hsent _ hnew).symm (hunnamed name)
  · intro a ha h
    rcases h with h | h | ⟨p, hp, h⟩
    · exact Or.inl h
    · rcases mem_pending_append.mp h with hold | hnew
      · exact Or.inr (Or.inl hold)
      · exact absurd (hsent _ hnew).symm (hunnamed a.name)
    · rcases mem_pending_append.mp h with hold | hnew
      · exact Or.inr (Or.inr ⟨p, hp, hold⟩)
      · exact absurd (hsent _ hnew).symm (hunpid a ha p hp)

theorem mem_liveChildPids {pid : Pid} {name : String} (h : (pid, name) ∈ s.liveChildPids) :
    ∃ a ∈ s.actors, a.pid = some pid ∧ a.name = name := by
  obtain ⟨a, ha, hmap⟩ := List.mem_filterMap.mp h
  obtain ⟨found, hfound, hpair⟩ := Option.map_eq_some_iff.mp hmap
  obtain ⟨rfl, rfl⟩ := Prod.mk.inj hpair
  exact ⟨a, List.mem_of_mem_filter ha, hfound, rfl⟩

/-- An observation that carries a pid names the child that has it. -/
theorem attributed_cases {o : ObservedSubscriber} {name : String}
    (h : attributeSubscriber o s.liveChildPids = some name) :
    o = .named name ∨ ∃ a ∈ s.actors, a.name = name ∧ ∃ pid ∈ a.pid, o = .pid pid := by
  cases o with
  | named found =>
    have hname : found = name := Option.some.inj h
    exact Or.inl (by rw [hname])
  | pid pid =>
    obtain ⟨a, ha, hpid, hname⟩ := mem_liveChildPids (attributeSubscriber_pid h)
    exact Or.inr ⟨a, ha, hname, pid, hpid, rfl⟩
  | anonymous => cases h

/-- Naming the observations makes nobody heard of who was not before. -/
theorem sound_absorb (hs : s.Sound) {kind : PrimitiveKind} {ledger : Ledger}
    {observed : List ObservedSubscriber}
    (hwait : s.wait = some ⟨kind, ledger, .drained observed⟩) :
    Sound { s with
      wait := some ⟨kind, Engine.absorb ledger observed s.liveChildPids, .absorbed⟩ } := by
  have hheld : ∀ o ∈ ledger.unattributed ++ observed, o ∈ s.pending := by
    intro o ho
    simp only [pending, hwait, WaitPhase.observed, List.mem_append] at ho ⊢
    tauto
  have hledger : ∀ name ∈ ledger.confirmed, name ∈ s.confirmed := by
    simp [confirmed, hwait]
  have hpending : ∀ o ∈ pending { s with
      wait := some ⟨kind, Engine.absorb ledger observed s.liveChildPids, .absorbed⟩ },
      o ∈ s.pending := by
    intro o ho
    simp only [pending, WaitPhase.observed, List.nil_append] at ho
    rcases List.mem_append.mp ho with hsignal | hkept
    · exact List.mem_append_left _ hsignal
    · exact hheld o (absorb_unattributed hkept)
  have hnamed : ∀ name ∈ (Engine.absorb ledger observed s.liveChildPids).confirmed,
      (name ∈ s.confirmed ∨ .named name ∈ s.pending) ∨
        ∃ a ∈ s.actors, a.name = name ∧ s.Heard a := by
    intro name h
    rcases absorb_confirmed.mp h with hold | ⟨o, ho, hattributed⟩
    · exact Or.inl (Or.inl (hledger name hold))
    · rcases attributed_cases hattributed with rfl | ⟨a, ha, hname, pid, hpid, rfl⟩
      · exact Or.inl (Or.inr (hheld _ ho))
      · exact Or.inr ⟨a, ha, hname, Or.inr (Or.inr ⟨pid, hpid, hheld _ ho⟩)⟩
  refine hs.of_observed rfl ?_ ?_ (fun r hr => Or.inl hr)
  · intro name h
    rcases h with hconfirmed | hpend
    · rcases hnamed name hconfirmed with hknown | ⟨a, ha, hname, _⟩
      · exact hs.known name hknown
      · rw [← hname]
        exact List.mem_map_of_mem ha
    · exact hs.known name (Or.inr (hpending _ hpend))
  · intro a ha h
    rcases h with h | h | ⟨pid, hpid, h⟩
    · rcases hnamed a.name h with (hconfirmed | hpend) | ⟨b, hb, hname, hheard⟩
      · exact Or.inl hconfirmed
      · exact Or.inr (Or.inl hpend)
      · rw [← hs.eq_of_name hb ha hname]
        exact hheard
    · exact Or.inr (Or.inl (hpending _ h))
    · exact Or.inr (Or.inr ⟨pid, hpid, hpending _ h⟩)

theorem sound_drain (hs : s.Sound) {kind : PrimitiveKind} {ledger : Ledger}
    (hwait : s.wait = some ⟨kind, ledger, .polling⟩) :
    Sound { s with signals := [], wait := some ⟨kind, ledger, .drained s.signals⟩ } := by
  refine hs.of_fewer rfl ?_ ?_ (fun r hr => Or.inl hr)
  · simp [confirmed, hwait]
  · simp [pending, hwait, WaitPhase.observed]

theorem sound_again (hs : s.Sound) {kind : PrimitiveKind} {ledger : Ledger}
    (hwait : s.wait = some ⟨kind, ledger, .absorbed⟩) :
    Sound { s with wait := some ⟨kind, ledger, .polling⟩ } := by
  refine hs.of_fewer rfl ?_ ?_ (fun r hr => Or.inl hr)
  · simp [confirmed, hwait]
  · simp [pending, hwait, WaitPhase.observed]

theorem sound_beginWait (hs : s.Sound) (kind : PrimitiveKind) :
    Sound { s with wait := some ⟨kind, .default, .polling⟩ } := by
  refine hs.of_fewer rfl ?_ ?_ (fun r hr => Or.inl hr)
  · simp [confirmed, Ledger.default]
  · simp [pending, WaitPhase.observed, Ledger.default]

theorem sound_returned (hs : s.Sound) {kind : PrimitiveKind} {reason : ReturnReason}
    (h : TierReturn.Subscribed ⟨kind, reason, s.table⟩) : (s.returned kind reason).Sound := by
  refine hs.of_fewer rfl ?_ ?_ ?_
  · simp [confirmed, Startup.returned]
  · simp [pending, Startup.returned]
  · intro r hr
    rcases List.mem_append.mp hr with hold | hnew
    · exact Or.inl hold
    · rw [List.mem_singleton.mp hnew]
      exact Or.inr h

/-! ### Ready tiers -/

theorem mem_tier {kind : PrimitiveKind} {a : ActorEntry} :
    a ∈ s.tier kind ↔ a ∈ s.table ∧ a.kind = kind ∧ a.running = true ∧ a.subscribes ≠ [] := by
  simp only [tier, List.mem_filter, decide_eq_true_eq]

theorem confirmed_of_ready {kind : PrimitiveKind} {names : Finset String}
    (h : (evaluateTier (s.tierMembers kind names)).ready = true) {a : ActorEntry}
    (ha : a ∈ s.tier kind) : a.name ∈ names := by
  obtain ⟨htable, hkind, hrunning, hdeclares⟩ := mem_tier.mp ha
  have hmember : (⟨a.name, !a.subscribes.isEmpty, classify a.running (a.name ∈ names)⟩ :
      TierMember) ∈ s.tierMembers kind names := by
    refine List.mem_map_of_mem (List.mem_filter.mpr ⟨htable, ?_⟩)
    exact decide_eq_true hkind
  have hevidence := evaluateTier_ready.mp h _ hmember (by simpa using hdeclares)
  by_contra hout
  exact hevidence (classify_eq_waiting.mpr ⟨hrunning, decide_eq_false hout⟩)

theorem ready_subscribed (hs : s.Sound) {kind : PrimitiveKind} {ledger : Ledger}
    (hwait : s.wait = some ⟨kind, ledger, .absorbed⟩)
    (horderly : (∃ a ∈ s.tier kind, a.accepted = []) ∨ ∀ a ∈ s.tier kind, a.call = .done)
    (hready : (evaluateTier (s.tierMembers kind ledger.confirmed)).ready = true) :
    TierReturn.Subscribed ⟨kind, .ready, s.table⟩ := by
  have haccepted : ∀ a ∈ s.tier kind, a.accepted ≠ [] := by
    intro a ha
    have hconfirmed : a.name ∈ s.confirmed := by
      simp only [confirmed, hwait]
      exact confirmed_of_ready hready ha
    exact hs.heard a (List.mem_of_mem_filter (mem_tier.mp ha).1) (Or.inl hconfirmed)
  have hdone : ∀ a ∈ s.tier kind, a.call = .done := by
    rcases horderly with ⟨a, ha, hnil⟩ | hdone
    · exact absurd hnil (haccepted a ha)
    · exact hdone
  intro _ a ha hkind hrunning topic htopic
  have htier : a ∈ s.tier kind :=
    mem_tier.mpr ⟨ha, hkind, hrunning, List.ne_nil_of_mem htopic⟩
  have htracked := (hs.entries a (List.mem_of_mem_filter ha)).tracked
  simp only [ActorEntry.Tracked, hdone a htier] at htracked
  exact htracked topic htopic

theorem step_sound (hs : s.Sound) {action : StartupAction} (horderly : s.Orderly action)
    (h : step policy s action = some t) : t.Sound := by
  cases action with
  | start kind name subscribes =>
    simp only [step] at h
    split at h
    · cases h
    · rename_i hfresh
      obtain rfl := Option.some.inj h
      exact sound_start hs hfresh kind subscribes
  | actor i action =>
    simp only [step] at h
    cases hi : s.actors[i]? with
    | none => simp [hi] at h
    | some a =>
      simp only [hi] at h
      split at h
      · rename_i hpermits
        obtain ⟨⟨b, sent⟩, hstep, rfl⟩ := Option.map_eq_some_iff.mp h
        obtain ⟨hasks, hfresh⟩ := horderly a hi
        have hentry : a.Sound := hs.entries a (List.mem_of_getElem? hi)
        refine sound_actor hs hi hpermits (ActorEntry.step_spec hentry hasks hstep) ?_
        rintro pid rfl
        simp only [ActorEntry.step] at hstep
        split at hstep
        · obtain ⟨rfl, _⟩ := Prod.mk.inj (Option.some.inj hstep)
          exact hfresh
        · cases hstep
      · cases h
  | client pid uid topics =>
    simp only [step] at h
    split at h
    · rename_i hforeign
      obtain rfl := Option.some.inj h
      exact sound_client hs hforeign
    · cases h
  | beginWait kind timeoutIsZero =>
    simp only [step] at h
    split at h
    · cases h
    · split at h
      · obtain rfl := Option.some.inj h
        refine sound_returned hs ?_
        intro hreason
        cases hreason
      · obtain rfl := Option.some.inj h
        exact sound_beginWait hs kind
  | drain =>
    simp only [step] at h
    split at h
    · rename_i hwait
      obtain rfl := Option.some.inj h
      exact sound_drain hs hwait
    · cases h
  | absorb =>
    simp only [step] at h
    split at h
    · rename_i hwait
      obtain rfl := Option.some.inj h
      exact sound_absorb hs hwait
    · cases h
  | evaluate expired =>
    simp only [step] at h
    split at h
    · rename_i kind ledger hwait
      split at h
      · rename_i hready
        obtain rfl := Option.some.inj h
        exact sound_returned hs (ready_subscribed hs hwait (horderly _ hwait) hready)
      · split at h
        · obtain rfl := Option.some.inj h
          refine sound_returned hs ?_
          intro hreason
          cases hreason
        · obtain rfl := Option.some.inj h
          exact sound_again hs hwait
    · cases h

/-- In every run of orderly steps, each ready return finds the running members of
its tier with every declared topic accepted. -/
theorem run_ready_subscribed {actions : List StartupAction}
    (horderly : Obeys (step policy) Orderly initial actions)
    (hrun : run (step policy) initial actions = some s) : ∀ r ∈ s.returns, r.Subscribed :=
  (run_invariant_of_obeys (fun _ _ _ hs ho h => step_sound hs ho h) initial_sound horderly
    hrun).returned

def auditPolicy : EnginePolicy where
  declarations := EmergentConfig.declarationTable
    { enforceDeclarations := .strict, sources := [], handlers := [],
      sinks := [⟨"audit", ["order.created", "timer.*"]⟩, ⟨"console", ["order.created"]⟩] }
  unmanagedNames := .ignored
  reporting := true

/-- A sink is registered, its child asks for its topics and makes its call. -/
def joins (i : ℕ) (name : String) (pid : Pid) : List StartupAction :=
  [.actor i (.spawn pid), .actor i .insert, .actor i (.connect (.primitive name)),
    .actor i (.discover (.primitive name)), .actor i (.subscribe [])]

/-- One round of the loop. -/
def round : List StartupAction := [.drain, .absorb, .evaluate false]

/-- The loop first finds `console` silent, and `audit` between its requests. -/
def patientStart : List StartupAction :=
  [.start .sink "audit" ["order.created", "timer.*"]] ++ joins 0 "audit" 41 ++
    [.start .sink "console" ["order.created"]] ++ joins 1 "console" 42 ++
    [.beginWait .sink false, .actor 0 (.request true)] ++ round ++
    [.actor 0 (.request true), .actor 1 (.request true)] ++ round

theorem run_ready_subscribed_patient :
    ∃ s, run (step auditPolicy) initial patientStart = some s ∧
      s.returns.map TierReturn.reason = [.ready] ∧ ∀ r ∈ s.returns, r.Subscribed := by
  have hends : (run (step auditPolicy) initial patientStart).map
      (fun s => s.returns.map TierReturn.reason) = some [.ready] := by
    decide +kernel
  obtain ⟨s, hrun, hreasons⟩ := Option.map_eq_some_iff.mp hends
  have horderly : Obeys (step auditPolicy) Orderly initial patientStart := by
    decide +kernel
  exact ⟨s, hrun, hreasons, run_ready_subscribed horderly hrun⟩

/-- The round falls between the two requests of `audit`. -/
def hastyStart : List StartupAction :=
  [.start .sink "audit" ["order.created", "timer.*"]] ++ joins 0 "audit" 41 ++
    [.beginWait .sink false, .actor 0 (.request true)] ++ round

/-- The tier is ready and `audit` is running, and `timer.*` is not accepted. -/
theorem ready_between_requests :
    ∃ s, run (step auditPolicy) initial hastyStart = some s ∧
      ∃ r ∈ s.returns, ¬ r.Subscribed := by
  have hends : (run (step auditPolicy) initial hastyStart).map
      (fun s => decide (∃ r ∈ s.returns, ¬ r.Subscribed)) = some true := by
    decide +kernel
  obtain ⟨s, hrun, hmissed⟩ := Option.map_eq_some_iff.mp hends
  exact ⟨s, hrun, of_decide_eq_true hmissed⟩

end Startup

end Emergent.Engine

import Emergent.Engine.ActorTokens
import Emergent.Kit.Modify

/-!
# What the pid watch shows

`Tracked` ties the pid watch to the children: from the publication of a pid
until its monitor clears it, the watch shows that child and no other is alive.
-/

namespace Emergent.Engine
open Kit

/-- The handle is with the spawn that made the child. -/
def ChildPhase.isHeld : ChildPhase → Bool
  | .alive (.spawn _) | .exited _ (.spawn _) => true
  | _ => false

/-- The monitor has the child and has not cleared the watch. -/
def ChildPhase.isMonitored : ChildPhase → Bool
  | .alive .monitor | .exited _ .monitor | .reaped _ => true
  | _ => false

def SpawnPoint.child : SpawnPoint → Option ℕ
  | .publish i _ | .report i _ | .broadcast i _ | .monitor i => some i
  | _ => none

/-- The spawn has begun and its process, if it has made one, is not published. -/
def SpawnPoint.unpublished : SpawnPoint → Bool
  | .announce | .create | .publish _ _ => true
  | _ => false

namespace PrimitiveActor

variable {config : PrimitiveActorConfig} {s t : PrimitiveActor}

def Keeps (s : PrimitiveActor) (attempt : Option UInt32) (i : ℕ) (pid : Pid) : Prop :=
  ∃ c, s.children[i]? = some c ∧ c.pid = pid ∧ c.attempt = attempt ∧ c.phase.isHeld = true

def Publishes (s : PrimitiveActor) (spawn : Spawn) : Prop :=
  match spawn.point with
  | .announce | .create | .failed _ | .failedEvent _ | .unidentified => True
  | .publish i pid => s.Keeps spawn.attempt i pid ∧ s.watch = none
  | .report i pid | .broadcast i pid => s.Keeps spawn.attempt i pid ∧ s.watch = some pid
  | .monitor i => ∃ pid, s.Keeps spawn.attempt i pid ∧ s.watch = some pid

structure Tracked (s : PrimitiveActor) : Prop where
  tokens : s.tokens ≤ 1
  boot : ∀ sp, s.boot = some sp → sp.attempt = none ∧ s.Publishes sp
  task : ∀ sp, s.task = .spawn sp → sp.attempt ≠ none ∧ s.Publishes sp
  monitored : ∀ (i : ℕ) c, s.children[i]? = some c → c.phase.isMonitored = true →
    s.watch = some c.pid
  held : ∀ (i : ℕ) c, s.children[i]? = some c → c.phase.isHeld = true →
    ∃ sp, (s.boot = some sp ∨ s.task = .spawn sp) ∧ sp.point.child = some i
  shown : ∀ pid, s.watch = some pid → ∃ (i : ℕ) (c : Child), s.children[i]? = some c ∧
    c.pid = pid ∧ (c.phase.isHeld = true ∨ c.phase.isMonitored = true)

theorem tracked_start : start.Tracked where
  tokens := by decide
  boot := by
    intro sp hsp
    cases hsp
    exact ⟨rfl, trivial⟩
  task := by
    intro sp hsp
    cases hsp
  monitored := by simp [start]
  held := by simp [start]
  shown := by simp [start]

theorem token_of_held {phase : ChildPhase} (h : phase.isHeld = true) : phase.token = 1 := by
  rcases phase with (_ | _ | _) | ⟨_, _ | _ | _⟩ | _ | _ | _ | _ <;>
    simp_all [ChildPhase.isHeld, ChildPhase.token]

theorem token_of_monitored {phase : ChildPhase} (h : phase.isMonitored = true) :
    phase.token = 1 := by
  rcases phase with (_ | _ | _) | ⟨_, _ | _ | _⟩ | _ | _ | _ | _ <;>
    simp_all [ChildPhase.isMonitored, ChildPhase.token]

theorem eq_of_tokens (htokens : s.tokens ≤ 1) {i j : ℕ} {c d : Child}
    (hc : s.children[i]? = some c) (hd : s.children[j]? = some d) (htc : c.phase.token = 1)
    (htd : d.phase.token = 1) : i = j := by
  by_contra hij
  have htwo : 2 ≤ tally Child.token s.children :=
    two_le_tally hij hc hd (le_of_eq htc.symm) (le_of_eq htd.symm)
  simp only [tokens, loose] at htokens
  omega

theorem tokens_of_child (htokens : s.tokens ≤ 1) {i : ℕ} {c : Child}
    (hc : s.children[i]? = some c) (ht : c.phase.token = 1) :
    s.bootToken = 0 ∧ s.task.token = 0 ∧ tally ActorMessage.token s.mailbox = 0 := by
  have hle : c.token ≤ tally Child.token s.children := weight_le_tally (List.mem_of_getElem? hc)
  have hone : c.token = 1 := ht
  simp only [tokens, loose] at htokens
  omega

theorem Publishes.transfer {sp : Spawn} (h : s.Publishes sp)
    (hkeeps : ∀ i p, s.Keeps sp.attempt i p → t.Keeps sp.attempt i p ∧ t.watch = s.watch) :
    t.Publishes sp := by
  unfold Publishes at h ⊢
  split at h
  · trivial
  · trivial
  · trivial
  · trivial
  · trivial
  · obtain ⟨hkept, hwatch⟩ := hkeeps _ _ h.1
    exact ⟨hkept, hwatch.trans h.2⟩
  · obtain ⟨hkept, hwatch⟩ := hkeeps _ _ h.1
    exact ⟨hkept, hwatch.trans h.2⟩
  · obtain ⟨hkept, hwatch⟩ := hkeeps _ _ h.1
    exact ⟨hkept, hwatch.trans h.2⟩
  · obtain ⟨pid, hp, hshown⟩ := h
    obtain ⟨hkept, hwatch⟩ := hkeeps _ _ hp
    exact ⟨pid, hkept, hwatch.trans hshown⟩

theorem keeps_unique (htokens : s.tokens ≤ 1) {a b : Option UInt32} {i j : ℕ} {p q : Pid}
    (hi : s.Keeps a i p) (hj : s.Keeps b j q) : i = j ∧ a = b := by
  obtain ⟨c, hc, _, hca, hch⟩ := hi
  obtain ⟨d, hd, _, hda, hdh⟩ := hj
  obtain rfl := eq_of_tokens htokens hc hd (token_of_held hch) (token_of_held hdh)
  obtain rfl : c = d := Option.some.inj (hc.symm.trans hd)
  exact ⟨rfl, hca.symm.trans hda⟩

theorem no_token_of_loose (hloose : s.loose = 0) {i : ℕ} {c : Child}
    (hc : s.children[i]? = some c) : c.phase.token ≠ 1 := by
  intro ht
  have hle : c.token ≤ tally Child.token s.children := weight_le_tally (List.mem_of_getElem? hc)
  have hone : c.token = 1 := ht
  simp only [loose] at hloose
  omega

theorem not_monitored_of_held {phase : ChildPhase} (h : phase.isHeld = true) :
    phase.isMonitored = false := by
  rcases phase with (_ | _ | _) | ⟨_, _ | _ | _⟩ | _ | _ | _ | _ <;>
    simp_all [ChildPhase.isHeld, ChildPhase.isMonitored]

theorem isHeld_announce (phase : ChildPhase) :
    phase.announce.isHeld = phase.isHeld ∧ phase.announce.isMonitored = phase.isMonitored := by
  rcases phase with (_ | _ | _) | ⟨_, _ | _ | _⟩ | _ | _ | _ | _ <;> exact ⟨rfl, rfl⟩

theorem isMonitored_watchOver {phase : ChildPhase} (h : phase.isHeld = true) :
    phase.watchOver.isHeld = false ∧ phase.watchOver.isMonitored = true := by
  rcases phase with (_ | _ | _) | ⟨_, _ | _ | _⟩ | _ | _ | _ | _ <;>
    simp_all [ChildPhase.isHeld, ChildPhase.isMonitored, ChildPhase.watchOver]

/-- What one step of a spawn does to the facts `Tracked` is made of. -/
structure Advanced (s : PrimitiveActor) (attempt : Option UInt32) (point : SpawnPoint)
    (t : PrimitiveActor) (next : Option SpawnPoint) : Prop where
  monitored : ∀ (i : ℕ) c, t.children[i]? = some c → c.phase.isMonitored = true →
    t.watch = some c.pid
  shown : ∀ pid, t.watch = some pid → ∃ (i : ℕ) (c : Child), t.children[i]? = some c ∧
    c.pid = pid ∧ (c.phase.isHeld = true ∨ c.phase.isMonitored = true)
  own : ∀ p, next = some p → t.Publishes ⟨attempt, p⟩
  other : ∀ sp, s.Publishes sp → sp.attempt ≠ attempt → t.Publishes sp
  held : ∀ (i : ℕ) c, t.children[i]? = some c → c.phase.isHeld = true →
    (∃ p, next = some p ∧ p.child = some i) ∨
      (∃ d, s.children[i]? = some d ∧ d.phase.isHeld = true ∧ point.child ≠ some i)

section
variable {attempt : Option UInt32} {point : SpawnPoint}

theorem Tracked.advanced_frame (hs : s.Tracked) {next : Option SpawnPoint}
    (hchildren : t.children = s.children) (hwatch : t.watch = s.watch)
    (hown : ∀ p, next = some p → t.Publishes ⟨attempt, p⟩)
    (hchild : ∀ i, point.child = some i → ∃ p, next = some p ∧ p.child = some i) :
    Advanced s attempt point t next := by
  refine ⟨?_, ?_, hown, ?_, ?_⟩
  · rw [hchildren, hwatch]
    exact hs.monitored
  · rw [hchildren, hwatch]
    exact hs.shown
  · intro sp hsp _
    refine hsp.transfer fun i p hkept => ⟨?_, hwatch⟩
    simpa only [Keeps, hchildren] using hkept
  · intro i c hc hheld
    rw [hchildren] at hc
    by_cases hi : point.child = some i
    · exact Or.inl (hchild i hi)
    · exact Or.inr ⟨c, hc, hheld, hi⟩

theorem Tracked.advanced_create (hs : s.Tracked) (config : PrimitiveActorConfig)
    (outcome : SpawnOutcome) (hloose : s.loose = 0) :
    Advanced s attempt .create (s.advance config attempt outcome .create).1
      (s.advance config attempt outcome .create).2 := by
  have hkeeps : ∀ a i p, ¬ s.Keeps a i p := by
    rintro a i p ⟨c, hc, _, _, hheld⟩
    exact no_token_of_loose hloose hc (token_of_held hheld)
  have hother : ∀ (t : PrimitiveActor) sp, s.Publishes sp → t.Publishes sp :=
    fun t sp hsp => hsp.transfer fun i p hkept => absurd hkept (hkeeps _ i p)
  have hold : ∀ (i : ℕ) (c : Child), s.children[i]? = some c →
      c.phase.isMonitored = false ∧ c.phase.isHeld = false := by
    intro i c hc
    constructor
    · rw [Bool.eq_false_iff]
      exact fun h => no_token_of_loose hloose hc (token_of_monitored h)
    · rw [Bool.eq_false_iff]
      exact fun h => no_token_of_loose hloose hc (token_of_held h)
  have hwatch : s.watch = none := by
    cases hw : s.watch with
    | none => rfl
    | some pid =>
      obtain ⟨i, c, hc, _, hshown⟩ := hs.shown pid hw
      rw [(hold i c hc).1, (hold i c hc).2] at hshown
      simp at hshown
  cases outcome with
  | failed error =>
    refine ⟨?_, fun pid h => (by cases h), ?_, fun sp hsp _ => hother _ sp hsp, ?_⟩
    · intro i c hc hm
      rw [(hold i c hc).1] at hm
      cases hm
    · intro p hp
      cases hp
      trivial
    · intro i c hc hheld
      rw [(hold i c hc).2] at hheld
      cases hheld
  | unidentified pid =>
    refine ⟨?_, fun pid h => (by cases h), ?_, fun sp hsp _ => hother _ sp hsp, ?_⟩
    · intro i c hc hm
      rcases getElem?_snoc_cases hc with hc' | ⟨_, rfl⟩
      · rw [(hold i c hc').1] at hm
        cases hm
      · cases hm
    · intro p hp
      cases hp
      trivial
    · intro i c hc hheld
      rcases getElem?_snoc_cases hc with hc' | ⟨_, rfl⟩
      · rw [(hold i c hc').2] at hheld
        cases hheld
      · cases hheld
  | created pid =>
    refine ⟨?_, ?_, ?_, fun sp hsp _ => hother _ sp hsp, ?_⟩
    · intro i c hc hm
      rcases getElem?_snoc_cases hc with hc' | ⟨_, rfl⟩
      · rw [(hold i c hc').1] at hm
        cases hm
      · cases hm
    · intro p hp
      have hnone : s.watch = some p := hp
      rw [hwatch] at hnone
      cases hnone
    · intro p hp
      cases hp
      exact ⟨⟨⟨pid, attempt, .alive (.spawn false)⟩, by simp [advance], rfl, rfl, rfl⟩, hwatch⟩
    · intro i c hc hheld
      rcases getElem?_snoc_cases hc with hc' | ⟨hi, rfl⟩
      · rw [(hold i c hc').2] at hheld
        cases hheld
      · exact Or.inl ⟨_, rfl, by rw [hi]; rfl⟩

theorem Tracked.advanced_edit (hs : s.Tracked) {next : Option SpawnPoint} {i : ℕ} {pid : Pid}
    {edit : ChildPhase → ChildPhase} (hpoint : point.child = some i)
    (hkept : s.Keeps attempt i pid) (hwatch : s.watch = some pid)
    (hchildren : t.children = s.children.modify i fun c => { c with phase := edit c.phase })
    (hsame : t.watch = s.watch)
    (hedit : ∀ phase : ChildPhase, phase.isHeld = true →
      (edit phase).isHeld = true ∨ (edit phase).isMonitored = true)
    (hstays : ∀ phase : ChildPhase, phase.isHeld = true → (edit phase).isHeld = true →
      ∃ p, next = some p ∧ p.child = some i)
    (hown : ∀ p, next = some p → t.Publishes ⟨attempt, p⟩) :
    Advanced s attempt point t next := by
  obtain ⟨c, hc, rfl, rfl, hheld⟩ := hkept
  have hback : ∀ (j : ℕ) d, t.children[j]? = some d →
      (j = i ∧ d = { c with phase := edit c.phase }) ∨ (j ≠ i ∧ s.children[j]? = some d) := by
    intro j d hd
    rw [hchildren] at hd
    exact getElem?_modify_known hc hd
  refine ⟨?_, ?_, hown, ?_, ?_⟩
  · intro j d hd hm
    rw [hsame]
    rcases hback j d hd with ⟨rfl, rfl⟩ | ⟨_, he⟩
    · exact hwatch
    · exact hs.monitored j d he hm
  · intro p hp
    rw [hsame, hwatch] at hp
    cases hp
    refine ⟨i, { c with phase := edit c.phase }, ?_, rfl, hedit c.phase hheld⟩
    rw [hchildren]
    exact getElem?_modify_self hc
  · intro sp hsp hne
    refine hsp.transfer fun j p hkept => ?_
    exact absurd (keeps_unique hs.tokens hkept ⟨c, hc, rfl, rfl, hheld⟩).2 hne
  · intro j d hd hdheld
    rcases hback j d hd with ⟨rfl, rfl⟩ | ⟨hne, he⟩
    · exact Or.inl (hstays c.phase hheld hdheld)
    · refine Or.inr ⟨d, he, hdheld, ?_⟩
      rw [hpoint]
      exact fun h => hne (Option.some.inj h).symm

theorem Tracked.advance (hs : s.Tracked) (config : PrimitiveActorConfig)
    (outcome : SpawnOutcome) (hpub : s.Publishes ⟨attempt, point⟩)
    (hloose : s.loose + point.token ≤ 1) :
    Advanced s attempt point (s.advance config attempt outcome point).1
      (s.advance config attempt outcome point).2 := by
  cases point with
  | announce =>
    refine hs.advanced_frame rfl rfl ?_ (fun i h => by cases h)
    intro p hp
    cases hp
    trivial
  | create =>
    have hzero : s.loose = 0 := by simp only [SpawnPoint.token] at hloose; omega
    exact hs.advanced_create config outcome hzero
  | failed error =>
    refine hs.advanced_frame rfl rfl ?_ (fun i h => by cases h)
    intro p hp
    cases hp
    trivial
  | failedEvent error =>
    exact hs.advanced_frame rfl rfl (fun p hp => by cases hp) (fun i h => by cases h)
  | unidentified =>
    exact hs.advanced_frame rfl rfl (fun p hp => by cases hp) (fun i h => by cases h)
  | publish i pid =>
    obtain ⟨⟨c, hc, hcp, hca, hheld⟩, _⟩ := hpub
    have hunique : ∀ (j : ℕ) d, s.children[j]? = some d → d.phase.isMonitored = false := by
      intro j d hd
      rw [Bool.eq_false_iff]
      intro hm
      obtain rfl := eq_of_tokens hs.tokens hc hd (token_of_held hheld) (token_of_monitored hm)
      obtain rfl : c = d := Option.some.inj (hc.symm.trans hd)
      rw [not_monitored_of_held hheld] at hm
      cases hm
    refine ⟨?_, ?_, ?_, ?_, ?_⟩
    · intro j d hd hm
      rw [hunique j d hd] at hm
      cases hm
    · intro p hp
      cases hp
      exact ⟨i, c, hc, hcp, Or.inl hheld⟩
    · intro p hp
      cases hp
      exact ⟨⟨c, hc, hcp, hca, hheld⟩, rfl⟩
    · intro sp hsp hne
      refine hsp.transfer fun j p hkept => ?_
      exact absurd (keeps_unique hs.tokens hkept ⟨c, hc, hcp, hca, hheld⟩).2 hne
    · intro j d hd hdheld
      by_cases hij : j = i
      · exact Or.inl ⟨_, rfl, by rw [hij]; rfl⟩
      · exact Or.inr ⟨d, hd, hdheld, fun h => hij (Option.some.inj h).symm⟩
  | report i pid =>
    refine hs.advanced_frame rfl rfl ?_ (fun j h => ⟨_, rfl, h⟩)
    intro p hp
    cases hp
    exact hpub
  | broadcast i pid =>
    obtain ⟨hkept, hwatch⟩ := hpub
    refine hs.advanced_edit rfl hkept hwatch rfl rfl ?_ (fun _ _ _ => ⟨_, rfl, rfl⟩) ?_
    · exact fun phase h => Or.inl ((isHeld_announce phase).1.trans h)
    · intro p hp
      cases hp
      obtain ⟨c, hc, hcp, hca, hheld⟩ := hkept
      exact ⟨pid, ⟨{ c with phase := c.phase.announce }, getElem?_modify_self hc, hcp, hca,
        (isHeld_announce c.phase).1.trans hheld⟩, hwatch⟩
  | monitor i =>
    obtain ⟨pid, hkept, hwatch⟩ := hpub
    refine hs.advanced_edit rfl hkept hwatch rfl rfl ?_ ?_ (fun p hp => by cases hp)
    · exact fun phase h => Or.inr (isMonitored_watchOver h).2
    · intro phase h hnew
      rw [(isMonitored_watchOver h).1] at hnew
      cases hnew

end

theorem Tracked.bootStep (hs : s.Tracked) {outcome : SpawnOutcome}
    (h : s.bootStep config outcome = some t) : t.Tracked := by
  have htokens : t.tokens ≤ 1 := (bootStep_tokens h).trans hs.tokens
  obtain ⟨sp, hboot, rfl⟩ := Option.map_eq_some_iff.mp h
  obtain ⟨hattempt, hpub⟩ := hs.boot sp hboot
  obtain ⟨_, htask, _, _⟩ := advance_futures config s sp.attempt outcome sp.point
  have hloose := loose_of_boot hs.tokens hboot
  have hadv : Advanced s sp.attempt sp.point _ _ :=
    hs.advance config outcome hpub hloose
  refine ⟨htokens, ?_, ?_, hadv.monitored, ?_, hadv.shown⟩
  · intro sp' hsp'
    obtain ⟨point, hpoint, rfl⟩ := Option.map_eq_some_iff.mp hsp'
    exact ⟨hattempt, hadv.own point hpoint⟩
  · intro sp' hsp'
    obtain ⟨hne, hpub'⟩ := hs.task sp' (htask ▸ hsp')
    exact ⟨hne, hadv.other sp' hpub' (by rw [hattempt]; exact hne)⟩
  · intro i c hc hheld
    rcases hadv.held i c hc hheld with ⟨p, hp, hpi⟩ | ⟨d, hd, hdheld, hnot⟩
    · exact ⟨⟨sp.attempt, p⟩, Or.inl (by simp [hp]), hpi⟩
    · obtain ⟨sp', hsp' | hsp', hchild⟩ := hs.held i d hd hdheld
      · obtain rfl : sp = sp' := Option.some.inj (hboot.symm.trans hsp')
        exact absurd hchild hnot
      · exact ⟨sp', Or.inr (htask.trans hsp'), hchild⟩

theorem Tracked.taskStep (hs : s.Tracked) {outcome : SpawnOutcome}
    (h : s.taskStep config outcome = some t) : t.Tracked := by
  have htokens : t.tokens ≤ 1 := (taskStep_tokens h).trans hs.tokens
  -- the two other futures hold no child and leave the children alone
  have hplain : (∀ sp, s.task ≠ .spawn sp) → t.children = s.children → t.watch = s.watch →
      t.boot = s.boot → (∀ sp, t.task ≠ .spawn sp) → t.Tracked := by
    intro hold hchildren hwatch hboot hnew
    refine ⟨htokens, ?_, fun sp hsp => absurd hsp (hnew sp), ?_, ?_, ?_⟩
    · intro sp hsp
      obtain ⟨hnone, hpub⟩ := hs.boot sp (hboot ▸ hsp)
      refine ⟨hnone, hpub.transfer fun i p hkept => ⟨?_, hwatch⟩⟩
      simpa only [Keeps, hchildren] using hkept
    · rw [hchildren, hwatch]
      exact hs.monitored
    · intro i c hc hheld
      rw [hchildren] at hc
      obtain ⟨sp, hsp | hsp, hchild⟩ := hs.held i c hc hheld
      · exact ⟨sp, Or.inl (hboot.trans hsp), hchild⟩
      · exact absurd hsp (hold sp)
    · rw [hchildren, hwatch]
      exact hs.shown
  rcases taskStep_cases h with ⟨sp, htask, rfl⟩ | ⟨attempt, htask, rfl⟩ | ⟨reason, htask, rfl⟩
  · obtain ⟨hattempt, hpub⟩ := hs.task sp htask
    obtain ⟨hboot, _, _, _⟩ := advance_futures config s sp.attempt outcome sp.point
    have hloose := loose_of_task hs.tokens htask
    have hadv : Advanced s sp.attempt sp.point _ _ :=
      hs.advance config outcome hpub hloose
    refine ⟨htokens, ?_, ?_, hadv.monitored, ?_, hadv.shown⟩
    · intro sp' hsp'
      obtain ⟨hnone, hpub'⟩ := hs.boot sp' (hboot ▸ hsp')
      exact ⟨hnone, hadv.other sp' hpub' (by rw [hnone]; exact hattempt.symm)⟩
    · intro sp' hsp'
      cases hpoint : (s.advance config sp.attempt outcome sp.point).2 with
      | none =>
        simp only [hpoint] at hsp'
        cases hsp'
      | some point =>
        simp only [hpoint, Option.map_some, Option.getD_some, Awaited.spawn.injEq] at hsp'
        subst hsp'
        exact ⟨hattempt, hadv.own point hpoint⟩
    · intro i c hc hheld
      rcases hadv.held i c hc hheld with ⟨p, hp, hpi⟩ | ⟨d, hd, hdheld, hnot⟩
      · exact ⟨⟨sp.attempt, p⟩, Or.inr (by simp [hp]), hpi⟩
      · obtain ⟨sp', hsp' | hsp', hchild⟩ := hs.held i d hd hdheld
        · exact ⟨sp', Or.inl (hboot.trans hsp'), hchild⟩
        · rw [htask] at hsp'
          obtain rfl : sp = sp' := Awaited.spawn.inj hsp'
          exact absurd hchild hnot
  · exact hplain (by simp [htask]) rfl rfl rfl (by simp)
  · exact hplain (by simp [htask]) rfl rfl rfl (by simp)

/-- A child changes its phase while the futures and the mailbox stay: the watch
is either left alone or cleared together with the only child it could show. -/
theorem Tracked.rephase (hs : s.Tracked) (htokens : t.tokens ≤ 1) {i : ℕ} {c : Child}
    {phase : ChildPhase} (hc : s.children[i]? = some c)
    (hchildren : t.children = s.children.modify i fun c => { c with phase := phase })
    (hboot : t.boot = s.boot) (htask : t.task = s.task)
    (hheld : phase.isHeld = c.phase.isHeld)
    (hwatch : (t.watch = s.watch ∧ phase.isMonitored = c.phase.isMonitored) ∨
      (t.watch = none ∧ c.phase.isMonitored = true ∧ phase.isMonitored = false)) :
    t.Tracked := by
  have hback : ∀ (j : ℕ) d, t.children[j]? = some d →
      (j = i ∧ d = { c with phase := phase }) ∨ (j ≠ i ∧ s.children[j]? = some d) := by
    intro j d hd
    rw [hchildren] at hd
    exact getElem?_modify_known hc hd
  have hkeeps : ∀ a j p, s.Keeps a j p → t.Keeps a j p := by
    rintro a j p ⟨d, hd, hp, ha, hdheld⟩
    by_cases hij : i = j
    · subst hij
      obtain rfl : c = d := Option.some.inj (hc.symm.trans hd)
      exact ⟨{ c with phase := phase }, by rw [hchildren]; exact getElem?_modify_self hc, hp, ha,
        hheld.trans hdheld⟩
    · exact ⟨d, by rw [hchildren]; exact (getElem?_modify_of_ne hij).trans hd, hp, ha, hdheld⟩
  have hpublishes : ∀ sp, s.Publishes sp → t.Publishes sp := by
    intro sp hsp
    refine hsp.transfer fun j p hkept => ⟨hkeeps _ j p hkept, ?_⟩
    rcases hwatch with ⟨hsame, _⟩ | ⟨_, hm, _⟩
    · exact hsame
    · -- a kept child and a monitored one cannot both have the token
      obtain ⟨d, hd, _, _, hdheld⟩ := hkept
      obtain rfl := eq_of_tokens hs.tokens hc hd (token_of_monitored hm) (token_of_held hdheld)
      obtain rfl : c = d := Option.some.inj (hc.symm.trans hd)
      rw [not_monitored_of_held hdheld] at hm
      cases hm
  refine ⟨htokens, ?_, ?_, ?_, ?_, ?_⟩
  · intro sp hsp
    obtain ⟨hnone, hpub⟩ := hs.boot sp (hboot ▸ hsp)
    exact ⟨hnone, hpublishes sp hpub⟩
  · intro sp hsp
    obtain ⟨hne, hpub⟩ := hs.task sp (htask ▸ hsp)
    exact ⟨hne, hpublishes sp hpub⟩
  · intro j d hd hm
    rcases hwatch with ⟨hsame, hmon⟩ | ⟨_, hm', hmon⟩
    · rw [hsame]
      rcases hback j d hd with ⟨rfl, rfl⟩ | ⟨_, he⟩
      · exact hs.monitored j c hc (hmon ▸ hm)
      · exact hs.monitored j d he hm
    · rcases hback j d hd with ⟨rfl, rfl⟩ | ⟨hne, he⟩
      · rw [hmon] at hm
        cases hm
      · exact absurd (eq_of_tokens hs.tokens he hc (token_of_monitored hm)
          (token_of_monitored hm')) hne
  · intro j d hd hdheld
    rw [hboot, htask]
    rcases hback j d hd with ⟨rfl, rfl⟩ | ⟨_, he⟩
    · exact hs.held j c hc (hheld ▸ hdheld)
    · exact hs.held j d he hdheld
  · intro p hp
    rcases hwatch with ⟨hsame, hmon⟩ | ⟨hnone, _, _⟩
    · rw [hsame] at hp
      obtain ⟨j, d, hd, hdp, hshown⟩ := hs.shown p hp
      by_cases hij : i = j
      · subst hij
        obtain rfl : c = d := Option.some.inj (hc.symm.trans hd)
        refine ⟨i, { c with phase := phase }, by rw [hchildren]; exact getElem?_modify_self hc,
          hdp, ?_⟩
        exact hshown.imp (fun h => hheld.trans h) (fun h => hmon.trans h)
      · exact ⟨j, d, by rw [hchildren]; exact (getElem?_modify_of_ne hij).trans hd, hdp, hshown⟩
    · rw [hnone] at hp
      cases hp

theorem Tracked.deliver (hs : s.Tracked) (htokens : t.tokens ≤ 1) {nowMs : UInt64}
    (h : s.deliver config nowMs = some t) : t.Tracked := by
  obtain ⟨message, mailbox, _, hidle, rfl⟩ := deliver_cases h
  obtain ⟨_, hchildren, hwatch, _, hboot, _, _, hspawns⟩ := handled config
    (s := { s with mailbox := mailbox }) nowMs message hidle
  refine ⟨htokens, ?_, ?_, ?_, ?_, ?_⟩
  · intro sp hsp
    obtain ⟨hnone, hpub⟩ := hs.boot sp (hboot ▸ hsp)
    refine ⟨hnone, hpub.transfer fun i p hkept => ⟨?_, hwatch⟩⟩
    simpa only [Keeps, hchildren] using hkept
  · intro sp hsp
    obtain ⟨_, attempt, _, rfl⟩ := hspawns sp hsp
    exact ⟨by simp, trivial⟩
  · rw [hchildren, hwatch]
    exact hs.monitored
  · intro i c hc hheld
    rw [hchildren] at hc
    obtain ⟨sp, hsp | hsp, hchild⟩ := hs.held i c hc hheld
    · exact ⟨sp, Or.inl (hboot.trans hsp), hchild⟩
    · rw [hidle] at hsp
      cases hsp
  · rw [hchildren, hwatch]
    exact hs.shown

theorem Tracked.step (hs : s.Tracked) {a : ActorAction} (h : s.step config a = some t) :
    t.Tracked := by
  have htokens : t.tokens ≤ 1 := (step_tokens h).trans hs.tokens
  cases a with
  | send request =>
    obtain rfl := Option.some.inj h
    exact ⟨htokens, hs.boot, hs.task, hs.monitored, hs.held, hs.shown⟩
  | deliver nowMs => exact hs.deliver htokens h
  | bootStep outcome => exact hs.bootStep h
  | taskStep outcome => exact hs.taskStep h
  | exit i status =>
    obtain ⟨c, holder, hc, hphase, rfl⟩ := step_exit_cases h
    refine hs.rephase htokens hc rfl rfl rfl ?_ (Or.inl ⟨rfl, ?_⟩)
    · rw [hphase]
      cases holder <;> rfl
    · rw [hphase]
      cases holder <;> rfl
  | monitorStep i =>
    obtain ⟨c, hc, h⟩ := Option.bind_eq_some_iff.mp h
    obtain ⟨status, ⟨hphase, rfl⟩ | ⟨hphase, rfl⟩ | ⟨hphase, rfl⟩ | ⟨hphase, rfl⟩⟩ :=
      monitorStep_cases h
    · exact hs.rephase htokens hc rfl rfl rfl (by rw [hphase]; rfl)
        (Or.inl ⟨rfl, by rw [hphase]; rfl⟩)
    · exact hs.rephase htokens hc rfl rfl rfl (by rw [hphase]; rfl)
        (Or.inr ⟨rfl, by rw [hphase]; rfl, rfl⟩)
    · exact hs.rephase htokens hc rfl rfl rfl (by rw [hphase]; rfl)
        (Or.inl ⟨rfl, by rw [hphase]; rfl⟩)
    · exact hs.rephase htokens hc rfl rfl rfl (by rw [hphase]; rfl)
        (Or.inl ⟨rfl, by rw [hphase]; rfl⟩)
  | waitFails i =>
    obtain ⟨c, hc, h⟩ := Option.bind_eq_some_iff.mp h
    rcases loseChild_cases h with ⟨hphase, rfl⟩ | ⟨status, hphase, rfl⟩
    · exact hs.rephase htokens hc rfl rfl rfl (by rw [hphase]; rfl)
        (Or.inr ⟨rfl, by rw [hphase]; rfl, rfl⟩)
    · exact hs.rephase htokens hc rfl rfl rfl (by rw [hphase]; rfl)
        (Or.inr ⟨rfl, by rw [hphase]; rfl, rfl⟩)
  | kill pid =>
    obtain rfl := Option.some.inj h
    exact ⟨htokens, hs.boot, hs.task, hs.monitored, hs.held, hs.shown⟩
  | requestStop =>
    obtain rfl := Option.some.inj h
    exact ⟨htokens, hs.boot, hs.task, hs.monitored, hs.held, hs.shown⟩
  | terminate =>
    obtain ⟨signals, _, rfl⟩ := step_terminate_cases h
    exact ⟨htokens, hs.boot, hs.task, hs.monitored, hs.held, hs.shown⟩

/-! ### The sequence of values -/

def WatchMove (s t : PrimitiveActor) : Prop :=
  t.watch = s.watch ∨ t.watch = none ∨ s.watch = none

theorem advance_watchMove {sp : Spawn} (hpub : s.Publishes sp) (outcome : SpawnOutcome) :
    WatchMove s (s.advance config sp.attempt outcome sp.point).1 := by
  obtain ⟨attempt, point⟩ := sp
  cases point with
  | create =>
    cases outcome with
    | failed error => exact Or.inr (Or.inl rfl)
    | unidentified pid => exact Or.inr (Or.inl rfl)
    | created pid => exact Or.inl rfl
  | publish i pid => exact Or.inr (Or.inr hpub.2)
  | _ => exact Or.inl rfl

/-- No pid is published over another: a child is published only after the exit of
the one before. -/
theorem Tracked.step_watchMove (hs : s.Tracked) {a : ActorAction}
    (h : s.step config a = some t) : WatchMove s t := by
  cases a with
  | send request =>
    obtain rfl := Option.some.inj h
    exact Or.inl rfl
  | deliver nowMs =>
    obtain ⟨message, mailbox, _, hidle, rfl⟩ := deliver_cases h
    exact Or.inl (handled config (s := { s with mailbox := mailbox }) nowMs message hidle).watch
  | bootStep outcome =>
    obtain ⟨sp, hboot, rfl⟩ := Option.map_eq_some_iff.mp h
    exact advance_watchMove (hs.boot sp hboot).2 outcome
  | taskStep outcome =>
    rcases taskStep_cases h with ⟨sp, htask, rfl⟩ | ⟨attempt, _, rfl⟩ | ⟨reason, _, rfl⟩
    · exact advance_watchMove (hs.task sp htask).2 outcome
    · exact Or.inl rfl
    · exact Or.inl rfl
  | exit i status =>
    obtain ⟨c, holder, _, _, rfl⟩ := step_exit_cases h
    exact Or.inl rfl
  | monitorStep i =>
    obtain ⟨c, _, h⟩ := Option.bind_eq_some_iff.mp h
    obtain ⟨status, ⟨_, rfl⟩ | ⟨_, rfl⟩ | ⟨_, rfl⟩ | ⟨_, rfl⟩⟩ := monitorStep_cases h
    · exact Or.inl rfl
    · exact Or.inr (Or.inl rfl)
    · exact Or.inl rfl
    · exact Or.inl rfl
  | waitFails i =>
    obtain ⟨c, _, h⟩ := Option.bind_eq_some_iff.mp h
    rcases loseChild_cases h with ⟨_, rfl⟩ | ⟨status, _, rfl⟩
    · exact Or.inr (Or.inl rfl)
    · exact Or.inr (Or.inl rfl)
  | kill pid =>
    obtain rfl := Option.some.inj h
    exact Or.inl rfl
  | requestStop =>
    obtain rfl := Option.some.inj h
    exact Or.inl rfl
  | terminate =>
    obtain ⟨signals, _, rfl⟩ := step_terminate_cases h
    exact Or.inl rfl

end PrimitiveActor

end Emergent.Engine

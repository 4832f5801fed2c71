import Emergent.Engine.Revocation

/-!
# What a revocation does to frames on the way

A child writes publish frames to its connections and exits. The engine's reader
of each connection takes them off one by one and hands them to the broker, on a
task of its own; the monitor clears the pid and the exit watcher revokes. acton's
`revoke_connection` closes the socket and cancels the work not yet processed, so
what is unread or in the reader's hand at that moment is gone.

The watch, its task and the registry are those of `Slot`.
-/

namespace Emergent.Engine
open Kit

/-- One connection: what the child wrote to it, and where those frames are. -/
structure Wire (φ : Type) where
  written : List φ
  unread : List φ
  inHand : Option φ
  handed : List φ

namespace Wire

variable {φ : Type}

def fresh : Wire φ := ⟨[], [], none, []⟩

def write (w : Wire φ) (frame : φ) : Wire φ :=
  { w with written := w.written ++ [frame], unread := w.unread ++ [frame] }

def read (w : Wire φ) : Option (Wire φ) :=
  match w.inHand, w.unread with
  | none, frame :: rest => some { w with unread := rest, inHand := some frame }
  | _, _ => none

def hand (w : Wire φ) : Option (Wire φ) :=
  w.inHand.map fun frame => { w with inHand := none, handed := w.handed ++ [frame] }

def revoke (w : Wire φ) : Wire φ := { w with unread := [], inHand := none }

/-- Nothing is unread or in hand. -/
def settled (w : Wire φ) : Bool := w.unread.isEmpty && w.inHand.isNone

/-- No frame is lost, none is there twice and none overtakes another. -/
def Conserved (w : Wire φ) : Prop := w.written = w.handed ++ w.inHand.toList ++ w.unread

end Wire

structure Link (φ : Type) where
  slot : Slot
  running : Bool
  nextId : ConnectionId
  wires : ConnectionId → Wire φ

inductive LinkAction (φ : Type) where
  | slot (a : SlotAction)
  /-- The running child opens a connection, and resolution names it. -/
  | connect
  | write (id : ConnectionId) (frame : φ)
  | exit
  | read (id : ConnectionId)
  | hand (id : ConnectionId)
  deriving DecidableEq

namespace Link

variable {φ : Type}

def start (name : String) : Link φ := ⟨.start name, false, 0, fun _ => .fresh⟩

def isOpen (s : Link φ) (id : ConnectionId) : Bool :=
  s.slot.connections.any fun c => c.id = id && c.isOpen

def awaitsRecord (s : Link φ) (id : ConnectionId) : Bool := s.slot.pending.any fun a => a.id = id

/-- The id the watcher's next `revoke` is about. -/
def revoking (s : Link φ) : Option ConnectionId :=
  match s.slot.phase with
  | .revoking _ (id :: _) => some id
  | _ => none

-- the monitor clears once the child has been waited for; a connection ends by
-- itself when the reader has come to the end of what was written on it
def allows (s : Link φ) : SlotAction → Bool
  | .publish _ | .clear => !s.running
  | .close id => (s.wires id).settled
  | .abandon k => s.slot.pending[k]?.all fun a => (s.wires a.id).settled
  | _ => true

def afterSlot (s : Link φ) (slot : Slot) : SlotAction → Link φ
  | .publish _ => { s with slot := slot, running := true }
  | .revokeNext =>
    { s with
      slot := slot
      wires := match s.revoking with
        | some id => Function.update s.wires id (s.wires id).revoke
        | none => s.wires }
  | _ => { s with slot := slot }

def step (s : Link φ) : LinkAction φ → Option (Link φ)
  | .slot a => if s.allows a then (s.slot.step a).map fun slot => s.afterSlot slot a else none
  | .connect =>
    if s.running = true ∧ s.slot.watch.isSome = true then
      some { s with
        slot := { s.slot with pending := s.slot.pending ++ [⟨s.nextId, s.slot.generation⟩] }
        nextId := s.nextId + 1 }
    else none
  | .write id frame =>
    if s.running = true ∧ (s.isOpen id = true ∨ s.awaitsRecord id = true) then
      some { s with wires := Function.update s.wires id ((s.wires id).write frame) }
    else none
  | .exit => if s.running then some { s with running := false } else none
  | .read id =>
    if s.isOpen id then
      (s.wires id).read.map fun w => { s with wires := Function.update s.wires id w }
    else none
  | .hand id => (s.wires id).hand.map fun w => { s with wires := Function.update s.wires id w }

/-- A connection is revoked once its reader has handed over all that was written
on it. -/
def ReaderFirst (s : Link φ) : LinkAction φ → Prop
  | .slot .revokeNext => ∀ id ∈ s.revoking, (s.wires id).settled = true
  | _ => True

instance (s : Link φ) (a : LinkAction φ) : Decidable (s.ReaderFirst a) :=
  match a with
  | .slot .revokeNext => inferInstanceAs (Decidable (∀ id ∈ s.revoking, _))
  | .slot (.publish _) | .slot .clear | .slot .watchStart | .slot .watchRead | .slot .takeIds
  | .slot (.record _) | .slot (.abandon _) | .slot (.close _)
  | .connect | .write _ _ | .exit | .read _ | .hand _ => isTrue trivial

end Link

/-! ### Nothing is lost while the reader comes first -/

namespace Wire

variable {φ : Type} {w v : Wire φ}

theorem Conserved.write (hw : w.Conserved) (frame : φ) : (w.write frame).Conserved := by
  have hw' : w.written = w.handed ++ w.inHand.toList ++ w.unread := hw
  simp only [Conserved, Wire.write, hw', List.append_assoc]

theorem Conserved.read (hw : w.Conserved) (h : w.read = some v) : v.Conserved := by
  have hw' : w.written = w.handed ++ w.inHand.toList ++ w.unread := hw
  unfold Wire.read at h
  split at h
  · rename_i frame rest hhand hunread
    obtain rfl := Option.some.inj h
    simp only [Conserved, hw', hhand, hunread, Option.toList_none, Option.toList_some,
      List.append_nil, List.append_assoc, List.singleton_append]
  · cases h

theorem Conserved.hand (hw : w.Conserved) (h : w.hand = some v) : v.Conserved := by
  have hw' : w.written = w.handed ++ w.inHand.toList ++ w.unread := hw
  obtain ⟨frame, hhand, rfl⟩ := Option.map_eq_some_iff.mp h
  simp only [Conserved, hw', hhand, Option.toList_none, Option.toList_some, List.append_nil]

theorem settled_iff : w.settled = true ↔ w.unread = [] ∧ w.inHand = none := by
  simp only [settled, Bool.and_eq_true, List.isEmpty_iff, Option.isNone_iff_eq_none]

theorem revoke_of_settled (hw : w.settled = true) : w.revoke = w := by
  obtain ⟨hunread, hhand⟩ := settled_iff.mp hw
  simp only [revoke, ← hunread, ← hhand]

theorem Conserved.handed_of_settled (hw : w.Conserved) (hsettled : w.settled = true) :
    w.handed = w.written := by
  obtain ⟨hunread, hhand⟩ := settled_iff.mp hsettled
  have hw' : w.written = w.handed ++ w.inHand.toList ++ w.unread := hw
  simp only [hw', hhand, hunread, Option.toList_none, List.append_nil]

end Wire

namespace Link

variable {φ : Type} {s t : Link φ}

/-- Each connection with something left on it is open or about to be. -/
structure Intact (s : Link φ) : Prop where
  conserved : ∀ id, (s.wires id).Conserved
  reached : ∀ id, (s.wires id).settled = true ∨ s.isOpen id = true ∨ s.awaitsRecord id = true

theorem intact_start (name : String) : (start name : Link φ).Intact where
  conserved := fun _ => rfl
  reached := fun _ => Or.inl rfl

theorem isOpen_iff {id : ConnectionId} :
    s.isOpen id = true ↔ ∃ c ∈ s.slot.connections, c.id = id ∧ c.isOpen = true := by
  simp only [isOpen, List.any_eq_true, Bool.and_eq_true, decide_eq_true_eq]

theorem awaitsRecord_iff {id : ConnectionId} :
    s.awaitsRecord id = true ↔ ∃ a ∈ s.slot.pending, a.id = id := by
  simp only [awaitsRecord, List.any_eq_true, decide_eq_true_eq]

theorem isOpen_of_closed_other {conns : List HeldConnection} {id other : ConnectionId}
    (hne : id ≠ other) (h : ∃ c ∈ conns, c.id = id ∧ c.isOpen = true) :
    ∃ c ∈ conns.map (Slot.closeConnection other), c.id = id ∧ c.isOpen = true := by
  obtain ⟨c, hc, hid, hopen⟩ := h
  have hkept : Slot.closeConnection other c = c := if_neg (by rw [hid]; exact hne)
  exact ⟨c, List.mem_map.mpr ⟨c, hc, hkept⟩, hid, hopen⟩

theorem mem_eraseIdx_or {α : Type} {l : List α} {x : α} (k : ℕ) (hx : x ∈ l) :
    l[k]? = some x ∨ x ∈ l.eraseIdx k := by
  rw [List.mem_eraseIdx_iff_getElem?]
  obtain ⟨i, hi⟩ := List.mem_iff_getElem?.mp hx
  by_cases hik : i = k
  · exact Or.inl (hik ▸ hi)
  · exact Or.inr ⟨i, hik, hi⟩

/-- A step of the slot closes no connection with something left on it, as long as
it is no revocation of such a connection. -/
theorem reached_afterSlot {a : SlotAction} {slot : Slot} {id : ConnectionId}
    (hallowed : s.allows a = true) (hguard : s.ReaderFirst (.slot a))
    (h : s.slot.step a = some slot) (hleft : ¬ (s.wires id).settled = true)
    (hreached : s.isOpen id = true ∨ s.awaitsRecord id = true) :
    (s.afterSlot slot a).isOpen id = true ∨ (s.afterSlot slot a).awaitsRecord id = true := by
  rw [isOpen_iff, awaitsRecord_iff] at hreached ⊢
  cases a with
  | publish pid =>
    simp only [Slot.step] at h
    split_ifs at h
    obtain rfl := Option.some.inj h
    exact hreached
  | clear =>
    obtain rfl := Option.some.inj h
    exact hreached
  | watchStart =>
    simp only [Slot.step] at h
    split_ifs at h
    obtain rfl := Option.some.inj h
    exact hreached
  | watchRead =>
    simp only [Slot.step] at h
    split_ifs at h
    split at h
    · obtain rfl := Option.some.inj h
      exact hreached
    · obtain rfl := Option.some.inj h
      exact hreached
  | takeIds =>
    simp only [Slot.step] at h
    split at h
    · obtain rfl := Option.some.inj h
      exact hreached
    · cases h
  | revokeNext =>
    simp only [Slot.step] at h
    split at h
    · obtain rfl := Option.some.inj h
      exact hreached
    · rename_i child other ids hphase
      obtain rfl := Option.some.inj h
      have hother : s.revoking = some other := by simp only [revoking, hphase]
      have hne : id ≠ other := by
        intro heq
        exact hleft (hguard id (heq ▸ hother))
      rcases hreached with hopen | hpending
      · exact Or.inl (isOpen_of_closed_other hne hopen)
      · exact Or.inr hpending
    · cases h
  | record k =>
    obtain ⟨a, ha, rfl⟩ := Option.map_eq_some_iff.mp h
    rcases hreached with ⟨c, hc, hopen⟩ | ⟨b, hb, hid⟩
    · exact Or.inl ⟨c, List.mem_append_left _ hc, hopen⟩
    · rcases mem_eraseIdx_or k hb with hk | hk
      · have heq : a = b := Option.some.inj (ha.symm.trans hk)
        subst heq
        exact Or.inl ⟨⟨a.id, a.child, true⟩, List.mem_append_right _ (List.mem_singleton.mpr rfl),
          hid, rfl⟩
      · exact Or.inr ⟨b, hk, hid⟩
  | abandon k =>
    obtain rfl := Option.some.inj h
    rcases hreached with hopen | ⟨b, hb, hid⟩
    · exact Or.inl hopen
    · rcases mem_eraseIdx_or k hb with hk | hk
      · simp only [allows, hk, Option.all_some, hid] at hallowed
        exact absurd hallowed hleft
      · exact Or.inr ⟨b, hk, hid⟩
  | close other =>
    obtain rfl := Option.some.inj h
    have hne : id ≠ other := by
      intro heq
      exact hleft (heq ▸ hallowed)
    rcases hreached with hopen | hpending
    · exact Or.inl (isOpen_of_closed_other hne hopen)
    · exact Or.inr hpending

theorem wires_afterSlot {a : SlotAction} (slot : Slot) (hguard : s.ReaderFirst (.slot a)) :
    (s.afterSlot slot a).wires = s.wires := by
  cases a with
  | revokeNext =>
    cases hid : s.revoking with
    | none => simp only [afterSlot, hid]
    | some id =>
      have hsettled := hguard id hid
      simp only [afterSlot, hid, Wire.revoke_of_settled hsettled, Function.update_eq_self]
  | _ => rfl

/-- A change of one wire on a connection the reader can reach. -/
theorem Intact.update (hs : s.Intact) {id : ConnectionId} {w : Wire φ} (hw : w.Conserved)
    (hreached : w.settled = true ∨ s.isOpen id = true ∨ s.awaitsRecord id = true) :
    ({ s with wires := Function.update s.wires id w } : Link φ).Intact := by
  constructor
  · intro other
    by_cases heq : other = id
    · subst heq
      simpa only [Function.update_self] using hw
    · simpa only [Function.update_of_ne heq] using hs.conserved other
  · intro other
    by_cases heq : other = id
    · subst heq
      change (Function.update s.wires other w other).settled = true ∨ _
      rw [Function.update_self]
      exact hreached
    · change (Function.update s.wires id w other).settled = true ∨ _
      rw [Function.update_of_ne heq]
      exact hs.reached other

theorem Intact.step (hs : s.Intact) {a : LinkAction φ} (h : s.step a = some t)
    (hguard : s.ReaderFirst a) : t.Intact := by
  cases a with
  | slot a =>
    simp only [Link.step] at h
    split_ifs at h with hallowed
    obtain ⟨slot, hslot, rfl⟩ := Option.map_eq_some_iff.mp h
    have hwires := wires_afterSlot slot hguard
    constructor
    · intro id
      rw [hwires]
      exact hs.conserved id
    · intro id
      rw [hwires]
      by_cases hsettled : (s.wires id).settled = true
      · exact Or.inl hsettled
      · have hreached := (hs.reached id).resolve_left hsettled
        exact Or.inr (reached_afterSlot hallowed hguard hslot hsettled hreached)
  | connect =>
    simp only [Link.step] at h
    split_ifs at h
    obtain rfl := Option.some.inj h
    refine ⟨hs.conserved, fun id => ?_⟩
    rcases hs.reached id with hsettled | hopen | hpending
    · exact Or.inl hsettled
    · exact Or.inr (Or.inl hopen)
    · obtain ⟨a, ha, hid⟩ := awaitsRecord_iff.mp hpending
      exact Or.inr (Or.inr (awaitsRecord_iff.mpr ⟨a, List.mem_append_left _ ha, hid⟩))
  | write id frame =>
    simp only [Link.step] at h
    split_ifs at h with hto
    obtain rfl := Option.some.inj h
    exact hs.update ((hs.conserved id).write frame) (Or.inr hto.2)
  | exit =>
    simp only [Link.step] at h
    split_ifs at h
    obtain rfl := Option.some.inj h
    exact ⟨hs.conserved, hs.reached⟩
  | read id =>
    simp only [Link.step] at h
    split_ifs at h with hopen
    obtain ⟨w, hw, rfl⟩ := Option.map_eq_some_iff.mp h
    exact hs.update ((hs.conserved id).read hw) (Or.inr (Or.inl hopen))
  | hand id =>
    obtain ⟨w, hw, rfl⟩ := Option.map_eq_some_iff.mp h
    refine hs.update ((hs.conserved id).hand hw) ?_
    rcases hs.reached id with hsettled | hreached
    · -- a frame in hand is something left
      obtain ⟨frame, hhand, _⟩ := Option.map_eq_some_iff.mp hw
      have hnone := (Wire.settled_iff.mp hsettled).2
      rw [hhand] at hnone
      cases hnone
    · exact Or.inr hreached

/-- What the engine does for one connection on its own: the end of its admission,
and the turns of its reader. -/
def ByReader (id : ConnectionId) (a : LinkAction φ) : Prop :=
  a = .read id ∨ a = .hand id ∨ ∃ k, a = .slot (.record k)

def HandsOver (s : Link φ) (id : ConnectionId) : Prop :=
  ∃ bs t, (∀ b ∈ bs, ByReader id b) ∧ run step s bs = some t ∧
    (t.wires id).handed = (s.wires id).written

theorem HandsOver.cons {id : ConnectionId} {b : LinkAction φ} (hb : ByReader id b)
    (h : s.step b = some t) (hwritten : (t.wires id).written = (s.wires id).written)
    (ht : t.HandsOver id) : s.HandsOver id := by
  obtain ⟨bs, u, hbs, hrun, hhanded⟩ := ht
  refine ⟨b :: bs, u, ?_, run_cons.mpr ⟨t, h, hrun⟩, hhanded.trans hwritten⟩
  intro b' hb'
  rcases List.mem_cons.mp hb' with rfl | hb'
  · exact hb
  · exact hbs b' hb'

theorem handsOver_emptyHanded {id : ConnectionId} (unread : List φ) :
    ∀ {s : Link φ}, s.Intact → s.isOpen id = true → (s.wires id).inHand = none →
      (s.wires id).unread = unread → s.HandsOver id := by
  -- on the frames left, two turns of the reader for each
  induction unread with
  | nil =>
    intro s hs _ hhand hunread
    have hsettled : (s.wires id).settled = true := Wire.settled_iff.mpr ⟨hunread, hhand⟩
    exact ⟨[], s, by simp, rfl, (hs.conserved id).handed_of_settled hsettled⟩
  | cons frame rest ih =>
    intro s hs hopen hhand hunread
    let taken : Wire φ := { s.wires id with unread := rest, inHand := some frame }
    let given : Wire φ := { taken with inHand := none, handed := taken.handed ++ [frame] }
    let s₁ : Link φ := { s with wires := Function.update s.wires id taken }
    let s₂ : Link φ := { s₁ with wires := Function.update s₁.wires id given }
    have htaken : s₁.wires id = taken := Function.update_self ..
    have hgiven : s₂.wires id = given := Function.update_self ..
    have hread : s.step (.read id) = some s₁ := by
      simp only [Link.step, hopen, if_true, Wire.read, hhand, hunread, Option.map_some]
      rfl
    have hhandStep : s₁.step (.hand id) = some s₂ := by
      simp only [Link.step, htaken, Wire.hand, taken, Option.map_some]
      rfl
    have hs₁ : s₁.Intact := hs.step hread trivial
    have hs₂ : s₂.Intact := hs₁.step hhandStep trivial
    have hrest : s₂.HandsOver id :=
      ih hs₂ hopen (by rw [hgiven]) (by rw [hgiven])
    have hafter : s₁.HandsOver id :=
      hrest.cons (Or.inr (Or.inl rfl)) hhandStep (by rw [hgiven, htaken])
    exact hafter.cons (Or.inl rfl) hread (by rw [htaken])

theorem handsOver_open {id : ConnectionId} (hs : s.Intact) (hopen : s.isOpen id = true) :
    s.HandsOver id := by
  cases hhand : (s.wires id).inHand with
  | none => exact handsOver_emptyHanded _ hs hopen hhand rfl
  | some frame =>
    let given : Wire φ :=
      { s.wires id with inHand := none, handed := (s.wires id).handed ++ [frame] }
    let next : Link φ := { s with wires := Function.update s.wires id given }
    have hgiven : next.wires id = given := Function.update_self ..
    have hstep : s.step (.hand id) = some next := by
      simp only [Link.step, Wire.hand, hhand, Option.map_some]
      rfl
    have hnext : next.HandsOver id :=
      handsOver_emptyHanded _ (hs.step hstep trivial) hopen (by rw [hgiven]) rfl
    exact hnext.cons (Or.inr (Or.inl rfl)) hstep (by rw [hgiven])

theorem Intact.handsOver (hs : s.Intact) (id : ConnectionId) : s.HandsOver id := by
  rcases hs.reached id with hsettled | hopen | hpending
  · exact ⟨[], s, by simp, rfl, (hs.conserved id).handed_of_settled hsettled⟩
  · exact handsOver_open hs hopen
  · obtain ⟨a, ha, hid⟩ := awaitsRecord_iff.mp hpending
    obtain ⟨k, hk⟩ := List.mem_iff_getElem?.mp ha
    obtain ⟨slot, hslot⟩ : ∃ slot, s.slot.step (.record k) = some slot := by
      simp only [Slot.step, hk, Option.map_some]
      exact ⟨_, rfl⟩
    have hstep : s.step (.slot (.record k)) = some { s with slot := slot } := by
      simp only [Link.step, allows, if_true, hslot, Option.map_some, afterSlot]
    have hopen : ({ s with slot := slot } : Link φ).isOpen id = true := by
      obtain ⟨b, hb, rfl⟩ := Option.map_eq_some_iff.mp hslot
      have heq : a = b := Option.some.inj (hk.symm.trans hb)
      subst heq
      exact isOpen_iff.mpr ⟨⟨a.id, a.child, true⟩,
        List.mem_append_right _ (List.mem_singleton.mpr rfl), hid, rfl⟩
    have hnext : ({ s with slot := slot } : Link φ).HandsOver id :=
      handsOver_open (hs.step hstep trivial) hopen
    exact hnext.cons (Or.inr (Or.inr ⟨k, rfl⟩)) hstep rfl

/-- In every interleaving in which each connection is revoked after its reader
has handed over what was written on it, every frame written has been handed over
or is on its way, in the order of writing, and the reader's own turns bring all
of them to the broker. -/
theorem run_frames_handed {name : String} {as : List (LinkAction φ)}
    (hguard : Obeys step ReaderFirst (start name) as) (hrun : run step (start name) as = some s)
    (id : ConnectionId) : (s.wires id).Conserved ∧ s.HandsOver id := by
  have hs : s.Intact :=
    run_invariant_of_obeys (fun _ _ _ hs hg h => hs.step h hg) (intact_start name) hguard hrun
  exact ⟨hs.conserved id, hs.handsOver id⟩

/-- A child that publishes two frames and exits, with a reader that is quicker
than the watcher. -/
def quickReader : List (LinkAction String) :=
  [.slot .watchStart, .slot (.publish 100), .slot .watchRead, .connect, .slot (.record 0),
    .write 0 "tick", .write 0 "tock", .exit, .read 0, .hand 0, .slot .clear, .slot .watchRead,
    .slot .takeIds, .read 0, .hand 0, .slot .revokeNext]

theorem run_frames_handed_timer :
    ∃ s, run step (start "timer") quickReader = some s ∧
      ((s.wires 0).Conserved ∧ s.HandsOver 0) ∧ (s.wires 0).handed = ["tick", "tock"] ∧
      s.isOpen 0 = false := by
  have hguard : Obeys step ReaderFirst (start "timer") quickReader := by decide
  exact ⟨_, rfl, run_frames_handed hguard rfl 0, by decide, by decide⟩

/-- The same child, with a watcher that is quicker than the reader. -/
def quickWatcher : List (LinkAction String) :=
  [.slot .watchStart, .slot (.publish 100), .slot .watchRead, .connect, .slot (.record 0),
    .write 0 "tick", .write 0 "tock", .exit, .read 0, .slot .clear, .slot .watchRead,
    .slot .takeIds, .slot .revokeNext]

/-- Both frames were written before the exit; one is cancelled in the reader's
hand and one unread, and nothing the reader can do brings them back. -/
theorem frames_revoked :
    ∃ s, run step (start "timer") quickWatcher = some s ∧ s.running = false ∧
      (s.wires 0).written = ["tick", "tock"] ∧ (s.wires 0).handed = [] ∧
      ¬ (s.wires 0).Conserved ∧ ¬ s.HandsOver 0 := by
  refine ⟨_, rfl, by decide, by decide, by decide, ?_, ?_⟩
  · unfold Wire.Conserved
    decide
  · rintro ⟨bs, t, hbs, hrun, hhanded⟩
    cases bs with
    | nil =>
      obtain rfl := Option.some.inj hrun
      exact absurd hhanded (by decide)
    | cons b bs =>
      obtain ⟨u, hu, _⟩ := run_cons.mp hrun
      rcases hbs b (List.mem_cons_self ..) with rfl | rfl | ⟨k, rfl⟩
      · cases hu
      · cases hu
      · cases hu

end Link

end Emergent.Engine

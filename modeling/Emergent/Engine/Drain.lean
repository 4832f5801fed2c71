import Emergent.Engine.Broker
import Emergent.Sdk.Bridge
import Emergent.Kit.Modify

/-!
# Draining through the three phases

The engine's side is the broker's inbox and `graceful_shutdown`, which puts a
`system.shutdown` marker for each kind into that inbox and waits for the
processes of the kind to exit before the next. A handler or sink is
`run_handler` or `run_sink` of the Rust SDK: pushes come over the socket to the
bridge, the bridge feeds the stream, the loop hands each message to the user
function and ends when the stream is closed and empty. Sockets and channels are
lossless and FIFO, user functions return `Ok`, and every process exits by
itself, so no SIGTERM cuts a loop short.

A run starts with every subscription made. `forwarded` and `marked`
log what the broker has forwarded to it: the messages, and whether the marker of
its kind was among the pushes.
-/

namespace Emergent.Engine
open Emergent.Sdk Kit

/-- What a process is started with: `EMERGENT_UNWRAP_STDOUT` and the topics it
passes to its helper. -/
structure HelperConfig where
  kind : PrimitiveKind
  topics : List String
  autoUnwrap : Bool
  deriving Repr, DecidableEq

/-- `subscribe_and_stream`: the topics, and `system.shutdown` with them. A source
subscribes to nothing, and a helper whose topics are refused gets no stream. -/
def HelperConfig.connection (config : HelperConfig) (id : ConnectionId) : Connection :=
  match config.kind, partitionTopics config.topics with
  | .source, _ | _, .error _ => ⟨id, none, [], []⟩
  | _, .ok split =>
    ⟨id, none,
      if split.exact.contains "system.shutdown" then split.exact
      else split.exact ++ ["system.shutdown"], split.patterns⟩

/-- The user function gets `r` for a message the broker forwarded. -/
def HandedAs (fromStr : String → Option TypeId) (fromJson : String → Option Value)
    (autoUnwrap : Bool) (m r : EmergentMessage) : Prop :=
  ∃ fresh, received fromStr fromJson autoUnwrap fresh (notificationOf m) = some r

theorem HandedAs.names {fromStr : String → Option TypeId} {fromJson : String → Option Value}
    {autoUnwrap : Bool} {m r : EmergentMessage} (h : HandedAs fromStr fromJson autoUnwrap m r) :
    (r.messageType.value, r.source.value) = (m.messageType.value, m.source.value) := by
  obtain ⟨fresh, hreceived⟩ := h
  obtain ⟨htype, hsource⟩ := received_names hreceived
  rw [htype, hsource]

structure Process where
  kind : PrimitiveKind
  connection : Connection
  autoUnwrap : Bool
  socket : List BrokerMessage
  push : List IpcPushNotification
  bridgeOpen : Bool
  stream : List EmergentMessage
  busy : Bool
  handed : List EmergentMessage
  exited : Bool
  connected : Bool
  forwarded : List EmergentMessage
  marked : Bool

namespace Process

def start (id : ConnectionId) (config : HelperConfig) : Process where
  kind := config.kind
  connection := config.connection id
  autoUnwrap := config.autoUnwrap
  socket := []
  push := []
  bridgeOpen := true
  stream := []
  busy := false
  handed := []
  exited := false
  connected := true
  forwarded := []
  marked := false

def publish (b : BrokerMessage) (p : Process) : Option Process :=
  if p.exited = true ∨ p.kind = .sink then none else some { p with socket := p.socket ++ [b] }

section
variable (fromStr : String → Option TypeId) (fromJson : String → Option Value)

def bridgeStep (fresh : Fresh) (p : Process) : Option Process :=
  if p.exited = true ∨ p.bridgeOpen = false then none
  else
    match p.push with
    | [] => none
    | n :: push =>
      match bridge fromStr fromJson p.kind.asStr p.autoUnwrap fresh n with
      | .stop => some { p with push := push, bridgeOpen := false }
      | .skip => some { p with push := push }
      | .forward m => some { p with push := push, stream := p.stream ++ [m] }

end

def take (p : Process) : Option Process :=
  if p.exited = true ∨ p.busy = true then none
  else
    match p.stream with
    | [] => none
    | m :: stream => some { p with stream := stream, busy := true, handed := p.handed ++ [m] }

def finish (p : Process) : Option Process :=
  if p.busy = true then some { p with busy := false } else none

/-- A source ends on SIGTERM or by itself; the loop of a handler or sink ends
when the stream is closed and empty. -/
def exit (p : Process) : Option Process :=
  if p.exited = true then none
  else if p.kind = .source ∨ p.bridgeOpen = false ∧ p.stream.isEmpty = true ∧ p.busy = false then
    some { p with exited := true }
  else none

def disconnect (p : Process) : Option Process :=
  if p.exited = true then some { p with connected := false } else none

def reached (p : Process) (m : EmergentMessage) : Bool :=
  p.connected && p.connection.selects m.messageType.value

def forwardTo (m : EmergentMessage) (p : Process) : Process :=
  if p.reached m then
    { p with push := p.push ++ [notificationOf m], forwarded := p.forwarded ++ [m] }
  else p

def markTo (event : EmergentMessage) (p : Process) : Process :=
  if p.reached event then
    { p with
      push := p.push ++ [notificationOf event]
      marked := p.marked || (notificationOf event).closes p.kind.asStr }
  else p

end Process

def createShutdownEvent (fresh : Fresh) (kind : PrimitiveKind) : EmergentMessage where
  id := fresh.id
  messageType := ⟨"system.shutdown", by decide⟩
  source := engineSource
  correlationId := none
  causationId := none
  timestampMs := fresh.timestampMs
  payload := .object [("kind", .string kind.asStr)]
  metadata := none

/-- What waits for the broker: a message, or a marker of `shutdown_phase`. -/
inductive BrokerInput where
  | message (message : BrokerMessage)
  | marker (fresh : Fresh) (kind : PrimitiveKind)

def routed (reading : EngineReading) : BrokerMessage → EmergentMessage
  | .emergent m _ => (answer reading m).getD m
  | .systemEvent m => m

inductive DrainPoint where
  | running
  | awaiting (kind : PrimitiveKind)
  | stopped
  deriving Repr, DecidableEq

structure DrainState where
  processes : List Process
  inbox : List BrokerInput
  manager : DrainPoint

inductive DrainAction where
  | publish (i : ℕ) (b : BrokerMessage)
  | accept (i : ℕ)
  | refuse (i : ℕ)
  /-- A lifecycle event of the engine. -/
  | broadcast (event : EmergentMessage)
  /-- A rejection report, which bypasses the inbox. -/
  | report (event : EmergentMessage)
  | forward (reading : EngineReading)
  | bridge (i : ℕ) (fresh : Fresh)
  | take (i : ℕ)
  | finish (i : ℕ)
  | exit (i : ℕ)
  | disconnect (i : ℕ)
  /-- `graceful_shutdown` enters its next phase. -/
  | phase (fresh : Fresh)

namespace DrainState

def start (configs : List HelperConfig) : DrainState where
  processes := configs.mapIdx Process.start
  inbox := []
  manager := .running

def editProcess (s : DrainState) (i : ℕ) (edit : Process → Option Process) : Option DrainState :=
  s.processes[i]?.bind fun p =>
    (edit p).map fun q => { s with processes := s.processes.modify i fun _ => q }

def readSocket (s : DrainState) (i : ℕ) (accepted : Bool) : Option DrainState :=
  s.processes[i]?.bind fun p =>
    match p.socket with
    | [] => none
    | b :: socket =>
      some { s with
        processes := s.processes.modify i fun p => { p with socket := socket }
        inbox := if accepted then s.inbox ++ [.message b] else s.inbox }

def enterPhase (s : DrainState) (fresh : Fresh) (kind : PrimitiveKind) : DrainState :=
  { s with inbox := s.inbox ++ [.marker fresh kind], manager := .awaiting kind }

def step (fromStr : String → Option TypeId) (fromJson : String → Option Value) (s : DrainState) :
    DrainAction → Option DrainState
  | .publish i b => s.editProcess i (Process.publish b)
  | .accept i => s.readSocket i true
  | .refuse i => s.readSocket i false
  | .broadcast event => some { s with inbox := s.inbox ++ [.message (.systemEvent event)] }
  | .report event => some { s with processes := s.processes.map (Process.forwardTo event) }
  | .forward reading =>
    match s.inbox with
    | [] => none
    | .message b :: inbox =>
      some { s with
        processes := s.processes.map (Process.forwardTo (routed reading b))
        inbox := inbox }
    | .marker fresh kind :: inbox =>
      some { s with
        processes := s.processes.map (Process.markTo (createShutdownEvent fresh kind))
        inbox := inbox }
  | .bridge i fresh => s.editProcess i (Process.bridgeStep fromStr fromJson fresh)
  | .take i => s.editProcess i Process.take
  | .finish i => s.editProcess i Process.finish
  | .exit i => s.editProcess i Process.exit
  | .disconnect i => s.editProcess i Process.disconnect
  | .phase fresh =>
    match s.manager with
    | .running => some (s.enterPhase fresh .source)
    | .stopped => none
    | .awaiting kind =>
      -- `wait_for_children_exit`, with a window that is long enough
      if s.processes.all fun p => p.kind ≠ kind || p.exited then
        match kind with
        | .source => some (s.enterPhase fresh .handler)
        | .handler => some (s.enterPhase fresh .sink)
        | .sink => some { s with manager := .stopped }
      else none

end DrainState

/-! ### What a process is still to hand over -/

def pending (shutdownKind : String) : List IpcPushNotification → List IpcPushNotification
  | [] => []
  | n :: push =>
    if n.messageType = "system.shutdown" then
      if n.closes shutdownKind then [] else pending shutdownKind push
    else n :: pending shutdownKind push

theorem pending_snoc_shutdown (shutdownKind : String) {n : IpcPushNotification}
    (h : n.messageType = "system.shutdown") (push : List IpcPushNotification) :
    pending shutdownKind (push ++ [n]) = pending shutdownKind push := by
  induction push with
  | nil => simp [pending, h]
  | cons head push ih => simp only [List.cons_append, pending, ih]

theorem pending_snoc_message {shutdownKind : String} {n : IpcPushNotification}
    (h : n.messageType ≠ "system.shutdown") {push : List IpcPushNotification}
    (hopen : ∀ n ∈ push, n.messageType = "system.shutdown" → n.closes shutdownKind = false) :
    pending shutdownKind (push ++ [n]) = pending shutdownKind push ++ [n] := by
  induction push with
  | nil => simp [pending, h]
  | cons head push ih =>
    have hrest := ih fun n hn => hopen n (List.mem_cons_of_mem _ hn)
    by_cases hhead : head.messageType = "system.shutdown"
    · have hcloses := hopen head List.mem_cons_self hhead
      simp [pending, hhead, hcloses, hrest]
    · simp [pending, hhead, hrest]

variable {fromStr : String → Option TypeId} {fromJson : String → Option Value}

namespace Process

variable {p q : Process}

def awaited (p : Process) : List IpcPushNotification :=
  if p.bridgeOpen then pending p.kind.asStr p.push else []

/-- Every message forwarded to the process was handed over, is in the stream, or
is still before the bridge. -/
structure Draining (fromStr : String → Option TypeId) (fromJson : String → Option Value)
    (p : Process) : Prop where
  split : ∃ done rest, p.forwarded = done ++ rest ∧ p.awaited = rest.map notificationOf ∧
    List.Forall₂ (HandedAs fromStr fromJson p.autoUnwrap) done (p.handed ++ p.stream)
  unmarked : p.marked = false → p.bridgeOpen = true ∧
    ∀ n ∈ p.push, n.messageType = "system.shutdown" → n.closes p.kind.asStr = false
  exited : p.exited = true → p.bridgeOpen = false ∧ p.stream = []

theorem draining_start (id : ConnectionId) (config : HelperConfig) :
    (start id config).Draining fromStr fromJson where
  split := ⟨[], [], rfl, rfl, .nil⟩
  unmarked := fun _ => ⟨rfl, by simp [start]⟩
  exited := by simp [start]

theorem Draining.congr (hp : p.Draining fromStr fromJson) (hkind : q.kind = p.kind)
    (hunwrap : q.autoUnwrap = p.autoUnwrap) (hpush : q.push = p.push)
    (hbridge : q.bridgeOpen = p.bridgeOpen) (hstream : q.stream = p.stream)
    (hhanded : q.handed = p.handed) (hforwarded : q.forwarded = p.forwarded)
    (hmarked : q.marked = p.marked)
    (hexited : q.exited = true → q.bridgeOpen = false ∧ q.stream = []) :
    q.Draining fromStr fromJson := by
  refine ⟨?_, ?_, hexited⟩
  · simpa only [awaited, hkind, hunwrap, hpush, hbridge, hstream, hhanded, hforwarded]
      using hp.split
  · simpa only [hkind, hpush, hbridge, hmarked] using hp.unmarked

/-- A message joins the queue while the marker of the kind has not. -/
theorem Draining.forwardTo (hp : p.Draining fromStr fromJson) {m : EmergentMessage}
    (hclear : p.reached m = true → p.marked = false ∧ m.messageType.value ≠ "system.shutdown") :
    (p.forwardTo m).Draining fromStr fromJson := by
  unfold Process.forwardTo
  split_ifs with hreached
  · obtain ⟨hmarked, htype⟩ := hclear hreached
    obtain ⟨hopen, hpush⟩ := hp.unmarked hmarked
    obtain ⟨done, rest, hforwarded, hawaited, hhanded⟩ := hp.split
    refine ⟨⟨done, rest ++ [m], ?_, ?_, hhanded⟩, fun _ => ⟨hopen, ?_⟩, hp.exited⟩
    · simp only [hforwarded, List.append_assoc]
    · simp only [awaited, hopen, if_true] at hawaited ⊢
      rw [pending_snoc_message htype hpush, hawaited, List.map_append, List.map_singleton]
    · intro n hn hshutdown
      rcases List.mem_append.mp hn with hn | hn
      · exact hpush n hn hshutdown
      · obtain rfl := List.mem_singleton.mp hn
        exact absurd hshutdown htype
  · exact hp

theorem Draining.markTo (hp : p.Draining fromStr fromJson) (fresh : Fresh)
    (kind : PrimitiveKind) :
    (p.markTo (createShutdownEvent fresh kind)).Draining fromStr fromJson := by
  unfold Process.markTo
  split_ifs
  · refine ⟨?_, fun hmarked => ?_, hp.exited⟩
    · have hawaited := pending_snoc_shutdown p.kind.asStr
        (n := notificationOf (createShutdownEvent fresh kind)) rfl p.push
      simpa only [awaited, hawaited] using hp.split
    · obtain ⟨hold, hcloses⟩ := Bool.or_eq_false_iff.mp hmarked
      obtain ⟨hopen, hpush⟩ := hp.unmarked hold
      refine ⟨hopen, fun n hn hshutdown => ?_⟩
      rcases List.mem_append.mp hn with hn | hn
      · exact hpush n hn hshutdown
      · obtain rfl := List.mem_singleton.mp hn
        exact hcloses
  · exact hp

theorem Draining.bridgeStep (hp : p.Draining fromStr fromJson) {fresh : Fresh}
    (h : p.bridgeStep fromStr fromJson fresh = some q) : q.Draining fromStr fromJson := by
  unfold Process.bridgeStep at h
  split_ifs at h with hfree
  simp only [not_or, Bool.not_eq_true, Bool.not_eq_false] at hfree
  obtain ⟨hrunning, hopen⟩ := hfree
  have hexited : ∀ {P : Prop}, p.exited = true → P := by
    intro P hex
    rw [hrunning] at hex
    cases hex
  split at h
  · cases h
  rename_i n push hpush
  obtain ⟨done, rest, hforwarded, hawaited, hhanded⟩ := hp.split
  simp only [awaited, hopen, if_true, hpush] at hawaited
  have hlater : p.marked = false → ∀ n ∈ push, n.messageType = "system.shutdown" →
      n.closes p.kind.asStr = false := by
    intro hmarked n' hn'
    exact (hp.unmarked hmarked).2 n' (hpush ▸ List.mem_cons_of_mem _ hn')
  by_cases hshutdown : n.messageType = "system.shutdown"
  · simp only [bridge, hshutdown, if_true] at h
    by_cases hcloses : n.closes p.kind.asStr = true
    · -- the marker of the own kind ends the stream
      simp only [hcloses, if_true] at h
      obtain rfl := Option.some.inj h
      refine ⟨⟨done, rest, hforwarded, ?_, hhanded⟩, fun hmarked => ?_, hexited⟩
      · simpa [awaited, pending, hshutdown, hcloses] using hawaited
      · have hnot := (hp.unmarked hmarked).2 n (hpush ▸ List.mem_cons_self) hshutdown
        rw [hcloses] at hnot
        cases hnot
    · simp only [if_neg hcloses] at h
      obtain rfl := Option.some.inj h
      refine ⟨⟨done, rest, hforwarded, ?_, hhanded⟩, fun hmarked => ⟨hopen, hlater hmarked⟩,
        hexited⟩
      simpa [awaited, pending, hshutdown, hcloses, hopen] using hawaited
  · -- a message: it is the oldest one still before the bridge
    simp only [pending, if_neg hshutdown] at hawaited
    obtain ⟨m, rest', rfl, hm, hrest⟩ := List.map_eq_cons_iff.mp hawaited.symm
    subst hm
    obtain ⟨r, hbridge, hreceived⟩ := bridge_notificationOf fromStr fromJson p.kind.asStr
      p.autoUnwrap fresh hshutdown
    rw [hbridge] at h
    obtain rfl := Option.some.inj h
    refine ⟨⟨done ++ [m], rest', ?_, ?_, ?_⟩, fun hmarked => ⟨hopen, hlater hmarked⟩, hexited⟩
    · simp [hforwarded]
    · simpa [awaited, hopen] using hrest.symm
    · rw [← List.append_assoc]
      exact List.rel_append hhanded (.cons ⟨fresh, hreceived⟩ .nil)

/-- The step keeps the kind, and what is known of a handler or sink. -/
def Keeps (fromStr : String → Option TypeId) (fromJson : String → Option Value)
    (edit : Process → Option Process) : Prop :=
  ∀ p q, edit p = some q → q.kind = p.kind ∧
    (p.kind ≠ .source → p.Draining fromStr fromJson → q.Draining fromStr fromJson)

theorem keeps_publish (b : BrokerMessage) : Keeps fromStr fromJson (publish b) := by
  intro p q h
  unfold publish at h
  split_ifs at h
  obtain rfl := Option.some.inj h
  exact ⟨rfl, fun _ hp => hp.congr rfl rfl rfl rfl rfl rfl rfl rfl hp.exited⟩

theorem keeps_bridgeStep (fresh : Fresh) :
    Keeps fromStr fromJson (bridgeStep fromStr fromJson fresh) := by
  intro p q h
  refine ⟨?_, fun _ hp => hp.bridgeStep h⟩
  unfold bridgeStep at h
  split_ifs at h
  split at h
  · cases h
  · split at h <;> (obtain rfl := Option.some.inj h; rfl)

theorem keeps_take : Keeps fromStr fromJson take := by
  intro p q h
  unfold take at h
  split_ifs at h with hfree
  split at h
  · cases h
  · rename_i m stream hstream
    obtain rfl := Option.some.inj h
    refine ⟨rfl, fun _ hp => ?_⟩
    obtain ⟨done, rest, hforwarded, hawaited, hhanded⟩ := hp.split
    rw [hstream] at hhanded
    refine ⟨⟨done, rest, hforwarded, hawaited, ?_⟩, hp.unmarked, fun hex => ?_⟩
    · simpa only [List.append_assoc, List.singleton_append] using hhanded
    · exact absurd (Or.inl hex) hfree

theorem keeps_finish : Keeps fromStr fromJson finish := by
  intro p q h
  unfold finish at h
  split_ifs at h
  obtain rfl := Option.some.inj h
  exact ⟨rfl, fun _ hp => hp.congr rfl rfl rfl rfl rfl rfl rfl rfl hp.exited⟩

theorem keeps_exit : Keeps fromStr fromJson exit := by
  intro p q h
  unfold exit at h
  split_ifs at h with _ hend
  obtain rfl := Option.some.inj h
  refine ⟨rfl, fun hkind hp => hp.congr rfl rfl rfl rfl rfl rfl rfl rfl fun _ => ?_⟩
  obtain ⟨hclosed, hempty, _⟩ := hend.resolve_left hkind
  exact ⟨hclosed, List.isEmpty_iff.mp hempty⟩

theorem keeps_disconnect : Keeps fromStr fromJson disconnect := by
  intro p q h
  unfold disconnect at h
  split_ifs at h
  obtain rfl := Option.some.inj h
  exact ⟨rfl, fun _ hp => hp.congr rfl rfl rfl rfl rfl rfl rfl rfl hp.exited⟩

theorem kind_forwardTo (m : EmergentMessage) (p : Process) : (p.forwardTo m).kind = p.kind := by
  unfold forwardTo
  split <;> rfl

theorem kind_markTo (event : EmergentMessage) (p : Process) : (p.markTo event).kind = p.kind := by
  unfold markTo
  split <;> rfl

end Process

namespace DrainState

variable {s t : DrainState}

def Invariant (fromStr : String → Option TypeId) (fromJson : String → Option Value)
    (s : DrainState) : Prop :=
  ∀ p ∈ s.processes, p.kind ≠ .source → p.Draining fromStr fromJson

def outgoing (s : DrainState) : DrainAction → Option EmergentMessage
  | .report event => some event
  | .forward reading =>
    match s.inbox.head? with
    | some (.message b) => some (routed reading b)
    | _ => none
  | _ => none

/-- No message goes to a handler or sink whose marker has been forwarded to it,
and none that the bridge would take for a marker. -/
def Undisturbed (s : DrainState) (a : DrainAction) : Prop :=
  ∀ m ∈ s.outgoing a, ∀ p ∈ s.processes, p.kind ≠ .source → p.reached m = true →
    p.marked = false ∧ m.messageType.value ≠ "system.shutdown"

instance (s : DrainState) (a : DrainAction) : Decidable (s.Undisturbed a) :=
  inferInstanceAs (Decidable (∀ m ∈ s.outgoing a, ∀ p ∈ s.processes, _ → _ → _))

theorem Invariant.editProcess (hs : s.Invariant fromStr fromJson) {i : ℕ}
    {edit : Process → Option Process} (hedit : Process.Keeps fromStr fromJson edit)
    (h : s.editProcess i edit = some t) : t.Invariant fromStr fromJson := by
  obtain ⟨p, hp, h⟩ := Option.bind_eq_some_iff.mp h
  obtain ⟨q, hq, rfl⟩ := Option.map_eq_some_iff.mp h
  obtain ⟨hkind, hkeeps⟩ := hedit p q hq
  intro r hr hsource
  obtain ⟨j, hj⟩ := List.getElem?_of_mem hr
  rcases getElem?_modify_cases hj with ⟨_, _, _, rfl⟩ | ⟨_, hold⟩
  · exact hkeeps (hkind ▸ hsource) (hs p (List.mem_of_getElem? hp) (hkind ▸ hsource))
  · exact hs r (List.mem_of_getElem? hold) hsource

theorem Invariant.forwardTo (hs : s.Invariant fromStr fromJson) {m : EmergentMessage}
    (hguard : ∀ p ∈ s.processes, p.kind ≠ .source → p.reached m = true →
      p.marked = false ∧ m.messageType.value ≠ "system.shutdown") (inbox : List BrokerInput) :
    ({ s with processes := s.processes.map (Process.forwardTo m), inbox := inbox }).Invariant
      fromStr fromJson := by
  intro q hq hsource
  obtain ⟨p, hp, rfl⟩ := List.mem_map.mp hq
  rw [Process.kind_forwardTo] at hsource
  exact (hs p hp hsource).forwardTo (hguard p hp hsource)

theorem Invariant.readSocket (hs : s.Invariant fromStr fromJson) {i : ℕ} {accepted : Bool}
    (h : s.readSocket i accepted = some t) : t.Invariant fromStr fromJson := by
  obtain ⟨p, hp, h⟩ := Option.bind_eq_some_iff.mp h
  split at h
  · cases h
  · obtain rfl := Option.some.inj h
    intro r hr hsource
    obtain ⟨j, hj⟩ := List.getElem?_of_mem hr
    rcases getElem?_modify_cases hj with ⟨_, q, hq, rfl⟩ | ⟨_, hold⟩
    · have hdraining := hs q (List.mem_of_getElem? hq) hsource
      exact hdraining.congr rfl rfl rfl rfl rfl rfl rfl rfl hdraining.exited
    · exact hs r (List.mem_of_getElem? hold) hsource

theorem Invariant.step (hs : s.Invariant fromStr fromJson) {a : DrainAction}
    (hguard : s.Undisturbed a) (h : s.step fromStr fromJson a = some t) :
    t.Invariant fromStr fromJson := by
  cases a with
  | publish i b => exact hs.editProcess (Process.keeps_publish b) h
  | accept i => exact hs.readSocket h
  | refuse i => exact hs.readSocket h
  | broadcast event =>
    obtain rfl := Option.some.inj h
    exact hs
  | report event =>
    obtain rfl := Option.some.inj h
    exact hs.forwardTo (hguard event rfl) s.inbox
  | forward reading =>
    simp only [DrainState.step] at h
    split at h
    · cases h
    · rename_i b inbox hinbox
      obtain rfl := Option.some.inj h
      exact hs.forwardTo (hguard (routed reading b) (by simp [outgoing, hinbox])) inbox
    · rename_i fresh kind inbox _
      obtain rfl := Option.some.inj h
      intro q hq hsource
      obtain ⟨p, hp, rfl⟩ := List.mem_map.mp hq
      rw [Process.kind_markTo] at hsource
      exact (hs p hp hsource).markTo fresh kind
  | bridge i fresh => exact hs.editProcess (Process.keeps_bridgeStep fresh) h
  | take i => exact hs.editProcess Process.keeps_take h
  | finish i => exact hs.editProcess Process.keeps_finish h
  | exit i => exact hs.editProcess Process.keeps_exit h
  | disconnect i => exact hs.editProcess Process.keeps_disconnect h
  | phase fresh =>
    simp only [DrainState.step] at h
    split at h
    · obtain rfl := Option.some.inj h
      exact hs
    · cases h
    · split_ifs at h
      split at h <;> (obtain rfl := Option.some.inj h; exact hs)

/-- Where no message is forwarded to a handler or sink behind the marker of its
kind, each of them that has exited was handed every message forwarded to it,
once and in order. -/
theorem run_drain_loses_nothing {fromStr : String → Option TypeId}
    {fromJson : String → Option Value} {configs : List HelperConfig}
    {as : List DrainAction} {s : DrainState}
    (hguard : Obeys (step fromStr fromJson) Undisturbed (start configs) as)
    (hrun : run (step fromStr fromJson) (start configs) as = some s) {p : Process}
    (hp : p ∈ s.processes) (hkind : p.kind ≠ .source) (hexited : p.exited = true) :
    List.Forall₂ (HandedAs fromStr fromJson p.autoUnwrap) p.forwarded p.handed ∧
      p.handed.map (fun r => (r.messageType.value, r.source.value)) =
        p.forwarded.map (fun m => (m.messageType.value, m.source.value)) := by
  have hstart : (start configs).Invariant fromStr fromJson := by
    intro p hp _
    obtain ⟨i, _, rfl⟩ := List.mem_mapIdx.mp hp
    exact Process.draining_start _ _
  have hinv : s.Invariant fromStr fromJson :=
    run_invariant_of_obeys (fun u a v hu hg h => hu.step hg h) hstart hguard hrun
  obtain ⟨hsplit, _, hended⟩ := hinv p hp hkind
  obtain ⟨hclosed, hstream⟩ := hended hexited
  obtain ⟨done, rest, hforwarded, hawaited, hhanded⟩ := hsplit
  have hrest : rest = [] := by simpa [Process.awaited, hclosed] using hawaited
  have hall : List.Forall₂ (HandedAs fromStr fromJson p.autoUnwrap) p.forwarded p.handed := by
    rw [hforwarded, hrest, List.append_nil]
    simpa [hstream] using hhanded
  refine ⟨hall, ?_⟩
  rw [← List.forall₂_eq_eq_eq, List.forall₂_map_left_iff, List.forall₂_map_right_iff]
  exact hall.flip.imp fun r m h => HandedAs.names (m := m) (r := r) h

/-! A chain of two handlers: `filter` turns ticks into the events `enrich` reads. -/

def demoMessage (messageType : MessageType) (source : PrimitiveName) : EmergentMessage where
  id := ⟨⟨"msg", "01h455vb4pex5vsknk084sn02q"⟩, by decide⟩
  messageType := messageType
  source := source
  correlationId := none
  causationId := none
  timestampMs := 0
  payload := .null
  metadata := none

def tick : EmergentMessage :=
  demoMessage ⟨"timer.tick", validMessageType_timerTick⟩ ⟨"timer", validPrimitiveName_timer⟩

def filtered : EmergentMessage := demoMessage ⟨"timer.filtered", by decide⟩ ⟨"filter", by decide⟩

def chain : List HelperConfig :=
  [⟨.source, [], false⟩, ⟨.handler, ["timer.tick"], false⟩,
    ⟨.handler, ["timer.filtered"], false⟩]

def demoFresh : Fresh := ⟨tick.id, 0⟩

def demoReading : EngineReading := ⟨tick.id, 0, fun _ => none, .null⟩

def tickForwarded : List DrainAction :=
  [.publish 0 (.emergent tick false), .accept 0, .forward demoReading]

def filterHandles : List DrainAction :=
  [.bridge 1 demoFresh, .take 1, .publish 1 (.emergent filtered false), .finish 1, .accept 1,
    .forward demoReading]

def untilHandlerMarker : List DrainAction :=
  [.phase demoFresh, .forward demoReading, .exit 0, .phase demoFresh, .forward demoReading]

def enrichDrains : List DrainAction :=
  [.bridge 2 demoFresh, .bridge 2 demoFresh, .bridge 2 demoFresh, .take 2, .finish 2, .exit 2]

def summary (s : DrainState) : List (Bool × List String × List String) :=
  s.processes.map fun p => (p.exited, p.forwarded.map fun m => m.messageType.value,
    p.handed.map fun r => r.messageType.value)

theorem run_drain_loses_nothing_chain :
    ∃ s p, run (step readTypeId fun _ => none) (start chain)
        (tickForwarded ++ filterHandles ++ untilHandlerMarker ++ enrichDrains) = some s ∧
      s.processes[2]? = some p ∧ p.exited = true ∧
      p.handed.map (fun r => (r.messageType.value, r.source.value)) =
        p.forwarded.map (fun m => (m.messageType.value, m.source.value)) ∧
      p.forwarded.map (fun m => m.messageType.value) = ["timer.filtered"] := by
  have hend : (run (step readTypeId fun _ => none) (start chain)
      (tickForwarded ++ filterHandles ++ untilHandlerMarker ++ enrichDrains)).map
      (fun s => (s.summary[2]?, s.processes[2]?.map Process.kind)) =
      some (some (true, ["timer.filtered"], ["timer.filtered"]), some .handler) := by
    decide +kernel
  obtain ⟨s, hrun, hs⟩ := Option.map_eq_some_iff.mp hend
  obtain ⟨hsummary, hkind⟩ := Prod.mk.inj hs
  obtain ⟨p, hp, hpk⟩ := Option.map_eq_some_iff.mp hkind
  simp only [summary, List.getElem?_map, hp, Option.map_some, Option.some.injEq,
    Prod.mk.injEq] at hsummary
  obtain ⟨hexited, hforwarded, _⟩ := hsummary
  refine ⟨s, p, hrun, hp, hexited, ?_, hforwarded⟩
  exact (run_drain_loses_nothing (by decide +kernel) hrun (List.mem_of_getElem? hp)
    (by simp [hpk]) hexited).2

/-- Both handlers are told to stop by one marker. `enrich` reads it and leaves
while `filter` still works on its last tick: what `filter` publishes is
forwarded to `enrich` and never handed to its user function. -/
theorem handler_chain_loses_message :
    ∃ s p, run (step readTypeId fun _ => none) (start chain)
        (tickForwarded ++ untilHandlerMarker ++ filterHandles ++
          [.bridge 2 demoFresh, .bridge 2 demoFresh, .exit 2]) = some s ∧
      s.processes[2]? = some p ∧ p.exited = true ∧
      p.forwarded.map (fun m => m.messageType.value) = ["timer.filtered"] ∧
      ¬ List.Forall₂ (HandedAs readTypeId (fun _ => none) p.autoUnwrap) p.forwarded p.handed := by
  have hend : (run (step readTypeId fun _ => none) (start chain)
      (tickForwarded ++ untilHandlerMarker ++ filterHandles ++
        [.bridge 2 demoFresh, .bridge 2 demoFresh, .exit 2])).map
      (fun s => s.summary[2]?) = some (some (true, ["timer.filtered"], [])) := by
    decide +kernel
  obtain ⟨s, hrun, hs⟩ := Option.map_eq_some_iff.mp hend
  simp only [summary, List.getElem?_map, Option.map_eq_some_iff] at hs
  obtain ⟨p, hp, hsummary⟩ := hs
  obtain ⟨hexited, hforwarded, hhanded⟩ : p.exited = true ∧
      p.forwarded.map (fun m => m.messageType.value) = ["timer.filtered"] ∧
      p.handed.map (fun r => r.messageType.value) = [] := by
    simpa only [Prod.mk.injEq] using hsummary
  refine ⟨s, p, hrun, hp, hexited, hforwarded, fun hall => ?_⟩
  have hlength := hall.length_eq
  have hone := congrArg List.length hforwarded
  have hnone := congrArg List.length hhanded
  simp only [List.length_map, List.length_cons, List.length_nil] at hone hnone
  omega

end DrainState

end Emergent.Engine

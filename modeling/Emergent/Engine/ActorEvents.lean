import Emergent.Engine.ActorTokens
import Emergent.Kit.Modify

/-!
# The lifecycle event stream

What the broker is told of each child: a start, and after it an exit. The spawn
sends the first, the monitor the second, and the monitor tells the actor of the
exit before it broadcasts it, so the restart it leads to can overtake it. The
stream is the histories of the children in the order they were spawned in every
run where no restart is broadcast while a monitor has told the actor but not
the broker.
-/

namespace Emergent.Engine
open Kit

/-! ### The history of a child -/

def Child.startEvent (info : PrimitiveInfo) (c : Child) : SystemEvent :=
  match c.attempt with
  | none => .of .started info (.new info (some c.pid) none none)
  | some attempt => .of .restarted info (.new info (some c.pid) none (some attempt))

def Child.exitEvent (info : PrimitiveInfo) (c : Child) (status : ExitStatus) : SystemEvent :=
  if isCleanExit status then .of .stopped info (.new info (some c.pid) none none)
  else .of .error info
    (.new info (some c.pid) (some (exitErrorMessage (exitCodeFromStatus status))) none)

def Child.history (info : PrimitiveInfo) (c : Child) : List SystemEvent :=
  match c.phase with
  | .alive (.spawn false) | .exited _ (.spawn false) => []
  | .reported status => [c.startEvent info, c.exitEvent info status]
  | _ => [c.startEvent info]

def exitRecord (pid : Pid) (code : ℤ) : ExitRecord where
  pid := pid
  state := if isCleanExitCode code then .stopped else .failed
  outcome := outcomeFromExitCode code

def Child.exitRecords (c : Child) : List ExitRecord :=
  match c.phase with
  | .notified status | .reported status => [exitRecord c.pid (exitCodeFromStatus status)]
  | _ => []

def ActorMessage.exitRecords : ActorMessage → List ExitRecord
  | .childExited pid code => [exitRecord pid code]
  | _ => []

def SystemEvent.namesChild (event : SystemEvent) : Bool := event.payload.pid.isSome

theorem forName_stopped_ne_error (name : String) :
    EventType.error.forName name ≠ EventType.stopped.forName name := by
  intro h
  have hlist := congrArg (fun t : String => t.toList.take 8) h
  simp only [EventType.forName, EventType.asStr, String.toList_append] at hlist
  revert hlist
  simp

theorem exitEvent_stopped_iff (info : PrimitiveInfo) (c : Child) (status : ExitStatus) :
    (c.exitEvent info status).messageType.value = EventType.stopped.forName info.name.value ↔
      (exitRecord c.pid (exitCodeFromStatus status)).state = .stopped ∧
        (exitRecord c.pid (exitCodeFromStatus status)).outcome = .clean := by
  simp only [exitRecord, outcomeFromExitCode_eq_clean, isCleanExitCode_exitCodeFromStatus]
  unfold Child.exitEvent
  cases hclean : isCleanExit status with
  | true => simp [SystemEvent.of]
  | false =>
    simp only [SystemEvent.of]
    simp [forName_stopped_ne_error]

/-! ### The recorded pid -/

/-- What handling a message does to the pid the actor records. -/
def ActorMessage.pidEffect (current : Option Pid) : ActorMessage → Option Pid
  | .childSpawning | .childSpawnFailed _ => none
  | .childSpawned pid => some pid
  | .childExited pid _ => if current = some pid then none else current
  | .restartChild _ | .healthCheck | .stopPrimitive | .engineShuttingDown => current

def pidAfter (current : Option Pid) (mailbox : List ActorMessage) : Option Pid :=
  mailbox.foldl ActorMessage.pidEffect current

theorem pidAfter_cons (current : Option Pid) (message : ActorMessage)
    (mailbox : List ActorMessage) :
    pidAfter current (message :: mailbox) = pidAfter (message.pidEffect current) mailbox := rfl

theorem pidAfter_snoc (current : Option Pid) (mailbox : List ActorMessage)
    (message : ActorMessage) :
    pidAfter current (mailbox ++ [message]) = message.pidEffect (pidAfter current mailbox) := by
  simp [pidAfter]

/-- Every exit in the mailbox is, when its turn comes, that of the recorded
child. -/
def ExitsKnown : Option Pid → List ActorMessage → Prop
  | _, [] => True
  | current, message :: mailbox =>
    (∀ pid code, message = .childExited pid code → current = some pid) ∧
      ExitsKnown (message.pidEffect current) mailbox

theorem exitsKnown_snoc {current : Option Pid} {mailbox : List ActorMessage}
    {message : ActorMessage} (h : ExitsKnown current mailbox)
    (hlast : ∀ pid code, message = .childExited pid code →
      pidAfter current mailbox = some pid) :
    ExitsKnown current (mailbox ++ [message]) := by
  induction mailbox generalizing current with
  | nil => exact ⟨hlast, trivial⟩
  | cons first mailbox ih => exact ⟨h.1, ih h.2 hlast⟩

/-! ### Where a child stands -/

/-- The handle is with the spawn that made the child; `true` once the start
event is out. -/
def ChildPhase.spawnFlag : ChildPhase → Option Bool
  | .alive (.spawn announced) | .exited _ (.spawn announced) => some announced
  | _ => none

def ChildPhase.isKept : ChildPhase → Bool
  | .alive .nobody | .exited _ .nobody => false
  | _ => true

def ChildPhase.isWatched : ChildPhase → Bool
  | .alive .monitor | .exited _ .monitor | .reaped _ | .cleared _ => true
  | _ => false

def ChildPhase.isSettled : ChildPhase → Bool
  | .notified _ | .reported _ => true
  | _ => false

def ChildPhase.isNotified : ChildPhase → Bool
  | .notified _ => true
  | _ => false

theorem ChildPhase.token_of_unsettled {phase : ChildPhase} (hkept : phase.isKept = true)
    (h : phase.isSettled = false) : phase.token = 1 := by
  rcases phase with (_ | _ | _) | ⟨_, _ | _ | _⟩ | _ | _ | _ | _ <;>
    simp_all [isKept, isSettled, token]

theorem ChildPhase.unsettled_of_watched {phase : ChildPhase} (h : phase.isWatched = true) :
    phase.isSettled = false ∧ phase.spawnFlag = none := by
  rcases phase with (_ | _ | _) | ⟨_, _ | _ | _⟩ | _ | _ | _ | _ <;>
    simp_all [isWatched, isSettled, spawnFlag]

theorem ChildPhase.unsettled_of_held {phase : ChildPhase} {b : Bool}
    (h : phase.spawnFlag = some b) : phase.isSettled = false ∧ phase.isKept = true := by
  rcases phase with (_ | _ | _) | ⟨_, _ | _ | _⟩ | _ | _ | _ | _ <;>
    simp_all [isKept, isSettled, spawnFlag]

theorem Child.length_exitRecords (c : Child) : c.exitRecords.length ≤ 1 := by
  unfold Child.exitRecords
  split <;> simp

theorem Child.exitRecords_eq_nil_iff (c : Child) :
    c.exitRecords = [] ↔ c.phase.isSettled = false := by
  unfold Child.exitRecords ChildPhase.isSettled
  cases c.phase <;> simp

theorem Child.exitRecords_eq_singleton {c : Child} {record : ExitRecord}
    (h : c.exitRecords = [record]) :
    ∃ status, (c.phase = .notified status ∨ c.phase = .reported status) ∧
      record = exitRecord c.pid (exitCodeFromStatus status) := by
  unfold Child.exitRecords at h
  split at h
  case h_1 status hphase => exact ⟨status, Or.inl hphase, (List.singleton_inj.mp h).symm⟩
  case h_2 status hphase => exact ⟨status, Or.inr hphase, (List.singleton_inj.mp h).symm⟩
  case h_3 => cases h

namespace PrimitiveActor

variable {config : PrimitiveActorConfig} {s t : PrimitiveActor}

theorem handleExited_pid (hstatus : s.childPid = s.status.pid) (nowMs : UInt64) (pid : Pid)
    (code : ℤ) :
    (s.handleExited config nowMs pid code).childPid =
        (ActorMessage.childExited pid code).pidEffect s.childPid ∧
      (s.handleExited config nowMs pid code).childPid =
        (s.handleExited config nowMs pid code).status.pid := by
  unfold handleExited
  by_cases hpid : s.childPid = some pid
  · have hnone : (nextStatus s.status (.exited pid code)).pid = none :=
      (nextStatus_exited (hstatus ▸ hpid) code).1
    rw [if_neg (by simpa using hpid)]
    simp only [ActorMessage.pidEffect, if_pos hpid]
    split
    · exact ⟨hnone, rfl⟩
    · exact ⟨hnone, rfl⟩
    · exact ⟨rfl, rfl⟩
    · exact ⟨rfl, rfl⟩
  · rw [if_pos hpid]
    exact ⟨by simp [ActorMessage.pidEffect, hpid], hstatus⟩

theorem handle_pid (config : PrimitiveActorConfig) (hstatus : s.childPid = s.status.pid)
    (nowMs : UInt64) (message : ActorMessage) :
    (s.handle config nowMs message).childPid = message.pidEffect s.childPid ∧
      (s.handle config nowMs message).childPid =
        (s.handle config nowMs message).status.pid := by
  cases message with
  | childExited pid code => exact handleExited_pid hstatus nowMs pid code
  | restartChild attempt =>
    simp only [handle]
    split <;> exact ⟨rfl, hstatus⟩
  | stopPrimitive =>
    have hsame : (nextStatus s.status .stopRequested).pid = s.childPid :=
      (nextStatus_stopRequested_pid s.status).trans hstatus.symm
    simp only [handle, signalChild]
    split <;> exact ⟨hsame, rfl⟩
  | childSpawning => exact ⟨rfl, rfl⟩
  | childSpawned pid => exact ⟨rfl, rfl⟩
  | childSpawnFailed error => exact ⟨rfl, rfl⟩
  | healthCheck => exact ⟨rfl, hstatus⟩
  | engineShuttingDown => exact ⟨rfl, hstatus⟩

theorem handle_exits (config : PrimitiveActorConfig) (hstatus : s.childPid = s.status.pid)
    (nowMs : UInt64) (message : ActorMessage)
    (hknown : ∀ pid code, message = .childExited pid code → s.childPid = some pid) :
    (s.handle config nowMs message).exits = s.exits ++ message.exitRecords := by
  cases message with
  | childExited pid code =>
    have hpid : s.childPid = some pid := hknown pid code rfl
    have hstate : (nextStatus s.status (.exited pid code)).state =
        (exitRecord pid code).state := by
      have hp : s.status.pid = some pid := hstatus ▸ hpid
      simp only [nextStatus, hp, ne_eq, not_true_eq_false, if_false, exitRecord]
      split <;> rfl
    simp only [handle, handleExited, hpid, ne_eq, not_true_eq_false, if_false,
      ActorMessage.exitRecords]
    split <;> simp [apply, hstate, exitRecord]
  | restartChild attempt =>
    simp only [handle, ActorMessage.exitRecords, List.append_nil]
    split <;> rfl
  | stopPrimitive =>
    simp only [handle, signalChild, ActorMessage.exitRecords, List.append_nil]
    split <;> rfl
  | _ => simp [handle, apply, ActorMessage.exitRecords]

/-! ### The invariant -/

/-- The spawn with this attempt holds the child at this index. -/
def Holds (s : PrimitiveActor) (attempt : Option UInt32) (i : ℕ) (pid : Pid) (announced : Bool) :
    Prop :=
  ∃ c, s.children[i]? = some c ∧ c.pid = pid ∧ c.attempt = attempt ∧
    c.phase.spawnFlag = some announced

/-- A running spawn that has made its process holds that child, and once it has
reported the pid the actor will come to record it. -/
def Linked (s : PrimitiveActor) (spawn : Spawn) : Prop :=
  match spawn.point with
  | .announce | .create | .failed _ | .failedEvent _ => True
  | .unidentified => False
  | .publish i pid | .report i pid => s.Holds spawn.attempt i pid false
  | .broadcast i pid =>
    s.Holds spawn.attempt i pid false ∧ pidAfter s.childPid s.mailbox = some pid
  | .monitor i =>
    ∃ pid, s.Holds spawn.attempt i pid true ∧ pidAfter s.childPid s.mailbox = some pid

/-- The part of the invariant that does not mention the futures. -/
structure Coherent (info : PrimitiveInfo) (s : PrimitiveActor) : Prop where
  statusPid : s.childPid = s.status.pid
  kept : ∀ (i : ℕ) c, s.children[i]? = some c → c.phase.isKept = true
  known : ∀ (i : ℕ) c, s.children[i]? = some c → c.phase.isWatched = true →
    pidAfter s.childPid s.mailbox = some c.pid
  exitsKnown : ExitsKnown s.childPid s.mailbox
  last : ∀ (i : ℕ) c, s.children[i]? = some c → c.phase.isSettled = false →
    i + 1 = s.children.length
  quiet : ∀ (i j : ℕ) c d, i < j → s.children[i]? = some c → s.children[j]? = some d →
    c.phase.isNotified = true → d.history info = []
  events : s.events.filter SystemEvent.namesChild = s.children.flatMap (Child.history info)
  exits : s.children.flatMap Child.exitRecords =
    s.exits ++ s.mailbox.flatMap ActorMessage.exitRecords

variable {info : PrimitiveInfo}

theorem Coherent.congr (hs : s.Coherent info) (hstatus : t.status = s.status)
    (hpid : t.childPid = s.childPid) (hmail : t.mailbox = s.mailbox)
    (hchildren : t.children = s.children) (hevents : t.events = s.events)
    (hexits : t.exits = s.exits) : t.Coherent info := by
  obtain ⟨h1, h2, h3, h4, h5, h6, h7, h8⟩ := hs
  constructor
  · rw [hpid, hstatus]
    exact h1
  · rw [hchildren]
    exact h2
  · rw [hchildren, hpid, hmail]
    exact h3
  · rw [hpid, hmail]
    exact h4
  · rw [hchildren]
    exact h5
  · rw [hchildren]
    exact h6
  · rw [hevents, hchildren]
    exact h7
  · rw [hchildren, hexits, hmail]
    exact h8

theorem coherent_start (info : PrimitiveInfo) : start.Coherent info where
  statusPid := rfl
  kept := by simp [start]
  known := by simp [start]
  exitsKnown := trivial
  last := by simp [start]
  quiet := by simp [start]
  events := rfl
  exits := rfl

theorem Coherent.holds_unique (hs : s.Coherent info) {a b : Option UInt32} {i j : ℕ} {p q : Pid}
    {x y : Bool} (hi : s.Holds a i p x) (hj : s.Holds b j q y) : i = j ∧ a = b := by
  obtain ⟨c, hc, _, hca, hcf⟩ := hi
  obtain ⟨d, hd, _, hda, hdf⟩ := hj
  have hilast := hs.last i c hc (ChildPhase.unsettled_of_held hcf).1
  have hjlast := hs.last j d hd (ChildPhase.unsettled_of_held hdf).1
  have hij : i = j := by omega
  subst hij
  have hcd : c = d := Option.some.inj (hc.symm.trans hd)
  subst hcd
  exact ⟨rfl, hca.symm.trans hda⟩

/-- A held child and a watched one are both the last, so they are not two. -/
theorem Coherent.not_watched_of_holds (hs : s.Coherent info) {a : Option UInt32} {i : ℕ}
    {p : Pid} {x : Bool} (hi : s.Holds a i p x) {j : ℕ} {d : Child}
    (hd : s.children[j]? = some d) : d.phase.isWatched = false := by
  obtain ⟨c, hc, _, _, hcf⟩ := hi
  rw [Bool.eq_false_iff]
  intro hw
  obtain ⟨hun, hnone⟩ := ChildPhase.unsettled_of_watched hw
  have hilast := hs.last i c hc (ChildPhase.unsettled_of_held hcf).1
  have hjlast := hs.last j d hd hun
  have hij : i = j := by omega
  subst hij
  have hcd : c = d := Option.some.inj (hc.symm.trans hd)
  rw [hcd, hnone] at hcf
  cases hcf

theorem Coherent.all_settled (hs : s.Coherent info) (hloose : s.loose = 0) {i : ℕ} {c : Child}
    (hc : s.children[i]? = some c) : c.phase.isSettled = true := by
  rw [← Bool.not_eq_false]
  intro hun
  have htoken := ChildPhase.token_of_unsettled (hs.kept i c hc) hun
  have hle : c.token ≤ tally Child.token s.children :=
    weight_le_tally (List.mem_of_getElem? hc)
  have hone : c.token = 1 := htoken
  simp only [loose] at hloose
  omega

theorem Coherent.not_holds (hs : s.Coherent info) (hloose : s.loose = 0) {a : Option UInt32}
    {i : ℕ} {p : Pid} {x : Bool} : ¬ s.Holds a i p x := by
  rintro ⟨c, hc, _, _, hflag⟩
  have hset := hs.all_settled hloose hc
  rw [(ChildPhase.unsettled_of_held hflag).1] at hset
  cases hset

/-- A spawn stays linked when the child it holds, if any, stays held and the
pid on its way to the actor stays the same. -/
theorem Linked.transfer {sp : Spawn} (h : s.Linked sp)
    (hholds : ∀ i p x, s.Holds sp.attempt i p x → t.Holds sp.attempt i p x ∧
      pidAfter t.childPid t.mailbox = pidAfter s.childPid s.mailbox) : t.Linked sp := by
  unfold Linked at h ⊢
  split at h
  · trivial
  · trivial
  · trivial
  · trivial
  · exact h
  · exact (hholds _ _ _ h).1
  · exact (hholds _ _ _ h).1
  · obtain ⟨hheld, hpid⟩ := hholds _ _ _ h.1
    exact ⟨hheld, hpid.trans h.2⟩
  · obtain ⟨pid, hp, hafter⟩ := h
    obtain ⟨hheld, hpid⟩ := hholds _ _ _ hp
    exact ⟨pid, hheld, hpid.trans hafter⟩

/-! ### Messages -/

theorem Coherent.post (hs : s.Coherent info) {message : ActorMessage}
    (hexit : ∀ pid code, message ≠ .childExited pid code)
    (hpid : ∀ (i : ℕ) c, s.children[i]? = some c → c.phase.isWatched = true →
      message.pidEffect (pidAfter s.childPid s.mailbox) = pidAfter s.childPid s.mailbox) :
    (s.post message).Coherent info where
  statusPid := hs.statusPid
  kept := hs.kept
  known := by
    intro i c hc hw
    have hold := hs.known i c hc hw
    simp only [PrimitiveActor.post, pidAfter_snoc]
    rw [hpid i c hc hw]
    exact hold
  exitsKnown := exitsKnown_snoc hs.exitsKnown fun pid code h => absurd h (hexit pid code)
  last := hs.last
  quiet := hs.quiet
  events := hs.events
  exits := by
    have hnone : message.exitRecords = [] := by
      cases message with
      | childExited pid code => exact absurd rfl (hexit pid code)
      | _ => rfl
    simp only [PrimitiveActor.post, List.flatMap_append, List.flatMap_cons, List.flatMap_nil,
      hnone, List.append_nil]
    exact hs.exits

theorem pidEffect_request (request : ActorRequest) (current : Option Pid) :
    request.message.pidEffect current = current := by
  cases request <;> rfl

theorem pidAfter_post_request (s : PrimitiveActor) (request : ActorRequest) :
    pidAfter (s.post request.message).childPid (s.post request.message).mailbox =
      pidAfter s.childPid s.mailbox := by
  simp only [PrimitiveActor.post, pidAfter_snoc, pidEffect_request]

theorem Coherent.deliver (hs : s.Coherent info) {nowMs : UInt64}
    (h : s.deliver config nowMs = some t) :
    t.Coherent info ∧ t.children = s.children ∧ t.boot = s.boot ∧
      pidAfter t.childPid t.mailbox = pidAfter s.childPid s.mailbox ∧
      ∀ sp, t.task = .spawn sp → ∃ attempt, sp = ⟨some attempt, .announce⟩ := by
  obtain ⟨message, mailbox, hmail, hidle, rfl⟩ := deliver_cases h
  obtain ⟨hexitKnown, hrestKnown⟩ : (∀ pid code, message = .childExited pid code →
      s.childPid = some pid) ∧ ExitsKnown (message.pidEffect s.childPid) mailbox := by
    have hknown := hs.exitsKnown
    rw [hmail] at hknown
    exact hknown
  obtain ⟨hpid, hstatus⟩ := handle_pid config
    (s := { s with mailbox := mailbox }) hs.statusPid nowMs message
  obtain ⟨hbox, hchildren, _, hevents, hboot, _, _, hspawns⟩ := handled config
    (s := { s with mailbox := mailbox }) nowMs message hidle
  have hexits := handle_exits config (s := { s with mailbox := mailbox })
    hs.statusPid nowMs message hexitKnown
  have hafter : pidAfter
      (PrimitiveActor.handle config nowMs { s with mailbox := mailbox } message).childPid
      (PrimitiveActor.handle config nowMs { s with mailbox := mailbox } message).mailbox =
      pidAfter s.childPid s.mailbox := by
    rw [hpid, hbox, hmail, pidAfter_cons]
  refine ⟨⟨hstatus, ?_, ?_, ?_, ?_, ?_, ?_, ?_⟩, hchildren, hboot, hafter, fun sp hsp => ?_⟩
  · rw [hchildren]
    exact hs.kept
  · rw [hchildren, hafter]
    exact hs.known
  · rw [hpid, hbox]
    exact hrestKnown
  · rw [hchildren]
    exact hs.last
  · rw [hchildren]
    exact hs.quiet
  · rw [hevents, hchildren]
    exact hs.events
  · rw [hexits, hchildren, hbox, List.append_assoc]
    have hold := hs.exits
    rw [hmail, List.flatMap_cons] at hold
    exact hold
  · obtain ⟨_, attempt, _, rfl⟩ := hspawns sp hsp
    exact ⟨attempt, rfl⟩

/-! ### Children -/

theorem Child.exitRecords_of_silent {c : Child} (h : c.history info = []) :
    c.exitRecords = [] := by
  obtain ⟨pid, attempt, phase⟩ := c
  rcases phase with (_ | _ | _) | ⟨_, _ | _ | _⟩ | _ | _ | _ | _ <;>
    simp_all [Child.history, Child.exitRecords]

theorem Coherent.later_silent (hs : s.Coherent info) {i : ℕ} {c : Child}
    (hc : s.children[i]? = some c)
    (hopen : c.phase.isSettled = false ∨ c.phase.isNotified = true) (j : ℕ) (d : Child)
    (hij : i < j) (hd : s.children[j]? = some d) : d.history info = [] := by
  rcases hopen with hun | hn
  · have hlast := hs.last i c hc hun
    have hlt := (List.getElem?_eq_some_iff.mp hd).1
    omega
  · exact hs.quiet i j c d hij hc hd hn

/-- One child whose exit is not reported moves on: `events` is what the broker
is told by it and `records` what the actor is. -/
theorem Coherent.edit (hs : s.Coherent info) {i : ℕ} {c : Child}
    (edit : ChildPhase → ChildPhase) (phase : ChildPhase) (events : List SystemEvent)
    (records : List ExitRecord)
    (hc : s.children[i]? = some c) (hedit : edit c.phase = phase)
    (hopen : c.phase.isSettled = false ∨ c.phase.isNotified = true)
    (hchildren : t.children = s.children.modify i fun c => { c with phase := edit c.phase })
    (hstatus : t.childPid = t.status.pid) (hexitsKnown : ExitsKnown t.childPid t.mailbox)
    (hkept : phase.isKept = true)
    (hsettled : phase.isSettled = false → c.phase.isSettled = false)
    (hknown : ∀ (j : ℕ) d, j ≠ i → s.children[j]? = some d → d.phase.isWatched = true →
      pidAfter t.childPid t.mailbox = some d.pid)
    (hwatched : phase.isWatched = true → pidAfter t.childPid t.mailbox = some c.pid)
    (hearlier : events ≠ [] → ∀ (j : ℕ) d, j < i → s.children[j]? = some d →
      d.phase.isNotified = false)
    (hhistory : ({ c with phase := phase } : Child).history info = c.history info ++ events)
    (hrecords : ({ c with phase := phase } : Child).exitRecords = c.exitRecords ++ records)
    (hevents : t.events.filter SystemEvent.namesChild =
      s.events.filter SystemEvent.namesChild ++ events)
    (hexits : t.exits ++ t.mailbox.flatMap ActorMessage.exitRecords =
      s.exits ++ s.mailbox.flatMap ActorMessage.exitRecords ++ records) :
    t.Coherent info := by
  have hlength : t.children.length = s.children.length := by simp [hchildren]
  have hback : ∀ (j : ℕ) d, t.children[j]? = some d →
      (j = i ∧ d = { c with phase := phase }) ∨ (j ≠ i ∧ s.children[j]? = some d) := by
    intro j d hd
    rw [hchildren] at hd
    rcases getElem?_modify_known hc hd with ⟨hj, hd⟩ | hold
    · exact Or.inl ⟨hj, by rw [hd, hedit]⟩
    · exact Or.inr hold
  refine ⟨hstatus, ?_, ?_, hexitsKnown, ?_, ?_, ?_, ?_⟩
  · intro j d hd
    rcases hback j d hd with ⟨rfl, rfl⟩ | ⟨_, he⟩
    · exact hkept
    · exact hs.kept j d he
  · intro j d hd hw
    rcases hback j d hd with ⟨rfl, rfl⟩ | ⟨hne, he⟩
    · exact hwatched hw
    · exact hknown j d hne he hw
  · intro j d hd hun
    rw [hlength]
    rcases hback j d hd with ⟨rfl, rfl⟩ | ⟨_, he⟩
    · exact hs.last j c hc (hsettled hun)
    · exact hs.last j d he hun
  · intro j k d e hjk hd he hn
    rcases hback k e he with ⟨rfl, rfl⟩ | ⟨hki, he'⟩
    · -- the edited child is the later one: it has told nothing before nor now
      rcases hback j d hd with ⟨rfl, _⟩ | ⟨_, hd'⟩
      · omega
      · rw [hhistory, hs.quiet j k d c hjk hd' hc hn, List.nil_append]
        by_contra hne
        rw [hearlier hne j d hjk hd'] at hn
        cases hn
    · rcases hback j d hd with ⟨rfl, rfl⟩ | ⟨_, hd'⟩
      · exact hs.later_silent hc hopen k e hjk he'
      · exact hs.quiet j k d e hjk hd' he' hn
  · have hflat : t.children.flatMap (Child.history info) =
        s.children.flatMap (Child.history info) ++ events := by
      rw [hchildren]
      refine flatMap_modify_append hc ?_ (hs.later_silent hc hopen)
      rw [hedit]
      exact hhistory
    rw [hevents, hflat, hs.events]
  · have hflat : t.children.flatMap Child.exitRecords =
        s.children.flatMap Child.exitRecords ++ records := by
      rw [hchildren]
      refine flatMap_modify_append hc ?_ fun j d hij hd =>
        Child.exitRecords_of_silent (hs.later_silent hc hopen j d hij hd)
      rw [hedit]
      exact hrecords
    rw [hflat, hexits, hs.exits]

theorem Coherent.rephase (hs : s.Coherent info) {i : ℕ} {c : Child}
    (edit : ChildPhase → ChildPhase) (phase : ChildPhase) (hc : s.children[i]? = some c)
    (hedit : edit c.phase = phase) (hopen : c.phase.isSettled = false)
    (hkept : phase.isKept = true)
    (hwatched : phase.isWatched = true → pidAfter s.childPid s.mailbox = some c.pid)
    (hhistory : ({ c with phase := phase } : Child).history info = c.history info)
    (hrecords : ({ c with phase := phase } : Child).exitRecords = c.exitRecords) :
    (s.editChild i edit).Coherent info :=
  hs.edit edit phase [] [] hc hedit (Or.inl hopen) rfl hs.statusPid hs.exitsKnown
    hkept (fun _ => hopen) (fun j d _ hd hw => hs.known j d hd hw) hwatched
    (fun h => absurd rfl h) (by simpa using hhistory) (by simpa using hrecords)
    (by simp [editChild]) (by simp [editChild])

theorem holds_rephase {i : ℕ} {c : Child} (hc : s.children[i]? = some c) {phase : ChildPhase}
    (hflag : phase.spawnFlag = c.phase.spawnFlag) {a : Option UInt32} {j : ℕ} {p : Pid} {x : Bool}
    (h : s.Holds a j p x) : (s.editChild i fun _ => phase).Holds a j p x := by
  obtain ⟨d, hd, hp, ha, hf⟩ := h
  by_cases hij : i = j
  · subst hij
    have hcd : c = d := Option.some.inj (hc.symm.trans hd)
    subst hcd
    exact ⟨{ c with phase := phase }, getElem?_modify_self hc, hp, ha, hflag.trans hf⟩
  · exact ⟨d, (getElem?_modify_of_ne hij).trans hd, hp, ha, hf⟩

/-! ### Spawns -/

theorem startEvent_ok (info : PrimitiveInfo) (pid : Pid) (attempt : Option UInt32)
    (phase : ChildPhase) :
    startEvent info pid attempt = .ok ((⟨pid, attempt, phase⟩ : Child).startEvent info) := by
  cases attempt with
  | none => exact createSystemEvent_started info pid
  | some attempt => exact createRestartedEvent_ok info pid attempt

theorem startEvent_namesChild (info : PrimitiveInfo) (c : Child) :
    (c.startEvent info).namesChild = true := by
  unfold Child.startEvent
  split <;> rfl

theorem Coherent.created (hs : s.Coherent info) (hloose : s.loose = 0) (pid : Pid)
    (attempt : Option UInt32) :
    Coherent info
      { s with children := s.children ++ [⟨pid, attempt, .alive (.spawn false)⟩] } := by
  refine ⟨hs.statusPid, ?_, ?_, hs.exitsKnown, ?_, ?_, ?_, ?_⟩
  · intro j d hd
    rcases getElem?_snoc_cases hd with hold | ⟨_, rfl⟩
    · exact hs.kept j d hold
    · rfl
  · intro j d hd hw
    rcases getElem?_snoc_cases hd with hold | ⟨_, rfl⟩
    · exact hs.known j d hold hw
    · cases hw
  · intro j d hd hun
    rcases getElem?_snoc_cases hd with hold | ⟨hj, rfl⟩
    · rw [hs.all_settled hloose hold] at hun
      cases hun
    · simp [hj]
  · intro j k d e hjk hd he hn
    rcases getElem?_snoc_cases he with hold | ⟨hk, rfl⟩
    · rcases getElem?_snoc_cases hd with hold' | ⟨hj, rfl⟩
      · exact hs.quiet j k d e hjk hold' hold hn
      · cases hn
    · rfl
  · rw [List.flatMap_append]
    simp only [List.flatMap_cons, List.flatMap_nil, Child.history, List.append_nil]
    exact hs.events
  · rw [List.flatMap_append]
    simp only [List.flatMap_cons, List.flatMap_nil, Child.exitRecords, List.append_nil]
    exact hs.exits

theorem Coherent.announced (hs : s.Coherent info) {attempt : Option UInt32} {i : ℕ} {pid : Pid}
    (hheld : s.Holds attempt i pid false)
    (hquiet : ∀ c ∈ s.children, c.phase.isNotified = false) :
    ((s.broadcast (PrimitiveActor.startEvent info pid attempt)).editChild i .announce).Coherent
        info ∧
      ((s.broadcast (PrimitiveActor.startEvent info pid attempt)).editChild i .announce).Holds
        attempt i pid true := by
  obtain ⟨c, hc, rfl, rfl, hflag⟩ := hheld
  obtain ⟨hun, _⟩ := ChildPhase.unsettled_of_held hflag
  have hevents : (s.broadcast (PrimitiveActor.startEvent info c.pid c.attempt)).events =
      s.events ++ [c.startEvent info] := by
    simp only [PrimitiveActor.broadcast, startEvent_ok info c.pid c.attempt c.phase,
      broadcastLifecycleEvent]
  have hphase : c.phase.announce.isKept = true ∧ c.phase.announce.isWatched = false ∧
      c.phase.announce.spawnFlag = some true ∧
      ({ c with phase := c.phase.announce } : Child).history info =
        c.history info ++ [c.startEvent info] ∧
      ({ c with phase := c.phase.announce } : Child).exitRecords = c.exitRecords := by
    obtain ⟨pid, attempt, phase⟩ := c
    rcases phase with (_ | _ | _) | ⟨_, _ | _ | _⟩ | _ | _ | _ | _ <;>
      simp_all [ChildPhase.spawnFlag, ChildPhase.announce, ChildPhase.isKept,
        ChildPhase.isWatched, Child.history, Child.exitRecords, Child.startEvent]
  obtain ⟨hkept, hunwatched, hflag', hhistory, hrecords⟩ := hphase
  constructor
  · refine hs.edit .announce c.phase.announce [c.startEvent info] [] hc rfl (Or.inl hun)
      rfl hs.statusPid hs.exitsKnown hkept (fun _ => hun)
      (fun j d _ hd hw => hs.known j d hd hw) ?_ ?_ hhistory (by simpa using hrecords) ?_
      (by simp [editChild, broadcast])
    · intro hw
      rw [hunwatched] at hw
      cases hw
    · intro _ j d _ hd
      exact hquiet d (List.mem_of_getElem? hd)
    · simp only [editChild]
      rw [hevents, List.filter_append]
      simp [startEvent_namesChild]
  · exact ⟨{ c with phase := c.phase.announce }, getElem?_modify_self hc, rfl, rfl, hflag'⟩

theorem Coherent.handedOver (hs : s.Coherent info) {attempt : Option UInt32} {i : ℕ} {pid : Pid}
    (hheld : s.Holds attempt i pid true) (hpid : pidAfter s.childPid s.mailbox = some pid) :
    (s.editChild i .watchOver).Coherent info := by
  obtain ⟨c, hc, rfl, rfl, hflag⟩ := hheld
  obtain ⟨hun, _⟩ := ChildPhase.unsettled_of_held hflag
  have hphase : c.phase.watchOver.isKept = true ∧
      ({ c with phase := c.phase.watchOver } : Child).history info = c.history info ∧
      ({ c with phase := c.phase.watchOver } : Child).exitRecords = c.exitRecords := by
    obtain ⟨pid, attempt, phase⟩ := c
    rcases phase with (_ | _ | _) | ⟨_, _ | _ | _⟩ | _ | _ | _ | _ <;>
      simp_all [ChildPhase.spawnFlag, ChildPhase.watchOver, ChildPhase.isKept, Child.history,
        Child.exitRecords, Child.startEvent]
  exact hs.rephase .watchOver c.phase.watchOver hc rfl hun hphase.1 (fun _ => hpid) hphase.2.1
    hphase.2.2

theorem Coherent.broadcast_error (hs : s.Coherent info) (reason : String) :
    (s.broadcast (createSystemEvent .error info none (some reason))).Coherent info := by
  refine ⟨hs.statusPid, hs.kept, hs.known, hs.exitsKnown, hs.last, hs.quiet, ?_, hs.exits⟩
  simp only [PrimitiveActor.broadcast, createSystemEvent_error, broadcastLifecycleEvent,
    List.filter_append]
  rw [hs.events]
  simp [SystemEvent.namesChild, SystemEvent.of, SystemEventPayload.new]

theorem Coherent.post_alone (hs : s.Coherent info) (hloose : s.loose = 0)
    {message : ActorMessage} (hexit : ∀ pid code, message ≠ .childExited pid code) :
    (s.post message).Coherent info := by
  refine hs.post hexit fun i c hc hw => ?_
  have hset := hs.all_settled hloose hc
  rw [(ChildPhase.unsettled_of_watched hw).1] at hset
  cases hset

/-- One step of a spawn: the invariant stays, the spawn stays linked, and so
does the other one. -/
theorem Coherent.advance (hs : s.Coherent config.info) {attempt : Option UInt32}
    {outcome : SpawnOutcome} {point : SpawnPoint} (hlinked : s.Linked ⟨attempt, point⟩)
    (htokens : s.loose + point.token ≤ 1) (houtcome : ∀ pid, outcome ≠ .unidentified pid)
    (hquiet : ∀ i pid, point = .broadcast i pid →
      ∀ c ∈ s.children, c.phase.isNotified = false) :
    (s.advance config attempt outcome point).1.Coherent config.info ∧
      (∀ next, (s.advance config attempt outcome point).2 = some next →
        (s.advance config attempt outcome point).1.Linked ⟨attempt, next⟩) ∧
      ∀ other, s.Linked other → other.attempt ≠ attempt →
        (s.advance config attempt outcome point).1.Linked other := by
  -- the other spawn holds nothing, whether this one has the token or a child
  have alone : s.loose = 0 → ∀ (t : PrimitiveActor) other, s.Linked other → t.Linked other :=
    fun hloose t other hother => hother.transfer fun i p x hheld =>
      absurd hheld (hs.not_holds hloose)
  have apart : ∀ {i p x}, s.Holds attempt i p x → ∀ (t : PrimitiveActor) other,
      s.Linked other → other.attempt ≠ attempt → t.Linked other := by
    intro i p x hheld t other hother hne
    refine hother.transfer fun j q y hq => ?_
    exact absurd (hs.holds_unique hq hheld).2 hne
  cases point with
  | announce =>
    have hloose : s.loose = 0 := by simp only [SpawnPoint.token] at htokens; omega
    refine ⟨hs.post_alone hloose (by simp), ?_, fun other hother _ => alone hloose _ other hother⟩
    intro next hnext
    cases hnext
    trivial
  | create =>
    have hloose : s.loose = 0 := by simp only [SpawnPoint.token] at htokens; omega
    cases outcome with
    | unidentified pid => exact absurd rfl (houtcome pid)
    | failed error =>
      refine ⟨hs.congr rfl rfl rfl rfl rfl rfl, ?_,
        fun other hother _ => alone hloose _ other hother⟩
      intro next hnext
      cases hnext
      trivial
    | created pid =>
      refine ⟨hs.created hloose pid attempt, ?_, fun other hother _ => alone hloose _ other hother⟩
      intro next hnext
      cases hnext
      exact ⟨⟨pid, attempt, .alive (.spawn false)⟩, by simp [PrimitiveActor.advance], rfl, rfl,
        rfl⟩
  | failed error =>
    have hloose : s.loose = 0 := by simp only [SpawnPoint.token] at htokens; omega
    refine ⟨hs.post_alone hloose (by simp), ?_, fun other hother _ => alone hloose _ other hother⟩
    intro next hnext
    cases hnext
    trivial
  | failedEvent error =>
    refine ⟨hs.broadcast_error error, ?_, fun other hother _ => ?_⟩
    · intro next hnext
      cases hnext
    · exact hother.transfer fun i p x hheld => ⟨hheld, rfl⟩
  | unidentified => exact hlinked.elim
  | publish i pid =>
    refine ⟨hs.congr rfl rfl rfl rfl rfl rfl, ?_,
      fun other hother hne => apart hlinked _ other hother hne⟩
    intro next hnext
    cases hnext
    exact hlinked
  | report i pid =>
    refine ⟨hs.post (by simp) ?_, ?_, fun other hother hne => apart hlinked _ other hother hne⟩
    · intro j d hd hw
      rw [hs.not_watched_of_holds hlinked hd] at hw
      cases hw
    · intro next hnext
      cases hnext
      refine ⟨hlinked, ?_⟩
      simp only [PrimitiveActor.advance, PrimitiveActor.post, pidAfter_snoc]
      rfl
  | broadcast i pid =>
    obtain ⟨hcoherent, hheld⟩ := hs.announced hlinked.1 (hquiet i pid rfl)
    refine ⟨hcoherent, ?_, fun other hother hne => apart hlinked.1 _ other hother hne⟩
    intro next hnext
    cases hnext
    exact ⟨pid, hheld, hlinked.2⟩
  | monitor i =>
    obtain ⟨pid, hheld, hpid⟩ := hlinked
    refine ⟨hs.handedOver hheld hpid, ?_, fun other hother hne => apart hheld _ other hother hne⟩
    intro next hnext
    cases hnext

/-! ### Monitors -/

theorem Coherent.told (hs : s.Coherent info) {i : ℕ} {c : Child} {status : ExitStatus}
    (hc : s.children[i]? = some c) (hphase : c.phase = .cleared status) :
    ((s.post (.childExited c.pid (exitCodeFromStatus status))).editChild i
      fun _ => .notified status).Coherent info := by
  have hun : c.phase.isSettled = false := by rw [hphase]; rfl
  have hpid : pidAfter s.childPid s.mailbox = some c.pid :=
    hs.known i c hc (by rw [hphase]; rfl)
  refine hs.edit (fun _ => .notified status) (.notified status) []
    [exitRecord c.pid (exitCodeFromStatus status)] hc rfl (Or.inl hun) rfl hs.statusPid ?_ rfl
    (fun _ => hun) ?_ (fun h => by cases h) (fun h => absurd rfl h) ?_ ?_ ?_ ?_
  · refine exitsKnown_snoc hs.exitsKnown fun pid code h => ?_
    cases h
    exact hpid
  · intro j d hne hd hw
    have hlast := hs.last i c hc hun
    have hlast' := hs.last j d hd (ChildPhase.unsettled_of_watched hw).1
    omega
  · simp [Child.history, hphase, Child.startEvent]
  · simp [Child.exitRecords, hphase]
  · simp [editChild, PrimitiveActor.post]
  · simp [editChild, PrimitiveActor.post, ActorMessage.exitRecords]

theorem exitEvent_ok (info : PrimitiveInfo) (c : Child) (status : ExitStatus) :
    (if isCleanExit status then createSystemEvent .stopped info (some c.pid) none
      else createSystemEvent .error info (some c.pid)
        (some (exitErrorMessage (exitCodeFromStatus status)))) =
      .ok (c.exitEvent info status) := by
  unfold Child.exitEvent
  split
  · exact createSystemEvent_stopped info (some c.pid)
  · exact createSystemEvent_error info (some c.pid) _

theorem exitEvent_namesChild (info : PrimitiveInfo) (c : Child) (status : ExitStatus) :
    (c.exitEvent info status).namesChild = true := by
  unfold Child.exitEvent
  split <;> rfl

theorem Coherent.reported (hs : s.Coherent info) {i : ℕ} {c : Child} {status : ExitStatus}
    (hc : s.children[i]? = some c) (hphase : c.phase = .notified status) :
    ((s.broadcast (.ok (c.exitEvent info status))).editChild i
      fun _ => .reported status).Coherent info := by
  have hn : c.phase.isNotified = true := by rw [hphase]; rfl
  refine hs.edit (fun _ => .reported status) (.reported status) [c.exitEvent info status] [] hc rfl
    (Or.inr hn) rfl hs.statusPid hs.exitsKnown rfl (fun h => by cases h)
    (fun j d _ hd hw => hs.known j d hd hw) (fun h => by cases h) ?_ ?_ ?_ ?_ ?_
  · intro _ j d hji hd
    rw [Bool.eq_false_iff]
    intro hdn
    have hsilent := hs.quiet j i d c hji hd hc hdn
    simp [Child.history, hphase] at hsilent
  · simp [Child.history, hphase, Child.startEvent, Child.exitEvent]
  · simp [Child.exitRecords, hphase]
  · simp [editChild, PrimitiveActor.broadcast, broadcastLifecycleEvent, exitEvent_namesChild]
  · simp [editChild, PrimitiveActor.broadcast]

theorem Coherent.monitorStep (hs : s.Coherent config.info) {i : ℕ} {c : Child}
    (hc : s.children[i]? = some c) (h : s.monitorStep config i c = some t) :
    t.Coherent config.info ∧ ∀ sp, s.Linked sp → t.Linked sp := by
  obtain ⟨status, ⟨hphase, rfl⟩ | ⟨hphase, rfl⟩ | ⟨hphase, rfl⟩ | ⟨hphase, rfl⟩⟩ :=
    monitorStep_cases h
  · constructor
    · refine hs.rephase (fun _ => .reaped status) (.reaped status) hc rfl (by rw [hphase]; rfl) rfl
        ?_ ?_ ?_
      · exact fun _ => hs.known i c hc (by rw [hphase]; rfl)
      · simp [Child.history, hphase, Child.startEvent]
      · simp [Child.exitRecords, hphase]
    · intro sp hsp
      exact hsp.transfer fun j p x hheld =>
        ⟨holds_rephase hc (by rw [hphase]; rfl) hheld, rfl⟩
  · constructor
    · refine Coherent.congr (s := s.editChild i fun _ => .cleared status) ?_ rfl rfl rfl rfl rfl rfl
      refine hs.rephase (fun _ => .cleared status) (.cleared status) hc rfl (by rw [hphase]; rfl)
        rfl ?_ ?_ ?_
      · exact fun _ => hs.known i c hc (by rw [hphase]; rfl)
      · simp [Child.history, hphase, Child.startEvent]
      · simp [Child.exitRecords, hphase]
    · intro sp hsp
      refine hsp.transfer fun j p x hheld => ⟨?_, rfl⟩
      have hflag : (ChildPhase.cleared status).spawnFlag = c.phase.spawnFlag := by
        rw [hphase]
        rfl
      exact holds_rephase hc hflag hheld
  · refine ⟨hs.told hc hphase, fun sp hsp => hsp.transfer fun j p x hheld => ?_⟩
    -- a spawn that holds a child holds the last one, which this monitor has
    have hwatched : c.phase.isWatched = true := by rw [hphase]; rfl
    rw [hs.not_watched_of_holds hheld hc] at hwatched
    cases hwatched
  · rw [exitEvent_ok]
    refine ⟨hs.reported hc hphase, fun sp hsp => hsp.transfer fun j p x hheld => ⟨?_, rfl⟩⟩
    have hflag : (ChildPhase.reported status).spawnFlag = c.phase.spawnFlag := by
      rw [hphase]
      rfl
    exact holds_rephase (s := s.broadcast (.ok (c.exitEvent config.info status))) hc hflag hheld

/-! ### Runs -/

def startsNow : Option Spawn → Bool
  | some ⟨_, .broadcast _ _⟩ => true
  | _ => false

def SpawnOutcome.identified : SpawnOutcome → Bool
  | .unidentified _ => false
  | _ => true

def awaitedSpawn : Awaited → Option Spawn
  | .spawn spawn => some spawn
  | _ => none

/-- A step of a spawn: its process, if it makes one, has a pid, and its start
event does not go out while a monitor has an exit left to broadcast. -/
def OrderlySpawn (s : PrimitiveActor) (spawn : Option Spawn) (outcome : SpawnOutcome) : Prop :=
  SpawnOutcome.identified outcome = true ∧
    (startsNow spawn = true → ∀ c ∈ s.children, c.phase.isNotified = false)

instance (s : PrimitiveActor) (spawn : Option Spawn) (outcome : SpawnOutcome) :
    Decidable (s.OrderlySpawn spawn outcome) :=
  inferInstanceAs (Decidable (_ ∧ (_ → ∀ c ∈ s.children, _)))

def Orderly (s : PrimitiveActor) : ActorAction → Prop
  | .bootStep outcome => s.OrderlySpawn s.boot outcome
  | .taskStep outcome => s.OrderlySpawn (awaitedSpawn s.task) outcome
  | .waitFails _ => False
  | _ => True

instance (s : PrimitiveActor) : ∀ a : ActorAction, Decidable (s.Orderly a)
  | .bootStep outcome => inferInstanceAs (Decidable (s.OrderlySpawn s.boot outcome))
  | .taskStep outcome =>
    inferInstanceAs (Decidable (s.OrderlySpawn (awaitedSpawn s.task) outcome))
  | .waitFails _ => isFalse id
  | .send _ | .deliver _ | .exit .. | .monitorStep _ | .kill _ | .requestStop | .terminate =>
    isTrue trivial

structure WellFormed (config : PrimitiveActorConfig) (s : PrimitiveActor) : Prop where
  tokens : s.tokens ≤ 1
  coherent : s.Coherent config.info
  boot : ∀ sp, s.boot = some sp → sp.attempt = none ∧ s.Linked sp
  task : ∀ sp, s.task = .spawn sp → sp.attempt ≠ none ∧ s.Linked sp

theorem wellFormed_start (config : PrimitiveActorConfig) : start.WellFormed config where
  tokens := by decide
  coherent := coherent_start config.info
  boot := by
    intro sp hsp
    cases hsp
    exact ⟨rfl, trivial⟩
  task := by
    intro sp hsp
    cases hsp

theorem OrderlySpawn.outcome {spawn : Option Spawn} {outcome : SpawnOutcome}
    (h : s.OrderlySpawn spawn outcome) (pid : Pid) : outcome ≠ .unidentified pid := by
  rintro rfl
  cases h.1

theorem OrderlySpawn.quiet {sp : Spawn} {outcome : SpawnOutcome}
    (h : s.OrderlySpawn (some sp) outcome) (i : ℕ) (pid : Pid) (hp : sp.point = .broadcast i pid) :
    ∀ c ∈ s.children, c.phase.isNotified = false := by
  refine h.2 ?_
  obtain ⟨attempt, point⟩ := sp
  cases hp
  rfl

theorem WellFormed.bootStep (hs : s.WellFormed config) {outcome : SpawnOutcome}
    (horderly : s.OrderlySpawn s.boot outcome) (h : s.bootStep config outcome = some t) :
    t.WellFormed config := by
  have htokens : t.tokens ≤ 1 := (bootStep_tokens h).trans hs.tokens
  obtain ⟨sp, hboot, rfl⟩ := Option.map_eq_some_iff.mp h
  obtain ⟨hattempt, hlinked⟩ := hs.boot sp hboot
  rw [hboot] at horderly
  obtain ⟨_, htask, _, _⟩ := advance_futures config s sp.attempt outcome sp.point
  have hloose := loose_of_boot hs.tokens hboot
  obtain ⟨hcoherent, hnext, hother⟩ := hs.coherent.advance hlinked hloose horderly.outcome
    horderly.quiet
  refine ⟨htokens, hcoherent.congr rfl rfl rfl rfl rfl rfl, ?_, ?_⟩
  · intro sp' hsp'
    obtain ⟨point, hpoint, rfl⟩ := Option.map_eq_some_iff.mp hsp'
    exact ⟨hattempt, hnext point hpoint⟩
  · intro sp' hsp'
    obtain ⟨hne, hlinked'⟩ := hs.task sp' (htask ▸ hsp')
    exact ⟨hne, hother sp' hlinked' (by rw [hattempt]; exact hne)⟩

theorem WellFormed.taskStep (hs : s.WellFormed config) {outcome : SpawnOutcome}
    (horderly : s.OrderlySpawn (awaitedSpawn s.task) outcome)
    (h : s.taskStep config outcome = some t) : t.WellFormed config := by
  have htokens : t.tokens ≤ 1 := (taskStep_tokens h).trans hs.tokens
  rcases taskStep_cases h with ⟨sp, htask, rfl⟩ | ⟨attempt, htask, rfl⟩ | ⟨reason, htask, rfl⟩
  · obtain ⟨hattempt, hlinked⟩ := hs.task sp htask
    rw [htask] at horderly
    obtain ⟨hboot, _, _, _⟩ := advance_futures config s sp.attempt outcome sp.point
    have hloose := loose_of_task hs.tokens htask
    obtain ⟨hcoherent, hnext, hother⟩ := hs.coherent.advance hlinked hloose horderly.outcome
      horderly.quiet
    refine ⟨htokens, hcoherent.congr rfl rfl rfl rfl rfl rfl, ?_, ?_⟩
    · intro sp' hsp'
      obtain ⟨hnone, hlinked'⟩ := hs.boot sp' (hboot ▸ hsp')
      exact ⟨hnone, hother sp' hlinked' (by rw [hnone]; exact hattempt.symm)⟩
    · intro sp' hsp'
      cases hpoint : (s.advance config sp.attempt outcome sp.point).2 with
      | none =>
        simp only [hpoint] at hsp'
        cases hsp'
      | some point =>
        simp only [hpoint, Option.map_some, Option.getD_some, Awaited.spawn.injEq] at hsp'
        subst hsp'
        exact ⟨hattempt, hnext point hpoint⟩
  · have hposted : (s.post (.restartChild attempt)).Coherent config.info :=
      hs.coherent.post (by simp) fun _ _ _ _ => rfl
    refine ⟨htokens, hposted.congr rfl rfl rfl rfl rfl rfl, ?_, ?_⟩
    · intro sp hsp
      obtain ⟨hnone, hlinked⟩ := hs.boot sp hsp
      refine ⟨hnone, hlinked.transfer fun i p x hheld => ⟨hheld, ?_⟩⟩
      simp only [PrimitiveActor.post, pidAfter_snoc]
      rfl
    · intro sp hsp
      cases hsp
  · have hcast := hs.coherent.broadcast_error reason
    refine ⟨htokens, hcast.congr rfl rfl rfl rfl rfl rfl, ?_, ?_⟩
    · intro sp hsp
      obtain ⟨hnone, hlinked⟩ := hs.boot sp hsp
      exact ⟨hnone, hlinked.transfer fun i p x hheld => ⟨hheld, rfl⟩⟩
    · intro sp hsp
      cases hsp

theorem WellFormed.step (hs : s.WellFormed config) {a : ActorAction} (horderly : s.Orderly a)
    (h : s.step config a = some t) : t.WellFormed config := by
  have htokens : t.tokens ≤ 1 := (step_tokens h).trans hs.tokens
  have hcoherent := hs.coherent
  cases a with
  | send request =>
    obtain rfl := Option.some.inj h
    refine ⟨htokens, hcoherent.post (by cases request <;> simp [ActorRequest.message]) ?_, ?_, ?_⟩
    · exact fun _ _ _ _ => pidEffect_request request _
    · exact fun sp hsp => ⟨(hs.boot sp hsp).1, (hs.boot sp hsp).2.transfer fun i p x hheld =>
        ⟨hheld, pidAfter_post_request s request⟩⟩
    · exact fun sp hsp => ⟨(hs.task sp hsp).1, (hs.task sp hsp).2.transfer fun i p x hheld =>
        ⟨hheld, pidAfter_post_request s request⟩⟩
  | deliver nowMs =>
    obtain ⟨hnew, hchildren, hboot, hafter, htask⟩ := hcoherent.deliver h
    refine ⟨htokens, hnew, fun sp hsp => ?_, fun sp hsp => ?_⟩
    · obtain ⟨hnone, hlinked⟩ := hs.boot sp (hboot ▸ hsp)
      refine ⟨hnone, hlinked.transfer fun i p x hheld => ⟨?_, hafter⟩⟩
      simpa only [Holds, hchildren] using hheld
    · obtain ⟨attempt, rfl⟩ := htask sp hsp
      exact ⟨by simp, trivial⟩
  | bootStep outcome => exact hs.bootStep horderly h
  | taskStep outcome => exact hs.taskStep horderly h
  | exit i status =>
    obtain ⟨c, holder, hc, hphase, rfl⟩ := step_exit_cases h
    have hkept := hcoherent.kept i c hc
    rw [hphase] at hkept
    have hnew : (s.editChild i fun _ => .exited status holder).Coherent config.info := by
      refine hcoherent.rephase (fun _ => .exited status holder) (.exited status holder) hc rfl
        (by rw [hphase]; rfl) ?_ ?_ ?_ ?_
      · cases holder <;> first | rfl | cases hkept
      · intro hw
        refine hcoherent.known i c hc ?_
        rw [hphase]
        cases holder <;> first | rfl | cases hw
      · rcases holder with (_ | _) | _ | _ <;> simp [Child.history, hphase, Child.startEvent]
      · rcases holder with (_ | _) | _ | _ <;> simp [Child.exitRecords, hphase]
    have hflag : (ChildPhase.exited status holder).spawnFlag = c.phase.spawnFlag := by
      rw [hphase]
      cases holder <;> rfl
    refine ⟨htokens, hnew, ?_, ?_⟩
    · exact fun sp hsp => ⟨(hs.boot sp hsp).1, (hs.boot sp hsp).2.transfer fun j p x hheld =>
        ⟨holds_rephase hc hflag hheld, rfl⟩⟩
    · exact fun sp hsp => ⟨(hs.task sp hsp).1, (hs.task sp hsp).2.transfer fun j p x hheld =>
        ⟨holds_rephase hc hflag hheld, rfl⟩⟩
  | monitorStep i =>
    obtain ⟨c, hc, h⟩ := Option.bind_eq_some_iff.mp h
    obtain ⟨hnew, hlinked⟩ := hcoherent.monitorStep hc h
    obtain ⟨hboot, htask⟩ : t.boot = s.boot ∧ t.task = s.task := by
      obtain ⟨status, ⟨_, rfl⟩ | ⟨_, rfl⟩ | ⟨_, rfl⟩ | ⟨_, rfl⟩⟩ := monitorStep_cases h
      all_goals exact ⟨rfl, rfl⟩
    refine ⟨htokens, hnew, fun sp hsp => ?_, fun sp hsp => ?_⟩
    · have hold := hs.boot sp (hboot ▸ hsp)
      exact ⟨hold.1, hlinked sp hold.2⟩
    · have hold := hs.task sp (htask ▸ hsp)
      exact ⟨hold.1, hlinked sp hold.2⟩
  | waitFails i => exact horderly.elim
  | kill pid =>
    obtain rfl := Option.some.inj h
    exact ⟨htokens, hcoherent.congr rfl rfl rfl rfl rfl rfl, hs.boot, hs.task⟩
  | requestStop =>
    obtain rfl := Option.some.inj h
    exact ⟨htokens, hcoherent.congr rfl rfl rfl rfl rfl rfl, hs.boot, hs.task⟩
  | terminate =>
    obtain ⟨signals, _, rfl⟩ := step_terminate_cases h
    exact ⟨htokens, hcoherent.congr rfl rfl rfl rfl rfl rfl, hs.boot, hs.task⟩

theorem Coherent.reported_of_later (hs : s.Coherent info) {i j : ℕ} {c d : Child} (hij : i < j)
    (hc : s.children[i]? = some c) (hd : s.children[j]? = some d) (hheard : d.history info ≠ []) :
    ∃ status, c.phase = .reported status := by
  have hlt := (List.getElem?_eq_some_iff.mp hd).1
  have hset : c.phase.isSettled = true := by
    rw [← Bool.not_eq_false]
    intro hun
    have hlast := hs.last i c hc hun
    omega
  have hnot : c.phase.isNotified = false := by
    rw [Bool.eq_false_iff]
    intro hn
    exact hheard (hs.quiet i j c d hij hc hd hn)
  cases hphase : c.phase with
  | reported status => exact ⟨status, rfl⟩
  | notified status => simp [hphase, ChildPhase.isNotified] at hnot
  | _ => simp [hphase, ChildPhase.isSettled] at hset

/-- The record the actor made `i`-th is that of the child spawned `i`-th, which
has told it of its exit. -/
theorem Coherent.recorded (hs : s.Coherent info) {i : ℕ} {record : ExitRecord}
    (h : s.exits[i]? = some record) :
    ∃ c status, s.children[i]? = some c ∧
      (c.phase = .notified status ∨ c.phase = .reported status) ∧
      record = exitRecord c.pid (exitCodeFromStatus status) := by
  have hall : (s.children.flatMap Child.exitRecords)[i]? = some record := by
    rw [hs.exits, List.getElem?_append_left (List.getElem?_eq_some_iff.mp h).1]
    exact h
  obtain ⟨c, hc, hrecords⟩ := getElem?_flatMap_of_last (fun c _ => c.length_exitRecords)
    (fun j d hd hnone => hs.last j d hd (d.exitRecords_eq_nil_iff.mp hnone)) hall
  obtain ⟨status, hphase, hrecord⟩ := Child.exitRecords_eq_singleton hrecords
  exact ⟨c, status, hc, hphase, hrecord⟩

end PrimitiveActor

end Emergent.Engine

import Emergent.Kit.Modify
import Emergent.Kit.Runs
import Emergent.Kit.Tally

/-!
# The write queue of the TypeScript client (`sdks/ts/src/client.ts`)

`#writeFrame` starts a write at once when nothing is queued and otherwise
chains it on the tail of the call before it; `writeAll` loops over the partial
writes of the socket. A call is a state of its promise, and an action is one
turn of the event loop with what the socket did in it.
-/

namespace Emergent.Sdk.WriteQueue
open Kit

inductive WriteError where
  | notConnected
  | acceptedNoBytes
  | rejected
  deriving Repr, DecidableEq

/-- A call waits in `then` on the tail of an earlier one, is in the loop of
`writeAll`, has settled, or has run its `finally`. -/
inductive Phase where
  | waiting (tail : Option ℕ)
  | writing
  | settled (error : Option WriteError)
  | released (error : Option WriteError)
  deriving Repr, DecidableEq

structure Call where
  frame : List UInt8
  written : ℕ
  phase : Phase
  deriving Repr, DecidableEq

namespace Call

/-- What the call has put on the wire. -/
def sent (c : Call) : List UInt8 := c.frame.take c.written

def isReleased (c : Call) : Bool :=
  match c.phase with
  | .released _ => true
  | _ => false

def isWaiting (c : Call) : Bool :=
  match c.phase with
  | .waiting _ => true
  | _ => false

def error (c : Call) : Option WriteError :=
  match c.phase with
  | .settled e | .released e => e
  | _ => none

/-- The call was rejected with a part of its frame on the wire. -/
def failedMidway (c : Call) : Bool := c.error.isSome && decide (0 < c.written)

end Call

structure Client where
  conn : Bool
  queuedWrites : ℕ
  writeTail : Option ℕ
  calls : List Call
  wire : List UInt8
  deriving Repr, DecidableEq

def Client.new : Client := ⟨true, 0, none, [], []⟩

/-- The test of the loop in `writeAll`. -/
def writeAll (frame : List UInt8) (written : ℕ) : Phase :=
  if written < frame.length then .writing else .settled none

/-- `send`, up to its first `await`. -/
def send (conn : Bool) (frame : List UInt8) : Phase :=
  if !conn then .settled (some .notConnected) else writeAll frame 0

inductive Action where
  | writeFrame (frame : List UInt8)
  | turn (call : ℕ)
  | wrote (call n : ℕ)
  | rejected (call : ℕ)
  | release (call : ℕ)
  | close
  deriving Repr, DecidableEq

namespace Client

def tailReleased (s : Client) : Option ℕ → Bool
  | none => true
  | some t => (s.calls[t]?).any Call.isReleased

def setPhase (s : Client) (i : ℕ) (phase : Call → Phase) : Client :=
  { s with calls := s.calls.modify i fun c => { c with phase := phase c } }

/-- `n` bytes taken: `written += n`, and the test of the loop again. -/
def took (s : Client) (i n : ℕ) (c : Call) : Client :=
  { s with
    calls := s.calls.modify i fun c =>
      { c with written := c.written + n, phase := writeAll c.frame (c.written + n) }
    wire := s.wire ++ (c.frame.drop c.written).take n }

def step (s : Client) : Action → Option Client
  | .writeFrame frame =>
    let phase := if s.queuedWrites = 0 then send s.conn frame else .waiting s.writeTail
    some { s with
      calls := s.calls ++ [⟨frame, 0, phase⟩]
      queuedWrites := s.queuedWrites + 1
      writeTail := some s.calls.length }
  | .turn i => do
    let c ← s.calls[i]?
    match c.phase with
    | .waiting tail =>
      if s.tailReleased tail then some (s.setPhase i fun c => send s.conn c.frame) else none
    | _ => none
  | .wrote i n => do
    let c ← s.calls[i]?
    if c.phase = .writing ∧ n ≤ c.frame.length - c.written then
      if n = 0 then some (s.setPhase i fun _ => .settled (some .acceptedNoBytes))
      else some (s.took i n c)
    else none
  | .rejected i => do
    let c ← s.calls[i]?
    if c.phase = .writing then some (s.setPhase i fun _ => .settled (some .rejected)) else none
  | .release i => do
    let c ← s.calls[i]?
    match c.phase with
    | .settled e =>
      some { s.setPhase i (fun _ => .released e) with queuedWrites := s.queuedWrites - 1 }
    | _ => none
  | .close => some { s with conn := false }

end Client

/-! ### What one action does to a call -/

/-- Everything a step can do. -/
inductive Moved (s : Client) : Action → Client → Prop
  | started {frame : List UInt8} (h : s.queuedWrites = 0) :
    Moved s (.writeFrame frame) { s with
      calls := s.calls ++ [⟨frame, 0, send s.conn frame⟩]
      queuedWrites := s.queuedWrites + 1
      writeTail := some s.calls.length }
  | queued {frame : List UInt8} (h : s.queuedWrites ≠ 0) :
    Moved s (.writeFrame frame) { s with
      calls := s.calls ++ [⟨frame, 0, .waiting s.writeTail⟩]
      queuedWrites := s.queuedWrites + 1
      writeTail := some s.calls.length }
  | turned {i : ℕ} {c : Call} {tail : Option ℕ} (hc : s.calls[i]? = some c)
    (hphase : c.phase = .waiting tail) (htail : s.tailReleased tail = true) :
    Moved s (.turn i) (s.setPhase i fun c => send s.conn c.frame)
  | refused {i : ℕ} {c : Call} {a : Action} {e : WriteError} (hc : s.calls[i]? = some c)
    (hphase : c.phase = .writing) (ha : a = .wrote i 0 ∨ a = .rejected i) :
    Moved s a (s.setPhase i fun _ => .settled (some e))
  | took {i n : ℕ} {c : Call} (hc : s.calls[i]? = some c) (hphase : c.phase = .writing)
    (hn : n ≠ 0) (hfits : n ≤ c.frame.length - c.written) :
    Moved s (.wrote i n) (s.took i n c)
  | released {i : ℕ} {c : Call} {e : Option WriteError} (hc : s.calls[i]? = some c)
    (hphase : c.phase = .settled e) :
    Moved s (.release i)
      { s.setPhase i (fun _ => .released e) with queuedWrites := s.queuedWrites - 1 }
  | closed : Moved s .close { s with conn := false }

theorem step_moved {s t : Client} {a : Action} (h : s.step a = some t) : Moved s a t := by
  cases a with
  | writeFrame frame =>
    rw [← Option.some.inj h]
    by_cases hzero : s.queuedWrites = 0
    · simp only [if_pos hzero]
      exact .started hzero
    · simp only [if_neg hzero]
      exact .queued hzero
  | turn i =>
    obtain ⟨c, hc, h⟩ := Option.bind_eq_some_iff.mp h
    split at h
    · rename_i tail hphase
      split at h
      · rename_i htail
        rw [← Option.some.inj h]
        exact .turned hc hphase htail
      · cases h
    · cases h
  | wrote i n =>
    obtain ⟨c, hc, h⟩ := Option.bind_eq_some_iff.mp h
    split at h
    · rename_i hwriting
      by_cases hn : n = 0
      · rw [if_pos hn] at h
        rw [← Option.some.inj h, hn]
        exact .refused hc hwriting.1 (Or.inl rfl)
      · rw [if_neg hn] at h
        rw [← Option.some.inj h]
        exact .took hc hwriting.1 hn hwriting.2
    · cases h
  | rejected i =>
    obtain ⟨c, hc, h⟩ := Option.bind_eq_some_iff.mp h
    split at h
    · rename_i hphase
      rw [← Option.some.inj h]
      exact .refused hc hphase (Or.inr rfl)
    · cases h
  | release i =>
    obtain ⟨c, hc, h⟩ := Option.bind_eq_some_iff.mp h
    split at h
    · rename_i e hphase
      rw [← Option.some.inj h]
      exact .released hc hphase
    · cases h
  | close =>
    rw [← Option.some.inj h]
    exact .closed

/-! ### Calls take turns -/

/-- What a call has written in each phase. A call that resolved has written its
whole frame. -/
def Call.Sound (c : Call) : Prop :=
  match c.phase with
  | .waiting _ => c.written = 0
  | .writing => c.written < c.frame.length
  | .settled e | .released e =>
    c.written ≤ c.frame.length ∧ (e = none → c.written = c.frame.length) ∧
      (e ≠ none → 0 < c.written → c.written < c.frame.length)

/-- The wire is what the calls wrote, in the order they were made, and a call
leaves the queue before the next one starts. -/
structure InTurn (s : Client) : Prop where
  wire : s.wire = s.calls.flatMap Call.sent
  sound : ∀ c ∈ s.calls, c.Sound
  queued : s.queuedWrites = s.calls.countP fun c => !c.isReleased
  tail : ∀ t, s.writeTail = some t → t + 1 = s.calls.length
  noTail : s.writeTail = none → s.calls = []
  waits : ∀ (i : ℕ) (c : Call) (tail : Option ℕ), s.calls[i]? = some c →
    c.phase = .waiting tail → ∃ t, tail = some t ∧ t + 1 = i
  order : ∀ (i j : ℕ) (a b : Call), i < j → s.calls[i]? = some a → s.calls[j]? = some b →
    b.isWaiting = false → a.isReleased = true

theorem inTurn_new : InTurn Client.new where
  wire := rfl
  sound := by simp [Client.new]
  queued := rfl
  tail := by simp [Client.new]
  noTail _ := rfl
  waits := by simp [Client.new]
  order := by simp [Client.new]

theorem writeAll_cases (frame : List UInt8) (written : ℕ) :
    (written < frame.length ∧ writeAll frame written = .writing) ∨
      (frame.length ≤ written ∧ writeAll frame written = .settled none) := by
  unfold writeAll
  by_cases h : written < frame.length
  · exact Or.inl ⟨h, if_pos h⟩
  · exact Or.inr ⟨not_lt.mp h, if_neg h⟩

theorem sound_writeAll {frame : List UInt8} {written : ℕ} (h : written ≤ frame.length) :
    Call.Sound ⟨frame, written, writeAll frame written⟩ := by
  rcases writeAll_cases frame written with ⟨hlt, hphase⟩ | ⟨hle, hphase⟩
  · rw [hphase]
    exact hlt
  · rw [hphase]
    have heq : written = frame.length := le_antisymm h hle
    exact ⟨h, fun _ => heq, fun hnone => absurd rfl hnone⟩

theorem sound_send (conn : Bool) (frame : List UInt8) :
    Call.Sound ⟨frame, 0, send conn frame⟩ := by
  cases conn with
  | false =>
    refine ⟨Nat.zero_le _, ?_, fun _ hpos => absurd hpos (Nat.lt_irrefl 0)⟩
    intro h
    cases h
  | true => exact sound_writeAll (Nat.zero_le _)

theorem isWaiting_writeAll (frame : List UInt8) (written k : ℕ) :
    Call.isWaiting ⟨frame, k, writeAll frame written⟩ = false := by
  rcases writeAll_cases frame written with ⟨_, hphase⟩ | ⟨_, hphase⟩ <;> rw [hphase] <;> rfl

theorem isReleased_writeAll (frame : List UInt8) (written k : ℕ) :
    Call.isReleased ⟨frame, k, writeAll frame written⟩ = false := by
  rcases writeAll_cases frame written with ⟨_, hphase⟩ | ⟨_, hphase⟩ <;> rw [hphase] <;> rfl

theorem isWaiting_send (conn : Bool) (frame : List UInt8) :
    Call.isWaiting ⟨frame, 0, send conn frame⟩ = false := by
  cases conn with
  | false => rfl
  | true => exact isWaiting_writeAll frame 0 0

theorem isReleased_send (conn : Bool) (frame : List UInt8) :
    Call.isReleased ⟨frame, 0, send conn frame⟩ = false := by
  cases conn with
  | false => rfl
  | true => exact isReleased_writeAll frame 0 0

theorem isWaiting_iff {c : Call} : c.isWaiting = true ↔ ∃ tail, c.phase = .waiting tail := by
  unfold Call.isWaiting
  split <;> simp_all

theorem Call.Sound.sent_waiting {c : Call} (h : c.Sound) (hw : c.isWaiting = true) :
    c.sent = [] := by
  obtain ⟨tail, hphase⟩ := isWaiting_iff.mp hw
  have hzero : c.written = 0 := by simpa [Call.Sound, hphase] using h
  rw [Call.sent, hzero, List.take_zero]

namespace InTurn
variable {s : Client}

/-- A call in the loop of `writeAll` is first in the queue and not done. -/
theorem writing (h : InTurn s) {i : ℕ} {c : Call} (hc : s.calls[i]? = some c)
    (hphase : c.phase = .writing) :
    c.isReleased = false ∧ c.isWaiting = false ∧ c.written < c.frame.length := by
  have hsound := h.sound c (List.mem_of_getElem? hc)
  simp only [Call.Sound, hphase] at hsound
  exact ⟨by simp [Call.isReleased, hphase], by simp [Call.isWaiting, hphase], hsound⟩

/-- What stands behind a call that has not left the queue has written nothing. -/
theorem sent_later (h : InTurn s) {i j : ℕ} {c b : Call} (hij : i < j)
    (hc : s.calls[i]? = some c) (hopen : c.isReleased = false) (hb : s.calls[j]? = some b) :
    b.isWaiting = true ∧ b.sent = [] := by
  have hwaiting : b.isWaiting = true := by
    by_contra hstarted
    have hreleased := h.order i j c b hij hc hb (by simpa using hstarted)
    rw [hopen] at hreleased
    cases hreleased
  exact ⟨hwaiting, (h.sound b (List.mem_of_getElem? hb)).sent_waiting hwaiting⟩

theorem released_before_turn (h : InTurn s) {i : ℕ} {c : Call} {tail : Option ℕ}
    (hc : s.calls[i]? = some c) (hphase : c.phase = .waiting tail)
    (htail : s.tailReleased tail = true) {j : ℕ} {a : Call} (hji : j < i)
    (ha : s.calls[j]? = some a) : a.isReleased = true := by
  obtain ⟨t, rfl, ht⟩ := h.waits i c tail hc hphase
  obtain ⟨p, hp, hreleased⟩ := (Option.any_eq_true _ _).mp htail
  rcases Nat.lt_or_ge j t with hlt | hge
  · have hstarted : p.isWaiting = false := by
      unfold Call.isReleased at hreleased
      unfold Call.isWaiting
      split at hreleased <;> simp_all
    exact h.order j t a p hlt ha hp hstarted
  · have heq : j = t := by omega
    rw [heq, hp] at ha
    rw [← Option.some.inj ha]
    exact hreleased

/-- One call that is first in the queue is edited. -/
theorem edit (h : InTurn s) (extra : List UInt8) {t : Client} {i : ℕ} {c : Call}
    {f : Call → Call} (hc : s.calls[i]? = some c) (hcalls : t.calls = s.calls.modify i f)
    (hwire : t.wire = s.wire ++ extra) (htail : t.writeTail = s.writeTail)
    (hsent : (f c).sent = c.sent ++ extra) (hsound : (f c).Sound)
    (hactive : (f c).isWaiting = false) (hopen : c.isReleased = false)
    (hbefore : ∀ (j : ℕ) (a : Call), j < i → s.calls[j]? = some a → a.isReleased = true)
    (hqueued : t.queuedWrites + (if (f c).isReleased then 1 else 0) = s.queuedWrites) :
    InTurn t where
  wire := by
    rw [hcalls, hwire, h.wire]
    exact (flatMap_modify_append hc hsent fun j b hij hb => (h.sent_later hij hc hopen hb).2).symm
  sound a ha := by
    rw [hcalls] at ha
    obtain ⟨j, hj⟩ := List.getElem?_of_mem ha
    rcases getElem?_modify_known hc hj with ⟨_, hnew⟩ | ⟨_, hold⟩
    · rw [hnew]
      exact hsound
    · exact h.sound a (List.mem_of_getElem? hold)
  queued := by
    have hcount := countP_modify (p := fun c => !c.isReleased) hc f
    have hbase := h.queued
    rw [hcalls]
    rw [hopen] at hcount
    cases hr : (f c).isReleased with
    | false =>
      rw [hr] at hcount hqueued
      simp at hcount hqueued
      omega
    | true =>
      rw [hr] at hcount hqueued
      simp at hcount hqueued
      omega
  tail k hk := by
    rw [htail] at hk
    rw [hcalls, List.length_modify]
    exact h.tail k hk
  noTail hk := by
    rw [htail] at hk
    rw [hcalls, h.noTail hk]
    simp
  waits j a tail ha hphase := by
    rw [hcalls] at ha
    rcases getElem?_modify_known hc ha with ⟨_, hnew⟩ | ⟨_, hold⟩
    · rw [hnew] at hphase
      have hw : (f c).isWaiting = true := isWaiting_iff.mpr ⟨tail, hphase⟩
      rw [hactive] at hw
      cases hw
    · exact h.waits j a tail hold hphase
  order j k a b hjk ha hb hstarted := by
    rw [hcalls] at ha hb
    rcases getElem?_modify_known hc hb with ⟨hki, _⟩ | ⟨_, hold⟩
    · rcases getElem?_modify_known hc ha with ⟨hji, _⟩ | ⟨_, haold⟩
      · omega
      · exact hbefore j a (by omega) haold
    · rcases getElem?_modify_known hc ha with ⟨hji, _⟩ | ⟨_, haold⟩
      · have hwaiting := (h.sent_later (by omega) hc hopen hold).1
        rw [hstarted] at hwaiting
        cases hwaiting
      · exact h.order j k a b hjk haold hold hstarted

/-- A call is added at the end. -/
theorem push (h : InTurn s) {c : Call} (hzero : c.written = 0) (hsound : c.Sound)
    (hopen : c.isReleased = false)
    (hwaits : ∀ tail, c.phase = .waiting tail → ∃ t, tail = some t ∧ t + 1 = s.calls.length)
    (hstart : c.isWaiting = false → ∀ a ∈ s.calls, a.isReleased = true) :
    InTurn { s with
      calls := s.calls ++ [c]
      queuedWrites := s.queuedWrites + 1
      writeTail := some s.calls.length } where
  wire := by
    have hsent : c.sent = [] := by rw [Call.sent, hzero, List.take_zero]
    simp [h.wire, hsent]
  sound a ha := by
    rcases List.mem_append.mp ha with hold | hnew
    · exact h.sound a hold
    · rw [List.mem_singleton.mp hnew]
      exact hsound
  queued := by
    have hbase := h.queued
    simp [List.countP_append, hopen, hbase]
  tail k hk := by
    have heq : s.calls.length = k := Option.some.inj hk
    simp [heq]
  noTail hk := by cases hk
  waits i a tail ha hphase := by
    rcases getElem?_snoc_cases ha with hold | ⟨hi, rfl⟩
    · exact h.waits i a tail hold hphase
    · rw [hi]
      exact hwaits tail hphase
  order i j a b hij ha hb hstarted := by
    have hi : i < s.calls.length := by
      have hlen := (List.getElem?_eq_some_iff.mp hb).1
      rw [List.length_append, List.length_singleton] at hlen
      omega
    have haold : s.calls[i]? = some a := by
      rw [← ha, List.getElem?_append_left hi]
    rcases getElem?_snoc_cases hb with hold | ⟨_, rfl⟩
    · exact h.order i j a b hij haold hold hstarted
    · exact hstart hstarted a (List.mem_of_getElem? haold)

theorem allReleased (h : InTurn s) (hzero : s.queuedWrites = 0) :
    ∀ a ∈ s.calls, a.isReleased = true := by
  intro a ha
  have hcount := h.queued
  rw [hzero] at hcount
  have hnone := List.countP_eq_zero.mp hcount.symm a ha
  simpa using hnone

theorem tail_of_queued (h : InTurn s) (hqueued : s.queuedWrites ≠ 0) :
    ∃ t, s.writeTail = some t ∧ t + 1 = s.calls.length := by
  cases htail : s.writeTail with
  | none =>
    have hcount := h.queued
    rw [h.noTail htail, List.countP_nil] at hcount
    exact absurd hcount hqueued
  | some t => exact ⟨t, rfl, h.tail t htail⟩

theorem moved (h : InTurn s) {t : Client} {a : Action} (hmoved : Moved s a t) : InTurn t := by
  cases hmoved with
  | @started frame hzero =>
    refine h.push rfl (sound_send _ _) (isReleased_send _ _) ?_ fun _ => h.allReleased hzero
    intro tail htail
    have hw := isWaiting_send s.conn frame
    rw [isWaiting_iff.mpr ⟨tail, htail⟩] at hw
    cases hw
  | queued hqueued =>
    refine h.push rfl rfl rfl ?_ ?_
    · intro tail htail
      obtain ⟨t, ht, hlen⟩ := h.tail_of_queued hqueued
      have heq : s.writeTail = tail := Phase.waiting.inj htail
      rw [← heq]
      exact ⟨t, ht, hlen⟩
    · intro hstarted
      cases hstarted
  | @turned i c tail hc hphase htail =>
    have hzero : c.written = 0 := by
      have hsound := h.sound c (List.mem_of_getElem? hc)
      simpa [Call.Sound, hphase] using hsound
    have hopen : c.isReleased = false := by simp [Call.isReleased, hphase]
    refine h.edit [] hc rfl (by simp [Client.setPhase]) rfl (by simp [Call.sent]) ?_ ?_
      hopen (fun j a hji ha => h.released_before_turn hc hphase htail hji ha) ?_
    · simpa only [hzero] using sound_send s.conn c.frame
    · simpa only [hzero] using isWaiting_send s.conn c.frame
    · have hnew : Call.isReleased { c with phase := send s.conn c.frame } = false := by
        simpa only [hzero] using isReleased_send s.conn c.frame
      simp [hnew, Client.setPhase]
  | @refused i c a e hc hphase ha =>
    obtain ⟨hopen, hstarted, hlt⟩ := h.writing hc hphase
    refine h.edit [] hc rfl (by simp [Client.setPhase]) rfl (by simp [Call.sent]) ?_ rfl
      hopen (fun j a hji ha => h.order j i a c hji ha hc hstarted) rfl
    refine ⟨hlt.le, ?_, fun _ _ => hlt⟩
    intro he
    cases he
  | @took i n c hc hphase hn hfits =>
    obtain ⟨hopen, hstarted, hlt⟩ := h.writing hc hphase
    refine h.edit _ hc rfl rfl rfl ?_ (sound_writeAll (by omega)) (isWaiting_writeAll _ _ _) hopen
      (fun j a hji ha => h.order j i a c hji ha hc hstarted) ?_
    · exact List.take_add
    · rw [isReleased_writeAll]
      rfl
  | @released i c e hc hphase =>
    have hopen : c.isReleased = false := by simp [Call.isReleased, hphase]
    have hstarted : c.isWaiting = false := by simp [Call.isWaiting, hphase]
    have hpos : 1 ≤ s.queuedWrites := by
      rw [h.queued]
      exact List.countP_pos_iff.mpr ⟨c, List.mem_of_getElem? hc, by simp [hopen]⟩
    refine h.edit [] hc rfl (by simp [Client.setPhase]) rfl (by simp [Call.sent]) ?_ rfl
      hopen (fun j a hji ha => h.order j i a c hji ha hc hstarted) ?_
    · have hsound := h.sound c (List.mem_of_getElem? hc)
      simpa [Call.Sound, hphase] using hsound
    · simp [Call.isReleased]
      omega
  | closed => exact ⟨h.wire, h.sound, h.queued, h.tail, h.noTail, h.waits, h.order⟩

end InTurn

theorem run_inTurn {actions : List Action} {s : Client}
    (hrun : run Client.step Client.new actions = some s) : InTurn s :=
  run_invariant (fun _ _ _ h hstep => h.moved (step_moved hstep)) inTurn_new hrun

/-- A call that resolved has its whole frame on the wire. -/
theorem sent_of_resolved {actions : List Action} {s : Client}
    (hrun : run Client.step Client.new actions = some s) {c : Call} (hc : c ∈ s.calls)
    (hphase : c.phase = .settled none ∨ c.phase = .released none) : c.sent = c.frame := by
  have hsound := (run_inTurn hrun).sound c hc
  have hwhole : c.written = c.frame.length := by
    rcases hphase with hphase | hphase
    · simp only [Call.Sound, hphase] at hsound
      exact hsound.2.1 trivial
    · simp only [Call.Sound, hphase] at hsound
      exact hsound.2.1 trivial
  rw [Call.sent, hwhole, List.take_length]

/-! ### Whole frames, then at most a part of one -/

/-- Of two calls the earlier one has written nothing or its whole frame, or the
later one has written nothing. -/
def TornIsLast (a b : Call) : Prop := a.sent = [] ∨ a.sent = a.frame ∨ b.sent = []

instance (a b : Call) : Decidable (TornIsLast a b) := inferInstanceAs (Decidable (_ ∨ _ ∨ _))

structure WholeFrames (s : Client) : Prop where
  inOrder : s.wire = s.calls.flatMap Call.sent
  tornIsLast : s.calls.Pairwise TornIsLast

/-- Once a write has failed with a part of its frame taken, the socket takes no
more bytes. -/
def StaysBroken (s : Client) : Action → Prop
  | .wrote _ n => n ≠ 0 → ∀ c ∈ s.calls, c.failedMidway = false
  | _ => True

instance (s : Client) : (a : Action) → Decidable (StaysBroken s a)
  | .wrote _ n => inferInstanceAs (Decidable (n ≠ 0 → ∀ c ∈ s.calls, c.failedMidway = false))
  | .writeFrame _ | .turn _ | .rejected _ | .release _ | .close => inferInstanceAs (Decidable True)

theorem tornIsLast_split {calls : List Call} (h : calls.Pairwise TornIsLast) :
    ∃ before after, calls = before ++ after ∧ (∀ a ∈ before, a.sent = [] ∨ a.sent = a.frame) ∧
      calls.flatMap Call.sent = before.flatMap Call.sent ++ after.head?.elim [] Call.sent := by
  induction calls with
  | nil => exact ⟨[], [], rfl, by simp, rfl⟩
  | cons c calls ih =>
    obtain ⟨hfirst, hrest⟩ := List.pairwise_cons.mp h
    by_cases hc : c.sent = [] ∨ c.sent = c.frame
    · obtain ⟨before, after, hsplit, hbefore, hsent⟩ := ih hrest
      refine ⟨c :: before, after, by rw [hsplit, List.cons_append], ?_, ?_⟩
      · intro a ha
        rcases List.mem_cons.mp ha with rfl | ha
        · exact hc
        · exact hbefore a ha
      · rw [List.flatMap_cons, List.flatMap_cons, hsent, List.append_assoc]
    · -- the torn frame: nothing after it has written
      have hnil : calls.flatMap Call.sent = [] := by
        rw [List.flatMap_eq_nil_iff]
        intro b hb
        have hb' := hfirst b hb
        unfold TornIsLast at hb'
        tauto
      exact ⟨[], c :: calls, rfl, by simp, by simp [hnil]⟩

/-- The wire as the frames before the torn one, whole, and the part of the torn
one. -/
theorem WholeFrames.split {s : Client} (h : WholeFrames s) :
    ∃ before after, s.calls = before ++ after ∧
      (∀ a ∈ before, a.sent = [] ∨ a.sent = a.frame) ∧
      s.wire = before.flatMap Call.sent ++ after.head?.elim [] Call.sent := by
  rw [h.inOrder]
  exact tornIsLast_split h.tornIsLast

theorem pairwise_of_same {l l' : List Call}
    (h : l'.map (fun c => (c.sent, c.frame)) = l.map (fun c => (c.sent, c.frame))) :
    l'.Pairwise TornIsLast ↔ l.Pairwise TornIsLast := by
  have hkey : ∀ l : List Call, l.Pairwise TornIsLast ↔
      (l.map fun c => (c.sent, c.frame)).Pairwise
        (fun a b => a.1 = [] ∨ a.1 = a.2 ∨ b.1 = []) := by
    intro l
    rw [List.pairwise_map]
    rfl
  rw [hkey, hkey, h]

theorem setPhase_tornIsLast (s : Client) (i : ℕ) (phase : Call → Phase) :
    (s.setPhase i phase).calls.Pairwise TornIsLast ↔ s.calls.Pairwise TornIsLast :=
  pairwise_of_same (map_modify_of_eq fun _ _ => rfl)

theorem push_tornIsLast (calls : List Call) {c : Call} (h : c.written = 0) :
    (calls ++ [c]).Pairwise TornIsLast ↔ calls.Pairwise TornIsLast := by
  have hsent : c.sent = [] := by rw [Call.sent, h, List.take_zero]
  rw [List.pairwise_append]
  constructor
  · intro hall
    exact hall.1
  · intro hcalls
    refine ⟨hcalls, List.pairwise_singleton _ _, ?_⟩
    intro a _ b hb
    rw [List.mem_singleton.mp hb]
    exact Or.inr (Or.inr hsent)

theorem Call.sent_eq_nil {c : Call} (h : c.written ≤ c.frame.length) :
    c.sent = [] ↔ c.written = 0 := by
  rw [← List.length_eq_zero_iff, Call.sent, List.length_take, Nat.min_eq_left h]

theorem Call.sent_eq_frame {c : Call} : c.sent = c.frame ↔ c.frame.length ≤ c.written :=
  List.take_eq_self_iff _

theorem Call.Sound.failedMidway_iff {c : Call} (h : c.Sound) (hreleased : c.isReleased = true) :
    c.failedMidway = false ↔ c.sent = [] ∨ c.sent = c.frame := by
  obtain ⟨e, hphase⟩ : ∃ e, c.phase = .released e := by
    unfold Call.isReleased at hreleased
    split at hreleased
    · exact ⟨_, by assumption⟩
    · cases hreleased
  simp only [Call.Sound, hphase] at h
  obtain ⟨hle, hwhole, hpart⟩ := h
  rw [Call.sent_eq_nil hle, Call.sent_eq_frame]
  cases e with
  | none =>
    have heq := hwhole rfl
    simp [Call.failedMidway, Call.error, hphase, heq]
  | some err =>
    have hlt := hpart (by simp)
    simp only [Call.failedMidway, Call.error, hphase, Option.isSome_some, Bool.true_and,
      decide_eq_false_iff_not]
    omega

theorem error_of_started {c : Call} (h : c.isWaiting = true ∨ c.phase = .writing) :
    c.failedMidway = false := by
  rcases h with h | h
  · obtain ⟨tail, hphase⟩ := isWaiting_iff.mp h
    simp [Call.failedMidway, Call.error, hphase]
  · simp [Call.failedMidway, Call.error, h]

theorem InTurn.took_tornIsLast {s : Client} (h : InTurn s) {i n : ℕ} {c : Call}
    (hc : s.calls[i]? = some c) (hphase : c.phase = .writing) (hn : n ≠ 0)
    (hfits : n ≤ c.frame.length - c.written) :
    (s.took i n c).calls.Pairwise TornIsLast ↔
      s.calls.Pairwise TornIsLast ∧ ∀ a ∈ s.calls, a.failedMidway = false := by
  obtain ⟨hopen, hstarted, hlt⟩ := h.writing hc hphase
  -- before the writing call everything is released, behind it nothing is written
  have hbefore : ∀ (j : ℕ) (a : Call), j < i → s.calls[j]? = some a →
      (a.failedMidway = false ↔ a.sent = [] ∨ a.sent = a.frame) := by
    intro j a hji ha
    have hreleased := h.order j i a c hji ha hc hstarted
    exact (h.sound a (List.mem_of_getElem? ha)).failedMidway_iff hreleased
  have hmore : Call.sent ⟨c.frame, c.written + n, writeAll c.frame (c.written + n)⟩ ≠ [] := by
    have hle : c.written + n ≤ c.frame.length := by omega
    rw [Ne, Call.sent_eq_nil hle]
    simp only
    omega
  rw [pairwise_iff_getElem?, pairwise_iff_getElem?]
  constructor
  · intro hafter
    have hold : ∀ (j : ℕ) (a : Call), j < i → s.calls[j]? = some a →
        a.sent = [] ∨ a.sent = a.frame := by
      intro j a hji ha
      have hj : (s.took i n c).calls[j]? = some a :=
        (getElem?_modify_of_ne (by omega)).trans ha
      have hi : (s.took i n c).calls[i]? = some _ := getElem?_modify_self hc
      rcases hafter j i a _ hji hj hi with hnil | hframe | hnone
      · exact Or.inl hnil
      · exact Or.inr hframe
      · exact absurd hnone hmore
    refine ⟨?_, ?_⟩
    · intro p q a b hpq ha hb
      rcases lt_trichotomy q i with hqi | hqi | hqi
      · have hp : (s.took i n c).calls[p]? = some a :=
          (getElem?_modify_of_ne (by omega)).trans ha
        have hq : (s.took i n c).calls[q]? = some b :=
          (getElem?_modify_of_ne (by omega)).trans hb
        exact hafter p q a b hpq hp hq
      · rcases hold p a (by omega) ha with hnil | hframe
        · exact Or.inl hnil
        · exact Or.inr (Or.inl hframe)
      · exact Or.inr (Or.inr (h.sent_later hqi hc hopen hb).2)
    · intro a ha
      obtain ⟨j, hj⟩ := List.getElem?_of_mem ha
      rcases lt_trichotomy j i with hji | hji | hji
      · exact (hbefore j a hji hj).mpr (hold j a hji hj)
      · rw [hji, hc] at hj
        rw [← Option.some.inj hj]
        exact error_of_started (Or.inr hphase)
      · exact error_of_started (Or.inl (h.sent_later hji hc hopen hj).1)
  · rintro ⟨hbase, hnone⟩ p q a b hpq ha hb
    rcases getElem?_modify_known hc hb with ⟨hqi, _⟩ | ⟨_, hbold⟩
    · have haold : s.calls[p]? = some a := by
        rw [← ha]
        exact (getElem?_modify_of_ne (by omega)).symm
      rcases (hbefore p a (by omega) haold).mp (hnone a (List.mem_of_getElem? haold)) with hnil | hframe
      · exact Or.inl hnil
      · exact Or.inr (Or.inl hframe)
    · rcases getElem?_modify_known hc ha with ⟨hpi, _⟩ | ⟨_, haold⟩
      · exact Or.inr (Or.inr (h.sent_later (by omega) hc hopen hbold).2)
      · exact hbase p q a b hpq haold hbold

theorem InTurn.moved_tornIsLast {s t : Client} {a : Action} (h : InTurn s) (hmoved : Moved s a t) :
    t.calls.Pairwise TornIsLast ↔ s.calls.Pairwise TornIsLast ∧ StaysBroken s a := by
  cases hmoved with
  | started hzero =>
    rw [push_tornIsLast _ rfl]
    simp [StaysBroken]
  | queued hqueued =>
    rw [push_tornIsLast _ rfl]
    simp [StaysBroken]
  | turned hc hphase htail =>
    rw [setPhase_tornIsLast]
    simp [StaysBroken]
  | refused hc hphase ha =>
    rw [setPhase_tornIsLast]
    rcases ha with rfl | rfl <;> simp [StaysBroken]
  | took hc hphase hn hfits =>
    rw [h.took_tornIsLast hc hphase hn hfits]
    simp [StaysBroken, hn]
  | released hc hphase =>
    rw [setPhase_tornIsLast]
    simp [StaysBroken]
  | closed => simp [StaysBroken]

theorem wholeFrames_iff {actions : List Action} {s : Client}
    (hrun : run Client.step Client.new actions = some s) :
    WholeFrames s ↔ Obeys Client.step StaysBroken Client.new actions := by
  have hiff := run_iff_obeys (P := fun s => s.calls.Pairwise TornIsLast)
    (fun _ _ _ h hstep => InTurn.moved h (step_moved hstep))
    (fun _ _ _ h hstep => InTurn.moved_tornIsLast h (step_moved hstep)) inTurn_new hrun
  have hwire := (run_inTurn hrun).wire
  constructor
  · intro h
    exact (hiff.mp h.tornIsLast).2
  · intro h
    exact ⟨hwire, hiff.mpr ⟨List.Pairwise.nil, h⟩⟩

/-- The first write fails after one of three bytes; the frame queued behind it
is refused by the same broken socket. -/
def brokenPipe : List Action :=
  [.writeFrame [1, 2, 3], .writeFrame [4, 5], .wrote 0 1, .rejected 0, .release 0, .turn 1,
    .rejected 1]

theorem wholeFrames_iff_brokenPipe :
    ∃ s, run Client.step Client.new brokenPipe = some s ∧ WholeFrames s := by
  have hobeys : Obeys Client.step StaysBroken Client.new brokenPipe := by decide
  exact ⟨_, rfl, (wholeFrames_iff rfl).mpr hobeys⟩

/-- The same, but the socket takes the second frame. -/
def tornThenWhole : List Action :=
  [.writeFrame [1, 2, 3], .writeFrame [4, 5], .wrote 0 1, .rejected 0, .release 0, .turn 1,
    .wrote 1 2, .release 1]

/-- The second frame lands behind the first byte of the first one. -/
theorem wholeFrames_tornThenWhole :
    ∃ s, run Client.step Client.new tornThenWhole = some s ∧ s.wire = [1, 4, 5] ∧
      ¬ WholeFrames s := by
  refine ⟨_, rfl, rfl, ?_⟩
  intro h
  have hlast := h.tornIsLast
  revert hlast
  decide

end Emergent.Sdk.WriteQueue

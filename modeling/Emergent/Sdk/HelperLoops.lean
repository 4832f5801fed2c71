import Emergent.Sdk.MessageStream

/-!
# The loops of the helpers in three SDKs

`runHandler` and `runSink` in `sdks/ts/src/helpers.ts` and `sdks/go/helpers.go`, and
`run_handler` and `run_sink` in `sdks/py/emergent/helpers.py`: a loop that asks the
stream for a message and hands it to the function of the user, until the stream
ends, the function fails or a signal comes. What the user's function does, the
connection and what the engine pushes are the environment; the function neither
closes the stream it is fed from nor subscribes again.
-/

namespace Emergent.Sdk
open Kit

/-- `holding`: the loop has been handed a message and has not gone on with it. -/
inductive LoopPoint (μ : Type) where
  | asking
  | waiting
  | holding (m : μ)
  | calling (m : μ)
  | returned (error : Option String)
  deriving DecidableEq

def LoopPoint.held {μ : Type} : LoopPoint μ → List μ
  | .holding m => [m]
  | _ => []

/-- For the record: what was pushed before the stream was closed, how often a full
queue cost a message, what the loop let fall after a signal, the messages the
function was called with, and whether it was the engine that ended the stream. -/
structure HelperLoop (μ : Type) where
  stream : MessageStream μ
  point : LoopPoint μ
  running : Bool
  signalled : Bool
  pushed : List μ
  lost : ℕ
  dropped : List μ
  called : List μ
  ended : Bool

inductive LoopAction (μ : Type) where
  | push (m : μ)
  | engineClose
  | signal
  /-- The loop goes on. Go's `select` may take a waiting signal before a message. -/
  | turn (takesSignal : Bool)
  /-- The function returns, or fails with a text. -/
  | done (error : Option String)
  deriving DecidableEq

namespace HelperLoop

variable {μ : Type}

def start : HelperLoop μ := ⟨.new, .asking, true, false, [], 0, [], [], false⟩

/-- A receive of Go is followed by the call at once. -/
def obtain (lang : Language) (m : μ) (s : HelperLoop μ) : HelperLoop μ :=
  match lang with
  | .go => { s with point := .calling m, called := s.called ++ [m] }
  | .typescript | .python => { s with point := .holding m }

/-- On the way out the stream is closed, whatever the reason. -/
def leave (error : Option String) (s : HelperLoop μ) : HelperLoop μ :=
  { s with stream := { s.stream with waiting := none, closed := true }, point := .returned error }

def userFunctionError (e : String) : String := "user function error: " ++ e

def overflows (lang : Language) (stream : MessageStream μ) : Bool :=
  !stream.closed && lang.capacity.any fun cap => cap ≤ stream.queue.length

def push (lang : Language) (s : HelperLoop μ) (m : μ) : HelperLoop μ :=
  let pushed := if s.stream.closed then s.pushed else s.pushed ++ [m]
  match s.stream.push lang (fun _ => false) m with
  | (stream, some _) => obtain lang m { s with stream := stream, pushed := pushed }
  | (stream, none) =>
    { s with
      stream := stream
      pushed := pushed
      lost := if overflows lang s.stream then s.lost + 1 else s.lost }

def close (lang : Language) (s : HelperLoop μ) : HelperLoop μ :=
  match s.stream.close lang (fun _ => false) with
  | (stream, some _) => leave none { s with stream := stream }
  | (stream, none) => { s with stream := stream }

/-- The handlers of TypeScript and Python clear a flag and close the stream; a
signal of Go waits in its channel, unless the `select` is waiting for it. -/
def signal (lang : Language) (s : HelperLoop μ) : HelperLoop μ :=
  match lang with
  | .go =>
    match s.point with
    | .waiting => leave none { s with signalled := true }
    | _ => { s with signalled := true }
  | .typescript | .python => close lang { s with running := false, signalled := true }

def ask (lang : Language) (takesSignal : Bool) (s : HelperLoop μ) : HelperLoop μ :=
  if lang = .go ∧ s.signalled = true ∧
      (takesSignal = true ∨ s.stream.queue = [] ∧ s.stream.closed = false) then leave none s
  else if Interface.iteration.stops lang s.stream then leave none s
  else match s.stream.next 0 with
    | (stream, some (some m)) => obtain lang m { s with stream := stream }
    | (stream, some none) => leave none { s with stream := stream }
    | (stream, none) => { s with stream := stream, point := .waiting }

def step (lang : Language) (s : HelperLoop μ) : LoopAction μ → Option (HelperLoop μ)
  | .push m => some (s.push lang m)
  | .engineClose => some (close lang { s with ended := s.ended || !s.stream.closed })
  | .signal =>
    match s.point with
    | .returned _ => none
    | _ => some (s.signal lang)
  | .turn takesSignal =>
    match s.point with
    | .asking => some (s.ask lang takesSignal)
    | .holding m =>
      if s.running then some { s with point := .calling m, called := s.called ++ [m] }
      else some (leave none { s with dropped := s.dropped ++ [m] })
    | _ => none
  | .done error =>
    match s.point, error with
    | .calling _, none => some { s with point := .asking }
    | .calling _, some e => some (leave (some (userFunctionError e)) s)
    | _, _ => none

/-! ### Where the messages are -/

/-- The messages the loop has taken or will still find. -/
def accounted (s : HelperLoop μ) : List μ :=
  s.called ++ s.dropped ++ s.point.held ++ s.stream.queue

structure Kept (lang : Language) (s : HelperLoop μ) : Prop where
  order : List.Sublist s.accounted s.pushed
  count : s.accounted.length + s.lost = s.pushed.length
  slot : s.stream.waiting.isSome = true ↔ s.point = .waiting
  suspended : s.point = .waiting → s.stream.queue = [] ∧ s.stream.closed = false
  flag : s.running = false → s.signalled = true
  fallen : s.dropped ≠ [] → s.signalled = true ∧ ∃ error, s.point = .returned error
  gone : ∀ error, s.point = .returned error → s.stream.closed = true
  shut : s.stream.closed = true →
    s.ended = true ∨ s.signalled = true ∨ ∃ error, s.point = .returned error
  finished : s.point = .returned none → s.signalled = false →
    s.ended = true ∧ (lang ≠ .typescript → s.stream.queue = [])

variable {lang : Language} {s t : HelperLoop μ}

theorem kept_start (lang : Language) : Kept lang (start : HelperLoop μ) where
  order := List.nil_sublist _
  count := rfl
  slot := ⟨fun h => (by cases h), fun h => (by cases h)⟩
  suspended := fun h => (by cases h)
  flag := fun h => (by cases h)
  fallen := fun h => absurd rfl h
  gone := fun _ h => (by cases h)
  shut := fun h => (by cases h)
  finished := fun h => (by cases h)

/-- A loop that holds no message can leave: without an error it has heard of a
signal or come to the end of the stream. -/
theorem Kept.leave (hs : Kept lang s) {error : Option String} (hheld : s.point.held = [])
    (hwhy : error = none → s.signalled = false →
      s.ended = true ∧ (lang ≠ .typescript → s.stream.queue = [])) :
    Kept lang (leave error s) := by
  have hsame : (HelperLoop.leave error s).accounted = s.accounted := by
    rw [accounted, accounted, hheld]
    rfl
  refine ⟨?_, ?_, ⟨fun h => (by cases h), fun h => (by cases h)⟩, fun h => (by cases h), hs.flag,
    fun h => ⟨(hs.fallen h).1, error, rfl⟩, fun _ _ => rfl, fun _ => Or.inr (Or.inr ⟨error, rfl⟩),
    fun h => ?_⟩
  · rw [hsame]
    exact hs.order
  · rw [hsame]
    exact hs.count
  · exact hwhy (LoopPoint.returned.inj h)

/-- The point of a suspended loop is where the slot of the stream says. -/
theorem Kept.not_waiting (hs : Kept lang s) (h : s.stream.waiting = none) :
    s.point ≠ .waiting := by
  intro hpoint
  have := hs.slot.mpr hpoint
  rw [h] at this
  cases this

theorem Kept.close (hs : Kept lang s) (hwhy : s.ended = true ∨ s.signalled = true) :
    Kept lang (close lang s) := by
  rcases s.stream.close_cases lang (fun _ => false) with
    ⟨hclosed, heq⟩ | ⟨hopen, call, hcall, heq⟩ | ⟨hopen, hcall, heq⟩
  · rw [HelperLoop.close, heq]
    exact hs
  · -- the closing wakes the loop with the end of the stream
    have hwaiting : s.point = .waiting := by
      refine hs.slot.mp ?_
      rw [← MessageStream.served_undone lang s.stream, hcall]
      rfl
    have hend : HelperLoop.close lang s = HelperLoop.leave none s := by
      rw [HelperLoop.close, heq]
      rfl
    rw [hend]
    refine hs.leave (by rw [hwaiting]; rfl) fun _ hsilent => ?_
    rw [hsilent] at hwhy
    exact ⟨hwhy.resolve_right Bool.false_ne_true, fun _ => (hs.suspended hwaiting).1⟩
  · rw [HelperLoop.close, heq]
    have hnone : s.stream.waiting = none := by
      rw [← MessageStream.served_undone lang s.stream, hcall]
    exact ⟨hs.order, hs.count, hs.slot, fun h => absurd h (hs.not_waiting hnone), hs.flag,
      hs.fallen, fun _ _ => rfl, fun _ => hwhy.imp id Or.inl,
      hs.finished⟩

theorem Kept.none_dropped (hs : Kept lang s) (h : ∀ error, s.point ≠ .returned error) :
    s.dropped = [] := by
  by_contra hdropped
  obtain ⟨_, error, hpoint⟩ := hs.fallen hdropped
  exact h error hpoint

/-- A stream that is closed under a loop was closed by the engine or a signal. -/
theorem Kept.closing (hs : Kept lang s) (hstays : ∀ error, s.point ≠ .returned error)
    (hclosed : s.stream.closed = true) : s.ended = true ∨ s.signalled = true := by
  rcases hs.shut hclosed with hended | hsignalled | ⟨error, hpoint⟩
  · exact Or.inl hended
  · exact Or.inr hsignalled
  · exact absurd hpoint (hstays error)

/-- A loop that has nothing in hand takes the next message. -/
theorem kept_obtain (hs : Kept lang s) (stream : MessageStream μ) (pushed : List μ) {m : μ}
    (hready : s.point = .asking ∨ s.point = .waiting) (hfree : stream.waiting = none)
    (horder : List.Sublist (s.called ++ m :: stream.queue) pushed)
    (hcount : (s.called ++ m :: stream.queue).length + s.lost = pushed.length)
    (hclosed : stream.closed = s.stream.closed) :
    Kept lang (obtain lang m { s with stream := stream, pushed := pushed }) := by
  have hnot : ∀ error, s.point ≠ .returned error := fun error h => by
    rcases hready with hready | hready <;> cases hready.symm.trans h
  have hdropped := hs.none_dropped hnot
  have hshut : stream.closed = true → s.ended = true ∨ s.signalled = true := fun h =>
    hs.closing hnot (hclosed ▸ h)
  cases lang with
  | go =>
    refine ⟨?_, ?_, ⟨fun h => ?_, fun h => (by cases h)⟩, fun h => (by cases h), hs.flag,
      fun h => absurd hdropped h, fun _ h => (by cases h), fun h => (hshut h).imp id Or.inl,
      fun h => (by cases h)⟩
    · simpa [accounted, obtain, LoopPoint.held, hdropped] using horder
    · simpa [accounted, obtain, LoopPoint.held, hdropped] using hcount
    · simp [obtain, hfree] at h
  | typescript =>
    refine ⟨?_, ?_, ⟨fun h => ?_, fun h => (by cases h)⟩, fun h => (by cases h), hs.flag,
      fun h => absurd hdropped h, fun _ h => (by cases h), fun h => (hshut h).imp id Or.inl,
      fun h => (by cases h)⟩
    · simpa [accounted, obtain, LoopPoint.held, hdropped] using horder
    · simpa [accounted, obtain, LoopPoint.held, hdropped] using hcount
    · simp [obtain, hfree] at h
  | python =>
    refine ⟨?_, ?_, ⟨fun h => ?_, fun h => (by cases h)⟩, fun h => (by cases h), hs.flag,
      fun h => absurd hdropped h, fun _ h => (by cases h), fun h => (hshut h).imp id Or.inl,
      fun h => (by cases h)⟩
    · simpa [accounted, obtain, LoopPoint.held, hdropped] using horder
    · simpa [accounted, obtain, LoopPoint.held, hdropped] using hcount
    · simp [obtain, hfree] at h

theorem sublist_enqueue {taken queue pushed : List μ} {m : μ}
    (h : List.Sublist (taken ++ queue) pushed) :
    List.Sublist (taken ++ MessageStream.enqueue lang queue m) (pushed ++ [m]) := by
  have hall : List.Sublist (taken ++ (queue ++ [m])) (pushed ++ [m]) := by
    rw [← List.append_assoc]
    exact h.append_right [m]
  cases lang with
  | typescript => exact hall
  | python =>
    rw [MessageStream.enqueue]
    split
    · exact hall
    · refine List.Sublist.trans (List.Sublist.append_left ?_ taken) hall
      exact (List.tail_sublist queue).append_right [m]
  | go =>
    rw [MessageStream.enqueue]
    split
    · exact hall
    · exact h.trans (List.sublist_append_left pushed [m])

theorem length_enqueue {stream : MessageStream μ} (hopen : stream.closed = false) (m : μ) :
    (MessageStream.enqueue lang stream.queue m).length +
      (if overflows lang stream then 1 else 0) = stream.queue.length + 1 := by
  cases lang with
  | typescript => simp [MessageStream.enqueue, overflows, Language.capacity]
  | python =>
    rw [MessageStream.enqueue]
    by_cases hroom : stream.queue.length < 1000
    · simp [hroom, overflows, Language.capacity]
    · have hfull : 1000 ≤ stream.queue.length := Nat.not_lt.mp hroom
      have hover : overflows .python stream = true := by
        simp [overflows, Language.capacity, hopen, hfull]
      rw [if_neg hroom, hover, if_pos rfl, List.length_append, List.length_tail,
        List.length_singleton]
      omega
  | go =>
    rw [MessageStream.enqueue]
    by_cases hroom : stream.queue.length < 256
    · simp [hroom, overflows, Language.capacity]
    · have hfull : 256 ≤ stream.queue.length := Nat.not_lt.mp hroom
      have hover : overflows .go stream = true := by
        simp [overflows, Language.capacity, hopen, hfull]
      rw [if_neg hroom, hover, if_pos rfl]

/-- A push reaches the loop or the queue, or a full queue costs one message. -/
theorem Kept.push (hs : Kept lang s) (m : μ) : Kept lang (s.push lang m) := by
  rcases s.stream.push_cases lang (fun _ => false) m with
    ⟨hclosed, heq⟩ | ⟨hopen, call, hcall, heq⟩ | ⟨hopen, hcall, heq⟩
  · have hsame : s.push lang m = s := by
      rw [HelperLoop.push, heq]
      simp [overflows, hclosed]
    rwa [hsame]
  · have hwaiting : s.point = .waiting := by
      refine hs.slot.mp ?_
      rw [← MessageStream.served_undone lang s.stream, hcall]
      rfl
    obtain ⟨hempty, _⟩ := hs.suspended hwaiting
    have hdropped := hs.none_dropped fun error h => by cases hwaiting.symm.trans h
    have hlist : s.accounted = s.called := by
      simp [accounted, hwaiting, hempty, hdropped, LoopPoint.held]
    have horder := hs.order
    have hcount := hs.count
    rw [hlist] at horder hcount
    have hend : s.push lang m = obtain lang m
        { s with stream := { s.stream with waiting := none }, pushed := s.pushed ++ [m] } := by
      rw [HelperLoop.push, heq]
      simp [hopen]
    rw [hend]
    refine kept_obtain hs _ _ (Or.inr hwaiting) rfl ?_ ?_ rfl
    · rw [hempty]
      exact horder.append_right [m]
    · rw [hempty, List.length_append, List.length_append, List.length_singleton, ← hcount]
      omega
  · have hnone : s.stream.waiting = none := by
      rw [← MessageStream.served_undone lang s.stream, hcall]
    have hend : s.push lang m =
        { s with
          stream := { s.stream with queue := MessageStream.enqueue lang s.stream.queue m }
          pushed := s.pushed ++ [m]
          lost := if overflows lang s.stream then s.lost + 1 else s.lost } := by
      rw [HelperLoop.push, heq]
      simp [hopen]
    have hlength := @length_enqueue μ lang s.stream hopen m
    have hcount := hs.count
    have hstays : ∀ error, s.point ≠ .returned error := fun error h => by
      cases hopen.symm.trans (hs.gone error h)
    rw [hend]
    refine ⟨sublist_enqueue hs.order, ?_, hs.slot, fun h => absurd h (hs.not_waiting hnone),
      hs.flag, hs.fallen, fun error h => absurd h (hstays error),
      fun h => ?_, fun h => absurd h (hstays none)⟩
    · simp only [accounted, List.length_append, List.length_singleton] at hcount ⊢
      cases hover : overflows lang s.stream with
      | true =>
        rw [hover, if_pos rfl] at hlength
        rw [if_pos rfl]
        omega
      | false =>
        rw [hover, if_neg Bool.false_ne_true] at hlength
        rw [if_neg Bool.false_ne_true]
        omega
    · cases hopen.symm.trans h

theorem Kept.signal (hs : Kept lang s) (hstays : ∀ error, s.point ≠ .returned error) :
    Kept lang (s.signal lang) := by
  have hheard : Kept lang { s with signalled := true } :=
    ⟨hs.order, hs.count, hs.slot, hs.suspended, fun _ => rfl,
      fun h => absurd (hs.none_dropped hstays) h, hs.gone,
      fun _ => Or.inr (Or.inl rfl), fun h => absurd h (hstays none)⟩
  have hflagged : Kept lang { s with running := false, signalled := true } :=
    ⟨hs.order, hs.count, hs.slot, hs.suspended, fun _ => rfl,
      fun h => absurd (hs.none_dropped hstays) h, hs.gone,
      fun _ => Or.inr (Or.inl rfl), fun h => absurd h (hstays none)⟩
  cases lang with
  | go =>
    rw [HelperLoop.signal]
    split
    · rename_i hpoint
      exact hheard.leave (by rw [hpoint]; rfl) fun _ h => (by cases h)
    · exact hheard
  | typescript | python => exact hflagged.close (Or.inr rfl)

theorem Kept.ask (hs : Kept lang s) (hasking : s.point = .asking) (takesSignal : Bool) :
    Kept lang (s.ask lang takesSignal) := by
  have hheld : s.point.held = [] := by rw [hasking]; rfl
  have hstays : ∀ error, s.point ≠ .returned error := fun error h => by
    cases hasking.symm.trans h
  have hfree : s.stream.waiting = none := by
    cases hwaiting : s.stream.waiting with
    | none => rfl
    | some call =>
      have hpoint := hs.slot.mp (by rw [hwaiting]; rfl)
      cases hasking.symm.trans hpoint
  have hshut : s.stream.closed = true → s.signalled = false → s.ended = true :=
    fun hclosed hsilent => (hs.closing hstays hclosed).resolve_right fun hsignalled => by
      cases hsilent.symm.trans hsignalled
  rw [HelperLoop.ask]
  split
  · rename_i hsignal
    exact hs.leave hheld fun _ h => (by cases h.symm.trans hsignal.2.1)
  · split
    · rename_i hstops
      obtain ⟨hclosed, hwhy⟩ := Reading.stops_iff hstops
      refine hs.leave hheld fun _ hsilent =>
        ⟨hshut hclosed hsilent, fun hlang => ?_⟩
      exact hwhy.resolve_left fun h => hlang h.1
    · have hlist : s.accounted = s.called ++ s.stream.queue := by
        simp [accounted, hasking, hs.none_dropped hstays, LoopPoint.held]
      have horder := hs.order
      have hcount := hs.count
      rw [hlist] at horder hcount
      rcases s.stream.next_cases 0 with ⟨m, rest, hqueue, heq⟩ | ⟨hempty, hclosed, heq⟩ |
        ⟨hempty, hopen, heq⟩
      · rw [heq]
        rw [hqueue] at horder hcount
        exact kept_obtain hs { s.stream with queue := rest } s.pushed (Or.inl hasking) hfree
          horder hcount rfl
      · rw [heq]
        exact hs.leave hheld fun _ hsilent =>
          ⟨hshut hclosed hsilent, fun _ => hempty⟩
      · rw [heq]
        refine ⟨?_, ?_, ⟨fun _ => rfl, fun _ => rfl⟩, fun _ => ⟨hempty, hopen⟩, hs.flag,
          fun h => absurd (hs.none_dropped hstays) h, fun _ h => (by cases h), fun h => ?_,
          fun h => (by cases h)⟩
        · simpa [accounted, LoopPoint.held, hs.none_dropped hstays] using horder
        · simpa [accounted, LoopPoint.held, hs.none_dropped hstays] using hcount
        · cases hopen.symm.trans h

/-- What the loop does with a message in hand: the call, or nothing after a signal. -/
theorem Kept.goOn (hs : Kept lang s) {m : μ} (hpoint : s.point = .holding m) :
    Kept lang (if s.running then { s with point := .calling m, called := s.called ++ [m] }
      else HelperLoop.leave none { s with dropped := s.dropped ++ [m] }) := by
  have hstays : ∀ error, s.point ≠ .returned error := fun error h => by
    cases hpoint.symm.trans h
  have hlist : s.accounted = s.called ++ m :: s.stream.queue := by
    simp [accounted, hpoint, hs.none_dropped hstays, LoopPoint.held]
  have horder := hs.order
  have hcount := hs.count
  rw [hlist] at horder hcount
  have hfree : s.stream.waiting.isSome = true → False := fun h => by
    cases hpoint.symm.trans (hs.slot.mp h)
  split
  · refine ⟨?_, ?_, ⟨fun h => (hfree h).elim, fun h => (by cases h)⟩, fun h => (by cases h),
      hs.flag, fun h => absurd (hs.none_dropped hstays) h, fun _ h => (by cases h),
      fun h => (hs.closing hstays h).imp id Or.inl, fun h => (by cases h)⟩
    · simpa [accounted, LoopPoint.held, hs.none_dropped hstays] using horder
    · simpa [accounted, LoopPoint.held, hs.none_dropped hstays] using hcount
  · rename_i hrunning
    have hsignalled := hs.flag (Bool.not_eq_true _ ▸ hrunning)
    refine ⟨?_, ?_, ⟨fun h => (by cases h), fun h => (by cases h)⟩, fun h => (by cases h),
      hs.flag, fun _ => ⟨hsignalled, none, rfl⟩, fun _ _ => rfl, fun _ => Or.inr (Or.inl hsignalled),
      fun _ h => (by cases h.symm.trans hsignalled)⟩
    · simpa [accounted, HelperLoop.leave, LoopPoint.held, hs.none_dropped hstays] using horder
    · simpa [accounted, HelperLoop.leave, LoopPoint.held, hs.none_dropped hstays] using hcount

theorem Kept.engineClose (hs : Kept lang s) :
    Kept lang (HelperLoop.close lang { s with ended := s.ended || !s.stream.closed }) := by
  cases hclosed : s.stream.closed with
  | true =>
    have hsame : HelperLoop.close lang { s with ended := s.ended || !true } = s := by
      simp [HelperLoop.close, MessageStream.close, hclosed]
    rwa [hsame]
  | false =>
    have hended : Kept lang { s with ended := s.ended || !false } :=
      ⟨hs.order, hs.count, hs.slot, hs.suspended, hs.flag, hs.fallen,
        hs.gone, fun h => (by cases hclosed.symm.trans h),
        fun h => (by cases hclosed.symm.trans (hs.gone none h))⟩
    exact hended.close (Or.inl (by simp))

theorem Kept.step (hs : Kept lang s) {a : LoopAction μ} (h : s.step lang a = some t) :
    Kept lang t := by
  cases a with
  | push m =>
    rw [← Option.some.inj h]
    exact hs.push m
  | engineClose =>
    rw [← Option.some.inj h]
    exact hs.engineClose
  | signal =>
    rw [HelperLoop.step] at h
    split at h
    · cases h
    · rename_i hstays
      rw [← Option.some.inj h]
      exact hs.signal hstays
  | turn takesSignal =>
    rw [HelperLoop.step] at h
    split at h
    · rename_i hasking
      rw [← Option.some.inj h]
      exact hs.ask hasking takesSignal
    · rename_i m hholding
      have hnext := hs.goOn hholding
      split at h
      · rename_i hrunning
        rw [if_pos hrunning] at hnext
        rwa [← Option.some.inj h]
      · rename_i hrunning
        rw [if_neg hrunning] at hnext
        rwa [← Option.some.inj h]
    · cases h
  | done error =>
    unfold HelperLoop.step at h
    simp only at h
    split at h
    · rename_i m hcalling
      rw [← Option.some.inj h]
      have hstays : ∀ error, s.point ≠ .returned error := fun error h => by
        cases hcalling.symm.trans h
      have hlist : s.accounted = { s with point := LoopPoint.asking }.accounted := by
        rw [accounted, accounted, hcalling]
        rfl
      have hfree : s.stream.waiting.isSome = true → False := fun h => by
        cases hcalling.symm.trans (hs.slot.mp h)
      refine ⟨hlist ▸ hs.order, hlist ▸ hs.count, ⟨fun h => (hfree h).elim, fun h => (by cases h)⟩,
        fun h => (by cases h), hs.flag, fun h => absurd (hs.none_dropped hstays) h,
        fun _ h => (by cases h), fun h => (hs.closing hstays h).imp id Or.inl,
        fun h => (by cases h)⟩
    · rename_i m e hcalling
      rw [← Option.some.inj h]
      exact hs.leave (by rw [hcalling]; rfl) fun h => (by cases h)
    · cases h

/-! ### After a signal -/

theorem called_obtain (hlang : lang ≠ .go) (m : μ) (s : HelperLoop μ) :
    (obtain lang m s).running = s.running ∧ (obtain lang m s).called = s.called := by
  cases lang with
  | go => exact absurd rfl hlang
  | typescript | python => exact ⟨rfl, rfl⟩

theorem called_close (s : HelperLoop μ) :
    (close lang s).running = s.running ∧ (close lang s).called = s.called := by
  rcases s.stream.close_cases lang (fun _ => false) with
    ⟨_, heq⟩ | ⟨_, call, _, heq⟩ | ⟨_, _, heq⟩ <;>
  · rw [close, heq]
    exact ⟨rfl, rfl⟩

theorem called_push (hlang : lang ≠ .go) (m : μ) (s : HelperLoop μ) :
    (s.push lang m).running = s.running ∧ (s.push lang m).called = s.called := by
  rcases s.stream.push_cases lang (fun _ => false) m with
    ⟨_, heq⟩ | ⟨_, call, _, heq⟩ | ⟨_, _, heq⟩
  · rw [push, heq]
    exact ⟨rfl, rfl⟩
  · rw [push, heq]
    exact called_obtain hlang m _
  · rw [push, heq]
    exact ⟨rfl, rfl⟩

theorem called_ask (hlang : lang ≠ .go) (takesSignal : Bool) (s : HelperLoop μ) :
    (s.ask lang takesSignal).running = s.running ∧
      (s.ask lang takesSignal).called = s.called := by
  rw [ask, if_neg fun h => hlang h.1]
  split
  · exact ⟨rfl, rfl⟩
  · rcases s.stream.next_cases 0 with ⟨m, rest, _, heq⟩ | ⟨_, _, heq⟩ | ⟨_, _, heq⟩
    · rw [heq]
      exact called_obtain hlang m _
    · rw [heq]
      exact ⟨rfl, rfl⟩
    · rw [heq]
      exact ⟨rfl, rfl⟩

theorem called_signal (hlang : lang ≠ .go) (s : HelperLoop μ) :
    (s.signal lang).running = false ∧ (s.signal lang).called = s.called := by
  cases lang with
  | go => exact absurd rfl hlang
  | typescript | python => exact called_close _

/-- Once the flag is cleared the function is not called again. -/
theorem silent_step (hlang : lang ≠ .go) {a : LoopAction μ} (hs : s.running = false)
    (h : s.step lang a = some t) : t.running = false ∧ t.called = s.called := by
  have hof : ∀ u : HelperLoop μ, some u = some t → u.running = s.running ∧ u.called = s.called →
      t.running = false ∧ t.called = s.called := by
    intro u heq hu
    rw [← Option.some.inj heq]
    exact ⟨hu.1.trans hs, hu.2⟩
  cases a with
  | push m => exact hof _ h (called_push hlang m s)
  | engineClose => exact hof _ h (called_close _)
  | signal =>
    rw [step] at h
    split at h
    · cases h
    · rw [← Option.some.inj h]
      exact called_signal hlang s
  | turn takesSignal =>
    rw [step] at h
    split at h
    · exact hof _ h (called_ask hlang takesSignal s)
    · rw [hs, if_neg Bool.false_ne_true] at h
      exact hof _ h ⟨hs.symm, rfl⟩
    · cases h
  | done error =>
    unfold step at h
    simp only at h
    split at h
    · exact hof _ h ⟨rfl, rfl⟩
    · exact hof _ h ⟨rfl, rfl⟩
    · cases h

theorem silent_run (hlang : lang ≠ .go) {as : List (LoopAction μ)} (hs : s.running = false)
    (h : run (step lang) s as = some t) : t.called = s.called := by
  induction as generalizing s with
  | nil =>
    have he : s = t := by simpa [run] using h
    rw [he]
  | cons a as ih =>
    obtain ⟨u, hu, ht⟩ := run_cons.mp h
    obtain ⟨hrunning, hcalled⟩ := silent_step hlang hs hu
    exact (ih hrunning ht).trans hcalled

/-- In every run the function is called with the messages in the order in which
they were pushed, and with all of them up to some point unless a full queue cost
one. After a signal TypeScript and Python begin no further call. A loop that
returns in peace without a signal was ended by the engine, and then, again unless a
full queue cost one, Python and Go have called the function with all that was
pushed; TypeScript leaves what is queued. -/
theorem run_calls_in_order {as : List (LoopAction μ)} (h : run (step lang) start as = some s) :
    List.Sublist s.called s.pushed ∧
    (s.lost = 0 → s.called <+: s.pushed) ∧
    (lang ≠ .go → ∀ before after t, as = before ++ .signal :: after →
      run (step lang) start before = some t → s.called = t.called) ∧
    (s.point = .returned none → s.signalled = false → s.ended = true ∧
      (s.lost = 0 → s.called ++ s.stream.queue = s.pushed) ∧
      (lang ≠ .typescript → s.stream.queue = [])) := by
  have hs : Kept lang s := by
    refine run_invariant ?_ (kept_start lang) h
    exact fun _ _ _ hs hstep => hs.step hstep
  have hall : s.lost = 0 → s.accounted = s.pushed := fun hnone => by
    refine hs.order.eq_of_length ?_
    have hcount := hs.count
    rwa [hnone, Nat.add_zero] at hcount
  have htaken : List.Sublist s.called s.accounted := by
    rw [accounted, List.append_assoc, List.append_assoc]
    exact List.sublist_append_left _ _
  refine ⟨htaken.trans hs.order, fun hnone => ?_, fun hlang before after t has ht => ?_,
    fun hpoint hsilent => ?_⟩
  · rw [← hall hnone, accounted, List.append_assoc, List.append_assoc]
    exact List.prefix_append _ _
  · rw [has] at h
    obtain ⟨t', ht', hrest⟩ := run_append.mp h
    obtain rfl := Option.some.inj (ht.symm.trans ht')
    obtain ⟨u, hu, hs'⟩ := run_cons.mp hrest
    rw [step] at hu
    split at hu
    · cases hu
    · obtain ⟨hrunning, hcalled⟩ := called_signal hlang t
      rw [← Option.some.inj hu] at hs'
      exact (silent_run hlang hrunning hs').trans hcalled
  · obtain ⟨hended, hempty⟩ := hs.finished hpoint hsilent
    refine ⟨hended, fun hnone => ?_, hempty⟩
    have hdropped : s.dropped = [] := by
      by_contra hsome
      cases hsilent.symm.trans (hs.fallen hsome).1
    have hlist := hall hnone
    rw [accounted, hdropped, hpoint, List.append_nil] at hlist
    exact (by simpa [LoopPoint.held] using hlist)

def pythonTurns : List (LoopAction ℕ) :=
  [.turn false, .push 1, .push 2, .turn false, .push 3, .done none, .turn false, .turn false,
    .engineClose, .done none, .turn false, .turn false, .done none, .turn false]

theorem run_calls_in_order_python :
    ∃ s, run (step .python) start pythonTurns = some s ∧ s.pushed = [1, 2, 3] ∧
      s.ended = true ∧ s.called = s.pushed := by
  have hrun : run (step .python) start pythonTurns = some
      ⟨⟨[], none, true⟩, .returned none, true, false, [1, 2, 3], 0, [], [1, 2, 3], true⟩ := by rfl
  obtain ⟨_, _, _, hpeace⟩ := run_calls_in_order hrun
  obtain ⟨hended, hall, hempty⟩ := hpeace rfl rfl
  have hcalled := hall rfl
  rw [hempty (by decide), List.append_nil] at hcalled
  exact ⟨_, hrun, rfl, hended, hcalled⟩

/-- Go's loop may find a message before the signal that came first. -/
example : ∃ s, run (step .go) start [.push 1, .push 2, .turn false, .signal, .done none,
    .turn false] = some s ∧ s.signalled = true ∧ s.called = [1, 2] :=
  ⟨_, rfl, rfl, rfl⟩

end HelperLoop

end Emergent.Sdk

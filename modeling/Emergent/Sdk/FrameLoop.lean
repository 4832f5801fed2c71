import Emergent.Sdk.FrameAgreement

/-!
# The receive loops (`ts/src/client.ts`, `go/client.go`, `py/emergent/_client.py`)

`receiveBytes` appends what was read to the buffer and runs the loop over it.
The loops of the three SDKs are one: they differ in the decoder and in what
they do with a frame, `handle`. `log` is what a run is seen by: the frames
handed to the client and the errors reported, in order. A handler that throws
is known by what was logged before it.
-/

namespace Emergent.Sdk
open Kit

inductive LoopEvent (V : Type) where
  | handled (msgType : UInt8) (payload : V)
  | handlerThrew (msgType : UInt8) (error : String)
  | unknownType (msgType : UInt8)
  | badBody (msgType : UInt8) (reason : String)
  | badFraming (reason : String)
  deriving DecidableEq

structure Receiver (V : Type) where
  readBuffer : Bytes
  log : List (LoopEvent V)
  deriving DecidableEq

variable {V F : Type}

def Receiver.fresh : Receiver V := ⟨[], []⟩

/-! ### The loops -/

/-- `#processFrames`, `dispatchFrames` and `_process_frames`; `none` says that
the loop has not ended within `fuel` turns. -/
def processFramesWith (next : Bytes → FrameStep F) (size : F → ℕ)
    (handle : List (LoopEvent V) → F → List (LoopEvent V)) :
    ℕ → Receiver V → Option (Receiver V)
  | 0, _ => none
  | fuel + 1, r =>
    if r.readBuffer.length < headerSize then some r
    else
      match next r.readBuffer with
      | .incomplete => some r
      | .badFraming reason => some ⟨[], r.log ++ [.badFraming reason]⟩
      | .badBody msgType bytesConsumed reason =>
        processFramesWith next size handle fuel
          ⟨r.readBuffer.drop bytesConsumed, r.log ++ [.badBody msgType reason]⟩
      | .frame decoded =>
        processFramesWith next size handle fuel
          ⟨r.readBuffer.drop (size decoded), handle r.log decoded⟩

section
-- what a handler throws on a frame, given what was logged before
variable (throws : List (LoopEvent V) → UInt8 → V → Option String)

def thrown (log : List (LoopEvent V)) (msgType : UInt8) (payload : V) : List (LoopEvent V) :=
  match throws log msgType payload with
  | some error => [.handlerThrew msgType error]
  | none => []

def Ts.handle (log : List (LoopEvent V)) (decoded : DecodedFrame V) : List (LoopEvent V) :=
  log ++ .handled decoded.msgType decoded.payload :: thrown throws log decoded.msgType decoded.payload

/-- Go's `handleFrame` throws nothing. -/
def Go.handle (log : List (LoopEvent V)) (decoded : DecodedFrame V) : List (LoopEvent V) :=
  log ++ [.handled decoded.msgType decoded.payload]

/-- Python skips a frame of unknown type in the loop itself. -/
def Py.handle (log : List (LoopEvent V)) (decoded : Py.DecodedFrame V) : List (LoopEvent V) :=
  match decoded.msgType with
  | none => log ++ [.unknownType decoded.rawMsgType]
  | some _ =>
    log ++ .handled decoded.rawMsgType decoded.payload ::
      thrown throws log decoded.rawMsgType decoded.payload

variable (lib : Library V)

def Ts.processFrames : ℕ → Receiver V → Option (Receiver V) :=
  processFramesWith (Ts.nextFrame lib) DecodedFrame.bytesConsumed (Ts.handle throws)

def Go.dispatchFrames : ℕ → Receiver V → Option (Receiver V) :=
  processFramesWith (Go.nextFrame lib) DecodedFrame.bytesConsumed Go.handle

def Py.processFrames : ℕ → Receiver V → Option (Receiver V) :=
  processFramesWith (Py.nextFrame lib) Py.DecodedFrame.bytesConsumed (Py.handle throws)

def processFrames : Language → ℕ → Receiver V → Option (Receiver V)
  | .typescript => Ts.processFrames throws lib
  | .go => Go.dispatchFrames lib
  | .python => Py.processFrames throws lib

end

section
variable (loop : ℕ → Receiver V → Option (Receiver V))

def receiveBytes (r : Receiver V) (chunk : Bytes) : Option (Receiver V) :=
  let readBuffer := r.readBuffer ++ chunk
  loop (readBuffer.length + 1) { r with readBuffer := readBuffer }

def receiveAll : Receiver V → List Bytes → Option (Receiver V)
  | r, [] => some r
  | r, chunk :: chunks => (receiveBytes loop r chunk).bind fun s => receiveAll s chunks

end

/-! ### The decoders are steady -/

def front (next : Bytes → FrameStep F) (size : F → ℕ) (buffer : Bytes) :
    Front (F ⊕ UInt8 × String) String :=
  match next buffer with
  | .incomplete => .incomplete
  | .frame decoded => .item (size decoded) (.inl decoded)
  | .badBody msgType bytesConsumed reason => .item bytesConsumed (.inr (msgType, reason))
  | .badFraming reason => .broken reason

/-- The bytes a step takes are there, and more of them do not change it. -/
structure SteadyFrames (next : Bytes → FrameStep F) (size : F → ℕ) : Prop where
  short : ∀ buffer, buffer.length < headerSize → next buffer = .incomplete
  frame : ∀ buffer decoded, next buffer = .frame decoded →
    0 < size decoded ∧ size decoded ≤ buffer.length
  badBody : ∀ buffer msgType bytesConsumed reason,
    next buffer = .badBody msgType bytesConsumed reason →
      0 < bytesConsumed ∧ bytesConsumed ≤ buffer.length
  append : ∀ buffer more, next buffer ≠ .incomplete → next (buffer ++ more) = next buffer

theorem SteadyFrames.steady {next : Bytes → FrameStep F} {size : F → ℕ}
    (h : SteadyFrames next size) : Steady (front next size) := by
  refine ⟨?_, ?_, ?_⟩
  · rw [front, h.short [] (by decide)]
  · intro buffer n x hx
    unfold front at hx
    split at hx
    · cases hx
    · rename_i decoded hnext
      cases hx
      have hsize := h.frame _ _ hnext
      refine ⟨hsize.1, hsize.2, fun more => ?_⟩
      rw [front, h.append _ _ (by rw [hnext]; intro hbad; cases hbad), hnext]
    · rename_i msgType bytesConsumed reason hnext
      cases hx
      have hsize := h.badBody _ _ _ _ hnext
      refine ⟨hsize.1, hsize.2, fun more => ?_⟩
      rw [front, h.append _ _ (by rw [hnext]; intro hbad; cases hbad), hnext]
    · cases hx
  · intro buffer e he more
    unfold front at he
    split at he
    · cases he
    · cases he
    · cases he
    · rename_i reason hnext
      cases he
      rw [front, h.append _ _ (by rw [hnext]; intro hbad; cases hbad), hnext]

theorem getD_append {buffer : Bytes} {i : ℕ} (h : i < buffer.length) (more : Bytes) :
    (buffer ++ more).getD i 0 = buffer.getD i 0 := by
  rw [List.getD_eq_getElem?_getD, List.getElem?_append_left h, ← List.getD_eq_getElem?_getD]

theorem header_append {buffer : Bytes} (h : headerSize ≤ buffer.length) (more : Bytes) :
    readBe32 (buffer ++ more) = readBe32 buffer ∧
      (buffer ++ more).getD 4 0 = buffer.getD 4 0 ∧
      (buffer ++ more).getD 5 0 = buffer.getD 5 0 ∧
      (buffer ++ more).getD 6 0 = buffer.getD 6 0 := by
  have hlen : 7 ≤ buffer.length := h
  exact ⟨readBe32_append (by omega) more, getD_append (by omega) more,
    getD_append (by omega) more, getD_append (by omega) more⟩

theorem body_append {buffer : Bytes} {n : ℕ} (h : n ≤ buffer.length) (more : Bytes) :
    ((buffer ++ more).take n).drop headerSize = (buffer.take n).drop headerSize := by
  rw [List.take_append_of_le_length h]

theorem steadyFrames_with (build : UInt8 → UInt8 → V → ℕ → F) (size : F → ℕ)
    (hsize : ∀ msgType format payload n, size (build msgType format payload n) = n)
    (lib : Library V) : SteadyFrames (nextFrameWith build lib) size := by
  have hpositive : ∀ n, 0 < headerSize + n := fun n => Nat.add_pos_left (by decide) n
  refine ⟨fun buffer h => nextFrameWith_short build lib h, ?_, ?_, ?_⟩
  · intro buffer decoded h
    simp only [nextFrameWith] at h
    split_ifs at h with hshort hlarge hversion hcut
    split at h
    · cases h
      rw [hsize]
      exact ⟨hpositive _, Nat.not_lt.mp hcut⟩
    · cases h
  · intro buffer msgType bytesConsumed reason h
    simp only [nextFrameWith] at h
    split_ifs at h with hshort hlarge hversion hcut
    split at h
    · cases h
    · cases h
      exact ⟨hpositive _, Nat.not_lt.mp hcut⟩
  · intro buffer more h
    by_cases hshort : buffer.length < headerSize
    · exact absurd (nextFrameWith_short build lib hshort) h
    obtain ⟨hlen, hversion, htype, hformat⟩ := header_append (Nat.not_lt.mp hshort) more
    have hlong : ¬ (buffer ++ more).length < headerSize := not_shorter_append hshort more
    revert h
    simp only [nextFrameWith, if_neg hshort, if_neg hlong, hlen, hversion, htype, hformat]
    intro h
    by_cases hlarge : maxFrameSize < readBe32 buffer
    · rw [if_pos hlarge, if_pos hlarge]
    by_cases hbad : buffer.getD 4 0 ≠ protocolVersion
    · rw [if_neg hlarge, if_neg hlarge, if_pos hbad, if_pos hbad]
    rw [if_neg hlarge, if_neg hbad] at h
    by_cases hcut : buffer.length < headerSize + readBe32 buffer
    · rw [if_pos hcut] at h
      exact absurd rfl h
    have hcut' : ¬ (buffer ++ more).length < headerSize + readBe32 buffer :=
      not_shorter_append hcut more
    rw [if_neg hlarge, if_neg hlarge, if_neg hbad, if_neg hbad, if_neg hcut, if_neg hcut',
      body_append (Nat.not_lt.mp hcut)]

theorem steadyFrames_typescript (lib : Library V) :
    SteadyFrames (Ts.nextFrame lib) DecodedFrame.bytesConsumed :=
  steadyFrames_with _ DecodedFrame.bytesConsumed (fun _ _ _ _ => rfl) lib

theorem steadyFrames_python (lib : Library V) :
    SteadyFrames (Py.nextFrame lib) Py.DecodedFrame.bytesConsumed := by
  have h := steadyFrames_with (fun msgType format (payload : V) totalLen =>
    (⟨parseMessageType msgType, format, payload, totalLen, msgType⟩ : Py.DecodedFrame V))
    Py.DecodedFrame.bytesConsumed (fun _ _ _ _ => rfl) lib
  exact h

theorem steadyFrames_go (lib : Library V) :
    SteadyFrames (Go.nextFrame lib) DecodedFrame.bytesConsumed := by
  have hpositive : ∀ n, 0 < headerSize + n := fun n => Nat.add_pos_left (by decide) n
  refine ⟨fun buffer h => by rw [Go.nextFrame, if_pos h], ?_, ?_, ?_⟩
  · intro buffer decoded h
    simp only [Go.nextFrame] at h
    split_ifs at h with hshort hlarge hcut hversion hempty hformat hjson
    · cases h
      exact ⟨hpositive _, Nat.not_lt.mp hcut⟩
    all_goals
      split at h
      · cases h
        exact ⟨hpositive _, Nat.not_lt.mp hcut⟩
      · cases h
  · intro buffer msgType bytesConsumed reason h
    simp only [Go.nextFrame] at h
    split_ifs at h with hshort hlarge hcut hversion hempty hformat hjson
    · cases h
      exact ⟨hpositive _, Nat.not_lt.mp hcut⟩
    all_goals
      split at h
      · cases h
      · cases h
        exact ⟨hpositive _, Nat.not_lt.mp hcut⟩
  · intro buffer more h
    by_cases hshort : buffer.length < headerSize
    · exact absurd (by rw [Go.nextFrame, if_pos hshort]) h
    obtain ⟨hlen, hversion, htype, hformat⟩ := header_append (Nat.not_lt.mp hshort) more
    have hlong : ¬ (buffer ++ more).length < headerSize := not_shorter_append hshort more
    revert h
    simp only [Go.nextFrame, if_neg hshort, if_neg hlong, hlen, hversion, htype, hformat]
    intro h
    by_cases hlarge : maxFrameSize < readBe32 buffer
    · rw [if_pos hlarge, if_pos hlarge]
    rw [if_neg hlarge] at h
    by_cases hcut : buffer.length < headerSize + readBe32 buffer
    · rw [if_pos hcut] at h
      exact absurd rfl h
    have hcut' : ¬ (buffer ++ more).length < headerSize + readBe32 buffer :=
      not_shorter_append hcut more
    rw [if_neg hlarge, if_neg hlarge, if_neg hcut, if_neg hcut', body_append (Nat.not_lt.mp hcut)]

/-! ### The loop is `drain` -/

def handleEntry (handle : List (LoopEvent V) → F → List (LoopEvent V)) (log : List (LoopEvent V)) :
    Entry (F ⊕ UInt8 × String) String → List (LoopEvent V)
  | .item (.inl decoded) => handle log decoded
  | .item (.inr (msgType, reason)) => log ++ [.badBody msgType reason]
  | .broken reason => log ++ [.badFraming reason]

theorem processFramesWith_eq_drain {next : Bytes → FrameStep F} {size : F → ℕ}
    (h : SteadyFrames next size) (handle : List (LoopEvent V) → F → List (LoopEvent V)) (fuel : ℕ)
    (r : Receiver V) :
    processFramesWith next size handle fuel r =
      (drain (front next size) (handleEntry handle) fuel r.log r.readBuffer).map
        fun out => ⟨out.2, out.1⟩ := by
  induction fuel generalizing r with
  | zero => rfl
  | succ fuel ih =>
    rw [processFramesWith, drain, front]
    by_cases hshort : r.readBuffer.length < headerSize
    · rw [if_pos hshort, h.short _ hshort]
      rfl
    · rw [if_neg hshort]
      cases hnext : next r.readBuffer with
      | incomplete => rfl
      | badFraming reason => rfl
      | badBody msgType bytesConsumed reason => exact ih _
      | frame decoded => exact ih _

/-- The loop ends, within as many turns as there are bytes and one. -/
theorem processFramesWith_total {next : Bytes → FrameStep F} {size : F → ℕ}
    (h : SteadyFrames next size) (handle : List (LoopEvent V) → F → List (LoopEvent V))
    (r : Receiver V) :
    ∃ s, ∀ fuel, r.readBuffer.length < fuel → processFramesWith next size handle fuel r = some s := by
  obtain ⟨out, hout⟩ := h.steady.drain_total (handleEntry handle) r.log r.readBuffer
  refine ⟨⟨out.2, out.1⟩, fun fuel hfuel => ?_⟩
  rw [processFramesWith_eq_drain h, hout fuel hfuel]
  rfl

theorem receiveAll_feeds {next : Bytes → FrameStep F} {size : F → ℕ}
    (h : SteadyFrames next size) (handle : List (LoopEvent V) → F → List (LoopEvent V))
    (r : Receiver V) (chunks : List Bytes) :
    ∃ s es, receiveAll (processFramesWith next size handle) r chunks = some s ∧
      Feeds (front next size) r.readBuffer chunks es s.readBuffer ∧
      s.log = es.foldl (handleEntry handle) r.log := by
  induction chunks generalizing r with
  | nil => exact ⟨r, [], rfl, .nil, rfl⟩
  | cons chunk chunks ih =>
    obtain ⟨out, hout⟩ := h.steady.drain_total (handleEntry handle) r.log
      (r.readBuffer ++ chunk)
    have hdrain := hout ((r.readBuffer ++ chunk).length + 1) (by omega)
    obtain ⟨es, hreads, hlog⟩ := drain_reads hdrain
    obtain ⟨s, fs, hs, hfeeds, hslog⟩ := ih ⟨out.2, out.1⟩
    refine ⟨s, es ++ fs, ?_, .cons hreads hfeeds, ?_⟩
    · rw [receiveAll, receiveBytes, processFramesWith_eq_drain h, hdrain]
      exact hs
    · rw [hslog, List.foldl_append, ← hlog]

/-! ### The log as far as the first framing error -/

def LoopEvent.isFraming : LoopEvent V → Bool
  | .badFraming _ => true
  | _ => false

def upToFraming : List (LoopEvent V) → List (LoopEvent V)
  | [] => []
  | event :: log => if event.isFraming then [event] else event :: upToFraming log

theorem upToFraming_sound {log : List (LoopEvent V)}
    (h : log.any LoopEvent.isFraming = false) : upToFraming log = log := by
  induction log with
  | nil => rfl
  | cons event log ih =>
    rw [List.any_cons, Bool.or_eq_false_iff] at h
    rw [upToFraming, h.1, ih h.2]
    rfl

theorem upToFraming_broken {log more : List (LoopEvent V)} (reason : String)
    (h : log.any LoopEvent.isFraming = false) :
    upToFraming (log ++ [.badFraming reason] ++ more) = log ++ [.badFraming reason] := by
  induction log with
  | nil => rfl
  | cons event log ih =>
    rw [List.any_cons, Bool.or_eq_false_iff] at h
    rw [List.cons_append, List.cons_append, upToFraming, h.1, ih h.2]
    rfl

/-- A handler only adds to the log, and no framing error. -/
def Appends (handle : List (LoopEvent V) → F → List (LoopEvent V)) : Prop :=
  ∀ log decoded, ∃ more, handle log decoded = log ++ more ∧
    more.any LoopEvent.isFraming = false

section
variable {handle : List (LoopEvent V) → F → List (LoopEvent V)}

theorem Appends.foldl (h : Appends handle) (log : List (LoopEvent V))
    (es : List (Entry (F ⊕ UInt8 × String) String)) :
    ∃ more, es.foldl (handleEntry handle) log = log ++ more ∧
      (es.any Entry.isBroken = false → more.any LoopEvent.isFraming = false) := by
  induction es generalizing log with
  | nil => exact ⟨[], (List.append_nil _).symm, fun _ => rfl⟩
  | cons entry es ih =>
    obtain ⟨first, hfirst, hsound⟩ : ∃ first, handleEntry handle log entry = log ++ first ∧
        (entry.isBroken = false → first.any LoopEvent.isFraming = false) := by
      match entry with
      | .item (.inl decoded) =>
        obtain ⟨first, hfirst, hsound⟩ := h log decoded
        exact ⟨first, hfirst, fun _ => hsound⟩
      | .item (.inr (msgType, reason)) => exact ⟨[.badBody msgType reason], rfl, fun _ => rfl⟩
      | .broken reason => exact ⟨[.badFraming reason], rfl, fun hbad => by cases hbad⟩
    obtain ⟨more, hmore, hrest⟩ := ih (log ++ first)
    refine ⟨first ++ more, ?_, fun hes => ?_⟩
    · rw [List.foldl_cons, hfirst, hmore, List.append_assoc]
    · rw [List.any_cons, Bool.or_eq_false_iff] at hes
      rw [List.any_append, hsound hes.1, hrest hes.2]
      rfl

/-- However the stream is cut, the log agrees as far as the first framing error
with the one of the stream read at once. -/
theorem receiveAll_whole {next : Bytes → FrameStep F} {size : F → ℕ}
    (h : SteadyFrames next size) (happends : Appends handle)
    {es : List (Entry (F ⊕ UInt8 × String) String)} {chunks : List Bytes} {r : Bytes}
    (hreads : Reads (front next size) chunks.flatten es r) :
    ∃ s, receiveAll (processFramesWith next size handle) Receiver.fresh chunks = some s ∧
      upToFraming s.log = es.foldl (handleEntry handle) [] ∧
      (s.log.any LoopEvent.isFraming = false → s.log = es.foldl (handleEntry handle) []) := by
  obtain ⟨s, fs, hs, hfeeds, hlog⟩ := receiveAll_feeds h handle Receiver.fresh chunks
  obtain ⟨⟨rest, hrest⟩, hequal⟩ := h.steady.feeds_whole h.steady.empty hfeeds hreads
  refine ⟨s, hs, ?_⟩
  rcases hreads.shape with hsound | ⟨items, e, rfl, hsound⟩
  · obtain ⟨more, hmore, hframing⟩ := happends.foldl [] es
    have hwhole : s.log = es.foldl (handleEntry handle) [] := by
      rw [hlog, hequal hsound]
      rfl
    refine ⟨?_, fun _ => hwhole⟩
    rw [hwhole, upToFraming_sound]
    rw [hmore]
    exact hframing hsound
  · obtain ⟨before, hbefore, hclean⟩ := happends.foldl [] items
    rw [List.nil_append] at hbefore
    have hitems : (items ++ [Entry.broken e]).foldl (handleEntry handle) [] =
        before ++ [.badFraming e] := by
      rw [List.foldl_append, hbefore]
      rfl
    obtain ⟨more, hmore, _⟩ := happends.foldl (before ++ [.badFraming e]) rest
    have hbroken : s.log = before ++ [.badFraming e] ++ more := by
      rw [hlog, ← hrest, List.foldl_append]
      show rest.foldl (handleEntry handle) ((items ++ [Entry.broken e]).foldl _ []) = _
      rw [hitems, hmore]
    rw [hitems, hbroken]
    refine ⟨upToFraming_broken e (hclean hsound), fun hnone => ?_⟩
    simp [LoopEvent.isFraming] at hnone

end

theorem any_upToFraming (log : List (LoopEvent V)) :
    (upToFraming log).any LoopEvent.isFraming = log.any LoopEvent.isFraming := by
  induction log with
  | nil => rfl
  | cons event log ih =>
    rw [upToFraming]
    cases hevent : event.isFraming with
    | true => simp [hevent]
    | false => simp only [Bool.false_eq_true, if_false, List.any_cons, hevent, ih]

/-! ### The three loops -/

section
variable (throws : List (LoopEvent V) → UInt8 → V → Option String) (lib : Library V)

theorem thrown_sound (log : List (LoopEvent V)) (msgType : UInt8) (payload : V) :
    (thrown throws log msgType payload).any LoopEvent.isFraming = false := by
  unfold thrown
  cases throws log msgType payload with
  | none => rfl
  | some error => rfl

theorem Ts.handle_appends : Appends (Ts.handle throws) :=
  fun log decoded => ⟨_, rfl, thrown_sound throws log decoded.msgType decoded.payload⟩

theorem Go.handle_appends : Appends (Go.handle (V := V)) :=
  fun _ decoded => ⟨[.handled decoded.msgType decoded.payload], rfl, rfl⟩

theorem Py.handle_appends : Appends (Py.handle throws) := by
  intro log decoded
  unfold Py.handle
  cases decoded.msgType with
  | none => exact ⟨[.unknownType decoded.rawMsgType], rfl, rfl⟩
  | some known => exact ⟨_, rfl, thrown_sound throws log decoded.rawMsgType decoded.payload⟩

theorem processFrames_total (language : Language) (r : Receiver V) :
    ∃ s, ∀ fuel, r.readBuffer.length < fuel → processFrames throws lib language fuel r = some s := by
  cases language with
  | typescript => exact processFramesWith_total (steadyFrames_typescript lib) _ r
  | go => exact processFramesWith_total (steadyFrames_go lib) _ r
  | python => exact processFramesWith_total (steadyFrames_python lib) _ r

/-- One log for each stream, which every cut of the stream follows as far as the
first framing error. -/
theorem processFrames_log (language : Language) (stream : Bytes) :
    ∃ log, ∀ chunks : List Bytes, chunks.flatten = stream →
      ∃ s, receiveAll (processFrames throws lib language) Receiver.fresh chunks = some s ∧
        upToFraming s.log = log ∧ (s.log.any LoopEvent.isFraming = false → s.log = log) := by
  cases language with
  | typescript =>
    obtain ⟨es, r, hreads⟩ := (steadyFrames_typescript lib).steady.reads_exists stream
    refine ⟨es.foldl (handleEntry (Ts.handle throws)) [], fun chunks hchunks => ?_⟩
    subst hchunks
    exact receiveAll_whole (steadyFrames_typescript lib) (Ts.handle_appends throws) hreads
  | go =>
    obtain ⟨es, r, hreads⟩ := (steadyFrames_go lib).steady.reads_exists stream
    refine ⟨es.foldl (handleEntry Go.handle) [], fun chunks hchunks => ?_⟩
    subst hchunks
    exact receiveAll_whole (steadyFrames_go lib) Go.handle_appends hreads
  | python =>
    obtain ⟨es, r, hreads⟩ := (steadyFrames_python lib).steady.reads_exists stream
    refine ⟨es.foldl (handleEntry (Py.handle throws)) [], fun chunks hchunks => ?_⟩
    subst hchunks
    exact receiveAll_whole (steadyFrames_python lib) (Py.handle_appends throws) hreads

/-- Each invocation ends, and two cuts of one stream give the same log as far as
the first framing error; without one they give the same log. -/
theorem receiveAll_cuts (language : Language) :
    (∀ r : Receiver V, ∃ s, ∀ fuel, r.readBuffer.length < fuel →
      processFrames throws lib language fuel r = some s) ∧
    ∀ chunks chunks' : List Bytes, chunks.flatten = chunks'.flatten →
      ∃ s s', receiveAll (processFrames throws lib language) Receiver.fresh chunks = some s ∧
        receiveAll (processFrames throws lib language) Receiver.fresh chunks' = some s' ∧
        upToFraming s.log = upToFraming s'.log ∧
        (s.log.any LoopEvent.isFraming = false → s.log = s'.log) := by
  refine ⟨processFrames_total throws lib language, fun chunks chunks' hsame => ?_⟩
  obtain ⟨log, hlog⟩ := processFrames_log throws lib language chunks'.flatten
  obtain ⟨s, hs, hupto, hequal⟩ := hlog chunks hsame
  obtain ⟨s', hs', hupto', hequal'⟩ := hlog chunks' rfl
  refine ⟨s, s', hs, hs', hupto.trans hupto'.symm, fun hsound => ?_⟩
  have hsound' : s'.log.any LoopEvent.isFraming = false := by
    rw [← any_upToFraming, hupto', ← hupto, any_upToFraming]
    exact hsound
  rw [hequal hsound, hequal' hsound']

end

/-- A heartbeat in version 9 and a good frame behind it. -/
def strangeVersion : Bytes := [0, 0, 0, 0, 9, 4, 1]

def goodPush : Bytes := [0, 0, 0, 1, 2, 5, 2, 0xc3]

theorem receiveAll_cuts_push :
    ∃ s s', receiveAll (processFrames (fun _ _ _ => none) scalarLibrary .go) Receiver.fresh
        [[0, 0, 0, 1, 2], [5, 2, 0xc3]] = some s ∧
      receiveAll (processFrames (fun _ _ _ => none) scalarLibrary .go) Receiver.fresh
        [goodPush] = some s' ∧
      upToFraming s.log = upToFraming s'.log ∧
      (s.log.any LoopEvent.isFraming = false → s.log = s'.log) :=
  (receiveAll_cuts (fun _ _ _ => none) scalarLibrary .go).2 _ _ rfl

/-- Read at once the good frame is dropped with the bad header, read behind it
it is handled. -/
theorem receiveAll_depends_on_cut :
    ¬ ∀ (throws : List (LoopEvent (Option Bool)) → UInt8 → Option Bool → Option String)
      (lib : Library (Option Bool)) (language : Language) (chunks chunks' : List Bytes),
      chunks.flatten = chunks'.flatten →
        (receiveAll (processFrames throws lib language) Receiver.fresh chunks).map
            (fun s => s.log) =
          (receiveAll (processFrames throws lib language) Receiver.fresh chunks').map
            (fun s => s.log) := by
  intro h
  have hsame := h (fun _ _ _ => none) scalarLibrary .typescript [strangeVersion ++ goodPush]
    [strangeVersion, goodPush] rfl
  have hlength := congrArg (Option.map List.length) hsame
  revert hlength
  decide

end Emergent.Sdk

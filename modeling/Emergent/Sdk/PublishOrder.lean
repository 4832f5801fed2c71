import Emergent.Sdk.PublishAccount

/-!
# The order of the frames

`publish` hands its frame to the task, `publish_ack` writes its own once a flush
has returned. A message that had been sent when a call began is on the socket, or
in the log of the queue in front of what the call waits for; the two logs keep
the order from there.
-/

namespace Emergent.Sdk
open Kit

/-- A flush of the call stands, or stood, behind so many publishes. -/
def CallPoint.ahead : CallPoint → Option ℕ
  | .flush _ (.flushing ahead) => some ahead
  | p => p.flushedBehind

def CallPoint.isFlushed : CallPoint → Bool
  | .flush _ (.flushed _) => true
  | _ => false

namespace PublishCalls

variable {s t : PublishCalls} {call : ℕ}

/-- A publish is sent to an open queue, a frame that the client fails to write
fails for good, and after such a failure it writes no frame of a `publish_ack`. -/
def InOrder (s : PublishCalls) (a : PublishAction) : Prop :=
  s.Clear a ∧
    match a with
    | .fail terminal _ => s.disconnected = true ∨ terminal = true
    | .client call ok =>
      ok = true → s.calls[call]?.any (fun c => c.point.isFlushed) = true → s.disconnected = false
    | _ => True

instance (s : PublishCalls) (a : PublishAction) : Decidable (s.InOrder a) :=
  match a with
  | .fail _ _ => inferInstanceAs (Decidable (_ ∧ (_ ∨ _)))
  | .client _ _ => inferInstanceAs (Decidable (_ ∧ (_ → _ → _)))
  | .publish | .flush _ | .shutdown _ | .proceed _ | .abandon _ | .recv | .write | .answer _
  | .exit | .lose | .drop => inferInstanceAs (Decidable (_ ∧ True))

/-- The messages that had been sent when the call began. -/
def earlierOf (s : PublishCalls) (call : ℕ) : List ℕ :=
  (s.calls[call]?.map WatcherCall.earlier).getD []

structure Ordered (s : PublishCalls) : Prop where
  sent : ∀ (k : ℕ) (c : WatcherCall), s.calls[k]? = some c →
    c.point = .publish (.returned true) → k ∈ s.queued
  queued : ∀ k ∈ s.queued, ∃ c, s.calls[k]? = some c ∧ c.point = .publish (.returned true)
  queuedOnce : s.queued.Nodup
  writtenOnce : s.written.Nodup
  frames : ∀ k ∈ s.written, k ∈ s.answered ∨ s.task = .waiting k ∨
    ∃ c, s.calls[k]? = some c ∧ c.point.mayHaveWritten = true
  requested : ∀ (k : ℕ) (c : WatcherCall), s.calls[k]? = some c →
    c.point.hasWritten = true → k ∈ s.written
  waiting : ∀ k, s.task = .waiting k → k ∈ s.written
  answered : ∀ k ∈ s.answered, k ∈ s.written ∨ s.disconnected = true
  earlier : ∀ k, ∀ i ∈ s.earlierOf k, i ∈ s.written ∨ i ∈ s.queued
  ahead : ∀ (k : ℕ) (c : WatcherCall) (ahead : ℕ), s.calls[k]? = some c →
    c.point.ahead = some ahead → ∀ i ∈ c.earlier, i ∈ s.written ∨ i ∈ s.queued.take ahead
  queuedAfter : EachAfter (fun before k => ∀ i ∈ s.earlierOf k, i ∈ s.written ∨ i ∈ before) s.queued
  writtenAfter : EachAfter (fun before k => ∀ i ∈ s.earlierOf k, i ∈ before) s.written

theorem ordered_spawn : spawn.Ordered where
  sent := by simp [spawn]
  queued := by simp [spawn]
  queuedOnce := List.nodup_nil
  writtenOnce := List.nodup_nil
  frames := by simp [spawn]
  requested := by simp [spawn]
  waiting := by simp [spawn]
  answered := by simp [spawn]
  earlier := by simp [spawn, earlierOf]
  ahead := by simp [spawn]
  queuedAfter := eachAfter_nil
  writtenAfter := eachAfter_nil

/-! ### Looking up a call -/

theorem earlierOf_eq {c : WatcherCall} (hc : s.calls[call]? = some c) :
    s.earlierOf call = c.earlier := by
  rw [earlierOf, hc]
  rfl

theorem earlierOf_move (q : CallPoint) (k : ℕ) : (s.move call q).earlierOf k = s.earlierOf k := by
  simp only [earlierOf, PublishCalls.move]
  rw [List.getElem?_modify]
  cases s.calls[k]? with
  | none => rfl
  | some c =>
    by_cases h : call = k
    · simp [h]
    · simp [h]

theorem mem_earlierOf_move {q : CallPoint} {k i : ℕ} (h : i ∈ (s.move call q).earlierOf k) :
    i ∈ s.earlierOf k := by
  rw [earlierOf_move] at h
  exact h

/-- A call that is not sent leaves the sent ones as they are. -/
theorem sent_move {c : WatcherCall} {q : CallPoint} (hc : s.calls[call]? = some c)
    (hunsent : c.point ≠ .publish (.returned true)) {k : ℕ}
    (h : ∃ d, s.calls[k]? = some d ∧ d.point = .publish (.returned true)) :
    ∃ d, (s.move call q).calls[k]? = some d ∧ d.point = .publish (.returned true) := by
  obtain ⟨d, hd, hsent⟩ := h
  refine ⟨d, (getElem?_modify_of_ne ?_).trans hd, hsent⟩
  intro heq
  rw [← heq, hc] at hd
  rw [Option.some.inj hd] at hunsent
  exact hunsent hsent

theorem mayHaveWritten_move {c : WatcherCall} {q : CallPoint} (hc : s.calls[call]? = some c)
    (hwritten : c.point.mayHaveWritten = true → q.mayHaveWritten = true) {k : ℕ}
    (h : ∃ d, s.calls[k]? = some d ∧ d.point.mayHaveWritten = true) :
    ∃ d, (s.move call q).calls[k]? = some d ∧ d.point.mayHaveWritten = true := by
  obtain ⟨d, hd, hmay⟩ := h
  by_cases hk : call = k
  · rw [← hk, hc] at hd
    rw [← hk]
    rw [← Option.some.inj hd] at hmay
    exact ⟨_, getElem?_modify_self hc, hwritten hmay⟩
  · exact ⟨d, (getElem?_modify_of_ne hk).trans hd, hmay⟩

theorem mem_queued_of_inHand (hs : s.Accounted) {k : ℕ}
    (h : k ∈ s.answered ∨ k ∈ s.task.inHand) : k ∈ s.queued := by
  rw [hs.order]
  exact List.mem_append_left _ (List.mem_append.mpr h)

theorem Ordered.exists_call (ho : s.Ordered) (hs : s.Accounted) {k : ℕ}
    (h : k ∈ s.queued ∨ k ∈ s.written) : ∃ c, s.calls[k]? = some c := by
  have hqueued : k ∈ s.queued → ∃ c, s.calls[k]? = some c := fun hk =>
    (ho.queued k hk).imp fun c hc => hc.1
  rcases h with hk | hk
  · exact hqueued hk
  · rcases ho.frames k hk with hanswered | hwaiting | ⟨c, hc, _⟩
    · exact hqueued (mem_queued_of_inHand hs (Or.inl hanswered))
    · have hhand : k ∈ s.task.inHand := by
        rw [hwaiting]
        exact List.mem_singleton_self k
      exact hqueued (mem_queued_of_inHand hs (Or.inr hhand))
    · exact ⟨c, hc⟩

/-- A call that is not a sent publish has its frame on the socket only by a
request of its own. -/
theorem Ordered.mayHaveWritten (ho : s.Ordered) (hs : s.Accounted) {c : WatcherCall}
    (hc : s.calls[call]? = some c) (hpoint : c.point ≠ .publish (.returned true))
    (h : call ∈ s.written) : c.point.mayHaveWritten = true := by
  have hunqueued : call ∉ s.queued := by
    intro hmem
    obtain ⟨d, hd, hsent⟩ := ho.queued call hmem
    rw [hc] at hd
    rw [← Option.some.inj hd] at hsent
    exact hpoint hsent
  rcases ho.frames call h with hanswered | hwaiting | ⟨d, hd, hmay⟩
  · exact absurd (mem_queued_of_inHand hs (Or.inl hanswered)) hunqueued
  · have hhand : call ∈ s.task.inHand := by
      rw [hwaiting]
      exact List.mem_singleton_self call
    exact absurd (mem_queued_of_inHand hs (Or.inr hhand)) hunqueued
  · rw [hc] at hd
    rw [Option.some.inj hd]
    exact hmay

theorem Ordered.mem_of_sent (ho : s.Ordered) {i : ℕ} (h : i ∈ s.sent) :
    i ∈ s.written ∨ i ∈ s.queued := by
  have hany := (List.mem_filter.mp h).2
  rw [Option.any_eq_true] at hany
  obtain ⟨c, hc, hsent⟩ := hany
  unfold CallPoint.isSent at hsent
  split at hsent
  · rename_i hpoint
    exact Or.inr (ho.sent i c hc hpoint)
  · rename_i ahead hpoint
    exact Or.inl (ho.requested i c hc (by rw [hpoint]; rfl))
  · cases hsent

/-! ### One step -/

theorem Ordered.begin (ho : s.Ordered) (hs : s.Accounted) {point : CallPoint}
    (hunsent : point ≠ .publish (.returned true)) (hunwritten : point.hasWritten = false)
    (hahead : point.ahead = none) (h : s.begin point = some t) : t.Ordered := by
  unfold PublishCalls.begin at h
  split_ifs at h
  obtain rfl := Option.some.inj h
  have hkept : ∀ {k : ℕ}, k ∈ s.queued ∨ k ∈ s.written →
      ∃ c, s.calls[k]? = some c ∧ (s.calls ++ [⟨s.sent, point⟩])[k]? = some c := by
    intro k hk
    obtain ⟨c, hc⟩ := ho.exists_call hs hk
    refine ⟨c, hc, ?_⟩
    rw [List.getElem?_append_left (List.getElem?_eq_some_iff.mp hc).1]
    exact hc
  have hearlier : ∀ {k : ℕ}, k ∈ s.queued ∨ k ∈ s.written →
      earlierOf { s with calls := s.calls ++ [⟨s.sent, point⟩] } k = s.earlierOf k := by
    intro k hk
    obtain ⟨c, hc, hc'⟩ := hkept hk
    rw [earlierOf_eq (s := s) hc]
    exact earlierOf_eq hc'
  refine ⟨?_, ?_, ho.queuedOnce, ho.writtenOnce, ?_, ?_, ho.waiting, ho.answered, ?_, ?_, ?_, ?_⟩
  · intro k c hc hpoint
    rcases getElem?_snoc_cases hc with hc | ⟨_, rfl⟩
    · exact ho.sent k c hc hpoint
    · exact absurd hpoint hunsent
  · intro k hk
    obtain ⟨c, hc, hpoint⟩ := ho.queued k hk
    obtain ⟨d, hd, hd'⟩ := hkept (Or.inl hk)
    rw [hc] at hd
    rw [← Option.some.inj hd] at hd'
    exact ⟨c, hd', hpoint⟩
  · intro k hk
    refine (ho.frames k hk).imp_right (Or.imp_right fun ⟨c, hc, hmay⟩ => ?_)
    obtain ⟨d, hd, hd'⟩ := hkept (Or.inr hk)
    rw [hc] at hd
    rw [← Option.some.inj hd] at hd'
    exact ⟨c, hd', hmay⟩
  · intro k c hc hwritten
    rcases getElem?_snoc_cases hc with hc | ⟨_, rfl⟩
    · exact ho.requested k c hc hwritten
    · rw [hunwritten] at hwritten
      cases hwritten
  · intro k i hi
    cases hc : (s.calls ++ [⟨s.sent, point⟩])[k]? with
    | none =>
      rw [earlierOf, hc] at hi
      cases hi
    | some c =>
      rw [earlierOf_eq hc] at hi
      rcases getElem?_snoc_cases hc with hc | ⟨_, rfl⟩
      · exact ho.earlier k i (by rw [earlierOf_eq hc]; exact hi)
      · exact ho.mem_of_sent hi
  · intro k c ahead hc hpoint
    rcases getElem?_snoc_cases hc with hc | ⟨_, rfl⟩
    · exact ho.ahead k c ahead hc hpoint
    · rw [hahead] at hpoint
      cases hpoint
  · refine ho.queuedAfter.mono fun before k hk hbefore => ?_
    rw [hearlier (Or.inl hk)]
    exact hbefore
  · refine ho.writtenAfter.mono fun before k hk hbefore => ?_
    rw [hearlier (Or.inr hk)]
    exact hbefore

theorem Ordered.beside (ho : s.Ordered) (connected handleTaken dropped : Bool)
    (queue : List QueuedCommand) :
    Ordered { s with
      connected := connected
      handleTaken := handleTaken
      dropped := dropped
      queue := queue } :=
  ⟨ho.sent, ho.queued, ho.queuedOnce, ho.writtenOnce, ho.frames, ho.requested, ho.waiting,
    ho.answered, ho.earlier, ho.ahead, ho.queuedAfter, ho.writtenAfter⟩

/-- A call moves on without a frame: the logs stay as they are. -/
theorem Ordered.move (ho : s.Ordered) {c : WatcherCall} (hc : s.calls[call]? = some c)
    {q : CallPoint}
    (hunsent : c.point ≠ .publish (.returned true) ∧ q ≠ .publish (.returned true))
    (hwritten : c.point.mayHaveWritten = true → q.mayHaveWritten = true)
    (hunwritten : q.hasWritten = true → c.point.hasWritten = true)
    (hahead : ∀ ahead, q.ahead = some ahead →
      c.point.ahead = some ahead ∨ ahead = s.queued.length) :
    (s.move call q).Ordered := by
  refine ⟨?_, ?_, ho.queuedOnce, ho.writtenOnce, ?_, ?_, ho.waiting, ho.answered, ?_, ?_, ?_, ?_⟩
  · intro k d hd hpoint
    rcases getElem?_modify_cases hd with ⟨_, b, _, rfl⟩ | ⟨_, hd⟩
    · exact absurd hpoint hunsent.2
    · exact ho.sent k d hd hpoint
  · intro k hk
    exact sent_move hc hunsent.1 (ho.queued k hk)
  · intro k hk
    exact (ho.frames k hk).imp_right (Or.imp_right (mayHaveWritten_move hc hwritten))
  · intro k d hd hpoint
    rcases getElem?_modify_cases hd with ⟨rfl, b, _, rfl⟩ | ⟨_, hd⟩
    · exact ho.requested call c hc (hunwritten hpoint)
    · exact ho.requested k d hd hpoint
  · intro k i hi
    exact ho.earlier k i (mem_earlierOf_move hi)
  · intro k d ahead hd hpoint i hi
    rcases getElem?_modify_cases hd with ⟨rfl, b, hb, rfl⟩ | ⟨_, hd⟩
    · rw [hc] at hb
      rw [← Option.some.inj hb] at hi
      rcases hahead ahead hpoint with hbefore | rfl
      · exact ho.ahead call c ahead hc hbefore i hi
      · show i ∈ s.written ∨ i ∈ s.queued.take s.queued.length
        rw [List.take_length]
        exact ho.earlier call i (by rw [earlierOf_eq hc]; exact hi)
    · exact ho.ahead k d ahead hd hpoint i hi
  · exact ho.queuedAfter.mono fun before k _ hbefore i hi => hbefore i (mem_earlierOf_move hi)
  · exact ho.writtenAfter.mono fun before k _ hbefore i hi => hbefore i (mem_earlierOf_move hi)

theorem Ordered.quiet (ho : s.Ordered) {c : WatcherCall} (hc : s.calls[call]? = some c)
    {q : CallPoint} (hq : Quiet s call c.point q) : (s.move call q).Ordered := by
  refine ho.move hc hq.unsent hq.written hq.unwritten ?_
  intro ahead hahead
  have hflushed : q.flushedBehind = some ahead := by
    unfold CallPoint.ahead at hahead
    split at hahead
    · exact absurd rfl (hq.flushing _ _)
    · exact hahead
  rcases hq.flushed ahead hflushed with hbefore | ⟨ack, hbefore, _⟩ | ⟨_, hlength⟩
  · refine Or.inl ?_
    unfold CallPoint.ahead
    split
    · rename_i hpoint
      rw [hpoint] at hbefore
      cases hbefore
    · exact hbefore
  · rw [hbefore]
    exact Or.inl rfl
  · exact Or.inr hlength

theorem Ordered.sendPublish (ho : s.Ordered) {c : WatcherCall} (hc : s.calls[call]? = some c)
    (hpoint : c.point = .publish .sending) :
    Ordered { s.move call (.publish (.returned true)) with
      queue := s.queue ++ [.publish call], queued := s.queued ++ [call] } := by
  have hnew : call ∉ s.queued := by
    intro hmem
    obtain ⟨d, hd, hsent⟩ := ho.queued call hmem
    rw [hc] at hd
    rw [← Option.some.inj hd, hpoint] at hsent
    cases hsent
  have hearlier : ∀ {k i : ℕ}, i ∈ (s.move call (.publish (.returned true))).earlierOf k →
      i ∈ s.earlierOf k := mem_earlierOf_move
  refine ⟨?_, ?_, ?_, ho.writtenOnce, ?_, ?_, ho.waiting, ho.answered, ?_, ?_, ?_, ?_⟩
  · intro k d hd hsent
    rcases getElem?_modify_cases hd with ⟨rfl, b, _, rfl⟩ | ⟨_, hd⟩
    · exact List.mem_append_right _ (List.mem_singleton_self _)
    · exact List.mem_append_left _ (ho.sent k d hd hsent)
  · intro k hk
    by_cases hcall : call = k
    · rw [← hcall]
      exact ⟨_, getElem?_modify_self hc, rfl⟩
    · rcases List.mem_append.mp hk with hk | hk
      · exact sent_move hc (by rw [hpoint]; simp) (ho.queued k hk)
      · exact absurd (List.mem_singleton.mp hk).symm hcall
  · exact ho.queuedOnce.append (List.nodup_singleton call)
      (List.disjoint_singleton.mpr hnew)
  · intro k hk
    refine (ho.frames k hk).imp_right (Or.imp_right (mayHaveWritten_move hc ?_))
    rw [hpoint]
    intro hmay
    cases hmay
  · intro k d hd hwritten
    rcases getElem?_modify_cases hd with ⟨_, b, _, rfl⟩ | ⟨_, hd⟩
    · cases hwritten
    · exact ho.requested k d hd hwritten
  · intro k i hi
    exact (ho.earlier k i (hearlier hi)).imp_right (List.mem_append_left _)
  · intro k d ahead hd hahead i hi
    rcases getElem?_modify_cases hd with ⟨_, b, _, rfl⟩ | ⟨_, hd⟩
    · cases hahead
    · refine (ho.ahead k d ahead hd hahead i hi).imp_right fun hmem => ?_
      rw [List.take_append]
      exact List.mem_append_left _ hmem
  · have hsnoc := EachAfter.snoc ho.queuedAfter (ho.earlier call)
    exact hsnoc.mono fun before k _ hbefore i hi => hbefore i (hearlier hi)
  · exact ho.writtenAfter.mono fun before k _ hbefore i hi => hbefore i (hearlier hi)

/-- A frame goes to the socket behind every message its call must follow. -/
theorem Ordered.frame (ho : s.Ordered) {k : ℕ} (hnew : k ∉ s.written)
    (hearlier : ∀ i ∈ s.earlierOf k, i ∈ s.written) :
    (s.written ++ [k]).Nodup ∧
      EachAfter (fun before k => ∀ i ∈ s.earlierOf k, i ∈ before) (s.written ++ [k]) :=
  ⟨ho.writtenOnce.append (List.nodup_singleton k) (List.disjoint_singleton.mpr hnew),
    ho.writtenAfter.snoc hearlier⟩

theorem Ordered.request (ho : s.Ordered) (hs : s.Accounted) {c : WatcherCall}
    (hc : s.calls[call]? = some c) {ack : Bool} {ahead : ℕ}
    (hpoint : c.point = .flush ack (.flushed ahead)) (hconnected : s.disconnected = false) :
    Ordered { s.move call (.flush ack (.requested ahead)) with
      written := s.written ++ [call] } := by
  have hnew : call ∉ s.written := by
    intro hmem
    have hmay := ho.mayHaveWritten hs hc (by rw [hpoint]; simp) hmem
    rw [hpoint] at hmay
    cases hmay
  -- the flush has seen every publish before the call counted, so written
  have hearlier : ∀ i ∈ s.earlierOf call, i ∈ s.written := by
    intro i hi
    rw [earlierOf_eq hc] at hi
    rcases ho.ahead call c ahead hc (by rw [hpoint]; rfl) i hi with hwritten | hqueued
    · exact hwritten
    · have hle : ahead ≤ s.answered.length := hs.flushed call c ahead hc (by rw [hpoint]; rfl)
      rw [hs.order, List.append_assoc, List.take_append_of_le_length hle] at hqueued
      have hanswered := ho.answered i (List.mem_of_mem_take hqueued)
      rw [hconnected] at hanswered
      exact hanswered.resolve_right (by simp)
  have hframe := ho.frame hnew hearlier
  have hmove : ∀ {k i : ℕ}, i ∈ (s.move call (.flush ack (.requested ahead))).earlierOf k →
      i ∈ s.earlierOf k := mem_earlierOf_move
  refine ⟨?_, ?_, ho.queuedOnce, hframe.1, ?_, ?_, ?_, ?_, ?_, ?_, ?_, ?_⟩
  · intro k d hd hsent
    rcases getElem?_modify_cases hd with ⟨_, b, _, rfl⟩ | ⟨_, hd⟩
    · cases hsent
    · exact ho.sent k d hd hsent
  · intro k hk
    exact sent_move hc (by rw [hpoint]; simp) (ho.queued k hk)
  · intro k hk
    rcases List.mem_append.mp hk with hk | hk
    · exact (ho.frames k hk).imp_right (Or.imp_right (mayHaveWritten_move hc fun _ => rfl))
    · rw [List.mem_singleton.mp hk]
      exact Or.inr (Or.inr ⟨_, getElem?_modify_self hc, rfl⟩)
  · intro k d hd hwritten
    rcases getElem?_modify_cases hd with ⟨rfl, b, _, rfl⟩ | ⟨_, hd⟩
    · exact List.mem_append_right _ (List.mem_singleton_self _)
    · exact List.mem_append_left _ (ho.requested k d hd hwritten)
  · intro k hk
    exact List.mem_append_left _ (ho.waiting k hk)
  · intro k hk
    exact (ho.answered k hk).imp_left (List.mem_append_left _)
  · intro k i hi
    exact (ho.earlier k i (hmove hi)).imp_left (List.mem_append_left _)
  · intro k d n hd hn i hi
    rcases getElem?_modify_cases hd with ⟨rfl, b, hb, rfl⟩ | ⟨_, hd⟩
    · rw [hc] at hb
      rw [← Option.some.inj hb, ← earlierOf_eq hc] at hi
      exact Or.inl (List.mem_append_left _ (hearlier i hi))
    · exact (ho.ahead k d n hd hn i hi).imp_left (List.mem_append_left _)
  · refine ho.queuedAfter.mono fun before k _ hbefore i hi => ?_
    exact (hbefore i (hmove hi)).imp_left (List.mem_append_left _)
  · exact hframe.2.mono fun before k _ hbefore i hi => hbefore i (hmove hi)

theorem Ordered.callEffect (ho : s.Ordered) (hs : s.Accounted) {c : WatcherCall}
    (hc : s.calls[call]? = some c)
    (hconnected : ∀ ack ahead, c.point = .flush ack (.flushed ahead) →
      t.written = s.written ++ [call] → s.disconnected = false)
    (h : CallEffect s call c.point t) : t.Ordered := by
  cases h with
  | quiet q connected handleTaken hq =>
    exact (ho.quiet hc hq).beside connected handleTaken s.dropped s.queue
  | publish hpoint => exact ho.sendPublish hc hpoint
  | flush ack hpoint =>
    refine Ordered.beside (ho.move hc ?_ ?_ ?_ ?_) s.connected s.handleTaken s.dropped _
    · rw [hpoint]
      simp
    · rw [hpoint]
      intro hmay
      cases hmay
    · intro hwritten
      cases hwritten
    · intro ahead hahead
      exact Or.inr (Option.some.inj hahead).symm
  | shutdown disconnect hpoint =>
    have hquiet : Quiet s call c.point (.shutdown disconnect .stopping) := by
      rw [hpoint]
      exact quiet_shutdown
    exact (ho.quiet hc hquiet).beside s.connected s.handleTaken s.dropped _
  | request ack ahead hpoint => exact ho.request hs hc hpoint (hconnected ack ahead hpoint rfl)

/-- The task moves on with no frame on its way. -/
theorem Ordered.setTask (ho : s.Ordered) {task : WatchPoint} (queue : List QueuedCommand)
    (hbefore : ∀ k, s.task ≠ .waiting k) (hafter : ∀ k, task ≠ .waiting k) :
    Ordered { s with queue := queue, task := task } := by
  refine { ho with frames := ?_, waiting := ?_ }
  · intro k hk
    refine (ho.frames k hk).imp_right (Or.imp_left fun hwaiting => ?_)
    exact absurd hwaiting (hbefore k)
  · intro k hk
    exact absurd hk (hafter k)

theorem Ordered.recv (ho : s.Ordered) (h : s.recv = some t) : t.Ordered := by
  obtain ⟨htask, hcases⟩ := recv_cases h
  have hbefore : ∀ k, s.task ≠ .waiting k := by
    intro k
    rw [htask]
    simp
  rcases hcases with ⟨_, rfl⟩ | ⟨k, queue, _, rfl⟩ | ⟨k, ahead, queue, _, rfl⟩ | ⟨queue, _, rfl⟩
  · exact ho.setTask s.queue hbefore (by simp)
  · exact ho.setTask queue hbefore (by simp)
  · exact ho.setTask queue hbefore hbefore
  · exact ho.setTask queue hbefore (by simp)

theorem Ordered.write (ho : s.Ordered) (hs : s.Accounted) (h : s.write = some t) :
    t.Ordered := by
  obtain ⟨k, htask, hconnected, rfl⟩ := write_cases h
  have hsplit : s.queued = s.answered ++ k :: publishes s.queue := by
    have horder := hs.order
    rw [htask, List.append_assoc] at horder
    exact horder
  have hunanswered : k ∉ s.answered := by
    have hnodup := ho.queuedOnce
    rw [hsplit, List.nodup_append] at hnodup
    intro hmem
    exact hnodup.2.2 k hmem k List.mem_cons_self rfl
  have hnew : k ∉ s.written := by
    intro hmem
    rcases ho.frames k hmem with hanswered | hwaiting | ⟨d, hd, hmay⟩
    · exact hunanswered hanswered
    · rw [htask] at hwaiting
      cases hwaiting
    · obtain ⟨c, hc, hsent⟩ := ho.queued k (by rw [hsplit]; simp)
      rw [hc] at hd
      rw [← Option.some.inj hd, hsent] at hmay
      cases hmay
  -- what the call must follow is counted, and every frame so far went through
  have hearlier : ∀ i ∈ s.earlierOf k, i ∈ s.written := by
    intro i hi
    rcases ho.queuedAfter s.answered k _ hsplit i hi with hwritten | hanswered
    · exact hwritten
    · have hsent := ho.answered i hanswered
      rw [hconnected] at hsent
      exact hsent.resolve_right (by simp)
  have hframe := ho.frame hnew hearlier
  refine ⟨ho.sent, ho.queued, ho.queuedOnce, hframe.1, ?_, ?_, ?_, ?_, ?_, ?_, ?_, hframe.2⟩
  · intro i hi
    rcases List.mem_append.mp hi with hi | hi
    · refine (ho.frames i hi).imp_right (Or.imp_left fun hwaiting => ?_)
      rw [htask] at hwaiting
      cases hwaiting
    · rw [List.mem_singleton.mp hi]
      exact Or.inr (Or.inl rfl)
  · intro i c hc hwritten
    exact List.mem_append_left _ (ho.requested i c hc hwritten)
  · intro i hi
    rw [WatchPoint.waiting.inj hi]
    exact List.mem_append_right _ (List.mem_singleton_self _)
  · intro i hi
    exact (ho.answered i hi).imp_left (List.mem_append_left _)
  · intro j i hi
    exact (ho.earlier j i hi).imp_left (List.mem_append_left _)
  · intro j c ahead hc hahead i hi
    exact (ho.ahead j c ahead hc hahead i hi).imp_left (List.mem_append_left _)
  · refine EachAfter.mono ho.queuedAfter fun before j _ hbefore i hi => ?_
    exact (hbefore i hi).imp_left (List.mem_append_left _)

theorem Ordered.settle (ho : s.Ordered) {result : ReplyResult}
    (hhand : ∀ k, s.task = .waiting k → k = call)
    (hwritten : call ∈ s.written ∨ (s.disconnected || result.isTerminal) = true) :
    (s.settle call result).Ordered := by
  refine { ho with frames := ?_, waiting := ?_, answered := ?_ }
  · intro k hk
    rcases ho.frames k hk with hanswered | hwaiting | hmay
    · exact Or.inl (List.mem_append_left _ hanswered)
    · rw [hhand k hwaiting]
      exact Or.inl (List.mem_append_right _ (List.mem_singleton_self _))
    · exact Or.inr (Or.inr hmay)
  · intro k hk
    cases hk
  · intro k hk
    rcases List.mem_append.mp hk with hk | hk
    · refine (ho.answered k hk).imp_right fun hdisconnected => ?_
      show (s.disconnected || result.isTerminal) = true
      rw [hdisconnected, Bool.true_or]
    · rw [List.mem_singleton.mp hk]
      exact hwritten

theorem Ordered.step {a : PublishAction} (ho : s.Ordered) (hs : s.Accounted)
    (hguard : s.InOrder a) (h : s.step a = some t) : t.Ordered := by
  cases a with
  | publish => exact ho.begin hs (by simp) rfl rfl h
  | flush ack => exact ho.begin hs (by simp) rfl rfl h
  | shutdown disconnect => exact ho.begin hs (by simp) rfl rfl h
  | proceed call =>
    obtain ⟨c, hc, hproceed⟩ := Option.bind_eq_some_iff.mp h
    refine ho.callEffect hs hc (fun ack ahead hpoint _ => ?_) (proceed_effect hproceed)
    rw [hpoint] at hproceed
    cases hproceed
  | client call ok =>
    obtain ⟨c, hc, hclient⟩ := Option.bind_eq_some_iff.mp h
    refine ho.callEffect hs hc (fun ack ahead hpoint hwritten => ?_) (client_effect hclient)
    rw [hpoint] at hclient
    cases ok with
    | true =>
      apply hguard.2 rfl
      rw [hc, Option.any_some, hpoint]
      rfl
    | false =>
      obtain rfl := Option.some.inj hclient
      exact absurd (List.self_eq_append_right.mp hwritten) (by simp)
  | abandon call =>
    obtain ⟨c, hc, habandon⟩ := Option.bind_eq_some_iff.mp h
    refine ho.callEffect hs hc (fun ack ahead hpoint hwritten => ?_) (abandon_effect habandon)
    rw [hpoint] at habandon
    obtain rfl := Option.some.inj habandon
    exact absurd (List.self_eq_append_right.mp hwritten) (by simp)
  | recv => exact ho.recv h
  | write => exact ho.write hs h
  | fail terminal detail =>
    obtain ⟨k, htask, rfl⟩ := fail_cases h
    refine ho.settle (fun i hi => ?_) (Or.inr ?_)
    · rw [htask] at hi
      cases hi
    · rcases hguard.2 with hdisconnected | hterminal
      · rw [hdisconnected, Bool.true_or]
      · rw [hterminal]
        cases s.disconnected <;> rfl
  | answer result =>
    obtain ⟨k, htask, rfl⟩ := answer_cases h
    refine ho.settle (fun i hi => ?_) (Or.inl (ho.waiting k htask))
    rw [htask] at hi
    exact (WatchPoint.waiting.inj hi).symm
  | exit =>
    simp only [PublishCalls.step, PublishCalls.exit] at h
    split_ifs at h with htask
    obtain rfl := Option.some.inj h
    refine ho.setTask [] (fun k => ?_) (by simp)
    rw [htask]
    simp
  | lose =>
    obtain rfl := Option.some.inj h
    exact ho.beside false s.handleTaken s.dropped s.queue
  | drop =>
    simp only [PublishCalls.step] at h
    split_ifs at h
    obtain rfl := Option.some.inj h
    exact ho.beside s.connected s.handleTaken true s.queue

/-- In a run whose publishes are all sent to an open queue and whose client fails
for good or not at all, a message that was sent when a call began is on the socket
before the frame of that call, and not again behind it. -/
theorem run_ordered {as : List PublishAction} (hguard : Obeys step InOrder spawn as)
    (hrun : run step spawn as = some s) {j : ℕ} {before after : List ℕ}
    (hj : s.written = before ++ j :: after) :
    ∀ i ∈ s.earlierOf j, i ∈ before ∧ i ∉ j :: after := by
  have hs : s.Accounted ∧ s.Ordered :=
    run_invariant_of_obeys (I := fun u => u.Accounted ∧ u.Ordered)
      (fun _ _ _ hu hg h => ⟨hu.1.step hg.1 h, hu.2.step hu.1 hg h⟩)
      ⟨accounted_spawn, ordered_spawn⟩ hguard hrun
  intro i hi
  have hbefore : i ∈ before := hs.2.writtenAfter before j after hj i hi
  have honce := hs.2.writtenOnce
  rw [hj, List.nodup_append] at honce
  exact ⟨hbefore, fun hafter => honce.2.2 i hbefore i hafter rfl⟩

/-- A publish, and the `publish_ack` of another clone once it has returned. -/
def publishThenAck : List PublishAction :=
  List.flatten [[.publish], proceeds 0 4, [.flush true], proceeds 1 2,
    [.recv, .write, .answer (.response true none none), .recv], proceeds 1 1,
    [.client 1 true, .client 1 true]]

theorem run_ordered_ack :
    ∃ s, run step spawn publishThenAck = some s ∧ s.written = [0, 1] ∧ s.earlierOf 1 = [0] ∧
      ∀ i ∈ s.earlierOf 1, i ∈ [0] ∧ i ∉ [1] := by
  have hend : (run step spawn publishThenAck).map (fun s => (s.written, s.earlierOf 1)) =
      some ([0, 1], [0]) := by
    decide
  obtain ⟨s, hrun, hs⟩ := Option.map_eq_some_iff.mp hend
  simp only [Prod.mk.injEq] at hs
  exact ⟨s, hrun, hs.1, hs.2, run_ordered (by decide) hrun hs.1⟩

/-- The publish that was left behind a `Shutdown`, and then a `publish_ack` of a
third clone, whose flush finds the task gone before the client is closed. -/
def ackOverLostPublish : List PublishAction :=
  List.flatten [[.shutdown true], proceeds 0 2, [.publish], proceeds 1 4, [.recv, .exit],
    [.flush true], proceeds 2 1, [.client 2 true]]

theorem publish_dropped_before_ack :
    ¬ ∀ (as : List PublishAction) (s : PublishCalls), run step spawn as = some s →
      ∀ (j : ℕ) (before after : List ℕ), s.written = before ++ j :: after →
        ∀ i ∈ s.earlierOf j, i ∈ before ∧ i ∉ j :: after := by
  intro h
  have hend : (run step spawn ackOverLostPublish).map (fun s => (s.written, s.earlierOf 2)) =
      some ([2], [1]) := by
    decide
  obtain ⟨s, hrun, hs⟩ := Option.map_eq_some_iff.mp hend
  simp only [Prod.mk.injEq] at hs
  have hfirst := h ackOverLostPublish s hrun 2 [] [] hs.1 1 (by rw [hs.2]; simp)
  cases hfirst.1

end PublishCalls

end Emergent.Sdk

import Emergent.Sdk.Frames

/-!
# What the three decoders make of one buffer

`verdict` is what a reader acts on: the kind of step and the bytes it takes.
TypeScript and Python give the same verdict on every buffer, given the same
libraries. Go differs in two places: it waits for the body of a frame whose
version it will refuse, and it takes an empty body in a format nobody knows.
-/

namespace Emergent.Sdk
open Kit

inductive Verdict where
  | incomplete
  | frame
  | badBody
  | badFraming
  deriving Repr, DecidableEq

variable {V : Type}

def FrameStep.verdict : FrameStep (DecodedFrame V) → Verdict × ℕ
  | .incomplete => (.incomplete, 0)
  | .frame decoded => (.frame, decoded.bytesConsumed)
  | .badBody _ bytesConsumed _ => (.badBody, bytesConsumed)
  | .badFraming _ => (.badFraming, 0)

def Agree (libs : Language → Library V) (buffer : Bytes) : Prop :=
  ∀ a b, (nextFrame a (libs a) buffer).verdict = (nextFrame b (libs b) buffer).verdict

/-! ### When they agree -/

/-- A whole header with a length within the limit. -/
def Headed (buffer : Bytes) : Prop :=
  headerSize ≤ buffer.length ∧ readBe32 buffer ≤ maxFrameSize

def Versioned (buffer : Bytes) : Prop := buffer.getD 4 0 = protocolVersion

def Bodied (buffer : Bytes) : Prop := headerSize + readBe32 buffer ≤ buffer.length

def frameBody (buffer : Bytes) : Bytes :=
  (buffer.take (headerSize + readBe32 buffer)).drop headerSize

def Formatted (buffer : Bytes) (format : Format) : Prop := buffer.getD 6 0 = format.byte

structure Uniform (libs : Language → Library V) (buffer : Bytes) : Prop where
  version : Headed buffer → ¬ Versioned buffer → Bodied buffer
  format : Headed buffer → Versioned buffer → readBe32 buffer = 0 → ∃ f, Formatted buffer f
  body : Headed buffer → Versioned buffer → Bodied buffer → readBe32 buffer ≠ 0 →
    ∀ f, Formatted buffer f → ∀ a b,
      (((libs a).codec f).decode (frameBody buffer)).isOk =
        (((libs b).codec f).decode (frameBody buffer)).isOk

/-! ### The verdicts -/

def bodyVerdict (decoded : Bool) : Verdict := if decoded then .frame else .badBody

theorem bodyVerdict_inj {a b : Bool} : bodyVerdict a = bodyVerdict b ↔ a = b := by
  cases a <;> cases b <;> decide

theorem nextFrameWith_map {F G : Type} (f : F → G) (build : UInt8 → UInt8 → V → ℕ → F)
    (lib : Library V) (buffer : Bytes) :
    (nextFrameWith build lib buffer).map f =
      nextFrameWith (fun msgType format payload size => f (build msgType format payload size)) lib
        buffer := by
  simp only [nextFrameWith]
  split_ifs with hshort hlarge hversion hcut
  · rfl
  · rfl
  · rfl
  · rfl
  · cases decodePayload lib ((buffer.take (headerSize + readBe32 buffer)).drop headerSize)
      (buffer.getD 6 0) with
    | ok payload => rfl
    | error reason => rfl

/-- Python's decoder is that of TypeScript, with the name of the type added. -/
theorem nextFrame_python (lib : Library V) (buffer : Bytes) :
    nextFrame .python lib buffer = nextFrame .typescript lib buffer :=
  nextFrameWith_map _ _ lib buffer

theorem verdict_typescript (lib : Library V) (buffer : Bytes) :
    (nextFrame .typescript lib buffer).verdict =
      if buffer.length < headerSize then (.incomplete, 0)
      else if maxFrameSize < readBe32 buffer then (.badFraming, 0)
      else if buffer.getD 4 0 ≠ protocolVersion then (.badFraming, 0)
      else if buffer.length < headerSize + readBe32 buffer then (.incomplete, 0)
      else (bodyVerdict (decodePayload lib (frameBody buffer) (buffer.getD 6 0)).isOk,
        headerSize + readBe32 buffer) := by
  simp only [nextFrame, Ts.nextFrame, nextFrameWith]
  split_ifs with hshort hlarge hversion hcut
  · rfl
  · rfl
  · rfl
  · rfl
  · rw [frameBody]
    cases decodePayload lib ((buffer.take (headerSize + readBe32 buffer)).drop headerSize)
      (buffer.getD 6 0) with
    | ok payload => rfl
    | error reason => rfl

theorem decodePayload_isOk {lib : Library V} {body : Bytes} {format : UInt8}
    (hbody : body.length ≠ 0) :
    (decodePayload lib body format).isOk =
      if format ≠ formatMsgpack ∧ format ≠ formatJson then false
      else ((if format = formatJson then lib.json else lib.msgpack).decode body).isOk := by
  rw [decodePayload]
  split_ifs with hformat hjson
  · rfl
  · cases lib.json.decode body with
    | ok payload => rfl
    | error reason => rfl
  · cases lib.msgpack.decode body with
    | ok payload => rfl
    | error reason => rfl

theorem frameBody_length {buffer : Bytes} (h : Bodied buffer) :
    (frameBody buffer).length = readBe32 buffer := by
  have hle : headerSize + readBe32 buffer ≤ buffer.length := h
  rw [frameBody, List.length_drop, List.length_take]
  omega

theorem verdict_go (lib : Library V) (buffer : Bytes) :
    (nextFrame .go lib buffer).verdict =
      if buffer.length < headerSize then (.incomplete, 0)
      else if maxFrameSize < readBe32 buffer then (.badFraming, 0)
      else if buffer.length < headerSize + readBe32 buffer then (.incomplete, 0)
      else if buffer.getD 4 0 ≠ protocolVersion then (.badFraming, 0)
      else if readBe32 buffer = 0 then (.frame, headerSize + readBe32 buffer)
      else (bodyVerdict (decodePayload lib (frameBody buffer) (buffer.getD 6 0)).isOk,
        headerSize + readBe32 buffer) := by
  have hdecode : ¬ buffer.length < headerSize + readBe32 buffer → ¬ readBe32 buffer = 0 →
      (decodePayload lib (frameBody buffer) (buffer.getD 6 0)).isOk =
        if buffer.getD 6 0 ≠ formatMsgpack ∧ buffer.getD 6 0 ≠ formatJson then false
        else ((if buffer.getD 6 0 = formatJson then lib.json else lib.msgpack).decode
          (frameBody buffer)).isOk := by
    intro hcut hempty
    apply decodePayload_isOk
    rw [frameBody_length (Nat.not_lt.mp hcut)]
    exact hempty
  simp only [nextFrame, Go.nextFrame]
  split_ifs with hshort hlarge hcut hversion hempty hformat hjson
  · rfl
  · rfl
  · rfl
  · rfl
  · rfl
  · rw [hdecode hcut hempty, if_pos hformat]
    rfl
  · rw [hdecode hcut hempty, if_neg hformat, if_pos hjson, frameBody]
    cases lib.json.decode ((buffer.take (headerSize + readBe32 buffer)).drop headerSize) with
    | ok payload => rfl
    | error err => rfl
  · rw [hdecode hcut hempty, if_neg hformat, if_neg hjson, frameBody]
    cases lib.msgpack.decode ((buffer.take (headerSize + readBe32 buffer)).drop headerSize) with
    | ok payload => rfl
    | error err => rfl

theorem agree_iff_pairs (libs : Language → Library V) (buffer : Bytes) :
    Agree libs buffer ↔
      (nextFrame .typescript (libs .typescript) buffer).verdict =
        (nextFrame .go (libs .go) buffer).verdict ∧
      (nextFrame .typescript (libs .typescript) buffer).verdict =
        (nextFrame .typescript (libs .python) buffer).verdict := by
  constructor
  · intro h
    refine ⟨h _ _, ?_⟩
    rw [← nextFrame_python (libs .python)]
    exact h _ _
  · intro h a b
    have hall : ∀ c, (nextFrame c (libs c) buffer).verdict =
        (nextFrame .typescript (libs .typescript) buffer).verdict := by
      intro c
      cases c with
      | typescript => rfl
      | go => exact h.1.symm
      | python => rw [nextFrame_python, h.2]
    rw [hall a, hall b]

theorem formatted_of_known {buffer : Bytes}
    (h : ¬ (buffer.getD 6 0 ≠ formatMsgpack ∧ buffer.getD 6 0 ≠ formatJson)) :
    ∃ f, Formatted buffer f := by
  by_cases hjson : buffer.getD 6 0 = formatJson
  · exact ⟨.json, hjson⟩
  · have hmsgpack : buffer.getD 6 0 = formatMsgpack := by
      by_contra hne
      exact h ⟨hne, hjson⟩
    exact ⟨.msgpack, hmsgpack⟩

theorem decodePayload_formatted {lib : Library V} {buffer body : Bytes} {f : Format}
    (hf : Formatted buffer f) (hbody : body.length ≠ 0) :
    (decodePayload lib body (buffer.getD 6 0)).isOk = ((lib.codec f).decode body).isOk := by
  rw [decodePayload_isOk hbody, show buffer.getD 6 0 = f.byte from hf, if_neg (byte_known f),
    codec_byte]

theorem decodePayload_empty {lib : Library V} {body : Bytes} {format : UInt8}
    (hbody : body.length = 0) :
    (decodePayload lib body format).isOk =
      decide (¬ (format ≠ formatMsgpack ∧ format ≠ formatJson)) := by
  rw [decodePayload]
  by_cases hformat : format ≠ formatMsgpack ∧ format ≠ formatJson
  · rw [if_pos hformat]
    simp [hformat, Except.isOk, Except.toBool]
  · rw [if_neg hformat, if_pos hbody]
    simp [hformat, Except.isOk, Except.toBool]

theorem uniform_of_not_headed (libs : Language → Library V) {buffer : Bytes}
    (h : ¬ Headed buffer) : Uniform libs buffer :=
  ⟨fun hh => absurd hh h, fun hh => absurd hh h, fun hh => absurd hh h⟩

section
variable {libs : Language → Library V} {buffer : Bytes}

/-- The case of a good header whose body is there and not empty. -/
theorem uniform_iff_bodies (hheaded : Headed buffer) (hversion : Versioned buffer)
    (hbodied : Bodied buffer) (hempty : readBe32 buffer ≠ 0) :
    Uniform libs buffer ↔ ∀ a b,
      (decodePayload (libs a) (frameBody buffer) (buffer.getD 6 0)).isOk =
        (decodePayload (libs b) (frameBody buffer) (buffer.getD 6 0)).isOk := by
  have hbody : (frameBody buffer).length ≠ 0 := by
    rw [frameBody_length hbodied]
    exact hempty
  constructor
  · intro h a b
    by_cases hknown : buffer.getD 6 0 ≠ formatMsgpack ∧ buffer.getD 6 0 ≠ formatJson
    · rw [decodePayload_isOk hbody, decodePayload_isOk hbody, if_pos hknown, if_pos hknown]
    · obtain ⟨f, hf⟩ := formatted_of_known hknown
      rw [decodePayload_formatted hf hbody, decodePayload_formatted hf hbody]
      exact h.body hheaded hversion hbodied hempty f hf a b
  · intro h
    refine ⟨fun _ hbad => absurd hversion hbad, fun _ _ hzero => absurd hzero hempty, ?_⟩
    intro _ _ _ _ f hf a b
    rw [← decodePayload_formatted hf hbody, ← decodePayload_formatted hf hbody]
    exact h a b

/-- The case of a good header without a body. -/
theorem uniform_iff_formatted (hheaded : Headed buffer) (hversion : Versioned buffer)
    (hempty : readBe32 buffer = 0) :
    Uniform libs buffer ↔ ∃ f, Formatted buffer f := by
  constructor
  · intro h
    exact h.format hheaded hversion hempty
  · intro h
    exact ⟨fun _ hbad => absurd hversion hbad, fun _ _ _ => h,
      fun _ _ _ hbody => absurd hempty hbody⟩

theorem agree_of_incomplete (hshort : buffer.length < headerSize) : Agree libs buffer := by
  intro a b
  rw [nextFrame_short a (libs a) hshort, nextFrame_short b (libs b) hshort]

theorem agree_iff_bodies (hheaded : Headed buffer) (hversion : Versioned buffer)
    (hbodied : Bodied buffer) (hempty : readBe32 buffer ≠ 0) :
    Agree libs buffer ↔ ∀ a b,
      (decodePayload (libs a) (frameBody buffer) (buffer.getD 6 0)).isOk =
        (decodePayload (libs b) (frameBody buffer) (buffer.getD 6 0)).isOk := by
  have hshort : ¬ buffer.length < headerSize := Nat.not_lt.mpr hheaded.1
  have hlarge : ¬ maxFrameSize < readBe32 buffer := Nat.not_lt.mpr hheaded.2
  have hcut : ¬ buffer.length < headerSize + readBe32 buffer := Nat.not_lt.mpr hbodied
  have hgood : ¬ buffer.getD 4 0 ≠ protocolVersion := not_not_intro hversion
  have hverdict : ∀ c, (nextFrame c (libs c) buffer).verdict =
      (bodyVerdict (decodePayload (libs c) (frameBody buffer) (buffer.getD 6 0)).isOk,
        headerSize + readBe32 buffer) := by
    intro c
    cases c with
    | typescript =>
      rw [verdict_typescript, if_neg hshort, if_neg hlarge, if_neg hgood, if_neg hcut]
    | go =>
      rw [verdict_go, if_neg hshort, if_neg hlarge, if_neg hcut, if_neg hgood, if_neg hempty]
    | python =>
      rw [nextFrame_python, verdict_typescript, if_neg hshort, if_neg hlarge, if_neg hgood,
        if_neg hcut]
  have hpair : ∀ a b, (nextFrame a (libs a) buffer).verdict =
      (nextFrame b (libs b) buffer).verdict ↔
        (decodePayload (libs a) (frameBody buffer) (buffer.getD 6 0)).isOk =
          (decodePayload (libs b) (frameBody buffer) (buffer.getD 6 0)).isOk := by
    intro a b
    rw [hverdict a, hverdict b, Prod.mk.injEq, bodyVerdict_inj]
    exact and_iff_left rfl
  exact forall_congr' fun a => forall_congr' fun b => hpair a b

theorem agree_iff_formatted (hheaded : Headed buffer) (hversion : Versioned buffer)
    (hempty : readBe32 buffer = 0) :
    Agree libs buffer ↔ ∃ f, Formatted buffer f := by
  have hshort : ¬ buffer.length < headerSize := Nat.not_lt.mpr hheaded.1
  have hlarge : ¬ maxFrameSize < readBe32 buffer := Nat.not_lt.mpr hheaded.2
  have hbodied : Bodied buffer := by
    have hlen := hheaded.1
    unfold Bodied
    omega
  have hcut : ¬ buffer.length < headerSize + readBe32 buffer := Nat.not_lt.mpr hbodied
  have hgood : ¬ buffer.getD 4 0 ≠ protocolVersion := not_not_intro hversion
  have hbody : (frameBody buffer).length = 0 := by
    rw [frameBody_length hbodied]
    exact hempty
  rw [agree_iff_pairs]
  simp only [verdict_typescript, verdict_go, if_neg hshort, if_neg hlarge, if_neg hgood,
    if_neg hcut, if_pos hempty]
  by_cases hknown : buffer.getD 6 0 ≠ formatMsgpack ∧ buffer.getD 6 0 ≠ formatJson
  · have hrefused : ∀ c, (decodePayload (libs c) (frameBody buffer) (buffer.getD 6 0)).isOk =
        false := by
      intro c
      rw [decodePayload_empty hbody]
      exact decide_eq_false (not_not_intro hknown)
    constructor
    · intro h
      rw [hrefused] at h
      cases h.1
    · intro ⟨f, hf⟩
      exact absurd (hf ▸ hknown) (byte_known f)
  · have htaken : ∀ c, (decodePayload (libs c) (frameBody buffer) (buffer.getD 6 0)).isOk =
        true := by
      intro c
      rw [decodePayload_empty hbody]
      exact decide_eq_true hknown
    constructor
    · intro _
      exact formatted_of_known hknown
    · intro _
      rw [htaken, htaken]
      exact ⟨rfl, rfl⟩

/-- A version nobody speaks: Go sees it once the body is there. -/
theorem agree_iff_bodied (hheaded : Headed buffer) (hversion : ¬ Versioned buffer) :
    Agree libs buffer ↔ Bodied buffer := by
  have hshort : ¬ buffer.length < headerSize := Nat.not_lt.mpr hheaded.1
  have hlarge : ¬ maxFrameSize < readBe32 buffer := Nat.not_lt.mpr hheaded.2
  have hbad : buffer.getD 4 0 ≠ protocolVersion := hversion
  rw [agree_iff_pairs]
  simp only [verdict_typescript, verdict_go, if_neg hshort, if_neg hlarge, if_pos hbad, and_true]
  by_cases hcut : buffer.length < headerSize + readBe32 buffer
  · rw [if_pos hcut]
    constructor
    · intro h
      cases h
    · intro hbodied
      exact absurd hcut (Nat.not_lt.mpr hbodied)
  · rw [if_neg hcut]
    exact ⟨fun _ => Nat.not_lt.mp hcut, fun _ => rfl⟩

theorem agree_of_large (hshort : ¬ buffer.length < headerSize)
    (hlarge : maxFrameSize < readBe32 buffer) : Agree libs buffer := by
  rw [agree_iff_pairs]
  simp only [verdict_typescript, verdict_go, if_neg hshort, if_pos hlarge, and_self]

end

/-- The three decoders give one verdict exactly where Go's later tests do not
show and the libraries agree on the body. -/
theorem agree_iff_uniform (libs : Language → Library V) (buffer : Bytes) :
    Agree libs buffer ↔ Uniform libs buffer := by
  by_cases hshort : buffer.length < headerSize
  · have hheaded : ¬ Headed buffer := fun hh => absurd hshort (Nat.not_lt.mpr hh.1)
    exact iff_of_true (agree_of_incomplete hshort) (uniform_of_not_headed libs hheaded)
  by_cases hlarge : maxFrameSize < readBe32 buffer
  · have hheaded : ¬ Headed buffer := fun hh => absurd hlarge (Nat.not_lt.mpr hh.2)
    exact iff_of_true (agree_of_large hshort hlarge) (uniform_of_not_headed libs hheaded)
  have hheaded : Headed buffer := ⟨Nat.not_lt.mp hshort, Nat.not_lt.mp hlarge⟩
  by_cases hversion : Versioned buffer
  · by_cases hempty : readBe32 buffer = 0
    · rw [agree_iff_formatted hheaded hversion hempty, uniform_iff_formatted hheaded hversion hempty]
    by_cases hbodied : Bodied buffer
    · rw [agree_iff_bodies hheaded hversion hbodied hempty,
        uniform_iff_bodies hheaded hversion hbodied hempty]
    · have huniform : Uniform libs buffer :=
        ⟨fun _ hbad => absurd hversion hbad, fun _ _ hzero => absurd hzero hempty,
          fun _ _ hbody => absurd hbody hbodied⟩
      refine iff_of_true ?_ huniform
      have hcut : buffer.length < headerSize + readBe32 buffer := Nat.not_le.mp hbodied
      have hgood : ¬ buffer.getD 4 0 ≠ protocolVersion := not_not_intro hversion
      rw [agree_iff_pairs]
      simp only [verdict_typescript, verdict_go, if_neg hshort, if_neg hlarge, if_neg hgood,
        if_pos hcut, and_self]
  · rw [agree_iff_bodied hheaded hversion]
    exact ⟨fun hbodied => ⟨fun _ _ => hbodied, fun _ hgood => absurd hgood hversion,
      fun _ hgood => absurd hgood hversion⟩, fun h => h.version hheaded hversion⟩

/-- The header of a frame of one byte in version 3, as it stands before the body
has come: TypeScript and Python refuse it, Go waits. -/
theorem disagree_version :
    ¬ ∀ (libs : Language → Library (Option Bool)) (buffer : Bytes), Agree libs buffer := by
  intro h
  have hheaded : Headed [0, 0, 0, 1, 3, 5, 2] := ⟨by decide, by decide⟩
  have hversion : ¬ Versioned [0, 0, 0, 1, 3, 5, 2] := by
    unfold Versioned
    decide
  have hbodied := (agree_iff_bodied hheaded hversion).mp (h (fun _ => scalarLibrary) _)
  revert hbodied
  unfold Bodied
  decide

end Emergent.Sdk

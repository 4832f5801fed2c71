import Emergent.Kit.Framing
import Emergent.Sdk.Types

/-!
# Frame codecs (`ts/src/protocol.ts`, `go/protocol.go`, `py/emergent/_protocol.py`)

A frame is a seven-byte header, the payload length in four bytes, the protocol
version, the message type and the format, followed by the payload. The JSON and
MessagePack libraries are parameters, one `Library` per language. The decoders
of TypeScript and Python make the same tests in the same order; that of Go
looks at the version only when the body is there, and at the format only when
the body is not empty.
-/

namespace Emergent.Sdk
open Kit

abbrev Bytes := List UInt8

def protocolVersion : UInt8 := 0x02

def headerSize : ℕ := 7

def maxFrameSize : ℕ := 16 * 1024 * 1024

def formatJson : UInt8 := 0x01

def formatMsgpack : UInt8 := 0x02

inductive Format where
  | json
  | msgpack
  deriving Repr, DecidableEq

def Format.byte : Format → UInt8
  | .json => formatJson
  | .msgpack => formatMsgpack

/-- The frame types of the wire, `MessageType` in the sources. -/
inductive FrameType where
  | request
  | response
  | error
  | heartbeat
  | push
  | subscribe
  | unsubscribe
  | discover
  | stream
  | subscribePatterns
  | unsubscribePatterns
  deriving Repr, DecidableEq

def parseMessageType (raw : UInt8) : Option FrameType :=
  match raw.toNat with
  | 0x01 => some .request
  | 0x02 => some .response
  | 0x03 => some .error
  | 0x04 => some .heartbeat
  | 0x05 => some .push
  | 0x06 => some .subscribe
  | 0x07 => some .unsubscribe
  | 0x08 => some .discover
  | 0x09 => some .stream
  | 0x0a => some .subscribePatterns
  | 0x0b => some .unsubscribePatterns
  | _ => none

/-! ### Libraries and results -/

structure Codec (V : Type) where
  encode : V → Except String Bytes
  decode : Bytes → Except String V

/-- The libraries of one language; `null` is what an empty body decodes to. -/
structure Library (V : Type) where
  json : Codec V
  msgpack : Codec V
  null : V

def Library.codec {V : Type} (lib : Library V) : Format → Codec V
  | .json => lib.json
  | .msgpack => lib.msgpack

structure DecodedFrame (V : Type) where
  msgType : UInt8
  format : UInt8
  payload : V
  bytesConsumed : ℕ
  deriving DecidableEq

/-- Python's `DecodedFrame` also names the frame type, when it knows it. -/
structure Py.DecodedFrame (V : Type) where
  msgType : Option FrameType
  format : UInt8
  payload : V
  bytesConsumed : ℕ
  rawMsgType : UInt8

inductive FrameStep (F : Type) where
  | incomplete
  | frame (decoded : F)
  | badBody (msgType : UInt8) (bytesConsumed : ℕ) (reason : String)
  | badFraming (reason : String)
  deriving DecidableEq

def FrameStep.map {F G : Type} (f : F → G) : FrameStep F → FrameStep G
  | .incomplete => .incomplete
  | .frame decoded => .frame (f decoded)
  | .badBody msgType bytesConsumed reason => .badBody msgType bytesConsumed reason
  | .badFraming reason => .badFraming reason

variable {V : Type}

def Py.DecodedFrame.plain (frame : Py.DecodedFrame V) : Emergent.Sdk.DecodedFrame V :=
  ⟨frame.rawMsgType, frame.format, frame.payload, frame.bytesConsumed⟩

/-! ### Encoders -/

def frameHeader (payloadLen : ℕ) (msgType format : UInt8) : Bytes :=
  be32 payloadLen ++ [protocolVersion, msgType, format]

/-- The end of every encoder: the limit, then header and payload. -/
def packFrame (tooLarge : ℕ → String) (msgType format : UInt8) (payloadBytes : Bytes) :
    Except String Bytes :=
  if maxFrameSize < payloadBytes.length then .error (tooLarge payloadBytes.length)
  else .ok (frameHeader payloadBytes.length msgType format ++ payloadBytes)

def payloadTooLarge (payloadLen : ℕ) : String :=
  s!"Payload too large: {payloadLen} bytes (max: {maxFrameSize})"

def Ts.encodeFrame (lib : Library V) (msgType : UInt8) (payload : V) (format : UInt8) :
    Except String Bytes := do
  let payloadBytes ←
    if format = formatMsgpack then lib.msgpack.encode payload
    else if format = formatJson then lib.json.encode payload
    else .error s!"Unsupported format: {format}"
  packFrame payloadTooLarge msgType format payloadBytes

def Py.encodeFrame (lib : Library V) (msgType : UInt8) (payload : V) (format : UInt8) :
    Except String Bytes := do
  let payloadBytes ←
    if format = formatJson then lib.json.encode payload
    else if format = formatMsgpack then lib.msgpack.encode payload
    else .error s!"Unsupported format: {format}"
  packFrame payloadTooLarge msgType format payloadBytes

def Go.payloadTooLarge (payloadLen : ℕ) : String :=
  s!"payload too large: {payloadLen} bytes (max: {maxFrameSize})"

def Go.encodeFrame (lib : Library V) (msgType : UInt8) (payload : V) (format : UInt8) :
    Except String Bytes := do
  let payloadBytes ←
    if format = formatMsgpack then
      (lib.msgpack.encode payload).mapError fun err => s!"serialization error: {err}"
    else if format = formatJson then
      (lib.json.encode payload).mapError fun err => s!"serialization error: {err}"
    else .error s!"unsupported format: {format}"
  packFrame Go.payloadTooLarge msgType format payloadBytes

/-! ### Decoders -/

def bodyName (format : UInt8) : String := if format = formatJson then "JSON" else "MessagePack"

/-- `decodePayload` of TypeScript and `decode_payload` of Python. -/
def decodePayload (lib : Library V) (payloadBytes : Bytes) (format : UInt8) : Except String V :=
  if format ≠ formatMsgpack ∧ format ≠ formatJson then .error s!"Unknown format: {format}"
  else if payloadBytes.length = 0 then .ok lib.null
  else
    ((if format = formatJson then lib.json else lib.msgpack).decode payloadBytes).mapError
      fun reason => s!"Malformed {bodyName format} frame body: {reason}"

/-- The decoder of TypeScript and Python; `build` makes the frame from message
type, format, payload and length. -/
def nextFrameWith {F : Type} (build : UInt8 → UInt8 → V → ℕ → F) (lib : Library V)
    (buffer : Bytes) : FrameStep F :=
  if buffer.length < headerSize then .incomplete
  else
    let payloadLen := readBe32 buffer
    if maxFrameSize < payloadLen then .badFraming s!"Frame too large: {payloadLen} bytes"
    else
      let version := buffer.getD 4 0
      if version ≠ protocolVersion then
        .badFraming s!"Unsupported protocol version: {version} (expected {protocolVersion})"
      else
        let totalLen := headerSize + payloadLen
        if buffer.length < totalLen then .incomplete
        else
          let msgType := buffer.getD 5 0
          let format := buffer.getD 6 0
          match decodePayload lib ((buffer.take totalLen).drop headerSize) format with
          | .ok payload => .frame (build msgType format payload totalLen)
          | .error reason => .badBody msgType totalLen reason

def Ts.nextFrame (lib : Library V) (buffer : Bytes) : FrameStep (DecodedFrame V) :=
  nextFrameWith (fun msgType format payload totalLen => ⟨msgType, format, payload, totalLen⟩)
    lib buffer

def Py.nextFrame (lib : Library V) (buffer : Bytes) : FrameStep (Py.DecodedFrame V) :=
  nextFrameWith (fun msgType format payload totalLen =>
    ⟨parseMessageType msgType, format, payload, totalLen, msgType⟩) lib buffer

def Go.nextFrame (lib : Library V) (buffer : Bytes) : FrameStep (DecodedFrame V) :=
  if buffer.length < headerSize then .incomplete
  else
    let payloadLen := readBe32 buffer
    if maxFrameSize < payloadLen then .badFraming s!"frame too large: {payloadLen} bytes"
    else
      let totalLen := headerSize + payloadLen
      if buffer.length < totalLen then .incomplete
      else
        let version := buffer.getD 4 0
        if version ≠ protocolVersion then
          .badFraming s!"unsupported protocol version: {version} (expected {protocolVersion})"
        else
          let msgType := buffer.getD 5 0
          let format := buffer.getD 6 0
          let payloadBytes := (buffer.take totalLen).drop headerSize
          -- a heartbeat is a bare header, whatever its format byte
          if payloadLen = 0 then .frame ⟨msgType, format, lib.null, totalLen⟩
          else if format ≠ formatMsgpack ∧ format ≠ formatJson then
            .badBody msgType totalLen s!"unknown format: {format}"
          else
            match (if format = formatJson then lib.json else lib.msgpack).decode payloadBytes with
            | .ok payload => .frame ⟨msgType, format, payload, totalLen⟩
            | .error err => .badBody msgType totalLen s!"deserialization error: {err}"

/-! ### The three SDKs side by side -/

def encodeFrame : Language → Library V → UInt8 → V → UInt8 → Except String Bytes
  | .typescript => Ts.encodeFrame
  | .go => Go.encodeFrame
  | .python => Py.encodeFrame

def nextFrame (language : Language) (lib : Library V) (buffer : Bytes) :
    FrameStep (DecodedFrame V) :=
  match language with
  | .typescript => Ts.nextFrame lib buffer
  | .go => Go.nextFrame lib buffer
  | .python => (Py.nextFrame lib buffer).map Py.DecodedFrame.plain

/-! ### Reading behind a good header -/

theorem frameHeader_length (n : ℕ) (msgType format : UInt8) :
    (frameHeader n msgType format).length = headerSize := rfl

theorem readBe32_frameHeader {n : ℕ} (h : n ≤ maxFrameSize) (msgType format : UInt8)
    (tail : Bytes) : readBe32 (frameHeader n msgType format ++ tail) = n := by
  have hword : n < 2 ^ 32 := by
    unfold maxFrameSize at h
    omega
  rw [frameHeader, List.append_assoc]
  exact readBe32_be32_append hword _

theorem body_frameHeader (n : ℕ) (msgType format : UInt8) (tail : Bytes) :
    ((frameHeader n msgType format ++ tail).take (headerSize + n)).drop headerSize =
      tail.take n := by
  have hlen := frameHeader_length n msgType format
  rw [← hlen, List.take_length_add_append, List.drop_left]

theorem header_complete (n : ℕ) (msgType format : UInt8) (tail : Bytes) :
    ¬ (frameHeader n msgType format ++ tail).length < headerSize := by
  have hlen := frameHeader_length n msgType format
  rw [List.length_append]
  omega

theorem body_complete (n : ℕ) (msgType format : UInt8) (tail : Bytes) :
    (frameHeader n msgType format ++ tail).length < headerSize + n ↔ tail.length < n := by
  have hlen := frameHeader_length n msgType format
  rw [List.length_append]
  omega

theorem not_shorter_append {bytes : Bytes} {n : ℕ} (h : ¬ bytes.length < n) (more : Bytes) :
    ¬ (bytes ++ more).length < n := by
  rw [List.length_append]
  omega

theorem nextFrameWith_frameHeader {F : Type} (build : UInt8 → UInt8 → V → ℕ → F)
    (lib : Library V) {n : ℕ} (h : n ≤ maxFrameSize) (msgType format : UInt8) (tail : Bytes) :
    nextFrameWith build lib (frameHeader n msgType format ++ tail) =
      if tail.length < n then .incomplete
      else
        match decodePayload lib (tail.take n) format with
        | .ok payload => .frame (build msgType format payload (headerSize + n))
        | .error reason => .badBody msgType (headerSize + n) reason := by
  have hversion : (frameHeader n msgType format ++ tail).getD 4 0 = protocolVersion := rfl
  have htype : (frameHeader n msgType format ++ tail).getD 5 0 = msgType := rfl
  have hformat : (frameHeader n msgType format ++ tail).getD 6 0 = format := rfl
  simp only [nextFrameWith, if_neg (header_complete n msgType format tail),
    readBe32_frameHeader h, if_neg (Nat.not_lt.mpr h), hversion, htype, hformat, ne_eq,
    not_true_eq_false, if_false, body_complete, body_frameHeader]

theorem Go.nextFrame_frameHeader (lib : Library V) {n : ℕ} (h : n ≤ maxFrameSize)
    (msgType format : UInt8) (tail : Bytes) :
    Go.nextFrame lib (frameHeader n msgType format ++ tail) =
      if tail.length < n then .incomplete
      else if n = 0 then .frame ⟨msgType, format, lib.null, headerSize + n⟩
      else if format ≠ formatMsgpack ∧ format ≠ formatJson then
        .badBody msgType (headerSize + n) s!"unknown format: {format}"
      else
        match (if format = formatJson then lib.json else lib.msgpack).decode (tail.take n) with
        | .ok payload => .frame ⟨msgType, format, payload, headerSize + n⟩
        | .error err => .badBody msgType (headerSize + n) s!"deserialization error: {err}" := by
  have hversion : (frameHeader n msgType format ++ tail).getD 4 0 = protocolVersion := rfl
  have htype : (frameHeader n msgType format ++ tail).getD 5 0 = msgType := rfl
  have hformat : (frameHeader n msgType format ++ tail).getD 6 0 = format := rfl
  simp only [Go.nextFrame, if_neg (header_complete n msgType format tail),
    readBe32_frameHeader h, if_neg (Nat.not_lt.mpr h), hversion, htype, hformat, ne_eq,
    not_true_eq_false, if_false, body_complete, body_frameHeader]

/-! ### Round trips -/

theorem codec_byte (lib : Library V) (format : Format) :
    (if format.byte = formatJson then lib.json else lib.msgpack) = lib.codec format := by
  cases format <;> rfl

theorem byte_known (format : Format) :
    ¬ (format.byte ≠ formatMsgpack ∧ format.byte ≠ formatJson) := by
  cases format <;> decide

theorem decodePayload_ok {lib : Library V} {format : Format} {body : Bytes} {payload : V}
    (hne : body ≠ []) (h : (lib.codec format).decode body = .ok payload) :
    decodePayload lib body format.byte = .ok payload := by
  have hlen : ¬ body.length = 0 := fun hzero => hne (List.length_eq_zero_iff.mp hzero)
  simp only [decodePayload, if_neg (byte_known format), if_neg hlen, codec_byte, h,
    Except.mapError]

theorem nextFrameWith_whole {F : Type} (build : UInt8 → UInt8 → V → ℕ → F) {lib : Library V}
    {format : Format} {body : Bytes} {payload : V} (hne : body ≠ [])
    (h : (lib.codec format).decode body = .ok payload) (hsize : body.length ≤ maxFrameSize)
    (msgType : UInt8) (rest : Bytes) :
    nextFrameWith build lib (frameHeader body.length msgType format.byte ++ (body ++ rest)) =
      .frame (build msgType format.byte payload (headerSize + body.length)) := by
  have hlong : ¬ (body ++ rest).length < body.length :=
    not_shorter_append (lt_irrefl body.length) rest
  rw [nextFrameWith_frameHeader build lib hsize, if_neg hlong, List.take_left,
    decodePayload_ok hne h]

theorem Go.nextFrame_whole {lib : Library V} {format : Format} {body : Bytes} {payload : V}
    (hne : body ≠ []) (h : (lib.codec format).decode body = .ok payload)
    (hsize : body.length ≤ maxFrameSize) (msgType : UInt8) (rest : Bytes) :
    Go.nextFrame lib (frameHeader body.length msgType format.byte ++ (body ++ rest)) =
      .frame ⟨msgType, format.byte, payload, headerSize + body.length⟩ := by
  have hlong : ¬ (body ++ rest).length < body.length :=
    not_shorter_append (lt_irrefl body.length) rest
  have hlen : ¬ body.length = 0 := fun hzero => hne (List.length_eq_zero_iff.mp hzero)
  rw [Go.nextFrame_frameHeader lib hsize, if_neg hlong, if_neg hlen, if_neg (byte_known format),
    List.take_left, codec_byte, h]

/-- Behind the header that names their number the bytes of a body come out as
the payload they decode to. -/
theorem nextFrame_whole {lib : Library V} {format : Format} {body : Bytes} {payload : V}
    (hne : body ≠ []) (h : (lib.codec format).decode body = .ok payload)
    (hsize : body.length ≤ maxFrameSize) (language : Language) (msgType : UInt8) (rest : Bytes) :
    nextFrame language lib (frameHeader body.length msgType format.byte ++ (body ++ rest)) =
      .frame ⟨msgType, format.byte, payload, headerSize + body.length⟩ := by
  cases language with
  | typescript =>
    rw [nextFrame, Ts.nextFrame, nextFrameWith_whole _ hne h hsize]
  | go =>
    rw [nextFrame, Go.nextFrame_whole hne h hsize]
  | python =>
    rw [nextFrame, Py.nextFrame, nextFrameWith_whole _ hne h hsize]
    rfl

theorem nextFrameWith_short {F : Type} (build : UInt8 → UInt8 → V → ℕ → F) (lib : Library V)
    {buffer : Bytes} (h : buffer.length < headerSize) :
    nextFrameWith build lib buffer = .incomplete := by
  rw [nextFrameWith, if_pos h]

theorem nextFrame_short (language : Language) (lib : Library V) {buffer : Bytes}
    (h : buffer.length < headerSize) : nextFrame language lib buffer = .incomplete := by
  cases language with
  | typescript => rw [nextFrame, Ts.nextFrame, nextFrameWith_short _ lib h]
  | go => rw [nextFrame, Go.nextFrame, if_pos h]
  | python => rw [nextFrame, Py.nextFrame, nextFrameWith_short _ lib h, FrameStep.map]

theorem nextFrame_cut {n : ℕ} (hsize : n ≤ maxFrameSize) (language : Language) (lib : Library V)
    (msgType format : UInt8) {tail : Bytes} (h : tail.length < n) :
    nextFrame language lib (frameHeader n msgType format ++ tail) = .incomplete := by
  cases language with
  | typescript =>
    rw [nextFrame, Ts.nextFrame, nextFrameWith_frameHeader _ lib hsize, if_pos h]
  | go =>
    rw [nextFrame, Go.nextFrame_frameHeader lib hsize, if_pos h]
  | python =>
    rw [nextFrame, Py.nextFrame, nextFrameWith_frameHeader _ lib hsize, if_pos h, FrameStep.map]

theorem nextFrame_strictPrefix {body : Bytes} (hsize : body.length ≤ maxFrameSize)
    (language : Language) (lib : Library V) (msgType format : UInt8) {part : Bytes}
    (hpart : part <+: frameHeader body.length msgType format ++ body)
    (hstrict : part ≠ frameHeader body.length msgType format ++ body) :
    nextFrame language lib part = .incomplete := by
  have hheader : frameHeader body.length msgType format <+:
      frameHeader body.length msgType format ++ body := List.prefix_append _ _
  -- the cut falls inside the header or inside the body
  by_cases hshort : part.length < headerSize
  · exact nextFrame_short language lib hshort
  · have hlen := frameHeader_length body.length msgType format
    obtain ⟨tail, rfl⟩ := List.prefix_of_prefix_length_le hheader hpart (by omega)
    have htail : tail <+: body := (List.prefix_append_right_inj _).mp hpart
    have hne : tail.length ≠ body.length := fun heq => hstrict (by rw [htail.eq_of_length heq])
    have hle := htail.length_le
    exact nextFrame_cut hsize language lib msgType format (by omega)

theorem encodeFrame_eq_packFrame (language : Language) {lib : Library V} {format : Format}
    {payload : V} {body : Bytes} (h : (lib.codec format).encode payload = .ok body)
    (msgType : UInt8) :
    ∃ tooLarge, encodeFrame language lib msgType payload format.byte =
      packFrame tooLarge msgType format.byte body := by
  have hother : ¬ formatJson = formatMsgpack := by decide
  have hother' : ¬ formatMsgpack = formatJson := by decide
  cases format with
  | json =>
    have hjson : lib.json.encode payload = .ok body := h
    cases language with
    | typescript =>
      refine ⟨payloadTooLarge, ?_⟩
      rw [encodeFrame, Ts.encodeFrame, Format.byte, if_neg hother, if_pos rfl, hjson]
      rfl
    | go =>
      refine ⟨Go.payloadTooLarge, ?_⟩
      rw [encodeFrame, Go.encodeFrame, Format.byte, if_neg hother, if_pos rfl, hjson]
      rfl
    | python =>
      refine ⟨payloadTooLarge, ?_⟩
      rw [encodeFrame, Py.encodeFrame, Format.byte, if_pos rfl, hjson]
      rfl
  | msgpack =>
    have hmsgpack : lib.msgpack.encode payload = .ok body := h
    cases language with
    | typescript =>
      refine ⟨payloadTooLarge, ?_⟩
      rw [encodeFrame, Ts.encodeFrame, Format.byte, if_pos rfl, hmsgpack]
      rfl
    | go =>
      refine ⟨Go.payloadTooLarge, ?_⟩
      rw [encodeFrame, Go.encodeFrame, Format.byte, if_pos rfl, hmsgpack]
      rfl
    | python =>
      refine ⟨payloadTooLarge, ?_⟩
      rw [encodeFrame, Py.encodeFrame, Format.byte, if_neg hother', if_pos rfl, hmsgpack]
      rfl

/-- Whatever any of the three encoders writes, each decoder reads back and takes
no byte more; each cut of it waits for the rest; what does not fit is refused. -/
theorem encodeFrame_nextFrame (libs : Language → Library V)
    (hround : ∀ (sender receiver : Language) (format : Format) (payload : V) (body : Bytes),
      ((libs sender).codec format).encode payload = .ok body →
        ((libs receiver).codec format).decode body = .ok payload)
    (hempty : ∀ (language : Language) (format : Format) (payload : V),
      ((libs language).codec format).decode [] ≠ .ok payload)
    (sender receiver : Language) (msgType : UInt8) (format : Format) (payload : V) (body : Bytes)
    (hbody : ((libs sender).codec format).encode payload = .ok body) :
    (body.length ≤ maxFrameSize →
      ∃ frame, encodeFrame sender (libs sender) msgType payload format.byte = .ok frame ∧
        (∀ rest, nextFrame receiver (libs receiver) (frame ++ rest) =
          .frame ⟨msgType, format.byte, payload, frame.length⟩) ∧
        ∀ part, part <+: frame → part ≠ frame →
          nextFrame receiver (libs receiver) part = .incomplete) ∧
    (maxFrameSize < body.length →
      ∃ reason, encodeFrame sender (libs sender) msgType payload format.byte = .error reason) := by
  have hdecode := hround sender receiver format payload body hbody
  have hne : body ≠ [] := by
    intro hnil
    rw [hnil] at hdecode
    exact hempty receiver format payload hdecode
  obtain ⟨tooLarge, hpack⟩ := encodeFrame_eq_packFrame sender hbody msgType
  rw [hpack, packFrame]
  refine ⟨fun hsize => ?_, fun hlarge => ⟨_, if_pos hlarge⟩⟩
  refine ⟨_, if_neg (Nat.not_lt.mpr hsize), fun rest => ?_, fun part hpart hstrict => ?_⟩
  · rw [List.append_assoc, nextFrame_whole hne hdecode hsize, List.length_append,
      frameHeader_length]
  · exact nextFrame_strictPrefix hsize receiver _ msgType format.byte hpart hstrict

/-- Three values as JSON and MessagePack write them; `none` is null. -/
def scalarLibrary : Library (Option Bool) where
  json :=
    { encode := fun
        | none => .ok [0x6e, 0x75, 0x6c, 0x6c]
        | some true => .ok [0x74, 0x72, 0x75, 0x65]
        | some false => .ok [0x66, 0x61, 0x6c, 0x73, 0x65]
      decode := fun
        | [0x6e, 0x75, 0x6c, 0x6c] => .ok none
        | [0x74, 0x72, 0x75, 0x65] => .ok (some true)
        | [0x66, 0x61, 0x6c, 0x73, 0x65] => .ok (some false)
        | _ => .error "unexpected token" }
  msgpack :=
    { encode := fun
        | none => .ok [0xc0]
        | some true => .ok [0xc3]
        | some false => .ok [0xc2]
      decode := fun
        | [0xc0] => .ok none
        | [0xc3] => .ok (some true)
        | [0xc2] => .ok (some false)
        | _ => .error "invalid data" }
  null := none

theorem scalarLibrary_round (format : Format) (payload : Option Bool) (body : Bytes)
    (h : (scalarLibrary.codec format).encode payload = .ok body) :
    (scalarLibrary.codec format).decode body = .ok payload := by
  cases format <;> rcases payload with _ | _ | _ <;> cases h <;> rfl

theorem scalarLibrary_empty (format : Format) (payload : Option Bool) :
    (scalarLibrary.codec format).decode [] ≠ .ok payload := by
  cases format <;> intro h <;> cases h

theorem encodeFrame_nextFrame_scalar :
    ∃ frame, encodeFrame .typescript scalarLibrary 0x05 (some true) 0x02 = .ok frame ∧
      (∀ rest, nextFrame .go scalarLibrary (frame ++ rest) =
        .frame ⟨0x05, 0x02, some true, frame.length⟩) ∧
      ∀ part, part <+: frame → part ≠ frame →
        nextFrame .go scalarLibrary part = .incomplete := by
  have hround := encodeFrame_nextFrame (fun _ => scalarLibrary)
    (fun _ _ format payload body h => scalarLibrary_round format payload body h)
    (fun _ format payload => scalarLibrary_empty format payload)
    .typescript .go 0x05 .msgpack (some true) [0xc3] rfl
  exact hround.1 (by decide)

end Emergent.Sdk

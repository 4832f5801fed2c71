import Emergent.Kit.Text

/-!
# Validated newtypes (`sdks/rust/src/types`)

`MessageType` and `PrimitiveName` hold a string together with the fact that
their constructor accepted it, so a value of either type cannot be built from
a string the SDK refuses. The three identifiers are TypeIDs of the `mti` crate;
its `MagicTypeId::from_str` is outside the repository and is the parameter
`fromStr` wherever an identifier is parsed.
-/

namespace Emergent.Sdk

/-- The SDKs beside that in Rust. -/
inductive Language where
  | typescript
  | python
  | go
  deriving Repr, DecidableEq

/-- All four. -/
inductive Dialect where
  | rust
  | typescript
  | python
  | go
  deriving Repr, DecidableEq

/-! ### Message types (`types/message_type.rs`) -/

inductive InvalidMessageType where
  | empty
  | invalidCharacters (value : String)
  | invalidStructure (value : String) (reason : String)
  deriving Repr, DecidableEq

def typeChar (c : Char) : Bool :=
  c.isLower || c.isDigit || c == '.' || c == '-' || c == '_'

def ValidMessageType (value : String) : Prop :=
  value.toList ≠ [] ∧
  ¬ (value.toList.head? = some '.' ∨ value.toList.getLast? = some '.') ∧
  ¬ ['.', '.'] <:+: value.toList ∧
  value.toList.all typeChar = true

instance (value : String) : Decidable (ValidMessageType value) :=
  inferInstanceAs (Decidable (_ ∧ _ ∧ _ ∧ _))

structure MessageType where
  value : String
  valid : ValidMessageType value
  deriving DecidableEq

/-- `MessageType::new`, with the order of its four tests. -/
def MessageType.new (value : String) : Except InvalidMessageType MessageType :=
  if hempty : value.toList = [] then .error .empty
  else if hdot : value.toList.head? = some '.' ∨ value.toList.getLast? = some '.' then
    .error (.invalidStructure value "cannot start or end with dot")
  else if hdots : ['.', '.'] <:+: value.toList then
    .error (.invalidStructure value "cannot contain consecutive dots")
  else if hchars : value.toList.all typeChar = true then
    .ok ⟨value, hempty, hdot, hdots, hchars⟩
  else .error (.invalidCharacters value)

theorem MessageType.new_of_valid {value : String} (h : ValidMessageType value) :
    MessageType.new value = .ok ⟨value, h⟩ := by
  obtain ⟨hempty, hdot, hdots, hchars⟩ := h
  simp only [MessageType.new, dif_neg hempty, dif_neg hdot, dif_neg hdots, dif_pos hchars]

theorem messageType_new_value (t : MessageType) : MessageType.new t.value = .ok t := by
  obtain ⟨value, hvalid⟩ := t
  exact MessageType.new_of_valid hvalid

theorem MessageType.new_value {value : String} {t : MessageType}
    (h : MessageType.new value = .ok t) : t.value = value := by
  unfold MessageType.new at h
  split_ifs at h
  cases h
  rfl

/-! ### Primitive names (`types/primitive_name.rs`) -/

inductive InvalidPrimitiveName where
  | empty
  | invalidCharacters (value : String)
  | invalidStructure (value : String) (reason : String)
  deriving Repr, DecidableEq

def PrimitiveName.maxLength : ℕ := 64

def nameChar (c : Char) : Bool := c.isLower || c.isDigit || c == '-' || c == '_'

def ValidPrimitiveName (value : String) : Prop :=
  value.toList ≠ [] ∧
  ¬ PrimitiveName.maxLength < value.utf8ByteSize ∧
  ¬ value.toList.head?.any (fun c => !c.isLower) = true ∧
  value.toList.all nameChar = true

instance (value : String) : Decidable (ValidPrimitiveName value) :=
  inferInstanceAs (Decidable (_ ∧ _ ∧ _ ∧ _))

structure PrimitiveName where
  value : String
  valid : ValidPrimitiveName value
  deriving DecidableEq

/-- `PrimitiveName::new`, with the order of its four tests. -/
def PrimitiveName.new (value : String) : Except InvalidPrimitiveName PrimitiveName :=
  if hempty : value.toList = [] then .error .empty
  else if hlen : PrimitiveName.maxLength < value.utf8ByteSize then
    .error (.invalidStructure value "cannot exceed 64 characters")
  else if hfirst : value.toList.head?.any (fun c => !c.isLower) = true then
    .error (.invalidStructure value "must start with lowercase letter")
  else if hchars : value.toList.all nameChar = true then
    .ok ⟨value, hempty, hlen, hfirst, hchars⟩
  else .error (.invalidCharacters value)

theorem PrimitiveName.new_of_valid {value : String} (h : ValidPrimitiveName value) :
    PrimitiveName.new value = .ok ⟨value, h⟩ := by
  obtain ⟨hempty, hlen, hfirst, hchars⟩ := h
  simp only [PrimitiveName.new, dif_neg hempty, dif_neg hlen, dif_neg hfirst, dif_pos hchars]

theorem PrimitiveName.new_value {value : String} {n : PrimitiveName}
    (h : PrimitiveName.new value = .ok n) : n.value = value := by
  unfold PrimitiveName.new at h
  split_ifs at h
  cases h
  rfl

def PrimitiveName.unknown : PrimitiveName := ⟨"unknown", by decide⟩

-- the name and the message type of the sample runs
theorem validPrimitiveName_timer : ValidPrimitiveName "timer" := by decide

theorem validMessageType_timerTick : ValidMessageType "timer.tick" := by decide

theorem PrimitiveName.value_ne_empty (n : PrimitiveName) : n.value.toList ≠ [] := n.valid.1

/-! ### TypeID identifiers (`message_id.rs`, `correlation_id.rs`, `causation_id.rs`) -/

/-- A parsed TypeID: the part before the last underscore and the encoded UUID. -/
structure TypeId where
  pre : String
  suffix : String
  deriving Repr, DecidableEq

/-- An identifier whose TypeID carries one of the accepted prefixes. -/
structure TaggedId (accepted : List String) where
  id : TypeId
  tagged : id.pre ∈ accepted
  deriving DecidableEq

inductive InvalidId where
  | parse
  | wrongPrefix (expected actual : String)
  deriving Repr, DecidableEq

/-- The common body of the three `parse` functions. -/
def parseId (fromStr : String → Option TypeId) (accepted : List String) (expected : String)
    (s : String) : Except InvalidId (TaggedId accepted) :=
  match fromStr s with
  | none => .error .parse
  | some id =>
    if h : id.pre ∈ accepted then .ok ⟨id, h⟩ else .error (.wrongPrefix expected id.pre)

abbrev MessageId := TaggedId ["msg"]
abbrev CorrelationId := TaggedId ["cor"]
abbrev CausationId := TaggedId ["cau", "msg"]

def MessageId.parse (fromStr : String → Option TypeId) (s : String) :
    Except InvalidId MessageId := parseId fromStr ["msg"] "msg" s

def CorrelationId.parse (fromStr : String → Option TypeId) (s : String) :
    Except InvalidId CorrelationId := parseId fromStr ["cor"] "cor" s

def CausationId.parse (fromStr : String → Option TypeId) (s : String) :
    Except InvalidId CausationId := parseId fromStr ["cau", "msg"] "cau or msg" s

/-- A reader of the documented text form: lowercase letters, an underscore and
twenty-six base-32 digits of which the first is at most `7`. -/
def readTypeId (s : String) : Option TypeId :=
  let chars := s.toList
  let suffix := chars.drop (chars.length - 26)
  let head := chars.take (chars.length - 27)
  let digit := fun c : Char => "0123456789abcdefghjkmnpqrstvwxyz".toList.contains c
  if chars.take (chars.length - 26) = head ++ ['_'] ∧ suffix.length = 26 ∧
      head.all Char.isLower ∧ suffix.all digit ∧ suffix.head?.any (· ≤ '7') then
    some ⟨String.ofList head, String.ofList suffix⟩
  else none

example : readTypeId "msg_01h455vb4pex5vsknk084sn02q" =
    some ⟨"msg", "01h455vb4pex5vsknk084sn02q"⟩ := by decide

end Emergent.Sdk

import Emergent.Kit.Segments
import Emergent.Sdk.CodeUnits
import Emergent.Sdk.PushReading

/-!
# Validators of names and message types (`validate.go`, `topics.go`, `topics.py`)

Go's validators classify runes with the `unicode` package, which knows more
lower-case letters and digits than the ASCII ones of Rust; Python's pattern
also ends before a final line break. These are the only differences.
-/

namespace Emergent.Sdk
open Kit.Text Kit.Segments Kit.PrefixCode

/-! ### Go's character classes -/

/-- The range tables of Go's `unicode` package above Latin-1: `Lower`, `Letter`, `Nd`. -/
structure UnicodeTables where
  lower : ℕ → Bool
  letter : ℕ → Bool
  digit : ℕ → Bool

structure ValidationError where
  msg : String
  field : String
  deriving Repr, DecidableEq

namespace Go

/-- The lower-case letters among the first 256 runes. -/
def latinLower (r : ℕ) : Bool :=
  (97 ≤ r && r ≤ 122) || r == 0xB5 || (0xDF ≤ r && r ≤ 0xF6) || (0xF8 ≤ r && r ≤ 0xFF)

def latinLetter (r : ℕ) : Bool :=
  latinLower r || (65 ≤ r && r ≤ 90) || r == 0xAA || r == 0xBA ||
    (0xC0 ≤ r && r ≤ 0xD6) || (0xD8 ≤ r && r ≤ 0xDE)

def isLower (t : UnicodeTables) (r : ℕ) : Bool := if r ≤ 0xFF then latinLower r else t.lower r

def isLetter (t : UnicodeTables) (r : ℕ) : Bool :=
  if r ≤ 0xFF then latinLetter r else t.letter r

def isDigit (t : UnicodeTables) (r : ℕ) : Bool :=
  if r ≤ 0xFF then 48 ≤ r && r ≤ 57 else t.digit r

/-! ### Go's validators -/

def typeRune (t : UnicodeTables) (c : Char) : Bool :=
  isLower t c.toNat || isDigit t c.toNat || c == '.' || c == '-' || c == '_'

def nameRune (t : UnicodeTables) (c : Char) : Bool :=
  isLower t c.toNat || isDigit t c.toNat || c == '-' || c == '_'

def validateMessageType (t : UnicodeTables) (value : String) : Except ValidationError Unit :=
  if value.toList = [] then .error ⟨"cannot be empty", "message_type"⟩
  else if value.toList.head? = some '.' then .error ⟨"cannot start with a dot", "message_type"⟩
  else if value.toList.getLast? = some '.' then .error ⟨"cannot end with a dot", "message_type"⟩
  else if ['.', '.'] <:+: value.toList then
    .error ⟨"cannot contain consecutive dots", "message_type"⟩
  else if value.toList.all (typeRune t) then .ok ()
  else .error ⟨"only lowercase letters, digits, dots, hyphens, and underscores are allowed",
    "message_type"⟩

def maxPrimitiveNameLength : ℕ := 64

/-- `rune(value[0])`: the first byte, taken for a rune. -/
def firstByte (value : String) : ℕ := (Dialect.go.units value).headD 0

def validatePrimitiveName (t : UnicodeTables) (value : String) : Except ValidationError Unit :=
  if value.toList = [] then .error ⟨"cannot be empty", "primitive_name"⟩
  else if maxPrimitiveNameLength < byteLength value then
    .error ⟨"cannot exceed 64 characters", "primitive_name"⟩
  else if !isLower t (firstByte value) || !isLetter t (firstByte value) then
    .error ⟨"must start with a lowercase letter", "primitive_name"⟩
  else if value.toList.all (nameRune t) then .ok ()
  else .error ⟨"only lowercase letters, digits, hyphens, and underscores are allowed",
    "primitive_name"⟩

/-- `IsEmergentMessageType`: Go's pattern is the one of TypeScript. -/
def isEmergentMessageType (messageType : String) : Bool :=
  Sdk.isEmergentMessageType messageType

end Go

def Ts.isEmergentMessageType (messageType : String) : Bool :=
  Sdk.isEmergentMessageType messageType

/-! ### The pattern as a regular expression -/

def segmentSymbols : List Char := "abcdefghijklmnopqrstuvwxyz0123456789_-".toList

/-- `[a-z0-9_-]+(\.[a-z0-9_-]+)*` -/
def messageTypePattern : RegularExpression Char := segments segmentSymbols '.'

variable {t : UnicodeTables} {value : String} {c : Char}

theorem char_le_iff {c d : Char} : c.val ≤ d.val ↔ c.toNat ≤ d.toNat := UInt32.le_iff_toNat_le

theorem isLower_iff : c.isLower = true ↔ 97 ≤ c.toNat ∧ c.toNat ≤ 122 := by
  have hdef : c.isLower = (decide (c.val ≥ 'a'.val) && decide (c.val ≤ 'z'.val)) := rfl
  rw [hdef, Bool.and_eq_true, decide_eq_true_iff, decide_eq_true_iff, ge_iff_le,
    char_le_iff, char_le_iff]
  rfl

theorem isDigit_iff : c.isDigit = true ↔ 48 ≤ c.toNat ∧ c.toNat ≤ 57 := by
  rw [Char.isDigit, Bool.and_eq_true, decide_eq_true_iff, decide_eq_true_iff, ge_iff_le,
    char_le_iff, char_le_iff]
  rfl

theorem char_eq_iff {c d : Char} : (c == d) = true ↔ c.toNat = d.toNat := by
  rw [beq_iff_eq, Char.toNat_inj]

theorem mem_segmentSymbols :
    c ∈ segmentSymbols ↔ (c.isLower || c.isDigit || c == '-' || c == '_') = true := by
  have hsymbols : c ∈ segmentSymbols ↔ c.toNat ∈ segmentSymbols.map Char.toNat :=
    (List.mem_map_of_injective fun _ _ h => Char.toNat_inj.mp h).symm
  rw [hsymbols]
  simp only [Bool.or_eq_true, isLower_iff, isDigit_iff, char_eq_iff]
  have hvalues : segmentSymbols.map Char.toNat =
      [97, 98, 99, 100, 101, 102, 103, 104, 105, 106, 107, 108, 109, 110, 111, 112, 113, 114,
        115, 116, 117, 118, 119, 120, 121, 122, 48, 49, 50, 51, 52, 53, 54, 55, 56, 57, 95, 45] := by
    decide
  have hdash : '-'.toNat = 45 := rfl
  have hunder : '_'.toNat = 95 := rfl
  rw [hvalues, hdash, hunder]
  simp only [List.mem_cons, List.not_mem_nil, or_false]
  omega

theorem matchesSegments_iff_mem (cs : List Char) :
    (matchesSegments true cs = true ↔ cs ∈ messageTypePattern.matches') ∧
      (matchesSegments false cs = true ↔ cs ∈ continuations segmentSymbols '.') := by
  have hdot : '.' ∉ segmentSymbols := by decide
  induction cs with
  | nil =>
    constructor
    · simp [matchesSegments, messageTypePattern, nil_notMem_segments]
    · simp [matchesSegments, nil_mem_continuations]
  | cons c cs ih =>
    rw [messageTypePattern, cons_mem_segments, cons_mem_continuations, matchesSegments,
      matchesSegments, mem_segmentSymbols]
    by_cases hc : c = '.'
    · have hfalse : ('.'.isLower || '.'.isDigit || '.' == '-' || '.' == '_') = false := by decide
      have hrest := ih.1
      rw [messageTypePattern] at hrest
      rw [if_pos hc, if_pos hc, hc, hfalse, ← hrest]
      simp
    · rw [if_neg hc, if_neg hc, Bool.and_eq_true, ih.2]
      simp [hc]

/-- The recursive matcher of the SDKs is the regular expression. -/
theorem isEmergentMessageType_iff_mem :
    isEmergentMessageType value = true ↔ value.toList ∈ messageTypePattern.matches' :=
  (matchesSegments_iff_mem value.toList).1

/-! ### Runes and ASCII -/

theorem Go.isLower_of_ascii (h : c.toNat ≤ 0x7F) : Go.isLower t c.toNat = c.isLower := by
  rw [Bool.eq_iff_iff, isLower_iff, Go.isLower, if_pos (by omega), Go.latinLower]
  simp only [Bool.or_eq_true, Bool.and_eq_true, decide_eq_true_eq, beq_iff_eq]
  omega

theorem Go.isDigit_of_ascii (h : c.toNat ≤ 0x7F) : Go.isDigit t c.toNat = c.isDigit := by
  rw [Bool.eq_iff_iff, isDigit_iff, Go.isDigit, if_pos (by omega)]
  simp only [Bool.and_eq_true, decide_eq_true_eq]

theorem Go.isLetter_of_isLower {r : ℕ} (hr : r ≤ 0xFF) (h : Go.isLower t r = true) :
    Go.isLetter t r = true := by
  rw [Go.isLower, if_pos hr] at h
  rw [Go.isLetter, if_pos hr, Go.latinLetter, h]
  rfl

theorem ascii_of_nameChar (h : nameChar c = true) : c.toNat ≤ 0x7F := by
  simp only [nameChar, Bool.or_eq_true, isLower_iff, isDigit_iff, char_eq_iff] at h
  have hdash : '-'.toNat = 45 := rfl
  have hunder : '_'.toNat = 95 := rfl
  omega

theorem ascii_of_typeChar (h : typeChar c = true) : c.toNat ≤ 0x7F := by
  simp only [typeChar, Bool.or_eq_true, isLower_iff, isDigit_iff, char_eq_iff] at h
  have hdot : '.'.toNat = 46 := rfl
  have hdash : '-'.toNat = 45 := rfl
  have hunder : '_'.toNat = 95 := rfl
  omega

theorem Go.typeRune_of_ascii (h : c.toNat ≤ 0x7F) : Go.typeRune t c = typeChar c := by
  rw [Go.typeRune, typeChar, Go.isLower_of_ascii h, Go.isDigit_of_ascii h]

theorem Go.nameRune_of_ascii (h : c.toNat ≤ 0x7F) : Go.nameRune t c = nameChar c := by
  rw [Go.nameRune, nameChar, Go.isLower_of_ascii h, Go.isDigit_of_ascii h]

/-- Some character of the text is beyond ASCII. -/
def BeyondAscii (value : String) : Prop := ∃ c ∈ value.toList, 0x7F < c.toNat

theorem all_iff_of_ascii {rune char : Char → Bool} (hsame : ∀ c, c.toNat ≤ 0x7F → rune c = char c)
    (hascii : ∀ c, char c = true → c.toNat ≤ 0x7F) (cs : List Char) :
    cs.all char = true ↔ cs.all rune = true ∧ ¬ ∃ c ∈ cs, 0x7F < c.toNat := by
  simp only [List.all_eq_true]
  constructor
  · intro h
    constructor
    · intro c hc
      rw [hsame c (hascii c (h c hc))]
      exact h c hc
    · rintro ⟨c, hc, hbeyond⟩
      have := hascii c (h c hc)
      omega
  · rintro ⟨h, hno⟩ c hc
    have hle : c.toNat ≤ 0x7F := by
      by_contra hbeyond
      exact hno ⟨c, hc, by omega⟩
    rw [← hsame c hle]
    exact h c hc

/-! ### Message types -/

/-- The dots of a message type: none at either end, no two together. -/
def DotsInPlace (value : String) : Prop :=
  ¬ (value.toList.head? = some '.' ∨ value.toList.getLast? = some '.') ∧
    ¬ ['.', '.'] <:+: value.toList

theorem messageType_new_ok : (∃ m, MessageType.new value = .ok m) ↔ ValidMessageType value := by
  constructor
  · rintro ⟨m, hm⟩
    have hvalue := MessageType.new_value hm
    rw [← hvalue]
    exact m.valid
  · intro h
    exact ⟨_, MessageType.new_of_valid h⟩

theorem Go.validateMessageType_ok :
    Go.validateMessageType t value = .ok () ↔
      value.toList ≠ [] ∧ DotsInPlace value ∧ value.toList.all (Go.typeRune t) = true := by
  unfold Go.validateMessageType DotsInPlace
  by_cases hempty : value.toList = []
  · simp [hempty]
  · by_cases hhead : value.toList.head? = some '.'
    · simp [hempty, hhead]
    · by_cases hlast : value.toList.getLast? = some '.'
      · simp [hempty, hhead, hlast]
      · by_cases hdots : ['.', '.'] <:+: value.toList
        · simp [hempty, hhead, hlast, hdots]
        · cases hall : value.toList.all (Go.typeRune t) <;>
            simp [hempty, hhead, hlast, hdots]

/-- What Go accepts as a message type and Rust does not. -/
def GoOnlyMessageType (t : UnicodeTables) (value : String) : Prop :=
  DotsInPlace value ∧ value.toList.all (Go.typeRune t) = true ∧ BeyondAscii value

theorem BeyondAscii.ne_nil (h : BeyondAscii value) : value.toList ≠ [] := by
  obtain ⟨c, hc, _⟩ := h
  exact List.ne_nil_of_mem hc

/-- Two tests that differ in one extra condition agree where that condition is met. -/
theorem extra_condition {strict loose extra : Prop} (h : strict ↔ loose ∧ ¬ extra) :
    (strict ↔ loose) ↔ ¬ (loose ∧ extra) := by
  tauto

theorem messageType_agree :
    ((∃ m, MessageType.new value = .ok m) ↔ Go.validateMessageType t value = .ok ()) ↔
      ¬ GoOnlyMessageType t value := by
  have hstrict : (∃ m, MessageType.new value = .ok m) ↔
      Go.validateMessageType t value = .ok () ∧ ¬ BeyondAscii value := by
    have hall := all_iff_of_ascii (fun c => Go.typeRune_of_ascii (t := t) (c := c))
      (fun c => ascii_of_typeChar (c := c)) value.toList
    rw [messageType_new_ok, Go.validateMessageType_ok, ValidMessageType, hall, DotsInPlace]
    simp only [and_assoc]
    rfl
  rw [extra_condition hstrict, Go.validateMessageType_ok]
  apply not_congr
  constructor
  · rintro ⟨⟨_, hdots, hall⟩, hbeyond⟩
    exact ⟨hdots, hall, hbeyond⟩
  · rintro ⟨hdots, hall, hbeyond⟩
    exact ⟨⟨hbeyond.ne_nil, hdots, hall⟩, hbeyond⟩

/-- What Python's pattern accepts and the others do not: a message type and a line break. -/
def PyOnlyMessageType (value : String) : Prop :=
  ∃ r, value.toList = r ++ ['\n'] ∧ ValidMessageType (String.ofList r)

theorem Py.isEmergentMessageType_eq :
    Py.isEmergentMessageType value = true ↔
      ValidMessageType value ∨ PyOnlyMessageType value := by
  rw [Py.isEmergentMessageType, Bool.or_eq_true, Bool.and_eq_true, beq_iff_eq,
    ← Sdk.isEmergentMessageType_iff, Sdk.isEmergentMessageType]
  apply or_congr Iff.rfl
  have hinit : ∀ r, matchesSegments true r = true ↔ ValidMessageType (String.ofList r) := by
    intro r
    rw [← Sdk.isEmergentMessageType_iff, Sdk.isEmergentMessageType, String.toList_ofList]
  constructor
  · rintro ⟨hlast, hmatch⟩
    exact ⟨_, (List.dropLast_append_getLast? '\n' hlast).symm, (hinit _).mp hmatch⟩
  · rintro ⟨r, hr, hvalid⟩
    rw [hr, List.getLast?_concat, List.dropLast_concat]
    exact ⟨rfl, (hinit r).mpr hvalid⟩

theorem not_valid_of_line_break (h : PyOnlyMessageType value) : ¬ ValidMessageType value := by
  obtain ⟨r, hr, _⟩ := h
  intro hvalid
  have hchar := List.all_eq_true.mp hvalid.2.2.2 '\n' (by rw [hr]; simp)
  revert hchar
  decide

/-! ### Primitive names -/

theorem primitiveName_new_ok :
    (∃ n, PrimitiveName.new value = .ok n) ↔ ValidPrimitiveName value := by
  constructor
  · rintro ⟨n, hn⟩
    have hvalue := PrimitiveName.new_value hn
    rw [← hvalue]
    exact n.valid
  · intro h
    exact ⟨_, PrimitiveName.new_of_valid h⟩

theorem firstByte_le (value : String) : Go.firstByte value ≤ 0xFF := by
  unfold Go.firstByte Dialect.units encode
  cases value.toList with
  | nil => exact Nat.zero_le _
  | cons c cs =>
    have hrange := charRange c
    rw [List.flatMap_cons]
    change ((utf8Units c ++ _).headD 0) ≤ 0xFF
    unfold utf8Units
    dsimp only
    split_ifs <;> simp only [List.cons_append, List.headD_cons] <;> omega

theorem firstByte_of_ascii {cs : List Char} (hvalue : value.toList = c :: cs)
    (h : c.toNat ≤ 0x7F) : Go.firstByte value = c.toNat := by
  have hunits : utf8Units c = [c.toNat] := if_pos (Nat.lt_succ_of_le h)
  have hcode : Dialect.go.charUnits c = [c.toNat] := hunits
  rw [Go.firstByte, Dialect.units, hvalue, encode_cons, hcode]
  rfl

theorem Go.validatePrimitiveName_ok :
    Go.validatePrimitiveName t value = .ok () ↔
      value.toList ≠ [] ∧ byteLength value ≤ Go.maxPrimitiveNameLength ∧
        Go.isLower t (Go.firstByte value) = true ∧
        value.toList.all (Go.nameRune t) = true := by
  have hletter := Go.isLetter_of_isLower (t := t) (firstByte_le value)
  unfold Go.validatePrimitiveName
  by_cases hempty : value.toList = []
  · simp [hempty]
  · by_cases hlong : Go.maxPrimitiveNameLength < byteLength value
    · simp [hempty, hlong]
    · have hle : byteLength value ≤ Go.maxPrimitiveNameLength := by omega
      cases hlower : Go.isLower t (Go.firstByte value) with
      | false => simp [hempty, hlong]
      | true =>
        rw [hletter hlower]
        cases hall : value.toList.all (Go.nameRune t) <;> simp [hempty, hlong, hle]

/-- What Go accepts as a name and Rust does not. -/
def GoOnlyPrimitiveName (t : UnicodeTables) (value : String) : Prop :=
  byteLength value ≤ Go.maxPrimitiveNameLength ∧ Go.isLower t (Go.firstByte value) = true ∧
    value.toList.all (Go.nameRune t) = true ∧ BeyondAscii value

/-- In an ASCII text the first byte is the first character. -/
theorem firstByte_isLower (hne : value.toList ≠ []) (hascii : ¬ BeyondAscii value) :
    ¬ value.toList.head?.any (fun c => !c.isLower) = true ↔
      Go.isLower t (Go.firstByte value) = true := by
  cases hcs : value.toList with
  | nil => exact absurd hcs hne
  | cons c cs =>
    have hc : c.toNat ≤ 0x7F := by
      by_contra hbeyond
      exact hascii ⟨c, by rw [hcs]; exact List.mem_cons_self, by omega⟩
    rw [firstByte_of_ascii hcs hc, Go.isLower_of_ascii hc]
    simp

theorem validPrimitiveName_iff :
    ValidPrimitiveName value ↔
      Go.validatePrimitiveName t value = .ok () ∧ ¬ BeyondAscii value := by
  have hall := all_iff_of_ascii (fun c => Go.nameRune_of_ascii (t := t) (c := c))
    (fun c => ascii_of_nameChar (c := c)) value.toList
  have hlen : ¬ PrimitiveName.maxLength < value.utf8ByteSize ↔
      byteLength value ≤ Go.maxPrimitiveNameLength := by
    rw [byteLength_eq]
    exact Nat.not_lt
  rw [Go.validatePrimitiveName_ok, ValidPrimitiveName, hall, hlen]
  constructor
  · rintro ⟨hne, hshort, hlower, hchars, hascii⟩
    exact ⟨⟨hne, hshort, (firstByte_isLower hne hascii).mp hlower, hchars⟩, hascii⟩
  · rintro ⟨⟨hne, hshort, hlower, hchars⟩, hascii⟩
    exact ⟨hne, hshort, (firstByte_isLower hne hascii).mpr hlower, hchars, hascii⟩

theorem primitiveName_agree :
    ((∃ n, PrimitiveName.new value = .ok n) ↔ Go.validatePrimitiveName t value = .ok ()) ↔
      ¬ GoOnlyPrimitiveName t value := by
  have hstrict : (∃ n, PrimitiveName.new value = .ok n) ↔
      Go.validatePrimitiveName t value = .ok () ∧ ¬ BeyondAscii value := by
    rw [primitiveName_new_ok]
    exact validPrimitiveName_iff
  rw [extra_condition hstrict, Go.validatePrimitiveName_ok]
  apply not_congr
  constructor
  · rintro ⟨⟨_, hshort, hlower, hall⟩, hbeyond⟩
    exact ⟨hshort, hlower, hall, hbeyond⟩
  · rintro ⟨hshort, hlower, hall, hbeyond⟩
    exact ⟨⟨hbeyond.ne_nil, hshort, hlower, hall⟩, hbeyond⟩

/-! ### The agreement -/

structure ValidatorsAgree (t : UnicodeTables) (s : String) : Prop where
  goType : (∃ m, MessageType.new s = .ok m) ↔ Go.validateMessageType t s = .ok ()
  goPattern : (∃ m, MessageType.new s = .ok m) ↔ Go.isEmergentMessageType s = true
  tsPattern : (∃ m, MessageType.new s = .ok m) ↔ Ts.isEmergentMessageType s = true
  pyPattern : (∃ m, MessageType.new s = .ok m) ↔ Py.isEmergentMessageType s = true
  goName : (∃ n, PrimitiveName.new s = .ok n) ↔ Go.validatePrimitiveName t s = .ok ()

/-- The validators agree on every text but a message type before a line break, and
texts of Go's Unicode letters and digits that go beyond ASCII. -/
theorem validatorsAgree_iff (t : UnicodeTables) (s : String) :
    ValidatorsAgree t s ↔
      ¬ GoOnlyMessageType t s ∧ ¬ PyOnlyMessageType s ∧ ¬ GoOnlyPrimitiveName t s := by
  constructor
  · intro h
    refine ⟨messageType_agree.mp h.goType, ?_, primitiveName_agree.mp h.goName⟩
    intro hpy
    apply not_valid_of_line_break hpy
    rw [← messageType_new_ok, h.pyPattern, Py.isEmergentMessageType_eq]
    exact Or.inr hpy
  · rintro ⟨hgo, hpy, hname⟩
    have hpattern : (∃ m, MessageType.new s = .ok m) ↔ isEmergentMessageType s = true := by
      rw [messageType_new_ok, isEmergentMessageType_iff]
    constructor
    · exact messageType_agree.mpr hgo
    · exact hpattern
    · exact hpattern
    · rw [messageType_new_ok, Py.isEmergentMessageType_eq]
      constructor
      · intro h
        exact Or.inl h
      · intro h
        exact h.resolve_right hpy
    · exact primitiveName_agree.mpr hname

/-- Python accepts a final line break, Go the letter of a Latin-1 word. -/
theorem validatorsAgree_line_break_and_accent :
    ¬ ValidatorsAgree ⟨fun _ => false, fun _ => false, fun _ => false⟩ "timer.tick\n" ∧
      ¬ ValidatorsAgree ⟨fun _ => false, fun _ => false, fun _ => false⟩ "café" := by
  constructor
  · intro h
    have hok : ∃ m, MessageType.new "timer.tick\n" = .ok m := h.pyPattern.mpr (by decide)
    rw [messageType_new_ok] at hok
    revert hok
    decide
  · intro h
    have hok : ∃ m, MessageType.new "café" = .ok m := h.goType.mpr (by decide)
    rw [messageType_new_ok] at hok
    revert hok
    decide

end Emergent.Sdk

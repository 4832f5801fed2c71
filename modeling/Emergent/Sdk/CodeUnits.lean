import Emergent.Kit.PrefixCode
import Emergent.Sdk.Types

/-!
# The strings of the four languages

A text is a list of characters; Rust and Go see its UTF-8 bytes, JavaScript its
UTF-16 code units and Python the characters themselves.
-/

namespace Emergent.Sdk
open Kit.PrefixCode

def utf8Units (c : Char) : List ℕ :=
  let v := c.toNat
  if v < 0x80 then [v]
  else if v < 0x800 then [0xC0 + v / 64, 0x80 + v % 64]
  else if v < 0x10000 then [0xE0 + v / 4096, 0x80 + v / 64 % 64, 0x80 + v % 64]
  else [0xF0 + v / 262144, 0x80 + v / 4096 % 64, 0x80 + v / 64 % 64, 0x80 + v % 64]

def utf16Units (c : Char) : List ℕ :=
  let v := c.toNat
  if v < 0x10000 then [v]
  else [0xD800 + (v - 0x10000) / 1024, 0xDC00 + (v - 0x10000) % 1024]

def Dialect.charUnits : Dialect → Char → List ℕ
  | .rust | .go => utf8Units
  | .typescript => utf16Units
  | .python => fun c => [c.toNat]

/-- The string as the language's operations see it. -/
def Dialect.units (d : Dialect) (s : String) : List ℕ := encode d.charUnits s.toList

/-- `len` in Rust and Go, `encode` before it in the others. -/
def byteLength (s : String) : ℕ := (encode utf8Units s.toList).length

theorem charRange (c : Char) :
    c.toNat < 0xD800 ∨ 0xDFFF < c.toNat ∧ c.toNat < 0x110000 := c.valid

theorem isPrefixCode_utf8Units : IsPrefixCode utf8Units where
  ne_nil c := by
    unfold utf8Units
    dsimp only
    split_ifs <;> simp
  instant c d rest rest' h := by
    have hc := charRange c
    have hd := charRange d
    apply Char.toNat_inj.mp
    unfold utf8Units at h
    dsimp only at h
    split_ifs at h <;> simp only [List.cons_append, List.nil_append, List.cons.injEq] at h <;>
      omega

theorem isPrefixCode_utf16Units : IsPrefixCode utf16Units where
  ne_nil c := by
    unfold utf16Units
    dsimp only
    split_ifs <;> simp
  instant c d rest rest' h := by
    have hc := charRange c
    have hd := charRange d
    apply Char.toNat_inj.mp
    unfold utf16Units at h
    dsimp only at h
    -- a lone unit is never a surrogate, a pair always starts with one
    split_ifs at h <;> simp only [List.cons_append, List.nil_append, List.cons.injEq] at h <;>
      omega

theorem Dialect.isPrefixCode (d : Dialect) : IsPrefixCode d.charUnits := by
  cases d with
  | rust => exact isPrefixCode_utf8Units
  | go => exact isPrefixCode_utf8Units
  | typescript => exact isPrefixCode_utf16Units
  | python =>
    constructor
    · intro c
      exact List.cons_ne_nil _ _
    · intro c e rest rest' h
      exact Char.toNat_inj.mp (List.cons.inj h).1

/-- An ASCII character is one unit in every language, and part of no other character. -/
theorem Dialect.isMark (d : Dialect) {c : Char} (h : c.toNat < 0x80) :
    IsMark d.charUnits c c.toNat := by
  have h8 : IsMark utf8Units c c.toNat := by
    constructor
    · unfold utf8Units
      exact if_pos h
    · intro e hmem
      apply Char.toNat_inj.mp
      unfold utf8Units at hmem
      dsimp only at hmem
      split_ifs at hmem <;> simp only [List.mem_cons, List.not_mem_nil, or_false] at hmem <;>
        omega
  cases d with
  | rust => exact h8
  | go => exact h8
  | typescript =>
    constructor
    · change utf16Units c = _
      unfold utf16Units
      exact if_pos (by omega)
    · intro e hmem
      change c.toNat ∈ utf16Units e at hmem
      apply Char.toNat_inj.mp
      unfold utf16Units at hmem
      dsimp only at hmem
      split_ifs at hmem <;> simp only [List.mem_cons, List.not_mem_nil, or_false] at hmem <;>
        omega
  | python =>
    constructor
    · rfl
    · intro e hmem
      exact Char.toNat_inj.mp (List.mem_singleton.mp hmem).symm

theorem length_utf8Units (c : Char) : (utf8Units c).length = c.utf8Size := by
  have hval : c.val.toNat = c.toNat := rfl
  unfold utf8Units
  dsimp only
  split_ifs with h1 h2 h3
  · refine (Char.utf8Size_eq_one_iff.mpr ?_).symm
    rw [UInt32.le_iff_toNat_le, hval]
    exact Nat.le_of_lt_succ h1
  · refine (Char.utf8Size_eq_two_iff.mpr ⟨?_, ?_⟩).symm
    · rw [UInt32.lt_iff_toNat_lt, hval]
      exact Nat.lt_of_not_le fun h => h1 (Nat.lt_succ_of_le h)
    · rw [UInt32.le_iff_toNat_le, hval]
      exact Nat.le_of_lt_succ h2
  · refine (Char.utf8Size_eq_three_iff.mpr ⟨?_, ?_⟩).symm
    · rw [UInt32.lt_iff_toNat_lt, hval]
      exact Nat.lt_of_not_le fun h => h2 (Nat.lt_succ_of_le h)
    · rw [UInt32.le_iff_toNat_le, hval]
      exact Nat.le_of_lt_succ h3
  · refine (Char.utf8Size_eq_four_iff.mpr ?_).symm
    rw [UInt32.lt_iff_toNat_lt, hval]
    exact Nat.lt_of_not_le fun h => h3 (Nat.lt_succ_of_le h)

theorem byteLength_eq (s : String) : byteLength s = s.utf8ByteSize := by
  have hsize : s.utf8ByteSize = (s.toList.flatMap String.utf8EncodeChar).length := by
    rw [← String.size_toByteArray, ← String.utf8Encode_toList, List.utf8Encode]
    simp
  rw [hsize, byteLength, encode, List.length_flatMap, List.length_flatMap]
  congr 1
  apply List.map_congr_left
  intro c _
  rw [length_utf8Units, String.length_utf8EncodeChar]

end Emergent.Sdk

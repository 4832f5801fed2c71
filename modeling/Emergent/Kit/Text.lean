import Emergent.Kit.Cuts
import Mathlib.Data.List.Infix
import Mathlib.Tactic

/-!
# String slices by characters

The `str` operations the sources use, on the characters of a string: prefix
and membership tests, and the removal of one final character. A prefix of the
characters is a prefix of the UTF-8 bytes and conversely, so the byte view of
the sources and this one agree.
-/

namespace Kit.Text

def startsWith (s p : String) : Bool := p.toList.isPrefixOf s.toList

def containsChar (s : String) (c : Char) : Bool := s.toList.contains c

/-- The text before a final `c`, `none` when the text does not end in `c`. -/
def stripSuffix (s : String) (c : Char) : Option String :=
  if s.toList.getLast? = some c then some (String.ofList s.toList.dropLast) else none

/-- The text after the prefix `p`, `none` when the text does not start with it. -/
def stripPrefixText (s p : String) : Option String :=
  if startsWith s p then some (String.ofList (s.toList.drop p.toList.length)) else none

/-- The text before the suffix `p`, `none` when the text does not end with it. -/
def stripSuffixText (s p : String) : Option String :=
  if p.toList.isSuffixOf s.toList then
    some (String.ofList (s.toList.take (s.toList.length - p.toList.length)))
  else none

/-- Unicode `White_Space`, which `trim` and `char::is_whitespace` go by. -/
def isWhite (c : Char) : Bool :=
  let n := c.val.toNat
  decide ((9 ≤ n ∧ n ≤ 13) ∨ n = 32 ∨ n = 133 ∨ n = 160 ∨ n = 5760 ∨ (8192 ≤ n ∧ n ≤ 8202) ∨
    n = 8232 ∨ n = 8233 ∨ n = 8239 ∨ n = 8287 ∨ n = 12288)

def trim (s : String) : String := String.ofList (stripped isWhite s.toList)

theorem startsWith_iff {s p : String} : startsWith s p = true ↔ p.toList <+: s.toList := by
  simp [startsWith]

theorem containsChar_eq_false {s : String} {c : Char} :
    containsChar s c = false ↔ c ∉ s.toList := by
  simp [containsChar]

theorem stripSuffix_eq_some {s p : String} {c : Char} :
    stripSuffix s c = some p ↔ s.toList = p.toList ++ [c] := by
  unfold stripSuffix
  constructor
  · intro h
    split at h
    · rename_i hl
      have hp : p.toList = s.toList.dropLast := by
        have he : String.ofList s.toList.dropLast = p := Option.some.inj h
        rw [← he, String.toList_ofList]
      rw [hp]
      exact (List.dropLast_append_getLast? c hl).symm
    · cases h
  · intro h
    have hl : s.toList.getLast? = some c := by rw [h]; simp
    have hd : s.toList.dropLast = p.toList := by rw [h]; simp
    rw [if_pos hl, hd, String.ofList_toList]

theorem stripPrefixText_append (p s : String) : stripPrefixText (p ++ s) p = some s := by
  have hchars : (p ++ s).toList = p.toList ++ s.toList := String.toList_append
  have hstart : startsWith (p ++ s) p = true := by
    rw [startsWith_iff, hchars]
    exact List.prefix_append _ _
  rw [stripPrefixText, if_pos hstart, hchars, List.drop_left, String.ofList_toList]

theorem stripSuffixText_append (s p : String) : stripSuffixText (s ++ p) p = some s := by
  have hchars : (s ++ p).toList = s.toList ++ p.toList := String.toList_append
  have hend : p.toList.isSuffixOf (s ++ p).toList = true := by
    rw [List.isSuffixOf_iff_suffix, hchars]
    exact List.suffix_append _ _
  rw [stripSuffixText, if_pos hend, hchars, List.length_append, Nat.add_sub_cancel,
    List.take_left, String.ofList_toList]

theorem eq_append_of_stripPrefixText {s p rest : String} (h : stripPrefixText s p = some rest) :
    s = p ++ rest := by
  unfold stripPrefixText at h
  split_ifs at h with hstart
  obtain ⟨tail, htail⟩ := startsWith_iff.mp hstart
  apply String.toList_injective
  rw [← Option.some.inj h, String.toList_append, String.toList_ofList, ← htail, List.drop_left]

theorem eq_append_of_stripSuffixText {s p rest : String} (h : stripSuffixText s p = some rest) :
    s = rest ++ p := by
  unfold stripSuffixText at h
  split_ifs at h with hend
  obtain ⟨head, hhead⟩ := List.isSuffixOf_iff_suffix.mp hend
  apply String.toList_injective
  rw [← Option.some.inj h, String.toList_append, String.toList_ofList, ← hhead,
    List.length_append, Nat.add_sub_cancel, List.take_left]

/-! ### Character by character -/

theorem map_eq_of_toList {f : Char → Char} {s t : String} (h : s.toList.map f = t.toList) :
    s.map f = t := by
  apply String.toList_injective
  rw [String.toList_map, h]

theorem map_congr_on {f g : Char → Char} {s : String} (h : ∀ c ∈ s.toList, f c = g c) :
    s.map f = s.map g := by
  apply String.toList_injective
  rw [String.toList_map, String.toList_map]
  exact List.map_congr_left h

theorem toLower_of_not_upper {c : Char} (h : ¬ (c.val ≥ 'A'.val ∧ c.val ≤ 'Z'.val)) :
    c.toLower = c :=
  dif_neg h

theorem toLower_val {c : Char} (h : c.val ≥ 'A'.val ∧ c.val ≤ 'Z'.val) :
    97 ≤ c.toLower.val.toNat ∧ c.toLower.val.toNat ≤ 122 := by
  have hval : c.toLower.val = c.val + ('a'.val - 'A'.val) := congrArg Char.val (dif_pos h)
  have hlow := UInt32.le_iff_toNat_le.mp h.1
  have hhigh := UInt32.le_iff_toNat_le.mp h.2
  have hshift : ('a'.val - 'A'.val).toNat = 32 := by decide
  have hA : 'A'.val.toNat = 65 := by decide
  have hZ : 'Z'.val.toNat = 90 := by decide
  rw [hval, UInt32.toNat_add]
  omega

theorem toLower_toLower (c : Char) : c.toLower.toLower = c.toLower := by
  by_cases h : c.val ≥ 'A'.val ∧ c.val ≤ 'Z'.val
  · apply toLower_of_not_upper
    intro hupper
    have hrange := toLower_val h
    have hhigh := UInt32.le_iff_toNat_le.mp hupper.2
    have hZ : 'Z'.val.toNat = 90 := by decide
    omega
  · rw [toLower_of_not_upper h, toLower_of_not_upper h]

/-- Only ASCII letters are in the image of what `toLower` changes. -/
theorem eq_of_toLower_eq {c d : Char} (hd : d.val.toNat < 97 ∨ 122 < d.val.toNat)
    (h : c.toLower = d) : c = d := by
  by_cases hupper : c.val ≥ 'A'.val ∧ c.val ≤ 'Z'.val
  · have hrange := toLower_val hupper
    rw [h] at hrange
    omega
  · rw [← h, toLower_of_not_upper hupper]

end Kit.Text

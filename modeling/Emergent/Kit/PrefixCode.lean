import Mathlib.Data.List.Infix
import Mathlib.Tactic

/-!
# Texts written in code units

A code gives each symbol its code units. When no symbol's units begin
another's, a text can be read back from its units, and what a program decides
on the units (prefixes, a final mark, a mark anywhere) it decides on the text.
-/

namespace Kit.PrefixCode

variable {α υ : Type*}

/-- Reading the units of a symbol off the front of a text gives that symbol back. -/
structure IsPrefixCode (code : α → List υ) : Prop where
  ne_nil : ∀ a, code a ≠ []
  instant : ∀ a b rest rest', code a ++ rest = code b ++ rest' → a = b

/-- `a` is written as the one unit `u`, which occurs in no other symbol. -/
structure IsMark (code : α → List υ) (a : α) (u : υ) : Prop where
  code_eq : code a = [u]
  only : ∀ b, u ∈ code b → b = a

def encode (code : α → List υ) (text : List α) : List υ := text.flatMap code

variable {code : α → List υ}

theorem encode_append (xs ys : List α) :
    encode code (xs ++ ys) = encode code xs ++ encode code ys :=
  List.flatMap_append

theorem encode_cons (x : α) (xs : List α) : encode code (x :: xs) = code x ++ encode code xs :=
  List.flatMap_cons

/-! ### Prefixes -/

theorem encode_prefix_iff (hcode : IsPrefixCode code) (xs ys : List α) :
    encode code xs <+: encode code ys ↔ xs <+: ys := by
  constructor
  · intro h
    induction xs generalizing ys with
    | nil => exact List.nil_prefix
    | cons x xs ih =>
      rw [encode_cons] at h
      cases ys with
      | nil =>
        have hnil := List.prefix_nil.mp h
        exact absurd (List.append_eq_nil_iff.mp hnil).1 (hcode.ne_nil x)
      | cons y ys =>
        rw [encode_cons] at h
        obtain ⟨rest, hrest⟩ := h
        rw [List.append_assoc] at hrest
        have hxy : x = y := hcode.instant x y _ _ hrest
        subst hxy
        have htail := List.append_cancel_left hrest
        exact List.cons_prefix_cons.mpr ⟨rfl, ih ys ⟨rest, htail⟩⟩
  · intro ⟨rest, hrest⟩
    exact ⟨encode code rest, by rw [← hrest, encode_append]⟩

theorem encode_injective (hcode : IsPrefixCode code) {xs ys : List α}
    (h : encode code xs = encode code ys) : xs = ys := by
  have hxy : xs <+: ys := (encode_prefix_iff hcode xs ys).mp (by rw [h])
  have hyx : ys <+: xs := (encode_prefix_iff hcode ys xs).mp (by rw [h])
  exact hxy.eq_of_length_le hyx.length_le

theorem encode_eq_nil (hcode : IsPrefixCode code) {xs : List α} :
    encode code xs = [] ↔ xs = [] := by
  constructor
  · intro h
    exact encode_injective hcode h
  · intro h
    rw [h]
    rfl

/-! ### Marks -/

variable {a : α} {u : υ}

theorem mem_encode (hmark : IsMark code a u) (xs : List α) :
    u ∈ encode code xs ↔ a ∈ xs := by
  rw [encode, List.mem_flatMap]
  constructor
  · intro ⟨b, hb, hu⟩
    rw [← hmark.only b hu]
    exact hb
  · intro ha
    exact ⟨a, ha, by rw [hmark.code_eq]; exact List.mem_singleton_self u⟩

theorem encode_snoc (hmark : IsMark code a u) (xs : List α) :
    encode code (xs ++ [a]) = encode code xs ++ [u] := by
  rw [encode_append, encode_cons, hmark.code_eq]
  rfl

theorem getLast?_encode (hcode : IsPrefixCode code) (hmark : IsMark code a u) (xs : List α) :
    (encode code xs).getLast? = some u ↔ xs.getLast? = some a := by
  cases xs using List.reverseRecOn with
  | nil => simp [encode]
  | append_singleton xs b =>
    have hlast : encode code (xs ++ [b]) = encode code xs ++ code b := by
      rw [encode_append, encode_cons]
      simp [encode]
    rw [hlast, List.getLast?_append_of_ne_nil _ (hcode.ne_nil b), List.getLast?_concat,
      Option.some.injEq]
    constructor
    · intro h
      exact hmark.only b (List.mem_of_getLast? h)
    · intro h
      rw [h, hmark.code_eq]
      rfl

theorem encode_eq_snoc (hcode : IsPrefixCode code) (hmark : IsMark code a u) {xs : List α}
    {units : List υ} :
    encode code xs = units ++ [u] ↔ ∃ ys, xs = ys ++ [a] ∧ units = encode code ys := by
  constructor
  · intro h
    have hlast : xs.getLast? = some a := by
      apply (getLast?_encode hcode hmark xs).mp
      rw [h, List.getLast?_concat]
    have hxs : xs = xs.dropLast ++ [a] := (List.dropLast_append_getLast? a hlast).symm
    refine ⟨xs.dropLast, hxs, ?_⟩
    rw [hxs, encode_snoc hmark] at h
    exact (List.append_cancel_right h).symm
  · intro ⟨ys, hxs, hunits⟩
    rw [hxs, hunits, encode_snoc hmark]

/-! ### What stands before a final mark -/

variable [DecidableEq υ]

/-- The units before a final `mark` that is the only one. -/
def soleFinal (mark : υ) (units : List υ) : Option (List υ) :=
  if units.getLast? = some mark then
    if units.dropLast.contains mark then none else some units.dropLast
  else none

theorem soleFinal_eq_some {mark : υ} {units before : List υ} :
    soleFinal mark units = some before ↔ units = before ++ [mark] ∧ mark ∉ before := by
  unfold soleFinal
  constructor
  · intro h
    split_ifs at h with hlast hmark
    have hbefore : units.dropLast = before := Option.some.inj h
    rw [← hbefore]
    refine ⟨(List.dropLast_append_getLast? mark hlast).symm, ?_⟩
    simpa using hmark
  · intro ⟨hunits, hmark⟩
    rw [hunits, List.getLast?_concat, List.dropLast_concat, if_pos rfl, if_neg]
    simpa using hmark

theorem soleFinal_encode [DecidableEq α] (hcode : IsPrefixCode code) (hmark : IsMark code a u)
    (xs : List α) : soleFinal u (encode code xs) = (soleFinal a xs).map (encode code) := by
  by_cases hlast : xs.getLast? = some a
  · have hxs : xs = xs.dropLast ++ [a] := (List.dropLast_append_getLast? a hlast).symm
    have hunits : (encode code xs).getLast? = some u := (getLast?_encode hcode hmark xs).mpr hlast
    have hdrop : (encode code xs).dropLast = encode code xs.dropLast := by
      rw [hxs, encode_snoc hmark, List.dropLast_concat, ← hxs]
    have hmem : (encode code xs.dropLast).contains u = xs.dropLast.contains a := by
      rw [Bool.eq_iff_iff, List.contains_iff_mem, List.contains_iff_mem]
      exact mem_encode hmark _
    rw [soleFinal, soleFinal, if_pos hunits, if_pos hlast, hdrop, hmem]
    cases xs.dropLast.contains a <;> rfl
  · have hunits : (encode code xs).getLast? ≠ some u := by
      intro h
      exact hlast ((getLast?_encode hcode hmark xs).mp h)
    rw [soleFinal, soleFinal, if_neg hunits, if_neg hlast]
    rfl

end Kit.PrefixCode

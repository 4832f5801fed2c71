import Emergent.Engine.MarketplaceSteps

/-!
# Checksums of an install (`marketplace/installer.rs`, `registry.rs`)

An archive is unpacked after its bytes were compared with a sum: the one the
release's `checksums.txt` gives its file name, or else the one the manifest
carries, or with none at all. A request for `checksums.txt` that fails counts
like a release that publishes no such file.
-/

namespace Emergent.Engine.Marketplace
open Kit Kit.Text Kit.Paths Kit.Fallible

/-! ### Lines of a checksum file -/

/-- A line that gives a file its sum: white space around, a gap after the sum and
any stars before the name, which may again stand apart from them. -/
structure ChecksumLine where
  pad : List Char
  sum : List Char
  gap : List Char
  stars : List Char
  apart : List Char
  name : List Char
  pad' : List Char
  white_pad : ∀ c ∈ pad, isWhite c = true
  white_pad' : ∀ c ∈ pad', isWhite c = true
  sum_ne : sum ≠ []
  sum_word : ∀ c ∈ sum, isWhite c = false
  no_comment : sum.head? ≠ some '#'
  gap_ne : gap ≠ []
  white_gap : ∀ c ∈ gap, isWhite c = true
  all_stars : ∀ c ∈ stars, c = '*'
  white_apart : ∀ c ∈ apart, isWhite c = true
  name_ne : name ≠ []
  head_name : ∀ c ∈ name.head?, isWhite c = false
  last_name : ∀ c ∈ name.getLast?, isWhite c = false
  apart_of_stars : stars = [] → apart = []
  name_of_apart : apart = [] → name.head? ≠ some '*'

/-- The line without the white space around it. -/
def ChecksumLine.core (l : ChecksumLine) : List Char :=
  l.sum ++ (l.gap ++ (l.stars ++ (l.apart ++ l.name)))

def ChecksumLine.text (l : ChecksumLine) : List Char := l.pad ++ (l.core ++ l.pad')

/-- The line is read as giving the file this sum. -/
def Names (line filename sum : String) : Prop :=
  ∃ l : ChecksumLine, l.text = line.toList ∧ l.name = filename.toList ∧ l.sum = sum.toList

/-- The last line about the file gives it this sum. -/
def LastNames (text filename sum : String) : Prop :=
  ∃ before line after, lines text = before ++ line :: after ∧ Names line filename sum ∧
    ∀ later ∈ after, ∀ other, ¬ Names later filename other

theorem ChecksumLine.core_ne (l : ChecksumLine) : l.core ≠ [] := by
  intro h
  exact l.sum_ne (List.append_eq_nil_iff.mp h).1

theorem ChecksumLine.head_core (l : ChecksumLine) : l.core.head? = l.sum.head? :=
  List.head?_append_of_ne_nil _ l.sum_ne

theorem ChecksumLine.last_core (l : ChecksumLine) : l.core.getLast? = l.name.getLast? := by
  have hassoc : l.core = (l.sum ++ (l.gap ++ (l.stars ++ l.apart))) ++ l.name := by
    simp only [core, List.append_assoc]
  rw [hassoc, List.getLast?_append_of_ne_nil _ l.name_ne]

theorem ChecksumLine.stripped_text (l : ChecksumLine) : stripped isWhite l.text = l.core := by
  refine stripped_append l.white_pad l.core_ne ?_ ?_ l.white_pad'
  · rw [l.head_core]
    intro c hc
    exact l.sum_word c (List.mem_of_mem_head? hc)
  · rw [l.last_core]
    exact l.last_name

theorem ChecksumLine.cut_sum (l : ChecksumLine) :
    (l.core.takeWhile fun c => !isWhite c) = l.sum ∧
      (l.core.dropWhile fun c => !isWhite c) = l.gap ++ (l.stars ++ (l.apart ++ l.name)) := by
  apply cut_append
  · intro c hc
    rw [l.sum_word c hc]
    rfl
  · rw [List.head?_append_of_ne_nil _ l.gap_ne]
    intro c hc
    rw [l.white_gap c (List.mem_of_mem_head? hc)]
    rfl

theorem ChecksumLine.head_rest (l : ChecksumLine) :
    ∀ c ∈ (l.stars ++ (l.apart ++ l.name)).head?, isWhite c = false := by
  intro c hc
  cases hstars : l.stars with
  | nil =>
    rw [hstars, l.apart_of_stars hstars] at hc
    exact l.head_name c hc
  | cons star stars =>
    have hstar : star = '*' := l.all_stars star (by rw [hstars]; exact List.mem_cons_self)
    rw [hstars] at hc
    rw [← Option.some.inj hc, hstar]
    decide

/-- After the character that ends the sum, the rest of the gap is trimmed. -/
theorem ChecksumLine.cut_gap (l : ChecksumLine) :
    (((l.gap ++ (l.stars ++ (l.apart ++ l.name))).drop 1).dropWhile isWhite) =
      l.stars ++ (l.apart ++ l.name) := by
  cases hgap : l.gap with
  | nil => exact absurd hgap l.gap_ne
  | cons c gap =>
    have hwhite : ∀ d ∈ gap, isWhite d = true := by
      intro d hd
      exact l.white_gap d (by rw [hgap]; exact List.mem_cons_of_mem _ hd)
    exact (cut_append hwhite l.head_rest).2

theorem ChecksumLine.cut_stars (l : ChecksumLine) :
    ((l.stars ++ (l.apart ++ l.name)).dropWhile fun c => c = '*') = l.apart ++ l.name := by
  refine (cut_append ?_ ?_).2
  · intro c hc
    exact decide_eq_true (l.all_stars c hc)
  · intro c hc
    apply decide_eq_false
    intro hstar
    rw [hstar] at hc
    cases hapart : l.apart with
    | nil =>
      rw [hapart] at hc
      exact l.name_of_apart hapart hc
    | cons d apart =>
      have hd := l.white_apart d (by rw [hapart]; exact List.mem_cons_self)
      rw [hapart] at hc
      rw [Option.some.inj hc] at hd
      exact absurd hd (by decide)

theorem ChecksumLine.stripped_name (l : ChecksumLine) :
    stripped isWhite (l.apart ++ l.name) = l.name := by
  have hnone : ∀ c ∈ ([] : List Char), isWhite c = true := by simp
  have hcut := stripped_append l.white_apart l.name_ne l.head_name l.last_name hnone
  rwa [List.append_nil] at hcut

theorem parseChecksumLine_of_names {line filename sum : String} (h : Names line filename sum) :
    parseChecksumLine line = some (filename, sum.toLower) := by
  obtain ⟨l, htext, hname, hsum⟩ := h
  have htrim : (trim line).toList = l.core := by
    rw [trim, String.toList_ofList, ← htext, l.stripped_text]
  have hcomment : ¬ (l.core = [] ∨ l.core.head? = some '#') := by
    rw [l.head_core]
    rintro (hempty | hhash)
    · exact l.core_ne hempty
    · exact l.no_comment hhash
  have hrest : l.gap ++ (l.stars ++ (l.apart ++ l.name)) ≠ [] := by
    intro hnil
    exact l.gap_ne (List.append_eq_nil_iff.mp hnil).1
  have hfile : trim (String.ofList (l.apart ++ l.name)) = filename := by
    rw [trim, String.toList_ofList, l.stripped_name, hname, String.ofList_toList]
  have hnonempty : ¬ (sum.toList = [] ∨ filename = "") := by
    rw [← hsum]
    rintro (hempty | hempty)
    · exact l.sum_ne hempty
    · rw [hempty] at hname
      exact l.name_ne hname
  simp only [parseChecksumLine, htrim, if_neg hcomment, l.cut_sum.1, l.cut_sum.2, l.cut_gap,
    l.cut_stars, if_neg hrest, hfile, hsum, if_neg hnonempty, String.ofList_toList]

/-- What the reader makes of the rest of a line after its sum. -/
theorem split_rest (rest : List Char) {named name : List Char}
    (hnamed : named = (rest.dropWhile isWhite).dropWhile fun c => c = '*')
    (hname : name = stripped isWhite named) :
    ∃ gap stars apart pad' : List Char, rest = gap ++ (stars ++ (apart ++ (name ++ pad'))) ∧
      (∀ c ∈ gap, isWhite c = true) ∧ (∀ c ∈ stars, c = '*') ∧ (∀ c ∈ apart, isWhite c = true) ∧
      (∀ c ∈ pad', isWhite c = true) ∧ (stars = [] → apart = []) ∧
      (name ≠ [] → apart = [] → name.head? ≠ some '*') := by
  obtain ⟨apart, pad', hsplit, hapart, hpad'⟩ := stripped_split isWhite named
  rw [← hname] at hsplit
  have hgap := List.takeWhile_append_dropWhile (p := isWhite) (l := rest)
  have hstars := List.takeWhile_append_dropWhile (p := fun c => c = '*')
    (l := rest.dropWhile isWhite)
  rw [← hnamed, hsplit] at hstars
  have hmarked := head_dropWhile isWhite rest
  have hfirst := head_dropWhile (fun c => c = '*') (rest.dropWhile isWhite)
  rw [← hnamed, hsplit] at hfirst
  refine ⟨rest.takeWhile isWhite, (rest.dropWhile isWhite).takeWhile fun c => c = '*', apart,
    pad', ?_, ?_, ?_, hapart, hpad', ?_, ?_⟩
  · rw [hstars, hgap]
  · intro c hc
    exact List.mem_takeWhile_imp hc
  · intro c hc
    exact of_decide_eq_true (List.mem_takeWhile_imp (p := fun d => decide (d = '*')) hc)
  · intro hnil
    cases apart with
    | nil => rfl
    | cons c apart =>
      rw [hnil, List.nil_append] at hstars
      have hnot := hmarked c (by rw [← hstars]; rfl)
      rw [hapart c List.mem_cons_self] at hnot
      cases hnot
  · intro hne hnil hstar
    rw [hnil, List.nil_append, List.head?_append_of_ne_nil _ hne, hstar] at hfirst
    exact absurd (hfirst '*' rfl) (by decide)

theorem names_of_parseChecksumLine {line filename hex : String}
    (h : parseChecksumLine line = some (filename, hex)) :
    ∃ sum, Names line filename sum ∧ hex = sum.toLower := by
  obtain ⟨pad, pad', hline, hpad, hpad'⟩ := stripped_split isWhite line.toList
  have htrim : (trim line).toList = stripped isWhite line.toList := by
    rw [trim, String.toList_ofList]
  generalize stripped isWhite line.toList = core at hline htrim
  simp only [parseChecksumLine, htrim] at h
  split_ifs at h with hcomment hrest hempty
  obtain ⟨hfile, hhex⟩ := Prod.mk.inj (Option.some.inj h)
  have hsplit := List.takeWhile_append_dropWhile (p := fun c => !isWhite c) (l := core)
  have hafter := head_dropWhile (fun c => !isWhite c) core
  have hsum : ∀ c ∈ core.takeWhile (fun c => !isWhite c), isWhite c = false := by
    intro c hc
    have hnot := List.mem_takeWhile_imp hc
    simpa using hnot
  have hsumHead : (core.takeWhile fun c => !isWhite c).head? ≠ some '#' := by
    intro hhash
    apply hcomment
    right
    rw [← hsplit, List.head?_append, hhash]
    rfl
  cases hcut : core.dropWhile fun c => !isWhite c with
  | nil => exact absurd hcut hrest
  | cons space rest =>
    rw [hcut] at hsplit hafter hfile hempty
    have hspace : isWhite space = true := by
      have hnot := hafter space rfl
      simpa using hnot
    obtain ⟨gap, stars, apart, pad'', hparts, hgap, hstars, hapart, hpad'', hnone, hfirst⟩ :=
      split_rest rest rfl rfl
    have hname : stripped isWhite ((rest.dropWhile isWhite).dropWhile fun c => c = '*') =
        filename.toList := by
      rw [← hfile, trim, String.toList_ofList, String.toList_ofList]
      rfl
    have hhead := head_stripped isWhite ((rest.dropWhile isWhite).dropWhile fun c => c = '*')
    have hlast := last_stripped isWhite ((rest.dropWhile isWhite).dropWhile fun c => c = '*')
    rw [hname] at hparts hfirst hhead hlast
    have hne : filename.toList ≠ [] := by
      intro hnil
      apply hempty
      right
      rw [hfile]
      exact String.toList_injective hnil
    have hwhitePad : ∀ c ∈ pad'' ++ pad', isWhite c = true := by
      intro c hc
      rcases List.mem_append.mp hc with hc | hc
      · exact hpad'' c hc
      · exact hpad' c hc
    have hwhiteGap : ∀ c ∈ space :: gap, isWhite c = true := by
      intro c hc
      rcases List.mem_cons.mp hc with hc | hc
      · rw [hc]
        exact hspace
      · exact hgap c hc
    have hcore : core = (core.takeWhile fun c => !isWhite c) ++
        space :: (gap ++ (stars ++ (apart ++ (filename.toList ++ pad'')))) := by
      rw [← hparts, hsplit]
    have hwhole : pad ++ (((core.takeWhile fun c => !isWhite c) ++ (space :: gap ++
        (stars ++ (apart ++ filename.toList)))) ++ (pad'' ++ pad')) = line.toList := by
      rw [hline]
      conv_rhs => rw [hcore]
      simp only [List.append_assoc, List.cons_append]
    refine ⟨String.ofList (core.takeWhile fun c => !isWhite c), ⟨⟨pad,
      core.takeWhile fun c => !isWhite c, space :: gap, stars, apart, filename.toList,
      pad'' ++ pad', hpad, hwhitePad, fun hnil => hempty (Or.inl hnil), hsum, hsumHead,
      List.cons_ne_nil _ _, hwhiteGap, hstars, hapart, hne, hhead, hlast, hnone, hfirst hne⟩,
      hwhole, rfl, (String.toList_ofList).symm⟩, hhex.symm⟩

theorem parseChecksumLine_eq_some {line filename hex : String} :
    parseChecksumLine line = some (filename, hex) ↔
      ∃ sum, Names line filename sum ∧ hex = sum.toLower := by
  constructor
  · exact names_of_parseChecksumLine
  · rintro ⟨sum, hnames, hhex⟩
    rw [hhex]
    exact parseChecksumLine_of_names hnames

/-! ### The sum of a file -/

/-- The entry a map of these lines has for the file. -/
def sumOf (lines : List String) (filename : String) : Option String :=
  (lines.filterMap parseChecksumLine).reverse.lookup filename

theorem sumOf_concat (lines : List String) (line filename : String) :
    sumOf (lines ++ [line]) filename =
      match parseChecksumLine line with
      | some (name, hex) => if filename = name then some hex else sumOf lines filename
      | none => sumOf lines filename := by
  unfold sumOf
  rw [List.filterMap_append]
  cases hparse : parseChecksumLine line with
  | none => simp [hparse]
  | some named =>
    obtain ⟨name, hex⟩ := named
    by_cases hname : filename = name
    · simp [hparse, hname]
    · have hne : (filename == name) = false := beq_false_of_ne hname
      simp [hparse, hname, List.lookup_cons, hne]

theorem sumOf_eq_none {lines : List String} {filename : String} :
    sumOf lines filename = none ↔ ∀ line ∈ lines, ∀ sum, ¬ Names line filename sum := by
  induction lines using List.reverseRecOn with
  | nil => simp [sumOf]
  | append_singleton lines line ih =>
    rw [sumOf_concat, List.forall_mem_append, ← ih]
    cases hparse : parseChecksumLine line with
    | none =>
      have hnone : ∀ sum, ¬ Names line filename sum := by
        intro sum hnames
        rw [parseChecksumLine_of_names hnames] at hparse
        cases hparse
      simp [hnone]
    | some named =>
      obtain ⟨name, hex⟩ := named
      by_cases hname : filename = name
      · rw [← hname] at hparse
        obtain ⟨sum, hnames, _⟩ := names_of_parseChecksumLine hparse
        simp only [if_pos hname]
        constructor
        · intro h
          cases h
        · intro h
          exact absurd hnames (h.2 line (List.mem_singleton_self line) sum)
      · have hnone : ∀ sum, ¬ Names line filename sum := by
          intro sum hnames
          rw [parseChecksumLine_of_names hnames] at hparse
          exact hname (Prod.mk.inj (Option.some.inj hparse)).1
        simp [hname, hnone]

theorem sumOf_eq_some {lines : List String} {filename hex : String}
    (h : sumOf lines filename = some hex) :
    ∃ before line after sum, lines = before ++ line :: after ∧ Names line filename sum ∧
      (∀ later ∈ after, ∀ other, ¬ Names later filename other) ∧ hex = sum.toLower := by
  induction lines using List.reverseRecOn with
  | nil => cases h
  | append_singleton lines line ih =>
    have hearlier : (∀ sum, ¬ Names line filename sum) → sumOf lines filename = some hex →
        ∃ before line' after sum, lines ++ [line] = before ++ line' :: after ∧
          Names line' filename sum ∧
          (∀ later ∈ after, ∀ other, ¬ Names later filename other) ∧ hex = sum.toLower := by
      intro hnone hlines
      obtain ⟨before, line', after, sum, hsplit, hnames, hafter, hhex⟩ := ih hlines
      refine ⟨before, line', after ++ [line], sum, by rw [hsplit]; simp, hnames, ?_, hhex⟩
      intro later hlater
      rcases List.mem_append.mp hlater with hlater | hlater
      · exact hafter later hlater
      · rw [List.mem_singleton.mp hlater]
        exact hnone
    rw [sumOf_concat] at h
    cases hparse : parseChecksumLine line with
    | none =>
      rw [hparse] at h
      refine hearlier ?_ h
      intro sum hnames
      rw [parseChecksumLine_of_names hnames] at hparse
      cases hparse
    | some named =>
      obtain ⟨name, hex'⟩ := named
      simp only [hparse] at h
      by_cases hname : filename = name
      · rw [if_pos hname] at h
        rw [← hname] at hparse
        obtain ⟨sum, hnames, hhex⟩ := names_of_parseChecksumLine hparse
        refine ⟨lines, line, [], sum, rfl, hnames, by simp, ?_⟩
        rw [← hhex, Option.some.inj h]
      · rw [if_neg hname] at h
        refine hearlier ?_ h
        intro sum hnames
        rw [parseChecksumLine_of_names hnames] at hparse
        exact hname (Prod.mk.inj (Option.some.inj hparse)).1

theorem sumOf_of_last {before after : List String} {line filename sum : String}
    (hnames : Names line filename sum)
    (hafter : ∀ later ∈ after, ∀ other, ¬ Names later filename other) :
    sumOf (before ++ line :: after) filename = some sum.toLower := by
  induction after using List.reverseRecOn with
  | nil => simp [sumOf_concat, parseChecksumLine_of_names hnames]
  | append_singleton after last ih =>
    have hsplit : before ++ line :: (after ++ [last]) = (before ++ line :: after) ++ [last] := by
      simp
    have hrest := ih fun later hlater => hafter later (List.mem_append_left _ hlater)
    rw [hsplit, sumOf_concat, hrest]
    cases hparse : parseChecksumLine last with
    | none => rfl
    | some named =>
      obtain ⟨name, hex⟩ := named
      have hname : filename ≠ name := by
        intro heq
        rw [← heq] at hparse
        obtain ⟨other, hother, _⟩ := names_of_parseChecksumLine hparse
        exact hafter last (List.mem_append_right _ (List.mem_singleton_self last)) other hother
      simp [hname]

theorem lookup_parseChecksums {text filename hex : String} :
    (parseChecksums text).lookup filename = some hex ↔
      ∃ sum, LastNames text filename sum ∧ hex = sum.toLower := by
  change sumOf (lines text) filename = some hex ↔ _
  constructor
  · intro h
    obtain ⟨before, line, after, sum, hlines, hnames, hafter, hhex⟩ := sumOf_eq_some h
    exact ⟨sum, ⟨before, line, after, hlines, hnames, hafter⟩, hhex⟩
  · rintro ⟨sum, ⟨before, line, after, hlines, hnames, hafter⟩, hhex⟩
    rw [hlines, hhex]
    exact sumOf_of_last hnames hafter

theorem lookup_parseChecksums_none {text filename : String} :
    (parseChecksums text).lookup filename = none ↔
      ∀ line ∈ lines text, ∀ sum, ¬ Names line filename sum :=
  sumOf_eq_none

/-! ### Comparing sums -/

theorem isWhite_toLower (c : Char) : isWhite c.toLower = isWhite c := by
  by_cases hupper : c.val ≥ 'A'.val ∧ c.val ≤ 'Z'.val
  · have hlower := toLower_val hupper
    have hlow := UInt32.le_iff_toNat_le.mp hupper.1
    have hhigh := UInt32.le_iff_toNat_le.mp hupper.2
    have hA : 'A'.val.toNat = 65 := by decide
    have hZ : 'Z'.val.toNat = 90 := by decide
    have hnot : isWhite c = false := by
      apply decide_eq_false
      omega
    have hnot' : isWhite c.toLower = false := by
      apply decide_eq_false
      omega
    rw [hnot, hnot']
  · rw [toLower_of_not_upper hupper]

theorem trim_of_word {s : String} (h : ∀ c ∈ s.toList, isWhite c = false) : trim s = s := by
  have hstart : s.toList.dropWhile isWhite = s.toList := by
    have hcut := (cut_append (p := isWhite) (a := []) (b := s.toList) (by simp)
      (fun c hc => h c (List.mem_of_mem_head? hc))).2
    exact hcut
  have hend : s.toList.rdropWhile isWhite = s.toList := by
    have hcut := rdropWhile_append (p := isWhite) (a := s.toList) (b := [])
      (fun c hc => h c (List.mem_of_mem_getLast? hc)) (by simp)
    rwa [List.append_nil] at hcut
  rw [trim, stripped, hstart, hend, String.ofList_toList]

theorem trim_trim (s : String) : trim (trim s) = trim s := by
  have htext : (trim s).toList = stripped isWhite s.toList := by
    rw [trim, String.toList_ofList]
  have hhead := head_stripped isWhite s.toList
  have hlast := last_stripped isWhite s.toList
  have hcut : (stripped isWhite s.toList).dropWhile isWhite = stripped isWhite s.toList :=
    (cut_append (p := isWhite) (a := []) (by simp) hhead).2
  have hend := rdropWhile_append (p := isWhite) (b := []) hlast (by simp)
  rw [List.append_nil] at hend
  rw [trim, htext, stripped, hcut, hend, trim]

theorem toList_toLower (s : String) : s.toLower.toList = s.toList.map Char.toLower := by
  show (s.map Char.toLower).toList = _
  exact String.toList_map

theorem Names.toLower_word {line filename sum : String} (h : Names line filename sum) :
    ∀ c ∈ sum.toLower.toList, isWhite c = false := by
  obtain ⟨l, _, _, hsum⟩ := h
  intro c hc
  rw [toList_toLower] at hc
  obtain ⟨d, hd, hlower⟩ := List.mem_map.mp hc
  rw [← hlower, isWhite_toLower]
  exact l.sum_word d (by rw [hsum]; exact hd)

theorem toLower_toLower_string (s : String) : s.toLower.toLower = s.toLower := by
  apply String.toList_injective
  rw [toList_toLower, toList_toLower, List.map_map]
  apply List.map_congr_left
  intro c _
  exact toLower_toLower c

theorem eqIgnoreAsciiCase_iff {s t : String} :
    eqIgnoreAsciiCase s t = true ↔ s.toLower = t.toLower := decide_eq_true_iff

theorem Names.eq_trim_toLower {line filename sum : String} (h : Names line filename sum)
    (actual : String) :
    eqIgnoreAsciiCase actual (trim sum.toLower) = eqIgnoreAsciiCase actual sum := by
  rw [trim_of_word h.toLower_word, eqIgnoreAsciiCase, eqIgnoreAsciiCase, toLower_toLower_string]

/-! ### What a release lists and what is in force -/

/-- The format the reader documents: a sum, white space, the name with a star
before it or without, and white space around. -/
def ListsOn (line filename sum : String) : Prop :=
  ∃ pad gap star pad' : List Char,
    line.toList = pad ++ (sum.toList ++ (gap ++ (star ++ (filename.toList ++ pad')))) ∧
    (∀ c ∈ pad ++ pad', isWhite c = true) ∧ (gap ≠ [] ∧ ∀ c ∈ gap, isWhite c = true) ∧
    (star = [] ∨ star = ['*']) ∧
    (sum ≠ "" ∧ sum.toList.head? ≠ some '#' ∧ ∀ c ∈ sum.toList, isWhite c = false)

def Lists (text filename sum : String) : Prop := ∃ line ∈ lines text, ListsOn line filename sum

/-- A request that is answered brings this text. -/
def Serves (response : Response String) (text : String) : Prop :=
  ∀ body, response = .body body → body = text

section
variable (site : Site) (tools : Tools) (a : InstallAnswers) (options : InstallOptions) (w : World)

def checksumsUrl (release : Release) : String :=
  assetUrl release.manifest.binaries.releaseUrl (some release.version) checksumsFile

/-- The sum of the last line about the archive in the text that was fetched, and
the manifest's own when nothing was fetched or no line is about it. -/
def SumInForce (release : Release) (sum : String) : Prop :=
  (∃ text, a.checksums (checksumsUrl release) = .body text ∧
    LastNames text release.filename sum) ∨
  ((∀ text, a.checksums (checksumsUrl release) = .body text →
      ∀ line ∈ lines text, ∀ other, ¬ Names line release.filename other) ∧
    release.manifest.binaries.checksumFor site.platform = some sum)

/-- Every step but the check succeeds, with these bytes in the archive. -/
def OtherStepsSucceed (release : Release) (bytes : Bytes) : Prop :=
  options.dryRun = false ∧ ∃ w₁ archive w₂ result w₃,
    resolveRelease site tools a options w = (.ok release, w₁) ∧
    fetchArchive site tools a release w₁ = (.ok archive, w₂) ∧
    w₂.contents archive = some bytes ∧
    placeBinary site tools a options release archive w₂ = (.ok result, w₃)

/-- Whatever sum the release lists for the archive, an install that ends well has
unpacked bytes with this sum. -/
def NeverFailsOpen : Prop :=
  ∀ release text sum, (resolveRelease site tools a options w).1 = .ok release →
    Serves (a.checksums (checksumsUrl release)) text → Lists text release.filename sum →
    options.dryRun = false → ∀ result w', install site tools a options w = (.ok result, w') →
    ∃ bytes, w'.unpacked = some bytes ∧ eqIgnoreAsciiCase (tools.sha256Hex bytes) sum = true

/-- The sum in force is the listed one, or refuses the bytes, unless these have
the listed one anyhow. -/
def SumProtects (release : Release) (sum : String) (bytes : Bytes) : Prop :=
  eqIgnoreAsciiCase (tools.sha256Hex bytes) sum = true ∨
  ∃ inForce, SumInForce site a release inForce ∧
    (eqIgnoreAsciiCase inForce sum = true ∨ a.readsArchive = false ∨
      eqIgnoreAsciiCase (tools.sha256Hex bytes) inForce = false)

end

section
variable {site : Site} {tools : Tools} {a : InstallAnswers} {options : InstallOptions} {w : World}
  {release : Release}

theorem releaseChecksums_cases (a : InstallAnswers) (release : Release) :
    (∃ text, a.checksums (checksumsUrl release) = .body text ∧
      releaseChecksums a.checksums release.manifest.binaries.releaseUrl release.version =
        some (parseChecksums text)) ∨
    ((∀ text, a.checksums (checksumsUrl release) ≠ .body text) ∧
      releaseChecksums a.checksums release.manifest.binaries.releaseUrl release.version = none) := by
  have hurl : assetUrl release.manifest.binaries.releaseUrl (some release.version) checksumsFile =
      checksumsUrl release := rfl
  unfold releaseChecksums
  simp only [hurl]
  cases hresponse : a.checksums (checksumsUrl release) with
  | body text => exact Or.inl ⟨text, rfl, rfl⟩
  | unsent => exact Or.inr ⟨by simp, rfl⟩
  | refused status => exact Or.inr ⟨by simp, rfl⟩
  | unread => exact Or.inr ⟨by simp, rfl⟩

theorem checksumFor_trim {info : BinaryInfo} {target sum : String}
    (h : info.checksumFor target = some sum) : trim sum = sum := by
  obtain ⟨raw, _, hraw⟩ := Option.map_eq_some_iff.mp (Option.filter_eq_some_iff.mp h).1
  rw [← hraw, trim_trim]

/-- What `expected_checksum` answers is the sum in force, as far as a comparison
tells. -/
theorem expectedFor_of_inForce {sum : String} (h : SumInForce site a release sum) :
    ∃ expected, expectedFor site a release = some expected ∧ ∀ actual,
      eqIgnoreAsciiCase actual (trim expected) = eqIgnoreAsciiCase actual sum := by
  unfold expectedFor expectedChecksum
  rcases h with ⟨text, htext, hlast⟩ | ⟨hunnamed, hown⟩
  · rcases releaseChecksums_cases a release with ⟨text', htext', hsums⟩ | ⟨hno, _⟩
    · rw [htext] at htext'
      have hlookup := lookup_parseChecksums.mpr ⟨sum, hlast, rfl⟩
      refine ⟨sum.toLower, ?_, ?_⟩
      · rw [hsums, ← Response.body.inj htext', Option.bind_some, hlookup, Option.some_or]
      · obtain ⟨_, _, _, _, hnames, _⟩ := hlast
        exact hnames.eq_trim_toLower
    · exact absurd htext (hno text)
  · refine ⟨sum, ?_, fun actual => by rw [checksumFor_trim hown]⟩
    rcases releaseChecksums_cases a release with ⟨text, htext, hsums⟩ | ⟨_, hsums⟩
    · have hlookup := lookup_parseChecksums_none.mpr (hunnamed text htext)
      rw [hsums, Option.bind_some, hlookup, Option.none_or, hown]
    · rw [hsums, Option.bind_none, Option.none_or, hown]

theorem inForce_of_expectedFor {expected : String}
    (h : expectedFor site a release = some expected) : ∃ sum, SumInForce site a release sum := by
  unfold expectedFor expectedChecksum at h
  rcases releaseChecksums_cases a release with ⟨text, htext, hsums⟩ | ⟨hno, hsums⟩
  · rw [hsums, Option.bind_some] at h
    cases hlookup : (parseChecksums text).lookup release.filename with
    | some hex =>
      obtain ⟨sum, hlast, _⟩ := lookup_parseChecksums.mp hlookup
      exact ⟨sum, Or.inl ⟨text, htext, hlast⟩⟩
    | none =>
      rw [hlookup, Option.none_or] at h
      refine ⟨expected, Or.inr ⟨?_, h⟩⟩
      intro text' htext' line hline other
      rw [htext] at htext'
      rw [← Response.body.inj htext'] at hline
      exact lookup_parseChecksums_none.mp hlookup line hline other
  · rw [hsums, Option.bind_none, Option.none_or] at h
    exact ⟨expected, Or.inr ⟨fun text htext => absurd htext (hno text), h⟩⟩

/-! ### The check -/

/-- The archive passes when no sum is in force, or it is read back and has it. -/
theorem verifyArchive_ok_iff {archive : PathBuf} {bytes : Bytes}
    (hbytes : w.contents archive = some bytes) :
    (∃ verified, verifyArchive tools a.readsArchive archive (expectedFor site a release) w =
        (.ok verified, w)) ↔
      ∀ sum, SumInForce site a release sum → a.readsArchive = true ∧
        eqIgnoreAsciiCase (tools.sha256Hex bytes) sum = true := by
  cases hexpected : expectedFor site a release with
  | none =>
    constructor
    · intro _ sum hsum
      obtain ⟨expected, hsome, _⟩ := expectedFor_of_inForce hsum
      rw [hexpected] at hsome
      cases hsome
    · intro _
      exact ⟨false, rfl⟩
  | some expected =>
    obtain ⟨sum, hsum⟩ := inForce_of_expectedFor hexpected
    have hsame : ∀ sum, SumInForce site a release sum →
        eqIgnoreAsciiCase (tools.sha256Hex bytes) (trim expected) =
          eqIgnoreAsciiCase (tools.sha256Hex bytes) sum := by
      intro other hother
      obtain ⟨expected', hsome, heq⟩ := expectedFor_of_inForce hother
      rw [hexpected] at hsome
      rw [Option.some.inj hsome]
      exact heq _
    constructor
    · rintro ⟨verified, hverified⟩ other hother
      obtain ⟨read, w₁, hread, hrest⟩ := bind_eq_ok.mp hverified
      obtain ⟨hreads, hcontents, _⟩ := readFile_eq_ok hread
      obtain ⟨_, w₂, hcheck, _⟩ := bind_eq_ok.mp hrest
      have hpassed := (Prod.mk.inj hcheck).1
      rw [hbytes] at hcontents
      rw [← Option.some.inj hcontents, checkChecksum] at hpassed
      refine ⟨hreads, ?_⟩
      rw [← hsame other hother]
      by_contra hnot
      rw [if_neg hnot] at hpassed
      cases hpassed
    · intro h
      obtain ⟨hreads, hequal⟩ := h sum hsum
      rw [← hsame sum hsum] at hequal
      refine ⟨true, ?_⟩
      have hpassed : checkChecksum (tools.sha256Hex bytes) expected = .ok () := if_pos hequal
      rw [hreads, verifyArchive, bind_of_ok (readFile_of_contents hbytes)]
      have hinspect : (Fallible.inspect (fun _ => checkChecksum (tools.sha256Hex bytes) expected) :
          Op Unit) w = (.ok (), w) := by
        rw [hpassed]
        rfl
      exact bind_of_ok hinspect

/-! ### The bytes that are unpacked -/

theorem placeEntries_unpacked (dest : PathBuf) (written : List (List String × Option Bytes))
    (w : World) : (placeEntries dest written w).unpacked = w.unpacked := by
  induction written generalizing w with
  | nil => rfl
  | cons entry written ih => exact ih _

theorem extractArchive_unpacked {archive dest : PathBuf} {w' : World}
    (h : extractArchive tools a archive dest w = (.ok (), w')) :
    w'.unpacked = w.contents archive := by
  obtain ⟨bytes, w₁, hread, h⟩ := bind_eq_ok.mp h
  obtain ⟨_, hcontents, _⟩ := readFile_eq_ok hread
  obtain ⟨format, w₂, _, h⟩ := bind_eq_ok.mp h
  obtain ⟨_, w₃, hunpack, h⟩ := bind_eq_ok.mp h
  have hstate : w₂.unpack a.unpacks (tools.unpack format bytes).1 bytes dest = w₃ :=
    (Prod.mk.inj hunpack).2
  have hsame : w₃ = w' := (Prod.mk.inj h).2
  rw [← hsame, ← hstate, hcontents, World.unpack, placeEntries_unpacked]

def SameUnpacked (w w' : World) : Prop := w'.unpacked = w.unpacked

instance : Std.Refl SameUnpacked := ⟨fun _ => rfl⟩

instance : IsTrans World SameUnpacked := ⟨fun _ _ _ h h' => h'.trans h⟩

theorem write_unpacked (w : World) (answer : WriteAnswer) (path : PathBuf) (content : Bytes) :
    SameUnpacked w (w.write answer path content) := by
  cases answer <;> rfl

theorem placeBinary_unpacked {archive : PathBuf} {result : InstallResult} {w' : World}
    (h : placeBinary site tools a options release archive w = (.ok result, w')) :
    w'.unpacked = w.contents archive := by
  obtain ⟨_, w₁, hextract, h⟩ := bind_eq_ok.mp h
  have hrest : Keeps SameUnpacked (do
      setExecutable a (join (binDir site) options.name)
      recordInstalled site tools a options.name release (join (binDir site) options.name)
      pure ⟨options.name, release.version, join (binDir site) options.name⟩ : Op InstallResult) := by
    refine Keeps.bind (keeps_setExecutable fun _ => rfl) ?_
    intro _
    refine Keeps.bind (keeps_recordInstalled fun w content => write_unpacked w _ _ content) ?_
    intro _
    exact Keeps.pure _
  have hsame : w'.unpacked = w₁.unpacked := hrest.of_eq h
  rw [hsame, extractArchive_unpacked hextract]

/-- An install that is no dry run ends well when every other step does and no sum
in force refuses the bytes. -/
theorem install_eq_ok {result : InstallResult} {w' : World} (hdry : options.dryRun = false) :
    install site tools a options w = (.ok result, w') ↔
      ∃ release w₁ archive w₂ bytes,
        resolveRelease site tools a options w = (.ok release, w₁) ∧
        fetchArchive site tools a release w₁ = (.ok archive, w₂) ∧
        w₂.contents archive = some bytes ∧
        (∀ sum, SumInForce site a release sum → a.readsArchive = true ∧
          eqIgnoreAsciiCase (tools.sha256Hex bytes) sum = true) ∧
        placeBinary site tools a options release archive w₂ = (.ok result, w') := by
  have hinstall : install site tools a options = resolveRelease site tools a options >>=
      fun release => fetchArchive site tools a release >>= fun archive =>
        verifyArchive tools a.readsArchive archive (expectedFor site a release) >>= fun _ =>
          placeBinary site tools a options release archive := by
    unfold install
    rw [hdry]
    rfl
  rw [hinstall]
  constructor
  · intro h
    obtain ⟨release, w₁, hresolve, h⟩ := bind_eq_ok.mp h
    obtain ⟨archive, w₂, hfetch, h⟩ := bind_eq_ok.mp h
    obtain ⟨verified, w₃, hverify, h⟩ := bind_eq_ok.mp h
    obtain ⟨bytes, hbytes⟩ := fetchArchive_contents hfetch
    cases verifyArchive_state hverify
    exact ⟨release, w₁, archive, w₂, bytes, hresolve, hfetch, hbytes,
      (verifyArchive_ok_iff hbytes).mp ⟨verified, hverify⟩, h⟩
  · rintro ⟨release, w₁, archive, w₂, bytes, hresolve, hfetch, hbytes, hsums, hplace⟩
    obtain ⟨verified, hverify⟩ := (verifyArchive_ok_iff hbytes).mpr hsums
    exact bind_eq_ok.mpr ⟨release, w₁, hresolve, bind_eq_ok.mpr ⟨archive, w₂, hfetch,
      bind_eq_ok.mpr ⟨verified, w₂, hverify, hplace⟩⟩⟩

end

/-- An install never fails open exactly when the sum in force protects every
archive that would get through all other steps. -/
theorem install_neverFailsOpen_iff (site : Site) (tools : Tools) (a : InstallAnswers)
    (options : InstallOptions) (w : World) :
    NeverFailsOpen site tools a options w ↔
      ∀ release text sum, Serves (a.checksums (checksumsUrl release)) text →
        Lists text release.filename sum →
        ∀ bytes, OtherStepsSucceed site tools a options w release bytes →
          SumProtects site tools a release sum bytes := by
  constructor
  · intro h release text sum hserves hlists bytes hother
    obtain ⟨hdry, w₁, archive, w₂, result, w₃, hresolve, hfetch, hbytes, hplace⟩ := hother
    by_contra hopen
    have hunequal : ¬ eqIgnoreAsciiCase (tools.sha256Hex bytes) sum = true :=
      fun hequal => hopen (Or.inl hequal)
    have hsums : ∀ inForce, SumInForce site a release inForce → a.readsArchive = true ∧
        eqIgnoreAsciiCase (tools.sha256Hex bytes) inForce = true := by
      intro inForce hinForce
      constructor
      · by_contra hreads
        exact hopen (Or.inr ⟨inForce, hinForce, Or.inr (Or.inl (Bool.eq_false_iff.mpr hreads))⟩)
      · by_contra hrefused
        exact hopen (Or.inr ⟨inForce, hinForce, Or.inr (Or.inr (Bool.eq_false_iff.mpr hrefused))⟩)
    have hok := (install_eq_ok hdry).mpr
      ⟨release, w₁, archive, w₂, bytes, hresolve, hfetch, hbytes, hsums, hplace⟩
    have hresolved : (resolveRelease site tools a options w).1 = .ok release := by rw [hresolve]
    obtain ⟨unpacked, hunpacked, hequal⟩ := h release text sum hresolved hserves hlists hdry
      result w₃ hok
    rw [placeBinary_unpacked hplace, hbytes] at hunpacked
    rw [← Option.some.inj hunpacked] at hequal
    exact hunequal hequal
  · intro h release text sum hresolved hserves hlists hdry result w' hok
    obtain ⟨release', w₁, archive, w₂, bytes, hresolve, hfetch, hbytes, hsums, hplace⟩ :=
      (install_eq_ok hdry).mp hok
    rw [hresolve] at hresolved
    have hrelease : release' = release := Except.ok.inj hresolved
    rw [hrelease] at hresolve hfetch hsums hplace
    refine ⟨bytes, by rw [placeBinary_unpacked hplace, hbytes], ?_⟩
    rcases h release text sum hserves hlists bytes ⟨hdry, w₁, archive, w₂, result, w', hresolve,
        hfetch, hbytes, hplace⟩ with hequal | ⟨inForce, hinForce, hprotects⟩
    · exact hequal
    · obtain ⟨hreads, hinForceEqual⟩ := hsums inForce hinForce
      rcases hprotects with hsame | hunread | hrefused
      · rw [eqIgnoreAsciiCase_iff] at hinForceEqual hsame ⊢
        rw [hinForceEqual, hsame]
      · rw [hreads] at hunread
        cases hunread
      · rw [hinForceEqual] at hrefused
        cases hrefused

/-! ### A release that cannot be asked -/

/-- What the release says the archive's sum is. -/
def timerSum : String := "ba7816bf8f01cfea414140de5dae2223b00361a396177a9cb410ff61f20015ad"

theorem listsOn_timer : ListsOn (timerSum ++ "  timer.zip") "timer.zip" timerSum := by
  have htext : (timerSum ++ "  timer.zip").toList = timerSum.toList ++ "  timer.zip".toList :=
    String.toList_append
  have hword : timerSum.toList.all (fun c => !isWhite c) = true := by decide +kernel
  refine ⟨[], [' ', ' '], [], [], htext, by simp, ⟨by simp, ?_⟩, Or.inl rfl, ?_⟩
  · intro c hc
    simp only [List.mem_cons, List.not_mem_nil, or_false, or_self] at hc
    rw [hc]
    rfl
  · refine ⟨by decide +kernel, by decide +kernel, fun c hc => ?_⟩
    simpa using List.all_eq_true.mp hword c hc

/-- The server refuses the release's `checksums.txt`, and the archive is unpacked. -/
theorem install_unverified :
    (install timerSite (timerTools "timer.zip") (timerAnswers "timer.zip") timerOptions
        timerWorld).1 = .ok ⟨"timer", "1.0.0", timerBinary⟩ ∧
      Lists (timerSum ++ "  timer.zip\n") "timer.zip" timerSum ∧
      ¬ NeverFailsOpen timerSite (timerTools "timer.zip") (timerAnswers "timer.zip") timerOptions
        timerWorld := by
  have hok : (install timerSite (timerTools "timer.zip") (timerAnswers "timer.zip") timerOptions
      timerWorld).1 = .ok ⟨"timer", "1.0.0", timerBinary⟩ := by decide +kernel
  have hunpacked : (install timerSite (timerTools "timer.zip") (timerAnswers "timer.zip")
      timerOptions timerWorld).2.unpacked = some emptyZip := by decide +kernel
  have hresolved : (resolveRelease timerSite (timerTools "timer.zip") (timerAnswers "timer.zip")
      timerOptions timerWorld).1 = .ok (timerRelease "timer.zip") := by decide +kernel
  have hline : timerSum ++ "  timer.zip" ∈ lines (timerSum ++ "  timer.zip\n") := by
    decide +kernel
  have hlists : Lists (timerSum ++ "  timer.zip\n") "timer.zip" timerSum :=
    ⟨timerSum ++ "  timer.zip", hline, listsOn_timer⟩
  refine ⟨hok, hlists, ?_⟩
  intro h
  have hserves : Serves
      ((timerAnswers "timer.zip").checksums (checksumsUrl (timerRelease "timer.zip")))
      (timerSum ++ "  timer.zip\n") := by
    intro body hbody
    cases hbody
  obtain ⟨bytes, hbytes, hequal⟩ := h (timerRelease "timer.zip") _ timerSum hresolved hserves
    hlists rfl _ _ (eq_of_result hok)
  rw [hunpacked] at hbytes
  rw [← Option.some.inj hbytes] at hequal
  exact absurd hequal (by decide +kernel)

end Emergent.Engine.Marketplace

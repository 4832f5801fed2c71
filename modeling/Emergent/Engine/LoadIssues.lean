import Emergent.Engine.Preflight
import Emergent.Kit.Places

/-!
# Where a configuration does not load (`preflight.rs`, `load_issue`)

A file that is not valid TOML, or has a key the schema does not know, is reported
with the line and the column of the error and with the table it is in. The table is
looked up in the document as `toml_edit` reads it: a tree of tables, in which the
headers need not come in the order of the text.
-/

namespace Emergent.Engine
open Kit Kit.Text Kit.Places

/-! ### The document -/

mutual

/-- A table: whether it is implicit or dotted, where its header starts, what is in it. -/
inductive Table where
  | mk (implicit dotted : Bool) (span : Option ℕ) (entries : List (String × Item))

inductive Item where
  | table (child : Table)
  | arrayOfTables (children : List Table)
  | value

end

/-- Implicit and dotted tables have no header of their own. -/
def Table.header : Table → Option ℕ
  | .mk implicit dotted span _ => if implicit || dotted then none else span

def joinKey (table : Option String) (key : String) : String :=
  match table with
  | some table => s!"{table}.{key}"
  | none => key

def elementPath (path : String) (i : ℕ) : String := s!"{path}[{i}]"

/-- The header found so far: where it starts, and the path of its table. -/
abbrev Best := Option (ℕ × String)

def considerTable (table : Table) (path : String) (offset : ℕ) (best : Best) : Best :=
  match table.header with
  | some start =>
    if start ≤ offset ∧ best.all (fun found => found.1 < start) then some (start, path) else best
  | none => best

mutual

def visitTables : Table → Option String → ℕ → Best → Best
  | .mk _ _ _ entries, table, offset, best => visitEntries entries table offset best

def visitEntries : List (String × Item) → Option String → ℕ → Best → Best
  | [], _, _, best => best
  | (key, item) :: entries, table, offset, best =>
    visitEntries entries table offset (visitItem item (joinKey table key) offset best)

def visitItem : Item → String → ℕ → Best → Best
  | .table child, path, offset, best =>
    visitTables child (some path) offset (considerTable child path offset best)
  | .arrayOfTables children, path, offset, best => visitElements children path 0 offset best
  | .value, _, _, best => best

def visitElements : List Table → String → ℕ → ℕ → Best → Best
  | [], _, _, _, best => best
  | child :: children, path, i, offset, best =>
    visitElements children path (i + 1) offset
      (visitTables child (some (elementPath path i)) offset
        (considerTable child (elementPath path i) offset best))

end

/-! ### The issue -/

structure TomlError where
  message : String
  span : Option (ℕ × ℕ)
  deriving Repr, DecidableEq

inductive ConfigError where
  | readError (message : String)
  | parseError (error : TomlError)
  | validationError (message : String)
  | pathNotFound (path : String)
  deriving Repr, DecidableEq

def backtick : Char := Char.ofNat 96

/-- The key in "unknown field `x`, expected ...". -/
def unknownFieldName (message : String) : Option String :=
  (stripPrefixText message "unknown field `").bind fun rest =>
    if containsChar rest backtick then some (String.ofList (upTo backtick rest.toList)) else none

/-- `str::get(..offset)`: nothing unless a character ends at the offset. -/
def textBefore : List Char → ℕ → Option (List Char)
  | _, 0 => some []
  | [], _ + 1 => none
  | c :: cs, offset + 1 =>
    if c.utf8Size ≤ offset + 1 then (textBefore cs (offset + 1 - c.utf8Size)).map (c :: ·)
    else none

def beforeOffset (text : String) (offset : ℕ) : List Char :=
  (textBefore text.toList offset).getD text.toList

def lineAndColumn (text : String) (offset : ℕ) : ℕ × ℕ := place '\n' (beforeOffset text offset)

section
variable (readDocument : String → Option Table)

def tablePathAt (text : String) (offset : ℕ) : Option String :=
  (readDocument text).bind fun document => (visitTables document none offset none).map Prod.snd

def loadIssue (error : ConfigError) (content : Option String) : ConfigIssue :=
  match error with
  | .parseError e =>
    let message := trim e.message
    let unknownKey := unknownFieldName message
    let code := if unknownKey.isSome then IssueCode.unknownField else IssueCode.parseError
    match content, e.span with
    | some text, some span =>
      let place := lineAndColumn text span.1
      { code
        message := s!"{message} (line {place.1}, column {place.2})"
        path :=
          match unknownKey, tablePathAt readDocument text span.1 with
          | some key, some table => some s!"{table}.{key}"
          | some key, none => some key
          | none, some table => some table
          | none, none => none }
    | _, _ => ⟨code, message, none⟩
  | .readError message => ⟨.readError, message, none⟩
  | .validationError message => ⟨.parseError, message, none⟩
  | .pathNotFound path => ⟨.pathNotFound, s!"Path does not exist: {path}", none⟩

end

/-! ### The header that starts latest -/

def ownHeader (table : Table) (path : String) : List (ℕ × String) :=
  table.header.toList.map fun start => (start, path)

mutual

/-- Every header below a table, with the path of the table it opens. -/
def headers : Table → Option String → List (ℕ × String)
  | .mk _ _ _ entries, table => entryHeaders entries table

def entryHeaders : List (String × Item) → Option String → List (ℕ × String)
  | [], _ => []
  | (key, item) :: entries, table =>
    itemHeaders item (joinKey table key) ++ entryHeaders entries table

def itemHeaders : Item → String → List (ℕ × String)
  | .table child, path => ownHeader child path ++ headers child (some path)
  | .arrayOfTables children, path => elementHeaders children path 0
  | .value, _ => []

def elementHeaders : List Table → String → ℕ → List (ℕ × String)
  | [], _, _ => []
  | child :: children, path, i =>
    ownHeader child (elementPath path i) ++
      (headers child (some (elementPath path i)) ++ elementHeaders children path (i + 1))

end

def keepLatest (offset : ℕ) (best : Best) (header : ℕ × String) : Best :=
  if header.1 ≤ offset ∧ best.all (fun found => found.1 < header.1) then some header else best

theorem considerTable_eq_foldl (table : Table) (path : String) (offset : ℕ) (best : Best) :
    considerTable table path offset best =
      (ownHeader table path).foldl (keepLatest offset) best := by
  unfold considerTable ownHeader
  cases table.header <;> rfl

mutual

/-- The walk is a fold over the headers, depth first. -/
theorem visitTables_eq_foldl : ∀ (document : Table) (table : Option String) (offset : ℕ)
    (best : Best), visitTables document table offset best =
      (headers document table).foldl (keepLatest offset) best
  | .mk _ _ _ entries, table, offset, best => by
    rw [visitTables, headers, visitEntries_eq_foldl entries]

theorem visitEntries_eq_foldl : ∀ (entries : List (String × Item)) (table : Option String)
    (offset : ℕ) (best : Best), visitEntries entries table offset best =
      (entryHeaders entries table).foldl (keepLatest offset) best
  | [], _, _, _ => rfl
  | (key, item) :: entries, table, offset, best => by
    rw [visitEntries, entryHeaders, visitItem_eq_foldl item, visitEntries_eq_foldl entries,
      List.foldl_append]

theorem visitItem_eq_foldl : ∀ (item : Item) (path : String) (offset : ℕ) (best : Best),
    visitItem item path offset best = (itemHeaders item path).foldl (keepLatest offset) best
  | .table child, path, offset, best => by
    rw [visitItem, itemHeaders, considerTable_eq_foldl, visitTables_eq_foldl child,
      List.foldl_append]
  | .arrayOfTables children, path, offset, best => by
    rw [visitItem, itemHeaders, visitElements_eq_foldl children]
  | .value, _, _, _ => rfl

theorem visitElements_eq_foldl : ∀ (children : List Table) (path : String) (i offset : ℕ)
    (best : Best), visitElements children path i offset best =
      (elementHeaders children path i).foldl (keepLatest offset) best
  | [], _, _, _, _ => rfl
  | child :: children, path, i, offset, best => by
    rw [visitElements, elementHeaders, considerTable_eq_foldl, visitTables_eq_foldl child,
      visitElements_eq_foldl children, List.foldl_append, List.foldl_append]

end

/-- Of the headers seen so far, the one that starts latest at or before the offset. -/
def Latest (offset : ℕ) (seen : List (ℕ × String)) : Best → Prop
  | none => ∀ header ∈ seen, offset < header.1
  | some found => found ∈ seen ∧ found.1 ≤ offset ∧
      ∀ header ∈ seen, header.1 ≤ offset → header.1 ≤ found.1

theorem Latest.keep {offset : ℕ} {seen : List (ℕ × String)} {best : Best}
    (h : Latest offset seen best) (header : ℕ × String) :
    Latest offset (seen ++ [header]) (keepLatest offset best header) := by
  cases best with
  | none =>
    by_cases hstart : header.1 ≤ offset
    · have hkeep : keepLatest offset none header = some header := if_pos ⟨hstart, rfl⟩
      rw [hkeep]
      refine ⟨List.mem_append_right _ List.mem_cons_self, hstart, fun other hother hle => ?_⟩
      rcases List.mem_append.mp hother with hseen | hlast
      · exact absurd hle (Nat.not_le_of_lt (h other hseen))
      · rw [List.mem_singleton.mp hlast]
    · have hkeep : keepLatest offset none header = none := if_neg fun hboth => hstart hboth.1
      rw [hkeep]
      intro other hother
      rcases List.mem_append.mp hother with hseen | hlast
      · exact h other hseen
      · rw [List.mem_singleton.mp hlast]
        exact Nat.lt_of_not_le hstart
  | some found =>
    obtain ⟨hmem, hfound, hlatest⟩ := h
    by_cases hlater : header.1 ≤ offset ∧ found.1 < header.1
    · have hkeep : keepLatest offset (some found) header = some header :=
        if_pos ⟨hlater.1, decide_eq_true hlater.2⟩
      rw [hkeep]
      refine ⟨List.mem_append_right _ List.mem_cons_self, hlater.1, fun other hother hle => ?_⟩
      rcases List.mem_append.mp hother with hseen | hlast
      · exact (hlatest other hseen hle).trans hlater.2.le
      · rw [List.mem_singleton.mp hlast]
    · have hkeep : keepLatest offset (some found) header = some found :=
        if_neg fun hboth => hlater ⟨hboth.1, of_decide_eq_true hboth.2⟩
      rw [hkeep]
      refine ⟨List.mem_append_left _ hmem, hfound, fun other hother hle => ?_⟩
      rcases List.mem_append.mp hother with hseen | hlast
      · exact hlatest other hseen hle
      · rw [List.mem_singleton.mp hlast] at hle ⊢
        exact Nat.le_of_not_lt fun hlt => hlater ⟨hle, hlt⟩

theorem Latest.foldl {offset : ℕ} {seen : List (ℕ × String)} {best : Best}
    (h : Latest offset seen best) (later : List (ℕ × String)) :
    Latest offset (seen ++ later) (later.foldl (keepLatest offset) best) := by
  induction later generalizing seen best with
  | nil => rwa [List.append_nil]
  | cons header later ih =>
    have hrest := ih (h.keep header)
    rwa [List.append_assoc] at hrest

theorem visitTables_latest (document : Table) (offset : ℕ) :
    Latest offset (headers document none) (visitTables document none offset none) := by
  rw [visitTables_eq_foldl]
  have hnone : Latest offset [] none := fun _ hmem => absurd hmem List.not_mem_nil
  exact hnone.foldl _

/-! ### What the issue says -/

theorem textBefore_append (before rest : List Char) :
    textBefore (before ++ rest) (before.map Char.utf8Size).sum = some before := by
  induction before with
  | nil => cases rest <;> rfl
  | cons c before ih =>
    obtain ⟨size, hsize⟩ := Nat.exists_eq_succ_of_ne_zero c.utf8Size_pos.ne'
    have hoffset : ((c :: before).map Char.utf8Size).sum =
        size + (before.map Char.utf8Size).sum + 1 := by
      rw [List.map_cons, List.sum_cons, hsize]
      omega
    have hfits : c.utf8Size ≤ size + (before.map Char.utf8Size).sum + 1 := by omega
    have hleft : size + (before.map Char.utf8Size).sum + 1 - c.utf8Size =
        (before.map Char.utf8Size).sum := by omega
    rw [hoffset, List.cons_append, textBefore, if_pos hfits, hleft, ih]
    rfl

theorem utf8ByteSize_eq_sum (s : String) : s.utf8ByteSize = (s.toList.map Char.utf8Size).sum := by
  have hbytes : s.utf8ByteSize = (s.toList.flatMap String.utf8EncodeChar).length := by
    rw [← String.size_toByteArray, ← String.utf8Encode_toList, List.utf8Encode]
    simp
  rw [hbytes, List.length_flatMap]
  congr 1
  exact List.map_congr_left fun c _ => String.length_utf8EncodeChar c

theorem beforeOffset_append (before rest : String) :
    beforeOffset (before ++ rest) before.utf8ByteSize = before.toList := by
  rw [beforeOffset, utf8ByteSize_eq_sum, String.toList_append, textBefore_append]
  rfl

/-- The line and the column lead back to the offset. -/
theorem beforePlace_lineAndColumn (before rest : String) :
    beforePlace '\n' (before ++ rest).toList
        (lineAndColumn (before ++ rest) before.utf8ByteSize).1
        (lineAndColumn (before ++ rest) before.utf8ByteSize).2 = before.toList := by
  rw [lineAndColumn, beforeOffset_append, String.toList_append]
  exact beforePlace_place before.toList rest.toList

theorem unknownFieldName_append {key : String} (hkey : backtick ∉ key.toList) (more : String) :
    unknownFieldName ("unknown field `" ++ (key ++ ("`" ++ more))) = some key := by
  have hchars : (key ++ ("`" ++ more)).toList = key.toList ++ backtick :: more.toList := by
    simp [String.toList_append, backtick]
  have htick : containsChar (key ++ ("`" ++ more)) backtick = true := by
    simp [containsChar, hchars]
  have hcut := (upTo_append hkey (Or.inr ⟨more.toList, rfl⟩)).1
  rw [unknownFieldName, stripPrefixText_append, Option.bind_some, if_pos htick, hchars, hcut,
    String.ofList_toList]

theorem eq_append_of_unknownFieldName {message key : String}
    (h : unknownFieldName message = some key) : backtick ∉ key.toList ∧
      ∃ more, message = "unknown field `" ++ (key ++ ("`" ++ more)) := by
  obtain ⟨rest, hrest, hkey⟩ := Option.bind_eq_some_iff.mp h
  split_ifs at hkey with htick
  have hchars : key.toList = upTo backtick rest.toList := by
    rw [← Option.some.inj hkey, String.toList_ofList]
  have hmem : backtick ∈ rest.toList := by simpa [containsChar] using htick
  obtain ⟨more, hmore⟩ := onward_of_mem hmem
  refine ⟨hchars ▸ notMem_upTo _ _, String.ofList more, ?_⟩
  rw [eq_append_of_stripPrefixText hrest]
  congr 1
  apply String.toList_injective
  have htail : ("`" ++ String.ofList more).toList = onward backtick rest.toList := by
    rw [hmore]
    simp [String.toList_append, backtick]
  rw [String.toList_append, htail, hchars, upTo_append_onward]

/-- The table is the one whose header starts latest at or before the offset. -/
def HeldBy (document : Option Table) (offset : ℕ) : Option String → Prop
  | none => ∀ table ∈ document, ∀ header ∈ headers table none, offset < header.1
  | some path => ∃ table ∈ document, ∃ start, (start, path) ∈ headers table none ∧
      start ≤ offset ∧ ∀ header ∈ headers table none, header.1 ≤ offset → header.1 ≤ start

theorem tablePathAt_held (readDocument : String → Option Table) (text : String) (offset : ℕ) :
    HeldBy (readDocument text) offset (tablePathAt readDocument text offset) := by
  unfold tablePathAt
  cases readDocument text with
  | none => exact fun table htable => absurd htable (Option.not_mem_none table)
  | some document =>
    have hlatest := visitTables_latest document offset
    rw [Option.bind_some]
    cases hvisit : visitTables document none offset none with
    | none =>
      rw [hvisit] at hlatest
      intro table htable
      rw [Option.mem_some_iff.mp htable] at hlatest
      exact hlatest
    | some found =>
      rw [hvisit] at hlatest
      exact ⟨document, rfl, found.1, hlatest⟩

/-- The issue of a parse error names the place it is at: reading the text up to the
line and the column gives back what stands before the error. Its path is the table
that holds the place, with the key when the schema does not know one. -/
theorem loadIssue_located (readDocument : String → Option Table) (message before rest : String)
    (stop : ℕ) :
    ∃ line column table,
      beforePlace '\n' (before ++ rest).toList line column = before.toList ∧
      HeldBy (readDocument (before ++ rest)) before.utf8ByteSize table ∧
      (∀ key more, backtick ∉ key.toList →
        trim message = "unknown field `" ++ (key ++ ("`" ++ more)) →
        loadIssue readDocument (.parseError ⟨message, some (before.utf8ByteSize, stop)⟩)
            (some (before ++ rest)) =
          { code := .unknownField
            message := s!"{trim message} (line {line}, column {column})"
            path := some (joinKey table key) }) ∧
      ((∀ key more, backtick ∉ key.toList →
          trim message ≠ "unknown field `" ++ (key ++ ("`" ++ more))) →
        loadIssue readDocument (.parseError ⟨message, some (before.utf8ByteSize, stop)⟩)
            (some (before ++ rest)) =
          { code := .parseError
            message := s!"{trim message} (line {line}, column {column})"
            path := table }) := by
  refine ⟨_, _, tablePathAt readDocument (before ++ rest) before.utf8ByteSize,
    beforePlace_lineAndColumn before rest, tablePathAt_held _ _ _, ?_, ?_⟩
  · intro key more hkey hmessage
    have hname : unknownFieldName (trim message) = some key := by
      rw [hmessage]
      exact unknownFieldName_append hkey more
    simp only [loadIssue, hname]
    cases tablePathAt readDocument (before ++ rest) before.utf8ByteSize <;> rfl
  · intro hother
    have hname : unknownFieldName (trim message) = none := by
      cases hname : unknownFieldName (trim message) with
      | none => rfl
      | some key =>
        obtain ⟨hkey, more, hmore⟩ := eq_append_of_unknownFieldName hname
        exact absurd hmore (hother key more hkey)
    simp only [loadIssue, hname]
    cases tablePathAt readDocument (before ++ rest) before.utf8ByteSize <;> rfl

end Emergent.Engine

import Emergent.Kit.Text
import Mathlib.Data.List.Basic
import Mathlib.Tactic

/-!
# Paths

An absolute path is its list of components, with `..` kept where it was written.
Where it leads is found by climbing from the root, a `..` going one directory up;
links are not followed.
-/

namespace Kit.Paths
open Kit.Text

abbrev PathBuf := List String

/-- The components of a text: empty ones and `.` do not count. -/
def pieces (s : String) : List String :=
  ((s.toList.splitOn '/').map String.ofList).filter fun piece => piece ≠ "" ∧ piece ≠ "."

/-- `Path::join`: an absolute argument replaces the base. -/
def join (base : PathBuf) (s : String) : PathBuf :=
  if startsWith s "/" then pieces s else base ++ pieces s

def climb (dir : PathBuf) (piece : String) : PathBuf :=
  if piece = ".." then dir.dropLast else dir ++ [piece]

def resolve (path : PathBuf) : PathBuf := path.foldl climb []

/-- The path leads into the directory, or to the directory itself. -/
def Under (dir path : PathBuf) : Prop := resolve dir <+: resolve path

instance (dir path : PathBuf) : Decidable (Under dir path) :=
  inferInstanceAs (Decidable (resolve dir <+: resolve path))

/-- `Path::file_name`: the last component, when it is a name. -/
def fileName (path : PathBuf) : Option String := path.getLast?.filter fun piece => piece ≠ ".."

/-- A name around its last dot; a dot in front is no separator. -/
def splitExtension (name : String) : String × Option String :=
  match (name.toList.splitOn '.').reverse with
  | extension :: before :: rest =>
    if before = [] ∧ rest = [] then (name, none)
    else (String.ofList (['.'].intercalate (before :: rest).reverse),
      some (String.ofList extension))
  | _ => (name, none)

def extension (path : PathBuf) : Option String :=
  (fileName path).bind fun name => (splitExtension name).2

/-- `Path::with_extension`: without a file name there is nothing to change. -/
def withExtension (path : PathBuf) (ext : String) : PathBuf :=
  match fileName path with
  | none => path
  | some name => path.dropLast ++ [(splitExtension name).1 ++ "." ++ ext]

def parent (path : PathBuf) : PathBuf := path.dropLast

/-! ### Where a path leads -/

theorem resolve_append (p q : PathBuf) : resolve (p ++ q) = q.foldl climb (resolve p) :=
  List.foldl_append

theorem foldl_climb_names {q : PathBuf} (h : ".." ∉ q) (dir : PathBuf) :
    q.foldl climb dir = dir ++ q := by
  induction q generalizing dir with
  | nil => exact (List.append_nil dir).symm
  | cons piece q ih =>
    have hpiece : piece ≠ ".." := fun heq => h (by rw [heq]; exact List.mem_cons_self)
    have hrest : ".." ∉ q := fun hmem => h (List.mem_cons_of_mem _ hmem)
    rw [List.foldl_cons, climb, if_neg hpiece, ih hrest, List.append_assoc]
    rfl

theorem resolve_append_names {q : PathBuf} (h : ".." ∉ q) (p : PathBuf) :
    resolve (p ++ q) = resolve p ++ q := by
  rw [resolve_append, foldl_climb_names h]

theorem Under.refl (dir : PathBuf) : Under dir dir := List.prefix_rfl

theorem Under.trans {a b c : PathBuf} (hab : Under a b) (hbc : Under b c) : Under a c :=
  List.IsPrefix.trans hab hbc

/-- Names below a directory stay in it. -/
theorem under_append {q : PathBuf} (h : ".." ∉ q) (dir : PathBuf) : Under dir (dir ++ q) := by
  rw [Under, resolve_append_names h]
  exact List.prefix_append _ _

/-- A text without a slash is one component. -/
theorem pieces_of_name {s : String} (hslash : '/' ∉ s.toList) (hempty : s ≠ "") (hdot : s ≠ ".") :
    pieces s = [s] := by
  have hsplit : s.toList.splitOn '/' = [s.toList] := List.splitOn_eq_singleton hslash
  simp [pieces, hsplit, hempty, hdot]

theorem startsWith_slash {s : String} (hslash : '/' ∉ s.toList) : startsWith s "/" = false := by
  cases hstart : startsWith s "/" with
  | false => rfl
  | true =>
    obtain ⟨rest, hrest⟩ := startsWith_iff.mp hstart
    rw [← hrest] at hslash
    exact absurd (List.mem_append_left _ (by decide)) hslash

/-- Joining a text without a slash goes one component down. -/
theorem join_of_name {s : String} (hslash : '/' ∉ s.toList) (hempty : s ≠ "") (hdot : s ≠ ".")
    (base : PathBuf) : join base s = base ++ [s] := by
  rw [join, startsWith_slash hslash, if_neg Bool.false_ne_true, pieces_of_name hslash hempty hdot]

end Kit.Paths

import Emergent.Engine.Marketplace

/-!
# The engine replaces itself (`update.rs`)

`emergent update` unpacks the archive of the latest release into a temporary
directory, renames the running executable to a backup, copies the new one into
place and removes the backup. The disk keeps a record of every state of its files
that a crash could leave behind; the removal of the temporary directory is left
out of it.
-/

namespace Emergent.Engine.SelfUpdate
open Kit Kit.Text Kit.Paths Kit.Fallible
open Marketplace (Bytes Entry Response WriteAnswer UnpackAnswer)

abbrev Files := PathBuf → Option Bytes

structure Disk where
  files : Files
  moments : List Files

namespace Disk

/-- A disk at rest. -/
def holding (files : Files) : Disk := ⟨files, [files]⟩

def contents (d : Disk) (path : PathBuf) : Option Bytes := d.files (resolve path)

/-- One change that the file system makes as a whole. -/
def become (files : Files) (d : Disk) : Disk := ⟨files, d.moments ++ [files]⟩

def put (path : PathBuf) (content : Option Bytes) (d : Disk) : Disk :=
  d.become fun place => if place = resolve path then content else d.files place

/-- A path renamed to itself stays as it is. -/
def rename (path target : PathBuf) (d : Disk) : Disk :=
  if resolve path = resolve target then d
  else d.become fun place =>
    if place = resolve target then d.contents path
    else if place = resolve path then none
    else d.files place

def write (answer : WriteAnswer) (path : PathBuf) (content : Bytes) (d : Disk) : Disk :=
  match answer with
  | .done => d.put path (some content)
  | .refused => d
  | .torn part => d.put path (some part)

end Disk

/-- Empty the file first and let it hold one part after the other. -/
def Disk.fill (target : PathBuf) (parts : List Bytes) (d : Disk) : Disk :=
  parts.foldl (fun d part => d.put target (some part)) (d.put target (some ByteArray.empty))

/-- `fs::copy`: it fails before it opens the target, or empties the target first
and fills it step by step, to the end or not. -/
inductive CopyAnswer where
  | refused
  | broke (parts : List Bytes)
  | done (parts : List Bytes)
  deriving DecidableEq

structure UpdateArgs where
  force : Bool
  dryRun : Bool

/-- What the network, the process and the disk answer during one update. The
answer about the release is its tag, or none for a text without one. -/
structure Answers where
  release : Response (Option String)
  currentExe : Option PathBuf
  tempDir : Option PathBuf
  download : String → Response Bytes
  archiveWritten : WriteAnswer
  opensArchive : Bool
  unpacks : UnpackAnswer
  isDirectory : Bool
  listing : Option (List String)
  setsPermissions : Bool
  backsUp : Bool
  copies : CopyAnswer
  restores : Bool
  removesBackup : Bool

inductive UpdateError where
  | fetchRelease
  | releaseStatus (status : ℕ)
  | parseRelease
  | currentExe
  | tempDir
  | download (url : String)
  | downloadStatus (status : ℕ) (url : String)
  | readResponse (url : String)
  | writeArchive
  | openArchive (path : PathBuf)
  | extract (path : PathBuf)
  | listing
  | binaryMissing (contents : List String)
  | permissions
  | backup (path : PathBuf)
  | install
  deriving DecidableEq

abbrev Op := Fallible UpdateError Disk

def check (error : UpdateError) (answer : Bool) : Op Unit :=
  .inspect fun _ => if answer then .ok () else .error error

def githubRepo : String := "Govcraft/emergent"

def fetchLatestVersion (release : Response (Option String)) : Except UpdateError String :=
  match release with
  | .unsent => .error .fetchRelease
  | .refused status => .error (.releaseStatus status)
  | .unread => .error .parseRelease
  | .body none => .error .parseRelease
  | .body (some tag) => .ok ((stripPrefixText tag "v").getD tag)

def download (response : String → Response Bytes) (written : WriteAnswer) (url : String)
    (dest : PathBuf) : Op Unit := do
  match response url with
  | .unsent => .fail (.download url)
  | .refused status => .fail (.downloadStatus status url)
  | .unread => .fail (.readResponse url)
  | .body bytes =>
    .update (Disk.write written dest bytes)
    check .writeArchive (written = .done)

def placeEntries (dest : PathBuf) (written : List (List String × Option Bytes)) (d : Disk) :
    Disk :=
  written.foldl (fun d entry => d.put (dest ++ entry.1) entry.2) d

section
variable (untar : Bytes → List Entry × Bool) (platform currentVersion : String)

def extractTarGz (a : Answers) (archive dest : PathBuf) : Op Unit := do
  let bytes ← .inspect fun d =>
    if a.opensArchive then (d.contents archive).elim (.error (.openArchive archive)) .ok
    else .error (.openArchive archive)
  .update (placeEntries dest (a.unpacks.written (untar bytes).1))
  check (.extract archive) ((untar bytes).2 && a.unpacks = .whole)

def archiveName (latest : String) : String := "emergent-" ++ latest ++ "-" ++ platform ++ ".tar.gz"

def downloadUrl (latest : String) : String :=
  "https://github.com/" ++ githubRepo ++ "/releases/download/v" ++ latest ++ "/" ++
    archiveName platform latest

/-- Without the binary the error lists what the archive left instead. -/
def findBinary (a : Answers) (newBinary : PathBuf) : Op Unit := do
  let found ← .inspect fun d => .ok ((d.contents newBinary).isSome || a.isDirectory)
  match found, a.listing with
  | true, _ => pure ()
  | false, none => .fail .listing
  | false, some contents => .fail (.binaryMissing contents)

/-- From the temporary directory to the binary that is to be installed. -/
def stage (a : Answers) (latest : String) (dir : PathBuf) : Op PathBuf := do
  let archive := join dir (archiveName platform latest)
  download a.download a.archiveWritten (downloadUrl platform latest) archive
  extractTarGz untar a archive dir
  let newBinary := join dir "emergent"
  findBinary a newBinary
  check .permissions a.setsPermissions
  pure newBinary

def backupPath (exe : PathBuf) : PathBuf := withExtension exe "bak"

/-- Whether the copy is complete. A directory is refused. -/
def copy (answer : CopyAnswer) (source target : PathBuf) : Op Bool := do
  let found ← .inspect fun d => .ok (d.contents source)
  match answer, found with
  | .done parts, some content =>
    .update (Disk.fill target (parts ++ [content]))
    pure true
  | .broke parts, some _ =>
    .update (Disk.fill target parts)
    pure false
  | _, _ => pure false

/-- A rename asked for and not looked at again. -/
def tryRename (answer : Bool) (path target : PathBuf) : Op Bool := do
  let found ← .inspect fun d => .ok (answer && (d.contents path).isSome)
  match found with
  | true =>
    .update (Disk.rename path target)
    pure true
  | false => pure false

/-- The new binary into place, and the backup away or back. -/
def installNew (a : Answers) (exe newBinary : PathBuf) : Op Unit := do
  match ← copy a.copies newBinary exe with
  | true => if a.removesBackup then .update (Disk.put (backupPath exe) none) else pure ()
  | false =>
    let _ ← tryRename a.restores (backupPath exe) exe
    .fail .install

def replace (a : Answers) (exe newBinary : PathBuf) : Op Unit := do
  let backedUp ← tryRename a.backsUp exe (backupPath exe)
  check (.backup (backupPath exe)) backedUp
  installNew a exe newBinary

def execute (a : Answers) (args : UpdateArgs) : Op Unit := do
  let latest ← .inspect fun _ => fetchLatestVersion a.release
  if currentVersion = latest ∧ args.force = false then pure ()
  else
    let exe ← .inspect fun _ => a.currentExe.elim (.error .currentExe) .ok
    if args.dryRun then pure ()
    else
      let dir ← .inspect fun _ => a.tempDir.elim (.error .tempDir) .ok
      let newBinary ← stage untar platform a latest dir
      replace a exe newBinary

end

/-! ### What changes and what stays -/

/-- Every state of the files on the way has the property. -/
def Passes (Q : Files → Prop) (d d' : Disk) : Prop :=
  ∃ more, d'.moments = d.moments ++ more ∧ ∀ moment ∈ more, Q moment

def Agrees (P : PathBuf → Prop) (files files' : Files) : Prop :=
  ∀ place, ¬ P place → files' place = files place

/-- Nothing changes outside the places of `P`, not even for a moment. -/
def Within (P : PathBuf → Prop) (d d' : Disk) : Prop :=
  Passes (Agrees P d.files) d d' ∧ Agrees P d.files d'.files

section
variable {P : PathBuf → Prop} {Q : Files → Prop} {d d' d'' : Disk} {path target : PathBuf}

theorem Passes.refl (d : Disk) : Passes Q d d := ⟨[], (List.append_nil _).symm, by simp⟩

theorem Passes.trans (h : Passes Q d d') (h' : Passes Q d' d'') : Passes Q d d'' := by
  obtain ⟨more, hmore, hall⟩ := h
  obtain ⟨more', hmore', hall'⟩ := h'
  refine ⟨more ++ more', by rw [hmore', hmore, List.append_assoc], ?_⟩
  intro moment hmoment
  rcases List.mem_append.mp hmoment with hmoment | hmoment
  · exact hall moment hmoment
  · exact hall' moment hmoment

theorem Passes.mono {Q' : Files → Prop} (h : Passes Q d d') (hQ : ∀ m, Q m → Q' m) :
    Passes Q' d d' := by
  obtain ⟨more, hmore, hall⟩ := h
  exact ⟨more, hmore, fun moment hmoment => hQ _ (hall moment hmoment)⟩

theorem Agrees.trans {f f' f'' : Files} (h : Agrees P f f') (h' : Agrees P f' f'') :
    Agrees P f f'' :=
  fun place hplace => (h' place hplace).trans (h place hplace)

instance (P : PathBuf → Prop) : Std.Refl (Within P) := ⟨fun d => ⟨.refl d, fun _ _ => rfl⟩⟩

theorem Within.trans (h : Within P d d') (h' : Within P d' d'') : Within P d d'' :=
  ⟨h.1.trans (h'.1.mono fun _ hm => h.2.trans hm), h.2.trans h'.2⟩

instance (P : PathBuf → Prop) : IsTrans Disk (Within P) := ⟨fun _ _ _ => Within.trans⟩

theorem Within.mono {P' : PathBuf → Prop} (h : Within P d d') (hP : ∀ place, P place → P' place) :
    Within P' d d' :=
  ⟨h.1.mono fun _ hm place hplace => hm place fun hin => hplace (hP place hin),
    fun place hplace => h.2 place fun hin => hplace (hP place hin)⟩

theorem within_become {files : Files} (h : Agrees P d.files files) : Within P d (d.become files) :=
  ⟨⟨[files], rfl, fun moment hmoment => by rwa [List.mem_singleton.mp hmoment]⟩, h⟩

theorem within_put (h : P (resolve path)) (content : Option Bytes) (d : Disk) :
    Within P d (d.put path content) :=
  within_become fun place hplace => if_neg fun heq => hplace (by rwa [heq])

theorem within_rename (h : P (resolve path)) (h' : P (resolve target)) (d : Disk) :
    Within P d (d.rename path target) := by
  rw [Disk.rename]
  split
  · exact refl_of (Within P) d
  · refine within_become fun place hplace => ?_
    rw [if_neg fun heq => hplace (by rwa [heq]), if_neg fun heq => hplace (by rwa [heq])]

theorem within_write (h : P (resolve path)) (answer : WriteAnswer) (content : Bytes) (d : Disk) :
    Within P d (d.write answer path content) := by
  cases answer with
  | done => exact within_put h _ d
  | refused => exact refl_of (Within P) d
  | torn part => exact within_put h _ d

theorem passes_become {files : Files} (h : Q files) (d : Disk) : Passes Q d (d.become files) :=
  ⟨[files], rfl, fun moment hmoment => by rwa [List.mem_singleton.mp hmoment]⟩

theorem passes_rename (h : Q (d.rename path target).files) : Passes Q d (d.rename path target) := by
  by_cases hsame : resolve path = resolve target
  · have hstays : d.rename path target = d := if_pos hsame
    rw [hstays]
    exact .refl d
  · have hmoves : d.rename path target = d.become (d.rename path target).files := by
      rw [Disk.rename, if_neg hsame]
      rfl
    rw [hmoves]
    exact passes_become h d

theorem contents_put (path : PathBuf) (content : Option Bytes) (d : Disk) :
    (d.put path content).contents path = content := if_pos rfl

theorem contents_rename (h : resolve path ≠ resolve target) (d : Disk) :
    (d.rename path target).contents target = d.contents path := by
  rw [Disk.rename, if_neg h]
  exact if_pos rfl

end

/-! ### What each step changes -/

/-- Entries of an archive go down from the directory they are unpacked into. -/
def StaysUnder (untar : Bytes → List Entry × Bool) : Prop :=
  ∀ bytes, ∀ entry ∈ (untar bytes).1, ".." ∉ entry.path

section
variable {P : PathBuf → Prop} {untar : Bytes → List Entry × Bool} {platform : String}
  {a : Answers} {d : Disk}

theorem keeps_check (error : UpdateError) (answer : Bool) : Keeps (Within P) (check error answer) :=
  Keeps.inspect _

theorem download_keeps {dest : PathBuf} (h : P (resolve dest)) (response : String → Response Bytes)
    (written : WriteAnswer) (url : String) :
    Keeps (Within P) (download response written url dest) := by
  rw [download]
  cases response url with
  | unsent => exact Keeps.fail _
  | refused status => exact Keeps.fail _
  | unread => exact Keeps.fail _
  | body bytes => exact (Keeps.update (within_write h _ _)).bind fun _ => keeps_check _ _

theorem within_placeEntries {dest : PathBuf} {written : List (List String × Option Bytes)}
    (h : ∀ entry ∈ written, P (resolve (dest ++ entry.1))) (d : Disk) :
    Within P d (placeEntries dest written d) := by
  induction written generalizing d with
  | nil => exact refl_of (Within P) d
  | cons entry written ih =>
    have hfirst := within_put (h entry List.mem_cons_self) entry.2 d
    exact hfirst.trans (ih (fun e he => h e (List.mem_cons_of_mem _ he)) _)

/-- Where an entry of an archive ends up on the disk, the archive has it. -/
theorem mem_written {answer : UnpackAnswer} {entries : List Entry}
    {written : List String × Option Bytes} (h : written ∈ answer.written entries) :
    ∃ entry ∈ entries, entry.path = written.1 := by
  have hfiles : ∀ l : List Entry, (∀ e ∈ l, e ∈ entries) →
      written ∈ (l.filterMap fun e => e.content.map fun bytes => (e.path, some bytes)) →
      ∃ entry ∈ entries, entry.path = written.1 := by
    intro l hl hmem
    obtain ⟨e, he, heq⟩ := List.mem_filterMap.mp hmem
    obtain ⟨bytes, _, hbytes⟩ := Option.map_eq_some_iff.mp heq
    exact ⟨e, hl e he, by rw [← hbytes]⟩
  have hnext : ∀ (after : ℕ) (content : Option Bytes),
      written ∈ ((entries[after]?).map fun e => (e.path, content)).toList →
      ∃ entry ∈ entries, entry.path = written.1 := by
    intro after content hmem
    obtain ⟨e, he, heq⟩ := Option.map_eq_some_iff.mp (Option.mem_toList.mp hmem)
    exact ⟨e, List.mem_of_getElem? he, by rw [← heq]⟩
  cases answer with
  | whole => exact hfiles entries (fun _ he => he) h
  | stopped after => exact hfiles _ (fun _ he => List.mem_of_mem_take he) h
  | gone after =>
    rcases List.mem_append.mp h with h | h
    · exact hfiles _ (fun _ he => List.mem_of_mem_take he) h
    · exact hnext after _ h
  | torn after part =>
    rcases List.mem_append.mp h with h | h
    · exact hfiles _ (fun _ he => List.mem_of_mem_take he) h
    · exact hnext after _ h

theorem extractTarGz_keeps (huntar : StaysUnder untar) {dest : PathBuf}
    (h : ∀ q, ".." ∉ q → P (resolve (dest ++ q))) (a : Answers) (archive : PathBuf) :
    Keeps (Within P) (extractTarGz untar a archive dest) := by
  refine (Keeps.inspect _).bind fun bytes => (Keeps.update ?_).bind fun _ => keeps_check _ _
  refine within_placeEntries fun entry hentry => h _ ?_
  obtain ⟨e, he, hpath⟩ := mem_written hentry
  rw [← hpath]
  exact huntar bytes e he

theorem findBinary_leaves (a : Answers) (newBinary : PathBuf) (d : Disk) :
    (findBinary a newBinary d).2 = d := by
  rw [findBinary, bind_look]
  cases (d.contents newBinary).isSome || a.isDirectory with
  | true => rfl
  | false => cases a.listing <;> rfl

theorem findBinary_keeps (a : Answers) (newBinary : PathBuf) :
    Keeps (Within P) (findBinary a newBinary) := by
  intro d
  rw [findBinary_leaves]
  exact refl_of (Within P) d

theorem tryRename_spec (answer : Bool) (path target : PathBuf) (d : Disk) :
    ∃ renamed, tryRename answer path target d =
        (.ok renamed, if renamed then d.rename path target else d) ∧
      (renamed = true ↔ answer = true ∧ (d.contents path).isSome = true) := by
  refine ⟨answer && (d.contents path).isSome, ?_, Bool.and_eq_true_iff⟩
  rw [tryRename, bind_look]
  cases answer && (d.contents path).isSome <;> rfl

/-- A copy changes its target only, and a complete one leaves there what stood at
its source. -/
theorem copy_spec (answer : CopyAnswer) (source target : PathBuf) (d : Disk) :
    ∃ complete d', copy answer source target d = (.ok complete, d') ∧
      Within (fun place => place = resolve target) d d' ∧
      (complete = true → ∃ content, d.contents source = some content ∧
        d'.contents target = some content) := by
  have hput : ∀ content (d : Disk), Within (fun place => place = resolve target) d
      (d.put target content) :=
    fun content d => within_put (P := fun place => place = resolve target) rfl content d
  have hfill : ∀ (parts : List Bytes) (d : Disk), Within (fun place => place = resolve target) d
      (parts.foldl (fun d part => d.put target (some part)) d) := by
    intro parts
    induction parts with
    | nil => exact fun d => refl_of (Within _) d
    | cons part parts ih => exact fun d => Within.trans (hput (some part) d) (ih _)
  have hopen : ∀ parts, Within (fun place => place = resolve target) d
      (d.fill target parts) := fun parts =>
    Within.trans (hput (some ByteArray.empty) d) (hfill parts _)
  rw [copy, bind_look]
  cases hsource : d.contents source with
  | none =>
    have hno : (false = true → ∃ content, (none : Option Bytes) = some content ∧
        d.contents target = some content) := fun h => absurd h Bool.false_ne_true
    cases answer <;> exact ⟨false, d, rfl, refl_of (Within _) d, hno⟩
  | some content =>
    cases answer with
    | refused => exact ⟨false, d, rfl, refl_of (Within _) d, fun h => absurd h Bool.false_ne_true⟩
    | broke parts => exact ⟨false, _, rfl, hopen parts, fun h => absurd h Bool.false_ne_true⟩
    | done parts =>
      refine ⟨true, _, rfl, hopen (parts ++ [content]), fun _ => ⟨content, rfl, ?_⟩⟩
      rw [Disk.fill, List.foldl_concat]
      exact contents_put target (some content) _

end

/-! ### Where the parts of an update stand -/

section
variable (untar : Bytes → List Entry × Bool) (platform : String) (a : Answers)

/-- The binary of the release: what its archive holds under the name of the
engine. -/
def Shipped (binary : Bytes) : Prop :=
  ∃ latest bytes, fetchLatestVersion a.release = .ok latest ∧
    a.download (downloadUrl platform latest) = .body bytes ∧
    ∃ entry ∈ (untar bytes).1, entry.path = ["emergent"] ∧ entry.content = some binary

/-- The executable or its backup is one whole binary, the old or the new one. -/
def Whole (exe : PathBuf) (old : Bytes) (moment : Files) : Prop :=
  moment (resolve exe) = some old ∨ moment (resolve (backupPath exe)) = some old ∨
    ∃ binary, Shipped untar platform a binary ∧ moment (resolve exe) = some binary

/-- What the update counts on: the temporary directory is new and the place of
the backup is not in it, and the name of the archive is one component, which a
tag with a slash would break. -/
structure Expected (files : Files) (exe : PathBuf) : Prop where
  fresh : ∀ dir ∈ a.tempDir, ∀ place, resolve dir <+: place → files place = none
  apart : ∀ dir ∈ a.tempDir, ¬ Under dir (backupPath exe)
  plain : ∀ latest, fetchLatestVersion a.release = .ok latest →
    '/' ∉ (archiveName platform latest).toList

end

theorem join_archive {platform latest : String} (h : '/' ∉ (archiveName platform latest).toList)
    (dir : PathBuf) :
    join dir (archiveName platform latest) = dir ++ [archiveName platform latest] ∧
      archiveName platform latest ≠ ".." ∧ archiveName platform latest ≠ "emergent" := by
  have hstart : ∀ s : String, s.toList.length < 9 → archiveName platform latest ≠ s := by
    intro s hs heq
    rw [← heq, archiveName] at hs
    simp only [String.toList_append, List.length_append] at hs
    have : "emergent-".toList.length = 9 := by decide
    omega
  exact ⟨join_of_name h (hstart "" (by decide)) (hstart "." (by decide)) dir,
    hstart ".." (by decide), hstart "emergent" (by decide)⟩

theorem join_emergent (dir : PathBuf) : join dir "emergent" = dir ++ ["emergent"] :=
  join_of_name (by decide) (by decide) (by decide) dir

/-- The backup lies beside the executable, in another place unless it is the same
path. -/
theorem resolve_backupPath {exe : PathBuf} (h : backupPath exe ≠ exe) :
    resolve exe ≠ resolve (backupPath exe) := by
  rw [backupPath, withExtension] at h ⊢
  cases hname : fileName exe with
  | none =>
    rw [hname] at h
    exact absurd rfl h
  | some name =>
    rw [hname] at h
    simp only at h ⊢
    obtain ⟨hlast, hnotup⟩ := Option.filter_eq_some_iff.mp hname
    have hexe : exe = exe.dropLast ++ [name] := (List.dropLast_append_getLast? name hlast).symm
    have hname : name ≠ ".." := by simpa using hnotup
    have hbak : (splitExtension name).1 ++ "." ++ "bak" ≠ ".." := by
      intro heq
      have hlen := congrArg (fun s => s.toList.length) heq
      simp only [String.toList_append, List.length_append] at hlen
      have : ".".toList.length = 1 ∧ "bak".toList.length = 3 ∧ "..".toList.length = 2 := by decide
      omega
    intro heq
    refine h ?_
    have hone : ∀ s : String, s ≠ ".." → ".." ∉ [s] := fun s hs hmem =>
      hs (List.mem_singleton.mp hmem).symm
    rw [hexe, List.dropLast_concat, resolve_append_names (hone _ hname),
      resolve_append_names (hone _ hbak)] at heq
    have htail := List.append_cancel_left heq
    rw [← htail]
    exact hexe.symm

/-! ### Up to the new binary -/

section
variable {untar : Bytes → List Entry × Bool} {platform latest : String} {a : Answers}
  {d d' : Disk} {newBinary dir : PathBuf} {bytes : Bytes}

theorem placeEntries_cases (dest : PathBuf) (written : List (List String × Option Bytes))
    (place : PathBuf) (d : Disk) :
    (placeEntries dest written d).files place = d.files place ∨
      ∃ entry ∈ written, resolve (dest ++ entry.1) = place ∧
        (placeEntries dest written d).files place = entry.2 := by
  induction written generalizing d with
  | nil => exact Or.inl rfl
  | cons entry written ih =>
    rcases ih (d.put (dest ++ entry.1) entry.2) with hrest | ⟨e, he, hplace, hcontent⟩
    · by_cases hplace : place = resolve (dest ++ entry.1)
      · refine Or.inr ⟨entry, List.mem_cons_self, hplace.symm, ?_⟩
        exact hrest.trans (by rw [hplace]; exact if_pos rfl)
      · exact Or.inl (hrest.trans (if_neg hplace))
    · exact Or.inr ⟨e, List.mem_cons_of_mem _ he, hplace, hcontent⟩

/-- An update works in its temporary directory until it has the new binary. -/
theorem stage_keeps (huntar : StaysUnder untar)
    (hplain : '/' ∉ (archiveName platform latest).toList) (a : Answers) (dir : PathBuf) :
    Keeps (Within fun place => resolve dir <+: place) (stage untar platform a latest dir) := by
  obtain ⟨hjoin, hnotup, _⟩ := join_archive hplain dir
  rw [stage, hjoin]
  have harchive : Under dir (dir ++ [archiveName platform latest]) :=
    under_append (fun hmem => hnotup (List.mem_singleton.mp hmem).symm) dir
  refine (download_keeps harchive _ _ _).bind fun _ => ?_
  refine (extractTarGz_keeps huntar (fun q hq => under_append hq dir) a _).bind fun _ => ?_
  refine (findBinary_keeps a _).bind fun _ => ?_
  exact (keeps_check _ _).bind fun _ => Keeps.pure _

/-- The archive is read back as it was downloaded. -/
theorem download_ok {response : String → Response Bytes} {written : WriteAnswer} {url : String}
    {dest : PathBuf} (h : download response written url dest d = (.ok (), d')) :
    ∃ bytes, response url = .body bytes ∧ d' = d.put dest (some bytes) := by
  rw [download] at h
  cases hresponse : response url with
  | unsent => rw [hresponse] at h; cases (Prod.mk.inj h).1
  | refused status => rw [hresponse] at h; cases (Prod.mk.inj h).1
  | unread => rw [hresponse] at h; cases (Prod.mk.inj h).1
  | body bytes =>
    rw [hresponse] at h
    obtain ⟨_, d₁, hwrite, hcheck⟩ := bind_eq_ok.mp h
    cases written with
    | done =>
      refine ⟨bytes, rfl, ?_⟩
      rw [← (Prod.mk.inj hcheck).2, ← (Prod.mk.inj hwrite).2]
      rfl
    | refused => cases (Prod.mk.inj hcheck).1
    | torn part => cases (Prod.mk.inj hcheck).1

theorem extractTarGz_ok {archive dest : PathBuf} (hbytes : d.contents archive = some bytes)
    (h : extractTarGz untar a archive dest d = (.ok (), d')) :
    d' = placeEntries dest (UnpackAnswer.whole.written (untar bytes).1) d := by
  obtain ⟨bytes', d₁, hread, hrest⟩ := bind_eq_ok.mp h
  obtain ⟨_, d₂, hplace, hcheck⟩ := bind_eq_ok.mp hrest
  have hopens : a.opensArchive = true ∧ bytes' = bytes ∧ d₁ = d := by
    have hresult := (Prod.mk.inj hread).1
    cases hopen : a.opensArchive with
    | false =>
      rw [hopen] at hresult
      cases hresult
    | true =>
      simp only [hopen, hbytes, if_true, Option.elim_some] at hresult
      exact ⟨rfl, (Except.ok.inj hresult).symm, (Prod.mk.inj hread).2.symm⟩
  obtain ⟨_, rfl, rfl⟩ := hopens
  have hwhole : a.unpacks = .whole := by
    have hresult := (Prod.mk.inj hcheck).1
    cases hanswer : (untar bytes').2 && decide (a.unpacks = .whole) with
    | false =>
      rw [hanswer] at hresult
      cases hresult
    | true => exact of_decide_eq_true (Bool.and_eq_true_iff.mp hanswer).2
  rw [hwhole] at hplace
  rw [← (Prod.mk.inj hcheck).2, ← (Prod.mk.inj hplace).2]

/-- What ends up under the name of the engine came in the archive of the release. -/
theorem stage_ok (huntar : StaysUnder untar)
    (hplain : '/' ∉ (archiveName platform latest).toList)
    (hlatest : fetchLatestVersion a.release = .ok latest)
    (hfresh : ∀ place, resolve dir <+: place → d.files place = none)
    (h : stage untar platform a latest dir d = (.ok newBinary, d')) :
    newBinary = dir ++ ["emergent"] ∧
      ∀ binary, d'.contents newBinary = some binary → Shipped untar platform a binary := by
  obtain ⟨hjoin, hnotup, hother⟩ := join_archive hplain dir
  rw [stage, hjoin, join_emergent] at h
  obtain ⟨_, d₁, hdownload, h⟩ := bind_eq_ok.mp h
  obtain ⟨_, d₂, hextract, h⟩ := bind_eq_ok.mp h
  obtain ⟨_, d₃, hfind, h⟩ := bind_eq_ok.mp h
  obtain ⟨_, d₄, hcheck, hpure⟩ := bind_eq_ok.mp h
  obtain ⟨hname, hd'⟩ := Prod.mk.inj hpure
  have hname := Except.ok.inj hname
  obtain ⟨bytes, hbody, hd₁⟩ := download_ok hdownload
  have hread : d₁.contents (dir ++ [archiveName platform latest]) = some bytes := by
    rw [hd₁]
    exact contents_put _ _ _
  have hd₂ := extractTarGz_ok hread hextract
  have hd₃ : d₃ = d₂ := by
    have := findBinary_leaves a (dir ++ ["emergent"]) d₂
    rwa [hfind] at this
  have hsame : d' = d₂ := by rw [← hd', ← (Prod.mk.inj hcheck).2, hd₃]
  refine ⟨hname.symm, fun binary hbinary => ?_⟩
  have hone : ∀ s : String, s ≠ ".." → ".." ∉ [s] := fun s hs hmem =>
    hs (List.mem_singleton.mp hmem).symm
  have hplace : resolve (dir ++ ["emergent"]) = resolve dir ++ ["emergent"] :=
    resolve_append_names (hone _ (by decide)) dir
  rw [← hname, hsame, Disk.contents, hd₂] at hbinary
  rcases placeEntries_cases dir (UnpackAnswer.whole.written (untar bytes).1)
      (resolve (dir ++ ["emergent"])) d₁ with hkept | ⟨written, hmem, hat, hcontent⟩
  · -- the directory was new, and the archive itself stands under another name
    have hnone : d₁.files (resolve (dir ++ ["emergent"])) = none := by
      have hne : resolve (dir ++ ["emergent"]) ≠
          resolve (dir ++ [archiveName platform latest]) := by
        rw [hplace, resolve_append_names (hone _ hnotup)]
        intro heq
        exact hother (List.head_eq_of_cons_eq (List.append_cancel_left heq)).symm
      rw [hd₁]
      refine (if_neg hne).trans (hfresh _ ?_)
      rw [hplace]
      exact List.prefix_append _ _
    rw [hkept, hnone] at hbinary
    cases hbinary
  · obtain ⟨entry, hentry, heq⟩ := List.mem_filterMap.mp hmem
    obtain ⟨content, hcontents, hwritten⟩ := Option.map_eq_some_iff.mp heq
    rw [← hwritten] at hat hcontent
    have hup : ".." ∉ entry.path := huntar bytes entry hentry
    rw [hplace, resolve_append_names hup] at hat
    rw [hcontent] at hbinary
    exact ⟨latest, bytes, hlatest, hbody, entry, hentry, List.append_cancel_left hat,
      hcontents.trans hbinary⟩

end

/-! ### The replacement -/

section
variable (untar : Bytes → List Entry × Bool) (platform : String) (a : Answers)

/-- What a replacement leaves when it is done, and what when it failed. -/
def Replaced (exe : PathBuf) (old : Bytes) (result : Except UpdateError Unit) (d : Disk) : Prop :=
  match result with
  | .ok () => ∃ binary, Shipped untar platform a binary ∧
      (d.contents exe = some binary ↔ backupPath exe ≠ exe ∨ a.removesBackup = false)
  | .error e => backupPath exe ≠ exe → d.contents exe = some old ∨
      e = .install ∧ a.restores = false ∧ d.contents (backupPath exe) = some old

end

section
variable {untar : Bytes → List Entry × Bool} {platform : String} {a : Answers}
  {d d' : Disk} {exe newBinary : PathBuf} {old : Bytes}

theorem replace_keeps (a : Answers) (exe newBinary : PathBuf) :
    Keeps (Within fun place => place = resolve exe ∨ place = resolve (backupPath exe))
      (replace a exe newBinary) := by
  have hrename : ∀ answer (path target : PathBuf), (path = exe ∨ path = backupPath exe) →
      (target = exe ∨ target = backupPath exe) →
      Keeps (Within fun place => place = resolve exe ∨ place = resolve (backupPath exe))
        (tryRename answer path target) := by
    intro answer path target hpath htarget d
    obtain ⟨renamed, hend, _⟩ := tryRename_spec answer path target d
    rw [hend]
    cases renamed with
    | false => exact refl_of (Within _) d
    | true =>
      refine within_rename ?_ ?_ d
      · exact hpath.imp (congrArg resolve) (congrArg resolve)
      · exact htarget.imp (congrArg resolve) (congrArg resolve)
  have hcopy : Keeps (Within fun place => place = resolve exe ∨ place = resolve (backupPath exe))
      (copy a.copies newBinary exe) := by
    intro d
    obtain ⟨complete, d', hend, hwithin, _⟩ := copy_spec a.copies newBinary exe d
    rw [hend]
    exact hwithin.mono fun _ => Or.inl
  refine (hrename _ _ _ (Or.inl rfl) (Or.inr rfl)).bind fun backedUp => ?_
  refine (keeps_check _ _).bind fun _ => hcopy.bind fun complete => ?_
  cases complete with
  | true =>
    cases hremoves : a.removesBackup with
    | true => exact Keeps.update (within_put (Or.inr rfl) none)
    | false => exact Keeps.pure ()
  | false =>
    exact (hrename _ _ _ (Or.inr rfl) (Or.inl rfl)).bind fun _ => Keeps.fail _

/-- A renamed executable is whole in its backup, and stays so while its own place
is filled. -/
theorem whole_of_backup {moment : Files}
    (hmoment : Agrees (fun place => place = resolve exe) d.files moment)
    (hne : backupPath exe ≠ exe) (hbackup : d.contents (backupPath exe) = some old) :
    Whole untar platform a exe old moment :=
  Or.inr (Or.inl ((hmoment _ fun heq => resolve_backupPath hne heq.symm).trans hbackup))

/-- From the backup on: the copy fills the place of the executable, and what
follows takes one rename or one removal. -/
theorem installNew_spec (hbackup : backupPath exe ≠ exe → d.contents (backupPath exe) = some old)
    (hshipped : ∀ binary, d.contents newBinary = some binary → Shipped untar platform a binary) :
    (backupPath exe ≠ exe →
      Passes (Whole untar platform a exe old) d (installNew a exe newBinary d).2) ∧
    Replaced untar platform a exe old (installNew a exe newBinary d).1
      (installNew a exe newBinary d).2 := by
  obtain ⟨complete, d₁, hcopy, hwithin, hcomplete⟩ := copy_spec a.copies newBinary exe d
  have hfilled : backupPath exe ≠ exe → Passes (Whole untar platform a exe old) d d₁ :=
    fun hne => hwithin.1.mono fun _ hm => whole_of_backup hm hne (hbackup hne)
  have hkept : backupPath exe ≠ exe → d₁.contents (backupPath exe) = some old := fun hne =>
    (hwithin.2 _ fun heq => resolve_backupPath hne heq.symm).trans (hbackup hne)
  cases complete with
  | true =>
    obtain ⟨binary, hsource, hexe⟩ := hcomplete rfl
    have hbinary := hshipped binary hsource
    cases hremoves : a.removesBackup with
    | false =>
      have hend : installNew a exe newBinary d = (.ok (), d₁) := by
        rw [installNew, bind_of_ok hcopy]
        simp only [hremoves]
        rfl
      rw [hend]
      exact ⟨hfilled, binary, hbinary, by simp [hexe, hremoves]⟩
    | true =>
      have hend : installNew a exe newBinary d = (.ok (), d₁.put (backupPath exe) none) := by
        rw [installNew, bind_of_ok hcopy]
        simp only [hremoves]
        rfl
      have hafter : backupPath exe ≠ exe →
          (d₁.put (backupPath exe) none).contents exe = some binary := fun hne =>
        (if_neg (resolve_backupPath hne)).trans hexe
      rw [hend]
      refine ⟨fun hne => (hfilled hne).trans (passes_become ?_ d₁), binary, hbinary, ?_⟩
      · exact Or.inr (Or.inr ⟨binary, hbinary, hafter hne⟩)
      · by_cases hne : backupPath exe = exe
        · -- the backup removed is the executable itself
          have hgone : (d₁.put (backupPath exe) none).contents exe = none := by
            have := contents_put (backupPath exe) none d₁
            rwa [hne] at this ⊢
          rw [hgone]
          simp [hne, hremoves]
        · simp [hafter hne, hne]
  | false =>
    obtain ⟨renamed, hrename, hrenamed⟩ := tryRename_spec a.restores (backupPath exe) exe d₁
    have hend : installNew a exe newBinary d =
        (.error .install, if renamed then d₁.rename (backupPath exe) exe else d₁) := by
      rw [installNew, bind_of_ok hcopy]
      exact bind_of_ok hrename
    rw [hend]
    cases renamed with
    | false =>
      refine ⟨hfilled, fun hne => Or.inr ⟨rfl, ?_, hkept hne⟩⟩
      cases hrestores : a.restores with
      | false => rfl
      | true => exact (hrenamed.mpr ⟨hrestores, by simp [hkept hne]⟩).symm
    | true =>
      have hback : backupPath exe ≠ exe →
          (d₁.rename (backupPath exe) exe).contents exe = some old := fun hne =>
        (contents_rename (resolve_backupPath hne).symm d₁).trans (hkept hne)
      refine ⟨fun hne => (hfilled hne).trans ?_, fun hne => Or.inl (hback hne)⟩
      exact passes_rename (Or.inl (hback hne))

theorem replace_spec (hold : d.contents exe = some old)
    (haway : resolve newBinary ≠ resolve exe ∧ resolve newBinary ≠ resolve (backupPath exe))
    (hshipped : ∀ binary, d.contents newBinary = some binary → Shipped untar platform a binary) :
    (backupPath exe ≠ exe →
      Passes (Whole untar platform a exe old) d (replace a exe newBinary d).2) ∧
    Replaced untar platform a exe old (replace a exe newBinary d).1
      (replace a exe newBinary d).2 := by
  obtain ⟨renamed, hrename, hrenamed⟩ := tryRename_spec a.backsUp exe (backupPath exe) d
  cases renamed with
  | false =>
    have hend : replace a exe newBinary d = (.error (.backup (backupPath exe)), d) := by
      rw [replace, bind_of_ok hrename]
      exact bind_of_error rfl
    rw [hend]
    exact ⟨fun _ => .refl d, fun _ => Or.inl hold⟩
  | true =>
    have hend : replace a exe newBinary d =
        installNew a exe newBinary (d.rename exe (backupPath exe)) := by
      rw [replace, bind_of_ok hrename]
      exact bind_of_ok rfl
    have hwithin := within_rename (P := fun place => place = resolve exe ∨
      place = resolve (backupPath exe)) (Or.inl rfl) (Or.inr rfl) d
    have hsource : (d.rename exe (backupPath exe)).contents newBinary = d.contents newBinary :=
      hwithin.2 _ fun h => h.elim haway.1 haway.2
    have hbackup : backupPath exe ≠ exe →
        (d.rename exe (backupPath exe)).contents (backupPath exe) = some old := fun hne => by
      rw [contents_rename (resolve_backupPath hne), hold]
    obtain ⟨hpasses, hreplaced⟩ := installNew_spec (a := a) hbackup
      (fun binary h => hshipped binary (hsource ▸ h))
    rw [hend]
    refine ⟨fun hne => ?_, hreplaced⟩
    have hfirst : Whole untar platform a exe old (d.rename exe (backupPath exe)).files :=
      Or.inr (Or.inl (hbackup hne))
    exact (passes_rename hfirst).trans (hpasses hne)

end

/-! ### The whole update -/

section
variable {untar : Bytes → List Entry × Bool} {platform currentVersion : String} {a : Answers}
  {args : UpdateArgs} {files : Files} {exe : PathBuf} {old : Bytes}

/-- An update that has nothing to do or only says what it would do leaves no trace. -/
def Idle (currentVersion : String) (a : Answers) (args : UpdateArgs) : Prop :=
  (args.force = false ∧ fetchLatestVersion a.release = .ok currentVersion) ∨ args.dryRun = true

/-- An update ends before it has touched anything, or it stages the release and
replaces the executable. -/
theorem execute_cases (untar : Bytes → List Entry × Bool) (platform currentVersion : String)
    (args : UpdateArgs) (hexe : a.currentExe = some exe) (d : Disk) :
    (∃ error, execute untar platform currentVersion a args d = (.error error, d)) ∨
    (execute untar platform currentVersion a args d = (.ok (), d) ∧
      Idle currentVersion a args) ∨
    ∃ latest dir, fetchLatestVersion a.release = .ok latest ∧ a.tempDir = some dir ∧
      ¬ Idle currentVersion a args ∧
      execute untar platform currentVersion a args d =
        (stage untar platform a latest dir >>= replace a exe) d := by
  cases hlatest : fetchLatestVersion a.release with
  | error error =>
    refine Or.inl ⟨error, ?_⟩
    rw [execute]
    exact bind_answer_error hlatest
  | ok latest =>
    have hknown : ∀ latest', (Except.ok latest : Except UpdateError String) = .ok latest' ↔
        latest = latest' := fun latest' => ⟨Except.ok.inj, congrArg Except.ok⟩
    by_cases hsame : currentVersion = latest ∧ args.force = false
    · refine Or.inr (Or.inl ⟨?_, Or.inl ⟨hsame.2, by rw [hlatest, hsame.1]⟩⟩)
      rw [execute, bind_answer_ok hlatest, if_pos hsame]
      rfl
    · have hgo : execute untar platform currentVersion a args d =
          (if args.dryRun then pure ()
          else do
            let dir ← .inspect fun _ => a.tempDir.elim (.error .tempDir) .ok
            let newBinary ← stage untar platform a latest dir
            replace a exe newBinary : Op Unit) d := by
        rw [execute, bind_answer_ok hlatest, if_neg hsame]
        exact bind_answer_ok (by rw [hexe]; rfl)
      have hbusy : args.dryRun = false → ¬ Idle currentVersion a args := by
        rintro hwet (⟨hforce, hversion⟩ | hdry)
        · rw [hlatest, hknown] at hversion
          exact hsame ⟨hversion.symm, hforce⟩
        · rw [hwet] at hdry
          cases hdry
      cases hdry : args.dryRun with
      | true =>
        refine Or.inr (Or.inl ⟨?_, Or.inr hdry⟩)
        rw [hgo, hdry]
        rfl
      | false =>
        cases htemp : a.tempDir with
        | none =>
          refine Or.inl ⟨.tempDir, ?_⟩
          rw [hgo, hdry]
          exact bind_answer_error (by rw [htemp]; rfl)
        | some dir =>
          refine Or.inr (Or.inr ⟨latest, dir, rfl, rfl, hbusy hdry, ?_⟩)
          rw [hgo, hdry]
          exact bind_answer_ok (by rw [htemp]; rfl)

/-- Where the tag of the release has no slash, an update touches nothing outside its
temporary directory but the executable and its backup, whatever the network and the
disk answer. Where the executable does not carry the extension of the backup, one of
the two is a whole binary wherever a crash strikes, and a failed update leaves the old
executable, or its backup where putting it back failed too. A finished update leaves
the binary of the release, unless the executable carries that extension and is
removed as the backup. -/
theorem execute_safe (huntar : StaysUnder untar) (hexe : a.currentExe = some exe)
    (hexpected : Expected platform a files exe) (hold : files (resolve exe) = some old) :
    let result := (execute untar platform currentVersion a args (.holding files)).1
    let d := (execute untar platform currentVersion a args (.holding files)).2
    (∀ moment ∈ d.moments, ∀ place, place ≠ resolve exe → place ≠ resolve (backupPath exe) →
      (∀ dir ∈ a.tempDir, ¬ resolve dir <+: place) → moment place = files place) ∧
    (backupPath exe ≠ exe → ∀ moment ∈ d.moments, Whole untar platform a exe old moment) ∧
    (Idle currentVersion a args → d = .holding files) ∧
    (¬ Idle currentVersion a args → Replaced untar platform a exe old result d) := by
  intro result d
  have hwhole : Whole untar platform a exe old files := Or.inl hold
  have hrest : d = .holding files →
      (∀ moment ∈ d.moments, moment = files) := fun hd moment hmoment => by
    rw [hd] at hmoment
    exact List.mem_singleton.mp hmoment
  rcases execute_cases untar platform currentVersion args hexe (.holding files) with
    ⟨error, hend⟩ | ⟨hend, hidle⟩ | ⟨latest, dir, hlatest, htemp, hbusy, hend⟩
  · have hd : d = .holding files := congrArg Prod.snd hend
    have hresult : result = .error error := congrArg Prod.fst hend
    refine ⟨fun moment hm place _ _ _ => by rw [hrest hd moment hm],
      fun _ moment hm => by rwa [hrest hd moment hm], fun _ => hd, fun _ => ?_⟩
    rw [hresult, hd]
    exact fun _ => Or.inl hold
  · have hd : d = .holding files := congrArg Prod.snd hend
    exact ⟨fun moment hm place _ _ _ => by rw [hrest hd moment hm],
      fun _ moment hm => by rwa [hrest hd moment hm], fun _ => hd, fun hbusy => absurd hidle hbusy⟩
  · have hfresh := hexpected.fresh dir htemp
    have hplain := hexpected.plain latest hlatest
    have hstaged := stage_keeps huntar hplain a dir (.holding files)
    have hexeout : ¬ resolve dir <+: resolve exe := fun hin => by
      rw [hfresh _ hin] at hold
      cases hold
    have hbackout : ¬ resolve dir <+: resolve (backupPath exe) := hexpected.apart dir htemp
    have hstagewhole : Passes (Whole untar platform a exe old) (.holding files)
        (stage untar platform a latest dir (.holding files)).2 :=
      hstaged.1.mono fun moment hm => Or.inl ((hm _ hexeout).trans hold)
    have hstageold : (stage untar platform a latest dir (.holding files)).2.contents exe =
        some old := (hstaged.2 _ hexeout).trans hold
    have hframe : Within (fun place => resolve dir <+: place ∨ place = resolve exe ∨
        place = resolve (backupPath exe)) (.holding files) d := by
      have hd : d = ((stage untar platform a latest dir >>= replace a exe) (.holding files)).2 :=
        congrArg Prod.snd hend
      rw [hd]
      exact leaves_bind (hstaged.mono fun _ => Or.inl) fun newBinary t _ =>
        (replace_keeps a exe newBinary t).mono fun _ => Or.inr
    have hends : (backupPath exe ≠ exe → Passes (Whole untar platform a exe old)
        (.holding files) d) ∧ Replaced untar platform a exe old result d := by
      rcases bind_cases (stage untar platform a latest dir) (replace a exe) (.holding files) with
        ⟨error, t, hstage, hbind⟩ | ⟨newBinary, t, hstage, hbind⟩
      · rw [hstage] at hstagewhole hstageold
        have hd : d = t := congrArg Prod.snd (hend.trans hbind)
        have hresult : result = .error error := congrArg Prod.fst (hend.trans hbind)
        rw [hd, hresult]
        exact ⟨fun _ => hstagewhole, fun _ => Or.inl hstageold⟩
      · rw [hstage] at hstagewhole hstageold
        obtain ⟨hname, hshipped⟩ := stage_ok huntar hplain hlatest hfresh hstage
        have hunder : Under dir newBinary := by
          rw [hname]
          exact under_append (by decide) dir
        obtain ⟨hpasses, hreplaced⟩ := replace_spec hstageold
          ⟨fun heq => hexeout (heq ▸ hunder), fun heq => hbackout (heq ▸ hunder)⟩ hshipped
        have hd : d = (replace a exe newBinary t).2 := congrArg Prod.snd (hend.trans hbind)
        have hresult : result = (replace a exe newBinary t).1 :=
          congrArg Prod.fst (hend.trans hbind)
        rw [hd, hresult]
        exact ⟨fun hne => hstagewhole.trans (hpasses hne), hreplaced⟩
    refine ⟨?_, ?_, fun hidle => absurd hidle hbusy, fun _ => hends.2⟩
    · obtain ⟨more, hmore, hall⟩ := hframe.1
      intro moment hmoment place hexe hback hout
      rw [hmore] at hmoment
      rcases List.mem_append.mp hmoment with hfirst | hlater
      · rw [List.mem_singleton.mp hfirst]
      · exact hall moment hlater place fun h =>
          h.elim (hout dir htemp) fun h => h.elim hexe hback
    · intro hne moment hmoment
      obtain ⟨more, hmore, hall⟩ := hends.1 hne
      rw [hmore] at hmoment
      rcases List.mem_append.mp hmoment with hfirst | hlater
      · rwa [List.mem_singleton.mp hfirst]
      · exact hall moment hlater

end

/-! An update to the next release, whose copy stands half written for a moment. -/

def oldBinary : Bytes := "old".toUTF8

def newBinary : Bytes := "new".toUTF8

def releaseArchive : Bytes := "archive".toUTF8

def untarRelease (bytes : Bytes) : List Entry × Bool :=
  if bytes = releaseArchive then ([⟨["emergent"], some newBinary⟩], true) else ([], false)

def installedExe : PathBuf := ["usr", "bin", "emergent"]

def installedFiles : Files := fun place => if place = installedExe then some oldBinary else none

def upgrade : Answers where
  release := .body (some "v0.11.0")
  currentExe := some installedExe
  tempDir := some ["tmp", ".tmpA1b2C3"]
  download := fun _ => .body releaseArchive
  archiveWritten := .done
  opensArchive := true
  unpacks := .whole
  isDirectory := false
  listing := some []
  setsPermissions := true
  backsUp := true
  copies := .done ["n".toUTF8]
  restores := true
  removesBackup := true

theorem execute_safe_upgrade :
    (execute untarRelease "x86_64-unknown-linux-gnu" "0.10.0" upgrade ⟨false, false⟩
        (.holding installedFiles)).1 = .ok () ∧
    (∀ moment ∈ (execute untarRelease "x86_64-unknown-linux-gnu" "0.10.0" upgrade ⟨false, false⟩
        (.holding installedFiles)).2.moments,
      Whole untarRelease "x86_64-unknown-linux-gnu" upgrade installedExe oldBinary moment) ∧
    Replaced untarRelease "x86_64-unknown-linux-gnu" upgrade installedExe oldBinary
      (execute untarRelease "x86_64-unknown-linux-gnu" "0.10.0" upgrade ⟨false, false⟩
        (.holding installedFiles)).1
      (execute untarRelease "x86_64-unknown-linux-gnu" "0.10.0" upgrade ⟨false, false⟩
        (.holding installedFiles)).2 := by
  have hversion : fetchLatestVersion upgrade.release = .ok "0.11.0" := by rfl
  have huntar : StaysUnder untarRelease := by
    intro bytes entry hentry
    rw [untarRelease] at hentry
    split at hentry
    · rw [List.mem_singleton.mp hentry]
      decide
    · cases hentry
  have hexpected : Expected "x86_64-unknown-linux-gnu" upgrade installedFiles installedExe := by
    refine ⟨?_, ?_, ?_⟩
    · intro dir hdir place hplace
      rw [← Option.some.inj hdir] at hplace
      refine if_neg fun heq => ?_
      rw [heq] at hplace
      exact absurd hplace (by decide)
    · intro dir hdir
      rw [← Option.some.inj hdir]
      decide
    · intro latest hlatest
      rw [hversion] at hlatest
      rw [← Except.ok.inj hlatest]
      decide
  have hbusy : ¬ Idle "0.10.0" upgrade ⟨false, false⟩ := by
    rintro (⟨_, hsame⟩ | hdry)
    · rw [hversion] at hsame
      exact absurd (Except.ok.inj hsame) (by decide)
    · exact Bool.false_ne_true hdry
  have h := @execute_safe _ _ "0.10.0" _ ⟨false, false⟩ _ _ _ huntar rfl hexpected (if_pos rfl)
  exact ⟨by rfl, h.2.1 (by decide), h.2.2.2 hbusy⟩

end Emergent.Engine.SelfUpdate

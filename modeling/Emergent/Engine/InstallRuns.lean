import Emergent.Engine.InstallPaths
import Emergent.Kit.Runs
import Emergent.Kit.Table

/-!
# What an installation keeps (`marketplace/installer.rs`, `storage.rs`)

An installation is the manifest on disk and the binaries it lists. Installing,
updating and removing change both one step after the other, the files of an
archive straight into the directory they are used from, and nothing is taken back
when a later step fails.
-/

namespace Emergent.Engine.Marketplace
open Kit Kit.Text Kit.Paths Kit.Fallible

/-- An install of this version of this primitive ended well and its archive put this
binary in its place. -/
structure Shipment where
  name : String
  version : String
  binary : Bytes
  deriving DecidableEq

structure Installation where
  world : World
  shipped : List Shipment

/-- The call left these places as they were. -/
def Spares (L : PathBuf → Prop) (w w' : World) : Prop :=
  ∀ place, L place → w'.files place = w.files place

instance (L : PathBuf → Prop) : Std.Refl (Spares L) := ⟨fun _ _ _ => rfl⟩

theorem Spares.trans {L : PathBuf → Prop} {w w' w'' : World} (h : Spares L w w')
    (h' : Spares L w' w'') : Spares L w w'' :=
  fun place hplace => (h' place hplace).trans (h place hplace)

instance (L : PathBuf → Prop) : IsTrans World (Spares L) := ⟨fun _ _ _ => Spares.trans⟩

/-- What was last left at the place. -/
def lastPlaced (log : List (PathBuf × Option Bytes)) (place : PathBuf) : Option (Option Bytes) :=
  log.reverse.lookup place

section
variable (site : Site) (tools : Tools)

/-- What the manifest on disk lists. -/
def listed (w : World) : InstallationManifest :=
  (((w.contents (manifestPath site)).bind String.fromUTF8?).bind tools.readManifest).getD []

/-- The manifest and the listed binaries. -/
def Protected (w : World) (place : PathBuf) : Prop :=
  place = resolve (manifestPath site) ∨
    ∃ entry ∈ listed site tools w, place = resolve entry.2.binaryPath

/-- Every listed binary is one that was installed with the recorded version. -/
def Faithful (s : Installation) : Prop :=
  ∀ entry ∈ listed site tools s.world, ∃ binary,
    s.world.contents entry.2.binaryPath = some binary ∧
      (⟨entry.1, entry.2.version, binary⟩ : Shipment) ∈ s.shipped

/-! ### Calls -/

inductive Call where
  | install (a : InstallAnswers) (options : InstallOptions)
  | remove (a : RemoveAnswers) (name : String)
  | update (a : UpdateAnswers) (name : String) (dryRun : Bool)

/-- How the call ends and what it leaves. -/
def Call.run (w : World) : Call → Except MarketplaceError Unit × World
  | .install a options =>
    let ended := Marketplace.install site tools a options w
    (ended.1.map fun _ => (), ended.2)
  | .remove a name => Marketplace.remove site tools a name w
  | .update a name dryRun =>
    let ended := Marketplace.update site tools a name dryRun w
    (ended.1.map fun _ => (), ended.2)

/-- An install that fails installs nothing, whatever its archive left behind. -/
def installShipments (a : InstallAnswers) (options : InstallOptions) (w : World) :
    List Shipment :=
  let ended := Marketplace.install site tools a options w
  match ended.1, lastPlaced (ended.2.placed.drop w.placed.length)
      (resolve (join (binDir site) options.name)) with
  | .ok result, some (some binary) => [⟨options.name, result.version, binary⟩]
  | _, _ => []

def updateOptions (name version : String) : InstallOptions := ⟨name, some version, true, false⟩

def Call.shipments (w : World) : Call → List Shipment
  | .install a options => installShipments site tools a options w
  | .remove _ _ => []
  | .update a name dryRun =>
    match updateTarget site tools a name dryRun w with
    | (.ok (some version), w') =>
      installShipments site tools a.install (updateOptions name version) w'
    | _ => []

def Installation.step (s : Installation) (call : Call) : Option Installation :=
  some ⟨(call.run site tools s.world).2, s.shipped ++ call.shipments site tools s.world⟩

end

/-! ### What spares a place -/

section
variable {L : PathBuf → Prop} {site : Site} {tools : Tools}

theorem spares_put {path : PathBuf} (h : ¬ L (resolve path)) (w : World) (content : Option Bytes) :
    Spares L w (w.put path content) := by
  intro place hplace
  have hne : place ≠ resolve path := by
    intro heq
    rw [heq] at hplace
    exact h hplace
  exact if_neg hne

theorem spares_touch (path : PathBuf) (w : World) : Spares L w (w.touch path) := fun _ _ => rfl

theorem spares_write {path : PathBuf} (h : ¬ L (resolve path)) (w : World) (answer : WriteAnswer)
    (content : Bytes) : Spares L w (w.write answer path content) := by
  cases answer with
  | done => exact spares_put h (w.touch path) _
  | refused => exact spares_touch path w
  | torn part => exact spares_put h (w.touch path) _

/-- Fetching the bundle of this version writes to none of these places. -/
structure CacheApart (site : Site) (L : PathBuf → Prop) (asset : AssetAnswers)
    (version : Option String) : Prop where
  clone : asset.legacyClone = true → ∀ place, L place → ¬ resolve (legacyClone site) <+: place
  copy : version.all isSafeVersion = true → ¬ L (resolve (cachePath site version manifestsFile))
  part : version.all isSafeVersion = true →
    ¬ L (resolve (withExtension (cachePath site version manifestsFile) "part"))

/-- Places outside the cache are apart from everything that is fetched. -/
theorem cacheApart_of_outside (h : ∀ place, L place → ¬ resolve site.cacheDir <+: place)
    (asset : AssetAnswers) (version : Option String) : CacheApart site L asset version := by
  have hnames : ∀ path, ".." ∉ path → ¬ L (resolve (site.cacheDir ++ path)) := by
    intro path hpath hplace
    apply h _ hplace
    rw [resolve_append_names hpath]
    exact List.prefix_append _ _
  constructor
  · intro _ place hplace hprefix
    apply h place hplace
    rw [legacyClone_eq, resolve_append_names (by decide)] at hprefix
    exact (List.prefix_append _ _).trans hprefix
  · intro hsafe
    have hscope := (cacheScope_name hsafe).2.symm
    rw [cachePath_eq hsafe]
    exact hnames _ (by simpa using hscope)
  · intro hsafe
    have hscope := (cacheScope_name hsafe).2.symm
    rw [cachePath_eq hsafe, withExtension_cachePath]
    exact hnames _ (by simpa using hscope)

theorem spares_writeCache {path : PathBuf} (hpath : ¬ L (resolve path))
    (hpart : ¬ L (resolve (withExtension path "part"))) (w : World) (asset : AssetAnswers)
    (body : String) : Spares L w (w.writeCache asset path body) := by
  have hwritten : ∀ answer, Spares L w ((w.touch (parent path)).write answer
      (withExtension path "part") body.toUTF8) :=
    fun answer => (spares_touch _ w).trans (spares_write hpart _ answer _)
  unfold World.writeCache
  simp only
  split_ifs
  · exact spares_touch _ w
  · exact hwritten _
  · refine (hwritten .done).trans ?_
    exact (((spares_touch _ _).trans (spares_touch _ _)).trans
      (spares_put hpath _ _)).trans (spares_put hpart _ _)
  · exact (hwritten .done).trans (spares_put hpart _ _)
  · exact hwritten .done

theorem keepsCache_spares {asset : AssetAnswers} {version : Option String}
    (h : CacheApart site L asset version) : KeepsCache (Spares L) site asset version where
  remember w _ _ := refl_of (Spares L) w
  clone w := by
    unfold World.dropLegacyClone
    split_ifs with hclone
    · intro place hplace
      apply if_neg
      rintro ⟨hunder, _⟩
      exact h.clone hclone place hplace hunder
    · exact refl_of (Spares L) w
  cache hsafe w body := spares_writeCache (h.copy hsafe) (h.part hsafe) w asset body

/-- Archives leave at a place what they put there last. -/
theorem placeEntries_files (dest : PathBuf) (written : List (List String × Option Bytes))
    (w : World) (place : PathBuf) :
    (placeEntries dest written w).files place =
      (lastPlaced (written.map fun entry => (resolve (dest ++ entry.1), entry.2)) place).getD
        (w.files place) := by
  induction written generalizing w with
  | nil => rfl
  | cons entry written ih =>
    have hrest := ih (w.put (dest ++ entry.1) entry.2)
    have hfold : placeEntries dest (entry :: written) w =
        placeEntries dest written (w.put (dest ++ entry.1) entry.2) := rfl
    rw [hfold, hrest, lastPlaced, lastPlaced, List.map_cons, List.reverse_cons,
      List.lookup_append]
    cases (written.map fun entry => (resolve (dest ++ entry.1), entry.2)).reverse.lookup place with
    | some content => rfl
    | none =>
      rw [Option.none_or, Option.getD_none]
      by_cases hplace : place = resolve (dest ++ entry.1)
      · simp [World.put, hplace]
      · have hne : (place == resolve (dest ++ entry.1)) = false := beq_false_of_ne hplace
        simp [World.put, hplace, List.lookup_cons, hne]

theorem lastPlaced_none {log : List (PathBuf × Option Bytes)} {place : PathBuf}
    (h : ∀ entry ∈ log, entry.1 ≠ place) : lastPlaced log place = none := by
  apply List.lookup_eq_none_iff.mpr
  intro entry hentry
  have hne := h entry (List.mem_reverse.mp hentry)
  simpa using hne.symm

theorem lastPlaced_mem {log : List (PathBuf × Option Bytes)} {place : PathBuf}
    (h : ∃ entry ∈ log, entry.1 = place) :
    ∃ content, lastPlaced log place = some content ∧ (place, content) ∈ log := by
  cases hlast : lastPlaced log place with
  | none =>
    obtain ⟨entry, hentry, hplace⟩ := h
    have hne := List.lookup_eq_none_iff.mp hlast entry (List.mem_reverse.mpr hentry)
    rw [hplace] at hne
    simp at hne
  | some content =>
    exact ⟨content, rfl, List.mem_reverse.mp (Table.mem_of_lookup hlast)⟩

/-! ### Before anything is unpacked -/

variable {a : InstallAnswers} {options : InstallOptions} {release : Release}

theorem spares_fetchArchive (w : World)
    (h : ∀ dir bytes, a.binDirMade = true → a.tempDir = some dir →
      a.download (downloadUrl release) = .body bytes → ¬ L (resolve (join dir release.filename))) :
    Spares L w (fetchArchive site tools a release w).2 := by
  unfold fetchArchive
  cases hmade : a.binDirMade with
  | false => exact spares_touch _ w
  | true =>
    refine leaves_bind (keeps_createDirAll (fun w => spares_touch _ w) w) ?_
    intro _ w₁ _
    cases hdir : a.tempDir with
    | none => exact refl_of (Spares L) w₁
    | some dir =>
      have htemp : Keeps (Spares L) (tempdir (some dir)) :=
        Keeps.bind (Keeps.update fun w => spares_touch _ w) fun _ => Keeps.pure _
      refine leaves_bind (htemp w₁) ?_
      intro dir' w₂ hdir'
      have hsame : dir = dir' := Except.ok.inj (Prod.mk.inj hdir').1
      rw [← hsame]
      refine leaves_bind (keeps_downloadBinary ?_ w₂) ?_
      · intro bytes hbytes w'
        exact spares_write (h dir bytes hmade hdir hbytes) w' _ bytes
      · intro _ w₃ _
        exact refl_of (Spares L) w₃

/-! ### The manifest that is loaded and saved -/

theorem loadManifest_eq_ok {answers : LoadAnswers} {data : InstallationManifest} {w w' : World}
    (h : loadManifest site tools answers w = (.ok data, w')) :
    w' = w ∧ (data = [] ∨ data = listed site tools w) := by
  refine ⟨((keeps_loadManifest (R := Eq) answers).of_eq h).symm, ?_⟩
  obtain ⟨seen, w₁, hseen, h⟩ := bind_eq_ok.mp h
  have hstate : w = w₁ := (Prod.mk.inj hseen).2
  rw [← hstate] at h
  cases seen with
  | false => exact Or.inl (Except.ok.inj (Prod.mk.inj h).1).symm
  | true =>
    obtain ⟨content, w₂, hread, h⟩ := bind_eq_ok.mp h
    obtain ⟨_, hcontents, _⟩ := readFile_eq_ok hread
    right
    cases htext : String.fromUTF8? content with
    | none =>
      simp only [htext] at h
      cases (Prod.mk.inj h).1
    | some text =>
      simp only [htext] at h
      cases hmanifest : tools.readManifest text with
      | none =>
        simp only [hmanifest] at h
        cases (Prod.mk.inj h).1
      | some manifest =>
        simp only [hmanifest] at h
        rw [listed, hcontents, Option.bind_some, htext, Option.bind_some, hmanifest]
        exact (Except.ok.inj (Prod.mk.inj h).1).symm

/-- What is written as TOML is read back. -/
def Tools.ReadsBack (tools : Tools) : Prop :=
  ∀ manifest text, tools.writeManifest manifest = some text →
    tools.readManifest text = some manifest

theorem saveManifest_eq_ok (htools : tools.ReadsBack) {answer : WriteAnswer}
    {manifest : InstallationManifest} {w w' : World}
    (h : saveManifest site tools answer manifest w = (.ok (), w')) :
    answer = .done ∧ listed site tools w' = manifest ∧ w'.placed = w.placed ∧
      ∀ place, place ≠ resolve (manifestPath site) → w'.files place = w.files place := by
  cases htext : tools.writeManifest manifest with
  | none =>
    simp only [saveManifest, htext] at h
    cases (Prod.mk.inj h).1
  | some text =>
    simp only [saveManifest, htext] at h
    obtain ⟨hdone, hstate⟩ := writeFile_eq_ok h
    have hlisted : listed site tools w' = manifest := by
      rw [hstate, listed, contents_put, Option.bind_some, fromUTF8_toUTF8, Option.bind_some,
        htools manifest text htext]
      rfl
    have hplaced : w'.placed = w.placed := by
      rw [hstate]
      rfl
    refine ⟨hdone, hlisted, hplaced, ?_⟩
    intro place hplace
    rw [hstate]
    exact if_neg hplace

theorem saveManifest_serializes {answer : WriteAnswer} {manifest : InstallationManifest}
    {w w' : World} (h : saveManifest site tools answer manifest w = (.ok (), w')) :
    (tools.writeManifest manifest).isSome = true := by
  cases htext : tools.writeManifest manifest with
  | none =>
    simp only [saveManifest, htext] at h
    cases (Prod.mk.inj h).1
  | some text => rfl

/-- A save that is not torn leaves everything when it fails. -/
theorem saveManifest_eq_error {answer : WriteAnswer} {manifest : InstallationManifest}
    {w w' : World} {e : MarketplaceError}
    (htorn : (tools.writeManifest manifest).isSome = true → ∀ part, answer ≠ .torn part)
    (h : saveManifest site tools answer manifest w = (.error e, w')) : w'.files = w.files := by
  cases htext : tools.writeManifest manifest with
  | none =>
    simp only [saveManifest, htext] at h
    rw [← (Prod.mk.inj h).2]
  | some text =>
    simp only [saveManifest, htext] at h
    cases answer with
    | done => cases (Prod.mk.inj h).1
    | refused =>
      rw [← (Prod.mk.inj h).2]
      rfl
    | torn part => exact absurd rfl (htorn (by rw [htext]; rfl) part)

theorem listed_of_spares {w w' : World} (h : Spares (Protected site tools w) w w') :
    listed site tools w' = listed site tools w := by
  have hmanifest : w'.contents (manifestPath site) = w.contents (manifestPath site) :=
    h _ (Or.inl rfl)
  rw [listed, hmanifest]
  rfl

theorem protected_of_listed {w w' : World} (h : listed site tools w' = listed site tools w) :
    Protected site tools w' = Protected site tools w := by
  unfold Protected
  rw [h]

end

end Emergent.Engine.Marketplace

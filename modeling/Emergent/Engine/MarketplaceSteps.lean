import Emergent.Engine.Marketplace

/-!
# What the steps of an install change

A relation that every change to the world keeps holds across the computations
that make these changes, however they end. Each rule names the changes its
computation can make.
-/

namespace Emergent.Engine.Marketplace
open Kit Kit.Text Kit.Paths Kit.Fallible

section
variable {R : World → World → Prop} [Std.Refl R] {site : Site} {tools : Tools}

/-! ### Steps that only look -/

theorem keeps_check (error : MarketplaceError) (answer : Bool) : Keeps R (check error answer) :=
  Keeps.inspect _

theorem keeps_readFile (reads : Bool) (path : PathBuf) : Keeps R (readFile reads path) :=
  Keeps.inspect _

theorem keeps_isFile (sees : Bool) (path : PathBuf) : Keeps R (isFile sees path) :=
  Keeps.inspect _

theorem keeps_readCache (a : AssetAnswers) (path : PathBuf) : Keeps R (readCache a path) :=
  Keeps.inspect _

theorem keeps_remembered (url : String) : Keeps R (remembered url) := Keeps.inspect _

variable [IsTrans World R]

theorem keeps_loadManifest (a : LoadAnswers) : Keeps R (loadManifest site tools a) := by
  unfold loadManifest
  refine Keeps.bind (keeps_isFile _ _) ?_
  intro seen
  cases seen with
  | false => exact Keeps.pure _
  | true =>
    refine Keeps.bind (keeps_readFile _ _) ?_
    intro content
    cases String.fromUTF8? content with
    | none => exact Keeps.fail _
    | some text =>
      simp only
      cases tools.readManifest text with
      | none => exact Keeps.fail _
      | some manifest => exact Keeps.pure _

theorem keeps_verifyArchive (reads : Bool) (archive : PathBuf) (expected : Option String) :
    Keeps R (verifyArchive tools reads archive expected) := by
  cases expected with
  | none => exact Keeps.pure _
  | some expected =>
    refine Keeps.bind (keeps_readFile _ _) ?_
    intro bytes
    exact Keeps.bind (Keeps.inspect _) fun _ => Keeps.pure _

/-! ### Steps that write -/

theorem keeps_writeFile {answer : WriteAnswer} {path : PathBuf} {content : Bytes}
    (h : ∀ w : World, R w (w.write answer path content)) :
    Keeps R (writeFile answer path content) :=
  Keeps.bind (Keeps.update h) fun _ => keeps_check _ _

theorem keeps_createDirAll {made : Bool} {path : PathBuf} (h : ∀ w : World, R w (w.touch path)) :
    Keeps R (createDirAll made path) :=
  Keeps.bind (Keeps.update h) fun _ => keeps_check _ _

theorem keeps_saveManifest {answer : WriteAnswer} {manifest : InstallationManifest}
    (h : ∀ (w : World) content, R w (w.write answer (manifestPath site) content)) :
    Keeps R (saveManifest site tools answer manifest) := by
  unfold saveManifest
  cases tools.writeManifest manifest with
  | none => exact Keeps.fail _
  | some text => exact keeps_writeFile fun w => h w _

/-- What fetching an asset may do to the cache of the process and of the disk. -/
structure KeepsCache (R : World → World → Prop) (site : Site) (a : AssetAnswers)
    (version : Option String) : Prop where
  remember : ∀ (w : World) url body, R w (w.remember url body)
  clone : ∀ w : World, R w (w.dropLegacyClone site a)
  cache : version.all isSafeVersion = true → ∀ (w : World) body,
    R w (w.writeCache a (cachePath site version manifestsFile) body)

theorem keeps_fetchAsset {a : AssetAnswers} {url file : String} {cached : PathBuf}
    (hremember : ∀ (w : World) url body, R w (w.remember url body))
    (hcache : ∀ (w : World) body, R w (w.writeCache a cached body)) :
    Keeps R (fetchAsset a url file cached) := by
  unfold fetchAsset
  cases httpGet (a.bundle url) url file with
  | ok body =>
    refine Keeps.bind (Keeps.update fun w => hcache w body) ?_
    intro _
    exact Keeps.bind (Keeps.update fun w => hremember w url body) fun _ => Keeps.pure _
  | error e =>
    refine Keeps.bind (keeps_readCache _ _) ?_
    intro copy
    cases e.isUnreachable with
    | false => exact Keeps.fail _
    | true =>
      cases copy with
      | none => exact Keeps.fail _
      | some body =>
        exact Keeps.bind (Keeps.update fun w => hremember w url body) fun _ => Keeps.pure _

theorem keeps_asset {a : AssetAnswers} {version : Option String}
    (h : KeepsCache R site a version) : Keeps R (asset site a version manifestsFile) := by
  unfold asset
  cases hsafe : version.all isSafeVersion with
  | false => exact Keeps.fail _
  | true =>
    refine Keeps.bind (keeps_check _ _) ?_
    intro _
    refine Keeps.bind (keeps_remembered _) ?_
    intro known
    cases known with
    | some body => exact Keeps.pure _
    | none =>
      refine Keeps.bind (Keeps.update h.clone) ?_
      intro _
      refine Keeps.bind (keeps_isFile _ _) ?_
      intro isCached
      refine Keeps.bind (keeps_readCache _ _) ?_
      intro copy
      have hfetch : Keeps R (fetchAsset a (assetUrl site.baseUrl version manifestsFile)
          manifestsFile (cachePath site version manifestsFile)) :=
        keeps_fetchAsset h.remember (h.cache hsafe)
      cases cachePlan version.isSome isCached with
      | fetch => exact hfetch
      | useCache =>
        cases copy with
        | none => exact hfetch
        | some body =>
          exact Keeps.bind (Keeps.update fun w => h.remember w _ body) fun _ => Keeps.pure _

theorem keeps_getManifest {a : AssetAnswers} {name : String} {version : Option String}
    (h : KeepsCache R site a version) : Keeps R (getManifest site tools a name version) := by
  unfold getManifest
  refine Keeps.bind (keeps_asset h) ?_
  intro body
  cases tools.parseBundle body with
  | none => exact Keeps.fail _
  | some bundle =>
    simp only
    cases bundle.lookup name with
    | none => exact Keeps.fail _
    | some manifest => exact Keeps.pure _

theorem keeps_checkInstalled {a : InstallAnswers} (options : InstallOptions) (version : String) :
    Keeps R (checkInstalled site tools a options version) := by
  unfold checkInstalled
  split_ifs
  · exact Keeps.pure _
  · exact Keeps.bind (keeps_loadManifest _) fun _ => keeps_check _ _

theorem keeps_resolveRelease {a : InstallAnswers} {options : InstallOptions}
    (h : KeepsCache R site a.asset options.version) :
    Keeps R (resolveRelease site tools a options) := by
  unfold resolveRelease
  refine Keeps.bind (keeps_getManifest h) ?_
  intro manifest
  refine Keeps.bind (keeps_checkInstalled _ _) ?_
  intro _
  cases manifest.binaries.targets.lookup site.platform with
  | none => exact Keeps.fail _
  | some filename => exact Keeps.pure _

theorem keeps_downloadBinary {response : String → Response Bytes} {written : WriteAnswer}
    {url : String} {dest : PathBuf}
    (h : ∀ bytes, response url = .body bytes → ∀ w : World, R w (w.write written dest bytes)) :
    Keeps R (downloadBinary tools response written url dest) := by
  unfold downloadBinary
  cases hresponse : response url with
  | unsent => exact Keeps.fail _
  | refused status => exact Keeps.fail _
  | unread => exact Keeps.fail _
  | body bytes => exact keeps_writeFile (h bytes hresponse)

theorem keeps_setExecutable {a : InstallAnswers} {path : PathBuf}
    (h : ∀ w : World, R w (w.touch path)) : Keeps R (setExecutable a path) := by
  unfold setExecutable
  refine Keeps.bind (keeps_isFile _ _) ?_
  intro found
  refine Keeps.bind (keeps_check _ _) ?_
  intro _
  exact Keeps.bind (Keeps.update h) fun _ => keeps_check _ _

theorem keeps_extractArchive {a : InstallAnswers} {archive dest : PathBuf}
    (h : ∀ format bytes, ∀ w : World,
      R w (w.unpack a.unpacks (tools.unpack format bytes).1 bytes dest)) :
    Keeps R (extractArchive tools a archive dest) := by
  unfold extractArchive
  refine Keeps.bind (keeps_readFile _ _) ?_
  intro bytes
  refine Keeps.bind (Keeps.inspect _) ?_
  intro format
  exact Keeps.bind (Keeps.update (h format bytes)) fun _ => keeps_check _ _

theorem keeps_recordInstalled {a : InstallAnswers} {name : String} {release : Release}
    {binaryPath : PathBuf}
    (h : ∀ (w : World) content, R w (w.write a.saves (manifestPath site) content)) :
    Keeps R (recordInstalled site tools a name release binaryPath) :=
  Keeps.bind (keeps_loadManifest _) fun _ => keeps_saveManifest h

end

/-! ### What a step that ends well has done -/

section
variable {site : Site} {tools : Tools} {a : InstallAnswers} {release : Release} {w : World}

theorem readFile_of_contents {path : PathBuf} {bytes : Bytes} (h : w.contents path = some bytes) :
    readFile true path w = (.ok bytes, w) := by
  simp [readFile, inspect, h]

theorem readFile_eq_ok {reads : Bool} {path : PathBuf} {bytes : Bytes} {w' : World}
    (h : readFile reads path w = (.ok bytes, w')) :
    reads = true ∧ w.contents path = some bytes ∧ w' = w := by
  obtain ⟨hfound, hsame⟩ := Prod.mk.inj h
  cases reads with
  | false => cases hfound
  | true =>
    simp only [if_true] at hfound
    cases hcontents : w.contents path with
    | none =>
      rw [hcontents] at hfound
      cases hfound
    | some found =>
      rw [hcontents] at hfound
      exact ⟨rfl, by rw [Except.ok.inj hfound], hsame.symm⟩

theorem contents_put (w : World) (path : PathBuf) (content : Option Bytes) :
    (w.put path content).contents path = content := if_pos rfl

theorem writeFile_eq_ok {answer : WriteAnswer} {path : PathBuf} {content : Bytes} {w' : World}
    (h : writeFile answer path content w = (.ok (), w')) :
    answer = .done ∧ w' = (w.touch path).put path (some content) := by
  obtain ⟨_, w₁, hwrite, hcheck⟩ := bind_eq_ok.mp h
  obtain ⟨hpassed, hsame⟩ := Prod.mk.inj hcheck
  have hdone : answer = .done := by
    by_contra hnot
    rw [decide_eq_false hnot] at hpassed
    cases hpassed
  have hstate : w.write answer path content = w₁ := (Prod.mk.inj hwrite).2
  rw [hdone] at hstate
  exact ⟨hdone, hsame.symm.trans hstate.symm⟩

theorem downloadBinary_eq_ok {response : String → Response Bytes} {written : WriteAnswer}
    {url : String} {dest : PathBuf} {w' : World}
    (h : downloadBinary tools response written url dest w = (.ok (), w')) :
    ∃ bytes, response url = .body bytes ∧ writeFile written dest bytes w = (.ok (), w') := by
  cases hresponse : response url with
  | body bytes =>
    simp only [downloadBinary, hresponse] at h
    exact ⟨bytes, rfl, h⟩
  | unsent =>
    simp only [downloadBinary, hresponse] at h
    cases (Prod.mk.inj h).1
  | refused status =>
    simp only [downloadBinary, hresponse] at h
    cases (Prod.mk.inj h).1
  | unread =>
    simp only [downloadBinary, hresponse] at h
    cases (Prod.mk.inj h).1

theorem fetchArchive_contents {archive : PathBuf} {w' : World}
    (h : fetchArchive site tools a release w = (.ok archive, w')) :
    ∃ bytes, w'.contents archive = some bytes := by
  obtain ⟨_, w₁, _, h⟩ := bind_eq_ok.mp h
  obtain ⟨dir, w₂, _, h⟩ := bind_eq_ok.mp h
  obtain ⟨_, w₃, hdownload, h⟩ := bind_eq_ok.mp h
  obtain ⟨harchive, hsame⟩ := Prod.mk.inj h
  obtain ⟨bytes, _, hwrite⟩ := downloadBinary_eq_ok hdownload
  refine ⟨bytes, ?_⟩
  rw [← hsame, (writeFile_eq_ok hwrite).2, ← Except.ok.inj harchive, contents_put]

theorem verifyArchive_state {reads verified : Bool} {archive : PathBuf} {expected : Option String}
    {w' : World} (h : verifyArchive tools reads archive expected w = (.ok verified, w')) :
    w = w' :=
  (keeps_verifyArchive (R := Eq) reads archive expected).of_eq h

end

/-! ### A registry with one primitive -/

/-- The bundle of a registry whose archive has this file name. -/
def timerBundle (filename : String) : String :=
  "version = \"1.0.0\"\n[manifests.timer.primitive]\nname = \"timer\"\nversion = \"1.0.0\"\n" ++
    "kind = \"source\"\n[manifests.timer.binaries]\nrelease_url = \"https://registry.example\"\n" ++
    "[manifests.timer.binaries.targets]\nx86_64-unknown-linux-gnu = \"" ++ filename ++ "\"\n"

def timerManifest (filename : String) : PrimitiveManifest :=
  ⟨⟨"1.0.0", "source"⟩,
    ⟨"https://registry.example", [("x86_64-unknown-linux-gnu", filename)], []⟩⟩

def timerRelease (filename : String) : Release := ⟨timerManifest filename, "1.0.0", filename⟩

/-- An archive with nothing in it: the end record of a zip file. -/
def emptyZip : Bytes := ⟨#[80, 75, 5, 6, 0, 0, 0, 0, 0, 0, 0, 0, 0, 0, 0, 0, 0, 0, 0, 0, 0, 0]⟩

def timerProgram : Bytes := ⟨#[35, 33, 47, 98, 105, 110, 47, 115, 104, 10]⟩

/-- A zip file with the program in it, stored as it is. -/
def timerZip : Bytes := ⟨#[
  80, 75, 3, 4, 20, 0, 0, 0, 0, 0, 0, 0, 33, 0, 29, 157, 251, 4, 10, 0, 0, 0, 10, 0, 0, 0, 5, 0,
  0, 0, 116, 105, 109, 101, 114, 35, 33, 47, 98, 105, 110, 47, 115, 104, 10, 80, 75, 1, 2, 20, 3,
  20, 0, 0, 0, 0, 0, 0, 0, 33, 0, 29, 157, 251, 4, 10, 0, 0, 0, 10, 0, 0, 0, 5, 0, 0, 0, 0, 0, 0,
  0, 0, 0, 0, 0, 237, 1, 0, 0, 0, 0, 116, 105, 109, 101, 114, 80, 75, 5, 6, 0, 0, 0, 0, 1, 0, 1,
  0, 51, 0, 0, 0, 45, 0, 0, 0, 0, 0]⟩

/-- The zip library on this file. -/
def unpackTimer (_format : ArchiveFormat) (bytes : Bytes) : List Entry × Bool :=
  if bytes = timerZip then ([⟨["timer"], some timerProgram⟩], true) else ([], false)

def timerSite : Site :=
  ⟨["home", "user", ".cache", "emergent", "registry"],
    ["home", "user", ".local", "share", "emergent", "primitives"],
    "https://registry.example", "x86_64-unknown-linux-gnu"⟩

def timerBinary : PathBuf := join (binDir timerSite) "timer"

def timerInstalled : InstallationManifest :=
  [("timer", ⟨"timer", "1.0.0", "source", timerBinary, "2026-09-19T00:00:00+00:00"⟩)]

def timerInstalledText : String :=
  "[primitives.timer]\nname = \"timer\"\nversion = \"1.0.0\"\nkind = \"source\"\n" ++
    "binary_path = \"/home/user/.local/share/emergent/primitives/bin/timer\"\n" ++
    "installed_at = \"2026-09-19T00:00:00+00:00\"\n"

/-- The outside libraries on the inputs of this registry. -/
def timerTools (filename : String) : Tools where
  parseBundle text := if text = timerBundle filename then some [("timer", timerManifest filename)]
    else none
  readManifest text := if text = timerInstalledText then some timerInstalled else none
  writeManifest manifest := if manifest = timerInstalled then some timerInstalledText else none
  sha256Hex _ := "8739c76e681f900923b900c9df0ef75cf421d39cabb54650c4b9ad19b6a76d85"
  unpack _ bytes := ([], bytes = emptyZip)
  statusText _ := "503 Service Unavailable"

/-- Everything is answered but the checksum file, which is not served. -/
def timerAnswers (filename : String) : InstallAnswers where
  asset := ⟨true, true, false, fun _ => true, fun _ => .body (timerBundle filename), true, .done,
    true, true⟩
  firstLoad := ⟨true, true⟩
  binDirMade := true
  tempDir := some ["tmp", ".tmp4fB2x"]
  download _ := .body emptyZip
  archiveWritten := .done
  checksums _ := .refused 503
  readsArchive := true
  opensArchive := true
  unpacks := .whole
  isDirectory := false
  readsPermissions := true
  setsPermissions := true
  secondLoad := ⟨true, true⟩
  installedAt := "2026-09-19T00:00:00+00:00"
  saves := .done

/-- The binary is there from an earlier install. -/
def timerWorld : World where
  files place := if place = timerBinary then some emptyZip else none
  fetched := []
  touched := []
  unpacked := none
  placed := []

def timerOptions : InstallOptions := ⟨"timer", none, false, false⟩

end Emergent.Engine.Marketplace

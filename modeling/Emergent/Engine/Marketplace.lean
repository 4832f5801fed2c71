import Emergent.Kit.Fallible
import Emergent.Kit.Paths

/-!
# The marketplace (`marketplace/registry.rs`, `installer.rs`, `storage.rs`)

Installing a primitive fetches the manifest of a release, downloads the archive
it names, checks its sum, unpacks it into the bin directory and records it in the
manifest of what is installed. The network, the disk and the archives are
parameters: a call gets one answer for everything it asks of them. The files are
one map from where a path leads to the bytes there; links and directories are
left out of it, and so is the temporary directory's removal at the end.
-/

namespace Emergent.Engine.Marketplace
open Kit Kit.Text Kit.Paths

abbrev Bytes := ByteArray

instance : DecidableEq Bytes := ByteArray.instDecidableEq

theorem fromUTF8_toUTF8 (s : String) : String.fromUTF8? s.toUTF8 = some s := by
  unfold String.fromUTF8?
  have hvalid : s.toUTF8.IsValidUTF8 := s.isValidUTF8
  rw [dif_pos hvalid]
  rfl

def display (path : PathBuf) : String := "/" ++ "/".intercalate path

/-! ### What the registry serves -/

structure PrimitiveInfo where
  version : String
  kind : String
  deriving DecidableEq

structure BinaryInfo where
  releaseUrl : String
  targets : List (String × String)
  checksums : List (String × String)
  deriving DecidableEq

structure PrimitiveManifest where
  primitive : PrimitiveInfo
  binaries : BinaryInfo
  deriving DecidableEq

abbrev ManifestBundle := List (String × PrimitiveManifest)

/-- The sum the manifest itself publishes, unless it is only an empty placeholder. -/
def BinaryInfo.checksumFor (info : BinaryInfo) (target : String) : Option String :=
  ((info.checksums.lookup target).map trim).filter fun sum => sum ≠ ""

/-! ### What is installed -/

structure InstalledPrimitive where
  name : String
  version : String
  kind : String
  binaryPath : PathBuf
  installedAt : String
  deriving DecidableEq

abbrev InstallationManifest := List (String × InstalledPrimitive)

def InstallationManifest.insert (manifest : InstallationManifest) (name : String)
    (installed : InstalledPrimitive) : InstallationManifest :=
  (name, installed) :: manifest.filter fun entry => entry.1 ≠ name

def InstallationManifest.remove (manifest : InstallationManifest) (name : String) :
    InstallationManifest :=
  manifest.filter fun entry => entry.1 ≠ name

inductive MarketplaceError where
  | io
  | download (url : String)
  | tomlParse (path : String)
  | tomlSerialize (path : String)
  | primitiveNotFound (name : String)
  | platformNotSupported (platform primitive : String)
  | checksumMismatch (expected actual : String)
  | extractionFailed (path : String)
  | alreadyInstalled (name version : String)
  | invalidManifest (reason : String)
  | registryUnavailable (file url : String) (status : ℕ)
  deriving DecidableEq

/-! ### What lies outside -/

inductive ArchiveFormat where
  | tarGz
  | zip
  deriving DecidableEq

/-- One entry of an archive: a directory, or a file with its bytes. -/
structure Entry where
  path : List String
  content : Option Bytes
  deriving DecidableEq

/-- TOML, SHA-256 and the archive formats. An archive yields its entries in order
up to its end or its first defect. -/
structure Tools where
  parseBundle : String → Option ManifestBundle
  readManifest : String → Option InstallationManifest
  writeManifest : InstallationManifest → Option String
  sha256Hex : Bytes → String
  unpack : ArchiveFormat → Bytes → List Entry × Bool
  statusText : ℕ → String

/-- The directories of `MarketplaceStorage`, the registry and the platform. -/
structure Site where
  cacheDir : PathBuf
  dataDir : PathBuf
  baseUrl : String
  platform : String

inductive Response (α : Type) where
  | unsent
  | refused (status : ℕ)
  | unread
  | body (content : α)
  deriving DecidableEq

/-- `fs::write`: done, refused before the file is opened, or torn after. -/
inductive WriteAnswer where
  | done
  | refused
  | torn (part : Bytes)
  deriving DecidableEq

/-- What the disk answers while the files of an archive are written: a failure
comes after some entries and may leave the next one gone or torn. -/
inductive UnpackAnswer where
  | whole
  | stopped (after : ℕ)
  | gone (after : ℕ)
  | torn (after : ℕ) (part : Bytes)
  deriving DecidableEq

structure AssetAnswers where
  seesCache : Bool
  readsCache : Bool
  legacyClone : Bool
  cloneSurvives : PathBuf → Bool
  bundle : String → Response String
  cacheDirMade : Bool
  cacheWritten : WriteAnswer
  cacheRenamed : Bool
  partRemoved : Bool

structure LoadAnswers where
  sees : Bool
  reads : Bool

structure InstallAnswers where
  asset : AssetAnswers
  firstLoad : LoadAnswers
  binDirMade : Bool
  tempDir : Option PathBuf
  download : String → Response Bytes
  archiveWritten : WriteAnswer
  checksums : String → Response String
  readsArchive : Bool
  opensArchive : Bool
  unpacks : UnpackAnswer
  isDirectory : Bool
  readsPermissions : Bool
  setsPermissions : Bool
  secondLoad : LoadAnswers
  installedAt : String
  saves : WriteAnswer

structure RemoveAnswers where
  load : LoadAnswers
  sees : Bool
  removes : Bool
  saves : WriteAnswer

structure UpdateAnswers where
  load : LoadAnswers
  asset : AssetAnswers
  install : InstallAnswers

/-! ### The state of a call -/

/-- The files and the bodies fetched by this process. For the record: every path
that was written, created or given permissions, the bytes of the last archive that
was unpacked, and what archives left at which place. -/
structure World where
  files : PathBuf → Option Bytes
  fetched : List (String × String)
  touched : List PathBuf
  unpacked : Option Bytes
  placed : List (PathBuf × Option Bytes)

abbrev Op := Fallible MarketplaceError World

namespace World

def contents (w : World) (path : PathBuf) : Option Bytes := w.files (resolve path)

def touch (path : PathBuf) (w : World) : World := { w with touched := w.touched ++ [path] }

def put (path : PathBuf) (content : Option Bytes) (w : World) : World :=
  { w with files := fun place => if place = resolve path then content else w.files place }

def write (answer : WriteAnswer) (path : PathBuf) (content : Bytes) (w : World) : World :=
  match answer with
  | .done => (w.touch path).put path (some content)
  | .refused => w.touch path
  | .torn part => (w.touch path).put path (some part)

/-- A rename takes the content along and touches both names. -/
def rename (path target : PathBuf) (w : World) : World :=
  (((w.touch path).touch target).put target (w.contents path)).put path none

end World

def check (error : MarketplaceError) (answer : Bool) : Op Unit :=
  .inspect fun _ => if answer then .ok () else .error error

def createDirAll (made : Bool) (path : PathBuf) : Op Unit := do
  .update (World.touch path)
  check .io made

def writeFile (answer : WriteAnswer) (path : PathBuf) (content : Bytes) : Op Unit := do
  .update (World.write answer path content)
  check .io (answer = .done)

def readFile (reads : Bool) (path : PathBuf) : Op Bytes :=
  .inspect fun w => if reads then (w.contents path).elim (.error .io) .ok else .error .io

/-! ### The registry -/

def manifestsFile : String := "manifests.toml"

def checksumsFile : String := "checksums.txt"

def trimEndMatches (s : String) (c : Char) : String :=
  String.ofList (s.toList.rdropWhile fun d => d = c)

/-- A base ending in `/releases` is a releases page and any other a static host. -/
def assetUrl (base : String) (version : Option String) (file : String) : String :=
  let base := trimEndMatches base '/'
  match "/releases".toList.isSuffixOf base.toList, version with
  | true, none => base ++ "/latest/download/" ++ file
  | true, some version => base ++ "/download/v" ++ version ++ "/" ++ file
  | false, none => base ++ "/" ++ file
  | false, some version => base ++ "/v" ++ version ++ "/" ++ file

def cacheScope : Option String → String
  | some version => "v" ++ version
  | none => "latest"

def isSafeVersion (version : String) : Bool :=
  version ≠ "" && version.toList.all (fun c => c.isAlphanum || ['.', '-', '+', '_'].contains c) &&
    !decide (['.', '.'] <:+: version.toList)

inductive CachePlan where
  | useCache
  | fetch
  deriving DecidableEq

def cachePlan (pinned cached : Bool) : CachePlan := if pinned && cached then .useCache else .fetch

def cachePath (site : Site) (version : Option String) (file : String) : PathBuf :=
  join (join site.cacheDir (cacheScope version)) file

def httpGet (response : Response String) (url file : String) : Except MarketplaceError String :=
  match response with
  | .unsent => .error (.download url)
  | .refused status => .error (.registryUnavailable file url status)
  | .unread => .error (.download url)
  | .body text => .ok text

/-- Only an unreachable network falls back to a cached copy. -/
def MarketplaceError.isUnreachable : MarketplaceError → Bool
  | .download _ => true
  | _ => false

section
variable (site : Site) (tools : Tools)

def remembered (url : String) : Op (Option String) := .inspect fun w => .ok (w.fetched.lookup url)

def World.remember (url body : String) (w : World) : World :=
  { w with fetched := (url, body) :: w.fetched }

def remember (url body : String) : Op Unit := .update (World.remember url body)

def legacyClone : PathBuf := join site.cacheDir "repo"

/-- The removal may fail half way through. -/
def World.dropLegacyClone (a : AssetAnswers) (w : World) : World :=
  if a.legacyClone then
    { w.touch (legacyClone site) with
      files := fun place =>
        if resolve (legacyClone site) <+: place ∧ a.cloneSurvives place = false then none
        else w.files place }
  else w

def dropLegacyClone (a : AssetAnswers) : Op Unit := .update (World.dropLegacyClone site a)

/-- `is_file` and `exists` are `false` also where the disk does not say. -/
def isFile (sees : Bool) (path : PathBuf) : Op Bool :=
  .inspect fun w => .ok (sees && (w.contents path).isSome)

def readCache (a : AssetAnswers) (path : PathBuf) : Op (Option String) :=
  .inspect fun w => .ok (if a.readsCache then (w.contents path).bind String.fromUTF8? else none)

/-- An older copy stays as it is unless the rename succeeds. -/
def World.writeCache (a : AssetAnswers) (path : PathBuf) (body : String) (w : World) : World :=
  let temp := withExtension path "part"
  let w := w.touch (parent path)
  if !a.cacheDirMade then w
  else if a.cacheWritten ≠ .done then w.write a.cacheWritten temp body.toUTF8
  else
    let w := w.write .done temp body.toUTF8
    if a.cacheRenamed then w.rename temp path
    else if a.partRemoved then w.put temp none
    else w

def writeCache (a : AssetAnswers) (path : PathBuf) (body : String) : Op Unit :=
  .update (World.writeCache a path body)

def fetchAsset (a : AssetAnswers) (url file : String) (cached : PathBuf) : Op String := do
  match httpGet (a.bundle url) url file with
  | .ok body =>
    writeCache a cached body
    remember url body
    pure body
  | .error e =>
    match e.isUnreachable, ← readCache a cached with
    | true, some body =>
      remember url body
      pure body
    | _, _ => .fail e

def asset (a : AssetAnswers) (version : Option String) (file : String) : Op String := do
  check (.invalidManifest ("'" ++ version.getD "" ++ "' is not a version number"))
    (version.all isSafeVersion)
  let url := assetUrl site.baseUrl version file
  match ← remembered url with
  | some body => pure body
  | none =>
    dropLegacyClone site a
    let cached := cachePath site version file
    let isCached ← isFile a.seesCache cached
    let body ← readCache a cached
    match cachePlan version.isSome isCached, body with
    | .useCache, some body =>
      remember url body
      pure body
    | _, _ => fetchAsset a url file cached

def getManifest (a : AssetAnswers) (name : String) (version : Option String) :
    Op PrimitiveManifest := do
  let body ← asset site a version manifestsFile
  match tools.parseBundle body with
  | none => .fail (.tomlParse manifestsFile)
  | some bundle =>
    match bundle.lookup name with
    | none => .fail (.primitiveNotFound name)
    | some manifest => pure manifest

/-! ### The installation manifest -/

def manifestPath : PathBuf := join site.dataDir ".installed.toml"

def binDir : PathBuf := join site.dataDir "bin"

/-- Without a manifest nothing is installed. -/
def loadManifest (a : LoadAnswers) : Op InstallationManifest := do
  if ← isFile a.sees (manifestPath site) then
    let content ← readFile a.reads (manifestPath site)
    match String.fromUTF8? content with
    | none => .fail .io
    | some text =>
      match tools.readManifest text with
      | none => .fail (.tomlParse (display (manifestPath site)))
      | some manifest => pure manifest
  else pure []

def saveManifest (answer : WriteAnswer) (manifest : InstallationManifest) : Op Unit := do
  match tools.writeManifest manifest with
  | none => .fail (.tomlSerialize (display (manifestPath site)))
  | some text => writeFile answer (manifestPath site) text.toUTF8

end

/-! ### Checksums -/

/-- `str::lines`: a line end is a line feed with or without a carriage return. -/
def lines (text : String) : List String :=
  let pieces := text.toList.splitOn '\n'
  let stripped := pieces.dropLast.map fun line =>
    if line.getLast? = some '\r' then line.dropLast else line
  let last := (pieces.getLast?.filter fun line => line ≠ []).toList
  (stripped ++ last).map String.ofList

/-- One line of a `sha256sum` file: the name and its sum in lower case. -/
def parseChecksumLine (line : String) : Option (String × String) :=
  let line := (trim line).toList
  if line = [] ∨ line.head? = some '#' then none
  else
    let hex := line.takeWhile fun c => !isWhite c
    let rest := line.dropWhile fun c => !isWhite c
    let name := trim (String.ofList (((rest.drop 1).dropWhile isWhite).dropWhile fun c => c = '*'))
    if rest = [] then none
    else if hex = [] ∨ name = "" then none
    else some (name, (String.ofList hex).toLower)

/-- A later line about the same name replaces an earlier one. -/
def parseChecksums (text : String) : List (String × String) :=
  ((lines text).filterMap parseChecksumLine).reverse

/-- `None` for every failure of the request. -/
def releaseChecksums (response : String → Response String) (releaseUrl version : String) :
    Option (List (String × String)) :=
  let url := assetUrl releaseUrl (some version) checksumsFile
  match httpGet (response url) url checksumsFile with
  | .ok body => some (parseChecksums body)
  | .error _ => none

def expectedChecksum (published : Option (List (String × String))) (filename : String)
    (fromManifest : Option String) : Option String :=
  (published.bind fun sums => sums.lookup filename).or fromManifest

def eqIgnoreAsciiCase (s t : String) : Bool := s.toLower = t.toLower

def checkChecksum (actual expected : String) : Except MarketplaceError Unit :=
  if eqIgnoreAsciiCase actual (trim expected) then .ok ()
  else .error (.checksumMismatch (trim expected) actual)

section
variable (site : Site) (tools : Tools)

def verifyArchive (reads : Bool) (archive : PathBuf) (expected : Option String) : Op Bool := do
  match expected with
  | none => pure false
  | some expected =>
    let bytes ← readFile reads archive
    .inspect fun _ => checkChecksum (tools.sha256Hex bytes) expected
    pure true

/-! ### The installer -/

def downloadBinary (response : String → Response Bytes) (written : WriteAnswer) (url : String)
    (dest : PathBuf) : Op Unit := do
  match response url with
  | .unsent => .fail (.download url)
  | .refused status =>
    .fail (.invalidManifest
      ("HTTP " ++ tools.statusText status ++ " when downloading " ++ url))
  | .unread => .fail (.download url)
  | .body bytes => writeFile written dest bytes

/-- The entries that get onto the disk, a directory having no content. -/
def UnpackAnswer.written (answer : UnpackAnswer) (entries : List Entry) :
    List (List String × Option Bytes) :=
  let files := fun (entries : List Entry) =>
    entries.filterMap fun entry => entry.content.map fun bytes => (entry.path, some bytes)
  match answer with
  | .whole => files entries
  | .stopped after => files (entries.take after)
  | .gone after =>
    files (entries.take after) ++ ((entries[after]?).map fun entry => (entry.path, none)).toList
  | .torn after part =>
    files (entries.take after) ++
      ((entries[after]?).map fun entry => (entry.path, some part)).toList

def placeEntries (dest : PathBuf) (written : List (List String × Option Bytes)) (w : World) :
    World :=
  written.foldl (fun w entry => w.put (dest ++ entry.1) entry.2) w

def archiveFormat (archive : PathBuf) : Except MarketplaceError ArchiveFormat :=
  let ext := (extension archive).getD ""
  if ext = "gz" then .ok .tarGz
  else if ext = "zip" then .ok .zip
  else .error (.invalidManifest ("Unsupported archive format: " ++ ext))

/-- Every entry counts as touched, also when a failure comes before it. -/
def World.unpack (answer : UnpackAnswer) (entries : List Entry) (bytes : Bytes) (dest : PathBuf)
    (w : World) : World :=
  placeEntries dest (answer.written entries)
    { w with
      touched := w.touched ++ entries.map fun entry => dest ++ entry.path
      unpacked := some bytes
      placed := w.placed ++
        (answer.written entries).map fun entry => (resolve (dest ++ entry.1), entry.2) }

def extractArchive (a : InstallAnswers) (archive dest : PathBuf) : Op Unit := do
  let bytes ← readFile a.opensArchive archive
  let format ← .inspect fun _ => archiveFormat archive
  let yielded := tools.unpack format bytes
  .update (World.unpack a.unpacks yielded.1 bytes dest)
  check (.extractionFailed (display archive)) (yielded.2 && a.unpacks = .whole)

structure InstallOptions where
  name : String
  version : Option String
  force : Bool
  dryRun : Bool

structure InstallResult where
  name : String
  version : String
  binaryPath : PathBuf
  deriving DecidableEq

/-- What `install` has settled before it asks whether this is a dry run. -/
structure Release where
  manifest : PrimitiveManifest
  version : String
  filename : String
  deriving DecidableEq

/-- A forced install does not ask what is installed already. -/
def checkInstalled (a : InstallAnswers) (options : InstallOptions) (version : String) :
    Op Unit := do
  if options.force then pure ()
  else
    let installed ← loadManifest site tools a.firstLoad
    check (.alreadyInstalled options.name version)
      ((installed.lookup options.name).all fun installed => installed.version ≠ version)

def resolveRelease (a : InstallAnswers) (options : InstallOptions) : Op Release := do
  let manifest ← getManifest site tools a.asset options.name options.version
  let version := options.version.getD manifest.primitive.version
  checkInstalled site tools a options version
  match manifest.binaries.targets.lookup site.platform with
  | none => .fail (.platformNotSupported site.platform options.name)
  | some filename => pure ⟨manifest, version, filename⟩

def tempdir (answer : Option PathBuf) : Op PathBuf := do
  match answer with
  | none => .fail .io
  | some dir =>
    .update (World.touch dir)
    pure dir

def fetchArchive (a : InstallAnswers) (release : Release) : Op PathBuf := do
  let url := assetUrl release.manifest.binaries.releaseUrl (some release.version) release.filename
  createDirAll a.binDirMade (binDir site)
  let dir ← tempdir a.tempDir
  let archivePath := join dir release.filename
  downloadBinary tools a.download a.archiveWritten url archivePath
  pure archivePath

def expectedFor (a : InstallAnswers) (release : Release) : Option String :=
  expectedChecksum
    (releaseChecksums a.checksums release.manifest.binaries.releaseUrl release.version)
    release.filename (release.manifest.binaries.checksumFor site.platform)

def setExecutable (a : InstallAnswers) (binaryPath : PathBuf) : Op Unit := do
  let found ← isFile true binaryPath
  check .io (a.readsPermissions && (found || a.isDirectory))
  .update (World.touch binaryPath)
  check .io a.setsPermissions

def recordInstalled (a : InstallAnswers) (name : String) (release : Release)
    (binaryPath : PathBuf) : Op Unit := do
  let data ← loadManifest site tools a.secondLoad
  saveManifest site tools a.saves (data.insert name
    ⟨name, release.version, release.manifest.primitive.kind, binaryPath, a.installedAt⟩)

/-- What `install` does once the archive has passed its check. -/
def placeBinary (a : InstallAnswers) (options : InstallOptions) (release : Release)
    (archivePath : PathBuf) : Op InstallResult := do
  extractArchive tools a archivePath (binDir site)
  let binaryPath := join (binDir site) options.name
  setExecutable a binaryPath
  recordInstalled site tools a options.name release binaryPath
  pure ⟨options.name, release.version, binaryPath⟩

def install (a : InstallAnswers) (options : InstallOptions) : Op InstallResult := do
  let release ← resolveRelease site tools a options
  if options.dryRun then pure ⟨options.name, release.version, []⟩
  else
    let archivePath ← fetchArchive site tools a release
    let _verified ← verifyArchive tools a.readsArchive archivePath (expectedFor site a release)
    placeBinary site tools a options release archivePath

def removeBinary (a : RemoveAnswers) (binaryPath : PathBuf) : Op Unit := do
  if ← isFile a.sees binaryPath then
    check .io a.removes
    .update (World.put binaryPath none)
  else pure ()

def remove (a : RemoveAnswers) (name : String) : Op Unit := do
  let manifest ← loadManifest site tools a.load
  match manifest.lookup name with
  | none => .fail (.primitiveNotFound name)
  | some installed =>
    removeBinary a installed.binaryPath
    saveManifest site tools a.saves (manifest.remove name)

/-- The version `update` goes on to install, if there is a newer one. -/
def updateTarget (a : UpdateAnswers) (name : String) (dryRun : Bool) : Op (Option String) := do
  let manifest ← loadManifest site tools a.load
  match manifest.lookup name with
  | none => .fail (.primitiveNotFound name)
  | some installed =>
    let latest ← getManifest site tools a.asset name none
    if installed.version = latest.primitive.version then pure none
    else if dryRun then pure none
    else pure (some latest.primitive.version)

def update (a : UpdateAnswers) (name : String) (dryRun : Bool) : Op (Option InstallResult) := do
  match ← updateTarget site tools a name dryRun with
  | none => pure none
  | some version =>
    let result ← install site tools a.install ⟨name, some version, true, false⟩
    pure (some result)

end

end Emergent.Engine.Marketplace

import Emergent.Engine.MarketplaceSteps

/-!
# Where an install writes (`marketplace/installer.rs`, `registry.rs`)

A version is checked before it becomes a part of a cache path. The file name of
the archive and the name of the primitive come from the registry and the command
line and are joined as they are. Archives are assumed to stay under the directory
they are unpacked into.
-/

namespace Emergent.Engine.Marketplace
open Kit Kit.Text Kit.Paths Kit.Fallible

/-- The call touched only paths with the property. -/
def GrowsBy (P : PathBuf → Prop) (w w' : World) : Prop :=
  ∃ more, w'.touched = w.touched ++ more ∧ ∀ path ∈ more, P path

instance (P : PathBuf → Prop) : Std.Refl (GrowsBy P) :=
  ⟨fun w => ⟨[], (List.append_nil _).symm, by simp⟩⟩

theorem GrowsBy.trans {P : PathBuf → Prop} {w w' w'' : World} (h : GrowsBy P w w')
    (h' : GrowsBy P w' w'') : GrowsBy P w w'' := by
  obtain ⟨more, hmore, hall⟩ := h
  obtain ⟨more', hmore', hall'⟩ := h'
  refine ⟨more ++ more', by rw [hmore', hmore, List.append_assoc], ?_⟩
  intro path hpath
  rcases List.mem_append.mp hpath with hpath | hpath
  · exact hall path hpath
  · exact hall' path hpath

instance (P : PathBuf → Prop) : IsTrans World (GrowsBy P) := ⟨fun _ _ _ => GrowsBy.trans⟩

/-- Entries of an archive go down from the directory they are unpacked into. -/
def Tools.StaysUnder (tools : Tools) : Prop :=
  ∀ format bytes, ∀ entry ∈ (tools.unpack format bytes).1, ".." ∉ entry.path

section
variable (site : Site) (tools : Tools) (a : InstallAnswers) (options : InstallOptions) (w : World)

/-- The bin, data and cache directory and the temporary directory of the call. -/
def Inside (path : PathBuf) : Prop :=
  Under (binDir site) path ∨ Under site.dataDir path ∨ Under site.cacheDir path ∨
    ∃ dir ∈ a.tempDir, Under dir path

instance (path : PathBuf) : Decidable (Inside site a path) :=
  inferInstanceAs (Decidable (Under (binDir site) path ∨ Under site.dataDir path ∨
    Under site.cacheDir path ∨ ∃ dir ∈ a.tempDir, Under dir path))

def downloadUrl (release : Release) : String :=
  assetUrl release.manifest.binaries.releaseUrl (some release.version) release.filename

/-- The call comes to write the archive of this release into this directory. -/
def WritesArchive (release : Release) (dir : PathBuf) : Prop :=
  options.dryRun = false ∧ (∃ w₁, resolveRelease site tools a options w = (.ok release, w₁)) ∧
    a.binDirMade = true ∧ a.tempDir = some dir ∧
    ∃ bytes, a.download (downloadUrl release) = .body bytes

/-- The call comes to set the permissions of the binary. -/
def SetsPermissions : Prop :=
  options.dryRun = false ∧ ∃ release w₁ archive w₂ verified w₃ w₄,
    resolveRelease site tools a options w = (.ok release, w₁) ∧
    fetchArchive site tools a release w₁ = (.ok archive, w₂) ∧
    verifyArchive tools a.readsArchive archive (expectedFor site a release) w₂ =
      (.ok verified, w₃) ∧
    extractArchive tools a archive (binDir site) w₃ = (.ok (), w₄) ∧
    a.readsPermissions = true ∧
    ((w₄.contents (join (binDir site) options.name)).isSome = true ∨ a.isDirectory = true)

end

/-! ### The fixed paths -/

section
variable {site : Site} {tools : Tools} {a : InstallAnswers} {options : InstallOptions} {w : World}
  {release : Release}

theorem join_constant {name : String} (h : '/' ∉ name.toList ∧ name ≠ "" ∧ name ≠ ".")
    (base : PathBuf) : join base name = base ++ [name] :=
  join_of_name h.1 h.2.1 h.2.2 base

theorem manifestPath_eq (site : Site) : manifestPath site = site.dataDir ++ [".installed.toml"] :=
  join_constant (by decide) _

theorem legacyClone_eq (site : Site) : legacyClone site = site.cacheDir ++ ["repo"] :=
  join_constant (by decide) _

/-- A safe version names one directory of the cache. -/
theorem cacheScope_name {version : Option String} (h : version.all isSafeVersion = true) :
    ('/' ∉ (cacheScope version).toList ∧ cacheScope version ≠ "" ∧ cacheScope version ≠ ".") ∧
      cacheScope version ≠ ".." := by
  cases version with
  | none => decide
  | some version =>
    have hchars : (cacheScope (some version)).toList = 'v' :: version.toList := by
      simp [cacheScope, String.toList_append]
    have hfirst : ∀ s : String, s.toList.head? ≠ some 'v' → cacheScope (some version) ≠ s := by
      intro s hs heq
      rw [← heq, hchars] at hs
      exact hs rfl
    have hsafe : isSafeVersion version = true := h
    simp only [isSafeVersion, Bool.and_eq_true] at hsafe
    have hall := List.all_eq_true.mp hsafe.1.2
    refine ⟨⟨?_, hfirst "" (by decide), hfirst "." (by decide)⟩, hfirst ".." (by decide)⟩
    rw [hchars]
    intro hslash
    rcases List.mem_cons.mp hslash with hv | hrest
    · exact absurd hv (by decide)
    · exact absurd (hall '/' hrest) (by decide)

theorem cachePath_eq {version : Option String} (h : version.all isSafeVersion = true) :
    cachePath site version manifestsFile =
      site.cacheDir ++ [cacheScope version, "manifests.toml"] := by
  have hfile : '/' ∉ manifestsFile.toList ∧ manifestsFile ≠ "" ∧ manifestsFile ≠ "." := by decide
  rw [cachePath, join_constant (cacheScope_name h).1, join_constant hfile, List.append_assoc]
  rfl

theorem withExtension_cachePath (cache : PathBuf) (scope : String) :
    withExtension (cache ++ [scope, "manifests.toml"]) "part" =
      cache ++ [scope, "manifests.part"] := by
  have hlast : cache ++ [scope, "manifests.toml"] = (cache ++ [scope]) ++ ["manifests.toml"] := by
    simp
  have hname : fileName (cache ++ [scope, "manifests.toml"]) = some "manifests.toml" := by
    rw [hlast, fileName, List.getLast?_concat]
    decide
  have hext : (splitExtension "manifests.toml").1 ++ "." ++ "part" = "manifests.part" := by decide
  rw [withExtension, hname]
  simp only [hext]
  rw [hlast, List.dropLast_concat, List.append_assoc]
  rfl

theorem inside_cache {path : PathBuf} (h : ".." ∉ path) : Inside site a (site.cacheDir ++ path) :=
  Or.inr (Or.inr (Or.inl (under_append h _)))

/-! ### What each step touches -/

theorem growsBy_touch {P : PathBuf → Prop} {path : PathBuf} (h : P path) (w : World) :
    GrowsBy P w (w.touch path) := ⟨[path], rfl, by simpa using h⟩

theorem growsBy_write {P : PathBuf → Prop} {path : PathBuf} (h : P path) (w : World)
    (answer : WriteAnswer) (content : Bytes) : GrowsBy P w (w.write answer path content) := by
  cases answer <;> exact ⟨[path], rfl, by simpa using h⟩

theorem growsBy_dropLegacyClone {P : PathBuf → Prop} (h : P (legacyClone site)) (w : World)
    (asset : AssetAnswers) : GrowsBy P w (w.dropLegacyClone site asset) := by
  unfold World.dropLegacyClone
  split_ifs
  · exact ⟨[legacyClone site], rfl, by simpa using h⟩
  · exact refl_of (GrowsBy P) w

theorem growsBy_writeCache {P : PathBuf → Prop} {path : PathBuf} (hdir : P (parent path))
    (hpath : P path) (hpart : P (withExtension path "part")) (w : World) (asset : AssetAnswers)
    (body : String) : GrowsBy P w (w.writeCache asset path body) := by
  have hopen := growsBy_touch hdir w
  have hwritten : ∀ answer, GrowsBy P w ((w.touch (parent path)).write answer
      (withExtension path "part") body.toUTF8) :=
    fun answer => hopen.trans (growsBy_write hpart _ answer _)
  unfold World.writeCache
  simp only
  split_ifs
  · exact hopen
  · exact hwritten _
  · obtain ⟨more, hmore, hall⟩ := hwritten .done
    refine ⟨more ++ [withExtension path "part", path], ?_, ?_⟩
    · change (((w.touch (parent path)).write .done (withExtension path "part")
        body.toUTF8).touched ++ [withExtension path "part"]) ++ [path] = _
      rw [hmore, List.append_assoc, List.append_assoc]
      rfl
    · intro p hp
      rcases List.mem_append.mp hp with hp | hp
      · exact hall p hp
      · rcases List.mem_cons.mp hp with hp | hp
        · rw [hp]
          exact hpart
        · rw [List.mem_singleton.mp hp]
          exact hpath
  · exact hwritten .done
  · exact hwritten .done

theorem placeEntries_touched (dest : PathBuf) (written : List (List String × Option Bytes))
    (w : World) : (placeEntries dest written w).touched = w.touched := by
  induction written generalizing w with
  | nil => rfl
  | cons entry written ih => exact ih _

theorem growsBy_unpack {P : PathBuf → Prop} {entries : List Entry} {dest : PathBuf}
    (h : ∀ entry ∈ entries, P (dest ++ entry.path)) (w : World) (answer : UnpackAnswer)
    (bytes : Bytes) : GrowsBy P w (w.unpack answer entries bytes dest) := by
  have htouched : (w.unpack answer entries bytes dest).touched =
      w.touched ++ entries.map fun entry => dest ++ entry.path :=
    placeEntries_touched dest (answer.written entries) _
  refine ⟨_, htouched, ?_⟩
  intro path hpath
  obtain ⟨entry, hentry, hsame⟩ := List.mem_map.mp hpath
  rw [← hsame]
  exact h entry hentry

/-- Fetching an asset stays in the cache. -/
theorem keepsCache_inside (version : Option String) :
    KeepsCache (GrowsBy (Inside site a)) site a.asset version where
  remember w _ _ := refl_of (GrowsBy (Inside site a)) w
  clone w := by
    refine growsBy_dropLegacyClone ?_ w _
    rw [legacyClone_eq]
    exact inside_cache (by decide)
  cache hsafe w body := by
    have hscope := (cacheScope_name hsafe).2.symm
    refine growsBy_writeCache ?_ ?_ ?_ w _ body
    · have hparent : parent (cachePath site version manifestsFile) =
          site.cacheDir ++ [cacheScope version] := by
        rw [cachePath_eq hsafe, parent, List.dropLast_append_of_ne_nil (by simp)]
        rfl
      rw [hparent]
      exact inside_cache (by simpa using hscope)
    · rw [cachePath_eq hsafe]
      exact inside_cache (by simpa using hscope)
    · rw [cachePath_eq hsafe, withExtension_cachePath]
      exact inside_cache (by simpa using hscope)

/-! ### What the call touches -/

theorem keeps_fetchArchive {P : PathBuf → Prop} (hbin : P (binDir site))
    (htemp : ∀ dir, a.tempDir = some dir → P dir)
    (harchive : ∀ dir bytes, a.binDirMade = true → a.tempDir = some dir →
      a.download (downloadUrl release) = .body bytes → P (join dir release.filename)) :
    Keeps (GrowsBy P) (fetchArchive site tools a release) := by
  unfold fetchArchive
  cases hmade : a.binDirMade with
  | false => exact fun w => growsBy_touch hbin w
  | true =>
    refine Keeps.bind (keeps_createDirAll fun w => growsBy_touch hbin w) ?_
    intro _
    cases hdir : a.tempDir with
    | none => exact Keeps.fail _
    | some dir =>
      have htempdir : Keeps (GrowsBy P) (tempdir (some dir)) :=
        Keeps.bind (Keeps.update fun w => growsBy_touch (htemp dir hdir) w) fun _ => Keeps.pure _
      intro w
      have hthere : tempdir (some dir) w = (.ok dir, w.touch dir) := rfl
      rw [bind_of_ok hthere]
      refine (growsBy_touch (htemp dir hdir) w).trans ?_
      refine Keeps.bind (keeps_downloadBinary ?_) (fun _ => Keeps.pure _) (w.touch dir)
      intro bytes hbytes w'
      exact growsBy_write (harchive dir bytes hmade hdir hbytes) w' _ _

/-- Joined to where they go, the file name and the requested name stay inside as
far as the call gets to use them. -/
def NamesStayInside (site : Site) (tools : Tools) (a : InstallAnswers) (options : InstallOptions)
    (w : World) : Prop :=
  (∀ release dir, WritesArchive site tools a options w release dir →
    Inside site a (join dir release.filename)) ∧
  (SetsPermissions site tools a options w → Inside site a (join (binDir site) options.name))

/-- Without a file or a directory to look at there is nothing to change. -/
theorem setExecutable_stops {path : PathBuf} (h : ¬ (a.readsPermissions = true ∧
      ((w.contents path).isSome = true ∨ a.isDirectory = true))) :
    (setExecutable a path w).2 = w := by
  have hfound : isFile true path w = (.ok (w.contents path).isSome, w) := by
    simp [isFile, Fallible.inspect]
  have hcheck : (a.readsPermissions && ((w.contents path).isSome || a.isDirectory)) = false := by
    apply Bool.eq_false_iff.mpr
    simpa using h
  unfold setExecutable
  rw [bind_of_ok hfound, hcheck]
  rfl

theorem setExecutable_grows {P : PathBuf → Prop} {path : PathBuf} (w : World)
    (h : a.readsPermissions = true ∧ ((w.contents path).isSome = true ∨ a.isDirectory = true) →
      P path) : GrowsBy P w (setExecutable a path w).2 := by
  by_cases hgoes : a.readsPermissions = true ∧
      ((w.contents path).isSome = true ∨ a.isDirectory = true)
  · exact keeps_setExecutable (growsBy_touch (h hgoes)) w
  · rw [setExecutable_stops hgoes]
    exact refl_of (GrowsBy P) w

theorem install_grows (htools : tools.StaysUnder)
    (h : NamesStayInside site tools a options w) :
    GrowsBy (Inside site a) w (install site tools a options w).2 := by
  have hbin : Inside site a (binDir site) := Or.inl (Under.refl _)
  have hdata : Inside site a (manifestPath site) := by
    rw [manifestPath_eq]
    exact Or.inr (Or.inl (under_append (by decide) _))
  unfold install
  refine leaves_bind (keeps_resolveRelease (keepsCache_inside _) w) ?_
  intro release w₁ hresolve
  split_ifs with hdry
  · exact refl_of (GrowsBy (Inside site a)) w₁
  have hwet : options.dryRun = false := Bool.eq_false_iff.mpr hdry
  refine leaves_bind ?_ ?_
  · refine keeps_fetchArchive hbin ?_ ?_ w₁
    · intro dir hdir
      exact Or.inr (Or.inr (Or.inr ⟨dir, hdir, Under.refl _⟩))
    · intro dir bytes hmade hdir hbytes
      exact h.1 release dir ⟨hwet, ⟨w₁, hresolve⟩, hmade, hdir, bytes, hbytes⟩
  intro archive w₂ hfetch
  refine leaves_bind (keeps_verifyArchive _ _ _ w₂) ?_
  intro verified w₃ hverify
  unfold placeBinary
  refine leaves_bind ?_ ?_
  · refine keeps_extractArchive ?_ w₃
    intro format bytes w'
    refine growsBy_unpack ?_ w' _ _
    intro entry hentry
    exact Or.inl (under_append (htools format bytes entry hentry) _)
  intro _ w₄ hextract
  refine leaves_bind ?_ ?_
  · apply setExecutable_grows
    intro hgoes
    exact h.2 ⟨hwet, release, w₁, archive, w₂, verified, w₃, w₄, hresolve, hfetch, hverify,
      hextract, hgoes.1, hgoes.2⟩
  intro _ w₅ _
  refine leaves_bind (keeps_recordInstalled (fun w' content => growsBy_write hdata w' _ content)
    w₅) ?_
  intro _ w₆ _
  exact refl_of (GrowsBy (Inside site a)) w₆

/-! ### What a call that goes so far has touched -/

theorem mem_of_growsBy {P Q : PathBuf → Prop} {w w₁ w' : World} {path : PathBuf}
    (hbefore : GrowsBy Q w w₁) (hafter : GrowsBy Q (w₁.touch path) w') (h : GrowsBy P w w') :
    P path := by
  obtain ⟨before, hbefore, _⟩ := hbefore
  obtain ⟨after, hafter, _⟩ := hafter
  obtain ⟨more, hmore, hall⟩ := h
  have hwhole : w.touched ++ more = w.touched ++ (before ++ path :: after) := by
    rw [← hmore, hafter]
    change (w₁.touched ++ [path]) ++ after = _
    rw [hbefore]
    simp
  apply hall
  rw [List.append_cancel_left hwhole]
  exact List.mem_append_right _ List.mem_cons_self

/-- The call touched some more paths. -/
abbrev Grows : World → World → Prop := GrowsBy fun _ => True

theorem grows_write (w : World) (answer : WriteAnswer) (path : PathBuf) (content : Bytes) :
    Grows (w.touch path) (w.write answer path content) := by
  cases answer <;> exact refl_of Grows (w.touch path)

theorem fetchArchive_touches {dir : PathBuf} {bytes : Bytes} (hmade : a.binDirMade = true)
    (hdir : a.tempDir = some dir) (hbytes : a.download (downloadUrl release) = .body bytes) :
    Grows (((w.touch (binDir site)).touch dir).touch (join dir release.filename))
      (fetchArchive site tools a release w).2 := by
  have hcreate : createDirAll a.binDirMade (binDir site) w = (.ok (), w.touch (binDir site)) := by
    rw [hmade]
    rfl
  have htemp : tempdir a.tempDir (w.touch (binDir site)) =
      (.ok dir, (w.touch (binDir site)).touch dir) := by
    rw [hdir]
    rfl
  have hdownload : downloadBinary tools a.download a.archiveWritten (downloadUrl release)
      (join dir release.filename) =
        writeFile a.archiveWritten (join dir release.filename) bytes := by
    simp only [downloadBinary, hbytes]
  unfold fetchArchive
  rw [bind_of_ok hcreate, bind_of_ok htemp]
  refine trans_of Grows (grows_write _ a.archiveWritten _ bytes) ?_
  refine trans_of Grows ?_ (Keeps.rest (fun _ => Keeps.pure _)
    (downloadBinary tools a.download a.archiveWritten (downloadUrl release)
      (join dir release.filename)) _)
  rw [hdownload]
  exact Keeps.rest (fun _ => keeps_check _ _) (Fallible.update _) _

theorem setExecutable_touches {path : PathBuf} (hreads : a.readsPermissions = true)
    (hfound : (w.contents path).isSome = true ∨ a.isDirectory = true) :
    Grows (w.touch path) (setExecutable a path w).2 := by
  have hisFile : isFile true path w = (.ok (w.contents path).isSome, w) := by
    simp [isFile, Fallible.inspect]
  have hcheck : check .io (a.readsPermissions && ((w.contents path).isSome || a.isDirectory)) w =
      (.ok (), w) := by
    have htrue : (a.readsPermissions && ((w.contents path).isSome || a.isDirectory)) = true := by
      simpa [hreads] using hfound
    rw [htrue]
    rfl
  unfold setExecutable
  rw [bind_of_ok hisFile, bind_of_ok hcheck]
  exact Keeps.rest (fun _ => keeps_check _ _) (Fallible.update _) w

theorem keepsCache_grows (version : Option String) :
    KeepsCache Grows site a.asset version where
  remember w _ _ := refl_of Grows w
  clone w := growsBy_dropLegacyClone trivial w _
  cache _ w body := growsBy_writeCache trivial trivial trivial w _ body

theorem keeps_placeBinary_grows {archive : PathBuf} :
    Keeps Grows (placeBinary site tools a options release archive) := by
  unfold placeBinary
  refine Keeps.bind (keeps_extractArchive fun _ _ w => growsBy_unpack (by simp) w _ _) ?_
  intro _
  refine Keeps.bind (keeps_setExecutable fun w => growsBy_touch trivial w) ?_
  intro _
  refine Keeps.bind (keeps_recordInstalled fun w content => growsBy_write trivial w _ content) ?_
  intro _
  exact Keeps.pure _

theorem fetchArchive_grows : Keeps Grows (fetchArchive site tools a release) :=
  keeps_fetchArchive trivial (fun _ _ => trivial) fun _ _ _ _ _ => trivial

theorem namesStayInside_of_grows
    (h : GrowsBy (Inside site a) w (install site tools a options w).2) :
    NamesStayInside site tools a options w := by
  have hinstall : options.dryRun = false → install site tools a options =
      resolveRelease site tools a options >>= fun release =>
        fetchArchive site tools a release >>= fun archive =>
          verifyArchive tools a.readsArchive archive (expectedFor site a release) >>= fun _ =>
            placeBinary site tools a options release archive := by
    intro hdry
    unfold install
    rw [hdry]
    rfl
  have hresolves : Keeps Grows (resolveRelease site tools a options) :=
    keeps_resolveRelease (keepsCache_grows options.version)
  have hverifies : ∀ release archive, Keeps Grows
      (verifyArchive tools a.readsArchive archive (expectedFor site a release) >>= fun _ =>
        placeBinary site tools a options release archive) :=
    fun release archive => Keeps.bind (keeps_verifyArchive _ _ _) fun _ => keeps_placeBinary_grows
  constructor
  · rintro release dir ⟨hdry, ⟨w₁, hresolve⟩, hmade, hdir, bytes, hbytes⟩
    rw [hinstall hdry, bind_of_ok hresolve] at h
    have hbefore : Grows w ((w₁.touch (binDir site)).touch dir) :=
      ((hresolves.of_eq hresolve).trans (growsBy_touch trivial _)).trans (growsBy_touch trivial _)
    have htouches : Grows (((w₁.touch (binDir site)).touch dir).touch (join dir release.filename))
        (fetchArchive site tools a release w₁).2 := fetchArchive_touches hmade hdir hbytes
    have hafter := htouches.trans (Keeps.rest (fun archive => hverifies release archive)
      (fetchArchive site tools a release) w₁)
    exact mem_of_growsBy hbefore hafter h
  · rintro ⟨hdry, release, w₁, archive, w₂, verified, w₃, w₄, hresolve, hfetch, hverify, hextract,
      hreads, hfound⟩
    have hunpacks : Keeps Grows (extractArchive tools a archive (binDir site)) :=
      keeps_extractArchive fun _ _ w => growsBy_unpack (by simp) w _ _
    have hbefore : Grows w w₄ :=
      (((hresolves.of_eq hresolve).trans (fetchArchive_grows.of_eq hfetch)).trans
        ((keeps_verifyArchive (R := Grows) _ _ _).of_eq hverify)).trans
        (hunpacks.of_eq hextract)
    rw [hinstall hdry, bind_of_ok hresolve, bind_of_ok hfetch, bind_of_ok hverify, placeBinary,
      bind_of_ok hextract] at h
    have hrecords : ∀ _ : Unit, Keeps Grows (do
        recordInstalled site tools a options.name release (join (binDir site) options.name)
        pure ⟨options.name, release.version, join (binDir site) options.name⟩ :
          Op InstallResult) :=
      fun _ => Keeps.bind (keeps_recordInstalled fun w content => growsBy_write trivial w _ content)
        fun _ => Keeps.pure _
    have hafter := (setExecutable_touches hreads hfound).trans
      (Keeps.rest hrecords (setExecutable a (join (binDir site) options.name)) w₄)
    exact mem_of_growsBy hbefore hafter h

end

/-- An install touches only its own directories exactly when the two names from
outside stay in them as far as they are used. -/
theorem install_inside_iff (site : Site) {tools : Tools} (htools : tools.StaysUnder)
    (a : InstallAnswers) (options : InstallOptions) (w : World) :
    GrowsBy (Inside site a) w (install site tools a options w).2 ↔
      NamesStayInside site tools a options w :=
  ⟨namesStayInside_of_grows, install_grows htools⟩

/-- The archive holds the program. -/
def packedTools : Tools := { timerTools "timer.zip" with unpack := unpackTimer }

def packedAnswers : InstallAnswers :=
  { timerAnswers "timer.zip" with download := fun _ => .body timerZip }

theorem packedTools_staysUnder : packedTools.StaysUnder := by
  intro format bytes entry hentry
  change entry ∈ (unpackTimer format bytes).1 at hentry
  unfold unpackTimer at hentry
  split at hentry
  · rw [List.mem_singleton.mp hentry]
    decide
  · cases hentry

theorem resolve_unique {site : Site} {tools : Tools} {a : InstallAnswers}
    {options : InstallOptions} {w w' : World} {release release' : Release}
    (h : (resolveRelease site tools a options w).1 = .ok release)
    (h' : resolveRelease site tools a options w = (.ok release', w')) : release' = release := by
  rw [h'] at h
  exact Except.ok.inj h

theorem install_inside_timer :
    GrowsBy (Inside timerSite packedAnswers) timerWorld
        (install timerSite packedTools packedAnswers timerOptions timerWorld).2 ∧
      (install timerSite packedTools packedAnswers timerOptions timerWorld).2.placed =
        [(timerBinary, some timerProgram)] := by
  refine ⟨?_, by decide +kernel⟩
  refine (install_inside_iff timerSite packedTools_staysUnder _ _ _).mpr ⟨?_, ?_⟩
  · rintro release dir ⟨_, ⟨w₁, hresolve⟩, _, hdir, _⟩
    have hresolved : (resolveRelease timerSite packedTools packedAnswers timerOptions
        timerWorld).1 = .ok (timerRelease "timer.zip") := by decide +kernel
    rw [resolve_unique hresolved hresolve, ← Option.some.inj hdir]
    decide
  · intro _
    decide

/-- An archive whose file name climbs out of the temporary directory. -/
theorem install_writes_outside :
    WritesArchive timerSite (timerTools "../../home/user/.bashrc")
        (timerAnswers "../../home/user/.bashrc") timerOptions timerWorld
        (timerRelease "../../home/user/.bashrc") ["tmp", ".tmp4fB2x"] ∧
      join ["tmp", ".tmp4fB2x"] "../../home/user/.bashrc" =
        ["tmp", ".tmp4fB2x", "..", "..", "home", "user", ".bashrc"] ∧
      ¬ GrowsBy (Inside timerSite (timerAnswers "../../home/user/.bashrc")) timerWorld
        (install timerSite (timerTools "../../home/user/.bashrc")
          (timerAnswers "../../home/user/.bashrc") timerOptions timerWorld).2 := by
  have hresolved : (resolveRelease timerSite (timerTools "../../home/user/.bashrc")
      (timerAnswers "../../home/user/.bashrc") timerOptions timerWorld).1 =
        .ok (timerRelease "../../home/user/.bashrc") := by decide +kernel
  have hwrites : WritesArchive timerSite (timerTools "../../home/user/.bashrc")
      (timerAnswers "../../home/user/.bashrc") timerOptions timerWorld
      (timerRelease "../../home/user/.bashrc") ["tmp", ".tmp4fB2x"] :=
    ⟨rfl, ⟨_, eq_of_result hresolved⟩, rfl, rfl, emptyZip, rfl⟩
  have houtside : ¬ Inside timerSite (timerAnswers "../../home/user/.bashrc")
      (join ["tmp", ".tmp4fB2x"] "../../home/user/.bashrc") := by decide
  refine ⟨hwrites, by decide, ?_⟩
  intro h
  exact houtside ((namesStayInside_of_grows h).1 _ _ hwrites)

end Emergent.Engine.Marketplace

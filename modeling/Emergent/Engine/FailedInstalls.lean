import Emergent.Engine.PlacedBinaries

/-!
# Installs, updates and removals that fail half way (`marketplace/installer.rs`)

An archive is unpacked over the binaries in use before the permissions are set and
the manifest is saved, and a binary is removed before the manifest is saved. A
failure in between leaves new binaries under an old manifest, and a manifest that
is torn on the way to the disk is left torn.
-/

namespace Emergent.Engine.Marketplace
open Kit Kit.Text Kit.Paths Kit.Fallible

/-! ### Calls that cannot go wrong -/

section
variable (site : Site) (tools : Tools) (shipped : List Shipment)

/-- Unpacking changes no binary but the one that is installed, and where it changes
that one nothing fails any more. The manifest is not torn, and what is recorded at
the end is there. -/
structure PlacesSafely (a : InstallAnswers) (options : InstallOptions) (release : Release)
    (archive : PathBuf) (w : World) : Prop where
  foreign : ∀ place, Protected site tools w place →
    afterUnpack site tools a archive w place ≠ w.files place →
    place ≠ resolve (manifestPath site) ∧
      ∀ entry ∈ listed site tools w, resolve entry.2.binaryPath = place → entry.1 = options.name
  finishes : ∀ place, Protected site tools w place →
    afterUnpack site tools a archive w place ≠ w.files place →
    Finishes site tools a options release archive w
  untorn : ∀ data, ComesToSave site tools a options release archive w data →
    ∀ part, a.saves ≠ .torn part
  own : Finishes site tools a options release archive w →
    ownPlace site options ≠ resolve (manifestPath site) ∧
      ((∃ file ∈ unpackedFiles site tools a archive w, file.1 = ownPlace site options) ∨
        ∃ binary, w.files (ownPlace site options) = some binary ∧
          (⟨options.name, release.version, binary⟩ : Shipment) ∈ shipped)
  manifest : Finishes site tools a options release archive w →
    ∀ entry ∈ listed site tools w, entry.1 ≠ options.name →
      resolve entry.2.binaryPath ≠ resolve (manifestPath site)

structure InstallsSafely (a : InstallAnswers) (options : InstallOptions) (w : World) : Prop where
  cache : CacheApart site (Protected site tools w) a.asset options.version
  archive : ∀ release dir, WritesArchive site tools a options w release dir →
    ¬ Protected site tools w (resolve (join dir release.filename))
  places : options.dryRun = false → ∀ release w₁ archive w₂ verified,
    resolveRelease site tools a options w = (.ok release, w₁) →
    fetchArchive site tools a release w₁ = (.ok archive, w₂) →
    verifyArchive tools a.readsArchive archive (expectedFor site a release) w₂ =
      (.ok verified, w₂) →
    PlacesSafely site tools shipped a options release archive w₂

/-- The binary is seen at its place. -/
def SeesBinary (a : RemoveAnswers) (path : PathBuf) (w : World) : Prop :=
  a.sees = true ∧ (w.contents path).isSome = true

/-- A binary that is removed is no other primitive's, and then nothing fails any
more. The manifest is not torn, and is not a binary itself. -/
structure TakesSafely (a : RemoveAnswers) (name : String) (w : World)
    (data : InstallationManifest) (installed : InstalledPrimitive) : Prop where
  lone : SeesBinary a installed.binaryPath w → a.removes = true → ∀ entry ∈ data,
    resolve entry.2.binaryPath = resolve installed.binaryPath → entry.1 = name
  finishes : SeesBinary a installed.binaryPath w → a.removes = true →
    (tools.writeManifest (data.remove name)).isSome = true ∧ a.saves = .done
  untorn : (SeesBinary a installed.binaryPath w → a.removes = true) →
    (tools.writeManifest (data.remove name)).isSome = true → ∀ part, a.saves ≠ .torn part
  manifest : (SeesBinary a installed.binaryPath w → a.removes = true) →
    (tools.writeManifest (data.remove name)).isSome = true → a.saves = .done →
    ∀ entry ∈ data, entry.1 ≠ name → resolve entry.2.binaryPath ≠ resolve (manifestPath site)

def RemovesSafely (a : RemoveAnswers) (name : String) (w : World) : Prop :=
  ∀ data installed, (loadManifest site tools a.load w).1 = .ok data →
    data.lookup name = some installed → TakesSafely site tools a name w data installed

structure UpdatesSafely (a : UpdateAnswers) (name : String) (dryRun : Bool) (w : World) :
    Prop where
  cache : CacheApart site (Protected site tools w) a.asset none
  installs : ∀ version w', updateTarget site tools a name dryRun w = (.ok (some version), w') →
    InstallsSafely site tools shipped a.install (updateOptions name version) w'

def Call.Safe (s : Installation) : Call → Prop
  | .install a options => InstallsSafely site tools s.shipped a options s.world
  | .remove a name => RemovesSafely site tools a name s.world
  | .update a name dryRun => UpdatesSafely site tools s.shipped a name dryRun s.world

end

section
variable {site : Site} {tools : Tools} {shipped : List Shipment} {a : InstallAnswers}
  {options : InstallOptions} {release : Release} {archive : PathBuf} {w : World}

theorem Faithful.of_spares {s s' : Installation} (h : Faithful site tools s)
    (hspares : Spares (Protected site tools s.world) s.world s'.world)
    (hshipped : ∀ shipment ∈ s.shipped, shipment ∈ s'.shipped) : Faithful site tools s' := by
  intro entry hentry
  rw [listed_of_spares hspares] at hentry
  obtain ⟨binary, hcontents, hmem⟩ := h entry hentry
  refine ⟨binary, ?_, hshipped _ hmem⟩
  have hsame : s'.world.contents entry.2.binaryPath = s.world.contents entry.2.binaryPath :=
    hspares _ (Or.inr ⟨entry, hentry, rfl⟩)
  rw [hsame, hcontents]

/-- Where no entry of the archive lands, nothing changes. -/
theorem afterUnpack_of_none {place : PathBuf}
    (h : ∀ file ∈ unpackedFiles site tools a archive w, file.1 ≠ place) :
    afterUnpack site tools a archive w place = w.files place := by
  rw [afterUnpack, lastPlaced_none h]
  rfl

theorem placeBinary_finishes (h : Finishes site tools a options release archive w) :
    ∃ w', placeBinary site tools a options release archive w =
      (.ok ⟨options.name, release.version, join (binDir site) options.name⟩, w') := by
  obtain ⟨⟨data, hcomes⟩, hdone⟩ := h
  have hsave : ∀ w', ∃ w'', saveManifest site tools a.saves (recorded site a options release data)
      w' = (.ok (), w'') := by
    intro w'
    cases htext : tools.writeManifest (recorded site a options release data) with
    | none =>
      have hsome := hcomes.serializes
      rw [htext] at hsome
      cases hsome
    | some text =>
      simp only [saveManifest, htext, hdone]
      exact ⟨_, rfl⟩
  obtain ⟨w', hsaved⟩ := hsave ((extractArchive tools a archive (binDir site) w).2.touch
    (join (binDir site) options.name))
  refine ⟨w', ?_⟩
  rw [placeBinary_comes hcomes, bind_of_ok hsaved]
  rfl

/-- A failure that is safe leaves the manifest and the listed binaries. -/
theorem placeBinary_spares {e : MarketplaceError} {w' : World}
    (hsafe : PlacesSafely site tools shipped a options release archive w)
    (h : placeBinary site tools a options release archive w = (.error e, w')) :
    Spares (Protected site tools w) w w' := by
  have hunpacked : ∀ place, Protected site tools w place →
      (extractArchive tools a archive (binDir site) w).2.files place = w.files place := by
    intro place hplace
    rw [extractArchive_files]
    by_contra hchanged
    obtain ⟨w'', hok⟩ := placeBinary_finishes (hsafe.finishes place hplace hchanged)
    rw [hok] at h
    cases (Prod.mk.inj h).1
  by_cases hcomes : ∃ data, ComesToSave site tools a options release archive w data
  · obtain ⟨data, hcomes⟩ := hcomes
    rw [placeBinary_comes hcomes] at h
    rcases bind_cases (saveManifest site tools a.saves (recorded site a options release data)) _
      ((extractArchive tools a archive (binDir site) w).2.touch
        (join (binDir site) options.name)) with ⟨e', w'', hsave, hbind⟩ | ⟨_, w'', hsave, hbind⟩
    · have hkept := saveManifest_eq_error (fun _ => hsafe.untorn data hcomes) hsave
      rw [hbind] at h
      rw [← (Prod.mk.inj h).2]
      intro place hplace
      rw [hkept]
      exact hunpacked place hplace
    · rw [hbind] at h
      cases (Prod.mk.inj h).1
  · obtain ⟨e', w'', hstop, hfiles⟩ := placeBinary_stops fun data hdata => hcomes ⟨data, hdata⟩
    rw [hstop] at h
    rw [← (Prod.mk.inj h).2]
    intro place hplace
    rw [hfiles]
    exact hunpacked place hplace

/-- An install that ends well has recorded itself and left everything else where
the archive left it. -/
theorem placeBinary_eq_ok (htools : tools.ReadsBack) {result : InstallResult} {w' : World}
    (h : placeBinary site tools a options release archive w = (.ok result, w')) :
    ∃ data, ComesToSave site tools a options release archive w data ∧ a.saves = .done ∧
      listed site tools w' = recorded site a options release data ∧
      w'.placed = w.placed ++ unpackedFiles site tools a archive w ∧
      ∀ place, place ≠ resolve (manifestPath site) →
        w'.files place = afterUnpack site tools a archive w place := by
  by_cases hcomes : ∃ data, ComesToSave site tools a options release archive w data
  · obtain ⟨data, hcomes⟩ := hcomes
    rw [placeBinary_comes hcomes] at h
    obtain ⟨_, w'', hsave, hend⟩ := bind_eq_ok.mp h
    rw [(Prod.mk.inj hend).2] at hsave
    obtain ⟨hdone, hlisted, hplaced, hfiles⟩ := saveManifest_eq_ok htools hsave
    refine ⟨data, hcomes, hdone, hlisted, hplaced.trans extractArchive_placed, ?_⟩
    intro place hplace
    rw [hfiles place hplace, ← extractArchive_files]
    rfl
  · obtain ⟨e, w'', hstop, _⟩ := placeBinary_stops fun data hdata => hcomes ⟨data, hdata⟩
    rw [hstop] at h
    cases (Prod.mk.inj h).1

/-- A whole archive leaves a file wherever it lands. -/
theorem lastPlaced_whole (hwhole : a.unpacks = .whole) {place : PathBuf}
    (h : ∃ file ∈ unpackedFiles site tools a archive w, file.1 = place) :
    ∃ binary, lastPlaced (unpackedFiles site tools a archive w) place = some (some binary) := by
  obtain ⟨content, hlast, hmem⟩ := lastPlaced_mem h
  unfold unpackedFiles at hmem
  cases hopened : opened a archive w with
  | none =>
    rw [hopened] at hmem
    cases hmem
  | some found =>
    rw [hopened, hwhole] at hmem
    obtain ⟨entry, hentry, hfile⟩ := List.mem_map.mp hmem
    obtain ⟨source, _, hsource⟩ := List.mem_filterMap.mp hentry
    obtain ⟨bytes, _, hbytes⟩ := Option.map_eq_some_iff.mp hsource
    refine ⟨bytes, ?_⟩
    rw [hlast, ← (Prod.mk.inj hfile).2, ← hbytes]

/-- After a safe install that ends well the manifest lists what was installed. -/
theorem placeBinary_faithful (htools : tools.ReadsBack) {result : InstallResult} {w' : World}
    (hsafe : PlacesSafely site tools shipped a options release archive w)
    (hfaithful : Faithful site tools ⟨w, shipped⟩) {shipped' : List Shipment}
    (hgrown : ∀ shipment ∈ shipped, shipment ∈ shipped')
    (hshipped : ∀ binary, lastPlaced (unpackedFiles site tools a archive w)
      (ownPlace site options) = some (some binary) →
        (⟨options.name, release.version, binary⟩ : Shipment) ∈ shipped')
    (h : placeBinary site tools a options release archive w = (.ok result, w')) :
    Faithful site tools ⟨w', shipped'⟩ := by
  obtain ⟨data, hcomes, hdone, hlisted, _, hfiles⟩ := placeBinary_eq_ok htools h
  have hfinishes : Finishes site tools a options release archive w := ⟨⟨data, hcomes⟩, hdone⟩
  obtain ⟨hownApart, hown⟩ := hsafe.own hfinishes
  have hmanifest : (extractArchive tools a archive (binDir site) w).2.contents
      (manifestPath site) = w.contents (manifestPath site) := by
    refine (extractArchive_files _).trans ?_
    by_contra hchanged
    exact (hsafe.foreign _ (Or.inl rfl) hchanged).1 rfl
  have hdata : ∀ entry ∈ data, entry ∈ listed site tools w := by
    obtain ⟨_, hloaded⟩ := loadManifest_eq_ok (eq_of_result hcomes.loads)
    intro entry hentry
    rcases hloaded with hnil | hloaded
    · rw [hnil] at hentry
      cases hentry
    · rw [hloaded, listed, hmanifest] at hentry
      exact hentry
  intro entry hentry
  rw [hlisted, recorded, InstallationManifest.insert] at hentry
  rcases List.mem_cons.mp hentry with hentry | hentry
  · rw [hentry]
    have hcontents : w'.contents (join (binDir site) options.name) =
        afterUnpack site tools a archive w (ownPlace site options) := hfiles _ hownApart
    rw [hcontents]
    by_cases hlands : ∃ file ∈ unpackedFiles site tools a archive w,
        file.1 = ownPlace site options
    · obtain ⟨binary, hbinary⟩ := lastPlaced_whole hcomes.whole hlands
      refine ⟨binary, ?_, hshipped binary hbinary⟩
      rw [afterUnpack, hbinary]
      rfl
    · rcases hown with hlanded | ⟨binary, hthere, hmem⟩
      · exact absurd hlanded hlands
      · refine ⟨binary, ?_, hgrown _ hmem⟩
        rw [afterUnpack_of_none fun file hfile hsame => hlands ⟨file, hfile, hsame⟩, hthere]
  · obtain ⟨hentry, hother⟩ := List.mem_filter.mp hentry
    have hthere := hdata entry hentry
    obtain ⟨binary, hcontents, hmem⟩ := hfaithful entry hthere
    refine ⟨binary, ?_, hgrown _ hmem⟩
    have hname : entry.1 ≠ options.name := of_decide_eq_true hother
    have hkept : w'.contents entry.2.binaryPath =
        afterUnpack site tools a archive w (resolve entry.2.binaryPath) :=
      hfiles _ (hsafe.manifest hfinishes entry hthere hname)
    rw [hkept, ← hcontents]
    by_contra hchanged
    exact hname ((hsafe.foreign _ (Or.inr ⟨entry, hthere, rfl⟩) hchanged).2 entry hthere rfl)

/-! ### Whole calls -/

def SamePlaced (w w' : World) : Prop := w'.placed = w.placed

instance : Std.Refl SamePlaced := ⟨fun _ => rfl⟩

instance : IsTrans World SamePlaced := ⟨fun _ _ _ h h' => h'.trans h⟩

theorem samePlaced_write (w : World) (answer : WriteAnswer) (path : PathBuf) (content : Bytes) :
    SamePlaced w (w.write answer path content) := by
  cases answer <;> rfl

theorem keepsCache_samePlaced (asset : AssetAnswers) (version : Option String) :
    KeepsCache SamePlaced site asset version where
  remember _ _ _ := rfl
  clone w := by
    unfold World.dropLegacyClone
    split_ifs <;> rfl
  cache _ w body := by
    unfold World.writeCache
    simp only
    split_ifs
    · rfl
    · exact samePlaced_write (w.touch _) _ _ _
    · rfl
    · rfl
    · rfl

theorem fetchArchive_placed : Keeps SamePlaced (fetchArchive site tools a release) := by
  unfold fetchArchive
  refine Keeps.bind (keeps_createDirAll fun _ => rfl) ?_
  intro _
  have htemp : Keeps SamePlaced (tempdir a.tempDir) := by
    cases a.tempDir with
    | none => exact Keeps.fail _
    | some dir => exact Keeps.bind (Keeps.update fun _ => rfl) fun _ => Keeps.pure _
  refine Keeps.bind htemp ?_
  intro dir
  refine Keeps.bind (keeps_downloadBinary fun bytes _ w => samePlaced_write w _ _ _) ?_
  intro _
  exact Keeps.pure _

/-- A safe install ends before anything is unpacked and spares everything, or it
comes to put the binary in place. -/
theorem install_cases (hsafe : InstallsSafely site tools shipped a options w) :
    Spares (Protected site tools w) w (install site tools a options w).2 ∨
      ∃ release archive w₂, Spares (Protected site tools w) w w₂ ∧ w₂.placed = w.placed ∧
        PlacesSafely site tools shipped a options release archive w₂ ∧
        install site tools a options w =
          (placeBinary site tools a options release archive) w₂ := by
  have hresolves : Keeps (Spares (Protected site tools w))
      (resolveRelease site tools a options) :=
    keeps_resolveRelease (keepsCache_spares hsafe.cache)
  have hsame : Keeps SamePlaced (resolveRelease site tools a options) :=
    keeps_resolveRelease (keepsCache_samePlaced a.asset options.version)
  unfold install
  rcases bind_cases (resolveRelease site tools a options) _ w with ⟨e, w₁, hresolve, hbind⟩ |
    ⟨release, w₁, hresolve, hbind⟩
  · left
    rw [hbind]
    exact hresolves.of_eq hresolve
  have hresolved := hresolves.of_eq hresolve
  have hplaced₁ : w₁.placed = w.placed := hsame.of_eq hresolve
  rw [hbind]
  cases hdry : options.dryRun with
  | true =>
    left
    exact hresolved
  | false =>
    have hfetches : Spares (Protected site tools w) w₁
        (fetchArchive site tools a release w₁).2 := by
      apply spares_fetchArchive
      intro dir bytes hmade hdir hbytes
      exact hsafe.archive release dir ⟨hdry, ⟨w₁, hresolve⟩, hmade, hdir, bytes, hbytes⟩
    simp only [Bool.false_eq_true, if_false]
    rcases bind_cases (fetchArchive site tools a release) _ w₁ with ⟨e, w₂, hfetch, hbind⟩ |
      ⟨archive, w₂, hfetch, hbind⟩
    · left
      rw [hbind]
      rw [hfetch] at hfetches
      exact hresolved.trans hfetches
    rw [hfetch] at hfetches
    have hplaced₂ : w₂.placed = w₁.placed := fetchArchive_placed.of_eq hfetch
    rw [hbind]
    rcases bind_cases (verifyArchive tools a.readsArchive archive (expectedFor site a release)) _
      w₂ with ⟨e, w₃, hverify, hbind⟩ | ⟨verified, w₃, hverify, hbind⟩
    · left
      have hstate : w₂ = w₃ := (keeps_verifyArchive (R := Eq) _ _ _).of_eq hverify
      rw [hbind, ← hstate]
      exact hresolved.trans hfetches
    · right
      have hstate : w₂ = w₃ := verifyArchive_state hverify
      rw [← hstate] at hverify hbind
      exact ⟨release, archive, w₂, hresolved.trans hfetches,
        hplaced₂.trans hplaced₁, hsafe.places hdry release w₁ archive w₂ verified hresolve hfetch
          hverify, hbind⟩

theorem install_spares {e : MarketplaceError} {w' : World}
    (hsafe : InstallsSafely site tools shipped a options w)
    (h : install site tools a options w = (.error e, w')) :
    Spares (Protected site tools w) w w' := by
  rcases install_cases hsafe with hspares | ⟨release, archive, w₂, hspares, _, hplaces, hinstall⟩
  · rwa [h] at hspares
  · rw [hinstall] at h
    have hrest := placeBinary_spares hplaces h
    rw [protected_of_listed (listed_of_spares hspares)] at hrest
    exact hspares.trans hrest

theorem install_faithful (htools : tools.ReadsBack)
    (hsafe : InstallsSafely site tools shipped a options w)
    (hfaithful : Faithful site tools ⟨w, shipped⟩) :
    Faithful site tools ⟨(install site tools a options w).2,
      shipped ++ installShipments site tools a options w⟩ := by
  have hgrown : ∀ shipment ∈ shipped,
      shipment ∈ shipped ++ installShipments site tools a options w :=
    fun _ hmem => List.mem_append_left _ hmem
  rcases install_cases hsafe with hspares | ⟨release, archive, w₂, hspares, hplaced, hplaces,
    hinstall⟩
  · exact hfaithful.of_spares hspares hgrown
  have hfaithful₂ : Faithful site tools ⟨w₂, shipped⟩ := hfaithful.of_spares hspares fun _ => id
  rcases hresult : placeBinary site tools a options release archive w₂ with ⟨ended, w'⟩
  cases ended with
  | error e =>
    have hrest := placeBinary_spares hplaces hresult
    have hend : (install site tools a options w).2 = w' := by rw [hinstall, hresult]
    rw [hend]
    exact hfaithful₂.of_spares hrest hgrown
  | ok result =>
    obtain ⟨data, hcomes, hdone, _, hplaced', _⟩ := placeBinary_eq_ok htools hresult
    obtain ⟨_, hfinished⟩ := placeBinary_finishes ⟨⟨data, hcomes⟩, hdone⟩
    have hend : install site tools a options w =
        (.ok ⟨options.name, release.version, join (binDir site) options.name⟩, w') := by
      rw [hfinished] at hresult
      rw [hinstall, hfinished, (Prod.mk.inj hresult).2]
    have hdrop : w'.placed.drop w.placed.length = unpackedFiles site tools a archive w₂ := by
      rw [hplaced', hplaced, List.drop_left]
    have hshipments : ∀ binary, lastPlaced (unpackedFiles site tools a archive w₂)
        (ownPlace site options) = some (some binary) →
        installShipments site tools a options w = [⟨options.name, release.version, binary⟩] := by
      intro binary hbinary
      rw [ownPlace] at hbinary
      simp only [installShipments, hend, hdrop, hbinary]
    have hworld : (install site tools a options w).2 = w' := by rw [hend]
    rw [hworld]
    refine placeBinary_faithful htools hplaces hfaithful₂ hgrown ?_ hresult
    intro binary hbinary
    rw [hshipments binary hbinary]
    exact List.mem_append_right _ (List.mem_singleton_self _)

theorem removeBinary_cases (a : RemoveAnswers) (path : PathBuf) (w : World) :
    (SeesBinary a path w ∧ a.removes = true ∧ removeBinary a path w = (.ok (), w.put path none)) ∨
      (¬ SeesBinary a path w ∧ removeBinary a path w = (.ok (), w)) ∨
      ∃ e, removeBinary a path w = (.error e, w) := by
  have hseen : isFile a.sees path w = (.ok (a.sees && (w.contents path).isSome), w) := rfl
  unfold removeBinary
  rw [bind_of_ok hseen]
  cases hthere : a.sees && (w.contents path).isSome with
  | false =>
    right
    left
    refine ⟨?_, rfl⟩
    rintro ⟨hsees, hsome⟩
    rw [hsees, hsome] at hthere
    cases hthere
  | true =>
    cases hremoves : a.removes with
    | true => exact Or.inl ⟨Bool.and_eq_true_iff.mp hthere, rfl, rfl⟩
    | false => exact Or.inr (Or.inr ⟨_, rfl⟩)

/-- A safe removal leaves everything, or it ends well without the primitive. -/
theorem remove_cases (htools : tools.ReadsBack) {a : RemoveAnswers} {name : String}
    (hsafe : RemovesSafely site tools a name w) :
    Spares (Protected site tools w) w (remove site tools a name w).2 ∨
      ((remove site tools a name w).1 = .ok () ∧
        ∀ entry ∈ listed site tools (remove site tools a name w).2,
          entry ∈ listed site tools w ∧
            (remove site tools a name w).2.contents entry.2.binaryPath =
              w.contents entry.2.binaryPath) := by
  unfold remove
  rcases bind_cases (loadManifest site tools a.load) _ w with ⟨e, w₁, hload, hbind⟩ |
    ⟨data, w₁, hload, hbind⟩
  · left
    have hstate : w = w₁ := (keeps_loadManifest (R := Eq) _).of_eq hload
    rw [hbind, ← hstate]
    exact refl_of (Spares _) w
  obtain ⟨hstate, hdata⟩ := loadManifest_eq_ok hload
  have hloaded : (loadManifest site tools a.load w).1 = .ok data := by rw [hload]
  rw [hbind, hstate]
  cases hlookup : data.lookup name with
  | none => exact Or.inl (refl_of (Spares _) w)
  | some installed =>
    have htakes := hsafe data installed hloaded hlookup
    have hsub : ∀ entry ∈ data, entry ∈ listed site tools w := by
      intro entry hentry
      rcases hdata with hnil | hdata
      · rw [hnil] at hentry
        cases hentry
      · rwa [hdata] at hentry
    simp only
    rcases removeBinary_cases a installed.binaryPath w with ⟨hsees, hremoves, hremoved⟩ |
      ⟨hunseen, hremoved⟩ | ⟨e, hremoved⟩
    · right
      rw [bind_of_ok hremoved]
      obtain ⟨hserializes, hdone⟩ := htakes.finishes hsees hremoves
      obtain ⟨text, htext⟩ := Option.isSome_iff_exists.mp hserializes
      have hsave : saveManifest site tools a.saves (data.remove name)
          (w.put installed.binaryPath none) = (.ok (), (saveManifest site tools a.saves
            (data.remove name) (w.put installed.binaryPath none)).2) := by
        simp only [saveManifest, htext, hdone]
        rfl
      obtain ⟨_, hlisted, _, hfiles⟩ := saveManifest_eq_ok htools hsave
      refine ⟨by rw [hsave], ?_⟩
      intro entry hentry
      rw [hlisted] at hentry
      obtain ⟨hentry, hother⟩ := List.mem_filter.mp hentry
      have hname : entry.1 ≠ name := of_decide_eq_true hother
      refine ⟨hsub entry hentry, ?_⟩
      have hkept := hfiles _
        (htakes.manifest (fun _ => hremoves) hserializes hdone entry hentry hname)
      have hplace : resolve entry.2.binaryPath ≠ resolve installed.binaryPath :=
        fun hsame => hname (htakes.lone hsees hremoves entry hentry hsame)
      exact hkept.trans (if_neg hplace)
    · have hpasses : SeesBinary a installed.binaryPath w → a.removes = true :=
        fun hsees => absurd hsees hunseen
      rw [bind_of_ok hremoved]
      rcases hsave : saveManifest site tools a.saves (data.remove name) w with ⟨saved, w'⟩
      cases saved with
      | error e =>
        left
        intro place _
        exact congrFun (saveManifest_eq_error (htakes.untorn hpasses) hsave) place
      | ok _ =>
        right
        obtain ⟨hdone, hlisted, _, hfiles⟩ := saveManifest_eq_ok htools hsave
        have hserializes := saveManifest_serializes hsave
        refine ⟨rfl, ?_⟩
        intro entry hentry
        rw [hlisted] at hentry
        obtain ⟨hentry, hother⟩ := List.mem_filter.mp hentry
        exact ⟨hsub entry hentry, hfiles _ (htakes.manifest hpasses hserializes hdone entry hentry
          (of_decide_eq_true hother))⟩
    · left
      rw [bind_of_error hremoved]
      exact refl_of (Spares _) w

theorem updateTarget_spares {a : UpdateAnswers} {name : String} {dryRun : Bool}
    (hcache : CacheApart site (Protected site tools w) a.asset none) :
    Spares (Protected site tools w) w (updateTarget site tools a name dryRun w).2 := by
  unfold updateTarget
  refine leaves_bind (keeps_loadManifest _ w) ?_
  intro data w₁ _
  cases data.lookup name with
  | none => exact refl_of (Spares _) w₁
  | some installed =>
    refine leaves_bind (keeps_getManifest (keepsCache_spares hcache) w₁) ?_
    intro latest w₂ _
    split_ifs
    · exact refl_of (Spares _) w₂
    · exact refl_of (Spares _) w₂
    · exact refl_of (Spares _) w₂

/-- An update that does not come to install anything spares everything. -/
theorem update_cases {a : UpdateAnswers} {name : String} {dryRun : Bool}
    (hsafe : UpdatesSafely site tools shipped a name dryRun w) :
    (Spares (Protected site tools w) w (update site tools a name dryRun w).2 ∧
        ∀ version w', updateTarget site tools a name dryRun w ≠ (.ok (some version), w')) ∨
      ∃ version w', updateTarget site tools a name dryRun w = (.ok (some version), w') ∧
        Spares (Protected site tools w) w w' ∧
        InstallsSafely site tools shipped a.install (updateOptions name version) w' ∧
        update site tools a name dryRun w =
          (install site tools a.install (updateOptions name version) >>= fun result =>
            pure (some result)) w' := by
  have hspares : Spares (Protected site tools w) w
      (updateTarget site tools a name dryRun w).2 := updateTarget_spares hsafe.cache
  unfold update
  rcases bind_cases (updateTarget site tools a name dryRun) _ w with ⟨e, w', htarget, hbind⟩ |
    ⟨target, w', htarget, hbind⟩
  · left
    rw [htarget] at hspares
    rw [hbind, htarget]
    exact ⟨hspares, by simp⟩
  · rw [htarget] at hspares
    rw [hbind]
    cases target with
    | none =>
      left
      rw [htarget]
      exact ⟨hspares, by simp⟩
    | some version =>
      exact Or.inr ⟨version, w', htarget, hspares, hsafe.installs version w' htarget, rfl⟩

/-! ### Every call -/

theorem call_spares (htools : tools.ReadsBack) {s : Installation} {call : Call}
    (hsafe : call.Safe site tools s) {e : MarketplaceError} {w' : World}
    (h : call.run site tools s.world = (.error e, w')) :
    Spares (Protected site tools s.world) s.world w' := by
  cases call with
  | install a options =>
    obtain ⟨hended, hleft⟩ := Prod.mk.inj h
    rcases hinstall : install site tools a options s.world with ⟨ended, w''⟩
    rw [hinstall] at hended hleft
    cases ended with
    | ok result => cases hended
    | error e' =>
      rw [← hleft]
      exact install_spares hsafe hinstall
  | remove a name =>
    have hremove : remove site tools a name s.world = (.error e, w') := h
    rcases remove_cases htools hsafe with hspares | ⟨hok, _⟩
    · rwa [hremove] at hspares
    · rw [hremove] at hok
      cases hok
  | update a name dryRun =>
    obtain ⟨hended, hleft⟩ := Prod.mk.inj h
    change (update site tools a name dryRun s.world).2 = w' at hleft
    rw [← hleft]
    rcases update_cases hsafe with ⟨hspares, _⟩ | ⟨version, w'', _, hspares, hinstalls, hupdate⟩
    · exact hspares
    · rcases bind_cases (install site tools a.install (updateOptions name version)) _ w'' with
        ⟨e', w₁, hinstall, hbind⟩ | ⟨result, w₁, _, hbind⟩
      · rw [hupdate, hbind]
        have hrest := install_spares hinstalls hinstall
        rw [protected_of_listed (listed_of_spares hspares)] at hrest
        exact hspares.trans hrest
      · change (update site tools a name dryRun s.world).1.map _ = _ at hended
        rw [hupdate, hbind] at hended
        cases hended

theorem step_faithful (htools : tools.ReadsBack) {s t : Installation} {call : Call}
    (hfaithful : Faithful site tools s) (hsafe : call.Safe site tools s)
    (hstep : s.step site tools call = some t) : Faithful site tools t := by
  rw [← Option.some.inj hstep]
  cases call with
  | install a options => exact install_faithful htools hsafe hfaithful
  | remove a name =>
    rcases remove_cases htools hsafe with hspares | ⟨_, hkept⟩
    · exact hfaithful.of_spares hspares fun _ hmem => List.mem_append_left _ hmem
    · intro entry hentry
      obtain ⟨hthere, hsame⟩ := hkept entry hentry
      obtain ⟨binary, hcontents, hmem⟩ := hfaithful entry hthere
      exact ⟨binary, hsame.trans hcontents, List.mem_append_left _ hmem⟩
  | update a name dryRun =>
    rcases update_cases hsafe with ⟨hspares, _⟩ | ⟨version, w', htarget, hspares, hinstalls,
      hupdate⟩
    · exact hfaithful.of_spares hspares fun _ hmem => List.mem_append_left _ hmem
    · have hfaithful' : Faithful site tools ⟨w', s.shipped⟩ :=
        hfaithful.of_spares hspares fun _ => id
      have hinstalled := install_faithful htools hinstalls hfaithful'
      have hleft : (update site tools a name dryRun s.world).2 =
          (install site tools a.install (updateOptions name version) w').2 := by
        rw [hupdate]
        rcases bind_cases (install site tools a.install (updateOptions name version))
          (fun result => (pure (some result) : Op (Option InstallResult))) w' with
          ⟨e, w₁, hinstall, hbind⟩ | ⟨result, w₁, hinstall, hbind⟩
        · rw [hbind, hinstall]
        · rw [hbind, hinstall]
          rfl
      simp only [Call.run, Call.shipments, htarget, hleft]
      exact hinstalled

end

/-- Of a safe call that fails the manifest and every listed binary are as before,
and after safe calls every listed binary is the one of the recorded version. -/
theorem installation_kept (site : Site) {tools : Tools} (htools : tools.ReadsBack) :
    (∀ (s : Installation) (call : Call), call.Safe site tools s →
      ∀ e w', call.run site tools s.world = (.error e, w') →
        Spares (Protected site tools s.world) s.world w') ∧
    ∀ (s u : Installation) (calls : List Call), Faithful site tools s →
      Obeys (Installation.step site tools) (fun s call => call.Safe site tools s) s calls →
      run (Installation.step site tools) s calls = some u → Faithful site tools u := by
  constructor
  · intro s call hsafe e w' h
    exact call_spares htools hsafe h
  · intro s u calls hs hsafe hrun
    exact run_invariant_of_obeys (fun _ _ _ hfaithful hsafe => step_faithful htools hfaithful hsafe)
      hs hsafe hrun

/-! ### An upgrade that cannot set permissions -/

/-- The earlier version of the program. -/
def timerBefore : Bytes := ⟨#[35, 33, 47, 98, 105, 110, 47, 115, 104, 10, 10]⟩

def timerOutdated : InstallationManifest :=
  [("timer", ⟨"timer", "0.9.0", "source", timerBinary, "2026-08-01T00:00:00+00:00"⟩)]

def timerOutdatedText : String :=
  "[primitives.timer]\nname = \"timer\"\nversion = \"0.9.0\"\nkind = \"source\"\n" ++
    "binary_path = \"/home/user/.local/share/emergent/primitives/bin/timer\"\n" ++
    "installed_at = \"2026-08-01T00:00:00+00:00\"\n"

/-- The outside libraries on the texts of this registry and this archive. -/
def upgradeTools : Tools :=
  { timerTools "timer.zip" with
    parseBundle := fun _ => some [("timer", timerManifest "timer.zip")]
    readManifest := fun text =>
      if text = timerOutdatedText then some timerOutdated
      else if text = timerInstalledText then some timerInstalled
      else none
    writeManifest := fun manifest =>
      if manifest = timerOutdated then some timerOutdatedText
      else if manifest = timerInstalled then some timerInstalledText
      else none
    unpack := unpackTimer }

def upgradeAnswers (permits : Bool) : InstallAnswers :=
  { timerAnswers "timer.zip" with download := fun _ => .body timerZip, setsPermissions := permits }

def upgrade (permits : Bool) : Call :=
  .install (upgradeAnswers permits) ⟨"timer", none, true, false⟩

/-- Version 0.9.0 is installed. -/
def outdated : Installation where
  world :=
    { timerWorld with
      files := fun place =>
        if place = timerBinary then some timerBefore
        else if place = manifestPath timerSite then some timerOutdatedText.toUTF8
        else none }
  shipped := [⟨"timer", "0.9.0", timerBefore⟩]

/-- After the upgrade, with what it has shipped. -/
def upgraded (permits : Bool) (s : Installation) : Installation :=
  ⟨((upgrade permits).run timerSite upgradeTools s.world).2,
    s.shipped ++ (upgrade permits).shipments timerSite upgradeTools s.world⟩

theorem upgraded_world (permits : Bool) (s : Installation) : (upgraded permits s).world =
    ((upgrade permits).run timerSite upgradeTools s.world).2 := rfl

theorem listed_outdated : listed timerSite upgradeTools outdated.world = timerOutdated := by
  have hcontents : outdated.world.contents (manifestPath timerSite) =
      some timerOutdatedText.toUTF8 := rfl
  rw [listed, hcontents, Option.bind_some, fromUTF8_toUTF8, Option.bind_some]
  simp only [upgradeTools, if_true, Option.getD_some]

/-- The new binary is in place and the manifest stays at the old version. -/
theorem upgrade_changes :
    ((upgrade false).run timerSite upgradeTools outdated.world).1 = .error .io ∧
      ¬ Spares (Protected timerSite upgradeTools outdated.world) outdated.world
        (upgraded false outdated).world ∧
      Faithful timerSite upgradeTools outdated ∧
      ¬ Faithful timerSite upgradeTools (upgraded false outdated) := by
  have hentry : ("timer", (⟨"timer", "0.9.0", "source", timerBinary,
      "2026-08-01T00:00:00+00:00"⟩ : InstalledPrimitive)) ∈ timerOutdated :=
    List.mem_singleton_self _
  have hbefore : outdated.world.contents timerBinary = some timerBefore := by decide +kernel
  have hleft : (upgraded false outdated).world.contents timerBinary = some timerProgram := by
    decide +kernel
  have hstill : listed timerSite upgradeTools (upgraded false outdated).world = timerOutdated := by
    decide +kernel
  refine ⟨by decide +kernel, ?_, ?_, ?_⟩
  · intro h
    have hprotected : Protected timerSite upgradeTools outdated.world (resolve timerBinary) := by
      right
      rw [listed_outdated]
      exact ⟨_, hentry, rfl⟩
    have hsame : (upgraded false outdated).world.contents timerBinary =
        outdated.world.contents timerBinary := h _ hprotected
    rw [hleft, hbefore] at hsame
    exact absurd hsame (by decide)
  · intro entry hmem
    rw [listed_outdated] at hmem
    rw [List.mem_singleton.mp hmem]
    exact ⟨timerBefore, hbefore, List.mem_singleton_self _⟩
  · intro h
    obtain ⟨binary, hcontents, hmem⟩ := h _ (by rw [hstill]; exact hentry)
    have hbinary : some timerProgram = some binary := hleft.symm.trans hcontents
    have hnever : (⟨"timer", "0.9.0", timerProgram⟩ : Shipment) ∉
        (upgraded false outdated).shipped := by decide +kernel
    rw [← Option.some.inj hbinary] at hmem
    exact hnever hmem

/-! ### A first install -/

/-- Nothing is installed. -/
def blank : Installation := ⟨{ timerWorld with files := fun _ => none }, []⟩

theorem upgradeTools_readsBack : upgradeTools.ReadsBack := by
  intro manifest text h
  have hne : timerInstalledText ≠ timerOutdatedText := by decide +kernel
  simp only [upgradeTools] at h
  split_ifs at h with houtdated hinstalled
  · rw [← Option.some.inj h, houtdated]
    simp only [upgradeTools, if_true]
  · rw [← Option.some.inj h, hinstalled]
    simp only [upgradeTools, if_neg hne, if_true]

theorem upgrade_safe (permits : Bool) : (upgrade permits).Safe timerSite upgradeTools blank := by
  have hprotected : ∀ w, listed timerSite upgradeTools w = [] → ∀ place,
      Protected timerSite upgradeTools w place → place = resolve (manifestPath timerSite) := by
    intro w hnone place hplace
    rcases hplace with hplace | ⟨entry, hentry, _⟩
    · exact hplace
    · rw [hnone] at hentry
      cases hentry
  have hresolved : (resolveRelease timerSite upgradeTools (upgradeAnswers permits)
      ⟨"timer", none, true, false⟩ blank.world).1 = .ok (timerRelease "timer.zip") := by
    cases permits <;> decide +kernel
  have hfetched : (fetchArchive timerSite upgradeTools (upgradeAnswers permits)
      (timerRelease "timer.zip") (resolveRelease timerSite upgradeTools (upgradeAnswers permits)
        ⟨"timer", none, true, false⟩ blank.world).2).1 =
          .ok ["tmp", ".tmp4fB2x", "timer.zip"] := by
    cases permits <;> decide +kernel
  have hstate : listed timerSite upgradeTools (fetchArchive timerSite upgradeTools
      (upgradeAnswers permits) (timerRelease "timer.zip") (resolveRelease timerSite upgradeTools
        (upgradeAnswers permits) ⟨"timer", none, true, false⟩ blank.world).2).2 = [] ∧
      unpackedFiles timerSite upgradeTools (upgradeAnswers permits)
        ["tmp", ".tmp4fB2x", "timer.zip"] (fetchArchive timerSite upgradeTools
      (upgradeAnswers permits) (timerRelease "timer.zip") (resolveRelease timerSite upgradeTools
        (upgradeAnswers permits) ⟨"timer", none, true, false⟩ blank.world).2).2 =
      [(timerBinary, some timerProgram)] := by
    cases permits <;> decide +kernel
  refine ⟨cacheApart_of_outside ?_ _ _, ?_, ?_⟩
  · intro place hplace
    rw [hprotected _ rfl place hplace]
    decide
  · rintro release dir ⟨_, ⟨w₁, hresolve⟩, _, hdir, _⟩ hplace
    have hplace := hprotected _ rfl _ hplace
    rw [resolve_unique hresolved hresolve, ← Option.some.inj hdir] at hplace
    exact absurd hplace (by decide)
  · intro _ release w₁ archive w₂ verified hresolve hfetch _
    have hrelease := resolve_unique hresolved hresolve
    rw [hrelease] at hfetch
    rw [hresolve, hfetch] at hfetched
    rw [hresolve, hfetch, ← Except.ok.inj hfetched] at hstate
    have hsame : ∀ place, Protected timerSite upgradeTools w₂ place →
        afterUnpack timerSite upgradeTools (upgradeAnswers permits) archive w₂ place =
          w₂.files place := by
      intro place hplace
      apply afterUnpack_of_none
      rw [hstate.2, hprotected w₂ hstate.1 place hplace]
      decide
    constructor
    · intro place hplace hchanged
      exact absurd (hsame place hplace) hchanged
    · intro place hplace hchanged
      exact absurd (hsame place hplace) hchanged
    · intro _ _ _ htorn
      cases htorn
    · intro _
      refine ⟨by decide, Or.inl ?_⟩
      rw [hstate.2]
      decide
    · intro _
      rw [hstate.1]
      simp

theorem installation_kept_timer :
    Spares (Protected timerSite upgradeTools blank.world) blank.world (upgraded false blank).world ∧
      Faithful timerSite upgradeTools (upgraded true blank) := by
  have hfails : ((upgrade false).run timerSite upgradeTools blank.world).1 = .error .io := by
    decide +kernel
  have hblank : Faithful timerSite upgradeTools blank := by
    intro entry hentry
    cases hentry
  have hends : (upgrade false).run timerSite upgradeTools blank.world =
      (.error .io, ((upgrade false).run timerSite upgradeTools blank.world).2) := by
    rw [← hfails]
  constructor
  · rw [upgraded_world]
    exact (installation_kept timerSite upgradeTools_readsBack).1 blank (upgrade false)
      (upgrade_safe false) .io _ hends
  · exact (installation_kept timerSite upgradeTools_readsBack).2 blank _ [upgrade true] hblank
      ⟨upgrade_safe true, fun _ _ => trivial⟩ rfl

end Emergent.Engine.Marketplace

import Emergent.Engine.InstallRuns

/-!
# Putting a binary in place (`marketplace/installer.rs`)

After its check an archive is unpacked into the bin directory, the binary gets its
permissions and the manifest is loaded, changed and saved. What the archive left
stays when one of the later steps fails.
-/

namespace Emergent.Engine.Marketplace
open Kit Kit.Text Kit.Paths Kit.Fallible

/-! ### What may go wrong once the archive has passed its check -/

section
variable (site : Site) (tools : Tools) (a : InstallAnswers) (options : InstallOptions)
  (release : Release) (archive : PathBuf) (w : World)

/-- The archive as `extract_archive` opens it, when it does. -/
def opened : Option (ArchiveFormat × Bytes) :=
  match a.opensArchive, w.contents archive, archiveFormat archive with
  | true, some bytes, .ok format => some (format, bytes)
  | _, _, _ => none

/-- What the archive leaves at which place. -/
def unpackedFiles : List (PathBuf × Option Bytes) :=
  match opened a archive w with
  | none => []
  | some (format, bytes) =>
    (a.unpacks.written (tools.unpack format bytes).1).map fun entry =>
      (resolve (binDir site ++ entry.1), entry.2)

/-- Where the binary of the primitive goes. -/
def ownPlace : PathBuf := resolve (join (binDir site) options.name)

/-- What is at a place once the archive is unpacked. -/
def afterUnpack (place : PathBuf) : Option Bytes :=
  (lastPlaced (unpackedFiles site tools a archive w) place).getD (w.files place)

/-- The manifest that records the install. -/
def recorded (data : InstallationManifest) : InstallationManifest :=
  data.insert options.name ⟨options.name, release.version, release.manifest.primitive.kind,
    join (binDir site) options.name, a.installedAt⟩

/-- Nothing fails before the manifest is written: the archive is whole and all of
it gets onto the disk, there is something to set permissions of, and the manifest
is loaded and serialized. -/
structure ComesToSave (data : InstallationManifest) : Prop where
  yields : ∃ format bytes, opened a archive w = some (format, bytes) ∧
    (tools.unpack format bytes).2 = true
  whole : a.unpacks = .whole
  permits : a.readsPermissions = true ∧ a.setsPermissions = true
  found : a.isDirectory = true ∨
    (afterUnpack site tools a archive w (ownPlace site options)).isSome = true
  loads : (loadManifest site tools a.secondLoad
    (extractArchive tools a archive (binDir site) w).2).1 = .ok data
  serializes : (tools.writeManifest (recorded site a options release data)).isSome = true

/-- Nothing fails at all. -/
def Finishes : Prop :=
  (∃ data, ComesToSave site tools a options release archive w data) ∧ a.saves = .done

end

section
variable {site : Site} {tools : Tools} {a : InstallAnswers} {options : InstallOptions}
  {release : Release} {archive : PathBuf} {w : World}

theorem extractArchive_of_opened {format : ArchiveFormat} {bytes : Bytes} (dest : PathBuf)
    (h : opened a archive w = some (format, bytes)) :
    extractArchive tools a archive dest w =
      check (.extractionFailed (display archive))
        ((tools.unpack format bytes).2 && a.unpacks = .whole)
        (w.unpack a.unpacks (tools.unpack format bytes).1 bytes dest) := by
  unfold opened at h
  split at h
  next hopens hcontents hformat =>
    cases h
    have hread : readFile a.opensArchive archive w = (.ok bytes, w) := by
      rw [hopens]
      exact readFile_of_contents hcontents
    have hknown : (Fallible.inspect (fun _ => archiveFormat archive) : Op ArchiveFormat) w =
        (.ok format, w) := by
      rw [hformat]
      rfl
    rw [extractArchive, bind_of_ok hread, bind_of_ok hknown]
    exact bind_of_ok rfl
  next => cases h

theorem extractArchive_of_unopened (tools : Tools) (dest : PathBuf) (h : opened a archive w = none) :
    ∃ e, extractArchive tools a archive dest w = (.error e, w) := by
  unfold extractArchive
  rcases bind_cases (readFile a.opensArchive archive) _ w with ⟨e, t, hread, hbind⟩ |
    ⟨bytes, t, hread, hbind⟩
  · refine ⟨e, hbind.trans ?_⟩
    have hsame : w = t := (keeps_readFile (R := Eq) _ _).of_eq hread
    rw [hsame]
  · obtain ⟨hopens, hcontents, hsame⟩ := readFile_eq_ok hread
    rw [hbind, hsame]
    cases hformat : archiveFormat archive with
    | error e => exact ⟨e, rfl⟩
    | ok format =>
      simp only [opened, hopens, hcontents, hformat] at h
      cases h

theorem placeEntries_placed (dest : PathBuf) (written : List (List String × Option Bytes))
    (w : World) : (placeEntries dest written w).placed = w.placed := by
  induction written generalizing w with
  | nil => rfl
  | cons entry written ih => exact ih _

theorem extractArchive_files (place : PathBuf) :
    (extractArchive tools a archive (binDir site) w).2.files place =
      afterUnpack site tools a archive w place := by
  unfold afterUnpack unpackedFiles
  cases hopened : opened a archive w with
  | none =>
    obtain ⟨e, hextract⟩ := extractArchive_of_unopened tools (binDir site) hopened
    rw [hextract]
    rfl
  | some found =>
    obtain ⟨format, bytes⟩ := found
    rw [extractArchive_of_opened (binDir site) hopened]
    exact placeEntries_files _ _ _ _

theorem extractArchive_placed :
    (extractArchive tools a archive (binDir site) w).2.placed =
      w.placed ++ unpackedFiles site tools a archive w := by
  unfold unpackedFiles
  cases hopened : opened a archive w with
  | none =>
    obtain ⟨e, hextract⟩ := extractArchive_of_unopened tools (binDir site) hopened
    rw [hextract]
    exact (List.append_nil _).symm
  | some found =>
    obtain ⟨format, bytes⟩ := found
    rw [extractArchive_of_opened (binDir site) hopened]
    exact placeEntries_placed _ _ _

/-- It ends well when the archive is whole and all of it gets onto the disk. -/
theorem extractArchive_cases (tools : Tools) (a : InstallAnswers) (archive dest : PathBuf)
    (w : World) :
    (extractArchive tools a archive dest w =
        (.ok (), (extractArchive tools a archive dest w).2) ∧
      (∃ format bytes, opened a archive w = some (format, bytes) ∧
        (tools.unpack format bytes).2 = true) ∧ a.unpacks = .whole) ∨
    ((∃ e, extractArchive tools a archive dest w =
        (.error e, (extractArchive tools a archive dest w).2)) ∧
      ¬ ((∃ format bytes, opened a archive w = some (format, bytes) ∧
        (tools.unpack format bytes).2 = true) ∧ a.unpacks = .whole)) := by
  cases hopened : opened a archive w with
  | none =>
    right
    obtain ⟨e, hextract⟩ := extractArchive_of_unopened tools dest hopened
    exact ⟨⟨e, by rw [hextract]⟩, by simp⟩
  | some found =>
    obtain ⟨format, bytes⟩ := found
    rw [extractArchive_of_opened dest hopened]
    cases hpassed : (tools.unpack format bytes).2 && decide (a.unpacks = .whole) with
    | true =>
      left
      have hboth := Bool.and_eq_true_iff.mp hpassed
      exact ⟨rfl, ⟨format, bytes, rfl, hboth.1⟩, of_decide_eq_true hboth.2⟩
    | false =>
      right
      refine ⟨⟨_, rfl⟩, ?_⟩
      rintro ⟨⟨format', bytes', hsame, hwhole⟩, hall⟩
      cases hsame
      rw [hwhole, hall] at hpassed
      cases hpassed

theorem setExecutable_cases (path : PathBuf) :
    (setExecutable a path w = (.ok (), w.touch path) ∧
      (a.readsPermissions = true ∧ a.setsPermissions = true) ∧
        (a.isDirectory = true ∨ (w.contents path).isSome = true)) ∨
    ((∃ e w', setExecutable a path w = (.error e, w') ∧ w'.files = w.files) ∧
      ¬ ((a.readsPermissions = true ∧ a.setsPermissions = true) ∧
        (a.isDirectory = true ∨ (w.contents path).isSome = true))) := by
  have hfound : isFile true path w = (.ok (w.contents path).isSome, w) := by
    simp [isFile, Fallible.inspect]
  have hexec : setExecutable a path w =
      (check .io (a.readsPermissions && ((w.contents path).isSome || a.isDirectory)) >>= fun _ =>
        Fallible.update (World.touch path) >>= fun _ => check .io a.setsPermissions) w := by
    rw [setExecutable, bind_of_ok hfound]
  rw [hexec]
  cases hreads : a.readsPermissions && ((w.contents path).isSome || a.isDirectory) with
  | false =>
    right
    refine ⟨⟨_, w, rfl, rfl⟩, ?_⟩
    rintro ⟨⟨hreads', _⟩, hthere⟩
    rw [hreads', Bool.true_and, Bool.or_comm, Bool.or_eq_false_iff] at hreads
    simp [hreads] at hthere
  | true =>
    obtain ⟨hpermits, hthere⟩ := Bool.and_eq_true_iff.mp hreads
    rw [Bool.or_comm, Bool.or_eq_true] at hthere
    cases hsets : a.setsPermissions with
    | true => exact Or.inl ⟨rfl, ⟨hpermits, rfl⟩, hthere⟩
    | false =>
      right
      refine ⟨⟨_, w.touch path, rfl, rfl⟩, ?_⟩
      rintro ⟨⟨_, hset⟩, _⟩
      cases hset

theorem loadManifest_congr (answers : LoadAnswers) {w' : World} (h : w'.files = w.files) :
    (loadManifest site tools answers w').1 = (loadManifest site tools answers w).1 := by
  have hcontents : w'.contents (manifestPath site) = w.contents (manifestPath site) :=
    congrFun h _
  unfold loadManifest
  have hseen : ∀ v : World, isFile answers.sees (manifestPath site) v =
      (.ok (answers.sees && (v.contents (manifestPath site)).isSome), v) := fun _ => rfl
  rw [bind_of_ok (hseen w'), bind_of_ok (hseen w), hcontents]
  cases answers.sees && (w.contents (manifestPath site)).isSome with
  | false => rfl
  | true =>
    rcases hread : readFile answers.reads (manifestPath site) w with ⟨found, w₁⟩
    have hread' : readFile answers.reads (manifestPath site) w' = (found, w') := by
      have hfound := (Prod.mk.inj hread).1
      refine Prod.ext ?_ rfl
      rw [← hfound]
      simp only [readFile, Fallible.inspect, hcontents]
    simp only [if_true]
    cases found with
    | error e => rw [bind_of_error hread, bind_of_error hread']
    | ok content =>
      rw [bind_of_ok hread, bind_of_ok hread']
      cases String.fromUTF8? content with
      | none => rfl
      | some text =>
        simp only
        cases tools.readManifest text <;> rfl

/-- A call that puts the binary in place saves the manifest last. -/
theorem placeBinary_comes {data : InstallationManifest}
    (h : ComesToSave site tools a options release archive w data) :
    placeBinary site tools a options release archive w =
      (saveManifest site tools a.saves (recorded site a options release data) >>= fun _ =>
        pure ⟨options.name, release.version, join (binDir site) options.name⟩)
        ((extractArchive tools a archive (binDir site) w).2.touch
          (join (binDir site) options.name)) := by
  have hfiles : ∀ place, (extractArchive tools a archive (binDir site) w).2.files place =
      afterUnpack site tools a archive w place := extractArchive_files
  rcases extractArchive_cases tools a archive (binDir site) w with ⟨hextract, _⟩ | ⟨_, hnot⟩
  · rw [placeBinary, bind_of_ok hextract]
    rcases setExecutable_cases (a := a) (w := (extractArchive tools a archive (binDir site) w).2)
      (join (binDir site) options.name) with ⟨hexec, _⟩ | ⟨_, hnot⟩
    · rw [bind_of_ok hexec]
      have hload : loadManifest site tools a.secondLoad
          ((extractArchive tools a archive (binDir site) w).2.touch
            (join (binDir site) options.name)) =
          (.ok data, (extractArchive tools a archive (binDir site) w).2.touch
            (join (binDir site) options.name)) := by
        refine Prod.ext ?_ (keeps_loadManifest (R := Eq) _ _).symm
        rw [← h.loads]
        exact loadManifest_congr _ rfl
      have hrecord : recordInstalled site tools a options.name release
          (join (binDir site) options.name)
          ((extractArchive tools a archive (binDir site) w).2.touch
            (join (binDir site) options.name)) =
          saveManifest site tools a.saves (recorded site a options release data)
            ((extractArchive tools a archive (binDir site) w).2.touch
              (join (binDir site) options.name)) := by
        rw [recordInstalled, bind_of_ok hload]
        rfl
      rcases hsave : saveManifest site tools a.saves (recorded site a options release data)
        ((extractArchive tools a archive (binDir site) w).2.touch
          (join (binDir site) options.name)) with ⟨saved, w'⟩
      rw [hsave] at hrecord
      cases saved with
      | ok _ => rw [bind_of_ok hrecord, bind_of_ok hsave]
      | error e => rw [bind_of_error hrecord, bind_of_error hsave]
    · refine absurd ⟨h.permits, ?_⟩ hnot
      have hfound := h.found
      rwa [ownPlace, ← hfiles] at hfound
  · exact absurd ⟨h.yields, h.whole⟩ hnot

/-- One that does not come so far fails with what the archive left in place. -/
theorem placeBinary_stops
    (h : ∀ data, ¬ ComesToSave site tools a options release archive w data) :
    ∃ e w', placeBinary site tools a options release archive w = (.error e, w') ∧
      w'.files = (extractArchive tools a archive (binDir site) w).2.files := by
  have hfiles : ∀ place, (extractArchive tools a archive (binDir site) w).2.files place =
      afterUnpack site tools a archive w place := extractArchive_files
  rcases extractArchive_cases tools a archive (binDir site) w with
    ⟨hextract, hyields, hwhole⟩ | ⟨⟨e, hextract⟩, _⟩
  · rw [placeBinary, bind_of_ok hextract]
    rcases setExecutable_cases (a := a) (w := (extractArchive tools a archive (binDir site) w).2)
      (join (binDir site) options.name) with ⟨hexec, hpermits, hthere⟩ | ⟨⟨e, w', hexec, hsame⟩, _⟩
    · rw [bind_of_ok hexec]
      have hfound : a.isDirectory = true ∨
          (afterUnpack site tools a archive w (ownPlace site options)).isSome = true := by
        rw [ownPlace, ← hfiles]
        exact hthere
      have hcongr : (loadManifest site tools a.secondLoad
          ((extractArchive tools a archive (binDir site) w).2.touch
            (join (binDir site) options.name))).1 =
          (loadManifest site tools a.secondLoad
            (extractArchive tools a archive (binDir site) w).2).1 :=
        loadManifest_congr _ rfl
      have hkept : (extractArchive tools a archive (binDir site) w).2.touch
          (join (binDir site) options.name) =
          (loadManifest site tools a.secondLoad
            ((extractArchive tools a archive (binDir site) w).2.touch
              (join (binDir site) options.name))).2 := keeps_loadManifest (R := Eq) _ _
      rcases hload : loadManifest site tools a.secondLoad
        ((extractArchive tools a archive (binDir site) w).2.touch
          (join (binDir site) options.name)) with ⟨loaded, w'⟩
      rw [hload] at hcongr hkept
      have hsame : w'.files = (extractArchive tools a archive (binDir site) w).2.files :=
        (congrArg World.files hkept).symm
      cases loaded with
      | error e => exact ⟨e, w', bind_of_error (bind_of_error hload), hsame⟩
      | ok data =>
        have hserializes : tools.writeManifest (recorded site a options release data) = none := by
          cases htext : tools.writeManifest (recorded site a options release data) with
          | none => rfl
          | some text =>
            exact absurd ⟨hyields, hwhole, hpermits, hfound, hcongr.symm, by rw [htext]; rfl⟩
              (h data)
        refine ⟨.tomlSerialize (display (manifestPath site)), w', bind_of_error ?_, hsame⟩
        rw [recordInstalled, bind_of_ok hload]
        change saveManifest site tools a.saves (recorded site a options release data) w' = _
        simp only [saveManifest, hserializes]
        rfl
    · exact ⟨e, w', bind_of_error hexec, hsame⟩
  · exact ⟨e, _, bind_of_error hextract, rfl⟩

end

end Emergent.Engine.Marketplace

/-
A project that was started passes the checks of the doctor. While its workspaces are brought up
documents of the project come to be, or are repaired, and nothing else is different; each workspace
keeps its name, and once it has a config that a build can work with it does not lose it, whatever its
artifact makes of its documents afterwards.
-/

import RefSync.Proofs.Doctor.Fixing
import RefSync.Proofs.Watch.Isolation
import RefSync.Proofs.Watch.Sustaining

namespace RefSync

open Routine Path Update

/-- Names that no two workspaces have in common are no duplicates. -/
theorem Doctor.duplicates_eq_nil {found : List String} {report : String → WorkspaceReport}
    (once : found.Nodup) (distinct : ∀ one ∈ found, ∀ other ∈ found, ∀ name,
      (report one).name = some name → (report other).name = some name → one = other) :
    duplicates (found.map report) = [] := by
  unfold duplicates
  dsimp only
  rw [List.filterMap_eq_nil_iff]
  intro name _
  have single : (found.filter fun workspace => nameOf? (report workspace) == some name).length ≤ 1 := by
    have onceStill := once.filter fun workspace => nameOf? (report workspace) == some name
    have named (workspace : String)
        (member : workspace ∈ found.filter fun workspace => nameOf? (report workspace) == some name) :
        workspace ∈ found ∧ (report workspace).name = some name := by
      obtain ⟨inFound, holds⟩ := List.mem_filter.mp member
      exact ⟨inFound, (Option.filter_eq_some_iff.mp (eq_of_beq holds)).1⟩
    generalize found.filter (fun workspace => nameOf? (report workspace) == some name) = holders
      at onceStill named ⊢
    match holders with
    | [] => exact Nat.zero_le 1
    | [_] => exact Nat.le_refl 1
    | one :: other :: rest =>
        obtain ⟨inFound, holds⟩ := named one List.mem_cons_self
        obtain ⟨otherInFound, otherHolds⟩ := named other (List.mem_cons_of_mem _ List.mem_cons_self)
        have same := distinct one inFound other otherInFound name holds otherHolds
        exact absurd (same ▸ List.mem_cons_self) (List.nodup_cons.mp onceStill).1
  rw [List.filter_map, List.length_map, List.length_map]
  exact if_neg (Nat.not_lt.mpr single)

/-- Whether a workspace has a config with what a build needs. -/
def Disk.Fits (disk : Disk) (workspace : String) : Prop :=
  ∃ config, disk.read (Workspace.configPath workspace) = .ok (.obj config)
    ∧ Config.Satisfactory config

namespace Watch

/-- What is left of a project while its workspaces are brought up. -/
structure Tidied (disk : Disk) (found : List String) (state : Engine × Disk) : Prop where
  mends : Doctor.Mends (Doctor.IsDocument disk.project found) disk state.2
  carries workspace name : workspace ∈ found → disk.Carries workspace name →
    state.2.Carries workspace name

/-- Bringing workspaces up leaves their names to them, and their configs. -/
def tidying (disk : Disk) (found : List String) : Conduct Disk where
  allows before after := Tidied disk found before → Tidied disk found after
    ∧ Grows before.1 after.1 ∧ ∀ workspace ∈ found, before.2.Fits workspace → after.2.Fits workspace
  refl state tidied := ⟨tidied, grows_same state.1 rfl rfl, fun _ _ => id⟩
  trans first second tidied := by
    obtain ⟨between, grows, fits⟩ := first tidied
    obtain ⟨after, more, still⟩ := second between
    exact ⟨after, grows.trans more,
      fun workspace member fit => still workspace member (fits workspace member fit)⟩

section

variable {disk : Disk} {found : List String} {state : Engine × Disk} {path : String}

attribute [local irreducible] Disk.write

theorem Tidied.same (tidied : Tidied disk found state) : state.2.project = disk.project :=
  tidied.mends.same

theorem Tidied.changed (tidied : Tidied disk found state) (engine : Engine) :
    Tidied disk found (engine, state.2) :=
  ⟨tidied.mends, tidied.carries⟩

/-- Whether a path is that of a document of the project, beside some file. -/
structure Owns (disk : Disk) (found : List String) (path : String) : Prop where
  beside : ∃ directory name, disk.project.Inside directory path name
    ∧ disk.hasFiles directory = true ∧ (name.endsWith ".ts" || name.endsWith ".tsx") = false
  document : Doctor.IsDocument disk.project found (disk.project.resolved path)

/-- A document of the project may be written. -/
theorem Tidied.mended (tidied : Tidied disk found state) (owns : Owns disk found path)
    (document : Document) :
    Doctor.Mends (Doctor.IsDocument disk.project found) disk (state.2.write path document).2 := by
  obtain ⟨directory, name, inside, filled, plain⟩ := owns.beside
  have filledNow := (tidied.mends.hasFiles directory).trans filled
  refine tidied.mends.trans ((Doctor.mends_write (tidied.same.symm ▸ inside) filledNow plain
    document).weaken ?_)
  rintro place rfl
  rw [tidied.same]
  exact owns.document

theorem fits_elsewhere {now : Disk} {workspace : String} {document : Document} (fits : now.Fits workspace)
    (apart : now.project.resolved (Workspace.configPath workspace) ≠ now.project.resolved path) :
    (now.write path document).2.Fits workspace := by
  obtain ⟨config, reads, satisfactory⟩ := fits
  exact ⟨config, read_elsewhere reads apart, satisfactory⟩

theorem fits_written {now : Disk} {workspace : String} {document : Document} (fits : now.Fits workspace)
    (clean : Document.Clean document) (satisfactory : Config.Satisfactory document) :
    (now.write (Workspace.configPath workspace) document).2.Fits workspace := by
  obtain ⟨config, reads, _⟩ := fits
  have accepts : now.Accepts (Workspace.configPath workspace) fun _ => True :=
    Disk.accepts_of_read reads trivial (Workspace.last_configPath workspace) (by decide)
  exact ⟨document, accepts.read_write clean, satisfactory⟩

theorem Tidied.config_written (tidied : Tidied disk found state) (owns : Owns disk found path)
    (last : (parts path).getLast? = some configFile) (document : Document) :
    Tidied disk found (state.1, (state.2.write path document).2) where
  mends := tidied.mended owns document
  carries workspace name member carries :=
    carries_elsewhere (tidied.carries workspace name member carries) (manifest_apart _ workspace last)

/-- What is left of a project once its workspaces are configured. -/
structure Prepared (disk : Disk) (found : List String) (state : Engine × Disk) : Prop
    extends Tidied disk found state where
  fits workspace : workspace ∈ found → state.2.Fits workspace
  configs workspace : workspace ∈ found →
    Workspace.manifestPath workspace ∈ state.1.registry.manifests →
    (state.1.registry.readinessOf workspace).config = true

theorem endures_tidied : Endures (tidying disk found) (Tidied disk found) :=
  fun _ _ allowed tidied => (allowed tidied).1

theorem endures_prepared : Endures (tidying disk found) (Prepared disk found) := by
  rintro before after allowed prepared
  obtain ⟨tidied, grows, fits⟩ := allowed prepared.toTidied
  refine ⟨tidied, fun workspace member => fits workspace member (prepared.fits workspace member),
    fun workspace member watched => grows.configs workspace (prepared.configs workspace member ?_)⟩
  rwa [← grows.manifests]

theorem permits_tidying {pre : Engine × Disk → Prop} (endures : Endures (tidying disk found) pre) :
    Permits disk.project (fun _ => True) (tidying disk found) (fun _ => True) pre where
  endures := endures
  notes state engine _ same _ generation tidied :=
    ⟨tidied.changed engine, grows_same state.1 same generation, fun _ _ => id⟩
  faults _ _ _ _ := trivial

section

variable {options : SyncOptions} {workspace : String} (filled : disk.hasFiles "." = true)
  (below : ∀ workspace ∈ found, Doctor.IsBelow disk.project workspace)
  (carried : ∀ workspace ∈ found, ∃ name, disk.Carries workspace name)

section

include filled below

theorem permitsRoot_tidying :
    PermitsConfig (fun _ => True) (tidying disk found) (Tidied disk found) configFile := by
  have owns : Owns disk found configFile :=
    ⟨⟨".", configFile, Doctor.inside_configFile _, filled, by decide +kernel⟩, Or.inl rfl⟩
  refine ⟨trivial, fun asks given updated now _ _ _ _ tidied => ?_⟩
  refine ⟨tidied.config_written owns (by decide) updated, .refl now.1, fun workspace member fits => ?_⟩
  obtain ⟨relative, notRoot⟩ := below workspace member
  apply fits_elsewhere fits
  rw [tidied.same]
  exact Workspace.configPath_apart disk.project relative.spelled.stem (relative.apart notRoot)

end

include below carried

theorem filled_workspace (member : workspace ∈ found) : disk.hasFiles workspace = true := by
  obtain ⟨name, manifest, read, _⟩ := carried workspace member
  exact Disk.hasFiles_of_readable (below workspace member).manifest (readable_of_manifestOf read)

theorem owns_config (member : workspace ∈ found) : Owns disk found (Workspace.configPath workspace) :=
  ⟨⟨workspace, configFile, (below workspace member).config, filled_workspace below carried member,
    by decide +kernel⟩, Or.inr ⟨workspace, member, Or.inr rfl⟩⟩

theorem owns_manifest (member : workspace ∈ found) :
    Owns disk found (Workspace.manifestPath workspace) :=
  ⟨⟨workspace, manifestFile, (below workspace member).manifest,
    filled_workspace below carried member, by decide +kernel⟩, Or.inr ⟨workspace, member, Or.inl rfl⟩⟩

/-- A config with what a build needs may be written. -/
theorem Tidied.fitted (tidied : Tidied disk found state) (member : workspace ∈ found)
    {document : Document} (clean : Document.Clean document)
    (satisfactory : Config.Satisfactory document) :
    (tidying disk found).allows state
      (state.1, (state.2.write (Workspace.configPath workspace) document).2) := by
  intro _
  refine ⟨tidied.config_written (owns_config below carried member)
    (Workspace.last_configPath workspace) document, .refl state.1, fun other inFound fits => ?_⟩
  have relative := (below workspace member).relative
  rcases (documents_apart relative (below other inFound).relative).1 with rfl | apart
  · exact fits_written fits clean satisfactory
  · apply fits_elsewhere fits
    rwa [tidied.same]

/-- Every workspace gets a config with what a build needs. -/
theorem abides_bootstrap_tidying (member : workspace ∈ found) :
    Abides Disk.alone (tidying disk found) (fun _ => True) (Tidied disk found)
      (bootstrapConfig workspace) fun _ state => (Tidied disk found state ∧ state.2.Fits workspace)
        ∧ (Workspace.manifestPath workspace ∈ state.1.registry.manifests →
          (state.1.registry.readinessOf workspace).config = true) := by
  have lasting : Endures (tidying disk found) fun state =>
      Tidied disk found state ∧ state.2.Fits workspace := fun _ _ allowed ⟨tidied, fits⟩ =>
    ⟨(allowed tidied).1, (allowed tidied).2.2 workspace member fits⟩
  have configures : Abides Disk.alone (tidying disk found) (fun _ => True) (Tidied disk found)
      (configure workspace false) fun _ state =>
        Tidied disk found state ∧ Tidied disk found state ∧ state.2.Fits workspace := by
    refine abides_configured (permits_tidying endures_tidied) trivial trivial false lasting ?_ ?_
    · intro asks given updated now _ _ made satisfactory tidied
      have allowed := tidied.fitted below carried member made.clean satisfactory
      refine ⟨allowed, fun written => ⟨(allowed tidied).1, updated, ?_, satisfactory⟩⟩
      exact Disk.read_written (Workspace.last_configPath workspace) (by decide) made.clean written
    · exact fun state config tidied reads satisfactory => ⟨tidied, config, reads, satisfactory⟩
  refine (abides_bootstrapped (configures.weaken fun _ _ ended => ended.2) ?_)
  intro state holds _
  have allowed : (tidying disk found).allows state ({ state.1 with
      registry := state.1.registry.addReadiness workspace .onlyConfig }, state.2) := fun tidied =>
    ⟨tidied.changed _, grows_addConfig state.1 workspace, fun _ _ => id⟩
  exact ⟨allowed, lasting _ _ allowed holds⟩

theorem permitsArtifact_tidying (member : workspace ∈ found) :
    PermitsArtifact (fun _ => True) (tidying disk found) (fun _ => True) (Prepared disk found) options
      workspace where
  config := by
    refine ⟨trivial, fun asks given updated now before finds made prepared => ?_⟩
    obtain ⟨config, reads, satisfactory⟩ := before.fits workspace member
    have held : given = some config := by
      cases given with
      | none =>
          obtain ⟨shown, missing⟩ := finds
          rw [missing] at reads
          cases reads
      | some other =>
          rw [show asks.2.read _ = .ok (.obj other) from finds] at reads
          cases reads
          rfl
    exact prepared.toTidied.fitted below carried member made.clean
      (made.satisfactory config held satisfactory)
  manifest _ _ _ missing redundant _ _ _ _ _ := by
    refine ⟨trivial, fun asks manifest updated now before reads update prepared tidied => ?_⟩
    have relative := (below workspace member).relative
    refine ⟨⟨tidied.mended (owns_manifest below carried member) updated,
      fun other name inFound carries => ?_⟩, .refl now.1, fun other inFound fits => ?_⟩
    · have carriesNow := tidied.carries other name inFound carries
      rcases (documents_apart relative (below other inFound).relative).2.1 with rfl | apart
      · exact carries_written (before.carries other name inFound carries) reads
          (Manifest.keepsValid_update update) ((Manifest.adjusted_update (Document.clean_obj.mp
            (Disk.clean_of_read reads)) _ _).2 updated update) carriesNow
      · apply carries_elsewhere carriesNow
        rwa [tidied.same]
    · apply fits_elsewhere fits
      rw [tidied.same]
      exact (documents_apart (below other inFound).relative relative).2.2.symm
  learns state _ _ _ _ _ tidied :=
    ⟨tidied.changed _, ⟨fun _ => rfl, rfl, fun _ => id, fun _ => id, rfl⟩, fun _ _ => id⟩
  marks state _ _ _ _ tidied :=
    ⟨tidied.changed _, ⟨fun _ => rfl, rfl, fun _ => id, fun _ => id, rfl⟩, fun _ _ => id⟩
  pauses state _ _ tidied :=
    ⟨⟨{ tidied.mends with }, tidied.carries⟩, .refl state.1, fun _ _ => id⟩
  endless _ _ _ := trivial

include filled

/-- Bringing up workspaces leaves each with a config that has what a build needs, whatever their
artifacts hold. -/
theorem abides_bringUp_tidying {workspaces : List String} {generation : Nat} :
    Abides Disk.alone (tidying disk found) (fun _ => True)
      (fun state => Tidied disk found state
        ∧ workspaces.filter (state.1.registry.hasReadiness · .onlyManifest) = found)
      (bringUp disk.project options workspaces generation) fun _ => Prepared disk found := by
  have permits : Permits disk.project (fun _ => True) (tidying disk found) (fun _ => True) (Tidied disk found) :=
    permits_tidying endures_tidied
  apply abides_registry
  rintro state ⟨tidied, isFound⟩
  rw [isFound]
  have lasting (workspace : String) : Endures (tidying disk found) fun state =>
      workspace ∈ found → (Tidied disk found state ∧ state.2.Fits workspace)
        ∧ (Workspace.manifestPath workspace ∈ state.1.registry.manifests →
          (state.1.registry.readinessOf workspace).config = true) := by
    intro before after allowed holds member
    obtain ⟨⟨begun, fits⟩, bit⟩ := holds member
    obtain ⟨still, grows, keeps⟩ := allowed begun
    refine ⟨⟨still, keeps workspace member fits⟩, fun watched => grows.configs workspace (bit ?_)⟩
    rwa [← grows.manifests]
  have configures : Abides Disk.alone (tidying disk found) (fun _ => True) (Tidied disk found)
      (forAll found bootstrapConfig) fun _ => Prepared disk found := by
    apply (abides_all endures_tidied lasting fun workspace member =>
      (abides_bootstrap_tidying below carried member).weaken fun _ _ ended _ => ended).weaken
    rintro _ later ⟨tidied, each⟩
    exact ⟨tidied, fun workspace member => (each workspace member member).1.2,
      fun workspace member => (each workspace member member).2⟩
  apply (configures.strengthen fun other (same : other = state) => same ▸ tidied).bind
  intro _
  have root := (abides_configureRoot permits (permitsRoot_tidying filled below)).frame
    endures_prepared
  apply Abides.bind (fun _ => Prepared disk found)
  · exact (root.strengthen fun _ prepared => ⟨prepared.toTidied, prepared⟩).weaken
      fun _ _ ended => ended.2
  intro _
  apply abides_anyEngine
  intro _
  apply abides_whenever
  apply abides_then
  · apply abides_group endures_prepared
    intro workspace member
    have artifact : PermitsArtifact (fun _ => True) (tidying disk found) (fun _ => True)
        (Prepared disk found) options workspace := permitsArtifact_tidying below carried member
    rw [← Workspace.ofArtifact_artifactPath (below workspace member).relative.spelled.stem] at artifact
    refine (abides_watchArtifact (permits_tidying endures_prepared) trivial artifact
      fun state _ _ tidied => ?_).weaken fun _ _ _ => trivial
    exact ⟨tidied.changed _, grows_watchArtifact state.1 _, fun _ _ => id⟩
  · exact fun _ => abides_pure fun _ => id

end

/-- What makes a project one that is set up by starting it: the root manifest matches workspaces, which
are below the root and have names of their own, and where there are configs they are objects, that of
the root with a list of references. -/
structure Startable (disk : Disk) (found : List String) : Prop where
  proper : disk.files.IsProper
  tells : disk.Tells found
  matched : found ≠ []
  below : "." ∉ found
  named workspace : workspace ∈ found → ∃ name, disk.Carries workspace name
  distinct one other name : one ∈ found → other ∈ found → disk.Carries one name →
    disk.Carries other name → one = other
  config workspace : workspace ∈ found →
    ∃ config, disk.Finds? (Workspace.configPath workspace) config
  root : ∃ config, disk.Finds? configFile config
    ∧ ∀ given, config = some given → Config.IsListed given

namespace Startable

variable {options : SyncOptions} (startable : Startable disk found)

include startable

theorem discovered : found.Nodup ∧ ∀ workspace ∈ found, Doctor.IsBelow disk.project workspace := by
  obtain ⟨manifest, _, answer⟩ := startable.tells
  obtain ⟨once, relative⟩ := Disk.discovered answer
  exact ⟨once, fun workspace member =>
    ⟨relative workspace member, fun same => startable.below (same ▸ member)⟩⟩

theorem globs : Doctor.Matches disk found := by
  obtain ⟨manifest, read, answer⟩ := startable.tells
  obtain ⟨document, reads⟩ := object_of_manifestOf read
  have valid := manifest_of_read read reads
  have root : Doctor.rootManifest disk = .ok manifest := by
    rw [Doctor.rootManifest, reads, objectOf]
    change (Manifest.validate (.obj document)).mapError Fault.invalid = _
    rw [valid]
    rfl
  cases listed : manifest.workspaces with
  | some globs =>
      rw [listed] at answer
      exact ⟨manifest, globs, root, listed, answer⟩
  | none =>
      rw [listed] at answer
      cases answer
      exact absurd rfl startable.matched

/-- A start that goes through prepares all workspaces, and they are the ones that are watched. -/
theorem leads_start :
    Leads Disk.alone (start disk.project options) ({}, disk) fun result later => result = .ok () →
      Prepared disk found later ∧ Following disk.project later
        ∧ (∀ path, path ∈ later.1.registry.manifests
          ↔ ∃ workspace ∈ found, path = Workspace.manifestPath workspace)
        ∧ ∀ workspace ∈ found, ∃ name, later.1.registry.findName workspace = some name := by
  obtain ⟨_, below⟩ := startable.discovered
  have apart (workspace : String) (member : workspace ∈ found) :
      disk.project.IsRelative workspace ∧ workspace ≠ "." :=
    ⟨(below workspace member).relative, (below workspace member).notRoot⟩
  apply leads_begin rfl
  · exact fun fault none => absurd startable.tells (none found)
  · exact fun log none => absurd startable.tells (none found)
  · intro given told (addition : Addition disk.project True given 0 ({ active := true }, disk))
    obtain rfl := told.unique startable.tells
    obtain ⟨root, read, _⟩ := startable.tells
    obtain ⟨config, finds, known⟩ := startable.root
    have poised : Poised disk.project ({ active := true }, disk) :=
      ⟨rfl, rfl, nofun, nofun,
        accepts_root (readable_of_manifestOf read) finds known⟩
    have plain (workspace : String) (member : workspace ∈ found) : disk.PlainManifest workspace := by
      obtain ⟨name, manifest, read, _⟩ := startable.named workspace member
      obtain ⟨document, reads⟩ := object_of_manifestOf read
      intro fault failed
      rw [reads] at failed
      cases failed
    apply leads_addWorkspaces addition fun _ => plain
    · intro later come
      have furnished := furnished_of_added come poised addition.relative startable.below
        fun workspace member _ => startable.config workspace member
      have named (workspace : String) (member : workspace ∈ found) :
          ∃ name, later.1.registry.findName workspace = some name := by
        obtain ⟨name, carries⟩ := startable.named workspace member
        exact ⟨name, come.named rfl addition.relative member carries fun other inFound carriesToo =>
          startable.distinct other workspace name inFound member carriesToo carries⟩
      have present : found.filter (later.1.registry.hasReadiness · .onlyManifest) = found := by
        rw [List.filter_eq_self]
        intro workspace member
        obtain ⟨name, holds⟩ := named workspace member
        have sound := come.orderly.sound
        rw [Registry.hasReadiness_manifest]
        exact sound.manifestBit workspace ((sound.nameBit workspace).mpr (by rw [holds]; rfl))
      have tidied : Tidied disk found later := by
        obtain ⟨engine, files⟩ := later
        obtain rfl : files = disk := come.files
        exact ⟨.refl _ _, fun _ _ _ => id⟩
      have brings : Leads Disk.alone (bringUp disk.project options found 0) later _ :=
        ((abides_bringUp_tidying startable.globs.filled below startable.named).leads
          ⟨tidied, present⟩).both (leads_bringUp apart furnished)
      apply brings.weaken
      rintro result final ⟨⟨kept, ends⟩, following⟩ rfl
      obtain ⟨_, grows, _⟩ := kept tidied
      refine ⟨ends, following, fun path => ?_, fun workspace member => ?_⟩
      · rw [grows.manifests, come.manifests]
        exact or_iff_right nofun
      · obtain ⟨name, holds⟩ := named workspace member
        exact ⟨name, (grows.names workspace).trans holds⟩
    · exact fun notFull => absurd trivial notFull

section

variable {after : Engine × Disk} (prepared : Prepared disk found after)

include prepared

/-- Every workspace passes its checks. -/
theorem sound_workspace {workspace : String} (member : workspace ∈ found) :
    ∃ report : Doctor.WorkspaceReport, Doctor.Sound workspace report after.2
      ∧ report.path = workspace ∧ report.hasConfig = true
      ∧ ∃ name, report.name = some name ∧ disk.Carries workspace name := by
  obtain ⟨name, carries⟩ := startable.named workspace member
  obtain ⟨manifest, read, named⟩ := prepared.carries workspace name member carries
  obtain ⟨document, reads⟩ := object_of_manifestOf read
  obtain ⟨config, readsConfig, satisfactory⟩ := prepared.fits workspace member
  have filled : after.2.hasFiles workspace = true := (prepared.mends.hasFiles workspace).trans
    (filled_workspace startable.discovered.2 startable.named member)
  refine ⟨{ path := workspace, name := some name, hasConfig := true, checks := [] },
    ⟨some document, some config, after.2.sources workspace, true, ⟨Doctor.presented_eq_some.mpr reads,
      Doctor.presented_eq_some.mpr readsConfig, rfl, filled⟩,
      .named (manifest_of_read read reads) named ?_⟩, rfl, rfl, name, rfl, carries⟩
  unfold Doctor.IsConfigured
  split
  · rfl
  · exact ⟨rfl, config, rfl, satisfactory⟩

variable (sound : after.1.registry.Sound disk.project)
  (watched : ∀ path, path ∈ after.1.registry.manifests
    ↔ ∃ workspace ∈ found, path = Workspace.manifestPath workspace)
  (named : ∀ workspace ∈ found, ∃ name, after.1.registry.findName workspace = some name)

include sound watched named

/-- What is watched is ready, and it is what the globs match. -/
theorem mem_ready (workspace : String) :
    workspace ∈ after.1.registry.ready after.1.registry.watched ↔ workspace ∈ found := by
  have relative := fun member => (startable.discovered.2 workspace member).relative
  rw [Registry.ready, List.mem_filter, mem_watched sound]
  constructor
  · rintro ⟨⟨isRelative, member⟩, _⟩
    obtain ⟨other, inFound, same⟩ := (watched _).mp member
    have otherRelative := (startable.discovered.2 other inFound).relative
    rwa [Workspace.manifestPath_injective isRelative.spelled.stem otherRelative.spelled.stem same]
  · intro member
    have inManifests := (watched (Workspace.manifestPath workspace)).mpr ⟨workspace, member, rfl⟩
    obtain ⟨name, holds⟩ := named workspace member
    exact ⟨⟨relative member, inManifests⟩,
      ready_of_named sound holds (prepared.configs workspace member inManifests)⟩

/-- The root config references what the doctor expects of it. -/
theorem sound_root (following : Following disk.project after) : Doctor.RootSound found after.2 := by
  obtain ⟨once, below⟩ := startable.discovered
  have relative : ∀ workspace ∈ found, disk.project.IsRelative workspace :=
    fun workspace member => (below workspace member).relative
  obtain ⟨config, reads, aggregates⟩ := following.follows
  have exactly : Config.Aggregates config (· ∈ sortTexts found) := by
    apply aggregates.congr
    intro path
    rw [mem_sortTexts]
    constructor
    · rintro ⟨workspace, member, reference⟩
      have inFound := (startable.mem_ready prepared sound watched named workspace).mp member
      rw [(relative workspace inFound).referencePath?_root] at reference
      rwa [← Option.some.inj reference]
    · intro member
      exact ⟨path, (startable.mem_ready prepared sound watched named path).mpr member,
        (relative path member).referencePath?_root⟩
  refine ⟨config, _, Doctor.presented_eq_some.mpr reads, ?_,
    exactly.satisfies (sortTexts_nodup.mpr once)⟩
  rw [prepared.mends.same]
  exact rootReferences_relative relative

theorem healthy (following : Following disk.project after) :
    ∃ reports, Doctor.Healthy after.2 found reports := by
  obtain ⟨once, below⟩ := startable.discovered
  have some : Nonempty Doctor.WorkspaceReport := ⟨{ path := "" }⟩
  have each (workspace : String) (member : workspace ∈ found) :=
    startable.sound_workspace prepared member
  choose! report passes path hasConfig name isNamed carries using each
  refine ⟨found.map report, startable.globs.gains below startable.proper prepared.mends.same prepared.mends.gains,
    startable.matched, ?_, ?_, ?_⟩
  · exact List.forall₂_map_right_iff.mpr (List.forall₂_same.mpr passes)
  · apply Doctor.duplicates_eq_nil once
    intro one member other otherMember shared holds otherHolds
    rw [isNamed one member] at holds
    rw [isNamed other otherMember] at otherHolds
    have carriesOne := carries one member
    rw [Option.some.inj (holds.trans otherHolds.symm)] at carriesOne
    exact startable.distinct one other _ member otherMember carriesOne (carries other otherMember)
  · have all : Doctor.referenced (found.map report) = found := by
      have kept : found.filter ((fun given : Doctor.WorkspaceReport =>
          given.name.isSome && given.hasConfig) ∘ report) = found := by
        rw [List.filter_eq_self]
        intro workspace member
        rw [Function.comp_apply, isNamed workspace member, hasConfig workspace member]
        rfl
      rw [Doctor.referenced, List.filter_map, List.map_map, kept]
      exact (List.map_congr_left path).trans (List.map_id _)
    rw [all]
    exact startable.sound_root prepared sound watched named following

end

end Startable

/-- Once a start has gone through, a run of the doctor that fixes nothing passes every check, whatever
the artifacts of the workspaces hold. -/
theorem started_project_passes {disk : Disk} {found : List String} (startable : Startable disk found)
    (options : SyncOptions) {after : Engine × Disk}
    (finishes : Finishes Disk.alone (start disk.project options) ({}, disk) (.ok ()) after)
    (engine : Engine) (delete : Bool) :
    (∃ result final, Finishes Disk.alone (Doctor.run disk.project { fix := false, delete })
        (engine, after.2) result final)
      ∧ ∀ result final, Finishes Disk.alone (Doctor.run disk.project { fix := false, delete })
          (engine, after.2) result final →
        ∃ checked, result = .ok checked ∧ checked.Passes := by
  have leaves : LeavesOrderly disk.project False (start disk.project options) ({}, disk)
      fun _ _ => True := orderly_start rfl nofun
  have sound := (leaves.finishes finishes).1.sound
  obtain ⟨prepared, following, watched, named⟩ := startable.leads_start.finishes finishes rfl
  obtain ⟨reports, healthy⟩ := startable.healthy prepared sound watched named following
  have later : Doctor.Healthy (engine, after.2).2 found reports := healthy
  have same : (engine, after.2).2.project = disk.project := prepared.mends.same
  exact ⟨⟨_, _, run_finishes _ _ _⟩, fun result final ends =>
    (Doctor.leads_check same later delete).finishes ends⟩

/-- Two workspaces are set up by a start: the one refers to the other, whose artifact is torn. -/
theorem torn_artifact_does_not_spoil_start :
    ∃ disk : Disk, disk.project = ⟨"/p"⟩ ∧ Startable disk ["a", "b"]
      ∧ (disk.read (Workspace.artifactPath "b")).isOk = false
      ∧ ∃ after, Finishes Disk.alone (start ⟨"/p"⟩ { artifactAttempts := 1 }) ({}, disk) (.ok ()) after
        ∧ (∃ result final, Finishes Disk.alone (Doctor.run ⟨"/p"⟩ { fix := false, delete := false })
            ({}, after.2) result final)
        ∧ ∀ result final, Finishes Disk.alone (Doctor.run ⟨"/p"⟩ { fix := false, delete := false })
            ({}, after.2) result final →
          ∃ checked, result = .ok checked ∧ checked.Passes := by
  let own : List (Place × Entry) :=
    [(["p", "a"], .directory), (["p", "a", "package.json"], .file (.text "\x7b\"name\":\"a\"\x7d".toList)),
      (["p", "b", "b.tsx"], .file (.text [])), (["p", "b", ".ts"], .directory),
      (["p", "b", ".ts", "tsconfig.tsbuildinfo"], .file (.text "torn".toList))]
  let root := "\x7b\"workspaces\":[\"a\",\"b\"]\x7d"
  let disk : Disk :=
    { project := ⟨"/p"⟩, files := pairFiles root (own ++ compiledFiles ["p", "a"] "../../b/b.tsx") }
  obtain ⟨proper, globs, namedA, namedB, configA, missing, top, torn⟩ : disk.files.IsProper
        ∧ ((manifestOf (disk.read manifestFile)).toOption.any fun manifest =>
          (disk.discover (manifest.workspaces.getD [])).toOption.any (· == ["a", "b"])) = true
        ∧ ((manifestOf (disk.read (Workspace.manifestPath "a"))).toOption.any
          (·.name == some "a")) = true
        ∧ ((manifestOf (disk.read (Workspace.manifestPath "b"))).toOption.any
          (·.name == some "b")) = true
        ∧ ((disk.read (Workspace.configPath "a")).toOption.any fun value => value.members?.any List.isEmpty) = true
        ∧ disk.readText (Workspace.configPath "b") = .error (.missing "/p/b/tsconfig.json")
        ∧ disk.readText configFile = .error (.missing "/p/tsconfig.json")
        ∧ (disk.read (Workspace.artifactPath "b")).isOk = false := by
    decide +kernel
  obtain ⟨manifest, read, answers⟩ := ok_of_any globs
  obtain ⟨found, answer, same⟩ := ok_of_any answers
  obtain ⟨a, readA, nameA⟩ := ok_of_any namedA
  obtain ⟨b, readB, nameB⟩ := ok_of_any namedB
  obtain ⟨config, readConfig, isConfig⟩ := ok_of_any configA
  rw [beq_iff_eq] at same nameA nameB
  have carries (workspace name : String) (member : workspace ∈ ["a", "b"])
      (carried : disk.Carries workspace name) : name = workspace := by
    obtain ⟨other, readOther, nameOther⟩ := carried
    rcases List.mem_pair.mp member with rfl | rfl
    · cases readA.symm.trans readOther
      exact Option.some.inj (nameOther.symm.trans nameA)
    · cases readB.symm.trans readOther
      exact Option.some.inj (nameOther.symm.trans nameB)
  have startable : Startable disk ["a", "b"] := by
    refine ⟨proper, ⟨manifest, read, same ▸ answer⟩, by decide, by decide, fun workspace member => ?_,
      fun one other name member otherMember carriesOne carriesOther => ?_, fun workspace member => ?_,
      ⟨none, Disk.missing_of_unread top, fun _ impossible => by cases impossible⟩⟩
    · rcases List.mem_pair.mp member with rfl | rfl
      · exact ⟨"a", a, readA, nameA⟩
      · exact ⟨"b", b, readB, nameB⟩
    · exact (carries one name member carriesOne).symm.trans (carries other name otherMember carriesOther)
    · rcases List.mem_pair.mp member with rfl | rfl
      · cases config with
        | obj options => exact ⟨some options, readConfig⟩
        | _ => cases isConfig
      · exact ⟨none, Disk.missing_of_unread missing⟩
  obtain ⟨engine, world, starts, _⟩ := finishes_of_run Disk.alone (start ⟨"/p"⟩ { artifactAttempts := 1 }) ({}, disk) ()
    (fun _ => True) (by decide +kernel)
  exact ⟨disk, rfl, startable, torn, (engine, world), starts,
    started_project_passes startable { artifactAttempts := 1 } starts {} false⟩

end

end Watch
end RefSync

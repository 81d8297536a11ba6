/-
What becomes of the names that manifests give. Handlers write to the manifests of workspaces that
have names, and what they write goes on to give these; no other write brings a manifest to light.
So an event is a matter of the workspaces whose manifests it has the engine look at.
-/

import RefSync.Proofs.Disk.Reaching
import RefSync.Proofs.Manifest.Validity
import RefSync.Proofs.Watch.Exchanging
import RefSync.Proofs.Watch.Naming
import RefSync.Proofs.Watch.Permitted
import RefSync.Proofs.Watch.Settling

namespace RefSync

open Routine Path Update

namespace Watch

attribute [local irreducible] Disk.write

variable {path : String}

/-! ### Manifests that go on to give names -/

/-- What is in another place is still there once a document was written. -/
theorem read_elsewhere {now : Disk} {other : String} {document : Document} {value : Json}
    (reads : now.read other = .ok value) (apart : now.project.resolved other ≠ now.project.resolved path) :
    (now.write path document).2.read other = .ok value := by
  refine Disk.read_keeps ?_ (Disk.keeps_write now path document) reads apart
  rw [(Disk.puts_write now path document).2]

theorem manifest_of_read {given : Except ReadFault Json} {manifest : Manifest} {value : Json}
    (read : manifestOf given = .ok manifest) (same : given = .ok value) :
    Manifest.validate value = .ok manifest := by
  rw [same, manifestOf] at read
  split at read
  · rename_i valid validates
    cases read
    exact validates
  · cases read

/-- A manifest in another place goes on to give its workspace a name. -/
theorem carries_elsewhere {now : Disk} {workspace name : String} {document : Document}
    (carries : now.Carries workspace name)
    (apart : now.project.resolved (Workspace.manifestPath workspace) ≠ now.project.resolved path) :
    (now.write path document).2.Carries workspace name := by
  obtain ⟨manifest, read, named⟩ := carries
  obtain ⟨held, reads⟩ := object_of_manifestOf read
  refine ⟨manifest, ?_, named⟩
  rw [read_elsewhere reads apart, ← reads]
  exact read

/-- A change that leaves a manifest valid leaves its workspace the name. -/
theorem carries_written {asks now : Disk} {workspace name : String} {manifest updated : Document}
    (carriedThen : asks.Carries workspace name)
    (reads : asks.read (Workspace.manifestPath workspace) = .ok (.obj manifest))
    (keeps : Manifest.KeepsValid manifest updated) (clean : Document.Clean updated)
    (carries : now.Carries workspace name) :
    (now.write (Workspace.manifestPath workspace) updated).2.Carries workspace name := by
  obtain ⟨valid, readThen, named⟩ := carriedThen
  have validThen := manifest_of_read readThen reads
  obtain ⟨later, validLater, same⟩ := keeps.validate validThen
  obtain ⟨_, readNow, _⟩ := carries
  obtain ⟨held, holds⟩ := object_of_manifestOf readNow
  have accepts : now.Accepts (Workspace.manifestPath workspace) fun _ => True :=
    Disk.accepts_of_read holds trivial (Workspace.last_manifestPath workspace) (by decide)
  refine ⟨later, ?_, same.trans named⟩
  rw [accepts.read_write clean, manifestOf, validLater]

/-- Configs have other names than manifests. -/
theorem manifest_apart (project : Project) (workspace : String)
    (last : (parts path).getLast? = some configFile) :
    project.resolved (Workspace.manifestPath workspace) ≠ project.resolved path := by
  intro same
  have manifest := project.last_resolved (Workspace.last_manifestPath workspace) (by decide)
  rw [same, project.last_resolved last (by decide)] at manifest
  exact absurd manifest (by decide)

/-- Two workspaces have two manifests. -/
theorem manifests_apart {project : Project} {workspace other : String}
    (relative : project.IsRelative workspace) (otherRelative : project.IsRelative other)
    (differs : other ≠ workspace) : project.resolved (Workspace.manifestPath workspace)
      ≠ project.resolved (Workspace.manifestPath other) := by
  intro same
  rw [Workspace.resolved_manifestPath _ relative.spelled.stem,
    Workspace.resolved_manifestPath _ otherRelative.spelled.stem] at same
  exact differs (otherRelative.injective relative (List.append_inj_left' same rfl).symm)

end Watch

namespace Disk

variable {disk origin before between after : Disk} {touched more : String → Prop}
  {workspace name path : String}

/-- A manifest gives one name. -/
theorem Carries.unique {other : String} (carries : disk.Carries workspace name)
    (again : disk.Carries workspace other) : other = name := by
  obtain ⟨manifest, read, named⟩ := carries
  obtain ⟨_, readAgain, namedAgain⟩ := again
  cases read.symm.trans readAgain
  exact Option.some.inj (namedAgain.symm.trans named)

/-- A manifest that gives a name once something was put elsewhere gave it before. -/
theorem Grounded.carries_back (grounded : disk.Grounded) (relative : disk.project.IsRelative workspace)
    {document : Document} (apart : disk.project.resolved (Workspace.manifestPath workspace)
      ≠ disk.project.resolved path)
    (carries : (disk.write path document).2.Carries workspace name) : disk.Carries workspace name := by
  obtain ⟨puts, spelled⟩ := puts_write disk path document
  obtain ⟨manifest, read, named⟩ := carries
  obtain ⟨held, reads⟩ := Watch.object_of_manifestOf read
  have same : (disk.write path document).2.project = disk.project := by rw [spelled]
  refine ⟨manifest, ?_, named⟩
  rw [grounded.read_back relative same puts apart reads, ← reads]
  exact read

/-- Whether manifests go on to give the names that they gave, and give no others but to some
workspaces. -/
structure Sustains (touched : String → Prop) (before after : Disk) : Prop where
  same : after.project = before.project
  grounded : before.Grounded → after.Grounded
  keeps workspace name : before.project.IsRelative workspace → before.Carries workspace name →
    after.Carries workspace name
  gains workspace name : before.project.IsRelative workspace → before.Grounded → ¬touched workspace →
    after.Carries workspace name → before.Carries workspace name

namespace Sustains

theorem refl (touched : String → Prop) (disk : Disk) : Sustains touched disk disk :=
  ⟨rfl, id, fun _ _ _ => id, fun _ _ _ _ _ => id⟩

theorem trans (first : Sustains touched before between) (second : Sustains touched between after) :
    Sustains touched before after where
  same := second.same.trans first.same
  grounded := second.grounded ∘ first.grounded
  keeps workspace name relative carries :=
    second.keeps workspace name (first.same ▸ relative) (first.keeps workspace name relative carries)
  gains workspace name relative grounded others carries :=
    first.gains workspace name relative grounded others
      (second.gains workspace name (first.same ▸ relative) (first.grounded grounded) others carries)

theorem weaken (sustains : Sustains touched before after)
    (wider : ∀ workspace, touched workspace → more workspace) : Sustains more before after :=
  { sustains with
    gains := fun workspace name relative grounded others =>
      sustains.gains workspace name relative grounded fun does => others (wider workspace does) }

/-- Nothing is known of what was asked, or of how long was waited. -/
theorem pauses (sustains : Sustains touched before after) (pauses : List Duration) :
    Sustains touched before { after with pauses := pauses } :=
  sustains.trans ⟨rfl, fun grounded => ⟨grounded.files, grounded.rooted⟩, fun _ _ _ => id,
    fun _ _ _ _ _ => id⟩

end Sustains

theorem sustains_config (last : (parts path).getLast? = some configFile) (document : Document) :
    Sustains touched disk (disk.write path document).2 where
  same := by rw [(puts_write disk path document).2]
  grounded grounded := grounded.write path document
  keeps workspace _ _ carries :=
    Watch.carries_elsewhere carries (Watch.manifest_apart _ workspace last)
  gains workspace _ relative grounded _ carries :=
    grounded.carries_back relative (Watch.manifest_apart _ workspace last) carries

/-- A manifest that was read some time ago may be written when it is among the touched ones. -/
theorem Sustains.manifest {asks now : Disk} {manifest updated : Document}
    (sustains : Sustains touched origin now) (sustainsAsks : Sustains touched origin asks)
    (relative : origin.project.IsRelative workspace) (touches : touched workspace)
    (reads : asks.read (Workspace.manifestPath workspace) = .ok (.obj manifest))
    (keeps : Manifest.KeepsValid manifest updated) (clean : Document.Clean updated) :
    Sustains touched origin (now.write (Workspace.manifestPath workspace) updated).2 where
  same := by
    rw [(puts_write now _ updated).2]
    exact sustains.same
  grounded grounded := (sustains.grounded grounded).write _ updated
  keeps other name otherRelative carries := by
    have carriesNow := sustains.keeps other name otherRelative carries
    by_cases own : other = workspace
    · subst own
      exact Watch.carries_written (sustainsAsks.keeps other name otherRelative carries) reads keeps clean
        carriesNow
    · refine Watch.carries_elsewhere carriesNow ?_
      rw [sustains.same]
      exact Watch.manifests_apart otherRelative relative (Ne.symm own)
  gains other name otherRelative grounded others carries := by
    refine sustains.gains other name otherRelative grounded others ?_
    refine (sustains.grounded grounded).carries_back (sustains.same ▸ otherRelative) ?_ carries
    rw [sustains.same]
    refine Watch.manifests_apart otherRelative relative ?_
    rintro rfl
    exact others touches

end Disk

namespace Watch

attribute [local irreducible] Disk.write dispatch

variable {project : Project} {options : SyncOptions} {origin now between later : Engine × Disk}
  {workspace path : String} {told : String → Prop}

/-! ### Handlers that leave names alone -/

/-- Whether names and watched manifests are as they were, and of the manifests at most those of
workspaces with names were written. -/
structure Upholds (origin state : Engine × Disk) : Prop where
  names : state.1.registry.names = origin.1.registry.names
  paths : state.1.registry.paths = origin.1.registry.paths
  manifests : state.1.registry.manifests = origin.1.registry.manifests
  disk : Disk.Sustains (fun workspace => (origin.1.registry.findName workspace).isSome) origin.2 state.2

theorem Upholds.refl (state : Engine × Disk) : Upholds state state :=
  ⟨rfl, rfl, rfl, .refl _ _⟩

theorem Upholds.findName (upholds : Upholds origin now) (workspace : String) :
    now.1.registry.findName workspace = origin.1.registry.findName workspace := by
  rw [Registry.findName, upholds.names]
  rfl

theorem permits_upholds :
    Permits project (fun _ => True) (.preserving (Upholds origin)) (fun _ => True) (Upholds origin) where
  endures _ _ kept := kept
  notes _ _ _ registry _ _ upholds :=
    ⟨registry ▸ upholds.names, registry ▸ upholds.paths, registry ▸ upholds.manifests, upholds.disk⟩
  faults _ _ _ _ := trivial

theorem permitsRegistries_upholds : PermitsRegistries (.preserving (Upholds origin)) (Upholds origin) :=
  fun _ _ _ names paths manifests upholds => ⟨names.trans upholds.names, paths.trans upholds.paths,
    manifests.trans upholds.manifests, upholds.disk⟩

theorem permitsConfig_upholds (last : (parts path).getLast? = some configFile) :
    PermitsConfig (fun _ => True) (.preserving (Upholds origin)) (Upholds origin) path :=
  ⟨trivial, fun _ _ updated _ _ _ _ _ upholds =>
    { upholds with disk := upholds.disk.trans (Disk.sustains_config last updated) }⟩

section

variable (relative : origin.2.project.IsRelative workspace)

include relative

theorem permitsManifest_upholds (named : (origin.1.registry.findName workspace).isSome)
    {change : Document → Option Document}
    (keeps : ∀ manifest updated, change manifest = some updated → Manifest.KeepsValid manifest updated)
    (clean : ∀ manifest updated, Document.Clean manifest → change manifest = some updated →
      Document.Clean updated) :
    PermitsManifest (fun _ => True) (.preserving (Upholds origin)) (Upholds origin)
      (Workspace.manifestPath workspace) change := by
  refine ⟨trivial, fun asks manifest updated now asked reads update _ upholds => ?_⟩
  have cleanManifest := Document.clean_obj.mp (Disk.clean_of_read reads)
  exact { upholds with
    disk := upholds.disk.manifest asked.disk relative named reads (keeps _ _ update)
      (clean _ _ cleanManifest update) }

theorem permitsArtifact_upholds : PermitsArtifact (fun _ => True) (.preserving (Upholds origin))
    (fun _ => True) (Upholds origin) options workspace where
  config := permitsConfig_upholds (Workspace.last_configPath workspace)
  manifest state name _ missing redundant upholds named _ _ _ := by
    refine permitsManifest_upholds relative ?_ (fun _ _ => Manifest.keepsValid_update)
      fun manifest updated clean => (Manifest.adjusted_update clean missing redundant).2 updated
    rw [← upholds.findName, named]
    rfl
  learns _ _ _ _ _ _ upholds := { upholds with }
  marks _ _ _ _ _ upholds := { upholds with }
  pauses _ _ _ upholds := { upholds with disk := upholds.disk.pauses _ }
  endless _ _ _ := trivial

end

theorem leads_upholds {α : Type} {routine : Routine α}
    (abides : Abides Disk.alone (.preserving (Upholds now)) (fun _ => True) (Upholds now) routine
      fun _ => Upholds now) :
    Leads Disk.alone routine now fun _ later => Upholds now later :=
  (abides.leads (Upholds.refl now)).weaken fun _ _ ended => ended.1 (Upholds.refl now)

theorem leads_upholds_root :
    Leads Disk.alone (configureRoot project) now fun _ later => Upholds now later :=
  leads_upholds (abides_configureRoot permits_upholds (permitsConfig_upholds (by decide)))

/-- A rename is carried to workspaces with names. -/
theorem leads_upholds_name (same : now.2.project = project) (sound : now.1.registry.Sound project)
    (old new : String) :
    Leads Disk.alone (Update.name project old new) now fun _ later => Upholds now later := by
  have relative {name workspace : String} (found : now.1.registry.findPath name = some workspace) :
      (now.1.registry.findName workspace).isSome ∧ now.2.project.IsRelative workspace := by
    have named := (sound.inverse workspace name).mpr found
    rw [named, same]
    exact ⟨rfl, sound.relative (sound.watches_of_named named)⟩
  refine ((abides_name permits_upholds
    (fun _ workspace _ => permitsConfig_upholds (Workspace.last_configPath workspace))
    fun name workspace found => permitsManifest_upholds (relative found).2 (relative found).1
      (fun _ _ => Manifest.keepsValid_rename) ?_).leads ⟨Upholds.refl now, rfl⟩).weaken
        fun _ _ ended => ended.1 (Upholds.refl now)
  intro manifest updated clean update
  unfold Manifest.renameDependency? at update
  split at update
  · cases update
    exact Manifest.clean_mapTables clean fun table cleanTable => Manifest.clean_renameIn cleanTable
  · cases update

/-! ### Events -/

/-- What an event leaves of the names of workspaces whose manifest the engine has not looked at, and of
all manifests. -/
structure Retains (told : String → Prop) (before after : Engine × Disk) : Prop where
  names workspace : Workspace.manifestPath workspace ∈ after.1.registry.manifests → ¬told workspace →
    after.1.registry.findName workspace = before.1.registry.findName workspace
  disk : Disk.Sustains (fun workspace => told workspace ∨ (before.1.registry.findName workspace).isSome)
    before.2 after.2

theorem Retains.refl (told : String → Prop) (state : Engine × Disk) : Retains told state state :=
  ⟨fun _ _ _ => rfl, .refl _ _⟩

/-- What goes on once names are as an event leaves them. -/
theorem Retains.upheld (retains : Retains told now between) (upholds : Upholds between later)
    (named : ∀ workspace, (between.1.registry.findName workspace).isSome →
      told workspace ∨ (now.1.registry.findName workspace).isSome) : Retains told now later where
  names workspace watched others := by
    rw [upholds.findName]
    exact retains.names workspace (upholds.manifests ▸ watched) others
  disk := retains.disk.trans (upholds.disk.weaken named)

theorem Upholds.retains (upholds : Upholds now later) : Retains told now later :=
  (Retains.refl told now).upheld upholds fun _ => Or.inr

/-- What an engine knows of a workspace once it has looked at its manifest: the name is the one that
the manifest gives, unless another workspace has that. -/
structure Informed (workspace : String) (state : Engine × Disk) : Prop where
  carried name : state.1.registry.findName workspace = some name → state.2.Carries workspace name
  heard : Heard workspace state

/-- An engine stays informed while names stay. -/
theorem Informed.upheld (informed : Informed workspace now) (upholds : Upholds now later)
    (relative : now.2.project.IsRelative workspace) (grounded : now.2.Grounded) :
    Informed workspace later where
  carried name named := by
    rw [upholds.findName] at named
    exact upholds.disk.keeps workspace name relative (informed.carried name named)
  heard name carries := by
    cases named : now.1.registry.findName workspace with
    | some own =>
        have still := upholds.disk.keeps workspace own relative (informed.carried own named)
        rw [← still.unique carries] at named
        exact ⟨workspace, (upholds.findName workspace).trans named⟩
    | none =>
        have before := upholds.disk.gains workspace name relative grounded (by rw [named]; exact Bool.false_ne_true)
          carries
        obtain ⟨holder, held⟩ := informed.heard name before
        exact ⟨holder, (upholds.findName holder).trans held⟩

end Watch

end RefSync

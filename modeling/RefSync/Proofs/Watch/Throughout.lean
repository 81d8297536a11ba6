/-
Every handler among others that rely on something about the files. Whatever a handler does to
the engine, it writes updates of documents only; so what these uphold is upheld throughout.
-/

import RefSync.Proofs.Watch.Permitted
import RefSync.Proofs.Watch.Settling

namespace RefSync

open Routine Path Update

namespace Watch

/-- Whether everything is permitted that any handler may do. -/
structure PermitsAll (project : Project) (conduct : Conduct Disk) (bearable : Fault → Prop)
    (pre : Engine × Disk → Prop) (options : SyncOptions) : Prop where
  permits : Permits project (fun _ => True) conduct bearable pre
  documents fault : fault.isDocumentFault = true → bearable fault
  fatal fault : fault.isFatal = true → bearable fault
  engines state (engine : Engine) : pre state → conduct.allows state (engine, state.2)
  pauses state (pauses : List Duration) : pre state →
    conduct.allows state (state.1, { state.2 with pauses := pauses })
  endless failures : failures + 1 < options.artifactAttempts.toNat →
    options.artifactDelay.grown? failures = none → bearable .endlessPause
  rootConfig : PermitsConfig (fun _ => True) conduct pre configFile
  config workspace : PermitsConfig (fun _ => True) conduct pre (Workspace.configPath workspace)
  updates workspace missing redundant : PermitsManifest (fun _ => True) conduct pre
    (Workspace.manifestPath workspace) (Manifest.updateDependencies? · missing redundant)
  renames workspace old new : PermitsManifest (fun _ => True) conduct pre (Workspace.manifestPath workspace)
    (Manifest.renameDependency? · old new)

section

variable {conduct : Conduct Disk} {bearable : Fault → Prop} {pre : Engine × Disk → Prop}
  {project : Project} {options : SyncOptions}
  (all : PermitsAll project conduct bearable pre options)

include all

theorem PermitsAll.artifact (workspace : String) :
    PermitsArtifact (fun _ => True) conduct bearable pre options workspace where
  config := all.config workspace
  manifest _ _ _ missing redundant _ _ _ _ _ := all.updates workspace missing redundant
  learns state _ _ holds _ _ := all.engines state _ holds
  marks state _ _ holds _ := all.engines state _ holds
  pauses := all.pauses
  endless := all.endless

theorem PermitsAll.registries : PermitsRegistries conduct pre :=
  fun state _ holds _ _ _ => all.engines state _ holds

theorem abides_change (change : Engine → Engine) :
    Abides Disk.alone conduct bearable pre (modify change) fun _ => pre := by
  apply abides_modify
  intro state holds
  have allowed := all.engines state (change state.1) holds
  exact ⟨allowed, all.permits.endures _ _ allowed holds⟩

theorem abides_changeRegistry (change : Registry → Registry) :
    Abides Disk.alone conduct bearable pre (modifyRegistry change) fun _ => pre :=
  abides_change all _

theorem abides_each {α β : Type} {items : List α} {routine : α → Routine β}
    (each : ∀ item, Abides Disk.alone conduct bearable pre (routine item) fun _ => pre) :
    Abides Disk.alone conduct bearable pre (forAll items routine) fun _ => pre :=
  abides_group all.permits.endures fun item _ => (each item).weaken fun _ _ _ => trivial

/-! ### Manifests -/

theorem abides_readManifest (path : String) :
    Abides Disk.alone conduct bearable pre (readManifest path) fun outcome state =>
      pre state ∧ ∀ fault, outcome = .error fault → fault.isDocumentFault = true := by
  apply (abides_look all.permits.endures (.read path) fun _ => rfl).follow
  intro given _
  exact abides_pure fun _ holds => ⟨holds, fun _ failed => documentFault_of_manifestOf failed⟩

theorem abides_rename (old new : String) :
    Abides Disk.alone conduct bearable pre (Update.name project old new) fun _ => pre :=
  fun origin start now far kept holds =>
    abides_name all.permits (fun _ workspace _ => all.config workspace)
      (fun _ workspace _ => all.renames workspace old new) origin start now far kept ⟨holds, rfl⟩

private theorem abides_withoutName (workspace message : String) (lost : Readiness) :
    Abides Disk.alone conduct bearable pre
      (do
        log .warning message
        modifyRegistry (unregister · workspace lost)
        return (none : Option Manifest)) fun _ => pre := by
  apply abides_then (abides_log all.permits _ _)
  intro _
  apply abides_then (abides_changeRegistry all _)
  exact fun _ => abides_pure fun _ => id

theorem abides_assignName (registry : Registry) (workspace name : String) :
    Abides Disk.alone conduct bearable pre (assignName registry workspace name) fun _ => pre := by
  unfold assignName
  split
  · exact abides_pure fun _ => id
  · apply abides_then (abides_changeRegistry all _)
    exact fun _ => abides_pure fun _ => id

theorem abides_changeName (registry : Registry) (workspace previous name : String) :
    Abides Disk.alone conduct bearable pre (changeName project registry workspace previous name)
      fun _ => pre := by
  apply abides_then (abides_log all.permits _ _)
  intro _
  split
  · exact abides_pure fun _ => id
  · apply abides_then (abides_changeRegistry all _)
    intro _
    apply abides_then (abides_rename all previous name)
    exact fun _ => abides_pure fun _ => id

theorem abides_registerName (workspace name : String) :
    Abides Disk.alone conduct bearable pre (registerName project workspace name) fun _ => pre := by
  apply abides_anyRegistry
  intro registry
  split
  · exact abides_assignName all registry workspace name
  · split
    · exact abides_assignName all registry workspace name
    · exact abides_changeName all registry workspace _ name

theorem abides_confirmName (workspace name : String) (manifest : Manifest) :
    Abides Disk.alone conduct bearable pre (confirmName workspace name manifest) fun _ => pre := by
  apply abides_anyRegistry
  intro registry
  split
  · apply abides_then (abides_changeRegistry all _)
    exact fun _ => abides_pure fun _ => id
  · exact abides_pure fun _ => id

theorem abides_registerManifest (workspace : String) (manifest : Manifest) :
    Abides Disk.alone conduct bearable pre (registerManifest project workspace manifest)
      fun _ => pre := by
  apply abides_anyRegistry
  intro registry
  split
  · apply abides_then (abides_changeRegistry all _)
    intro _
    split
    · exact abides_withoutName all workspace _ _
    · apply abides_then (abides_registerName all workspace _)
      intro outcome
      split
      · exact abides_confirmName all workspace _ manifest
      · exact abides_withoutName all workspace _ _
      · exact abides_throw (all.fatal _ rfl)
  · exact abides_pure fun _ => id

theorem abides_loadManifest (workspace : String) :
    Abides Disk.alone conduct bearable pre (loadManifest project workspace) fun _ => pre := by
  apply (abides_readManifest all _).follow
  intro outcome documents
  split
  · exact abides_registerManifest all workspace _
  · exact abides_withoutName all workspace _ _
  · split
    · exact abides_throw (all.documents _ (documents _ rfl))
    · exact abides_withoutName all workspace _ _

theorem abides_registerDependencies (manifest : Manifest) :
    Abides Disk.alone conduct bearable pre (registerDependencies manifest) fun _ => pre := by
  unfold registerDependencies
  split
  · exact abides_changeRegistry all _
  · exact abides_pure fun _ => id

/-! ### Workspaces -/

theorem abides_rootConfig : Abides Disk.alone conduct bearable pre (configureRoot project) fun _ => pre :=
  abides_configureRoot all.permits all.rootConfig

theorem abides_manifestWritten (path : String) :
    Abides Disk.alone conduct bearable pre (manifestWritten project options path)
      fun _ => pre := by
  apply abides_anyRegistry
  intro registry
  apply abides_then (abides_loadManifest all _)
  intro loaded
  split
  · exact abides_whenever (abides_rootConfig all)
  · exact abides_manifestLoaded all.permits all.registries trivial trivial all.rootConfig (all.config _)
      (all.artifact _)

theorem abides_manifestDeleted (path : String) :
    Abides Disk.alone conduct bearable pre (manifestDeleted project path) fun _ => pre := by
  apply abides_then (abides_log all.permits _ _)
  intro _
  apply abides_then (abides_changeRegistry all _)
  exact fun _ => abides_rootConfig all

/-! ### The root -/

theorem abides_addWorkspaces (workspaces : List String) (generation : Nat) :
    Abides Disk.alone conduct bearable pre (addWorkspaces project options workspaces generation)
      fun _ => pre := by
  apply abides_then (abides_changeRegistry all _)
  intro _
  apply abides_then (abides_each all fun workspace => abides_loadManifest all workspace)
  intro loaded
  apply abides_anyEngine
  intro _
  apply abides_whenever
  have registers (manifests : List Manifest) : Abides Disk.alone conduct bearable pre
      (manifests.forM registerDependencies) fun _ => pre := by
    induction manifests with
    | nil => exact abides_pure fun _ => id
    | cons manifest rest ih =>
        exact abides_then (abides_registerDependencies all manifest) fun _ => ih
  apply abides_then (registers _)
  exact fun _ => abides_bringUp all.permits (fun _ _ => trivial) (fun _ _ => trivial) all.rootConfig
    (fun workspace _ => all.config workspace) (fun _ _ => all.artifact _)
    (fun _ _ state holds _ => all.engines state _ holds)
    (fun _ _ state holds _ => all.engines state _ holds)

theorem abides_activate (generation : Nat) (manifest : Manifest) :
    Abides Disk.alone conduct bearable pre (activate project options generation manifest)
      fun _ => pre := by
  apply (abides_look all.permits.endures (.discover _) fun _ => rfl).follow
  intro given _
  apply (abides_orThrow fun _ _ => all.documents _ rfl).follow
  intro workspaces _
  apply abides_anyEngine
  intro _
  apply abides_whenever
  apply abides_then (abides_change all _)
  exact fun _ => abides_addWorkspaces all workspaces generation

private theorem abides_usable (outcome : Except Fault Manifest)
    (documents : ∀ fault, outcome = .error fault → fault.isDocumentFault = true) :
    Abides Disk.alone conduct bearable pre (ofExcept id outcome) fun _ => pre :=
  abides_ofExcept (fun _ _ _ => id) fun fault failed => all.documents _ (documents fault failed)

theorem abides_rootCreated :
    Abides Disk.alone conduct bearable pre (rootCreated project options) fun _ => pre := by
  apply abides_anyEngine
  intro begun
  apply (abides_readManifest all _).follow
  intro outcome documents
  apply abides_then (abides_usable all outcome documents)
  exact fun manifest => abides_activate all begun.generation manifest

theorem abides_rootUpdated :
    Abides Disk.alone conduct bearable pre (rootUpdated project options) fun _ => pre := by
  apply abides_anyEngine
  intro begun
  apply (abides_readManifest all _).follow
  intro outcome documents
  apply abides_then (abides_usable all outcome documents)
  intro manifest
  apply (abides_look all.permits.endures (.discover _) fun _ => rfl).follow
  intro given _
  apply (abides_orThrow fun _ _ => all.documents _ rfl).follow
  intro workspaces _
  apply abides_anyEngine
  intro _
  apply abides_whenever
  apply abides_whenever
  apply abides_then (abides_log all.permits _ _)
  intro _
  apply abides_then (abides_changeRegistry all _)
  exact fun _ => abides_addWorkspaces all _ _

theorem abides_rootDeleted :
    Abides Disk.alone conduct bearable pre rootDeleted fun _ => pre := by
  apply abides_then (abides_log all.permits _ _)
  exact fun _ => abides_change all _

theorem abides_handle (kind : DocumentKind) (change : Change) (path : String) :
    Abides Disk.alone conduct bearable pre (handle project options kind change path)
      fun _ => pre := by
  have rootPresent : Abides Disk.alone conduct bearable pre (do
      if (← engine).active then rootUpdated project options else rootCreated project options)
      fun _ => pre := by
    apply abides_anyEngine
    intro begun
    split
    · exact abides_rootUpdated all
    · exact abides_rootCreated all
  cases kind with
  | rootManifest =>
      cases change with
      | create => exact rootPresent
      | update => exact rootPresent
      | delete => exact abides_rootDeleted all
  | workspaceManifest =>
      cases change with
      | create => exact abides_manifestWritten all path
      | update => exact abides_manifestWritten all path
      | delete => exact abides_manifestDeleted all path
  | workspaceConfig =>
      cases change with
      | create => exact abides_configPresent all.permits all.registries trivial all.rootConfig (all.artifact _)
      | update => exact abides_configPresent all.permits all.registries trivial all.rootConfig (all.artifact _)
      | delete => exact abides_configDeleted all.permits all.registries all.rootConfig
  | artifact =>
      cases change with
      | create => exact abides_artifactCreated all.permits (all.artifact _)
      | update => exact abides_artifactWritten all.permits (all.artifact _)
      | delete => exact abides_artifactDeleted all.permits all.registries path

theorem abides_start :
    Abides Disk.alone conduct bearable pre (start project options) fun _ => pre := by
  apply (abides_readManifest all _).follow
  intro outcome _
  split
  · apply abides_anyEngine
    exact fun begun => abides_activate all begun.generation _
  · exact abides_log all.permits _ _
  · exact abides_log all.permits _ _

end

end Watch
end RefSync

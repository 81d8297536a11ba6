/-
Artifacts whose documents fail. The registry takes over the names that an artifact refers to before
the documents of its workspace follow, and keeps them when these fail. So nothing is missing any
more when the artifact is read again; it takes the event of the manifest, from which the registry
learns what is declared, to make up for that.
-/

import RefSync.Proofs.Manifest.Validity
import RefSync.Proofs.Watch.Confirming
import RefSync.Proofs.Watch.Discovery
import RefSync.Proofs.Watch.Naming
import RefSync.Proofs.Watch.Synchronized

namespace RefSync

open Routine Path

namespace Watch

attribute [local irreducible] start dispatch

section

variable {project : Project} {options : SyncOptions} {workspace name : String} {artifact : Artifact}
  {stored : TextSet} {discovered : List String} {now : Engine × Disk}

/-- Whatever becomes of the documents, the registry is not touched again. -/
theorem leads_updateDocuments_unmoved (missing pruned discovered : List String) :
    Leads Disk.alone (updateDocuments project workspace missing pruned discovered) now
      fun _ later => later.1.registry = now.1.registry := by
  have unmoved : Unmoved now.1 now := ⟨rfl, rfl, rfl⟩
  have updates : Abides Disk.alone (.preserving (Unmoved now.1)) (fun _ => True) (Unmoved now.1)
      (updateDocuments project workspace missing pruned discovered) fun _ => Unmoved now.1 :=
    abides_updateDocuments permits_unmoved (permitsConfig_unmoved (Workspace.configPath workspace))
      (permitsManifest_unmoved (Workspace.manifestPath workspace)
        (Manifest.updateDependencies? · missing pruned))
  exact (updates.leads unmoved).weaken fun _ _ ended => (ended.1 unmoved).registry

/-- The registry takes over the names that an artifact refers to, however its event ends. -/
theorem leads_dispatch_learned (relative : project.IsRelative workspace)
    (apart : Workspace.IsApart project workspace)
    (knows : Knows workspace name stored now.1.registry) {value : Json}
    (reads : now.2.read (Workspace.artifactPath workspace) = .ok value)
    (valid : Artifact.validate value = .ok artifact) {event : Event}
    (change : event.change ≠ .delete)
    (path : project.relative event.path = project.relative (Workspace.artifactPath workspace)) :
    Leads Disk.alone (dispatch project options event) now fun _ later =>
      later.1.registry = learned options name stored
        (discoveredNames project now.1.registry (Workspace.artifactPath workspace) name artifact)
        (noticed event.change (Workspace.artifactPath workspace) now.1.registry) := by
  have stem := relative.spelled.stem
  rw [(Workspace.relative_artifactPath relative).mpr apart] at path
  have classified : classify project now.1.registry event.path = some .artifact := by
    rw [classify, path]
    exact knows.artifact
  have handles : Leads Disk.alone (handle project options .artifact event.change
      (project.relative event.path)) now fun _ later => later.1.registry = learned options name stored
        (discoveredNames project now.1.registry (Workspace.artifactPath workspace) name artifact)
        (noticed event.change (Workspace.artifactPath workspace) now.1.registry) := by
    intro start
    rw [path]
    refine meets_handle stem knows.ready knows.named reads valid change fun marked registry _ => ?_
    obtain ⟨missing, marks⟩ := noticed_eq event.change (Workspace.artifactPath workspace)
      now.1.registry
    have same := registry.trans marks
    have remembers : marked.1.registry.dependenciesOf name = .ok stored := by
      rw [same]
      exact knows.dependencies
    refine meets_learn remembers (fun found member => ?_) fun between learns => ?_
    · rw [same]
      exact discoveredNames_registered (Workspace.artifactPath workspace) knows.registered found member
    · refine Meets.weaken (leads_updateDocuments_unmoved _ _ _ _) fun _ _ _ kept => ?_
      exact kept.trans (registry ▸ learns)
  apply (leads_dispatch classified handles).weaken
  rintro result later (⟨_, learns⟩ | ⟨failure, between, learns, settles⟩)
  · exact learns
  · cases settles with
    | logged => exact learns
    | fatal => exact learns
    | raised => exact learns

theorem relearns_of_learned {change : Change} {path : String} {before after : Registry}
    (learns : after = learned options name stored discovered (noticed change path before)) :
    Relearns name discovered before after := by
  obtain ⟨missing, marks⟩ := noticed_eq change path before
  rw [marks] at learns
  exact ⟨missing, _, learns⟩

theorem Relearns.same {before after : Registry} (relearns : Relearns name discovered before after) :
    after.names = before.names ∧ after.paths = before.paths ∧ after.manifests = before.manifests := by
  obtain ⟨missing, reported, rfl⟩ := relearns
  exact ⟨rfl, rfl, rfl⟩

/-- A workspace with other dependencies is known as before otherwise. -/
theorem Knows.relearns {before after : Registry} (knows : Knows workspace name stored before)
    (relearns : Relearns name discovered before after) :
    Knows workspace name (distinct discovered) after := by
  obtain ⟨missing, reported, rfl⟩ := relearns
  have remembers : (before.dependencies.set name (distinct discovered)).get? name
      = some (distinct discovered) := (Table.get?_set ..).trans (if_pos rfl)
  refine { knows with dependencies := ?_ }
  rw [Registry.dependenciesOf, remembers]

theorem Registered.relearns {before after : Registry} (registered : Registered workspace name before)
    (relearns : Relearns name discovered before after) : Registered workspace name after := by
  obtain ⟨missing, reported, rfl⟩ := relearns
  exact { registered with }

theorem registered_of_sound {registry : Registry} (sound : registry.Sound project)
    (ready : registry.isReady workspace = true) (named : registry.findName workspace = some name)
    (watched : Workspace.artifactPath workspace ∈ registry.artifacts) :
    Registered workspace name registry :=
  ⟨ready, named, (sound.inverse workspace name).mp named,
    List.contains_iff_mem.mpr (sound.watches_of_named named).2, watched⟩

/-- Where the registry has learned what is declared, everything that is discovered is declared in the
end. -/
theorem Synchronized.declares {manifest : Document} {declared : Manifest} {registry : Registry}
    {known : List String} {after : Engine × Disk}
    (valid : Manifest.validate (.obj manifest) = .ok declared)
    (plain : manifest.get? "dev_dependencies" = none)
    (synchronized : Synchronized project options workspace name discovered
      (distinct (declared.workspaceDependencies known)) manifest registry after) :
    ∃ adjusted : Document, after.2.read (Workspace.manifestPath workspace) = .ok (.obj adjusted)
      ∧ ∀ other ∈ discovered, other ∈ (Manifest.declared adjusted "dependencies").keys
        ∨ other ∈ (Manifest.declared adjusted "devDependencies").keys := by
  obtain ⟨adjusted, reads, adds, _, keeps, _⟩ := synchronized.dependencies
  refine ⟨adjusted, reads, fun other found => ?_⟩
  by_cases stored : other ∈ distinct (declared.workspaceDependencies known)
  · have kept := keeps other (fun added => added.2 stored) fun pruned => pruned.2.2 found
    obtain ⟨_, fields⟩ := (Manifest.mem_workspaceDependencies valid plain known).mp
      (mem_distinct.mp stored)
    refine fields.imp (fun held => ?_) fun held => ?_
    · rw [Table.mem_keys_iff, kept _ List.mem_cons_self, ← Table.mem_keys_iff]
      exact held
    · rw [Table.mem_keys_iff, kept _ (List.mem_cons_of_mem _ List.mem_cons_self),
        ← Table.mem_keys_iff]
      exact held
  · exact adds other found stored

/-- An artifact event in a state whose registry says of the workspaces what another one says. -/
theorem leads_dispatch_like {registry : Registry} (names : now.1.registry.names = registry.names)
    (paths : now.1.registry.paths = registry.paths)
    (manifests : now.1.registry.manifests = registry.manifests) (relative : project.IsRelative workspace)
    (apart : Workspace.IsApart project workspace) (same : now.2.project = project)
    (knows : Knows workspace name stored now.1.registry) {manifest config : Document}
    {entries : Table Json} (finds : Finds workspace artifact manifest config entries now.2)
    {event : Event} (change : event.change ≠ .delete)
    (path : project.relative event.path = project.relative (Workspace.artifactPath workspace)) :
    Leads Disk.alone (dispatch project options event) now fun result later =>
      result = .ok () ∧ Synchronized project options workspace name
        (discoveredNames project registry (Workspace.artifactPath workspace) name artifact) stored
        manifest registry later := by
  intro start
  refine meets_dispatch relative apart same knows finds change path fun later synchronizes => ⟨rfl, ?_⟩
  have synchronized := synchronizes.synchronized
  rw [discoveredNames_eq names manifests] at synchronized
  obtain ⟨references, dependencies, remembered⟩ := synchronized
  rw [Update.isTarget_eq project paths] at references
  exact ⟨references, dependencies, remembered⟩

end

/-! ### A manifest that is invalid while the artifact is read -/

/-- The files of a project in which one workspace has some manifest and refers to the other one. -/
def linkedFiles (manifest : String) (compiled : List (Place × Entry)) : FileTree :=
  pairFiles "\x7b\"workspaces\":[\"a\",\"b\"]\x7d" ([(["p", "a"], .directory),
    (["p", "a", "package.json"], .file (.text manifest.toList))] ++ compiled)

/-- Whether a manifest gives a name, and nothing in the second spelling. -/
def isPlainManifest (name : String) (value : Json) : Bool :=
  (Manifest.validate value).toOption.any (·.name == some name)
    && (value.members?.any fun manifest => (manifest.get? "dev_dependencies").isNone)

/-- Whether a manifest declares a dependency. -/
def isDeclared (name : String) (value : Json) : Bool :=
  value.members?.any fun manifest => Manifest.dependencyFields.any fun field =>
    (Manifest.declared manifest field).contains name

end Watch
end RefSync

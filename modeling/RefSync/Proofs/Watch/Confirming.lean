/-
Events that tell nothing new. A workspace that is ready has its name and all of its documents. Its
manifest, when it is read again with that name, says nothing but what it declares; its config,
when it is there again, says nothing at all.
-/

import RefSync.Proofs.Watch.Aggregate
import RefSync.Proofs.Watch.Registering
import RefSync.Proofs.Watch.Settling

namespace RefSync

open Routine Path

namespace Registry

variable {registry : Registry} {workspace name : String}

/-- A workspace that is ready has nothing to gain. -/
theorem addReadiness_of_ready (ready : registry.isReady workspace = true) (more : Readiness) :
    registry.addReadiness workspace more = registry := by
  have all := isReady_iff.mp ready
  have held : registry.readiness.get? workspace = some .all := by
    unfold readinessOf at all
    cases found : registry.readiness.get? workspace with
    | none =>
        rw [found] at all
        cases all
    | some readiness =>
        rw [found] at all
        exact congrArg some all
  have kept : Readiness.all.add more = .all := rfl
  rw [addReadiness, all, kept, Table.set_of_get? held]

/-- A workspace that is given the name it has. -/
theorem setName_of_named (named : registry.findName workspace = some name)
    (held : registry.findPath name = some workspace) :
    registry.setName workspace name = .ok (registry, some name) := by
  unfold setName
  simp only [named, held, if_true, Table.set_of_get? named, Table.set_of_get? held]

end Registry

namespace Watch

/-- What a registry says of a workspace that takes part with its artifact. -/
structure Registered (workspace name : String) (registry : Registry) : Prop where
  ready : registry.isReady workspace = true
  named : registry.findName workspace = some name
  held : registry.findPath name = some workspace
  watched : isWatched registry workspace = true
  artifact : Workspace.artifactPath workspace ∈ registry.artifacts

variable {project : Project} {options : SyncOptions} {workspace name : String}
  {now : Engine × Disk} {manifest : Manifest}

/-- A config that was there all the time is nothing to its workspace. -/
theorem leads_configPresent_confirmed
    (configured : (now.1.registry.readinessOf workspace).config = true) :
    Leads Disk.alone (configPresent project options workspace) now fun result later =>
      result = .ok () ∧ later = now := by
  have there := Registry.hasReadiness_config.trans configured
  apply leads_configBack
  · exact fun missing => absurd (there.symm.trans missing) (by decide)
  · exact fun missing => absurd (there.symm.trans missing) (by decide)
  · exact fun _ => ⟨rfl, rfl⟩

section

variable (registered : Registered workspace name now.1.registry)

include registered

/-- The name of a workspace is confirmed. -/
theorem leads_confirmed
    (read : manifestOf (now.2.read (Workspace.manifestPath workspace)) = .ok manifest)
    (given : manifest.name = some name) :
    Leads Disk.alone (loadManifest project workspace) now fun result later =>
      result = .ok (some manifest) ∧ later = now := by
  have kept := Registry.addReadiness_of_ready registered.ready
  apply leads_loadManifest
  · intro fault failed
    rw [read] at failed
    cases failed
  · intro fault failed
    rw [read] at failed
    cases failed
  · intro other again
    cases read.symm.trans again
    apply leads_registerManifest
    · intro unwatched
      rw [registered.watched] at unwatched
      cases unwatched
    · intro _ taken
      obtain ⟨holder, held, other⟩ := taken name given
      rw [registered.held] at held
      cases held
      exact absurd rfl other
    · intro _ other assigned previous again _ set
      cases given.symm.trans again
      rw [kept, Registry.setName_of_named registered.named registered.held] at set
      cases set
      rw [kept]
      exact ⟨rfl, rfl⟩
    · intro _ other previous _ _ again named differs
      cases given.symm.trans again
      cases registered.named.symm.trans named
      exact absurd rfl differs

/-- All that is made of a manifest that confirms the name is what it declares. -/
theorem leads_manifestWritten_confirmed (stem : IsStem workspace)
    (read : manifestOf (now.2.read (Workspace.manifestPath workspace)) = .ok manifest)
    (given : manifest.name = some name) :
    Leads Disk.alone (manifestWritten project options (Workspace.manifestPath workspace)) now
      fun result later => result = .ok () ∧ later = ({ now.1 with
        registry := now.1.registry.setDependencies name
          (manifest.workspaceDependencies now.1.registry.allNames) }, now.2) := by
  have configured : now.1.registry.hasReadiness workspace .onlyConfig = true := by
    rw [Registry.hasReadiness, Registry.isReady_iff.mp registered.ready]
    rfl
  unfold manifestWritten
  dsimp only
  rw [Workspace.ofDocument_manifestPath stem]
  apply leads_registry
  apply (leads_confirmed registered read given).bind
  · rintro _ later ⟨⟨rfl⟩, same⟩
    rw [same]
    unfold manifestLoaded registerDependencies watchArtifact
    simp only [given]
    apply leads_modifyRegistry
    apply leads_registry
    change Leads Disk.alone (onlyIf (!now.1.registry.hasReadiness workspace .onlyConfig) _ >>= _) _ _
    rw [configured]
    apply leads_registry
    change Leads Disk.alone (onlyIf (now.1.registry.isReady workspace
      != now.1.registry.isReady workspace) _ >>= _) _ _
    rw [bne_self_eq_false]
    apply leads_registry
    change Leads Disk.alone (onlyIf (!now.1.registry.artifacts.contains
      (Workspace.artifactPath workspace) && _) _) _ _
    rw [List.contains_iff_mem.mpr registered.artifact]
    exact leads_pure ⟨rfl, rfl⟩
  · rintro _ _ ⟨impossible, _⟩
    cases impossible

attribute [local irreducible] dispatch

/-- The event of a manifest that confirms the name. -/
theorem leads_dispatch_confirmed (stem : IsStem workspace)
    (read : manifestOf (now.2.read (Workspace.manifestPath workspace)) = .ok manifest)
    (given : manifest.name = some name) {event : Event} (change : event.change ≠ .delete)
    (path : project.relative event.path = Workspace.manifestPath workspace) :
    Leads Disk.alone (dispatch project options event) now fun result later =>
      result = .ok () ∧ later = ({ now.1 with
        registry := now.1.registry.setDependencies name
          (manifest.workspaceDependencies now.1.registry.allNames) }, now.2) := by
  have notRoot : Workspace.manifestPath workspace ≠ manifestFile := by
    intro same
    have slash : '/' ∈ manifestFile.toList := by
      rw [← same, Workspace.manifestPath_of_stem stem, String.toList_append, String.toList_append]
      exact List.mem_append_left _ (List.mem_append_right _ List.mem_cons_self)
    exact absurd slash (by decide)
  have classified : classify project now.1.registry event.path = some .workspaceManifest := by
    have watched : now.1.registry.manifests.contains (Workspace.manifestPath workspace) = true :=
      registered.watched
    rw [classify, path, classifyRelative, if_neg (mt eq_of_beq notRoot), if_pos watched]
  have handles : Leads Disk.alone (handle project options .workspaceManifest event.change
      (project.relative event.path)) now fun result later =>
        result = .ok () ∧ later = ({ now.1 with
          registry := now.1.registry.setDependencies name
            (manifest.workspaceDependencies now.1.registry.allNames) }, now.2) := by
    rw [path]
    cases changed : event.change with
    | delete => exact absurd changed change
    | create => exact leads_manifestWritten_confirmed registered stem read given
    | update => exact leads_manifestWritten_confirmed registered stem read given
  apply (leads_dispatch classified handles).weaken
  rintro result later (⟨ok, _, same⟩ | ⟨failure, between, ⟨impossible, _⟩, _⟩)
  · exact ⟨ok, same⟩
  · cases impossible

end

end Watch
end RefSync

/-
Dispatching keeps the engine orderly. The documents of an event are told by what the
registry watches, so each handler gets a document of a watched workspace; what a failed
handler leaves behind is as orderly as what a successful one does. Whatever is no creation of the
root manifest does so among others that do; a creation needs to be on its own.
-/

import RefSync.Proofs.Watch.Crossing
import RefSync.Proofs.Watch.Handlers
import RefSync.Watch.Flight

namespace RefSync

open Routine Path

namespace Watch

/-- What the registry says of a path that it classifies. -/
theorem classifyRelative_eq_some {registry : Registry} {path : String} {kind : DocumentKind}
    (classified : classifyRelative registry path = some kind) :
    match kind with
    | .rootManifest => path = manifestFile
    | .workspaceManifest => path ∈ registry.manifests
    | .artifact => path ∈ registry.artifacts
    | .workspaceConfig => baseName path = configFile
        ∧ Workspace.manifestPath (Workspace.ofDocument path) ∈ registry.manifests := by
  unfold classifyRelative at classified
  split at classified
  · rename_i same
    cases classified
    exact eq_of_beq same
  · split at classified
    · rename_i watched
      cases classified
      exact List.contains_iff_mem.mp watched
    · split at classified
      · rename_i watched
        cases classified
        exact List.contains_iff_mem.mp watched
      · split at classified
        · rename_i watched
          cases classified
          rw [Bool.and_eq_true] at watched
          exact ⟨eq_of_beq watched.1, List.contains_iff_mem.mp watched.2⟩
        · cases classified

section

variable {project : Project}

/-- No watched manifest is the root manifest. -/
theorem root_unwatched {registry : Registry} (sound : registry.Sound project) :
    manifestFile ∉ registry.manifests := by
  intro watched
  obtain ⟨workspace, relative, same⟩ := sound.manifests _ watched
  exact Workspace.manifestPath_ne_root relative.spelled.stem same.symm

theorem watches_above {registry : Registry} (sound : registry.Sound project)
    {path : String} (spelled : IsSpelled path)
    (watched : Workspace.manifestPath (Workspace.ofDocument path) ∈ registry.manifests) :
    registry.Watches (Workspace.ofDocument path) := by
  rcases spelled.directory with top | stem
  · have above : Workspace.manifestPath (Workspace.ofDocument path) = manifestFile := by
      rw [Workspace.ofDocument, top]
      decide
    rw [above] at watched
    exact absurd watched (root_unwatched sound)
  · exact ⟨stem, watched⟩

end

/-! ### Among others -/

section

variable {ε : Type} {answer : Answering ε} {project : Project} {full : Prop}

/-- Messages about the faults of documents are all that is left of them. -/
private theorem steadily_logs (change : Change) (path : String) (failure : Failure) :
    Steadily answer project full (fun _ => True) (failure.forM fun fault =>
      log .error ("Failed to process " ++ change.text ++ " " ++ path ++ ": " ++ fault.message))
      fun _ _ => True := by
  induction failure with
  | nil => exact steadily_pure fun _ _ => trivial
  | cons fault others ih => exact Steadily.bind _ (steadily_log fun _ _ _ => trivial) fun _ => ih

theorem steadily_settle {change : Change} {path : String} {failure : Failure}
    (harmless : ∀ fault ∈ failure, Harmless full fault) :
    Steadily answer project full (fun _ => True) (settle change path failure) fun _ _ => True := by
  unfold settle
  split
  · rename_i fault found
    exact steadily_throw (harmless fault (List.mem_of_find?_eq_some found))
  · split
    · exact steadily_logs change path failure
    · exact steadily_fail harmless

variable (quiet : Quiet answer) (options : SyncOptions)

include quiet

theorem steadily_handle {engine : Engine} (change : Change) {path : String} {kind : DocumentKind}
    (orderly : engine.Orderly project full []) (spelled : IsSpelled path)
    (classified : classifyRelative engine.registry path = some kind)
    (other : kind = .rootManifest → change = .delete) :
    Steadily answer project full (· = engine) (handle project options kind change path)
      fun _ _ => True := by
  have told := classifyRelative_eq_some classified
  cases kind with
  | rootManifest =>
      rw [other rfl]
      exact steadily_rootDeleted.strengthen fun _ _ => trivial
  | workspaceManifest =>
      have watched : ∀ now, now = engine → path ∈ now.registry.manifests := fun _ same => same ▸ told
      cases change with
      | create => exact (steadily_manifestWritten quiet options path).strengthen watched
      | update => exact (steadily_manifestWritten quiet options path).strengthen watched
      | delete => exact (steadily_manifestDeleted quiet path).strengthen watched
  | workspaceConfig =>
      have watches : ∀ now, now = engine → now.registry.Watches (Workspace.ofDocument path) := by
        rintro _ rfl
        exact watches_above orderly.sound spelled told.2
      cases change with
      | create => exact (steadily_configPresent quiet options _).strengthen watches
      | update => exact (steadily_configPresent quiet options _).strengthen watches
      | delete => exact (steadily_configDeleted quiet _).strengthen watches
  | artifact =>
      have watched : ∀ now, now = engine → path ∈ now.registry.artifacts := fun _ same => same ▸ told
      cases change with
      | create => exact (steadily_artifactCreated quiet options path).strengthen fun _ _ => trivial
      | update => exact (steadily_artifactWritten quiet options path).strengthen fun _ _ => trivial
      | delete => exact (steadily_artifactDeleted path).strengthen watched

/-- Whatever the event, among others that are steady, unless it may add workspaces. -/
theorem steadily_dispatch {event : Event}
    (other : (Task.dispatch event).isRootCreation project = false) :
    Steadily answer project full (fun _ => True) (dispatch project options event) fun _ _ => True := by
  intro start now stage _
  unfold dispatch
  rw [meets_registry]
  cases classified : classify project now.1.registry event.path with
  | none => exact ⟨stage, trivial⟩
  | some kind =>
      have deletes : kind = .rootManifest → event.change = .delete := by
        rintro rfl
        have path : project.relative event.path = manifestFile := classifyRelative_eq_some classified
        simpa [Task.isRootCreation, path] using other
      have handles := steadily_handle quiet options event.change stage.orderly
        (project.relative_spelled event.path) classified deletes
      exact Steadily.recover handles (fun _ harmless => steadily_settle harmless) start now stage rfl

end

/-! ### With nobody else at work -/

section

variable {project : Project} {full : Prop} {options : SyncOptions} {now : Engine × Disk}

theorem leavesOrderly_handle {change : Change} {path : String} {kind : DocumentKind}
    (orderly : now.1.Orderly project full []) (same : now.2.project = project)
    (plain : full → now.2.PlainManifests) (spelled : IsSpelled path)
    (classified : classifyRelative now.1.registry path = some kind) :
    LeavesOrderly project full (handle project options kind change path) now fun _ _ => True := by
  have rootPresent : LeavesOrderly project full (do
      if (← engine).active then rootUpdated project options else rootCreated project options) now
      fun _ _ => True := by
    intro start
    rw [meets_engine]
    cases active : now.1.active with
    | true => exact leavesOrderly_rootUpdated orderly same plain active start
    | false => exact leavesOrderly_rootCreated orderly same plain active start
  by_cases creates : kind = .rootManifest ∧ change ≠ .delete
  · obtain ⟨rfl, written⟩ := creates
    cases change with
    | create => exact rootPresent
    | update => exact rootPresent
    | delete => exact absurd rfl written
  · have other : kind = .rootManifest → change = .delete :=
      fun root => not_not.mp fun written => creates ⟨root, written⟩
    exact (steadily_handle Disk.quiet_alone options change orderly spelled classified other).alone now
      orderly rfl

/-- An engine is as orderly after an event as before, whatever becomes of the handler. -/
theorem leavesOrderly_dispatch (event : Event) (orderly : now.1.Orderly project full [])
    (same : now.2.project = project) (plain : full → now.2.PlainManifests) :
    LeavesOrderly project full (dispatch project options event) now fun _ _ => True := by
  intro start
  unfold dispatch
  rw [meets_registry]
  cases classified : classify project now.1.registry event.path with
  | none => exact ⟨orderly, trivial⟩
  | some kind =>
      change Meets Disk.alone ((handle project options kind event.change
        (project.relative event.path)).recover (settle event.change (project.relative event.path)))
        .none .any start now _
      have handles : LeavesOrderly project full (handle project options kind event.change
          (project.relative event.path)) now fun _ _ => True :=
        leavesOrderly_handle orderly same plain (project.relative_spelled event.path) classified
      refine (meets_recover _ _ _).mpr ((handles start).weaken fun result start later ended => ?_)
      cases result with
      | ok value => exact ended
      | error failure => exact (steadily_settle ended.2).alone later ended.1 trivial start

end

end Watch
end RefSync

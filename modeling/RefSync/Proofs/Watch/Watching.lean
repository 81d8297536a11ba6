/-
What handling artifacts is to the registry: whatever it leads to, names, readiness and the watched
manifests stay as they are, and a workspace starts to watch its own artifact only.
-/

import RefSync.Proofs.Routine.Confining
import RefSync.Proofs.Watch.Permitted

namespace RefSync

open Routine Path Update

namespace Watch

/-- What does not become different while artifacts are handled. Some of them may become watched. -/
structure Spares (watched : String → Prop) (before after : Engine) : Prop where
  names : after.registry.names = before.registry.names
  paths : after.registry.paths = before.registry.paths
  readiness : after.registry.readiness = before.registry.readiness
  manifests : after.registry.manifests = before.registry.manifests
  active : after.active = before.active
  generation : after.generation = before.generation
  artifacts path : path ∈ before.registry.artifacts → path ∈ after.registry.artifacts
  watches path : path ∈ after.registry.artifacts → path ∈ before.registry.artifacts ∨ watched path

/-- Artifacts are handled, and some become watched. -/
def sparing (watched : String → Prop) : Conduct Disk where
  allows before after := Spares watched before.1 after.1
  refl _ := ⟨rfl, rfl, rfl, rfl, rfl, rfl, fun _ => id, fun _ => Or.inl⟩
  trans first second :=
    ⟨second.names.trans first.names, second.paths.trans first.paths,
      second.readiness.trans first.readiness, second.manifests.trans first.manifests,
      second.active.trans first.active, second.generation.trans first.generation,
      fun path member => second.artifacts path (first.artifacts path member),
      fun path member => (second.watches path member).elim (first.watches path) Or.inr⟩

theorem spares_of_same {watched : String → Prop} {before after : Engine}
    (same : after = { before with
      registry := { before.registry with
        dependencies := after.registry.dependencies
        missingArtifacts := after.registry.missingArtifacts
        reported := after.registry.reported }
      log := after.log
      notices := after.notices }) : Spares watched before after := by
  rw [same]
  exact ⟨rfl, rfl, rfl, rfl, rfl, rfl, fun _ => id, fun _ => Or.inl⟩

section

variable {project : Project} {options : SyncOptions} {watched : String → Prop}

/-! ### Alone, or among others that do the same -/

theorem permits_sparing (project : Project) :
    Permits project (fun _ => True) (sparing watched) (fun _ => True) (fun _ => True) where
  endures _ _ _ := id
  notes state engine _ registry active generation := by
    refine ⟨?_, ?_, ?_, ?_, active, generation, fun path member => ?_, fun path member => ?_⟩
    · rw [registry]
    · rw [registry]
    · rw [registry]
    · rw [registry]
    · rwa [registry]
    · exact Or.inl (by rwa [← registry])
  faults _ _ _ _ := trivial

theorem permitsArtifact_sparing (workspace : String) :
    PermitsArtifact (fun _ => True) (sparing watched) (fun _ => True) (fun _ => True) options
      workspace where
  config := ⟨trivial, fun _ _ _ _ _ _ _ _ => spares_of_same rfl⟩
  manifest _ _ _ _ _ _ _ _ _ _ := ⟨trivial, fun _ _ _ _ _ _ _ _ => spares_of_same rfl⟩
  learns _ _ _ _ _ _ := spares_of_same rfl
  marks _ _ _ _ _ := spares_of_same rfl
  pauses _ _ _ := spares_of_same rfl
  endless _ _ _ := trivial

theorem abides_spare_written (watched : String → Prop) (path : String) :
    Abides Disk.alone (sparing watched) (fun _ => True) (fun _ => True)
      (artifactWritten project options path) fun _ _ => True :=
  abides_artifactWritten (permits_sparing project) (permitsArtifact_sparing _)

theorem watches_own {state : Engine} {artifact : String} (own : watched artifact) :
    Spares watched state { state with registry := state.registry.watchArtifact artifact } := by
  refine ⟨rfl, rfl, rfl, rfl, rfl, rfl, fun path member => ?_, fun path member => ?_⟩
  · exact TextSet.mem_insert.mpr (Or.inr member)
  · rcases TextSet.mem_insert.mp member with same | before
    · exact Or.inr (by rwa [same])
    · exact Or.inl before

theorem abides_spare_watch {workspace : String} (watched : String → Prop)
    (own : watched (Workspace.artifactPath workspace)) :
    Abides Disk.alone (sparing watched) (fun _ => True) (fun _ => True)
      (watchArtifact project options workspace) fun _ _ => True :=
  abides_watchArtifact (permits_sparing project) trivial (permitsArtifact_sparing _)
    fun _ _ _ => watches_own own

/-! ### Among others that do anything -/

theorem spares_ask (asked : Request) : Confined Disk.alone (sparing watched) (ask asked) :=
  confined_ask asked fun state => by
    rw [Disk.alone_eq]
    exact spares_of_same rfl

theorem spares_log (level : Level) (message : String) :
    Confined Disk.alone (sparing watched) (log level message) :=
  confined_modify fun _ => spares_of_same rfl

theorem spares_readObject (path : String) :
    Confined Disk.alone (sparing watched) (readObject path) :=
  (spares_ask _).bind fun _ => confined_ofExcept _ _

theorem spares_readObject? (path : String) :
    Confined Disk.alone (sparing watched) (readObject? path) := by
  apply (spares_ask _).bind
  intro given
  split
  · exact confined_pure _
  · exact (confined_ofExcept _ _).bind fun _ => confined_pure _

theorem spares_written {path message : String} {document : Document} :
    Confined Disk.alone (sparing watched)
      (do writeDocument path document; log .info message; return true) := by
  apply Confined.bind ((spares_ask _).bind fun _ => confined_ofExcept _ _)
  exact fun _ => (spares_log _ _).bind fun _ => confined_pure _

theorem spares_references (workspace : String) (names : List String) :
    Confined Disk.alone (sparing watched) (Update.references project workspace names) := by
  apply confined_registry
  intro registry
  apply (confined_ofExcept _ _).bind
  intro aliases
  apply (spares_readObject? _).bind
  intro found
  apply (confined_ofExcept _ _).bind
  intro update
  cases update with
  | none => exact confined_pure _
  | some updated => exact spares_written

theorem spares_dependencies (workspace : String) (missing redundant : List String) :
    Confined Disk.alone (sparing watched) (Update.dependencies workspace missing redundant) := by
  apply confined_registry
  intro registry
  apply (spares_readObject _).bind
  intro manifest
  split
  · exact confined_pure _
  · exact spares_written

theorem spares_updateDocuments (workspace : String) (missing pruned discovered : List String) :
    Confined Disk.alone (sparing watched)
      (updateDocuments project workspace missing pruned discovered) := by
  refine Confined.bind (confined_forAll fun update member => ?_) fun _ => confined_pure _
  split at member
  · rw [List.mem_singleton.mp member]
    exact spares_references workspace discovered
  · rcases List.mem_cons.mp member with rfl | member
    · exact spares_dependencies workspace missing pruned
    · rw [List.mem_singleton.mp member]
      exact spares_references workspace discovered

theorem spares_applyDiscovered (workspace name : String) (discovered : List String) :
    Confined Disk.alone (sparing watched)
      (applyDiscovered project options workspace name discovered) := by
  apply confined_registry
  intro registry
  apply (confined_ofExcept _ _).bind
  intro declared
  apply Confined.bind
  · apply confined_onlyIf
    apply confined_registry
    intro _
    apply confined_onlyIf
    exact Confined.bind (confined_modify fun _ => spares_of_same rfl) fun _ => spares_log _ _
  intro _
  apply Confined.bind (confined_onlyIf (confined_modify fun _ => spares_of_same rfl))
  intro _
  apply Confined.bind (confined_modify fun _ => spares_of_same rfl)
  exact fun _ => spares_updateDocuments _ _ _ _

theorem spares_readAgain (path shown : String) (delay : Duration) (more failures : Nat) :
    Confined Disk.alone (sparing watched) (readAgain path shown delay more failures) := by
  induction more generalizing failures with
  | zero =>
      rw [readAgain.eq_def]
      apply (spares_ask _).bind
      intro given
      cases given <;> exact confined_pure _
  | succ more ih =>
      rw [readAgain.eq_def]
      apply (spares_ask _).bind
      intro given
      cases given with
      | ok value => exact confined_pure _
      | error cause =>
          dsimp only
          cases delay.grown? failures with
          | none => exact confined_throw _
          | some pause => exact (spares_ask (.pause pause)).bind fun _ => ih (failures + 1)

theorem spares_artifactOf (path : String) (outcome : Except Unreadable Json) :
    Confined Disk.alone (sparing watched) (artifactOf path outcome) := by
  have complains (message : String) :
      Confined Disk.alone (sparing watched) (artifactOf.complain path message) :=
    (spares_log _ _).bind fun _ => confined_pure _
  unfold artifactOf
  split
  · exact complains _
  · split
    · exact confined_pure _
    · exact complains _

theorem spares_artifactWritten (path : String) :
    Confined Disk.alone (sparing watched) (artifactWritten project options path) := by
  apply confined_registry
  intro registry
  apply confined_onlyIf
  apply (confined_ofExcept _ _).bind
  intro name
  apply (spares_readAgain _ _ _ _ _).bind
  intro outcome
  apply (spares_artifactOf path outcome).bind
  intro read
  cases read with
  | none => exact confined_pure _
  | some read =>
      apply confined_registry
      intro registry
      exact confined_onlyIf (spares_applyDiscovered _ _ _)

theorem spares_artifactCreated (path : String) :
    Confined Disk.alone (sparing watched) (artifactCreated project options path) := by
  apply confined_registry
  intro registry
  apply Confined.bind
  · apply confined_onlyIf
    exact Confined.bind (confined_modify fun _ => spares_of_same rfl) fun _ => spares_log _ _
  · exact fun _ => spares_artifactWritten path

theorem spares_whenPresent {path : String} {handler : Routine Unit}
    (handles : Confined Disk.alone (sparing watched) handler) :
    Confined Disk.alone (sparing watched) (whenPresent path handler) := by
  apply (spares_ask _).bind
  intro given
  exact (confined_ofExcept _ _).bind fun _ => confined_onlyIf handles

/-- A workspace starts to watch no artifact but its own. -/
theorem spares_watchArtifact {workspace : String} (own : watched (Workspace.artifactPath workspace)) :
    Confined Disk.alone (sparing watched) (watchArtifact project options workspace) := by
  apply confined_registry
  intro registry
  apply confined_onlyIf
  apply Confined.bind
  · apply confined_modify
    exact fun _ => watches_own own
  · exact fun _ => spares_whenPresent (spares_artifactCreated _)

end

end Watch
end RefSync

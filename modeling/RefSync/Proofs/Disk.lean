/-
What the files of a project answer.
-/

import Mathlib.Data.List.Nodup
import RefSync.Disk
import RefSync.Proofs.FileTree
import RefSync.Proofs.Workspace.Places

namespace RefSync.Disk

open Path

/-- The workspaces that globs match are found once each, as they are seen from the root. -/
theorem discovered {disk : Disk} {globs found : List String}
    (answer : disk.discover globs = .ok found) :
    found.Nodup ∧ ∀ workspace ∈ found, disk.project.IsRelative workspace := by
  unfold discover at answer
  dsimp only at answer
  split at answer
  · cases answer
  · cases answer
    constructor
    · exact sortTexts_nodup.mpr (distinct_nodup _)
    · intro workspace member
      rw [mem_sortTexts, mem_distinct, List.mem_map] at member
      obtain ⟨directory, _, same⟩ := member
      exact ⟨directory, same⟩

/-- What globs match are directories. -/
theorem discovered_directory {disk : Disk} {globs found : List String}
    (answer : disk.discover globs = .ok found) {workspace : String} (member : workspace ∈ found) :
    disk.files.isDirectory (disk.project.resolved workspace) = true := by
  unfold discover at answer
  dsimp only at answer
  split at answer
  · cases answer
  · cases answer
    rw [mem_sortTexts, mem_distinct, List.mem_map] at member
    obtain ⟨path, inDirectories, rfl⟩ := member
    have directory := (List.mem_filter.mp inDirectories).2
    have there := FileTree.get?_of_found (eq_of_beq directory)
    rw [Project.resolved_relative, Project.resolved_eq, FileTree.isDirectory, there]
    rfl

/-- What holds of every directory holds of the workspaces that globs match. -/
theorem forall_discovered {disk : Disk} {globs found : List String} {holds : String → Prop}
    (top : holds (disk.project.fromRoot []))
    (each : ∀ entry ∈ disk.files.entries, entry.2 = .directory → holds (disk.project.fromRoot entry.1))
    (answer : disk.discover globs = .ok found) : ∀ workspace ∈ found, holds workspace := by
  intro workspace member
  have same : disk.project.fromRoot (disk.project.resolved workspace) = workspace :=
    ((discovered answer).2 workspace member).fixed
  rw [← same]
  rcases FileTree.isDirectory_entry (discovered_directory answer member) with here | entry
  · rw [here]
    exact top
  · exact each (disk.project.resolved workspace, .directory) entry rfl

/-! ### Manifests that can be got at -/

/-- A manifest that is a file, whatever it holds, or that is not there. -/
def PlainManifest (disk : Disk) (workspace : String) : Prop :=
  ∀ fault, disk.read (Workspace.manifestPath workspace) = .error fault →
    fault.isAccess = true → ∃ path, fault = .missing path

/-- Every manifest of a workspace that globs match is plain. -/
def PlainManifests (disk : Disk) : Prop :=
  ∀ globs found, disk.discover globs = .ok found →
    ∀ workspace ∈ found, disk.PlainManifest workspace

instance (disk : Disk) (workspace : String) : Decidable (disk.PlainManifest workspace) :=
  match same : disk.read (Workspace.manifestPath workspace) with
  | .ok _ => .isTrue fun _ found => by rw [same] at found; cases found
  | .error (.missing path) => .isTrue fun fault found _ => by
      rw [same] at found
      exact ⟨path, (Except.error.inj found).symm⟩
  | .error (.notDirectory path) => .isFalse fun plain => nomatch plain _ same rfl
  | .error (.isDirectory path) => .isFalse fun plain => nomatch plain _ same rfl
  | .error (.tooLong path) => .isFalse fun plain => nomatch plain _ same rfl
  | .error .nullCharacter => .isTrue fun fault found access => by
      rw [same] at found
      cases found
      cases access
  | .error (.undecodable _) => .isTrue fun fault found access => by
      rw [same] at found
      cases found
      cases access
  | .error (.malformed _) => .isTrue fun fault found access => by
      rw [same] at found
      cases found
      cases access

/-- It is enough to look into every directory. -/
theorem plainManifests_of_directories {disk : Disk}
    (top : disk.PlainManifest (disk.project.fromRoot []))
    (each : ∀ entry ∈ disk.files.entries, entry.2 = .directory →
      disk.PlainManifest (disk.project.fromRoot entry.1)) : disk.PlainManifests :=
  fun _ _ answer => forall_discovered top each answer

/-- No request moves the project. -/
theorem answer_project (disk : Disk) (asked : Request) :
    (disk.answer asked).2.project = disk.project := by
  have parents (disk : Disk) (path : String) : (disk.makeParents path).2.project = disk.project := by
    unfold makeParents
    dsimp only
    split
    · rfl
    · split
      · rfl
      · split <;> rfl
  have writes (disk : Disk) (path : String) (text : List Char) :
      (disk.writeText path text).2.project = disk.project := by
    have made := parents disk (disk.project.absolute path)
    unfold writeText
    dsimp only
    split
    · rename_i after same
      rw [same] at made
      exact made
    · rename_i directory after same
      rw [same] at made
      split
      · exact made
      · split
        · exact made
        · split
          · exact made
          · split <;> exact made
  cases asked with
  | write path document =>
      rw [answer, write]
      exact writes _ path _
  | removeDirectory directory =>
      rw [answer, removeDirectory]
      split
      · rfl
      · split <;> rfl
  | _ => rfl

end RefSync.Disk

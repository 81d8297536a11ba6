/-
Paths that never go up. Such a path stays inside the root and is told by its components, so
the way from one to another is told by the two alone, wherever the root is and however it is
written; it leads back when it is followed from where it starts. The names that an artifact
has for files are such ways, from the directory it is in.
-/

import RefSync.Proofs.Workspace.Ownership
import RefSync.Proofs.Workspace.Places

namespace RefSync

open Path

/-- A path that is the text for its components, none of which goes up. -/
structure Path.IsPlain (path : String) : Prop where
  spelled : IsSpelled path
  down : ".." ∉ parts path

theorem IsBelowRoot.plain {workspace : String} (inside : IsBelowRoot workspace) : IsPlain workspace :=
  ⟨inside.path.normal.spelled, inside.down⟩

theorem Path.IsPlain.slash {path name : String} (plain : IsPlain path) (below : path ≠ ".")
    (named : IsName name) : IsPlain (path ++ "/" ++ name) := by
  refine ⟨plain.spelled.slash below named.component, ?_⟩
  rw [parts_slash, parts_of_isComponent named.component]
  intro member
  rcases List.mem_append.mp member with above | last
  · exact plain.down above
  · exact named.notParent (List.mem_singleton.mp last).symm

/-! ### Seen from the root -/

namespace Path.IsPlain

variable {path : String} (plain : IsPlain path) (project : Project)

include plain

theorem resolved : project.resolved path = project.resolved "" ++ parts path := by
  rw [Project.resolved_eq, Project.parts_absolute, plain.spelled.notAbsolute, if_neg (by decide),
    resolve_append_names _ plain.down, project.resolved_root]

theorem fromRoot : project.fromRoot (project.resolved "" ++ parts path) = path :=
  (project.fromRoot_append _).trans plain.spelled

theorem relative : project.relative path = path := by
  rw [Project.relative, plain.resolved]
  exact plain.fromRoot project

/-- A path from the top means what the path it was made of means. -/
theorem relative_absolute (rooted : isAbsolute project.root = true) :
    project.relative (project.absolute path) = path := by
  have beside := plain.spelled.notAbsolute
  have top : isAbsolute (project.absolute path) = true := by
    by_cases here : path = "."
    · subst here
      exact rooted
    · rw [project.absolute_of_spelled plain.spelled here, isAbsolute_join beside, rooted]
  have same : project.resolved (project.absolute path) = project.resolved path := by
    rw [Project.resolved_eq, Project.parts_absolute, if_pos top, Project.resolved_eq]
  rw [Project.relative, same, plain.resolved]
  exact plain.fromRoot project

end Path.IsPlain

/-! ### The way from one to another -/

section

variable {workspace : Option String} (beside : isAbsolute (workspace.getD "") = false)
  (down : ".." ∉ parts (workspace.getD ""))

include beside down

/-- The way to a plain path is told by the components that lead to both ends. -/
theorem Path.IsPlain.referencePath? {path : String} (plain : IsPlain path) (project : Project) :
    project.referencePath? path workspace
      = some (ofParts (climb (parts (workspace.getD "")) (parts path))) := by
  have filled : path.isEmpty = false := by
    simpa using plain.spelled.stem.filled
  have place (other : String) (otherBeside : isAbsolute other = false) (otherDown : ".." ∉ parts other) :
      project.resolvedFrom (project.deepBase path (workspace.getD "")) other
        = project.deepBase path (workspace.getD "") ++ parts other := by
    rw [Project.resolvedFrom, otherBeside, if_neg (by decide), resolve_append_names _ otherDown,
      project.resolve_deepBase]
  unfold Project.referencePath?
  rw [filled, if_neg (by decide)]
  dsimp only
  rw [plain.spelled.notAbsolute, beside, Bool.or_false, if_neg (by decide),
    place path plain.spelled.notAbsolute plain.down, place _ beside down, climb_prefix]

/-- The way to a plain path, followed from where it starts. -/
theorem Workspace.ofReference_climb {path : String} (plain : IsPlain path) :
    ofReference (ofParts (climb (parts (workspace.getD "")) (parts path))) workspace = path := by
  have proper : ∀ part ∈ climb (parts (workspace.getD "")) (parts path), IsComponent part :=
    climb_components fun _ member => isComponent_of_mem_parts member
  have arrived : resolve false (parts (workspace.getD "")) = [] ++ parts (workspace.getD "") :=
    resolve_names down
  have followed (base : String) (baseBeside : isAbsolute base = false)
      (same : parts base = parts (workspace.getD "")) :
      normalize (join base (ofParts (climb (parts (workspace.getD "")) (parts path)))) = path := by
    rw [normalize_of_relative ((isAbsolute_join (isAbsolute_ofParts proper)).trans baseBeside),
      parts_join (isAbsolute_ofParts proper), parts_ofParts proper, same,
      resolve_climb arrived down plain.down]
    exact plain.spelled
  unfold ofReference
  dsimp only
  split
  · rename_i empty
    exact followed "." (by decide) (by rw [String.isEmpty_iff.mp empty, parts_here, parts_empty])
  · exact followed _ beside rfl

end

namespace Workspace

section

variable {workspace : Option String} (inside : ∀ start ∈ workspace, IsBelowRoot start)

include inside

/-- A reference of a workspace, or of the root, is written down as the way to the dependency, and
leads to it. -/
theorem referencePath?_leads (project : Project) {dependency : String}
    (dependencyInside : IsBelowRoot dependency) :
    ∃ reference, project.referencePath? dependency workspace = some reference
      ∧ ofReference reference workspace = dependency := by
  have start : isAbsolute (workspace.getD "") = false ∧ ".." ∉ parts (workspace.getD "") := by
    cases workspace with
    | none => exact ⟨by decide, List.not_mem_nil⟩
    | some start =>
        have startInside := inside start rfl
        exact ⟨startInside.path.normal.relative, startInside.down⟩
  exact ⟨_, dependencyInside.plain.referencePath? start.1 start.2 project,
    ofReference_climb start.1 start.2 dependencyInside.plain⟩

/-- No two workspaces are referred to in the same way. -/
theorem referencePath?_injective (project : Project) {first second : String}
    (firstInside : IsBelowRoot first) (secondInside : IsBelowRoot second)
    (same : project.referencePath? first workspace = project.referencePath? second workspace) :
    first = second := by
  obtain ⟨reference, written, leads⟩ := referencePath?_leads inside project firstInside
  obtain ⟨other, otherWritten, otherLeads⟩ := referencePath?_leads inside project secondInside
  rw [written, otherWritten, Option.some.injEq] at same
  rw [← leads, ← otherLeads, same]

end

/-! ### The files of an artifact -/

section

variable {project : Project} {workspace : String} (rooted : isAbsolute project.root = true)
  (inside : IsBelowRoot workspace)

include rooted inside

/-- A name in an artifact is followed from the directory that the artifact is in. -/
theorem artifactFile_eq {name : String} (beside : isAbsolute name = false) :
    project.artifactFile (artifactPath workspace) name
      = project.fromRoot (resolve true (parts project.root ++ parts workspace
        ++ [Config.artifactDirectory] ++ parts name)) := by
  have stem := inside.path.normal.spelled.stem
  have directory :
      Path.directory (artifactPath workspace) = workspace ++ "/" ++ Config.artifactDirectory := by
    rw [artifactPath_of_stem stem,
      directory_slash (isStem_artifactDirectory workspace) isName_artifactFile.component.oneName]
  have directoryBeside : isAbsolute (workspace ++ "/" ++ Config.artifactDirectory) = false :=
    (isAbsolute_slash stem _).trans inside.path.normal.relative
  have spelled : parts (join (join project.root (Path.directory (artifactPath workspace))) name)
      = parts project.root ++ parts workspace ++ [Config.artifactDirectory] ++ parts name := by
    rw [parts_join beside, directory, parts_join directoryBeside, parts_slash,
      parts_of_isComponent isName_artifactDirectory.component, ← List.append_assoc]
  have absolute :
      isAbsolute (join (join project.root (Path.directory (artifactPath workspace))) name) = true := by
    rw [isAbsolute_join beside, directory, isAbsolute_join directoryBeside, rooted]
  have place : project.resolved (join (join project.root (Path.directory (artifactPath workspace))) name)
      = resolve true (parts project.root ++ parts workspace ++ [Config.artifactDirectory]
        ++ parts name) := by
    rw [← spelled, Project.resolved]
    exact congrArg (fun path => resolve true (parts path)) (if_pos absolute)
  rw [Project.artifactFile, Project.relative, place, Project.fromRoot]

theorem artifactFile_climb {file : String} (plain : IsPlain file) :
    project.artifactFile (artifactPath workspace)
      (ofParts (climb (parts workspace ++ [Config.artifactDirectory]) (parts file))) = file := by
  have proper : ∀ part ∈ climb (parts workspace ++ [Config.artifactDirectory]) (parts file),
      IsComponent part := climb_components fun _ member => isComponent_of_mem_parts member
  have down : ".." ∉ parts workspace ++ [Config.artifactDirectory] := fun member =>
    (List.mem_append.mp member).elim inside.down (by decide)
  have arrived : resolve true (parts project.root ++ parts workspace ++ [Config.artifactDirectory])
      = project.resolved "" ++ (parts workspace ++ [Config.artifactDirectory]) := by
    rw [List.append_assoc, resolve_append_names _ down, project.resolved_root]
  rw [artifactFile_eq rooted inside (isAbsolute_ofParts proper), parts_ofParts proper,
    resolve_climb arrived down plain.down]
  exact plain.fromRoot project

/-- The way from the directory of an artifact to a file is a name for the file. -/
theorem artifactFile_referencePath? {file : String} (plain : IsPlain file) :
    ∃ name, project.referencePath? file (some (workspace ++ "/" ++ Config.artifactDirectory)) = some name
      ∧ project.artifactFile (artifactPath workspace) name = file := by
  have directory : IsPlain (workspace ++ "/" ++ Config.artifactDirectory) :=
    inside.plain.slash inside.path.notRoot isName_artifactDirectory
  have components : parts (workspace ++ "/" ++ Config.artifactDirectory)
      = parts workspace ++ [Config.artifactDirectory] := by
    rw [parts_slash, parts_of_isComponent isName_artifactDirectory.component]
  have written := @IsPlain.referencePath? (some (workspace ++ "/" ++ Config.artifactDirectory))
    directory.spelled.notAbsolute directory.down file plain project
  rw [Option.getD_some, components] at written
  exact ⟨_, written, artifactFile_climb rooted inside plain⟩

end

end Workspace
end RefSync

/-
What an artifact tells about its workspace. The discovered names are exactly those of the
workspaces that own a file some local file refers to, the owner's own name left out.
-/

import RefSync.Proofs.Artifact.Graph
import RefSync.Proofs.Workspace.Ownership
import RefSync.Proofs.Workspace.Relative
import RefSync.Watch.Artifact

namespace RefSync

open Path

namespace Watch

/-- What is found out about a workspace is what its artifact refers to among the workspaces that are
registered. -/
theorem discoveredNames_eq {project : Project} {before after : Registry} (names : after.names = before.names)
    (manifests : after.manifests = before.manifests) (path owner : String) (artifact : Artifact) :
    discoveredNames project after path owner artifact
      = discoveredNames project before path owner artifact := by
  unfold discoveredNames Registry.watched Registry.findName
  rw [names, manifests]

/-- A discovered name is one that a watched workspace has, other than the owner's, which is
the most specific one for a file that a local file refers to. -/
theorem mem_discoveredNames_iff (project : Project) (registry : Registry)
    (artifactPath owner : String) (value : Json) (artifact : Artifact)
    (validated : Artifact.validate value = .ok artifact)
    (watched : ∀ workspace ∈ registry.watched, IsWorkspacePath workspace) (name : String) :
    name ∈ discoveredNames project registry artifactPath owner artifact ↔
      name ≠ owner ∧ ∃ file workspace, artifact.RefersTo file
        ∧ Workspace.MostSpecific registry.watched (project.artifactFile artifactPath file) workspace
        ∧ registry.findName workspace = some name := by
  obtain ⟨names, lists⟩ := Artifact.keysDistinct_of_validate validated
  have owned (file workspace : String) :
      Workspace.owning (project.artifactFile artifactPath file) registry.watched = some workspace
        ↔ Workspace.MostSpecific registry.watched (project.artifactFile artifactPath file)
          workspace :=
    Workspace.owning_eq_some_iff watched
      (project.relative_spelled (Path.join (Path.join project.root (Path.directory artifactPath)) file))
  rw [discoveredNames, mem_distinct, List.mem_filterMap]
  constructor
  · rintro ⟨file, referenced, found⟩
    have refers := (Artifact.mem_referencedNames names lists).mp referenced
    cases ownerAt : Workspace.owning (project.artifactFile artifactPath file) registry.watched with
    | none => simp only [ownerAt, reduceCtorEq] at found
    | some workspace =>
        cases nameAt : registry.findName workspace with
        | none => simp only [ownerAt, nameAt, reduceCtorEq] at found
        | some known =>
            by_cases own : known = owner
            · simp only [ownerAt, nameAt, if_pos own, reduceCtorEq] at found
            · simp only [ownerAt, nameAt, if_neg own, Option.some.injEq] at found
              subst found
              exact ⟨own, file, workspace, refers, (owned file workspace).mp ownerAt, nameAt⟩
  · rintro ⟨other, file, workspace, refers, specific, nameAt⟩
    refine ⟨file, (Artifact.mem_referencedNames names lists).mpr refers, ?_⟩
    have ownerAt : Workspace.owning (project.artifactFile artifactPath file) registry.watched
        = some workspace := (owned file workspace).mpr specific
    simp only [ownerAt, nameAt, if_neg other]

/-- Three workspaces, one of them inside another. -/
def nestedRegistry : Registry :=
  { names := [("packages/a", "a"), ("packages/b", "b"), ("packages/b/inner", "c")]
    paths := [("a", "packages/a"), ("b", "packages/b"), ("c", "packages/b/inner")]
    manifests := ["packages/a/package.json", "packages/b/package.json",
      "packages/b/inner/package.json"] }

/-- An artifact of the first one, whose only source refers to a file of the inner one. -/
def nestedArtifact : Artifact :=
  { fileNames := [(0, "../src/index.ts"), (1, "../../b/inner/src/index.ts")]
    referencedMap := [(1, 1)]
    fileIdsList := [(0, [2])] }

def nestedDocument : Json :=
  .obj [("program", .obj
    [("fileNames", .arr [.str "../src/index.ts", .str "../../b/inner/src/index.ts"]),
      ("referencedMap", .arr [.arr [.int 1, .int 1]]), ("fileIdsList", .arr [.arr [.int 2]])])]

/-- The inner workspace is found through the file, not the one around it. -/
theorem nested_workspace_discovered :
    Artifact.validate nestedDocument = .ok nestedArtifact
      ∧ (∀ workspace ∈ nestedRegistry.watched, IsWorkspacePath workspace)
      ∧ "c" ≠ "a" ∧ ∃ file workspace, nestedArtifact.RefersTo file
        ∧ Workspace.MostSpecific nestedRegistry.watched
          (Project.artifactFile ⟨"/repo"⟩ "packages/a/.ts/tsconfig.tsbuildinfo" file) workspace
        ∧ nestedRegistry.findName workspace = some "c" := by
  have validated : Artifact.validate nestedDocument = .ok nestedArtifact := by decide +kernel
  have all : nestedRegistry.watched = ["packages/a", "packages/b", "packages/b/inner"] := by
    decide +kernel
  have watched : ∀ workspace ∈ nestedRegistry.watched, IsWorkspacePath workspace := by
    rw [all]
    intro workspace member
    simp only [List.mem_cons, List.not_mem_nil, or_false] at member
    rcases member with rfl | rfl | rfl
    · exact ⟨⟨by decide +kernel, by decide +kernel⟩, by decide⟩
    · exact ⟨⟨by decide +kernel, by decide +kernel⟩, by decide⟩
    · exact ⟨⟨by decide +kernel, by decide +kernel⟩, by decide⟩
  refine ⟨validated, watched, ?_⟩
  have found : "c" ∈ discoveredNames ⟨"/repo"⟩ nestedRegistry
      "packages/a/.ts/tsconfig.tsbuildinfo" "a" nestedArtifact := by decide +kernel
  exact (mem_discoveredNames_iff ⟨"/repo"⟩ nestedRegistry "packages/a/.ts/tsconfig.tsbuildinfo" "a"
    nestedDocument nestedArtifact validated watched "c").mp found

end Watch
end RefSync

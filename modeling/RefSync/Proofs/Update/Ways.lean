/-
Ways that are written down, and where they lead. A reference leads back to the workspace it was
written for, so no two workspaces share one, and the aliases of some names hold each of their
workspaces. The same goes for the names of files in an artifact, and for paths from the top.
-/

import RefSync.Proofs.Update.Aliased
import RefSync.Proofs.Workspace.Plain

namespace RefSync.Update

open Path

/-- Whether a table of aliases tells the workspaces of some names apart: all that it has are
references to these, by one of their names, and each of them has a reference of its own. -/
structure TellsApart (project : Project) (registry : Registry) (workspace : String)
    (names : List String) (aliases : Table String) : Prop where
  refers : ∀ reference name, aliases.get? reference = some name →
    name ∈ names ∧ Refers project registry workspace name reference
  own : ∀ name ∈ names, ∀ reference, Refers project registry workspace name reference →
    ∃ other ∈ names, aliases.get? reference = some other
      ∧ registry.findPath other = registry.findPath name
  named : ∀ name ∈ names, ∀ reference, Refers project registry workspace name reference →
    (∀ other ∈ names, registry.findPath other = registry.findPath name → other = name) →
      aliases.get? reference = some name

section

variable {project : Project} {registry : Registry} {workspace : String} {names : List String}
  (below : ∀ name ∈ names, ∀ path, registry.findPath name = some path → IsBelowRoot path)

include below

theorem tellsApart_targetAliases {aliases : Table String} (inside : IsBelowRoot workspace)
    (resolved : targetAliases project registry workspace names = .ok aliases) :
    TellsApart project registry workspace names aliases := by
  have own (name : String) (member : name ∈ names) (reference : String)
      (refers : Refers project registry workspace name reference) :
      ∃ other ∈ names, aliases.get? reference = some other
        ∧ registry.findPath other = registry.findPath name := by
    obtain ⟨path, found, written⟩ := refers
    have key : reference ∈ aliases.keys :=
      (targetAliases_keys resolved reference).mpr ⟨name, member, path, found, written⟩
    obtain ⟨other, entry⟩ := Option.isSome_iff_exists.mp (Table.mem_keys_iff.mp key)
    obtain ⟨otherMember, place, placed, writtenToo⟩ := refers_of_targetAliases resolved entry
    have same : place = path := Workspace.referencePath?_injective
      (fun start given => Option.some.inj given ▸ inside) project (below other otherMember place placed)
      (below name member path found) (writtenToo.trans written.symm)
    exact ⟨other, otherMember, entry, by rw [placed, found, same]⟩
  refine ⟨fun _ _ => refers_of_targetAliases resolved, own, ?_⟩
  intro name member reference refers only
  obtain ⟨other, otherMember, entry, same⟩ := own name member reference refers
  rw [entry, only other otherMember same]

theorem exists_targetAliases :
    ∃ aliases, targetAliases project registry workspace names = .ok aliases := by
  cases resolved : targetAliases project registry workspace names with
  | ok aliases => exact ⟨aliases, rfl⟩
  | error fault =>
      obtain ⟨_, name, member, empty⟩ := targetAliases_unplaced resolved
      exact absurd rfl (below name member "" empty).plain.spelled.stem.filled

end

/-- Below the root, references lead back to the workspaces they are written for, each in its own
way, in the aliases too; a way from the directory of an artifact is a name for the file it leads to,
and a path as the root sees it is not seen in another way, nor is the path from the top that it
stands for. -/
theorem ways_lead_back (project : Project) (rooted : isAbsolute project.root = true) :
    (∀ (workspace : Option String) (dependency : String), (∀ start ∈ workspace, IsBelowRoot start) →
        IsBelowRoot dependency →
        ∃ reference, project.referencePath? dependency workspace = some reference
          ∧ Workspace.ofReference reference workspace = dependency)
      ∧ (∀ (workspace : Option String) (first second : String), (∀ start ∈ workspace, IsBelowRoot start) →
        IsBelowRoot first → IsBelowRoot second →
        project.referencePath? first workspace = project.referencePath? second workspace → first = second)
      ∧ (∀ (registry : Registry) (workspace : String) (names : List String), IsBelowRoot workspace →
        (∀ name ∈ names, ∀ path, registry.findPath name = some path → IsBelowRoot path) →
        ∃ aliases, targetAliases project registry workspace names = .ok aliases
          ∧ TellsApart project registry workspace names aliases)
      ∧ (∀ workspace file : String, IsBelowRoot workspace → IsNormal file → ".." ∉ parts file →
        ∃ name, project.referencePath? file (some (workspace ++ "/" ++ Config.artifactDirectory)) = some name
          ∧ project.artifactFile (Workspace.artifactPath workspace) name = file)
      ∧ (∀ path : String, project.relative (project.relative path) = project.relative path)
      ∧ (∀ file : String, IsNormal file → ".." ∉ parts file →
        project.relative (project.absolute file) = file) := by
  refine ⟨fun _ _ inside below => Workspace.referencePath?_leads inside project below,
    fun _ _ _ inside first second => Workspace.referencePath?_injective inside project first second,
    ?_, ?_, project.relative_relative, ?_⟩
  · intro registry workspace names inside below
    obtain ⟨aliases, resolved⟩ := exists_targetAliases below
    exact ⟨aliases, resolved, tellsApart_targetAliases below inside resolved⟩
  · intro workspace file inside normal down
    exact Workspace.artifactFile_referencePath? rooted inside ⟨normal.spelled, down⟩
  · intro file normal down
    exact IsPlain.relative_absolute ⟨normal.spelled, down⟩ project rooted

/-- From a workspace of a root whose path is not the shortest one. -/
theorem neighbours_are_found_again :
    isAbsolute "/srv/../repo" = true ∧ IsBelowRoot "packages/a" ∧ IsBelowRoot "packages/b"
      ∧ IsBelowRoot "libs/c" ∧ IsNormal "packages/b/index.ts" ∧ ".." ∉ parts "packages/b/index.ts"
      ∧ (Project.mk "/srv/../repo").referencePath? "libs/c" (some "packages/a") = some "../../libs/c"
      ∧ Workspace.ofReference "../../libs/c" (some "packages/a") = "libs/c"
      ∧ (∃ aliases, targetAliases ⟨"/srv/../repo"⟩ (registered [("b", "packages/b"), ("c", "libs/c")])
          "packages/a" ["c", "b"] = .ok aliases
        ∧ aliases.get? "../b" = some "b" ∧ aliases.get? "../../libs/c" = some "c")
      ∧ (Project.mk "/srv/../repo").artifactFile "packages/a/.ts/tsconfig.tsbuildinfo"
        "../../b/index.ts" = "packages/b/index.ts"
      ∧ (Project.mk "/srv/../repo").relative
        ((Project.mk "/srv/../repo").absolute "packages/b/index.ts") = "packages/b/index.ts" := by
  have rooted : isAbsolute "/srv/../repo" = true := by decide
  have insideA : IsBelowRoot "packages/a" := by decide +kernel
  have insideB : IsBelowRoot "packages/b" := by decide +kernel
  have insideC : IsBelowRoot "libs/c" := by decide +kernel
  have normal : IsNormal "packages/b/index.ts" := ⟨by decide +kernel, by decide +kernel⟩
  have down : ".." ∉ parts "packages/b/index.ts" := by decide +kernel
  obtain ⟨leads, _, apart, files, _, top⟩ := ways_lead_back ⟨"/srv/../repo"⟩ rooted
  have toB : (Project.mk "/srv/../repo").referencePath? "packages/b" (some "packages/a") = some "../b" := by
    decide +kernel
  have toC : (Project.mk "/srv/../repo").referencePath? "libs/c" (some "packages/a")
      = some "../../libs/c" := by decide +kernel
  have toFile : (Project.mk "/srv/../repo").referencePath? "packages/b/index.ts" (some "packages/a/.ts")
      = some "../../b/index.ts" := by decide +kernel
  obtain ⟨reference, written, back⟩ := leads (some "packages/a") "libs/c"
    (fun start given => Option.some.inj given ▸ insideA) insideC
  rw [toC, Option.some.injEq] at written
  obtain ⟨name, named, found⟩ := files "packages/a" "packages/b/index.ts" insideA normal down
  obtain rfl : "../../b/index.ts" = name := Option.some.inj (toFile.symm.trans named)
  have places : ∀ name ∈ ["c", "b"], ∀ path,
      (registered [("b", "packages/b"), ("c", "libs/c")]).findPath name = some path → IsBelowRoot path := by
    intro name member path placed
    rcases List.mem_cons.mp member with rfl | later
    · exact Option.some.inj placed ▸ insideC
    · obtain rfl := List.mem_singleton.mp later
      exact Option.some.inj placed ▸ insideB
  obtain ⟨aliases, resolved, told⟩ := apart _ "packages/a" ["c", "b"] insideA places
  have alone : ∀ name ∈ ["c", "b"], ∀ other ∈ ["c", "b"],
      (registered [("b", "packages/b"), ("c", "libs/c")]).findPath other
        = (registered [("b", "packages/b"), ("c", "libs/c")]).findPath name → other = name := by
    decide +kernel
  refine ⟨rooted, insideA, insideB, insideC, normal, down, toC, written ▸ back,
    ⟨aliases, resolved, ?_, ?_⟩, found, top "packages/b/index.ts" normal down⟩
  · exact told.named "b" (by decide) "../b" ⟨"packages/b", rfl, toB⟩ (alone "b" (by decide))
  · exact told.named "c" (by decide) "../../libs/c" ⟨"libs/c", rfl, toC⟩ (alone "c" (by decide))

end RefSync.Update

/-
Manifests that are reached. Where everything is in a directory, and the root of the project is
there, nothing is missing on the way to a manifest that is there. So a write somewhere else never
brings a manifest to light.
-/

import RefSync.Proofs.Disk.Documents
import RefSync.Proofs.FileTree.Grounded
import RefSync.Proofs.Workspace.Places

namespace RefSync.Disk

open Path

/-- Whether everything is in a directory, and the root of the project is there. -/
structure Grounded (disk : Disk) : Prop where
  files : disk.files.IsGrounded
  rooted : ∃ here, disk.files.walkFrom [] (parts disk.project.root) = .ok here

variable {disk after : Disk} {path workspace : String}

theorem isGrounded_makeParents (grounded : disk.files.IsGrounded) (path : String) :
    (disk.makeParents path).2.files.IsGrounded := by
  have made : (disk.files.makeFrom false [] (parts path).dropLast).2.IsGrounded :=
    grounded.makeFrom _ false rfl
  unfold makeParents
  dsimp only
  split
  · exact grounded
  · split
    · exact grounded
    · split
      · rename_i makes
        rw [makes] at made
        exact made
      · rename_i makes
        rw [makes] at made
        exact made

theorem isGrounded_write (grounded : disk.files.IsGrounded) (path : String) (document : Document) :
    (disk.write path document).2.files.IsGrounded := by
  let logged : Disk := { disk with written := disk.written ++ [path] }
  have beginning : logged.files.IsGrounded := grounded
  have made := isGrounded_makeParents beginning (disk.project.absolute path)
  unfold write writeText
  dsimp only
  split
  · rename_i makes
    rw [makes] at made
    exact made
  · rename_i directory between makes
    have entered := (makeParents_walk (congrArg Prod.fst makes)).2
    rw [makes] at made entered
    split
    · exact made
    · split
      · exact made
      · split
        · exact made
        · split
          · exact made
          · rename_i free
            rw [Bool.not_eq_true] at free
            apply made.put _ (Or.inr free)
            cases last : (parts (disk.project.absolute path)).getLast? with
            | none =>
                rw [last, Option.toList_none, List.append_nil, entered] at free
                cases free
            | some name =>
                rw [Option.toList_some, List.dropLast_concat]
                exact entered

namespace Grounded

variable (grounded : disk.Grounded)

include grounded

theorem write (path : String) (document : Document) : (disk.write path document).2.Grounded := by
  refine ⟨isGrounded_write grounded.files path document, ?_⟩
  obtain ⟨here, walked⟩ := grounded.rooted
  have same : (disk.write path document).2.project = disk.project := by
    rw [(puts_write disk path document).2]
  rw [same]
  exact ⟨here, (keeps_write disk path document).walkFrom walked⟩

/-- Nothing is missing on the way to a manifest that is there. -/
theorem reaches (relative : disk.project.IsRelative workspace)
    (there : (disk.files.get? (disk.project.resolved (Workspace.manifestPath workspace))).isSome) :
    disk.files.walk (disk.project.absolute (Workspace.manifestPath workspace)) ≠ .error .missing := by
  obtain ⟨here, walked⟩ := grounded.rooted
  have root : here = disk.project.resolved "" := by
    rw [FileTree.walkFrom_place List.not_mem_nil walked, Project.resolved_root]
    rfl
  have stem := relative.spelled.stem
  have spelled : parts (disk.project.absolute (Workspace.manifestPath workspace))
      = parts disk.project.root
        ++ (climb (disk.project.resolved "") (disk.project.resolved workspace) ++ [manifestFile]) := by
    rw [Workspace.manifestPath_of_stem stem, Project.parts_slash_absolute stem
      isName_manifestFile.component, Project.parts_absolute, relative.spelled.notAbsolute,
      if_neg (by decide), relative.parts_eq, List.append_assoc]
  rw [Workspace.resolved_manifestPath _ stem] at there
  unfold FileTree.walk
  split
  · nofun
  · split
    · nofun
    · rw [spelled, FileTree.walkFrom_goesOn walked, root]
      have climbs : disk.files.walkFrom ([] ++ disk.project.resolved "")
          (climb (disk.project.resolved "") (disk.project.resolved workspace) ++ [manifestFile])
            ≠ .error .missing := by
        apply grounded.files.walkFrom_climb
        · intro member
          rcases List.mem_append.mp member with above | last
          · exact not_mem_resolve _ above
          · exact absurd (List.mem_singleton.mp last) (by decide)
        · exact there
      exact climbs

/-- A manifest that is read once something was put elsewhere was read before. -/
theorem read_back (relative : disk.project.IsRelative workspace)
    (same : after.project = disk.project) {target : Place} {content : Content}
    (puts : disk.files.Puts target content after.files)
    (elsewhere : disk.project.resolved (Workspace.manifestPath workspace) ≠ target) {value : Json}
    (reads : after.read (Workspace.manifestPath workspace) = .ok value) :
    disk.read (Workspace.manifestPath workspace) = .ok value := by
  obtain ⟨held, decoded, holds, decodes, parsed⟩ := read_eq_ok.mp reads
  have found := holds.found
  rw [same] at found
  have before : disk.files.get? (disk.project.resolved (Workspace.manifestPath workspace))
      = some (.file held) :=
    (puts.files _ held found).resolve_right fun own => elsewhere own.1
  refine read_eq_ok.mpr ⟨held, decoded, ⟨?_, before⟩, decodes, parsed⟩
  cases walked : disk.files.walk (disk.project.absolute (Workspace.manifestPath workspace)) with
  | ok place => rw [FileTree.walk_place walked, Project.resolved_eq]
  | error fault =>
      have there : fault ≠ .missing := by
        rintro rfl
        exact grounded.reaches relative (by rw [before]; rfl) walked
      have refused := FileTree.walk_refused puts.keeps puts.stays walked there
      rw [← same, holds.walk] at refused
      cases refused

end Grounded

end RefSync.Disk

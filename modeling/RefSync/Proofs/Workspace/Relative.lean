/-
Paths as they are seen from the root of a project.
-/

import RefSync.Proofs.Path.Components
import RefSync.Workspace

namespace RefSync

open Path

theorem climb_components {start target : List String}
    (proper : ∀ part ∈ target, IsComponent part) :
    ∀ part ∈ climb start target, IsComponent part := by
  have up : IsComponent ".." := ⟨by decide, by decide, by decide⟩
  have ups (away : List String) : ∀ part ∈ away.map (fun _ => ".."), IsComponent part := by
    intro part member
    obtain ⟨_, _, rfl⟩ := List.mem_map.mp member
    exact up
  induction start generalizing target with
  | nil => exact proper
  | cons here rest ih =>
      cases target with
      | nil => exact ups (here :: rest)
      | cons there others =>
          have othersProper : ∀ part ∈ others, IsComponent part :=
            fun part member => proper part (List.mem_cons_of_mem _ member)
          rw [climb]
          split
          · exact ih othersProper
          · intro part member
            rcases List.mem_append.mp member with climbing | down
            · exact ups (here :: rest) part climbing
            · exact proper part down

namespace Project

/-- The path of a place as it is seen from the root. -/
def fromRoot (project : Project) (place : List String) : String :=
  ofParts (climb (project.resolved "") place)

theorem parts_absolute (project : Project) (path : String) :
    parts (project.absolute path)
      = if isAbsolute path then parts path else parts project.root ++ parts path := by
  unfold absolute
  split
  · exact parts_tidy path
  · have proper : ∀ part ∈ parts path, IsComponent part :=
      fun _ member => isComponent_of_mem_parts member
    dsimp only
    split
    · rename_i none
      rw [List.isEmpty_iff.mp none, List.append_nil]
    · rw [parts_join (isAbsolute_joinParts proper), parts_joinParts proper]

theorem resolved_eq (project : Project) (path : String) :
    project.resolved path = resolve true (parts (project.absolute path)) := by
  rw [parts_absolute, resolved]
  cases absolute : isAbsolute path with
  | true => rw [join, if_pos absolute, if_pos rfl]
  | false => rw [parts_join absolute, if_neg (by decide)]

theorem resolved_root (project : Project) :
    project.resolved "" = resolve true (parts project.root) := by
  rw [resolved_eq, parts_absolute, if_neg (by decide), parts_empty, List.append_nil]

theorem relative_spelled (project : Project) (path : String) :
    IsSpelled (project.relative path) := by
  have proper : ∀ part ∈ project.resolved path, IsComponent part :=
    fun part member => isComponent_of_mem_parts (mem_of_mem_resolve member)
  unfold IsSpelled Project.relative
  rw [parts_ofParts (climb_components proper)]

/-- A path as it is seen from the root. -/
def IsRelative (project : Project) (path : String) : Prop :=
  ∃ given, project.relative given = path

theorem IsRelative.spelled {project : Project} {path : String} (relative : project.IsRelative path) :
    IsSpelled path := by
  obtain ⟨given, rfl⟩ := relative
  exact project.relative_spelled given

end Project
end RefSync

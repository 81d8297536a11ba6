/-
What the path of an artifact is taken for. The events of an artifact are recognized where the
workspace is apart; those of any other artifact are taken for nothing at all.
-/

import RefSync.Proofs.Registry.Sound
import RefSync.Proofs.Workspace.Places
import RefSync.Watch.Event

namespace RefSync.Watch

open Path

variable {project : Project} {registry : Registry} {workspace : String}

/-- The path of an artifact is that of no other document. -/
theorem classify_artifactPath (sound : registry.Sound project)
    (relative : project.IsRelative workspace) :
    classifyRelative registry (Workspace.artifactPath workspace)
      = if registry.artifacts.contains (Workspace.artifactPath workspace) then some .artifact
        else none := by
  have stem := relative.spelled.stem
  have last := Workspace.last_artifactPath stem
  have notRoot : Workspace.artifactPath workspace ≠ manifestFile := by
    intro same
    rw [same] at last
    exact absurd last (by decide)
  have notManifest : registry.manifests.contains (Workspace.artifactPath workspace) = false := by
    rw [List.contains_eq_mem, decide_eq_false_iff_not]
    intro member
    obtain ⟨other, otherRelative, same⟩ := sound.manifests _ member
    rw [same, Workspace.last_manifestPath] at last
    exact absurd last (by decide)
  have notConfig : (baseName (Workspace.artifactPath workspace) == configFile) = false := by
    rw [Workspace.baseName_artifactPath stem]
    decide
  rw [classifyRelative, if_neg (mt eq_of_beq notRoot), notManifest, notConfig]
  simp only [Bool.false_and, Bool.false_eq_true, if_false]

theorem classify_of_artifact (sound : registry.Sound project) (relative : project.IsRelative workspace)
    (watched : Workspace.artifactPath workspace ∈ registry.artifacts) :
    classifyRelative registry (Workspace.artifactPath workspace) = some .artifact := by
  rw [classify_artifactPath sound relative, if_pos (List.contains_iff_mem.mpr watched)]

theorem classify_of_not_apart (sound : registry.Sound project) (relative : project.IsRelative workspace)
    (lost : ¬Workspace.IsApart project workspace) :
    classifyRelative registry (project.relative (Workspace.artifactPath workspace)) = none := by
  have stem := relative.spelled.stem
  have place : project.resolved (project.relative (Workspace.artifactPath workspace))
      = project.resolved workspace ++ [Config.artifactDirectory, Config.artifactFile] := by
    rw [project.resolved_relative, Workspace.resolved_artifactPath project stem]
  have spelled := project.relative_spelled (Workspace.artifactPath workspace)
  have elsewhere := mt (Workspace.relative_artifactPath relative).mp lost
  generalize project.relative (Workspace.artifactPath workspace) = path at place spelled elsewhere ⊢
  -- Every place ends with the name of its document, and this one with that of an artifact.
  have other (name : String) (named : name ≠ "..") (differs : name ≠ Config.artifactFile) :
      (parts path).getLast? ≠ some name := by
    intro last
    have ends := project.last_resolved last named
    rw [place, List.getLast?_append] at ends
    exact differs (Option.some.inj ends).symm
  have notRoot : path ≠ manifestFile := by
    rintro rfl
    exact other manifestFile (by decide) (by decide) (by decide)
  have notManifest : registry.manifests.contains path = false := by
    rw [List.contains_eq_mem, decide_eq_false_iff_not]
    intro member
    obtain ⟨holder, holderRelative, rfl⟩ := sound.manifests _ member
    exact other manifestFile (by decide) (by decide)
      (Workspace.last_manifestPath _)
  have notArtifact : registry.artifacts.contains path = false := by
    rw [List.contains_eq_mem, decide_eq_false_iff_not]
    intro member
    obtain ⟨holder, watches, rfl⟩ := sound.artifacts _ member
    rw [Workspace.resolved_artifactPath project watches.1] at place
    have holderRelative : project.IsRelative holder := by
      obtain ⟨other, otherRelative, same⟩ := sound.manifests _ watches.2
      rw [Workspace.manifestPath_injective watches.1 otherRelative.spelled.stem same]
      exact otherRelative
    have same := holderRelative.injective relative (List.append_cancel_right place)
    rw [same] at elsewhere
    exact elsewhere rfl
  have notConfig : (baseName path == configFile) = false := by
    apply beq_false_of_ne
    intro same
    by_cases top : path = "."
    · rw [top] at same
      exact absurd same (by decide)
    · have last := spelled.baseName top
      rw [same] at last
      exact other configFile (by decide) (by decide) last
  rw [classifyRelative, if_neg (mt eq_of_beq notRoot), notManifest, notArtifact, notConfig]
  rfl

end RefSync.Watch

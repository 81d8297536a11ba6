/-
The handlers of the root manifest leave the engine orderly when nobody else is at work, whether
they go through or end early. They need manifests that can be got at for a full engine to stay
full.
-/

import RefSync.Proofs.Watch.Exchanging
import RefSync.Watch.Dispatch

namespace RefSync

open Routine Path

namespace Watch

section

variable {project : Project} {full : Prop} {options : SyncOptions} {now : Engine × Disk}

section

variable (orderly : now.1.Orderly project full []) (same : now.2.project = project)
  (plain : full → now.2.PlainManifests)

include orderly same plain

theorem leavesOrderly_rootCreated (inactive : now.1.active = false) :
    LeavesOrderly project full (rootCreated project options) now fun _ _ => True := by
  have leads : Leads Disk.alone (rootCreated project options) now
      fun result later => orderlyEnd project full (fun _ _ => True) result later later := by
    apply leads_creation orderly same inactive
    · intro fault document _
      refine ⟨orderly, fun other member _ => ?_⟩
      rw [List.mem_singleton.mp member]
      exact notFatal_of_documentFault document
    · rintro found ⟨manifest, _, answer⟩ addition
      exact leavesOrderly_addWorkspaces addition fun isFull => plain isFull _ found answer
  exact leads

theorem leavesOrderly_rootUpdated (active : now.1.active = true) :
    LeavesOrderly project full (rootUpdated project options) now fun _ _ => True := by
  have leads : Leads Disk.alone (rootUpdated project options) now
      fun result later => orderlyEnd project full (fun _ _ => True) result later later := by
    apply leads_exchange orderly same active
    · intro fault document _
      refine ⟨orderly, fun other member _ => ?_⟩
      rw [List.mem_singleton.mp member]
      exact notFatal_of_documentFault document
    · exact fun _ _ _ => ⟨orderly, trivial⟩
    · intro found added gone log exchange addition
      obtain ⟨manifest, _, answer⟩ := exchange.tells
      apply leavesOrderly_addWorkspaces addition
      exact fun isFull workspace member =>
        plain isFull _ found answer workspace ((exchange.comes workspace).mp member).1
  exact leads

end

theorem orderly_start {disk : Disk} (same : disk.project = project)
    (plain : full → disk.PlainManifests) :
    LeavesOrderly project full (start project options) ({}, disk) fun _ _ => True := by
  have orderly : Engine.Orderly project full [] {} :=
    ⟨Registry.sound_empty, fun _ _ _ => Registry.settled_of_unnamed rfl, fun _ => rfl⟩
  have leads : Leads Disk.alone (start project options) ({}, disk)
      fun result later => orderlyEnd project full (fun _ _ => True) result later later := by
    apply leads_begin same
    · exact fun fault _ => ⟨orderly, fun _ member _ => List.mem_singleton.mp member ▸ rfl⟩
    · exact fun log _ => ⟨orderly.logged log, trivial⟩
    · rintro found ⟨manifest, _, answer⟩ addition
      exact leavesOrderly_addWorkspaces addition fun isFull => plain isFull _ found answer
  exact leads

end

end Watch
end RefSync
